-- What is left of the result of a query on its way to the model: the rows become
-- dictionaries, which have each name once, and the dictionaries become JSON, which has
-- no times of day, no durations and no bytes.
import SaasBackend.AdminAccess

open async

namespace saas

/-! ## Rows as dictionaries -/

section

variable {pairs dict : List (String × SqlValue)} {columns : List String} {row : List SqlValue}
  {key name : String} {value : SqlValue}

theorem to_dict_snoc : to_dict (pairs ++ [(key, value)]) =
    if (to_dict pairs).any (·.1 == key) then
      (to_dict pairs).map fun p => if p.1 = key then (key, value) else p
    else to_dict pairs ++ [(key, value)] := by
  unfold to_dict
  rw [List.foldl_append]
  rfl

theorem lookup_pair : ((key, value) :: dict).lookup name =
    if name = key then some value else dict.lookup name := by
  rw [List.lookup_cons]
  by_cases hname : name = key
  · simp [hname]
  · rw [if_neg hname, beq_false_of_ne hname]

theorem lookup_replaced :
    (dict.map fun p => if p.1 = key then (key, value) else p).lookup name =
      if name = key then (dict.lookup key).map fun _ => value else dict.lookup name := by
  induction dict with
  | nil => simp
  | cons p dict ih =>
    obtain ⟨k, v⟩ := p
    rw [List.map_cons]
    by_cases hk : k = key
    · subst hk
      rw [if_pos rfl, lookup_pair, lookup_pair, lookup_pair, if_pos rfl, ih]
      by_cases hname : name = k
      · simp [hname]
      · simp [hname]
    · have hk' : ¬ key = k := fun h => hk h.symm
      rw [if_neg hk, lookup_pair, lookup_pair, lookup_pair, if_neg hk', ih]
      by_cases hname : name = k
      · simp [hname, hk]
      · simp [hname]

theorem any_key : dict.any (·.1 == key) = (dict.lookup key).isSome := by
  rw [Bool.eq_iff_iff, List.any_eq_true, List.lookup_isSome_iff]
  simp only [beq_iff_eq]
  exact exists_congr fun p => and_congr_right fun _ => eq_comm

/-- The last value of a name is the one that is found. -/
theorem lookup_to_dict : (to_dict pairs).lookup name = pairs.reverse.lookup name := by
  induction pairs using List.reverseRecOn with
  | nil => rfl
  | append_singleton pairs p ih =>
    obtain ⟨key, value⟩ := p
    rw [to_dict_snoc, any_key, List.reverse_append, List.reverse_singleton, List.singleton_append,
      lookup_pair, ← ih]
    rcases hkey : (to_dict pairs).lookup key with _ | old
    · rw [Option.isSome_none, if_neg Bool.false_ne_true, List.lookup_append, lookup_pair]
      by_cases hname : name = key
      · simp [hname, hkey]
      · simp [hname]
    · rw [Option.isSome_some, if_pos rfl, lookup_replaced, hkey]
      rfl

/-- The values of a preview row, by the names in `columns`. -/
def rebuilt (columns : List String) (row : List (String × SqlValue)) : List (Option SqlValue) :=
  columns.map fun name => row.lookup name

/-- The row has one value for each column, and the same value in columns of the same
name. -/
structure Keeps (columns : List String) (row : List SqlValue) : Prop where
  width : row.length = columns.length
  agree : ∀ (i j : Nat) (name : String), columns[i]? = some name → columns[j]? = some name →
    row[i]? = row[j]?

theorem rebuilt_getElem? {i : Nat} (h : rebuilt columns dict = row.map some)
    (hi : columns[i]? = some name) : row[i]? = dict.lookup name := by
  have hsame := congrArg (·[i]?) h
  unfold rebuilt at hsame
  simp only [List.getElem?_map, hi, Option.map_some] at hsame
  cases hrow : row[i]? with
  | none =>
    rw [hrow] at hsame
    cases hsame
  | some value =>
    rw [hrow, Option.map_some] at hsame
    exact (Option.some.inj hsame).symm

theorem rebuilt_iff : rebuilt columns (to_dict (columns.zip row)) = row.map some ↔
    Keeps columns row := by
  constructor
  · intro h
    have hlength := congrArg List.length h
    rw [rebuilt, List.length_map, List.length_map] at hlength
    refine ⟨hlength.symm, fun i j name hi hj => ?_⟩
    rw [rebuilt_getElem? h hi, rebuilt_getElem? h hj]
  · intro h
    apply List.ext_getElem?
    intro i
    rw [rebuilt, List.getElem?_map, List.getElem?_map]
    rcases hi : columns[i]? with _ | name
    · have hrow : row[i]? = none := by
        rw [List.getElem?_eq_none_iff, h.width]
        exact List.getElem?_eq_none_iff.mp hi
      rw [hrow]
      rfl
    · -- the value that is found is at a column of the same name
      obtain ⟨value, hrow⟩ : ∃ value, row[i]? = some value := by
        have hlt : i < row.length := by
          rw [h.width]
          exact (List.getElem?_eq_some_iff.mp hi).1
        exact ⟨_, List.getElem?_eq_getElem hlt⟩
      have hmem : (name, value) ∈ columns.zip row :=
        List.mem_of_getElem? (List.getElem?_zip_eq_some.mpr ⟨hi, hrow⟩)
      obtain ⟨found, hfound⟩ : ∃ found, (columns.zip row).reverse.lookup name = some found := by
        apply Option.isSome_iff_exists.mp
        rw [List.lookup_isSome_iff]
        exact ⟨(name, value), List.mem_reverse.mpr hmem, beq_self_eq_true name⟩
      obtain ⟨before, after, hsplit, _⟩ := List.lookup_eq_some_iff.mp hfound
      have hin : (name, found) ∈ columns.zip row := by
        rw [← List.mem_reverse, hsplit]
        exact List.mem_append_right _ List.mem_cons_self
      obtain ⟨j, hj⟩ := List.mem_iff_getElem?.mp hin
      obtain ⟨hname, hvalue⟩ := List.getElem?_zip_eq_some.mp hj
      have hsame := h.agree i j name hi hname
      rw [hrow, hvalue] at hsame
      rw [hrow, Option.map_some, Option.map_some, lookup_to_dict, hfound, hsame]

end

section

variable {engine : SqlEngine} {raw sql : String} {default_limit : Nat} {result : ResultSet}
  {w : World}

theorem ai_repo.run_ai_sql.preview (hprepare : prepare engine raw "preview" default_limit = .ok sql)
    (hexecute : engine.execute w.db sql = .ok result) :
    (run_ai_sql engine raw "preview" default_limit).run w =
      (.ok (some (.preview result.columns
        (result.rows.map fun row => to_dict (result.columns.zip row)) result.rows.length)), w) := by
  unfold run_ai_sql
  rw [hprepare, Proc.run_bind_ok (Proc.run_ofExcept _ w), Proc.run_bind, Proc.run_query, hexecute]
  simp

/-- A preview counts the rows, and gives them back exactly when columns of the same
name have the same values. -/
theorem preview_rebuilds_iff
    (hprepare : ai_repo.prepare engine raw "preview" default_limit = .ok sql)
    (hexecute : engine.execute w.db sql = .ok result) :
    ∃ rows, (ai_repo.run_ai_sql engine raw "preview" default_limit).run w =
        (.ok (some (.preview result.columns rows result.rows.length)), w) ∧
      (rows.map (rebuilt result.columns) = result.rows.map (·.map some) ↔
        ∀ row ∈ result.rows, Keeps result.columns row) := by
  refine ⟨_, ai_repo.run_ai_sql.preview hprepare hexecute, ?_⟩
  rw [List.map_map, List.map_inj_left]
  simp only [Function.comp_apply, rebuilt_iff]

end

namespace Sample

/-- A store that answers every statement the same. -/
def fixed_engine (columns : List String) (row : List SqlValue) : SqlEngine where
  execute _ _ := .ok ⟨columns, [row]⟩
  view_columns _ := []
  isalnum _ := false
  float digits := digits

def two_counts : String := "SELECT count(*), count(password) FROM users"

/-- Both columns get the name of the aggregate. -/
def counts (all with_password : Int) : SqlEngine :=
  fixed_engine ["count", "count"] [.int all, .int with_password]

/-- The preview of the two counts. -/
def counts_preview (all with_password : Int) : Except Err (Option SqlResult) :=
  ((ai_repo.run_ai_sql (counts all with_password) two_counts "preview").run { db := Db.blank }).1

end Sample

open Sample in
theorem preview_rebuilds_iff_sample :
    ∃ rows, counts_preview 2 2 = .ok (some (.preview ["count", "count"] rows 1)) ∧
      rows.map (rebuilt ["count", "count"]) = [[some (.int 2), some (.int 2)]] := by
  have hprepare : ai_repo.prepare (counts 2 2) two_counts "preview" =
      .ok (two_counts ++ "\nLIMIT 200") := by decide +kernel
  obtain ⟨rows, hrun, hiff⟩ := preview_rebuilds_iff (w := { db := Db.blank }) hprepare rfl
  refine ⟨rows, congrArg Prod.fst hrun, hiff.mpr fun row hrow => ?_⟩
  rw [List.mem_singleton.mp hrow]
  exact rebuilt_iff.mp (by decide +kernel)

/-- Of three users two have a password, and the first count is lost. -/
theorem preview_loses_a_column :
    ∃ rows, Sample.counts_preview 3 2 = .ok (some (.preview ["count", "count"] rows 1)) ∧
      rows.map (rebuilt ["count", "count"]) = [[some (.int 2), some (.int 2)]] ∧
      rows.map (rebuilt ["count", "count"]) ≠ [[some (.int 3), some (.int 2)]] :=
  ⟨[[("count", .int 2)]], by decide +kernel, by decide +kernel, by decide +kernel⟩

/-! ## Results as JSON -/

/-- Neither is a time of day, a duration or bytes. -/
def SqlScalar.has_json : SqlScalar → Bool
  | .time _ => false
  | .timedelta _ => false
  | .bytes _ => false
  | _ => true

/-- The values in the rows of a result. -/
def SqlResult.values : Option SqlResult → List SqlValue
  | some (.count rows) => rows.flatMap (·.map Prod.snd)
  | some (.preview _ rows _) => rows.flatMap (·.map Prod.snd)
  | _ => []

section

variable {engine : SqlEngine} {float : String → String} {scalar : SqlScalar}
  {result : Option SqlResult} {rows : List (List (String × SqlValue))} {columns : List String}
  {call : ToolCall} {arguments : ToolArguments} {w w' : World}

theorem encode_scalar_ok (float : String → String) :
    (∃ json, encode_scalar float scalar = .ok json) ↔ scalar.has_json = true := by
  cases scalar <;> simp [encode_scalar, SqlScalar.native, json_safe, SqlScalar.has_json]

def SqlValue.has_json (value : SqlValue) : Prop := ∀ scalar ∈ value.scalars, scalar.has_json = true

theorem array_has_json {values : List SqlValue} : SqlValue.has_json (.array values) ↔
    ∀ value ∈ values, SqlValue.has_json value := by
  unfold SqlValue.has_json
  rw [nested.Value.scalars]
  simp only [nested.Value.mem_scalars_values]
  constructor
  · intro h v hv a ha
    exact h a ⟨v, hv, ha⟩
  · rintro h a ⟨v, hv, ha⟩
    exact h v hv a ha

theorem object_has_json {fields : List (String × SqlValue)} : SqlValue.has_json (.object fields) ↔
    ∀ field ∈ fields, SqlValue.has_json field.2 := by
  unfold SqlValue.has_json
  rw [nested.Value.scalars]
  simp only [nested.Value.mem_scalars_fields]
  constructor
  · intro h v hv a ha
    exact h a ⟨v, hv, ha⟩
  · rintro h a ⟨v, hv, ha⟩
    exact h v hv a ha

theorem scalar_has_json : SqlValue.has_json (.scalar scalar) ↔ scalar.has_json = true :=
  List.forall_mem_singleton

theorem columns_has_json : (SqlResult.columns_value columns).has_json := by
  rw [SqlResult.columns_value, array_has_json]
  intro value hvalue
  obtain ⟨name, _, rfl⟩ := List.mem_map.mp hvalue
  exact scalar_has_json.mpr rfl

theorem rows_has_json : (SqlResult.rows_value rows).has_json ↔
    ∀ value ∈ rows.flatMap (·.map Prod.snd), SqlValue.has_json value := by
  rw [SqlResult.rows_value, array_has_json]
  simp only [List.forall_mem_map, object_has_json, List.forall_mem_flatMap]

/-- What `run_ai_sql` adds to the rows has JSON. -/
theorem to_value_has_json : (SqlResult.to_value result).has_json ↔
    ∀ value ∈ SqlResult.values result, SqlValue.has_json value := by
  have hint : ∀ n, (SqlValue.int n).has_json := fun n => scalar_has_json.mpr rfl
  have htext : ∀ s, (SqlValue.text s).has_json := fun s => scalar_has_json.mpr rfl
  have htrue : SqlValue.has_json (.scalar (.bool true)) := scalar_has_json.mpr rfl
  rcases result with _ | rows | ⟨columns, rows, n⟩ | ⟨n, columns, file_id⟩
  · simp [SqlResult.to_value, SqlResult.values, scalar_has_json, SqlScalar.has_json]
  · simp only [SqlResult.to_value, SqlResult.values, object_has_json, List.forall_mem_singleton,
      rows_has_json]
  · simp [SqlResult.to_value, SqlResult.values, object_has_json, rows_has_json, columns_has_json,
      hint]
  · simp [SqlResult.to_value, SqlResult.values, object_has_json, columns_has_json, hint, htext,
      htrue]

theorem dumps_ok (float : String → String) :
    (∃ json, dumps float (SqlResult.to_value result) = .ok json) ↔
      ∀ value ∈ SqlResult.values result, SqlValue.has_json value := by
  rw [← to_value_has_json]
  unfold SqlValue.has_json
  simp only [← encode_scalar_ok float]
  exact nested.Value.translates_iff

/-- The result of a query is sent exactly when no value in its rows has, at any depth,
a time of day, a duration or bytes. -/
theorem query_result_is_sent_iff (hname : call.name = "execute_sql")
    (harguments : call.arguments = some arguments)
    (hrun : (AiSerivce.execute_ai_sql engine arguments.sql
      (arguments.mode.getD "preview")).run w = (.ok result, w')) :
    (∃ response, (AiSerivce.dispatch_call engine call).run w = (.ok response, w')) ↔
      ∀ value ∈ SqlResult.values result, ∀ scalar ∈ value.scalars,
        scalar.has_json = true := by
  have hother : ¬ call.name = "get_view_columns" := by
    rw [hname]
    decide
  have hdispatch : (AiSerivce.dispatch_call engine call).run w =
      ((dumps engine.float (SqlResult.to_value result)).map fun json =>
        .tool call.id (.result json), w') := by
    unfold AiSerivce.dispatch_call
    rw [harguments]
    dsimp only
    rw [if_neg hother, if_pos hname, Proc.run_bind_ok hrun, Proc.run_bind, Proc.run_ofExcept]
    rcases dumps engine.float (SqlResult.to_value result) with e | json <;> rfl
  rw [hdispatch]
  refine Iff.trans ?_ (dumps_ok engine.float)
  simp only [Prod.mk.injEq, and_true]
  exact nested.Value.map_ok_iff

end

namespace Sample

/-- The query that the system message suggests. -/
def first_to_last : String := "SELECT max(created_at) - min(created_at) AS difference FROM users"

def difference_call : ToolCall := ⟨"a", "execute_sql", some { sql := some first_to_last }⟩

/-- A price, its plan and the days of its payments, as an array in a JSON object. -/
def price_engine : SqlEngine := fixed_engine ["price", "paid"]
  [.scalar (.decimal "9.99"),
    .object [("plan", .scalar (.uuid "0")), ("days", .array [.scalar (.date "2025-11-17")])]]

/-- The driver gives the difference as a `timedelta`. -/
def difference_engine : SqlEngine := fixed_engine ["difference"] [.scalar (.timedelta 90000000)]

end Sample

open Sample in
theorem query_result_is_sent_iff_sample :
    ∃ response, (AiSerivce.dispatch_call price_engine difference_call).run { db := Db.blank } =
      (.ok response, { db := Db.blank }) := by
  have hname : difference_call.name = "execute_sql" := rfl
  have hprepare : ai_repo.prepare price_engine first_to_last "preview" =
      .ok (first_to_last ++ "\nLIMIT 200") := by decide +kernel
  have hrun := ai_repo.run_ai_sql.preview (w := { db := Db.blank }) hprepare rfl
  exact (query_result_is_sent_iff hname rfl hrun).mpr (by decide +kernel)

/-- The conversation about the difference of two times ends with an error. -/
theorem difference_is_not_sent :
    ((AiSerivce.dispatch_call Sample.difference_engine Sample.difference_call).run
      { db := Db.blank }).1 = .error .valueError := by
  decide +kernel

end saas
