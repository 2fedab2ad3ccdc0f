-- Statements that change the schema of a database that has rows in it: what each one
-- makes of the schema, when the rows admit it, and what it makes of the rows.
import Mathlib.Data.List.Forall2
import Mathlib.Logic.Function.Basic

namespace ddl

/-! ## Schemas -/

inductive ColumnType where
  | uuid
  /-- Text, with a bound on its length or without one. -/
  | varchar (limit : Option Nat)
  | boolean
  | integer
  | timestamptz
  | jsonb
  | enum (name : String)
deriving DecidableEq, Repr

inductive Value where
  | uuid (n : Nat)
  | text (s : String)
  | boolean (b : Bool)
  | integer (n : Int)
  | timestamp (microseconds : Int)
  | json (s : String)
  | label (s : String)
deriving DecidableEq, Repr

structure Column where
  name : String
  type : ColumnType
  nullable : Bool
  default : Option Value := none
deriving DecidableEq, Repr

inductive OnDelete where
  | no_action
  | cascade
  | set_null
deriving DecidableEq, Repr

inductive Rule where
  | primary_key (columns : List String)
  | unique (columns : List String)
  | foreign_key (columns : List String) (table : String) (references : List String)
    (ondelete : OnDelete)
deriving DecidableEq, Repr

structure Constraint where
  name : String
  rule : Rule
deriving DecidableEq, Repr

structure Index where
  name : String
  columns : List String
deriving DecidableEq, Repr

structure Table where
  name : String
  columns : List Column
  constraints : List Constraint := []
  indexes : List Index := []
deriving DecidableEq, Repr

/-- The enum types with their labels, and the tables. -/
structure Schema where
  types : List (String × List String) := []
  tables : List Table := []
deriving DecidableEq, Repr

namespace Rule

/-- The columns of the table itself that the rule is about. -/
def columns : Rule → List String
  | primary_key columns => columns
  | unique columns => columns
  | foreign_key columns _ _ _ => columns

/-- The rule refers to the column of the other table. -/
def refers (table column : String) : Rule → Bool
  | foreign_key _ other references _ => other = table && decide (column ∈ references)
  | _ => false

def refers_to (table : String) : Rule → Bool
  | foreign_key _ other _ _ => other = table
  | _ => false

end Rule

def Table.has_column (t : Table) (column : String) : Bool := t.columns.any (·.name = column)

namespace Schema

def table? (S : Schema) (name : String) : Option Table := S.tables.find? (·.name = name)

def has_table (S : Schema) (name : String) : Bool := (S.table? name).isSome

def has_column (S : Schema) (table column : String) : Bool :=
  (S.table? table).any (·.has_column column)

def labels (S : Schema) (type : String) : Option (List String) := S.types.lookup type

/-- Each enum type has been created. -/
def knows (S : Schema) : ColumnType → Bool
  | .enum name => (S.labels name).isSome
  | _ => true

/-- Some table has a column of the enum type. -/
def uses (S : Schema) (type : String) : Bool :=
  S.tables.any fun t => t.columns.any (·.type = .enum type)

/-- The rule is about columns that there are. -/
def supports (S : Schema) (t : Table) (rule : Rule) : Bool :=
  rule.columns.all t.has_column &&
    match rule with
    | .foreign_key _ other references _ =>
      references.all fun column =>
        S.has_column other column || (other = t.name && t.has_column column)
    | _ => true

/-- Another table has a foreign key to the table. -/
def needs (S : Schema) (table : String) : Bool :=
  S.tables.any fun t => t.name ≠ table && t.constraints.any (·.rule.refers_to table)

def index_named (S : Schema) (name : String) : Bool :=
  S.tables.any fun t => t.indexes.any (·.name = name)

/-- The schema with one of its tables changed. -/
def change (S : Schema) (name : String) (f : Table → Option Table) : Option Schema :=
  match S.table? name with
  | none => none
  | some t => (f t).map fun t' =>
    { S with tables := S.tables.map fun u => if u.name = name then t' else u }

end Schema

/-! ## Rows -/

/-- The values in the columns, where `none` is NULL. -/
abbrev Row := String → Option Value

/-- The rows of the tables. -/
abbrev Data := String → List Row

def Value.fits (S : Schema) : ColumnType → Value → Bool
  | .uuid, uuid _ => true
  | .varchar limit, text s => limit.all fun n => s.length ≤ n
  | .boolean, boolean _ => true
  | .integer, integer n => -2147483648 ≤ n && n ≤ 2147483647
  | .timestamptz, timestamp _ => true
  | .jsonb, json _ => true
  | .enum name, label s => (S.labels name).any (s ∈ ·)
  | _, _ => false

/-- The value as one of another type: a text as a label of an enum, and a label as text. -/
def Value.convert : ColumnType → Value → Value
  | .enum _, text s => label s
  | .varchar _, label s => text s
  | _, v => v

/-- Two rows are told apart by the columns. NULL is told apart from everything. -/
def Row.Apart (columns : List String) (row row' : Row) : Prop :=
  ∃ c ∈ columns, row c = none ∨ row' c = none ∨ row c ≠ row' c

def Rule.Holds (table : String) (d : Data) : Rule → Prop
  | primary_key columns => (d table).Pairwise (Row.Apart columns) ∧
    ∀ row ∈ d table, ∀ c ∈ columns, row c ≠ none
  | unique columns => (d table).Pairwise (Row.Apart columns)
  | foreign_key columns other references _ => ∀ row ∈ d table,
    (∃ c ∈ columns, row c = none) ∨ ∃ row' ∈ d other, columns.map row = references.map row'

instance (columns : List String) (row row' : Row) : Decidable (row.Apart columns row') :=
  inferInstanceAs (Decidable (∃ c ∈ columns, _))

instance (table : String) (d : Data) : (rule : Rule) → Decidable (rule.Holds table d)
  | .primary_key _ => inferInstanceAs (Decidable (_ ∧ _))
  | .unique _ => inferInstanceAs (Decidable (List.Pairwise _ _))
  | .foreign_key _ _ _ _ => inferInstanceAs (Decidable (∀ row ∈ d table, _))

/-- A value for each column that must have one, of its type, and rows that keep the
rules of the table. -/
structure Table.Admits (t : Table) (S : Schema) (d : Data) : Prop where
  columns : ∀ row ∈ d t.name, ∀ col ∈ t.columns,
    (row col.name = none → col.nullable = true) ∧ ∀ v ∈ row col.name, v.fits S col.type = true
  rules : ∀ c ∈ t.constraints, c.rule.Holds t.name d

instance (t : Table) (S : Schema) (d : Data) : Decidable (t.Admits S d) :=
  decidable_of_iff ((∀ row ∈ d t.name, ∀ col ∈ t.columns, (row col.name = none →
      col.nullable = true) ∧ ∀ v ∈ row col.name, v.fits S col.type = true) ∧
    ∀ c ∈ t.constraints, c.rule.Holds t.name d)
    ⟨fun h => ⟨h.1, h.2⟩, fun h => ⟨h.columns, h.rules⟩⟩

/-- Contents of a database with the schema. -/
structure Contents (S : Schema) where
  rows : Data
  valid : ∀ t ∈ S.tables, t.Admits S rows

/-! ## Statements -/

inductive Statement where
  | create_type (name : String) (labels : List String) (if_absent : Bool)
  | drop_type (name : String) (if_exists : Bool)
  | add_value (type label : String)
  | create_table (table : Table)
  | drop_table (name : String)
  | add_column (table : String) (column : Column)
  | drop_column (table column : String)
  | alter_nullable (table column : String) (nullable : Bool)
  /-- The values are converted. -/
  | alter_type (table column : String) (type : ColumnType)
  | create_index (table : String) (index : Index)
  | drop_index (table name : String)
  | add_constraint (table : String) (constraint : Constraint)
  | drop_constraint (table name : String)
  /-- No statement can be written. -/
  | unwritten
deriving DecidableEq, Repr

namespace Statement

/-- What a statement makes of the schema. It fails when what it is about is missing or
is there already, and when something else needs what it drops. -/
def alter (S : Schema) : Statement → Option Schema
  | create_type name labels if_absent =>
    if S.labels name = none then some { S with types := S.types ++ [(name, labels)] }
    else if if_absent then some S else none
  | drop_type name if_exists =>
    if S.labels name = none then if if_exists then some S else none
    else if S.uses name then none
    else some { S with types := S.types.filter (·.1 ≠ name) }
  | add_value type label => match S.labels type with
    | none => none
    | some labels =>
      if label ∈ labels then some S
      else some { S with types := S.types.map fun t =>
        if t.1 = type then (type, labels ++ [label]) else t }
  | create_table t =>
    if S.has_table t.name then none
    else if t.columns.all (S.knows ·.type) && t.constraints.all (S.supports t ·.rule) then
      some { S with tables := S.tables ++ [t] }
    else none
  | drop_table name =>
    if S.has_table name && !S.needs name then
      some { S with tables := S.tables.filter (·.name ≠ name) }
    else none
  | add_column table col => S.change table fun t =>
    if t.has_column col.name || !S.knows col.type then none
    else some { t with columns := t.columns ++ [col] }
  | drop_column table column =>
    if S.tables.any fun t =>
      t.name ≠ table && t.constraints.any (·.rule.refers table column) then none
    else S.change table fun t =>
      if t.has_column column then
        -- the indexes and the constraints with the column in them go with it
        some { t with
          columns := t.columns.filter (·.name ≠ column)
          constraints := t.constraints.filter (column ∉ ·.rule.columns)
          indexes := t.indexes.filter (column ∉ ·.columns) }
      else none
  | alter_nullable table column nullable => S.change table fun t =>
    if t.has_column column then
      some { t with columns := t.columns.map fun col =>
        if col.name = column then { col with nullable := nullable } else col }
    else none
  | alter_type table column type => S.change table fun t =>
    if t.has_column column && S.knows type then
      some { t with columns := t.columns.map fun col =>
        if col.name = column then { col with type := type } else col }
    else none
  | create_index table index =>
    if S.index_named index.name then none
    else S.change table fun t =>
      if index.columns.all t.has_column then some { t with indexes := t.indexes ++ [index] }
      else none
  | drop_index table name => S.change table fun t =>
    if t.indexes.any (·.name = name) then
      some { t with indexes := t.indexes.filter (·.name ≠ name) }
    else none
  | add_constraint table c => S.change table fun t =>
    if t.constraints.any (·.name = c.name) || !S.supports t c.rule then none
    else some { t with constraints := t.constraints ++ [c] }
  | drop_constraint table name => S.change table fun t =>
    if t.constraints.any (·.name = name) then
      some { t with constraints := t.constraints.filter (·.name ≠ name) }
    else none
  | unwritten => none

/-- What a statement asks of the rows. -/
def Admits (S : Schema) (d : Data) : Statement → Prop
  | add_column table col =>
    col.nullable = true ∨ col.default.isSome = true ∨ (d table).isEmpty = true
  | alter_nullable table column nullable =>
    nullable = true ∨ ∀ row ∈ d table, (row column).isSome = true
  | alter_type table column type =>
    ∀ row ∈ d table, ∀ v ∈ row column, (v.convert type).fits S type = true
  | add_constraint table c => c.rule.Holds table d
  | _ => True

instance (S : Schema) (d : Data) : (st : Statement) → Decidable (st.Admits S d)
  | add_column _ _ => inferInstanceAs (Decidable (_ ∨ _ ∨ _))
  | alter_nullable _ _ _ => inferInstanceAs (Decidable (_ ∨ _))
  | alter_type table _ _ => inferInstanceAs (Decidable (∀ row ∈ d table, _))
  | add_constraint _ _ => inferInstanceAs (Decidable (Rule.Holds _ _ _))
  | create_type _ _ _ | drop_type _ _ | add_value _ _ | create_table _ | drop_table _
  | drop_column _ _ | create_index _ _ | drop_index _ _ | drop_constraint _ _ | unwritten =>
    inferInstanceAs (Decidable True)

/-- What a statement makes of the rows. -/
def rows (d : Data) : Statement → Data
  | create_table t => Function.update d t.name []
  | drop_table name => Function.update d name []
  | add_column table col => Function.update d table
    ((d table).map fun row => Function.update row col.name col.default)
  | drop_column table column => Function.update d table
    ((d table).map fun row => Function.update row column none)
  | alter_type table column type => Function.update d table
    ((d table).map fun row => Function.update row column ((row column).map (·.convert type)))
  | _ => d

def run (db : Schema × Data) (st : Statement) : Option (Schema × Data) :=
  match st.alter db.1 with
  | none => none
  | some S => if st.Admits db.1 db.2 then some (S, st.rows db.2) else none

end Statement

/-- One statement after another, where the first one that fails undoes them all. -/
def run_all (db : Schema × Data) : List Statement → Option (Schema × Data)
  | [] => some db
  | st :: sts => match st.run db with
    | none => none
    | some db' => run_all db' sts

def alter_all (S : Schema) : List Statement → Option Schema
  | [] => some S
  | st :: sts => match st.alter S with
    | none => none
    | some S' => alter_all S' sts

def rows_all (d : Data) (sts : List Statement) : Data := sts.foldl Statement.rows d

/-- Each statement is admitted by the rows that the ones before it leave. -/
def AdmitsAll (S : Schema) (d : Data) : List Statement → Prop
  | [] => True
  | st :: sts => st.Admits S d ∧ ∀ S' ∈ st.alter S, AdmitsAll S' (st.rows d) sts

section

variable {S S' : Schema} {d d' : Data} {st : Statement} {sts : List Statement} {t c : String}

theorem run_all_iff : run_all (S, d) sts = some (S', d') ↔
    alter_all S sts = some S' ∧ AdmitsAll S d sts ∧ rows_all d sts = d' := by
  induction sts generalizing S d with
  | nil => simp [run_all, alter_all, AdmitsAll, rows_all]
  | cons st sts ih =>
    rw [run_all, alter_all, AdmitsAll, Statement.run]
    rcases h : st.alter S with _ | S''
    · simp
    · by_cases hadmits : st.Admits S d
      · simp only [hadmits, if_true, ih, true_and]
        simp [rows_all]
      · simp [hadmits]

end

/-! ## Changes that are taken back -/

/-- The same up to the order of what is in a schema. -/
def Table.Same (t t' : Table) : Prop :=
  t.name = t'.name ∧ t.columns.Perm t'.columns ∧ t.constraints.Perm t'.constraints ∧
    t.indexes.Perm t'.indexes

instance (t t' : Table) : Decidable (t.Same t') :=
  inferInstanceAs (Decidable (_ ∧ _ ∧ _ ∧ _))

def Schema.Same (S S' : Schema) : Prop :=
  S.types.Perm S'.types ∧ (∀ t ∈ S.tables, ∃ t' ∈ S'.tables, t.Same t') ∧
    ∀ t' ∈ S'.tables, ∃ t ∈ S.tables, t.Same t'

instance (S S' : Schema) : Decidable (S.Same S') :=
  inferInstanceAs (Decidable (_ ∧ _ ∧ _))

/-- The rows of the table are there, with their values in the columns that `S'` has. -/
def Table.Kept (t : Table) (S' : Schema) (d d' : Data) : Prop :=
  List.Forall₂ (fun row row' => ∀ col ∈ t.columns, S'.has_column t.name col.name = true →
    row' col.name = row col.name) (d t.name) (d' t.name)

/-- The first statements succeed and keep the rows of the tables that remain, and the
others succeed after them and give back the schema with these rows. -/
def Undone (S : Schema) (up down : List Statement) (d : Data) : Prop :=
  ∃ S' d' S'' d'', run_all (S, d) up = some (S', d') ∧
    (∀ t ∈ S.tables, S'.has_table t.name = true → t.Kept S' d d') ∧
    run_all (S', d') down = some (S'', d'') ∧ S''.Same S ∧ ∀ t ∈ S.tables, t.Kept S' d d''

/-- What `Undone` asks of the schema. -/
def gives_back (S : Schema) (up down : List Statement) : Bool :=
  match alter_all S up with
  | none => false
  | some S' => match alter_all S' down with
    | none => false
    | some S'' => decide (S''.Same S)

namespace Statement

/-- The statement sets the column in all rows of the table. -/
def sets (table column : String) : Statement → Bool
  | add_column t col => t = table && col.name = column
  | drop_column t c => t = table && c = column
  | alter_type t c _ => t = table && c = column
  | _ => false

/-- After the statement the table has no rows. -/
def empties (table : String) : Statement → Bool
  | create_table t => t.name = table
  | drop_table name => name = table
  | _ => false

/-- The table whose rows the statement may refuse. -/
def checks : Statement → Option String
  | add_column table col => if col.nullable || col.default.isSome then none else some table
  | alter_nullable table _ nullable => if nullable then none else some table
  | alter_type table _ _ => some table
  | add_constraint table _ => some table
  | _ => none

end Statement

/-- The statements leave the rows of the tables of `S` that remain, in the columns that
remain. -/
def leaves (S S' : Schema) (sts : List Statement) : Bool :=
  S.tables.all fun t => !S'.has_table t.name ||
    (sts.all (!·.empties t.name) && t.columns.all fun col =>
      !S'.has_column t.name col.name || sts.all (!·.sets t.name col.name))

section

variable {S S' : Schema} {d d' : Data} {st : Statement} {sts up down : List Statement}
  {t : Table} {table column : String} {f : Row → Row}

theorem rows_all_append (d : Data) (sts sts' : List Statement) :
    rows_all d (sts ++ sts') = rows_all (rows_all d sts) sts' :=
  List.foldl_append

theorem alter_all_append {sts' : List Statement} (h : alter_all S sts = some S') :
    alter_all S (sts ++ sts') = alter_all S' sts' := by
  induction sts generalizing S with
  | nil =>
    cases h
    rfl
  | cons st sts ih =>
    rw [alter_all] at h
    rw [List.cons_append, alter_all]
    rcases hst : st.alter S with _ | S''
    · rw [hst] at h
      cases h
    · rw [hst] at h
      exact ih h

/-- A statement changes the rows of a table one by one. -/
theorem Statement.rows_map (h : st.empties table = false) : ∃ f : Row → Row,
    (∀ d, st.rows d table = (d table).map f) ∧
    ∀ row column, st.sets table column = false → f row column = row column := by
  have hsame : ∃ f : Row → Row, (∀ d : Data, d table = (d table).map f) ∧
      ∀ row column, st.sets table column = false → f row column = row column :=
    ⟨id, fun d => (List.map_id _).symm, fun _ _ _ => rfl⟩
  have hupdate : ∀ (name : String) (c : String) (g : Row → Option Value),
      (∀ column, st.sets table column = (decide (name = table) && decide (c = column))) →
      ∃ f : Row → Row, (∀ d : Data, Function.update d name ((d name).map fun row =>
        Function.update row c (g row)) table = (d table).map f) ∧
      ∀ row column, st.sets table column = false → f row column = row column := by
    intro name c g hsets
    by_cases hname : name = table
    · subst hname
      refine ⟨fun row => Function.update row c (g row), fun d => Function.update_self _ _ _, ?_⟩
      intro row column hcolumn
      have hne : column ≠ c := fun heq => by simp [hsets, heq] at hcolumn
      exact Function.update_of_ne hne _ _
    · refine ⟨id, fun d => ?_, fun _ _ _ => rfl⟩
      rw [Function.update_of_ne (fun heq => hname heq.symm), List.map_id]
  have hempties : ∀ name : String, decide (name = table) = false →
      ∃ f : Row → Row, (∀ d : Data, Function.update d name [] table = (d table).map f) ∧
      ∀ row column, st.sets table column = false → f row column = row column := by
    intro name hname
    refine ⟨id, fun d => ?_, fun _ _ _ => rfl⟩
    rw [Function.update_of_ne (fun heq => of_decide_eq_false hname heq.symm), List.map_id]
  cases st with
  | create_table t => exact hempties t.name h
  | drop_table name => exact hempties name h
  | add_column name col => exact hupdate name col.name (fun _ => col.default) fun _ => rfl
  | drop_column name c => exact hupdate name c (fun _ => none) fun _ => rfl
  | alter_type name c type =>
    exact hupdate name c (fun row => (row c).map (·.convert type)) fun _ => rfl
  | _ => exact hsame

theorem rows_all_map (h : ∀ st ∈ sts, st.empties table = false) : ∃ f : Row → Row,
    (∀ d, rows_all d sts table = (d table).map f) ∧
    ∀ row column, (∀ st ∈ sts, st.sets table column = false) → f row column = row column := by
  induction sts with
  | nil => exact ⟨id, fun d => (List.map_id _).symm, fun _ _ _ => rfl⟩
  | cons st sts ih =>
    obtain ⟨f, hf, hsame⟩ := Statement.rows_map (h st List.mem_cons_self)
    obtain ⟨g, hg, hsame'⟩ := ih fun st' hst' => h st' (List.mem_cons_of_mem st hst')
    refine ⟨g ∘ f, fun d => ?_, fun row column hsets => ?_⟩
    · have hrest : rows_all d (st :: sts) table = rows_all (st.rows d) sts table := rfl
      rw [hrest, hg, hf, List.map_map]
    · rw [Function.comp_apply, hsame' _ _ fun st' hst' => hsets st' (List.mem_cons_of_mem st hst'),
        hsame _ _ (hsets st List.mem_cons_self)]

theorem Statement.rows_empty (h : d table = []) : st.rows d table = [] := by
  by_cases hempties : st.empties table = true
  · cases st with
    | create_table t =>
      rw [← of_decide_eq_true hempties]
      exact Function.update_self _ _ _
    | drop_table name =>
      rw [← of_decide_eq_true hempties]
      exact Function.update_self _ _ _
    | _ => cases hempties
  · obtain ⟨f, hf, _⟩ := Statement.rows_map (Bool.not_eq_true _ ▸ hempties)
    rw [hf, h, List.map_nil]

theorem rows_all_empty (h : d table = []) : rows_all d sts table = [] := by
  induction sts generalizing d with
  | nil => exact h
  | cons st sts ih => exact ih (Statement.rows_empty h)

theorem Rule.Holds.of_empty {rule : Rule} (h : d table = []) : rule.Holds table d := by
  cases rule with
  | primary_key columns => simp [Rule.Holds, h]
  | unique columns => simp [Rule.Holds, h]
  | foreign_key columns other references ondelete => simp [Rule.Holds, h]

/-- No rows at all. -/
def Contents.empty (S : Schema) : Contents S where
  rows _ := []
  valid _ _ := ⟨fun _ hrow => absurd hrow List.not_mem_nil, fun _ _ => Rule.Holds.of_empty rfl⟩

/-- An empty table refuses nothing. -/
theorem Statement.Admits.of_empty (h : ∀ table ∈ st.checks, d table = []) : st.Admits S d := by
  cases st with
  | add_column table col =>
    by_cases hfree : (col.nullable || col.default.isSome) = true
    · rw [Bool.or_eq_true] at hfree
      exact hfree.imp_right Or.inl
    · have hempty : d table = [] := h table (by rw [Statement.checks, if_neg hfree]; rfl)
      exact Or.inr (Or.inr (by rw [hempty]; rfl))
  | alter_nullable table column nullable =>
    by_cases hnullable : nullable = true
    · exact Or.inl hnullable
    · have hempty : d table = [] := h table (by rw [Statement.checks, if_neg hnullable]; rfl)
      exact Or.inr (by simp [hempty])
  | alter_type table column type =>
    have hempty : d table = [] := h table rfl
    simp [Statement.Admits, hempty]
  | add_constraint table c => exact Rule.Holds.of_empty (h table rfl)
  | _ => trivial

theorem AdmitsAll.of_empty (h : ∀ st ∈ sts, ∀ table ∈ st.checks, d table = []) :
    AdmitsAll S d sts := by
  induction sts generalizing S d with
  | nil => trivial
  | cons st sts ih =>
    refine ⟨Statement.Admits.of_empty (h st List.mem_cons_self), fun S' _ => ih ?_⟩
    intro st' hst' table htable
    exact Statement.rows_empty (h st' (List.mem_cons_of_mem st hst') table htable)

theorem leaves_iff : leaves S S' sts = true ↔ ∀ t ∈ S.tables, S'.has_table t.name = true →
    (∀ st ∈ sts, st.empties t.name = false) ∧ ∀ col ∈ t.columns,
      S'.has_column t.name col.name = true → ∀ st ∈ sts, st.sets t.name col.name = false := by
  simp [leaves, imp_iff_not_or]

theorem kept_of_leaves (hleaves : leaves S S' sts = true) (ht : t ∈ S.tables)
    (hremains : S'.has_table t.name = true) : t.Kept S' d (rows_all d sts) := by
  obtain ⟨hempties, hsets⟩ := leaves_iff.mp hleaves t ht hremains
  obtain ⟨f, hf, hsame⟩ := rows_all_map hempties
  unfold Table.Kept
  rw [hf, List.forall₂_map_right_iff, List.forall₂_same]
  exact fun row _ col hcol hcolumn => hsame row col.name (hsets col hcol hcolumn)

theorem leaves_left (h : leaves S S' (up ++ down) = true) : leaves S S' up = true := by
  rw [leaves_iff] at h ⊢
  intro t ht hremains
  obtain ⟨hempties, hsets⟩ := h t ht hremains
  exact ⟨fun st hst => hempties st (List.mem_append_left down hst),
    fun col hcol hcolumn st hst => hsets col hcol hcolumn st (List.mem_append_left down hst)⟩

theorem gives_back_iff : gives_back S up down = true ↔
    ∃ S' S'', alter_all S up = some S' ∧ alter_all S' down = some S'' ∧ S''.Same S := by
  unfold gives_back
  rcases hup : alter_all S up with _ | S'
  · simp
  · rcases hdown : alter_all S' down with _ | S''
    · simp [hdown]
    · simp [hdown]

theorem not_undone (h : gives_back S up down = false) : ¬ Undone S up down d := by
  rintro ⟨S', d', S'', d'', hup, _, hdown, hsame, _⟩
  have hback : gives_back S up down = true :=
    gives_back_iff.mpr ⟨S', S'', (run_all_iff.mp hup).1, (run_all_iff.mp hdown).1, hsame⟩
  rw [h] at hback
  cases hback

/-- When the schema is given back, it is a matter of what the rows admit, and of the rows
of the tables that do not remain. -/
theorem undone_iff (hup : alter_all S up = some S') (hback : gives_back S up down = true)
    (hleaves : leaves S S' (up ++ down) = true) : Undone S up down d ↔
      AdmitsAll S d up ∧ AdmitsAll S' (rows_all d up) down ∧
      ∀ t ∈ S.tables, S'.has_table t.name = false →
        t.Kept S' d (rows_all (rows_all d up) down) := by
  obtain ⟨S₁, S'', hup', hdown, hsame⟩ := gives_back_iff.mp hback
  obtain rfl : S' = S₁ := Option.some.inj (hup.symm.trans hup')
  constructor
  · rintro ⟨S₁, d', S₂, d'', hrun, _, hrun', _, hkept⟩
    obtain ⟨hup', hadmits, rfl⟩ := run_all_iff.mp hrun
    obtain rfl : S' = S₁ := Option.some.inj (hup.symm.trans hup')
    obtain ⟨_, hadmits', rfl⟩ := run_all_iff.mp hrun'
    exact ⟨hadmits, hadmits', fun t ht _ => hkept t ht⟩
  · rintro ⟨hadmits, hadmits', hdropped⟩
    refine ⟨S', _, S'', _, run_all_iff.mpr ⟨hup, hadmits, rfl⟩, fun t ht hremains => ?_,
      run_all_iff.mpr ⟨hdown, hadmits', rfl⟩, hsame, fun t ht => ?_⟩
    · exact kept_of_leaves (leaves_left hleaves) ht hremains
    · cases hremains : S'.has_table t.name with
      | true =>
        rw [← rows_all_append]
        exact kept_of_leaves hleaves ht hremains
      | false => exact hdropped t ht hremains

end

end ddl
