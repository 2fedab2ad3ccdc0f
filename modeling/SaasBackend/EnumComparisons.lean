-- Comparisons of columns with literals whose enum values are rewritten: the rewriting
-- looks at the literal alone, and a text column can hold the same letters.
import SaasBackend.Conditions
import SaasBackend.EnumParts

namespace saas

namespace AIUtils

open sql (Condition Truth)

/-! ## Tables -/

/-- A text column, or a column of an enum with its names. -/
structure Column where
  name : List Char
  names : Option (List (List Char)) := none

/-- The value in each of the columns, where `none` is NULL. -/
abbrev Row (n : Nat) := Fin n → Option (List Char)

structure TextTable (n : Nat) where
  name : List Char
  column : Fin n → Column
  distinct : ∀ i j, (column i).name = (column j).name → i = j
  rows : List (Row n)
  valid : ∀ row ∈ rows, ∀ i, ∀ val ∈ row i, ∀ names ∈ (column i).names, val ∈ names

/-- The test of a column against a literal. -/
structure Equality (n : Nat) where
  column : Fin n
  literal : List Char
deriving DecidableEq

/-- A test as the text of a query has it. -/
structure Named where
  name : List Char
  literal : List Char

/-! ## The text of a query -/

/-- What comes before the literal of a test. -/
def compares (name : List Char) : List Char := '(' :: (quoted pg.dquote name ++ [' ', '=', ' '])

def condition_text : Condition Named → List Char
  | .test a => compares a.name ++ (quoted quote a.literal ++ [')'])
  | .not p => "(NOT ".toList ++ (condition_text p ++ [')'])
  | .and p q => '(' :: (condition_text p ++ (" AND ".toList ++ (condition_text q ++ [')'])))
  | .or p q => '(' :: (condition_text p ++ (" OR ".toList ++ (condition_text q ++ [')'])))

def query_text (table : List Char) (p : Condition Named) : List Char :=
  "SELECT * FROM ".toList ++ (quoted pg.dquote table ++ (" WHERE ".toList ++ condition_text p))

namespace TextTable

variable {n : Nat}

def named (t : TextTable n) (e : Equality n) : Named := ⟨(t.column e.column).name, e.literal⟩

def query (t : TextTable n) (p : Condition (Equality n)) : List Char :=
  query_text t.name (p.map t.named)

/-! ## The rows of a query -/

/-- The column of that name. -/
def find (t : TextTable n) (name : List Char) : Option (Fin n) :=
  (List.finRange n).find? fun i => (t.column i).name = name

/-- The database compares the values as they are. -/
def compared (t : TextTable n) (row : Row n) (a : Named) : Truth :=
  (t.find a.name).bind fun i => (row i).map fun val => val = a.literal

/-- A value of an enum is to be found in each letter case. -/
def meant (t : TextTable n) (row : Row n) (e : Equality n) : Truth :=
  (row e.column).map fun val =>
    if (t.column e.column).names = none then val = e.literal else lower val = lower e.literal

/-- The literal is read as a value of the type of the column. -/
def typed (t : TextTable n) (a : Named) : Bool :=
  (t.find a.name).any fun i => (t.column i).names.all (·.contains a.literal)

/-- The rows that the database selects. A name of no column is an error, and so is a
literal that is no name of the enum, whatever the rows are. -/
def execute (t : TextTable n) (p : Condition Named) : Option (List (Row n)) :=
  if p.tests.all t.typed then
    some (t.rows.filter fun row => p.value (t.compared row) = some true)
  else none

/-- The rows that the condition is to select. -/
def selected (t : TextTable n) (p : Condition (Equality n)) : List (Row n) :=
  t.rows.filter fun row => p.value (t.meant row) = some true

/-- What the database gives for the text of a query on the table. -/
def Answers (t : TextTable n) (text : List Char) (rows : Option (List (Row n))) : Prop :=
  ∃ p, text = query_text t.name p ∧ t.execute p = rows

/-! ## The rewritten test -/

def rewrite (t : TextTable n) (in_step : Bool) (e : Equality n) : Named × Bool :=
  let (name, behind_name) := rename in_step (t.column e.column).name
  (⟨name, rewritten behind_name e.literal⟩, stays behind_name e.literal)

/-- Whether the pattern is in step before the first test. -/
def first (t : TextTable n) : Bool := (rename true t.name).2

/-- What the comparison needs of the rewritten test. The other name of a column can
only be that of another column. -/
def Keeps (t : TextTable n) (e : Equality n) (a : Named) : Prop :=
  if a.name = (t.column e.column).name then
    match (t.column e.column).names with
    | none => a.literal = e.literal ∨
      ∀ row ∈ t.rows, row e.column ≠ some e.literal ∧ row e.column ≠ some a.literal
    | some names => a.literal ∈ names ∧
      ∀ row ∈ t.rows, ∀ val ∈ row e.column, lower val = lower e.literal → val = a.literal
  else t.typed a = true ∧ ∀ row ∈ t.rows, t.compared row a = t.meant row e

end TextTable

/-! ## The text determines the condition -/

section

variable {rest next : List Char} {a b : Named} {p q : Condition Named}

theorem quoted_inj {m d : Char} {part part' : List Char} (hd : d ≠ m)
    (h : quoted m part ++ d :: rest = quoted m part' ++ d :: next) :
    part = part' ∧ rest = next := by
  refine escape_inj hd ?_
  simpa [quoted] using h

theorem test_inj (h : condition_text (.test a) ++ rest = condition_text (.test b) ++ next) :
    a = b ∧ rest = next := by
  have hname : quoted pg.dquote a.name ++
        ' ' :: ('=' :: ' ' :: (quoted quote a.literal ++ ')' :: rest)) =
      quoted pg.dquote b.name ++
        ' ' :: ('=' :: ' ' :: (quoted quote b.literal ++ ')' :: next)) := by
    simpa [condition_text, compares] using h
  obtain ⟨hname, hbehind⟩ := quoted_inj (by decide) hname
  obtain ⟨hliteral, hrest⟩ := quoted_inj (by decide) (List.cons.inj (List.cons.inj hbehind).2).2
  cases a
  cases b
  cases hname
  cases hliteral
  exact ⟨rfl, hrest⟩

/-- The character behind the first one tells the tests, the negations and the rest. -/
def second : Condition Named → Char
  | .test _ => pg.dquote
  | .not _ => 'N'
  | .and _ _ => '('
  | .or _ _ => '('

theorem second_eq (p : Condition Named) (rest : List Char) :
    (condition_text p ++ rest)[1]? = some (second p) := by
  have hstarts : ∀ p : Condition Named, ∃ part, condition_text p = '(' :: part := fun p => by
    cases p <;> exact ⟨_, rfl⟩
  cases p with
  | test a => rfl
  | not p => rfl
  | and p q =>
    obtain ⟨part, hpart⟩ := hstarts p
    simp [condition_text, hpart, second]
  | or p q =>
    obtain ⟨part, hpart⟩ := hstarts p
    simp [condition_text, hpart, second]

theorem second_of_text (h : condition_text p ++ rest = condition_text q ++ next) :
    second p = second q := by
  have hboth := congrArg (·[1]?) h
  simp only [second_eq] at hboth
  exact Option.some.inj hboth

/-- Two conditions with a word between them. -/
theorem join_inj {p' q' : Condition Named} {w w' : List Char}
    (hp : ∀ {q rest next}, condition_text p ++ rest = condition_text q ++ next →
      p = q ∧ rest = next)
    (hp' : ∀ {q rest next}, condition_text p' ++ rest = condition_text q ++ next →
      p' = q ∧ rest = next)
    (hw : ∀ rest next, w ++ rest = w' ++ next → w = w' ∧ rest = next)
    (h : '(' :: (condition_text p ++ (w ++ (condition_text p' ++ [')']))) ++ rest =
      '(' :: (condition_text q ++ (w' ++ (condition_text q' ++ [')']))) ++ next) :
    p = q ∧ p' = q' ∧ w = w' ∧ rest = next := by
  simp only [List.cons_append, List.append_assoc] at h
  obtain ⟨rfl, hword⟩ := hp (List.cons.inj h).2
  obtain ⟨rfl, hsecond⟩ := hw _ _ hword
  obtain ⟨rfl, hclose⟩ := hp' hsecond
  exact ⟨rfl, rfl, rfl, (List.cons.inj hclose).2⟩

theorem text_inj (h : condition_text p ++ rest = condition_text q ++ next) :
    p = q ∧ rest = next := by
  have hne : pg.dquote ≠ 'N' ∧ pg.dquote ≠ '(' ∧ 'N' ≠ '(' := by decide
  have hsame : ∀ {w rest next : List Char}, w ++ rest = w ++ next → w = w ∧ rest = next :=
    fun h => ⟨rfl, List.append_cancel_left h⟩
  have hother : ∀ {rest next : List Char}, " AND ".toList ++ rest ≠ " OR ".toList ++ next :=
    fun h => absurd (List.cons.inj (List.cons.inj h).2).1 (by decide)
  induction p generalizing q rest next with
  | test a =>
    cases q with
    | test b =>
      obtain ⟨rfl, hrest⟩ := test_inj h
      exact ⟨rfl, hrest⟩
    | not q => exact absurd (second_of_text h) hne.1
    | and q q' => exact absurd (second_of_text h) hne.2.1
    | or q q' => exact absurd (second_of_text h) hne.2.1
  | not p ih =>
    cases q with
    | test b => exact absurd (second_of_text h).symm hne.1
    | not q =>
      simp only [condition_text, List.append_assoc] at h
      obtain ⟨rfl, hclose⟩ := ih (List.append_cancel_left h)
      exact ⟨rfl, List.append_cancel_left hclose⟩
    | and q q' => exact absurd (second_of_text h) hne.2.2
    | or q q' => exact absurd (second_of_text h) hne.2.2
  | and p p' ih ih' =>
    cases q with
    | test b => exact absurd (second_of_text h).symm hne.2.1
    | not q => exact absurd (second_of_text h).symm hne.2.2
    | and q q' =>
      obtain ⟨rfl, rfl, _, hrest⟩ := join_inj ih ih' (fun _ _ => hsame) h
      exact ⟨rfl, hrest⟩
    | or q q' =>
      obtain ⟨_, _, hw, _⟩ := join_inj ih ih' (fun _ _ h => absurd h hother) h
      exact absurd hw (by decide)
  | or p p' ih ih' =>
    cases q with
    | test b => exact absurd (second_of_text h).symm hne.2.1
    | not q => exact absurd (second_of_text h).symm hne.2.2
    | and q q' =>
      obtain ⟨_, _, hw, _⟩ := join_inj ih ih' (fun _ _ h => absurd h.symm hother) h
      exact absurd hw (by decide)
    | or q q' =>
      obtain ⟨rfl, rfl, _, hrest⟩ := join_inj ih ih' (fun _ _ => hsame) h
      exact ⟨rfl, hrest⟩

theorem query_text_inj {table table' : List Char} :
    query_text table p = query_text table' q ↔ table = table' ∧ p = q := by
  constructor
  · intro h
    have hquery : quoted pg.dquote table ++ ' ' :: ("WHERE ".toList ++ condition_text p) =
        quoted pg.dquote table' ++ ' ' :: ("WHERE ".toList ++ condition_text q) :=
      List.append_cancel_left h
    obtain ⟨htable, hwhere⟩ := quoted_inj (by decide) hquery
    have htext : condition_text p ++ [] = condition_text q ++ [] :=
      congrArg (· ++ []) (List.append_cancel_left hwhere)
    exact ⟨htable, (text_inj htext).1⟩
  · rintro ⟨rfl, rfl⟩
    rfl

end

/-! ## The text of a query -/

namespace TextTable

section

variable {n : Nat} {t : TextTable n} {o : Option (List Char)} {p q : Condition (Equality n)}
  {e before : Equality n} {a : Named} {b : Bool} {literal : List Char}

/-- The pattern takes each test in the state that the tests before it leave. -/
theorem text_leads (p : Condition (Equality n)) (hb : o.isNone = b) :
    Leads o (condition_text (p.map t.named)) (condition_text (p.translate t.rewrite b).1)
      (p.translate t.rewrite b).2 := by
  have hopen : quote ∉ ['('] := by decide
  have hclose : quote ∉ [')'] := by decide
  induction p generalizing o b with
  | test e =>
    have hname : quote ∉ ['(', pg.dquote] ∧ pg.dquote ∈ ['(', pg.dquote] := by decide
    have hequals : quote ∉ [pg.dquote, ' ', '=', ' '] ∧ pg.dquote ∈ [pg.dquote, ' ', '=', ' '] := by
      decide
    have htest := (name_leads hname.1 hname.2 (t.column e.column).name hb).append fun _ h =>
      (literal_leads hequals.1 hequals.2 e.literal h).append fun _ => Leads.plain hclose
    simpa [condition_text, compares, quoted, named, Condition.map, Condition.translate,
      rewrite] using htest
  | not p ih =>
    have hnot : quote ∉ "(NOT ".toList := by decide
    exact (Leads.plain hnot hb).append fun o' h => (ih h).append fun o'' => Leads.plain hclose
  | and p q ihp ihq =>
    have hand : quote ∉ " AND ".toList := by decide
    exact (Leads.plain hopen hb).append fun _ h => (ihp h).append fun _ h =>
      (Leads.plain hand h).append fun _ h => (ihq h).append fun _ => Leads.plain hclose
  | or p q ihp ihq =>
    have hor : quote ∉ " OR ".toList := by decide
    exact (Leads.plain hopen hb).append fun _ h => (ihp h).append fun _ h =>
      (Leads.plain hor h).append fun _ h => (ihq h).append fun _ => Leads.plain hclose

theorem query_text_eq (table : List Char) (p : Condition Named) :
    query_text table p = "SELECT * FROM ".toList ++ [pg.dquote] ++ escape pg.dquote table ++
      (pg.dquote :: " WHERE ".toList ++ condition_text p) := by
  unfold query_text quoted
  generalize "SELECT * FROM ".toList = select
  simp

/-- The rewritten text is that of a condition, on a table with the rewritten name. -/
theorem normalize_query (p : Condition (Equality n)) : normalize_enum_literals (t.query p) =
    query_text (rename true t.name).1 (p.translate t.rewrite t.first).1 := by
  have hselect : quote ∉ "SELECT * FROM ".toList := by decide
  have hfrom : quote ∉ "SELECT * FROM ".toList ++ [pg.dquote] := by
    rw [List.mem_append, List.mem_singleton, not_or]
    exact ⟨hselect, by decide⟩
  have hmark : pg.dquote ∈ "SELECT * FROM ".toList ++ [pg.dquote] :=
    List.mem_append_right _ List.mem_cons_self
  have hwhere : quote ∉ pg.dquote :: " WHERE ".toList := by decide
  have hquery := (name_leads (o := none) hfrom hmark t.name rfl).append fun _ h =>
    (Leads.plain hwhere h).append fun _ => text_leads (t := t) p
  rw [query, query_text_eq, query_text_eq]
  exact hquery.whole

/-- A text has one answer. -/
theorem answers_iff {table : List Char} {p : Condition Named} {rows : Option (List (Row n))} :
    t.Answers (query_text table p) rows ↔ table = t.name ∧ t.execute p = rows := by
  unfold Answers
  simp only [query_text_inj]
  constructor
  · rintro ⟨q, ⟨htable, rfl⟩, hrows⟩
    exact ⟨htable, hrows⟩
  · rintro ⟨htable, hrows⟩
    exact ⟨p, ⟨htable, rfl⟩, hrows⟩

/-! ## One test -/

theorem find_eq_some {i : Fin n} {name : List Char} :
    t.find name = some i ↔ (t.column i).name = name := by
  constructor
  · intro h
    unfold find at h
    simpa using List.find?_some h
  · intro h
    have hsome : (t.find name).isSome = true := by
      rw [find, List.find?_isSome]
      exact ⟨i, List.mem_finRange i, decide_eq_true h⟩
    obtain ⟨j, hj⟩ := Option.isSome_iff_exists.mp hsome
    have hname : (t.column j).name = name := by
      unfold find at hj
      simpa using List.find?_some hj
    rw [hj, t.distinct j i (hname.trans h.symm)]

/-- The rewritten test is no error, and gives each row the truth value that it is to
have. -/
structure Agrees (t : TextTable n) (e : Equality n) (a : Named) : Prop where
  typed : t.typed a = true
  rows : ∀ row ∈ t.rows, t.compared row a = t.meant row e

theorem compared_same {row : Row n} (hname : a.name = (t.column e.column).name) :
    t.compared row a = (row e.column).map fun val => decide (val = a.literal) := by
  rw [compared, find_eq_some.mpr hname.symm]
  rfl

theorem typed_same (hname : a.name = (t.column e.column).name) : t.typed a = true ↔
    ∀ names ∈ (t.column e.column).names, a.literal ∈ names := by
  rw [typed, find_eq_some.mpr hname.symm]
  rcases hnames : (t.column e.column).names with _ | names <;> simp [hnames]

/-- Under the name of its column a test agrees value by value. -/
theorem agrees_iff (hname : a.name = (t.column e.column).name) : t.Agrees e a ↔
    (∀ names ∈ (t.column e.column).names, a.literal ∈ names) ∧
    ∀ row ∈ t.rows, ∀ val ∈ row e.column, (val = a.literal ↔
      if (t.column e.column).names = none then val = e.literal
      else lower val = lower e.literal) := by
  have hrow : ∀ row : Row n, t.compared row a = t.meant row e ↔ ∀ val ∈ row e.column,
      (val = a.literal ↔ if (t.column e.column).names = none then val = e.literal
        else lower val = lower e.literal) := by
    intro row
    rw [compared_same hname, meant]
    rcases row e.column with _ | val
    · simp
    · by_cases hnone : (t.column e.column).names = none <;> simp [hnone]
  constructor
  · intro h
    exact ⟨(typed_same hname).mp h.typed, fun row hmem => (hrow row).mp (h.rows row hmem)⟩
  · rintro ⟨htyped, hrows⟩
    exact ⟨(typed_same hname).mpr htyped, fun row hmem => (hrow row).mpr (hrows row hmem)⟩

theorem keeps_text (hname : a.name = (t.column e.column).name)
    (hnames : (t.column e.column).names = none) : t.Keeps e a ↔ t.Agrees e a := by
  rw [agrees_iff hname, Keeps, if_pos hname, hnames]
  simp only [if_true]
  constructor
  · intro h
    refine ⟨by simp, fun row hrow val hval => ?_⟩
    rcases h with hsame | h
    · rw [hsame]
    · obtain ⟨hliteral, hother⟩ := h row hrow
      exact iff_of_false (fun heq => hother (heq ▸ hval)) fun heq => hliteral (heq ▸ hval)
  · rintro ⟨_, h⟩
    by_cases hsame : a.literal = e.literal
    · exact Or.inl hsame
    · exact Or.inr fun row hrow => ⟨fun hval => hsame ((h row hrow _ hval).mpr rfl).symm,
        fun hval => hsame ((h row hrow _ hval).mp rfl)⟩

theorem keeps_enum {names : List (List Char)} (hname : a.name = (t.column e.column).name)
    (hnames : (t.column e.column).names = some names) (hlower : lower a.literal = lower e.literal) :
    t.Keeps e a ↔ t.Agrees e a := by
  rw [agrees_iff hname, Keeps, if_pos hname, hnames]
  simp only [reduceCtorEq, if_false]
  constructor
  · rintro ⟨hmem, h⟩
    refine ⟨by simpa using hmem, fun row hrow val hval => ⟨?_, h row hrow val hval⟩⟩
    rintro rfl
    exact hlower
  · rintro ⟨hmem, h⟩
    exact ⟨hmem names rfl, fun row hrow val hval => (h row hrow val hval).mpr⟩

theorem keeps_iff (hlower : lower a.literal = lower e.literal) :
    t.Keeps e a ↔ t.Agrees e a := by
  by_cases hname : a.name = (t.column e.column).name
  · rcases hnames : (t.column e.column).names with _ | names
    · exact keeps_text hname hnames
    · exact keeps_enum hname hnames hlower
  · unfold Keeps
    rw [if_neg hname]
    exact ⟨fun h => ⟨h.1, h.2⟩, fun h => ⟨h.typed, h.rows⟩⟩

theorem keeps_rewrite : t.Keeps e (t.rewrite b e).1 ↔ t.Agrees e (t.rewrite b e).1 :=
  keeps_iff (lower_rewritten _ e.literal)

/-! ## All conditions -/

theorem filter_eq_iff {α : Type} {f g : α → Bool} {l : List α} :
    l.filter f = l.filter g ↔ ∀ a ∈ l, f a = g a := by
  constructor
  · intro h a ha
    have hmem : a ∈ l.filter f ↔ a ∈ l.filter g := by rw [h]
    simp only [List.mem_filter, ha, true_and] at hmem
    exact Bool.eq_iff_iff.mpr hmem
  · exact List.filter_congr

/-- The condition as it is rewritten from that state is no error, and is true of the rows
that it is to be true of. -/
structure Selects (t : TextTable n) (b : Bool) (p : Condition (Equality n)) : Prop where
  typed : ∀ a ∈ (p.translate t.rewrite b).1.tests, t.typed a = true
  rows : ∀ row ∈ t.rows, (p.translate t.rewrite b).1.value (t.compared row) = some true ↔
    p.value (t.meant row) = some true

theorem answers_rewritten (p : Condition (Equality n)) :
    t.Answers (normalize_enum_literals (t.query p)) (some (t.selected p)) ↔
      (rename true t.name).1 = t.name ∧ t.Selects t.first p := by
  rw [normalize_query, answers_iff, execute, selected]
  refine and_congr_right fun _ => ?_
  split
  · rename_i htyped
    rw [Option.some.injEq, filter_eq_iff]
    simp only [decide_eq_decide]
    exact ⟨fun h => ⟨List.all_eq_true.mp htyped, h⟩, fun h => h.rows⟩
  · rename_i htyped
    exact iff_of_false (fun h => by cases h) fun h => htyped (List.all_eq_true.mpr h.typed)

/-- A test and its negation tell the truth value of the test. -/
theorem Selects.agrees (h : t.Selects b (.test e)) (hnot : t.Selects b (.not (.test e))) :
    t.Agrees e (t.rewrite b e).1 :=
  ⟨h.typed _ List.mem_cons_self,
    fun row hrow => Truth.eq_of_true (h.rows row hrow) (hnot.rows row hrow)⟩

/-- A test leaves a second condition to decide, in one of the two that join them. -/
theorem Selects.behind (h : t.Agrees before (t.rewrite b before).1)
    (hand : t.Selects b (.and (.test before) p)) (hor : t.Selects b (.or (.test before) p)) :
    t.Selects (t.rewrite b before).2 p where
  typed a ha := hand.typed a (List.mem_append_right _ ha)
  rows row hrow := by
    have hsame := h.rows row hrow
    have hand := hand.rows row hrow
    have hor := hor.rows row hrow
    simp only [Condition.translate, Condition.value, hsame] at hand hor
    by_cases htrue : t.meant row before = some true
    · rwa [Truth.and_of_true htrue, Truth.and_of_true htrue] at hand
    · rwa [Truth.or_of_not_true htrue, Truth.or_of_not_true htrue] at hor

/-- The rewriting keeps the answers of all conditions made of some tests if and only if
it keeps the name of the table, and the rows of each test, both as the first one and
behind any one of them. -/
theorem answers_are_kept_iff (t : TextTable n) (tests : Set (Equality n)) :
    (∀ p : Condition (Equality n), p.Over tests →
      t.Answers (normalize_enum_literals (t.query p)) (some (t.selected p))) ↔
    ∀ e ∈ tests, (rename true t.name).1 = t.name ∧ t.Keeps e (t.rewrite t.first e).1 ∧
      ∀ before ∈ tests, t.Keeps e (t.rewrite (t.rewrite t.first before).2 e).1 := by
  simp only [answers_rewritten, keeps_rewrite]
  constructor
  · intro h
    have htest : ∀ e ∈ tests, (Condition.test e).Over tests := by
      intro e he e' he'
      rw [List.mem_singleton.mp he']
      exact he
    have hfirst : ∀ e ∈ tests, t.Agrees e (t.rewrite t.first e).1 := fun e he =>
      (h _ (htest e he)).2.agrees (h (.not (.test e)) (htest e he)).2
    refine fun e he => ⟨(h _ (htest e he)).1, hfirst e he, fun before hbefore => ?_⟩
    have hbehind : ∀ p : Condition (Equality n), p.Over tests →
        t.Selects (t.rewrite t.first before).2 p := fun p hp =>
      Selects.behind (hfirst before hbefore)
        (h _ (Condition.over_and.mpr ⟨htest before hbefore, hp⟩)).2
        (h _ (Condition.over_or.mpr ⟨htest before hbefore, hp⟩)).2
    exact (hbehind _ (htest e he)).agrees (hbehind (.not (.test e)) (htest e he))
  · intro h p hp
    -- the states that tests lead to: no state is new after the first test
    let Reached (b : Bool) : Prop :=
      b = t.first ∨ ∃ before ∈ tests, (t.rewrite t.first before).2 = b
    have hagrees : ∀ b e, Reached b → e ∈ tests → t.Agrees e (t.rewrite b e).1 := by
      rintro b e (rfl | ⟨before, hbefore, rfl⟩) he
      · exact (h e he).2.1
      · exact (h e he).2.2 before hbefore
    have hnext : ∀ b e, Reached b → e ∈ tests → Reached (t.rewrite b e).2 := by
      intro b e hb he
      by_cases hsame : (t.rewrite b e).2 = b
      · rwa [hsame]
      by_cases hfirst : b = t.first
      · exact Or.inr ⟨e, he, by rw [hfirst]⟩
      · refine Or.inl ?_
        revert hsame hfirst
        cases b <;> cases (t.rewrite _ e).2 <;> cases t.first <;> simp
    obtain ⟨e, he⟩ := p.exists_test
    refine ⟨(h e (hp e he)).1, ?_, fun row hrow => ?_⟩
    · exact Condition.translate_tests (fun b e hb he => (hagrees b e hb he).typed) hnext hp
        (Or.inl rfl)
    · rw [Condition.translate_value (fun b e hb he => (hagrees b e hb he).rows row hrow) hnext hp
        (Or.inl rfl)]

end

end TextTable

end AIUtils

namespace Sample

open AIUtils

/-- A user whose name is spelled like an enum value. -/
def named_users : TextTable 2 where
  name := "users".toList
  column
    | 0 => { name := "username".toList }
    | 1 => {
      name := "provider".toList
      names := some ["GOOGLE".toList, "GITHUB".toList, "LOCAL".toList] }
  distinct := by decide
  rows := [fun
    | 0 => some "active".toList
    | 1 => some "LOCAL".toList]
  valid := by decide

end Sample

open Sample in
/-- The user is not found by the name; and behind an empty literal the value of the enum
is not found. -/
theorem AIUtils.answers_are_not_kept :
    ¬ named_users.Answers
        (normalize_enum_literals (named_users.query (.test ⟨0, "active".toList⟩)))
        (some (named_users.selected (.test ⟨0, "active".toList⟩))) ∧
    ¬ named_users.Answers
        (normalize_enum_literals (named_users.query
          (.or (.test ⟨0, []⟩) (.test ⟨1, "local".toList⟩))))
        (some (named_users.selected (.or (.test ⟨0, []⟩) (.test ⟨1, "local".toList⟩)))) := by
  constructor
  · intro h
    have hrows := ((TextTable.answers_rewritten _).mp h).2.rows
    revert hrows
    decide +kernel
  · intro h
    have htyped := ((TextTable.answers_rewritten _).mp h).2.typed
    revert htyped
    decide +kernel

end saas