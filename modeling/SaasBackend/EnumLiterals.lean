-- Which literals the rewriting of enum values touches: the pattern pairs quotes from
-- the start of the text, and PostgreSQL reads the text with its comments and names.
import SaasBackend.EnumCase
import SaasBackend.PgContents

namespace saas

namespace AIUtils

/-! ## The literals of PostgreSQL -/

def enum_value (val : List Char) : Bool := (ENUM_MAP.lookup (lower val)).isSome

/-- A character of a literal that is an enum value becomes that of the mapped name. -/
def with_name : pg.Placed → Char
  | (c, some (content, k)) => match ENUM_MAP.lookup (lower content) with
    | some name => name.getD k c
    | none => c
  | (c, none) => c

/-- What the rewriting is to make of a text. -/
def with_enum_names (sql : List Char) : List Char := (pg.places sql).map with_name

/-- After `before`, a literal goes on that is an enum value. -/
def Read (before text : List Char) : Prop :=
  ∃ c content k, (pg.places (before ++ text))[before.length]? = some (c, some (content, k)) ∧
    enum_value content = true

/-! ## The pairs of quotes -/

/-- Where a text ends when its quotes are paired from the start. Two adjacent quotes
are no pair: the second one opens again. -/
inductive Pairing where
  | outside
  | opened
  | inside
deriving DecidableEq

def Pairing.next (p : Pairing) (c : Char) : Pairing :=
  match p with
  | outside => if c = quote then opened else outside
  | opened => if c = quote then opened else inside
  | inside => if c = quote then outside else inside

def pairing (text : List Char) : Pairing := text.foldl Pairing.next .outside

/-- After `before`, an enum value goes on, between two quotes the first of which opens
a pair. -/
def Paired (before text : List Char) : Prop :=
  ∃ start part part' rest, before = start ++ quote :: part ∧ text = part' ++ quote :: rest ∧
    enum_value (part ++ part') = true ∧ pairing start ≠ .inside

/-- At each lower-case letter of the text, the pairs of quotes are those of the literals
that are enum values. -/
structure PairsAreLiterals (sql : List Char) : Prop where
  read : ∀ before c after, sql = before ++ c :: after → c.isLower = true →
    Paired before (c :: after) → Read before (c :: after)
  paired : ∀ before c after, sql = before ++ c :: after → c.isLower = true →
    Read before (c :: after) → Paired before (c :: after)

section

variable {c : Char} {before start part part' text rest val content : List Char}
  {placed : pg.Placed} {b : Prop} {P Q : List Char → List Char → Prop}

/-! ## Letters in upper case -/

open Classical in
/-- The text with the letters in upper case where `P` holds. -/
noncomputable def upper_where (P : List Char → List Char → Prop) :
    List Char → List Char → List Char
  | _, [] => []
  | before, c :: text =>
    (if P before (c :: text) then c.toUpper else c) :: upper_where P (before ++ [c]) text

theorem toUpper_eq_iff : c.toUpper = c ↔ ¬ c.isLower = true := by
  have hlower : c.isLower = true ↔ 97 ≤ c.toNat ∧ c.toNat ≤ 122 :=
    Bool.and_eq_true_iff.trans (and_congr decide_eq_true_iff decide_eq_true_iff)
  rw [hlower, ← Char.toNat_inj, toNat_toUpper]
  split <;> omega

open Classical in
theorem letter_eq_iff {p q : Prop} :
    (if p then c.toUpper else c) = (if q then c.toUpper else c) ↔
      (c.isLower = true → (p ↔ q)) := by
  have hupper : c = c.toUpper ↔ ¬ c.isLower = true := eq_comm.trans toUpper_eq_iff
  by_cases hp : p
  · by_cases hq : q
    · simp [hp, hq]
    · simp [hp, hq, toUpper_eq_iff]
  · by_cases hq : q
    · simp [hp, hq, hupper]
    · simp [hp, hq]

theorem upper_where_eq_iff : upper_where P before text = upper_where Q before text ↔
    ∀ part c after, text = part ++ c :: after → c.isLower = true →
      (P (before ++ part) (c :: after) ↔ Q (before ++ part) (c :: after)) := by
  induction text generalizing before with
  | nil => simp [upper_where]
  | cons c text ih =>
    rw [upper_where, upper_where, List.cons.injEq, letter_eq_iff, ih]
    constructor
    · rintro ⟨hhead, htail⟩ part d after hsplit
      cases part with
      | nil =>
        cases hsplit
        rwa [List.append_nil]
      | cons e part =>
        cases hsplit
        rw [List.append_cons]
        exact htail part d after rfl
    · intro h
      refine ⟨?_, fun part d after hsplit => ?_⟩
      · have hhead := h [] c text rfl
        rwa [List.append_nil] at hhead
      · have htail := h (c :: part) d after (by rw [hsplit]; rfl)
        rwa [List.append_cons] at htail

/-- A run of characters at all of which `P` holds, or at none. -/
theorem upper_where_run [Decidable b]
    (h : ∀ p c p', part = p ++ c :: p' → (P (before ++ p) (c :: (p' ++ text)) ↔ b)) :
    upper_where P before (part ++ text) =
      (if b then part.map Char.toUpper else part) ++ upper_where P (before ++ part) text := by
  induction part generalizing before with
  | nil => simp
  | cons c part ih =>
    have hhead := h [] c part rfl
    rw [List.append_nil] at hhead
    have hrest : upper_where P (before ++ [c]) (part ++ text) = _ := ih fun p d p' hsplit => by
      have hnext := h (c :: p) d p' (by rw [hsplit]; rfl)
      rwa [List.append_cons] at hnext
    rw [List.cons_append, upper_where, hrest, ← List.append_cons]
    by_cases hb : b
    · rw [if_pos (hhead.mpr hb), if_pos hb, if_pos hb]
      rfl
    · rw [if_neg (mt hhead.mp hb), if_neg hb, if_neg hb]
      rfl

/-! ## The rewriting -/

theorem pairing_append (text text' : List Char) :
    pairing (text ++ text') = text'.foldl Pairing.next (pairing text) :=
  List.foldl_append

theorem inside_run (h : quote ∉ part) : part.foldl Pairing.next .inside = .inside := by
  induction part with
  | nil => rfl
  | cons c part ih =>
    have hc : c ≠ quote := fun hc => h (by rw [hc]; exact List.mem_cons_self)
    rw [List.foldl_cons, Pairing.next, if_neg hc]
    exact ih (mt (List.mem_cons_of_mem c) h)

/-- After a quote that opens and some text without quotes. -/
theorem pairing_open (hstart : pairing start ≠ .inside) (h : quote ∉ part) :
    pairing (start ++ quote :: part) = if part = [] then .opened else .inside := by
  have hquote : (pairing start).next quote = .opened := by
    cases hp : pairing start with
    | outside => rfl
    | opened => rfl
    | inside => exact absurd hp hstart
  rw [pairing_append, List.foldl_cons, hquote]
  cases part with
  | nil => rfl
  | cons c part =>
    have hc : c ≠ quote := fun hc => h (by rw [hc]; exact List.mem_cons_self)
    rw [List.foldl_cons, Pairing.next, if_neg hc, if_neg (List.cons_ne_nil _ _)]
    exact inside_run (mt (List.mem_cons_of_mem c) h)

theorem enum_value_no_quote (h : enum_value val = true) : quote ∉ val := by
  obtain ⟨name, hname⟩ := Option.isSome_iff_exists.mp h
  intro hquote
  rcases (ENUM_MAP.entry hname).char_of hquote with halpha | hscore
  · exact absurd halpha (by decide)
  · exact absurd hscore (by decide)

theorem repl_eq (val : List Char) :
    repl val = if enum_value val = true then val.map Char.toUpper else val := by
  rcases repl_cases val with ⟨hsame, hnone⟩ | hentry
  · rw [hsame, enum_value, hnone]
    rfl
  · rw [enum_value, hentry.mapped]
    exact hentry.name_eq

/-- The last quote of a text is at one place. -/
theorem last_quote (h : start ++ quote :: part = before ++ quote :: part')
    (hpart : quote ∉ part) (hpart' : quote ∉ part') : start = before ∧ part = part' := by
  rcases List.append_eq_append_iff.mp h with ⟨mid, hbefore, hmid⟩ | ⟨mid, hstart, hmid⟩
  · cases mid with
    | nil =>
      rw [List.append_nil] at hbefore
      exact ⟨hbefore.symm, (List.cons.inj hmid).2⟩
    | cons c mid =>
      refine absurd ?_ hpart
      rw [(List.cons.inj hmid).2]
      exact List.mem_append_right _ List.mem_cons_self
  · cases mid with
    | nil =>
      rw [List.append_nil] at hstart
      exact ⟨hstart, (List.cons.inj hmid).2.symm⟩
    | cons c mid =>
      refine absurd ?_ hpart'
      rw [(List.cons.inj hmid).2]
      exact List.mem_append_right _ List.mem_cons_self

theorem first_quote (h : part ++ quote :: rest = part' ++ quote :: text)
    (hpart : quote ∉ part) (hpart' : quote ∉ part') : part = part' := by
  have hreverse := congrArg List.reverse h
  simp only [List.reverse_append, List.reverse_cons, List.append_assoc,
    List.singleton_append] at hreverse
  have hlast := last_quote hreverse (mt List.mem_reverse.mp hpart) (mt List.mem_reverse.mp hpart')
  exact List.reverse_injective hlast.2

/-- Between a quote that opens and the next one. -/
theorem paired_iff (hstart : pairing start ≠ .inside) (h : quote ∉ part ++ part') :
    Paired (start ++ quote :: part) (part' ++ quote :: rest) ↔
      enum_value (part ++ part') = true := by
  constructor
  · rintro ⟨start', val, val', rest', hbefore, htext, hvalue, _⟩
    have hquote := enum_value_no_quote hvalue
    rw [List.mem_append, not_or] at h hquote
    obtain ⟨_, rfl⟩ := last_quote hbefore h.1 hquote.1
    obtain rfl := first_quote htext h.2 hquote.2
    exact hvalue
  · intro hvalue
    exact ⟨start, part, part', rest, rfl, rfl, hvalue, hstart⟩

theorem not_paired (h : pairing before = .outside) : ¬ Paired before text := by
  rintro ⟨start, part, part', rest, rfl, _, hvalue, hstart⟩
  have hquote := enum_value_no_quote hvalue
  rw [List.mem_append, not_or] at hquote
  rw [pairing_open hstart hquote.1] at h
  split at h <;> cases h

theorem upper_where_none (h : ∀ p c p', text = p ++ c :: p' → ¬ P (before ++ p) (c :: p')) :
    upper_where P before text = text := by
  have hrun : upper_where P before (text ++ []) =
      (if False then text.map Char.toUpper else text) ++ upper_where P (before ++ text) [] :=
    upper_where_run fun p c p' hsplit => by
      rw [List.append_nil]
      exact iff_of_false (h p c p' hsplit) id
  simpa [upper_where] using hrun

/-- The pattern from a place between two matches, and from the start of one. -/
theorem scan_literals_eq (text : List Char) :
    (∀ before, pairing before = .outside →
      scan_literals none text = upper_where Paired before text) ∧
    ∀ start val, pairing start ≠ .inside → quote ∉ val →
      scan_literals (some val) text =
        quote :: upper_where Paired (start ++ [quote]) (val ++ text) := by
  induction text with
  | nil =>
    refine ⟨fun _ _ => rfl, fun start val _ hval => ?_⟩
    -- no quote comes after the value
    rw [List.append_nil, upper_where_none]
    · rfl
    · rintro p c p' rfl ⟨_, _, part', rest, _, htext, _, _⟩
      refine hval (List.mem_append_right p ?_)
      rw [htext]
      exact List.mem_append_right _ List.mem_cons_self
  | cons c text ih =>
    obtain ⟨houtside, hopened⟩ := ih
    refine ⟨fun before hbefore => ?_, fun start val hstart hval => ?_⟩
    · rw [scan_literals, upper_where, if_neg (not_paired hbefore)]
      split
      · rename_i hc
        rw [hc]
        exact hopened before [] (by rw [hbefore]; decide) List.not_mem_nil
      · rename_i hc
        refine congrArg (c :: ·) (houtside _ ?_)
        rw [pairing_append, hbefore, List.foldl_cons, Pairing.next, if_neg hc]
        rfl
    · have hquote := pairing_open hstart hval
      rw [scan_literals]
      split
      · rename_i hc
        rw [hopened start (val ++ [c]) hstart, List.append_assoc]
        · rfl
        · rw [List.mem_append, List.mem_singleton, not_or]
          exact ⟨hval, fun heq => hc heq.symm⟩
      rename_i hc
      rw [not_not] at hc
      have hrun : upper_where Paired (start ++ [quote]) (val ++ quote :: text) =
          repl val ++ upper_where Paired (start ++ [quote] ++ val) (quote :: text) := by
        rw [repl_eq]
        refine upper_where_run fun p d p' hsplit => ?_
        rw [hsplit] at hval ⊢
        rw [List.append_assoc]
        exact paired_iff hstart hval
      have hletter : ∀ before, upper_where Paired before (quote :: text) =
          quote :: upper_where Paired (before ++ [quote]) text := fun before => by
        have hupper : quote.toUpper = quote := by decide
        rw [upper_where, hupper, ite_self]
      have hstart' : start ++ [quote] ++ val = start ++ quote :: val := by
        rw [List.append_assoc]
        rfl
      rw [hc, hrun, hletter, hstart']
      split
      · rename_i hnil
        rw [hnil] at hquote ⊢
        exact congrArg (quote :: ·) (hopened _ [] (by rw [hquote]; decide) List.not_mem_nil)
      · rename_i hne
        rw [houtside (start ++ quote :: val ++ [quote])]
        · rfl
        · rw [pairing_append, hquote, if_neg hne]
          rfl

/-! ## The literals -/

theorem places_length (sql : List Char) : (pg.places sql).length = sql.length := by
  conv => rhs; rw [← pg.places_chars sql, List.length_map]

open Classical in
/-- The name of a value is the value in upper case. -/
theorem with_name_eq (hplace : (pg.places (before ++ c :: text))[before.length]? = some placed) :
    with_name placed = if Read before (c :: text) then c.toUpper else c := by
  have hc : placed.1 = c := by
    have hchars := congrArg (·[before.length]?) (pg.places_chars (before ++ c :: text))
    simp only [List.getElem?_map, hplace, List.getElem?_append_right (Nat.le_refl _),
      Nat.sub_self] at hchars
    exact Option.some.inj hchars
  obtain ⟨d, place⟩ := placed
  obtain rfl : d = c := hc
  rcases place with _ | ⟨content, k⟩
  · have hread : ¬ Read before (d :: text) := by
      rintro ⟨_, _, _, hread, _⟩
      rw [hplace] at hread
      cases hread
    rw [if_neg hread]
    rfl
  · have hread : Read before (d :: text) ↔ enum_value content = true := by
      constructor
      · rintro ⟨_, _, _, hread, hvalue⟩
        rw [hplace] at hread
        cases hread
        exact hvalue
      · exact fun hvalue => ⟨d, content, k, hplace, hvalue⟩
    have hd := pg.places_in_place _ d content k (List.mem_of_getElem? hplace)
    rw [with_name]
    rcases hname : ENUM_MAP.lookup (lower content) with _ | name
    · rw [if_neg]
      rw [hread, enum_value, hname]
      exact Bool.false_ne_true
    · rw [if_pos]
      · have hupper := (ENUM_MAP.entry hname).name_eq
        rw [hupper]
        change List.getD _ k d = _
        rw [List.getD_eq_getElem?_getD, List.getElem?_map, hd]
        rfl
      · rw [hread, enum_value, hname]
        rfl

theorem with_enum_names_eq (sql : List Char) : with_enum_names sql = upper_where Read [] sql := by
  have hfrom : ∀ text before, sql = before ++ text →
      ((pg.places sql).drop before.length).map with_name = upper_where Read before text := by
    intro text
    induction text with
    | nil =>
      rintro before rfl
      rw [List.drop_eq_nil_of_le]
      · rfl
      · rw [places_length, List.append_nil]
    | cons c text ih =>
      rintro before rfl
      have hlt : before.length < (pg.places (before ++ c :: text)).length := by
        rw [places_length, List.length_append, List.length_cons]
        omega
      have hrest := ih (before ++ [c]) (List.append_cons before c text)
      rw [List.length_append, List.length_singleton] at hrest
      rw [List.drop_eq_getElem_cons hlt, List.map_cons, hrest, upper_where,
        with_name_eq (List.getElem?_eq_getElem hlt)]
  exact hfrom sql [] rfl

/-- The rewriting touches exactly the literals that are enum values if and only if, at
each lower-case letter, the pairs of quotes are those of the literals. -/
theorem enum_literals_iff (sql : List Char) :
    normalize_enum_literals sql = with_enum_names sql ↔ PairsAreLiterals sql := by
  rw [normalize_enum_literals, (scan_literals_eq sql).1 [] rfl, with_enum_names_eq,
    upper_where_eq_iff]
  constructor
  · intro h
    exact ⟨fun before c after hsplit hc => (h before c after hsplit hc).mp,
      fun before c after hsplit hc => (h before c after hsplit hc).mpr⟩
  · intro h before c after hsplit hc
    exact ⟨h.read before c after hsplit hc, h.paired before c after hsplit hc⟩

end

/-- A quote in a literal, an empty literal, a comment, names in double quotes, dollar
quotes, and a literal on two lines. -/
def odd_texts : List String :=
  ["SELECT 'it''active'", "SELECT '', 'active'", "SELECT 'active' -- 'active'",
    "SELECT \"'active'\"", "SELECT \"it's\", 'active'", "SELECT $$active$$",
    "SELECT 'act'\n'ive'"]

theorem other_literals_are_touched :
    normalize_enum_literals "SELECT 'it''active'".toList = "SELECT 'it''ACTIVE'".toList ∧
    normalize_enum_literals "SELECT '', 'active'".toList = "SELECT '', 'active'".toList ∧
    ∀ text ∈ odd_texts, normalize_enum_literals text.toList ≠ with_enum_names text.toList := by
  decide +kernel

end AIUtils

end saas
