-- How many statements an executed text is: the read-only check looks neither for
-- a semicolon nor for INTO, and a limit is put after a text that ends with one.
import SaasBackend.PgLines
import SaasBackend.SqlGuard

namespace saas

def semicolon : pg.Token := .symbol [';']

/-- The keyword `INTO`. -/
def is_into : pg.Token → Bool
  | .word w => decide (w.map Char.toLower = "into".toList)
  | _ => false

/-- One statement that creates no table: nothing follows a semicolon, and there is
no `INTO`. -/
structure OneSelect (tokens : List pg.Token) : Prop where
  no_into : ∀ t ∈ tokens, is_into t = false
  ends : ∀ before after, tokens = before ++ semicolon :: after → after = []

/-- What the check does not look for is absent: an `INTO`, and a semicolon, other
than one at the very end of a text that gets no limit. -/
structure AsksOnce (limited : Bool) (tokens : List pg.Token) : Prop where
  no_into : ∀ t ∈ tokens, is_into t = false
  ends : ∀ before after, tokens = before ++ semicolon :: after → after = [] ∧ limited = false

/-- The text that the check sees. -/
def AIUtils.checked (raw : String) : List Char :=
  normalize_sql (normalize_enum_literals raw.toList)

/-- The text gets a limit. -/
def AIUtils.limited (isalnum : Char → Bool) (raw mode : String) : Bool :=
  decide (mode = "preview") && !has_limit isalnum false (checked raw)

def limit_line (default_limit : Nat := 200) : List Char :=
  AIUtils.newline :: "LIMIT ".toList ++ (toString default_limit).toList

section

variable {default_limit : Nat}

theorem limit_digits : ∀ c ∈ (toString default_limit).toList, c.isDigit = true := by
  intro c hc
  change c ∈ default_limit.repr.toList at hc
  rw [Nat.toList_repr] at hc
  exact Nat.isDigit_of_mem_toDigits (by decide) (by decide) hc

theorem limit_digits_ne_nil : (toString default_limit).toList ≠ [] := by
  change default_limit.repr.toList ≠ []
  rw [Nat.toList_repr]
  exact Nat.toDigits_ne_nil

theorem limit_line_inert : pg.Inert (limit_line default_limit) where
  head := rfl
  chars := by
    have hword : ((AIUtils.newline :: "LIMIT ".toList).all fun c =>
        decide (c ≠ pg.quote ∧ c ≠ pg.dquote ∧ c ≠ '$' ∧ c ≠ '*')) = true := by decide +kernel
    intro c hc
    rcases List.mem_append.mp hc with hc | hc
    · exact of_decide_eq_true (List.all_eq_true.mp hword c hc)
    · have hdigit := limit_digits c hc
      refine ⟨?_, ?_, ?_, ?_⟩ <;>
        · rintro rfl
          exact absurd hdigit (by decide)

theorem lex_limit_line : pg.lex (limit_line default_limit) =
    [.word "LIMIT".toList, .number (toString default_limit).toList] := by
  have hnewline : ∀ text, pg.scan AIUtils.newline text = .skip text := fun text => rfl
  have hword : ∀ text, pg.scan 'L' ("IMIT ".toList ++ text) =
      .token (.word "LIMIT".toList) (' ' :: text) := fun text => rfl
  have hspace : ∀ text, pg.scan ' ' text = .skip text := fun text => rfl
  have hline : limit_line default_limit =
      AIUtils.newline :: 'L' :: ("IMIT ".toList ++ (toString default_limit).toList) := rfl
  rw [hline, pg.lex_skip (hnewline _), pg.lex_token (hword _), pg.lex_skip (hspace _),
    pg.lex_digits limit_digits limit_digits_ne_nil]

end

section

variable {text : List Char} {tokens : List pg.Token}

theorem pg.error_last (h : .error ∈ pg.lex text) : (pg.lex text).getLast? = some .error := by
  induction text using pg.lex_induction with
  | nil => cases h
  | skip c text rest hs ih =>
    rw [pg.lex_skip hs] at h ⊢
    exact ih h
  | token c text token rest hs ih =>
    rw [pg.lex_token hs] at h ⊢
    rcases List.mem_cons.mp h with rfl | h
    · exact absurd hs pg.scan_not_error
    · rw [List.getLast?_cons, ih h]
      rfl
  | error c text hs =>
    rw [pg.lex_error hs]
    rfl

/-- Where nothing follows the text, the two say the same. -/
theorem OneSelect.iff_asks_once : OneSelect tokens ↔ AsksOnce false tokens :=
  ⟨fun h => ⟨h.no_into, fun before after ht => ⟨h.ends before after ht, rfl⟩⟩,
    fun h => ⟨h.no_into, fun before after ht => (h.ends before after ht).1⟩⟩

theorem AsksOnce.iff_absent :
    AsksOnce true tokens ↔ (∀ t ∈ tokens, is_into t = false) ∧ semicolon ∉ tokens := by
  constructor
  · intro h
    refine ⟨h.no_into, fun hmem => ?_⟩
    obtain ⟨before, after, ht⟩ := List.append_of_mem hmem
    cases (h.ends before after ht).2
  · rintro ⟨hinto, hmem⟩
    refine ⟨hinto, fun before after ht => absurd ?_ hmem⟩
    rw [ht]
    exact List.mem_append_right _ List.mem_cons_self

/-- A text that cannot be read to its end does not end with a semicolon. -/
theorem OneSelect.of_error (herror : .error ∈ pg.lex text) :
    OneSelect (pg.lex text) ↔ AsksOnce true (pg.lex text) := by
  rw [AsksOnce.iff_absent]
  constructor
  · intro h
    refine ⟨h.no_into, fun hmem => ?_⟩
    obtain ⟨before, after, ht⟩ := List.append_of_mem hmem
    have hlast := pg.error_last herror
    rw [ht, h.ends before after ht, List.getLast?_concat] at hlast
    cases hlast
  · rintro ⟨hinto, hmem⟩
    refine ⟨hinto, fun before after ht => absurd ?_ hmem⟩
    rw [ht]
    exact List.mem_append_right _ List.mem_cons_self

/-- With the limit behind it, no semicolon is the last token. -/
theorem OneSelect.of_limit {default_limit : Nat} :
    OneSelect (tokens ++ pg.lex (limit_line default_limit)) ↔ AsksOnce true tokens := by
  have hinto : ∀ t ∈ pg.lex (limit_line default_limit), is_into t = false := by
    rw [lex_limit_line]
    intro t ht
    simp only [List.mem_cons, List.not_mem_nil, or_false] at ht
    rcases ht with rfl | rfl
    · decide +kernel
    · rfl
  have hsemicolon : semicolon ∉ pg.lex (limit_line default_limit) := by
    rw [lex_limit_line]
    simp [semicolon]
  rw [AsksOnce.iff_absent]
  constructor
  · intro h
    refine ⟨fun t ht => h.no_into t (List.mem_append_left _ ht), fun hmem => ?_⟩
    obtain ⟨before, after, ht⟩ := List.append_of_mem hmem
    have hnil := h.ends before (after ++ pg.lex (limit_line default_limit))
      (by rw [ht, List.append_assoc, List.cons_append])
    rw [lex_limit_line] at hnil
    simp at hnil
  · rintro ⟨hnone, hmem⟩
    constructor
    · intro t ht
      rcases List.mem_append.mp ht with ht | ht
      · exact hnone t ht
      · exact hinto t ht
    · intro before after ht
      have hin : semicolon ∈ tokens ++ pg.lex (limit_line default_limit) := by
        rw [ht]
        exact List.mem_append_right _ List.mem_cons_self
      rcases List.mem_append.mp hin with hin | hin
      · exact absurd hin hmem
      · exact absurd hin hsemicolon

end

/-! ## The executed text -/

section

variable {engine : SqlEngine} {raw mode sql : String} {default_limit : Nat}

theorem ai_repo.prepare.text (h : prepare engine raw mode default_limit = .ok sql) :
    sql.toList = if AIUtils.limited engine.isalnum raw mode then
        AIUtils.checked raw ++ limit_line default_limit
      else AIUtils.checked raw := by
  obtain ⟨checked, hcheck, hsql⟩ := ai_repo.prepare.ok h
  obtain ⟨rfl, _⟩ := AIUtils.ensure_readonly.ok hcheck
  rw [hsql]
  unfold AIUtils.limited AIUtils.apply_default_limit AIUtils.checked
  by_cases hmode : mode = "preview"
  · simp only [hmode, if_true, decide_true, Bool.true_and]
    rcases AIUtils.has_limit engine.isalnum false
      (AIUtils.normalize_sql (AIUtils.normalize_enum_literals raw.toList)) with _ | _
    · simp only [Bool.not_false, if_true, Bool.false_eq_true, if_false]
      rw [List.append_assoc]
      rfl
    · rfl
  · simp only [hmode, if_false, decide_false, Bool.false_and, Bool.false_eq_true]

/-- In terms of the text that the check sees. -/
theorem ai_repo.prepare.one_select_iff (h : prepare engine raw mode = .ok sql) :
    OneSelect (pg.lex sql.toList) ↔
      AsksOnce (AIUtils.limited engine.isalnum raw mode) (pg.lex (AIUtils.checked raw)) := by
  rw [ai_repo.prepare.text h]
  rcases AIUtils.limited engine.isalnum raw mode with _ | _
  · exact OneSelect.iff_asks_once
  · rw [if_pos rfl, pg.lex_append limit_line_inert]
    split
    · rename_i herror
      exact OneSelect.of_error herror
    · exact OneSelect.of_limit

end

end saas
