-- The read-only check against the lexer of the database: each word that
-- PostgreSQL reads in an executed text is among the words that the check looks at.
import SaasBackend.AdminAccess
import SaasBackend.PgTokens
import Mathlib.Data.List.TakeWhile

namespace saas

namespace AIUtils

/-! ## The words of the check -/

section

variable {token text before after w : List Char} {c : Char}

theorem tokens_append (hc : token_char c = false) (token text rest : List Char) :
    tokens token (text ++ c :: rest) = tokens token text ++ tokens [] rest := by
  induction text generalizing token with
  | nil =>
    simp only [List.nil_append, tokens, hc, Bool.false_eq_true, if_false]
    by_cases ht : token = []
    · simp only [ht, if_true, List.nil_append]
    · simp only [ht, if_false, List.singleton_append]
  | cons d text ih =>
    simp only [List.cons_append, tokens]
    by_cases hd : token_char d = true
    · simp only [hd, if_true, ih]
    · rw [Bool.not_eq_true] at hd
      by_cases ht : token = []
      · simp [hd, ht, ih]
      · simp [hd, ht, ih]

/-- A run of characters of words, up to its end. -/
theorem mem_tokens_run (hw : ∀ c ∈ w, token_char c = true) (hne : token ++ w ≠ [])
    (hafter : ∀ d ∈ after.head?, token_char d = false) :
    token ++ w ∈ tokens token (w ++ after) := by
  induction w generalizing token with
  | nil =>
    rw [List.append_nil] at hne ⊢
    cases after with
    | nil => simp [tokens, hne]
    | cons d after =>
      have hd : token_char d = false := hafter d rfl
      simp [tokens, hne, hd]
  | cons c w ih =>
    have hc : token_char c = true := hw c List.mem_cons_self
    have hrest : token ++ [c] ++ w ∈ tokens (token ++ [c]) (w ++ after) :=
      ih (fun d hd => hw d (List.mem_cons_of_mem c hd)) (by simp)
    rw [List.append_assoc, List.singleton_append] at hrest
    simpa [tokens, hc] using hrest

/-- A run of characters of words that stands by itself is a word of the check. -/
theorem mem_tokens (hw : ∀ c ∈ w, token_char c = true) (hne : w ≠ [])
    (hbefore : ∀ c ∈ before.getLast?, token_char c = false)
    (hafter : ∀ d ∈ after.head?, token_char d = false) : w ∈ tokens [] (before ++ w ++ after) := by
  have hrun : w ∈ tokens [] (w ++ after) := mem_tokens_run hw hne hafter
  rcases List.eq_nil_or_concat' before with rfl | ⟨before, c, rfl⟩
  · exact hrun
  · have hc : token_char c = false := hbefore c (by simp)
    rw [List.append_assoc, List.append_assoc, List.singleton_append, tokens_append hc]
    exact List.mem_append_right _ hrun

theorem isspace_not_token (h : isspace c = true) : token_char c = false := by
  have hscore : c ≠ '_' := by
    rintro rfl
    exact absurd h (by decide)
  have halpha : ¬ c.isAlpha = true := by
    rw [pg.isAlpha_iff]
    unfold isspace at h
    simp only [Bool.or_eq_true, decide_eq_true_eq, List.mem_cons, List.not_mem_nil, or_false] at h
    omega
  unfold token_char
  simp [halpha, hscore]

theorem tokens_spaces (ht : ∀ c ∈ text, token_char c = false) : tokens [] text = [] := by
  induction text with
  | nil => rfl
  | cons c text ih =>
    have hc := ht c List.mem_cons_self
    rw [tokens, if_neg (by rw [hc]; exact Bool.false_ne_true), if_pos rfl]
    exact ih fun d hd => ht d (List.mem_cons_of_mem c hd)

theorem tokens_spaces_append (hb : ∀ c ∈ before, token_char c = false) (text : List Char) :
    tokens [] (before ++ text) = tokens [] text := by
  induction before with
  | nil => rfl
  | cons c before ih =>
    have hc := hb c List.mem_cons_self
    rw [List.cons_append, tokens, if_neg (by rw [hc]; exact Bool.false_ne_true), if_pos rfl]
    exact ih fun d hd => hb d (List.mem_cons_of_mem c hd)

theorem tokens_append_spaces (ha : ∀ c ∈ after, token_char c = false) (text : List Char) :
    tokens [] (text ++ after) = tokens [] text := by
  cases after with
  | nil => rw [List.append_nil]
  | cons c after =>
    rw [tokens_append (ha c List.mem_cons_self),
      tokens_spaces fun d hd => ha d (List.mem_cons_of_mem c hd), List.append_nil]

/-- `strip` takes nothing from the words. -/
theorem tokens_strip (text : List Char) : tokens [] (strip text) = tokens [] text := by
  have hspaces : ∀ (l : List Char), ∀ c ∈ l.takeWhile isspace, token_char c = false :=
    fun l c hc => isspace_not_token (List.mem_takeWhile_imp hc)
  unfold strip
  have hend : text.dropWhile isspace =
      ((text.dropWhile isspace).reverse.dropWhile isspace).reverse ++
        ((text.dropWhile isspace).reverse.takeWhile isspace).reverse := by
    rw [← List.reverse_append, List.takeWhile_append_dropWhile, List.reverse_reverse]
  have hlast : tokens [] (text.dropWhile isspace) = tokens []
      ((text.dropWhile isspace).reverse.dropWhile isspace).reverse := by
    conv => lhs; rw [hend]
    refine tokens_append_spaces (fun c hc => ?_) _
    exact hspaces _ c (List.mem_reverse.mp hc)
  rw [← hlast]
  conv => rhs; rw [← List.takeWhile_append_dropWhile (p := isspace) (l := text)]
  exact (tokens_spaces_append (hspaces text) _).symm

/-! ## Lower case -/

theorem lower_append (text text' : List Char) : lower (text ++ text') = lower text ++ lower text' :=
  List.flatMap_append

theorem lower_cons (c : Char) (text : List Char) : lower (c :: text) = lower_char c ++ lower text :=
  List.flatMap_cons

/-- Only a character that becomes an ASCII one by itself does so alone. -/
theorem lower_char_of_ascii (h : c.toLower.toNat < 128) : lower_char c = [c.toLower] := by
  unfold lower_char
  split
  · rename_i hc
    rw [hc] at h
    exact absurd h (by decide)
  split
  · rename_i hc
    rw [hc] at h
    exact absurd h (by decide)
  · rfl

theorem lower_of_ascii (h : ∀ c ∈ w, c.toLower.toNat < 128) : lower w = w.map Char.toLower := by
  induction w with
  | nil => rfl
  | cons c w ih =>
    rw [lower_cons, lower_char_of_ascii (h c List.mem_cons_self),
      ih fun d hd => h d (List.mem_cons_of_mem c hd)]
    rfl

/-- Where a word of the database cannot start, none of the check goes on. -/
theorem lower_char_not_ident (h : pg.ident_start c = false) :
    lower_char c = [c] ∧ token_char c = false := by
  unfold pg.ident_start at h
  rw [Bool.or_eq_false_iff, decide_eq_false_iff_not] at h
  obtain ⟨hword, hascii⟩ := h
  have hlower : c.toLower = c := by
    refine dif_neg fun hupper => ?_
    have halpha : c.isAlpha = true := pg.isAlpha_iff.mpr (Or.inl hupper)
    rw [Bool.or_eq_false_iff, halpha] at hword
    cases hword.1
  refine ⟨?_, hword⟩
  rw [lower_char_of_ascii (by rw [hlower]; omega), hlower]

/-- A text after a word of the database starts no letter, in lower case as well. -/
theorem lower_head (h : ∀ c ∈ text.head?, pg.ident_start c = false) :
    ∀ d ∈ (lower text).head?, token_char d = false := by
  cases text with
  | nil => exact fun d hd => by cases hd
  | cons c text =>
    obtain ⟨hlower, hend⟩ := lower_char_not_ident (h c rfl)
    rw [lower_cons, hlower]
    intro d hd
    cases hd
    exact hend

theorem lower_last (h : ∀ c ∈ text.getLast?, pg.ident_start c = false) :
    ∀ d ∈ (lower text).getLast?, token_char d = false := by
  rcases List.eq_nil_or_concat' text with rfl | ⟨before, c, rfl⟩
  · exact fun d hd => by cases hd
  · obtain ⟨hlower, hend⟩ := lower_char_not_ident (h c (by simp))
    rw [lower_append, lower_cons, hlower]
    intro d hd
    have hlast : (lower before ++ ([c] ++ lower [])).getLast? = some c := by simp [lower]
    rw [hlast] at hd
    cases hd
    exact hend

end

/-! ## The check -/

section

variable {sql sql' w : List Char} {keyword : String}

theorem BLOCKED_KEYWORDS.chars (hk : keyword ∈ BLOCKED_KEYWORDS) :
    keyword.toList ≠ [] ∧ ∀ c ∈ keyword.toList, token_char c = true ∧ c.toNat < 128 := by
  have hall : (BLOCKED_KEYWORDS.all fun keyword => !keyword.toList.isEmpty &&
      keyword.toList.all fun c => token_char c && decide (c.toNat < 128)) = true := by decide
  have hkeyword := List.all_eq_true.mp hall keyword hk
  rw [Bool.and_eq_true, List.all_eq_true] at hkeyword
  exact ⟨by simpa using hkeyword.1, fun c hc => by simpa using hkeyword.2 c hc⟩

/-- The check passes a text on as it is, and no blocked keyword is among its words. -/
theorem ensure_readonly.ok (h : ensure_readonly sql = .ok sql') :
    sql' = sql ∧ ∀ keyword ∈ BLOCKED_KEYWORDS, keyword.toList ∉ tokens [] (lower sql) := by
  unfold ensure_readonly at h
  dsimp only at h
  split at h
  · cases h
  split at h
  · cases h
  split at h
  · cases h
  · rename_i hblocked
    cases h
    rw [not_not] at hblocked
    refine ⟨rfl, fun keyword hk hmem => ?_⟩
    rw [← tokens_strip] at hmem
    exact List.filter_eq_nil_iff.mp hblocked keyword hk (decide_eq_true hmem)

/-- A blocked keyword that PostgreSQL reads in a text is a word of the check. -/
theorem mem_tokens_of_lex (hk : keyword ∈ BLOCKED_KEYWORDS) (hw : .word w ∈ pg.lex sql)
    (hfold : w.map Char.toLower = keyword.toList) : keyword.toList ∈ tokens [] (lower sql) := by
  obtain ⟨before, after, rfl, hbefore, hafter⟩ := pg.stands_of_mem (Or.inl rfl) hw
  obtain ⟨hne, hchars⟩ := BLOCKED_KEYWORDS.chars hk
  have hlower : lower w = keyword.toList := by
    rw [lower_of_ascii, hfold]
    intro c hc
    refine (hchars c.toLower ?_).2
    rw [← hfold]
    exact List.mem_map_of_mem hc
  rw [lower_append, lower_append, hlower]
  refine mem_tokens (fun c hc => (hchars c hc).1) hne (lower_last hbefore) (lower_head ?_)
  exact fun d hd => pg.ident_cont_start (hafter d hd)

/-- The words of an executed text are those of the text that was checked, and the
word of the limit. -/
theorem mem_tokens_limit (isalnum : Char → Bool)
    (h : w ∈ tokens [] (lower (apply_default_limit isalnum sql 200))) :
    w ∈ tokens [] (lower sql) ∨ w = "limit".toList := by
  unfold apply_default_limit at h
  split at h
  · exact Or.inl h
  · have hlower : lower (newline :: "LIMIT ".toList ++ (toString 200).toList) =
        newline :: "limit 200".toList := by decide +kernel
    have hwords : tokens [] "limit 200".toList = ["limit".toList] := by decide +kernel
    rw [List.append_assoc, lower_append, hlower, tokens_append (by decide), hwords,
      List.mem_append, List.mem_singleton] at h
    exact h

end

end AIUtils

/-! ## The executed text -/

section

variable {engine : SqlEngine} {raw mode sql : String}

/-- The text that is executed has passed the check, and may have got a limit. -/
theorem ai_repo.prepare.ok {default_limit : Nat}
    (h : prepare engine raw mode default_limit = .ok sql) :
    ∃ checked, AIUtils.ensure_readonly
        (AIUtils.normalize_sql (AIUtils.normalize_enum_literals raw.toList)) = .ok checked ∧
      sql.toList = if mode = "preview" then
          AIUtils.apply_default_limit engine.isalnum checked default_limit
        else checked := by
  unfold prepare at h
  rcases hcheck : AIUtils.ensure_readonly
    (AIUtils.normalize_sql (AIUtils.normalize_enum_literals raw.toList)) with e | checked
  · rw [hcheck] at h
    cases h
  · rw [hcheck] at h
    refine ⟨checked, rfl, ?_⟩
    by_cases hmode : mode = "preview"
    · simp only [hmode, if_true] at h ⊢
      cases h
      exact String.toList_ofList
    · simp only [hmode, if_false] at h ⊢
      cases h
      exact String.toList_ofList

/-- No word that PostgreSQL reads in an executed text is a blocked keyword. -/
theorem blocked_keywords_stay_out (h : ai_repo.prepare engine raw mode = .ok sql) :
    ∀ keyword ∈ AIUtils.BLOCKED_KEYWORDS, ∀ w, .word w ∈ pg.lex sql.toList →
      w.map Char.toLower ≠ keyword.toList := by
  intro keyword hk w hw hfold
  obtain ⟨checked, hcheck, hsql⟩ := ai_repo.prepare.ok h
  obtain ⟨rfl, hout⟩ := AIUtils.ensure_readonly.ok hcheck
  have hmem := AIUtils.mem_tokens_of_lex hk hw hfold
  rw [hsql] at hmem
  split at hmem
  · rcases AIUtils.mem_tokens_limit engine.isalnum hmem with hmem | hlimit
    · exact hout keyword hk hmem
    · have hnot : ∀ keyword ∈ AIUtils.BLOCKED_KEYWORDS, keyword.toList ≠ "limit".toList := by
        decide
      exact hnot keyword hk hlimit
  · exact hout keyword hk hmem

end

namespace Sample

def updates : String := "SELECT deleted, updated_at FROM users /* drop */ -- update"

def updates_limited : String := "SELECT deleted, updated_at FROM users\nLIMIT 200"

end Sample

open Sample in
theorem blocked_keywords_stay_out_sample :
    "updated_at".toList.map Char.toLower ≠ "update".toList ∧
      "deleted".toList.map Char.toLower ≠ "delete".toList := by
  have h := blocked_keywords_stay_out
    (show ai_repo.prepare count_engine updates "preview" = .ok updates_limited by decide +kernel)
  exact ⟨h "update" (by decide) "updated_at".toList (by decide +kernel),
    h "delete" (by decide) "deleted".toList (by decide +kernel)⟩

end saas
