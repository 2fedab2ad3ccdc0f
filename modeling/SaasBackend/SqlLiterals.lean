-- Literals on their way through the checks: only a blocked keyword in a literal
-- makes a difference to the verdict, where the patterns see the comments that the
-- database sees.
import SaasBackend.SqlText

namespace saas

namespace AIUtils

/-! ## The words of a clear input -/

section

variable {part rest text w : List Char} {c d : Char} {t : pg.Token} {pieces : List pg.Piece}

/-- The words of two texts, where none goes over the cut between them. -/
theorem tokens_cut (h : (∀ c ∈ part.getLast?, token_char c = false) ∨
    ∀ c ∈ rest.head?, token_char c = false) :
    tokens [] (part ++ rest) = tokens [] part ++ tokens [] rest := by
  rcases h with h | h
  · rcases List.eq_nil_or_concat' part with rfl | ⟨before, d, rfl⟩
    · rfl
    · have hd : token_char d = false := h d (by simp)
      rw [List.append_assoc, List.singleton_append, tokens_append hd, tokens_append hd]
      simp [tokens]
  · cases rest with
    | nil => simp [tokens]
    | cons d rest =>
      have hd : token_char d = false := h d rfl
      rw [tokens_append hd, tokens, if_neg (by rw [hd]; exact Bool.false_ne_true), if_pos rfl]

/-- Behind a token a new word starts, in lower case as well. -/
theorem tokens_lower_token (hs : pg.scan c (part ++ rest) = .token t rest) :
    tokens [] (lower (c :: (part ++ rest))) =
      tokens [] (lower (c :: part)) ++ tokens [] (lower rest) := by
  have hcut : pg.Cut (c :: (part ++ rest)) rest := pg.scan_cut (by rw [hs]; rfl)
  obtain ⟨d, ⟨before, hbefore⟩, hd⟩ := hcut
  have hpart : c :: part = before ++ [d] := by
    rw [List.append_cons, ← List.cons_append] at hbefore
    exact (List.append_cancel_right hbefore).symm
  rw [← List.cons_append, lower_append]
  refine tokens_cut (hd.imp (fun hd => lower_last ?_) lower_head)
  rw [hpart, List.getLast?_concat]
  exact fun e he => by cases he; exact hd

theorem tokens_lower_space (hc : pg.space c = true) :
    tokens [] (lower (c :: text)) = tokens [] (lower text) := by
  obtain ⟨hlower, hc⟩ := lower_char_not_ident (pg.space_not_ident hc)
  rw [lower_cons, hlower, List.singleton_append, tokens,
    if_neg (by rw [hc]; exact Bool.false_ne_true), if_pos rfl]

theorem tokens_lower_dropWhile (text : List Char) :
    tokens [] (lower (text.dropWhile pg.space)) = tokens [] (lower text) := by
  induction text with
  | nil => rfl
  | cons c text ih =>
    by_cases hc : pg.space c = true
    · rw [List.dropWhile_cons_of_pos hc, ih, tokens_lower_space hc]
    · rw [List.dropWhile_cons_of_neg hc]

/-- The words of the text without comments are those of its tokens. -/
theorem mem_tokens_kept (h : pg.Plain pieces) : w ∈ tokens [] (lower (pg.kept pieces)) ↔
    ∃ t c part, .token t c part ∈ pieces ∧ w ∈ tokens [] (lower (c :: part)) := by
  induction pieces with
  | nil => simp [pg.kept, lower, tokens]
  | cons piece pieces ih =>
    obtain ⟨hpiece, h⟩ := h
    cases piece with
    | space c =>
      have hsame : tokens [] (lower (pg.kept (.space c :: pieces))) =
          tokens [] (lower (pg.kept pieces)) := by
        rw [pg.kept]
        split
        · rename_i hnil
          rw [hnil]
        · exact tokens_lower_space hpiece
      rw [hsame, ih h]
      simp
    | line body => simpa [pg.kept] using ih h
    | block body => simpa [pg.kept] using ih h
    | token t c part =>
      rw [pg.kept, tokens_lower_token hpiece.2.1, List.mem_append, ih h]
      simp [or_and_right, exists_or]

end

/-! ## The verdict -/

section

variable {text w x y : List Char} {c : Char}

/-- Lower case makes no white space. -/
theorem lower_char_isspace (h : isspace c = false) : ∀ d ∈ lower_char c, isspace d = false := by
  unfold lower_char
  split
  · exact fun d hd => by rw [List.mem_singleton.mp hd]; decide
  split
  · have hall : ['i', Char.ofNat 0x307].all (fun d => !isspace d) = true := by decide
    exact fun d hd => by simpa using List.all_eq_true.mp hall d hd
  · intro d hd
    rw [List.mem_singleton.mp hd]
    by_cases hupper : 65 ≤ c.toNat ∧ c.toNat ≤ 90
    · have hlower : c.toLower.toNat = c.toNat + 32 := by
        have hval : c.toLower.val = c.val + 32 := congrArg Char.val (dif_pos hupper)
        change c.toLower.val.toNat = c.val.toNat + 32
        change 65 ≤ c.val.toNat ∧ c.val.toNat ≤ 90 at hupper
        rw [hval, UInt32.toNat_add]
        have h32 : (32 : UInt32).toNat = 32 := rfl
        omega
      unfold isspace
      simp only [hlower, Bool.or_eq_false_iff, decide_eq_false_iff_not, List.mem_cons,
        List.not_mem_nil, or_false]
      omega
    · have hlower : c.toLower = c := dif_neg hupper
      rw [hlower]
      exact h

/-- A run of letters at the start of a text is in the word at the start. -/
theorem starts_append (hw : ∀ c ∈ w, token_char c = true)
    (hy : ∀ c ∈ y.head?, token_char c = false) : w <+: x ++ y ↔ w <+: x := by
  induction w generalizing x with
  | nil => simp
  | cons c w ih =>
    cases x with
    | nil =>
      refine iff_of_false (fun h => ?_) (fun h => by simp at h)
      obtain ⟨after, hafter⟩ := h
      have hc := hy c (by rw [List.nil_append] at hafter; rw [← hafter]; rfl)
      rw [hw c List.mem_cons_self] at hc
      cases hc
    | cons d x =>
      rw [List.cons_append, List.cons_prefix_cons, List.cons_prefix_cons,
        ih fun e he => hw e (List.mem_cons_of_mem c he)]

theorem lower_char_ne_nil (c : Char) : lower_char c ≠ [] := by
  unfold lower_char
  split
  · exact List.cons_ne_nil _ _
  split
  · exact List.cons_ne_nil _ _
  · exact List.cons_ne_nil _ _

/-- A text without white space at its ends has none in lower case either. -/
theorem strip_lower (hstart : ∀ c ∈ text.head?, isspace c = false)
    (hend : ∀ c ∈ text.getLast?, isspace c = false) : strip (lower text) = lower text := by
  have h : strip ([] ++ lower text ++ []) = lower text := by
    refine strip_eq (by simp) (by simp) (fun d hd => ?_) fun d hd => ?_
    · cases text with
      | nil => cases hd
      | cons c text =>
        rw [lower_cons, List.head?_append_of_ne_nil _ (lower_char_ne_nil c)] at hd
        exact lower_char_isspace (hstart c rfl) d (List.mem_of_head? hd)
    · rcases List.eq_nil_or_concat' text with rfl | ⟨before, c, rfl⟩
      · cases hd
      · have hlast : lower (before ++ [c]) = lower before ++ lower_char c := by
          rw [lower_append, lower_cons]
          simp [lower]
        rw [hlast, List.getLast?_append_of_ne_nil _ (lower_char_ne_nil c)] at hd
        exact lower_char_isspace (hend c (by simp)) d (List.mem_of_getLast? hd)
  simpa using h

/-- What the check asks of the first word. -/
def selects (w : List Char) : Prop :=
  "select".toList <+: lower w ∨ "with".toList <+: lower w

instance (w : List Char) : Decidable (selects w) :=
  inferInstanceAs (Decidable (_ ∨ _))

/-- A blocked keyword is a word of the check in the text. -/
def has_blocked (text : List Char) : Bool := !(blocked_keywords (lower text)).isEmpty

theorem has_blocked_iff : has_blocked text = true ↔
    ∃ keyword ∈ BLOCKED_KEYWORDS, keyword.toList ∈ tokens [] (lower text) := by
  unfold has_blocked blocked_keywords
  rw [Bool.not_eq_true', ← Bool.not_eq_true, List.isEmpty_iff, List.filter_eq_nil_iff]
  simp

theorem blocked_keywords_strip :
    blocked_keywords (strip (lower text)) = [] ↔ ¬ has_blocked text = true := by
  rw [has_blocked_iff, blocked_keywords, List.filter_eq_nil_iff, tokens_strip]
  simp

theorem ensure_readonly.ok_iff {sql : List Char} : (∃ sql', ensure_readonly sql = .ok sql') ↔
    sql ≠ [] ∧ ("select".toList <+: strip (lower sql) ∨ "with".toList <+: strip (lower sql)) ∧
      ¬ has_blocked sql = true := by
  unfold ensure_readonly
  dsimp only
  rw [← blocked_keywords_strip, ← List.isPrefixOf_iff_prefix, ← List.isPrefixOf_iff_prefix]
  by_cases hnil : sql = []
  · rw [if_pos hnil]
    exact iff_of_false (fun h => by cases h.choose_spec) fun h => h.1 hnil
  rw [if_neg hnil]
  by_cases hstarts : "select".toList.isPrefixOf (strip (lower sql)) = true ∨
      "with".toList.isPrefixOf (strip (lower sql)) = true
  · rw [if_neg (not_not.mpr hstarts)]
    by_cases hblocked : blocked_keywords (strip (lower sql)) = []
    · rw [if_neg (not_not.mpr hblocked)]
      exact iff_of_true ⟨sql, rfl⟩ ⟨hnil, hstarts, hblocked⟩
    · rw [if_pos hblocked]
      exact iff_of_false (fun h => by cases h.choose_spec) fun h => hblocked h.2.2
  · rw [if_pos hstarts]
    exact iff_of_false (fun h => by cases h.choose_spec) fun h => hstarts h.2.1

theorem starts_lower (h : w <+: lower (c :: text)) (hw : w ≠ []) :
    w.head? = (lower_char c).head? := by
  obtain ⟨after, hafter⟩ := h
  rw [lower_cons] at hafter
  have hhead := congrArg List.head? hafter
  rwa [List.head?_append_of_ne_nil _ hw,
    List.head?_append_of_ne_nil _ (lower_char_ne_nil c)] at hhead

/-- A text that starts like one of the check's words starts with a word that does. -/
theorem starts_word {rest : List Char} {t : pg.Token} (hs : pg.scan c text = .token t rest)
    (hne : w ≠ []) (hw : ∀ d ∈ w, token_char d = true)
    (hopen : ∀ d ∈ pg.opening_letters, w.head? ≠ (lower_char d).head?) :
    w <+: lower (c :: text) ↔ ∃ v, t = .word v ∧ w <+: lower v := by
  rcases pg.scan_token hs with hmarked | ⟨_, rfl, _⟩
  · refine iff_of_false (fun h => ?_) ?_
    · have hhead := starts_lower h hne
      rcases pg.scan_marked hs hmarked with hident | hletter
      · obtain ⟨hlower, hend⟩ := lower_char_not_ident hident
        rw [hlower] at hhead
        rw [hw c (List.mem_of_head? hhead)] at hend
        cases hend
      · exact hopen c hletter hhead
    · rintro ⟨v, rfl, _⟩
      cases hmarked
  · have hsplit : lower (c :: text) = lower (c :: text.takeWhile pg.ident_cont) ++
        lower (text.dropWhile pg.ident_cont) := by
      rw [← lower_append, List.cons_append, List.takeWhile_append_dropWhile]
    rw [hsplit, starts_append hw]
    · exact ⟨fun h => ⟨_, rfl, h⟩, fun ⟨v, hv, h⟩ => by cases hv; exact h⟩
    · exact lower_head fun d hd => pg.ident_cont_start (pg.head?_dropWhile hd)

theorem starts_select {rest : List Char} {t : pg.Token} (hs : pg.scan c text = .token t rest) :
    ("select".toList <+: lower (c :: text) ∨ "with".toList <+: lower (c :: text)) ↔
      ∃ v, t = .word v ∧ selects v := by
  have hletters : ("select".toList ++ "with".toList).all token_char = true := by decide
  have hopen : (pg.opening_letters.all fun d => decide ("select".toList.head? ≠
      (lower_char d).head? ∧ "with".toList.head? ≠ (lower_char d).head?)) = true := by
    decide +kernel
  have hword : ∀ d ∈ "select".toList ++ "with".toList, token_char d = true :=
    List.all_eq_true.mp hletters
  have hletter : ∀ d ∈ pg.opening_letters, "select".toList.head? ≠ (lower_char d).head? ∧
      "with".toList.head? ≠ (lower_char d).head? := fun d hd =>
    of_decide_eq_true (List.all_eq_true.mp hopen d hd)
  rw [starts_word hs (by decide) (fun d hd => hword d (List.mem_append_left _ hd))
      fun d hd => (hletter d hd).1,
    starts_word hs (by decide) (fun d hd => hword d (List.mem_append_right _ hd))
      fun d hd => (hletter d hd).2, ← exists_or]
  simp only [← and_or_left, selects]

end

/-- The check accepts what is left of the input. -/
def Accepts (raw : String) : Prop := ∃ sql, ensure_readonly (checked raw) = .ok sql

instance (raw : String) : Decidable (Accepts raw) :=
  match h : ensure_readonly (checked raw) with
  | .ok sql => .isTrue ⟨sql, h⟩
  | .error _ => .isFalse fun hok => by rw [Accepts, h] at hok; cases hok.choose_spec

section

variable {raw : String} {pieces : List pg.Piece}

/-- A clear input is accepted when its first token is a word that the check asks for
and no token has a blocked keyword in it. -/
theorem Clear.accepts_iff (h : Clear raw pieces) : Accepts raw ↔
    (∃ v, (pg.lex raw.toList).head? = some (.word v) ∧ selects v) ∧
      ∀ t c part, .token t c part ∈ pieces → has_blocked (c :: part) = false := by
  have hblocked : has_blocked (AIUtils.checked raw) = true ↔
      ∃ t c part, .token t c part ∈ pieces ∧ has_blocked (c :: part) = true := by
    rw [has_blocked_iff, h.checked, tokens_lower_dropWhile]
    simp only [mem_tokens_kept h.plain, has_blocked_iff]
    constructor
    · rintro ⟨keyword, hk, t, c, part, hmem, hword⟩
      exact ⟨t, c, part, hmem, keyword, hk, hword⟩
    · rintro ⟨t, c, part, hmem, keyword, hk, hword⟩
      exact ⟨keyword, hk, t, c, part, hmem, hword⟩
  have hlex := h.lex
  unfold Accepts
  rw [ensure_readonly.ok_iff, hblocked, ← hlex, h.checked]
  push Not
  rcases pg.kept_starts h.plain with hnil | ⟨c, text, t, rest, hx, hs⟩
  · rw [hnil]
    refine iff_of_false (fun h => h.1 rfl) ?_
    rintro ⟨⟨v, hv, _⟩, _⟩
    cases hv
  · have hstrip : strip (lower (c :: text)) = lower (c :: text) :=
      hx ▸ strip_lower h.first h.last
    rw [hx, hstrip, starts_select hs, pg.lex_token hs]
    simp

end

/-! ## Two inputs -/

/-- A literal with a blocked keyword in it. -/
def blocked_literal : pg.Piece → Bool
  | .token (.literal _ _) c part => has_blocked (c :: part)
  | _ => false

/-- The same tokens except for the contents of literals, none of them an enum value. -/
structure OnlyLiterals (raw raw' : String) : Prop where
  tokens : pg.SameTokens raw.toList raw'.toList
  no_enum : ∀ content ∈ pg.literals raw.toList ++ pg.literals raw'.toList,
    ENUM_MAP.lookup (lower content) = none

instance (raw raw' : String) : Decidable (OnlyLiterals raw raw') :=
  decidable_of_iff (pg.SameTokens raw.toList raw'.toList ∧
      ∀ content ∈ pg.literals raw.toList ++ pg.literals raw'.toList,
        ENUM_MAP.lookup (lower content) = none)
    ⟨fun h => ⟨h.1, h.2⟩, fun h => ⟨h.tokens, h.no_enum⟩⟩

/-- Both inputs are refused, or both are accepted and their texts have the same
tokens again, with the literals as they were. -/
def Alike (raw raw' : String) : Prop :=
  ¬ Accepts raw ∧ ¬ Accepts raw' ∨
    Accepts raw ∧ Accepts raw' ∧ pg.SameTokens (checked raw) (checked raw') ∧
      pg.literals (checked raw) = pg.literals raw.toList ∧
      pg.literals (checked raw') = pg.literals raw'.toList

instance (raw raw' : String) : Decidable (Alike raw raw') :=
  inferInstanceAs (Decidable (_ ∨ _))

section

variable {raw raw' : String} {pieces pieces' : List pg.Piece}

/-- A token with a blocked keyword stands in the other input as well, unless it is a
literal. -/
theorem Clear.blocked (h : Clear raw pieces) (h' : Clear raw' pieces')
    (hsame : pg.SameTokens raw.toList raw'.toList)
    (hblocked : pieces.any blocked_literal = true → pieces'.any blocked_literal = true)
    {t : pg.Token} {c : Char} {part : List Char} (hmem : .token t c part ∈ pieces)
    (hpart : has_blocked (c :: part) = true) :
    ∃ t' c' part', .token t' c' part' ∈ pieces' ∧ has_blocked (c' :: part') = true := by
  obtain ⟨rest, hs⟩ := h.plain.scan hmem
  by_cases hliteral : t.text?.isSome = true
  · have ht : t ∈ pg.lex raw.toList := by
      rw [← h.text, pg.mem_lex_written h.plain]
      exact ⟨c, part, hmem⟩
    have hshape : t.shape ∈ (pg.lex raw'.toList).map pg.Token.shape := by
      rw [← hsame]
      exact List.mem_map_of_mem ht
    obtain ⟨t', ht', heq⟩ := List.mem_map.mp hshape
    rw [pg.shape_inj heq.symm hliteral, ← h'.text, pg.mem_lex_written h'.plain] at ht'
    obtain ⟨c', part', hmem'⟩ := ht'
    obtain ⟨rest', hs'⟩ := h'.plain.scan hmem'
    exact ⟨t, c', part', hmem', pg.scan_text_unique hliteral hs hs' ▸ hpart⟩
  · have hany : pieces.any blocked_literal = true := by
      refine List.any_eq_true.mpr ⟨_, hmem, ?_⟩
      cases t with
      | literal => exact hpart
      | error => exact absurd hs pg.scan_not_error
      | _ => exact absurd rfl hliteral
    obtain ⟨piece, hmem', hpiece⟩ := List.any_eq_true.mp (hblocked hany)
    unfold blocked_literal at hpiece
    split at hpiece
    · exact ⟨_, _, _, hmem', hpiece⟩
    · cases hpiece

theorem Clear.accepts (h : Clear raw pieces) (h' : Clear raw' pieces')
    (hsame : pg.SameTokens raw.toList raw'.toList)
    (hblocked : pieces'.any blocked_literal = true → pieces.any blocked_literal = true)
    (haccepts : Accepts raw) : Accepts raw' := by
  rw [h.accepts_iff] at haccepts
  rw [h'.accepts_iff]
  obtain ⟨⟨v, hv, hselects⟩, hnone⟩ := haccepts
  refine ⟨⟨v, ?_, hselects⟩, fun t c part hmem => ?_⟩
  · have hhead := congrArg List.head? hsame
    rw [List.head?_map, List.head?_map, hv] at hhead
    obtain ⟨t, ht, hshape⟩ := Option.map_eq_some_iff.mp hhead.symm
    rw [ht, pg.shape_inj hshape.symm rfl]
  · rw [← Bool.not_eq_true]
    intro hpart
    obtain ⟨t', c', part', hmem', hpart'⟩ := h'.blocked h hsame.symm hblocked hmem hpart
    rw [hnone t' c' part' hmem'] at hpart'
    cases hpart'

/-- Two clear inputs with the same tokens, except for the contents of literals, are
treated alike, unless a literal with a blocked keyword stands in one of them only.
What is left of each has all of its tokens. -/
theorem literals_are_opaque (h : Clear raw pieces) (h' : Clear raw' pieces')
    (hsame : pg.SameTokens raw.toList raw'.toList)
    (hblocked : pieces.any blocked_literal = pieces'.any blocked_literal) :
    Alike raw raw' ∧ pg.lex (checked raw) = pg.lex raw.toList ∧
      pg.lex (checked raw') = pg.lex raw'.toList := by
  refine ⟨?_, h.lex, h'.lex⟩
  have hiff : Accepts raw ↔ Accepts raw' :=
    ⟨h.accepts h' hsame fun hb => hblocked.trans hb, h'.accepts h hsame.symm fun hb =>
      hblocked.symm.trans hb⟩
  by_cases haccepts : Accepts raw
  · refine Or.inr ⟨haccepts, hiff.mp haccepts, ?_, ?_, ?_⟩
    · unfold pg.SameTokens
      rw [h.lex, h'.lex]
      exact hsame
    · rw [pg.literals, h.lex]
      rfl
    · rw [pg.literals, h'.lex]
      rfl
  · exact Or.inl ⟨haccepts, fun haccepts' => haccepts (hiff.mpr haccepts')⟩

end

end AIUtils

namespace Sample

def semicolon_text : String := "SELECT 'a;b' -- drop"

def semicolon_pieces : List pg.Piece :=
  [.token (.word "SELECT".toList) 'S' "ELECT".toList, .space ' ',
    .token (.literal [pg.quote] "a;b".toList) pg.quote "a;b'".toList, .space ' ',
    .line " drop".toList]

def apostrophe_text : String := "/* a */SELECT 'it''s'"

def apostrophe_pieces : List pg.Piece :=
  [.block " a ".toList, .token (.word "SELECT".toList) 'S' "ELECT".toList, .space ' ',
    .token (.literal [pg.quote] "it's".toList) pg.quote "it''s'".toList]

theorem semicolon_clear : AIUtils.Clear semicolon_text semicolon_pieces where
  text := by decide +kernel
  plain := by decide +kernel
  starts := by decide +kernel
  ends := by decide +kernel
  enums := by decide +kernel

theorem apostrophe_clear : AIUtils.Clear apostrophe_text apostrophe_pieces where
  text := by decide +kernel
  plain := by decide +kernel
  starts := by decide +kernel
  ends := by decide +kernel
  enums := by decide +kernel

end Sample

open Sample in
theorem AIUtils.literals_are_opaque_sample :
    Accepts semicolon_text ∧ Alike semicolon_text apostrophe_text ∧
      pg.lex (checked semicolon_text) = pg.lex semicolon_text.toList ∧
      pg.lex (checked apostrophe_text) = pg.lex apostrophe_text.toList :=
  ⟨by decide +kernel, literals_are_opaque semicolon_clear apostrophe_clear (by decide +kernel)
    (by decide +kernel)⟩

/-- A blocked keyword in a literal; what looks like a comment or an enum value in
one; and comments that the patterns do not see as PostgreSQL does: one in another,
one between two tokens, and one that ends with a carriage return. -/
theorem AIUtils.literals_are_not_opaque :
    (OnlyLiterals "SELECT 'drop'" "SELECT 'x'" ∧ ¬ Alike "SELECT 'drop'" "SELECT 'x'") ∧
    (OnlyLiterals "SELECT 'a--b'" "SELECT 'x'" ∧ ¬ Alike "SELECT 'a--b'" "SELECT 'x'") ∧
    (OnlyLiterals "SELECT '/*', '*/'" "SELECT 'a', 'b'" ∧
      ¬ Alike "SELECT '/*', '*/'" "SELECT 'a', 'b'") ∧
    (OnlyLiterals "SELECT 'it''active'" "SELECT 'x'" ∧ ¬ Alike "SELECT 'it''active'" "SELECT 'x'") ∧
    (OnlyLiterals "/*/**/*/SELECT 1" "SELECT 1" ∧ ¬ Alike "/*/**/*/SELECT 1" "SELECT 1") ∧
    (OnlyLiterals "SELECT/**/1" "SELECT 1" ∧ ¬ Alike "SELECT/**/1" "SELECT 1") ∧
    (OnlyLiterals "--\rSELECT 1" "SELECT 1" ∧ ¬ Alike "--\rSELECT 1" "SELECT 1") := by
  decide +kernel

end saas
