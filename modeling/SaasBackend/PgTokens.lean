-- What the tokens of a text say about its characters: a scan cuts a text where no
-- word goes on, and text that is added on a new line is read on its own.
import SaasBackend.PgLexer
import Mathlib.Data.List.Infix
import Mathlib.Data.List.TakeWhile

namespace pg

/-! ## Cuts -/

/-- The rest of the text after some characters, where no word goes over the cut. -/
def Cut (text rest : List Char) : Prop :=
  ∃ c, c :: rest <:+ text ∧ (ident_start c = false ∨ ∀ d ∈ rest.head?, ident_start d = false)

/-- What the scan leaves of the text. -/
def Scan.rest : Scan → Option (List Char)
  | skip rest => some rest
  | token _ rest => some rest
  | error => none

section

variable {c : Char} {text rest before : List Char}

theorem suffix_later (h : rest <:+ text) : rest <:+ c :: text := h.trans (List.suffix_cons c text)

theorem Cut.of_char (h : c :: rest <:+ text) (hc : ident_start c = false) : Cut text rest :=
  ⟨c, h, Or.inl hc⟩

theorem Cut.of_head (h : rest <:+ text) (hd : ∀ d ∈ rest.head?, ident_start d = false) :
    Cut (c :: text) rest := by
  obtain ⟨before, rfl⟩ := h
  refine ⟨(c :: before).getLast (List.cons_ne_nil _ _), ?_, Or.inr hd⟩
  refine ⟨(c :: before).dropLast, ?_⟩
  rw [List.append_cons, List.dropLast_concat_getLast]
  rfl

theorem Cut.of_chars (hb : before ≠ []) (h : ∀ d ∈ before, ident_start d = false) :
    Cut (before ++ rest) rest := by
  refine ⟨before.getLast hb, ⟨before.dropLast, ?_⟩, Or.inl (h _ (List.getLast_mem hb))⟩
  rw [List.append_cons, List.dropLast_concat_getLast]

theorem Cut.suffix (h : Cut text rest) : rest <:+ text := by
  obtain ⟨c, h, _⟩ := h
  exact (List.suffix_cons c rest).trans h

theorem Cut.length_lt (h : Cut text rest) : rest.length < text.length := by
  obtain ⟨c, h, _⟩ := h
  exact h.length_le

theorem head?_dropWhile {p : Char → Bool} {d : Char} (h : d ∈ (text.dropWhile p).head?) :
    p d = false := by
  have hnot := List.head?_dropWhile_not p text
  rw [Option.mem_def.mp h] at hnot
  exact hnot

theorem ident_cont_start {d : Char} (h : ident_cont d = false) : ident_start d = false := by
  unfold ident_cont tag_cont at h
  rw [Bool.or_eq_false_iff, Bool.or_eq_false_iff] at h
  exact h.1.1

/-- After a run of characters that takes all letters. -/
theorem Cut.of_run {p : Char → Bool} (hp : ∀ d, p d = false → ident_start d = false) :
    Cut (c :: text) (text.dropWhile p) :=
  Cut.of_head (List.dropWhile_suffix p) fun d hd => hp d (head?_dropWhile hd)

end

/-! ## Comments and quotes -/

section

variable {text rest content content' : List Char}

theorem comment_end_some {depth : Nat} (h : comment_end depth text = some rest) :
    '/' :: rest <:+ text := by
  fun_induction comment_end depth text with
  | case1 text =>
    obtain rfl := Option.some.inj h
    exact List.suffix_cons _ _
  | case2 depth text ih => exact suffix_later (suffix_later (ih h))
  | case3 depth text ih => exact suffix_later (suffix_later (ih h))
  | case4 depth c text _ _ _ ih => exact suffix_later (ih h)
  | case5 => cases h

/-- The text after the quote that may have closed the string. -/
def At.after (text : List Char) : At → Option (List Char)
  | inside => none
  | escaped => none
  | closed => some text
  | gap rest _ => some rest
  | dash rest _ => some rest
  | comment rest _ => some rest

theorem behind_after {line : Bool} {c : Char} {m : At} (h : behind rest line c = some m) :
    m.after text = some rest := by
  unfold behind at h
  split at h
  · cases h
    rfl
  split at h
  · cases h
    rfl
  split at h
  · cases h
    rfl
  · cases h

theorem behind_suffix {whole : List Char} {line : Bool} {c : Char} {m : At}
    (h : behind rest line c = some m) (hq : quote :: rest <:+ whole) :
    ∀ after ∈ m.after text, quote :: after <:+ whole := by
  intro after ha
  rw [behind_after h] at ha
  cases ha
  exact hq

/-- A string ends with a quote. -/
theorem string_end_some {escapes : Bool} {whole : List Char} {m : At}
    (h : string_end escapes m content text = some (content', rest)) (htext : text <:+ whole)
    (hm : ∀ after ∈ m.after text, quote :: after <:+ whole) : quote :: rest <:+ whole := by
  induction text generalizing m content with
  | nil =>
    cases m with
    | inside => cases h
    | escaped => cases h
    | closed => cases h; exact hm _ rfl
    | gap => cases h; exact hm _ rfl
    | dash => cases h; exact hm _ rfl
    | comment => cases h; exact hm _ rfl
  | cons c text ih =>
    have hnext : text <:+ whole := (List.suffix_cons c text).trans htext
    cases m with
    | inside =>
      unfold string_end at h
      split at h
      · rename_i hc
        refine ih h hnext fun after ha => ?_
        cases ha
        exact hc ▸ htext
      split at h
      · exact ih h hnext fun _ ha => by cases ha
      · exact ih h hnext fun _ ha => by cases ha
    | escaped => exact ih h hnext fun _ ha => by cases ha
    | closed =>
      have hq := hm _ rfl
      unfold string_end at h
      split at h
      · exact ih h hnext fun _ ha => by cases ha
      split at h
      · rename_i hb
        exact ih h hnext (behind_suffix hb hq)
      · cases h
        exact hq
    | gap after line =>
      have hq := hm _ rfl
      unfold string_end at h
      split at h
      · split at h
        · exact ih h hnext fun _ ha => by cases ha
        · cases h
          exact hq
      split at h
      · rename_i hb
        exact ih h hnext (behind_suffix hb hq)
      · cases h
        exact hq
    | dash after line =>
      unfold string_end at h
      split at h
      · exact ih h hnext hm
      · cases h
        exact hm _ rfl
    | comment after line =>
      unfold string_end at h
      split at h
      · exact ih h hnext hm
      · exact ih h hnext hm

theorem quoted_end_some (h : quoted_end content text = some (content', rest)) :
    dquote :: rest <:+ text := by
  fun_induction quoted_end content text with
  | case1 => cases h
  | case2 content =>
    cases h
    exact List.suffix_refl _
  | case3 => cases h
  | case4 content c d text hc ih => exact suffix_later (ih h)
  | case5 content c text hc ih => exact suffix_later (suffix_later (ih h))
  | case6 content c d text hc hd =>
    cases h
    rw [not_not] at hc
    exact hc ▸ List.suffix_refl _

theorem find_mark_some {mark : List Char}
    (h : find_mark mark content text = some (content', rest)) : mark ++ rest <:+ text := by
  fun_induction find_mark mark content text with
  | case1 => cases h
  | case2 content c text hstarts =>
    cases h
    obtain ⟨after, hafter⟩ := List.isPrefixOf_iff_prefix.mp hstarts
    rw [← hafter, List.drop_left]
  | case3 content c text hstarts ih => exact suffix_later (ih h)

theorem tag_some {name : List Char} (h : tag text = some (name, rest)) : '$' :: rest <:+ text := by
  unfold tag at h
  split at h
  · rename_i after hafter
    dsimp only at h
    split at h
    · cases h
      rw [← hafter]
      exact List.dropWhile_suffix _
    · cases h
  · cases h

/-! ## Numbers and operators -/

theorem digits_suffix (digit : Char → Bool) (text : List Char) : digits digit text <:+ text := by
  fun_induction digits digit text with
  | case1 d text hd ih => exact suffix_later (suffix_later ih)
  | case2 => exact List.suffix_refl _
  | case3 d text _ hd ih => exact suffix_later ih
  | case4 => exact List.suffix_refl _
  | case5 => exact List.suffix_refl _

theorem fraction_suffix (text : List Char) : fraction text <:+ text := by
  unfold fraction
  split
  · split
    · exact List.suffix_refl _
    split
    · exact suffix_later (suffix_later (digits_suffix _ _))
    · exact List.suffix_cons _ _
  · exact List.nil_suffix
  · exact List.suffix_refl _

theorem exponent_suffix (text : List Char) : exponent text <:+ text := by
  unfold exponent
  split
  · split
    · exact List.suffix_refl _
    split
    · exact suffix_later (suffix_later (digits_suffix _ _))
    split
    · exact suffix_later (suffix_later (suffix_later (digits_suffix _ _)))
    · exact List.suffix_refl _
  · split
    · exact List.nil_suffix
    · exact List.suffix_refl _
  · exact List.suffix_refl _

theorem radix_suffix {c : Char} (h : radix (c :: text) = some rest) : rest <:+ text := by
  unfold radix at h
  split at h
  · rename_i x after heq
    cases heq
    split at h
    · split at h
      · cases h
      · cases h
        exact suffix_later (digits_suffix _ _)
    · cases h
  · cases h

theorem digits_cons {c : Char} (hc : c.isDigit = true) :
    digits Char.isDigit (c :: text) = digits Char.isDigit text := by
  cases text with
  | nil => simp [digits, hc]
  | cons d text =>
    rw [digits]
    · rw [if_pos hc]
    · rintro d' text' rfl
      exact absurd hc (by decide)

/-- A number takes at least its first character. -/
theorem number_end_suffix {c : Char} (hc : c.isDigit = true ∨
    c = '.' ∧ text.head?.any Char.isDigit = true) : number_end (c :: text) <:+ text := by
  unfold number_end
  rcases hr : radix (c :: text) with _ | rest
  · rw [Option.getD_none]
    refine (exponent_suffix _).trans ?_
    rcases hc with hc | ⟨rfl, hd⟩
    · rw [digits_cons hc]
      exact (fraction_suffix _).trans (digits_suffix _ _)
    · cases text with
      | nil => cases hd
      | cons d text =>
        have hdot : digits Char.isDigit ('.' :: d :: text) = '.' :: d :: text := rfl
        have hne : d ≠ '.' := by
          rintro rfl
          cases hd
        have hdigit : d.isDigit = true := hd
        rw [hdot, fraction, if_neg hne, if_pos hdigit]
        exact suffix_later (digits_suffix _ _)
  · exact radix_suffix hr

/-! ## Operators -/

theorem before_comment_starts (text : List Char) : before_comment text <+: text := by
  fun_induction before_comment text with
  | case1 => exact List.nil_prefix
  | case2 => exact List.nil_prefix
  | case3 c text _ _ ih => exact List.prefix_cons_inj c |>.mpr ih
  | case4 => exact List.prefix_refl _

theorem without_signs_starts (op : List Char) : without_signs op <+: op := by
  unfold without_signs
  split
  · exact List.prefix_refl _
  split
  · exact List.take_prefix _ _
  · have hsuffix := List.dropWhile_suffix (l := op.reverse) fun c => decide (c ∈ ['+', '-'])
    simpa using List.reverse_prefix.mpr hsuffix

theorem operator_starts (text : List Char) : operator text <+: text.takeWhile op_char :=
  (without_signs_starts _).trans (before_comment_starts _)

theorem operator_ne_nil {c : Char} (hc : op_char c = true)
    (hline : ¬ (c = '-' ∧ text.head? = some '-')) (hblock : ¬ (c = '/' ∧ text.head? = some '*')) :
    operator (c :: text) ≠ [] := by
  have hfirst : before_comment ((c :: text).takeWhile op_char) =
      c :: before_comment (text.takeWhile op_char) := by
    rw [List.takeWhile_cons_of_pos hc, before_comment]
    · rintro after rfl hafter
      cases text with
      | nil => cases hafter
      | cons d text =>
        rw [List.takeWhile_cons] at hafter
        split at hafter
        · cases hafter
          exact hline ⟨rfl, rfl⟩
        · cases hafter
    · rintro after rfl hafter
      cases text with
      | nil => cases hafter
      | cons d text =>
        rw [List.takeWhile_cons] at hafter
        split at hafter
        · cases hafter
          exact hblock ⟨rfl, rfl⟩
        · cases hafter
  unfold operator
  rw [hfirst]
  unfold without_signs
  split
  · exact List.cons_ne_nil _ _
  split
  · exact List.cons_ne_nil _ _
  · rename_i kept hkept
    intro hnil
    exact hkept (List.reverse_eq_nil_iff.mp hnil)

theorem op_char_not_ident {c : Char} (h : op_char c = true) : ident_start c = false := by
  have hall : (extra_op_chars ++ ['+', '-', '*', '/', '<', '>', '=']).all
      (fun c => !ident_start c) = true := by decide
  unfold op_char at h
  rw [decide_eq_true_iff] at h
  simpa using List.all_eq_true.mp hall c h

theorem special_starts (c : Char) (text : List Char) : special c text <+: c :: text := by
  unfold special
  split
  · exact List.take_prefix 2 (c :: text)
  · exact List.take_prefix 1 (c :: text)

theorem special_ne_nil (c : Char) (text : List Char) : special c text ≠ [] := by
  unfold special
  split
  · exact List.cons_ne_nil _ _
  · exact List.cons_ne_nil _ _

theorem special_not_ident {c : Char} (hc : ident_start c = false) :
    ∀ d ∈ special c text, ident_start d = false := by
  have hpairs : (pairs.all fun p => p.all fun d => !ident_start d) = true := by decide
  unfold special
  split
  · rename_i h
    intro d hd
    obtain ⟨p, hp, heq⟩ := List.any_eq_true.mp h
    rw [← of_decide_eq_true heq] at hd
    simpa using List.all_eq_true.mp (List.all_eq_true.mp hpairs p hp) d hd
  · intro d hd
    rw [List.mem_singleton.mp hd]
    exact hc

/-! ## The scan -/

theorem apart_rest {token : Token} (h : (apart token text).rest = some rest) :
    rest = text ∧ ∀ d ∈ rest.head?, ident_start d = false := by
  unfold apart at h
  split at h
  · cases h
  · rename_i hhead
    cases h
    refine ⟨rfl, fun d hd => ?_⟩
    rw [Option.mem_def.mp hd] at hhead
    simpa using hhead

theorem string_cut {escapes : Bool} {opening : List Char}
    (h : (string escapes opening text).rest = some rest) : Cut text rest := by
  unfold string at h
  split at h
  · rename_i hend
    cases h
    have hquote := string_end_some hend (List.suffix_refl _) fun _ ha => by cases ha
    exact Cut.of_char hquote (by decide)
  · cases h

theorem quoted_ident_cut {opening : List Char} (h : (quoted_ident opening text).rest = some rest) :
    Cut text rest := by
  unfold quoted_ident at h
  split at h
  · rename_i hend
    cases h
    exact Cut.of_char (quoted_end_some hend) (by decide)
  · cases h

theorem Cut.later {c : Char} (h : Cut text rest) : Cut (c :: text) rest := by
  obtain ⟨d, hsuffix, hd⟩ := h
  exact ⟨d, suffix_later hsuffix, hd⟩

theorem dollar_cut (h : (dollar text).rest = some rest) : Cut ('$' :: text) rest := by
  unfold dollar at h
  split at h
  · rename_i name after htag
    dsimp only at h
    split at h
    · rename_i content rest' hfind
      cases h
      have hend : '$' :: rest <:+ after := by
        refine List.IsSuffix.trans ?_ (find_mark_some hfind)
        exact ⟨'$' :: name, by simp⟩
      exact Cut.of_char (suffix_later (hend.trans (suffix_later (List.suffix_refl _) |>.trans
        (tag_some htag)))) (by decide)
    · cases h
  · split at h
    · obtain ⟨rfl, hhead⟩ := apart_rest h
      exact Cut.of_head (List.dropWhile_suffix _) hhead
    · cases h
      exact Cut.of_char (List.suffix_refl _) (by decide)

/-- The letters that open a literal or an identifier in quotes. -/
def opening_letters : List Char := "bBxXnN".toList ++ (['e', 'E'] ++ ['u', 'U'])

/-- What a scan at a letter can be. -/
inductive AtLetter (c : Char) : List Char → Scan → Prop
  | string (escapes : Bool) (d : Char) (text : List Char) (hc : c ∈ opening_letters) :
    AtLetter c (d :: text) (string escapes [c, d] text)
  | unicode (d e : Char) (text : List Char) (hc : c ∈ opening_letters) :
    AtLetter c (d :: e :: text) (string false [c, d, e] text)
  | quoted (d e : Char) (text : List Char) (hc : c ∈ opening_letters) :
    AtLetter c (d :: e :: text) (quoted_ident [c, d, e] text)
  | word (text : List Char) : AtLetter c text
      (.token (.word (c :: text.takeWhile ident_cont)) (text.dropWhile ident_cont))
  | error (text : List Char) : AtLetter c text .error

theorem at_letter (c : Char) (text : List Char) : AtLetter c text (word c text) := by
  have hplain : "bBxXnN".toList ⊆ opening_letters := List.subset_append_left _ _
  have hescapes : ['e', 'E'] ⊆ opening_letters := fun d hd =>
    List.mem_append_right _ (List.mem_append_left _ hd)
  have hunicode : ['u', 'U'] ⊆ opening_letters := fun d hd =>
    List.mem_append_right _ (List.mem_append_right _ hd)
  unfold pg.word
  dsimp only
  split
  · split
    · rename_i hc
      exact .string _ _ _ (hplain hc.1)
    split
    · rename_i hc
      exact .string _ _ _ (hescapes hc.1)
    split
    · rename_i hc
      exact .unicode _ _ _ (hunicode hc.1)
    split
    · rename_i hc
      exact .quoted _ _ _ (hunicode hc.1)
    · exact .word _
  · split
    · exact .error _
    · exact .word _
  · exact .word _

theorem AtLetter.cut {c : Char} {s : Scan} (hs : AtLetter c text s) (h : s.rest = some rest) :
    Cut (c :: text) rest := by
  cases hs with
  | string => exact (string_cut h).later.later
  | unicode => exact (string_cut h).later.later.later
  | quoted => exact (quoted_ident_cut h).later.later.later
  | word =>
    cases h
    exact Cut.of_run fun _ => ident_cont_start
  | error => cases h

theorem isAlpha_iff {c : Char} : c.isAlpha = true ↔
    65 ≤ c.toNat ∧ c.toNat ≤ 90 ∨ 97 ≤ c.toNat ∧ c.toNat ≤ 122 := by
  have hupper : c.isUpper = true ↔ 65 ≤ c.toNat ∧ c.toNat ≤ 90 := decide_eq_true_iff
  have hlower : c.isLower = true ↔ 97 ≤ c.toNat ∧ c.toNat ≤ 122 :=
    Bool.and_eq_true_iff.trans (and_congr decide_eq_true_iff decide_eq_true_iff)
  have halpha : c.isAlpha = (c.isUpper || c.isLower) := rfl
  rw [halpha, Bool.or_eq_true, hupper, hlower]

theorem space_not_ident {c : Char} (h : space c = true) : ident_start c = false := by
  have hlow : c.toNat ≤ 32 := by
    unfold space at h
    rw [Bool.or_eq_true, decide_eq_true_iff, decide_eq_true_iff] at h
    rcases h with rfl | h
    · exact Nat.le_refl _
    · omega
  have hscore : c ≠ '_' := by
    rintro rfl
    exact absurd hlow (by decide)
  have halpha : ¬ c.isAlpha = true := by
    rw [isAlpha_iff]
    omega
  unfold ident_start
  simp only [halpha, hscore, decide_false, Bool.false_or]
  exact decide_eq_false (by omega)

theorem newline_space {c : Char} (h : newline c = true) : space c = true := by
  unfold newline at h
  rw [decide_eq_true_iff] at h
  unfold space
  rw [Bool.or_eq_true, decide_eq_true_iff, decide_eq_true_iff]
  exact Or.inr (by omega)

/-- The text starts with what is taken from its start. -/
theorem Cut.of_prefix {c : Char} {before : List Char} (hstarts : before <+: c :: text)
    (hne : before ≠ []) (h : ∀ d ∈ before, ident_start d = false) :
    Cut (c :: text) ((c :: text).drop before.length) := by
  obtain ⟨after, hafter⟩ := hstarts
  rw [← hafter, List.drop_left]
  exact Cut.of_chars hne h

/-- What a scan can be. -/
inductive AtStart (c : Char) (text : List Char) : Scan → Prop
  | space (hc : space c = true) : AtStart c text (.skip text)
  | line : AtStart c text (.skip (text.dropWhile fun d => !newline d))
  | comment {rest : List Char} (hend : comment_end 0 text.tail = some rest) :
    AtStart c text (.skip rest)
  | open_comment : AtStart c text .error
  | string (hc : c = quote) : AtStart c text (string false [c] text)
  | quoted (hc : c = dquote) : AtStart c text (quoted_ident [c] text)
  | dollar (hc : c = '$') : AtStart c text (dollar text)
  | letter {s : Scan} (hc : ident_start c = true) (hs : AtLetter c text s) : AtStart c text s
  | number (hident : ident_start c = false)
    (hc : c.isDigit = true ∨ c = '.' ∧ text.head?.any Char.isDigit = true) :
    AtStart c text (apart (.number (used (c :: text) (number_end (c :: text))))
      (number_end (c :: text)))
  | operator (hc : op_char c = true) (hne : operator (c :: text) ≠ []) :
    AtStart c text (.token (.symbol (operator (c :: text)))
      ((c :: text).drop (operator (c :: text)).length))
  | special (hident : ident_start c = false) :
    AtStart c text (.token (.symbol (special c text)) ((c :: text).drop (special c text).length))

theorem at_start (c : Char) (text : List Char) : AtStart c text (scan c text) := by
  unfold pg.scan
  split
  · rename_i hspace
    exact .space hspace
  split
  · exact .line
  rename_i hline
  split
  · split
    · rename_i hend
      exact .comment hend
    · exact .open_comment
  rename_i hblock
  split
  · rename_i hc
    exact .string hc
  split
  · rename_i hc
    exact .quoted hc
  split
  · rename_i hc
    exact .dollar hc
  split
  · rename_i hc
    exact .letter hc (at_letter c text)
  rename_i hident
  rw [Bool.not_eq_true] at hident
  split
  · rename_i hc
    exact .number hident hc
  split
  · rename_i hc
    exact .operator hc (operator_ne_nil hc hline hblock)
  · exact .special hident

/-- A scan takes some characters, and no word goes over its end. -/
theorem scan_cut {c : Char} (h : (scan c text).rest = some rest) : Cut (c :: text) rest := by
  have hs := at_start c text
  generalize scan c text = s at h hs
  cases hs with
  | space hspace =>
    cases h
    exact Cut.of_char (List.suffix_refl _) (space_not_ident hspace)
  | line =>
    cases h
    refine Cut.of_run fun d hd => space_not_ident (newline_space ?_)
    simpa using hd
  | comment hend =>
    cases h
    have hslash := (comment_end_some hend).trans (List.tail_suffix text)
    exact Cut.of_char (suffix_later hslash) (by decide)
  | open_comment => cases h
  | string => exact (string_cut h).later
  | quoted => exact (quoted_ident_cut h).later
  | dollar hc => exact hc ▸ dollar_cut h
  | letter _ hs => exact hs.cut h
  | number hident hc =>
    obtain ⟨rfl, hhead⟩ := apart_rest h
    exact Cut.of_head (number_end_suffix hc) hhead
  | operator hc hne =>
    cases h
    have hstarts := operator_starts (c :: text)
    refine Cut.of_prefix (hstarts.trans (List.takeWhile_prefix _)) hne fun d hd =>
      op_char_not_ident ?_
    exact List.mem_takeWhile_imp (hstarts.subset hd)
  | special hident =>
    cases h
    exact Cut.of_prefix (special_starts c text) (special_ne_nil c text) (special_not_ident hident)

/-! ## The tokens -/

theorem lex_steps_eq {n m : Nat} (hn : text.length ≤ n) (hm : text.length ≤ m) :
    lex_steps n text = lex_steps m text := by
  induction n generalizing m text with
  | zero =>
    rw [List.length_eq_zero_iff.mp (Nat.le_zero.mp hn)]
    cases m <;> rfl
  | succ n ih =>
    cases text with
    | nil => cases m <;> rfl
    | cons c text =>
      cases m with
      | zero => cases hm
      | succ m =>
        have hrest : ∀ {rest}, (scan c text).rest = some rest →
            lex_steps n rest = lex_steps m rest := fun h => by
          have hlt := (scan_cut h).length_lt
          exact ih (by omega) (by omega)
        rw [lex_steps, lex_steps]
        rcases hs : scan c text with rest | ⟨token, rest⟩ | _
        · exact hrest (by rw [hs]; rfl)
        · exact congrArg (token :: ·) (hrest (by rw [hs]; rfl))
        · rfl

/-- The tokens of a text: what the first scan finds, and the tokens of the rest. -/
theorem lex_cons (c : Char) (text : List Char) :
    lex (c :: text) = match scan c text with
      | .skip rest => lex rest
      | .token token rest => token :: lex rest
      | .error => [.error] := by
  have hrest : ∀ {rest}, (scan c text).rest = some rest →
      lex_steps text.length rest = lex rest := fun h => by
    have hlt := (scan_cut h).length_lt
    rw [List.length_cons] at hlt
    exact lex_steps_eq (by omega) (Nat.le_refl _)
  unfold lex
  rw [List.length_cons, lex_steps]
  rcases hs : scan c text with rest | ⟨token, rest⟩ | _
  · exact hrest (by rw [hs]; rfl)
  · exact congrArg (token :: ·) (hrest (by rw [hs]; rfl))
  · rfl

theorem lex_skip {c : Char} (h : scan c text = .skip rest) : lex (c :: text) = lex rest := by
  rw [lex_cons, h]

theorem lex_token {c : Char} {token : Token} (h : scan c text = .token token rest) :
    lex (c :: text) = token :: lex rest := by
  rw [lex_cons, h]

theorem lex_error {c : Char} (h : scan c text = .error) : lex (c :: text) = [.error] := by
  rw [lex_cons, h]

/-- A text is read from its start: what holds of the empty text and of unreadable
ones, and of a text when it holds of the rest after its first scan, holds of all. -/
theorem lex_induction {P : List Char → Prop} (nil : P [])
    (skip : ∀ c text rest, scan c text = .skip rest → P rest → P (c :: text))
    (token : ∀ c text token rest, scan c text = .token token rest → P rest → P (c :: text))
    (error : ∀ c text, scan c text = .error → P (c :: text)) (text : List Char) : P text := by
  induction hn : text.length using Nat.strong_induction_on generalizing text with
  | _ n ih =>
    subst hn
    cases text with
    | nil => exact nil
    | cons c text =>
      rcases hs : scan c text with rest | ⟨t, rest⟩ | _
      · exact skip c text rest hs (ih _ (scan_cut (by rw [hs]; rfl)).length_lt rest rfl)
      · exact token c text t rest hs (ih _ (scan_cut (by rw [hs]; rfl)).length_lt rest rfl)
      · exact error c text hs

end

/-! ## Words -/

/-- A word stands in the text by itself: it does not go on to either side. -/
def Stands (w text : List Char) : Prop :=
  ∃ before after, text = before ++ w ++ after ∧
    (∀ c ∈ before.getLast?, ident_start c = false) ∧ ∀ d ∈ after.head?, ident_cont d = false

section

variable {c : Char} {text rest whole w : List Char}

/-- The token is neither a word nor unreadable. -/
def Token.marked : Token → Bool
  | word _ => false
  | error => false
  | _ => true

theorem string_marked {escapes : Bool} {opening : List Char} {t : Token}
    (h : string escapes opening text = .token t rest) : t.marked = true := by
  unfold string at h
  split at h
  · cases h
    rfl
  · cases h

theorem quoted_ident_marked {opening : List Char} {t : Token}
    (h : quoted_ident opening text = .token t rest) : t.marked = true := by
  unfold quoted_ident at h
  split at h
  · cases h
    rfl
  · cases h

theorem apart_marked {t t' : Token} (h : apart t' text = .token t rest)
    (ht : t'.marked = true) : t.marked = true := by
  unfold apart at h
  split at h
  · cases h
  · cases h
    exact ht

theorem dollar_marked {t : Token} (h : dollar text = .token t rest) : t.marked = true := by
  unfold dollar at h
  split at h
  · dsimp only at h
    split at h
    · cases h
      rfl
    · cases h
  · split at h
    · exact apart_marked h rfl
    · cases h
      rfl

/-- A word is the whole run of its characters, and no other token is a word or
unreadable. -/
theorem scan_token {t : Token} (h : scan c text = .token t rest) :
    t.marked = true ∨ ident_start c = true ∧ t = .word (c :: text.takeWhile ident_cont) ∧
      rest = text.dropWhile ident_cont := by
  have hs := at_start c text
  generalize scan c text = s at h hs
  cases hs with
  | string => exact Or.inl (string_marked h)
  | quoted => exact Or.inl (quoted_ident_marked h)
  | dollar => exact Or.inl (dollar_marked h)
  | letter hc hs =>
    cases hs with
    | string => exact Or.inl (string_marked h)
    | unicode => exact Or.inl (string_marked h)
    | quoted => exact Or.inl (quoted_ident_marked h)
    | word =>
      cases h
      exact Or.inr ⟨hc, rfl, rfl⟩
    | error => cases h
  | number => exact Or.inl (apart_marked h rfl)
  | operator =>
    cases h
    exact Or.inl rfl
  | special =>
    cases h
    exact Or.inl rfl
  | _ => cases h

theorem scan_not_error : scan c text ≠ .token .error rest := by
  intro h
  rcases scan_token h with hmarked | ⟨_, hword, _⟩
  · cases hmarked
  · cases hword

theorem Cut.of_suffix (h : Cut text rest) (hsuffix : text <:+ whole) : Cut whole rest := by
  obtain ⟨c, hc, hd⟩ := h
  exact ⟨c, hc.trans hsuffix, hd⟩

/-- In a text that is read from a cut on, each word stands by itself. -/
theorem stands_of_mem (hcut : whole = text ∨ Cut whole text) (hw : .word w ∈ lex text) :
    Stands w whole := by
  have hsuffix : text <:+ whole := by
    rcases hcut with rfl | hcut
    · exact List.suffix_refl _
    · exact hcut.suffix
  induction text using lex_induction with
  | nil => cases hw
  | skip c text rest hs ih =>
    have hrest : Cut whole rest := (scan_cut (by rw [hs]; rfl)).of_suffix hsuffix
    rw [lex_skip hs] at hw
    exact ih (Or.inr hrest) hw hrest.suffix
  | token c text token rest hs ih =>
    have hrest : Cut whole rest := (scan_cut (by rw [hs]; rfl)).of_suffix hsuffix
    rw [lex_token hs, List.mem_cons] at hw
    rcases hw with rfl | hw
    · -- the word at the start of the text
      obtain ⟨hc, hw, rfl⟩ := (scan_token hs).resolve_left Bool.false_ne_true
      cases hw
      obtain ⟨before, hbefore⟩ := hsuffix
      refine ⟨before, text.dropWhile ident_cont, ?_, fun d hd => ?_, fun d hd => head?_dropWhile hd⟩
      · rw [List.append_assoc, List.cons_append, List.takeWhile_append_dropWhile, hbefore]
      · rcases hcut with rfl | ⟨d', ⟨before', hwhole⟩, hd'⟩
        · have hnil : before = [] := by simpa using hbefore
          subst hnil
          cases hd
        · have hend : before = before' ++ [d'] := by
            rw [List.append_cons] at hwhole
            exact List.append_cancel_right (hbefore.trans hwhole.symm)
          rw [hend, List.getLast?_concat] at hd
          cases hd
          rcases hd' with hd' | hhead
          · exact hd'
          · rw [hhead c rfl] at hc
            cases hc
    · exact ih (Or.inr hrest) hw hrest.suffix
  | error c text hs =>
    rw [lex_error hs, List.mem_singleton] at hw
    cases hw

end

/-! ## Parts -/

/-- No word goes over the end of the text before. -/
def Apart (before rest : List Char) : Prop :=
  (∀ c ∈ before.getLast?, ident_start c = false) ∨ ∀ d ∈ rest.head?, ident_start d = false

/-- At most so many tokens and gaps, each with its text. -/
def part_steps : Nat → List Char → List (Option Token × List Char)
  | n + 1, c :: text => match scan c text with
    | .skip rest => (none, used (c :: text) rest) :: part_steps n rest
    | .token token rest => (some token, used (c :: text) rest) :: part_steps n rest
    | .error => [(some .error, c :: text)]
  | _, _ => []

/-- The tokens of a text and the gaps between them, each with the text that it is read
from. What cannot be read is one part. -/
def parts (text : List Char) : List (Option Token × List Char) := part_steps text.length text

section

variable {n : Nat} {text rest : List Char}

theorem Cut.used (h : Cut text rest) :
    text = used text rest ++ rest ∧ Apart (used text rest) rest := by
  obtain ⟨before, hbefore⟩ := h.suffix
  have hused : pg.used text rest = before := by
    rw [pg.used, ← hbefore, List.length_append, Nat.add_sub_cancel, List.take_left]
  rw [hused]
  refine ⟨hbefore.symm, ?_⟩
  obtain ⟨c, ⟨before', hbefore'⟩, hc⟩ := h
  have hend : before = before' ++ [c] := by
    rw [← hbefore', List.append_cons] at hbefore
    exact List.append_cancel_right hbefore
  refine hc.imp_left fun hc d hd => ?_
  rw [hend, List.getLast?_concat] at hd
  cases hd
  exact hc

theorem part_steps_tokens (hn : text.length ≤ n) :
    (part_steps n text).filterMap Prod.fst = lex text := by
  induction n generalizing text with
  | zero =>
    rw [List.length_eq_zero_iff.mp (Nat.le_zero.mp hn)]
    rfl
  | succ n ih =>
    cases text with
    | nil => rfl
    | cons c text =>
      have hlater : ∀ {rest}, Cut (c :: text) rest →
          (part_steps n rest).filterMap Prod.fst = lex rest := by
        intro rest hrest
        have hlt := hrest.length_lt
        exact ih (by omega)
      rw [part_steps, lex_cons]
      rcases hs : scan c text with rest | ⟨t, rest⟩ | _
      · exact hlater (scan_cut (by rw [hs]; rfl))
      · exact congrArg (t :: ·) (hlater (scan_cut (by rw [hs]; rfl)))
      · rfl

theorem parts_tokens (text : List Char) : (parts text).filterMap Prod.fst = lex text :=
  part_steps_tokens (Nat.le_refl _)

end

/-! ## Digits alone -/

theorem isDigit_iff {c : Char} : c.isDigit = true ↔ 48 ≤ c.toNat ∧ c.toNat ≤ 57 :=
  Bool.and_eq_true_iff.trans (and_congr decide_eq_true_iff decide_eq_true_iff)

section

variable {c : Char} {text : List Char}

theorem digits_all (h : ∀ c ∈ text, c.isDigit = true) : digits Char.isDigit text = [] := by
  induction text with
  | nil => rfl
  | cons c text ih =>
    rw [digits_cons (h c List.mem_cons_self), ih fun d hd => h d (List.mem_cons_of_mem c hd)]

theorem radix_digits (h : ∀ c ∈ text, c.isDigit = true) : radix text = none := by
  unfold radix
  split
  · rename_i x after
    have hx : x.isDigit = true := h x (by simp)
    have hnone : radix_digit x = none := by
      unfold radix_digit
      rw [if_neg, if_neg, if_neg] <;>
        · intro hmem
          simp only [List.mem_cons, List.not_mem_nil, or_false] at hmem
          rcases hmem with rfl | rfl <;> exact absurd hx (by decide)
    simp only [hnone]
  · rfl

theorem number_end_digits (h : ∀ c ∈ text, c.isDigit = true) : number_end text = [] := by
  rw [number_end, radix_digits h, Option.getD_none, digits_all h]
  rfl

theorem scan_digits (h : ∀ d ∈ c :: text, d.isDigit = true) :
    scan c text = .token (.number (c :: text)) [] := by
  have hdigit := h c List.mem_cons_self
  have hrange := isDigit_iff.mp hdigit
  have hne : ∀ {d : Char}, d.isDigit = false → c ≠ d := by
    rintro d hd rfl
    rw [hdigit] at hd
    cases hd
  have hspace : ¬ space c = true := by
    rw [space, Bool.or_eq_true, decide_eq_true_iff, decide_eq_true_iff]
    rintro (hc | hc)
    · exact hne (by decide) hc
    · omega
  have hstart : ¬ ident_start c = true := by
    simp only [ident_start, Bool.or_eq_true, decide_eq_true_iff, isAlpha_iff]
    rintro ((halpha | hscore) | hwide)
    · omega
    · exact hne (by decide) hscore
    · omega
  unfold scan
  rw [if_neg hspace, if_neg fun h => hne (by decide) h.1, if_neg fun h => hne (by decide) h.1,
    if_neg (hne (by decide)), if_neg (hne (by decide)), if_neg (hne (by decide)), if_neg hstart,
    if_pos (Or.inl hdigit)]
  simp [number_end_digits h, apart, used]

theorem lex_digits (h : ∀ c ∈ text, c.isDigit = true) (hne : text ≠ []) :
    lex text = [.number text] := by
  obtain ⟨c, text, rfl⟩ := List.exists_cons_of_ne_nil hne
  rw [lex_token (scan_digits h)]
  rfl

end

end pg
