-- Texts piece by piece: white space, comments and tokens. In a plain text each
-- comment can be found by its marks alone, and the text without its comments has
-- the same tokens.
import SaasBackend.PgTokens

namespace pg

/-! ## Pieces -/

def line_mark : List Char := ['-', '-']

def block_mark : List Char := ['/', '*']

def end_mark : List Char := ['*', '/']

inductive Piece where
  | space (c : Char)
  | line (body : List Char)
  | block (body : List Char)
  /-- A token and the text that it is read from. -/
  | token (token : Token) (c : Char) (part : List Char)
deriving DecidableEq, Repr

def Piece.text : Piece → List Char
  | space c => [c]
  | line body => line_mark ++ body
  | block body => block_mark ++ body ++ end_mark
  | token _ c part => c :: part

def written (pieces : List Piece) : List Char := pieces.flatMap Piece.text

/-- The text without comments, and without white space at its end. -/
def kept : List Piece → List Char
  | [] => []
  | .space c :: pieces => if kept pieces = [] then [] else c :: kept pieces
  | .token _ c part :: pieces => c :: (part ++ kept pieces)
  | _ :: pieces => kept pieces

def Piece.token? : Piece → Option Token
  | token t _ _ => some t
  | _ => none

/-- None of the marks starts in the part before `rest`. -/
def unmarked (marks : List (List Char)) : List Char → List Char → Bool
  | [], _ => true
  | c :: part, rest =>
    !(marks.any fun mark => mark.isPrefixOf (c :: (part ++ rest))) && unmarked marks part rest

/-- A line comment ends with a line feed or the text, a block comment has no mark
in it, and neither has a token, which is read the same without the comments after
it. -/
def Piece.Fits (after : List Piece) : Piece → Prop
  | space c => pg.space c = true
  | line body => (body.all fun c => !newline c) = true ∧
    ((written after).head?.all fun c => c = Char.ofNat 10) = true
  | block body =>
    unmarked [line_mark, block_mark, end_mark] body (end_mark ++ written after) = true
  | token t c part => scan c (part ++ written after) = .token t (written after) ∧
    scan c (part ++ kept after) = .token t (kept after) ∧
    unmarked [line_mark, block_mark] (c :: part) (written after) = true

instance (after : List Piece) : (piece : Piece) → Decidable (piece.Fits after)
  | .space c => inferInstanceAs (Decidable (pg.space c = true))
  | .line _ => inferInstanceAs (Decidable (_ ∧ _))
  | .block _ => inferInstanceAs (Decidable (_ = true))
  | .token _ _ _ => inferInstanceAs (Decidable (_ ∧ _ ∧ _))

def Plain : List Piece → Prop
  | [] => True
  | piece :: pieces => piece.Fits pieces ∧ Plain pieces

instance : (pieces : List Piece) → Decidable (Plain pieces)
  | [] => .isTrue trivial
  | piece :: pieces =>
    have := instDecidablePlain pieces
    inferInstanceAs (Decidable (piece.Fits pieces ∧ Plain pieces))

section

variable {marks : List (List Char)} {part rest rest' text body : List Char} {c : Char}
variable {pieces : List Piece}

theorem written_cons (piece : Piece) (pieces : List Piece) :
    written (piece :: pieces) = piece.text ++ written pieces :=
  List.flatMap_cons

/-! ## Marks -/

theorem unmarked_cons : unmarked marks (c :: part) rest = true ↔
    (∀ mark ∈ marks, ¬ mark <+: c :: (part ++ rest)) ∧ unmarked marks part rest = true := by
  rw [unmarked, Bool.and_eq_true, Bool.not_eq_true', List.any_eq_false]
  simp only [List.isPrefixOf_iff_prefix]

theorem unmarked.one {mark : List Char} (h : unmarked marks part rest = true)
    (hmark : mark ∈ marks) : unmarked [mark] part rest = true := by
  induction part with
  | nil => rfl
  | cons c part ih =>
    rw [unmarked_cons] at h ⊢
    exact ⟨List.forall_mem_singleton.mpr (h.1 mark hmark), ih h.2⟩

/-- The first two characters are not the mark. -/
theorem head?_ne {a b : Char} (h : unmarked marks (c :: part) rest = true)
    (hmark : [a, b] ∈ marks) : c ≠ a ∨ (part ++ rest).head? ≠ some b := by
  by_cases hc : c = a
  · refine Or.inr fun hhead => (unmarked_cons.mp h).1 [a, b] hmark ?_
    obtain ⟨text, htext⟩ := List.head?_eq_some_iff.mp hhead
    rw [hc, htext]
    exact ⟨text, rfl⟩
  · exact Or.inl hc

/-- Only the first character behind the part matters, and a line feed starts no
mark. -/
theorem unmarked.of_head {a b : Char} (h : unmarked [[a, b]] part rest = true)
    (hhead : ∀ d ∈ rest'.head?, d = b → rest.head? = some d) :
    unmarked [[a, b]] part rest' = true := by
  induction part with
  | nil => rfl
  | cons c part ih =>
    rw [unmarked_cons] at h ⊢
    refine ⟨?_, ih h.2⟩
    rintro mark hm ⟨after, hafter⟩
    obtain rfl := List.mem_singleton.mp hm
    refine h.1 _ hm ?_
    cases part with
    | cons d part =>
      cases hafter
      exact ⟨part ++ rest, rfl⟩
    | nil =>
      obtain ⟨rfl, hrest⟩ := List.cons.inj hafter
      change [b] ++ after = rest' at hrest
      have hb := hhead b (by rw [← hrest]; rfl) rfl
      cases rest with
      | nil => cases hb
      | cons d rest =>
        cases hb
        exact ⟨rest, rfl⟩

/-! ## Tokens -/

/-- A comment without a mark in it ends at the first end mark. -/
theorem comment_end_unmarked
    (h : unmarked [line_mark, block_mark, end_mark] body (end_mark ++ rest) = true) :
    comment_end 0 (body ++ (end_mark ++ rest)) = some rest := by
  induction body with
  | nil => rfl
  | cons c body ih =>
    have hblock := head?_ne h (.tail _ (.head _))
    have hend := head?_ne h (.tail _ (.tail _ (.head _)))
    rw [List.cons_append, comment_end]
    · exact ih (unmarked_cons.mp h).2
    · exact fun text hc htext => hblock.elim (· hc) (· (by rw [htext]; rfl))
    · exact fun text _ hc htext => hend.elim (· hc) (· (by rw [htext]; rfl))
    · exact fun depth text hdepth => by cases hdepth

theorem scan_space (h : space c = true) : scan c text = .skip text := by
  rw [scan, if_pos h]

theorem lex_dropWhile_space (text : List Char) : lex (text.dropWhile space) = lex text := by
  induction text with
  | nil => rfl
  | cons c text ih =>
    by_cases hc : space c = true
    · rw [List.dropWhile_cons_of_pos hc, ih, lex_skip (scan_space hc)]
    · rw [List.dropWhile_cons_of_neg hc]

theorem scan_line (hbody : (body.all fun c => !newline c) = true)
    (hend : (text.head?.all fun c => c = Char.ofNat 10) = true) :
    scan '-' ('-' :: (body ++ text)) = .skip text := by
  have hrest : ('-' :: (body ++ text)).dropWhile (fun c => !newline c) = text := by
    rw [List.dropWhile_cons_of_pos (by decide), List.dropWhile_append_of_pos]
    · cases text with
      | nil => rfl
      | cons d text =>
        obtain rfl : d = Char.ofNat 10 := of_decide_eq_true hend
        exact List.dropWhile_cons_of_neg (by decide)
    · exact List.all_eq_true.mp hbody
  rw [scan, if_neg (by decide), if_pos ⟨rfl, rfl⟩, hrest]

theorem scan_block
    (h : unmarked [line_mark, block_mark, end_mark] body (end_mark ++ text) = true) :
    scan '/' ('*' :: (body ++ (end_mark ++ text))) = .skip text := by
  have hnot : ¬ ('/' = '-' ∧ ('*' :: (body ++ (end_mark ++ text))).head? = some '-') :=
    fun hline => absurd hline.1 (by decide)
  rw [scan, if_neg (by decide), if_neg hnot, if_pos ⟨rfl, rfl⟩, List.tail_cons,
    comment_end_unmarked h]

theorem lex_written (h : Plain pieces) : lex (written pieces) = pieces.filterMap Piece.token? := by
  induction pieces with
  | nil => rfl
  | cons piece pieces ih =>
    obtain ⟨hpiece, h⟩ := h
    rw [written_cons]
    cases piece with
    | space c => exact (lex_skip (scan_space hpiece)).trans (ih h)
    | line body => exact (lex_skip (scan_line hpiece.1 hpiece.2)).trans (ih h)
    | block body =>
      have hskip := lex_skip (scan_block hpiece)
      rw [Piece.text, List.append_assoc, List.append_assoc]
      exact hskip.trans (ih h)
    | token t c part =>
      have htoken := lex_token hpiece.1
      rw [ih h] at htoken
      exact htoken

/-- Without its comments a plain text has the same tokens. -/
theorem lex_kept (h : Plain pieces) : lex (kept pieces) = pieces.filterMap Piece.token? := by
  induction pieces with
  | nil => rfl
  | cons piece pieces ih =>
    obtain ⟨hpiece, h⟩ := h
    cases piece with
    | space c =>
      rw [kept]
      split
      · rename_i hnil
        rw [← hnil]
        exact ih h
      · rw [lex_skip (scan_space hpiece)]
        exact ih h
    | line body => exact ih h
    | block body => exact ih h
    | token t c part =>
      rw [kept, lex_token hpiece.2.1, ih h]
      rfl

theorem Plain.scan {t : Token} (h : Plain pieces) (hmem : .token t c part ∈ pieces) :
    ∃ rest, scan c (part ++ rest) = .token t rest := by
  induction pieces with
  | nil => cases hmem
  | cons piece pieces ih =>
    rcases List.mem_cons.mp hmem with rfl | hmem
    · exact ⟨_, h.1.1⟩
    · exact ih h.2 hmem

theorem mem_lex_written {t : Token} (h : Plain pieces) :
    t ∈ lex (written pieces) ↔ ∃ c part, .token t c part ∈ pieces := by
  rw [lex_written h, List.mem_filterMap]
  constructor
  · rintro ⟨piece, hmem, hpiece⟩
    cases piece with
    | token t' c part =>
      cases hpiece
      exact ⟨c, part, hmem⟩
    | _ => cases hpiece
  · rintro ⟨c, part, hmem⟩
    exact ⟨_, hmem, rfl⟩

/-- What is kept starts with a token, behind white space. -/
theorem kept_starts (h : Plain pieces) : (kept pieces).dropWhile space = [] ∨
    ∃ c text t rest, (kept pieces).dropWhile space = c :: text ∧ scan c text = .token t rest := by
  induction pieces with
  | nil => exact Or.inl rfl
  | cons piece pieces ih =>
    obtain ⟨hpiece, h⟩ := h
    cases piece with
    | space c =>
      rw [kept]
      split
      · exact Or.inl rfl
      · rw [List.dropWhile_cons_of_pos hpiece]
        exact ih h
    | line body => exact ih h
    | block body => exact ih h
    | token t c part =>
      have hspace : ¬ space c = true := by
        intro hc
        have hscan := hpiece.1
        rw [scan_space hc] at hscan
        cases hscan
      exact Or.inr ⟨c, _, t, _, List.dropWhile_cons_of_neg hspace, hpiece.2.1⟩

/-! ## How tokens are written -/

/-- The content of an identifier in double quotes, as it is written. -/
def doubled (content : List Char) : List Char :=
  content.flatMap fun c => if c = dquote then [c, c] else [c]

theorem doubled_cons (c : Char) (content : List Char) :
    doubled (c :: content) = (if c = dquote then [c, c] else [c]) ++ doubled content :=
  List.flatMap_cons

/-- Only a literal can be written in several ways. -/
def Token.text? : Token → Option (List Char)
  | word text => some text
  | quoted opening content => some (opening ++ doubled content ++ [dquote])
  | number text => some text
  | param digits => some ('$' :: digits)
  | symbol text => some text
  | _ => none

theorem quoted_end_text {content content' : List Char}
    (h : quoted_end content text = some (content', rest)) :
    ∃ after, content' = content ++ after ∧ text = doubled after ++ dquote :: rest := by
  fun_induction quoted_end content text with
  | case1 => cases h
  | case2 content =>
    cases h
    exact ⟨[], (List.append_nil _).symm, rfl⟩
  | case3 => cases h
  | case4 content c d text hc ih =>
    obtain ⟨after, rfl, htext⟩ := ih h
    refine ⟨c :: after, by rw [List.append_assoc]; rfl, ?_⟩
    rw [htext, doubled_cons, if_neg hc]
    rfl
  | case5 content c text hc ih =>
    obtain ⟨after, rfl, htext⟩ := ih h
    rw [not_not] at hc
    refine ⟨c :: after, by rw [List.append_assoc]; rfl, ?_⟩
    rw [htext, hc, doubled_cons, if_pos rfl]
    rfl
  | case6 content c d text hc hd =>
    cases h
    rw [not_not] at hc
    exact ⟨[], (List.append_nil _).symm, by rw [hc]; rfl⟩

theorem quoted_ident_text {opening : List Char} {t : Token}
    (h : quoted_ident opening text = .token t rest) :
    ∀ w ∈ t.text?, opening ++ text = w ++ rest := by
  unfold quoted_ident at h
  split at h
  · rename_i c content rest' hend
    obtain ⟨after, hafter, htext⟩ := quoted_end_text hend
    cases h
    rw [List.nil_append] at hafter
    intro w hw
    cases hw
    rw [htext, hafter, List.append_assoc, List.append_assoc]
    rfl
  · cases h

theorem string_text {escapes : Bool} {opening : List Char} {t : Token}
    (h : string escapes opening text = .token t rest) (w : List Char) : w ∉ t.text? := by
  unfold string at h
  split at h
  · cases h
    exact fun hw => by cases hw
  · cases h

theorem apart_text {t t' : Token} (h : apart t' text = .token t rest) : t = t' ∧ rest = text := by
  unfold apart at h
  split at h
  · cases h
  · cases h
    exact ⟨rfl, rfl⟩

theorem dollar_text {t : Token} (h : dollar text = .token t rest) :
    ∀ w ∈ t.text?, '$' :: text = w ++ rest := by
  unfold dollar at h
  split at h
  · dsimp only at h
    split at h
    · cases h
      exact fun w hw => by cases hw
    · cases h
  · split at h
    · obtain ⟨rfl, rfl⟩ := apart_text h
      intro w hw
      cases hw
      rw [List.cons_append, List.takeWhile_append_dropWhile]
    · cases h
      intro w hw
      cases hw
      rfl

theorem used_self (h : rest <:+ text) : used text rest ++ rest = text := by
  obtain ⟨before, rfl⟩ := h
  rw [used, List.length_append, Nat.add_sub_cancel, List.take_left]

theorem drop_self (h : part <+: text) : part ++ text.drop part.length = text := by
  obtain ⟨after, rfl⟩ := h
  rw [List.drop_left]

/-- What a scan takes for a token is how the token is written. -/
theorem scan_text {t : Token} (h : scan c text = .token t rest) :
    ∀ w ∈ t.text?, c :: text = w ++ rest := by
  have hs := at_start c text
  generalize scan c text = s at h hs
  cases hs with
  | string => exact fun w hw => absurd hw (string_text h w)
  | quoted => exact quoted_ident_text h
  | dollar hc => exact hc ▸ dollar_text h
  | letter _ hs =>
    cases hs with
    | string => exact fun w hw => absurd hw (string_text h w)
    | unicode => exact fun w hw => absurd hw (string_text h w)
    | quoted => exact quoted_ident_text h
    | word =>
      cases h
      intro w hw
      cases hw
      rw [List.cons_append, List.takeWhile_append_dropWhile]
    | error => cases h
  | number _ hc =>
    obtain ⟨rfl, rfl⟩ := apart_text h
    intro w hw
    cases hw
    exact (used_self (suffix_later (number_end_suffix hc))).symm
  | operator =>
    cases h
    intro w hw
    cases hw
    exact (drop_self ((operator_starts _).trans (List.takeWhile_prefix _))).symm
  | special =>
    cases h
    intro w hw
    cases hw
    exact (drop_self (special_starts c text)).symm
  | _ => cases h

/-- A token that is no literal takes the same text wherever it is read. -/
theorem scan_text_unique {t : Token} {c' : Char} {part' : List Char} (hliteral : t.text?.isSome)
    (h : scan c (part ++ rest) = .token t rest)
    (h' : scan c' (part' ++ rest') = .token t rest') : c :: part = c' :: part' := by
  obtain ⟨w, hw⟩ := Option.isSome_iff_exists.mp hliteral
  have hpart := scan_text h w hw
  have hpart' := scan_text h' w hw
  rw [← List.cons_append] at hpart hpart'
  exact (List.append_cancel_right hpart).trans (List.append_cancel_right hpart').symm

/-- Where a letter does not open a literal or an identifier in quotes, it is in a
word. -/
theorem scan_marked {t : Token} (h : scan c text = .token t rest) (ht : t.marked = true) :
    ident_start c = false ∨ c ∈ opening_letters := by
  have hs := at_start c text
  generalize scan c text = s at h hs
  cases hs with
  | string hc => exact Or.inl (by rw [hc]; decide)
  | quoted hc => exact Or.inl (by rw [hc]; decide)
  | dollar hc => exact Or.inl (by rw [hc]; decide)
  | letter _ hs =>
    cases hs with
    | string _ _ _ hc => exact Or.inr hc
    | unicode _ _ _ hc => exact Or.inr hc
    | quoted _ _ _ hc => exact Or.inr hc
    | word =>
      cases h
      cases ht
    | error => cases h
  | number hident => exact Or.inl hident
  | operator hc => exact Or.inl (op_char_not_ident hc)
  | special hident => exact Or.inl hident
  | _ => cases h

end

/-! ## Literals -/

/-- The token without the content of a literal. -/
def Token.shape : Token → Token
  | literal opening _ => literal opening []
  | token => token

def Token.content? : Token → Option (List Char)
  | literal _ content => some content
  | _ => none

/-- The contents of the literals of a text. -/
def literals (text : List Char) : List (List Char) := (lex text).filterMap Token.content?

/-- The same tokens, except for the contents of literals. -/
def SameTokens (text text' : List Char) : Prop :=
  (lex text).map Token.shape = (lex text').map Token.shape

instance (text text' : List Char) : Decidable (SameTokens text text') :=
  inferInstanceAs (Decidable (_ = _))

theorem shape_text? (t : Token) : t.shape.text? = t.text? := by
  cases t <;> rfl

theorem shape_of_text {t : Token} (h : t.text?.isSome) : t.shape = t := by
  cases t with
  | literal => cases h
  | _ => rfl

theorem shape_inj {t t' : Token} (h : t.shape = t'.shape) (ht : t.text?.isSome) : t' = t := by
  have ht' : t'.text?.isSome := by rw [← shape_text?, ← h, shape_text?]; exact ht
  rw [shape_of_text ht, shape_of_text ht'] at h
  exact h.symm

end pg
