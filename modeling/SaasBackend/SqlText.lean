-- What the patterns leave of an input: where its comments can be found by their
-- marks alone, the text without them, token for token.
import SaasBackend.PgPieces
import SaasBackend.SqlStatements

namespace saas

namespace AIUtils

/-! ## What the pattern for enum literals matches -/

/-- The texts that the pattern matches, without the quotes. -/
def enum_matches : Option (List Char) → List Char → List (List Char)
  | _, [] => []
  | none, c :: text =>
    if c = quote then enum_matches (some []) text else enum_matches none text
  | some val, c :: text =>
    if c ≠ quote then enum_matches (some (val ++ [c])) text
    else if val = [] then enum_matches (some []) text
    else val :: enum_matches none text

/-- No match is an enum value, so none is replaced. -/
theorem scan_literals_same {opened : Option (List Char)} {text : List Char}
    (h : ∀ val ∈ enum_matches opened text, ENUM_MAP.lookup (lower val) = none) :
    scan_literals opened text = opened.elim [] (quote :: ·) ++ text := by
  induction text generalizing opened with
  | nil =>
    cases opened with
    | none => rfl
    | some val => exact (List.append_nil _).symm
  | cons c text ih =>
    cases opened with
    | none =>
      rw [enum_matches] at h
      rw [scan_literals]
      split
      · rename_i hc
        rw [if_pos hc] at h
        rw [ih h, hc]
        rfl
      · rename_i hc
        rw [if_neg hc] at h
        rw [ih h]
        rfl
    | some val =>
      rw [enum_matches] at h
      rw [scan_literals]
      split
      · rename_i hc
        rw [if_pos hc] at h
        rw [ih h]
        simp
      · rename_i hc
        rw [if_neg hc] at h
        rw [not_not] at hc
        split
        · rename_i hval
          rw [if_pos hval] at h
          rw [ih h, hval, hc]
          rfl
        · rename_i hval
          rw [if_neg hval] at h
          have hsame : repl val = val := by
            rw [repl, h val List.mem_cons_self]
            rfl
          rw [ih fun v hv => h v (List.mem_cons_of_mem val hv), hsame, hc]
          simp

/-! ## What the patterns for comments leave -/

section

variable {part rest text body : List Char} {c d : Char} {pieces : List pg.Piece}

theorem drop_line_cons (hc : c ≠ '-' ∨ text.head? ≠ some '-') :
    drop_line_comments false (c :: text) = c :: drop_line_comments false text := by
  rw [drop_line_comments]
  rintro rest rfl rfl
  rcases hc with hc | hc
  · exact hc rfl
  · exact hc rfl

theorem drop_block_cons (hc : c ≠ '/' ∨ text.head? ≠ some '*') :
    drop_block_comments false (c :: text) = c :: drop_block_comments false text := by
  rw [drop_block_comments]
  rintro rest rfl rfl
  rcases hc with hc | hc
  · exact hc rfl
  · exact hc rfl

theorem drop_line_unmarked (h : pg.unmarked [pg.line_mark] part rest = true) :
    drop_line_comments false (part ++ rest) = part ++ drop_line_comments false rest := by
  induction part with
  | nil => rfl
  | cons c part ih =>
    rw [List.cons_append, drop_line_cons (pg.head?_ne h (.head _)), ih (pg.unmarked_cons.mp h).2]
    rfl

theorem drop_block_unmarked (h : pg.unmarked [pg.block_mark] part rest = true) :
    drop_block_comments false (part ++ rest) = part ++ drop_block_comments false rest := by
  induction part with
  | nil => rfl
  | cons c part ih =>
    rw [List.cons_append, drop_block_cons (pg.head?_ne h (.head _)), ih (pg.unmarked_cons.mp h).2]
    rfl

theorem drop_line_body (hbody : ∀ c ∈ body, c ≠ newline) :
    drop_line_comments true (body ++ rest) = drop_line_comments true rest := by
  induction body with
  | nil => rfl
  | cons c body ih =>
    rw [List.cons_append, drop_line_comments, if_neg (hbody c List.mem_cons_self)]
    exact ih fun d hd => hbody d (List.mem_cons_of_mem c hd)

theorem drop_line_rest (hrest : (rest.head?.all fun c => c = newline) = true) :
    drop_line_comments true rest = drop_line_comments false rest := by
  cases rest with
  | nil => rfl
  | cons c rest =>
    obtain rfl : c = newline := of_decide_eq_true hrest
    rw [drop_line_cons (Or.inl (by decide))]
    rfl

/-- Nothing but a line feed moves to the start of a text. -/
theorem head?_drop_line (h : (drop_line_comments false text).head? = some d)
    (hd : d ≠ newline) : text.head? = some d := by
  have hline : ∀ text, (drop_line_comments true text).head? ≠ some d := by
    intro text
    induction text with
    | nil => exact fun h => by cases h
    | cons c text ih =>
      rw [drop_line_comments]
      split
      · rename_i hc
        exact fun h => hd ((Option.some.inj h).symm.trans hc)
      · exact ih
  cases text with
  | nil => cases h
  | cons c text =>
    by_cases hc : c ≠ '-' ∨ text.head? ≠ some '-'
    · rw [drop_line_cons hc] at h
      exact h
    · rw [not_or, not_not, not_not] at hc
      obtain ⟨text, rfl⟩ := List.head?_eq_some_iff.mp hc.2
      rw [hc.1, drop_line_comments] at h
      exact absurd h (hline text)

theorem closes_body : closes (body ++ (pg.end_mark ++ rest)) = true := by
  induction body with
  | nil => rfl
  | cons c body ih =>
    rw [List.cons_append]
    unfold closes
    split
    · rfl
    · rename_i heq
      cases heq
      exact ih
    · rename_i heq
      cases heq

theorem drop_block_body (h : pg.unmarked [pg.end_mark] body (pg.end_mark ++ rest) = true) :
    drop_block_comments true (body ++ (pg.end_mark ++ rest)) = drop_block_comments false rest := by
  induction body with
  | nil => rfl
  | cons c body ih =>
    have hend := pg.head?_ne h (.head _)
    rw [List.cons_append, drop_block_comments]
    · exact ih (pg.unmarked_cons.mp h).2
    · exact fun text hc htext => hend.elim (· hc) (· (by rw [htext]; rfl))

/-- The patterns match the comments of a plain text and nothing else. -/
theorem drop_comments (h : pg.Plain pieces) : ∃ blanks, (∀ c ∈ blanks, pg.space c = true) ∧
    drop_block_comments false (drop_line_comments false (pg.written pieces)) =
      pg.kept pieces ++ blanks := by
  induction pieces with
  | nil => exact ⟨[], by simp, rfl⟩
  | cons piece pieces ih =>
    obtain ⟨hpiece, h⟩ := h
    obtain ⟨blanks, hblanks, ih⟩ := ih h
    rw [pg.written_cons]
    cases piece with
    | space c =>
      have hspace : pg.space c = true := hpiece
      have hdash : c ≠ '-' := by
        rintro rfl
        exact absurd hspace (by decide)
      have hslash : c ≠ '/' := by
        rintro rfl
        exact absurd hspace (by decide)
      rw [pg.Piece.text, List.singleton_append, drop_line_cons (Or.inl hdash),
        drop_block_cons (Or.inl hslash), ih, pg.kept]
      split
      · rename_i hnil
        exact ⟨c :: blanks, List.forall_mem_cons.mpr ⟨hspace, hblanks⟩, by rw [hnil]; rfl⟩
      · exact ⟨blanks, hblanks, rfl⟩
    | line body =>
      have hbody : ∀ c ∈ body, c ≠ newline := by
        rintro c hc rfl
        exact absurd (List.all_eq_true.mp hpiece.1 newline hc) (by decide)
      refine ⟨blanks, hblanks, ?_⟩
      rw [pg.Piece.text, List.append_assoc]
      change drop_block_comments false (drop_line_comments true (body ++ _)) = _
      rw [drop_line_body hbody, drop_line_rest hpiece.2, ih]
      rfl
    | block body =>
      have hmid : drop_line_comments false (pg.end_mark ++ pg.written pieces) =
          pg.end_mark ++ drop_line_comments false (pg.written pieces) := by
        rw [pg.end_mark, List.cons_append, List.cons_append, List.nil_append,
          drop_line_cons (Or.inl (by decide)), drop_line_cons (Or.inl (by decide))]
        rfl
      have hline := drop_line_unmarked (pg.unmarked.one hpiece (.head _))
      have hend : pg.unmarked [pg.end_mark] body
          (pg.end_mark ++ drop_line_comments false (pg.written pieces)) = true :=
        pg.unmarked.of_head (pg.unmarked.one hpiece (.tail _ (.tail _ (.head _)))) fun d hd _ => hd
      refine ⟨blanks, hblanks, ?_⟩
      rw [pg.Piece.text, List.append_assoc, List.append_assoc, pg.block_mark, List.cons_append,
        List.cons_append, List.nil_append, drop_line_cons (Or.inl (by decide)),
        drop_line_cons (Or.inl (by decide)), hline, hmid, drop_block_comments, if_pos closes_body,
        drop_block_body hend, ih]
      rfl
    | token t c part =>
      have hline := drop_line_unmarked (pg.unmarked.one hpiece.2.2 (.head _))
      have hblock : pg.unmarked [pg.block_mark] (c :: part)
          (drop_line_comments false (pg.written pieces)) = true := by
        have hsome := pg.unmarked.one hpiece.2.2 (.tail _ (.head _))
        exact pg.unmarked.of_head hsome fun d hd hstar =>
          head?_drop_line hd (by rw [hstar]; decide)
      refine ⟨blanks, hblanks, ?_⟩
      rw [pg.Piece.text, hline, drop_block_unmarked hblock, ih,
        ← List.append_assoc]
      rfl

/-! ## White space -/

theorem space_isspace (h : pg.space c = true) : isspace c = true := by
  unfold pg.space at h
  unfold isspace
  rw [Bool.or_eq_true, decide_eq_true_iff, decide_eq_true_iff] at h
  rw [Bool.or_assoc, Bool.or_eq_true, Bool.or_eq_true, decide_eq_true_iff, decide_eq_true_iff]
  refine Or.inl ?_
  rcases h with rfl | h
  · exact Or.inr (by decide)
  · exact Or.inl h

theorem dropWhile_isspace (hbefore : ∀ c ∈ body, isspace c = true)
    (hstart : ∀ c ∈ text.head?, isspace c = false) : (body ++ text).dropWhile isspace = text := by
  rw [List.dropWhile_append_of_pos hbefore]
  cases text with
  | nil => rfl
  | cons c text =>
    have hc : isspace c = false := hstart c rfl
    exact List.dropWhile_cons_of_neg (by rw [hc]; exact Bool.false_ne_true)

theorem prefix_strip (text : List Char) : strip text <+: text.dropWhile isspace := by
  have hsuffix := List.dropWhile_suffix (l := (text.dropWhile isspace).reverse) isspace
  have hreverse := List.reverse_prefix.mpr hsuffix
  rwa [List.reverse_reverse] at hreverse

/-- `strip` takes the white space at both ends, and no more than that. -/
theorem strip_eq {before after : List Char} (hbefore : ∀ c ∈ before, isspace c = true)
    (hafter : ∀ c ∈ after, isspace c = true) (hstart : ∀ c ∈ text.head?, isspace c = false)
    (hend : ∀ c ∈ text.getLast?, isspace c = false) : strip (before ++ text ++ after) = text := by
  have hreverse : ∀ c ∈ text.reverse.head?, isspace c = false := by
    rw [List.head?_reverse]
    exact hend
  have hlast : ∀ c ∈ after.reverse, isspace c = true := fun c hc =>
    hafter c (List.mem_reverse.mp hc)
  unfold strip
  cases text with
  | nil =>
    have hall : ∀ c ∈ before ++ [] ++ after, isspace c = true := by
      intro c hc
      rw [List.append_nil, List.mem_append] at hc
      exact hc.elim (hbefore c) (hafter c)
    rw [List.dropWhile_eq_nil_iff.mpr hall]
    rfl
  | cons c text =>
    have hfirst : (before ++ (c :: text ++ after)).dropWhile isspace = c :: text ++ after :=
      dropWhile_isspace hbefore hstart
    rw [List.append_assoc, hfirst, List.reverse_append, dropWhile_isspace hlast hreverse,
      List.reverse_reverse]

end

/-! ## Clear inputs -/

/-- The patterns and the database see the same comments in the input, and no token
starts or ends the text with what is white space to `strip` only. -/
structure CommentsAlike (raw : String) (pieces : List pg.Piece) : Prop where
  text : pg.written pieces = raw.toList
  plain : pg.Plain pieces
  starts : (((pg.kept pieces).dropWhile pg.space).head?.all fun c => !isspace c) = true
  ends : ((pg.kept pieces).getLast?.all fun c => !isspace c) = true

/-- Nothing that the pattern for enum literals matches is an enum value either. -/
structure Clear (raw : String) (pieces : List pg.Piece) : Prop extends
    CommentsAlike raw pieces where
  enums : ∀ val ∈ enum_matches none raw.toList, ENUM_MAP.lookup (lower val) = none

section

variable {raw : String} {pieces : List pg.Piece}

theorem CommentsAlike.first (h : CommentsAlike raw pieces) :
    ∀ c ∈ ((pg.kept pieces).dropWhile pg.space).head?, isspace c = false :=
  fun c hc => Bool.not_eq_true' _ |>.mp (Option.all_eq_true .. |>.mp h.starts c hc)

theorem CommentsAlike.last (h : CommentsAlike raw pieces) :
    ∀ c ∈ ((pg.kept pieces).dropWhile pg.space).getLast?, isspace c = false := by
  intro c hc
  refine Bool.not_eq_true' _ |>.mp (Option.all_eq_true .. |>.mp h.ends c ?_)
  obtain ⟨before, hbefore⟩ := List.dropWhile_suffix (l := pg.kept pieces) pg.space
  rw [← hbefore, List.getLast?_append, Option.mem_def.mp hc]
  rfl

/-- What is left of the input is its text without the comments. -/
theorem CommentsAlike.normalize (h : CommentsAlike raw pieces) :
    normalize_sql raw.toList = (pg.kept pieces).dropWhile pg.space := by
  obtain ⟨blanks, hblanks, hdrop⟩ := drop_comments h.plain
  have hsplit : pg.kept pieces ++ blanks = (pg.kept pieces).takeWhile pg.space ++
      (pg.kept pieces).dropWhile pg.space ++ blanks := by
    rw [List.takeWhile_append_dropWhile]
  unfold normalize_sql
  rw [← h.text, hdrop, hsplit]
  exact strip_eq (fun c hc => space_isspace (List.mem_takeWhile_imp hc))
    (fun c hc => space_isspace (hblanks c hc)) h.first h.last

/-- What is left has the tokens of the input. -/
theorem CommentsAlike.lex (h : CommentsAlike raw pieces) :
    pg.lex (normalize_sql raw.toList) = pg.lex raw.toList := by
  rw [h.normalize, ← h.text, pg.lex_written h.plain, ← pg.lex_kept h.plain, pg.lex_dropWhile_space]

theorem Clear.checked_eq (h : Clear raw pieces) : checked raw = normalize_sql raw.toList := by
  have henums := scan_literals_same h.enums
  rw [Option.elim_none, List.nil_append] at henums
  rw [AIUtils.checked, normalize_enum_literals, henums]

theorem Clear.checked (h : Clear raw pieces) :
    checked raw = (pg.kept pieces).dropWhile pg.space := by
  rw [h.checked_eq, h.normalize]

/-- The checked text has the tokens of the input. -/
theorem Clear.lex (h : Clear raw pieces) : pg.lex (AIUtils.checked raw) = pg.lex raw.toList := by
  rw [h.checked_eq, h.toCommentsAlike.lex]

end

end AIUtils

end saas
