-- What the removal of comments leaves: where a comment stood between two dashes, or
-- between a slash and a star, the text has a new mark of a comment.
import SaasBackend.SqlText

namespace saas

namespace AIUtils

/-- Neither the mark of a line comment nor a block comment that is closed. -/
structure Uncommented (text : List Char) : Prop where
  line : ∀ before after, text ≠ before ++ '-' :: '-' :: after
  block : ∀ before after, text = before ++ '/' :: '*' :: after → closes after = false

/-- A block comment that is open here is closed, outside of the line comments. -/
def closes_outside : Bool → List Char → Bool
  | _, [] => false
  | true, c :: text =>
    if c = newline then closes_outside false text else closes_outside true text
  | false, '*' :: '/' :: _ => true
  | false, '-' :: '-' :: text => closes_outside true text
  | false, _ :: text => closes_outside false text

/-- The characters outside of comments, with a `none` for each block comment. A line
comment is one in a block comment too, and ends before the newline. -/
def read_comments : Bool → Bool → List Char → List (Option Char)
  | _, _, [] => []
  | true, block, c :: text =>
    if c ≠ newline then read_comments true block text
    else if block then read_comments false true text
    else some c :: read_comments false false text
  | false, block, '-' :: '-' :: text => read_comments true block text
  | false, true, '*' :: '/' :: text => read_comments false false text
  | false, true, _ :: text => read_comments false true text
  | false, false, '/' :: '*' :: text =>
    if closes_outside false text then none :: read_comments false true text
    else some '/' :: some '*' :: read_comments false false text
  | false, false, c :: text => some c :: read_comments false false text

/-- Comments right after one character and right before another one. -/
def Between (marks : List (Option Char)) (c d : Char) (before after : List (Option Char)) : Prop :=
  ∃ n, marks = before ++ some c :: (List.replicate (n + 1) none ++ some d :: after)

/-- No comment stands between two dashes, and none stands between a slash and a star
with the end of a comment somewhere after them. -/
structure CommentsApart (marks : List (Option Char)) : Prop where
  dashes : ∀ before after, ¬ Between marks '-' '-' before after
  marks : ∀ before after, Between marks '/' '*' before after →
    closes (after.filterMap id) = false

/-- The characters that `drop_block_comments` keeps, with a `none` for each comment. -/
def read_blocks : Bool → List Char → List (Option Char)
  | true, '*' :: '/' :: text => read_blocks false text
  | true, _ :: text => read_blocks true text
  | false, '/' :: '*' :: text =>
    if closes text then none :: read_blocks true text
    else some '/' :: some '*' :: read_blocks false text
  | false, c :: text => some c :: read_blocks false text
  | _, [] => []

section

variable {text before after rest : List Char} {a b c d : Char} {m : Bool}
  {marks : List (Option Char)}

/-! ## Neighbours -/

/-- Two elements that come together are apart by removed ones only. -/
theorem filterMap_id_eq {xs ys : List Char} : marks.filterMap id = xs ++ a :: b :: ys ↔
    ∃ before n after, marks = before ++ some a :: (List.replicate n none ++ some b :: after) ∧
      before.filterMap id = xs ∧ after.filterMap id = ys := by
  constructor
  · intro h
    obtain ⟨before, rest, rfl, hbefore, hrest⟩ := List.filterMap_eq_append_iff.mp h
    obtain ⟨gap, x, rest, rfl, hgap, hx, hrest⟩ := List.filterMap_eq_cons_iff.mp hrest
    obtain ⟨gap', y, after, rfl, hgap', hy, hafter⟩ := List.filterMap_eq_cons_iff.mp hrest
    obtain rfl : x = some a := hx
    obtain rfl : y = some b := hy
    refine ⟨before ++ gap, gap'.length, after, ?_, ?_, hafter⟩
    · rw [← List.eq_replicate_of_mem (a := none) hgap', List.append_assoc]
    · rw [List.filterMap_append, hbefore, List.filterMap_eq_nil_iff.mpr hgap, List.append_nil]
  · rintro ⟨before, n, after, rfl, rfl, rfl⟩
    simp

theorem drop_block_eq (m : Bool) (text : List Char) :
    drop_block_comments m text = (read_blocks m text).filterMap id := by
  fun_induction drop_block_comments m text with
  | case1 text ih => exact ih
  | case2 c text hmark ih =>
    rw [read_blocks, ih]
    exact hmark
  | case3 text hcloses ih =>
    rw [read_blocks, if_pos hcloses, ih]
    rfl
  | case4 text hcloses ih =>
    rw [read_blocks, if_neg hcloses, ih]
    rfl
  | case5 c text hmark ih =>
    rw [read_blocks, ih]
    · rfl
    · exact hmark
  | case6 m => cases m <;> rfl

/-! ## Line comments -/

theorem no_pair_cons {α : Type} {x y z : α} {l : List α} :
    (∀ before after, z :: l ≠ before ++ x :: y :: after) ↔
      ¬ (z = x ∧ l.head? = some y) ∧ ∀ before after, l ≠ before ++ x :: y :: after := by
  constructor
  · intro h
    refine ⟨?_, fun before after hl => h (z :: before) after (by rw [hl]; rfl)⟩
    rintro ⟨rfl, hy⟩
    obtain ⟨after, rfl⟩ := List.head?_eq_some_iff.mp hy
    exact h [] after rfl
  · rintro ⟨hhead, hl⟩ before after heq
    cases before with
    | nil =>
      obtain ⟨rfl, rfl⟩ := List.cons.inj heq
      exact hhead ⟨rfl, rfl⟩
    | cons e before =>
      obtain ⟨rfl, htail⟩ := List.cons.inj heq
      exact hl before after htail

/-- The first pattern leaves no two dashes next to each other. -/
theorem drop_line_no_dashes (m : Bool) (text : List Char) :
    ∀ before after, drop_line_comments m text ≠ before ++ '-' :: '-' :: after := by
  fun_induction drop_line_comments m text with
  | case1 => simp
  | case2 text ih => exact no_pair_cons.mpr ⟨fun h => absurd h.1 (by decide), ih⟩
  | case3 c text hc ih => exact ih
  | case4 text ih => exact ih
  | case5 c text hmark ih =>
    refine no_pair_cons.mpr ⟨?_, ih⟩
    rintro ⟨rfl, hhead⟩
    obtain ⟨rest, rfl⟩ := List.head?_eq_some_iff.mp (head?_drop_line hhead (by decide))
    exact hmark rest rfl rfl

/-! ## Block comments -/

theorem read_blocks_cons (hc : c ≠ '/' ∨ text.head? ≠ some '*') :
    read_blocks false (c :: text) = some c :: read_blocks false text := by
  rw [read_blocks]
  rintro rest rfl rfl
  exact hc.elim (· rfl) (· rfl)

theorem head?_read_blocks (h : (read_blocks false text).head? = some (some d)) :
    text.head? = some d := by
  cases text with
  | nil => cases h
  | cons c text =>
    by_cases hmark : c ≠ '/' ∨ text.head? ≠ some '*'
    · rw [read_blocks_cons hmark] at h
      exact Option.some.inj h
    · rw [not_or, not_not, not_not] at hmark
      obtain ⟨text, rfl⟩ := List.head?_eq_some_iff.mp hmark.2
      rw [hmark.1, read_blocks] at h
      split at h
      · cases h
      · rw [hmark.1]
        exact Option.some.inj h

/-- Dashes that are next to each other after the second pattern were so before. -/
theorem read_blocks_no_dashes (h : ∀ before after, text ≠ before ++ '-' :: '-' :: after) :
    ∀ before after, read_blocks m text ≠ before ++ some '-' :: some '-' :: after := by
  fun_induction read_blocks m text with
  | case1 text ih =>
    rw [no_pair_cons, no_pair_cons] at h
    exact ih h.2.2
  | case2 c text hmark ih => exact ih (no_pair_cons.mp h).2
  | case3 text hcloses ih =>
    rw [no_pair_cons, no_pair_cons] at h
    exact no_pair_cons.mpr ⟨by simp, ih h.2.2⟩
  | case4 text hcloses ih =>
    rw [no_pair_cons, no_pair_cons] at h
    exact no_pair_cons.mpr ⟨by simp, no_pair_cons.mpr ⟨by simp, ih h.2.2⟩⟩
  | case5 c text hmark ih =>
    obtain ⟨hhead, h⟩ := no_pair_cons.mp h
    refine no_pair_cons.mpr ⟨?_, ih h⟩
    rintro ⟨hc, hdash⟩
    exact hhead ⟨Option.some.inj hc, head?_read_blocks hdash⟩
  | case6 => simp

theorem closes_cons (h : closes (c :: text) = false) : closes text = false := by
  unfold closes at h
  split at h
  · cases h
  · rename_i heq
    cases heq
    exact h
  · rename_i heq
    cases heq

/-- Where no comment ends, none is dropped. -/
theorem drop_block_open (h : closes text = false) : drop_block_comments false text = text := by
  induction text with
  | nil => rfl
  | cons c text ih =>
    have hrest := ih (closes_cons h)
    by_cases hmark : c ≠ '/' ∨ text.head? ≠ some '*'
    · rw [drop_block_cons hmark, hrest]
    · rw [not_or, not_not, not_not] at hmark
      obtain ⟨text, rfl⟩ := List.head?_eq_some_iff.mp hmark.2
      have hopen : closes text = false := closes_cons (closes_cons h)
      rw [drop_block_cons (Or.inl (by decide))] at hrest
      rw [hmark.1, drop_block_comments, if_neg (by rw [hopen]; exact Bool.false_ne_true),
        (List.cons.inj hrest).2]

/-- A mark that is kept is followed by no end of a comment. -/
theorem read_blocks_open {before after : List (Option Char)}
    (h : read_blocks m text = before ++ some '/' :: some '*' :: after) :
    closes (after.filterMap id) = false := by
  fun_induction read_blocks m text generalizing before with
  | case1 text ih => exact ih h
  | case2 c text hmark ih => exact ih h
  | case3 text hcloses ih =>
    cases before with
    | nil => cases h
    | cons x before => exact ih (List.cons.inj h).2
  | case4 text hcloses ih =>
    rcases before with _ | ⟨x, _ | ⟨y, before⟩⟩
    · obtain ⟨_, hafter⟩ := List.cons.inj h
      obtain ⟨_, rfl⟩ := List.cons.inj hafter
      rw [Bool.not_eq_true] at hcloses
      rw [← drop_block_eq, drop_block_open hcloses, hcloses]
    · obtain ⟨_, hafter⟩ := List.cons.inj h
      cases (List.cons.inj hafter).1
    · exact ih (List.cons.inj (List.cons.inj h).2).2
  | case5 c text hmark ih =>
    cases before with
    | nil =>
      obtain ⟨hc, hafter⟩ := List.cons.inj h
      have hhead : text.head? = some '*' := head?_read_blocks (by rw [hafter]; rfl)
      obtain ⟨rest, rfl⟩ := List.head?_eq_some_iff.mp hhead
      exact absurd rfl (hmark rest (Option.some.inj hc))
    | cons x before => exact ih (List.cons.inj h).2
  | case6 => cases before <;> cases h

/-- The second pattern makes new marks where comments stood in the wrong place only. -/
theorem uncommented_iff (h : ∀ before after, text ≠ before ++ '-' :: '-' :: after) :
    Uncommented (drop_block_comments false text) ↔ CommentsApart (read_blocks false text) := by
  rw [drop_block_eq]
  constructor
  · intro hu
    constructor
    · rintro before after ⟨n, hread⟩
      exact hu.line _ _ (filterMap_id_eq.mpr ⟨before, n + 1, after, hread, rfl, rfl⟩)
    · rintro before after ⟨n, hread⟩
      exact hu.block _ _ (filterMap_id_eq.mpr ⟨before, n + 1, after, hread, rfl, rfl⟩)
  · intro ha
    constructor
    · intro xs ys heq
      obtain ⟨before, n, after, hread, _, _⟩ := filterMap_id_eq.mp heq
      cases n with
      | zero => exact read_blocks_no_dashes h before after hread
      | succ n => exact ha.dashes before after ⟨n, hread⟩
    · intro xs ys heq
      obtain ⟨before, n, after, hread, _, rfl⟩ := filterMap_id_eq.mp heq
      cases n with
      | zero => exact read_blocks_open hread
      | succ n => exact ha.marks before after ⟨n, hread⟩

/-! ## Both patterns at once -/

theorem no_mark (h : ∀ rest, c = a → text = b :: rest → False) : c ≠ a ∨ text.head? ≠ some b := by
  by_cases hc : c = a
  · refine Or.inr fun hhead => ?_
    obtain ⟨rest, hrest⟩ := List.head?_eq_some_iff.mp hhead
    exact h rest hc hrest
  · exact Or.inl hc

/-- The first pattern makes no marks of block comments. -/
theorem no_mark_drop_line (h : ∀ rest, c = a → text = b :: rest → False) (hb : b ≠ newline) :
    c ≠ a ∨ (drop_line_comments false text).head? ≠ some b :=
  (no_mark h).imp_right (mt (head?_drop_line · hb))

theorem closes_cons_eq (hc : c ≠ '*' ∨ text.head? ≠ some '/') :
    closes (c :: text) = closes text := by
  rw [closes]
  rintro rest rfl rfl
  exact hc.elim (· rfl) (· rfl)

theorem closes_drop_line (m : Bool) (text : List Char) :
    closes (drop_line_comments m text) = closes_outside m text := by
  fun_induction closes_outside m text with
  | case1 m => cases m <;> rfl
  | case2 text ih =>
    rw [drop_line_comments, if_pos rfl, closes_cons_eq (Or.inl (by decide)), ih]
  | case3 c text hc ih => rw [drop_line_comments, if_neg hc, ih]
  | case4 text =>
    rw [drop_line_cons (Or.inl (by decide)), drop_line_cons (Or.inl (by decide))]
    rfl
  | case5 text ih => exact ih
  | case6 c text hclosed hdash ih =>
    rw [drop_line_cons (no_mark hdash), closes_cons_eq (no_mark_drop_line hclosed (by decide)), ih]

theorem read_blocks_inside (hc : c ≠ '*' ∨ text.head? ≠ some '/') :
    read_blocks true (c :: text) = read_blocks true text := by
  rw [read_blocks]
  rintro rest rfl rfl
  exact hc.elim (· rfl) (· rfl)

theorem read_blocks_drop_line (line block : Bool) (text : List Char) :
    read_blocks block (drop_line_comments line text) = read_comments line block text := by
  fun_induction read_comments line block text with
  | case1 line block => cases line <;> cases block <;> rfl
  | case2 block c text hc ih => rw [drop_line_comments, if_neg hc, ih]
  | case3 c text hc ih =>
    rw [not_not] at hc
    rw [drop_line_comments, if_pos hc, hc, read_blocks_inside (Or.inl (by decide)), ih]
  | case4 block c text hc hblock ih =>
    rw [not_not] at hc
    rw [Bool.eq_false_iff.mpr hblock, drop_line_comments, if_pos hc, hc,
      read_blocks_cons (Or.inl (by decide)), ih]
  | case5 block text ih => exact ih
  | case6 text ih =>
    rw [drop_line_cons (Or.inl (by decide)), drop_line_cons (Or.inl (by decide)), read_blocks, ih]
  | case7 c text hdash hend ih =>
    rw [drop_line_cons (no_mark hdash), read_blocks_inside (no_mark_drop_line hend (by decide)), ih]
  | case8 text hcloses ih =>
    rw [← closes_drop_line] at hcloses
    rw [drop_line_cons (Or.inl (by decide)), drop_line_cons (Or.inl (by decide)), read_blocks,
      if_pos hcloses, ih]
  | case9 text hcloses ih =>
    rw [← closes_drop_line] at hcloses
    rw [drop_line_cons (Or.inl (by decide)), drop_line_cons (Or.inl (by decide)), read_blocks,
      if_neg hcloses, ih]
  | case10 c text hdash hmark ih =>
    rw [drop_line_cons (no_mark hdash), read_blocks_cons (no_mark_drop_line hmark (by decide)), ih]

/-! ## White space at the ends -/

theorem isspace_ne (ha : isspace a = true) (hb : isspace b = false) : a ≠ b := by
  rintro rfl
  rw [ha] at hb
  cases hb

theorem closes_spaces (hrest : ∀ c ∈ rest, isspace c = true) :
    closes (text ++ rest) = closes text := by
  have hnone : closes rest = false := by
    induction rest with
    | nil => rfl
    | cons c rest ih =>
      have hc : isspace c = true := hrest c List.mem_cons_self
      rw [closes, ih fun d hd => hrest d (List.mem_cons_of_mem c hd)]
      rintro text rfl
      exact absurd hc (by decide)
  induction text with
  | nil => exact hnone
  | cons c text ih =>
    by_cases hmark : c = '*' ∧ text.head? = some '/'
    · obtain ⟨rfl, hhead⟩ := hmark
      obtain ⟨text, rfl⟩ := List.head?_eq_some_iff.mp hhead
      rfl
    · rw [List.cons_append, closes, closes, ih]
      · rintro after rfl rfl
        exact hmark ⟨rfl, rfl⟩
      · rintro after rfl hafter
        cases text with
        | nil =>
          have hslash : isspace '/' = true := hrest '/' (by
            rw [List.nil_append] at hafter
            rw [hafter]
            exact List.mem_cons_self)
          exact absurd hslash (by decide)
        | cons d text =>
          obtain ⟨rfl, _⟩ := List.cons.inj hafter
          exact hmark ⟨rfl, rfl⟩

/-- A pair of characters in a text with white space at its ends is in the text. -/
theorem pair_of_spaces {blanks blanks' : List Char} (hb : ∀ c ∈ blanks, isspace c = true)
    (hb' : ∀ c ∈ blanks', isspace c = true) (hc : isspace c = false) (hd : isspace d = false)
    (h : blanks ++ text ++ blanks' = before ++ c :: d :: after) :
    ∃ before' after', text = before' ++ c :: d :: after' ∧ after = after' ++ blanks' := by
  induction blanks generalizing before with
  | nil =>
    rw [List.nil_append] at h
    induction text generalizing before with
    | nil =>
      rw [List.nil_append] at h
      have hmem : c ∈ blanks' := by
        rw [h]
        exact List.mem_append_right _ List.mem_cons_self
      exact absurd rfl (isspace_ne (hb' c hmem) hc)
    | cons e text ih =>
      cases before with
      | nil =>
        obtain ⟨rfl, htext⟩ := List.cons.inj h
        cases text with
        | nil =>
          have hblanks : blanks' = d :: after := htext
          have hmem : d ∈ blanks' := by
            rw [hblanks]
            exact List.mem_cons_self
          exact absurd rfl (isspace_ne (hb' d hmem) hd)
        | cons f text =>
          obtain ⟨rfl, rfl⟩ := List.cons.inj htext
          exact ⟨[], text, rfl, rfl⟩
      | cons x before =>
        obtain ⟨rfl, htext⟩ := List.cons.inj h
        obtain ⟨before', after', rfl, hafter⟩ := ih htext
        exact ⟨e :: before', after', rfl, hafter⟩
  | cons e blanks ih =>
    cases before with
    | nil =>
      obtain ⟨rfl, _⟩ := List.cons.inj h
      exact absurd rfl (isspace_ne (hb e List.mem_cons_self) hc)
    | cons x before =>
      obtain ⟨rfl, htext⟩ := List.cons.inj h
      exact ih (fun f hf => hb f (List.mem_cons_of_mem e hf)) htext

/-- What `strip` takes away, and what it leaves. -/
theorem strip_spec (text : List Char) : ∃ blanks blanks', text = blanks ++ strip text ++ blanks' ∧
    (∀ c ∈ blanks, isspace c = true) ∧ (∀ c ∈ blanks', isspace c = true) ∧
    (∀ c ∈ (strip text).head?, isspace c = false) ∧
    ∀ c ∈ (strip text).getLast?, isspace c = false := by
  have hsplit : text.dropWhile isspace = strip text ++
      ((text.dropWhile isspace).reverse.takeWhile isspace).reverse := by
    rw [strip, ← List.reverse_append, List.takeWhile_append_dropWhile, List.reverse_reverse]
  refine ⟨text.takeWhile isspace, ((text.dropWhile isspace).reverse.takeWhile isspace).reverse,
    ?_, fun c hc => List.mem_takeWhile_imp hc, fun c hc => ?_, fun c hc => ?_, fun c hc => ?_⟩
  · rw [List.append_assoc, ← hsplit, List.takeWhile_append_dropWhile]
  · exact List.mem_takeWhile_imp (List.mem_reverse.mp hc)
  · have hhead : c ∈ (text.dropWhile isspace).head? := by
      rw [hsplit, List.head?_append, Option.mem_def.mp hc]
      rfl
    exact pg.head?_dropWhile hhead
  · rw [strip, List.getLast?_reverse] at hc
    exact pg.head?_dropWhile hc

theorem uncommented_strip : Uncommented (strip text) ↔ Uncommented text := by
  obtain ⟨blanks, blanks', hsplit, hb, hb', _, _⟩ := strip_spec text
  constructor
  · intro h
    constructor
    · intro before after heq
      rw [hsplit] at heq
      obtain ⟨x, y, hstrip, _⟩ := pair_of_spaces hb hb' (by decide) (by decide) heq
      exact h.line x y hstrip
    · intro before after heq
      rw [hsplit] at heq
      obtain ⟨x, y, hstrip, rfl⟩ := pair_of_spaces hb hb' (by decide) (by decide) heq
      rw [closes_spaces hb', h.block x y hstrip]
  · intro h
    constructor
    · intro before after heq
      refine h.line (blanks ++ before) (after ++ blanks') ?_
      rw [hsplit, heq]
      simp
    · intro before after heq
      have hclosed := h.block (blanks ++ before) (after ++ blanks') (by rw [hsplit, heq]; simp)
      rwa [closes_spaces hb'] at hclosed

/-! ## The second time -/

theorem drop_line_same (h : ∀ before after, text ≠ before ++ '-' :: '-' :: after) :
    drop_line_comments false text = text := by
  induction text with
  | nil => rfl
  | cons c text ih =>
    obtain ⟨hhead, h⟩ := no_pair_cons.mp h
    rw [drop_line_cons, ih h]
    by_cases hc : c = '-'
    · exact Or.inr fun hdash => hhead ⟨hc, hdash⟩
    · exact Or.inl hc

theorem drop_block_same
    (h : ∀ before after, text = before ++ '/' :: '*' :: after → closes after = false) :
    drop_block_comments false text = text := by
  induction text with
  | nil => rfl
  | cons c text ih =>
    by_cases hmark : c ≠ '/' ∨ text.head? ≠ some '*'
    · rw [drop_block_cons hmark, ih]
      intro before after heq
      exact h (c :: before) after (by rw [heq]; rfl)
    · rw [not_or, not_not, not_not] at hmark
      obtain ⟨text, rfl⟩ := List.head?_eq_some_iff.mp hmark.2
      have hopen : closes text = false := h [] text (by rw [hmark.1]; rfl)
      rw [hmark.1, drop_block_comments, if_neg (by rw [hopen]; exact Bool.false_ne_true),
        drop_block_open hopen]

/-- A text without comments stays as it is, but for white space at its ends. -/
theorem Uncommented.normalize (h : Uncommented text) : normalize_sql text = strip text := by
  unfold normalize_sql
  rw [drop_line_same h.line, drop_block_same h.block]

theorem strip_strip : strip (strip text) = strip text := by
  obtain ⟨_, _, _, _, _, hstart, hend⟩ := strip_spec text
  have h : strip ([] ++ strip text ++ []) = strip text :=
    strip_eq (by simp) (by simp) hstart hend
  rwa [List.nil_append, List.append_nil] at h

/-- No comment is left, and a second removal does nothing, exactly when no comment
stands in the wrong place. -/
theorem comments_are_gone_iff (sql : List Char) :
    Uncommented (normalize_sql sql) ∧ normalize_sql (normalize_sql sql) = normalize_sql sql ↔
      CommentsApart (read_comments false false sql) := by
  have hiff : Uncommented (normalize_sql sql) ↔ CommentsApart (read_comments false false sql) := by
    rw [← read_blocks_drop_line]
    exact uncommented_strip.trans (uncommented_iff (drop_line_no_dashes false sql))
  rw [← hiff]
  constructor
  · exact And.left
  · intro h
    refine ⟨h, ?_⟩
    rw [h.normalize]
    exact strip_strip

end

/-- A comment between two dashes, and one between a slash and a star: what is left has
comments. -/
theorem comments_are_not_gone :
    normalize_sql "SELECT 1 -/* one */- 1".toList = "SELECT 1 -- 1".toList ∧
    ¬ Uncommented "SELECT 1 -- 1".toList ∧
    normalize_sql "SELECT 1 -- 1".toList ≠ "SELECT 1 -- 1".toList ∧
    normalize_sql "SELECT 1 //* one */* two */".toList = "SELECT 1 /* two */".toList ∧
    ¬ Uncommented "SELECT 1 /* two */".toList := by
  refine ⟨by decide +kernel, fun h => ?_, by decide +kernel, by decide +kernel, fun h => ?_⟩
  · exact h.line "SELECT 1 ".toList " 1".toList (by decide +kernel)
  · have hclosed := h.block "SELECT 1 ".toList " two */".toList (by decide +kernel)
    exact absurd hclosed (by decide +kernel)

end AIUtils

end saas
