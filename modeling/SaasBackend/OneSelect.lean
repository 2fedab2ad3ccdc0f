-- Whether an executed text is one statement, read off the input: the rewriting of enum
-- literals changes the case of letters only, and the removal of comments is that of the
-- two patterns.
import SaasBackend.EnumCase
import SaasBackend.SqlStatements

namespace saas

namespace AIUtils

/-- The input without its comments, as the two patterns find them in it, and without
the white space at its ends. -/
def uncommented (raw : String) : List Char :=
  strip ((read_comments false false raw.toList).filterMap id)

section

variable {c c' : Char} {run m : Bool} {text text' val val' : List Char}

theorem uncommented_eq (raw : String) : uncommented raw = normalize_sql raw.toList := by
  rw [uncommented, normalize_sql, drop_block_eq, read_blocks_drop_line]

/-! ## The rewriting of enum literals -/

theorem recased_repl (val : List Char) (h : pg.Recased false text text') :
    pg.Recased false (quote :: (val ++ quote :: text)) (quote :: (repl val ++ quote :: text')) := by
  rcases repl_cases val with ⟨hsame, _⟩ | hentry
  · rw [hsame]
    exact .same ((h.same (c := quote)).append_left val)
  · exact .quote (pg.Recased.of_letters (fun c hc => hentry.char_of hc) (fold_repl val).symm h)

theorem recased_scan_literals (opened : Option (List Char)) (text : List Char) :
    pg.Recased false (opened.elim [] (quote :: ·) ++ text) (scan_literals opened text) := by
  induction text generalizing opened with
  | nil =>
    cases opened with
    | none => exact .nil false
    | some val =>
      rw [List.append_nil]
      exact pg.Recased.refl _
  | cons c text ih =>
    cases opened with
    | none =>
      rw [scan_literals]
      split
      · rename_i hc
        rw [hc]
        exact ih (some [])
      · exact .same (ih none)
    | some val =>
      rw [scan_literals]
      split
      · have hrest := ih (some (val ++ [c]))
        rw [Option.elim_some, List.cons_append, List.append_assoc] at hrest
        exact hrest
      · rename_i hc
        rw [not_not] at hc
        rw [hc]
        split
        · rename_i hval
          rw [hval]
          exact .same (ih (some []))
        · exact recased_repl val (ih none)

/-! ## The removal of comments -/

theorem recased_drop_line (h : pg.Recased run text text') :
    pg.Recased (run && !m) (drop_line_comments m text) (drop_line_comments m text') := by
  have hnewline : ∀ {c : Char}, c.toLower = newline ↔ c = newline :=
    pg.toLower_eq_iff (by decide)
  fun_induction drop_line_comments m text generalizing run text' with
  | case1 m =>
    cases h
    cases m <;> exact .nil _
  | case2 text ih =>
    obtain ⟨rest, rfl, rfl, hrest⟩ := h.of_mark (by decide) (by decide)
    rw [drop_line_comments, if_pos rfl]
    exact .same (ih hrest)
  | case3 c text hc ih =>
    obtain ⟨c', rest, run', rfl, hlower, hrest, -⟩ := h.uncons
    have hc' : c' ≠ newline := by
      rw [Ne, ← hnewline, ← hlower, hnewline]
      exact hc
    rw [drop_line_comments, if_neg hc', Bool.not_true, Bool.and_false]
    have htail := ih hrest
    rw [Bool.not_true, Bool.and_false] at htail
    exact htail
  | case4 text ih =>
    obtain ⟨rest, rfl, rfl, hrest⟩ := h.of_mark (by decide) (by decide)
    obtain ⟨rest, rfl, -, hrest⟩ := hrest.of_mark (by decide) (by decide)
    exact ih hrest
  | case5 c text hmark ih =>
    have hfold := h.fold_eq
    obtain ⟨c', rest, run', rfl, -, hrest, hcons⟩ := h.uncons
    rw [drop_line_comments, Bool.not_false, Bool.and_true]
    · have htail := ih hrest
      rw [Bool.not_false, Bool.and_true] at htail
      exact hcons htail
    · exact pg.Recased.no_mark hfold (by decide) (by decide) hmark

theorem closes_recased (h : pg.Recased run text text') : closes text' = closes text := by
  rw [← closes_fold, ← h.fold_eq, closes_fold]

theorem recased_drop_block (h : pg.Recased run text text') :
    pg.Recased (run && !m) (drop_block_comments m text) (drop_block_comments m text') := by
  fun_induction drop_block_comments m text generalizing run text' with
  | case1 text ih =>
    obtain ⟨rest, rfl, rfl, hrest⟩ := h.of_mark (by decide) (by decide)
    obtain ⟨rest, rfl, -, hrest⟩ := hrest.of_mark (by decide) (by decide)
    exact ih hrest
  | case2 c text hmark ih =>
    have hfold := h.fold_eq
    obtain ⟨c', rest, run', rfl, -, hrest, -⟩ := h.uncons
    have htail := ih hrest
    rw [Bool.not_true, Bool.and_false] at htail ⊢
    rw [drop_block_comments]
    · exact htail
    · exact pg.Recased.no_mark hfold (by decide) (by decide) hmark
  | case3 text hcloses ih =>
    obtain ⟨rest, rfl, rfl, hrest⟩ := h.of_mark (by decide) (by decide)
    obtain ⟨rest, rfl, -, hrest⟩ := hrest.of_mark (by decide) (by decide)
    rw [drop_block_comments, if_pos ((closes_recased hrest).trans hcloses)]
    exact ih hrest
  | case4 text hcloses ih =>
    obtain ⟨rest, rfl, rfl, hrest⟩ := h.of_mark (by decide) (by decide)
    obtain ⟨rest, rfl, -, hrest⟩ := hrest.of_mark (by decide) (by decide)
    rw [drop_block_comments, if_neg (by rw [closes_recased hrest]; exact hcloses)]
    exact .same (.same (ih hrest))
  | case5 c text hmark ih =>
    have hfold := h.fold_eq
    obtain ⟨c', rest, run', rfl, -, hrest, hcons⟩ := h.uncons
    have htail := ih hrest
    rw [Bool.not_false, Bool.and_true] at htail ⊢
    rw [drop_block_comments]
    · exact hcons htail
    · exact pg.Recased.no_mark hfold (by decide) (by decide) hmark
  | case6 m =>
    cases h
    cases m <;> exact .nil _

theorem recased_strip (h : pg.Recased run text text') :
    ∃ run', pg.Recased run' (strip text) (strip text') := by
  have hspaces : pg.fold (text.dropWhile isspace) = pg.fold (text'.dropWhile isspace) := by
    rw [← pg.fold_dropWhile fun _ => isspace_toLower, h.fold_eq,
      pg.fold_dropWhile fun _ => isspace_toLower]
  have hlength := congrArg List.length hspaces
  rw [pg.fold_length, pg.fold_length] at hlength
  obtain ⟨run', hrest⟩ := h.suffix (List.dropWhile_suffix _) (List.dropWhile_suffix _) hlength
  have hends : (strip text).length = (strip text').length := by
    rw [← pg.fold_length, ← strip_fold, h.fold_eq, strip_fold, pg.fold_length]
  refine ⟨run', ?_⟩
  rw [List.prefix_iff_eq_take.mp (prefix_strip text),
    List.prefix_iff_eq_take.mp (prefix_strip text'), hends]
  exact hrest.take _

/-- The text that is checked is the input without its comments, but for letter case. -/
theorem recased_checked (raw : String) :
    ∃ run, pg.Recased run (uncommented raw) (checked raw) := by
  rw [uncommented_eq]
  exact recased_strip (recased_drop_block (recased_drop_line (recased_scan_literals none _)))

theorem lex_checked (raw : String) : (pg.lex (checked raw)).map pg.Token.fold =
    (pg.lex (uncommented raw)).map pg.Token.fold := by
  obtain ⟨run, h⟩ := recased_checked raw
  exact h.lex_fold.symm

/-! ## The limit -/

theorem word_char_toLower (isalnum : Char → Bool) :
    word_char isalnum c.toLower = word_char isalnum c :=
  pg.test_toLower rfl

theorem after_limit_fold (text : List Char) :
    after_limit (pg.fold text) = (after_limit text).map pg.fold := by
  have hl : ∀ c : Char, c.toLower ∈ ['l', 'L'] ↔ c ∈ ['l', 'L'] := fun _ =>
    pg.mem_toLower (by decide)
  have hi : ∀ c : Char, c.toLower ∈ ['i', 'I', Char.ofNat 0x130, Char.ofNat 0x131] ↔
      c ∈ ['i', 'I', Char.ofNat 0x130, Char.ofNat 0x131] := fun _ => pg.mem_toLower (by decide)
  have hm : ∀ c : Char, c.toLower ∈ ['m', 'M'] ↔ c ∈ ['m', 'M'] := fun _ =>
    pg.mem_toLower (by decide)
  have ht : ∀ c : Char, c.toLower ∈ ['t', 'T'] ↔ c ∈ ['t', 'T'] := fun _ =>
    pg.mem_toLower (by decide)
  rcases text with _ | ⟨l, _ | ⟨i, _ | ⟨m, _ | ⟨i', _ | ⟨t, text⟩⟩⟩⟩⟩
  · rfl
  · rfl
  · rfl
  · rfl
  · rfl
  · simp only [pg.fold_cons, after_limit, hl, hi, hm, ht]
    split_ifs <;> rfl

/-- The search for the word does not depend on letter case. -/
theorem has_limit_fold (isalnum : Char → Bool) (in_word : Bool) (text : List Char) :
    has_limit isalnum in_word (pg.fold text) = has_limit isalnum in_word text := by
  induction text generalizing in_word with
  | nil => rfl
  | cons c text ih =>
    have hend : ∀ rest : List Char, (pg.fold rest).head?.any (word_char isalnum) =
        rest.head?.any (word_char isalnum) := fun rest =>
      pg.fold_any_head fun _ => word_char_toLower isalnum
    rw [pg.fold_cons, has_limit, has_limit, ih, word_char_toLower, ← pg.fold_cons,
      after_limit_fold, Option.any_map]
    simp only [hend]

/-- A preview of the input gets a limit. -/
def gets_limit (isalnum : Char → Bool) (raw mode : String) : Bool :=
  decide (mode = "preview") && !has_limit isalnum false (uncommented raw)

theorem limited_eq (isalnum : Char → Bool) (raw mode : String) :
    limited isalnum raw mode = gets_limit isalnum raw mode := by
  obtain ⟨run, h⟩ := recased_checked raw
  rw [limited, gets_limit, ← has_limit_fold isalnum false (checked raw), ← h.fold_eq,
    has_limit_fold]

end

end AIUtils

/-! ## The executed text -/

section

variable {engine : SqlEngine} {raw mode sql : String} {limited : Bool}
  {tokens tokens' : List pg.Token}

theorem is_into_fold (t : pg.Token) : is_into t.fold = is_into t := by
  cases t with
  | word w =>
    have hlower : (pg.fold w).map Char.toLower = w.map Char.toLower := by
      rw [pg.fold, List.map_map]
      exact List.map_congr_left fun c _ => AIUtils.toLower_toLower
    rw [pg.Token.fold, is_into, is_into, hlower]
  | _ => rfl

theorem fold_eq_semicolon {t : pg.Token} : t.fold = semicolon ↔ t = semicolon := by
  cases t with
  | symbol text =>
    rw [pg.Token.fold, semicolon, pg.Token.symbol.injEq, pg.Token.symbol.injEq, eq_comm,
      pg.eq_fold_iff (List.forall_mem_singleton.mpr (by decide)), eq_comm]
  | _ => exact iff_of_false pg.Token.noConfusion pg.Token.noConfusion

theorem AsksOnce.fold : AsksOnce limited (tokens.map pg.Token.fold) ↔ AsksOnce limited tokens := by
  constructor
  · intro h
    refine ⟨fun t ht => ?_, fun before after ht => ?_⟩
    · rw [← is_into_fold]
      exact h.no_into _ (List.mem_map_of_mem ht)
    · have hends := h.ends (before.map pg.Token.fold) (after.map pg.Token.fold) (by
        rw [ht, List.map_append, List.map_cons, fold_eq_semicolon.mpr rfl])
      exact ⟨List.map_eq_nil_iff.mp hends.1, hends.2⟩
  · intro h
    refine ⟨fun t ht => ?_, fun before after ht => ?_⟩
    · obtain ⟨t', ht', rfl⟩ := List.mem_map.mp ht
      rw [is_into_fold]
      exact h.no_into t' ht'
    · obtain ⟨before, rest, rfl, rfl, hrest⟩ := List.map_eq_append_iff.mp ht
      obtain ⟨t, after, rfl, hlast, rfl⟩ := List.map_eq_cons_iff.mp hrest
      obtain rfl := fold_eq_semicolon.mp hlast
      obtain ⟨rfl, hlimited⟩ := h.ends before after rfl
      exact ⟨rfl, hlimited⟩

theorem AsksOnce.of_fold (h : tokens.map pg.Token.fold = tokens'.map pg.Token.fold) :
    AsksOnce limited tokens ↔ AsksOnce limited tokens' := by
  rw [← AsksOnce.fold, h, AsksOnce.fold]

/-- An executed text is one SELECT exactly when the input without its comments has
neither of the two things that the check does not look for. Where PostgreSQL sees the
same comments in the input, this can be read off the tokens of the input. -/
theorem executes_one_select_iff (h : ai_repo.prepare engine raw mode = .ok sql) :
    (OneSelect (pg.lex sql.toList) ↔
      AsksOnce (AIUtils.gets_limit engine.isalnum raw mode) (pg.lex (AIUtils.uncommented raw))) ∧
    ∀ pieces, AIUtils.CommentsAlike raw pieces → (OneSelect (pg.lex sql.toList) ↔
      AsksOnce (AIUtils.gets_limit engine.isalnum raw mode) (pg.lex raw.toList)) := by
  have hraw : OneSelect (pg.lex sql.toList) ↔ AsksOnce
      (AIUtils.gets_limit engine.isalnum raw mode) (pg.lex (AIUtils.uncommented raw)) := by
    rw [ai_repo.prepare.one_select_iff h, AIUtils.limited_eq,
      AsksOnce.of_fold (AIUtils.lex_checked raw)]
  refine ⟨hraw, fun pieces halike => ?_⟩
  rw [hraw, AIUtils.uncommented_eq, halike.lex]

end

namespace Sample

/-- An enum value, a semicolon in a literal, and both of what is looked for in a comment. -/
def one_select : String := "SELECT 'active', ';' -- ; INTO"

def one_select_text : String := "SELECT 'ACTIVE', ';'"

def one_select_pieces : List pg.Piece :=
  [.token (.word "SELECT".toList) 'S' "ELECT".toList, .space ' ',
    .token (.literal [pg.quote] "active".toList) pg.quote "active'".toList,
    .token (.symbol [',']) ',' [], .space ' ',
    .token (.literal [pg.quote] [';']) pg.quote ";'".toList, .space ' ', .line " ; INTO".toList]

theorem one_select_comments : AIUtils.CommentsAlike one_select one_select_pieces where
  text := by decide +kernel
  plain := by decide +kernel
  starts := by decide +kernel
  ends := by decide +kernel

end Sample

open Sample in
theorem executes_one_select_iff_sample :
    (OneSelect (pg.lex one_select_text.toList) ↔
      AsksOnce (AIUtils.gets_limit count_engine.isalnum one_select "count")
        (pg.lex (AIUtils.uncommented one_select))) ∧
    (OneSelect (pg.lex one_select_text.toList) ↔
      AsksOnce (AIUtils.gets_limit count_engine.isalnum one_select "count")
        (pg.lex one_select.toList)) := by
  have h := executes_one_select_iff
    (show ai_repo.prepare count_engine one_select "count" = .ok one_select_text by decide +kernel)
  exact ⟨h.1, h.2 one_select_pieces one_select_comments⟩

/-- A second statement, a new table, and a limit behind a semicolon: all three are
executed. -/
theorem executes_more_than_one_select :
    (ai_repo.prepare count_engine "SELECT 1; SET ROLE admin" "count" =
        .ok "SELECT 1; SET ROLE admin" ∧
      ¬ OneSelect (pg.lex "SELECT 1; SET ROLE admin".toList)) ∧
    (ai_repo.prepare count_engine "SELECT * INTO copies FROM users" "csv" =
        .ok "SELECT * INTO copies FROM users" ∧
      ¬ OneSelect (pg.lex "SELECT * INTO copies FROM users".toList)) ∧
    (ai_repo.prepare count_engine "SELECT 1;" "preview" = .ok "SELECT 1;\nLIMIT 200" ∧
      ¬ OneSelect (pg.lex "SELECT 1;\nLIMIT 200".toList)) := by
  refine ⟨⟨by decide +kernel, fun h => ?_⟩, ⟨by decide +kernel, fun h => ?_⟩,
    by decide +kernel, fun h => ?_⟩
  · have hafter := h.ends [.word "SELECT".toList, .number ['1']]
      [.word "SET".toList, .word "ROLE".toList, .word "admin".toList] (by decide +kernel)
    cases hafter
  · have hinto := h.no_into (.word "INTO".toList) (by decide +kernel)
    exact absurd hinto (by decide +kernel)
  · have hafter := h.ends [.word "SELECT".toList, .number ['1']]
      [.word "LIMIT".toList, .number "200".toList] (by decide +kernel)
    cases hafter

end saas
