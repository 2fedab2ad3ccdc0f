-- The rewriting of enum literals changes letter case and nothing else, so that the
-- comments are found where they were and the read-only check answers the same.
import SaasBackend.CommentRemoval
import SaasBackend.PgCase
import SaasBackend.SqlLiterals

open pg (fold fold_append fold_length no_mark_fold toNat_toLower toLower_eq_iff)

namespace saas

namespace AIUtils

section

variable {c m : Char} {text val key name : List Char} {opened : Option (List Char)}

/-! ## Letters -/

theorem toNat_toUpper (c : Char) : c.toUpper.toNat =
    if 97 ≤ c.toNat ∧ c.toNat ≤ 122 then c.toNat - 32 else c.toNat := by
  have hlower : ('a'.val ≤ c.val ∧ c.val ≤ 'z'.val) ↔ 97 ≤ c.toNat ∧ c.toNat ≤ 122 := Iff.rfl
  unfold Char.toUpper
  split
  · rename_i h
    have hle : 97 ≤ c.val.toNat ∧ c.val.toNat ≤ 122 := hlower.mp h
    rw [if_pos (hlower.mp h)]
    change (c.val + ('A'.val - 'a'.val)).toNat = c.val.toNat - 32
    rw [UInt32.toNat_add]
    -- the difference of the two letters wraps around
    change (c.val.toNat + 4294967264) % 2 ^ 32 = _
    omega
  · rename_i h
    rw [if_neg (mt hlower.mpr h)]

theorem toUpper_toLower : c.toLower.toUpper = c.toUpper := by
  rw [← Char.toNat_inj, toNat_toUpper, toNat_toUpper, toNat_toLower]
  grind

theorem toLower_toUpper : c.toUpper.toLower = c.toLower := by
  rw [← Char.toNat_inj, toNat_toLower, toNat_toLower, toNat_toUpper]
  grind

theorem toLower_toLower : c.toLower.toLower = c.toLower := by
  rw [← Char.toNat_inj, toNat_toLower, toNat_toLower]
  grind

/-- A letter is no white space, in either case. -/
theorem isspace_toLower : isspace c.toLower = isspace c := by
  by_cases h : 65 ≤ c.toNat ∧ c.toNat ≤ 90
  · have hlower : c.toLower.toNat = c.toNat + 32 := by rw [toNat_toLower, if_pos h]
    have hspace : ∀ d : Char, d.toNat ∈ List.range' 65 58 → isspace d = false := by
      intro d hd
      rw [List.mem_range'_1] at hd
      unfold isspace
      simp only [List.mem_cons, List.not_mem_nil, or_false, Bool.or_eq_false_iff,
        decide_eq_false_iff_not]
      omega
    rw [hspace c, hspace c.toLower]
    · rw [List.mem_range'_1, hlower]
      omega
    · rw [List.mem_range'_1]
      omega
  · have hsame : c.toLower = c := by rw [← Char.toNat_inj, toNat_toLower, if_neg h]
    rw [hsame]

/-! ## Texts without regard to letter case -/

theorem lower_char_toLower : lower_char c.toLower = lower_char c := by
  have hkelvin : c.toLower = Char.ofNat 0x212A ↔ c = Char.ofNat 0x212A :=
    toLower_eq_iff (by decide)
  have hdotted : c.toLower = Char.ofNat 0x130 ↔ c = Char.ofNat 0x130 := toLower_eq_iff (by decide)
  unfold lower_char
  simp only [hkelvin, hdotted, toLower_toLower]

/-- Texts that differ in the case of ASCII letters only are the same in lower case. -/
theorem lower_fold : lower (fold text) = lower text := by
  induction text with
  | nil => rfl
  | cons c text ih =>
    change lower (c.toLower :: fold text) = _
    rw [lower_cons, lower_cons, lower_char_toLower, ih]

/-- The only characters beyond ASCII with an ASCII letter in lower case become a k, and
an i with a dot above. -/
theorem lower_eq_fold (h : ∀ c ∈ lower text, c ≠ 'k' ∧ c ≠ Char.ofNat 0x307) :
    lower text = fold text := by
  induction text with
  | nil => rfl
  | cons c text ih =>
    rw [lower_cons] at h ⊢
    have hc : lower_char c = [c.toLower] := by
      have hmem := fun d hd => h d (List.mem_append_left _ hd)
      unfold lower_char at hmem ⊢
      split at hmem
      · exact absurd rfl (hmem 'k' (by simp)).1
      split at hmem
      · exact absurd rfl (hmem (Char.ofNat 0x307) (by simp)).2
      · rename_i h1 h2
        rw [if_neg h1, if_neg h2]
    rw [hc, ih fun d hd => h d (List.mem_append_right _ hd)]
    rfl

/-! ## The map -/

/-- What all entries have in common. Each value is its name in lower case. -/
structure EnumEntry (key name : List Char) : Prop where
  upper : key.map Char.toUpper = name
  folded : fold key = key
  mapped : ENUM_MAP.lookup key = some name
  chars : ∀ c ∈ key, (c.isAlpha = true ∨ c = '_') ∧ c ≠ 'k'

theorem ENUM_MAP.entry (h : ENUM_MAP.lookup key = some name) : EnumEntry key name := by
  have hupper : ∀ entry ∈ ENUM_MAP, entry.1.map Char.toUpper = entry.2 := by decide +kernel
  have hfolded : ∀ entry ∈ ENUM_MAP, fold entry.1 = entry.1 := by decide +kernel
  have hchars : ∀ entry ∈ ENUM_MAP, entry.1.all fun c => (c.isAlpha ∨ c = '_') ∧ c ≠ 'k' := by
    decide +kernel
  obtain ⟨before, after, hsplit, _⟩ := List.lookup_eq_some_iff.mp h
  have hmem : (key, name) ∈ ENUM_MAP := by
    rw [hsplit]
    exact List.mem_append_right _ List.mem_cons_self
  exact ⟨hupper _ hmem, hfolded _ hmem, h,
    fun c hc => of_decide_eq_true (List.all_eq_true.mp (hchars _ hmem) c hc)⟩

theorem EnumEntry.key_eq (h : EnumEntry (lower val) name) : lower val = fold val := by
  apply lower_eq_fold
  intro c hc
  obtain ⟨halpha, hk⟩ := h.chars c hc
  refine ⟨hk, ?_⟩
  rintro rfl
  exact absurd halpha (by decide)

/-- An enum value becomes its name, which is the value in upper case. -/
theorem EnumEntry.name_eq (h : EnumEntry (lower val) name) : name = val.map Char.toUpper := by
  rw [← h.upper, h.key_eq, fold, List.map_map]
  exact List.map_congr_left fun c _ => toUpper_toLower

theorem EnumEntry.fold_name (h : EnumEntry (lower val) name) : fold name = fold val := by
  rw [h.name_eq, fold, List.map_map]
  exact List.map_congr_left fun c _ => toLower_toUpper

theorem EnumEntry.char_of (h : EnumEntry (lower val) name) (hc : c ∈ val) :
    c.isAlpha = true ∨ c = '_' := by
  have hmem : c.toLower ∈ lower val := by
    rw [h.key_eq]
    exact List.mem_map_of_mem hc
  rcases (h.chars _ hmem).1 with halpha | hscore
  · refine Or.inl ?_
    rw [pg.isAlpha_iff, toNat_toLower] at halpha
    rw [pg.isAlpha_iff]
    split at halpha <;> omega
  · exact Or.inr ((toLower_eq_iff (by decide)).mp hscore)

theorem repl_cases (val : List Char) :
    repl val = val ∧ ENUM_MAP.lookup (lower val) = none ∨ EnumEntry (lower val) (repl val) := by
  unfold repl
  rcases hkey : ENUM_MAP.lookup (lower val) with _ | name
  · exact Or.inl ⟨rfl, rfl⟩
  · exact Or.inr (ENUM_MAP.entry hkey)

theorem fold_repl (val : List Char) : fold (repl val) = fold val := by
  rcases repl_cases val with ⟨hsame, _⟩ | hentry
  · rw [hsame]
  · exact hentry.fold_name

theorem repl_ne_nil (h : val ≠ []) : repl val ≠ [] := by
  intro hnil
  have hlength := congrArg List.length (fold_repl val)
  rw [hnil, fold, fold, List.length_map, List.length_map] at hlength
  exact h (List.length_eq_zero_iff.mp hlength.symm)

/-- What is no letter is in the text before the replacement if it is in the text after. -/
theorem mem_of_mem_repl (hm : m.isAlpha = false) (h : m ∈ repl val) : m ∈ val := by
  have hfold : m ∈ fold val := by
    rw [← fold_repl, fold, List.mem_map]
    exact ⟨m, h, (toLower_eq_iff hm).mpr rfl⟩
  obtain ⟨c, hc, heq⟩ := List.mem_map.mp hfold
  rw [← (toLower_eq_iff hm).mp heq]
  exact hc

theorem repl_repl : repl (repl val) = repl val := by
  rcases repl_cases val with ⟨hsame, _⟩ | hentry
  · rw [hsame, hsame]
  · have hlower : lower (repl val) = lower val := by
      rw [← lower_fold, hentry.fold_name, lower_fold]
    conv => lhs; rw [repl, hlower, hentry.mapped, Option.getD_some]

/-! ## The rewriting -/

theorem fold_scan_literals :
    fold (scan_literals opened text) = fold (opened.elim [] (quote :: ·) ++ text) := by
  induction text generalizing opened with
  | nil =>
    cases opened with
    | none => rfl
    | some val => exact congrArg fold (List.append_nil _).symm
  | cons c text ih =>
    cases opened with
    | none =>
      rw [scan_literals]
      split
      · rename_i hc
        rw [ih, hc]
        rfl
      · exact congrArg (c.toLower :: ·) ih
    | some val =>
      rw [scan_literals]
      split
      · rw [ih]
        simp
      · rename_i hc
        rw [not_not] at hc
        split
        · rename_i hval
          change quote.toLower :: fold (scan_literals (some []) text) = _
          rw [ih, hval, hc]
          rfl
        · have hrest : fold (scan_literals none text) = fold text := ih
          change quote.toLower :: fold (repl val ++ quote :: scan_literals none text) = _
          rw [fold_append, fold_repl, hc]
          change quote.toLower :: (fold val ++ quote.toLower :: fold (scan_literals none text)) = _
          rw [hrest]
          change _ = quote.toLower :: fold (val ++ quote :: text)
          rw [fold_append]
          rfl

/-- A run without a quote is read on. -/
theorem scan_run {run rest : List Char} (h : quote ∉ run) (val : List Char) :
    scan_literals (some val) (run ++ rest) = scan_literals (some (val ++ run)) rest := by
  induction run generalizing val with
  | nil => rw [List.nil_append, List.append_nil]
  | cons c run ih =>
    have hc : c ≠ quote := fun hc => h (by rw [hc]; exact List.mem_cons_self)
    rw [List.cons_append, scan_literals, if_pos hc, ih (mt (List.mem_cons_of_mem c) h),
      List.append_assoc]
    rfl

/-- After a quote and `val` the output starts with the quote. -/
theorem scan_literals_open (val text : List Char) :
    ∃ rest, scan_literals (some val) text = quote :: rest := by
  induction text generalizing val with
  | nil => exact ⟨val, rfl⟩
  | cons c text ih =>
    rw [scan_literals]
    split
    · exact ih _
    split
    · exact ⟨_, rfl⟩
    · exact ⟨_, rfl⟩

/-- The matches of the output are at the same places. -/
theorem scan_literals_twice (h : ∀ val ∈ opened, quote ∉ val) :
    scan_literals none (scan_literals opened text) = scan_literals opened text := by
  have hopen : ∀ rest, scan_literals none (quote :: rest) = scan_literals (some []) rest := by
    intro rest
    rw [scan_literals, if_pos rfl]
  induction text generalizing opened with
  | nil =>
    cases opened with
    | none => rfl
    | some val =>
      have hrun : scan_literals (some []) (val ++ []) = _ := scan_run (h val rfl) []
      rw [List.append_nil, List.nil_append] at hrun
      change scan_literals none (quote :: val) = quote :: val
      rw [hopen, hrun]
      rfl
  | cons c text ih =>
    cases opened with
    | none =>
      rw [scan_literals]
      split
      · exact ih (by simp)
      · rename_i hc
        rw [scan_literals, if_neg hc, ih (by simp)]
    | some val =>
      rw [scan_literals]
      split
      · rename_i hc
        refine ih fun v hv => ?_
        cases hv
        rw [List.mem_append, List.mem_singleton, not_or]
        exact ⟨h val rfl, fun heq => hc heq.symm⟩
      split
      · -- the quote begins no match, and neither does it in the output
        have hrest : scan_literals none (scan_literals (some []) text) = _ := ih (by simp)
        obtain ⟨rest, heq⟩ := scan_literals_open [] text
        rw [heq, hopen] at hrest
        rw [heq, hopen, scan_literals, if_neg (not_not.mpr rfl), if_pos rfl, hrest]
      · rename_i hval
        have hquote : quote ∉ repl val := mt (mem_of_mem_repl (by decide)) (h val rfl)
        change scan_literals none (quote :: (repl val ++ quote :: scan_literals none text)) = _
        rw [hopen, scan_run hquote, List.nil_append, scan_literals, if_neg (not_not.mpr rfl),
          if_neg (repl_ne_nil hval), repl_repl, ih (by simp)]

/-! ## The comments -/

theorem drop_line_fold (b : Bool) :
    drop_line_comments b (fold text) = fold (drop_line_comments b text) := by
  have hnewline : ∀ {c : Char}, c.toLower = newline ↔ c = newline := toLower_eq_iff (by decide)
  fun_induction drop_line_comments b text with
  | case1 b => cases b <;> rfl
  | case2 text ih =>
    change drop_line_comments true (newline :: fold text) = _
    rw [drop_line_comments, if_pos rfl, ih]
    rfl
  | case3 c text hc ih =>
    change drop_line_comments true (c.toLower :: fold text) = _
    rw [drop_line_comments, if_neg (mt hnewline.mp hc), ih]
  | case4 text ih => exact ih
  | case5 c text hmark ih =>
    change drop_line_comments false (c.toLower :: fold text) = _
    rw [drop_line_comments, ih]
    · rfl
    · exact no_mark_fold (by decide) (by decide) hmark

theorem closes_fold : closes (fold text) = closes text := by
  fun_induction closes text with
  | case1 => rfl
  | case2 c text hmark ih =>
    change closes (c.toLower :: fold text) = _
    rw [closes, ih]
    exact no_mark_fold (by decide) (by decide) hmark
  | case3 => rfl

theorem drop_block_fold (b : Bool) :
    drop_block_comments b (fold text) = fold (drop_block_comments b text) := by
  fun_induction drop_block_comments b text with
  | case1 text ih => exact ih
  | case2 c text hmark ih =>
    change drop_block_comments true (c.toLower :: fold text) = _
    rw [drop_block_comments, ih]
    exact no_mark_fold (by decide) (by decide) hmark
  | case3 text hcloses ih =>
    change drop_block_comments false ('/' :: '*' :: fold text) = _
    rw [drop_block_comments, closes_fold, if_pos hcloses, ih]
  | case4 text hcloses ih =>
    change drop_block_comments false ('/' :: '*' :: fold text) = _
    rw [drop_block_comments, closes_fold, if_neg hcloses, ih]
    rfl
  | case5 c text hmark ih =>
    change drop_block_comments false (c.toLower :: fold text) = _
    rw [drop_block_comments, ih]
    · rfl
    · exact no_mark_fold (by decide) (by decide) hmark
  | case6 b => cases b <;> rfl

theorem strip_fold : strip (fold text) = fold (strip text) := by
  have hspace : isspace ∘ Char.toLower = isspace := funext fun c => isspace_toLower
  unfold strip fold
  rw [List.dropWhile_map, hspace, ← List.map_reverse, List.dropWhile_map, hspace, List.map_reverse]

/-- The comments of a text do not depend on its letter case. -/
theorem normalize_sql_fold : normalize_sql (fold text) = fold (normalize_sql text) := by
  unfold normalize_sql
  rw [drop_line_fold, drop_block_fold, strip_fold]

/-! ## The check -/

/-- The check looks at the text in lower case. -/
theorem accepts_fold : (∃ sql, ensure_readonly (fold text) = .ok sql) ↔
    ∃ sql, ensure_readonly text = .ok sql := by
  have hnil : fold text = [] ↔ text = [] := List.map_eq_nil_iff
  rw [ensure_readonly.ok_iff, ensure_readonly.ok_iff, lower_fold, has_blocked, has_blocked,
    lower_fold, Ne, Ne, hnil]

theorem fold_normalize_enum_literals (sql : List Char) :
    fold (normalize_enum_literals sql) = fold sql :=
  fold_scan_literals

/-- The rewriting of enum literals keeps the length and the lower case of a text, does
nothing the second time, and leaves the verdict of the read-only check. -/
theorem normalize_enum_literals_case (sql : List Char) :
    (normalize_enum_literals sql).length = sql.length ∧
    lower (normalize_enum_literals sql) = lower sql ∧
    normalize_enum_literals (normalize_enum_literals sql) = normalize_enum_literals sql ∧
    ((∃ checked, ensure_readonly (normalize_sql (normalize_enum_literals sql)) = .ok checked) ↔
      ∃ checked, ensure_readonly (normalize_sql sql) = .ok checked) := by
  have hfold := fold_normalize_enum_literals sql
  refine ⟨?_, ?_, scan_literals_twice (by simp), ?_⟩
  · have hlength := congrArg List.length hfold
    rwa [fold, fold, List.length_map, List.length_map] at hlength
  · rw [← lower_fold, hfold, lower_fold]
  · rw [← accepts_fold, ← normalize_sql_fold, hfold, normalize_sql_fold, accepts_fold]

end

end AIUtils

end saas
