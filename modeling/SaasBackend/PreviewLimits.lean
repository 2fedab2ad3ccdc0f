-- The limit of a preview: PostgreSQL reads it as a clause of the outermost query, and
-- the code searches the characters of the text for the word.
import SaasBackend.PgCase
import SaasBackend.SqlLiterals

namespace saas

/-! ## The clauses of the outermost query -/

namespace AIUtils

section

variable {isalnum : Char → Bool} {in_word : Bool} {text after before rest : List Char}

/-- The five characters that are found can all start a word of PostgreSQL. -/
theorem after_limit.run (h : after_limit text = some after) :
    ∃ run, text = run ++ after ∧ (∀ d ∈ run, pg.ident_start d = true) ∧
      ∀ later, after_limit (run ++ later) = some later := by
  have hletters : ∀ d ∈ ['l', 'L', 'i', 'I', Char.ofNat 0x130, Char.ofNat 0x131, 'm', 'M', 't',
      'T'], pg.ident_start d = true := List.all_eq_true.mp (by decide)
  unfold after_limit at h
  split at h
  · rename_i l i m i' t text
    dsimp only at h
    split_ifs at h with hword
    cases h
    refine ⟨[l, i, m, i', t], rfl, fun d hd => hletters d ?_, fun later => ?_⟩
    · obtain ⟨hl, hi, hm, hi', ht⟩ := hword
      simp only [List.mem_cons, List.not_mem_nil, or_false] at hd hl hi hm hi' ht ⊢
      grind
    · exact if_pos hword
  · cases h

theorem after_limit.append (h : after_limit (before ++ rest) = some after) (hne : before ≠ [])
    (hends : pg.Apart before rest) :
    ∃ after', after_limit before = some after' ∧ after = after' ++ rest := by
  obtain ⟨run, htext, hletters, hrun⟩ := after_limit.run h
  rcases List.append_eq_append_iff.mp htext with ⟨gap, hgap, hrest⟩ | ⟨after', rfl, hafter⟩
  · cases gap with
    | nil =>
      rw [List.append_nil] at hgap
      have hlast := hrun []
      rw [List.append_nil, hgap] at hlast
      exact ⟨[], hlast, hrest.symm⟩
    | cons d gap =>
      -- the word goes over the end of the text before
      have hmem : before.getLast hne ∈ run := by
        rw [hgap]
        exact List.mem_append_left _ (List.getLast_mem hne)
      have hnext : d ∈ run := by
        rw [hgap]
        exact List.mem_append_right _ List.mem_cons_self
      rcases hends with hlast | hhead
      · have hno := hlast _ (List.getLast?_eq_some_getLast hne)
        rw [hletters _ hmem] at hno
        cases hno
      · have hno := hhead d (by rw [hrest]; rfl)
        rw [hletters d hnext] at hno
        cases hno
  · exact ⟨after', hrun after', hafter⟩

end
/-! ## The check of a text with a limit -/

section

variable {text text' : List Char} {default_limit : Nat}

theorem lower_limit_line : lower (limit_line default_limit) =
    newline :: "limit ".toList ++ (toString default_limit).toList := by
  have hword : lower (newline :: "LIMIT ".toList) = newline :: "limit ".toList := by
    decide +kernel
  have hsame : ∀ c ∈ (toString default_limit).toList, c.toLower = c := by
    intro c hc
    have hdigit := pg.isDigit_iff.mp (limit_digits c hc)
    rw [← Char.toNat_inj, pg.toNat_toLower, if_neg (by omega)]
  have hdigits : lower (toString default_limit).toList = (toString default_limit).toList := by
    rw [lower_of_ascii, List.map_congr_left hsame, List.map_id']
    intro c hc
    have hdigit := pg.isDigit_iff.mp (limit_digits c hc)
    rw [hsame c hc]
    omega
  change lower ((newline :: "LIMIT ".toList) ++ (toString default_limit).toList) = _
  rw [lower_append, hword, hdigits]

theorem tokens_limit_line :
    tokens [] (lower (text ++ limit_line default_limit)) =
      tokens [] (lower text) ++ ["limit".toList] := by
  have hdigits : ∀ c ∈ (toString default_limit).toList, token_char c = false := by
    intro c hc
    have hdigit := pg.isDigit_iff.mp (limit_digits c hc)
    have halpha : ¬ c.isAlpha = true := by
      rw [pg.isAlpha_iff]
      omega
    have hscore : c ≠ '_' := by
      rintro rfl
      exact absurd hdigit (by decide)
    unfold token_char
    simp [halpha, hscore]
  rw [lower_append, lower_limit_line]
  change tokens [] (lower text ++
    newline :: ("limit".toList ++ ' ' :: (toString default_limit).toList)) = _
  rw [tokens_append (by decide), tokens_append (by decide), tokens_spaces hdigits, List.append_nil]
  rfl

theorem strip_limit_line (h : strip (lower text) ≠ []) :
    strip (lower text) <+: strip (lower (text ++ limit_line default_limit)) := by
  have hprefix := prefix_strip (lower text)
  have hne : (lower text).dropWhile isspace ≠ [] := by
    intro hnil
    rw [hnil] at hprefix
    exact h (List.prefix_nil.mp hprefix)
  have hstrip : strip (lower (text ++ limit_line default_limit)) =
      (lower text).dropWhile isspace ++ lower (limit_line default_limit) := by
    have hstart : ∀ c ∈ ((lower text).dropWhile isspace ++
        lower (limit_line default_limit)).head?, isspace c = false := by
      intro c hc
      rw [List.head?_append_of_ne_nil _ hne] at hc
      exact pg.head?_dropWhile hc
    have hend : ∀ c ∈ ((lower text).dropWhile isspace ++
        lower (limit_line default_limit)).getLast?, isspace c = false := by
      intro c hc
      rw [lower_limit_line, ← List.append_assoc,
        List.getLast?_append_of_ne_nil _ limit_digits_ne_nil] at hc
      have hdigit := pg.isDigit_iff.mp (limit_digits c (List.mem_of_getLast? hc))
      unfold isspace
      simp only [List.mem_cons, List.not_mem_nil, or_false, Bool.or_eq_false_iff,
        decide_eq_false_iff_not]
      omega
    have hbefore : ∀ c ∈ (lower text).takeWhile isspace, isspace c = true :=
      fun c hc => List.mem_takeWhile_imp hc
    have hafter : ∀ c ∈ ([] : List Char), isspace c = true := fun c hc => by cases hc
    have hsplit := strip_eq hbefore hafter hstart hend
    rwa [List.append_nil, ← List.append_assoc, List.takeWhile_append_dropWhile,
      ← lower_append] at hsplit
  rw [hstrip]
  exact hprefix.trans (List.prefix_append _ _)

/-- An accepted text is accepted with the limit behind it. -/
theorem ensure_readonly.limit (h : ensure_readonly text = .ok text') :
    ensure_readonly (text ++ limit_line default_limit) =
      .ok (text ++ limit_line default_limit) := by
  obtain ⟨hnil, hstarts, hblocked⟩ := ensure_readonly.ok_iff.mp ⟨_, h⟩
  have haccepts : ∃ sql, ensure_readonly (text ++ limit_line default_limit) = .ok sql := by
    refine ensure_readonly.ok_iff.mpr ⟨List.append_ne_nil_of_left_ne_nil hnil _, ?_, ?_⟩
    · have hne : strip (lower text) ≠ [] := by
        rintro hempty
        rw [hempty] at hstarts
        exact absurd hstarts (by decide)
      exact hstarts.imp (·.trans (strip_limit_line hne)) (·.trans (strip_limit_line hne))
    · rw [has_blocked_iff] at hblocked ⊢
      rintro ⟨keyword, hk, hmem⟩
      rw [tokens_limit_line, List.mem_append, List.mem_singleton] at hmem
      rcases hmem with hmem | hlimit
      · exact hblocked ⟨keyword, hk, hmem⟩
      · have hnot : ∀ keyword ∈ BLOCKED_KEYWORDS, keyword.toList ≠ "limit".toList := by
          decide
        exact hnot keyword hk hlimit
  obtain ⟨sql, hsql⟩ := haccepts
  rw [hsql, (ensure_readonly.ok hsql).1]

end
end AIUtils

/-! ## The executed text -/

section

variable {tokens : List pg.Token} {text : List Char} {engine : SqlEngine} {raw sql : String}
  {default_limit : Nat}

/-- The check accepts the executed text as well. -/
theorem ai_repo.prepare.accepted {mode : String}
    (h : prepare engine raw mode default_limit = .ok sql) :
    AIUtils.ensure_readonly sql.toList = .ok sql.toList := by
  obtain ⟨checked, hcheck, _⟩ := ai_repo.prepare.ok h
  obtain ⟨rfl, _⟩ := AIUtils.ensure_readonly.ok hcheck
  rw [ai_repo.prepare.text h]
  split
  · exact AIUtils.ensure_readonly.limit hcheck
  · exact hcheck

end

namespace Sample

end Sample

end saas
