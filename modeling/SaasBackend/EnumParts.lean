-- What the rewriting of enum values makes of the parts of a text: a literal, and a name
-- in double quotes, when the pattern has a match open before them or not.
import SaasBackend.EnumLiterals

open pg (fold fold_append)

namespace saas

namespace AIUtils

/-- A text between marks, with the marks in it doubled. -/
def escape (m : Char) (text : List Char) : List Char :=
  text.flatMap fun c => if c = m then [c, c] else [c]

def quoted (m : Char) (text : List Char) : List Char := m :: (escape m text ++ [m])

/-! ## What the rewriting makes of a literal -/

/-- The runs between the quotes of a text, each replaced, after a run that has begun. -/
def replace_runs : List Char → List Char → List Char
  | run, [] => repl run
  | run, c :: text =>
    if c = quote then repl run ++ quote :: replace_runs [] text else replace_runs (run ++ [c]) text

/-- The runs after the first one. -/
def replace_later : List Char → List Char
  | [] => []
  | c :: text => if c = quote then quote :: replace_runs [] text else c :: replace_later text

/-- The pattern is in step before a literal when no quote is open there. -/
def rewritten (in_step : Bool) (literal : List Char) : List Char :=
  if in_step then replace_runs [] literal else replace_later literal

/-- The literal is empty or ends with a quote, so that the pattern opens with the quote
that closes the literal. -/
def ends_open (literal : List Char) : Bool := literal.getLast?.all (· = quote)

/-- Whether the pattern is in step after a literal. -/
def stays (in_step : Bool) (literal : List Char) : Bool :=
  (in_step || decide (quote ∈ literal)) && !ends_open literal

/-- What the rewriting makes of a name, and whether the pattern is in step after it. -/
def rename : Bool → List Char → List Char × Bool
  | true, name => (normalize_enum_literals name, pairing name = .outside)
  | false, [] => ([], false)
  | false, c :: name => (c :: (rename (c = quote) name).1, (rename (c = quote) name).2)

/-! ## The pattern over a text -/

section

variable {o o' o'' : Option (List Char)} {part part' next next' run rest literal val : List Char}
  {c m d : Char}

/-- What the pattern has read and not yet put out. -/
def pending (o : Option (List Char)) : List Char := o.elim [] (quote :: ·)

/-- From `o` the pattern makes `part'` of `part`, and goes on from `o'`. -/
def Passes (o : Option (List Char)) (part part' : List Char) (o' : Option (List Char)) : Prop :=
  ∃ out, (∀ rest, scan_literals o (part ++ rest) = out ++ scan_literals o' rest) ∧
    out ++ pending o' = pending o ++ part'

theorem Passes.append (h : Passes o part part' o') (hnext : Passes o' next next' o'') :
    Passes o (part ++ next) (part' ++ next') o'' := by
  obtain ⟨out, hscan, hout⟩ := h
  obtain ⟨out', hscan', hout'⟩ := hnext
  refine ⟨out ++ out', fun rest => ?_, ?_⟩
  · rw [List.append_assoc, hscan, hscan', List.append_assoc]
  · rw [List.append_assoc, hout', ← List.append_assoc, hout, List.append_assoc]

theorem Passes.whole (h : Passes none part part' o) :
    normalize_enum_literals part = part' := by
  obtain ⟨out, hscan, hout⟩ := h
  have hend := hscan []
  have hpending : scan_literals o [] = pending o := by cases o <;> rfl
  rw [List.append_nil, hpending, hout] at hend
  exact hend

theorem scan_plain (h : quote ∉ part) (rest : List Char) :
    scan_literals none (part ++ rest) = part ++ scan_literals none rest := by
  induction part with
  | nil => rfl
  | cons c part ih =>
    have hc : c ≠ quote := fun hc => h (by rw [hc]; exact List.mem_cons_self)
    rw [List.cons_append, scan_literals, if_neg hc, ih (mt (List.mem_cons_of_mem c) h)]
    rfl

theorem Passes.plain (h : quote ∉ part) : Passes o part part (o.map (· ++ part)) := by
  cases o with
  | none => exact ⟨part, scan_plain h, List.append_nil part⟩
  | some val => exact ⟨[], fun rest => scan_run h val, rfl⟩

/-- A quote outside of a match opens one. -/
theorem Passes.opens : Passes none [quote] [quote] (some []) := by
  refine ⟨[], fun rest => ?_, rfl⟩
  rw [List.singleton_append, scan_literals, if_pos rfl]
  rfl

/-- A run and the quote after it. -/
theorem Passes.of_run (run : List Char) (h : quote ∉ run) :
    Passes (some []) (run ++ [quote]) (repl run ++ [quote])
      (if run = [] then some [] else none) := by
  have hscan : ∀ rest, scan_literals (some []) (run ++ [quote] ++ rest) =
      scan_literals (some run) (quote :: rest) := fun rest => by
    rw [List.append_assoc, scan_run h, List.nil_append]
    rfl
  by_cases hnil : run = []
  · rw [if_pos hnil]
    refine ⟨[quote], fun rest => ?_, ?_⟩
    · rw [hscan, scan_literals, if_neg (not_not.mpr rfl), if_pos hnil]
      rfl
    · rw [hnil]
      rfl
  · rw [if_neg hnil]
    refine ⟨quote :: repl run ++ [quote], fun rest => ?_, List.append_nil _⟩
    rw [hscan, scan_literals, if_neg (not_not.mpr rfl), if_neg hnil, List.append_assoc]
    rfl

theorem repl_same (h : pg.dquote ∈ val) : repl val = val := by
  rcases repl_cases val with ⟨hsame, _⟩ | hentry
  · exact hsame
  · rcases hentry.char_of h with halpha | hscore
    · exact absurd halpha (by decide)
    · exact absurd hscore (by decide)

/-- A match that goes on from a name or a literal before this one is no enum value, as it
has a quote of a name in it. -/
theorem Passes.closes (h : pg.dquote ∈ val) : Passes (some val) [quote] [quote] none := by
  have hne : val ≠ [] := List.ne_nil_of_mem h
  refine ⟨quote :: val ++ [quote], fun rest => ?_, List.append_nil _⟩
  rw [List.singleton_append, scan_literals, if_neg (not_not.mpr rfl), if_neg hne, repl_same h]
  simp

/-- What the pattern has read tells where it is among the quotes. -/
def Pairing.of : Option (List Char) → Pairing
  | none => outside
  | some [] => opened
  | some (_ :: _) => inside

/-- What is put out of a text, and what is kept at its end. -/
theorem scan_append (o : Option (List Char)) (part : List Char) : ∃ out o',
    Pairing.of o' = part.foldl Pairing.next (Pairing.of o) ∧
    out ++ pending o' = scan_literals o part ∧
    ∀ rest, scan_literals o (part ++ rest) = out ++ scan_literals o' rest := by
  induction part generalizing o with
  | nil =>
    refine ⟨[], o, rfl, ?_, fun rest => rfl⟩
    cases o <;> rfl
  | cons c part ih =>
    rw [List.foldl_cons]
    simp only [List.cons_append]
    cases o with
    | none =>
      simp only [scan_literals, Pairing.of, Pairing.next]
      split
      · exact ih (some [])
      · obtain ⟨out, o', hstate, hout, hscan⟩ := ih none
        exact ⟨c :: out, o', hstate, congrArg (c :: ·) hout,
          fun rest => congrArg (c :: ·) (hscan rest)⟩
    | some val =>
      by_cases hc : c = quote
      · simp only [scan_literals, if_neg (not_not.mpr hc)]
        cases val with
        | nil =>
          obtain ⟨out, o', hstate, hout, hscan⟩ := ih (some [])
          refine ⟨quote :: out, o', ?_, congrArg (quote :: ·) hout,
            fun rest => congrArg (quote :: ·) (hscan rest)⟩
          rw [hstate]
          simp [Pairing.of, Pairing.next, hc]
        | cons d val =>
          obtain ⟨out, o', hstate, hout, hscan⟩ := ih none
          refine ⟨quote :: repl (d :: val) ++ quote :: out, o', ?_, ?_, fun rest => ?_⟩
          · rw [hstate]
            simp [Pairing.of, Pairing.next, hc]
          · rw [← hout]
            simp
          · rw [hscan]
            simp
      · simp only [scan_literals, if_pos hc]
        obtain ⟨out, o', hstate, hout, hscan⟩ := ih (some (val ++ [c]))
        refine ⟨out, o', ?_, hout, hscan⟩
        rw [hstate]
        cases val <;> simp [Pairing.of, Pairing.next, hc]

/-! ## Marks in a text -/

theorem escape_cons (m c : Char) (part : List Char) :
    escape m (c :: part) = (if c = m then [c, c] else [c]) ++ escape m part :=
  List.flatMap_cons

theorem escape_append (m : Char) (part next : List Char) :
    escape m (part ++ next) = escape m part ++ escape m next :=
  List.flatMap_append

theorem escape_plain (h : m ∉ part) : escape m part = part := by
  induction part with
  | nil => rfl
  | cons c part ih =>
    have hc : c ≠ m := fun hc => h (by rw [hc]; exact List.mem_cons_self)
    rw [escape_cons, if_neg hc, ih (mt (List.mem_cons_of_mem c) h)]
    rfl

theorem mem_escape : c ∈ escape m part ↔ c ∈ part := by
  rw [escape, List.mem_flatMap]
  constructor
  · rintro ⟨d, hd, hc⟩
    split at hc
    · simp only [List.mem_cons, List.not_mem_nil, or_false, or_self] at hc
      exact hc ▸ hd
    · rw [List.mem_singleton] at hc
      exact hc ▸ hd
  · intro hc
    refine ⟨c, hc, ?_⟩
    split
    · exact List.mem_cons_self
    · exact List.mem_cons_self

/-- A text between marks ends at the first mark that is not doubled. -/
theorem escape_inj (hd : d ≠ m)
    (h : escape m part ++ m :: d :: rest = escape m part' ++ m :: d :: next) :
    part = part' ∧ rest = next := by
  induction part generalizing part' with
  | nil =>
    cases part' with
    | nil => exact ⟨rfl, (List.cons.inj (List.cons.inj h).2).2⟩
    | cons c part' =>
      rw [escape_cons] at h
      split at h
      · rename_i hc
        exact absurd ((List.cons.inj (List.cons.inj h).2).1.trans hc) hd
      · rename_i hc
        exact absurd (List.cons.inj h).1.symm hc
  | cons c part ih =>
    cases part' with
    | nil =>
      rw [escape_cons] at h
      split at h
      · rename_i hc
        exact absurd ((List.cons.inj (List.cons.inj h).2).1.symm.trans hc) hd
      · rename_i hc
        exact absurd (List.cons.inj h).1 hc
    | cons c' part' =>
      have hhead : c = c' := by
        rw [escape_cons, escape_cons] at h
        split at h <;> split at h <;> exact (List.cons.inj h).1
      subst hhead
      rw [escape_cons, escape_cons, List.append_assoc, List.append_assoc] at h
      obtain ⟨rfl, hrest⟩ := ih (List.append_cancel_left h)
      exact ⟨rfl, hrest⟩

/-! ## One literal -/

theorem ends_open_later (part : List Char) :
    ends_open (part ++ quote :: literal) = ends_open literal := by
  unfold ends_open
  rw [List.getLast?_append]
  rcases List.eq_nil_or_concat' literal with rfl | ⟨before, c, rfl⟩
  · rfl
  · rw [← List.cons_append, List.getLast?_concat, List.getLast?_concat]
    rfl

theorem ends_open_plain (h : quote ∉ run) : ends_open run = true ↔ run = [] := by
  rcases List.eq_nil_or_concat' run with rfl | ⟨before, c, rfl⟩
  · exact iff_of_true rfl rfl
  · have hc : c ≠ quote := fun hc => h (List.mem_append_right _ (hc ▸ List.mem_cons_self))
    simp [ends_open, hc]

/-- Where the pattern is after the quote that closes a literal. -/
def closed (open_end : Bool) : Option (List Char) := if open_end then some [] else none

/-- The runs of a literal, from the first one that a quote opens. -/
theorem Passes.runs (run literal : List Char) (h : quote ∉ run) :
    Passes (some []) (run ++ (escape quote literal ++ [quote]))
      (escape quote (replace_runs run literal) ++ [quote])
      (closed (ends_open (run ++ literal))) := by
  induction literal generalizing run with
  | nil =>
    have hrepl : quote ∉ repl run := mt (mem_of_mem_repl (by decide)) h
    have hclosed : closed (ends_open (run ++ [])) = if run = [] then some [] else none := by
      rw [List.append_nil, closed]
      simp only [ends_open_plain h]
    rw [hclosed, replace_runs, escape_plain hrepl]
    exact Passes.of_run run h
  | cons c literal ih =>
    rw [replace_runs, escape_cons]
    split
    · rename_i hc
      subst hc
      have hrepl : quote ∉ repl run := mt (mem_of_mem_repl (by decide)) h
      -- the first quote closes the run, if there is one, and the second one opens
      have hsecond : Passes (if run = [] then some [] else none) [quote] [quote] (some []) := by
        split
        · exact Passes.of_run [] List.not_mem_nil
        · exact Passes.opens
      have hpasses := ((Passes.of_run run h).append hsecond).append (ih [] List.not_mem_nil)
      rw [ends_open_later]
      rw [escape_append, escape_cons, if_pos rfl, escape_plain hrepl]
      simpa using hpasses
    · rename_i hc
      have hrun : quote ∉ run ++ [c] := by
        rw [List.mem_append, List.mem_singleton, not_or]
        exact ⟨h, fun heq => hc heq.symm⟩
      have hpasses := ih (run ++ [c]) hrun
      simpa using hpasses

/-- The runs of a literal after the first one, which stands outside. -/
theorem Passes.later : Passes none (escape quote literal ++ [quote])
    (escape quote (replace_later literal) ++ [quote])
    (closed (decide (quote ∉ literal) || ends_open literal)) := by
  induction literal with
  | nil => exact Passes.opens
  | cons c literal ih =>
    rw [replace_later, escape_cons]
    split
    · rename_i hc
      subst hc
      have hfirst : Passes none ([quote] ++ [quote]) ([quote] ++ [quote]) (some []) :=
        Passes.opens.append (Passes.of_run [] List.not_mem_nil)
      have hpasses := hfirst.append (Passes.runs [] literal List.not_mem_nil)
      have hend : ends_open (quote :: literal) = ends_open literal := ends_open_later []
      rw [hend, escape_cons, if_pos rfl]
      simpa using hpasses
    · rename_i hc
      have hone : Passes none [c] [c] none :=
        Passes.plain (o := none) fun hmem => hc (List.mem_singleton.mp hmem).symm
      have hpasses := hone.append ih
      have hend : (decide (quote ∉ c :: literal) || ends_open (c :: literal)) =
          (decide (quote ∉ literal) || ends_open literal) := by
        have hmem : quote ∈ c :: literal ↔ quote ∈ literal := by
          rw [List.mem_cons]
          exact or_iff_right fun heq => hc heq.symm
        simp only [hmem]
        cases literal with
        | nil => rfl
        | cons d literal => rfl
      rw [hend, escape_cons, if_neg hc]
      simpa using hpasses

/-- From `o` the pattern makes `part'` of `part`, and is in step after it or not. -/
def Leads (o : Option (List Char)) (part part' : List Char) (in_step : Bool) : Prop :=
  ∃ o', o'.isNone = in_step ∧ Passes o part part' o'

theorem Leads.append {b b' : Bool} (h : Leads o part part' b)
    (hnext : ∀ o', o'.isNone = b → Leads o' next next' b') :
    Leads o (part ++ next) (part' ++ next') b' := by
  obtain ⟨o', hstate, hpasses⟩ := h
  obtain ⟨o'', hstate', hpasses'⟩ := hnext o' hstate
  exact ⟨o'', hstate', hpasses.append hpasses'⟩

theorem Leads.plain {b : Bool} (h : quote ∉ part) (hb : o.isNone = b) : Leads o part part b := by
  refine ⟨o.map (· ++ part), ?_, Passes.plain h⟩
  rw [← hb]
  cases o <;> rfl

theorem Leads.whole {b : Bool} (h : Leads none part part' b) :
    normalize_enum_literals part = part' := by
  obtain ⟨o', _, hpasses⟩ := h
  exact hpasses.whole

/-- A literal behind a name. -/
theorem literal_leads (h : quote ∉ part) (hmark : pg.dquote ∈ part) (literal : List Char) {b : Bool}
    (hb : o.isNone = b) : Leads o (part ++ quoted quote literal)
      (part ++ quoted quote (rewritten b literal)) (stays b literal) := by
  subst hb
  cases o with
  | none =>
    refine ⟨closed (ends_open literal), ?_, ?_⟩
    · cases h : ends_open literal <;> simp [closed, stays, h]
    · exact (Passes.plain h).append (Passes.opens.append (Passes.runs [] literal List.not_mem_nil))
  | some val =>
    refine ⟨closed (decide (quote ∉ literal) || ends_open literal), ?_, ?_⟩
    · by_cases hquote : quote ∈ literal
      · cases h : ends_open literal <;> simp [closed, stays, h, hquote]
      · simp [closed, stays, hquote]
    · have hopened : pg.dquote ∈ val ++ part := List.mem_append_right _ hmark
      exact (Passes.plain h).append ((Passes.closes hopened).append Passes.later)

/-! ## One name -/

theorem repl_escape (val : List Char) :
    repl (escape pg.dquote val) = escape pg.dquote (repl val) := by
  by_cases h : pg.dquote ∈ val
  · rw [repl_same h, repl_same (mem_escape.mpr h)]
  · have hrepl : pg.dquote ∉ repl val := mt (mem_of_mem_repl (by decide)) h
    rw [escape_plain h, escape_plain hrepl]

theorem escape_eq_nil : escape m part = [] ↔ part = [] := by
  cases part with
  | nil => exact iff_of_true rfl rfl
  | cons c part =>
    rw [escape_cons]
    split <;> simp

theorem quote_not_mem_piece (hc : c ≠ quote) :
    quote ∉ if c = pg.dquote then [c, c] else [c] := by
  split <;> simp [hc.symm]

/-- The pattern reads a name in a text as it reads the name. -/
theorem scan_escape (o : Option (List Char)) (part : List Char) :
    scan_literals (o.map (escape pg.dquote)) (escape pg.dquote part) =
      escape pg.dquote (scan_literals o part) := by
  have hquote : ∀ part, escape pg.dquote (quote :: part) = quote :: escape pg.dquote part :=
    fun part => by rw [escape_cons, if_neg (by decide)]; rfl
  induction part generalizing o with
  | nil =>
    cases o with
    | none => rfl
    | some val => exact (hquote val).symm
  | cons c part ih =>
    by_cases hc : c = quote
    · subst hc
      rw [hquote]
      cases o with
      | none =>
        rw [Option.map_none, scan_literals, if_pos rfl, scan_literals, if_pos rfl]
        exact ih (some [])
      | some val =>
        rw [Option.map_some, scan_literals, if_neg (not_not.mpr rfl), scan_literals,
          if_neg (not_not.mpr rfl)]
        by_cases hval : val = []
        · rw [if_pos hval, if_pos (escape_eq_nil.mpr hval), hquote]
          exact congrArg (quote :: ·) (ih (some []))
        · have hrest : scan_literals none (escape pg.dquote part) = _ := ih none
          rw [if_neg hval, if_neg (mt escape_eq_nil.mp hval), repl_escape, hrest, escape_append,
            hquote, hquote]
    · have hpiece := quote_not_mem_piece hc
      rw [escape_cons]
      cases o with
      | none =>
        have hrest : scan_literals none (escape pg.dquote part) = _ := ih none
        rw [Option.map_none, scan_plain hpiece, hrest, scan_literals, if_neg hc, escape_cons]
      | some val =>
        have hval : escape pg.dquote (val ++ [c]) =
            escape pg.dquote val ++ if c = pg.dquote then [c, c] else [c] := by
          rw [escape_append, escape_cons]
          exact congrArg _ (List.append_nil _)
        rw [Option.map_some, scan_run hpiece, scan_literals, if_pos hc, ← hval]
        exact ih (some (val ++ [c]))

theorem pairing_escape (part : List Char) : pairing (escape pg.dquote part) = pairing part := by
  have hfold : ∀ p : Pairing, (escape pg.dquote part).foldl Pairing.next p =
      part.foldl Pairing.next p := by
    induction part with
    | nil => exact fun p => rfl
    | cons c part ih =>
      intro p
      rw [escape_cons, List.foldl_append, ih, List.foldl_cons]
      split
      · rename_i hc
        have hquote : c ≠ quote := by
          rw [hc]
          decide
        cases p <;> simp [Pairing.next, hquote]
      · rfl
  exact hfold .outside

/-- A name in step: the pattern has it for itself. -/
theorem name_leads_in_step (name : List Char) : Leads none (escape pg.dquote name)
    (escape pg.dquote (rename true name).1) (rename true name).2 := by
  obtain ⟨out, o', hstate, hout, hscan⟩ := scan_append none (escape pg.dquote name)
  have hescape : scan_literals none (escape pg.dquote name) = _ := scan_escape none name
  refine ⟨o', ?_, out, hscan, ?_⟩
  · have hpairing : Pairing.of o' = pairing name := by
      rw [hstate, ← pairing_escape]
      rfl
    rw [rename, ← hpairing]
    rcases o' with _ | _ | _ <;> rfl
  · rw [hout, hescape, rename]
    rfl

theorem name_leads_open (name : List Char) {val : List Char} (hval : pg.dquote ∈ val) :
    Leads (some val) (escape pg.dquote name) (escape pg.dquote (rename false name).1)
      (rename false name).2 := by
  induction name generalizing val with
  | nil => exact Leads.plain List.not_mem_nil rfl
  | cons c name ih =>
    rw [escape_cons, rename, escape_cons]
    by_cases hc : c = quote
    · subst hc
      have hclosed : Leads (some val) [quote] [quote] true := ⟨none, rfl, Passes.closes hval⟩
      refine hclosed.append fun o' ho' => ?_
      rw [Option.isNone_iff_eq_none.mp ho']
      exact name_leads_in_step name
    · have hplain := Passes.plain (o := some val) (quote_not_mem_piece hc)
      obtain ⟨o', hstate, hpasses⟩ := ih (List.mem_append_left _ hval)
      rw [decide_eq_false hc]
      exact ⟨o', hstate, hplain.append hpasses⟩

/-- A name behind the quote that it starts with. -/
theorem name_leads (h : quote ∉ part) (hmark : pg.dquote ∈ part) (name : List Char) {b : Bool}
    (hb : o.isNone = b) : Leads o (part ++ escape pg.dquote name)
      (part ++ escape pg.dquote (rename b name).1) (rename b name).2 := by
  subst hb
  cases o with
  | none =>
    refine Leads.append (Leads.plain h rfl) fun o' ho' => ?_
    rw [Option.isNone_iff_eq_none.mp ho']
    exact name_leads_in_step name
  | some val =>
    obtain ⟨o', hstate, hpasses⟩ := name_leads_open name (List.mem_append_right val hmark)
    exact ⟨o', hstate, (Passes.plain h).append hpasses⟩

end

/-! ## What is left of a literal and a name -/

section

variable {literal name : List Char} {b : Bool}

theorem fold_replace_runs (run literal : List Char) :
    fold (replace_runs run literal) = fold (run ++ literal) := by
  induction literal generalizing run with
  | nil => rw [replace_runs, fold_repl, List.append_nil]
  | cons c literal ih =>
    rw [replace_runs]
    split
    · rename_i hc
      have hrest : fold (quote :: replace_runs [] literal) = fold (quote :: literal) :=
        congrArg (quote.toLower :: ·) (ih [])
      rw [fold_append, fold_repl, hrest, hc, fold_append]
    · rw [ih, List.append_assoc]
      rfl

theorem fold_replace_later (literal : List Char) : fold (replace_later literal) = fold literal := by
  induction literal with
  | nil => rfl
  | cons c literal ih =>
    rw [replace_later]
    split
    · rename_i hc
      rw [hc]
      exact congrArg (quote.toLower :: ·) (fold_replace_runs [] literal)
    · exact congrArg (c.toLower :: ·) ih

theorem lower_rewritten (in_step : Bool) (literal : List Char) :
    lower (rewritten in_step literal) = lower literal := by
  rw [← lower_fold, rewritten]
  split
  · rw [fold_replace_runs, List.nil_append, lower_fold]
  · rw [fold_replace_later, lower_fold]

end

end AIUtils

end saas
