-- Programs of a server that serves many requests at once. A program is a
-- finite tree of atomic acts on a shared state: between two acts another
-- request may run, and a crash may stop the program after any act.
import Mathlib.Data.List.Induction

namespace async

/-- What a mapped result came from. -/
theorem map_eq_ok {ε α β : Type} {x : Except ε α} {f : α → β} {b : β} (h : x.map f = .ok b) :
    ∃ a, x = .ok a ∧ f a = b := by
  cases x with
  | ok a => exact ⟨a, rfl, Except.ok.inj h⟩
  | error e => cases h

/-- One request. `act eff k` changes the state by `eff` in one atomic step
and goes on with `k s`, where `s` is the state before the step. -/
inductive Proc (σ ε α : Type) : Type where
  | ret (a : α)
  | raise (e : ε)
  | act (eff : σ → σ) (k : σ → Proc σ ε α)

namespace Proc

variable {σ ε α β : Type}

/-! ## Programs as a monad -/

def bind : Proc σ ε α → (α → Proc σ ε β) → Proc σ ε β
  | ret a, f => f a
  | raise e, _ => raise e
  | act eff k, f => act eff (fun s => (k s).bind f)

instance : Monad (Proc σ ε) where
  pure := ret
  bind := bind

/-- One atomic step that reads and writes, or fails and leaves the state. -/
def attempt (f : σ → Except ε (α × σ)) : Proc σ ε α :=
  act (fun s => match f s with
      | .ok (_, s') => s'
      | .error _ => s)
    (fun s => match f s with
      | .ok (a, _) => ret a
      | .error e => raise e)

def read (f : σ → α) : Proc σ ε α := attempt (fun s => .ok (f s, s))

def query (f : σ → Except ε α) : Proc σ ε α := attempt (fun s => (f s).map (·, s))

def write (f : σ → σ) : Proc σ ε Unit := attempt (fun s => .ok ((), f s))

/-- A value that is already there, or the error it stands for. -/
def ofExcept : Except ε α → Proc σ ε α
  | .ok a => ret a
  | .error e => raise e

/-- `try: p except Exception: pass`. -/
def suppress : Proc σ ε Unit → Proc σ ε Unit
  | ret a => ret a
  | raise _ => ret ()
  | act eff k => act eff (fun s => (k s).suppress)

/-- `try: p except e: handler e`. -/
def rescue : Proc σ ε α → (ε → Proc σ ε α) → Proc σ ε α
  | ret a, _ => ret a
  | raise e, handler => handler e
  | act eff k, handler => act eff (fun s => (k s).rescue handler)

theorem bind_assoc {γ : Type} (p : Proc σ ε α) (f : α → Proc σ ε β) (g : β → Proc σ ε γ) :
    (p >>= f) >>= g = p >>= fun a => f a >>= g := by
  induction p with
  | ret a => rfl
  | raise e => rfl
  | act eff k ih => exact congrArg (act eff) (funext ih)

/-! ## A request that runs alone -/

/-- The result and the last state of a program that nothing interrupts. -/
def run : Proc σ ε α → σ → Except ε α × σ
  | ret a, s => (.ok a, s)
  | raise e, s => (.error e, s)
  | act eff k, s => (k s).run (eff s)

/-- The states that a program goes through, the first and the last included:
where a crash can leave the system. -/
def trace : Proc σ ε α → σ → List σ
  | ret _, s => [s]
  | raise _, s => [s]
  | act eff k, s => s :: (k s).trace (eff s)

@[simp] theorem run_pure (a : α) (s : σ) : (pure a : Proc σ ε α).run s = (.ok a, s) := rfl

@[simp] theorem run_ret (a : α) (s : σ) : (ret a : Proc σ ε α).run s = (.ok a, s) := rfl

@[simp] theorem run_raise (e : ε) (s : σ) : (raise e : Proc σ ε α).run s = (.error e, s) := rfl

@[simp] theorem run_ofExcept (x : Except ε α) (s : σ) :
    (ofExcept x : Proc σ ε α).run s = (x, s) := by
  cases x <;> rfl

theorem run_bind (p : Proc σ ε α) (f : α → Proc σ ε β) (s : σ) :
    (p >>= f).run s = match p.run s with
      | (.ok a, s') => (f a).run s'
      | (.error e, s') => (.error e, s') := by
  induction p generalizing s with
  | ret a => rfl
  | raise e => rfl
  | act eff k ih => exact ih s (eff s)

theorem run_attempt (f : σ → Except ε (α × σ)) (s : σ) :
    (attempt f).run s = match f s with
      | .ok (a, s') => (.ok a, s')
      | .error e => (.error e, s) := by
  simp only [attempt, run]
  rcases f s with e | ⟨a, s'⟩ <;> rfl

@[simp] theorem run_query (f : σ → Except ε α) (s : σ) : (query f).run s = (f s, s) := by
  simp only [query, run_attempt]
  cases f s <;> rfl

theorem run_read (f : σ → α) (s : σ) : (read f : Proc σ ε α).run s = (.ok (f s), s) := rfl

@[simp] theorem run_write (f : σ → σ) (s : σ) :
    (write f : Proc σ ε Unit).run s = (.ok (), f s) := rfl

@[simp] theorem run_suppress (p : Proc σ ε Unit) (s : σ) :
    p.suppress.run s = (.ok (), (p.run s).2) := by
  induction p generalizing s with
  | ret a => rfl
  | raise e => rfl
  | act eff k ih => exact ih s (eff s)

theorem run_rescue (p : Proc σ ε α) (handler : ε → Proc σ ε α) (s : σ) :
    (p.rescue handler).run s = match p.run s with
      | (.ok a, s') => (.ok a, s')
      | (.error e, s') => (handler e).run s' := by
  induction p generalizing s with
  | ret a => rfl
  | raise e => rfl
  | act eff k ih => exact ih s (eff s)

/-- A program that goes on after `p` did well. -/
theorem run_bind_ok {p : Proc σ ε α} {s s' : σ} {a : α} (h : p.run s = (.ok a, s'))
    (f : α → Proc σ ε β) : (p >>= f).run s = (f a).run s' := by
  rw [run_bind, h]

theorem run_bind_error {p : Proc σ ε α} {s s' : σ} {e : ε} (h : p.run s = (.error e, s'))
    (f : α → Proc σ ε β) : (p >>= f).run s = (.error e, s') := by
  rw [run_bind, h]

/-- A change of the result leaves the last state. -/
theorem run_map_snd (p : Proc σ ε α) (f : α → β) (s : σ) :
    ((p >>= fun a => pure (f a)).run s).2 = (p.run s).2 := by
  rw [run_bind]
  rcases p.run s with ⟨e | a, s'⟩ <;> rfl

/-- Both parts of a program that returned have done well. -/
theorem run_bind_ok_inv {p : Proc σ ε α} {f : α → Proc σ ε β} {s s' : σ} {b : β}
    (h : (p >>= f).run s = (.ok b, s')) :
    ∃ a s₁, p.run s = (.ok a, s₁) ∧ (f a).run s₁ = (.ok b, s') := by
  rw [run_bind] at h
  rcases hp : p.run s with ⟨e | a, s₁⟩
  · rw [hp] at h
    cases h
  · rw [hp] at h
    exact ⟨a, s₁, rfl, h⟩

/-! ## The states on the way -/

theorem start_mem_trace (p : Proc σ ε α) (s : σ) : s ∈ p.trace s := by
  cases p <;> simp [trace]

theorem end_mem_trace (p : Proc σ ε α) (s : σ) : (p.run s).2 ∈ p.trace s := by
  induction p generalizing s with
  | ret a => simp [trace]
  | raise e => simp [trace]
  | act eff k ih => exact List.mem_cons_of_mem _ (ih s (eff s))

/-- A crash in `p >>= f` falls in `p`, or in `f` after `p` did well. -/
theorem mem_trace_bind (p : Proc σ ε α) (f : α → Proc σ ε β) (s t : σ) :
    t ∈ (p >>= f).trace s ↔
      t ∈ p.trace s ∨ ∃ a s', p.run s = (.ok a, s') ∧ t ∈ (f a).trace s' := by
  induction p generalizing s with
  | ret a =>
    constructor
    · intro h
      exact Or.inr ⟨a, s, rfl, h⟩
    · rintro (h | ⟨b, s', hr, ht⟩)
      · simp only [trace, List.mem_singleton] at h
        subst h
        exact start_mem_trace _ t
      · cases hr
        exact ht
  | raise e =>
    constructor
    · intro h
      exact Or.inl h
    · rintro (h | ⟨b, s', hr, _⟩)
      · exact h
      · cases hr
  | act eff k ih =>
    have hs := ih s (eff s)
    change t ∈ s :: ((k s) >>= f).trace (eff s) ↔ _
    rw [List.mem_cons, hs]
    simp only [trace, run, List.mem_cons, or_assoc]

@[simp] theorem trace_suppress (p : Proc σ ε Unit) (s : σ) :
    p.suppress.trace s = p.trace s := by
  induction p generalizing s with
  | ret a => rfl
  | raise e => rfl
  | act eff k ih => exact congrArg (s :: ·) (ih s (eff s))

theorem mem_trace_attempt (f : σ → Except ε (α × σ)) (s t : σ) :
    t ∈ (attempt f).trace s ↔ t = s ∨ t = ((attempt f).run s).2 := by
  simp only [attempt, trace, run, List.mem_cons]
  rcases f s with e | ⟨a, s'⟩ <;> simp [trace, run]

@[simp] theorem trace_read (f : σ → α) (s t : σ) :
    t ∈ (read f : Proc σ ε α).trace s ↔ t = s := by
  simp [read, mem_trace_attempt, run_attempt]

@[simp] theorem trace_query (f : σ → Except ε α) (s t : σ) :
    t ∈ (query f).trace s ↔ t = s := by
  rw [query, mem_trace_attempt, ← query, run_query]
  simp

@[simp] theorem trace_write (f : σ → σ) (s t : σ) :
    t ∈ (write f : Proc σ ε Unit).trace s ↔ t = s ∨ t = f s := by
  rw [write, mem_trace_attempt, ← write, run_write]

@[simp] theorem trace_ofExcept (x : Except ε α) (s t : σ) :
    t ∈ (ofExcept x : Proc σ ε α).trace s ↔ t = s := by
  cases x <;> simp [ofExcept, trace]

@[simp] theorem trace_pure (a : α) (s t : σ) :
    t ∈ (pure a : Proc σ ε α).trace s ↔ t = s := by
  change t ∈ [s] ↔ _
  simp

@[simp] theorem trace_raise (e : ε) (s t : σ) :
    t ∈ (raise e : Proc σ ε α).trace s ↔ t = s := by
  simp [trace]

/-! ## What holds along a run -/

/-- Wherever the run from `s` is cut short, `I` holds of the state it leaves;
run to its end, it leaves a result and a state with `Q`. -/
def Along (I : σ → Prop) (Q : Except ε α → σ → Prop) (p : Proc σ ε α) (s : σ) : Prop :=
  (∀ t ∈ p.trace s, I t) ∧ Q (p.run s).1 (p.run s).2

section Along

variable {I I' : σ → Prop} {s : σ}

theorem Along.start {Q : Except ε α → σ → Prop} {p : Proc σ ε α} (h : p.Along I Q s) : I s :=
  h.1 s (start_mem_trace p s)

theorem Along.mono {Q Q' : Except ε α → σ → Prop} {p : Proc σ ε α} (h : p.Along I Q s)
    (hI : ∀ t, I t → I' t) (hQ : ∀ r t, Q r t → Q' r t) : p.Along I' Q' s :=
  ⟨fun t ht => hI t (h.1 t ht), hQ _ _ h.2⟩

theorem along_pure {Q : Except ε α → σ → Prop} {a : α} :
    (pure a : Proc σ ε α).Along I Q s ↔ I s ∧ Q (.ok a) s := by
  simp [Along]

theorem along_raise {Q : Except ε α → σ → Prop} {e : ε} :
    (raise e : Proc σ ε α).Along I Q s ↔ I s ∧ Q (.error e) s := by
  simp [Along]

/-- The rule of composition: the second program starts where the first ends. -/
theorem along_bind {Q : Except ε β → σ → Prop} {p : Proc σ ε α} {f : α → Proc σ ε β} :
    (p >>= f).Along I Q s ↔ p.Along I (fun r s' => match r with
      | .ok a => (f a).Along I Q s'
      | .error e => Q (.error e) s') s := by
  simp only [Along, mem_trace_bind, run_bind]
  rcases hr : p.run s with ⟨e | a, s'⟩
  · simp
  · constructor
    · rintro ⟨h, hq⟩
      exact ⟨fun t ht => h t (Or.inl ht), fun t ht => h t (Or.inr ⟨a, s', rfl, ht⟩), hq⟩
    · rintro ⟨h, h', hq⟩
      refine ⟨?_, hq⟩
      rintro t (ht | ⟨b, s'', hb, ht⟩)
      · exact h t ht
      · cases hb
        exact h' t ht

/-- A program that commits at most once: a crash leaves the state before the
commit or the state after it. -/
def Commits (p : Proc σ ε α) : Prop := ∀ s, ∀ t ∈ p.trace s, t = s ∨ t = (p.run s).2

theorem commits_attempt (f : σ → Except ε (α × σ)) : (attempt f).Commits :=
  fun s t ht => (mem_trace_attempt f s t).mp ht

theorem commits_write (f : σ → σ) : (write f : Proc σ ε Unit).Commits :=
  fun s t ht => (trace_write f s t).mp ht

theorem commits_pure (a : α) : (pure a : Proc σ ε α).Commits :=
  fun s t ht => Or.inl ((trace_pure a s t).mp ht)

theorem commits_raise (e : ε) : (raise e : Proc σ ε α).Commits :=
  fun s t ht => Or.inl ((trace_raise e s t).mp ht)

/-- A program that only reads leaves the state. -/
def Reads (p : Proc σ ε α) : Prop := ∀ s, ∀ t ∈ p.trace s, t = s

theorem Reads.run {p : Proc σ ε α} (h : p.Reads) (s : σ) : (p.run s).2 = s :=
  h s _ (end_mem_trace p s)

theorem reads_query (f : σ → Except ε α) : (query f).Reads :=
  fun s t ht => (trace_query f s t).mp ht

theorem reads_read (f : σ → α) : (read f : Proc σ ε α).Reads :=
  fun s t ht => (trace_read f s t).mp ht

theorem reads_pure (a : α) : (pure a : Proc σ ε α).Reads :=
  fun s t ht => (trace_pure a s t).mp ht

theorem reads_ofExcept (x : Except ε α) : (ofExcept x : Proc σ ε α).Reads :=
  fun s t ht => (trace_ofExcept x s t).mp ht

theorem Reads.bind {p : Proc σ ε α} {f : α → Proc σ ε β} (hp : p.Reads)
    (hf : ∀ a, (f a).Reads) : (p >>= f).Reads := by
  intro s t ht
  rcases (mem_trace_bind p f s t).mp ht with ht | ⟨a, s', hr, ht⟩
  · exact hp s t ht
  · have hs := hp.run s
    rw [hr] at hs
    exact (hf a s' t ht).trans hs

/-- A crash after a read that did well is a crash in what follows it. -/
theorem Reads.trace_bind {p : Proc σ ε α} {s : σ} {a : α} (h : p.Reads)
    (hr : p.run s = (.ok a, s)) (f : α → Proc σ ε β) (t : σ) :
    t ∈ (p >>= f).trace s ↔ t ∈ (f a).trace s := by
  rw [mem_trace_bind, hr]
  constructor
  · rintro (ht | ⟨b, s', hb, ht⟩)
    · rw [h s t ht]
      exact start_mem_trace _ s
    · cases hb
      exact ht
  · intro ht
    exact Or.inr ⟨a, s, rfl, ht⟩

theorem Reads.commits {p : Proc σ ε α} (h : p.Reads) : p.Commits :=
  fun s t ht => Or.inl (h s t ht)

/-- Two programs, of which only one commits in any run. -/
theorem Commits.bind {p : Proc σ ε α} {f : α → Proc σ ε β} (hp : p.Commits)
    (hf : ∀ s a s', p.run s = (.ok a, s') → s' = s ∧ (f a).Commits ∨ (f a).Reads) :
    (p >>= f).Commits := by
  intro s t ht
  rw [run_bind]
  rcases (mem_trace_bind p f s t).mp ht with htp | ⟨a, s', hr, htf⟩
  · rcases hp s t htp with rfl | rfl
    · exact Or.inl rfl
    · rcases hr : p.run s with ⟨e | a, s'⟩
      · exact Or.inr rfl
      · rcases hf s a s' hr with ⟨hs, _⟩ | hreads
        · exact Or.inl hs
        · exact Or.inr (hreads.run s').symm
  · rw [hr]
    rcases hf s a s' hr with ⟨hs, hc⟩ | hreads
    · subst hs
      exact hc s' t htf
    · exact Or.inr ((hreads s' t htf).trans (hreads.run s').symm)

/-- Reads before the commit. -/
theorem Commits.after_reads {p : Proc σ ε α} {f : α → Proc σ ε β} (hp : p.Reads)
    (hf : ∀ a, (f a).Commits) : (p >>= f).Commits := by
  apply hp.commits.bind
  intro s a s' hr
  have hs := hp.run s
  rw [hr] at hs
  exact Or.inl ⟨hs, hf a⟩

/-- Reads after the commit. -/
theorem Commits.before_reads {p : Proc σ ε α} {f : α → Proc σ ε β} (hp : p.Commits)
    (hf : ∀ a, (f a).Reads) : (p >>= f).Commits :=
  hp.bind fun _ a _ _ => Or.inr (hf a)

theorem Commits.along {Q : Except ε α → σ → Prop} {p : Proc σ ε α} (h : p.Commits) :
    p.Along I Q s ↔ I s ∧ I (p.run s).2 ∧ Q (p.run s).1 (p.run s).2 := by
  constructor
  · intro ha
    exact ⟨ha.start, ha.1 _ (end_mem_trace p s), ha.2⟩
  · rintro ⟨hs, he, hq⟩
    refine ⟨fun t ht => ?_, hq⟩
    rcases h s t ht with rfl | rfl
    · exact hs
    · exact he

theorem Reads.along {Q : Except ε α → σ → Prop} {p : Proc σ ε α} (h : p.Reads) :
    p.Along I Q s ↔ I s ∧ Q (p.run s).1 s := by
  rw [h.commits.along, h.run]
  exact ⟨fun ⟨hs, _, hq⟩ => ⟨hs, hq⟩, fun ⟨hs, hq⟩ => ⟨hs, hs, hq⟩⟩

/-- A read, and what follows it in the same state. -/
theorem Reads.along_bind {Q : Except ε β → σ → Prop} {p : Proc σ ε α} {f : α → Proc σ ε β}
    (h : p.Reads) : (p >>= f).Along I Q s ↔ I s ∧ match (p.run s).1 with
      | .ok a => (f a).Along I Q s
      | .error e => Q (.error e) s := by
  rw [Proc.along_bind, h.along]

/-- A commit, and what follows it in the state it leaves. -/
theorem Commits.along_bind {Q : Except ε β → σ → Prop} {p : Proc σ ε α} {f : α → Proc σ ε β}
    (h : p.Commits) : (p >>= f).Along I Q s ↔ I s ∧ I (p.run s).2 ∧ match (p.run s).1 with
      | .ok a => (f a).Along I Q (p.run s).2
      | .error e => Q (.error e) (p.run s).2 := by
  rw [Proc.along_bind, h.along]

end Along

/-- The state that a crash after `n` acts leaves. -/
def cut : Nat → Proc σ ε α → σ → σ
  | 0, _, s => s
  | _ + 1, ret _, s => s
  | _ + 1, raise _, s => s
  | n + 1, act eff k, s => (k s).cut n (eff s)

theorem cut_mem_trace (n : Nat) (p : Proc σ ε α) (s : σ) : p.cut n s ∈ p.trace s := by
  induction n generalizing p s with
  | zero =>
    unfold cut
    exact start_mem_trace p s
  | succ n ih =>
    cases p with
    | ret a => simp [cut, trace]
    | raise e => simp [cut, trace]
    | act eff k => exact List.mem_cons_of_mem _ (ih (k s) (eff s))

/-! ## What the acts of a program can do -/

/-- Every act of the program, in whatever state it runs, is a step of `R`. -/
def Acts (R : σ → σ → Prop) : Proc σ ε α → Prop
  | ret _ => True
  | raise _ => True
  | act eff k => ∀ s, R s (eff s) ∧ (k s).Acts R

theorem Acts.bind {R : σ → σ → Prop} {p : Proc σ ε α} {f : α → Proc σ ε β}
    (hp : p.Acts R) (hf : ∀ a, (f a).Acts R) : (p >>= f).Acts R := by
  induction p with
  | ret a => exact hf a
  | raise e => trivial
  | act eff k ih => exact fun s => ⟨(hp s).1, ih s (hp s).2⟩

theorem Acts.attempt {R : σ → σ → Prop} {f : σ → Except ε (α × σ)} (hrefl : ∀ s, R s s)
    (h : ∀ s a s', f s = .ok (a, s') → R s s') : (attempt f).Acts R := by
  intro s
  rcases hf : f s with e | ⟨a, s'⟩
  · simp only [hf]
    exact ⟨hrefl s, trivial⟩
  · simp only [hf]
    exact ⟨h s a s' hf, trivial⟩

theorem Acts.read {R : σ → σ → Prop} {f : σ → α} (hrefl : ∀ s, R s s) :
    (read f : Proc σ ε α).Acts R :=
  Acts.attempt hrefl (fun s _ _ h => by cases h; exact hrefl s)

theorem Acts.query {R : σ → σ → Prop} {f : σ → Except ε α} (hrefl : ∀ s, R s s) :
    (query f).Acts R := by
  apply Acts.attempt hrefl
  intro s a s' h
  obtain ⟨b, _, hb⟩ := map_eq_ok h
  cases hb
  exact hrefl s

/-- What follows a query, for the values that the query can give. -/
theorem Acts.query_bind {R : σ → σ → Prop} {f : σ → Except ε α} {g : α → Proc σ ε β}
    (hrefl : ∀ s, R s s) (h : ∀ s a, f s = .ok a → (g a).Acts R) :
    (Proc.query f >>= g).Acts R := by
  intro s
  rcases hf : f s with e | a
  · simp only [hf, Except.map]
    exact ⟨hrefl s, trivial⟩
  · simp only [hf, Except.map]
    exact ⟨hrefl s, h s a hf⟩

theorem Acts.write {R : σ → σ → Prop} {f : σ → σ} (hrefl : ∀ s, R s s) (h : ∀ s, R s (f s)) :
    (write f : Proc σ ε Unit).Acts R :=
  Acts.attempt hrefl (fun s _ _ he => by cases he; exact h s)

theorem Acts.ofExcept {R : σ → σ → Prop} (x : Except ε α) :
    (ofExcept x : Proc σ ε α).Acts R := by
  cases x <;> trivial

theorem Acts.suppress {R : σ → σ → Prop} {p : Proc σ ε Unit} (h : p.Acts R) :
    p.suppress.Acts R := by
  induction p with
  | ret a => trivial
  | raise e => trivial
  | act eff k ih => exact fun s => ⟨(h s).1, ih s (h s).2⟩

theorem Acts.rescue {R : σ → σ → Prop} {p : Proc σ ε α} {handler : ε → Proc σ ε α}
    (h : p.Acts R) (hh : ∀ e, (handler e).Acts R) : (p.rescue handler).Acts R := by
  induction p with
  | ret a => trivial
  | raise e => exact hh e
  | act eff k ih => exact fun s => ⟨(h s).1, ih s (h s).2⟩

theorem Acts.mono {R R' : σ → σ → Prop} {p : Proc σ ε α} (h : p.Acts R)
    (hm : ∀ s s', R s s' → R' s s') : p.Acts R' := by
  induction p with
  | ret a => trivial
  | raise e => trivial
  | act eff k ih => exact fun s => ⟨hm _ _ (h s).1, ih s (h s).2⟩

/-- What each act keeps, holds wherever the run is cut short. -/
theorem Acts.along {R : σ → σ → Prop} {I : σ → Prop} {p : Proc σ ε α} (h : p.Acts R)
    (hI : ∀ a b, I a → R a b → I b) {s : σ} (hs : I s) : p.Along I (fun _ t => I t) s := by
  induction p generalizing s with
  | ret a => exact along_pure.mpr ⟨hs, hs⟩
  | raise e => exact along_raise.mpr ⟨hs, hs⟩
  | act eff k ih =>
    obtain ⟨htr, hq⟩ := ih s (h s).2 (hI _ _ hs (h s).1)
    refine ⟨fun t ht => ?_, hq⟩
    rcases List.mem_cons.mp ht with rfl | ht
    · exact hs
    · exact htr t ht

/-- What each act keeps, a run that nothing interrupts keeps. -/
theorem Acts.run_keeps {R : σ → σ → Prop} {p : Proc σ ε α} (h : p.Acts R) (hrefl : ∀ s, R s s)
    (htrans : ∀ a b c, R a b → R b c → R a c) (s : σ) : R s (p.run s).2 := by
  induction p generalizing s with
  | ret a => exact hrefl s
  | raise e => exact hrefl s
  | act eff k ih => exact htrans _ _ _ (h s).1 (ih s (h s).2 (eff s))

/-- Every way through the program takes acts of `A`, and then fails or goes on
as a program of `T`. -/
def Leads (A : σ → σ → Prop) (T : Proc σ ε α → Prop) : Proc σ ε α → Prop
  | ret a => T (ret a)
  | raise _ => True
  | act eff k => T (act eff k) ∨ ∀ s, A s (eff s) ∧ (k s).Leads A T

theorem Leads.of {A : σ → σ → Prop} {T : Proc σ ε α → Prop} {p : Proc σ ε α} (h : T p) :
    p.Leads A T := by
  cases p with
  | ret a => exact h
  | raise e => trivial
  | act eff k => exact Or.inl h

theorem Leads.bind {A : σ → σ → Prop} {T : Proc σ ε β → Prop} {p : Proc σ ε α}
    {f : α → Proc σ ε β} (hp : p.Acts A) (hf : ∀ a, (f a).Leads A T) : (p >>= f).Leads A T := by
  induction p with
  | ret a => exact hf a
  | raise e => trivial
  | act eff k ih => exact Or.inr fun s => ⟨(hp s).1, ih s (hp s).2⟩

/-! ## Programs that see a part of the state -/

/-- On its way from `s` the program does in `F s` what it does in `s`: each act
reads the same there and writes the same. -/
def Follows (F : σ → σ) : Proc σ ε α → σ → Prop
  | ret _, _ => True
  | raise _, _ => True
  | act eff k, s => eff (F s) = F (eff s) ∧ k (F s) = k s ∧ (k s).Follows F (eff s)

section Follows

variable {F : σ → σ} {s : σ}

theorem Follows.run {p : Proc σ ε α} (h : p.Follows F s) :
    p.run (F s) = ((p.run s).1, F (p.run s).2) := by
  induction p generalizing s with
  | ret a => rfl
  | raise e => rfl
  | act eff k ih =>
    obtain ⟨heff, hk, hrest⟩ := h
    simp only [Proc.run, heff, hk]
    exact ih s hrest

theorem Follows.cut {p : Proc σ ε α} (h : p.Follows F s) (n : Nat) :
    p.cut n (F s) = F (p.cut n s) := by
  induction n generalizing p s with
  | zero => simp [Proc.cut]
  | succ n ih =>
    cases p with
    | ret a => rfl
    | raise e => rfl
    | act eff k =>
      obtain ⟨heff, hk, hrest⟩ := h
      simp only [Proc.cut, heff, hk]
      exact ih hrest

theorem Follows.bind {p : Proc σ ε α} {f : α → Proc σ ε β} (hp : p.Follows F s)
    (hf : ∀ a t, p.run s = (.ok a, t) → (f a).Follows F t) : (p >>= f).Follows F s := by
  induction p generalizing s with
  | ret a => exact hf a s rfl
  | raise e => trivial
  | act eff k ih =>
    obtain ⟨heff, hk, hrest⟩ := hp
    exact ⟨heff, congrArg (fun q => q.bind f) hk, ih s hrest fun a t ht => hf a t ht⟩

theorem follows_attempt {f : σ → Except ε (α × σ)}
    (h : f (F s) = (f s).map fun at' => (at'.1, F at'.2)) : (attempt f).Follows F s := by
  unfold attempt Follows
  simp only [h]
  rcases f s with e | ⟨a, s'⟩
  · exact ⟨rfl, rfl, trivial⟩
  · exact ⟨rfl, rfl, trivial⟩

/-- A computation that may fail, and what is stored of its value. -/
theorem follows_attempt_map {f : σ → Except ε β} {g : σ → β → α × σ} (hf : f (F s) = f s)
    (hg : ∀ b, g (F s) b = ((g s b).1, F (g s b).2)) :
    (attempt fun s => (f s).map (g s)).Follows F s := by
  apply follows_attempt
  rw [hf]
  rcases f s with e | b
  · rfl
  · simp only [Except.map, hg]

theorem follows_query {f : σ → Except ε α} (h : f (F s) = f s) : (query f).Follows F s := by
  apply follows_attempt
  rw [h]
  rcases f s with e | a <;> rfl

theorem follows_read {f : σ → α} (h : f (F s) = f s) : (read f : Proc σ ε α).Follows F s := by
  apply follows_attempt
  rw [h]
  rfl

theorem follows_write {f : σ → σ} (h : f (F s) = F (f s)) :
    (write f : Proc σ ε Unit).Follows F s := by
  apply follows_attempt
  rw [h]
  rfl

theorem follows_ofExcept (x : Except ε α) : (ofExcept x).Follows F s := by
  cases x <;> trivial

theorem Follows.suppress {p : Proc σ ε Unit} (h : p.Follows F s) : p.suppress.Follows F s := by
  induction p generalizing s with
  | ret a => trivial
  | raise e => trivial
  | act eff k ih =>
    obtain ⟨heff, hk, hrest⟩ := h
    exact ⟨heff, congrArg Proc.suppress hk, ih s hrest⟩

end Follows

/-! ## What a program can fail with -/

/-- Every error that the program can end in, from whatever states its acts see,
is one of `E`. -/
def Raises (E : ε → Prop) : Proc σ ε α → Prop
  | ret _ => True
  | raise e => E e
  | act _ k => ∀ s, (k s).Raises E

section Raises

variable {E : ε → Prop}

theorem Raises.bind {p : Proc σ ε α} {f : α → Proc σ ε β} (hp : p.Raises E)
    (hf : ∀ a, (f a).Raises E) : (p >>= f).Raises E := by
  induction p with
  | ret a => exact hf a
  | raise e => exact hp
  | act eff k ih => exact fun s => ih s (hp s)

theorem Raises.attempt {f : σ → Except ε (α × σ)} (h : ∀ s e, f s = .error e → E e) :
    (attempt f).Raises E := by
  intro s
  rcases hf : f s with e | ⟨a, s'⟩
  · simp only [hf]
    exact h s e hf
  · simp only [hf]
    trivial

theorem Raises.query {f : σ → Except ε α} (h : ∀ s e, f s = .error e → E e) :
    (query f).Raises E := by
  apply Raises.attempt
  intro s e he
  rcases hf : f s with e' | a
  · rw [hf] at he
    cases he
    exact h s e hf
  · rw [hf] at he
    cases he

theorem Raises.read (f : σ → α) : (read f : Proc σ ε α).Raises E :=
  Raises.attempt fun _ _ h => by cases h

theorem Raises.write (f : σ → σ) : (write f : Proc σ ε Unit).Raises E :=
  Raises.attempt fun _ _ h => by cases h

theorem Raises.ofExcept {x : Except ε α} (h : ∀ e, x = .error e → E e) :
    (ofExcept x : Proc σ ε α).Raises E := by
  cases x with
  | ok a => trivial
  | error e => exact h e rfl

theorem Raises.run {p : Proc σ ε α} (h : p.Raises E) {s : σ} {e : ε}
    (hr : (p.run s).1 = .error e) : E e := by
  induction p generalizing s with
  | ret a => cases hr
  | raise e' =>
    cases hr
    exact h
  | act eff k ih => exact ih s (h s) hr

end Raises

/-! ## Results among other requests -/

/-- A result that a program can have, whatever others do to the state between its
acts. -/
def Yields (r : Except ε α) : Proc σ ε α → Prop
  | ret a => r = .ok a
  | raise e => r = .error e
  | act _ k => ∃ s, Yields r (k s)

theorem Yields.of_run (p : Proc σ ε α) (s : σ) : p.Yields (p.run s).1 := by
  induction p generalizing s with
  | ret a => rfl
  | raise e => rfl
  | act eff k ih => exact ⟨s, ih s (eff s)⟩

/-- Both parts of a program that returned have done well. -/
theorem Yields.bind_ok {p : Proc σ ε α} {f : α → Proc σ ε β} {b : β}
    (h : (p >>= f).Yields (.ok b)) : ∃ a, p.Yields (.ok a) ∧ (f a).Yields (.ok b) := by
  induction p with
  | ret a => exact ⟨a, rfl, h⟩
  | raise e => cases h
  | act eff k ih =>
    obtain ⟨s, hs⟩ := h
    obtain ⟨a, ha, hb⟩ := ih s hs
    exact ⟨a, ⟨s, ha⟩, hb⟩

/-! ## Requests side by side -/

/-- The next act of a program, and what is left of it. A program that has
returned or failed takes no more acts. -/
def step : Proc σ ε α → σ → Proc σ ε α × σ
  | ret a, s => (ret a, s)
  | raise e, s => (raise e, s)
  | act eff k, s => (k s, eff s)

end Proc

/-- The requests that are being served, and the state they share. -/
abbrev Pool (σ ε α : Type) := List (Proc σ ε α) × σ

namespace Pool

variable {σ ε α : Type}

/-- The scheduler lets request `i` take its next act. -/
def step (c : Pool σ ε α) (i : Nat) : Pool σ ε α :=
  match c.1[i]? with
  | none => c
  | some p => (c.1.set i (p.step c.2).1, (p.step c.2).2)

/-- The requests take acts in the order of the schedule. -/
def run (c : Pool σ ε α) (schedule : List Nat) : Pool σ ε α := schedule.foldl step c

theorem step_none {c : Pool σ ε α} {i : Nat} (h : c.1[i]? = none) : step c i = c := by
  simp [step, h]

theorem step_some {c : Pool σ ε α} {i : Nat} {p : Proc σ ε α} (h : c.1[i]? = some p) :
    step c i = (c.1.set i (p.step c.2).1, (p.step c.2).2) := by
  simp [step, h]

end Pool

end async
