-- Programs that are stopped: the state that is left is counted from the end of
-- the program, by the acts that it does not get to.
import SaasBackend.Proc

namespace async

namespace Proc

variable {σ ε α β : Type}

/-- How many acts a program takes when nothing interrupts it. -/
def steps : Proc σ ε α → σ → Nat
  | ret _, _ => 0
  | raise _, _ => 0
  | act eff k, s => (k s).steps (eff s) + 1

/-- The state that is left when `left` acts are missing. -/
def stopped (p : Proc σ ε α) (left : Nat) (s : σ) : σ := p.cut (p.steps s - left) s

theorem cut_zero (p : Proc σ ε α) (s : σ) : p.cut 0 s = s := by
  unfold cut
  rfl

theorem cut_steps (p : Proc σ ε α) (s : σ) : p.cut (p.steps s) s = (p.run s).2 := by
  induction p generalizing s with
  | ret a => rfl
  | raise e => rfl
  | act eff k ih => exact ih s (eff s)

theorem stopped_zero (p : Proc σ ε α) (s : σ) : p.stopped 0 s = (p.run s).2 := cut_steps p s

@[simp] theorem steps_pure (a : α) (s : σ) : (pure a : Proc σ ε α).steps s = 0 := rfl

@[simp] theorem steps_attempt (f : σ → Except ε (α × σ)) (s : σ) : (attempt f).steps s = 1 := by
  rcases hf : f s with e | ⟨a, s'⟩ <;> simp [attempt, steps, hf]

@[simp] theorem steps_read (f : σ → α) (s : σ) : (read f : Proc σ ε α).steps s = 1 :=
  steps_attempt _ s

@[simp] theorem steps_query (f : σ → Except ε α) (s : σ) : (query f).steps s = 1 :=
  steps_attempt _ s

/-- With all acts missing, nothing has happened. -/
theorem stopped_of_le {p : Proc σ ε α} {left : Nat} {s : σ} (h : p.steps s ≤ left) :
    p.stopped left s = s := by
  unfold stopped
  rw [Nat.sub_eq_zero_of_le h, cut_zero]

section

variable {p : Proc σ ε α} {s s' : σ} {a : α} {e : ε} {left : Nat}

/-! ## The parts of a program -/

theorem steps_bind_ok (h : p.run s = (.ok a, s')) (f : α → Proc σ ε β) :
    (p >>= f).steps s = p.steps s + (f a).steps s' := by
  induction p generalizing s with
  | ret b =>
    cases h
    exact (Nat.zero_add _).symm
  | raise e => cases h
  | act eff k ih =>
    have hsteps : ((k s) >>= f).steps (eff s) = (k s).steps (eff s) + (f a).steps s' := ih s h
    change ((k s) >>= f).steps (eff s) + 1 = (k s).steps (eff s) + 1 + (f a).steps s'
    omega

theorem steps_bind_error (h : p.run s = (.error e, s')) (f : α → Proc σ ε β) :
    (p >>= f).steps s = p.steps s := by
  induction p generalizing s with
  | ret b => cases h
  | raise e => rfl
  | act eff k ih => exact congrArg (· + 1) (ih s h)

theorem cut_bind_of_le {n : Nat} (h : n ≤ p.steps s) (f : α → Proc σ ε β) :
    (p >>= f).cut n s = p.cut n s := by
  induction p generalizing s n with
  | ret b =>
    rw [Nat.le_zero.mp h, cut_zero, cut_zero]
  | raise e =>
    rw [Nat.le_zero.mp h, cut_zero, cut_zero]
  | act eff k ih =>
    cases n with
    | zero => rw [cut_zero, cut_zero]
    | succ n => exact ih s (Nat.le_of_succ_le_succ h)

theorem cut_bind_ok (h : p.run s = (.ok a, s')) (f : α → Proc σ ε β) (n : Nat) :
    (p >>= f).cut (p.steps s + n) s = (f a).cut n s' := by
  induction p generalizing s with
  | ret b =>
    cases h
    have hcount : (ret a : Proc σ ε α).steps s' + n = n := Nat.zero_add n
    rw [hcount]
    rfl
  | raise e => cases h
  | act eff k ih =>
    have hcut : ((k s) >>= f).cut ((k s).steps (eff s) + n) (eff s) = (f a).cut n s' := ih s h
    change (act eff fun s => k s >>= f).cut ((k s).steps (eff s) + 1 + n) s = _
    rw [Nat.add_right_comm]
    exact hcut

/-- Stopped in its second part. -/
theorem stopped_bind_late (h : p.run s = (.ok a, s')) {f : α → Proc σ ε β}
    (hleft : left ≤ (f a).steps s') : (p >>= f).stopped left s = (f a).stopped left s' := by
  unfold stopped
  rw [steps_bind_ok h f, Nat.add_sub_assoc hleft, cut_bind_ok h]

/-- Stopped in its first part. -/
theorem stopped_bind_early (h : p.run s = (.ok a, s')) {f : α → Proc σ ε β}
    (hleft : (f a).steps s' ≤ left) :
    (p >>= f).stopped left s = p.stopped (left - (f a).steps s') s := by
  unfold stopped
  have hcount : p.steps s + (f a).steps s' - left = p.steps s - (left - (f a).steps s') := by
    omega
  rw [steps_bind_ok h f, hcount, cut_bind_of_le (Nat.sub_le _ _)]

theorem stopped_bind_error (h : p.run s = (.error e, s')) (f : α → Proc σ ε β) :
    (p >>= f).stopped left s = p.stopped left s := by
  unfold stopped
  rw [steps_bind_error h f, cut_bind_of_le (Nat.sub_le _ _)]

/-- A change of the result takes no act. -/
theorem steps_map (p : Proc σ ε α) (f : α → β) (s : σ) :
    (p >>= fun a => pure (f a)).steps s = p.steps s := by
  rcases hr : p.run s with ⟨e | a, s'⟩
  · exact steps_bind_error hr _
  · rw [steps_bind_ok hr, steps_pure, Nat.add_zero]

theorem stopped_map (p : Proc σ ε α) (f : α → β) (left : Nat) (s : σ) :
    (p >>= fun a => pure (f a)).stopped left s = p.stopped left s := by
  rcases hr : p.run s with ⟨e | a, s'⟩
  · exact stopped_bind_error hr _
  · exact stopped_bind_early hr (Nat.zero_le _)

/-! ## What a stopped program has done -/

theorem Reads.stopped (h : p.Reads) (left : Nat) (s : σ) : p.stopped left s = s :=
  h s _ (cut_mem_trace _ p s)

theorem Acts.cut {R : σ → σ → Prop} (h : p.Acts R) (hrefl : ∀ s, R s s)
    (htrans : ∀ a b c, R a b → R b c → R a c) (n : Nat) (s : σ) : R s (p.cut n s) := by
  induction p generalizing n s with
  | ret b =>
    cases n with
    | zero => exact hrefl s
    | succ n => exact hrefl s
  | raise e =>
    cases n with
    | zero => exact hrefl s
    | succ n => exact hrefl s
  | act eff k ih =>
    cases n with
    | zero => exact hrefl s
    | succ n => exact htrans _ _ _ (h s).1 (ih s (h s).2 n (eff s))

theorem Acts.stopped {R : σ → σ → Prop} (h : p.Acts R) (hrefl : ∀ s, R s s)
    (htrans : ∀ a b c, R a b → R b c → R a c) (left : Nat) (s : σ) : R s (p.stopped left s) :=
  h.cut hrefl htrans _ s

end

end Proc

end async
