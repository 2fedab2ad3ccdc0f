-- What one request sees under a schedule: the states in which it takes its
-- acts. They settle what is left of it, whatever the others do.
import SaasBackend.Proc

namespace async

namespace Proc

variable {σ ε α β γ : Type}

/-- What is left of a program that has taken its acts in these states. -/
def after (p : Proc σ ε α) (states : List σ) : Proc σ ε α :=
  states.foldl (fun p s => (p.step s).1) p

@[simp] theorem after_nil (p : Proc σ ε α) : p.after [] = p := rfl

@[simp] theorem after_cons (p : Proc σ ε α) (s : σ) (states : List σ) :
    p.after (s :: states) = (p.step s).1.after states := rfl

theorem after_raise (e : ε) (states : List σ) : (raise e : Proc σ ε α).after states = raise e := by
  induction states with
  | nil => rfl
  | cons s states ih => exact ih

theorem after_raise_ne (e : ε) (a : α) (states : List σ) :
    (raise e : Proc σ ε α).after states ≠ ret a := by
  rw [after_raise]
  intro h
  cases h

/-- A change of the result takes no act. -/
theorem after_map (p : Proc σ ε α) (f : α → β) (states : List σ) :
    (p >>= fun a => pure (f a)).after states = p.after states >>= fun a => pure (f a) := by
  induction states generalizing p with
  | nil => rfl
  | cons s states ih =>
    cases p with
    | ret a => exact ih (ret a)
    | raise e => exact ih (raise e)
    | act eff k => exact ih (k s)

theorem after_map_ret {p : Proc σ ε α} {f : α → β} {states : List σ} {b : β}
    (h : (p >>= fun a => pure (f a)).after states = ret b) :
    ∃ a, p.after states = ret a ∧ f a = b := by
  rw [after_map] at h
  rcases hp : p.after states with a | e | ⟨eff, k⟩
  · rw [hp] at h
    exact ⟨a, rfl, ret.inj h⟩
  · rw [hp] at h
    cases h
  · rw [hp] at h
    cases h

/-- An act that does well, and what follows it. -/
theorem after_attempt {f : σ → Except ε (α × σ)} {s s' : σ} {a : α} (h : f s = .ok (a, s'))
    (g : α → Proc σ ε β) (states : List σ) :
    (attempt f >>= g).after (s :: states) = (g a).after states := by
  have hstep : ((attempt f >>= g).step s).1 = g a := by
    change (((attempt f).bind g).step s).1 = g a
    simp only [attempt, bind, step, h]
  rw [after_cons, hstep]

theorem after_attempt_error {f : σ → Except ε (α × σ)} {s : σ} {e : ε} (h : f s = .error e)
    (g : α → Proc σ ε β) (states : List σ) :
    (attempt f >>= g).after (s :: states) = raise e := by
  have hstep : ((attempt f >>= g).step s).1 = raise e := by
    change (((attempt f).bind g).step s).1 = raise e
    simp only [attempt, bind, step, h]
  rw [after_cons, hstep, after_raise]

/-- A program that has returned has taken its first act, and that did well. -/
theorem after_attempt_ret {f : σ → Except ε (α × σ)} {g : α → Proc σ ε β} {states : List σ}
    {b : β} (h : (attempt f >>= g).after states = ret b) :
    ∃ s rest a s', states = s :: rest ∧ f s = .ok (a, s') ∧ (g a).after rest = ret b := by
  cases states with
  | nil => cases h
  | cons s rest =>
    rcases hf : f s with e | ⟨a, s'⟩
    · rw [after_attempt_error hf] at h
      cases h
    · rw [after_attempt hf] at h
      exact ⟨s, rest, a, s', rfl, hf, h⟩

/-- A read that cannot fail, and what follows it. -/
theorem after_read (f : σ → α) (s : σ) (g : α → Proc σ ε β) (states : List σ) :
    (read f >>= g).after (s :: states) = (g (f s)).after states :=
  after_attempt (rfl : (.ok (f s, s) : Except ε (α × σ)) = .ok (f s, s)) g states

theorem after_read_ret {f : σ → α} {g : α → Proc σ ε β} {states : List σ} {b : β}
    (h : (read f >>= g).after states = ret b) :
    ∃ s rest, states = s :: rest ∧ (g (f s)).after rest = ret b := by
  obtain ⟨s, rest, a, s', hstates, hf, hrest⟩ := after_attempt_ret h
  cases hf
  exact ⟨s, rest, hstates, hrest⟩

@[simp] theorem step_map (p : Proc σ ε α) (f : α → β) (s : σ) :
    ((p >>= fun a => pure (f a)).step s).2 = (p.step s).2 := by
  cases p <;> rfl

theorem Acts.step {R : σ → σ → Prop} {p : Proc σ ε α} (h : p.Acts R) (hrefl : ∀ s, R s s)
    (s : σ) : (p.step s).1.Acts R ∧ R s (p.step s).2 := by
  cases p with
  | ret a => exact ⟨trivial, hrefl s⟩
  | raise e => exact ⟨trivial, hrefl s⟩
  | act eff k => exact ⟨(h s).2, (h s).1⟩

end Proc

namespace Pool

variable {σ ε α : Type} {c : Pool σ ε α} {i : Nat}

/-- The states in which the schedule lets request `i` take an act. -/
def seen : Pool σ ε α → List Nat → Nat → List σ
  | _, [], _ => []
  | c, k :: schedule, i =>
    if k = i then c.2 :: seen (step c k) schedule i else seen (step c k) schedule i

theorem run_append (c : Pool σ ε α) (schedule rest : List Nat) :
    run c (schedule ++ rest) = run (run c schedule) rest := List.foldl_append

theorem step_get (c : Pool σ ε α) (k i : Nat) :
    (step c k).1[i]? = c.1[i]?.map fun p => if k = i then (p.step c.2).1 else p := by
  rcases hk : c.1[k]? with _ | q
  · rw [step_none hk]
    by_cases h : k = i
    · subst h
      rw [hk]
      rfl
    · simp [h]
  · rw [step_some hk]
    by_cases h : k = i
    · subst h
      rw [List.getElem?_set_self (List.getElem?_eq_some_iff.mp hk).1, hk]
      simp
    · rw [List.getElem?_set_ne h]
      simp [h]

/-- What is left of a request is settled by what it has seen. -/
theorem run_get (c : Pool σ ε α) (schedule : List Nat) (i : Nat) :
    (run c schedule).1[i]? = c.1[i]?.map fun p => p.after (seen c schedule i) := by
  induction schedule generalizing c with
  | nil => simp [run, seen]
  | cons k schedule ih =>
    change (run (step c k) schedule).1[i]? = _
    rw [ih, step_get, Option.map_map]
    congr 1
    funext p
    by_cases h : k = i
    · simp [seen, h]
    · simp [seen, h]

/-- The place in the schedule of an act of request `i`. -/
theorem seen_split {schedule : List Nat} {l₁ l₂ : List σ} {s : σ}
    (h : seen c schedule i = l₁ ++ s :: l₂) :
    ∃ before rest, schedule = before ++ i :: rest ∧ (run c before).2 = s ∧
      seen c before i = l₁ := by
  induction schedule generalizing c l₁ with
  | nil => simp [seen] at h
  | cons k schedule ih =>
    by_cases hk : k = i
    · subst hk
      simp only [seen, if_true] at h
      cases l₁ with
      | nil =>
        rw [List.nil_append, List.cons.injEq] at h
        exact ⟨[], schedule, rfl, h.1, rfl⟩
      | cons a l₁ =>
        rw [List.cons_append, List.cons.injEq] at h
        obtain ⟨before, rest, hs, hrun, hseen⟩ := ih h.2
        refine ⟨k :: before, rest, by rw [hs]; rfl, hrun, ?_⟩
        simp [seen, h.1, ← hseen]
    · simp only [seen, hk, if_false] at h
      obtain ⟨before, rest, hs, hrun, hseen⟩ := ih h
      exact ⟨k :: before, rest, by rw [hs]; rfl, hrun, by simp [seen, hk, hseen]⟩

section

variable {R : σ → σ → Prop} (hrefl : ∀ s, R s s) (htrans : ∀ a b c, R a b → R b c → R a c)

include hrefl in
theorem step_keeps (h : ∀ p ∈ c.1, p.Acts R) (k : Nat) :
    R c.2 (step c k).2 ∧ ∀ p ∈ (step c k).1, p.Acts R := by
  rcases hk : c.1[k]? with _ | q
  · rw [step_none hk]
    exact ⟨hrefl _, h⟩
  · rw [step_some hk]
    have hq := (h q (List.mem_of_getElem? hk)).step hrefl c.2
    refine ⟨hq.2, fun p hp => ?_⟩
    rcases List.mem_or_eq_of_mem_set hp with hp | rfl
    · exact h p hp
    · exact hq.1

include hrefl htrans

/-- What each act of each request keeps, every schedule keeps. -/
theorem run_keeps (h : ∀ p ∈ c.1, p.Acts R) (schedule : List Nat) :
    R c.2 (run c schedule).2 ∧ ∀ p ∈ (run c schedule).1, p.Acts R := by
  induction schedule generalizing c with
  | nil => exact ⟨hrefl _, h⟩
  | cons k schedule ih =>
    obtain ⟨hstep, hp⟩ := step_keeps hrefl h k
    obtain ⟨hr, hp'⟩ := ih hp
    exact ⟨htrans _ _ _ hstep hr, hp'⟩

/-- So it holds between what a request sees first and what it sees later. -/
theorem seen_keeps (h : ∀ p ∈ c.1, p.Acts R) (schedule : List Nat) (i : Nat) :
    (seen c schedule i).Pairwise R ∧ ∀ s ∈ seen c schedule i, R c.2 s := by
  induction schedule generalizing c with
  | nil => exact ⟨.nil, by simp [seen]⟩
  | cons k schedule ih =>
    obtain ⟨hstep, hp⟩ := step_keeps hrefl h k
    obtain ⟨hpair, hfrom⟩ := ih hp
    have hfrom' : ∀ s ∈ seen (step c k) schedule i, R c.2 s :=
      fun s hs => htrans _ _ _ hstep (hfrom s hs)
    unfold seen
    by_cases hk : k = i
    · rw [if_pos hk]
      refine ⟨List.pairwise_cons.mpr ⟨hfrom', hpair⟩, fun s hs => ?_⟩
      rcases List.mem_cons.mp hs with rfl | hs
      · exact hrefl _
      · exact hfrom' s hs
    · rw [if_neg hk]
      exact ⟨hpair, hfrom'⟩

end

end Pool

end async
