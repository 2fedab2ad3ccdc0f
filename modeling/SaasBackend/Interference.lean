-- Programs among other programs: what a request does while the acts of others
-- fall between its own (rely and guarantee), and what then holds of a pool
-- under every schedule.
import SaasBackend.Proc

namespace async

namespace Proc

variable {σ ε α β : Type}

/-- From `s` on, where the others change the state by steps of `R`: every act is
a step of `G`; as long as each own act also meets `C`, it is a step of `R` too,
and the program can only end with `Q`. -/
def Amid (R G C : σ → σ → Prop) (Q : Except ε α → σ → Prop) : Proc σ ε α → σ → Prop
  | ret a, s => ∀ t, R s t → Q (.ok a) t
  | raise e, s => ∀ t, R s t → Q (.error e) t
  | act eff k, s => ∀ t, R s t →
      G t (eff t) ∧ (C t (eff t) → R t (eff t) ∧ (k t).Amid R G C Q (eff t))

/-- The value of a program that has returned. -/
def returned : Proc σ ε α → Option α
  | ret a => some a
  | _ => none

theorem returned_eq_some {p : Proc σ ε α} {a : α} : p.returned = some a ↔ p = ret a := by
  cases p <;> simp [returned]

/-- The others and what they rely on: their steps come in any number. -/
structure Rely (R G : σ → σ → Prop) : Prop where
  refl : ∀ s, R s s
  trans : ∀ a b c, R a b → R b c → R a c
  stay : ∀ s, G s s

section Amid

variable {R G C : σ → σ → Prop} {s t : σ}

theorem Amid.stable (hR : Rely R G) {Q : Except ε α → σ → Prop} {p : Proc σ ε α}
    (h : p.Amid R G C Q s) (hst : R s t) : p.Amid R G C Q t := by
  cases p with
  | ret a => exact fun u hu => h u (hR.trans _ _ _ hst hu)
  | raise e => exact fun u hu => h u (hR.trans _ _ _ hst hu)
  | act eff k => exact fun u hu => h u (hR.trans _ _ _ hst hu)

theorem Amid.mono {Q Q' : Except ε α → σ → Prop} {p : Proc σ ε α} (h : p.Amid R G C Q s)
    (hQ : ∀ r t, Q r t → Q' r t) : p.Amid R G C Q' s := by
  induction p generalizing s with
  | ret a => exact fun t ht => hQ _ _ (h t ht)
  | raise e => exact fun t ht => hQ _ _ (h t ht)
  | act eff k ih =>
    intro t ht
    obtain ⟨hG, hC⟩ := h t ht
    exact ⟨hG, fun hc => ⟨(hC hc).1, ih t (hC hc).2⟩⟩

theorem amid_pure {Q : Except ε α → σ → Prop} {a : α} (h : ∀ t, R s t → Q (.ok a) t) :
    (pure a : Proc σ ε α).Amid R G C Q s := h

theorem amid_raise {Q : Except ε α → σ → Prop} {e : ε} (h : ∀ t, R s t → Q (.error e) t) :
    (raise e : Proc σ ε α).Amid R G C Q s := h

theorem amid_ofExcept {Q : Except ε α → σ → Prop} {x : Except ε α} (h : ∀ t, R s t → Q x t) :
    (ofExcept x).Amid R G C Q s := by
  cases x <;> exact h

/-- The rule of composition. -/
theorem Amid.bind (hR : Rely R G) {Q : Except ε β → σ → Prop} {p : Proc σ ε α}
    {f : α → Proc σ ε β}
    (h : p.Amid R G C (fun r t => match r with
      | .ok a => (f a).Amid R G C Q t
      | .error e => Q (.error e) t) s) : (p >>= f).Amid R G C Q s := by
  induction p generalizing s with
  | ret a => exact h s (hR.refl s)
  | raise e => exact h
  | act eff k ih =>
    intro t ht
    obtain ⟨hG, hC⟩ := h t ht
    exact ⟨hG, fun hc => ⟨(hC hc).1, ih t (hC hc).2⟩⟩

theorem amid_attempt (hR : Rely R G) {Q : Except ε α → σ → Prop} {f : σ → Except ε (α × σ)}
    (hok : ∀ t a t', R s t → f t = .ok (a, t') →
      G t t' ∧ (C t t' → R t t' ∧ ∀ u, R t' u → Q (.ok a) u))
    (herr : ∀ e t, R s t → Q (.error e) t) : (attempt f).Amid R G C Q s := by
  intro t ht
  rcases hf : f t with e | ⟨a, t'⟩
  · simp only [hf]
    exact ⟨hR.stay t, fun _ => ⟨hR.refl t, fun u hu => herr e u (hR.trans _ _ _ ht hu)⟩⟩
  · simp only [hf]
    exact hok t a t' ht hf

theorem amid_query (hR : Rely R G) {Q : Except ε α → σ → Prop} {f : σ → Except ε α}
    (hok : ∀ t a, R s t → f t = .ok a → ∀ u, R t u → Q (.ok a) u)
    (herr : ∀ e t, R s t → Q (.error e) t) : (query f).Amid R G C Q s := by
  refine amid_attempt hR (fun t a t' ht hf => ?_) herr
  obtain ⟨b, hx, hb⟩ := map_eq_ok hf
  cases hb
  exact ⟨hR.stay t, fun _ => ⟨hR.refl t, hok t a ht hx⟩⟩

/-- A program of which only the acts are known. -/
theorem Acts.amid {A : σ → σ → Prop} (hR : Rely R G) {p : Proc σ ε α} (h : p.Acts A)
    (hAR : ∀ a b, A a b → R a b) (hAG : ∀ a b, A a b → G a b) :
    p.Amid R G C (fun _ t => R s t) s := by
  suffices hfrom : ∀ u, R s u → p.Amid R G C (fun _ t => R s t) u from hfrom s (hR.refl s)
  induction p with
  | ret a => exact fun u hu t ht => hR.trans _ _ _ hu ht
  | raise e => exact fun u hu t ht => hR.trans _ _ _ hu ht
  | act eff k ih =>
    intro u hu t ht
    have hact := (h t).1
    have hst := hR.trans _ _ _ hu ht
    exact ⟨hAG _ _ hact, fun _ => ⟨hAR _ _ hact,
      ih t (h t).2 _ (hR.trans _ _ _ hst (hAR _ _ hact))⟩⟩

/-- A program of which only the acts are known, and what follows it. -/
theorem Acts.amid_bind {A : σ → σ → Prop} (hR : Rely R G) {Q : Except ε β → σ → Prop}
    {p : Proc σ ε α} {f : α → Proc σ ε β} (h : p.Acts A) (hAR : ∀ a b, A a b → R a b)
    (hAG : ∀ a b, A a b → G a b) (herr : ∀ e t, R s t → Q (.error e) t)
    (hf : ∀ a t, R s t → (f a).Amid R G C Q t) : (p >>= f).Amid R G C Q s := by
  refine Amid.bind hR ((h.amid hR hAR hAG).mono fun r t ht => ?_)
  cases r with
  | ok a => exact hf a t ht
  | error e => exact herr e t ht

/-- The program amid the others, where all that it leads to is known. -/
theorem Leads.amid {A : σ → σ → Prop} {T : Proc σ ε α → Prop} {Q : Except ε α → σ → Prop}
    (hR : Rely R G) {p : Proc σ ε α} (h : p.Leads A T) (hAR : ∀ a b, A a b → R a b)
    (hAG : ∀ a b, A a b → G a b) (hT : ∀ q t, T q → R s t → q.Amid R G C Q t)
    (herr : ∀ e t, R s t → Q (.error e) t) : p.Amid R G C Q s := by
  induction p generalizing s with
  | ret a => exact hT _ s h (hR.refl s)
  | raise e => exact herr e
  | act eff k ih =>
    rcases h with h | h
    · exact hT _ s h (hR.refl s)
    · intro t ht
      have hact := (h t).1
      have hst : R s (eff t) := hR.trans _ _ _ ht (hAR _ _ hact)
      refine ⟨hAG _ _ hact, fun _ => ⟨hAR _ _ hact, ih t (h t).2 ?_ ?_⟩⟩
      · exact fun q u hq hu => hT q u hq (hR.trans _ _ _ hst hu)
      · exact fun e u hu => herr e u (hR.trans _ _ _ hst hu)

end Amid

end Proc

namespace Pool

variable {σ ε α : Type} {R G C : σ → σ → Prop} {Q : Nat → Except ε α → σ → Prop}

/-- Every act of the schedule is a step of `C`. -/
def Every (C : σ → σ → Prop) : Pool σ ε α → List Nat → Prop
  | _, [] => True
  | c, i :: schedule => C c.2 (step c i).2 ∧ Every C (step c i) schedule

instance Every.decidable [∀ s t, Decidable (C s t)] :
    ∀ (c : Pool σ ε α) (schedule : List Nat), Decidable (Every C c schedule)
  | _, [] => isTrue trivial
  | c, i :: schedule =>
    have : Decidable (Every C (step c i) schedule) := Every.decidable (step c i) schedule
    inferInstanceAs (Decidable (_ ∧ _))

/-- In every state that the schedule goes through. -/
def Always (P : σ → Prop) : Pool σ ε α → List Nat → Prop
  | c, [] => P c.2
  | c, i :: schedule => P c.2 ∧ Always P (step c i) schedule

theorem Always.start {P : σ → Prop} {c : Pool σ ε α} {schedule : List Nat}
    (h : Always P c schedule) : P c.2 := by
  cases schedule with
  | nil => exact h
  | cons i schedule => exact h.1

/-- Each request of the pool runs amid the others. -/
def Amid (R G C : σ → σ → Prop) (Q : Nat → Except ε α → σ → Prop) (c : Pool σ ε α) : Prop :=
  ∀ i (p : Proc σ ε α), c.1[i]? = some p → p.Amid R G C (Q i) c.2

/-- Whoever takes the next act, it is a step of `G`. -/
theorem Amid.step_shape (hR : Proc.Rely R G) {c : Pool σ ε α} (h : Amid R G C Q c) (i : Nat) :
    G c.2 (Pool.step c i).2 := by
  rcases hi : c.1[i]? with _ | p
  · rw [step_none hi]
    exact hR.stay _
  · rw [step_some hi]
    have hp := h i p hi
    cases p with
    | ret a => exact hR.stay _
    | raise e => exact hR.stay _
    | act eff k => exact (hp c.2 (hR.refl _)).1

/-- The step lemma: an act that meets `C` leaves the pool as it was, for the one
that took it and for the others. -/
theorem Amid.step (hR : Proc.Rely R G) {c : Pool σ ε α} (h : Amid R G C Q c) {i : Nat}
    (hC : C c.2 (Pool.step c i).2) : Amid R G C Q (Pool.step c i) := by
  rcases hi : c.1[i]? with _ | p
  · rw [step_none hi]
    exact h
  · rw [step_some hi] at hC ⊢
    have hp := h i p hi
    have hstep : R c.2 (p.step c.2).2 ∧ (p.step c.2).1.Amid R G C (Q i) (p.step c.2).2 := by
      cases p with
      | ret a => exact ⟨hR.refl _, hp⟩
      | raise e => exact ⟨hR.refl _, hp⟩
      | act eff k => exact (hp c.2 (hR.refl _)).2 hC
    intro k q hq
    by_cases hk : i = k
    · subst hk
      have hlt : i < c.1.length := (List.getElem?_eq_some_iff.mp hi).1
      rw [List.getElem?_set_self hlt, Option.some.injEq] at hq
      exact hq ▸ hstep.2
    · rw [List.getElem?_set_ne hk] at hq
      exact (h k q hq).stable hR hstep.1

/-- The run lemma: under a schedule whose acts all meet `C`. -/
theorem Amid.run (hR : Proc.Rely R G) {c : Pool σ ε α} (h : Amid R G C Q c)
    {schedule : List Nat} (hC : Every C c schedule) : Amid R G C Q (Pool.run c schedule) := by
  induction schedule generalizing c with
  | nil => exact h
  | cons i schedule ih => exact ih (h.step hR hC.1) hC.2

/-- If the acts that meet `C` are those that keep `P`, then `P` holds at all times
exactly when every act meets `C`. -/
theorem Amid.always_iff (hR : Proc.Rely R G) {P : σ → Prop} {c : Pool σ ε α}
    (h : Amid R G C Q c) (hP : P c.2) (hG : ∀ s t, G s t → P s → (P t ↔ C s t))
    (schedule : List Nat) : Always P c schedule ↔ Every C c schedule := by
  induction schedule generalizing c with
  | nil => exact iff_of_true hP trivial
  | cons i schedule ih =>
    have hstep := hG _ _ (h.step_shape hR i) hP
    constructor
    · rintro ⟨_, hrest⟩
      have hC := hstep.mp hrest.start
      exact ⟨hC, (ih (h.step hR hC) hrest.start).mp hrest⟩
    · rintro ⟨hC, hrest⟩
      exact ⟨hP, (ih (h.step hR hC) (hstep.mpr hC)).mpr hrest⟩

theorem Amid.returned (hR : Proc.Rely R G) {c : Pool σ ε α} (h : Amid R G C Q c) {i : Nat} {a : α}
    (ha : c.1[i]?.bind Proc.returned = some a) : Q i (.ok a) c.2 := by
  obtain ⟨p, hp, hret⟩ := Option.bind_eq_some_iff.mp ha
  rw [Proc.returned_eq_some] at hret
  subst hret
  exact h i _ hp c.2 (hR.refl _)

end Pool

end async
