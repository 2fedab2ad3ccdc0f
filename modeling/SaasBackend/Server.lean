-- A server: requests come while others are being served, each takes its next
-- act when the scheduler lets it, and the world outside takes steps of its own.
-- A request that has died takes no more acts, so it needs no label of its own.
import Mathlib.Algebra.Order.Group.Int
import Mathlib.Algebra.BigOperators.Group.List.Basic
import Mathlib.Algebra.GroupWithZero.Nat
import Mathlib.Data.List.Forall2
import Mathlib.Logic.Relation
import SaasBackend.Interference
import SaasBackend.Runs
import SaasBackend.Stops

namespace async

/-! ## Programs that do the same -/

namespace Proc

variable {σ ε α β : Type}

/-- From `s` on, and with nobody between, the two programs take acts that leave the
same states, and they end alike. -/
def SameAt : Proc σ ε α → Proc σ ε α → σ → Prop
  | ret a, q, _ => q = ret a
  | raise e, q, _ => q = raise e
  | act eff k, q, s => ∃ eff' k', q = act eff' k' ∧ eff s = eff' s ∧ (k s).SameAt (k' s) (eff s)

theorem SameAt.refl (p : Proc σ ε α) (s : σ) : p.SameAt p s := by
  induction p generalizing s with
  | ret a => rfl
  | raise e => rfl
  | act eff k ih => exact ⟨eff, k, rfl, rfl, ih s (eff s)⟩

theorem SameAt.cut {p q : Proc σ ε α} {s : σ} (h : p.SameAt q s) (n : Nat) :
    p.cut n s = q.cut n s := by
  induction n generalizing p q s with
  | zero => simp [Proc.cut]
  | succ n ih =>
    cases p with
    | ret a => rw [show q = ret a from h]
    | raise e => rw [show q = raise e from h]
    | act eff k =>
      obtain ⟨eff', k', rfl, heff, hk⟩ := h
      simp only [Proc.cut]
      rw [ih hk, heff]

theorem SameAt.bind {p q : Proc σ ε α} {f g : α → Proc σ ε β} {s : σ} (h : p.SameAt q s)
    (hf : ∀ a s', q.run s = (.ok a, s') → (f a).SameAt (g a) s') :
    (p >>= f).SameAt (q >>= g) s := by
  induction p generalizing q s with
  | ret a =>
    cases h
    exact hf a s rfl
  | raise e =>
    cases h
    exact SameAt.refl _ _
  | act eff k ih =>
    obtain ⟨eff', k', rfl, heff, hk⟩ := h
    refine ⟨eff', fun t => (k' t).bind g, rfl, heff, ih s hk fun a s' hr => ?_⟩
    rw [heff] at hr
    exact hf a s' hr

/-- Two programs that begin alike. -/
theorem SameAt.bind_left (p : Proc σ ε α) {f g : α → Proc σ ε β} {s : σ}
    (hf : ∀ a s', p.run s = (.ok a, s') → (f a).SameAt (g a) s') :
    (p >>= f).SameAt (p >>= g) s := (SameAt.refl p s).bind hf

/-- Two programs that end alike. -/
theorem SameAt.bind_right {p q : Proc σ ε α} (f : α → Proc σ ε β) {s : σ} (h : p.SameAt q s) :
    (p >>= f).SameAt (q >>= f) s := h.bind fun a s' _ => SameAt.refl (f a) s'

theorem SameAt.attempt {f g : σ → Except ε (α × σ)} {s : σ} (h : f s = g s) :
    (Proc.attempt f).SameAt (Proc.attempt g) s := by
  refine ⟨_, _, rfl, ?_, ?_⟩
  · simp only [h]
  · simp only [h]
    exact SameAt.refl _ _

/-! ## Programs among others that only go on -/

/-- A program takes part in what goes on: its acts `G` are steps `R`, as those of the
others are. -/
structure Part (R G : σ → σ → Prop) : Prop extends Rely R G where
  goes : ∀ s t, G s t → R s t

/-- From `s` on, where the others change the state by steps of `R`, every act is a step
of `G`, the state goes on by `R`, and what is returned has `P` from then on. -/
def Among (R G : σ → σ → Prop) (P : α → σ → Prop) (p : Proc σ ε α) (s : σ) : Prop :=
  p.Amid R G (fun _ _ => True) (fun r t => R s t ∧ ∀ a, r = .ok a → P a t) s

section Among

variable {R G : σ → σ → Prop} {P : α → σ → Prop} {s : σ}

theorem Among.mono {P' : α → σ → Prop} {p : Proc σ ε α} (h : p.Among R G P s)
    (hP : ∀ a t, R s t → P a t → P' a t) : p.Among R G P' s :=
  Amid.mono h fun _ t ⟨hst, hp⟩ => ⟨hst, fun a ha => hP a t hst (hp a ha)⟩

theorem among_pure {a : α} (h : ∀ t, R s t → P a t) : (pure a : Proc σ ε α).Among R G P s := by
  intro t ht
  refine ⟨ht, fun b hb => ?_⟩
  cases hb
  exact h t ht

theorem among_raise (e : ε) : (raise e : Proc σ ε α).Among R G P s :=
  fun t ht => ⟨ht, fun _ ha => by cases ha⟩

theorem among_ofExcept {x : Except ε α} (h : ∀ a, x = .ok a → ∀ t, R s t → P a t) :
    (ofExcept x).Among R G P s := by
  cases x with
  | ok a => exact among_pure (h a rfl)
  | error e => exact among_raise e

/-- The rule of composition. -/
theorem Among.bind (hR : Part R G) {P' : β → σ → Prop} {p : Proc σ ε α} {f : α → Proc σ ε β}
    (h : p.Among R G P s) (hf : ∀ a t, R s t → P a t → (f a).Among R G P' t) :
    (p >>= f).Among R G P' s := by
  refine Amid.bind hR.toRely (Amid.mono h fun r t ht => ?_)
  cases r with
  | ok a =>
    refine Amid.mono (hf a t ht.1 (ht.2 a rfl)) fun _ u hu => ?_
    exact ⟨hR.trans _ _ _ ht.1 hu.1, hu.2⟩
  | error e => exact ⟨ht.1, fun _ ha => by cases ha⟩

theorem among_attempt (hR : Part R G) {f : σ → Except ε (α × σ)}
    (h : ∀ t a t', R s t → f t = .ok (a, t') → G t t' ∧ ∀ u, R t' u → P a u) :
    (attempt f).Among R G P s := by
  refine amid_attempt hR.toRely (fun t a t' ht hf => ?_)
    fun e t ht => ⟨ht, fun _ ha => by cases ha⟩
  obtain ⟨hstep, hp⟩ := h t a t' ht hf
  have hgo := hR.goes _ _ hstep
  refine ⟨hstep, fun _ => ⟨hgo, fun u hu =>
    ⟨hR.trans _ _ _ ht (hR.trans _ _ _ hgo hu), fun b hb => ?_⟩⟩⟩
  cases hb
  exact hp u hu

theorem among_query (hR : Part R G) {f : σ → Except ε α}
    (h : ∀ t a, R s t → f t = .ok a → ∀ u, R t u → P a u) : (query f).Among R G P s := by
  refine among_attempt hR fun t a t' ht hf => ?_
  obtain ⟨b, hb, he⟩ := map_eq_ok hf
  cases he
  exact ⟨hR.stay t, h t a ht hb⟩

theorem among_read (hR : Part R G) {f : σ → α} (h : ∀ t, R s t → ∀ u, R t u → P (f t) u) :
    (read f : Proc σ ε α).Among R G P s := by
  refine among_attempt hR fun t a t' ht hf => ?_
  cases hf
  exact ⟨hR.stay t, h t ht⟩

theorem among_write (hR : Part R G) {f : σ → σ} (h : ∀ t, R s t → G t (f t)) :
    (write f : Proc σ ε Unit).Among R G (fun _ _ => True) s := by
  refine among_attempt hR fun t a t' ht hf => ?_
  cases hf
  exact ⟨h t ht, fun _ _ => trivial⟩

theorem Among.suppress (hR : Part R G) {p : Proc σ ε Unit}
    (h : p.Among R G (fun _ _ => True) s) : p.suppress.Among R G (fun _ _ => True) s := by
  suffices hfrom : ∀ u, R s u → p.Amid R G (fun _ _ => True) (fun _ t => R s t) u →
      p.suppress.Amid R G (fun _ _ => True) (fun r t => R s t ∧ ∀ a, r = .ok a → True) u from
    hfrom s (hR.refl s) (Amid.mono h fun _ _ ht => ht.1)
  clear h
  induction p with
  | ret a => exact fun u _ hu t ht => ⟨hu t ht, fun _ _ => trivial⟩
  | raise e => exact fun u _ hu t ht => ⟨hu t ht, fun _ _ => trivial⟩
  | act eff k ih =>
    intro u hu hk t ht
    obtain ⟨hG, hC⟩ := hk t ht
    refine ⟨hG, fun _ => ⟨(hC trivial).1, ih t _ ?_ (hC trivial).2⟩⟩
    exact hR.trans _ _ _ hu (hR.trans _ _ _ ht (hC trivial).1)

end Among

/-! ## Credits -/

/-- The program can pay for its acts: it begins with `n` credits, an act that raises
the balance `μ` costs as many credits as it raises it by, an act that lowers it may
earn as many, and a program that returns `a` has credits left as `Q a` says. -/
def Affords (μ : σ → Int) (Q : α → Nat → Prop) : Proc σ ε α → Nat → Prop
  | ret a, n => Q a n
  | raise _, _ => True
  | act eff k, n => ∀ s, ∃ m : Nat, μ (eff s) + m ≤ μ s + n ∧ (k s).Affords μ Q m

section Affords

variable {μ : σ → Int} {n : Nat}

theorem Affords.mono {Q Q' : α → Nat → Prop} {p : Proc σ ε α} (h : p.Affords μ Q n)
    (hQ : ∀ a m, Q a m → Q' a m) : p.Affords μ Q' n := by
  induction p generalizing n with
  | ret a => exact hQ a n h
  | raise e => trivial
  | act eff k ih =>
    intro s
    obtain ⟨m, hm, hk⟩ := h s
    exact ⟨m, hm, ih s hk⟩

/-- The rule of composition: what is left of the credits goes on. -/
theorem Affords.bind {Q : β → Nat → Prop} {p : Proc σ ε α} {f : α → Proc σ ε β}
    (h : p.Affords μ (fun a m => (f a).Affords μ Q m) n) : (p >>= f).Affords μ Q n := by
  induction p generalizing n with
  | ret a => exact h
  | raise e => trivial
  | act eff k ih =>
    intro s
    obtain ⟨m, hm, hk⟩ := h s
    exact ⟨m, hm, ih s hk⟩

/-- A program whose acts never raise the balance costs nothing. -/
theorem Acts.affords {p : Proc σ ε α} (h : p.Acts fun s t => μ t ≤ μ s) :
    p.Affords μ (fun _ m => m = n) n := by
  induction p with
  | ret a => rfl
  | raise e => trivial
  | act eff k ih => exact fun s => ⟨n, by have := (h s).1; omega, ih s (h s).2⟩

/-- One atomic step, priced. -/
theorem affords_attempt {Q : α → Nat → Prop} {f : σ → Except ε (α × σ)}
    (h : ∀ s a s', f s = .ok (a, s') → ∃ m : Nat, μ s' + m ≤ μ s + n ∧ Q a m) :
    (attempt f).Affords μ Q n := by
  intro s
  rcases hf : f s with e | ⟨a, s'⟩
  · simp only [hf]
    exact ⟨n, Int.le_refl _, trivial⟩
  · simp only [hf]
    exact h s a s' hf

theorem Affords.suppress {p : Proc σ ε Unit} (h : p.Affords μ (fun _ _ => True) n) :
    p.suppress.Affords μ (fun _ _ => True) n := by
  induction p generalizing n with
  | ret a => trivial
  | raise e => trivial
  | act eff k ih =>
    intro s
    obtain ⟨m, hm, hk⟩ := h s
    exact ⟨m, hm, ih s hk⟩

end Affords

end Proc

/-! ## The server -/

/-- What happens next at a server: a request comes, a request that is being served
takes its next act, or the world outside takes a step. -/
inductive Moment (ρ ι : Type) where
  | arrive (request : ρ)
  | act (i : Nat)
  | outside (l : ι)
deriving DecidableEq, Repr

/-- The server of the programs `prog`, in a world that takes the steps of `E`. A
request comes only where `admits` lets it. -/
def server {σ ε α ρ ι : Type} (prog : ρ → Proc σ ε α) (admits : σ → ρ → Prop)
    (E : System σ ι) : System (Pool σ ε α) (Moment ρ ι) where
  enabled c
    | .arrive r => admits c.2 r
    | .act _ => True
    | .outside l => E.enabled c.2 l
  next c
    | .arrive r => (c.1 ++ [prog r], c.2)
    | .act i => c.step i
    | .outside l => (c.1, E.next c.2 l)

namespace System

variable {σ ι : Type} {S : System σ ι} {C C' : σ → ι → Prop} {s t u : σ} {ls : List ι}

/-- A state that the run comes through, the first and the last included. -/
def Visits (S : System σ ι) (C : σ → ι → Prop) (s : σ) (ls : List ι) (u t : σ) : Prop :=
  ∃ before after, ls = before ++ after ∧ S.Run C s before t ∧ S.Run C t after u

theorem Run.visits_start (h : S.Run C s ls u) : S.Visits C s ls u s := ⟨[], ls, rfl, .nil s, h⟩

theorem Took.visits_next {l : ι} (h : S.Took C s ls u t l) :
    S.Visits C s ls u (S.next t l) := by
  obtain ⟨before, after, hls, hb, he, hc, ha⟩ := h
  exact ⟨before ++ [l], after, by simp [hls], .snoc l hb he hc, ha⟩

theorem Took.mem {l : ι} (h : S.Took C s ls u t l) : l ∈ ls := by
  obtain ⟨before, after, hls, _⟩ := h
  simp [hls]

/-- The labels say where a run ends. -/
theorem Run.exec_eq (h : S.Run C s ls u) : u = S.exec s ls := by
  induction h with
  | nil => rfl
  | @snoc t ls l _ _ _ ih => rw [ih, exec, exec, List.foldl_append, List.foldl_cons, List.foldl_nil]

/-- A run keeps to every condition that holds at each of its steps. -/
theorem Run.strengthen (h : S.Run C s ls u) (hC : ∀ t l, S.Took C s ls u t l → C' t l) :
    S.Run C' s ls u := by
  induction h with
  | nil => exact .nil _
  | @snoc u ls l hrun he hc ih =>
    refine .snoc l (ih fun t m ht => hC t m (ht.snoc he hc)) he (hC u l ?_)
    exact ⟨ls, [], rfl, hrun, he, hc, .nil _⟩

end System

section Server

variable {σ ε α ρ ι : Type} {prog : ρ → Proc σ ε α} {admits : σ → ρ → Prop} {E : System σ ι}
  {D : Pool σ ε α → Moment ρ ι → Prop} {c c' : Pool σ ε α} {ls : List (Moment ρ ι)}

/-- The last request takes `n` acts, one after the other. -/
theorem server_alone (n : Nat) (p : Proc σ ε α) (ps : List (Proc σ ε α)) (s : σ) :
    ∃ q, (server prog admits E).Run (fun _ _ => True) (ps ++ [p], s)
      (List.replicate n (.act ps.length)) (ps ++ [q], p.cut n s) := by
  induction n generalizing p s with
  | zero =>
    refine ⟨p, ?_⟩
    rw [Proc.cut_zero]
    exact .nil _
  | succ n ih =>
    obtain ⟨q, hq⟩ := ih (p.step s).1 (p.step s).2
    refine ⟨q, ?_⟩
    have hcut : p.cut (n + 1) s = (p.step s).1.cut n (p.step s).2 := by
      cases p with
      | ret a => cases n <;> rfl
      | raise e => cases n <;> rfl
      | act eff k => rfl
    have hstep : Pool.step (ps ++ [p], s) ps.length = (ps ++ [(p.step s).1], (p.step s).2) := by
      rw [Pool.step_some (p := p) (by simp)]
      simp
    have hone := System.Run.one (S := server prog admits E) (C := fun _ _ => True)
      (s := (ps ++ [p], s)) (.act ps.length) trivial trivial
    rw [List.replicate_succ, ← List.singleton_append, hcut]
    refine hone.append ?_
    change (server prog admits E).Run _ (Pool.step (ps ++ [p], s) ps.length) _ _
    rw [hstep]
    exact hq

/-- The requests that have come, in their order: the place of a request here is its
place in the pool. -/
def arrivals (ls : List (Moment ρ ι)) : List ρ :=
  ls.filterMap fun
    | .arrive r => some r
    | _ => none

/-- The programs in flight, each with the request that it serves: all take part, and
each runs amid the others. -/
def Pool.Serves (R : σ → σ → Prop) (G : ρ → σ → σ → Prop) (Q : ρ → Except ε α → σ → Prop)
    (rs : List ρ) (c : Pool σ ε α) : Prop :=
  List.Forall₂ (fun r p => Proc.Part R (G r) ∧
    Proc.Amid R (G r) (fun _ _ => True) (Q r) p c.2) rs c.1

/-- One pair of two lists, with its second part exchanged. -/
theorem forall₂_set {γ π : Type} {P : γ → π → Prop} {rs : List γ} {ps : List π}
    (h : List.Forall₂ P rs ps) {i : Nat} {p : π} (hi : ps[i]? = some p) :
    ∃ r, rs[i]? = some r ∧ P r p ∧ ∀ q, P r q → List.Forall₂ P rs (ps.set i q) := by
  induction h generalizing i with
  | nil => simp at hi
  | @cons r₀ p₀ rs ps h₀ hrest ih =>
    cases i with
    | zero =>
      simp only [List.getElem?_cons_zero, Option.some.injEq] at hi
      subst hi
      exact ⟨r₀, rfl, h₀, fun q hq => .cons hq hrest⟩
    | succ i =>
      rw [List.getElem?_cons_succ] at hi
      obtain ⟨r, hr, hp, hset⟩ := ih hi
      exact ⟨r, hr, hp, fun q hq => .cons h₀ (hset q hq)⟩

section Serves

variable {R : σ → σ → Prop} {G : ρ → σ → σ → Prop} {Q : ρ → Except ε α → σ → Prop}
  {J : σ → Prop} {rs : List ρ}

theorem Pool.Serves.stable (h : c.Serves R G Q rs) {s : σ} (hs : R c.2 s) :
    Pool.Serves R G Q rs (c.1, s) :=
  List.Forall₂.imp (fun _ _ hp => ⟨hp.1, hp.2.stable hp.1.toRely hs⟩) h

/-- The step lemma: whoever takes the next act, it is a step of its own request. -/
theorem Pool.Serves.step (h : c.Serves R G Q rs) (i : Nat) : (c.step i).Serves R G Q rs ∧
    ((c.step i).2 = c.2 ∨
      ∃ r, rs[i]? = some r ∧ Proc.Part R (G r) ∧ G r c.2 (c.step i).2) := by
  rcases hi : c.1[i]? with _ | p
  · rw [Pool.step_none hi]
    exact ⟨h, Or.inl rfl⟩
  · rw [Pool.step_some hi]
    obtain ⟨r, hr, hp, hself⟩ := forall₂_set h hi
    cases p with
    | ret a => exact ⟨hself _ hp, Or.inl rfl⟩
    | raise e => exact ⟨hself _ hp, Or.inl rfl⟩
    | act eff k =>
      obtain ⟨hpart, hamid⟩ := hp
      obtain ⟨hG, hC⟩ := hamid c.2 (hpart.refl _)
      obtain ⟨hgo, hk⟩ := hC trivial
      obtain ⟨r', hr', _, hset⟩ := forall₂_set (h.stable hgo) hi
      rw [hr, Option.some.injEq] at hr'
      subst hr'
      exact ⟨hset _ ⟨hpart, hk⟩, Or.inr ⟨r, hr, hpart, hG⟩⟩

/-- What a request has left that has returned. -/
theorem Pool.Serves.returned (h : c.Serves R G Q rs) {i : Nat} {r : ρ} {a : α}
    (hr : rs[i]? = some r) (ha : c.1[i]?.bind Proc.returned = some a) : Q r (.ok a) c.2 := by
  obtain ⟨p, hp, hret⟩ := Option.bind_eq_some_iff.mp ha
  rw [Proc.returned_eq_some] at hret
  subst hret
  obtain ⟨r', hr', ⟨hpart, hamid⟩, _⟩ := forall₂_set h hp
  rw [hr, Option.some.injEq] at hr'
  subst hr'
  exact hamid c.2 (hpart.refl _)

/-- The run lemma of a server: if every request that comes runs amid the others, and
the world outside keeps to what they rely on, then so do they all. -/
theorem server_serves (ho : Proc.Rely R R) (hJ : ∀ s t, J s → R s t → J t)
    (harrive : ∀ b r, J b.2 → admits b.2 r → D b (.arrive r) → Proc.Part R (G r) ∧
      (prog r).Amid R (G r) (fun _ _ => True) (Q r) b.2)
    (houtside : ∀ b l, J b.2 → E.enabled b.2 l → D b (.outside l) → R b.2 (E.next b.2 l))
    (hrun : (server prog admits E).Run D c ls c') (hc : c.Serves R G Q rs) (hj : J c.2) :
    R c.2 c'.2 ∧ J c'.2 ∧ c'.Serves R G Q (rs ++ arrivals ls) := by
  induction hrun with
  | nil => exact ⟨ho.refl _, hj, by simpa [arrivals] using hc⟩
  | @snoc b ls l _ he hd ih =>
    obtain ⟨hb, hjb, hserves⟩ := ih
    cases l with
    | arrive r =>
      have harr : arrivals (ls ++ [.arrive r]) = arrivals ls ++ [r] := by simp [arrivals]
      rw [harr, ← List.append_assoc]
      exact ⟨hb, hjb, List.rel_append hserves (.cons (harrive b r hjb he hd) .nil)⟩
    | act i =>
      have harr : arrivals (ls ++ [.act i]) = arrivals ls := by simp [arrivals]
      obtain ⟨hs, hact⟩ := hserves.step i
      have hgo : R b.2 (b.step i).2 := by
        rcases hact with heq | ⟨r, _, hpart, hG⟩
        · rw [heq]
          exact ho.refl _
        · exact hpart.goes _ _ hG
      rw [harr]
      exact ⟨ho.trans _ _ _ hb hgo, hJ _ _ hjb hgo, hs⟩
    | outside l =>
      have harr : arrivals (ls ++ [.outside l]) = arrivals ls := by simp [arrivals]
      have hout := houtside b l hjb he hd
      rw [harr]
      exact ⟨ho.trans _ _ _ hb hout, hJ _ _ hjb hout, hserves.stable hout⟩

end Serves

/-- The credits that the requests in flight hold, one number for each. -/
def Pool.Solvent (μ : σ → Int) (c : Pool σ ε α) (credits : List Nat) : Prop :=
  List.Forall₂ (fun p n => Proc.Affords μ (fun _ _ => True) p n) c.1 credits

/-- One program of a pool, its credits, and the sum when both are exchanged. -/
theorem forall₂_sum {π : Type} {P : π → Nat → Prop} {ps : List π} {ns : List Nat}
    (h : List.Forall₂ P ps ns) {i : Nat} {p : π} (hi : ps[i]? = some p) :
    ∃ n, P p n ∧ ∀ q m, P q m → ∃ ns', List.Forall₂ P (ps.set i q) ns' ∧
      ns'.sum + n = ns.sum + m := by
  induction h generalizing i with
  | nil => simp at hi
  | @cons p₀ n₀ ps ns h₀ hrest ih =>
    cases i with
    | zero =>
      simp only [List.getElem?_cons_zero, Option.some.injEq] at hi
      subst hi
      refine ⟨n₀, h₀, fun q m hq => ⟨m :: ns, .cons hq hrest, ?_⟩⟩
      simp only [List.sum_cons]
      omega
    | succ i =>
      rw [List.getElem?_cons_succ] at hi
      obtain ⟨n, hp, hset⟩ := ih hi
      refine ⟨n, hp, fun q m hq => ?_⟩
      obtain ⟨ns', hns', hsum⟩ := hset q m hq
      refine ⟨n₀ :: ns', .cons h₀ hns', ?_⟩
      simp only [List.sum_cons]
      omega

/-- One act: what the balance gains, the credits lose. -/
theorem Pool.Solvent.step {μ : σ → Int} {c : Pool σ ε α} {credits : List Nat}
    (h : c.Solvent μ credits) (i : Nat) : ∃ credits', (c.step i).Solvent μ credits' ∧
      μ (c.step i).2 + (credits'.sum : Nat) ≤ μ c.2 + (credits.sum : Nat) := by
  rcases hi : c.1[i]? with _ | p
  · rw [Pool.step_none hi]
    exact ⟨credits, h, Int.le_refl _⟩
  · rw [Pool.step_some hi]
    obtain ⟨n, hp, hset⟩ := forall₂_sum h hi
    have hnext : ∃ m : Nat, μ (p.step c.2).2 + m ≤ μ c.2 + n ∧
        (p.step c.2).1.Affords μ (fun _ _ => True) m := by
      cases p with
      | ret a => exact ⟨n, Int.le_refl _, trivial⟩
      | raise e => exact ⟨n, Int.le_refl _, trivial⟩
      | act eff k => exact hp c.2
    obtain ⟨m, hm, hq⟩ := hnext
    obtain ⟨credits', hs', hsum⟩ := hset _ m hq
    refine ⟨credits', hs', ?_⟩
    simp only
    omega

/-- The run lemma of credits: if every request can pay for its acts with no credit at
first, and the world outside never raises the balance, then no run raises it. -/
theorem server_balance {μ : σ → Int}
    (harrive : ∀ b r, admits b.2 r → D b (.arrive r) →
      (prog r).Affords μ (fun _ _ => True) 0)
    (houtside : ∀ b l, E.enabled b.2 l → D b (.outside l) → μ (E.next b.2 l) ≤ μ b.2)
    (hrun : (server prog admits E).Run D c ls c') (hc : c.1 = []) : μ c'.2 ≤ μ c.2 := by
  have hall : ∃ credits, c'.Solvent μ credits ∧ μ c'.2 + (credits.sum : Nat) ≤ μ c.2 := by
    refine hrun.invariant (I := fun b => ∃ credits, b.Solvent μ credits ∧
      μ b.2 + (credits.sum : Nat) ≤ μ c.2) ⟨[], ?_, by simp⟩ ?_
    · simp [Pool.Solvent, hc]
    · rintro b l ⟨credits, hs, hle⟩ he hd
      cases l with
      | arrive r =>
        refine ⟨credits ++ [0], ?_, by change μ b.2 + _ ≤ _; simpa using hle⟩
        exact List.rel_append hs (.cons (harrive b r he hd) .nil)
      | act i =>
        obtain ⟨credits', hs', hle'⟩ := hs.step i
        exact ⟨credits', hs', Int.le_trans hle' hle⟩
      | outside l =>
        have := houtside b l he hd
        exact ⟨credits, hs, by change μ (E.next b.2 l) + _ ≤ _; omega⟩
  obtain ⟨credits, _, hle⟩ := hall
  omega

end Server

end async
