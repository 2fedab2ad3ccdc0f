-- A client that sends its request again when it hears nothing, and a server that
-- serves it once.
import Mathlib.Order.Basic

namespace resend

/-- What becomes of one request. -/
inductive Fate where
  /-- It does not arrive. -/
  | lost
  /-- It is served, and the client hears nothing. -/
  | unanswered
  /-- It is turned away before it is served. -/
  | refused
  /-- It is served, and the client cannot read the answer. -/
  | garbled
  | answered
deriving DecidableEq, Repr

/-- What the client fails with where the server did not say it. -/
structure Failures (ε : Type) where
  refused : ε
  garbled : ε
  /-- No request was answered. -/
  unanswered : ε

section

variable {σ ε α : Type} (serve : σ → Except ε α × σ) (failures : Failures ε)

/-- The client sends `n` requests at most, and none after it has heard something. -/
def post : Nat → (Nat → Fate) → σ → Except ε α × σ
  | 0, _, s => (.error failures.unanswered, s)
  | n + 1, fate, s =>
    match fate 0 with
    | .lost => post n (fun i => fate (i + 1)) s
    | .unanswered => post n (fun i => fate (i + 1)) (serve s).2
    | .refused => (.error failures.refused, s)
    | .garbled => (.error failures.garbled, (serve s).2)
    | .answered => serve s

end

/-- The first request that gets anywhere is answered. -/
def Clean (n : Nat) (fate : Nat → Fate) : Prop :=
  ∃ i < n, fate i = .answered ∧ ∀ j < i, fate j = .lost

theorem clean_succ {n : Nat} {fate : Nat → Fate} : Clean (n + 1) fate ↔
    fate 0 = .answered ∨ fate 0 = .lost ∧ Clean n fun i => fate (i + 1) := by
  constructor
  · rintro ⟨i, hi, hans, hlost⟩
    cases i with
    | zero => exact Or.inl hans
    | succ i =>
      refine Or.inr ⟨hlost 0 (by omega), i, by omega, hans, ?_⟩
      intro j hj
      exact hlost (j + 1) (by omega)
  · rintro (hans | ⟨hl, i, hi, hans, hlost⟩)
    · refine ⟨0, by omega, hans, ?_⟩
      intro j hj
      omega
    · refine ⟨i + 1, by omega, hans, ?_⟩
      intro j hj
      cases j with
      | zero => exact hl
      | succ j => exact hlost j (by omega)

/-- A server that serves a request once: it is `spent` from then on. -/
structure Once {σ ε α : Type} (serve : σ → Except ε α × σ) (spent : σ → Prop) : Prop where
  fresh : ∀ {s a}, (serve s).1 = .ok a → ¬ spent s
  spends : ∀ s, spent (serve s).2

section

variable {σ ε α : Type} {serve : σ → Except ε α × σ} {failures : Failures ε} {spent : σ → Prop}
  {n : Nat} {fate : Nat → Fate} {s : σ}

theorem post_keeps {I : σ → Prop} (hserve : ∀ s, I s → I (serve s).2) (hs : I s) :
    I (post serve failures n fate s).2 := by
  induction n generalizing fate s with
  | zero => exact hs
  | succ n ih =>
    unfold post
    cases fate 0 with
    | lost => exact ih hs
    | unanswered => exact ih (hserve s hs)
    | refused => exact hs
    | garbled => exact hserve s hs
    | answered => exact hserve s hs

/-- The client has its result if and only if the first request that got anywhere was
answered, with that result. To send again makes up for lost requests only. -/
theorem post_ok_iff (h : Once serve spent) {a : α} {s' : σ} :
    post serve failures n fate s = (.ok a, s') ↔ Clean n fate ∧ serve s = (.ok a, s') := by
  induction n generalizing fate s with
  | zero => simp [post, Clean]
  | succ n ih =>
    rw [clean_succ]
    unfold post
    cases fate 0 with
    | lost => simpa using ih
    | unanswered =>
      -- a second serving is of a spent request
      have hspent : serve (serve s).2 ≠ (.ok a, s') := by
        intro hok
        exact h.fresh (congrArg Prod.fst hok) (h.spends s)
      simp only [ih, hspent, and_false, reduceCtorEq, false_and, or_self]
    | refused => simp
    | garbled => simp
    | answered => simp

end

end resend
