-- Conditions on the rows of a table, with the three truth values of SQL, and their
-- translation from left to right.
import Mathlib.Data.List.Basic

namespace sql

/-! ## Three truth values -/

/-- True, false, or unknown, as a test on NULL is. -/
abbrev Truth := Option Bool

def Truth.not (p : Truth) : Truth := p.map (!·)

def Truth.and : Truth → Truth → Truth
  | some false, _ => some false
  | _, some false => some false
  | some true, some true => some true
  | _, _ => none

def Truth.or (p q : Truth) : Truth := (p.not.and q.not).not

/-! ## Conditions -/

inductive Condition (α : Type) where
  | test (a : α)
  | not (p : Condition α)
  | and (p q : Condition α)
  | or (p q : Condition α)
deriving DecidableEq, Repr

namespace Condition

variable {α β σ : Type}

def tests : Condition α → List α
  | test a => [a]
  | not p => p.tests
  | and p q => p.tests ++ q.tests
  | or p q => p.tests ++ q.tests

def map (f : α → β) : Condition α → Condition β
  | test a => test (f a)
  | not p => not (p.map f)
  | and p q => and (p.map f) (q.map f)
  | or p q => or (p.map f) (q.map f)

def value (truth : α → Truth) : Condition α → Truth
  | test a => truth a
  | not p => (p.value truth).not
  | and p q => (p.value truth).and (q.value truth)
  | or p q => (p.value truth).or (q.value truth)

/-- Each test is translated in the state that the tests before it leave. -/
def translate (f : σ → α → β × σ) : σ → Condition α → Condition β × σ
  | s, test a => (.test (f s a).1, (f s a).2)
  | s, not p => (.not (p.translate f s).1, (p.translate f s).2)
  | s, and p q =>
    (.and (p.translate f s).1 (q.translate f (p.translate f s).2).1,
      (q.translate f (p.translate f s).2).2)
  | s, or p q =>
    (.or (p.translate f s).1 (q.translate f (p.translate f s).2).1,
      (q.translate f (p.translate f s).2).2)

section

variable {p q : Condition α} {f : σ → α → β × σ} {s : σ} {truth : α → Truth} {truth' : β → Truth}
  {I : σ → Prop} {good : β → Prop} {tests : Set α}

/-- The tests of the condition are among these. -/
def Over (tests : Set α) (p : Condition α) : Prop := ∀ a ∈ p.tests, a ∈ tests

theorem over_and : (and p q).Over tests ↔ p.Over tests ∧ q.Over tests :=
  List.forall_mem_append

theorem over_or : (or p q).Over tests ↔ p.Over tests ∧ q.Over tests :=
  List.forall_mem_append

theorem exists_test (p : Condition α) : ∃ a, a ∈ p.tests := by
  induction p with
  | test a => exact ⟨a, List.mem_cons_self⟩
  | not p ih => exact ih
  | and p q ihp ihq =>
    obtain ⟨a, ha⟩ := ihp
    exact ⟨a, List.mem_append_left _ ha⟩
  | or p q ihp ihq =>
    obtain ⟨a, ha⟩ := ihp
    exact ⟨a, List.mem_append_left _ ha⟩

/-- What holds after one test in each state with `I` holds after a whole condition. -/
theorem translate_state (hnext : ∀ s a, I s → a ∈ tests → I (f s a).2) (hp : p.Over tests)
    (hs : I s) : I (p.translate f s).2 := by
  induction p generalizing s with
  | test a => exact hnext s a hs (hp a List.mem_cons_self)
  | not p ih => exact ih hp hs
  | and p q ihp ihq =>
    obtain ⟨hp, hq⟩ := over_and.mp hp
    exact ihq hq (ihp hp hs)
  | or p q ihp ihq =>
    obtain ⟨hp, hq⟩ := over_or.mp hp
    exact ihq hq (ihp hp hs)

theorem translate_tests (hgood : ∀ s a, I s → a ∈ tests → good (f s a).1)
    (hnext : ∀ s a, I s → a ∈ tests → I (f s a).2) (hp : p.Over tests) (hs : I s) :
    ∀ b ∈ (p.translate f s).1.tests, good b := by
  induction p generalizing s with
  | test a =>
    intro b hb
    rw [List.mem_singleton.mp hb]
    exact hgood s a hs (hp a List.mem_cons_self)
  | not p ih => exact ih hp hs
  | and p q ihp ihq =>
    obtain ⟨hp, hq⟩ := over_and.mp hp
    exact List.forall_mem_append.mpr ⟨ihp hp hs, ihq hq (translate_state hnext hp hs)⟩
  | or p q ihp ihq =>
    obtain ⟨hp, hq⟩ := over_or.mp hp
    exact List.forall_mem_append.mpr ⟨ihp hp hs, ihq hq (translate_state hnext hp hs)⟩

/-- The translation of tests keeps the value of a condition. -/
theorem translate_value (hvalue : ∀ s a, I s → a ∈ tests → truth' (f s a).1 = truth a)
    (hnext : ∀ s a, I s → a ∈ tests → I (f s a).2) (hp : p.Over tests) (hs : I s) :
    (p.translate f s).1.value truth' = p.value truth := by
  induction p generalizing s with
  | test a => exact hvalue s a hs (hp a List.mem_cons_self)
  | not p ih => exact congrArg Truth.not (ih hp hs)
  | and p q ihp ihq =>
    obtain ⟨hp, hq⟩ := over_and.mp hp
    exact congrArg₂ Truth.and (ihp hp hs) (ihq hq (translate_state hnext hp hs))
  | or p q ihp ihq =>
    obtain ⟨hp, hq⟩ := over_or.mp hp
    exact congrArg₂ Truth.or (ihp hp hs) (ihq hq (translate_state hnext hp hs))

end

end Condition

/-! ## What a condition tells about its parts -/

section

variable {p q : Truth}

theorem Truth.eq_of_true (h : p = some true ↔ q = some true)
    (hnot : p.not = some true ↔ q.not = some true) : p = q := by
  rcases p with _ | _ | _ <;> rcases q with _ | _ | _ <;> simp_all [Truth.not]

theorem Truth.and_of_true (h : p = some true) : p.and q = some true ↔ q = some true := by
  subst h
  rcases q with _ | _ | _ <;> simp [Truth.and]

theorem Truth.or_of_not_true (h : p ≠ some true) : p.or q = some true ↔ q = some true := by
  rcases p with _ | _ | _ <;> rcases q with _ | _ | _ <;> simp_all [Truth.or, Truth.and, Truth.not]

end

end sql
