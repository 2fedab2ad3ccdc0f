-- Systems that take one labelled step after another, and their runs. The
-- environment chooses the labels; a run may also be held to a condition on
-- the state before each step. Last, the logs that a run leaves.
import Mathlib.Data.List.Induction

namespace async

/-- A system with states `σ` and labels `ι`. The step of a label is a
function; `enabled` says when the environment can choose the label. -/
structure System (σ ι : Type) where
  enabled : σ → ι → Prop
  next : σ → ι → σ

namespace System

variable {σ ι : Type}

/-- `S.Run C s ls t`: the labels `ls` lead from `s` to `t`, and the condition
`C` holds of the state before each step and its label. -/
inductive Run (S : System σ ι) (C : σ → ι → Prop) : σ → List ι → σ → Prop
  | nil (s : σ) : Run S C s [] s
  | snoc {s t : σ} {ls : List ι} (l : ι) :
      Run S C s ls t → S.enabled t l → C t l → Run S C s (ls ++ [l]) (S.next t l)

variable {S : System σ ι} {C C' : σ → ι → Prop} {s t u : σ} {ls ms : List ι}

namespace Run

/-- What each step keeps, a run keeps. -/
theorem invariant {I : σ → Prop} (h : S.Run C s ls t) (h0 : I s)
    (hstep : ∀ a l, I a → S.enabled a l → C a l → I (S.next a l)) : I t := by
  induction h with
  | nil => exact h0
  | snoc l _ he hc ih => exact hstep _ l ih he hc

theorem append (h : S.Run C s ls t) (h' : S.Run C t ms u) : S.Run C s (ls ++ ms) u := by
  induction h' with
  | nil => simpa using h
  | snoc l _ he hc ih =>
    rw [← List.append_assoc]
    exact .snoc l ih he hc

theorem one (l : ι) (he : S.enabled s l) (hc : C s l) : S.Run C s [l] (S.next s l) :=
  .snoc l (.nil s) he hc

theorem snoc_inv {l : ι} (h : S.Run C s (ls ++ [l]) u) :
    ∃ t, S.Run C s ls t ∧ S.enabled t l ∧ C t l ∧ u = S.next t l := by
  generalize hm : ls ++ [l] = ms at h
  cases h with
  | nil => simp at hm
  | @snoc t ls' l' h' he hc =>
    obtain ⟨rfl, hl⟩ := List.append_inj' hm rfl
    cases hl
    exact ⟨t, h', he, hc, rfl⟩

theorem nil_inv (h : S.Run C s [] u) : u = s := by
  generalize hm : ([] : List ι) = ms at h
  cases h with
  | nil => rfl
  | snoc => simp at hm

/-- A run of two parts passes through a state between them. -/
theorem append_inv (h : S.Run C s (ls ++ ms) u) : ∃ t, S.Run C s ls t ∧ S.Run C t ms u := by
  induction ms using List.reverseRecOn generalizing u with
  | nil => exact ⟨u, by simpa using h, .nil u⟩
  | append_singleton ms l ih =>
    rw [← List.append_assoc] at h
    obtain ⟨v, hv, he, hc, rfl⟩ := snoc_inv h
    obtain ⟨t, h1, h2⟩ := ih hv
    exact ⟨t, h1, .snoc l h2 he hc⟩

theorem cons_inv {l : ι} (h : S.Run C s (l :: ls) u) :
    S.enabled s l ∧ C s l ∧ S.Run C (S.next s l) ls u := by
  rw [← List.singleton_append] at h
  obtain ⟨t, h1, h2⟩ := append_inv h
  rw [← List.nil_append [l]] at h1
  obtain ⟨v, h0, he, hc, rfl⟩ := snoc_inv h1
  rw [nil_inv h0] at he hc h2
  exact ⟨he, hc, h2⟩

end Run

/-- On the way of a run from `s` to `u`, the label `l` was taken in state `t`. -/
def Took (S : System σ ι) (C : σ → ι → Prop) (s : σ) (ls : List ι) (u t : σ) (l : ι) : Prop :=
  ∃ before after, ls = before ++ l :: after ∧ S.Run C s before t ∧ S.enabled t l ∧ C t l ∧
    S.Run C (S.next t l) after u

theorem Took.snoc {l m : ι} (h : S.Took C s ls u t l) (he : S.enabled u m) (hc : C u m) :
    S.Took C s (ls ++ [m]) (S.next u m) t l := by
  obtain ⟨before, after, hls, hb, hen, hcl, ha⟩ := h
  exact ⟨before, after ++ [m], by simp [hls], hb, hen, hcl, .snoc m ha he hc⟩

/-- What has come true in a run, came true at one of its steps. -/
theorem Run.origin {P : σ → Prop} (h : S.Run C s ls u) (h0 : ¬ P s) (hu : P u) :
    ∃ t l, S.Took C s ls u t l ∧ ¬ P t ∧ P (S.next t l) := by
  induction h with
  | nil => exact absurd hu h0
  | @snoc t ls l hrun he hc ih =>
    by_cases ht : P t
    · obtain ⟨v, m, hv, hn, hy⟩ := ih ht
      exact ⟨v, m, hv.snoc he hc, hn, hy⟩
    · exact ⟨t, l, ⟨ls, [], rfl, hrun, he, hc, .nil _⟩, ht, hu⟩

/-! ## Runs that can be computed -/

/-- The labels can be taken one after the other, each where `C` holds. -/
def Path (S : System σ ι) (C : σ → ι → Prop) : σ → List ι → Prop
  | _, [] => True
  | s, l :: ls => S.enabled s l ∧ C s l ∧ Path S C (S.next s l) ls

instance Path.decidable [∀ s l, Decidable (S.enabled s l)] [∀ s l, Decidable (C s l)] :
    ∀ (s : σ) (ls : List ι), Decidable (S.Path C s ls)
  | _, [] => isTrue trivial
  | s, l :: ls =>
    have : Decidable (S.Path C (S.next s l) ls) := Path.decidable (S.next s l) ls
    inferInstanceAs (Decidable (_ ∧ _ ∧ _))

/-- Where the labels lead. -/
def exec (S : System σ ι) (s : σ) (ls : List ι) : σ := ls.foldl S.next s

theorem Run.of_path (h : S.Path C s ls) : S.Run C s ls (S.exec s ls) := by
  induction ls generalizing s with
  | nil => exact .nil s
  | cons l ls ih =>
    obtain ⟨he, hc, hrest⟩ := h
    exact (Run.one l he hc).append (ih hrest)

/-- The states that a run without a condition reaches from `init`. -/
def Reachable (S : System σ ι) (init : σ → Prop) (t : σ) : Prop :=
  ∃ s ls, init s ∧ S.Run (fun _ _ => True) s ls t

/-- An invariant holds in every reachable state. -/
theorem Reachable.invariant {I : σ → Prop} {init : σ → Prop} (h : S.Reachable init t)
    (h0 : ∀ s, init s → I s) (hstep : ∀ a l, I a → S.enabled a l → I (S.next a l)) : I t := by
  obtain ⟨s, ls, hs, hr⟩ := h
  exact hr.invariant (h0 s hs) (fun a l ha he _ => hstep a l ha he)

end System

/-! ## Logs of changes -/

section

variable {ε α : Type} {before after : ε → Option α} {a b c : α} {e : ε} {es : List ε}

/-- The entries of a log lead from one value to another: the first starts at the
one, each starts where the entry before it ended, and the last ends at the other. -/
def Trail (before after : ε → Option α) : α → List ε → α → Prop
  | a, [], b => a = b
  | a, e :: es, b => before e = some a ∧ ∃ c, after e = some c ∧ Trail before after c es b

theorem Trail.snoc (h : Trail before after a es b) (hb : before e = some b)
    (hc : after e = some c) : Trail before after a (es ++ [e]) c := by
  induction es generalizing a with
  | nil =>
    cases h
    exact ⟨hb, c, hc, rfl⟩
  | cons e' es ih =>
    obtain ⟨h1, d, h2, h3⟩ := h
    exact ⟨h1, d, h2, ih h3⟩

end

end async
