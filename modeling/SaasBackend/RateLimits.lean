-- Fixed window rate limits. A limiter counts the requests that it has admitted
-- for a key in a window, and admits no more than its limit; so what has one key
-- in each window is bounded in every window, and over any span of windows.
import Mathlib.Data.List.Count

namespace limits

/-! ## Limiters -/

section

variable {κ : Type} [DecidableEq κ]

/-- A limiter of at most `limit` requests for a key in a window. It sees the keys
and windows of the requests that it has admitted; which others it turns away is
its own affair. -/
structure Limiter (κ : Type) [DecidableEq κ] (limit : Nat) where
  admits : List (κ × Nat) → κ → Nat → Bool
  limited : ∀ log key window, admits log key window = true → log.count (key, window) < limit

/-- The limiter that admits whenever it may. -/
def fixed_window (κ : Type) [DecidableEq κ] (limit : Nat) : Limiter κ limit where
  admits log key window := decide (log.count (key, window) < limit)
  limited _ _ _ h := of_decide_eq_true h

variable {limit : Nat}

/-- The keys and windows of requests that were admitted one after the other. -/
inductive Limiter.Log (limiter : Limiter κ limit) : List (κ × Nat) → Prop
  | nil : Log limiter []
  | snoc {log : List (κ × Nat)} {key : κ} {window : Nat} :
      Log limiter log → limiter.admits log key window = true →
        Log limiter (log ++ [(key, window)])

theorem Limiter.Log.count_le {limiter : Limiter κ limit} {log : List (κ × Nat)}
    (h : limiter.Log log) (entry : κ × Nat) : log.count entry ≤ limit := by
  induction h with
  | nil => simp
  | @snoc log key window _ ha ih =>
    rw [List.count_append]
    by_cases hentry : (key, window) = entry
    · subst hentry
      have hlt := limiter.limited log key window ha
      simp only [List.count_singleton_self]
      omega
    · have hzero : [(key, window)].count entry = 0 :=
        List.count_eq_zero.mpr fun hmem => hentry (List.mem_singleton.mp hmem).symm
      omega

end

/-! ## Windows -/

section

variable {α κ : Type} [DecidableEq κ] {limit : Nat} {log : List α}

theorem countP_le_of_key (key : α → κ) (window : α → Nat) (p : α → Bool) (n : Nat)
    (hlimit : ∀ entry, (log.map fun a => (key a, window a)).count entry ≤ limit)
    (hkey : ∀ a ∈ log, ∀ b ∈ log, p a = true → p b = true → window a = n → window b = n →
      key a = key b) :
    log.countP (fun a => p a && decide (window a = n)) ≤ limit := by
  by_cases hsome : ∃ a ∈ log, p a = true ∧ window a = n
  · obtain ⟨a, ha, hpa, hna⟩ := hsome
    have hle := hlimit (key a, n)
    rw [List.count, List.countP_map] at hle
    refine Nat.le_trans (List.countP_mono_left fun b hb hpb => ?_) hle
    simp only [Bool.and_eq_true, decide_eq_true_eq] at hpb
    have hsame := hkey b hb a ha hpb.1 hpa hpb.2 hna
    simp [hsame, hpb.2]
  · have hzero : log.countP (fun a => p a && decide (window a = n)) = 0 := by
      rw [List.countP_eq_zero]
      intro a ha hpa
      simp only [Bool.and_eq_true, decide_eq_true_eq] at hpa
      exact hsome ⟨a, ha, hpa⟩
    omega

/-- What lies in `m` windows, and is bounded in each. -/
theorem length_le_of_windows (window : α → Nat) (k m : Nat)
    (hin : ∀ a ∈ log, k ≤ window a ∧ window a < k + m)
    (hlimit : ∀ n, log.countP (fun a => decide (window a = n)) ≤ limit) :
    log.length ≤ m * limit := by
  induction m generalizing log with
  | zero =>
    rcases log with _ | ⟨a, log⟩
    · simp
    · have h := hin a (by simp)
      omega
  | succ m ih =>
    -- the last window apart from the others
    let last : α → Bool := fun a => decide (window a = k + m)
    have hsplit := List.length_eq_countP_add_countP last (l := log)
    have hlast := hlimit (k + m)
    have hrest : (log.filter (fun a => !last a)).length ≤ m * limit := by
      apply ih
      · intro a ha
        obtain ⟨ha, hne⟩ := List.mem_filter.mp ha
        have h := hin a ha
        simp only [last, Bool.not_eq_true', decide_eq_false_iff_not] at hne
        omega
      · intro n
        refine Nat.le_trans ?_ (hlimit n)
        exact List.Sublist.countP_le List.filter_sublist
    rw [← List.countP_eq_length_filter] at hrest
    have hcount : log.countP (fun a => decide ¬last a = true) =
        log.countP (fun a => !last a) := by
      congr 1
      funext a
      cases last a <;> rfl
    rw [hcount] at hsplit
    change log.countP last ≤ limit at hlast
    rw [Nat.succ_mul]
    omega

/-- A time of a span of `m` windows falls into one of `m + 1`. -/
theorem window_of_span {size start t m : Nat} (hsize : 0 < size) (h1 : start ≤ t)
    (h2 : t ≤ start + m * size) :
    start / size ≤ t / size ∧ t / size < start / size + (m + 1) := by
  constructor
  · exact Nat.div_le_div_right h1
  · have hle : t / size ≤ (start + m * size) / size := Nat.div_le_div_right h2
    rw [Nat.add_mul_div_right start m hsize] at hle
    omega

end

end limits
