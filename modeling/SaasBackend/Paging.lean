-- Lists that are read page by page. A reader follows the links from one page to
-- the next; each page is a query of its own, and a sort by one key may arrange
-- rows of the same key in another order for each query.
import Mathlib.Data.List.Perm.Basic
import Mathlib.Order.Lattice

namespace paging

/-- The `limit` rows after the first `offset` ones. -/
def slice {α : Type} (order : List α) (offset limit : Nat) : List α :=
  (order.drop offset).take limit

theorem take_append_slice {α : Type} (order : List α) (offset limit : Nat) :
    order.take offset ++ slice order offset limit = order.take (offset + limit) :=
  List.take_add.symm

theorem mem_slice {α : Type} {order : List α} {offset limit i : Nat} {a : α}
    (ha : order[i]? = some a) (h1 : offset ≤ i) (h2 : i < offset + limit) :
    a ∈ slice order offset limit := by
  apply List.mem_of_getElem? (i := i - offset)
  rw [slice, List.getElem?_take_of_lt (by omega), List.getElem?_drop]
  rwa [Nat.add_sub_cancel' h1]

theorem mem_slice_iff {α : Type} {order : List α} {offset limit : Nat} {a : α} :
    a ∈ slice order offset limit ↔
      ∃ i, order[i]? = some a ∧ offset ≤ i ∧ i < offset + limit := by
  constructor
  · intro h
    obtain ⟨j, hj, rfl⟩ := List.getElem_of_mem h
    simp only [slice, List.length_take, List.length_drop] at hj
    refine ⟨offset + j, ?_, by omega, by omega⟩
    simp only [slice, List.getElem_take, List.getElem_drop]
    exact List.getElem?_eq_getElem (by omega)
  · rintro ⟨i, ha, h1, h2⟩
    exact mem_slice ha h1 h2

/-! ## Links -/

section Links

variable {P : Type}

/-- Request `n` asks for `offset`, and each next request for the link of the page
before it, until there is none: the pages that are read. -/
inductive Visits (answer : Nat → Nat → Option P) (link : P → Option Nat) :
    Nat → Nat → List P → Prop
  | stop {n offset : Nat} {p : P} :
      answer n offset = some p → link p = none → Visits answer link n offset [p]
  | go {n offset next : Nat} {p : P} {ps : List P} :
      answer n offset = some p → link p = some next → Visits answer link (n + 1) next ps →
        Visits answer link n offset (p :: ps)

variable {answer : Nat → Nat → Option P} {link : P → Option Nat} {page : Nat → Nat → P}
  {n offset limit total : Nat} {ps qs : List P}

theorem Visits.unique (h : Visits answer link n offset ps) (h' : Visits answer link n offset qs) :
    ps = qs := by
  induction h generalizing qs with
  | stop ha hl =>
    cases h' with
    | stop ha' _ =>
      rw [ha] at ha'
      cases ha'
      rfl
    | go ha' hl' _ =>
      rw [ha] at ha'
      cases ha'
      rw [hl] at hl'
      cases hl'
  | go ha hl _ ih =>
    cases h' with
    | stop ha' hl' =>
      rw [ha] at ha'
      cases ha'
      rw [hl] at hl'
      cases hl'
    | go ha' hl' hrest =>
      rw [ha] at ha'
      cases ha'
      rw [hl] at hl'
      cases hl'
      rw [ih hrest]

theorem offset_after (offset limit k : Nat) :
    offset + (k + 1) * limit = offset + limit + k * limit := by
  rw [Nat.add_one_mul]
  omega

theorem request_after (n k : Nat) : n + (k + 1) = n + 1 + k := by omega

/-- Links to the next page end after the last row. -/
theorem visits_forward (page : Nat → Nat → P) (hlimit : 0 < limit)
    (hlink : ∀ n o, link (page n o) = if o + limit < total then some (o + limit) else none)
    (hanswer : ∀ k, k = 0 ∨ offset + k * limit < total →
      answer (n + k) (offset + k * limit) = some (page (n + k) (offset + k * limit))) :
    ∃ m, 0 < m ∧ total ≤ offset + m * limit ∧ Visits answer link n offset
      ((List.range m).map fun k => page (n + k) (offset + k * limit)) := by
  generalize hd : total - offset = d
  induction d using Nat.strongRecOn generalizing n offset with
  | ind d ih =>
    have h0 : answer n offset = some (page n offset) := by simpa using hanswer 0 (Or.inl rfl)
    by_cases hnext : offset + limit < total
    · have hrest : ∀ k, k = 0 ∨ offset + limit + k * limit < total →
          answer (n + 1 + k) (offset + limit + k * limit) =
            some (page (n + 1 + k) (offset + limit + k * limit)) := by
        intro k hk
        rw [← offset_after, ← request_after]
        apply hanswer (k + 1)
        right
        rw [offset_after]
        rcases hk with rfl | hk
        · simpa using hnext
        · exact hk
      obtain ⟨m, _, hm, hv⟩ := ih (total - (offset + limit)) (by omega) hrest rfl
      refine ⟨m + 1, Nat.succ_pos m, by rw [offset_after]; exact hm, ?_⟩
      rw [List.range_succ_eq_map, List.map_cons, List.map_map]
      have hlist : (List.range m).map ((fun k => page (n + k) (offset + k * limit)) ∘ Nat.succ) =
          (List.range m).map fun k => page (n + 1 + k) (offset + limit + k * limit) := by
        apply List.map_congr_left
        intro k _
        change page (n + (k + 1)) (offset + (k + 1) * limit) = _
        rw [offset_after, request_after]
      rw [hlist]
      refine .go (by simpa using h0) ?_ hv
      simp [hlink, hnext]
    · refine ⟨1, Nat.one_pos, by omega, ?_⟩
      have hnone : link (page n offset) = none := by rw [hlink, if_neg hnext]
      simpa using Visits.stop h0 hnone

/-- A reader that came to the end has got an answer to each of its requests. -/
theorem Visits.answered (h : Visits answer link n offset ps)
    (hlink : ∀ n o p, answer n o = some p →
      link p = if o + limit < total then some (o + limit) else none) :
    ∀ k, k = 0 ∨ offset + k * limit < total →
      ∃ p, answer (n + k) (offset + k * limit) = some p := by
  induction h with
  | @stop n offset p ha hl =>
    intro k hk
    rw [hlink _ _ _ ha] at hl
    have hlast : ¬ offset + limit < total := by
      intro hlt
      rw [if_pos hlt] at hl
      cases hl
    rcases k with _ | k
    · exact ⟨p, by simpa using ha⟩
    · rw [Nat.add_one_mul] at hk
      omega
  | @go n offset next p ps ha hl _ ih =>
    intro k hk
    rw [hlink _ _ _ ha] at hl
    split at hl
    · cases hl
      rcases k with _ | k
      · exact ⟨p, by simpa using ha⟩
      · rw [offset_after] at hk
        rw [offset_after, request_after]
        apply ih k
        right
        omega
    · cases hl

/-- Links to the page before end at an offset below `limit`. -/
theorem visits_backward (page : Nat → Nat → P) {r : Nat} (hr : r < limit)
    (hlink : ∀ n o, link (page n o) = if limit ≤ o then some (o - limit) else none) (q : Nat)
    (hanswer : ∀ k, k ≤ q →
      answer (n + k) (r + (q - k) * limit) = some (page (n + k) (r + (q - k) * limit))) :
    Visits answer link n (r + q * limit)
      ((List.range (q + 1)).map fun k => page (n + k) (r + (q - k) * limit)) := by
  induction q generalizing n with
  | zero =>
    have h0 := hanswer 0 (Nat.le_refl 0)
    simp only [Nat.sub_zero, Nat.zero_mul, Nat.add_zero] at h0
    have hnone : link (page n r) = none := by rw [hlink, if_neg (by omega)]
    simpa using Visits.stop h0 hnone
  | succ q ih =>
    have h0 := hanswer 0 (Nat.zero_le _)
    have hrest : ∀ k, k ≤ q → answer (n + 1 + k) (r + (q - k) * limit) =
        some (page (n + 1 + k) (r + (q - k) * limit)) := by
      intro k hk
      have := hanswer (k + 1) (by omega)
      rwa [Nat.add_sub_add_right, request_after] at this
    rw [List.range_succ_eq_map, List.map_cons, List.map_map]
    have hlist : (List.range (q + 1)).map
        ((fun k => page (n + k) (r + (q + 1 - k) * limit)) ∘ Nat.succ) =
        (List.range (q + 1)).map fun k => page (n + 1 + k) (r + (q - k) * limit) := by
      apply List.map_congr_left
      intro k _
      change page (n + (k + 1)) (r + (q + 1 - (k + 1)) * limit) = _
      rw [Nat.add_sub_add_right, request_after]
    rw [hlist]
    refine .go (by simpa using h0) ?_ (ih hrest)
    have hge : limit ≤ r + (q + 1) * limit := by
      rw [Nat.add_one_mul]
      omega
    have hsub : r + (q + 1) * limit - limit = r + q * limit := by
      rw [Nat.add_one_mul]
      omega
    rw [Nat.add_zero, Nat.sub_zero, hlink, if_pos hge, hsub]

end Links

/-! ## Sorting by a key -/

section Order

variable {α κ : Type} [LinearOrder κ] {key : α → κ} {rows order : List α}

/-- What `ORDER BY key DESC` may return of `rows`. -/
structure Arranges (key : α → κ) (rows order : List α) : Prop where
  perm : order.Perm rows
  sorted : order.Pairwise fun a b => key b ≤ key a

/-- The cut after the first `b` rows falls among rows of one key. -/
def Splits (key : α → κ) (rows : List α) (b : Nat) : Prop :=
  ∃ k, rows.countP (fun a => decide (k < key a)) < b ∧
    b < rows.countP (fun a => decide (k ≤ key a))

theorem Splits.lt_length {b : Nat} (h : Splits key rows b) : b < rows.length := by
  obtain ⟨k, _, hle⟩ := h
  exact Nat.lt_of_lt_of_le hle List.countP_le_length

/-- Keys that are all distinct are split nowhere. -/
theorem not_splits_of_nodup (h : (rows.map key).Nodup) (b : Nat) : ¬ Splits key rows b := by
  rintro ⟨k, hlt, hle⟩
  have hsum : rows.countP (fun a => decide (k ≤ key a)) =
      rows.countP (fun a => decide (k < key a)) + (rows.map key).count k := by
    clear h hlt hle
    induction rows with
    | nil => rfl
    | cons a rows ih =>
      rw [List.countP_cons, List.countP_cons, List.map_cons, List.count_cons, ih]
      rcases lt_trichotomy k (key a) with hka | hka | hka
      · simp [hka, le_of_lt hka, ne_of_gt hka]
        omega
      · simp [hka, Nat.add_assoc]
      · simp [not_le.mpr hka, not_lt_of_gt hka, ne_of_lt hka]
  have hone := List.nodup_iff_count.mp h k
  omega

/-- What holds of all rows from some key on, holds of the first rows. -/
theorem filter_eq_take {p : α → Bool} (h : order.Pairwise fun a b => key b ≤ key a)
    (hp : ∀ a b, key b ≤ key a → p b = true → p a = true) :
    order.filter p = order.take (order.countP p) := by
  induction order with
  | nil => rfl
  | cons a order ih =>
    obtain ⟨ha, horder⟩ := List.pairwise_cons.mp h
    by_cases hpa : p a = true
    · rw [List.filter_cons_of_pos hpa, List.countP_cons_of_pos hpa, List.take_succ_cons,
        ih horder]
    · have hnone : ∀ b ∈ a :: order, ¬ p b = true := by
        intro b hb hpb
        rcases List.mem_cons.mp hb with rfl | hb
        · exact hpa hpb
        · exact hpa (hp a b (ha b hb) hpb)
      rw [List.filter_eq_nil_iff.mpr hnone, List.countP_eq_zero.mpr hnone, List.take_zero]

/-- It holds of the first rows alone. -/
theorem holds_iff_lt {p : α → Bool} (h : order.Pairwise fun a b => key b ≤ key a)
    (hp : ∀ a b, key b ≤ key a → p b = true → p a = true) {i : Nat} {a : α}
    (ha : order[i]? = some a) : p a = true ↔ i < order.countP p := by
  obtain ⟨hi, rfl⟩ := List.getElem?_eq_some_iff.mp ha
  constructor
  · intro hpa
    have hall : ∀ x ∈ order.take (i + 1), p x = true := by
      intro x hx
      obtain ⟨j, hj, rfl⟩ := List.getElem_of_mem hx
      rw [List.length_take] at hj
      rw [List.getElem_take]
      by_cases hij : j = i
      · subst hij
        exact hpa
      · exact hp _ _ (List.pairwise_iff_getElem.mp h j i (by omega) hi (by omega)) hpa
    calc i < (order.take (i + 1)).length := by rw [List.length_take]; omega
      _ = (order.take (i + 1)).countP p := (List.countP_eq_length.mpr hall).symm
      _ ≤ order.countP p := (List.take_sublist _ _).countP_le
  · intro hlt
    have hmem : order[i] ∈ order.take (order.countP p) := by
      apply List.mem_of_getElem? (i := i)
      rw [List.getElem?_take_of_lt hlt, ha]
    rw [← filter_eq_take h hp, List.mem_filter] at hmem
    exact hmem.2

theorem le_closed (k : κ) (a b : α) (hab : key b ≤ key a) (hb : decide (k ≤ key b) = true) :
    decide (k ≤ key a) = true := by
  rw [decide_eq_true_eq] at hb ⊢
  exact le_trans hb hab

theorem lt_closed (k : κ) (a b : α) (hab : key b ≤ key a) (hb : decide (k < key b) = true) :
    decide (k < key a) = true := by
  rw [decide_eq_true_eq] at hb ⊢
  exact lt_of_lt_of_le hb hab

namespace Arranges

theorem le_iff (h : Arranges key rows order) {i : Nat} {a : α} (ha : order[i]? = some a) (k : κ) :
    k ≤ key a ↔ i < rows.countP fun x => decide (k ≤ key x) := by
  rw [← h.perm.countP_eq, ← holds_iff_lt h.sorted (le_closed k) ha, decide_eq_true_eq]

theorem lt_iff (h : Arranges key rows order) {i : Nat} {a : α} (ha : order[i]? = some a) (k : κ) :
    k < key a ↔ i < rows.countP fun x => decide (k < key x) := by
  rw [← h.perm.countP_eq, ← holds_iff_lt h.sorted (lt_closed k) ha, decide_eq_true_eq]

/-- The rows from a key on stand first. -/
theorem filter_le (h : Arranges key rows order) (k : κ) :
    order.filter (fun a => decide (k ≤ key a)) =
      order.take (rows.countP fun a => decide (k ≤ key a)) := by
  rw [← h.perm.countP_eq]
  exact filter_eq_take h.sorted (le_closed k)

/-- The row before a cut that splits no key is the last one of its key. -/
theorem count_of_not_splits (h : Arranges key rows order) {b : Nat} {a : α}
    (hb : ¬ Splits key rows (b + 1)) (ha : order[b]? = some a) :
    rows.countP (fun x => decide (key a ≤ key x)) = b + 1 := by
  have hle := (h.le_iff ha (key a)).mp (le_refl _)
  have hlt := mt (h.lt_iff ha (key a)).mpr (lt_irrefl _)
  by_contra hne
  exact hb ⟨key a, by omega, by omega⟩

/-- A cut that splits no key leaves the same rows before it, however the rows
are arranged. -/
theorem take_perm {order' : List α} (h : Arranges key rows order) (h' : Arranges key rows order')
    {b : Nat} (hb : ¬ Splits key rows b) : (order.take b).Perm (order'.take b) := by
  have hlen : order.length = order'.length := (h.perm.trans h'.perm.symm).length_eq
  rcases b with _ | b
  · simp
  by_cases hlt : b < order.length
  · have hcount := h.count_of_not_splits hb (List.getElem?_eq_getElem hlt)
    rw [← hcount, ← h.filter_le, ← h'.filter_le]
    exact (h.perm.trans h'.perm.symm).filter _
  · rw [List.take_of_length_le (by omega), List.take_of_length_le (by omega)]
    exact h.perm.trans h'.perm.symm

end Arranges

/-- Pages of queries that each arrange the rows in their own way: cuts that split
no key leave them together the rows of one arrangement. -/
theorem pages_perm {orders : Nat → List α} (h : ∀ n, Arranges key rows (orders n)) {limit : Nat}
    (hcuts : ∀ k, ¬ Splits key rows (k * limit)) (ho : Arranges key rows order) (m : Nat) :
    ((List.range m).flatMap fun n => slice (orders n) (n * limit) limit).Perm
      (order.take (m * limit)) := by
  induction m with
  | zero => simp
  | succ m ih =>
    have hfirst := (h m).take_perm ho (hcuts m)
    have hnext := (h m).take_perm ho (hcuts (m + 1))
    rw [List.range_succ, List.flatMap_append, List.flatMap_singleton]
    refine ((ih.trans hfirst.symm).append_right _).trans ?_
    rw [take_append_slice, ← Nat.add_one_mul]
    exact hnext

/-- Around a cut that splits a key there are two rows that may change places. -/
theorem Arranges.swap (h : Arranges key rows order) {b : Nat} (hb : Splits key rows b) :
    ∃ before x y after, order = before ++ x :: y :: after ∧ before.length + 1 = b ∧
      Arranges key rows (before ++ y :: x :: after) := by
  obtain ⟨k, hlt, hle⟩ := hb
  have hlen : rows.countP (fun a => decide (k ≤ key a)) ≤ order.length := by
    rw [← h.perm.countP_eq]
    exact List.countP_le_length
  obtain ⟨i, rfl⟩ : ∃ i, b = i + 1 := ⟨b - 1, by omega⟩
  -- Both rows beside the cut have the key `k`.
  have hkey : ∀ (j : Nat) (hj : j < order.length), i ≤ j → j ≤ i + 1 → key order[j] = k := by
    intro j hj h1 h2
    have ha := List.getElem?_eq_getElem hj
    apply le_antisymm
    · exact not_lt.mp (mt (h.lt_iff ha k).mp (by omega))
    · exact (h.le_iff ha k).mpr (by omega)
  have hx := hkey i (by omega) (by omega) (by omega)
  have hy := hkey (i + 1) (by omega) (by omega) (by omega)
  have horder : order = order.take i ++ order[i] :: order[i + 1] :: order.drop (i + 2) := by
    rw [← List.drop_eq_getElem_cons, ← List.drop_eq_getElem_cons, List.take_append_drop]
  have hperm : (order.take i ++ order[i + 1] :: order[i] :: order.drop (i + 2)).Perm order := by
    conv_rhs => rw [horder]
    exact (List.Perm.swap _ _ _).append_left _
  refine ⟨order.take i, order[i], order[i + 1], order.drop (i + 2), horder, ?_, ?_⟩
  · rw [List.length_take]
    omega
  · refine ⟨hperm.trans h.perm, ?_⟩
    have hs := h.sorted
    rw [horder] at hs
    simp only [List.pairwise_append, List.pairwise_cons, List.mem_cons, forall_eq_or_imp, hx,
      hy] at hs ⊢
    tauto

theorem exists_arranges (key : α → κ) (rows : List α) : ∃ order, Arranges key rows order := by
  refine ⟨rows.mergeSort fun a b => decide (key b ≤ key a), List.mergeSort_perm _ _, ?_⟩
  have hsorted : (rows.mergeSort fun a b => decide (key b ≤ key a)).Pairwise
      fun a b => decide (key b ≤ key a) = true := by
    refine List.pairwise_mergeSort (fun a b c hab hbc => ?_) (fun a b => ?_) rows
    · rw [decide_eq_true_eq] at hab hbc ⊢
      exact le_trans hbc hab
    · simpa using le_total (key b) (key a)
  exact hsorted.imp fun hab => by simpa using hab

/-- At a page that begins within a key, two queries may show one row on both
sides of the cut. -/
theorem Splits.shown_twice {limit k : Nat} (hlimit : 0 < limit)
    (h : Splits key rows (k * limit)) : ∃ j order order' x, k = j + 1 ∧ Arranges key rows order ∧
      Arranges key rows order' ∧ x ∈ slice order (j * limit) limit ∧
      x ∈ slice order' ((j + 1) * limit) limit := by
  obtain ⟨order, ho⟩ := exists_arranges key rows
  obtain ⟨before, x, y, after, horder, hlen, ho'⟩ := ho.swap h
  obtain ⟨j, rfl⟩ : ∃ j, k = j + 1 := by
    rcases k with _ | j
    · simp at hlen
    · exact ⟨j, rfl⟩
  rw [Nat.add_one_mul] at hlen
  refine ⟨j, order, _, x, rfl, ho, ho', ?_, ?_⟩
  · have hx : order[before.length]? = some x := by rw [horder]; simp
    exact mem_slice hx (by omega) (by omega)
  · have hx : (before ++ y :: x :: after)[before.length + 1]? = some x := by simp
    rw [Nat.add_one_mul]
    exact mem_slice hx (by omega) (by omega)

end Order

end paging
