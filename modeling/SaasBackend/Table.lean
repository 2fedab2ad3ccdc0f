-- Tables of a relational store. The primary keys and the unique columns of a
-- table are part of its type: a table that breaks one of them cannot be built.
import Mathlib.Data.List.Nodup
import Mathlib.Data.List.Flatten
import Mathlib.Data.List.Pairwise

namespace relational

/-- A stored row: the primary key that the store gave it, and its columns. -/
structure Row (α : Type) where
  id : Nat
  val : α
deriving DecidableEq, Repr

/-- The unique keys of a row, one for each unique constraint that is not null
in it. No two rows of a table share a key. -/
class Keyed (α : Type) (κ : outParam Type) where
  keys : α → List κ

open Keyed

/-- The rows, oldest first, and the primary key of the next insert. A primary
key is never given out again, not after a delete either. -/
structure Table (α : Type) {κ : Type} [Keyed α κ] where
  rows : List (Row α)
  next : Nat
  id_lt : ∀ r ∈ rows, r.id < next
  id_nodup : (rows.map Row.id).Nodup
  key_nodup : (rows.flatMap (fun r => keys r.val)).Nodup

namespace Table

variable {α κ : Type} [Keyed α κ]

/-! ## The statements of the store -/

def empty : Table α where
  rows := []
  next := 0
  id_lt := by simp
  id_nodup := by simp
  key_nodup := by simp

/-- A table with one row. -/
def single (r : Row α) (h : (keys r.val).Nodup) : Table α where
  rows := [r]
  next := r.id + 1
  id_lt := by simp
  id_nodup := by simp
  key_nodup := by simpa using h

/-- `SELECT ... WHERE p`. -/
def select (t : Table α) (p : α → Bool) : List (Row α) := t.rows.filter (fun r => p r.val)

/-- `SELECT ... WHERE id = i`. -/
def byId (t : Table α) (i : Nat) : Option (Row α) := t.rows.find? (fun r => r.id == i)

/-- A new row may be stored: its keys are its own. -/
def Fits (t : Table α) (a : α) : Prop :=
  (keys a).Nodup ∧ ∀ k ∈ keys a, k ∉ t.rows.flatMap (fun r => keys r.val)

instance [DecidableEq κ] (t : Table α) (a : α) : Decidable (t.Fits a) :=
  inferInstanceAs (Decidable (_ ∧ _))

/-- The row that an insert of `a` stores. -/
def newRow (t : Table α) (a : α) : Row α := ⟨t.next, a⟩

def push (t : Table α) (a : α) (h : t.Fits a) : Table α where
  rows := t.rows ++ [t.newRow a]
  next := t.next + 1
  id_lt := by
    intro r hr
    rcases List.mem_append.mp hr with hr | hr
    · exact Nat.lt_succ_of_lt (t.id_lt r hr)
    · rw [List.mem_singleton.mp hr]
      exact Nat.lt_succ_self _
  id_nodup := by
    rw [List.map_append, List.nodup_append]
    refine ⟨t.id_nodup, List.nodup_singleton _, ?_⟩
    intro i hi j hj
    obtain ⟨r, hr, rfl⟩ := List.mem_map.mp hi
    simp only [List.map_cons, List.map_nil, List.mem_singleton] at hj
    have hlt := t.id_lt r hr
    subst hj
    exact Nat.ne_of_lt hlt
  key_nodup := by
    rw [List.flatMap_append, List.nodup_append]
    refine ⟨t.key_nodup, by simpa [newRow] using h.1, ?_⟩
    intro k hk k' hk'
    simp only [newRow, List.flatMap_cons, List.flatMap_nil, List.append_nil] at hk'
    rintro rfl
    exact h.2 k hk' hk

/-- One row of an `UPDATE ... WHERE id = i`. -/
def updateRow (i : Nat) (f : α → α) (r : Row α) : Row α :=
  if r.id = i then ⟨r.id, f r.val⟩ else r

@[simp] theorem updateRow_id (i : Nat) (f : α → α) (r : Row α) : (updateRow i f r).id = r.id := by
  unfold updateRow
  split <;> rfl

theorem updateRow_of_ne {i : Nat} {f : α → α} {r : Row α} (h : r.id ≠ i) :
    updateRow i f r = r := by
  simp [updateRow, h]

theorem updateRow_of_eq {i : Nat} {f : α → α} {r : Row α} (h : r.id = i) :
    updateRow i f r = ⟨r.id, f r.val⟩ := by
  simp [updateRow, h]

theorem keys_updateRow (i : Nat) (f : α → α) (hf : ∀ a, keys (f a) = keys a) (r : Row α) :
    keys (updateRow i f r).val = keys r.val := by
  unfold updateRow
  split
  · exact hf r.val
  · rfl

/-- `UPDATE ... WHERE id = i`, of columns that are in no unique constraint. -/
def update (t : Table α) (i : Nat) (f : α → α) (hf : ∀ a, keys (f a) = keys a) : Table α where
  rows := t.rows.map (updateRow i f)
  next := t.next
  id_lt := by
    intro r hr
    obtain ⟨r', hr', rfl⟩ := List.mem_map.mp hr
    rw [updateRow_id]
    exact t.id_lt r' hr'
  id_nodup := by
    have h : Row.id ∘ updateRow i f = Row.id := funext fun r => updateRow_id i f r
    rw [List.map_map, h]
    exact t.id_nodup
  key_nodup := by
    rw [List.flatMap_map]
    simp only [keys_updateRow i f hf]
    exact t.key_nodup

/-- `DELETE ... WHERE p`. -/
def delete (t : Table α) (p : Row α → Bool) : Table α where
  rows := t.rows.filter (fun r => !p r)
  next := t.next
  id_lt := fun r hr => t.id_lt r (List.mem_of_mem_filter hr)
  id_nodup := t.id_nodup.sublist (List.filter_sublist.map _)
  key_nodup := t.key_nodup.sublist (List.Sublist.flatMap List.filter_sublist _)

/-! ## Rows and their keys -/

@[simp] theorem rows_empty : (empty : Table α).rows = [] := rfl

@[simp] theorem rows_single (r : Row α) (h : (keys r.val).Nodup) : (single r h).rows = [r] := rfl

@[simp] theorem rows_push (t : Table α) (a : α) (h : t.Fits a) :
    (t.push a h).rows = t.rows ++ [t.newRow a] := rfl

@[simp] theorem newRow_val (t : Table α) (a : α) : (t.newRow a).val = a := rfl

@[simp] theorem rows_update (t : Table α) (i : Nat) (f : α → α) (hf : ∀ a, keys (f a) = keys a) :
    (t.update i f hf).rows = t.rows.map (updateRow i f) := rfl

/-- The rows after an update: the updated one, and all others as they were. -/
theorem mem_update {t : Table α} {i : Nat} {f : α → α} (hf : ∀ a, keys (f a) = keys a)
    {r' : Row α} : r' ∈ (t.update i f hf).rows ↔
      (∃ r ∈ t.rows, r.id = i ∧ r' = ⟨r.id, f r.val⟩) ∨ (r' ∈ t.rows ∧ r'.id ≠ i) := by
  rw [rows_update, List.mem_map]
  constructor
  · rintro ⟨r, hr, rfl⟩
    by_cases hi : r.id = i
    · exact Or.inl ⟨r, hr, hi, updateRow_of_eq hi⟩
    · rw [updateRow_of_ne hi]
      exact Or.inr ⟨hr, hi⟩
  · rintro (⟨r, hr, hi, rfl⟩ | ⟨hr, hi⟩)
    · exact ⟨r, hr, updateRow_of_eq hi⟩
    · exact ⟨r', hr, updateRow_of_ne hi⟩

theorem nodup_rows (t : Table α) : t.rows.Nodup := List.Nodup.of_map _ t.id_nodup

/-- Two rows with the same primary key are the same row. -/
theorem eq_of_id {t : Table α} {r r' : Row α} (hr : r ∈ t.rows) (hr' : r' ∈ t.rows)
    (h : r.id = r'.id) : r = r' := List.inj_on_of_nodup_map t.id_nodup hr hr' h

/-- Two rows that share a key are the same row. -/
theorem eq_of_key {t : Table α} {r r' : Row α} {k : κ} (hr : r ∈ t.rows) (hr' : r' ∈ t.rows)
    (hk : k ∈ keys r.val) (hk' : k ∈ keys r'.val) : r = r' := by
  have hp := (List.nodup_flatMap.mp t.key_nodup).2
  have : Std.Symm (Function.onFun List.Disjoint fun r : Row α => keys r.val) :=
    ⟨fun _ _ h _ ha hb => h hb ha⟩
  by_contra hne
  exact hp.forall hr hr' hne hk hk'

theorem mem_select {t : Table α} {p : α → Bool} {r : Row α} :
    r ∈ t.select p ↔ r ∈ t.rows ∧ p r.val = true := by
  simp [select]

theorem byId_eq_some {t : Table α} {i : Nat} {r : Row α} :
    t.byId i = some r ↔ r ∈ t.rows ∧ r.id = i := by
  constructor
  · intro h
    exact ⟨List.mem_of_find?_eq_some h, by simpa using List.find?_some h⟩
  · rintro ⟨hr, rfl⟩
    rcases h : t.byId r.id with _ | r'
    · have := List.find?_eq_none.mp h r hr
      simp at this
    · have hid : r'.id = r.id := by simpa using List.find?_some h
      rw [eq_of_id (List.mem_of_find?_eq_some h) hr hid]

theorem byId_of_mem {t : Table α} {r : Row α} (h : r ∈ t.rows) : t.byId r.id = some r :=
  byId_eq_some.mpr ⟨h, rfl⟩

theorem byId_eq_none {t : Table α} {i : Nat} : t.byId i = none ↔ ∀ r ∈ t.rows, r.id ≠ i := by
  simp [byId, List.find?_eq_none]

/-- A list with no two equal members has at most one member when its members are equal. -/
theorem nil_or_singleton {β : Type} {l : List β} (hn : l.Nodup) (h : ∀ a ∈ l, ∀ b ∈ l, a = b) :
    l = [] ∨ ∃ a, l = [a] := by
  match l, hn, h with
  | [], _, _ => exact Or.inl rfl
  | [a], _, _ => exact Or.inr ⟨a, rfl⟩
  | a :: b :: l, hn, h =>
    have hab : a = b := h a (by simp) b (by simp)
    simp [hab] at hn

theorem nodup_select (t : Table α) (p : α → Bool) : (t.select p).Nodup :=
  t.nodup_rows.filter _

theorem select_push (t : Table α) (a : α) (h : t.Fits a) (p : α → Bool) :
    (t.push a h).select p = t.select p ++ if p a then [t.newRow a] else [] := by
  unfold select
  rw [rows_push, List.filter_append]
  by_cases hp : p a = true <;> simp [hp]

/-- A select by a unique column finds at most one row. -/
theorem select_unique {t : Table α} {p : α → Bool} {k : κ}
    (hp : ∀ a, p a = true → k ∈ keys a) : t.select p = [] ∨ ∃ r, t.select p = [r] := by
  apply nil_or_singleton (t.nodup_select p)
  intro a ha b hb
  obtain ⟨ha, hpa⟩ := mem_select.mp ha
  obtain ⟨hb, hpb⟩ := mem_select.mp hb
  exact eq_of_key ha hb (hp _ hpa) (hp _ hpb)

/-- A member of a select that finds at most one row is the whole of it. -/
theorem select_eq_of_mem {t : Table α} {p : α → Bool} {r : Row α} (hr : r ∈ t.select p)
    (h : ∀ r' ∈ t.select p, r' = r) : t.select p = [r] := by
  have hall : ∀ a ∈ t.select p, ∀ b ∈ t.select p, a = b :=
    fun a ha b hb => (h a ha).trans (h b hb).symm
  rcases nil_or_singleton (t.nodup_select p) hall with h0 | ⟨a, h1⟩
  · rw [h0] at hr
    cases hr
  · rw [h1] at hr ⊢
    rw [List.mem_singleton.mp hr]

theorem byId_update {t : Table α} {j : Nat} {f : α → α} (hf : ∀ a, keys (f a) = keys a)
    (i : Nat) : (t.update j f hf).byId i = (t.byId i).map (updateRow j f) := by
  unfold byId
  rw [rows_update, List.find?_map]
  have h : ((fun r : Row α => r.id == i) ∘ updateRow j f) = fun r => r.id == i :=
    funext fun r => by simp
  rw [h]

theorem byId_push_of_some {t : Table α} {i : Nat} {r : Row α} (h : t.byId i = some r) (a : α)
    (hf : t.Fits a) : (t.push a hf).byId i = some r := by
  obtain ⟨hr, hi⟩ := byId_eq_some.mp h
  exact byId_eq_some.mpr ⟨List.mem_append_left _ hr, hi⟩

/-- An update that finds the row as it is to be. -/
theorem update_same {t : Table α} {i : Nat} {f : α → α} (hf : ∀ a, keys (f a) = keys a)
    (h : ∀ r ∈ t.rows, r.id = i → f r.val = r.val) : t.update i f hf = t := by
  have hrows : t.rows.map (updateRow i f) = t.rows := by
    refine (List.map_congr_left fun r hr => ?_).trans (List.map_id _)
    by_cases hi : r.id = i
    · rw [updateRow_of_eq hi, h r hr hi, id]
    · rw [updateRow_of_ne hi, id]
  obtain ⟨rows, next, _, _, _⟩ := t
  simp only [update, mk.injEq, and_true]
  exact hrows

/-- The updated row, by its primary key. -/
theorem byId_update_self {t : Table α} {f : α → α} (hf : ∀ a, keys (f a) = keys a) {r : Row α}
    (h : r ∈ t.rows) : (t.update r.id f hf).byId r.id = some ⟨r.id, f r.val⟩ :=
  byId_eq_some.mpr ⟨(mem_update hf).mpr (Or.inl ⟨r, h, rfl, rfl⟩), rfl⟩

theorem byId_push_self {t : Table α} {a : α} (h : t.Fits a) :
    (t.push a h).byId t.next = some (t.newRow a) :=
  byId_eq_some.mpr ⟨List.mem_append_right _ (List.mem_singleton_self _), rfl⟩

theorem byId_push_of_ne {t : Table α} {a : α} (h : t.Fits a) {i : Nat} (hi : i ≠ t.next) :
    (t.push a h).byId i = t.byId i := by
  unfold byId
  rw [rows_push, List.find?_append]
  have hnew : (t.newRow a).id ≠ i := fun hid => hi hid.symm
  simp [hnew]

/-! ## New rows -/

theorem newRow_not_mem (t : Table α) (a : α) : t.newRow a ∉ t.rows :=
  fun h => Nat.lt_irrefl _ (t.id_lt _ h)

theorem fits_iff_of_key {t : Table α} {a : α} {k : κ} (hk : keys a = [k]) :
    t.Fits a ↔ ∀ r ∈ t.rows, k ∉ keys r.val := by
  simp only [Fits, hk, List.nodup_singleton, List.mem_singleton, forall_eq, List.mem_flatMap,
    not_exists, not_and, true_and]

/-! ## Rows of an owner -/

/-- Two lists of rows that differ in rows with `mine` alone. -/
def SameBut (mine : Row α → Prop) (l l' : List (Row α)) : Prop :=
  ∀ r, ¬ mine r → (r ∈ l' ↔ r ∈ l)

theorem SameBut.refl (mine : Row α → Prop) (l : List (Row α)) : SameBut mine l l :=
  fun _ _ => Iff.rfl

theorem SameBut.trans {mine : Row α → Prop} {l l' l'' : List (Row α)} (h : SameBut mine l l')
    (h' : SameBut mine l' l'') : SameBut mine l l'' :=
  fun r hr => (h' r hr).trans (h r hr)

theorem SameBut.append {mine : Row α → Prop} {r : Row α} (h : mine r) (l : List (Row α)) :
    SameBut mine l (l ++ [r]) := by
  intro r' hr'
  rw [List.mem_append, List.mem_singleton]
  refine ⟨fun hmem => hmem.resolve_right ?_, Or.inl⟩
  rintro rfl
  exact hr' h

theorem SameBut.update {mine : Row α → Prop} {t : Table α} {i : Nat} {f : α → α}
    (hf : ∀ a, keys (f a) = keys a)
    (h : ∀ r ∈ t.rows, r.id = i → mine r ∧ mine ⟨r.id, f r.val⟩) :
    SameBut mine t.rows (t.update i f hf).rows := by
  intro r hr
  rw [mem_update hf]
  constructor
  · rintro (⟨r', hr', hi, rfl⟩ | ⟨hmem, _⟩)
    · exact absurd (h r' hr' hi).2 hr
    · exact hmem
  · intro hmem
    exact Or.inr ⟨hmem, fun hi => hr (h r hmem hi).1⟩

/-- An update that the condition of a delete does not see. -/
theorem update_delete (t : Table α) {i : Nat} {f : α → α} (hf : ∀ a, keys (f a) = keys a)
    {p : Row α → Bool} (hp : ∀ r, p (updateRow i f r) = p r) :
    (t.update i f hf).delete p = (t.delete p).update i f hf := by
  have hrows : (t.rows.map (updateRow i f)).filter (fun r => !p r) =
      (t.rows.filter (fun r => !p r)).map (updateRow i f) := by
    rw [List.filter_map]
    congr 2
    funext r
    simp [hp]
  unfold update delete
  simp only [hrows]

theorem byId_delete_of_some {t : Table α} {p : Row α → Bool} {i : Nat} {r : Row α}
    (h : t.byId i = some r) (hp : p r = false) : (t.delete p).byId i = some r := by
  obtain ⟨hr, hi⟩ := byId_eq_some.mp h
  exact byId_eq_some.mpr ⟨List.mem_filter.mpr ⟨hr, by simp [hp]⟩, hi⟩

/-! ## Foreign keys -/

/-- The table holds the primary key `i`. -/
def Has (t : Table α) (i : Nat) : Prop := ∃ r ∈ t.rows, r.id = i

instance (t : Table α) (i : Nat) : Decidable (t.Has i) :=
  inferInstanceAs (Decidable (∃ r ∈ t.rows, r.id = i))

theorem has_of_mem {t : Table α} {r : Row α} (h : r ∈ t.rows) : t.Has r.id := ⟨r, h, rfl⟩

theorem has_single {r : Row α} {i : Nat} (h : (keys r.val).Nodup) (hi : r.id = i) :
    (single r h).Has i := ⟨r, List.mem_singleton_self r, hi⟩

theorem Has.push {t : Table α} {i : Nat} (h : t.Has i) (a : α) (hf : t.Fits a) :
    (t.push a hf).Has i := by
  obtain ⟨r, hr, hi⟩ := h
  exact ⟨r, List.mem_append_left _ hr, hi⟩

theorem Has.update {t : Table α} {i : Nat} (h : t.Has i) (j : Nat) (f : α → α)
    (hf : ∀ a, keys (f a) = keys a) : (t.update j f hf).Has i := by
  obtain ⟨r, hr, hi⟩ := h
  exact ⟨updateRow j f r, List.mem_map_of_mem hr, by rw [updateRow_id, hi]⟩

theorem Has.byId {t : Table α} {i : Nat} (h : t.Has i) : ∃ r, t.byId i = some r := by
  obtain ⟨r, hr, rfl⟩ := h
  exact ⟨r, byId_of_mem hr⟩

section ForeignKeys

variable {β μ : Type} [Keyed β μ]

/-- Every reference that a row of `t` holds names a row of `u`. -/
def RefersTo (t : Table α) (ref : α → Option Nat) (u : Table β) : Prop :=
  ∀ r ∈ t.rows, ∀ i, ref r.val = some i → u.Has i

variable {t : Table α} {ref : α → Option Nat} {u : Table β}

theorem refersTo_empty (ref : α → Option Nat) (u : Table β) :
    (empty : Table α).RefersTo ref u := fun r hr => by simp at hr

theorem refersTo_single {r : Row α} (h : (keys r.val).Nodup)
    (hr : ∀ i, ref r.val = some i → u.Has i) : (single r h).RefersTo ref u := by
  intro r' hr' i hi
  rw [List.mem_singleton.mp hr'] at hi
  exact hr i hi

theorem RefersTo.push (h : t.RefersTo ref u) {a : α} (hf : t.Fits a)
    (ha : ∀ i, ref a = some i → u.Has i) : (t.push a hf).RefersTo ref u := by
  intro r hr i hi
  rcases List.mem_append.mp hr with hr | hr
  · exact h r hr i hi
  · rw [List.mem_singleton.mp hr] at hi
    exact ha i hi

theorem RefersTo.update (h : t.RefersTo ref u) (j : Nat) (f : α → α)
    (hf : ∀ a, keys (f a) = keys a) (href : ∀ a, ref (f a) = ref a) :
    (t.update j f hf).RefersTo ref u := by
  intro r hr i hi
  obtain ⟨r', hr', rfl⟩ := List.mem_map.mp hr
  apply h r' hr' i
  unfold updateRow at hi
  split at hi
  · rwa [href] at hi
  · exact hi

theorem RefersTo.delete (h : t.RefersTo ref u) (p : Row α → Bool) :
    (t.delete p).RefersTo ref u :=
  fun r hr i hi => h r (List.mem_of_mem_filter hr) i hi

theorem RefersTo.push_target (h : t.RefersTo ref u) (b : β) (hf : u.Fits b) :
    t.RefersTo ref (u.push b hf) := fun r hr i hi => (h r hr i hi).push b hf

theorem RefersTo.update_target (h : t.RefersTo ref u) (j : Nat) (f : β → β)
    (hf : ∀ b, keys (f b) = keys b) : t.RefersTo ref (u.update j f hf) :=
  fun r hr i hi => (h r hr i hi).update j f hf

end ForeignKeys

end Table

end relational
