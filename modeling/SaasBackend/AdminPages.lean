-- The lists of the back office, read page by page along their links: which rows
-- a reader sees who comes from the first page, and who comes from any other.
-- Every page is a query of its own, and PostgreSQL sorts for each one anew.
import Mathlib.Data.Nat.Basic
import SaasBackend.Paging
import SaasBackend.AdminService
import SaasBackend.FlagProvenance

open relational async paging

namespace saas

/-! ## The lists and their queries -/

/-- The column `created_at` of the tables that nothing else reads it from. -/
structure CreatedAt where
  users : UUID → Time
  payments : UUID → Time

/-- The functions of `admin/repository.py` that call `paginate`. -/
inductive Listing : Type → Type where
  | list_users (is_active is_verified is_admin : Option Bool) : Listing User
  | get_user_subscriptions (user_id : UUID) : Listing Subscription
  | get_user_transactions (user_id : UUID) : Listing Payment
  | list_subscriptions : Listing Subscription
  | list_payments : Listing Payment

namespace Listing

variable {α : Type}

/-- The rows of the `WHERE` clause. -/
def matching : {α : Type} → Listing α → Db → List (Row α)
  | _, list_users is_active is_verified is_admin, db => db.users.rows.filter fun u =>
    is_active.all (u.val.is_active == ·) && is_verified.all (u.val.is_verified == ·) &&
      is_admin.all (u.val.is_admin == ·)
  | _, get_user_subscriptions user_id, db => db.subscriptions.rows.filter fun s =>
    decide (s.val.user_id = user_id)
  | _, get_user_transactions user_id, db => db.payments.rows.filter fun p =>
    decide (p.val.user_id = user_id)
  | _, list_subscriptions, db => db.subscriptions.rows
  | _, list_payments, db => db.payments.rows

/-- The column of the `ORDER BY column DESC` clause. -/
def column (created_at : CreatedAt) : {α : Type} → Listing α → Row α → Time
  | _, list_users _ _ _ => fun u => created_at.users u.id
  | _, get_user_subscriptions _ => fun s => s.val.started_at
  | _, get_user_transactions _ => fun p => created_at.payments p.id
  | _, list_subscriptions => fun s => s.val.started_at
  | _, list_payments => fun p => created_at.payments p.id

/-- A page, by a query that puts the rows of the `WHERE` clause in the order of `sort`. -/
def page (listing : Listing α) (sort : List (Row α) → List (Row α)) (limit offset : Nat) :
    M (Page α) :=
  paginate (fun db => sort (listing.matching db)) limit offset

/-- A page as the repository reads it. -/
def newest_page : {α : Type} → Listing α → (limit offset : Nat) → M (Page α)
  | _, list_users is_active is_verified is_admin =>
    AdminUserRepository.list_users is_active is_verified is_admin
  | _, get_user_subscriptions user_id => AdminUserRepository.get_user_subscriptions user_id
  | _, get_user_transactions user_id => AdminUserRepository.get_user_transactions user_id
  | _, list_subscriptions => AdminSubscriptionRepository.list_subscriptions
  | _, list_payments => AdminPaymentRepository.list_payments

/-- The order in which the repository reads them. -/
def newest : {α : Type} → Listing α → List (Row α) → List (Row α)
  | _, list_users _ _ _ => List.reverse
  | _, get_user_subscriptions _ => last_started_first
  | _, get_user_transactions _ => List.reverse
  | _, list_subscriptions => last_started_first
  | _, list_payments => List.reverse

theorem newest_page_eq (listing : Listing α) (limit offset : Nat) :
    listing.newest_page limit offset = listing.page listing.newest limit offset := by
  cases listing with
  | list_users =>
    simp only [newest_page, page, newest, matching, AdminUserRepository.list_users, newest_first,
      List.filter_reverse]
  | get_user_subscriptions => rfl
  | get_user_transactions =>
    simp only [newest_page, page, newest, matching, AdminUserRepository.get_user_transactions,
      newest_first, List.filter_reverse]
  | list_subscriptions => rfl
  | list_payments => rfl

theorem nodup_matching (listing : Listing α) (db : Db) : (listing.matching db).Nodup := by
  cases listing with
  | list_users => exact db.users.nodup_rows.filter _
  | get_user_subscriptions => exact db.subscriptions.nodup_rows.filter _
  | get_user_transactions => exact db.payments.nodup_rows.filter _
  | list_subscriptions => exact db.subscriptions.nodup_rows
  | list_payments => exact db.payments.nodup_rows

end Listing

/-! ## One page -/

section

variable {α : Type} {query : Db → List (Row α)} {limit offset : Nat} {w : World}

/-- The answer to a request for a page, if it is one. -/
theorem paginate.answer (query : Db → List (Row α)) (limit offset : Nat) (w : World) :
    ((paginate query limit offset).run w).1.toOption =
      if offset < bigint_end then some (page_of (query w.db) limit offset) else none := by
  rw [paginate.spec]
  by_cases ho : offset < bigint_end
  · simp [ho, Except.toOption]
  · simp [ho, Except.toOption]

theorem paginate.answer_ok (query : Db → List (Row α)) (limit : Nat) (w : World)
    (h : offset < bigint_end) :
    ((paginate query limit offset).run w).1.toOption =
      some (page_of (query w.db) limit offset) := by
  rw [paginate.answer, if_pos h]

theorem paginate.answer_inv {p : Page α}
    (h : ((paginate query limit offset).run w).1.toOption = some p) :
    offset < bigint_end ∧ p = page_of (query w.db) limit offset := by
  rw [paginate.answer] at h
  split at h
  · rename_i ho
    exact ⟨ho, (Option.some.inj h).symm⟩
  · cases h

end

/-! ## From the first page on -/

namespace Listing

variable {α : Type} {listing : Listing α} {created_at : CreatedAt}
  {sorts : Nat → List (Row α) → List (Row α)} {limit : Nat} {w : World} {pages : List (Page α)}

/-- The answer to request `n`, while nothing changes the tables. -/
def answer (listing : Listing α) (sorts : Nat → List (Row α) → List (Row α)) (limit : Nat)
    (w : World) (n offset : Nat) : Option (Page α) :=
  ((listing.page (sorts n) limit offset).run w).1.toOption

/-- Every request sorts by the column, and that is all that is known of its order. -/
def Sorted (listing : Listing α) (created_at : CreatedAt) (w : World)
    (sorts : Nat → List (Row α) → List (Row α)) : Prop :=
  ∀ n, Arranges (listing.column created_at) (listing.matching w.db)
    (sorts n (listing.matching w.db))

/-- Rows are created in the order of their times. -/
structure CreatedInOrder (created_at : CreatedAt) (db : Db) : Prop where
  users : db.users.rows.Pairwise fun r r' => created_at.users r.id ≤ created_at.users r'.id
  payments : db.payments.rows.Pairwise fun r r' =>
    created_at.payments r.id ≤ created_at.payments r'.id

theorem arranges_last_started_first (rows : List (Row Subscription)) :
    Arranges (fun r => r.val.started_at) rows (last_started_first rows) where
  perm := (List.perm_insertionSort _ _).trans rows.reverse_perm
  sorted := List.pairwise_insertionSort _ _

theorem arranges_reverse {β κ : Type} [LinearOrder κ] {key : β → κ} {rows : List β}
    (h : rows.Pairwise fun a b => key a ≤ key b) : Arranges key rows rows.reverse where
  perm := rows.reverse_perm
  sorted := List.pairwise_reverse.mpr h

/-- The repository's own order is one that the column allows. -/
theorem newest_sorted (listing : Listing α) (h : CreatedInOrder created_at w.db) :
    listing.Sorted created_at w fun _ => listing.newest := by
  intro n
  cases listing with
  | list_users => exact arranges_reverse (h.users.sublist List.filter_sublist)
  | get_user_subscriptions => exact arranges_last_started_first _
  | get_user_transactions => exact arranges_reverse (h.payments.sublist List.filter_sublist)
  | list_subscriptions => exact arranges_last_started_first _
  | list_payments => exact arranges_reverse h.payments

/-- The links from the first page lead to an end, over every row exactly once. -/
def ReadOnce (listing : Listing α) (sorts : Nat → List (Row α) → List (Row α)) (limit : Nat)
    (w : World) : Prop :=
  ∃ pages, Visits (listing.answer sorts limit w) Page.next_offset 0 0 pages ∧
    (pages.flatMap Page.data).Perm (listing.matching w.db) ∧
    ∀ p ∈ pages, p.total = (listing.matching w.db).length

theorem Sorted.length (h : listing.Sorted created_at w sorts) (n : Nat) :
    (sorts n (listing.matching w.db)).length = (listing.matching w.db).length :=
  (h n).perm.length_eq

/-- The page that request `n` finds at an offset. -/
def found (listing : Listing α) (sorts : Nat → List (Row α) → List (Row α)) (limit : Nat)
    (w : World) (n offset : Nat) : Page α :=
  page_of (sorts n (listing.matching w.db)) limit offset

theorem Sorted.next_offset (h : listing.Sorted created_at w sorts) (n offset : Nat) :
    (listing.found sorts limit w n offset).next_offset =
      if offset + limit < (listing.matching w.db).length then some (offset + limit) else none := by
  simp only [found, page_of, h.length]

/-- What a reader sees whose offsets are all in the range of a `bigint`. -/
theorem Sorted.visits (h : listing.Sorted created_at w sorts) (hlimit : 0 < limit)
    (hrange : ∀ k, k * limit < (listing.matching w.db).length → k * limit < bigint_end) :
    ∃ m, 0 < m ∧ (listing.matching w.db).length ≤ m * limit ∧
      Visits (listing.answer sorts limit w) Page.next_offset 0 0
        ((List.range m).map fun k => listing.found sorts limit w k (k * limit)) := by
  have hanswer : ∀ k, k = 0 ∨ 0 + k * limit < (listing.matching w.db).length →
      listing.answer sorts limit w (0 + k) (0 + k * limit) =
        some (listing.found sorts limit w (0 + k) (0 + k * limit)) := by
    intro k hk
    apply paginate.answer_ok
    rcases hk with rfl | hk
    · simp [bigint_end]
    · rw [Nat.zero_add] at hk ⊢
      exact hrange k hk
  obtain ⟨m, hm, hlen, hv⟩ := visits_forward _ hlimit h.next_offset hanswer
  refine ⟨m, hm, by simpa using hlen, ?_⟩
  simpa using hv

theorem data_found (m : Nat) :
    ((List.range m).map fun k => listing.found sorts limit w k (k * limit)).flatMap Page.data =
      (List.range m).flatMap fun k =>
        slice (sorts k (listing.matching w.db)) (k * limit) limit := by
  rw [List.flatMap_map]
  rfl

/-- Cuts between pages that split no time. -/
theorem Sorted.read_once (h : listing.Sorted created_at w sorts) (hlimit : 0 < limit)
    (hcuts : ∀ k, k * limit < (listing.matching w.db).length → k * limit < bigint_end ∧
      ¬ Splits (listing.column created_at) (listing.matching w.db) (k * limit)) :
    listing.ReadOnce sorts limit w := by
  obtain ⟨m, hm, hlen, hv⟩ := h.visits hlimit fun k hk => (hcuts k hk).1
  refine ⟨_, hv, ?_, ?_⟩
  · have hnosplit : ∀ k, ¬ Splits (listing.column created_at) (listing.matching w.db)
        (k * limit) := by
      intro k hk
      exact (hcuts k hk.lt_length).2 hk
    have hperm := pages_perm h hnosplit (h 0) m
    rw [List.take_of_length_le (by rw [h.length]; exact hlen)] at hperm
    rw [data_found]
    exact hperm.trans (h 0).perm
  · intro p hp
    obtain ⟨k, _, rfl⟩ := List.mem_map.mp hp
    exact h.length k

/-- A reader that came to the end asked for no offset beyond a `bigint`. -/
theorem Sorted.range_of_visits (h : listing.Sorted created_at w sorts)
    (hv : Visits (listing.answer sorts limit w) Page.next_offset 0 0 pages) {k : Nat}
    (hk : k * limit < (listing.matching w.db).length) : k * limit < bigint_end := by
  have hlink : ∀ n o p, listing.answer sorts limit w n o = some p → p.next_offset =
      if o + limit < (listing.matching w.db).length then some (o + limit) else none := by
    intro n o p hp
    obtain ⟨_, rfl⟩ := paginate.answer_inv hp
    exact h.next_offset n o
  obtain ⟨p, hp⟩ := hv.answered hlink k (Or.inr (by simpa using hk))
  have hrange := (paginate.answer_inv hp).1
  rwa [Nat.zero_add] at hrange

/-- A cut that splits a time: one request may put before it what the next one
puts behind it. -/
theorem not_read_once_of_splits (hlimit : 0 < limit) {k : Nat}
    (hk : Splits (listing.column created_at) (listing.matching w.db) (k * limit)) :
    ∃ sorts, listing.Sorted created_at w sorts ∧ ¬ listing.ReadOnce sorts limit w := by
  obtain ⟨j, order, order', x, rfl, ho, ho', hx, hx'⟩ := hk.shown_twice hlimit
  have hsorted : listing.Sorted created_at w fun n _ => if n ≤ j then order else order' := by
    intro n
    by_cases hn : n ≤ j
    · simpa [hn] using ho
    · simpa [hn] using ho'
  refine ⟨_, hsorted, ?_⟩
  rintro ⟨pages, hv, hperm, _⟩
  obtain ⟨m, _, hlen, hv'⟩ := hsorted.visits hlimit fun _ => hsorted.range_of_visits hv
  rw [hv.unique hv', data_found] at hperm
  have hjm : j + 1 < m := by
    by_contra hge
    have := Nat.mul_le_mul_right limit (Nat.not_lt.mp hge)
    have := hk.lt_length
    omega
  -- The row is on two of the pages, and in the table once.
  have hnodup := hperm.nodup_iff.mpr (listing.nodup_matching w.db)
  have hdisjoint := (List.nodup_flatMap.mp hnodup).2
  have hpages := List.pairwise_iff_getElem.mp hdisjoint j (j + 1) (by simp; omega)
    (by simp; omega) (Nat.lt_succ_self j)
  simp only [List.getElem_range, Function.onFun, Nat.le_refl, if_true, Nat.not_succ_le_self,
    if_false] at hpages
  exact hpages hx hx'

/-- The order of the repository, when rows are created in the order of their times. -/
theorem sorted_newest (listing : Listing α) {created_at : CreatedAt} {w : World}
    (h : (listing.matching w.db).Pairwise fun a b =>
      listing.column created_at a ≤ listing.column created_at b) :
    listing.Sorted created_at w fun _ => List.reverse := by
  intro n
  exact ⟨List.reverse_perm _, List.pairwise_reverse.mpr h⟩

end Listing

open Listing

/-- Whatever order PostgreSQL puts rows of one time in, a reader who follows
`next_offset` from the first page sees every row once, if and only if no page
begins between rows of one time (and no offset on the way is beyond a `bigint`). -/
theorem rows_are_read_once_iff {α : Type} (listing : Listing α) (created_at : CreatedAt)
    (w : World) {limit : Nat} (hlimit : 0 < limit) :
    (∀ sorts, listing.Sorted created_at w sorts → listing.ReadOnce sorts limit w) ↔
      ∀ k, k * limit < (listing.matching w.db).length → k * limit < bigint_end ∧
        ¬ Splits (listing.column created_at) (listing.matching w.db) (k * limit) := by
  constructor
  · intro h k hk
    refine ⟨?_, fun hsplits => ?_⟩
    · obtain ⟨order, ho⟩ := exists_arranges (listing.column created_at) (listing.matching w.db)
      have hsorted : listing.Sorted created_at w fun _ _ => order := fun _ => ho
      obtain ⟨pages, hv, _⟩ := h _ hsorted
      exact hsorted.range_of_visits hv hk
    · obtain ⟨sorts, hsorted, hnot⟩ := not_read_once_of_splits hlimit hsplits
      exact hnot (h sorts hsorted)
  · intro h sorts hsorted
    exact hsorted.read_once hlimit h

namespace Sample

def all_users : Listing User := .list_users none none none

/-- Eva and the admin registered one after the other. -/
def apart : CreatedAt := ⟨fun u => 10 + u, fun _ => 0⟩

/-- Both accounts have the same time. -/
def at_once : CreatedAt := ⟨fun _ => 10, fun _ => 0⟩

/-- The admin first, and from the second query on the other way round. -/
def changing (n : Nat) (rows : List (Row User)) : List (Row User) :=
  if n = 0 then rows.reverse else rows

theorem staffed_users : all_users.matching staffed.world.db = [⟨0, eva⟩, ⟨1, root⟩] := by decide

end Sample

open Sample in
theorem rows_are_read_once_iff_sample :
    all_users.ReadOnce (fun _ => List.reverse) 1 staffed.world := by
  refine (rows_are_read_once_iff all_users apart staffed.world Nat.one_pos).mpr ?_ _
    (sorted_newest all_users ?_)
  · rw [staffed_users]
    intro k hk
    simp only [List.length_cons, List.length_nil] at hk
    refine ⟨by simp only [bigint_end]; omega, ?_⟩
    exact not_splits_of_nodup (by decide) _
  · rw [staffed_users]
    simp [all_users, column, apart]

open Sample in
/-- The admin is on both pages, and Eva on none. -/
theorem rows_are_not_read_once :
    Visits (all_users.answer changing 1 staffed.world) Page.next_offset 0 0
        [⟨[⟨1, root⟩], 2, 1, 0, true, some 1, none⟩, ⟨[⟨1, root⟩], 2, 1, 1, false, none, some 0⟩] ∧
      ¬ ∀ sorts, all_users.Sorted at_once staffed.world sorts →
        all_users.ReadOnce sorts 1 staffed.world := by
  have hv : Visits (all_users.answer changing 1 staffed.world) Page.next_offset 0 0
      [⟨[⟨1, root⟩], 2, 1, 0, true, some 1, none⟩,
        ⟨[⟨1, root⟩], 2, 1, 1, false, none, some 0⟩] :=
    .go (by decide) rfl (.stop (by decide) rfl)
  refine ⟨hv, fun h => ?_⟩
  have hsorted : all_users.Sorted at_once staffed.world changing := by
    intro n
    rw [staffed_users]
    by_cases hn : n = 0
    · refine ⟨?_, ?_⟩
      · simp [changing, hn, List.Perm.swap]
      · simp [changing, hn, all_users, column, at_once]
    · refine ⟨?_, ?_⟩
      · simp [changing, hn]
      · simp [changing, hn, all_users, column, at_once]
  obtain ⟨pages, hpages, hperm, _⟩ := h changing hsorted
  rw [hpages.unique hv, staffed_users] at hperm
  have hmem : (⟨0, eva⟩ : Row User) ∈ [(⟨1, root⟩ : Row User), ⟨1, root⟩] :=
    hperm.mem_iff.mpr (by simp)
  simp at hmem

/-! ## From any page -/

section

variable {α : Type} {query : Db → List (Row α)} {limit offset : Nat} {w : World}

/-- The pages that a reader sees who follows a link from an offset, while nothing
changes the tables and their order. -/
def Follows (query : Db → List (Row α)) (limit : Nat) (w : World) (link : Page α → Option Nat)
    (offset : Nat) (pages : List (Page α)) : Prop :=
  Visits (fun _ o => ((paginate query limit o).run w).1.toOption) link 0 offset pages

/-- The links of a page lead to all rows. -/
structure LinksReach (query : Db → List (Row α)) (limit offset : Nat) (w : World) : Prop where
  next_null : ∃ page, (paginate query limit offset).run w = (.ok page, w) ∧
    (page.next_offset = none ↔ (query w.db).drop (offset + limit) = [])
  back : ∃ pages, Follows query limit w Page.prev_offset offset pages ∧
    pages.getLast?.map Page.offset = some 0 ∧
    pages.IsChain (fun p q => q.offset + q.limit = p.offset) ∧
    ∀ r ∈ (query w.db).take offset, ∃ p ∈ pages, r ∈ p.data
  forward : ∃ pages, Follows query limit w Page.next_offset offset pages ∧
    pages.IsChain (fun p q => p.offset + p.limit = q.offset) ∧
    ∀ r ∈ (query w.db).drop (offset + limit), ∃ p ∈ pages, r ∈ p.data

/-- The offsets of a page and of the pages behind it are in the range of a `bigint`. -/
def InRange (total limit offset : Nat) : Prop :=
  ∀ k, k = 0 ∨ offset + k * limit < total → offset + k * limit < bigint_end

theorem next_offset_eq_none (rows : List (Row α)) (limit offset : Nat) :
    (page_of rows limit offset).next_offset = none ↔ rows.drop (offset + limit) = [] := by
  rw [List.drop_eq_nil_iff]
  by_cases h : offset + limit < rows.length
  · simp [page_of, h, Nat.not_le.mpr h]
  · simp [page_of, h, Nat.not_lt.mp h]

/-- The way on from a page. -/
theorem follows_forward (hlimit : 0 < limit) (h : InRange (query w.db).length limit offset) :
    ∃ m, 0 < m ∧ (query w.db).length ≤ offset + m * limit ∧
      Follows query limit w Page.next_offset offset
        ((List.range m).map fun k => page_of (query w.db) limit (offset + k * limit)) := by
  exact visits_forward (n := 0) (fun _ o => page_of (query w.db) limit o) hlimit
    (fun _ _ => rfl) fun k hk => paginate.answer_ok query limit w (h k hk)

/-- The way back from a page: it ends less than a page after the start. -/
theorem follows_backward (hlimit : 0 < limit) (h : offset < bigint_end) :
    Follows query limit w Page.prev_offset offset ((List.range (offset / limit + 1)).map fun k =>
      page_of (query w.db) limit (offset % limit + (offset / limit - k) * limit)) := by
  have hdiv : offset % limit + offset / limit * limit = offset := Nat.mod_add_div' offset limit
  have hv : Follows query limit w Page.prev_offset (offset % limit + offset / limit * limit)
      ((List.range (offset / limit + 1)).map fun k =>
        page_of (query w.db) limit (offset % limit + (offset / limit - k) * limit)) := by
    refine visits_backward (n := 0) (fun _ o => page_of (query w.db) limit o)
      (Nat.mod_lt offset hlimit) (fun _ _ => rfl) (offset / limit) fun k _ => ?_
    apply paginate.answer_ok
    have := Nat.mul_le_mul_right limit (Nat.sub_le (offset / limit) k)
    omega
  rwa [hdiv] at hv

/-- The rows that a number of pages in a row show. -/
theorem shown_on_pages {rows : List (Row α)} (hlimit : 0 < limit) {m : Nat} {r : Row α}
    (hr : r ∈ slice rows offset (m * limit)) :
    ∃ k < m, r ∈ (page_of rows limit (offset + k * limit)).data := by
  obtain ⟨i, hi, h1, h2⟩ := mem_slice_iff.mp hr
  refine ⟨(i - offset) / limit, ?_, ?_⟩
  · exact (Nat.div_lt_iff_lt_mul hlimit).mpr (by omega)
  · have hdiv := Nat.div_add_mod' (i - offset) limit
    have hmod := Nat.mod_lt (i - offset) hlimit
    exact mem_slice_iff.mpr ⟨i, hi, by omega, by omega⟩

theorem isChain_pages {R : Page α → Page α → Prop} (page : Nat → Page α) (m : Nat)
    (h : ∀ k, k + 1 < m → R (page k) (page (k + 1))) : ((List.range m).map page).IsChain R := by
  rw [List.isChain_iff_getElem]
  intro k hk
  simp only [List.length_map, List.length_range] at hk
  simpa using h k (by omega)

/-- The links lead to all rows from a page whose offset is a multiple of the limit. -/
theorem LinksReach.of_dvd (hlimit : 0 < limit) (hdvd : limit ∣ offset)
    (h : InRange (query w.db).length limit offset) : LinksReach query limit offset w where
  next_null := by
    have ho : offset < bigint_end := by simpa using h 0 (Or.inl rfl)
    exact ⟨_, paginate.ok query ho w, next_offset_eq_none _ _ _⟩
  back := by
    have ho : offset < bigint_end := by simpa using h 0 (Or.inl rfl)
    have hmod : offset % limit = 0 := Nat.mod_eq_zero_of_dvd hdvd
    have hdiv : offset / limit * limit = offset := Nat.div_mul_cancel hdvd
    have hv : Follows query limit w Page.prev_offset offset _ := follows_backward hlimit ho
    refine ⟨_, hv, ?_, ?_, ?_⟩
    · simp [List.getLast?_range, hmod, page_of]
    · apply isChain_pages
      intro k hk
      have hstep : offset / limit - k = offset / limit - (k + 1) + 1 := by omega
      simp only [page_of]
      rw [hstep, Nat.add_one_mul, Nat.add_assoc]
    · intro r hr
      have hslice : r ∈ slice (query w.db) 0 (offset / limit * limit) := by
        rwa [hdiv]
      obtain ⟨k, hk, hmem⟩ := shown_on_pages hlimit hslice
      refine ⟨_, List.mem_map.mpr ⟨offset / limit - k, List.mem_range.mpr (by omega), rfl⟩, ?_⟩
      rwa [hmod, Nat.sub_sub_self (by omega)]
  forward := by
    obtain ⟨m, hm, hlen, hv⟩ := follows_forward (w := w) hlimit h
    refine ⟨_, hv, ?_, ?_⟩
    · apply isChain_pages
      intro k _
      simp only [page_of]
      rw [Nat.add_one_mul, Nat.add_assoc]
    · intro r hr
      have hin : r ∈ slice (query w.db) offset (m * limit) := by
        obtain ⟨i, hi, rfl⟩ := List.getElem_of_mem hr
        rw [List.length_drop] at hi
        rw [List.getElem_drop]
        exact mem_slice (List.getElem?_eq_getElem (by omega)) (by omega) (by omega)
      obtain ⟨k, hk, hmem⟩ := shown_on_pages hlimit hin
      exact ⟨_, List.mem_map.mpr ⟨k, List.mem_range.mpr hk, rfl⟩, hmem⟩

/-- Following the links of a page shows every row before it and every row behind
it, if and only if its offset is a multiple of the limit (and no offset on the
way is beyond a `bigint`). -/
theorem links_reach_iff (query : Db → List (Row α)) {limit : Nat} (offset : Nat) (w : World)
    (hlimit : 0 < limit) :
    LinksReach query limit offset w ↔
      limit ∣ offset ∧ InRange (query w.db).length limit offset := by
  constructor
  · intro h
    obtain ⟨back, hback, hlast, _⟩ := h.back
    obtain ⟨forward, hforward, _⟩ := h.forward
    have hrange : InRange (query w.db).length limit offset := by
      intro k hk
      obtain ⟨p, hp⟩ := hforward.answered (fun n o p hp => by
        obtain ⟨_, rfl⟩ := paginate.answer_inv hp
        rfl) k hk
      exact (paginate.answer_inv hp).1
    refine ⟨?_, hrange⟩
    have ho : offset < bigint_end := by simpa using hrange 0 (Or.inl rfl)
    rw [hback.unique (follows_backward hlimit ho)] at hlast
    apply Nat.dvd_of_mod_eq_zero
    simpa [List.getLast?_range, page_of] using hlast
  · rintro ⟨hdvd, h⟩
    exact .of_dvd hlimit hdvd h

end

namespace Sample

/-- The users, the newest first. -/
def newest_users (db : Db) : List (Row User) := newest_first db.users

theorem staffed_in_range (limit offset : Nat) (h : offset < 3) :
    InRange (newest_users staffed.world.db).length limit offset := by
  have hlen : (newest_users staffed.world.db).length = 2 := by decide
  intro k hk
  simp only [bigint_end]
  rcases hk with rfl | hk
  · omega
  · omega

end Sample

open Sample in
theorem links_reach_iff_sample : LinksReach newest_users 1 1 staffed.world :=
  (links_reach_iff newest_users 1 staffed.world Nat.one_pos).mpr
    ⟨Nat.one_dvd 1, staffed_in_range 1 1 (by decide)⟩

open Sample in
/-- From the second row on there is no way back to the first. -/
theorem links_do_not_reach :
    Follows newest_users 2 staffed.world Page.prev_offset 1
        [⟨[⟨0, eva⟩], 2, 2, 1, false, none, none⟩] ∧
      ⟨1, root⟩ ∈ (newest_users staffed.world.db).take 1 ∧
      ¬ LinksReach newest_users 2 1 staffed.world := by
  have hv : Follows newest_users 2 staffed.world Page.prev_offset 1
      [⟨[⟨0, eva⟩], 2, 2, 1, false, none, none⟩] := .stop (by decide) rfl
  refine ⟨hv, by decide, fun h => ?_⟩
  obtain ⟨pages, hback, hlast, _⟩ := h.back
  rw [hback.unique hv] at hlast
  simp at hlast

end saas
