-- `billing/repository.py`: the statements on plans, subscriptions and
-- payments. Each method reads, commits once, and reads its row again.
import SaasBackend.World

open relational async

namespace saas

/-! ## Plans -/

namespace PlanRepository

/-- The metadata of Stripe hold the id as text; a null matches no plan. -/
def get_by_id (plan_id : Option UuidText) : M (Option (Row Plan)) :=
  Proc.query fun w => match plan_id with
    | none => .ok none
    | some .malformed => .error .dataError
    | some (.ofUuid i) => .ok (w.db.plans.byId i)

def get_by_code (code : String) : M (Option (Row Plan)) :=
  Proc.query fun w => scalar_one_or_none
    (w.db.plans.select (fun p => decide (p.code = code) && p.is_active))

end PlanRepository

namespace World

/-- The active plan with a code. -/
def plan_of (w : World) (code : String) : Option (Row Plan) :=
  (w.db.plans.select (fun p => decide (p.code = code) && p.is_active)).head?

/-- A plan that was found is a plan. -/
theorem plan_of_mem {w : World} {code : String} {plan : Row Plan} (h : w.plan_of code = some plan) :
    plan ∈ w.db.plans.rows := (Table.mem_select.mp (List.mem_of_mem_head? h)).1

end World

namespace PlanRepository

@[simp] theorem get_by_code.spec (code : String) (w : World) :
    (get_by_code code).run w = (.ok (w.plan_of code), w) := by
  have hu : w.db.plans.select (fun p => decide (p.code = code) && p.is_active) = [] ∨
      ∃ r, w.db.plans.select (fun p => decide (p.code = code) && p.is_active) = [r] := by
    apply Table.select_unique (k := code)
    intro p hp
    simp only [Bool.and_eq_true, decide_eq_true_eq] at hp
    simp [Keyed.keys, hp.1]
  unfold get_by_code World.plan_of
  rw [Proc.run_query]
  rcases hu with h | ⟨r, h⟩ <;> rw [h] <;> rfl

theorem get_by_code.reads (code : String) : (get_by_code code).Reads :=
  Proc.reads_query _

end PlanRepository

/-! ## Subscriptions -/

/-- The subscription of a provider with this id; a null id matches null. -/
def Subscription.is_of (provider : PaymentProvider) (provider_subscription_id : Option StripeId)
    (s : Subscription) : Bool :=
  decide (s.provider = provider ∧ s.provider_subscription_id = provider_subscription_id)

/-- The subscription gives its user access at time `t`. -/
def Subscription.grants_access (t : Time) (s : Subscription) : Bool :=
  decide ((∃ e ∈ s.current_period_end, t < e) ∧ (s.status = .ACTIVE ∨ s.status = .CANCELED))

namespace SubscriptionPatch

/-- `create_subscription` on the subscription that the new one replaces. -/
def demote : SubscriptionPatch where
  apply s := { s with status := .CANCELED }
  user_id _ := rfl
  plan_id _ := rfl
  provider _ := rfl
  provider_subscription_id _ := rfl

/-- `update_subscription_period`. -/
def period (start stop : Time) : SubscriptionPatch where
  apply s := { s with status := .ACTIVE, started_at := start, current_period_end := some stop }
  user_id _ := rfl
  plan_id _ := rfl
  provider _ := rfl
  provider_subscription_id _ := rfl

/-- `cancel_subscription`: without an end of the period the stored one stays. -/
def cancel (at_ : Time) (stop : Option Time) : SubscriptionPatch where
  apply s := { s with
    status := .CANCELED
    canceled_at := some at_
    current_period_end := stop <|> s.current_period_end }
  user_id _ := rfl
  plan_id _ := rfl
  provider _ := rfl
  provider_subscription_id _ := rfl

/-- `update_sub_status`. -/
def status (st : SubscriptionStatus) : SubscriptionPatch where
  apply s := { s with status := st }
  user_id _ := rfl
  plan_id _ := rfl
  provider _ := rfl
  provider_subscription_id _ := rfl

end SubscriptionPatch

namespace World

/-- The rows that give user `u` access at time `t`. -/
def access_rows (w : World) (u : UUID) (t : Time) : List (Row Subscription) :=
  w.db.subscriptions.select (fun s => decide (s.user_id = u) && s.grants_access t)

/-- The local rows of a Stripe subscription. -/
def rows_of (w : World) (id : StripeId) : List (Row Subscription) :=
  w.db.subscriptions.select (Subscription.is_of .STRIPE (some id))

/-- The local row of a Stripe subscription, if there is one. -/
def row_of (w : World) (id : StripeId) : Option (Row Subscription) := (w.rows_of id).head?

/-- `old_sub.status = CANCELED`, if there is one. -/
def demote (w : World) : Option (Row Subscription) → World
  | none => w
  | some o => w.update_subscription o.id .demote

end World

/-! ## The rows that a statement finds -/

theorem scalar_one_or_none_eq_ok {α : Type} {l : List α} {o : Option α} :
    scalar_one_or_none l = .ok o ↔ l = o.toList := by
  rcases l with _ | ⟨a, _ | ⟨b, l⟩⟩ <;> cases o <;> simp [scalar_one_or_none]

theorem Subscription.is_of_stripe {id : StripeId} {s : Subscription} :
    s.is_of .STRIPE (some id) = true ↔
      s.provider = .STRIPE ∧ s.provider_subscription_id = some id := by
  simp [Subscription.is_of]

theorem Subscription.grants_access_iff {t : Time} {s : Subscription} :
    s.grants_access t = true ↔
      (∃ e, s.current_period_end = some e ∧ t < e) ∧
        (s.status = .ACTIVE ∨ s.status = .CANCELED) := by
  simp [Subscription.grants_access]

/-- Access ends and does not come back by itself. -/
theorem Subscription.grants_access_earlier {t t' : Time} {s : Subscription}
    (h : s.grants_access t' = true) (ht : t ≤ t') : s.grants_access t = true := by
  rw [grants_access_iff] at *
  obtain ⟨⟨e, he, hlt⟩, hst⟩ := h
  exact ⟨⟨e, he, Nat.lt_of_le_of_lt ht hlt⟩, hst⟩

namespace World

variable {w : World} {id : StripeId} {u : UUID} {t : Time} {r : Row Subscription}

theorem mem_access_rows : r ∈ w.access_rows u t ↔
    r ∈ w.db.subscriptions.rows ∧ r.val.user_id = u ∧ r.val.grants_access t = true := by
  simp [access_rows, Table.mem_select]

/-- Whoever has access at a later time has it now. -/
theorem access_rows_earlier {t' : Time} (h : r ∈ w.access_rows u t') (ht : t ≤ t') :
    r ∈ w.access_rows u t := by
  rw [mem_access_rows] at *
  exact ⟨h.1, h.2.1, Subscription.grants_access_earlier h.2.2 ht⟩

/-- A provider's id is unique: at most one row. -/
theorem scalar_rows_of (w : World) (id : StripeId) :
    scalar_one_or_none (w.rows_of id) = .ok (w.row_of id) := by
  have hu : w.rows_of id = [] ∨ ∃ r, w.rows_of id = [r] := by
    apply Table.select_unique (k := id)
    intro s hs
    rw [Subscription.is_of_stripe] at hs
    simp [Keyed.keys, hs.2]
  unfold row_of
  rcases hu with h | ⟨r, h⟩ <;> rw [h] <;> rfl

theorem rows_of_eq (w : World) (id : StripeId) : w.rows_of id = (w.row_of id).toList :=
  scalar_one_or_none_eq_ok.mp (scalar_rows_of w id)

theorem row_of_eq_some : w.row_of id = some r ↔
    r ∈ w.db.subscriptions.rows ∧ r.val.provider = .STRIPE ∧
      r.val.provider_subscription_id = some id := by
  have h : r ∈ w.rows_of id ↔ w.row_of id = some r := by
    rw [rows_of_eq, Option.mem_toList]
  rw [← h, rows_of, Table.mem_select, Subscription.is_of_stripe]

theorem row_of_eq_none : w.row_of id = none ↔
    ∀ r ∈ w.db.subscriptions.rows, r.val.provider = .STRIPE →
      r.val.provider_subscription_id ≠ some id := by
  rw [Option.eq_none_iff_forall_ne_some]
  constructor
  · intro h r hr hp hi
    exact h r (row_of_eq_some.mpr ⟨hr, hp, hi⟩)
  · intro h r hr
    obtain ⟨hr, hp, hi⟩ := row_of_eq_some.mp hr
    exact h r hr hp hi

/-- What the subscriptions alone decide. -/
theorem row_of_congr {w' : World} (h : w'.db.subscriptions = w.db.subscriptions) :
    w'.row_of id = w.row_of id := by
  unfold row_of rows_of
  rw [h]

theorem access_rows_congr {w' : World} (h : w'.db.subscriptions = w.db.subscriptions) :
    w'.access_rows u t = w.access_rows u t := by
  unfold access_rows
  rw [h]

/-- The rows after an update of one of them. -/
theorem mem_update_subscription {r' : Row Subscription} {i : UUID} {p : SubscriptionPatch} :
    r' ∈ (w.update_subscription i p).db.subscriptions.rows ↔
      (∃ r ∈ w.db.subscriptions.rows, r.id = i ∧ r' = ⟨r.id, p.apply r.val⟩) ∨
        (r' ∈ w.db.subscriptions.rows ∧ r'.id ≠ i) :=
  Table.mem_update p.keys

/-- The row of a Stripe subscription after a patch of it. -/
theorem row_of_patch (p : SubscriptionPatch) (hr : w.row_of id = some r) :
    (w.update_subscription r.id p).row_of id = some ⟨r.id, p.apply r.val⟩ := by
  obtain ⟨hmem, hp, hps⟩ := row_of_eq_some.mp hr
  refine row_of_eq_some.mpr ⟨?_, by rw [p.provider, hp], by rw [p.provider_subscription_id, hps]⟩
  exact mem_update_subscription.mpr (Or.inl ⟨r, hmem, rfl, rfl⟩)

end World

namespace SubscriptionRepoistory

def get_by_provider_subscription_id (provider : PaymentProvider)
    (provider_subscription_id : Option StripeId) : M (Option (Row Subscription)) :=
  Proc.query fun w => scalar_one_or_none
    (w.db.subscriptions.select (Subscription.is_of provider provider_subscription_id))

/-- The order of the rows does not matter: more than one is an error. -/
def get_subscription_with_access (user_id : UUID) : M (Option (Row Subscription)) := do
  let t ← now
  Proc.query fun w => scalar_one_or_none (w.access_rows user_id t)

/-- `refresh` and `scalar_one` of a row by its primary key. -/
def reload (i : UUID) : M (Row Subscription) :=
  Proc.query fun w => match w.db.subscriptions.byId i with
    | some r => .ok r
    | none => .error .invalidRequestError

/-- The columns of a row are set and committed, and the row is read again. -/
def commit_patch (r : Row Subscription) (p : SubscriptionPatch) : M (Row Subscription) := do
  Proc.write (·.update_subscription r.id p)
  reload r.id

/-- One commit marks the old subscription and stores the new one. -/
def create_subscription (user_id plan_id : UUID) (provider : PaymentProvider)
    (provider_subscription_id provider_customer_id : Option StripeId)
    (status : SubscriptionStatus) : M (Row Subscription) := do
  let old_sub ← get_subscription_with_access user_id
  let t ← now
  let sub ← Proc.attempt fun w =>
    ((w.demote old_sub).db.insert_subscription
      { user_id := user_id, plan_id := plan_id, status := status, provider := provider,
        provider_subscription_id := provider_subscription_id,
        provider_customer_id := provider_customer_id,
        started_at := t, current_period_end := some t }).map
      fun (r, db) => (r, { w.demote old_sub with db := db })
  reload sub.id

def update_subscription_period (provider : PaymentProvider)
    (provider_subscription_id : Option StripeId)
    (current_period_start current_period_end : Time) : M (Option (Row Subscription)) := do
  match ← get_by_provider_subscription_id provider provider_subscription_id with
  | none => pure none
  | some sub =>
    let r ← commit_patch sub (.period current_period_start current_period_end)
    pure (some r)

def cancel_subscription (provider : PaymentProvider) (provider_subscription_id : Option StripeId)
    (canceled_at : Time) (current_period_end : Option Time) : M (Option (Row Subscription)) := do
  match ← get_by_provider_subscription_id provider provider_subscription_id with
  | none => pure none
  | some sub =>
    let r ← commit_patch sub (.cancel canceled_at current_period_end)
    pure (some r)

/-- A canceled subscription is left alone. -/
def update_sub_status (provider : PaymentProvider) (provider_subscription_id : Option StripeId)
    (sub_status : SubscriptionStatus) : M (Option (Row Subscription)) := do
  match ← get_by_provider_subscription_id provider provider_subscription_id with
  | none => pure none
  | some sub =>
    if sub.val.status = .CANCELED then pure none
    else
      let r ← commit_patch sub (.status sub_status)
      pure (some r)

end SubscriptionRepoistory

/-! ## The specs of the methods -/

namespace SubscriptionRepoistory

open Proc

@[simp] theorem get_by_provider_subscription_id.spec (id : StripeId) (w : World) :
    (get_by_provider_subscription_id .STRIPE (some id)).run w = (.ok (w.row_of id), w) := by
  unfold get_by_provider_subscription_id
  rw [run_query]
  exact congrArg (·, w) (World.scalar_rows_of w id)

theorem get_by_provider_subscription_id.reads (p : PaymentProvider) (id : Option StripeId) :
    (get_by_provider_subscription_id p id).Reads := reads_query _

@[simp] theorem get_subscription_with_access.spec (u : UUID) (w : World) :
    (get_subscription_with_access u).run w =
      (scalar_one_or_none (w.access_rows u w.clock), w) := by
  unfold get_subscription_with_access
  rw [run_bind_ok (now.spec w), run_query]

theorem get_subscription_with_access.reads (u : UUID) : (get_subscription_with_access u).Reads :=
  (reads_read _).bind fun _ => reads_query _

theorem reload.spec {w : World} {i : UUID} {r : Row Subscription}
    (h : w.db.subscriptions.byId i = some r) : (reload i).run w = (.ok r, w) := by
  unfold reload
  rw [run_query, h]

theorem commit_patch.spec {w : World} {r : Row Subscription} (p : SubscriptionPatch)
    (h : r ∈ w.db.subscriptions.rows) :
    (commit_patch r p).run w = (.ok ⟨r.id, p.apply r.val⟩, w.update_subscription r.id p) := by
  unfold commit_patch
  rw [run_bind_ok (run_write _ w)]
  exact reload.spec (Table.byId_update_self p.keys h)

theorem commit_patch.commits (r : Row Subscription) (p : SubscriptionPatch) :
    (commit_patch r p).Commits := (commits_write _).before_reads fun _ => reads_query _

/-- The three methods that patch the row of a Stripe subscription. -/
theorem patch_row.spec {w : World} {id : StripeId}
    {f : Option (Row Subscription) → M (Option (Row Subscription))} :
    (get_by_provider_subscription_id .STRIPE (some id) >>= f).run w = (f (w.row_of id)).run w :=
  run_bind_ok (get_by_provider_subscription_id.spec id w) f

theorem update_subscription_period.spec (id : StripeId) (start stop : Time) (w : World) :
    (update_subscription_period .STRIPE (some id) start stop).run w = match w.row_of id with
      | none => (.ok none, w)
      | some r => (.ok (some ⟨r.id, (SubscriptionPatch.period start stop).apply r.val⟩),
          w.update_subscription r.id (.period start stop)) := by
  unfold update_subscription_period
  rw [patch_row.spec]
  rcases hr : w.row_of id with _ | r
  · rfl
  · exact run_bind_ok (commit_patch.spec _ (World.row_of_eq_some.mp hr).1) _

theorem update_subscription_period.commits (p : PaymentProvider) (id : Option StripeId)
    (start stop : Time) : (update_subscription_period p id start stop).Commits := by
  apply Commits.after_reads (get_by_provider_subscription_id.reads p id)
  intro o
  cases o with
  | none => exact commits_pure _
  | some r => exact (commit_patch.commits r _).before_reads fun _ => reads_pure _

theorem cancel_subscription.spec (id : StripeId) (at_ : Time) (stop : Option Time) (w : World) :
    (cancel_subscription .STRIPE (some id) at_ stop).run w = match w.row_of id with
      | none => (.ok none, w)
      | some r => (.ok (some ⟨r.id, (SubscriptionPatch.cancel at_ stop).apply r.val⟩),
          w.update_subscription r.id (.cancel at_ stop)) := by
  unfold cancel_subscription
  rw [patch_row.spec]
  rcases hr : w.row_of id with _ | r
  · rfl
  · exact run_bind_ok (commit_patch.spec _ (World.row_of_eq_some.mp hr).1) _

theorem cancel_subscription.commits (p : PaymentProvider) (id : Option StripeId)
    (at_ : Time) (stop : Option Time) : (cancel_subscription p id at_ stop).Commits := by
  apply Commits.after_reads (get_by_provider_subscription_id.reads p id)
  intro o
  cases o with
  | none => exact commits_pure _
  | some r => exact (commit_patch.commits r _).before_reads fun _ => reads_pure _

theorem update_sub_status.spec (id : StripeId) (st : SubscriptionStatus) (w : World) :
    (update_sub_status .STRIPE (some id) st).run w = match w.row_of id with
      | none => (.ok none, w)
      | some r =>
        if r.val.status = .CANCELED then (.ok none, w)
        else (.ok (some ⟨r.id, (SubscriptionPatch.status st).apply r.val⟩),
          w.update_subscription r.id (.status st)) := by
  unfold update_sub_status
  rw [patch_row.spec]
  rcases hr : w.row_of id with _ | r
  · rfl
  · by_cases hc : r.val.status = .CANCELED
    · simp only [hc, if_true, run_pure]
    · simp only [hc, if_false]
      exact run_bind_ok (commit_patch.spec _ (World.row_of_eq_some.mp hr).1) _

theorem update_sub_status.commits (p : PaymentProvider) (id : Option StripeId)
    (st : SubscriptionStatus) : (update_sub_status p id st).Commits := by
  apply Commits.after_reads (get_by_provider_subscription_id.reads p id)
  intro o
  cases o with
  | none => exact commits_pure _
  | some r =>
    dsimp only
    split
    · exact commits_pure _
    · exact (commit_patch.commits r _).before_reads fun _ => reads_pure _

/-- The row that `create_subscription` stores at time `t`. -/
def new_row (user_id plan_id : UUID) (id customer : Option StripeId) (st : SubscriptionStatus)
    (t : Time) : Subscription where
  user_id := user_id
  plan_id := plan_id
  status := st
  provider := .STRIPE
  provider_subscription_id := id
  provider_customer_id := customer
  started_at := t
  current_period_end := some t

theorem create_subscription.spec (u p : UUID) (id c : Option StripeId) (st : SubscriptionStatus)
    (w : World) : (create_subscription u p .STRIPE id c st).run w =
      match scalar_one_or_none (w.access_rows u w.clock) with
      | .error e => (.error e, w)
      | .ok old =>
        match (w.demote old).db.insert_subscription (new_row u p id c st w.clock) with
        | .error e => (.error e, w)
        | .ok (r, db) => (.ok r, { w.demote old with db := db }) := by
  unfold create_subscription
  rw [run_bind, get_subscription_with_access.spec]
  rcases scalar_one_or_none (w.access_rows u w.clock) with e | old
  · rfl
  · simp only
    rw [run_bind_ok (now.spec w), run_bind, run_attempt, ← new_row]
    rcases hi : (w.demote old).db.insert_subscription (new_row u p id c st w.clock) with e | ⟨r, db⟩
    · rfl
    · obtain ⟨_, _, _, hb, _⟩ := Db.insert_subscription_ok hi
      exact reload.spec hb

theorem create_subscription.commits (u p : UUID) (pr : PaymentProvider) (id c : Option StripeId)
    (st : SubscriptionStatus) : (create_subscription u p pr id c st).Commits := by
  apply Commits.after_reads (get_subscription_with_access.reads u)
  intro old
  apply Commits.after_reads (reads_read _)
  intro t
  exact (commits_attempt _).before_reads fun _ => reads_query _

end SubscriptionRepoistory

/-! ## Payments -/

namespace PaymentRepository

def create_payment (user_id : UUID) (subscription_id : Option UUID)
    (provider_invoice_id : StripeId) (amount_cents : Int) (currency : String)
    (status : PaymentStatus) (provider : PaymentProvider) : M (Row Payment) :=
  Proc.attempt fun w => (w.db.insert_payment
      { user_id := user_id, subscription_id := subscription_id, provider := provider,
        provider_invoice_id := provider_invoice_id, amount_cents := amount_cents,
        currency := currency, status := status }).map
    fun (r, db) => (r, { w with db := db })

end PaymentRepository

end saas
