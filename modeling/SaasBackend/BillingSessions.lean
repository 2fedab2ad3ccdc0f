-- The handlers of `billing/` with the objects of their sessions. A session loads a
-- row once: a later `SELECT` gives the object that it has, and a commit writes the
-- columns whose values have changed since the object was loaded. Alone, a request
-- does with its session what it does on the rows.
import SaasBackend.BillingSystem
import SaasBackend.Server

open relational async

namespace saas

/-! ## What a commit writes -/

/-- A column after a commit: the object had `loaded` in it and has `set` now, and
the row has `stored`. -/
def flushed {α : Type} [DecidableEq α] (loaded set stored : α) : α :=
  if set = loaded then stored else set

@[simp] theorem flushed_self {α : Type} [DecidableEq α] (loaded set : α) :
    flushed loaded set loaded = set := by
  unfold flushed
  split
  · rename_i h
    exact h.symm
  · rfl

/-- A commit leaves a column or writes what was set. -/
theorem flushed_or {α : Type} [DecidableEq α] (loaded set stored : α) :
    flushed loaded set stored = stored ∨ flushed loaded set stored = set := by
  unfold flushed
  split
  · exact Or.inl rfl
  · exact Or.inr rfl

/-- The `UPDATE` for an object that was loaded as `held` and then patched. -/
def SubscriptionPatch.flush (held : Subscription) (p : SubscriptionPatch) : SubscriptionPatch where
  apply s := { s with
    status := flushed held.status (p.apply held).status s.status
    provider_customer_id :=
      flushed held.provider_customer_id (p.apply held).provider_customer_id s.provider_customer_id
    started_at := flushed held.started_at (p.apply held).started_at s.started_at
    current_period_end :=
      flushed held.current_period_end (p.apply held).current_period_end s.current_period_end
    canceled_at := flushed held.canceled_at (p.apply held).canceled_at s.canceled_at
    cancel_at_period_end :=
      flushed held.cancel_at_period_end (p.apply held).cancel_at_period_end
        s.cancel_at_period_end }
  user_id _ := rfl
  plan_id _ := rfl
  provider _ := rfl
  provider_subscription_id _ := rfl

/-- On the row as it was loaded, the `UPDATE` writes the whole patch. -/
theorem SubscriptionPatch.flush_self (p : SubscriptionPatch) (s : Subscription) :
    (p.flush s).apply s = p.apply s := by
  have hu := p.user_id s
  have hp := p.plan_id s
  have hpr := p.provider s
  have hps := p.provider_subscription_id s
  rcases hs : p.apply s with ⟨u, pl, st, pr, ps, pc, sa, ce, ca, cp⟩
  rw [hs] at hu hp hpr hps
  simp only at hu hp hpr hps
  simp [flush, hs, hu, hp, hpr, hps]

namespace World

/-- `old_sub.status = CANCELED`, flushed. -/
def demote_held (w : World) : Option (Row Subscription) → World
  | none => w
  | some o => w.update_subscription o.id (SubscriptionPatch.demote.flush o.val)

theorem update_subscription_congr {w : World} {i : UUID} {p q : SubscriptionPatch}
    (h : ∀ r ∈ w.db.subscriptions.rows, r.id = i → p.apply r.val = q.apply r.val) :
    w.update_subscription i p = w.update_subscription i q := by
  have ht : w.db.subscriptions.update i p.apply p.keys =
      w.db.subscriptions.update i q.apply q.keys := by
    have hrows : w.db.subscriptions.rows.map (Table.updateRow i p.apply) =
        w.db.subscriptions.rows.map (Table.updateRow i q.apply) := by
      refine List.map_congr_left fun r hr => ?_
      by_cases hi : r.id = i
      · rw [Table.updateRow_of_eq hi, Table.updateRow_of_eq hi, h r hr hi]
      · rw [Table.updateRow_of_ne hi, Table.updateRow_of_ne hi]
    simp only [Table.update, hrows]
  unfold World.update_subscription Db.update_subscription
  simp only [ht]

/-- A row that nobody has changed since it was loaded. -/
theorem update_subscription_flush {w : World} {r : Row Subscription}
    (hr : r ∈ w.db.subscriptions.rows) (p : SubscriptionPatch) :
    w.update_subscription r.id (p.flush r.val) = w.update_subscription r.id p := by
  refine update_subscription_congr fun r' hr' hid => ?_
  rw [Table.eq_of_id hr' hr hid, SubscriptionPatch.flush_self]

theorem demote_held_eq {w : World} {old : Option (Row Subscription)}
    (h : ∀ o ∈ old, o ∈ w.db.subscriptions.rows) : w.demote_held old = w.demote old := by
  cases old with
  | none => rfl
  | some o => exact update_subscription_flush (h o rfl) _

end World

/-! ## The handlers -/

namespace Session

open SubscriptionRepoistory StripeGateway SubscriptionService

/-- The columns of an object that was loaded as `held` are set and committed, and the
object is refreshed. -/
def commit_patch (held : Row Subscription) (p : SubscriptionPatch) : M (Row Subscription) := do
  Proc.write (·.update_subscription held.id (p.flush held.val))
  reload held.id

/-- The object that a `SELECT` gives for a row that it finds: the one that the session
has, as it was loaded. -/
def identity (held : Option (Row Subscription)) (found : Row Subscription) : Row Subscription :=
  (held.filter (fun r => decide (r.id = found.id))).getD found

def create_subscription (user_id plan_id : UUID) (provider : PaymentProvider)
    (provider_subscription_id provider_customer_id : Option StripeId)
    (status : SubscriptionStatus) : M (Row Subscription) := do
  let old_sub ← get_subscription_with_access user_id
  let t ← now
  let sub ← Proc.attempt fun w =>
    ((w.demote_held old_sub).db.insert_subscription
      { user_id := user_id, plan_id := plan_id, status := status, provider := provider,
        provider_subscription_id := provider_subscription_id,
        provider_customer_id := provider_customer_id,
        started_at := t, current_period_end := some t }).map
      fun (r, db) => (r, { w.demote_held old_sub with db := db })
  reload sub.id

def update_subscription_period (provider : PaymentProvider)
    (provider_subscription_id : Option StripeId)
    (current_period_start current_period_end : Time) : M (Option (Row Subscription)) := do
  match ← get_by_provider_subscription_id provider provider_subscription_id with
  | none => pure none
  | some sub =>
    let r ← commit_patch sub (.period current_period_start current_period_end)
    pure (some r)

/-- The session of a cancel request already has the row, as `held`. -/
def cancel_subscription (held : Option (Row Subscription)) (provider : PaymentProvider)
    (provider_subscription_id : Option StripeId) (canceled_at : Time)
    (current_period_end : Option Time) : M (Option (Row Subscription)) := do
  match ← get_by_provider_subscription_id provider provider_subscription_id with
  | none => pure none
  | some sub =>
    let r ← commit_patch (identity held sub) (.cancel canceled_at current_period_end)
    pure (some r)

def update_sub_status (provider : PaymentProvider) (provider_subscription_id : Option StripeId)
    (sub_status : SubscriptionStatus) : M (Option (Row Subscription)) := do
  match ← get_by_provider_subscription_id provider provider_subscription_id with
  | none => pure none
  | some sub =>
    if sub.val.status = .CANCELED then pure none
    else
      let r ← commit_patch sub (.status sub_status)
      pure (some r)

/-- Nothing keeps the object of the old subscription, so the session forgets it. -/
def cancel_upgraded (old_stripe_sub_id : Option StripeId) : M Unit :=
  match old_stripe_sub_id with
  | none => pure ()
  | some old => do
    Subscription_delete old
    let t ← now
    let _ ← cancel_subscription none .STRIPE (some old) t (some t)

def find_or_create (session : SessionObject) (plan_id : Option UuidText) :
    M (Row Subscription) := do
  match ← get_by_provider_subscription_id .STRIPE session.subscription with
  | some sub => pure sub
  | none =>
    let user_id ← Proc.ofExcept (UUID.parse session.client_reference_id)
    let plan_id ← Proc.ofExcept (UUID.parse plan_id)
    create_subscription user_id plan_id .STRIPE session.subscription session.customer .PAST_DUE

def user_subscribe (session : SessionObject) : M (Row Subscription) := do
  let stripe_subscription ← Subscription_retrieve session.subscription
  let sub_metadata := stripe_subscription.val.metadata
  match ← PlanRepository.get_by_id sub_metadata.plan_id with
  | none => httpException 400 "error happened"
  | some _ =>
    cancel_upgraded sub_metadata.upgrade_from_subscription_id
    find_or_create session sub_metadata.plan_id

def renew_or_create (id : StripeId) (stripe_subscription : StripeSubscription) :
    M (Option (Row Subscription)) :=
  match stripe_subscription.items with
  | [] => .raise .indexError
  | item :: _ => do
    match ← update_subscription_period .STRIPE (some id)
        (fromtimestamp item.current_period_start) (fromtimestamp item.current_period_end) with
    | some sub => pure (some sub)
    | none =>
      let user_id ← Proc.ofExcept (UUID.parse stripe_subscription.metadata.user_id)
      let plan_id ← Proc.ofExcept (UUID.parse stripe_subscription.metadata.plan_id)
      let sub ← create_subscription user_id plan_id .STRIPE (some id)
        stripe_subscription.customer .ACTIVE
      pure (some sub)

def handle_invoice_payment_succeeded (invoice : Invoice) : M (Option (Row Subscription)) := do
  match ← Proc.ofExcept invoice.line_items with
  | [] => pure none
  | first_line :: _ =>
    match ← Proc.ofExcept first_line.stripe_subscription_id with
    | none => pure none
    | some stripe_subscription_id =>
      let stripe_subscription ← Subscription_retrieve (some stripe_subscription_id)
      renew_or_create stripe_subscription_id stripe_subscription.val

def handle_invoice_payment_failed (invoice : Invoice) : M (Option (Row Subscription)) := do
  match ← Proc.ofExcept invoice.line_items with
  | [] => httpException 400 "no lines in invoice"
  | first_line :: _ =>
    let stripe_subscription_id ← Proc.ofExcept first_line.stripe_subscription_id
    update_sub_status .STRIPE stripe_subscription_id .PAST_DUE

def handle_subscription_deleted (stripe_subscription : DeletedSubscription) :
    M (Row Subscription) :=
  match stripe_subscription.id with
  | none => httpException 400 "customer.subscription.deleted without id"
  | some id => do
    let t ← now
    let canceled_at := ((truthy stripe_subscription.canceled_at).map fromtimestamp).getD t
    match ← cancel_subscription none .STRIPE (some id) canceled_at (some t) with
    | none => httpException 400 "No local subscription found"
    | some sub => pure sub

def cancel_subscription_at_end_of_period (user_id : UUID) : M (Row Subscription) := do
  match ← get_subscription_with_access user_id with
  | none => httpException 404 "No active subscription found for this user."
  | some sub =>
    if sub.val.cancel_at_period_end then
      httpException 400 "Subscription is already set to cancel at the end of the billing period."
    else if sub.val.provider ≠ .STRIPE then .raise .unboundLocalError
    else
      let (canceled_at, current_period_end) ← cancel_subscription_at_period_end sub
      match ← cancel_subscription (some sub) sub.val.provider sub.val.provider_subscription_id
          canceled_at current_period_end with
      | none => httpException 404 "Subscription not found in our database."
      | some updated_sub => pure updated_sub

def handle_event : Event → M Unit
  | .checkout_session_completed session => do
    let _ ← user_subscribe session
  | .invoice_payment_succeeded invoice => do
    let sub ← handle_invoice_payment_succeeded invoice
    record_invoice_payment invoice sub
    send_payment_email invoice.billing_reason sub
  | .customer_subscription_deleted stripe_subscription => do
    let sub ← handle_subscription_deleted stripe_subscription
    (TaskName.send_cancel_subscription_email_task.delay (some sub)).suppress
  | .invoice_payment_failed invoice => do
    match ← handle_invoice_payment_failed invoice with
    | none => pure ()
    | some sub => TaskName.send_payment_failed_email_task.delay (some sub)
  | .other => pure ()

/-- A subscribe or upgrade request changes no subscription that its session has. -/
def prog (user_repo : UserRepo) : Request → M Unit
  | .subscribe user plan_code => do
    let _ ← subscribe_user_to_plan user_repo user plan_code
  | .upgrade user new_plan_code => do
    let _ ← upgrade_subscription user_repo user new_plan_code
  | .cancel user_id => do
    let _ ← cancel_subscription_at_end_of_period user_id
  | .webhook event => handle_event event

end Session

/-! ## Requests that run alone -/

namespace Session

open Proc

theorem find_row.found {provider : PaymentProvider} {id : Option StripeId} {w w' : World}
    {r : Row Subscription}
    (h : (SubscriptionRepoistory.get_by_provider_subscription_id provider id).run w =
      (.ok (some r), w')) : w' = w ∧ r ∈ w.db.subscriptions.rows := by
  unfold SubscriptionRepoistory.get_by_provider_subscription_id at h
  rw [run_query, Prod.mk.injEq] at h
  have hmem : r ∈ w.db.subscriptions.select (Subscription.is_of provider id) := by
    rw [scalar_one_or_none_eq_ok.mp h.1]
    simp
  exact ⟨h.2.symm, (Table.mem_select.mp hmem).1⟩

theorem find_access.found {u : UUID} {w w' : World} {o : Option (Row Subscription)}
    (h : (SubscriptionRepoistory.get_subscription_with_access u).run w = (.ok o, w')) :
    w' = w ∧ ∀ r ∈ o, r ∈ w.access_rows u w.clock := by
  rw [SubscriptionRepoistory.get_subscription_with_access.spec, Prod.mk.injEq] at h
  refine ⟨h.2.symm, fun r hr => ?_⟩
  rw [scalar_one_or_none_eq_ok.mp h.1, Option.mem_def.mp hr]
  simp

/-- A commit of an object that is as its row is. -/
theorem commit_patch.same {w : World} {r : Row Subscription} (p : SubscriptionPatch)
    (hr : r ∈ w.db.subscriptions.rows) :
    (commit_patch r p).SameAt (SubscriptionRepoistory.commit_patch r p) w := by
  refine SameAt.bind (SameAt.attempt ?_) fun _ _ _ => SameAt.refl _ _
  simp only [World.update_subscription_flush hr]

theorem create_subscription.same (u p : UUID) (pr : PaymentProvider) (id c : Option StripeId)
    (st : SubscriptionStatus) (w : World) : (create_subscription u p pr id c st).SameAt
      (SubscriptionRepoistory.create_subscription u p pr id c st) w := by
  refine SameAt.bind_left _ fun old w₁ h₁ => SameAt.bind_left _ fun t w₂ h₂ => ?_
  obtain ⟨rfl, hold⟩ := find_access.found h₁
  cases h₂
  refine SameAt.bind (SameAt.attempt ?_) fun _ _ _ => SameAt.refl _ _
  rw [World.demote_held_eq fun o ho => (World.mem_access_rows.mp (hold o ho)).1]

/-- The session has the row as it is. -/
theorem identity_eq {w : World} {held : Option (Row Subscription)} {found : Row Subscription}
    (hheld : ∀ r ∈ held, r ∈ w.db.subscriptions.rows) (hfound : found ∈ w.db.subscriptions.rows) :
    identity held found = found := by
  unfold identity
  rcases held with _ | r
  · rfl
  · by_cases hid : r.id = found.id
    · rw [Table.eq_of_id (hheld r rfl) hfound hid]
      simp [Option.filter]
    · simp [Option.filter, hid]

theorem update_subscription_period.same (pr : PaymentProvider) (id : Option StripeId)
    (start stop : Time) (w : World) : (update_subscription_period pr id start stop).SameAt
      (SubscriptionRepoistory.update_subscription_period pr id start stop) w := by
  refine SameAt.bind_left _ fun o w₁ h₁ => ?_
  cases o with
  | none => exact SameAt.refl _ _
  | some r =>
    obtain ⟨rfl, hr⟩ := find_row.found h₁
    exact SameAt.bind_right _ (commit_patch.same _ hr)

theorem cancel_subscription.same {w : World} {held : Option (Row Subscription)}
    (hheld : ∀ r ∈ held, r ∈ w.db.subscriptions.rows) (pr : PaymentProvider)
    (id : Option StripeId) (at_ : Time) (stop : Option Time) :
    (cancel_subscription held pr id at_ stop).SameAt
      (SubscriptionRepoistory.cancel_subscription pr id at_ stop) w := by
  refine SameAt.bind_left _ fun o w₁ h₁ => ?_
  cases o with
  | none => exact SameAt.refl _ _
  | some r =>
    obtain ⟨rfl, hr⟩ := find_row.found h₁
    simp only [identity_eq hheld hr]
    exact SameAt.bind_right _ (commit_patch.same _ hr)

theorem update_sub_status.same (pr : PaymentProvider) (id : Option StripeId)
    (st : SubscriptionStatus) (w : World) : (update_sub_status pr id st).SameAt
      (SubscriptionRepoistory.update_sub_status pr id st) w := by
  refine SameAt.bind_left _ fun o w₁ h₁ => ?_
  cases o with
  | none => exact SameAt.refl _ _
  | some r =>
    obtain ⟨rfl, hr⟩ := find_row.found h₁
    simp only
    split
    · exact SameAt.refl _ _
    · exact SameAt.bind_right _ (commit_patch.same _ hr)

theorem cancel_upgraded.same (old : Option StripeId) (w : World) :
    (cancel_upgraded old).SameAt (StripeGateway.cancel_upgraded old) w := by
  cases old with
  | none => exact SameAt.refl _ _
  | some old =>
    refine SameAt.bind_left _ fun _ _ _ => SameAt.bind_left _ fun t _ _ => ?_
    exact SameAt.bind_right _ (cancel_subscription.same (by simp) _ _ _ _)

theorem find_or_create.same (session : SessionObject) (plan_id : Option UuidText) (w : World) :
    (find_or_create session plan_id).SameAt (StripeGateway.find_or_create session plan_id) w := by
  refine SameAt.bind_left _ fun o _ _ => ?_
  cases o with
  | some sub => exact SameAt.refl _ _
  | none =>
    refine SameAt.bind_left _ fun u _ _ => SameAt.bind_left _ fun p _ _ => ?_
    exact create_subscription.same _ _ _ _ _ _ _

theorem user_subscribe.same (session : SessionObject) (w : World) :
    (user_subscribe session).SameAt (StripeGateway.user_subscribe session) w := by
  refine SameAt.bind_left _ fun S _ _ => SameAt.bind_left _ fun plan _ _ => ?_
  cases plan with
  | none => exact SameAt.refl _ _
  | some plan =>
    exact SameAt.bind (cancel_upgraded.same _ _) fun _ _ _ => find_or_create.same _ _ _

theorem renew_or_create.same (id : StripeId) (S : StripeSubscription) (w : World) :
    (renew_or_create id S).SameAt (StripeGateway.renew_or_create id S) w := by
  unfold renew_or_create StripeGateway.renew_or_create
  cases S.items with
  | nil => exact SameAt.refl _ _
  | cons item items =>
    refine SameAt.bind (update_subscription_period.same _ _ _ _ _) fun o _ _ => ?_
    cases o with
    | some sub => exact SameAt.refl _ _
    | none =>
      refine SameAt.bind_left _ fun u _ _ => SameAt.bind_left _ fun p _ _ => ?_
      exact SameAt.bind_right _ (create_subscription.same _ _ _ _ _ _ _)

theorem handle_invoice_payment_succeeded.same (invoice : Invoice) (w : World) :
    (handle_invoice_payment_succeeded invoice).SameAt
      (StripeGateway.handle_invoice_payment_succeeded invoice) w := by
  refine SameAt.bind_left _ fun lines _ _ => ?_
  cases lines with
  | nil => exact SameAt.refl _ _
  | cons line lines =>
    refine SameAt.bind_left _ fun id _ _ => ?_
    cases id with
    | none => exact SameAt.refl _ _
    | some id => exact SameAt.bind_left _ fun S _ _ => renew_or_create.same _ _ _

theorem handle_invoice_payment_failed.same (invoice : Invoice) (w : World) :
    (handle_invoice_payment_failed invoice).SameAt
      (StripeGateway.handle_invoice_payment_failed invoice) w := by
  refine SameAt.bind_left _ fun lines _ _ => ?_
  cases lines with
  | nil => exact SameAt.refl _ _
  | cons line lines =>
    exact SameAt.bind_left _ fun id _ _ => update_sub_status.same _ _ _ _

theorem handle_subscription_deleted.same (d : DeletedSubscription) (w : World) :
    (handle_subscription_deleted d).SameAt (StripeGateway.handle_subscription_deleted d) w := by
  unfold handle_subscription_deleted StripeGateway.handle_subscription_deleted
  cases d.id with
  | none => exact SameAt.refl _ _
  | some id =>
    refine SameAt.bind_left _ fun t _ _ => ?_
    exact SameAt.bind_right _ (cancel_subscription.same (by simp) _ _ _ _)

/-- The call to Stripe leaves the database. -/
theorem cancel_subscription_at_period_end.db (sub : Row Subscription) (w : World) :
    ((StripeGateway.cancel_subscription_at_period_end sub).run w).2.db = w.db := by
  have hacts : (StripeGateway.cancel_subscription_at_period_end sub).Acts
      fun a b => b.db = a.db := by
    unfold StripeGateway.cancel_subscription_at_period_end
    dsimp only
    split
    · refine Acts.bind (Acts.attempt (fun _ => rfl) fun a S b h => ?_) fun S =>
        Acts.bind (p := Proc.ret _) trivial fun _ =>
          Acts.bind (Acts.read fun _ => rfl) fun _ => trivial
      split at h
      · split at h
        · cases h
        · cases h
          rfl
      · cases h
    · exact Acts.bind (p := Proc.ret _) trivial fun _ => Acts.bind (Acts.read fun _ => rfl) fun _ =>
        trivial
  exact hacts.run_keeps (fun _ => rfl) (fun _ _ _ h h' => h'.trans h) w

/-- The update at Stripe leaves the row that the session has. -/
theorem cancel_subscription_at_end_of_period.same (u : UUID) (w : World) :
    (cancel_subscription_at_end_of_period u).SameAt
      (SubscriptionService.cancel_subscription_at_end_of_period u) w := by
  refine SameAt.bind_left _ fun o w₁ h₁ => ?_
  obtain ⟨rfl, ho⟩ := find_access.found h₁
  cases o with
  | none => exact SameAt.refl _ _
  | some sub =>
    have hsub := (World.mem_access_rows.mp (ho sub rfl)).1
    simp only
    split
    · exact SameAt.refl _ _
    · split
      · exact SameAt.refl _ _
      · refine SameAt.bind_left _ fun times w₂ h₂ => ?_
        have hdb := cancel_subscription_at_period_end.db sub w₁
        rw [h₂] at hdb
        refine SameAt.bind_right _ (cancel_subscription.same (fun r hr => ?_) _ _ _ _)
        rw [hdb, ← Option.some.inj hr]
        exact hsub

theorem handle_event.same (e : Event) (w : World) :
    (handle_event e).SameAt (SubscriptionService.handle_event e) w := by
  cases e with
  | checkout_session_completed session => exact SameAt.bind_right _ (user_subscribe.same _ _)
  | invoice_payment_succeeded invoice =>
    exact SameAt.bind_right _ (handle_invoice_payment_succeeded.same _ _)
  | invoice_payment_failed invoice =>
    exact SameAt.bind_right _ (handle_invoice_payment_failed.same _ _)
  | customer_subscription_deleted d =>
    exact SameAt.bind_right _ (handle_subscription_deleted.same _ _)
  | other => exact SameAt.refl _ _

/-- A request that nobody overtakes does with its session, act by act, what the
handlers on the rows do, wherever it dies. -/
theorem prog.same (user_repo : UserRepo) (r : Request) (w : World) :
    (prog user_repo r).SameAt (r.prog user_repo) w := by
  cases r with
  | subscribe user code => exact SameAt.refl _ _
  | upgrade user code => exact SameAt.refl _ _
  | cancel u => exact SameAt.bind_right _ (cancel_subscription_at_end_of_period.same _ _)
  | webhook e => exact handle_event.same e w

end Session

end saas
