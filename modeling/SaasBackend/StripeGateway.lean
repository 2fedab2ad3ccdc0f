-- `billing/stripe_gateway.py`: checkout sessions, cancellations and the
-- handlers of the four webhook events.
import SaasBackend.AuthRepo
import SaasBackend.BillingRepo

open relational async

namespace saas

/-! ## The objects of an event -/

/-- A field of a JSON object. -/
inductive Field (α : Type) where
  | missing
  | null
  | val (a : α)
deriving DecidableEq, Repr

/-- `subscription_item_details` of an invoice line. -/
structure ItemDetails where
  subscription : Option StripeId
deriving DecidableEq, Repr

structure LineParent where
  subscription_item_details : Option ItemDetails
deriving DecidableEq, Repr

structure InvoiceLine where
  parent : Field LineParent
deriving DecidableEq, Repr

structure InvoiceLines where
  data : Option (List InvoiceLine)
deriving DecidableEq, Repr

inductive BillingReason where
  | subscription_create
  | subscription_cycle
  | other
deriving DecidableEq, Repr

structure Invoice where
  id : StripeId
  billing_reason : BillingReason
  amount_paid : Int
  currency : Option String
  lines : Field InvoiceLines
deriving DecidableEq, Repr

/-- The session of a `checkout.session.completed` event. -/
structure SessionObject where
  client_reference_id : Option UuidText
  subscription : Option StripeId
  customer : Option StripeId
deriving DecidableEq, Repr

/-- The subscription of a `customer.subscription.deleted` event. -/
structure DeletedSubscription where
  id : Option StripeId
  canceled_at : Option Nat
deriving DecidableEq, Repr

/-- `invoice.get("lines", {}).get("data", [])`. -/
def Invoice.line_items (invoice : Invoice) : Except Err (List InvoiceLine) :=
  match invoice.lines with
  | .missing => .ok []
  | .null => .error .attributeError
  | .val lines => .ok (lines.data.getD [])

/-- `line.get("parent", {}).get("subscription_item_details", {}) or {}`, and the
subscription in it. -/
def InvoiceLine.stripe_subscription_id (line : InvoiceLine) : Except Err (Option StripeId) :=
  match line.parent with
  | .missing => .ok none
  | .null => .error .attributeError
  | .val parent => .ok (parent.subscription_item_details.bind ItemDetails.subscription)

/-- A timestamp that `if ts:` lets pass: zero is false. -/
def truthy (ts : Option Nat) : Option Nat := ts.filter (fun n => decide (n ≠ 0))

/-! ## The gateway -/

/-- What `SubscriptionService` gets as its `user_repo`: a repository, as its
type says, or the `User` that `get_subscription_service` passes. -/
inductive UserRepo where
  | repository
  | user
deriving DecidableEq, Repr

namespace StripeGateway

open SubscriptionRepoistory

/-- A `User` has no `update`. -/
def ensure_customer (user : Row User) (user_repo : UserRepo) : M (Row User) :=
  match user.val.stripe_customer_id with
  | some _ => pure user
  | none => do
    let customer ← Customer_create user.val.email user.id
    match user_repo with
    | .user => .raise .attributeError
    | .repository => UserRepository.update user (.stripe_customer customer)

def create_subscription_checkout_session (user : Row User) (plan : Row Plan) (user_repo : UserRepo)
    (old_stripe_sub_id : Option StripeId := none) : M StripeId := do
  let user ← ensure_customer user user_repo
  Session_create user.val.stripe_customer_id plan.val.stripe_price_id user.id
    { plan_id := some (.ofUuid plan.id), user_id := some (.ofUuid user.id),
      upgrade_from_subscription_id := old_stripe_sub_id }

/-- The first half of `user_subscribe`: an upgrade cancels the old subscription
in Stripe and then here. -/
def cancel_upgraded (old_stripe_sub_id : Option StripeId) : M Unit :=
  match old_stripe_sub_id with
  | none => pure ()
  | some old => do
    Subscription_delete old
    let t ← now
    let _ ← cancel_subscription .STRIPE (some old) t (some t)

/-- The second half of `user_subscribe`: the local row, unless it is there. -/
def find_or_create (session : SessionObject) (plan_id : Option UuidText) :
    M (Row Subscription) := do
  match ← get_by_provider_subscription_id .STRIPE session.subscription with
  | some sub => pure sub
  | none =>
    let user_id ← Proc.ofExcept (UUID.parse session.client_reference_id)
    let plan_id ← Proc.ofExcept (UUID.parse plan_id)
    create_subscription user_id plan_id .STRIPE session.subscription session.customer .PAST_DUE

def user_subscribe (session : SessionObject) : M (Row Subscription) := do
  let stripe_subscription ← Subscription_retrieve session.subscription
  let sub_metadata := stripe_subscription.val.metadata
  match ← PlanRepository.get_by_id sub_metadata.plan_id with
  | none => httpException 400 "error happened"
  | some _ =>
    cancel_upgraded sub_metadata.upgrade_from_subscription_id
    find_or_create session sub_metadata.plan_id

/-- `currency.upper()`. A currency of Stripe is a code of ASCII letters. -/
def upper (currency : String) : String := .ofList (currency.toList.map Char.toUpper)

/-- Without a subscription `subscription.user_id` fails. -/
def record_invoice_payment (invoice : Invoice) (subscription : Option (Row Subscription)) :
    M Unit :=
  match subscription with
  | none => .raise .attributeError
  | some sub => do
    let currency := upper ((invoice.currency.filter (· ≠ "")).getD "usd")
    let _ ← PaymentRepository.create_payment sub.val.user_id (some sub.id) invoice.id
      invoice.amount_paid currency .SUCCEEDED .STRIPE

def cancel_subscription_at_period_end (sub : Row Subscription) : M (Time × Option Time) := do
  let stripe_subscription ← match sub.val.provider, sub.val.provider_subscription_id with
    | .STRIPE, some id => do
      let s ← Subscription_modify id
      pure (some s.val)
    | _, _ => pure none
  let t ← now
  let canceled_at := truthy (stripe_subscription.bind StripeSubscription.canceled_at)
  let period_end := truthy (stripe_subscription.bind StripeSubscription.current_period_end)
  pure ((canceled_at.map fromtimestamp).getD t,
    period_end.map fromtimestamp <|> sub.val.current_period_end)

/-- The second half of `handle_invoice_payment_succeeded`: the row gets the
period that Stripe has now, or a new row is made. -/
def renew_or_create (id : StripeId) (stripe_subscription : StripeSubscription) :
    M (Option (Row Subscription)) :=
  match stripe_subscription.items with
  | [] => .raise .indexError
  | item :: _ => do
    match ← update_subscription_period .STRIPE (some id)
        (fromtimestamp item.current_period_start) (fromtimestamp item.current_period_end) with
    | some sub => pure (some sub)
    | none =>
      let user_id ← Proc.ofExcept (UUID.parse stripe_subscription.metadata.user_id)
      let plan_id ← Proc.ofExcept (UUID.parse stripe_subscription.metadata.plan_id)
      let sub ← create_subscription user_id plan_id .STRIPE (some id)
        stripe_subscription.customer .ACTIVE
      pure (some sub)

def handle_invoice_payment_succeeded (invoice : Invoice) : M (Option (Row Subscription)) := do
  match ← Proc.ofExcept invoice.line_items with
  | [] => pure none
  | first_line :: _ =>
    match ← Proc.ofExcept first_line.stripe_subscription_id with
    | none => pure none
    | some stripe_subscription_id =>
      let stripe_subscription ← Subscription_retrieve (some stripe_subscription_id)
      renew_or_create stripe_subscription_id stripe_subscription.val

def handle_invoice_payment_failed (invoice : Invoice) : M (Option (Row Subscription)) := do
  match ← Proc.ofExcept invoice.line_items with
  | [] => httpException 400 "no lines in invoice"
  | first_line :: _ =>
    let stripe_subscription_id ← Proc.ofExcept first_line.stripe_subscription_id
    update_sub_status .STRIPE stripe_subscription_id .PAST_DUE

/-- The period ends now: the user has no more access. -/
def handle_subscription_deleted (stripe_subscription : DeletedSubscription) :
    M (Row Subscription) :=
  match stripe_subscription.id with
  | none => httpException 400 "customer.subscription.deleted without id"
  | some id => do
    let t ← now
    let canceled_at := ((truthy stripe_subscription.canceled_at).map fromtimestamp).getD t
    match ← cancel_subscription .STRIPE (some id) canceled_at (some t) with
    | none => httpException 400 "No local subscription found"
    | some sub => pure sub

end StripeGateway

/-! ## The specs of the gateway -/

namespace World

/-- A status at Stripe is nothing to the local rows. -/
@[simp] theorem row_of_set_status (w : World) (id i : StripeId) (st : StripeStatus) :
    (w.set_status id st).row_of i = w.row_of i := rfl

/-- An upgrade that ended the old subscription at Stripe and here. -/
def end_upgraded (w : World) (old : StripeId) : World :=
  match w.row_of old with
  | none => w.set_status old .canceled
  | some r => (w.set_status old .canceled).update_subscription r.id (.cancel w.clock (some w.clock))

end World

namespace StripeGateway

open SubscriptionRepoistory Proc

theorem cancel_upgraded.spec (old : StripeId) (w : World) :
    (cancel_upgraded (some old)).run w = match w.stripe.subscriptions.byId old with
      | none => (.error .stripeError, w)
      | some S =>
        if S.val.status = .canceled then (.error .stripeError, w)
        else (.ok (), w.end_upgraded old) := by
  unfold cancel_upgraded
  rw [run_bind, Subscription_delete.spec]
  rcases w.stripe.subscriptions.byId old with _ | S
  · rfl
  · by_cases hc : S.val.status = .canceled
    · simp [hc]
    · simp only [hc, if_false]
      rw [run_bind_ok (now.spec _), run_bind, cancel_subscription.spec]
      unfold World.end_upgraded
      rw [World.row_of_set_status]
      rcases w.row_of old with _ | r <;> rfl

theorem cancel_subscription_at_period_end.spec {sub : Row Subscription} {id : StripeId}
    (hp : sub.val.provider = .STRIPE) (hid : sub.val.provider_subscription_id = some id)
    (w : World) : (cancel_subscription_at_period_end sub).run w =
      match w.stripe.subscriptions.byId id with
      | none => (.error .stripeError, w)
      | some S =>
        if S.val.status = .canceled then (.error .stripeError, w)
        else (.ok (((truthy S.val.canceled_at).map fromtimestamp).getD w.clock,
            (truthy S.val.current_period_end).map fromtimestamp <|> sub.val.current_period_end),
          w.set_status id .cancel_at_period_end) := by
  unfold cancel_subscription_at_period_end
  simp only [hp, hid]
  rw [run_bind, Subscription_modify.spec]
  rcases w.stripe.subscriptions.byId id with _ | S
  · rfl
  · by_cases hc : S.val.status = .canceled
    · simp only [hc, if_true]
    · simp only [hc, if_false]
      rfl

theorem cancel_subscription_at_period_end.commits (sub : Row Subscription) :
    (cancel_subscription_at_period_end sub).Commits := by
  unfold cancel_subscription_at_period_end
  simp only
  split
  · refine Commits.before_reads (commits_attempt _) fun _ => ?_
    exact (reads_pure _).bind fun _ => (reads_read _).bind fun _ => reads_pure _
  · exact ((reads_pure _).bind fun _ => (reads_read _).bind fun _ => reads_pure _).commits

theorem handle_subscription_deleted.spec (id : StripeId) (ts : Option Nat) (w : World) :
    (handle_subscription_deleted ⟨some id, ts⟩).run w = match w.row_of id with
      | none => (.error (.http 400 "No local subscription found"), w)
      | some r =>
        let p := SubscriptionPatch.cancel (((truthy ts).map fromtimestamp).getD w.clock)
          (some w.clock)
        (.ok ⟨r.id, p.apply r.val⟩, w.update_subscription r.id p) := by
  unfold handle_subscription_deleted
  simp only
  rw [run_bind_ok (now.spec w), run_bind, cancel_subscription.spec]
  rcases w.row_of id with _ | r <;> rfl

/-- The row that an event has found or made. -/
theorem find_or_create.spec (id : StripeId) (ref plan_id : Option UuidText)
    (customer : Option StripeId) (w : World) :
    (find_or_create ⟨ref, some id, customer⟩ plan_id).run w = match w.row_of id with
      | some r => (.ok r, w)
      | none => match UUID.parse ref, UUID.parse plan_id with
        | .error e, _ => (.error e, w)
        | .ok _, .error e => (.error e, w)
        | .ok u, .ok p => (create_subscription u p .STRIPE (some id) customer .PAST_DUE).run w := by
  unfold find_or_create
  rw [run_bind_ok (get_by_provider_subscription_id.spec id w)]
  rcases w.row_of id with _ | r
  · simp only
    rcases UUID.parse ref with e | u
    · rfl
    · rcases UUID.parse plan_id with e | p <;> rfl
  · rfl

theorem find_or_create.commits (session : SessionObject) (plan_id : Option UuidText) :
    (find_or_create session plan_id).Commits := by
  apply Commits.after_reads (get_by_provider_subscription_id.reads _ _)
  intro o
  cases o with
  | some r => exact commits_pure _
  | none =>
    apply Commits.after_reads (reads_ofExcept _)
    intro u
    apply Commits.after_reads (reads_ofExcept _)
    intro p
    exact create_subscription.commits u p _ _ _ _

theorem renew_or_create.spec (id : StripeId) (S : StripeSubscription) (w : World) :
    (renew_or_create id S).run w = match S.items with
      | [] => (.error .indexError, w)
      | item :: _ => match w.row_of id with
        | some r =>
          let p := SubscriptionPatch.period (fromtimestamp item.current_period_start)
            (fromtimestamp item.current_period_end)
          (.ok (some ⟨r.id, p.apply r.val⟩), w.update_subscription r.id p)
        | none => match UUID.parse S.metadata.user_id, UUID.parse S.metadata.plan_id with
          | .error e, _ => (.error e, w)
          | .ok _, .error e => (.error e, w)
          | .ok u, .ok p =>
            match (create_subscription u p .STRIPE (some id) S.customer .ACTIVE).run w with
            | (.ok r, w') => (.ok (some r), w')
            | (.error e, w') => (.error e, w') := by
  unfold renew_or_create
  rcases S.items with _ | ⟨item, items⟩
  · rfl
  · simp only
    rw [run_bind, update_subscription_period.spec]
    rcases w.row_of id with _ | r
    · simp only
      rcases UUID.parse S.metadata.user_id with e | u
      · rfl
      · rcases UUID.parse S.metadata.plan_id with e | p
        · rfl
        · change (create_subscription u p .STRIPE (some id) S.customer .ACTIVE >>= _).run w = _
          rw [run_bind]
          rcases hr : (create_subscription u p .STRIPE (some id) S.customer .ACTIVE).run w with
            ⟨e | r, w'⟩
          · simp only [hr]
          · simp only [hr, run_pure]
    · rfl

theorem renew_or_create.commits (id : StripeId) (S : StripeSubscription) :
    (renew_or_create id S).Commits := by
  unfold renew_or_create
  rcases S.items with _ | ⟨item, items⟩
  · exact commits_raise _
  · apply (update_subscription_period.commits _ _ _ _).bind
    intro w o w' hr
    rw [update_subscription_period.spec] at hr
    rcases hrow : w.row_of id with _ | r
    · rw [hrow] at hr
      cases hr
      refine Or.inl ⟨rfl, Commits.after_reads (reads_ofExcept _) fun u => ?_⟩
      refine Commits.after_reads (reads_ofExcept _) fun p => ?_
      exact (create_subscription.commits u p _ _ _ _).before_reads fun _ => reads_pure _
    · rw [hrow] at hr
      cases hr
      exact Or.inr (reads_pure _)

end StripeGateway

end saas
