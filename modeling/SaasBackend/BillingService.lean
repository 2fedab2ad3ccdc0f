-- `billing/service.py` and the plan check of `billing/dependencies.py`: the
-- requests of a user, and the webhook that Stripe calls.
import SaasBackend.StripeGateway

open relational async

namespace saas

/-! ## Emails -/

/-- The day of a time, as `strftime("%Y-%m-%d")` prints it. -/
def dayOf (t : Time) : Nat := t / 86400000000

/-- `serialize_subscription`, with the user and the plan that the row loaded. -/
def serialize_subscription (db : Db) (subscription : Option (Row Subscription)) :
    Except Err SubscriptionDict :=
  match subscription with
  | none => .error .attributeError
  | some s =>
    match db.users.byId s.val.user_id, db.plans.byId s.val.plan_id with
    | some user, some plan => .ok
        { id := s.id
          user_email := user.val.email
          user_username := user.val.username
          plan_name := plan.val.name
          plan_price_cents := plan.val.price_cents
          start_date := dayOf s.val.started_at
          end_date := s.val.current_period_end.map dayOf }
    | _, _ => .error .attributeError

/-- `task.delay(serialize_subscription(sub))`. -/
def TaskName.delay (task : TaskName) (sub : Option (Row Subscription)) : M Unit :=
  Proc.attempt fun w => (serialize_subscription w.db sub).map fun d => ((), w.enqueue ⟨task, d⟩)

/-! ## Events -/

/-- The type of a Stripe event with its object. -/
inductive Event where
  | checkout_session_completed (session : SessionObject)
  | invoice_payment_succeeded (invoice : Invoice)
  | invoice_payment_failed (invoice : Invoice)
  | customer_subscription_deleted (subscription : DeletedSubscription)
  | other
deriving DecidableEq, Repr

/-- A request to the webhook: the event in its body, and the secret that its
`Stripe-Signature` was made with. -/
structure Delivery where
  event : Event
  secret : Nat
deriving DecidableEq, Repr

/-- What `stripe_webhook` returns: nothing, or the error of the signature check. -/
inductive WebhookResult where
  | done
  | error
deriving DecidableEq, Repr

namespace SubscriptionService

open SubscriptionRepoistory StripeGateway

/-! ## The requests of a user -/

def get_user_subscription (user_id : UUID) : M (Row Subscription) := do
  match ← get_subscription_with_access user_id with
  | none => httpException 404 "No active subscription found for this user."
  | some subscription => pure subscription

def subscribe_user_to_plan (user_repo : UserRepo) (user : Row User) (plan_code : String) :
    M StripeId := do
  match ← get_subscription_with_access user.id with
  | some _ => httpException 400 "User already has an active subscription."
  | none =>
    match ← PlanRepository.get_by_code plan_code with
    | none => httpException 404 "No active plan found for this code."
    | some plan => create_subscription_checkout_session user plan user_repo

/-- Only a Stripe subscription sets the two times that the update needs. -/
def cancel_subscription_at_end_of_period (user_id : UUID) : M (Row Subscription) := do
  match ← get_subscription_with_access user_id with
  | none => httpException 404 "No active subscription found for this user."
  | some sub =>
    if sub.val.cancel_at_period_end then
      httpException 400 "Subscription is already set to cancel at the end of the billing period."
    else if sub.val.provider ≠ .STRIPE then .raise .unboundLocalError
    else
      let (canceled_at, current_period_end) ← cancel_subscription_at_period_end sub
      match ← cancel_subscription sub.val.provider sub.val.provider_subscription_id
          canceled_at current_period_end with
      | none => httpException 404 "Subscription not found in our database."
      | some updated_sub => pure updated_sub

def upgrade_subscription (user_repo : UserRepo) (user : Row User) (new_plan_code : String) :
    M StripeId := do
  match ← get_subscription_with_access user.id with
  | none => httpException 404 "No active subscription to upgrade."
  | some current_sub =>
    match ← PlanRepository.get_by_code new_plan_code with
    | none => httpException 404 "Plan not found."
    | some new_plan =>
      if new_plan.id = current_sub.val.plan_id then
        httpException 400 "You are already on this plan."
      else if current_sub.val.provider ≠ .STRIPE then .raise .unboundLocalError
      else
        create_subscription_checkout_session user new_plan user_repo
          current_sub.val.provider_subscription_id

/-! ## The webhook -/

/-- The email that the reason of an invoice calls for. -/
def send_payment_email (billing_reason : BillingReason) (sub : Option (Row Subscription)) :
    M Unit :=
  match billing_reason with
  | .subscription_cycle => TaskName.send_update_subscription_email_task.delay sub
  | .subscription_create => TaskName.send_subscription_email_task.delay sub
  | .other => pure ()

/-- The body of `stripe_webhook` after the signature check. -/
def handle_event : Event → M Unit
  | .checkout_session_completed session => do
    let _ ← user_subscribe session
  | .invoice_payment_succeeded invoice => do
    let sub ← handle_invoice_payment_succeeded invoice
    record_invoice_payment invoice sub
    send_payment_email invoice.billing_reason sub
  | .customer_subscription_deleted stripe_subscription => do
    let sub ← handle_subscription_deleted stripe_subscription
    (TaskName.send_cancel_subscription_email_task.delay (some sub)).suppress
  | .invoice_payment_failed invoice => do
    match ← handle_invoice_payment_failed invoice with
    | none => pure ()
    | some sub => TaskName.send_payment_failed_email_task.delay (some sub)
  | .other => pure ()

def stripe_webhook (stripe_webhook_secret : Nat) (request : Delivery) : M WebhookResult :=
  if request.secret ≠ stripe_webhook_secret then pure .error
  else do
    handle_event request.event
    pure .done

end SubscriptionService

/-! ## The plan check -/

/-- The name of a tier in the text of an error. -/
def PlanTier.name : PlanTier → String
  | FREE => "FREE"
  | PRO => "PRO"
  | VIP => "VIP"

/-- `require_plan(min_plan)`, after `get_user`; a token of a lost account gives
no user. -/
def require_plan (min_plan : PlanTier) (user : Option (Row User)) :
    M (Row User × Row Subscription × Row Plan) :=
  match user with
  | none => .raise .attributeError
  | some user => do
    match ← SubscriptionRepoistory.get_subscription_with_access user.id with
    | none => httpException 403 "You need an active subscription to access this resource."
    | some subscription =>
      match ← PlanRepository.get_by_id (some (.ofUuid subscription.val.plan_id)) with
      | none =>
        httpException 403 "Your subscription plan is invalid. Please contact support."
      | some plan =>
        if plan.val.tier.value < min_plan.value then
          httpException 403 ("This action requires " ++ min_plan.name ++ " plan or higher.")
        else pure (user, subscription, plan)

end saas
