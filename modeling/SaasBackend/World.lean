-- The state of the service and of what it talks to: the database, Stripe, the
-- Celery queue and the clock. A request is a program on this state.
import SaasBackend.Proc
import SaasBackend.Models

open relational async

namespace saas

/-! ## Stripe -/

inductive StripeStatus where
  | live
  | cancel_at_period_end
  | canceled
deriving DecidableEq, Repr

/-- The metadata that the service reads back from a Stripe subscription. -/
structure Metadata where
  plan_id : Option UuidText := none
  user_id : Option UuidText := none
  upgrade_from_subscription_id : Option StripeId := none
deriving DecidableEq, Repr

structure SubscriptionItem where
  current_period_start : Nat
  current_period_end : Nat
deriving DecidableEq, Repr

/-- A Stripe subscription. `canceled_at` and the top `current_period_end` are
in an answer of Stripe or not, by its API version. -/
structure StripeSubscription where
  status : StripeStatus := .live
  customer : Option StripeId
  metadata : Metadata
  items : List SubscriptionItem
  canceled_at : Option Nat := none
  current_period_end : Option Nat := none
deriving DecidableEq, Repr

structure StripeCustomer where
  email : String
  user_id : UUID
deriving DecidableEq, Repr

/-- A checkout session, with the metadata of the subscription it sells. Stripe
sets `subscription` when the customer has paid. -/
structure CheckoutSession where
  customer : Option StripeId
  price : StripeId
  client_reference_id : Option UuidText
  subscription_metadata : Metadata
  subscription : Option StripeId := none
deriving DecidableEq, Repr

structure StripeProduct where
  name : String
  active : Bool := true
deriving DecidableEq, Repr

/-- A price as it was asked for. Without an interval it is paid once. -/
structure StripePrice where
  product : StripeId
  unit_amount : Int
  currency : String
  interval : Option String
  active : Bool := true
deriving DecidableEq, Repr

instance : Keyed StripeSubscription Empty where
  keys _ := []

instance : Keyed StripeCustomer Empty where
  keys _ := []

instance : Keyed CheckoutSession Empty where
  keys _ := []

instance : Keyed StripeProduct Empty where
  keys _ := []

instance : Keyed StripePrice Empty where
  keys _ := []

structure Stripe where
  customers : Table StripeCustomer := .empty
  sessions : Table CheckoutSession := .empty
  subscriptions : Table StripeSubscription := .empty
  products : Table StripeProduct := .empty
  prices : Table StripePrice := .empty

/-- A table without unique columns takes every row. -/
theorem fits_of_no_keys {α κ : Type} [Keyed α κ] {t : Table α} {a : α}
    (h : (Keyed.keys a : List κ) = []) : t.Fits a := by
  simp [Table.Fits, h]

namespace Stripe

def setStatus (st : StripeStatus) (s : StripeSubscription) : StripeSubscription :=
  { s with status := st }

def set_status (stripe : Stripe) (id : StripeId) (st : StripeStatus) : Stripe :=
  { stripe with subscriptions := stripe.subscriptions.update id (setStatus st) (fun _ => rfl) }

/-- The status of a subscription, if Stripe has it. -/
def statusOf (stripe : Stripe) (id : StripeId) : Option StripeStatus :=
  (stripe.subscriptions.byId id).map (·.val.status)

end Stripe

/-! ## The Celery queue -/

inductive TaskName where
  | send_subscription_email_task
  | send_update_subscription_email_task
  | send_cancel_subscription_email_task
  | send_payment_failed_email_task
deriving DecidableEq, Repr

/-- What `serialize_subscription` hands to a task. The dates are days. -/
structure SubscriptionDict where
  id : UUID
  user_email : String
  user_username : String
  plan_name : String
  plan_price_cents : Int
  start_date : Nat
  end_date : Option Nat
deriving DecidableEq, Repr

structure Task where
  name : TaskName
  subscription : SubscriptionDict
deriving DecidableEq, Repr

/-! ## The world -/

/-- The state that all requests share. `uuids` is the next value of `uuid4()`
for a token id, and `token_locks` are the rows of `refresh_tokens` that a
`DELETE` has locked and not yet committed. -/
structure World where
  db : Db
  stripe : Stripe := {}
  queue : List Task := []
  clock : Time := 0
  uuids : Nat := 0
  token_locks : List UUID := []

/-- A request handler, or a part of one. -/
abbrev M := Proc World Err

/-- `datetime.now(timezone.utc)`. -/
def now : M Time := Proc.read World.clock

/-- `HTTPException`. -/
def httpException {α : Type} (status_code : Nat) (detail : String) : M α :=
  .raise (.http status_code detail)

@[simp] theorem now.spec (w : World) : now.run w = (.ok w.clock, w) := rfl

theorem now.reads : now.Reads := Proc.reads_read _

namespace World

def advance (w : World) (d : Nat) : World := { w with clock := w.clock + d }

def set_status (w : World) (id : StripeId) (st : StripeStatus) : World :=
  { w with stripe := w.stripe.set_status id st }

def update_subscription (w : World) (i : UUID) (p : SubscriptionPatch) : World :=
  { w with db := w.db.update_subscription i p }

/-- A new checkout session. -/
def open_session (w : World) (c : CheckoutSession) : World :=
  { w with stripe.sessions := w.stripe.sessions.push c (fits_of_no_keys rfl) }

def enqueue (w : World) (t : Task) : World := { w with queue := w.queue ++ [t] }

end World

/-! ## Calls to Stripe -/

/-- `stripe.Subscription.retrieve`. -/
def Subscription_retrieve (id : Option StripeId) : M (Row StripeSubscription) :=
  Proc.query fun w => match id.bind w.stripe.subscriptions.byId with
    | some s => .ok s
    | none => .error .stripeError

/-- `stripe.Subscription.modify(id, cancel_at_period_end=True)`: an error for a
subscription that is already canceled. -/
def Subscription_modify (id : StripeId) : M (Row StripeSubscription) :=
  Proc.attempt fun w => match w.stripe.subscriptions.byId id with
    | some s =>
      if s.val.status = .canceled then .error .stripeError
      else .ok (⟨s.id, Stripe.setStatus .cancel_at_period_end s.val⟩,
        w.set_status id .cancel_at_period_end)
    | none => .error .stripeError

/-- `stripe.Subscription.delete`: an error for a subscription that is already
canceled. -/
def Subscription_delete (id : StripeId) : M Unit :=
  Proc.attempt fun w => match w.stripe.subscriptions.byId id with
    | some s =>
      if s.val.status = .canceled then .error .stripeError
      else .ok ((), w.set_status id .canceled)
    | none => .error .stripeError

/-- `stripe.Customer.create`: a new customer on every call. -/
def Customer_create (email : String) (user_id : UUID) : M StripeId :=
  Proc.attempt fun w => .ok (w.stripe.customers.next, { w with
    stripe.customers := w.stripe.customers.push ⟨email, user_id⟩ (fits_of_no_keys rfl) })

/-- `stripe.checkout.Session.create`: an error without a price. -/
def Session_create (customer : Option StripeId) (price : Option StripeId)
    (client_reference_id : UUID) (metadata : Metadata) : M StripeId :=
  Proc.attempt fun w => match price with
    | none => .error .stripeError
    | some price => .ok (w.stripe.sessions.next, w.open_session
        { customer := customer, price := price,
          client_reference_id := some (.ofUuid client_reference_id),
          subscription_metadata := metadata })

/-! ## The specs of the calls -/

theorem Subscription_retrieve.spec (id : StripeId) (w : World) :
    (Subscription_retrieve (some id)).run w = match w.stripe.subscriptions.byId id with
      | some s => (.ok s, w)
      | none => (.error .stripeError, w) := by
  unfold Subscription_retrieve
  rw [Proc.run_query]
  simp only [Option.bind_some]
  cases w.stripe.subscriptions.byId id <;> rfl

theorem Subscription_retrieve.reads (id : Option StripeId) : (Subscription_retrieve id).Reads :=
  Proc.reads_query _

theorem Subscription_modify.spec (id : StripeId) (w : World) :
    (Subscription_modify id).run w = match w.stripe.subscriptions.byId id with
      | some s =>
        if s.val.status = .canceled then (.error .stripeError, w)
        else (.ok ⟨s.id, Stripe.setStatus .cancel_at_period_end s.val⟩,
          w.set_status id .cancel_at_period_end)
      | none => (.error .stripeError, w) := by
  unfold Subscription_modify
  rw [Proc.run_attempt]
  rcases w.stripe.subscriptions.byId id with _ | s
  · rfl
  · by_cases hc : s.val.status = .canceled
    · simp [hc]
    · simp [hc]

theorem Subscription_delete.spec (id : StripeId) (w : World) :
    (Subscription_delete id).run w = match w.stripe.subscriptions.byId id with
      | some s =>
        if s.val.status = .canceled then (.error .stripeError, w)
        else (.ok (), w.set_status id .canceled)
      | none => (.error .stripeError, w) := by
  unfold Subscription_delete
  rw [Proc.run_attempt]
  rcases w.stripe.subscriptions.byId id with _ | s
  · rfl
  · by_cases hc : s.val.status = .canceled
    · simp [hc]
    · simp [hc]

/-- A change of one status, seen from any subscription. -/
theorem Stripe.byId_set_status (stripe : Stripe) (id i : StripeId) (st : StripeStatus) :
    (stripe.set_status id st).subscriptions.byId i =
      (stripe.subscriptions.byId i).map (Table.updateRow id (Stripe.setStatus st)) :=
  Table.byId_update (f := setStatus st) (fun _ => rfl) i

theorem Stripe.statusOf_set_status (stripe : Stripe) (id i : StripeId) (st : StripeStatus) :
    (stripe.set_status id st).statusOf i =
      if i = id then (stripe.statusOf i).map (fun _ => st) else stripe.statusOf i := by
  unfold Stripe.statusOf
  rw [Stripe.byId_set_status]
  rcases hb : stripe.subscriptions.byId i with _ | s
  · simp
  · have hi := (Table.byId_eq_some.mp hb).2
    subst hi
    by_cases hid : s.id = id
    · simp [hid, Table.updateRow_of_eq hid, Stripe.setStatus]
    · simp [hid, Table.updateRow_of_ne hid]

end saas
