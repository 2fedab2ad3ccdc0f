-- The billing service together with Stripe: users subscribe, upgrade and
-- cancel, customers pay the checkout sessions, Stripe renews, cancels and calls
-- the webhook. Events come in any order, late, twice or never, and the process
-- may die between two acts of a request.
import Mathlib.Logic.Relation
import SaasBackend.BillingService
import SaasBackend.Runs

open relational async

namespace saas

/-! ## Requests and labels -/

/-- What reaches the service, after the dependencies have let it in. -/
inductive Request where
  | subscribe (user : Row User) (plan_code : String)
  | upgrade (user : Row User) (new_plan_code : String)
  | cancel (user_id : UUID)
  | webhook (event : Event)
deriving DecidableEq, Repr

open SubscriptionService in
def Request.prog (user_repo : UserRepo) : Request → M Unit
  | .subscribe user plan_code => do
    let _ ← subscribe_user_to_plan user_repo user plan_code
  | .upgrade user new_plan_code => do
    let _ ← upgrade_subscription user_repo user new_plan_code
  | .cancel user_id => do
    let _ ← cancel_subscription_at_end_of_period user_id
  | .webhook event => handle_event event

/-- One step of the whole: a request that runs to its end or dies after some
acts, or something that happens at Stripe. -/
inductive Label where
  | serve (request : Request) (dies_after : Option Nat)
  | tick (d : Nat)
  /-- The customer of a session pays, and a subscription begins. -/
  | pay (session : StripeId) (items : List SubscriptionItem)
  /-- Stripe moves the period of a subscription. -/
  | bill (id : StripeId) (items : List SubscriptionItem) (canceled_at period_end : Option Nat)
  /-- Stripe cancels a subscription. -/
  | stop (id : StripeId)
deriving DecidableEq, Repr

namespace World

def set_subscription (id : StripeId) (c : CheckoutSession) : CheckoutSession :=
  { c with subscription := some id }

/-- The subscription that a paid session starts. -/
def sold (c : CheckoutSession) (items : List SubscriptionItem) : StripeSubscription :=
  { customer := c.customer, metadata := c.subscription_metadata, items := items }

def pay (w : World) (session : Row CheckoutSession) (items : List SubscriptionItem) : World :=
  { w with
    stripe.subscriptions :=
      w.stripe.subscriptions.push (sold session.val items) (fits_of_no_keys rfl)
    stripe.sessions := w.stripe.sessions.update session.id
      (set_subscription w.stripe.subscriptions.next) (fun _ => rfl) }

def set_period (items : List SubscriptionItem) (canceled_at period_end : Option Nat)
    (s : StripeSubscription) : StripeSubscription :=
  { s with items := items, canceled_at := canceled_at, current_period_end := period_end }

def bill (w : World) (id : StripeId) (items : List SubscriptionItem)
    (canceled_at period_end : Option Nat) : World :=
  { w with
    stripe.subscriptions :=
      w.stripe.subscriptions.update id (set_period items canceled_at period_end) (fun _ => rfl) }

end World

/-- Stripe tells of a session that was paid, with the session's own fields. -/
def World.TellsOf (w : World) (session : SessionObject) : Prop :=
  ∃ c ∈ w.stripe.sessions.rows, c.val.subscription.isSome = true ∧
    session = ⟨c.val.client_reference_id, c.val.subscription, c.val.customer⟩

instance (w : World) (session : SessionObject) : Decidable (w.TellsOf session) :=
  inferInstanceAs (Decidable (∃ c ∈ w.stripe.sessions.rows, _))

/-- What Stripe sends: a session that was paid, a deletion of what it has
canceled; its invoices may say anything. -/
def World.Sends (w : World) : Event → Prop
  | .checkout_session_completed session => w.TellsOf session
  | .customer_subscription_deleted s => ∀ id ∈ s.id, w.stripe.statusOf id = some .canceled
  | _ => True

instance (w : World) : ∀ e, Decidable (w.Sends e)
  | .checkout_session_completed session => inferInstanceAs (Decidable (w.TellsOf session))
  | .customer_subscription_deleted s =>
    inferInstanceAs (Decidable (∀ id ∈ s.id, w.stripe.statusOf id = some .canceled))
  | .invoice_payment_succeeded _ => isTrue trivial
  | .invoice_payment_failed _ => isTrue trivial
  | .other => isTrue trivial

/-- The user of a request is an account; an event is one that Stripe sends. -/
def Request.Valid (w : World) : Request → Prop
  | .subscribe user _ => user ∈ w.db.users.rows
  | .upgrade user _ => user ∈ w.db.users.rows
  | .cancel _ => True
  | .webhook event => w.Sends event

instance (w : World) : ∀ r : Request, Decidable (r.Valid w)
  | .subscribe user _ => inferInstanceAs (Decidable (user ∈ w.db.users.rows))
  | .upgrade user _ => inferInstanceAs (Decidable (user ∈ w.db.users.rows))
  | .cancel _ => isTrue trivial
  | .webhook event => inferInstanceAs (Decidable (w.Sends event))

/-- A Stripe subscription has an item. -/
def Label.Enabled (w : World) : Label → Prop
  | .serve request _ => request.Valid w
  | .tick _ => True
  | .pay session items => items ≠ [] ∧
      (w.stripe.sessions.byId session).map (fun c => c.val.subscription) = some none
  | .bill _ items _ _ => items ≠ []
  | .stop _ => True

instance (w : World) : ∀ l : Label, Decidable (l.Enabled w)
  | .serve request _ => inferInstanceAs (Decidable (request.Valid w))
  | .tick _ => isTrue trivial
  | .pay _ _ => inferInstanceAs (Decidable (_ ∧ _))
  | .bill _ _ _ _ => inferInstanceAs (Decidable (_ ≠ _))
  | .stop _ => isTrue trivial

def Label.next (user_repo : UserRepo) (w : World) : Label → World
  | .serve request none => ((request.prog user_repo).run w).2
  | .serve request (some n) => (request.prog user_repo).cut n w
  | .tick d => w.advance d
  | .pay session items => ((w.stripe.sessions.byId session).map (w.pay · items)).getD w
  | .bill id items canceled_at period_end => w.bill id items canceled_at period_end
  | .stop id => w.set_status id .canceled

/-- The system; `user_repo` is what its `SubscriptionService` was built with. -/
def billing (user_repo : UserRepo) : System World Label where
  enabled w l := l.Enabled w
  next w l := l.next user_repo w

instance (user_repo : UserRepo) (w : World) (l : Label) :
    Decidable ((billing user_repo).enabled w l) := inferInstanceAs (Decidable (l.Enabled w))

/-- A first state: any accounts and plans, and no subscription anywhere. -/
structure Initial (w : World) : Prop where
  subscriptions : w.db.subscriptions.rows = []
  payments : w.db.payments.rows = []
  sessions : w.stripe.sessions.rows = []
  stripe_subscriptions : w.stripe.subscriptions.rows = []

/-! ## A small world -/

namespace Sample

def ann : User where
  email := "ann@example.com"
  username := "ann"
  password := some "hash of secret"
  is_verified := true
  stripe_customer_id := some 7
  provider := .LOCAL

def pro : Plan where
  name := "Pro"
  code := "pro"
  price_cents := 1500
  billing_period := .MONTHLY
  stripe_price_id := some 0
  tier := .PRO

def vip : Plan where
  name := "Vip"
  code := "vip"
  price_cents := 4000
  billing_period := .MONTHLY
  stripe_price_id := some 1
  tier := .VIP

/-- One account, two plans, and Stripe's first customer. -/
def world : World where
  db := Db.start (Table.empty.push ann (by decide))
    ((Table.empty.push pro (by decide)).push vip (by decide))
  clock := fromtimestamp 1000

theorem world_initial : Initial world := ⟨rfl, rfl, rfl, rfl⟩

/-- What a paid session of the plan `pro` starts. -/
def sold_to_ann : StripeSubscription where
  customer := some 7
  metadata :=
    { plan_id := some (.ofUuid 0), user_id := some (.ofUuid 0),
      upgrade_from_subscription_id := none }
  items := [⟨900, 2000⟩]

/-- The event that tells of a paid session of the account. -/
def checkout (subscription : StripeId) : Label :=
  .serve (.webhook (.checkout_session_completed ⟨some (.ofUuid 0), some subscription, some 7⟩)) none

def invoice_line (subscription : StripeId) : InvoiceLine :=
  ⟨.val ⟨some ⟨some subscription⟩⟩⟩

def invoice (id subscription : StripeId) (reason : BillingReason) : Invoice where
  id := id
  billing_reason := reason
  amount_paid := 1500
  currency := some "usd"
  lines := .val ⟨some [invoice_line subscription]⟩

/-- The event that an invoice of a subscription was paid. -/
def paid (id subscription : StripeId) : Label :=
  .serve (.webhook (.invoice_payment_succeeded (invoice id subscription .subscription_create))) none

def subscribe (code : String) : Label := .serve (.subscribe ⟨0, ann⟩ code) none

/-- Ann has paid, and the checkout event is handled. -/
def begun : World := (billing .user).exec world [subscribe "pro", .pay 0 [⟨900, 2000⟩], checkout 0]

end Sample

end saas
