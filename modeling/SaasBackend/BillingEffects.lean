-- The same acts with all that they read and write: customers, sessions,
-- payments and emails too, and for each the request or event that it comes
-- from. Invariants that the ten changes are too coarse for go by these cases.
import SaasBackend.BillingChanges

open relational async

namespace saas

/-! ## What a request sells -/

namespace World

/-- The user, the plan and the subscription to replace, of the checkout that a
request comes to. -/
def sells (w : World) : Label → Option (Row User × Row Plan × Option StripeId)
  | .serve (.subscribe user code) _ =>
    match w.access_rows user.id w.clock, w.plan_of code with
    | [], some plan => some (user, plan, none)
    | _, _ => none
  | .serve (.upgrade user code) _ =>
    match w.access_rows user.id w.clock, w.plan_of code with
    | [sub], some plan =>
      if plan.id = sub.val.plan_id ∨ sub.val.provider ≠ .STRIPE then none
      else some (user, plan, sub.val.provider_subscription_id)
    | _, _ => none
  | _ => none

/-- A new customer at Stripe. -/
def new_customer (w : World) (user : Row User) : World :=
  { w with
    stripe.customers :=
      w.stripe.customers.push ⟨user.val.email, user.id⟩ (fits_of_no_keys rfl) }

end World

/-- The checkout of a plan for a customer. -/
def session_for (user : UUID) (plan : Row Plan) (old : Option StripeId)
    (customer price : StripeId) : CheckoutSession where
  customer := some customer
  price := price
  client_reference_id := some (.ofUuid user)
  subscription_metadata :=
    { plan_id := some (.ofUuid plan.id), user_id := some (.ofUuid user),
      upgrade_from_subscription_id := old }

/-- The row that `record_invoice_payment` stores. -/
def invoice_payment (invoice : Invoice) (r : Row Subscription) : Payment where
  user_id := r.val.user_id
  subscription_id := some r.id
  provider := .STRIPE
  provider_invoice_id := invoice.id
  amount_cents := invoice.amount_paid
  currency := StripeGateway.upper ((invoice.currency.filter (· ≠ "")).getD "usd")
  status := .SUCCEEDED

/-! ## The effects -/

/-- Why the row of a Stripe subscription is canceled, and the end that it gets. -/
inductive Cancels (l : Label) (w₀ w : World) (id : StripeId) (r : Row Subscription) :
    Option Time → Prop
  | request {n : Option Nat} {S : Row StripeSubscription}
      (hl : l = .serve (.cancel r.val.user_id) n) (hw : w = w₀.set_status id .cancel_at_period_end)
      (hr : w₀.row_of id = some r) (hone : w₀.access_rows r.val.user_id w₀.clock = [r])
      (hS : w₀.stripe.subscriptions.byId id = some S) :
      Cancels l w₀ w id r
        ((truthy S.val.current_period_end).map fromtimestamp <|> r.val.current_period_end)
  | deletion {d : DeletedSubscription} (hl : l.event = some (.customer_subscription_deleted d))
      (hw : w = w₀) (hid : d.id = some id) : Cancels l w₀ w id r (some w₀.clock)
  | upgrade {session : SessionObject} {new : StripeId}
      (hl : l.event = some (.checkout_session_completed session))
      (hw : w = w₀.set_status id .canceled)
      (hsubj : w₀.subject (.checkout_session_completed session) =
        some (new, r.val.user_id, some id))
      (hlive : w₀.stripe.statusOf id ≠ some .canceled) : Cancels l w₀ w id r (some w₀.clock)

open SubscriptionRepoistory in
/-- One committed act in state `w`, on the way of the label `l` from `w₀`. -/
inductive Effect (l : Label) (w₀ w : World) : World → Prop
  | customer {user : Row User} {plan : Row Plan} {old : Option StripeId} (hw : w = w₀)
      (hl : w₀.sells l = some (user, plan, old)) (hu : user ∈ w.db.users.rows)
      (hnone : user.val.stripe_customer_id = none) : Effect l w₀ w (w.new_customer user)
  | store_customer {user : Row User} {plan : Row Plan} {old : Option StripeId}
      (hw : w = w₀.new_customer user) (hl : w₀.sells l = some (user, plan, old))
      (hu : user ∈ w.db.users.rows) (hnone : user.val.stripe_customer_id = none) :
      Effect l w₀ w (w.update_user user.id (.stripe_customer w₀.stripe.customers.next))
  | open_session {user u : Row User} {plan : Row Plan} {old : Option StripeId}
      {customer price : StripeId} (hl : w₀.sells l = some (user, plan, old))
      (hu : u ∈ w.db.users.rows) (hid : u.id = user.id)
      (hcustomer : u.val.stripe_customer_id = some customer)
      (hprice : plan.val.stripe_price_id = some price)
      (hn : w.Names user.id (session_for user.id plan old customer price).subscription_metadata)
      (hwho : w₀.Touches l user.id) :
      Effect l w₀ w (w.open_session (session_for user.id plan old customer price))
  | status {id : StripeId} {u : UUID} {st : StripeStatus} (h : st ≠ .live)
      (howner : w.owner id = some u) (hwho : w₀.Touches l u) : Effect l w₀ w (w.set_status id st)
  | period {invoice : Invoice} {id : StripeId} {r : Row Subscription}
      {S : Row StripeSubscription} {item : SubscriptionItem} {items : List SubscriptionItem}
      (hl : l.event = some (.invoice_payment_succeeded invoice))
      (hid : invoice.subscription = some id) (hw : w = w₀) (hr : w.row_of id = some r)
      (hS : w.stripe.subscriptions.byId id = some S) (hi : S.val.items = item :: items)
      (hwho : w₀.Touches l r.val.user_id) :
      Effect l w₀ w (w.update_subscription r.id
        (.period (fromtimestamp item.current_period_start) (fromtimestamp item.current_period_end)))
  | cancel {id : StripeId} {r : Row Subscription} {stop : Option Time} (at_ : Time)
      (hr : w.row_of id = some r) (hst : w.stripe.statusOf id ≠ some .live)
      (hwhy : Cancels l w₀ w id r stop) (hwho : w₀.Touches l r.val.user_id) :
      Effect l w₀ w (w.update_subscription r.id (.cancel at_ stop))
  | past_due {invoice : Invoice} {id : StripeId} {r : Row Subscription}
      (hl : l.event = some (.invoice_payment_failed invoice))
      (hid : invoice.subscription = some id) (hr : w.row_of id = some r)
      (hc : r.val.status ≠ .CANCELED) (hwho : w₀.Touches l r.val.user_id) :
      Effect l w₀ w (w.update_subscription r.id (.status .PAST_DUE))
  | create {e : Event} {id : StripeId} {u p : UUID} {c up : Option StripeId}
      {st : SubscriptionStatus} {S : Row StripeSubscription} {old : Option (Row Subscription)}
      {r : Row Subscription} {db : Db} (hl : l.event = some e)
      (hsubj : w₀.subject e = some (id, u, up)) (hst : st = .ACTIVE ∨ st = .PAST_DUE)
      (hnone : w.row_of id = none) (hS : w.stripe.subscriptions.byId id = some S)
      (hn : w.Names u S.val.metadata) (hp : S.val.metadata.plan_id = some (.ofUuid p))
      (hold : scalar_one_or_none (w.access_rows u w.clock) = .ok old)
      (hdem : ∀ o, old = some o → w₀.demoted e = some o ∧
        ∀ i, o.val.provider_subscription_id = some i → w.stripe.statusOf i = w₀.stripe.statusOf i)
      (hdb : (w.demote old).db.insert_subscription (new_row u p (some id) c st w.clock) =
        .ok (r, db))
      (hwho : w₀.Touches l u) :
      Effect l w₀ w { w.demote old with db := db }
  | record {invoice : Invoice} {id : StripeId} {sub : Row Subscription} {r : Row Payment} {db : Db}
      (hl : l.event = some (.invoice_payment_succeeded invoice))
      (hid : invoice.subscription = some id) (hr : w.row_of id = some sub)
      (hdb : w.db.insert_payment (invoice_payment invoice sub) = .ok (r, db))
      (hwho : w₀.Touches l sub.val.user_id) : Effect l w₀ w { w with db := db }
  | enqueue (t : Task) : Effect l w₀ w (w.enqueue t)
  | tick (d : Nat) : Effect l w₀ w (w.advance d)
  | pay {c : Row CheckoutSession} {items : List SubscriptionItem} (hl : l = .pay c.id items)
      (hc : c ∈ w.stripe.sessions.rows) (hi : items ≠ []) : Effect l w₀ w (w.pay c items)
  | bill {id : StripeId} {items : List SubscriptionItem} {canceled_at period_end : Option Nat}
      (hl : l = .bill id items canceled_at period_end) (hw : w = w₀) (hi : items ≠ []) :
      Effect l w₀ w (w.bill id items canceled_at period_end)
  | stop {id : StripeId} (hl : l = .stop id) (hw : w = w₀) :
      Effect l w₀ w (w.set_status id .canceled)

/-- The states on the way of the label `l` from `w₀`. -/
def Effects (l : Label) (w₀ w : World) : Prop := Relation.ReflTransGen (Effect l w₀) w₀ w

/-! ## An effect is a change -/

theorem Db.insert_payment_ok {db db' : Db} {p : Payment} {r : Row Payment}
    (h : db.insert_payment p = .ok (r, db')) :
    r = db.payments.newRow p ∧ db.payments.Fits p ∧
      db'.payments.rows = db.payments.rows ++ [r] ∧
      db'.subscriptions = db.subscriptions ∧ db'.users = db.users ∧ db'.plans = db.plans := by
  obtain ⟨_, hf, rfl, rfl⟩ := insert_payment_eq_ok h
  exact ⟨rfl, hf.1, rfl, rfl, rfl, rfl⟩

theorem World.quiet_update_user (w : World) (i : UUID) (p : UserPatch) :
    w.Quiet (w.update_user i p) :=
  ⟨rfl, rfl, fun _ h => h.update i p.apply p.keys, rfl, rfl, rfl⟩

theorem World.quiet_insert_payment {w : World} {p : Payment} {r : Row Payment} {db : Db}
    (h : w.db.insert_payment p = .ok (r, db)) : w.Quiet { w with db := db } := by
  obtain ⟨_, _, _, hs, hu, hp⟩ := Db.insert_payment_ok h
  exact ⟨hs, hp, fun i hi => by simpa only [hu] using hi, rfl, rfl, rfl⟩

variable {l : Label} {w₀ w w' : World}

theorem Cancels.stop {id : StripeId} {r : Row Subscription} {stop : Option Time}
    (h : Cancels l w₀ w id r stop) :
    stop = some w.clock ∨ w.access_rows r.val.user_id w.clock = [r] := by
  cases h with
  | request hl hw hr hone hS =>
    subst hw
    exact Or.inr hone
  | deletion hl hw hid =>
    subst hw
    exact Or.inl rfl
  | upgrade hl hw hsubj hlive =>
    subst hw
    exact Or.inl rfl

theorem Effect.change (h : Effect l w₀ w w') : Change l w₀ w w' := by
  cases h with
  | customer => exact .quiet ⟨rfl, rfl, fun _ h => h, rfl, rfl, rfl⟩
  | store_customer => exact .quiet (w.quiet_update_user _ _)
  | open_session hl hu hid hcustomer hprice hn hwho => exact .open_session rfl hn rfl
  | status h howner hwho =>
    refine .status _ h fun v hv => ?_
    rw [howner, Option.some.injEq] at hv
    rwa [← hv]
  | period hl hid hw hr hS hi hwho => exact .period hl hid hw hr hS hi hwho
  | cancel at_ hr hst hwhy hwho => exact .cancel at_ hr hst hwhy.stop hwho
  | past_due hl hid hr hc hwho => exact .past_due (World.row_of_eq_some.mp hr).1 hc hwho
  | create hl hsubj hst hnone hS hn hp hold hdem hdb hwho =>
    exact .create hl hst hnone hS hn hold hdem hdb hwho
  | record hl hid hr hdb hwho => exact .quiet (World.quiet_insert_payment hdb)
  | enqueue t => exact .quiet ⟨rfl, rfl, fun _ h => h, rfl, rfl, rfl⟩
  | tick d => exact .tick d
  | pay hl hc hi => exact .pay hc hi
  | @bill id items ca pe hl hw hi =>
    subst hl hw
    exact .bill id ca pe hi fun _ hu => hu
  | @stop id hl hw =>
    subst hl hw
    exact .status id (by simp) fun _ hu => hu

/-- What an effect does to a subscription at Stripe: another status at most, or
the period that Stripe itself moves. -/
theorem Effect.at_stripe {id : StripeId} {S : Row StripeSubscription} (h : Effect l w₀ w w')
    (hS : w.stripe.subscriptions.byId id = some S) :
    ∃ S', w'.stripe.subscriptions.byId id = some S' ∧
      ((∃ st, S'.val = Stripe.setStatus st S.val) ∨ ∃ items canceled_at period_end,
        l = .bill id items canceled_at period_end ∧
        S'.val = World.set_period items canceled_at period_end S.val) := by
  have hsame : ∃ st, S.val = Stripe.setStatus st S.val := ⟨S.val.status, rfl⟩
  have hstatus : ∀ i st, ∃ S', (w.set_status i st).stripe.subscriptions.byId id = some S' ∧
      ∃ st', S'.val = Stripe.setStatus st' S.val := by
    intro i st
    have hb := Stripe.byId_set_status w.stripe i id st
    rw [hS, Option.map_some] at hb
    refine ⟨_, hb, ?_⟩
    unfold Table.updateRow
    split
    · exact ⟨st, rfl⟩
    · exact hsame
  cases h with
  | @status i u st =>
    obtain ⟨S', hS', h'⟩ := hstatus i st
    exact ⟨S', hS', Or.inl h'⟩
  | @stop i =>
    obtain ⟨S', hS', h'⟩ := hstatus i .canceled
    exact ⟨S', hS', Or.inl h'⟩
  | pay => exact ⟨S, Table.byId_push_of_some hS _ (fits_of_no_keys rfl), Or.inl hsame⟩
  | @bill i items ca pe hbill _ _ =>
    have hb := Table.byId_update (t := w.stripe.subscriptions) (j := i)
      (f := World.set_period items ca pe) (fun _ => rfl) id
    rw [hS, Option.map_some] at hb
    have hid : S.id = id := (Table.byId_eq_some.mp hS).2
    by_cases hne : S.id = i
    · rw [Table.updateRow_of_eq hne] at hb
      refine ⟨_, hb, Or.inr ⟨items, ca, pe, ?_, rfl⟩⟩
      rw [hbill, ← hne, hid]
    · rw [Table.updateRow_of_ne hne] at hb
      exact ⟨S, hb, Or.inl hsame⟩
  | @create _ _ _ _ _ _ _ _ old _ _ _ _ _ _ _ _ _ _ _ _ _ =>
    cases old <;> exact ⟨S, hS, Or.inl hsame⟩
  | customer => exact ⟨S, hS, Or.inl hsame⟩
  | store_customer => exact ⟨S, hS, Or.inl hsame⟩
  | open_session => exact ⟨S, hS, Or.inl hsame⟩
  | period => exact ⟨S, hS, Or.inl hsame⟩
  | cancel => exact ⟨S, hS, Or.inl hsame⟩
  | past_due => exact ⟨S, hS, Or.inl hsame⟩
  | record => exact ⟨S, hS, Or.inl hsame⟩
  | enqueue => exact ⟨S, hS, Or.inl hsame⟩
  | tick => exact ⟨S, hS, Or.inl hsame⟩

theorem Effects.refl (l : Label) (w : World) : Effects l w w := Relation.ReflTransGen.refl

theorem Effects.snoc (h : Effects l w₀ w) (he : Effect l w₀ w w') : Effects l w₀ w' :=
  Relation.ReflTransGen.tail h he

theorem Effects.steps (h : Effects l w₀ w) : Steps l w₀ w := by
  induction h with
  | refl => exact Relation.ReflTransGen.refl
  | tail _ he ih => exact ih.tail he.change

theorem Effects.grows (h : Effects l w₀ w) : w₀.Grows w := h.steps.grows

theorem Effects.good (h : Effects l w₀ w) (hg : Good w₀) : Good w := h.steps.good hg

end saas
