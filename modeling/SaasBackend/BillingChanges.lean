-- All that one committed act of the billing service can do to subscriptions,
-- here and in Stripe, in ten cases. Every later invariant goes by these cases
-- and never unfolds a handler again.
import SaasBackend.BillingSystem

open relational async

namespace saas

/-! ## What only grows -/

/-- What no step takes away: accounts, plans, the identity of a row, the
metadata of a Stripe subscription, and a cancellation in Stripe. -/
structure World.Grows (w w' : World) : Prop where
  clock : w.clock ≤ w'.clock
  users : ∀ i, w.db.users.Has i → w'.db.users.Has i
  plans : ∀ i, w.db.plans.Has i → w'.db.plans.Has i
  rows : ∀ r ∈ w.db.subscriptions.rows, ∃ r' ∈ w'.db.subscriptions.rows, r'.id = r.id ∧
    r'.val.user_id = r.val.user_id ∧ r'.val.plan_id = r.val.plan_id ∧
    r'.val.provider = r.val.provider ∧
    r'.val.provider_subscription_id = r.val.provider_subscription_id
  stripe : ∀ id S, w.stripe.subscriptions.byId id = some S →
    ∃ S', w'.stripe.subscriptions.byId id = some S' ∧ S'.val.metadata = S.val.metadata ∧
      (S'.val.status = .live → S.val.status = .live)

namespace World.Grows

variable {w w' w'' : World}

theorem refl (w : World) : w.Grows w where
  clock := Nat.le_refl _
  users _ h := h
  plans _ h := h
  rows r hr := ⟨r, hr, rfl, rfl, rfl, rfl, rfl⟩
  stripe _ S hS := ⟨S, hS, rfl, id⟩

theorem trans (h : w.Grows w') (h' : w'.Grows w'') : w.Grows w'' where
  clock := Nat.le_trans h.clock h'.clock
  users i hi := h'.users i (h.users i hi)
  plans i hi := h'.plans i (h.plans i hi)
  rows r hr := by
    obtain ⟨r1, hr1, hid, hu, hp, hpr, hps⟩ := h.rows r hr
    obtain ⟨r2, hr2, hid', hu', hp', hpr', hps'⟩ := h'.rows r1 hr1
    exact ⟨r2, hr2, hid'.trans hid, hu'.trans hu, hp'.trans hp, hpr'.trans hpr, hps'.trans hps⟩
  stripe id S hS := by
    obtain ⟨S1, hS1, hm, hl⟩ := h.stripe id S hS
    obtain ⟨S2, hS2, hm', hl'⟩ := h'.stripe id S1 hS1
    exact ⟨S2, hS2, hm'.trans hm, fun hlive => hl (hl' hlive)⟩

/-- The row of a Stripe subscription stays its row. -/
theorem row_of (h : w.Grows w') {id : StripeId} {r : Row Subscription}
    (hr : w.row_of id = some r) : ∃ r', w'.row_of id = some r' ∧ r'.id = r.id ∧
      r'.val.user_id = r.val.user_id ∧ r'.val.plan_id = r.val.plan_id := by
  obtain ⟨hmem, hp, hps⟩ := World.row_of_eq_some.mp hr
  obtain ⟨r', hr', hid, hu, hpl, hp', hps'⟩ := h.rows r hmem
  exact ⟨r', World.row_of_eq_some.mpr ⟨hr', hp'.trans hp, hps'.trans hps⟩, hid, hu, hpl⟩

/-- What is not live in Stripe does not come back to life. -/
theorem not_live (h : w.Grows w') {id : StripeId} {S : Row StripeSubscription}
    (hS : w.stripe.subscriptions.byId id = some S) (hn : w.stripe.statusOf id ≠ some .live) :
    w'.stripe.statusOf id ≠ some .live := by
  obtain ⟨S', hS', _, hl⟩ := h.stripe id S hS
  simp only [Stripe.statusOf, hS, hS', Option.map_some, ne_eq, Option.some.injEq] at *
  exact fun hlive => hn (hl hlive)

end World.Grows

/-! ## What metadata name -/

/-- The metadata name an account and a plan, and the subscription that they
upgrade from is one of the same account. -/
structure World.Names (w : World) (u : UUID) (m : Metadata) : Prop where
  user : m.user_id = some (.ofUuid u)
  has_user : w.db.users.Has u
  plan : ∃ p, m.plan_id = some (.ofUuid p) ∧ w.db.plans.Has p
  upgrade : ∀ old, m.upgrade_from_subscription_id = some old →
    ∃ r, w.row_of old = some r ∧ r.val.user_id = u

theorem World.Names.grows {w w' : World} {u : UUID} {m : Metadata} (h : w.Names u m)
    (hg : w.Grows w') : w'.Names u m where
  user := h.user
  has_user := hg.users u h.has_user
  plan := by
    obtain ⟨p, hp, hh⟩ := h.plan
    exact ⟨p, hp, hg.plans p hh⟩
  upgrade old ho := by
    obtain ⟨r, hr, hu⟩ := h.upgrade old ho
    obtain ⟨r', hr', _, hu', _⟩ := hg.row_of hr
    exact ⟨r', hr', hu'.trans hu⟩

/-- The local rows, the sessions and the Stripe subscriptions fit together. -/
structure Good (w : World) : Prop where
  /-- A local row is of a Stripe subscription whose metadata name its user. -/
  rows : ∀ r ∈ w.db.subscriptions.rows, r.val.provider = .STRIPE ∧
    ∃ id S, r.val.provider_subscription_id = some id ∧
      w.stripe.subscriptions.byId id = some S ∧ w.Names r.val.user_id S.val.metadata
  sessions : ∀ c ∈ w.stripe.sessions.rows, ∃ u,
    c.val.client_reference_id = some (.ofUuid u) ∧ w.Names u c.val.subscription_metadata
  paid : ∀ c ∈ w.stripe.sessions.rows, ∀ id, c.val.subscription = some id →
    ∃ S, w.stripe.subscriptions.byId id = some S ∧
      S.val.metadata = c.val.subscription_metadata
  stripe : ∀ S ∈ w.stripe.subscriptions.rows, S.val.items ≠ [] ∧ ∃ u, w.Names u S.val.metadata

theorem Initial.good {w : World} (h : Initial w) : Good w where
  rows r hr := by simp [h.subscriptions] at hr
  sessions c hc := by simp [h.sessions] at hc
  paid c hc := by simp [h.sessions] at hc
  stripe S hS := by simp [h.stripe_subscriptions] at hS

/-- The Stripe subscription of a local row. -/
theorem Good.of_row {w : World} (h : Good w) {id : StripeId} {r : Row Subscription}
    (hr : w.row_of id = some r) : ∃ S, w.stripe.subscriptions.byId id = some S ∧
      S.val.items ≠ [] ∧ w.Names r.val.user_id S.val.metadata := by
  obtain ⟨hmem, _, hps⟩ := World.row_of_eq_some.mp hr
  obtain ⟨_, id', S, hps', hS, hn⟩ := h.rows r hmem
  rw [hps, Option.some.injEq] at hps'
  subst hps'
  exact ⟨S, hS, (h.stripe S (Table.byId_eq_some.mp hS).1).1, hn⟩

theorem Good.row_of {w : World} (h : Good w) {r : Row Subscription}
    (hr : r ∈ w.db.subscriptions.rows) :
    ∃ id, r.val.provider_subscription_id = some id ∧ w.row_of id = some r := by
  obtain ⟨hp, id, _, hps, _⟩ := h.rows r hr
  exact ⟨id, hps, World.row_of_eq_some.mpr ⟨hr, hp, hps⟩⟩

/-! ## What events are about -/

/-- The subscription that the first line of an invoice names. -/
def Invoice.subscription (invoice : Invoice) : Option StripeId :=
  match invoice.line_items with
  | .ok (first_line :: _) => match first_line.stripe_subscription_id with
    | .ok id => id
    | .error _ => none
  | _ => none

/-- The Stripe subscription that an event is about. -/
def Event.subscription : Event → Option StripeId
  | .checkout_session_completed session => session.subscription
  | .invoice_payment_succeeded invoice => invoice.subscription
  | .invoice_payment_failed invoice => invoice.subscription
  | .customer_subscription_deleted s => s.id
  | .other => none

/-- The account that the metadata of a Stripe subscription name. -/
def World.owner (w : World) (id : StripeId) : Option UUID :=
  (w.stripe.subscriptions.byId id).bind fun S => match S.val.metadata.user_id with
    | some (.ofUuid u) => some u
    | _ => none

theorem World.owner_eq {w : World} {id : StripeId} {S : Row StripeSubscription} {u : UUID}
    (hS : w.stripe.subscriptions.byId id = some S)
    (hu : S.val.metadata.user_id = some (.ofUuid u)) :
    w.owner id = some u := by
  simp [owner, hS, hu]

/-- Ownership goes by the metadata, which stay. -/
theorem World.Grows.owner {w w' : World} (h : w.Grows w') {id : StripeId} {u : UUID}
    (hu : w.owner id = some u) : w'.owner id = some u := by
  unfold World.owner at *
  rcases hS : w.stripe.subscriptions.byId id with _ | S
  · simp [hS] at hu
  · obtain ⟨S', hS', hm, _⟩ := h.stripe id S hS
    simpa [hS, hS', hm] using hu

/-- The owner of a row is the owner of its Stripe subscription. -/
theorem Good.owner {w : World} (hg : Good w) {id : StripeId} {r : Row Subscription}
    (hr : w.row_of id = some r) : w.owner id = some r.val.user_id := by
  obtain ⟨S, hS, _, hn⟩ := hg.of_row hr
  exact World.owner_eq hS hn.user

/-- The rows with access that a new subscription of `u` meets: `upgraded` has
none any more. -/
def World.others (w : World) (u : UUID) (upgraded : Option StripeId) : List (Row Subscription) :=
  (w.access_rows u w.clock).filter
    (fun r => !decide (r.val.provider_subscription_id = upgraded))

/-- The Stripe subscription, user and upgraded subscription for which an event
makes a row, unless there is one. -/
def World.subject (w : World) : Event → Option (StripeId × UUID × Option StripeId)
  | .checkout_session_completed session =>
    match session.subscription, session.client_reference_id with
    | some id, some (.ofUuid u) => (w.stripe.subscriptions.byId id).map
        fun S => (id, u, S.val.metadata.upgrade_from_subscription_id)
    | _, _ => none
  | .invoice_payment_succeeded invoice =>
    match invoice.subscription with
    | some id => (w.stripe.subscriptions.byId id).bind fun S =>
      match S.val.metadata.user_id with
      | some (.ofUuid u) => some (id, u, none)
      | _ => none
    | none => none
  | _ => none

/-- The row that the handling of an event demotes: the event makes a row, the
deletion of the upgraded subscription goes through, and one other row of the
user has access. -/
def World.demoted (w : World) (event : Event) : Option (Row Subscription) :=
  match w.subject event with
  | some (id, u, upgraded) =>
    if w.row_of id = none ∧ (∀ old ∈ upgraded, w.stripe.statusOf old ≠ some .canceled) then
      match w.others u upgraded with
      | [o] => some o
      | _ => none
    else none
  | none => none

/-- The event that a label delivers. -/
def Label.event : Label → Option Event
  | .serve (.webhook event) _ => some event
  | _ => none

/-- Only a delivery brings an event. -/
theorem Label.serves_event {l : Label} {e : Event} (h : l.event = some e) :
    ∃ dies_after, l = .serve (.webhook e) dies_after := by
  unfold Label.event at h
  split at h
  · cases h
    exact ⟨_, rfl⟩
  · cases h

/-- The label is a request of the account, or about a subscription of it. -/
def World.Touches (w : World) (l : Label) (u : UUID) : Prop :=
  match l with
  | .serve (.subscribe user _) _ => user.id = u
  | .serve (.upgrade user _) _ => user.id = u
  | .serve (.cancel v) _ => v = u
  | .serve (.webhook e) _ => e.subscription.bind w.owner = some u
  | .bill id _ _ _ => w.owner id = some u
  | .stop id => w.owner id = some u
  | .tick _ => False
  | .pay _ _ => False

instance (w : World) (u : UUID) : ∀ l, Decidable (w.Touches l u)
  | .serve (.subscribe user _) _ => inferInstanceAs (Decidable (user.id = u))
  | .serve (.upgrade user _) _ => inferInstanceAs (Decidable (user.id = u))
  | .serve (.cancel v) _ => inferInstanceAs (Decidable (v = u))
  | .serve (.webhook e) _ => inferInstanceAs (Decidable (e.subscription.bind w.owner = some u))
  | .bill id _ _ _ => inferInstanceAs (Decidable (w.owner id = some u))
  | .stop id => inferInstanceAs (Decidable (w.owner id = some u))
  | .tick _ => isFalse id
  | .pay _ _ => isFalse id

theorem World.touches_of_event {w : World} {l : Label} {e : Event} {id : StripeId} {u : UUID}
    (hl : l.event = some e) (hid : e.subscription = some id) (hu : w.owner id = some u) :
    w.Touches l u := by
  obtain ⟨_, rfl⟩ := Label.serves_event hl
  simp [Touches, hid, hu]

/-- The row that a label renews, and the end of its new period: the label
delivers a paid invoice of a subscription that has a row. -/
def World.renewal (w : World) (l : Label) : Option (Row Subscription × Time) :=
  match l.event with
  | some (.invoice_payment_succeeded invoice) => do
    let id ← invoice.subscription
    let r ← w.row_of id
    let S ← w.stripe.subscriptions.byId id
    let item ← S.val.items.head?
    pure (r, fromtimestamp item.current_period_end)
  | _ => none

/-! ## The changes -/

/-- No subscription changes, here or in Stripe. -/
structure World.Quiet (w w' : World) : Prop where
  subscriptions : w'.db.subscriptions = w.db.subscriptions
  plans : w'.db.plans = w.db.plans
  users : ∀ i, w.db.users.Has i → w'.db.users.Has i
  stripe : w'.stripe.subscriptions = w.stripe.subscriptions
  sessions : w'.stripe.sessions = w.stripe.sessions
  clock : w'.clock = w.clock

theorem World.Quiet.refl (w : World) : w.Quiet w := ⟨rfl, rfl, fun _ h => h, rfl, rfl, rfl⟩

theorem World.Quiet.trans {w w' w'' : World} (h : w.Quiet w') (h' : w'.Quiet w'') :
    w.Quiet w'' where
  subscriptions := h'.subscriptions.trans h.subscriptions
  plans := h'.plans.trans h.plans
  users i hi := h'.users i (h.users i hi)
  stripe := h'.stripe.trans h.stripe
  sessions := h'.sessions.trans h.sessions
  clock := h'.clock.trans h.clock

open SubscriptionRepoistory in
/-- One committed act in state `w`, on the way of the label `l` from `w₀`. -/
inductive Change (l : Label) (w₀ w : World) : World → Prop
  | quiet {w' : World} (h : w.Quiet w') : Change l w₀ w w'
  | open_session {c : CheckoutSession} {u : UUID}
      (href : c.client_reference_id = some (.ofUuid u))
      (hn : w.Names u c.subscription_metadata) (hs : c.subscription = none) :
      Change l w₀ w (w.open_session c)
  | status {st : StripeStatus} (id : StripeId) (h : st ≠ .live)
      (hwho : ∀ u, w.owner id = some u → w₀.Touches l u) :
      Change l w₀ w (w.set_status id st)
  | period {invoice : Invoice} {id : StripeId} {r : Row Subscription}
      {S : Row StripeSubscription} {item : SubscriptionItem} {items : List SubscriptionItem}
      (hl : l.event = some (.invoice_payment_succeeded invoice))
      (hid : invoice.subscription = some id) (hw : w = w₀) (hr : w.row_of id = some r)
      (hS : w.stripe.subscriptions.byId id = some S) (hi : S.val.items = item :: items)
      (hwho : w₀.Touches l r.val.user_id) :
      Change l w₀ w (w.update_subscription r.id
        (.period (fromtimestamp item.current_period_start) (fromtimestamp item.current_period_end)))
  | cancel {id : StripeId} {r : Row Subscription} {stop : Option Time} (at_ : Time)
      (hr : w.row_of id = some r) (hst : w.stripe.statusOf id ≠ some .live)
      (hstop : stop = some w.clock ∨ w.access_rows r.val.user_id w.clock = [r])
      (hwho : w₀.Touches l r.val.user_id) :
      Change l w₀ w (w.update_subscription r.id (.cancel at_ stop))
  | past_due {r : Row Subscription} (hr : r ∈ w.db.subscriptions.rows)
      (hc : r.val.status ≠ .CANCELED) (hwho : w₀.Touches l r.val.user_id) :
      Change l w₀ w (w.update_subscription r.id (.status .PAST_DUE))
  | create {e : Event} {id : StripeId} {u p : UUID} {c : Option StripeId}
      {st : SubscriptionStatus} {S : Row StripeSubscription} {old : Option (Row Subscription)}
      {r : Row Subscription} {db : Db} (hl : l.event = some e)
      (hst : st = .ACTIVE ∨ st = .PAST_DUE) (hnone : w.row_of id = none)
      (hS : w.stripe.subscriptions.byId id = some S) (hn : w.Names u S.val.metadata)
      (hold : scalar_one_or_none (w.access_rows u w.clock) = .ok old)
      (hdem : ∀ o, old = some o → w₀.demoted e = some o ∧
        ∀ i, o.val.provider_subscription_id = some i → w.stripe.statusOf i = w₀.stripe.statusOf i)
      (hdb : (w.demote old).db.insert_subscription (new_row u p (some id) c st w.clock) =
        .ok (r, db))
      (hwho : w₀.Touches l u) :
      Change l w₀ w { w.demote old with db := db }
  | tick (d : Nat) : Change l w₀ w (w.advance d)
  | pay {c : Row CheckoutSession} {items : List SubscriptionItem}
      (hc : c ∈ w.stripe.sessions.rows) (hi : items ≠ []) : Change l w₀ w (w.pay c items)
  | bill {items : List SubscriptionItem} (id : StripeId) (canceled_at period_end : Option Nat)
      (hi : items ≠ []) (hwho : ∀ u, w.owner id = some u → w₀.Touches l u) :
      Change l w₀ w (w.bill id items canceled_at period_end)

/-- The states on the way of the label `l` from `w₀`. -/
def Steps (l : Label) (w₀ w : World) : Prop := Relation.ReflTransGen (Change l w₀) w₀ w

theorem World.renewal_eq {l : Label} {w : World} {invoice : Invoice} {id : StripeId}
    {r : Row Subscription} {S : Row StripeSubscription} {item : SubscriptionItem}
    {items : List SubscriptionItem} (hl : l.event = some (.invoice_payment_succeeded invoice))
    (hid : invoice.subscription = some id) (hr : w.row_of id = some r)
    (hS : w.stripe.subscriptions.byId id = some S) (hi : S.val.items = item :: items) :
    w.renewal l = some (r, fromtimestamp item.current_period_end) := by
  simp [World.renewal, hl, hid, hr, hS, hi]

/-! ## Every change only grows -/

theorem World.Quiet.grows {w w' : World} (h : w.Quiet w') : w.Grows w' where
  clock := Nat.le_of_eq h.clock.symm
  users := h.users
  plans i hi := by rwa [h.plans]
  rows r hr := ⟨r, by rwa [h.subscriptions], rfl, rfl, rfl, rfl, rfl⟩
  stripe id S hS := ⟨S, by rwa [h.stripe], rfl, fun h => h⟩

namespace World

theorem grows_update_subscription (w : World) (i : UUID) (p : SubscriptionPatch) :
    w.Grows (w.update_subscription i p) where
  clock := Nat.le_refl _
  users _ h := h
  plans _ h := h
  rows r hr := by
    by_cases hi : r.id = i
    · exact ⟨⟨r.id, p.apply r.val⟩, mem_update_subscription.mpr (Or.inl ⟨r, hr, hi, rfl⟩), rfl,
        p.user_id _, p.plan_id _, p.provider _, p.provider_subscription_id _⟩
    · exact ⟨r, mem_update_subscription.mpr (Or.inr ⟨hr, hi⟩), rfl, rfl, rfl, rfl, rfl⟩
  stripe id S hS := ⟨S, hS, rfl, fun h => h⟩

theorem grows_demote (w : World) (old : Option (Row Subscription)) : w.Grows (w.demote old) := by
  cases old with
  | none => exact Grows.refl w
  | some o => exact grows_update_subscription w o.id .demote

theorem grows_insert {w : World} {s : Subscription} {r : Row Subscription} {db : Db}
    (h : w.db.insert_subscription s = .ok (r, db)) : w.Grows { w with db := db } := by
  obtain ⟨_, _, hrows, _, hu, hp, _⟩ := Db.insert_subscription_ok h
  refine ⟨Nat.le_refl _, fun i hi => ?_, fun i hi => ?_, fun r' hr' => ?_,
    fun id S hS => ⟨S, hS, rfl, fun h => h⟩⟩
  · simpa only [hu] using hi
  · simpa only [hp] using hi
  · refine ⟨r', ?_, rfl, rfl, rfl, rfl, rfl⟩
    simp only [hrows]
    exact List.mem_append_left _ hr'

/-- A step at Stripe that keeps the metadata and brings nothing back to life. -/
theorem grows_stripe {w : World} {i : StripeId} {f : StripeSubscription → StripeSubscription}
    {s : Stripe} (hs : ∀ id, s.subscriptions.byId id =
      (w.stripe.subscriptions.byId id).map (Table.updateRow i f))
    (hm : ∀ S, (f S).metadata = S.metadata) (hl : ∀ S, (f S).status = .live → S.status = .live) :
    w.Grows { w with stripe := s } where
  clock := Nat.le_refl _
  users _ h := h
  plans _ h := h
  rows r hr := ⟨r, hr, rfl, rfl, rfl, rfl, rfl⟩
  stripe id S hS := by
    refine ⟨Table.updateRow i f S, by rw [hs, hS]; rfl, ?_⟩
    by_cases hi : S.id = i
    · rw [Table.updateRow_of_eq hi]
      exact ⟨hm _, hl _⟩
    · rw [Table.updateRow_of_ne hi]
      exact ⟨rfl, fun h => h⟩

theorem grows_set_status (w : World) (id : StripeId) {st : StripeStatus} (h : st ≠ .live) :
    w.Grows (w.set_status id st) :=
  grows_stripe (fun i => Stripe.byId_set_status w.stripe id i st) (fun _ => rfl)
    (fun _ hl => absurd hl h)

theorem grows_bill (w : World) (id : StripeId) (items : List SubscriptionItem)
    (canceled_at period_end : Option Nat) : w.Grows (w.bill id items canceled_at period_end) :=
  grows_stripe (f := set_period items canceled_at period_end)
    (fun i => Table.byId_update (f := set_period items canceled_at period_end) (fun _ => rfl) i)
    (fun _ => rfl) (fun _ hl => hl)

theorem grows_pay (w : World) (c : Row CheckoutSession) (items : List SubscriptionItem) :
    w.Grows (w.pay c items) where
  clock := Nat.le_refl _
  users _ h := h
  plans _ h := h
  rows r hr := ⟨r, hr, rfl, rfl, rfl, rfl, rfl⟩
  stripe _ S hS := ⟨S, Table.byId_push_of_some hS _ (fits_of_no_keys rfl), rfl, fun h => h⟩

end World

theorem Change.grows {l : Label} {w₀ w w' : World} (h : Change l w₀ w w') : w.Grows w' := by
  cases h with
  | quiet h => exact h.grows
  | open_session => exact ⟨Nat.le_refl _, fun _ h => h, fun _ h => h,
      fun r hr => ⟨r, hr, rfl, rfl, rfl, rfl, rfl⟩, fun _ S hS => ⟨S, hS, rfl, fun h => h⟩⟩
  | status id h _ => exact w.grows_set_status id h
  | period => exact w.grows_update_subscription _ _
  | cancel => exact w.grows_update_subscription _ _
  | past_due => exact w.grows_update_subscription _ _
  | create _ _ _ _ _ _ _ hdb _ => exact (w.grows_demote _).trans (World.grows_insert hdb)
  | tick d => exact ⟨Nat.le_add_right _ _, fun _ h => h, fun _ h => h,
      fun r hr => ⟨r, hr, rfl, rfl, rfl, rfl, rfl⟩, fun _ S hS => ⟨S, hS, rfl, fun h => h⟩⟩
  | pay => exact w.grows_pay _ _
  | bill id ca pe _ _ => exact w.grows_bill id _ ca pe

/-! ## Every change keeps the system good -/

/-- A row whose subscription Stripe has, with metadata that name its user. -/
theorem Good.of_grows {w w' : World} (hg : Good w) (h : w.Grows w')
    (hrows : ∀ r' ∈ w'.db.subscriptions.rows,
      (∃ r ∈ w.db.subscriptions.rows, r'.val.user_id = r.val.user_id ∧
        r'.val.provider = r.val.provider ∧
        r'.val.provider_subscription_id = r.val.provider_subscription_id) ∨
      (r'.val.provider = .STRIPE ∧ ∃ id S, r'.val.provider_subscription_id = some id ∧
        w.stripe.subscriptions.byId id = some S ∧ w.Names r'.val.user_id S.val.metadata))
    (hsessions : ∀ c' ∈ w'.stripe.sessions.rows,
      (∃ c ∈ w.stripe.sessions.rows,
        c'.val.client_reference_id = c.val.client_reference_id ∧
        c'.val.subscription_metadata = c.val.subscription_metadata ∧
        (c'.val.subscription = c.val.subscription ∨ ∃ S id, c'.val.subscription = some id ∧
          w'.stripe.subscriptions.byId id = some S ∧
          S.val.metadata = c'.val.subscription_metadata)) ∨
      (c'.val.subscription = none ∧ ∃ u, c'.val.client_reference_id = some (.ofUuid u) ∧
        w.Names u c'.val.subscription_metadata))
    (hstripe : ∀ S' ∈ w'.stripe.subscriptions.rows, S'.val.items ≠ [] ∧
      ((∃ S ∈ w.stripe.subscriptions.rows, S'.val.metadata = S.val.metadata) ∨
        ∃ c ∈ w.stripe.sessions.rows, S'.val.metadata = c.val.subscription_metadata)) :
    Good w' where
  rows r' hr' := by
    rcases hrows r' hr' with ⟨r, hr, hu, hp, hps⟩ | ⟨hp, id, S, hps, hS, hn⟩
    · obtain ⟨hp0, id, S, hps0, hS, hn⟩ := hg.rows r hr
      obtain ⟨S', hS', hm, _⟩ := h.stripe id S hS
      exact ⟨hp.trans hp0, id, S', hps.trans hps0, hS', by rw [hu, hm]; exact hn.grows h⟩
    · obtain ⟨S', hS', hm, _⟩ := h.stripe id S hS
      exact ⟨hp, id, S', hps, hS', by rw [hm]; exact hn.grows h⟩
  sessions c' hc' := by
    rcases hsessions c' hc' with ⟨c, hc, href, hm, _⟩ | ⟨_, u, href, hn⟩
    · obtain ⟨u, href0, hn⟩ := hg.sessions c hc
      exact ⟨u, href.trans href0, by rw [hm]; exact hn.grows h⟩
    · exact ⟨u, href, hn.grows h⟩
  paid c' hc' id hid := by
    rcases hsessions c' hc' with ⟨c, hc, _, hm, hs | ⟨S, id', hs, hS, hmS⟩⟩ | ⟨hs, _⟩
    · obtain ⟨S, hS, hmS⟩ := hg.paid c hc id (hs.symm.trans hid)
      obtain ⟨S', hS', hm', _⟩ := h.stripe id S hS
      exact ⟨S', hS', hm'.trans (hmS.trans hm.symm)⟩
    · rw [hid, Option.some.injEq] at hs
      subst hs
      exact ⟨S, hS, hmS⟩
    · rw [hs] at hid
      cases hid
  stripe S' hS' := by
    obtain ⟨hi, ⟨S, hS, hm⟩ | ⟨c, hc, hm⟩⟩ := hstripe S' hS'
    · obtain ⟨_, u, hn⟩ := hg.stripe S hS
      exact ⟨hi, u, by rw [hm]; exact hn.grows h⟩
    · obtain ⟨u, _, hn⟩ := hg.sessions c hc
      exact ⟨hi, u, by rw [hm]; exact hn.grows h⟩

/-- The rows that a patch leaves are the rows before, with the same owner. -/
theorem World.rows_update_subscription {w : World} {i : UUID} {p : SubscriptionPatch}
    {r' : Row Subscription} (h : r' ∈ (w.update_subscription i p).db.subscriptions.rows) :
    ∃ r ∈ w.db.subscriptions.rows, r'.val.user_id = r.val.user_id ∧
      r'.val.provider = r.val.provider ∧
      r'.val.provider_subscription_id = r.val.provider_subscription_id := by
  rcases World.mem_update_subscription.mp h with ⟨r, hr, _, rfl⟩ | ⟨hr, _⟩
  · exact ⟨r, hr, p.user_id _, p.provider _, p.provider_subscription_id _⟩
  · exact ⟨r', hr, rfl, rfl, rfl⟩

theorem World.rows_demote {w : World} {old : Option (Row Subscription)} {r' : Row Subscription}
    (h : r' ∈ (w.demote old).db.subscriptions.rows) :
    ∃ r ∈ w.db.subscriptions.rows, r'.val.user_id = r.val.user_id ∧
      r'.val.provider = r.val.provider ∧
      r'.val.provider_subscription_id = r.val.provider_subscription_id := by
  cases old with
  | none => exact ⟨r', h, rfl, rfl, rfl⟩
  | some o => exact rows_update_subscription h

/-- Rows change or are made; nothing happens at Stripe. -/
theorem Good.rows_only {w w' : World} (hg : Good w) (h : w.Grows w')
    (hS : w'.stripe = w.stripe)
    (hrows : ∀ r' ∈ w'.db.subscriptions.rows,
      (∃ r ∈ w.db.subscriptions.rows, r'.val.user_id = r.val.user_id ∧
        r'.val.provider = r.val.provider ∧
        r'.val.provider_subscription_id = r.val.provider_subscription_id) ∨
      (r'.val.provider = .STRIPE ∧ ∃ id S, r'.val.provider_subscription_id = some id ∧
        w.stripe.subscriptions.byId id = some S ∧ w.Names r'.val.user_id S.val.metadata)) :
    Good w' := by
  refine hg.of_grows h hrows ?_ ?_
  · intro c hc
    rw [hS] at hc
    exact Or.inl ⟨c, hc, rfl, rfl, Or.inl rfl⟩
  · intro S' hS'
    rw [hS] at hS'
    exact ⟨(hg.stripe S' hS').1, Or.inl ⟨S', hS', rfl⟩⟩

/-- A step at Stripe on one subscription. -/
theorem Good.stripe_only {w : World} {i : StripeId} {f : StripeSubscription → StripeSubscription}
    (hg : Good w) (hf : ∀ S, Keyed.keys (f S) = Keyed.keys S)
    (h : w.Grows { w with stripe.subscriptions := w.stripe.subscriptions.update i f hf })
    (hm : ∀ S, (f S).metadata = S.metadata) (hi : ∀ S, S.items ≠ [] → (f S).items ≠ []) :
    Good { w with stripe.subscriptions := w.stripe.subscriptions.update i f hf } := by
  refine hg.of_grows h ?_ ?_ ?_
  · exact fun r hr => Or.inl ⟨r, hr, rfl, rfl, rfl⟩
  · exact fun c hc => Or.inl ⟨c, hc, rfl, rfl, Or.inl rfl⟩
  · intro S' hS'
    rcases (Table.mem_update hf).mp hS' with ⟨S, hS, _, rfl⟩ | ⟨hS, _⟩
    · exact ⟨hi _ (hg.stripe S hS).1, Or.inl ⟨S, hS, hm _⟩⟩
    · exact ⟨(hg.stripe S' hS).1, Or.inl ⟨S', hS, rfl⟩⟩

theorem Good.pay {w : World} (hg : Good w) {c : Row CheckoutSession}
    (hc : c ∈ w.stripe.sessions.rows) {items : List SubscriptionItem} (hi : items ≠ []) :
    Good (w.pay c items) := by
  refine hg.of_grows (w.grows_pay c items) ?_ ?_ ?_
  · exact fun r hr => Or.inl ⟨r, hr, rfl, rfl, rfl⟩
  · intro c' hc'
    rcases (Table.mem_update (f := World.set_subscription _) fun _ => rfl).mp hc' with
      ⟨c0, hc0, hid, rfl⟩ | ⟨hc0, _⟩
    · have hcc : c0 = c := Table.eq_of_id hc0 hc hid
      subst hcc
      exact Or.inl ⟨c0, hc0, rfl, rfl, Or.inr ⟨_, _, rfl,
        Table.byId_push_self (fits_of_no_keys rfl), rfl⟩⟩
    · exact Or.inl ⟨c', hc0, rfl, rfl, Or.inl rfl⟩
  · intro S' hS'
    rcases List.mem_append.mp hS' with hS' | hS'
    · exact ⟨(hg.stripe S' hS').1, Or.inl ⟨S', hS', rfl⟩⟩
    · rw [List.mem_singleton.mp hS']
      exact ⟨hi, Or.inr ⟨c, hc, rfl⟩⟩

theorem Good.change {l : Label} {w₀ w w' : World} (hg : Good w) (h : Change l w₀ w w') :
    Good w' := by
  have hgrows := h.grows
  cases h with
  | quiet h =>
    refine hg.of_grows hgrows ?_ ?_ ?_
    · intro r hr
      rw [h.subscriptions] at hr
      exact Or.inl ⟨r, hr, rfl, rfl, rfl⟩
    · intro c hc
      rw [h.sessions] at hc
      exact Or.inl ⟨c, hc, rfl, rfl, Or.inl rfl⟩
    · intro S hS
      rw [h.stripe] at hS
      exact ⟨(hg.stripe S hS).1, Or.inl ⟨S, hS, rfl⟩⟩
  | @open_session c u href hn hs =>
    refine hg.of_grows hgrows ?_ ?_ ?_
    · exact fun r hr => Or.inl ⟨r, hr, rfl, rfl, rfl⟩
    · intro c' hc'
      rcases List.mem_append.mp hc' with hc' | hc'
      · exact Or.inl ⟨c', hc', rfl, rfl, Or.inl rfl⟩
      · rw [List.mem_singleton.mp hc']
        exact Or.inr ⟨hs, u, href, hn⟩
    · exact fun S hS => ⟨(hg.stripe S hS).1, Or.inl ⟨S, hS, rfl⟩⟩
  | @status st id h _ =>
    exact hg.stripe_only (f := Stripe.setStatus st) (fun _ => rfl) hgrows (fun _ => rfl)
      (fun _ hi => hi)
  | period => exact hg.rows_only hgrows rfl fun r hr => Or.inl (World.rows_update_subscription hr)
  | cancel => exact hg.rows_only hgrows rfl fun r hr => Or.inl (World.rows_update_subscription hr)
  | past_due => exact hg.rows_only hgrows rfl fun r hr => Or.inl (World.rows_update_subscription hr)
  | @create e id u p c st S old r db hl hst hnone hS hn hold hdem hdb _ =>
    have hstripe : (w.demote old).stripe = w.stripe := by cases old <;> rfl
    refine hg.rows_only hgrows hstripe fun r' hr' => ?_
    obtain ⟨hr, _, hrows, _⟩ := Db.insert_subscription_ok hdb
    simp only [hrows, List.mem_append, List.mem_singleton] at hr'
    rcases hr' with hr' | rfl
    · exact Or.inl (World.rows_demote hr')
    · rw [hr]
      exact Or.inr ⟨rfl, id, S, rfl, hS, hn⟩
  | tick d => exact hg.rows_only hgrows rfl fun r hr => Or.inl ⟨r, hr, rfl, rfl, rfl⟩
  | pay hc hi => exact hg.pay hc hi
  | @bill items id ca pe hi _ =>
    exact hg.stripe_only (f := World.set_period items ca pe) (fun _ => rfl) hgrows (fun _ => rfl)
      (fun _ _ => hi)

theorem Good.quiet {w w' : World} (hg : Good w) (h : w.Quiet w') : Good w' :=
  hg.change (@Change.quiet (.tick 0) w w w' h)

theorem Steps.good {l : Label} {w₀ w : World} (h : Steps l w₀ w) (hg : Good w₀) : Good w := by
  induction h with
  | refl => exact hg
  | tail _ hc ih => exact ih.change hc

theorem Steps.grows {l : Label} {w₀ w : World} (h : Steps l w₀ w) : w₀.Grows w := by
  induction h with
  | refl => exact World.Grows.refl _
  | tail _ hc ih => exact ih.trans hc.grows

/-! ## What a change leaves alone -/

/-- Nothing of the account `u` changes: its rows, and its subscriptions at Stripe. -/
structure World.Frame (u : UUID) (w w' : World) : Prop where
  rows : ∀ r : Row Subscription, r.val.user_id = u →
    (r ∈ w'.db.subscriptions.rows ↔ r ∈ w.db.subscriptions.rows)
  stripe : ∀ id S, w.stripe.subscriptions.byId id = some S → w.owner id = some u →
    w'.stripe.subscriptions.byId id = some S

namespace World.Frame

variable {u : UUID} {w w' w'' : World}

theorem refl (u : UUID) (w : World) : w.Frame u w := ⟨fun _ _ => Iff.rfl, fun _ _ hS _ => hS⟩

theorem trans (h : w.Frame u w') (hgr : w.Grows w') (h' : w'.Frame u w'') : w.Frame u w'' where
  rows r hr := (h'.rows r hr).trans (h.rows r hr)
  stripe id S hS hu := h'.stripe id S (h.stripe id S hS hu) (hgr.owner hu)

/-- A patch of a row of another account. -/
theorem patch {r₀ : Row Subscription} (p : SubscriptionPatch)
    (hr₀ : r₀ ∈ w.db.subscriptions.rows) (hne : r₀.val.user_id ≠ u) :
    w.Frame u (w.update_subscription r₀.id p) := by
  refine ⟨fun r hu => ?_, fun _ _ hS _ => hS⟩
  rw [mem_update_subscription]
  constructor
  · rintro (⟨r1, hr1, hid, rfl⟩ | ⟨hr, _⟩)
    · obtain rfl := Table.eq_of_id hr1 hr₀ hid
      rw [p.user_id] at hu
      exact absurd hu hne
    · exact hr
  · intro hr
    refine Or.inr ⟨hr, fun hid => hne ?_⟩
    rw [← Table.eq_of_id hr hr₀ hid, hu]

/-- A step at Stripe on a subscription of another account. -/
theorem stripe_step {i : StripeId} {f : StripeSubscription → StripeSubscription} {s : Stripe}
    (hs : ∀ id, s.subscriptions.byId id =
      (w.stripe.subscriptions.byId id).map (Table.updateRow i f))
    (hne : w.owner i ≠ some u) : w.Frame u { w with stripe := s } := by
  refine ⟨fun _ _ => Iff.rfl, fun id S hS hu => ?_⟩
  have hid : S.id ≠ i := by
    rintro rfl
    rw [(Table.byId_eq_some.mp hS).2] at hne
    exact hne hu
  change s.subscriptions.byId id = some S
  rw [hs, hS, Option.map_some, Table.updateRow_of_ne hid]

end World.Frame

/-- A label that does not touch an account changes nothing of it. -/
theorem Change.frame {l : Label} {w₀ w w' : World} {u : UUID} (h : Change l w₀ w w')
    (hu : ¬ w₀.Touches l u) : w.Frame u w' := by
  have hother : ∀ v, w₀.Touches l v → v ≠ u := fun v hv heq => hu (heq ▸ hv)
  cases h with
  | quiet h => exact ⟨fun r _ => by rw [h.subscriptions], fun _ S hS _ => by rwa [h.stripe]⟩
  | open_session => exact ⟨fun _ _ => Iff.rfl, fun _ _ hS _ => hS⟩
  | @status st id h hwho =>
    exact .stripe_step (fun i => Stripe.byId_set_status w.stripe id i st)
      fun hid => hu (hwho u hid)
  | period _ _ _ hr _ _ hwho => exact .patch _ (World.row_of_eq_some.mp hr).1 (hother _ hwho)
  | cancel _ hr _ _ hwho => exact .patch _ (World.row_of_eq_some.mp hr).1 (hother _ hwho)
  | past_due hr _ hwho => exact .patch _ hr (hother _ hwho)
  | @create e id v p c st S old r db _ _ _ _ _ hold _ hdb hwho =>
    have hdemote : w.Frame u (w.demote old) := by
      rcases old with _ | o
      · exact .refl u w
      · have ho : o ∈ w.access_rows v w.clock := by simp [scalar_one_or_none_eq_ok.mp hold]
        obtain ⟨hmem, hv, _⟩ := World.mem_access_rows.mp ho
        exact .patch _ hmem (by rw [hv]; exact hother v hwho)
    obtain ⟨hnew, _, hrows, _⟩ := Db.insert_subscription_ok hdb
    refine hdemote.trans (w.grows_demote old) ⟨fun r' hr' => ?_, fun _ _ hS _ => hS⟩
    simp only [hrows, List.mem_append, List.mem_singleton]
    refine ⟨fun h => h.resolve_right ?_, Or.inl⟩
    rintro rfl
    rw [hnew] at hr'
    exact hother v hwho hr'
  | tick => exact ⟨fun _ _ => Iff.rfl, fun _ _ hS _ => hS⟩
  | pay =>
    exact ⟨fun _ _ => Iff.rfl, fun _ _ hS _ => Table.byId_push_of_some hS _ (fits_of_no_keys rfl)⟩
  | @bill items id ca pe hi hwho =>
    exact .stripe_step (fun i => Table.byId_update (f := World.set_period items ca pe)
      (fun _ => rfl) i) fun hid => hu (hwho u hid)

theorem Steps.frame {l : Label} {w₀ w : World} {u : UUID} (h : Steps l w₀ w)
    (hu : ¬ w₀.Touches l u) : w₀.Frame u w := by
  induction h with
  | refl => exact .refl u w₀
  | tail hs hc ih => exact ih.trans (Steps.grows hs) (hc.frame hu)

end saas
