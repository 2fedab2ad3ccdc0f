-- Billing requests side by side: any number of them in flight, cut by one another
-- at every await and each with its session, among the steps of Stripe and the
-- clock. What one act of a request may do, whatever came between, is a `Deed`; the
-- invariants of this traffic go by its cases.
import SaasBackend.BillingEffects
import SaasBackend.BillingSessions

open relational async

namespace saas

/-! ## The system -/

/-- Not a request: the clock, the customers that pay, and Stripe. -/
def Label.outside : Label → Bool
  | .serve _ _ => false
  | _ => true

def outside (user_repo : UserRepo) : System World Label where
  enabled w l := l.Enabled w ∧ l.outside = true
  next w l := l.next user_repo w

/-- The service with everything that is in flight, and what is around it. -/
def traffic (user_repo : UserRepo) : System (Pool World Err Unit) (Moment Request Label) :=
  server (Session.prog user_repo) (fun w r => r.Valid w) (outside user_repo)

instance (user_repo : UserRepo) (c : Pool World Err Unit) :
    ∀ m : Moment Request Label, Decidable ((traffic user_repo).enabled c m)
  | .arrive r => inferInstanceAs (Decidable (r.Valid c.2))
  | .act _ => isTrue trivial
  | .outside l => inferInstanceAs (Decidable (l.Enabled c.2 ∧ l.outside = true))

/-! ## What one act may do -/

/-- What a run has seen: the requests that came, the ends of the periods that Stripe
had for a subscription, the ends that its answers carried, and the subscriptions
that it stopped by itself. -/
structure Past where
  requests : Request → Prop
  periods : StripeId → Time → Prop
  answers : StripeId → Time → Prop
  stopped : StripeId → Prop

/-- A paid invoice of the subscription came. -/
def Past.PaidFor (h : Past) (id : StripeId) : Prop :=
  ∃ invoice, invoice.subscription = some id ∧
    h.requests (.webhook (.invoice_payment_succeeded invoice))

/-- The row was paid for, or its subscription is over at Stripe. -/
def World.Earned (h : Past) (w : World) (s : Subscription) : Prop :=
  ∀ id, s.provider_subscription_id = some id →
    h.PaidFor id ∨ w.stripe.statusOf id = some .canceled

/-- What Stripe has now is part of the history. -/
def World.Told (h : Past) (w : World) : Prop :=
  ∀ id S, w.stripe.subscriptions.byId id = some S →
    (∀ item ∈ S.val.items.head?, h.periods id (fromtimestamp item.current_period_end)) ∧
    ∀ e ∈ (truthy S.val.current_period_end).map fromtimestamp, h.answers id e

/-- The events that may end a row: Stripe has ended its subscription, or a checkout of
its user replaces it. -/
def Event.Ends (r : Subscription) : Event → Prop
  | .customer_subscription_deleted d => d.id = r.provider_subscription_id
  | .checkout_session_completed _ => True
  | _ => False

/-- The events that may make a row, and its status. -/
def Event.Makes (st : SubscriptionStatus) : Event → Prop
  | .checkout_session_completed _ => st = .PAST_DUE
  | .invoice_payment_succeeded _ => st = .ACTIVE
  | _ => False

/-- The flushes that a request can bring to a row, and where they come from. The object
may have been loaded at any time before. -/
inductive Flushes (h : Past) (q : Request) (w : World) (r : Row Subscription) :
    SubscriptionPatch → Prop
  | period {held : Subscription} {invoice : Invoice} {id : StripeId} {start stop : Time}
      (hq : q = .webhook (.invoice_payment_succeeded invoice))
      (hid : invoice.subscription = some id) (hps : r.val.provider_subscription_id = some id)
      (htold : h.periods id stop) :
      Flushes h q w r ((SubscriptionPatch.period start stop).flush held)
  | cancel_request {held : Subscription} {id : StripeId} {at_ : Time} {stop : Option Time}
      (hq : q = .cancel r.val.user_id) (hps : r.val.provider_subscription_id = some id)
      (hpaid : h.PaidFor id)
      (hstop : stop = held.current_period_end ∨ ∃ e, stop = some e ∧ h.answers id e) :
      Flushes h q w r ((SubscriptionPatch.cancel at_ stop).flush held)
  | cancel_event {held : Subscription} {e : Event} {at_ stop : Time}
      (hq : q = .webhook e) (hends : e.Ends r.val) (hover : w.Earned h r.val)
      (hstop : stop ≤ w.clock) :
      Flushes h q w r ((SubscriptionPatch.cancel at_ (some stop)).flush held)
  | past_due {held : Subscription} {invoice : Invoice} {id : StripeId}
      (hq : q = .webhook (.invoice_payment_failed invoice))
      (hid : invoice.subscription = some id) (hps : r.val.provider_subscription_id = some id) :
      Flushes h q w r ((SubscriptionPatch.status .PAST_DUE).flush held)

/-- A request is of the account, or about a subscription of it. -/
def World.Concerns (q : Request) (w : World) (u : UUID) : Prop := w.Touches (.serve q none) u

open SubscriptionRepoistory in
/-- One act of the request `q` in state `w`. -/
inductive Deed (h : Past) (q : Request) (w : World) : World → Prop
  | rest : Deed h q w w
  | customer {user : Row User} (hwho : w.Concerns q user.id) : Deed h q w (w.new_customer user)
  | store_customer {u : UUID} (customer : StripeId) (hwho : w.Concerns q u) :
      Deed h q w (w.update_user u (.stripe_customer customer))
  | open_session {c : CheckoutSession} {u : UUID}
      (href : c.client_reference_id = some (.ofUuid u))
      (hn : w.Names u c.subscription_metadata) (hs : c.subscription = none)
      (hwho : w.Concerns q u) : Deed h q w (w.open_session c)
  | status {id : StripeId} {u : UUID} {st : StripeStatus} (hst : st ≠ .live)
      (hnot : w.stripe.statusOf id ≠ some .canceled) (howner : w.owner id = some u)
      (hwho : w.Concerns q u) : Deed h q w (w.set_status id st)
  | patch {r : Row Subscription} {p : SubscriptionPatch} (hr : r ∈ w.db.subscriptions.rows)
      (hwhy : Flushes h q w r p) (hwho : w.Concerns q r.val.user_id) :
      Deed h q w (w.update_subscription r.id p)
  | create {e : Event} {id : StripeId} {u p : UUID} {c : Option StripeId}
      {st : SubscriptionStatus} {S : Row StripeSubscription} {old : Option (Row Subscription)}
      {t : Time} {r : Row Subscription} {db : Db} (hq : q = .webhook e)
      (hid : e.subscription = some id) (hst : e.Makes st) (ht : t ≤ w.clock)
      (hS : w.stripe.subscriptions.byId id = some S) (hn : w.Names u S.val.metadata)
      (hold : ∀ o ∈ old, ∃ o' ∈ w.db.subscriptions.rows, o'.id = o.id ∧ o'.val.user_id = u ∧
        w.Earned h o'.val)
      (hdb : (w.demote_held old).db.insert_subscription (new_row u p (some id) c st t) =
        .ok (r, db)) : Deed h q w { w.demote_held old with db := db }
  | record {invoice : Invoice} {id : StripeId} {s : Row Subscription} {r : Row Payment} {db : Db}
      (hq : q = .webhook (.invoice_payment_succeeded invoice))
      (hid : invoice.subscription = some id) (hs : w.row_of id = some s)
      (hdb : w.db.insert_payment (invoice_payment invoice s) = .ok (r, db)) :
      Deed h q w { w with db := db }
  | enqueue (t : Task) : Deed h q w (w.enqueue t)

/-- One act of a request that came, or one step outside. -/
inductive Move (h : Past) (w : World) : World → Prop
  | act {q : Request} {w' : World} (hcame : h.requests q) (hd : Deed h q w w') : Move h w w'
  | tick (d : Nat) : Move h w (w.advance d)
  | pay {c : Row CheckoutSession} {items : List SubscriptionItem}
      (hc : c ∈ w.stripe.sessions.rows) (hi : items ≠ []) (ht : (w.pay c items).Told h) :
      Move h w (w.pay c items)
  | bill {id : StripeId} {items : List SubscriptionItem} {canceled_at period_end : Option Nat}
      (hi : items ≠ []) (ht : (w.bill id items canceled_at period_end).Told h) :
      Move h w (w.bill id items canceled_at period_end)
  | stop {id : StripeId} (hstop : h.stopped id) : Move h w (w.set_status id .canceled)

/-- What may happen between two acts of one request. -/
def Meanwhile (h : Past) : World → World → Prop := Relation.ReflTransGen (Move h)

variable {h : Past} {q : Request} {w w' : World}

/-! ## What every act keeps -/

theorem World.grows_demote_held (w : World) (old : Option (Row Subscription)) :
    w.Grows (w.demote_held old) := by
  cases old with
  | none => exact Grows.refl w
  | some o => exact grows_update_subscription w o.id _

theorem World.rows_demote_held {old : Option (Row Subscription)} {r' : Row Subscription}
    (hr : r' ∈ (w.demote_held old).db.subscriptions.rows) :
    ∃ r ∈ w.db.subscriptions.rows, r'.val.user_id = r.val.user_id ∧
      r'.val.provider = r.val.provider ∧
      r'.val.provider_subscription_id = r.val.provider_subscription_id := by
  cases old with
  | none => exact ⟨r', hr, rfl, rfl, rfl⟩
  | some o => exact rows_update_subscription hr

@[simp] theorem World.stripe_demote_held (w : World) (old : Option (Row Subscription)) :
    (w.demote_held old).stripe = w.stripe := by
  cases old <;> rfl

@[simp] theorem World.payments_demote_held (w : World) (old : Option (Row Subscription)) :
    (w.demote_held old).db.payments = w.db.payments := by
  cases old <;> rfl

/-- Acts that touch neither the subscriptions nor Stripe's. -/
theorem Deed.grows (hd : Deed h q w w') : w.Grows w' := by
  cases hd with
  | rest => exact World.Grows.refl w
  | customer => exact World.Quiet.grows ⟨rfl, rfl, fun _ h => h, rfl, rfl, rfl⟩
  | store_customer => exact (w.quiet_update_user _ _).grows
  | open_session href hn hs _ => exact (@Change.open_session (.tick 0) w w _ _ href hn hs).grows
  | status hst _ _ _ => exact w.grows_set_status _ hst
  | patch => exact w.grows_update_subscription _ _
  | create _ _ _ _ _ _ _ hdb => exact (w.grows_demote_held _).trans (World.grows_insert hdb)
  | record _ _ _ hdb => exact (World.quiet_insert_payment hdb).grows
  | enqueue => exact World.Quiet.grows ⟨rfl, rfl, fun _ h => h, rfl, rfl, rfl⟩

theorem Move.grows (ha : Move h w w') : w.Grows w' := by
  cases ha with
  | act _ hd => exact hd.grows
  | tick d => exact (@Change.tick (.tick 0) w w d).grows
  | pay => exact w.grows_pay _ _
  | bill => exact w.grows_bill _ _ _ _
  | stop => exact w.grows_set_status _ (by simp)

theorem Deed.good (hd : Deed h q w w') (hg : Good w) : Good w' := by
  have hgrows := hd.grows
  cases hd with
  | rest => exact hg
  | customer => exact hg.quiet ⟨rfl, rfl, fun _ h => h, rfl, rfl, rfl⟩
  | store_customer => exact hg.quiet (w.quiet_update_user _ _)
  | open_session href hn hs _ =>
    exact hg.change (@Change.open_session (.tick 0) w w _ _ href hn hs)
  | @status id _ st hst _ _ _ =>
    exact hg.change (@Change.status (.stop id) w w st id hst fun _ hu => hu)
  | patch => exact hg.rows_only hgrows rfl fun r hr => Or.inl (World.rows_update_subscription hr)
  | @create e id u p c st S old t r db _ _ _ _ hS hn _ hdb =>
    refine hg.rows_only hgrows (w.stripe_demote_held old) fun r' hr' => ?_
    obtain ⟨hr, _, hrows, _⟩ := Db.insert_subscription_ok hdb
    simp only [hrows, List.mem_append, List.mem_singleton] at hr'
    rcases hr' with hr' | rfl
    · exact Or.inl (World.rows_demote_held hr')
    · rw [hr]
      exact Or.inr ⟨rfl, id, S, rfl, hS, hn⟩
  | record _ _ _ hdb => exact hg.quiet (World.quiet_insert_payment hdb)
  | enqueue => exact hg.quiet ⟨rfl, rfl, fun _ h => h, rfl, rfl, rfl⟩

theorem Move.good (ha : Move h w w') (hg : Good w) : Good w' := by
  cases ha with
  | act _ hd => exact hd.good hg
  | tick d => exact hg.change (@Change.tick (.tick 0) w w d)
  | pay hc hi _ => exact hg.pay hc hi
  | @bill id items ca pe hi _ =>
    exact hg.change (@Change.bill (.bill id items ca pe) w w items id ca pe hi fun _ hu => hu)
  | @stop id _ =>
    exact hg.change (@Change.status (.stop id) w w .canceled id (by simp) fun _ hu => hu)

/-- The statuses of Stripe are not its periods. -/
theorem World.Told.set_status (ht : w.Told h) (id : StripeId) (st : StripeStatus) :
    (w.set_status id st).Told h := by
  intro i S' hS'
  have hb := Stripe.byId_set_status w.stripe id i st
  change (w.stripe.set_status id st).subscriptions.byId i = some S' at hS'
  rw [hb] at hS'
  obtain ⟨S, hS, rfl⟩ := Option.map_eq_some_iff.mp hS'
  have hS0 := ht i S hS
  unfold Table.updateRow
  split <;> exact hS0

theorem World.Told.congr (ht : w.Told h) (hs : w'.stripe.subscriptions = w.stripe.subscriptions) :
    w'.Told h := by
  intro id S hS
  rw [hs] at hS
  exact ht id S hS

theorem Deed.told (hd : Deed h q w w') (ht : w.Told h) : w'.Told h := by
  cases hd with
  | status => exact ht.set_status _ _
  | @create _ _ _ _ _ _ _ old =>
    exact ht.congr (congrArg Stripe.subscriptions (w.stripe_demote_held old))
  | _ => exact ht.congr rfl

theorem Move.told (ha : Move h w w') (ht : w.Told h) : w'.Told h := by
  cases ha with
  | act _ hd => exact hd.told ht
  | tick => exact ht.congr rfl
  | pay _ _ ht' => exact ht'
  | bill _ ht' => exact ht'
  | stop => exact ht.set_status _ _

/-! ## What is over at Stripe -/

/-- Stripe starts nothing again that is canceled, and no act does. -/
theorem Deed.canceled (hd : Deed h q w w') {id : StripeId}
    (hc : w.stripe.statusOf id = some .canceled) : w'.stripe.statusOf id = some .canceled := by
  cases hd with
  | @status i _ st _ hnot _ _ =>
    change (w.stripe.set_status i st).statusOf id = _
    have hne : id ≠ i := fun hi => hnot (by rw [← hi, hc])
    rw [Stripe.statusOf_set_status, if_neg hne, hc]
  | @create _ _ _ _ _ _ _ old =>
    rw [← hc]
    exact congrArg (Stripe.statusOf · id) (w.stripe_demote_held old)
  | _ => exact hc

theorem Move.canceled (ha : Move h w w') {id : StripeId}
    (hc : w.stripe.statusOf id = some .canceled) : w'.stripe.statusOf id = some .canceled := by
  obtain ⟨S, hS, hst⟩ := Option.map_eq_some_iff.mp hc
  cases ha with
  | act _ hd => exact hd.canceled hc
  | tick => exact hc
  | @pay c items =>
    have hb := Table.byId_push_of_some hS (World.sold c.val items) (fits_of_no_keys rfl)
    exact Option.map_eq_some_iff.mpr ⟨S, hb, hst⟩
  | @bill i items ca pe =>
    have hb := Table.byId_update (t := w.stripe.subscriptions) (j := i)
      (f := World.set_period items ca pe) (fun _ => rfl) id
    rw [hS] at hb
    refine Option.map_eq_some_iff.mpr ⟨_, hb, ?_⟩
    unfold Table.updateRow
    split <;> exact hst
  | @stop i =>
    change (w.stripe.set_status i .canceled).statusOf id = _
    rw [Stripe.statusOf_set_status, hc]
    split <;> rfl

/-- A row of a subscription that is canceled is over. -/
theorem World.earned_of_canceled {s : Subscription} {id : StripeId}
    (hps : s.provider_subscription_id = some id) (hc : w.stripe.statusOf id = some .canceled) :
    w.Earned h s := by
  intro i hi
  rw [hps, Option.some.injEq] at hi
  exact Or.inr (hi ▸ hc)

theorem World.Earned.move {s : Subscription} (he : w.Earned h s) (ha : Move h w w') :
    w'.Earned h s := fun id hid => (he id hid).imp_right ha.canceled

theorem World.Earned.congr {s s' : Subscription} (he : w.Earned h s)
    (hps : s'.provider_subscription_id = s.provider_subscription_id) : w.Earned h s' :=
  fun id hid => he id (hps ▸ hid)

/-- Rows that were not paid for are past due, or over at Stripe too. -/
def World.Honest (h : Past) (w : World) : Prop :=
  ∀ r ∈ w.db.subscriptions.rows, r.val.status = .PAST_DUE ∨ w.Earned h r.val

/-- A flush to another status than past due is of a row that was paid for, or is over. -/
theorem Flushes.status_or {r : Row Subscription} {p : SubscriptionPatch}
    (hf : Flushes h q w r p) (hcame : h.requests q) :
    (p.apply r.val).status = r.val.status ∨ (p.apply r.val).status = .PAST_DUE ∨
      w.Earned h r.val := by
  cases hf with
  | @period _ invoice id _ _ hq hid hps _ =>
    subst hq
    refine Or.inr (Or.inr fun i hi => Or.inl ⟨invoice, ?_, hcame⟩)
    rw [hid, ← hps, hi]
  | @cancel_request _ id _ _ _ hps hpaid _ =>
    refine Or.inr (Or.inr fun i hi => Or.inl ?_)
    rw [hps, Option.some.injEq] at hi
    exact hi ▸ hpaid
  | cancel_event _ _ hover _ => exact Or.inr (Or.inr hover)
  | @past_due held _ _ _ _ _ =>
    rcases flushed_or held.status .PAST_DUE r.val.status with hs | hs
    · exact Or.inl hs
    · exact Or.inr (Or.inl hs)

theorem World.rows_demote_held_status {old : Option (Row Subscription)} {r' : Row Subscription}
    (hr : r' ∈ (w.demote_held old).db.subscriptions.rows) : ∃ r ∈ w.db.subscriptions.rows,
      r.id = r'.id ∧ r'.val.user_id = r.val.user_id ∧
      r'.val.provider_subscription_id = r.val.provider_subscription_id ∧
      (r'.val.status = r.val.status ∨ r'.val.status = .CANCELED ∧ ∃ o ∈ old, o.id = r.id) := by
  cases old with
  | none => exact ⟨r', hr, rfl, rfl, rfl, Or.inl rfl⟩
  | some o =>
    rcases World.mem_update_subscription.mp hr with ⟨r, hmem, hid, rfl⟩ | ⟨hmem, _⟩
    · refine ⟨r, hmem, rfl, rfl, rfl, ?_⟩
      rcases flushed_or o.val.status .CANCELED r.val.status with hs | hs
      · exact Or.inl hs
      · exact Or.inr ⟨hs, o, rfl, hid.symm⟩
    · exact ⟨r', hmem, rfl, rfl, rfl, Or.inl rfl⟩

theorem World.Honest.same_rows (hh : w.Honest h) (ha : Move h w w')
    (hsame : w'.db.subscriptions = w.db.subscriptions) : w'.Honest h := fun r hr =>
  (hh r (by rwa [← hsame])).imp_right fun he => he.move ha

theorem Deed.honest (hd : Deed h q w w') (hcame : h.requests q) (hh : w.Honest h) :
    w'.Honest h := by
  have ha : Move h w w' := .act hcame hd
  cases hd with
  | @patch s p hs hwhy _ =>
    intro r' hr'
    rcases World.mem_update_subscription.mp hr' with ⟨r, hr, hid, rfl⟩ | ⟨hr, _⟩
    · obtain rfl := Table.eq_of_id hr hs hid
      have hps : (p.apply r.val).provider_subscription_id = r.val.provider_subscription_id :=
        p.provider_subscription_id _
      rcases hwhy.status_or hcame with hst | hst | he
      · refine (hh r hr).imp (fun h0 => hst.trans h0) fun he => (he.move ha).congr hps
      · exact Or.inl hst
      · exact Or.inr ((he.move ha).congr hps)
    · exact (hh r' hr).imp_right fun he => he.move ha
  | @create e id u p c st S old t r db hq hid hst _ _ _ hold hdb =>
    obtain ⟨hr, _, hrows, _⟩ := Db.insert_subscription_ok hdb
    intro r' hr'
    simp only [hrows, List.mem_append, List.mem_singleton] at hr'
    rcases hr' with hr' | rfl
    · obtain ⟨s, hs, _, _, hps, hst' | ⟨_, o, ho, hos⟩⟩ := World.rows_demote_held_status hr'
      · exact (hh s hs).imp (fun h0 => hst'.trans h0) fun he => (he.move ha).congr hps
      · obtain ⟨o', ho', hid', _, he⟩ := hold o ho
        obtain rfl := Table.eq_of_id ho' hs (hid'.trans hos)
        exact Or.inr ((he.move ha).congr hps)
    · rw [hr]
      subst hq
      cases e with
      | checkout_session_completed _ => exact Or.inl hst
      | invoice_payment_succeeded invoice =>
        refine Or.inr fun i hi => Or.inl ⟨invoice, ?_, hcame⟩
        exact Eq.trans hid hi
      | _ => exact hst.elim
  | record _ _ _ hdb =>
    obtain ⟨_, _, _, hsubs, _⟩ := Db.insert_payment_ok hdb
    exact hh.same_rows ha hsubs
  | _ => exact hh.same_rows ha rfl

theorem Move.honest (ha : Move h w w') (hh : w.Honest h) : w'.Honest h := by
  cases ha with
  | act hcame hd => exact hd.honest hcame hh
  | tick d => exact hh.same_rows (.tick d) rfl
  | pay hc hi ht => exact hh.same_rows (.pay hc hi ht) rfl
  | bill hi ht => exact hh.same_rows (.bill hi ht) rfl
  | stop hstop => exact hh.same_rows (.stop hstop) rfl

/-! ## Periods that were paid for -/

/-- Why a row may end at `t`: it was paid for, and Stripe had that end, or its user asked
to cancel and Stripe answers with that end. -/
def Granted (h : Past) (r : Subscription) (t : Time) : Prop :=
  ∃ id, r.provider_subscription_id = some id ∧ h.PaidFor id ∧
    (h.periods id t ∨ (h.requests (.cancel r.user_id) ∧ h.answers id t))

/-- No row ends in the future without a reason. -/
def World.Paid (h : Past) (w : World) : Prop :=
  ∀ r ∈ w.db.subscriptions.rows, ∀ t, r.val.current_period_end = some t →
    t ≤ w.clock ∨ Granted h r.val t

theorem Granted.congr {r s : Subscription} {t : Time} (hg : Granted h r t)
    (hps : s.provider_subscription_id = r.provider_subscription_id) (hu : s.user_id = r.user_id) :
    Granted h s t := by
  unfold Granted
  rw [hps, hu]
  exact hg

theorem World.Paid.same_rows (hp : w.Paid h) (hclock : w.clock ≤ w'.clock)
    (hsame : w'.db.subscriptions = w.db.subscriptions) : w'.Paid h := by
  intro r hr t ht
  rw [hsame] at hr
  exact (hp r hr t ht).imp_left fun hle => Nat.le_trans hle hclock

/-- Why a request may make the row end at `t`: it is a paid invoice of the subscription,
and Stripe had that end, or its user's request to cancel, and Stripe answers with that end. -/
def Request.Grants (h : Past) (q : Request) (r : Subscription) (t : Time) : Prop :=
  ∃ id, r.provider_subscription_id = some id ∧ h.PaidFor id ∧
    ((∃ invoice, q = .webhook (.invoice_payment_succeeded invoice) ∧
      invoice.subscription = some id ∧ h.periods id t) ∨ q = .cancel r.user_id ∧ h.answers id t)

theorem Request.Grants.granted {r : Subscription} {t : Time} (hg : q.Grants h r t)
    (hcame : h.requests q) : Granted h r t := by
  obtain ⟨id, hps, hpaid, ⟨_, _, _, htold⟩ | ⟨rfl, hans⟩⟩ := hg
  · exact ⟨id, hps, hpaid, Or.inl htold⟩
  · exact ⟨id, hps, hpaid, Or.inr ⟨hcame, hans⟩⟩

theorem Request.Grants.congr {r s : Subscription} {t : Time} (hg : q.Grants h r t)
    (hps : s.provider_subscription_id = r.provider_subscription_id) (hu : s.user_id = r.user_id) :
    q.Grants h s t := by
  unfold Request.Grants
  rw [hps, hu]
  exact hg

/-- What a flush writes as the end of a row, however old its object is: the end that
the row has, one that has passed, or one with a reason. -/
theorem Flushes.ends {r : Row Subscription} {p : SubscriptionPatch} {t : Time}
    (hf : Flushes h q w r p) (hcame : h.requests q)
    (ht : (p.apply r.val).current_period_end = some t) :
    r.val.current_period_end = some t ∨ t ≤ w.clock ∨ q.Grants h r.val t := by
  cases hf with
  | @period held invoice id start stop hq hid hps htold =>
    subst hq
    rcases flushed_or held.current_period_end (some stop) r.val.current_period_end with hs | hs
    · exact Or.inl (hs.symm.trans ht)
    · cases (hs.symm.trans ht)
      exact Or.inr (Or.inr ⟨id, hps, ⟨invoice, hid, hcame⟩, Or.inl ⟨invoice, rfl, hid, htold⟩⟩)
  | @cancel_request held id at_ stop hq hps hpaid hstop =>
    subst hq
    rcases hstop with rfl | ⟨e, rfl, he⟩
    · -- the stored end was not changed in the object, so it is not written
      left
      rw [← ht]
      change _ = flushed held.current_period_end
        (held.current_period_end <|> held.current_period_end) r.val.current_period_end
      cases held.current_period_end <;> simp [flushed]
    · rcases flushed_or held.current_period_end (some e) r.val.current_period_end with hs | hs
      · exact Or.inl (hs.symm.trans ht)
      · cases (hs.symm.trans ht)
        exact Or.inr (Or.inr ⟨id, hps, hpaid, Or.inr ⟨rfl, he⟩⟩)
  | @cancel_event held e at_ stop hq _ _ hstop =>
    rcases flushed_or held.current_period_end (some stop) r.val.current_period_end with hs | hs
    · exact Or.inl (hs.symm.trans ht)
    · cases (hs.symm.trans ht)
      exact Or.inr (Or.inl hstop)
  | past_due hq hid hps =>
    left
    rw [← ht]
    simp [SubscriptionPatch.flush, SubscriptionPatch.status, flushed]

theorem World.rows_demote_held_end {old : Option (Row Subscription)} {r' : Row Subscription}
    (hr : r' ∈ (w.demote_held old).db.subscriptions.rows) : ∃ r ∈ w.db.subscriptions.rows,
      r.id = r'.id ∧ r'.val.current_period_end = r.val.current_period_end ∧
      r'.val.provider_subscription_id = r.val.provider_subscription_id ∧
      r'.val.user_id = r.val.user_id := by
  cases old with
  | none => exact ⟨r', hr, rfl, rfl, rfl, rfl⟩
  | some o =>
    rcases World.mem_update_subscription.mp hr with ⟨r, hmem, _, rfl⟩ | ⟨hmem, _⟩
    · refine ⟨r, hmem, rfl, ?_, rfl, rfl⟩
      simp [SubscriptionPatch.flush, SubscriptionPatch.demote, flushed]
    · exact ⟨r', hmem, rfl, rfl, rfl, rfl⟩

/-- The end of a row after an act: a row with the same subscription had it, it has
passed, or the request has a reason. -/
theorem Deed.ends (hd : Deed h q w w') (hcame : h.requests q) {r : Row Subscription} {t : Time}
    (hr : r ∈ w'.db.subscriptions.rows) (ht : r.val.current_period_end = some t) :
    (∃ s ∈ w.db.subscriptions.rows, s.id = r.id ∧ s.val.current_period_end = some t ∧
      r.val.provider_subscription_id = s.val.provider_subscription_id ∧
      r.val.user_id = s.val.user_id) ∨ t ≤ w.clock ∨ q.Grants h r.val t := by
  have hsame : w'.db.subscriptions = w.db.subscriptions → ∃ s ∈ w.db.subscriptions.rows,
      s.id = r.id ∧ s.val.current_period_end = some t ∧
      r.val.provider_subscription_id = s.val.provider_subscription_id ∧
      r.val.user_id = s.val.user_id := fun heq => ⟨r, by rwa [← heq], rfl, ht, rfl, rfl⟩
  cases hd with
  | @patch s p hs hwhy _ =>
    rcases World.mem_update_subscription.mp hr with ⟨r₀, hr₀, hid, rfl⟩ | ⟨hr₀, _⟩
    · obtain rfl := Table.eq_of_id hr₀ hs hid
      refine (hwhy.ends hcame ht).imp (fun hend => ?_) (Or.imp_right fun hg => ?_)
      · exact ⟨r₀, hr₀, rfl, hend, p.provider_subscription_id _, p.user_id _⟩
      · exact hg.congr (p.provider_subscription_id _) (p.user_id _)
    · exact Or.inl ⟨r, hr₀, rfl, ht, rfl, rfl⟩
  | @create _ id u p c st S old t' r' db _ _ _ htime _ _ _ hdb =>
    obtain ⟨hnew, _, hrows, _⟩ := Db.insert_subscription_ok hdb
    simp only [hrows, List.mem_append, List.mem_singleton] at hr
    rcases hr with hr | rfl
    · obtain ⟨s, hs, hid, hend, hps, hu⟩ := World.rows_demote_held_end hr
      exact Or.inl ⟨s, hs, hid, hend.symm.trans ht, hps, hu⟩
    · rw [hnew] at ht
      cases ht
      exact Or.inr (Or.inl htime)
  | record _ _ _ hdb =>
    obtain ⟨_, _, _, hsubs, _⟩ := Db.insert_payment_ok hdb
    exact Or.inl (hsame hsubs)
  | _ => exact Or.inl (hsame rfl)

theorem Deed.paid (hd : Deed h q w w') (hcame : h.requests q) (hp : w.Paid h) : w'.Paid h := by
  have hclock := hd.grows.clock
  intro r hr t ht
  rcases hd.ends hcame hr ht with ⟨s, hs, _, hend, hps, hu⟩ | hle | hg
  · exact (hp s hs t hend).imp (fun hle => Nat.le_trans hle hclock) fun hg => hg.congr hps hu
  · exact Or.inl (Nat.le_trans hle hclock)
  · exact Or.inr (hg.granted hcame)

theorem Move.paid (ha : Move h w w') (hp : w.Paid h) : w'.Paid h := by
  have hclock := ha.grows.clock
  cases ha with
  | act hcame hd => exact hd.paid hcame hp
  | _ => exact hp.same_rows hclock rfl

/-! ## Whatever comes between -/

/-- What holds of the state of a server at all times. -/
structure Sound (h : Past) (w : World) : Prop where
  good : Good w
  told : w.Told h
  honest : w.Honest h
  paid : w.Paid h

theorem Meanwhile.of_move (ha : Move h w w') : Meanwhile h w w' := .single ha

theorem Meanwhile.others : Proc.Rely (Meanwhile h) (Meanwhile h) where
  refl _ := .refl
  trans _ _ _ hm hm' := Relation.ReflTransGen.trans hm hm'
  stay _ := .refl

/-- A request that came takes part. -/
theorem Meanwhile.part (hcame : h.requests q) : Proc.Part (Meanwhile h) (Deed h q) where
  refl _ := .refl
  trans _ _ _ hm hm' := Relation.ReflTransGen.trans hm hm'
  stay _ := .rest
  goes _ _ hd := .of_move (.act hcame hd)

theorem Meanwhile.trans {w'' : World} (hm : Meanwhile h w w') (hm' : Meanwhile h w' w'') :
    Meanwhile h w w'' := Relation.ReflTransGen.trans hm hm'

theorem Meanwhile.canceled (hm : Meanwhile h w w') {id : StripeId}
    (hc : w.stripe.statusOf id = some .canceled) : w'.stripe.statusOf id = some .canceled := by
  induction hm with
  | refl => exact hc
  | tail _ ha ih => exact ha.canceled ih

theorem World.Earned.meanwhile {s : Subscription} (he : w.Earned h s) (hm : Meanwhile h w w') :
    w'.Earned h s := fun id hid => (he id hid).imp_right hm.canceled

theorem Meanwhile.grows (hm : Meanwhile h w w') : w.Grows w' := by
  induction hm with
  | refl => exact World.Grows.refl _
  | tail _ ha ih => exact ih.trans ha.grows

theorem Meanwhile.sound (hm : Meanwhile h w w') (hs : Sound h w) : Sound h w' := by
  induction hm with
  | refl => exact hs
  | tail _ ha ih => exact ⟨ha.good ih.good, ha.told ih.told, ha.honest ih.honest, ha.paid ih.paid⟩

/-- Whom a request concerns, it concerns from then on. -/
theorem World.Concerns.grows {u : UUID} (hc : w.Concerns q u) (hg : w.Grows w') :
    w'.Concerns q u := by
  cases q with
  | subscribe user code => exact hc
  | upgrade user code => exact hc
  | cancel v => exact hc
  | webhook e =>
    obtain ⟨id, hid, ho⟩ := Option.bind_eq_some_iff.mp hc
    exact Option.bind_eq_some_iff.mpr ⟨id, hid, hg.owner ho⟩

namespace Sample

/-- Ann subscribes and pays. Then the checkout event and two deliveries of her first
invoice are served at once: all three look for the row before one of them makes it. -/
def side_by_side : List (Moment Request Label) :=
  [.arrive (.subscribe ⟨0, ann⟩ "pro")] ++ List.replicate 6 (.act 0) ++
  [.outside (.pay 0 [⟨900, 2000⟩]), .arrive (.webhook (.checkout_session_completed
      ⟨some (.ofUuid 0), some 0, some 7⟩)),
    .arrive (.webhook (.invoice_payment_succeeded (invoice 0 0 .subscription_create))),
    .arrive (.webhook (.invoice_payment_succeeded (invoice 0 0 .subscription_create)))] ++
  (List.replicate 12 [.act 1, .act 2, .act 3]).flatten

/-- Stripe delivers the invoice once more. -/
def delivered_again : List (Moment Request Label) :=
  side_by_side ++
    [.arrive (.webhook (.invoice_payment_succeeded (invoice 0 0 .subscription_create)))] ++
    List.replicate 6 (.act 4)

end Sample

end saas
