-- A paid invoice that comes again, after its first handling was cut short or
-- not acknowledged. The handler commits the row, then the payment, then the email.
import SaasBackend.HandlerRows

open relational async

namespace saas

open Proc SubscriptionRepoistory StripeGateway SubscriptionService

/-! ## What a paid invoice leaves -/

/-- The payment rows of a Stripe invoice. -/
def World.payments_of (w : World) (invoice_id : StripeId) : List (Row Payment) :=
  w.db.payments.select
    (fun p => decide (p.provider = .STRIPE ∧ p.provider_invoice_id = invoice_id))

/-- The email that the reason of an invoice calls for. -/
def BillingReason.task : BillingReason → Option TaskName
  | subscription_cycle => some .send_update_subscription_email_task
  | subscription_create => some .send_subscription_email_task
  | other => none

/-- The email about the row is in the queue. -/
def World.Notified (w : World) (reason : BillingReason) (r : Row Subscription) : Prop :=
  ∀ task ∈ reason.task, ∃ d, serialize_subscription w.db (some r) = .ok d ∧ ⟨task, d⟩ ∈ w.queue

/-- What follows the renewal: the payment row and the email. -/
def record_and_notify (invoice : Invoice) (sub : Option (Row Subscription)) : M Unit := do
  record_invoice_payment invoice sub
  send_payment_email invoice.billing_reason sub

theorem record_and_notify.acts (invoice : Invoice) (sub : Option (Row Subscription)) :
    (record_and_notify invoice sub).Acts World.Quiet :=
  (record_invoice_payment.acts invoice sub).bind fun _ => send_payment_email.acts _ _

section

variable {w : World} {r : Row Subscription}

/-- The foreign keys give a stored row its user and its plan. -/
theorem serialize_subscription.found (h : r ∈ w.db.subscriptions.rows) :
    ∃ d, serialize_subscription w.db (some r) = .ok d := by
  obtain ⟨user, huser⟩ := (w.db.fk_subscription_user r h _ rfl).byId
  obtain ⟨plan, hplan⟩ := (w.db.fk_subscription_plan r h _ rfl).byId
  simp [serialize_subscription, huser, hplan]

theorem send_payment_email.spec (reason : BillingReason) (h : r ∈ w.db.subscriptions.rows) :
    ∃ w', (send_payment_email reason (some r)).run w = (.ok (), w') ∧ w'.db = w.db ∧
      w'.Notified reason r := by
  obtain ⟨d, hd⟩ := serialize_subscription.found h
  have hdelay : ∀ task : TaskName, (task.delay (some r)).run w = (.ok (), w.enqueue ⟨task, d⟩) := by
    intro task
    unfold TaskName.delay
    rw [run_attempt, hd]
    rfl
  cases reason with
  | other => exact ⟨w, rfl, rfl, fun task ht => by cases ht⟩
  | subscription_create =>
    refine ⟨_, hdelay _, rfl, fun task ht => ?_⟩
    cases ht
    exact ⟨d, hd, by simp [World.enqueue]⟩
  | subscription_cycle =>
    refine ⟨_, hdelay _, rfl, fun task ht => ?_⟩
    cases ht
    exact ⟨d, hd, by simp [World.enqueue]⟩

theorem invoice_payment.fits (invoice : Invoice) (r : Row Subscription) :
    w.db.payments.Fits (invoice_payment invoice r) ↔ w.payments_of invoice.id = [] := by
  rw [Table.fits_iff_of_key (k := (PaymentProvider.STRIPE, invoice.id)) rfl,
    World.payments_of, List.eq_nil_iff_forall_not_mem]
  simp only [Table.mem_select, decide_eq_true_eq, not_and, Keyed.keys, List.mem_singleton,
    Prod.mk.injEq]
  constructor
  · intro h r' hr' hp hi
    exact h r' hr' hp.symm hi.symm
  · intro h r' hr' hp hi
    exact h r' hr' hp.symm hi.symm

/-- The amount and the currency of the invoice fit the columns of a payment. -/
def Invoice.FitsColumns (invoice : Invoice) : Prop :=
  (upper ((invoice.currency.filter (· ≠ "")).getD "usd")).length ≤ 10 ∧
    -2147483648 ≤ invoice.amount_paid ∧ invoice.amount_paid ≤ 2147483647

instance : DecidablePred Invoice.FitsColumns := fun _ => inferInstanceAs (Decidable (_ ∧ _))

theorem invoice_payment.fitsColumns (invoice : Invoice) (r : Row Subscription) :
    (invoice_payment invoice r).FitsColumns ↔ invoice.FitsColumns := Iff.rfl

/-- The payment of the invoice can be stored: it fits the columns, and there is none yet. -/
def World.Payable (w : World) (invoice : Invoice) : Prop :=
  invoice.FitsColumns ∧ w.payments_of invoice.id = []

/-- The columns and the unique invoice id let a first payment row in, and no second one. -/
theorem record_invoice_payment.spec (invoice : Invoice) (h : r ∈ w.db.subscriptions.rows) :
    (¬ w.Payable invoice →
      ∃ e, (record_invoice_payment invoice (some r)).run w = (.error e, w)) ∧
    (w.Payable invoice → ∃ w', (record_invoice_payment invoice (some r)).run w =
      (.ok (), w') ∧ w'.db.subscriptions = w.db.subscriptions ∧
        (w'.payments_of invoice.id).length = 1) := by
  rw [record_invoice_payment.run_some]
  refine ⟨fun hbad => ?_, fun ⟨hcols, hnil⟩ => ?_⟩
  · rcases hi : w.db.insert_payment (invoice_payment invoice r) with e | ⟨p, db⟩
    · exact ⟨e, rfl⟩
    · obtain ⟨hcols, hf, _⟩ := Db.insert_payment_eq_ok hi
      exact absurd ⟨hcols, (invoice_payment.fits invoice r).mp hf.1⟩ hbad
  · have hf := (invoice_payment.fits invoice r).mpr hnil
    have hall : w.db.FitsPayment (invoice_payment invoice r) :=
      ⟨hf, w.db.fk_subscription_user r h _ rfl,
        fun i hi => by cases hi; exact Table.has_of_mem h⟩
    rw [Db.insert_payment_of_fits ((invoice_payment.fitsColumns invoice r).mpr hcols) hall]
    refine ⟨_, rfl, rfl, ?_⟩
    change ((w.db.payments.push _ hf).select _).length = 1
    unfold World.payments_of at hnil
    rw [Table.select_push, hnil, if_pos (by simp [invoice_payment])]
    rfl

/-- The payment and the email come after the row, where the payment can be stored. -/
theorem record_and_notify.spec (invoice : Invoice) (h : r ∈ w.db.subscriptions.rows) :
    (¬ w.Payable invoice →
      ∃ e, (record_and_notify invoice (some r)).run w = (.error e, w)) ∧
    (w.Payable invoice → ∃ w', (record_and_notify invoice (some r)).run w =
      (.ok (), w') ∧ w'.db.subscriptions = w.db.subscriptions ∧
        (w'.payments_of invoice.id).length = 1 ∧ w'.Notified invoice.billing_reason r) := by
  obtain ⟨hbad, hgood⟩ := record_invoice_payment.spec invoice h
  unfold record_and_notify
  refine ⟨fun hno => ?_, fun hpay => ?_⟩
  · obtain ⟨e, he⟩ := hbad hno
    exact ⟨e, run_bind_error he _⟩
  obtain ⟨w1, hrun, hsubs, hone⟩ := hgood hpay
  obtain ⟨w2, hrun2, hdb, hmail⟩ := send_payment_email.spec (w := w1) invoice.billing_reason
    (by rwa [hsubs])
  refine ⟨w2, by rw [run_bind_ok hrun, hrun2], by rw [hdb, hsubs], ?_, hmail⟩
  simpa only [World.payments_of, hdb] using hone

end

/-! ## The renewal -/

/-- The row that a paid invoice leaves: the row before with Stripe's period, or
a new one that ends at once. -/
def renewed_row (u p : UUID) (id : StripeId) (customer : Option StripeId) (item : SubscriptionItem)
    (t : Time) : Option Subscription → Subscription
  | some v => (SubscriptionPatch.period (fromtimestamp item.current_period_start)
      (fromtimestamp item.current_period_end)).apply v
  | none => new_row u p (some id) customer .ACTIVE t

/-- There is a row to renew, or a new one can be made. -/
def World.Renewable (w : World) (u : UUID) (id : StripeId) : Prop :=
  w.row_of id ≠ none ∨ (w.access_rows u w.clock).length ≤ 1

instance (w : World) (u : UUID) (id : StripeId) : Decidable (w.Renewable u id) :=
  inferInstanceAs (Decidable (_ ∨ _))

section

variable {u p : UUID} {id : StripeId} {S : Row StripeSubscription} {item : SubscriptionItem}
  {items : List SubscriptionItem} {w : World}

/-- `w'` is `w` after the renewal of the subscription, with the row `r`. -/
structure Renewed (u p : UUID) (id : StripeId) (S : StripeSubscription) (item : SubscriptionItem)
    (r : Row Subscription) (w w' : World) : Prop where
  row : w'.row_of id = some r
  val : r.val = renewed_row u p id S.customer item w.clock ((w.row_of id).map (·.val))
  good : Good w'
  grows : w.Grows w'
  clock : w'.clock = w.clock
  stripe : w'.stripe = w.stripe
  payments : w'.db.payments = w.db.payments

theorem scalar_of_length {α : Type} {l : List α} :
    l.length ≤ 1 ↔ ∃ o, scalar_one_or_none l = .ok o := by
  rcases l with _ | ⟨a, _ | ⟨b, l⟩⟩ <;> simp [scalar_one_or_none]

theorem Good.renew (hg : Good w) (hS : w.stripe.subscriptions.byId id = some S)
    (hn : w.Names u S.val.metadata) (hp : S.val.metadata.plan_id = some (.ofUuid p))
    (hi : S.val.items = item :: items) :
    (w.Renewable u id → ∃ r w', (renew_or_create id S.val).run w = (.ok (some r), w') ∧
      Renewed u p id S.val item r w w') ∧
    (¬ w.Renewable u id → ∃ e, (renew_or_create id S.val).run w = (.error e, w)) := by
  rw [renew_or_create.spec, hi]
  rcases hr : w.row_of id with _ | r
  · simp only [hn.user, hp, UUID.parse]
    refine ⟨fun h => ?_, fun h => ?_⟩
    · obtain ⟨old, hold⟩ := scalar_of_length.mp (h.resolve_left fun h => h hr)
      obtain ⟨r, w', hrun, hc⟩ := hg.create hr hS hn hp hold S.val.customer .ACTIVE
      refine ⟨r, w', by simp only [hrun], ?_⟩
      exact ⟨hc.row, by rw [hc.val, hr]; rfl, hc.good, hc.grows, hc.clock, hc.stripe, hc.payments⟩
    · rcases hs : scalar_one_or_none (w.access_rows u w.clock) with e | old
      · refine ⟨e, ?_⟩
        rw [create_subscription.spec, hs]
      · exact absurd (Or.inr (scalar_of_length.mpr ⟨old, hs⟩)) h
  · simp only
    refine ⟨fun _ => ⟨_, _, rfl, ?_⟩, fun h => absurd (Or.inl (by rw [hr]; simp)) h⟩
    exact ⟨World.row_of_patch _ hr, by rw [hr]; rfl, hg.patch _, w.grows_update_subscription _ _,
      rfl, rfl, rfl⟩

theorem paid_invoice.spec {invoice : Invoice} (hg : Good w)
    (hS : w.stripe.subscriptions.byId id = some S) (hn : w.Names u S.val.metadata)
    (hp : S.val.metadata.plan_id = some (.ofUuid p)) (hi : S.val.items = item :: items)
    (hinv : invoice.subscription = some id) :
    let handled := (handle_event (.invoice_payment_succeeded invoice)).run w
    (¬ w.Renewable u id → ∃ e, handled = (.error e, w)) ∧
    (w.Renewable u id → ∃ r, handled.2.row_of id = some r ∧
      r.val = renewed_row u p id S.val.customer item w.clock ((w.row_of id).map (·.val)) ∧
      (¬ w.Payable invoice → handled.1 ≠ .ok ()) ∧
      (w.Payable invoice → handled.1 = .ok () ∧
        (handled.2.payments_of invoice.id).length = 1 ∧
        handled.2.Notified invoice.billing_reason r)) := by
  obtain ⟨hrun, _⟩ := handle_invoice_payment_succeeded.after_reads hinv hS
  obtain ⟨hok, herr⟩ := hg.renew hS hn hp hi
  change (¬ w.Renewable u id → ∃ e, (handle_invoice_payment_succeeded invoice >>= fun sub =>
    record_and_notify invoice sub).run w = (.error e, w)) ∧ _
  refine ⟨fun h => ?_, fun h => ?_⟩
  · obtain ⟨e, he⟩ := herr h
    exact ⟨e, run_bind_error (hrun.trans he) _⟩
  · obtain ⟨r, w1, hr, h1⟩ := hok h
    have hrest : (handle_event (.invoice_payment_succeeded invoice)).run w =
        (record_and_notify invoice (some r)).run w1 := run_bind_ok (hrun.trans hr) _
    have hpay : w1.Payable invoice ↔ w.Payable invoice := by
      simp only [World.Payable, World.payments_of, h1.payments]
    obtain ⟨hbad, hgood⟩ := record_and_notify.spec invoice (World.row_of_eq_some.mp h1.row).1
    rw [hpay] at hbad hgood
    simp only [hrest]
    refine ⟨r, ?_, h1.val, fun hno => ?_, fun hyes => ?_⟩
    · rw [World.row_of_congr (Acts.quiet (record_and_notify.acts invoice _) w1).subscriptions]
      exact h1.row
    · obtain ⟨e, he⟩ := hbad hno
      rw [he]
      simp
    · obtain ⟨w', hrun', _, hone, hmail⟩ := hgood hyes
      rw [hrun']
      exact ⟨rfl, hone, hmail⟩

/-- The row of the subscription after a complete handling. -/
theorem paid_invoice.row {invoice : Invoice} (hg : Good w)
    (hS : w.stripe.subscriptions.byId id = some S) (hn : w.Names u S.val.metadata)
    (hp : S.val.metadata.plan_id = some (.ofUuid p)) (hi : S.val.items = item :: items)
    (hinv : invoice.subscription = some id) :
    (((handle_event (.invoice_payment_succeeded invoice)).run w).2.row_of id).map (·.val) =
      if w.Renewable u id then
        some (renewed_row u p id S.val.customer item w.clock ((w.row_of id).map (·.val)))
      else none := by
  obtain ⟨hbad, hdo⟩ := paid_invoice.spec hg hS hn hp hi hinv
  by_cases h : w.Renewable u id
  · obtain ⟨r, hr, hv, _⟩ := hdo h
    rw [if_pos h, hr, Option.map_some, hv]
  · obtain ⟨e, he⟩ := hbad h
    rw [if_neg h, he, Option.map_eq_none_iff]
    by_contra hrow
    exact h (Or.inl hrow)

/-- Wherever the handling of a paid invoice is cut, the subscription is as it was
or as the renewal leaves it. -/
theorem paid_invoice.cut {invoice : Invoice} {w1 : World} (hg : Good w)
    (hS : w.stripe.subscriptions.byId id = some S) (hn : w.Names u S.val.metadata)
    (hp : S.val.metadata.plan_id = some (.ofUuid p)) (hi : S.val.items = item :: items)
    (hinv : invoice.subscription = some id)
    (hcut : w1 ∈ (handle_event (.invoice_payment_succeeded invoice)).trace w) :
    w1 = w ∨ w.Renewable u id ∧ ∃ r w', Renewed u p id S.val item r w w' ∧ w'.Quiet w1 := by
  obtain ⟨hrun, htrace⟩ := handle_invoice_payment_succeeded.after_reads hinv hS
  obtain ⟨hok, herr⟩ := hg.renew hS hn hp hi
  change w1 ∈ (handle_invoice_payment_succeeded invoice >>= fun sub =>
    record_and_notify invoice sub).trace w at hcut
  rw [mem_trace_bind, htrace, hrun] at hcut
  by_cases h : w.Renewable u id
  · obtain ⟨r, w', hr, hw'⟩ := hok h
    rcases hcut with hcut | ⟨a, s, hs, hcut⟩
    · rcases renew_or_create.commits id S.val w w1 hcut with h1 | h1
      · exact Or.inl h1
      · rw [hr] at h1
        exact Or.inr ⟨h, r, w', hw', h1 ▸ World.Quiet.refl _⟩
    · rw [hr] at hs
      cases hs
      refine Or.inr ⟨h, r, w', hw', ?_⟩
      exact ((record_and_notify.acts invoice _).along (fun _ _ => World.Quiet.trans)
        (World.Quiet.refl w')).1 w1 hcut
  · obtain ⟨e, he⟩ := herr h
    rcases hcut with hcut | ⟨a, s, hs, _⟩
    · rcases renew_or_create.commits id S.val w w1 hcut with h1 | h1
      · exact Or.inl h1
      · rw [he] at h1
        exact Or.inl h1
    · rw [he] at hs
      cases hs

end

/-! ## The second delivery of a paid invoice -/

/-- The state `w`, at another time. -/
def World.at_time (w : World) (t : Time) : World := { w with clock := t }

/-- The delivery in state `w2` does what it should, where the first one started
in `w`: it returns, there is one payment row, the row of the subscription is as
one complete handling at that time leaves it, and the email is in the queue. -/
structure Retried (id : StripeId) (invoice : Invoice) (w w2 : World) : Prop where
  returns : ((handle_event (.invoice_payment_succeeded invoice)).run w2).1 = .ok ()
  payment : (((handle_event (.invoice_payment_succeeded invoice)).run w2).2.payments_of
    invoice.id).length = 1
  row : (((handle_event (.invoice_payment_succeeded invoice)).run w2).2.row_of id).map (·.val) =
    (((handle_event (.invoice_payment_succeeded invoice)).run (w.at_time w2.clock)).2.row_of
      id).map (·.val)
  email : ∃ r, ((handle_event (.invoice_payment_succeeded invoice)).run w2).2.row_of id = some r ∧
    ((handle_event (.invoice_payment_succeeded invoice)).run w2).2.Notified
      invoice.billing_reason r

/-- The payment of the invoice fits its columns and none is stored yet, the row can be
renewed or made, and the first delivery has not made it (or Stripe's period is this very
instant). -/
structure Repeatable (u : UUID) (id : StripeId) (item : SubscriptionItem) (invoice : Invoice)
    (w w2 : World) : Prop where
  payment : w2.payments_of invoice.id = []
  fits : invoice.FitsColumns
  renewable : w2.Renewable u id
  row : w.row_of id = none → w2.row_of id = none ∨
    fromtimestamp item.current_period_start = w2.clock ∧
      fromtimestamp item.current_period_end = w2.clock

section

variable {u p : UUID} {id : StripeId} {S : Row StripeSubscription} {item : SubscriptionItem}
  {w w2 : World}

/-- Access at a later time is access now, so no more rows have it. -/
theorem World.access_rows_length {t t' : Time} (w : World) (u : UUID) (ht : t ≤ t') :
    (w.access_rows u t').length ≤ (w.access_rows u t).length := by
  unfold access_rows Table.select
  rw [← List.countP_eq_length_filter, ← List.countP_eq_length_filter]
  apply List.countP_mono_left
  intro r _ hr
  rw [Bool.and_eq_true] at hr ⊢
  exact ⟨hr.1, Subscription.grants_access_earlier hr.2 ht⟩

/-- Where `w2` is on from `w`: the first delivery was cut before the renewal or
after it, and others have gone on. -/
structure Interrupted (u p : UUID) (id : StripeId) (S : Row StripeSubscription)
    (item : SubscriptionItem) (w w2 : World) : Prop where
  good : Good w2
  stripe : w2.stripe.subscriptions.byId id = some S
  grows : w.Grows w2
  row : (w2.row_of id = w.row_of id ∧
      (w2.access_rows u w2.clock).Perm (w.access_rows u w2.clock)) ∨
    (w.Renewable u id ∧ (w2.row_of id).map (·.val) =
      some (renewed_row u p id S.val.customer item w.clock ((w.row_of id).map (·.val))))

theorem paid_invoice.interrupted {user_repo : UserRepo} {items : List SubscriptionItem}
    {invoice : Invoice} {w1 : World} {ls : List Label} (hg : Good w)
    (hS : w.stripe.subscriptions.byId id = some S) (hn : w.Names u S.val.metadata)
    (hp : S.val.metadata.plan_id = some (.ofUuid p)) (hi : S.val.items = item :: items)
    (hinv : invoice.subscription = some id)
    (hcut : w1 ∈ (handle_event (.invoice_payment_succeeded invoice)).trace w)
    (helse : (billing user_repo).Run (Elsewhere u) w1 ls w2) :
    Interrupted u p id S item w w2 := by
  have hu := World.owner_eq hS hn.user
  rcases paid_invoice.cut hg hS hn hp hi hinv hcut with rfl | ⟨hren, r, w', hw', hq⟩
  · obtain ⟨hg2, hgr2⟩ := run_good hg helse
    have hf := run_frame hg helse
    exact ⟨hg2, hf.stripe id S hS hu, hgr2, Or.inl ⟨hf.row_of hu hg2 hgr2, hf.access_rows _⟩⟩
  · have hg1 := hw'.good.quiet hq
    have hgr1 := hw'.grows.trans hq.grows
    have hS1 : w1.stripe.subscriptions.byId id = some S := by rw [hq.stripe, hw'.stripe, hS]
    obtain ⟨hg2, hgr2⟩ := run_good hg1 helse
    have hf := run_frame hg1 helse
    have hu1 := hgr1.owner hu
    refine ⟨hg2, hf.stripe id S hS1 hu1, hgr1.trans hgr2, Or.inr ⟨hren, ?_⟩⟩
    rw [hf.row_of hu1 hg2 hgr2, World.row_of_congr hq.subscriptions, hw'.row, Option.map_some,
      hw'.val]

/-- The second delivery leaves the row of one complete handling exactly when the
first one has made no row of its own (or one for this very instant). -/
theorem Interrupted.same_row (h : Interrupted u p id S item w w2) (hren : w2.Renewable u id) :
    some (renewed_row u p id S.val.customer item w2.clock ((w2.row_of id).map (·.val))) =
      (if (w.at_time w2.clock).Renewable u id then
        some (renewed_row u p id S.val.customer item w2.clock ((w.row_of id).map (·.val)))
      else none) ↔
    (w.row_of id = none → w2.row_of id = none ∨
      fromtimestamp item.current_period_start = w2.clock ∧
        fromtimestamp item.current_period_end = w2.clock) := by
  rcases hrow : w.row_of id with _ | v
  · rcases h.row with ⟨hrow2, hperm⟩ | ⟨hrenw, hrow2⟩
    · -- cut before the renewal: the second delivery makes the row
      rw [hrow] at hrow2
      have hone := hren.resolve_left fun h => h hrow2
      rw [hperm.length_eq] at hone
      have hrenc : (w.at_time w2.clock).Renewable u id := Or.inr hone
      rw [if_pos hrenc, hrow2]
      simp
    · -- cut after it: the second delivery gives the new row Stripe's period
      have hone := hrenw.resolve_left fun h => h hrow
      have hrenc : (w.at_time w2.clock).Renewable u id :=
        Or.inr (Nat.le_trans (w.access_rows_length u h.grows.clock) hone)
      have hsome : w2.row_of id ≠ none := by
        intro hnone
        rw [hnone] at hrow2
        cases hrow2
      rw [if_pos hrenc, hrow2, hrow]
      simp only [Option.some.injEq, hsome, false_or, forall_const, Option.map_none]
      constructor
      · intro heq
        have hstart := congrArg Subscription.started_at heq
        have hend := congrArg Subscription.current_period_end heq
        exact ⟨hstart, Option.some.inj hend⟩
      · rintro ⟨hstart, hend⟩
        simp only [renewed_row, SubscriptionPatch.period, new_row, hstart, hend]
  · have hrenc : (w.at_time w2.clock).Renewable u id := by
      refine Or.inl fun hnone => ?_
      change w.row_of id = none at hnone
      rw [hrow] at hnone
      cases hnone
    refine iff_of_true ?_ fun h => by cases h
    rw [if_pos hrenc]
    rcases h.row with ⟨hrow2, _⟩ | ⟨_, hrow2⟩
    · rw [hrow2, hrow]
    · rw [hrow2, hrow]
      rfl

end

/-- A paid invoice that is delivered again after any cut of its first handling,
and after any steps of others, is handled well exactly when it is repeatable. -/
theorem paid_invoice_retry {user_repo : UserRepo} {u : UUID} {id : StripeId}
    {S : Row StripeSubscription} {item : SubscriptionItem} {invoice : Invoice}
    {w w1 w2 : World} {ls : List Label} (hw : (billing user_repo).Reachable Initial w)
    (hS : w.stripe.subscriptions.byId id = some S) (hu : w.owner id = some u)
    (hitem : S.val.items.head? = some item) (hinv : invoice.subscription = some id)
    (hcut : w1 ∈ (handle_event (.invoice_payment_succeeded invoice)).trace w)
    (helse : (billing user_repo).Run (Elsewhere u) w1 ls w2) :
    Retried id invoice w w2 ↔ Repeatable u id item invoice w w2 := by
  have hg := billing_good hw
  obtain ⟨items, hi⟩ := List.head?_eq_some_iff.mp hitem
  obtain ⟨_, u', hn⟩ := hg.stripe S (Table.byId_eq_some.mp hS).1
  rw [World.owner_eq hS hn.user, Option.some.injEq] at hu
  subst hu
  obtain ⟨p, hp, _⟩ := hn.plan
  have h2 := paid_invoice.interrupted hg hS hn hp hi hinv hcut helse
  obtain ⟨hbad, hdo⟩ := paid_invoice.spec h2.good h2.stripe (hn.grows h2.grows) hp hi hinv
  -- one complete handling at the time of the second delivery
  have hgc : Good (w.at_time w2.clock) := by
    obtain ⟨d, hd⟩ := Nat.exists_eq_add_of_le h2.grows.clock
    rw [hd]
    exact hg.change (@Change.tick (.tick d) w w d)
  have hnc : (w.at_time w2.clock).Names u' S.val.metadata :=
    ⟨hn.user, hn.has_user, hn.plan, hn.upgrade⟩
  have hrowc := paid_invoice.row hgc hS hnc hp hi hinv
  have hrow2 := paid_invoice.row h2.good h2.stripe (hn.grows h2.grows) hp hi hinv
  constructor
  · rintro ⟨hret, _, hrow, _⟩
    have hren : w2.Renewable u' id := by
      by_contra h
      obtain ⟨e, he⟩ := hbad h
      rw [he] at hret
      cases hret
    obtain ⟨_, _, _, hpaid, _⟩ := hdo hren
    rw [hrow2, hrowc, if_pos hren] at hrow
    have hpay : w2.Payable invoice := by
      by_contra hno
      exact hpaid hno hret
    exact ⟨hpay.2, hpay.1, hren, (h2.same_row hren).mp hrow⟩
  · rintro ⟨hpay, hfits, hren, hrow⟩
    obtain ⟨r2, hr2, _, _, hgood⟩ := hdo hren
    obtain ⟨hret, hone, hmail⟩ := hgood ⟨hfits, hpay⟩
    refine ⟨hret, hone, ?_, r2, hr2, hmail⟩
    rw [hrow2, hrowc, if_pos hren]
    exact (h2.same_row hren).mpr hrow

namespace Sample

theorem begun_reachable : (billing .user).Reachable Initial begun :=
  ⟨world, _, world_initial, .of_path (by decide)⟩

/-- The handling of her first invoice. -/
def first_invoice : M Unit :=
  handle_event (.invoice_payment_succeeded (invoice 0 0 .subscription_create))

end Sample

open Sample in
/-- The process dies after the new period is stored and before the payment is. -/
theorem paid_invoice_retry_sample :
    Retried 0 (invoice 0 0 .subscription_create) begun (first_invoice.cut 4 begun) := by
  have hcut := cut_mem_trace 4 first_invoice begun
  refine (paid_invoice_retry (u := 0) (S := ⟨0, sold_to_ann⟩) begun_reachable (by decide)
    (by decide) rfl rfl hcut (.nil _)).mpr ⟨by decide, by decide, by decide, fun h => ?_⟩
  revert h
  decide

open Sample in
/-- The invoice was handled to its end, and the answer got lost: the second
delivery fails on the unique invoice id, as will every later one. -/
theorem acknowledged_invoice_fails_again : ∃ w w1,
    (billing .user).Reachable Initial w ∧
    w1 ∈ first_invoice.trace w ∧
    (first_invoice.run w1).1 = .error .integrityError ∧
    ¬ Retried 0 (invoice 0 0 .subscription_create) w w1 := by
  have hfail : (first_invoice.run (first_invoice.run begun).2).1 = .error .integrityError := by
    decide
  refine ⟨begun, (first_invoice.run begun).2, begun_reachable, end_mem_trace _ _, hfail, ?_⟩
  intro h
  have hret := h.returns
  change (first_invoice.run (first_invoice.run begun).2).1 = .ok () at hret
  rw [hfail] at hret
  cases hret

end saas
