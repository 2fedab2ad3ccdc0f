-- The payments table as a ledger: each row is of a paid invoice that Stripe
-- delivered, and every delivery that was acknowledged has its row.
import SaasBackend.Retry

open relational async

namespace saas

open Proc SubscriptionRepoistory StripeGateway SubscriptionService

/-! ## The rows of an invoice -/

/-- The payment row is of the invoice: its amount and its currency, for the
subscription that the first line names, of the same user. -/
structure World.Books (w : World) (invoice : Invoice) (p : Row Payment) : Prop where
  provider : p.val.provider = .STRIPE
  invoice_id : p.val.provider_invoice_id = invoice.id
  amount : p.val.amount_cents = invoice.amount_paid
  currency : p.val.currency = StripeGateway.upper ((invoice.currency.filter (· ≠ "")).getD "usd")
  subscription : ∃ id s, invoice.subscription = some id ∧ w.row_of id = some s ∧
    p.val.subscription_id = some s.id ∧ p.val.user_id = s.val.user_id

section

variable {l : Label} {w₀ w w' : World} {invoice : Invoice} {p : Row Payment}

theorem World.Books.grows (h : w.Books invoice p) (hg : w.Grows w') : w'.Books invoice p where
  provider := h.provider
  invoice_id := h.invoice_id
  amount := h.amount
  currency := h.currency
  subscription := by
    obtain ⟨id, s, hid, hs, hsub, hu⟩ := h.subscription
    obtain ⟨s', hs', hi, hu', _⟩ := hg.row_of hs
    exact ⟨id, s', hid, hs', by rw [hsub, hi], by rw [hu, hu']⟩

theorem World.Books.of_insert {id : StripeId} {s : Row Subscription} {db : Db}
    (hid : invoice.subscription = some id) (hs : w.row_of id = some s)
    (hdb : w.db.insert_payment (invoice_payment invoice s) = .ok (p, db)) :
    World.Books { w with db := db } invoice p := by
  obtain ⟨hp, _, _, hsubs, _⟩ := Db.insert_payment_ok hdb
  have hs' : World.row_of { w with db := db } id = some s := by rwa [World.row_of_congr hsubs]
  rw [hp]
  exact ⟨rfl, rfl, rfl, rfl, id, s, hid, hs', rfl, rfl⟩

/-- No effect takes a payment away, and a new one is of the delivered invoice. -/
theorem Effect.payments (h : Effect l w₀ w w') :
    (∀ p ∈ w.db.payments.rows, p ∈ w'.db.payments.rows) ∧
      ∀ p ∈ w'.db.payments.rows, p ∈ w.db.payments.rows ∨ ∃ invoice,
        l.event = some (.invoice_payment_succeeded invoice) ∧ w'.Books invoice p := by
  have hsame : w'.db.payments = w.db.payments → _ := fun heq =>
    (⟨fun p hp => by rwa [heq], fun p hp => Or.inl (by rwa [← heq])⟩ :
      (∀ p ∈ w.db.payments.rows, p ∈ w'.db.payments.rows) ∧
        ∀ p ∈ w'.db.payments.rows, p ∈ w.db.payments.rows ∨ ∃ invoice,
          l.event = some (.invoice_payment_succeeded invoice) ∧ w'.Books invoice p)
  cases h with
  | customer => exact hsame rfl
  | store_customer => exact hsame rfl
  | open_session => exact hsame rfl
  | status => exact hsame rfl
  | period => exact hsame rfl
  | cancel => exact hsame rfl
  | past_due => exact hsame rfl
  | @create _ _ _ _ _ _ _ _ old _ _ _ _ _ _ _ _ _ _ _ hdb _ =>
    obtain ⟨_, _, _, _, _, _, hpay⟩ := Db.insert_subscription_ok hdb
    have hold : (w.demote old).db.payments = w.db.payments := by cases old <;> rfl
    exact hsame (hpay.trans hold)
  | @record invoice id sub r db hl hid hr hdb hwho =>
    obtain ⟨_, _, hrows, _⟩ := Db.insert_payment_ok hdb
    refine ⟨fun p hp => by simp [hrows, hp], fun p hp => ?_⟩
    simp only [hrows, List.mem_append, List.mem_singleton] at hp
    rcases hp with hp | rfl
    · exact Or.inl hp
    · exact Or.inr ⟨invoice, hl, .of_insert hid hr hdb⟩
  | enqueue => exact hsame rfl
  | tick => exact hsame rfl
  | pay => exact hsame rfl
  | bill => exact hsame rfl
  | stop => exact hsame rfl

theorem Effects.payments (h : Effects l w₀ w) :
    (∀ p ∈ w₀.db.payments.rows, p ∈ w.db.payments.rows) ∧
      ∀ p ∈ w.db.payments.rows, p ∈ w₀.db.payments.rows ∨ ∃ invoice,
        l.event = some (.invoice_payment_succeeded invoice) ∧ w.Books invoice p := by
  induction h with
  | refl => exact ⟨fun p hp => hp, fun p hp => Or.inl hp⟩
  | tail _ hstep ih =>
    obtain ⟨hkeep, hnew⟩ := ih
    obtain ⟨hkeep', hnew'⟩ := hstep.payments
    refine ⟨fun p hp => hkeep' p (hkeep p hp), fun p hp => ?_⟩
    rcases hnew' p hp with h1 | h1
    · rcases hnew p h1 with h2 | ⟨invoice, hl, hb⟩
      · exact Or.inl h2
      · exact Or.inr ⟨invoice, hl, hb.grows hstep.change.grows⟩
    · exact Or.inr h1

theorem paid_invoice.booked (hg : Good w)
    (hok : ((handle_event (.invoice_payment_succeeded invoice)).run w).1 = .ok ()) :
    ∃ p ∈ ((handle_event (.invoice_payment_succeeded invoice)).run w).2.db.payments.rows,
      World.Books ((handle_event (.invoice_payment_succeeded invoice)).run w).2 invoice p := by
  rcases hrun : (handle_event (.invoice_payment_succeeded invoice)).run w with ⟨x, w3⟩
  rw [hrun] at hok
  subst hok
  obtain ⟨sub, w1, h1, hrest⟩ := run_bind_ok_inv hrun
  obtain ⟨_, w2, h2, h3⟩ := run_bind_ok_inv hrest
  obtain ⟨_, _, hfound⟩ := handle_invoice_payment_succeeded.along
    (l := .serve (.webhook (.invoice_payment_succeeded invoice)) none) hg rfl
  rw [h1] at hfound
  cases sub with
  | none => cases h2
  | some s =>
    obtain ⟨id, hid, hrow, _⟩ := hfound s rfl
    rw [record_invoice_payment.run_some] at h2
    rcases hdb : w1.db.insert_payment (invoice_payment invoice s) with e | ⟨p, db⟩
    · rw [hdb] at h2
      cases h2
    · rw [hdb] at h2
      cases h2
      obtain ⟨_, _, hrows, hsubs, _⟩ := Db.insert_payment_ok hdb
      have hb := World.Books.of_insert hid hrow hdb
      obtain ⟨w', hsend, hw', _⟩ := send_payment_email.spec (w := { w1 with db := db })
        invoice.billing_reason (r := s)
        (by simpa only [hsubs] using (World.row_of_eq_some.mp hrow).1)
      change (send_payment_email invoice.billing_reason (some s)).run _ = _ at h3
      rw [hsend] at h3
      cases h3
      refine ⟨p, by simp [hw', hrows], hb.provider, hb.invoice_id, hb.amount, hb.currency, ?_⟩
      obtain ⟨id', s', hid', hs', hrest'⟩ := hb.subscription
      exact ⟨id', s', hid', by rwa [World.row_of_congr (congrArg Db.subscriptions hw')], hrest'⟩

end

/-! ## The ledger -/

theorem run_payments {user_repo : UserRepo} {C : World → Label → Prop} {w w' : World}
    {ls : List Label} (hg : Good w) (h : (billing user_repo).Run C w ls w') {p : Row Payment}
    (hp : p ∈ w.db.payments.rows) : p ∈ w'.db.payments.rows := by
  have hboth : Good w' ∧ p ∈ w'.db.payments.rows := by
    apply h.invariant (I := fun t => Good t ∧ p ∈ t.db.payments.rows) ⟨hg, hp⟩
    rintro t l ⟨hgt, hpt⟩ he _
    have heff := billing_effects hgt he
    exact ⟨heff.good hgt, heff.payments.1 p hpt⟩
  exact hboth.2

/-- After any deliveries, whatever else came and wherever a handler died: one
row for each invoice at most, all of them of delivered invoices, with a row for
each delivery that returned; and no subscription changes its user. -/
theorem payments_are_the_ledger {user_repo : UserRepo} {w₀ w : World} {ls : List Label}
    (h0 : Initial w₀) (hrun : (billing user_repo).Run (fun _ _ => True) w₀ ls w) :
    (∀ p ∈ w.db.payments.rows, ∀ p' ∈ w.db.payments.rows,
      p.val.provider_invoice_id = p'.val.provider_invoice_id → p = p') ∧
    (∀ p ∈ w.db.payments.rows, ∃ v l invoice,
      (billing user_repo).Took (fun _ _ => True) w₀ ls w v l ∧
        l.event = some (.invoice_payment_succeeded invoice) ∧ w.Books invoice p) ∧
    (∀ v invoice, (billing user_repo).Took (fun _ _ => True) w₀ ls w v
        (.serve (.webhook (.invoice_payment_succeeded invoice)) none) →
      ((handle_event (.invoice_payment_succeeded invoice)).run v).1 = .ok () →
        ∃ p ∈ w.db.payments.rows, w.Books invoice p) ∧
    (∀ v l, (billing user_repo).Took (fun _ _ => True) w₀ ls w v l →
      ∀ s ∈ v.db.subscriptions.rows, ∀ s' ∈ w.db.subscriptions.rows, s'.id = s.id →
        s'.val.user_id = s.val.user_id) := by
  have hbooks : ∀ p ∈ w.db.payments.rows, ∃ v l invoice,
      (billing user_repo).Took (fun _ _ => True) w₀ ls w v l ∧
        l.event = some (.invoice_payment_succeeded invoice) ∧ w.Books invoice p := by
    intro p hp
    have hstart : p ∉ w₀.db.payments.rows := by simp [h0.payments]
    obtain ⟨v, l, htook, hnot, hthere⟩ :=
      hrun.origin (P := fun v => p ∈ v.db.payments.rows) hstart hp
    obtain ⟨before, after, _, hbefore, hen, _, hafter⟩ := id htook
    have hg := (run_good h0.good hbefore).1
    have heff := billing_effects hg hen
    rcases heff.payments.2 p hthere with h1 | ⟨invoice, hl, hb⟩
    · exact absurd h1 hnot
    · exact ⟨v, l, invoice, htook, hl, hb.grows (run_good (heff.good hg) hafter).2⟩
  refine ⟨?_, hbooks, ?_, ?_⟩
  · intro p hp p' hp' hid
    obtain ⟨_, _, _, _, _, hb⟩ := hbooks p hp
    obtain ⟨_, _, _, _, _, hb'⟩ := hbooks p' hp'
    refine Table.eq_of_key (k := (PaymentProvider.STRIPE, p.val.provider_invoice_id)) hp hp' ?_ ?_
    · simp [Keyed.keys, hb.provider]
    · simp [Keyed.keys, hb'.provider, hid]
  · rintro v invoice ⟨before, after, _, hbefore, hen, _, hafter⟩ hok
    have hg := (run_good h0.good hbefore).1
    have hg' := (billing_effects hg hen).good hg
    obtain ⟨p, hp, hb⟩ := paid_invoice.booked hg hok
    exact ⟨p, run_payments hg' hafter hp, hb.grows (run_good hg' hafter).2⟩
  · rintro v l ⟨before, after, _, hbefore, hen, _, hafter⟩ s hs s' hs' hid
    have hg := (run_good h0.good hbefore).1
    have heff := billing_effects hg hen
    have hgrows := heff.grows.trans (run_good (heff.good hg) hafter).2
    obtain ⟨s₁, hs₁, hid₁, hu, _⟩ := hgrows.rows s hs
    rw [Table.eq_of_id hs' hs₁ (hid.trans hid₁.symm), hu]

namespace Sample

/-- Ann buys and pays, and Stripe delivers the invoice twice. -/
def paid_twice : List Label :=
  [subscribe "pro", .pay 0 [⟨900, 2000⟩], checkout 0, paid 0 0, paid 0 0]

end Sample

open Sample in
/-- The one payment row is of a delivered invoice. -/
theorem payments_are_the_ledger_sample :
    ((billing .user).exec world paid_twice).db.payments.rows.length = 1 ∧
    ∀ p ∈ ((billing .user).exec world paid_twice).db.payments.rows, ∃ v l invoice,
      (billing .user).Took (fun _ _ => True) world paid_twice
        ((billing .user).exec world paid_twice) v l ∧
      l.event = some (.invoice_payment_succeeded invoice) ∧
      ((billing .user).exec world paid_twice).Books invoice p :=
  ⟨by decide, (payments_are_the_ledger world_initial (.of_path (by decide))).2.1⟩

end saas
