-- An invoice that Stripe first failed and then managed to collect: its two
-- events come in either order, among events about other subscriptions. The row
-- ends as paid when the failure is handled first and nothing displaces the row
-- afterwards, and only then.
import SaasBackend.Purchase
import SaasBackend.UpgradeRetry

open relational async

namespace saas

open Proc SubscriptionRepoistory StripeGateway SubscriptionService

/-! ## Steps about other subscriptions -/

/-- The event that the payment of an invoice failed, delivered and handled to its end. -/
def failed_of (invoice : Invoice) : Label :=
  .serve (.webhook (.invoice_payment_failed invoice)) none

/-- A step that is not about the subscription: an event about another one, a
request other than the cancel request of its owner, or what happens elsewhere at
Stripe. -/
def Apart (id : StripeId) (w : World) : Label → Prop
  | .serve (.webhook e) dies_after => e.subscription ≠ some id ∧ dies_after = none
  | .serve (.cancel u) _ => w.owner id ≠ some u
  | .bill i _ _ _ => i ≠ id
  | _ => True

/-- The subscription that a checkout upgrades from and cancels: Stripe has not
canceled it yet. -/
def World.upgrades (w : World) (e : Event) : Option StripeId :=
  match w.subject e with
  | some (_, _, some old) => if w.stripe.statusOf old = some .canceled then none else some old
  | _ => none

/-- The event is about a subscription that takes the place of `id`: the checkout
of an upgrade from it, or the event that makes the row of a new one while the row
of `id` is the only other row of the user with access. -/
def World.Displaces (w : World) (id : StripeId) (l : Label) : Prop :=
  match l.event with
  | some e => w.upgrades e = some id ∨
      (w.demoted e).bind (fun o => o.val.provider_subscription_id) = some id
  | none => False

instance (id : StripeId) (w : World) : ∀ l, Decidable (Apart id w l)
  | .serve (.webhook e) dies_after =>
    inferInstanceAs (Decidable (e.subscription ≠ some id ∧ dies_after = none))
  | .serve (.cancel u) _ => inferInstanceAs (Decidable (w.owner id ≠ some u))
  | .bill i _ _ _ => inferInstanceAs (Decidable (i ≠ id))
  | .serve (.subscribe _ _) _ => isTrue trivial
  | .serve (.upgrade _ _) _ => isTrue trivial
  | .tick _ => isTrue trivial
  | .pay _ _ => isTrue trivial
  | .stop _ => isTrue trivial

instance (w : World) (id : StripeId) (l : Label) : Decidable (w.Displaces id l) := by
  unfold World.Displaces
  split <;> infer_instance

section

variable {l : Label} {id : StripeId} {w₀ w w' : World} {r : Row Subscription}

theorem Apart.event {e : Event} (h : Apart id w l) (hl : l.event = some e) :
    e.subscription ≠ some id := by
  obtain ⟨_, rfl⟩ := Label.serves_event hl
  exact h.1

theorem World.row_of_insert {s : Subscription} {r' : Row Subscription} {db : Db}
    (h : w.db.insert_subscription s = .ok (r', db)) (hr : w.row_of id = some r) :
    World.row_of { w with db := db } id = some r := by
  obtain ⟨_, _, hrows, _⟩ := Db.insert_subscription_ok h
  obtain ⟨hmem, hp, hps⟩ := World.row_of_eq_some.mp hr
  exact World.row_of_eq_some.mpr ⟨by simp [hrows, hmem], hp, hps⟩

theorem World.row_of_demote {old : Option (Row Subscription)}
    (hold : ∀ o, old = some o → o ∈ w.db.subscriptions.rows) (hr : w.row_of id = some r) :
    (w.demote old).row_of id = some r ∨ ∃ o, old = some o ∧
      o.val.provider_subscription_id = some id ∧
      (w.demote old).row_of id = some ⟨r.id, SubscriptionPatch.demote.apply r.val⟩ := by
  rcases old with _ | o
  · exact Or.inl hr
  · have ho := hold o rfl
    by_cases hid : o.val.provider_subscription_id = some id
    · obtain ⟨hmem, _, hps⟩ := World.row_of_eq_some.mp hr
      have hor : o = r := Table.eq_of_key (k := id) ho hmem (by simp [Keyed.keys, hid])
        (by simp [Keyed.keys, hps])
      subst hor
      exact Or.inr ⟨o, rfl, hid, World.row_of_patch .demote hr⟩
    · exact Or.inl ((World.row_of_patch_other .demote ho hid).trans hr)

/-- What one effect of a step apart does to the row: nothing, or the step displaces it. -/
theorem Effect.apart (h : Effect l w₀ w w') (hg : Good w₀) (hl : Apart id w₀ l)
    (hr : w.row_of id = some r) : w'.row_of id = some r ∨
      w₀.Displaces id l ∧ ∃ r', w'.row_of id = some r' ∧ r'.val.status = .CANCELED := by
  cases h with
  | @period invoice i r' S item items hev hid hw hr' hS hi hwho =>
    refine Or.inl (World.row_of_patch_apart _ hr ?_ hr')
    rintro rfl
    exact hl.event hev hid
  | @past_due invoice i r' hev hid hr' hc hwho =>
    refine Or.inl (World.row_of_patch_apart _ hr ?_ hr')
    rintro rfl
    exact hl.event hev hid
  | @cancel i r' stop at_ hr' hst hwhy hwho =>
    by_cases hne : i = id
    · subst hne
      rw [hr, Option.some.injEq] at hr'
      subst hr'
      refine Or.inr ⟨?_, _, World.row_of_patch _ hr, rfl⟩
      cases hwhy with
      | request hreq hw hr₀ =>
        subst hreq
        exact absurd (hg.owner hr₀) hl
      | deletion hev hw hid => exact absurd hid (hl.event hev)
      | upgrade hev hw hsubj hlive =>
        unfold World.Displaces World.upgrades
        rw [hev]
        simp [hsubj, hlive]
    · exact Or.inl (World.row_of_patch_apart _ hr hne hr')
  | @create e i u p c up st S old r' db hev hsubj hst hnone hS hn hp hold hdem hdb hwho =>
    have hmem : ∀ o, old = some o → o ∈ w.db.subscriptions.rows := by
      rintro o rfl
      exact (access_found hold).2.1
    rcases World.row_of_demote hmem hr with h1 | ⟨o, ho, hoid, h1⟩
    · exact Or.inl (World.row_of_insert hdb h1)
    · refine Or.inr ⟨?_, _, World.row_of_insert hdb h1, rfl⟩
      unfold World.Displaces
      rw [hev]
      simp [(hdem o ho).1, hoid]
  | record _ _ _ hdb _ =>
    obtain ⟨_, _, _, hsubs, _⟩ := Db.insert_payment_ok hdb
    exact Or.inl (by rw [World.row_of_congr hsubs, hr])
  | customer => exact Or.inl hr
  | store_customer => exact Or.inl hr
  | open_session => exact Or.inl hr
  | status => exact Or.inl hr
  | enqueue => exact Or.inl hr
  | tick => exact Or.inl hr
  | pay => exact Or.inl hr
  | bill => exact Or.inl hr
  | stop => exact Or.inl hr

theorem Effects.apart (h : Effects l w₀ w) (hg : Good w₀) (hl : Apart id w₀ l)
    (hr : w₀.row_of id = some r) : w.row_of id = some r ∨
      w₀.Displaces id l ∧ ∃ r', w.row_of id = some r' ∧ r'.val.status = .CANCELED := by
  induction h with
  | refl => exact Or.inl hr
  | tail _ hstep ih =>
    rcases ih with h1 | ⟨hd, r', h1, hc⟩
    · exact hstep.apart hg hl h1
    · rcases hstep.apart hg hl h1 with h2 | ⟨_, h2⟩
      · exact Or.inr ⟨hd, r', h2, hc⟩
      · exact Or.inr ⟨hd, h2⟩

theorem Effect.items {S : Row StripeSubscription} (h : Effect l w₀ w w')
    (hl : ∀ items canceled_at period_end, l ≠ .bill id items canceled_at period_end)
    (hS : w.stripe.subscriptions.byId id = some S) :
    ∃ S', w'.stripe.subscriptions.byId id = some S' ∧ S'.val.items = S.val.items := by
  obtain ⟨S', hS', ⟨st, hst⟩ | ⟨items, ca, pe, hbill, _⟩⟩ := h.at_stripe hS
  · refine ⟨S', hS', ?_⟩
    rw [hst]
    rfl
  · exact absurd hbill (hl items ca pe)

theorem Effects.items {S : Row StripeSubscription} (h : Effects l w₀ w)
    (hl : ∀ items canceled_at period_end, l ≠ .bill id items canceled_at period_end)
    (hS : w₀.stripe.subscriptions.byId id = some S) :
    ∃ S', w.stripe.subscriptions.byId id = some S' ∧ S'.val.items = S.val.items := by
  induction h with
  | refl => exact ⟨S, hS, rfl⟩
  | tail _ hstep ih =>
    obtain ⟨S', hS', hi⟩ := ih
    obtain ⟨S'', hS'', hi'⟩ := hstep.items hl hS'
    exact ⟨S'', hS'', hi'.trans hi⟩

/-! ## A displaced row is canceled -/

/-- The row of the subscription is canceled. -/
def World.CanceledRow (w : World) (id : StripeId) : Prop :=
  ∃ r, w.row_of id = some r ∧ r.val.status = .CANCELED

theorem create_subscription.keeps_canceled (u p : UUID) (i c : Option StripeId)
    (st : SubscriptionStatus) (h : w.CanceledRow id) :
    ((create_subscription u p .STRIPE i c st).run w).2.CanceledRow id := by
  obtain ⟨r, hr, hc⟩ := h
  rw [create_subscription.spec]
  rcases hold : scalar_one_or_none (w.access_rows u w.clock) with e | old
  · exact ⟨r, hr, hc⟩
  · simp only
    rcases hdb : (w.demote old).db.insert_subscription (new_row u p i c st w.clock) with
      e | ⟨r', db⟩
    · exact ⟨r, hr, hc⟩
    · have hmem : ∀ o, old = some o → o ∈ w.db.subscriptions.rows := by
        rintro o rfl
        exact (access_found hold).2.1
      rcases World.row_of_demote hmem hr with h1 | ⟨_, _, _, h1⟩
      · exact ⟨r, World.row_of_insert hdb h1, hc⟩
      · exact ⟨_, World.row_of_insert hdb h1, rfl⟩

theorem find_or_create.keeps_canceled (i : StripeId) (ref c : Option UuidText)
    (customer : Option StripeId) (h : w.CanceledRow id) :
    ((find_or_create ⟨ref, some i, customer⟩ c).run w).2.CanceledRow id := by
  rw [find_or_create.spec]
  rcases w.row_of i with _ | r
  · rcases UUID.parse ref with e | u
    · exact h
    · rcases UUID.parse c with e | p
      · exact h
      · exact create_subscription.keeps_canceled u p _ _ _ h
  · exact h

/-- The only other row with access is demoted when a new one is made. -/
theorem Good.create_demotes {i : StripeId} {S : Row StripeSubscription} {u p : UUID}
    {o : Row Subscription} (hg : Good w) (hnone : w.row_of i = none)
    (hS : w.stripe.subscriptions.byId i = some S) (hn : w.Names u S.val.metadata)
    (hp : S.val.metadata.plan_id = some (.ofUuid p)) (ho : w.access_rows u w.clock = [o])
    (hid : o.val.provider_subscription_id = some id) (c : Option StripeId)
    (st : SubscriptionStatus) :
    ∃ r w', (create_subscription u p .STRIPE (some i) c st).run w = (.ok r, w') ∧
      w'.CanceledRow id := by
  have hold : scalar_one_or_none (w.access_rows u w.clock) = .ok (some o) := by
    rw [ho]
    rfl
  have hmem : o ∈ w.db.subscriptions.rows := (access_found hold).2.1
  have hrow : w.row_of id = some o := World.row_of_eq_some.mpr ⟨hmem, (hg.rows o hmem).1, hid⟩
  obtain ⟨r, w', hrun, hmade⟩ := hg.create hnone hS hn hp hold c st
  refine ⟨r, w', hrun, ⟨o.id, SubscriptionPatch.demote.apply o.val⟩, ?_, rfl⟩
  obtain ⟨hmem', hpr', hps'⟩ := World.row_of_eq_some.mp (World.row_of_patch .demote hrow)
  refine World.row_of_eq_some.mpr ⟨?_, hpr', hps'⟩
  rw [hmade.rows]
  exact List.mem_append_left _ hmem'

theorem access_end_upgraded {old : StripeId} {u : UUID} {ro o : Row Subscription}
    (hr : w.row_of old = some ro) (ho : w.others u (some old) = [o]) :
    (w.end_upgraded old).access_rows u (w.end_upgraded old).clock = [o] := by
  rw [clock_end_upgraded]
  refine Table.select_eq_of_mem ?_ fun r' hr' => ?_
  · exact (mem_access_end_upgraded hr).mpr (by simp [ho])
  · have h := (mem_access_end_upgraded hr).mp hr'
    rwa [ho, List.mem_singleton] at h

/-- What an event that is no upgrade displaces: it makes a row, and the other row
of the user with access is `id`. -/
theorem displaced_by_new {e : Event} {i : StripeId} {u : UUID} (hg : Good w)
    (hsubj : w.subject e = some (i, u, none))
    (hd : w.upgrades e = some id ∨
      (w.demoted e).bind (fun o => o.val.provider_subscription_id) = some id) :
    w.row_of i = none ∧ ∃ o, w.access_rows u w.clock = [o] ∧
      o.val.provider_subscription_id = some id := by
  unfold World.upgrades World.demoted at hd
  simp only [hsubj, reduceCtorEq, false_or, Option.mem_def, IsEmpty.forall_iff, implies_true,
    and_true] at hd
  split at hd
  · rename_i hnone
    split at hd
    · rename_i o ho
      rw [hg.others_none] at ho
      exact ⟨hnone, o, ho, hd⟩
    · cases hd
  · cases hd

theorem user_subscribe.displaces {session : SessionObject} (hg : Good w)
    (ht : w.TellsOf session) (hr : w.row_of id = some r)
    (hd : w.upgrades (.checkout_session_completed session) = some id ∨
      (w.demoted (.checkout_session_completed session)).bind
        (fun o => o.val.provider_subscription_id) = some id) :
    ((user_subscribe session).run w).2.CanceledRow id := by
  obtain ⟨i, S, u, hsid, hS, href, hn⟩ := hg.tells ht
  obtain ⟨p, hp, _⟩ := hn.plan
  have hsubj : w.subject (.checkout_session_completed session) =
      some (i, u, S.val.metadata.upgrade_from_subscription_id) := by
    simp [World.subject, hsid, href, hS]
  have hrun := (user_subscribe.after_reads hsid hS hn).1
  obtain ⟨ref, sub, customer⟩ := session
  simp only at hsid href
  subst hsid href
  rw [hrun]
  rcases hup : S.val.metadata.upgrade_from_subscription_id with _ | old
  · -- no upgrade: the row is demoted
    rw [hup] at hsubj
    obtain ⟨hnone, o, ho, hid⟩ := displaced_by_new hg hsubj hd
    obtain ⟨r', w', hcreate, hc⟩ := hg.create_demotes hnone hS hn hp ho hid customer .PAST_DUE
    have hfind := find_or_create.spec i (some (.ofUuid u)) S.val.metadata.plan_id customer w
    simp only [hnone, hp, UUID.parse, hcreate] at hfind
    change ((find_or_create _ _).run w).2.CanceledRow id
    rw [hp, hfind]
    exact hc
  · rw [hup] at hsubj
    obtain ⟨ro, hro, _⟩ := hn.upgrade old hup
    obtain ⟨So, hSo, _⟩ := hg.of_row hro
    have hst : w.stripe.statusOf old = some So.val.status := by
      simp only [Stripe.statusOf, hSo, Option.map_some]
    have hlive : So.val.status ≠ .canceled := by
      intro hc
      unfold World.upgrades World.demoted at hd
      simp [hsubj, hst, hc] at hd
    have hcancel := cancel_upgraded.spec old w
    simp only [hSo, hlive, if_false] at hcancel
    rw [run_bind_ok hcancel]
    obtain ⟨hg1, hgr1, hrow1, r1, hr1, hc1⟩ := hg.end_upgraded i hro
    rcases hd with hd | hd
    · unfold World.upgrades at hd
      simp only [hsubj, hst, Option.some.injEq, hlive, if_false] at hd
      subst hd
      exact find_or_create.keeps_canceled _ _ _ _ ⟨r1, hr1, hc1⟩
    · unfold World.demoted at hd
      simp only [hsubj] at hd
      split at hd
      · rename_i hcond
        split at hd
        · rename_i o ho
          obtain ⟨S1, hS1, hm1, _⟩ := hgr1.stripe i S hS
          obtain ⟨r', w', hcreate, hc⟩ := hg1.create_demotes (hrow1.mpr hcond.1) hS1
            (by rw [hm1]; exact hn.grows hgr1) (by rw [hm1]; exact hp)
            (access_end_upgraded hro ho) hd customer .PAST_DUE
          have hfind := find_or_create.spec i (some (.ofUuid u)) S.val.metadata.plan_id customer
            (w.end_upgraded old)
          simp only [hrow1.mpr hcond.1, hp, UUID.parse, hcreate] at hfind
          rw [hp, hfind]
          exact hc
        · cases hd
      · cases hd

theorem paid_invoice.displaces {invoice : Invoice} (hg : Good w)
    (hd : w.upgrades (.invoice_payment_succeeded invoice) = some id ∨
      (w.demoted (.invoice_payment_succeeded invoice)).bind
        (fun o => o.val.provider_subscription_id) = some id) :
    ((handle_event (.invoice_payment_succeeded invoice)).run w).2.CanceledRow id := by
  rcases hsubj : w.subject (.invoice_payment_succeeded invoice) with _ | ⟨i, u, up⟩
  · unfold World.upgrades World.demoted at hd
    simp [hsubj] at hd
  · obtain ⟨S, hS, hinv, hu, rfl⟩ : ∃ S, w.stripe.subscriptions.byId i = some S ∧
        invoice.subscription = some i ∧ S.val.metadata.user_id = some (.ofUuid u) ∧ up = none := by
      unfold World.subject at hsubj
      simp only at hsubj
      split at hsubj
      · rename_i i' hinv
        obtain ⟨S, hS, hS'⟩ := Option.bind_eq_some_iff.mp hsubj
        split at hS'
        · rename_i v hv
          cases hS'
          exact ⟨S, hS, hinv, hv, rfl⟩
        · cases hS'
      · cases hsubj
    have hn := hg.names hS hu
    obtain ⟨p, hp, _⟩ := hn.plan
    obtain ⟨item, items, hi⟩ := List.exists_cons_of_ne_nil
      (hg.stripe S (Table.byId_eq_some.mp hS).1).1
    obtain ⟨hnone, o, ho, hid⟩ := displaced_by_new hg hsubj hd
    obtain ⟨r', w', hcreate, r1, hr1, hc1⟩ := hg.create_demotes hnone hS hn hp ho hid
      S.val.customer .ACTIVE
    have hrun := (handle_invoice_payment_succeeded.after_reads hinv hS).1
    rw [renew_or_create.spec, hi] at hrun
    simp only [hnone, hn.user, hp, UUID.parse, hcreate] at hrun
    have hrest : (handle_event (.invoice_payment_succeeded invoice)).run w =
        (record_and_notify invoice (some r')).run w' := run_bind_ok hrun _
    have hq := Acts.quiet (record_and_notify.acts invoice (some r')) w'
    rw [hrest]
    exact ⟨r1, by rw [World.row_of_congr hq.subscriptions, hr1], hc1⟩

/-- The step that displaces the row cancels it. -/
theorem displaced_is_canceled (user_repo : UserRepo) {l : Label} (hg : Good w)
    (he : (billing user_repo).enabled w l) (hl : Apart id w l) (hr : w.row_of id = some r)
    (hd : w.Displaces id l) : ((billing user_repo).next w l).CanceledRow id := by
  unfold World.Displaces at hd
  split at hd
  · rename_i e hev
    obtain ⟨dies_after, rfl⟩ := Label.serves_event hev
    obtain ⟨_, rfl⟩ := hl
    change ((handle_event e).run w).2.CanceledRow id
    cases e with
    | checkout_session_completed session =>
      have hend := user_subscribe.displaces hg he hr hd
      change (((user_subscribe session >>= fun _ => (pure () : M Unit)).run w).2).CanceledRow id
      rwa [run_discard]
    | invoice_payment_succeeded invoice => exact paid_invoice.displaces hg hd
    | invoice_payment_failed invoice =>
      exact absurd hd (by simp [World.upgrades, World.demoted, World.subject])
    | customer_subscription_deleted d =>
      exact absurd hd (by simp [World.upgrades, World.demoted, World.subject])
    | other => exact absurd hd (by simp [World.upgrades, World.demoted, World.subject])
  · exact hd.elim

end

/-! ## The two events of an invoice -/

/-- The row is active, and gives access until `b`. -/
def World.PaidUntil (w : World) (id : StripeId) (b : Time) : Prop :=
  ∃ r, w.row_of id = some r ∧ r.val.status = .ACTIVE ∧ r.val.current_period_end = some b ∧
    ∀ t < b, r ∈ w.access_rows r.val.user_id t

/-- No step apart may displace the row. -/
def Undisturbed (id : StripeId) (w : World) (l : Label) : Prop :=
  Apart id w l ∧ ¬ w.Displaces id l

instance (id : StripeId) (w : World) (l : Label) : Decidable (Undisturbed id w l) :=
  inferInstanceAs (Decidable (_ ∧ _))

section

variable {user_repo : UserRepo} {id : StripeId} {w w' : World} {ls : List Label}
  {r : Row Subscription} {b : Time}

theorem World.paid_until_of_row (hr : w.row_of id = some r) (ha : r.val.status = .ACTIVE)
    (hb : r.val.current_period_end = some b) : w.PaidUntil id b := by
  refine ⟨r, hr, ha, hb, fun t ht => World.mem_access_rows.mpr ⟨?_, rfl, ?_⟩⟩
  · exact (World.row_of_eq_some.mp hr).1
  · exact Subscription.grants_access_iff.mpr ⟨⟨b, hb, ht⟩, Or.inl ha⟩

/-- A row that is not active stays so in steps apart. -/
theorem run_apart_inactive (hg : Good w) (hrun : (billing user_repo).Run (Apart id) w ls w')
    (hr : w.row_of id = some r) (ha : r.val.status ≠ .ACTIVE) :
    ∃ r', w'.row_of id = some r' ∧ r'.val.status ≠ .ACTIVE := by
  have hboth : Good w' ∧ ∃ r', w'.row_of id = some r' ∧ r'.val.status ≠ .ACTIVE := by
    apply hrun.invariant (I := fun t => Good t ∧ ∃ r', t.row_of id = some r' ∧
      r'.val.status ≠ .ACTIVE) ⟨hg, r, hr, ha⟩
    rintro t l ⟨hgt, r', hr', ha'⟩ he hl
    have heff := billing_effects hgt he
    refine ⟨heff.good hgt, ?_⟩
    rcases heff.apart hgt hl hr' with h1 | ⟨_, r'', h1, hc⟩
    · exact ⟨r', h1, ha'⟩
    · exact ⟨r'', h1, by rw [hc]; simp⟩
  exact hboth.2

/-- The active row stays as it is exactly when no step displaces it. -/
theorem run_apart_active (hg : Good w) (hrun : (billing user_repo).Run (Apart id) w ls w')
    (hr : w.row_of id = some r) :
    ((billing user_repo).Run (Undisturbed id) w ls w' → w'.row_of id = some r) ∧
      ((∃ r', w'.row_of id = some r' ∧ r'.val.status = .ACTIVE) →
        (billing user_repo).Run (Undisturbed id) w ls w') := by
  constructor
  · intro hquiet
    have hboth : Good w' ∧ w'.row_of id = some r := by
      apply hquiet.invariant (I := fun t => Good t ∧ t.row_of id = some r) ⟨hg, hr⟩
      rintro t l ⟨hgt, hrt⟩ he ⟨hl, hd⟩
      have heff := billing_effects hgt he
      exact ⟨heff.good hgt, (heff.apart hgt hl hrt).resolve_right fun h => hd h.1⟩
    exact hboth.2
  · induction hrun with
    | nil => exact fun _ => .nil _
    | @snoc t ls l hrun he hl ih =>
      rintro ⟨r', hr', ha⟩
      have hgt := (run_good hg hrun).1
      obtain ⟨rt, hrt, _⟩ := (run_good hg hrun).2.row_of hr
      have heff := billing_effects hgt he
      have hnd : ¬ t.Displaces id l := by
        intro hd
        obtain ⟨r'', hr'', hc⟩ := displaced_is_canceled user_repo hgt he hl hrt hd
        rw [hr', Option.some.injEq] at hr''
        rw [← hr'', ha] at hc
        cases hc
      have hsame := (heff.apart hgt hl hrt).resolve_right fun h => hnd h.1
      rw [hr', Option.some.injEq] at hsame
      subst hsame
      exact .snoc l (ih ⟨r', hrt, ha⟩) he ⟨hl, hnd⟩

theorem run_apart_items {S : Row StripeSubscription} (hg : Good w)
    (hrun : (billing user_repo).Run (Apart id) w ls w')
    (hS : w.stripe.subscriptions.byId id = some S) :
    ∃ S', w'.stripe.subscriptions.byId id = some S' ∧ S'.val.items = S.val.items := by
  have hboth : Good w' ∧ ∃ S', w'.stripe.subscriptions.byId id = some S' ∧
      S'.val.items = S.val.items := by
    apply hrun.invariant (I := fun t => Good t ∧ ∃ S', t.stripe.subscriptions.byId id = some S' ∧
      S'.val.items = S.val.items) ⟨hg, S, hS, rfl⟩
    rintro t l ⟨hgt, S', hS', hi⟩ he hl
    have heff := billing_effects hgt he
    obtain ⟨S'', hS'', hi'⟩ := heff.items
      (fun items ca pe hbill => by rw [hbill] at hl; exact hl rfl) hS'
    exact ⟨heff.good hgt, S'', hS'', hi'.trans hi⟩
  exact hboth.2

theorem failed_of.row (user_repo : UserRepo) {invoice : Invoice}
    (hinv : invoice.subscription = some id)
    (hr : w.row_of id = some r) : ∃ r',
      ((billing user_repo).next w (failed_of invoice)).row_of id = some r' ∧
        r'.val.status ≠ .ACTIVE := by
  obtain ⟨line, lines, hlines, hline⟩ := Invoice.first_line hinv
  have hfail : (handle_invoice_payment_failed invoice).run w =
      (update_sub_status .STRIPE (some id) .PAST_DUE).run w := by
    unfold handle_invoice_payment_failed
    have h1 : (ofExcept invoice.line_items : M _).run w = (.ok (line :: lines), w) := by
      rw [run_ofExcept, hlines]
    have h2 : (ofExcept line.stripe_subscription_id : M _).run w = (.ok (some id), w) := by
      rw [run_ofExcept, hline]
    rw [run_bind_ok h1, run_bind_ok h2]
  rw [update_sub_status.spec, hr] at hfail
  change ∃ r', ((handle_event (.invoice_payment_failed invoice)).run w).2.row_of id = some r' ∧ _
  by_cases hc : r.val.status = .CANCELED
  · simp only [hc, if_true] at hfail
    have hrun : (handle_event (.invoice_payment_failed invoice)).run w = (.ok (), w) :=
      run_bind_ok hfail _
    rw [hrun]
    exact ⟨r, hr, by rw [hc]; simp⟩
  · simp only [hc, if_false] at hfail
    have hrun : (handle_event (.invoice_payment_failed invoice)).run w =
        (TaskName.send_payment_failed_email_task.delay _).run _ := run_bind_ok hfail _
    have hq := Acts.quiet (TaskName.delay.acts .send_payment_failed_email_task
      (some ⟨r.id, (SubscriptionPatch.status .PAST_DUE).apply r.val⟩))
      (w.update_subscription r.id (.status .PAST_DUE))
    rw [hrun, World.row_of_congr hq.subscriptions]
    refine ⟨_, World.row_of_patch _ hr, ?_⟩
    change SubscriptionStatus.PAST_DUE ≠ .ACTIVE
    simp

theorem paid_of.row (user_repo : UserRepo) {invoice : Invoice} {S : Row StripeSubscription}
    {item : SubscriptionItem} {items : List SubscriptionItem} (hg : Good w)
    (hinv : invoice.subscription = some id)
    (hS : w.stripe.subscriptions.byId id = some S) (hi : S.val.items = item :: items)
    (hr : w.row_of id = some r) : ∃ r',
      ((billing user_repo).next w (paid_of invoice)).row_of id = some r' ∧
        r'.val.status = .ACTIVE ∧
        r'.val.current_period_end = some (fromtimestamp item.current_period_end) := by
  obtain ⟨S', hS', _, hn⟩ := hg.of_row hr
  rw [hS, Option.some.injEq] at hS'
  subst hS'
  obtain ⟨p, hp, _⟩ := hn.plan
  have hrow := paid_invoice.row hg hS hn hp hi hinv
  have hren : w.Renewable r.val.user_id id := Or.inl (by rw [hr]; simp)
  rw [if_pos hren, hr, Option.map_some] at hrow
  obtain ⟨r', hr', hval⟩ := Option.map_eq_some_iff.mp hrow
  exact ⟨r', hr', by rw [hval]; rfl, by rw [hval]; rfl⟩

end

/-- The two events of an invoice that Stripe failed to collect and then collected,
in either order, and steps about other subscriptions before, between and after
them. The row is active until the paid end exactly when the failure is handled
first and no later step displaces the row. -/
theorem stale_failure {user_repo : UserRepo} {id : StripeId} {r : Row Subscription}
    {S : Row StripeSubscription} {item : SubscriptionItem} {items : List SubscriptionItem}
    {failed succeeded : Invoice} {w w1 w2 w' : World} {ls1 ls2 ls3 : List Label} {x y : Label}
    (hw : (billing user_repo).Reachable Initial w) (hr : w.row_of id = some r)
    (hS : w.stripe.subscriptions.byId id = some S) (hi : S.val.items = item :: items)
    (hf : failed.subscription = some id) (hs : succeeded.subscription = some id)
    (hxy : (x = failed_of failed ∧ y = paid_of succeeded) ∨
      (x = paid_of succeeded ∧ y = failed_of failed))
    (h1 : (billing user_repo).Run (Apart id) w ls1 w1)
    (h2 : (billing user_repo).Run (Apart id) ((billing user_repo).next w1 x) ls2 w2)
    (h3 : (billing user_repo).Run (Apart id) ((billing user_repo).next w2 y) ls3 w') :
    w'.PaidUntil id (fromtimestamp item.current_period_end) ↔
      x = failed_of failed ∧
        (billing user_repo).Run (Undisturbed id) ((billing user_repo).next w2 y) ls3 w' := by
  have hg := billing_good hw
  obtain ⟨hg1, hgr1⟩ := run_good hg h1
  obtain ⟨r1, hr1, _⟩ := hgr1.row_of hr
  have hstep : ∀ {v : World} {l : Label}, Good v → (l = failed_of failed ∨ l = paid_of succeeded) →
      Effects l v ((billing user_repo).next v l) := by
    rintro v l hgv (rfl | rfl)
    · exact billing_effects hgv trivial
    · exact billing_effects hgv trivial
  rcases hxy with ⟨rfl, rfl⟩ | ⟨rfl, rfl⟩
  · -- the failure first: the paid invoice decides, until a step displaces the row
    have hx := hstep hg1 (Or.inl rfl)
    obtain ⟨hg2, hgr2⟩ := run_good (hx.good hg1) h2
    obtain ⟨S1, hS1, hi1⟩ := run_apart_items hg h1 hS
    obtain ⟨Sx, hSx, hix⟩ := hx.items (fun _ _ _ h => by cases h) hS1
    obtain ⟨S2, hS2, hi2⟩ := run_apart_items (hx.good hg1) h2 hSx
    obtain ⟨r2, hr2, _⟩ := (hx.grows.trans hgr2).row_of hr1
    obtain ⟨ry, hry, hactive, hend⟩ := paid_of.row user_repo hg2 hs hS2
      (hi2.trans (hix.trans (hi1.trans hi))) hr2
    have hy := hstep hg2 (Or.inr rfl)
    obtain ⟨hstay, hback⟩ := run_apart_active (hy.good hg2) h3 hry
    constructor
    · rintro ⟨r', hr', ha, _⟩
      exact ⟨rfl, hback ⟨r', hr', ha⟩⟩
    · rintro ⟨_, hquiet⟩
      exact World.paid_until_of_row (hstay hquiet) hactive hend
  · -- the failure last: it takes the paid row back, and nothing makes it active again
    have hx := hstep hg1 (Or.inr rfl)
    obtain ⟨hg2, hgr2⟩ := run_good (hx.good hg1) h2
    obtain ⟨r2, hr2, _⟩ := (hx.grows.trans hgr2).row_of hr1
    obtain ⟨ry, hry, hinactive⟩ := failed_of.row user_repo hf hr2
    obtain ⟨r', hr', hn⟩ := run_apart_inactive ((hstep hg2 (Or.inl rfl)).good hg2) h3 hry hinactive
    refine iff_of_false ?_ fun h => ?_
    · rintro ⟨r'', hr'', ha, _⟩
      rw [hr', Option.some.injEq] at hr''
      exact hn (hr'' ▸ ha)
    · cases h.1

namespace Sample

/-- The invoice of both events. -/
def retried_invoice : Invoice := invoice 0 0 .subscription_create

end Sample

open Sample in
/-- Stripe tells of the failure first. -/
theorem stale_failure_sample :
    ((billing .user).exec begun [failed_of retried_invoice, paid_of retried_invoice]).PaidUntil 0
      (fromtimestamp 2000) := by
  have hitems : sold_to_ann.items = [⟨900, 2000⟩] := rfl
  have horder : failed_of retried_invoice = failed_of retried_invoice ∧
      paid_of retried_invoice = paid_of retried_invoice := ⟨rfl, rfl⟩
  have hnone : ∀ v, (billing .user).Run (Apart 0) v [] v := fun v => .nil v
  exact (stale_failure (S := ⟨0, sold_to_ann⟩) begun_reachable rfl rfl hitems rfl rfl
    (Or.inl horder) (hnone _) (hnone _) (hnone _)).mpr ⟨rfl, .nil _⟩

open Sample in
/-- Stripe tells of the failure last: the paid row is past due, and its user has
no access. -/
theorem stale_failure_revokes : ∃ w w',
    (billing .user).Reachable Initial w ∧
    (w.row_of 0).map (fun r => r.val.status) = some .PAST_DUE ∧
    w.clock < fromtimestamp 2000 ∧
    (billing .user).Run (fun _ _ => True) w
      [paid_of retried_invoice, failed_of retried_invoice] w' ∧
    (w'.row_of 0).map (fun r => r.val.status) = some .PAST_DUE ∧
    w'.access_rows 0 w'.clock = [] ∧ ¬ w'.PaidUntil 0 (fromtimestamp 2000) := by
  refine ⟨begun, (billing .user).exec begun
    [paid_of retried_invoice, failed_of retried_invoice], begun_reachable, by decide, by decide,
    .of_path (by decide), by decide, by decide, ?_⟩
  rintro ⟨r, hr, ha, _⟩
  have hst : (((billing .user).exec begun
      [paid_of retried_invoice, failed_of retried_invoice]).row_of 0).map
      (fun r => r.val.status) = some .PAST_DUE := by decide
  rw [hr, Option.map_some, ha] at hst
  cases hst

end saas
