-- A purchase: Stripe tells of the paid session and of the paid invoice, in
-- either order and among the events of other accounts. The row ends as bought
-- when the session comes first, and only then.
import SaasBackend.HandlerRows

open relational async

namespace saas

open Proc SubscriptionRepoistory StripeGateway SubscriptionService

/-! ## The stages of a purchase -/

/-- The account `u` on its way to the subscription `id`: the local row of it
so far, and no access by any other row. -/
structure Stage (u : UUID) (id : StripeId) (S : Row StripeSubscription)
    (row : Option Subscription) (w : World) : Prop where
  good : Good w
  stripe : w.stripe.subscriptions.byId id = some S
  row : (w.row_of id).map (·.val) = row
  others : ∀ r ∈ w.db.subscriptions.rows, r.val.user_id = u →
    r.val.provider_subscription_id ≠ some id → r.val.grants_access w.clock = false

section

variable {u p : UUID} {id : StripeId} {S : Row StripeSubscription} {row : Option Subscription}
  {w w' : World}

theorem Stage.frame (h : Stage u id S row w) (hu : w.owner id = some u) (hg : Good w')
    (hgr : w.Grows w') (hf : w.Frame u w') : Stage u id S row w' where
  good := hg
  stripe := hf.stripe id S h.stripe hu
  row := by rw [hf.row_of hu hg hgr]; exact h.row
  others r hr hru hne := by
    have hov := h.others r ((hf.rows r hru).mp hr) hru hne
    by_contra hacc
    rw [Bool.not_eq_false] at hacc
    rw [Subscription.grants_access_earlier hacc hgr.clock] at hov
    cases hov

theorem Stage.quiet (h : Stage u id S row w) (hq : w.Quiet w') : Stage u id S row w' where
  good := h.good.quiet hq
  stripe := by rw [hq.stripe]; exact h.stripe
  row := by rw [World.row_of_congr hq.subscriptions]; exact h.row
  others r hr hru hne := by
    rw [hq.subscriptions] at hr
    rw [hq.clock]
    exact h.others r hr hru hne

theorem Stage.elsewhere {user_repo : UserRepo} {ls : List Label} (h : Stage u id S row w)
    (hu : w.owner id = some u) (hrun : (billing user_repo).Run (Elsewhere u) w ls w') :
    Stage u id S row w' := by
  obtain ⟨hg, hgr⟩ := run_good h.good hrun
  exact h.frame hu hg hgr (run_frame h.good hrun)

/-- A renewed row, the others as they were. -/
theorem Stage.patch {r : Row Subscription} (h : Stage u id S row w) (p : SubscriptionPatch)
    (hr : w.row_of id = some r) :
    Stage u id S (some (p.apply r.val)) (w.update_subscription r.id p) := by
  obtain ⟨hmem, hp, hps⟩ := World.row_of_eq_some.mp hr
  refine ⟨h.good.patch p, h.stripe, by rw [World.row_of_patch p hr]; rfl, ?_⟩
  intro r' hr' hru hne
  rcases World.mem_update_subscription.mp hr' with ⟨r1, hr1, hid, rfl⟩ | ⟨hr1, _⟩
  · obtain rfl := Table.eq_of_id hr1 hmem hid
    rw [p.provider_subscription_id, hps] at hne
    exact absurd rfl hne
  · exact h.others r' hr1 hru hne

theorem Stage.no_access (h : Stage u id S none w) : w.access_rows u w.clock = [] := by
  rw [List.eq_nil_iff_forall_not_mem]
  intro r hr
  obtain ⟨hmem, hru, hacc⟩ := World.mem_access_rows.mp hr
  have hnone : w.row_of id = none := Option.map_eq_none_iff.mp h.row
  obtain ⟨hp, _⟩ := h.good.rows r hmem
  have hov := h.others r hmem hru (World.row_of_eq_none.mp hnone r hmem hp)
  rw [hacc] at hov
  cases hov

theorem Stage.create (h : Stage u id S none w) (hn : w.Names u S.val.metadata)
    (hp : S.val.metadata.plan_id = some (.ofUuid p)) (c : Option StripeId)
    (st : SubscriptionStatus) : ∃ r w', (create_subscription u p .STRIPE (some id) c st).run w =
      (.ok r, w') ∧ w'.clock = w.clock ∧
        Stage u id S (some (new_row u p (some id) c st w.clock)) w' := by
  have hold : scalar_one_or_none (w.access_rows u w.clock) = .ok none := by
    rw [h.no_access]
    rfl
  obtain ⟨r, w', hrun, hc⟩ := h.good.create (Option.map_eq_none_iff.mp h.row) h.stripe hn hp hold
    c st
  refine ⟨r, w', hrun, hc.clock, hc.good, by rw [hc.stripe]; exact h.stripe, ?_, ?_⟩
  · rw [hc.row, Option.map_some, hc.val]
  · intro r' hr' hru hne
    rw [hc.rows] at hr'
    rw [hc.clock]
    rcases List.mem_append.mp hr' with hr' | hr'
    · exact h.others r' hr' hru hne
    · rw [List.mem_singleton.mp hr', hc.val] at hne
      exact absurd rfl hne

/-- A patch of another row of the account that leaves it without access. -/
theorem Stage.patch_other {r : Row Subscription} (h : Stage u id S row w) (q : SubscriptionPatch)
    (hr : r ∈ w.db.subscriptions.rows) (hne : r.val.provider_subscription_id ≠ some id)
    (hov : (q.apply r.val).grants_access w.clock = false) :
    Stage u id S row (w.update_subscription r.id q) := by
  refine ⟨h.good.patch q, h.stripe, by rw [World.row_of_patch_other q hr hne]; exact h.row, ?_⟩
  intro r' hr' hru hne'
  rcases World.mem_update_subscription.mp hr' with ⟨r1, hr1, hid, rfl⟩ | ⟨hr1, _⟩
  · obtain rfl := Table.eq_of_id hr1 hr hid
    exact hov
  · exact h.others r' hr1 hru hne'

theorem Stage.set_status (h : Stage u id S row w) {old : StripeId} (hne : old ≠ id) :
    Stage u id S row (w.set_status old .canceled) where
  good := h.good.change (@Change.status (.stop old) w w .canceled old (by simp) fun _ hv => hv)
  stripe := by
    change (w.stripe.set_status old .canceled).subscriptions.byId id = some S
    have hid : S.id ≠ old := by
      rw [(Table.byId_eq_some.mp h.stripe).2]
      exact hne.symm
    rw [Stripe.byId_set_status, h.stripe, Option.map_some, Table.updateRow_of_ne hid]
  row := h.row
  others := h.others

/-- The first half of a checkout: it fails when the upgraded subscription is
already canceled at Stripe. -/
theorem Stage.cancel_upgraded (h : Stage u id S row w) (hn : w.Names u S.val.metadata)
    (hne : S.val.metadata.upgrade_from_subscription_id ≠ some id) :
    ((∃ e, (cancel_upgraded S.val.metadata.upgrade_from_subscription_id).run w = (.error e, w)) ∧
      ∃ old ∈ S.val.metadata.upgrade_from_subscription_id,
        w.stripe.statusOf old = some .canceled) ∨
    (∃ w1, (cancel_upgraded S.val.metadata.upgrade_from_subscription_id).run w = (.ok (), w1) ∧
      Stage u id S row w1 ∧ w1.clock = w.clock ∧ w.Grows w1 ∧
      ∀ old ∈ S.val.metadata.upgrade_from_subscription_id,
        w.stripe.statusOf old ≠ some .canceled) := by
  rcases hup : S.val.metadata.upgrade_from_subscription_id with _ | old
  · exact Or.inr ⟨w, rfl, h, rfl, World.Grows.refl w, fun old ho => by cases ho⟩
  · obtain ⟨r, hr, _⟩ := hn.upgrade old hup
    obtain ⟨So, hSo, _⟩ := h.good.of_row hr
    obtain ⟨hmem, _, hps⟩ := World.row_of_eq_some.mp hr
    have hid : old ≠ id := fun heq => hne (by rw [hup, heq])
    have hst : w.stripe.statusOf old = some So.val.status := by
      simp [Stripe.statusOf, hSo]
    rw [cancel_upgraded.spec, hSo]
    by_cases hc : So.val.status = .canceled
    · refine Or.inl ⟨⟨.stripeError, by simp only [hc, if_true]⟩, old, rfl, by rw [hst, hc]⟩
    · refine Or.inr ⟨w.end_upgraded old, by simp only [hc, if_false], ?_,
        clock_end_upgraded w old, ?_, ?_⟩
      · rw [World.end_upgraded, hr]
        refine (h.set_status hid).patch_other _ hmem ?_ ?_
        · rw [hps]
          simpa using hid
        · by_contra hacc
          rw [Bool.not_eq_false, Subscription.grants_access_iff] at hacc
          obtain ⟨⟨e, he, hlt⟩, _⟩ := hacc
          cases he
          exact Nat.lt_irrefl _ hlt
      · rw [World.end_upgraded, hr]
        exact (w.grows_set_status old (by simp)).trans (World.grows_update_subscription _ _ _)
      · rintro o ho
        rw [Option.mem_def, Option.some.injEq] at ho
        subst ho
        rw [hst]
        simpa using hc

/-- The checkout event of the purchase. -/
def checkout_of (session : SessionObject) : Label :=
  .serve (.webhook (.checkout_session_completed session)) none

/-- The event that an invoice was paid. -/
def paid_of (invoice : Invoice) : Label :=
  .serve (.webhook (.invoice_payment_succeeded invoice)) none

section

variable (user_repo : UserRepo) {session : SessionObject}

/-- The checkout makes the row, unless it is there or the upgrade fails. -/
theorem Stage.checkout (h : Stage u id S row w) (hn : w.Names u S.val.metadata)
    (hp : S.val.metadata.plan_id = some (.ofUuid p))
    (hne : S.val.metadata.upgrade_from_subscription_id ≠ some id)
    (hsid : session.subscription = some id)
    (href : session.client_reference_id = some (.ofUuid u)) :
    ((billing user_repo).next w (checkout_of session)).clock = w.clock ∧
    ((Stage u id S row ((billing user_repo).next w (checkout_of session)) ∧
      (row ≠ none ∨ ∃ old ∈ S.val.metadata.upgrade_from_subscription_id,
        w.stripe.statusOf old = some .canceled)) ∨
    (Stage u id S (some (new_row u p (some id) session.customer .PAST_DUE w.clock))
        ((billing user_repo).next w (checkout_of session)) ∧
      row = none ∧ ∀ old ∈ S.val.metadata.upgrade_from_subscription_id,
        w.stripe.statusOf old ≠ some .canceled)) := by
  have hnext : (billing user_repo).next w (checkout_of session) =
      ((StripeGateway.cancel_upgraded S.val.metadata.upgrade_from_subscription_id >>= fun _ =>
        find_or_create session S.val.metadata.plan_id).run w).2 := by
    rw [← (user_subscribe.after_reads hsid h.stripe hn).1]
    exact run_discard _ w
  obtain ⟨ref, sub, customer⟩ := session
  simp only at hsid href
  subst hsid href
  rw [hnext]
  rcases h.cancel_upgraded hn hne with ⟨⟨e, hrun⟩, hcan⟩ | ⟨w1, hrun, h1, hclock, hgr, hlive⟩
  · rw [run_bind_error hrun]
    exact ⟨rfl, Or.inl ⟨h, Or.inr hcan⟩⟩
  · rw [run_bind_ok hrun, find_or_create.spec, hp]
    rcases hrow : w1.row_of id with _ | r
    · have hnone : row = none := by rw [← h1.row, hrow]; rfl
      subst hnone
      obtain ⟨r, w2, hc, hclock2, h2⟩ := h1.create (hn.grows hgr) hp customer .PAST_DUE
      rw [hclock] at h2 hclock2
      simp only [UUID.parse, hc]
      exact ⟨hclock2, Or.inr ⟨h2, trivial, hlive⟩⟩
    · refine ⟨hclock, Or.inl ⟨h1, Or.inl ?_⟩⟩
      rw [← h1.row, hrow]
      simp

/-- The paid invoice renews the row, or makes one that ends at once. -/
theorem Stage.paid {invoice : Invoice} {item : SubscriptionItem} {items : List SubscriptionItem}
    (h : Stage u id S row w) (hn : w.Names u S.val.metadata)
    (hp : S.val.metadata.plan_id = some (.ofUuid p)) (hi : S.val.items = item :: items)
    (hinv : invoice.subscription = some id) :
    Stage u id S (some (match row with
      | some v => (SubscriptionPatch.period (fromtimestamp item.current_period_start)
          (fromtimestamp item.current_period_end)).apply v
      | none => new_row u p (some id) S.val.customer .ACTIVE w.clock))
      ((billing user_repo).next w (paid_of invoice)) := by
  have hrest : ∀ {sub : Option (Row Subscription)} {v : Subscription} {w1 : World},
      (handle_invoice_payment_succeeded invoice).run w = (.ok sub, w1) →
      Stage u id S (some v) w1 →
      Stage u id S (some v) ((billing user_repo).next w (paid_of invoice)) := by
    intro sub v w1 hrun h1
    have hq : w1.Quiet ((billing user_repo).next w (paid_of invoice)) := by
      change w1.Quiet ((handle_invoice_payment_succeeded invoice >>= fun sub =>
        record_invoice_payment invoice sub >>= fun _ =>
          send_payment_email invoice.billing_reason sub).run w).2
      rw [run_bind_ok hrun]
      exact Acts.quiet ((record_invoice_payment.acts _ _).bind fun _ => send_payment_email.acts _ _)
        w1
    exact h1.quiet hq
  have hrun := (handle_invoice_payment_succeeded.after_reads hinv h.stripe).1
  rw [renew_or_create.spec, hi] at hrun
  rcases hrow : w.row_of id with _ | r
  · have hnone : row = none := by rw [← h.row, hrow]; rfl
    subst hnone
    obtain ⟨r, w1, hc, _, h1⟩ := h.create hn hp S.val.customer .ACTIVE
    simp only [hrow, hn.user, hp, UUID.parse, hc] at hrun
    exact hrest hrun h1
  · have hsome : row = some r.val := by rw [← h.row, hrow]; rfl
    subst hsome
    simp only [hrow] at hrun
    exact hrest hrun (h.patch _ hrow)

end

end

/-! ## The outcome -/

/-- The row of a purchase that went well. -/
def bought_row (u p : UUID) (id : StripeId) (customer : Option StripeId)
    (item : SubscriptionItem) : Subscription :=
  { new_row u p (some id) customer .ACTIVE (fromtimestamp item.current_period_start) with
    current_period_end := some (fromtimestamp item.current_period_end) }

/-- The subscription has its row, and the row is what the account has access by
from now to the end of the period. -/
def Purchased (u p : UUID) (id : StripeId) (customer : Option StripeId) (item : SubscriptionItem)
    (w : World) : Prop :=
  ∃ r, w.row_of id = some r ∧ r.val = bought_row u p id customer item ∧
    ∀ t, w.clock ≤ t → t < fromtimestamp item.current_period_end →
      ((get_subscription_with_access u).run { w with clock := t }).1 = .ok (some r)

section

variable {u p : UUID} {id : StripeId} {S : Row StripeSubscription} {v : Subscription}
  {customer : Option StripeId} {item : SubscriptionItem} {w : World}

theorem Stage.purchased (h : Stage u id S (some (bought_row u p id customer item)) w) :
    Purchased u p id customer item w := by
  obtain ⟨r, hr, hv⟩ := Option.map_eq_some_iff.mp h.row
  refine ⟨r, hr, hv, fun t ht hlt => ?_⟩
  have hmem := (World.row_of_eq_some.mp hr).1
  have haccess : w.access_rows u t = [r] := by
    apply Table.select_eq_of_mem
    · apply World.mem_access_rows.mpr
      refine ⟨hmem, by rw [hv]; rfl,
        Subscription.grants_access_iff.mpr ⟨?_, Or.inl (by rw [hv]; rfl)⟩⟩
      exact ⟨_, by rw [hv]; rfl, hlt⟩
    · intro r' hr'
      obtain ⟨hmem', hu', hacc⟩ := World.mem_access_rows.mp hr'
      by_contra hne
      have hps : r'.val.provider_subscription_id ≠ some id := by
        intro hps
        have hrow := World.row_of_eq_some.mpr ⟨hmem', (h.good.rows r' hmem').1, hps⟩
        rw [hr, Option.some.injEq] at hrow
        exact hne hrow.symm
      have hov := h.others r' hmem' hu' hps
      rw [Subscription.grants_access_earlier hacc ht] at hov
      cases hov
  rw [get_subscription_with_access.spec]
  change scalar_one_or_none (w.access_rows u t) = _
  rw [haccess]
  rfl

/-- A row whose period ends at another time is not the one that was bought. -/
theorem Stage.not_purchased {e : Time} (h : Stage u id S (some v) w)
    (hv : v.current_period_end = some e) (hne : e < fromtimestamp item.current_period_end) :
    ¬ Purchased u p id customer item w := by
  rintro ⟨r, hr, hbought, _⟩
  have hrow := h.row
  rw [hr, Option.map_some, Option.some.injEq] at hrow
  rw [← hrow, hbought] at hv
  cases hv
  exact Nat.lt_irrefl _ hne

/-- Stripe has sold the subscription `id` to the account `u`, which has no row
of it and no access yet, and tells of it by this session and this invoice. -/
structure Sold (u p : UUID) (id : StripeId) (S : Row StripeSubscription) (item : SubscriptionItem)
    (session : SessionObject) (invoice : Invoice) (w : World) : Prop where
  access : w.access_rows u w.clock = []
  stripe : w.stripe.subscriptions.byId id = some S
  user : S.val.metadata.user_id = some (.ofUuid u)
  plan : S.val.metadata.plan_id = some (.ofUuid p)
  item : S.val.items.head? = some item
  no_row : w.row_of id = none
  tells : w.TellsOf session
  session : session.subscription = some id
  invoice : invoice.subscription = some id

variable {session : SessionObject} {invoice : Invoice}

theorem Sold.stage (h : Sold u p id S item session invoice w) (hg : Good w) :
    Stage u id S none w where
  good := hg
  stripe := h.stripe
  row := by rw [h.no_row]; rfl
  others r hr hu _ := by
    by_contra hacc
    rw [Bool.not_eq_false] at hacc
    have hmem := World.mem_access_rows.mpr ⟨hr, hu, hacc⟩
    rw [h.access] at hmem
    cases hmem

/-- The session names the account. -/
theorem Sold.reference (h : Sold u p id S item session invoice w) (hg : Good w) :
    session.client_reference_id = some (.ofUuid u) := by
  obtain ⟨id', S', u', hid, hS, href, hn⟩ := hg.tells h.tells
  rw [h.session, Option.some.injEq] at hid
  subst hid
  rw [h.stripe, Option.some.injEq] at hS
  subst hS
  have hu := hn.user
  rw [h.user, Option.some.injEq, UuidText.ofUuid.injEq] at hu
  rwa [hu]

/-- A subscription does not upgrade from itself. -/
theorem Sold.upgrades_another (h : Sold u p id S item session invoice w) (hg : Good w) :
    S.val.metadata.upgrade_from_subscription_id ≠ some id := by
  intro ho
  obtain ⟨r, hr, _⟩ := (hg.names h.stripe h.user).upgrade id ho
  rw [h.no_row] at hr
  cases hr

end

theorem paid_of.clock (user_repo : UserRepo) (invoice : Invoice) {w : World} (hg : Good w) :
    w.clock ≤ ((billing user_repo).next w (paid_of invoice)).clock := by
  have he : (billing user_repo).enabled w (paid_of invoice) := trivial
  exact (billing_steps hg he).grows.clock

/-- Stripe tells of the session and of the invoice in one order or the other,
and others go on before, between and after. The row ends as bought exactly when
the session comes first and the subscription that it upgrades is not canceled
at Stripe already. -/
theorem purchase_confluence {user_repo : UserRepo} {u p : UUID} {id : StripeId}
    {S : Row StripeSubscription} {item : SubscriptionItem} {session : SessionObject}
    {invoice : Invoice} {w w1 w2 w' : World} {ls1 ls2 ls3 : List Label} {x y : Label}
    (hw : (billing user_repo).Reachable Initial w)
    (hsold : Sold u p id S item session invoice w)
    (hxy : (x = checkout_of session ∧ y = paid_of invoice) ∨
      (x = paid_of invoice ∧ y = checkout_of session))
    (h1 : (billing user_repo).Run (Elsewhere u) w ls1 w1)
    (h2 : (billing user_repo).Run (Elsewhere u) ((billing user_repo).next w1 x) ls2 w2)
    (h3 : (billing user_repo).Run (Elsewhere u) ((billing user_repo).next w2 y) ls3 w')
    (hb : w'.clock < fromtimestamp item.current_period_end) :
    Purchased u p id session.customer item w' ↔
      x = checkout_of session ∧
        ∀ old ∈ S.val.metadata.upgrade_from_subscription_id,
          w.stripe.statusOf old ≠ some .canceled := by
  have hg := billing_good hw
  have hne := hsold.upgrades_another hg
  have href := hsold.reference hg
  obtain ⟨items, hi⟩ : ∃ items, S.val.items = item :: items :=
    List.head?_eq_some_iff.mp hsold.item
  have hstay : ∀ {row a b ls}, Stage u id S row a → (billing user_repo).Run (Elsewhere u) a ls b →
      Stage u id S row b ∧ a.clock ≤ b.clock := fun ha hr =>
    ⟨ha.elsewhere (World.owner_eq ha.stripe hsold.user) hr, (run_good ha.good hr).2.clock⟩
  obtain ⟨hs1, _⟩ := hstay (hsold.stage hg) h1
  rcases hxy with ⟨rfl, rfl⟩ | ⟨rfl, rfl⟩
  · have hlive : ∀ old ∈ S.val.metadata.upgrade_from_subscription_id,
        w1.stripe.statusOf old = w.stripe.statusOf old :=
      fun old ho => (run_frame hg h1).upgraded hg (hg.names hsold.stripe hsold.user) ho
    have hc := hs1.checkout user_repo (hs1.good.names hs1.stripe hsold.user) hsold.plan hne
      hsold.session href
    rcases hc.2 with ⟨hs, hrow | ⟨old, ho, hcan⟩⟩ | ⟨hs, _, hok⟩
    · exact absurd rfl hrow
    · -- the upgrade fails, and no row is there when the invoice comes
      have hs2 := (hstay hs h2).1
      have hs3 := hstay (hs2.paid user_repo (hs2.good.names hs2.stripe hsold.user) hsold.plan hi
        hsold.invoice) h3
      have hclock := paid_of.clock user_repo invoice hs2.good
      refine iff_of_false (hs3.1.not_purchased rfl ?_) fun h => ?_
      · exact Nat.lt_of_le_of_lt (Nat.le_trans hclock hs3.2) hb
      · rw [hlive old ho] at hcan
        exact h.2 old ho hcan
    · have hs2 := (hstay hs h2).1
      have hs3 := hstay (hs2.paid user_repo (hs2.good.names hs2.stripe hsold.user) hsold.plan hi
        hsold.invoice) h3
      refine iff_of_true hs3.1.purchased ⟨rfl, fun old ho => ?_⟩
      rw [← hlive old ho]
      exact hok old ho
  · -- the invoice makes a row that ends at once, and the checkout finds it
    have hs := hs1.paid user_repo (hs1.good.names hs1.stripe hsold.user) hsold.plan hi hsold.invoice
    have hclock := paid_of.clock user_repo invoice hs1.good
    obtain ⟨hs2, hclock2⟩ := hstay hs h2
    have hc := hs2.checkout user_repo (hs2.good.names hs2.stripe hsold.user) hsold.plan hne
      hsold.session href
    rcases hc.2 with ⟨hs3, _⟩ | ⟨_, hnone, _⟩
    · obtain ⟨hs4, hclock4⟩ := hstay hs3 h3
      refine iff_of_false (hs4.not_purchased rfl ?_) fun h => ?_
      · exact Nat.lt_of_le_of_lt (Nat.le_trans (Nat.le_trans hclock hclock2)
          (Nat.le_trans (Nat.le_of_eq hc.1.symm) hclock4)) hb
      · cases h.1
    · cases hnone

namespace Sample

/-- Ann has paid a checkout of the plan `pro`; no event has come yet. -/
def ordered : World := (billing .user).exec world [subscribe "pro", .pay 0 [⟨900, 2000⟩]]

theorem ordered_reachable : (billing .user).Reachable Initial ordered :=
  ⟨world, _, world_initial, .of_path (by decide)⟩

theorem ordered_sold : Sold 0 0 0 ⟨0, sold_to_ann⟩ ⟨900, 2000⟩ ⟨some (.ofUuid 0), some 0, some 7⟩
    (invoice 0 0 .subscription_create) ordered := by
  constructor <;> decide

end Sample

open Sample in
theorem purchase_confluence_sample :
    Purchased 0 0 0 (some 7) ⟨900, 2000⟩
      ((billing .user).exec ordered [checkout 0, .tick 5, paid 0 0]) := by
  have hticks : (billing .user).Run (Elsewhere 0) ((billing .user).next ordered (checkout 0))
      [.tick 5] ((billing .user).exec ordered [checkout 0, .tick 5]) := .of_path (by decide)
  exact (purchase_confluence ordered_reachable ordered_sold (Or.inl ⟨rfl, rfl⟩) (.nil _) hticks
    (.nil _) (by decide)).mpr ⟨rfl, by decide⟩

open Sample in
/-- The invoice comes first: the row that it makes ends at once, the checkout
leaves it so, and ann has paid for nothing. -/
theorem invoice_before_checkout : ∃ w,
    (billing .user).Reachable Initial w ∧
    Sold 0 0 0 ⟨0, sold_to_ann⟩ ⟨900, 2000⟩ ⟨some (.ofUuid 0), some 0, some 7⟩
      (invoice 0 0 .subscription_create) w ∧
    w.clock < fromtimestamp 2000 ∧
    ¬ Purchased 0 0 0 (some 7) ⟨900, 2000⟩ ((billing .user).exec w [paid 0 0, checkout 0]) := by
  refine ⟨ordered, ordered_reachable, ordered_sold, by decide, ?_⟩
  rintro ⟨r, hr, hbought, _⟩
  have hend : (((billing .user).exec ordered [paid 0 0, checkout 0]).row_of 0).map
      (fun r => r.val.current_period_end) = some (some (fromtimestamp 1000)) := by decide
  rw [hr, Option.map_some, hbought] at hend
  revert hend
  decide

end saas
