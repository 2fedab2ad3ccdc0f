-- The checkout of an upgrade that comes again. Its handler cancels the old
-- subscription at Stripe, which Stripe does not do twice, and then commits here.
import SaasBackend.Retry

open relational async

namespace saas

open Proc SubscriptionRepoistory StripeGateway SubscriptionService

/-! ## The second delivery of an upgrade -/

/-- The delivery in state `w` ends the upgrade: the old subscription is canceled
at Stripe and here, and the new one has one row. -/
structure Upgraded (id old : StripeId) (session : SessionObject) (w : World) : Prop where
  returns : ((handle_event (.checkout_session_completed session)).run w).1 = .ok ()
  stripe : ((handle_event (.checkout_session_completed session)).run w).2.stripe.statusOf old =
    some .canceled
  old_row : (((handle_event (.checkout_session_completed session)).run w).2.row_of old).map
    (fun r => r.val.status) = some .CANCELED
  new_row : (((handle_event (.checkout_session_completed session)).run w).2.rows_of id).length = 1

/-- The old subscription can still be canceled at Stripe, and the row of the new
one is there or can be made. -/
structure Upgradable (u : UUID) (id old : StripeId) (w : World) : Prop where
  stripe : w.stripe.statusOf old ≠ some .canceled
  row : w.row_of id ≠ none ∨ (w.others u (some old)).length ≤ 1

section

variable {u p : UUID} {id old : StripeId} {S : Row StripeSubscription} {w : World}

theorem others_length {r : Row Subscription} (hr : w.row_of old = some r) :
    ((w.end_upgraded old).access_rows u w.clock).length = (w.others u (some old)).length :=
  ((List.perm_ext_iff_of_nodup (Table.nodup_select _ _) (others_nodup _ _ _)).mpr
    fun _ => mem_access_end_upgraded hr).length_eq

/-- What the first half of an upgrade leaves when Stripe lets it through. -/
theorem Good.end_upgraded (id : StripeId) (hg : Good w) {r : Row Subscription}
    (hr : w.row_of old = some r) :
    Good (w.end_upgraded old) ∧ w.Grows (w.end_upgraded old) ∧
      ((w.end_upgraded old).row_of id = none ↔ w.row_of id = none) ∧
      ∃ r', (w.end_upgraded old).row_of old = some r' ∧ r'.val.status = .CANCELED := by
  have hgr : w.Grows (w.set_status old .canceled) := w.grows_set_status old (by simp)
  have hg1 : Good (w.set_status old .canceled) :=
    hg.change (@Change.status (.stop old) w w .canceled old (by simp) fun _ hv => hv)
  obtain ⟨hmem, _, hps⟩ := World.row_of_eq_some.mp hr
  rw [World.end_upgraded, hr]
  refine ⟨hg1.patch _, hgr.trans (World.grows_update_subscription _ _ _), ?_,
    _, World.row_of_patch (w := w.set_status old .canceled) _ hr, rfl⟩
  by_cases hid : old = id
  · rw [← hid, hr, World.row_of_patch (w := w.set_status old .canceled) _ hr]
    simp
  · rw [World.row_of_patch_other (w := w.set_status old .canceled) _ hmem
      (by rw [hps]; simpa using hid)]
    rfl

theorem Created.canceled {s : Subscription} {o : Option (Row Subscription)}
    {r r' : Row Subscription}
    {w' : World} (h : Created id s o r w w') (hr : w.row_of old = some r')
    (hc : r'.val.status = .CANCELED) :
    (w'.row_of old).map (fun r => r.val.status) = some .CANCELED := by
  obtain ⟨hmem, hp, hps⟩ := World.row_of_eq_some.mp hr
  have hstay : ∃ r1 ∈ (w.demote o).db.subscriptions.rows, r1.val.status = .CANCELED ∧
      r1.val.provider = .STRIPE ∧ r1.val.provider_subscription_id = some old := by
    rcases o with _ | o
    · exact ⟨r', hmem, hc, hp, hps⟩
    · by_cases hid : r'.id = o.id
      · exact ⟨⟨r'.id, SubscriptionPatch.demote.apply r'.val⟩,
          World.mem_update_subscription.mpr (Or.inl ⟨r', hmem, hid, rfl⟩), rfl, hp, hps⟩
      · exact ⟨r', World.mem_update_subscription.mpr (Or.inr ⟨hmem, hid⟩), hc, hp, hps⟩
  obtain ⟨r1, hr1, hc1, hp1, hps1⟩ := hstay
  have hrow : w'.row_of old = some r1 := by
    refine World.row_of_eq_some.mpr ⟨?_, hp1, hps1⟩
    rw [h.rows]
    exact List.mem_append_left _ hr1
  rw [hrow, Option.map_some, hc1]

theorem not_upgraded_of_error {session : SessionObject} {e : Err} {w' : World}
    (h : (user_subscribe session).run w = (.error e, w')) : ¬ Upgraded id old session w := by
  intro hu
  have hret := hu.returns
  change ((user_subscribe session >>= fun _ => (pure () : M Unit)).run w).1 = .ok () at hret
  rw [run_bind_error h] at hret
  cases hret

theorem upgraded_of_run {session : SessionObject} {r : Row Subscription} {w' : World}
    (h : (user_subscribe session).run w = (.ok r, w'))
    (hstripe : w'.stripe.statusOf old = some .canceled)
    (hold : (w'.row_of old).map (fun r => r.val.status) = some .CANCELED)
    (hrow : w'.row_of id ≠ none) : Upgraded id old session w := by
  have hend : (handle_event (.checkout_session_completed session)).run w = (.ok (), w') :=
    run_bind_ok h _
  refine ⟨by rw [hend], by rw [hend]; exact hstripe, by rw [hend]; exact hold, ?_⟩
  rw [hend, World.rows_of_eq]
  obtain ⟨r', hr'⟩ := Option.ne_none_iff_exists'.mp hrow
  rw [hr']
  rfl

/-- A delivery of an upgrade, from whatever good state, ends it exactly when it
still can. -/
theorem Good.upgrade_iff {session : SessionObject} (hg : Good w)
    (hsid : session.subscription = some id) (href : session.client_reference_id = some (.ofUuid u))
    (hS : w.stripe.subscriptions.byId id = some S) (hn : w.Names u S.val.metadata)
    (hold : S.val.metadata.upgrade_from_subscription_id = some old) :
    Upgraded id old session w ↔ Upgradable u id old w := by
  obtain ⟨p, hp, _⟩ := hn.plan
  obtain ⟨ro, hro, _⟩ := hn.upgrade old hold
  obtain ⟨So, hSo, _⟩ := hg.of_row hro
  have hst : w.stripe.statusOf old = some So.val.status := by
    simp only [Stripe.statusOf, hSo, Option.map_some]
  have hrun := (user_subscribe.after_reads hsid hS hn).1
  rw [hold] at hrun
  have hcancel := cancel_upgraded.spec old w
  rw [hSo] at hcancel
  by_cases hc : So.val.status = .canceled
  · -- Stripe refuses to cancel the old subscription again
    simp only [hc, if_true] at hcancel
    rw [run_bind_error hcancel] at hrun
    exact iff_of_false (not_upgraded_of_error hrun) fun h => h.stripe (by rw [hst, hc])
  · simp only [hc, if_false] at hcancel
    rw [run_bind_ok hcancel] at hrun
    obtain ⟨hg3, hgr3, hrow3, r3, hr3, hc3⟩ := hg.end_upgraded id hro
    have hlive : w.stripe.statusOf old ≠ some .canceled := by
      rw [hst]
      simpa using hc
    have hcan3 : (w.end_upgraded old).stripe.statusOf old = some .canceled := by
      rw [statusOf_end_upgraded, if_pos rfl, hst, Option.map_some]
    obtain ⟨ref, sub, customer⟩ := session
    simp only at hsid href
    subst hsid href
    have hfind := find_or_create.spec id (some (.ofUuid u)) S.val.metadata.plan_id customer
      (w.end_upgraded old)
    have hlen := others_length (u := u) hro
    rw [← clock_end_upgraded w old] at hlen
    rcases hrow : (w.end_upgraded old).row_of id with _ | r
    · simp only [hrow, hp, UUID.parse] at hfind
      rcases hs : scalar_one_or_none ((w.end_upgraded old).access_rows u
          (w.end_upgraded old).clock) with e | o
      · rw [create_subscription.spec, hs] at hfind
        refine iff_of_false (not_upgraded_of_error (hrun.trans (hp ▸ hfind))) fun h => ?_
        have hone := h.row.resolve_left fun h => h (hrow3.mp hrow)
        rw [← hlen, scalar_of_length, hs] at hone
        obtain ⟨_, ho⟩ := hone
        cases ho
      · obtain ⟨S3, hS3, hm3, _⟩ := hgr3.stripe id S hS
        obtain ⟨r, w4, hcreate, hmade⟩ := hg3.create hrow hS3 (by rw [hm3]; exact hn.grows hgr3)
          (by rw [hm3]; exact hp) hs customer .PAST_DUE
        have hend := hrun.trans (hp ▸ hfind.trans hcreate)
        refine iff_of_true (upgraded_of_run hend ?_ (hmade.canceled hr3 hc3) ?_)
          ⟨hlive, Or.inr ?_⟩
        · rw [hmade.stripe]
          exact hcan3
        · simp [hmade.row]
        · rw [← hlen, scalar_of_length]
          exact ⟨o, hs⟩
    · simp only [hrow] at hfind
      refine iff_of_true (upgraded_of_run (hrun.trans hfind) hcan3 ?_ (by simp [hrow]))
        ⟨hlive, Or.inl fun h => ?_⟩
      · rw [hr3, Option.map_some, hc3]
      · rw [hrow3.mpr h] at hrow
        cases hrow

end

/-- An upgrade that is delivered again after any cut of its first handling, and
after any steps of others, ends well exactly when Stripe has not canceled the old
subscription yet and the row of the new one is there or can be made. -/
theorem upgrade_retry {user_repo : UserRepo} {u : UUID} {id old : StripeId}
    {S : Row StripeSubscription} {session : SessionObject} {w w1 w2 : World} {ls : List Label}
    (hw : (billing user_repo).Reachable Initial w) (htells : w.TellsOf session)
    (hsid : session.subscription = some id) (hS : w.stripe.subscriptions.byId id = some S)
    (hu : w.owner id = some u)
    (hold : S.val.metadata.upgrade_from_subscription_id = some old)
    (hcut : w1 ∈ (handle_event (.checkout_session_completed session)).trace w)
    (helse : (billing user_repo).Run (Elsewhere u) w1 ls w2) :
    Upgraded id old session w2 ↔ Upgradable u id old w2 := by
  have hg := billing_good hw
  obtain ⟨id', S', u', hsid', hS', href, hn⟩ := hg.tells htells
  rw [hsid, Option.some.injEq] at hsid'
  subst hsid'
  rw [hS, Option.some.injEq] at hS'
  subst hS'
  rw [World.owner_eq hS hn.user, Option.some.injEq] at hu
  subst hu
  have he : w.Sends (.checkout_session_completed session) := htells
  have hsteps := (handle_event.along (l := .serve (.webhook _) none) hg he rfl).1 w1 hcut
  obtain ⟨hg2, hgr2⟩ := run_good (hsteps.good hg) helse
  have hgr := hsteps.grows.trans hgr2
  obtain ⟨S2, hS2, hm, _⟩ := hgr.stripe id S hS
  exact hg2.upgrade_iff hsid href hS2 (by rw [hm]; exact hn.grows hgr) (by rw [hm]; exact hold)

namespace Sample

/-- Ann has the plan `pro`, has asked for `vip` and has paid the upgrade. -/
def upgrading : World := (billing .user).exec begun
  [paid 0 0, .serve (.upgrade ⟨0, ann⟩ "vip") none, .pay 1 [⟨950, 2500⟩]]

theorem upgrading_reachable : (billing .user).Reachable Initial upgrading :=
  ⟨world, [subscribe "pro", .pay 0 [⟨900, 2000⟩], checkout 0, paid 0 0,
    .serve (.upgrade ⟨0, ann⟩ "vip") none, .pay 1 [⟨950, 2500⟩]], world_initial,
    .of_path (by decide)⟩

def upgrade_to_vip : StripeSubscription where
  customer := some 7
  metadata :=
    { plan_id := some (.ofUuid 1), user_id := some (.ofUuid 0),
      upgrade_from_subscription_id := some 0 }
  items := [⟨950, 2500⟩]

def upgrade_session : SessionObject := ⟨some (.ofUuid 0), some 1, some 7⟩

/-- The handling of the checkout of her upgrade. -/
def upgrade_checkout : M Unit := handle_event (.checkout_session_completed upgrade_session)

end Sample

open Sample in
/-- The process dies before it calls Stripe. -/
theorem upgrade_retry_sample : Upgraded 1 0 upgrade_session (upgrade_checkout.cut 2 upgrading) := by
  have hcut := cut_mem_trace 2 upgrade_checkout upgrading
  exact (upgrade_retry (u := 0) (S := ⟨1, upgrade_to_vip⟩) upgrading_reachable (by decide) rfl
    (by decide) (by decide) rfl hcut (.nil _)).mpr ⟨by decide, by decide⟩

open Sample in
/-- The process dies after Stripe has canceled the old subscription: Stripe
refuses to cancel it again, and ann gets no row for the new one. -/
theorem upgrade_cut_after_stripe_fails_again : ∃ w w1,
    (billing .user).Reachable Initial w ∧ w.TellsOf upgrade_session ∧
    w1 ∈ upgrade_checkout.trace w ∧
    (upgrade_checkout.run w1).1 = .error .stripeError ∧
    (upgrade_checkout.run w1).2.row_of 1 = none ∧
    ¬ Upgraded 1 0 upgrade_session w1 := by
  have hfail : (upgrade_checkout.run (upgrade_checkout.cut 3 upgrading)).1 =
    .error .stripeError := by decide
  refine ⟨upgrading, upgrade_checkout.cut 3 upgrading, upgrading_reachable, by decide,
    cut_mem_trace _ _ _, hfail, by decide, fun h => ?_⟩
  have hret := h.returns
  change (upgrade_checkout.run (upgrade_checkout.cut 3 upgrading)).1 = .ok () at hret
  rw [hfail] at hret
  cases hret

end saas
