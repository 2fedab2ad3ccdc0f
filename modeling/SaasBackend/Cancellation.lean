-- What a cancellation means later. Here: a canceled row stays canceled and a
-- deleted subscription gives no access again. At Stripe: what is canceled here
-- is not renewed there. Both fail on one kind of step each, and hold in every
-- run without it.
import SaasBackend.BillingSteps

open relational async

namespace saas

/-! ## A canceled row stays canceled -/

/-- The subscription gives no access at `t`, and so at no later time. -/
def Subscription.Over (t : Time) (s : Subscription) : Prop := s.grants_access t = false

theorem Subscription.Over.later {t t' : Time} {s : Subscription} (h : s.Over t) (ht : t ≤ t') :
    s.Over t' := by
  unfold Over at *
  by_contra hg
  rw [Bool.not_eq_false] at hg
  rw [grants_access_earlier hg ht] at h
  cases h

/-- A period that ends now gives no access from now on. -/
theorem Subscription.over_of_end {t : Time} {s : Subscription}
    (h : s.current_period_end = some t) : s.Over t := by
  unfold Over
  by_contra hg
  rw [Bool.not_eq_false, grants_access_iff, h] at hg
  obtain ⟨⟨e, he, hlt⟩, _⟩ := hg
  cases he
  exact Nat.lt_irrefl _ hlt

/-- Every canceled row of `w` is a canceled row of `w'`; one that gives no
access any more still gives none. -/
def World.Absorbs (w w' : World) : Prop :=
  ∀ r ∈ w.db.subscriptions.rows, r.val.status = .CANCELED →
    ∃ r' ∈ w'.db.subscriptions.rows, r'.id = r.id ∧ r'.val.status = .CANCELED ∧
      (r.val.Over w.clock → r'.val.Over w'.clock)

theorem World.Absorbs.refl (w : World) : w.Absorbs w := fun r hr hc => ⟨r, hr, rfl, hc, id⟩

theorem World.Absorbs.trans {w w' w'' : World} (h : w.Absorbs w') (h' : w'.Absorbs w'') :
    w.Absorbs w'' := by
  intro r hr hc
  obtain ⟨r', hr', hid, hc', hov⟩ := h r hr hc
  obtain ⟨r'', hr'', hid', hc'', hov'⟩ := h' r' hr' hc'
  exact ⟨r'', hr'', hid'.trans hid, hc'', fun ho => hov' (hov ho)⟩

theorem World.Absorbs.of_rows {w w' : World} (hc : w.clock ≤ w'.clock)
    (h : ∀ r ∈ w.db.subscriptions.rows, r.val.status = .CANCELED →
      r ∈ w'.db.subscriptions.rows) : w.Absorbs w' :=
  fun r hr hcan => ⟨r, h r hr hcan, rfl, hcan, fun ho => ho.later hc⟩

/-- A patch of a row that is not canceled. -/
theorem World.Absorbs.patch {w : World} {r₀ : Row Subscription} (p : SubscriptionPatch)
    (hr₀ : r₀ ∈ w.db.subscriptions.rows) (hne : r₀.val.status ≠ .CANCELED) :
    w.Absorbs (w.update_subscription r₀.id p) := by
  refine of_rows (Nat.le_refl w.clock) fun r hr hc => ?_
  refine mem_update_subscription.mpr (Or.inr ⟨hr, fun hid => hne ?_⟩)
  rw [← Table.eq_of_id hr hr₀ hid]
  exact hc

/-- A cancellation: of a row that ends now, or of one that gives access. -/
theorem World.Absorbs.cancel {w : World} {r₀ : Row Subscription} (at_ : Time) {stop : Option Time}
    (hr₀ : r₀ ∈ w.db.subscriptions.rows)
    (hstop : stop = some w.clock ∨ w.access_rows r₀.val.user_id w.clock = [r₀]) :
    w.Absorbs (w.update_subscription r₀.id (.cancel at_ stop)) := by
  intro r hr hc
  by_cases hid : r.id = r₀.id
  · refine ⟨⟨r.id, (SubscriptionPatch.cancel at_ stop).apply r.val⟩,
      mem_update_subscription.mpr (Or.inl ⟨r, hr, hid, rfl⟩), rfl, rfl, fun hov => ?_⟩
    rcases hstop with rfl | hacc
    · exact Subscription.over_of_end rfl
    · have hmem : r₀ ∈ w.access_rows r₀.val.user_id w.clock := by simp [hacc]
      have hg := (mem_access_rows.mp hmem).2.2
      rw [← Table.eq_of_id hr hr₀ hid, hov] at hg
      cases hg
  · exact ⟨r, mem_update_subscription.mpr (Or.inr ⟨hr, hid⟩), rfl, hc, id⟩

theorem World.Absorbs.demote (w : World) (old : Option (Row Subscription)) :
    w.Absorbs (w.demote old) := by
  cases old with
  | none => exact refl w
  | some o =>
    intro r hr hc
    by_cases hid : r.id = o.id
    · refine ⟨⟨r.id, SubscriptionPatch.demote.apply r.val⟩,
        mem_update_subscription.mpr (Or.inl ⟨r, hr, hid, rfl⟩), rfl, rfl, fun hov => ?_⟩
      change Subscription.grants_access w.clock _ = false
      unfold Subscription.Over at hov
      simpa [Subscription.grants_access, SubscriptionPatch.demote, hc] using hov
    · exact ⟨r, mem_update_subscription.mpr (Or.inr ⟨hr, hid⟩), rfl, hc, id⟩

/-- The label does not renew a canceled row. -/
def NoRevival (w : World) (l : Label) : Prop :=
  ∀ x ∈ w.renewal l, x.1.val.status ≠ .CANCELED

instance (w : World) (l : Label) : Decidable (NoRevival w l) :=
  inferInstanceAs (Decidable (∀ x ∈ w.renewal l, _))

theorem Change.absorbs {l : Label} {w₀ w w' : World} (h : Change l w₀ w w')
    (hl : NoRevival w₀ l) : w.Absorbs w' := by
  cases h with
  | quiet h =>
    exact .of_rows (Nat.le_of_eq h.clock.symm) fun r hr _ => by rwa [h.subscriptions]
  | open_session => exact .of_rows (Nat.le_refl _) fun r hr _ => hr
  | status => exact .of_rows (Nat.le_refl _) fun r hr _ => hr
  | period he hid hw hr hS hi =>
    subst hw
    exact .patch _ (World.row_of_eq_some.mp hr).1 (hl _ (World.renewal_eq he hid hr hS hi))
  | cancel at_ hr hst hstop => exact .cancel at_ (World.row_of_eq_some.mp hr).1 hstop
  | past_due hr hc => exact .patch _ hr hc
  | create _ _ _ _ _ _ _ hdb =>
    obtain ⟨_, _, hrows, _⟩ := Db.insert_subscription_ok hdb
    refine (World.Absorbs.demote w _).trans (.of_rows (Nat.le_refl _) fun r hr _ => ?_)
    simp only [hrows]
    exact List.mem_append_left _ hr
  | tick d => exact .of_rows (Nat.le_add_right _ _) fun r hr _ => hr
  | pay => exact .of_rows (Nat.le_refl _) fun r hr _ => hr
  | bill => exact .of_rows (Nat.le_refl _) fun r hr _ => hr

theorem Steps.absorbs {l : Label} {w₀ w : World} (h : Steps l w₀ w) (hl : NoRevival w₀ l) :
    w₀.Absorbs w := by
  induction h with
  | refl => exact .refl w₀
  | tail _ hc ih => exact ih.trans (hc.absorbs hl)

/-- A run that renews no canceled row. -/
theorem run_absorbs {user_repo : UserRepo} {w w' : World} {ls : List Label} (hg : Good w)
    (h : (billing user_repo).Run NoRevival w ls w') : w.Absorbs w' := by
  have hboth : Good w' ∧ w.Absorbs w' := by
    apply h.invariant (I := fun t => Good t ∧ w.Absorbs t) ⟨hg, .refl w⟩
    rintro t l ⟨hgt, hab⟩ he hl
    have hs := billing_steps hgt he
    exact ⟨hs.good hgt, hab.trans (hs.absorbs hl)⟩
  exact hboth.2

/-- The handler of a deletion ends the period and cancels the row. -/
theorem deleted_row (user_repo : UserRepo) {w : World} {d : DeletedSubscription} {id : StripeId}
    {r : Row Subscription} (hd : d.id = some id) (hr : w.row_of id = some r) :
    ∃ r', ((billing user_repo).next w
        (.serve (.webhook (.customer_subscription_deleted d)) none)).row_of id = some r' ∧
      r'.val.status = .CANCELED ∧ r'.val.Over ((billing user_repo).next w
        (.serve (.webhook (.customer_subscription_deleted d)) none)).clock := by
  obtain ⟨_, ts⟩ := d
  simp only at hd
  subst hd
  obtain ⟨hmem, hp, hps⟩ := World.row_of_eq_some.mp hr
  let p := SubscriptionPatch.cancel (((truthy ts).map fromtimestamp).getD w.clock) (some w.clock)
  have hrun : (StripeGateway.handle_subscription_deleted ⟨some id, ts⟩).run w =
      (.ok ⟨r.id, p.apply r.val⟩, w.update_subscription r.id p) := by
    rw [StripeGateway.handle_subscription_deleted.spec, hr]
  have hnext : (billing user_repo).next w
      (.serve (.webhook (.customer_subscription_deleted ⟨some id, ts⟩)) none) =
      ((TaskName.send_cancel_subscription_email_task.delay (some ⟨r.id, p.apply r.val⟩)).run
        (w.update_subscription r.id p)).2 := by
    change ((StripeGateway.handle_subscription_deleted ⟨some id, ts⟩ >>= _).run w).2 = _
    rw [Proc.run_bind_ok hrun, Proc.run_suppress]
  have hq := Acts.quiet (TaskName.delay.acts .send_cancel_subscription_email_task
    (some ⟨r.id, p.apply r.val⟩)) (w.update_subscription r.id p)
  rw [hnext, World.row_of_congr hq.subscriptions, hq.clock]
  refine ⟨⟨r.id, p.apply r.val⟩, World.row_of_eq_some.mpr ⟨?_, hp, hps⟩, rfl,
    Subscription.over_of_end rfl⟩
  exact World.mem_update_subscription.mpr (Or.inl ⟨r, hmem, rfl, rfl⟩)

/-- In a run that renews no canceled row, a canceled row stays canceled; and a
subscription whose deletion was handled gives no access from then on. -/
theorem canceled_is_absorbing {user_repo : UserRepo} {w w' : World} {ls : List Label}
    (hw : (billing user_repo).Reachable Initial w)
    (hrun : (billing user_repo).Run NoRevival w ls w') :
    (∀ r ∈ w.db.subscriptions.rows, r.val.status = .CANCELED →
      ∃ r' ∈ w'.db.subscriptions.rows, r'.id = r.id ∧ r'.val.status = .CANCELED) ∧
    (∀ d id r ls', ls = .serve (.webhook (.customer_subscription_deleted d)) none :: ls' →
      d.id = some id → w.row_of id = some r →
      ∃ r', w'.row_of id = some r' ∧ r'.val.status = .CANCELED ∧
        ∀ t, w'.clock ≤ t → r'.val.grants_access t = false) := by
  have hg := billing_good hw
  constructor
  · intro r hr hc
    obtain ⟨r', hr', hid, hc', _⟩ := run_absorbs hg hrun r hr hc
    exact ⟨r', hr', hid, hc'⟩
  · rintro d id r ls' rfl hd hr
    obtain ⟨he, hl, hrest⟩ := hrun.cons_inv
    have hg1 := (billing_steps hg he).good hg
    obtain ⟨r1, hr1, hc1, hov1⟩ := deleted_row user_repo hd hr
    obtain ⟨r', hr', hid', hc', hov'⟩ :=
      run_absorbs hg1 hrest r1 (World.row_of_eq_some.mp hr1).1 hc1
    obtain ⟨r'', hrow, hid'', _⟩ := (run_good hg1 hrest).2.row_of hr1
    have hsame : r'' = r' :=
      Table.eq_of_id (World.row_of_eq_some.mp hrow).1 hr' (hid''.trans hid'.symm)
    subst hsame
    exact ⟨r'', hrow, hc', fun t ht => (hov' hov1).later ht⟩

namespace Sample

/-- A subscription that was bought, paid, and canceled at Stripe. -/
def bought : List Label :=
  [subscribe "pro", .pay 0 [⟨900, 2000⟩], checkout 0, paid 0 0, .stop 0]

/-- The event that Stripe deleted the subscription. -/
def deleted : Label :=
  .serve (.webhook (.customer_subscription_deleted ⟨some 0, some 1000⟩)) none

/-- The event that the payment of an invoice failed. -/
def failed (id subscription : StripeId) : Label :=
  .serve (.webhook (.invoice_payment_failed (invoice id subscription .subscription_cycle))) none

end Sample

open Sample in
/-- After the deletion a failed invoice and the passing of time change nothing. -/
theorem canceled_is_absorbing_sample :
    ∃ r', ((billing .user).exec ((billing .user).exec world bought)
        [deleted, failed 1 0, .tick 5]).row_of 0 = some r' ∧
      r'.val.status = .CANCELED ∧
        ∀ t, fromtimestamp 1000 + 5 ≤ t → r'.val.grants_access t = false :=
  (canceled_is_absorbing ⟨world, bought, world_initial, .of_path (by decide)⟩
    (.of_path (by decide))).2 _ 0 _ _ rfl rfl rfl

open Sample in
/-- An invoice event that arrives after the deletion brings the subscription
back to life, with access until the end of the period. -/
theorem late_invoice_revives : ∃ w w',
    (billing .user).Reachable Initial w ∧
    (billing .user).Run (fun _ _ => True) w [paid 1 0] w' ∧
    (w.row_of 0).map (fun r => r.val.status) = some .CANCELED ∧
    (w'.row_of 0).map (fun r => r.val.status) = some .ACTIVE ∧
    (w'.row_of 0).map (fun r => r.val.grants_access w'.clock) = some true :=
  ⟨(billing .user).exec world (bought ++ [deleted]),
    (billing .user).exec world (bought ++ [deleted, paid 1 0]),
    ⟨world, _, world_initial, .of_path (by decide)⟩, .of_path (by decide), by decide, by decide,
    by decide⟩

/-! ## What is canceled here is not renewed at Stripe -/

/-- A Stripe subscription that will not charge its customer again. -/
def World.Ends (w : World) (id : StripeId) : Prop :=
  w.stripe.statusOf id = some .canceled ∨ w.stripe.statusOf id = some .cancel_at_period_end

/-- Every canceled row is of a subscription that Stripe does not renew. -/
def World.Paired (w : World) : Prop :=
  ∀ r ∈ w.db.subscriptions.rows, r.val.status = .CANCELED →
    ∀ id, r.val.provider_subscription_id = some id → w.stripe.statusOf id ≠ some .live

/-- The label demotes no row whose subscription is live at Stripe. -/
def NoSilentDemotion (w : World) (l : Label) : Prop :=
  ∀ o ∈ l.event.bind w.demoted, ∀ id ∈ o.val.provider_subscription_id,
    w.stripe.statusOf id ≠ some .live

instance (w : World) (l : Label) : Decidable (NoSilentDemotion w l) :=
  inferInstanceAs (Decidable (∀ o ∈ l.event.bind w.demoted, _))

/-- A canceled row after a change was canceled before, or its subscription is
not live. -/
theorem World.Paired.of_rows {w w' : World} (h : w.Paired) (hg : Good w) (hgr : w.Grows w')
    (hrows : ∀ r' ∈ w'.db.subscriptions.rows, r'.val.status = .CANCELED →
      (∃ r ∈ w.db.subscriptions.rows, r.val.status = .CANCELED ∧
        r'.val.provider_subscription_id = r.val.provider_subscription_id) ∨
      ∀ id, r'.val.provider_subscription_id = some id → w'.stripe.statusOf id ≠ some .live) :
    w'.Paired := by
  intro r' hr' hc' id hid
  rcases hrows r' hr' hc' with ⟨r, hr, hc, hps⟩ | hn
  · obtain ⟨_, id', S, hid', hS, _⟩ := hg.rows r hr
    rw [hps, hid', Option.some.injEq] at hid
    subst hid
    exact hgr.not_live hS (h r hr hc id' hid')
  · exact hn id hid

theorem World.Paired.patch {w : World} (h : w.Paired) (hg : Good w) {r₀ : Row Subscription}
    {p : SubscriptionPatch} (hr₀ : r₀ ∈ w.db.subscriptions.rows)
    (hp : (p.apply r₀.val).status = .CANCELED →
      ∀ id, r₀.val.provider_subscription_id = some id → w.stripe.statusOf id ≠ some .live) :
    (w.update_subscription r₀.id p).Paired := by
  refine h.of_rows hg (w.grows_update_subscription _ _) fun r' hr' hc' => ?_
  rcases mem_update_subscription.mp hr' with ⟨r, hr, hid, rfl⟩ | ⟨hr, _⟩
  · obtain rfl := Table.eq_of_id hr hr₀ hid
    refine Or.inr fun id hps => hp hc' id ?_
    rw [← hps, p.provider_subscription_id]
  · exact Or.inl ⟨r', hr, hc', rfl⟩

theorem Change.paired {l : Label} {w₀ w w' : World} (h : Change l w₀ w w') (hg : Good w)
    (hw : w.Paired) (hl : NoSilentDemotion w₀ l) : w'.Paired := by
  have hgr := h.grows
  have hsame : ∀ r' ∈ w.db.subscriptions.rows, r'.val.status = .CANCELED →
      ∃ r ∈ w.db.subscriptions.rows, r.val.status = .CANCELED ∧
        r'.val.provider_subscription_id = r.val.provider_subscription_id :=
    fun r hr hc => ⟨r, hr, hc, rfl⟩
  cases h with
  | quiet h =>
    refine hw.of_rows hg hgr fun r hr hc => Or.inl (hsame r ?_ hc)
    rwa [h.subscriptions] at hr
  | open_session => exact hw.of_rows hg hgr fun r hr hc => Or.inl (hsame r hr hc)
  | status => exact hw.of_rows hg hgr fun r hr hc => Or.inl (hsame r hr hc)
  | period _ _ _ hr =>
    exact hw.patch hg (World.row_of_eq_some.mp hr).1 fun hc => by cases hc
  | cancel at_ hr hst =>
    obtain ⟨hmem, _, hps⟩ := World.row_of_eq_some.mp hr
    refine hw.patch hg hmem fun _ id hid => ?_
    rw [hps, Option.some.injEq] at hid
    rwa [← hid]
  | past_due hr => exact hw.patch hg hr fun hc => by cases hc
  | @create e id u p c st S old r db hle hst hnone hS hn hold hdem hdb =>
    have hdemote : (w.demote old).Paired := by
      rcases old with _ | o
      · exact hw
      · obtain ⟨hd, hstatus⟩ := hdem o rfl
        have ho := (access_found hold).2.1
        refine hw.patch hg ho fun _ id hid => ?_
        rw [hstatus id hid]
        exact hl o (by simp [hle, hd]) id hid
    have hgd : Good (w.demote old) := by
      refine hg.rows_only (w.grows_demote old) (by cases old <;> rfl) fun r hr => ?_
      exact Or.inl (World.rows_demote hr)
    obtain ⟨hnew, _, hrows, _⟩ := Db.insert_subscription_ok hdb
    refine hdemote.of_rows hgd (World.grows_insert hdb) fun r' hr' hc' => ?_
    simp only [hrows, List.mem_append, List.mem_singleton] at hr'
    rcases hr' with hr' | rfl
    · exact Or.inl ⟨r', hr', hc', rfl⟩
    · rw [hnew] at hc'
      rcases hst with rfl | rfl <;> cases hc'
  | tick d => exact hw.of_rows hg hgr fun r hr hc => Or.inl (hsame r hr hc)
  | pay => exact hw.of_rows hg hgr fun r hr hc => Or.inl (hsame r hr hc)
  | bill => exact hw.of_rows hg hgr fun r hr hc => Or.inl (hsame r hr hc)

theorem Steps.paired {l : Label} {w₀ w : World} (h : Steps l w₀ w) (hg : Good w₀)
    (hw : w₀.Paired) (hl : NoSilentDemotion w₀ l) : w.Paired := by
  induction h with
  | refl => exact hw
  | tail hs hc ih => exact hc.paired (Steps.good hs hg) ih hl

/-- In a run that demotes no live subscription, every canceled row is of a
subscription that Stripe has canceled or ends with its period. -/
theorem canceled_is_not_renewed {user_repo : UserRepo} {w₀ w : World} {ls : List Label}
    (h0 : Initial w₀) (hrun : (billing user_repo).Run NoSilentDemotion w₀ ls w) :
    ∀ r ∈ w.db.subscriptions.rows, r.val.status = .CANCELED →
      ∃ id, r.val.provider_subscription_id = some id ∧ w.Ends id := by
  have hboth : Good w ∧ w.Paired := by
    apply hrun.invariant (I := fun t => Good t ∧ t.Paired)
    · exact ⟨h0.good, fun r hr => by simp [h0.subscriptions] at hr⟩
    · rintro t l ⟨hg, hp⟩ he hl
      have hs := billing_steps hg he
      exact ⟨hs.good hg, hs.paired hg hp hl⟩
  intro r hr hc
  obtain ⟨_, id, S, hid, hS, _⟩ := hboth.1.rows r hr
  have hlive := hboth.2 r hr hc id hid
  refine ⟨id, hid, ?_⟩
  simp only [World.Ends, Stripe.statusOf, hS, Option.map_some, Option.some.injEq, ne_eq] at *
  rcases hst : S.val.status with _ | _ | _
  · exact absurd hst hlive
  · exact Or.inr rfl
  · exact Or.inl rfl

open Sample in
theorem canceled_is_not_renewed_sample :
    ((billing .user).exec world (bought ++ [deleted])).Ends 0 := by
  obtain ⟨id, hid, hends⟩ := canceled_is_not_renewed world_initial
    (System.Run.of_path (S := billing .user)
      (show System.Path _ _ _ (bought ++ [deleted]) by decide))
    ⟨0, { SubscriptionRepoistory.new_row 0 0 (some 0) (some 7) .CANCELED (fromtimestamp 900) with
      current_period_end := some (fromtimestamp 1000)
      canceled_at := some (fromtimestamp 1000) }⟩ (by decide) rfl
  cases hid
  exact hends

open Sample in
/-- Two checkouts are open and both are paid: the second checkout event cancels
the first subscription here, and Stripe goes on to renew it. -/
theorem second_checkout_leaves_the_first_live : ∃ w,
    (billing .user).Reachable Initial w ∧
    (w.row_of 0).map (fun r => r.val.status) = some .CANCELED ∧
    w.stripe.statusOf 0 = some .live :=
  ⟨(billing .user).exec world
      [subscribe "pro", subscribe "vip", .pay 0 [⟨900, 2000⟩], checkout 0, paid 0 0,
        .pay 1 [⟨900, 2000⟩], checkout 1],
    ⟨world, _, world_initial, .of_path (by decide)⟩, by decide, by decide⟩

end saas
