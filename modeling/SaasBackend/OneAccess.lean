-- One subscription with access for each user. It fails when a paid invoice
-- gives access to a second subscription of a user, and holds in every run
-- without that; then no lookup of a subscription meets two rows.
import SaasBackend.BillingSteps

open relational async

namespace saas

open Proc SubscriptionRepoistory StripeGateway SubscriptionService

/-! ## The invariant -/

/-- No user has two rows with access now. -/
def World.OneAccess (w : World) : Prop :=
  ∀ u, ∀ r ∈ w.access_rows u w.clock, ∀ r' ∈ w.access_rows u w.clock, r.id = r'.id

theorem World.OneAccess.scalar {w : World} (h : w.OneAccess) (u : UUID) {t : Time}
    (ht : w.clock ≤ t) : ∃ o, scalar_one_or_none (w.access_rows u t) = .ok o := by
  have hall : ∀ a ∈ w.access_rows u t, ∀ b ∈ w.access_rows u t, a = b := by
    intro a ha b hb
    have hid := h u a (access_rows_earlier ha ht) b (access_rows_earlier hb ht)
    exact Table.eq_of_id (mem_access_rows.mp ha).1 (mem_access_rows.mp hb).1 hid
  rcases Table.nil_or_singleton (Table.nodup_select _ _) hall with h0 | ⟨a, h1⟩
  · exact ⟨none, scalar_one_or_none_eq_ok.mpr h0⟩
  · exact ⟨some a, scalar_one_or_none_eq_ok.mpr h1⟩

/-- Whatever has access after a step had it before. -/
theorem World.OneAccess.of_rows {w w' : World} (h : w.OneAccess)
    (hrows : ∀ u, ∀ r' ∈ w'.access_rows u w'.clock, ∃ r ∈ w.access_rows u w.clock, r'.id = r.id) :
    w'.OneAccess := by
  intro u a ha b hb
  obtain ⟨a', ha', hida⟩ := hrows u a ha
  obtain ⟨b', hb', hidb⟩ := hrows u b hb
  rw [hida, hidb, h u a' ha' b' hb']

/-- The same rows, at the same time or later. -/
theorem World.OneAccess.same {w w' : World} (h : w.OneAccess) (hc : w.clock ≤ w'.clock)
    (hs : w'.db.subscriptions = w.db.subscriptions) : w'.OneAccess := by
  refine h.of_rows fun u r hr => ⟨r, ?_, rfl⟩
  rw [access_rows_congr hs] at hr
  exact access_rows_earlier hr hc

/-- A patched row that has access had it before. -/
theorem World.OneAccess.patch {w : World} (h : w.OneAccess) {r₀ : Row Subscription}
    {p : SubscriptionPatch} (hr₀ : r₀ ∈ w.db.subscriptions.rows)
    (hp : (p.apply r₀.val).grants_access w.clock = true → r₀.val.grants_access w.clock = true) :
    (w.update_subscription r₀.id p).OneAccess := by
  refine h.of_rows fun u r' hr' => ?_
  obtain ⟨hmem, hu, hacc⟩ := mem_access_rows.mp hr'
  rcases mem_update_subscription.mp hmem with ⟨r, hr, hid, rfl⟩ | ⟨hr, _⟩
  · obtain rfl := Table.eq_of_id hr hr₀ hid
    rw [p.user_id] at hu
    exact ⟨r, mem_access_rows.mpr ⟨hr, hu, hp hacc⟩, rfl⟩
  · exact ⟨r', mem_access_rows.mpr ⟨hr, hu, hacc⟩, rfl⟩

/-- A row that gets access while no other row of its user has any. -/
theorem World.OneAccess.renew {w : World} (h : w.OneAccess) {r₀ : Row Subscription}
    (p : SubscriptionPatch) (hr₀ : r₀ ∈ w.db.subscriptions.rows)
    (hall : ∀ r ∈ w.access_rows r₀.val.user_id w.clock, r.id = r₀.id) :
    (w.update_subscription r₀.id p).OneAccess := by
  intro u a ha b hb
  have hsub : ∀ r' ∈ (w.update_subscription r₀.id p).access_rows u w.clock,
      r'.id = r₀.id ∧ u = r₀.val.user_id ∨ r'.id ≠ r₀.id ∧ r' ∈ w.access_rows u w.clock := by
    intro r' hr'
    obtain ⟨hmem, hu, hacc⟩ := mem_access_rows.mp hr'
    rcases mem_update_subscription.mp hmem with ⟨r, hr, hid, rfl⟩ | ⟨hr, hne⟩
    · obtain rfl := Table.eq_of_id hr hr₀ hid
      exact Or.inl ⟨rfl, by rw [← hu, p.user_id]⟩
    · exact Or.inr ⟨hne, mem_access_rows.mpr ⟨hr, hu, hacc⟩⟩
  rcases hsub a ha with ⟨hida, rfl⟩ | ⟨hna, ha⟩ <;> rcases hsub b hb with ⟨hidb, hu⟩ | ⟨hnb, hb⟩
  · rw [hida, hidb]
  · exact absurd (hall b hb) hnb
  · subst hu
    exact absurd (hall a ha) hna
  · exact h u a ha b hb

/-- The label gives no second row of a user access: a row is renewed into the
future only if no other row of its user has access. -/
def NoSecondAccess (w : World) (l : Label) : Prop :=
  ∀ x ∈ w.renewal l, w.clock < x.2 →
    ∀ o ∈ w.access_rows x.1.val.user_id w.clock, o.id = x.1.id

instance (w : World) (l : Label) : Decidable (NoSecondAccess w l) :=
  inferInstanceAs (Decidable (∀ x ∈ w.renewal l, _ → _))

theorem Change.one_access {l : Label} {w₀ w w' : World} (h : Change l w₀ w w')
    (hw : w.OneAccess) (hl : NoSecondAccess w₀ l) : w'.OneAccess := by
  cases h with
  | quiet h => exact hw.same (Nat.le_of_eq h.clock.symm) h.subscriptions
  | open_session => exact hw.same (Nat.le_refl _) rfl
  | status => exact hw.same (Nat.le_refl _) rfl
  | @period invoice id r S item items he hid heq hr hS hi =>
    subst heq
    have hmem := (World.row_of_eq_some.mp hr).1
    by_cases hlt : w.clock < fromtimestamp item.current_period_end
    · exact hw.renew _ hmem (hl _ (World.renewal_eq he hid hr hS hi) hlt)
    · refine hw.patch hmem fun hacc => absurd ?_ hlt
      obtain ⟨⟨e, hend, hlt'⟩, _⟩ := Subscription.grants_access_iff.mp hacc
      cases hend
      exact hlt'
  | @cancel id r stop at_ hr hst hstop =>
    refine hw.patch (World.row_of_eq_some.mp hr).1 fun hacc => ?_
    rcases hstop with rfl | hone
    · obtain ⟨⟨e, hend, hlt⟩, _⟩ := Subscription.grants_access_iff.mp hacc
      cases hend
      exact absurd hlt (Nat.lt_irrefl _)
    · have hr' : r ∈ w.access_rows r.val.user_id w.clock := by simp [hone]
      exact (World.mem_access_rows.mp hr').2.2
  | past_due hr hc =>
    refine hw.patch hr fun hacc => ?_
    rcases (Subscription.grants_access_iff.mp hacc).2 with hst | hst <;> cases hst
  | @create e id u p c st S old r db _ _ _ _ _ hold _ hdb =>
    have hdemote : (w.demote old).OneAccess := by
      rcases old with _ | o
      · exact hw
      · have ho : o ∈ w.access_rows u w.clock := by simp [(access_found hold).1]
        obtain ⟨hmem, _, hacc⟩ := World.mem_access_rows.mp ho
        exact hw.patch hmem fun _ => hacc
    have hclock : (w.demote old).clock = w.clock := by cases old <;> rfl
    obtain ⟨hnew, _, hrows, _⟩ := Db.insert_subscription_ok hdb
    refine hdemote.of_rows fun v r' hr' => ?_
    obtain ⟨hmem, hv, hacc⟩ := World.mem_access_rows.mp hr'
    simp only [hrows, List.mem_append, List.mem_singleton] at hmem
    rcases hmem with hmem | rfl
    · exact ⟨r', World.mem_access_rows.mpr ⟨hmem, hv, hacc⟩, rfl⟩
    · rw [hnew] at hacc
      obtain ⟨⟨e, hend, hlt⟩, _⟩ := Subscription.grants_access_iff.mp hacc
      cases hend
      rw [hclock] at hlt
      exact absurd hlt (Nat.lt_irrefl _)
  | tick d => exact hw.same (Nat.le_add_right _ _) rfl
  | pay => exact hw.same (Nat.le_refl _) rfl
  | bill => exact hw.same (Nat.le_refl _) rfl

theorem Steps.one_access {l : Label} {w₀ w : World} (h : Steps l w₀ w) (hw : w₀.OneAccess)
    (hl : NoSecondAccess w₀ l) : w.OneAccess := by
  induction h with
  | refl => exact hw
  | tail _ hc ih => exact hc.one_access ih hl

theorem run_one_access {user_repo : UserRepo} {w₀ w : World} {ls : List Label} (h0 : Initial w₀)
    (hrun : (billing user_repo).Run NoSecondAccess w₀ ls w) : Good w ∧ w.OneAccess := by
  apply hrun.invariant (I := fun t => Good t ∧ t.OneAccess)
  · refine ⟨h0.good, fun u r hr => ?_⟩
    have hmem := (World.mem_access_rows.mp hr).1
    simp [h0.subscriptions] at hmem
  · rintro t l ⟨hg, ho⟩ he hl
    have hs := billing_steps hg he
    exact ⟨hs.good hg, hs.one_access ho hl⟩

/-! ## No lookup meets two rows -/

/-- Any error but `MultipleResultsFound`. -/
def NotMultiple (e : Err) : Prop := e ≠ .multipleResultsFound

/-- A program that looks up the subscription of a user first. -/
theorem World.OneAccess.lookup {α : Type} {w : World} (h : w.OneAccess) (u : UUID)
    {f : Option (Row Subscription) → M α}
    (hf : ∀ o, scalar_one_or_none (w.access_rows u w.clock) = .ok o → (f o).Raises NotMultiple) :
    ((get_subscription_with_access u >>= f).run w).1 ≠ .error .multipleResultsFound := by
  obtain ⟨o, ho⟩ := h.scalar u (Nat.le_refl w.clock)
  rw [run_bind, get_subscription_with_access.spec, ho]
  intro hr
  exact (hf o ho).run hr rfl

theorem httpException.raises {α : Type} (c : Nat) (d : String) :
    (httpException c d : M α).Raises NotMultiple := by
  intro h
  cases h

theorem get_by_code.raises (code : String) :
    (PlanRepository.get_by_code code).Raises NotMultiple := by
  apply Raises.query
  intro w e he
  rcases Table.select_unique (t := w.db.plans) (k := code)
      (p := fun p => decide (p.code = code) && p.is_active) (by
        intro p hp
        simp only [Bool.and_eq_true, decide_eq_true_eq] at hp
        simp [Keyed.keys, hp.1]) with h | ⟨r, h⟩
  · rw [h] at he
    cases he
  · rw [h] at he
    cases he

theorem get_by_id.raises (id : Option UuidText) :
    (PlanRepository.get_by_id id).Raises NotMultiple := by
  apply Raises.query
  intro w e he
  rcases id with _ | _ | _
  · cases he
  · cases he
  · cases he
    simp [NotMultiple]

theorem UserRepository.update.raises (user : Row User) (p : UserPatch) :
    (UserRepository.update user p).Raises NotMultiple := by
  refine Raises.bind (Raises.write _) fun _ => Raises.query ?_
  intro w e he
  split at he
  · cases he
  · cases he
    simp [NotMultiple]

theorem create_subscription_checkout_session.raises (user : Row User) (plan : Row Plan)
    (user_repo : UserRepo) (old : Option StripeId) :
    (create_subscription_checkout_session user plan user_repo old).Raises NotMultiple := by
  refine Raises.bind ?_ fun u => Raises.attempt ?_
  · unfold ensure_customer
    split
    · trivial
    · refine Raises.bind (Raises.attempt fun w e he => by cases he) fun customer => ?_
      cases user_repo with
      | repository => exact UserRepository.update.raises _ _
      | user => exact fun h => by cases h
  · intro w e he
    split at he
    · cases he
      simp [NotMultiple]
    · cases he

theorem reload.raises (i : UUID) : (reload i).Raises NotMultiple := by
  apply Raises.query
  intro w e he
  split at he
  · cases he
  · cases he
    simp [NotMultiple]

/-- A Stripe id is unique in every state. -/
theorem cancel_subscription.raises (id : StripeId) (at_ : Time) (stop : Option Time) :
    (cancel_subscription .STRIPE (some id) at_ stop).Raises NotMultiple := by
  refine Raises.bind (Raises.query ?_) fun o => ?_
  · intro w e he
    have hs := World.scalar_rows_of w id
    unfold World.rows_of at hs
    rw [hs] at he
    cases he
  · cases o with
    | none => trivial
    | some r =>
      exact Raises.bind (Raises.bind (Raises.write _) fun _ => reload.raises _) fun _ => trivial

theorem cancel_subscription_at_period_end.raises (sub : Row Subscription) :
    (cancel_subscription_at_period_end sub).Raises NotMultiple := by
  unfold cancel_subscription_at_period_end
  have hrest : ∀ s : Option StripeSubscription, ((do
      let t ← now
      pure (((truthy (s.bind StripeSubscription.canceled_at)).map fromtimestamp).getD t,
        (truthy (s.bind StripeSubscription.current_period_end)).map fromtimestamp <|>
          sub.val.current_period_end)) : M (Time × Option Time)).Raises NotMultiple :=
    fun s => Raises.bind (Raises.read _) fun _ => trivial
  simp only
  split
  · refine Raises.bind (Raises.attempt ?_) fun s => hrest _
    intro w e he
    split at he
    · split at he
      · cases he
        simp [NotMultiple]
      · cases he
    · cases he
      simp [NotMultiple]
  · exact hrest none

section

variable {w : World}

theorem World.OneAccess.get_user_subscription (h : w.OneAccess) (u : UUID) :
    ((SubscriptionService.get_user_subscription u).run w).1 ≠ .error .multipleResultsFound := by
  refine h.lookup u fun o _ => ?_
  cases o with
  | none => exact httpException.raises _ _
  | some sub => trivial

theorem World.OneAccess.subscribe_user_to_plan (h : w.OneAccess) (user_repo : UserRepo)
    (user : Row User) (code : String) :
    ((SubscriptionService.subscribe_user_to_plan user_repo user code).run w).1 ≠
      .error .multipleResultsFound := by
  refine h.lookup user.id fun o _ => ?_
  cases o with
  | some sub => exact httpException.raises _ _
  | none =>
    refine (get_by_code.raises code).bind fun plan => ?_
    cases plan with
    | none => exact httpException.raises _ _
    | some plan => exact create_subscription_checkout_session.raises _ _ _ _

theorem World.OneAccess.cancel_subscription_at_end_of_period (h : w.OneAccess) (hg : Good w)
    (u : UUID) : ((SubscriptionService.cancel_subscription_at_end_of_period u).run w).1 ≠
      .error .multipleResultsFound := by
  refine h.lookup u fun o hl => ?_
  cases o with
  | none => exact httpException.raises _ _
  | some sub =>
    obtain ⟨id, hid, hrow⟩ := hg.row_of (access_found hl).2.1
    obtain ⟨_, hp, _⟩ := World.row_of_eq_some.mp hrow
    simp only
    split
    · exact httpException.raises _ _
    · split
      · exact fun h => by cases h
      · refine (cancel_subscription_at_period_end.raises sub).bind fun x => ?_
        rw [hp, hid]
        refine (cancel_subscription.raises id _ _).bind fun r => ?_
        cases r with
        | none => exact httpException.raises _ _
        | some r => trivial

theorem World.OneAccess.upgrade_subscription (h : w.OneAccess) (user_repo : UserRepo)
    (user : Row User) (code : String) :
    ((SubscriptionService.upgrade_subscription user_repo user code).run w).1 ≠
      .error .multipleResultsFound := by
  refine h.lookup user.id fun o _ => ?_
  cases o with
  | none => exact httpException.raises _ _
  | some sub =>
    refine (get_by_code.raises code).bind fun plan => ?_
    cases plan with
    | none => exact httpException.raises _ _
    | some plan =>
      simp only
      split
      · exact httpException.raises _ _
      · split
        · exact fun h => by cases h
        · exact create_subscription_checkout_session.raises _ _ _ _

theorem World.OneAccess.require_plan (h : w.OneAccess) (tier : PlanTier)
    (user : Option (Row User)) :
    ((saas.require_plan tier user).run w).1 ≠ .error .multipleResultsFound := by
  cases user with
  | none =>
    intro h
    cases h
  | some user =>
    refine h.lookup user.id fun o _ => ?_
    cases o with
    | none => exact httpException.raises _ _
    | some sub =>
      refine (get_by_id.raises _).bind fun plan => ?_
      cases plan with
      | none => exact httpException.raises _ _
      | some plan =>
        simp only
        split
        · exact httpException.raises _ _
        · trivial

theorem World.OneAccess.create_subscription (h : w.OneAccess) (u p : UUID) (pr : PaymentProvider)
    (id c : Option StripeId) (st : SubscriptionStatus) :
    ((SubscriptionRepoistory.create_subscription u p pr id c st).run w).1 ≠
      .error .multipleResultsFound := by
  refine h.lookup u fun old _ => (Raises.read _).bind fun t => ?_
  refine Raises.bind (Raises.attempt ?_) fun r => reload.raises _
  intro w e he
  unfold Db.insert_subscription at he
  split at he
  · cases he
  · cases he
    simp [NotMultiple]

end

/-- In a run that gives no second access, no user has two subscriptions with
access now or later, and no lookup of a user's subscription meets two rows. -/
theorem one_access_each {user_repo : UserRepo} {w₀ w : World} {ls : List Label}
    (h0 : Initial w₀) (hrun : (billing user_repo).Run NoSecondAccess w₀ ls w) :
    (∀ u t, w.clock ≤ t → (w.access_rows u t).length ≤ 1) ∧
    (∀ u, ((get_user_subscription u).run w).1 ≠ .error .multipleResultsFound) ∧
    (∀ user code, ((subscribe_user_to_plan user_repo user code).run w).1 ≠
      .error .multipleResultsFound) ∧
    (∀ u, ((cancel_subscription_at_end_of_period u).run w).1 ≠ .error .multipleResultsFound) ∧
    (∀ user code, ((upgrade_subscription user_repo user code).run w).1 ≠
      .error .multipleResultsFound) ∧
    (∀ tier user, ((require_plan tier user).run w).1 ≠ .error .multipleResultsFound) ∧
    (∀ u p pr id c st, ((create_subscription u p pr id c st).run w).1 ≠
      .error .multipleResultsFound) := by
  obtain ⟨hg, ho⟩ := run_one_access h0 hrun
  refine ⟨?_, ho.get_user_subscription, ho.subscribe_user_to_plan user_repo,
    ho.cancel_subscription_at_end_of_period hg, ho.upgrade_subscription user_repo,
    ho.require_plan, ho.create_subscription⟩
  intro u t ht
  obtain ⟨o, hl⟩ := ho.scalar u ht
  rw [scalar_one_or_none_eq_ok.mp hl]
  cases o <;> simp

open Sample in
theorem one_access_each_sample :
    (((billing .user).exec world [subscribe "pro", subscribe "vip", .pay 0 [⟨900, 2000⟩],
      checkout 0, paid 0 0]).access_rows 0 (fromtimestamp 1500)).length ≤ 1 :=
  (one_access_each world_initial (.of_path (by decide))).1 0 (fromtimestamp 1500) (by decide)

open Sample in
/-- Two checkouts are open at once, and both are paid: both rows give access,
and the lookup of the user's subscription fails. -/
theorem two_paid_checkouts : ∃ w,
    (billing .user).Reachable Initial w ∧
    (w.access_rows 0 w.clock).length = 2 ∧
    ((get_user_subscription 0).run w).1 = .error .multipleResultsFound :=
  ⟨(billing .user).exec world
      [subscribe "pro", subscribe "vip", .pay 0 [⟨900, 2000⟩], .pay 1 [⟨900, 2000⟩],
        checkout 0, checkout 1, paid 0 0, paid 1 1],
    ⟨world, _, world_initial, .of_path (by decide)⟩, by decide, rfl⟩

end saas
