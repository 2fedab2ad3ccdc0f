-- The accounts are apart: a request of an account, or an event about one of
-- its subscriptions, changes nothing of another account, here or at Stripe, and
-- would go the same way if Stripe had the subscriptions of this account alone.
import SaasBackend.Customers

open relational async

namespace saas

open Proc SubscriptionRepoistory StripeGateway SubscriptionService

/-! ## What a request changes -/

/-- The metadata of a Stripe subscription name the account. -/
def NamesUser (u : UUID) (S : Row StripeSubscription) : Prop :=
  S.val.metadata.user_id = some (.ofUuid u)

instance (u : UUID) (S : Row StripeSubscription) : Decidable (NamesUser u S) :=
  inferInstanceAs (Decidable (_ = _))

/-- Only what belongs to the account `u` differs. -/
structure World.Isolates (u : UUID) (w w' : World) : Prop where
  subscriptions : Table.SameBut (fun r => r.val.user_id = u)
    w.db.subscriptions.rows w'.db.subscriptions.rows
  payments : Table.SameBut (fun p => p.val.user_id = u) w.db.payments.rows w'.db.payments.rows
  users : Table.SameBut (fun r => r.id = u) w.db.users.rows w'.db.users.rows
  plans : w'.db.plans = w.db.plans
  refresh_tokens : w'.db.refresh_tokens = w.db.refresh_tokens
  login_codes : w'.db.login_codes = w.db.login_codes
  admin_audit_logs : w'.db.admin_audit_logs = w.db.admin_audit_logs
  stripe : Table.SameBut (NamesUser u) w.stripe.subscriptions.rows w'.stripe.subscriptions.rows
  customers : Table.SameBut (fun k => k.val.user_id = u)
    w.stripe.customers.rows w'.stripe.customers.rows
  sessions : Table.SameBut (fun c => c.val.client_reference_id = some (.ofUuid u))
    w.stripe.sessions.rows w'.stripe.sessions.rows

section

variable {l : Label} {u : UUID} {w₀ w w' w'' : World}

theorem World.Isolates.refl (u : UUID) (w : World) : w.Isolates u w :=
  ⟨.refl _ _, .refl _ _, .refl _ _, rfl, rfl, rfl, rfl, .refl _ _, .refl _ _, .refl _ _⟩

theorem World.Isolates.trans (h : w.Isolates u w') (h' : w'.Isolates u w'') : w.Isolates u w'' where
  subscriptions := h.subscriptions.trans h'.subscriptions
  payments := h.payments.trans h'.payments
  users := h.users.trans h'.users
  plans := h'.plans.trans h.plans
  refresh_tokens := h'.refresh_tokens.trans h.refresh_tokens
  login_codes := h'.login_codes.trans h.login_codes
  admin_audit_logs := h'.admin_audit_logs.trans h.admin_audit_logs
  stripe := h.stripe.trans h'.stripe
  customers := h.customers.trans h'.customers
  sessions := h.sessions.trans h'.sessions

/-- A patch of a row of the account. -/
theorem World.Isolates.patch {r : Row Subscription} (p : SubscriptionPatch)
    (hr : r ∈ w.db.subscriptions.rows) (hu : r.val.user_id = u) :
    w.Isolates u (w.update_subscription r.id p) := by
  refine { World.Isolates.refl u w with subscriptions := ?_ }
  refine Table.SameBut.update p.keys fun r' hr' hid => ?_
  obtain rfl := Table.eq_of_id hr' hr hid
  exact ⟨hu, (p.user_id _).trans hu⟩

theorem World.Isolates.demote {old : Option (Row Subscription)}
    (hold : scalar_one_or_none (w.access_rows u w.clock) = .ok old) :
    w.Isolates u (w.demote old) := by
  rcases old with _ | o
  · exact .refl u w
  · have ho : o ∈ w.access_rows u w.clock := by simp [scalar_one_or_none_eq_ok.mp hold]
    obtain ⟨hmem, hu, _⟩ := World.mem_access_rows.mp ho
    exact .patch .demote hmem hu

theorem World.Isolates.insert_subscription {s : Subscription} {r : Row Subscription} {db : Db}
    (h : w.db.insert_subscription s = .ok (r, db)) (hu : s.user_id = u) :
    w.Isolates u { w with db := db } := by
  unfold Db.insert_subscription at h
  split at h
  · cases h
    exact { World.Isolates.refl u w with subscriptions := .append hu _ }
  · cases h

theorem World.Isolates.insert_payment {p : Payment} {r : Row Payment} {db : Db}
    (h : w.db.insert_payment p = .ok (r, db)) (hu : p.user_id = u) :
    w.Isolates u { w with db := db } := by
  obtain ⟨_, _, rfl, rfl⟩ := Db.insert_payment_eq_ok h
  exact { World.Isolates.refl u w with payments := .append hu _ }

theorem World.Isolates.set_status {id : StripeId} (st : StripeStatus)
    (hu : w.owner id = some u) : w.Isolates u (w.set_status id st) := by
  refine { World.Isolates.refl u w with stripe := ?_ }
  refine Table.SameBut.update (f := Stripe.setStatus st) (fun _ => rfl) fun S hS hid => ?_
  have hb : w.stripe.subscriptions.byId id = some S := Table.byId_eq_some.mpr ⟨hS, hid⟩
  have hn : NamesUser u S := by
    unfold World.owner at hu
    rw [hb, Option.bind_some] at hu
    unfold NamesUser
    split at hu
    · rename_i v hv
      rw [hv, Option.some.injEq] at *
      rw [hu]
    · cases hu
  exact ⟨hn, hn⟩

/-- Whoever a request sells to, it is a request of. -/
theorem World.sells_touches {user : Row User} {plan : Row Plan} {old : Option StripeId}
    (h : w.sells l = some (user, plan, old)) : w.Touches l user.id := by
  unfold World.sells at h
  split at h
  · split at h
    · cases h
      rfl
    · cases h
  · split at h
    · split at h
      · cases h
      · cases h
        rfl
    · cases h
  · cases h

theorem Effect.isolates {request : Request} {n : Option Nat} (h : Effect l w₀ w w')
    (hl : l = .serve request n) (hu : ∀ v, w₀.Touches l v → v = u) : w.Isolates u w' := by
  cases h with
  | @customer user plan old _ hsells _ _ =>
    have huser := hu _ (World.sells_touches hsells)
    exact { World.Isolates.refl u w with customers := .append huser _ }
  | @store_customer user plan old _ hsells _ _ =>
    have huser := hu _ (World.sells_touches hsells)
    refine { World.Isolates.refl u w with users := ?_ }
    exact Table.SameBut.update (UserPatch.stripe_customer _).keys fun r _ hid =>
      ⟨hid.trans huser, hid.trans huser⟩
  | @open_session user _ plan old customer price hsells _ _ _ _ _ hwho =>
    have hmine : (session_for user.id plan old customer price).client_reference_id =
        some (.ofUuid u) := by rw [← hu _ hwho]; rfl
    exact { World.Isolates.refl u w with sessions := .append hmine _ }
  | status _ howner hwho =>
    rw [hu _ hwho] at howner
    exact .set_status _ howner
  | period _ _ _ hr _ _ hwho => exact .patch _ (World.row_of_eq_some.mp hr).1 (hu _ hwho)
  | cancel _ hr _ _ hwho => exact .patch _ (World.row_of_eq_some.mp hr).1 (hu _ hwho)
  | past_due _ _ hr _ hwho => exact .patch _ (World.row_of_eq_some.mp hr).1 (hu _ hwho)
  | @create _ _ v _ _ _ _ _ old _ _ _ _ _ _ _ _ _ hold _ hdb hwho =>
    have hv := hu _ hwho
    subst hv
    exact (World.Isolates.demote hold).trans (.insert_subscription hdb rfl)
  | record _ _ _ hdb hwho => exact .insert_payment hdb (hu _ hwho)
  | enqueue => exact { World.Isolates.refl u w with }
  | tick => exact { World.Isolates.refl u w with }
  | pay hpay => rw [hl] at hpay; cases hpay
  | bill hbill => rw [hl] at hbill; cases hbill
  | stop hstop => rw [hl] at hstop; cases hstop

theorem Effects.isolates {request : Request} {n : Option Nat} (h : Effects l w₀ w)
    (hl : l = .serve request n) (hu : ∀ v, w₀.Touches l v → v = u) : w₀.Isolates u w := by
  induction h with
  | refl => exact .refl u w₀
  | tail _ hstep ih => exact ih.trans (hstep.isolates hl hu)

/-- A request is of one account. -/
theorem World.Touches.unique {request : Request} {n : Option Nat} {v : UUID}
    (hu : w.Touches (.serve request n) u) (hv : w.Touches (.serve request n) v) : v = u := by
  cases request with
  | subscribe user code => exact hv.symm.trans hu
  | upgrade user code => exact hv.symm.trans hu
  | cancel user => exact hv.symm.trans hu
  | webhook e =>
    have hv : e.subscription.bind w.owner = some v := hv
    have hu : e.subscription.bind w.owner = some u := hu
    rw [hu, Option.some.injEq] at hv
    exact hv.symm

/-! ## Where a new row comes from -/

/-- The event makes a row for a subscription that Stripe has. -/
theorem World.subject_stripe {e : Event} {id : StripeId} {up : Option StripeId}
    (h : w.subject e = some (id, u, up)) : ∃ S, w.stripe.subscriptions.byId id = some S := by
  unfold World.subject at h
  split at h
  · split at h
    · obtain ⟨S, hS, hSub⟩ := Option.map_eq_some_iff.mp h
      cases hSub
      exact ⟨S, hS⟩
    · cases h
  · split at h
    · obtain ⟨S, hS, hSub⟩ := Option.bind_eq_some_iff.mp h
      split at hSub
      · cases hSub
        exact ⟨S, hS⟩
      · cases hSub
    · cases h
  · cases h

/-- The row is of a Stripe subscription whose metadata name its user and plan. -/
def World.Bought (w : World) (r : Subscription) : Prop :=
  ∃ id S, r.provider_subscription_id = some id ∧ w.stripe.subscriptions.byId id = some S ∧
    S.val.metadata.user_id = some (.ofUuid r.user_id) ∧
    S.val.metadata.plan_id = some (.ofUuid r.plan_id)

theorem Effects.created (h : Effects l w₀ w) {r : Row Subscription}
    (hr : r ∈ w.db.subscriptions.rows) : w₀.db.subscriptions.Has r.id ∨ w₀.Bought r.val := by
  -- a patch keeps the id of its row, and all that `Bought` reads
  have hpatch : ∀ {w : World} {i : UUID} {p : SubscriptionPatch} {r : Row Subscription},
      (∀ r ∈ w.db.subscriptions.rows, w₀.db.subscriptions.Has r.id ∨ w₀.Bought r.val) →
      r ∈ (w.update_subscription i p).db.subscriptions.rows →
      w₀.db.subscriptions.Has r.id ∨ w₀.Bought r.val := by
    intro w i p r ih hr
    rcases World.mem_update_subscription.mp hr with ⟨r1, hr1, _, rfl⟩ | ⟨hr1, _⟩
    · rcases ih r1 hr1 with h1 | ⟨id, S, hid, hS, hu, hp⟩
      · exact Or.inl h1
      · exact Or.inr ⟨id, S, by rw [p.provider_subscription_id, hid], hS, by rw [p.user_id, hu],
          by rw [p.plan_id, hp]⟩
    · exact ih r hr1
  induction h generalizing r with
  | refl => exact Or.inl ⟨r, hr, rfl⟩
  | @tail w w' hs hstep ih =>
    cases hstep with
    | period => exact hpatch (fun r hr => ih hr) hr
    | cancel => exact hpatch (fun r hr => ih hr) hr
    | past_due => exact hpatch (fun r hr => ih hr) hr
    | @create e id u p c up st S old r' db _ hsubj _ _ hS hn hp _ _ hdb _ =>
      obtain ⟨hnew, _, hrows, _⟩ := Db.insert_subscription_ok hdb
      simp only [hrows, List.mem_append, List.mem_singleton] at hr
      rcases hr with hr | rfl
      · cases old with
        | none => exact ih hr
        | some o => exact hpatch (fun r hr => ih hr) hr
      · obtain ⟨S₀, hS₀⟩ := World.subject_stripe hsubj
        obtain ⟨S', hS', hm, _⟩ := (Effects.grows hs).stripe id S₀ hS₀
        rw [hS, Option.some.injEq] at hS'
        subst hS'
        rw [hnew]
        exact Or.inr ⟨id, S₀, rfl, hS₀, by rw [← hm]; exact hn.user, by rw [← hm]; exact hp⟩
    | record _ _ _ hdb _ =>
      obtain ⟨_, _, _, hsubs, _⟩ := Db.insert_payment_ok hdb
      exact ih (by simpa only [hsubs] using hr)
    | customer => exact ih hr
    | store_customer => exact ih hr
    | open_session => exact ih hr
    | status => exact ih hr
    | enqueue => exact ih hr
    | tick => exact ih hr
    | pay => exact ih hr
    | bill => exact ih hr
    | stop => exact ih hr

/-- What the metadata of a checkout say of it. -/
def Metadata.OfSale (m : Metadata) : Row User × Row Plan × Option StripeId → Prop
  | (user, plan, old) => m = ⟨some (.ofUuid plan.id), some (.ofUuid user.id), old⟩

/-- There is a session with this id, for a subscription with these metadata. -/
def World.Opened (w : World) (i : StripeId) (m : Metadata) : Prop :=
  ∃ c ∈ w.stripe.sessions.rows, c.id = i ∧ c.val.subscription_metadata = m

/-- Sessions stay, and a new one is of a request that sells what its metadata say. -/
theorem Effect.opened {i : StripeId} {m : Metadata} (h : Effect l w₀ w w') :
    (w.stripe.sessions.Has i → w'.stripe.sessions.Has i) ∧
      (w'.Opened i m → w.Opened i m ∨
        ¬ w.stripe.sessions.Has i ∧ ∃ sale, w₀.sells l = some sale ∧ m.OfSale sale) := by
  have hsame : w'.stripe.sessions = w.stripe.sessions →
      (w.stripe.sessions.Has i → w'.stripe.sessions.Has i) ∧
        (w'.Opened i m → w.Opened i m ∨
          ¬ w.stripe.sessions.Has i ∧ ∃ sale, w₀.sells l = some sale ∧ m.OfSale sale) := by
    intro hs
    unfold World.Opened
    rw [hs]
    exact ⟨id, Or.inl⟩
  cases h with
  | @open_session user _ plan old customer price hsells _ _ _ _ _ _ =>
    refine ⟨fun hi => hi.push _ (fits_of_no_keys rfl), ?_⟩
    rintro ⟨c, hc, hci, hcm⟩
    rcases List.mem_append.mp hc with hc | hc
    · exact Or.inl ⟨c, hc, hci, hcm⟩
    · rw [List.mem_singleton.mp hc] at hci hcm
      refine Or.inr ⟨?_, _, hsells, hcm.symm⟩
      rintro ⟨c0, hc0, hid⟩
      exact Nat.ne_of_lt (w.stripe.sessions.id_lt c0 hc0) (hid.trans hci.symm)
  | @pay c items _ hc _ =>
    refine ⟨fun hi => hi.update c.id (World.set_subscription _) fun _ => rfl, ?_⟩
    rintro ⟨c', hc', hci, hcm⟩
    rcases (Table.mem_update (f := World.set_subscription _) fun _ => rfl).mp hc' with
      ⟨c0, hc0, _, rfl⟩ | ⟨hc0, _⟩
    · exact Or.inl ⟨c0, hc0, hci, hcm⟩
    · exact Or.inl ⟨c', hc0, hci, hcm⟩
  | @create _ _ _ _ _ _ _ _ old _ _ _ _ _ _ _ _ _ _ _ _ _ => cases old <;> exact hsame rfl
  | customer => exact hsame rfl
  | store_customer => exact hsame rfl
  | status => exact hsame rfl
  | period => exact hsame rfl
  | cancel => exact hsame rfl
  | past_due => exact hsame rfl
  | record => exact hsame rfl
  | enqueue => exact hsame rfl
  | tick => exact hsame rfl
  | bill => exact hsame rfl
  | stop => exact hsame rfl

theorem Effects.opened {i : StripeId} {m : Metadata} (h : Effects l w₀ w) :
    (w₀.stripe.sessions.Has i → w.stripe.sessions.Has i) ∧
      (w.Opened i m → w₀.Opened i m ∨
        ¬ w₀.stripe.sessions.Has i ∧ ∃ sale, w₀.sells l = some sale ∧ m.OfSale sale) := by
  induction h with
  | refl => exact ⟨id, Or.inl⟩
  | tail _ hstep ih =>
    obtain ⟨hkeep, hnew⟩ := hstep.opened (i := i) (m := m)
    refine ⟨fun hi => hkeep (ih.1 hi), fun hm => ?_⟩
    rcases hnew hm with h1 | ⟨hno, hsale⟩
    · exact ih.2 h1
    · exact Or.inr ⟨fun hi => hno (ih.1 hi), hsale⟩

/-- The session was opened at this step, which sold what its metadata say. -/
structure OpenedBy (user_repo : UserRepo) (v : World) (l : Label) (c : Row CheckoutSession)
    (sale : Row User × Row Plan × Option StripeId) : Prop where
  before : ¬ v.stripe.sessions.Has c.id
  after : ((billing user_repo).next v l).stripe.sessions.Has c.id
  sells : v.sells l = some sale
  metadata : c.val.subscription_metadata.OfSale sale

/-- Every session was opened at a step of the run. -/
theorem opened_by {user_repo : UserRepo} {ls : List Label} {c : Row CheckoutSession}
    (h0 : Initial w₀) (hrun : (billing user_repo).Run (fun _ _ => True) w₀ ls w)
    (hc : c ∈ w.stripe.sessions.rows) :
    ∃ v l sale, (billing user_repo).Took (fun _ _ => True) w₀ ls w v l ∧
      OpenedBy user_repo v l c sale := by
  have hstart : ¬ w₀.Opened c.id c.val.subscription_metadata := by
    rintro ⟨c0, hc0, _⟩
    simp [h0.sessions] at hc0
  obtain ⟨v, l, htook, hnot, hthere⟩ := hrun.origin
    (P := fun v => v.Opened c.id c.val.subscription_metadata) hstart ⟨c, hc, rfl, rfl⟩
  obtain ⟨before, _, _, hbefore, hen, _, _⟩ := id htook
  have heff := billing_effects (run_good h0.good hbefore).1 hen
  obtain ⟨hno, sale, hsells, hsale⟩ := (heff.opened.2 hthere).resolve_left hnot
  obtain ⟨c', hc', hci, _⟩ := hthere
  exact ⟨v, l, sale, htook, hno, ⟨c', hc', hci⟩, hsells, hsale⟩

/-- Every subscription of Stripe has the session that was paid for it. -/
def World.FromSessions (w : World) : Prop :=
  ∀ S ∈ w.stripe.subscriptions.rows, ∃ c ∈ w.stripe.sessions.rows,
    c.val.subscription = some S.id ∧ c.val.subscription_metadata = S.val.metadata

/-- No act of the service touches a paid session, or the metadata of a subscription. -/
theorem Effect.from_sessions (h : Effect l w₀ w w') (hl : ∀ i items, l ≠ .pay i items)
    (hp : w.FromSessions) : w'.FromSessions := by
  have hupdate : ∀ {i : StripeId} {f : StripeSubscription → StripeSubscription}
      (hf : ∀ S, Keyed.keys (f S) = Keyed.keys S), (∀ S, (f S).metadata = S.metadata) →
      World.FromSessions
        { w with stripe.subscriptions := w.stripe.subscriptions.update i f hf } := by
    intro i f hf hmeta S hS
    rcases (Table.mem_update hf).mp hS with ⟨S0, hS0, _, rfl⟩ | ⟨hS, _⟩
    · obtain ⟨c, hc, hid, hm⟩ := hp S0 hS0
      exact ⟨c, hc, hid, hm.trans (hmeta S0.val).symm⟩
    · exact hp S hS
  cases h with
  | open_session =>
    intro S hS
    obtain ⟨c, hc, hid, hm⟩ := hp S hS
    exact ⟨c, List.mem_append_left _ hc, hid, hm⟩
  | @status id u st _ _ _ => exact hupdate (f := Stripe.setStatus st) (fun _ => rfl) fun _ => rfl
  | @bill id items ca pe _ _ _ =>
    exact hupdate (f := World.set_period items ca pe) (fun _ => rfl) fun _ => rfl
  | stop => exact hupdate (f := Stripe.setStatus .canceled) (fun _ => rfl) fun _ => rfl
  | pay hpay => exact absurd hpay (hl _ _)
  | @create _ _ _ _ _ _ _ _ old _ _ _ _ _ _ _ _ _ _ _ _ _ => cases old <;> exact hp
  | customer => exact hp
  | store_customer => exact hp
  | period => exact hp
  | cancel => exact hp
  | past_due => exact hp
  | record => exact hp
  | enqueue => exact hp
  | tick => exact hp

theorem Effects.from_sessions (h : Effects l w₀ w) (hl : ∀ i items, l ≠ .pay i items)
    (hp : w₀.FromSessions) : w.FromSessions := by
  induction h with
  | refl => exact hp
  | tail _ hstep ih => exact hstep.from_sessions hl ih

/-- A customer pays a session that has no subscription yet. -/
theorem World.FromSessions.pay {c : Row CheckoutSession} (hp : w.FromSessions)
    (hc : c ∈ w.stripe.sessions.rows) (hnone : c.val.subscription = none)
    (items : List SubscriptionItem) : (w.pay c items).FromSessions := by
  intro S hS
  have hmem : ∀ c', c' ∈ (w.pay c items).stripe.sessions.rows ↔
      (∃ c0 ∈ w.stripe.sessions.rows, c0.id = c.id ∧
        c' = ⟨c0.id, set_subscription w.stripe.subscriptions.next c0.val⟩) ∨
      (c' ∈ w.stripe.sessions.rows ∧ c'.id ≠ c.id) :=
    fun c' => Table.mem_update (f := set_subscription w.stripe.subscriptions.next) fun _ => rfl
  rcases List.mem_append.mp hS with hS | hS
  · obtain ⟨c0, hc0, hid, hm⟩ := hp S hS
    refine ⟨c0, (hmem c0).mpr (Or.inr ⟨hc0, fun he => ?_⟩), hid, hm⟩
    -- the session that is paid now has had no subscription
    rw [Table.eq_of_id hc0 hc he, hnone] at hid
    cases hid
  · rw [List.mem_singleton.mp hS]
    exact ⟨_, (hmem _).mpr (Or.inl ⟨c, hc, rfl, rfl⟩), rfl, rfl⟩

theorem run_from_sessions {user_repo : UserRepo} {ls : List Label} (h0 : Initial w₀)
    (hrun : (billing user_repo).Run (fun _ _ => True) w₀ ls w) : w.FromSessions := by
  have hboth : Good w ∧ w.FromSessions := by
    apply hrun.invariant (I := fun v => Good v ∧ v.FromSessions)
    · exact ⟨h0.good, fun S hS => by simp [h0.stripe_subscriptions] at hS⟩
    · rintro v l ⟨hg, hp⟩ he _
      have heff := billing_effects hg he
      refine ⟨heff.good hg, ?_⟩
      cases l with
      | pay session items =>
        obtain ⟨_, hsome⟩ := he
        obtain ⟨c, hc, hnone⟩ := Option.map_eq_some_iff.mp hsome
        change World.FromSessions (((v.stripe.sessions.byId session).map (v.pay · items)).getD v)
        rw [hc]
        exact hp.pay (Table.byId_eq_some.mp hc).1 hnone items
      | serve request dies_after => exact heff.from_sessions (by simp) hp
      | tick d => exact heff.from_sessions (by simp) hp
      | bill id items canceled_at period_end => exact heff.from_sessions (by simp) hp
      | stop id => exact heff.from_sessions (by simp) hp
  exact hboth.2

end

/-! ## What a request reads at Stripe -/

namespace World

/-- The world, where Stripe has the subscriptions of one account alone. -/
def only (u : UUID) (w : World) : World :=
  { w with stripe.subscriptions :=
      w.stripe.subscriptions.delete (fun S => decide (¬ NamesUser u S)) }

variable {u : UUID} {id : StripeId} {w : World}

theorem byId_only (hu : w.owner id = some u) :
    (w.only u).stripe.subscriptions.byId id = w.stripe.subscriptions.byId id := by
  unfold owner at hu
  rcases hS : w.stripe.subscriptions.byId id with _ | S
  · simp [hS] at hu
  · refine Table.byId_delete_of_some hS ?_
    rw [hS, Option.bind_some] at hu
    unfold NamesUser
    split at hu
    · rename_i v hv
      rw [Option.some.injEq] at hu
      simp [hv, hu]
    · cases hu

theorem only_set_status (w : World) (u : UUID) (id : StripeId) (st : StripeStatus) :
    (w.set_status id st).only u = (w.only u).set_status id st := by
  have h := Table.update_delete w.stripe.subscriptions (i := id) (f := Stripe.setStatus st)
    (fun _ => rfl) (p := fun S => decide (¬ NamesUser u S)) fun S => by
      unfold Table.updateRow NamesUser
      split <;> rfl
  unfold only set_status Stripe.set_status
  simp only [h]

end World

section

variable {u : UUID} {id : StripeId} {w : World}

theorem Subscription_retrieve.follows (hu : w.owner id = some u) :
    (Subscription_retrieve (some id)).Follows (World.only u) w := by
  apply follows_query
  simp only [Option.bind_some, World.byId_only hu]

/-- A call to Stripe that changes the status of a subscription of the user. -/
theorem follows_status {α : Type} (hu : w.owner id = some u) (st : StripeStatus)
    (f : Row StripeSubscription → α) :
    (Proc.attempt fun w => match w.stripe.subscriptions.byId id with
      | some s =>
        if s.val.status = .canceled then .error Err.stripeError
        else .ok (f s, w.set_status id st)
      | none => .error .stripeError).Follows (World.only u) w := by
  apply follows_attempt
  simp only [World.byId_only hu]
  rcases w.stripe.subscriptions.byId id with _ | S
  · rfl
  · simp only
    split
    · rfl
    · simp only [← World.only_set_status]
      rfl

theorem Subscription_modify.follows (hu : w.owner id = some u) :
    (Subscription_modify id).Follows (World.only u) w :=
  follows_status hu _ _

theorem Subscription_delete.follows (hu : w.owner id = some u) :
    (Subscription_delete id).Follows (World.only u) w :=
  follows_status hu _ _

theorem now.follows : now.Follows (World.only u) w := follows_read rfl

theorem get_subscription_with_access.follows (v : UUID) :
    (get_subscription_with_access v).Follows (World.only u) w :=
  now.follows.bind fun _ _ _ => follows_query rfl

theorem commit_patch.follows (r : Row Subscription) (p : SubscriptionPatch) :
    (commit_patch r p).Follows (World.only u) w :=
  Follows.bind (follows_write rfl) fun _ _ _ => follows_query rfl

theorem cancel_subscription.follows (provider : PaymentProvider) (i : Option StripeId)
    (at_ : Time) (stop : Option Time) :
    (cancel_subscription provider i at_ stop).Follows (World.only u) w := by
  refine Follows.bind (follows_query rfl) fun o t _ => ?_
  cases o with
  | none => trivial
  | some r => exact (commit_patch.follows _ _).bind fun _ _ _ => trivial

theorem update_subscription_period.follows (provider : PaymentProvider) (i : Option StripeId)
    (start stop : Time) :
    (update_subscription_period provider i start stop).Follows (World.only u) w := by
  refine Follows.bind (follows_query rfl) fun o t _ => ?_
  cases o with
  | none => trivial
  | some r => exact (commit_patch.follows _ _).bind fun _ _ _ => trivial

theorem update_sub_status.follows (provider : PaymentProvider) (i : Option StripeId)
    (st : SubscriptionStatus) :
    (update_sub_status provider i st).Follows (World.only u) w := by
  refine Follows.bind (follows_query rfl) fun o t _ => ?_
  cases o with
  | none => trivial
  | some r =>
    simp only
    split
    · trivial
    · exact (commit_patch.follows _ _).bind fun _ _ _ => trivial

theorem create_subscription.follows (v p : UUID) (provider : PaymentProvider)
    (i c : Option StripeId) (st : SubscriptionStatus) :
    (create_subscription v p provider i c st).Follows (World.only u) w := by
  refine (get_subscription_with_access.follows v).bind fun old t _ => ?_
  refine now.follows.bind fun at_ t _ => ?_
  refine Follows.bind (follows_attempt_map ?_ ?_) fun _ _ _ => follows_query rfl
  · cases old <;> rfl
  · rintro ⟨r, db⟩
    cases old <;> rfl

theorem ensure_customer.follows (user : Row User) (user_repo : UserRepo) :
    (ensure_customer user user_repo).Follows (World.only u) w := by
  unfold ensure_customer
  split
  · trivial
  · refine Follows.bind (follows_attempt rfl) fun customer t _ => ?_
    cases user_repo with
    | user => trivial
    | repository => exact Follows.bind (follows_write rfl) fun _ _ _ => follows_query rfl

theorem create_subscription_checkout_session.follows (user : Row User) (plan : Row Plan)
    (user_repo : UserRepo) (old : Option StripeId) :
    (create_subscription_checkout_session user plan user_repo old).Follows (World.only u) w := by
  refine (ensure_customer.follows user user_repo).bind fun user' t _ => ?_
  apply follows_attempt
  cases plan.val.stripe_price_id <;> rfl

theorem get_by_code.follows (code : String) :
    (PlanRepository.get_by_code code).Follows (World.only u) w := follows_query rfl

theorem get_by_id.follows (i : Option UuidText) :
    (PlanRepository.get_by_id i).Follows (World.only u) w := follows_query rfl

theorem subscribe_user_to_plan.follows (user_repo : UserRepo) (user : Row User) (code : String) :
    (subscribe_user_to_plan user_repo user code).Follows (World.only u) w := by
  refine (get_subscription_with_access.follows _).bind fun o t _ => ?_
  cases o with
  | some sub => trivial
  | none =>
    refine (get_by_code.follows code).bind fun o t _ => ?_
    cases o with
    | none => trivial
    | some plan => exact create_subscription_checkout_session.follows _ _ _ _

theorem upgrade_subscription.follows (user_repo : UserRepo) (user : Row User) (code : String) :
    (upgrade_subscription user_repo user code).Follows (World.only u) w := by
  refine (get_subscription_with_access.follows _).bind fun o t _ => ?_
  cases o with
  | none => trivial
  | some sub =>
    refine (get_by_code.follows code).bind fun o t _ => ?_
    cases o with
    | none => trivial
    | some plan =>
      simp only
      split
      · trivial
      · split
        · trivial
        · exact create_subscription_checkout_session.follows _ _ _ _

/-- A cancel request looks at the subscription of the user's own row. -/
theorem cancel_subscription_at_end_of_period.follows (hg : Good w) :
    (cancel_subscription_at_end_of_period u).Follows (World.only u) w := by
  refine (get_subscription_with_access.follows _).bind fun o t hrun => ?_
  rw [get_subscription_with_access.spec] at hrun
  obtain ⟨ha, rfl⟩ := Prod.mk.inj hrun
  cases o with
  | none => trivial
  | some sub =>
    obtain ⟨_, hmem, huser⟩ := access_found ha
    obtain ⟨i, hi, hrow⟩ := hg.row_of hmem
    have howner := hg.owner hrow
    rw [huser] at howner
    simp only
    split
    · trivial
    · split
      · trivial
      · refine Follows.bind ?_ fun ends t _ => ?_
        · unfold cancel_subscription_at_period_end
          simp only [(World.row_of_eq_some.mp hrow).2.1, hi]
          refine Follows.bind ?_ fun S t _ => ?_
          · exact Subscription_modify.follows howner
          · refine now.follows.bind fun at_ t _ => ?_
            trivial
        · refine (cancel_subscription.follows _ _ _ _).bind fun o t _ => ?_
          cases o <;> trivial

/-- A checkout looks at its own subscription and at the upgraded one, of the same user. -/
theorem user_subscribe.follows {session : SessionObject} (hg : Good w) (ht : w.TellsOf session)
    (hu : session.subscription.bind w.owner = some u) :
    (user_subscribe session).Follows (World.only u) w := by
  obtain ⟨i, S, v, hi, hS, _, hn⟩ := hg.tells ht
  rw [hi, Option.bind_some] at hu
  have hv := World.owner_eq hS hn.user
  rw [hu, Option.some.injEq] at hv
  subst hv
  unfold user_subscribe
  rw [hi]
  refine (Subscription_retrieve.follows hu).bind fun S' t hrun => ?_
  rw [Subscription_retrieve.spec, hS] at hrun
  obtain ⟨hS', rfl⟩ := Prod.mk.inj hrun
  cases hS'
  refine (get_by_id.follows _).bind fun o t hrun => ?_
  obtain rfl : w = t := by
    have := (get_by_id.reads S.val.metadata.plan_id).run w
    rw [hrun] at this
    exact this.symm
  cases o with
  | none => trivial
  | some plan =>
    refine Follows.bind ?_ fun _ t _ => ?_
    · unfold cancel_upgraded
      rcases hup : S.val.metadata.upgrade_from_subscription_id with _ | old
      · trivial
      · obtain ⟨r, hr, hru⟩ := hn.upgrade old hup
        have howner := hg.owner hr
        rw [hru] at howner
        refine (Subscription_delete.follows howner).bind fun _ t _ => ?_
        refine now.follows.bind fun at_ t _ => ?_
        exact (cancel_subscription.follows _ _ _ _).bind fun _ _ _ => trivial
    · refine Follows.bind (follows_query rfl) fun o t _ => ?_
      cases o with
      | some sub => trivial
      | none =>
        refine (follows_ofExcept _).bind fun v t _ => ?_
        refine (follows_ofExcept _).bind fun p t _ => ?_
        exact create_subscription.follows _ _ _ _ _ _

theorem renew_or_create.follows (i : StripeId) (S : StripeSubscription) :
    (renew_or_create i S).Follows (World.only u) w := by
  unfold renew_or_create
  split
  · trivial
  · refine (update_subscription_period.follows _ _ _ _).bind fun o t _ => ?_
    cases o with
    | some sub => trivial
    | none =>
      refine (follows_ofExcept _).bind fun v t _ => ?_
      refine (follows_ofExcept _).bind fun p t _ => ?_
      exact (create_subscription.follows _ _ _ _ _ _).bind fun _ _ _ => trivial

theorem handle_invoice_payment_succeeded.follows {invoice : Invoice}
    (hu : invoice.subscription.bind w.owner = some u) :
    (handle_invoice_payment_succeeded invoice).Follows (World.only u) w := by
  unfold handle_invoice_payment_succeeded
  refine (follows_ofExcept _).bind fun lines t hlines => ?_
  rw [run_ofExcept] at hlines
  obtain ⟨hlines', rfl⟩ := Prod.mk.inj hlines
  rcases lines with _ | ⟨line, lines⟩
  · trivial
  · refine (follows_ofExcept _).bind fun i t hline => ?_
    rw [run_ofExcept] at hline
    obtain ⟨hline', rfl⟩ := Prod.mk.inj hline
    cases i with
    | none => trivial
    | some i =>
      have hi : invoice.subscription = some i := by
        simp only [Invoice.subscription, hlines', hline']
      rw [hi, Option.bind_some] at hu
      exact (Subscription_retrieve.follows hu).bind fun S t _ => renew_or_create.follows _ _

theorem handle_invoice_payment_failed.follows (invoice : Invoice) :
    (handle_invoice_payment_failed invoice).Follows (World.only u) w := by
  unfold handle_invoice_payment_failed
  refine (follows_ofExcept _).bind fun lines t _ => ?_
  cases lines with
  | nil => trivial
  | cons line lines =>
    exact (follows_ofExcept _).bind fun i t _ => update_sub_status.follows _ _ _

theorem handle_subscription_deleted.follows (d : DeletedSubscription) :
    (handle_subscription_deleted d).Follows (World.only u) w := by
  unfold handle_subscription_deleted
  split
  · trivial
  · refine now.follows.bind fun at_ t _ => ?_
    refine (cancel_subscription.follows _ _ _ _).bind fun o t _ => ?_
    cases o <;> trivial

theorem TaskName.delay.follows (task : TaskName) (sub : Option (Row Subscription)) :
    (task.delay sub).Follows (World.only u) w := by
  exact follows_attempt_map rfl fun _ => rfl

theorem record_invoice_payment.follows (invoice : Invoice) (sub : Option (Row Subscription)) :
    (record_invoice_payment invoice sub).Follows (World.only u) w := by
  cases sub with
  | none => trivial
  | some r => exact Follows.bind (follows_attempt_map rfl fun _ => rfl) fun _ _ _ => trivial

/-- A request of an account looks at no other subscription of Stripe. -/
theorem Request.follows {request : Request} {n : Option Nat} (user_repo : UserRepo) (hg : Good w)
    (hv : request.Valid w) (hu : w.Touches (.serve request n) u) :
    (request.prog user_repo).Follows (World.only u) w := by
  cases request with
  | subscribe user code =>
    exact (subscribe_user_to_plan.follows _ _ _).bind fun _ _ _ => trivial
  | upgrade user code => exact (upgrade_subscription.follows _ _ _).bind fun _ _ _ => trivial
  | cancel v =>
    have hvu : v = u := hu
    rw [hvu]
    exact (cancel_subscription_at_end_of_period.follows hg).bind fun _ _ _ => trivial
  | webhook e =>
    have hu : e.subscription.bind w.owner = some u := hu
    cases e with
    | checkout_session_completed session =>
      exact (user_subscribe.follows hg hv hu).bind fun _ _ _ => trivial
    | invoice_payment_succeeded invoice =>
      refine (handle_invoice_payment_succeeded.follows hu).bind fun sub t _ => ?_
      refine (record_invoice_payment.follows _ _).bind fun _ t _ => ?_
      cases invoice.billing_reason with
      | subscription_create => exact TaskName.delay.follows _ _
      | subscription_cycle => exact TaskName.delay.follows _ _
      | other => trivial
    | invoice_payment_failed invoice =>
      refine (handle_invoice_payment_failed.follows _).bind fun sub t _ => ?_
      cases sub with
      | none => trivial
      | some sub => exact TaskName.delay.follows _ _
    | customer_subscription_deleted d =>
      refine (handle_subscription_deleted.follows _).bind fun sub t _ => ?_
      exact (TaskName.delay.follows _ _).suppress
    | other => trivial

end

/-! ## Tenant isolation -/

/-- A request or an event of an account, in any state that a run has reached and
wherever it dies: only what is of this account changes; its new sessions are for
the customer that its row stores; it answers and acts as if Stripe had no other
subscriptions; and a row that it makes is of the Stripe subscription that a session of
this account was paid for, for the plan that was chosen when this session was opened. -/
theorem tenants_are_isolated {user_repo : UserRepo} {w₀ w : World} {ls : List Label}
    (h0 : Initial w₀) (hrun : (billing user_repo).Run (fun _ _ => True) w₀ ls w)
    {request : Request} {n : Option Nat} {u : UUID}
    (he : (billing user_repo).enabled w (.serve request n))
    (hu : w.Touches (.serve request n) u) :
    let w' := (billing user_repo).next w (.serve request n)
    w.Isolates u w' ∧
    (∀ c ∈ w'.stripe.sessions.rows, c ∉ w.stripe.sessions.rows →
      ∃ user ∈ w'.db.users.rows, user.id = u ∧ user.val.stripe_customer_id ≠ none ∧
        c.val.customer = user.val.stripe_customer_id) ∧
    ((request.prog user_repo).run (w.only u)).1 = ((request.prog user_repo).run w).1 ∧
    (billing user_repo).next (w.only u) (.serve request n) = w'.only u ∧
    (∀ r ∈ w'.db.subscriptions.rows, ¬ w.db.subscriptions.Has r.id → r.val.user_id = u ∧
      ∃ c ∈ w.stripe.sessions.rows, c.val.client_reference_id = some (.ofUuid u) ∧
        c.val.subscription ≠ none ∧ c.val.subscription = r.val.provider_subscription_id ∧
        ∃ v l user plan old, (billing user_repo).Took (fun _ _ => True) w₀ ls w v l ∧
          OpenedBy user_repo v l c (user, plan, old) ∧
          user.id = u ∧ plan.id = r.val.plan_id) := by
  intro w'
  have hg := (run_good h0.good hrun).1
  have heff := billing_effects hg he
  have hiso := heff.isolates rfl fun v hv => hu.unique hv
  have hfollows := Request.follows user_repo hg he hu
  refine ⟨hiso, ?_, ?_, ?_, ?_⟩
  · intro c hc hnew
    have hreach : (billing user_repo).Reachable Initial w := ⟨w₀, ls, h0, hrun⟩
    obtain ⟨user, huser, customer, href, hst, hcust⟩ :=
      heff.own_customers (own_customers hreach) c hc
    have hmine : c.val.client_reference_id = some (.ofUuid u) := by
      by_contra hne
      exact hnew ((hiso.sessions c hne).mp hc)
    rw [href, Option.some.injEq, UuidText.ofUuid.injEq] at hmine
    exact ⟨user, huser, hmine, by simp [hst], by rw [hcust, hst]⟩
  · rw [hfollows.run]
  · cases n with
    | none => exact congrArg Prod.snd hfollows.run
    | some n => exact hfollows.cut n
  · intro r hr hnew
    have hru : r.val.user_id = u := by
      by_contra hne
      exact hnew ⟨r, (hiso.subscriptions r hne).mp hr, rfl⟩
    obtain ⟨id, S, hid, hS, huser, hplan⟩ := (heff.created hr).resolve_left hnew
    obtain ⟨hSmem, hSid⟩ := Table.byId_eq_some.mp hS
    obtain ⟨c, hc, hcS, hcm⟩ := run_from_sessions h0 hrun S hSmem
    rw [hSid] at hcS
    rw [hru, ← hcm] at huser
    rw [← hcm] at hplan
    obtain ⟨u', href, hnames⟩ := hg.sessions c hc
    have hmine : c.val.client_reference_id = some (.ofUuid u) := by
      rw [href, ← hnames.user, huser]
    obtain ⟨v, l, ⟨user, plan, old⟩, htook, hopened⟩ := opened_by h0 hrun hc
    have hsale := hopened.metadata
    refine ⟨hru, c, hc, hmine, by simp [hcS], hcS.trans hid.symm, v, l, user, plan, old, htook,
      hopened, ?_, ?_⟩
    · rw [hsale, Option.some.injEq, UuidText.ofUuid.injEq] at huser
      exact huser
    · rw [hsale, Option.some.injEq, UuidText.ofUuid.injEq] at hplan
      exact hplan

open Sample in
/-- The row that a checkout makes is Ann's, for the plan that she chose. -/
theorem tenants_are_isolated_sample :
    let before := (billing .user).exec world [subscribe "pro", .pay 0 [⟨900, 2000⟩]]
    ∃ c ∈ before.stripe.sessions.rows, c.val.client_reference_id = some (.ofUuid 0) ∧
      c.val.subscription ≠ none ∧ c.val.subscription = some 0 ∧
      ∃ v l user plan old, (billing .user).Took (fun _ _ => True) world
          [subscribe "pro", .pay 0 [⟨900, 2000⟩]] before v l ∧
        OpenedBy .user v l c (user, plan, old) ∧ user.id = 0 ∧ plan.id = 0 :=
  ((tenants_are_isolated (u := 0) world_initial (.of_path (by decide))
    (show (billing .user).enabled _ (checkout 0) by decide) (by decide)).2.2.2.2
      ⟨0, ⟨0, 0, .PAST_DUE, .STRIPE, some 0, some 7, fromtimestamp 1000, some (fromtimestamp 1000),
        none, false⟩⟩ (by decide) (by decide)).2

end saas
