-- Every request goes by the effects of `Effect`, wherever it stops: the step
-- lemma of the billing system, one part for each handler.
import SaasBackend.BillingEffects

open relational async

namespace saas

open Proc SubscriptionRepoistory StripeGateway SubscriptionService

/-! ## Acts that change no subscription -/

theorem record_invoice_payment.acts (invoice : Invoice) (sub : Option (Row Subscription)) :
    (record_invoice_payment invoice sub).Acts World.Quiet := by
  unfold record_invoice_payment
  split
  · trivial
  · refine Acts.bind (Acts.attempt World.Quiet.refl ?_) fun _ => trivial
    intro w a w' h
    obtain ⟨⟨r, db⟩, hi, hw⟩ := map_eq_ok h
    cases hw
    exact World.quiet_insert_payment hi

theorem TaskName.delay.acts (task : TaskName) (sub : Option (Row Subscription)) :
    (task.delay sub).Acts World.Quiet := by
  refine Acts.attempt World.Quiet.refl ?_
  intro w a w' h
  rcases hd : serialize_subscription w.db sub with e | d
  · rw [hd] at h
    cases h
  · rw [hd] at h
    cases h
    exact ⟨rfl, rfl, fun _ h => h, rfl, rfl, rfl⟩

theorem send_payment_email.acts (reason : BillingReason) (sub : Option (Row Subscription)) :
    (send_payment_email reason sub).Acts World.Quiet := by
  cases reason with
  | subscription_create => exact TaskName.delay.acts _ _
  | subscription_cycle => exact TaskName.delay.acts _ _
  | other => trivial

theorem Acts.quiet {α : Type} {p : M α} (h : p.Acts World.Quiet) (w : World) :
    w.Quiet (p.run w).2 :=
  h.run_keeps World.Quiet.refl (fun _ _ _ => World.Quiet.trans) w

/-! ## Checkout sessions -/

variable {l : Label} {w₀ w : World}

/-- The user who buys has a customer id, or gets one. -/
theorem ensure_customer.along {user : Row User} {plan : Row Plan} {old : Option StripeId}
    (user_repo : UserRepo) (hl : w.sells l = some (user, plan, old))
    (hu : user ∈ w.db.users.rows) :
    (ensure_customer user user_repo).Along (Effects l w) (fun r t => Effects l w t ∧
      ∀ u, r = .ok u → u ∈ t.db.users.rows ∧ u.id = user.id ∧
        ∃ customer, u.val.stripe_customer_id = some customer) w := by
  have hs := Effects.refl l w
  unfold ensure_customer
  rcases hc : user.val.stripe_customer_id with _ | customer
  · have hs1 := hs.snoc (.customer rfl hl hu hc)
    simp only
    rw [(show (Customer_create _ _).Commits from commits_attempt _).along_bind]
    refine ⟨hs, hs1, ?_⟩
    cases user_repo with
    | user =>
      refine along_raise.mpr ⟨hs1, hs1, ?_⟩
      rintro u ⟨⟩
    | repository =>
      have hs2 := hs1.snoc (.store_customer rfl hl hu hc)
      have hrun := UserRepository.update.spec (w := w.new_customer user)
        (.stripe_customer w.stripe.customers.next) hu
      change (UserRepository.update user (.stripe_customer w.stripe.customers.next)).Along
        _ _ (w.new_customer user)
      rw [(UserRepository.update.commits user _).along, hrun]
      refine ⟨hs1, hs2, hs2, ?_⟩
      rintro u ⟨⟩
      refine ⟨(Table.mem_update (UserPatch.stripe_customer _).keys).mpr ?_, rfl, _, rfl⟩
      exact Or.inl ⟨user, hu, rfl, rfl⟩
  · refine along_pure.mpr ⟨hs, hs, ?_⟩
    rintro u ⟨⟩
    exact ⟨hu, rfl, customer, hc⟩

/-- A new session names its user, its plan and the subscription it replaces. -/
theorem create_subscription_checkout_session.along {user : Row User} {plan : Row Plan}
    (user_repo : UserRepo) {old : Option StripeId} (hl : w.sells l = some (user, plan, old))
    (hu : user ∈ w.db.users.rows) (hp : w.db.plans.Has plan.id)
    (hold : ∀ id, old = some id → ∃ r, w.row_of id = some r ∧ r.val.user_id = user.id)
    (hwho : w.Touches l user.id) :
    (create_subscription_checkout_session user plan user_repo old).Along
      (Effects l w) (fun _ _ => True) w := by
  unfold create_subscription_checkout_session
  rw [along_bind]
  refine (ensure_customer.along user_repo hl hu).mono (fun t ht => ht) ?_
  rintro (e | u) t ⟨hs, hok⟩
  · trivial
  · obtain ⟨hmem, hid, customer, hcustomer⟩ := hok u rfl
    refine (commits_attempt _).along.mpr ⟨hs, ?_, trivial⟩
    rw [run_attempt]
    rcases hprice : plan.val.stripe_price_id with _ | price
    · exact hs
    · have hn : w.Names user.id
          (session_for user.id plan old customer price).subscription_metadata :=
        ⟨rfl, Table.has_of_mem hu, ⟨plan.id, rfl, hp⟩, hold⟩
      have hopen := hs.snoc
        (.open_session hl hmem hid hcustomer hprice (hn.grows hs.grows) hwho)
      rw [session_for, ← hcustomer, ← hid] at hopen
      exact hopen

/-- A sole row with access is a row of the user. -/
theorem access_found {u : UUID} {sub : Row Subscription}
    (h : scalar_one_or_none (w.access_rows u w.clock) = .ok (some sub)) :
    w.access_rows u w.clock = [sub] ∧ sub ∈ w.db.subscriptions.rows ∧ sub.val.user_id = u := by
  have hl : w.access_rows u w.clock = [sub] := scalar_one_or_none_eq_ok.mp h
  have hm : sub ∈ w.access_rows u w.clock := by simp [hl]
  obtain ⟨hmem, hu, _⟩ := World.mem_access_rows.mp hm
  exact ⟨hl, hmem, hu⟩

theorem subscribe_user_to_plan.along (user_repo : UserRepo) {user : Row User} {code : String}
    {n : Option Nat} (hl : l = .serve (.subscribe user code) n) (hu : user ∈ w.db.users.rows) :
    (subscribe_user_to_plan user_repo user code).Along (Effects l w) (fun _ _ => True) w := by
  have hs := Effects.refl l w
  unfold subscribe_user_to_plan
  rw [(get_subscription_with_access.reads _).along_bind, get_subscription_with_access.spec]
  refine ⟨hs, ?_⟩
  rcases ha : scalar_one_or_none (w.access_rows user.id w.clock) with e | _ | sub
  · trivial
  · have hnil : w.access_rows user.id w.clock = [] := scalar_one_or_none_eq_ok.mp ha
    simp only
    rw [(PlanRepository.get_by_code.reads _).along_bind,
      PlanRepository.get_by_code.spec]
    refine ⟨hs, ?_⟩
    rcases hf : w.plan_of code with _ | plan
    · exact along_raise.mpr ⟨hs, trivial⟩
    · refine create_subscription_checkout_session.along user_repo ?_ hu
        (Table.has_of_mem (World.plan_of_mem hf)) (fun id hid => by cases hid) ?_
      · simp [hl, World.sells, hnil, hf]
      · simp [hl, World.Touches]
  · exact along_raise.mpr ⟨hs, trivial⟩

theorem upgrade_subscription.along (user_repo : UserRepo) {user : Row User} {code : String}
    {n : Option Nat} (hg : Good w) (hl : l = .serve (.upgrade user code) n)
    (hu : user ∈ w.db.users.rows) :
    (upgrade_subscription user_repo user code).Along (Effects l w) (fun _ _ => True) w := by
  have hs := Effects.refl l w
  unfold upgrade_subscription
  rw [(get_subscription_with_access.reads _).along_bind, get_subscription_with_access.spec]
  refine ⟨hs, ?_⟩
  rcases ha : scalar_one_or_none (w.access_rows user.id w.clock) with e | _ | sub
  · trivial
  · exact along_raise.mpr ⟨hs, trivial⟩
  · obtain ⟨hone, hmem, huser⟩ := access_found ha
    simp only
    rw [(PlanRepository.get_by_code.reads _).along_bind,
      PlanRepository.get_by_code.spec]
    refine ⟨hs, ?_⟩
    rcases hf : w.plan_of code with _ | plan
    · exact along_raise.mpr ⟨hs, trivial⟩
    · simp only
      split
      · exact along_raise.mpr ⟨hs, trivial⟩
      · rename_i hplan
        split
        · exact along_raise.mpr ⟨hs, trivial⟩
        · rename_i hprov
          refine create_subscription_checkout_session.along user_repo ?_ hu
            (Table.has_of_mem (World.plan_of_mem hf)) ?_ ?_
          · simp [hl, World.sells, hone, hf, hplan, hprov]
          · intro id hid
            obtain ⟨id', hid', hr⟩ := hg.row_of hmem
            rw [hid', Option.some.injEq] at hid
            subst hid
            exact ⟨sub, hr, huser⟩
          · simp [hl, World.Touches]

/-! ## Cancellations -/

/-- The three ways to the `UPDATE` of `cancel_subscription`. -/
theorem cancel_subscription.along {id : StripeId} {at_ : Time} {stop : Option Time}
    {Q : Except Err (Option (Row Subscription)) → World → Prop} (hs : Effects l w₀ w)
    (hst : w.stripe.statusOf id ≠ some .live)
    (hwhy : ∀ r, w.row_of id = some r → Cancels l w₀ w id r stop)
    (hwho : ∀ r, w.row_of id = some r → w₀.Touches l r.val.user_id)
    (hnone : w.row_of id = none → Q (.ok none) w)
    (hsome : ∀ r, w.row_of id = some r →
      Effects l w₀ (w.update_subscription r.id (.cancel at_ stop)) →
      Q (.ok (some ⟨r.id, (SubscriptionPatch.cancel at_ stop).apply r.val⟩))
        (w.update_subscription r.id (.cancel at_ stop))) :
    (cancel_subscription .STRIPE (some id) at_ stop).Along (Effects l w₀) Q w := by
  rw [(cancel_subscription.commits _ _ _ _).along, cancel_subscription.spec]
  rcases hr : w.row_of id with _ | r
  · exact ⟨hs, hs, hnone hr⟩
  · have hs' := hs.snoc (.cancel at_ hr hst (hwhy r hr) (hwho r hr))
    exact ⟨hs, hs', hsome r hr hs'⟩

theorem cancel_subscription_at_end_of_period.along {u : UUID} {n : Option Nat} (hg : Good w)
    (hl : l = .serve (.cancel u) n) :
    (cancel_subscription_at_end_of_period u).Along (Effects l w) (fun _ _ => True) w := by
  have hwho : w.Touches l u := by simp [hl, World.Touches]
  unfold cancel_subscription_at_end_of_period
  rw [(get_subscription_with_access.reads _).along_bind, get_subscription_with_access.spec]
  refine ⟨Effects.refl l w, ?_⟩
  rcases ha : scalar_one_or_none (w.access_rows u w.clock) with e | _ | sub
  · trivial
  · exact along_raise.mpr ⟨Effects.refl l w, trivial⟩
  · obtain ⟨hone, hmem, huser⟩ := access_found ha
    obtain ⟨id, hid, hrow⟩ := hg.row_of hmem
    obtain ⟨_, hprov, _⟩ := World.row_of_eq_some.mp hrow
    simp only
    split
    · exact along_raise.mpr ⟨Effects.refl l w, trivial⟩
    · split
      · exact along_raise.mpr ⟨Effects.refl l w, trivial⟩
      · rw [(cancel_subscription_at_period_end.commits sub).along_bind,
          cancel_subscription_at_period_end.spec hprov hid]
        rcases hS : w.stripe.subscriptions.byId id with _ | S
        · exact ⟨Effects.refl l w, Effects.refl l w, trivial⟩
        · by_cases hc : S.val.status = .canceled
          · simp only [hc, if_true]
            exact ⟨Effects.refl l w, Effects.refl l w, trivial⟩
          · simp only [hc, if_false, hprov, hid]
            have howner := hg.owner hrow
            rw [huser] at howner
            have hs := (Effects.refl l w).snoc
              (show Effect l w w (w.set_status id .cancel_at_period_end) from
                .status (by simp) howner hwho)
            refine ⟨Effects.refl l w, hs, ?_⟩
            rw [along_bind]
            refine cancel_subscription.along hs ?_ ?_ ?_ ?_ ?_
            · change (w.stripe.set_status id .cancel_at_period_end).statusOf id ≠ some .live
              rw [Stripe.statusOf_set_status]
              simp [Stripe.statusOf, hS]
            · intro r hr
              rw [World.row_of_set_status, hrow, Option.some.injEq] at hr
              subst hr
              exact .request (by rw [huser]; exact hl) rfl hrow (by rw [huser]; exact hone) hS
            · intro r hr
              rw [World.row_of_set_status, hrow, Option.some.injEq] at hr
              subst hr
              rwa [huser]
            · intro _
              exact along_raise.mpr ⟨hs, trivial⟩
            · intro r _ hs'
              exact along_pure.mpr ⟨hs', trivial⟩

theorem handle_subscription_deleted.along {d : DeletedSubscription} (hg : Good w)
    (hd : ∀ id ∈ d.id, w.stripe.statusOf id = some .canceled)
    (hl : l.event = some (.customer_subscription_deleted d)) :
    (handle_subscription_deleted d).Along (Effects l w) (fun _ t => Effects l w t) w := by
  unfold handle_subscription_deleted
  split
  · exact along_raise.mpr ⟨Effects.refl l w, Effects.refl l w⟩
  · rename_i id hid
    rw [now.reads.along_bind, now.spec]
    refine ⟨Effects.refl l w, ?_⟩
    simp only
    rw [along_bind]
    refine cancel_subscription.along (Effects.refl l w) ?_ ?_ ?_ ?_ ?_
    · rw [hd id hid]
      simp
    · exact fun r _ => .deletion hl rfl hid
    · exact fun r hr => World.touches_of_event hl hid (hg.owner hr)
    · exact fun _ => along_raise.mpr ⟨Effects.refl l w, Effects.refl l w⟩
    · exact fun r _ hs => along_pure.mpr ⟨hs, hs⟩

/-! ## Invoices -/

/-- No row of a good world has a null id. -/
theorem Good.no_null {w : World} (hg : Good w) :
    w.db.subscriptions.select (Subscription.is_of .STRIPE none) = [] := by
  rw [Table.select, List.filter_eq_nil_iff]
  intro r hr
  obtain ⟨_, id, _, hid, _⟩ := hg.rows r hr
  simp [Subscription.is_of, hid]

theorem update_sub_status.along {invoice : Invoice} {id : Option StripeId} (hg : Good w)
    (hl : l.event = some (.invoice_payment_failed invoice)) (hid : invoice.subscription = id) :
    (update_sub_status .STRIPE id .PAST_DUE).Along (Effects l w) (fun _ t => Effects l w t) w := by
  rw [(update_sub_status.commits _ _ _).along]
  have hs := Effects.refl l w
  cases id with
  | none =>
    have hnone : (update_sub_status .STRIPE none .PAST_DUE).run w = (.ok none, w) := by
      unfold update_sub_status get_by_provider_subscription_id
      rw [run_bind, run_query, hg.no_null]
      rfl
    rw [hnone]
    exact ⟨hs, hs, hs⟩
  | some id =>
    rw [update_sub_status.spec]
    rcases hr : w.row_of id with _ | r
    · exact ⟨hs, hs, hs⟩
    · by_cases hc : r.val.status = .CANCELED
      · simp only [hc, if_true]
        exact ⟨hs, hs, hs⟩
      · simp only [hc, if_false]
        have hwho := World.touches_of_event hl hid (hg.owner hr)
        have hs' := hs.snoc (.past_due hl hid hr hc hwho)
        exact ⟨hs, hs', hs'⟩

theorem handle_invoice_payment_failed.along {invoice : Invoice} (hg : Good w)
    (hl : l.event = some (.invoice_payment_failed invoice)) :
    (handle_invoice_payment_failed invoice).Along (Effects l w) (fun _ t => Effects l w t) w := by
  have hs := Effects.refl l w
  unfold handle_invoice_payment_failed
  rw [(reads_ofExcept _).along_bind, run_ofExcept]
  refine ⟨hs, ?_⟩
  rcases hlines : invoice.line_items with e | _ | ⟨line, lines⟩
  · exact hs
  · exact along_raise.mpr ⟨hs, hs⟩
  · simp only
    rw [(reads_ofExcept _).along_bind, run_ofExcept]
    refine ⟨hs, ?_⟩
    rcases hline : line.stripe_subscription_id with e | id
    · exact hs
    · exact update_sub_status.along hg hl (by simp [Invoice.subscription, hlines, hline])

/-- What `create_subscription` needs to be a change. -/
theorem create_subscription.along {e : Event} {id : StripeId} {u p : UUID}
    {c up : Option StripeId} {st : SubscriptionStatus} {S : Row StripeSubscription}
    (hs : Effects l w₀ w) (hl : l.event = some e) (hsubj : w₀.subject e = some (id, u, up))
    (hst : st = .ACTIVE ∨ st = .PAST_DUE) (hnone : w.row_of id = none)
    (hS : w.stripe.subscriptions.byId id = some S) (hn : w.Names u S.val.metadata)
    (hp : S.val.metadata.plan_id = some (.ofUuid p))
    (hdem : ∀ o, scalar_one_or_none (w.access_rows u w.clock) = .ok (some o) →
      w₀.demoted e = some o ∧
        ∀ i, o.val.provider_subscription_id = some i → w.stripe.statusOf i = w₀.stripe.statusOf i)
    (hwho : w₀.Touches l u) :
    (create_subscription u p .STRIPE (some id) c st).Along (Effects l w₀)
      (fun x t => Effects l w₀ t ∧ ∀ r, x = .ok r → t.row_of id = some r) w := by
  rw [(create_subscription.commits _ _ _ _ _ _).along, create_subscription.spec]
  rcases hold : scalar_one_or_none (w.access_rows u w.clock) with e | old
  · exact ⟨hs, hs, hs, fun r hr => by cases hr⟩
  · simp only
    rcases hdb : (w.demote old).db.insert_subscription (new_row u p (some id) c st w.clock) with
      e | ⟨r, db⟩
    · exact ⟨hs, hs, hs, fun r hr => by cases hr⟩
    · have hs' := hs.snoc (.create hl hsubj hst hnone hS hn hp hold
        (fun o ho => hdem o (by rw [hold, ho])) hdb hwho)
      refine ⟨hs, hs', hs', ?_⟩
      rintro r' ⟨⟩
      obtain ⟨hnew, _, hrows, _⟩ := Db.insert_subscription_ok hdb
      exact World.row_of_eq_some.mpr ⟨by simp [hrows], by rw [hnew]; rfl, by rw [hnew]; rfl⟩

/-- Without an upgrade a new subscription meets every row with access. -/
theorem Good.others_none {w : World} (hg : Good w) (u : UUID) :
    w.others u none = w.access_rows u w.clock := by
  rw [World.others, List.filter_eq_self]
  intro r hr
  obtain ⟨_, id, _, hid, _⟩ := hg.rows r (World.mem_access_rows.mp hr).1
  simp [hid]

theorem renew_or_create.along {invoice : Invoice} {id : StripeId} {S : Row StripeSubscription}
    (hg : Good w) (hl : l.event = some (.invoice_payment_succeeded invoice))
    (hid : invoice.subscription = some id) (hS : w.stripe.subscriptions.byId id = some S) :
    (renew_or_create id S.val).Along (Effects l w)
      (fun x t => Effects l w t ∧ ∀ r, x = .ok (some r) → t.row_of id = some r) w := by
  have hs := Effects.refl l w
  obtain ⟨_, u, hn⟩ := hg.stripe S (Table.byId_eq_some.mp hS).1
  obtain ⟨p, hp, _⟩ := hn.plan
  have hwho := World.touches_of_event hl hid (World.owner_eq hS hn.user)
  rw [(renew_or_create.commits _ _).along, renew_or_create.spec]
  rcases hi : S.val.items with _ | ⟨item, items⟩
  · exact ⟨hs, hs, hs, fun r hr => by cases hr⟩
  · rcases hr : w.row_of id with _ | r
    · simp only [hn.user, hp, UUID.parse]
      have hsubj : w.subject (.invoice_payment_succeeded invoice) = some (id, u, none) := by
        simp [World.subject, hid, hS, hn.user]
      have hc := create_subscription.along (c := S.val.customer) hs hl hsubj (Or.inl rfl) hr hS
        hn hp (fun o ho => by
          refine ⟨?_, fun _ _ => rfl⟩
          have hone := scalar_one_or_none_eq_ok.mp ho
          rw [← hg.others_none] at hone
          simp [World.demoted, hsubj, hr, hone]) hwho
      have hend := hc.2
      rcases hrun : (create_subscription u p .STRIPE (some id) S.val.customer .ACTIVE).run w with
        ⟨e | r, w'⟩
      · rw [hrun] at hend
        exact ⟨hs, hend.1, hend.1, fun r hr => by cases hr⟩
      · rw [hrun] at hend
        refine ⟨hs, hend.1, hend.1, ?_⟩
        rintro r' ⟨⟩
        exact hend.2 r rfl
    · have hs' := hs.snoc (.period hl hid rfl hr hS hi
        (World.touches_of_event hl hid (hg.owner hr)))
      refine ⟨hs, hs', hs', ?_⟩
      rintro r' ⟨⟩
      exact World.row_of_patch _ hr

theorem handle_invoice_payment_succeeded.along {invoice : Invoice} (hg : Good w)
    (hl : l.event = some (.invoice_payment_succeeded invoice)) :
    (handle_invoice_payment_succeeded invoice).Along (Effects l w) (fun x t => Effects l w t ∧
      ∀ r, x = .ok (some r) → ∃ id, invoice.subscription = some id ∧ t.row_of id = some r ∧
        w.Touches l r.val.user_id) w := by
  have hs := Effects.refl l w
  unfold handle_invoice_payment_succeeded
  rw [(reads_ofExcept _).along_bind, run_ofExcept]
  refine ⟨hs, ?_⟩
  rcases hlines : invoice.line_items with e | _ | ⟨line, lines⟩
  · exact ⟨hs, fun r hr => by cases hr⟩
  · exact along_pure.mpr ⟨hs, hs, fun r hr => by cases hr⟩
  · simp only
    rw [(reads_ofExcept _).along_bind, run_ofExcept]
    refine ⟨hs, ?_⟩
    rcases hline : line.stripe_subscription_id with e | _ | id
    · exact ⟨hs, fun r hr => by cases hr⟩
    · exact along_pure.mpr ⟨hs, hs, fun r hr => by cases hr⟩
    · simp only
      rw [(Subscription_retrieve.reads _).along_bind, Subscription_retrieve.spec]
      refine ⟨hs, ?_⟩
      rcases hS : w.stripe.subscriptions.byId id with _ | S
      · exact ⟨hs, fun r hr => by cases hr⟩
      · have hid : invoice.subscription = some id := by simp [Invoice.subscription, hlines, hline]
        refine (renew_or_create.along hg hl hid hS).mono (fun _ h => h) ?_
        rintro x t ⟨ht, hrow⟩
        refine ⟨ht, fun r hr => ⟨id, hid, hrow r hr, ?_⟩⟩
        obtain ⟨_, u, hn⟩ := hg.stripe S (Table.byId_eq_some.mp hS).1
        have howner := World.owner_eq hS hn.user
        have hru := (ht.good hg).owner (hrow r hr)
        rw [ht.grows.owner howner, Option.some.injEq] at hru
        rw [← hru]
        exact World.touches_of_event hl hid howner

/-! ## Payments and emails -/

theorem record_invoice_payment.run_some (invoice : Invoice) (r : Row Subscription) (w : World) :
    (record_invoice_payment invoice (some r)).run w =
      match w.db.insert_payment (invoice_payment invoice r) with
      | .error e => (.error e, w)
      | .ok (_, db) => (.ok (), { w with db := db }) := by
  unfold record_invoice_payment PaymentRepository.create_payment
  simp only
  rw [run_bind, run_attempt, ← invoice_payment]
  rcases w.db.insert_payment (invoice_payment invoice r) with e | ⟨r', db⟩ <;> rfl

theorem record_invoice_payment.commits (invoice : Invoice) (sub : Option (Row Subscription)) :
    (record_invoice_payment invoice sub).Commits := by
  unfold record_invoice_payment
  cases sub with
  | none => exact commits_raise _
  | some r => exact (show (PaymentRepository.create_payment _ _ _ _ _ _ _).Commits from
      commits_attempt _).before_reads fun _ => reads_pure _

theorem record_invoice_payment.along {invoice : Invoice} {sub : Option (Row Subscription)}
    (hs : Effects l w₀ w) (hl : l.event = some (.invoice_payment_succeeded invoice))
    (hsub : ∀ r, sub = some r → ∃ id, invoice.subscription = some id ∧ w.row_of id = some r ∧
      w₀.Touches l r.val.user_id) :
    (record_invoice_payment invoice sub).Along (Effects l w₀) (fun _ t => Effects l w₀ t) w := by
  rw [(record_invoice_payment.commits _ _).along]
  cases sub with
  | none => exact ⟨hs, hs, hs⟩
  | some r =>
    obtain ⟨id, hid, hr, hwho⟩ := hsub r rfl
    rw [record_invoice_payment.run_some]
    rcases hdb : w.db.insert_payment (invoice_payment invoice r) with e | ⟨p, db⟩
    · exact ⟨hs, hs, hs⟩
    · have hs' := hs.snoc (.record hl hid hr hdb hwho)
      exact ⟨hs, hs', hs'⟩

theorem TaskName.delay.along (task : TaskName) (sub : Option (Row Subscription))
    (hs : Effects l w₀ w) : (task.delay sub).Along (Effects l w₀) (fun _ _ => True) w := by
  unfold TaskName.delay
  rw [(commits_attempt _).along, run_attempt]
  rcases serialize_subscription w.db sub with e | d
  · exact ⟨hs, hs, trivial⟩
  · exact ⟨hs, hs.snoc (.enqueue ⟨task, d⟩), trivial⟩

theorem send_payment_email.along (reason : BillingReason) (sub : Option (Row Subscription))
    (hs : Effects l w₀ w) :
    (send_payment_email reason sub).Along (Effects l w₀) (fun _ _ => True) w := by
  cases reason with
  | subscription_create => exact TaskName.delay.along _ _ hs
  | subscription_cycle => exact TaskName.delay.along _ _ hs
  | other => exact along_pure.mpr ⟨hs, trivial⟩

/-! ## Checkouts -/

/-- After an upgrade has ended the old subscription, the rows with access are
the others. -/
theorem mem_access_end_upgraded {old : StripeId} {r o : Row Subscription} {u : UUID}
    (hr : w.row_of old = some r) :
    o ∈ (w.end_upgraded old).access_rows u w.clock ↔ o ∈ w.others u (some old) := by
  obtain ⟨hmem, _, hps⟩ := World.row_of_eq_some.mp hr
  unfold World.end_upgraded World.others
  rw [hr]
  simp only [World.mem_access_rows, World.mem_update_subscription, List.mem_filter,
    Bool.not_eq_true', decide_eq_false_iff_not]
  constructor
  · rintro ⟨⟨r', _, _, rfl⟩ | ⟨ho, hid⟩, hu, hacc⟩
    · obtain ⟨⟨e, he, hlt⟩, _⟩ := Subscription.grants_access_iff.mp hacc
      cases he
      exact absurd hlt (Nat.lt_irrefl _)
    · refine ⟨⟨ho, hu, hacc⟩, fun hps' => hid ?_⟩
      rw [Table.eq_of_key (k := old) ho hmem (by simp [Keyed.keys, hps'])
        (by simp [Keyed.keys, hps])]
  · rintro ⟨⟨ho, hu, hacc⟩, hne⟩
    refine ⟨Or.inr ⟨ho, fun hid => hne ?_⟩, hu, hacc⟩
    rw [Table.eq_of_id ho hmem hid, hps]

theorem others_nodup (w : World) (u : UUID) (old : Option StripeId) : (w.others u old).Nodup :=
  (Table.nodup_select _ _).filter _

/-- The sole row with access after the upgrade is the sole other row before. -/
theorem others_of_end_upgraded {old : StripeId} {r o : Row Subscription} {u : UUID}
    (hr : w.row_of old = some r)
    (ho : (w.end_upgraded old).access_rows u w.clock = [o]) : w.others u (some old) = [o] := by
  have hmem : ∀ a, a ∈ w.others u (some old) ↔ a = o := by
    intro a
    rw [← mem_access_end_upgraded hr, ho, List.mem_singleton]
  rcases Table.nil_or_singleton (others_nodup w u (some old)) (fun a ha b hb =>
    ((hmem a).mp ha).trans ((hmem b).mp hb).symm) with h0 | ⟨a, h1⟩
  · have := (hmem o).mpr rfl
    rw [h0] at this
    cases this
  · rw [h1] at hmem ⊢
    rw [(hmem a).mp (List.mem_singleton_self a)]

theorem clock_end_upgraded (w : World) (old : StripeId) : (w.end_upgraded old).clock = w.clock := by
  unfold World.end_upgraded
  split <;> rfl

theorem statusOf_end_upgraded (w : World) (old i : StripeId) :
    (w.end_upgraded old).stripe.statusOf i =
      if i = old then (w.stripe.statusOf i).map (fun _ => .canceled) else w.stripe.statusOf i := by
  have h : (w.end_upgraded old).stripe = w.stripe.set_status old .canceled := by
    unfold World.end_upgraded
    split <;> rfl
  rw [h, Stripe.statusOf_set_status]

theorem cancel_upgraded.along {session : SessionObject} {new old : StripeId}
    {r : Row Subscription} {S : Row StripeSubscription} {Q : Except Err Unit → World → Prop}
    (hl : l.event = some (.checkout_session_completed session))
    (hsubj : w.subject (.checkout_session_completed session) =
      some (new, r.val.user_id, some old))
    (hr : w.row_of old = some r) (hS : w.stripe.subscriptions.byId old = some S)
    (howner : w.owner old = some r.val.user_id) (hwho : w.Touches l r.val.user_id)
    (herr : S.val.status = .canceled → Q (.error .stripeError) w)
    (hok : S.val.status ≠ .canceled → Effects l w (w.end_upgraded old) →
      Q (.ok ()) (w.end_upgraded old)) :
    (cancel_upgraded (some old)).Along (Effects l w) Q w := by
  unfold cancel_upgraded
  rw [(show (Subscription_delete old).Commits from commits_attempt _).along_bind,
    Subscription_delete.spec]
  simp only [hS]
  by_cases hc : S.val.status = .canceled
  · simp only [hc, if_true]
    exact ⟨Effects.refl l w, Effects.refl l w, herr hc⟩
  · simp only [hc, if_false]
    have hs := (Effects.refl l w).snoc
      (show Effect l w w (w.set_status old .canceled) from .status (by simp) howner hwho)
    refine ⟨Effects.refl l w, hs, ?_⟩
    rw [now.reads.along_bind, now.spec]
    refine ⟨hs, ?_⟩
    simp only
    rw [along_bind]
    have hend : w.end_upgraded old = (w.set_status old .canceled).update_subscription r.id
        (.cancel w.clock (some w.clock)) := by
      rw [World.end_upgraded, hr]
    refine cancel_subscription.along hs ?_ ?_ ?_ ?_ ?_
    · change (w.stripe.set_status old .canceled).statusOf old ≠ some .live
      rw [Stripe.statusOf_set_status]
      simp [Stripe.statusOf, hS]
    · intro r' hr'
      rw [World.row_of_set_status, hr, Option.some.injEq] at hr'
      subst hr'
      exact .upgrade hl rfl hsubj (by simpa [Stripe.statusOf, hS] using hc)
    · intro r' hr'
      rw [World.row_of_set_status, hr, Option.some.injEq] at hr'
      rwa [← hr']
    · intro hnone
      rw [World.row_of_set_status, hr] at hnone
      cases hnone
    · intro r' hr' hs'
      rw [World.row_of_set_status, hr, Option.some.injEq] at hr'
      subst hr'
      rw [hend] at hok
      exact along_pure.mpr ⟨hs', hok hc hs'⟩

/-- What Stripe tells of a session: its subscription, and whom it names. -/
theorem Good.tells {session : SessionObject} (hg : Good w) (ht : w.TellsOf session) :
    ∃ id S u, session.subscription = some id ∧ w.stripe.subscriptions.byId id = some S ∧
      session.client_reference_id = some (.ofUuid u) ∧ w.Names u S.val.metadata := by
  obtain ⟨c, hc, hsome, rfl⟩ := ht
  obtain ⟨id, hid⟩ := Option.isSome_iff_exists.mp hsome
  obtain ⟨S, hS, hm⟩ := hg.paid c hc id hid
  obtain ⟨u, href, hn⟩ := hg.sessions c hc
  exact ⟨id, S, u, hid, hS, href, by rw [hm]; exact hn⟩

theorem get_by_id.reads (id : Option UuidText) : (PlanRepository.get_by_id id).Reads :=
  reads_query _

/-- The plan that good metadata name is found. -/
theorem World.Names.get_by_id {u : UUID} {m : Metadata} (h : w.Names u m) :
    ∃ p plan, m.plan_id = some (.ofUuid p) ∧ w.db.plans.byId p = some plan ∧
      (PlanRepository.get_by_id m.plan_id).run w = (.ok (some plan), w) := by
  obtain ⟨p, hp, hhas⟩ := h.plan
  obtain ⟨plan, hplan⟩ := hhas.byId
  refine ⟨p, plan, hp, hplan, ?_⟩
  unfold PlanRepository.get_by_id
  rw [run_query, hp]
  simp only [hplan]

/-- The second half of a checkout, in the state that the first half left. -/
theorem find_or_create.along {session : SessionObject} {id : StripeId} {up : Option StripeId}
    {S : Row StripeSubscription} {u p : UUID} {m : Option UuidText} (hs : Effects l w₀ w)
    (hl : l.event = some (.checkout_session_completed session))
    (hsubj : w₀.subject (.checkout_session_completed session) = some (id, u, up))
    (hid : session.subscription = some id) (href : session.client_reference_id = some (.ofUuid u))
    (hm : m = some (.ofUuid p)) (hS : w.stripe.subscriptions.byId id = some S)
    (hn : w.Names u S.val.metadata) (hp : S.val.metadata.plan_id = some (.ofUuid p))
    (hdem : ∀ o, w.row_of id = none → w.access_rows u w.clock = [o] →
      w₀.demoted (.checkout_session_completed session) = some o ∧
        ∀ i, o.val.provider_subscription_id = some i → w.stripe.statusOf i = w₀.stripe.statusOf i)
    (hwho : w₀.Touches l u) :
    (find_or_create session m).Along (Effects l w₀) (fun _ t => Effects l w₀ t) w := by
  obtain ⟨ref, sub, customer⟩ := session
  simp only at hid href
  subst hid href hm
  rw [(find_or_create.commits _ _).along, find_or_create.spec]
  rcases hr : w.row_of id with _ | r
  · simp only [UUID.parse]
    have hend := (create_subscription.along (c := customer) hs hl hsubj (Or.inr rfl) hr hS hn hp
      (fun o ho => hdem o hr (scalar_one_or_none_eq_ok.mp ho)) hwho).2.1
    exact ⟨hs, hend, hend⟩
  · exact ⟨hs, hs, hs⟩

theorem user_subscribe.along {session : SessionObject} (hg : Good w) (ht : w.TellsOf session)
    (hl : l.event = some (.checkout_session_completed session)) :
    (user_subscribe session).Along (Effects l w) (fun _ t => Effects l w t) w := by
  have hs := Effects.refl l w
  obtain ⟨id, S, u, hid, hS, href, hn⟩ := hg.tells ht
  obtain ⟨p, plan, hp, _, hplan⟩ := hn.get_by_id
  have hwho := World.touches_of_event hl hid (World.owner_eq hS hn.user)
  unfold user_subscribe
  rw [(Subscription_retrieve.reads _).along_bind, hid, Subscription_retrieve.spec, hS]
  refine ⟨hs, ?_⟩
  simp only
  rw [(get_by_id.reads _).along_bind, hplan]
  refine ⟨hs, ?_⟩
  simp only
  have hsubj : w.subject (.checkout_session_completed session) =
      some (id, u, S.val.metadata.upgrade_from_subscription_id) := by
    simp [World.subject, hid, href, hS]
  rcases hup : S.val.metadata.upgrade_from_subscription_id with _ | old
  · rw [hup] at hsubj
    change (find_or_create session S.val.metadata.plan_id).Along _ _ w
    refine find_or_create.along hs hl hsubj hid href hp hS hn hp
      (fun o hr ho => ⟨?_, fun _ _ => rfl⟩) hwho
    rw [← hg.others_none] at ho
    simp [World.demoted, hsubj, hr, ho]
  · rw [hup] at hsubj
    obtain ⟨r, hr, hru⟩ := hn.upgrade old hup
    obtain ⟨So, hSo, _⟩ := hg.of_row hr
    rw [along_bind]
    refine cancel_upgraded.along hl (by rw [hsubj, hru]) hr hSo (hg.owner hr) (by rwa [hru])
      (fun _ => hs) fun hc hend => ?_
    have hgrows := hend.grows
    obtain ⟨S', hS', hm', _⟩ := hgrows.stripe id S hS
    refine find_or_create.along hend hl hsubj hid href hp hS'
      (by rw [hm']; exact hn.grows hgrows) (by rw [hm']; exact hp) ?_ hwho
    intro o hnone ho
    rw [clock_end_upgraded] at ho
    have hoth := others_of_end_upgraded hr ho
    have hnone' : w.row_of id = none := by
      rcases hrow : w.row_of id with _ | r'
      · rfl
      · obtain ⟨r'', hr'', _⟩ := hgrows.row_of hrow
        rw [hr''] at hnone
        cases hnone
    have hstatus : w.stripe.statusOf old ≠ some .canceled := by
      simpa [Stripe.statusOf, hSo] using hc
    refine ⟨by simp [World.demoted, hsubj, hnone', hstatus, hoth], fun i hi => ?_⟩
    rw [statusOf_end_upgraded]
    have hmem : o ∈ w.others u (some old) := by simp [hoth]
    have hne := (List.mem_filter.mp hmem).2
    simp only [hi, Bool.not_eq_true', decide_eq_false_iff_not, Option.some.injEq] at hne
    rw [if_neg hne]

/-! ## The step lemma -/

theorem handle_event.along {e : Event} (hg : Good w) (he : w.Sends e) (hl : l.event = some e) :
    (handle_event e).Along (Effects l w) (fun _ _ => True) w := by
  have hs := Effects.refl l w
  cases e with
  | checkout_session_completed session =>
    unfold handle_event
    rw [along_bind]
    refine (user_subscribe.along hg he hl).mono (fun _ h => h) ?_
    rintro (e | sub) t ht
    · trivial
    · exact along_pure.mpr ⟨ht, trivial⟩
  | invoice_payment_succeeded invoice =>
    unfold handle_event
    rw [along_bind]
    refine (handle_invoice_payment_succeeded.along hg hl).mono (fun _ h => h) ?_
    rintro (e | sub) t ⟨ht, hrow⟩
    · trivial
    · simp only
      rw [along_bind]
      refine (record_invoice_payment.along ht hl ?_).mono (fun _ h => h) ?_
      · rintro r rfl
        exact hrow r rfl
      · rintro (e | _) t' ht'
        · trivial
        · exact send_payment_email.along _ _ ht'
  | customer_subscription_deleted d =>
    unfold handle_event
    rw [along_bind]
    refine (handle_subscription_deleted.along hg he hl).mono (fun _ h => h) ?_
    rintro (e | sub) t ht
    · trivial
    · have hdelay := TaskName.delay.along .send_cancel_subscription_email_task (some sub) ht
      refine ⟨fun t' ht' => ?_, trivial⟩
      rw [trace_suppress] at ht'
      exact hdelay.1 t' ht'
  | invoice_payment_failed invoice =>
    unfold handle_event
    rw [along_bind]
    refine (handle_invoice_payment_failed.along hg hl).mono (fun _ h => h) ?_
    rintro (e | _ | sub) t ht
    · trivial
    · exact along_pure.mpr ⟨ht, trivial⟩
    · exact TaskName.delay.along _ _ ht
  | other => exact along_pure.mpr ⟨hs, trivial⟩

/-- A discarded result changes nothing. -/
theorem Along.discard {α : Type} {p : M α} {I : World → Prop}
    (h : p.Along I (fun _ _ => True) w) :
    (p >>= fun _ => pure ()).Along I (fun _ _ => True) w := by
  rw [along_bind]
  refine ⟨h.1, ?_⟩
  have hend := h.1 _ (end_mem_trace p w)
  rcases hr : p.run w with ⟨e | a, t⟩
  · trivial
  · rw [hr] at hend
    exact along_pure.mpr ⟨hend, trivial⟩

/-- A request goes by changes, wherever it stops. -/
theorem Request.along {r : Request} {n : Option Nat} (user_repo : UserRepo) (hg : Good w)
    (hv : r.Valid w) (hl : l = .serve r n) :
    (r.prog user_repo).Along (Effects l w) (fun _ _ => True) w := by
  subst hl
  cases r with
  | subscribe user code => exact Along.discard (subscribe_user_to_plan.along user_repo rfl hv)
  | upgrade user code => exact Along.discard (upgrade_subscription.along user_repo hg rfl hv)
  | cancel u => exact Along.discard (cancel_subscription_at_end_of_period.along hg rfl)
  | webhook e => exact handle_event.along hg hv rfl

/-- The step lemma: what a label does, it does by effects. -/
theorem billing_effects {user_repo : UserRepo} (hg : Good w)
    (he : (billing user_repo).enabled w l) : Effects l w ((billing user_repo).next w l) := by
  have hs := Effects.refl l w
  cases l with
  | serve request dies_after =>
    have ha := request.along user_repo hg he (l := .serve request dies_after) rfl
    cases dies_after with
    | none => exact ha.1 _ (end_mem_trace _ w)
    | some n => exact ha.1 _ (cut_mem_trace n _ w)
  | tick d => exact hs.snoc (.tick d)
  | pay session items =>
    obtain ⟨hi, hsome⟩ := he
    obtain ⟨c, hc, _⟩ := Option.map_eq_some_iff.mp hsome
    obtain ⟨hmem, hid⟩ := Table.byId_eq_some.mp hc
    change Effects _ w (((w.stripe.sessions.byId session).map (w.pay · items)).getD w)
    rw [hc]
    exact hs.snoc (.pay (by rw [hid]) hmem hi)
  | bill id items canceled_at period_end => exact hs.snoc (.bill rfl rfl he)
  | stop id => exact hs.snoc (.stop rfl rfl)

/-- What a label does, it does by changes. -/
theorem billing_steps {user_repo : UserRepo} (hg : Good w) (he : (billing user_repo).enabled w l) :
    Steps l w ((billing user_repo).next w l) := (billing_effects hg he).steps

/-- A run keeps a state good, and only grows. -/
theorem run_good {user_repo : UserRepo} {C : World → Label → Prop} {w w' : World}
    {ls : List Label} (hg : Good w) (h : (billing user_repo).Run C w ls w') :
    Good w' ∧ w.Grows w' := by
  apply h.invariant (I := fun t => Good t ∧ w.Grows t) ⟨hg, World.Grows.refl w⟩
  rintro t l ⟨hgt, hgr⟩ he _
  have hs := billing_steps hgt he
  exact ⟨hs.good hgt, hgr.trans hs.grows⟩

/-- A run that never touches an account changes nothing of it. -/
theorem run_frame {user_repo : UserRepo} {u : UUID} {w w' : World} {ls : List Label}
    (hg : Good w) (h : (billing user_repo).Run (fun t l => ¬ t.Touches l u) w ls w') :
    w.Frame u w' := by
  have hboth : (Good w' ∧ w.Grows w') ∧ w.Frame u w' := by
    apply h.invariant (I := fun t => (Good t ∧ w.Grows t) ∧ w.Frame u t)
    · exact ⟨⟨hg, World.Grows.refl w⟩, World.Frame.refl u w⟩
    · rintro t l ⟨⟨hgt, hgr⟩, hf⟩ he hl
      have hs := billing_steps hgt he
      exact ⟨⟨hs.good hgt, hgr.trans hs.grows⟩, hf.trans hgr (hs.frame hl)⟩
  exact hboth.2

/-- Every reachable state is good. -/
theorem billing_good {user_repo : UserRepo} (h : (billing user_repo).Reachable Initial w) :
    Good w :=
  h.invariant (fun _ h0 => h0.good) fun _ _ hg he => (billing_steps hg he).good hg

end saas
