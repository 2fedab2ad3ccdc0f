-- The mails about payments. A webhook enqueues one after its payment row is stored,
-- so a mail needs a row of its own: deliveries that come twice, that overlap or that
-- die send none.
import SaasBackend.BillingTraffic

open relational async

namespace saas

open Proc StripeGateway SubscriptionService Session

/-! ## The balance -/

/-- The tasks that tell a user of a payment. -/
def TaskName.tells_of_payment : TaskName → Bool
  | .send_subscription_email_task => true
  | .send_update_subscription_email_task => true
  | _ => false

/-- The mails in the queue about payments of the subscription row `i`. -/
def World.payment_mails (w : World) (i : UUID) : Nat :=
  w.queue.countP fun t => t.name.tells_of_payment && decide (t.subscription.id = i)

/-- The payment rows of the subscription row `i`. -/
def World.payment_rows (w : World) (i : UUID) : Nat :=
  w.db.payments.rows.countP fun p => decide (p.val.subscription_id = some i)

/-- The mails that no row backs. -/
def World.unbacked (i : UUID) (w : World) : Int := w.payment_mails i - w.payment_rows i

/-! ## Acts that leave both -/

/-- Neither the queue nor the payments change. -/
def Idle (w w' : World) : Prop := w'.queue = w.queue ∧ w'.db.payments = w.db.payments

theorem Idle.refl (w : World) : Idle w w := ⟨rfl, rfl⟩

theorem Idle.unbacked {w w' : World} (h : Idle w w') (i : UUID) :
    w'.unbacked i = w.unbacked i := by
  unfold World.unbacked World.payment_mails World.payment_rows
  rw [h.1, h.2]

/-- The rule of composition, for what follows a read. -/
theorem idle_query {α β : Type} {f : World → Except Err α} {g : α → M β}
    (h : ∀ a, (g a).Acts Idle) : (Proc.query f >>= g).Acts Idle :=
  Acts.bind (Acts.query Idle.refl) h

theorem now.idle : now.Acts Idle := Acts.read Idle.refl

theorem get_subscription_with_access.idle (u : UUID) :
    (SubscriptionRepoistory.get_subscription_with_access u).Acts Idle :=
  Acts.bind now.idle fun _ => Acts.query Idle.refl

theorem commit_patch.idle (held : Row Subscription) (p : SubscriptionPatch) :
    (Session.commit_patch held p).Acts Idle :=
  Acts.bind (Acts.write Idle.refl fun _ => ⟨rfl, rfl⟩) fun _ => Acts.query Idle.refl

theorem create_subscription.idle (u p : UUID) (pr : PaymentProvider) (id c : Option StripeId)
    (st : SubscriptionStatus) : (Session.create_subscription u p pr id c st).Acts Idle := by
  refine Acts.bind (get_subscription_with_access.idle u) fun old => Acts.bind now.idle fun t =>
    Acts.bind (Acts.attempt Idle.refl fun w r w' hstep => ?_) fun _ => Acts.query Idle.refl
  obtain ⟨⟨_, db⟩, hdb, he⟩ := map_eq_ok hstep
  cases he
  obtain ⟨_, _, _, _, _, _, hpay⟩ := Db.insert_subscription_ok hdb
  refine ⟨?_, hpay.trans (w.payments_demote_held old)⟩
  cases old <;> rfl

theorem update_subscription_period.idle (pr : PaymentProvider) (id : Option StripeId)
    (start stop : Time) : (Session.update_subscription_period pr id start stop).Acts Idle := by
  refine idle_query fun o => ?_
  cases o with
  | none => trivial
  | some sub => exact Acts.bind (commit_patch.idle _ _) fun _ => trivial

theorem cancel_subscription.idle (held : Option (Row Subscription)) (pr : PaymentProvider)
    (id : Option StripeId) (at_ : Time) (stop : Option Time) :
    (Session.cancel_subscription held pr id at_ stop).Acts Idle := by
  refine idle_query fun o => ?_
  cases o with
  | none => trivial
  | some sub => exact Acts.bind (commit_patch.idle _ _) fun _ => trivial

theorem update_sub_status.idle (pr : PaymentProvider) (id : Option StripeId)
    (st : SubscriptionStatus) : (Session.update_sub_status pr id st).Acts Idle := by
  refine idle_query fun o => ?_
  cases o with
  | none => trivial
  | some sub =>
    simp only
    split
    · trivial
    · exact Acts.bind (commit_patch.idle _ _) fun _ => trivial

theorem Subscription_delete.idle (id : StripeId) : (Subscription_delete id).Acts Idle := by
  refine Acts.attempt Idle.refl fun w _ w' hstep => ?_
  split at hstep
  · split at hstep
    · cases hstep
    · cases hstep
      exact ⟨rfl, rfl⟩
  · cases hstep

theorem cancel_upgraded.idle (old : Option StripeId) : (Session.cancel_upgraded old).Acts Idle := by
  cases old with
  | none => trivial
  | some old =>
    exact Acts.bind (Subscription_delete.idle old) fun _ => Acts.bind now.idle fun _ =>
      Acts.bind (cancel_subscription.idle _ _ _ _ _) fun _ => trivial

theorem find_or_create.idle (session : SessionObject) (m : Option UuidText) :
    (Session.find_or_create session m).Acts Idle := by
  refine idle_query fun o => ?_
  cases o with
  | some sub => trivial
  | none =>
    exact Acts.bind (Acts.ofExcept _) fun _ => Acts.bind (Acts.ofExcept _) fun _ =>
      create_subscription.idle _ _ _ _ _ _

theorem user_subscribe.idle (session : SessionObject) :
    (Session.user_subscribe session).Acts Idle := by
  refine idle_query fun S => idle_query fun plan => ?_
  cases plan with
  | none => trivial
  | some plan =>
    exact Acts.bind (cancel_upgraded.idle _) fun _ => find_or_create.idle _ _

theorem renew_or_create.idle (id : StripeId) (S : StripeSubscription) :
    (Session.renew_or_create id S).Acts Idle := by
  unfold Session.renew_or_create
  cases S.items with
  | nil => trivial
  | cons item items =>
    refine Acts.bind (update_subscription_period.idle _ _ _ _) fun o => ?_
    cases o with
    | some sub => trivial
    | none =>
      exact Acts.bind (Acts.ofExcept _) fun _ => Acts.bind (Acts.ofExcept _) fun _ =>
        Acts.bind (create_subscription.idle _ _ _ _ _ _) fun _ => trivial

theorem handle_invoice_payment_succeeded.idle (invoice : Invoice) :
    (Session.handle_invoice_payment_succeeded invoice).Acts Idle := by
  refine Acts.bind (Acts.ofExcept _) fun lines => ?_
  cases lines with
  | nil => trivial
  | cons line lines =>
    refine Acts.bind (Acts.ofExcept _) fun id => ?_
    cases id with
    | none => trivial
    | some id => exact idle_query fun S => renew_or_create.idle _ _

theorem handle_invoice_payment_failed.idle (invoice : Invoice) :
    (Session.handle_invoice_payment_failed invoice).Acts Idle := by
  refine Acts.bind (Acts.ofExcept _) fun lines => ?_
  cases lines with
  | nil => trivial
  | cons line lines => exact Acts.bind (Acts.ofExcept _) fun _ => update_sub_status.idle _ _ _

theorem handle_subscription_deleted.idle (d : DeletedSubscription) :
    (Session.handle_subscription_deleted d).Acts Idle := by
  unfold Session.handle_subscription_deleted
  cases d.id with
  | none => trivial
  | some id =>
    refine Acts.bind now.idle fun _ => Acts.bind (cancel_subscription.idle _ _ _ _ _) fun o => ?_
    cases o <;> trivial

theorem ensure_customer.idle (user : Row User) (user_repo : UserRepo) :
    (ensure_customer user user_repo).Acts Idle := by
  unfold ensure_customer
  cases user.val.stripe_customer_id with
  | some customer => trivial
  | none =>
    refine Acts.bind (Acts.attempt Idle.refl fun w a w' hstep => ?_) fun customer => ?_
    · cases hstep
      exact ⟨rfl, rfl⟩
    · cases user_repo with
      | user => trivial
      | repository =>
        exact Acts.bind (Acts.write Idle.refl fun _ => ⟨rfl, rfl⟩) fun _ => Acts.query Idle.refl

theorem create_subscription_checkout_session.idle (user : Row User) (plan : Row Plan)
    (user_repo : UserRepo) (old : Option StripeId) :
    (create_subscription_checkout_session user plan user_repo old).Acts Idle := by
  refine Acts.bind (ensure_customer.idle _ _) fun u => Acts.attempt Idle.refl fun w _ w' hstep => ?_
  split at hstep
  · cases hstep
  · cases hstep
    exact ⟨rfl, rfl⟩

theorem subscribe_user_to_plan.idle (user_repo : UserRepo) (user : Row User) (code : String) :
    (subscribe_user_to_plan user_repo user code).Acts Idle := by
  refine Acts.bind (get_subscription_with_access.idle _) fun o => ?_
  cases o with
  | some sub => trivial
  | none =>
    refine idle_query fun plan => ?_
    cases plan with
    | none => trivial
    | some plan => exact create_subscription_checkout_session.idle _ _ _ _

theorem upgrade_subscription.idle (user_repo : UserRepo) (user : Row User) (code : String) :
    (upgrade_subscription user_repo user code).Acts Idle := by
  refine Acts.bind (get_subscription_with_access.idle _) fun o => ?_
  cases o with
  | none => trivial
  | some sub =>
    refine idle_query fun plan => ?_
    cases plan with
    | none => trivial
    | some plan =>
      simp only
      split
      · trivial
      · split
        · trivial
        · exact create_subscription_checkout_session.idle _ _ _ _

theorem cancel_subscription_at_period_end.idle (sub : Row Subscription) :
    (cancel_subscription_at_period_end sub).Acts Idle := by
  unfold cancel_subscription_at_period_end
  dsimp only
  split
  · refine Acts.bind (Acts.attempt Idle.refl fun w _ w' hstep => ?_) fun _ =>
      Acts.bind (p := Proc.ret _) trivial fun _ => Acts.bind now.idle fun _ => trivial
    split at hstep
    · split at hstep
      · cases hstep
      · cases hstep
        exact ⟨rfl, rfl⟩
    · cases hstep
  · exact Acts.bind (p := Proc.ret _) trivial fun _ => Acts.bind now.idle fun _ => trivial

theorem cancel_subscription_at_end_of_period.idle (u : UUID) :
    (Session.cancel_subscription_at_end_of_period u).Acts Idle := by
  refine Acts.bind (get_subscription_with_access.idle u) fun o => ?_
  cases o with
  | none => trivial
  | some sub =>
    simp only
    split
    · trivial
    · split
      · trivial
      · refine Acts.bind (cancel_subscription_at_period_end.idle sub) fun times =>
          Acts.bind (cancel_subscription.idle _ _ _ _ _) fun o => ?_
        cases o <;> trivial

/-! ## Credits -/

section

variable {i : UUID}

theorem idle_affords {α : Type} {p : M α} (h : p.Acts Idle) (n : Nat) :
    p.Affords (World.unbacked i) (fun _ m => m = n) n :=
  Acts.affords (h.mono fun _ _ hc => by rw [hc.unbacked])

/-- An idle program that is all of a request. -/
theorem idle_affords_all {p : M Unit} (h : p.Acts Idle) :
    p.Affords (World.unbacked i) (fun _ _ => True) 0 :=
  (idle_affords h 0).mono fun _ _ _ => trivial

/-- A payment row that is stored is worth one mail. -/
theorem record_invoice_payment.affords (invoice : Invoice) (r : Row Subscription) :
    (record_invoice_payment invoice (some r)).Affords (World.unbacked i)
      (fun _ m => m = if r.id = i then 1 else 0) 0 := by
  refine Affords.bind (affords_attempt fun w p w' hstep => ?_)
  obtain ⟨⟨_, db⟩, hdb, he⟩ := map_eq_ok hstep
  cases he
  obtain ⟨rfl, _, hrows, _⟩ := Db.insert_payment_ok hdb
  refine ⟨if r.id = i then 1 else 0, ?_, rfl⟩
  simp only [World.unbacked, World.payment_mails, World.payment_rows, hrows, List.countP_append,
    List.countP_singleton, Table.newRow, Option.some.injEq, decide_eq_true_eq]
  by_cases hr : r.id = i
  · simp only [if_pos hr]
    omega
  · simp only [if_neg hr]
    omega

/-- A mail about a payment costs what the row was worth. -/
theorem TaskName.delay.affords (task : TaskName) (r : Row Subscription) :
    (task.delay (some r)).Affords (World.unbacked i) (fun _ _ => True)
      (if task.tells_of_payment && decide (r.id = i) then 1 else 0) := by
  refine affords_attempt fun w _ w' hstep => ?_
  obtain ⟨d, hd, he⟩ := map_eq_ok hstep
  cases he
  have hid : d.id = r.id := by
    unfold serialize_subscription at hd
    split at hd
    · cases hd
    · rename_i s hs
      cases hs
      split at hd
      · cases hd
        rfl
      · cases hd
  refine ⟨0, ?_, trivial⟩
  simp only [World.unbacked, World.payment_mails, World.payment_rows, World.enqueue,
    List.countP_append, List.countP_singleton, hid]
  by_cases ht : (task.tells_of_payment && decide (r.id = i)) = true
  · simp only [if_pos ht]
    omega
  · simp only [if_neg ht]
    omega

theorem send_payment_email.affords (reason : BillingReason) (r : Row Subscription) :
    (send_payment_email reason (some r)).Affords (World.unbacked i) (fun _ _ => True)
      (if r.id = i then 1 else 0) := by
  cases reason with
  | subscription_create =>
    change (TaskName.delay _ _).Affords _ _ _
    simpa [TaskName.tells_of_payment] using
      TaskName.delay.affords (i := i) .send_subscription_email_task r
  | subscription_cycle =>
    change (TaskName.delay _ _).Affords _ _ _
    simpa [TaskName.tells_of_payment] using
      TaskName.delay.affords (i := i) .send_update_subscription_email_task r
  | other => trivial

/-- Whatever comes between its acts, a request pays for its mails. -/
theorem prog.affords (user_repo : UserRepo) (q : Request) :
    (Session.prog user_repo q).Affords (World.unbacked i) (fun _ _ => True) 0 := by
  cases q with
  | subscribe user code =>
    exact idle_affords_all (Acts.bind (subscribe_user_to_plan.idle _ _ _) fun _ => trivial)
  | upgrade user code =>
    exact idle_affords_all (Acts.bind (upgrade_subscription.idle _ _ _) fun _ => trivial)
  | cancel u =>
    exact idle_affords_all
      (Acts.bind (cancel_subscription_at_end_of_period.idle u) fun _ => trivial)
  | webhook e =>
    cases e with
    | checkout_session_completed session =>
      exact idle_affords_all (Acts.bind (user_subscribe.idle session) fun _ => trivial)
    | invoice_payment_succeeded invoice =>
      refine Affords.bind ((idle_affords (handle_invoice_payment_succeeded.idle invoice) 0).mono ?_)
      rintro sub m rfl
      cases sub with
      | none => trivial
      | some r =>
        refine Affords.bind ((record_invoice_payment.affords invoice r).mono ?_)
        rintro _ m rfl
        exact send_payment_email.affords _ r
    | invoice_payment_failed invoice =>
      refine Affords.bind ((idle_affords (handle_invoice_payment_failed.idle invoice) 0).mono ?_)
      rintro sub m rfl
      cases sub with
      | none => trivial
      | some r => simpa [TaskName.tells_of_payment] using
          TaskName.delay.affords (i := i) .send_payment_failed_email_task r
    | customer_subscription_deleted d =>
      refine Affords.bind ((idle_affords (handle_subscription_deleted.idle d) 0).mono ?_)
      rintro sub m rfl
      refine Affords.suppress ?_
      simpa [TaskName.tells_of_payment] using
        TaskName.delay.affords (i := i) .send_cancel_subscription_email_task sub
    | other => trivial

end

/-- A step outside sends no mail and takes no payment away. -/
theorem outside.idle {user_repo : UserRepo} {w : World} {l : Label}
    (he : (outside user_repo).enabled w l) : Idle w ((outside user_repo).next w l) := by
  obtain ⟨he, hout⟩ := he
  cases l with
  | serve r n => cases hout
  | pay session items =>
    change Idle w (((w.stripe.sessions.byId session).map (w.pay · items)).getD w)
    cases w.stripe.sessions.byId session <;> exact ⟨rfl, rfl⟩
  | _ => exact ⟨rfl, rfl⟩

/-- In any traffic: no more mails about payments of a subscription were enqueued than
payment rows of it are stored. A delivery that comes twice, that overlaps with
another or that dies after its commit tells nobody of a payment twice. -/
theorem payment_mails_are_backed {user_repo : UserRepo} {w₀ : World} {c : Pool World Err Unit}
    {ls : List (Moment Request Label)}
    (hrun : (traffic user_repo).Run (fun _ _ => True) ([], w₀) ls c) (i : UUID) :
    c.2.payment_mails i + w₀.payment_rows i ≤ c.2.payment_rows i + w₀.payment_mails i := by
  have hle : c.2.unbacked i ≤ w₀.unbacked i :=
    server_balance (fun _ q _ _ => prog.affords user_repo q)
      (fun b l he _ => by rw [(outside.idle he).unbacked]) hrun rfl
  unfold World.unbacked at hle
  omega

open Sample in
theorem payment_mails_are_backed_sample :
    let c := (traffic .user).exec ([], world) delivered_again
    c.2.payment_mails 0 = 1 ∧
      c.2.payment_mails 0 + world.payment_rows 0 ≤ c.2.payment_rows 0 + world.payment_mails 0 :=
  ⟨by decide +kernel, payment_mails_are_backed (.of_path (by decide +kernel)) 0⟩

end saas
