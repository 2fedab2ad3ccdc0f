-- The webhook endpoint, with the dependencies that are resolved before it. One
-- of them asks for the bearer of the request, so the header decides.
import SaasBackend.AuthService
import SaasBackend.BillingSystem

open relational async

namespace saas

open Proc SubscriptionRepoistory StripeGateway SubscriptionService

/-! ## The endpoint -/

/-- The `SubscriptionService` of a request. Its `user_repo` is the user. -/
def get_subscription_service (settings : Settings) (authorization : Authorization) :
    M UserRepo := do
  let _ ← get_user settings authorization
  pure .user

/-- `POST /billing/stripe/webhook`; what the service returns is not looked at. -/
def stripe_webhook_endpoint (settings : Settings) (authorization : Authorization)
    (request : Delivery) : M Bool := do
  let _ ← get_subscription_service settings authorization
  let _ ← stripe_webhook settings.stripe_webhook_secret request
  pure true

/-! ## What `get_user` makes of a header -/

namespace Authorization

/-- The user id that a header carries at time `now`. -/
def user_id (settings : Settings) (now : Time) (a : Authorization) : Except Err UUID :=
  match oauth2_schema a with
  | .error e => .error e
  | .ok token => match token.verify now settings.access_secret_key with
    | .error e => .error e
    | .ok payload => UUID.parse payload.claims.sub

/-- The error that a header is refused with, if it is. -/
def refusal (settings : Settings) (now : Time) (a : Authorization) : Option Err :=
  match a.user_id settings now with
  | .ok _ => none
  | .error e => some e

/-- A token that the service has signed names a user by its id. -/
def Issued (settings : Settings) : Authorization → Prop
  | .bearer (.signed key payload) =>
    key = settings.access_secret_key → payload.claims.sub ≠ some .malformed
  | _ => True

instance (settings : Settings) : ∀ a : Authorization, Decidable (a.Issued settings)
  | .absent => isTrue trivial
  | .other_scheme => isTrue trivial
  | .bearer .empty => isTrue trivial
  | .bearer .garbage => isTrue trivial
  | .bearer (.signed key payload) => inferInstanceAs (Decidable (key = _ → payload.claims.sub ≠ _))

end Authorization

/-- A refusal of the bearer: 401 or 403. -/
def Unauthorized (e : Err) : Prop := ∃ d, e = .http 401 d ∨ e = .http 403 d

section

variable {settings : Settings} {a : Authorization} {w : World}

theorem get_user.spec (settings : Settings) (a : Authorization) (w : World) :
    (get_user settings a).run w = match a.user_id settings w.clock with
      | .ok i => (.ok (w.db.users.byId i), w)
      | .error e => (.error e, w) := by
  unfold get_user Authorization.user_id
  rw [run_bind, run_ofExcept]
  rcases oauth2_schema a with e | token
  · rfl
  · simp only
    rw [run_bind, verify_token, run_query]
    rcases token.verify w.clock settings.access_secret_key with e | payload
    · rfl
    · simp only
      rw [run_bind, run_ofExcept]
      rcases UUID.parse payload.claims.sub with e | i <;> rfl

/-- The three ways in which a header is refused, all of them 401 or 403. -/
theorem Authorization.refusal_unauthorized {e : Err} (ha : a.Issued settings)
    (h : a.refusal settings w.clock = some e) : Unauthorized e := by
  unfold refusal user_id at h
  rcases hb : oauth2_schema a with e' | token
  · rw [hb] at h
    cases h
    unfold oauth2_schema at hb
    split at hb <;> cases hb <;> exact ⟨_, Or.inr rfl⟩
  · rw [hb] at h
    rcases hv : token.verify w.clock settings.access_secret_key with e' | payload
    · simp only [hv] at h
      cases h
      obtain ⟨d, hd⟩ := Token.verify_error hv
      exact ⟨d, Or.inl hd⟩
    · obtain ⟨rfl, _, hsub⟩ := Token.verify_ok hv
      have ha' : a = .bearer (.signed settings.access_secret_key payload) := by
        unfold oauth2_schema at hb
        split at hb <;> cases hb
        rfl
      subst ha'
      rcases hs : payload.claims.sub with _ | _ | _
      · exact absurd hs hsub
      · simp [hv, hs, UUID.parse] at h
      · exact absurd hs (ha rfl)

end

/-! ## What the handlers fail with -/

/-- The errors of the handlers: 400, or an exception that nothing catches. -/
def Failure : Err → Prop
  | .http c _ => c = 400
  | _ => True

theorem Unauthorized.not_failure {e : Err} (h : Unauthorized e) : ¬ Failure e := by
  obtain ⟨d, rfl | rfl⟩ := h <;> simp [Failure]

theorem scalar_one_or_none.fails {α : Type} {l : List α} {e : Err}
    (h : scalar_one_or_none l = .error e) : Failure e := by
  unfold scalar_one_or_none at h
  split at h <;> cases h
  trivial

theorem UUID.parse_fails {t : Option UuidText} {e : Err} (h : UUID.parse t = .error e) :
    Failure e := by
  unfold UUID.parse at h
  split at h <;> cases h <;> trivial

theorem get_by_provider_subscription_id.fails (p : PaymentProvider) (id : Option StripeId) :
    (get_by_provider_subscription_id p id).Raises Failure :=
  Raises.query fun _ _ => scalar_one_or_none.fails

theorem reload.fails (i : UUID) : (reload i).Raises Failure := by
  apply Raises.query
  intro w e he
  split at he <;> cases he
  trivial

theorem commit_patch.fails (r : Row Subscription) (p : SubscriptionPatch) :
    (commit_patch r p).Raises Failure := (Raises.write _).bind fun _ => reload.fails _

/-- A method that looks for the row of a subscription and patches it. -/
theorem patch_row.fails {p : PaymentProvider} {id : Option StripeId}
    {f : Option (Row Subscription) → M (Option (Row Subscription))}
    (hf : ∀ o, (f o).Raises Failure) :
    (get_by_provider_subscription_id p id >>= f).Raises Failure :=
  (get_by_provider_subscription_id.fails p id).bind hf

theorem cancel_subscription.fails (p : PaymentProvider) (id : Option StripeId) (at_ : Time)
    (stop : Option Time) : (cancel_subscription p id at_ stop).Raises Failure := by
  refine patch_row.fails fun o => ?_
  cases o with
  | none => trivial
  | some r => exact (commit_patch.fails r _).bind fun _ => trivial

theorem update_subscription_period.fails (p : PaymentProvider) (id : Option StripeId)
    (start stop : Time) : (update_subscription_period p id start stop).Raises Failure := by
  refine patch_row.fails fun o => ?_
  cases o with
  | none => trivial
  | some r => exact (commit_patch.fails r _).bind fun _ => trivial

theorem update_sub_status.fails (p : PaymentProvider) (id : Option StripeId)
    (st : SubscriptionStatus) : (update_sub_status p id st).Raises Failure := by
  refine patch_row.fails fun o => ?_
  cases o with
  | none => trivial
  | some r =>
    dsimp only
    split
    · trivial
    · exact (commit_patch.fails r _).bind fun _ => trivial

theorem create_subscription.fails (u p : UUID) (pr : PaymentProvider) (id c : Option StripeId)
    (st : SubscriptionStatus) : (create_subscription u p pr id c st).Raises Failure := by
  refine Raises.bind (Raises.bind (Raises.read _) fun _ =>
    Raises.query fun _ _ => scalar_one_or_none.fails) fun old => ?_
  refine Raises.bind (Raises.read _) fun t => Raises.bind (Raises.attempt ?_)
    fun r => reload.fails _
  intro w e he
  unfold Db.insert_subscription at he
  split at he <;> cases he
  trivial

theorem Subscription_retrieve.fails (id : Option StripeId) :
    (Subscription_retrieve id).Raises Failure := by
  apply Raises.query
  intro w e he
  split at he <;> cases he
  trivial

theorem cancel_upgraded.fails (old : Option StripeId) : (cancel_upgraded old).Raises Failure := by
  cases old with
  | none => trivial
  | some old =>
    refine Raises.bind (Raises.attempt ?_) fun _ => Raises.bind (Raises.read _) fun t =>
      (cancel_subscription.fails _ _ _ _).bind fun _ => trivial
    intro w e he
    split at he
    · split at he <;> cases he
      trivial
    · cases he
      trivial

theorem user_subscribe.fails (session : SessionObject) :
    (user_subscribe session).Raises Failure := by
  refine (Subscription_retrieve.fails _).bind fun S => ?_
  refine Raises.bind (Raises.query ?_) fun plan => ?_
  · intro w e he
    split at he <;> cases he
    trivial
  · cases plan with
    | none => rfl
    | some plan =>
      refine (cancel_upgraded.fails _).bind fun _ => ?_
      refine (get_by_provider_subscription_id.fails _ _).bind fun o => ?_
      cases o with
      | some r => trivial
      | none =>
        exact (Raises.ofExcept fun _ => UUID.parse_fails).bind fun u =>
          (Raises.ofExcept fun _ => UUID.parse_fails).bind fun p =>
            create_subscription.fails _ _ _ _ _ _

theorem renew_or_create.fails (id : StripeId) (S : StripeSubscription) :
    (renew_or_create id S).Raises Failure := by
  unfold renew_or_create
  split
  · trivial
  · refine (update_subscription_period.fails _ _ _ _).bind fun o => ?_
    cases o with
    | some r => trivial
    | none =>
      exact (Raises.ofExcept fun _ => UUID.parse_fails).bind fun u =>
        (Raises.ofExcept fun _ => UUID.parse_fails).bind fun p =>
          (create_subscription.fails _ _ _ _ _ _).bind fun _ => trivial

theorem Invoice.line_items.fails (invoice : Invoice) :
    (ofExcept invoice.line_items : M _).Raises Failure := by
  refine Raises.ofExcept fun e he => ?_
  unfold Invoice.line_items at he
  split at he <;> cases he
  trivial

theorem InvoiceLine.subscription_id.fails (line : InvoiceLine) :
    (ofExcept line.stripe_subscription_id : M _).Raises Failure := by
  refine Raises.ofExcept fun e he => ?_
  unfold InvoiceLine.stripe_subscription_id at he
  split at he <;> cases he
  trivial

theorem handle_invoice_payment_succeeded.fails (invoice : Invoice) :
    (handle_invoice_payment_succeeded invoice).Raises Failure := by
  refine (Invoice.line_items.fails invoice).bind fun lines => ?_
  cases lines with
  | nil => trivial
  | cons line lines =>
    refine (InvoiceLine.subscription_id.fails line).bind fun id => ?_
    cases id with
    | none => trivial
    | some id => exact (Subscription_retrieve.fails _).bind fun S => renew_or_create.fails _ _

theorem handle_invoice_payment_failed.fails (invoice : Invoice) :
    (handle_invoice_payment_failed invoice).Raises Failure := by
  refine (Invoice.line_items.fails invoice).bind fun lines => ?_
  cases lines with
  | nil => rfl
  | cons line lines =>
    exact (InvoiceLine.subscription_id.fails line).bind fun id => update_sub_status.fails _ _ _

theorem TaskName.delay.fails (task : TaskName) (sub : Option (Row Subscription)) :
    (task.delay sub).Raises Failure := by
  apply Raises.attempt
  intro w e he
  rcases hd : serialize_subscription w.db sub with e' | d
  · rw [hd] at he
    cases he
    unfold serialize_subscription at hd
    split at hd
    · cases hd
      trivial
    · split at hd <;> cases hd
      trivial
  · rw [hd] at he
    cases he

theorem record_invoice_payment.fails (invoice : Invoice) (sub : Option (Row Subscription)) :
    (record_invoice_payment invoice sub).Raises Failure := by
  cases sub with
  | none => trivial
  | some sub =>
    refine Raises.bind (Raises.attempt ?_) fun _ => trivial
    intro w e he
    unfold Db.insert_payment at he
    split at he
    · cases he
      trivial
    · split at he <;> cases he
      trivial

theorem handle_subscription_deleted.fails (d : DeletedSubscription) :
    (handle_subscription_deleted d).Raises Failure := by
  unfold handle_subscription_deleted
  split
  · rfl
  · refine Raises.bind (Raises.read _) fun t => (cancel_subscription.fails _ _ _ _).bind fun o => ?_
    cases o with
    | none => rfl
    | some r => trivial

theorem suppress.fails {E : Err → Prop} (p : M Unit) : p.suppress.Raises E := by
  induction p with
  | ret a => trivial
  | raise e => trivial
  | act eff k ih => exact fun s => ih s

theorem handle_event.fails (event : Event) : (handle_event event).Raises Failure := by
  cases event with
  | checkout_session_completed session => exact (user_subscribe.fails session).bind fun _ => trivial
  | invoice_payment_succeeded invoice =>
    refine (handle_invoice_payment_succeeded.fails invoice).bind fun sub =>
      (record_invoice_payment.fails invoice sub).bind fun _ => ?_
    unfold send_payment_email
    split
    · exact TaskName.delay.fails _ _
    · exact TaskName.delay.fails _ _
    · trivial
  | invoice_payment_failed invoice =>
    refine (handle_invoice_payment_failed.fails invoice).bind fun sub => ?_
    cases sub with
    | none => trivial
    | some sub => exact TaskName.delay.fails _ _
  | customer_subscription_deleted d =>
    exact (handle_subscription_deleted.fails d).bind fun sub => suppress.fails _
  | other => trivial

/-! ## The header decides -/

/-- A delivery that its header lets in is handled as any other; one that it does
not let in is refused, and nothing happens. -/
theorem stripe_webhook_endpoint.spec (settings : Settings) (a : Authorization)
    {request : Delivery} (hsig : request.secret = settings.stripe_webhook_secret) (w : World) :
    (stripe_webhook_endpoint settings a request).run w = match a.refusal settings w.clock with
      | some e => (.error e, w)
      | none => match (handle_event request.event).run w with
        | (.ok (), w') => (.ok true, w')
        | (.error e, w') => (.error e, w') := by
  have hget := get_user.spec settings a w
  unfold stripe_webhook_endpoint get_subscription_service Authorization.refusal
  rw [run_bind, run_bind, hget]
  rcases a.user_id settings w.clock with e | i
  · rfl
  · simp only [run_pure]
    unfold stripe_webhook
    rw [if_neg (by simp [hsig]), run_bind, run_bind]
    rcases (handle_event request.event).run w with ⟨e | _, w'⟩ <;> rfl

/-- A header that is let in gives the outcome of one that is refused only where
the handler fails with the same error. -/
theorem stripe_webhook_endpoint.failure {settings : Settings} {w : World} {request : Delivery}
    {a b : Authorization} {e : Err} (hsig : request.secret = settings.stripe_webhook_secret)
    (ha : a.refusal settings w.clock = none) (hb : b.refusal settings w.clock = some e)
    (h : (stripe_webhook_endpoint settings a request).run w =
      (stripe_webhook_endpoint settings b request).run w) :
    ((handle_event request.event).run w).1 = .error e := by
  rw [stripe_webhook_endpoint.spec _ _ hsig, stripe_webhook_endpoint.spec _ _ hsig] at h
  simp only [ha, hb] at h
  rcases hr : (handle_event request.event).run w with ⟨e' | _, w'⟩
  · rw [hr] at h
    cases h
    rfl
  · rw [hr] at h
    cases h

/-- Two headers give one outcome and one effect exactly when both are let in, or
both are refused with one error. -/
theorem webhook_outcome_by_header {settings : Settings} {w : World} {request : Delivery}
    {a b : Authorization} (hsig : request.secret = settings.stripe_webhook_secret)
    (ha : a.Issued settings) (hb : b.Issued settings) :
    (stripe_webhook_endpoint settings a request).run w =
        (stripe_webhook_endpoint settings b request).run w ↔
      a.refusal settings w.clock = b.refusal settings w.clock := by
  constructor
  · intro h
    -- the handler never fails with the error of a header
    have hhandler : ∀ {c : Authorization} {e : Err}, c.Issued settings →
        c.refusal settings w.clock = some e →
        ((handle_event request.event).run w).1 ≠ .error e := fun hc he hr =>
      (Authorization.refusal_unauthorized hc he).not_failure ((handle_event.fails _).run hr)
    rcases hra : a.refusal settings w.clock with _ | e <;>
      rcases hrb : b.refusal settings w.clock with _ | e'
    · rfl
    · exact absurd (stripe_webhook_endpoint.failure hsig hra hrb h) (hhandler hb hrb)
    · exact absurd (stripe_webhook_endpoint.failure hsig hrb hra h.symm) (hhandler ha hra)
    · rw [stripe_webhook_endpoint.spec _ _ hsig, stripe_webhook_endpoint.spec _ _ hsig] at h
      simp only [hra, hrb] at h
      cases h
      rfl
  · intro h
    rw [stripe_webhook_endpoint.spec _ _ hsig, stripe_webhook_endpoint.spec _ _ hsig, h]

namespace Sample

/-- An access token for the user `i`, made when the world begins. -/
def access_token (i : UUID) (jti : Jti) : Token :=
  .signed 1 (new_payload ⟨some (.ofUuid i), none, none⟩ world.clock (world.clock + minutes 30) jti)

/-- Stripe's delivery of the paid invoice of subscription 0. -/
def delivery : Delivery := ⟨.invoice_payment_succeeded (invoice 0 0 .subscription_create), 3⟩

end Sample

open Sample in
/-- The tokens of ann and of a user who is lost. -/
theorem webhook_outcome_by_header_sample :
    (stripe_webhook_endpoint settings (.bearer (access_token 0 5)) delivery).run begun =
      (stripe_webhook_endpoint settings (.bearer (access_token 9 6)) delivery).run begun :=
  (webhook_outcome_by_header rfl (by decide) (by decide)).mpr (by decide)

open Sample in
/-- What Stripe sends has no `Authorization` header: it is refused, and the
invoice is not handled. With ann's token it would be. -/
theorem stripe_is_refused :
    delivery.secret = settings.stripe_webhook_secret ∧
    ((stripe_webhook_endpoint settings .absent delivery).run begun).1 =
      .error (.http 403 "Not authenticated") ∧
    ((stripe_webhook_endpoint settings (.bearer (access_token 0 5)) delivery).run begun).1 =
      .ok true ∧
    (stripe_webhook_endpoint settings .absent delivery).run begun ≠
      (stripe_webhook_endpoint settings (.bearer (access_token 0 5)) delivery).run begun := by
  have habsent : ((stripe_webhook_endpoint settings .absent delivery).run begun).1 =
      .error (.http 403 "Not authenticated") := by decide
  have hann : ((stripe_webhook_endpoint settings (.bearer (access_token 0 5)) delivery).run
      begun).1 = .ok true := by decide
  refine ⟨rfl, habsent, hann, fun h => ?_⟩
  rw [h, hann] at habsent
  cases habsent

end saas
