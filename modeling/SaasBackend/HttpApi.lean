-- All the routers of `main.py` as one system: accounts, billing, plans, the
-- webhook and the back office, one request after another. What no request of
-- an admin touches: the roles of the accounts and the audit log.
import SaasBackend.FlagProvenance
import SaasBackend.AdminApi
import SaasBackend.PlanSystem

open relational async

namespace saas

/-! ## The last reads of the routers -/

def PlanRepository.list_plans : M (List (Row Plan)) :=
  Proc.read fun w => (w.db.plans.select (fun p => p.is_active)).mergeSort
    (fun p q => decide (p.val.price_cents ≤ q.val.price_cents))

def PlanService.retrive_plans : M (List (Row Plan)) := PlanRepository.list_plans

def PlanService.get_plan_by_id (plan_id : UUID) : M (Row Plan) := do
  match ← PlanRepository.get_by_id (some (.ofUuid plan_id)) with
  | none => httpException 404 "No plan found for this id"
  | some plan => pure plan

def PaymentRepository.get_my_payments (user_id : UUID) : M (List (Row Payment)) :=
  Proc.read fun w => (newest_first w.db.payments).filter fun p => decide (p.val.user_id = user_id)

/-! ## Requests -/

/-- The settings of the application, and the services that it calls. -/
structure App where
  settings : AccountSettings
  pwd : PwdContext
  user_repo : UserRepo
  engine : SqlEngine
  client : AiClient
  system_message : String
  accepts : String → Bool

inductive HttpRequest where
  | account (request : AccountRequest)
  | list_plans
  | get_plan (plan_id : UUID)
  | plan (authorization : Authorization) (request : PlanRequest) (fails : StripeCall → Bool)
  | get_my_payments (authorization : Authorization)
  | get_my_subscription (authorization : Authorization)
  | cancel_subscription (authorization : Authorization)
  | webhook (authorization : Authorization) (request : Delivery)
  | back_office (authorization : Authorization) (request : AdminRequest)

/-- A request with its dependencies; of the answer only success or error is kept. -/
def HttpRequest.prog (app : App) : HttpRequest → M Unit
  | .account request => do
    let _ ← request.prog app.settings app.pwd app.user_repo
  | .list_plans => do
    let _ ← PlanService.retrive_plans
  | .get_plan plan_id => do
    let _ ← PlanService.get_plan_by_id plan_id
  | .plan authorization request fails => do
    let _ ← get_admin_user app.settings.toSettings authorization
    request.prog app.accepts fails
  | .get_my_payments authorization => do
    let user ← get_active_user app.settings.toSettings authorization
    let _ ← PaymentRepository.get_my_payments user.id
  | .get_my_subscription authorization => do
    let user ← get_active_user app.settings.toSettings authorization
    let _ ← SubscriptionService.get_user_subscription user.id
  | .cancel_subscription authorization => do
    let user ← get_active_user app.settings.toSettings authorization
    let _ ← SubscriptionService.cancel_subscription_at_end_of_period user.id
  | .webhook authorization request => do
    let _ ← stripe_webhook_endpoint app.settings.toSettings authorization request
  | .back_office authorization request => do
    let _ ← request.respond app.settings.toSettings app.engine app.client app.system_message
      authorization

/-- A request, time that passes, or whatever happens at Stripe. -/
inductive HttpLabel where
  | serve (request : HttpRequest)
  | tick (d : Nat)
  | stripe (stripe : Stripe)

def http (app : App) : System World HttpLabel where
  enabled _ _ := True
  next w
    | .serve request => ((request.prog app).run w).2
    | .tick d => w.advance d
    | .stripe stripe => { w with stripe := stripe }

instance (app : App) (w : World) (l : HttpLabel) : Decidable ((http app).enabled w l) :=
  isTrue trivial

/-! ## Acts that touch no role and no audit entry -/

/-- Whether an account is an admin; false before the account is there. -/
def World.is_admin (w : World) (u : UUID) : Bool :=
  (w.db.users.byId u).any (fun r => r.val.is_admin)

/-- The audit log is as it was, and so are the roles. -/
structure Silent (w w' : World) : Prop where
  logs : w'.db.admin_audit_logs = w.db.admin_audit_logs
  roles : ∀ u, w'.is_admin u = w.is_admin u

namespace Silent

variable {w w' w'' : World}

theorem refl (w : World) : Silent w w := ⟨rfl, fun _ => rfl⟩

theorem trans (h : Silent w w') (h' : Silent w' w'') : Silent w w'' :=
  ⟨h'.logs.trans h.logs, fun u => (h'.roles u).trans (h.roles u)⟩

/-- Other tables, Stripe and the queue. -/
theorem elsewhere (hu : w'.db.users = w.db.users)
    (hl : w'.db.admin_audit_logs = w.db.admin_audit_logs) : Silent w w' :=
  ⟨hl, fun u => by rw [World.is_admin, hu, World.is_admin]⟩

theorem update_user (w : World) (i : UUID) {p : UserPatch}
    (hp : ∀ a, (p.apply a).is_admin = a.is_admin) : Silent w (w.update_user i p) := by
  refine ⟨rfl, fun u => ?_⟩
  have hb : (w.update_user i p).db.users.byId u =
      (w.db.users.byId u).map (Table.updateRow i p.apply) := Table.byId_update p.keys u
  rw [World.is_admin, hb, World.is_admin, Option.any_map]
  congr 1
  funext r
  by_cases hr : r.id = i
  · simp [Table.updateRow_of_eq hr, hp]
  · simp [Table.updateRow_of_ne hr]

theorem insert_user {a : User} {r : Row User} {db : Db} (h : w.db.insert_user a = .ok (r, db))
    (ha : a.is_admin = false) : Silent w { w with db := db } := by
  obtain ⟨_, hf, rfl, rfl⟩ := Db.insert_user_ok h
  refine ⟨rfl, fun u => ?_⟩
  change ((w.db.users.push a hf).byId u).any _ = (w.db.users.byId u).any _
  by_cases hu : u = w.db.users.next
  · subst hu
    have hnew : w.db.users.byId w.db.users.next = none :=
      Table.byId_eq_none.mpr fun r hr => Nat.ne_of_lt (w.db.users.id_lt r hr)
    rw [Table.byId_push_self, hnew]
    simpa using ha
  · rw [Table.byId_push_of_ne hf hu]

theorem run {α : Type} {p : M α} (h : p.Acts Silent) (w : World) : Silent w (p.run w).2 :=
  h.run_keeps refl (fun _ _ _ => trans) w

end Silent

/-- Requests that appoint no admin and log nothing. -/
def Allowed.roleless : Allowed where
  tokens := True
  codes := True
  adds u := u.is_admin = false
  patches _ p := ∀ a, (p.apply a).is_admin = a.is_admin

theorem TokenStep.logs {w w' : World} (h : TokenStep w w') :
    w'.db.admin_audit_logs = w.db.admin_audit_logs := by
  cases h with
  | insert h =>
    unfold Db.insert_token at h
    split at h
    · cases h
      rfl
    · cases h
  | _ => rfl

theorem Act.silent {w w' : World} (h : Act .roleless w w') : Silent w w' := by
  cases h with
  | stay => exact Silent.refl w
  | uuid => exact Silent.elsewhere rfl rfl
  | token h => exact Silent.elsewhere h.users h.logs
  | add_user h ha => exact Silent.insert_user h ha
  | patch ha => exact Silent.update_user w _ ha
  | add_code h =>
    unfold Db.insert_code at h
    split at h
    · cases h
      exact Silent.elsewhere rfl rfl
    · cases h
  | delete_codes => exact Silent.elsewhere rfl rfl
  | audit h ha => exact ha.elim
  | stripe => exact Silent.elsewhere rfl rfl

theorem silent_of_roleless {α : Type} {p : M α} (h : p.Acts (Act .roleless)) : p.Acts Silent :=
  h.mono fun _ _ => Act.silent

/-! ## The requests of accounts -/

/-- What an admin's request is to do: by whom it is sent, and which flag of which
account gets which value. -/
structure FlagChange where
  authorization : Authorization
  flag : Flag
  user_id : UUID
  value : Bool

def AccountRequest.change : AccountRequest → Option FlagChange
  | .auth (.update_user_status authorization user_id is_active) =>
    some ⟨authorization, .is_active, user_id, is_active⟩
  | .update_user_role authorization user_id is_admin =>
    some ⟨authorization, .is_admin, user_id, is_admin⟩
  | .verify_user authorization user_id => some ⟨authorization, .is_verified, user_id, true⟩
  | _ => none

section

variable {settings : AccountSettings} {pwd : PwdContext} {user_repo : UserRepo}

/-- No request but an admin's appoints one. -/
theorem AccountRequest.allowed_roleless {request : AccountRequest} (h : request.change = none) :
    request.allowed.Within .roleless := by
  refine ⟨fun _ => trivial, fun _ => trivial, fun ha => ?_, fun u ha => ?_, fun i p ha a => ?_⟩
  · cases request with
    | auth request =>
      cases request with
      | login request => cases request <;> exact ha
      | update_user_status => cases h
      | _ => exact ha
    | update_user_role => cases h
    | verify_user => cases h
    | _ => exact ha
  · cases request with
    | auth request =>
      cases request with
      | register => exact ha.2.1
      | login request =>
        cases request with
        | google => exact ha.2.1
        | github => exact ha.2.1
        | _ => exact ha.elim
      | _ => exact ha.elim
    | _ => exact ha.elim
  · cases request with
    | auth request =>
      cases request with
      | deactivate =>
        cases ha
        rfl
      | update_user_status => cases h
      | login request => cases request <;> exact ha.elim
      | _ => exact ha.elim
    | verify =>
      cases ha
      rfl
    | new_password =>
      obtain ⟨hashed, rfl⟩ := ha
      rfl
    | change_password =>
      obtain ⟨hashed, rfl⟩ := ha
      rfl
    | subscribe =>
      obtain ⟨id, rfl⟩ := ha
      rfl
    | upgrade =>
      obtain ⟨id, rfl⟩ := ha
      rfl
    | update_user_role => cases h
    | verify_user => cases h
    | _ => exact ha.elim

/-- The requests of accounts that are no admin's. -/
theorem AccountRequest.roleless {request : AccountRequest} (h : request.change = none) :
    (request.prog settings pwd user_repo).Acts (Act .roleless) :=
  (request.acts settings pwd user_repo).mono fun _ _ ha =>
    ha.within (AccountRequest.allowed_roleless h)

end

/-! ## Billing -/

theorem silent_query {α : Type} (f : World → Except Err α) : (Proc.query f).Acts Silent :=
  Proc.Acts.query Silent.refl

theorem silent_read {α : Type} (f : World → α) : (Proc.read f : M α).Acts Silent :=
  Proc.Acts.read Silent.refl

theorem silent_pure {α : Type} (a : α) : (pure a : M α).Acts Silent := trivial

/-- An act on other tables, on Stripe or on the queue. -/
theorem silent_attempt {α : Type} {f : World → Except Err (α × World)}
    (h : ∀ w a w', f w = .ok (a, w') → w'.db.users = w.db.users ∧
      w'.db.admin_audit_logs = w.db.admin_audit_logs) : (Proc.attempt f).Acts Silent :=
  Proc.Acts.attempt Silent.refl fun w a w' hf =>
    Silent.elsewhere (h w a w' hf).1 (h w a w' hf).2

namespace SubscriptionRepoistory

theorem get_subscription_with_access.silent (u : UUID) :
    (get_subscription_with_access u).Acts Silent :=
  (silent_read _).bind fun _ => silent_query _

theorem commit_patch.silent (r : Row Subscription) (p : SubscriptionPatch) :
    (commit_patch r p).Acts Silent :=
  (Proc.Acts.write Silent.refl fun w =>
    (Silent.elsewhere rfl rfl : Silent w (w.update_subscription r.id p))).bind
    fun _ => silent_query _

theorem update_subscription_period.silent (p : PaymentProvider) (id : Option StripeId)
    (start stop : Time) : (update_subscription_period p id start stop).Acts Silent := by
  refine (silent_query _).bind fun found => ?_
  cases found with
  | none => exact silent_pure _
  | some r => exact (commit_patch.silent r _).bind fun _ => silent_pure _

theorem cancel_subscription.silent (p : PaymentProvider) (id : Option StripeId) (at_ : Time)
    (stop : Option Time) : (cancel_subscription p id at_ stop).Acts Silent := by
  refine (silent_query _).bind fun found => ?_
  cases found with
  | none => exact silent_pure _
  | some r => exact (commit_patch.silent r _).bind fun _ => silent_pure _

theorem update_sub_status.silent (p : PaymentProvider) (id : Option StripeId)
    (st : SubscriptionStatus) : (update_sub_status p id st).Acts Silent := by
  refine (silent_query _).bind fun found => ?_
  cases found with
  | none => exact silent_pure _
  | some r =>
    by_cases hc : r.val.status = .CANCELED
    · simp only [hc, if_true]
      exact silent_pure _
    · simp only [hc, if_false]
      exact (commit_patch.silent r _).bind fun _ => silent_pure _

theorem create_subscription.silent (u p : UUID) (provider : PaymentProvider)
    (id customer : Option StripeId) (st : SubscriptionStatus) :
    (create_subscription u p provider id customer st).Acts Silent := by
  refine (get_subscription_with_access.silent u).bind fun old => (silent_read _).bind fun t => ?_
  refine Proc.Acts.bind (silent_attempt fun w r w' h => ?_) fun _ => silent_query _
  obtain ⟨⟨r', db⟩, hi, hw⟩ := map_eq_ok h
  cases hw
  unfold Db.insert_subscription at hi
  split at hi
  · cases hi
    cases old <;> exact ⟨rfl, rfl⟩
  · cases hi

end SubscriptionRepoistory

namespace StripeGateway

open SubscriptionRepoistory

theorem Subscription_modify.silent (id : StripeId) : (Subscription_modify id).Acts Silent := by
  refine silent_attempt fun w r w' h => ?_
  split at h
  · split at h
    · cases h
    · cases h
      exact ⟨rfl, rfl⟩
  · cases h

theorem Subscription_delete.silent (id : StripeId) : (Subscription_delete id).Acts Silent := by
  refine silent_attempt fun w r w' h => ?_
  split at h
  · split at h
    · cases h
    · cases h
      exact ⟨rfl, rfl⟩
  · cases h

theorem cancel_upgraded.silent (old : Option StripeId) : (cancel_upgraded old).Acts Silent := by
  cases old with
  | none => exact silent_pure _
  | some old =>
    refine (Subscription_delete.silent old).bind fun _ => (silent_read _).bind fun t => ?_
    exact (cancel_subscription.silent _ _ _ _).bind fun _ => silent_pure _

theorem user_subscribe.silent (session : SessionObject) : (user_subscribe session).Acts Silent := by
  refine (silent_query _).bind fun S => (silent_query _).bind fun plan => ?_
  cases plan with
  | none => trivial
  | some plan =>
    refine (cancel_upgraded.silent _).bind fun _ => (silent_query _).bind fun found => ?_
    cases found with
    | some sub => exact silent_pure _
    | none =>
      refine (Proc.Acts.ofExcept _).bind fun u => (Proc.Acts.ofExcept _).bind fun p => ?_
      exact create_subscription.silent u p _ _ _ _

theorem record_invoice_payment.silent (invoice : Invoice) (sub : Option (Row Subscription)) :
    (record_invoice_payment invoice sub).Acts Silent := by
  cases sub with
  | none => trivial
  | some sub =>
    refine Proc.Acts.bind (silent_attempt fun w r w' h => ?_) fun _ => silent_pure _
    obtain ⟨⟨r', db⟩, hi, hw⟩ := map_eq_ok h
    cases hw
    obtain ⟨_, _, _, rfl⟩ := Db.insert_payment_eq_ok hi
    exact ⟨rfl, rfl⟩

theorem cancel_subscription_at_period_end.silent (sub : Row Subscription) :
    (cancel_subscription_at_period_end sub).Acts Silent := by
  unfold cancel_subscription_at_period_end
  dsimp only
  split
  · refine (Subscription_modify.silent _).bind fun S => (silent_pure _).bind fun S => ?_
    exact (silent_read _).bind fun t => silent_pure _
  · exact (silent_pure _).bind fun S => (silent_read _).bind fun t => silent_pure _

theorem renew_or_create.silent (id : StripeId) (S : StripeSubscription) :
    (renew_or_create id S).Acts Silent := by
  unfold renew_or_create
  cases S.items with
  | nil => trivial
  | cons item items =>
    refine (update_subscription_period.silent _ _ _ _).bind fun found => ?_
    cases found with
    | some sub => exact silent_pure _
    | none =>
      refine (Proc.Acts.ofExcept _).bind fun u => (Proc.Acts.ofExcept _).bind fun p => ?_
      exact (create_subscription.silent u p _ _ _ _).bind fun _ => silent_pure _

theorem handle_invoice_payment_succeeded.silent (invoice : Invoice) :
    (handle_invoice_payment_succeeded invoice).Acts Silent := by
  refine (Proc.Acts.ofExcept _).bind fun lines => ?_
  cases lines with
  | nil => exact silent_pure _
  | cons line lines =>
    refine (Proc.Acts.ofExcept _).bind fun id => ?_
    cases id with
    | none => exact silent_pure _
    | some id => exact (silent_query _).bind fun S => renew_or_create.silent id S.val

theorem handle_invoice_payment_failed.silent (invoice : Invoice) :
    (handle_invoice_payment_failed invoice).Acts Silent := by
  refine (Proc.Acts.ofExcept _).bind fun lines => ?_
  cases lines with
  | nil => trivial
  | cons line lines => exact (Proc.Acts.ofExcept _).bind fun id => update_sub_status.silent _ _ _

theorem handle_subscription_deleted.silent (d : DeletedSubscription) :
    (handle_subscription_deleted d).Acts Silent := by
  unfold handle_subscription_deleted
  cases d.id with
  | none => trivial
  | some id =>
    refine (silent_read _).bind fun t => (cancel_subscription.silent _ _ _ _).bind fun found => ?_
    cases found <;> trivial

end StripeGateway

namespace SubscriptionService

open SubscriptionRepoistory StripeGateway

theorem TaskName.delay.silent (task : TaskName) (sub : Option (Row Subscription)) :
    (task.delay sub).Acts Silent := by
  refine silent_attempt fun w r w' h => ?_
  obtain ⟨d, _, hw⟩ := map_eq_ok h
  cases hw
  exact ⟨rfl, rfl⟩

theorem handle_event.silent (event : Event) : (handle_event event).Acts Silent := by
  cases event with
  | checkout_session_completed session =>
    exact (user_subscribe.silent session).bind fun _ => silent_pure _
  | invoice_payment_succeeded invoice =>
    refine (handle_invoice_payment_succeeded.silent invoice).bind fun sub => ?_
    refine (record_invoice_payment.silent invoice sub).bind fun _ => ?_
    unfold send_payment_email
    split
    · exact TaskName.delay.silent _ sub
    · exact TaskName.delay.silent _ sub
    · exact silent_pure _
  | customer_subscription_deleted d =>
    refine (handle_subscription_deleted.silent d).bind fun sub => ?_
    exact (TaskName.delay.silent _ _).suppress
  | invoice_payment_failed invoice =>
    refine (handle_invoice_payment_failed.silent invoice).bind fun sub => ?_
    cases sub with
    | none => exact silent_pure _
    | some sub => exact TaskName.delay.silent _ _
  | other => exact silent_pure _

theorem cancel_subscription_at_end_of_period.silent (u : UUID) :
    (cancel_subscription_at_end_of_period u).Acts Silent := by
  refine (get_subscription_with_access.silent u).bind fun found => ?_
  cases found with
  | none => trivial
  | some sub =>
    dsimp only
    split
    · trivial
    · split
      · trivial
      · refine (cancel_subscription_at_period_end.silent sub).bind fun times => ?_
        refine (cancel_subscription.silent _ _ _ _).bind fun updated => ?_
        cases updated <;> trivial

end SubscriptionService

/-! ## Plans -/

section

variable {accepts : String → Bool} {fails : StripeCall → Bool}

theorem Price_create.silent (args : PriceArgs) :
    (Price_create accepts fails args).Acts Silent := by
  refine silent_attempt fun w r w' h => ?_
  split at h <;> cases h
  exact ⟨rfl, rfl⟩

theorem Product_create.silent (name : String) : (Product_create fails name).Acts Silent := by
  refine silent_attempt fun w r w' h => ?_
  split at h <;> cases h
  exact ⟨rfl, rfl⟩

theorem PlanRepository.create.silent (plan : Plan) : (PlanRepository.create plan).Acts Silent := by
  refine silent_attempt fun w r w' h => ?_
  obtain ⟨⟨r', db⟩, hi, hw⟩ := map_eq_ok h
  cases hw
  unfold Db.insert_plan at hi
  split at hi
  · cases hi
  · split at hi
    · cases hi
      exact ⟨rfl, rfl⟩
    · cases hi

theorem PlanRepository.update.silent (plan : Row Plan) (p : PlanPatch) :
    (PlanRepository.update plan p).Acts Silent := by
  refine Proc.Acts.bind (silent_attempt fun w r w' h => ?_) fun _ => silent_query _
  split at h <;> cases h
  exact ⟨rfl, rfl⟩

namespace StripeGateway

theorem add_stripe_ids.silent (plan : Row Plan) :
    (add_stripe_ids accepts fails plan).Acts Silent := by
  unfold add_stripe_ids
  dsimp only
  split
  · refine (silent_pure _).bind fun product => ?_
    split
    · exact (silent_pure _).bind fun price => silent_pure _
    · exact (Price_create.silent _).bind fun price => silent_pure _
  · refine (Product_create.silent _).bind fun product => ?_
    split
    · exact (silent_pure _).bind fun price => silent_pure _
    · exact (Price_create.silent _).bind fun price => silent_pure _

theorem save_plan_to_stripe.silent (plan : Row Plan) :
    (save_plan_to_stripe accepts fails plan).Acts Silent := by
  refine Proc.Acts.rescue ((add_stripe_ids.silent plan).bind fun _ => silent_pure _) fun e => ?_
  cases e <;> trivial

theorem update_plan_in_stripe.silent (plan : Row Plan) (data : PlanUpdate) :
    (update_plan_in_stripe accepts fails plan data).Acts Silent := by
  have hprice : (if data.has_price_key then (do
      let new_price ← Price_create accepts fails (price_args plan.val data)
      pure (some new_price)) else (pure none : M (Option StripeId))).Acts Silent := by
    split
    · exact (Price_create.silent _).bind fun _ => silent_pure _
    · exact silent_pure _
  unfold update_plan_in_stripe
  rcases data.name.present with _ | _
  · exact hprice
  · trivial

end StripeGateway

open PlanService StripeGateway in
theorem PlanRequest.silent (request : PlanRequest) :
    (request.prog accepts fails).Acts Silent := by
  cases request with
  | create data =>
    refine Proc.Acts.bind ?_ fun _ => silent_pure _
    refine (silent_query _).bind fun found => ?_
    cases found with
    | some plan => trivial
    | none =>
      refine (PlanRepository.create.silent _).bind fun r => ?_
      refine (save_plan_to_stripe.silent r).bind fun saved => ?_
      cases saved with
      | none => exact silent_pure _
      | some plan => exact PlanRepository.update.silent _ _
  | update i data =>
    refine Proc.Acts.bind ?_ fun _ => silent_pure _
    refine (silent_query _).bind fun found => ?_
    cases found with
    | none => trivial
    | some plan =>
      exact (update_plan_in_stripe.silent plan data).bind fun _ => PlanRepository.update.silent _ _
  | delete i =>
    refine (silent_query _).bind fun found => ?_
    cases found with
    | none => trivial
    | some plan =>
      dsimp only
      split
      · trivial
      · trivial

end

/-! ## The back office -/

theorem paginate.silent {α : Type} (query : Db → List (Row α)) (limit offset : Nat) :
    (paginate query limit offset).Acts Silent :=
  (silent_read _).bind fun _ => (silent_query _).bind fun _ => silent_pure _

namespace ai_repo

theorem run_ai_sql.silent (engine : SqlEngine) (raw mode : String) :
    (run_ai_sql engine raw mode).Acts Silent := by
  refine (Proc.Acts.ofExcept _).bind fun sql => (silent_query _).bind fun result => ?_
  dsimp only
  split
  · exact silent_pure _
  · split
    · exact silent_pure _
    · split
      · refine Proc.Acts.bind ?_ fun _ => silent_pure _
        refine Proc.Acts.bind (silent_attempt fun w r w' h => ?_) fun id => ?_
        · cases h
          exact ⟨rfl, rfl⟩
        · exact (silent_query _).bind fun _ => silent_pure _
      · exact silent_pure _

end ai_repo

namespace AiSerivce

variable (engine : SqlEngine)

theorem dispatch_call.silent (tool_call : ToolCall) :
    (dispatch_call engine tool_call).Acts Silent := by
  unfold dispatch_call
  cases tool_call.arguments with
  | none => trivial
  | some arguments =>
    dsimp only
    split
    · exact (silent_read _).bind fun _ => silent_pure _
    · split
      · refine Proc.Acts.bind ?_ fun _ => (Proc.Acts.ofExcept _).bind fun _ => silent_pure _
        unfold execute_ai_sql
        cases arguments.sql with
        | none => trivial
        | some sql => exact ai_repo.run_ai_sql.silent engine sql _
      · trivial

theorem dispatch_tool.silent (calls : List ToolCall) :
    (dispatch_tool engine calls).Acts Silent := by
  induction calls with
  | nil => exact silent_pure _
  | cons call calls ih =>
    exact (dispatch_call.silent engine call).bind fun _ => ih.bind fun _ => silent_pure _

theorem converse.silent (reply : Reply) (messages : List ChatMessage) :
    (converse engine reply messages).Acts Silent := by
  induction reply generalizing messages with
  | stop content => exact silent_pure _
  | tool_calls calls next ih => exact (dispatch_tool.silent engine calls).bind fun _ => ih _ _

end AiSerivce

/-! ## Which requests set a flag -/

def AdminRequest.change (authorization : Authorization) : AdminRequest → Option FlagChange
  | .update_user_status (.given user_id) (.given is_active) =>
    some ⟨authorization, .is_active, user_id, is_active⟩
  | .update_user_role (.given user_id) (.given is_admin) =>
    some ⟨authorization, .is_admin, user_id, is_admin⟩
  | .verify_user (.given user_id) => some ⟨authorization, .is_verified, user_id, true⟩
  | _ => none

/-- An admin's status, role or verify request with valid parameters. -/
def HttpRequest.change : HttpRequest → Option FlagChange
  | .account request => request.change
  | .back_office authorization request => request.change authorization
  | _ => none

section

variable {app : App}

/-- What runs only after its parameters have passed. -/
theorem AdminRequest.validated_silent (request : AdminRequest) {endpoint : M AdminResponse}
    (h : endpoint.Acts Silent) : (request.validated endpoint).Acts Silent := by
  unfold AdminRequest.validated
  split
  · exact h
  · exact silent_pure _

/-- A parameter that is required and not there: the endpoint does not run. -/
theorem AdminRequest.invalid_silent {request : AdminRequest} {endpoint : M AdminResponse}
    (h : request.errors ≠ []) : (request.validated endpoint).Acts Silent := by
  unfold AdminRequest.validated
  rw [if_neg h]
  exact silent_pure _

theorem AdminRequest.silent {settings : Settings} {engine : SqlEngine} {client : AiClient}
    {system_message : String} {authorization : Authorization} {request : AdminRequest}
    (h : request.change authorization = none) :
    (request.respond settings engine client system_message authorization).Acts Silent := by
  have hadmin : (get_admin_user settings authorization).Acts Silent :=
    silent_of_roleless (get_admin_user.acts authorization)
  cases request with
  | get_dashboard_stats =>
    refine validated_silent _ (Proc.Acts.bind ?_ fun _ => silent_pure _)
    refine (paginate.silent _ _ _).bind fun _ => (paginate.silent _ _ _).bind fun _ => ?_
    exact (paginate.silent _ _ _).bind fun _ => silent_pure _
  | get_users page is_active is_verified is_admin =>
    refine validated_silent _ (Proc.Acts.bind ?_ fun _ => silent_pure _)
    unfold UsersService.get_users AdminUserRepository.list_users
    exact paginate.silent _ _ _
  | get_user_details user_id =>
    refine validated_silent _ (Proc.Acts.bind ?_ fun _ => silent_pure _)
    exact silent_of_roleless (AdminUserRepository.get_user_by_id.acts _)
  | get_user_transactions user_id page =>
    refine validated_silent _ (Proc.Acts.bind ?_ fun _ => silent_pure _)
    unfold UsersService.get_user_transactions AdminUserRepository.get_user_transactions
    exact paginate.silent _ _ _
  | get_user_subscriptions user_id page =>
    refine validated_silent _ (Proc.Acts.bind ?_ fun _ => silent_pure _)
    unfold UsersService.get_user_subscriptions AdminUserRepository.get_user_subscriptions
    exact paginate.silent _ _ _
  | update_user_status user_id is_active =>
    refine hadmin.bind fun admin => invalid_silent ?_
    cases user_id <;> cases is_active <;>
      first | exact absurd h (Option.some_ne_none _) | simp [errors, fields, Param.required]
  | update_user_role user_id is_admin =>
    refine hadmin.bind fun admin => invalid_silent ?_
    cases user_id <;> cases is_admin <;>
      first | exact absurd h (Option.some_ne_none _) | simp [errors, fields, Param.required]
  | verify_user user_id =>
    refine hadmin.bind fun admin => invalid_silent ?_
    cases user_id <;>
      first | exact absurd h (Option.some_ne_none _) | simp [errors, fields, Param.required]
  | get_transactions page =>
    refine validated_silent _ (Proc.Acts.bind ?_ fun _ => silent_pure _)
    unfold PaymentsServices.get_payments AdminPaymentRepository.list_payments
    exact paginate.silent _ _ _
  | get_transaction_by_id payment_id =>
    refine validated_silent _ (Proc.Acts.bind ?_ fun _ => silent_pure _)
    refine (silent_read _).bind fun found => ?_
    cases found with
    | none => exact silent_pure _
    | some payment => exact (silent_read _).bind fun _ => silent_pure _
  | get_subscriptions page =>
    refine validated_silent _ (Proc.Acts.bind ?_ fun _ => silent_pure _)
    unfold SubscriptionsServices.get_subscriptions
      AdminSubscriptionRepository.list_subscriptions
    exact paginate.silent _ _ _
  | get_subscription_by_id sub_id =>
    refine validated_silent _ (Proc.Acts.bind ?_ fun _ => silent_pure _)
    refine (silent_read _).bind fun found => ?_
    cases found with
    | none => exact silent_pure _
    | some payment => exact (silent_read _).bind fun _ => silent_pure _
  | ai_chat prompt =>
    refine Proc.Acts.bind ?_ fun client => ?_
    · unfold get_ai_client
      split <;> trivial
    · refine validated_silent _ (Proc.Acts.bind ?_ fun _ => silent_pure _)
      exact AiSerivce.converse.silent engine _ _

/-- Every other request leaves the roles and the audit log. -/
theorem HttpRequest.silent {request : HttpRequest} (h : request.change = none) :
    (request.prog app).Acts Silent := by
  have hactive : ∀ authorization,
      (get_active_user app.settings.toSettings authorization).Acts Silent :=
    fun authorization => silent_of_roleless (get_active_user.acts authorization)
  cases request with
  | account request =>
    exact (silent_of_roleless (AccountRequest.roleless h)).bind fun _ => silent_pure _
  | list_plans => exact (silent_read _).bind fun _ => silent_pure _
  | get_plan plan_id =>
    refine Proc.Acts.bind ((silent_query _).bind fun found => ?_) fun _ => silent_pure _
    cases found <;> trivial
  | plan authorization request fails =>
    refine (silent_of_roleless (get_admin_user.acts authorization)).bind fun admin => ?_
    exact request.silent
  | get_my_payments authorization =>
    exact (hactive authorization).bind fun user => (silent_read _).bind fun _ => silent_pure _
  | get_my_subscription authorization =>
    refine (hactive authorization).bind fun user => Proc.Acts.bind ?_ fun _ => silent_pure _
    refine (SubscriptionRepoistory.get_subscription_with_access.silent _).bind fun found => ?_
    cases found <;> trivial
  | cancel_subscription authorization =>
    refine (hactive authorization).bind fun user => Proc.Acts.bind ?_ fun _ => silent_pure _
    exact SubscriptionService.cancel_subscription_at_end_of_period.silent user.id
  | webhook authorization request =>
    refine Proc.Acts.bind ?_ fun _ => silent_pure _
    refine Proc.Acts.bind ?_ fun repo => Proc.Acts.bind ?_ fun _ => silent_pure _
    · exact (silent_of_roleless (get_user.acts authorization)).bind fun _ => silent_pure _
    · unfold SubscriptionService.stripe_webhook
      split
      · exact silent_pure _
      · exact (SubscriptionService.handle_event.silent _).bind fun _ => silent_pure _
  | back_office authorization request =>
    exact (AdminRequest.silent h).bind fun _ => silent_pure _

end

end saas
