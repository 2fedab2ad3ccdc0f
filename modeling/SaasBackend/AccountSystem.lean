-- All requests that can write an account, as a system: those of `AuthSystem`,
-- the links in emails, passwords, the requests of admins, and the two that may
-- create a Stripe customer. The state keeps every token that was issued.
import SaasBackend.AccountService
import SaasBackend.AuthActs
import SaasBackend.Webhook

open relational async

namespace saas

/-! ## Tokens that are issued -/

/-- What a token is issued for. -/
inductive TokenPurpose where
  | access
  | refresh
  | verification
  | password_reset
deriving DecidableEq, Repr

structure IssuedToken where
  purpose : TokenPurpose
  token : Token
deriving DecidableEq, Repr

def TokenPair.issued (tokens : TokenPair) : List IssuedToken :=
  [⟨.access, tokens.access_token⟩, ⟨.refresh, tokens.refresh_token⟩]

def LinkMessage.issued (purpose : TokenPurpose) (message : LinkMessage) : List IssuedToken :=
  [⟨purpose, message.url.2⟩]

/-! ## Requests -/

inductive AccountRequest where
  | auth (request : AuthRequest)
  | verify (token : Token)
  | request_verify (authorization : Authorization)
  | forget_password (email : String)
  | new_password (token : Token) (password : String)
  | change_password (authorization : Authorization) (old_password new_password : String)
  | update_user_role (authorization : Authorization) (user_id : UUID) (is_admin : Bool)
  | verify_user (authorization : Authorization) (user_id : UUID)
  | subscribe (authorization : Authorization) (plan_code : String)
  | upgrade (authorization : Authorization) (plan_code : String)

section

variable (settings : AccountSettings) (pwd : PwdContext) (user_repo : UserRepo)

open UserService SubscriptionService in
/-- A request with its dependencies and its background task, and the tokens that
it issues. -/
def AccountRequest.prog : AccountRequest → M (List IssuedToken)
  | .auth (.register email username password) => do
    let user ← register_user pwd email username password
    let message ← Emails.send_verification_email settings user.val.email user.id
    pure (message.issued .verification)
  | .auth request => do
    let tokens ← request.prog settings.toSettings pwd
    pure (tokens.elim [] TokenPair.issued)
  | .verify token => do
    let _ ← validate_user settings token
    pure []
  | .request_verify authorization => do
    let current_user ← get_not_active_user settings authorization
    if current_user.val.is_verified then pure []
    else
      let message ← Emails.send_verification_email settings current_user.val.email current_user.id
      pure (message.issued .verification)
  | .forget_password email => do
    match ← UserService.forget_password email with
    | none => pure []
    | some user =>
      let message ← Emails.send_password_reset_email settings user.val.email user.id
      pure (message.issued .password_reset)
  | .new_password token password => do
    let _ ← UserService.new_password settings pwd token password
    pure []
  | .change_password authorization old new => do
    let current_user ← get_active_user settings.toSettings authorization
    let _ ← UserService.change_password pwd old new current_user
    pure []
  | .update_user_role authorization user_id is_admin => do
    let admin ← get_admin_user settings.toSettings authorization
    let _ ← UsersService.update_user_role admin.id user_id is_admin
    pure []
  | .verify_user authorization user_id => do
    let admin ← get_admin_user settings.toSettings authorization
    let _ ← UsersService.verify_user admin.id user_id
    pure []
  | .subscribe authorization plan_code => do
    let user ← get_active_user settings.toSettings authorization
    let _ ← subscribe_user_to_plan user_repo user plan_code
    pure []
  | .upgrade authorization plan_code => do
    let user ← get_active_user settings.toSettings authorization
    let _ ← upgrade_subscription user_repo user plan_code
    pure []

/-! ## The system -/

/-- The state of the service with all the tokens that it has issued. -/
structure Service where
  world : World
  issued : List IssuedToken := []

inductive AccountLabel where
  | serve (request : AccountRequest)
  | tick (d : Nat)

namespace AccountLabel

/-- The state after a request, with the tokens that it issued. -/
def record (s : Service) : Except Err (List IssuedToken) × World → Service
  | (.ok tokens, w) => ⟨w, s.issued ++ tokens⟩
  | (.error _, w) => ⟨w, s.issued⟩

@[simp] theorem record_world (s : Service) (out : Except Err (List IssuedToken) × World) :
    (record s out).world = out.2 := by
  rcases out with ⟨e | tokens, w⟩ <;> rfl

def next (s : Service) : AccountLabel → Service
  | .serve request => record s ((request.prog settings pwd user_repo).run s.world)
  | .tick d => { s with world := s.world.advance d }

end AccountLabel

/-- Requests are served one at a time, and any may come. -/
def service : System Service AccountLabel where
  enabled _ _ := True
  next s l := l.next settings pwd user_repo s

instance (s : Service) (l : AccountLabel) :
    Decidable ((service settings pwd user_repo).enabled s l) :=
  isTrue trivial

end

/-! ## The bearer of a request -/

/-- The header carries an access token of `user`, who is active and verified. -/
structure Bearer (settings : Settings) (w : World) (authorization : Authorization)
    (user : Row User) : Prop where
  token : authorization.user_id settings w.clock = .ok user.id
  account : w.db.users.byId user.id = some user
  is_verified : user.val.is_verified = true
  is_active : user.val.is_active = true

structure AdminBearer (settings : Settings) (w : World) (authorization : Authorization)
    (admin : Row User) : Prop extends Bearer settings w authorization admin where
  is_admin : admin.val.is_admin = true

theorem Bearer.same_user {settings : Settings} {w : World} {authorization : Authorization}
    {user user' : Row User} (h : Bearer settings w authorization user)
    (h' : Bearer settings w authorization user') : user.id = user'.id := by
  have htoken := h.token
  rw [h'.token] at htoken
  exact (Except.ok.inj htoken).symm

/-- What `get_active_user` makes of the account that a token names. -/
def active_check : Option (Row User) → Except Err (Row User)
  | none => .error (.http 401 "Invalid authentication credentials")
  | some user =>
    if user.val.is_verified = false ∨ user.val.is_active = false then
      .error (.http 403 "User account is not active or verified")
    else .ok user

def admin_check (user : Row User) : Except Err (Row User) :=
  if user.val.is_admin = false then .error (.http 403 "User does not have admin privileges")
  else .ok user

theorem get_active_user.spec (settings : Settings) (authorization : Authorization) (w : World) :
    (get_active_user settings authorization).run w =
      ((authorization.user_id settings w.clock).bind fun i => active_check (w.db.users.byId i),
        w) := by
  unfold get_active_user
  rw [Proc.run_bind, get_user.spec]
  rcases authorization.user_id settings w.clock with e | i
  · rfl
  · dsimp only [Except.bind]
    rcases w.db.users.byId i with _ | user
    · rfl
    · unfold active_check
      dsimp only
      split <;> rfl

theorem get_admin_user.spec (settings : Settings) (authorization : Authorization) (w : World) :
    (get_admin_user settings authorization).run w =
      (((authorization.user_id settings w.clock).bind fun i =>
        active_check (w.db.users.byId i)).bind admin_check, w) := by
  unfold get_admin_user
  rw [Proc.run_bind, get_active_user.spec]
  rcases (authorization.user_id settings w.clock).bind fun i =>
    active_check (w.db.users.byId i) with e | user
  · rfl
  · dsimp only [Except.bind]
    unfold admin_check
    split <;> rfl

theorem get_active_user.ok {settings : Settings} {w w' : World} {authorization : Authorization}
    {user : Row User} (h : (get_active_user settings authorization).run w = (.ok user, w')) :
    w' = w ∧ Bearer settings w authorization user := by
  rw [get_active_user.spec, Prod.mk.injEq] at h
  obtain ⟨h, rfl⟩ := h
  rcases hid : authorization.user_id settings w.clock with e | i
  · rw [hid] at h
    cases h
  · rw [hid] at h
    dsimp only [Except.bind] at h
    unfold active_check at h
    split at h
    · cases h
    · rename_i hu
      split at h
      · cases h
      · rename_i hflags
        cases h
        simp only [not_or, Bool.not_eq_false] at hflags
        have hi := (Table.byId_eq_some.mp hu).2
        subst hi
        exact ⟨rfl, hid, hu, hflags.1, hflags.2⟩

theorem get_admin_user.ok {settings : Settings} {w w' : World} {authorization : Authorization}
    {admin : Row User} (h : (get_admin_user settings authorization).run w = (.ok admin, w')) :
    w' = w ∧ AdminBearer settings w authorization admin := by
  unfold get_admin_user at h
  obtain ⟨user, w1, hget, hrest⟩ := Proc.run_bind_ok_inv h
  obtain ⟨rfl, hbearer⟩ := get_active_user.ok hget
  split at hrest
  · cases hrest
  · rename_i hadmin
    cases hrest
    exact ⟨rfl, hbearer, by simpa using hadmin⟩

/-! ## What the new programs may do -/

section

variable {A : Allowed} {settings : AccountSettings} {pwd : PwdContext} {user_repo : UserRepo}

theorem Emails.send_link.acts (subject page template_name email : String) (user_id : UUID) :
    (Emails.send_link settings subject page template_name email user_id).Acts (Act A) :=
  (generate_token.acts _ _ _).bind fun _ => acts_pure _

theorem UserService.validated_user.acts (token : Token) :
    (validated_user settings token).Acts (Act A) := by
  refine (acts_query _).bind fun _ => (Proc.Acts.ofExcept _).bind fun _ => ?_
  refine (acts_query _).bind fun found => ?_
  cases found <;> trivial

theorem get_not_active_user.acts (authorization : Authorization) :
    (get_not_active_user settings authorization).Acts (Act A) := by
  refine (get_user.acts authorization).bind fun found => ?_
  cases found <;> trivial

theorem UserService.change_password.acts {user : Row User}
    (ha : ∀ hashed, A.patches user.id (.password hashed)) (old_password new_password : String) :
    (change_password pwd old_password new_password user).Acts (Act A) := by
  refine (verify_password.acts _ _).bind fun verified => ?_
  cases verified with
  | false => trivial
  | true =>
    refine (hash_password.acts _).bind fun hashed => ?_
    exact (UserRepository.update.acts user (ha hashed)).bind fun _ => acts_pure _

theorem UserService.new_password.acts (ha : ∀ u hashed, A.patches u (.password hashed))
    (token : Token) (password : String) :
    (new_password settings pwd token password).Acts (Act A) := by
  refine (validated_user.acts token).bind fun user => (hash_password.acts _).bind fun hashed => ?_
  exact (UserRepository.update.acts user (ha _ hashed)).bind fun _ => acts_pure _

theorem UsersService.update_flag.acts (hl : A.audits) (flag : Flag) (action : String)
    (admin_id : UUID) {user_id : UUID} {b : Bool} (ha : A.patches user_id (flag.patch b)) :
    (update_flag flag action admin_id user_id b).Acts (Act A) := by
  refine (AdminUserRepository.get_user_by_id.acts user_id).bind fun found => ?_
  cases found with
  | none => trivial
  | some user =>
    refine (AdminUserRepository.update_user.acts ha).bind fun updated => ?_
    cases updated with
    | none => trivial
    | some user => exact (AdminAuditLogRepository.log.acts hl _).bind fun _ => acts_pure _

open StripeGateway SubscriptionRepoistory

theorem SubscriptionRepoistory.get_subscription_with_access.acts (user_id : UUID) :
    (get_subscription_with_access user_id).Acts (Act A) :=
  now.acts.bind fun _ => acts_query _

theorem StripeGateway.ensure_customer.acts (ha : ∀ u id, A.patches u (.stripe_customer id))
    (user : Row User) : (ensure_customer user user_repo).Acts (Act A) := by
  unfold ensure_customer
  cases user.val.stripe_customer_id with
  | some customer => trivial
  | none =>
    refine Proc.Acts.bind (Proc.Acts.attempt Act.stay fun w _ _ h => ?_) fun customer => ?_
    · cases h
      exact .stripe w _
    · cases user_repo with
      | user => trivial
      | repository => exact UserRepository.update.acts user (ha _ customer)

theorem StripeGateway.create_subscription_checkout_session.acts
    (ha : ∀ u id, A.patches u (.stripe_customer id)) (user : Row User) (plan : Row Plan)
    (old : Option StripeId) :
    (create_subscription_checkout_session user plan user_repo old).Acts (Act A) := by
  refine (ensure_customer.acts ha user).bind fun user => ?_
  refine Proc.Acts.attempt Act.stay fun w _ _ h => ?_
  split at h
  · cases h
  · cases h
    exact .stripe w _

theorem SubscriptionService.subscribe_user_to_plan.acts
    (ha : ∀ u id, A.patches u (.stripe_customer id)) (user : Row User) (plan_code : String) :
    (subscribe_user_to_plan user_repo user plan_code).Acts (Act A) := by
  refine (get_subscription_with_access.acts user.id).bind fun current => ?_
  cases current with
  | some sub => trivial
  | none =>
    refine (acts_query _).bind fun plan => ?_
    cases plan with
    | none => trivial
    | some plan => exact create_subscription_checkout_session.acts ha user plan none

theorem SubscriptionService.upgrade_subscription.acts
    (ha : ∀ u id, A.patches u (.stripe_customer id)) (user : Row User) (plan_code : String) :
    (upgrade_subscription user_repo user plan_code).Acts (Act A) := by
  refine (get_subscription_with_access.acts user.id).bind fun current => ?_
  cases current with
  | none => trivial
  | some sub =>
    refine (acts_query _).bind fun plan => ?_
    cases plan with
    | none => trivial
    | some plan =>
      dsimp only
      split
      · trivial
      · split
        · trivial
        · exact create_subscription_checkout_session.acts ha user plan _

/-- A request without a link is the request itself. -/
theorem AccountRequest.prog_auth {request : AuthRequest}
    (h : ∀ email username password, request ≠ .register email username password) :
    AccountRequest.prog settings pwd user_repo (.auth request) =
      (request.prog settings.toSettings pwd >>= fun tokens =>
        pure (tokens.elim [] TokenPair.issued)) := by
  cases request with
  | register email username password => exact absurd rfl (h email username password)
  | _ => rfl

/-! ## What each request may do -/

/-- Patches of the password. -/
def OfPassword (p : UserPatch) : Prop := ∃ hashed, p = .password hashed

/-- Patches of the id at Stripe. -/
def OfCustomer (p : UserPatch) : Prop := ∃ id, p = .stripe_customer id

theorem ofPassword (hashed : String) : OfPassword (.password hashed) := ⟨hashed, rfl⟩

theorem ofCustomer (id : StripeId) : OfCustomer (.stripe_customer id) := ⟨id, rfl⟩

def AccountRequest.allowed : AccountRequest → Allowed
  | .auth request => request.allowed
  | .verify _ => { patches := fun _ p => p = .verified true }
  | .request_verify _ => {}
  | .forget_password _ => {}
  | .new_password _ _ => { patches := fun _ p => OfPassword p }
  | .change_password _ _ _ => { patches := fun _ p => OfPassword p }
  | .update_user_role _ user_id is_admin =>
    { audits := True, patches := fun i p => i = user_id ∧ p = .admin is_admin }
  | .verify_user _ user_id =>
    { audits := True, patches := fun i p => i = user_id ∧ p = .verified true }
  | .subscribe _ _ => { patches := fun _ p => OfCustomer p }
  | .upgrade _ _ => { patches := fun _ p => OfCustomer p }

theorem AccountRequest.acts (settings : AccountSettings) (pwd : PwdContext) (user_repo : UserRepo)
    (request : AccountRequest) :
    (request.prog settings pwd user_repo).Acts (Act request.allowed) := by
  cases request with
  | auth request =>
    by_cases hreg : ∃ email username password, request = .register email username password
    · obtain ⟨email, username, password, rfl⟩ := hreg
      refine (UserService.register_user.acts (fun _ h => h) email username password).bind
        fun user => ?_
      exact (Emails.send_link.acts _ _ _ _ _).bind fun message => acts_pure _
    · rw [AccountRequest.prog_auth fun email username password h =>
        hreg ⟨email, username, password, h⟩]
      exact (request.acts settings.toSettings pwd).bind fun _ => acts_pure _
  | verify token =>
    refine Proc.Acts.bind ?_ fun _ => acts_pure _
    refine (UserService.validated_user.acts token).bind fun user => ?_
    split
    · exact acts_pure _
    · exact (UserRepository.update.acts user rfl).bind fun _ => acts_pure _
  | request_verify authorization =>
    refine (get_not_active_user.acts authorization).bind fun user => ?_
    split
    · exact acts_pure _
    · exact (Emails.send_link.acts _ _ _ _ _).bind fun message => acts_pure _
  | forget_password email =>
    refine (acts_query _).bind fun found => ?_
    cases found with
    | none => exact acts_pure _
    | some user => exact (Emails.send_link.acts _ _ _ _ _).bind fun message => acts_pure _
  | new_password token password =>
    exact (UserService.new_password.acts (fun _ hashed => ofPassword hashed) token password).bind
      fun _ => acts_pure _
  | change_password authorization old new =>
    refine (get_active_user.acts authorization).bind fun user => ?_
    exact (UserService.change_password.acts (fun hashed => ofPassword hashed) old new).bind
      fun _ => acts_pure _
  | update_user_role authorization user_id is_admin =>
    refine (get_admin_user.acts authorization).bind fun admin => ?_
    exact (UsersService.update_flag.acts trivial _ _ admin.id (And.intro rfl rfl)).bind
      fun _ => acts_pure _
  | verify_user authorization user_id =>
    refine (get_admin_user.acts authorization).bind fun admin => ?_
    exact (UsersService.update_flag.acts trivial _ _ admin.id (And.intro rfl rfl)).bind
      fun _ => acts_pure _
  | subscribe authorization plan_code =>
    refine (get_active_user.acts authorization).bind fun user => ?_
    exact (SubscriptionService.subscribe_user_to_plan.acts (fun _ id => ofCustomer id) user
      plan_code).bind fun _ => acts_pure _
  | upgrade authorization plan_code =>
    refine (get_active_user.acts authorization).bind fun user => ?_
    exact (SubscriptionService.upgrade_subscription.acts (fun _ id => ofCustomer id) user
      plan_code).bind fun _ => acts_pure _

end

end saas
