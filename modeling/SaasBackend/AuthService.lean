-- `auth/service.py`, `auth_bearer.py` and the account status of
-- `admin/services.py`.
import SaasBackend.Tokens

open relational async

namespace saas

/-! ## The bearer of a request -/

/-- The `Authorization` header of a request. -/
inductive Authorization where
  | absent
  /-- A scheme other than `Bearer`. -/
  | other_scheme
  | bearer (token : Token)
deriving DecidableEq, Repr

/-- `HTTPBearer`: a scheme without credentials counts as no header. -/
def oauth2_schema : Authorization → Except Err Token
  | .absent => .error (.http 403 "Not authenticated")
  | .other_scheme => .error (.http 403 "Invalid authentication credentials")
  | .bearer .empty => .error (.http 403 "Not authenticated")
  | .bearer token => .ok token

section

variable (settings : Settings)

/-- The account of a lost user is null, and no error. -/
def get_user (authorization : Authorization) : M (Option (Row User)) := do
  let token ← Proc.ofExcept (oauth2_schema authorization)
  let payload ← verify_token token settings.access_secret_key
  let user_id ← Proc.ofExcept (UUID.parse payload.claims.sub)
  UserRepository.get_by_id user_id

def get_active_user (authorization : Authorization) : M (Row User) := do
  match ← get_user settings authorization with
  | none => httpException 401 "Invalid authentication credentials"
  | some current_user =>
    if current_user.val.is_verified = false ∨ current_user.val.is_active = false then
      httpException 403 "User account is not active or verified"
    else pure current_user

def get_admin_user (authorization : Authorization) : M (Row User) := do
  let current_user ← get_active_user settings authorization
  if current_user.val.is_admin = false then
    httpException 403 "User does not have admin privileges"
  else pure current_user

end

/-! ## Accounts -/

/-- The callback of a provider: what the browser sends, and what the provider
answers to the code with, an error or the email and the name of the account. -/
structure OAuthCallback where
  error : Option String := none
  code : Option String
  state : Option String
  cookie_state : Option String
  answer : Except Err (Option String × String)

/-- A text that is there and not empty. -/
def given (text : Option String) : Option String := text.filter (· ≠ "")

/-- The pair of tokens that a rotation returns. -/
structure TokenPair where
  access_token : Token
  refresh_token : Token
deriving DecidableEq, Repr

/-- What a login returns. -/
structure Login extends TokenPair where
  user : Row User
deriving DecidableEq, Repr

namespace UserService

variable (settings : Settings) (pwd : PwdContext)

def register_user (email username password : String) : M (Row User) := do
  match ← UserRepository.get_by_email email with
  | some _ => httpException 400 "Email already exists"
  | none =>
    match ← UserRepository.get_by_username username with
    | some _ => httpException 400 "Username already exists"
    | none =>
      let hashed ← hash_password pwd password
      UserRepository.create
        { email := email, username := username, password := some hashed, provider := .LOCAL }

/-- The data of a login's tokens. -/
def user_data (user : Row User) : Claims where
  sub := some (.ofUuid user.id)
  email := some user.val.email
  username := some user.val.username

/-- The end of every login: two tokens, and the row of the second. -/
def issue_tokens (user : Row User) : M Login := do
  let (access_token, _, _) ←
    generate_token (user_data user) settings.access_token_expire settings.access_secret_key
  let (refresh_token, jti, exp) ←
    generate_token (user_data user) settings.refresh_token_expire settings.refresh_secret_key
  store_refresh_token_in_db pwd user.id jti refresh_token exp
  pure ⟨⟨access_token, refresh_token⟩, user⟩

def login_user (email password : String) : M Login := do
  match ← UserRepository.get_by_email email with
  | none => httpException 401 "Invalid email or password"
  | some user =>
    if ← verify_password pwd password user.val.password then
      if user.val.is_active = false then httpException 403 "User is disabled"
      else issue_tokens settings pwd user
    else httpException 401 "Invalid email or password"

/-- The second half of a rotation: the tokens take over the claims of the old
one, whatever has become of the account. -/
def rotate (claims : Claims) (old_token : Row RefreshToken) : M TokenPair := do
  let (access_token, _, _) ←
    generate_token claims settings.access_token_expire settings.access_secret_key
  let (refresh_token, jti, exp) ←
    generate_token claims settings.refresh_token_expire settings.refresh_secret_key
  let user_id ← Proc.ofExcept (UUID.parse claims.sub)
  let token_hash ← hash_password pwd (pwd.encode refresh_token)
  revoke_refresh_token
    { user_id := user_id, jti := jti, token_hash := token_hash, expires_at := exp } old_token
  pure ⟨access_token, refresh_token⟩

def refresh_token (token : Token) : M TokenPair := do
  if token = .empty then httpException 401 "Refresh token is missing."
  else
    let payload ← verify_token token settings.refresh_secret_key
    match payload.jti with
    | none => httpException 401 "Invalid refresh token payload"
    | some jti =>
      let old_token ← RefreshTokenRepository.get_by_jti jti
      let old_token ← Proc.ofExcept (validate_refresh_token old_token)
      rotate settings pwd payload.claims old_token

/-- `code` is what `secrets.randbelow` gave. -/
def login_code (email code : String) : M (Row User × String) := do
  match ← UserRepository.get_by_email email with
  | none => httpException 400 "Invalid  email."
  | some user =>
    let hashed_code ← hash_password pwd code
    let t ← now
    LoginCodeRepository.delete user.id
    let created_at ← now
    LoginCodeRepository.create
      { user_id := user.id, code_hash := hashed_code, created_at := created_at,
        expires_at := t + minutes 15 }
    pure (user, code)

def login_with_code (email code : String) : M Login := do
  match ← UserRepository.get_by_email email with
  | none => httpException 400 "Invalid code or email."
  | some user =>
    match ← LoginCodeRepository.get_latest_for_user user.id with
    | none => httpException 400 "Invalid code or email."
    | some login_code =>
      let t ← now
      if login_code.val.expires_at < t then do
        LoginCodeRepository.delete user.id
        httpException 400 "Code has expired."
      else if ← verify_password pwd code (some login_code.val.code_hash) then
        LoginCodeRepository.delete user.id
        if user.val.is_active = false then httpException 403 "User is disabled"
        else issue_tokens settings pwd user
      else httpException 400 "Invalid code or email."

/-- The state of a callback is the one in the cookie. -/
def check_callback (request : OAuthCallback) : Except Err Unit :=
  match given request.code, given request.state, given request.cookie_state with
  | some _, some state, some cookie_state =>
    if state ≠ cookie_state then .error (.http 400 "Invalid OAuth state") else .ok ()
  | _, _, _ => .error (.http 400 "Invalid OAuth callback")

/-- The account with the email of a provider, or a new one. Without an email
nobody is found, and nobody can be stored. -/
def find_or_register (provider : Provider) (email : Option String) (username : String) :
    M (Row User) :=
  match email with
  | none => .raise .integrityError
  | some email => do
    match ← UserRepository.get_by_email email with
    | some user => pure user
    | none =>
      UserRepository.create
        { email := email, username := username, password := none, provider := provider,
          is_verified := true }

def login_with_google (request : OAuthCallback) : M Login := do
  Proc.ofExcept (check_callback request)
  let (email, username) ← Proc.ofExcept request.answer
  let user ← find_or_register .GOOGLE email username
  issue_tokens settings pwd user

def login_with_github (request : OAuthCallback) : M Login := do
  if (given request.error).isSome then httpException 400 "GitHub authentication failed"
  else
    Proc.ofExcept (check_callback request)
    let (email, username) ← Proc.ofExcept request.answer
    let user ← find_or_register .GITHUB (some (email.getD (username ++ "@github.local"))) username
    issue_tokens settings pwd user

def deactivate_user (current_user : Row User) : M Bool := do
  let _ ← UserRepository.update current_user (.active false)
  pure true

end UserService

/-! ## The admin's switch -/

/-- What `get_user_by_id` of the admin module returns. -/
structure UserDetail where
  user : Row User
  subscriptions_count : Nat
  transactions_count : Nat
deriving DecidableEq, Repr

namespace AdminUserRepository

def get_user_by_id (user_id : UUID) : M (Option UserDetail) := do
  match ← UserRepository.get_by_id user_id with
  | none => pure none
  | some user =>
    let total_subscriptions ← Proc.read fun w =>
      (w.db.subscriptions.select (fun s => decide (s.user_id = user_id))).length
    let total_transactions ← Proc.read fun w =>
      (w.db.payments.select (fun p => decide (p.user_id = user_id))).length
    pure (some ⟨user, total_subscriptions, total_transactions⟩)

def update_user (user_id : UUID) (p : UserPatch) : M (Option (Row User)) := do
  match ← UserRepository.get_by_id user_id with
  | none => pure none
  | some user =>
    let user ← UserRepository.update user p
    pure (some user)

end AdminUserRepository

def AdminAuditLogRepository.log (entry : AdminAuditLog) : M (Row AdminAuditLog) :=
  Proc.attempt fun w => (w.db.insert_audit entry).map fun (r, db) => (r, { w with db := db })

namespace UsersService

/-- A user that is not there fails with the subscript of `None`. -/
def update_user_status (admin_id user_id : UUID) (is_active : Bool) : M (Row User) := do
  match ← AdminUserRepository.get_user_by_id user_id with
  | none => .raise .typeError
  | some detail =>
    match ← AdminUserRepository.update_user user_id (.active is_active) with
    | none => .raise .attributeError
    | some updated_user =>
      let _ ← AdminAuditLogRepository.log
        { admin_id := admin_id, target_type := "user", target_id := user_id,
          action := "user.update_status",
          before := some ("is_active", detail.user.val.is_active),
          after := some ("is_active", updated_user.val.is_active) }
      pure updated_user

end UsersService

namespace Sample

def settings : Settings where
  access_secret_key := 1
  access_token_expire := 30
  refresh_secret_key := 2
  refresh_token_expire := 60
  stripe_webhook_secret := 3

/-- A context that knows the hash of one password. -/
def pwd : PwdContext where
  hash _ text := if text = "secret" then "hash of secret" else "hash of a token"
  verify plain hash := decide (plain = "secret" ∧ hash = "hash of secret")
  encode _ := "token"

end Sample

end saas
