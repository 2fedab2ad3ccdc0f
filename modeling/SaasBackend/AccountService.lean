-- The rest of `auth/service.py` and of the users of `admin/services.py`:
-- addresses are verified, passwords set, admins appointed. `auth/emails.py`
-- issues the tokens of the links.
import SaasBackend.AuthService

open relational async

namespace saas

/-- The settings of the links in emails; the lifetime is in minutes, and not negative. -/
structure AccountSettings extends Settings where
  validation_secret_key : Secret
  validation_token_expire : Nat
  app_url : String

/-! ## The flags of an account -/

inductive Flag where
  | is_admin
  | is_verified
  | is_active
deriving DecidableEq, Repr

namespace Flag

def of : Flag → User → Bool
  | is_admin => User.is_admin
  | is_verified => User.is_verified
  | is_active => User.is_active

/-- The value in a new row that does not say otherwise. -/
def default : Flag → Bool
  | is_admin => false
  | is_verified => false
  | is_active => true

/-- The name of the column. -/
def key : Flag → String
  | is_admin => "is_admin"
  | is_verified => "is_verified"
  | is_active => "is_active"

def patch : Flag → Bool → UserPatch
  | is_admin => .admin
  | is_verified => .verified
  | is_active => .active

theorem of_patch (flag f : Flag) (b : Bool) (u : User) :
    f.of ((flag.patch b).apply u) = if f = flag then b else f.of u := by
  cases flag <;> cases f <;> rfl

end Flag

/-! ## Emails with a link -/

/-- An email that links to a page of the application, with a token. -/
structure LinkMessage where
  subject : String
  recipients : List String
  expires_in : Nat
  url : String × Token
  template_name : String

section

variable (settings : AccountSettings) (pwd : PwdContext)

namespace Emails

/-- What the two emails share: the token carries the user id and nothing else. -/
def send_link (subject page template_name : String) (email : String) (user_id : UUID) :
    M LinkMessage := do
  let (token, _, _) ← generate_token
    { sub := some (.ofUuid user_id), email := none, username := none }
    settings.validation_token_expire settings.validation_secret_key
  pure
    { subject := subject
      recipients := [email]
      expires_in := settings.validation_token_expire
      url := (settings.app_url ++ page, token)
      template_name := template_name }

def send_verification_email (email : String) (user_id : UUID) : M LinkMessage :=
  send_link settings "Email Verification" "/verify?token=" "verify_email.html" email user_id

def send_password_reset_email (email : String) (user_id : UUID) : M LinkMessage :=
  send_link settings "Password Reset" "/auth/password-reset?token=" "reset_password.html" email
    user_id

end Emails

/-! ## The user's own requests -/

def get_not_active_user (authorization : Authorization) : M (Row User) := do
  match ← get_user settings.toSettings authorization with
  | none => httpException 401 "Invalid authentication credentials"
  | some current_user => pure current_user

namespace UserService

/-- The account that a token of an email names. -/
def validated_user (token : Token) : M (Row User) := do
  let payload ← verify_token token settings.validation_secret_key
  let user_id ← Proc.ofExcept (UUID.parse payload.claims.sub)
  match ← UserRepository.get_by_id user_id with
  | none => httpException 401 "Invalid authentication credentials"
  | some user => pure user

/-- The result says whether the address was not verified before. -/
def validate_user (token : Token) : M Bool := do
  let user ← validated_user settings token
  if user.val.is_verified then pure false
  else
    let _ ← UserRepository.update user (.verified true)
    pure true

def forget_password (email : String) : M (Option (Row User)) :=
  UserRepository.get_by_email email

def new_password (token : Token) (password : String) : M Bool := do
  let user ← validated_user settings token
  let hashed ← hash_password pwd password
  let _ ← UserRepository.update user (.password hashed)
  pure true

def change_password (old_password new_password : String) (current_user : Row User) : M Bool := do
  if ← verify_password pwd old_password current_user.val.password then
    let hashed ← hash_password pwd new_password
    let _ ← UserRepository.update current_user (.password hashed)
    pure true
  else httpException 403 "Old password isn't correct."

end UserService

end

/-! ## The admin's requests -/

namespace UsersService

/-- An admin sets one flag, and an audit entry keeps its two values. -/
def update_flag (flag : Flag) (action : String) (admin_id user_id : UUID) (b : Bool) :
    M (Row User) := do
  match ← AdminUserRepository.get_user_by_id user_id with
  | none => .raise .typeError
  | some detail =>
    match ← AdminUserRepository.update_user user_id (flag.patch b) with
    | none => .raise .attributeError
    | some updated_user =>
      let _ ← AdminAuditLogRepository.log
        { admin_id := admin_id, target_type := "user", target_id := user_id, action := action,
          before := some (flag.key, flag.of detail.user.val),
          after := some (flag.key, flag.of updated_user.val) }
      pure updated_user

def update_user_role (admin_id user_id : UUID) (is_admin : Bool) : M (Row User) :=
  update_flag .is_admin "user.update_role" admin_id user_id is_admin

def verify_user (admin_id user_id : UUID) : M (Row User) :=
  update_flag .is_verified "user.verify" admin_id user_id true

/-- The three requests differ in the flag and in the name of the action. -/
theorem update_user_status_eq (admin_id user_id : UUID) (is_active : Bool) :
    update_user_status admin_id user_id is_active =
      update_flag .is_active "user.update_status" admin_id user_id is_active :=
  rfl

end UsersService

end saas
