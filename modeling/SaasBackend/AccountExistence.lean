-- The two endpoints of `auth/router.py` that anybody may send an email to, with
-- the responses that the sender sees: what they say of the accounts there are.
import SaasBackend.AccountService
import SaasBackend.LoginCodes
import SaasBackend.AuthSystem

open relational async

namespace saas

/-! ## Responses -/

/-- The JSON of a response: of an endpoint, of an `HTTPException`, or neither. -/
inductive ResponseBody where
  | message (text : String)
  | detail (text : String)
  | internal_server_error
deriving DecidableEq, Repr

structure Response where
  status_code : Nat
  body : ResponseBody
deriving DecidableEq, Repr

/-- An email that is sent after the response. -/
inductive BackgroundTask where
  | send_password_reset_email (email : String) (user_id : UUID)
  | send_login_code (email code : String)
deriving DecidableEq, Repr

/-- What an endpoint returns. -/
structure MessageResponse where
  message : String
  background : List BackgroundTask := []
deriving DecidableEq, Repr

/-- What the sender of a request sees. -/
def Response.of (status_code : Nat) : Except Err MessageResponse → Response
  | .ok response => ⟨status_code, .message response.message⟩
  | .error (.http code detail) => ⟨code, .detail detail⟩
  | .error _ => ⟨500, .internal_server_error⟩

/-! ## The endpoints -/

namespace auth_router

/-- `POST /forget-password`, with an email that passed the schema. -/
def forget_password (email : String) : M MessageResponse := do
  match ← UserService.forget_password email with
  | some user =>
    pure ⟨"If an account with this email exists, a password reset link has been sent.",
      [.send_password_reset_email user.val.email user.id]⟩
  | none =>
    pure { message := "If an account with this email exists, a password reset link has been sent." }

/-- `POST /request/login-code`. -/
def request_login_code (pwd : PwdContext) (email code : String) : M MessageResponse := do
  let (user, code) ← UserService.login_code pwd email code
  pure ⟨"If an account with this email exists, a login code has been sent.",
    [.send_login_code user.val.email code]⟩

end auth_router

section

variable (pwd : PwdContext) (email code : String) (w : World)

def forget_password_response : Response :=
  .of 202 ((auth_router.forget_password email).run w).1

def login_code_response : Response :=
  .of 200 ((auth_router.request_login_code pwd email code).run w).1

/-- An account has this email. -/
def HasAccount : Prop := (w.find_user email).isSome = true

theorem forget_password_response_eq : forget_password_response email w =
    ⟨202, .message
      "If an account with this email exists, a password reset link has been sent."⟩ := by
  have hrun : (UserService.forget_password email).run w = (.ok (w.find_user email), w) :=
    UserRepository.get_by_email.spec email w
  unfold forget_password_response auth_router.forget_password
  rw [Proc.run_bind_ok hrun]
  rcases w.find_user email with _ | user <;> rfl

theorem login_code_response_eq : login_code_response pwd email code w =
    if (w.find_user email).isSome then
      ⟨200, .message "If an account with this email exists, a login code has been sent."⟩
    else ⟨400, .detail "Invalid  email."⟩ := by
  unfold login_code_response auth_router.request_login_code
  rcases hu : w.find_user email with _ | user
  · rw [Proc.run_bind_error (UserService.login_code.none hu code)]
    rfl
  · obtain ⟨row, w', hrun, _⟩ := UserService.login_code.some pwd hu code
    rw [Proc.run_bind_ok hrun]
    rfl

end

/-! ## Two databases -/

/-- Neither response tells one database from the other, whatever codes are drawn. -/
structure RevealsNoAccount (pwd : PwdContext) (email : String) (w w' : World) : Prop where
  forget_password : forget_password_response email w = forget_password_response email w'
  login_code : ∀ code code', login_code_response pwd email code w =
    login_code_response pwd email code' w'

/-- The response to a request for a login code differs between every database that
has the account and every one that has it not; the other response is always the same. -/
theorem reveals_no_account_iff (pwd : PwdContext) (email : String) (w w' : World) :
    RevealsNoAccount pwd email w w' ↔ (HasAccount email w ↔ HasAccount email w') := by
  unfold HasAccount
  constructor
  · intro h
    have hcode := h.login_code "" ""
    rw [login_code_response_eq, login_code_response_eq] at hcode
    by_cases hw : (w.find_user email).isSome = true
    · by_cases hw' : (w'.find_user email).isSome = true
      · exact iff_of_true hw hw'
      · simp [hw, hw'] at hcode
    · by_cases hw' : (w'.find_user email).isSome = true
      · simp [hw, hw'] at hcode
      · exact iff_of_false hw hw'
  · intro h
    refine ⟨?_, fun code code' => ?_⟩
    · rw [forget_password_response_eq, forget_password_response_eq]
    · rw [login_code_response_eq, login_code_response_eq, Bool.eq_iff_iff.mpr h]

namespace Sample

/-- Nobody has registered. -/
def unopened : World := { opened.world with db := Db.start .empty .empty }

end Sample

open Sample in
/-- Without Eva's account the request fails, and with it the message promises to
say nothing. -/
theorem login_code_reveals_accounts :
    login_code_response pwd "eva@example.com" "1234" unopened =
        ⟨400, .detail "Invalid  email."⟩ ∧
      login_code_response pwd "eva@example.com" "1234" opened.world =
        ⟨200, .message "If an account with this email exists, a login code has been sent."⟩ ∧
      ¬ RevealsNoAccount pwd "eva@example.com" unopened opened.world := by
  have hno : login_code_response pwd "eva@example.com" "1234" unopened =
      ⟨400, .detail "Invalid  email."⟩ := by decide
  have hyes : login_code_response pwd "eva@example.com" "1234" opened.world =
      ⟨200, .message "If an account with this email exists, a login code has been sent."⟩ := by
    decide
  refine ⟨hno, hyes, fun h => ?_⟩
  have hsame := h.login_code "1234" "1234"
  rw [hno, hyes] at hsame
  cases hsame

end saas
