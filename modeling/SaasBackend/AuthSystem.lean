-- The accounts as a system: users register, log in on four ways, rotate their
-- refresh tokens and leave; admins switch accounts off and on. One request is
-- served after the other.
import SaasBackend.AuthService
import SaasBackend.Runs

open relational async

namespace saas

/-! ## Requests -/

/-- The four logins. -/
inductive LoginRequest where
  | password (email password : String)
  | code (email code : String)
  | google (callback : OAuthCallback)
  | github (callback : OAuthCallback)

inductive AuthRequest where
  | register (email username password : String)
  | request_code (email code : String)
  | login (request : LoginRequest)
  | refresh (token : Token)
  | deactivate (authorization : Authorization)
  | update_user_status (authorization : Authorization) (user_id : UUID) (is_active : Bool)

section

variable (settings : Settings) (pwd : PwdContext)

open UserService

def LoginRequest.prog : LoginRequest → M Login
  | .password email plain_password => login_user settings pwd email plain_password
  | .code email digits => login_with_code settings pwd email digits
  | .google callback => login_with_google settings pwd callback
  | .github callback => login_with_github settings pwd callback

/-- The email that a provider answers with in a callback that passes its checks. -/
def LoginRequest.vouched : LoginRequest → Option String
  | .google callback => match check_callback callback, callback.answer with
    | .ok (), .ok (email, _) => email
    | _, _ => none
  | .github callback =>
    if (given callback.error).isSome then none
    else match check_callback callback, callback.answer with
      | .ok (), .ok (email, username) => some (email.getD (username ++ "@github.local"))
      | _, _ => none
  | _ => none

/-- A request with its dependencies, and the tokens that it returns. -/
def AuthRequest.prog : AuthRequest → M (Option TokenPair)
  | .register email username password => do
    let _ ← register_user pwd email username password
    pure none
  | .request_code email code => do
    let _ ← login_code pwd email code
    pure none
  | .login request => do
    let login ← request.prog settings pwd
    pure (some login.toTokenPair)
  | .refresh token => do
    let tokens ← refresh_token settings pwd token
    pure (some tokens)
  | .deactivate authorization => do
    let current_user ← get_active_user settings authorization
    let _ ← deactivate_user current_user
    pure none
  | .update_user_status authorization user_id is_active => do
    let admin ← get_admin_user settings authorization
    let _ ← UsersService.update_user_status admin.id user_id is_active
    pure none

end

/-! ## States and labels -/

/-- What a token says, whoever signed it. -/
def Token.payload : Token → Option Payload
  | .signed _ payload => some payload
  | _ => none

def Token.secret_key : Token → Option Secret
  | .signed key _ => some key
  | _ => none

def Token.claims (token : Token) : Option Claims := token.payload.map Payload.claims

def Token.jti (token : Token) : Option Jti := token.payload.bind Payload.jti

/-- The user that a token names. -/
def Token.subject (token : Token) : Option UUID :=
  match token.claims.bind Claims.sub with
  | some (.ofUuid u) => some u
  | _ => none

theorem Token.subject_signed {key : Secret} {payload : Payload} {u : UUID} :
    (Token.signed key payload).subject = some u ↔ payload.claims.sub = some (.ofUuid u) := by
  unfold Token.subject
  rcases hsub : payload.claims.sub with _ | ⟨_ | _⟩ <;>
    simp [Token.claims, Token.payload, hsub]

/-- The account is there and switched off. -/
def World.disabled (w : World) (u : UUID) : Bool :=
  (w.db.users.byId u).any (fun r => !r.val.is_active)

/-- Two tokens that were returned: for which refresh token, if for one, and the
state in which the request came. -/
structure Grant where
  tokens : TokenPair
  presented : Option Token
  before : World

/-- The state of the service with all that it has returned, the latest last. -/
structure Accounts where
  world : World
  issued : List Grant := []

/-- The refresh token that a request presents. -/
def AuthRequest.presented : AuthRequest → Option Token
  | .refresh token => some token
  | _ => none

inductive AuthLabel where
  | serve (request : AuthRequest)
  | tick (d : Nat)

/-- The refresh token last issued to a user, by a login or by a rotation. -/
def Accounts.last_issued (s : Accounts) (u : UUID) : Option Token :=
  ((s.issued.map fun g => g.tokens.refresh_token).filter (fun t => t.subject = some u)).getLast?

/-- Signatures cannot be forged: a token with the key and the id of an issued
refresh token is that token. -/
def Accounts.Genuine (settings : Settings) (s : Accounts) (token : Token) : Prop :=
  ∀ g ∈ s.issued, token.secret_key = some settings.refresh_secret_key →
    token.jti = g.tokens.refresh_token.jti → token = g.tokens.refresh_token

instance (settings : Settings) (s : Accounts) (token : Token) :
    Decidable (s.Genuine settings token) :=
  inferInstanceAs (Decidable (∀ g ∈ s.issued, _))

namespace AuthLabel

def Enabled (settings : Settings) (s : Accounts) : AuthLabel → Prop
  | .serve request => ∀ token ∈ request.presented, s.Genuine settings token
  | .tick _ => True

instance (settings : Settings) (s : Accounts) : (l : AuthLabel) → Decidable (l.Enabled settings s)
  | .serve request => inferInstanceAs (Decidable (∀ token ∈ request.presented, _))
  | .tick _ => isTrue trivial

/-- The state after a request, with the tokens that it returned. -/
def record (s : Accounts) (request : AuthRequest) :
    Except Err (Option TokenPair) × World → Accounts
  | (.ok (some tokens), w) => ⟨w, s.issued ++ [⟨tokens, request.presented, s.world⟩]⟩
  | (_, w) => ⟨w, s.issued⟩

@[simp] theorem record_world (s : Accounts) (request : AuthRequest)
    (out : Except Err (Option TokenPair) × World) : (record s request out).world = out.2 := by
  rcases out with ⟨e | _ | tokens, w⟩ <;> rfl

/-- Only tokens that were returned are recorded. -/
theorem record_issued (s : Accounts) (request : AuthRequest)
    (out : Except Err (Option TokenPair) × World) :
    (∃ tokens, out.1 = .ok (some tokens) ∧
      (record s request out).issued = s.issued ++ [⟨tokens, request.presented, s.world⟩]) ∨
    ((∀ tokens, out.1 ≠ .ok (some tokens)) ∧ (record s request out).issued = s.issued) := by
  rcases out with ⟨e | _ | tokens, w⟩
  · refine Or.inr ⟨fun tokens h => ?_, rfl⟩
    cases h
  · refine Or.inr ⟨fun tokens h => ?_, rfl⟩
    cases h
  · exact Or.inl ⟨tokens, rfl, rfl⟩

def next (settings : Settings) (pwd : PwdContext) (s : Accounts) : AuthLabel → Accounts
  | .serve request => record s request ((request.prog settings pwd).run s.world)
  | .tick d => { s with world := s.world.advance d }

end AuthLabel

def accounts (settings : Settings) (pwd : PwdContext) : System Accounts AuthLabel where
  enabled s l := l.Enabled settings s
  next s l := l.next settings pwd s

instance (settings : Settings) (pwd : PwdContext) (s : Accounts) (l : AuthLabel) :
    Decidable ((accounts settings pwd).enabled s l) :=
  inferInstanceAs (Decidable (l.Enabled settings s))

namespace Sample

def eva : User where
  email := "eva@example.com"
  username := "eva"
  password := some "hash of secret"
  is_verified := true
  provider := .LOCAL

/-- One account, and nobody has logged in. -/
def opened : Accounts where
  world := { db := Db.start (Table.empty.push eva (by decide)) .empty, clock := fromtimestamp 1000 }

def login_of_eva : AuthLabel := .serve (.login (.password "eva@example.com" "secret"))

/-- A provider answers with an email. -/
def callback (email : String) : OAuthCallback where
  code := some "code"
  state := some "state"
  cookie_state := some "state"
  answer := .ok (some email, "bob")

end Sample

end saas
