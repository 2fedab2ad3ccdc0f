-- `jwt.py`, `hashing.py` and the token functions of `utils.py`.
import SaasBackend.AuthRepo

open relational async

namespace saas

/-! ## Settings -/

/-- The key that a token is signed with. -/
abbrev Secret := Nat

/-- The settings that the code below reads; the two lifetimes are in minutes. The code
reads integers: a lifetime here is one that is not negative. -/
structure Settings where
  access_secret_key : Secret
  access_token_expire : Nat
  refresh_secret_key : Secret
  refresh_token_expire : Nat
  stripe_webhook_secret : Nat

/-! ## Tokens -/

/-- The data that a token is made for. -/
structure Claims where
  sub : Option UuidText
  email : Option String
  username : Option String
deriving DecidableEq, Repr

/-- The claims of a token. Its times are whole seconds. -/
structure Payload where
  claims : Claims
  exp : Option Nat
  iat : Option Nat
  jti : Option Jti
deriving DecidableEq, Repr

/-- The text of a token: empty, signed with some key, or neither. -/
inductive Token where
  | empty
  | garbage
  | signed (secret_key : Secret) (payload : Payload)
deriving DecidableEq, Repr

/-- `pwd_context`, and the text of a token. A hash is salted. -/
structure PwdContext where
  hash : Nat → String → String
  verify : String → String → Bool
  encode : Token → String

def minutes (n : Nat) : Time := n * 60000000

/-- The payload of a token that is made at time `now`. -/
def new_payload (data : Claims) (now expire : Time) (jti : Jti) : Payload where
  claims := data
  exp := some (timegm expire)
  iat := some (timegm now)
  jti := some jti

def generate_token (data : Claims) (mins : Nat) (secret_key : Secret) : M (Token × Jti × Time) :=
  Proc.attempt fun w =>
    let expire := w.clock + minutes mins
    .ok ((.signed secret_key (new_payload data w.clock expire w.uuids), w.uuids, expire),
      { w with uuids := w.uuids + 1 })

/-- `exp` is not before the present second. -/
def Payload.unexpired (payload : Payload) (now : Time) : Bool :=
  payload.exp.all (fun exp => decide (timegm now ≤ exp))

/-- What `verify_token` says of a token at time `now`. -/
def Token.verify (now : Time) (secret_key : Secret) : Token → Except Err Payload
  | .signed key payload =>
    if key ≠ secret_key then .error (.http 401 "Invalid token")
    else if payload.unexpired now = false then .error (.http 401 "Token expired")
    else if payload.claims.sub = none then .error (.http 401 "Invalid token payload")
    else .ok payload
  | _ => .error (.http 401 "Invalid token")

def verify_token (token : Token) (secret_key : Secret) : M Payload :=
  Proc.query fun w => token.verify w.clock secret_key

theorem Token.verify_error {token : Token} {now : Time} {key : Secret} {e : Err}
    (h : token.verify now key = .error e) : ∃ d, e = .http 401 d := by
  unfold Token.verify at h
  split at h
  · split at h
    · cases h
      exact ⟨_, rfl⟩
    · split at h
      · cases h
        exact ⟨_, rfl⟩
      · split at h
        · cases h
          exact ⟨_, rfl⟩
        · cases h
  · cases h
    exact ⟨_, rfl⟩

/-- What `verify_token` lets pass. -/
theorem Token.verify_ok {token : Token} {now : Time} {key : Secret} {payload : Payload}
    (h : token.verify now key = .ok payload) :
    token = .signed key payload ∧ payload.unexpired now = true ∧ payload.claims.sub ≠ none := by
  unfold Token.verify at h
  split at h
  · split at h
    · cases h
    · rename_i hkey
      split at h
      · cases h
      · rename_i hexp
        split at h
        · cases h
        · rename_i hsub
          cases h
          rw [ne_eq, Decidable.not_not] at hkey
          exact ⟨by rw [hkey], by simpa using hexp, hsub⟩
  · cases h

theorem Token.verify_of {token : Token} {now : Time} {key : Secret} {payload : Payload}
    (hsigned : token = .signed key payload) (hexp : payload.unexpired now = true)
    (hsub : payload.claims.sub ≠ none) : token.verify now key = .ok payload := by
  subst hsigned
  simp [Token.verify, hexp, hsub]

/-! ## Hashing -/

def hash_password (pwd : PwdContext) (password : String) : M String :=
  Proc.attempt fun w => .ok (pwd.hash w.uuids password, { w with uuids := w.uuids + 1 })

/-- A null hash verifies nothing. -/
def verify_password (pwd : PwdContext) (plain_password : String)
    (hashed_password : Option String) : M Bool :=
  Proc.read fun _ => hashed_password.any (pwd.verify plain_password)

/-! ## The token rows -/

def store_refresh_token_in_db (pwd : PwdContext) (user_id : UUID) (jti : Jti)
    (refresh_token : Token) (exp : Time) : M Unit := do
  let token_hash ← hash_password pwd (pwd.encode refresh_token)
  RefreshTokenRepository.revoke_all_for_user user_id
  let _ ← RefreshTokenRepository.create
    { user_id := user_id, jti := jti, token_hash := token_hash, expires_at := exp }

def validate_refresh_token : Option (Row RefreshToken) → Except Err (Row RefreshToken)
  | none => .error (.http 401 "Refresh token not recognized")
  | some old_token =>
    if old_token.val.revoked then .error (.http 401 "Refresh token has been revoked")
    else .ok old_token

def revoke_refresh_token (new_token : RefreshToken) (old_token : Row RefreshToken) : M Unit := do
  let _ ← RefreshTokenRepository.create new_token
  let revoked_at ← now
  let _ ← RefreshTokenRepository.update old_token new_token.jti revoked_at

end saas
