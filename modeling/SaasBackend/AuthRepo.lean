-- `auth/repository.py` and `repository.py`: the statements on accounts, login
-- codes and refresh tokens.
import SaasBackend.World

open relational async

namespace saas

/-! ## Accounts -/

/-- The columns of an account that an `UPDATE` of the service writes: never the
email or the username. -/
structure UserPatch where
  apply : User → User
  keys : ∀ u, Keyed.keys (apply u) = Keyed.keys u

namespace World

def update_user (w : World) (i : UUID) (p : UserPatch) : World :=
  { w with db := w.db.update_user i p.apply p.keys }

/-- The account with an email, if there is one. -/
def user_of_email (w : World) (email : String) : List (Row User) :=
  w.db.users.select (fun u => decide (u.email = email))

end World

namespace UserPatch

def stripe_customer (id : StripeId) : UserPatch where
  apply u := { u with stripe_customer_id := some id }
  keys _ := rfl

def active (b : Bool) : UserPatch where
  apply u := { u with is_active := b }
  keys _ := rfl

def admin (b : Bool) : UserPatch where
  apply u := { u with is_admin := b }
  keys _ := rfl

def verified (b : Bool) : UserPatch where
  apply u := { u with is_verified := b }
  keys _ := rfl

def password (hashed : String) : UserPatch where
  apply u := { u with password := some hashed }
  keys _ := rfl

end UserPatch

namespace UserRepository

def get_by_id (user_id : UUID) : M (Option (Row User)) :=
  Proc.query fun w => .ok (w.db.users.byId user_id)

def get_by_email (email : String) : M (Option (Row User)) :=
  Proc.query fun w => scalar_one_or_none (w.user_of_email email)

def get_by_username (username : String) : M (Option (Row User)) :=
  Proc.query fun w => scalar_one_or_none
    (w.db.users.select (fun u => decide (u.username = username)))

def create (user : User) : M (Row User) :=
  Proc.attempt fun w => (w.db.insert_user user).map fun (r, db) => (r, { w with db := db })

/-- `refresh` of an account. -/
def reload (i : UUID) : M (Row User) :=
  Proc.query fun w => match w.db.users.byId i with
    | some r => .ok r
    | none => .error .invalidRequestError

def update (user : Row User) (p : UserPatch) : M (Row User) := do
  Proc.write (·.update_user user.id p)
  reload user.id

theorem update.spec {w : World} {user : Row User} (p : UserPatch) (h : user ∈ w.db.users.rows) :
    (update user p).run w = (.ok ⟨user.id, p.apply user.val⟩, w.update_user user.id p) := by
  unfold update reload
  rw [Proc.run_bind_ok (Proc.run_write _ w), Proc.run_query]
  have hb : (w.update_user user.id p).db.users.byId user.id = some ⟨user.id, p.apply user.val⟩ :=
    Table.byId_update_self p.keys h
  rw [hb]

theorem update.commits (user : Row User) (p : UserPatch) : (update user p).Commits :=
  (Proc.commits_write _).before_reads fun _ => Proc.reads_query _

end UserRepository

/-! ## Login codes -/

namespace World

/-- The rows of login codes. -/
def codes (w : World) : List (Row LoginCode) := w.db.login_codes.rows

/-- The rows that `DELETE` finds. -/
def codes_of (w : World) (user_id : UUID) : List UUID :=
  (w.codes.filter (fun c => decide (c.val.user_id = user_id))).map Row.id

def delete_codes (w : World) (ids : List UUID) : World :=
  { w with db := w.db.delete_codes (fun c => decide (c.id ∈ ids)) }

end World

namespace LoginCodeRepository

def create (code : LoginCode) : M Unit :=
  Proc.attempt fun w => (w.db.insert_code code).map fun (_, db) => ((), { w with db := db })

/-- `DELETE`, and then its commit. A row that two of them have found is gone
with the first commit. -/
def delete (user_id : UUID) : M Unit := do
  let ids ← Proc.read (·.codes_of user_id)
  Proc.write (·.delete_codes ids)

/-- The newest code of two, the first of them where they are equally old. -/
def newer (a b : Row LoginCode) : Row LoginCode :=
  if a.val.created_at < b.val.created_at then b else a

def get_latest_for_user (user_id : UUID) : M (Option (Row LoginCode)) :=
  Proc.query fun w => match w.db.login_codes.select (fun c => decide (c.user_id = user_id)) with
    | [] => .ok none
    | c :: cs => .ok (some (cs.foldl newer c))

end LoginCodeRepository

/-! ## Refresh tokens -/

namespace World

/-- The rows that `DELETE` finds: those of the user that no other `DELETE` has
locked. -/
def deletable (w : World) (user_id : UUID) : List UUID :=
  (w.db.refresh_tokens.rows.filter
    (fun r => decide (r.val.user_id = user_id ∧ r.id ∉ w.token_locks))).map Row.id

def lock_tokens (w : World) (ids : List UUID) : World :=
  { w with token_locks := w.token_locks ++ ids }

/-- The commit of a `DELETE`: its rows go, and their locks. -/
def delete_tokens (w : World) (ids : List UUID) : World :=
  { w with
    db := w.db.delete_tokens (fun r => decide (r.id ∈ ids))
    token_locks := w.token_locks.filter (fun i => decide (i ∉ ids)) }

def revoke_token (w : World) (i : UUID) (by_jti : Jti) (at_ : Time) : World :=
  { w with db := w.db.revoke_token i by_jti at_ }

/-- The rows of refresh tokens. -/
def tokens (w : World) : List (Row RefreshToken) := w.db.refresh_tokens.rows

end World

namespace RefreshTokenRepository

def get_by_jti (jti : Jti) : M (Option (Row RefreshToken)) :=
  Proc.query fun w => scalar_one_or_none
    (w.db.refresh_tokens.select (fun t => decide (t.jti = jti)))

/-- `refresh` of a token row. -/
def reload (i : UUID) : M (Row RefreshToken) :=
  Proc.query fun w => match w.db.refresh_tokens.byId i with
    | some r => .ok r
    | none => .error .invalidRequestError

def create (refresh_token : RefreshToken) : M (Row RefreshToken) := do
  let r ← Proc.attempt fun w => (w.db.insert_token refresh_token).map
    fun (r, db) => (r, { w with db := db })
  reload r.id

/-- The `UPDATE` of a rotation. It waits for a `DELETE` that has locked the row,
and then finds it gone. -/
def update (refresh_token : Row RefreshToken) (replaced_by_jti : Jti) (revoked_at : Time) :
    M (Row RefreshToken) := do
  Proc.attempt fun w =>
    if w.db.refresh_tokens.Has refresh_token.id ∧ refresh_token.id ∉ w.token_locks then
      .ok ((), w.revoke_token refresh_token.id replaced_by_jti revoked_at)
    else .error .staleDataError
  reload refresh_token.id

/-- `DELETE`, and then its commit. -/
def revoke_all_for_user (user_id : UUID) : M Unit := do
  let ids ← Proc.attempt fun w => .ok (w.deletable user_id, w.lock_tokens (w.deletable user_id))
  Proc.write (·.delete_tokens ids)

end RefreshTokenRepository

end saas
