-- The statements that the requests of accounts are made of: what each request
-- may do to the tables, whatever else runs between its acts.
import SaasBackend.AuthSystem

open relational async

namespace saas

/-! ## Acts on the tokens -/

/-- Reads and new ids aside, an act of an issuing program locks rows, deletes
rows, adds one or revokes one. -/
inductive TokenStep : World → World → Prop where
  | stay (w : World) : TokenStep w w
  | uuid (w : World) : TokenStep w { w with uuids := w.uuids + 1 }
  | lock (w : World) (ids : List UUID) : TokenStep w (w.lock_tokens ids)
  | delete (w : World) (ids : List UUID) : TokenStep w (w.delete_tokens ids)
  | insert {w : World} {t : RefreshToken} {r : Row RefreshToken} {db : Db}
      (h : w.db.insert_token t = .ok (r, db)) : TokenStep w { w with db := db }
  | revoke (w : World) (i : UUID) (by_jti : Jti) (t : Time) :
      TokenStep w (w.revoke_token i by_jti t)

theorem insert_token_ok {db db' : Db} {t : RefreshToken} {r : Row RefreshToken}
    (h : db.insert_token t = .ok (r, db')) :
    r = db.refresh_tokens.newRow t ∧ db'.refresh_tokens.rows = db.refresh_tokens.rows ++ [r] ∧
      db'.refresh_tokens.next = db.refresh_tokens.next + 1 ∧ db'.users = db.users ∧
      db'.login_codes = db.login_codes := by
  unfold Db.insert_token at h
  split at h
  · cases h
    exact ⟨rfl, rfl, rfl, rfl, rfl⟩
  · cases h

theorem TokenStep.users {w w' : World} (h : TokenStep w w') : w'.db.users = w.db.users := by
  cases h with
  | insert h => exact (insert_token_ok h).2.2.2.1
  | _ => rfl

theorem TokenStep.clock {w w' : World} (h : TokenStep w w') : w'.clock = w.clock := by
  cases h <;> rfl

theorem TokenStep.codes {w w' : World} (h : TokenStep w w') :
    w'.db.login_codes = w.db.login_codes := by
  cases h with
  | insert h => exact (insert_token_ok h).2.2.2.2
  | _ => rfl

theorem RefreshTokenRepository.create.steps (t : RefreshToken) :
    (RefreshTokenRepository.create t).Acts TokenStep := by
  refine Proc.Acts.bind (Proc.Acts.attempt TokenStep.stay fun w r w' h => ?_)
    fun _ => Proc.Acts.query TokenStep.stay
  obtain ⟨⟨r', db⟩, hi, hw⟩ := map_eq_ok h
  cases hw
  exact .insert hi

theorem RefreshTokenRepository.update.steps (old : Row RefreshToken) (by_jti : Jti) (t : Time) :
    (RefreshTokenRepository.update old by_jti t).Acts TokenStep := by
  refine Proc.Acts.bind (Proc.Acts.attempt TokenStep.stay fun w r w' h => ?_)
    fun _ => Proc.Acts.query TokenStep.stay
  split at h
  · cases h
    exact .revoke w old.id by_jti t
  · cases h

theorem RefreshTokenRepository.revoke_all_for_user.steps (u : UUID) :
    (RefreshTokenRepository.revoke_all_for_user u).Acts TokenStep := by
  refine Proc.Acts.bind (Proc.Acts.attempt TokenStep.stay fun w r w' h => ?_) fun ids => ?_
  · cases h
    exact .lock w _
  · exact Proc.Acts.write TokenStep.stay fun w => .delete w ids

theorem generate_token.steps (data : Claims) (mins : Nat) (key : Secret) :
    (generate_token data mins key).Acts TokenStep := by
  refine Proc.Acts.attempt TokenStep.stay fun w a w' h => ?_
  cases h
  exact .uuid w

theorem hash_password.steps (pwd : PwdContext) (password : String) :
    (hash_password pwd password).Acts TokenStep := by
  refine Proc.Acts.attempt TokenStep.stay fun w a w' h => ?_
  cases h
  exact .uuid w

theorem UserService.issue_tokens.steps (settings : Settings) (pwd : PwdContext)
    (user : Row User) : (issue_tokens settings pwd user).Acts TokenStep := by
  refine (generate_token.steps _ _ _).bind fun _ => (generate_token.steps _ _ _).bind fun _ => ?_
  refine Proc.Acts.bind ?_ fun _ => trivial
  refine (hash_password.steps pwd _).bind fun _ => ?_
  refine (RefreshTokenRepository.revoke_all_for_user.steps _).bind fun _ => ?_
  exact (RefreshTokenRepository.create.steps _).bind fun _ => trivial

theorem UserService.rotate.steps (settings : Settings) (pwd : PwdContext) (claims : Claims)
    (old : Row RefreshToken) : (rotate settings pwd claims old).Acts TokenStep := by
  refine (generate_token.steps _ _ _).bind fun _ => (generate_token.steps _ _ _).bind fun _ => ?_
  refine (Proc.Acts.ofExcept _).bind fun _ => (hash_password.steps pwd _).bind fun _ => ?_
  refine Proc.Acts.bind ?_ fun _ => trivial
  refine (RefreshTokenRepository.create.steps _).bind fun _ => ?_
  refine Proc.Acts.bind (Proc.Acts.read TokenStep.stay) fun _ => ?_
  exact (RefreshTokenRepository.update.steps _ _ _).bind fun _ => trivial

theorem UserService.refresh_token.steps (settings : Settings) (pwd : PwdContext) (token : Token) :
    (refresh_token settings pwd token).Acts TokenStep := by
  unfold refresh_token
  by_cases hempty : token = .empty
  · rw [if_pos hempty]
    trivial
  · rw [if_neg hempty]
    refine (Proc.Acts.query TokenStep.stay).bind fun payload => ?_
    cases payload.jti with
    | none => trivial
    | some jti =>
      refine (Proc.Acts.query TokenStep.stay).bind fun old => ?_
      exact (Proc.Acts.ofExcept _).bind fun old => UserService.rotate.steps _ _ _ old

/-! ## Acts of any request -/

/-- What a request may do beside reading: whether it issues tokens, writes login
codes or audit entries, which accounts it adds, and which updates of accounts it
makes. -/
structure Allowed where
  tokens : Prop := False
  codes : Prop := False
  audits : Prop := False
  adds : User → Prop := fun _ => False
  patches : UUID → UserPatch → Prop := fun _ _ => False

/-- One statement of a request that may do `A`. What it tells Stripe is left open. -/
inductive Act (A : Allowed) : World → World → Prop where
  | stay (w : World) : Act A w w
  | uuid (w : World) : Act A w { w with uuids := w.uuids + 1 }
  | token {w w' : World} (h : TokenStep w w') (ha : A.tokens) : Act A w w'
  | add_user {w : World} {u : User} {r : Row User} {db : Db}
      (h : w.db.insert_user u = .ok (r, db)) (ha : A.adds u) : Act A w { w with db := db }
  | patch (w : World) {i : UUID} {p : UserPatch} (ha : A.patches i p) : Act A w (w.update_user i p)
  | add_code {w : World} {c : LoginCode} {r : Row LoginCode} {db : Db}
      (h : w.db.insert_code c = .ok (r, db)) (ha : A.codes) : Act A w { w with db := db }
  | delete_codes (w : World) (ids : List UUID) (ha : A.codes) : Act A w (w.delete_codes ids)
  | audit {w : World} {l : AdminAuditLog} {r : Row AdminAuditLog} {db : Db}
      (h : w.db.insert_audit l = .ok (r, db)) (ha : A.audits) : Act A w { w with db := db }
  | stripe (w : World) (s : Stripe) : Act A w { w with stripe := s }

/-- `B` allows all that `A` allows. -/
structure Allowed.Within (A B : Allowed) : Prop where
  tokens : A.tokens → B.tokens
  codes : A.codes → B.codes
  audits : A.audits → B.audits
  adds : ∀ u, A.adds u → B.adds u
  patches : ∀ i p, A.patches i p → B.patches i p

/-- No act moves the clock. -/
theorem Act.clock {A : Allowed} {w w' : World} (h : Act A w w') : w'.clock = w.clock := by
  cases h with
  | token h => exact h.clock
  | _ => rfl

theorem Act.within {A B : Allowed} {w w' : World} (h : Act A w w') (hle : A.Within B) :
    Act B w w' := by
  cases h with
  | stay => exact .stay w
  | uuid => exact .uuid w
  | token h ha => exact .token h (hle.tokens ha)
  | add_user h ha => exact .add_user h (hle.adds _ ha)
  | patch ha => exact .patch w (hle.patches _ _ ha)
  | add_code h ha => exact .add_code h (hle.codes ha)
  | delete_codes ids ha => exact .delete_codes w ids (hle.codes ha)
  | audit h ha => exact .audit h (hle.audits ha)
  | stripe s => exact .stripe w s

section

variable {A : Allowed} {settings : Settings} {pwd : PwdContext}

theorem acts_query {α : Type} (f : World → Except Err α) : (Proc.query f).Acts (Act A) :=
  Proc.Acts.query Act.stay

theorem acts_pure {α : Type} (a : α) : (pure a : M α).Acts (Act A) := trivial

theorem now.acts : now.Acts (Act A) := Proc.Acts.read Act.stay

theorem hash_password.acts (password : String) : (hash_password pwd password).Acts (Act A) := by
  refine Proc.Acts.attempt Act.stay fun w _ _ h => ?_
  cases h
  exact .uuid w

theorem verify_password.acts (password : String) (hash : Option String) :
    (verify_password pwd password hash).Acts (Act A) :=
  Proc.Acts.read Act.stay

theorem generate_token.acts (data : Claims) (mins : Nat) (key : Secret) :
    (generate_token data mins key).Acts (Act A) := by
  refine Proc.Acts.attempt Act.stay fun w _ _ h => ?_
  cases h
  exact .uuid w

namespace UserRepository

theorem create.acts {u : User} (ha : A.adds u) : (create u).Acts (Act A) := by
  refine Proc.Acts.attempt Act.stay fun w _ w' h => ?_
  obtain ⟨⟨r, db⟩, hins, hw⟩ := map_eq_ok h
  cases hw
  exact .add_user hins ha

theorem update.acts (user : Row User) {p : UserPatch} (ha : A.patches user.id p) :
    (update user p).Acts (Act A) :=
  (Proc.Acts.write Act.stay fun w => .patch w ha).bind fun _ => acts_query _

end UserRepository

namespace LoginCodeRepository

theorem create.acts (ha : A.codes) (c : LoginCode) : (create c).Acts (Act A) := by
  refine Proc.Acts.attempt Act.stay fun w _ w' h => ?_
  obtain ⟨⟨r, db⟩, hins, hw⟩ := map_eq_ok h
  cases hw
  exact .add_code hins ha

theorem delete.acts (ha : A.codes) (u : UUID) : (delete u).Acts (Act A) :=
  (Proc.Acts.read Act.stay).bind fun ids => Proc.Acts.write Act.stay fun w => .delete_codes w ids ha

end LoginCodeRepository

theorem AdminAuditLogRepository.log.acts (ha : A.audits) (entry : AdminAuditLog) :
    (AdminAuditLogRepository.log entry).Acts (Act A) := by
  refine Proc.Acts.attempt Act.stay fun w _ w' h => ?_
  obtain ⟨⟨r, db⟩, hins, hw⟩ := map_eq_ok h
  cases hw
  exact .audit hins ha

/-! ## The bearer of a request -/

theorem get_user.acts (authorization : Authorization) :
    (get_user settings authorization).Acts (Act A) := by
  refine (Proc.Acts.ofExcept _).bind fun _ => (acts_query _).bind fun _ => ?_
  exact (Proc.Acts.ofExcept _).bind fun _ => acts_query _

theorem get_active_user.acts (authorization : Authorization) :
    (get_active_user settings authorization).Acts (Act A) := by
  refine get_user.acts authorization |>.bind fun user => ?_
  cases user with
  | none => trivial
  | some user => dsimp only; split <;> trivial

theorem get_admin_user.acts (authorization : Authorization) :
    (get_admin_user settings authorization).Acts (Act A) := by
  refine get_active_user.acts authorization |>.bind fun user => ?_
  split <;> trivial

/-! ## The requests -/

/-- An account that registers. -/
def Registered (u : User) : Prop :=
  u.is_verified = false ∧ u.is_admin = false ∧ u.is_active = true

/-- An account of a social login. -/
def OfProvider (u : User) : Prop :=
  u.is_verified = true ∧ u.is_admin = false ∧ u.is_active = true

namespace UserService

theorem register_user.acts (ha : ∀ u, Registered u → A.adds u) (email username password : String) :
    (register_user pwd email username password).Acts (Act A) := by
  refine (acts_query _).bind fun found => ?_
  cases found with
  | some user => trivial
  | none =>
    refine (acts_query _).bind fun found => ?_
    cases found with
    | some user => trivial
    | none =>
      exact (hash_password.acts password).bind fun _ =>
        UserRepository.create.acts (ha _ ⟨rfl, rfl, rfl⟩)

theorem issue_tokens.acts (ha : A.tokens) (user : Row User) :
    (issue_tokens settings pwd user).Acts (Act A) :=
  (issue_tokens.steps settings pwd user).mono fun _ _ h => .token h ha

theorem login_user.acts (ha : A.tokens) (email password : String) :
    (login_user settings pwd email password).Acts (Act A) := by
  refine (acts_query _).bind fun found => ?_
  cases found with
  | none => trivial
  | some user =>
    refine (verify_password.acts _ _).bind fun verified => ?_
    cases verified with
    | false => trivial
    | true =>
      by_cases hactive : user.val.is_active = false
      · simp only [hactive, if_true]
        trivial
      · simp only [hactive, if_true]
        exact issue_tokens.acts ha user

theorem login_code.acts (ha : A.codes) (email code : String) :
    (login_code pwd email code).Acts (Act A) := by
  refine (acts_query _).bind fun found => ?_
  cases found with
  | none => trivial
  | some user =>
    refine (hash_password.acts code).bind fun _ => now.acts.bind fun _ => ?_
    refine (LoginCodeRepository.delete.acts ha _).bind fun _ => now.acts.bind fun _ => ?_
    exact (LoginCodeRepository.create.acts ha _).bind fun _ => acts_pure _

theorem login_with_code.acts (hc : A.codes) (ha : A.tokens) (email code : String) :
    (login_with_code settings pwd email code).Acts (Act A) := by
  refine (acts_query _).bind fun found => ?_
  cases found with
  | none => trivial
  | some user =>
    refine (acts_query _).bind fun latest => ?_
    cases latest with
    | none => trivial
    | some login_code =>
      refine now.acts.bind fun t => ?_
      by_cases ht : login_code.val.expires_at < t
      · simp only [ht, if_true]
        exact (LoginCodeRepository.delete.acts hc _).bind fun _ => trivial
      · simp only [ht, if_false]
        refine (verify_password.acts _ _).bind fun verified => ?_
        cases verified with
        | false => trivial
        | true =>
          refine (LoginCodeRepository.delete.acts hc _).bind fun _ => ?_
          by_cases hactive : user.val.is_active = false
          · simp only [hactive, if_true]
            trivial
          · simp only [hactive]
            exact issue_tokens.acts ha user

theorem refresh_token.acts (ha : A.tokens) (token : Token) :
    (refresh_token settings pwd token).Acts (Act A) :=
  (refresh_token.steps settings pwd token).mono fun _ _ h => .token h ha

theorem find_or_register.acts (ha : ∀ u, OfProvider u → A.adds u) (provider : Provider)
    (email : Option String) (username : String) :
    (find_or_register provider email username).Acts (Act A) := by
  cases email with
  | none => trivial
  | some email =>
    refine (acts_query _).bind fun found => ?_
    cases found with
    | some user => trivial
    | none => exact UserRepository.create.acts (ha _ ⟨rfl, rfl, rfl⟩)

theorem login_with_google.acts (ht : A.tokens) (ha : ∀ u, OfProvider u → A.adds u)
    (callback : OAuthCallback) : (login_with_google settings pwd callback).Acts (Act A) := by
  refine (Proc.Acts.ofExcept _).bind fun _ => (Proc.Acts.ofExcept _).bind fun answer => ?_
  exact (find_or_register.acts ha _ _ _).bind (issue_tokens.acts ht)

theorem login_with_github.acts (ht : A.tokens) (ha : ∀ u, OfProvider u → A.adds u)
    (callback : OAuthCallback) : (login_with_github settings pwd callback).Acts (Act A) := by
  unfold login_with_github
  by_cases herr : (given callback.error).isSome = true
  · rw [if_pos herr]
    trivial
  · rw [if_neg herr]
    refine (Proc.Acts.ofExcept _).bind fun _ => (Proc.Acts.ofExcept _).bind fun answer => ?_
    exact (find_or_register.acts ha _ _ _).bind (issue_tokens.acts ht)

theorem deactivate_user.acts {user : Row User} (ha : A.patches user.id (.active false)) :
    (deactivate_user user).Acts (Act A) :=
  (UserRepository.update.acts user ha).bind fun _ => acts_pure _

end UserService

theorem AdminUserRepository.update_user.acts {user_id : UUID} {p : UserPatch}
    (ha : A.patches user_id p) : (AdminUserRepository.update_user user_id p).Acts (Act A) := by
  refine Proc.Acts.query_bind Act.stay fun w found hfound => ?_
  cases found with
  | none => trivial
  | some user =>
    have hid : user.id = user_id := (Table.byId_eq_some.mp (Except.ok.inj hfound)).2
    exact (UserRepository.update.acts user (hid ▸ ha)).bind fun _ => acts_pure _

theorem AdminUserRepository.get_user_by_id.acts (user_id : UUID) :
    (AdminUserRepository.get_user_by_id user_id).Acts (Act A) := by
  refine (acts_query _).bind fun found => ?_
  cases found with
  | none => trivial
  | some user =>
    refine (Proc.Acts.read Act.stay).bind fun _ => (Proc.Acts.read Act.stay).bind fun _ => ?_
    exact acts_pure _

theorem UsersService.update_user_status.acts (hl : A.audits) (admin_id : UUID) {user_id : UUID}
    {is_active : Bool} (ha : A.patches user_id (.active is_active)) :
    (UsersService.update_user_status admin_id user_id is_active).Acts (Act A) := by
  refine (AdminUserRepository.get_user_by_id.acts user_id).bind fun found => ?_
  cases found with
  | none => trivial
  | some user =>
    refine (AdminUserRepository.update_user.acts ha).bind fun updated => ?_
    cases updated with
    | none => trivial
    | some user => exact (AdminAuditLogRepository.log.acts hl _).bind fun _ => acts_pure _

/-! ## What each request may do -/

def AuthRequest.allowed : AuthRequest → Allowed
  | .register _ _ _ => { adds := Registered }
  | .request_code _ _ => { codes := True }
  | .login (.password _ _) => { tokens := True }
  | .login (.code _ _) => { tokens := True, codes := True }
  | .login (.google _) => { tokens := True, adds := OfProvider }
  | .login (.github _) => { tokens := True, adds := OfProvider }
  | .refresh _ => { tokens := True }
  | .deactivate _ => { patches := fun _ p => p = .active false }
  | .update_user_status _ user_id is_active =>
    { audits := True, patches := fun i p => i = user_id ∧ p = .active is_active }

open UserService in
theorem AuthRequest.acts (settings : Settings) (pwd : PwdContext) (request : AuthRequest) :
    (request.prog settings pwd).Acts (Act request.allowed) := by
  cases request with
  | register email username password =>
    exact (register_user.acts (fun _ h => h) email username password).bind fun _ => acts_pure _
  | request_code email code => exact (login_code.acts trivial email code).bind fun _ => acts_pure _
  | login request =>
    cases request with
    | password email password =>
      exact (login_user.acts trivial email password).bind fun _ => acts_pure _
    | code email code =>
      exact (login_with_code.acts trivial trivial email code).bind fun _ => acts_pure _
    | google callback =>
      exact (login_with_google.acts trivial (fun _ h => h) callback).bind fun _ => acts_pure _
    | github callback =>
      exact (login_with_github.acts trivial (fun _ h => h) callback).bind fun _ => acts_pure _
  | refresh token => exact (refresh_token.acts trivial token).bind fun _ => acts_pure _
  | deactivate authorization =>
    refine (get_active_user.acts authorization).bind fun user => ?_
    exact (deactivate_user.acts rfl).bind fun _ => acts_pure _
  | update_user_status authorization user_id is_active =>
    refine (get_admin_user.acts authorization).bind fun admin => ?_
    exact (UsersService.update_user_status.acts trivial admin.id (And.intro rfl rfl)).bind
      fun _ => acts_pure _

end

end saas
