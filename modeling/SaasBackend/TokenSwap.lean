-- Logins and refreshes that are stopped between their acts, and the rows of
-- tokens that are left: a login deletes the old rows before it stores the new
-- one, and a rotation stores the new row before it revokes the old one.
import SaasBackend.LoginCodes
import SaasBackend.RefreshRace
import SaasBackend.Stops

open relational async

namespace saas

/-! ## Acts that leave the tokens -/

/-- The rows of tokens and the clock are as they were. -/
structure Calm (w w' : World) : Prop where
  tokens : w'.db.refresh_tokens = w.db.refresh_tokens
  locks : w'.token_locks = w.token_locks
  uuids : w.uuids ≤ w'.uuids
  clock : w'.clock = w.clock

theorem Calm.refl (w : World) : Calm w w := ⟨rfl, rfl, Nat.le_refl _, rfl⟩

theorem Calm.trans {w w' w'' : World} (h : Calm w w') (h' : Calm w' w'') : Calm w w'' where
  tokens := h'.tokens.trans h.tokens
  locks := h'.locks.trans h.locks
  uuids := Nat.le_trans h.uuids h'.uuids
  clock := h'.clock.trans h.clock

theorem Act.calm {A : Allowed} {w w' : World} (h : Act A w w') (ht : ¬ A.tokens) : Calm w w' := by
  cases h with
  | stay => exact Calm.refl w
  | uuid => exact ⟨rfl, rfl, Nat.le_succ _, rfl⟩
  | token h ha => exact absurd ha ht
  | add_user h =>
    obtain ⟨_, hf, rfl, rfl⟩ := Db.insert_user_ok h
    exact ⟨rfl, rfl, Nat.le_refl _, rfl⟩
  | patch => exact ⟨rfl, rfl, Nat.le_refl _, rfl⟩
  | add_code h =>
    unfold Db.insert_code at h
    split at h
    · cases h
      exact ⟨rfl, rfl, Nat.le_refl _, rfl⟩
    · cases h
  | delete_codes => exact ⟨rfl, rfl, Nat.le_refl _, rfl⟩
  | audit h =>
    unfold Db.insert_audit at h
    split at h
    · cases h
      exact ⟨rfl, rfl, Nat.le_refl _, rfl⟩
    · cases h
  | stripe => exact ⟨rfl, rfl, Nat.le_refl _, rfl⟩

theorem calm_of_acts {α : Type} {A : Allowed} {p : M α} (h : p.Acts (Act A)) (ht : ¬ A.tokens)
    (left : Nat) (w : World) : Calm w (p.stopped left w) :=
  (h.mono fun _ _ ha => ha.calm ht).stopped Calm.refl (fun _ _ _ => Calm.trans) left w

/-- A program that ran to its end. -/
theorem calm_of_run {α : Type} {A : Allowed} {p : M α} (h : p.Acts (Act A)) (ht : ¬ A.tokens)
    (w : World) : Calm w (p.run w).2 := by
  have hc := calm_of_acts h ht 0 w
  rwa [Proc.stopped_zero] at hc

/-! ## The checks of a login -/

section

variable (pwd : PwdContext)

open UserService

/-- What comes before the tokens of a login. -/
def LoginRequest.admission : LoginRequest → M (Row User)
  | .password email plain_password => do
    match ← UserRepository.get_by_email email with
    | none => httpException 401 "Invalid email or password"
    | some user =>
      if ← verify_password pwd plain_password user.val.password then
        if user.val.is_active = false then httpException 403 "User is disabled"
        else pure user
      else httpException 401 "Invalid email or password"
  | .code email digits => do
    match ← UserRepository.get_by_email email with
    | none => httpException 400 "Invalid code or email."
    | some user =>
      match ← LoginCodeRepository.get_latest_for_user user.id with
      | none => httpException 400 "Invalid code or email."
      | some login_code =>
        let t ← now
        if login_code.val.expires_at < t then do
          LoginCodeRepository.delete user.id
          httpException 400 "Code has expired."
        else if ← verify_password pwd digits (some login_code.val.code_hash) then
          LoginCodeRepository.delete user.id
          if user.val.is_active = false then httpException 403 "User is disabled"
          else pure user
        else httpException 400 "Invalid code or email."
  | .google callback => do
    Proc.ofExcept (check_callback callback)
    let (email, username) ← Proc.ofExcept callback.answer
    find_or_register .GOOGLE email username
  | .github callback => do
    if (given callback.error).isSome then httpException 400 "GitHub authentication failed"
    else
      Proc.ofExcept (check_callback callback)
      let (email, username) ← Proc.ofExcept callback.answer
      find_or_register .GITHUB (some (email.getD (username ++ "@github.local"))) username

/-- The stored account that a login is let in to. -/
def LoginRequest.admits (w : World) : LoginRequest → Option (Row User)
  | .password email plain_password => (w.find_user email).filter fun user =>
    user.val.password.any (pwd.verify plain_password) && user.val.is_active
  | .code email digits => (w.find_user email).filter fun user =>
    ((w.latest_code user.id).any fun c =>
      decide (w.clock ≤ c.val.expires_at) && pwd.verify digits c.val.code_hash) &&
        user.val.is_active
  | request => request.vouched.bind w.find_user

end

section

variable {settings : Settings} {pwd : PwdContext} {w : World}

open UserService

/-- The last check of a login by password or by code, with the tokens behind it. -/
theorem active_then (f : Row User → M Login) (user : Row User) :
    (if user.val.is_active = false then httpException 403 "User is disabled" else f user) =
      (if user.val.is_active = false then httpException 403 "User is disabled"
        else pure user) >>= f := by
  split
  · rfl
  · rfl

theorem login_user.eq (settings : Settings) (pwd : PwdContext) (email password : String) :
    login_user settings pwd email password =
      (LoginRequest.password email password).admission pwd >>= issue_tokens settings pwd := by
  unfold login_user LoginRequest.admission
  dsimp only
  rw [Proc.bind_assoc]
  refine congrArg (_ >>= ·) (funext fun found => ?_)
  cases found with
  | none => rfl
  | some user =>
    dsimp only
    rw [Proc.bind_assoc]
    refine congrArg (_ >>= ·) (funext fun verified => ?_)
    cases verified with
    | false => rfl
    | true => exact active_then (issue_tokens settings pwd) user

theorem login_with_code.eq (settings : Settings) (pwd : PwdContext) (email code : String) :
    login_with_code settings pwd email code =
      (LoginRequest.code email code).admission pwd >>= issue_tokens settings pwd := by
  unfold login_with_code LoginRequest.admission
  dsimp only
  rw [Proc.bind_assoc]
  refine congrArg (_ >>= ·) (funext fun found => ?_)
  cases found with
  | none => rfl
  | some user =>
    dsimp only
    rw [Proc.bind_assoc]
    refine congrArg (_ >>= ·) (funext fun latest => ?_)
    cases latest with
    | none => rfl
    | some login_code =>
      dsimp only
      rw [Proc.bind_assoc]
      refine congrArg (_ >>= ·) (funext fun t => ?_)
      by_cases ht : login_code.val.expires_at < t
      · rw [if_pos ht, if_pos ht, Proc.bind_assoc]
        rfl
      · rw [if_neg ht, if_neg ht, Proc.bind_assoc]
        refine congrArg (_ >>= ·) (funext fun verified => ?_)
        cases verified with
        | false => rfl
        | true =>
          simp only [if_true]
          rw [Proc.bind_assoc]
          exact congrArg (_ >>= ·)
            (funext fun _ => active_then (issue_tokens settings pwd) user)

theorem login_with_google.eq (settings : Settings) (pwd : PwdContext) (callback : OAuthCallback) :
    login_with_google settings pwd callback =
      (LoginRequest.google callback).admission pwd >>= issue_tokens settings pwd := by
  unfold login_with_google LoginRequest.admission
  dsimp only
  rw [Proc.bind_assoc]
  refine congrArg (_ >>= ·) (funext fun _ => ?_)
  rw [Proc.bind_assoc]

theorem login_with_github.eq (settings : Settings) (pwd : PwdContext) (callback : OAuthCallback) :
    login_with_github settings pwd callback =
      (LoginRequest.github callback).admission pwd >>= issue_tokens settings pwd := by
  unfold login_with_github LoginRequest.admission
  dsimp only
  by_cases herr : (given callback.error).isSome = true
  · rw [if_pos herr, if_pos herr]
    rfl
  · rw [if_neg herr, if_neg herr, Proc.bind_assoc]
    refine congrArg (_ >>= ·) (funext fun _ => ?_)
    rw [Proc.bind_assoc]

/-- A login is its checks and its tokens. -/
theorem LoginRequest.prog_eq (settings : Settings) (pwd : PwdContext) (request : LoginRequest) :
    request.prog settings pwd = request.admission pwd >>= issue_tokens settings pwd := by
  cases request with
  | password email plain_password => exact login_user.eq settings pwd email plain_password
  | code email digits => exact login_with_code.eq settings pwd email digits
  | google callback => exact login_with_google.eq settings pwd callback
  | github callback => exact login_with_github.eq settings pwd callback

/-- No check of a login touches the tokens. -/
theorem LoginRequest.admission_acts (request : LoginRequest) :
    (request.admission pwd).Acts (Act { codes := True, adds := fun _ => True }) := by
  cases request with
  | password email password =>
    refine (acts_query _).bind fun found => ?_
    cases found with
    | none => trivial
    | some user =>
      refine (verify_password.acts _ _).bind fun verified => ?_
      cases verified with
      | false => trivial
      | true => by_cases ha : user.val.is_active = false <;> simp only [ha, if_true] <;> trivial
  | code email code =>
    refine (acts_query _).bind fun found => ?_
    cases found with
    | none => trivial
    | some user =>
      refine (acts_query _).bind fun latest => ?_
      cases latest with
      | none => trivial
      | some login_code =>
        refine now.acts.bind fun t => ?_
        by_cases ht : login_code.val.expires_at < t
        · simp only [ht, if_true]
          exact (LoginCodeRepository.delete.acts trivial _).bind fun _ => trivial
        · simp only [ht, if_false]
          refine (verify_password.acts _ _).bind fun verified => ?_
          cases verified with
          | false => trivial
          | true =>
            refine (LoginCodeRepository.delete.acts trivial _).bind fun _ => ?_
            by_cases ha : user.val.is_active = false <;> simp only [ha, if_true] <;> trivial
  | google callback =>
    refine (Proc.Acts.ofExcept _).bind fun _ => (Proc.Acts.ofExcept _).bind fun answer => ?_
    exact find_or_register.acts (fun _ _ => trivial) _ _ _
  | github callback =>
    unfold LoginRequest.admission
    by_cases herr : (given callback.error).isSome = true
    · simp only [herr, if_true]
      trivial
    · simp only [herr]
      refine (Proc.Acts.ofExcept _).bind fun _ => (Proc.Acts.ofExcept _).bind fun answer => ?_
      exact find_or_register.acts (fun _ _ => trivial) _ _ _

/-- How the checks of a login end in state `w`: the stored account that they let
in, or an account that has come with the request, or an error. -/
def LoginRequest.Checked (pwd : PwdContext) (w : World) (request : LoginRequest)
    (result : Except Err (Row User) × World) : Prop :=
  match result.1 with
  | .error _ => request.admits pwd w = none
  | .ok user => result.2.db.users.Has user.id ∧ (request.admits pwd w = some user ∨
      request.admits pwd w = none ∧ ¬ w.db.users.Has user.id)

theorem LoginRequest.Checked.created {request : LoginRequest}
    (hadmits : request.admits pwd w = none) (user : User) :
    request.Checked pwd w ((UserRepository.create user).run w) := by
  rcases hcreate : (UserRepository.create user).run w with ⟨e | r, w'⟩
  · exact hadmits
  · obtain ⟨hid, hhas⟩ := UserRepository.create.ok hcreate
    refine ⟨hhas, Or.inr ⟨hadmits, ?_⟩⟩
    rw [hid]
    rintro ⟨r, hr, hnext⟩
    exact Nat.ne_of_lt (w.db.users.id_lt r hr) hnext

theorem LoginRequest.Checked.provider {request : LoginRequest} {provider : Provider}
    {email : Option String} (hv : request.vouched = email)
    (hr : request.admits pwd w = request.vouched.bind w.find_user) (username : String) :
    request.Checked pwd w ((find_or_register provider email username).run w) := by
  cases email with
  | none =>
    change request.admits pwd w = none
    rw [hr, hv]
    rfl
  | some email =>
    have hadmits : request.admits pwd w = w.find_user email := by
      rw [hr, hv]
      rfl
    unfold find_or_register
    rw [Proc.run_bind_ok (UserRepository.get_by_email.spec email w)]
    rcases hfound : w.find_user email with _ | user
    · rw [hfound] at hadmits
      exact .created hadmits _
    · rw [hfound] at hadmits
      exact ⟨Table.has_of_mem (World.find_user_some.mp hfound).1, Or.inl hadmits⟩

/-- The last check of a login by password or by code. -/
theorem LoginRequest.Checked.active {request : LoginRequest} {email : String} {user : Row User}
    (hfound : w.find_user email = some user) (husers : w'.db.users = w.db.users)
    (hadmits : request.admits pwd w = if user.val.is_active then some user else none) :
    request.Checked pwd w
      ((if user.val.is_active = false then httpException 403 "User is disabled"
        else pure user : M (Row User)).run w') := by
  rcases ha : user.val.is_active with _ | _
  · rw [ha] at hadmits
    exact hadmits
  · rw [ha] at hadmits
    have hhas : w'.db.users.Has user.id := by
      rw [husers]
      exact Table.has_of_mem (World.find_user_some.mp hfound).1
    exact ⟨hhas, Or.inl hadmits⟩

theorem LoginRequest.Checked.password (email plain_password : String) :
    (LoginRequest.password email plain_password).Checked pwd w
      (((LoginRequest.password email plain_password).admission pwd).run w) := by
  have hadmits : (LoginRequest.password email plain_password).admits pwd w =
      (w.find_user email).filter fun user =>
        user.val.password.any (pwd.verify plain_password) && user.val.is_active := rfl
  unfold LoginRequest.admission
  dsimp only
  rw [Proc.run_bind_ok (UserRepository.get_by_email.spec email w)]
  rcases hfound : w.find_user email with _ | user
  · rw [hfound] at hadmits
    exact hadmits
  rw [hfound, Option.filter_some] at hadmits
  dsimp only
  rw [verify_password, Proc.run_bind_ok (Proc.run_read _ w)]
  rcases hv : user.val.password.any (pwd.verify plain_password) with _ | _
  · rw [hv, Bool.false_and] at hadmits
    exact hadmits
  · rw [hv, Bool.true_and] at hadmits
    exact .active hfound rfl hadmits

theorem LoginRequest.Checked.code (email digits : String) :
    (LoginRequest.code email digits).Checked pwd w
      (((LoginRequest.code email digits).admission pwd).run w) := by
  have hadmits : (LoginRequest.code email digits).admits pwd w =
      (w.find_user email).filter fun user => ((w.latest_code user.id).any fun c =>
        decide (w.clock ≤ c.val.expires_at) && pwd.verify digits c.val.code_hash) &&
          user.val.is_active := rfl
  unfold LoginRequest.admission
  dsimp only
  rw [Proc.run_bind_ok (UserRepository.get_by_email.spec email w)]
  rcases hfound : w.find_user email with _ | user
  · rw [hfound] at hadmits
    exact hadmits
  rw [hfound, Option.filter_some] at hadmits
  dsimp only
  rw [Proc.run_bind_ok (LoginCodeRepository.get_latest_for_user.spec user.id w)]
  rcases hlatest : w.latest_code user.id with _ | c
  · rw [hlatest] at hadmits
    exact hadmits
  rw [hlatest, Option.any_some] at hadmits
  dsimp only
  rw [Proc.run_bind_ok (now.spec w)]
  by_cases ht : c.val.expires_at < w.clock
  · rw [if_pos ht, Proc.run_bind_ok (LoginCodeRepository.delete.spec user.id w)]
    rw [decide_eq_false (Nat.not_le_of_lt ht), Bool.false_and, Bool.false_and] at hadmits
    exact hadmits
  rw [if_neg ht, verify_password, Proc.run_bind_ok (Proc.run_read _ w)]
  rw [decide_eq_true (Nat.le_of_not_lt ht), Bool.true_and] at hadmits
  rcases hv : pwd.verify digits c.val.code_hash with _ | _
  · rw [hv, Bool.false_and] at hadmits
    simp only [Option.any_some, hv]
    exact hadmits
  · rw [hv, Bool.true_and] at hadmits
    simp only [Option.any_some, hv, if_true]
    rw [Proc.run_bind_ok (LoginCodeRepository.delete.spec user.id w)]
    exact .active hfound rfl hadmits

/-- The end of both callbacks; `email_of` says which address the account gets. -/
theorem LoginRequest.Checked.callback {request : LoginRequest} {provider : Provider}
    (callback : OAuthCallback) (email_of : Option String → String → Option String)
    (hv : request.vouched = match check_callback callback, callback.answer with
      | .ok (), .ok (email, username) => email_of email username
      | _, _ => none)
    (hr : request.admits pwd w = request.vouched.bind w.find_user) :
    request.Checked pwd w ((do
      Proc.ofExcept (check_callback callback)
      let (email, username) ← Proc.ofExcept callback.answer
      find_or_register provider (email_of email username) username : M (Row User)).run w) := by
  rcases hcheck : check_callback callback with e | ⟨⟩
  · simp only [hcheck] at hv
    rw [hv] at hr
    exact hr
  rcases hanswer : callback.answer with e | ⟨email, username⟩
  · simp only [hcheck, hanswer] at hv
    rw [hv] at hr
    exact hr
  · simp only [hcheck, hanswer] at hv
    exact .provider hv hr username

theorem LoginRequest.checked (pwd : PwdContext) (w : World) (request : LoginRequest) :
    request.Checked pwd w ((request.admission pwd).run w) := by
  cases request with
  | password email plain_password => exact .password email plain_password
  | code email digits => exact .code email digits
  | google callback => exact .callback callback (fun email _ => email) rfl rfl
  | github callback =>
    unfold LoginRequest.admission
    dsimp only
    by_cases herr : (given callback.error).isSome = true
    · have hv : (LoginRequest.github callback).vouched = none := by
        rw [LoginRequest.vouched, if_pos herr]
      rw [if_pos herr]
      exact congrArg (·.bind w.find_user) hv
    · rw [if_neg herr]
      exact .callback callback
        (fun email username => some (email.getD (username ++ "@github.local"))) (if_neg herr) rfl

/-! ## The two ends, act by act -/

/-- What a stopped request leaves: the rows, and a clock that has not moved. -/
structure Leaving (w : World) (rows : List (Row RefreshToken)) (w' : World) : Prop where
  tokens : w'.tokens = rows
  uuids : w.uuids ≤ w'.uuids
  clock : w'.clock = w.clock

/-- The row of a new token of `u`, which is accepted at once. -/
structure Fresh (w : World) (u : UUID) (row : Row RefreshToken) (w' : World) : Prop where
  user_id : row.val.user_id = u
  new : ∀ r ∈ w.tokens, r.val.jti ≠ row.val.jti
  used : row.val.jti < w'.uuids
  live : row.val.revoked = false
  unexpired : timegm w.clock ≤ timegm row.val.expires_at

/-- Both ends draw three ids, and give the row the second of them. -/
theorem Fresh.of_stored {u : UUID} {row : Row RefreshToken} {token_hash : String} {mins : Nat}
    (ht : Tidy w) (huuids : w'.uuids = w.uuids + 3)
    (hval : row.val =
      { user_id := u, jti := w.uuids + 1, token_hash := token_hash,
        expires_at := w.clock + minutes mins }) : Fresh w u row w' := by
  refine ⟨by rw [hval], fun r hr => ?_, ?_, by rw [hval], ?_⟩
  · rw [hval]
    exact Nat.ne_of_lt (Nat.lt_succ_of_lt (ht.jti_lt r hr))
  · rw [hval, huuids]
    exact Nat.add_lt_add_left (by decide) w.uuids
  · rw [hval]
    exact Nat.div_le_div_right (Nat.le_add_right _ _)

/-- A write and the read of what it wrote: two acts, of which the first commits. -/
theorem stops_write {α β : Type} {f : World → Except Err (α × World)} {g : α → M β} {w w' : World}
    {b : β} (hrun : (Proc.attempt f >>= g).run w = (.ok b, w')) (hg : ∀ a, (g a).Reads)
    (hsteps : ∀ a v, (g a).steps v = 1) :
    (Proc.attempt f >>= g).steps w = 2 ∧
      ∀ left, (left ≤ 1 → (Proc.attempt f >>= g).stopped left w = w') ∧
        (2 ≤ left → (Proc.attempt f >>= g).stopped left w = w) := by
  obtain ⟨a, v, ha, hrest⟩ := Proc.run_bind_ok_inv hrun
  have hv : v = w' := by
    have hlast := (hg a).run v
    rw [hrest] at hlast
    exact hlast.symm
  subst hv
  have htotal : (Proc.attempt f >>= g).steps w = 2 := by
    rw [Proc.steps_bind_ok ha, Proc.steps_attempt, hsteps]
  refine ⟨htotal, fun left => ⟨fun hleft => ?_, fun hleft => ?_⟩⟩
  · rw [Proc.stopped_bind_late ha (by rw [hsteps]; exact hleft), (hg a).stopped]
  · exact Proc.stopped_of_le (by omega)

theorem create.stops {t : RefreshToken} {row : Row RefreshToken} {w' : World}
    (hrun : (RefreshTokenRepository.create t).run w = (.ok row, w')) :
    (RefreshTokenRepository.create t).steps w = 2 ∧
      ∀ left, (left ≤ 1 → (RefreshTokenRepository.create t).stopped left w = w') ∧
        (2 ≤ left → (RefreshTokenRepository.create t).stopped left w = w) :=
  stops_write hrun (fun _ => Proc.reads_query _) fun _ _ => Proc.steps_query _ _

theorem update.stops {old row : Row RefreshToken} {by_jti : Jti} {t : Time} {w' : World}
    (hrun : (RefreshTokenRepository.update old by_jti t).run w = (.ok row, w')) :
    (RefreshTokenRepository.update old by_jti t).steps w = 2 ∧
      ∀ left, (left ≤ 1 → (RefreshTokenRepository.update old by_jti t).stopped left w = w') ∧
        (2 ≤ left → (RefreshTokenRepository.update old by_jti t).stopped left w = w) :=
  stops_write hrun (fun _ => Proc.reads_query _) fun _ _ => Proc.steps_query _ _

theorem issue_tokens.early {user : Row User} {n : Nat} (h : n ≤ 4) :
    Leaving w w.tokens ((issue_tokens settings pwd user).cut n w) := by
  obtain _ | _ | _ | _ | _ | n := n
  · exact ⟨rfl, Nat.le_refl _, rfl⟩
  · exact ⟨rfl, Nat.le_add_right _ 1, rfl⟩
  · exact ⟨rfl, Nat.le_add_right _ 2, rfl⟩
  · exact ⟨rfl, Nat.le_add_right _ 3, rfl⟩
  · exact ⟨rfl, Nat.le_add_right _ 3, rfl⟩
  · omega

/-- The end of a login, stopped: nothing is done, or the old rows are gone, or the
new one is there. -/
theorem issue_tokens.stops (settings : Settings) (pwd : PwdContext) {user : Row User}
    (ht : Tidy w) (hu : w.db.users.Has user.id) :
    (issue_tokens settings pwd user).steps w = 7 ∧
      ∀ left, (3 ≤ left → Leaving w w.tokens ((issue_tokens settings pwd user).stopped left w)) ∧
        (left = 2 → Leaving w (w.tokens.filter fun r => decide (r.val.user_id ≠ user.id))
          ((issue_tokens settings pwd user).stopped left w)) ∧
        (left ≤ 1 → ∃ row,
          Fresh w user.id row ((issue_tokens settings pwd user).stopped left w) ∧
          Leaving w (w.tokens.filter (fun r => decide (r.val.user_id ≠ user.id)) ++ [row])
            ((issue_tokens settings pwd user).stopped left w)) := by
  -- the state after the first five acts, and what is left then
  obtain ⟨w₅, hdelete, htokens, hlocks, huuids, hclock, husers⟩ :=
    RefreshTokenRepository.revoke_all_for_user.spec (u := user.id)
      (w := { w with uuids := w.uuids + 3 }) ht.unlocked
  let t : RefreshToken :=
    { user_id := user.id, jti := w.uuids + 1,
      token_hash := pwd.hash (w.uuids + 2)
        (pwd.encode (new_tokens settings (user_data user) w).refresh_token),
      expires_at := w.clock + minutes settings.refresh_token_expire }
  have hfit : w₅.db.refresh_tokens.Fits t := by
    apply fits_of_new_jti
    intro r hr
    rw [htokens] at hr
    exact Nat.ne_of_lt (Nat.lt_succ_of_lt (ht.jti_lt r (List.mem_of_mem_filter hr)))
  obtain ⟨row, w₆, hcreate, hval, hins⟩ := RefreshTokenRepository.create.spec hfit (husers ▸ hu)
  let rest : M Login := (RefreshTokenRepository.create t >>= fun _ => pure ()) >>= fun _ =>
    pure ⟨new_tokens settings (user_data user) w, user⟩
  have hw₅ : (RefreshTokenRepository.revoke_all_for_user user.id).run
      { w with uuids := w.uuids + 3 } = (.ok (), (issue_tokens settings pwd user).cut 5 w) := rfl
  have hfive : (issue_tokens settings pwd user).cut 5 w = w₅ := by
    rw [hdelete, Prod.mk.injEq] at hw₅
    exact hw₅.2.symm
  have hcut : ∀ n, (issue_tokens settings pwd user).cut (5 + n) w =
      rest.cut n ((issue_tokens settings pwd user).cut 5 w) := fun n => by
    rw [Nat.add_comm]
    rfl
  have hseven : (issue_tokens settings pwd user).steps w =
      rest.steps ((issue_tokens settings pwd user).cut 5 w) + 5 := rfl
  rw [hfive] at hcut hseven
  obtain ⟨htwo, hparts⟩ := create.stops hcreate
  have hrest : rest.steps w₅ = 2 := by
    rw [Proc.steps_map, Proc.steps_map, htwo]
  have hlate : ∀ left, left ≤ 2 → (issue_tokens settings pwd user).stopped left w =
      (RefreshTokenRepository.create t).stopped left w₅ := by
    intro left hleft
    have hcount : 2 + 5 - left = 5 + (2 - left) := by omega
    have hmap : rest.stopped left w₅ = (RefreshTokenRepository.create t).stopped left w₅ := by
      rw [Proc.stopped_map, Proc.stopped_map]
    rw [← hmap]
    unfold Proc.stopped
    rw [hseven, hrest, hcount, hcut]
  refine ⟨by rw [hseven, hrest], fun left => ⟨fun hleft => ?_, fun hleft => ?_, fun hleft => ?_⟩⟩
  · unfold Proc.stopped
    rw [hseven, hrest]
    exact issue_tokens.early (by omega)
  · rw [hlate left (by omega), (hparts left).2 (by omega)]
    exact ⟨htokens, by rw [huuids]; exact Nat.le_add_right _ 3, hclock⟩
  · rw [hlate left (by omega), (hparts left).1 hleft]
    refine ⟨row, .of_stored ht (hins.uuids.trans huuids) hval, ?_, ?_, ?_⟩
    · rw [hins.tokens, htokens]
      rfl
    · rw [hins.uuids, huuids]
      exact Nat.le_add_right _ 3
    · rw [hins.clock, hclock]

theorem rotate.early {email username : Option String} {u : UUID} {old : Row RefreshToken} {n : Nat}
    (h : n ≤ 3) :
    Leaving w w.tokens ((rotate settings pwd ⟨some (.ofUuid u), email, username⟩ old).cut n w) := by
  obtain _ | _ | _ | _ | n := n
  · exact ⟨rfl, Nat.le_refl _, rfl⟩
  · exact ⟨rfl, Nat.le_add_right _ 1, rfl⟩
  · exact ⟨rfl, Nat.le_add_right _ 2, rfl⟩
  · exact ⟨rfl, Nat.le_add_right _ 3, rfl⟩
  · omega

/-- The two writes of a rotation, stopped. -/
theorem revoke_refresh_token.stops {t : RefreshToken} {old row : Row RefreshToken} {w' : World}
    (hcreate : (RefreshTokenRepository.create t).run w = (.ok row, w')) (hold : old ∈ w'.tokens)
    (hlocks : w'.token_locks = []) :
    (revoke_refresh_token t old).steps w = 5 ∧
      ∀ left, (5 ≤ left → (revoke_refresh_token t old).stopped left w = w) ∧
        (2 ≤ left → left ≤ 4 → (revoke_refresh_token t old).stopped left w = w') ∧
        (left ≤ 1 → (revoke_refresh_token t old).stopped left w =
          w'.revoke_token old.id t.jti w'.clock) := by
  obtain ⟨r, hupdate⟩ := RefreshTokenRepository.update.spec t.jti w'.clock hold hlocks
  obtain ⟨htwo, hfirst⟩ := create.stops hcreate
  obtain ⟨htwo', hsecond⟩ := update.stops hupdate
  let second : M Unit := RefreshTokenRepository.update old t.jti w'.clock >>= fun _ => pure ()
  let rest : M Unit := now >>= fun revoked_at =>
    RefreshTokenRepository.update old t.jti revoked_at >>= fun _ => pure ()
  have hrest : rest.steps w' = 3 := by
    rw [Proc.steps_bind_ok (now.spec w'), Proc.steps_map, htwo', now, Proc.steps_read]
  have htotal : (revoke_refresh_token t old).steps w = 5 := by
    change (RefreshTokenRepository.create t >>= fun _ => rest).steps w = 5
    rw [Proc.steps_bind_ok hcreate, htwo, hrest]
  refine ⟨htotal, fun left => ⟨fun hleft => ?_, fun hlow hhigh => ?_, fun hleft => ?_⟩⟩
  · exact Proc.stopped_of_le (by omega)
  · change (RefreshTokenRepository.create t >>= fun _ => rest).stopped left w = w'
    by_cases hfour : left = 4
    · rw [Proc.stopped_bind_early hcreate (by omega), hrest]
      exact (hfirst _).1 (by omega)
    · rw [Proc.stopped_bind_late hcreate (by omega)]
      by_cases hthree : left = 3
      · exact Proc.stopped_of_le (by omega)
      · change (now >>= _).stopped left w' = w'
        rw [Proc.stopped_bind_late (now.spec w') (by rw [Proc.steps_map, htwo']; omega),
          Proc.stopped_map]
        exact (hsecond _).2 hlow
  · change (RefreshTokenRepository.create t >>= fun _ => rest).stopped left w = _
    rw [Proc.stopped_bind_late hcreate (by omega)]
    change (now >>= _).stopped left w' = _
    rw [Proc.stopped_bind_late (now.spec w') (by rw [Proc.steps_map, htwo']; omega),
      Proc.stopped_map]
    exact (hsecond _).1 hleft

/-- A rotation, stopped: nothing is done, or the new row is there beside the old
one, or the old one is revoked. -/
theorem rotate.stops (settings : Settings) (pwd : PwdContext) {claims : Claims} {u : UUID}
    {old : Row RefreshToken} (hsub : claims.sub = some (.ofUuid u)) (ht : Tidy w)
    (hu : w.db.users.Has u) (hold : old ∈ w.tokens) :
    (rotate settings pwd claims old).steps w = 8 ∧
      ∀ left,
        (5 ≤ left → Leaving w w.tokens ((rotate settings pwd claims old).stopped left w)) ∧
        (2 ≤ left → left ≤ 4 → ∃ row,
          Fresh w u row ((rotate settings pwd claims old).stopped left w) ∧
          Leaving w (w.tokens ++ [row]) ((rotate settings pwd claims old).stopped left w)) ∧
        (left ≤ 1 → ∃ row,
          Fresh w u row ((rotate settings pwd claims old).stopped left w) ∧
          Leaving w (w.tokens.map (Table.updateRow old.id
              (RefreshToken.replaced row.val.jti w.clock)) ++ [row])
            ((rotate settings pwd claims old).stopped left w)) := by
  obtain ⟨sub, email, username⟩ := claims
  dsimp only at hsub
  subst hsub
  let claims : Claims := ⟨some (.ofUuid u), email, username⟩
  let w₃ : World := { w with uuids := w.uuids + 3 }
  let t : RefreshToken :=
    { user_id := u, jti := w.uuids + 1,
      token_hash := pwd.hash (w.uuids + 2)
        (pwd.encode (new_tokens settings claims w).refresh_token),
      expires_at := w.clock + minutes settings.refresh_token_expire }
  have hfit : w₃.db.refresh_tokens.Fits t := by
    apply fits_of_new_jti
    intro r hr
    exact Nat.ne_of_lt (Nat.lt_succ_of_lt (ht.jti_lt r hr))
  obtain ⟨row, w₄, hcreate, hval, hins⟩ := RefreshTokenRepository.create.spec hfit hu
  have hold₄ : old ∈ w₄.tokens := by
    rw [hins.tokens]
    exact List.mem_append_left _ hold
  obtain ⟨hfive, hparts⟩ :=
    revoke_refresh_token.stops hcreate hold₄ (hins.locks.trans ht.unlocked)
  let rest : M TokenPair := revoke_refresh_token t old >>= fun _ =>
    pure (new_tokens settings claims w)
  have hcut : ∀ n, (rotate settings pwd claims old).cut (3 + n) w = rest.cut n w₃ := fun n => by
    rw [Nat.add_comm]
    rfl
  have height : (rotate settings pwd claims old).steps w = rest.steps w₃ + 3 := rfl
  have hrest : rest.steps w₃ = 5 := by
    rw [Proc.steps_map, hfive]
  have hlate : ∀ left, left ≤ 5 → (rotate settings pwd claims old).stopped left w =
      (revoke_refresh_token t old).stopped left w₃ := by
    intro left hleft
    have hcount : 5 + 3 - left = 3 + (5 - left) := by omega
    have hmap : rest.stopped left w₃ = (revoke_refresh_token t old).stopped left w₃ :=
      Proc.stopped_map _ _ _ _
    rw [← hmap]
    unfold Proc.stopped
    rw [height, hrest, hcount, hcut]
  have hfresh : ∀ w', w'.uuids = w.uuids + 3 → Fresh w u row w' :=
    fun _ huuids => .of_stored ht huuids hval
  have huuids : w.uuids ≤ w.uuids + 3 := Nat.le_add_right _ 3
  refine ⟨by rw [height, hrest], fun left =>
    ⟨fun hleft => ?_, fun hlow hhigh => ?_, fun hleft => ?_⟩⟩
  · unfold Proc.stopped
    rw [height, hrest]
    exact rotate.early (by omega)
  · rw [hlate left (by omega), (hparts left).2.1 hlow hhigh]
    exact ⟨row, hfresh w₄ hins.uuids, hins.tokens, hins.uuids ▸ huuids, hins.clock⟩
  · rw [hlate left (by omega), (hparts left).2.2 hleft]
    refine ⟨row, hfresh _ hins.uuids, ?_, hins.uuids ▸ huuids, hins.clock⟩
    -- the update leaves the new row alone: its id is later than that of `old`
    have hne : row.id ≠ old.id := by
      rw [hins.id]
      exact Nat.ne_of_gt (w.db.refresh_tokens.id_lt old hold)
    change w₄.tokens.map (Table.updateRow old.id (RefreshToken.replaced t.jti w₄.clock)) = _
    rw [hins.tokens, List.map_append, List.map_singleton, Table.updateRow_of_ne hne, hins.clock,
      hval]
    rfl

end

end saas
