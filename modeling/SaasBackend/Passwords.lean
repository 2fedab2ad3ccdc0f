-- Passwords over a whole run. A book of what the users have chosen is all that decides
-- over logins: the column of hashes stands for it in every state.
import SaasBackend.CodeHistory
import SaasBackend.SocialLogins

open relational async

namespace saas

/-! ## The book and the column -/

/-- The password that each account has chosen last. -/
abbrev Book := UUID → Option String

def Book.note (b : Book) (u : UUID) (password : String) : Book :=
  fun v => if v = u then some password else b v

def World.password_hash (w : World) (u : UUID) : Option String :=
  (w.db.users.byId u).bind fun r => r.val.password

/-- A hash of the password with some salt, and null for no password. -/
def HashOf (pwd : PwdContext) : Option String → Option String → Prop
  | none, hashed => hashed = none
  | some password, hashed => ∃ salt, hashed = some (pwd.hash salt password)

/-- The column stands for the book. -/
def Book.Backs (pwd : PwdContext) (b : Book) (w : World) : Prop :=
  ∀ u, HashOf pwd (b u) (w.password_hash u)

section

variable {pwd : PwdContext} {b : Book} {w w' : World}

theorem Book.Backs.of_same (h : b.Backs pwd w) (hs : w'.password_hash = w.password_hash) :
    b.Backs pwd w' := by
  intro u
  rw [hs]
  exact h u

theorem World.password_hash_update (w : World) (i : UUID) (p : UserPatch) (u : UUID) :
    (w.update_user i p).password_hash u = (w.db.users.byId u).bind fun r =>
      (if u = i then p.apply r.val else r.val).password := by
  unfold password_hash
  change ((w.db.users.update i p.apply p.keys).byId u).bind _ = _
  rw [Table.byId_update]
  rcases hu : w.db.users.byId u with _ | r
  · rfl
  · have hid := (Table.byId_eq_some.mp hu).2
    subst hid
    by_cases hi : r.id = i
    · simp [Table.updateRow_of_eq hi, hi]
    · simp [Table.updateRow_of_ne hi, hi]

/-- Patches of other columns. -/
theorem World.password_hash_patch {i : UUID} {p : UserPatch}
    (hp : ∀ a, (p.apply a).password = a.password) :
    (w.update_user i p).password_hash = w.password_hash := by
  funext u
  rw [password_hash_update]
  unfold password_hash
  congr 1
  funext r
  split
  · exact hp r.val
  · rfl

theorem World.password_hash_insert {a : User} {r : Row User} {db : Db}
    (h : w.db.insert_user a = .ok (r, db)) (u : UUID) :
    World.password_hash { w with db := db } u =
      if u = w.db.users.next then a.password else w.password_hash u := by
  obtain ⟨_, hf, rfl, rfl⟩ := Db.insert_user_ok h
  unfold password_hash
  change ((w.db.users.push a hf).byId u).bind _ = _
  by_cases hu : u = w.db.users.next
  · subst hu
    rw [Table.byId_push_self, if_pos rfl]
    rfl
  · rw [if_neg hu, Table.byId_push_of_ne hf hu]

theorem World.password_hash_next (w : World) : w.password_hash w.db.users.next = none := by
  unfold password_hash
  rw [Table.byId_eq_none.mpr fun r hr => Nat.ne_of_lt (w.db.users.id_lt r hr)]
  rfl

/-- A new account. -/
theorem Book.Backs.insert {a : User} {r : Row User} {db : Db} {salt : Nat} {password : String}
    (h : b.Backs pwd w) (hins : w.db.insert_user a = .ok (r, db))
    (ha : a.password = some (pwd.hash salt password)) :
    (b.note w.db.users.next password).Backs pwd { w with db := db } := by
  intro u
  rw [World.password_hash_insert hins]
  unfold Book.note
  by_cases hu : u = w.db.users.next
  · rw [if_pos hu, if_pos hu]
    exact ⟨salt, ha⟩
  · rw [if_neg hu, if_neg hu]
    exact h u

/-- A new password of an account that is there. -/
theorem Book.Backs.change {user : Row User} {salt : Nat} {password : String} (h : b.Backs pwd w)
    (hu : user ∈ w.db.users.rows) : (b.note user.id password).Backs pwd
      (w.update_user user.id (.password (pwd.hash salt password))) := by
  intro u
  rw [World.password_hash_update]
  unfold Book.note
  by_cases hid : u = user.id
  · subst hid
    simp only [if_true, Table.byId_of_mem hu]
    exact ⟨salt, rfl⟩
  · simp only [if_neg hid]
    exact h u

/-! ## Requests that leave the column alone -/

/-- No act of these touches a password. -/
structure Allowed.SparesPasswords (A : Allowed) : Prop where
  patches : ∀ i p, A.patches i p → ∀ a, (p.apply a).password = a.password
  adds : ∀ a, A.adds a → a.password = none

theorem Act.same_password {A : Allowed} (h : Act A w w') (hA : A.SparesPasswords) :
    w'.password_hash = w.password_hash := by
  have hsame : ∀ {v : World}, v.db.users = w.db.users → v.password_hash = w.password_hash := by
    intro v hv
    unfold World.password_hash
    rw [hv]
  cases h with
  | stay => rfl
  | uuid => exact hsame rfl
  | token h => exact hsame h.users
  | add_user h ha =>
    funext u
    rw [World.password_hash_insert h]
    split
    · rename_i hu
      rw [hu, World.password_hash_next]
      exact hA.adds _ ha
    · rfl
  | patch ha => exact World.password_hash_patch (hA.patches _ _ ha)
  | add_code h =>
    unfold Db.insert_code at h
    split at h
    · cases h
      exact hsame rfl
    · cases h
  | delete_codes => exact hsame rfl
  | audit h =>
    unfold Db.insert_audit at h
    split at h
    · cases h
      exact hsame rfl
    · cases h
  | stripe => exact hsame rfl

theorem same_password_of_acts {α : Type} {A : Allowed} {p : M α} (h : p.Acts (Act A))
    (hA : A.SparesPasswords) (w : World) : (p.run w).2.password_hash = w.password_hash :=
  (h.mono fun _ _ ha => ha.same_password hA).run_keeps (fun _ => rfl)
    (fun _ _ _ h h' => h'.trans h) w

/-- A social login that finds no account adds one without a password. -/
theorem UserService.find_or_register.same_password (provider : Provider) (email : Option String)
    (username : String) (w : World) :
    ((find_or_register provider email username).run w).2.password_hash = w.password_hash := by
  cases email with
  | none => rfl
  | some email =>
    unfold find_or_register
    dsimp only
    rw [Proc.run_bind_ok (UserRepository.get_by_email.spec email w)]
    rcases w.find_user email with _ | user
    · dsimp only
      unfold UserRepository.create
      rw [Proc.run_attempt]
      rcases hins : w.db.insert_user
        { email := email, username := username, password := none, provider := provider,
          is_verified := true } with e | ⟨r, db⟩
      · rfl
      · funext u
        dsimp only [Except.map]
        rw [World.password_hash_insert hins]
        split
        · rename_i hu
          rw [hu, World.password_hash_next]
        · rfl
    · rfl

/-- The rule of composition. -/
theorem same_password_bind {α β : Type} {p : M α} {k : α → M β}
    (hp : (p.run w).2.password_hash = w.password_hash)
    (hk : ∀ a v, ((k a).run v).2.password_hash = v.password_hash) :
    ((p >>= k).run w).2.password_hash = w.password_hash := by
  rw [Proc.run_bind]
  rcases hr : p.run w with ⟨e | a, w1⟩
  · rw [hr] at hp
    exact hp
  · rw [hr] at hp
    exact (hk a w1).trans hp

end

section

variable {settings : AccountSettings} {pwd : PwdContext} {user_repo : UserRepo} {w : World}

theorem spares_of_columns {L C D : Prop} {P : UUID → UserPatch → Prop}
    (h : ∀ i p, P i p → ∀ a, (p.apply a).password = a.password) :
    ({ tokens := L, codes := C, audits := D, patches := P } : Allowed).SparesPasswords :=
  ⟨h, fun _ ha => ha.elim⟩

theorem LoginRequest.same_password (request : LoginRequest) (base : Settings) (w : World) :
    ((request.prog base pwd).run w).2.password_hash = w.password_hash := by
  have hspares : ({ tokens := True, codes := True } : Allowed).SparesPasswords :=
    spares_of_columns fun _ _ h => h.elim
  have hissue : ∀ (user : Row User) (v : World),
      ((UserService.issue_tokens base pwd user).run v).2.password_hash = v.password_hash :=
    fun user v => same_password_of_acts (UserService.issue_tokens.acts trivial user) hspares v
  cases request with
  | password email password =>
    exact same_password_of_acts (UserService.login_user.acts trivial email password) hspares w
  | code email code =>
    exact same_password_of_acts (UserService.login_with_code.acts trivial trivial email code)
      hspares w
  | google callback =>
    refine same_password_bind (by simp) fun _ v => same_password_bind (by simp) fun answer v' => ?_
    exact same_password_bind (UserService.find_or_register.same_password _ _ _ v') hissue
  | github callback =>
    change ((UserService.login_with_github base pwd callback).run w).2.password_hash = _
    unfold UserService.login_with_github
    split
    · rfl
    · refine same_password_bind (by simp) fun _ v =>
        same_password_bind (by simp) fun answer v' => ?_
      exact same_password_bind (UserService.find_or_register.same_password _ _ _ v') hissue

/-! ## What requests choose -/

/-- The account and the password that the request chooses, if it succeeds. -/
def AccountRequest.choice (settings : AccountSettings) (w : World) :
    AccountRequest → Option (UUID × String)
  | .auth (.register _ _ password) => some (w.db.users.next, password)
  | .new_password token password =>
    match token.verify w.clock settings.validation_secret_key with
    | .ok payload => (UUID.parse payload.claims.sub).toOption.map fun u => (u, password)
    | .error _ => none
  | .change_password authorization _ password =>
    (authorization.user_id settings.toSettings w.clock).toOption.map fun u => (u, password)
  | _ => none

def Book.after (b : Book) : Option (UUID × String) → Book
  | some (u, password) => b.note u password
  | none => b

/-- The book after a request. -/
def AccountRequest.noted (settings : AccountSettings) (pwd : PwdContext) (user_repo : UserRepo)
    (request : AccountRequest) (w : World) (b : Book) : Book :=
  match (request.prog settings pwd user_repo).run w with
  | (.ok _, _) => b.after (request.choice settings w)
  | (.error _, _) => b

/-- An account is registered with a hash of its password, or nothing is stored. -/
theorem UserService.register_user.stores (email username password : String) (w : World) :
    (∃ e v, (register_user pwd email username password).run w = (.error e, v) ∧
      v.password_hash = w.password_hash) ∨
    ∃ a r db, (register_user pwd email username password).run w =
        (.ok r, { w with uuids := w.uuids + 1, db := db }) ∧
      w.db.insert_user a = .ok (r, db) ∧ a.password = some (pwd.hash w.uuids password) := by
  unfold register_user
  rw [Proc.run_bind_ok (UserRepository.get_by_email.spec email w)]
  rcases w.find_user email with _ | user
  · dsimp only
    rw [Proc.run_bind]
    unfold UserRepository.get_by_username
    rw [Proc.run_query]
    rcases scalar_one_or_none (w.db.users.select fun u => decide (u.username = username)) with
      e | _ | user
    · exact Or.inl ⟨e, w, rfl, rfl⟩
    · dsimp only
      rw [Proc.run_bind_ok (hash_password.spec _ _)]
      unfold UserRepository.create
      rw [Proc.run_attempt]
      rcases hins : w.db.insert_user
        { email := email, username := username, password := some (pwd.hash w.uuids password),
          provider := .LOCAL } with e | ⟨r, db⟩
      · exact Or.inl ⟨e, { w with uuids := w.uuids + 1 }, rfl, rfl⟩
      · exact Or.inr ⟨_, r, db, rfl, hins, rfl⟩
    · exact Or.inl ⟨_, w, rfl, rfl⟩
  · exact Or.inl ⟨_, w, rfl, rfl⟩

theorem UserService.validated_user.mem {token : Token} {user : Row User} {w' : World}
    (h : (validated_user settings token).run w = (.ok user, w')) : user ∈ w.db.users.rows := by
  unfold validated_user at h
  obtain ⟨payload, w1, hverify, hrest⟩ := Proc.run_bind_ok_inv h
  rw [verify_token, Proc.run_query, Prod.mk.injEq] at hverify
  obtain ⟨_, rfl⟩ := hverify
  obtain ⟨user_id, w2, hparse, hrest⟩ := Proc.run_bind_ok_inv hrest
  rw [Proc.run_ofExcept, Prod.mk.injEq] at hparse
  obtain ⟨_, rfl⟩ := hparse
  obtain ⟨found, w3, hfound, hrest⟩ := Proc.run_bind_ok_inv hrest
  rw [UserRepository.get_by_id, Proc.run_query, Prod.mk.injEq, Except.ok.injEq] at hfound
  obtain ⟨hfound, rfl⟩ := hfound
  cases found with
  | none => cases hrest
  | some found =>
    cases hrest
    exact (Table.byId_eq_some.mp hfound).1

/-- The hash of a new password is written to the row. -/
theorem hash_and_update {user : Row User} (hu : user ∈ w.db.users.rows) (password : String) :
    (hash_password pwd password >>= fun hashed =>
      UserRepository.update user (.password hashed) >>= fun _ => pure true).run w =
      (.ok true, World.update_user { w with uuids := w.uuids + 1 } user.id
        (.password (pwd.hash w.uuids password))) := by
  have hu' : user ∈ ({ w with uuids := w.uuids + 1 } : World).db.users.rows := hu
  rw [Proc.run_bind_ok (hash_password.spec _ _),
    Proc.run_bind_ok (UserRepository.update.spec (.password _) hu')]
  rfl

theorem UserService.change_password_wrong {user : Row User} {old password : String}
    (hold : user.val.password.any (pwd.verify old) = false) :
    (change_password pwd old password user).run w =
      (.error (.http 403 "Old password isn't correct."), w) := by
  unfold change_password verify_password
  rw [Proc.run_bind_ok (Proc.run_read _ w), hold]
  rfl

theorem UserService.change_password_right {user : Row User} {old password : String}
    (hold : user.val.password.any (pwd.verify old) = true) (hu : user ∈ w.db.users.rows) :
    (change_password pwd old password user).run w =
      (.ok true, World.update_user { w with uuids := w.uuids + 1 } user.id
        (.password (pwd.hash w.uuids password))) := by
  unfold change_password verify_password
  rw [Proc.run_bind_ok (Proc.run_read _ w), hold]
  exact hash_and_update hu password

/-- The salt is used up before the row is written. -/
theorem Book.Backs.change_later {b : Book} {user : Row User} {salt : Nat} {password : String}
    (h : b.Backs pwd w) (hu : user ∈ w.db.users.rows) :
    (b.after (some (user.id, password))).Backs pwd
      (World.update_user { w with uuids := w.uuids + 1 } user.id
        (.password (pwd.hash salt password))) :=
  (show b.Backs pwd { w with uuids := w.uuids + 1 } from h.of_same rfl).change hu

theorem spares_nothing : ({} : Allowed).SparesPasswords := spares_of_columns fun _ _ h => h.elim

/-- A request that chooses nothing, or fails before it does. -/
theorem AccountRequest.backs_of_same {b : Book} {request : AccountRequest} (h : b.Backs pwd w)
    (hsame : ((request.prog settings pwd user_repo).run w).2.password_hash = w.password_hash)
    (hnone : request.choice settings w = none ∨
      ∃ e v, (request.prog settings pwd user_repo).run w = (.error e, v)) :
    (request.noted settings pwd user_repo w b).Backs pwd
      ((request.prog settings pwd user_repo).run w).2 := by
  have hb : request.noted settings pwd user_repo w b = b := by
    unfold noted
    rcases hnone with hnone | ⟨e, v, hrun⟩
    · rw [hnone]
      rcases (request.prog settings pwd user_repo).run w with ⟨e | tokens, v⟩ <;> rfl
    · rw [hrun]
  rw [hb]
  exact h.of_same hsame

open AccountRequest in
theorem UserService.register_user.backs {b : Book} (h : b.Backs pwd w)
    (email username password : String) :
    (noted settings pwd user_repo (.auth (.register email username password)) w b).Backs pwd
      ((prog settings pwd user_repo (.auth (.register email username password))).run w).2 := by
  rcases UserService.register_user.stores email username password w with
    ⟨e, v, hrun, hsame⟩ | ⟨a, r, db, hrun, hins, ha⟩
  · have hprog : (prog settings pwd user_repo
        (.auth (.register email username password))).run w = (.error e, v) :=
      Proc.run_bind_error hrun _
    refine backs_of_same h ?_ (Or.inr ⟨e, v, hprog⟩)
    rw [hprog]
    exact hsame
  · obtain ⟨tokens, hprog⟩ : ∃ tokens, (prog settings pwd user_repo
        (.auth (.register email username password))).run w =
        (.ok tokens, { w with uuids := w.uuids + 2, db := db }) :=
      ⟨_, Proc.run_bind_ok hrun _⟩
    unfold noted
    rw [hprog]
    exact (h.insert hins ha).of_same rfl

open AccountRequest in
theorem UserService.new_password.backs {b : Book} (h : b.Backs pwd w) (token : Token)
    (password : String) :
    (noted settings pwd user_repo (.new_password token password) w b).Backs pwd
      ((prog settings pwd user_repo (.new_password token password)).run w).2 := by
  rcases hval : (validated_user settings token).run w with ⟨e | user, w1⟩
  · have hprog : (prog settings pwd user_repo (.new_password token password)).run w =
        (.error e, w1) := Proc.run_bind_error (Proc.run_bind_error hval _) _
    have hsame : ((validated_user settings token).run w).2.password_hash = w.password_hash :=
      same_password_of_acts (validated_user.acts token) spares_nothing w
    refine backs_of_same h ?_ (Or.inr ⟨e, w1, hprog⟩)
    rw [hprog]
    rw [hval] at hsame
    exact hsame
  · obtain ⟨hw, payload, hverify, hsub⟩ := validated_user.ok hval
    subst w1
    have hmem := validated_user.mem hval
    have hprog : (prog settings pwd user_repo (.new_password token password)).run w =
        (.ok [], World.update_user { w with uuids := w.uuids + 1 } user.id
          (.password (pwd.hash w.uuids password))) := by
      unfold prog UserService.new_password
      rw [Proc.run_bind_ok ((Proc.run_bind_ok hval _).trans (hash_and_update hmem password))]
      rfl
    have hchoice : choice settings w (.new_password token password) =
        some (user.id, password) := by
      dsimp only [choice]
      rw [hverify]
      dsimp only
      rw [hsub]
      rfl
    unfold noted
    rw [hprog, hchoice]
    exact h.change_later hmem

open AccountRequest in
theorem UserService.change_password.backs {b : Book} (h : b.Backs pwd w)
    (authorization : Authorization) (old password : String) :
    (noted settings pwd user_repo (.change_password authorization old password) w b).Backs pwd
      ((prog settings pwd user_repo (.change_password authorization old password)).run w).2 := by
  have hsame : ((get_active_user settings.toSettings authorization).run w).2.password_hash =
      w.password_hash := same_password_of_acts (get_active_user.acts authorization) spares_nothing w
  rcases hget : (get_active_user settings.toSettings authorization).run w with ⟨e | user, w1⟩
  · have hprog : (prog settings pwd user_repo (.change_password authorization old password)).run w =
        (.error e, w1) := Proc.run_bind_error hget _
    refine backs_of_same h ?_ (Or.inr ⟨e, w1, hprog⟩)
    rw [hprog]
    rw [hget] at hsame
    exact hsame
  · obtain ⟨hw, hbearer⟩ := get_active_user.ok hget
    subst w1
    have hmem := (Table.byId_eq_some.mp hbearer.account).1
    cases hold : user.val.password.any (pwd.verify old) with
    | false =>
      have hprog : (prog settings pwd user_repo
          (.change_password authorization old password)).run w =
          (.error (.http 403 "Old password isn't correct."), w) := by
        unfold prog
        rw [Proc.run_bind_ok hget, Proc.run_bind_error (change_password_wrong hold)]
      refine backs_of_same h ?_ (Or.inr ⟨_, w, hprog⟩)
      rw [hprog]
    | true =>
      have hprog : (prog settings pwd user_repo
          (.change_password authorization old password)).run w = (.ok [], World.update_user
            { w with uuids := w.uuids + 1 } user.id (.password (pwd.hash w.uuids password))) := by
        unfold prog
        rw [Proc.run_bind_ok hget, Proc.run_bind_ok (change_password_right hold hmem)]
        rfl
      have hchoice : choice settings w (.change_password authorization old password) =
          some (user.id, password) := by
        dsimp only [choice]
        rw [hbearer.token]
        rfl
      unfold noted
      rw [hprog, hchoice]
      exact h.change_later hmem

/-- A request that neither registers an account nor sets a password. -/
theorem AccountRequest.same_password {request : AccountRequest}
    (hreg : ∀ email username password, request ≠ .auth (.register email username password))
    (hnew : ∀ token password, request ≠ .new_password token password)
    (hchange : ∀ authorization old password,
      request ≠ .change_password authorization old password) :
    request.choice settings w = none ∧
      ((request.prog settings pwd user_repo).run w).2.password_hash = w.password_hash := by
  have hacts := request.acts settings pwd user_repo
  have hspares : request.allowed.SparesPasswords →
      ((request.prog settings pwd user_repo).run w).2.password_hash = w.password_hash :=
    fun hs => same_password_of_acts hacts hs w
  cases request with
  | auth request =>
    cases request with
    | register email username password => exact absurd rfl (hreg email username password)
    | login login =>
      refine ⟨rfl, ?_⟩
      rw [AccountRequest.prog_auth (by simp), Proc.run_map_snd]
      unfold AuthRequest.prog
      rw [Proc.run_map_snd]
      exact login.same_password settings.toSettings w
    | request_code email code => exact ⟨rfl, hspares (spares_of_columns fun _ _ h => h.elim)⟩
    | refresh token => exact ⟨rfl, hspares (spares_of_columns fun _ _ h => h.elim)⟩
    | deactivate authorization =>
      refine ⟨rfl, hspares (spares_of_columns ?_)⟩
      rintro i p rfl a
      rfl
    | update_user_status authorization user_id is_active =>
      refine ⟨rfl, hspares (spares_of_columns ?_)⟩
      rintro i p ⟨rfl, rfl⟩ a
      rfl
  | new_password token password => exact absurd rfl (hnew token password)
  | change_password authorization old password =>
    exact absurd rfl (hchange authorization old password)
  | verify token =>
    refine ⟨rfl, hspares (spares_of_columns ?_)⟩
    rintro i p rfl a
    rfl
  | request_verify authorization => exact ⟨rfl, hspares spares_nothing⟩
  | forget_password email => exact ⟨rfl, hspares spares_nothing⟩
  | update_user_role authorization user_id is_admin =>
    refine ⟨rfl, hspares (spares_of_columns ?_)⟩
    rintro i p ⟨rfl, rfl⟩ a
    rfl
  | verify_user authorization user_id =>
    refine ⟨rfl, hspares (spares_of_columns ?_)⟩
    rintro i p ⟨rfl, rfl⟩ a
    rfl
  | subscribe authorization plan_code =>
    refine ⟨rfl, hspares (spares_of_columns ?_)⟩
    rintro i p ⟨id, rfl⟩ a
    rfl
  | upgrade authorization plan_code =>
    refine ⟨rfl, hspares (spares_of_columns ?_)⟩
    rintro i p ⟨id, rfl⟩ a
    rfl

/-- The step lemma. -/
theorem AccountRequest.backs {b : Book} (h : b.Backs pwd w) (request : AccountRequest) :
    (request.noted settings pwd user_repo w b).Backs pwd
      ((request.prog settings pwd user_repo).run w).2 := by
  by_cases hreg : ∃ email username password, request = .auth (.register email username password)
  · obtain ⟨email, username, password, rfl⟩ := hreg
    exact UserService.register_user.backs h email username password
  · by_cases hnew : ∃ token password, request = .new_password token password
    · obtain ⟨token, password, rfl⟩ := hnew
      exact UserService.new_password.backs h token password
    · by_cases hchange : ∃ authorization old password,
        request = .change_password authorization old password
      · obtain ⟨authorization, old, password, rfl⟩ := hchange
        exact UserService.change_password.backs h authorization old password
      · push Not at hreg hnew hchange
        obtain ⟨hnone, hsame⟩ := same_password hreg hnew hchange
        exact backs_of_same h hsame (Or.inl hnone)

end

/-! ## The law -/

section

variable {settings : AccountSettings} {pwd : PwdContext} {user_repo : UserRepo}

/-- The book after the next label. -/
def AccountLabel.noted (settings : AccountSettings) (pwd : PwdContext) (user_repo : UserRepo)
    (s : Service) (b : Book) : AccountLabel → Book
  | .serve request => request.noted settings pwd user_repo s.world b
  | .tick _ => b

/-- The book after a run from `s`. -/
def Book.along (settings : AccountSettings) (pwd : PwdContext) (user_repo : UserRepo) :
    Service → Book → List AccountLabel → Book
  | _, b, [] => b
  | s, b, l :: ls =>
    along settings pwd user_repo ((service settings pwd user_repo).next s l)
      (l.noted settings pwd user_repo s b) ls

theorem Book.along_snoc {s₀ s : Service} {ls : List AccountLabel} (b : Book) (l : AccountLabel)
    (hrun : (service settings pwd user_repo).Run (fun _ _ => True) s₀ ls s) :
    along settings pwd user_repo s₀ b (ls ++ [l]) =
      l.noted settings pwd user_repo s (along settings pwd user_repo s₀ b ls) := by
  induction ls generalizing s₀ b with
  | nil =>
    rw [hrun.nil_inv]
    rfl
  | cons m ls ih =>
    obtain ⟨_, _, hrest⟩ := hrun.cons_inv
    exact ih _ hrest

/-- The run lemma: the column stands for the book. -/
theorem Book.Backs.along {s₀ s : Service} {ls : List AccountLabel} {b : Book}
    (hb : b.Backs pwd s₀.world)
    (hrun : (service settings pwd user_repo).Run (fun _ _ => True) s₀ ls s) :
    (Book.along settings pwd user_repo s₀ b ls).Backs pwd s.world := by
  induction hrun with
  | nil => exact hb
  | @snoc s ls l hrun _ _ ih =>
    rw [Book.along_snoc b l hrun]
    cases l with
    | serve request =>
      change (request.noted settings pwd user_repo s.world _).Backs pwd
        (AccountLabel.record s _).world
      rw [AccountLabel.record_world]
      exact AccountRequest.backs ih request
    | tick d => exact ih.of_same rfl

/-- A login with a password asks for the stored hash and the flag. -/
theorem UserService.login_user.ok_iff {base : Settings} {w : World} (ht : Tidy w)
    (email password : String) :
    (∃ login w', (login_user base pwd email password).run w = (.ok login, w')) ↔
      ∃ user, w.find_user email = some user ∧ user.val.is_active = true ∧
        user.val.password.any (pwd.verify password) = true := by
  unfold login_user verify_password
  rw [Proc.run_bind_ok (UserRepository.get_by_email.spec email w)]
  rcases hfound : w.find_user email with _ | user
  · constructor
    · rintro ⟨login, w', h⟩
      cases h
    · rintro ⟨user, h, _⟩
      cases h
  · dsimp only
    rw [Proc.run_bind_ok (Proc.run_read _ w)]
    cases hverify : user.val.password.any (pwd.verify password) with
    | false =>
      constructor
      · rintro ⟨login, w', h⟩
        cases h
      · rintro ⟨user', h, _, hv⟩
        cases h
        rw [hverify] at hv
        cases hv
    | true =>
      cases hactive : user.val.is_active with
      | false =>
        constructor
        · rintro ⟨login, w', h⟩
          cases h
        · rintro ⟨user', h, ha, _⟩
          cases h
          rw [hactive] at ha
          cases ha
      | true =>
        refine ⟨fun _ => ⟨user, rfl, hactive, hverify⟩, fun _ => ?_⟩
        obtain ⟨row, w', hissue, _⟩ := issue_tokens.spec base pwd ht
          (Table.has_of_mem (World.find_user_some.mp hfound).1)
        exact ⟨_, w', hissue⟩

end

namespace Sample

end Sample

end saas
