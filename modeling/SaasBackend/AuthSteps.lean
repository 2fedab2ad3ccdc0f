-- What one request does to the refresh tokens: most leave them alone, a login
-- puts one row in the place of all rows of its user, and a rotation adds a row
-- and revokes one.
import SaasBackend.AuthActs

open relational async

namespace saas

/-! ## Steps that issue nothing -/

/-- The token rows and their locks stay, accounts stay, the ids of tokens are
only used up, and no account is switched on but those of `o`. -/
structure Quiet (o : UUID → Prop) (w w' : World) : Prop where
  tokens : w'.db.refresh_tokens = w.db.refresh_tokens
  locks : w'.token_locks = w.token_locks
  uuids : w.uuids ≤ w'.uuids
  users : ∀ i, w.db.users.Has i → w'.db.users.Has i
  off : ∀ u, ¬ o u → w.disabled u = true → w'.disabled u = true

/-- No account is switched on. -/
def nobody (_ : UUID) : Prop := False

namespace Quiet

variable {o : UUID → Prop}

theorem refl (w : World) : Quiet o w w := ⟨rfl, rfl, Nat.le_refl _, fun _ h => h, fun _ _ h => h⟩

/-- Only the tables beside the accounts and the tokens change. -/
theorem aside {w w' : World} (htokens : w'.db.refresh_tokens = w.db.refresh_tokens)
    (hlocks : w'.token_locks = w.token_locks) (huuids : w.uuids ≤ w'.uuids)
    (husers : w'.db.users = w.db.users) : Quiet o w w' where
  tokens := htokens
  locks := hlocks
  uuids := huuids
  users _ h := husers ▸ h
  off u _ h := by
    unfold World.disabled at h ⊢
    rw [husers]
    exact h

theorem trans {w w' w'' : World} (h : Quiet o w w') (h' : Quiet o w' w'') : Quiet o w w'' where
  tokens := h'.tokens.trans h.tokens
  locks := h'.locks.trans h.locks
  uuids := Nat.le_trans h.uuids h'.uuids
  users i hi := h'.users i (h.users i hi)
  off u hu hd := h'.off u hu (h.off u hu hd)

theorem switch (w : World) (i : UUID) (b : Bool) (hb : b = true → o i) :
    Quiet o w (w.update_user i (.active b)) where
  tokens := rfl
  locks := rfl
  uuids := Nat.le_refl _
  users _ h := h.update i (UserPatch.active b).apply (UserPatch.active b).keys
  off u hu hd := by
    have hby := Table.byId_update (t := w.db.users) (j := i) (UserPatch.active b).keys u
    change Option.any _ ((w.db.users.update i _ (UserPatch.active b).keys).byId u) = true
    rw [hby]
    unfold World.disabled at hd
    rcases hr : w.db.users.byId u with _ | r
    · rw [hr] at hd
      cases hd
    · rw [hr] at hd
      by_cases hi : r.id = i
      · cases b with
        | false => simp [Table.updateRow_of_eq hi, UserPatch.active]
        | true =>
          have hu' : r.id = u := (Table.byId_eq_some.mp hr).2
          exact absurd (hu' ▸ hi ▸ hb rfl) hu
      · rw [Option.map_some, Table.updateRow_of_ne hi]
        exact hd

theorem insert_user {w : World} {u : User} {r : Row User} {db : Db}
    (h : w.db.insert_user u = .ok (r, db)) : Quiet o w { w with db := db } := by
  obtain ⟨_, hf, rfl, rfl⟩ := Db.insert_user_ok h
  refine ⟨rfl, rfl, Nat.le_refl _, fun _ hi => hi.push u hf, fun i _ hd => ?_⟩
  unfold World.disabled at hd ⊢
  rcases hr : w.db.users.byId i with _ | r
  · rw [hr] at hd
    cases hd
  · rw [hr] at hd
    change Option.any _ ((w.db.users.push u hf).byId i) = true
    rw [Table.byId_push_of_some hr]
    exact hd

theorem insert_code {w : World} {c : LoginCode} {r : Row LoginCode} {db : Db}
    (h : w.db.insert_code c = .ok (r, db)) : Quiet o w { w with db := db } := by
  unfold Db.insert_code at h
  split at h
  · cases h
    exact aside rfl rfl (Nat.le_refl _) rfl
  · cases h

theorem insert_audit {w : World} {l : AdminAuditLog} {r : Row AdminAuditLog} {db : Db}
    (h : w.db.insert_audit l = .ok (r, db)) : Quiet o w { w with db := db } := by
  unfold Db.insert_audit at h
  split at h
  · cases h
    exact aside rfl rfl (Nat.le_refl _) rfl
  · cases h

theorem next_uuid (w : World) : Quiet o w { w with uuids := w.uuids + 1 } :=
  aside rfl rfl (Nat.le_succ _) rfl

end Quiet

/-- A request that issues nothing and updates no account. -/
def Allowed.aside : Allowed where
  codes := True
  adds _ := True

theorem Act.quiet {A : Allowed} {o : UUID → Prop} {w w' : World} (h : Act A w w')
    (ht : ¬ A.tokens) (hp : ∀ i p, A.patches i p → ∃ b, p = .active b ∧ (b = true → o i)) :
    Quiet o w w' := by
  cases h with
  | stay => exact Quiet.refl w
  | uuid => exact Quiet.next_uuid w
  | token _ ha => exact absurd ha ht
  | add_user h => exact Quiet.insert_user h
  | patch ha =>
    obtain ⟨b, rfl, hb⟩ := hp _ _ ha
    exact Quiet.switch w _ b hb
  | add_code h => exact Quiet.insert_code h
  | delete_codes => exact Quiet.aside rfl rfl (Nat.le_refl _) rfl
  | audit h => exact Quiet.insert_audit h
  | stripe => exact Quiet.aside rfl rfl (Nat.le_refl _) rfl

theorem quiet_of_aside {α : Type} {o : UUID → Prop} {p : M α} (h : p.Acts (Act .aside)) :
    p.Acts (Quiet o) :=
  h.mono fun _ _ ha => ha.quiet not_false fun _ _ => False.elim

section

variable {settings : Settings} {pwd : PwdContext} {o : UUID → Prop}

theorem quiet_query {α : Type} (f : World → Except Err α) : (Proc.query f).Acts (Quiet o) :=
  quiet_of_aside (acts_query f)

theorem quiet_pure {α : Type} (a : α) : (pure a : M α).Acts (Quiet o) := trivial

theorem hash_password.quiet (password : String) : (hash_password pwd password).Acts (Quiet o) :=
  quiet_of_aside (hash_password.acts password)

theorem verify_password.quiet (password : String) (hash : Option String) :
    (verify_password pwd password hash).Acts (Quiet o) :=
  quiet_of_aside (verify_password.acts password hash)

theorem generate_token.quiet (data : Claims) (mins : Nat) (key : Secret) :
    (generate_token data mins key).Acts (Quiet o) :=
  quiet_of_aside (generate_token.acts data mins key)

theorem LoginCodeRepository.delete.quiet (u : UUID) :
    (LoginCodeRepository.delete u).Acts (Quiet o) :=
  quiet_of_aside (LoginCodeRepository.delete.acts trivial u)

theorem now.quiet : now.Acts (Quiet o) := quiet_of_aside now.acts

theorem get_active_user.quiet (authorization : Authorization) :
    (get_active_user settings authorization).Acts (Quiet o) :=
  quiet_of_aside (get_active_user.acts authorization)

theorem get_admin_user.quiet (authorization : Authorization) :
    (get_admin_user settings authorization).Acts (Quiet o) :=
  quiet_of_aside (get_admin_user.acts authorization)

namespace UserService

theorem register_user.quiet (email username password : String) :
    (register_user pwd email username password).Acts (Quiet o) :=
  quiet_of_aside (register_user.acts (fun _ _ => trivial) email username password)

theorem login_code.quiet (email code : String) : (login_code pwd email code).Acts (Quiet o) :=
  quiet_of_aside (login_code.acts trivial email code)

theorem find_or_register.quiet (provider : Provider) (email : Option String) (username : String) :
    (find_or_register provider email username).Acts (Quiet o) :=
  quiet_of_aside (find_or_register.acts (fun _ _ => trivial) provider email username)

theorem deactivate_user.quiet (user : Row User) : (deactivate_user user).Acts (Quiet o) := by
  refine (deactivate_user.acts (A := { patches := fun _ p => p = .active false }) rfl).mono ?_
  intro w w' h
  refine h.quiet not_false ?_
  rintro i p rfl
  exact ⟨false, rfl, fun hb => by cases hb⟩

end UserService

theorem UsersService.update_user_status.quiet (admin_id user_id : UUID) (is_active : Bool)
    (h : is_active = true → o user_id) :
    (UsersService.update_user_status admin_id user_id is_active).Acts (Quiet o) := by
  refine (UsersService.update_user_status.acts
    (A := { audits := True, patches := fun i p => i = user_id ∧ p = .active is_active }) trivial
    admin_id ⟨rfl, rfl⟩).mono ?_
  intro w w' ha
  refine ha.quiet not_false ?_
  rintro i p ⟨rfl, rfl⟩
  exact ⟨is_active, rfl, h⟩

end

/-! ## How a login ends -/

section

variable {settings : Settings} {pwd : PwdContext}

/-- A login takes quiet steps, and fails or comes to the end that all logins share. -/
def LeadsToIssue (settings : Settings) (pwd : PwdContext) (p : M Login) : Prop :=
  p.Leads (Quiet nobody) (fun q => ∃ user, q = UserService.issue_tokens settings pwd user)

theorem LeadsToIssue.issue (user : Row User) :
    LeadsToIssue settings pwd (UserService.issue_tokens settings pwd user) :=
  Proc.Leads.of ⟨user, rfl⟩

theorem LeadsToIssue.bind {α : Type} {p : M α} {f : α → M Login} (hp : p.Acts (Quiet nobody))
    (hf : ∀ a, LeadsToIssue settings pwd (f a)) : LeadsToIssue settings pwd (p >>= f) :=
  Proc.Leads.bind hp hf

namespace UserService

theorem login_user.leads (email password : String) :
    LeadsToIssue settings pwd (login_user settings pwd email password) := by
  refine .bind (quiet_query _) fun found => ?_
  cases found with
  | none => trivial
  | some user =>
    refine .bind (verify_password.quiet _ _) fun verified => ?_
    cases verified with
    | false => trivial
    | true =>
      by_cases hactive : user.val.is_active = false
      · simp only [hactive, if_true]
        trivial
      · simp only [hactive, if_true]
        exact .issue user

theorem login_with_code.leads (email code : String) :
    LeadsToIssue settings pwd (login_with_code settings pwd email code) := by
  refine .bind (quiet_query _) fun found => ?_
  cases found with
  | none => trivial
  | some user =>
    refine .bind (quiet_query _) fun latest => ?_
    cases latest with
    | none => trivial
    | some login_code =>
      refine .bind now.quiet fun t => ?_
      by_cases ht : login_code.val.expires_at < t
      · simp only [ht, if_true]
        exact .bind (LoginCodeRepository.delete.quiet _) fun _ => trivial
      · simp only [ht, if_false]
        refine .bind (verify_password.quiet _ _) fun verified => ?_
        cases verified with
        | false => trivial
        | true =>
          refine .bind (LoginCodeRepository.delete.quiet _) fun _ => ?_
          by_cases hactive : user.val.is_active = false
          · simp only [hactive, if_true]
            trivial
          · simp only [hactive]
            exact .issue user

theorem login_with_google.leads (callback : OAuthCallback) :
    LeadsToIssue settings pwd (login_with_google settings pwd callback) := by
  refine .bind (Proc.Acts.ofExcept _) fun _ => .bind (Proc.Acts.ofExcept _) fun answer => ?_
  exact .bind (find_or_register.quiet _ _ _) .issue

theorem login_with_github.leads (callback : OAuthCallback) :
    LeadsToIssue settings pwd (login_with_github settings pwd callback) := by
  unfold login_with_github
  by_cases herr : (given callback.error).isSome = true
  · rw [if_pos herr]
    trivial
  · rw [if_neg herr]
    refine .bind (Proc.Acts.ofExcept _) fun _ => .bind (Proc.Acts.ofExcept _) fun answer => ?_
    exact .bind (find_or_register.quiet _ _ _) .issue

end UserService

theorem LoginRequest.leads (request : LoginRequest) :
    LeadsToIssue settings pwd (request.prog settings pwd) := by
  cases request with
  | password email password => exact UserService.login_user.leads email password
  | code email code => exact UserService.login_with_code.leads email code
  | google callback => exact UserService.login_with_google.leads callback
  | github callback => exact UserService.login_with_github.leads callback

end


theorem World.disabled_of_mem {w : World} {user : Row User} (h : user ∈ w.db.users.rows) :
    w.disabled user.id = !user.val.is_active := by
  unfold World.disabled
  rw [Table.byId_of_mem h]
  rfl

theorem World.mem_user_of_email {w : World} {email : String} {user : Row User} :
    user ∈ w.user_of_email email ↔ user ∈ w.db.users.rows ∧ user.val.email = email := by
  unfold World.user_of_email
  rw [Table.mem_select, decide_eq_true_iff]

theorem mem_of_scalar_one_or_none {α : Type} {l : List α} {a : α}
    (h : scalar_one_or_none l = .ok (some a)) : a ∈ l := by
  unfold scalar_one_or_none at h
  split at h
  · cases h
  · cases h
    exact List.mem_singleton_self a
  · cases h

theorem UserRepository.get_by_email.found {email : String} {user : Row User} {w w' : World}
    (h : (UserRepository.get_by_email email).run w = (.ok (some user), w')) :
    user ∈ w.user_of_email email := by
  unfold UserRepository.get_by_email at h
  rw [Proc.run_query] at h
  exact mem_of_scalar_one_or_none (congrArg Prod.fst h)

theorem UserRepository.create.ok {u : User} {r : Row User} {w w' : World}
    (h : (UserRepository.create u).run w = (.ok r, w')) :
    r.id = w.db.users.next ∧ w'.db.users.Has r.id := by
  unfold UserRepository.create at h
  rw [Proc.run_attempt] at h
  rcases hins : w.db.insert_user u with e | ⟨r', db⟩
  · rw [hins] at h
    cases h
  · rw [hins] at h
    obtain ⟨_, hf, rfl, rfl⟩ := Db.insert_user_ok hins
    cases h
    exact ⟨rfl, Table.has_of_mem (List.mem_append_right _ (List.mem_singleton_self _))⟩

theorem World.disabled_next (w : World) : w.disabled w.db.users.next = false := by
  unfold World.disabled
  rw [Table.byId_eq_none.mpr fun r hr => Nat.ne_of_lt (w.db.users.id_lt r hr)]
  rfl

/-- A program that only reads ends where it starts. -/
theorem run_reads {α : Type} {p : M α} (h : p.Reads) {w w' : World} {r : Except Err α}
    (hr : p.run w = (r, w')) : w' = w := by
  have hw := h.run w
  rw [hr] at hw
  exact hw

section

variable {settings : Settings} {pwd : PwdContext} {K : Row User → World → Prop} {w : World}

/-- A login fails and issues nothing, or comes to the end that all logins share,
for a user that `K` admits. -/
def Issues (settings : Settings) (pwd : PwdContext) (K : Row User → World → Prop) (p : M Login)
    (w : World) : Prop :=
  (∃ e w', p.run w = (.error e, w') ∧ Quiet nobody w w') ∨
    ∃ user w', Quiet nobody w w' ∧ K user w' ∧
      p.run w = (UserService.issue_tokens settings pwd user).run w'

theorem Issues.raise (e : Err) : Issues settings pwd K (.raise e) w :=
  Or.inl ⟨e, w, rfl, Quiet.refl w⟩

theorem Issues.issue {user : Row User} (h : K user w) :
    Issues settings pwd K (UserService.issue_tokens settings pwd user) w :=
  Or.inr ⟨user, w, Quiet.refl w, h, rfl⟩

theorem Issues.bind {α : Type} {p : M α} {f : α → M Login} (hp : p.Acts (Quiet nobody))
    (h : ∀ a w', p.run w = (.ok a, w') → Quiet nobody w w' → Issues settings pwd K (f a) w') :
    Issues settings pwd K (p >>= f) w := by
  have hq := hp.run_keeps Quiet.refl (fun _ _ _ => Quiet.trans) w
  rcases hr : p.run w with ⟨e | a, w'⟩
  · rw [hr] at hq
    exact Or.inl ⟨e, w', Proc.run_bind_error hr f, hq⟩
  · rw [hr] at hq
    rcases h a w' hr hq with ⟨e, w'', he, hq'⟩ | ⟨user, w'', hq', hK, hu⟩
    · exact Or.inl ⟨e, w'', (Proc.run_bind_ok hr f).trans he, hq.trans hq'⟩
    · exact Or.inr ⟨user, w'', hq.trans hq', hK, (Proc.run_bind_ok hr f).trans hu⟩

/-- A check of what came with the request. -/
theorem Issues.check {α : Type} {x : Except Err α} {f : α → M Login}
    (h : ∀ a, x = .ok a → Issues settings pwd K (f a) w) :
    Issues settings pwd K (Proc.ofExcept x >>= f) w := by
  refine Issues.bind (Proc.Acts.ofExcept _) ?_
  intro a w' hx _
  rw [Proc.run_ofExcept, Prod.mk.injEq] at hx
  obtain ⟨hx, rfl⟩ := hx
  exact h a hx

/-- Who gets to the end of a login in state `w`: an account that is there by
then, and that is active, or has the email that a provider vouches for. -/
structure Admitted (w : World) (request : LoginRequest) (user : Row User) (w' : World) :
    Prop where
  present : w'.db.users.Has user.id
  active : w.disabled user.id = false ∨
    ∃ email, request.vouched = some email ∧ user ∈ w.user_of_email email

namespace UserService

theorem login_user.issues (email password : String) :
    Issues settings pwd (Admitted w (.password email password))
      (login_user settings pwd email password) w := by
  refine Issues.bind (quiet_query _) ?_
  intro found w1 hfound hq
  have hw1 := run_reads (Proc.reads_query _) hfound
  subst hw1
  cases found with
  | none => exact Issues.raise _
  | some user =>
    have hmem := (World.mem_user_of_email.mp (UserRepository.get_by_email.found hfound)).1
    refine Issues.bind (verify_password.quiet _ _) ?_
    intro verified w2 _ hq
    cases verified with
    | false => exact Issues.raise _
    | true =>
      by_cases ha : user.val.is_active = false
      · simp only [ha, if_true]
        exact Issues.raise _
      · simp only [ha, if_true]
        refine Issues.issue ⟨hq.users _ (Table.has_of_mem hmem), Or.inl ?_⟩
        rw [World.disabled_of_mem hmem]
        simpa using ha

theorem login_with_code.issues (email code : String) :
    Issues settings pwd (Admitted w (.code email code))
      (login_with_code settings pwd email code) w := by
  refine Issues.bind (quiet_query _) ?_
  intro found w1 hfound _
  have hw1 := run_reads (Proc.reads_query _) hfound
  subst hw1
  cases found with
  | none => exact Issues.raise _
  | some user =>
    have hmem := (World.mem_user_of_email.mp (UserRepository.get_by_email.found hfound)).1
    refine Issues.bind (quiet_query _) ?_
    intro latest w2 _ hq2
    cases latest with
    | none => exact Issues.raise _
    | some login_code =>
      refine Issues.bind now.quiet ?_
      intro t w3 _ hq3
      by_cases ht : login_code.val.expires_at < t
      · simp only [ht, if_true]
        exact Issues.bind (LoginCodeRepository.delete.quiet _) fun _ _ _ _ => Issues.raise _
      · simp only [ht, if_false]
        refine Issues.bind (verify_password.quiet _ _) ?_
        intro verified w4 _ hq4
        cases verified with
        | false => exact Issues.raise _
        | true =>
          refine Issues.bind (LoginCodeRepository.delete.quiet _) ?_
          intro _ w5 _ hq5
          by_cases ha : user.val.is_active = false
          · simp only [ha, if_true]
            exact Issues.raise _
          · simp only [ha]
            have hq := (hq2.trans hq3).trans (hq4.trans hq5)
            refine Issues.issue ⟨hq.users _ (Table.has_of_mem hmem), Or.inl ?_⟩
            rw [World.disabled_of_mem hmem]
            simpa using ha

/-- The account of a social login: found by its email, or new. -/
theorem find_or_register.ok {provider : Provider} {email : Option String} {username : String}
    {user : Row User} {w' : World}
    (h : (find_or_register provider email username).run w = (.ok user, w')) :
    w'.db.users.Has user.id ∧
      (w.disabled user.id = false ∨ ∃ e, email = some e ∧ user ∈ w.user_of_email e) := by
  cases email with
  | none => cases h
  | some email =>
    unfold find_or_register at h
    rw [Proc.run_bind] at h
    rcases hr : (UserRepository.get_by_email email).run w with ⟨e | found, w1⟩
    · rw [hr] at h
      cases h
    · have hw1 := run_reads (Proc.reads_query _) hr
      subst hw1
      rw [hr] at h
      cases found with
      | some user' =>
        have hmem := UserRepository.get_by_email.found hr
        cases h
        exact ⟨Table.has_of_mem (World.mem_user_of_email.mp hmem).1, Or.inr ⟨email, rfl, hmem⟩⟩
      | none =>
        obtain ⟨hid, hhas⟩ := UserRepository.create.ok h
        refine ⟨hhas, Or.inl ?_⟩
        rw [hid]
        exact World.disabled_next w1

theorem find_or_register.issues {request : LoginRequest} {provider : Provider}
    {email : Option String} (hv : request.vouched = email) (username : String) :
    Issues settings pwd (Admitted w request)
      (find_or_register provider email username >>= issue_tokens settings pwd) w := by
  refine Issues.bind (find_or_register.quiet _ _ _) ?_
  intro user w1 hfound _
  obtain ⟨hhas, hactive⟩ := find_or_register.ok hfound
  exact Issues.issue ⟨hhas, hv ▸ hactive⟩

theorem login_with_google.issues (callback : OAuthCallback) :
    Issues settings pwd (Admitted w (.google callback))
      (login_with_google settings pwd callback) w := by
  refine Issues.check fun _ hchecked => Issues.check fun answer hanswer => ?_
  apply find_or_register.issues
  simp only [LoginRequest.vouched, hchecked, hanswer]

theorem login_with_github.issues (callback : OAuthCallback) :
    Issues settings pwd (Admitted w (.github callback))
      (login_with_github settings pwd callback) w := by
  unfold login_with_github
  by_cases herr : (given callback.error).isSome = true
  · rw [if_pos herr]
    exact Issues.raise _
  · rw [if_neg herr]
    refine Issues.check fun _ hchecked => Issues.check fun answer hanswer => ?_
    apply find_or_register.issues
    simp only [LoginRequest.vouched, hchecked, hanswer, herr]
    rfl

end UserService

/-- All logins issue in the same way. -/
theorem LoginRequest.issues (settings : Settings) (pwd : PwdContext) (request : LoginRequest)
    (w : World) :
    Issues settings pwd (Admitted w request) (request.prog settings pwd) w := by
  cases request with
  | password email password => exact UserService.login_user.issues email password
  | code email code => exact UserService.login_with_code.issues email code
  | google callback => exact UserService.login_with_google.issues callback
  | github callback => exact UserService.login_with_github.issues callback

end

end saas
