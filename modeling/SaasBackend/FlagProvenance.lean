-- Where the flags of an account come from: which requests write a flag, who
-- makes them, and that no other request does.
import SaasBackend.AccountSystem
import SaasBackend.LoginCodes

open relational async

namespace saas

/-! ## Flags in a state -/

/-- A flag of an account. An account that is not there yet has the flags of a
new row. -/
def World.flag (w : World) (f : Flag) (u : UUID) : Bool :=
  ((w.db.users.byId u).map fun r => f.of r.val).getD f.default

/-- Between two states a flag changes only where `T` has its account and its new
value. -/
def Sets (T : Flag → UUID → Bool → Prop) (w w' : World) : Prop :=
  ∀ f u, w'.flag f u ≠ w.flag f u → T f u (w'.flag f u)

section

variable {T : Flag → UUID → Bool → Prop} {w w' w'' : World}

theorem Sets.of_users (h : w'.db.users = w.db.users) : Sets T w w' := by
  intro f u hne
  unfold World.flag at hne
  rw [h] at hne
  exact absurd rfl hne

theorem Sets.refl (w : World) : Sets T w w := Sets.of_users rfl

theorem Sets.trans (h : Sets T w w') (h' : Sets T w' w'') : Sets T w w'' := by
  intro f u hne
  by_cases hlast : w''.flag f u = w'.flag f u
  · rw [hlast] at hne ⊢
    exact h f u hne
  · exact h' f u hlast

/-- The rule of composition. -/
theorem Sets.bind {α β : Type} {p : M α} {k : α → M β} (hp : Sets T w (p.run w).2)
    (hk : ∀ a w', p.run w = (.ok a, w') → Sets T w' ((k a).run w').2) :
    Sets T w ((p >>= k).run w).2 := by
  rw [Proc.run_bind]
  rcases hr : p.run w with ⟨e | a, w'⟩
  · rw [hr] at hp
    exact hp
  · rw [hr] at hp
    exact hp.trans (hk a w' hr)

theorem World.flag_update (w : World) (i : UUID) (p : UserPatch) (f : Flag) (u : UUID) :
    (w.update_user i p).flag f u =
      ((w.db.users.byId u).map fun r => f.of (if u = i then p.apply r.val else r.val)).getD
        f.default := by
  unfold World.flag
  change (Option.map _ ((w.db.users.update i p.apply p.keys).byId u)).getD _ = _
  rw [Table.byId_update]
  rcases hu : w.db.users.byId u with _ | r
  · rfl
  · have hid := (Table.byId_eq_some.mp hu).2
    subst hid
    by_cases hi : r.id = i
    · simp [Table.updateRow_of_eq hi, hi]
    · simp [Table.updateRow_of_ne hi, hi]

theorem World.flag_insert {a : User} {r : Row User} {db : Db}
    (h : w.db.insert_user a = .ok (r, db)) (f : Flag) (u : UUID) :
    World.flag { w with db := db } f u = if u = w.db.users.next then f.of a else w.flag f u := by
  obtain ⟨_, hf, rfl, rfl⟩ := Db.insert_user_ok h
  change (Option.map _ ((w.db.users.push a hf).byId u)).getD _ = _
  by_cases hu : u = w.db.users.next
  · subst hu
    rw [Table.byId_push_self, if_pos rfl]
    rfl
  · rw [if_neg hu, Table.byId_push_of_ne hf hu]
    rfl

theorem World.flag_next (w : World) (f : Flag) : w.flag f w.db.users.next = f.default := by
  unfold World.flag
  rw [Table.byId_eq_none.mpr fun r hr => Nat.ne_of_lt (w.db.users.id_lt r hr)]
  rfl

/-- Every flag that the acts of `A` may change is one of `T`; the accounts that
they add have the flags of a new row. -/
structure Allowed.Keeps (A : Allowed) (T : Flag → UUID → Bool → Prop) : Prop where
  patches : ∀ i p, A.patches i p → ∀ (f : Flag) a, f.of (p.apply a) ≠ f.of a →
    T f i (f.of (p.apply a))
  adds : ∀ a, A.adds a → ∀ f : Flag, f.of a = f.default

theorem Act.sets {A : Allowed} (h : Act A w w') (hA : A.Keeps T) : Sets T w w' := by
  cases h with
  | stay => exact Sets.refl w
  | uuid => exact Sets.of_users rfl
  | token h => exact Sets.of_users h.users
  | add_user h ha =>
    intro f u hne
    rw [World.flag_insert h] at hne
    by_cases hu : u = w.db.users.next
    · rw [if_pos hu, hu, World.flag_next] at hne
      exact absurd (hA.adds _ ha f) hne
    · rw [if_neg hu] at hne
      exact absurd rfl hne
  | @patch i p ha =>
    intro f u hne
    rw [World.flag_update] at hne ⊢
    unfold World.flag at hne
    rcases hu : w.db.users.byId u with _ | r
    · rw [hu] at hne
      exact absurd rfl hne
    · rw [hu] at hne
      by_cases hi : u = i
      · subst hi
        simp only [if_true, Option.map_some, Option.getD_some] at hne ⊢
        exact hA.patches u p ha f r.val hne
      · simp [hi] at hne
  | add_code h =>
    unfold Db.insert_code at h
    split at h
    · cases h
      exact Sets.of_users rfl
    · cases h
  | delete_codes => exact Sets.of_users rfl
  | audit h =>
    unfold Db.insert_audit at h
    split at h
    · cases h
      exact Sets.of_users rfl
    · cases h
  | stripe => exact Sets.of_users rfl

theorem sets_of_acts {α : Type} {A : Allowed} {p : M α} (h : p.Acts (Act A)) (hA : A.Keeps T)
    (w : World) : Sets T w (p.run w).2 :=
  (h.mono fun _ _ ha => ha.sets hA).run_keeps Sets.refl (fun _ _ _ => Sets.trans) w

/-! ## What kinds of acts keep -/

/-- The patch of one flag. -/
theorem Allowed.Keeps.of_flag {L : Prop} {flag : Flag} {i : UUID} {b : Bool} (h : T flag i b) :
    ({ audits := L, patches := fun j p => j = i ∧ p = flag.patch b } : Allowed).Keeps T := by
  refine ⟨?_, fun a ha => ha.elim⟩
  rintro j p ⟨rfl, rfl⟩ f a hne
  rw [Flag.of_patch] at hne ⊢
  by_cases hf : f = flag
  · subst hf
    rw [if_pos rfl]
    exact h
  · rw [if_neg hf] at hne
    exact absurd rfl hne

/-- A program that adds and updates no account. -/
theorem sets_of_aside {α : Type} {p : M α} (h : p.Acts (Act { tokens := True, codes := True }))
    (w : World) : Sets T w (p.run w).2 :=
  sets_of_acts h ⟨fun _ _ hp => hp.elim, fun _ ha => ha.elim⟩ w

/-- Patches of columns that are no flags. -/
def Allowed.columns : Allowed where
  patches _ p := (∃ hashed, p = .password hashed) ∨ ∃ id, p = .stripe_customer id

theorem sets_of_columns {α : Type} {p : M α} (h : p.Acts (Act .columns)) (w : World) :
    Sets T w (p.run w).2 := by
  refine sets_of_acts h ⟨?_, fun _ ha => ha.elim⟩ w
  rintro i p (⟨hashed, rfl⟩ | ⟨id, rfl⟩) f a hne
  · cases f <;> exact absurd rfl hne
  · cases f <;> exact absurd rfl hne

/-- A check that passes, and what follows it. -/
theorem Sets.of_except {α β : Type} {x : Except Err α} {k : α → M β}
    (hk : ∀ a, x = .ok a → Sets T w ((k a).run w).2) :
    Sets T w ((Proc.ofExcept x >>= k).run w).2 := by
  cases x with
  | error e => exact Sets.refl w
  | ok a => exact hk a rfl

end

/-! ## Who may write which flag -/

/-- In state `w` the request may give the flag of the account the value. -/
inductive Writes (settings : AccountSettings) (w : World) :
    AccountRequest → Flag → UUID → Bool → Prop where
  | update_user_role {authorization : Authorization} {admin : Row User} {u : UUID} {b : Bool}
      (h : AdminBearer settings.toSettings w authorization admin) :
      Writes settings w (.update_user_role authorization u b) .is_admin u b
  | update_user_status {authorization : Authorization} {admin : Row User} {u : UUID} {b : Bool}
      (h : AdminBearer settings.toSettings w authorization admin) :
      Writes settings w (.auth (.update_user_status authorization u b)) .is_active u b
  | verify_user {authorization : Authorization} {admin : Row User} {u : UUID}
      (h : AdminBearer settings.toSettings w authorization admin) :
      Writes settings w (.verify_user authorization u) .is_verified u true
  /-- The token of an email is valid and names the account. -/
  | verify {token : Token} {payload : Payload} {u : UUID}
      (h : token.verify w.clock settings.validation_secret_key = .ok payload)
      (hsub : payload.claims.sub = some (.ofUuid u)) :
      Writes settings w (.verify token) .is_verified u true
  /-- A provider vouches for an email that no account has: the account is new. -/
  | login {request : LoginRequest} {email : String} (h : request.vouched = some email)
      (hnew : w.find_user email = none) :
      Writes settings w (.auth (.login request)) .is_verified w.db.users.next true
  | deactivate {authorization : Authorization} {user : Row User}
      (h : Bearer settings.toSettings w authorization user) :
      Writes settings w (.auth (.deactivate authorization)) .is_active user.id false

section

variable {settings : AccountSettings} {pwd : PwdContext} {user_repo : UserRepo} {w : World}
  {request : AccountRequest}

/-- A request writes flags of one account at most. -/
theorem Writes.one_account {f g : Flag} {u v : UUID} {b c : Bool}
    (h : Writes settings w request f u b) (h' : Writes settings w request g v c) : u = v := by
  cases h with
  | deactivate h =>
    cases h' with
    | deactivate h' => exact h.same_user h'
  | verify h hsub =>
    cases h' with
    | verify h' hsub' =>
      rw [h, Except.ok.injEq] at h'
      subst h'
      rw [hsub] at hsub'
      cases hsub'
      rfl
  | update_user_role => cases h'; rfl
  | update_user_status => cases h'; rfl
  | verify_user => cases h'; rfl
  | login => cases h'; rfl

/-- No request takes the verification back. -/
theorem Writes.verified {u : UUID} {b : Bool} (h : Writes settings w request .is_verified u b) :
    b = true := by
  cases h <;> rfl

/-! ## The requests -/

theorem UUID.parse_eq_ok {text : Option UuidText} {u : UUID} :
    UUID.parse text = .ok u ↔ text = some (.ofUuid u) := by
  rcases text with _ | v | _ <;> simp [UUID.parse]

theorem UserService.validated_user.ok {token : Token} {user : Row User} {w' : World}
    (h : (validated_user settings token).run w = (.ok user, w')) :
    w' = w ∧ ∃ payload, token.verify w.clock settings.validation_secret_key = .ok payload ∧
      payload.claims.sub = some (.ofUuid user.id) := by
  unfold validated_user at h
  obtain ⟨payload, w1, hverify, hrest⟩ := Proc.run_bind_ok_inv h
  rw [verify_token, Proc.run_query, Prod.mk.injEq] at hverify
  obtain ⟨hverify, rfl⟩ := hverify
  obtain ⟨user_id, w2, hparse, hrest⟩ := Proc.run_bind_ok_inv hrest
  rw [Proc.run_ofExcept, Prod.mk.injEq, UUID.parse_eq_ok] at hparse
  obtain ⟨hparse, rfl⟩ := hparse
  obtain ⟨found, w3, hfound, hrest⟩ := Proc.run_bind_ok_inv hrest
  rw [UserRepository.get_by_id, Proc.run_query, Prod.mk.injEq, Except.ok.injEq] at hfound
  obtain ⟨hfound, rfl⟩ := hfound
  cases found with
  | none => cases hrest
  | some found =>
    cases hrest
    rw [(Table.byId_eq_some.mp hfound).2]
    exact ⟨rfl, payload, hverify, hparse⟩

theorem UserService.validate_user.sets {T : Flag → UUID → Bool → Prop} {token : Token}
    (hT : ∀ payload u, token.verify w.clock settings.validation_secret_key = .ok payload →
      payload.claims.sub = some (.ofUuid u) → T .is_verified u true) :
    Sets T w ((validate_user settings token).run w).2 := by
  refine Sets.bind (sets_of_aside (validated_user.acts token) w) ?_
  intro user w' huser
  obtain ⟨rfl, payload, hverify, hsub⟩ := validated_user.ok huser
  by_cases hv : user.val.is_verified = true
  · rw [if_pos hv]
    exact Sets.refl _
  · rw [if_neg hv]
    refine sets_of_acts ((UserRepository.update.acts user ?_).bind fun _ => acts_pure _)
      (.of_flag (L := False) (hT payload user.id hverify hsub)) _
    exact ⟨rfl, rfl⟩

/-- A social login adds an account only where it finds none. -/
theorem UserService.find_or_register.sets {T : Flag → UUID → Bool → Prop} {provider : Provider}
    {email : Option String} {username : String}
    (hT : ∀ e, email = some e → w.find_user e = none → T .is_verified w.db.users.next true) :
    Sets T w ((find_or_register provider email username).run w).2 := by
  cases email with
  | none => exact Sets.refl w
  | some email =>
    unfold find_or_register
    dsimp only
    rw [Proc.run_bind_ok (UserRepository.get_by_email.spec email w)]
    rcases hu : w.find_user email with _ | user
    · dsimp only
      unfold UserRepository.create
      rw [Proc.run_attempt]
      rcases hins : w.db.insert_user
        { email := email, username := username, password := none, provider := provider,
          is_verified := true } with e | ⟨r, db⟩
      · exact Sets.refl w
      · intro f u hne
        dsimp only [Except.map] at hne ⊢
        rw [World.flag_insert hins] at hne ⊢
        by_cases hnext : u = w.db.users.next
        · subst hnext
          rw [if_pos rfl, World.flag_next] at hne
          rw [if_pos rfl]
          cases f with
          | is_admin => exact absurd rfl hne
          | is_verified => exact hT email rfl hu
          | is_active => exact absurd rfl hne
        · rw [if_neg hnext] at hne
          exact absurd rfl hne
    · exact Sets.refl w

/-- The accounts of a provider's callback, and the end that logins share. -/
theorem UserService.find_or_register.issue_sets {T : Flag → UUID → Bool → Prop} {base : Settings}
    {provider : Provider} {email : Option String} {username : String}
    (hT : ∀ e, email = some e → w.find_user e = none → T .is_verified w.db.users.next true) :
    Sets T w ((find_or_register provider email username >>= issue_tokens base pwd).run w).2 :=
  Sets.bind (find_or_register.sets hT) fun user w' _ =>
    sets_of_aside (issue_tokens.acts trivial user) w'

theorem LoginRequest.sets {T : Flag → UUID → Bool → Prop} {base : Settings} (login : LoginRequest)
    (hT : ∀ e, login.vouched = some e → w.find_user e = none →
      T .is_verified w.db.users.next true) :
    Sets T w ((login.prog base pwd).run w).2 := by
  cases login with
  | password email password =>
    exact sets_of_aside (UserService.login_user.acts trivial email password) w
  | code email code =>
    exact sets_of_aside (UserService.login_with_code.acts trivial trivial email code) w
  | google callback =>
    refine Sets.of_except fun _ hchecked => Sets.of_except fun answer hanswer => ?_
    refine UserService.find_or_register.issue_sets fun e he hnew => hT e ?_ hnew
    simp only [LoginRequest.vouched, hchecked, hanswer, he]
  | github callback =>
    change Sets T w ((UserService.login_with_github base pwd callback).run w).2
    unfold UserService.login_with_github
    by_cases herr : (given callback.error).isSome = true
    · rw [if_pos herr]
      exact Sets.refl w
    · rw [if_neg herr]
      refine Sets.of_except fun _ hchecked => Sets.of_except fun answer hanswer => ?_
      refine UserService.find_or_register.issue_sets fun e he hnew => hT e ?_ hnew
      simp only [LoginRequest.vouched, hchecked, hanswer, herr]
      exact he

/-- A request of an active user, whose further acts depend on who it is. -/
theorem Sets.of_active {α : Type} {T : Flag → UUID → Bool → Prop} {base : Settings}
    {authorization : Authorization} {k : Row User → M α}
    (hk : ∀ user, Bearer base w authorization user → Sets T w ((k user).run w).2) :
    Sets T w ((get_active_user base authorization >>= k).run w).2 := by
  refine Sets.bind (sets_of_aside (get_active_user.acts authorization) w) ?_
  intro user w' huser
  obtain ⟨rfl, hbearer⟩ := get_active_user.ok huser
  exact hk user hbearer

theorem Sets.of_admin {α : Type} {T : Flag → UUID → Bool → Prop} {base : Settings}
    {authorization : Authorization} {k : Row User → M α}
    (hk : ∀ admin, AdminBearer base w authorization admin → Sets T w ((k admin).run w).2) :
    Sets T w ((get_admin_user base authorization >>= k).run w).2 := by
  refine Sets.bind (sets_of_aside (get_admin_user.acts authorization) w) ?_
  intro admin w' hadmin
  obtain ⟨rfl, hbearer⟩ := get_admin_user.ok hadmin
  exact hk admin hbearer

/-- An admin's update of one flag. -/
theorem UsersService.update_flag.sets {T : Flag → UUID → Bool → Prop} {flag : Flag}
    {action : String} {admin_id user_id : UUID} {b : Bool} (hT : T flag user_id b) :
    Sets T w ((update_flag flag action admin_id user_id b).run w).2 :=
  sets_of_acts (update_flag.acts
    (A := { audits := True, patches := fun i p => i = user_id ∧ p = flag.patch b }) trivial flag
    action admin_id ⟨rfl, rfl⟩) (.of_flag hT) w

theorem Registered.flags {a : User} (h : Registered a) (f : Flag) : f.of a = f.default := by
  cases f with
  | is_admin => exact h.2.1
  | is_verified => exact h.1
  | is_active => exact h.2.2

/-- The step lemma for the requests of `AuthSystem`. -/
theorem AuthRequest.sets (request : AuthRequest) :
    Sets (Writes settings w (.auth request)) w
      ((request.prog settings.toSettings pwd).run w).2 := by
  cases request with
  | register email username password =>
    exact sets_of_acts (AuthRequest.acts _ pwd (.register email username password))
      ⟨fun _ _ h => h.elim, fun _ h => h.flags⟩ w
  | request_code email code =>
    exact sets_of_aside
      ((UserService.login_code.acts trivial email code).bind fun _ => acts_pure _) w
  | login login =>
    unfold AuthRequest.prog
    rw [Proc.run_map_snd]
    exact login.sets fun e he hnew => .login he hnew
  | refresh token =>
    exact sets_of_aside
      ((UserService.refresh_token.acts trivial token).bind fun _ => acts_pure _) w
  | deactivate authorization =>
    refine Sets.of_active fun user hbearer => ?_
    rw [Proc.run_map_snd]
    exact sets_of_acts (UserService.deactivate_user.acts
      (A := { patches := fun i p => i = user.id ∧ p = Flag.is_active.patch false }) ⟨rfl, rfl⟩)
      (.of_flag (.deactivate hbearer)) w
  | update_user_status authorization user_id is_active =>
    refine Sets.of_admin fun admin hbearer => ?_
    rw [Proc.run_map_snd, UsersService.update_user_status_eq]
    exact UsersService.update_flag.sets (.update_user_status hbearer)

/-- The step lemma: a request changes a flag only as `Writes` allows it. -/
theorem AccountRequest.sets (request : AccountRequest) (w : World) :
    Sets (Writes settings w request) w
      ((request.prog settings pwd user_repo).run w).2 := by
  cases request with
  | auth request =>
    by_cases hreg : ∃ email username password, request = .register email username password
    · obtain ⟨email, username, password, rfl⟩ := hreg
      refine sets_of_acts (A := { adds := Registered }) ?_
        ⟨fun _ _ h => h.elim, fun _ h => h.flags⟩ w
      refine (UserService.register_user.acts (fun _ h => h) email username password).bind
        fun user => (Emails.send_link.acts _ _ _ _ _).bind fun message => acts_pure _
    · rw [AccountRequest.prog_auth fun email username password h =>
        hreg ⟨email, username, password, h⟩, Proc.run_map_snd]
      exact AuthRequest.sets request
  | verify token =>
    unfold AccountRequest.prog
    rw [Proc.run_map_snd]
    exact UserService.validate_user.sets fun payload u h hsub => .verify h hsub
  | request_verify authorization =>
    refine sets_of_aside ((get_not_active_user.acts authorization).bind fun user => ?_) w
    split
    · exact acts_pure _
    · exact (Emails.send_link.acts _ _ _ _ _).bind fun message => acts_pure _
  | forget_password email =>
    refine sets_of_aside (Proc.Acts.bind (acts_query _) fun found => ?_) w
    cases found with
    | none => exact acts_pure _
    | some user => exact (Emails.send_link.acts _ _ _ _ _).bind fun message => acts_pure _
  | new_password token password =>
    exact sets_of_columns ((UserService.new_password.acts
      (fun _ hashed => Or.inl ⟨hashed, rfl⟩) token password).bind fun _ => acts_pure _) w
  | change_password authorization old new =>
    refine Sets.of_active fun user _ => sets_of_columns ?_ w
    exact (UserService.change_password.acts (fun hashed => Or.inl ⟨hashed, rfl⟩) old new).bind
      fun _ => acts_pure _
  | update_user_role authorization user_id is_admin =>
    refine Sets.of_admin fun admin hbearer => ?_
    rw [Proc.run_map_snd]
    exact UsersService.update_flag.sets (.update_user_role hbearer)
  | verify_user authorization user_id =>
    refine Sets.of_admin fun admin hbearer => ?_
    rw [Proc.run_map_snd]
    exact UsersService.update_flag.sets (.verify_user hbearer)
  | subscribe authorization plan_code =>
    refine Sets.of_active fun user _ => sets_of_columns ?_ w
    exact (SubscriptionService.subscribe_user_to_plan.acts (fun _ id => Or.inr ⟨id, rfl⟩) user
      plan_code).bind fun _ => acts_pure _
  | upgrade authorization plan_code =>
    refine Sets.of_active fun user _ => sets_of_columns ?_ w
    exact (SubscriptionService.upgrade_subscription.acts (fun _ id => Or.inr ⟨id, rfl⟩) user
      plan_code).bind fun _ => acts_pure _

/-! ## The law -/

variable {s₀ s t : Service} {ls : List AccountLabel} {l : AccountLabel}

/-- What one step does to the flags. -/
theorem AccountLabel.sets {f : Flag} {u : UUID}
    (hne : ((service settings pwd user_repo).next s l).world.flag f u ≠ s.world.flag f u) :
    ∃ request, l = .serve request ∧ Writes settings s.world request f u
      (((service settings pwd user_repo).next s l).world.flag f u) := by
  cases l with
  | tick d => exact absurd rfl hne
  | serve request =>
    refine ⟨request, rfl, ?_⟩
    change (AccountLabel.record s _).world.flag f u ≠ _ at hne
    change Writes settings s.world request f u ((AccountLabel.record s _).world.flag f u)
    rw [AccountLabel.record_world] at hne ⊢
    exact request.sets s.world f u hne

/-- A step changes flags of one account at most, and takes no verification
back. -/
theorem AccountLabel.one_account {f g : Flag} {u v : UUID}
    (hf : ((service settings pwd user_repo).next s l).world.flag f u ≠ s.world.flag f u)
    (hg : ((service settings pwd user_repo).next s l).world.flag g v ≠ s.world.flag g v) :
    u = v := by
  obtain ⟨request, rfl, h⟩ := AccountLabel.sets hf
  obtain ⟨request', hreq, h'⟩ := AccountLabel.sets hg
  cases hreq
  exact h.one_account h'

theorem AccountLabel.verified {u : UUID} (h : s.world.flag .is_verified u = true) :
    ((service settings pwd user_repo).next s l).world.flag .is_verified u = true := by
  by_contra hne
  rw [← h] at hne
  obtain ⟨request, rfl, hw⟩ := AccountLabel.sets hne
  exact hne (hw.verified.trans h.symm)

/-- The flags of every account, in every run: a flag has its value from the
start, or from a request that may write it, made in the state before; a step
changes flags of one account only; and a verified account stays so. -/
theorem flags_have_provenance
    (hrun : (service settings pwd user_repo).Run (fun _ _ => True) s₀ ls s) :
    (∀ f u, s.world.flag f u ≠ s₀.world.flag f u → ∃ t request,
      (service settings pwd user_repo).Took (fun _ _ => True) s₀ ls s t (.serve request) ∧
        Writes settings t.world request f u (s.world.flag f u)) ∧
    (∀ t l, (service settings pwd user_repo).Took (fun _ _ => True) s₀ ls s t l →
      ∀ f u, ((service settings pwd user_repo).next t l).world.flag f u ≠ t.world.flag f u →
        (∃ request, l = .serve request ∧ Writes settings t.world request f u
          (((service settings pwd user_repo).next t l).world.flag f u)) ∧
        ∀ g v, ((service settings pwd user_repo).next t l).world.flag g v ≠ t.world.flag g v →
          v = u) ∧
    ∀ u, s₀.world.flag .is_verified u = true → s.world.flag .is_verified u = true := by
  refine ⟨fun f u hne => ?_, fun t l _ f u hne => ⟨AccountLabel.sets hne, fun g v hg =>
    AccountLabel.one_account hg hne⟩, fun u hu => ?_⟩
  · obtain ⟨t, l, htook, hbefore, hafter⟩ := hrun.origin
      (P := fun t => t.world.flag f u = s.world.flag f u) (fun h => hne h.symm) rfl
    have hstep := AccountLabel.sets (l := l) fun h => hbefore (h.symm.trans hafter)
    obtain ⟨request, rfl, hw⟩ := hstep
    rw [hafter] at hw
    exact ⟨t, request, htook, hw⟩
  · exact hrun.invariant (I := fun t => t.world.flag .is_verified u = true) hu
      fun t l ht _ _ => AccountLabel.verified ht

end

namespace Sample

def account_settings : AccountSettings where
  toSettings := settings
  validation_secret_key := 4
  validation_token_expire := 15
  app_url := "https://app"

def root : User where
  email := "root@example.com"
  username := "root"
  password := none
  is_admin := true
  is_verified := true
  provider := .LOCAL

/-- Eva, and an admin. -/
def staffed : Service where
  world :=
    { db := Db.start (opened.world.db.users.push root (by decide)) .empty
      clock := fromtimestamp 1000 }

/-- A valid access token of an account. -/
def access_of (u : UUID) : Authorization :=
  .bearer (.signed settings.access_secret_key ⟨⟨some (.ofUuid u), none, none⟩, none, none, none⟩)

/-- The admin appoints eva, who leaves, and bob comes from Google. -/
def days : List AccountLabel :=
  [.serve (.update_user_role (access_of 1) 0 true), .serve (.auth (.deactivate (access_of 0))),
    .serve (.auth (.login (.google (callback "bob@example.com"))))]

end Sample

open Sample in
theorem flags_have_provenance_sample : ∃ t request,
    (service account_settings pwd .user).Took (fun _ _ => True) staffed days
        ((service account_settings pwd .user).exec staffed days) t (.serve request) ∧
      Writes account_settings t.world request .is_admin 0 true :=
  (flags_have_provenance (.of_path (by decide))).1 .is_admin 0 (by decide)

end saas
