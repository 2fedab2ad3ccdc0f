-- First logins over Google and GitHub. The username of the new account comes from
-- the provider, and users choose theirs freely: one column for all of them.
import SaasBackend.StoppedSessions
import SaasBackend.FlagProvenance

open relational async

namespace saas

/-! ## Tidy states -/

section

variable {settings : AccountSettings} {pwd : PwdContext} {user_repo : UserRepo} {w : World}

theorem tidy_of_acts {α : Type} {A : Allowed} {p : M α} (h : p.Acts (Act A)) (ht : ¬ A.tokens)
    (hw : Tidy w) : Tidy (p.run w).2 :=
  (calm_of_run h ht w).tidy hw

theorem LoginRequest.tidy {base : Settings} (hw : Tidy w) (request : LoginRequest) :
    Tidy ((request.prog base pwd).run w).2 := by
  rcases request.issues base pwd w with ⟨e, w1, he, hq⟩ | ⟨user, w1, hq, ha, hrun⟩
  · rw [he]
    exact hw.quiet hq
  · obtain ⟨row, w', hissue, hs, _⟩ :=
      UserService.issue_tokens.spec base pwd (hw.quiet hq) ha.present
    rw [hrun, hissue]
    exact hs.tidy fun r hr => (hw.quiet hq).jti_lt r (List.mem_of_mem_filter hr)

/-- Ids are used up, and nothing else. -/
theorem Tidy.more_uuids (hw : Tidy w) (n : Nat) : Tidy { w with uuids := w.uuids + n } :=
  ⟨hw.unlocked, fun r hr => Nat.lt_of_lt_of_le (hw.jti_lt r hr) (Nat.le_add_right _ _)⟩

/-- A rotation for the claims of a stranger fails, and has used up ids. -/
theorem UserService.rotate.stranger (base : Settings) (pwd : PwdContext) {claims : Claims}
    (h : ¬ ∃ u, claims.sub = some (.ofUuid u) ∧ w.db.users.Has u) (old : Row RefreshToken) :
    ∃ e n, (rotate base pwd claims old).run w = (.error e, { w with uuids := w.uuids + n }) := by
  unfold rotate
  rw [Proc.run_bind_ok (generate_token.spec _ _ _ _)]
  dsimp only
  rw [Proc.run_bind_ok (generate_token.spec _ _ _ _)]
  dsimp only
  rcases hparse : UUID.parse claims.sub with e | u
  · exact ⟨e, 2, rfl⟩
  · -- the account is not there, and the insert of its token fails
    have hu : ¬ w.db.users.Has u := by
      intro hu
      rcases hc : claims.sub with _ | _ | _
      · simp [hc, UUID.parse] at hparse
      · simp only [hc, UUID.parse, Except.ok.injEq] at hparse
        exact h ⟨u, by rw [hc, hparse], hu⟩
      · simp [hc, UUID.parse] at hparse
    rw [Proc.run_bind_ok (Proc.run_ofExcept _ _), Proc.run_bind_ok (hash_password.spec _ _)]
    have hcreate : ∀ (t : RefreshToken) (v : World), t.user_id = u → v.db = w.db →
        (RefreshTokenRepository.create t).run v = (.error .integrityError, v) := by
      intro t v ht hv
      unfold RefreshTokenRepository.create Db.insert_token
      rw [Proc.run_bind, Proc.run_attempt, hv]
      simp [ht, hu, Except.map]
    unfold revoke_refresh_token
    rw [Proc.bind_assoc, Proc.run_bind_error (hcreate _ _ ?_ ?_)]
    · exact ⟨.integrityError, 3, rfl⟩
    · rfl
    · rfl

theorem UserService.rotate.tidy {base : Settings} {claims : Claims} {old : Row RefreshToken}
    (hw : Tidy w) (hold : old ∈ w.tokens) : Tidy ((rotate base pwd claims old).run w).2 := by
  by_cases hsub : ∃ u, claims.sub = some (.ofUuid u) ∧ w.db.users.Has u
  · obtain ⟨u, hsub, hu⟩ := hsub
    obtain ⟨row, w', hrun, hs, _⟩ := rotate.spec base pwd hsub hw hu hold
    rw [hrun]
    refine hs.tidy fun r hr => ?_
    obtain ⟨x, hx, rfl⟩ := List.mem_map.mp hr
    have hkeys := Table.keys_updateRow old.id (RefreshToken.replaced (w.uuids + 1) w.clock)
      (fun _ => rfl) x
    simp only [Keyed.keys, List.cons.injEq, and_true] at hkeys
    rw [hkeys]
    exact hw.jti_lt x hx
  · obtain ⟨e, n, hrun⟩ := rotate.stranger base pwd hsub old
    rw [hrun]
    exact hw.more_uuids n

theorem AccountRequest.tidy (hw : Tidy w) (request : AccountRequest) :
    Tidy ((request.prog settings pwd user_repo).run w).2 := by
  have hacts := request.acts settings pwd user_repo
  cases request with
  | auth request =>
    cases request with
    | login request =>
      rw [AccountRequest.prog_auth (by simp), Proc.run_map_snd]
      change Tidy (((LoginRequest.prog settings.toSettings pwd request) >>= fun login =>
        pure (some login.toTokenPair)).run w).2
      rw [Proc.run_map_snd]
      exact request.tidy hw
    | refresh token =>
      rw [AccountRequest.prog_auth (by simp), Proc.run_map_snd]
      change Tidy (((UserService.refresh_token settings.toSettings pwd token) >>= fun tokens =>
        pure (some tokens)).run w).2
      rw [Proc.run_map_snd]
      rcases UserService.refresh_token.spec settings.toSettings pwd token w with
        ⟨payload, old, ha, hrun⟩ | ⟨_, e, he⟩
      · rw [hrun]
        exact UserService.rotate.tidy hw ha.stored
      · rw [he]
        exact hw
    | _ => exact tidy_of_acts hacts not_false hw
  | _ => exact tidy_of_acts hacts not_false hw

/-- A service that holds no token yet, with any accounts. -/
structure NoTokens (s : Service) : Prop where
  tokens : s.world.tokens = []
  locks : s.world.token_locks = []

theorem tidy_of_reachable {s : Service}
    (h : (service settings pwd user_repo).Reachable NoTokens s) : Tidy s.world := by
  refine h.invariant (I := fun s => Tidy s.world) (fun s hs => ⟨hs.locks, ?_⟩) fun s l hs _ => ?_
  · intro r hr
    rw [hs.tokens] at hr
    cases hr
  · cases l with
    | serve request =>
      change Tidy (AccountLabel.record s _).world
      rw [AccountLabel.record_world]
      exact request.tidy hs
    | tick d => exact ⟨hs.unlocked, hs.jti_lt⟩

end

/-! ## Identities -/

/-- What `get_user_info` makes of a name: blanks are replaced, and a number of four
digits follows. -/
def google_username (name : String) (number : Nat) : String :=
  String.ofList (name.toList.map fun c => if c = ' ' then '_' else c) ++ toString number

/-- What a provider says of its user: Google an email and a name, to which the
service adds a random number, and GitHub a login and perhaps an email. -/
inductive Identity where
  | google (email name : String) (number : Nat)
  | github (email : Option String) (login : String)

namespace Identity

def email : Identity → String
  | google email _ _ => email
  | github email login => email.getD (login ++ "@github.local")

def username : Identity → String
  | google _ name number => google_username name number
  | github _ login => login

def provider : Identity → Provider
  | google _ _ _ => .GOOGLE
  | github _ _ => .GITHUB

/-- The results of `get_user_info` and `get_github_user_info`. -/
def info : Identity → Option String × String
  | google email name number => (some email, google_username name number)
  | github email login => (email, login)

/-- The callback of a browser with a valid code and the state of its cookie. -/
def callback (identity : Identity) (code state : String) : OAuthCallback where
  code := some code
  state := some state
  cookie_state := some state
  answer := .ok identity.info

/-- The account that a first login stores. -/
def account (identity : Identity) : User where
  email := identity.email
  username := identity.username
  password := none
  provider := identity.provider
  is_verified := true

open UserService in
def login (settings : Settings) (pwd : PwdContext) (identity : Identity) (code state : String) :
    M Login :=
  match identity with
  | google _ _ _ => login_with_google settings pwd (identity.callback code state)
  | github _ _ => login_with_github settings pwd (identity.callback code state)

end Identity

section

variable {settings : Settings} {pwd : PwdContext} {w : World} {identity : Identity}
  {code state : String}

/-- Both logins find the account or store it, and then issue tokens. -/
theorem Identity.login_eq (hcode : code ≠ "") (hstate : state ≠ "") :
    identity.login settings pwd code state =
      UserService.find_or_register identity.provider (some identity.email) identity.username >>=
        UserService.issue_tokens settings pwd := by
  have hcheck : UserService.check_callback (identity.callback code state) = .ok () := by
    have hgiven : ∀ text : String, text ≠ "" → given (some text) = some text := by
      intro text htext
      simp [given, Option.filter_some, htext]
    simp only [UserService.check_callback, Identity.callback, hgiven code hcode,
      hgiven state hstate, ne_eq, not_true, if_false]
  cases identity with
  | google email name number =>
    unfold Identity.login UserService.login_with_google
    rw [hcheck]
    rfl
  | github email login =>
    unfold Identity.login UserService.login_with_github
    have herror : ¬ (given ((Identity.github email login).callback code state).error).isSome := by
      simp [Identity.callback, given]
    rw [if_neg herror, hcheck]
    rfl

theorem find_or_register.new (h : w.find_user identity.email = none) :
    (UserService.find_or_register identity.provider (some identity.email) identity.username).run w =
      (UserRepository.create identity.account).run w := by
  unfold UserService.find_or_register
  dsimp only
  rw [Proc.run_bind_ok (UserRepository.get_by_email.spec identity.email w), h]
  rfl

end

namespace Sample

end Sample

end saas
