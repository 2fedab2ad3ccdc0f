-- What tokens are good for: each is signed with the secret of its purpose, and
-- the places that read tokens accept those of their own secret only.
import SaasBackend.FlagProvenance

open relational async

namespace saas

/-! ## Secrets and purposes -/

/-- The secret that the tokens for a purpose are signed with. The two kinds of
links share one. -/
def TokenPurpose.secret_key (settings : AccountSettings) : TokenPurpose → Secret
  | access => settings.access_secret_key
  | refresh => settings.refresh_secret_key
  | verification => settings.validation_secret_key
  | password_reset => settings.validation_secret_key

structure AccountSettings.Distinct (settings : AccountSettings) : Prop where
  access_refresh : settings.access_secret_key ≠ settings.refresh_secret_key
  access_validation : settings.access_secret_key ≠ settings.validation_secret_key
  refresh_validation : settings.refresh_secret_key ≠ settings.validation_secret_key

/-- The token has the secret of its purpose. -/
def IssuedToken.Signed (settings : AccountSettings) (i : IssuedToken) : Prop :=
  i.token.secret_key = some (i.purpose.secret_key settings)

/-- The program gets past `verify_token`: it does not refuse the token as
invalid. -/
def Accepts {α : Type} (p : M α) (w : World) : Prop :=
  p.run w ≠ (.error (.http 401 "Invalid token"), w)

/-- Who accepts an issued token, in a state and at its time: `get_user` and
`refresh_token` accept those that were issued for them, and the two pages that
links lead to accept the tokens of links. -/
structure IssuedToken.KeepsPurpose (settings : AccountSettings) (pwd : PwdContext)
    (i : IssuedToken) (w : World) : Prop where
  get_user : Accepts (saas.get_user settings.toSettings (.bearer i.token)) w → i.purpose = .access
  refresh_token :
    Accepts (UserService.refresh_token settings.toSettings pwd i.token) w → i.purpose = .refresh
  validate_user : Accepts (UserService.validate_user settings i.token) w →
    i.purpose = .verification ∨ i.purpose = .password_reset
  new_password : ∀ password, Accepts (UserService.new_password settings pwd i.token password) w →
    i.purpose = .verification ∨ i.purpose = .password_reset

section

variable {settings : AccountSettings} {pwd : PwdContext} {user_repo : UserRepo} {w w' : World}

/-! ## The places that issue tokens -/

theorem TokenPair.issued_signed {base : Settings} {claims : Claims}
    (hs : settings.toSettings = base) :
    ∀ i ∈ (new_tokens base claims w).issued, i.Signed settings := by
  subst hs
  intro i hi
  unfold TokenPair.issued at hi
  simp only [List.mem_cons, List.not_mem_nil, or_false] at hi
  rcases hi with rfl | rfl
  · rfl
  · rfl

/-- An email has a link for a purpose of links. -/
theorem Emails.send_link.signed {subject page template_name email : String} {user_id : UUID}
    {message : LinkMessage} {purpose : TokenPurpose}
    (hp : purpose.secret_key settings = settings.validation_secret_key)
    (h : (send_link settings subject page template_name email user_id).run w =
      (.ok message, w')) : ∀ i ∈ message.issued purpose, i.Signed settings := by
  unfold send_link at h
  rw [Proc.run_bind_ok (generate_token.spec _ _ _ _)] at h
  cases h
  intro i hi
  rw [LinkMessage.issued, List.mem_singleton] at hi
  subst hi
  unfold IssuedToken.Signed
  rw [hp]
  rfl

theorem issues_nothing {α : Type} {p : M α} {tokens : List IssuedToken}
    (h : (p >>= fun _ => pure []).run w = (.ok tokens, w')) : tokens = [] := by
  obtain ⟨_, _, _, hret⟩ := Proc.run_bind_ok_inv h
  cases hret
  rfl

/-- A request that issues nothing. -/
theorem nothing_signed {α : Type} {p : M α} {tokens : List IssuedToken}
    (h : (p >>= fun _ => pure []).run w = (.ok tokens, w')) : ∀ i ∈ tokens, i.Signed settings := by
  rw [issues_nothing h]
  exact fun i hi => nomatch hi

/-- The step lemma: what a request issues is signed for its purpose. -/
theorem AccountRequest.signed {request : AccountRequest} {tokens : List IssuedToken}
    (h : (request.prog settings pwd user_repo).run w = (.ok tokens, w')) :
    ∀ i ∈ tokens, i.Signed settings := by
  cases request with
  | auth request =>
    by_cases hreg : ∃ email username password, request = .register email username password
    · obtain ⟨email, username, password, rfl⟩ := hreg
      obtain ⟨user, w1, _, hrest⟩ := Proc.run_bind_ok_inv h
      obtain ⟨message, w2, hsend, hret⟩ := Proc.run_bind_ok_inv hrest
      cases hret
      exact Emails.send_link.signed rfl hsend
    · rw [AccountRequest.prog_auth fun email username password h =>
        hreg ⟨email, username, password, h⟩] at h
      obtain ⟨made, w1, hrun, hret⟩ := Proc.run_bind_ok_inv h
      cases hret
      cases made with
      | none => exact fun i hi => nomatch hi
      | some tokens =>
        cases AuthRequest.made hrun with
        | login => exact TokenPair.issued_signed rfl
        | rotation => exact TokenPair.issued_signed rfl
  | verify token => exact nothing_signed h
  | request_verify authorization =>
    obtain ⟨user, w1, _, hrest⟩ := Proc.run_bind_ok_inv h
    split at hrest
    · cases hrest
      exact fun i hi => nomatch hi
    · obtain ⟨message, w2, hsend, hret⟩ := Proc.run_bind_ok_inv hrest
      cases hret
      exact Emails.send_link.signed rfl hsend
  | forget_password email =>
    obtain ⟨found, w1, _, hrest⟩ := Proc.run_bind_ok_inv h
    cases found with
    | none =>
      cases hrest
      exact fun i hi => nomatch hi
    | some user =>
      obtain ⟨message, w2, hsend, hret⟩ := Proc.run_bind_ok_inv hrest
      cases hret
      exact Emails.send_link.signed rfl hsend
  | new_password token password => exact nothing_signed h
  | change_password authorization old new =>
    obtain ⟨user, w1, _, hrest⟩ := Proc.run_bind_ok_inv h
    exact nothing_signed hrest
  | update_user_role authorization user_id is_admin =>
    obtain ⟨admin, w1, _, hrest⟩ := Proc.run_bind_ok_inv h
    exact nothing_signed hrest
  | verify_user authorization user_id =>
    obtain ⟨admin, w1, _, hrest⟩ := Proc.run_bind_ok_inv h
    exact nothing_signed hrest
  | subscribe authorization plan_code =>
    obtain ⟨user, w1, _, hrest⟩ := Proc.run_bind_ok_inv h
    exact nothing_signed hrest
  | upgrade authorization plan_code =>
    obtain ⟨user, w1, _, hrest⟩ := Proc.run_bind_ok_inv h
    exact nothing_signed hrest

/-- The run lemma. -/
theorem issued_signed {s₀ s : Service} {ls : List AccountLabel} (h0 : s₀.issued = [])
    (hrun : (service settings pwd user_repo).Run (fun _ _ => True) s₀ ls s) :
    ∀ i ∈ s.issued, i.Signed settings := by
  apply hrun.invariant (I := fun t => ∀ i ∈ t.issued, i.Signed settings)
  · rw [h0]
    exact fun i hi => nomatch hi
  · rintro t l ht _ _
    cases l with
    | tick d => exact ht
    | serve request =>
      change ∀ i ∈ (AccountLabel.record t _).issued, i.Signed settings
      rcases hr : (request.prog settings pwd user_repo).run t.world with ⟨e | tokens, w⟩
      · exact ht
      · intro i hi
        rcases List.mem_append.mp hi with hi | hi
        · exact ht i hi
        · exact AccountRequest.signed hr i hi

/-! ## The places that read tokens -/

/-- A token with another secret is refused. -/
theorem Token.verify_other_key {token : Token} {now : Time} {key : Secret}
    (h : token.secret_key ≠ some key) :
    token.verify now key = .error (.http 401 "Invalid token") := by
  cases token with
  | signed key' payload =>
    have hne : key' ≠ key := fun hk => h (congrArg some hk)
    simp [Token.verify, hne]
  | empty => rfl
  | garbage => rfl

/-- A program that first verifies a token accepts it only with the right secret. -/
theorem Accepts.secret_key {α : Type} {token : Token} {key : Secret} {k : Payload → M α}
    (h : Accepts (verify_token token key >>= k) w) : token.secret_key = some key := by
  by_contra hne
  apply h
  unfold verify_token
  rw [Proc.run_bind, Proc.run_query, Token.verify_other_key hne]

/-- The two pages that links lead to. -/
theorem UserService.validated_user.accepts {α : Type} {token : Token} {k : Row User → M α}
    (h : Accepts (validated_user settings token >>= k) w) :
    token.secret_key = some settings.validation_secret_key := by
  by_contra hne
  apply h
  unfold validated_user verify_token
  simp only [Proc.run_bind, Proc.run_query, Token.verify_other_key hne]

theorem IssuedToken.Signed.signed {i : IssuedToken} (h : i.Signed settings) :
    ∃ key payload, i.token = .signed key payload := by
  unfold IssuedToken.Signed at h
  rcases i with ⟨purpose, token⟩
  cases token with
  | empty => cases h
  | garbage => cases h
  | signed key payload => exact ⟨key, payload, rfl⟩

theorem get_user.accepts {i : IssuedToken} {base : Settings} (hi : i.Signed settings)
    (h : Accepts (get_user base (.bearer i.token)) w) :
    i.token.secret_key = some base.access_secret_key := by
  obtain ⟨key, payload, htoken⟩ := hi.signed
  rw [htoken] at h ⊢
  exact Accepts.secret_key h

theorem UserService.refresh_token.accepts {i : IssuedToken} {base : Settings}
    (hi : i.Signed settings) (h : Accepts (refresh_token base pwd i.token) w) :
    i.token.secret_key = some base.refresh_secret_key := by
  obtain ⟨key, payload, htoken⟩ := hi.signed
  rw [htoken] at h ⊢
  exact Accepts.secret_key h

/-! ## The law -/

namespace TokenPurpose

variable {p : TokenPurpose}

theorem eq_access (hd : settings.Distinct)
    (h : p.secret_key settings = settings.access_secret_key) : p = .access := by
  cases p with
  | access => rfl
  | refresh => exact absurd h.symm hd.access_refresh
  | verification => exact absurd h.symm hd.access_validation
  | password_reset => exact absurd h.symm hd.access_validation

theorem eq_refresh (hd : settings.Distinct)
    (h : p.secret_key settings = settings.refresh_secret_key) : p = .refresh := by
  cases p with
  | access => exact absurd h hd.access_refresh
  | refresh => rfl
  | verification => exact absurd h.symm hd.refresh_validation
  | password_reset => exact absurd h.symm hd.refresh_validation

theorem eq_link (hd : settings.Distinct)
    (h : p.secret_key settings = settings.validation_secret_key) :
    p = .verification ∨ p = .password_reset := by
  cases p with
  | access => exact absurd h hd.access_validation
  | refresh => exact absurd h hd.refresh_validation
  | verification => exact Or.inl rfl
  | password_reset => exact Or.inr rfl

end TokenPurpose

theorem IssuedToken.Signed.keeps_purpose {i : IssuedToken} (hi : i.Signed settings)
    (hd : settings.Distinct) (w : World) : i.KeepsPurpose settings pwd w := by
  have hkey : ∀ key, i.token.secret_key = some key → i.purpose.secret_key settings = key := by
    intro key h
    rw [hi] at h
    exact Option.some.inj h
  constructor
  · exact fun h => TokenPurpose.eq_access hd (hkey _ (get_user.accepts hi h))
  · exact fun h => TokenPurpose.eq_refresh hd (hkey _ (UserService.refresh_token.accepts hi h))
  · exact fun h => TokenPurpose.eq_link hd (hkey _ (UserService.validated_user.accepts h))
  · exact fun _ h => TokenPurpose.eq_link hd (hkey _ (UserService.validated_user.accepts h))

/-- Every token that is issued in a run keeps its purpose, in all states and at
all times. -/
theorem tokens_keep_their_purpose {s₀ s : Service} {ls : List AccountLabel}
    (hd : settings.Distinct) (h0 : s₀.issued = [])
    (hrun : (service settings pwd user_repo).Run (fun _ _ => True) s₀ ls s) :
    ∀ i ∈ s.issued, ∀ w, i.KeepsPurpose settings pwd w :=
  fun i hi w => (issued_signed h0 hrun i hi).keeps_purpose hd w

end

namespace Sample

theorem account_settings_distinct : account_settings.Distinct :=
  ⟨by decide, by decide, by decide⟩

/-- Bob registers and forgets his password: he is sent two links. -/
def two_links : List AccountLabel :=
  [.serve (.auth (.register "bob@example.com" "bob" "secret")),
    .serve (.forget_password "bob@example.com")]

def linked : Service := (service account_settings pwd .user).exec staffed two_links

theorem linked_run :
    (service account_settings pwd .user).Run (fun _ _ => True) staffed two_links linked :=
  .of_path (by decide)

end Sample

open Sample in
/-- After eva has logged in there are tokens for all four purposes. -/
theorem tokens_keep_their_purpose_sample :
    let s := (service account_settings pwd .user).exec linked
      [.serve (.auth (.login (.password "eva@example.com" "secret")))]
    s.issued.map IssuedToken.purpose = [.verification, .password_reset, .access, .refresh] ∧
      ∀ i ∈ s.issued, ∀ w, i.KeepsPurpose account_settings pwd w :=
  ⟨by decide, tokens_keep_their_purpose account_settings_distinct rfl
    (linked_run.append (.of_path (by decide)))⟩

open Sample in
/-- The link that verifies an address also sets a password, and the link that
resets a password also verifies an address. -/
theorem links_are_interchangeable :
    account_settings.Distinct ∧ ∃ s verification password_reset,
      (service account_settings pwd .user).Run (fun _ _ => True) staffed two_links s ∧
      s.issued = [⟨.verification, verification⟩, ⟨.password_reset, password_reset⟩] ∧
      ((UserService.new_password account_settings pwd verification "other").run s.world).1 =
        .ok true ∧
      ((UserService.validate_user account_settings password_reset).run s.world).1 = .ok true :=
  ⟨account_settings_distinct, linked, _, _, linked_run, rfl, by decide, by decide⟩

end saas
