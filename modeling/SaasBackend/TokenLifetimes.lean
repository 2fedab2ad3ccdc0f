-- How long tokens are good for. `generate_token` counts in minutes, and the
-- settings that it is given are documented in seconds.
import SaasBackend.TokenPurposes
import SaasBackend.SocialLogins

open relational async

namespace saas

/-! ## Lifetimes -/

/-- The setting for the tokens of a purpose. -/
def TokenPurpose.lifetime (settings : AccountSettings) : TokenPurpose → Nat
  | access => settings.access_token_expire
  | refresh => settings.refresh_token_expire
  | verification => settings.validation_token_expire
  | password_reset => settings.validation_token_expire

/-- The token was made at time `t` for its purpose. -/
def IssuedToken.Minted (settings : AccountSettings) (t : Time) (i : IssuedToken) : Prop :=
  ∃ data jti, i.token = .signed (i.purpose.secret_key settings)
    (new_payload data t (t + minutes (i.purpose.lifetime settings)) jti)

open UserService in
/-- The place that reads the tokens of a purpose lets the token pass. -/
def IssuedToken.AcceptedIn (settings : AccountSettings) (pwd : PwdContext) (i : IssuedToken)
    (w : World) : Prop :=
  match i.purpose with
  | .access => ∃ user, ((get_user settings.toSettings (.bearer i.token)).run w).1 = .ok user
  | .refresh =>
    ∃ tokens, ((refresh_token settings.toSettings pwd i.token).run w).1 = .ok tokens
  | .verification | .password_reset =>
    (∃ b, ((validate_user settings i.token).run w).1 = .ok b) ∨
      ∃ password b, ((new_password settings pwd i.token password).run w).1 = .ok b

/-- The rows of the token are good for as long as the token is. -/
def ExpiresAsStored (w : World) (token : Token) : Prop :=
  ∀ r ∈ w.tokens, token.jti = some r.val.jti →
    token.payload.bind Payload.exp = some (timegm r.val.expires_at)

/-- A token that was issued at time `t` is accepted for as many seconds as the
setting says, and one more since its times are whole seconds. -/
structure IssuedToken.KeepsLifetime (settings : AccountSettings) (pwd : PwdContext) (t : Time)
    (i : IssuedToken) (w : World) : Prop where
  accepted : i.AcceptedIn settings pwd w →
    w.clock ≤ t + fromtimestamp (i.purpose.lifetime settings + 1)
  stored : i.purpose = .refresh → ExpiresAsStored w i.token

/-- Whatever a request of a run issues, keeps its lifetime ever after. -/
def KeepsLifetimes (settings : AccountSettings) (pwd : PwdContext) (user_repo : UserRepo) : Prop :=
  ∀ s request tokens w, (service settings pwd user_repo).Reachable NoTokens s →
    (AccountRequest.prog settings pwd user_repo request).run s.world = (.ok tokens, w) →
    ∀ i ∈ tokens, (i.purpose = .refresh → ∃ r ∈ w.tokens, i.token.jti = some r.val.jti) ∧
      ∀ ls s',
        (service settings pwd user_repo).Run (fun _ _ => True) ⟨w, s.issued ++ tokens⟩ ls s' →
        i.KeepsLifetime settings pwd s.world.clock s'.world

section

variable {settings : AccountSettings} {pwd : PwdContext} {user_repo : UserRepo} {w w' : World}

/-! ## What a request does to the tokens -/

/-- Time does not pass while a request is served. -/
theorem AccountRequest.clock (request : AccountRequest) :
    ((request.prog settings pwd user_repo).run w).2.clock = w.clock :=
  ((request.acts settings pwd user_repo).mono fun _ _ h => h.clock).run_keeps
    (fun _ => rfl) (fun _ _ _ h h' => h'.trans h) w

/-- How a request ends: it fails, or issues nothing, or sends a link, and leaves
the rows; or it issues a pair, and stores a row for it. -/
inductive Served (settings : AccountSettings) (w : World) :
    Except Err (List IssuedToken) × World → Prop where
  | failed {w' : World} (e : Err) (h : Calm w w') : Served settings w (.error e, w')
  | nothing {w' : World} (h : Calm w w') : Served settings w (.ok [], w')
  | link {w' : World} {i : IssuedToken} (h : Calm w w') (hi : i.Minted settings w.clock)
      (hp : i.purpose ≠ .refresh) : Served settings w (.ok [i], w')
  | pair {w₁ w' : World} {claims : Claims} {u : UUID} {kept : List (Row RefreshToken)}
      {row : Row RefreshToken} (h : Calm w w₁) (hs : Stored w₁ u kept row w')
      (hexp : row.val.expires_at = w₁.clock + minutes settings.refresh_token_expire)
      (hkept : ∀ r ∈ kept, ∃ r₀ ∈ w.tokens, r.val.jti = r₀.val.jti ∧
        r.val.expires_at = r₀.val.expires_at) :
      Served settings w (.ok (new_tokens settings.toSettings claims w₁).issued, w')

namespace Served

theorem of_calm {q : M (List IssuedToken)} (hc : Calm w (q.run w).2)
    (hnone : ∀ tokens w', q.run w = (.ok tokens, w') → tokens = []) :
    Served settings w (q.run w) := by
  rcases hq : q.run w with ⟨e | tokens, w'⟩
  · rw [hq] at hc
    exact .failed e hc
  · rw [hq] at hc
    obtain rfl := hnone tokens w' hq
    exact .nothing hc

/-- The first part of a request writes no tokens. -/
theorem bind {α : Type} {A : Allowed} {p : M α} {k : α → M (List IssuedToken)}
    (hacts : p.Acts (Act A)) (ht : ¬ A.tokens)
    (hk : ∀ a w₁, p.run w = (.ok a, w₁) → Calm w w₁ → Served settings w ((k a).run w₁)) :
    Served settings w ((p >>= k).run w) := by
  have hc := calm_of_run hacts ht w
  rcases hp : p.run w with ⟨e | a, w₁⟩
  · rw [hp] at hc
    rw [Proc.run_bind_error hp]
    exact .failed e hc
  · rw [hp] at hc
    rw [Proc.run_bind_ok hp]
    exact hk a w₁ hp hc

theorem send_link {w₁ : World} {subject page template_name email : String} {user_id : UUID}
    {purpose : TokenPurpose} (hc : Calm w w₁)
    (hp : purpose = .verification ∨ purpose = .password_reset) :
    Served settings w ((Emails.send_link settings subject page template_name email user_id >>=
      fun message => pure (message.issued purpose)).run w₁) := by
  unfold Emails.send_link
  rw [Proc.bind_assoc, Proc.run_bind_ok (generate_token.spec _ _ _ _)]
  refine .link ⟨hc.tokens, hc.locks, Nat.le_succ_of_le hc.uuids, hc.clock⟩
    ⟨⟨some (.ofUuid user_id), none, none⟩, w₁.uuids, ?_⟩ ?_
  · rw [← hc.clock]
    rcases hp with rfl | rfl
    · rfl
    · rfl
  · rcases hp with rfl | rfl
    · exact fun h => nomatch h
    · exact fun h => nomatch h

theorem login {w₁ : World} {user : Row User} (hw : Tidy w) (hc : Calm w w₁)
    (hu : w₁.db.users.Has user.id) :
    Served settings w ((UserService.issue_tokens settings.toSettings pwd user >>= fun login =>
      pure login.issued).run w₁) := by
  obtain ⟨row, w', hrun, hs, hexp⟩ :=
    UserService.issue_tokens.spec settings.toSettings pwd (hc.tidy hw) hu
  rw [Proc.run_bind_ok hrun]
  refine .pair hc hs hexp fun r hr => ?_
  have hmem := List.mem_of_mem_filter hr
  unfold World.tokens at hmem
  rw [hc.tokens] at hmem
  exact ⟨r, hmem, rfl, rfl⟩

theorem rotation (settings : AccountSettings) (pwd : PwdContext) (claims : Claims)
    {old : Row RefreshToken} (hw : Tidy w) (hold : old ∈ w.tokens) :
    Served settings w ((UserService.rotate settings.toSettings pwd claims old >>= fun tokens =>
      pure tokens.issued).run w) := by
  by_cases hsub : ∃ u, claims.sub = some (.ofUuid u) ∧ w.db.users.Has u
  · obtain ⟨u, hsub, hu⟩ := hsub
    obtain ⟨row, w', hrun, hs, hexp⟩ :=
      UserService.rotate.spec settings.toSettings pwd hsub hw hu hold
    rw [Proc.run_bind_ok hrun]
    refine .pair (Calm.refl w) hs hexp fun r hr => ?_
    obtain ⟨x, hx, rfl⟩ := List.mem_map.mp hr
    refine ⟨x, hx, ?_⟩
    unfold Table.updateRow
    split
    · exact ⟨rfl, rfl⟩
    · exact ⟨rfl, rfl⟩
  · obtain ⟨e, n, hrun⟩ := UserService.rotate.stranger settings.toSettings pwd hsub old
    rw [Proc.run_bind_error hrun]
    exact .failed e ⟨rfl, rfl, Nat.le_add_right _ n, rfl⟩

end Served

theorem AuthRequest.served {request : AuthRequest}
    (hreg : ∀ email username password, request ≠ .register email username password)
    (ht : ¬ request.allowed.tokens)
    (hmade : ∀ tokens, ¬ Made settings.toSettings w request tokens) :
    Served settings w ((AccountRequest.prog settings pwd user_repo (.auth request)).run w) := by
  rw [AccountRequest.prog_auth hreg]
  refine .bind (request.acts settings.toSettings pwd) ht fun made w₁ hrun hc => ?_
  cases made with
  | none => exact .nothing hc
  | some tokens => exact absurd (AuthRequest.made hrun) (hmade tokens)

/-- The inversion lemma: a request of any kind. -/
theorem AccountRequest.served (hw : Tidy w) (request : AccountRequest) :
    Served settings w ((request.prog settings pwd user_repo).run w) := by
  have hacts := request.acts settings pwd user_repo
  have hcalm : ¬ request.allowed.tokens →
      Calm w ((request.prog settings pwd user_repo).run w).2 :=
    fun ht => calm_of_run hacts ht w
  cases request with
  | auth request =>
    cases request with
    | register email username password =>
      refine .bind (A := { adds := Registered })
        (UserService.register_user.acts (fun _ h => h) _ _ _) not_false fun user w₁ _ hc => ?_
      exact .send_link hc (Or.inl rfl)
    | request_code email code => exact AuthRequest.served (by simp) not_false (fun _ h => nomatch h)
    | login request =>
      rw [AccountRequest.prog_auth (by simp)]
      change Served settings w (((request.prog settings.toSettings pwd >>= fun login =>
        pure (some login.toTokenPair)) >>= fun tokens =>
          pure (tokens.elim [] TokenPair.issued)).run w)
      rw [LoginRequest.prog_eq, Proc.bind_assoc, Proc.bind_assoc]
      refine .bind request.admission_acts not_false fun user w₁ hrun hc => ?_
      have hchecked := request.checked pwd w
      rw [hrun] at hchecked
      exact .login hw hc hchecked.1
    | refresh token =>
      rw [AccountRequest.prog_auth (by simp)]
      change Served settings w (((UserService.refresh_token settings.toSettings pwd token >>=
        fun tokens => pure (some tokens)) >>= fun tokens =>
          pure (tokens.elim [] TokenPair.issued)).run w)
      rw [Proc.bind_assoc]
      rcases UserService.refresh_token.spec settings.toSettings pwd token w with
        ⟨payload, old, ha, hrun⟩ | ⟨_, e, he⟩
      · have hsame := Served.rotation settings pwd payload.claims hw ha.stored
        rw [Proc.run_bind, ← hrun, ← Proc.run_bind] at hsame
        exact hsame
      · rw [Proc.run_bind_error he]
        exact .failed e (Calm.refl w)
    | deactivate authorization =>
      exact AuthRequest.served (by simp) not_false (fun _ h => nomatch h)
    | update_user_status authorization user_id is_active =>
      exact AuthRequest.served (by simp) not_false (fun _ h => nomatch h)
  | request_verify authorization =>
    refine .bind (A := {}) (get_not_active_user.acts authorization) not_false
      fun user w₁ _ hc => ?_
    split
    · exact .nothing hc
    · exact .send_link hc (Or.inl rfl)
  | forget_password email =>
    refine .bind (A := {}) (acts_query _) not_false fun found w₁ _ hc => ?_
    cases found with
    | none => exact .nothing hc
    | some user => exact .send_link hc (Or.inr rfl)
  | verify token => exact .of_calm (hcalm not_false) fun _ _ h => issues_nothing h
  | new_password token password =>
    exact .of_calm (hcalm not_false) fun _ _ h => issues_nothing h
  | _ =>
    refine .of_calm (hcalm not_false) fun tokens w' h => ?_
    obtain ⟨_, _, _, h⟩ := Proc.run_bind_ok_inv h
    exact issues_nothing h

/-- What a request issues is made at its time. -/
theorem Served.minted {tokens : List IssuedToken} (h : Served settings w (.ok tokens, w')) :
    ∀ i ∈ tokens, i.Minted settings w.clock := by
  intro i hi
  cases h with
  | nothing => cases hi
  | link _ hminted =>
    rw [List.mem_singleton] at hi
    exact hi ▸ hminted
  | @pair w₁ _ claims _ _ _ hc =>
    unfold TokenPair.issued at hi
    simp only [List.mem_cons, List.not_mem_nil, or_false] at hi
    unfold IssuedToken.Minted
    rw [← hc.clock]
    rcases hi with rfl | rfl
    · exact ⟨claims, w₁.uuids, rfl⟩
    · exact ⟨claims, w₁.uuids + 1, rfl⟩

/-! ## The rows of a refresh token -/

/-- The rows with the id `n`, which is used up, expire at time `t`. -/
structure Dated (n : Jti) (t : Time) (w : World) : Prop where
  tidy : Tidy w
  used : n < w.uuids
  expires_at : ∀ r ∈ w.tokens, r.val.jti = n → r.val.expires_at = t

theorem Dated.calm {n : Jti} {t : Time} (h : Dated n t w) (hc : Calm w w') : Dated n t w' where
  tidy := hc.tidy h.tidy
  used := Nat.lt_of_lt_of_le h.used hc.uuids
  expires_at := by
    unfold World.tokens
    rw [hc.tokens]
    exact h.expires_at

theorem Served.dated {out : Except Err (List IssuedToken) × World} {n : Jti} {t : Time}
    (h : Served settings w out) (hd : Dated n t w) (ht : Tidy out.2) : Dated n t out.2 := by
  cases h with
  | failed e hc => exact hd.calm hc
  | nothing hc => exact hd.calm hc
  | link hc => exact hd.calm hc
  | @pair w₁ w' _ _ kept row hc hs _ hkept =>
    have hused : n < w₁.uuids := Nat.lt_of_lt_of_le hd.used hc.uuids
    refine ⟨ht, ?_, fun r hr hn => ?_⟩
    · change n < w'.uuids
      rw [hs.uuids]
      exact Nat.lt_of_lt_of_le hused (Nat.le_add_right _ 3)
    · change r ∈ w'.tokens at hr
      rw [hs.tokens, List.mem_append, List.mem_singleton] at hr
      rcases hr with hr | rfl
      · obtain ⟨r₀, hr₀, hjti, hexp⟩ := hkept r hr
        rw [hexp]
        exact hd.expires_at r₀ hr₀ (hjti ▸ hn)
      · rw [hs.jti] at hn
        exact absurd (hn ▸ hused) (Nat.not_lt_of_le (Nat.le_succ _))

/-- The step lemma. -/
theorem dated_next {n : Jti} {t : Time} {s : Service} (h : Dated n t s.world) (l : AccountLabel) :
    Dated n t (l.next settings pwd user_repo s).world := by
  cases l with
  | serve request =>
    change Dated n t (AccountLabel.record s _).world
    rw [AccountLabel.record_world]
    exact (AccountRequest.served h.tidy request).dated h (request.tidy h.tidy)
  | tick d => exact ⟨⟨h.tidy.unlocked, h.tidy.jti_lt⟩, h.used, h.expires_at⟩

/-- The row of a refresh token that was just issued. -/
theorem Served.new_row {tokens : List IssuedToken} {i : IssuedToken}
    (h : Served settings w (.ok tokens, w')) (hw : Tidy w) (ht : Tidy w') (hi : i ∈ tokens)
    (hp : i.purpose = .refresh) :
    ∃ row ∈ w'.tokens, i.token.jti = some row.val.jti ∧
      i.token.payload.bind Payload.exp = some (timegm row.val.expires_at) ∧
      Dated row.val.jti row.val.expires_at w' := by
  cases h with
  | nothing => cases hi
  | link _ _ hne =>
    rw [List.mem_singleton] at hi
    exact absurd (hi ▸ hp) hne
  | @pair w₁ _ claims _ kept row hc hs hexp hkept =>
    have hmem : row ∈ w'.tokens := by
      rw [hs.tokens]
      exact List.mem_append_right _ (List.mem_singleton_self row)
    unfold TokenPair.issued at hi
    simp only [List.mem_cons, List.not_mem_nil, or_false] at hi
    rcases hi with rfl | rfl
    · cases hp
    · refine ⟨row, hmem, ?_, ?_, ht, ht.jti_lt row hmem, fun r hr hn => ?_⟩
      · rw [hs.jti]
        rfl
      · rw [hexp]
        rfl
      · rw [hs.tokens, List.mem_append, List.mem_singleton] at hr
        rcases hr with hr | rfl
        · obtain ⟨r₀, hr₀, hjti, _⟩ := hkept r hr
          have hlt := Nat.lt_of_lt_of_le (hw.jti_lt r₀ hr₀) hc.uuids
          rw [← hjti, hn, hs.jti] at hlt
          exact absurd hlt (Nat.not_lt_of_le (Nat.le_succ _))
        · rfl

/-- The run lemma: in a run after the request, the rows of the token expire when
the token does. -/
theorem expires_as_stored {request : AccountRequest} {tokens : List IssuedToken} {i : IssuedToken}
    {s s' : Service} {ls : List AccountLabel} (hw : Tidy s.world)
    (hserve : (request.prog settings pwd user_repo).run s.world = (.ok tokens, w))
    (hi : i ∈ tokens) (hp : i.purpose = .refresh)
    (hrun : (service settings pwd user_repo).Run (fun _ _ => True) ⟨w, s.issued ++ tokens⟩ ls s') :
    (∃ r ∈ w.tokens, i.token.jti = some r.val.jti) ∧ ExpiresAsStored s'.world i.token := by
  have hserved : Served settings s.world
      ((request.prog settings pwd user_repo).run s.world) := request.served hw
  have htidy : Tidy ((request.prog settings pwd user_repo).run s.world).2 := request.tidy hw
  rw [hserve] at hserved htidy
  obtain ⟨row, hrow, hjti, hexp, hdated⟩ := hserved.new_row hw htidy hi hp
  refine ⟨⟨row, hrow, hjti⟩, fun r hr hr' => ?_⟩
  have hlater : Dated row.val.jti row.val.expires_at s'.world :=
    hrun.invariant (I := fun t => Dated row.val.jti row.val.expires_at t.world) hdated
      fun t l ht _ _ => dated_next ht l
  rw [hjti, Option.some.injEq] at hr'
  rw [hexp, hlater.expires_at r hr hr'.symm]

/-! ## Until when a token is accepted -/

theorem verified_of_ok {α : Type} {token : Token} {key : Secret} {k : Payload → M α} {a : α}
    (h : ((verify_token token key >>= k).run w).1 = .ok a) :
    ∃ payload, token.verify w.clock key = .ok payload := by
  unfold verify_token at h
  rw [Proc.run_bind, Proc.run_query] at h
  rcases hv : token.verify w.clock key with e | payload
  · rw [hv] at h
    cases h
  · exact ⟨payload, rfl⟩

/-- A place that accepts a token has verified it. -/
theorem IssuedToken.AcceptedIn.verified {i : IssuedToken} {key : Secret} {payload : Payload}
    (hi : i.token = .signed key payload) (h : i.AcceptedIn settings pwd w) :
    ∃ key payload, i.token.verify w.clock key = .ok payload := by
  have hvalidated : ∀ {α : Type} {k : Row User → M α} {a : α},
      ((UserService.validated_user settings i.token >>= k).run w).1 = .ok a →
        ∃ key payload, i.token.verify w.clock key = .ok payload := by
    intro α k a hok
    unfold UserService.validated_user at hok
    rw [Proc.bind_assoc] at hok
    exact ⟨_, verified_of_ok hok⟩
  have hlink : (∃ b, ((UserService.validate_user settings i.token).run w).1 = .ok b) ∨
      (∃ password b, ((UserService.new_password settings pwd i.token password).run w).1 = .ok b) →
        ∃ key payload, i.token.verify w.clock key = .ok payload := by
    rintro (⟨b, hok⟩ | ⟨password, b, hok⟩)
    · exact hvalidated hok
    · exact hvalidated hok
  obtain ⟨purpose, token⟩ := i
  dsimp only at hi
  subst hi
  cases purpose with
  | access =>
    obtain ⟨user, hok⟩ := h
    exact ⟨_, verified_of_ok hok⟩
  | refresh =>
    obtain ⟨tokens, hok⟩ := h
    exact ⟨_, verified_of_ok hok⟩
  | verification => exact hlink h
  | password_reset => exact hlink h

theorem lt_of_timegm {t t' : Nat} (h : timegm t ≤ timegm t') : t < t' + fromtimestamp 1 := by
  unfold timegm at h
  unfold fromtimestamp
  omega

/-- A token is accepted for as many minutes as the setting says. -/
theorem IssuedToken.Minted.accepted {i : IssuedToken} {t : Time} (hi : i.Minted settings t)
    (h : i.AcceptedIn settings pwd w) :
    w.clock < t + minutes (i.purpose.lifetime settings) + fromtimestamp 1 := by
  obtain ⟨data, jti, htoken⟩ := hi
  obtain ⟨key, payload, hv⟩ := h.verified htoken
  obtain ⟨hsigned, hexp, _⟩ := Token.verify_ok hv
  rw [htoken, Token.signed.injEq] at hsigned
  obtain ⟨_, rfl⟩ := hsigned
  simp only [Payload.unexpired, new_payload, Option.all_some, decide_eq_true_eq] at hexp
  exact lt_of_timegm hexp

/-! ## The two units -/

/-- A number of minutes is at most as long as the same number of seconds, and one
more, only if it is zero. -/
theorem minutes_le_seconds {n : Nat} : minutes n ≤ fromtimestamp (n + 1) ↔ n = 0 := by
  change (n * 60000000 : Nat) ≤ (n + 1) * 1000000 ↔ n = 0
  omega

theorem TokenPurpose.lifetime_eq_zero (h : settings.access_token_expire = 0 ∧
    settings.refresh_token_expire = 0 ∧ settings.validation_token_expire = 0) (p : TokenPurpose) :
    p.lifetime settings = 0 := by
  cases p with
  | access => exact h.1
  | refresh => exact h.2.1
  | verification => exact h.2.2
  | password_reset => exact h.2.2

theorem keeps_lifetimes_of_zero (h : settings.access_token_expire = 0 ∧
    settings.refresh_token_expire = 0 ∧ settings.validation_token_expire = 0) :
    KeepsLifetimes settings pwd user_repo := by
  intro s request tokens w hs hserve i hi
  have hw := tidy_of_reachable hs
  have hserved : Served settings s.world
      ((request.prog settings pwd user_repo).run s.world) := request.served hw
  rw [hserve] at hserved
  refine ⟨fun hp => (expires_as_stored hw hserve hi hp (.nil _)).1, fun ls s' hrun => ⟨?_, ?_⟩⟩
  · intro ha
    have hbound := (hserved.minted i hi).accepted ha
    rw [TokenPurpose.lifetime_eq_zero h] at hbound ⊢
    exact Nat.le_of_lt hbound
  · exact fun hp => (expires_as_stored hw hserve hi hp hrun).2

/-- A token that is accepted when its minutes are over. -/
theorem lifetime_of_accepted {s : Service} {request : AccountRequest} {tokens : List IssuedToken}
    {i : IssuedToken} (h : KeepsLifetimes settings pwd user_repo)
    (hs : (service settings pwd user_repo).Reachable NoTokens s)
    (hserve : (request.prog settings pwd user_repo).run s.world = (.ok tokens, w)) (hi : i ∈ tokens)
    (ha : i.AcceptedIn settings pwd (w.advance (minutes (i.purpose.lifetime settings)))) :
    i.purpose.lifetime settings = 0 := by
  have hclock : ((request.prog settings pwd user_repo).run s.world).2.clock = s.world.clock :=
    request.clock
  rw [hserve] at hclock
  have hrun : (service settings pwd user_repo).Run (fun _ _ => True) ⟨w, s.issued ++ tokens⟩
      [.tick (minutes (i.purpose.lifetime settings))]
      ⟨w.advance (minutes (i.purpose.lifetime settings)), s.issued ++ tokens⟩ :=
    .one _ trivial trivial
  have hlate := ((h s request tokens w hs hserve i hi).2 _ _ hrun).accepted ha
  change w.clock + _ ≤ _ at hlate
  rw [show w.clock = s.world.clock from hclock] at hlate
  exact minutes_le_seconds.mp (Nat.le_of_add_le_add_left hlate)

/-! ## Tokens at the end of their minutes -/

theorem Token.verify_new {data : Claims} {u : UUID} {t t' time : Time} {jti : Jti} {key : Secret}
    (hsub : data.sub = some (.ofUuid u)) (h : time ≤ t') :
    (Token.signed key (new_payload data t t' jti)).verify time key =
      .ok (new_payload data t t' jti) := by
  refine Token.verify_of rfl ?_ ?_
  · simp only [Payload.unexpired, new_payload, Option.all_some, decide_eq_true_eq]
    exact Nat.div_le_div_right h
  · change data.sub ≠ none
    rw [hsub]
    exact Option.some_ne_none _

theorem get_user.accepts_new {base : Settings} {data : Claims} {u : UUID} {t t' : Time} {jti : Jti}
    (hsub : data.sub = some (.ofUuid u)) (h : w.clock ≤ t') :
    ∃ user, ((get_user base (.bearer (.signed base.access_secret_key
      (new_payload data t t' jti)))).run w).1 = .ok user := by
  have hid : (Authorization.bearer (.signed base.access_secret_key
      (new_payload data t t' jti))).user_id base w.clock = .ok u := by
    unfold Authorization.user_id oauth2_schema
    dsimp only
    rw [Token.verify_new hsub h]
    exact UUID.parse_eq_ok.mpr hsub
  rw [get_user.spec, hid]
  exact ⟨_, rfl⟩

/-- The page finds an address that is verified already. -/
theorem UserService.validate_user.accepts_new (user : Row User) {data : Claims} {t t' : Time}
    {jti : Jti} (hu : w.db.users.byId user.id = some user) (hv : user.val.is_verified = true)
    (hsub : data.sub = some (.ofUuid user.id)) (h : w.clock ≤ t') :
    ((validate_user settings (.signed settings.validation_secret_key
      (new_payload data t t' jti))).run w).1 = .ok false := by
  have hverify : (verify_token (.signed settings.validation_secret_key
      (new_payload data t t' jti)) settings.validation_secret_key).run w =
        (.ok (new_payload data t t' jti), w) := by
    rw [verify_token, Proc.run_query, Token.verify_new hsub h]
  have hparse : UUID.parse (new_payload data t t' jti).claims.sub = .ok user.id :=
    UUID.parse_eq_ok.mpr hsub
  have hget : (UserRepository.get_by_id user.id).run w = (.ok (some user), w) := by
    rw [UserRepository.get_by_id, Proc.run_query, hu]
  unfold validate_user validated_user
  rw [Proc.bind_assoc, Proc.run_bind_ok hverify, Proc.bind_assoc, hparse,
    Proc.run_bind_ok (Proc.run_ofExcept _ _), Proc.bind_assoc, Proc.run_bind_ok hget]
  dsimp only
  rw [Proc.run_bind_ok rfl, if_pos hv]
  rfl

theorem Stored.refreshes {base : Settings} {claims : Claims} {u : UUID}
    {kept : List (Row RefreshToken)} {row : Row RefreshToken} (hs : Stored w u kept row w')
    (ht : Tidy w') (hexp : row.val.expires_at = w.clock + minutes base.refresh_token_expire)
    (hsub : claims.sub = some (.ofUuid u)) {d : Nat}
    (hd : w'.clock + d ≤ w.clock + minutes base.refresh_token_expire) :
    ∃ tokens, ((UserService.refresh_token base pwd (new_tokens base claims w).refresh_token).run
      (w'.advance d)).1 = .ok tokens := by
  have hrow : row ∈ (w'.advance d).tokens := by
    change row ∈ w'.tokens
    rw [hs.tokens]
    exact List.mem_append_right _ (List.mem_singleton_self row)
  have hmade : MadeFor base row (new_tokens base claims w).refresh_token := by
    refine ⟨rfl, ?_, ?_, ?_⟩
    · rw [hs.user_id]
      exact Token.subject_signed.mpr hsub
    · rw [hexp]
      rfl
    · rw [hs.jti]
      rfl
  have htidy : Tidy (w'.advance d) := ⟨ht.unlocked, ht.jti_lt⟩
  refine (refresh_token.succeeds_iff htidy hrow hmade).mpr
    (World.mem_accepted.mpr ⟨row, World.mem_live_rows.mpr ⟨hrow, ?_⟩, ?_, rfl⟩)
  · simp [RefreshToken.live_of, hs.live]
  · rw [hexp]
    exact Nat.div_le_div_right hd

end

/-! ## The law -/

namespace Sample

/-- Eva has an account, and no token. -/
def alone : Service := ⟨opened.world, []⟩

def google_login : AccountRequest := .auth (.login (.google (callback "eva@example.com")))

section

variable (settings : AccountSettings) (pwd : PwdContext) (user_repo : UserRepo)

theorem alone_reachable : (service settings pwd user_repo).Reachable NoTokens alone :=
  ⟨alone, [], ⟨rfl, rfl⟩, .nil _⟩

theorem google_login_run : ∃ row w',
    (google_login.prog settings pwd user_repo).run alone.world =
      (.ok (new_tokens settings.toSettings (UserService.user_data ⟨0, eva⟩) alone.world).issued,
        w') ∧
      Stored alone.world 0 [] row w' ∧
      row.val.expires_at = alone.world.clock + minutes settings.refresh_token_expire := by
  have htidy : Tidy alone.world := ⟨rfl, fun r hr => nomatch (show r ∈ [] from hr)⟩
  have hhas : alone.world.db.users.Has (⟨0, eva⟩ : Row User).id :=
    ⟨⟨0, eva⟩, List.mem_singleton_self _, rfl⟩
  have hadmission : (LoginRequest.admission pwd (.google (callback "eva@example.com"))).run
      alone.world = (.ok ⟨0, eva⟩, alone.world) := rfl
  obtain ⟨row, w', hrun, hs⟩ :=
    UserService.issue_tokens.spec settings.toSettings pwd htidy hhas
  refine ⟨row, w', ?_, hs⟩
  unfold google_login
  rw [AccountRequest.prog_auth (by simp)]
  change (((LoginRequest.prog settings.toSettings pwd _ >>= fun login =>
    pure (some login.toTokenPair)) >>= fun tokens =>
      pure (tokens.elim [] TokenPair.issued)).run alone.world) = _
  rw [LoginRequest.prog_eq, Proc.bind_assoc, Proc.bind_assoc, Proc.run_bind_ok hadmission,
    Proc.run_bind_ok hrun]
  rfl

/-- Eva is sent a link. -/
theorem forget_password_run :
    ((AccountRequest.forget_password "eva@example.com").prog settings pwd user_repo).run
      alone.world = (.ok [⟨.password_reset, .signed settings.validation_secret_key
        (new_payload ⟨some (.ofUuid 0), none, none⟩ alone.world.clock
          (alone.world.clock + minutes settings.validation_token_expire) 0)⟩],
        { alone.world with uuids := 1 }) := rfl

end

end Sample

open Sample in
/-- The tokens of a login and of an email, at the end of their minutes. -/
theorem lifetimes_are_zero {settings : AccountSettings} {pwd : PwdContext} {user_repo : UserRepo}
    (h : KeepsLifetimes settings pwd user_repo) : settings.access_token_expire = 0 ∧
      settings.refresh_token_expire = 0 ∧ settings.validation_token_expire = 0 := by
  have hs := alone_reachable settings pwd user_repo
  obtain ⟨row, w', hlogin, hstored, hexp⟩ := google_login_run settings pwd user_repo
  have hclock : w'.clock = alone.world.clock := by
    have hstay : ((google_login.prog settings pwd user_repo).run alone.world).2.clock =
      alone.world.clock := google_login.clock
    rwa [hlogin] at hstay
  have htidy : Tidy w' := hstored.tidy fun r hr => nomatch hr
  refine ⟨?_, ?_, ?_⟩
  · refine lifetime_of_accepted h hs hlogin List.mem_cons_self (get_user.accepts_new rfl ?_)
    exact Nat.le_of_eq (congrArg (· + _) hclock)
  · refine lifetime_of_accepted h hs hlogin (List.mem_cons_of_mem _ List.mem_cons_self)
      (hstored.refreshes htidy hexp rfl ?_)
    exact Nat.le_of_eq (congrArg (· + _) hclock)
  · have hsent := forget_password_run settings pwd user_repo
    refine lifetime_of_accepted h hs hsent List.mem_cons_self (Or.inl ⟨false, ?_⟩)
    exact UserService.validate_user.accepts_new ⟨0, eva⟩ rfl rfl rfl (Nat.le_refl _)

/-- Settings that are not negative are kept as seconds, in all runs, if and only if they
are zero. -/
theorem keeps_lifetimes_iff (settings : AccountSettings) (pwd : PwdContext)
    (user_repo : UserRepo) : KeepsLifetimes settings pwd user_repo ↔
      settings.access_token_expire = 0 ∧ settings.refresh_token_expire = 0 ∧
        settings.validation_token_expire = 0 :=
  ⟨lifetimes_are_zero, keeps_lifetimes_of_zero⟩

namespace Sample

/-- The defaults that are documented. -/
def documented : AccountSettings where
  access_secret_key := 1
  access_token_expire := 900
  refresh_secret_key := 2
  refresh_token_expire := 2592000
  stripe_webhook_secret := 3
  validation_secret_key := 4
  validation_token_expire := 900
  app_url := "https://app"

end Sample

open Sample in
/-- An access token for 900 seconds is accepted after 15 hours. -/
theorem access_token_lasts_for_hours :
    ∃ access refresh w, (google_login.prog documented pwd .user).run alone.world =
        (.ok [⟨.access, access⟩, ⟨.refresh, refresh⟩], w) ∧
      ((get_user documented.toSettings (.bearer access)).run
        (w.advance (fromtimestamp 54000))).1 = .ok (some ⟨0, eva⟩) ∧
      ¬ KeepsLifetimes documented pwd .user := by
  refine ⟨_, _, _, rfl, by decide, fun h => ?_⟩
  have hzero := (lifetimes_are_zero h).1
  cases hzero

end saas
