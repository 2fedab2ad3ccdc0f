-- Refresh tokens as a law of the history: of all the refresh tokens that a user
-- was ever given, exactly the last one is accepted.
import SaasBackend.TokenRows

open relational async

namespace saas

section

variable {settings : Settings} {pwd : PwdContext}

/-! ## Tokens that were issued -/

theorem new_tokens_access (settings : Settings) (claims : Claims) (w : World) :
    (new_tokens settings claims w).access_token.claims = some claims := rfl

theorem new_tokens_refresh (settings : Settings) (claims : Claims) (w : World) :
    (new_tokens settings claims w).refresh_token.claims = some claims := rfl

theorem new_tokens_signed (settings : Settings) (claims : Claims) (w : World) :
    (new_tokens settings claims w).refresh_token.secret_key =
      some settings.refresh_secret_key := rfl

theorem new_tokens_jti (settings : Settings) (claims : Claims) (w : World) :
    (new_tokens settings claims w).refresh_token.jti = some (w.uuids + 1) := rfl

namespace Accounts

variable {s : Accounts} {g : Grant} {u : UUID} {t : Token}

theorem last_issued_append (w : World) (s : Accounts) (g : Grant) (u : UUID) :
    Accounts.last_issued ⟨w, s.issued ++ [g]⟩ u =
      if g.tokens.refresh_token.subject = some u then some g.tokens.refresh_token
      else s.last_issued u := by
  unfold last_issued
  rw [List.map_append, List.filter_append]
  by_cases h : g.tokens.refresh_token.subject = some u
  · simp [h]
  · simp [h]

/-- The last token that was issued to a user is one of theirs. -/
theorem mem_of_last_issued (h : s.last_issued u = some t) :
    t.subject = some u ∧ ∃ g ∈ s.issued, g.tokens.refresh_token = t := by
  unfold last_issued at h
  have hmem := List.mem_of_getLast? h
  rw [List.mem_filter, List.mem_map] at hmem
  obtain ⟨⟨g, hg, ht⟩, hsub⟩ := hmem
  exact ⟨by simpa using hsub, g, hg, ht⟩

/-- The refresh token came from the login by rotations. -/
inductive Descends (s : Accounts) : Token → Grant → Prop where
  | login {g : Grant} (hg : g ∈ s.issued) (hlogin : g.presented = none) :
      Descends s g.tokens.refresh_token g
  | rotation {g login : Grant} {t : Token} (hg : g ∈ s.issued) (ht : g.presented = some t)
      (h : Descends s t login) : Descends s g.tokens.refresh_token login

theorem Descends.mono {s' : Accounts} {login : Grant} (h : s.Descends t login)
    (hs : ∀ g ∈ s.issued, g ∈ s'.issued) : s'.Descends t login := by
  induction h with
  | login hg hlogin => exact .login (hs _ hg) hlogin
  | rotation hg ht _ ih => exact .rotation (hs _ hg) ht ih

end Accounts

/-! ## What a request records -/

/-- All that a request can do to the tokens and to the record of them. -/
inductive ServeStep (settings : Settings) (s : Accounts) : Accounts → Prop where
  | quiet {o : UUID → Prop} {w' : World} (hq : Quiet o s.world w') :
      ServeStep settings s ⟨w', s.issued⟩
  | login {user : Row User} {w1 w' : World} {row : Row RefreshToken}
      (hq : Quiet nobody s.world w1)
      (hs : Stored w1 user.id
        (w1.tokens.filter (fun r => decide (r.val.user_id ≠ user.id))) row w') :
      ServeStep settings s ⟨w', s.issued ++
        [⟨new_tokens settings (UserService.user_data user) w1, none, s.world⟩]⟩
  | rotation {token : Token} {payload : Payload} {old row : Row RefreshToken} {w' : World}
      (ha : UserService.Accepted settings s.world token payload old)
      (hlast : s.last_issued old.val.user_id = some token)
      (hs : Stored s.world old.val.user_id (s.world.tokens.map (Table.updateRow old.id
        (RefreshToken.replaced (s.world.uuids + 1) s.world.clock))) row w') :
      ServeStep settings s ⟨w', s.issued ++
        [⟨new_tokens settings payload.claims s.world, some token, s.world⟩]⟩

/-- An accepted token that was issued names its user. -/
theorem accepted_sub {s : Accounts} {token : Token} {payload : Payload} {old : Row RefreshToken}
    (ha : UserService.Accepted settings s.world token payload old)
    (hlast : s.last_issued old.val.user_id = some token) :
    payload.claims.sub = some (.ofUuid old.val.user_id) := by
  obtain ⟨hsub, _⟩ := Accounts.mem_of_last_issued hlast
  rw [ha.signed] at hsub
  exact Token.subject_signed.mp hsub

/-- A request that returns no tokens and only takes quiet steps. -/
theorem ServeStep.of_quiet {s : Accounts} {request : AuthRequest} {o : UUID → Prop}
    (hq : (request.prog settings pwd).Acts (Quiet o))
    (hmade : ∀ tokens, ¬ Made settings s.world request tokens) :
    ServeStep settings s (AuthLabel.next settings pwd s (.serve request)) := by
  have hw := hq.run_keeps Quiet.refl (fun _ _ _ => Quiet.trans) s.world
  change ServeStep settings s (AuthLabel.record s request ((request.prog settings pwd).run s.world))
  rcases hr : (request.prog settings pwd).run s.world with ⟨e | _ | tokens, w'⟩
  · rw [hr] at hw
    exact .quiet hw
  · rw [hr] at hw
    exact .quiet hw
  · exact absurd (AuthRequest.made hr) (hmade tokens)

theorem AuthRequest.serve_step {s : Accounts} {request : AuthRequest} (ht : Tidy s.world)
    (hown : ∀ token, request = .refresh token → ∀ payload old,
      UserService.Accepted settings s.world token payload old →
        s.last_issued old.val.user_id = some token) :
    ServeStep settings s (AuthLabel.next settings pwd s (.serve request)) := by
  cases request with
  | register email username password =>
    refine .of_quiet (o := nobody) ((UserService.register_user.quiet _ _ _).bind fun _ =>
      quiet_pure _) fun tokens h => ?_
    cases h
  | request_code email code =>
    refine .of_quiet (o := nobody) ((UserService.login_code.quiet _ _).bind fun _ =>
      quiet_pure _) fun tokens h => ?_
    cases h
  | deactivate authorization =>
    refine .of_quiet (o := nobody) ((get_active_user.quiet _).bind fun user =>
      (UserService.deactivate_user.quiet user).bind fun _ => quiet_pure _) fun tokens h => ?_
    cases h
  | update_user_status authorization user_id is_active =>
    refine .of_quiet (o := fun _ => True) ((get_admin_user.quiet _).bind fun _ =>
      (UsersService.update_user_status.quiet _ _ _ fun _ => trivial).bind fun _ => quiet_pure _)
      fun tokens h => ?_
    cases h
  | login request =>
    change ServeStep settings s (AuthLabel.record s (.login request)
      ((request.prog settings pwd >>= fun login => pure (some login.toTokenPair)).run s.world))
    rcases request.issues settings pwd s.world with ⟨e, w1, he, hq⟩ | ⟨user, w1, hq, ha, hrun⟩
    · rw [Proc.run_bind_error he]
      exact .quiet hq
    · obtain ⟨row, w', hissue, hs, _⟩ :=
        UserService.issue_tokens.spec settings pwd (ht.quiet hq) ha.present
      rw [Proc.run_bind_ok (hrun.trans hissue)]
      exact .login hq hs
  | refresh token =>
    change ServeStep settings s (AuthLabel.record s (.refresh token)
      ((UserService.refresh_token settings pwd token >>= fun tokens => pure (some tokens)).run
        s.world))
    rcases UserService.refresh_token.spec settings pwd token s.world with
      ⟨payload, old, ha, hrun⟩ | ⟨_, e, he⟩
    · have hlast := hown token rfl payload old ha
      have hsub := accepted_sub ha hlast
      have hu := s.world.db.fk_token_user old ha.stored old.val.user_id rfl
      obtain ⟨row, w', hrotate, hs, _⟩ :=
        UserService.rotate.spec settings pwd hsub ht hu ha.stored
      rw [Proc.run_bind_ok (hrun.trans hrotate)]
      exact .rotation ha hlast hs
    · rw [Proc.run_bind_error he]
      exact .quiet (Quiet.refl (o := nobody) s.world)

/-! ## The invariant -/

/-- The unrevoked rows are the rows of the last issued tokens. -/
structure History (settings : Settings) (s : Accounts) : Prop where
  tidy : Tidy s.world
  /-- A row that is not revoked is of the last token of its user. -/
  live : ∀ r ∈ s.world.tokens, r.val.revoked = false →
    ∃ t, s.last_issued r.val.user_id = some t ∧ t.jti = some r.val.jti
  /-- The last token of a user has a row that is not revoked. -/
  last : ∀ u t, s.last_issued u = some t →
    ∃ r ∈ s.world.tokens, r.val.revoked = false ∧ r.val.user_id = u ∧ t.jti = some r.val.jti
  signed : ∀ g ∈ s.issued,
    g.tokens.refresh_token.secret_key = some settings.refresh_secret_key
  claims : ∀ g ∈ s.issued, g.tokens.access_token.claims = g.tokens.refresh_token.claims
  rotated : ∀ g ∈ s.issued, ∀ t, g.presented = some t → g.tokens.refresh_token.claims = t.claims
  descends : ∀ g ∈ s.issued, ∃ login, s.Descends g.tokens.refresh_token login

/-- A service that has issued nothing yet. -/
structure Unused (s : Accounts) : Prop where
  tokens : s.world.tokens = []
  locks : s.world.token_locks = []
  issued : s.issued = []

theorem Unused.history {s : Accounts} (h : Unused s) : History settings s where
  tidy := ⟨h.locks, by simp [h.tokens]⟩
  live := by simp [h.tokens]
  last u t ht := by
    obtain ⟨_, g, hg, _⟩ := Accounts.mem_of_last_issued ht
    rw [h.issued] at hg
    cases hg
  signed := by simp [h.issued]
  claims := by simp [h.issued]
  rotated := by simp [h.issued]
  descends := by simp [h.issued]

namespace History

variable {s : Accounts}

/-- The row of an accepted token is of the user that the token names, and the
token is the last one of that user. -/
theorem accepted_last (h : History settings s) {token : Token} (hg : s.Genuine settings token)
    {payload : Payload} {old : Row RefreshToken}
    (ha : UserService.Accepted settings s.world token payload old) :
    s.last_issued old.val.user_id = some token := by
  obtain ⟨t, ht, hjti⟩ := h.live old ha.stored ha.live
  obtain ⟨_, g, hmem, rfl⟩ := Accounts.mem_of_last_issued ht
  have hkey : token.secret_key = some settings.refresh_secret_key := by
    rw [ha.signed]
    rfl
  have hid : token.jti = g.tokens.refresh_token.jti := by
    rw [hjti, ha.signed]
    exact ha.jti
  rw [ht, hg g hmem hkey hid]

/-- The last token of a user is accepted until it expires. -/
theorem last_accepted (h : History settings s) {u : UUID} {payload : Payload}
    (hlast : s.last_issued u = some (.signed settings.refresh_secret_key payload))
    (hexp : payload.unexpired s.world.clock = true) :
    ∃ old, UserService.Accepted settings s.world (.signed settings.refresh_secret_key payload)
      payload old := by
  obtain ⟨old, hold, hlive, _, hjti⟩ := h.last u _ hlast
  obtain ⟨hsub, _⟩ := Accounts.mem_of_last_issued hlast
  refine ⟨old, rfl, hexp, ?_, hold, hjti, hlive⟩
  rw [Token.subject_signed.mp hsub]
  simp

/-! ## The invariant holds along a run -/

/-- A request that issues a token to `u` ends the rows that `u` had. -/
theorem issue (h : History settings s) {u : UUID} {kept : List (Row RefreshToken)}
    {row : Row RefreshToken} {w w' : World} {g : Grant} (hs : Stored w u kept row w')
    (hkept : ∀ r, r.val.revoked = false →
      (r ∈ kept ↔ r ∈ s.world.tokens ∧ r.val.user_id ≠ u))
    (hjti : ∀ r ∈ kept, r.val.jti < w.uuids)
    (hsub : g.tokens.refresh_token.subject = some u)
    (hid : g.tokens.refresh_token.jti = some (w.uuids + 1))
    (hkey : g.tokens.refresh_token.secret_key = some settings.refresh_secret_key)
    (hclaims : g.tokens.access_token.claims = g.tokens.refresh_token.claims)
    (hrot : ∀ t, g.presented = some t → g.tokens.refresh_token.claims = t.claims)
    (hdesc : ∃ login, Accounts.Descends ⟨w', s.issued ++ [g]⟩ g.tokens.refresh_token login) :
    History settings ⟨w', s.issued ++ [g]⟩ where
  tidy := hs.tidy hjti
  live r hr hrev := by
    change r ∈ w'.tokens at hr
    rw [hs.tokens, List.mem_append, List.mem_singleton] at hr
    rw [Accounts.last_issued_append, hsub]
    rcases hr with hr | rfl
    · obtain ⟨hr, hne⟩ := (hkept r hrev).mp hr
      rw [if_neg fun heq => hne (Option.some.inj heq).symm]
      exact h.live r hr hrev
    · rw [if_pos (congrArg some hs.user_id.symm)]
      exact ⟨_, rfl, by rw [hid, hs.jti]⟩
  last v t ht := by
    change ∃ r ∈ w'.tokens, _
    rw [Accounts.last_issued_append, hsub] at ht
    simp only [hs.tokens, List.mem_append, List.mem_singleton]
    by_cases hv : u = v
    · rw [if_pos (congrArg some hv), Option.some.injEq] at ht
      refine ⟨row, Or.inr rfl, hs.live, hs.user_id.trans hv, ?_⟩
      rw [← ht, hid, hs.jti]
    · rw [if_neg fun heq => hv (Option.some.inj heq)] at ht
      obtain ⟨r, hr, hrev, hu, hj⟩ := h.last v t ht
      exact ⟨r, Or.inl ((hkept r hrev).mpr ⟨hr, fun hru => hv (hru.symm.trans hu)⟩), hrev, hu, hj⟩
  signed g' hg' := by
    rcases List.mem_append.mp hg' with hg' | hg'
    · exact h.signed g' hg'
    · exact List.mem_singleton.mp hg' ▸ hkey
  claims g' hg' := by
    rcases List.mem_append.mp hg' with hg' | hg'
    · exact h.claims g' hg'
    · exact List.mem_singleton.mp hg' ▸ hclaims
  rotated g' hg' := by
    rcases List.mem_append.mp hg' with hg' | hg'
    · exact h.rotated g' hg'
    · exact List.mem_singleton.mp hg' ▸ hrot
  descends g' hg' := by
    rcases List.mem_append.mp hg' with hg' | hg'
    · obtain ⟨login, hl⟩ := h.descends g' hg'
      exact ⟨login, hl.mono fun g' hg' => List.mem_append_left _ hg'⟩
    · exact List.mem_singleton.mp hg' ▸ hdesc

/-- The one live row of a user is that of the last token. -/
theorem live_unique (h : History settings s) {r old : Row RefreshToken}
    (hr : r ∈ s.world.tokens) (hrev : r.val.revoked = false) (hold : old ∈ s.world.tokens)
    (hlive : old.val.revoked = false) (hu : r.val.user_id = old.val.user_id) : r = old := by
  obtain ⟨t, ht, hj⟩ := h.live r hr hrev
  obtain ⟨t', ht', hj'⟩ := h.live old hold hlive
  rw [hu, ht', Option.some.injEq] at ht
  rw [← ht, hj', Option.some.injEq] at hj
  exact Table.eq_of_key (k := r.val.jti) hr hold (List.mem_singleton_self _)
    (List.mem_singleton.mpr hj.symm)

/-- The rows that a rotation keeps live are those of the other users. -/
theorem mem_rotated (h : History settings s) {r old : Row RefreshToken} {by_jti : Jti} {t : Time}
    (hold : old ∈ s.world.tokens) (hlive : old.val.revoked = false)
    (hrev : r.val.revoked = false) :
    r ∈ s.world.tokens.map (Table.updateRow old.id (RefreshToken.replaced by_jti t)) ↔
      r ∈ s.world.tokens ∧ r.val.user_id ≠ old.val.user_id := by
  rw [List.mem_map]
  constructor
  · rintro ⟨x, hx, rfl⟩
    by_cases hid : x.id = old.id
    · rw [Table.updateRow_of_eq hid] at hrev
      cases hrev
    · rw [Table.updateRow_of_ne hid] at hrev ⊢
      exact ⟨hx, fun hu => hid (congrArg Row.id (h.live_unique hx hrev hold hlive hu))⟩
  · rintro ⟨hr, hne⟩
    refine ⟨r, hr, Table.updateRow_of_ne fun hid => hne ?_⟩
    rw [Table.eq_of_id hr hold hid]

theorem quiet {o : UUID → Prop} {w' : World} (h : History settings s) (hq : Quiet o s.world w') :
    History settings ⟨w', s.issued⟩ := by
  have htokens : w'.tokens = s.world.tokens := congrArg Table.rows hq.tokens
  refine ⟨h.tidy.quiet hq, ?_, ?_, h.signed, h.claims, h.rotated, fun g hg => ?_⟩
  · change ∀ r ∈ w'.tokens, _
    rw [htokens]
    exact h.live
  · change ∀ u t, s.last_issued u = some t → ∃ r ∈ w'.tokens, _
    rw [htokens]
    exact h.last
  · obtain ⟨login, hl⟩ := h.descends g hg
    exact ⟨login, hl.mono fun _ hg => hg⟩

/-- The step lemma: whatever a request does to the tokens. -/
theorem step {s' : Accounts} (h : History settings s) (hs : ServeStep settings s s') :
    History settings s' := by
  cases hs with
  | quiet hq => exact h.quiet hq
  | @login user w1 w' row hq hs =>
    have htokens : w1.tokens = s.world.tokens := congrArg Table.rows hq.tokens
    let g : Grant := ⟨new_tokens settings (UserService.user_data user) w1, none, s.world⟩
    have hmem : g ∈ s.issued ++ [g] := by simp
    have hdesc : Accounts.Descends ⟨w', s.issued ++ [g]⟩ g.tokens.refresh_token g :=
      .login hmem rfl
    refine h.issue (g := g) hs (fun r _ => ?_) (fun r hr => ?_) ?_ (new_tokens_jti _ _ _)
      (new_tokens_signed _ _ _) ((new_tokens_access _ _ _).trans (new_tokens_refresh _ _ _).symm)
      (fun t ht => ?_) ⟨g, hdesc⟩
    · rw [htokens, List.mem_filter, decide_eq_true_iff]
    · exact (h.tidy.quiet hq).jti_lt r (List.mem_of_mem_filter hr)
    · exact Token.subject_signed.mpr rfl
    · cases ht
  | @rotation token payload old row w' ha hlast hs =>
    let g : Grant := ⟨new_tokens settings payload.claims s.world, some token, s.world⟩
    have hmem : g ∈ s.issued ++ [g] := by simp
    obtain ⟨_, g', hg', hsame⟩ := Accounts.mem_of_last_issued hlast
    obtain ⟨login, hl⟩ := h.descends g' hg'
    have hdesc : Accounts.Descends ⟨w', s.issued ++ [g]⟩ g.tokens.refresh_token login := by
      refine .rotation hmem rfl ?_
      rw [← hsame]
      exact hl.mono fun _ hg => List.mem_append_left _ hg
    refine h.issue (g := g) hs (fun r hrev => h.mem_rotated ha.stored ha.live hrev)
      (fun r hr => ?_) ?_ (new_tokens_jti _ _ _) (new_tokens_signed _ _ _)
      ((new_tokens_access _ _ _).trans (new_tokens_refresh _ _ _).symm) (fun t ht => ?_)
      ⟨login, hdesc⟩
    · obtain ⟨x, hx, rfl⟩ := List.mem_map.mp hr
      have hkeys := Table.keys_updateRow old.id (RefreshToken.replaced (s.world.uuids + 1)
        s.world.clock) (fun _ => rfl) x
      have hj : (Table.updateRow old.id (RefreshToken.replaced (s.world.uuids + 1)
        s.world.clock) x).val.jti = x.val.jti := List.singleton_inj.mp hkeys
      rw [hj]
      exact h.tidy.jti_lt x hx
    · have hsub := accepted_sub ha hlast
      exact Token.subject_signed.mpr hsub
    · cases ht
      rw [ha.signed]
      exact new_tokens_refresh _ _ _

theorem next (h : History settings s) {l : AuthLabel} (hl : l.Enabled settings s) :
    History settings (l.next settings pwd s) := by
  cases l with
  | tick d => exact h.quiet (o := nobody) (Quiet.aside rfl rfl (Nat.le_refl _) rfl)
  | serve request =>
    refine h.step (AuthRequest.serve_step h.tidy ?_)
    rintro token rfl payload old ha
    exact h.accepted_last (hl token rfl) ha

theorem of_reachable (h : (accounts settings pwd).Reachable Unused s) : History settings s :=
  h.invariant (fun _ h0 => h0.history) (fun _ _ h hl => h.next hl)

/-- Along its rotations a token keeps the claims of the login. -/
theorem claims_of_login (h : History settings s) {token : Token} {login : Grant}
    (hd : s.Descends token login) : token.claims = login.tokens.refresh_token.claims := by
  induction hd with
  | login => rfl
  | rotation hg ht _ ih => exact (h.rotated _ hg _ ht).trans ih

theorem login_issued {token : Token} {login : Grant} (hd : s.Descends token login) :
    login ∈ s.issued ∧ login.presented = none := by
  induction hd with
  | login hg hlogin => exact ⟨hg, hlogin⟩
  | rotation _ _ _ ih => exact ih

end History

/-! ## The law -/

/-- A refresh succeeds exactly for the token last issued to its user, while it is
unexpired. What it returns has the claims of the login that the token comes
from, and a refusal leaves the rows of tokens. -/
theorem refresh_accepts_the_last_issued {s : Accounts} {token : Token}
    (hs : (accounts settings pwd).Reachable Unused s) (hg : s.Genuine settings token) :
    ((∃ tokens, ((UserService.refresh_token settings pwd token).run s.world).1 = .ok tokens) ↔
      ∃ payload, token = .signed settings.refresh_secret_key payload ∧
        payload.unexpired s.world.clock = true ∧ ∃ u, s.last_issued u = some token) ∧
    (∀ tokens w', (UserService.refresh_token settings pwd token).run s.world = (.ok tokens, w') →
      (∃ login, s.Descends token login) ∧ ∀ login, s.Descends token login →
        tokens.access_token.claims = login.tokens.access_token.claims ∧
        tokens.refresh_token.claims = login.tokens.refresh_token.claims) ∧
    (∀ e w', (UserService.refresh_token settings pwd token).run s.world = (.error e, w') →
      w'.tokens = s.world.tokens) := by
  have h := History.of_reachable hs
  rcases UserService.refresh_token.spec settings pwd token s.world with
    ⟨payload, old, ha, hrun⟩ | ⟨hno, e, he⟩
  · have hlast := h.accepted_last hg ha
    have hu := s.world.db.fk_token_user old ha.stored old.val.user_id rfl
    obtain ⟨row, w', hrotate, _⟩ :=
      UserService.rotate.spec settings pwd (accepted_sub ha hlast) h.tidy hu ha.stored
    rw [hrun, hrotate]
    refine ⟨iff_of_true ⟨_, rfl⟩ ⟨payload, ha.signed, ha.unexpired, _, hlast⟩, ?_, ?_⟩
    · rintro tokens w'' ⟨⟩
      obtain ⟨_, g, hmem, hsame⟩ := Accounts.mem_of_last_issued hlast
      refine ⟨hsame ▸ h.descends g hmem, fun login hd => ?_⟩
      have hclaims : login.tokens.refresh_token.claims = some payload.claims := by
        rw [← h.claims_of_login hd, ha.signed]
        rfl
      rw [h.claims login (History.login_issued hd).1, hclaims]
      exact ⟨new_tokens_access _ _ _, new_tokens_refresh _ _ _⟩
    · rintro e w'' ⟨⟩
  · rw [he]
    refine ⟨iff_of_false ?_ ?_, ?_, ?_⟩
    · rintro ⟨tokens, ⟨⟩⟩
    · rintro ⟨payload, rfl, hexp, u, hlast⟩
      obtain ⟨old, ha⟩ := h.last_accepted hlast hexp
      exact hno payload old ha
    · rintro tokens w' ⟨⟩
    · rintro e' w' ⟨⟩
      rfl

end

namespace Sample

/-- Eva has logged in, and bob has come from Google. -/
def two_logins : Accounts :=
  (accounts settings pwd).exec opened
    [login_of_eva, .serve (.login (.google (callback "bob@example.com")))]

/-- Eva's token was exchanged for another one. -/
def rotated : Accounts :=
  (accounts settings pwd).exec two_logins [.serve (.refresh first_tokens.refresh_token)]

def second_tokens : TokenPair :=
  new_tokens settings (UserService.user_data ⟨0, eva⟩) two_logins.world

theorem rotated_reachable : (accounts settings pwd).Reachable Unused rotated :=
  ⟨opened, [login_of_eva, .serve (.login (.google (callback "bob@example.com"))),
    .serve (.refresh first_tokens.refresh_token)], ⟨rfl, rfl, rfl⟩, .of_path (by decide)⟩

end Sample

open Sample in
/-- Eva's second token is accepted, and her first one is not. -/
theorem refresh_accepts_the_last_issued_sample :
    (∃ tokens, ((UserService.refresh_token settings pwd second_tokens.refresh_token).run
      rotated.world).1 = .ok tokens) ∧
    ¬ ∃ tokens, ((UserService.refresh_token settings pwd first_tokens.refresh_token).run
      rotated.world).1 = .ok tokens := by
  constructor
  · refine (refresh_accepts_the_last_issued rotated_reachable (by decide)).1.mpr
      ⟨_, rfl, by decide, 0, by decide⟩
  · intro hok
    obtain ⟨payload, _, _, u, hlast⟩ :=
      (refresh_accepts_the_last_issued rotated_reachable (by decide)).1.mp hok
    obtain ⟨hsub, _⟩ := Accounts.mem_of_last_issued hlast
    obtain rfl : 0 = u := by
      have heva : first_tokens.refresh_token.subject = some 0 := by decide
      rw [heva] at hsub
      exact Option.some.inj hsub
    exact absurd hlast (by decide)

end saas
