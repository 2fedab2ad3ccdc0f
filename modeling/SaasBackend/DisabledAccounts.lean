-- Disabled accounts: which requests can give tokens to a user whose account is
-- switched off, and that no other request does.
import SaasBackend.TokenRows

open relational async

namespace saas

section

variable {settings : Settings} {pwd : PwdContext} {w w' : World}

/-! ## For whom tokens are -/

/-- The tokens are for `u`. -/
def TokenPair.Names (tokens : TokenPair) (u : UUID) : Prop :=
  tokens.access_token.subject = some u ∨ tokens.refresh_token.subject = some u

theorem new_tokens_names {claims : Claims} {u : UUID} :
    (new_tokens settings claims w).Names u ↔ claims.sub = some (.ofUuid u) := by
  unfold TokenPair.Names new_tokens
  rw [Token.subject_signed, Token.subject_signed]
  exact or_self_iff

/-! ## Who is switched on -/

/-- An admin asks to switch `u` on. -/
def AuthLabel.Enables (settings : Settings) (u : UUID) (s : Accounts) (l : AuthLabel) : Prop :=
  ∃ authorization admin, l = .serve (.update_user_status authorization u true) ∧
    ((get_admin_user settings authorization).run s.world).1 = .ok admin

theorem off_of_quiet {α : Type} {o : UUID → Prop} {p : M α} (hp : p.Acts (Quiet o)) {u : UUID}
    (hu : ¬ o u) (hd : w.disabled u = true) : (p.run w).2.disabled u = true :=
  (hp.run_keeps Quiet.refl (fun _ _ _ => Quiet.trans) w).off u hu hd

theorem off_of_steps {α : Type} {p : M α} (hp : p.Acts TokenStep) {u : UUID}
    (hd : w.disabled u = true) : (p.run w).2.disabled u = true := by
  have husers := (hp.mono fun _ _ => TokenStep.users).run_keeps (fun _ => rfl)
    (fun _ _ _ h h' => h'.trans h) w
  unfold World.disabled at hd ⊢
  rw [husers]
  exact hd

/-- Only an admin switches an account on. -/
theorem AuthRequest.off {request : AuthRequest} {u : UUID} {s : Accounts}
    (hd : s.world.disabled u = true) (hon : ¬ (AuthLabel.serve request).Enables settings u s) :
    ((request.prog settings pwd).run s.world).2.disabled u = true := by
  cases request with
  | register email username password =>
    exact off_of_quiet ((UserService.register_user.quiet _ _ _).bind fun _ => quiet_pure _)
      (o := nobody) not_false hd
  | request_code email code =>
    exact off_of_quiet ((UserService.login_code.quiet _ _).bind fun _ => quiet_pure _)
      (o := nobody) not_false hd
  | login request =>
    change ((request.prog settings pwd >>= fun login => pure (some login.toTokenPair)).run
      s.world).2.disabled u = true
    rw [Proc.run_map_snd]
    rcases request.issues settings pwd s.world with ⟨e, w1, he, hq⟩ | ⟨user, w1, hq, _, hrun⟩
    · rw [he]
      exact hq.off u not_false hd
    · rw [hrun]
      exact off_of_steps (UserService.issue_tokens.steps _ _ _) (hq.off u not_false hd)
  | refresh token =>
    change ((UserService.refresh_token settings pwd token >>= fun tokens => pure (some tokens)).run
      s.world).2.disabled u = true
    rw [Proc.run_map_snd]
    rcases UserService.refresh_token.spec settings pwd token s.world with
      ⟨payload, old, _, hrun⟩ | ⟨_, e, he⟩
    · rw [hrun]
      exact off_of_steps (UserService.rotate.steps _ _ _ _) hd
    · rw [he]
      exact hd
  | deactivate authorization =>
    exact off_of_quiet ((get_active_user.quiet _).bind fun user =>
      (UserService.deactivate_user.quiet user).bind fun _ => quiet_pure _)
      (o := nobody) not_false hd
  | update_user_status authorization user_id is_active =>
    have hadmin : ((get_admin_user settings authorization).run s.world).2.disabled u = true :=
      off_of_quiet (o := nobody) (get_admin_user.quiet authorization) not_false hd
    unfold AuthRequest.prog
    rw [Proc.run_bind]
    rcases hr : (get_admin_user settings authorization).run s.world with ⟨e | admin, w1⟩
    · rw [hr] at hadmin
      exact hadmin
    · rw [hr] at hadmin
      refine off_of_quiet (o := fun i => i = user_id ∧ is_active = true)
        ((UsersService.update_user_status.quiet _ _ _ fun h => ⟨rfl, h⟩).bind
          fun _ => quiet_pure _) ?_ hadmin
      rintro ⟨rfl, rfl⟩
      exact hon ⟨authorization, admin, rfl, by rw [hr]⟩

/-! ## The law -/

/-- The paths that do not look at the flag are not taken for `u`: no callback of
a provider passes its checks with the email of `u`, and no refresh token of `u`
that is accepted is presented. -/
def Guarded (settings : Settings) (u : UUID) (s : Accounts) : AuthLabel → Prop
  | .serve (.login request) => ∀ email, request.vouched = some email →
      ∀ r ∈ s.world.user_of_email email, r.id ≠ u
  | .serve (.refresh token) => token.subject = some u →
      ∀ payload old, ¬ UserService.Accepted settings s.world token payload old
  | _ => True

theorem Made.not_named {request : AuthRequest} {tokens : TokenPair} {u : UUID} {s : Accounts}
    (h : Made settings s.world request tokens) (hd : s.world.disabled u = true)
    (hg : Guarded settings u s (.serve request)) : ¬ tokens.Names u := by
  cases h with
  | @login request user w1 ha =>
    intro hn
    have hu : user.id = u := by
      have hsub := new_tokens_names.mp hn
      simpa [UserService.user_data] using hsub
    rcases ha.active with hactive | ⟨email, hv, hmem⟩
    · rw [hu, hd] at hactive
      cases hactive
    · exact hg email hv user hmem hu
  | @rotation token payload old ha =>
    intro hn
    have hsub := new_tokens_names.mp hn
    refine hg ?_ payload old ha
    rw [ha.signed]
    exact Token.subject_signed.mpr hsub

/-- While an account is switched off, no request that meets the condition returns
tokens for its user. -/
theorem disabled_user_gets_no_tokens {u : UUID} {s t : Accounts} {ls : List AuthLabel}
    (hd : s.world.disabled u = true)
    (hrun : (accounts settings pwd).Run
      (fun a l => Guarded settings u a l ∧ ¬ l.Enables settings u a) s ls t) :
    t.world.disabled u = true ∧
      ∃ new, t.issued = s.issued ++ new ∧ ∀ g ∈ new, ¬ g.tokens.Names u := by
  apply hrun.invariant (I := fun a => a.world.disabled u = true ∧
    ∃ new, a.issued = s.issued ++ new ∧ ∀ g ∈ new, ¬ g.tokens.Names u)
  · exact ⟨hd, [], (List.append_nil _).symm, by simp⟩
  · rintro a l ⟨hoff, new, hnew, hnames⟩ _ ⟨hg, hon⟩
    cases l with
    | tick d => exact ⟨hoff, new, hnew, hnames⟩
    | serve request =>
      have hoff' : ((request.prog settings pwd).run a.world).2.disabled u = true :=
        request.off hoff hon
      have hworld := AuthLabel.record_world a request ((request.prog settings pwd).run a.world)
      refine ⟨hworld ▸ hoff', ?_⟩
      rcases AuthLabel.record_issued a request ((request.prog settings pwd).run a.world) with
        ⟨tokens, hout, hissued⟩ | ⟨_, hissued⟩
      · have hmade := AuthRequest.made (Prod.ext hout rfl)
        refine ⟨new ++ [⟨tokens, request.presented, a.world⟩], ?_, ?_⟩
        · change (AuthLabel.record a request _).issued = _
          rw [hissued, hnew, List.append_assoc]
        · intro g hmem
          rcases List.mem_append.mp hmem with hmem | hmem
          · exact hnames g hmem
          · rw [List.mem_singleton.mp hmem]
            exact hmade.not_named hoff hg
      · exact ⟨new, hissued.trans hnew, hnames⟩

end

namespace Sample

/-- Eva has logged in and then deactivated her account. -/
def deactivated : Accounts :=
  (accounts settings pwd).exec opened
    [login_of_eva, .serve (.deactivate (.bearer first_tokens.access_token))]

theorem deactivated_reachable :
    (accounts settings pwd).Reachable (fun s => s = opened) deactivated :=
  ⟨opened, [login_of_eva, .serve (.deactivate (.bearer first_tokens.access_token))], rfl,
    .of_path (by decide)⟩

end Sample

open Sample in
/-- Eva's password does not let her in any more, and bob's tokens are not hers. -/
theorem disabled_user_gets_no_tokens_sample :
    ∃ new, ((accounts settings pwd).exec deactivated
        [login_of_eva, .serve (.login (.google (callback "bob@example.com")))]).issued =
      deactivated.issued ++ new ∧ ∀ g ∈ new, ¬ g.tokens.Names 0 := by
  refine (disabled_user_gets_no_tokens (u := 0) (s := deactivated) (by decide)
    (((System.Run.nil _).snoc _ (by decide) ⟨?_, ?_⟩).snoc _ (by decide) ⟨?_, ?_⟩)).2
  · rintro email ⟨⟩
    decide
  · rintro ⟨_, _, ⟨⟩, _⟩
  · rintro email ⟨⟩
  · rintro ⟨_, _, ⟨⟩, _⟩

open Sample in
/-- Eva's account is disabled, and a refresh and a login with Google give her
tokens. -/
theorem deactivated_user_gets_tokens : ∃ s t,
    (accounts settings pwd).Reachable (fun a => a = opened) s ∧
    s.world.disabled 0 = true ∧
    (accounts settings pwd).Run (fun a l => ¬ l.Enables settings 0 a) s
      [.serve (.refresh first_tokens.refresh_token),
        .serve (.login (.google (callback "eva@example.com")))] t ∧
    t.world.disabled 0 = true ∧
    (t.issued.drop s.issued.length).map (fun g => g.tokens.access_token.subject) =
      [some 0, some 0] := by
  refine ⟨deactivated, _, deactivated_reachable, by decide,
    ((System.Run.nil _).snoc _ (by decide) ?_).snoc _ (by decide) ?_, by decide, by decide⟩
  · rintro ⟨_, _, ⟨⟩, _⟩
  · rintro ⟨_, _, ⟨⟩, _⟩

end saas
