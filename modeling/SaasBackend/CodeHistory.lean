-- The login codes over a whole run: a code lets its user in exactly when the
-- last request for a code generated it, and nothing has used it up since.
import SaasBackend.LoginCodes
import SaasBackend.RefreshHistory

open relational async

namespace saas

/-! ## What one request does to the codes -/

/-- Accounts stay, with their emails. -/
def Emails (w w' : World) : Prop :=
  ∀ r ∈ w.db.users.rows, ∃ r' ∈ w'.db.users.rows, r'.id = r.id ∧ r'.val.email = r.val.email

theorem Emails.refl (w : World) : Emails w w := fun r hr => ⟨r, hr, rfl, rfl⟩

theorem Emails.trans {w w' w'' : World} (h : Emails w w') (h' : Emails w' w'') : Emails w w'' := by
  intro r hr
  obtain ⟨r', hr', hid, he⟩ := h r hr
  obtain ⟨r'', hr'', hid', he'⟩ := h' r' hr'
  exact ⟨r'', hr'', hid'.trans hid, he'.trans he⟩

theorem Emails.of_users {w w' : World} (h : w'.db.users = w.db.users) : Emails w w' := by
  intro r hr
  rw [← h] at hr
  exact ⟨r, hr, rfl, rfl⟩

/-- An account keeps its primary key. -/
theorem Emails.same_id {w w' : World} (h : Emails w w') {email : String} {user user' : Row User}
    (hu : w.find_user email = some user) (hu' : w'.find_user email = some user') :
    user'.id = user.id := by
  obtain ⟨hmem, hemail⟩ := World.find_user_some.mp hu
  obtain ⟨r, hr, hid, he⟩ := h user hmem
  have hr' := World.find_user_some.mpr ⟨hr, he.trans hemail⟩
  rw [hu', Option.some.injEq] at hr'
  rw [hr', hid]

/-- Codes and clock stay, and accounts keep their emails. -/
structure CodesStay (w w' : World) : Prop where
  codes : w'.codes = w.codes
  clock : w'.clock = w.clock
  emails : Emails w w'

theorem CodesStay.refl (w : World) : CodesStay w w := ⟨rfl, rfl, Emails.refl w⟩

theorem CodesStay.trans {w w' w'' : World} (h : CodesStay w w') (h' : CodesStay w' w'') :
    CodesStay w w'' :=
  ⟨h'.codes.trans h.codes, h'.clock.trans h.clock, h.emails.trans h'.emails⟩

theorem TokenStep.codes_stay {w w' : World} (h : TokenStep w w') : CodesStay w w' :=
  ⟨congrArg Table.rows h.codes, h.clock, Emails.of_users h.users⟩

theorem Act.codes_stay {A : Allowed} {w w' : World} (h : Act A w w') (hc : ¬ A.codes) :
    CodesStay w w' := by
  cases h with
  | stay => exact CodesStay.refl w
  | uuid => exact ⟨rfl, rfl, Emails.of_users rfl⟩
  | token h => exact h.codes_stay
  | add_user h =>
    obtain ⟨_, hf, rfl, rfl⟩ := Db.insert_user_ok h
    exact ⟨rfl, rfl, fun r hr => ⟨r, List.mem_append_left _ hr, rfl, rfl⟩⟩
  | @patch i p ha =>
    refine ⟨rfl, rfl, fun r hr => ⟨Table.updateRow i p.apply r, List.mem_map_of_mem hr,
      Table.updateRow_id i p.apply r, ?_⟩⟩
    have hkeys := Table.keys_updateRow i p.apply p.keys r
    simp only [Keyed.keys, List.cons.injEq, UserKey.email.injEq] at hkeys
    exact hkeys.1
  | add_code _ ha => exact absurd ha hc
  | delete_codes _ ha => exact absurd ha hc
  | audit h =>
    unfold Db.insert_audit at h
    split at h
    · cases h
      exact ⟨rfl, rfl, Emails.of_users rfl⟩
    · cases h
  | stripe => exact ⟨rfl, rfl, Emails.of_users rfl⟩

/-- A program that writes no login codes. -/
theorem codes_stay {α : Type} {A : Allowed} {p : M α} (h : p.Acts (Act A)) (hc : ¬ A.codes)
    (w : World) : CodesStay w (p.run w).2 :=
  (h.mono fun _ _ ha => ha.codes_stay hc).run_keeps CodesStay.refl (fun _ _ _ => CodesStay.trans) w

/-- The code `login_code` is over for a login with `code`: it has expired, or it
is the one that is presented. -/
def LoginCode.Ends (pwd : PwdContext) (w : World) (code : String) (login_code : LoginCode) : Prop :=
  login_code.expires_at < w.clock ∨ pwd.verify code login_code.code_hash = true

/-- All that a label can do to the codes: a request for a code puts a new one in
the place of the old ones of its user, and a login deletes the codes of its user
when the newest is over. -/
inductive CodeEffect (pwd : PwdContext) (w : World) : AuthLabel → World → Prop where
  | issue {email code : String} {user : Row User} {row : Row LoginCode} {w' : World}
      (hu : w.find_user email = some user)
      (hrow : row.val =
        ⟨user.id, pwd.hash w.uuids code, w.clock, w.clock + minutes 15⟩)
      (hcodes : w'.codes = w.codes.filter (fun c => decide (c.val.user_id ≠ user.id)) ++ [row]) :
      CodeEffect pwd w (.serve (.request_code email code)) w'
  | spend {email code : String} {user : Row User} {login_code : Row LoginCode} {w' : World}
      (hu : w.find_user email = some user) (hc : w.latest_code user.id = some login_code)
      (hends : login_code.val.Ends pwd w code)
      (hcodes : w'.codes = w.codes.filter (fun c => decide (c.val.user_id ≠ user.id))) :
      CodeEffect pwd w (.serve (.login (.code email code))) w'
  | stay {l : AuthLabel} {w' : World} (hcodes : w'.codes = w.codes)
      (hreq : ∀ email code, l = .serve (.request_code email code) → w.find_user email = none)
      (hlogin : ∀ email code, l = .serve (.login (.code email code)) →
        ∀ user login_code, w.find_user email = some user →
          w.latest_code user.id = some login_code → ¬ login_code.val.Ends pwd w code) :
      CodeEffect pwd w l w'

section

variable {settings : Settings} {pwd : PwdContext}

/-- A request that writes no codes. -/
theorem CodeEffect.of_allowed (request : AuthRequest) (h : ¬ request.allowed.codes) (w : World) :
    CodeEffect pwd w (.serve request) ((request.prog settings pwd).run w).2 ∧
      Emails w ((request.prog settings pwd).run w).2 ∧
      ((request.prog settings pwd).run w).2.clock = w.clock := by
  have hs := codes_stay (request.acts settings pwd) h w
  refine ⟨.stay hs.codes ?_ ?_, hs.emails, hs.clock⟩
  · rintro email code ⟨⟩
    exact absurd trivial h
  · rintro email code ⟨⟩
    exact absurd trivial h

/-- The step lemma: a request for a code. -/
theorem request_code_effect (email code : String) (w : World) :
    CodeEffect pwd w (.serve (.request_code email code))
        (((AuthRequest.request_code email code).prog settings pwd).run w).2 ∧
      Emails w (((AuthRequest.request_code email code).prog settings pwd).run w).2 ∧
      (((AuthRequest.request_code email code).prog settings pwd).run w).2.clock = w.clock := by
  unfold AuthRequest.prog
  rcases hu : w.find_user email with _ | user
  · rw [Proc.run_bind_error (UserService.login_code.none hu code)]
    refine ⟨.stay rfl ?_ ?_, Emails.refl w, rfl⟩
    · rintro _ _ ⟨⟩
      exact hu
    · rintro _ _ ⟨⟩
  · obtain ⟨row, w', hrun, hrow, hcodes, hclock, husers⟩ := UserService.login_code.some pwd hu code
    rw [Proc.run_bind_ok hrun]
    exact ⟨.issue hu hrow hcodes, Emails.of_users husers, hclock⟩

/-- A login with a code. -/
theorem login_code_effect (settings : Settings) (pwd : PwdContext) (email code : String)
    (w : World) :
    CodeEffect pwd w (.serve (.login (.code email code)))
        ((UserService.login_with_code settings pwd email code).run w).2 ∧
      Emails w ((UserService.login_with_code settings pwd email code).run w).2 ∧
      ((UserService.login_with_code settings pwd email code).run w).2.clock = w.clock := by
  have hnoreq : ∀ email' code' : String,
      AuthLabel.serve (.login (.code email code)) = .serve (.request_code email' code') →
        w.find_user email' = none := by
    rintro _ _ ⟨⟩
  rw [UserService.login_with_code.spec]
  rcases hu : w.find_user email with _ | user
  · refine ⟨.stay rfl hnoreq ?_, Emails.refl w, rfl⟩
    rintro _ _ ⟨⟩ user login_code hu'
    rw [hu] at hu'
    cases hu'
  dsimp only
  rcases hc : w.latest_code user.id with _ | login_code
  · refine ⟨.stay rfl hnoreq ?_, Emails.refl w, rfl⟩
    rintro _ _ ⟨⟩ user' login_code hu' hc'
    rw [hu] at hu'
    cases hu'
    rw [hc] at hc'
    cases hc'
  dsimp only
  have hend := World.codes_end_codes w user.id
  by_cases ht : login_code.val.expires_at < w.clock
  · rw [if_pos ht]
    exact ⟨.spend hu hc (Or.inl ht) hend, Emails.of_users rfl, rfl⟩
  rw [if_neg ht]
  by_cases hv : pwd.verify code login_code.val.code_hash = true
  · rw [if_pos hv]
    by_cases ha : user.val.is_active = false
    · rw [if_pos ha]
      exact ⟨.spend hu hc (Or.inr hv) hend, Emails.of_users rfl, rfl⟩
    · rw [if_neg ha]
      have hacts : (UserService.issue_tokens settings pwd user).Acts (Act { tokens := True }) :=
        UserService.issue_tokens.acts trivial user
      have hs := codes_stay hacts not_false (w.end_codes user.id)
      exact ⟨.spend hu hc (Or.inr hv) (hs.codes.trans hend),
        (Emails.of_users rfl).trans hs.emails, hs.clock⟩
  · rw [if_neg hv]
    refine ⟨.stay rfl hnoreq ?_, Emails.refl w, rfl⟩
    rintro _ _ ⟨⟩ user' login_code' hu' hc' hends
    rw [hu] at hu'
    cases hu'
    rw [hc] at hc'
    cases hc'
    rcases hends with hends | hends
    · exact ht hends
    · exact hv hends

theorem AuthRequest.code_effect (settings : Settings) (pwd : PwdContext) (request : AuthRequest)
    (w : World) :
    CodeEffect pwd w (.serve request) ((request.prog settings pwd).run w).2 ∧
      Emails w ((request.prog settings pwd).run w).2 ∧
      ((request.prog settings pwd).run w).2.clock = w.clock := by
  cases request with
  | request_code email code => exact request_code_effect email code w
  | login request =>
    cases request with
    | code email code =>
      have h := login_code_effect settings pwd email code w
      unfold AuthRequest.prog LoginRequest.prog
      rw [Proc.run_map_snd]
      exact h
    | password email password => exact CodeEffect.of_allowed (.login (.password _ _)) not_false w
    | google callback => exact CodeEffect.of_allowed (.login (.google _)) not_false w
    | github callback => exact CodeEffect.of_allowed (.login (.github _)) not_false w
  | register email username password => exact CodeEffect.of_allowed (.register _ _ _) not_false w
  | refresh token => exact CodeEffect.of_allowed (.refresh _) not_false w
  | deactivate authorization => exact CodeEffect.of_allowed (.deactivate _) not_false w
  | update_user_status authorization user_id is_active =>
    exact CodeEffect.of_allowed (.update_user_status _ _ _) not_false w

/-- What one label does to the codes. -/
theorem AuthLabel.code_effect (settings : Settings) (pwd : PwdContext) (s : Accounts)
    (l : AuthLabel) :
    CodeEffect pwd s.world l (l.next settings pwd s).world ∧
      Emails s.world (l.next settings pwd s).world ∧
      s.world.clock ≤ (l.next settings pwd s).world.clock := by
  cases l with
  | serve request =>
    have h := request.code_effect settings pwd s.world
    unfold AuthLabel.next
    rw [AuthLabel.record_world]
    exact ⟨h.1, h.2.1, Nat.le_of_eq h.2.2.symm⟩
  | tick d =>
    refine ⟨.stay rfl ?_ ?_, Emails.of_users rfl, Nat.le_add_right _ _⟩
    · rintro _ _ ⟨⟩
    · rintro _ _ ⟨⟩

/-! ## The run since a code was generated -/

/-- The label neither asks for a code of `email` nor presents `code` for it in
time. -/
def Unspent (email code : String) (expires_at : Time) (s : Accounts) (l : AuthLabel) : Prop :=
  (∀ new_code, l ≠ .serve (.request_code email new_code)) ∧
    (l = .serve (.login (.code email code)) → expires_at < s.world.clock)

/-- In the run `ls` from `s₀` to `s`, the last request for a code of `email` was
served in `s₁` and generated `code`, and no login has used it up since. -/
def Standing (settings : Settings) (pwd : PwdContext) (s₀ : Accounts) (ls : List AuthLabel)
    (s : Accounts) (email code : String) (s₁ : Accounts) : Prop :=
  ∃ before after, ls = before ++ .serve (.request_code email code) :: after ∧
    (accounts settings pwd).Run (fun _ _ => True) s₀ before s₁ ∧
    (s₁.world.find_user email).isSome = true ∧
    (accounts settings pwd).Run (Unspent email code (s₁.world.clock + minutes 15))
      ((accounts settings pwd).next s₁ (.serve (.request_code email code))) after s

theorem Standing.snoc {s₀ s s₁ : Accounts} {ls : List AuthLabel} {email code : String}
    {l : AuthLabel} (h : Standing settings pwd s₀ ls s email code s₁) (he : l.Enabled settings s)
    (hl : Unspent email code (s₁.world.clock + minutes 15) s l) :
    Standing settings pwd s₀ (ls ++ [l]) (l.next settings pwd s) email code s₁ := by
  obtain ⟨before, after, hls, hb, hu, ha⟩ := h
  exact ⟨before, after ++ [l], by simp [hls], hb, hu, .snoc l ha he hl⟩

/-- A stored code comes from the last request of its user. -/
structure Origin (settings : Settings) (pwd : PwdContext) (s₀ : Accounts) (ls : List AuthLabel)
    (s : Accounts) (c : LoginCode) (email code : String) (s₁ : Accounts) (user : Row User) :
    Prop where
  standing : Standing settings pwd s₀ ls s email code s₁
  found : s₁.world.find_user email = some user
  user_id : user.id = c.user_id
  code_hash : ∃ salt, c.code_hash = pwd.hash salt code
  expires_at : c.expires_at = s₁.world.clock + minutes 15
  emails : Emails s₁.world s.world

theorem Origin.snoc {s₀ s s₁ : Accounts} {ls : List AuthLabel} {c : LoginCode}
    {email code : String} {user : Row User} {l : AuthLabel}
    (h : Origin settings pwd s₀ ls s c email code s₁ user) (he : l.Enabled settings s)
    (hl : Unspent email code (s₁.world.clock + minutes 15) s l) :
    Origin settings pwd s₀ (ls ++ [l]) (l.next settings pwd s) c email code s₁ user :=
  ⟨h.standing.snoc he hl, h.found, h.user_id, h.code_hash, h.expires_at,
    h.emails.trans (AuthLabel.code_effect settings pwd s l).2.1⟩

/-- The account of a code is still there, under the same email. -/
theorem Origin.same_user {s₀ s s₁ : Accounts} {ls : List AuthLabel} {c : LoginCode}
    {email code : String} {user : Row User}
    (h : Origin settings pwd s₀ ls s c email code s₁ user) :
    ∃ user', s.world.find_user email = some user' ∧ user'.id = c.user_id := by
  obtain ⟨hmem, hemail⟩ := World.find_user_some.mp h.found
  obtain ⟨r, hr, hid, he⟩ := h.emails user hmem
  exact ⟨r, World.find_user_some.mpr ⟨hr, he.trans hemail⟩, hid.trans h.user_id⟩

/-- The invariant: an account has one code, and every code has an origin. -/
structure Codes (settings : Settings) (pwd : PwdContext) (s₀ : Accounts) (ls : List AuthLabel)
    (s : Accounts) : Prop where
  one : ∀ c ∈ s.world.codes, ∀ d ∈ s.world.codes, d.val.user_id = c.val.user_id → d = c
  origin : ∀ c ∈ s.world.codes, ∃ email code s₁ user,
    Origin settings pwd s₀ ls s c.val email code s₁ user

variable {s₀ s : Accounts} {ls : List AuthLabel}

/-- The codes of the others, after a label about `u`. -/
theorem Codes.others {l : AuthLabel} {u : UUID} (h : Codes settings pwd s₀ ls s)
    (he : l.Enabled settings s)
    (hl : ∀ email code user, s.world.find_user email = some user →
      l = .serve (.request_code email code) ∨ l = .serve (.login (.code email code)) → user.id = u)
    {c : Row LoginCode} (hc : c ∈ s.world.codes) (hne : c.val.user_id ≠ u) :
    ∃ email code s₁ user,
      Origin settings pwd s₀ (ls ++ [l]) (l.next settings pwd s) c.val email code s₁ user := by
  obtain ⟨email, code, s₁, user, ho⟩ := h.origin c hc
  obtain ⟨user', hu', hid⟩ := ho.same_user
  refine ⟨email, code, s₁, user, ho.snoc he ⟨fun new_code hreq => ?_, fun hlogin => ?_⟩⟩
  · exact hne (hid.symm.trans (hl email new_code user' hu' (Or.inl hreq)))
  · exact absurd (hid.symm.trans (hl email code user' hu' (Or.inr hlogin))) hne

/-- The step lemma. -/
theorem Codes.step (hpwd : ∀ salt c d, pwd.verify c (pwd.hash salt d) = true ↔ c = d)
    {l : AuthLabel} (h : Codes settings pwd s₀ ls s)
    (hrun : (accounts settings pwd).Run (fun _ _ => True) s₀ ls s) (he : l.Enabled settings s) :
    Codes settings pwd s₀ (ls ++ [l]) (l.next settings pwd s) := by
  obtain ⟨heffect, hemails, _⟩ := AuthLabel.code_effect settings pwd s l
  generalize hw : (l.next settings pwd s).world = w' at heffect
  cases heffect with
  | @issue email code user row _ hu hrow hcodes =>
    have hrow_user : row.val.user_id = user.id := by rw [hrow]
    constructor
    · intro c hc d hd huser
      rw [hw, hcodes, List.mem_append, List.mem_filter, List.mem_singleton,
        decide_eq_true_iff] at hc hd
      rcases hc with ⟨hc, hcu⟩ | rfl
      · rcases hd with ⟨hd, _⟩ | rfl
        · exact h.one c hc d hd huser
        · exact absurd (huser.symm.trans hrow_user) hcu
      · rcases hd with ⟨_, hdu⟩ | rfl
        · exact absurd (huser.trans hrow_user) hdu
        · rfl
    · intro c hc
      rw [hw, hcodes, List.mem_append, List.mem_filter, List.mem_singleton,
        decide_eq_true_iff] at hc
      rcases hc with ⟨hc, hne⟩ | rfl
      · refine h.others he ?_ hc hne
        rintro email' code' user' hu' (⟨⟨⟩⟩ | ⟨⟨⟩⟩)
        rw [hu] at hu'
        cases hu'
        rfl
      · refine ⟨email, code, s, user, ⟨ls, [], rfl, hrun, by rw [hu]; rfl, .nil _⟩, hu, ?_, ?_, ?_,
          hemails⟩
        · rw [hrow]
        · rw [hrow]
          exact ⟨_, rfl⟩
        · rw [hrow]
  | @spend email code user login_code _ hu _ _ hcodes =>
    constructor
    · intro c hc d hd huser
      rw [hw, hcodes, List.mem_filter] at hc hd
      exact h.one c hc.1 d hd.1 huser
    · intro c hc
      rw [hw, hcodes, List.mem_filter, decide_eq_true_iff] at hc
      refine h.others he ?_ hc.1 hc.2
      rintro email' code' user' hu' (⟨⟨⟩⟩ | ⟨⟨⟩⟩)
      rw [hu] at hu'
      cases hu'
      rfl
  | stay hcodes hreq hlogin =>
    constructor
    · rw [hw, hcodes]
      exact h.one
    · intro c hc
      rw [hw, hcodes] at hc
      obtain ⟨email, code, s₁, user, ho⟩ := h.origin c hc
      obtain ⟨user', hu', hid⟩ := ho.same_user
      refine ⟨email, code, s₁, user, ho.snoc he ⟨fun new_code hl => ?_, fun hl => ?_⟩⟩
      · have hnone := hreq email new_code hl
        rw [hu'] at hnone
        cases hnone
      · -- the code that the login presents is this one, so it would be over
        have hlatest := World.latest_code_of_single hc (h.one c hc)
        rw [← hid] at hlatest
        obtain ⟨salt, hhash⟩ := ho.code_hash
        refine absurd (Or.inr ?_) (hlogin email code hl user' c hu' hlatest)
        rw [hhash]
        exact (hpwd salt code code).mpr rfl

/-- The run lemma. -/
theorem Codes.of_run (hpwd : ∀ salt c d, pwd.verify c (pwd.hash salt d) = true ↔ c = d)
    (hcodes : s₀.world.codes = [])
    (hrun : (accounts settings pwd).Run (fun _ _ => True) s₀ ls s) :
    Codes settings pwd s₀ ls s := by
  induction hrun with
  | nil => exact ⟨by simp [hcodes], by simp [hcodes]⟩
  | snoc l hrun he _ ih => exact ih.step hpwd hrun he

/-! ## The run forward from a request for a code -/

/-- Until it expires, the code `c` is the only one of its account. -/
def Kept (c : Row LoginCode) (s : Accounts) : Prop :=
  c.val.expires_at < s.world.clock ∨
    c ∈ s.world.codes ∧ ∀ d ∈ s.world.codes, d.val.user_id = c.val.user_id → d = c

theorem Kept.step {c : Row LoginCode} {email code : String} {user : Row User} {l : AuthLabel}
    (hpwd : ∀ salt c d, pwd.verify c (pwd.hash salt d) = true ↔ c = d)
    (h : Kept c s) (hu : s.world.find_user email = some user) (hid : user.id = c.val.user_id)
    (hhash : ∃ salt, c.val.code_hash = pwd.hash salt code)
    (hl : Unspent email code c.val.expires_at s l) : Kept c (l.next settings pwd s) := by
  obtain ⟨heffect, _, hclock⟩ := AuthLabel.code_effect settings pwd s l
  rcases h with h | ⟨hc, hone⟩
  · exact Or.inl (Nat.lt_of_lt_of_le h hclock)
  generalize hw : (l.next settings pwd s).world = w' at heffect hclock
  unfold Kept
  rw [hw]
  -- a label about another account leaves the codes of this one
  have hother : ∀ {email' : String} {user' : Row User},
      s.world.find_user email' = some user' → email' ≠ email → c.val.user_id ≠ user'.id := by
    intro email' user' hu' hne heq
    obtain ⟨hmem, hemail⟩ := World.find_user_some.mp hu
    obtain ⟨hmem', hemail'⟩ := World.find_user_some.mp hu'
    have hsame := Table.eq_of_id hmem hmem' (hid.trans heq)
    exact hne (hemail'.symm.trans (hsame ▸ hemail))
  cases heffect with
  | @issue email' code' user' row _ hu' hrow hcodes =>
    have hne : c.val.user_id ≠ user'.id := hother hu' fun he => hl.1 code' (he ▸ rfl)
    refine Or.inr ⟨?_, fun d hd huser => ?_⟩
    · rw [hcodes]
      exact List.mem_append_left _ (List.mem_filter.mpr ⟨hc, by simpa using hne⟩)
    · rw [hcodes, List.mem_append, List.mem_filter, List.mem_singleton] at hd
      rcases hd with hd | rfl
      · exact hone d hd.1 huser
      · rw [hrow] at huser
        exact absurd huser.symm hne
  | @spend email' code' user' login_code _ hu' hlatest hends hcodes =>
    by_cases he : email' = email
    · subst he
      rw [hu] at hu'
      cases hu'
      obtain ⟨hmem, huser⟩ := World.latest_code_mem hlatest
      have hsame := hone login_code hmem (huser.trans hid)
      subst hsame
      rcases hends with hexp | hv
      · exact Or.inl (Nat.lt_of_lt_of_le hexp hclock)
      · obtain ⟨salt, hhash⟩ := hhash
        rw [hhash] at hv
        have hcode := (hpwd salt code' code).mp hv
        subst hcode
        exact Or.inl (Nat.lt_of_lt_of_le (hl.2 rfl) hclock)
    · have hne := hother hu' he
      refine Or.inr ⟨?_, fun d hd huser => ?_⟩
      · rw [hcodes]
        exact List.mem_filter.mpr ⟨hc, by simpa using hne⟩
      · rw [hcodes] at hd
        exact hone d (List.mem_of_mem_filter hd) huser
  | stay hcodes =>
    rw [hcodes]
    exact Or.inr ⟨hc, hone⟩

/-- The run lemma: a standing code that has not expired is the one in the table. -/
theorem Standing.stored (hpwd : ∀ salt c d, pwd.verify c (pwd.hash salt d) = true ↔ c = d)
    {email code : String} {s₁ : Accounts} {user : Row User}
    (h : Standing settings pwd s₀ ls s email code s₁)
    (ht : s.world.clock ≤ s₁.world.clock + minutes 15)
    (hu : s.world.find_user email = some user) :
    ∃ c salt, s.world.latest_code user.id = some c ∧ c.val.code_hash = pwd.hash salt code ∧
      c.val.expires_at = s₁.world.clock + minutes 15 := by
  obtain ⟨before, after, _, _, hsome, hafter⟩ := h
  obtain ⟨user₁, hu₁⟩ := Option.isSome_iff_exists.mp hsome
  obtain ⟨heffect, hemails, _⟩ := AuthLabel.code_effect settings pwd s₁
    (.serve (.request_code email code))
  change Emails _ ((accounts settings pwd).next s₁ _).world at hemails
  change CodeEffect pwd _ _ ((accounts settings pwd).next s₁ _).world at heffect
  generalize (accounts settings pwd).next s₁ (.serve (.request_code email code)) = s₂
    at hafter heffect hemails
  generalize hw : s₂.world = w at heffect
  cases heffect with
  | stay _ hreq =>
    rw [hreq email code rfl] at hu₁
    cases hu₁
  | @issue _ _ user' row _ hu' hrow hcodes =>
    rw [hu₁] at hu'
    cases hu'
    have huser : row.val.user_id = user₁.id := by rw [hrow]
    have hexp : row.val.expires_at = s₁.world.clock + minutes 15 := by rw [hrow]
    have hhash : row.val.code_hash = pwd.hash s₁.world.uuids code := by rw [hrow]
    have hkept : Kept row s₂ := by
      refine Or.inr ⟨?_, fun d hd hd' => ?_⟩
      · rw [hw, hcodes]
        exact List.mem_append_right _ (List.mem_singleton_self row)
      · rw [hw, hcodes, List.mem_append, List.mem_filter, List.mem_singleton,
          decide_eq_true_iff] at hd
        rcases hd with ⟨_, hne⟩ | rfl
        · exact absurd (hd'.trans huser) hne
        · rfl
    have hinv : Kept row s ∧ Emails s₁.world s.world := by
      apply hafter.invariant (I := fun t => Kept row t ∧ Emails s₁.world t.world) ⟨hkept, hemails⟩
      rintro t l ⟨hk, he⟩ _ hl
      rw [← hexp] at hl
      obtain ⟨hmem, hemail⟩ := World.find_user_some.mp hu₁
      obtain ⟨r, hr, hid, hsame⟩ := he user₁ hmem
      have hfound := World.find_user_some.mpr ⟨hr, hsame.trans hemail⟩
      exact ⟨hk.step hpwd hfound (hid.trans huser.symm) ⟨_, hhash⟩ hl,
        he.trans (AuthLabel.code_effect settings pwd t l).2.1⟩
    have hid : user.id = row.val.user_id := (hinv.2.same_id hu₁ hu).trans huser.symm
    rcases hinv.1 with hlt | ⟨hmem, hone⟩
    · rw [hexp] at hlt
      exact absurd ht (Nat.not_le_of_lt hlt)
    · refine ⟨row, s₁.world.uuids, ?_, hhash, hexp⟩
      rw [hid]
      exact World.latest_code_of_single hmem hone

/-! ## The law -/

/-- A login with a code returns tokens exactly when its user is active, and the
last request for a code of this user generated that code, at most fifteen minutes
ago, and no login has presented it in time since then. -/
theorem code_lets_in (hpwd : ∀ salt c d, pwd.verify c (pwd.hash salt d) = true ↔ c = d)
    (h₀ : Unused s₀) (hcodes : s₀.world.codes = [])
    (hrun : (accounts settings pwd).Run (fun _ _ => True) s₀ ls s) (email code : String) :
    (∃ login, ((UserService.login_with_code settings pwd email code).run s.world).1 = .ok login) ↔
      (∃ user, s.world.find_user email = some user ∧ user.val.is_active = true) ∧
      ∃ s₁, Standing settings pwd s₀ ls s email code s₁ ∧
        s.world.clock ≤ s₁.world.clock + minutes 15 := by
  constructor
  · rintro ⟨login, hlogin⟩
    obtain ⟨user, c, hu, ha, hc, ht, hv⟩ := UserService.login_with_code.ok hlogin
    obtain ⟨hmem, huser⟩ := World.latest_code_mem hc
    obtain ⟨email', code', s₁, user₁, ho⟩ := (Codes.of_run hpwd hcodes hrun).origin c hmem
    obtain ⟨user', hu', hid⟩ := ho.same_user
    -- the account of the code is the one that logs in
    have hsame : user' = user := Table.eq_of_id (World.find_user_some.mp hu').1
      (World.find_user_some.mp hu).1 (hid.trans huser)
    subst hsame
    have hemail : email' = email :=
      (World.find_user_some.mp hu').2.symm.trans (World.find_user_some.mp hu).2
    obtain ⟨salt, hhash⟩ := ho.code_hash
    rw [hhash] at hv
    have hcode := (hpwd salt code code').mp hv
    subst hemail hcode
    refine ⟨⟨user', hu, ha⟩, s₁, ho.standing, ?_⟩
    rw [← ho.expires_at]
    exact ht
  · rintro ⟨⟨user, hu, ha⟩, s₁, hstanding, ht⟩
    obtain ⟨c, salt, hlatest, hhash, hexp⟩ := hstanding.stored hpwd ht hu
    have htidy : Tidy (s.world.end_codes user.id) :=
      have h := (History.of_reachable ⟨s₀, ls, h₀, hrun⟩).tidy
      ⟨h.unlocked, h.jti_lt⟩
    have hhas : (s.world.end_codes user.id).db.users.Has user.id :=
      Table.has_of_mem (World.find_user_some.mp hu).1
    obtain ⟨row, w', hissue, _⟩ := UserService.issue_tokens.spec settings pwd htidy hhas
    refine ⟨⟨new_tokens settings (UserService.user_data user) (s.world.end_codes user.id), user⟩,
      ?_⟩
    rw [UserService.login_with_code.spec, hu]
    dsimp only
    rw [hlatest]
    dsimp only
    rw [if_neg, if_pos, if_neg, hissue]
    · simp [ha]
    · rw [hhash]
      exact (hpwd salt code code).mpr rfl
    · rw [hexp]
      exact Nat.not_lt_of_le ht

end

namespace Sample

theorem code_pwd_verify (salt : Nat) (c d : String) :
    code_pwd.verify c (code_pwd.hash salt d) = true ↔ c = d := by
  simp [code_pwd, eq_comm]

/-- Eva asks for a code, somebody guesses wrong, and fifteen minutes pass. -/
def code_waits : List AuthLabel :=
  [.serve (.request_code "eva@example.com" "123456"),
    .serve (.login (.code "eva@example.com" "000000")), .tick (minutes 15)]

end Sample

open Sample in
/-- At the last moment eva's code lets her in. -/
theorem code_lets_in_sample :
    ∃ login, ((UserService.login_with_code settings code_pwd "eva@example.com" "123456").run
      ((accounts settings code_pwd).exec opened code_waits).world).1 = .ok login := by
  refine (code_lets_in code_pwd_verify ⟨rfl, rfl, rfl⟩ rfl (.of_path (by decide)) _ _).mpr
    ⟨⟨⟨0, eva⟩, by decide, rfl⟩, opened, ⟨[], _, rfl, .nil _, by decide, .of_path ?_⟩, by decide⟩
  exact ⟨by decide, ⟨by simp, by simp⟩, by decide, ⟨by simp, by simp⟩, trivial⟩

end saas
