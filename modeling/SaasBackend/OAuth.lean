-- The social logins with the providers at the other end: `auth/utils.py` and the
-- endpoints of `auth/router.py`. The texts of states and codes are drawn here, and
-- codes are exchanged for what the provider says of its user.
import SaasBackend.Resend
import SaasBackend.SocialLogins

open relational async resend

namespace saas.oauth

/-! ## Drawn texts -/

/-- `secrets.token_urlsafe(32)`: no two draws are equal, and none of them is among the
texts that someone can think up. -/
structure Secrets where
  text : Nat → String
  text_inj : ∀ {j k : Nat}, text j = text k → j = k
  secret : String → Bool
  secret_text : ∀ k, secret (text k) = true
  not_empty : secret "" = false

/-- The providers of social logins. -/
inductive Site where
  | google
  | github
deriving DecidableEq, Repr

/-- What a provider knows of its user: the answer of Google's endpoint, or GitHub's
login and emails, each with its `primary` flag. -/
inductive Profile where
  | google (email name : Option String)
  | github (login : String) (emails : List (String × Bool))
deriving DecidableEq, Repr

def primary_email (emails : List (String × Bool)) : Option String :=
  (emails.find? fun e => e.2).map fun e => e.1

def Profile.site : Profile → Site
  | google _ _ => .google
  | github _ _ => .github

/-- The email that the account is looked up by. -/
def Profile.email : Profile → Option String
  | google email _ => email
  | github login emails => some ((primary_email emails).getD (login ++ "@github.local"))

/-- A code: who consented, in which browser, and to the request with which state. -/
structure Grant where
  browser : Nat
  state : String
  profile : Profile
deriving DecidableEq, Repr

/-- What a text is drawn for. -/
inductive Use where
  | state (browser : Nat) (site : Site)
  | code (grant : Grant)
deriving DecidableEq, Repr

/-- The browser that the text is sent to. -/
def Use.browser : Use → Nat
  | state browser _ => browser
  | code grant => grant.browser

/-- The texts that were drawn, in this order, and the codes that were exchanged. -/
structure Draws where
  uses : List Use := []
  redeemed : List String := []

section

variable (secrets : Secrets)

/-- The use that the text was drawn for. -/
def Draws.use_of (d : Draws) (t : String) : Option Use :=
  ((List.range d.uses.length).find? fun k => secrets.text k = t).bind fun k => d.uses[k]?

theorem Draws.use_of_eq_some {d : Draws} {t : String} {use : Use} :
    d.use_of secrets t = some use ↔ ∃ k, secrets.text k = t ∧ d.uses[k]? = some use := by
  unfold use_of
  constructor
  · intro h
    obtain ⟨k, hk, huse⟩ := Option.bind_eq_some_iff.mp h
    exact ⟨k, by simpa using List.find?_some hk, huse⟩
  · rintro ⟨k, rfl, huse⟩
    have hlt : k < d.uses.length := (List.getElem?_eq_some_iff.mp huse).1
    cases hfind : (List.range d.uses.length).find? fun j => secrets.text j = secrets.text k with
    | none =>
      have hk := List.find?_eq_none.mp hfind k (List.mem_range.mpr hlt)
      simp at hk
    | some j =>
      have hj : secrets.text j = secrets.text k := by simpa using List.find?_some hfind
      rw [Option.bind_some, secrets.text_inj hj]
      exact huse

/-- A new text, and the use of it. -/
def Draws.draw (d : Draws) (use : Use) : Draws := { d with uses := d.uses ++ [use] }

/-- The text that is drawn next. -/
def Draws.text (d : Draws) : String := secrets.text d.uses.length

theorem Draws.use_of_draw {d : Draws} {t : String} {use use' : Use} :
    (d.draw use').use_of secrets t = some use ↔
      d.use_of secrets t = some use ∨ t = d.text secrets ∧ use = use' := by
  simp only [use_of_eq_some, draw, text]
  constructor
  · rintro ⟨k, rfl, hk⟩
    rw [List.getElem?_append] at hk
    split at hk
    · exact Or.inl ⟨k, rfl, hk⟩
    · obtain ⟨hlt, heq⟩ := List.getElem?_eq_some_iff.mp hk
      simp only [List.length_singleton] at hlt
      have hlen : k = d.uses.length := by omega
      subst hlen
      simp only [Nat.sub_self, List.getElem_singleton] at heq
      exact Or.inr ⟨rfl, heq.symm⟩
  · rintro (⟨k, rfl, hk⟩ | ⟨rfl, rfl⟩)
    · have hlt : k < d.uses.length := (List.getElem?_eq_some_iff.mp hk).1
      refine ⟨k, rfl, ?_⟩
      rw [List.getElem?_append_left hlt]
      exact hk
    · exact ⟨d.uses.length, rfl, by simp⟩

end

/-! ## The token endpoints -/

/-- The code gives nobody anything. -/
def Draws.Worthless (secrets : Secrets) (site : Site) (code : String) (d : Draws) : Prop :=
  ∀ grant, d.use_of secrets code = some (.code grant) → grant.profile.site = site →
    code ∈ d.redeemed

/-- The token endpoints of the providers: a code is good for one exchange. The token
stands for what it gives access to. -/
structure Endpoints (secrets : Secrets) where
  redeem : Site → String → Draws → Except Err Profile × Draws
  once : ∀ site code, Once (redeem site code) (Draws.Worthless secrets site code)
  grants : ∀ {site code d profile d'}, redeem site code d = (.ok profile, d') →
    ∃ grant, d.use_of secrets code = some (.code grant) ∧ grant.profile.site = site ∧
      grant.profile = profile ∧ d' = { d with redeemed := code :: d.redeemed }
  refuses : ∀ {site code d e d'}, redeem site code d = (.error e, d') → d' = d

/-- `HTTPStatusError`, `ValueError`, and three times a `RequestError`. -/
def Site.failures : Site → Failures Err
  | google => {
      refused := .http 400 "Google returned invalid response"
      garbled := .http 500 "Invalid JSON from Google"
      unanswered := .http 503 "Google temporarily unavailable" }
  | github => {
      refused := .http 400 "GitHub returned invalid response"
      garbled := .http 500 "Invalid JSON from GitHub"
      unanswered := .http 503 "GitHub temporarily unavailable" }

section

variable {secrets : Secrets} (endpoints : Endpoints secrets)

def google_tokens (code : String) (fate : Nat → Fate) : Draws → Except Err Profile × Draws :=
  post (endpoints.redeem .google code) Site.google.failures 3 fate

def github_tokens (code : String) (fate : Nat → Fate) : Draws → Except Err Profile × Draws :=
  post (endpoints.redeem .github code) Site.github.failures 3 fate

def Site.tokens : Site → String → (Nat → Fate) → Draws → Except Err Profile × Draws
  | google => google_tokens endpoints
  | github => github_tokens endpoints

theorem Site.tokens_eq (site : Site) (code : String) (fate : Nat → Fate) :
    site.tokens endpoints code fate = post (endpoints.redeem site code) site.failures 3 fate := by
  cases site <;> rfl

end

section

variable {secrets : Secrets} {endpoints : Endpoints secrets} {site : Site} {code : String}
  {d d' : Draws} {profile : Profile}

theorem Endpoints.redeem_ok : endpoints.redeem site code d = (.ok profile, d') ↔
    ∃ grant, d.use_of secrets code = some (.code grant) ∧ grant.profile.site = site ∧
      code ∉ d.redeemed ∧ grant.profile = profile ∧
      d' = { d with redeemed := code :: d.redeemed } := by
  constructor
  · intro h
    obtain ⟨grant, huse, hsite, hprofile, hd'⟩ := endpoints.grants h
    refine ⟨grant, huse, hsite, fun hspent => ?_, hprofile, hd'⟩
    exact (endpoints.once site code).fresh (congrArg Prod.fst h) fun _ _ _ => hspent
  · rintro ⟨grant, huse, hsite, hfresh, rfl, rfl⟩
    have hspent := (endpoints.once site code).spends d
    rcases hr : endpoints.redeem site code d with ⟨e | profile, d'⟩
    · -- it would have been good, and is not spent
      rw [hr, endpoints.refuses hr] at hspent
      exact absurd (hspent grant huse hsite) hfresh
    · obtain ⟨grant', huse', _, rfl, rfl⟩ := endpoints.grants hr
      rw [huse] at huse'
      cases huse'
      rfl

theorem Endpoints.redeem_snd (endpoints : Endpoints secrets) (site : Site) (code : String)
    (d : Draws) : (endpoints.redeem site code d).2 = d ∨
      (endpoints.redeem site code d).2 = { d with redeemed := code :: d.redeemed } := by
  rcases hr : endpoints.redeem site code d with ⟨e | profile, d'⟩
  · exact Or.inl (endpoints.refuses hr)
  · obtain ⟨_, _, _, _, rfl⟩ := endpoints.grants hr
    exact Or.inr rfl

/-- The tokens come if and only if the first request that gets through is answered and
the code is good. -/
theorem Site.tokens_ok {fate : Nat → Fate} :
    site.tokens endpoints code fate d = (.ok profile, d') ↔
      Clean 3 fate ∧ endpoints.redeem site code d = (.ok profile, d') := by
  rw [tokens_eq]
  exact post_ok_iff (endpoints.once site code)

theorem Site.tokens_snd (fate : Nat → Fate) :
    (site.tokens endpoints code fate d).2.uses = d.uses ∧
      ∀ t ∈ d.redeemed, t ∈ (site.tokens endpoints code fate d).2.redeemed := by
  rw [tokens_eq]
  refine post_keeps (I := fun d' : Draws => d'.uses = d.uses ∧ ∀ t ∈ d.redeemed, t ∈ d'.redeemed) ?_
    ⟨rfl, fun _ ht => ht⟩
  rintro d' ⟨huses, hredeemed⟩
  rcases endpoints.redeem_snd site code d' with h | h
  · rw [h]
    exact ⟨huses, hredeemed⟩
  · rw [h]
    exact ⟨huses, fun t ht => List.mem_cons_of_mem _ (hredeemed t ht)⟩

end

/-! ## The callbacks -/

/-- `str.replace` needs a name. -/
def get_user_info (email name : Option String) (number : Nat) :
    Except Err (Option String × String) :=
  match name with
  | none => .error .attributeError
  | some name => .ok (email, google_username name number)

def get_github_user_info (login : String) (emails : List (String × Bool)) :
    Except Err (Option String × String) :=
  .ok (primary_email emails, login)

def Profile.info (number : Nat) : Profile → Except Err (Option String × String)
  | google email name => get_user_info email name number
  | github login emails => get_github_user_info login emails

/-- The parameters in the URL of a callback. -/
structure Query where
  error : Option String := none
  code : Option String := none
  state : Option String := none
deriving DecidableEq, Repr

/-- What a browser sends to a callback: the URL, and its cookie. -/
structure Visit extends Query where
  cookie_state : Option String := none
deriving DecidableEq, Repr

def Visit.request (visit : Visit) (answer : Except Err (Option String × String)) :
    OAuthCallback where
  error := visit.error
  code := visit.code
  state := visit.state
  cookie_state := visit.cookie_state
  answer := answer

/-- What comes of the requests that the service makes: those for the tokens, the one for
the profile, with its failure, and the random number. -/
structure Outcome where
  fate : Nat → Fate
  failure : Option Err := none
  number : Nat := 1000

/-- The tokens, and what they give access to. -/
def Site.answer {secrets : Secrets} (endpoints : Endpoints secrets) (site : Site) (code : String)
    (outcome : Outcome) (d : Draws) : Except Err (Option String × String) × Draws :=
  match site.tokens endpoints code outcome.fate d with
  | (.error e, d') => (.error e, d')
  | (.ok profile, d') =>
    match outcome.failure with
    | some e => (.error e, d')
    | none => (profile.info outcome.number, d')

/-- What is checked before the code is used. -/
def Site.check : Site → OAuthCallback → Except Err Unit
  | google, request => UserService.check_callback request
  | github, request =>
    if (given request.error).isSome then .error (.http 400 "GitHub authentication failed")
    else UserService.check_callback request

def Site.provider : Site → Provider
  | google => .GOOGLE
  | github => .GITHUB

section

variable (settings : Settings) (pwd : PwdContext)

def Site.login : Site → OAuthCallback → M Login
  | google, request => UserService.login_with_google settings pwd request
  | github, request => UserService.login_with_github settings pwd request

/-- The provider is asked about a code that comes with the state of the cookie, and
about no other. -/
def Site.callback {secrets : Secrets} (endpoints : Endpoints secrets) (site : Site)
    (visit : Visit) (outcome : Outcome) (d : Draws) (w : World) :
    (Except Err Login × World) × Draws :=
  let unasked := visit.request (.ok (none, ""))
  match site.check unasked, visit.code with
  | .ok _, some code =>
    let (answer, d') := site.answer endpoints code outcome d
    ((site.login settings pwd (visit.request answer)).run w, d')
  | _, _ => ((site.login settings pwd unasked).run w, d)

end

section

variable {settings : Settings} {pwd : PwdContext} {secrets : Secrets}
  {endpoints : Endpoints secrets} {site : Site}
  {visit : Visit} {outcome : Outcome} {d d' : Draws} {w w' : World}

/-- The email that an answer stands for. -/
def Site.address : Site → Option String × String → Option String
  | google, (email, _) => email
  | github, (email, login) => some (email.getD (login ++ "@github.local"))

theorem Site.login_eq (site : Site) (request : OAuthCallback) :
    site.login settings pwd request =
      Proc.ofExcept (site.check request) >>= fun _ => Proc.ofExcept request.answer >>= fun answer =>
        UserService.find_or_register site.provider (site.address answer) answer.2 >>=
          UserService.issue_tokens settings pwd := by
  cases site with
  | google => rfl
  | github =>
    dsimp only [login, check, UserService.login_with_github]
    split <;> rfl

theorem Profile.address_info {profile : Profile} {number : Nat} {answer : Option String × String}
    (h : profile.info number = .ok answer) : profile.site.address answer = profile.email := by
  cases profile with
  | google email name =>
    cases name with
    | none => cases h
    | some name =>
      cases h
      rfl
  | github login emails =>
    cases h
    rfl

/-- The check reads what the browser has sent. -/
theorem Site.check_request (site : Site) (visit : Visit)
    (answer answer' : Except Err (Option String × String)) :
    site.check (visit.request answer) = site.check (visit.request answer') := by
  cases site <;> rfl

theorem Site.check_ok {site : Site} {request : OAuthCallback} (h : site.check request = .ok ()) :
    ∃ code state, request.code = some code ∧ request.state = some state ∧
      request.cookie_state = some state := by
  have hcheck : UserService.check_callback request = .ok () := by
    cases site with
    | google => exact h
    | github =>
      dsimp only [check] at h
      split at h
      · cases h
      · exact h
  unfold UserService.check_callback at hcheck
  split at hcheck
  · rename_i code state cookie_state hcode hstate hcookie
    split at hcheck
    · cases hcheck
    · rename_i heq
      have hsame : state = cookie_state := not_not.mp heq
      subst hsame
      exact ⟨code, state, (Option.filter_eq_some_iff.mp hcode).1,
        (Option.filter_eq_some_iff.mp hstate).1, (Option.filter_eq_some_iff.mp hcookie).1⟩
  · cases hcheck

theorem find_or_register_email {provider : Provider} {email : Option String} {username : String}
    {user : Row User}
    (h : (UserService.find_or_register provider email username).run w = (.ok user, w')) :
    email = some user.val.email := by
  cases email with
  | none => cases h
  | some email =>
    unfold UserService.find_or_register at h
    obtain ⟨found, w1, hfound, hrest⟩ := Proc.run_bind_ok_inv h
    cases found with
    | some user' =>
      have hmem := UserRepository.get_by_email.found hfound
      cases hrest
      rw [(World.mem_user_of_email.mp hmem).2]
    | none =>
      unfold UserRepository.create at hrest
      rw [Proc.run_attempt] at hrest
      rcases hins : w1.db.insert_user _ with e | ⟨r, db⟩
      · rw [hins] at hrest
        cases hrest
      · obtain ⟨_, _, rfl, rfl⟩ := Db.insert_user_ok hins
        rw [hins] at hrest
        cases hrest
        rfl

theorem issue_tokens_user {user : Row User} {login : Login}
    (h : (UserService.issue_tokens settings pwd user).run w = (.ok login, w')) :
    login.user = user := by
  unfold UserService.issue_tokens at h
  obtain ⟨access, w1, _, h⟩ := Proc.run_bind_ok_inv h
  obtain ⟨refresh, w2, _, h⟩ := Proc.run_bind_ok_inv h
  obtain ⟨_, w3, _, h⟩ := Proc.run_bind_ok_inv h
  cases h
  rfl

/-- The code of the visit comes with the state of the cookie, and is good. -/
structure Exchanges (secrets : Secrets) (site : Site) (visit : Visit) (d : Draws)
    (code state : String) (grant : Grant) : Prop where
  code_eq : visit.code = some code
  state_eq : visit.state = some state
  cookie_eq : visit.cookie_state = some state
  use_of : d.use_of secrets code = some (.code grant)
  site_eq : grant.profile.site = site
  fresh : code ∉ d.redeemed

theorem Site.answer_ok {code : String} {answer : Option String × String}
    (h : site.answer endpoints code outcome d = (.ok answer, d')) :
    ∃ profile, site.tokens endpoints code outcome.fate d = (.ok profile, d') ∧
      profile.info outcome.number = .ok answer := by
  unfold Site.answer at h
  rcases htokens : site.tokens endpoints code outcome.fate d with ⟨e | profile, d1⟩
  · rw [htokens] at h
    cases h
  · rw [htokens] at h
    dsimp only at h
    cases hfailure : outcome.failure with
    | some e =>
      rw [hfailure] at h
      cases h
    | none =>
      rw [hfailure] at h
      simp only [Prod.mk.injEq] at h
      obtain ⟨hinfo, rfl⟩ := h
      exact ⟨profile, rfl, hinfo⟩

theorem Site.answer_snd (code : String) : (site.answer endpoints code outcome d).2 =
    (site.tokens endpoints code outcome.fate d).2 := by
  unfold Site.answer
  rcases site.tokens endpoints code outcome.fate d with ⟨e | profile, d1⟩
  · rfl
  · dsimp only
    cases outcome.failure <;> rfl

theorem Site.callback_checked {code : String}
    (hcheck : site.check (visit.request (.ok (none, ""))) = .ok ())
    (hcode : visit.code = some code) :
    site.callback settings pwd endpoints visit outcome d w =
      ((site.login settings pwd (visit.request (site.answer endpoints code outcome d).1)).run w,
        (site.answer endpoints code outcome d).2) := by
  unfold Site.callback
  dsimp only
  rw [hcheck, hcode]

/-- A visit that fails the check costs nobody anything. -/
theorem Site.callback_unchecked {e : Err}
    (hcheck : site.check (visit.request (.ok (none, ""))) = .error e) :
    site.callback settings pwd endpoints visit outcome d w = ((.error e, w), d) := by
  unfold Site.callback
  dsimp only
  rw [hcheck]
  dsimp only
  rw [Site.login_eq, hcheck]
  rfl

theorem Site.callback_draws (site : Site) (visit : Visit) (outcome : Outcome) (d : Draws)
    (w : World) : (site.callback settings pwd endpoints visit outcome d w).2.uses = d.uses ∧
      ∀ t ∈ d.redeemed,
        t ∈ (site.callback settings pwd endpoints visit outcome d w).2.redeemed := by
  rcases hcheck : site.check (visit.request (.ok (none, ""))) with e | ⟨⟩
  · rw [Site.callback_unchecked hcheck]
    exact ⟨rfl, fun _ ht => ht⟩
  · obtain ⟨code, _, hcode, _⟩ := Site.check_ok hcheck
    rw [Site.callback_checked hcheck hcode, Site.answer_snd]
    exact Site.tokens_snd outcome.fate

/-- A callback that logs someone in has exchanged its code, and the account has the
email of the profile that the code stands for. -/
theorem Site.callback_ok {login : Login}
    (h : site.callback settings pwd endpoints visit outcome d w = ((.ok login, w'), d')) :
    ∃ code state grant, Exchanges secrets site visit d code state grant ∧ Clean 3 outcome.fate ∧
      d' = { d with redeemed := code :: d.redeemed } ∧
      grant.profile.email = some login.user.val.email := by
  rcases hcheck : site.check (visit.request (.ok (none, ""))) with e | ⟨⟩
  · rw [Site.callback_unchecked hcheck] at h
    cases h
  · obtain ⟨code, state, hcode, hstate, hcookie⟩ := Site.check_ok hcheck
    rw [Site.callback_checked hcheck hcode, Prod.mk.injEq] at h
    obtain ⟨hlogin, hdraws⟩ := h
    rw [Site.login_eq, Site.check_request site visit _ (.ok (none, "")), hcheck] at hlogin
    obtain ⟨_, w1, hunit, hlogin⟩ := Proc.run_bind_ok_inv hlogin
    obtain ⟨answer, w2, hans, hlogin⟩ := Proc.run_bind_ok_inv hlogin
    obtain ⟨user, w3, huser, hissue⟩ := Proc.run_bind_ok_inv hlogin
    rw [Proc.run_ofExcept, Prod.mk.injEq] at hans
    have hanswer : site.answer endpoints code outcome d = (.ok answer, d') :=
      Prod.ext hans.1 hdraws
    obtain ⟨profile, htokens, hinfo⟩ := Site.answer_ok hanswer
    obtain ⟨hclean, hredeem⟩ := Site.tokens_ok.mp htokens
    obtain ⟨grant, huse, hsite, hfresh, rfl, rfl⟩ := Endpoints.redeem_ok.mp hredeem
    refine ⟨code, state, grant, ⟨hcode, hstate, hcookie, huse, hsite, hfresh⟩, hclean, rfl, ?_⟩
    rw [issue_tokens_user hissue, ← Profile.address_info hinfo, hsite]
    exact find_or_register_email huser

end

end saas.oauth
