-- Social logins on a network that loses, delays and repeats messages, with browsers of
-- users who follow the redirects they get, and with others that send what they like,
-- also by way of links that they make the first ones open.
import SaasBackend.OAuth
import SaasBackend.Runs

open relational async resend

namespace saas.oauth

/-! ## The parties -/

/-- Who takes part: the browsers of honest users, who is signed in where at a provider,
the providers, and the service. -/
structure Parties where
  honest : Nat → Bool
  signs_in : Nat → Profile → Bool
  secrets : Secrets
  endpoints : Endpoints secrets
  settings : Settings
  pwd : PwdContext

/-- A message to or from a browser. What was sent once can arrive at any time, more
than once, or never. -/
inductive Message where
  /-- `/google/login` and `/github/login`: the cookie, and the redirect with the state. -/
  | login (browser : Nat) (site : Site) (state : String)
  /-- The provider's redirect to the callback. -/
  | back (browser : Nat) (query : Query) (site : Site)
  | visit (browser : Nat) (site : Site) (visit : Visit)
  /-- The answer of a callback that has logged in: the cookie is deleted. -/
  | done (browser : Nat) (site : Site)
deriving DecidableEq, Repr

/-- The browser that receives the message, and the drawn text it gets to know by it. -/
def Message.tells : Message → Option (Nat × String)
  | login browser _ state => some (browser, state)
  | back browser query _ => query.code.map fun code => (browser, code)
  | visit _ _ _ => none
  | done _ _ => none

/-- A social login that the service has answered with tokens. -/
structure Entry where
  browser : Nat
  site : Site
  code : String
  state : String
  user : Row User
deriving DecidableEq, Repr

structure Web where
  world : World
  draws : Draws := {}
  /-- `oauth_state_google` and `oauth_state_github` of each browser. -/
  cookie : Nat → Site → Option String := fun _ _ => none
  sent : List Message := []
  logins : List Entry := []

inductive Click where
  /-- A browser opens the login page of the service. -/
  | start (browser : Nat) (site : Site)
  /-- The answer arrives. -/
  | keep (browser : Nat) (site : Site) (state : String)
  /-- The user consents at the provider of the profile. -/
  | consent (browser : Nat) (state : String) (profile : Profile)
  | decline (browser : Nat) (site : Site) (state : String)
  /-- A browser opens a URL of the callback, and sends its cookie. -/
  | follow (browser : Nat) (site : Site) (query : Query)
  /-- A visit of somebody who sends any cookie. -/
  | forge (browser : Nat) (site : Site) (visit : Visit)
  | serve (browser : Nat) (site : Site) (visit : Visit) (outcome : Outcome)
  /-- The answer of a login arrives. -/
  | finish (browser : Nat) (site : Site)
  /-- The other requests of the service, and those that die: they do anything. -/
  | elsewhere (world : World)

section

variable (P : Parties)

/-- A browser of the others has received the text. -/
def Web.leaked (web : Web) (t : String) : Bool :=
  web.sent.any fun m => m.tells.any fun (browser, s) => !P.honest browser && s == t

/-- The others can write texts that they have received and texts that they think up. -/
def Web.Writable (web : Web) (t : String) : Prop :=
  P.secrets.secret t = false ∨ web.leaked P t = true

instance (web : Web) (t : String) : Decidable (web.Writable P t) :=
  inferInstanceAs (Decidable (_ ∨ _))

def Query.texts (query : Query) : List String :=
  query.error.toList ++ query.code.toList ++ query.state.toList

def Click.Enabled (web : Web) : Click → Prop
  | start _ _ => True
  | keep browser site state => .login browser site state ∈ web.sent
  | consent browser state profile =>
    (.login browser profile.site state ∈ web.sent ∨ web.Writable P state) ∧
      P.signs_in browser profile = true
  | decline browser site state => .login browser site state ∈ web.sent ∨ web.Writable P state
  | follow browser site query => P.honest browser = true ∧
    (.back browser query site ∈ web.sent ∨ ∀ t ∈ query.texts, web.Writable P t)
  | forge browser _ visit => P.honest browser = false ∧
    ∀ t ∈ visit.texts ++ visit.cookie_state.toList, web.Writable P t
  | serve browser site visit _ => .visit browser site visit ∈ web.sent
  | finish browser site => .done browser site ∈ web.sent
  | elsewhere _ => True

instance Click.decidable (web : Web) : ∀ click : Click, Decidable (click.Enabled P web)
  | start _ _ | elsewhere _ => isTrue trivial
  | keep _ _ _ | serve _ _ _ _ | finish _ _ => inferInstanceAs (Decidable (_ ∈ _))
  | decline _ _ _ => inferInstanceAs (Decidable (_ ∨ _))
  | consent _ _ _ | follow _ _ _ | forge _ _ _ => inferInstanceAs (Decidable (_ ∧ _))

/-- The browser's cookie of the site is set, or deleted. -/
def Web.set_cookie (web : Web) (browser : Nat) (site : Site) (state : Option String) : Web :=
  { web with
    cookie := fun b s => if b = browser ∧ s = site then state else web.cookie b s }

def Web.send (web : Web) (m : Message) : Web := { web with sent := web.sent ++ [m] }

/-- The service has handled a callback: `result` is what came of it. -/
def Web.answered (web : Web) (browser : Nat) (site : Site) (visit : Visit)
    (result : (Except Err Login × World) × Draws) : Web :=
  let web' := { web with world := result.1.2, draws := result.2 }
  match result.1.1 with
  | .error _ => web'
  | .ok login =>
    { web'.send (.done browser site) with
      logins := web.logins ++
        [⟨browser, site, visit.code.getD "", visit.state.getD "", login.user⟩] }

def Click.next (web : Web) : Click → Web
  | start browser site =>
    { web with draws := web.draws.draw (.state browser site) }.send
      (.login browser site (web.draws.text P.secrets))
  | keep browser site state => web.set_cookie browser site (some state)
  | consent browser state profile =>
    { web with draws := web.draws.draw (.code ⟨browser, state, profile⟩) }.send
      (.back browser { code := some (web.draws.text P.secrets), state := some state } profile.site)
  | decline browser site state =>
    web.send (.back browser { error := some "access_denied", state := some state } site)
  | follow browser site query =>
    web.send (.visit browser site { query with cookie_state := web.cookie browser site })
  | forge browser site visit => web.send (.visit browser site visit)
  | serve browser site visit outcome =>
    web.answered browser site visit
      (site.callback P.settings P.pwd P.endpoints visit outcome web.draws web.world)
  | finish browser site => web.set_cookie browser site none
  | elsewhere world => { web with world := world }

/-- The social logins of the service, from all browsers. -/
def social_logins : System Web Click where
  enabled web click := click.Enabled P web
  next web click := click.next P web

instance (web : Web) (click : Click) : Decidable ((social_logins P).enabled web click) :=
  Click.decidable P web click

end

/-! ## What is known of drawn texts -/

section

variable {P : Parties} {web web' : Web} {t : String} {use : Use}

/-- What was drawn stays drawn. -/
def Draws.Grows (secrets : Secrets) (d d' : Draws) : Prop :=
  ∀ t use, d.use_of secrets t = some use → d'.use_of secrets t = some use

theorem Draws.grows_draw (secrets : Secrets) (d : Draws) (use : Use) :
    d.Grows secrets (d.draw use) := by
  intro t use' h
  exact (use_of_draw secrets).mpr (Or.inl h)

theorem Draws.use_of_congr {secrets : Secrets} {d d' : Draws} (h : d'.uses = d.uses) (t : String) :
    d'.use_of secrets t = d.use_of secrets t := by
  unfold use_of
  rw [h]

/-- The text was drawn for no honest browser, and never will be. -/
def Web.Foreign (P : Parties) (web : Web) (t : String) : Prop :=
  P.secrets.secret t = false ∨
    ∃ use, web.draws.use_of P.secrets t = some use ∧ P.honest use.browser = false

theorem Web.Foreign.browser (h : web.Foreign P t) (hu : web.draws.use_of P.secrets t = some use) :
    P.honest use.browser = false := by
  rcases h with hplain | ⟨use', hu', hb⟩
  · obtain ⟨k, rfl, _⟩ := (Draws.use_of_eq_some P.secrets).mp hu
    rw [P.secrets.secret_text] at hplain
    cases hplain
  · rw [hu'] at hu
    cases hu
    exact hb

theorem Web.Foreign.mono (h : web.Foreign P t) (hg : web.draws.Grows P.secrets web'.draws) :
    web'.Foreign P t := by
  rcases h with hplain | ⟨use, hu, hb⟩
  · exact Or.inl hplain
  · exact Or.inr ⟨use, hg t use hu, hb⟩

/-- The code was granted in this browser, on the state that comes with it. -/
def Web.Own (P : Parties) (web : Web) (browser : Nat) (site : Site) (query : Query) : Prop :=
  ∀ code, query.code = some code → ∃ grant, web.draws.use_of P.secrets code = some (.code grant) ∧
    grant.browser = browser ∧ grant.profile.site = site ∧ query.state = some grant.state

/-- The state was drawn for the browser. -/
def Web.Started (P : Parties) (web : Web) (browser : Nat) (site : Site) (state : String) : Prop :=
  web.draws.use_of P.secrets state = some (.state browser site)

/-- An honest browser sends its own cookie, with a code of its own or with the texts of
somebody else's link; the others have no code of an honest browser. -/
def Web.FairVisit (P : Parties) (web : Web) (browser : Nat) (site : Site) (visit : Visit) : Prop :=
  if P.honest browser then
    (∀ state, visit.cookie_state = some state → web.Started P browser site state) ∧
      (web.Own P browser site visit.toQuery ∨ ∀ t ∈ visit.texts, web.Foreign P t)
  else ∀ code, visit.code = some code → web.Foreign P code

def Web.Fair (P : Parties) (web : Web) : Message → Prop
  | .login browser site state => web.Started P browser site state
  | .back browser query site => web.Own P browser site query
  | .visit browser site visit => web.FairVisit P browser site visit
  | .done _ _ => True

theorem Web.Own.mono {browser : Nat} {site : Site} {query : Query}
    (h : web.Own P browser site query) (hg : web.draws.Grows P.secrets web'.draws) :
    web'.Own P browser site query := by
  intro code hcode
  obtain ⟨grant, huse, hrest⟩ := h code hcode
  exact ⟨grant, hg _ _ huse, hrest⟩

theorem Web.FairVisit.mono {browser : Nat} {site : Site} {visit : Visit}
    (h : web.FairVisit P browser site visit) (hg : web.draws.Grows P.secrets web'.draws) :
    web'.FairVisit P browser site visit := by
  unfold FairVisit at h ⊢
  split
  · rename_i hb
    rw [if_pos hb] at h
    refine ⟨fun state hs => hg _ _ (h.1 state hs), ?_⟩
    rcases h.2 with hown | hforeign
    · exact Or.inl (hown.mono hg)
    · exact Or.inr fun t ht => (hforeign t ht).mono hg
  · rename_i hb
    rw [if_neg hb] at h
    intro code hcode
    exact (h code hcode).mono hg

theorem Web.Fair.mono {m : Message} (h : web.Fair P m)
    (hg : web.draws.Grows P.secrets web'.draws) : web'.Fair P m := by
  cases m with
  | login browser site state => exact hg _ _ h
  | back browser query site => exact Web.Own.mono h hg
  | visit browser site visit => exact Web.FairVisit.mono h hg
  | done browser site => trivial

/-- The login is the doing of the one who is logged in. -/
def Web.Rightful (P : Parties) (web : Web) (e : Entry) : Prop :=
  ∃ grant, web.draws.use_of P.secrets e.code = some (.code grant) ∧
    grant.profile.site = e.site ∧ grant.profile.email = some e.user.val.email ∧
    if P.honest e.browser then
      grant.browser = e.browser ∧ grant.state = e.state ∧
        web.Started P e.browser e.site e.state
    else P.honest grant.browser = false

theorem Web.Rightful.mono {e : Entry} (h : web.Rightful P e)
    (hg : web.draws.Grows P.secrets web'.draws) : web'.Rightful P e := by
  obtain ⟨grant, huse, hsite, hemail, hwho⟩ := h
  refine ⟨grant, hg _ _ huse, hsite, hemail, ?_⟩
  split
  · rename_i hb
    rw [if_pos hb] at hwho
    exact ⟨hwho.1, hwho.2.1, hg _ _ hwho.2.2⟩
  · rename_i hb
    rw [if_neg hb] at hwho
    exact hwho

/-- The invariant. -/
structure Web.Safe (P : Parties) (web : Web) : Prop where
  signed_in : ∀ t grant, web.draws.use_of P.secrets t = some (.code grant) →
    P.signs_in grant.browser grant.profile = true
  cookies : ∀ browser site state, web.cookie browser site = some state →
    web.Started P browser site state
  fair : ∀ m ∈ web.sent, web.Fair P m
  rightful : ∀ e ∈ web.logins, web.Rightful P e
  redeemed : ∀ e ∈ web.logins, e.code ∈ web.draws.redeemed
  once : (web.logins.map Entry.code).Nodup

/-! ## One step -/

theorem Web.Safe.foreign (h : web.Safe P) (ht : web.Writable P t) : web.Foreign P t := by
  rcases ht with hplain | hleaked
  · exact Or.inl hplain
  · unfold leaked at hleaked
    obtain ⟨m, hm, htells⟩ := List.any_eq_true.mp hleaked
    have hfair := h.fair m hm
    cases m with
    | login browser site state =>
      simp only [Message.tells, Option.any_some, Bool.and_eq_true, Bool.not_eq_true',
        beq_iff_eq] at htells
      obtain ⟨hb, rfl⟩ := htells
      exact Or.inr ⟨_, hfair, hb⟩
    | back browser query site =>
      cases hcode : query.code with
      | none => simp [Message.tells, hcode] at htells
      | some code =>
        simp only [Message.tells, hcode, Option.map_some, Option.any_some, Bool.and_eq_true,
          Bool.not_eq_true', beq_iff_eq] at htells
        obtain ⟨hb, rfl⟩ := htells
        obtain ⟨grant, huse, rfl, _⟩ := hfair code hcode
        exact Or.inr ⟨_, huse, hb⟩
    | visit browser site visit => simp [Message.tells] at htells
    | done browser site => simp [Message.tells] at htells

theorem Web.Safe.send {m : Message} (h : web.Safe P) (hm : web.Fair P m) :
    (web.send m).Safe P where
  signed_in := h.signed_in
  cookies := h.cookies
  fair := by
    intro m' hm'
    rcases List.mem_append.mp hm' with hold | hnew
    · exact (h.fair m' hold).mono fun _ _ hu => hu
    · rw [List.mem_singleton.mp hnew]
      exact hm.mono fun _ _ hu => hu
  rightful := fun e he => (h.rightful e he).mono fun _ _ hu => hu
  redeemed := h.redeemed
  once := h.once

theorem Web.Safe.draw (use : Use) (h : web.Safe P)
    (hsigned : ∀ grant, use = .code grant → P.signs_in grant.browser grant.profile = true) :
    { web with draws := web.draws.draw use }.Safe P where
  signed_in := by
    intro t grant hu
    rcases (Draws.use_of_draw P.secrets).mp hu with hold | ⟨_, hnew⟩
    · exact h.signed_in t grant hold
    · exact hsigned grant hnew.symm
  cookies := fun browser site state hc =>
    Draws.grows_draw P.secrets web.draws use _ _ (h.cookies browser site state hc)
  fair := fun m hm => (h.fair m hm).mono (Draws.grows_draw P.secrets web.draws use)
  rightful := fun e he => (h.rightful e he).mono (Draws.grows_draw P.secrets web.draws use)
  redeemed := h.redeemed
  once := h.once

theorem Web.Safe.set_cookie {browser : Nat} {site : Site} {state : Option String}
    (h : web.Safe P) (hs : ∀ s, state = some s → web.Started P browser site s) :
    (web.set_cookie browser site state).Safe P where
  signed_in := h.signed_in
  cookies := by
    intro b s state' hc
    dsimp only [Web.set_cookie] at hc
    split at hc
    · rename_i hsame
      rw [hsame.1, hsame.2]
      exact hs state' hc
    · exact h.cookies b s state' hc
  fair := fun m hm => (h.fair m hm).mono fun _ _ hu => hu
  rightful := fun e he => (h.rightful e he).mono fun _ _ hu => hu
  redeemed := h.redeemed
  once := h.once

/-- Codes are exchanged, and other requests are handled. -/
theorem Web.Safe.spend {d : Draws} (world : World) (h : web.Safe P)
    (huses : d.uses = web.draws.uses)
    (hr : ∀ t ∈ web.draws.redeemed, t ∈ d.redeemed) :
    { web with world := world, draws := d }.Safe P := by
  have hg : web.draws.Grows P.secrets d := by
    intro t use hu
    rw [Draws.use_of_congr huses]
    exact hu
  refine ⟨?_, ?_, ?_, ?_, ?_, h.once⟩
  · intro t grant hu
    rw [Draws.use_of_congr huses] at hu
    exact h.signed_in t grant hu
  · intro browser site state hc
    exact hg _ _ (h.cookies browser site state hc)
  · intro m hm
    exact (h.fair m hm).mono hg
  · intro e he
    exact (h.rightful e he).mono hg
  · intro e he
    exact hr _ (h.redeemed e he)

/-- The login of a fair visit is rightful. -/
theorem Web.rightful_of_exchange {browser : Nat} {site : Site} {visit : Visit}
    {code state : String} {grant : Grant} {user : Row User}
    (hfair : web.FairVisit P browser site visit)
    (hx : Exchanges P.secrets site visit web.draws code state grant)
    (hemail : grant.profile.email = some user.val.email) :
    web.Rightful P ⟨browser, site, code, state, user⟩ := by
  refine ⟨grant, hx.use_of, hx.site_eq, hemail, ?_⟩
  unfold FairVisit at hfair
  dsimp only
  split
  · rename_i hb
    rw [if_pos hb] at hfair
    have hstarted := hfair.1 state hx.cookie_eq
    rcases hfair.2 with hown | hforeign
    · obtain ⟨grant', huse, hbrowser, _, hstate⟩ := hown code hx.code_eq
      have hsame : grant' = grant := by
        rw [hx.use_of] at huse
        cases huse
        rfl
      subst hsame
      rw [hx.state_eq] at hstate
      exact ⟨hbrowser, (Option.some.inj hstate).symm, hstarted⟩
    · -- a link of somebody else has not the state of the cookie
      have hmem : state ∈ visit.texts := by
        unfold Query.texts
        rw [hx.state_eq]
        simp
      have hnot := (hforeign state hmem).browser hstarted
      rw [show (Use.state browser site).browser = browser from rfl, hb] at hnot
      cases hnot
  · rename_i hb
    rw [if_neg hb] at hfair
    exact (hfair code hx.code_eq).browser hx.use_of

theorem Web.answered_draws (web : Web) (browser : Nat) (site : Site) (visit : Visit)
    (result : (Except Err Login × World) × Draws) :
    (web.answered browser site visit result).draws = result.2 := by
  unfold Web.answered
  rcases result with ⟨⟨e | login, w'⟩, d'⟩ <;> rfl

theorem Web.Safe.answered {browser : Nat} {site : Site} {visit : Visit} {outcome : Outcome}
    {result : (Except Err Login × World) × Draws} (h : web.Safe P)
    (hfair : web.FairVisit P browser site visit)
    (hresult : site.callback P.settings P.pwd P.endpoints visit outcome web.draws web.world =
      result) :
    (web.answered browser site visit result).Safe P := by
  obtain ⟨huses, hredeemed⟩ : result.2.uses = web.draws.uses ∧
      ∀ t ∈ web.draws.redeemed, t ∈ result.2.redeemed := by
    rw [← hresult]
    exact Site.callback_draws site visit outcome web.draws web.world
  have hspent := h.spend result.1.2 huses hredeemed
  rcases result with ⟨⟨e | login, w'⟩, d'⟩
  · exact hspent
  · obtain ⟨code, state, grant, hx, _, hd', hemail⟩ := Site.callback_ok hresult
    subst hd'
    have hsent := hspent.send (m := .done browser site) trivial
    unfold Web.answered
    dsimp only
    rw [hx.code_eq, hx.state_eq]
    refine ⟨hsent.signed_in, hsent.cookies, hsent.fair, ?_, ?_, ?_⟩
    · intro e he
      rcases List.mem_append.mp he with hold | hnew
      · exact hsent.rightful e hold
      · rw [List.mem_singleton.mp hnew]
        exact (Web.rightful_of_exchange hfair hx hemail).mono fun _ _ hu => hu
    · intro e he
      rcases List.mem_append.mp he with hold | hnew
      · exact List.mem_cons_of_mem _ (h.redeemed e hold)
      · rw [List.mem_singleton.mp hnew]
        exact List.mem_cons_self
    · -- the code was not exchanged before
      rw [List.map_append, List.nodup_append]
      refine ⟨h.once, by simp, ?_⟩
      intro code' hold code'' hnew heq
      obtain ⟨e, he, rfl⟩ := List.mem_map.mp hold
      simp only [List.map_cons, List.map_nil, List.mem_singleton, Option.getD_some] at hnew
      apply hx.fresh
      rw [← hnew, ← heq]
      exact h.redeemed e he

theorem Web.Safe.visited {browser : Nat} {site : Site} {query : Query} (h : web.Safe P)
    (hb : P.honest browser = true)
    (hq : .back browser query site ∈ web.sent ∨ ∀ t ∈ query.texts, web.Writable P t) :
    web.FairVisit P browser site { query with cookie_state := web.cookie browser site } := by
  unfold FairVisit
  rw [if_pos hb]
  refine ⟨fun state hs => h.cookies browser site state hs, ?_⟩
  rcases hq with hback | hlink
  · exact Or.inl (h.fair _ hback)
  · exact Or.inr fun t ht => h.foreign (hlink t ht)

theorem Web.Safe.next {click : Click} (h : web.Safe P) (he : click.Enabled P web) :
    (click.next P web).Safe P := by
  cases click with
  | start browser site =>
    have hdrawn := h.draw (.state browser site) (fun _ hu => by cases hu)
    refine hdrawn.send ?_
    exact (Draws.use_of_draw P.secrets).mpr (Or.inr ⟨rfl, rfl⟩)
  | keep browser site state =>
    refine h.set_cookie ?_
    intro s hs
    cases hs
    exact h.fair _ he
  | consent browser state profile =>
    have hdrawn := h.draw (.code ⟨browser, state, profile⟩) (fun grant hu => by
      cases hu
      exact he.2)
    refine hdrawn.send ?_
    intro code hcode
    cases hcode
    exact ⟨_, (Draws.use_of_draw P.secrets).mpr (Or.inr ⟨rfl, rfl⟩), rfl, rfl, rfl⟩
  | decline browser site state =>
    refine h.send ?_
    intro code hcode
    cases hcode
  | follow browser site query => exact h.send (h.visited he.1 he.2)
  | forge browser site visit =>
    refine h.send ?_
    dsimp only [Web.Fair, Web.FairVisit]
    rw [if_neg (by simp [he.1])]
    intro code hcode
    refine h.foreign (he.2 code (List.mem_append_left _ ?_))
    unfold Query.texts
    rw [hcode]
    simp
  | serve browser site visit outcome => exact h.answered (h.fair _ he) rfl
  | finish browser site =>
    refine h.set_cookie ?_
    intro s hs
    cases hs
  | elsewhere world => exact h.spend world rfl fun _ ht => ht

end

/-! ## Runs -/

/-- Nobody has begun a social login yet. -/
structure Web.Fresh (web : Web) : Prop where
  uses : web.draws.uses = []
  cookie : ∀ browser site, web.cookie browser site = none
  sent : web.sent = []
  logins : web.logins = []

section

variable {P : Parties} {web₀ web : Web} {clicks : List Click}

theorem Web.Fresh.safe (h : web₀.Fresh) : web₀.Safe P where
  signed_in := by
    intro t grant hu
    obtain ⟨k, _, hk⟩ := (Draws.use_of_eq_some P.secrets).mp hu
    simp [h.uses] at hk
  cookies := by
    intro browser site state hc
    rw [h.cookie] at hc
    cases hc
  fair := by simp [h.sent]
  rightful := by simp [h.logins]
  redeemed := by simp [h.logins]
  once := by simp [h.logins]

theorem social_logins_safe (h0 : web₀.Fresh)
    (hrun : (social_logins P).Run (fun _ _ => True) web₀ clicks web) : web.Safe P := by
  refine hrun.invariant h0.safe ?_
  intro web click h he _
  exact h.next he

/-- The texts that a click has drawn. -/
def Click.draws : Click → Option Use
  | start browser site => some (.state browser site)
  | consent browser state profile => some (.code ⟨browser, state, profile⟩)
  | _ => none

theorem uses_of_run (h0 : web₀.Fresh)
    (hrun : (social_logins P).Run (fun _ _ => True) web₀ clicks web) :
    web.draws.uses = clicks.filterMap Click.draws := by
  induction hrun with
  | nil => exact h0.uses
  | @snoc web clicks click _ _ _ ih =>
    rw [List.filterMap_append, ← ih]
    cases click with
    | serve browser site visit outcome =>
      have huses : (site.callback P.settings P.pwd P.endpoints visit outcome web.draws
          web.world).2.uses = web.draws.uses :=
        (Site.callback_draws site visit outcome web.draws web.world).1
      change (web.answered browser site visit _).draws.uses = _
      rw [Web.answered_draws, huses]
      simp [Click.draws]
    | _ => simp [social_logins, Click.next, Click.draws, Draws.draw, Web.send, Web.set_cookie]

theorem started_of_run (h0 : web₀.Fresh)
    (hrun : (social_logins P).Run (fun _ _ => True) web₀ clicks web) {browser : Nat} {site : Site}
    {state : String} (h : web.Started P browser site state) : .start browser site ∈ clicks := by
  obtain ⟨k, _, hk⟩ := (Draws.use_of_eq_some P.secrets).mp h
  have hmem := List.mem_of_getElem? hk
  rw [uses_of_run h0 hrun] at hmem
  obtain ⟨click, hclick, huse⟩ := List.mem_filterMap.mp hmem
  cases click <;> simp only [Click.draws, Option.some.injEq, reduceCtorEq] at huse
  cases huse
  exact hclick

theorem consent_of_run (h0 : web₀.Fresh)
    (hrun : (social_logins P).Run (fun _ _ => True) web₀ clicks web) {code : String}
    {grant : Grant} (h : web.draws.use_of P.secrets code = some (.code grant)) :
    .consent grant.browser grant.state grant.profile ∈ clicks := by
  obtain ⟨k, _, hk⟩ := (Draws.use_of_eq_some P.secrets).mp h
  have hmem := List.mem_of_getElem? hk
  rw [uses_of_run h0 hrun] at hmem
  obtain ⟨click, hclick, huse⟩ := List.mem_filterMap.mp hmem
  cases click <;> simp only [Click.draws, Option.some.injEq, reduceCtorEq] at huse
  cases huse
  exact hclick

/-- However messages are lost, late or repeated, and whatever the others send or make
honest browsers open: every account that a browser was logged in to has the email of a
profile whose user consented. For an honest browser the user did so in this browser, and
in answer to a login that this browser has begun, on the state that was drawn for it.
For the others it was one of theirs. No code logs in twice. -/
theorem social_logins_are_rightful (h0 : web₀.Fresh)
    (hrun : (social_logins P).Run (fun _ _ => True) web₀ clicks web) :
    (∀ e ∈ web.logins, ∃ browser state profile, .consent browser state profile ∈ clicks ∧
      P.signs_in browser profile = true ∧ profile.site = e.site ∧
      profile.email = some e.user.val.email ∧
      if P.honest e.browser then
        browser = e.browser ∧ state = e.state ∧ web.Started P browser e.site state ∧
          .start browser e.site ∈ clicks
      else P.honest browser = false) ∧
    (web.logins.map Entry.code).Nodup := by
  have hsafe := social_logins_safe h0 hrun
  refine ⟨?_, hsafe.once⟩
  intro e he
  obtain ⟨grant, huse, hsite, hemail, hwho⟩ := hsafe.rightful e he
  refine ⟨grant.browser, grant.state, grant.profile, consent_of_run h0 hrun huse,
    hsafe.signed_in _ _ huse, hsite, hemail, ?_⟩
  split
  · rename_i hb
    rw [if_pos hb] at hwho
    obtain ⟨hbrowser, hstate, hstarted⟩ := hwho
    rw [hbrowser, hstate]
    exact ⟨rfl, rfl, hstarted, started_of_run h0 hrun hstarted⟩
  · rename_i hb
    rw [if_neg hb] at hwho
    exact hwho

end

/-! ## A login that nobody disturbs -/

section

variable {P : Parties} {web₀ web : Web} {clicks : List Click}

end

namespace Trial

open saas.Sample

/-- Texts of one letter. -/
def strokes : Secrets where
  text k := String.ofList (List.replicate (k + 1) 's')
  text_inj := by
    intro j k h
    have hlist := String.ofList_injective h
    have hlen := congrArg List.length hlist
    simpa using hlen
  secret t := t.toList.contains 's'
  secret_text k := by simp
  not_empty := rfl

/-- What the provider says to a code that it did not grant, or that was exchanged
before. Google answers with an error status, GitHub without an access token. -/
def refusal : Site → Err
  | .google => .http 400 "Google returned invalid response"
  | .github => .http 400 "GitHub token exchange failed"

def redeem (site : Site) (code : String) (d : Draws) : Except Err Profile × Draws :=
  match d.use_of strokes code with
  | some (.code grant) =>
    if grant.profile.site = site ∧ code ∉ d.redeemed then
      (.ok grant.profile, { d with redeemed := code :: d.redeemed })
    else (.error (refusal site), d)
  | _ => (.error (refusal site), d)

/-- A code that is good for something is exchanged, and every other one is refused. -/
theorem redeem_cases (site : Site) (code : String) (d : Draws) :
    (∃ grant, d.use_of strokes code = some (.code grant) ∧ grant.profile.site = site ∧
      code ∉ d.redeemed ∧
      redeem site code d = (.ok grant.profile, { d with redeemed := code :: d.redeemed })) ∨
    d.Worthless strokes site code ∧ redeem site code d = (.error (refusal site), d) := by
  unfold redeem
  split
  · rename_i grant huse
    split
    · rename_i hgood
      exact Or.inl ⟨grant, huse, hgood.1, hgood.2, rfl⟩
    · rename_i hgood
      refine Or.inr ⟨fun grant' huse' hsite => ?_, rfl⟩
      rw [huse] at huse'
      cases huse'
      by_contra hfresh
      exact hgood ⟨hsite, hfresh⟩
  · rename_i hnone
    exact Or.inr ⟨fun grant huse _ => absurd huse (hnone grant), rfl⟩

def endpoints : Endpoints strokes where
  redeem := redeem
  once site code := by
    constructor
    · intro d profile hok hworthless
      rcases redeem_cases site code d with ⟨grant, huse, hsite, hfresh, _⟩ | ⟨_, h⟩
      · exact hfresh (hworthless grant huse hsite)
      · rw [h] at hok
        cases hok
    · intro d
      rcases redeem_cases site code d with ⟨_, _, _, _, h⟩ | ⟨hworthless, h⟩
      · rw [h]
        exact fun _ _ _ => List.mem_cons_self
      · rw [h]
        exact hworthless
  grants := by
    intro site code d profile d' h
    rcases redeem_cases site code d with ⟨grant, huse, hsite, _, heq⟩ | ⟨_, heq⟩
    · rw [heq] at h
      cases h
      exact ⟨grant, huse, hsite, rfl, rfl⟩
    · rw [heq] at h
      cases h
  refuses := by
    intro site code d e d' h
    rcases redeem_cases site code d with ⟨_, _, _, _, heq⟩ | ⟨_, heq⟩
    · rw [heq] at h
      cases h
    · rw [heq] at h
      cases h
      rfl

/-- Eva has an account. -/
def eva_profile : Profile := .google (some "eva@example.com") (some "Eva")

def mallory : Profile := .google (some "mallory@example.com") (some "Mallory")

/-- Eva is at browser 0, and Mallory at browser 1. -/
def parties : Parties where
  honest browser := browser = 0
  signs_in browser profile :=
    browser = 0 ∧ profile = eva_profile ∨ browser = 1 ∧ profile = mallory
  secrets := strokes
  endpoints := endpoints
  settings := settings
  pwd := pwd

/-- The first request is lost. -/
def second_try : Outcome where
  fate i := if i = 0 then .lost else .answered

/-- Eva begins a login, and Mallory makes her browser open a callback with a code of
Mallory's. It is turned away. -/
def attack : List Click :=
  let link : Query := { code := some "ss", state := some "s" }
  [.start 1 .google, .consent 1 "s" mallory, .start 0 .google, .keep 0 .google "sss",
    .follow 0 .google link, .serve 0 .google { link with cookie_state := some "sss" } second_try]

/-- Eva's login goes on. -/
def rest : List Click :=
  let own : Query := { code := some "ssss", state := some "sss" }
  [.consent 0 "sss" eva_profile, .follow 0 .google own,
    .serve 0 .google { own with cookie_state := some "sss" } second_try, .finish 0 .google]

def web : Web where
  world := staffed.world

theorem web_fresh : web.Fresh := ⟨rfl, fun _ _ => rfl, rfl, rfl⟩

end Trial

open Trial in
theorem social_logins_are_rightful_sample :
    let after := (social_logins parties).exec web (attack ++ rest)
    (after.logins.map fun e => (e.browser, e.code, e.user.val.email)) =
        [(0, "ssss", "eva@example.com")] ∧
      (after.logins.map Entry.code).Nodup :=
  ⟨by decide +kernel,
    (social_logins_are_rightful web_fresh (.of_path (by decide +kernel))).2⟩

end saas.oauth
