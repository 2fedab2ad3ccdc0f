-- `rate_limiter.py` in front of `POST /login/code`: guesses at a login code. The
-- limit is for each value of the `Authorization` header, which the sender
-- chooses, so it bounds a client only while he sends one value in a minute.
import SaasBackend.CodeHistory
import SaasBackend.RateLimits

open relational async

namespace saas

/-! ## The limiter and the endpoint -/

/-- The key of a request. An empty header is false. -/
def user_or_ip (authorization : Option String) (remote_address : String) : String :=
  (given authorization).getD remote_address

/-- `5/minute`, for each key on each route. -/
abbrev Slowapi := limits.Limiter String 5

/-- The window of a time. -/
def minute (t : Time) : Nat := t / minutes 1

/-- A request to `POST /login/code`. -/
structure CodeGuess where
  authorization : Option String
  remote_address : String
  email : String
  code : String
deriving DecidableEq, Repr

namespace World

/-- The stored code that a guess for `email` is verified against. -/
def checked (w : World) (email : String) : Option (Row LoginCode) := do
  let user ← w.find_user email
  let login_code ← w.latest_code user.id
  if login_code.val.expires_at < w.clock then none else some login_code

theorem checked_mem {w : World} {email : String} {c : Row LoginCode}
    (h : w.checked email = some c) : c ∈ w.codes ∧ w.clock ≤ c.val.expires_at := by
  unfold checked at h
  rcases hu : w.find_user email with _ | user
  · simp [hu] at h
  · rcases hc : w.latest_code user.id with _ | d
    · simp [hu, hc] at h
    · simp only [hu, hc, Option.bind_eq_bind, Option.bind_some] at h
      split at h
      · cases h
      · rename_i ht
        cases h
        exact ⟨(latest_code_mem hc).1, Nat.le_of_not_lt ht⟩

end World

/-- Where no stored code is verified, the guess is not looked at; where one is, a
wrong guess leaves everything as it was. -/
theorem UserService.login_with_code.guess (settings : Settings) (pwd : PwdContext)
    (email code : String) (w : World) :
    (w.checked email = none → ∀ code', (login_with_code settings pwd email code').run w =
      (login_with_code settings pwd email code).run w) ∧
    (∀ c, w.checked email = some c → pwd.verify code c.val.code_hash = false →
      (login_with_code settings pwd email code).run w =
        (.error (.http 400 "Invalid code or email."), w)) := by
  unfold World.checked
  simp only [login_with_code.spec]
  rcases w.find_user email with _ | user
  · simp
  · rcases hc : w.latest_code user.id with _ | d
    · simp [hc]
    · by_cases ht : d.val.expires_at < w.clock
      · simp [hc, ht]
      · simp only [hc, ht, if_false, Option.bind_eq_bind, Option.bind_some, Option.some.injEq,
          reduceCtorEq, false_implies, true_and]
        rintro c rfl hv
        simp [hv]

/-! ## The system -/

/-- A guess that the limiter has let through. -/
structure AdmittedGuess where
  key : String
  remote_address : String
  time : Time
  checked : Option (Row LoginCode)
deriving DecidableEq, Repr

/-- The service with the guesses that it has handled. -/
structure Throttled where
  world : World
  admitted : List AdmittedGuess := []

inductive ThrottledLabel where
  | guess (request : CodeGuess)
  | serve (request : AuthRequest)
  | tick (d : Nat)

/-- A guess passes the limiter. -/
def ThrottledLabel.Enabled : ThrottledLabel → Prop
  | .serve (.login (.code _ _)) => False
  | _ => True

instance ThrottledLabel.decidableEnabled : ∀ l : ThrottledLabel, Decidable l.Enabled
  | .guess _ => isTrue trivial
  | .tick _ => isTrue trivial
  | .serve (.login (.code _ _)) => isFalse id
  | .serve (.login (.password _ _)) => isTrue trivial
  | .serve (.login (.google _)) => isTrue trivial
  | .serve (.login (.github _)) => isTrue trivial
  | .serve (.register _ _ _) => isTrue trivial
  | .serve (.request_code _ _) => isTrue trivial
  | .serve (.refresh _) => isTrue trivial
  | .serve (.deactivate _) => isTrue trivial
  | .serve (.update_user_status _ _ _) => isTrue trivial

namespace Throttled

/-- What the limiter has counted on the route. -/
def log (s : Throttled) : List (String × Nat) := s.admitted.map fun g => (g.key, minute g.time)

/-- The guesses of a client that were checked against the stored code `c`. -/
def checks (s : Throttled) (client : String) (c : Row LoginCode) : List AdmittedGuess :=
  s.admitted.filter fun g => decide (g.remote_address = client ∧ g.checked = some c)

end Throttled

section

variable (slowapi : Slowapi) (settings : Settings) (pwd : PwdContext)

/-- `SlowAPIMiddleware` and the endpoint behind it. -/
def CodeGuess.next (s : Throttled) (request : CodeGuess) : Throttled :=
  let key := user_or_ip request.authorization request.remote_address
  if slowapi.admits s.log key (minute s.world.clock) then
    { world := ((UserService.login_with_code settings pwd request.email request.code).run
        s.world).2
      admitted := s.admitted ++
        [⟨key, request.remote_address, s.world.clock, s.world.checked request.email⟩] }
  else s

def ThrottledLabel.next (s : Throttled) : ThrottledLabel → Throttled
  | .guess request => request.next slowapi settings pwd s
  | .serve request => { s with world := ((request.prog settings pwd).run s.world).2 }
  | .tick d => { s with world := s.world.advance d }

/-- Guesses, and any other requests between them. -/
def throttled : System Throttled ThrottledLabel where
  enabled _ l := l.Enabled
  next s l := l.next slowapi settings pwd s

instance (s : Throttled) (l : ThrottledLabel) :
    Decidable ((throttled slowapi settings pwd).enabled s l) :=
  inferInstanceAs (Decidable l.Enabled)

end

/-- The client guesses with one key in each minute. -/
def OneKey (client : String) (s : Throttled) : ThrottledLabel → Prop
  | .guess request => request.remote_address = client →
      ∀ g ∈ s.admitted, g.remote_address = client → minute g.time = minute s.world.clock →
        g.key = user_or_ip request.authorization request.remote_address
  | _ => True

instance (client : String) (s : Throttled) : ∀ l, Decidable (OneKey client s l)
  | .guess request => inferInstanceAs (Decidable (request.remote_address = client →
      ∀ g ∈ s.admitted, g.remote_address = client → minute g.time = minute s.world.clock →
        g.key = user_or_ip request.authorization request.remote_address))
  | .serve _ => isTrue trivial
  | .tick _ => isTrue trivial

/-! ## The codes that are stored -/

/-- Every stored code was made by now, and lives for fifteen minutes. -/
def World.Timely (w : World) : Prop :=
  ∀ c ∈ w.codes, c.val.created_at ≤ w.clock ∧ c.val.expires_at = c.val.created_at + minutes 15

theorem CodeEffect.timely {pwd : PwdContext} {w w' : World} {l : AuthLabel}
    (h : CodeEffect pwd w l w') (hclock : w.clock ≤ w'.clock) (ht : w.Timely) : w'.Timely := by
  have hsub : (∀ c ∈ w'.codes, c ∈ w.codes) → w'.Timely := fun hcodes c hc =>
    ⟨Nat.le_trans (ht c (hcodes c hc)).1 hclock, (ht c (hcodes c hc)).2⟩
  cases h with
  | issue _ hrow hcodes =>
    intro c hc
    rw [hcodes, List.mem_append, List.mem_singleton] at hc
    rcases hc with hc | rfl
    · have hold := ht c (List.mem_filter.mp hc).1
      exact ⟨Nat.le_trans hold.1 hclock, hold.2⟩
    · rw [hrow]
      exact ⟨hclock, rfl⟩
  | spend _ _ _ hcodes =>
    refine hsub fun c hc => ?_
    rw [hcodes] at hc
    exact (List.mem_filter.mp hc).1
  | stay hcodes _ _ =>
    refine hsub fun c hc => ?_
    rwa [hcodes] at hc

/-! ## The invariant -/

section

variable {slowapi : Slowapi} {settings : Settings} {pwd : PwdContext} {client : String}
  {s s' : Throttled} {l : ThrottledLabel}

/-- What holds of the guesses that were handled, while the client keeps to one
key in each minute. -/
structure Throttled.Sound (s : Throttled) (slowapi : Slowapi) (client : String) : Prop where
  timely : s.world.Timely
  log : slowapi.Log s.log
  life : ∀ g ∈ s.admitted, ∀ c, g.checked = some c →
    c.val.created_at ≤ g.time ∧ g.time ≤ c.val.created_at + minutes 15
  one_key : ∀ g ∈ s.admitted, ∀ h ∈ s.admitted, g.remote_address = client →
    h.remote_address = client → minute g.time = minute h.time → g.key = h.key

theorem Throttled.Sound.of_world (h : s.Sound slowapi client) {w : World} (ht : w.Timely) :
    Throttled.Sound { s with world := w } slowapi client := ⟨ht, h.log, h.life, h.one_key⟩

/-- A guess that is let through, with one key in the minute. -/
theorem Throttled.Sound.guess (h : s.Sound slowapi client) {request : CodeGuess}
    (hkey : OneKey client s (.guess request)) :
    (request.next slowapi settings pwd s).Sound slowapi client := by
  unfold CodeGuess.next
  dsimp only
  split
  · rename_i hadmits
    have hstep := login_code_effect settings pwd request.email request.code s.world
    have htimely := hstep.1.timely (Nat.le_of_eq hstep.2.2.symm) h.timely
    refine ⟨htimely, ?_, ?_, ?_⟩
    · unfold Throttled.log
      rw [List.map_append]
      exact .snoc h.log hadmits
    · intro g hg c hc
      rw [List.mem_append, List.mem_singleton] at hg
      rcases hg with hg | rfl
      · exact h.life g hg c hc
      · obtain ⟨hmem, hexpires⟩ := World.checked_mem hc
        obtain ⟨hmade, hlife⟩ := h.timely c hmem
        rw [hlife] at hexpires
        exact ⟨hmade, hexpires⟩
    · intro g hg g' hg' hgc hgc' hminute
      rw [List.mem_append, List.mem_singleton] at hg hg'
      rcases hg with hg | rfl
      · rcases hg' with hg' | rfl
        · exact h.one_key g hg g' hg' hgc hgc' hminute
        · exact hkey hgc' g hg hgc hminute
      · rcases hg' with hg' | rfl
        · exact (hkey hgc g' hg' hgc' hminute.symm).symm
        · rfl
  · exact h

theorem Throttled.Sound.step (h : s.Sound slowapi client) (hl : OneKey client s l) :
    (l.next slowapi settings pwd s).Sound slowapi client := by
  cases l with
  | guess request => exact h.guess hl
  | serve request =>
    have hstep := request.code_effect settings pwd s.world
    exact h.of_world (hstep.1.timely (Nat.le_of_eq hstep.2.2.symm) h.timely)
  | tick d =>
    refine h.of_world fun c hc => ?_
    have hold := h.timely c hc
    exact ⟨Nat.le_trans hold.1 (Nat.le_add_right _ _), hold.2⟩

/-- Nothing is admitted yet, and no code is stored. -/
structure Throttled.Fresh (s : Throttled) : Prop where
  admitted : s.admitted = []
  codes : s.world.codes = []

theorem Throttled.Fresh.sound (h : s.Fresh) : s.Sound slowapi client where
  timely c hc := by simp [h.codes] at hc
  log := by
    unfold Throttled.log
    rw [h.admitted]
    exact .nil
  life g hg := by simp [h.admitted] at hg
  one_key g hg := by simp [h.admitted] at hg

theorem run_sound {ls : List ThrottledLabel} (h0 : s.Fresh)
    (hrun : (throttled slowapi settings pwd).Run (OneKey client) s ls s') :
    s'.Sound slowapi client := by
  apply hrun.invariant (I := fun t => t.Sound slowapi client) h0.sound
  intro t l ht _ hl
  exact ht.step hl

theorem Throttled.Sound.in_minute (h : s.Sound slowapi client) (c : Row LoginCode) (n : Nat) :
    (s.checks client c).countP (fun g => decide (minute g.time = n)) ≤ 5 := by
  unfold Throttled.checks
  rw [List.countP_filter]
  have hle : s.admitted.countP (fun g : AdmittedGuess =>
      decide (g.remote_address = client) && decide (minute g.time = n)) ≤ 5 := by
    apply limits.countP_le_of_key AdmittedGuess.key (fun g : AdmittedGuess => minute g.time) _ n
      h.log.count_le
    intro g hg g' hg' hgc hgc' hn hn'
    exact h.one_key g hg g' hg' (of_decide_eq_true hgc) (of_decide_eq_true hgc')
      (hn.trans hn'.symm)
  refine Nat.le_trans (List.countP_mono_left fun g _ hg => ?_) hle
  simp only [Bool.and_eq_true, decide_eq_true_eq] at hg ⊢
  exact ⟨hg.2.1, hg.1⟩

/-- The life of a code touches sixteen minutes. -/
theorem Throttled.Sound.in_life (h : s.Sound slowapi client) (c : Row LoginCode) :
    (s.checks client c).length ≤ 80 := by
  apply limits.length_le_of_windows (fun g : AdmittedGuess => minute g.time)
    (minute c.val.created_at) 16 _ (h.in_minute c)
  intro g hg
  obtain ⟨hmem, hg⟩ := List.mem_filter.mp hg
  obtain ⟨_, hc⟩ := of_decide_eq_true hg
  obtain ⟨hmade, hlife⟩ := h.life g hmem c hc
  exact limits.window_of_span (m := 15) (by decide) hmade hlife

end

/-- While a client keeps to one key in each minute, at most five of his guesses
in a minute, and at most eighty in all, are checked against a stored code. -/
theorem code_guesses_are_limited {slowapi : Slowapi} {settings : Settings} {pwd : PwdContext}
    {client : String} {s₀ s : Throttled} {ls : List ThrottledLabel} (h0 : s₀.Fresh)
    (hrun : (throttled slowapi settings pwd).Run (OneKey client) s₀ ls s) (c : Row LoginCode) :
    (∀ n, (s.checks client c).countP (fun g => decide (minute g.time = n)) ≤ 5) ∧
    (s.checks client c).length ≤ 80 := by
  have hs := run_sound h0 hrun
  exact ⟨hs.in_minute c, hs.in_life c⟩

namespace Sample

/-- The limiter that lets through whatever is within the limit. -/
def slowapi : Slowapi := limits.fixed_window String 5

/-- A wrong guess with a header, from the one address. -/
def wrong_guess (authorization : Option String) : ThrottledLabel :=
  .guess ⟨authorization, "203.0.113.7", "eva@example.com", "000000"⟩

/-- The code that eva is sent. -/
def code_row : Row LoginCode where
  id := 0
  val := ⟨0, "$123456", fromtimestamp 1000, fromtimestamp 1000 + minutes 15⟩

def request_code_of_eva : ThrottledLabel := .serve (.request_code "eva@example.com" "123456")

end Sample

open Sample in
/-- Six guesses without a header: one of them is turned away. -/
theorem code_guesses_are_limited_sample :
    (((throttled slowapi settings code_pwd).exec ⟨opened.world, []⟩
      (request_code_of_eva :: List.replicate 6 (wrong_guess none))).checks
      "203.0.113.7" code_row).length ≤ 80 :=
  (code_guesses_are_limited ⟨rfl, rfl⟩ (.of_path (by decide)) code_row).2

open Sample in
/-- Six headers in one minute: six guesses are checked against eva's code. -/
theorem code_guesses_are_not_limited :
    ∃ ls s n,
      (throttled slowapi settings code_pwd).Run (fun _ _ => True) ⟨opened.world, []⟩ ls s ∧
      5 < (s.checks "203.0.113.7" code_row).countP (fun g => decide (minute g.time = n)) := by
  exact ⟨[request_code_of_eva, wrong_guess (some "a"), wrong_guess (some "b"),
    wrong_guess (some "c"), wrong_guess (some "d"), wrong_guess (some "e"), wrong_guess none],
    _, minute (fromtimestamp 1000), .of_path (by decide), by decide⟩

end saas
