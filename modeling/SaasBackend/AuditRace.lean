-- Status, role and verify requests side by side, cut anywhere: reading the flag,
-- committing it and committing the entry are three acts of a request, and the
-- session of a request does not read an account twice.
import SaasBackend.AuditTrail

open relational async

namespace saas

/-! ## One request, from one await to the next -/

/-- The accounts that a request has in its session: the admin, and the target as
it was loaded. -/
structure Loaded where
  admin : Row User
  user : Row User
deriving DecidableEq, Repr

/-- What a request is about to do. The counts of `get_user_by_id` and the last
`refresh` change nothing and are left out. -/
inductive Phase where
  /-- Find the bearer of the token. -/
  | received
  /-- Read the target: `get_user_by_id`. -/
  | admitted (admin : Row User)
  /-- Read the target again: `update_user`. -/
  | loaded (session : Loaded)
  /-- Commit the flag. -/
  | found (session : Loaded)
  /-- `refresh` the target. -/
  | committed (session : Loaded)
  /-- Commit the entry. -/
  | refreshed (session : Loaded) (updated_user : Row User)
  | logged
  | stopped
deriving DecidableEq, Repr

section

variable (settings : Settings) (c : FlagChange)

/-- The next act of a request. A target that is the admin is already in the
session, and its row is not loaded a second time; and a flag that has its new
value in the session is not in the `UPDATE`. -/
def Phase.next (w : World) : Phase → Phase × World
  | received => match ((get_admin_user settings c.authorization).run w).1 with
    | .ok admin => (admitted admin, w)
    | .error _ => (stopped, w)
  | admitted admin => match w.db.users.byId c.user_id with
    | some user => (loaded ⟨admin, if user.id = admin.id then admin else user⟩, w)
    | none => (stopped, w)
  | loaded session => match w.db.users.byId c.user_id with
    | some _ => (found session, w)
    | none => (stopped, w)
  | found session =>
    if c.flag.of session.user.val = c.value then (committed session, w)
    else (committed session, w.update_user c.user_id (c.flag.patch c.value))
  | committed session => match w.db.users.byId c.user_id with
    | some user => (refreshed session user, w)
    | none => (stopped, w)
  | refreshed session updated_user =>
    match w.db.insert_audit (.of_change session.admin.id c.user_id c.flag
      (c.flag.of session.user.val) (c.flag.of updated_user.val)) with
    | .ok (_, db) => (logged, { w with db := db })
    | .error _ => (stopped, w)
  | logged => (logged, w)
  | stopped => (stopped, w)

end

section

variable {w : World} {c : FlagChange}

/-- An `UPDATE` of a flag that has its value already. -/
theorem World.update_user_same {r : Row User} (hr : w.db.users.byId c.user_id = some r)
    (h : c.flag.of r.val = c.value) : w.update_user c.user_id (c.flag.patch c.value) = w := by
  have husers : w.db.users.update c.user_id (c.flag.patch c.value).apply
      (c.flag.patch c.value).keys = w.db.users := by
    refine Table.update_same _ fun r' hr' hid => ?_
    obtain ⟨hm, hid'⟩ := Table.byId_eq_some.mp hr
    rw [Table.eq_of_id hr' hm (hid.trans hid'.symm), ← h]
    cases c.flag <;> rfl
  unfold World.update_user Db.update_user
  obtain ⟨db, _, _, _, _⟩ := w
  obtain ⟨users, _, _, _, _, _, _, _, _, _, _, _, _, _⟩ := db
  simp only [World.mk.injEq, Db.mk.injEq, and_true]
  exact husers

theorem World.flag_of {u : UUID} {r : Row User} (h : w.db.users.byId u = some r) (f : Flag) :
    w.flag f u = f.of r.val := by
  unfold World.flag
  rw [h]
  rfl

/-- The next acts of a request that nobody disturbs. -/
def Phase.acts (settings : Settings) (c : FlagChange) : Nat → Phase → World → Phase × World
  | 0, phase, w => (phase, w)
  | n + 1, phase, w => acts settings c n (phase.next settings c w).1 (phase.next settings c w).2

theorem Phase.acts_next {settings : Settings} {n : Nat} {phase phase' : Phase} {w' : World}
    (h : phase.next settings c w = (phase', w')) :
    acts settings c (n + 1) phase w = acts settings c n phase' w' := by
  rw [acts, h]

/-- Alone, the six acts leave what the program of the request leaves. -/
theorem Phase.acts_alone (settings : Settings) (c : FlagChange) (w : World) :
    (acts settings c 6 .received w).2 =
      ((get_admin_user settings c.authorization >>= fun admin =>
        UsersService.update_flag c.flag c.flag.action admin.id c.user_id c.value).run w).2 := by
  rcases hget : (get_admin_user settings c.authorization).run w with ⟨e | admin, w₁⟩
  · have hsame : w₁ = w := by
      rw [get_admin_user.spec, Prod.mk.injEq] at hget
      exact hget.2.symm
    have h₁ : next settings c w received = (stopped, w) := by simp only [next, hget]
    rw [Proc.run_bind_error hget, hsame, acts_next h₁]
    rfl
  · obtain ⟨rfl, hbearer⟩ := get_admin_user.ok hget
    have h₁ : next settings c w₁ received = (admitted admin, w₁) := by simp only [next, hget]
    rw [Proc.run_bind_ok hget, acts_next h₁]
    rcases hr : w₁.db.users.byId c.user_id with _ | r
    · have h₂ : next settings c w₁ (admitted admin) = (stopped, w₁) := by simp only [next, hr]
      rw [UsersService.update_flag.unknown hr, acts_next h₂]
      rfl
    · -- a target that is the admin is as the session has it
      have hsession : (if r.id = admin.id then admin else r) = r := by
        by_cases hid : r.id = admin.id
        · have haccount := hbearer.account
          rw [← hid, (Table.byId_eq_some.mp hr).2, hr] at haccount
          rw [if_pos hid, Option.some.inj haccount]
        · rw [if_neg hid]
      have h₂ : next settings c w₁ (admitted admin) = (loaded ⟨admin, r⟩, w₁) := by
        simp only [next, hr, hsession]
      have h₃ : next settings c w₁ (loaded ⟨admin, r⟩) = (found ⟨admin, r⟩, w₁) := by
        simp only [next, hr]
      have h₄ : next settings c w₁ (found ⟨admin, r⟩) =
          (committed ⟨admin, r⟩, w₁.update_user c.user_id (c.flag.patch c.value)) := by
        unfold next
        dsimp only
        by_cases hsame : c.flag.of r.val = c.value
        · rw [if_pos hsame, World.update_user_same hr hsame]
        · rw [if_neg hsame]
      obtain ⟨hm, hid⟩ := Table.byId_eq_some.mp hr
      have hrow : (w₁.update_user c.user_id (c.flag.patch c.value)).db.users.byId c.user_id =
          some ⟨r.id, (c.flag.patch c.value).apply r.val⟩ := by
        rw [← hid]
        exact Table.byId_update_self (c.flag.patch c.value).keys hm
      have h₅ : next settings c (w₁.update_user c.user_id (c.flag.patch c.value))
          (committed ⟨admin, r⟩) =
          (refreshed ⟨admin, r⟩ ⟨r.id, (c.flag.patch c.value).apply r.val⟩,
            w₁.update_user c.user_id (c.flag.patch c.value)) := by
        simp only [next, hrow]
      have hafter : c.flag.of ((c.flag.patch c.value).apply r.val) = c.value := by
        rw [Flag.of_patch, if_pos rfl]
      have hadmin : w₁.db.users.Has admin.id :=
        Table.has_of_mem (Table.byId_eq_some.mp hbearer.account).1
      have hhas : (w₁.update_user c.user_id (c.flag.patch c.value)).db.users.Has admin.id :=
        hadmin.update c.user_id _ (c.flag.patch c.value).keys
      obtain ⟨db, hinsert, _, _⟩ := Db.insert_audit_of_has
        (.of_change admin.id c.user_id c.flag (c.flag.of r.val) c.value) hhas
      have h₆ : next settings c (w₁.update_user c.user_id (c.flag.patch c.value))
          (refreshed ⟨admin, r⟩ ⟨r.id, (c.flag.patch c.value).apply r.val⟩) =
          (logged, { w₁.update_user c.user_id (c.flag.patch c.value) with db := db }) := by
        unfold next
        dsimp only
        rw [hafter, hinsert]
      rw [UsersService.update_flag.spec hr hinsert, acts_next h₂, acts_next h₃, acts_next h₄,
        acts_next h₅, acts_next h₆]
      rfl

end

/-! ## The requests together -/

/-- A request on its way. -/
structure Patching where
  change : FlagChange
  phase : Phase

/-- The requests, the database, and every change of a flag that was committed, as
the entry that it needs. -/
structure Office where
  world : World
  requests : List Patching := []
  changes : List AdminAuditLog := []

/-- The change of the flag by an act of the request. -/
def Patching.changes (p : Patching) (w w' : World) : List AdminAuditLog :=
  match p.phase with
  | .found session =>
    if w'.flag p.change.flag p.change.user_id = w.flag p.change.flag p.change.user_id then []
    else [.of_change session.admin.id p.change.user_id p.change.flag
      (w.flag p.change.flag p.change.user_id) (w'.flag p.change.flag p.change.user_id)]
  | _ => []

/-- A new request, the next act of a request, the end of one or of all, and time. -/
inductive OfficeLabel where
  | receive (change : FlagChange)
  | act (i : Nat)
  | stop (i : Nat)
  | crash
  | tick (d : Nat)

def Patching.stop (p : Patching) : Patching := { p with phase := .stopped }

def office (settings : Settings) : System Office OfficeLabel where
  enabled _ _ := True
  next s
    | .receive change => { s with requests := s.requests ++ [⟨change, .received⟩] }
    | .act i => match s.requests[i]? with
      | none => s
      | some p =>
        let (phase, w) := p.phase.next settings p.change s.world
        { world := w, requests := s.requests.set i ⟨p.change, phase⟩,
          changes := s.changes ++ p.changes s.world w }
    | .stop i => match s.requests[i]? with
      | none => s
      | some p => { s with requests := s.requests.set i p.stop }
    | .crash => { s with requests := s.requests.map Patching.stop }
    | .tick d => { s with world := s.world.advance d }

instance (settings : Settings) (s : Office) (l : OfficeLabel) :
    Decidable ((office settings).enabled s l) := isTrue trivial

section

variable {settings : Settings} {s : Office} {l : OfficeLabel} {w : World} {c : FlagChange}
  {flag : Flag} {u : UUID}

/-- The act that writes a flag is the commit of a request on it. -/
theorem Phase.next_flag {phase : Phase}
    (hne : (phase.next settings c w).2.flag flag u ≠ w.flag flag u) :
    (∃ session, phase = .found session) ∧ c.flag = flag ∧ c.user_id = u := by
  cases phase with
  | received =>
    rcases hget : (get_admin_user settings c.authorization).run w with ⟨e | admin, w'⟩
    · simp [next, hget] at hne
    · simp [next, hget] at hne
  | admitted admin =>
    rcases hu : w.db.users.byId c.user_id with _ | user <;> simp [next, hu] at hne
  | loaded session =>
    rcases hu : w.db.users.byId c.user_id with _ | user <;> simp [next, hu] at hne
  | committed session =>
    rcases hu : w.db.users.byId c.user_id with _ | user <;> simp [next, hu] at hne
  | refreshed session updated_user =>
    refine absurd ?_ hne
    simp only [next]
    split
    · rename_i hinsert
      unfold Db.insert_audit at hinsert
      split at hinsert
      · cases hinsert
        rfl
      · cases hinsert
    · rfl
  | logged => exact absurd rfl hne
  | stopped => exact absurd rfl hne
  | found session =>
    simp only [next] at hne
    split at hne
    · exact absurd rfl hne
    · rw [World.flag_update] at hne
      refine ⟨⟨session, rfl⟩, ?_⟩
      by_contra hother
      refine hne ?_
      unfold World.flag
      congr 2
      funext r
      by_cases hu : u = c.user_id
      · rw [if_pos hu, Flag.of_patch, if_neg fun hf => hother ⟨hf.symm, hu.symm⟩]
      · rw [if_neg hu]

/-- The act of a request, written out. -/
theorem Office.act_eq {i : Nat} {p : Patching} (hi : s.requests[i]? = some p) :
    (office settings).next s (.act i) =
      { world := (p.phase.next settings p.change s.world).2
        requests := s.requests.set i ⟨p.change, (p.phase.next settings p.change s.world).1⟩
        changes := s.changes ++ p.changes s.world (p.phase.next settings p.change s.world).2 } := by
  change (match s.requests[i]? with | none => s | some p => _) = _
  rw [hi]

theorem Office.act_none {i : Nat} (hi : s.requests[i]? = none) :
    (office settings).next s (.act i) = s := by
  change (match s.requests[i]? with | none => s | some p => _) = _
  rw [hi]

/-- Every change of a flag is recorded, with the values before and after it. -/
theorem Office.records
    (hne : ((office settings).next s l).world.flag flag u ≠ s.world.flag flag u) :
    ∃ admin_id, ((office settings).next s l).changes = s.changes ++
      [.of_change admin_id u flag (s.world.flag flag u)
        (((office settings).next s l).world.flag flag u)] := by
  cases l with
  | act i =>
    rcases hi : s.requests[i]? with _ | p
    · rw [Office.act_none hi] at hne
      exact absurd rfl hne
    · rw [Office.act_eq hi] at hne ⊢
      obtain ⟨⟨session, hphase⟩, rfl, rfl⟩ := Phase.next_flag hne
      refine ⟨session.admin.id, congrArg (s.changes ++ ·) ?_⟩
      unfold Patching.changes
      rw [hphase] at hne ⊢
      exact if_neg hne
  | stop i =>
    refine absurd ?_ hne
    change (match s.requests[i]? with | none => s | some p => _).world.flag flag u = _
    rcases s.requests[i]? with _ | p <;> rfl
  | receive change => exact absurd rfl hne
  | crash => exact absurd rfl hne
  | tick d => exact absurd rfl hne

end

/-! ## The trail -/

/-- The request is about to commit the flag. -/
def Patching.committing (p : Patching) : Option Loaded :=
  match p.phase with
  | .found session => some session
  | _ => none

/-- The request is between the commit of the flag and the commit of the entry. -/
def Patching.unlogged (p : Patching) : Option Loaded :=
  match p.phase with
  | .committed session => some session
  | .refreshed session _ => some session
  | _ => none

/-- A request between its two commits, with its session. -/
structure Unlogged where
  change : FlagChange
  session : Loaded

namespace Unlogged

/-- The value of the flag in the session. -/
def before (p : Unlogged) : Bool := p.change.flag.of p.session.user.val

/-- The flag had another value. -/
def owes (p : Unlogged) : Bool := p.before != p.change.value

def entry (p : Unlogged) : AdminAuditLog :=
  .of_change p.session.admin.id p.change.user_id p.change.flag p.before p.change.value

end Unlogged

/-- The requests between their two commits, on one flag of one account. -/
def unlogged (flag : Flag) (u : UUID) (requests : List Patching) : List Unlogged :=
  (requests.filterMap fun p => p.unlogged.map (⟨p.change, ·⟩)).filter fun p =>
    decide (p.change.flag = flag ∧ p.change.user_id = u)

def AdminAuditLog.changed (entry : AdminAuditLog) : Bool := entry.before != entry.after

/-- The committed changes of one flag of one account. -/
def Office.changes_of (s : Office) (flag : Flag) (u : UUID) : List AdminAuditLog :=
  s.changes.filter fun e => decide (e.action = flag.action ∧ e.target_id = u)

/-- What the audit log has to say about a flag of an account since the state `w₀`:
each committed change has its entry, in the order of the commits, save those
whose requests are still to write it; and each entry starts where the one before
it ended. -/
def Office.Accounts (w₀ : World) (s : Office) : Prop :=
  ∃ new, s.world.db.admin_audit_logs.rows = w₀.db.admin_audit_logs.rows ++ new ∧
    ∀ flag u,
      s.changes_of flag u = (entries_of flag.action u new).filter AdminAuditLog.changed ++
        ((unlogged flag u s.requests).filter Unlogged.owes).map Unlogged.entry ∧
      ∃ last, Trail (AdminAuditLog.flag_before flag) (AdminAuditLog.flag_after flag)
          (w₀.flag flag u) (entries_of flag.action u new) last ∧
        ((∀ p ∈ unlogged flag u s.requests, p.owes = false) → last = s.world.flag flag u)

/-! ## When it holds -/

/-- The request commits the flag that it has loaded as it is stored, and no other
request on this flag is between its two commits, unless neither changes it. -/
def Office.Serial (s : Office) (p : Patching) : Prop :=
  ∀ session ∈ p.committing,
    s.world.flag p.change.flag p.change.user_id = p.change.flag.of session.user.val ∧
    ∀ q ∈ unlogged p.change.flag p.change.user_id s.requests,
      q.owes = false ∧ p.change.flag.of session.user.val = p.change.value

/-- The request does not leave a change without its entry. -/
def Patching.Settled (p : Patching) : Prop :=
  ∀ session ∈ p.unlogged, (Unlogged.mk p.change session).owes = false

def Orderly (s : Office) : OfficeLabel → Prop
  | .act i => ∀ p ∈ s.requests[i]?, s.Serial p
  | .stop i => ∀ p ∈ s.requests[i]?, p.Settled
  | .crash => ∀ p ∈ s.requests, p.Settled
  | _ => True

instance (s : Office) (p : Patching) : Decidable (s.Serial p) :=
  inferInstanceAs (Decidable (∀ session ∈ p.committing, _))

instance (p : Patching) : Decidable p.Settled :=
  inferInstanceAs (Decidable (∀ session ∈ p.unlogged, _))

instance Orderly.decidable (s : Office) : ∀ l, Decidable (Orderly s l)
  | .act i => inferInstanceAs (Decidable (∀ p ∈ s.requests[i]?, s.Serial p))
  | .stop i => inferInstanceAs (Decidable (∀ p ∈ s.requests[i]?, p.Settled))
  | .crash => inferInstanceAs (Decidable (∀ p ∈ s.requests, p.Settled))
  | .receive _ => isTrue trivial
  | .tick _ => isTrue trivial

/-! ## Lists of requests -/

/-- The request at a place, and another one put there. -/
theorem set_split {α : Type} {l : List α} {i : Nat} {a : α} (h : l[i]? = some a) :
    ∃ l₁ l₂, l = l₁ ++ a :: l₂ ∧ ∀ b, l.set i b = l₁ ++ b :: l₂ := by
  obtain ⟨hi, ha⟩ := List.getElem?_eq_some_iff.mp h
  refine ⟨l.take i, l.drop (i + 1), ?_, fun b => ?_⟩
  · rw [← ha, List.getElem_cons_drop, List.take_append_drop]
  · rw [List.set_eq_take_append_cons_drop, if_pos hi]

section

variable {flag : Flag} {u : UUID} {p p' : Patching} {l₁ l₂ : List Patching} {session : Loaded}

theorem unlogged_append (flag : Flag) (u : UUID) (l₁ l₂ : List Patching) :
    unlogged flag u (l₁ ++ l₂) = unlogged flag u l₁ ++ unlogged flag u l₂ := by
  unfold unlogged
  rw [List.filterMap_append, List.filter_append]

theorem unlogged_cons_of_none (h : p.unlogged = none) :
    unlogged flag u (p :: l₂) = unlogged flag u l₂ := by
  unfold unlogged
  rw [List.filterMap_cons_none (by rw [h]; rfl)]

theorem unlogged_cons_of_some (h : p.unlogged = some session) :
    unlogged flag u (p :: l₂) =
      (if p.change.flag = flag ∧ p.change.user_id = u then [⟨p.change, session⟩] else []) ++
        unlogged flag u l₂ := by
  unfold unlogged
  rw [List.filterMap_cons_some (by rw [h]; rfl), List.filter_cons]
  by_cases hmine : p.change.flag = flag ∧ p.change.user_id = u
  · simp [hmine]
  · simp [hmine]

/-- A request that goes on without passing a commit. -/
theorem unlogged_same (h : p'.unlogged = p.unlogged) (hc : p'.change = p.change) :
    unlogged flag u (l₁ ++ p' :: l₂) = unlogged flag u (l₁ ++ p :: l₂) := by
  rw [unlogged_append, unlogged_append]
  congr 1
  rcases hp : p.unlogged with _ | session
  · rw [unlogged_cons_of_none hp, unlogged_cons_of_none (h.trans hp)]
  · rw [unlogged_cons_of_some hp, unlogged_cons_of_some (h.trans hp), hc]

end

/-! ## One flag of one account -/

/-- How entries, changes and unlogged requests fit together, for a flag that was
`first` and is stored as `stored`: no request owes an entry, or a single one
does, and no other is between its commits. -/
inductive InOrder (flag : Flag) (first stored : Bool) (entries changes : List AdminAuditLog)
    (requests : List Unlogged) : Prop
  | settled
      (trail : Trail (AdminAuditLog.flag_before flag) (AdminAuditLog.flag_after flag) first
        entries stored)
      (logged : changes = entries.filter AdminAuditLog.changed)
      (quiet : ∀ p ∈ requests, p.before = stored ∧ p.change.value = stored)
  | owed (p : Unlogged)
      (trail : Trail (AdminAuditLog.flag_before flag) (AdminAuditLog.flag_after flag) first
        entries p.before)
      (logged : changes = entries.filter AdminAuditLog.changed ++ [p.entry])
      (alone : requests = [p])
      (value : p.change.value = stored)
      (owes : p.owes = true)

theorem AdminAuditLog.changed_of_change (admin_id u : UUID) (flag : Flag) (b b' : Bool) :
    (of_change admin_id u flag b b').changed = (b != b') := by
  cases flag <;> cases b <;> cases b' <;> rfl

namespace InOrder

variable {flag : Flag} {first stored : Bool} {entries changes : List AdminAuditLog}
  {requests requests' l₁ l₂ : List Unlogged} {p : Unlogged}

/-- The part of the law about one flag. -/
theorem accounts (h : InOrder flag first stored entries changes requests) :
    changes = entries.filter AdminAuditLog.changed ++
        (requests.filter Unlogged.owes).map Unlogged.entry ∧
      ∃ last, Trail (AdminAuditLog.flag_before flag) (AdminAuditLog.flag_after flag) first
          entries last ∧ ((∀ p ∈ requests, p.owes = false) → last = stored) := by
  cases h with
  | settled trail logged quiet =>
    have hnone : requests.filter Unlogged.owes = [] := by
      refine List.filter_eq_nil_iff.mpr fun p hp => ?_
      unfold Unlogged.owes
      rw [(quiet p hp).1, (quiet p hp).2]
      simp
    rw [hnone, logged]
    exact ⟨(List.append_nil _).symm, stored, trail, fun _ => rfl⟩
  | owed p trail logged alone value owes =>
    subst alone
    refine ⟨?_, p.before, trail, fun h => ?_⟩
    · rw [logged, List.filter_cons_of_pos owes]
      rfl
    · have hp := h p (List.mem_singleton_self p)
      rw [owes] at hp
      cases hp

/-- Requests that owe nothing may come and go. -/
theorem sub (h : InOrder flag first stored entries changes requests)
    (hsub : ∀ q ∈ requests', q ∈ requests)
    (hkeeps : ∀ q, requests = [q] → q.owes = true → requests' = requests) :
    InOrder flag first stored entries changes requests' := by
  cases h with
  | settled trail logged quiet => exact .settled trail logged fun q hq => quiet q (hsub q hq)
  | owed p trail logged alone value owes =>
    rw [hkeeps p alone owes]
    exact .owed p trail logged alone value owes

/-- A commit that changes nothing. -/
theorem commit_same (h : InOrder flag first stored entries changes (l₁ ++ l₂))
    (hstored : p.before = stored) (hsame : p.change.value = p.before)
    (hothers : ∀ q ∈ l₁ ++ l₂, q.owes = false) :
    InOrder flag first stored entries changes (l₁ ++ p :: l₂) := by
  cases h with
  | settled trail logged quiet =>
    refine .settled trail logged fun q hq => ?_
    rcases List.mem_append.mp hq with hq | hq
    · exact quiet q (List.mem_append_left _ hq)
    · rcases List.mem_cons.mp hq with rfl | hq
      · exact ⟨hstored, hsame.trans hstored⟩
      · exact quiet q (List.mem_append_right _ hq)
  | owed q trail logged alone value owes =>
    have hq := hothers q (by rw [alone]; exact List.mem_singleton_self q)
    rw [owes] at hq
    cases hq

theorem commit_change (h : InOrder flag first stored entries changes [])
    (hstored : p.before = stored) (howes : p.owes = true) :
    InOrder flag first p.change.value entries (changes ++ [p.entry]) [p] := by
  cases h with
  | settled trail logged quiet =>
    refine .owed p ?_ (by rw [logged]) rfl rfl howes
    rw [hstored]
    exact trail
  | owed q trail logged alone value owes => cases alone

theorem log (h : InOrder flag first stored entries changes (l₁ ++ p :: l₂))
    (hflag : p.change.flag = flag) :
    InOrder flag first stored (entries ++ [p.entry]) changes (l₁ ++ l₂) := by
  have hafter : p.entry.flag_after flag = some p.change.value := by
    rw [← hflag]
    exact AdminAuditLog.flag_after_of_change _ _
  have hbefore : p.entry.flag_before flag = some p.before := by
    rw [← hflag]
    exact AdminAuditLog.flag_before_of_change _ _
  have hchanged : p.entry.changed = p.owes := AdminAuditLog.changed_of_change _ _ _ _ _
  cases h with
  | settled trail logged quiet =>
    obtain ⟨hb, hv⟩ := quiet p (List.mem_append_right _ List.mem_cons_self)
    rw [hb] at hbefore
    rw [hv] at hafter
    refine .settled (trail.snoc hbefore hafter) ?_ fun q hq => quiet q ?_
    · have hnot : p.entry.changed = false := by
        rw [hchanged]
        unfold Unlogged.owes
        rw [hb, hv]
        simp
      rw [List.filter_append, List.filter_cons_of_neg (by simp [hnot])]
      simpa using logged
    · rcases List.mem_append.mp hq with hq | hq
      · exact List.mem_append_left _ hq
      · exact List.mem_append_right _ (List.mem_cons_of_mem _ hq)
  | owed q trail logged alone value owes =>
    have hl₁ : l₁ = [] := by
      cases l₁ with
      | nil => rfl
      | cons a l => simp at alone
    subst hl₁
    rw [List.nil_append, List.cons.injEq] at alone
    obtain ⟨rfl, rfl⟩ := alone
    rw [value] at hafter
    refine .settled (trail.snoc hbefore hafter) ?_ fun q hq => nomatch hq
    rw [List.filter_append, List.filter_cons_of_pos (hchanged.trans owes)]
    exact logged

end InOrder

/-! ## All requests -/

/-- What a request has found out is still so: its admin and its target are there,
and it has read back the value that it committed. -/
def Phase.Known (c : FlagChange) (w : World) : Phase → Prop
  | admitted admin => w.db.users.Has admin.id
  | loaded session => w.db.users.Has session.admin.id ∧ w.db.users.Has c.user_id
  | found session => w.db.users.Has session.admin.id ∧ w.db.users.Has c.user_id
  | committed session => w.db.users.Has session.admin.id ∧ w.db.users.Has c.user_id
  | refreshed session updated_user =>
    w.db.users.Has session.admin.id ∧ c.flag.of updated_user.val = c.value
  | _ => True

structure Office.Sound (w₀ : World) (s : Office) : Prop where
  known : ∀ p ∈ s.requests, p.phase.Known p.change s.world
  log : ∃ new, s.world.db.admin_audit_logs.rows = w₀.db.admin_audit_logs.rows ++ new ∧
    ∀ flag u, InOrder flag (w₀.flag flag u) (s.world.flag flag u)
      (entries_of flag.action u new) (s.changes_of flag u) (unlogged flag u s.requests)

section

variable {settings : Settings} {w₀ w w' : World} {s : Office} {c : FlagChange} {phase : Phase}
  {session : Loaded} {i : Nat} {l₁ l₂ : List Patching}

theorem Phase.Known.mono (h : phase.Known c w)
    (hhas : ∀ i, w.db.users.Has i → w'.db.users.Has i) : phase.Known c w' := by
  cases phase with
  | admitted admin => exact hhas _ h
  | loaded session => exact ⟨hhas _ h.1, hhas _ h.2⟩
  | found session => exact ⟨hhas _ h.1, hhas _ h.2⟩
  | committed session => exact ⟨hhas _ h.1, hhas _ h.2⟩
  | refreshed session updated_user => exact ⟨hhas _ h.1, h.2⟩
  | _ => trivial

theorem World.flag_patch (hhas : w.db.users.Has c.user_id) (f : Flag) (u : UUID) :
    (w.update_user c.user_id (c.flag.patch c.value)).flag f u =
      if c.flag = f ∧ c.user_id = u then c.value else w.flag f u := by
  rw [World.flag_update]
  by_cases hu : c.user_id = u
  · obtain ⟨r, hr⟩ := hhas.byId
    subst hu
    rw [World.flag_of hr, hr]
    simp only [Option.map_some, Option.getD_some, if_true, and_true, Flag.of_patch, eq_comm]
  · have hne : ¬ u = c.user_id := fun h => hu h.symm
    rw [if_neg fun h => hu h.2]
    simp only [hne, if_false]
    rfl

theorem InOrder.stored {flag : Flag} {first stored : Bool} {entries changes : List AdminAuditLog}
    {requests : List Unlogged} {p : Unlogged}
    (h : InOrder flag first stored entries changes requests) (hp : p ∈ requests) :
    p.change.value = stored := by
  cases h with
  | settled trail logged quiet => exact (quiet p hp).2
  | owed q trail logged alone value owes =>
    rw [alone, List.mem_singleton] at hp
    rw [hp, value]

theorem mem_unlogged {p : Patching} {requests : List Patching} (hp : p ∈ requests)
    (h : p.unlogged = some session) :
    ⟨p.change, session⟩ ∈ unlogged p.change.flag p.change.user_id requests := by
  refine List.mem_filter.mpr ⟨List.mem_filterMap.mpr ⟨p, hp, ?_⟩, by simp⟩
  rw [h]
  rfl

/-- One request is replaced, in a state that has the accounts of the one before. -/
theorem Office.Sound.known_after (hs : s.Sound w₀) {phase' : Phase}
    (hreq : s.requests = l₁ ++ ⟨c, phase⟩ :: l₂)
    (hhas : ∀ i, s.world.db.users.Has i → w'.db.users.Has i) (hknown : phase'.Known c w') :
    ∀ q ∈ l₁ ++ ⟨c, phase'⟩ :: l₂, q.phase.Known q.change w' := by
  intro q hq
  rcases List.mem_append.mp hq with hq | hq
  · exact (hs.known q (by rw [hreq]; exact List.mem_append_left _ hq)).mono hhas
  · rcases List.mem_cons.mp hq with rfl | hq
    · exact hknown
    · refine (hs.known q ?_).mono hhas
      rw [hreq]
      exact List.mem_append_right _ (List.mem_cons_of_mem _ hq)

/-- An act that commits nothing. -/
theorem Office.Sound.keeps (hs : s.Sound w₀) {phase' : Phase}
    (hreq : s.requests = l₁ ++ ⟨c, phase⟩ :: l₂) (hknown : phase'.Known c s.world)
    (hun : (Patching.mk c phase').unlogged = (Patching.mk c phase).unlogged) :
    Office.Sound w₀ { s with requests := l₁ ++ ⟨c, phase'⟩ :: l₂ } := by
  obtain ⟨new, hrows, horder⟩ := hs.log
  refine ⟨hs.known_after hreq (fun _ h => h) hknown, new, hrows, fun flag u => ?_⟩
  have h := horder flag u
  rw [hreq] at h
  change InOrder flag _ _ _ _ (unlogged flag u (l₁ ++ ⟨c, phase'⟩ :: l₂))
  rw [unlogged_same hun rfl]
  exact h

theorem Office.Sound.commit (hs : s.Sound w₀)
    (hreq : s.requests = l₁ ++ ⟨c, .found session⟩ :: l₂)
    (hserial : s.Serial ⟨c, .found session⟩) :
    Office.Sound w₀
      { world := (Phase.next settings c s.world (.found session)).2
        requests := l₁ ++ ⟨c, (Phase.next settings c s.world (.found session)).1⟩ :: l₂
        changes := s.changes ++ Patching.changes ⟨c, .found session⟩ s.world
          (Phase.next settings c s.world (.found session)).2 } := by
  obtain ⟨hstored, hothers⟩ := hserial session rfl
  have hp : (⟨c, .found session⟩ : Patching) ∈ s.requests := by
    rw [hreq]
    exact List.mem_append_right _ List.mem_cons_self
  have hknown : (Phase.found session).Known c s.world := hs.known _ hp
  obtain ⟨new, hrows, horder⟩ := hs.log
  have hnone : ∀ flag u, unlogged flag u s.requests =
      unlogged flag u l₁ ++ unlogged flag u l₂ := fun flag u => by
    rw [hreq, unlogged_append, unlogged_cons_of_none rfl]
  have hsome : ∀ flag u, unlogged flag u (l₁ ++ ⟨c, .committed session⟩ :: l₂) =
      unlogged flag u l₁ ++ ((if c.flag = flag ∧ c.user_id = u then [⟨c, session⟩] else []) ++
        unlogged flag u l₂) := fun flag u => by
    rw [unlogged_append, unlogged_cons_of_some rfl]
  by_cases hsame : c.flag.of session.user.val = c.value
  · have hnext : Phase.next settings c s.world (.found session) = (.committed session, s.world) :=
      if_pos hsame
    have hchanges : Patching.changes ⟨c, .found session⟩ s.world s.world = [] := if_pos rfl
    rw [hnext, hchanges, List.append_nil]
    refine ⟨hs.known_after hreq (fun _ h => h) hknown, new, hrows, fun flag u => ?_⟩
    have h := horder flag u
    rw [hnone] at h
    change InOrder flag _ _ _ _ (unlogged flag u (l₁ ++ ⟨c, .committed session⟩ :: l₂))
    rw [hsome]
    by_cases hmine : c.flag = flag ∧ c.user_id = u
    · obtain ⟨rfl, rfl⟩ := hmine
      rw [if_pos ⟨rfl, rfl⟩]
      refine h.commit_same hstored.symm hsame.symm fun q hq => (hothers q ?_).1
      rw [hnone]
      exact hq
    · rw [if_neg hmine]
      exact h
  · have hnext : Phase.next settings c s.world (.found session) =
        (.committed session, s.world.update_user c.user_id (c.flag.patch c.value)) := if_neg hsame
    have hflag := World.flag_patch hknown.2
    have hnew : (s.world.update_user c.user_id (c.flag.patch c.value)).flag c.flag c.user_id =
        c.value := by rw [hflag, if_pos ⟨rfl, rfl⟩]
    have hchanges : Patching.changes ⟨c, .found session⟩ s.world
        (s.world.update_user c.user_id (c.flag.patch c.value)) =
        [Unlogged.entry ⟨c, session⟩] := by
      unfold Patching.changes
      dsimp only
      rw [hnew, hstored, if_neg fun h => hsame h.symm]
      rfl
    rw [hnext, hchanges]
    have hhas : ∀ i, s.world.db.users.Has i →
        (s.world.update_user c.user_id (c.flag.patch c.value)).db.users.Has i :=
      fun i hi => hi.update c.user_id _ (c.flag.patch c.value).keys
    refine ⟨hs.known_after hreq hhas ⟨hhas _ hknown.1, hhas _ hknown.2⟩, new, hrows,
      fun flag u => ?_⟩
    have h := horder flag u
    change InOrder flag _ ((s.world.update_user c.user_id (c.flag.patch c.value)).flag flag u) _
      ((s.changes ++ [Unlogged.entry ⟨c, session⟩]).filter _)
      (unlogged flag u (l₁ ++ ⟨c, .committed session⟩ :: l₂))
    rw [hflag, hsome, List.filter_append]
    by_cases hmine : c.flag = flag ∧ c.user_id = u
    · obtain ⟨rfl, rfl⟩ := hmine
      -- the request is alone, since it changes the flag
      have halone : unlogged c.flag c.user_id s.requests = [] :=
        List.eq_nil_iff_forall_not_mem.mpr fun q hq => hsame (hothers q hq).2
      obtain ⟨h₁, h₂⟩ := List.append_eq_nil_iff.mp ((hnone _ _).symm.trans halone)
      rw [halone] at h
      rw [if_pos ⟨rfl, rfl⟩, if_pos ⟨rfl, rfl⟩, h₁, h₂, List.filter_cons_of_pos (by
        simp [Unlogged.entry, AdminAuditLog.of_change])]
      refine h.commit_change (p := ⟨c, session⟩) hstored.symm ?_
      simpa [Unlogged.owes, Unlogged.before] using hsame
    · have hnot : ¬ (c.flag.action = flag.action ∧ c.user_id = u) := by
        rw [Flag.action_inj]
        exact hmine
      rw [hnone] at h
      have hskip : [Unlogged.entry ⟨c, session⟩].filter
          (fun e => decide (e.action = flag.action ∧ e.target_id = u)) = [] := by
        rw [List.filter_eq_nil_iff]
        intro e he
        rw [List.mem_singleton.mp he]
        exact fun h => hnot (of_decide_eq_true h)
      rw [if_neg hmine, if_neg hmine, hskip, List.append_nil]
      exact h

theorem Office.Sound.log_entry (hs : s.Sound w₀) {updated_user : Row User}
    (hreq : s.requests = l₁ ++ ⟨c, .refreshed session updated_user⟩ :: l₂) :
    Office.Sound w₀
      { world := (Phase.next settings c s.world (.refreshed session updated_user)).2
        requests := l₁ ++
          ⟨c, (Phase.next settings c s.world (.refreshed session updated_user)).1⟩ :: l₂
        changes := s.changes } := by
  have hp : (⟨c, .refreshed session updated_user⟩ : Patching) ∈ s.requests := by
    rw [hreq]
    exact List.mem_append_right _ List.mem_cons_self
  obtain ⟨hadmin, hupdated⟩ : (Phase.refreshed session updated_user).Known c s.world :=
    hs.known _ hp
  obtain ⟨new, hrows, horder⟩ := hs.log
  obtain ⟨db', hinsert, hnew, husers⟩ :=
    Db.insert_audit_of_has (Unlogged.entry ⟨c, session⟩) hadmin
  have hnext : Phase.next settings c s.world (.refreshed session updated_user) =
      (.logged, { s.world with db := db' }) := by
    unfold Unlogged.entry Unlogged.before at hinsert
    unfold Phase.next
    dsimp only at hinsert ⊢
    rw [hupdated, hinsert]
  have hflag : ∀ flag u, World.flag { s.world with db := db' } flag u = s.world.flag flag u := by
    intro flag u
    unfold World.flag
    dsimp only
    rw [husers]
  rw [hnext]
  refine ⟨hs.known_after hreq (fun i hi => by rwa [husers]) trivial,
    new ++ [⟨s.world.db.admin_audit_logs.next, Unlogged.entry ⟨c, session⟩⟩], ?_, fun flag u => ?_⟩
  · rw [← List.append_assoc, ← hrows]
    exact hnew
  · have h := horder flag u
    rw [hreq, unlogged_append, unlogged_cons_of_some rfl] at h
    change InOrder flag _ (World.flag { s.world with db := db' } flag u) _ _
      (unlogged flag u (l₁ ++ ⟨c, .logged⟩ :: l₂))
    rw [hflag, unlogged_append, unlogged_cons_of_none rfl]
    unfold Unlogged.entry
    rw [entries_of_snoc]
    by_cases hmine : c.flag = flag ∧ c.user_id = u
    · rw [if_pos hmine] at h
      rw [if_pos ⟨hmine.2.symm, hmine.1.symm⟩]
      exact h.log (p := ⟨c, session⟩) hmine.1
    · rw [if_neg hmine] at h
      rw [if_neg fun hm => hmine ⟨hm.2.symm, hm.1.symm⟩, List.append_nil]
      exact h

theorem Office.Sound.act (hs : s.Sound w₀) (hC : Orderly s (.act i)) :
    ((office settings).next s (.act i)).Sound w₀ := by
  rcases hi : s.requests[i]? with _ | ⟨c, phase⟩
  · rw [Office.act_none hi]
    exact hs
  have hserial : s.Serial ⟨c, phase⟩ := hC _ hi
  obtain ⟨l₁, l₂, hreq, hset⟩ := set_split hi
  have hp : (⟨c, phase⟩ : Patching) ∈ s.requests := List.mem_of_getElem? hi
  have hknown : phase.Known c s.world := hs.known _ hp
  -- an act that is no commit leaves the state, and goes on to a phase that is known
  have hread : ∀ phase', phase.next settings c s.world = (phase', s.world) →
      Patching.changes ⟨c, phase⟩ s.world s.world = [] → phase'.Known c s.world →
      (Patching.mk c phase').unlogged = (Patching.mk c phase).unlogged →
      ((office settings).next s (.act i)).Sound w₀ := by
    intro phase' hnext hnone hknown' hun
    rw [Office.act_eq hi, hset]
    dsimp only
    rw [hnext, hnone, List.append_nil]
    exact hs.keeps hreq hknown' hun
  cases phase with
  | received =>
    rcases hget : (get_admin_user settings c.authorization).run s.world with ⟨e | admin, w'⟩
    · exact hread .stopped (by simp only [Phase.next, hget]) rfl trivial rfl
    · have hadmin : s.world.db.users.Has admin.id := by
        obtain ⟨rfl, hbearer⟩ := get_admin_user.ok hget
        exact Table.has_of_mem (Table.byId_eq_some.mp hbearer.account).1
      exact hread (.admitted admin) (by simp only [Phase.next, hget]) rfl hadmin rfl
  | admitted admin =>
    rcases hu : s.world.db.users.byId c.user_id with _ | user
    · exact hread .stopped (by simp only [Phase.next, hu]) rfl trivial rfl
    · have hhas : s.world.db.users.Has c.user_id := ⟨user, Table.byId_eq_some.mp hu⟩
      exact hread (.loaded ⟨admin, if user.id = admin.id then admin else user⟩)
        (by simp only [Phase.next, hu]) rfl ⟨hknown, hhas⟩ rfl
  | loaded session =>
    obtain ⟨user, hu⟩ := hknown.2.byId
    exact hread (.found session) (by simp only [Phase.next, hu]) rfl hknown rfl
  | found session =>
    rw [Office.act_eq hi, hset]
    exact hs.commit hreq hserial
  | committed session =>
    obtain ⟨user, hu⟩ := hknown.2.byId
    obtain ⟨new, _, horder⟩ := hs.log
    have hvalue : c.value = s.world.flag c.flag c.user_id :=
      (horder c.flag c.user_id).stored (mem_unlogged hp rfl)
    rw [World.flag_of hu] at hvalue
    exact hread (.refreshed session user) (by simp only [Phase.next, hu]) rfl
      ⟨hknown.1, hvalue.symm⟩ rfl
  | refreshed session updated_user =>
    have hnone : Patching.changes ⟨c, .refreshed session updated_user⟩ s.world
        (Phase.next settings c s.world (.refreshed session updated_user)).2 = [] := rfl
    rw [Office.act_eq hi, hset, hnone, List.append_nil]
    exact hs.log_entry hreq
  | logged => exact hread .logged rfl rfl trivial rfl
  | stopped => exact hread .stopped rfl rfl trivial rfl

/-- The end of one request. -/
theorem Office.Sound.stop (hs : s.Sound w₀) (hC : Orderly s (.stop i)) :
    ((office settings).next s (.stop i)).Sound w₀ := by
  change Office.Sound w₀ (match s.requests[i]? with | none => s | some p => _)
  rcases hi : s.requests[i]? with _ | ⟨c, phase⟩
  · exact hs
  have hsettled : (Patching.mk c phase).Settled := hC _ hi
  obtain ⟨l₁, l₂, hreq, hset⟩ := set_split hi
  dsimp only
  rw [hset]
  obtain ⟨new, hrows, horder⟩ := hs.log
  refine ⟨hs.known_after hreq (fun _ h => h) trivial, new, hrows, fun flag u => ?_⟩
  have h := horder flag u
  change InOrder flag _ _ _ _ (unlogged flag u (l₁ ++ ⟨c, .stopped⟩ :: l₂))
  rcases hun : (Patching.mk c phase).unlogged with _ | session
  · have hsame : unlogged flag u (l₁ ++ ⟨c, .stopped⟩ :: l₂) =
        unlogged flag u (l₁ ++ ⟨c, phase⟩ :: l₂) := unlogged_same (by rw [hun]; rfl) rfl
    rw [hsame, ← hreq]
    exact h
  · have howes : (Unlogged.mk c session).owes = false := hsettled session hun
    have hsplit : unlogged flag u s.requests = unlogged flag u l₁ ++
        ((if c.flag = flag ∧ c.user_id = u then [⟨c, session⟩] else []) ++ unlogged flag u l₂) := by
      rw [hreq, unlogged_append, unlogged_cons_of_some hun]
    rw [unlogged_append, unlogged_cons_of_none rfl]
    by_cases hmine : c.flag = flag ∧ c.user_id = u
    · rw [if_pos hmine] at hsplit
      refine h.sub (fun q hq => ?_) fun q hone hq => ?_
      · rw [hsplit]
        exact List.mem_append.mpr ((List.mem_append.mp hq).imp_right (List.mem_cons_of_mem _))
      · have hmem : ⟨c, session⟩ ∈ unlogged flag u s.requests := by
          rw [hsplit]
          exact List.mem_append_right _ List.mem_cons_self
        rw [hone, List.mem_singleton] at hmem
        rw [← hmem, howes] at hq
        cases hq
    · rw [if_neg hmine, List.nil_append] at hsplit
      rw [← hsplit]
      exact h

theorem Office.Sound.crash (hs : s.Sound w₀) (hC : Orderly s .crash) :
    ((office settings).next s .crash).Sound w₀ := by
  obtain ⟨new, hrows, horder⟩ := hs.log
  refine ⟨fun p hp => ?_, new, hrows, fun flag u => ?_⟩
  · obtain ⟨q, _, rfl⟩ := List.mem_map.mp hp
    trivial
  · have hnone : unlogged flag u (s.requests.map Patching.stop) = [] := by
      unfold unlogged
      rw [List.filterMap_eq_nil_iff.mpr, List.filter_nil]
      intro p hp
      obtain ⟨q, _, rfl⟩ := List.mem_map.mp hp
      rfl
    change InOrder flag _ _ _ _ (unlogged flag u (s.requests.map Patching.stop))
    rw [hnone]
    refine (horder flag u).sub (fun q hq => nomatch hq) fun q hone hq => ?_
    have hmem : q ∈ unlogged flag u s.requests := by
      rw [hone]
      exact List.mem_singleton_self q
    obtain ⟨p, hp, hpq⟩ := List.mem_filterMap.mp (List.mem_of_mem_filter hmem)
    obtain ⟨session, hun, rfl⟩ := Option.map_eq_some_iff.mp hpq
    rw [hC p hp session hun] at hq
    cases hq

/-- A new request, and time. -/
theorem Office.Sound.receive (hs : s.Sound w₀) (c : FlagChange) :
    ((office settings).next s (.receive c)).Sound w₀ := by
  obtain ⟨new, hrows, horder⟩ := hs.log
  refine ⟨fun p hp => ?_, new, hrows, fun flag u => ?_⟩
  · rcases List.mem_append.mp hp with hp | hp
    · exact hs.known p hp
    · rw [List.mem_singleton.mp hp]
      trivial
  · have hsame : unlogged flag u (s.requests ++ [⟨c, .received⟩]) = unlogged flag u s.requests := by
      rw [unlogged_append, unlogged_cons_of_none rfl]
      exact List.append_nil _
    change InOrder flag _ _ _ _ (unlogged flag u (s.requests ++ [⟨c, .received⟩]))
    rw [hsame]
    exact horder flag u

theorem Office.Sound.next {l : OfficeLabel} (hs : s.Sound w₀) (hC : Orderly s l) :
    ((office settings).next s l).Sound w₀ := by
  cases l with
  | receive c => exact hs.receive c
  | act i => exact hs.act hC
  | stop i => exact hs.stop hC
  | crash => exact hs.crash hC
  | tick d => exact ⟨fun p hp => (hs.known p hp).mono fun _ h => h, hs.log⟩

/-- Every run of the requests, in any order and cut anywhere, whose commits are
serial and that leaves no change behind: the audit log accounts for each flag of
each account, in every state. -/
theorem changes_are_accounted_for {ls : List OfficeLabel}
    (hrun : (office settings).Run Orderly ⟨w₀, [], []⟩ ls s) : s.Accounts w₀ := by
  have hstart : Office.Sound w₀ ⟨w₀, [], []⟩ := by
    refine ⟨fun p hp => (nomatch hp), [], (List.append_nil _).symm, fun flag u => ?_⟩
    exact .settled rfl rfl fun p hp => nomatch hp
  have hend : s.Sound w₀ := hrun.invariant hstart fun s l hs _ hC => hs.next hC
  obtain ⟨new, hrows, horder⟩ := hend.log
  exact ⟨new, hrows, fun flag u => (horder flag u).accounts⟩

end

namespace Sample

/-- A role for eva, or none. -/
def appoint (is_admin : Bool) : FlagChange := ⟨access_of 1, .is_admin, 0, is_admin⟩

/-- The admin appoints eva and takes the role back, side by side up to where the
second request reads her account, and the process dies before it commits. -/
def in_turn : List OfficeLabel :=
  [.receive (appoint true), .receive (appoint false), .act 0, .act 0, .act 1, .act 0, .act 0,
    .act 0, .act 0, .act 1, .act 1, .crash]

/-- The process dies between the two commits. -/
def cut_short : List OfficeLabel :=
  [.receive (appoint true), .act 0, .act 0, .act 0, .act 0, .crash]

/-- Two requests appoint eva; both have read her account before either commits. -/
def together : List OfficeLabel :=
  [.receive (appoint true), .receive (appoint true)] ++
    (List.replicate 6 [OfficeLabel.act 0, .act 1]).flatten

def desk : Office := ⟨staffed.world, [], []⟩

end Sample

open Sample in
theorem changes_are_accounted_for_sample :
    Office.Accounts desk.world ((office settings).exec desk in_turn) :=
  changes_are_accounted_for (.of_path (by decide))

open Sample in
/-- A change without an entry, and an entry more than there are changes. -/
theorem changes_without_their_entries :
    ¬ Office.Accounts desk.world ((office settings).exec desk cut_short) ∧
      ¬ Office.Accounts desk.world ((office settings).exec desk together) := by
  have hstart : desk.world.db.admin_audit_logs.rows = [] := rfl
  constructor
  · rintro ⟨new, hrows, h⟩
    rw [hstart, List.nil_append] at hrows
    have hwrong := (h .is_admin 0).1
    rw [← hrows] at hwrong
    exact absurd hwrong (by decide)
  · rintro ⟨new, hrows, h⟩
    rw [hstart, List.nil_append] at hrows
    have hwrong := (h .is_admin 0).1
    rw [← hrows] at hwrong
    exact absurd hwrong (by decide)

end saas
