-- The audit log over runs of all requests: what an admin's request writes, and
-- how the entries replay the roles.
import SaasBackend.HttpApi

open relational async

namespace saas

/-! ## What an admin's request does -/

/-- The action that the entries of a flag are logged under. -/
def Flag.action : Flag → String
  | is_admin => "user.update_role"
  | is_verified => "user.verify"
  | is_active => "user.update_status"

namespace AdminAuditLog

/-- The entry of a change of one flag. -/
def of_change (admin_id user_id : UUID) (flag : Flag) (before after : Bool) : AdminAuditLog where
  admin_id := admin_id
  target_type := "user"
  target_id := user_id
  action := flag.action
  before := some (flag.key, before)
  after := some (flag.key, after)

/-- The value of a flag in the `before` of an entry. -/
def flag_before (flag : Flag) (entry : AdminAuditLog) : Option Bool :=
  (entry.before.filter fun p => p.1 == flag.key).map Prod.snd

def flag_after (flag : Flag) (entry : AdminAuditLog) : Option Bool :=
  (entry.after.filter fun p => p.1 == flag.key).map Prod.snd

end AdminAuditLog

/-- The request has set the flag of a user and logged one entry, with the values
just before and just after. -/
structure Logged (c : FlagChange) (admin_id : UUID) (r : Row User) (w w' : World) : Prop where
  user : w.db.users.byId c.user_id = some r
  users : w'.db.users = (w.update_user c.user_id (c.flag.patch c.value)).db.users
  log : w'.db.admin_audit_logs.rows = w.db.admin_audit_logs.rows ++
    [w.db.admin_audit_logs.newRow
      (.of_change admin_id c.user_id c.flag (c.flag.of r.val) c.value)]

section

variable {w w' : World} {c : FlagChange} {admin_id : UUID} {r : Row User}

/-- The row of the user after the request. -/
theorem Logged.row (h : Logged c admin_id r w w') :
    w'.db.users.byId c.user_id = some ⟨r.id, (c.flag.patch c.value).apply r.val⟩ := by
  obtain ⟨hm, hid⟩ := Table.byId_eq_some.mp h.user
  rw [h.users, ← hid]
  exact Table.byId_update_self (c.flag.patch c.value).keys hm

theorem Logged.other (h : Logged c admin_id r w w') {u : UUID} (hu : u ≠ c.user_id) :
    w'.db.users.byId u = w.db.users.byId u := by
  have hb : (w.update_user c.user_id (c.flag.patch c.value)).db.users.byId u =
      (w.db.users.byId u).map (Table.updateRow c.user_id (c.flag.patch c.value).apply) :=
    Table.byId_update (c.flag.patch c.value).keys u
  rw [h.users, hb]
  rcases hr : w.db.users.byId u with _ | r'
  · rfl
  · have hne : r'.id ≠ c.user_id := by
      rw [(Table.byId_eq_some.mp hr).2]
      exact hu
    rw [Option.map_some, Table.updateRow_of_ne hne]

/-- An entry of an admin who is there is always stored. -/
theorem Db.insert_audit_of_has {db : Db} (entry : AdminAuditLog)
    (hadmin : db.users.Has entry.admin_id) :
    ∃ db', db.insert_audit entry = .ok (db.admin_audit_logs.newRow entry, db') ∧
      db'.admin_audit_logs.rows =
        db.admin_audit_logs.rows ++ [db.admin_audit_logs.newRow entry] ∧
      db'.users = db.users := by
  have hfits : db.admin_audit_logs.Fits entry := ⟨List.nodup_nil, fun k => k.elim⟩
  unfold Db.insert_audit
  rw [dif_pos ⟨hfits, hadmin⟩]
  exact ⟨_, rfl, rfl, rfl⟩

theorem AdminAuditLogRepository.log.spec {w : World} {entry : AdminAuditLog}
    {row : Row AdminAuditLog} {db : Db} (h : w.db.insert_audit entry = .ok (row, db)) :
    (log entry).run w = (.ok row, { w with db := db }) := by
  unfold log
  rw [Proc.run_attempt, h]
  rfl

namespace UsersService

theorem update_flag.unknown {flag : Flag} {action : String} {user_id : UUID} {b : Bool}
    (h : w.db.users.byId user_id = none) :
    (update_flag flag action admin_id user_id b).run w = (.error .typeError, w) := by
  have hdetail := UsersService.get_user_by_id.spec user_id w
  unfold UsersService.get_user_by_id at hdetail
  rw [h] at hdetail
  unfold update_flag
  rw [Proc.run_bind_ok hdetail]
  rfl

theorem update_flag.spec {row : Row AdminAuditLog} {db : Db}
    (hr : w.db.users.byId c.user_id = some r)
    (hinsert : (w.update_user c.user_id (c.flag.patch c.value)).db.insert_audit
      (.of_change admin_id c.user_id c.flag (c.flag.of r.val) c.value) = .ok (row, db)) :
    (update_flag c.flag c.flag.action admin_id c.user_id c.value).run w =
      (.ok ⟨r.id, (c.flag.patch c.value).apply r.val⟩,
        { w.update_user c.user_id (c.flag.patch c.value) with db := db }) := by
  obtain ⟨hm, hid⟩ := Table.byId_eq_some.mp hr
  have hdetail := UsersService.get_user_by_id.spec c.user_id w
  unfold UsersService.get_user_by_id at hdetail
  rw [hr] at hdetail
  have hupdate : (AdminUserRepository.update_user c.user_id (c.flag.patch c.value)).run w =
      (.ok (some ⟨r.id, (c.flag.patch c.value).apply r.val⟩),
        w.update_user c.user_id (c.flag.patch c.value)) := by
    unfold AdminUserRepository.update_user UserRepository.get_by_id
    rw [Proc.run_bind, Proc.run_query, hr]
    change (UserRepository.update r _ >>= fun user => pure (some user)).run w = _
    rw [Proc.run_bind_ok (UserRepository.update.spec _ hm), Proc.run_pure, hid]
  have hafter : c.flag.of ((c.flag.patch c.value).apply r.val) = c.value := by
    rw [Flag.of_patch, if_pos rfl]
  unfold update_flag
  rw [Proc.run_bind_ok hdetail]
  dsimp only [Option.map_some]
  rw [Proc.run_bind_ok hupdate]
  dsimp only
  rw [hafter]
  exact Proc.run_bind_ok (AdminAuditLogRepository.log.spec hinsert) _

theorem update_flag.logs (hr : w.db.users.byId c.user_id = some r)
    (hadmin : w.db.users.Has admin_id) :
    ∃ w', (update_flag c.flag c.flag.action admin_id c.user_id c.value).run w =
      (.ok ⟨r.id, (c.flag.patch c.value).apply r.val⟩, w') ∧ Logged c admin_id r w w' := by
  have hhas : (w.update_user c.user_id (c.flag.patch c.value)).db.users.Has admin_id :=
    hadmin.update c.user_id _ (c.flag.patch c.value).keys
  obtain ⟨db, hinsert, hrows, husers⟩ := Db.insert_audit_of_has
    (.of_change admin_id c.user_id c.flag (c.flag.of r.val) c.value) hhas
  exact ⟨_, update_flag.spec hr hinsert, hr, husers, hrows⟩

end UsersService

end

/-! ## Requests with a change -/

/-- The program fails and changes nothing, or sets the flag and logs it. -/
def Changes {α : Type} (settings : Settings) (c : FlagChange) (p : M α) (w : World) : Prop :=
  (∃ e, p.run w = (.error e, w)) ∨ ∃ a admin r w', p.run w = (.ok a, w') ∧
    AdminBearer settings w c.authorization admin ∧ Logged c admin.id r w w'

section

variable {α β : Type} {settings : Settings} {c : FlagChange} {w : World}

theorem Changes.map {p : M α} (h : Changes settings c p w) (f : α → β) :
    Changes settings c (p >>= fun a => pure (f a)) w := by
  rcases h with ⟨e, he⟩ | ⟨a, admin, r, w', hrun, hadmin, hlog⟩
  · exact .inl ⟨e, Proc.run_bind_error he _⟩
  · exact .inr ⟨f a, admin, r, w', Proc.run_bind_ok hrun _, hadmin, hlog⟩

/-- What the three requests share. -/
theorem update_flag_changes (settings : Settings) (c : FlagChange) (w : World)
    (f : Row User → α) :
    Changes settings c (get_admin_user settings c.authorization >>= fun admin =>
      UsersService.update_flag c.flag c.flag.action admin.id c.user_id c.value >>= fun user =>
        pure (f user)) w := by
  rcases hget : (get_admin_user settings c.authorization).run w with ⟨e | admin, w1⟩
  · have hsame : w1 = w := by
      rw [get_admin_user.spec, Prod.mk.injEq] at hget
      exact hget.2.symm
    rw [hsame] at hget
    exact .inl ⟨e, Proc.run_bind_error hget _⟩
  · obtain ⟨rfl, hadmin⟩ := get_admin_user.ok hget
    rcases hr : w1.db.users.byId c.user_id with _ | r
    · refine .inl ⟨.typeError, ?_⟩
      rw [Proc.run_bind_ok hget]
      exact Proc.run_bind_error (UsersService.update_flag.unknown hr) _
    · have hhas : w1.db.users.Has admin.id :=
        Table.has_of_mem (Table.byId_eq_some.mp hadmin.account).1
      obtain ⟨w', hrun, hlog⟩ := UsersService.update_flag.logs hr hhas
      refine .inr ⟨f ⟨r.id, (c.flag.patch c.value).apply r.val⟩, admin, r, w', ?_, hadmin, hlog⟩
      rw [Proc.run_bind_ok hget, Proc.run_bind_ok hrun]
      rfl

theorem AccountRequest.changes {settings : AccountSettings} {pwd : PwdContext}
    {user_repo : UserRepo} {request : AccountRequest} (h : request.change = some c) (w : World) :
    Changes settings.toSettings c (request.prog settings pwd user_repo) w := by
  cases request with
  | auth request =>
    cases request with
    | update_user_status authorization user_id is_active =>
      cases h
      exact (update_flag_changes settings.toSettings _ w fun _ => none).map _
    | _ => cases h
  | update_user_role authorization user_id is_admin =>
    cases h
    exact update_flag_changes settings.toSettings _ w _
  | verify_user authorization user_id =>
    cases h
    exact update_flag_changes settings.toSettings _ w _
  | _ => cases h

theorem AdminRequest.changes {engine : SqlEngine} {client : AiClient} {system_message : String}
    {authorization : Authorization} {request : AdminRequest}
    (h : request.change authorization = some c) (w : World) :
    Changes settings c (request.respond settings engine client system_message authorization) w := by
  cases request with
  | update_user_status user_id is_active =>
    cases user_id <;> cases is_active <;> cases h
    exact update_flag_changes settings _ w _
  | update_user_role user_id is_admin =>
    cases user_id <;> cases is_admin <;> cases h
    exact update_flag_changes settings _ w _
  | verify_user user_id =>
    cases user_id <;> cases h
    exact update_flag_changes settings _ w _
  | _ => cases h

theorem HttpRequest.changes {app : App} {request : HttpRequest} (h : request.change = some c)
    (w : World) : Changes app.settings.toSettings c (request.prog app) w := by
  cases request with
  | account request => exact (AccountRequest.changes h w).map _
  | back_office authorization request => exact (AdminRequest.changes h w).map _
  | _ => cases h

end

/-! ## The entries of a user -/

/-- The entries of one action on a user, among these rows. -/
def entries_of (action : String) (u : UUID) (rows : List (Row AdminAuditLog)) :
    List AdminAuditLog :=
  (rows.map Row.val).filter fun e =>
    decide (e.target_type = "user" ∧ e.target_id = u ∧ e.action = action)

/-- The entries of one action on a user, oldest first. -/
def World.entries (w : World) (action : String) (u : UUID) : List AdminAuditLog :=
  entries_of action u w.db.admin_audit_logs.rows

theorem Flag.action_inj {f g : Flag} : f.action = g.action ↔ f = g := by
  cases f <;> cases g <;> decide

section

variable {w w' : World} {c : FlagChange} {admin_id u : UUID} {r : Row User} {flag : Flag}

/-- A new entry of a change is among those of its own flag and user only. -/
theorem entries_of_snoc (flag : Flag) (u : UUID) (rows : List (Row AdminAuditLog)) (i : Nat)
    (admin_id v : UUID) (g : Flag) (b b' : Bool) :
    entries_of flag.action u (rows ++ [⟨i, .of_change admin_id v g b b'⟩]) =
      entries_of flag.action u rows ++
        if u = v ∧ flag = g then [.of_change admin_id v g b b'] else [] := by
  unfold entries_of
  rw [List.map_append, List.filter_append]
  by_cases hmine : u = v ∧ flag = g
  · obtain ⟨rfl, rfl⟩ := hmine
    simp [AdminAuditLog.of_change]
  · have hother : ¬ (v = u ∧ g.action = flag.action) := by
      rw [Flag.action_inj]
      rintro ⟨rfl, rfl⟩
      exact hmine ⟨rfl, rfl⟩
    rw [if_neg hmine]
    simp [AdminAuditLog.of_change, hother]

theorem Logged.entries (h : Logged c admin_id r w w') :
    w'.entries c.flag.action c.user_id = w.entries c.flag.action c.user_id ++
      [.of_change admin_id c.user_id c.flag (c.flag.of r.val) c.value] := by
  have hsnoc := entries_of_snoc c.flag c.user_id w.db.admin_audit_logs.rows
    w.db.admin_audit_logs.next admin_id c.user_id c.flag (c.flag.of r.val) c.value
  rw [if_pos ⟨rfl, rfl⟩] at hsnoc
  unfold World.entries
  rw [h.log]
  exact hsnoc

theorem Logged.entries_of_ne (h : Logged c admin_id r w w')
    (hne : ¬ (u = c.user_id ∧ flag = c.flag)) :
    w'.entries flag.action u = w.entries flag.action u := by
  have hsnoc := entries_of_snoc flag u w.db.admin_audit_logs.rows
    w.db.admin_audit_logs.next admin_id c.user_id c.flag (c.flag.of r.val) c.value
  rw [if_neg hne, List.append_nil] at hsnoc
  unfold World.entries
  rw [h.log]
  exact hsnoc

theorem AdminAuditLog.flag_before_of_change (b b' : Bool) :
    flag_before flag (.of_change admin_id u flag b b') = some b := by
  simp [flag_before, of_change]

theorem AdminAuditLog.flag_after_of_change (b b' : Bool) :
    flag_after flag (.of_change admin_id u flag b b') = some b' := by
  simp [flag_after, of_change]

theorem World.is_admin_of {r : Row User} (h : w.db.users.byId u = some r) :
    w.is_admin u = r.val.is_admin := by
  unfold World.is_admin
  rw [h]
  rfl

theorem Logged.is_admin_of_ne (h : Logged c admin_id r w w')
    (hne : ¬ (u = c.user_id ∧ Flag.is_admin = c.flag)) : w'.is_admin u = w.is_admin u := by
  by_cases hu : u = c.user_id
  · have hflag : Flag.is_admin ≠ c.flag := fun hf => hne ⟨hu, hf⟩
    have hkeeps : ((c.flag.patch c.value).apply r.val).is_admin = r.val.is_admin := by
      have hof := Flag.of_patch c.flag .is_admin c.value r.val
      rw [if_neg hflag] at hof
      exact hof
    rw [hu, World.is_admin_of h.row, World.is_admin_of h.user]
    exact hkeeps
  · unfold World.is_admin
    rw [h.other hu]

/-- The role entries of a user lead from a value to the present one. -/
def World.Replays (w : World) (first : Bool) (u : UUID) : Prop :=
  Trail (AdminAuditLog.flag_before .is_admin) (AdminAuditLog.flag_after .is_admin) first
    (w.entries "user.update_role" u) (w.is_admin u)

theorem Logged.replays {first : Bool} (h : Logged c admin_id r w w') (hw : w.Replays first u) :
    w'.Replays first u := by
  by_cases hu : u = c.user_id ∧ Flag.is_admin = c.flag
  · obtain ⟨rfl, hflag⟩ := hu
    have hnew := h.entries
    have hrow := h.row
    rw [← hflag] at hnew hrow
    have htrail : Trail (AdminAuditLog.flag_before .is_admin)
        (AdminAuditLog.flag_after .is_admin) first
        (w.entries "user.update_role" c.user_id ++
          [.of_change admin_id c.user_id .is_admin r.val.is_admin c.value]) c.value := by
      refine Trail.snoc hw ?_ (AdminAuditLog.flag_after_of_change _ _)
      rw [World.is_admin_of h.user]
      exact AdminAuditLog.flag_before_of_change _ _
    have hnow : w'.is_admin c.user_id = c.value := World.is_admin_of hrow
    unfold World.Replays
    rw [hnow]
    exact hnew ▸ htrail
  · have hsame := h.entries_of_ne hu
    unfold World.Replays
    rw [h.is_admin_of_ne hu]
    exact hsame ▸ hw

theorem Silent.replays {first : Bool} (h : Silent w w') (hw : w.Replays first u) :
    w'.Replays first u := by
  unfold World.Replays World.entries
  rw [h.logs, h.roles u]
  exact hw

/-! ## Runs -/

theorem HttpLabel.replays {app : App} {first : Bool} (l : HttpLabel) (hw : w.Replays first u) :
    ((http app).next w l).Replays first u := by
  cases l with
  | tick d => exact Silent.replays (Silent.elsewhere rfl rfl) hw
  | stripe stripe => exact Silent.replays (Silent.elsewhere rfl rfl) hw
  | serve request =>
    rcases hc : request.change with _ | c
    · exact Silent.replays (Silent.run (HttpRequest.silent hc) w) hw
    · change ((request.prog app).run w).2.Replays first u
      rcases HttpRequest.changes hc w with ⟨e, he⟩ | ⟨a, admin, r, w', hrun, _, hlog⟩
      · rw [he]
        exact hw
      · rw [hrun]
        exact hlog.replays hw

/-- An account comes into being without a role. -/
theorem HttpLabel.creates {app : App} {l : HttpLabel} {r : Row User}
    (hnone : w.db.users.byId u = none)
    (hsome : ((http app).next w l).db.users.byId u = some r) : r.val.is_admin = false := by
  have hbefore : w.is_admin u = false := by
    unfold World.is_admin
    rw [hnone]
    rfl
  have hsilent : ∀ w', Silent w w' → w'.db.users.byId u = some r → r.val.is_admin = false := by
    intro w' h hr
    rw [← World.is_admin_of hr, h.roles u, hbefore]
  cases l with
  | tick d => exact hsilent _ (Silent.elsewhere rfl rfl) hsome
  | stripe stripe => exact hsilent _ (Silent.elsewhere rfl rfl) hsome
  | serve request =>
    change ((request.prog app).run w).2.db.users.byId u = some r at hsome
    rcases hc : request.change with _ | c
    · exact hsilent _ (Silent.run (HttpRequest.silent hc) w) hsome
    · rcases HttpRequest.changes hc w with ⟨e, he⟩ | ⟨a, admin, r', w', hrun, _, hlog⟩
      · rw [he, hnone] at hsome
        cases hsome
      · have hu : u ≠ c.user_id := by
          rintro rfl
          rw [hlog.user] at hnone
          cases hnone
        rw [hrun, hlog.other hu, hnone] at hsome
        cases hsome

end

/-- The audit log of every run that starts without entries. The role entries of a
user lead from the role at the start, or at the creation of the account, to the
present one; a successful request of an admin adds one entry with the values just
before and just after, and a request about an unknown user changes nothing. -/
theorem audit_log_replays_roles {app : App} {w₀ w : World} {ls : List HttpLabel}
    (hempty : w₀.db.admin_audit_logs.rows = []) (hrun : (http app).Run (fun _ _ => True) w₀ ls w) :
    (∀ u r, w.db.users.byId u = some r → ∃ first,
      Trail (AdminAuditLog.flag_before .is_admin) (AdminAuditLog.flag_after .is_admin) first
        (w.entries "user.update_role" u) r.val.is_admin ∧
      (∀ r₀, w₀.db.users.byId u = some r₀ → first = r₀.val.is_admin) ∧
      (w₀.db.users.byId u = none → ∀ t l r', (http app).Took (fun _ _ => True) w₀ ls w t l →
        t.db.users.byId u = none → ((http app).next t l).db.users.byId u = some r' →
        first = r'.val.is_admin)) ∧
    ∀ t request c, (http app).Took (fun _ _ => True) w₀ ls w t (.serve request) →
      request.change = some c →
      (t.db.users.byId c.user_id = none → (http app).next t (.serve request) = t) ∧
      (((request.prog app).run t).1 = .ok () → ∃ admin r r',
        AdminBearer app.settings.toSettings t c.authorization admin ∧
        t.db.users.byId c.user_id = some r ∧
        ((http app).next t (.serve request)).db.users.byId c.user_id = some r' ∧
        c.flag.of r'.val = c.value ∧
        ((http app).next t (.serve request)).db.admin_audit_logs.rows =
          t.db.admin_audit_logs.rows ++ [t.db.admin_audit_logs.newRow
            (.of_change admin.id c.user_id c.flag (c.flag.of r.val) (c.flag.of r'.val))]) := by
  refine ⟨fun u r hr => ⟨w₀.is_admin u, ?_, fun r₀ h₀ => World.is_admin_of h₀,
    fun h₀ t l r' _ hnone hsome => ?_⟩, fun t request c _ hc => ⟨fun hnone => ?_, fun hok => ?_⟩⟩
  · have hstart : w₀.Replays (w₀.is_admin u) u := by
      unfold World.Replays World.entries
      rw [hempty]
      rfl
    have hend := hrun.invariant (I := fun w => w.Replays (w₀.is_admin u) u) hstart
      fun t l ht _ _ => HttpLabel.replays l ht
    rw [← World.is_admin_of hr]
    exact hend
  · rw [HttpLabel.creates hnone hsome]
    unfold World.is_admin
    rw [h₀]
    rfl
  · change ((request.prog app).run t).2 = t
    rcases HttpRequest.changes hc t with ⟨e, he⟩ | ⟨a, admin, r, w', hrun, _, hlog⟩
    · rw [he]
    · rw [hlog.user] at hnone
      cases hnone
  · change ∃ admin r r', _ ∧ _ ∧ ((request.prog app).run t).2.db.users.byId c.user_id = some r' ∧
      _ ∧ ((request.prog app).run t).2.db.admin_audit_logs.rows = _
    rcases HttpRequest.changes hc t with ⟨e, he⟩ | ⟨a, admin, r, w', hrun, hadmin, hlog⟩
    · rw [he] at hok
      cases hok
    · have hafter : c.flag.of ((c.flag.patch c.value).apply r.val) = c.value := by
        rw [Flag.of_patch, if_pos rfl]
      refine ⟨admin, r, ⟨r.id, (c.flag.patch c.value).apply r.val⟩, hadmin, hlog.user, ?_,
        hafter, ?_⟩
      · rw [hrun]
        exact hlog.row
      · rw [hrun, hafter]
        exact hlog.log

namespace Sample

/-- A store that knows no statement. -/
def no_engine : SqlEngine where
  execute _ _ := .error .dataError
  view_columns _ := []
  isalnum _ := false
  float digits := digits

/-- The application, with a model that says nothing. -/
def app : App where
  settings := account_settings
  pwd := pwd
  user_repo := .user
  engine := no_engine
  client := ⟨"groq", fun _ => .stop none⟩
  system_message := ""
  accepts _ := true

/-- The admin appoints eva, fails on an account that is not there, and takes the
role back; bob comes from Google. -/
def appointments : List HttpLabel :=
  [.serve (.back_office (access_of 1) (.update_user_role (.given 0) (.given true))),
    .serve (.back_office (access_of 1) (.verify_user (.given 7))), .tick 1,
    .serve (.account (.auth (.login (.google (callback "bob@example.com"))))),
    .serve (.account (.update_user_role (access_of 1) 0 false))]

def appointed : World := (http app).exec staffed.world appointments

end Sample

open Sample in
theorem audit_log_replays_roles_sample : ∃ first,
    Trail (AdminAuditLog.flag_before .is_admin) (AdminAuditLog.flag_after .is_admin) first
      (appointed.entries "user.update_role" 0) false ∧
    (appointed.entries "user.update_role" 0).length = 2 ∧ first = false := by
  have hrun : (http app).Run (fun _ _ => True) staffed.world appointments appointed :=
    .of_path (by decide)
  have hr : appointed.db.users.byId 0 = some ⟨0, eva⟩ := by decide
  obtain ⟨first, htrail, hfirst, _⟩ := (audit_log_replays_roles rfl hrun).1 0 ⟨0, eva⟩ hr
  exact ⟨first, htrail, by decide, hfirst ⟨0, eva⟩ (by decide)⟩

end saas
