-- Logins with one code, side by side: a login reads the code, checks its hash
-- and deletes it in acts of their own, and never learns whether its `DELETE`
-- found anything.
import SaasBackend.LoginCodes
import SaasBackend.RefreshRace
import SaasBackend.Schedules

open relational async

namespace saas

/-! ## The rows under any acts -/

/-- Rows of codes go, and new ones come with new primary keys. -/
structure CodeStep (w w' : World) : Prop where
  next : w.db.login_codes.next ≤ w'.db.login_codes.next
  rows : ∀ c ∈ w'.codes, c ∈ w.codes ∨ w.db.login_codes.next ≤ c.id

namespace CodeStep

theorem refl (w : World) : CodeStep w w := ⟨Nat.le_refl _, fun _ h => Or.inl h⟩

theorem trans {w w' w'' : World} (h : CodeStep w w') (h' : CodeStep w' w'') : CodeStep w w'' where
  next := Nat.le_trans h.next h'.next
  rows c hc := by
    rcases h'.rows c hc with hc | hc
    · exact h.rows c hc
    · exact Or.inr (Nat.le_trans h.next hc)

theorem of_codes {w w' : World} (h : w'.db.login_codes = w.db.login_codes) : CodeStep w w' := by
  refine ⟨Nat.le_of_eq (congrArg Table.next h).symm, fun c hc => Or.inl ?_⟩
  unfold World.codes at hc ⊢
  rwa [h] at hc

/-- A row that is gone does not come back. -/
theorem stored {w w' : World} {c : Row LoginCode} (h : CodeStep w w')
    (hid : c.id < w.db.login_codes.next) (hc : c ∈ w'.codes) : c ∈ w.codes := by
  rcases h.rows c hc with hc | hc
  · exact hc
  · exact absurd hid (Nat.not_lt_of_le hc)

end CodeStep

theorem Act.code_step {A : Allowed} {w w' : World} (h : Act A w w') : CodeStep w w' := by
  cases h with
  | stay => exact CodeStep.refl w
  | uuid => exact CodeStep.of_codes rfl
  | token h => exact CodeStep.of_codes h.codes
  | add_user h =>
    obtain ⟨_, hf, rfl, rfl⟩ := Db.insert_user_ok h
    exact CodeStep.of_codes rfl
  | patch => exact CodeStep.of_codes rfl
  | @add_code c r db h =>
    unfold Db.insert_code at h
    split at h
    · cases h
      refine ⟨Nat.le_succ _, fun d hd => ?_⟩
      rcases List.mem_append.mp hd with hd | hd
      · exact Or.inl hd
      · rw [List.mem_singleton.mp hd]
        exact Or.inr (Nat.le_refl _)
    · cases h
  | delete_codes => exact ⟨Nat.le_refl _, fun _ hc => Or.inl (List.mem_of_mem_filter hc)⟩
  | audit h =>
    unfold Db.insert_audit at h
    split at h
    · cases h
      exact CodeStep.of_codes rfl
    · cases h
  | stripe => exact CodeStep.of_codes rfl

section

variable {settings : Settings} {pwd : PwdContext} {email code : String}

theorem AuthRequest.code_steps (request : AuthRequest) :
    (request.prog settings pwd).Acts CodeStep :=
  (request.acts settings pwd).mono fun _ _ h => h.code_step

/-! ## What a login has seen -/

/-- The code that a login for `email` has read, in its second act. -/
def read_code (email : String) : List World → Option (Row LoginCode)
  | w₀ :: w₁ :: _ => (w₀.find_user email).bind fun user => w₁.latest_code user.id
  | _ => none

/-- The sixth act of a login is the commit of its `DELETE`. If the code that the
login has read was good, it is still stored at this commit. -/
def FindsItsCode (pwd : PwdContext) (email code : String) : List World → Prop
  | w₀ :: w₁ :: w₂ :: _ :: _ :: w₅ :: _ =>
    ∀ user ∈ w₀.find_user email, ∀ c ∈ w₁.latest_code user.id,
      w₂.clock ≤ c.val.expires_at → pwd.verify code c.val.code_hash = true → c ∈ w₅.codes
  | _ => True

instance FindsItsCode.decidable (pwd : PwdContext) (email code : String) :
    ∀ l, Decidable (FindsItsCode pwd email code l)
  | w₀ :: w₁ :: _ :: _ :: _ :: _ :: _ =>
    inferInstanceAs (Decidable (∀ user ∈ w₀.find_user email, ∀ c ∈ w₁.latest_code user.id, _))
  | [] => isTrue trivial
  | [_] => isTrue trivial
  | [_, _] => isTrue trivial
  | [_, _, _] => isTrue trivial
  | [_, _, _, _] => isTrue trivial
  | [_, _, _, _, _] => isTrue trivial

/-- What a login has checked before it deletes: the account, the code that it
read in its second act, its expiry and its hash. -/
structure GoodCode (pwd : PwdContext) (email code : String) (w₀ w₁ w₂ : World) (user : Row User)
    (c : Row LoginCode) : Prop where
  found : w₀.find_user email = some user
  latest : w₁.latest_code user.id = some c
  unexpired : w₂.clock ≤ c.val.expires_at
  right : pwd.verify code c.val.code_hash = true

namespace UserService

/-- A login that has returned has taken the six acts. -/
theorem login_with_code.after_ret {states : List World} {login : Login}
    (h : (login_with_code settings pwd email code).after states = .ret login) :
    ∃ w₀ w₁ w₂ w₃ w₄ w₅ rest user c, states = w₀ :: w₁ :: w₂ :: w₃ :: w₄ :: w₅ :: rest ∧
      GoodCode pwd email code w₀ w₁ w₂ user c := by
  unfold login_with_code at h
  rw [UserRepository.get_by_email.eq] at h
  obtain ⟨w₀, l₀, rfl, h₀⟩ := Proc.after_read_ret h
  rcases hfound : w₀.find_user email with _ | user
  · rw [hfound] at h₀
    exact absurd h₀ (Proc.after_raise_ne _ _ _)
  rw [hfound] at h₀
  dsimp only at h₀
  rw [LoginCodeRepository.get_latest_for_user.eq] at h₀
  obtain ⟨w₁, l₁, rfl, h₁⟩ := Proc.after_read_ret h₀
  rcases hlatest : w₁.latest_code user.id with _ | c
  · rw [hlatest] at h₁
    exact absurd h₁ (Proc.after_raise_ne _ _ _)
  rw [hlatest] at h₁
  dsimp only at h₁
  rw [now] at h₁
  obtain ⟨w₂, l₂, rfl, h₂⟩ := Proc.after_read_ret h₁
  by_cases hexp : c.val.expires_at < w₂.clock
  · rw [if_pos hexp, LoginCodeRepository.delete, Proc.bind_assoc] at h₂
    obtain ⟨w₃, l₃, rfl, h₃⟩ := Proc.after_read_ret h₂
    obtain ⟨w₄, l₄, _, _, rfl, _, h₄⟩ := Proc.after_attempt_ret h₃
    exact absurd h₄ (Proc.after_raise_ne _ _ _)
  rw [if_neg hexp, verify_password] at h₂
  obtain ⟨w₃, l₃, rfl, h₃⟩ := Proc.after_read_ret h₂
  rw [Option.any_some] at h₃
  by_cases hright : pwd.verify code c.val.code_hash = true
  · rw [if_pos hright, LoginCodeRepository.delete, Proc.bind_assoc] at h₃
    obtain ⟨w₄, l₄, rfl, h₄⟩ := Proc.after_read_ret h₃
    obtain ⟨w₅, l₅, _, _, rfl, _, _⟩ := Proc.after_attempt_ret h₄
    exact ⟨w₀, w₁, w₂, w₃, w₄, w₅, l₅, user, c, rfl, hfound, hlatest, Nat.le_of_not_lt hexp,
      hright⟩
  · rw [if_neg hright] at h₃
    exact absurd h₃ (Proc.after_raise_ne _ _ _)

/-- The sixth act deletes what the fifth has found. -/
theorem login_with_code.at_commit {w₀ w₁ w₂ : World} {user : Row User} {c : Row LoginCode}
    (h : GoodCode pwd email code w₀ w₁ w₂ user c) (w₃ w₄ w₅ : World) :
    (((login_with_code settings pwd email code).after [w₀, w₁, w₂, w₃, w₄]).step w₅).2 =
      w₅.delete_codes (w₄.codes_of user.id) := by
  have hexp := Nat.not_lt_of_le h.unexpired
  unfold login_with_code
  rw [UserRepository.get_by_email.eq, Proc.after_read, h.found]
  dsimp only
  rw [LoginCodeRepository.get_latest_for_user.eq, Proc.after_read, h.latest]
  dsimp only
  rw [now, Proc.after_read, if_neg hexp, verify_password, Proc.after_read, Option.any_some,
    if_pos h.right, LoginCodeRepository.delete, Proc.bind_assoc, Proc.after_read]
  rfl

end UserService

/-! ## The law -/

/-- Every login of the schedule that has read a good code finds it when it commits
its `DELETE`. -/
def EachFinds (settings : Settings) (pwd : PwdContext) (requests : List AuthRequest) (w : World)
    (schedule : List Nat) : Prop :=
  ∀ (i : Nat) (email code : String), requests[i]? = some (.login (.code email code)) →
    FindsItsCode pwd email code ((race settings pwd requests w).seen schedule i)

/-- No row of a code has let in two requests. -/
def LogsInOnce (settings : Settings) (pwd : PwdContext) (requests : List AuthRequest) (w : World)
    (schedule : List Nat) : Prop :=
  ∀ (i k : Nat) (email code email' code' : String) (c c' : Row LoginCode),
    requests[i]? = some (.login (.code email code)) →
    requests[k]? = some (.login (.code email' code')) →
    read_code email ((race settings pwd requests w).seen schedule i) = some c →
    read_code email' ((race settings pwd requests w).seen schedule k) = some c' →
    Succeeded (Pool.run (race settings pwd requests w) schedule) i →
    Succeeded (Pool.run (race settings pwd requests w) schedule) k →
    c.id = c'.id → i = k

variable {requests : List AuthRequest} {w : World} {schedule : List Nat}

theorem race_get (settings : Settings) (pwd : PwdContext) {i : Nat} {request : AuthRequest}
    (h : requests[i]? = some request) (w : World) :
    (race settings pwd requests w).1[i]? = some (request.prog settings pwd) := by
  unfold race
  rw [List.getElem?_map, h]
  rfl

theorem race_acts (settings : Settings) (pwd : PwdContext) (requests : List AuthRequest)
    (w : World) : ∀ p ∈ (race settings pwd requests w).1, p.Acts CodeStep := by
  intro p hp
  obtain ⟨request, _, rfl⟩ := List.mem_map.mp hp
  exact request.code_steps

/-- A request that succeeds with the code `c` deletes it, at one place of the
schedule. -/
theorem redeemed (hC : EachFinds settings pwd requests w schedule) {i : Nat}
    {c : Row LoginCode} (hi : requests[i]? = some (.login (.code email code)))
    (hc : read_code email ((race settings pwd requests w).seen schedule i) = some c)
    (hs : Succeeded (Pool.run (race settings pwd requests w) schedule) i) :
    ∃ before rest, schedule = before ++ i :: rest ∧
      c ∈ (Pool.run (race settings pwd requests w) before).2.codes ∧
      ∀ d ∈ (Pool.run (race settings pwd requests w) (before ++ [i])).2.codes, d.id ≠ c.id := by
  have hget := race_get settings pwd hi w
  have hlaw := hC i email code hi
  have hpair := (Pool.seen_keeps CodeStep.refl (fun _ _ _ => CodeStep.trans)
    (race_acts settings pwd requests w) schedule i).1
  unfold Succeeded at hs
  rw [Pool.run_get, hget, Option.map_some, Option.bind_some] at hs
  generalize hseen : (race settings pwd requests w).seen schedule i = states at hs hc hlaw hpair
  obtain ⟨tokens, hret⟩ := Option.isSome_iff_exists.mp hs
  rw [Proc.returned_eq_some] at hret
  obtain ⟨login, hlogin, _⟩ := Proc.after_map_ret hret
  obtain ⟨w₀, w₁, w₂, w₃, w₄, w₅, rest, user, c', rfl, hgood⟩ :=
    UserService.login_with_code.after_ret hlogin
  have hsame : c' = c := by
    simp only [read_code, hgood.found, Option.bind_some, hgood.latest, Option.some.injEq] at hc
    exact hc
  subst hsame
  have hstored : c' ∈ w₅.codes :=
    hlaw user hgood.found c' hgood.latest hgood.unexpired hgood.right
  obtain ⟨before, after, hsplit, hw₅, hseen'⟩ :=
    Pool.seen_split (show _ = [w₀, w₁, w₂, w₃, w₄] ++ w₅ :: rest from hseen)
  refine ⟨before, after, hsplit, by rw [hw₅]; exact hstored, ?_⟩
  -- the row that is stored at the commit was there when the `DELETE` looked
  obtain ⟨hmem, huser⟩ := World.latest_code_mem hgood.latest
  simp only [List.pairwise_cons, List.mem_cons] at hpair
  have h₁₄ : CodeStep w₁ w₄ := hpair.2.1 w₄ (by simp)
  have h₄₅ : CodeStep w₄ w₅ := hpair.2.2.2.2.1 w₅ (by simp)
  have hlt : c'.id < w₄.db.login_codes.next :=
    Nat.lt_of_lt_of_le (w₁.db.login_codes.id_lt c' hmem) h₁₄.next
  have hids : c'.id ∈ w₄.codes_of user.id :=
    List.mem_map.mpr ⟨c', List.mem_filter.mpr ⟨h₄₅.stored hlt hstored, by simpa using huser⟩, rfl⟩
  have hworld : (Pool.run (race settings pwd requests w) (before ++ [i])).2 =
      w₅.delete_codes (w₄.codes_of user.id) := by
    rw [Pool.run_append]
    change (Pool.step (Pool.run (race settings pwd requests w) before) i).2 = _
    have hprog := Pool.run_get (race settings pwd requests w) before i
    rw [hget, Option.map_some, hseen'] at hprog
    rw [Pool.step_some hprog, hw₅]
    change ((((UserService.login_with_code settings pwd email code) >>= fun login =>
      pure (some login.toTokenPair)).after [w₀, w₁, w₂, w₃, w₄]).step w₅).2 = _
    rw [Proc.after_map, Proc.step_map]
    exact UserService.login_with_code.at_commit hgood w₃ w₄ w₅
  rw [hworld]
  rintro d hd hid
  have hnot := (List.mem_filter.mp hd).2
  simp [hid, hids] at hnot

/-- Where the row `c` is deleted by request `i`, no later request reads a row with
its primary key. -/
theorem gone_for_later {i : Nat} {before t : List Nat} {c c' : Row LoginCode}
    (hc : c ∈ (Pool.run (race settings pwd requests w) before).2.codes)
    (hgone : ∀ d ∈ (Pool.run (race settings pwd requests w) (before ++ [i])).2.codes, d.id ≠ c.id)
    (hc' : c' ∈ (Pool.run (race settings pwd requests w) (before ++ i :: t)).2.codes) :
    c.id ≠ c'.id := by
  intro hid
  have hrun := (Pool.run_keeps CodeStep.refl (fun _ _ _ => CodeStep.trans)
    (race_acts settings pwd requests w) before).2
  have hstep := Pool.run_keeps CodeStep.refl (fun _ _ _ => CodeStep.trans) hrun [i]
  have hlater := (Pool.run_keeps CodeStep.refl (fun _ _ _ => CodeStep.trans) hstep.2 t).1
  rw [← Pool.run_append] at hstep hlater
  rw [← Pool.run_append, List.append_assoc] at hlater
  have hlt := Nat.lt_of_lt_of_le (Table.id_lt _ c hc) hstep.1.next
  rw [hid] at hlt
  exact hgone c' (hlater.stored hlt hc') hid.symm

/-- Under a schedule in which every login finds its code, a code logs in at most
once. -/
theorem code_logs_in_once (hC : EachFinds settings pwd requests w schedule) :
    LogsInOnce settings pwd requests w schedule := by
  intro i k email code email' code' c c' hi hk hci hck hsi hsk hid
  obtain ⟨before, rest, hb, hc, hgone⟩ := redeemed hC hi hci hsi
  obtain ⟨before', rest', hb', hc', hgone'⟩ := redeemed hC hk hck hsk
  by_contra hne
  -- one of the two deletes first
  rcases List.append_eq_append_iff.mp (hb.symm.trans hb') with ⟨t, ht, ht'⟩ | ⟨t, ht, ht'⟩
  · cases t with
    | nil =>
      rw [List.nil_append, List.cons.injEq] at ht'
      exact hne ht'.1
    | cons j t =>
      rw [List.cons_append, List.cons.injEq] at ht'
      obtain ⟨rfl, _⟩ := ht'
      exact gone_for_later hc hgone (ht ▸ hc') hid
  · cases t with
    | nil =>
      rw [List.nil_append, List.cons.injEq] at ht'
      exact hne ht'.1.symm
    | cons j t =>
      rw [List.cons_append, List.cons.injEq] at ht'
      obtain ⟨rfl, _⟩ := ht'
      exact gone_for_later hc' hgone' (ht ▸ hc) hid.symm

end

namespace Sample

def code_of_eva : AuthRequest := .login (.code "eva@example.com" "123456")

/-- Eva has asked for a code. -/
def coded : Accounts :=
  (accounts settings code_pwd).exec opened [.serve (.request_code "eva@example.com" "123456")]

theorem coded_reachable : (accounts settings code_pwd).Reachable Unused coded :=
  ⟨opened, _, ⟨rfl, rfl, rfl⟩, .of_path (by decide)⟩

end Sample

open Sample in
/-- One login after the other. -/
theorem code_logs_in_once_sample :
    LogsInOnce settings code_pwd [code_of_eva, code_of_eva] coded.world
      (List.replicate 13 0 ++ List.replicate 3 1) := by
  apply code_logs_in_once
  rintro (_ | _ | i) email code ⟨⟩
  · decide
  · decide

open Sample in
/-- Both logins read the code before either of them deletes it, and both return
tokens. -/
theorem code_logs_in_twice : ∃ s schedule c,
    (accounts settings code_pwd).Reachable Unused s ∧
    read_code "eva@example.com" ((race settings code_pwd [code_of_eva, code_of_eva]
      s.world).seen schedule 0) = some c ∧
    read_code "eva@example.com" ((race settings code_pwd [code_of_eva, code_of_eva]
      s.world).seen schedule 1) = some c ∧
    Succeeded (Pool.run (race settings code_pwd [code_of_eva, code_of_eva] s.world) schedule) 0 ∧
    Succeeded (Pool.run (race settings code_pwd [code_of_eva, code_of_eva] s.world) schedule) 1 :=
  ⟨coded, [0, 0, 1, 1] ++ List.replicate 11 0 ++ List.replicate 11 1,
    ⟨0, ⟨0, "$123456", fromtimestamp 1000, fromtimestamp 1900⟩⟩, coded_reachable,
    by decide, by decide, by unfold Succeeded; decide, by unfold Succeeded; decide⟩

end saas
