-- The login codes: what the two requests about them read and write when
-- nothing runs between their acts.
import SaasBackend.TokenRows

open relational async

namespace saas

/-! ## Reads -/

namespace World

/-- The account with an email. Emails are unique. -/
def find_user (w : World) (email : String) : Option (Row User) := (w.user_of_email email).head?

/-- The newest login code of an account. -/
def latest_code (w : World) (u : UUID) : Option (Row LoginCode) :=
  match w.db.login_codes.select (fun c => decide (c.user_id = u)) with
  | [] => none
  | c :: cs => some (cs.foldl LoginCodeRepository.newer c)

theorem user_of_email_cases (w : World) (email : String) :
    w.user_of_email email = [] ∨ ∃ user, w.user_of_email email = [user] := by
  refine Table.select_unique (k := UserKey.email email) fun u hu => ?_
  rw [decide_eq_true_iff] at hu
  simp [Keyed.keys, hu]

theorem find_user_some {w : World} {email : String} {user : Row User} :
    w.find_user email = some user ↔ user ∈ w.db.users.rows ∧ user.val.email = email := by
  rw [← World.mem_user_of_email]
  unfold find_user
  rcases w.user_of_email_cases email with h | ⟨user', h⟩
  · simp [h]
  · simp [h, eq_comm]

theorem foldl_newer_mem (c : Row LoginCode) (cs : List (Row LoginCode)) :
    cs.foldl LoginCodeRepository.newer c ∈ c :: cs := by
  induction cs generalizing c with
  | nil => exact List.mem_singleton_self c
  | cons d cs ih =>
    have h := ih (LoginCodeRepository.newer c d)
    have hn : LoginCodeRepository.newer c d = c ∨ LoginCodeRepository.newer c d = d := by
      unfold LoginCodeRepository.newer
      split
      · exact Or.inr rfl
      · exact Or.inl rfl
    rcases hn with hn | hn
    · rw [hn] at h
      rw [List.foldl_cons, hn]
      rcases List.mem_cons.mp h with h | h
      · simp [h]
      · simp [h]
    · rw [hn] at h
      rw [List.foldl_cons, hn]
      exact List.mem_cons_of_mem c h

theorem latest_code_mem {w : World} {u : UUID} {c : Row LoginCode} (h : w.latest_code u = some c) :
    c ∈ w.codes ∧ c.val.user_id = u := by
  unfold latest_code at h
  split at h
  · cases h
  · rename_i d ds hsel
    cases h
    have hmem := foldl_newer_mem d ds
    rw [← hsel] at hmem
    obtain ⟨hrow, hu⟩ := Table.mem_select.mp hmem
    exact ⟨hrow, by simpa using hu⟩

/-- Where an account has one code, that is its newest. -/
theorem latest_code_of_single {w : World} {c : Row LoginCode} (hc : c ∈ w.codes)
    (h : ∀ d ∈ w.codes, d.val.user_id = c.val.user_id → d = c) :
    w.latest_code c.val.user_id = some c := by
  have hsel : w.db.login_codes.select (fun d => decide (d.user_id = c.val.user_id)) = [c] := by
    apply Table.select_eq_of_mem
    · exact Table.mem_select.mpr ⟨hc, by simp⟩
    · intro d hd
      obtain ⟨hd, hu⟩ := Table.mem_select.mp hd
      exact h d hd (by simpa using hu)
  unfold latest_code
  rw [hsel]
  rfl

end World

theorem World.scalar_user_of_email (w : World) (email : String) :
    scalar_one_or_none (w.user_of_email email) = .ok (w.find_user email) := by
  unfold World.find_user
  rcases w.user_of_email_cases email with h | ⟨user, h⟩
  · rw [h]
    rfl
  · rw [h]
    rfl

theorem UserRepository.get_by_email.eq (email : String) :
    UserRepository.get_by_email email = Proc.read (·.find_user email) := by
  unfold UserRepository.get_by_email
  simp only [World.scalar_user_of_email]
  rfl

theorem UserRepository.get_by_email.spec (email : String) (w : World) :
    (UserRepository.get_by_email email).run w = (.ok (w.find_user email), w) := by
  rw [UserRepository.get_by_email.eq]
  rfl

/-! ## Writes -/

/-- The codes of an account are deleted. -/
def World.end_codes (w : World) (u : UUID) : World := w.delete_codes (w.codes_of u)

theorem World.codes_end_codes (w : World) (u : UUID) :
    (w.end_codes u).codes = w.codes.filter (fun c => decide (c.val.user_id ≠ u)) := by
  unfold World.end_codes World.delete_codes World.codes Db.delete_codes Table.delete
  apply List.filter_congr
  intro c hc
  have hiff : c.id ∈ w.codes_of u ↔ c.val.user_id = u := by
    unfold World.codes_of
    rw [List.mem_map]
    constructor
    · rintro ⟨d, hd, hid⟩
      obtain ⟨hd, hu⟩ := List.mem_filter.mp hd
      rw [← Table.eq_of_id hd hc hid]
      simpa using hu
    · intro hu
      exact ⟨c, List.mem_filter.mpr ⟨hc, by simpa using hu⟩, rfl⟩
  simp [hiff]

theorem Db.insert_code_ok {db : Db} {c : LoginCode} (hu : db.users.Has c.user_id) :
    ∃ db', db.insert_code c = .ok (db.login_codes.newRow c, db') ∧
      db'.login_codes.rows = db.login_codes.rows ++ [db.login_codes.newRow c] ∧
      db'.users = db.users := by
  have hfit : db.login_codes.Fits c := fits_of_no_keys rfl
  unfold Db.insert_code
  rw [dif_pos ⟨hfit, hu⟩]
  exact ⟨_, rfl, rfl, rfl⟩

namespace LoginCodeRepository

theorem get_latest_for_user.eq (u : UUID) :
    get_latest_for_user u = Proc.read (·.latest_code u) := by
  change _ = Proc.query fun w : World => .ok (w.latest_code u)
  unfold get_latest_for_user World.latest_code
  congr 1
  funext w
  cases w.db.login_codes.select (fun c => decide (c.user_id = u)) <;> rfl

theorem get_latest_for_user.spec (u : UUID) (w : World) :
    (get_latest_for_user u).run w = (.ok (w.latest_code u), w) := by
  rw [get_latest_for_user.eq]
  rfl

theorem delete.spec (u : UUID) (w : World) : (delete u).run w = (.ok (), w.end_codes u) := rfl

theorem create.spec {c : LoginCode} {w : World} (hu : w.db.users.Has c.user_id) :
    ∃ row w', (create c).run w = (.ok (), w') ∧ row.val = c ∧ w'.codes = w.codes ++ [row] ∧
      w'.clock = w.clock ∧ w'.db.users = w.db.users := by
  obtain ⟨db, hins, hrows, husers⟩ := Db.insert_code_ok hu
  refine ⟨_, { w with db := db }, ?_, Table.newRow_val _ c, hrows, rfl, husers⟩
  unfold create
  rw [Proc.run_attempt, hins]
  rfl

end LoginCodeRepository

/-! ## The requests -/

section

variable {settings : Settings} {pwd : PwdContext} {w : World} {email : String}

namespace UserService

theorem login_code.none (h : w.find_user email = none) (code : String) :
    (login_code pwd email code).run w = (.error (.http 400 "Invalid  email."), w) := by
  unfold login_code
  rw [Proc.run_bind_ok (UserRepository.get_by_email.spec email w), h]
  rfl

/-- A new code takes the place of all codes of the account. -/
theorem login_code.some (pwd : PwdContext) {user : Row User} (h : w.find_user email = some user)
    (code : String) :
    ∃ row w', (login_code pwd email code).run w = (.ok (user, code), w') ∧
      row.val = ⟨user.id, pwd.hash w.uuids code, w.clock, w.clock + minutes 15⟩ ∧
      w'.codes = w.codes.filter (fun c => decide (c.val.user_id ≠ user.id)) ++ [row] ∧
      w'.clock = w.clock ∧ w'.db.users = w.db.users := by
  let w1 : World := { w with uuids := w.uuids + 1 }
  have hu : (w1.end_codes user.id).db.users.Has user.id :=
    Table.has_of_mem (World.find_user_some.mp h).1
  obtain ⟨row, w', hrun, hval, hcodes, hclock, husers⟩ := LoginCodeRepository.create.spec
    (c := ⟨user.id, pwd.hash w.uuids code, w.clock, w.clock + minutes 15⟩) hu
  refine ⟨row, w', ?_, hval, ?_, hclock, husers⟩
  · unfold login_code
    rw [Proc.run_bind_ok (UserRepository.get_by_email.spec email w), h]
    dsimp only
    rw [Proc.run_bind_ok (hash_password.spec code w), Proc.run_bind_ok (now.spec w1),
      Proc.run_bind_ok (LoginCodeRepository.delete.spec user.id w1),
      Proc.run_bind_ok (now.spec _)]
    exact Proc.run_bind_ok hrun _
  · rw [hcodes, World.codes_end_codes]
    rfl

theorem login_with_code.spec (settings : Settings) (pwd : PwdContext) (email code : String)
    (w : World) :
    (login_with_code settings pwd email code).run w = match w.find_user email with
      | none => (.error (.http 400 "Invalid code or email."), w)
      | some user => match w.latest_code user.id with
        | none => (.error (.http 400 "Invalid code or email."), w)
        | some login_code =>
          if login_code.val.expires_at < w.clock then
            (.error (.http 400 "Code has expired."), w.end_codes user.id)
          else if pwd.verify code login_code.val.code_hash = true then
            if user.val.is_active = false then
              (.error (.http 403 "User is disabled"), w.end_codes user.id)
            else (issue_tokens settings pwd user).run (w.end_codes user.id)
          else (.error (.http 400 "Invalid code or email."), w) := by
  unfold login_with_code
  rw [Proc.run_bind_ok (UserRepository.get_by_email.spec email w)]
  rcases w.find_user email with _ | user
  · rfl
  dsimp only
  rw [Proc.run_bind_ok (LoginCodeRepository.get_latest_for_user.spec user.id w)]
  rcases w.latest_code user.id with _ | login_code
  · rfl
  dsimp only
  rw [Proc.run_bind_ok (now.spec w)]
  by_cases ht : login_code.val.expires_at < w.clock
  · simp only [ht, if_true]
    rw [Proc.run_bind_ok (LoginCodeRepository.delete.spec user.id w)]
    rfl
  · simp only [ht, if_false]
    have hv : (verify_password pwd code (some login_code.val.code_hash)).run w =
        (.ok (pwd.verify code login_code.val.code_hash), w) := rfl
    rw [Proc.run_bind_ok hv]
    rcases pwd.verify code login_code.val.code_hash with _ | _
    · rfl
    · simp only [if_true]
      rw [Proc.run_bind_ok (LoginCodeRepository.delete.spec user.id w)]
      by_cases ha : user.val.is_active = false
      · simp only [ha, if_true]
        rfl
      · simp [ha]

/-- A login that does well has read the latest code of an active user in time. -/
theorem login_with_code.ok {code : String} {login : Login}
    (h : ((login_with_code settings pwd email code).run w).1 = .ok login) :
    ∃ user c, w.find_user email = some user ∧ user.val.is_active = true ∧
      w.latest_code user.id = some c ∧ w.clock ≤ c.val.expires_at ∧
      pwd.verify code c.val.code_hash = true := by
  rw [login_with_code.spec] at h
  rcases hu : w.find_user email with _ | user
  · rw [hu] at h
    cases h
  rw [hu] at h
  dsimp only at h
  rcases hc : w.latest_code user.id with _ | c
  · rw [hc] at h
    cases h
  rw [hc] at h
  dsimp only at h
  by_cases ht : c.val.expires_at < w.clock
  · rw [if_pos ht] at h
    cases h
  rw [if_neg ht] at h
  by_cases hv : pwd.verify code c.val.code_hash = true
  · rw [if_pos hv] at h
    by_cases ha : user.val.is_active = false
    · rw [if_pos ha] at h
      cases h
    · exact ⟨user, c, rfl, by simpa using ha, hc, Nat.le_of_not_lt ht, hv⟩
  · rw [if_neg hv] at h
    cases h

end UserService

end

namespace Sample

/-- A context whose hashes tell every text from every other. -/
def code_pwd : PwdContext where
  hash _ text := "$" ++ text
  verify plain hash := decide (hash = "$" ++ plain)
  encode _ := "token"

end Sample

end saas
