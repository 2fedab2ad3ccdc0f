-- What the two issuing programs do to the rows of refresh tokens: the end of a
-- login, and a rotation.
import SaasBackend.AuthSteps

open relational async

namespace saas

/-! ## The state between requests -/

/-- No `DELETE` holds a row, and the ids of the stored tokens are used up. -/
structure Tidy (w : World) : Prop where
  unlocked : w.token_locks = []
  jti_lt : ∀ r ∈ w.tokens, r.val.jti < w.uuids

theorem Tidy.quiet {o : UUID → Prop} {w w' : World} (h : Tidy w) (hq : Quiet o w w') : Tidy w' where
  unlocked := hq.locks.trans h.unlocked
  jti_lt r hr := by
    unfold World.tokens at hr
    rw [hq.tokens] at hr
    exact Nat.lt_of_lt_of_le (h.jti_lt r hr) hq.uuids

/-- A token with a new id has a place in the table. -/
theorem fits_of_new_jti {w : World} {t : RefreshToken} (h : ∀ r ∈ w.tokens, r.val.jti ≠ t.jti) :
    w.db.refresh_tokens.Fits t := by
  rw [Table.fits_iff_of_key (k := t.jti) rfl]
  intro r hr hk
  exact h r hr (List.mem_singleton.mp hk).symm

/-! ## The statements -/

/-- What an insert of a token leaves: one more row, and nothing else. -/
structure Inserted (w : World) (row : Row RefreshToken) (w' : World) : Prop where
  id : row.id = w.db.refresh_tokens.next
  tokens : w'.tokens = w.tokens ++ [row]
  locks : w'.token_locks = w.token_locks
  uuids : w'.uuids = w.uuids
  clock : w'.clock = w.clock
  users : w'.db.users = w.db.users

theorem RefreshTokenRepository.create.spec {t : RefreshToken} {w : World}
    (hf : w.db.refresh_tokens.Fits t) (hu : w.db.users.Has t.user_id) :
    ∃ row w', (RefreshTokenRepository.create t).run w = (.ok row, w') ∧ row.val = t ∧
      Inserted w row w' := by
  have hins : ∃ db, w.db.insert_token t = .ok (w.db.refresh_tokens.newRow t, db) ∧
      db.refresh_tokens = w.db.refresh_tokens.push t hf ∧ db.users = w.db.users := by
    unfold Db.insert_token
    rw [dif_pos ⟨hf, hu⟩]
    exact ⟨_, rfl, rfl, rfl⟩
  obtain ⟨db, hdb, htokens, husers⟩ := hins
  refine ⟨w.db.refresh_tokens.newRow t, { w with db := db }, ?_, rfl, rfl, ?_, rfl, rfl, rfl,
    husers⟩
  · unfold RefreshTokenRepository.create RefreshTokenRepository.reload
    rw [Proc.run_bind, Proc.run_attempt, hdb]
    simp only [Except.map, Proc.run_query]
    have hid : (w.db.refresh_tokens.newRow t).id = w.db.refresh_tokens.next := rfl
    simp only [htokens, hid, Table.byId_push_self]
  · unfold World.tokens
    rw [htokens]
    rfl

theorem RefreshTokenRepository.revoke_all_for_user.spec {u : UUID} {w : World}
    (hl : w.token_locks = []) :
    ∃ w', (RefreshTokenRepository.revoke_all_for_user u).run w = (.ok (), w') ∧
      w'.tokens = w.tokens.filter (fun r => decide (r.val.user_id ≠ u)) ∧
      w'.token_locks = [] ∧ w'.uuids = w.uuids ∧ w'.clock = w.clock ∧
      w'.db.users = w.db.users := by
  refine ⟨(w.lock_tokens (w.deletable u)).delete_tokens (w.deletable u), rfl, ?_, ?_, rfl, rfl,
    rfl⟩
  · have hdel : ∀ r ∈ w.tokens, r.id ∈ w.deletable u ↔ r.val.user_id = u := by
      intro r hr
      simp only [World.deletable, hl, List.not_mem_nil, not_false_eq_true, and_true, List.mem_map,
        List.mem_filter, decide_eq_true_eq]
      constructor
      · rintro ⟨r', ⟨hr', hu⟩, hid⟩
        rw [← hu, Table.eq_of_id hr' hr hid]
      · intro hu
        exact ⟨r, ⟨hr, hu⟩, rfl⟩
    change w.tokens.filter _ = _
    apply List.filter_congr
    intro r hr
    have := hdel r hr
    by_cases hu : r.val.user_id = u
    · simp [hu, this.mpr hu]
    · simp [hu, mt this.mp hu]
  · change (w.token_locks ++ w.deletable u).filter (fun i => decide (i ∉ w.deletable u)) = []
    rw [hl, List.nil_append, List.filter_eq_nil_iff]
    intro i hi
    simpa using hi

/-- The rows after a rotation has revoked `old`. -/
theorem RefreshTokenRepository.update.spec {old : Row RefreshToken} {w : World} (by_jti : Jti)
    (t : Time) (h : old ∈ w.tokens) (hl : w.token_locks = []) :
    ∃ r, (RefreshTokenRepository.update old by_jti t).run w =
      (.ok r, w.revoke_token old.id by_jti t) := by
  unfold RefreshTokenRepository.update RefreshTokenRepository.reload
  have hcond : w.db.refresh_tokens.Has old.id ∧ old.id ∉ w.token_locks :=
    ⟨Table.has_of_mem h, by simp [hl]⟩
  have hrun : (Proc.attempt fun w : World =>
      if w.db.refresh_tokens.Has old.id ∧ old.id ∉ w.token_locks then
        (.ok ((), w.revoke_token old.id by_jti t) : Except Err (Unit × World))
      else .error .staleDataError).run w = (.ok (), w.revoke_token old.id by_jti t) := by
    rw [Proc.run_attempt, if_pos hcond]
  rw [Proc.run_bind_ok hrun, Proc.run_query]
  have hrow := Table.byId_update_self (f := RefreshToken.replaced by_jti t) (fun _ => rfl) h
  unfold World.revoke_token Db.revoke_token
  simp only [hrow]
  exact ⟨_, rfl⟩

/-! ## The end of a login -/

section

variable {settings : Settings} {pwd : PwdContext} {w : World}

/-- The two tokens for the same claims that a request makes in state `w`. -/
def new_tokens (settings : Settings) (claims : Claims) (w : World) : TokenPair where
  access_token := .signed settings.access_secret_key
    (new_payload claims w.clock (w.clock + minutes settings.access_token_expire) w.uuids)
  refresh_token := .signed settings.refresh_secret_key
    (new_payload claims w.clock (w.clock + minutes settings.refresh_token_expire) (w.uuids + 1))

@[simp] theorem generate_token.spec (data : Claims) (mins : Nat) (key : Secret) (w : World) :
    (generate_token data mins key).run w =
      (.ok (.signed key (new_payload data w.clock (w.clock + minutes mins) w.uuids), w.uuids,
        w.clock + minutes mins), { w with uuids := w.uuids + 1 }) := rfl

@[simp] theorem hash_password.spec (password : String) (w : World) :
    (hash_password pwd password).run w =
      (.ok (pwd.hash w.uuids password), { w with uuids := w.uuids + 1 }) := rfl

/-- A request stored `row` for its new refresh token of `u`, beside the rows
`kept`. It used three ids: for each token and for the salt of the hash. -/
structure Stored (w : World) (u : UUID) (kept : List (Row RefreshToken)) (row : Row RefreshToken)
    (w' : World) : Prop where
  user_id : row.val.user_id = u
  jti : row.val.jti = w.uuids + 1
  live : row.val.revoked = false
  tokens : w'.tokens = kept ++ [row]
  locks : w'.token_locks = []
  uuids : w'.uuids = w.uuids + 3
  users : w'.db.users = w.db.users

theorem Stored.tidy {u : UUID} {kept : List (Row RefreshToken)} {row : Row RefreshToken}
    {w' : World} (h : Stored w u kept row w') (hk : ∀ r ∈ kept, r.val.jti < w.uuids) :
    Tidy w' where
  unlocked := h.locks
  jti_lt r hr := by
    rw [h.tokens, List.mem_append, List.mem_singleton] at hr
    rw [h.uuids]
    rcases hr with hr | rfl
    · exact Nat.lt_of_lt_of_le (hk r hr) (Nat.le_add_right _ _)
    · rw [h.jti]
      exact Nat.add_lt_add_left (by decide) w.uuids

theorem store_refresh_token_in_db.spec (pwd : PwdContext) {u : UUID} (token : Token) (exp : Time)
    (ht : Tidy w) (hu : w.db.users.Has u) :
    ∃ row w', (store_refresh_token_in_db pwd u (w.uuids + 1) token exp).run
        { w with uuids := w.uuids + 2 } = (.ok (), w') ∧
      Stored w u (w.tokens.filter (fun r => decide (r.val.user_id ≠ u))) row w' ∧
      row.val.expires_at = exp := by
  obtain ⟨w1, hrun1, htok1, hlock1, huuid1, -, huser1⟩ :=
    RefreshTokenRepository.revoke_all_for_user.spec (u := u)
      (w := { w with uuids := w.uuids + 3 }) ht.unlocked
  let t : RefreshToken :=
    { user_id := u, jti := w.uuids + 1,
      token_hash := pwd.hash (w.uuids + 2) (pwd.encode token), expires_at := exp }
  have hfit : w1.db.refresh_tokens.Fits t := by
    apply fits_of_new_jti
    intro r hr
    rw [htok1] at hr
    exact Nat.ne_of_lt (Nat.lt_succ_of_lt (ht.jti_lt r (List.mem_of_mem_filter hr)))
  obtain ⟨row, w2, hrun2, hval, hins⟩ := RefreshTokenRepository.create.spec hfit (huser1 ▸ hu)
  refine ⟨row, w2, ?_, ⟨by rw [hval], by rw [hval], by rw [hval], ?_, hins.locks.trans hlock1,
    hins.uuids.trans huuid1, hins.users.trans huser1⟩, by rw [hval]⟩
  · unfold store_refresh_token_in_db
    rw [Proc.run_bind_ok (hash_password.spec _ _), Proc.run_bind_ok hrun1, Proc.run_bind_ok hrun2]
    rfl
  · rw [hins.tokens, htok1]
    rfl

namespace UserService

/-- The tokens of a login are for the claims of its user, whatever the state. -/
theorem issue_tokens.names {user : Row User} {login : Login} {w' : World}
    (h : (issue_tokens settings pwd user).run w = (.ok login, w')) :
    login.toTokenPair = new_tokens settings (user_data user) w := by
  unfold issue_tokens at h
  rw [Proc.run_bind_ok (generate_token.spec _ _ _ _)] at h
  dsimp only at h
  rw [Proc.run_bind_ok (generate_token.spec _ _ _ _)] at h
  obtain ⟨_, _, _, h⟩ := Proc.run_bind_ok_inv h
  cases h
  rfl

/-- The end of a login puts one row in the place of all rows of the user, with the
time at which its token expires. -/
theorem issue_tokens.spec (settings : Settings) (pwd : PwdContext) {user : Row User}
    (ht : Tidy w) (hu : w.db.users.Has user.id) :
    ∃ row w', (issue_tokens settings pwd user).run w =
        (.ok ⟨new_tokens settings (user_data user) w, user⟩, w') ∧
      Stored w user.id (w.tokens.filter (fun r => decide (r.val.user_id ≠ user.id))) row w' ∧
      row.val.expires_at = w.clock + minutes settings.refresh_token_expire := by
  obtain ⟨row, w', hrun, hstored⟩ := store_refresh_token_in_db.spec pwd
    (new_tokens settings (user_data user) w).refresh_token
    (w.clock + minutes settings.refresh_token_expire) ht hu
  refine ⟨row, w', ?_, hstored⟩
  unfold issue_tokens
  rw [Proc.run_bind_ok (generate_token.spec _ _ _ _)]
  dsimp only
  rw [Proc.run_bind_ok (generate_token.spec _ _ _ _)]
  dsimp only
  exact Proc.run_bind_ok hrun _

/-! ## A rotation -/

theorem rotate.names {claims : Claims} {old : Row RefreshToken} {tokens : TokenPair} {w' : World}
    (h : (rotate settings pwd claims old).run w = (.ok tokens, w')) :
    tokens = new_tokens settings claims w := by
  unfold rotate at h
  rw [Proc.run_bind_ok (generate_token.spec _ _ _ _)] at h
  dsimp only at h
  rw [Proc.run_bind_ok (generate_token.spec _ _ _ _)] at h
  obtain ⟨user_id, _, _, h⟩ := Proc.run_bind_ok_inv h
  obtain ⟨token_hash, _, _, h⟩ := Proc.run_bind_ok_inv h
  obtain ⟨_, _, _, h⟩ := Proc.run_bind_ok_inv h
  cases h
  rfl

/-- A rotation revokes the old row and adds one for the same user. -/
theorem rotate.spec (settings : Settings) (pwd : PwdContext) {claims : Claims} {u : UUID}
    {old : Row RefreshToken}
    (hsub : claims.sub = some (.ofUuid u)) (ht : Tidy w) (hu : w.db.users.Has u)
    (hold : old ∈ w.tokens) :
    ∃ row w', (rotate settings pwd claims old).run w =
        (.ok (new_tokens settings claims w), w') ∧
      Stored w u (w.tokens.map (Table.updateRow old.id
        (RefreshToken.replaced (w.uuids + 1) w.clock))) row w' ∧
      row.val.expires_at = w.clock + minutes settings.refresh_token_expire := by
  let w1 : World := { w with uuids := w.uuids + 3 }
  let t : RefreshToken :=
    { user_id := u, jti := w.uuids + 1,
      token_hash := pwd.hash (w.uuids + 2)
        (pwd.encode (new_tokens settings claims w).refresh_token),
      expires_at := w.clock + minutes settings.refresh_token_expire }
  have hfit : w1.db.refresh_tokens.Fits t := by
    apply fits_of_new_jti
    intro r hr
    exact Nat.ne_of_lt (Nat.lt_succ_of_lt (ht.jti_lt r hr))
  obtain ⟨row, w2, hrun2, hval, hins⟩ := RefreshTokenRepository.create.spec hfit hu
  have hold2 : old ∈ w2.tokens := by
    rw [hins.tokens]
    exact List.mem_append_left _ hold
  have hlock2 : w2.token_locks = [] := hins.locks.trans ht.unlocked
  obtain ⟨r, hrun3⟩ := RefreshTokenRepository.update.spec t.jti w2.clock hold2 hlock2
  refine ⟨row, w2.revoke_token old.id t.jti w2.clock, ?_, ⟨by rw [hval], by rw [hval],
    by rw [hval], ?_, hlock2, hins.uuids, hins.users⟩, by rw [hval]⟩
  · have hrevoke : (revoke_refresh_token t old).run w1 =
        (.ok (), w2.revoke_token old.id t.jti w2.clock) := by
      unfold revoke_refresh_token
      rw [Proc.run_bind_ok hrun2, Proc.run_bind_ok (now.spec w2), Proc.run_bind_ok hrun3]
      rfl
    unfold rotate
    rw [Proc.run_bind_ok (generate_token.spec _ _ _ _)]
    dsimp only
    rw [Proc.run_bind_ok (generate_token.spec _ _ _ _)]
    dsimp only
    have hparse : UUID.parse claims.sub = .ok u := by
      rw [hsub]
      rfl
    rw [hparse, Proc.run_bind_ok (Proc.run_ofExcept _ _),
      Proc.run_bind_ok (hash_password.spec _ _)]
    exact Proc.run_bind_ok hrevoke _
  · -- the update leaves the new row alone: its id is later than that of `old`
    have hne : row.id ≠ old.id := by
      rw [hins.id]
      exact Nat.ne_of_gt (w.db.refresh_tokens.id_lt old hold)
    change w2.tokens.map (Table.updateRow old.id (RefreshToken.replaced t.jti w2.clock)) = _
    rw [hins.tokens, List.map_append, List.map_singleton, Table.updateRow_of_ne hne, hins.clock]
    rfl

/-! ## Which tokens a refresh accepts -/

/-- The token is signed and unexpired, and `old` is its row, not revoked. -/
structure Accepted (settings : Settings) (w : World) (token : Token) (payload : Payload)
    (old : Row RefreshToken) : Prop where
  signed : token = .signed settings.refresh_secret_key payload
  unexpired : payload.unexpired w.clock = true
  sub : payload.claims.sub ≠ none
  stored : old ∈ w.tokens
  jti : payload.jti = some old.val.jti
  live : old.val.revoked = false

/-- Ids are unique: the row that `get_by_jti` finds. -/
theorem get_by_jti.spec (jti : Jti) (w : World) :
    (∃ old ∈ w.tokens, old.val.jti = jti ∧
      (RefreshTokenRepository.get_by_jti jti).run w = (.ok (some old), w)) ∨
    ((∀ r ∈ w.tokens, r.val.jti ≠ jti) ∧
      (RefreshTokenRepository.get_by_jti jti).run w = (.ok none, w)) := by
  unfold RefreshTokenRepository.get_by_jti
  rw [Proc.run_query]
  have hkey : ∀ t : RefreshToken, decide (t.jti = jti) = true → jti ∈ Keyed.keys t := by
    intro t h
    rw [decide_eq_true_iff] at h
    exact List.mem_singleton.mpr h.symm
  rcases Table.select_unique (t := w.db.refresh_tokens) hkey with h | ⟨old, h⟩
  · right
    refine ⟨fun r hr hj => ?_, by rw [h]; rfl⟩
    have hmem : r ∈ w.db.refresh_tokens.select (fun t => decide (t.jti = jti)) :=
      Table.mem_select.mpr ⟨hr, by simpa using hj⟩
    rw [h] at hmem
    cases hmem
  · left
    have hmem : old ∈ w.db.refresh_tokens.select (fun t => decide (t.jti = jti)) := by
      rw [h]
      exact List.mem_singleton_self old
    obtain ⟨hold, hj⟩ := Table.mem_select.mp hmem
    exact ⟨old, hold, by simpa using hj, by rw [h]; rfl⟩

theorem Accepted.verified {token : Token} {payload : Payload} {old : Row RefreshToken}
    (h : Accepted settings w token payload old) :
    token.verify w.clock settings.refresh_secret_key = .ok payload :=
  Token.verify_of h.signed h.unexpired h.sub

/-- Only the row that `get_by_jti` finds can be the one of an accepted token. -/
theorem Accepted.same_row {token : Token} {payload : Payload} {old old' : Row RefreshToken}
    (h : Accepted settings w token payload old) (hold : old' ∈ w.tokens)
    (hj : payload.jti = some old'.val.jti) : old = old' := by
  have hjti := h.jti
  rw [hj, Option.some.injEq] at hjti
  exact Table.eq_of_key (k := old'.val.jti) h.stored hold (List.mem_singleton.mpr hjti)
    (List.mem_singleton_self _)

/-- A signed token has one payload. -/
theorem Accepted.same_payload {token : Token} {payload payload' : Payload}
    {old : Row RefreshToken} {key : Secret} (h : Accepted settings w token payload' old)
    (hsigned : token = .signed key payload) : payload' = payload := by
  have hsame := h.signed
  rw [hsigned, Token.signed.injEq] at hsame
  exact hsame.2.symm

/-- The checks of a refresh: the payload of the token, and its row. -/
def check_token (settings : Settings) (token : Token) : M (Payload × Row RefreshToken) := do
  if token = .empty then httpException 401 "Refresh token is missing."
  else
    let payload ← verify_token token settings.refresh_secret_key
    match payload.jti with
    | none => httpException 401 "Invalid refresh token payload"
    | some jti =>
      let old_token ← RefreshTokenRepository.get_by_jti jti
      let old_token ← Proc.ofExcept (validate_refresh_token old_token)
      pure (payload, old_token)

/-- A refresh is its checks and a rotation. -/
theorem refresh_token.eq (settings : Settings) (pwd : PwdContext) (token : Token) :
    refresh_token settings pwd token = check_token settings token >>= fun (payload, old) =>
      rotate settings pwd payload.claims old := by
  unfold refresh_token check_token
  by_cases hempty : token = .empty
  · rw [if_pos hempty, if_pos hempty]
    rfl
  · rw [if_neg hempty, if_neg hempty, Proc.bind_assoc]
    congr 1
    funext payload
    cases payload.jti with
    | none => rfl
    | some jti =>
      dsimp only
      rw [Proc.bind_assoc]
      congr 1
      funext found
      rw [Proc.bind_assoc]
      rfl

theorem check_token.reads (settings : Settings) (token : Token) :
    (check_token settings token).Reads := by
  unfold check_token
  by_cases hempty : token = .empty
  · rw [if_pos hempty]
    exact fun s t ht => (Proc.trace_raise _ s t).mp ht
  · rw [if_neg hempty]
    refine (Proc.reads_query _).bind fun payload => ?_
    cases payload.jti with
    | none => exact fun s t ht => (Proc.trace_raise _ s t).mp ht
    | some jti =>
      refine Proc.Reads.bind (Proc.reads_query _) fun found => ?_
      exact (Proc.reads_ofExcept _).bind fun old => Proc.reads_pure _

/-- The checks pass an accepted token, and no other. -/
theorem check_token.spec (settings : Settings) (token : Token) (w : World) :
    (∃ payload old, Accepted settings w token payload old ∧
      (check_token settings token).run w = (.ok (payload, old), w)) ∨
    ((∀ payload old, ¬ Accepted settings w token payload old) ∧
      ∃ e, (check_token settings token).run w = (.error e, w)) := by
  unfold check_token
  by_cases hempty : token = .empty
  · rw [if_pos hempty]
    refine Or.inr ⟨fun payload old h => ?_, _, rfl⟩
    rw [hempty] at h
    cases h.signed
  rw [if_neg hempty, verify_token]
  rcases hv : token.verify w.clock settings.refresh_secret_key with e | payload
  · -- `verify_token` refuses
    refine Or.inr ⟨fun payload old h => ?_, e, ?_⟩
    · rw [h.verified] at hv
      cases hv
    · exact Proc.run_bind_error (by rw [Proc.run_query, hv]) _
  have hsame : ∀ payload' old, Accepted settings w token payload' old → payload' = payload :=
    fun payload' old h => Except.ok.inj (h.verified.symm.trans hv)
  have hrun : (Proc.query fun w : World => token.verify w.clock settings.refresh_secret_key).run
      w = (.ok payload, w) := by
    rw [Proc.run_query, hv]
  rw [Proc.run_bind_ok hrun]
  rcases hj : payload.jti with _ | jti
  · refine Or.inr ⟨fun payload' old h => ?_, _, rfl⟩
    have hjti := h.jti
    rw [hsame payload' old h, hj] at hjti
    cases hjti
  dsimp only
  rcases get_by_jti.spec jti w with ⟨old, hold, rfl, hget⟩ | ⟨hnone, hget⟩
  · rw [Proc.run_bind_ok hget]
    rcases hrev : old.val.revoked with _ | _
    · obtain ⟨hsigned, hexp, hsub⟩ := Token.verify_ok hv
      refine Or.inl ⟨payload, old, ⟨hsigned, hexp, hsub, hold, hj, hrev⟩, ?_⟩
      rw [validate_refresh_token, hrev]
      rfl
    · refine Or.inr ⟨fun payload' old' h => ?_,
        .http 401 "Refresh token has been revoked", ?_⟩
      · have hlive := h.live
        have hpayload := hsame payload' old' h
        subst hpayload
        rw [h.same_row hold hj, hrev] at hlive
        cases hlive
      · rw [validate_refresh_token, if_pos hrev]
        exact Proc.run_bind_error (Proc.run_ofExcept _ _) _
  · rw [Proc.run_bind_ok hget]
    refine Or.inr ⟨fun payload' old h => ?_, _, rfl⟩
    have hjti := h.jti
    rw [hsame payload' old h, hj] at hjti
    exact hnone old h.stored (Option.some.inj hjti).symm

/-- A refresh rotates an accepted token, and refuses any other and leaves the
state. -/
theorem refresh_token.spec (settings : Settings) (pwd : PwdContext) (token : Token) (w : World) :
    (∃ payload old, Accepted settings w token payload old ∧
      (refresh_token settings pwd token).run w =
        (rotate settings pwd payload.claims old).run w) ∨
    ((∀ payload old, ¬ Accepted settings w token payload old) ∧
      ∃ e, (refresh_token settings pwd token).run w = (.error e, w)) := by
  rw [refresh_token.eq]
  rcases check_token.spec settings token w with ⟨payload, old, ha, hrun⟩ | ⟨hno, e, he⟩
  · exact Or.inl ⟨payload, old, ha, Proc.run_bind_ok hrun _⟩
  · exact Or.inr ⟨hno, e, Proc.run_bind_error he _⟩

end UserService

/-! ## What a request returns -/

variable {w' : World}

/-- A request that returned tokens: a login of an admitted user, or a refresh of
an accepted token. -/
inductive Made (settings : Settings) (w : World) : AuthRequest → TokenPair → Prop where
  | login {request : LoginRequest} {user : Row User} {w1 : World}
      (h : Admitted w request user w1) :
      Made settings w (.login request) (new_tokens settings (UserService.user_data user) w1)
  | rotation {token : Token} {payload : Payload} {old : Row RefreshToken}
      (h : UserService.Accepted settings w token payload old) :
      Made settings w (.refresh token) (new_tokens settings payload.claims w)

/-- A request that ends without tokens. -/
theorem run_none {α β : Type} {p : M α} {tokens : β}
    (h : (p >>= fun _ => pure none).run w = (.ok (some tokens), w')) : False := by
  obtain ⟨_, _, _, h⟩ := Proc.run_bind_ok_inv h
  cases h

theorem AuthRequest.made {request : AuthRequest} {tokens : TokenPair}
    (h : (request.prog settings pwd).run w = (.ok (some tokens), w')) :
    Made settings w request tokens := by
  cases request with
  | register email username password => exact (run_none h).elim
  | request_code email code => exact (run_none h).elim
  | login request =>
    obtain ⟨login, w1, hlogin, hret⟩ := Proc.run_bind_ok_inv h
    cases hret
    rcases request.issues settings pwd w with ⟨e, w2, he, _⟩ | ⟨user, w2, _, ha, hrun⟩
    · rw [he] at hlogin
      cases hlogin
    · rw [hrun] at hlogin
      rw [UserService.issue_tokens.names hlogin]
      exact .login ha
  | refresh token =>
    obtain ⟨tokens', w1, hrefresh, hret⟩ := Proc.run_bind_ok_inv h
    cases hret
    rcases UserService.refresh_token.spec settings pwd token w with
      ⟨payload, old, ha, hrun⟩ | ⟨_, e, he⟩
    · rw [hrun] at hrefresh
      rw [UserService.rotate.names hrefresh]
      exact .rotation ha
    · rw [he] at hrefresh
      cases hrefresh
  | deactivate authorization =>
    obtain ⟨_, _, _, h⟩ := Proc.run_bind_ok_inv h
    exact (run_none h).elim
  | update_user_status authorization user_id is_active =>
    obtain ⟨_, _, _, h⟩ := Proc.run_bind_ok_inv h
    exact (run_none h).elim

end

namespace Sample

/-- The tokens of eva's first login. -/
def first_tokens : TokenPair := new_tokens settings (UserService.user_data ⟨0, eva⟩) opened.world

end Sample

end saas
