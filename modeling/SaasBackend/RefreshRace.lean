-- Refreshes of one token and logins, side by side: a rotation stores the new
-- row before it revokes the old one, and checks the old one long before both.
import SaasBackend.Interference
import SaasBackend.RefreshHistory

open relational async

namespace saas

/-! ## Live rows -/

/-- The row lets its bearer refresh, and is of `u`. -/
def RefreshToken.live_of (u : UUID) (t : RefreshToken) : Bool :=
  decide (t.user_id = u ∧ t.revoked = false)

/-- The rows of `u` that are not revoked. -/
def World.live_rows (u : UUID) (w : World) : List (Row RefreshToken) :=
  w.tokens.filter (fun r => r.val.live_of u)

/-- One act of a login or a refresh, as the live rows of `u` show it. -/
def LiveStep (u : UUID) (w w' : World) : Prop :=
  (w'.live_rows u).Sublist (w.live_rows u) ∨ ∃ r, r ∉ w.tokens ∧ w'.tokens = w.tokens ++ [r]

/-- If the act stores a live row of `u`, then `u` had none before it. -/
def StoresAlone (u : UUID) (w w' : World) : Prop :=
  ∀ r ∈ w'.tokens, r ∉ w.tokens → r.val.live_of u = true → w.live_rows u = []

instance (u : UUID) (w w' : World) : Decidable (StoresAlone u w w') :=
  inferInstanceAs (Decidable (∀ r ∈ w'.tokens, _))

section

variable {settings : Settings} {pwd : PwdContext} {u : UUID} {token : Token} {w w' : World}

theorem World.mem_live_rows {r : Row RefreshToken} :
    r ∈ w.live_rows u ↔ r ∈ w.tokens ∧ r.val.live_of u = true := by
  unfold World.live_rows
  rw [List.mem_filter]

theorem LiveStep.refl (u : UUID) (w : World) : LiveStep u w w := Or.inl (List.Sublist.refl _)

theorem LiveStep.of_tokens (h : w'.tokens = w.tokens) : LiveStep u w w' := by
  unfold LiveStep World.live_rows
  rw [h]
  exact Or.inl (List.Sublist.refl _)

/-- A map that changes only what it takes out of a filter. -/
theorem sublist_filter_map {α : Type} {p : α → Bool} {f : α → α} (l : List α)
    (h : ∀ a ∈ l, p (f a) = true → f a = a) : ((l.map f).filter p).Sublist (l.filter p) := by
  induction l with
  | nil => exact List.Sublist.refl _
  | cons a l ih =>
    have ih := ih fun b hb => h b (List.mem_cons_of_mem a hb)
    rw [List.map_cons]
    by_cases hp : p (f a) = true
    · have ha := h a List.mem_cons_self hp
      rw [ha] at hp ⊢
      rw [List.filter_cons_of_pos hp, List.filter_cons_of_pos hp]
      exact ih.cons_cons a
    · rw [List.filter_cons_of_neg hp, List.filter_cons]
      split
      · exact ih.cons a
      · exact ih

theorem TokenStep.live (h : TokenStep w w') : LiveStep u w w' := by
  cases h with
  | stay => exact LiveStep.refl u w
  | uuid => exact LiveStep.of_tokens rfl
  | lock => exact LiveStep.of_tokens rfl
  | delete ids => exact Or.inl (List.filter_sublist.filter _)
  | @insert t r db h =>
    obtain ⟨hr, hrows, _⟩ := insert_token_ok h
    exact Or.inr ⟨r, hr ▸ Table.newRow_not_mem _ t, hrows⟩
  | revoke i by_jti t =>
    refine Or.inl (sublist_filter_map w.tokens fun r _ hp => ?_)
    by_cases hi : r.id = i
    · rw [Table.updateRow_of_eq hi] at hp
      simp [RefreshToken.live_of, RefreshToken.replaced] at hp
    · exact Table.updateRow_of_ne hi

/-- A step that stores alone keeps `u` at one live row. -/
theorem LiveStep.one (h : LiveStep u w w') (hC : StoresAlone u w w')
    (hone : (w.live_rows u).length ≤ 1) : (w'.live_rows u).length ≤ 1 := by
  rcases h with h | ⟨r, hr, htokens⟩
  · exact Nat.le_trans h.length_le hone
  · have hlive : w'.live_rows u = w.live_rows u ++ [r].filter (fun r => r.val.live_of u) := by
      unfold World.live_rows
      rw [htokens, List.filter_append]
    by_cases hp : r.val.live_of u = true
    · rw [hlive, hC r (by simp [htokens]) hr hp]
      simp [hp]
    · rw [hlive]
      simpa [hp] using hone

/-- A step that leaves `u` with one live row has stored alone. -/
theorem LiveStep.alone (h : LiveStep u w w') (hone : (w'.live_rows u).length ≤ 1) :
    StoresAlone u w w' := by
  intro r hr hnew hp
  rcases h with h | ⟨r', _, htokens⟩
  · have hmem := h.subset (World.mem_live_rows.mpr ⟨hr, hp⟩)
    exact absurd (World.mem_live_rows.mp hmem).1 hnew
  · have hlive : w'.live_rows u = w.live_rows u ++ [r] := by
      rw [htokens, List.mem_append, List.mem_singleton] at hr
      unfold World.live_rows
      rw [htokens, List.filter_append]
      rcases hr with hr | rfl
      · exact absurd hr hnew
      · simp [hp]
    rw [hlive, List.length_append, List.length_singleton] at hone
    exact List.length_eq_zero_iff.mp (by omega)

/-! ## What a request relies on -/

/-- What acts do to the rows as long as none is revoked: rows go, and new ones
come with new primary keys and ids of tokens. -/
structure Others (token : Token) (w w' : World) : Prop where
  next : w.db.refresh_tokens.next ≤ w'.db.refresh_tokens.next
  uuids : w.uuids ≤ w'.uuids
  rows : ∀ r ∈ w'.tokens, r ∈ w.tokens ∨
    w.db.refresh_tokens.next ≤ r.id ∧ token.jti ≠ some r.val.jti

theorem Others.refl (w : World) : Others token w w :=
  ⟨Nat.le_refl _, Nat.le_refl _, fun _ h => Or.inl h⟩

theorem Others.trans {w'' : World} (h : Others token w w') (h' : Others token w' w'') :
    Others token w w'' where
  next := Nat.le_trans h.next h'.next
  uuids := Nat.le_trans h.uuids h'.uuids
  rows r hr := by
    rcases h'.rows r hr with hr | ⟨hid, hj⟩
    · exact h.rows r hr
    · exact Or.inr ⟨Nat.le_trans h.next hid, hj⟩

theorem Others.rely (token : Token) (u : UUID) : Proc.Rely (Others token) (LiveStep u) :=
  ⟨Others.refl, fun _ _ _ => Others.trans, LiveStep.refl u⟩

theorem Quiet.others {o : UUID → Prop} (h : Quiet o w w') : Others token w w' := by
  have htokens : w'.tokens = w.tokens := congrArg Table.rows h.tokens
  refine ⟨Nat.le_of_eq (congrArg Table.next h.tokens).symm, h.uuids, fun r hr => Or.inl ?_⟩
  rwa [htokens] at hr

theorem Quiet.live {o : UUID → Prop} (h : Quiet o w w') : LiveStep u w w' :=
  LiveStep.of_tokens (congrArg Table.rows h.tokens)

/-- The id of the token is used up: no token that is made from now on gets it. -/
def Used (token : Token) (w : World) : Prop := ∀ j, token.jti = some j → j < w.uuids

theorem Used.others (h : Used token w) (ho : Others token w w') : Used token w' :=
  fun j hj => Nat.lt_of_lt_of_le (h j hj) ho.uuids

/-- The token, if it was ever issued, was issued to `u`. -/
structure Presented (u : UUID) (token : Token) (w : World) : Prop where
  subject : token.subject = some u
  used : Used token w
  owner : ∀ r ∈ w.tokens, token.jti = some r.val.jti → r.val.user_id = u

theorem Presented.others (h : Presented u token w) (ho : Others token w w') :
    Presented u token w' where
  subject := h.subject
  used := h.used.others ho
  owner r hr hj := by
    rcases ho.rows r hr with hr | ⟨_, hne⟩
    · exact h.owner r hr hj
    · exact absurd hj hne

/-- If the row `old` is still there, it is as it was read. -/
structure Held (old : Row RefreshToken) (w : World) : Prop where
  id_lt : old.id < w.db.refresh_tokens.next
  same : ∀ r ∈ w.tokens, r.id = old.id → r = old

theorem Held.of_mem {old : Row RefreshToken} (h : old ∈ w.tokens) : Held old w :=
  ⟨w.db.refresh_tokens.id_lt old h, fun _ hr hid => Table.eq_of_id hr h hid⟩

theorem Held.others {old : Row RefreshToken} (h : Held old w) (ho : Others token w w') :
    Held old w' where
  id_lt := Nat.lt_of_lt_of_le h.id_lt ho.next
  same r hr hid := by
    rcases ho.rows r hr with hr | ⟨hge, _⟩
    · exact h.same r hr hid
    · have hlt := h.id_lt
      omega

/-- The row `old` is gone, for good. -/
structure Gone (old : Row RefreshToken) (w : World) : Prop where
  id_lt : old.id < w.db.refresh_tokens.next
  gone : ∀ r ∈ w.tokens, r.id ≠ old.id

theorem Gone.others {old : Row RefreshToken} (h : Gone old w) (ho : Others token w w') :
    Gone old w' where
  id_lt := Nat.lt_of_lt_of_le h.id_lt ho.next
  gone r hr hid := by
    rcases ho.rows r hr with hr | ⟨hge, _⟩
    · exact h.gone r hr hid
    · have hlt := h.id_lt
      omega

/-! ## The parts of a request, amid the others -/

/-- The program `p` of a pool that refreshes `token` and logs in. -/
abbrev Racing {α : Type} (u : UUID) (token : Token) (Q : Except Err α → World → Prop) (p : M α)
    (w : World) : Prop :=
  p.Amid (Others token) (LiveStep u) (StoresAlone u) Q w

theorem Quiet.racing {α : Type} {o : UUID → Prop} {p : M α} (h : p.Acts (Quiet o)) :
    Racing u token (fun _ t => Others token w t) p w :=
  h.amid (Others.rely token u) (fun _ _ => Quiet.others) fun _ _ => Quiet.live

theorem Quiet.racing_bind {α β : Type} {o : UUID → Prop} {Q : Except Err β → World → Prop}
    {p : M α} {f : α → M β} (h : p.Acts (Quiet o))
    (herr : ∀ e t, Others token w t → Q (.error e) t)
    (hf : ∀ a t, Others token w t → Racing u token Q (f a) t) :
    Racing u token Q (p >>= f) w :=
  h.amid_bind (Others.rely token u) (fun _ _ => Quiet.others) (fun _ _ => Quiet.live) herr hf

/-- The id of a new token is not that of the presented one. -/
theorem generate_token.racing (hj : Used token w) (data : Claims)
    (mins : Nat) (key : Secret) :
    Racing u token (fun r t => Others token w t ∧ ∀ a, r = .ok a → token.jti ≠ some a.2.1)
      (generate_token data mins key) w := by
  refine Proc.amid_attempt (Others.rely token u) (fun t a t' ht hf => ?_)
    fun e t ht => ⟨ht, fun a ha => by cases ha⟩
  cases hf
  have hq : Quiet nobody t { t with uuids := t.uuids + 1 } := Quiet.next_uuid t
  refine ⟨hq.live, fun _ => ⟨hq.others, fun v hv => ⟨ht.trans (hq.others.trans hv), ?_⟩⟩⟩
  rintro a ⟨⟩ hjti
  exact Nat.lt_irrefl _ (hj.others ht _ hjti)

theorem Others.insert {t : RefreshToken} {r : Row RefreshToken} {db : Db}
    (h : w.db.insert_token t = .ok (r, db)) (hj : token.jti ≠ some t.jti) :
    Others token w { w with db := db } := by
  obtain ⟨rfl, hrows, hnext, _⟩ := insert_token_ok h
  refine ⟨?_, Nat.le_refl _, fun r hr => ?_⟩
  · change w.db.refresh_tokens.next ≤ db.refresh_tokens.next
    rw [hnext]
    exact Nat.le_succ _
  · change r ∈ db.refresh_tokens.rows at hr
    rw [hrows, List.mem_append, List.mem_singleton] at hr
    rcases hr with hr | rfl
    · exact Or.inl hr
    · exact Or.inr ⟨Nat.le_refl _, hj⟩

namespace RefreshTokenRepository

/-- An insert, and what is known in the state that it leaves. -/
theorem create.racing {t : RefreshToken} (hj : token.jti ≠ some t.jti)
    {P : World → Prop} (hP : ∀ a b, P a → Others token a b → P b)
    (h : ∀ a r db, Others token w a → a.db.insert_token t = .ok (r, db) →
      StoresAlone u a { a with db := db } → P { a with db := db }) :
    Racing u token (fun r b => Others token w b ∧ ∀ a, r = .ok a → P b) (create t) w := by
  have hR := Others.rely token u
  refine Proc.Amid.bind hR (Proc.amid_attempt hR (fun a r b ha hf => ?_)
    fun e a ha => ⟨ha, fun r hr => by cases hr⟩)
  obtain ⟨⟨r', db⟩, hi, hw⟩ := map_eq_ok hf
  cases hw
  have hins := Others.insert hi hj
  refine ⟨(TokenStep.insert hi).live, fun hC => ⟨hins, fun b hb => ?_⟩⟩
  have hp := h a _ _ ha hi hC
  have hq : (reload r.id).Acts (Quiet nobody) := quiet_query _
  refine Proc.Amid.mono (Quiet.racing hq) fun r c hc => ⟨?_, fun _ _ => ?_⟩
  · exact ha.trans (hins.trans (hb.trans hc))
  · exact hP _ _ hp (hb.trans hc)

theorem revoke_all_for_user.racing (v : UUID) :
    Racing u token (fun _ t => Others token w t) (revoke_all_for_user v) w := by
  have hR := Others.rely token u
  refine Proc.Amid.bind hR (Proc.amid_attempt hR (fun a ids b ha hf => ?_)
    fun e a ha => ha)
  cases hf
  have hlock : Others token a (a.lock_tokens (a.deletable v)) :=
    ⟨Nat.le_refl _, Nat.le_refl _, fun _ h => Or.inl h⟩
  refine ⟨(TokenStep.lock a _).live, fun _ => ⟨hlock, fun b hb => ?_⟩⟩
  refine Proc.amid_attempt hR (fun c _ d hc hf => ?_)
    fun e c hc => ha.trans (hlock.trans (hb.trans hc))
  cases hf
  have hdel : Others token c (c.delete_tokens (a.deletable v)) :=
    ⟨Nat.le_refl _, Nat.le_refl _, fun _ h => Or.inl (List.mem_of_mem_filter h)⟩
  refine ⟨(TokenStep.delete c _).live, fun _ => ⟨hdel, fun d hd => ?_⟩⟩
  exact ha.trans (hlock.trans (hb.trans (hc.trans (hdel.trans hd))))

/-- The `UPDATE` of a row that is gone fails. -/
theorem update.racing {old : Row RefreshToken} (hg : Gone old w) (by_jti : Jti) (t : Time) :
    Racing u token (fun r _ => ∃ e, r = .error e) (update old by_jti t) w := by
  have hR := Others.rely token u
  refine Proc.Amid.bind hR (Proc.amid_attempt hR (fun a r b ha hf => ?_) fun e a ha => ⟨e, rfl⟩)
  split at hf
  · rename_i hcond
    obtain ⟨⟨row, hrow, hid⟩, _⟩ := hcond
    exact absurd hid ((hg.others ha).gone row hrow)
  · cases hf

end RefreshTokenRepository

/-- A live row is stored for `u` alone: the row `old`, once live, is not there. -/
theorem Gone.of_insert {old r : Row RefreshToken} {t : RefreshToken} {db : Db}
    (hh : Held old w) (hlive : old.val.live_of u = true) (ht : t.live_of u = true)
    (h : w.db.insert_token t = .ok (r, db)) (hC : StoresAlone u w { w with db := db }) :
    Gone old { w with db := db } := by
  obtain ⟨rfl, hrows, hnext, _⟩ := insert_token_ok h
  have hmem : w.db.refresh_tokens.newRow t ∈ db.refresh_tokens.rows := by simp [hrows]
  have hnone : w.live_rows u = [] := hC _ hmem (Table.newRow_not_mem _ t) ht
  refine ⟨?_, fun r hr hid => ?_⟩
  · change old.id < db.refresh_tokens.next
    rw [hnext]
    exact Nat.lt_succ_of_lt hh.id_lt
  · change r ∈ db.refresh_tokens.rows at hr
    rw [hrows, List.mem_append, List.mem_singleton] at hr
    rcases hr with hr | rfl
    · have hold : old ∈ w.live_rows u :=
        World.mem_live_rows.mpr ⟨hh.same r hr hid ▸ hr, hlive⟩
      rw [hnone] at hold
      cases hold
    · exact absurd hid (Nat.ne_of_gt hh.id_lt)

/-! ## Logins -/

theorem store_refresh_token_in_db.racing {jti : Jti} (hj : token.jti ≠ some jti) (v : UUID)
    (t : Token) (exp : Time) :
    Racing u token (fun _ _ => True) (store_refresh_token_in_db pwd v jti t exp) w := by
  have hR := Others.rely token u
  refine Quiet.racing_bind (o := nobody) (hash_password.quiet _) (fun _ _ _ => trivial) ?_
  intro token_hash a _
  refine Proc.Amid.bind hR ((RefreshTokenRepository.revoke_all_for_user.racing v).mono ?_)
  rintro (e | _) b _
  · trivial
  · refine Proc.Amid.bind hR ((RefreshTokenRepository.create.racing (P := fun _ => True) hj
      (fun _ _ _ _ => trivial) fun _ _ _ _ _ _ => trivial).mono ?_)
    rintro (e | row) c _
    · trivial
    · exact Proc.amid_pure fun _ _ => trivial

namespace UserService

theorem issue_tokens.racing (hj : Used token w) (user : Row User) :
    Racing u token (fun _ _ => True) (issue_tokens settings pwd user) w := by
  have hR := Others.rely token u
  refine Quiet.racing_bind (o := nobody) (generate_token.quiet _ _ _) (fun _ _ _ => trivial) ?_
  intro access a ha
  refine Proc.Amid.bind hR ((generate_token.racing (hj.others ha) _ _ _).mono ?_)
  rintro (e | refresh) b hb
  · trivial
  · refine Proc.Amid.bind hR ((store_refresh_token_in_db.racing (hb.2 _ rfl) _ _ _).mono ?_)
    rintro (e | _) c _
    · trivial
    · exact Proc.amid_pure fun _ _ => trivial

end UserService

theorem LoginRequest.racing (hj : Used token w) (request : LoginRequest) :
    Racing u token (fun _ _ => True) (request.prog settings pwd) w := by
  refine request.leads.amid (Others.rely token u) (fun _ _ => Quiet.others) (fun _ _ => Quiet.live)
    ?_ fun _ _ _ => trivial
  rintro _ t ⟨user, rfl⟩ ht
  exact UserService.issue_tokens.racing (hj.others ht) user

namespace UserService

/-! ## Refreshes -/

/-- A rotation that stores its row alone finds the old row gone, and fails. -/
theorem rotate.racing {claims : Claims} {old : Row RefreshToken}
    (hsub : claims.sub = some (.ofUuid u)) (hj : Used token w)
    (hlive : old.val.live_of u = true) (hh : Held old w) :
    Racing u token (fun r _ => ∃ e, r = .error e) (rotate settings pwd claims old) w := by
  have hR := Others.rely token u
  refine Quiet.racing_bind (o := nobody) (generate_token.quiet _ _ _)
    (fun e _ _ => ⟨e, rfl⟩) ?_
  intro access a ha
  refine Proc.Amid.bind hR ((generate_token.racing (hj.others ha) _ _ _).mono ?_)
  rintro (e | ⟨refresh, jti, exp⟩) b ⟨hb, hnew⟩
  · exact ⟨e, rfl⟩
  have hne := hnew _ rfl
  have hparse : UUID.parse claims.sub = .ok u := by
    rw [hsub]
    rfl
  refine Proc.Amid.bind hR (Proc.amid_ofExcept fun b' hb' => ?_)
  rw [hparse]
  refine Quiet.racing_bind (o := nobody) (hash_password.quiet _) (fun e _ _ => ⟨e, rfl⟩) ?_
  intro token_hash c hc
  have hhc : Held old c := hh.others (ha.trans (hb.trans (hb'.trans hc)))
  refine Proc.Amid.bind hR (Proc.Amid.mono (Q := fun r _ => ∃ e, r = .error e) ?_ ?_)
  · refine Proc.Amid.bind hR ((RefreshTokenRepository.create.racing (P := Gone old) hne
      (fun _ _ => Gone.others) fun d r db hd hi hC => ?_).mono ?_)
    · exact Gone.of_insert (hhc.others hd) hlive (by simp [RefreshToken.live_of]) hi hC
    · rintro (e | row) d ⟨_, hgone⟩
      · exact ⟨e, rfl⟩
      · refine Quiet.racing_bind (o := nobody) now.quiet (fun e _ _ => ⟨e, rfl⟩) ?_
        intro revoked_at f hf
        refine Proc.Amid.bind hR ((RefreshTokenRepository.update.racing
          ((hgone row rfl).others hf) _ _).mono ?_)
        rintro r g ⟨e, rfl⟩
        exact ⟨e, rfl⟩
  · rintro r d ⟨e, rfl⟩
    exact ⟨e, rfl⟩

/-- As long as every row of `u` is stored alone, no refresh of the token succeeds. -/
theorem refresh_token.racing (h : Presented u token w) :
    Racing u token (fun r _ => ∃ e, r = .error e) (refresh_token settings pwd token) w := by
  have hR := Others.rely token u
  unfold refresh_token
  by_cases hempty : token = .empty
  · rw [if_pos hempty]
    exact Proc.amid_raise fun _ _ => ⟨_, rfl⟩
  rw [if_neg hempty]
  refine Proc.Amid.bind hR (Proc.amid_query hR (fun a payload ha hv b hb => ?_)
    fun e _ _ => ⟨e, rfl⟩)
  obtain ⟨hsigned, _, _⟩ := Token.verify_ok hv
  rcases hj : payload.jti with _ | jti
  · simp only [hj]
    exact Proc.amid_raise fun _ _ => ⟨_, rfl⟩
  simp only [hj]
  have hjti : token.jti = some jti := by
    rw [hsigned]
    exact hj
  have hsub : payload.claims.sub = some (.ofUuid u) := by
    have hs := h.subject
    rw [hsigned] at hs
    exact Token.subject_signed.mp hs
  refine Proc.Amid.bind hR (Proc.amid_query hR (fun c found hc hfound d hd => ?_)
    fun e _ _ => ⟨e, rfl⟩)
  refine Proc.Amid.bind hR (Proc.amid_ofExcept fun f hf => ?_)
  rcases found with _ | old
  · exact ⟨_, rfl⟩
  · have hPc : Presented u token c := h.others (ha.trans (hb.trans hc))
    obtain ⟨hold, hoj⟩ := Table.mem_select.mp (mem_of_scalar_one_or_none hfound)
    have howner : old.val.user_id = u := by
      apply hPc.owner old hold
      rw [hjti, decide_eq_true_iff.mp hoj]
    by_cases hrev : old.val.revoked = true
    · simp only [validate_refresh_token, hrev, if_true]
      exact ⟨_, rfl⟩
    · rw [Bool.not_eq_true] at hrev
      simp only [validate_refresh_token, hrev]
      exact rotate.racing hsub (hPc.others (hd.trans hf)).used
        (by simp [RefreshToken.live_of, howner, hrev]) ((Held.of_mem hold).others (hd.trans hf))

end UserService

/-! ## The pool -/

/-- What may be served at once: refreshes of one token, and logins. -/
inductive Racer (token : Token) : AuthRequest → Prop where
  | refresh : Racer token (.refresh token)
  | login (request : LoginRequest) : Racer token (.login request)

/-- The requests have come, and none has begun. -/
def race (settings : Settings) (pwd : PwdContext) (requests : List AuthRequest) (w : World) :
    Pool World Err (Option TokenPair) :=
  (requests.map (fun request => request.prog settings pwd), w)

/-- Request `i` has returned tokens. -/
def Succeeded (c : Pool World Err (Option TokenPair)) (i : Nat) : Prop :=
  (c.1[i]?.bind Proc.returned).isSome = true

theorem race_amid (settings : Settings) (pwd : PwdContext) {requests : List AuthRequest}
    (hreq : ∀ request ∈ requests, Racer token request)
    (h : Presented u token w) :
    Pool.Amid (Others token) (LiveStep u) (StoresAlone u)
      (fun i r _ => requests[i]? = some (.refresh token) → ∃ e, r = .error e)
      (race settings pwd requests w) := by
  intro i p hp
  obtain ⟨request, hi, rfl⟩ := Option.map_eq_some_iff.mp ((List.getElem?_map ..).symm.trans hp)
  have hR := Others.rely token u
  cases hreq request (List.mem_of_getElem? hi) with
  | refresh =>
    refine Proc.Amid.bind hR ((UserService.refresh_token.racing h).mono ?_)
    rintro r t ⟨e, rfl⟩ _
    exact ⟨e, rfl⟩
  | login request =>
    refine Proc.Amid.bind hR ((request.racing h.used).mono ?_)
    rintro (e | login) t _
    · intro hi'
      exact ⟨e, rfl⟩
    · refine Proc.amid_pure fun t' _ hi' => ?_
      rw [hi] at hi'
      cases hi'

/-! ## The law -/

/-- In every state of the schedule `u` has at most one live row, and at most one
refresh of the token succeeds, exactly when no request stores a row for `u` while
`u` still has one. -/
theorem refresh_race {requests : List AuthRequest}
    (hreq : ∀ request ∈ requests, Racer token request) (h : Presented u token w)
    (hone : (w.live_rows u).length ≤ 1) (schedule : List Nat) :
    (Pool.Always (fun t => (t.live_rows u).length ≤ 1) (race settings pwd requests w) schedule ∧
      ∀ i k, requests[i]? = some (.refresh token) → requests[k]? = some (.refresh token) →
        Succeeded (Pool.run (race settings pwd requests w) schedule) i →
        Succeeded (Pool.run (race settings pwd requests w) schedule) k → i = k) ↔
      Pool.Every (StoresAlone u) (race settings pwd requests w) schedule := by
  have hR := Others.rely token u
  have hamid := race_amid settings pwd hreq h
  have hiff := hamid.always_iff hR (P := fun t => (t.live_rows u).length ≤ 1) hone
    (fun s t hG hs => ⟨hG.alone, fun hC => hG.one hC hs⟩) schedule
  rw [hiff]
  refine ⟨fun hboth => hboth.1, fun hC => ⟨hC, fun i k hi _ hsi _ => ?_⟩⟩
  -- no refresh can have succeeded
  obtain ⟨tokens, hret⟩ := Option.isSome_iff_exists.mp hsi
  obtain ⟨e, he⟩ := (hamid.run hR hC).returned hR hret hi
  cases he

/-- What a sequential run leaves: the last token of `u` can be presented. -/
theorem History.presented {s : Accounts} (h : History settings s)
    (hlast : s.last_issued u = some token) :
    Presented u token s.world ∧ (s.world.live_rows u).length ≤ 1 := by
  obtain ⟨hsub, _⟩ := Accounts.mem_of_last_issued hlast
  obtain ⟨old, hold, _, hu, hj⟩ := h.last u token hlast
  have hsame : ∀ r ∈ s.world.tokens, token.jti = some r.val.jti → r = old := by
    intro r hr hjr
    rw [hj, Option.some.injEq] at hjr
    exact Table.eq_of_key (k := old.val.jti) hr hold (List.mem_singleton.mpr hjr)
      (List.mem_singleton_self _)
  refine ⟨⟨hsub, fun j hj' => ?_, fun r hr hjr => ?_⟩, ?_⟩
  · rw [hj, Option.some.injEq] at hj'
    exact hj' ▸ h.tidy.jti_lt old hold
  · rw [hsame r hr hjr, hu]
  · have hlive : ∀ r ∈ s.world.live_rows u, r = old := by
      intro r hr
      obtain ⟨hr, hp⟩ := World.mem_live_rows.mp hr
      obtain ⟨hru, hrev⟩ := decide_eq_true_iff.mp hp
      obtain ⟨t, ht, hjt⟩ := h.live r hr hrev
      rw [hru, hlast, Option.some.injEq] at ht
      exact hsame r hr (ht ▸ hjt)
    rcases Table.nil_or_singleton ((Table.nodup_rows _).filter _)
      (fun a ha b hb => (hlive a ha).trans (hlive b hb).symm) with h0 | ⟨r, h1⟩
    · exact Nat.le_trans (Nat.le_of_eq (congrArg List.length h0)) (Nat.zero_le 1)
    · exact Nat.le_of_eq (congrArg List.length h1)

end

namespace Sample

/-- Eva has logged in once. -/
def logged_in : Accounts := (accounts settings pwd).exec opened [login_of_eva]

theorem logged_in_reachable : (accounts settings pwd).Reachable Unused logged_in :=
  ⟨opened, [login_of_eva], ⟨rfl, rfl, rfl⟩, .of_path (by decide)⟩

def refresh_of_eva : AuthRequest := .refresh first_tokens.refresh_token

end Sample

open Sample in
/-- Eva logs in again, and then her first token is refused. -/
theorem refresh_race_sample :
    Pool.Always (fun t => (t.live_rows 0).length ≤ 1)
      (race settings pwd
        [refresh_of_eva, .login (.password "eva@example.com" "secret")] logged_in.world)
      (List.replicate 9 1 ++ List.replicate 3 0) := by
  have hp := (History.of_reachable logged_in_reachable).presented (u := 0)
    (show logged_in.last_issued 0 = some first_tokens.refresh_token by decide)
  refine ((refresh_race ?_ hp.1 hp.2 _).mpr (by decide)).1
  intro request hmem
  rcases List.mem_cons.mp hmem with rfl | hmem
  · exact .refresh
  · rw [List.mem_singleton.mp hmem]
    exact .login _

open Sample in
/-- Both refreshes look at the row before either of them stores a new one: both
succeed, and eva has two live rows. -/
theorem refresh_token_used_twice : ∃ s schedule,
    (accounts settings pwd).Reachable Unused s ∧
    s.last_issued 0 = some first_tokens.refresh_token ∧
    Succeeded (Pool.run (race settings pwd [refresh_of_eva, refresh_of_eva] s.world) schedule) 0 ∧
    Succeeded (Pool.run (race settings pwd [refresh_of_eva, refresh_of_eva] s.world) schedule) 1 ∧
    ((Pool.run (race settings pwd [refresh_of_eva, refresh_of_eva] s.world)
      schedule).2.live_rows 0).length = 2 :=
  ⟨logged_in, [0, 0, 1, 1] ++ List.replicate 8 0 ++ List.replicate 8 1, logged_in_reachable,
    by decide, by unfold Succeeded; decide, by unfold Succeeded; decide, by decide⟩

end saas
