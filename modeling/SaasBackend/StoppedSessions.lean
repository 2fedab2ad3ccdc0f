-- The refresh tokens that are accepted when a request has been stopped: all or
-- nothing, save between the two commits of a login or of a rotation.
import SaasBackend.TokenSwap

open relational async

namespace saas

/-! ## The accepted tokens of an account -/

/-- The ids of the tokens of `u` whose rows are not revoked and not expired. -/
def World.accepted (w : World) (u : UUID) : List Jti :=
  ((w.live_rows u).filter fun r => decide (timegm w.clock ≤ timegm r.val.expires_at)).map
    (·.val.jti)

/-- The token was made for the row. -/
def MadeFor (settings : Settings) (r : Row RefreshToken) (token : Token) : Prop :=
  token.secret_key = some settings.refresh_secret_key ∧ token.subject = some r.val.user_id ∧
    token.payload.bind Payload.exp = some (timegm r.val.expires_at) ∧
    token.jti = some r.val.jti

instance (settings : Settings) (r : Row RefreshToken) (token : Token) :
    Decidable (MadeFor settings r token) := inferInstanceAs (Decidable (_ ∧ _))

section

variable {settings : Settings} {pwd : PwdContext} {w : World} {u : UUID} {token : Token}
  {r : Row RefreshToken}

theorem World.mem_accepted {j : Jti} : j ∈ w.accepted u ↔ ∃ r ∈ w.live_rows u,
    timegm w.clock ≤ timegm r.val.expires_at ∧ r.val.jti = j := by
  unfold World.accepted
  simp only [List.mem_map, List.mem_filter, decide_eq_true_eq, and_assoc]

theorem MadeFor.signed (h : MadeFor settings r token) :
    ∃ payload, token = .signed settings.refresh_secret_key payload ∧
      payload.claims.sub = some (.ofUuid r.val.user_id) ∧
      payload.exp = some (timegm r.val.expires_at) ∧ payload.jti = some r.val.jti := by
  obtain ⟨hkey, hsub, hexp, hjti⟩ := h
  cases token with
  | signed key payload =>
    obtain rfl := Option.some.inj hkey
    exact ⟨payload, rfl, Token.subject_signed.mp hsub, hexp, hjti⟩
  | _ => cases hkey

/-- The row of a token that `refresh_token` lets pass. -/
theorem MadeFor.accepted_row (h : MadeFor settings r token) (hr : r ∈ w.tokens) :
    (∃ payload old, UserService.Accepted settings w token payload old) ↔
      r.val.jti ∈ w.accepted r.val.user_id := by
  obtain ⟨payload, hsigned, hsub, hexp, hjti⟩ := h.signed
  have hcheck : payload.unexpired w.clock = decide (timegm w.clock ≤ timegm r.val.expires_at) := by
    unfold Payload.unexpired
    rw [hexp]
    rfl
  constructor
  · rintro ⟨payload', old, ha⟩
    obtain rfl := ha.same_payload hsigned
    have hrow : old = r := ha.same_row hr hjti
    subst hrow
    have htime := ha.unexpired
    rw [hcheck, decide_eq_true_iff] at htime
    refine World.mem_accepted.mpr ⟨old, World.mem_live_rows.mpr ⟨hr, ?_⟩, htime, rfl⟩
    simp [RefreshToken.live_of, ha.live]
  · intro h
    obtain ⟨r', hr', htime, hj⟩ := World.mem_accepted.mp h
    obtain ⟨hmem, hlive⟩ := World.mem_live_rows.mp hr'
    have hrow : r' = r := Table.eq_of_key (k := r.val.jti) hmem hr
      (List.mem_singleton.mpr hj.symm) (List.mem_singleton_self _)
    subst hrow
    refine ⟨payload, r', hsigned, ?_, ?_, hr, hjti, ?_⟩
    · rw [hcheck]
      exact decide_eq_true htime
    · rw [hsub]
      exact Option.some_ne_none _
    · simpa [RefreshToken.live_of] using hlive

/-- Between requests, a refresh returns new tokens for a token exactly when its id
is accepted. -/
theorem refresh_token.succeeds_iff (ht : Tidy w) (hr : r ∈ w.tokens)
    (h : MadeFor settings r token) :
    (∃ tokens, ((UserService.refresh_token settings pwd token).run w).1 = .ok tokens) ↔
      r.val.jti ∈ w.accepted r.val.user_id := by
  rw [← h.accepted_row hr]
  obtain ⟨payload, hsigned, hsub, hexp, hjti⟩ := h.signed
  rcases UserService.refresh_token.spec settings pwd token w with
    ⟨payload', old, ha, hrun⟩ | ⟨hno, e, he⟩
  · refine ⟨fun _ => ⟨payload', old, ha⟩, fun _ => ?_⟩
    obtain rfl := ha.same_payload hsigned
    have hrow : old = r := ha.same_row hr hjti
    subst hrow
    have hu := w.db.fk_token_user old hr old.val.user_id rfl
    obtain ⟨row, w', hrotate, _⟩ := UserService.rotate.spec settings pwd hsub ht hu hr
    exact ⟨_, by rw [hrun, hrotate]⟩
  · rw [he]
    constructor
    · rintro ⟨tokens, h⟩
      cases h
    · rintro ⟨payload', old, ha⟩
      exact absurd ha (hno payload' old)

end

section

variable {settings : Settings} {pwd : PwdContext} {w : World}

open UserService

/-! ## The requests, stopped -/

theorem Calm.leaving {w₁ : World} (h : Calm w w₁) : Leaving w w.tokens w₁ :=
  ⟨congrArg Table.rows h.tokens, h.uuids, h.clock⟩

theorem Calm.tidy {w₁ : World} (h : Calm w w₁) (ht : Tidy w) : Tidy w₁ where
  unlocked := h.locks.trans ht.unlocked
  jti_lt r hr := by
    unfold World.tokens at hr
    rw [h.tokens] at hr
    exact Nat.lt_of_lt_of_le (ht.jti_lt r hr) h.uuids

theorem Leaving.after {rows : List (Row RefreshToken)} {w₁ w' : World}
    (h : Leaving w₁ rows w') (hc : Calm w w₁) : Leaving w rows w' :=
  ⟨h.tokens, Nat.le_trans hc.uuids h.uuids, h.clock.trans hc.clock⟩

theorem Fresh.after {u : UUID} {row : Row RefreshToken} {w₁ w' : World} (h : Fresh w₁ u row w')
    (hc : Calm w w₁) : Fresh w u row w' where
  user_id := h.user_id
  new r hr := by
    refine h.new r ?_
    unfold World.tokens
    rw [hc.tokens]
    exact hr
  used := h.used
  live := h.live
  unexpired := hc.clock ▸ h.unexpired

/-! ## What is accepted after it -/

/-- The tokens of every account are the ones from before, or one new token. -/
def AllOrNothing (w w' : World) : Prop :=
  ∀ u, w'.accepted u = w.accepted u ∨
    ∃ row ∈ w'.tokens, (∀ r ∈ w.tokens, r.val.jti ≠ row.val.jti) ∧
      w'.accepted u = [row.val.jti]

/-- No account has two rows that are not revoked. -/
def SingleRows (w : World) : Prop := ∀ u, (w.live_rows u).length ≤ 1

/-- The ids of the accepted tokens among these rows of one account. -/
def unexpired_ids (t : Time) (rows : List (Row RefreshToken)) : List Jti :=
  (rows.filter fun r => decide (timegm t ≤ timegm r.val.expires_at)).map (·.val.jti)

theorem World.accepted_eq (w : World) (u : UUID) :
    w.accepted u = unexpired_ids w.clock (w.live_rows u) := rfl

theorem unexpired_ids_append (t : Time) (rows rows' : List (Row RefreshToken)) :
    unexpired_ids t (rows ++ rows') = unexpired_ids t rows ++ unexpired_ids t rows' := by
  unfold unexpired_ids
  rw [List.filter_append, List.map_append]

variable {w' : World} {rows : List (Row RefreshToken)} {u v : UUID} {row old : Row RefreshToken}

theorem Leaving.live_rows (h : Leaving w rows w') (u : UUID) :
    w'.live_rows u = rows.filter (fun r => r.val.live_of u) := by
  unfold World.live_rows
  rw [h.tokens]

theorem Leaving.accepted (h : Leaving w rows w') (u : UUID) :
    w'.accepted u = unexpired_ids w.clock (rows.filter fun r => r.val.live_of u) := by
  rw [World.accepted_eq, h.clock, h.live_rows]

/-- The rows of `v` when those of `u` are gone. -/
theorem live_without (w : World) (u v : UUID) :
    (w.tokens.filter fun r => decide (r.val.user_id ≠ u)).filter (fun r => r.val.live_of v) =
      if v = u then [] else w.live_rows v := by
  rw [List.filter_filter]
  by_cases hv : v = u
  · rw [if_pos hv, List.filter_eq_nil_iff]
    intro r _
    simp only [RefreshToken.live_of, hv]
    grind
  · rw [if_neg hv]
    refine List.filter_congr fun r _ => ?_
    by_cases hr : r.val.user_id = v
    · simp [RefreshToken.live_of, hr, hv]
    · simp [RefreshToken.live_of, hr]

theorem live_revoked (w : World) (old : Row RefreshToken) (j : Jti) (v : UUID) :
    (w.tokens.map (Table.updateRow old.id (RefreshToken.replaced j w.clock))).filter
        (fun r => r.val.live_of v) =
      (w.live_rows v).filter fun r => decide (r.id ≠ old.id) := by
  unfold World.live_rows
  induction w.tokens with
  | nil => rfl
  | cons r rows ih =>
    rw [List.map_cons]
    by_cases hid : r.id = old.id
    · have hdead : (RefreshToken.replaced j w.clock r.val).live_of v = false := by
        simp [RefreshToken.live_of, RefreshToken.replaced]
      rw [Table.updateRow_of_eq hid, List.filter_cons_of_neg (by simp [hdead]), ih]
      by_cases hlive : r.val.live_of v = true
      · simp [hlive, hid]
      · simp [hlive]
    · rw [Table.updateRow_of_ne hid, List.filter_cons, ih]
      by_cases hlive : r.val.live_of v = true
      · simp [hlive, hid]
      · simp [hlive]

/-- Without the live row `old`, its user has none. -/
theorem SingleRows.without (hs : SingleRows w) (hold : old ∈ w.live_rows old.val.user_id)
    (v : UUID) : ((w.live_rows v).filter fun r => decide (r.id ≠ old.id)) =
      if v = old.val.user_id then [] else w.live_rows v := by
  by_cases hv : v = old.val.user_id
  · rw [if_pos hv, hv, List.filter_eq_nil_iff]
    intro r hr
    have hone : (w.live_rows old.val.user_id).length = 1 :=
      Nat.le_antisymm (hs _) (List.length_pos_of_mem hold)
    obtain ⟨only, honly⟩ := List.length_eq_one_iff.mp hone
    rw [honly, List.mem_singleton] at hr hold
    simp [hr, hold]
  · rw [if_neg hv, List.filter_eq_self]
    intro r hr
    obtain ⟨hmem, hlive⟩ := World.mem_live_rows.mp hr
    refine decide_eq_true fun hid => hv ?_
    have hrow : r = old := Table.eq_of_id hmem (World.mem_live_rows.mp hold).1 hid
    unfold RefreshToken.live_of at hlive
    rw [hrow, decide_eq_true_iff] at hlive
    exact hlive.1.symm

/-- The new row is live for its user, and for nobody else. -/
theorem Fresh.live_rows (h : Fresh w u row w') (v : UUID) :
    [row].filter (fun r => r.val.live_of v) = if v = u then [row] else [] := by
  have hlive : row.val.live_of v = decide (u = v) := by
    unfold RefreshToken.live_of
    rw [h.user_id, h.live]
    simp
  by_cases hv : v = u
  · rw [if_pos hv, List.filter_cons_of_pos (by rw [hlive, hv]; simp)]
    rfl
  · rw [if_neg hv, List.filter_cons_of_neg (by rw [hlive]; simpa using fun h => hv h.symm)]
    rfl

theorem Fresh.id (h : Fresh w u row w') : unexpired_ids w.clock [row] = [row.val.jti] := by
  unfold unexpired_ids
  rw [List.filter_cons_of_pos (by simpa using h.unexpired)]
  rfl

/-- What a stopped request has done to the rows of tokens, where it has done all or
nothing. -/
inductive Swapped (w w' : World) : Prop
  | kept (h : Leaving w w.tokens w')
  | emptied (u : UUID) (hnone : w.accepted u = [])
      (h : Leaving w (w.tokens.filter fun r => decide (r.val.user_id ≠ u)) w')
  | issued (u : UUID) (row : Row RefreshToken) (hrow : Fresh w u row w')
      (h : Leaving w (w.tokens.filter (fun r => decide (r.val.user_id ≠ u)) ++ [row]) w')
  | rotated (old row : Row RefreshToken) (hold : old ∈ w.live_rows old.val.user_id)
      (hrow : Fresh w old.val.user_id row w')
      (h : Leaving w (w.tokens.map (Table.updateRow old.id
        (RefreshToken.replaced row.val.jti w.clock)) ++ [row]) w')

/-- It has stopped between its two commits. -/
inductive Torn (w w' : World) : Prop
  | emptied (u : UUID) (hsome : w.accepted u ≠ [])
      (h : Leaving w (w.tokens.filter fun r => decide (r.val.user_id ≠ u)) w')
  | doubled (u : UUID) (row : Row RefreshToken) (hsome : w.accepted u ≠ [])
      (hrow : Fresh w u row w') (h : Leaving w (w.tokens ++ [row]) w')

theorem Swapped.all_or_nothing (h : Swapped w w') (hs : SingleRows w) : AllOrNothing w w' := by
  intro v
  cases h with
  | kept h => exact Or.inl (h.accepted v)
  | emptied u hnone h =>
    rw [h.accepted, live_without]
    by_cases hv : v = u
    · subst hv
      rw [if_pos rfl, hnone]
      exact Or.inl rfl
    · rw [if_neg hv]
      exact Or.inl rfl
  | issued u row hrow h =>
    have hmem : row ∈ w'.tokens := by
      rw [h.tokens]
      exact List.mem_append_right _ (List.mem_singleton_self row)
    rw [h.accepted, List.filter_append, live_without, hrow.live_rows, unexpired_ids_append]
    by_cases hv : v = u
    · rw [if_pos hv, if_pos hv, hrow.id]
      exact Or.inr ⟨row, hmem, hrow.new, rfl⟩
    · rw [if_neg hv, if_neg hv]
      exact Or.inl (List.append_nil _)
  | rotated old row hold hrow h =>
    have hmem : row ∈ w'.tokens := by
      rw [h.tokens]
      exact List.mem_append_right _ (List.mem_singleton_self row)
    rw [h.accepted, List.filter_append, live_revoked, hrow.live_rows, unexpired_ids_append,
      hs.without hold]
    by_cases hv : v = old.val.user_id
    · rw [if_pos hv, if_pos hv, hrow.id]
      exact Or.inr ⟨row, hmem, hrow.new, rfl⟩
    · rw [if_neg hv, if_neg hv]
      exact Or.inl (List.append_nil _)

theorem Swapped.single_rows (h : Swapped w w') (hs : SingleRows w) : SingleRows w' := by
  intro v
  cases h with
  | kept h =>
    rw [h.live_rows]
    exact hs v
  | emptied u _ h =>
    rw [h.live_rows, live_without]
    split
    · exact Nat.zero_le 1
    · exact hs v
  | issued u row hrow h =>
    rw [h.live_rows, List.filter_append, live_without, hrow.live_rows]
    split
    · exact Nat.le_refl 1
    · rw [List.append_nil]
      exact hs v
  | rotated old row hold hrow h =>
    rw [h.live_rows, List.filter_append, live_revoked, hs.without hold, hrow.live_rows]
    split
    · exact Nat.le_refl 1
    · rw [List.append_nil]
      exact hs v

theorem Torn.not_all_or_nothing (h : Torn w w') : ¬ AllOrNothing w w' := by
  intro hall
  cases h with
  | emptied u hsome h =>
    have hnone : w'.accepted u = [] := by
      rw [h.accepted, live_without, if_pos rfl]
      rfl
    rcases hall u with hsame | ⟨row, _, _, hone⟩
    · rw [hnone] at hsame
      exact hsome hsame.symm
    · rw [hnone] at hone
      cases hone
  | doubled u row hsome hrow h =>
    have hboth : w'.accepted u = w.accepted u ++ [row.val.jti] := by
      rw [h.accepted, List.filter_append, hrow.live_rows, if_pos rfl, unexpired_ids_append,
        hrow.id]
      rfl
    have hlength := congrArg List.length hboth
    rw [List.length_append, List.length_singleton] at hlength
    rcases hall u with hsame | ⟨row', _, _, hone⟩
    · rw [hsame] at hlength
      omega
    · rw [hone, List.length_singleton] at hlength
      exact hsome (List.length_eq_zero_iff.mp (by omega))

/-- The rows that are left have ids that are used up. -/
theorem Swapped.jti_lt (h : Swapped w w') (ht : Tidy w) :
    ∀ r ∈ w'.tokens, r.val.jti < w'.uuids := by
  intro r hr
  have hold : w.uuids ≤ w'.uuids → ∀ r ∈ w.tokens, r.val.jti < w'.uuids :=
    fun huuids r hr => Nat.lt_of_lt_of_le (ht.jti_lt r hr) huuids
  cases h with
  | kept h =>
    rw [h.tokens] at hr
    exact hold h.uuids r hr
  | emptied u _ h =>
    rw [h.tokens] at hr
    exact hold h.uuids r (List.mem_of_mem_filter hr)
  | issued u row hrow h =>
    rw [h.tokens, List.mem_append, List.mem_singleton] at hr
    rcases hr with hr | rfl
    · exact hold h.uuids r (List.mem_of_mem_filter hr)
    · exact hrow.used
  | rotated old row _ hrow h =>
    rw [h.tokens, List.mem_append, List.mem_singleton] at hr
    rcases hr with hr | rfl
    · obtain ⟨r₀, hr₀, rfl⟩ := List.mem_map.mp hr
      have hjti : (Table.updateRow old.id (RefreshToken.replaced row.val.jti w.clock) r₀).val.jti =
          r₀.val.jti := by
        unfold Table.updateRow
        split <;> rfl
      rw [hjti]
      exact hold h.uuids r₀ hr₀
    · exact hrow.used

/-- Nothing is accepted for an account that is not there. -/
theorem World.accepted_of_absent (hu : ¬ w.db.users.Has u) : w.accepted u = [] := by
  have hnone : w.live_rows u = [] := by
    unfold World.live_rows
    refine List.filter_eq_nil_iff.mpr fun r hr hlive => hu ?_
    unfold RefreshToken.live_of at hlive
    rw [decide_eq_true_iff] at hlive
    exact hlive.1 ▸ w.db.fk_token_user r hr r.val.user_id rfl
  rw [World.accepted_eq, hnone]
  rfl

end

/-! ## The requests, stopped -/

section

variable (settings : Settings) (pwd : PwdContext) (w : World)

/-- The token is one of those that are accepted. -/
def World.takes (token : Token) : Prop :=
  ∃ r ∈ w.tokens, MadeFor settings r token ∧ r.val.jti ∈ w.accepted r.val.user_id

/-- Signatures cannot be forged: a token with the key and the id of a stored row
is the one that was made for it. -/
def AuthRequest.Genuine (request : AuthRequest) : Prop :=
  ∀ token ∈ request.presented, token.secret_key = some settings.refresh_secret_key →
    ∀ r ∈ w.tokens, token.jti = some r.val.jti → MadeFor settings r token

/-- The request is between its two commits when it stops: a login has deleted the
tokens of its user and still has to store the new one, or a rotation has stored
the new one and still has to revoke the old one. -/
def AuthRequest.Halfway (left : Nat) : AuthRequest → Prop
  | .login request => left = 2 ∧ ∃ user ∈ request.admits pwd w, w.accepted user.id ≠ []
  | .refresh token => 2 ≤ left ∧ left ≤ 4 ∧ w.takes settings token
  | _ => False

instance (token : Token) : Decidable (w.takes settings token) :=
  inferInstanceAs (Decidable (∃ r ∈ w.tokens, _))

instance (request : AuthRequest) : Decidable (request.Genuine settings w) :=
  inferInstanceAs (Decidable (∀ token ∈ request.presented, _))

instance AuthRequest.Halfway.decidable (left : Nat) :
    ∀ request : AuthRequest, Decidable (request.Halfway settings pwd w left)
  | .login request => inferInstanceAs (Decidable (left = 2 ∧ ∃ user ∈ request.admits pwd w, _))
  | .refresh _ => inferInstanceAs (Decidable (2 ≤ left ∧ left ≤ 4 ∧ _))
  | .register _ _ _ => isFalse not_false
  | .request_code _ _ => isFalse not_false
  | .deactivate _ => isFalse not_false
  | .update_user_status _ _ _ => isFalse not_false

end

/-- How a stopped request ends: all or nothing, or torn between its commits. -/
def AuthRequest.Ends (settings : Settings) (pwd : PwdContext) (w : World) (request : AuthRequest)
    (left : Nat) : Prop :=
  ¬ request.Halfway settings pwd w left ∧ Swapped w ((request.prog settings pwd).stopped left w) ∨
    request.Halfway settings pwd w left ∧ Torn w ((request.prog settings pwd).stopped left w)

section

variable {settings : Settings} {pwd : PwdContext} {w : World} {token : Token} {left : Nat}

open UserService

theorem World.takes_iff (hg : (AuthRequest.refresh token).Genuine settings w) :
    w.takes settings token ↔ ∃ payload old, Accepted settings w token payload old := by
  constructor
  · rintro ⟨r, hr, hmade, haccepted⟩
    exact (hmade.accepted_row hr).mpr haccepted
  · rintro ⟨payload, old, ha⟩
    have hmade : MadeFor settings old token := by
      refine hg token rfl ?_ old ha.stored ?_
      · rw [ha.signed]
        rfl
      · rw [ha.signed]
        exact ha.jti
    exact ⟨old, ha.stored, hmade, (hmade.accepted_row ha.stored).mp ⟨payload, old, ha⟩⟩

/-- A login, stopped: in its checks, or in one of the three parts of its end. -/
theorem LoginRequest.ends (ht : Tidy w) (request : LoginRequest) :
    (AuthRequest.login request).Ends settings pwd w left := by
  have hcalm : ∀ left, Calm w ((request.admission pwd).stopped left w) := fun left =>
    calm_of_acts request.admission_acts not_false left w
  have hprog : ((AuthRequest.login request).prog settings pwd).stopped left w =
      (request.admission pwd >>= issue_tokens settings pwd).stopped left w := by
    rw [← LoginRequest.prog_eq]
    exact Proc.stopped_map _ _ _ _
  unfold AuthRequest.Ends
  rw [hprog]
  have hchecked := request.checked pwd w
  rcases hrun : (request.admission pwd).run w with ⟨e | user, w₁⟩
  · -- nobody is let in
    rw [hrun] at hchecked
    left
    refine ⟨?_, .kept ?_⟩
    · rintro ⟨_, user, huser, _⟩
      rw [hchecked] at huser
      cases huser
    · rw [Proc.stopped_bind_error hrun]
      exact (hcalm left).leaving
  · rw [hrun] at hchecked
    obtain ⟨hhas, hwho⟩ := hchecked
    have hc : Calm w w₁ := by
      have hend := hcalm 0
      rw [Proc.stopped_zero, hrun] at hend
      exact hend
    have htokens : w₁.tokens = w.tokens := congrArg Table.rows hc.tokens
    obtain ⟨hseven, hparts⟩ := issue_tokens.stops settings pwd (hc.tidy ht) hhas
    obtain ⟨hearly, htwo, hlate⟩ := hparts left
    rw [htokens] at hearly htwo hlate
    by_cases hleft : left ≤ 7
    · rw [Proc.stopped_bind_late hrun (hseven ▸ hleft)]
      by_cases hthree : 3 ≤ left
      · left
        exact ⟨fun h => absurd h.1 (by omega), .kept ((hearly hthree).after hc)⟩
      by_cases hone : left ≤ 1
      · obtain ⟨row, hrow, hleaving⟩ := hlate hone
        left
        refine ⟨fun h => absurd h.1 (by omega), ?_⟩
        exact .issued user.id row (hrow.after hc) (hleaving.after hc)
      · have hleaving := (htwo (by omega)).after hc
        by_cases hsome : w.accepted user.id = []
        · left
          refine ⟨?_, .emptied user.id hsome hleaving⟩
          rintro ⟨_, user', huser', hsome'⟩
          rcases hwho with hadmits | ⟨hadmits, _⟩
          · rw [hadmits] at huser'
            obtain rfl := Option.some.inj huser'
            exact hsome' hsome
          · rw [hadmits] at huser'
            cases huser'
        · right
          refine ⟨⟨by omega, user, ?_, hsome⟩, .emptied user.id hsome hleaving⟩
          rcases hwho with hadmits | ⟨_, habsent⟩
          · exact hadmits
          · exact absurd (World.accepted_of_absent habsent) hsome
    · rw [Proc.stopped_bind_early hrun (by omega)]
      left
      exact ⟨fun h => absurd h.1 (by omega), .kept (hcalm _).leaving⟩

/-- A refresh, stopped. -/
theorem refresh_token.ends (ht : Tidy w) (hg : (AuthRequest.refresh token).Genuine settings w) :
    (AuthRequest.refresh token).Ends settings pwd w left := by
  have hprog : ((AuthRequest.refresh token).prog settings pwd).stopped left w =
      (refresh_token settings pwd token).stopped left w := Proc.stopped_map _ _ _ _
  unfold AuthRequest.Ends
  rw [hprog, refresh_token.eq]
  rcases check_token.spec settings token w with ⟨payload, old, ha, hrun⟩ | ⟨hno, e, hrun⟩
  · have htakes : w.takes settings token := (World.takes_iff hg).mpr ⟨payload, old, ha⟩
    obtain ⟨r, hr, hmade, haccepted⟩ := htakes
    obtain ⟨payload', hsigned, hsub, _, hjti⟩ := hmade.signed
    obtain rfl := ha.same_payload hsigned
    obtain rfl := ha.same_row hr hjti
    have hu := w.db.fk_token_user old hr old.val.user_id rfl
    have hlive : old ∈ w.live_rows old.val.user_id :=
      World.mem_live_rows.mpr ⟨hr, by simp [RefreshToken.live_of, ha.live]⟩
    obtain ⟨height, hparts⟩ := rotate.stops settings pwd hsub ht hu hr
    obtain ⟨hearly, hboth, hlate⟩ := hparts left
    by_cases hleft : left ≤ 8
    · rw [Proc.stopped_bind_late hrun (height ▸ hleft)]
      by_cases hfive : 5 ≤ left
      · left
        exact ⟨fun h => absurd h.2.1 (by omega), .kept (hearly hfive)⟩
      by_cases hone : left ≤ 1
      · obtain ⟨row, hrow, hleaving⟩ := hlate hone
        left
        exact ⟨fun h => absurd h.1 (by omega), .rotated old row hlive hrow hleaving⟩
      · obtain ⟨row, hrow, hleaving⟩ := hboth (by omega) (by omega)
        right
        refine ⟨⟨by omega, by omega, (World.takes_iff hg).mpr ⟨payload, old, ha⟩⟩, ?_⟩
        exact .doubled old.val.user_id row (List.ne_nil_of_mem haccepted) hrow hleaving
    · rw [Proc.stopped_bind_early hrun (by dsimp only; omega), (check_token.reads _ _).stopped]
      left
      exact ⟨fun h => absurd h.2.1 (by omega), .kept ⟨rfl, Nat.le_refl _, rfl⟩⟩
  · rw [Proc.stopped_bind_error hrun, (check_token.reads _ _).stopped]
    left
    refine ⟨fun h => ?_, .kept ⟨rfl, Nat.le_refl _, rfl⟩⟩
    obtain ⟨payload, old, ha⟩ := (World.takes_iff hg).mp h.2.2
    exact hno payload old ha

/-- Every request ends in one of the two ways. -/
theorem AuthRequest.ends (pwd : PwdContext) (left : Nat) (ht : Tidy w) (request : AuthRequest)
    (hg : request.Genuine settings w) : request.Ends settings pwd w left := by
  have hcalm : ∀ request : AuthRequest, ¬ request.allowed.tokens →
      Swapped w ((request.prog settings pwd).stopped left w) := fun request htokens =>
    .kept (calm_of_acts (request.acts settings pwd) htokens left w).leaving
  cases request with
  | login request => exact request.ends ht
  | refresh token => exact refresh_token.ends ht hg
  | register email username password => exact Or.inl ⟨not_false, hcalm _ not_false⟩
  | request_code email code => exact Or.inl ⟨not_false, hcalm _ not_false⟩
  | deactivate authorization => exact Or.inl ⟨not_false, hcalm _ not_false⟩
  | update_user_status authorization user_id is_active =>
    exact Or.inl ⟨not_false, hcalm _ not_false⟩

end

/-! ## Runs -/

/-- The connection of a stopped request is closed, and its locks are free. -/
def World.released (w : World) : World := { w with token_locks := [] }

/-- A request with the number of acts that it does not get to, 0 when nothing
stops it, and time. -/
inductive StopLabel where
  | serve (request : AuthRequest) (left : Nat)
  | tick (d : Nat)

namespace StopLabel

def Enabled (settings : Settings) (w : World) : StopLabel → Prop
  | serve request _ => request.Genuine settings w
  | tick _ => True

instance (settings : Settings) (w : World) : (l : StopLabel) → Decidable (l.Enabled settings w)
  | serve request _ => inferInstanceAs (Decidable (request.Genuine settings w))
  | tick _ => isTrue trivial

def next (settings : Settings) (pwd : PwdContext) (w : World) : StopLabel → World
  | serve request left => ((request.prog settings pwd).stopped left w).released
  | tick d => w.advance d

/-- The request is not stopped between its two commits. -/
def Whole (settings : Settings) (pwd : PwdContext) (w : World) : StopLabel → Prop
  | serve request left => ¬ request.Halfway settings pwd w left
  | tick _ => True

instance Whole.decidable (settings : Settings) (pwd : PwdContext) (w : World) :
    (l : StopLabel) → Decidable (l.Whole settings pwd w)
  | serve request left => inferInstanceAs (Decidable (¬ request.Halfway settings pwd w left))
  | tick _ => isTrue trivial

end StopLabel

def stops (settings : Settings) (pwd : PwdContext) : System World StopLabel where
  enabled w l := l.Enabled settings w
  next w l := l.next settings pwd w

instance (settings : Settings) (pwd : PwdContext) (w : World) (l : StopLabel) :
    Decidable ((stops settings pwd).enabled w l) :=
  inferInstanceAs (Decidable (l.Enabled settings w))

/-- Between requests: no account has two rows that are not revoked. -/
structure Between (w : World) : Prop where
  tidy : Tidy w
  single : SingleRows w

section

variable {settings : Settings} {pwd : PwdContext} {w : World}

theorem Between.of_empty (htokens : w.tokens = []) (hlocks : w.token_locks = []) : Between w where
  tidy := ⟨hlocks, fun r hr => by rw [htokens] at hr; cases hr⟩
  single u := by
    unfold World.live_rows
    rw [htokens]
    exact Nat.zero_le 1

/-- A request that is not stopped halfway leaves the state in order. -/
theorem Between.next (h : Between w) {l : StopLabel} (he : (stops settings pwd).enabled w l)
    (hl : l.Whole settings pwd w) : Between ((stops settings pwd).next w l) := by
  cases l with
  | tick d => exact ⟨⟨h.tidy.unlocked, h.tidy.jti_lt⟩, h.single⟩
  | serve request left =>
    rcases request.ends pwd left h.tidy he with ⟨_, hs⟩ | ⟨hhalf, _⟩
    · have hsingle : SingleRows ((request.prog settings pwd).stopped left w) :=
        hs.single_rows h.single
      exact ⟨⟨rfl, hs.jti_lt h.tidy⟩, hsingle⟩
    · exact absurd hhalf hl

theorem Between.all_or_nothing (h : Between w) {request : AuthRequest} {left : Nat}
    (he : request.Genuine settings w) :
    AllOrNothing w ((request.prog settings pwd).stopped left w).released ↔
      ¬ request.Halfway settings pwd w left := by
  rcases request.ends pwd left h.tidy he with ⟨hhalf, hs⟩ | ⟨hhalf, ht⟩
  · exact ⟨fun _ => hhalf, fun _ => hs.all_or_nothing h.single⟩
  · exact ⟨fun hall => absurd hall ht.not_all_or_nothing, fun hn => absurd hhalf hn⟩

/-- Every run whose requests are not stopped between two commits, from a database
without tokens: each of its requests leaves every account the tokens that it had
or a single new one. In each state that such a run reaches, a request that is
stopped anywhere does so exactly when it is not stopped between its commits. -/
theorem sessions_are_swapped_whole {w₀ : World} {ls : List StopLabel} (htokens : w₀.tokens = [])
    (hlocks : w₀.token_locks = [])
    (hrun : (stops settings pwd).Run (StopLabel.Whole settings pwd) w₀ ls w) :
    (∀ t request left,
      (stops settings pwd).Took (StopLabel.Whole settings pwd) w₀ ls w t (.serve request left) →
        AllOrNothing t ((stops settings pwd).next t (.serve request left))) ∧
    ∀ request left, (stops settings pwd).enabled w (.serve request left) →
      (AllOrNothing w ((stops settings pwd).next w (.serve request left)) ↔
        ¬ request.Halfway settings pwd w left) := by
  have hbetween : ∀ {ls t}, (stops settings pwd).Run (StopLabel.Whole settings pwd) w₀ ls t →
      Between t := fun h =>
    h.invariant (Between.of_empty htokens hlocks) fun _ _ hb he hl => hb.next he hl
  constructor
  · rintro t request left ⟨before, after, _, hbefore, he, hl, _⟩
    exact ((hbetween hbefore).all_or_nothing he).mpr hl
  · intro request left he
    exact (hbetween hrun).all_or_nothing he

end

namespace Sample

def login_stopped (left : Nat) : StopLabel :=
  .serve (.login (.password "eva@example.com" "secret")) left

/-- Eva has logged in. -/
def in_use : World := (stops settings pwd).next opened.world (login_stopped 0)

/-- Eva logs in, a second login stops in its checks, and she refreshes a minute
later. -/
def stops_of_eva : List StopLabel :=
  [login_stopped 0, login_stopped 8, .tick 60000000, .serve refresh_of_eva 1]

def refreshed : World := (stops settings pwd).exec opened.world stops_of_eva

end Sample

open Sample in
/-- Her next login is all or nothing when it stops after its insert, and not when
it stops before it. -/
theorem sessions_are_swapped_whole_sample :
    AllOrNothing refreshed ((stops settings pwd).next refreshed (login_stopped 1)) ∧
      ¬ AllOrNothing refreshed ((stops settings pwd).next refreshed (login_stopped 2)) := by
  have hrun : (stops settings pwd).Run (StopLabel.Whole settings pwd) opened.world stops_of_eva
      refreshed := .of_path (by decide)
  have h := (sessions_are_swapped_whole rfl rfl hrun).2
  exact ⟨(h _ 1 (by decide)).mpr (by decide), fun hall => (h _ 2 (by decide)).mp hall (by decide)⟩

open Sample in
/-- A login that stops before its insert leaves eva no token, and a refresh that
stops before its update leaves her two. -/
theorem sessions_torn :
    (stops settings pwd).Run (StopLabel.Whole settings pwd) opened.world [login_stopped 0] in_use ∧
    in_use.accepted 0 = [1] ∧
    ((stops settings pwd).next in_use (login_stopped 2)).accepted 0 = [] ∧
    ((stops settings pwd).next in_use (.serve refresh_of_eva 3)).accepted 0 = [1, 4] ∧
    ¬ AllOrNothing in_use ((stops settings pwd).next in_use (login_stopped 2)) ∧
    ¬ AllOrNothing in_use ((stops settings pwd).next in_use (.serve refresh_of_eva 3)) := by
  have hnone : ((stops settings pwd).next in_use (login_stopped 2)).accepted 0 = [] := by decide
  have htwo : ((stops settings pwd).next in_use (.serve refresh_of_eva 3)).accepted 0 = [1, 4] := by
    decide
  refine ⟨.of_path (by decide), by decide, hnone, htwo, fun hall => ?_, fun hall => ?_⟩
  · rcases hall 0 with hsame | ⟨row, _, _, hone⟩
    · exact absurd (hsame.symm.trans hnone) (by decide)
    · rw [hnone] at hone
      cases hone
  · rcases hall 0 with hsame | ⟨row, _, _, hone⟩
    · exact absurd (hsame.symm.trans htwo) (by decide)
    · rw [htwo] at hone
      simp at hone

end saas
