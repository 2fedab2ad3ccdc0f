-- The row of one Stripe subscription: what the operations of the repository do
-- to it, and which of them a checkout and a paid invoice come down to.
import SaasBackend.BillingSteps

open relational async

namespace saas

open Proc SubscriptionRepoistory StripeGateway SubscriptionService

/-! ## What the two handlers do after their reads -/

section

variable {w : World} {id : StripeId} {S : Row StripeSubscription}

/-- A checkout cancels the upgraded subscription and finds or makes the row. -/
theorem user_subscribe.after_reads {session : SessionObject} {u : UUID}
    (hsid : session.subscription = some id) (hS : w.stripe.subscriptions.byId id = some S)
    (hn : w.Names u S.val.metadata) :
    let rest := cancel_upgraded S.val.metadata.upgrade_from_subscription_id >>= fun _ =>
      find_or_create session S.val.metadata.plan_id
    (user_subscribe session).run w = rest.run w ∧
      ∀ t, t ∈ (user_subscribe session).trace w ↔ t ∈ rest.trace w := by
  obtain ⟨p, plan, _, _, hplan⟩ := hn.get_by_id
  have hret : (Subscription_retrieve session.subscription).run w = (.ok S, w) := by
    rw [hsid, Subscription_retrieve.spec, hS]
  unfold user_subscribe
  refine ⟨by rw [run_bind_ok hret, run_bind_ok hplan], fun t => ?_⟩
  rw [(Subscription_retrieve.reads _).trace_bind hret, (get_by_id.reads _).trace_bind hplan]

theorem Invoice.first_line {invoice : Invoice} (h : invoice.subscription = some id) :
    ∃ line lines, invoice.line_items = .ok (line :: lines) ∧
      line.stripe_subscription_id = .ok (some id) := by
  unfold Invoice.subscription at h
  split at h
  · rename_i line lines hlines
    split at h
    · rename_i id' hline
      exact ⟨line, lines, hlines, by rw [hline, h]⟩
    · cases h
  · cases h

/-- A paid invoice renews the row of its subscription, or makes one. -/
theorem handle_invoice_payment_succeeded.after_reads {invoice : Invoice}
    (hinv : invoice.subscription = some id) (hS : w.stripe.subscriptions.byId id = some S) :
    (handle_invoice_payment_succeeded invoice).run w = (renew_or_create id S.val).run w ∧
      ∀ t, t ∈ (handle_invoice_payment_succeeded invoice).trace w ↔
        t ∈ (renew_or_create id S.val).trace w := by
  obtain ⟨line, lines, hlines, hline⟩ := Invoice.first_line hinv
  have h1 : (ofExcept invoice.line_items : M _).run w = (.ok (line :: lines), w) := by
    rw [run_ofExcept, hlines]
  have h2 : (ofExcept line.stripe_subscription_id : M _).run w = (.ok (some id), w) := by
    rw [run_ofExcept, hline]
  have h3 : (Subscription_retrieve (some id)).run w = (.ok S, w) := by
    rw [Subscription_retrieve.spec, hS]
  unfold handle_invoice_payment_succeeded
  refine ⟨by rw [run_bind_ok h1, run_bind_ok h2, run_bind_ok h3], fun t => ?_⟩
  rw [(reads_ofExcept _).trace_bind h1, (reads_ofExcept _).trace_bind h2,
    (Subscription_retrieve.reads _).trace_bind h3]

end

/-! ## Steps of others -/

/-- A step that is not about the account: a request or an event of another one,
or time that passes. -/
def Elsewhere (u : UUID) (w : World) (l : Label) : Prop := ¬ w.Touches l u

instance (u : UUID) (w : World) (l : Label) : Decidable (Elsewhere u w l) :=
  inferInstanceAs (Decidable (¬ w.Touches l u))

section

variable {u p : UUID} {id : StripeId} {S : Row StripeSubscription} {m : Metadata} {w w' : World}

theorem Good.names (hg : Good w) (hS : w.stripe.subscriptions.byId id = some S)
    (hu : S.val.metadata.user_id = some (.ofUuid u)) : w.Names u S.val.metadata := by
  obtain ⟨_, u', hn⟩ := hg.stripe S (Table.byId_eq_some.mp hS).1
  have hu' := hn.user
  rw [hu, Option.some.injEq, UuidText.ofUuid.injEq] at hu'
  rwa [hu']

theorem Good.row_user (hg : Good w) (hu : w.owner id = some u) {r : Row Subscription}
    (hr : w.row_of id = some r) : r.val.user_id = u := by
  have h := hg.owner hr
  rw [hu, Option.some.injEq] at h
  exact h.symm

theorem World.Frame.row_of (hf : w.Frame u w') (hu : w.owner id = some u) (hg : Good w')
    (hgr : w.Grows w') : w'.row_of id = w.row_of id := by
  rcases hr' : w'.row_of id with _ | r'
  · rcases hr : w.row_of id with _ | r
    · rfl
    · obtain ⟨r'', hr'', _⟩ := hgr.row_of hr
      rw [hr'] at hr''
      cases hr''
  · obtain ⟨hmem, hp, hps⟩ := World.row_of_eq_some.mp hr'
    have huser := hg.row_user (hgr.owner hu) hr'
    exact (World.row_of_eq_some.mpr ⟨(hf.rows r' huser).mp hmem, hp, hps⟩).symm

theorem World.Frame.access_rows (hf : w.Frame u w') (t : Time) :
    (w'.access_rows u t).Perm (w.access_rows u t) := by
  refine (List.perm_ext_iff_of_nodup (Table.nodup_select _ _) (Table.nodup_select _ _)).mpr
    fun r => ?_
  change r ∈ w'.access_rows u t ↔ r ∈ w.access_rows u t
  rw [World.mem_access_rows, World.mem_access_rows]
  constructor
  · rintro ⟨hr, hu, hacc⟩
    exact ⟨(hf.rows r hu).mp hr, hu, hacc⟩
  · rintro ⟨hr, hu, hacc⟩
    exact ⟨(hf.rows r hu).mpr hr, hu, hacc⟩

/-- What the upgraded subscription is at Stripe, as long as the account is left alone. -/
theorem World.Frame.upgraded (h : w.Frame u w') (hg : Good w) (hn : w.Names u m) {old : StripeId}
    (ho : m.upgrade_from_subscription_id = some old) :
    w'.stripe.statusOf old = w.stripe.statusOf old := by
  obtain ⟨r, hr, hu⟩ := hn.upgrade old ho
  obtain ⟨So, hSo, _⟩ := hg.of_row hr
  have hSo' := h.stripe old So hSo (by rw [hg.owner hr, hu])
  simp only [Stripe.statusOf, hSo, hSo']

/-! ## A patch of the row, or of another one -/

theorem World.row_of_patch_other {r : Row Subscription} (p : SubscriptionPatch)
    (hr : r ∈ w.db.subscriptions.rows) (hne : r.val.provider_subscription_id ≠ some id) :
    (w.update_subscription r.id p).row_of id = w.row_of id := by
  rcases hr1 : w.row_of id with _ | r1
  · refine row_of_eq_none.mpr fun r' hr' hp => ?_
    obtain ⟨r2, hr2, _, hp2, hps2⟩ := rows_update_subscription hr'
    rw [hps2]
    exact row_of_eq_none.mp hr1 r2 hr2 (hp2.symm.trans hp)
  · obtain ⟨hmem, hp, hps⟩ := row_of_eq_some.mp hr1
    refine row_of_eq_some.mpr ⟨mem_update_subscription.mpr (Or.inr ⟨hmem, ?_⟩), hp, hps⟩
    intro hid
    rw [Table.eq_of_id hmem hr hid] at hps
    exact hne hps

/-- The row of a subscription stays when the row of another one is patched. -/
theorem World.row_of_patch_apart {i : StripeId} {r r' : Row Subscription} (p : SubscriptionPatch)
    (hr : w.row_of id = some r) (hne : i ≠ id) (hr' : w.row_of i = some r') :
    (w.update_subscription r'.id p).row_of id = some r := by
  obtain ⟨hmem, _, hps⟩ := World.row_of_eq_some.mp hr'
  have hother : r'.val.provider_subscription_id ≠ some id := by
    rw [hps]
    exact fun h => hne (Option.some.inj h)
  rw [World.row_of_patch_other p hmem hother, hr]

theorem Good.patch {r : Row Subscription} (hg : Good w) (p : SubscriptionPatch) :
    Good (w.update_subscription r.id p) :=
  hg.rows_only (w.grows_update_subscription _ _) rfl fun _ hr' =>
    Or.inl (World.rows_update_subscription hr')

theorem Good.demote (hg : Good w) (old : Option (Row Subscription)) : Good (w.demote old) := by
  cases old with
  | none => exact hg
  | some o => exact hg.patch .demote

/-! ## A new row -/

/-- A good world has room for the row of a subscription that has none. -/
theorem Good.fits {s : Subscription} (hg : Good w) (hnone : w.row_of id = none)
    (hs : s.provider_subscription_id = some id) : w.db.subscriptions.Fits s := by
  rw [Table.fits_iff_of_key (k := id) (by simp [Keyed.keys, hs])]
  intro r hr hk
  obtain ⟨hp, _⟩ := hg.rows r hr
  refine World.row_of_eq_none.mp hnone r hr hp ?_
  simpa [Keyed.keys, Option.mem_toList, eq_comm] using hk

/-- `w'` is `w` with the new row `r`, and with the subscription `old` demoted. -/
structure Created (id : StripeId) (s : Subscription) (old : Option (Row Subscription))
    (r : Row Subscription) (w w' : World) : Prop where
  val : r.val = s
  rows : w'.db.subscriptions.rows = (w.demote old).db.subscriptions.rows ++ [r]
  row : w'.row_of id = some r
  good : Good w'
  grows : w.Grows w'
  clock : w'.clock = w.clock
  stripe : w'.stripe = w.stripe
  payments : w'.db.payments = w.db.payments

/-- Where there is no row yet and at most one with access, the new row is made. -/
theorem Good.create {old : Option (Row Subscription)} (hg : Good w) (hnone : w.row_of id = none)
    (hS : w.stripe.subscriptions.byId id = some S) (hn : w.Names u S.val.metadata)
    (hp : S.val.metadata.plan_id = some (.ofUuid p))
    (hold : scalar_one_or_none (w.access_rows u w.clock) = .ok old) (c : Option StripeId)
    (st : SubscriptionStatus) : ∃ r w',
      (create_subscription u p .STRIPE (some id) c st).run w = (.ok r, w') ∧
        Created id (new_row u p (some id) c st w.clock) old r w w' := by
  obtain ⟨p', hp', hplan⟩ := hn.plan
  rw [hp, Option.some.injEq, UuidText.ofUuid.injEq] at hp'
  subst hp'
  have hgr := w.grows_demote old
  have hnone' : (w.demote old).row_of id = none := by
    refine World.row_of_eq_none.mpr fun r hr hpr => ?_
    obtain ⟨r0, hr0, _, hp0, hps0⟩ := World.rows_demote hr
    rw [hps0]
    exact World.row_of_eq_none.mp hnone r0 hr0 (hp0.symm.trans hpr)
  have hfits : (w.demote old).db.subscriptions.Fits (new_row u p (some id) c st w.clock) :=
    (hg.demote old).fits hnone' rfl
  obtain ⟨r, db, hdb⟩ := Db.insert_subscription_of_fits hfits (hgr.users u hn.has_user)
    (hgr.plans p hplan)
  obtain ⟨hnew, _, hrows, _, _, _, hpay⟩ := Db.insert_subscription_ok hdb
  have hgrows : w.Grows { w.demote old with db := db } := hgr.trans (World.grows_insert hdb)
  have hstripe : (w.demote old).stripe = w.stripe := by cases old <;> rfl
  have hclock : (w.demote old).clock = w.clock := by cases old <;> rfl
  have hpayments : (w.demote old).db.payments = w.db.payments := by cases old <;> rfl
  refine ⟨r, { w.demote old with db := db }, ?_, ?_⟩
  · rw [create_subscription.spec, hold]
    simp only [hdb]
  · refine ⟨by rw [hnew]; rfl, hrows, ?_, ?_, hgrows, hclock, hstripe, hpay.trans hpayments⟩
    · refine World.row_of_eq_some.mpr ⟨?_, by rw [hnew]; rfl, by rw [hnew]; rfl⟩
      simp [hrows]
    · refine hg.rows_only hgrows hstripe fun r' hr' => ?_
      simp only [hrows, List.mem_append, List.mem_singleton] at hr'
      rcases hr' with hr' | rfl
      · exact Or.inl (World.rows_demote hr')
      · rw [hnew]
        exact Or.inr ⟨rfl, id, S, rfl, hS, hn⟩

end

theorem run_discard {α : Type} (q : M α) (w : World) :
    ((q >>= fun _ => (pure () : M Unit)).run w).2 = (q.run w).2 := by
  rw [run_bind]
  rcases q.run w with ⟨e | a, w'⟩ <;> rfl

end saas
