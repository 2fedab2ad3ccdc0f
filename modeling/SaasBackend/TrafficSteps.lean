-- Every request in flight goes by acts, among all others: one lemma for each
-- handler, and for the system the rule that its invariants are invariants of acts.
import SaasBackend.BillingTraffic
import SaasBackend.Ledger

open relational async

namespace saas

open Proc StripeGateway SubscriptionService Session

variable {h : Past} {q : Request} {w w' : World}

/-! ## Rows that a session has -/

/-- The session has the row of a Stripe subscription, as it was at some time. -/
structure World.Holds (w : World) (id : StripeId) (r : Row Subscription) : Prop where
  row : ∃ s, w.row_of id = some s ∧ s.id = r.id ∧ s.val.user_id = r.val.user_id
  provider : r.val.provider = .STRIPE
  provider_subscription_id : r.val.provider_subscription_id = some id

theorem World.Holds.grows {id : StripeId} {r : Row Subscription} (hh : w.Holds id r)
    (hg : w.Grows w') : w'.Holds id r where
  row := by
    obtain ⟨s, hs, hid, hu⟩ := hh.row
    obtain ⟨s', hs', hid', hu', _⟩ := hg.row_of hs
    exact ⟨s', hs', hid'.trans hid, hu'.trans hu⟩
  provider := hh.provider
  provider_subscription_id := hh.provider_subscription_id

theorem World.holds_of_row {id : StripeId} {r : Row Subscription} (hr : w.row_of id = some r) :
    w.Holds id r := by
  obtain ⟨_, hp, hps⟩ := World.row_of_eq_some.mp hr
  exact ⟨⟨r, hr, rfl, rfl⟩, hp, hps⟩

theorem Good.holds {r : Row Subscription} (hg : Good w) (hr : r ∈ w.db.subscriptions.rows) :
    ∃ id, w.Holds id r := by
  obtain ⟨id, _, hrow⟩ := hg.row_of hr
  exact ⟨id, World.holds_of_row hrow⟩

/-- The object that a session has for a row, and the row. -/
theorem World.Holds.of_id {id : StripeId} {r s : Row Subscription} (hh : w.Holds id r)
    (hs : s ∈ w.db.subscriptions.rows) (hid : s.id = r.id) : w.Holds id s := by
  obtain ⟨s', hs', hid', _⟩ := hh.row
  rw [Table.eq_of_id hs (World.row_of_eq_some.mp hs').1 (hid.trans hid'.symm)]
  exact World.holds_of_row hs'

theorem World.Holds.same_id {id : StripeId} {r s : Row Subscription} (hr : w.Holds id r)
    (hs : w.Holds id s) : r.id = s.id := by
  obtain ⟨r', hr', hid, _⟩ := hr.row
  obtain ⟨s', hs', hid', _⟩ := hs.row
  rw [hr', Option.some.injEq] at hs'
  rw [← hid, ← hid', hs']

/-- The owner of the row is the owner of the subscription. -/
theorem World.Holds.owner {id : StripeId} {r : Row Subscription} (hh : w.Holds id r)
    (hg : Good w) : w.owner id = some r.val.user_id := by
  obtain ⟨s, hs, _, hu⟩ := hh.row
  rw [hg.owner hs, hu]

/-- An event about a subscription concerns its owner. -/
theorem World.concerns_owner {e : Event} {id : StripeId} {u : UUID}
    (hq : q = .webhook e) (hid : e.subscription = some id) (ho : w.owner id = some u) :
    w.Concerns q u := by
  subst hq
  exact Option.bind_eq_some_iff.mpr ⟨id, hid, ho⟩

theorem World.concerns_holder {e : Event} {id : StripeId} {r : Row Subscription}
    (hq : q = .webhook e) (hid : e.subscription = some id) (hg : Good w)
    (hh : w.Holds id r) : w.Concerns q r.val.user_id :=
  World.concerns_owner hq hid (hh.owner hg)

/-- The object for a row that the session has is the one that it has. -/
theorem identity_held {id : StripeId} {held : Option (Row Subscription)} {found : Row Subscription}
    (hheld : ∀ r ∈ held, w.Holds id r) (hfound : w.Holds id found) :
    w.Holds id (identity held found) ∧ ∀ r ∈ held, r = identity held found := by
  unfold identity
  rcases held with _ | r
  · exact ⟨hfound, fun _ hr => by cases hr⟩
  · have hid := (hheld r rfl).same_id hfound
    simp only [Option.filter, hid, decide_true, if_true, Option.getD_some]
    exact ⟨hheld r rfl, fun r' hr' => (Option.some.inj hr').symm⟩

/-! ## Payments stay -/

theorem World.payments_insert {s : Subscription} {r : Row Subscription} {db : Db}
    {old : Option (Row Subscription)}
    (hdb : (w.demote_held old).db.insert_subscription s = .ok (r, db)) :
    db.payments = w.db.payments := by
  obtain ⟨_, _, _, _, _, _, hpay⟩ := Db.insert_subscription_ok hdb
  exact hpay.trans (w.payments_demote_held old)

/-- No act takes a payment away, and a new one is of the invoice that it came for. -/
theorem Deed.payments (hd : Deed h q w w') : (∀ p ∈ w.db.payments.rows, p ∈ w'.db.payments.rows) ∧
    ∀ p ∈ w'.db.payments.rows, p ∈ w.db.payments.rows ∨ ∃ invoice,
      q = .webhook (.invoice_payment_succeeded invoice) ∧ w'.Books invoice p := by
  have hsame : w'.db.payments = w.db.payments → _ := fun heq =>
    (⟨fun p hp => by rwa [heq], fun p hp => Or.inl (by rwa [← heq])⟩ :
      (∀ p ∈ w.db.payments.rows, p ∈ w'.db.payments.rows) ∧
        ∀ p ∈ w'.db.payments.rows, p ∈ w.db.payments.rows ∨ ∃ invoice,
          q = .webhook (.invoice_payment_succeeded invoice) ∧ w'.Books invoice p)
  cases hd with
  | create _ _ _ _ _ _ _ hdb => exact hsame (World.payments_insert hdb)
  | @record invoice id s r db hq hid hs hdb =>
    obtain ⟨_, _, hrows, _⟩ := Db.insert_payment_ok hdb
    refine ⟨fun p hp => by simp [hrows, hp], fun p hp => ?_⟩
    simp only [hrows, List.mem_append, List.mem_singleton] at hp
    rcases hp with hp | rfl
    · exact Or.inl hp
    · exact Or.inr ⟨invoice, hq, .of_insert hid hs hdb⟩
  | _ => exact hsame rfl

theorem Move.payments (ha : Move h w w') : (∀ p ∈ w.db.payments.rows, p ∈ w'.db.payments.rows) ∧
    ∀ p ∈ w'.db.payments.rows, p ∈ w.db.payments.rows ∨ ∃ invoice,
      h.requests (.webhook (.invoice_payment_succeeded invoice)) ∧ w'.Books invoice p := by
  cases ha with
  | act hcame hd =>
    obtain ⟨hkeep, hnew⟩ := hd.payments
    refine ⟨hkeep, fun p hp => (hnew p hp).imp_right ?_⟩
    rintro ⟨invoice, rfl, hb⟩
    exact ⟨invoice, hcame, hb⟩
  | _ => exact ⟨fun p hp => hp, fun p hp => Or.inl hp⟩

theorem Meanwhile.payments (hm : Meanwhile h w w') :
    (∀ p ∈ w.db.payments.rows, p ∈ w'.db.payments.rows) ∧
      ∀ p ∈ w'.db.payments.rows, p ∈ w.db.payments.rows ∨ ∃ invoice,
        h.requests (.webhook (.invoice_payment_succeeded invoice)) ∧ w'.Books invoice p := by
  induction hm with
  | refl => exact ⟨fun p hp => hp, fun p hp => Or.inl hp⟩
  | tail _ ha ih =>
    obtain ⟨hkeep, hnew⟩ := ih
    obtain ⟨hkeep', hnew'⟩ := ha.payments
    refine ⟨fun p hp => hkeep' p (hkeep p hp), fun p hp => ?_⟩
    rcases hnew' p hp with h1 | h1
    · rcases hnew p h1 with h2 | ⟨invoice, hcame, hb⟩
      · exact Or.inl h2
      · exact Or.inr ⟨invoice, hcame, hb.grows ha.grows⟩
    · exact Or.inr h1

/-- What a request that was answered has left: a paid invoice is booked. -/
def World.Settled (w : World) : Request → Prop
  | .webhook (.invoice_payment_succeeded invoice) =>
    ∃ p ∈ w.db.payments.rows, w.Books invoice p
  | _ => True

theorem World.Settled.meanwhile {r : Request} (hr : w.Settled r) (hm : Meanwhile h w w') :
    w'.Settled r := by
  cases r with
  | webhook e =>
    cases e with
    | invoice_payment_succeeded invoice =>
      obtain ⟨p, hp, hb⟩ := hr
      exact ⟨p, hm.payments.1 p hp, hb.grows hm.grows⟩
    | _ => trivial
  | _ => trivial

/-! ## Reads -/

section

variable (part : Proc.Part (Meanwhile h) (Deed h q))

include part

theorem now.among : now.Among (Meanwhile h) (Deed h q) (fun t u => t ≤ u.clock) w :=
  among_read part fun _ _ _ hu => hu.grows.clock

theorem find_row.among (hs : Sound h w) (id : Option StripeId) :
    (SubscriptionRepoistory.get_by_provider_subscription_id .STRIPE id).Among (Meanwhile h)
      (Deed h q) (fun o t => ∀ r ∈ o, ∃ i, id = some i ∧ t.Holds i r) w := by
  refine among_query part fun t o ht ho u hu r hr => ?_
  have hmem : r ∈ t.db.subscriptions.select (Subscription.is_of .STRIPE id) := by
    rw [scalar_one_or_none_eq_ok.mp ho, Option.mem_def.mp hr]
    simp
  obtain ⟨hrow, his⟩ := Table.mem_select.mp hmem
  obtain ⟨i, hh⟩ := (ht.sound hs).good.holds hrow
  have hps : r.val.provider_subscription_id = id := by
    simpa [Subscription.is_of, hh.provider] using his
  exact ⟨i, hps.symm.trans hh.provider_subscription_id, hh.grows hu.grows⟩

theorem find_access.among (hs : Sound h w) (u : UUID) :
    (SubscriptionRepoistory.get_subscription_with_access u).Among (Meanwhile h) (Deed h q)
      (fun o t => ∀ r ∈ o, r.val.user_id = u ∧ t.Earned h r.val ∧ ∃ i, t.Holds i r) w := by
  refine Among.bind part (now.among part) fun t w₁ hw₁ _ => ?_
  refine among_query part fun w₂ o hw₂ ho w₃ hw₃ r hr => ?_
  have hs₂ := (hw₁.trans hw₂).sound hs
  have hmem : r ∈ w₂.access_rows u t := by
    rw [scalar_one_or_none_eq_ok.mp ho, Option.mem_def.mp hr]
    simp
  obtain ⟨hrow, hu, hgrants⟩ := World.mem_access_rows.mp hmem
  obtain ⟨i, hh⟩ := hs₂.good.holds hrow
  -- the time was read before the rows, so the period alone says nothing; the status does
  have hearned : w₂.Earned h r.val := (hs₂.honest r hrow).resolve_left fun hdue => by
    obtain ⟨_, hst | hst⟩ := Subscription.grants_access_iff.mp hgrants
    · rw [hdue] at hst
      cases hst
    · rw [hdue] at hst
      cases hst
  exact ⟨hu, hearned.meanwhile hw₃, i, hh.grows hw₃.grows⟩

theorem reload.among {id : StripeId} {r : Row Subscription} (hh : w.Holds id r) :
    (SubscriptionRepoistory.reload r.id).Among (Meanwhile h) (Deed h q)
      (fun r' t => t.Holds id r') w := by
  refine among_query part fun t r' ht hr' u hu => ?_
  split at hr'
  · rename_i s hb
    cases hr'
    obtain ⟨hmem, hid⟩ := Table.byId_eq_some.mp hb
    exact ((hh.grows ht.grows).of_id hmem hid).grows hu.grows
  · cases hr'

/-! ## Commits of a session -/

theorem commit_patch.among {id : StripeId} {held : Row Subscription} {p : SubscriptionPatch}
    (hh : w.Holds id held)
    (hwhy : ∀ t s, Meanwhile h w t → s.val.provider_subscription_id = some id →
      s.val.user_id = held.val.user_id → Flushes h q t s (p.flush held.val))
    (hwho : ∀ t, Meanwhile h w t → t.Concerns q held.val.user_id) :
    (Session.commit_patch held p).Among (Meanwhile h) (Deed h q) (fun r t => t.Holds id r) w := by
  refine Among.bind part (among_write part fun t ht => ?_) fun _ t ht _ =>
    reload.among part (hh.grows ht.grows)
  obtain ⟨s, hs, hid, hu⟩ := (hh.grows ht.grows).row
  obtain ⟨hmem, _, hps⟩ := World.row_of_eq_some.mp hs
  rw [← hid]
  exact (.patch hmem (hwhy t s ht hps hu) (by rw [hu]; exact hwho t ht))

theorem update_subscription_period.among {invoice : Invoice} {id : StripeId} {start stop : Time}
    (hs : Sound h w) (hq : q = .webhook (.invoice_payment_succeeded invoice))
    (hid : invoice.subscription = some id) (htold : h.periods id stop) :
    (Session.update_subscription_period .STRIPE (some id) start stop).Among (Meanwhile h) (Deed h q)
      (fun o t => ∀ r ∈ o, t.Holds id r) w := by
  refine Among.bind part (find_row.among part hs _) fun o t ht ho => ?_
  cases o with
  | none => exact among_pure fun _ _ r hr => by cases hr
  | some sub =>
    obtain ⟨i, hi, hh⟩ := ho sub rfl
    cases hi
    refine Among.bind part (commit_patch.among part hh ?_ ?_) fun r u _ hr => ?_
    · exact fun _ s _ hps _ => .period hq hid hps htold
    · exact fun u hu => World.concerns_holder hq hid (hu.sound (ht.sound hs)).good
        (hh.grows hu.grows)
    · intro v hv
      refine ⟨hv, fun o ho r' hr' => ?_⟩
      cases ho
      cases hr'
      exact hr.grows hv.grows

theorem cancel_subscription.among {id : StripeId} {held : Option (Row Subscription)} {at_ : Time}
    {stop : Option Time} (hs : Sound h w) (hheld : ∀ r ∈ held, w.Holds id r)
    (hwhy : ∀ t s (r : Row Subscription), Meanwhile h w t → (∀ r' ∈ held, r' = r) →
      s.val.provider_subscription_id = some id → s.val.user_id = r.val.user_id →
      Flushes h q t s ((SubscriptionPatch.cancel at_ stop).flush r.val))
    (hwho : ∀ t r, Meanwhile h w t → t.Holds id r → t.Concerns q r.val.user_id) :
    (Session.cancel_subscription held .STRIPE (some id) at_ stop).Among (Meanwhile h) (Deed h q)
      (fun o t => ∀ r ∈ o, t.Holds id r) w := by
  refine Among.bind part (find_row.among part hs _) fun o t ht ho => ?_
  cases o with
  | none => exact among_pure fun _ _ r hr => by cases hr
  | some sub =>
    obtain ⟨i, hi, hsub⟩ := ho sub rfl
    cases hi
    obtain ⟨hh, hsame⟩ := identity_held (fun r hr => (hheld r hr).grows ht.grows) hsub
    refine Among.bind part (commit_patch.among part hh ?_ ?_) fun r u _ hr => ?_
    · exact fun u s hu hps hus => hwhy u s _ (ht.trans hu) hsame hps hus
    · exact fun u hu => hwho u _ (ht.trans hu) (hh.grows hu.grows)
    · refine among_pure fun v hv r' hr' => ?_
      cases hr'
      exact hr.grows hv.grows

theorem update_sub_status.among {invoice : Invoice} {id : Option StripeId} (hs : Sound h w)
    (hq : q = .webhook (.invoice_payment_failed invoice))
    (hid : ∀ i, id = some i → invoice.subscription = some i) :
    (Session.update_sub_status .STRIPE id .PAST_DUE).Among (Meanwhile h) (Deed h q)
      (fun _ _ => True) w := by
  refine Among.bind part (find_row.among part hs _) fun o t ht ho => ?_
  cases o with
  | none => exact among_pure fun _ _ => trivial
  | some sub =>
    obtain ⟨i, hi, hh⟩ := ho sub rfl
    simp only
    split
    · exact among_pure fun _ _ => trivial
    · refine Among.bind part (commit_patch.among part hh ?_ ?_) fun _ _ _ _ =>
        among_pure fun _ _ => trivial
      · exact fun _ _ _ hps _ => .past_due hq (hid i hi) hps
      · exact fun u hu => World.concerns_holder hq (hid i hi) (hu.sound (ht.sound hs)).good
          (hh.grows hu.grows)

/-- The object of the old subscription may be older than its row. -/
theorem create_subscription.among {e : Event} {id : StripeId} {u p : UUID} {c : Option StripeId}
    {st : SubscriptionStatus} {S : Row StripeSubscription} (hs : Sound h w)
    (hq : q = .webhook e) (hid : e.subscription = some id) (hst : e.Makes st)
    (hS : w.stripe.subscriptions.byId id = some S) (hn : w.Names u S.val.metadata) :
    (Session.create_subscription u p .STRIPE (some id) c st).Among (Meanwhile h) (Deed h q)
      (fun r t => t.Holds id r) w := by
  refine Among.bind part (find_access.among part hs u) fun old w₁ hw₁ hold => ?_
  refine Among.bind part (now.among part) fun t w₂ hw₂ ht => ?_
  refine Among.bind part
    (P := fun r t => t.Holds id r) (among_attempt part ?_) fun r w₃ _ hr => reload.among part hr
  intro w₃ r w₄ hw₃ hstep
  obtain ⟨⟨_, db⟩, hdb, hw₄⟩ := map_eq_ok hstep
  cases hw₄
  have hgrows := (hw₁.trans (hw₂.trans hw₃)).grows
  obtain ⟨S', hS', hm, _⟩ := hgrows.stripe id S hS
  have hdeed : Deed h q w₃ { w₃.demote_held old with db := db } := by
    refine .create hq hid hst (Nat.le_trans ht hw₃.grows.clock) hS'
      (by rw [hm]; exact hn.grows hgrows) (fun o ho => ?_) hdb
    obtain ⟨hu, he, i, hh⟩ := hold o ho
    obtain ⟨o', ho', hid', hu'⟩ := (hh.grows (hw₂.trans hw₃).grows).row
    obtain ⟨hmem, _, hps⟩ := World.row_of_eq_some.mp ho'
    exact ⟨o', hmem, hid', hu'.trans hu,
      (he.meanwhile (hw₂.trans hw₃)).congr (hps.trans hh.provider_subscription_id.symm)⟩
  refine ⟨hdeed, fun v hv => ?_⟩
  obtain ⟨hr, _, hrows, _⟩ := Db.insert_subscription_ok hdb
  have hrow : World.row_of { w₃.demote_held old with db := db } id = some r := by
    refine World.row_of_eq_some.mpr ⟨?_, by rw [hr]; rfl, by rw [hr]; rfl⟩
    simp [hrows]
  exact (World.holds_of_row hrow).grows hv.grows

/-! ## The handlers of the webhook -/

theorem cancel_upgraded.among {session : SessionObject} {new : StripeId} {u : UUID}
    {old : Option StripeId} (hs : Sound h w)
    (hq : q = .webhook (.checkout_session_completed session))
    (hid : session.subscription = some new)
    (howner : w.owner new = some u)
    (hold : ∀ i, old = some i → ∃ r, w.row_of i = some r ∧ r.val.user_id = u) :
    (Session.cancel_upgraded old).Among (Meanwhile h) (Deed h q) (fun _ _ => True) w := by
  cases old with
  | none => exact among_pure fun _ _ => trivial
  | some old =>
    obtain ⟨r, hr, hu⟩ := hold old rfl
    have hwho : ∀ t, Meanwhile h w t → t.Concerns q u := fun t ht =>
      World.concerns_owner hq hid (ht.grows.owner howner)
    have hold_owner : ∀ t, Meanwhile h w t → t.owner old = some u := fun t ht =>
      ht.grows.owner (by rw [hs.good.owner hr, hu])
    refine Among.bind part (P := fun _ t => t.stripe.statusOf old = some .canceled)
      (among_attempt part ?_) fun _ w₁ hw₁ hc => ?_
    · intro t _ t' ht hstep
      split at hstep
      · rename_i S hS
        split at hstep
        · cases hstep
        · rename_i hnot
          cases hstep
          have hlive : t.stripe.statusOf old = some S.val.status := by
            rw [Stripe.statusOf, hS, Option.map_some]
          refine ⟨.status (by simp) (by simpa [hlive] using hnot) (hold_owner t ht) (hwho t ht),
            fun v hv => hv.canceled ?_⟩
          change (t.stripe.set_status old .canceled).statusOf old = _
          rw [Stripe.statusOf_set_status, if_pos rfl, hlive]
          rfl
      · cases hstep
    · refine Among.bind part (now.among part) fun t w₂ hw₂ ht => ?_
      have hw := hw₁.trans hw₂
      refine Among.bind part (cancel_subscription.among part (hw.sound hs)
        (fun _ hr' => by cases hr') ?_ ?_) fun _ _ _ _ => among_pure fun _ _ => trivial
      · exact fun w₃ _ _ hw₃ _ hps _ => .cancel_event hq trivial
          (World.earned_of_canceled hps ((hw₂.trans hw₃).canceled hc))
          (Nat.le_trans ht hw₃.grows.clock)
      · intro w₃ r' hw₃ hh
        have ho := hh.owner ((hw.trans hw₃).sound hs).good
        rw [hold_owner w₃ (hw.trans hw₃), Option.some.injEq] at ho
        rw [← ho]
        exact hwho w₃ (hw.trans hw₃)

theorem find_or_create.among {session : SessionObject} {id : StripeId} {m : Option UuidText}
    {S : Row StripeSubscription} {u : UUID} (hs : Sound h w)
    (hq : q = .webhook (.checkout_session_completed session))
    (hid : session.subscription = some id) (href : session.client_reference_id = some (.ofUuid u))
    (hS : w.stripe.subscriptions.byId id = some S) (hn : w.Names u S.val.metadata) :
    (Session.find_or_create session m).Among (Meanwhile h) (Deed h q) (fun _ _ => True) w := by
  refine Among.bind part (find_row.among part hs _) fun o w₁ hw₁ _ => ?_
  cases o with
  | some sub => exact among_pure fun _ _ => trivial
  | none =>
    refine Among.bind part (P := fun v _ => v = u)
      (among_ofExcept fun v hv _ _ => ?_) fun v w₂ hw₂ hv => ?_
    · rw [href] at hv
      exact (Except.ok.inj hv).symm
    subst hv
    refine Among.bind part (P := fun _ _ => True) (among_ofExcept fun _ _ _ _ => trivial)
      fun p w₃ hw₃ _ => ?_
    have hw := hw₁.trans (hw₂.trans hw₃)
    obtain ⟨S', hS', hm, _⟩ := hw.grows.stripe id S hS
    rw [hid]
    exact (create_subscription.among part (hw.sound hs) hq hid rfl hS'
      (by rw [hm]; exact hn.grows hw.grows)).mono fun _ _ _ _ => trivial

theorem user_subscribe.among {session : SessionObject} (hs : Sound h w)
    (hq : q = .webhook (.checkout_session_completed session))
    (htells : w.TellsOf session) :
    (Session.user_subscribe session).Among (Meanwhile h) (Deed h q) (fun _ _ => True) w := by
  obtain ⟨id, S, u, hid, hS, href, hn⟩ := hs.good.tells htells
  have hmeta : ∀ t, Meanwhile h w t → ∃ S', t.stripe.subscriptions.byId id = some S' ∧
      S'.val.metadata = S.val.metadata ∧ t.Names u S'.val.metadata := by
    intro t ht
    obtain ⟨S', hS', hm, _⟩ := ht.grows.stripe id S hS
    exact ⟨S', hS', hm, by rw [hm]; exact hn.grows ht.grows⟩
  refine Among.bind part
    (P := fun S' t => S'.val.metadata = S.val.metadata) (among_query part ?_)
    fun S₁ w₁ hw₁ hm₁ => ?_
  · intro t S' ht hfound _ _
    obtain ⟨S'', hS'', hm, _⟩ := hmeta t ht
    rw [hid] at hfound
    simp only [Option.bind_some, hS''] at hfound
    cases hfound
    exact hm
  · refine Among.bind part (P := fun _ _ => True)
      (among_query part fun _ _ _ _ _ _ => trivial) fun plan w₂ hw₂ _ => ?_
    cases plan with
    | none => exact among_raise _
    | some plan =>
      have hw := hw₁.trans hw₂
      obtain ⟨S₂, hS₂, hm₂, hn₂⟩ := hmeta w₂ hw
      simp only [hm₁]
      refine Among.bind part (cancel_upgraded.among part (hw.sound hs) hq hid
        (World.owner_eq hS₂ hn₂.user) fun i hi => ?_) fun _ w₃ hw₃ _ => ?_
      · exact hn₂.upgrade i (by rw [hm₂, hi])
      · obtain ⟨S₃, hS₃, _, hn₃⟩ := hmeta w₃ (hw.trans hw₃)
        exact find_or_create.among part ((hw.trans hw₃).sound hs) hq hid href hS₃ hn₃

theorem renew_or_create.among {invoice : Invoice} {id : StripeId} {S : Row StripeSubscription}
    (hs : Sound h w) (hq : q = .webhook (.invoice_payment_succeeded invoice))
    (hid : invoice.subscription = some id)
    (htold : ∀ item ∈ S.val.items.head?, h.periods id (fromtimestamp item.current_period_end))
    (hS : ∃ S', w.stripe.subscriptions.byId id = some S' ∧ S'.val.metadata = S.val.metadata) :
    (Session.renew_or_create id S.val).Among (Meanwhile h) (Deed h q)
      (fun o t => ∀ r ∈ o, t.Holds id r) w := by
  unfold Session.renew_or_create
  rcases hitems : S.val.items with _ | ⟨item, items⟩
  · exact among_raise _
  · refine Among.bind part (update_subscription_period.among part hs hq hid
      (htold item (by simp [hitems]))) fun o w₁ hw₁ ho => ?_
    cases o with
    | some sub => exact among_pure fun t ht r hr => (ho r hr).grows ht.grows
    | none =>
      obtain ⟨S', hS', hm⟩ := hS
      obtain ⟨_, u, hn⟩ := hs.good.stripe S' (Table.byId_eq_some.mp hS').1
      refine Among.bind part (P := fun v _ => v = u)
        (among_ofExcept fun v hv _ _ => ?_) fun v w₂ hw₂ hv => ?_
      · rw [← hm, hn.user] at hv
        exact (Except.ok.inj hv).symm
      subst hv
      refine Among.bind part (P := fun _ _ => True)
        (among_ofExcept fun _ _ _ _ => trivial) fun p w₃ hw₃ _ => ?_
      have hw := hw₁.trans (hw₂.trans hw₃)
      obtain ⟨S'', hS'', hm', _⟩ := hw.grows.stripe id S' hS'
      refine Among.bind part (create_subscription.among part (hw.sound hs) hq hid rfl hS''
        (by rw [hm']; exact hn.grows hw.grows)) fun r _ _ hr => among_pure fun t ht r' hr' => ?_
      cases hr'
      exact hr.grows ht.grows

theorem handle_invoice_payment_succeeded.among {invoice : Invoice} (hs : Sound h w)
    (hq : q = .webhook (.invoice_payment_succeeded invoice)) :
    (Session.handle_invoice_payment_succeeded invoice).Among (Meanwhile h) (Deed h q)
      (fun o t => ∀ r ∈ o, ∃ id, invoice.subscription = some id ∧ t.Holds id r) w := by
  refine Among.bind part (P := fun ls _ => invoice.line_items = .ok ls)
    (among_ofExcept fun _ hl _ _ => hl) fun lines w₁ hw₁ hlines => ?_
  cases lines with
  | nil => exact among_pure fun _ _ r hr => by cases hr
  | cons line lines =>
    refine Among.bind part (P := fun i _ => line.stripe_subscription_id = .ok i)
      (among_ofExcept fun _ hl _ _ => hl) fun id w₂ hw₂ hline => ?_
    cases id with
    | none => exact among_pure fun _ _ r hr => by cases hr
    | some id =>
      have hid : invoice.subscription = some id := by simp [Invoice.subscription, hlines, hline]
      have hw := hw₁.trans hw₂
      refine Among.bind part (P := fun S t =>
        (∀ item ∈ S.val.items.head?, h.periods id (fromtimestamp item.current_period_end)) ∧
          ∃ S', t.stripe.subscriptions.byId id = some S' ∧ S'.val.metadata = S.val.metadata)
        (among_query part ?_) fun S w₃ hw₃ hS => ?_
      · intro t S ht hfound u hu
        simp only [Option.bind_some] at hfound
        rcases hS : t.stripe.subscriptions.byId id with _ | S'
        · rw [hS] at hfound
          cases hfound
        · rw [hS] at hfound
          cases hfound
          obtain ⟨S'', hS'', hm, _⟩ := hu.grows.stripe id S hS
          exact ⟨(((hw.trans ht).sound hs).told id S hS).1, S'', hS'', hm⟩
      · exact (renew_or_create.among part ((hw.trans hw₃).sound hs) hq hid hS.1 hS.2).mono
          fun o t _ ho r hr => ⟨id, hid, ho r hr⟩

/-! ## Payments and emails -/

theorem record_invoice_payment.among {invoice : Invoice} {sub : Option (Row Subscription)}
    (hq : q = .webhook (.invoice_payment_succeeded invoice))
    (hsub : ∀ r ∈ sub, ∃ id, invoice.subscription = some id ∧ w.Holds id r) :
    (record_invoice_payment invoice sub).Among (Meanwhile h) (Deed h q)
      (fun _ t => t.Settled (.webhook (.invoice_payment_succeeded invoice))) w := by
  cases sub with
  | none => exact among_raise _
  | some r =>
    obtain ⟨id, hid, hh⟩ := hsub r rfl
    refine Among.bind part
      (P := fun _ t => t.Settled (.webhook (.invoice_payment_succeeded invoice)))
      (among_attempt part ?_) fun _ _ _ hp => among_pure fun _ ht => hp.meanwhile ht
    intro t p t' ht hstep
    obtain ⟨⟨p', db⟩, hdb, he⟩ := map_eq_ok hstep
    cases he
    obtain ⟨s, hs, hsid, hu⟩ := (hh.grows ht.grows).row
    rw [← hsid, ← hu] at hdb
    refine ⟨.record hq hid hs hdb, fun u hut => ?_⟩
    obtain ⟨_, _, hrows, _⟩ := Db.insert_payment_ok hdb
    have hsettled : World.Settled { t with db := db }
        (.webhook (.invoice_payment_succeeded invoice)) :=
      ⟨p, by simp [hrows], .of_insert hid hs hdb⟩
    exact hsettled.meanwhile hut

theorem TaskName.delay.among (task : TaskName) (sub : Option (Row Subscription)) :
    (task.delay sub).Among (Meanwhile h) (Deed h q) (fun _ _ => True) w := by
  refine among_attempt part fun t _ t' _ hstep => ?_
  obtain ⟨d, _, he⟩ := map_eq_ok hstep
  cases he
  exact ⟨.enqueue _, fun _ _ => trivial⟩

theorem send_payment_email.among (reason : BillingReason) (sub : Option (Row Subscription)) :
    (send_payment_email reason sub).Among (Meanwhile h) (Deed h q) (fun _ _ => True) w := by
  cases reason with
  | subscription_create => exact TaskName.delay.among part _ _
  | subscription_cycle => exact TaskName.delay.among part _ _
  | other => exact among_pure fun _ _ => trivial

theorem handle_invoice_payment_failed.among {invoice : Invoice} (hs : Sound h w)
    (hq : q = .webhook (.invoice_payment_failed invoice)) :
    (Session.handle_invoice_payment_failed invoice).Among (Meanwhile h) (Deed h q)
      (fun _ _ => True) w := by
  refine Among.bind part (P := fun ls _ => invoice.line_items = .ok ls)
    (among_ofExcept fun _ hl _ _ => hl) fun lines w₁ hw₁ hlines => ?_
  cases lines with
  | nil => exact among_raise _
  | cons line lines =>
    refine Among.bind part (P := fun i _ => line.stripe_subscription_id = .ok i)
      (among_ofExcept fun _ hl _ _ => hl) fun id w₂ hw₂ hline => ?_
    refine update_sub_status.among part ((hw₁.trans hw₂).sound hs) hq fun i hi => ?_
    simp [Invoice.subscription, hlines, hline, hi]

theorem handle_subscription_deleted.among {d : DeletedSubscription} (hs : Sound h w)
    (hq : q = .webhook (.customer_subscription_deleted d))
    (hc : ∀ id ∈ d.id, w.stripe.statusOf id = some .canceled) :
    (Session.handle_subscription_deleted d).Among (Meanwhile h) (Deed h q) (fun _ _ => True) w := by
  unfold Session.handle_subscription_deleted
  rcases hid : d.id with _ | id
  · exact among_raise _
  · refine Among.bind part (now.among part) fun t w₁ hw₁ ht => ?_
    refine Among.bind part (cancel_subscription.among part (hw₁.sound hs)
      (fun _ hr => by cases hr) ?_ ?_) fun o _ _ _ => ?_
    · exact fun w₂ _ _ hw₂ _ hps _ => .cancel_event hq (hid.trans hps.symm)
        (World.earned_of_canceled hps ((hw₁.trans hw₂).canceled (hc id hid)))
        (Nat.le_trans ht hw₂.grows.clock)
    · exact fun w₂ r hw₂ hh => World.concerns_holder hq hid ((hw₁.trans hw₂).sound hs).good hh
    · cases o with
      | none => exact among_raise _
      | some sub => exact among_pure fun _ _ => trivial

theorem handle_event.among {e : Event} (hs : Sound h w) (hq : q = .webhook e)
    (hsends : w.Sends e) :
    (Session.handle_event e).Among (Meanwhile h) (Deed h q)
      (fun _ t => t.Settled (.webhook e)) w := by
  cases e with
  | checkout_session_completed session =>
    exact Among.bind part (user_subscribe.among part hs hq hsends) fun _ _ _ _ =>
      among_pure fun _ _ => trivial
  | invoice_payment_succeeded invoice =>
    refine Among.bind part (handle_invoice_payment_succeeded.among part hs hq)
      fun sub _ _ hsub => ?_
    refine Among.bind part (record_invoice_payment.among part hq hsub)
      fun _ _ _ hp => ?_
    exact (send_payment_email.among part _ _).mono fun _ _ ht _ => hp.meanwhile ht
  | invoice_payment_failed invoice =>
    refine Among.bind part (handle_invoice_payment_failed.among part hs hq)
      fun sub _ _ _ => ?_
    cases sub with
    | none => exact among_pure fun _ _ => trivial
    | some sub => exact (TaskName.delay.among part _ _).mono fun _ _ _ _ => trivial
  | customer_subscription_deleted d =>
    exact Among.bind part (handle_subscription_deleted.among part hs hq hsends) fun _ _ _ _ =>
      (Among.suppress part (TaskName.delay.among part _ _)).mono fun _ _ _ _ => trivial
  | other => exact among_pure fun _ _ => trivial

/-! ## The requests of a user -/

theorem ensure_customer.among {user : Row User} (user_repo : UserRepo)
    (hu : w.db.users.Has user.id) (hwho : w.Concerns q user.id) :
    (ensure_customer user user_repo).Among (Meanwhile h) (Deed h q)
      (fun u t => u.id = user.id ∧ t.db.users.Has user.id) w := by
  have hkeep : ∀ t, Meanwhile h w t → t.db.users.Has user.id := fun t ht => ht.grows.users _ hu
  unfold ensure_customer
  cases user.val.stripe_customer_id with
  | some customer => exact among_pure fun t ht => ⟨rfl, hkeep t ht⟩
  | none =>
    refine Among.bind part (P := fun _ _ => True) (among_attempt part ?_)
      fun customer w₁ hw₁ _ => ?_
    · intro t a t' ht hstep
      cases hstep
      exact ⟨.customer (hwho.grows ht.grows), fun _ _ => trivial⟩
    · cases user_repo with
      | user => exact among_raise _
      | repository =>
        refine Among.bind part (among_write part fun t ht =>
          .store_customer _ (hwho.grows (hw₁.trans ht).grows)) fun _ w₂ hw₂ _ => ?_
        refine among_query part fun t r ht hr u hu => ?_
        split at hr
        · rename_i s hb
          cases hr
          exact ⟨(Table.byId_eq_some.mp hb).2, hkeep u (hw₁.trans (hw₂.trans (ht.trans hu)))⟩
        · cases hr

theorem create_subscription_checkout_session.among {user : Row User} {plan : Row Plan}
    (user_repo : UserRepo) {old : Option StripeId} (hu : w.db.users.Has user.id)
    (hwho : w.Concerns q user.id) (hp : w.db.plans.Has plan.id)
    (hold : ∀ id, old = some id → ∃ r, w.row_of id = some r ∧ r.val.user_id = user.id) :
    (create_subscription_checkout_session user plan user_repo old).Among (Meanwhile h) (Deed h q)
      (fun _ _ => True) w := by
  refine Among.bind part (ensure_customer.among part user_repo hu hwho) fun u w₁ hw₁ hu₁ => ?_
  obtain ⟨hid, hhas⟩ := hu₁
  refine among_attempt part fun t s t' ht hstep => ?_
  cases hprice : plan.val.stripe_price_id with
  | none => simp [hprice] at hstep
  | some price =>
    simp only [hprice, Except.ok.injEq, Prod.mk.injEq] at hstep
    rw [← hstep.2]
    have hn : w.Names user.id ⟨some (.ofUuid plan.id), some (.ofUuid user.id), old⟩ :=
      ⟨rfl, hu, ⟨plan.id, rfl, hp⟩, hold⟩
    rw [hid]
    exact ⟨.open_session rfl (hn.grows (hw₁.trans ht).grows) rfl
      (hwho.grows (hw₁.trans ht).grows), fun _ _ => trivial⟩

theorem get_by_code.among (code : String) :
    (PlanRepository.get_by_code code).Among (Meanwhile h) (Deed h q)
      (fun o t => ∀ p ∈ o, t.db.plans.Has p.id) w := by
  refine among_query part fun t o _ ho u hu p hp => ?_
  have hmem : p ∈ t.db.plans.select (fun p => decide (p.code = code) && p.is_active) := by
    rw [scalar_one_or_none_eq_ok.mp ho, Option.mem_def.mp hp]
    simp
  exact hu.grows.plans _ (Table.has_of_mem (Table.mem_select.mp hmem).1)

theorem subscribe_user_to_plan.among (user_repo : UserRepo) {user : Row User} {code : String}
    (hs : Sound h w) (hq : q = .subscribe user code) (hu : user ∈ w.db.users.rows) :
    (subscribe_user_to_plan user_repo user code).Among (Meanwhile h) (Deed h q)
      (fun _ _ => True) w := by
  refine Among.bind part (find_access.among part hs _) fun o w₁ hw₁ _ => ?_
  cases o with
  | some sub => exact among_raise _
  | none =>
    refine Among.bind part (get_by_code.among part code) fun o w₂ hw₂ hplan => ?_
    cases o with
    | none => exact among_raise _
    | some plan =>
      exact create_subscription_checkout_session.among part user_repo
        ((hw₁.trans hw₂).grows.users _ (Table.has_of_mem hu)) (by rw [hq]; rfl) (hplan plan rfl)
        fun _ hid => by cases hid

theorem upgrade_subscription.among (user_repo : UserRepo) {user : Row User} {code : String}
    (hs : Sound h w) (hq : q = .upgrade user code) (hu : user ∈ w.db.users.rows) :
    (upgrade_subscription user_repo user code).Among (Meanwhile h) (Deed h q)
      (fun _ _ => True) w := by
  refine Among.bind part (find_access.among part hs _) fun o w₁ hw₁ hsub => ?_
  cases o with
  | none => exact among_raise _
  | some sub =>
    obtain ⟨huser, _, id, hh⟩ := hsub sub rfl
    refine Among.bind part (get_by_code.among part code) fun o w₂ hw₂ hplan => ?_
    cases o with
    | none => exact among_raise _
    | some plan =>
      simp only
      split
      · exact among_raise _
      · split
        · exact among_raise _
        · refine create_subscription_checkout_session.among part user_repo
            ((hw₁.trans hw₂).grows.users _ (Table.has_of_mem hu)) (by rw [hq]; rfl)
            (hplan plan rfl) fun i hi => ?_
          rw [hh.provider_subscription_id, Option.some.injEq] at hi
          subst hi
          obtain ⟨s, hs', _, hsu⟩ := (hh.grows hw₂.grows).row
          exact ⟨s, hs', hsu.trans huser⟩

/-- Stripe answers with the period that it has, or the stored end stays. It does not
answer for a subscription that is over, so this one was paid for. -/
theorem cancel_subscription_at_period_end.among {sub : Row Subscription} {id : StripeId}
    (hs : Sound h w) (hh : w.Holds id sub) (he : w.Earned h sub.val)
    (hq : q = .cancel sub.val.user_id) :
    (cancel_subscription_at_period_end sub).Among (Meanwhile h) (Deed h q) (fun times _ =>
      h.PaidFor id ∧
        (times.2 = sub.val.current_period_end ∨ ∃ e, times.2 = some e ∧ h.answers id e)) w := by
  unfold cancel_subscription_at_period_end
  simp only [hh.provider, hh.provider_subscription_id]
  refine Among.bind part (P := fun S _ => h.PaidFor id ∧
      ∀ e ∈ (truthy S.val.current_period_end).map fromtimestamp, h.answers id e)
    (among_attempt part ?_) fun S w₁ hw₁ hS => ?_
  · intro t S t' ht hstep
    rcases hb : t.stripe.subscriptions.byId id with _ | s
    · simp [hb] at hstep
    · simp only [hb] at hstep
      split at hstep
      · cases hstep
      · rename_i hnot
        cases hstep
        have howner := (hh.grows ht.grows).owner (ht.sound hs).good
        have hlive : t.stripe.statusOf id ≠ some .canceled := by
          rw [Stripe.statusOf, hb, Option.map_some]
          simpa using hnot
        have hpaid : h.PaidFor id :=
          ((he.meanwhile ht) id hh.provider_subscription_id).resolve_right hlive
        exact ⟨.status (by simp) hlive howner (by rw [hq]; rfl), fun _ _ =>
          ⟨hpaid, ((ht.sound hs).told id s hb).2⟩⟩
  · refine Among.bind part (P := fun o _ => o = some S.val)
      (among_pure fun _ _ => rfl) fun o w₂ _ ho => ?_
    subst ho
    refine Among.bind part (now.among part) fun t _ _ _ => among_pure fun _ _ => ?_
    simp only [Option.bind_some]
    refine ⟨hS.1, ?_⟩
    rcases hend : (truthy S.val.current_period_end).map fromtimestamp with _ | e
    · exact Or.inl rfl
    · exact Or.inr ⟨e, rfl, hS.2 e (by rw [hend]; rfl)⟩

/-- The session keeps the row that it has found. -/
theorem cancel_subscription_at_end_of_period.among {u : UUID} (hs : Sound h w)
    (hq : q = .cancel u) :
    (Session.cancel_subscription_at_end_of_period u).Among (Meanwhile h) (Deed h q)
      (fun _ _ => True) w := by
  refine Among.bind part (find_access.among part hs _) fun o w₁ hw₁ hsub => ?_
  cases o with
  | none => exact among_raise _
  | some sub =>
    obtain ⟨rfl, he, id, hh⟩ := hsub sub rfl
    simp only
    split
    · exact among_raise _
    · split
      · exact among_raise _
      · refine Among.bind part (cancel_subscription_at_period_end.among part
          (hw₁.sound hs) hh he hq) fun times w₂ hw₂ htimes => ?_
        obtain ⟨at_, stop⟩ := times
        have hh₂ := hh.grows hw₂.grows
        simp only [hh.provider, hh.provider_subscription_id]
        refine Among.bind part (cancel_subscription.among part ((hw₁.trans hw₂).sound hs)
          (fun r hr => Option.some.inj hr ▸ hh₂) ?_ ?_) fun o _ _ _ => ?_
        · intro t s r _ hsame hps hu
          cases hsame sub rfl
          exact .cancel_request (by rw [hu]; exact hq) hps htimes.1 htimes.2
        · intro t r ht hr
          rw [hq]
          have ho := hr.owner ((hw₁.trans (hw₂.trans ht)).sound hs).good
          have ho' := (hh₂.grows ht.grows).owner ((hw₁.trans (hw₂.trans ht)).sound hs).good
          rw [ho, Option.some.injEq] at ho'
          exact ho'.symm
        · cases o with
          | none => exact among_raise _
          | some sub => exact among_pure fun _ _ => trivial

end

/-! ## The step lemma and the run lemma -/

/-- Whatever came between its acts, a request in flight goes by its own deeds. -/
theorem prog.among (user_repo : UserRepo) (hs : Sound h w) (hcame : h.requests q)
    (hv : q.Valid w) :
    (Session.prog user_repo q).Among (Meanwhile h) (Deed h q) (fun _ t => t.Settled q) w := by
  have part := Meanwhile.part hcame
  cases q with
  | subscribe user code =>
    exact Among.bind part (subscribe_user_to_plan.among part user_repo hs rfl hv) fun _ _ _ _ =>
      among_pure fun _ _ => trivial
  | upgrade user code =>
    exact Among.bind part (upgrade_subscription.among part user_repo hs rfl hv) fun _ _ _ _ =>
      among_pure fun _ _ => trivial
  | cancel u =>
    exact Among.bind part (cancel_subscription_at_end_of_period.among part hs rfl)
      fun _ _ _ _ => among_pure fun _ _ => trivial
  | webhook e => exact handle_event.among part hs rfl hv

/-- What a run sees: the requests that come, and what Stripe has after each step. -/
def Past.Sees (h : Past) (user_repo : UserRepo) (c : Pool World Err Unit) :
    Moment Request Label → Prop
  | .arrive r => h.requests r
  | .act _ => True
  | .outside l => (l.next user_repo c.2).Told h ∧ ∀ id, l = .stop id → h.stopped id

/-- A step outside is a move. -/
theorem outside.moves {user_repo : UserRepo} {l : Label}
    (he : (outside user_repo).enabled w l) (ht : (l.next user_repo w).Told h)
    (hstop : ∀ id, l = .stop id → h.stopped id) :
    Meanwhile h w ((outside user_repo).next w l) := by
  obtain ⟨he, hout⟩ := he
  change Meanwhile h w (l.next user_repo w)
  cases l with
  | serve r n => cases hout
  | tick d => exact .of_move (.tick d)
  | pay session items =>
    obtain ⟨hi, hsome⟩ := he
    obtain ⟨c, hc, _⟩ := Option.map_eq_some_iff.mp hsome
    change World.Told h (((w.stripe.sessions.byId session).map (w.pay · items)).getD w) at ht
    change Meanwhile h w (((w.stripe.sessions.byId session).map (w.pay · items)).getD w)
    rw [hc] at ht ⊢
    exact .of_move (.pay (Table.byId_eq_some.mp hc).1 hi ht)
  | bill id items canceled_at period_end => exact .of_move (.bill he ht)
  | stop id => exact .of_move (.stop (hstop id rfl))

/-- The requests in flight, each with what it has left once it has returned. -/
def Pool.InFlight (h : Past) : List Request → Pool World Err Unit → Prop :=
  Pool.Serves (Meanwhile h) (Deed h) fun q x t => ∀ a, x = .ok a → t.Settled q

/-- The run lemma: traffic goes by moves and stays sound. -/
theorem traffic_moves {user_repo : UserRepo} {c c' : Pool World Err Unit} {qs : List Request}
    {ls : List (Moment Request Label)} (hrun : (traffic user_repo).Run (h.Sees user_repo) c ls c')
    (hc : Pool.InFlight h qs c) (hs : Sound h c.2) :
    Meanwhile h c.2 c'.2 ∧ Sound h c'.2 ∧ Pool.InFlight h (qs ++ arrivals ls) c' := by
  refine server_serves Meanwhile.others (fun _ _ hs hm => hm.sound hs) ?_ ?_ hrun hc hs
  · exact fun b q hs hv hcame => ⟨Meanwhile.part hcame,
      Proc.Amid.mono (prog.among user_repo hs hcame hv) fun _ _ hq => hq.2⟩
  · exact fun b l _ he hsees => outside.moves he hsees.1 hsees.2

end saas
