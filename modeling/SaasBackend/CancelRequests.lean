-- Cancel requests of users. A cancellation leaves the access that was paid for,
-- whatever comes later; and nothing sets the flag that a second request is
-- refused by, so no request is ever refused by it.
import SaasBackend.StaleFailure

open relational async

namespace saas

open Proc SubscriptionRepoistory StripeGateway SubscriptionService

/-! ## The flag is never set -/

/-- No row is marked to cancel at the end of its period. -/
def World.Unflagged (w : World) : Prop :=
  ∀ r ∈ w.db.subscriptions.rows, r.val.cancel_at_period_end = false

section

variable {l : Label} {w₀ w w' : World}

theorem World.Unflagged.patch (h : w.Unflagged) (i : UUID) {p : SubscriptionPatch}
    (hp : ∀ s, (p.apply s).cancel_at_period_end = s.cancel_at_period_end) :
    (w.update_subscription i p).Unflagged := by
  intro r' hr'
  rcases World.mem_update_subscription.mp hr' with ⟨r, hr, _, rfl⟩ | ⟨hr, _⟩
  · rw [hp]
    exact h r hr
  · exact h r' hr

/-- `cancel_subscription` too sets the status, and leaves the flag. -/
theorem Change.unflagged (h : Change l w₀ w w') (hw : w.Unflagged) : w'.Unflagged := by
  cases h with
  | quiet hq =>
    intro r hr
    rw [hq.subscriptions] at hr
    exact hw r hr
  | period => exact hw.patch _ fun _ => rfl
  | cancel => exact hw.patch _ fun _ => rfl
  | past_due => exact hw.patch _ fun _ => rfl
  | @create e id u p c st S old r db _ _ _ _ _ _ _ hdb =>
    have hdemote : (w.demote old).Unflagged := by
      cases old with
      | none => exact hw
      | some o => exact hw.patch _ fun _ => rfl
    obtain ⟨hnew, _, hrows, _⟩ := Db.insert_subscription_ok hdb
    intro r' hr'
    simp only [hrows, List.mem_append, List.mem_singleton] at hr'
    rcases hr' with hr' | rfl
    · exact hdemote r' hr'
    · rw [hnew]
      rfl
  | open_session => exact hw
  | status => exact hw
  | tick => exact hw
  | pay => exact hw
  | bill => exact hw

theorem Steps.unflagged (h : Steps l w₀ w) (h0 : w₀.Unflagged) : w.Unflagged := by
  induction h with
  | refl => exact h0
  | tail _ hc ih => exact hc.unflagged ih

theorem unflagged_of_reachable {user_repo : UserRepo}
    (h : (billing user_repo).Reachable Initial w) : w.Unflagged := by
  have hboth : Good w ∧ w.Unflagged := by
    apply h.invariant (I := fun t => Good t ∧ t.Unflagged)
    · intro s hs
      exact ⟨hs.good, fun r hr => by simp [hs.subscriptions] at hr⟩
    · rintro t l ⟨hg, ht⟩ he
      have hs := billing_steps hg he
      exact ⟨hs.good hg, hs.unflagged ht⟩
  exact hboth.2

end

/-! ## One cancel request -/

/-- The request on the one row with access, when the flag is not set. -/
theorem cancel_subscription_at_end_of_period.spec {w : World} {u : UUID} {id : StripeId}
    {r : Row Subscription} (hone : w.access_rows u w.clock = [r]) (hr : w.row_of id = some r)
    (hflag : r.val.cancel_at_period_end = false) :
    (cancel_subscription_at_end_of_period u).run w =
      match w.stripe.subscriptions.byId id with
      | none => (.error .stripeError, w)
      | some S =>
        if S.val.status = .canceled then (.error .stripeError, w)
        else
          let p := SubscriptionPatch.cancel
            (((truthy S.val.canceled_at).map fromtimestamp).getD w.clock)
            ((truthy S.val.current_period_end).map fromtimestamp <|> r.val.current_period_end)
          (.ok ⟨r.id, p.apply r.val⟩,
            (w.set_status id .cancel_at_period_end).update_subscription r.id p) := by
  obtain ⟨_, hprov, hid⟩ := World.row_of_eq_some.mp hr
  unfold cancel_subscription_at_end_of_period
  rw [run_bind, get_subscription_with_access.spec, hone]
  simp only [scalar_one_or_none, hflag, hprov, ne_eq, not_true_eq_false, if_false,
    Bool.false_eq_true]
  rw [run_bind, cancel_subscription_at_period_end.spec hprov hid]
  rcases hS : w.stripe.subscriptions.byId id with _ | S
  · rfl
  · by_cases hc : S.val.status = .canceled
    · simp only [hc, if_true]
    · simp only [hc, if_false, hid]
      rw [run_bind, cancel_subscription.spec, World.row_of_set_status, hr]
      rfl

/-- A request that succeeds found one row with access. -/
theorem cancel_subscription_at_end_of_period.found {w : World} {u : UUID} {r' : Row Subscription}
    (hok : ((cancel_subscription_at_end_of_period u).run w).1 = .ok r') :
    ∃ r, w.access_rows u w.clock = [r] := by
  unfold cancel_subscription_at_end_of_period at hok
  rw [run_bind, get_subscription_with_access.spec] at hok
  rcases ha : scalar_one_or_none (w.access_rows u w.clock) with e | _ | r
  · simp [ha] at hok
  · simp only [ha] at hok
    cases hok
  · exact ⟨r, scalar_one_or_none_eq_ok.mp ha⟩

/-- The request is refused because the subscription is to be canceled already,
and nothing happens, here or at Stripe. -/
def World.RefusesCancel (w : World) (u : UUID) : Prop :=
  (cancel_subscription_at_end_of_period u).run w =
    (.error (.http 400
      "Subscription is already set to cancel at the end of the billing period."), w)

theorem not_refusesCancel {w : World} (hg : Good w) (hflags : w.Unflagged) (u : UUID) :
    ¬ w.RefusesCancel u := by
  intro hrefused
  unfold World.RefusesCancel at hrefused
  rcases ha : scalar_one_or_none (w.access_rows u w.clock) with e | _ | r
  · unfold cancel_subscription_at_end_of_period at hrefused
    rw [run_bind, get_subscription_with_access.spec, ha] at hrefused
    simp only [Prod.mk.injEq, Except.error.injEq] at hrefused
    obtain ⟨he, _⟩ := hrefused
    unfold scalar_one_or_none at ha
    split at ha <;> cases ha
    cases he
  · unfold cancel_subscription_at_end_of_period at hrefused
    rw [run_bind, get_subscription_with_access.spec, ha] at hrefused
    simp [httpException] at hrefused
  · obtain ⟨hone, hmem, _⟩ := access_found ha
    obtain ⟨id, _, hr⟩ := hg.row_of hmem
    rw [cancel_subscription_at_end_of_period.spec hone hr (hflags r hmem)] at hrefused
    rcases hS : w.stripe.subscriptions.byId id with _ | S
    · simp [hS] at hrefused
    · simp only [hS] at hrefused
      split at hrefused <;> cases hrefused

/-- In no reachable state is a cancel request refused as the second one. Whatever
came before, it goes to Stripe and succeeds, if Stripe has not canceled the one
subscription with access. -/
theorem second_cancel_is_never_refused {user_repo : UserRepo} {w : World}
    (hw : (billing user_repo).Reachable Initial w) (u : UUID) :
    ¬ w.RefusesCancel u ∧
    ∀ r id S, w.access_rows u w.clock = [r] → w.row_of id = some r →
      w.stripe.subscriptions.byId id = some S → S.val.status ≠ .canceled →
      ∃ r', ((cancel_subscription_at_end_of_period u).run w).1 = .ok r' ∧
        ((cancel_subscription_at_end_of_period u).run w).2.stripe =
          w.stripe.set_status id .cancel_at_period_end := by
  have hflags := unflagged_of_reachable hw
  refine ⟨not_refusesCancel (billing_good hw) hflags u, fun r id S hone hr hS hlive => ?_⟩
  have hflag := hflags r (World.row_of_eq_some.mp hr).1
  rw [cancel_subscription_at_end_of_period.spec hone hr hflag, hS]
  simp only [hlive, if_false]
  exact ⟨_, rfl, rfl⟩

namespace Sample

def cancel : Label := .serve (.cancel 0) none

/-- Ann has bought and paid. -/
def subscribed : List Label := [subscribe "pro", .pay 0 [⟨900, 2000⟩], checkout 0, paid 0 0]

theorem second_cancel_is_never_refused_sample :
    ¬ ((billing .user).exec world (subscribed ++ [cancel, .tick 5])).RefusesCancel 0 :=
  (second_cancel_is_never_refused ⟨world, _, world_initial, .of_path (by decide)⟩ 0).1

/-- Ann cancels twice within the period: the second request succeeds too, goes
to Stripe again and moves `canceled_at`. -/
theorem second_cancel_succeeds :
    (billing .user).Reachable Initial ((billing .user).exec world subscribed) ∧
    ((cancel_subscription_at_end_of_period 0).run
      ((billing .user).exec world subscribed)).1.isOk = true ∧
    (∃ r, ((billing .user).exec world (subscribed ++ [cancel, .tick 5])).row_of 0 = some r ∧
      r.val.grants_access (fromtimestamp 1999) = true ∧
      r.val.canceled_at = some (fromtimestamp 1000)) ∧
    ¬ ((billing .user).exec world (subscribed ++ [cancel, .tick 5])).RefusesCancel 0 ∧
    (∃ r, ((billing .user).exec world (subscribed ++ [cancel, .tick 5, cancel])).row_of 0 = some r ∧
      r.val.canceled_at = some (fromtimestamp 1000 + 5)) := by
  refine ⟨⟨world, _, world_initial, .of_path (by decide)⟩, by decide, ⟨_, rfl, by decide, rfl⟩,
    fun hrefused => ?_, ⟨_, rfl, rfl⟩⟩
  have hok : ((cancel_subscription_at_end_of_period 0).run
      ((billing .user).exec world (subscribed ++ [cancel, .tick 5]))).1.isOk = true := by decide
  unfold World.RefusesCancel at hrefused
  rw [hrefused] at hok
  cases hok

end Sample

/-! ## The paid period -/

/-- The subscription `id` is canceled here and paid until `E`, and Stripe will
not answer with an earlier end. -/
structure World.CanceledUntil (w : World) (id : StripeId) (E : Time) : Prop where
  row : ∃ r, w.row_of id = some r ∧ r.val.status = .CANCELED ∧
    ∃ e, r.val.current_period_end = some e ∧ E ≤ e
  stripe : ∃ S, w.stripe.subscriptions.byId id = some S ∧
    ∀ p, truthy S.val.current_period_end = some p → E ≤ fromtimestamp p

/-- The step is no paid invoice and no deletion of the subscription and no
checkout that replaces it, and Stripe does not cut its period short. -/
def KeepsPeriod (id : StripeId) (E : Time) (w : World) : Label → Prop
  | .serve (.webhook (.invoice_payment_succeeded invoice)) _ => invoice.subscription ≠ some id
  | .serve (.webhook (.customer_subscription_deleted d)) _ => d.id ≠ some id
  | .serve (.webhook (.checkout_session_completed session)) _ =>
    w.upgrades (.checkout_session_completed session) ≠ some id
  | .bill i _ _ period_end =>
    i = id → ∀ p, truthy period_end = some p → E ≤ fromtimestamp p
  | _ => True

instance (id : StripeId) (E : Time) (w : World) : ∀ l, Decidable (KeepsPeriod id E w l)
  | .serve (.webhook (.invoice_payment_succeeded invoice)) _ =>
    inferInstanceAs (Decidable (invoice.subscription ≠ some id))
  | .serve (.webhook (.customer_subscription_deleted d)) _ =>
    inferInstanceAs (Decidable (d.id ≠ some id))
  | .serve (.webhook (.checkout_session_completed session)) _ =>
    inferInstanceAs (Decidable (w.upgrades (.checkout_session_completed session) ≠ some id))
  | .bill i _ _ period_end =>
    inferInstanceAs (Decidable (i = id → ∀ p ∈ truthy period_end, E ≤ fromtimestamp p))
  | .serve (.webhook (.invoice_payment_failed _)) _ => isTrue trivial
  | .serve (.webhook .other) _ => isTrue trivial
  | .serve (.subscribe _ _) _ => isTrue trivial
  | .serve (.upgrade _ _) _ => isTrue trivial
  | .serve (.cancel _) _ => isTrue trivial
  | .tick _ => isTrue trivial
  | .pay _ _ => isTrue trivial
  | .stop _ => isTrue trivial

section

variable {l : Label} {w₀ w w' : World} {id : StripeId} {E : Time}

theorem KeepsPeriod.invoice {invoice : Invoice} (h : KeepsPeriod id E w l)
    (hl : l.event = some (.invoice_payment_succeeded invoice)) :
    invoice.subscription ≠ some id := by
  obtain ⟨_, rfl⟩ := Label.serves_event hl
  exact h

theorem KeepsPeriod.deletion {d : DeletedSubscription} (h : KeepsPeriod id E w l)
    (hl : l.event = some (.customer_subscription_deleted d)) : d.id ≠ some id := by
  obtain ⟨_, rfl⟩ := Label.serves_event hl
  exact h

theorem KeepsPeriod.checkout {session : SessionObject} (h : KeepsPeriod id E w l)
    (hl : l.event = some (.checkout_session_completed session)) :
    w.upgrades (.checkout_session_completed session) ≠ some id := by
  obtain ⟨_, rfl⟩ := Label.serves_event hl
  exact h

/-- A cancellation on such a step gives the row no end before `E`. -/
theorem Cancels.keeps {r : Row Subscription} {stop : Option Time} {e : Time}
    (h : Cancels l w₀ w id r stop) (hl : KeepsPeriod id E w₀ l) (h₀ : w₀.CanceledUntil id E)
    (he : r.val.current_period_end = some e) (hle : E ≤ e) :
    ∃ e', (stop <|> r.val.current_period_end) = some e' ∧ E ≤ e' := by
  cases h with
  | @request n S hcancel hw hr hone hS =>
    obtain ⟨S', hS', hstripe⟩ := h₀.stripe
    rw [hS, Option.some.injEq] at hS'
    subst hS'
    rcases hp : truthy S.val.current_period_end with _ | p
    · exact ⟨e, by simp [he], hle⟩
    · exact ⟨fromtimestamp p, by simp, hstripe p hp⟩
  | deletion hev hw hid => exact absurd hid (hl.deletion hev)
  | upgrade hev hw hsubj hlive =>
    refine absurd ?_ (hl.checkout hev)
    unfold World.upgrades
    simp [hsubj, hlive]

/-- What Stripe will answer after an effect. -/
theorem Effect.keeps_answer (h : Effect l w₀ w w') (hl : KeepsPeriod id E w₀ l)
    (hw : w.CanceledUntil id E) : ∃ S, w'.stripe.subscriptions.byId id = some S ∧
      ∀ p, truthy S.val.current_period_end = some p → E ≤ fromtimestamp p := by
  obtain ⟨S, hS, hstripe⟩ := hw.stripe
  obtain ⟨S', hS', ⟨st, hst⟩ | ⟨items, ca, pe, rfl, hset⟩⟩ := h.at_stripe hS
  · refine ⟨S', hS', ?_⟩
    rw [hst]
    exact hstripe
  · refine ⟨S', hS', ?_⟩
    rw [hset]
    exact hl rfl

/-- Every other writer leaves the status and the end of the row. -/
theorem Effect.canceledUntil (h : Effect l w₀ w w') (hl : KeepsPeriod id E w₀ l)
    (h₀ : w₀.CanceledUntil id E) (hw : w.CanceledUntil id E) : w'.CanceledUntil id E := by
  refine ⟨?_, h.keeps_answer hl hw⟩
  obtain ⟨r, hr, hc, e, he, hle⟩ := hw.row
  have hsame : ∀ {v : World}, v.row_of id = some r → ∃ r', v.row_of id = some r' ∧
      r'.val.status = .CANCELED ∧ ∃ e, r'.val.current_period_end = some e ∧ E ≤ e :=
    fun hv => ⟨r, hv, hc, e, he, hle⟩
  cases h with
  | @period invoice i r' S item items hev hid hw' hr' hS hi hwho =>
    refine hsame (World.row_of_patch_apart _ hr ?_ hr')
    rintro rfl
    exact hl.invoice hev hid
  | @past_due invoice i r' hev hid hr' hc' hwho =>
    refine hsame (World.row_of_patch_apart _ hr ?_ hr')
    rintro rfl
    rw [hr, Option.some.injEq] at hr'
    exact hc' (hr' ▸ hc)
  | @cancel i r' stop at_ hr' hst hwhy hwho =>
    by_cases hne : i = id
    · subst hne
      rw [hr, Option.some.injEq] at hr'
      subst hr'
      exact ⟨_, World.row_of_patch _ hr, rfl, hwhy.keeps hl h₀ he hle⟩
    · exact hsame (World.row_of_patch_apart _ hr hne hr')
  | @create ev i u p c up st S old r' db hev hsubj hst hnone hS hn hp hold hdem hdb hwho =>
    have hmem : ∀ o, old = some o → o ∈ w.db.subscriptions.rows := by
      rintro o rfl
      exact (access_found hold).2.1
    rcases World.row_of_demote hmem hr with h1 | ⟨_, _, _, h1⟩
    · exact hsame (World.row_of_insert hdb h1)
    · exact ⟨_, World.row_of_insert hdb h1, rfl, e, he, hle⟩
  | record _ _ _ hdb _ =>
    obtain ⟨_, _, _, hsubs, _⟩ := Db.insert_payment_ok hdb
    exact hsame (by rw [World.row_of_congr hsubs, hr])
  | customer => exact hsame hr
  | store_customer => exact hsame hr
  | open_session => exact hsame hr
  | status => exact hsame hr
  | enqueue => exact hsame hr
  | tick => exact hsame hr
  | pay => exact hsame hr
  | bill => exact hsame hr
  | stop => exact hsame hr

theorem Effects.canceledUntil (h : Effects l w₀ w) (hl : KeepsPeriod id E w₀ l)
    (h₀ : w₀.CanceledUntil id E) : w.CanceledUntil id E := by
  induction h with
  | refl => exact h₀
  | tail _ hstep ih => exact hstep.canceledUntil hl h₀ ih

theorem run_canceledUntil {user_repo : UserRepo} {ls : List Label} (hg : Good w)
    (hw : w.CanceledUntil id E) (h : (billing user_repo).Run (KeepsPeriod id E) w ls w') :
    w'.CanceledUntil id E := by
  have hboth : Good w' ∧ w'.CanceledUntil id E := by
    apply h.invariant (I := fun t => Good t ∧ t.CanceledUntil id E) ⟨hg, hw⟩
    rintro t l ⟨hgt, ht⟩ he hl
    have heff := billing_effects hgt he
    exact ⟨heff.good hgt, heff.canceledUntil hl ht⟩
  exact hboth.2

end

/-- The user cancels a subscription that gives access until `E`. Stripe answers
with no end of the period or with this one, and the request succeeds. -/
structure World.CancelsPaid (w : World) (u : UUID) (id : StripeId) (r : Row Subscription)
    (E : Time) : Prop where
  row : w.row_of id = some r
  user : r.val.user_id = u
  access : r.val.grants_access w.clock = true
  stop : r.val.current_period_end = some E
  answer : ∀ S, w.stripe.subscriptions.byId id = some S →
    ∀ p, truthy S.val.current_period_end = some p → fromtimestamp p = E
  succeeds : ∃ r', ((cancel_subscription_at_end_of_period u).run w).1 = .ok r'

theorem next_cancel (user_repo : UserRepo) (w : World) (u : UUID) :
    (billing user_repo).next w (.serve (.cancel u) none) =
      ((cancel_subscription_at_end_of_period u).run w).2 := by
  change ((cancel_subscription_at_end_of_period u >>= fun _ => pure ()).run w).2 = _
  rw [run_bind]
  rcases (cancel_subscription_at_end_of_period u).run w with ⟨e | r, w'⟩ <;> rfl

/-- What the request of such a user does. -/
theorem World.CancelsPaid.next {w : World} {u : UUID} {id : StripeId} {r : Row Subscription}
    {E : Time} (h : w.CancelsPaid u id r E) (hflags : w.Unflagged) :
    ∃ S at_ stop, w.stripe.subscriptions.byId id = some S ∧ (stop = none ∨ stop = some E) ∧
      ((cancel_subscription_at_end_of_period u).run w).2 =
        (w.set_status id .cancel_at_period_end).update_subscription r.id
          (.cancel at_ (stop <|> r.val.current_period_end)) := by
  obtain ⟨r', hok⟩ := h.succeeds
  obtain ⟨r₁, hone⟩ := cancel_subscription_at_end_of_period.found hok
  have hmem : r ∈ w.access_rows u w.clock :=
    World.mem_access_rows.mpr ⟨(World.row_of_eq_some.mp h.row).1, h.user, h.access⟩
  rw [hone, List.mem_singleton] at hmem
  subst hmem
  have hflag := hflags r (World.row_of_eq_some.mp h.row).1
  have hspec := cancel_subscription_at_end_of_period.spec hone h.row hflag
  rcases hS : w.stripe.subscriptions.byId id with _ | S
  · rw [hspec, hS] at hok
    cases hok
  · rw [hS] at hspec
    by_cases hc : S.val.status = .canceled
    · simp only [hc, if_true] at hspec
      rw [hspec] at hok
      cases hok
    · simp only [hc, if_false] at hspec
      refine ⟨S, _, (truthy S.val.current_period_end).map fromtimestamp, rfl, ?_,
        congrArg Prod.snd hspec⟩
      rcases hp : truthy S.val.current_period_end with _ | p
      · exact Or.inl rfl
      · exact Or.inr (congrArg some (h.answer S hS p hp))

section

variable {user_repo : UserRepo} {w : World} {u : UUID} {id : StripeId} {r : Row Subscription}
  {E : Time}

/-- The request leaves the subscription canceled and paid until `E`. -/
theorem World.CancelsPaid.canceledUntil (h : w.CancelsPaid u id r E) (hflags : w.Unflagged) :
    ((billing user_repo).next w (.serve (.cancel u) none)).CanceledUntil id E := by
  obtain ⟨S, at_, stop, hS, hstop, hnext⟩ := h.next hflags
  rw [next_cancel, hnext]
  constructor
  · refine ⟨_, World.row_of_patch (w := w.set_status id .cancel_at_period_end) _ h.row, rfl, E,
      ?_, Nat.le_refl E⟩
    rcases hstop with rfl | rfl
    · change (none <|> r.val.current_period_end <|> r.val.current_period_end) = some E
      simp [h.stop]
    · rfl
  · have hb := Stripe.byId_set_status w.stripe id id .cancel_at_period_end
    rw [hS, Option.map_some] at hb
    refine ⟨_, hb, fun p hp => ?_⟩
    rw [Table.updateRow_of_eq (Table.byId_eq_some.mp hS).2] at hp
    exact Nat.le_of_eq (h.answer S hS p hp).symm

theorem World.CancelsPaid.others (h : w.CancelsPaid u id r E) (hflags : w.Unflagged)
    {r' : Row Subscription} (hr' : r'.id ≠ r.id) :
    r' ∈ ((billing user_repo).next w (.serve (.cancel u) none)).db.subscriptions.rows ↔
      r' ∈ w.db.subscriptions.rows := by
  obtain ⟨_, _, _, _, _, hnext⟩ := h.next hflags
  rw [next_cancel, hnext, World.mem_update_subscription]
  constructor
  · rintro (⟨r₁, _, hid, rfl⟩ | ⟨hmem, _⟩)
    · exact absurd hid hr'
    · exact hmem
  · exact fun hmem => Or.inr ⟨hmem, hr'⟩

end

/-- A canceled subscription keeps its access until the end that was paid for,
and its user and its plan, in every run that renews, deletes and replaces it
nowhere. The cancellation itself changes no other row. -/
theorem cancel_keeps_paid_period {user_repo : UserRepo} {w w' : World} {u : UUID} {id : StripeId}
    {r : Row Subscription} {E : Time} {ls : List Label}
    (hw : (billing user_repo).Reachable Initial w) (hcancel : w.CancelsPaid u id r E)
    (hlater : (billing user_repo).Run (KeepsPeriod id E)
      ((billing user_repo).next w (.serve (.cancel u) none)) ls w') :
    (∃ r', w'.row_of id = some r' ∧ r'.id = r.id ∧ r'.val.user_id = r.val.user_id ∧
      r'.val.plan_id = r.val.plan_id ∧ ∀ t, t < E → r'.val.grants_access t = true) ∧
    ∀ r₂ : Row Subscription, r₂.id ≠ r.id →
      (r₂ ∈ ((billing user_repo).next w (.serve (.cancel u) none)).db.subscriptions.rows ↔
        r₂ ∈ w.db.subscriptions.rows) := by
  have hg := billing_good hw
  have hflags := unflagged_of_reachable hw
  refine ⟨?_, fun r₂ hne => hcancel.others hflags hne⟩
  have hstep : Steps (.serve (.cancel u) none) w
      ((billing user_repo).next w (.serve (.cancel u) none)) := billing_steps hg trivial
  have hg1 := hstep.good hg
  -- the row is the same row in every later state
  have hgrows := hstep.grows.trans (run_good hg1 hlater).2
  obtain ⟨r', hr', hid, huser, hplan⟩ := hgrows.row_of hcancel.row
  obtain ⟨⟨r₁, hr₁, hc, e, he, hle⟩, _⟩ :=
    run_canceledUntil hg1 (hcancel.canceledUntil hflags) hlater
  rw [hr', Option.some.injEq] at hr₁
  subst hr₁
  refine ⟨r', hr', hid, huser, hplan, fun t ht => ?_⟩
  rw [Subscription.grants_access_iff]
  exact ⟨⟨e, he, Nat.lt_of_lt_of_le ht hle⟩, Or.inr hc⟩

open Sample in
/-- A failed invoice, a second cancel request and a new checkout come after the
cancellation: ann has access until the end that she paid for. -/
theorem cancel_keeps_paid_period_sample :
    ∃ r', ((billing .user).exec ((billing .user).exec world (subscribed ++ [cancel]))
        [failed_of (invoice 1 0 .subscription_cycle), .tick 5, cancel,
          subscribe "vip"]).row_of 0 = some r' ∧
      r'.id = 0 ∧ r'.val.user_id = 0 ∧ r'.val.plan_id = 0 ∧
      ∀ t, t < fromtimestamp 2000 → r'.val.grants_access t = true :=
  have hcancel : ((billing .user).exec world subscribed).CancelsPaid 0 0 _ (fromtimestamp 2000) :=
    ⟨rfl, rfl, by decide, rfl, by decide, ⟨_, rfl⟩⟩
  (cancel_keeps_paid_period ⟨world, _, world_initial, .of_path (by decide)⟩ hcancel
    (.of_path (by decide))).1

end saas
