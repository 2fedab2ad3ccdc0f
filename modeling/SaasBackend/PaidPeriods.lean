-- Where the end of a period comes from: every row ends by now, or by the end
-- that Stripe gave with a paid invoice of the subscription.
import SaasBackend.BillingSteps

open relational async

namespace saas

/-! ## The ends of the rows -/

/-- Stripe answers a cancel request with no period end later than the stored one. -/
def NoLongerPeriod (w : World) : Label → Prop
  | .serve (.cancel u) _ => ∀ r ∈ w.access_rows u w.clock,
      ∀ id ∈ r.val.provider_subscription_id, ∀ S ∈ w.stripe.subscriptions.byId id,
        ∀ p ∈ truthy S.val.current_period_end, ∀ e ∈ r.val.current_period_end,
          fromtimestamp p ≤ e
  | _ => True

instance (w : World) : ∀ l, Decidable (NoLongerPeriod w l)
  | .serve (.cancel u) _ => inferInstanceAs (Decidable (∀ r ∈ w.access_rows u w.clock,
      ∀ id ∈ r.val.provider_subscription_id, ∀ S ∈ w.stripe.subscriptions.byId id,
        ∀ p ∈ truthy S.val.current_period_end, ∀ e ∈ r.val.current_period_end,
          fromtimestamp p ≤ e))
  | .serve (.subscribe _ _) _ => isTrue trivial
  | .serve (.upgrade _ _) _ => isTrue trivial
  | .serve (.webhook _) _ => isTrue trivial
  | .tick _ => isTrue trivial
  | .pay _ _ => isTrue trivial
  | .bill _ _ _ _ => isTrue trivial
  | .stop _ => isTrue trivial

/-- The row `i` ends later than `t`. -/
def World.EndsAfter (w : World) (i : UUID) (t : Time) : Prop :=
  ∃ r ∈ w.db.subscriptions.rows, r.id = i ∧ ∃ e ∈ r.val.current_period_end, t < e

/-- The label delivers a paid invoice of the row `i`, and Stripe's period then
ends later than `t`. -/
def World.PaysAfter (w : World) (l : Label) (i : UUID) (t : Time) : Prop :=
  ∃ r e, w.renewal l = some (r, e) ∧ r.id = i ∧ t < e

section

variable {l : Label} {w₀ w w' : World}

theorem World.EndsAfter.of_rows {i : UUID} {t : Time}
    (h : ∀ r' ∈ w'.db.subscriptions.rows, ∃ r ∈ w.db.subscriptions.rows, r.id = r'.id ∧
      r.val.current_period_end = r'.val.current_period_end)
    (he : w'.EndsAfter i t) : w.EndsAfter i t := by
  obtain ⟨r', hr', hi, e, he', hlt⟩ := he
  obtain ⟨r, hr, hid, hend⟩ := h r' hr'
  exact ⟨r, hr, hid.trans hi, e, by rw [hend]; exact he', hlt⟩

theorem World.EndsAfter.of_patch {r : Row Subscription} {p : SubscriptionPatch} {i : UUID}
    {t : Time} (hr : r ∈ w.db.subscriptions.rows)
    (he : (w.update_subscription r.id p).EndsAfter i t) :
    w.EndsAfter i t ∨ r.id = i ∧ ∃ e ∈ (p.apply r.val).current_period_end, t < e := by
  obtain ⟨r', hr', hi, e, he', hlt⟩ := he
  rcases World.mem_update_subscription.mp hr' with ⟨r1, hr1, hid, rfl⟩ | ⟨hr1, _⟩
  · obtain rfl := Table.eq_of_id hr1 hr hid
    exact Or.inr ⟨hi, e, he', hlt⟩
  · exact Or.inl ⟨r', hr1, hi, e, he', hlt⟩

theorem Cancels.ends {id : StripeId} {r : Row Subscription} {stop : Option Time} {e : Time}
    {at_ : Time} (h : Cancels l w₀ w id r stop) (hl : NoLongerPeriod w₀ l)
    (he : e ∈ ((SubscriptionPatch.cancel at_ stop).apply r.val).current_period_end) :
    e ≤ w.clock ∨ ∃ e' ∈ r.val.current_period_end, e ≤ e' := by
  cases h with
  | @request n S hcancel hw hr hone hS =>
    have hmem : r ∈ w₀.access_rows r.val.user_id w₀.clock := by simp [hone]
    obtain ⟨_, _, hacc⟩ := World.mem_access_rows.mp hmem
    obtain ⟨⟨e₀, he₀, _⟩, _⟩ := Subscription.grants_access_iff.mp hacc
    obtain ⟨_, _, hid⟩ := World.row_of_eq_some.mp hr
    refine Or.inr ⟨e₀, he₀, ?_⟩
    subst hcancel
    rcases hp : truthy S.val.current_period_end with _ | p
    · rw [hp] at he
      have hend : (r.val.current_period_end <|> r.val.current_period_end) = some e := he
      rw [he₀] at hend
      cases hend
      exact Nat.le_refl _
    · rw [hp] at he
      have hend : some (fromtimestamp p) = some e := he
      have hle := hl r hmem id hid S hS p hp e₀ he₀
      rw [Option.some.injEq] at hend
      rwa [← hend]
  | deletion _ hw _ =>
    have hend : some w₀.clock = some e := he
    rw [Option.some.injEq] at hend
    have hclock : e = w.clock := by rw [hw]; exact hend.symm
    exact Or.inl (Nat.le_of_eq hclock)
  | upgrade _ hw _ _ =>
    have hend : some w₀.clock = some e := he
    rw [Option.some.injEq] at hend
    have hclock : e = w.clock := by rw [hw]; exact hend.symm
    exact Or.inl (Nat.le_of_eq hclock)

/-- What one effect makes of the ends: a later end than now is an old one, or
the end of a renewal. -/
theorem Effect.ends {i : UUID} {t : Time} (h : Effect l w₀ w w') (hl : NoLongerPeriod w₀ l)
    (he : w'.EndsAfter i t) : w.EndsAfter i t ∨ t < w'.clock ∨ w₀.PaysAfter l i t := by
  have hsame : (∀ r' ∈ w'.db.subscriptions.rows, r' ∈ w.db.subscriptions.rows) →
      w.EndsAfter i t ∨ t < w'.clock ∨ w₀.PaysAfter l i t :=
    fun hrows => Or.inl (he.of_rows fun r' hr' => ⟨r', hrows r' hr', rfl, rfl⟩)
  cases h with
  | customer => exact hsame fun r hr => hr
  | store_customer => exact hsame fun r hr => hr
  | open_session => exact hsame fun r hr => hr
  | status => exact hsame fun r hr => hr
  | @period invoice id r S item items hev hid hw hr hS hi hwho =>
    rcases World.EndsAfter.of_patch (World.row_of_eq_some.mp hr).1 he with h1 | ⟨hri, e, he', hlt⟩
    · exact Or.inl h1
    · subst hw
      cases he'
      exact Or.inr (Or.inr ⟨r, _, World.renewal_eq hev hid hr hS hi, hri, hlt⟩)
  | @cancel id r stop at_ hr hst hwhy hwho =>
    have hmem := (World.row_of_eq_some.mp hr).1
    rcases World.EndsAfter.of_patch hmem he with h1 | ⟨hri, e, he', hlt⟩
    · exact Or.inl h1
    · rcases hwhy.ends hl he' with hnow | ⟨e₁, he₁, hle₁⟩
      · exact Or.inr (Or.inl (Nat.lt_of_lt_of_le hlt hnow))
      · exact Or.inl ⟨r, hmem, hri, e₁, he₁, Nat.lt_of_lt_of_le hlt hle₁⟩
  | @past_due invoice id r hev hid hr hc hwho =>
    have hmem := (World.row_of_eq_some.mp hr).1
    rcases World.EndsAfter.of_patch hmem he with h1 | ⟨hri, h1⟩
    · exact Or.inl h1
    · exact Or.inl ⟨r, hmem, hri, h1⟩
  | @create ev id u p c up st S old r db hev hsubj hst hnone hS hn hp hold hdem hdb hwho =>
    obtain ⟨hnew, _, hrows, _⟩ := Db.insert_subscription_ok hdb
    obtain ⟨r', hr', hi, e, he', hlt⟩ := he
    simp only [hrows, List.mem_append, List.mem_singleton] at hr'
    rcases hr' with hr' | rfl
    · rcases old with _ | o
      · exact Or.inl ⟨r', hr', hi, e, he', hlt⟩
      · have ho : o ∈ w.access_rows u w.clock := by simp [scalar_one_or_none_eq_ok.mp hold]
        have hmem := (World.mem_access_rows.mp ho).1
        rcases World.EndsAfter.of_patch (p := .demote) hmem ⟨r', hr', hi, e, he', hlt⟩ with
          h1 | ⟨hoi, h1⟩
        · exact Or.inl h1
        · exact Or.inl ⟨o, hmem, hoi, h1⟩
    · rw [hnew] at he'
      cases he'
      have hclock : (w.demote old).clock = w.clock := by cases old <;> rfl
      exact Or.inr (Or.inl (by rw [hclock]; exact hlt))
  | record _ _ _ hdb _ =>
    obtain ⟨_, _, _, hs, _⟩ := Db.insert_payment_ok hdb
    exact hsame fun r hr => by simpa only [hs] using hr
  | enqueue => exact hsame fun r hr => hr
  | tick => exact hsame fun r hr => hr
  | pay => exact hsame fun r hr => hr
  | bill => exact hsame fun r hr => hr
  | stop => exact hsame fun r hr => hr

theorem Effects.ends {i : UUID} {t : Time} (h : Effects l w₀ w) (hl : NoLongerPeriod w₀ l)
    (he : w.EndsAfter i t) : w₀.EndsAfter i t ∨ t < w.clock ∨ w₀.PaysAfter l i t := by
  induction h with
  | refl => exact Or.inl he
  | tail _ hstep ih =>
    rcases hstep.ends hl he with h1 | h1
    · rcases ih h1 with h2 | h2 | h2
      · exact Or.inl h2
      · exact Or.inr (Or.inl (Nat.lt_of_lt_of_le h2 hstep.change.grows.clock))
      · exact Or.inr (Or.inr h2)
    · exact Or.inr h1

end

/-! ## No access without a paid period -/

/-- Whatever came before: a subscription that gives access at some time from now
on got its period from a paid invoice, whose end at Stripe was later than that
time; the delivery stored it. -/
theorem access_is_paid {user_repo : UserRepo} {w₀ w : World} {ls : List Label} (h0 : Initial w₀)
    (hrun : (billing user_repo).Run NoLongerPeriod w₀ ls w) {r : Row Subscription}
    (hr : r ∈ w.db.subscriptions.rows) {t : Time} (ht : w.clock ≤ t)
    (hacc : r.val.grants_access t = true) :
    ∃ v l, (billing user_repo).Took NoLongerPeriod w₀ ls w v l ∧ v.PaysAfter l r.id t ∧
      ((billing user_repo).next v l).EndsAfter r.id t := by
  obtain ⟨⟨e, he, hlt⟩, _⟩ := Subscription.grants_access_iff.mp hacc
  have hstart : ¬ w₀.EndsAfter r.id t := by
    rintro ⟨r₀, hr₀, _⟩
    rw [h0.subscriptions] at hr₀
    cases hr₀
  obtain ⟨v, l, htook, hnot, hends⟩ := hrun.origin (P := fun v => v.EndsAfter r.id t) hstart
    ⟨r, hr, rfl, e, he, hlt⟩
  obtain ⟨before, after, _, hbefore, hen, hl, hafter⟩ := id htook
  have hg := (run_good h0.good hbefore).1
  have heff := billing_effects hg hen
  have hclock := (run_good (heff.good hg) hafter).2.clock
  rcases heff.ends hl hends with h1 | h1 | h1
  · exact absurd h1 hnot
  · exact absurd (Nat.lt_of_lt_of_le h1 (Nat.le_trans hclock ht)) (Nat.lt_irrefl t)
  · exact ⟨v, l, htook, h1, hends⟩

namespace Sample

/-- Ann buys, pays, and cancels: she has access until the end that she paid for. -/
theorem access_is_paid_sample : ∃ v l, (billing .user).Took NoLongerPeriod world
    [subscribe "pro", .pay 0 [⟨900, 2000⟩], checkout 0, paid 0 0, .serve (.cancel 0) none]
    ((billing .user).exec world
      [subscribe "pro", .pay 0 [⟨900, 2000⟩], checkout 0, paid 0 0, .serve (.cancel 0) none])
    v l ∧ v.PaysAfter l 0 (fromtimestamp 1999) ∧
      ((billing .user).next v l).EndsAfter 0 (fromtimestamp 1999) :=
  access_is_paid world_initial (System.Run.of_path (by decide))
    (r := ⟨0, _⟩) (List.mem_singleton_self _) (by decide) (by decide)

end Sample

end saas
