-- One update of a plan, at Stripe and here: when the price that Stripe gets is
-- the price that is stored, and that an update leaves no trace if it fails there.
import SaasBackend.PlanService

open relational async

namespace saas

open Proc StripeGateway PlanService

variable (accepts : String → Bool) (fails : StripeCall → Bool)

/-! ## What an update can change -/

theorem Field.get_eq_some {α : Type} {f : Field α} {d a : α} (h : f.get d = some a) :
    f.value.getD d = a := by
  cases f with
  | missing => exact Option.some.inj h
  | null => cases h
  | val b => exact Option.some.inj h

theorem Field.getD_ne {α : Type} {f : Field α} {d : α} :
    d ≠ f.value.getD d ↔ ∃ a, f = .val a ∧ a ≠ d := by
  cases f with
  | missing => simp [Field.value]
  | null => simp [Field.value]
  | val b => simp [Field.value, ne_comm]

/-- The same amount, currency and billing period. -/
def Plan.SameTerms (p p' : Plan) : Prop :=
  p.price_cents = p'.price_cents ∧ p.currency = p'.currency ∧ p.billing_period = p'.billing_period

instance (p p' : Plan) : Decidable (p.SameTerms p') := inferInstanceAs (Decidable (_ ∧ _))

/-- Some amount, currency or period is set to another value than the plan has. -/
def PlanUpdate.Changes (data : PlanUpdate) (plan : Plan) : Prop :=
  (∃ a, data.price_cents = .val a ∧ a ≠ plan.price_cents) ∨
    (∃ c, data.currency = .val c ∧ c ≠ plan.currency) ∨
    ∃ b, data.billing_period = .val b ∧ b ≠ plan.billing_period

theorem PlanPatch.sameTerms_iff (data : PlanUpdate) (price : Option StripeId) (plan : Plan) :
    plan.SameTerms ((of_update data price).apply plan) ↔ ¬ data.Changes plan := by
  unfold PlanUpdate.Changes
  rw [← Field.getD_ne, ← Field.getD_ne, ← Field.getD_ne]
  simp only [Plan.SameTerms, of_update, not_or, not_not]

theorem PlanUpdate.not_changes {data : PlanUpdate} (h : data.has_price_key = false)
    (plan : Plan) : ¬ data.Changes plan := by
  simp only [has_price_key, Bool.or_eq_false_iff] at h
  obtain ⟨⟨ha, hb⟩, hc⟩ := h
  rintro (⟨a, he, _⟩ | ⟨c, he, _⟩ | ⟨b, he, _⟩)
  · rw [he] at ha
    cases ha
  · rw [he] at hc
    cases hc
  · rw [he] at hb
    cases hb

/-- A price that Stripe made of an update is the one that is stored. -/
theorem StripeGateway.made_terms {accepts : String → Bool} {fails : StripeCall → Bool}
    {plan : Plan} {data : PlanUpdate} {stripe : Stripe} {price : StripePrice}
    (h : (price_args plan data).made accepts fails stripe = some price) (id : Option StripeId) :
    price.unit_amount = ((PlanPatch.of_update data id).apply plan).price_cents ∧
      price.currency = ((PlanPatch.of_update data id).apply plan).currency := by
  have hargs := (PriceArgs.made_eq_some.mp h).2.2.2.2
  simp only [price_args, PriceArgs.mk.injEq] at hargs
  exact ⟨(Field.get_eq_some hargs.2.1).symm, (Field.get_eq_some hargs.2.2.1).symm⟩

/-! ## The price at Stripe and the price stored -/

/-- The prices that Stripe has got since. -/
def World.new_prices (w w' : World) : List (Row StripePrice) :=
  w'.stripe.prices.rows.filter (fun r => decide (r ∉ w.stripe.prices.rows))

theorem World.new_prices_same {w w' : World} (h : w'.stripe.prices = w.stripe.prices) :
    w.new_prices w' = [] := by
  simp [new_prices, h]

theorem World.new_prices_add {w w' : World} {price : StripePrice}
    (h : w'.stripe.prices.rows = w.stripe.prices.rows ++ [w.stripe.prices.newRow price]) :
    w.new_prices w' = [w.stripe.prices.newRow price] := by
  have hn := Table.newRow_not_mem w.stripe.prices price
  unfold new_prices
  rw [h, List.filter_append]
  simp [hn]

/-- What an update that returns does to the price at Stripe and to the stored
one. -/
def PriceAsStored (i : UUID) (data : PlanUpdate) (w : World) : Prop :=
  ∀ plan r w', w.db.plans.byId i = some plan →
    (update_plan accepts fails i data).run w = (.ok r, w') →
    ∃ plan', w'.db.plans.byId i = some plan' ∧
      (∀ price ∈ w.new_prices w', price.val.unit_amount = plan'.val.price_cents ∧
        price.val.currency = plan'.val.currency) ∧
      (w.new_prices w' ≠ [] ↔ ¬ plan.val.SameTerms plan'.val) ∧
      (w.new_prices w' = [] → plan.val.SameTerms plan'.val)

/-- No call to Stripe fails, and the new values fit their columns. -/
def GoesThrough (w : World) (plan : Plan) (data : PlanUpdate) : Prop :=
  data.name.present = false ∧
    (data.has_price_key → (price_args plan data).made accepts fails w.stripe ≠ none) ∧
    ((PlanPatch.of_update data none).apply plan).FitsColumns

variable {accepts fails}

theorem World.saved_ok {w w' : World} {plan r : Row Plan} {p : PlanPatch}
    (h : w.saved plan p = (.ok r, w')) :
    (p.apply plan.val).FitsColumns ∧ r = ⟨plan.id, p.apply plan.val⟩ ∧
      w' = w.update_plan plan.id p := by
  unfold saved at h
  split at h
  · rename_i hf
    cases h
    exact ⟨hf, rfl, rfl⟩
  · cases h

theorem World.byId_update_plan {w : World} {i : UUID} {plan : Row Plan} (p : PlanPatch)
    (h : w.db.plans.byId i = some plan) :
    (w.update_plan plan.id p).db.plans.byId i = some ⟨plan.id, p.apply plan.val⟩ := by
  obtain ⟨hm, hi⟩ := Table.byId_eq_some.mp h
  subst hi
  exact Table.byId_update_self p.keys hm

/-- An update that returns: the row that it leaves, and the new price if it has
made one. -/
theorem PlanService.update_plan.returns {i : UUID} {plan r : Row Plan} {data : PlanUpdate}
    {w w' : World} (hi : w.db.plans.byId i = some plan)
    (h : (update_plan accepts fails i data).run w = (.ok r, w')) :
    GoesThrough accepts fails w plan.val data ∧ ∃ id,
      w'.db.plans.byId i = some ⟨plan.id, (PlanPatch.of_update data id).apply plan.val⟩ ∧
      if data.has_price_key then
        ∃ price, (price_args plan.val data).made accepts fails w.stripe = some price ∧
          w.new_prices w' = [w.stripe.prices.newRow price]
      else w.new_prices w' = [] := by
  rw [update_plan.spec data hi] at h
  unfold GoesThrough
  rcases hn : data.name.present with _ | _
  · rcases hk : data.has_price_key with _ | _
    · simp only [hn, hk, Bool.false_eq_true, if_false] at h ⊢
      obtain ⟨hf, _, rfl⟩ := World.saved_ok h
      exact ⟨⟨trivial, by simp, hf⟩, none, World.byId_update_plan _ hi, World.new_prices_same rfl⟩
    · simp only [hn, hk, Bool.false_eq_true, if_false, if_true] at h ⊢
      rcases hm : (price_args plan.val data).made accepts fails w.stripe with _ | price
      · rw [hm] at h
        cases h
      · rw [hm] at h
        obtain ⟨hf, _, rfl⟩ := World.saved_ok h
        refine ⟨⟨trivial, by simp, hf⟩, some w.stripe.prices.next, ?_, price, rfl,
          World.new_prices_add rfl⟩
        exact World.byId_update_plan (w := w.add_price price) _ hi
  · simp only [hn, if_true] at h
    cases h

/-- Conversely, an update whose calls all do well returns. -/
theorem PlanService.update_plan.goes_through {i : UUID} {plan : Row Plan} {data : PlanUpdate}
    {w : World} (hi : w.db.plans.byId i = some plan)
    (h : GoesThrough accepts fails w plan.val data) :
    ∃ r w', (update_plan accepts fails i data).run w = (.ok r, w') := by
  obtain ⟨hn, hm, hf⟩ := h
  rw [update_plan.spec data hi]
  simp only [hn, Bool.false_eq_true, if_false]
  rcases hk : data.has_price_key with _ | _
  · exact ⟨_, _, if_pos hf⟩
  · rcases hp : (price_args plan.val data).made accepts fails w.stripe with _ | price
    · exact absurd hp (hm hk)
    · exact ⟨_, _, if_pos hf⟩

/-- The price at Stripe and the stored price go together, unless an update with
a price key goes through and sets nothing to another value. -/
theorem price_as_stored_iff (accepts : String → Bool) (fails : StripeCall → Bool) (i : UUID)
    (data : PlanUpdate) (w : World) : PriceAsStored accepts fails i data w ↔
      ∀ plan, w.db.plans.byId i = some plan → GoesThrough accepts fails w plan.val data →
        data.has_price_key → data.Changes plan.val := by
  constructor
  · intro h plan hi hg hk
    obtain ⟨r, w', hr⟩ := update_plan.goes_through hi hg
    obtain ⟨plan', hi', _, hiff, _⟩ := h plan r w' hi hr
    obtain ⟨_, id, hid, hprice⟩ := update_plan.returns hi hr
    rw [hid] at hi'
    cases hi'
    simp only [hk, if_true] at hprice
    obtain ⟨price, _, hnew⟩ := hprice
    rw [hnew, PlanPatch.sameTerms_iff, not_not] at hiff
    exact hiff.mp (by simp)
  · intro h plan r w' hi hr
    obtain ⟨hg, id, hid, hprice⟩ := update_plan.returns hi hr
    refine ⟨_, hid, ?_⟩
    simp only [PlanPatch.sameTerms_iff, not_not]
    rcases hk : data.has_price_key with _ | _
    · simp only [hk, Bool.false_eq_true, if_false] at hprice
      have hn := PlanUpdate.not_changes hk plan.val
      simp [hprice, hn]
    · simp only [hk, if_true] at hprice
      obtain ⟨price, hm, hnew⟩ := hprice
      have hc := h plan hi hg hk
      have ht := made_terms hm id
      simp [hnew, hc, ht.1, ht.2]

/-! ## A plan that is in Stripe -/

def pro_plan : Plan :=
  { name := "Pro", code := "pro", price_cents := 1000, billing_period := .MONTHLY,
    stripe_product_id := some 0, stripe_price_id := some 0 }

/-- One plan, as `create_plan` leaves it. -/
def one_plan : World where
  db := Db.start .empty (.single ⟨0, pro_plan⟩ (List.nodup_singleton _))
  stripe :=
    { products := .single ⟨0, { name := "Pro" }⟩ .nil
      prices := .single ⟨0, { product := 0, unit_amount := 1000, currency := "USD",
                              interval := some "month" }⟩ .nil }

/-- An update whose only key is a null billing period. -/
def null_period : PlanUpdate := { billing_period := .null }

/-- A null billing period makes a new price and changes nothing of the plan. -/
theorem null_period_makes_a_price :
    ¬ PriceAsStored stripe_intervals (fun _ => false) 0 null_period one_plan := by
  intro h
  have hrun : ∃ r w', (update_plan stripe_intervals (fun _ => false) 0 null_period).run one_plan =
      (.ok r, w') ∧ one_plan.new_prices w' ≠ [] ∧
        (w'.db.plans.byId 0).map (fun r => r.val.price_cents) = some 1000 ∧
        (w'.db.plans.byId 0).map (fun r => r.val.currency) = some "USD" ∧
        (w'.db.plans.byId 0).map (fun r => r.val.billing_period) = some .MONTHLY :=
    ⟨_, _, rfl, by decide, by decide, by decide, by decide⟩
  obtain ⟨r, w', hr, hnew, ha, hc, hb⟩ := hrun
  obtain ⟨plan', hi, _, hiff, _⟩ := h ⟨0, pro_plan⟩ r w' rfl hr
  simp only [hi, Option.map_some, Option.some.injEq] at ha hc hb
  exact hiff.mp hnew ⟨ha.symm, hc.symm, hb.symm⟩

/-! ## An update that fails -/

/-- The name of a product at Stripe. -/
def World.product_name (w : World) (id : StripeId) : Option String :=
  (w.stripe.products.byId id).map (fun r => r.val.name)

/-- The error of a call to Stripe: Stripe's own, or that of a call that its package does
not have. -/
def Err.OfStripe (e : Err) : Prop := e = .stripeError ∨ e = .typeError

/-- What is stored and what Stripe has got, of plans, their products and their prices. -/
structure SamePlans (w w' : World) : Prop where
  rows : w'.db.plans.rows = w.db.plans.rows
  names : ∀ id, w'.product_name id = w.product_name id
  prices : w'.stripe.prices.rows = w.stripe.prices.rows

/-- Only a call to Stripe fails with its errors: the row is written after all of them, and
the columns refuse it with an error of their own. -/
theorem PlanService.update_plan.stripe_error {i : UUID} {data : PlanUpdate} {w w' : World}
    {e : Err} (h : (update_plan accepts fails i data).run w = (.error e, w'))
    (he : e.OfStripe) : w' = w := by
  have hsaved : ∀ (v : World) (plan : Row Plan) (p : PlanPatch),
      v.saved plan p ≠ (.error e, w') := by
    intro v plan p hv
    unfold World.saved at hv
    split at hv
    · cases hv
    · cases hv
      rcases he with he | he <;> cases he
  rcases hi : w.db.plans.byId i with _ | plan
  · rw [update_plan.unknown data hi] at h
    cases h
    rfl
  · rw [update_plan.spec data hi] at h
    split at h
    · cases h
      rfl
    · split at h
      · rcases hm : (price_args plan.val data).made accepts fails w.stripe with _ | price
        · rw [hm] at h
          cases h
          rfl
        · rw [hm] at h
          exact absurd h (hsaved _ _ _)
      · exact absurd h (hsaved _ _ _)

/-- An update that ends with an error of a call to Stripe has changed nothing: no plan
here, no name of a product and no price there. -/
theorem failing_update_changes_nothing {accepts : String → Bool} {fails : StripeCall → Bool}
    {i : UUID} {data : PlanUpdate} {w w' : World} {e : Err}
    (h : (update_plan accepts fails i data).run w = (.error e, w')) (he : e.OfStripe) :
    SamePlans w w' := by
  obtain rfl := update_plan.stripe_error h he
  exact ⟨rfl, fun _ => rfl, rfl⟩

/-- A new name with a new amount, which fails at the name, and the amount alone, which
fails at the interval. -/
theorem failing_update_changes_nothing_sample :
    (∃ w', (update_plan stripe_intervals (fun _ => false) 0
        { name := .val "Team", price_cents := .val 2000 }).run one_plan = (.error .typeError, w') ∧
      SamePlans one_plan w') ∧
    ∃ w', (update_plan stripe_intervals (fun _ => false) 0
        { price_cents := .val 2000 }).run one_plan = (.error .stripeError, w') ∧
      SamePlans one_plan w' := by
  have hname : (update_plan stripe_intervals (fun _ => false) 0
      { name := .val "Team", price_cents := .val 2000 }).run one_plan =
        (.error .typeError, one_plan) := rfl
  have hprice : (update_plan stripe_intervals (fun _ => false) 0
      { price_cents := .val 2000 }).run one_plan = (.error .stripeError, one_plan) := rfl
  exact ⟨⟨_, hname, failing_update_changes_nothing hname (Or.inr rfl)⟩,
    ⟨_, hprice, failing_update_changes_nothing hprice (Or.inl rfl)⟩⟩

end saas
