-- What a plan is charged at: the interval of its price at Stripe against its
-- billing period, over all runs of plan requests.
import SaasBackend.PlanSystem

open relational async

namespace saas

open Proc StripeGateway PlanService

/-! ## The interval of a price -/

/-- The interval that Stripe has for a billing period. -/
def BillingPeriod.interval : BillingPeriod → String
  | MONTHLY => "month"
  | YEARLY => "year"

namespace Stripe

variable {stripe : Stripe} {id : StripeId}

/-- The interval of a price, if Stripe has the price. -/
def interval_of (stripe : Stripe) (id : StripeId) : Option (Option String) :=
  (stripe.prices.byId id).map (fun r => r.val.interval)

theorem interval_of_add_price {w : World} {price : StripePrice} {x : Option String}
    (h : w.stripe.interval_of id = some x) :
    (w.add_price price).stripe.interval_of id = some x := by
  obtain ⟨r, hr, hx⟩ := Option.map_eq_some_iff.mp h
  have hb : (w.add_price price).stripe.prices.byId id = some r :=
    Table.byId_push_of_some hr price (fits_of_no_keys rfl)
  simp [interval_of, hb, hx]

theorem interval_of_new {w : World} {price : StripePrice} :
    (w.add_price price).stripe.interval_of w.stripe.prices.next = some price.interval := by
  have hb : (w.add_price price).stripe.prices.byId w.stripe.prices.next =
      some (w.stripe.prices.newRow price) := Table.byId_push_self (fits_of_no_keys rfl)
  simp [interval_of, hb]

end Stripe

/-! ## The law, state by state and step by step -/

/-- Every plan with a price is charged at its own period. -/
def ChargedByPeriod (w : World) : Prop :=
  ∀ plan ∈ w.db.plans.rows, ∀ id, plan.val.stripe_price_id = some id →
    w.stripe.interval_of id = some (some plan.val.billing_period.interval)

/-- The update fails at Stripe, and would not with a Stripe that takes every
interval. -/
def FailsForInterval (fails : StripeCall → Bool) (i : UUID) (data : PlanUpdate) (w : World) :
    Prop :=
  ((update_plan stripe_intervals fails i data).run w).1 = .error .stripeError ∧
    ∃ r, ((update_plan (fun _ => true) fails i data).run w).1 = .ok r

/-- No update of the price, the currency or the period of a plan with a price
fails because of the interval. -/
def IntervalsTaken (w : World) (l : PlanLabel) : Prop :=
  ∀ i data plan, l.request = .update i data → w.db.plans.byId i = some plan →
    plan.val.stripe_price_id ≠ none → data.Changes plan.val → ¬ FailsForInterval l.fails i data w

instance (data : PlanUpdate) (plan : Plan) : Decidable (data.Changes plan) :=
  decidable_of_iff (¬ plan.SameTerms ((PlanPatch.of_update data none).apply plan))
    (by rw [PlanPatch.sameTerms_iff, not_not])

instance (accepts : String → Bool) (fails : StripeCall → Bool) (w : World) (plan : Plan)
    (data : PlanUpdate) : Decidable (GoesThrough accepts fails w plan data) :=
  inferInstanceAs (Decidable (_ ∧ _))

/-- A step at which the code charges by the period: a new plan that gets a price
is monthly, and no update that asks for a new price would go through if Stripe
took every interval, unless it changes nothing and sends an interval. -/
def InPeriod (w : World) (l : PlanLabel) : Prop :=
  match l.request with
  | .create data => data.billing_period = .MONTHLY ∨ w.HasCode data.code ∨
      ¬ data.plan.FitsColumns ∨ l.fails .product_create ∨ l.fails .price_create
  | .update i data => data.has_price_key → ∀ plan ∈ w.db.plans.byId i,
      GoesThrough (fun _ => true) l.fails w plan.val data →
        data.billing_period ≠ .null ∧ ¬ data.Changes plan.val
  | .delete _ => True

instance : ∀ (w : World) (l : PlanLabel), Decidable (InPeriod w l)
  | _, ⟨.create _, _⟩ => inferInstanceAs (Decidable (_ ∨ _))
  | _, ⟨.update _ data, _⟩ => inferInstanceAs (Decidable (data.has_price_key = true → _))
  | _, ⟨.delete _, _⟩ => isTrue trivial

/-! ## The step -/

variable {w w' : World}

/-- Rows that keep price and period, or have no price, and prices that stay. -/
theorem ChargedByPeriod.keep (h : ChargedByPeriod w)
    (hrows : ∀ r' ∈ w'.db.plans.rows, r'.val.stripe_price_id = none ∨
      ∃ r ∈ w.db.plans.rows, r'.val.stripe_price_id = r.val.stripe_price_id ∧
        r'.val.billing_period = r.val.billing_period)
    (hprices : ∀ id x, w.stripe.interval_of id = some x → w'.stripe.interval_of id = some x) :
    ChargedByPeriod w' := by
  intro r' hr' id hid
  rcases hrows r' hr' with hn | ⟨r, hr, hp, hb⟩
  · rw [hn] at hid
    cases hid
  · rw [hb]
    exact hprices id _ (h r hr id (hp.symm.trans hid))

/-- No interval that the service sends for a period is one of Stripe's. -/
theorem made_without_interval {fails : StripeCall → Bool} {plan : Plan} {data : PlanUpdate}
    {price : StripePrice}
    (h : (price_args plan data).made stripe_intervals fails w.stripe = some price) :
    data.billing_period = .null := by
  have hall := (PriceArgs.made_eq_some.mp h).2.1
  rcases hb : data.billing_period with _ | _ | b
  · simp only [price_args, hb, Field.get, Option.map_some, Option.all_some] at hall
    rcases hp : plan.billing_period with _ | _ <;> rw [hp] at hall <;>
      simp [BillingPeriod.value, stripe_intervals] at hall
  · rfl
  · simp only [price_args, hb, Field.get, Option.map_some, Option.all_some] at hall
    rcases b with _ | _ <;> simp [BillingPeriod.value, stripe_intervals] at hall

theorem GoesThrough.of_intervals {accepts : String → Bool} {fails : StripeCall → Bool}
    {plan : Plan} {data : PlanUpdate} (h : GoesThrough accepts fails w plan data) :
    GoesThrough (fun _ => true) fails w plan data := by
  obtain ⟨hu, hm, hf⟩ := h
  refine ⟨hu, fun hk => ?_, hf⟩
  obtain ⟨price, hp⟩ := Option.ne_none_iff_exists'.mp (hm hk)
  obtain ⟨h1, _, h3⟩ := PriceArgs.made_eq_some.mp hp
  have hall := PriceArgs.made_eq_some.mpr
    ⟨h1, (by cases (price_args plan data).interval <;> rfl), h3⟩
  rw [hall]
  simp

theorem ChargedByPeriod.next (h : ChargedByPeriod w) {l : PlanLabel} (hc : InPeriod w l) :
    ChargedByPeriod ((administration stripe_intervals).next w l) := by
  have hl : Leaves stripe_intervals l.fails w l.request
      ((administration stripe_intervals).next w l) := l.leaves
  obtain ⟨q, fails⟩ := l
  generalize (administration stripe_intervals).next w ⟨q, fails⟩ = w' at hl
  simp only at hl
  cases hl with
  | same => exact h
  | unsynced hfit hf hp =>
    refine h.keep (fun r' hr' => ?_) fun id x hx => hx
    rcases World.mem_add_plan.mp hr' with hr | rfl
    · exact Or.inr ⟨r', hr, rfl, rfl⟩
    · exact Or.inl rfl
  | no_price hfit hf =>
    refine h.keep (fun r' hr' => ?_) fun id x hx => hx
    rcases World.mem_add_plan.mp hr' with hr | rfl
    · exact Or.inr ⟨r', hr, rfl, rfl⟩
    · exact Or.inl rfl
  | @synced data hfit hf hp hq =>
    have hm : data.billing_period = .MONTHLY := by
      rw [World.fits_plan] at hfit
      rcases hc with hm | hn | hn | hn | hn
      · exact hm
      · exact absurd hn hfit
      · exact absurd hf hn
      · simp [hp] at hn
      · simp [hq] at hn
    intro r' hr' id hid
    rcases (World.mem_update_new rfl).mp hr' with hr | rfl
    · exact Stripe.interval_of_add_price (w := (w.add_plan data.plan hfit).add_product data.name)
        (h r' hr id hid)
    · cases hid
      change _ = some (some data.billing_period.interval)
      rw [hm]
      exact Stripe.interval_of_new
  | priced price =>
    exact h.keep (fun r' hr' => Or.inr ⟨r', hr', rfl, rfl⟩)
      fun id x hx => Stripe.interval_of_add_price hx
  | @updated i plan data hi hg hk =>
    have hb : data.billing_period = .missing := by
      simp only [PlanUpdate.has_price_key, Bool.or_eq_false_iff] at hk
      rcases hd : data.billing_period with _ | _ | b
      · rfl
      · simp [hd, Field.present] at hk
      · simp [hd, Field.present] at hk
    refine h.keep (fun r' hr' => ?_) fun id x hx => hx
    rcases (World.mem_update_found hi).mp hr' with rfl | ⟨hr, _⟩
    · refine Or.inr ⟨plan, (Table.byId_eq_some.mp hi).1, ?_, ?_⟩
      · simp [PlanPatch.of_update]
      · simp [PlanPatch.of_update, hb, Field.value]
    · exact Or.inr ⟨r', hr, rfl, rfl⟩
  | @repriced i plan data price hi hg hk hm =>
    -- Stripe has taken a null interval, which the condition rules out.
    exact absurd (made_without_interval hm) (hc hk plan hi hg.of_intervals).1

/-- Under the condition no update fails because of the interval. -/
theorem InPeriod.taken {l : PlanLabel} (hc : InPeriod w l) : IntervalsTaken w l := by
  intro i data plan hq hi _ hch
  rintro ⟨_, r, hok⟩
  obtain ⟨q, fails⟩ := l
  cases hq
  rcases hk : data.has_price_key with _ | _
  · exact PlanUpdate.not_changes hk _ hch
  · obtain ⟨hg, _⟩ := update_plan.returns hi (Prod.ext hok rfl)
    exact (hc hk plan hi hg).2 hch

/-! ## The runs -/

/-- A service without plans, accounts and anything else. -/
def empty_service : World where
  db := Db.start .empty .empty

/-- In every run whose steps meet the condition, every plan is charged at its
own period, and no update fails because of the interval. -/
theorem plans_are_charged_by_period {w w' : World} {ls : List PlanLabel} (h0 : NoPlans w)
    (h : (administration stripe_intervals).Run InPeriod w ls w') :
    ChargedByPeriod w' ∧ ∀ t l,
      (administration stripe_intervals).Took InPeriod w ls w' t l → IntervalsTaken t l := by
  constructor
  · refine h.invariant (fun plan hp => ?_) fun a l ha _ hc => ha.next hc
    rw [NoPlans] at h0
    rw [h0] at hp
    cases hp
  · rintro t l ⟨_, _, _, _, _, hc, _⟩
    exact hc.taken

/-- A monthly plan is created. A new name fails, its own currency is refused with the
interval, and the plan stays on sale. -/
def monthly_plan : List PlanLabel :=
  [{ request := .create { name := "Pro", code := "pro", price_cents := 1000,
                          billing_period := .MONTHLY } },
   { request := .update 0 { name := .val "Team" } },
   { request := .update 0 { currency := .val "USD" } },
   { request := .update 0 { is_active := .val true } }]

theorem plans_are_charged_by_period_sample :
    ChargedByPeriod ((administration stripe_intervals).exec empty_service monthly_plan) ∧
      ∀ t l, (administration stripe_intervals).Took InPeriod empty_service monthly_plan
        ((administration stripe_intervals).exec empty_service monthly_plan) t l →
        IntervalsTaken t l :=
  plans_are_charged_by_period (w := empty_service) rfl (.of_path (by decide))

/-- A yearly plan is created. -/
def yearly_plan : List PlanLabel :=
  [{ request := .create { name := "Pro", code := "pro", price_cents := 10000,
                          billing_period := .YEARLY } }]

/-- A yearly plan is charged every month, and its price cannot be changed. -/
theorem yearly_plan_is_charged_monthly :
    NoPlans empty_service ∧ ∃ w, (administration stripe_intervals).Run (fun _ _ => True)
      empty_service yearly_plan w ∧ ¬ ChargedByPeriod w ∧
      ¬ IntervalsTaken w { request := .update 0 { price_cents := .val 12000 } } := by
  refine ⟨rfl, _, .of_path (by decide), ?_, ?_⟩
  · intro h
    have hb : ∀ plan ∈ ((administration stripe_intervals).exec empty_service
        yearly_plan).db.plans.rows, plan.val.stripe_price_id ≠ some 0 :=
      fun plan hp hid => absurd (h plan hp 0 hid) (by revert plan; decide)
    revert hb
    decide
  · intro h
    exact h 0 { price_cents := .val 12000 } _ rfl rfl (by decide) (by decide) ⟨by decide, _, rfl⟩

end saas
