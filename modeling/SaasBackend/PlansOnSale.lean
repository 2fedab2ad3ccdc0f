-- The plans that are on sale and their objects at Stripe, over all runs of plan
-- requests in which any call to Stripe may fail.
import SaasBackend.PlanPeriods

open relational async

namespace saas

open Proc StripeGateway PlanService

/-! ## What Stripe has of a plan -/

/-- Stripe has nothing of the plan. -/
def Plan.Unsynced (p : Plan) : Prop := p.stripe_product_id = none ∧ p.stripe_price_id = none

instance (p : Plan) : Decidable p.Unsynced := inferInstanceAs (Decidable (_ ∧ _))

namespace Stripe

variable {stripe stripe' : Stripe}

/-- The active flag of a product, if Stripe has it. -/
def product_active (stripe : Stripe) (id : StripeId) : Option Bool :=
  (stripe.products.byId id).map (fun r => r.val.active)

def price_active (stripe : Stripe) (id : StripeId) : Option Bool :=
  (stripe.prices.byId id).map (fun r => r.val.active)

/-- The plan has a product and a price that exist and are active. -/
def Live (stripe : Stripe) (p : Plan) : Prop :=
  p.stripe_product_id.bind stripe.product_active = some true ∧
    p.stripe_price_id.bind stripe.price_active = some true

instance (p : Plan) : Decidable (stripe.Live p) := inferInstanceAs (Decidable (_ ∧ _))

/-- Products and prices that stay, with their flags. -/
def Keeps (stripe stripe' : Stripe) : Prop :=
  (∀ id b, stripe.product_active id = some b → stripe'.product_active id = some b) ∧
    ∀ id b, stripe.price_active id = some b → stripe'.price_active id = some b

theorem Keeps.live (h : stripe.Keeps stripe') {p : Plan} (hl : stripe.Live p) :
    stripe'.Live p := by
  obtain ⟨product, hp, hpa⟩ := Option.bind_eq_some_iff.mp hl.1
  obtain ⟨price, hq, hqa⟩ := Option.bind_eq_some_iff.mp hl.2
  rw [Live, hp, hq]
  exact ⟨h.1 product true hpa, h.2 price true hqa⟩

variable {w : World}

theorem keeps_add_product (name : String) : w.stripe.Keeps (w.add_product name).stripe := by
  refine ⟨fun id b hb => ?_, fun _ _ h => h⟩
  obtain ⟨r, hr, hx⟩ := Option.map_eq_some_iff.mp hb
  have hn : (w.add_product name).stripe.products.byId id = some r :=
    Table.byId_push_of_some hr _ (fits_of_no_keys rfl)
  simp [product_active, hn, hx]

theorem product_active_new (name : String) :
    (w.add_product name).stripe.product_active w.stripe.products.next = some true := by
  have hn : (w.add_product name).stripe.products.byId w.stripe.products.next =
      some (w.stripe.products.newRow { name := name }) := Table.byId_push_self (fits_of_no_keys rfl)
  simp [product_active, hn]

theorem keeps_add_price (price : StripePrice) : w.stripe.Keeps (w.add_price price).stripe := by
  refine ⟨fun _ _ h => h, fun id b hb => ?_⟩
  obtain ⟨r, hr, hx⟩ := Option.map_eq_some_iff.mp hb
  have hn : (w.add_price price).stripe.prices.byId id = some r :=
    Table.byId_push_of_some hr _ (fits_of_no_keys rfl)
  simp [price_active, hn, hx]

theorem price_active_new (price : StripePrice) :
    (w.add_price price).stripe.price_active w.stripe.prices.next = some price.active := by
  have hn : (w.add_price price).stripe.prices.byId w.stripe.prices.next =
      some (w.stripe.prices.newRow price) := Table.byId_push_self (fits_of_no_keys rfl)
  simp [price_active, hn]

end Stripe

/-! ## The invariant -/

/-- Every plan, on sale or not, is unknown to Stripe or has active objects there: no
request that reaches Stripe takes one out of use. -/
def Synced (w : World) : Prop :=
  ∀ r ∈ w.db.plans.rows, r.val.Unsynced ∨ w.stripe.Live r.val

variable {w w' : World}

theorem Synced.keep (h : Synced w) (hrows : w'.db.plans.rows = w.db.plans.rows)
    (hs : w.stripe.Keeps w'.stripe) : Synced w' := by
  intro r hr
  rw [hrows] at hr
  exact (h r hr).imp_right hs.live

/-- A new plan without objects at Stripe. -/
theorem Synced.add_plan (h : Synced w) {p : Plan} (hn : p.Unsynced) (hf : w.db.plans.Fits p) :
    Synced (w.add_plan p hf) := by
  intro r hr
  rcases World.mem_add_plan.mp hr with hr | rfl
  · exact h r hr
  · exact Or.inl hn

/-- One plan is written. -/
theorem Synced.replace (h : Synced w) {i : UUID} {plan : Row Plan} {p : PlanPatch}
    (hi : w.db.plans.byId i = some plan)
    (hp : (p.apply plan.val).Unsynced ∨ w.stripe.Live (p.apply plan.val)) :
    Synced (w.update_plan plan.id p) := by
  intro r hr
  rcases (World.mem_update_found hi).mp hr with rfl | ⟨hr, _⟩
  · exact hp
  · exact h r hr

/-! ## The step -/

/-- A plan is made and gets both objects at Stripe. -/
theorem Synced.synced (h : Synced w) {data : PlanCreate} (hf : w.db.plans.Fits data.plan)
    {price : StripePrice} (ha : price.active = true) :
    Synced ((((w.add_plan data.plan hf).add_product data.name).add_price price).update_plan
      w.db.plans.next (.stripe_ids (some w.stripe.products.next) (some w.stripe.prices.next))) := by
  have h1 : Synced ((w.add_plan data.plan hf).add_product data.name) :=
    (h.add_plan ⟨rfl, rfl⟩ hf).keep rfl (Stripe.keeps_add_product data.name)
  have hkeep := Stripe.keeps_add_price (w := (w.add_plan data.plan hf).add_product data.name) price
  have h2 : Synced (((w.add_plan data.plan hf).add_product data.name).add_price price) :=
    h1.keep rfl hkeep
  have hlive : Stripe.Live
      (((w.add_plan data.plan hf).add_product data.name).add_price price).stripe
      ((PlanPatch.stripe_ids (some w.stripe.products.next) (some w.stripe.prices.next)).apply
        data.plan) := by
    refine ⟨hkeep.1 _ _ (Stripe.product_active_new (w := w.add_plan data.plan hf) data.name), ?_⟩
    have hq := Stripe.price_active_new (w := (w.add_plan data.plan hf).add_product data.name) price
    rw [ha] at hq
    exact hq
  have hi : (((w.add_plan data.plan hf).add_product data.name).add_price price).db.plans.byId
      w.db.plans.next = some (w.db.plans.newRow data.plan) := Table.byId_push_self hf
  exact h2.replace hi (Or.inr hlive)

/-- A plan keeps its ids. -/
theorem Synced.updated (h : Synced w) {i : UUID} {plan : Row Plan} {data : PlanUpdate}
    (hi : w.db.plans.byId i = some plan) :
    Synced (w.update_plan plan.id (.of_update data none)) := by
  have hprice : ((PlanPatch.of_update data none).apply plan.val).stripe_price_id =
      plan.val.stripe_price_id := by simp [PlanPatch.of_update]
  refine h.replace hi ?_
  rw [Plan.Unsynced, Stripe.Live, hprice]
  exact h plan (Table.byId_eq_some.mp hi).1

/-- A plan that has a product gets a new price. -/
theorem Synced.repriced (h : Synced w) {i : UUID} {plan : Row Plan} {data : PlanUpdate}
    {price : StripePrice} (hi : w.db.plans.byId i = some plan) (ha : price.active = true)
    (hp : plan.val.stripe_product_id ≠ none) :
    Synced ((w.add_price price).update_plan plan.id
      (.of_update data (some w.stripe.prices.next))) := by
  have hkeep := Stripe.keeps_add_price (w := w) price
  have hlive : w.stripe.Live plan.val :=
    (h plan (Table.byId_eq_some.mp hi).1).resolve_left fun hn => hp hn.1
  have hq := Stripe.price_active_new (w := w) price
  rw [ha] at hq
  have h1 : Synced (w.add_price price) := h.keep rfl hkeep
  exact h1.replace hi (Or.inr ⟨(hkeep.live hlive).1, hq⟩)

theorem Synced.next {accepts : String → Bool} (h : Synced w) (l : PlanLabel) :
    Synced ((administration accepts).next w l) := by
  have hl : Leaves accepts l.fails w l.request ((administration accepts).next w l) := l.leaves
  obtain ⟨q, fails⟩ := l
  generalize (administration accepts).next w ⟨q, fails⟩ = w' at hl
  simp only at hl
  cases hl with
  | same => exact h
  | unsynced hfit => exact h.add_plan ⟨rfl, rfl⟩ hfit
  | @no_price data hfit =>
    exact (h.add_plan (p := data.plan) ⟨rfl, rfl⟩ hfit).keep rfl
      (Stripe.keeps_add_product (w := w.add_plan data.plan hfit) data.name)
  | synced hfit hf hp hq => exact h.synced hfit rfl
  | priced price => exact h.keep rfl (Stripe.keeps_add_price price)
  | updated hi hg hk => exact h.updated hi
  | repriced hi hg hk hm =>
    obtain ⟨_, _, _, hactive, hargs⟩ := PriceArgs.made_eq_some.mp hm
    have hid := congrArg PriceArgs.product hargs
    exact h.repriced hi hactive fun hn => by cases hn.symm.trans hid

/-! ## The runs -/

/-- What `get_by_code` finds for a subscription or an upgrade is in Stripe with
an active product and an active price, or not at all. -/
def SoldFromStripe (w : World) : Prop :=
  ∀ code plan, ((PlanRepository.get_by_code code).run w).1 = .ok (some plan) →
    w.stripe.Live plan.val ∨ plan.val.Unsynced

theorem Synced.sold (h : Synced w) : SoldFromStripe w := by
  intro code plan hp
  rw [PlanRepository.get_by_code.spec] at hp
  have hs := Table.mem_select.mp (List.mem_of_mem_head? (Except.ok.inj hp))
  exact (h plan hs.1).symm

end saas
