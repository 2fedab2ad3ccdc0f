-- The administration of plans: `PlanService` of `billing/service.py`, with the
-- half of `billing/stripe_gateway.py` that keeps products and prices, and the
-- writes of `PlanRepository`.
import SaasBackend.StripeGateway

open relational async

namespace saas

/-! ## The data of a request -/

/-- The value of a member of the enumeration, as it is sent to Stripe. -/
def BillingPeriod.value : BillingPeriod → String
  | MONTHLY => "monthly"
  | YEARLY => "yearly"

structure PlanCreate where
  name : String
  code : String
  price_cents : Int
  billing_period : BillingPeriod
  currency : String := "USD"
  is_active : Bool := true
deriving DecidableEq, Repr

/-- `Plan(**data.model_dump())`. -/
def PlanCreate.plan (data : PlanCreate) : Plan :=
  { name := data.name, code := data.code, price_cents := data.price_cents,
    currency := data.currency, billing_period := data.billing_period,
    is_active := data.is_active }

namespace Field

variable {α : Type}

/-- The key is in `model_dump(exclude_unset=True)`. -/
def present : Field α → Bool
  | missing => false
  | null => true
  | val _ => true

/-- `update_data.get(key, default)`. -/
def get : Field α → α → Option α
  | missing, default => some default
  | null, _ => none
  | val a, _ => some a

/-- What `PlanRepository.update` writes: the value, unless it is `None`. -/
def value : Field α → Option α
  | missing => none
  | null => none
  | val a => some a

end Field

structure PlanUpdate where
  name : Field String := .missing
  price_cents : Field Int := .missing
  billing_period : Field BillingPeriod := .missing
  currency : Field String := .missing
  is_active : Field Bool := .missing
deriving DecidableEq, Repr

/-- `any(key in update_data for key in [...])`. -/
def PlanUpdate.has_price_key (data : PlanUpdate) : Bool :=
  data.price_cents.present || data.billing_period.present || data.currency.present

/-! ## Stripe's products and prices -/

/-- The intervals of a recurring price. -/
def stripe_intervals (interval : String) : Bool :=
  decide (interval ∈ ["day", "week", "month", "year"])

/-- The calls that a plan request makes. In one request each is made once at
most. -/
inductive StripeCall where
  | product_create
  | price_create
  | price_modify
deriving DecidableEq, Repr

/-- The keyword arguments of a call of `Product.update`. -/
inductive ProductArgs where
  | name (name : Field String)
  | active (active : Bool)
deriving DecidableEq, Repr

/-- The arguments of `Price.create`. A null is not sent. -/
structure PriceArgs where
  product : Option StripeId
  unit_amount : Option Int
  currency : Option String
  interval : Option String
deriving DecidableEq, Repr

namespace World

def add_product (w : World) (name : String) : World :=
  { w with stripe.products := w.stripe.products.push { name := name } (fits_of_no_keys rfl) }

def add_price (w : World) (p : StripePrice) : World :=
  { w with stripe.prices := w.stripe.prices.push p (fits_of_no_keys rfl) }

def update_price (w : World) (i : StripeId) (f : StripePrice → StripePrice) : World :=
  { w with stripe.prices := w.stripe.prices.update i f (fun _ => rfl) }

end World

def StripePrice.deactivated (p : StripePrice) : StripePrice := { p with active := false }

section

-- The intervals that Stripe knows, and the calls that fail during a request.
variable (accepts : String → Bool) (fails : StripeCall → Bool)

/-- The price that Stripe makes of the arguments, unless it refuses them: the
product is unknown, there is no amount or no currency, or the interval is none
of Stripe's. -/
def PriceArgs.made (args : PriceArgs) (stripe : Stripe) : Option StripePrice :=
  match args.product.bind stripe.products.byId, args.unit_amount, args.currency with
  | some product, some unit_amount, some currency =>
    if !fails .price_create && args.interval.all accepts then
      some { product := product.id, unit_amount := unit_amount, currency := currency,
             interval := args.interval }
    else none
  | _, _, _ => none

/-- The price that a call with this id changes, unless the call fails. -/
def Stripe.price_of (stripe : Stripe) (id : Option StripeId) : Option (Row StripePrice) :=
  if fails .price_modify then none else id.bind stripe.prices.byId

/-- `stripe.Product.create`. -/
def Product_create (name : String) : M StripeId :=
  Proc.attempt fun w =>
    if fails .product_create then .error .stripeError
    else .ok (w.stripe.products.next, w.add_product name)

/-- `stripe.Price.create`. -/
def Price_create (args : PriceArgs) : M StripeId :=
  Proc.attempt fun w => match args.made accepts fails w.stripe with
    | none => .error .stripeError
    | some price => .ok (w.stripe.prices.next, w.add_price price)

/-- `stripe.Product.update`. The pinned package has no such call of a product: what has
the name is the dictionary method of `StripeObject`, which takes no keywords. Nothing is
sent. -/
def Product_update (_ : Option StripeId) (_ : ProductArgs) : M Unit := .raise .typeError

/-- `stripe.Price.modify`. -/
def Price_modify (id : Option StripeId) (f : StripePrice → StripePrice) : M Unit :=
  Proc.attempt fun w => match w.stripe.price_of fails id with
    | none => .error .stripeError
    | some price => .ok ((), w.update_price price.id f)

/-! ## The repository -/

/-- The columns of a plan that an `UPDATE` of the service writes: never the
code. -/
structure PlanPatch where
  apply : Plan → Plan
  keys : ∀ p, Keyed.keys (apply p) = Keyed.keys p

namespace PlanPatch

/-- `create_plan` after both calls to Stripe. -/
def stripe_ids (product price : Option StripeId) : PlanPatch where
  apply p := { p with
    stripe_product_id := product <|> p.stripe_product_id
    stripe_price_id := price <|> p.stripe_price_id }
  keys _ := rfl

/-- `update_plan`: the fields that are set, and the new price if there is one. -/
def of_update (data : PlanUpdate) (stripe_price_id : Option StripeId) : PlanPatch where
  apply p := { p with
    name := data.name.value.getD p.name
    price_cents := data.price_cents.value.getD p.price_cents
    billing_period := data.billing_period.value.getD p.billing_period
    currency := data.currency.value.getD p.currency
    is_active := data.is_active.value.getD p.is_active
    stripe_price_id := stripe_price_id <|> p.stripe_price_id }
  keys _ := rfl

def inactive : PlanPatch where
  apply p := { p with is_active := false }
  keys _ := rfl

end PlanPatch

def World.update_plan (w : World) (i : UUID) (p : PlanPatch) : World :=
  { w with db := w.db.update_plan i p.apply p.keys }

namespace PlanRepository

def create (plan : Plan) : M (Row Plan) :=
  Proc.attempt fun w => (w.db.insert_plan plan).map fun (r, db) => (r, { w with db := db })

/-- `refresh` of a plan. -/
def reload (i : UUID) : M (Row Plan) :=
  Proc.query fun w => match w.db.plans.byId i with
    | some r => .ok r
    | none => .error .invalidRequestError

def update (plan : Row Plan) (p : PlanPatch) : M (Row Plan) := do
  Proc.attempt fun w =>
    if (p.apply plan.val).FitsColumns then .ok ((), w.update_plan plan.id p)
    else .error .dataError
  reload plan.id

def soft_delete (plan : Row Plan) : M Unit :=
  Proc.write (·.update_plan plan.id .inactive)

end PlanRepository

/-! ## The gateway -/

namespace StripeGateway

/-- The price of a new plan is a monthly one. -/
def new_price_args (plan : Plan) (product : StripeId) : PriceArgs :=
  { product := some product, unit_amount := some plan.price_cents, currency := some plan.currency,
    interval := some "month" }

/-- The ids that the plan does not have yet are made and put into it. -/
def add_stripe_ids (plan : Row Plan) : M (Row Plan) := do
  let product ← match plan.val.stripe_product_id with
    | some product => pure product
    | none => Product_create fails plan.val.name
  let price ← match plan.val.stripe_price_id with
    | some price => pure price
    | none => Price_create accepts fails (new_price_args plan.val product)
  pure ⟨plan.id, (PlanPatch.stripe_ids (some product) (some price)).apply plan.val⟩

def save_plan_to_stripe (plan : Row Plan) : M (Option (Row Plan)) :=
  Proc.rescue
    (do
      let plan ← add_stripe_ids accepts fails plan
      pure (some plan))
    fun
      | .stripeError => pure none
      | e => .raise e

/-- A key that is there counts as a change, also with a null in it. -/
def price_args (plan : Plan) (data : PlanUpdate) : PriceArgs :=
  { product := plan.stripe_product_id
    unit_amount := data.price_cents.get plan.price_cents
    currency := data.currency.get plan.currency
    interval := (data.billing_period.get plan.billing_period).map BillingPeriod.value }

/-- The result is the id of a new price: the other keys are those of `data`. -/
def update_plan_in_stripe (plan : Row Plan) (data : PlanUpdate) : M (Option StripeId) := do
  if data.name.present then
    Product_update plan.val.stripe_product_id (.name data.name)
  if data.has_price_key then
    let new_price ← Price_create accepts fails (price_args plan.val data)
    pure (some new_price)
  else pure none

def soft_delete_plan_in_stripe (plan : Row Plan) : M Unit := do
  Product_update plan.val.stripe_product_id (.active false)
  Price_modify fails plan.val.stripe_price_id StripePrice.deactivated

end StripeGateway

/-! ## The service -/

namespace PlanService

/-- A plan that Stripe did not take is returned all the same. Its product id,
if it has one, is not committed. -/
def create_plan (data : PlanCreate) : M (Row Plan) := do
  match ← PlanRepository.get_by_code data.code with
  | some _ => httpException 400 "Existing Code"
  | none =>
    let result ← PlanRepository.create data.plan
    match ← StripeGateway.save_plan_to_stripe accepts fails result with
    | some stripe_plan =>
      PlanRepository.update result
        (.stripe_ids stripe_plan.val.stripe_product_id stripe_plan.val.stripe_price_id)
    | none => pure result

def update_plan (plan_id : UUID) (data : PlanUpdate) : M (Row Plan) := do
  match ← PlanRepository.get_by_id (some (.ofUuid plan_id)) with
  | none => httpException 404 "No plan found for this id"
  | some plan =>
    let stripe_price_id ← StripeGateway.update_plan_in_stripe accepts fails plan data
    PlanRepository.update plan (.of_update data stripe_price_id)

def soft_delete_plan (plan_id : UUID) : M Unit := do
  match ← PlanRepository.get_by_id (some (.ofUuid plan_id)) with
  | none => httpException 404 "No plan found for this id"
  | some plan =>
    if plan.val.is_active then
      StripeGateway.soft_delete_plan_in_stripe fails plan
      PlanRepository.soft_delete plan
    else httpException 400 "Plan already deleted."

end PlanService

end

/-! ## The specs of the requests -/

section

open Proc StripeGateway PlanService

variable {accepts : String → Bool} {fails : StripeCall → Bool} {w : World}

namespace World

/-- A plan has this code, on sale or not. -/
def HasCode (w : World) (code : String) : Prop := ∃ r ∈ w.db.plans.rows, r.val.code = code

instance (code : String) : Decidable (w.HasCode code) := List.decidableBEx _ _

theorem fits_plan (p : Plan) : w.db.plans.Fits p ↔ ¬ w.HasCode p.code := by
  rw [Table.fits_iff_of_key (k := p.code) rfl]
  simp only [HasCode, Keyed.keys, List.mem_singleton, not_exists, not_and, eq_comm]

theorem plan_of_code {code : String} (h : ¬ w.HasCode code) : w.plan_of code = none := by
  rcases hp : w.plan_of code with _ | r
  · rfl
  · have hr := Table.mem_select.mp (List.mem_of_mem_head? hp)
    simp only [Bool.and_eq_true, decide_eq_true_eq] at hr
    exact absurd ⟨r, hr.1, hr.2.1⟩ h

/-- The world with one more plan. -/
def add_plan (w : World) (p : Plan) (h : w.db.plans.Fits p) : World :=
  { w with db := w.db.add_plan p h }

/-- What the second half of an update writes: the row, where the new values fit. -/
def saved (w : World) (plan : Row Plan) (p : PlanPatch) : Except Err (Row Plan) × World :=
  if (p.apply plan.val).FitsColumns then
    (.ok ⟨plan.id, p.apply plan.val⟩, w.update_plan plan.id p)
  else (.error .dataError, w)

end World

theorem PlanRepository.get_by_id.spec (i : UUID) :
    (PlanRepository.get_by_id (some (.ofUuid i))).run w = (.ok (w.db.plans.byId i), w) :=
  run_query _ w

theorem PlanRepository.create.spec (plan : Plan) (w : World) :
    (PlanRepository.create plan).run w = match w.db.insert_plan plan with
      | .error e => (.error e, w)
      | .ok (r, db) => (.ok r, { w with db := db }) := by
  unfold PlanRepository.create
  rw [run_attempt]
  rcases w.db.insert_plan plan with e | ⟨r, db⟩ <;> rfl

theorem PlanRepository.update.spec {plan : Row Plan} (p : PlanPatch)
    (h : plan ∈ w.db.plans.rows) : (PlanRepository.update plan p).run w = w.saved plan p := by
  unfold PlanRepository.update World.saved
  rw [run_bind, run_attempt]
  by_cases hf : (p.apply plan.val).FitsColumns
  · simp only [hf, if_true]
    unfold PlanRepository.reload
    rw [run_query]
    have hb : (w.update_plan plan.id p).db.plans.byId plan.id =
        some ⟨plan.id, p.apply plan.val⟩ := Table.byId_update_self p.keys h
    rw [hb]
  · simp only [hf, if_false]

theorem Price_create.spec (args : PriceArgs) (w : World) :
    (Price_create accepts fails args).run w = match args.made accepts fails w.stripe with
      | none => (.error .stripeError, w)
      | some price => (.ok w.stripe.prices.next, w.add_price price) := by
  unfold Price_create
  rw [run_attempt]
  rcases args.made accepts fails w.stripe with _ | price <;> rfl

theorem PriceArgs.made_eq_some {args : PriceArgs} {stripe : Stripe} {price : StripePrice} :
    args.made accepts fails stripe = some price ↔
      fails .price_create = false ∧ args.interval.all accepts = true ∧
        stripe.products.Has price.product ∧ price.active = true ∧
        args = { product := some price.product, unit_amount := some price.unit_amount,
                 currency := some price.currency, interval := price.interval } := by
  obtain ⟨product, unit_amount, currency, interval⟩ := args
  obtain ⟨product', unit_amount', currency', interval', active'⟩ := price
  unfold PriceArgs.made
  rcases product with _ | p
  · simp
  · rcases hb : stripe.products.byId p with _ | r
    · have hn := Table.byId_eq_none.mp hb
      simp only [Option.bind_some, hb, reduceCtorEq, PriceArgs.mk.injEq, Option.some.injEq,
        false_iff]
      rintro ⟨_, _, ⟨r, hr, hi⟩, _, rfl, _⟩
      exact hn r hr hi
    · have hr := Table.byId_eq_some.mp hb
      have hp : stripe.products.Has p := ⟨r, hr⟩
      rcases unit_amount with _ | a
      · simp [hb]
      · rcases currency with _ | c
        · simp [hb]
        · simp only [Option.bind_some, hb, Option.ite_none_right_eq_some, Bool.and_eq_true,
            Bool.not_eq_true', Option.some.injEq, StripePrice.mk.injEq, PriceArgs.mk.injEq, hr.2]
          constructor
          · rintro ⟨⟨hf, ha⟩, rfl, rfl, rfl, rfl, rfl⟩
            exact ⟨hf, ha, hp, rfl, rfl, rfl, rfl, rfl⟩
          · rintro ⟨hf, ha, _, rfl, rfl, rfl, rfl, rfl⟩
            exact ⟨⟨hf, ha⟩, rfl, rfl, rfl, rfl, rfl⟩

/-- A name in the request ends it, and without one Stripe is asked for a price alone. -/
theorem StripeGateway.update_plan_in_stripe.spec (plan : Row Plan) (data : PlanUpdate)
    (w : World) : (update_plan_in_stripe accepts fails plan data).run w =
      if data.name.present then (.error .typeError, w)
      else if data.has_price_key then
        match (price_args plan.val data).made accepts fails w.stripe with
        | none => (.error .stripeError, w)
        | some price => (.ok (some w.stripe.prices.next), w.add_price price)
      else (.ok none, w) := by
  unfold update_plan_in_stripe
  rcases data.name.present with _ | _
  · rcases data.has_price_key with _ | _
    · rfl
    · simp only [Bool.false_eq_true, if_false, if_true]
      rw [run_bind, Price_create.spec]
      rcases (price_args plan.val data).made accepts fails w.stripe with _ | price <;> rfl
  · rfl

/-- The price of a new plan, whose product was made just before. -/
theorem StripeGateway.made_new (plan : Plan) (name : String) :
    (new_price_args plan w.stripe.products.next).made accepts fails (w.add_product name).stripe =
      if !fails .price_create && accepts "month" then
        some { product := w.stripe.products.next, unit_amount := plan.price_cents,
               currency := plan.currency, interval := some "month" }
      else none := by
  have hb : (w.add_product name).stripe.products.byId w.stripe.products.next =
      some (w.stripe.products.newRow { name := name }) :=
    Table.byId_push_self (fits_of_no_keys rfl)
  simp only [PriceArgs.made, new_price_args, Option.bind_some, hb, Option.all_some]
  rfl

theorem StripeGateway.save_plan_to_stripe.spec {plan : Row Plan}
    (hp : plan.val.stripe_product_id = none) (hq : plan.val.stripe_price_id = none) (w : World) :
    (save_plan_to_stripe accepts fails plan).run w =
      if fails .product_create then (.ok none, w)
      else if fails .price_create || !accepts "month" then (.ok none, w.add_product plan.val.name)
      else
        (.ok (some ⟨plan.id, (PlanPatch.stripe_ids (some w.stripe.products.next)
            (some w.stripe.prices.next)).apply plan.val⟩),
          (w.add_product plan.val.name).add_price
            { product := w.stripe.products.next, unit_amount := plan.val.price_cents,
              currency := plan.val.currency, interval := some "month" }) := by
  unfold save_plan_to_stripe add_stripe_ids
  simp only [hp, hq]
  rw [run_rescue, run_bind, run_bind]
  unfold Product_create
  rw [run_attempt]
  rcases fails .product_create with _ | _
  · simp only [Bool.false_eq_true, if_false]
    rw [run_bind, Price_create.spec, StripeGateway.made_new]
    rcases fails .price_create with _ | _
    · rcases accepts "month" with _ | _ <;> rfl
    · rfl
  · rfl

theorem PlanService.create_plan.refused {data : PlanCreate}
    (h : w.HasCode data.code ∨ ¬ data.plan.FitsColumns) :
    ∃ e, (create_plan accepts fails data).run w = (.error e, w) := by
  unfold create_plan
  rw [run_bind, PlanRepository.get_by_code.spec]
  rcases w.plan_of data.code with _ | r
  · have hi : ∃ e, w.db.insert_plan data.plan = .error e := by
      unfold Db.insert_plan
      by_cases hf : data.plan.FitsColumns
      · have hc : ¬ w.db.plans.Fits data.plan := by
          rw [World.fits_plan]
          exact not_not_intro (h.resolve_right (not_not_intro hf))
        exact ⟨.integrityError, by simp [hf, hc]⟩
      · exact ⟨.dataError, by simp [hf]⟩
    obtain ⟨e, he⟩ := hi
    refine ⟨e, ?_⟩
    simp only
    rw [run_bind, PlanRepository.create.spec, he]
  · exact ⟨_, rfl⟩

/-- A plan with a code of its own: the row, and what Stripe takes of it. -/
theorem PlanService.create_plan.spec {data : PlanCreate} (hc : w.db.plans.Fits data.plan)
    (hf : data.plan.FitsColumns) : (create_plan accepts fails data).run w =
      let r := w.db.plans.newRow data.plan
      let w₁ := w.add_plan data.plan hc
      if fails .product_create then (.ok r, w₁)
      else if fails .price_create || !accepts "month" then (.ok r, w₁.add_product data.name)
      else
        ((w₁.add_product data.name).add_price
          { product := w.stripe.products.next, unit_amount := data.price_cents,
            currency := data.currency, interval := some "month" }).saved r
          (.stripe_ids (some w.stripe.products.next) (some w.stripe.prices.next)) := by
  have hi : w.db.insert_plan data.plan =
      .ok (w.db.plans.newRow data.plan, w.db.add_plan data.plan hc) := by
    simp only [Db.insert_plan, hf, hc, not_true, if_false, dif_pos]
  have hn : w.plan_of data.code = none := World.plan_of_code ((World.fits_plan data.plan).mp hc)
  unfold create_plan
  rw [run_bind, PlanRepository.get_by_code.spec, hn]
  simp only
  rw [run_bind, PlanRepository.create.spec, hi]
  simp only
  rw [run_bind, save_plan_to_stripe.spec rfl rfl]
  rcases fails .product_create with _ | _
  · rcases fails .price_create with _ | _
    · rcases accepts "month" with _ | _
      · rfl
      · simp only [Bool.false_eq_true, if_false, Bool.not_true, Bool.or_false]
        exact PlanRepository.update.spec _
          (List.mem_append_right _ (List.mem_singleton_self _))
    · rfl
  · rfl

theorem PlanService.update_plan.unknown {i : UUID} (data : PlanUpdate)
    (h : w.db.plans.byId i = none) : (update_plan accepts fails i data).run w =
      (.error (.http 404 "No plan found for this id"), w) := by
  unfold update_plan
  rw [run_bind_ok (PlanRepository.get_by_id.spec i), h]
  rfl

theorem PlanService.update_plan.spec {i : UUID} {plan : Row Plan} (data : PlanUpdate)
    (h : w.db.plans.byId i = some plan) : (update_plan accepts fails i data).run w =
      if data.name.present then (.error .typeError, w)
      else if data.has_price_key then
        match (price_args plan.val data).made accepts fails w.stripe with
        | none => (.error .stripeError, w)
        | some price =>
          (w.add_price price).saved plan (.of_update data (some w.stripe.prices.next))
      else w.saved plan (.of_update data none) := by
  have hm : plan ∈ w.db.plans.rows := (Table.byId_eq_some.mp h).1
  unfold update_plan
  rw [run_bind_ok (PlanRepository.get_by_id.spec i), h]
  simp only
  rw [run_bind, update_plan_in_stripe.spec]
  rcases data.name.present with _ | _
  · rcases data.has_price_key with _ | _
    · exact PlanRepository.update.spec _ hm
    · rcases (price_args plan.val data).made accepts fails w.stripe with _ | price
      · rfl
      · exact PlanRepository.update.spec (w := w.add_price price) _ hm
  · rfl

/-- No deletion gets past its first call. -/
theorem PlanService.soft_delete_plan.spec (i : UUID) (w : World) :
    (soft_delete_plan fails i).run w = match w.db.plans.byId i with
      | none => (.error (.http 404 "No plan found for this id"), w)
      | some plan =>
        if plan.val.is_active then (.error .typeError, w)
        else (.error (.http 400 "Plan already deleted."), w) := by
  unfold soft_delete_plan
  rw [run_bind_ok (PlanRepository.get_by_id.spec i)]
  rcases w.db.plans.byId i with _ | plan
  · rfl
  · simp only
    rcases plan.val.is_active with _ | _ <;> rfl

end

end saas
