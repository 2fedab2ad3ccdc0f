-- Runs of plan requests. An admin creates, updates and deletes plans, one
-- request after another, and in each of them any call to Stripe may fail.
import SaasBackend.PlanUpdates
import SaasBackend.Runs

open relational async

namespace saas

open Proc StripeGateway PlanService

inductive PlanRequest where
  | create (data : PlanCreate)
  | update (plan_id : UUID) (data : PlanUpdate)
  | delete (plan_id : UUID)
deriving DecidableEq, Repr

/-- A request, and the calls to Stripe that fail in it. -/
structure PlanLabel where
  request : PlanRequest
  fails : StripeCall → Bool := fun _ => false

def PlanRequest.prog (accepts : String → Bool) (fails : StripeCall → Bool) : PlanRequest → M Unit
  | .create data => do
    let _ ← create_plan accepts fails data
  | .update plan_id data => do
    let _ ← update_plan accepts fails plan_id data
  | .delete plan_id => soft_delete_plan fails plan_id

/-- The administration of plans, with a Stripe that takes these intervals. -/
def administration (accepts : String → Bool) : System World PlanLabel where
  enabled _ _ := True
  next w l := ((l.request.prog accepts l.fails).run w).2

instance (accepts : String → Bool) (w : World) (l : PlanLabel) :
    Decidable ((administration accepts).enabled w l) := inferInstanceAs (Decidable True)

/-- A service that has no plan yet. -/
def NoPlans (w : World) : Prop := w.db.plans.rows = []

namespace World

variable {w : World}

theorem mem_add_plan {p : Plan} {h : w.db.plans.Fits p} {r : Row Plan} :
    r ∈ (w.add_plan p h).db.plans.rows ↔ r ∈ w.db.plans.rows ∨ r = w.db.plans.newRow p := by
  change r ∈ w.db.plans.rows ++ [w.db.plans.newRow p] ↔ _
  rw [List.mem_append, List.mem_singleton]

theorem mem_update_plan {i : UUID} {p : PlanPatch} {r' : Row Plan} :
    r' ∈ (w.update_plan i p).db.plans.rows ↔
      (∃ r ∈ w.db.plans.rows, r.id = i ∧ r' = ⟨r.id, p.apply r.val⟩) ∨
        (r' ∈ w.db.plans.rows ∧ r'.id ≠ i) := Table.mem_update p.keys

/-- A plan found by its id is the row that an update of this id changes. -/
theorem mem_update_found {i : UUID} {p : PlanPatch} {plan r' : Row Plan}
    (hi : w.db.plans.byId i = some plan) :
    r' ∈ (w.update_plan plan.id p).db.plans.rows ↔
      r' = ⟨plan.id, p.apply plan.val⟩ ∨ (r' ∈ w.db.plans.rows ∧ r'.id ≠ plan.id) := by
  have hm := (Table.byId_eq_some.mp hi).1
  rw [mem_update_plan]
  constructor
  · rintro (⟨r, hr, hri, rfl⟩ | h)
    · rw [Table.eq_of_id hr hm hri]
      exact Or.inl rfl
    · exact Or.inr h
  · rintro (rfl | h)
    · exact Or.inl ⟨plan, hm, rfl, rfl⟩
    · exact Or.inr h

/-- The update of a plan that was added just before. -/
theorem mem_update_new {v : World} {p : Plan} {q : PlanPatch} {r' : Row Plan}
    (hv : v.db.plans.rows = w.db.plans.rows ++ [w.db.plans.newRow p]) :
    r' ∈ (v.update_plan w.db.plans.next q).db.plans.rows ↔
      r' ∈ w.db.plans.rows ∨ r' = ⟨w.db.plans.next, q.apply p⟩ := by
  rw [mem_update_plan, hv]
  simp only [List.mem_append, List.mem_singleton]
  constructor
  · rintro (⟨r, hr | rfl, hri, rfl⟩ | ⟨hr | rfl, hri⟩)
    · exact absurd hri (Nat.ne_of_lt (w.db.plans.id_lt r hr))
    · exact Or.inr rfl
    · exact Or.inl hr
    · exact absurd rfl hri
  · rintro (hr | rfl)
    · exact Or.inr ⟨Or.inl hr, Nat.ne_of_lt (w.db.plans.id_lt r' hr)⟩
    · exact Or.inl ⟨w.db.plans.newRow p, Or.inr rfl, rfl, rfl⟩

end World

/-! ## What a request leaves -/

section

variable (accepts : String → Bool) (fails : StripeCall → Bool) (w : World)

/-- What a request can leave, with all that it has checked. -/
inductive Leaves : PlanRequest → World → Prop
  | same (q : PlanRequest) : Leaves q w
  /-- Stripe fails at the product of a new plan. -/
  | unsynced {data : PlanCreate} (hc : w.db.plans.Fits data.plan) (hf : data.plan.FitsColumns) :
      fails .product_create = true → Leaves (.create data) (w.add_plan data.plan hc)
  /-- Stripe fails at the price of a new plan. -/
  | no_price {data : PlanCreate} (hc : w.db.plans.Fits data.plan) (hf : data.plan.FitsColumns) :
      Leaves (.create data) ((w.add_plan data.plan hc).add_product data.name)
  | synced {data : PlanCreate} (hc : w.db.plans.Fits data.plan) (hf : data.plan.FitsColumns) :
      fails .product_create = false → fails .price_create = false →
      Leaves (.create data)
        ((((w.add_plan data.plan hc).add_product data.name).add_price
          { product := w.stripe.products.next, unit_amount := data.price_cents,
            currency := data.currency, interval := some "month" }).update_plan w.db.plans.next
          (.stripe_ids (some w.stripe.products.next) (some w.stripe.prices.next)))
  /-- Stripe makes the price of an update, and the new values do not fit. -/
  | priced {i : UUID} {data : PlanUpdate} (price : StripePrice) :
      Leaves (.update i data) (w.add_price price)
  | updated {i : UUID} {plan : Row Plan} {data : PlanUpdate} : w.db.plans.byId i = some plan →
      GoesThrough accepts fails w plan.val data → data.has_price_key = false →
      Leaves (.update i data) (w.update_plan plan.id (.of_update data none))
  | repriced {i : UUID} {plan : Row Plan} {data : PlanUpdate} {price : StripePrice} :
      w.db.plans.byId i = some plan → GoesThrough accepts fails w plan.val data →
      data.has_price_key = true →
      (price_args plan.val data).made accepts fails w.stripe = some price →
      Leaves (.update i data) ((w.add_price price).update_plan plan.id
        (.of_update data (some w.stripe.prices.next)))

variable {accepts fails w}

theorem World.saved_leaves {q : PlanRequest} {v : World} {plan : Row Plan} {p : PlanPatch}
    (hno : Leaves accepts fails w q v)
    (hyes : (p.apply plan.val).FitsColumns → Leaves accepts fails w q (v.update_plan plan.id p)) :
    Leaves accepts fails w q (v.saved plan p).2 := by
  unfold World.saved
  split
  · rename_i hf
    exact hyes hf
  · exact hno

theorem create_plan.leaves (data : PlanCreate) :
    Leaves accepts fails w (.create data) ((create_plan accepts fails data).run w).2 := by
  by_cases hf : data.plan.FitsColumns
  · by_cases hc : w.db.plans.Fits data.plan
    · rw [create_plan.spec hc hf]
      rcases hp : fails .product_create with _ | _
      · rcases hq : fails .price_create with _ | _
        · rcases accepts "month" with _ | _
          · exact .no_price hc hf
          · -- The ids change no column of text or number.
            have hfit : ((PlanPatch.stripe_ids (some w.stripe.products.next)
                (some w.stripe.prices.next)).apply
                  (w.db.plans.newRow data.plan).val).FitsColumns := hf
            simp only [Bool.false_eq_true, if_false, Bool.not_true, Bool.or_false]
            rw [World.saved, if_pos hfit]
            exact .synced hc hf hp hq
        · exact .no_price hc hf
      · exact .unsynced hc hf hp
    · rw [World.fits_plan, not_not] at hc
      obtain ⟨e, he⟩ : ∃ e, (create_plan accepts fails data).run w = (.error e, w) :=
        create_plan.refused (Or.inl hc)
      rw [he]
      exact .same _
  · obtain ⟨e, he⟩ : ∃ e, (create_plan accepts fails data).run w = (.error e, w) :=
      create_plan.refused (Or.inr hf)
    rw [he]
    exact .same _

theorem update_plan.leaves (i : UUID) (data : PlanUpdate) :
    Leaves accepts fails w (.update i data) ((update_plan accepts fails i data).run w).2 := by
  rcases hi : w.db.plans.byId i with _ | plan
  · rw [update_plan.unknown data hi]
    exact .same _
  · rw [update_plan.spec data hi]
    rcases hn : data.name.present with _ | _
    · simp only [Bool.false_eq_true, if_false]
      rcases hk : data.has_price_key with _ | _
      · exact World.saved_leaves (.same _) fun hf => .updated hi ⟨hn, by simp [hk], hf⟩ hk
      · rcases hm : (price_args plan.val data).made accepts fails w.stripe with _ | price
        · exact .same _
        · exact World.saved_leaves (.priced price)
            fun hf => .repriced hi ⟨hn, by simp [hm], hf⟩ hk hm
    · exact .same _

/-- A deletion leaves all as it was. -/
theorem soft_delete_plan.same (i : UUID) (w : World) :
    ((soft_delete_plan fails i).run w).2 = w := by
  rw [soft_delete_plan.spec]
  rcases w.db.plans.byId i with _ | plan
  · rfl
  · simp only
    split <;> rfl

/-- The step lemma: each request leaves one of these. -/
theorem PlanLabel.leaves (l : PlanLabel) :
    Leaves accepts l.fails w l.request ((administration accepts).next w l) := by
  obtain ⟨q, fails⟩ := l
  cases q with
  | create data =>
    have h : Leaves accepts fails w (.create data) ((create_plan accepts fails data).run w).2 :=
      create_plan.leaves data
    simp only [administration, PlanRequest.prog]
    rw [run_map_snd]
    exact h
  | update i data =>
    have h : Leaves accepts fails w (.update i data) ((update_plan accepts fails i data).run w).2 :=
      update_plan.leaves i data
    simp only [administration, PlanRequest.prog]
    rw [run_map_snd]
    exact h
  | delete i =>
    have h : (administration accepts).next w ⟨.delete i, fails⟩ = w := soft_delete_plan.same i w
    rw [h]
    exact .same _

end

end saas
