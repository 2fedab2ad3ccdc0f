-- The code of a plan: what `create_plan` looks at before it inserts one, and what
-- the unique column `plans.code` looks at. A plan that is off sale has its code
-- still.
import SaasBackend.PlanPeriods

open relational async

namespace saas

open Proc StripeGateway PlanService

/-! ## A request for a new plan -/

/-- A plan on sale has this code: all that `get_by_code` sees. -/
def World.OnSale (w : World) (code : String) : Prop :=
  ∃ r ∈ w.db.plans.rows, r.val.code = code ∧ r.val.is_active = true

instance (w : World) (code : String) : Decidable (w.OnSale code) := List.decidableBEx _ _

/-- The answer to a code that is taken. -/
def existing_code : Err := .http 400 "Existing Code"

/-- One more plan, and otherwise the plans as they were. The ids of Stripe may come
with it. -/
def AddsPlan (data : PlanCreate) (w w' : World) : Prop :=
  ∃ plan : Plan, w'.db.plans.rows = w.db.plans.rows ++ [⟨w.db.plans.next, plan⟩] ∧
    { plan with stripe_product_id := none, stripe_price_id := none } = data.plan

/-- The check of the code covers the constraint: a code that no plan has makes a
plan, and every other one is refused. -/
structure CodeChecked (accepts : String → Bool) (fails : StripeCall → Bool) (data : PlanCreate)
    (w : World) : Prop where
  outcome : (∃ plan w', (create_plan accepts fails data).run w = (.ok plan, w') ∧
      AddsPlan data w w') ∨
    (create_plan accepts fails data).run w = (.error existing_code, w)
  refused_iff : (create_plan accepts fails data).run w = (.error existing_code, w) ↔
    w.HasCode data.code
  no_violation : ((create_plan accepts fails data).run w).1 ≠ .error .integrityError

section

variable {accepts : String → Bool} {fails : StripeCall → Bool} {w : World} {data : PlanCreate}

theorem World.OnSale.hasCode {code : String} (h : w.OnSale code) : w.HasCode code := by
  obtain ⟨r, hr, hc, _⟩ := h
  exact ⟨r, hr, hc⟩

theorem World.plan_of_eq_none {code : String} : w.plan_of code = none ↔ ¬ w.OnSale code := by
  unfold World.plan_of World.OnSale
  rw [List.head?_eq_none_iff, Table.select, List.filter_eq_nil_iff]
  simp

theorem create_plan.taken (h : w.OnSale data.code) :
    (create_plan accepts fails data).run w = (.error existing_code, w) := by
  unfold create_plan
  rw [run_bind, PlanRepository.get_by_code.spec]
  rcases hp : w.plan_of data.code with _ | r
  · exact absurd h (World.plan_of_eq_none.mp hp)
  · rfl

/-- What the insert says to a code that is off sale, and to values that do not fit. -/
theorem create_plan.unseen (hn : ¬ w.OnSale data.code)
    (h : w.HasCode data.code ∨ ¬ data.plan.FitsColumns) :
    (create_plan accepts fails data).run w =
      (.error (if data.plan.FitsColumns then .integrityError else .dataError), w) := by
  unfold create_plan
  rw [run_bind, PlanRepository.get_by_code.spec, World.plan_of_eq_none.mpr hn]
  simp only
  rw [run_bind, PlanRepository.create.spec]
  unfold Db.insert_plan
  by_cases hf : data.plan.FitsColumns
  · have hc : ¬ w.db.plans.Fits data.plan := by
      rw [World.fits_plan]
      exact not_not_intro (h.resolve_right (not_not_intro hf))
    simp [hf, hc]
  · simp [hf]

theorem AddsPlan.update {v : World} (p : PlanPatch) {plan : Plan}
    (hv : v.db.plans.rows = w.db.plans.rows ++ [⟨w.db.plans.next, plan⟩]) :
    (v.update_plan w.db.plans.next p).db.plans.rows =
      w.db.plans.rows ++ [⟨w.db.plans.next, p.apply plan⟩] := by
  change v.db.plans.rows.map (Table.updateRow w.db.plans.next p.apply) = _
  have hold : w.db.plans.rows.map (Table.updateRow w.db.plans.next p.apply) = w.db.plans.rows := by
    refine (List.map_congr_left fun r hr => ?_).trans (List.map_id _)
    exact Table.updateRow_of_ne (Nat.ne_of_lt (w.db.plans.id_lt r hr))
  have hnew : Table.updateRow w.db.plans.next p.apply ⟨w.db.plans.next, plan⟩ =
      ⟨w.db.plans.next, p.apply plan⟩ := Table.updateRow_of_eq rfl
  rw [hv, List.map_append, hold, List.map_singleton, hnew]

/-- A code of its own, and values that fit: one more plan, whatever Stripe does. -/
theorem create_plan.adds (hc : ¬ w.HasCode data.code) (hf : data.plan.FitsColumns) :
    ∃ plan w', (create_plan accepts fails data).run w = (.ok plan, w') ∧ AddsPlan data w w' := by
  have hfit : w.db.plans.Fits data.plan := (World.fits_plan data.plan).mpr hc
  have hrows : (w.add_plan data.plan hfit).db.plans.rows =
      w.db.plans.rows ++ [⟨w.db.plans.next, data.plan⟩] := rfl
  rw [create_plan.spec hfit hf]
  rcases fails .product_create with _ | _
  · rcases fails .price_create || !accepts "month" with _ | _
    · have hids : ((PlanPatch.stripe_ids (some w.stripe.products.next)
          (some w.stripe.prices.next)).apply (w.db.plans.newRow data.plan).val).FitsColumns := hf
      simp only [Bool.false_eq_true, if_false, World.saved, if_pos hids]
      exact ⟨_, _, rfl, _, AddsPlan.update _ hrows, rfl⟩
    · exact ⟨_, _, rfl, _, hrows, rfl⟩
  · exact ⟨_, _, rfl, _, hrows, rfl⟩

/-- The check is right about a code that is on sale, and about one that no plan has. -/
theorem code_checked_iff : CodeChecked accepts fails data w ↔
    w.OnSale data.code ∨ (¬ w.HasCode data.code ∧ data.plan.FitsColumns) := by
  constructor
  · intro h
    by_cases hs : w.OnSale data.code
    · exact Or.inl hs
    · right
      by_contra hn
      have hbad : w.HasCode data.code ∨ ¬ data.plan.FitsColumns := by tauto
      have hrun : (create_plan accepts fails data).run w = _ := create_plan.unseen hs hbad
      have hout := h.outcome
      rw [hrun] at hout
      rcases hout with ⟨plan, w', hok, _⟩ | herr
      · cases hok
      · split at herr <;> cases herr
  · rintro (hs | ⟨hc, hf⟩)
    · have hrun : (create_plan accepts fails data).run w = _ := create_plan.taken hs
      refine ⟨Or.inr hrun, iff_of_true hrun hs.hasCode, ?_⟩
      rw [hrun]
      simp [existing_code]
    · obtain ⟨plan, w', hrun, hadds⟩ :
          ∃ plan w', (create_plan accepts fails data).run w = (.ok plan, w') ∧
            AddsPlan data w w' := create_plan.adds hc hf
      refine ⟨Or.inl ⟨plan, w', hrun, hadds⟩, iff_of_false ?_ hc, ?_⟩
      · rw [hrun]
        simp
      · rw [hrun]
        simp

end

/-! ## Runs -/

/-- No request takes a plan off sale, or makes one that is off sale. A deletion never
does: it fails at Stripe. -/
def KeepsOnSale (_ : World) (l : PlanLabel) : Prop :=
  match l.request with
  | .create data => data.is_active = true
  | .update _ data => data.is_active.value ≠ some false
  | .delete _ => True

instance (w : World) (l : PlanLabel) : Decidable (KeepsOnSale w l) := by
  unfold KeepsOnSale
  rcases l with ⟨_ | _ | _, _⟩ <;> infer_instance

/-- Every plan is on sale. -/
def AllOnSale (w : World) : Prop := ∀ r ∈ w.db.plans.rows, r.val.is_active = true

section

variable {accepts : String → Bool} {w : World}

/-- Each plan after a request is on sale as the one before, or new and on sale. -/
theorem AllOnSale.of_rows {w' : World} (h : AllOnSale w)
    (hrows : ∀ r ∈ w'.db.plans.rows, r ∈ w.db.plans.rows ∨ r.val.is_active = true) :
    AllOnSale w' := by
  intro r hr
  rcases hrows r hr with hr | ha
  · exact h r hr
  · exact ha

/-- An update leaves the flag or sets it. -/
theorem AllOnSale.update {plan : Row Plan} {data : PlanUpdate} (h : AllOnSale w)
    (hplan : plan ∈ w.db.plans.rows) (hdata : data.is_active.value ≠ some false)
    (price : Option StripeId) :
    ((PlanPatch.of_update data price).apply plan.val).is_active = true := by
  have hp := h plan hplan
  rcases hv : data.is_active.value with _ | _ | _
  · simpa [PlanPatch.of_update, hv] using hp
  · exact absurd hv hdata
  · simp [PlanPatch.of_update, hv]

theorem AllOnSale.next {l : PlanLabel} (h : AllOnSale w) (hl : KeepsOnSale w l) :
    AllOnSale ((administration accepts).next w l) := by
  have hleaves : Leaves accepts l.fails w l.request ((administration accepts).next w l) := l.leaves
  obtain ⟨q, fails⟩ := l
  generalize (administration accepts).next w ⟨q, fails⟩ = w' at hleaves
  simp only at hleaves
  cases hleaves with
  | same => exact h
  | unsynced hfit hf hp =>
    refine h.of_rows fun r hr => ?_
    rcases World.mem_add_plan.mp hr with hr | rfl
    · exact Or.inl hr
    · exact Or.inr hl
  | no_price hfit hf =>
    refine h.of_rows fun r hr => ?_
    rcases World.mem_add_plan.mp hr with hr | rfl
    · exact Or.inl hr
    · exact Or.inr hl
  | synced hfit hf hp hq =>
    refine h.of_rows fun r hr => ?_
    rcases (World.mem_update_new rfl).mp hr with hr | rfl
    · exact Or.inl hr
    · exact Or.inr hl
  | priced price => exact h
  | updated hi hg hk =>
    refine h.of_rows fun r hr => ?_
    rcases (World.mem_update_found hi).mp hr with rfl | ⟨hr, _⟩
    · exact Or.inr (h.update (Table.byId_eq_some.mp hi).1 hl none)
    · exact Or.inl hr
  | @repriced i plan data price hi hg hk hm =>
    refine h.of_rows fun r hr => ?_
    rcases (World.mem_update_found (w := w.add_price price) hi).mp hr with rfl | ⟨hr, _⟩
    · exact Or.inr (h.update (Table.byId_eq_some.mp hi).1 hl _)
    · exact Or.inl hr

theorem AllOnSale.onSale_iff (h : AllOnSale w) (code : String) :
    w.OnSale code ↔ w.HasCode code := by
  constructor
  · exact World.OnSale.hasCode
  · rintro ⟨r, hr, hc⟩
    exact ⟨r, hr, hc, h r hr⟩

end

/-- A request for a new plan is refused for its code alone, and never by the
constraint: if and only if a plan on sale has the code, or no plan has it (and its
values fit the columns). Where no request has taken a plan off sale, that is every
code. -/
theorem plan_codes_are_checked (accepts : String → Bool) (w : World) :
    (∀ fails data, CodeChecked accepts fails data w ↔
      w.OnSale data.code ∨ (¬ w.HasCode data.code ∧ data.plan.FitsColumns)) ∧
    ∀ v ls, NoPlans v → (administration accepts).Run KeepsOnSale v ls w →
      ∀ fails data, CodeChecked accepts fails data w ↔
        w.HasCode data.code ∨ data.plan.FitsColumns := by
  refine ⟨fun fails data => code_checked_iff, fun v ls h0 h fails data => ?_⟩
  have hall : AllOnSale w := by
    refine h.invariant (fun r hr => ?_) fun a l ha _ hl => ha.next hl
    rw [h0] at hr
    cases hr
  rw [code_checked_iff, hall.onSale_iff]
  tauto

/-- The plan `pro`, and once more under another name. -/
def pro_again : PlanCreate :=
  { name := "Pro again", code := "pro", price_cents := 2000, billing_period := .MONTHLY }

theorem plan_codes_are_checked_sample :
    CodeChecked stripe_intervals (fun _ => false) pro_again
      ((administration stripe_intervals).exec empty_service monthly_plan) :=
  ((plan_codes_are_checked stripe_intervals _).2 empty_service monthly_plan rfl
    (.of_path (by decide)) (fun _ => false) pro_again).mpr (Or.inl (by decide))

/-- The plan `pro` is made and taken off sale. -/
def plan_off_sale : List PlanLabel :=
  [{ request := .create { name := "Pro", code := "pro", price_cents := 1000,
                          billing_period := .MONTHLY } },
   { request := .update 0 { is_active := .val false } }]

/-- The code of a plan off sale passes the check and violates the constraint. -/
theorem code_off_sale_is_not_checked :
    NoPlans empty_service ∧ ∃ w, (administration stripe_intervals).Run (fun _ _ => True)
      empty_service plan_off_sale w ∧
      ((create_plan stripe_intervals (fun _ => false) pro_again).run w).1 =
        .error .integrityError ∧
      ¬ CodeChecked stripe_intervals (fun _ => false) pro_again w := by
  have hout : ((create_plan stripe_intervals (fun _ => false) pro_again).run
      ((administration stripe_intervals).exec empty_service plan_off_sale)).1 =
        .error .integrityError := by decide
  exact ⟨rfl, _, .of_path (by decide), hout, fun h => h.no_violation hout⟩

end saas
