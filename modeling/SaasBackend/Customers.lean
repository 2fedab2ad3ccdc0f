-- The Stripe customers of the users. A session is opened for the id that the
-- user's row stores; whether a user gets one customer or several depends on
-- what becomes of an id that Stripe gave and the row did not store.
import SaasBackend.BillingSteps

open relational async

namespace saas

/-! ## The customers of the sessions -/

/-- A session is opened for the id that the row of its user stores. -/
def World.OwnCustomers (w : World) : Prop :=
  ∀ c ∈ w.stripe.sessions.rows, ∃ user ∈ w.db.users.rows, ∃ customer,
    c.val.client_reference_id = some (.ofUuid user.id) ∧
    user.val.stripe_customer_id = some customer ∧ c.val.customer = some customer

/-- The customers that were created for a user. -/
def World.customers_of (w : World) (u : UUID) : List (Row StripeCustomer) :=
  w.stripe.customers.select (fun k => decide (k.user_id = u))

/-- At most one customer was created for each user, and it is the one whose id
the row stores, if the row stores any; so it is the one of every session. -/
structure World.OneCustomer (w : World) : Prop where
  one : ∀ u, (w.customers_of u).length ≤ 1
  stored : ∀ user ∈ w.db.users.rows, ∀ customer, user.val.stripe_customer_id = some customer →
    ∀ k ∈ w.customers_of user.id, k.id = customer
  sessions : w.OwnCustomers

/-- A request that gets to `ensure_customer` for a user without a stored id
finds that Stripe has no customer of the user yet. -/
def FirstCustomer (w : World) (l : Label) : Prop :=
  match w.sells l with
  | some (user, _, _) => user.val.stripe_customer_id = none → w.customers_of user.id = []
  | none => True

instance (w : World) (l : Label) : Decidable (FirstCustomer w l) := by
  unfold FirstCustomer
  split <;> infer_instance

section

variable {l : Label} {w₀ w w' : World}

/-- Nothing is written but rows of subscriptions and payments, or at Stripe to
its subscriptions. -/
theorem World.OwnCustomers.same (h : w.OwnCustomers)
    (hs : ∀ c' ∈ w'.stripe.sessions.rows, ∃ c ∈ w.stripe.sessions.rows,
      c'.val.client_reference_id = c.val.client_reference_id ∧ c'.val.customer = c.val.customer)
    (hu : w'.db.users = w.db.users) : w'.OwnCustomers := by
  intro c' hc'
  obtain ⟨c, hc, href, hcust⟩ := hs c' hc'
  obtain ⟨user, huser, customer, h1, h2, h3⟩ := h c hc
  exact ⟨user, by rwa [hu], customer, by rw [href, h1], h2, by rw [hcust, h3]⟩

/-- A user without a stored id has no session, so storing one disturbs none. -/
theorem World.OwnCustomers.store {user : Row User} {customer : StripeId} (h : w.OwnCustomers)
    (hu : user ∈ w.db.users.rows) (hnone : user.val.stripe_customer_id = none) :
    (w.update_user user.id (.stripe_customer customer)).OwnCustomers := by
  intro c hc
  obtain ⟨v, hv, customer', h1, h2, h3⟩ := h c hc
  refine ⟨v, (Table.mem_update (UserPatch.stripe_customer customer).keys).mpr (Or.inr ⟨hv, ?_⟩),
    customer', h1, h2, h3⟩
  intro hid
  rw [Table.eq_of_id hv hu hid, hnone] at h2
  cases h2

theorem Effect.own_customers (h : Effect l w₀ w w') (hw : w.OwnCustomers) : w'.OwnCustomers := by
  have hsame : w'.stripe.sessions = w.stripe.sessions → w'.db.users = w.db.users →
      w'.OwnCustomers := fun hs hu => hw.same (fun c hc => ⟨c, by rwa [← hs], rfl, rfl⟩) hu
  cases h with
  | customer => exact hsame rfl rfl
  | store_customer _ _ hu hnone => exact hw.store hu hnone
  | @open_session user u plan old customer price hl hu hid hcustomer hprice hn hwho =>
    intro c hc
    rcases List.mem_append.mp hc with hc | hc
    · exact hw c hc
    · rw [List.mem_singleton.mp hc]
      exact ⟨u, hu, customer, by rw [hid]; rfl, hcustomer, rfl⟩
  | status => exact hsame rfl rfl
  | period => exact hsame rfl rfl
  | cancel => exact hsame rfl rfl
  | past_due => exact hsame rfl rfl
  | @create _ _ _ _ _ _ _ _ old _ _ _ _ _ _ _ _ _ _ _ hdb _ =>
    obtain ⟨_, _, _, _, hu, _⟩ := Db.insert_subscription_ok hdb
    have hold : (w.demote old).db.users = w.db.users := by cases old <;> rfl
    exact hsame (by cases old <;> rfl) (hu.trans hold)
  | record _ _ _ hdb _ =>
    obtain ⟨_, _, _, _, hu, _⟩ := Db.insert_payment_ok hdb
    exact hsame rfl hu
  | enqueue => exact hsame rfl rfl
  | tick => exact hsame rfl rfl
  | @pay c items hl hc hi =>
    refine hw.same (fun c' hc' => ?_) rfl
    rcases (Table.mem_update (f := World.set_subscription _) fun _ => rfl).mp hc' with
      ⟨c0, hc0, _, rfl⟩ | ⟨hc0, _⟩
    · exact ⟨c0, hc0, rfl, rfl⟩
    · exact ⟨c', hc0, rfl, rfl⟩
  | bill => exact hsame rfl rfl
  | stop => exact hsame rfl rfl

theorem Effects.own_customers (h : Effects l w₀ w) (hw : w₀.OwnCustomers) : w.OwnCustomers := by
  induction h with
  | refl => exact hw
  | tail _ hstep ih => exact hstep.own_customers ih

/-- In every reachable state, under either wiring of the service. -/
theorem own_customers {user_repo : UserRepo} (h : (billing user_repo).Reachable Initial w) :
    w.OwnCustomers := by
  have hboth : Good w ∧ w.OwnCustomers := by
    apply h.invariant (I := fun t => Good t ∧ t.OwnCustomers)
    · exact fun s h0 => ⟨h0.good, fun c hc => by simp [h0.sessions] at hc⟩
    · rintro t l ⟨hg, ho⟩ he
      have heff := billing_effects hg he
      exact ⟨heff.good hg, heff.own_customers ho⟩
  exact hboth.2

/-! ## The customers of a user -/

theorem World.customers_of_new (w : World) (user : Row User) (u : UUID) :
    (w.new_customer user).customers_of u =
      w.customers_of u ++ if user.id = u then
        [w.stripe.customers.newRow ⟨user.val.email, user.id⟩] else [] := by
  unfold World.customers_of World.new_customer
  simp [Table.select_push]

/-- Customers and users stay. -/
theorem World.OneCustomer.same (h : w.OneCustomer) (hs : w'.OwnCustomers)
    (hc : w'.stripe.customers = w.stripe.customers) (hu : w'.db.users = w.db.users) :
    w'.OneCustomer := by
  have hof : ∀ u, w'.customers_of u = w.customers_of u := fun u => by
    unfold World.customers_of
    rw [hc]
  refine ⟨fun u => by rw [hof]; exact h.one u, fun user huser customer hst k hk => ?_, hs⟩
  rw [hu] at huser
  rw [hof] at hk
  exact h.stored user huser customer hst k hk

/-- The first customer of a user who has no stored id. -/
theorem World.OneCustomer.create {user : Row User} (h : w.OneCustomer) (hs :
    (w.new_customer user).OwnCustomers) (hu : user ∈ w.db.users.rows)
    (hnone : user.val.stripe_customer_id = none) (hfirst : w.customers_of user.id = []) :
    (w.new_customer user).OneCustomer := by
  refine ⟨fun u => ?_, fun v hv customer hst k hk => ?_, hs⟩
  · rw [World.customers_of_new]
    by_cases hid : user.id = u
    · subst hid
      simp [hfirst]
    · simpa [hid] using h.one u
  · have hne : user.id ≠ v.id := by
      intro hid
      rw [← Table.eq_of_id hu hv hid, hnone] at hst
      cases hst
    rw [World.customers_of_new, if_neg hne, List.append_nil] at hk
    exact h.stored v hv customer hst k hk

/-- The id of the customer that was just created is stored. -/
theorem World.OneCustomer.store {user : Row User} (h : (w.new_customer user).OneCustomer)
    (hu : user ∈ w.db.users.rows) (hnone : user.val.stripe_customer_id = none) :
    ((w.new_customer user).update_user user.id
      (.stripe_customer w.stripe.customers.next)).OneCustomer := by
  refine ⟨h.one, fun v hv customer hst k hk => ?_, h.sessions.store hu hnone⟩
  rcases (Table.mem_update (UserPatch.stripe_customer _).keys).mp hv with ⟨v, _, hid, rfl⟩ | ⟨hv, _⟩
  · cases hst
    have hone := h.one v.id
    have hk : k ∈ (w.new_customer user).customers_of v.id := hk
    rw [World.customers_of_new, if_pos hid.symm] at hone hk
    have hnil : w.customers_of v.id = [] := by
      rw [List.length_append, List.length_singleton] at hone
      exact List.eq_nil_of_length_eq_zero (Nat.le_zero.mp (Nat.le_of_succ_le_succ hone))
    rw [hnil, List.nil_append, List.mem_singleton] at hk
    rw [hk]
    rfl
  · exact h.stored v hv customer hst k hk

theorem Effect.one_customer (h : Effect l w₀ w w') (hl : FirstCustomer w₀ l)
    (hw : w.OneCustomer) : w'.OneCustomer := by
  have hs := h.own_customers hw.sessions
  cases h with
  | customer hw₀ hsells hu hnone =>
    subst hw₀
    unfold FirstCustomer at hl
    rw [hsells] at hl
    exact hw.create hs hu hnone (hl hnone)
  | store_customer hw₀ hsells hu hnone =>
    subst hw₀
    exact hw.store hu hnone
  | @create _ _ _ _ _ _ _ _ old _ _ _ _ _ _ _ _ _ _ _ hdb _ =>
    obtain ⟨_, _, _, _, hu, _⟩ := Db.insert_subscription_ok hdb
    have hold : (w.demote old).db.users = w.db.users := by cases old <;> rfl
    exact hw.same hs (by cases old <;> rfl) (hu.trans hold)
  | record _ _ _ hdb _ =>
    obtain ⟨_, _, _, _, hu, _⟩ := Db.insert_payment_ok hdb
    exact hw.same hs rfl hu
  | open_session => exact hw.same hs rfl rfl
  | status => exact hw.same hs rfl rfl
  | period => exact hw.same hs rfl rfl
  | cancel => exact hw.same hs rfl rfl
  | past_due => exact hw.same hs rfl rfl
  | enqueue => exact hw.same hs rfl rfl
  | tick => exact hw.same hs rfl rfl
  | pay => exact hw.same hs rfl rfl
  | bill => exact hw.same hs rfl rfl
  | stop => exact hw.same hs rfl rfl

theorem Effects.one_customer (h : Effects l w₀ w) (hl : FirstCustomer w₀ l)
    (hw : w₀.OneCustomer) : w.OneCustomer := by
  induction h with
  | refl => exact hw
  | tail _ hstep ih => exact hstep.one_customer hl ih

end

/-- As long as Stripe is never asked for a second customer, every user has one
at most, and every session is opened for it. -/
theorem one_customer_each {user_repo : UserRepo} {w₀ w : World} {ls : List Label}
    (h0 : Initial w₀) (h1 : w₀.OneCustomer)
    (hrun : (billing user_repo).Run FirstCustomer w₀ ls w) : w.OneCustomer := by
  have hboth : Good w ∧ w.OneCustomer := by
    apply hrun.invariant (I := fun t => Good t ∧ t.OneCustomer) ⟨h0.good, h1⟩
    rintro t l ⟨hg, ho⟩ he hl
    have heff := billing_effects hg he
    exact ⟨heff.good hg, heff.one_customer hl ho⟩
  exact hboth.2

namespace Sample

/-- An account that has never bought anything. -/
def bob : User where
  email := "bob@example.com"
  username := "bob"
  password := none
  is_verified := true
  provider := .GOOGLE

def new_world : World where
  db := Db.start (Table.empty.push bob (by decide)) world.db.plans

theorem new_world_initial : Initial new_world := ⟨rfl, rfl, rfl, rfl⟩

theorem new_world_customers : new_world.OneCustomer where
  one _ := Nat.zero_le _
  stored user _ customer _ k hk := by
    have hnil : new_world.customers_of user.id = [] := rfl
    rw [hnil] at hk
    cases hk
  sessions c hc := by cases hc

def bob_subscribes : Label := .serve (.subscribe ⟨0, bob⟩ "pro") none

end Sample

open Sample in
theorem one_customer_each_sample :
    ((billing .user).exec new_world [bob_subscribes]).OneCustomer :=
  one_customer_each new_world_initial new_world_customers (.of_path (by decide))

open Sample in
/-- The service has the `User` for its repository: each try creates a customer
and then fails, and no id is ever stored. -/
theorem subscribe_again_creates_again : ∃ w,
    (billing .user).Run (fun _ _ => True) new_world [bob_subscribes, bob_subscribes] w ∧
    (w.customers_of 0).length = 2 ∧
    (w.db.users.byId 0).map (fun r => r.val.stripe_customer_id) = some none ∧
    ¬ w.OneCustomer := by
  refine ⟨(billing .user).exec new_world [bob_subscribes, bob_subscribes], .of_path (by decide),
    rfl, rfl, fun h => ?_⟩
  have hone := h.one 0
  revert hone
  decide

end saas
