-- The tables of the service: `models.py` of the auth, billing and admin
-- modules, and the values and errors that the code handles.
import SaasBackend.Table

open relational

namespace saas

/-! ## Values -/

/-- A `datetime` in UTC: microseconds since the epoch. -/
abbrev Time := Nat

abbrev UUID := Nat

/-- The id of a Stripe object. -/
abbrev StripeId := Nat

/-- The id in a token, `str(uuid4())`. -/
abbrev Jti := Nat

/-- Text that should be the text of a UUID: metadata values and token subjects. -/
inductive UuidText where
  | ofUuid (u : UUID)
  | malformed
deriving DecidableEq, Repr

/-- `datetime.fromtimestamp(ts, tz=timezone.utc)`. -/
def fromtimestamp (ts : Nat) : Time := ts * 1000000

/-- The whole seconds of a time, as a token stores them. -/
def timegm (t : Time) : Nat := t / 1000000

/-- What a request fails with: an `HTTPException`, or an exception that no
handler of the service catches. -/
inductive Err where
  | http (status_code : Nat) (detail : String)
  | multipleResultsFound
  | integrityError
  | staleDataError
  | invalidRequestError
  | dataError
  | stripeError
  | attributeError
  | typeError
  | valueError
  | indexError
  | unboundLocalError
  /-- A statement that the guard of the assistant refuses. -/
  | unsafeSQL (message : String)
deriving DecidableEq, Repr

/-- `UUID(text)`. -/
def UUID.parse : Option UuidText → Except Err UUID
  | none => .error .typeError
  | some .malformed => .error .valueError
  | some (.ofUuid u) => .ok u

/-- `Result.scalar_one_or_none()`. -/
def scalar_one_or_none {α : Type} : List α → Except Err (Option α)
  | [] => .ok none
  | [a] => .ok (some a)
  | _ => .error .multipleResultsFound

/-! ## Accounts -/

inductive Provider where
  | GOOGLE
  | GITHUB
  | LOCAL
deriving DecidableEq, Repr

structure User where
  email : String
  username : String
  /-- Null for a social login. -/
  password : Option String
  is_admin : Bool := false
  is_active : Bool := true
  is_verified : Bool := false
  stripe_customer_id : Option StripeId := none
  provider : Provider
deriving DecidableEq, Repr

inductive UserKey where
  | email (s : String)
  | username (s : String)
deriving DecidableEq, Repr

instance : Keyed User UserKey where
  keys u := [.email u.email, .username u.username]

/-- The values fit their columns, `String(255)`. A hash always does. -/
def User.FitsColumns (u : User) : Prop := u.email.length ≤ 255 ∧ u.username.length ≤ 255

instance : DecidablePred User.FitsColumns := fun _ => inferInstanceAs (Decidable (_ ∧ _))

structure LoginCode where
  user_id : UUID
  code_hash : String
  created_at : Time
  expires_at : Time
deriving DecidableEq, Repr

instance : Keyed LoginCode Empty where
  keys _ := []

structure RefreshToken where
  user_id : UUID
  jti : Jti
  token_hash : String
  expires_at : Time
  revoked : Bool := false
  revoked_at : Option Time := none
  replaced_by_jti : Option Jti := none
deriving DecidableEq, Repr

instance : Keyed RefreshToken Jti where
  keys t := [t.jti]

/-- The `before` and `after` of an entry hold one flag of the target user. -/
structure AdminAuditLog where
  admin_id : UUID
  target_type : String
  target_id : UUID
  action : String
  before : Option (String × Bool)
  after : Option (String × Bool)
deriving DecidableEq, Repr

instance : Keyed AdminAuditLog Empty where
  keys _ := []

/-! ## Billing -/

inductive SubscriptionStatus where
  | ACTIVE
  | TRIALING
  | PENDING
  | CANCELED
  | PAST_DUE
deriving DecidableEq, Repr

inductive BillingPeriod where
  | MONTHLY
  | YEARLY
deriving DecidableEq, Repr

inductive PaymentStatus where
  | SUCCEEDED
  | PENDING
  | FAILED
deriving DecidableEq, Repr

inductive PaymentProvider where
  | MANUAL
  | STRIPE
  | PAYMOB
deriving DecidableEq, Repr

inductive PlanTier where
  | FREE
  | PRO
  | VIP
deriving DecidableEq, Repr

/-- The integer of an `IntEnum` member. -/
def PlanTier.value : PlanTier → Nat
  | FREE => 0
  | PRO => 1
  | VIP => 2

structure Plan where
  name : String
  code : String
  price_cents : Int
  currency : String := "USD"
  billing_period : BillingPeriod
  is_active : Bool := true
  stripe_product_id : Option StripeId := none
  stripe_price_id : Option StripeId := none
  tier : PlanTier := .FREE
deriving DecidableEq, Repr

instance : Keyed Plan String where
  keys p := [p.code]

/-- The values fit their columns: `String(100)`, `String(10)`, `Integer()`. -/
def Plan.FitsColumns (p : Plan) : Prop :=
  p.name.length ≤ 100 ∧ p.code.length ≤ 100 ∧ p.currency.length ≤ 10 ∧
    -2147483648 ≤ p.price_cents ∧ p.price_cents ≤ 2147483647

instance : DecidablePred Plan.FitsColumns := fun _ => inferInstanceAs (Decidable (_ ∧ _))

structure Subscription where
  user_id : UUID
  plan_id : UUID
  status : SubscriptionStatus
  provider : PaymentProvider
  provider_subscription_id : Option StripeId
  provider_customer_id : Option StripeId
  started_at : Time
  current_period_end : Option Time
  canceled_at : Option Time := none
  cancel_at_period_end : Bool := false
deriving DecidableEq, Repr

instance : Keyed Subscription StripeId where
  keys s := s.provider_subscription_id.toList

structure Payment where
  user_id : UUID
  subscription_id : Option UUID
  provider : PaymentProvider
  provider_invoice_id : StripeId
  amount_cents : Int
  currency : String := "USD"
  status : PaymentStatus
deriving DecidableEq, Repr

/-- `uq_provider_invoice_id`. -/
instance : Keyed Payment (PaymentProvider × StripeId) where
  keys p := [(p.provider, p.provider_invoice_id)]

/-- The values fit their columns: `Integer()`, `String(10)`. -/
def Payment.FitsColumns (p : Payment) : Prop :=
  p.currency.length ≤ 10 ∧ -2147483648 ≤ p.amount_cents ∧ p.amount_cents ≤ 2147483647

instance : DecidablePred Payment.FitsColumns := fun _ => inferInstanceAs (Decidable (_ ∧ _))

/-! ## Updates -/

/-- The columns of a subscription that an `UPDATE` of the service writes: never
the owner, the plan or the provider's id. -/
structure SubscriptionPatch where
  apply : Subscription → Subscription
  user_id : ∀ s, (apply s).user_id = s.user_id
  plan_id : ∀ s, (apply s).plan_id = s.plan_id
  provider : ∀ s, (apply s).provider = s.provider
  provider_subscription_id : ∀ s, (apply s).provider_subscription_id = s.provider_subscription_id

theorem SubscriptionPatch.keys (p : SubscriptionPatch) (s : Subscription) :
    Keyed.keys (p.apply s) = Keyed.keys s := by
  simp only [Keyed.keys, p.provider_subscription_id]

/-- What a rotation writes into the token it replaces. -/
def RefreshToken.replaced (by_jti : Jti) (now : Time) (t : RefreshToken) : RefreshToken :=
  { t with replaced_by_jti := some by_jti, revoked := true, revoked_at := some now }

/-! ## The database -/

/-- The tables, with the foreign keys between them. -/
structure Db where
  users : Table User := .empty
  plans : Table Plan := .empty
  subscriptions : Table Subscription := .empty
  payments : Table Payment := .empty
  refresh_tokens : Table RefreshToken := .empty
  login_codes : Table LoginCode := .empty
  admin_audit_logs : Table AdminAuditLog := .empty
  fk_subscription_user : subscriptions.RefersTo (fun s => some s.user_id) users
  fk_subscription_plan : subscriptions.RefersTo (fun s => some s.plan_id) plans
  fk_payment_user : payments.RefersTo (fun p => some p.user_id) users
  fk_payment_subscription : payments.RefersTo Payment.subscription_id subscriptions
  fk_token_user : refresh_tokens.RefersTo (fun t => some t.user_id) users
  fk_code_user : login_codes.RefersTo (fun c => some c.user_id) users
  fk_audit_admin : admin_audit_logs.RefersTo (fun l => some l.admin_id) users

namespace Db

/-- A database with accounts and plans, and nothing else. -/
def start (users : Table User) (plans : Table Plan) : Db where
  users := users
  plans := plans
  fk_subscription_user := Table.refersTo_empty _ _
  fk_subscription_plan := Table.refersTo_empty _ _
  fk_payment_user := Table.refersTo_empty _ _
  fk_payment_subscription := Table.refersTo_empty _ _
  fk_token_user := Table.refersTo_empty _ _
  fk_code_user := Table.refersTo_empty _ _
  fk_audit_admin := Table.refersTo_empty _ _

def add_user (db : Db) (u : User) (h : db.users.Fits u) : Db :=
  { db with
    users := db.users.push u h
    fk_subscription_user := db.fk_subscription_user.push_target u h
    fk_payment_user := db.fk_payment_user.push_target u h
    fk_token_user := db.fk_token_user.push_target u h
    fk_code_user := db.fk_code_user.push_target u h
    fk_audit_admin := db.fk_audit_admin.push_target u h }

/-- `INSERT INTO users`. -/
def insert_user (db : Db) (u : User) : Except Err (Row User × Db) :=
  if ¬ u.FitsColumns then .error .dataError
  else if h : db.users.Fits u then .ok (db.users.newRow u, db.add_user u h)
  else .error .integrityError

/-- An account that is stored has an email and a username of its own. -/
theorem insert_user_ok {db db' : Db} {u : User} {r : Row User}
    (h : db.insert_user u = .ok (r, db')) :
    u.FitsColumns ∧ ∃ hf : db.users.Fits u, r = db.users.newRow u ∧ db' = db.add_user u hf := by
  unfold insert_user at h
  split at h
  · cases h
  · rename_i hc
    split at h
    · rename_i hf
      cases h
      exact ⟨not_not.mp hc, hf, rfl, rfl⟩
    · cases h

/-- `UPDATE users`, of columns other than the email and the username. -/
def update_user (db : Db) (i : UUID) (f : User → User)
    (hf : ∀ u, Keyed.keys (f u) = Keyed.keys u) : Db :=
  { db with
    users := db.users.update i f hf
    fk_subscription_user := db.fk_subscription_user.update_target i f hf
    fk_payment_user := db.fk_payment_user.update_target i f hf
    fk_token_user := db.fk_token_user.update_target i f hf
    fk_code_user := db.fk_code_user.update_target i f hf
    fk_audit_admin := db.fk_audit_admin.update_target i f hf }

def add_plan (db : Db) (p : Plan) (h : db.plans.Fits p) : Db :=
  { db with
    plans := db.plans.push p h
    fk_subscription_plan := db.fk_subscription_plan.push_target p h }

/-- `INSERT INTO plans`. -/
def insert_plan (db : Db) (p : Plan) : Except Err (Row Plan × Db) :=
  if ¬ p.FitsColumns then .error .dataError
  else if h : db.plans.Fits p then .ok (db.plans.newRow p, db.add_plan p h)
  else .error .integrityError

/-- `UPDATE plans`, of columns other than the code. -/
def update_plan (db : Db) (i : UUID) (f : Plan → Plan)
    (hf : ∀ p, Keyed.keys (f p) = Keyed.keys p) : Db :=
  { db with
    plans := db.plans.update i f hf
    fk_subscription_plan := db.fk_subscription_plan.update_target i f hf }

/-- `INSERT INTO subscriptions`. -/
def insert_subscription (db : Db) (s : Subscription) : Except Err (Row Subscription × Db) :=
  if h : db.subscriptions.Fits s ∧ db.users.Has s.user_id ∧ db.plans.Has s.plan_id then
    .ok (db.subscriptions.newRow s, { db with
      subscriptions := db.subscriptions.push s h.1
      fk_subscription_user := db.fk_subscription_user.push h.1
        (fun _ hi => Option.some.inj hi ▸ h.2.1)
      fk_subscription_plan := db.fk_subscription_plan.push h.1
        (fun _ hi => Option.some.inj hi ▸ h.2.2)
      fk_payment_subscription := db.fk_payment_subscription.push_target s h.1 })
  else .error .integrityError

/-- An insert that does well: what it stored, and what it left alone. -/
theorem insert_subscription_ok {db db' : Db} {s : Subscription} {r : Row Subscription}
    (h : db.insert_subscription s = .ok (r, db')) :
    r = db.subscriptions.newRow s ∧ db.subscriptions.Fits s ∧
      db'.subscriptions.rows = db.subscriptions.rows ++ [r] ∧
      db'.subscriptions.byId r.id = some r ∧
      db'.users = db.users ∧ db'.plans = db.plans ∧ db'.payments = db.payments := by
  unfold insert_subscription at h
  split at h
  · rename_i hf
    cases h
    exact ⟨rfl, hf.1, rfl, Table.byId_push_self hf.1, rfl, rfl, rfl⟩
  · cases h

theorem insert_subscription_of_fits {db : Db} {s : Subscription} (hf : db.subscriptions.Fits s)
    (hu : db.users.Has s.user_id) (hp : db.plans.Has s.plan_id) :
    ∃ r db', db.insert_subscription s = .ok (r, db') := by
  unfold insert_subscription
  rw [dif_pos ⟨hf, hu, hp⟩]
  exact ⟨_, _, rfl⟩

/-- `UPDATE subscriptions`. -/
def update_subscription (db : Db) (i : UUID) (p : SubscriptionPatch) : Db :=
  { db with
    subscriptions := db.subscriptions.update i p.apply p.keys
    fk_subscription_user := db.fk_subscription_user.update i p.apply p.keys
      (fun s => congrArg some (p.user_id s))
    fk_subscription_plan := db.fk_subscription_plan.update i p.apply p.keys
      (fun s => congrArg some (p.plan_id s))
    fk_payment_subscription := db.fk_payment_subscription.update_target i p.apply p.keys }

/-- A payment of an invoice that has none yet, of a user and a subscription that are there. -/
def FitsPayment (db : Db) (p : Payment) : Prop :=
  db.payments.Fits p ∧ db.users.Has p.user_id ∧ ∀ i ∈ p.subscription_id, db.subscriptions.Has i

instance (db : Db) (p : Payment) : Decidable (db.FitsPayment p) :=
  inferInstanceAs (Decidable (_ ∧ _))

def add_payment (db : Db) (p : Payment) (h : db.FitsPayment p) : Db :=
  { db with
    payments := db.payments.push p h.1
    fk_payment_user := db.fk_payment_user.push h.1 (fun _ hi => Option.some.inj hi ▸ h.2.1)
    fk_payment_subscription := db.fk_payment_subscription.push h.1 h.2.2 }

/-- `INSERT INTO payments`. -/
def insert_payment (db : Db) (p : Payment) : Except Err (Row Payment × Db) :=
  if ¬ p.FitsColumns then .error .dataError
  else if h : db.FitsPayment p then .ok (db.payments.newRow p, db.add_payment p h)
  else .error .integrityError

theorem insert_payment_of_fits {db : Db} {p : Payment} (hc : p.FitsColumns)
    (hf : db.FitsPayment p) :
    db.insert_payment p = .ok (db.payments.newRow p, db.add_payment p hf) := by
  rw [insert_payment, if_neg (not_not_intro hc), dif_pos hf]

theorem insert_payment_eq_ok {db db' : Db} {p : Payment} {r : Row Payment}
    (h : db.insert_payment p = .ok (r, db')) :
    p.FitsColumns ∧ ∃ hf : db.FitsPayment p,
      r = db.payments.newRow p ∧ db' = db.add_payment p hf := by
  unfold insert_payment at h
  split at h
  · cases h
  · rename_i hc
    split at h
    · rename_i hf
      cases h
      exact ⟨not_not.mp hc, hf, rfl, rfl⟩
    · cases h

/-- `INSERT INTO refresh_tokens`. -/
def insert_token (db : Db) (t : RefreshToken) : Except Err (Row RefreshToken × Db) :=
  if h : db.refresh_tokens.Fits t ∧ db.users.Has t.user_id then
    .ok (db.refresh_tokens.newRow t, { db with
      refresh_tokens := db.refresh_tokens.push t h.1
      fk_token_user := db.fk_token_user.push h.1 (fun _ hi => Option.some.inj hi ▸ h.2) })
  else .error .integrityError

/-- The `UPDATE refresh_tokens` of a rotation. -/
def revoke_token (db : Db) (i : Nat) (by_jti : Jti) (now : Time) : Db :=
  { db with
    refresh_tokens := db.refresh_tokens.update i (RefreshToken.replaced by_jti now) (fun _ => rfl)
    fk_token_user := db.fk_token_user.update i (RefreshToken.replaced by_jti now) (fun _ => rfl)
      (fun _ => rfl) }

/-- `DELETE FROM refresh_tokens`. -/
def delete_tokens (db : Db) (p : Row RefreshToken → Bool) : Db :=
  { db with
    refresh_tokens := db.refresh_tokens.delete p
    fk_token_user := db.fk_token_user.delete p }

/-- `INSERT INTO login_codes`. -/
def insert_code (db : Db) (c : LoginCode) : Except Err (Row LoginCode × Db) :=
  if h : db.login_codes.Fits c ∧ db.users.Has c.user_id then
    .ok (db.login_codes.newRow c, { db with
      login_codes := db.login_codes.push c h.1
      fk_code_user := db.fk_code_user.push h.1 (fun _ hi => Option.some.inj hi ▸ h.2) })
  else .error .integrityError

/-- `DELETE FROM login_codes`. -/
def delete_codes (db : Db) (p : Row LoginCode → Bool) : Db :=
  { db with
    login_codes := db.login_codes.delete p
    fk_code_user := db.fk_code_user.delete p }

/-- `INSERT INTO admin_audit_logs`. -/
def insert_audit (db : Db) (l : AdminAuditLog) : Except Err (Row AdminAuditLog × Db) :=
  if h : db.admin_audit_logs.Fits l ∧ db.users.Has l.admin_id then
    .ok (db.admin_audit_logs.newRow l, { db with
      admin_audit_logs := db.admin_audit_logs.push l h.1
      fk_audit_admin := db.fk_audit_admin.push h.1 (fun _ hi => Option.some.inj hi ▸ h.2) })
  else .error .integrityError

end Db

end saas
