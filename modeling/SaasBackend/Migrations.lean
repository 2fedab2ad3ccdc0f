-- The migrations of the repository, one after another on a database that has rows in
-- it, and each of them taken back right after it.
import SaasBackend.Ddl

namespace saas

open ddl (ColumnType Constraint Contents Data Rule Schema Statement alter_all)

/-! ## The operations of a migration -/

namespace op

/-- A column as a migration writes it, with the labels of its enum type, if it has one. -/
structure Column where
  name : String
  type : ColumnType
  nullable : Bool
  labels : List String := []
  server_default : Option String := none

def column (name : String) (type : ColumnType) (nullable : Bool) : Column :=
  { name := name, type := type, nullable := nullable }

def enum_column (name : String) (labels : List String) (type : String) : Column :=
  { name := name, type := .enum type, nullable := false, labels := labels }

def Column.ddl (c : Column) : ddl.Column :=
  { name := c.name, type := c.type, nullable := c.nullable
    default := c.server_default.map .label }

/-- The enum type is created before the table, unless it is there already: then it is
an error. -/
def Column.types (c : Column) : List Statement :=
  match c.type with
  | .enum name => [.create_type name c.labels false]
  | _ => []

/-- The name that PostgreSQL gives a constraint without one. -/
def constraint_name (table : String) : Rule → String
  | .primary_key _ => table ++ "_pkey"
  | .unique columns => table ++ "_" ++ "_".intercalate columns ++ "_key"
  | .foreign_key columns _ _ _ => table ++ "_" ++ "_".intercalate columns ++ "_fkey"

def constrain (name : Option String) (table : String) (rule : Rule) : Constraint :=
  ⟨name.getD (constraint_name table rule), rule⟩

def create_table (name : String) (columns : List Column) (rules : List Rule)
    (named : List Constraint := []) : List Statement :=
  columns.flatMap Column.types ++ [.create_table
    { name := name, columns := columns.map Column.ddl
      constraints := rules.map (constrain none name) ++ named }]

/-- The types of the columns stay. -/
def drop_table (name : String) : List Statement := [.drop_table name]

/-- The enum type of the column has to be there. -/
def add_column (table : String) (c : Column) : List Statement := [.add_column table c.ddl]

def drop_column (table column : String) : List Statement := [.drop_column table column]

def alter_column (table column : String) (nullable : Bool) : List Statement :=
  [.alter_nullable table column nullable]

def create_index (name table : String) (columns : List String) : List Statement :=
  [.create_index table ⟨name, columns⟩]

def drop_index (name table : String) : List Statement := [.drop_index table name]

def create_unique_constraint (name : Option String) (table : String) (columns : List String) :
    List Statement :=
  [.add_constraint table (constrain name table (.unique columns))]

/-- A constraint can be dropped by its name only. -/
def drop_constraint (name : Option String) (table : String) : List Statement :=
  match name with
  | some name => [.drop_constraint table name]
  | none => [.unwritten]

end op

structure Migration where
  upgrade : List Statement
  downgrade : List Statement

namespace Migration

open op

def initial : Migration where
  upgrade :=
    create_table "users"
      [column "id" .uuid false,
        column "email" (.varchar (some 255)) false,
        column "username" (.varchar (some 255)) false,
        column "password" (.varchar (some 255)) true,
        column "is_active" .boolean true,
        column "is_verified" .boolean true,
        enum_column "provider" ["GOOGLE", "GITHUB", "LOCAL"] "provider",
        column "created_at" .timestamptz true,
        column "updated_at" .timestamptz true]
      [.primary_key ["id"], .unique ["email"], .unique ["username"]] ++
    create_table "profiles"
      [column "id" .uuid false,
        column "user_id" .uuid false,
        column "first_name" (.varchar (some 255)) true,
        column "last_name" (.varchar (some 255)) true,
        column "profile_img" (.varchar (some 255)) true,
        column "created_at" .timestamptz true,
        column "updated_at" .timestamptz true]
      [.foreign_key ["user_id"] "users" ["id"] .no_action, .primary_key ["id"],
        .unique ["user_id"]]
  downgrade := drop_table "profiles" ++ drop_table "users"

def create_login_codes_table : Migration where
  upgrade :=
    create_table "login_codes"
      [column "id" .uuid false,
        column "user_id" .uuid true,
        column "code_hash" (.varchar none) false,
        column "created_at" .timestamptz true,
        column "expires_at" .timestamptz true]
      [.foreign_key ["user_id"] "users" ["id"] .cascade, .primary_key ["id"]]
  downgrade := drop_table "login_codes"

def create_refresh_tokens_table : Migration where
  upgrade :=
    create_table "refresh_tokens"
      [column "id" .uuid false,
        column "user_id" .uuid false,
        column "jti" (.varchar none) false,
        column "token_hash" (.varchar none) false,
        column "created_at" .timestamptz true,
        column "expires_at" .timestamptz false,
        column "revoked" .boolean true,
        column "revoked_at" .timestamptz true,
        column "replaced_by_jti" (.varchar none) true]
      [.foreign_key ["user_id"] "users" ["id"] .no_action, .primary_key ["id"], .unique ["jti"]]
  downgrade := drop_table "refresh_tokens"

def add_plans_table_and_subscriptions_table : Migration where
  upgrade := []
  downgrade := []

def billing_tables : Migration where
  upgrade :=
    create_table "plans"
      [column "id" .uuid false,
        column "name" (.varchar (some 100)) false,
        column "code" (.varchar (some 100)) false,
        column "price_cents" .integer false,
        column "currency" (.varchar (some 10)) false,
        enum_column "billing_period" ["MONTHLY", "YEARLY"] "billingperiod",
        column "is_active" .boolean false,
        column "created_at" .timestamptz false,
        column "updated_at" .timestamptz false]
      [.primary_key ["id"], .unique ["code"]] ++
    create_table "subscriptions"
      [column "id" .uuid false,
        column "user_id" .uuid false,
        column "plan_id" .uuid false,
        enum_column "status" ["ACTIVE", "TRAILAING", "CANCELED", "PAST_DUE", "EXPIRED"]
          "subscriptionstatus",
        column "started_at" .timestamptz false,
        column "current_period_end" .timestamptz true,
        column "cancel_at_period_end" .boolean false]
      [.foreign_key ["plan_id"] "plans" ["id"] .cascade,
        .foreign_key ["user_id"] "users" ["id"] .cascade, .primary_key ["id"]] ++
    create_index "ix_subscriptions_plan_id" "subscriptions" ["plan_id"] ++
    create_index "ix_subscriptions_user_id" "subscriptions" ["user_id"] ++
    alter_column "login_codes" "user_id" false ++
    alter_column "login_codes" "created_at" false ++
    alter_column "login_codes" "expires_at" false ++
    alter_column "profiles" "created_at" false ++
    alter_column "profiles" "updated_at" false ++
    alter_column "refresh_tokens" "created_at" false ++
    alter_column "refresh_tokens" "revoked" false ++
    alter_column "users" "is_active" false ++
    alter_column "users" "is_verified" false ++
    alter_column "users" "created_at" false ++
    alter_column "users" "updated_at" false
  downgrade :=
    alter_column "users" "updated_at" true ++
    alter_column "users" "created_at" true ++
    alter_column "users" "is_verified" true ++
    alter_column "users" "is_active" true ++
    alter_column "refresh_tokens" "revoked" true ++
    alter_column "refresh_tokens" "created_at" true ++
    alter_column "profiles" "updated_at" true ++
    alter_column "profiles" "created_at" true ++
    alter_column "login_codes" "expires_at" true ++
    alter_column "login_codes" "created_at" true ++
    alter_column "login_codes" "user_id" true ++
    drop_index "ix_subscriptions_user_id" "subscriptions" ++
    drop_index "ix_subscriptions_plan_id" "subscriptions" ++
    drop_table "subscriptions" ++
    drop_table "plans"

def added_plans_and_subscription_table : Migration where
  upgrade := add_column "users" (column "is_admin" .boolean false)
  downgrade := drop_column "users" "is_admin"

def add_stripe_ids_to_plan : Migration where
  upgrade :=
    add_column "plans" (column "stripe_product_id" (.varchar none) true) ++
    add_column "plans" (column "stripe_price_id" (.varchar none) true)
  downgrade :=
    drop_column "plans" "stripe_price_id" ++
    drop_column "plans" "stripe_product_id"

def add_stripe_ids_to_user_model : Migration where
  upgrade := add_column "users" (column "stripe_customer_id" (.varchar none) true)
  downgrade := drop_column "users" "stripe_customer_id"

def add_provider_ids_to_subscription_table : Migration where
  upgrade :=
    add_column "subscriptions" (column "provider" (.varchar none) false) ++
    add_column "subscriptions" (column "provider_subscription_id" (.varchar none) true) ++
    add_column "subscriptions" (column "provider_customer_id" (.varchar none) true) ++
    create_unique_constraint none "subscriptions" ["provider_subscription_id"]
  downgrade :=
    drop_constraint none "subscriptions" ++
    drop_column "subscriptions" "provider_customer_id" ++
    drop_column "subscriptions" "provider_subscription_id" ++
    drop_column "subscriptions" "provider"

def add_canceled_at_to_subscripe : Migration where
  upgrade := add_column "subscriptions" (column "canceled_at" .timestamptz true)
  downgrade := drop_column "subscriptions" "canceled_at"

def add_payments_table : Migration where
  upgrade :=
    create_table "payments"
      [column "id" .uuid false,
        column "user_id" .uuid false,
        column "subscription_id" .uuid true,
        enum_column "provider" ["MANUAL", "STRIPE", "PAYMOB"] "paymentprovider",
        column "provider_payment_id" (.varchar none) false,
        column "amount_cents" .integer false,
        column "currency" (.varchar (some 10)) false,
        enum_column "status" ["SUCCEEDED", "PENDING", "FAILED"] "paymentstatus",
        column "created_at" .timestamptz false]
      [.foreign_key ["subscription_id"] "subscriptions" ["id"] .set_null,
        .foreign_key ["user_id"] "users" ["id"] .cascade, .primary_key ["id"]]
      [⟨"uq_provider_payment_id", .unique ["provider", "provider_payment_id"]⟩] ++
    create_index "ix_payments_provider_payment_id" "payments" ["provider_payment_id"] ++
    create_index "ix_payments_user_id" "payments" ["user_id"] ++
    [.alter_type "subscriptions" "provider" (.enum "paymentprovider")]
  downgrade :=
    [.alter_type "subscriptions" "provider" (.varchar none)] ++
    drop_index "ix_payments_user_id" "payments" ++
    drop_index "ix_payments_provider_payment_id" "payments" ++
    drop_table "payments"

def add_pending_to_sub_status : Migration where
  upgrade := [.add_value "subscriptionstatus" "pending"]
  downgrade := []

/-- The function inside of `upgrade` is never called. -/
def add_plan_tier_to_plans : Migration where
  upgrade := []
  downgrade := drop_column "plans" "tier" ++ [.drop_type "plantier" false]

def actually_add_plan_tier_column : Migration where
  upgrade :=
    [.create_type "plantier" ["FREE", "PRO", "VIP"] true] ++
    add_column "plans"
      { enum_column "tier" ["FREE", "PRO", "VIP"] "plantier" with server_default := some "FREE" }
  downgrade := drop_column "plans" "tier" ++ [.drop_type "plantier" true]

def update_payments_table : Migration where
  upgrade :=
    add_column "payments" (column "provider_invoice_id" (.varchar none) false) ++
    add_column "payments" (column "provider_charge_id" (.varchar none) true) ++
    drop_index "ix_payments_provider_payment_id" "payments" ++
    drop_constraint (some "uq_provider_payment_id") "payments" ++
    create_index "ix_payments_provider_charge_id" "payments" ["provider_charge_id"] ++
    create_index "ix_payments_provider_invoice_id" "payments" ["provider_invoice_id"] ++
    create_unique_constraint (some "uq_provider_charge_id") "payments"
      ["provider", "provider_charge_id"] ++
    create_unique_constraint (some "uq_provider_invoice_id") "payments"
      ["provider", "provider_invoice_id"] ++
    drop_column "payments" "provider_payment_id"
  downgrade :=
    add_column "payments" (column "provider_payment_id" (.varchar none) false) ++
    drop_constraint (some "uq_provider_invoice_id") "payments" ++
    drop_constraint (some "uq_provider_charge_id") "payments" ++
    drop_index "ix_payments_provider_invoice_id" "payments" ++
    drop_index "ix_payments_provider_charge_id" "payments" ++
    create_unique_constraint (some "uq_provider_payment_id") "payments"
      ["provider", "provider_payment_id"] ++
    create_index "ix_payments_provider_payment_id" "payments" ["provider_payment_id"] ++
    drop_column "payments" "provider_charge_id" ++
    drop_column "payments" "provider_invoice_id"

def update_payments_table_remove_charge_id : Migration where
  upgrade :=
    drop_index "ix_payments_provider_charge_id" "payments" ++
    drop_constraint (some "uq_provider_charge_id") "payments" ++
    drop_column "payments" "provider_charge_id"
  downgrade :=
    add_column "payments" (column "provider_charge_id" (.varchar none) true) ++
    create_unique_constraint (some "uq_provider_charge_id") "payments"
      ["provider", "provider_charge_id"] ++
    create_index "ix_payments_provider_charge_id" "payments" ["provider_charge_id"]

def remove_profile_img_from_profile_img : Migration where
  upgrade := drop_column "profiles" "profile_img"
  downgrade := add_column "profiles" (column "profile_img" (.varchar (some 255)) true)

def remove_profile_table : Migration where
  upgrade := drop_table "profiles"
  downgrade :=
    create_table "profiles"
      [column "id" .uuid false,
        column "user_id" .uuid false,
        column "first_name" (.varchar (some 255)) true,
        column "last_name" (.varchar (some 255)) true,
        column "created_at" .timestamptz false,
        column "updated_at" .timestamptz false]
      []
      [⟨"profiles_user_id_fkey", .foreign_key ["user_id"] "users" ["id"] .no_action⟩,
        ⟨"profiles_pkey", .primary_key ["id"]⟩,
        ⟨"profiles_user_id_key", .unique ["user_id"]⟩]

def add_admin_audit_logs : Migration where
  upgrade :=
    create_table "admin_audit_logs"
      [column "id" .uuid false,
        column "admin_id" .uuid false,
        column "target_type" (.varchar (some 50)) false,
        column "target_id" .uuid false,
        column "action" (.varchar (some 50)) false,
        column "before" .jsonb true,
        column "after" .jsonb true,
        column "created_at" .timestamptz false]
      [.foreign_key ["admin_id"] "users" ["id"] .cascade, .primary_key ["id"]] ++
    create_index "ix_admin_audit_admin_action" "admin_audit_logs" ["admin_id", "action"] ++
    create_index "ix_admin_audit_logs_action" "admin_audit_logs" ["action"] ++
    create_index "ix_admin_audit_logs_admin_id" "admin_audit_logs" ["admin_id"] ++
    create_index "ix_admin_audit_logs_target_id" "admin_audit_logs" ["target_id"] ++
    create_index "ix_admin_audit_logs_target_type" "admin_audit_logs" ["target_type"] ++
    create_index "ix_admin_audit_target" "admin_audit_logs" ["target_type", "target_id"]
  downgrade :=
    drop_index "ix_admin_audit_target" "admin_audit_logs" ++
    drop_index "ix_admin_audit_logs_target_type" "admin_audit_logs" ++
    drop_index "ix_admin_audit_logs_target_id" "admin_audit_logs" ++
    drop_index "ix_admin_audit_logs_admin_id" "admin_audit_logs" ++
    drop_index "ix_admin_audit_logs_action" "admin_audit_logs" ++
    drop_index "ix_admin_audit_admin_action" "admin_audit_logs" ++
    drop_table "admin_audit_logs"

end Migration

/-! ## The chain -/

inductive Revision where
  | initial
  | create_login_codes_table
  | create_refresh_tokens_table
  | add_plans_table_and_subscriptions_table
  | billing_tables
  | added_plans_and_subscription_table
  | add_stripe_ids_to_plan
  | add_stripe_ids_to_user_model
  | add_provider_ids_to_subscription_table
  | add_canceled_at_to_subscripe
  | add_payments_table
  | add_pending_to_sub_status
  | add_plan_tier_to_plans
  | actually_add_plan_tier_column
  | update_payments_table
  | update_payments_table_remove_charge_id
  | remove_profile_img_from_profile_img
  | remove_profile_table
  | add_admin_audit_logs
deriving DecidableEq, Repr

namespace Revision

def down_revision : Revision → Option Revision
  | initial => none
  | create_login_codes_table => some initial
  | create_refresh_tokens_table => some create_login_codes_table
  | add_plans_table_and_subscriptions_table => some create_refresh_tokens_table
  | billing_tables => some add_plans_table_and_subscriptions_table
  | added_plans_and_subscription_table => some billing_tables
  | add_stripe_ids_to_plan => some added_plans_and_subscription_table
  | add_stripe_ids_to_user_model => some add_stripe_ids_to_plan
  | add_provider_ids_to_subscription_table => some add_stripe_ids_to_user_model
  | add_canceled_at_to_subscripe => some add_provider_ids_to_subscription_table
  | add_payments_table => some add_canceled_at_to_subscripe
  | add_pending_to_sub_status => some add_payments_table
  | add_plan_tier_to_plans => some add_pending_to_sub_status
  | actually_add_plan_tier_column => some add_plan_tier_to_plans
  | update_payments_table => some actually_add_plan_tier_column
  | update_payments_table_remove_charge_id => some update_payments_table
  | remove_profile_img_from_profile_img => some update_payments_table_remove_charge_id
  | remove_profile_table => some remove_profile_img_from_profile_img
  | add_admin_audit_logs => some remove_profile_table

def migration : Revision → Migration
  | initial => .initial
  | create_login_codes_table => .create_login_codes_table
  | create_refresh_tokens_table => .create_refresh_tokens_table
  | add_plans_table_and_subscriptions_table => .add_plans_table_and_subscriptions_table
  | billing_tables => .billing_tables
  | added_plans_and_subscription_table => .added_plans_and_subscription_table
  | add_stripe_ids_to_plan => .add_stripe_ids_to_plan
  | add_stripe_ids_to_user_model => .add_stripe_ids_to_user_model
  | add_provider_ids_to_subscription_table => .add_provider_ids_to_subscription_table
  | add_canceled_at_to_subscripe => .add_canceled_at_to_subscripe
  | add_payments_table => .add_payments_table
  | add_pending_to_sub_status => .add_pending_to_sub_status
  | add_plan_tier_to_plans => .add_plan_tier_to_plans
  | actually_add_plan_tier_column => .actually_add_plan_tier_column
  | update_payments_table => .update_payments_table
  | update_payments_table_remove_charge_id => .update_payments_table_remove_charge_id
  | remove_profile_img_from_profile_img => .remove_profile_img_from_profile_img
  | remove_profile_table => .remove_profile_table
  | add_admin_audit_logs => .add_admin_audit_logs

/-- The revisions from the first one on. -/
def chain : List Revision :=
  [initial, create_login_codes_table, create_refresh_tokens_table,
    add_plans_table_and_subscriptions_table, billing_tables, added_plans_and_subscription_table,
    add_stripe_ids_to_plan, add_stripe_ids_to_user_model,
    add_provider_ids_to_subscription_table, add_canceled_at_to_subscripe, add_payments_table,
    add_pending_to_sub_status, add_plan_tier_to_plans, actually_add_plan_tier_column,
    update_payments_table, update_payments_table_remove_charge_id,
    remove_profile_img_from_profile_img, remove_profile_table, add_admin_audit_logs]

/-- The schema on which a revision is applied: what the revisions before it make of an
empty database. -/
def before (r : Revision) : Schema :=
  (alter_all {} ((chain.takeWhile (· ≠ r)).flatMap (·.migration.upgrade))).getD {}

/-! ## What is taken back -/

/-- Whether the downgrade gives back the schema. Four revisions leave an enum type or a
label of one behind, one drops a constraint without a name, and one a column that is not
there. -/
def restores : Revision → Bool
  | initial => false
  | billing_tables => false
  | add_provider_ids_to_subscription_table => false
  | add_payments_table => false
  | add_pending_to_sub_status => false
  | add_plan_tier_to_plans => false
  | _ => true

/-- A table that has to be empty: it gets a column that must have a value, or it is
dropped. -/
def needs_empty : Revision → Option String
  | added_plans_and_subscription_table => some "users"
  | update_payments_table => some "payments"
  | remove_profile_table => some "profiles"
  | _ => none

def drops : Revision → Option String
  | remove_profile_table => some "profiles"
  | _ => none

/-- What the migrations do to the schema, from `S` on. -/
def checked : Schema → List Revision → Bool
  | _, [] => true
  | S, r :: rs =>
    let ⟨upgrade, downgrade⟩ := r.migration
    match alter_all S upgrade with
    | none => false
    | some S' => ddl.gives_back S upgrade downgrade = r.restores &&
      (!r.restores || ddl.leaves S S' (upgrade ++ downgrade)) &&
      (S.tables.all fun t => S'.has_table t.name || r.drops = some t.name) &&
      r.drops.all (fun name => S.has_table name && !S'.has_table name) && checked S' rs

theorem chain_checked : checked {} chain = true := by
  decide +kernel

theorem mem_chain (r : Revision) : r ∈ chain := by
  cases r <;> decide

/-- The chain is that of the down revisions. -/
theorem chain_linked : chain.map down_revision = none :: chain.dropLast.map some := by
  decide

/-- What a revision does to the schema on which it is applied. -/
structure Applied (r : Revision) (S S' : Schema) : Prop where
  upgrade : alter_all S r.migration.upgrade = some S'
  gives_back : ddl.gives_back S r.migration.upgrade r.migration.downgrade = r.restores
  leaves : r.restores = true →
    ddl.leaves S S' (r.migration.upgrade ++ r.migration.downgrade) = true
  remains : ∀ t ∈ S.tables, S'.has_table t.name = false → r.drops = some t.name
  dropped : ∀ name ∈ r.drops, ∃ t ∈ S.tables, t.name = name ∧ S'.has_table name = false

theorem applied_of_checked {S : Schema} {r : Revision} {rs : List Revision}
    (h : checked S (r :: rs) = true) : ∃ S', r.Applied S S' ∧ checked S' rs = true := by
  unfold checked at h
  dsimp only at h
  split at h
  · cases h
  · rename_i S' hup
    simp only [Bool.and_eq_true, decide_eq_true_eq, Bool.or_eq_true, Bool.not_eq_true',
      List.all_eq_true] at h
    obtain ⟨⟨⟨⟨hback, hleaves⟩, hremains⟩, hdropped⟩, hrest⟩ := h
    refine ⟨S', ⟨hup, hback, fun hr => ?_, fun t ht hgone => ?_, fun name hname => ?_⟩, hrest⟩
    · refine hleaves.resolve_left fun hnot => ?_
      rw [hr] at hnot
      cases hnot
    · refine (hremains t ht).resolve_left fun hnot => ?_
      rw [hgone] at hnot
      cases hnot
    · rw [Option.mem_def.mp hname] at hdropped
      simp only [Option.all_some, Bool.and_eq_true, Bool.not_eq_true'] at hdropped
      obtain ⟨t, ht⟩ := Option.isSome_iff_exists.mp hdropped.1
      exact ⟨t, List.mem_of_find?_eq_some ht, by simpa using List.find?_some ht, hdropped.2⟩

theorem applied_at {S : Schema} {r : Revision} {rs rs' : List Revision}
    (h : checked S (rs ++ r :: rs') = true) :
    ∃ S₁ S', alter_all S (rs.flatMap (·.migration.upgrade)) = some S₁ ∧ r.Applied S₁ S' := by
  induction rs generalizing S with
  | nil =>
    obtain ⟨S', hr, _⟩ := applied_of_checked h
    exact ⟨S, S', rfl, hr⟩
  | cons first rs ih =>
    obtain ⟨S', hfirst, hrest⟩ := applied_of_checked h
    obtain ⟨S₁, S'', halter, hr⟩ := ih hrest
    refine ⟨S₁, S'', ?_, hr⟩
    rw [List.flatMap_cons, ddl.alter_all_append hfirst.upgrade, halter]

theorem applied (r : Revision) : ∃ S', r.Applied r.before S' := by
  obtain ⟨rs, rs', hchain, hnot⟩ := List.eq_append_cons_of_mem (mem_chain r)
  have hbefore : chain.takeWhile (· ≠ r) = rs := by
    rw [hchain, List.takeWhile_append_of_pos]
    · rw [List.takeWhile_cons_of_neg (by simp), List.append_nil]
    · intro r' hr'
      exact decide_eq_true fun heq => hnot (heq ▸ hr')
  have hchecked := chain_checked
  rw [hchain] at hchecked
  obtain ⟨S₁, S', halter, hr⟩ := applied_at hchecked
  have hS : r.before = S₁ := by
    rw [before, hbefore, halter, Option.getD_some]
  exact ⟨S', hS ▸ hr⟩

section

variable {r : Revision} {d : Data} {S S' : Schema}

/-- All but one of the migrations check the rows of the empty table only. -/
theorem checks_needed (hr : r.restores = true)
    (hne : r ≠ update_payments_table_remove_charge_id) :
    ∀ st ∈ r.migration.upgrade ++ r.migration.downgrade, ∀ name ∈ st.checks,
      r.needs_empty = some name := by
  cases r <;> first
    | exact absurd rfl hne
    | exact absurd hr Bool.false_ne_true
    | decide

/-- The column that comes back is NULL in each row, so that no two rows are alike. -/
theorem charge_ids_admitted (d : Data) :
    ddl.AdmitsAll S d update_payments_table_remove_charge_id.migration.downgrade := by
  refine ⟨Or.inl rfl, fun _ _ => ⟨?_, fun _ _ => ⟨trivial, fun _ _ => trivial⟩⟩⟩
  change List.Pairwise _ (Function.update d "payments" _ "payments")
  rw [Function.update_self, List.pairwise_map]
  refine List.pairwise_of_forall fun row row' => ⟨"provider_charge_id", by simp, Or.inl ?_⟩
  exact Function.update_self _ _ _

/-- A migration that checks the rows of no table but an empty one is admitted. -/
theorem admits (hempty : ∀ name ∈ r.needs_empty, d name = []) (hr : r.restores = true) :
    ddl.AdmitsAll S d r.migration.upgrade ∧
      ddl.AdmitsAll S' (ddl.rows_all d r.migration.upgrade) r.migration.downgrade := by
  by_cases hne : r = update_payments_table_remove_charge_id
  · subst hne
    have hnone : ∀ st ∈ update_payments_table_remove_charge_id.migration.upgrade,
        st.checks = none := by decide
    refine ⟨ddl.AdmitsAll.of_empty fun st hst name hname => ?_, charge_ids_admitted _⟩
    rw [hnone st hst] at hname
    cases hname
  · have hchecks := checks_needed hr hne
    refine ⟨ddl.AdmitsAll.of_empty fun st hst name hname => ?_,
      ddl.AdmitsAll.of_empty fun st hst name hname => ?_⟩
    · exact hempty name (hchecks st (List.mem_append_left _ hst) name hname)
    · exact ddl.rows_all_empty (hempty name (hchecks st (List.mem_append_right _ hst) name hname))

/-- An upgrade that is admitted finds the table empty. -/
theorem empty_of_admits (hr : r.Applied S S') (hup : ddl.AdmitsAll S d r.migration.upgrade)
    (hkept : ∀ t ∈ S.tables, S'.has_table t.name = false → t.Kept S' d
      (ddl.rows_all (ddl.rows_all d r.migration.upgrade) r.migration.downgrade)) :
    ∀ name ∈ r.needs_empty, d name = [] := by
  have hcolumn : ∀ {table name : String} {type : ColumnType},
      Statement.Admits S d (.add_column table (op.column name type false).ddl) →
      d table = [] := fun h => by
    rcases h with h | h | h
    · cases h
    · cases h
    · exact List.isEmpty_iff.mp h
  intro name hname
  cases r with
  | added_plans_and_subscription_table =>
    cases hname
    exact hcolumn hup.1
  | update_payments_table =>
    cases hname
    exact hcolumn hup.1
  | remove_profile_table =>
    cases hname
    obtain ⟨t, ht, hname, hgone⟩ := hr.dropped "profiles" rfl
    have hrows := hkept t ht (hname ▸ hgone)
    unfold ddl.Table.Kept at hrows
    rw [hname] at hrows
    -- the table that comes back has no rows
    exact List.forall₂_nil_right_iff.mp hrows
  | _ => cases hname

theorem needs_empty_of_drops {name : String} (h : r.drops = some name) :
    r.needs_empty = some name := by
  cases r <;> first
    | exact h
    | cases h

end

/-- An upgrade succeeds, keeps the rows and is taken back by the downgrade with them if
and only if the downgrade gives back the schema and the table is empty that gets a
column without values, or is dropped. -/
theorem migration_is_undone_iff (r : Revision) (d : Contents r.before) :
    ddl.Undone r.before r.migration.upgrade r.migration.downgrade d.rows ↔
      r.restores = true ∧ ∀ name ∈ r.needs_empty, d.rows name = [] := by
  obtain ⟨S', hr⟩ := r.applied
  by_cases hrestores : r.restores = true
  · have hback := hr.gives_back.trans hrestores
    rw [ddl.undone_iff hr.upgrade hback (hr.leaves hrestores), and_iff_right hrestores]
    constructor
    · rintro ⟨hup, _, hkept⟩
      exact empty_of_admits hr hup hkept
    · intro hempty
      obtain ⟨hup, hdown⟩ := admits hempty hrestores
      refine ⟨hup, hdown, fun t ht hgone => ?_⟩
      have hnone := hempty t.name (needs_empty_of_drops (hr.remains t ht hgone))
      unfold ddl.Table.Kept
      rw [hnone, ddl.rows_all_empty (ddl.rows_all_empty hnone)]
      exact .nil
  · rw [Bool.not_eq_true] at hrestores
    refine iff_of_false (ddl.not_undone (hr.gives_back.trans hrestores)) fun h => ?_
    rw [hrestores] at h
    cases h.1

end Revision

namespace Sample

/-- The values of a user before there were administrators. -/
def user_columns : List (String × ddl.Value) :=
  [("id", .uuid 1), ("email", .text "a@b.c"), ("username", .text "a"), ("is_active", .boolean true),
    ("is_verified", .boolean true), ("provider", .label "LOCAL"), ("created_at", .timestamp 0),
    ("updated_at", .timestamp 0)]

def one_user : Contents (Revision.before .added_plans_and_subscription_table) where
  rows table := if table = "users" then [fun column => user_columns.lookup column] else []
  valid := by decide +kernel

end Sample

open Revision in
/-- A column without values for the user that is there; a constraint without a name, and
a column that has not been added, in a database without rows. -/
theorem migrations_are_not_undone :
    ¬ ddl.Undone (before .added_plans_and_subscription_table)
      Migration.added_plans_and_subscription_table.upgrade
      Migration.added_plans_and_subscription_table.downgrade Sample.one_user.rows ∧
    ∀ r ∈ [add_provider_ids_to_subscription_table, add_plan_tier_to_plans],
      ¬ ddl.Undone r.before r.migration.upgrade r.migration.downgrade
        (Contents.empty r.before).rows := by
  constructor
  · rintro ⟨_, _, _, _, hup, _⟩
    have hadmits := (ddl.run_all_iff.mp hup).2.1.1
    exact absurd hadmits (by decide +kernel)
  · intro r hr
    obtain ⟨S', happlied⟩ := r.applied
    refine ddl.not_undone (happlied.gives_back.trans ?_)
    have hrestores : ∀ r ∈ [add_provider_ids_to_subscription_table, add_plan_tier_to_plans],
        r.restores = false := by decide
    exact hrestores r hr

end saas
