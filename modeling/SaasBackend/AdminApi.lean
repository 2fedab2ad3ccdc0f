-- `admin/router.py`: the endpoints of the back office with their parameters and
-- dependencies.
import SaasBackend.AdminService

open relational async

namespace saas

/-! ## Parameters -/

/-- A parameter of a request: not there, a value of its type, or other text. -/
inductive Param (α : Type) where
  | absent
  | given (a : α)
  | malformed
deriving DecidableEq, Repr

namespace Param

variable {α : Type}

def value (default : α) : Param α → α
  | given a => a
  | _ => default

def optional : Param α → Option α
  | given a => some a
  | _ => none

/-- The parameter may be left out, and passes `check` otherwise. -/
def admits (check : α → Bool) : Param α → Bool
  | absent => true
  | given a => check a
  | malformed => false

/-- The parameter may not be left out. -/
def required : Param α → Bool
  | given _ => true
  | _ => false

end Param

/-- `limit: int = Query(10, ge=1, le=100)` and `offset: int = Query(0, ge=0)`. -/
structure PageParams where
  limit : Param Int
  offset : Param Int
deriving DecidableEq, Repr

namespace PageParams

def limit_value (page : PageParams) : Nat := (page.limit.value 10).toNat

def offset_value (page : PageParams) : Nat := (page.offset.value 0).toNat

/-- The two fields, each with whether it is valid. -/
def fields (page : PageParams) : List (String × Bool) :=
  [("limit", page.limit.admits fun n => decide (1 ≤ n ∧ n ≤ 100)),
    ("offset", page.offset.admits fun n => decide (0 ≤ n))]

end PageParams

/-! ## Requests and responses -/

inductive AdminRequest where
  | get_dashboard_stats
  | get_users (page : PageParams) (is_active is_verified is_admin : Param Bool)
  | get_user_details (user_id : Param UUID)
  | get_user_transactions (user_id : Param UUID) (page : PageParams)
  | get_user_subscriptions (user_id : Param UUID) (page : PageParams)
  | update_user_status (user_id : Param UUID) (is_active : Param Bool)
  | update_user_role (user_id : Param UUID) (is_admin : Param Bool)
  | verify_user (user_id : Param UUID)
  | get_transactions (page : PageParams)
  | get_transaction_by_id (payment_id : Param UUID)
  | get_subscriptions (page : PageParams)
  | get_subscription_by_id (sub_id : Param UUID)
  | ai_chat (prompt : Param String)

/-- The body of a response. `unprocessable` is the 422 with the fields that are
not valid. -/
inductive AdminResponse where
  | stats (stats : Stats)
  | users (page : Page User)
  | user (detail : Option UserDetail)
  | transactions (page : Page Payment)
  | subscriptions (page : Page Subscription)
  | updated_user (user : Row User)
  | transaction (payment : Option (Row Payment × Option (Row Subscription)))
  | subscription (subscription : Option (Row Subscription × List (Row Payment)))
  | response (content : Option String)
  | unprocessable (errors : List String)
deriving DecidableEq, Repr

namespace AdminRequest

/-- The parameters of a request in their order, each with whether it is valid. -/
def fields : AdminRequest → List (String × Bool)
  | get_dashboard_stats => []
  | get_users page is_active is_verified is_admin => page.fields ++
      [("is_active", is_active.admits fun _ => true),
        ("is_verified", is_verified.admits fun _ => true),
        ("is_admin", is_admin.admits fun _ => true)]
  | get_user_details user_id => [("user_id", user_id.required)]
  | get_user_transactions user_id page => ("user_id", user_id.required) :: page.fields
  | get_user_subscriptions user_id page => ("user_id", user_id.required) :: page.fields
  | update_user_status user_id is_active =>
    [("user_id", user_id.required), ("is_active", is_active.required)]
  | update_user_role user_id is_admin =>
    [("user_id", user_id.required), ("is_admin", is_admin.required)]
  | verify_user user_id => [("user_id", user_id.required)]
  | get_transactions page => page.fields
  | get_transaction_by_id payment_id => [("payment_id", payment_id.required)]
  | get_subscriptions page => page.fields
  | get_subscription_by_id sub_id => [("sub_id", sub_id.required)]
  | ai_chat prompt => [("prompt", prompt.required)]

def errors (request : AdminRequest) : List String :=
  (request.fields.filter fun field => !field.2).map Prod.fst

/-- The endpoint runs when all parameters are valid. -/
def validated (request : AdminRequest) (endpoint : M AdminResponse) : M AdminResponse :=
  if request.errors = [] then endpoint else pure (.unprocessable request.errors)

section

variable (settings : Settings) (engine : SqlEngine) (client : AiClient) (system_message : String)

/-- The dependencies of a request, its parameters, and its endpoint. -/
def respond (authorization : Authorization) (request : AdminRequest) : M AdminResponse :=
  match request with
  | get_dashboard_stats => request.validated do
    let stats ← AnalyticsService.get_stats
    pure (.stats stats)
  | get_users page is_active is_verified is_admin => request.validated do
    let users ← UsersService.get_users page.limit_value page.offset_value is_active.optional
      is_verified.optional is_admin.optional
    pure (.users users)
  | get_user_details user_id => request.validated do
    let user ← UsersService.get_user_by_id (user_id.value 0)
    pure (.user user)
  | get_user_transactions user_id page => request.validated do
    let transactions ← UsersService.get_user_transactions (user_id.value 0) page.limit_value
      page.offset_value
    pure (.transactions transactions)
  | get_user_subscriptions user_id page => request.validated do
    let subscriptions ← UsersService.get_user_subscriptions (user_id.value 0) page.limit_value
      page.offset_value
    pure (.subscriptions subscriptions)
  | update_user_status user_id is_active => do
    let admin ← get_admin_user settings authorization
    request.validated do
      let updated_user ← UsersService.update_user_status admin.id (user_id.value 0)
        (is_active.value false)
      pure (.updated_user updated_user)
  | update_user_role user_id is_admin => do
    let admin ← get_admin_user settings authorization
    request.validated do
      let updated_user ← UsersService.update_user_role admin.id (user_id.value 0)
        (is_admin.value false)
      pure (.updated_user updated_user)
  | verify_user user_id => do
    let admin ← get_admin_user settings authorization
    request.validated do
      let updated_user ← UsersService.verify_user admin.id (user_id.value 0)
      pure (.updated_user updated_user)
  | get_transactions page => request.validated do
    let payments ← PaymentsServices.get_payments page.limit_value page.offset_value
    pure (.transactions payments)
  | get_transaction_by_id payment_id => request.validated do
    let payment ← PaymentsServices.get_payment_by_id (payment_id.value 0)
    pure (.transaction payment)
  | get_subscriptions page => request.validated do
    let subscriptions ← SubscriptionsServices.get_subscriptions page.limit_value page.offset_value
    pure (.subscriptions subscriptions)
  | get_subscription_by_id sub_id => request.validated do
    let subscription ← SubscriptionsServices.get_subscription_by_id (sub_id.value 0)
    pure (.subscription subscription)
  | ai_chat prompt => do
    let client ← get_ai_client client
    request.validated do
      let response ← AiSerivce.call_ai_model engine client system_message (prompt.value "")
      pure (.response response)

end

end AdminRequest

end saas
