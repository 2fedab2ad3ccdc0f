-- The queries of the back office: `paginate.py`, and what `admin/repository.py`,
-- `admin/ai_repo.py` and `admin/services.py` read. The writes are in
-- `AccountService`.
import Mathlib.Data.List.Sort
import SaasBackend.AccountService
import SaasBackend.AiUtils
import SaasBackend.Nested

open relational async

namespace saas

/-! ## Pages -/

structure Page (α : Type) where
  data : List (Row α)
  total : Nat
  limit : Nat
  offset : Nat
  has_next : Bool
  next_offset : Option Nat
  prev_offset : Option Nat
deriving DecidableEq, Repr

/-- What PostgreSQL takes as an offset: a `bigint`, below `2 ^ 63`. -/
def bigint_end : Nat := 0x8000000000000000

def paginate {α : Type} (query : Db → List (Row α)) (limit offset : Nat) : M (Page α) := do
  let total ← Proc.read fun w => (query w.db).length
  let items ← Proc.query fun w =>
    if offset < bigint_end then .ok (((query w.db).drop offset).take limit) else .error .dataError
  let has_next := decide (offset + limit < total)
  pure
    { data := items
      total := total
      limit := limit
      offset := offset
      has_next := has_next
      next_offset := if has_next then some (offset + limit) else none
      prev_offset := if limit ≤ offset then some (offset - limit) else none }

/-- `ORDER BY created_at DESC`: a row is created with the time of its insertion. -/
def newest_first {α κ : Type} [Keyed α κ] (t : Table α) : List (Row α) := t.rows.reverse

/-- `ORDER BY started_at DESC`: a paid invoice writes a new start into the row. Of rows
with one start the last inserted comes first. -/
def last_started_first (rows : List (Row Subscription)) : List (Row Subscription) :=
  rows.reverse.insertionSort fun r r' => r'.val.started_at ≤ r.val.started_at

/-! ## Repositories -/

namespace AdminUserRepository

def list_users (is_active is_verified is_admin : Option Bool) (limit offset : Nat) :
    M (Page User) :=
  paginate (fun db => (newest_first db.users).filter fun u =>
    is_active.all (u.val.is_active == ·) && is_verified.all (u.val.is_verified == ·) &&
      is_admin.all (u.val.is_admin == ·)) limit offset

def get_user_subscriptions (user_id : UUID) (limit offset : Nat) : M (Page Subscription) :=
  paginate (fun db => last_started_first (db.subscriptions.rows.filter fun s =>
    decide (s.val.user_id = user_id))) limit offset

def get_user_transactions (user_id : UUID) (limit offset : Nat) : M (Page Payment) :=
  paginate (fun db => (newest_first db.payments).filter fun p =>
    decide (p.val.user_id = user_id)) limit offset

end AdminUserRepository

namespace AdminSubscriptionRepository

def list_subscriptions (limit offset : Nat) : M (Page Subscription) :=
  paginate (fun db => last_started_first db.subscriptions.rows) limit offset

/-- The payments of the subscription come with it. -/
def get_subscription_by_id (sub_id : UUID) :
    M (Option (Row Subscription × List (Row Payment))) := do
  match ← Proc.read (fun w => w.db.subscriptions.byId sub_id) with
  | none => pure none
  | some sub =>
    let payments ← Proc.read fun w =>
      w.db.payments.select (fun p => decide (p.subscription_id = some sub_id))
    pure (some (sub, payments))

end AdminSubscriptionRepository

namespace AdminPaymentRepository

def list_payments (limit offset : Nat) : M (Page Payment) :=
  paginate (fun db => newest_first db.payments) limit offset

/-- The subscription of the payment comes with it. -/
def get_payment_by_id (payment_id : UUID) :
    M (Option (Row Payment × Option (Row Subscription))) := do
  match ← Proc.read (fun w => w.db.payments.byId payment_id) with
  | none => pure none
  | some payment =>
    let subscription ← Proc.read fun w =>
      payment.val.subscription_id.bind w.db.subscriptions.byId
    pure (some (payment, subscription))

end AdminPaymentRepository

/-! ## Services -/

structure Stats where
  users : Nat
  subscriptions : Nat
  payments : Nat
deriving DecidableEq, Repr

def AnalyticsService.get_stats : M Stats := do
  let users ← AdminUserRepository.list_users none none none 50 0
  let subscriptions ← AdminSubscriptionRepository.list_subscriptions 50 0
  let payments ← AdminPaymentRepository.list_payments 50 0
  pure ⟨users.total, subscriptions.total, payments.total⟩

namespace SubscriptionsServices

def get_subscriptions (limit offset : Nat) : M (Page Subscription) :=
  AdminSubscriptionRepository.list_subscriptions limit offset

def get_subscription_by_id (sub_id : UUID) : M (Option (Row Subscription × List (Row Payment))) :=
  AdminSubscriptionRepository.get_subscription_by_id sub_id

end SubscriptionsServices

namespace PaymentsServices

def get_payments (limit offset : Nat) : M (Page Payment) :=
  AdminPaymentRepository.list_payments limit offset

def get_payment_by_id (payment_id : UUID) : M (Option (Row Payment × Option (Row Subscription))) :=
  AdminPaymentRepository.get_payment_by_id payment_id

end PaymentsServices

namespace UsersService

def get_users (limit offset : Nat) (is_active is_verified is_admin : Option Bool) :
    M (Page User) :=
  AdminUserRepository.list_users is_active is_verified is_admin limit offset

def get_user_by_id (user_id : UUID) : M (Option UserDetail) :=
  AdminUserRepository.get_user_by_id user_id

def get_user_transactions (user_id : UUID) (limit offset : Nat) : M (Page Payment) :=
  AdminUserRepository.get_user_transactions user_id limit offset

def get_user_subscriptions (user_id : UUID) (limit offset : Nat) : M (Page Subscription) :=
  AdminUserRepository.get_user_subscriptions user_id limit offset

end UsersService

/-! ## Queries of the assistant -/

/-- A value of the database as the driver gives it. A value that has a text is that
text here: the digits of a number, `str()` of a UUID, the ISO format of a time. -/
inductive SqlScalar where
  | null
  | bool (b : Bool)
  | int (n : Int)
  | float (digits : String)
  | text (s : String)
  | decimal (digits : String)
  | uuid (text : String)
  | date (isoformat : String)
  | datetime (isoformat : String)
  | time (isoformat : String)
  | timedelta (microseconds : Int)
  | bytes (bytes : List UInt8)
deriving DecidableEq, Repr

/-- Arrays, and the objects of JSON columns, hold values in turn. -/
abbrev SqlValue := nested.Value SqlScalar

def SqlValue.int (n : Int) : SqlValue := .scalar (.int n)

def SqlValue.text (s : String) : SqlValue := .scalar (.text s)

structure ResultSet where
  columns : List String
  rows : List (List SqlValue)
deriving DecidableEq

/-- `dict(pairs)`: a later value takes the place of an earlier one of its key. -/
def to_dict (pairs : List (String × SqlValue)) : List (String × SqlValue) :=
  pairs.foldl (fun dict (key, value) =>
    if dict.any (·.1 == key) then dict.map (fun p => if p.1 = key then (key, value) else p)
    else dict ++ [(key, value)]) []

/-- What PostgreSQL makes of a statement, and the columns of a view. Nothing is
committed, so what a statement writes is rolled back. -/
structure SqlEngine where
  execute : Db → String → Except Err ResultSet
  view_columns : Option String → List String
  /-- `str.isalnum()` beyond ASCII. -/
  isalnum : Char → Bool
  /-- The digits of `float()` of a `Decimal`. -/
  float : String → String

inductive SqlResult where
  | count (row_count : List (List (String × SqlValue)))
  | preview (columns : List String) (rows : List (List (String × SqlValue))) (row_count : Nat)
  | csv (row_count : Nat) (columns : List String) (file_id : Nat)
deriving DecidableEq

namespace ai_repo

variable (engine : SqlEngine)

def get_view_columns (view_name : Option String) : M (List String) :=
  Proc.read fun _ => engine.view_columns view_name

/-- The file with the rows is beside the database. -/
def export_csv (sql : String) : M SqlResult := do
  let file_id ← Proc.attempt fun w => .ok (w.uuids, { w with uuids := w.uuids + 1 })
  let result ← Proc.query fun w => engine.execute w.db sql
  pure (.csv result.rows.length result.columns file_id)

/-- The text that is executed. -/
def prepare (raw mode : String) (default_limit : Nat := 200) : Except Err String := do
  let sql ← AIUtils.ensure_readonly
    (AIUtils.normalize_sql (AIUtils.normalize_enum_literals raw.toList))
  if mode = "preview" then
    pure (String.ofList (AIUtils.apply_default_limit engine.isalnum sql default_limit))
  else pure (String.ofList sql)

/-- A mode that is none of the three executes the statement and gives nothing. -/
def run_ai_sql (raw mode : String) (default_limit : Nat := 200) : M (Option SqlResult) := do
  let sql ← Proc.ofExcept (prepare engine raw mode default_limit)
  let result ← Proc.query fun w => engine.execute w.db sql
  let data_rows := result.rows.map fun row => to_dict (result.columns.zip row)
  if mode = "count" then pure (some (.count data_rows))
  else if mode = "preview" then
    pure (some (.preview result.columns data_rows data_rows.length))
  else if mode = "csv" then
    let exported ← export_csv engine sql
    pure (some exported)
  else pure none

end ai_repo

/-! ## Results as JSON -/

inductive JsonScalar where
  | null
  | bool (b : Bool)
  | int (n : Int)
  | float (digits : String)
  | str (s : String)
deriving DecidableEq, Repr

abbrev Json := nested.Value JsonScalar

/-- What `json.dumps` encodes by itself, besides arrays and objects. -/
def SqlScalar.native : SqlScalar → Option JsonScalar
  | .null => some .null
  | .bool b => some (.bool b)
  | .int n => some (.int n)
  | .float digits => some (.float digits)
  | .text s => some (.str s)
  | _ => none

def json_safe (float : String → String) : SqlScalar → SqlScalar
  | .uuid text => .text text
  | .datetime isoformat => .text isoformat
  | .date isoformat => .text isoformat
  | .decimal digits => .float (float digits)
  | obj => obj

/-- The fallback is asked once: an object that it gives back is a circular reference. -/
def encode_scalar (float : String → String) (value : SqlScalar) : Except Err JsonScalar :=
  match value.native with
  | some json => .ok json
  | none => match (json_safe float value).native with
    | some json => .ok json
    | none => .error .valueError

/-- `json.dumps(value, default=json_safe)`. -/
def dumps (float : String → String) (value : SqlValue) : Except Err Json :=
  value.translate (encode_scalar float)

namespace SqlResult

def rows_value (rows : List (List (String × SqlValue))) : SqlValue := .array (rows.map .object)

def columns_value (columns : List String) : SqlValue := .array (columns.map SqlValue.text)

/-- The object that `run_ai_sql` returns. A UUID is a number here. -/
def to_value : Option SqlResult → SqlValue
  | none => .scalar .null
  | some (.count row_count) => .object [("row_count", rows_value row_count)]
  | some (.preview columns rows row_count) =>
    .object [("columns", columns_value columns), ("rows", rows_value rows),
      ("row_count", SqlValue.int row_count)]
  | some (.csv row_count columns file_id) =>
    .object [("row_count", SqlValue.int row_count), ("columns", columns_value columns),
      ("export", .object [("type", SqlValue.text "csv"),
        ("file_id", SqlValue.text (toString file_id)),
        ("file_name", SqlValue.text (toString file_id ++ ".csv")),
        ("download_url", SqlValue.text ("/ai/exports/" ++ toString file_id))]),
      ("truncated_in_ai", .scalar (.bool true))]

end SqlResult

/-! ## The assistant -/

structure ToolArguments where
  view_name : Option String := none
  sql : Option String := none
  mode : Option String := none
deriving DecidableEq, Repr

/-- The arguments are a JSON object, or other text. -/
structure ToolCall where
  id : String
  name : String
  arguments : Option ToolArguments
deriving DecidableEq, Repr

inductive ToolContent where
  | columns (columns : List String)
  | result (result : Json)
deriving DecidableEq

inductive ChatMessage where
  | system (content : String)
  | user (content : String)
  | assistant (tool_calls : List ToolCall)
  | tool (tool_call_id : String) (content : ToolContent)
deriving DecidableEq

/-- What a model answers to the messages of a conversation, and to all that
follow: a text, or tool calls and its answer to what they return. -/
inductive Reply where
  | stop (content : Option String)
  | tool_calls (tool_calls : List ToolCall) (next : List ChatMessage → Reply)

/-- The client of a provider. -/
structure AiClient where
  ai_provider : String
  create : List ChatMessage → Reply

def get_ai_client (client : AiClient) : M AiClient :=
  if client.ai_provider = "groq" then pure client else .raise .valueError

namespace AiSerivce

variable (engine : SqlEngine) (client : AiClient) (system_message : String)

def get_view_columns (view_name : Option String) : M (List String) :=
  ai_repo.get_view_columns engine view_name

/-- Without a text the first regular expression fails. -/
def execute_ai_sql (sql : Option String) (mode : String) : M (Option SqlResult) :=
  match sql with
  | none => .raise .typeError
  | some sql => ai_repo.run_ai_sql engine sql mode

def dispatch_call (tool_call : ToolCall) : M ChatMessage :=
  match tool_call.arguments with
  | none => .raise .valueError
  | some arguments =>
    if tool_call.name = "get_view_columns" then do
      let cols ← get_view_columns engine arguments.view_name
      pure (.tool tool_call.id (.columns cols))
    else if tool_call.name = "execute_sql" then do
      let result ← execute_ai_sql engine arguments.sql (arguments.mode.getD "preview")
      let json ← Proc.ofExcept (dumps engine.float (SqlResult.to_value result))
      pure (.tool tool_call.id (.result json))
    else .raise .valueError

/-- The calls of one message, in their order. -/
def dispatch_tool : List ToolCall → M (List ChatMessage)
  | [] => pure []
  | tool_call :: tool_calls => do
    let response ← dispatch_call engine tool_call
    let responses ← dispatch_tool tool_calls
    pure (response :: responses)

/-- The loop of `call_ai_model`, after `messages`. -/
def converse : Reply → List ChatMessage → M (Option String)
  | .stop content, _ => pure content
  | .tool_calls calls next, messages => do
    let tool_responses ← dispatch_tool engine calls
    let messages := messages ++ .assistant calls :: tool_responses
    converse (next messages) messages

def call_ai_model (prompt : String) : M (Option String) :=
  let messages := [.system system_message, .user prompt]
  converse engine (client.create messages) messages

end AiSerivce

/-! ## The specs of the queries -/

/-- The page of a list of rows. -/
def page_of {α : Type} (rows : List (Row α)) (limit offset : Nat) : Page α where
  data := (rows.drop offset).take limit
  total := rows.length
  limit := limit
  offset := offset
  has_next := decide (offset + limit < rows.length)
  next_offset := if offset + limit < rows.length then some (offset + limit) else none
  prev_offset := if limit ≤ offset then some (offset - limit) else none

theorem paginate.spec {α : Type} (query : Db → List (Row α)) (limit offset : Nat) (w : World) :
    (paginate query limit offset).run w =
      (if offset < bigint_end then .ok (page_of (query w.db) limit offset) else .error .dataError,
        w) := by
  unfold paginate
  rw [Proc.run_bind_ok (Proc.run_read _ w), Proc.run_bind, Proc.run_query]
  by_cases ho : offset < bigint_end
  · simp [ho, page_of]
  · simp [ho]

theorem paginate.ok {α : Type} (query : Db → List (Row α)) {limit offset : Nat}
    (h : offset < bigint_end) (w : World) :
    (paginate query limit offset).run w = (.ok (page_of (query w.db) limit offset), w) := by
  rw [paginate.spec, if_pos h]

/-- The totals do not depend on the default page. -/
theorem AnalyticsService.get_stats.spec (w : World) :
    AnalyticsService.get_stats.run w = (.ok ⟨w.db.users.rows.length,
      w.db.subscriptions.rows.length, w.db.payments.rows.length⟩, w) := by
  have h0 : 0 < bigint_end := by decide
  unfold AnalyticsService.get_stats AdminUserRepository.list_users
    AdminSubscriptionRepository.list_subscriptions AdminPaymentRepository.list_payments
  rw [Proc.run_bind_ok (paginate.ok _ h0 w), Proc.run_bind_ok (paginate.ok _ h0 w),
    Proc.run_bind_ok (paginate.ok _ h0 w), Proc.run_pure]
  simp [page_of, newest_first, last_started_first]

theorem SubscriptionsServices.get_subscription_by_id.spec (sub_id : UUID) (w : World) :
    (get_subscription_by_id sub_id).run w =
      (.ok ((w.db.subscriptions.byId sub_id).map fun sub =>
        (sub, w.db.payments.select fun p => decide (p.subscription_id = some sub_id))), w) := by
  unfold get_subscription_by_id AdminSubscriptionRepository.get_subscription_by_id
  rw [Proc.run_bind_ok (Proc.run_read _ w)]
  rcases w.db.subscriptions.byId sub_id with _ | sub <;> rfl

theorem PaymentsServices.get_payment_by_id.spec (payment_id : UUID) (w : World) :
    (get_payment_by_id payment_id).run w =
      (.ok ((w.db.payments.byId payment_id).map fun payment =>
        (payment, payment.val.subscription_id.bind w.db.subscriptions.byId)), w) := by
  unfold get_payment_by_id AdminPaymentRepository.get_payment_by_id
  rw [Proc.run_bind_ok (Proc.run_read _ w)]
  rcases w.db.payments.byId payment_id with _ | payment <;> rfl

theorem UsersService.get_user_by_id.spec (user_id : UUID) (w : World) :
    (get_user_by_id user_id).run w =
      (.ok ((w.db.users.byId user_id).map fun user =>
        ⟨user, (w.db.subscriptions.select fun s => decide (s.user_id = user_id)).length,
          (w.db.payments.select fun p => decide (p.user_id = user_id)).length⟩), w) := by
  unfold get_user_by_id AdminUserRepository.get_user_by_id UserRepository.get_by_id
  rw [Proc.run_bind, Proc.run_query]
  rcases w.db.users.byId user_id with _ | user <;> rfl

end saas
