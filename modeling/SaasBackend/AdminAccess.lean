-- What the back office tells callers who are no admins: which endpoints answer
-- them from the data of others, and which do not.
import SaasBackend.AccountSystem
import SaasBackend.AdminApi

open relational async

namespace saas

/-! ## Callers and what they may see -/

/-- The caller's own row, where the header has a valid token. -/
def Authorization.own_row (settings : Settings) (w : World) (authorization : Authorization) :
    Option (Row User) :=
  match authorization.user_id settings w.clock with
  | .ok i => w.db.users.byId i
  | .error _ => none

theorem Authorization.own_row_of_ok {settings : Settings} {w : World}
    {authorization : Authorization} {i : UUID}
    (h : authorization.user_id settings w.clock = .ok i) :
    authorization.own_row settings w = w.db.users.byId i := by
  unfold own_row
  rw [h]

/-- Another database in the place of the one that is there. -/
def World.with_db (w : World) (db : Db) : World := { w with db := db }

@[simp] theorem World.with_db_clock (w : World) (db : Db) : (w.with_db db).clock = w.clock := rfl

@[simp] theorem World.with_db_db (w : World) (db : Db) : (w.with_db db).db = db := rfl

/-- The request tells a caller who is no admin nothing but his own row: two
databases that agree on it give the same response, and stay as they are. The
statements of the assistant and the texts of its provider may be any. -/
def RevealsNothing (settings : Settings) (ai_provider : String) (request : AdminRequest) : Prop :=
  ∀ (engine : SqlEngine) (create : List ChatMessage → Reply) (system_message : String)
    (authorization : Authorization) (w : World) (db : Db),
    (∀ admin, ¬ AdminBearer settings w authorization admin) →
    authorization.own_row settings (w.with_db db) = authorization.own_row settings w →
    let p := request.respond settings engine ⟨ai_provider, create⟩ system_message authorization
    (p.run (w.with_db db)).1 = (p.run w).1 ∧ (p.run w).2.db = w.db ∧
      (p.run (w.with_db db)).2.db = db

/-- The request does not get to the data, whoever makes it, or asks for an admin
first. -/
def AdminRequest.Closed (ai_provider : String) (request : AdminRequest) : Prop :=
  request.errors ≠ [] ∨ match request with
    | update_user_status _ _ => True
    | update_user_role _ _ => True
    | verify_user _ => True
    | get_users page _ _ _ => bigint_end ≤ page.offset_value
    | get_user_transactions _ page => bigint_end ≤ page.offset_value
    | get_user_subscriptions _ page => bigint_end ≤ page.offset_value
    | get_transactions page => bigint_end ≤ page.offset_value
    | get_subscriptions page => bigint_end ≤ page.offset_value
    | ai_chat _ => ai_provider ≠ "groq"
    | _ => False

section

variable {settings : Settings} {authorization : Authorization} {w : World} {db : Db}

/-! ## Requests that are refused -/

/-- The program answers the same in both databases, and leaves them. -/
def Settled (p : M AdminResponse) (w : World) (db : Db) : Prop :=
  ∃ answer, p.run w = (answer, w) ∧ p.run (w.with_db db) = (answer, w.with_db db)

theorem Settled.raise (e : Err) : Settled (.raise e) w db := ⟨.error e, rfl, rfl⟩

theorem Settled.errors {request : AdminRequest} (h : request.errors ≠ [])
    (endpoint : M AdminResponse) : Settled (request.validated endpoint) w db := by
  unfold AdminRequest.validated
  rw [if_neg h]
  exact ⟨.ok (.unprocessable request.errors), rfl, rfl⟩

theorem Settled.validated {request : AdminRequest} {endpoint : M AdminResponse}
    (h : Settled endpoint w db) : Settled (request.validated endpoint) w db := by
  by_cases he : request.errors = []
  · unfold AdminRequest.validated
    rw [if_pos he]
    exact h
  · exact Settled.errors he endpoint

theorem Settled.offset {α : Type} {query : Db → List (Row α)} {limit offset : Nat}
    {k : Page α → M AdminResponse} (h : bigint_end ≤ offset) :
    Settled (paginate query limit offset >>= k) w db := by
  have hrun : ∀ v : World, (paginate query limit offset).run v = (.error .dataError, v) := by
    intro v
    rw [paginate.spec, if_neg (Nat.not_lt.mpr h)]
  exact ⟨.error .dataError, Proc.run_bind_error (hrun w) k,
    Proc.run_bind_error (hrun (w.with_db db)) k⟩

/-- A caller who is no admin is refused on the grounds of his own row. -/
theorem Settled.no_admin {k : Row User → M AdminResponse}
    (hcaller : ∀ admin, ¬ AdminBearer settings w authorization admin)
    (hrow : authorization.own_row settings (w.with_db db) = authorization.own_row settings w) :
    Settled (get_admin_user settings authorization >>= k) w db := by
  have hsame : ((get_admin_user settings authorization).run (w.with_db db)).1 =
      ((get_admin_user settings authorization).run w).1 := by
    rw [get_admin_user.spec, get_admin_user.spec, World.with_db_clock]
    rcases hid : authorization.user_id settings w.clock with e | i
    · rfl
    · rw [Authorization.own_row_of_ok hid, Authorization.own_row_of_ok (w := w.with_db db) hid]
        at hrow
      dsimp only [Except.bind]
      rw [hrow]
  rcases hr : (get_admin_user settings authorization).run w with ⟨e | admin, w'⟩
  · have hw : w' = w := by
      rw [get_admin_user.spec, Prod.mk.injEq] at hr
      exact hr.2.symm
    subst hw
    refine ⟨.error e, Proc.run_bind_error hr k, Proc.run_bind_error ?_ k⟩
    rw [hr] at hsame
    rw [get_admin_user.spec] at hsame ⊢
    exact Prod.ext hsame rfl
  · exact absurd (get_admin_user.ok hr).2 (hcaller admin)

variable {ai_provider : String} {request : AdminRequest}

theorem AdminRequest.Closed.settled (h : request.Closed ai_provider) (engine : SqlEngine)
    (create : List ChatMessage → Reply) (system_message : String)
    (hcaller : ∀ admin, ¬ AdminBearer settings w authorization admin)
    (hrow : authorization.own_row settings (w.with_db db) = authorization.own_row settings w) :
    Settled (request.respond settings engine ⟨ai_provider, create⟩ system_message authorization)
      w db := by
  have hpaged {α : Type} {query : Db → List (Row α)} {limit offset : Nat}
      {k : Page α → M AdminResponse} (h : request.errors ≠ [] ∨ bigint_end ≤ offset) :
      Settled (request.validated (paginate query limit offset >>= k)) w db := by
    rcases h with he | ho
    · exact Settled.errors he _
    · exact Settled.validated (Settled.offset ho)
  have hdetail {endpoint : M AdminResponse} (h : request.errors ≠ [] ∨ False) :
      Settled (request.validated endpoint) w db :=
    Settled.errors (h.resolve_right id) endpoint
  unfold AdminRequest.respond
  cases request with
  | update_user_status user_id is_active => exact Settled.no_admin hcaller hrow
  | update_user_role user_id is_admin => exact Settled.no_admin hcaller hrow
  | verify_user user_id => exact Settled.no_admin hcaller hrow
  | get_users page is_active is_verified is_admin =>
    unfold UsersService.get_users AdminUserRepository.list_users
    exact hpaged h
  | get_user_transactions user_id page =>
    unfold UsersService.get_user_transactions AdminUserRepository.get_user_transactions
    exact hpaged h
  | get_user_subscriptions user_id page =>
    unfold UsersService.get_user_subscriptions AdminUserRepository.get_user_subscriptions
    exact hpaged h
  | get_transactions page =>
    unfold PaymentsServices.get_payments AdminPaymentRepository.list_payments
    exact hpaged h
  | get_subscriptions page =>
    unfold SubscriptionsServices.get_subscriptions AdminSubscriptionRepository.list_subscriptions
    exact hpaged h
  | get_dashboard_stats => exact hdetail h
  | get_user_details user_id => exact hdetail h
  | get_transaction_by_id payment_id => exact hdetail h
  | get_subscription_by_id sub_id => exact hdetail h
  | ai_chat prompt =>
    unfold get_ai_client
    by_cases hp : ai_provider = "groq"
    · rw [if_pos hp]
      exact Settled.errors (h.resolve_right (not_not_intro hp)) _
    · rw [if_neg hp]
      exact Settled.raise _

theorem AdminRequest.Closed.reveals_nothing (h : request.Closed ai_provider) :
    RevealsNothing settings ai_provider request := by
  intro engine create system_message authorization w db hcaller hrow
  obtain ⟨answer, hw, hdb⟩ := h.settled engine create system_message hcaller hrow
  dsimp only
  rw [hw, hdb]
  exact ⟨rfl, rfl, rfl⟩

end

/-! ## Requests that are answered -/

/-- A database without a row. -/
def Db.blank : Db := Db.start .empty .empty

theorem Subscription.nodup_keys (s : Subscription) : (Keyed.keys s).Nodup := by
  simp only [Keyed.keys]
  cases s.provider_subscription_id <;> simp

/-- One account, with one subscription and one payment of it. -/
def Db.with_user (user : Row User) (sub_id payment_id : UUID) : Db where
  users := .single user (by simp [Keyed.keys])
  plans := .single ⟨0,
    { name := "Pro", code := "pro", price_cents := 1000, billing_period := .MONTHLY }⟩
    (by simp [Keyed.keys])
  subscriptions := .single ⟨sub_id,
    { user_id := user.id, plan_id := 0, status := .ACTIVE, provider := .STRIPE,
      provider_subscription_id := none, provider_customer_id := none, started_at := 0,
      current_period_end := none }⟩
    (Subscription.nodup_keys _)
  payments := .single ⟨payment_id,
    { user_id := user.id, subscription_id := some sub_id, provider := .STRIPE,
      provider_invoice_id := 0, amount_cents := 1000, status := .SUCCEEDED }⟩
    (by simp [Keyed.keys])
  fk_subscription_user :=
    Table.refersTo_single _ fun _ hi => Table.has_single _ (Option.some.inj hi)
  fk_subscription_plan :=
    Table.refersTo_single _ fun _ hi => Table.has_single _ (Option.some.inj hi)
  fk_payment_user :=
    Table.refersTo_single _ fun _ hi => Table.has_single _ (Option.some.inj hi)
  fk_payment_subscription :=
    Table.refersTo_single _ fun _ hi => Table.has_single _ (Option.some.inj hi)
  fk_token_user := Table.refersTo_empty _ _
  fk_code_user := Table.refersTo_empty _ _
  fk_audit_admin := Table.refersTo_empty _ _

/-- How many accounts there are, as a statement of the assistant. -/
def count_users : String := "SELECT COUNT(*) AS n FROM users"

/-- A store that knows one statement. -/
def count_engine : SqlEngine where
  execute db sql :=
    if sql = count_users then .ok ⟨["n"], [[.int db.users.rows.length]]⟩ else .error .dataError
  view_columns _ := []
  isalnum _ := false
  float digits := digits

/-- The number of accounts as the model gets it. -/
def count_json (n : Nat) : Json :=
  .object [("row_count", .array [.object [("n", .scalar (.int n))]])]

/-- A model that counts the accounts, and then says whether there is any. -/
def count_create (_ : List ChatMessage) : Reply :=
  .tool_calls [⟨"call", "execute_sql", some { sql := some count_users, mode := some "count" }⟩]
    fun messages =>
      if .tool "call" (.result (count_json 0)) ∈ messages then
        .stop (some "There is no account.")
      else .stop (some "There is an account.")

section

variable {settings : Settings} {ai_provider : String} {request : AdminRequest}

/-- The answer to a caller without a header. -/
def AdminRequest.answer (settings : Settings) (ai_provider : String) (request : AdminRequest)
    (db : Db) : Except Err AdminResponse :=
  ((request.respond settings count_engine ⟨ai_provider, count_create⟩ "" .absent).run
    { db := db }).1

theorem RevealsNothing.same_answer (h : RevealsNothing settings ai_provider request) (db : Db) :
    request.answer settings ai_provider db = request.answer settings ai_provider .blank := by
  refine (h count_engine count_create "" .absent { db := Db.blank } db ?_ rfl).1
  intro admin hadmin
  cases hadmin.token

/-- Two answers of an endpoint that are the same say the same. -/
theorem same_result {β : Type} {p : M β} {result : World → β} {f : β → AdminResponse}
    (hp : ∀ w, p.run w = (.ok (result w), w)) (hf : Function.Injective f)
    (he : request.errors = []) {w w' : World}
    (h : ((request.validated (p >>= fun b => pure (f b))).run w).1 =
      ((request.validated (p >>= fun b => pure (f b))).run w').1) : result w = result w' := by
  unfold AdminRequest.validated at h
  rw [if_pos he, Proc.run_bind_ok (hp w), Proc.run_bind_ok (hp w')] at h
  exact hf (Except.ok.inj h)

theorem same_total {α : Type} {query : Db → List (Row α)} {limit offset : Nat}
    {f : Page α → AdminResponse} (hf : Function.Injective f) (he : request.errors = [])
    (ho : offset < bigint_end) {w w' : World}
    (h : ((request.validated (paginate query limit offset >>= fun page => pure (f page))).run w).1 =
      ((request.validated (paginate query limit offset >>= fun page => pure (f page))).run w').1) :
    (query w.db).length = (query w'.db).length :=
  congrArg Page.total (same_result (paginate.ok query ho) hf he h)

/-- A flag that passes its filter. -/
def Param.passes (filter : Param Bool) : Bool := filter.optional.getD true

theorem Param.all_passes (filter : Param Bool) :
    filter.optional.all (filter.passes == ·) = true := by
  unfold passes
  cases filter.optional <;> simp

/-- A user for all filters of the list. -/
def passing_user (id : UUID) (is_active is_verified is_admin : Param Bool) : Row User :=
  ⟨id,
    { email := "ann@example.com", username := "ann", password := some "hash",
      is_active := is_active.passes, is_verified := is_verified.passes,
      is_admin := is_admin.passes, provider := .LOCAL }⟩

theorem prepare_count_users :
    ai_repo.prepare count_engine count_users "count" = .ok count_users := by
  decide +kernel

theorem run_count_users (w : World) :
    (ai_repo.run_ai_sql count_engine count_users "count").run w =
      (.ok (some (.count [[("n", .int w.db.users.rows.length)]])), w) := by
  unfold ai_repo.run_ai_sql
  rw [prepare_count_users, Proc.run_bind, Proc.run_ofExcept]
  dsimp only
  rw [Proc.run_bind, Proc.run_query]
  simp [count_engine, to_dict]

theorem count_chat.spec (prompt : String) (w : World) :
    (AiSerivce.call_ai_model count_engine ⟨"groq", count_create⟩ "" prompt).run w =
      (.ok (some (if w.db.users.rows.length = 0 then "There is no account."
        else "There is an account.")), w) := by
  have hcall : (AiSerivce.dispatch_tool count_engine
      [⟨"call", "execute_sql", some { sql := some count_users, mode := some "count" }⟩]).run w =
      (.ok [.tool "call" (.result (count_json w.db.users.rows.length))], w) := by
    have hrun := run_count_users w
    have hdumps : dumps count_engine.float
        (SqlResult.to_value (some (.count [[("n", .int w.db.users.rows.length)]]))) =
        .ok (count_json w.db.users.rows.length) := rfl
    simp [AiSerivce.dispatch_tool, AiSerivce.dispatch_call, AiSerivce.execute_ai_sql,
      Proc.run_bind, hrun, hdumps]
  unfold AiSerivce.call_ai_model count_create AiSerivce.converse
  rw [Proc.run_bind_ok hcall]
  by_cases hn : w.db.users.rows.length = 0
  · simp [hn, AiSerivce.converse]
  · have hzero : ¬ count_json 0 = count_json w.db.users.rows.length := by
      simp only [count_json, nested.Value.object.injEq, nested.Value.array.injEq,
        nested.Value.scalar.injEq, JsonScalar.int.injEq, List.cons.injEq, Prod.mk.injEq]
      omega
    simp [hn, hzero, AiSerivce.converse]

/-! ## One endpoint each -/

namespace RevealsNothing

variable {page : PageParams} {id : Param UUID} {is_active is_verified is_admin : Param Bool}

theorem get_dashboard_stats (h : RevealsNothing settings ai_provider .get_dashboard_stats) :
    False := by
  have hsame := h.same_answer (.with_user (passing_user 0 .absent .absent .absent) 0 0)
  have hstats := same_result AnalyticsService.get_stats.spec
    (fun _ _ => AdminResponse.stats.inj) rfl hsame
  simp [Db.with_user, Db.blank, Db.start] at hstats

theorem get_users
    (h : RevealsNothing settings ai_provider (.get_users page is_active is_verified is_admin))
    (he : (AdminRequest.get_users page is_active is_verified is_admin).errors = []) :
    bigint_end ≤ page.offset_value := by
  by_contra ho
  have hsame := h.same_answer (.with_user (passing_user 0 is_active is_verified is_admin) 0 0)
  unfold AdminRequest.answer AdminRequest.respond UsersService.get_users
    AdminUserRepository.list_users at hsame
  have htotal := same_total (fun _ _ => AdminResponse.users.inj) he (Nat.not_le.mp ho) hsame
  simp [newest_first, Db.with_user, Db.blank, Db.start, passing_user, Param.all_passes]
    at htotal

theorem get_user_details (h : RevealsNothing settings ai_provider (.get_user_details id))
    (he : (AdminRequest.get_user_details id).errors = []) : False := by
  have hsame := h.same_answer (.with_user (passing_user (id.value 0) .absent .absent .absent) 0 0)
  have hdetail := same_result (UsersService.get_user_by_id.spec _)
    (fun _ _ => AdminResponse.user.inj) he hsame
  simp [Db.with_user, Db.blank, Db.start, passing_user, Table.byId] at hdetail

theorem get_user_transactions
    (h : RevealsNothing settings ai_provider (.get_user_transactions id page))
    (he : (AdminRequest.get_user_transactions id page).errors = []) :
    bigint_end ≤ page.offset_value := by
  by_contra ho
  have hsame := h.same_answer (.with_user (passing_user (id.value 0) .absent .absent .absent) 0 0)
  unfold AdminRequest.answer AdminRequest.respond UsersService.get_user_transactions
    AdminUserRepository.get_user_transactions at hsame
  have htotal := same_total (fun _ _ => AdminResponse.transactions.inj) he (Nat.not_le.mp ho) hsame
  simp [newest_first, Db.with_user, Db.blank, Db.start, passing_user] at htotal

theorem get_user_subscriptions
    (h : RevealsNothing settings ai_provider (.get_user_subscriptions id page))
    (he : (AdminRequest.get_user_subscriptions id page).errors = []) :
    bigint_end ≤ page.offset_value := by
  by_contra ho
  have hsame := h.same_answer (.with_user (passing_user (id.value 0) .absent .absent .absent) 0 0)
  unfold AdminRequest.answer AdminRequest.respond UsersService.get_user_subscriptions
    AdminUserRepository.get_user_subscriptions at hsame
  have htotal := same_total (fun _ _ => AdminResponse.subscriptions.inj) he (Nat.not_le.mp ho) hsame
  simp [last_started_first, Db.with_user, Db.blank, Db.start, passing_user] at htotal

theorem get_transactions (h : RevealsNothing settings ai_provider (.get_transactions page))
    (he : (AdminRequest.get_transactions page).errors = []) :
    bigint_end ≤ page.offset_value := by
  by_contra ho
  have hsame := h.same_answer (.with_user (passing_user 0 .absent .absent .absent) 0 0)
  unfold AdminRequest.answer AdminRequest.respond PaymentsServices.get_payments
    AdminPaymentRepository.list_payments at hsame
  have htotal := same_total (fun _ _ => AdminResponse.transactions.inj) he (Nat.not_le.mp ho) hsame
  simp [newest_first, Db.with_user, Db.blank, Db.start] at htotal

theorem get_transaction_by_id
    (h : RevealsNothing settings ai_provider (.get_transaction_by_id id))
    (he : (AdminRequest.get_transaction_by_id id).errors = []) : False := by
  have hsame := h.same_answer (.with_user (passing_user 0 .absent .absent .absent) 0 (id.value 0))
  have hdetail := same_result (PaymentsServices.get_payment_by_id.spec _)
    (fun _ _ => AdminResponse.transaction.inj) he hsame
  simp [Db.with_user, Db.blank, Db.start, Table.byId] at hdetail

theorem get_subscriptions (h : RevealsNothing settings ai_provider (.get_subscriptions page))
    (he : (AdminRequest.get_subscriptions page).errors = []) :
    bigint_end ≤ page.offset_value := by
  by_contra ho
  have hsame := h.same_answer (.with_user (passing_user 0 .absent .absent .absent) 0 0)
  unfold AdminRequest.answer AdminRequest.respond SubscriptionsServices.get_subscriptions
    AdminSubscriptionRepository.list_subscriptions at hsame
  have htotal := same_total (fun _ _ => AdminResponse.subscriptions.inj) he (Nat.not_le.mp ho) hsame
  simp [last_started_first, Db.with_user, Db.blank, Db.start] at htotal

theorem get_subscription_by_id
    (h : RevealsNothing settings ai_provider (.get_subscription_by_id id))
    (he : (AdminRequest.get_subscription_by_id id).errors = []) : False := by
  have hsame := h.same_answer (.with_user (passing_user 0 .absent .absent .absent) (id.value 0) 0)
  have hdetail := same_result (SubscriptionsServices.get_subscription_by_id.spec _)
    (fun _ _ => AdminResponse.subscription.inj) he hsame
  simp [Db.with_user, Db.blank, Db.start, Table.byId] at hdetail

theorem ai_chat {prompt : Param String} (h : RevealsNothing settings ai_provider (.ai_chat prompt))
    (he : (AdminRequest.ai_chat prompt).errors = []) : ai_provider ≠ "groq" := by
  rintro rfl
  have hsame := h.same_answer (.with_user (passing_user 0 .absent .absent .absent) 0 0)
  have hsaid := same_result (count_chat.spec _) (fun _ _ => AdminResponse.response.inj) he hsame
  simp [Db.with_user, Db.blank, Db.start] at hsaid

end RevealsNothing

/-! ## All endpoints -/

theorem RevealsNothing.closed (h : RevealsNothing settings ai_provider request) :
    request.Closed ai_provider := by
  by_cases he : request.errors = []
  · refine Or.inr ?_
    cases request with
    | update_user_status user_id is_active => trivial
    | update_user_role user_id is_admin => trivial
    | verify_user user_id => trivial
    | get_users page is_active is_verified is_admin => exact h.get_users he
    | get_user_transactions user_id page => exact h.get_user_transactions he
    | get_user_subscriptions user_id page => exact h.get_user_subscriptions he
    | get_transactions page => exact h.get_transactions he
    | get_subscriptions page => exact h.get_subscriptions he
    | get_dashboard_stats => exact h.get_dashboard_stats
    | get_user_details user_id => exact h.get_user_details he
    | get_transaction_by_id payment_id => exact h.get_transaction_by_id he
    | get_subscription_by_id sub_id => exact h.get_subscription_by_id he
    | ai_chat prompt => exact h.ai_chat he
  · exact Or.inl he

/-- The endpoints that ask for an admin are closed, and so are requests that are
refused before they get to the data. Every other one tells anyone. -/
theorem reveals_nothing_iff_closed (settings : Settings) (ai_provider : String)
    (request : AdminRequest) :
    RevealsNothing settings ai_provider request ↔ request.Closed ai_provider :=
  ⟨RevealsNothing.closed, AdminRequest.Closed.reveals_nothing⟩

end

namespace Sample

/-- `GET /users`. -/
def list_users : AdminRequest := .get_users ⟨.absent, .absent⟩ .absent .absent .absent

/-- Without a header. -/
def listing : M AdminResponse :=
  list_users.respond settings count_engine ⟨"groq", count_create⟩ "" .absent

end Sample

open Sample in
/-- Eva's row goes to a caller without a header, with the hash of her password. -/
theorem users_are_listed_to_anyone :
    (listing.run opened.world).1 = .ok (.users ⟨[⟨0, eva⟩], 1, 10, 0, false, none, none⟩) ∧
      (listing.run (opened.world.with_db .blank)).1 =
        .ok (.users ⟨[], 0, 10, 0, false, none, none⟩) ∧
      ¬ RevealsNothing settings "groq" list_users := by
  have hopened : (listing.run opened.world).1 =
      .ok (.users ⟨[⟨0, eva⟩], 1, 10, 0, false, none, none⟩) := by decide
  have hblank : (listing.run (opened.world.with_db .blank)).1 =
      .ok (.users ⟨[], 0, 10, 0, false, none, none⟩) := by decide
  refine ⟨hopened, hblank, fun h => ?_⟩
  have hsame := (h count_engine count_create "" .absent opened.world .blank ?_ rfl).1
  · rw [← listing, hopened, hblank] at hsame
    simp at hsame
  · intro admin hadmin
    cases hadmin.token

end saas
