-- The conversation with the assistant: the loop of `call_ai_model`, and the loop of
-- `dispatch_tool` inside of it, over whatever the model answers and whatever other
-- requests do meanwhile.
import SaasBackend.AdminAccess
import SaasBackend.Runs
import Mathlib.Data.List.Forall2

open async

namespace saas

/-! ## The two loops -/

/-- What the response to one request says: tool calls, where the provider may have
left out the list of them, or another finish reason. The request may fail as well. -/
inductive Answer where
  | stop (content : Option String)
  | tool_calls (tool_calls : Option (List ToolCall))
  | fails (e : Err)

/-- Where `call_ai_model` is: it waits for a response; it is in the loop of
`dispatch_tool`, with the responses so far and the calls that are left; or it is over. -/
inductive Place where
  | waiting
  | dispatching (calls : List ToolCall) (responses : List ChatMessage) (left : List ToolCall)
  | ended (result : Except Err (Option String))

/-- The messages, and all the requests that have been sent. -/
structure Chat where
  messages : List ChatMessage
  place : Place
  sent : List (List ChatMessage)

inductive Turn where
  | answer (answer : Answer)
  | tool (outcome : Except Err ChatMessage)
  | request

namespace Chat

/-- `create(messages = messages)`. -/
def request (messages : List ChatMessage) (sent : List (List ChatMessage)) : Chat :=
  ⟨messages, .waiting, sent ++ [messages]⟩

def start (system_message prompt : String) : Chat :=
  request [.system system_message, .user prompt] []

def next (c : Chat) (turn : Turn) : Chat :=
  match c.place, turn with
  | .waiting, .answer (.stop content) => { c with place := .ended (.ok content) }
  | .waiting, .answer (.tool_calls none) => { c with place := .ended (.error .typeError) }
  | .waiting, .answer (.tool_calls (some calls)) => { c with place := .dispatching calls [] calls }
  | .waiting, .answer (.fails e) => { c with place := .ended (.error e) }
  | .dispatching calls responses (_ :: left), .tool (.ok response) =>
    { c with place := .dispatching calls (responses ++ [response]) left }
  | .dispatching _ _ (_ :: _), .tool (.error e) => { c with place := .ended (.error e) }
  | .dispatching calls responses [], .request =>
    request (c.messages ++ .assistant calls :: responses) c.sent
  | _, _ => c

end Chat

section

variable (engine : SqlEngine)

/-- The model may answer anything. -/
def conversation : System Chat Turn where
  enabled c turn := match c.place, turn with
    | .waiting, .answer _ => True
    | .dispatching _ _ (call :: _), .tool outcome =>
      (AiSerivce.dispatch_call engine call).Yields outcome
    | .dispatching _ _ [], .request => True
    | _, _ => False
  next := Chat.next

/-- A conversation that goes on from one place to another. -/
abbrev Chat.GoesOn (c : Chat) (turns : List Turn) (d : Chat) : Prop :=
  (conversation engine).Run (fun _ _ => True) c turns d

end

/-! ## Messages in order -/

/-- The reply to a call, under its id. -/
def RepliesTo (call : ToolCall) (response : ChatMessage) : Prop :=
  ∃ content, response = .tool call.id content

/-- A message with tool calls, and right after it one reply to each, in their order. -/
structure Round where
  calls : List ToolCall
  responses : List ChatMessage
  replies : List.Forall₂ RepliesTo calls responses

def Round.messages (r : Round) : List ChatMessage := .assistant r.calls :: r.responses

/-- The one system and the one user message, and then nothing but rounds. -/
def WellFormed (system_message prompt : String) (messages : List ChatMessage) : Prop :=
  ∃ rounds : List Round,
    messages = .system system_message :: .user prompt :: rounds.flatMap Round.messages

section

variable {engine : SqlEngine} {system_message prompt : String} {call : ToolCall}
  {calls left : List ToolCall} {messages responses : List ChatMessage} {c d : Chat}
  {turn : Turn} {turns : List Turn}

theorem WellFormed.round (h : WellFormed system_message prompt messages)
    (hreplies : List.Forall₂ RepliesTo calls responses) :
    WellFormed system_message prompt (messages ++ .assistant calls :: responses) := by
  obtain ⟨rounds, rfl⟩ := h
  refine ⟨rounds ++ [⟨calls, responses, hreplies⟩], ?_⟩
  rw [List.flatMap_append, List.flatMap_singleton]
  rfl

/-! ## One tool call -/

/-- The names that `dispatch_tool` knows. -/
def tool_names : List String := ["get_view_columns", "execute_sql"]

/-- A call that succeeds is of a known tool, and is replied to under its id. -/
theorem AiSerivce.dispatch_call.yields {response : ChatMessage}
    (h : (dispatch_call engine call).Yields (.ok response)) :
    call.name ∈ tool_names ∧ RepliesTo call response := by
  unfold dispatch_call at h
  split at h
  · cases h
  split at h
  · rename_i hname
    obtain ⟨cols, _, hpure⟩ := h.bind_ok
    cases hpure
    exact ⟨by rw [hname]; exact List.mem_cons_self, _, rfl⟩
  split at h
  · rename_i hname
    obtain ⟨result, _, hencoded⟩ := h.bind_ok
    obtain ⟨json, _, hpure⟩ := hencoded.bind_ok
    cases hpure
    exact ⟨by rw [hname]; exact List.mem_cons_of_mem _ List.mem_cons_self, _, rfl⟩
  · cases h

/-! ## One turn -/

/-- The replies so far are those to the calls that are no longer left. -/
def Place.InOrder : Place → Prop
  | .dispatching calls responses left =>
    ∃ done, calls = done ++ left ∧ List.Forall₂ RepliesTo done responses
  | _ => True

structure Chat.InOrder (system_message prompt : String) (c : Chat) : Prop where
  messages : WellFormed system_message prompt c.messages
  sent : ∀ messages ∈ c.sent, WellFormed system_message prompt messages
  place : c.place.InOrder

theorem Chat.InOrder.request {sent : List (List ChatMessage)}
    (h : WellFormed system_message prompt messages)
    (hsent : ∀ messages ∈ sent, WellFormed system_message prompt messages) :
    (Chat.request messages sent).InOrder system_message prompt where
  messages := h
  sent := by
    intro m hm
    rcases List.mem_append.mp hm with hm | hm
    · exact hsent m hm
    · rw [List.mem_singleton.mp hm]
      exact h
  place := trivial

theorem Chat.InOrder.next (h : c.InOrder system_message prompt)
    (he : (conversation engine).enabled c turn) : (c.next turn).InOrder system_message prompt := by
  obtain ⟨messages, place, sent⟩ := c
  cases place with
  | ended => exact he.elim
  | waiting =>
    cases turn with
    | tool => exact he.elim
    | request => exact he.elim
    | answer answer =>
      rcases answer with content | (_ | calls) | e
      · exact ⟨h.messages, h.sent, trivial⟩
      · exact ⟨h.messages, h.sent, trivial⟩
      · exact ⟨h.messages, h.sent, [], rfl, .nil⟩
      · exact ⟨h.messages, h.sent, trivial⟩
  | dispatching calls responses left =>
    obtain ⟨done, hcalls, hreplies⟩ := h.place
    cases left with
    | nil =>
      cases turn with
      | answer => exact he.elim
      | tool => exact he.elim
      | request =>
        -- all calls are replied to, and the next request is sent
        rw [List.append_nil] at hcalls
        subst hcalls
        exact .request (h.messages.round hreplies) h.sent
    | cons call left =>
      cases turn with
      | answer => exact he.elim
      | request => exact he.elim
      | tool outcome =>
        rcases outcome with e | response
        · exact ⟨h.messages, h.sent, trivial⟩
        · have hreply : RepliesTo call response := (AiSerivce.dispatch_call.yields he).2
          refine ⟨h.messages, h.sent, done ++ [call], ?_, ?_⟩
          · rw [hcalls, List.append_assoc]
            rfl
          · exact List.rel_append hreplies (.cons hreply .nil)

theorem Chat.InOrder.start : (Chat.start system_message prompt).InOrder system_message prompt :=
  .request ⟨[], rfl⟩ fun _ h => by cases h

theorem Chat.GoesOn.in_order (h : c.GoesOn engine turns d) (h0 : c.InOrder system_message prompt) :
    d.InOrder system_message prompt :=
  h.invariant h0 fun _ _ hi he _ => hi.next he

/-! ## The end of a conversation -/

/-- No request follows: the conversation is over, or the tool call at hand is of an
unknown tool. -/
def Place.Stuck : Place → Prop
  | .ended _ => True
  | .dispatching _ _ (call :: _) => call.name ∉ tool_names
  | _ => False

theorem Chat.next_stuck (h : c.place.Stuck) (he : (conversation engine).enabled c turn) :
    (c.next turn).place.Stuck ∧ (c.next turn).sent = c.sent := by
  obtain ⟨messages, place, sent⟩ := c
  rcases place with _ | ⟨calls, responses, _ | ⟨call, left⟩⟩ | result
  · exact h.elim
  · exact h.elim
  · cases turn with
    | answer => exact he.elim
    | request => exact he.elim
    | tool outcome =>
      rcases outcome with e | response
      · exact ⟨trivial, rfl⟩
      · exact absurd (AiSerivce.dispatch_call.yields he).1 h
  · exact he.elim

theorem Chat.GoesOn.stuck (h : c.GoesOn engine turns d) (hc : c.place.Stuck) :
    d.sent = c.sent := by
  have hend : d.place.Stuck ∧ d.sent = c.sent := by
    refine h.invariant (I := fun d => d.place.Stuck ∧ d.sent = c.sent) ⟨hc, rfl⟩ ?_
    intro a turn ha he _
    obtain ⟨hstuck, hsent⟩ := Chat.next_stuck ha.1 he
    exact ⟨hstuck, hsent.trans ha.2⟩
  exact hend.2

/-- A tool call that fails ends the conversation. -/
theorem Chat.next_fails {e : Err} (he : (conversation engine).enabled c (.tool (.error e))) :
    (c.next (.tool (.error e))).place.Stuck ∧ (c.next (.tool (.error e))).sent = c.sent := by
  obtain ⟨messages, place, sent⟩ := c
  rcases place with _ | ⟨calls, responses, _ | ⟨call, left⟩⟩ | result
  · exact he.elim
  · exact he.elim
  · exact ⟨trivial, rfl⟩
  · exact he.elim

/-! ## A client -/

def Reply.answer : Reply → Answer
  | .stop content => .stop content
  | .tool_calls calls _ => .tool_calls (some calls)

def Reply.after : Reply → List ChatMessage → Option Reply
  | .stop _, _ => none
  | .tool_calls _ next, messages => some (next messages)

/-- What a client replies to the last one of some requests. -/
def AiClient.reply (client : AiClient) : List (List ChatMessage) → Option Reply
  | [] => none
  | first :: later =>
    later.foldl (fun reply messages => reply.bind (·.after messages)) (some (client.create first))

/-- Each answer is the one that the client gives to the requests that have been sent. -/
def AiClient.Answers (client : AiClient) (c : Chat) : Turn → Prop
  | .answer answer => (client.reply c.sent).map Reply.answer = some answer
  | _ => True

theorem AiClient.reply_concat {client : AiClient} {sent : List (List ChatMessage)} {reply : Reply}
    (h : client.reply sent = some reply) (messages : List ChatMessage) :
    client.reply (sent ++ [messages]) = reply.after messages := by
  cases sent with
  | nil => cases h
  | cons first later =>
    change later.foldl _ _ = _ at h
    rw [List.cons_append, AiClient.reply, List.foldl_concat, h, Option.bind_some]

/-- Where the loop of `dispatch_tool` leads. -/
def Place.dispatched (calls : List ToolCall) (responses : List ChatMessage) :
    Except Err (List ChatMessage) → Place
  | .ok replies => .dispatching calls (responses ++ replies) []
  | .error e => .ended (.error e)

theorem AiSerivce.dispatch_tool.goes_on (client : AiClient) (messages : List ChatMessage)
    (calls left : List ToolCall) (sent : List (List ChatMessage)) (w : World)
    (responses : List ChatMessage) :
    ∃ turns, (conversation engine).Run client.Answers
      ⟨messages, .dispatching calls responses left, sent⟩ turns
      ⟨messages, .dispatched calls responses ((dispatch_tool engine left).run w).1, sent⟩ := by
  induction left generalizing w responses with
  | nil =>
    refine ⟨[], ?_⟩
    have hnil : Place.dispatched calls responses ((dispatch_tool engine []).run w).1 =
        .dispatching calls responses [] := by
      simp [dispatch_tool, Place.dispatched]
    rw [hnil]
    exact .nil _
  | cons call left ih =>
    have hfirst : (conversation engine).Run client.Answers
        ⟨messages, .dispatching calls responses (call :: left), sent⟩
        [.tool ((dispatch_call engine call).run w).1]
        (Chat.next ⟨messages, .dispatching calls responses (call :: left), sent⟩
          (.tool ((dispatch_call engine call).run w).1)) :=
      .one _ (Proc.Yields.of_run _ w) trivial
    rcases hcall : (dispatch_call engine call).run w with ⟨e | response, w'⟩
    · rw [hcall] at hfirst
      refine ⟨[.tool (.error e)], ?_⟩
      rw [dispatch_tool, Proc.run_bind_error hcall]
      exact hfirst
    · rw [hcall] at hfirst
      obtain ⟨turns, hrest⟩ := ih w' (responses ++ [response])
      refine ⟨[.tool (.ok response)] ++ turns, ?_⟩
      rw [dispatch_tool, Proc.run_bind_ok hcall, Proc.run_bind]
      rcases hleft : (dispatch_tool engine left).run w' with ⟨e | replies, w''⟩
      · rw [hleft] at hrest
        exact hfirst.append hrest
      · rw [hleft] at hrest
        have happend : responses ++ [response] ++ replies = responses ++ response :: replies := by
          rw [List.append_assoc]
          rfl
        rw [Place.dispatched, happend] at hrest
        exact hfirst.append hrest

theorem AiClient.answers (engine : SqlEngine) {client : AiClient} {reply : Reply}
    (messages : List ChatMessage) {sent : List (List ChatMessage)}
    (hreply : client.reply sent = some reply) :
    (conversation engine).Run client.Answers ⟨messages, .waiting, sent⟩ [.answer reply.answer]
      (Chat.next ⟨messages, .waiting, sent⟩ (.answer reply.answer)) := by
  refine .one _ trivial ?_
  change (client.reply sent).map Reply.answer = _
  rw [hreply, Option.map_some]

theorem AiSerivce.converse.goes_on {client : AiClient} (reply : Reply)
    (messages : List ChatMessage) (sent : List (List ChatMessage)) (w : World)
    (hreply : client.reply sent = some reply) :
    ∃ turns d, (conversation engine).Run client.Answers ⟨messages, .waiting, sent⟩ turns d ∧
      d.place = .ended ((converse engine reply messages).run w).1 := by
  induction reply generalizing messages sent w with
  | stop content => exact ⟨_, _, AiClient.answers engine messages hreply, rfl⟩
  | tool_calls calls next ih =>
    have hanswer := AiClient.answers engine messages hreply
    obtain ⟨turns, htools⟩ := dispatch_tool.goes_on client messages calls calls sent w []
    rw [converse, Proc.run_bind]
    rcases hcalls : (dispatch_tool engine calls).run w with ⟨e | replies, w'⟩
    · rw [hcalls] at htools
      exact ⟨_, _, hanswer.append htools, rfl⟩
    · rw [hcalls] at htools
      have hrequest : (conversation engine).Run client.Answers
          ⟨messages, .dispatching calls replies [], sent⟩ [.request]
          (Chat.next ⟨messages, .dispatching calls replies [], sent⟩ .request) :=
        .one _ trivial trivial
      obtain ⟨turns', d, hrest, hd⟩ := ih (messages ++ .assistant calls :: replies)
        (messages ++ .assistant calls :: replies)
        (sent ++ [messages ++ .assistant calls :: replies]) w'
        (AiClient.reply_concat hreply _)
      exact ⟨_, d, ((hanswer.append htools).append hrequest).append hrest, hd⟩

/-- What `call_ai_model` gives when it runs alone, a conversation ends with, in which
each answer is that of the client to the messages that have been sent. -/
theorem AiSerivce.call_ai_model.goes_on (client : AiClient) (w : World) :
    ∃ turns d, (conversation engine).Run client.Answers (Chat.start system_message prompt) turns d ∧
      d.place = .ended ((call_ai_model engine client system_message prompt).run w).1 :=
  converse.goes_on _ _ _ w rfl

/-! ## Every request -/

/-- Every request has the two messages of the start and then rounds only. After a
tool call that fails, or that is of an unknown tool, no request is sent. -/
theorem conversation_stays_well_formed
    (h : (Chat.start system_message prompt).GoesOn engine turns c) :
    (∀ messages ∈ c.sent, WellFormed system_message prompt messages) ∧
    (∀ e, (conversation engine).enabled c (.tool (.error e)) → ∀ later d,
      (c.next (.tool (.error e))).GoesOn engine later d → d.sent = c.sent) ∧
    ∀ calls responses call left, c.place = .dispatching calls responses (call :: left) →
      call.name ∉ tool_names → ∀ later d, c.GoesOn engine later d → d.sent = c.sent := by
  refine ⟨(h.in_order .start).sent, ?_, ?_⟩
  · intro e he later d hlater
    obtain ⟨hstuck, hsent⟩ := Chat.next_fails he
    rw [hlater.stuck hstuck, hsent]
  · intro calls responses call left hplace hname later d hlater
    refine hlater.stuck ?_
    rw [hplace]
    exact hname

end

namespace Sample

def view_call : ToolCall := ⟨"a", "get_view_columns", some { view_name := some "users" }⟩

def count_call : ToolCall :=
  ⟨"b", "execute_sql", some { sql := some count_users, mode := some "count" }⟩

def drop_call : ToolCall := ⟨"c", "drop_table", some {}⟩

/-- Two calls in one message, and then one of no known tool. -/
def two_rounds : List Turn :=
  [.answer (.tool_calls (some [view_call, count_call])), .tool (.ok (.tool "a" (.columns []))),
    .tool (.ok (.tool "b" (.result (count_json 0)))), .request,
    .answer (.tool_calls (some [drop_call]))]

def after_two_rounds : Chat := (conversation count_engine).exec (.start "S" "P") two_rounds

theorem two_rounds_go_on :
    (Chat.start "S" "P").GoesOn count_engine two_rounds after_two_rounds := by
  have hview : ((AiSerivce.dispatch_call count_engine view_call).run { db := Db.blank }).1 =
      .ok (.tool "a" (.columns [])) := rfl
  have hcount : ((AiSerivce.dispatch_call count_engine count_call).run { db := Db.blank }).1 =
      .ok (.tool "b" (.result (count_json 0))) := by decide +kernel
  refine .of_path ?_
  exact ⟨trivial, trivial, hview ▸ .of_run _ _, trivial, hcount ▸ .of_run _ _, trivial, trivial,
    trivial, trivial, trivial, trivial⟩

end Sample

open Sample in
theorem conversation_stays_well_formed_sample :
    WellFormed "S" "P" [.system "S", .user "P", .assistant [view_call, count_call],
        .tool "a" (.columns []), .tool "b" (.result (count_json 0))] ∧
      ∀ later d, after_two_rounds.GoesOn count_engine later d → d.sent.length = 2 := by
  obtain ⟨hformed, _, hunknown⟩ := conversation_stays_well_formed two_rounds_go_on
  refine ⟨hformed _ (by decide +kernel), fun later d h => ?_⟩
  rw [hunknown _ _ _ _ rfl (by decide) later d h]
  rfl

end saas
