import Tlrpc.ActiveRequests
import Tlrpc.ApplicationResult
import Tlrpc.WriterLoop

namespace Tlrpc

/-- Whether an intent carries an `rpc_result` of the request, a result or an error. -/
def MessageIntent.answers (id : Int) : MessageIntent → Bool
  | .rpcResult requestMessageID _ => requestMessageID = id
  | .rpcError requestMessageID _ _ => requestMessageID = id
  | _ => false

def Intent.answers (id : Int) : Intent → Bool
  | .message m => m.answers id
  | .batch items => items.any (·.answers id)
  | _ => false

/-- Where a handler's goroutine is: before, between and in its `Submit` calls, or in `Complete`. -/
inductive ReplyStage
  | dispatching
  | submitting (rest : List Intent)
  | inSubmit (call : CallID) (rest : List Intent)
  | returning
  | ended
  | done

/-- One request. `stored` records an answer in the store, `dropped` a `Drop` that saw it running. -/
structure RunningRequest where
  routed : RoutedMessage
  request : RequestRef
  ctx : ContextID
  writer : WriterLoop
  registry : ActiveRequestRegistry
  handler : ReplyStage
  replies : List CallID
  stored : Bool
  dropping : Option RequestRef
  dropped : Bool

inductive ReplyOp
  | writer (op : WriterOp)
  | dispatched (outcome : Outcome)
  | dependencyError (timeout : Bool)
  | failed (canceled : Bool)
  | submit (call : CallID)
  | submitReturned
  | applied
  | endRegistration (success : Bool)
  | cancelRegistration
  | drop (id : Int)
  | dropCancel
  | beginBatch (ids : List Int)
  | endOther (request : RequestRef) (success : Bool)
  | cancelAll (order : List (Int × RequestRef))

namespace RunningRequest

def id (s : RunningRequest) : Int := s.routed.message.messageID

def start (routed : RoutedMessage) (request : RequestRef) (ctx : ContextID) (writer : WriterLoop)
    (registry : ActiveRequestRegistry) : RunningRequest :=
  ⟨routed, request, ctx, writer, registry, .dispatching, [], false, none, false⟩

def answersIn (s : RunningRequest) (group : List CallID) : Bool := group.any (· ∈ s.replies)

/-- Whether a step of the writer gives an answer of the handler to the store. -/
def stores (s : RunningRequest) (op : WriterOp) : Bool :=
  match op, s.writer.stage with
  | .retain _ _, .retaining job _ => s.answersIn job.group
  | _, _ => false

def cancelRequest (s : RunningRequest) (request : RequestRef) : RunningRequest :=
  { s with
    registry := s.registry.cancel request
    writer := if request = s.request then
        { s.writer with canceled := Function.update s.writer.canceled s.ctx true }
      else s.writer }

/-- The handler's error retires the lease unless it is `context.Canceled`. -/
def fail (s : RunningRequest) (canceled : Bool) : RunningRequest :=
  { s with
    handler := .returning
    writer := { s.writer with active := s.writer.active && canceled } }

def submit (s : RunningRequest) (call : CallID) : Option RunningRequest :=
  match s.handler with
  | .submitting (intent :: rest) =>
    (s.writer.request call ⟨s.ctx, .submit intent⟩).map fun writer =>
      { s with
        writer := writer
        handler := .inSubmit call rest
        replies := if intent.answers s.id then s.replies ++ [call] else s.replies }
  | _ => none

def submitReturned (s : RunningRequest) : Option RunningRequest :=
  match s.handler with
  | .inSubmit call rest =>
    match s.writer.calls call with
    | some ⟨_, .returned response, _⟩ =>
      match response.err with
      | none => some { s with handler := .submitting rest }
      | some err => some (s.fail (err = .canceled))
    | _ => none
  | _ => none

def drop (s : RunningRequest) (id : Int) : Option RunningRequest :=
  match s.dropping, s.registry.active.lookup id with
  | none, some request =>
    some { s with registry := s.registry.drop id, dropping := some request }
  | none, none => some s
  | some _, _ => none

def dropCancel (s : RunningRequest) : Option RunningRequest :=
  s.dropping.map fun request =>
    { s.cancelRequest request with
      dropping := none
      dropped := s.dropped || request = s.request }

def step (s : RunningRequest) : ReplyOp → Option RunningRequest
  | .writer op => (s.writer.step op).map fun writer =>
      { s with writer := writer, stored := s.stored || s.stores op }
  | .dispatched outcome =>
    match s.handler with
    | .dispatching =>
      if validateOutcome outcome then
        some { s with handler := .submitting (appliedIntents s.routed outcome) }
      else some (s.fail false)
    | _ => none
  | .dependencyError timeout =>
    match s.handler with
    | .dispatching =>
      let message := asciiBytes (if timeout then "MSG_WAIT_TIMEOUT" else "MSG_WAIT_FAILED")
      some { s with handler := .submitting [.message (.rpcError s.id 500 message)] }
    | _ => none
  | .failed canceled =>
    match s.handler with
    | .dispatching => some (s.fail canceled)
    | _ => none
  | .submit call => s.submit call
  | .submitReturned => s.submitReturned
  | .applied =>
    match s.handler with
    | .submitting [] => some { s with handler := .returning }
    | _ => none
  | .endRegistration success =>
    match s.handler with
    | .returning =>
      some { s with
        handler := .ended
        registry := s.registry.finishLocked s.id s.request success }
    | _ => none
  | .cancelRegistration =>
    match s.handler with
    | .ended => some { s.cancelRequest s.request with handler := .done }
    | _ => none
  | .drop id => s.drop id
  | .dropCancel => s.dropCancel
  | .beginBatch ids => some { s with registry := (s.registry.beginBatch ids).2 }
  | .endOther request success =>
    if request = s.request then none
    else some { s with
      registry := s.registry.finishLocked (s.registry.requests request).id request success }
  | .cancelAll order =>
    if order.Perm (s.registry.active.entries.map fun e => (e.1, e.2)) then
      some ((order.map Prod.snd).foldl cancelRequest { s with registry := s.registry.cancelAll order })
    else none

/-- A `Drop` cancels this request before its answer is stored or its `lease.Save` has begun. -/
def Timely (s : RunningRequest) : ReplyOp → Prop
  | .dropCancel => s.dropping = some s.request →
    s.stored = false ∧ ∀ group ∈ s.writer.stage.committing, s.answersIn group = false
  | _ => True

instance (s : RunningRequest) (op : ReplyOp) : Decidable (s.Timely op) := by
  unfold Timely
  split <;> infer_instance

end RunningRequest

end Tlrpc
