import Tlrpc.Coordinator
import Tlrpc.ReliabilityStore
import Tlrpc.Writer

namespace Tlrpc

inductive WriterOperation
  | submit (intent : Intent)
  | acknowledge (messageIDs : List Int)
  | inspect (messageID : Int)
  | replayResponse (messageID : Int)

structure WriterRequest where
  ctx : ContextID
  operation : WriterOperation

structure OutboundReliabilityState where
  known : Bool
  acknowledged : Bool
  resendEligible : Bool
deriving DecidableEq

def OutboundReliabilityState.unknown : OutboundReliabilityState := ⟨false, false, false⟩

inductive WriterError
  | canceled
  | leaseEnded
  | encoding
  | expired
  | retainedMessageNotFound (messageID : Int)
  | sink
deriving DecidableEq

structure WriterResponse where
  state : OutboundReliabilityState
  err : Option WriterError
deriving DecidableEq

def WriterResponse.failure (err : WriterError) : WriterResponse := ⟨.unknown, some err⟩

/-- A call of `Writer.request`: in its first `select`, in its second one, or returned. -/
inductive CallStage
  | offering
  | handed
  | returned (response : WriterResponse)
deriving DecidableEq

/-- `reply` is the channel that the writer answers the call on. -/
structure WriterCall where
  request : WriterRequest
  stage : CallStage
  reply : Option WriterResponse

/-- Why `Writer.run` returns, and whether the group was cancelled before `WriteFrame`. -/
inductive WriterEnding
  | leaseEnded
  | close
  | failed (group : List CallID) (canceledBefore : Bool)
deriving DecidableEq

/-- The requests that are processed together, and the one received after them. -/
structure WriterJob where
  group : List CallID
  pending : Option CallID
deriving DecidableEq

/-- `rest` a `Resend` still has to write; `late` is a context cancelled as `WriteFrame` began. -/
inductive WriterStage
  | selecting (pending : Option CallID)
  | collecting (group : List CallID) (encodedBytes : Nat)
  | processing (job : WriterJob)
  | saving (job : WriterJob) (prepared : PreparedFrame) (next : Snapshot)
  | storing (job : WriterJob) (prepared : PreparedFrame) (next : Snapshot)
  | retaining (job : WriterJob) (prepared : PreparedFrame)
  | resending (job : WriterJob) (messageIDs : List Int)
  | entering (job : WriterJob) (frame : List UInt8) (rest : List Int) (response : WriterResponse)
  | checking (job : WriterJob) (frame : List UInt8) (rest : List Int) (response : WriterResponse)
      (late : Bool)
  | writing (job : WriterJob) (frame : List UInt8) (rest : List Int) (response : WriterResponse)
      (late : Bool)
  | replying (job : WriterJob) (response : WriterResponse) (ending : Option WriterEnding)
  | stopped (ending : WriterEnding)

def WriterStage.job : WriterStage → Option WriterJob
  | .selecting _ | .collecting _ _ | .stopped _ => none
  | .processing job | .saving job _ _ | .storing job _ _ | .retaining job _ | .resending job _
  | .entering job _ _ _ | .checking job _ _ _ _ | .writing job _ _ _ _ | .replying job _ _ => some job

def WriterStage.inHand : WriterStage → List CallID
  | .selecting pending => pending.toList
  | .collecting group _ => group
  | .stopped _ => []
  | .processing job | .saving job _ _ | .storing job _ _ | .retaining job _ | .resending job _
  | .entering job _ _ _ | .checking job _ _ _ _ | .writing job _ _ _ _ | .replying job _ _ =>
    job.group ++ job.pending.toList

/-- The group whose `lease.Save` has begun and whose messages are not in the store yet. -/
def WriterStage.committing : WriterStage → Option (List CallID)
  | .storing job _ _ | .retaining job _ => some job.group
  | _ => none

def WriterStage.sending : WriterStage → Option (List CallID)
  | .resending job _ | .entering job _ _ _ | .checking job _ _ _ _ | .writing job _ _ _ _ =>
    some job.group
  | _ => none

/-- `comparable`: contexts that Go can compare. `strictSink`: no frame for a cancelled one. -/
structure WriterConfig where
  maxEncodedBytes : Nat
  comparable : ContextID → Bool
  strictSink : Bool

/-- A writer with its lease, store and callers. `frames` are written, with their calls. -/
structure WriterLoop where
  config : WriterConfig
  canceled : ContextID → Bool
  calls : CallID → Option WriterCall
  snapshot : Snapshot
  active : Bool
  store : ReliabilityStore
  stage : WriterStage
  frames : List (List CallID × List UInt8)

def newWriter (config : WriterConfig) (canceled : ContextID → Bool) (snapshot : Snapshot)
    (store : ReliabilityStore) : WriterLoop where
  config := config
  canceled := canceled
  calls _ := none
  snapshot := snapshot
  active := true
  store := store
  stage := .selecting none
  frames := []

inductive WriterOp
  | request (call : CallID) (request : WriterRequest)
  | receiveReply (call : CallID)
  | giveUp (call : CallID)
  | observeDone (call : CallID)
  | cancel (ctx : ContextID)
  | endLease
  | saveOther (next : Snapshot)
  | observeLease
  | receive (call : CallID)
  | resume
  | collect (call : CallID)
  | collected
  | prepare (ids : Nat → Int) (encrypt : InnerData → KeyID → Option (List UInt8)) (now : Time)
  | control (clock : Nat → Time) (order : ReliabilityStore.MapOrder)
  | checkSave
  | storeSave (ok : Bool)
  | retain (sentAt : Time) (clock : Nat → Time)
  | lookupForResend (now : Time)
  | enterWrite
  | checkWrite (ok : Bool)
  | finishWrite (ok : Bool)
  | reply

def maxOpportunisticPushBatch : Nat := 64
def messageContainerHeaderBytes : Nat := 8
def messageContainerChildBytes : Nat := 16

def pushRequest (request : WriterRequest) : Option (List UInt8) :=
  match request.operation with
  | .submit (.message (.push body)) => some body
  | _ => none

/-- The `Put` calls of one frame; each of them reads the clock. -/
def retainMessages (frame : List UInt8) (sentAt : Time) :
    (Nat → Time) → ReliabilityStore → List AssignedMessage → Bool × ReliabilityStore
  | _, store, [] => (true, store)
  | clock, store, m :: rest =>
    match store.put (clock 0) ⟨m.messageID, m.requestMessageID, m.sequenceNo, frame, sentAt, false⟩ with
    | (.error _, store) => (false, store)
    | (.ok _, store) => retainMessages frame sentAt (fun k => clock (k + 1)) store rest

def acknowledgeAll : (Nat → Time) → ReliabilityStore → List Int → ReliabilityStore
  | _, store, [] => store
  | clock, store, id :: rest =>
    acknowledgeAll (fun k => clock (k + 1)) (store.acknowledge (clock 0) id).2 rest

namespace WriterLoop

def setCall (w : WriterLoop) (call : CallID) (value : WriterCall) : WriterLoop :=
  { w with calls := Function.update w.calls call (some value) }

def requestOf (w : WriterLoop) (call : CallID) : Option WriterRequest :=
  (w.calls call).map (·.request)

def contextOf (w : WriterLoop) (group : List CallID) : Option ContextID :=
  group.head?.bind fun call => (w.requestOf call).map (·.ctx)

def groupCanceled (w : WriterLoop) (group : List CallID) : Bool :=
  (w.contextOf group).any w.canceled

def isStopped (w : WriterLoop) : Bool :=
  match w.stage with
  | .stopped _ => true
  | _ => false

def request (w : WriterLoop) (call : CallID) (request : WriterRequest) : Option WriterLoop :=
  match w.calls call with
  | none => some (w.setCall call ⟨request, .offering, none⟩)
  | some _ => none

def receiveReply (w : WriterLoop) (call : CallID) : Option WriterLoop :=
  match w.calls call with
  | some ⟨request, .handed, some response⟩ => some (w.setCall call ⟨request, .returned response, none⟩)
  | _ => none

/-- Both selects have a case for the caller's own context. -/
def giveUp (w : WriterLoop) (call : CallID) : Option WriterLoop :=
  match w.calls call with
  | some ⟨_, .returned _, _⟩ => none
  | some ⟨request, _, reply⟩ =>
    if w.canceled request.ctx then
      some (w.setCall call ⟨request, .returned (.failure .canceled), reply⟩)
    else none
  | none => none

/-- Both selects have a case for the writer's end; a reply that is there wins. -/
def observeDone (w : WriterLoop) (call : CallID) : Option WriterLoop :=
  match w.calls call with
  | some ⟨request, .offering, reply⟩ =>
    if w.isStopped then some (w.setCall call ⟨request, .returned (.failure .leaseEnded), reply⟩)
    else none
  | some ⟨request, .handed, none⟩ =>
    if w.isStopped then some (w.setCall call ⟨request, .returned (.failure .leaseEnded), none⟩)
    else none
  | _ => none

/-- The lease ends and the writer sees it at the head of its loop. -/
def observeLease (w : WriterLoop) : Option WriterLoop :=
  match w.stage with
  | .selecting _ => if w.active then none else some { w with stage := .stopped .leaseEnded }
  | _ => none

def startGroup (w : WriterLoop) (call : CallID) (request : WriterRequest) : WriterLoop :=
  let firstOverhead := messageContainerHeaderBytes + messageContainerChildBytes
  match pushRequest request with
  | some body =>
    if w.config.comparable request.ctx ∧ firstOverhead + body.length ≤ w.config.maxEncodedBytes then
      { w with stage := .collecting [call] (firstOverhead + body.length) }
    else { w with stage := .processing ⟨[call], none⟩ }
  | none => { w with stage := .processing ⟨[call], none⟩ }

def handOver (w : WriterLoop) (call : CallID) (request : WriterRequest) : WriterLoop :=
  w.setCall call ⟨request, .handed, none⟩

def receive (w : WriterLoop) (call : CallID) : Option WriterLoop :=
  match w.stage, w.calls call with
  | .selecting none, some ⟨request, .offering, _⟩ =>
    some ((w.handOver call request).startGroup call request)
  | _, _ => none

/-- The head of the loop with a request that was received with the previous group. -/
def resume (w : WriterLoop) : Option WriterLoop :=
  match w.stage with
  | .selecting (some call) =>
    if w.active then (w.requestOf call).map (w.startGroup call)
    else some { w with stage := .stopped .leaseEnded }
  | _ => none

def joins (w : WriterLoop) (group : List CallID) (encodedBytes : Nat) (next : WriterRequest) : Bool :=
  match pushRequest next with
  | some body =>
    w.contextOf group = some next.ctx ∧ w.config.comparable next.ctx ∧
      encodedBytes + (messageContainerChildBytes + body.length) ≤ w.config.maxEncodedBytes
  | none => false

def collect (w : WriterLoop) (call : CallID) : Option WriterLoop :=
  match w.stage, w.calls call with
  | .collecting group encodedBytes, some ⟨next, .offering, _⟩ =>
    if group.length < maxOpportunisticPushBatch then
      let w := w.handOver call next
      if w.joins group encodedBytes next then
        let added := messageContainerChildBytes + ((pushRequest next).getD []).length
        some { w with stage := .collecting (group ++ [call]) (encodedBytes + added) }
      else some { w with stage := .processing ⟨group, some call⟩ }
    else none
  | _, _ => none

/-- No further request is ready, or the group is full. -/
def collected (w : WriterLoop) : Option WriterLoop :=
  match w.stage with
  | .collecting group _ => some { w with stage := .processing ⟨group, none⟩ }
  | _ => none

def groupIntent (w : WriterLoop) (group : List CallID) : Option Intent :=
  match group with
  | [call] =>
    match w.requestOf call with
    | some ⟨_, .submit intent⟩ => some intent
    | _ => none
  | _ => some (.batch (group.filterMap fun call =>
      ((w.requestOf call).bind pushRequest).map MessageIntent.push))

def finish (w : WriterLoop) (job : WriterJob) (response : WriterResponse) : WriterLoop :=
  { w with stage := .replying job response none }

def fail (w : WriterLoop) (job : WriterJob) (err : WriterError) (canceledBefore : Bool) : WriterLoop :=
  { w with stage := .replying job (.failure err) (some (.failed job.group canceledBefore)) }

def failLease (w : WriterLoop) (job : WriterJob) : WriterLoop :=
  { w with stage := .replying job (.failure .leaseEnded) (some .leaseEnded) }

/-- `process` up to `lease.Save`. -/
def prepareGroup (w : WriterLoop) (ids : Nat → Int)
    (encrypt : InnerData → KeyID → Option (List UInt8)) (now : Time) : Option WriterLoop :=
  match w.stage with
  | .processing job =>
    match w.groupIntent job.group with
    | none => none
    | some .close => some { w with stage := .replying job ⟨.unknown, none⟩ (some .close) }
    | some (.resend messageIDs) => some { w with stage := .resending job messageIDs }
    | some intent =>
      if w.active = false then some (w.failLease job)
      else match prepare ⟨w.config.maxEncodedBytes, ids, encrypt, now⟩ w.snapshot intent with
        | none => some (w.fail job .encoding (w.groupCanceled job.group))
        | some (prepared, next) => some { w with stage := .saving job prepared next }
  | _ => none

/-- The operations other than `Submit`, up to a write of `ReplayResponse`. -/
def control (w : WriterLoop) (clock : Nat → Time) (order : ReliabilityStore.MapOrder) :
    Option WriterLoop :=
  match w.stage with
  | .processing job =>
    match job.group.head?.bind w.requestOf with
    | none => none
    | some request =>
      if w.canceled request.ctx then
        match request.operation with
        | .submit _ => none
        | _ => some (w.finish job (.failure .canceled))
      else match request.operation with
        | .submit _ => none
        | .acknowledge messageIDs =>
          some ({ w with store := acknowledgeAll clock w.store messageIDs }.finish job ⟨.unknown, none⟩)
        | .inspect messageID =>
          let found := w.store.lookup (clock 0) messageID
          let acknowledged := found.1.any (·.acknowledged)
          some ({ w with store := found.2 }.finish job
            ⟨⟨found.1.isSome, acknowledged, found.1.isSome && !acknowledged⟩, none⟩)
        | .replayResponse messageID =>
          let found := w.store.lookupResponse (clock 0) messageID order
          let response : WriterResponse := ⟨⟨found.1.isSome, false, false⟩, none⟩
          let w := { w with store := found.2 }
          match found.1 with
          | some message =>
            if message.acknowledged then some (w.finish job response)
            else some { w with stage := .entering job message.payload [] response }
          | none => some (w.finish job response)
  | _ => none

def checkSave (w : WriterLoop) : Option WriterLoop :=
  match w.stage with
  | .saving job prepared next =>
    if w.active = false then some (w.failLease job)
    else if w.groupCanceled job.group then some (w.fail job .canceled true)
    else some { w with stage := .storing job prepared next }
  | _ => none

/-- The store's `Save`, whose context ends with the caller's and with the lease. -/
def storeSave (w : WriterLoop) (ok : Bool) : Option WriterLoop :=
  match w.stage with
  | .storing job prepared next =>
    if ok then some { w with snapshot := next, stage := .retaining job prepared }
    else if w.groupCanceled job.group then some (w.fail job .canceled true)
    else if w.active = false then some (w.failLease job)
    else none
  | _ => none

def retain (w : WriterLoop) (sentAt : Time) (clock : Nat → Time) : Option WriterLoop :=
  match w.stage with
  | .retaining job prepared =>
    let result := retainMessages prepared.frame sentAt clock w.store prepared.messages
    let w := { w with store := result.2 }
    if result.1 then some { w with stage := .entering job prepared.frame [] ⟨.unknown, none⟩ }
    else some (w.fail job .expired (w.groupCanceled job.group))
  | _ => none

def lookupForResend (w : WriterLoop) (now : Time) : Option WriterLoop :=
  match w.stage with
  | .resending job [] => some (w.finish job ⟨.unknown, none⟩)
  | .resending job (messageID :: rest) =>
    let found := w.store.lookupForResend now messageID
    let w := { w with store := found.2 }
    match found.1 with
    | none => some (w.fail job (.retainedMessageNotFound messageID) (w.groupCanceled job.group))
    | some message => some { w with stage := .entering job message.payload rest ⟨.unknown, none⟩ }
  | _ => none

def enterWrite (w : WriterLoop) : Option WriterLoop :=
  match w.stage with
  | .entering job frame rest response =>
    some { w with stage := .checking job frame rest response (w.groupCanceled job.group) }
  | _ => none

/-- `WriteFrame` waits for its turn and looks at the context before it writes. -/
def checkWrite (w : WriterLoop) (ok : Bool) : Option WriterLoop :=
  match w.stage with
  | .checking job frame rest response late =>
    if ok then
      if w.config.strictSink ∧ w.groupCanceled job.group then none
      else some { w with stage := .writing job frame rest response late }
    else if w.groupCanceled job.group then some (w.fail job .sink late)
    else none
  | _ => none

/-- The frame goes out, unless the context is cancelled meanwhile. -/
def finishWrite (w : WriterLoop) (ok : Bool) : Option WriterLoop :=
  match w.stage with
  | .writing job frame rest response late =>
    if ok then
      let w := { w with frames := w.frames ++ [(job.group, frame)] }
      match rest with
      | [] => some (w.finish job response)
      | _ => some { w with stage := .resending job rest }
    else if w.groupCanceled job.group then some (w.fail job .sink late)
    else none
  | _ => none

def answer (w : WriterLoop) (response : WriterResponse) : List CallID → WriterLoop
  | [] => w
  | call :: rest =>
    match w.calls call with
    | some c => (w.setCall call { c with reply := some response }).answer response rest
    | none => w.answer response rest

def reply (w : WriterLoop) : Option WriterLoop :=
  match w.stage with
  | .replying job response ending =>
    let w := w.answer response job.group
    match ending with
    | none => some { w with stage := .selecting job.pending }
    | some ending => some { w with active := false, stage := .stopped ending }
  | _ => none

def step (w : WriterLoop) : WriterOp → Option WriterLoop
  | .request call request => w.request call request
  | .receiveReply call => w.receiveReply call
  | .giveUp call => w.giveUp call
  | .observeDone call => w.observeDone call
  | .cancel ctx => some { w with canceled := Function.update w.canceled ctx true }
  | .endLease => some { w with active := false }
  | .saveOther next => if w.active then some { w with snapshot := next } else none
  | .observeLease => w.observeLease
  | .receive call => w.receive call
  | .resume => w.resume
  | .collect call => w.collect call
  | .collected => w.collected
  | .prepare ids encrypt now => w.prepareGroup ids encrypt now
  | .control clock order => w.control clock order
  | .checkSave => w.checkSave
  | .storeSave ok => w.storeSave ok
  | .retain sentAt clock => w.retain sentAt clock
  | .lookupForResend now => w.lookupForResend now
  | .enterWrite => w.enterWrite
  | .checkWrite ok => w.checkWrite ok
  | .finishWrite ok => w.finishWrite ok
  | .reply => w.reply

/-- The group of a step, if `WriteFrame` is still to be entered for it. -/
def exposed (w : WriterLoop) : WriterOp → Option (List CallID)
  | .prepare _ _ _ =>
    match w.stage with
    | .processing job =>
      match w.groupIntent job.group with
      | none | some .close | some (.resend []) => none
      | some _ => some job.group
    | _ => none
  | .lookupForResend _ =>
    match w.stage with
    | .resending job (_ :: _) => some job.group
    | _ => none
  | .checkSave | .storeSave _ | .retain _ _ | .enterWrite => w.stage.job.map (·.group)
  | _ => none

/-- Up to the entry of `WriteFrame` no step finds its group's context cancelled. -/
def Steady (w : WriterLoop) (op : WriterOp) : Prop :=
  ∀ group ∈ w.exposed op, w.groupCanceled group = false

instance (w : WriterLoop) (op : WriterOp) : Decidable (w.Steady op) :=
  inferInstanceAs (Decidable (∀ _ ∈ _, _))

end WriterLoop

end Tlrpc
