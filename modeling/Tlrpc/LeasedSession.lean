import Tlrpc.Writer
import Tlrpc.StepSystem
import Tlrpc.SharedCell

namespace Tlrpc

/-- One encrypted frame, with the readings its validation will make. -/
structure Frame where
  inner : InnerData
  decode : List UInt8 → Except InboundError (List ContainerItem)
  clock : Nat → Nat → Time

/-- The reader in `handleEncrypted`, between its lease calls with a frame, then routing. -/
inductive Reader
  | idle
  | validated (loaded : Snapshot) (out : ValidatedInbound)
  | routing

/-- The writer goroutine inside `process`. Any error is fatal. -/
inductive WriterState
  | idle
  | prepared (loaded next : Snapshot)
  | stopped

/-- The users of `outcomeMu` that write the snapshot. -/
inductive OutcomeJob
  | applyMutations (mutations : List SessionMutation)
  | subscribeForPush
  | ensureNewSessionCreated (firstMessageID : Int)

def OutcomeJob.mutations : OutcomeJob → List SessionMutation
  | .applyMutations mutations => mutations
  | .subscribeForPush => [.setPushSubscription true]
  | .ensureNewSessionCreated firstMessageID => [.markNewSessionCreated firstMessageID]

inductive OutcomePhase
  | locked
  | loaded (snapshot next : Snapshot)
  | finished

/-- Who holds `outcomeMu`: the reader while it routes, or a handler goroutine. -/
structure OutcomeHolder where
  byReader : Bool
  job : OutcomeJob
  phase : OutcomePhase

/-- One leased session. The last three fields record what the run has done. -/
structure SessionState where
  key : SessionKey
  snapshot : Snapshot
  active : Bool
  validator : SessionValidator
  reader : Reader
  writer : WriterState
  outcome : Option OutcomeHolder
  acceptsPush : Bool
  accepted : List Int
  assigned : List AssignedMessage
  committed : List SessionMutation

def SessionState.acquired (snapshot : Snapshot) (validator : SessionValidator) : SessionState where
  key := snapshot.key
  snapshot := snapshot
  active := true
  validator := validator
  reader := .idle
  writer := .idle
  outcome := none
  acceptsPush := snapshot.pushSubscription
  accepted := []
  assigned := []
  committed := []

inductive SessionOp
  | readFrame (frame : Frame)
  | acceptFrame
  | refuseFrame
  | finishFrame
  | prepareWrite (env : WriterEnv) (intent : Intent)
  | commitWrite
  | failWrite
  | lockOutcome (byReader : Bool) (job : OutcomeJob)
  | loadOutcome
  | saveOutcome
  | unlockOutcome
  | retire

namespace SessionState

def load (s : SessionState) : Option Snapshot := if s.active then some s.snapshot else none

/-- `Lease.Save`; a save that fails for another reason is an operation of its own. -/
def save (s : SessionState) (next : Snapshot) : Option SessionState :=
  if s.active ∧ next.key = s.key then some { s with snapshot := next } else none

def readFrame (s : SessionState) (frame : Frame) : Option SessionState :=
  match s.reader with
  | .idle =>
    if frame.inner.sessionID ≠ s.key.sessionID then some s
    else match s.load with
      | none => some s
      | some snapshot =>
        match s.validator.validate frame.decode frame.clock snapshot frame.inner with
        | none => none
        | some (validator, .error _) => some { s with validator := validator }
        | some (validator, .ok out) =>
          some { s with validator := validator, reader := .validated snapshot out }
  | _ => none

def acceptFrame (s : SessionState) : Option SessionState :=
  match s.reader with
  | .validated _ out =>
    (s.save out.snapshot).map fun s =>
      { s with reader := .routing, accepted := s.accepted ++ out.recordedIDs }
  | _ => none

def refuseFrame (s : SessionState) : Option SessionState :=
  match s.reader with
  | .validated _ _ => some { s with reader := .idle }
  | _ => none

def readerHoldsOutcome (s : SessionState) : Bool :=
  match s.outcome with
  | some holder => holder.byReader
  | none => false

def finishFrame (s : SessionState) : Option SessionState :=
  match s.reader with
  | .routing => if s.readerHoldsOutcome then none else some { s with reader := .idle }
  | _ => none

def stopWriter (s : SessionState) : SessionState := { s with writer := .stopped, active := false }

def prepareWrite (s : SessionState) (env : WriterEnv) (intent : Intent) : Option SessionState :=
  match s.writer with
  | .idle =>
    match s.load with
    | none => some s.stopWriter
    | some snapshot =>
      match prepare env snapshot intent with
      | none => some s.stopWriter
      | some (prepared, next) =>
        some { s with writer := .prepared snapshot next, assigned := s.assigned ++ prepared.messages }
  | _ => none

def commitWrite (s : SessionState) : Option SessionState :=
  match s.writer with
  | .prepared _ next => (s.save next).map fun s => { s with writer := .idle }
  | _ => none

def failWrite (s : SessionState) : Option SessionState :=
  match s.writer with
  | .stopped => none
  | _ => some s.stopWriter

def lockOutcome (s : SessionState) (byReader : Bool) (job : OutcomeJob) : Option SessionState :=
  match s.outcome, byReader, s.reader with
  | none, false, _ => some { s with outcome := some ⟨false, job, .locked⟩ }
  | none, true, .routing => some { s with outcome := some ⟨true, job, .locked⟩ }
  | _, _, _ => none

def nothingToDo (s : SessionState) (snapshot : Snapshot) : OutcomeJob → Bool
  | .applyMutations _ => false
  | .subscribeForPush => s.acceptsPush
  | .ensureNewSessionCreated _ => snapshot.newSessionCreated

def loadOutcome (s : SessionState) : Option SessionState :=
  match s.outcome with
  | some ⟨byReader, job, .locked⟩ =>
    match s.load with
    | none => some { s with outcome := some ⟨byReader, job, .finished⟩ }
    | some snapshot =>
      if s.nothingToDo snapshot job then some { s with outcome := some ⟨byReader, job, .finished⟩ }
      else match applySessionMutations snapshot job.mutations with
        | none => some { s with outcome := some ⟨byReader, job, .finished⟩ }
        | some next => some { s with outcome := some ⟨byReader, job, .loaded snapshot next⟩ }
  | _ => none

def acceptsPushAfter (s : SessionState) (next : Snapshot) : OutcomeJob → Bool
  | .ensureNewSessionCreated _ => s.acceptsPush
  | _ => next.pushSubscription

def saveOutcome (s : SessionState) : Option SessionState :=
  match s.outcome with
  | some ⟨byReader, job, .loaded _ next⟩ =>
    (s.save next).map fun s => { s with
      outcome := some ⟨byReader, job, .finished⟩
      acceptsPush := s.acceptsPushAfter next job
      committed := s.committed ++ job.mutations }
  | _ => none

def unlockOutcome (s : SessionState) : Option SessionState :=
  match s.outcome with
  | some _ => some { s with outcome := none }
  | none => none

def step (s : SessionState) : SessionOp → Option SessionState
  | .readFrame frame => s.readFrame frame
  | .acceptFrame => s.acceptFrame
  | .refuseFrame => s.refuseFrame
  | .finishFrame => s.finishFrame
  | .prepareWrite env intent => s.prepareWrite env intent
  | .commitWrite => s.commitWrite
  | .failWrite => s.failWrite
  | .lockOutcome byReader job => s.lockOutcome byReader job
  | .loadOutcome => s.loadOutcome
  | .saveOutcome => s.saveOutcome
  | .unlockOutcome => s.unlockOutcome
  | .retire => some { s with active := false }

end SessionState

/-- The users of the snapshot; `outcomeMu` makes one of the mutation paths. -/
inductive SnapshotUser
  | inbound
  | outbound
  | outcome
deriving DecidableEq

def SessionState.held (s : SessionState) : SnapshotUser → Option Snapshot
  | .inbound =>
    match s.reader with
    | .validated loaded _ => some loaded
    | _ => none
  | .outbound =>
    match s.writer with
    | .prepared loaded _ => some loaded
    | _ => none
  | .outcome =>
    match s.outcome with
    | some ⟨_, _, .loaded loaded _⟩ => some loaded
    | _ => none

def SessionState.cell (s : SessionState) : SharedCell SnapshotUser Snapshot := ⟨s.snapshot, s.held⟩

def SessionState.saving (s : SessionState) : SessionOp → Option (SnapshotUser × Snapshot)
  | .acceptFrame => (s.held .inbound).map (fun loaded => (.inbound, loaded))
  | .commitWrite => (s.held .outbound).map (fun loaded => (.outbound, loaded))
  | .saveOutcome => (s.held .outcome).map (fun loaded => (.outcome, loaded))
  | _ => none

/-- Every save but the owner's was prepared from the view that is still durable. -/
def SessionState.SavesCurrent {W : Type} (view : Snapshot → W) (owner : SnapshotUser)
    (s : SessionState) (op : SessionOp) : Prop :=
  SharedCell.StoresCurrent view owner s.cell (s.saving op)

instance {W : Type} [DecidableEq W] (view : Snapshot → W) (owner : SnapshotUser) (s : SessionState)
    (op : SessionOp) : Decidable (s.SavesCurrent view owner op) :=
  inferInstanceAs (Decidable (SharedCell.StoresCurrent view owner s.cell (s.saving op)))

inductive SnapshotUpdate : SnapshotUser → Snapshot → Snapshot → Prop
  | inbound (v : Snapshot) (state : ProtocolSnapshot) : SnapshotUpdate .inbound v (v.withProtocol state)
  | outbound (v : Snapshot) (serverSeqNo : Int32) (lastActivity : Time) : SnapshotUpdate .outbound v
      { v with serverSeqNo := serverSeqNo, lastActivity := lastActivity }
  | outcome {v w : Snapshot} {mutations : List SessionMutation} :
      applySessionMutations v mutations = some w → SnapshotUpdate .outcome v w

def openedSession : SessionState :=
  .acquired (.initial ⟨1, 8⟩ 7 0) ⟨⟨64, 64, (Snapshot.initial ⟨1, 8⟩ 7 0).protocolConfig.initialState⟩⟩

def clientAck (low : Int) : Frame :=
  ⟨⟨7, 8, 1000 * 2 ^ 32 + low, 0, serializeMsgsAck [1]⟩, fun _ => .ok [], fun _ _ => 1000 * second⟩

def serverPush : SessionOp :=
  .prepareWrite ⟨2 ^ 24, fun k => 1000 * 2 ^ 32 + 4 * k, fun _ _ => some [], 1000 * second⟩
    (.message (.push [1, 2, 3, 4]))

end Tlrpc
