import Tlrpc.LeasedSession
import Tlrpc.PushIndexes

namespace Tlrpc

/-- The holders of `outcomeMu`: the connection's reader, or a request's handler. -/
inductive OutcomeCaller
  | reader
  | request (id : Nat)
deriving DecidableEq

/-- The holder of `outcomeMu` between its atomic steps. -/
inductive PresencePhase
  | locked
  | loaded (next : Snapshot)
  | updating (next : Snapshot) (stage : UpdateStage)
  | finished
deriving DecidableEq

def PresencePhase.afterUpdate (next : Snapshot) : Option UpdateStage → PresencePhase
  | some stage => .updating next stage
  | none => .finished

structure PresenceHolder where
  caller : OutcomeCaller
  job : OutcomeJob
  phase : PresencePhase

/-- A `connectionSession`: in its first `Presence.Update`, started, then in `shutdown`. -/
inductive SessionStage
  | absent
  | constructing (stage : UpdateStage)
  | running
  | removing (stage : RemoveStage)
  | retiring
  | waiting
  | returned
deriving DecidableEq

def SessionStage.afterUpdate : Option UpdateStage → SessionStage
  | some stage => .constructing stage
  | none => .running

def SessionStage.afterRemove : Option RemoveStage → SessionStage
  | some stage => .removing stage
  | none => .retiring

def SessionStage.started : SessionStage → Bool
  | .absent | .constructing _ => false
  | _ => true

def SessionStage.removed : SessionStage → Bool
  | .retiring | .waiting | .returned => true
  | _ => false

/-- `requests` are the reservations that `requestWG` counts: their `Complete` has not run. -/
structure PresenceSession where
  key : SessionKey
  generation : Int
  sender : RequestSender
  snapshot : Snapshot
  active : Bool
  acceptsPush : Bool
  requests : List Nat
  outcome : Option PresenceHolder
  stage : SessionStage

def PresenceSession.unused (id : Nat) : PresenceSession where
  key := ⟨0, 0⟩
  generation := 0
  sender := ⟨id, 0⟩
  snapshot := .initial ⟨0, 0⟩ 0 0
  active := false
  acceptsPush := false
  requests := []
  outcome := none
  stage := .absent

inductive PresenceAction
  | acquire (snapshot : Snapshot) (generation : Int) (connectionID : UInt64)
  | construct
  | beginRequest (id : Nat)
  | complete (id : Nat)
  | lockOutcome (caller : OutcomeCaller) (job : OutcomeJob)
  | loadOutcome
  | saveOutcome (stored : Bool)
  | updateOutcome
  | unlockOutcome
  | save (next : Snapshot)
  | retire
  | shutdown
  | remove
  | cancelAll
  | wait

namespace PresenceSession

/-- `newConnectionSession` up to `Presence.Update`, with the coordinator's snapshot. -/
def acquire (p : PresenceSession) (id : Nat) (snapshot : Snapshot) (generation : Int)
    (connectionID : UInt64) : Option PresenceSession :=
  match p.stage with
  | .absent => some {
      key := snapshot.key
      generation := generation
      sender := ⟨id, connectionID⟩
      snapshot := snapshot
      active := true
      acceptsPush := snapshot.pushSubscription
      requests := []
      outcome := none
      stage := .constructing .find }
  | _ => none

def construct (p : PresenceSession) (r : RuntimePushRegistry) :
    Option (RuntimePushRegistry × PresenceSession) :=
  match p.stage with
  | .constructing stage =>
    let result := r.updateSection p.snapshot p.generation p.sender p.acceptsPush stage
    some (result.1, { p with stage := .afterUpdate result.2 })
  | _ => none

/-- `beginRequests`, which refuses once `closing` is set. -/
def beginRequest (p : PresenceSession) (id : Nat) : Option PresenceSession :=
  if p.stage = .running ∧ id ∉ p.requests then some { p with requests := id :: p.requests } else none

def holds (p : PresenceSession) (caller : OutcomeCaller) : Bool :=
  match p.outcome with
  | some holder => holder.caller = caller
  | none => false

def complete (p : PresenceSession) (id : Nat) : Option PresenceSession :=
  if id ∈ p.requests ∧ ¬p.holds (.request id) then some { p with requests := p.requests.erase id }
  else none

/-- A handler runs until its `complete`; the reader also routes without reservations. -/
def mayLock (p : PresenceSession) : OutcomeCaller → Bool
  | .reader => true
  | .request id => id ∈ p.requests

def lockOutcome (p : PresenceSession) (caller : OutcomeCaller) (job : OutcomeJob) :
    Option PresenceSession :=
  if p.stage.started ∧ p.outcome.isNone ∧ p.mayLock caller then
    some { p with outcome := some ⟨caller, job, .locked⟩ }
  else none

def nothingToDo (p : PresenceSession) : OutcomeJob → Bool
  | .applyMutations _ => false
  | .subscribeForPush => p.acceptsPush
  | .ensureNewSessionCreated _ => p.snapshot.newSessionCreated

def loadOutcome (p : PresenceSession) : Option PresenceSession :=
  match p.outcome with
  | some ⟨caller, job, .locked⟩ =>
    let phase :=
      if ¬p.active ∨ p.nothingToDo job then .finished
      else match applySessionMutations p.snapshot job.mutations with
        | none => .finished
        | some next => .loaded next
    some { p with outcome := some ⟨caller, job, phase⟩ }
  | _ => none

/-- `Lease.Save` up to `Presence.Update`. The context or the store may make it fail. -/
def saveOutcome (p : PresenceSession) (stored : Bool) : Option PresenceSession :=
  match p.outcome with
  | some ⟨caller, job, .loaded next⟩ =>
    if p.active ∧ next.key = p.key ∧ stored then
      match job with
      | .ensureNewSessionCreated _ =>
        some { p with snapshot := next, outcome := some ⟨caller, job, .finished⟩ }
      | _ => some { p with
          snapshot := next
          acceptsPush := next.pushSubscription
          outcome := some ⟨caller, job, .updating next .find⟩ }
    else some { p with outcome := some ⟨caller, job, .finished⟩ }
  | _ => none

def updateOutcome (p : PresenceSession) (r : RuntimePushRegistry) :
    Option (RuntimePushRegistry × PresenceSession) :=
  match p.outcome with
  | some ⟨caller, job, .updating next stage⟩ =>
    let result := r.updateSection next p.generation p.sender p.acceptsPush stage
    some (result.1, { p with outcome := some ⟨caller, job, .afterUpdate next result.2⟩ })
  | _ => none

/-- The deferred unlock, after `applyOutcome` has submitted its intents. -/
def unlockOutcome (p : PresenceSession) : Option PresenceSession :=
  match p.outcome with
  | some ⟨_, _, .locked⟩ | some ⟨_, _, .finished⟩ => some { p with outcome := none }
  | _ => none

/-- The saves of `handleEncrypted` and of the writer, which do not take `outcomeMu`. -/
def save (p : PresenceSession) (next : Snapshot) : Option PresenceSession :=
  if p.stage.started ∧ p.active ∧ next.key = p.key then some { p with snapshot := next } else none

/-- The lease ends by another owner, an error or the connection's own end. -/
def retire (p : PresenceSession) : Option PresenceSession :=
  if p.stage = .absent then none else some { p with active := false }

/-- `shutdown` sets `closing`. A second call waits for the first one. -/
def shutdown (p : PresenceSession) : Option PresenceSession :=
  match p.stage with
  | .running => some { p with stage := .removing .find }
  | _ => none

def remove (p : PresenceSession) (r : RuntimePushRegistry) :
    Option (RuntimePushRegistry × PresenceSession) :=
  match p.stage with
  | .removing stage =>
    let result := r.removeSection p.key p.sender stage
    some (result.1, { p with stage := .afterRemove result.2 })
  | _ => none

def cancelAll (p : PresenceSession) : Option PresenceSession :=
  match p.stage with
  | .retiring => some { p with active := false, stage := .waiting }
  | _ => none

def wait (p : PresenceSession) : Option PresenceSession :=
  match p.stage with
  | .waiting => if p.requests.isEmpty then some { p with stage := .returned } else none
  | _ => none

def step (p : PresenceSession) (r : RuntimePushRegistry) (id : Nat) :
    PresenceAction → Option (RuntimePushRegistry × PresenceSession)
  | .acquire snapshot generation connectionID =>
    (p.acquire id snapshot generation connectionID).map (r, ·)
  | .construct => p.construct r
  | .beginRequest request => (p.beginRequest request).map (r, ·)
  | .complete request => (p.complete request).map (r, ·)
  | .lockOutcome caller job => (p.lockOutcome caller job).map (r, ·)
  | .loadOutcome => p.loadOutcome.map (r, ·)
  | .saveOutcome stored => (p.saveOutcome stored).map (r, ·)
  | .updateOutcome => p.updateOutcome r
  | .unlockOutcome => p.unlockOutcome.map (r, ·)
  | .save next => (p.save next).map (r, ·)
  | .retire => p.retire.map (r, ·)
  | .shutdown => p.shutdown.map (r, ·)
  | .remove => p.remove r
  | .cancelAll => p.cancelAll.map (r, ·)
  | .wait => p.wait.map (r, ·)

/-- `Update` is about to enter a registration although `Remove` is through. -/
def lateCreation (p : PresenceSession) (r : RuntimePushRegistry) : PresenceAction → Bool
  | .updateOutcome =>
    match p.outcome with
    | some ⟨_, _, .updating next .create⟩ =>
      p.stage.removed && (r.findRuntimePushBinding next.key p.sender).isNone
    | _ => false
  | _ => false

end PresenceSession

/-- A push registry with its sessions, each under its sender's pointer. -/
structure PresenceState where
  registry : RuntimePushRegistry
  sessions : Nat → PresenceSession

structure PresenceOp where
  session : Nat
  action : PresenceAction

namespace PresenceState

def start (schemaLayer : Option Int) : PresenceState :=
  ⟨newRuntimePushRegistry schemaLayer, .unused⟩

def step (st : PresenceState) (op : PresenceOp) : Option PresenceState :=
  ((st.sessions op.session).step st.registry op.session op.action).map fun (r, p) =>
    ⟨r, Function.update st.sessions op.session p⟩

def lateCreation (st : PresenceState) (op : PresenceOp) : Bool :=
  (st.sessions op.session).lateCreation st.registry op.action

end PresenceState

end Tlrpc
