import Tlrpc.PushRegistry
import Tlrpc.StepSystem

namespace Tlrpc

abbrev PushBody := List UInt8

/-- The sessions of a user except some, or all sessions of an auth key. -/
inductive PushScope
  | user (userID : Int) (excludedSession : Option SessionKey) (excludedAuthKey : Option KeyID)
  | authKey (authKeyID : KeyID)
deriving DecidableEq

structure ProjectedPushTarget where
  registration : RegistrationRef
  binding : Binding
deriving DecidableEq

def excludes (excludedSession : Option SessionKey) (excludedAuthKey : Option KeyID)
    (key : SessionKey) : Bool :=
  excludedSession = some key || excludedAuthKey = some key.authKeyID

namespace PushScope

def collect (r : RuntimePushRegistry) : PushScope → List RegistrationRef
  | user userID excludedSession excludedAuthKey =>
    if userID ≤ 0 then []
    else
      ((NestedBuckets.inner r.byUser userID).entries.filter
        fun entry => !excludes excludedSession excludedAuthKey entry.1).flatMap (·.2)
  | authKey authKeyID =>
    if authKeyID = 0 then []
    else (r.byKey.entries.filter fun entry => entry.1.authKeyID = authKeyID).flatMap (·.2)

def eligible (value : RuntimePushBinding) : PushScope → Bool
  | user userID excludedSession excludedAuthKey =>
    value.reachable && value.binding.userID = userID &&
      !excludes excludedSession excludedAuthKey value.binding.key
  | authKey authKeyID => value.acceptsPush && value.binding.authKeyID.toUInt64 = authKeyID

def current (value : RuntimePushBinding) (projected : Binding) : PushScope → Bool
  | user _ _ _ => value.reachable && value.binding = projected
  | authKey authKeyID =>
    value.acceptsPush && value.binding.authKeyID.toUInt64 = authKeyID && value.binding = projected

end PushScope

def RuntimePushRegistry.publish (r : RuntimePushRegistry) (userID : Int)
    (excludedSession : Option SessionKey) (excludedAuthKey : Option KeyID) : List RequestSender :=
  ((PushScope.user userID excludedSession excludedAuthKey).collect r).map fun target =>
    (r.memory target).sender

/-- A projected publish collects, reads the bindings, projects in turn, checks and pushes. -/
inductive ProjectedStage
  | collect
  | read (registrations : List RegistrationRef) (targets : List ProjectedPushTarget)
  | project (targets : List ProjectedPushTarget)
  | check (target : ProjectedPushTarget) (body : PushBody) (later : List ProjectedPushTarget)
  | push (target : ProjectedPushTarget) (body : PushBody) (later : List ProjectedPushTarget)

/-- The running calls. `project` is the projector together with the encoder. -/
inductive RegistryCall
  | update (snapshot : Snapshot) (leaseGeneration : Int) (sender : RequestSender)
      (acceptsPush : Bool) (stage : UpdateStage)
  | remove (key : SessionKey) (sender : RequestSender) (stage : RemoveStage)
  | publishProjected (scope : PushScope) (project : Binding → Option PushBody)
      (stage : ProjectedStage)

namespace RegistryCall

def mutex : RegistryCall → Option RegistrationRef
  | update _ _ _ _ (.modify target) => some target
  | remove _ _ (.delete target) => some target
  | publishProjected _ _ (.read (target :: _) _) => some target
  | publishProjected _ _ (.check target _ _) => some target.registration
  | publishProjected _ _ (.push target _ _) => some target.registration
  | _ => none

end RegistryCall

structure ProjectedDelivery where
  target : ProjectedPushTarget
  body : PushBody
deriving DecidableEq

/-- The registry with its locks, the calls that run and the pushes made. -/
structure PushRun where
  registry : RuntimePushRegistry
  locked : RegistrationRef → Option CallID
  calls : CallID → Option RegistryCall
  delivered : List ProjectedDelivery

inductive PushRunOp
  | begin_ (id : CallID) (call : RegistryCall)
  | lock (id : CallID)
  | advance (id : CallID) (canceled : Bool)

namespace PushRun

def initial (schemaLayer : Option Int) : PushRun :=
  ⟨newRuntimePushRegistry schemaLayer, fun _ => none, fun _ => none, []⟩

def goto (s : PushRun) (id : CallID) (call : Option RegistryCall) : PushRun :=
  { s with calls := Function.update s.calls id call }

def unlock (s : PushRun) (target : RegistrationRef) : PushRun :=
  { s with locked := Function.update s.locked target none }

def fresh : RegistryCall → Bool
  | .update _ _ _ _ stage => stage = .find
  | .remove _ _ stage => stage = .find
  | .publishProjected _ _ .collect => true
  | .publishProjected _ _ _ => false

/-- The next section of `Update`; one for a registration has its lock and gives it back. -/
def advanceUpdate (s : PushRun) (id : CallID) (snapshot : Snapshot) (leaseGeneration : Int)
    (sender : RequestSender) (acceptsPush : Bool) (stage : UpdateStage) : PushRun :=
  let result := s.registry.updateSection snapshot leaseGeneration sender acceptsPush stage
  { s with registry := result.1 }.goto id
    (result.2.map (.update snapshot leaseGeneration sender acceptsPush))

def advanceRemove (s : PushRun) (id : CallID) (key : SessionKey) (sender : RequestSender)
    (stage : RemoveStage) : PushRun :=
  let result := s.registry.removeSection key sender stage
  { s with registry := result.1 }.goto id (result.2.map (.remove key sender))

def projectedSection (r : RuntimePushRegistry) (scope : PushScope)
    (project : Binding → Option PushBody) (canceled : Bool) :
    ProjectedStage → Option ProjectedStage
  | .collect => some (.read (scope.collect r) [])
  | .read [] targets => some (.project targets)
  | .read (target :: rest) targets =>
    let value := r.memory target
    some (.read rest
      (if scope.eligible value then targets ++ [⟨target, value.binding⟩] else targets))
  | .project [] => none
  | .project (target :: later) =>
    if canceled then none
    else
      match project target.binding with
      | none => some (.project later)
      | some body => some (.check target body later)
  | .check target body later =>
    if scope.current (r.memory target.registration) target.binding then
      some (.push target body later)
    else some (.project later)
  | .push _ _ later => some (.project later)

def pushed : ProjectedStage → List ProjectedDelivery
  | .push target body _ => [⟨target, body⟩]
  | _ => []

def advanceProjected (s : PushRun) (id : CallID) (scope : PushScope)
    (project : Binding → Option PushBody) (canceled : Bool) (stage : ProjectedStage) : PushRun :=
  { s with delivered := s.delivered ++ pushed stage }.goto id
    ((projectedSection s.registry scope project canceled stage).map
      (.publishProjected scope project))

def advance (s : PushRun) (id : CallID) (canceled : Bool) : RegistryCall → PushRun
  | .update snapshot leaseGeneration sender acceptsPush stage =>
    s.advanceUpdate id snapshot leaseGeneration sender acceptsPush stage
  | .remove key sender stage => s.advanceRemove id key sender stage
  | .publishProjected scope project stage => s.advanceProjected id scope project canceled stage

def release (s : PushRun) (before : Option RegistrationRef) (keeps : Bool) : PushRun :=
  match before with
  | some target => if keeps then s else s.unlock target
  | none => s

def keepsLock : Option RegistryCall → Bool
  | some (.publishProjected _ _ (.push _ _ _)) => true
  | _ => false

def step (s : PushRun) : PushRunOp → Option PushRun
  | .begin_ id call =>
    if s.calls id = none ∧ fresh call then some (s.goto id (some call)) else none
  | .lock id =>
    match (s.calls id).bind RegistryCall.mutex with
    | some target =>
      if s.locked target = none then
        some { s with locked := Function.update s.locked target (some id) }
      else none
    | none => none
  | .advance id canceled =>
    match s.calls id with
    | none => none
    | some call =>
      if ∀ target ∈ call.mutex, s.locked target = some id then
        let next := s.advance id canceled call
        some (next.release call.mutex (keepsLock (next.calls id)))
      else none

end PushRun

end Tlrpc
