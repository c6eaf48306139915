import Tlrpc.Buckets
import Tlrpc.Session

namespace Tlrpc

/-- The `*requestSender` of a session; `id` tells the pointers apart. -/
structure RequestSender where
  id : Nat
  connectionID : UInt64
deriving DecidableEq

structure Binding where
  connectionID : UInt64
  authKeyID : Int64
  sessionID : Int
  leaseGeneration : Int
  serverSalt : Int
  userID : Int
  layer : Int
deriving DecidableEq

def Binding.key (b : Binding) : SessionKey := ⟨b.authKeyID.toUInt64, b.sessionID⟩

structure RuntimePushBinding where
  binding : Binding
  sender : RequestSender
  reachable : Bool
  acceptsPush : Bool
deriving DecidableEq

abbrev RegistrationRef := Nat

/-- `memory` holds the registrations made so far, `schemaLayer` is the server's. -/
structure RuntimePushRegistry where
  byKey : Buckets SessionKey RegistrationRef
  byUser : NestedBuckets Int SessionKey RegistrationRef
  memory : RegistrationRef → RuntimePushBinding
  allocated : Nat
  schemaLayer : Option Int

def newRuntimePushRegistry (schemaLayer : Option Int) : RuntimePushRegistry where
  byKey := ∅
  byUser := ∅
  memory _ := ⟨⟨0, 0, 0, 0, 0, 0, 0⟩, ⟨0, 0⟩, false, false⟩
  allocated := 0
  schemaLayer := schemaLayer

inductive UpdateStage
  | find
  | create
  | modify (target : RegistrationRef)
deriving DecidableEq

inductive RemoveStage
  | find
  | delete (target : RegistrationRef)
deriving DecidableEq

namespace RuntimePushRegistry

def registrations (r : RuntimePushRegistry) (key : SessionKey) : List RegistrationRef :=
  Buckets.bucket r.byKey key

def findRuntimePushBinding (r : RuntimePushRegistry) (key : SessionKey) (sender : RequestSender) :
    Option RegistrationRef :=
  (r.registrations key).find? (fun candidate => (r.memory candidate).sender = sender)

def addUserLocked (r : RuntimePushRegistry) (key : SessionKey) (target : RegistrationRef)
    (userID : Int) : RuntimePushRegistry :=
  { r with byUser := NestedBuckets.add r.byUser userID key target }

def removeUserLocked (r : RuntimePushRegistry) (key : SessionKey) (target : RegistrationRef)
    (userID : Int) : RuntimePushRegistry :=
  if userID = 0 then r else { r with byUser := NestedBuckets.discard r.byUser userID key target }

def bindingOf (r : RuntimePushRegistry) (snapshot : Snapshot) (leaseGeneration : Int)
    (sender : RequestSender) : Binding where
  connectionID := sender.connectionID
  authKeyID := snapshot.authKeyID.toInt64
  sessionID := snapshot.sessionID
  leaseGeneration := leaseGeneration
  serverSalt := snapshot.serverSalt
  userID := snapshot.userID
  layer := if snapshot.layer = 0 then r.schemaLayer.getD snapshot.layer else snapshot.layer

def store (r : RuntimePushRegistry) (target : RegistrationRef) (value : RuntimePushBinding) :
    RuntimePushRegistry :=
  { r with memory := Function.update r.memory target value }

def register (r : RuntimePushRegistry) (key : SessionKey) (value : RuntimePushBinding) :
    RuntimePushRegistry :=
  let target := r.allocated
  let r := { (r.store target value) with
    byKey := Buckets.add r.byKey key target
    allocated := r.allocated + 1 }
  if value.reachable then r.addUserLocked key target value.binding.userID else r

def rebind (r : RuntimePushRegistry) (key : SessionKey) (target : RegistrationRef)
    (value : RuntimePushBinding) : RuntimePushRegistry :=
  let previous := (r.memory target).binding
  let r := (r.removeUserLocked key target previous.userID).store target value
  if value.reachable then r.addUserLocked key target value.binding.userID else r

def unregister (r : RuntimePushRegistry) (key : SessionKey) (target : RegistrationRef) :
    RuntimePushRegistry :=
  let value := r.memory target
  let r := { r with byKey := Buckets.discard r.byKey key target }
  (r.removeUserLocked key target value.binding.userID).store target
    { value with reachable := false, acceptsPush := false }

/-- One section of `Update`, and the next one. Observers do not touch the registry. -/
def updateSection (r : RuntimePushRegistry) (snapshot : Snapshot) (leaseGeneration : Int)
    (sender : RequestSender) (acceptsPush : Bool) :
    UpdateStage → RuntimePushRegistry × Option UpdateStage
  | .find =>
    match r.findRuntimePushBinding snapshot.key sender with
    | none => (r, some .create)
    | some target => (r, some (.modify target))
  | .create =>
    match r.findRuntimePushBinding snapshot.key sender with
    | some _ => (r, some .find)
    | none =>
      let binding := r.bindingOf snapshot leaseGeneration sender
      (r.register snapshot.key
        ⟨binding, sender, binding.userID ≠ 0 && acceptsPush, acceptsPush⟩, none)
  | .modify target =>
    if target ∈ r.registrations snapshot.key then
      let binding := r.bindingOf snapshot leaseGeneration sender
      (r.rebind snapshot.key target { r.memory target with
        binding := binding
        reachable := binding.userID ≠ 0 && acceptsPush
        acceptsPush := acceptsPush }, none)
    else (r, some .find)

def removeSection (r : RuntimePushRegistry) (key : SessionKey) (sender : RequestSender) :
    RemoveStage → RuntimePushRegistry × Option RemoveStage
  | .find =>
    match r.findRuntimePushBinding key sender with
    | none => (r, none)
    | some target => (r, some (.delete target))
  | .delete target =>
    if r.findRuntimePushBinding key sender = some target then (r.unregister key target, none)
    else (r, some .find)

def activeUserIDs (r : RuntimePushRegistry) : List Int :=
  (r.byUser.keys.filter (fun userID => 0 < userID)).mergeSort

def hasActiveUser (r : RuntimePushRegistry) (userID : Int) : Bool :=
  0 < userID && !(NestedBuckets.inner r.byUser userID).entries.isEmpty

end RuntimePushRegistry

end Tlrpc
