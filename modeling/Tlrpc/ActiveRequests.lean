import Mathlib.Data.List.AList
import Tlrpc.StepSystem

namespace Tlrpc

abbrev RequestRef := Nat

/-- Whether the `sync.Once` of a registration has not run, runs or has returned. -/
inductive OnceState
  | fresh
  | running
  | done
deriving DecidableEq

/-- The `activeRequest`, whether its context is canceled, and the `once` of its `Complete`. -/
structure ActiveRequest where
  id : Int
  ended : Bool
  canceled : Bool
  once : OnceState
deriving DecidableEq

inductive BeginError
  | invalidID (id : Int)
  | duplicate (id : Int)
  | capacity (capacity : Int)
deriving DecidableEq

structure RequestOutcome where
  request : RequestRef
  id : Int
  success : Bool
deriving DecidableEq

/-- `changed` numbers the current channel, those before it are closed. -/
structure ActiveRequestRegistry where
  capacity : Int
  active : AList (fun _ : Int => RequestRef)
  completed : Int → Option Bool
  completedOrder : List Int
  changed : Nat
  requests : RequestRef → ActiveRequest
  allocated : Nat
  outcomes : List RequestOutcome

/-- `NewActiveRequestRegistry`; `none` is `InvalidActiveRequestCapacityError`. -/
def newActiveRequestRegistry (capacity : Int) : Option ActiveRequestRegistry :=
  if capacity ≤ 0 then none
  else some ⟨capacity, ∅, fun _ => none, [], 0, fun _ => ⟨0, false, false, .fresh⟩, 0, []⟩

inductive DropStatus
  | unknown
  | droppedRunning
deriving DecidableEq

namespace ActiveRequestRegistry

def notifyLocked (r : ActiveRequestRegistry) : ActiveRequestRegistry :=
  { r with changed := r.changed + 1 }

/-- The checks of `beginBatch` before it takes the lock. -/
def checkIDs (seen : List Int) : List Int → Option BeginError
  | [] => none
  | id :: ids =>
    if id = 0 then some (.invalidID id)
    else if id ∈ seen then some (.duplicate id)
    else checkIDs (id :: seen) ids

def register (r : ActiveRequestRegistry) (id : Int) : ActiveRequestRegistry :=
  { r with
    active := r.active.insert id r.allocated
    requests := Function.update r.requests r.allocated ⟨id, false, false, .fresh⟩
    allocated := r.allocated + 1 }

def registerAll (r : ActiveRequestRegistry) : List Int → List RequestRef × ActiveRequestRegistry
  | [] => ([], r)
  | id :: ids => (r.allocated :: ((r.register id).registerAll ids).1, ((r.register id).registerAll ids).2)

def beginBatch (r : ActiveRequestRegistry) (ids : List Int) :
    Except BeginError (List RequestRef) × ActiveRequestRegistry :=
  match checkIDs [] ids with
  | some err => (.error err, r)
  | none =>
    if (r.active.keys.length : Int) + ids.length > r.capacity then (.error (.capacity r.capacity), r)
    else match ids.find? fun id => (r.active.lookup id).isSome with
      | some id => (.error (.duplicate id), r)
      | none => (.ok (r.registerAll ids).1, (r.registerAll ids).2.notifyLocked)

def trim (r : ActiveRequestRegistry) : ActiveRequestRegistry :=
  match r.completedOrder with
  | [] => r
  | oldest :: newer =>
    if (r.completedOrder.length : Int) > r.capacity then
      { r with completed := Function.update r.completed oldest none, completedOrder := newer }
    else r

def remember (r : ActiveRequestRegistry) (id : Int) (success : Bool) : ActiveRequestRegistry :=
  let order := if (r.completed id).isSome then r.completedOrder.erase id else r.completedOrder
  let completed := Function.update r.completed id (some success)
  { r with completed := completed, completedOrder := order ++ [id] }.trim

def finishLocked (r : ActiveRequestRegistry) (id : Int) (request : RequestRef) (success : Bool) :
    ActiveRequestRegistry :=
  if (r.requests request).ended then r
  else
    let ended := { r.requests request with ended := true }
    let active := if r.active.lookup id = some request then r.active.erase id else r.active
    let outcomes := r.outcomes ++ [⟨request, id, success⟩]
    let requests := Function.update r.requests request ended
    ({ r with requests := requests, active := active, outcomes := outcomes }.remember id
      success).notifyLocked

def cancel (r : ActiveRequestRegistry) (request : RequestRef) : ActiveRequestRegistry :=
  { r with requests := Function.update r.requests request { r.requests request with canceled := true } }

def setOnce (r : ActiveRequestRegistry) (request : RequestRef) (once : OnceState) :
    ActiveRequestRegistry :=
  { r with requests := Function.update r.requests request { r.requests request with once := once } }

def drop (r : ActiveRequestRegistry) (id : Int) : ActiveRequestRegistry :=
  match r.active.lookup id with
  | some request => r.finishLocked id request false
  | none => r

/-- `CancelAll` under the lock, in the order the map is visited in. -/
def cancelAll (r : ActiveRequestRegistry) : List (Int × RequestRef) → ActiveRequestRegistry
  | [] => r
  | (id, request) :: rest => (r.finishLocked id request false).cancelAll rest

/-- The loop of `WaitDependencies` under the lock; `none` is `ErrInvokeAfterFailed`. -/
def poll (r : ActiveRequestRegistry) (allComplete : Bool) : List Int → Option Bool
  | [] => some allComplete
  | id :: ids =>
    match r.completed id with
    | some true => r.poll allComplete ids
    | some false => none
    | none => r.poll false ids

def isActive (r : ActiveRequestRegistry) (id : Int) : Bool := id ≠ 0 && (r.active.lookup id).isSome

end ActiveRequestRegistry

inductive WaitResult
  | complete
  | failed
  | timeout
  | canceled
deriving DecidableEq

inductive WakeReason
  | ctxDone
  | timer
  | changed

/-- Where a call stands. A finished wait keeps how many outcomes it last saw. -/
inductive RequestCall
  | completeOnce (request : RequestRef) (success : Bool)
  | completeFinish (request : RequestRef) (success : Bool)
  | completeCancel (request : RequestRef)
  | dropCancel (request : RequestRef)
  | cancelAll (requests : List RequestRef)
  | waitPoll (ids : List Int)
  | waitSleep (ids : List Int) (changed : Nat)
  | waited (ids : List Int) (result : WaitResult) (looked : Nat)
  | begun (result : Except BeginError (List RequestRef))
  | dropped (status : DropStatus)
  | returned

structure RegistryState where
  registry : ActiveRequestRegistry
  calls : CallID → Option RequestCall

inductive RequestOp
  | beginBatch (c : CallID) (ids : List Int)
  | complete (c : CallID) (request : RequestRef) (success : Bool)
  | drop (c : CallID) (id : Int)
  | cancelAll (c : CallID) (order : List (Int × RequestRef))
  | wait (c : CallID) (ids : List Int) (timeout : Int)
  | advance (c : CallID) (wake : WakeReason)

namespace RegistryState

def initial (r : ActiveRequestRegistry) : RegistryState := ⟨r, fun _ => none⟩

def goto (s : RegistryState) (c : CallID) (call : RequestCall) : RegistryState :=
  { s with calls := Function.update s.calls c (some call) }

def waitStart (s : RegistryState) (ids : List Int) (timeout : Int) : RequestCall :=
  if ids = [] then .waited ids .complete s.registry.outcomes.length
  else if timeout ≤ 0 then .waited ids .timeout s.registry.outcomes.length
  else .waitPoll ids

def waitPoll (s : RegistryState) (ids : List Int) : RequestCall :=
  match s.registry.poll true ids with
  | none => .waited ids .failed s.registry.outcomes.length
  | some true => .waited ids .complete s.registry.outcomes.length
  | some false => .waitSleep ids s.registry.changed

/-- `once.Do` in `Complete`: the first caller goes on, the others wait for it. -/
def completeOnce (s : RegistryState) (c : CallID) (request : RequestRef) (success : Bool) :
    Option RegistryState :=
  match (s.registry.requests request).once with
  | .fresh =>
    some ({ s with registry := s.registry.setOnce request .running }.goto c
      (.completeFinish request success))
  | .running => none
  | .done => some (s.goto c .returned)

def run (s : RegistryState) (c : CallID) (wake : WakeReason) : RequestCall → Option RegistryState
  | .completeOnce request success => s.completeOnce c request success
  | .completeFinish request success =>
    let id := (s.registry.requests request).id
    some ({ s with registry := s.registry.finishLocked id request success }.goto c
      (.completeCancel request))
  | .completeCancel request =>
    some ({ s with registry := (s.registry.cancel request).setOnce request .done }.goto c .returned)
  | .dropCancel request =>
    some ({ s with registry := s.registry.cancel request }.goto c (.dropped .droppedRunning))
  | .cancelAll [] => some (s.goto c .returned)
  | .cancelAll (request :: rest) =>
    some ({ s with registry := s.registry.cancel request }.goto c (.cancelAll rest))
  | .waitPoll ids => some (s.goto c (s.waitPoll ids))
  | .waitSleep ids changed =>
    match wake with
    | .ctxDone => some (s.goto c (.waited ids .canceled s.registry.outcomes.length))
    | .timer => some (s.goto c (.waited ids .timeout s.registry.outcomes.length))
    | .changed => if changed < s.registry.changed then some (s.goto c (.waitPoll ids)) else none
  | _ => none

/-- A new call up to the end of its first section under the lock. -/
def start (s : RegistryState) (c : CallID) : RequestOp → Option RegistryState
  | .beginBatch _ ids =>
    some ({ s with registry := (s.registry.beginBatch ids).2 }.goto c
      (.begun (s.registry.beginBatch ids).1))
  | .complete _ request success =>
    if request < s.registry.allocated then some (s.goto c (.completeOnce request success)) else none
  | .drop _ id =>
    some ({ s with registry := s.registry.drop id }.goto c
      (match s.registry.active.lookup id with
        | some request => .dropCancel request
        | none => .dropped .unknown))
  | .cancelAll _ order =>
    if order.Perm (s.registry.active.entries.map fun e => (e.1, e.2)) then
      some ({ s with registry := s.registry.cancelAll order }.goto c
        (.cancelAll (order.map Prod.snd)))
    else none
  | .wait _ ids timeout => some (s.goto c (s.waitStart ids timeout))
  | .advance _ _ => none

end RegistryState

def RequestOp.caller : RequestOp → CallID
  | .beginBatch c _ => c
  | .complete c _ _ => c
  | .drop c _ => c
  | .cancelAll c _ => c
  | .wait c _ _ => c
  | .advance c _ => c

def RegistryState.step (s : RegistryState) (op : RequestOp) : Option RegistryState :=
  match op, s.calls op.caller with
  | .advance c wake, some call => s.run c wake call
  | .advance _ _, none => none
  | _, none => s.start op.caller op
  | _, some _ => none

end Tlrpc
