import Tlrpc.Session
import Tlrpc.Fencing

namespace Tlrpc

abbrev LeaseID := Nat

abbrev ContextID := Nat

inductive SessionError
  | leaseLost
  | leaseReleased
  | leaseInactive
  | leaseGenerationExhausted
  | sessionKeyMismatch
  | canceled
  | other (code : Nat)
deriving DecidableEq

/-- A `Store` with atomic operations; the flag says whether its context is done. -/
structure Store (σ : Type) where
  loadOrCreate : σ → Bool → SessionKey → Snapshot → σ × Except SessionError (Snapshot × Bool)
  save : σ → Bool → SessionKey → Snapshot → σ × Except SessionError Unit
  delete : σ → Bool → SessionKey → σ × Except SessionError Unit

def memoryStore : Store (SessionKey → Option Snapshot) where
  loadOrCreate snapshots done key initial :=
    if done then (snapshots, .error .canceled)
    else if initial.key ≠ key then (snapshots, .error .sessionKeyMismatch)
    else match snapshots key with
      | some snapshot => (snapshots, .ok (snapshot, false))
      | none => (Function.update snapshots key (some initial), .ok (initial, true))
  save snapshots done key snapshot :=
    if done then (snapshots, .error .canceled)
    else if snapshot.key ≠ key then (snapshots, .error .sessionKeyMismatch)
    else (Function.update snapshots key (some snapshot), .ok ())
  delete snapshots done key :=
    if done then (snapshots, .error .canceled)
    else (Function.update snapshots key none, .ok ())

/-- Who can reach a lease: the `Acquire` call, then whoever it returned it to. -/
inductive LeaseStage
  | opening (c : CallID)
  | returned
  | abandoned
deriving DecidableEq

/-- `opMu` names the call that holds the mutex, `cause` the first argument of `cancel`. -/
structure LocalLease where
  key : SessionKey
  generation : Int64
  ctx : ContextID
  cause : Option SessionError
  done : Bool
  once : Bool
  opMu : Option CallID
  snapshot : Option Snapshot
  created : Bool
  ready : Bool
  released : Bool
  stage : LeaseStage

inductive StoreCall
  | save (next : Snapshot)
  | delete

/-- Where a call stands: the constructor is its next atomic action. -/
inductive Call
  | acquire (ctx : ContextID) (key : SessionKey) (initial : Snapshot)
  | lookup (ctx : ContextID) (key : SessionKey) (initial : Snapshot)
  | loadOrCreate (l : LeaseID) (ctx : ContextID) (initial : Snapshot)
  | loaded (l : LeaseID) (result : Except SessionError (Snapshot × Bool))
  | publish (l : LeaseID) (snapshot : Snapshot) (created : Bool)
  | retirePrevious (l : LeaseID) (ctx : ContextID) (key : SessionKey) (initial : Snapshot)
  | waitPrevious (l : LeaseID) (ctx : ContextID) (key : SessionKey) (initial : Snapshot)
  | lock (l : LeaseID) (ctx : ContextID) (op : StoreCall)
  | checkReady (l : LeaseID) (ctx : ContextID) (op : StoreCall)
  | checkCause (l : LeaseID) (ctx : ContextID) (op : StoreCall)
  | checkCurrent (l : LeaseID) (ctx : ContextID) (op : StoreCall)
  | checkContext (l : LeaseID) (ctx : ContextID) (op : StoreCall)
  | perform (l : LeaseID) (ctx : ContextID) (op : StoreCall)
  | commit (l : LeaseID) (op : StoreCall)
  | finish (l : LeaseID) (result : Except SessionError Unit)
  | unlock (l : LeaseID) (error : SessionError)
  | retire (l : LeaseID) (cause : SessionError)
  | release (l : LeaseID) (result : Except SessionError Unit)
  | releaseLock (l : LeaseID) (result : Except SessionError Unit)
  | releaseUnregister (l : LeaseID) (result : Except SessionError Unit)
  | releaseClose (l : LeaseID) (result : Except SessionError Unit)
  | acquired (l : LeaseID)
  | returned (result : Except SessionError Unit)

/-- What an owner calls. A nil `Retire` cause is passed as `none`. -/
inductive Request
  | acquire (ctx : ContextID) (key : SessionKey) (initial : Snapshot)
  | save (l : LeaseID) (ctx : ContextID) (next : Snapshot)
  | delete (l : LeaseID) (ctx : ContextID)
  | retire (l : LeaseID) (cause : Option SessionError)
  | release (l : LeaseID)

/-- The coordinator with its store, leases and calls. `history` records a key's leases. -/
structure LocalCoordinator (σ : Type) where
  store : σ
  leases : SessionKey → Option LeaseID
  generations : SessionKey → Int64
  objects : LeaseID → Option LocalLease
  allocated : LeaseID
  calls : CallID → Option Call
  contexts : ContextID → Bool
  history : SessionKey → List (FenceEvent Int)

def newLocalCoordinator {σ : Type} (store : σ) : LocalCoordinator σ where
  store := store
  leases := fun _ => none
  generations := fun _ => 0
  objects := fun _ => none
  allocated := 0
  calls := fun _ => none
  contexts := fun _ => false
  history := fun _ => []

namespace LocalCoordinator

variable {σ : Type}

def goto (s : LocalCoordinator σ) (c : CallID) (call : Call) : LocalCoordinator σ :=
  { s with calls := Function.update s.calls c (some call) }

def put (s : LocalCoordinator σ) (l : LeaseID) (lease : LocalLease) : LocalCoordinator σ :=
  { s with objects := Function.update s.objects l (some lease) }

def record (s : LocalCoordinator σ) (key : SessionKey) (e : FenceEvent Int) : LocalCoordinator σ :=
  { s with history := Function.update s.history key (s.history key ++ [e]) }

/-- `context.Cause` of the lease's context, a child of that of `Acquire`. -/
def cause (s : LocalCoordinator σ) (lease : LocalLease) : Option SessionError :=
  match lease.cause with
  | some e => some e
  | none => if s.contexts lease.ctx then some .canceled else none

def cancel (s : LocalCoordinator σ) (lease : LocalLease) (e : SessionError) : LocalLease :=
  match s.cause lease with
  | some _ => lease
  | none => { lease with cause := some e }

def acquire (s : LocalCoordinator σ) (c : CallID) (ctx : ContextID) (key : SessionKey)
    (initial : Snapshot) : LocalCoordinator σ :=
  if s.contexts ctx then s.goto c (.returned (.error .canceled)) else s.goto c (.lookup ctx key initial)

def createLease (s : LocalCoordinator σ) (c : CallID) (ctx : ContextID) (key : SessionKey)
    (generation : Int64) : LocalCoordinator σ :=
  { s with
    leases := Function.update s.leases key (some s.allocated)
    generations := Function.update s.generations key generation
    objects := Function.update s.objects s.allocated (some ⟨key, generation, ctx, none, false, false,
      none, none, false, false, false, .opening c⟩)
    allocated := s.allocated + 1
    history := Function.update s.history key (s.history key ++ [.created generation.toInt]) }

/-- The section of `Acquire` under the coordinator's mutex. The addition wraps around. -/
def lookup (s : LocalCoordinator σ) (c : CallID) (ctx : ContextID) (key : SessionKey)
    (initial : Snapshot) : LocalCoordinator σ :=
  match s.leases key with
  | some previous => s.goto c (.retirePrevious previous ctx key initial)
  | none =>
    if s.generations key + 1 ≤ s.generations key then
      s.goto c (.returned (.error .leaseGenerationExhausted))
    else (s.createLease c ctx key (s.generations key + 1)).goto c (.loadOrCreate s.allocated ctx initial)

def loadOrCreate (impl : Store σ) (s : LocalCoordinator σ) (c : CallID) (l : LeaseID)
    (lease : LocalLease) (ctx : ContextID) (initial : Snapshot) : LocalCoordinator σ :=
  let out := impl.loadOrCreate s.store (s.contexts ctx) lease.key initial
  ({ s with store := out.1 }.record lease.key (.loaded lease.generation.toInt)).goto c (.loaded l out.2)

def abandon (s : LocalCoordinator σ) (c : CallID) (l : LeaseID) (lease : LocalLease)
    (e : SessionError) : LocalCoordinator σ :=
  (s.put l { lease with stage := .abandoned }).goto c (.release l (.error e))

def loaded (s : LocalCoordinator σ) (c : CallID) (l : LeaseID) (lease : LocalLease) :
    Except SessionError (Snapshot × Bool) → LocalCoordinator σ
  | .error e => s.abandon c l lease e
  | .ok (snapshot, created) =>
    match s.cause lease with
    | some e => s.abandon c l lease e
    | none => s.goto c (.publish l snapshot created)

def publish (s : LocalCoordinator σ) (c : CallID) (l : LeaseID) (lease : LocalLease)
    (snapshot : Snapshot) (created : Bool) : LocalCoordinator σ :=
  (s.put l { lease with
    snapshot := some snapshot, created := created, ready := true, stage := .returned }).goto c
    (.acquired l)

def checkReady (s : LocalCoordinator σ) (c : CallID) (l : LeaseID) (lease : LocalLease)
    (ctx : ContextID) (op : StoreCall) : LocalCoordinator σ :=
  if !lease.ready || lease.released then s.goto c (.unlock l .leaseInactive)
  else s.goto c (.checkCause l ctx op)

def checkCause (s : LocalCoordinator σ) (c : CallID) (l : LeaseID) (lease : LocalLease)
    (ctx : ContextID) (op : StoreCall) : LocalCoordinator σ :=
  match s.cause lease with
  | some e => s.goto c (.unlock l e)
  | none => s.goto c (.checkCurrent l ctx op)

def checkCurrent (s : LocalCoordinator σ) (c : CallID) (l : LeaseID) (lease : LocalLease)
    (ctx : ContextID) (op : StoreCall) : LocalCoordinator σ :=
  if s.leases lease.key = some l then
    (s.record lease.key (.begun lease.generation.toInt)).goto c (.checkContext l ctx op)
  else s.goto c (.unlock l .leaseLost)

def checkContext (s : LocalCoordinator σ) (c : CallID) (l : LeaseID) (ctx : ContextID)
    (op : StoreCall) : LocalCoordinator σ :=
  if s.contexts ctx then s.goto c (.finish l (.error .canceled)) else s.goto c (.perform l ctx op)

/-- The store sees the lease's context, cancelled also with the caller's. -/
def storeCall (impl : Store σ) (s : LocalCoordinator σ) (lease : LocalLease) (ctx : ContextID) :
    StoreCall → σ × Except SessionError Unit
  | .save next => impl.save s.store ((s.cause lease).isSome || s.contexts ctx) lease.key next
  | .delete => impl.delete s.store ((s.cause lease).isSome || s.contexts ctx) lease.key

def perform (impl : Store σ) (s : LocalCoordinator σ) (c : CallID) (l : LeaseID) (lease : LocalLease)
    (ctx : ContextID) (op : StoreCall) : LocalCoordinator σ :=
  let out := storeCall impl s lease ctx op
  let s := { s with store := out.1 }.record lease.key (.stored lease.generation.toInt)
  match out.2 with
  | .error e => s.goto c (.finish l (.error e))
  | .ok () => s.goto c (.commit l op)

def commit (s : LocalCoordinator σ) (c : CallID) (l : LeaseID) (lease : LocalLease) :
    StoreCall → LocalCoordinator σ
  | .save next => (s.put l { lease with snapshot := some next }).goto c (.finish l (.ok ()))
  | .delete =>
    (s.put l (s.cancel { lease with ready := false } .leaseReleased)).goto c (.finish l (.ok ()))

def finish (s : LocalCoordinator σ) (c : CallID) (l : LeaseID) (lease : LocalLease)
    (result : Except SessionError Unit) : LocalCoordinator σ :=
  ((s.put l { lease with opMu := none }).record lease.key (.finished lease.generation.toInt)).goto c
    (.returned result)

def unregister (s : LocalCoordinator σ) (c : CallID) (l : LeaseID) (lease : LocalLease)
    (result : Except SessionError Unit) : LocalCoordinator σ :=
  if s.leases lease.key = some l then
    ({ s with leases := Function.update s.leases lease.key none }.record lease.key
      (.released lease.generation.toInt)).goto c (.releaseClose l result)
  else s.goto c (.releaseClose l result)

/-- The next atomic action of a call, `none` while it is blocked. -/
def run (impl : Store σ) (s : LocalCoordinator σ) (c : CallID) : Call → Option (LocalCoordinator σ)
  | .acquire ctx key initial => some (s.acquire c ctx key initial)
  | .lookup ctx key initial => some (s.lookup c ctx key initial)
  | .loadOrCreate l ctx initial =>
    (s.objects l).map fun lease => s.loadOrCreate impl c l lease ctx initial
  | .loaded l result => (s.objects l).map fun lease => s.loaded c l lease result
  | .publish l snapshot created => (s.objects l).bind fun lease =>
    if lease.opMu = none then some (s.publish c l lease snapshot created) else none
  | .retirePrevious l ctx key initial => (s.objects l).bind fun lease =>
    if lease.opMu = none then
      some ((s.put l (s.cancel lease .leaseLost)).goto c (.waitPrevious l ctx key initial))
    else none
  | .waitPrevious l ctx key initial => (s.objects l).bind fun lease =>
    if lease.done then some (s.goto c (.acquire ctx key initial)) else none
  | .lock l ctx op => (s.objects l).bind fun lease =>
    if lease.opMu = none then
      some ((s.put l { lease with opMu := some c }).goto c (.checkReady l ctx op))
    else none
  | .checkReady l ctx op => (s.objects l).map fun lease => s.checkReady c l lease ctx op
  | .checkCause l ctx op => (s.objects l).map fun lease => s.checkCause c l lease ctx op
  | .checkCurrent l ctx op => (s.objects l).map fun lease => s.checkCurrent c l lease ctx op
  | .checkContext l ctx op => some (s.checkContext c l ctx op)
  | .perform l ctx op => (s.objects l).map fun lease => s.perform impl c l lease ctx op
  | .commit l op => (s.objects l).map fun lease => s.commit c l lease op
  | .finish l result => (s.objects l).map fun lease => s.finish c l lease result
  | .unlock l e => (s.objects l).map fun lease =>
    (s.put l { lease with opMu := none }).goto c (.returned (.error e))
  | .retire l e => (s.objects l).bind fun lease =>
    if lease.opMu = none then some ((s.put l (s.cancel lease e)).goto c (.returned (.ok ()))) else none
  | .release l result => (s.objects l).bind fun lease =>
    if lease.once = false then
      some ((s.put l { lease with once := true }).goto c (.releaseLock l result))
    -- a second caller of `once.Do` waits for the first
    else if lease.done then some (s.goto c (.returned result)) else none
  | .releaseLock l result => (s.objects l).bind fun lease =>
    if lease.opMu = none then
      some ((s.put l (s.cancel { lease with released := true } .leaseReleased)).goto c
        (.releaseUnregister l result))
    else none
  | .releaseUnregister l result => (s.objects l).map fun lease => s.unregister c l lease result
  | .releaseClose l result => (s.objects l).map fun lease =>
    (s.put l { lease with done := true }).goto c (.returned result)
  | .acquired _ => none
  | .returned _ => none

def request (s : LocalCoordinator σ) : Request → Option Call
  | .acquire ctx key initial =>
    some (if initial.key ≠ key then .returned (.error .sessionKeyMismatch)
      else .acquire ctx key initial)
  | .save l ctx next => (s.objects l).bind fun lease =>
    if lease.stage = .returned then
      some (if next.key ≠ lease.key then .returned (.error .sessionKeyMismatch)
        else .lock l ctx (.save next))
    else none
  | .delete l ctx => (s.objects l).bind fun lease =>
    if lease.stage = .returned then some (.lock l ctx .delete) else none
  | .retire l e => (s.objects l).bind fun lease =>
    if lease.stage = .returned then some (.retire l (e.getD .leaseInactive)) else none
  | .release l => (s.objects l).bind fun lease =>
    if lease.stage = .returned then some (.release l (.ok ())) else none

end LocalCoordinator

inductive CoordinatorOp
  | call (c : CallID) (request : Request)
  | advance (c : CallID)
  | stopWaiting (c : CallID)
  | cancelContext (ctx : ContextID)

/-- One action of one goroutine. `stopWaiting` is the other branch of the `select`. -/
def LocalCoordinator.step {σ : Type} (impl : Store σ) (s : LocalCoordinator σ) :
    CoordinatorOp → Option (LocalCoordinator σ)
  | .call c request =>
    match s.calls c with
    | none => (s.request request).map (s.goto c)
    | some _ => none
  | .advance c => (s.calls c).bind (s.run impl c)
  | .stopWaiting c =>
    match s.calls c with
    | some (.waitPrevious _ ctx _ _) =>
      if s.contexts ctx then some (s.goto c (.returned (.error .canceled))) else none
    | _ => none
  | .cancelContext ctx => some { s with contexts := Function.update s.contexts ctx true }

end Tlrpc
