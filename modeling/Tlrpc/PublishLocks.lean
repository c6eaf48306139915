import Tlrpc.ApplicationResult
import Tlrpc.PushBarrier
import Tlrpc.PushRegistry
import Tlrpc.WaitGraph

namespace Tlrpc

/-- The mutex of a registration, `orderMu` and `mu` of the barrier, and `outcomeMu`. -/
inductive PushLock
  | binding (target : RegistrationRef)
  | order
  | mu
  | outcome
deriving DecidableEq

inductive OutcomeTask
  | applyOutcome (outcome : Outcome)
  | subscribeForPush

/-- The holder of `outcomeMu`; in `modifying` it has the mutex of a registration. -/
inductive OutcomeSection
  | locked
  | loaded (next : Snapshot)
  | updating (next : Snapshot) (stage : UpdateStage)
  | modifying (next : Snapshot) (target : RegistrationRef)
  | finished (err : Option BarrierError)

def OutcomeSection.afterUpdate (next : Snapshot) : Option UpdateStage → OutcomeSection
  | some stage => .updating next stage
  | none => .finished none

/-- The arguments of `pushProjectedIfCurrent`; `ctxErr` is what `ctx.Err` returns. -/
structure ProjectedPush where
  target : RegistrationRef
  binding : Binding
  ctxErr : Option BarrierError
  body : List UInt8

/-- Where a call stands. `reply` is the outcome that a `finish` will apply. -/
inductive PublishCall
  | lockBinding (push : ProjectedPush)
  | compare (push : ProjectedPush)
  | pushing (target : RegistrationRef)
  | unlockBinding (target : RegistrationRef)
  | barrier (reply : Option Outcome)
  | lockOutcome (task : OutcomeTask)
  | outcome (task : OutcomeTask) (guarded : Bool) (stage : OutcomeSection)
  | returned

inductive PublishRequest
  | pushProjectedIfCurrent (push : ProjectedPush)
  | push (ctxErr : Option BarrierError) (body : List UInt8)
  | begin
  | finish (t : CallID) (outcome : Outcome)
  | cancel (t : CallID)
  | close (cause : Option BarrierError)
  | subscribeForPush
  | applyOutcome (outcome : Outcome)

def BarrierCall.underMu : BarrierCall → Bool
  | .beginActivate | .pushCheck _ | .pushRecheck _ | .finishCheck _ | .finishRelease _ _ | .drain _
  | .drainFail _ _ | .abortClose _ | .closeClose _ => true
  | _ => false

def BarrierCall.wantsOrder : BarrierCall → Option LockMode
  | .beginLock | .finishLock _ | .abortLock _ | .closeLock _ => some .exclusive
  | .pushRLock _ => some .shared
  | _ => none

/-- A session with its lease, its barrier and the push registry. -/
structure PublishState where
  generation : Int
  sender : RequestSender
  snapshot : Snapshot
  active : Bool
  acceptsPush : Bool
  registry : RuntimePushRegistry
  push : PushBarrierState
  mu : Option CallID
  outcomeMu : Option CallID
  bindingMu : RegistrationRef → Option CallID
  calls : CallID → Option PublishCall

inductive PublishOp
  | call (c : CallID) (request : PublishRequest)
  | advance (c : CallID) (result : Option BarrierError) (stored : Bool)
  | save (next : Snapshot)
  | retire

namespace PublishState

def start (snapshot : Snapshot) (generation : Int) (sender : RequestSender)
    (registry : RuntimePushRegistry) (maxCount maxBytes : Int) : PublishState where
  generation := generation
  sender := sender
  snapshot := snapshot
  active := true
  acceptsPush := snapshot.pushSubscription
  registry := registry
  push := .initial maxCount maxBytes
  mu := none
  outcomeMu := none
  bindingMu _ := none
  calls _ := none

def goto (s : PublishState) (c : CallID) (call : PublishCall) : PublishState :=
  { s with calls := Function.update s.calls c (some call) }

def enter (s : PublishState) (c : CallID) (request : BarrierRequest) (call : PublishCall) :
    Option PublishState :=
  (s.push.step (.call c request)).map fun push => { s with push := push }.goto c call

/-- The first action of a call. Other sessions have barriers of their own. -/
def request (s : PublishState) (c : CallID) : PublishRequest → Option PublishState
  | .pushProjectedIfCurrent push =>
    if (s.registry.memory push.target).sender = s.sender then some (s.goto c (.lockBinding push))
    else none
  | .push ctxErr body => s.enter c (.push ctxErr body) (.barrier none)
  | .begin => s.enter c .begin (.barrier none)
  | .finish t outcome => s.enter c (.finish t) (.barrier (some outcome))
  | .cancel t => s.enter c (.cancel t) (.barrier none)
  | .close cause => s.enter c (.close cause) (.barrier none)
  | .subscribeForPush => some (s.goto c (.lockOutcome .subscribeForPush))
  | .applyOutcome outcome => some (s.goto c (.lockOutcome (.applyOutcome outcome)))

/-- The barrier's code goes on; `mu` is held for one section at a time. -/
def barrierStep (s : PublishState) (c : CallID) (result : Option BarrierError) :
    Option PublishState :=
  match s.push.calls c with
  | some call =>
    if call.underMu then
      if s.mu = some c then
        (s.push.step (.advance c result)).map fun push => { s with push := push, mu := none }
      else if s.mu = none then some { s with mu := some c }
      else none
    else (s.push.step (.advance c result)).map fun push => { s with push := push }
  | none => none

def lockBinding (s : PublishState) (c : CallID) (target : RegistrationRef) (call : PublishCall) :
    Option PublishState :=
  if s.bindingMu target = none then
    some ({ s with bindingMu := Function.update s.bindingMu target (some c) }.goto c call)
  else none

def unlockBinding (s : PublishState) (target : RegistrationRef) : PublishState :=
  { s with bindingMu := Function.update s.bindingMu target none }

def lockOutcome (s : PublishState) (c : CallID) (task : OutcomeTask) (guarded : Bool) :
    Option PublishState :=
  if s.outcomeMu = none then
    some ({ s with outcomeMu := some c }.goto c (.outcome task guarded .locked))
  else none

/-- `current.reachable && current.binding == target.binding`, and then `sender.Push`. -/
def compare (s : PublishState) (c : CallID) (push : ProjectedPush) : Option PublishState :=
  let current := s.registry.memory push.target
  if current.reachable ∧ current.binding = push.binding then
    s.enter c (.push push.ctxErr push.body) (.pushing push.target)
  else some (s.goto c (.unlockBinding push.target))

/-- The snapshot with the mutations, if the lease is active and they are valid. -/
def mutate (s : PublishState) (mutations : List SessionMutation) : OutcomeSection :=
  if s.active then
    match applySessionMutations s.snapshot mutations with
    | some next => .loaded next
    | none => .finished (some (.other 0))
  else .finished (some (.other 0))

def load (s : PublishState) : OutcomeTask → OutcomeSection
  | .applyOutcome outcome =>
    if validateOutcome outcome = false then .finished (some (.other 0))
    else if outcome.mutations = [] then .finished none
    else s.mutate outcome.mutations
  | .subscribeForPush =>
    if s.acceptsPush then .finished none else s.mutate [.setPushSubscription true]

def updateSection (s : PublishState) (c : CallID) (task : OutcomeTask) (guarded : Bool)
    (next : Snapshot) (stage : UpdateStage) : PublishState :=
  let result := s.registry.updateSection next s.generation s.sender s.acceptsPush stage
  { s with registry := result.1 }.goto c (.outcome task guarded (.afterUpdate next result.2))

/-- `stored` is the store's answer, `result` that of the submissions. -/
def outcomeStep (s : PublishState) (c : CallID) (result : Option BarrierError) (stored : Bool)
    (task : OutcomeTask) (guarded : Bool) : OutcomeSection → Option PublishState
  | .locked => some (s.goto c (.outcome task guarded (s.load task)))
  | .loaded next =>
    if s.active ∧ next.key = s.snapshot.key ∧ stored then
      some ({ s with snapshot := next, acceptsPush := next.pushSubscription }.goto c
        (.outcome task guarded (.updating next .find)))
    else some (s.goto c (.outcome task guarded (.finished (some (.other 0)))))
  | .updating next (.modify target) =>
    s.lockBinding c target (.outcome task guarded (.modifying next target))
  | .updating next stage => some (s.updateSection c task guarded next stage)
  | .modifying next target =>
    some ((s.updateSection c task guarded next (.modify target)).unlockBinding target)
  | .finished err =>
    let s := { s with outcomeMu := none }
    if guarded then
      (s.push.step (.advance c (err.or result))).map fun push =>
        { s with push := push }.goto c (.barrier none)
    else some (s.goto c .returned)

def run (s : PublishState) (c : CallID) (result : Option BarrierError) (stored : Bool) :
    PublishCall → Option PublishState
  | .lockBinding push => s.lockBinding c push.target (.compare push)
  | .compare push => s.compare c push
  | .pushing target =>
    match s.push.calls c with
    | some (.returned _) => some (s.goto c (.unlockBinding target))
    | _ => s.barrierStep c result
  | .unlockBinding target => some ((s.unlockBinding target).goto c .returned)
  | .barrier reply =>
    match reply, s.push.calls c with
    | some outcome, some (.finishReply _) => s.lockOutcome c (.applyOutcome outcome) true
    | _, _ => s.barrierStep c result
  | .lockOutcome task => s.lockOutcome c task false
  | .outcome task guarded stage => s.outcomeStep c result stored task guarded stage
  | .returned => none

def step (s : PublishState) : PublishOp → Option PublishState
  | .call c request =>
    match s.calls c with
    | none => s.request c request
    | some _ => none
  | .advance c result stored => (s.calls c).bind (s.run c result stored)
  | .save next =>
    if s.active ∧ next.key = s.snapshot.key then some { s with snapshot := next } else none
  | .retire => some { s with active := false }

def barrierWants (s : PublishState) (c : CallID) : Option (PushLock × LockMode) :=
  match s.push.calls c with
  | some call =>
    if call.underMu then if s.mu = some c then none else some (.mu, .exclusive)
    else call.wantsOrder.map (PushLock.order, ·)
  | none => none

def wants (s : PublishState) (c : CallID) : Option (PushLock × LockMode) :=
  match s.calls c with
  | some (.lockBinding push) => some (.binding push.target, .exclusive)
  | some (.pushing _) => s.barrierWants c
  | some (.barrier reply) =>
    match reply, s.push.calls c with
    | some _, some (.finishReply _) => some (.outcome, .exclusive)
    | _, _ => s.barrierWants c
  | some (.lockOutcome _) => some (.outcome, .exclusive)
  | some (.outcome _ _ (.updating _ (.modify target))) => some (.binding target, .exclusive)
  | _ => none

def holds (s : PublishState) : PushLock → LockMode → CallID → Prop
  | .binding target, .exclusive, c => s.bindingMu target = some c
  | .order, .exclusive, c => s.push.writer = some c
  | .order, .shared, c => c ∈ s.push.readers
  | .mu, .exclusive, c => s.mu = some c
  | .outcome, .exclusive, c => s.outcomeMu = some c
  | _, .shared, _ => False

def locks (s : PublishState) : LockTable CallID PushLock := ⟨s.wants, s.holds⟩

/-- A publisher with a registration's mutex found the barrier open and wants `orderMu`. -/
def parked (s : PublishState) (target : RegistrationRef) : Bool :=
  match s.bindingMu target with
  | some c =>
    match s.push.calls c with
    | some (.pushRLock _) => true
    | _ => false
  | none => false

def updateTarget (s : PublishState) : Option RegistrationRef :=
  match s.outcomeMu with
  | some c =>
    match s.calls c with
    | some (.outcome _ _ (.updating _ (.modify target))) => some target
    | _ => none
  | none => none

def replyHeld (s : PublishState) : Bool :=
  match s.push.writer with
  | some c => s.outcomeMu = some c || s.wants c = some (.outcome, .exclusive)
  | none => false

/-- No `Update` turns to a registration held on the way to `orderMu` while a `finish` holds
`orderMu` for its reply, and no `finish` turns to its reply during such an `Update`. -/
def Apart (s : PublishState) : PublishOp → Prop
  | .advance c _ _ =>
    match s.calls c, s.push.calls c with
    | some (.outcome _ _ (.updating next .find)), _ =>
      ∀ target ∈ s.registry.findRuntimePushBinding next.key s.sender,
        s.parked target = true → s.replyHeld = false
    | some (.barrier (some _)), some (.finishCheck _) =>
      s.mu = some c → s.push.barrier.closed = false →
        ∀ target ∈ s.updateTarget, s.parked target = false
    | _, _ => True
  | _ => True

end PublishState

end Tlrpc
