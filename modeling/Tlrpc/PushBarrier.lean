import Tlrpc.GatedQueue

namespace Tlrpc

inductive BarrierError
  | full (count : Nat) (maxCount queuedBytes : Int) (size : Nat) (maxBytes : Int)
  | aborted
  | canceled
  | other (code : Nat)
deriving DecidableEq

def BarrierError.isFull : BarrierError → Bool
  | .full _ _ _ _ _ => true
  | _ => false

structure QueuedPush where
  call : CallID
  body : List UInt8

structure RecoveryPushBarrier where
  maxCount : Int
  maxBytes : Int
  active : Int
  draining : Bool
  queuedBytes : Int
  queue : List QueuedPush
  closed : Bool
  cause : Option BarrierError

def newRecoveryPushBarrier (maxCount maxBytes : Int) : RecoveryPushBarrier :=
  ⟨maxCount, maxBytes, 0, false, 0, [], false, none⟩

namespace RecoveryPushBarrier

def closeCauseLocked (b : RecoveryPushBarrier) : BarrierError := b.cause.getD .canceled

def closeLocked (b : RecoveryPushBarrier) (cause : Option BarrierError) : RecoveryPushBarrier :=
  if b.closed then b
  else { b with closed := true, cause := some (cause.getD .canceled), queue := [], queuedBytes := 0 }

def enqueueLocked (b : RecoveryPushBarrier) (push : QueuedPush) :
    RecoveryPushBarrier × Option BarrierError :=
  if b.closed then (b, some b.closeCauseLocked)
  else if b.queue.length ≥ b.maxCount ∨ push.body.length > b.maxBytes - b.queuedBytes then
    let err := BarrierError.full b.queue.length b.maxCount b.queuedBytes push.body.length b.maxBytes
    (b.closeLocked (some err), some err)
  else ({ b with queue := b.queue ++ [push], queuedBytes := b.queuedBytes + push.body.length }, none)

def releaseLocked (b : RecoveryPushBarrier) : RecoveryPushBarrier :=
  if b.active > 0 then { b with active := b.active - 1 } else b

end RecoveryPushBarrier

/-- `once` is the call that runs the token's `once.Do`. -/
structure BarrierToken where
  once : Option CallID
  completed : Bool

/-- Where a call stands. A token is named by the call of `begin` that made it. -/
inductive BarrierCall
  | beginLock
  | beginActivate
  | beginUnlock
  | begun
  | pushCheck (body : List UInt8)
  | pushRLock (body : List UInt8)
  | pushRecheck (body : List UInt8)
  | pushSubmit (body : List UInt8)
  | pushSubmitting
  | pushRUnlock (result : Option BarrierError) (queueing : Bool)
  | retireOverflow (result : Option BarrierError)
  | finishOnce (t : CallID)
  | finishLock (t : CallID)
  | finishCheck (t : CallID)
  | finishReply (t : CallID)
  | finishRelease (t : CallID) (replyErr : Option BarrierError)
  | drain (t : CallID)
  | drainSubmit (t : CallID) (push : QueuedPush)
  | drainSubmitting (t : CallID) (push : QueuedPush)
  | drainFail (t : CallID) (err : BarrierError)
  | cancelOnce (t : CallID)
  | abortLock (t : CallID)
  | abortClose (t : CallID)
  | onceUnlock (t : CallID) (result retire : Option BarrierError)
  | onceReturn (t : CallID) (result retire : Option BarrierError)
  | closeLock (cause : Option BarrierError)
  | closeClose (cause : Option BarrierError)
  | closeUnlock
  | returned (result : Option BarrierError)

inductive BarrierRequest
  | begin
  | push (ctxErr : Option BarrierError) (body : List UInt8)
  | finish (t : CallID)
  | cancel (t : CallID)
  | close (cause : Option BarrierError)

/-- The barrier with `orderMu`, its tokens and calls. `history` is about pushes and tokens. -/
structure PushBarrierState where
  barrier : RecoveryPushBarrier
  writer : Option CallID
  readers : Finset CallID
  tokens : CallID → Option BarrierToken
  calls : CallID → Option BarrierCall
  retired : List BarrierError
  history : List (GateEvent CallID CallID)

def PushBarrierState.initial (maxCount maxBytes : Int) : PushBarrierState where
  barrier := newRecoveryPushBarrier maxCount maxBytes
  writer := none
  readers := ∅
  tokens := fun _ => none
  calls := fun _ => none
  retired := []
  history := []

namespace PushBarrierState

def goto (s : PushBarrierState) (c : CallID) (call : BarrierCall) : PushBarrierState :=
  { s with calls := Function.update s.calls c (some call) }

def emit (s : PushBarrierState) (e : GateEvent CallID CallID) : PushBarrierState :=
  { s with history := s.history ++ [e] }

def close (s : PushBarrierState) (cause : Option BarrierError) : PushBarrierState :=
  if s.barrier.closed then s else { s with barrier := s.barrier.closeLocked cause }.emit .closed

def lock (s : PushBarrierState) (c : CallID) (call : BarrierCall) : Option PushBarrierState :=
  if s.writer = none ∧ s.readers = ∅ then some ({ s with writer := some c }.goto c call) else none

def unlock (s : PushBarrierState) (c : CallID) (call : BarrierCall) : PushBarrierState :=
  { s with writer := none }.goto c call

def beginActivate (s : PushBarrierState) (c : CallID) : PushBarrierState :=
  let b := if s.barrier.closed then s.barrier else { s.barrier with active := s.barrier.active + 1 }
  let tokens := Function.update s.tokens c (some ⟨none, false⟩)
  ({ s with barrier := b, tokens := tokens }.emit (.begun c)).goto c .beginUnlock

/-- `enqueueLocked`; when it fails on an open barrier it has closed it. -/
def enqueue (s : PushBarrierState) (c : CallID) (body : List UInt8) :
    PushBarrierState × Option BarrierError :=
  match s.barrier.enqueueLocked ⟨c, body⟩ with
  | (b, none) => ({ s with barrier := b }.emit (.queued c), none)
  | (b, some err) =>
    (if s.barrier.closed then { s with barrier := b } else { s with barrier := b }.emit .closed,
      some err)

def gated (s : PushBarrierState) : Bool := s.barrier.active ≠ 0 || s.barrier.draining

def pushCheck (s : PushBarrierState) (c : CallID) (body : List UInt8) : PushBarrierState :=
  if s.barrier.closed then s.goto c (.returned (some s.barrier.closeCauseLocked))
  else if s.gated then (s.enqueue c body).1.goto c (.retireOverflow (s.enqueue c body).2)
  else s.goto c (.pushRLock body)

def pushRecheck (s : PushBarrierState) (c : CallID) (body : List UInt8) : PushBarrierState :=
  if s.barrier.closed then s.goto c (.pushRUnlock (some s.barrier.closeCauseLocked) false)
  else if s.gated then (s.enqueue c body).1.goto c (.pushRUnlock (s.enqueue c body).2 true)
  else (s.emit (.passed c)).goto c (.pushSubmit body)

def retireOverflow (s : PushBarrierState) (c : CallID) (result : Option BarrierError) :
    PushBarrierState :=
  { s with retired := s.retired ++ (result.filter BarrierError.isFull).toList }.goto c (.returned result)

def once (s : PushBarrierState) (c t : CallID) (call : BarrierCall) : Option PushBarrierState :=
  (s.tokens t).bind fun token =>
    match token.once with
    | none => some ({ s with tokens := Function.update s.tokens t (some ⟨some c, false⟩) }.goto c call)
    | some _ => if token.completed then some (s.goto c (.returned none)) else none

def finishCheck (s : PushBarrierState) (c t : CallID) : PushBarrierState :=
  if s.barrier.closed then s.goto c (.onceUnlock t (some s.barrier.closeCauseLocked) none)
  else s.goto c (.finishReply t)

def finishRelease (s : PushBarrierState) (c t : CallID) :
    Option BarrierError → PushBarrierState
  | some replyErr => (s.close (some replyErr)).goto c (.onceUnlock t (some replyErr) (some replyErr))
  | none =>
    if s.barrier.closed then s.goto c (.onceUnlock t (some s.barrier.closeCauseLocked) none)
    else if s.barrier.releaseLocked.active = 0 ∧ s.barrier.queue ≠ [] then
      { s with barrier := { s.barrier.releaseLocked with draining := true } }.goto c (.drain t)
    else { s with barrier := s.barrier.releaseLocked }.goto c (.onceUnlock t none none)

def stopDraining (s : PushBarrierState) : PushBarrierState :=
  { s with barrier := { s.barrier with draining := false } }

def drain (s : PushBarrierState) (c t : CallID) : PushBarrierState :=
  if s.barrier.closed then
    s.stopDraining.goto c
      (.onceUnlock t (some s.barrier.closeCauseLocked) (some s.barrier.closeCauseLocked))
  else if s.barrier.active ≠ 0 then s.stopDraining.goto c (.onceUnlock t none none)
  else match s.barrier.queue with
    | [] => s.stopDraining.goto c (.onceUnlock t none none)
    | push :: rest =>
      let b := { s.barrier with
        queue := rest, queuedBytes := s.barrier.queuedBytes - push.body.length }
      ({ s with barrier := b }.emit (.dequeued push.call)).goto c (.drainSubmit t push)

def drainSubmitting (s : PushBarrierState) (c t : CallID) (push : QueuedPush) :
    Option BarrierError → PushBarrierState
  | none => (s.emit (.settled push.call)).goto c (.drain t)
  | some err => (s.emit (.settled push.call)).goto c (.drainFail t err)

def abortClose (s : PushBarrierState) (c t : CallID) : PushBarrierState :=
  if s.barrier.closed then s.goto c (.onceUnlock t none none)
  else (s.close (some .aborted)).goto c (.onceUnlock t none (some .aborted))

/-- After the function of `once.Do`, which may call `retire` as its last action. -/
def complete (s : PushBarrierState) (t : CallID) (retire : Option BarrierError) : PushBarrierState :=
  let token := (s.tokens t).map fun token => ({ token with completed := true } : BarrierToken)
  { s with tokens := Function.update s.tokens t token, retired := s.retired ++ retire.toList }

/-- The next action, `none` while blocked. `result` is of a submission or a reply. -/
def run (s : PushBarrierState) (c : CallID) (result : Option BarrierError) :
    BarrierCall → Option PushBarrierState
  | .beginLock => s.lock c .beginActivate
  | .beginActivate => some (s.beginActivate c)
  | .beginUnlock => some (s.unlock c .begun)
  | .pushCheck body => some (s.pushCheck c body)
  | .pushRLock body =>
    if s.writer = none then some ({ s with readers := insert c s.readers }.goto c (.pushRecheck body))
    else none
  | .pushRecheck body => some (s.pushRecheck c body)
  | .pushSubmit _ => some ((s.emit (.submitted c false)).goto c .pushSubmitting)
  | .pushSubmitting => some ((s.emit (.settled c)).goto c (.pushRUnlock result false))
  | .pushRUnlock result queueing =>
    some ({ s with readers := s.readers.erase c }.goto c
      (if queueing then .retireOverflow result else .returned result))
  | .retireOverflow result => some (s.retireOverflow c result)
  | .finishOnce t => s.once c t (.finishLock t)
  | .finishLock t => s.lock c (.finishCheck t)
  | .finishCheck t => some (s.finishCheck c t)
  | .finishReply t => some ((s.emit (.replied t)).goto c (.finishRelease t result))
  | .finishRelease t replyErr => some (s.finishRelease c t replyErr)
  | .drain t => some (s.drain c t)
  | .drainSubmit t push => some ((s.emit (.submitted push.call true)).goto c (.drainSubmitting t push))
  | .drainSubmitting t push => some (s.drainSubmitting c t push result)
  | .drainFail t err => some ((s.close (some err)).goto c (.onceUnlock t (some err) (some err)))
  | .cancelOnce t => s.once c t (.abortLock t)
  | .abortLock t => s.lock c (.abortClose t)
  | .abortClose t => some (s.abortClose c t)
  | .onceUnlock t result retire => some (s.unlock c (.onceReturn t result retire))
  | .onceReturn t result retire =>
    some ((s.complete t retire).goto c (.returned result))
  | .closeLock cause => s.lock c (.closeClose cause)
  | .closeClose cause => some ((s.close cause).goto c .closeUnlock)
  | .closeUnlock => some (s.unlock c (.returned none))
  | .begun => none
  | .returned _ => none

/-- The first action of a call; a token is used once `begin` has returned it. -/
def request (s : PushBarrierState) : BarrierRequest → Option BarrierCall
  | .begin => some .beginLock
  | .push (some err) _ => some (.returned (some err))
  | .push none body => some (.pushCheck body)
  | .finish t => match s.calls t with
    | some .begun => some (.finishOnce t)
    | _ => none
  | .cancel t => match s.calls t with
    | some .begun => some (.cancelOnce t)
    | _ => none
  | .close cause => some (.closeLock cause)

end PushBarrierState

inductive BarrierOp
  | call (c : CallID) (request : BarrierRequest)
  | advance (c : CallID) (result : Option BarrierError)

def PushBarrierState.step (s : PushBarrierState) : BarrierOp → Option PushBarrierState
  | .call c request =>
    match s.calls c with
    | none => (s.request request).map (s.goto c)
    | some _ => none
  | .advance c result => (s.calls c).bind (s.run c result)

end Tlrpc
