import Mathlib.Algebra.BigOperators.Group.List.Basic
import Mathlib.Algebra.GroupWithZero.Nat
import Tlrpc.PushBarrier

namespace Tlrpc

open List Option

structure RecoveryPushBarrier.Bounded (b : RecoveryPushBarrier) : Prop where
  count : b.queue.length ≤ b.maxCount
  bytes : b.queuedBytes = (b.queue.map fun push => push.body.length).sum
  size : b.queuedBytes ≤ b.maxBytes

namespace RecoveryPushBarrier

variable {b : RecoveryPushBarrier}

theorem new_bounded {maxCount maxBytes : Int} (hcnt : 0 ≤ maxCount) (hby : 0 ≤ maxBytes) :
    (newRecoveryPushBarrier maxCount maxBytes).Bounded :=
  ⟨hcnt, rfl, hby⟩

theorem Bounded.close (h : b.Bounded) (cause : Option BarrierError) : (b.closeLocked cause).Bounded := by
  unfold closeLocked
  split
  · exact h
  have hcnt := h.count
  have hby := h.bytes
  have hsz := h.size
  refine ⟨?_, rfl, ?_⟩
  · change ((0 : Nat) : Int) ≤ b.maxCount
    omega
  · change (0 : Int) ≤ b.maxBytes
    omega

theorem Bounded.enqueue (h : b.Bounded) (push : QueuedPush) : (b.enqueueLocked push).1.Bounded := by
  unfold enqueueLocked
  split
  · exact h
  split
  · exact h.close _
  rename_i hrm
  have hby := h.bytes
  refine ⟨?_, ?_, ?_⟩
  · simp only [length_append, length_singleton]
    omega
  · simp only [map_append, sum_append, map_cons, map_nil, sum_cons, sum_nil]
    omega
  · change b.queuedBytes + push.body.length ≤ b.maxBytes
    omega

theorem Bounded.dequeue {push : QueuedPush} {rest : List QueuedPush} (h : b.Bounded)
    (hque : b.queue = push :: rest) :
    { b with queue := rest, queuedBytes := b.queuedBytes - push.body.length }.Bounded := by
  obtain ⟨hcnt, hby, hsz⟩ := h
  rw [hque] at hcnt hby
  simp only [length_cons, map_cons, sum_cons] at hcnt hby
  refine ⟨?_, ?_, ?_⟩
  · change rest.length ≤ b.maxCount
    omega
  · change b.queuedBytes - push.body.length = (rest.map fun push => push.body.length).sum
    omega
  · change b.queuedBytes - push.body.length ≤ b.maxBytes
    omega

theorem Bounded.release (h : b.Bounded) : b.releaseLocked.Bounded := by
  unfold releaseLocked
  split
  · exact ⟨h.count, h.bytes, h.size⟩
  · exact h

end RecoveryPushBarrier

namespace PushBarrierState

variable {s s' : PushBarrierState} {c : CallID}

theorem close_bounded (h : s.barrier.Bounded) (cause : Option BarrierError) :
    (s.close cause).barrier.Bounded := by
  unfold close
  split
  · exact h
  · exact h.close cause

theorem enqueue_bounded (h : s.barrier.Bounded) (body : List UInt8) :
    (s.enqueue c body).1.barrier.Bounded := by
  have hnx := h.enqueue ⟨c, body⟩
  unfold enqueue
  split
  next b hb =>
    rw [hb] at hnx
    exact hnx
  next b err hb =>
    rw [hb] at hnx
    split <;> exact hnx

variable {call : BarrierCall}

section

variable (h : s.barrier.Bounded)
include h

theorem lock_bounded (hs : s.lock c call = some s') : s'.barrier.Bounded := by
  obtain ⟨_, hs⟩ := ite_none_right_eq_some.mp hs
  cases hs
  exact h

theorem once_bounded {t : CallID} (hs : s.once c t call = some s') : s'.barrier.Bounded := by
  obtain ⟨⟨once, done⟩, _, hs⟩ := bind_eq_some_iff.mp hs
  cases once with
  | none =>
    cases hs
    exact h
  | some c' =>
    obtain ⟨_, hs⟩ := ite_none_right_eq_some.mp hs
    cases hs
    exact h

theorem run_bounded {result : Option BarrierError}
    (hs : s.run c result call = some s') : s'.barrier.Bounded := by
  cases call with
  | beginLock | finishLock t | abortLock t | closeLock cause => exact lock_bounded h hs
  | finishOnce t | cancelOnce t => exact once_bounded h hs
  | beginActivate =>
    cases hs
    unfold beginActivate
    split
    · exact h
    · exact ⟨h.count, h.bytes, h.size⟩
  | pushCheck body =>
    cases hs
    unfold pushCheck
    split
    · exact h
    split
    · exact enqueue_bounded h body
    · exact h
  | pushRLock body =>
    obtain ⟨_, hs⟩ := ite_none_right_eq_some.mp hs
    cases hs
    exact h
  | pushRecheck body =>
    cases hs
    unfold pushRecheck
    split
    · exact h
    split
    · exact enqueue_bounded h body
    · exact h
  | finishCheck t =>
    cases hs
    unfold finishCheck
    split <;> exact h
  | finishRelease t replyErr =>
    cases hs
    cases replyErr with
    | some err => exact close_bounded h _
    | none =>
      dsimp only [finishRelease]
      split
      · exact h
      split
      · exact ⟨h.release.count, h.release.bytes, h.release.size⟩
      · exact h.release
  | drain t =>
    cases hs
    unfold drain
    split
    · exact ⟨h.count, h.bytes, h.size⟩
    split
    · exact ⟨h.count, h.bytes, h.size⟩
    split
    · exact ⟨h.count, h.bytes, h.size⟩
    next push rest hque => exact h.dequeue hque
  | drainSubmitting t push =>
    cases hs
    cases result <;> exact h
  | abortClose t =>
    cases hs
    unfold abortClose
    split
    · exact h
    · exact close_bounded h _
  | drainFail t err | closeClose cause =>
    cases hs
    exact close_bounded h _
  | begun | returned result => cases hs
  | _ =>
    cases hs
    exact h

theorem step_bounded {op : BarrierOp} (hs : s.step op = some s') : s'.barrier.Bounded := by
  cases op with
  | call c req =>
    dsimp only [step] at hs
    split at hs
    · obtain ⟨call, _, rfl⟩ := map_eq_some_iff.mp hs
      exact h
    · cases hs
  | advance c result =>
    obtain ⟨call, _, hrun⟩ := bind_eq_some_iff.mp hs
    exact run_bounded h hrun

end

end PushBarrierState

end Tlrpc
