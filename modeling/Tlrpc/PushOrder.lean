import Tlrpc.PushGate
import Tlrpc.PushBounds

namespace Tlrpc

open PushBarrierState

theorem barrier_tracked {maxCount maxBytes : Int} {ops : List BarrierOp} {s : PushBarrierState}
    (h : exec PushBarrierState.step (.initial maxCount maxBytes) ops = some s) : ∃ g, s.Tracked g :=
  exec_inductive (fun _ _ _ hi hs => step_tracked hi hs)
    ⟨_, initial_tracked maxCount maxBytes⟩ h

def PushBarrierState.delivered (s : PushBarrierState) : List CallID :=
  s.history.filterMap GateEvent.delivered

/-- For every interleaving: nothing is submitted between `begin` and the end of its token's reply;
the pushes submitted from the queue are the first ones queued, in order; on an open barrier all
others still wait; after closing only the one push taken before may still be submitted. -/
theorem push_barrier_order {maxCount maxBytes : Int} (hcount : 0 ≤ maxCount) (hbytes : 0 ≤ maxBytes)
    {ops : List BarrierOp} {s : PushBarrierState}
    (h : exec PushBarrierState.step (.initial maxCount maxBytes) ops = some s) :
    (∀ before t after, s.history = before ++ .begun t :: after → .replied t ∉ after →
        ∀ e ∈ after, e.submits = false) ∧ s.accepted.Nodup ∧ s.delivered <+: s.accepted ∧
      (∀ first p rest q fromQueue after,
        s.history = (first ++ .queued p :: rest) ++ .submitted q fromQueue :: after →
        fromQueue = true ∧ .queued q ∈ rest ∨ .passed q ∈ rest →
        .submitted p true ∈ first ++ .queued p :: rest) ∧ (s.barrier.closed = false →
        ∃ drawn, drawn.length ≤ 1 ∧
          s.accepted = s.delivered ++ drawn ++ s.barrier.queue.map QueuedPush.call) ∧
      (∀ before after, s.history = before ++ .closed :: after →
        (∀ e ∈ after, e.moves = false) ∧ (after.filterMap GateEvent.delivered).length ≤ 1 ∧
        ∀ p ∈ after.filterMap GateEvent.delivered, .dequeued p ∈ before) ∧ s.barrier.Bounded := by
  obtain ⟨g, hg⟩ := barrier_tracked h
  have hrun := hg.run
  have hon := hg.once
  refine ⟨?_, hon, hrun.delivered_in_order, ?_, ?_, ?_, ?_⟩
  · intro before t after hspl hrp
    rw [hspl] at hrun
    exact hrun.shut_after_begun hrp
  · intro first p rest q fromQueue after hspl hlat
    unfold accepted at hon
    rw [hspl] at hrun hon
    rw [List.filterMap_append] at hon
    exact hrun.earlier_first (List.nodup_append.mp hon).1 hlat
  · intro hop
    refine ⟨g.unsent, ?_, ?_⟩
    · unfold Gate.unsent
      split <;> simp
    · have hls := hrun.nothing_lost (hg.agrees.closed.trans hop)
      rw [hg.agrees.queue] at hls
      exact hls
  · intro before after hspl
    rw [hspl] at hrun
    exact hrun.closed_last
  · exact exec_inductive (fun _ _ _ hi hs => step_bounded hi hs)
      (RecoveryPushBarrier.new_bounded hcount hbytes) h

def performs (c : CallID) (request : BarrierRequest) (n : Nat) : List BarrierOp :=
  .call c request :: List.replicate n (.advance c none)

def drainingRun : List BarrierOp :=
  (performs 0 .begin 3).append <| (performs 1 (.push none [1, 2]) 2).append <|
    (performs 2 (.push none [3]) 2).append <| (performs 3 (.finish 0) 14).append <|
    performs 4 (.push none [5]) 6

theorem push_barrier_order_draining : ∃ s, exec PushBarrierState.step (.initial 2 100) drainingRun = some s ∧
      s.history = [.begun 0, .queued 1, .queued 2, .replied 0, .dequeued 1, .submitted 1 true,
        .settled 1, .dequeued 2, .submitted 2 true, .settled 2, .passed 4, .submitted 4 false,
        .settled 4] ∧ s.delivered <+: s.accepted ∧ s.barrier.Bounded := by
  have run : (exec step (.initial 2 100) drainingRun).map history =
      some [.begun 0, .queued 1, .queued 2, .replied 0, .dequeued 1, .submitted 1 true, .settled 1,
        .dequeued 2, .submitted 2 true, .settled 2, .passed 4, .submitted 4 false, .settled 4] := by
    decide
  obtain ⟨s, hs, hhis⟩ := Option.map_eq_some_iff.mp run
  obtain ⟨_, _, hord, _, _, _, hbd⟩ := push_barrier_order (by decide) (by decide) hs
  exact ⟨s, hs, hhis, hord, hbd⟩

def overflowRun : List BarrierOp :=
  (performs 0 .begin 3).append <| (performs 1 (.push none [1]) 2).append <|
    (performs 3 (.finish 0) 6).append <| (performs 2 (.push none [2]) 2).append <|
    (performs 4 (.push none [4]) 1).append [.advance 3 none]

/-- The push taken from the queue is submitted although the barrier is closed by then. -/
theorem drawn_push_submitted_after_close :
    ∃ s, exec PushBarrierState.step (.initial 1 100) overflowRun = some s ∧
      s.history = [.begun 0, .queued 1, .replied 0, .dequeued 1, .queued 2] ++ .closed ::
        [.submitted 1 true] := by
  have run : (exec step (.initial 1 100) overflowRun).map history =
      some ([.begun 0, .queued 1, .replied 0, .dequeued 1, .queued 2] ++ .closed ::
        [.submitted 1 true]) := by
    decide
  exact Option.map_eq_some_iff.mp run

end Tlrpc
