import Tlrpc.SessionSteps

namespace Tlrpc

open SessionState

def Snapshot.window (s : Snapshot) : ReplayWindow Int := ⟨s.clientMsgIDFloor, s.recentClientMsgIDs⟩

theorem window_frame {user : SnapshotUser} {v w : Snapshot} (hne : user ≠ .inbound)
    (h : SnapshotUpdate user v w) : w.window = v.window := by
  cases h with
  | inbound state => exact absurd rfl hne
  | outbound n t => rfl
  | outcome hm =>
    exact applySessionMutations_view (fun v mutation => by cases mutation <;> rfl) hm

/-- An accepted frame records new IDs, and its snapshot remembers them. -/
theorem AcceptedFrom.window {loaded : Snapshot} {out : ValidatedInbound} (h : AcceptedFrom loaded out) :
    out.recordedIDs.Nodup ∧ (∀ id ∈ out.recordedIDs, ¬ loaded.window.Blocks id) ∧
      (∀ id ∈ out.recordedIDs, out.snapshot.window.Blocks id) ∧
      ∀ id, loaded.window.Blocks id → out.snapshot.window.Blocks id := by
  obtain ⟨v, v', now, message, hv, hok, hsn, hrc⟩ := h
  obtain ⟨valid, _, hfl, hrec⟩ := newValidator_valid hv
  obtain ⟨_, _, _, ha⟩ := Validator.validate_window valid hok
  have hwin : out.snapshot.window = v'.state.window := by
    rw [hsn]
    rfl
  have restored : ∀ id, loaded.window.Blocks id → v.state.window.Blocks id := by
    rintro id (low | mem)
    · exact hfl id low
    · exact hrec id mem
  rw [hrc, hwin]
  exact ⟨ha.nodup, fun id hid hb => ha.unseen id hid (restored id hb), ha.blocks_taken,
    fun id hb => ha.keeps_blocked (restored id hb)⟩

namespace SessionState

/-- What was recorded as accepted is remembered by the durable snapshot. -/
structure RemembersAccepted (s : SessionState) : Prop where
  consistent : s.Consistent
  current : SharedCell.Current Snapshot.window .inbound s.cell
  once : s.accepted.Nodup
  seen : ∀ id ∈ s.accepted, s.snapshot.window.Blocks id

theorem RemembersAccepted.step {s s' : SessionState} {op : SessionOp} (h : s.RemembersAccepted)
    (fresh : s.SavesCurrent Snapshot.window .inbound op) (hs : s.step op = some s') :
    s'.RemembersAccepted := by
  obtain ⟨wf, cur, hvw⟩ :=
    step_current (fun _ _ _ => window_frame) h.consistent h.current fresh hs
  by_cases hop : op = .acceptFrame
  · subst hop
    obtain ⟨loaded, out, hrd, hhl, rfl⟩ := acceptFrame_cases hs
    obtain ⟨hnd, hnew, hsf, hkp⟩ := (h.consistent.reader loaded out hrd).window
    have hloa : loaded.window = s.snapshot.window := h.current loaded hhl
    rw [hloa] at hnew hkp
    refine ⟨wf, cur, ?_, ?_⟩
    · apply h.once.append hnd
      intro id hold hid
      exact hnew id hid (h.seen id hold)
    · intro id hid
      rcases List.mem_append.mp hid with old | new
      · exact hkp id (h.seen id old)
      · exact hsf id new
  · have hacc := (step_records hs).1 hop
    have hwin : s'.snapshot.window = s.snapshot.window := by
      rcases hvw with same | ⟨loaded, hsav, _⟩
      · exact same
      · exact absurd ((saving_owner hsav).1 rfl) hop
    refine ⟨wf, cur, ?_, ?_⟩
    · rw [hacc]
      exact h.once
    · rw [hacc, hwin]
      exact h.seen

theorem acquired_remembers (snapshot : Snapshot) (validator : SessionValidator) :
    (acquired snapshot validator).RemembersAccepted :=
  ⟨acquired_consistent snapshot validator, acquired_current _ _ snapshot validator, List.nodup_nil,
    by intro id hid; cases hid⟩

end SessionState

/-- While others save from the durable replay memory, no client message ID is accepted as fresh twice. -/
theorem client_message_accepted_once {snapshot : Snapshot} {validator : SessionValidator}
    {ops : List SessionOp} {s : SessionState}
    (fresh : Meets SessionState.step (SessionState.SavesCurrent Snapshot.window .inbound)
      (SessionState.acquired snapshot validator) ops)
    (h : exec SessionState.step (SessionState.acquired snapshot validator) ops = some s) :
    s.accepted.Nodup :=
  (exec_invariant (fun _ _ _ hi hc hs => SessionState.RemembersAccepted.step hi hc hs)
    (acquired_remembers snapshot validator) fresh h).once

def orderlyRun : List SessionOp :=
  [serverPush, .commitWrite, .readFrame (clientAck 4), .acceptFrame,
    .lockOutcome true (.ensureNewSessionCreated 4), .loadOutcome, .saveOutcome, .unlockOutcome,
    .finishFrame, .readFrame (clientAck 4), .readFrame (clientAck 8), .acceptFrame]

theorem client_message_accepted_once_orderly :
    ∃ s, exec SessionState.step openedSession orderlyRun = some s ∧
      s.accepted = [1000 * 2 ^ 32 + 4, 1000 * 2 ^ 32 + 8] ∧ s.accepted.Nodup := by
  have fresh : Meets step (SessionState.SavesCurrent Snapshot.window .inbound)
      openedSession orderlyRun := by decide
  have run : (exec step openedSession orderlyRun).map accepted =
      some [1000 * 2 ^ 32 + 4, 1000 * 2 ^ 32 + 8] := rfl
  obtain ⟨s, hs, hacc⟩ := Option.map_eq_some_iff.mp run
  exact ⟨s, hs, hacc, client_message_accepted_once fresh hs⟩

/-- The writer's save forgets a frame accepted since its load; the frame is accepted as fresh again.
-/
theorem stale_write_readmits_message : ∃ s, exec SessionState.step openedSession
        [serverPush, .readFrame (clientAck 4), .acceptFrame, .finishFrame, .commitWrite,
          .readFrame (clientAck 4), .acceptFrame] = some s ∧
      s.accepted = [1000 * 2 ^ 32 + 4, 1000 * 2 ^ 32 + 4] ∧ ¬ s.accepted.Nodup :=
  ⟨_, rfl, rfl, by decide⟩

end Tlrpc
