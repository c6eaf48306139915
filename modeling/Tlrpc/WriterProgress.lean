import Tlrpc.RequestFlow

namespace Tlrpc

open WriterLoop

namespace WriterLoop

variable {w w' : WriterLoop}

def resendLength (w : WriterLoop) (group : List CallID) : Nat :=
  match w.groupIntent group with
  | some (.resend messageIDs) => messageIDs.length
  | _ => 0

/-- How many of its own steps the writer may need up to its next reply. -/
def workAt (w : WriterLoop) : WriterStage → Nat
  | .selecting none | .stopped _ => 0
  | .selecting (some call) => 15 + 4 * w.resendLength [call]
  | .collecting group _ => 14 + 4 * w.resendLength group
  | .processing job => 13 + 4 * w.resendLength job.group
  | stage => stage.rank

def work (w : WriterLoop) : Nat := w.workAt w.stage

theorem work_startGroup (w : WriterLoop) (call : CallID) (request : WriterRequest) :
    (w.startGroup call request).work < 15 + 4 * w.resendLength [call] := by
  rcases startGroup_cases w call request with ⟨body, encodedBytes, _, _, _, heq⟩ | heq
  · rw [heq]
    show 14 + 4 * w.resendLength [call] < _
    omega
  rw [heq]
  show 13 + 4 * w.resendLength [call] < _
  omega

theorem work_prepareGroup {ids : Nat → Int} {encrypt : InnerData → KeyID → Option (List UInt8)}
    {now : Time} (h : w.prepareGroup ids encrypt now = some w') : w'.work < w.work := by
  unfold prepareGroup at h
  split at h
  next job hst =>
    have hwk : w.work = 13 + 4 * w.resendLength job.group := by
      unfold work
      rw [hst]
      rfl
    rw [hwk]
    split at h
    · cases h
    · cases h
      show 1 < _
      omega
    next messageIDs hint =>
      cases h
      have hlen : w.resendLength job.group = messageIDs.length := by
        unfold resendLength
        rw [hint]
      show 5 + 4 * messageIDs.length < _
      omega
    · split at h
      · cases h
        show 1 < _
        omega
      split at h
      · cases h
        show 1 < _
        omega
      cases h
      show 11 < _
      omega
  · cases h

theorem work_control {clock : Nat → Time} {order : ReliabilityStore.MapOrder}
    (h : w.control clock order = some w') : w'.work < w.work := by
  unfold control at h
  split at h
  next job hst =>
    have hwk : 13 ≤ w.work := by
      unfold work
      rw [hst]
      exact Nat.le_add_right _ _
    have hrep : ∀ (u : WriterLoop) (response : WriterResponse), (u.finish job response).work = 1 :=
      fun _ _ => rfl
    split at h
    · cases h
    split at h
    · split at h
      · cases h
      cases h
      rw [hrep]
      omega
    · split at h
      · cases h
      · cases h
        rw [hrep]
        omega
      · cases h
        rw [hrep]
        omega
      dsimp only at h
      split at h
      · split at h
        · cases h
          rw [hrep]
          omega
        cases h
        show 8 < _
        omega
      · cases h
        rw [hrep]
        omega
  · cases h

theorem work_save (h : w.checkSave = some w' ∨ (∃ ok, w.storeSave ok = some w') ∨
    ∃ sentAt clock, w.retain sentAt clock = some w') : w'.work < w.work := by
  rcases h with h | ⟨ok, h⟩ | ⟨sentAt, clock, h⟩
  · unfold checkSave at h
    split at h
    next job prepared next hst =>
      have hwk : w.work = 11 := by unfold work; rw [hst]; rfl
      rw [hwk]
      split at h
      · cases h
        exact show 1 < 11 by omega
      split at h
      · cases h
        exact show 1 < 11 by omega
      cases h
      exact show 10 < 11 by omega
    · cases h
  · unfold storeSave at h
    split at h
    next job prepared next hst =>
      have hwk : w.work = 10 := by unfold work; rw [hst]; rfl
      rw [hwk]
      split at h
      · cases h
        exact show 9 < 10 by omega
      split at h
      · cases h
        exact show 1 < 10 by omega
      split at h
      · cases h
        exact show 1 < 10 by omega
      · cases h
    · cases h
  · unfold retain at h
    split at h
    next job prepared hst =>
      have hwk : w.work = 9 := by unfold work; rw [hst]; rfl
      rw [hwk]
      dsimp only at h
      split at h
      · cases h
        exact show 8 < 9 by omega
      cases h
      exact show 1 < 9 by omega
    · cases h

theorem work_lookupForResend {now : Time} (h : w.lookupForResend now = some w') : w'.work < w.work := by
  unfold lookupForResend at h
  split at h
  next job hst =>
    have hwk : w.work = 5 := by unfold work; rw [hst]; rfl
    rw [hwk]
    cases h
    exact show 1 < 5 by omega
  next job messageID rest hst =>
    have hwk : w.work = 5 + 4 * (rest.length + 1) := by unfold work; rw [hst]; rfl
    rw [hwk]
    dsimp only at h
    split at h
    · cases h
      show 1 < _
      omega
    cases h
    show 8 + 4 * rest.length < _
    omega
  · cases h

theorem work_write (h : w.enterWrite = some w' ∨ (∃ ok, w.checkWrite ok = some w') ∨
    ∃ ok, w.finishWrite ok = some w') : w'.work < w.work := by
  rcases h with h | ⟨ok, h⟩ | ⟨ok, h⟩
  · unfold enterWrite at h
    split at h
    next job frame rest response hst =>
      have hwk : w.work = 8 + 4 * rest.length := by unfold work; rw [hst]; rfl
      rw [hwk]
      cases h
      show 7 + 4 * rest.length < _
      omega
    · cases h
  · unfold checkWrite at h
    split at h
    next job frame rest response late hst =>
      have hwk : w.work = 7 + 4 * rest.length := by unfold work; rw [hst]; rfl
      rw [hwk]
      split at h
      · split at h
        · cases h
        cases h
        show 6 + 4 * rest.length < _
        omega
      · split at h
        · cases h
          show 1 < _
          omega
        · cases h
    · cases h
  · unfold finishWrite at h
    split at h
    next job frame rest response late hst =>
      have hwk : w.work = 6 + 4 * rest.length := by unfold work; rw [hst]; rfl
      rw [hwk]
      split at h
      · split at h
        · cases h
          show 1 < _
          omega
        cases h
        show 5 + 4 * rest.length < _
        omega
      · split at h
        · cases h
          show 1 < _
          omega
        · cases h
    · cases h

theorem work_step {op : WriterOp} (hown : op.own = true) (hrp : op ≠ .reply)
    (h : w.step op = some w') : w'.work < w.work ∨ w'.isStopped = true := by
  cases op with
  | observeLease =>
    dsimp only [step, observeLease] at h
    split at h
    · split at h
      · cases h
      cases h
      exact .inr rfl
    · cases h
  | resume =>
    dsimp only [step, resume] at h
    split at h
    next call hst =>
      split at h
      · obtain ⟨request, _, rfl⟩ := Option.map_eq_some_iff.mp h
        have hwk : w.work = 15 + 4 * w.resendLength [call] := by unfold work; rw [hst]; rfl
        rw [hwk]
        exact .inl (work_startGroup w call request)
      cases h
      exact .inr rfl
    · cases h
  | collected =>
    dsimp only [step, collected] at h
    split at h
    next group encodedBytes hst =>
      have hwk : w.work = 14 + 4 * w.resendLength group := by unfold work; rw [hst]; rfl
      rw [hwk]
      cases h
      refine .inl ?_
      show 13 + 4 * w.resendLength group < _
      omega
    · cases h
  | prepare ids encrypt now => exact .inl (work_prepareGroup h)
  | control clock order => exact .inl (work_control h)
  | checkSave => exact .inl (work_save (.inl h))
  | storeSave ok => exact .inl (work_save (.inr (.inl ⟨ok, h⟩)))
  | retain sentAt clock => exact .inl (work_save (.inr (.inr ⟨sentAt, clock, h⟩)))
  | lookupForResend now => exact .inl (work_lookupForResend h)
  | enterWrite => exact .inl (work_write (.inl h))
  | checkWrite ok => exact .inl (work_write (.inr (.inl ⟨ok, h⟩)))
  | finishWrite ok => exact .inl (work_write (.inr (.inr ⟨ok, h⟩)))
  | reply => exact absurd rfl hrp
  | _ => cases hown

theorem work_breakDown {err : WriterError} (h : w.breakDown err = some w') : w'.work < w.work := by
  have hfl : ∀ (job : WriterJob) (canceledBefore : Bool), (w.fail job err canceledBefore).work = 1 :=
    fun _ _ => rfl
  unfold breakDown at h
  split at h
  next hst =>
    cases h
    have hwk : w.work = 10 := by unfold work; rw [hst]; rfl
    rw [hwk, hfl]
    omega
  next job frame rest response late hst =>
    cases h
    have hwk : w.work = 7 + 4 * rest.length := by unfold work; rw [hst]; rfl
    rw [hwk, hfl]
    omega
  next job frame rest response late hst =>
    cases h
    have hwk : w.work = 6 + 4 * rest.length := by unfold work; rw [hst]; rfl
    rw [hwk, hfl]
    omega
  · cases h

end WriterLoop

end Tlrpc
