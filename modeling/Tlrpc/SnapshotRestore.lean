import Tlrpc.ReplaySafety

namespace Tlrpc

open List ValidatorState

theorem restoreMessageIDs_append {limit : Nat} {st : ValidatorState} {ids : List Int}
    (set : st.recentSet = st.recentIDs.toFinset) (nodup : (st.recentIDs ++ ids).Nodup)
    (above : ∀ id ∈ ids, st.messageIDFloor < id) (highest : ∀ id ∈ ids, id ≤ st.highestMessageID)
    (room : (st.recentIDs ++ ids).length ≤ limit) : ids.foldl (restoreMessageID limit) st =
      { st with recentIDs := st.recentIDs ++ ids, recentSet := (st.recentIDs ++ ids).toFinset } := by
  induction ids generalizing st with
  | nil =>
    rw [append_nil, ← set]
    rfl
  | cons id ids ih =>
    have hnew : id ∉ st.recentSet := by
      rw [set, mem_toFinset]
      intro hold
      exact (nodup_append.mp nodup).2.2 id hold id mem_cons_self rfl
    have hlen : st.recentIDs.length ≠ limit := by
      simp only [length_append, length_cons] at room
      omega
    have hfl := above id mem_cons_self
    have hhg := highest id mem_cons_self
    have step : restoreMessageID limit st id =
        { st with recentIDs := st.recentIDs ++ [id], recentSet := insert id st.recentSet } := by
      unfold restoreMessageID
      rw [if_neg (by omega), if_neg hnew, raiseHighest_frame, rememberMessageID,
        if_neg hlen, appendMessageID, if_neg (by omega), max_eq_left hhg]
    have hspl : st.recentIDs ++ id :: ids = st.recentIDs ++ [id] ++ ids := by simp
    rw [hspl] at nodup room
    rw [foldl_cons, step, hspl]
    refine ih ?_ nodup (fun y hy => above y (mem_cons_of_mem _ hy))
      (fun y hy => highest y (mem_cons_of_mem _ hy)) room
    ext y
    simp [set]

theorem restoreSequenceNos_append {limit : Nat} {st : ValidatorState} {xs : List Int32}
    (hlim : limit ≤ 4096) (h : SeqsValid limit st) (nodup : (st.recentSeqNos ++ xs).Nodup)
    (odd : ∀ s ∈ xs, s.toInt % 2 = 1) (window : ∀ s ∈ xs, st.sequenceNo.toInt - limit * 2 + 1 ≤ s.toInt ∧
      s.toInt < st.sequenceNo.toInt) : xs.foldl (restoreSequenceNo limit) st =
      { st with recentSeqNos := st.recentSeqNos ++ xs
                recentSeqSet := (st.recentSeqNos ++ xs).toFinset } := by
  induction xs generalizing st with
  | nil =>
    rw [append_nil, ← h.set]
    rfl
  | cons s xs ih =>
    have hodd := odd s mem_cons_self
    have hwin := window s mem_cons_self
    have hnew : s ∉ st.recentSeqNos := by
      intro hold
      exact (nodup_append.mp nodup).2.2 s hold s mem_cons_self rfl
    have hmin := windowMinimum_toInt h.nonneg h.even hlim
    have hnx := toInt_succ (toInt_lt_of_even h.even)
    have step : restoreSequenceNo limit st s = st.appendSequenceNo s := by
      rw [restoreSequenceNo_eq, if_neg, if_neg, rememberSequenceNo_append h hnew hodd hwin]
      · rw [ge_iff_le, Int32.le_iff_toInt_le, hnx]
        omega
      · rw [Int32.lt_iff_toInt_lt, hmin, and_one_eq_zero_iff]
        omega
    have hspl : st.recentSeqNos ++ s :: xs = st.recentSeqNos ++ [s] ++ xs := by simp
    rw [hspl] at nodup
    rw [foldl_cons, step, ih (appendSequenceNo_valid h hnew hodd hwin) nodup
      (fun t ht => odd t (mem_cons_of_mem _ ht))
      (fun t ht => window t (mem_cons_of_mem _ ht)), hspl]
    rfl

variable {v : Validator}

theorem restore_sequence (valid : v.Valid) (idLimit : Nat) (a b : Int) :
    (v.restoreConfig a b).restore idLimit v.sequenceLimit =
      { v.state.recentIDs.foldl (restoreMessageID idLimit) (v.restoreConfig a b).initialState with
        recentSeqNos := v.state.recentSeqNos
        recentSeqSet := v.state.recentSeqSet } := by
  have hsq := valid.seqs
  have hin : SeqsValid v.sequenceLimit (v.restoreConfig a b).initialState :=
    initialState_seqs hsq.nonneg hsq.even
  have hids : SeqsValid v.sequenceLimit
      (v.state.recentIDs.foldl (restoreMessageID idLimit) (v.restoreConfig a b).initialState) :=
    restoreMessageIDs_seqs idLimit _ hin
  have hres : (v.restoreConfig a b).restore idLimit v.sequenceLimit = _ :=
    restore_eq valid.seqLimit.2 hsq.nonneg hsq.even
  rw [hres, hsq.set]
  obtain ⟨highest, floor, ids, set, heq⟩ := restoreMessageIDs_frame idLimit
    (v.restoreConfig a b).initialState v.state.recentIDs
  rw [heq] at hids
  change v.state.recentSeqNos.foldl (restoreSequenceNo v.sequenceLimit) (v.state.recentIDs.foldl
    (restoreMessageID idLimit) (v.restoreConfig a b).initialState) = _
  rw [heq]
  exact restoreSequenceNos_append valid.seqLimit.2 hids hsq.nodup hsq.odd hsq.window

theorem restore_self (valid : v.Valid) (a b : Int) :
    (v.restoreConfig a b).restore v.messageIDLimit v.sequenceLimit = v.state := by
  have hsd := valid.ids.sound
  have hids : v.state.recentIDs.foldl (restoreMessageID v.messageIDLimit)
      (v.restoreConfig a b).initialState =
      { (v.restoreConfig a b).initialState with
        recentIDs := v.state.recentIDs, recentSet := v.state.recentIDs.toFinset } :=
    restoreMessageIDs_append rfl hsd.nodup hsd.above valid.ids.highest hsd.bounded
  rw [restore_sequence valid, hids, ← valid.ids.set]
  rfl

theorem newValidator_restore (valid : v.Valid) {a b : Int}
    (ha : normalizeLimit a defaultRecentMessageIDLimit = v.messageIDLimit)
    (hb : normalizeLimit b defaultContentSequenceLimit = v.sequenceLimit) :
    newValidator (v.restoreConfig a b) = .ok v :=
  newValidator_ok_iff.mpr ⟨⟨valid.idLimit.1, valid.idLimit.2, ha⟩,
    ⟨valid.seqLimit.1, valid.seqLimit.2, hb⟩, ⟨valid.seqs.nonneg, valid.seqs.even⟩,
    (restore_self valid a b).symm⟩

def Validator.calls (v : Validator) (cs : List ValidatorCall) : Validator :=
  cs.foldl (fun v c => (v.call c).2) v

def Validator.observe (v : Validator) : List ValidatorCall → List (Option ValidateError × ProtocolSnapshot)
  | [] => []
  | c :: cs => ((v.call c).1, (v.call c).2.snapshot) :: (v.call c).2.observe cs

theorem Validator.calls_valid (valid : v.Valid) (cs : List ValidatorCall) :
    (v.calls cs).Valid ∧ (v.calls cs).messageIDLimit = v.messageIDLimit ∧
      (v.calls cs).sequenceLimit = v.sequenceLimit := by
  induction cs generalizing v with
  | nil => exact ⟨valid, rfl, rfl⟩
  | cons c cs ih =>
    obtain ⟨hv, hi, hq, _⟩ := Validator.call_window valid c
    obtain ⟨hv', hi', hq'⟩ := ih hv
    exact ⟨hv', hi'.trans hi, hq'.trans hq⟩

/-- The validator rebuilt from a snapshot answers every later sequence of calls as the original
does. -/
theorem snapshot_restore_bisimulation {config : Config} {v : Validator}
    (h : newValidator config = .ok v) (earlier : List ValidatorCall) :
    ∃ w, newValidator ((v.calls earlier).restoreConfig config.recentMessageIDLimit
        config.contentSequenceLimit) = .ok w ∧ w.snapshot = (v.calls earlier).snapshot ∧
      ∀ later, w.observe later = (v.calls earlier).observe later := by
  obtain ⟨⟨_, _, hi⟩, ⟨_, _, hq⟩, _⟩ := newValidator_ok_iff.mp h
  obtain ⟨valid, hi', hq'⟩ := Validator.calls_valid (newValidator_valid h).1 earlier
  refine ⟨v.calls earlier, newValidator_restore valid ?_ ?_, rfl, fun _ => rfl⟩
  · rw [hi, hi']
  · rw [hq, hq']

/-- A third ID has just evicted the first one; the rebuilt validator refuses its replay too. -/
theorem snapshot_restore_after_eviction : ∃ v w, newValidator freshConfig = .ok v ∧
      (v.calls [validateContent 4 1, validateContent 12 3, validateContent 8 7]).snapshot =
        ⟨8, 7, 8, 1000 * 2 ^ 32 + 12, 1000 * 2 ^ 32 + 4,
          [1000 * 2 ^ 32 + 12, 1000 * 2 ^ 32 + 8], [1, 3, 7]⟩ ∧
      newValidator ((v.calls [validateContent 4 1, validateContent 12 3,
        validateContent 8 7]).restoreConfig 2 0) = .ok w ∧
      w.observe [validateContent 4 5, validateContent 16 5] =
        (v.calls [validateContent 4 1, validateContent 12 3, validateContent 8 7]).observe
          [validateContent 4 5, validateContent 16 5] := by
  have start : newValidator freshConfig = .ok ⟨2, 64, freshConfig.restore 2 64⟩ := by decide
  obtain ⟨w, hw, _, same⟩ := snapshot_restore_bisimulation start
    [validateContent 4 1, validateContent 12 3, validateContent 8 7]
  exact ⟨_, w, start, by decide, hw, same _⟩

end Tlrpc
