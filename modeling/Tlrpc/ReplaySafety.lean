import Tlrpc.MessageIDWindow
import Tlrpc.SequenceWindow

namespace Tlrpc

open Validator List Config

/-- What `NewValidator` establishes and every later call keeps. -/
structure Validator.Valid (v : Validator) : Prop where
  idLimit : 0 < v.messageIDLimit ∧ v.messageIDLimit ≤ 4096
  seqLimit : 0 < v.sequenceLimit ∧ v.sequenceLimit ≤ 4096
  ids : IDsValid v.messageIDLimit v.state
  seqs : SeqsValid v.sequenceLimit v.state

theorem initialState_ids (config : Config) (limit : Nat) : IDsValid limit config.initialState :=
  ⟨rfl, ⟨nodup_nil, by simp [ValidatorState.window, initialState], Nat.zero_le _⟩,
    by simp [initialState]⟩

variable {config : Config} {seqLimit : Nat} {v : Validator}

theorem initialState_seqs {limit : Nat} (nonneg : 0 ≤ config.sequenceNo.toInt)
    (even : config.sequenceNo.toInt % 2 = 0) : SeqsValid limit config.initialState :=
  ⟨rfl, nodup_nil, nonneg, even, by simp [initialState], by simp [initialState]⟩

theorem restoreMessageIDs_frame (limit : Nat) (st : ValidatorState) (ids : List Int) :
    ∃ highest floor recent set, ids.foldl (restoreMessageID limit) st =
      { st with highestMessageID := highest, messageIDFloor := floor, recentIDs := recent,
                recentSet := set } := by
  induction ids generalizing st with
  | nil => exact ⟨_, _, _, _, rfl⟩
  | cons id ids ih =>
    obtain ⟨highest, floor, recent, set, heq⟩ := ih (restoreMessageID limit st id)
    have step : ∃ highest floor recent set, restoreMessageID limit st id =
        { st with highestMessageID := highest, messageIDFloor := floor, recentIDs := recent,
                  recentSet := set } := by
      unfold restoreMessageID
      split_ifs
      · exact ⟨_, _, _, _, rfl⟩
      · exact ⟨_, _, _, _, rfl⟩
      · obtain ⟨floor, recent, set, hr⟩ := rememberMessageID_frame st id limit
        rw [raiseHighest_frame, hr]
        exact ⟨_, _, _, _, rfl⟩
    obtain ⟨high', floor', recent', set', hst⟩ := step
    refine ⟨highest, floor, recent, set, ?_⟩
    rw [foldl_cons, heq, hst]

theorem restoreMessageIDs_seqs {st : ValidatorState} (idLimit : Nat) (ids : List Int)
    (h : SeqsValid seqLimit st) : SeqsValid seqLimit (ids.foldl (restoreMessageID idLimit) st) := by
  obtain ⟨highest, floor, recent, set, heq⟩ := restoreMessageIDs_frame idLimit st ids
  rw [heq]
  exact ⟨h.set, h.nodup, h.nonneg, h.even, h.odd, h.window⟩

theorem restore_seqs_of_ids (idLimit : Nat) (hlim : seqLimit ≤ 4096)
    (nonneg : 0 ≤ config.sequenceNo.toInt) (even : config.sequenceNo.toInt % 2 = 0) :
    SeqsValid seqLimit (config.recentSequenceNos.foldl (restoreSequenceNo seqLimit)
      (config.recentMessageIDs.foldl (restoreMessageID idLimit) config.initialState)) :=
  restoreSequenceNos_valid hlim
    (restoreMessageIDs_seqs idLimit config.recentMessageIDs (initialState_seqs nonneg even))
    config.recentSequenceNos

theorem restore_eq {idLimit : Nat} (hlim : seqLimit ≤ 4096)
    (nonneg : 0 ≤ config.sequenceNo.toInt) (even : config.sequenceNo.toInt % 2 = 0) :
    config.restore idLimit seqLimit = config.recentSequenceNos.foldl (restoreSequenceNo seqLimit)
      (config.recentMessageIDs.foldl (restoreMessageID idLimit) config.initialState) :=
  pruneSequenceNos_self hlim (restore_seqs_of_ids idLimit hlim nonneg even)

theorem newValidator_valid (h : newValidator config = .ok v) :
    v.Valid ∧ config.messageIDFloor ≤ v.state.messageIDFloor ∧
      (∀ id ≤ config.messageIDFloor, v.state.window.Blocks id) ∧
      ∀ id ∈ config.recentMessageIDs, v.state.window.Blocks id := by
  obtain ⟨⟨hi, hi', _⟩, ⟨hq, hq', _⟩, ⟨nonneg, even⟩, hst⟩ := newValidator_ok_iff.mp h
  obtain ⟨hids, hfl, hblk, hkp⟩ := restoreMessageIDs_spec (by omega)
    (initialState_ids config v.messageIDLimit) config.recentMessageIDs
  obtain ⟨seqs, set, heq⟩ := restoreSequenceNos_frame v.sequenceLimit
    (config.recentMessageIDs.foldl (restoreMessageID v.messageIDLimit) config.initialState)
    config.recentSequenceNos
  have hsq := restore_seqs_of_ids v.messageIDLimit hq' nonneg even
  rw [restore_eq hq' nonneg even] at hst
  rw [← hst] at hsq heq
  refine ⟨⟨⟨by omega, hi'⟩, ⟨by omega, hq'⟩, ?_, hsq⟩, ?_, ?_, ?_⟩
  · rw [heq]
    exact ⟨hids.set, hids.sound, hids.highest⟩
  · rw [heq]
    exact hfl
  · intro id hid
    rw [heq]
    exact hkp id (Or.inl hid)
  · intro id hid
    rw [heq]
    exact hblk id hid

theorem bindSession_frame (st : ValidatorState) (sessionID : Int) :
    ∃ id, bindSession st sessionID = { st with sessionID := id } := by
  unfold bindSession
  split <;> exact ⟨_, rfl⟩

theorem Accepts.seqs {idLimit : Nat} {st st' : ValidatorState}
    {records : List ContainerMessage} (positive : 0 < seqLimit) (hlim : seqLimit ≤ 4096)
    (valid : SeqsValid seqLimit st) (h : Accepts idLimit seqLimit st records st') :
    SeqsValid seqLimit st' := by
  induction h with
  | done => exact valid
  | next hv _ ih => exact ih (validateOne_seqs positive hlim valid hv).1

theorem Validator.validate_window {v' : Validator} {clock : Nat → Time} {message : Message}
    (valid : v.Valid) (h : v.validate clock message = .ok v') :
    v'.Valid ∧ v'.messageIDLimit = v.messageIDLimit ∧ v'.sequenceLimit = v.sequenceLimit ∧
      ReplayWindow.Admits v.messageIDLimit v.state.window
        (message.records.map ContainerMessage.messageID) v'.state.window := by
  obtain ⟨mid, ha, rfl⟩ := validate_accepts h
  obtain ⟨hw, hids⟩ := ha.window valid.idLimit.1 valid.ids.clone
  have hsq := ha.seqs valid.seqLimit.1 valid.seqLimit.2 valid.seqs.clone
  obtain ⟨id, heq⟩ := bindSession_frame mid message.sessionID
  refine ⟨⟨valid.idLimit, valid.seqLimit, ?_, ?_⟩, rfl, rfl, ?_⟩
  · rw [heq]
    exact ⟨hids.set, hids.sound, hids.highest⟩
  · rw [heq]
    exact ⟨hsq.set, hsq.nodup, hsq.nonneg, hsq.even, hsq.odd, hsq.window⟩
  · rw [heq]
    exact hw

def Validator.restoreConfig (v : Validator) (recentMessageIDLimit contentSequenceLimit : Int) :
    Config where
  sessionID := v.snapshot.sessionID
  serverSalt := v.snapshot.serverSalt
  sequenceNo := v.snapshot.sequenceNo
  highestMessageID := v.snapshot.highestMessageID
  messageIDFloor := v.snapshot.messageIDFloor
  recentMessageIDs := v.snapshot.recentMessageIDs
  recentMessageIDLimit := recentMessageIDLimit
  recentSequenceNos := v.snapshot.recentSequenceNos
  contentSequenceLimit := contentSequenceLimit

inductive ValidatorCall
  | validate (clock : Nat → Time) (message : Message)
  | setServerSalt (serverSalt : Int)

def Validator.call (v : Validator) : ValidatorCall → Option ValidateError × Validator
  | .validate clock message =>
    match v.validate clock message with
    | .ok v' => (none, v')
    | .error e => (some e, v)
  | .setServerSalt serverSalt => (none, v.setServerSalt serverSalt)

def ValidatorCall.accepted : ValidatorCall → Option ValidateError → List ContainerMessage
  | .validate _ message, none => message.records
  | _, _ => []

inductive ValidatorOp
  | call (c : ValidatorCall)
  | rebuild (recentMessageIDLimit contentSequenceLimit : Int)

structure ValidatorRun where
  validator : Validator
  accepted : List ContainerMessage

def ValidatorRun.step (r : ValidatorRun) : ValidatorOp → ValidatorRun
  | .call c => ⟨(r.validator.call c).2, r.accepted ++ c.accepted (r.validator.call c).1⟩
  | .rebuild recentMessageIDLimit contentSequenceLimit =>
    match newValidator (r.validator.restoreConfig recentMessageIDLimit contentSequenceLimit) with
    | .ok v => ⟨v, r.accepted⟩
    | .error _ => r

def Validator.run (v : Validator) (ops : List ValidatorOp) : ValidatorRun :=
  ops.foldl ValidatorRun.step ⟨v, []⟩

def ValidatorRun.acceptedIDs (r : ValidatorRun) : List Int :=
  r.accepted.map ContainerMessage.messageID

/-- No ID was taken twice, and the window still recognises every one of them. -/
structure ReplaySafe (r : ValidatorRun) : Prop where
  valid : r.validator.Valid
  once : r.acceptedIDs.Nodup
  seen : ∀ id ∈ r.acceptedIDs, r.validator.state.window.Blocks id

theorem rebuild_blocks {v' : Validator} {idLimit seqLimit : Int}
    (h : newValidator (v.restoreConfig idLimit seqLimit) = .ok v') {id : Int}
    (hb : v.state.window.Blocks id) : v'.state.window.Blocks id := by
  obtain ⟨_, _, hlow, hrec⟩ := newValidator_valid h
  rcases hb with low | mem
  · exact hlow id low
  · exact hrec id mem

theorem setServerSalt_valid (h : v.Valid) (serverSalt : Int) : (v.setServerSalt serverSalt).Valid :=
  ⟨h.idLimit, h.seqLimit, ⟨h.ids.set, h.ids.sound, h.ids.highest⟩,
    ⟨h.seqs.set, h.seqs.nodup, h.seqs.nonneg, h.seqs.even, h.seqs.odd, h.seqs.window⟩⟩

theorem Validator.call_window (valid : v.Valid) (c : ValidatorCall) :
    (v.call c).2.Valid ∧ (v.call c).2.messageIDLimit = v.messageIDLimit ∧
      (v.call c).2.sequenceLimit = v.sequenceLimit ∧ ReplayWindow.Admits v.messageIDLimit v.state.window
        ((c.accepted (v.call c).1).map ContainerMessage.messageID) (v.call c).2.state.window := by
  cases c with
  | setServerSalt serverSalt =>
    exact ⟨setServerSalt_valid valid serverSalt, rfl, rfl, ReplayWindow.Admits.done⟩
  | validate clock message =>
    cases hv : v.validate clock message with
    | error e =>
      simp only [call, hv]
      exact ⟨valid, trivial, trivial, ReplayWindow.Admits.done⟩
    | ok v' =>
      simp only [call, hv]
      exact validate_window valid hv

theorem ReplaySafe.step {r : ValidatorRun} (h : ReplaySafe r) (op : ValidatorOp) : ReplaySafe (r.step op) ∧
      r.validator.state.messageIDFloor ≤ (r.step op).validator.state.messageIDFloor := by
  cases op with
  | call c =>
    obtain ⟨hval, _, _, ha⟩ := call_window h.valid c
    refine ⟨⟨hval, ?_, ?_⟩, ha.floor_le⟩
    · simp only [ValidatorRun.step, ValidatorRun.acceptedIDs, map_append]
      apply h.once.append ha.nodup
      intro id hold hnew
      exact ha.unseen id hnew (h.seen id hold)
    · intro id hid
      simp only [ValidatorRun.step, ValidatorRun.acceptedIDs, map_append] at hid
      rcases mem_append.mp hid with old | new
      · exact ha.keeps_blocked (h.seen id old)
      · exact ha.blocks_taken id new
  | rebuild idLimit seqLimit =>
    cases hv : newValidator (r.validator.restoreConfig idLimit seqLimit) with
    | error e =>
      simp only [ValidatorRun.step, hv]
      exact ⟨h, le_rfl⟩
    | ok v =>
      simp only [ValidatorRun.step, hv]
      obtain ⟨hval, hfl, _, _⟩ := newValidator_valid hv
      exact ⟨⟨hval, h.once, fun id hid => rebuild_blocks hv (h.seen id hid)⟩, hfl⟩

theorem ReplaySafe.run {r : ValidatorRun} (h : ReplaySafe r) (ops : List ValidatorOp) :
    ReplaySafe (ops.foldl ValidatorRun.step r) ∧ r.validator.state.messageIDFloor ≤
      (ops.foldl ValidatorRun.step r).validator.state.messageIDFloor := by
  induction ops generalizing r with
  | nil => exact ⟨h, le_rfl⟩
  | cons op ops ih =>
    obtain ⟨hst, hfl⟩ := h.step op
    obtain ⟨hrun, hfl'⟩ := ih hst
    exact ⟨hrun, hfl.trans hfl'⟩

theorem replaySafe_start (h : newValidator config = .ok v) : ReplaySafe ⟨v, []⟩ :=
  ⟨(newValidator_valid h).1, nodup_nil, by simp [ValidatorRun.acceptedIDs]⟩

/-- With any clock and any rebuilds, no client message ID is accepted twice, the floor never moves
down, and the retained IDs are distinct, above the floor and within the limit. -/
theorem validator_replay_safety {config : Config} {v : Validator}
    (h : newValidator config = .ok v) (ops : List ValidatorOp) : (v.run ops).acceptedIDs.Nodup ∧
      (∀ more, (v.run ops).validator.state.messageIDFloor ≤
        (v.run (ops ++ more)).validator.state.messageIDFloor) ∧
      (v.run ops).validator.state.recentIDs.Nodup ∧ (∀ id ∈ (v.run ops).validator.state.recentIDs,
        (v.run ops).validator.state.messageIDFloor < id) ∧
      (v.run ops).validator.state.recentIDs.length ≤ (v.run ops).validator.messageIDLimit := by
  have safe := ((replaySafe_start h).run ops).1
  refine ⟨safe.once, ?_, safe.valid.ids.sound.nodup, safe.valid.ids.sound.above,
    safe.valid.ids.sound.bounded⟩
  intro more
  simp only [run, foldl_append]
  exact (safe.run more).2

def freshConfig : Config where
  sessionID := 8
  serverSalt := 7
  sequenceNo := 0
  highestMessageID := 0
  messageIDFloor := 0
  recentMessageIDs := []
  recentMessageIDLimit := 2
  recentSequenceNos := []
  contentSequenceLimit := 0

def contentMessage (low : Int) (sequenceNo : Int32) : Message :=
  ⟨7, 8, 1000 * 2 ^ 32 + low, sequenceNo, .contentRelated, []⟩

def validateContent (low : Int) (sequenceNo : Int32) : ValidatorCall :=
  .validate (fun _ => 1000 * second) (contentMessage low sequenceNo)

/-- Three IDs pass a window of two, rebuilt to one; replays are refused though nothing is retained. -/
theorem validator_replay_safety_evicts : ∃ v ops, newValidator freshConfig = .ok v ∧
      ops = [.call (validateContent 4 1), .call (validateContent 12 3), .rebuild 1 0,
        .call (validateContent 8 5), .call (validateContent 8 7), .call (validateContent 4 7)] ∧
      (v.run ops).acceptedIDs.length = 3 ∧ (v.run ops).acceptedIDs.Nodup :=
  ⟨⟨2, 64, freshConfig.restore 2 64⟩, _, by decide, rfl, by decide,
    (validator_replay_safety (show newValidator freshConfig = .ok _ by decide) _).1⟩

end Tlrpc
