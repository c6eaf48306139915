import Tlrpc.Validator
import Tlrpc.ReplayWindow

namespace Tlrpc

open ValidatorState

theorem windowMinimum_eq (sequenceNo : Int32) (limit : Nat) :
    windowMinimum sequenceNo limit = sequenceNo - Int32.ofInt (limit * 2) + 1 := rfl

theorem pruneSequenceNos_eq (st : ValidatorState) (limit : Nat) :
    pruneSequenceNos st limit = st.dropSequenceNosBelow (windowMinimum st.sequenceNo limit) := rfl

theorem validateSequenceNo_eq (limit : Nat) (st : ValidatorState) (metadata : MessageMetadata)
    (kind : MessageKind) : validateSequenceNo limit st metadata kind = if metadata.sequenceNo < 0 then
        .error (badMessage metadata codeSequenceNoTooLow st.serverSalt .sequenceNoTooLow)
      else if kind = .container then
        if metadata.sequenceNo &&& 1 ≠ 0 then
          .error (badMessage metadata codeExpectedEvenSequenceNo st.serverSalt
            .expectedNonContentSequence) else .ok ()
      else if kind = .contentRelated ∧ metadata.sequenceNo = 2147483647 then
        .error (badMessage metadata codeSequenceNoTooHigh st.serverSalt .sequenceNoTooHigh)
      else sequenceNoVerdict limit st metadata (kind = .contentRelated)
        (if kind = .contentRelated then st.sequenceNo + 1 else st.sequenceNo) := by
  cases kind <;> rfl

theorem advanceSequenceNo_content (limit : Nat) (st : ValidatorState) (sequenceNo : Int32) :
    advanceSequenceNo limit st sequenceNo .contentRelated = (pruneSequenceNos
        (if sequenceNo ≥ st.sequenceNo + 1 then { st with sequenceNo := sequenceNo + 1 } else st)
        limit).rememberSequenceNo sequenceNo limit := by
  unfold advanceSequenceNo advanceSequenceNoM
  rw [if_pos rfl]
  by_cases h : sequenceNo ≥ st.sequenceNo + 1
  · rw [if_pos h]
    exact if_pos h
  · rw [if_neg h]
    exact if_neg h

variable {kind : MessageKind} {metadata : MessageMetadata} {now : Time}

theorem advanceSequenceNo_other {limit : Nat} {st : ValidatorState} {sequenceNo : Int32}
    (h : kind ≠ .contentRelated) : advanceSequenceNo limit st sequenceNo kind = st := by
  unfold advanceSequenceNo advanceSequenceNoM
  rw [if_neg h]
  rfl

variable {idLimit seqLimit : Nat}

theorem validateOne_invalidKind {st : ValidatorState} (h : validKind kind = false) :
    validateOne idLimit seqLimit now st metadata kind = .error .invalidMessageKind := by
  unfold validateOne validateOneM
  rw [h]
  rfl

theorem validateOne_validKind {st : ValidatorState} (h : validKind kind = true) :
    validateOne idLimit seqLimit now st metadata kind = match validateMessageID now st metadata with
      | .error e => .error e | .ok () =>
        match validateSequenceNo seqLimit st metadata kind with
        | .error e => .error e
        | .ok () => .ok ((advanceSequenceNo seqLimit (raiseHighest st metadata.messageID)
            metadata.sequenceNo kind).rememberMessageID metadata.messageID idLimit) := by
  unfold validateOne validateOneM
  rw [h]
  rfl

theorem validateOne_ok_iff {st st' : ValidatorState} :
    validateOne idLimit seqLimit now st metadata kind = .ok st' ↔
      validKind kind = true ∧ validateMessageID now st metadata = .ok () ∧
      validateSequenceNo seqLimit st metadata kind = .ok () ∧
      st' = (advanceSequenceNo seqLimit (raiseHighest st metadata.messageID) metadata.sequenceNo
        kind).rememberMessageID metadata.messageID idLimit := by
  cases hk : validKind kind with
  | false => simp [validateOne_invalidKind hk]
  | true =>
    rw [validateOne_validKind hk]
    cases hm : validateMessageID now st metadata with
    | error e => simp
    | ok u =>
      cases hs : validateSequenceNo seqLimit st metadata kind with
      | error e => simp
      | ok u => simp [eq_comm]

section

variable (idLimit seqLimit : Nat) (clock : Nat → Time) (st : ValidatorState)

theorem validateChildren_cons (child : ContainerMessage) (rest : List ContainerMessage) :
    validateChildren idLimit seqLimit clock st (child :: rest) =
      if child.kind = .container ∨ !validKind child.kind then .error .invalidMessageKind
      else match validateOne idLimit seqLimit (clock 0) st ⟨child.messageID, child.sequenceNo⟩
          child.kind with
        | .error e => .error e
        | .ok st => validateChildren idLimit seqLimit (fun k => clock (k + 1)) st rest := rfl

theorem validateEnvelope_eq (message : Message) : validateEnvelope idLimit seqLimit clock st message =
      if message.sessionID = 0 ∨ st.sessionID ≠ 0 ∧ message.sessionID ≠ st.sessionID then
        .error (badMessage ⟨message.messageID, message.sequenceNo⟩ codeSessionIDMismatch
          st.serverSalt .sessionIDMismatch) else if message.serverSalt ≠ st.serverSalt then
        .error (badMessage ⟨message.messageID, message.sequenceNo⟩ codeBadServerSalt
          st.serverSalt .badServerSalt) else if message.kind ≠ .container ∧ message.children.length ≠ 0 then
        .error .invalidMessageKind
      else match validateOne idLimit seqLimit (clock 0) st ⟨message.messageID, message.sequenceNo⟩
          message.kind with
        | .error e => .error e | .ok st =>
          match (if message.kind = .container then
              validateChildren idLimit seqLimit (fun k => clock (k + 1)) st message.children
            else .ok st) with
          | .error e => .error e | .ok st => .ok (bindSession st message.sessionID) := rfl

end

theorem Validator.validate_eq (v : Validator) (clock : Nat → Time) (message : Message) :
    v.validate clock message =
      match validateEnvelope v.messageIDLimit v.sequenceLimit clock v.state.clone message with
      | .error e => .error e | .ok candidate => .ok { v with state := candidate } := rfl

def Message.records (message : Message) : List ContainerMessage :=
  ⟨message.messageID, message.sequenceNo, message.kind⟩ :: message.children

inductive Accepts (idLimit seqLimit : Nat) :
    ValidatorState → List ContainerMessage → ValidatorState → Prop
  | done {st} : Accepts idLimit seqLimit st [] st
  | next {st mid st' now record rest} :
      validateOne idLimit seqLimit now st ⟨record.messageID, record.sequenceNo⟩ record.kind = .ok mid →
      Accepts idLimit seqLimit mid rest st' → Accepts idLimit seqLimit st (record :: rest) st'

variable {clock : Nat → Time}

theorem validateChildren_accepts {st st' : ValidatorState} {children : List ContainerMessage}
    (h : validateChildren idLimit seqLimit clock st children = .ok st') :
    Accepts idLimit seqLimit st children st' := by
  induction children generalizing clock st with
  | nil =>
    cases h
    exact Accepts.done
  | cons child rest ih =>
    rw [validateChildren_cons] at h
    split at h
    · cases h
    cases hv : validateOne idLimit seqLimit (clock 0) st ⟨child.messageID, child.sequenceNo⟩ child.kind with
    | error e => simp [hv] at h
    | ok mid =>
      simp only [hv] at h
      exact Accepts.next hv (ih h)

theorem validateEnvelope_accepts {st st' : ValidatorState} {message : Message}
    (h : validateEnvelope idLimit seqLimit clock st message = .ok st') :
    ∃ mid, Accepts idLimit seqLimit st message.records mid ∧ st' = bindSession mid message.sessionID := by
  rw [validateEnvelope_eq] at h
  split at h
  · cases h
  next =>
  split at h
  · cases h
  next =>
  split at h
  · cases h
  next hch =>
  cases hv : validateOne idLimit seqLimit (clock 0) st ⟨message.messageID, message.sequenceNo⟩
      message.kind with
  | error e => simp [hv] at h
  | ok outer =>
    simp only [hv] at h
    by_cases hk : message.kind = .container
    · rw [if_pos hk] at h
      split at h
      · cases h
      next mid hc =>
        cases h
        exact ⟨mid, Accepts.next hv (validateChildren_accepts hc), rfl⟩
    · rw [if_neg hk] at h
      cases h
      have empty : message.children = [] := by
        by_contra hne
        exact hch ⟨hk, fun hz => hne (List.length_eq_zero_iff.mp hz)⟩
      refine ⟨outer, Accepts.next hv ?_, rfl⟩
      rw [empty]
      exact Accepts.done

theorem Validator.validate_accepts {v v' : Validator} {message : Message}
    (h : v.validate clock message = .ok v') :
    ∃ mid, Accepts v.messageIDLimit v.sequenceLimit v.state.clone message.records mid ∧
      v' = { v with state := bindSession mid message.sessionID } := by
  rw [Validator.validate_eq] at h
  split at h
  · cases h
  rename_i candidate hc
  cases h
  obtain ⟨mid, ha, rfl⟩ := validateEnvelope_accepts hc
  exact ⟨mid, ha, rfl⟩

theorem advanceSequenceNo_frame (limit : Nat) (st : ValidatorState) (sequenceNo : Int32)
    (kind : MessageKind) : ∃ n xs set, advanceSequenceNo limit st sequenceNo kind =
      { st with sequenceNo := n, recentSeqNos := xs, recentSeqSet := set } := by
  by_cases hk : kind = .contentRelated
  · subst kind
    rw [advanceSequenceNo_content, pruneSequenceNos_eq]
    unfold rememberSequenceNo appendSequenceNo evictOldestSequenceNo dropSequenceNosBelow
    split_ifs <;> exact ⟨_, _, _, rfl⟩
  · exact ⟨_, _, _, advanceSequenceNo_other hk⟩

theorem rememberMessageID_frame (st : ValidatorState) (messageID : Int) (limit : Nat) :
    ∃ floor ids set, st.rememberMessageID messageID limit =
      { st with messageIDFloor := floor, recentIDs := ids, recentSet := set } := by
  unfold rememberMessageID appendMessageID evictMinimum
  split_ifs <;> exact ⟨_, _, _, rfl⟩

theorem raiseHighest_frame (st : ValidatorState) (messageID : Int) : raiseHighest st messageID =
      { st with highestMessageID := max st.highestMessageID messageID } := by
  unfold raiseHighest
  split
  next h => rw [max_eq_right (le_of_lt h)]
  next h => rw [max_eq_left (not_lt.mp h)]

def Config.restore (config : Config) (idLimit seqLimit : Nat) : ValidatorState :=
  pruneSequenceNos (config.recentSequenceNos.foldl (restoreSequenceNo seqLimit)
    (config.recentMessageIDs.foldl (restoreMessageID idLimit) config.initialState)) seqLimit

theorem restoreSequenceNo_eq (limit : Nat) (st : ValidatorState) (sequenceNo : Int32) :
    restoreSequenceNo limit st sequenceNo =
      if sequenceNo < windowMinimum st.sequenceNo limit ∨ sequenceNo &&& 1 = 0 then st
      else if sequenceNo ≥ st.sequenceNo + 1 then st else st.rememberSequenceNo sequenceNo limit := rfl

theorem foldlM_restoreSequenceNo (limit : Nat) (st : ValidatorState) (xs : List Int32) :
    xs.foldlM (restoreSequenceNoM wrapping limit) st = xs.foldl (restoreSequenceNo limit) st := by
  induction xs generalizing st with
  | nil => rfl
  | cons x xs ih => exact ih _

theorem newValidator_eq (config : Config) : newValidator config =
      (let idLimit := normalizeLimit config.recentMessageIDLimit defaultRecentMessageIDLimit
      let seqLimit := normalizeLimit config.contentSequenceLimit defaultContentSequenceLimit
      if idLimit < 1 ∨ idLimit > maxRecentMessageIDLimit then
        .error (.invalidConfig "recent message id limit must be between 1 and 4096")
      else if seqLimit < 1 ∨ seqLimit > maxContentSequenceLimit then
        .error (.invalidConfig "content sequence limit must be between 1 and 4096")
      else if config.sequenceNo < 0 ∨ config.sequenceNo &&& 1 ≠ 0 then
        .error (.invalidConfig "sequence number must be a non-negative even value")
      else .ok ⟨idLimit.toNat, seqLimit.toNat, config.restore idLimit.toNat seqLimit.toNat⟩) := by
  simp only [Config.restore, ← foldlM_restoreSequenceNo]
  rfl

theorem newValidator_ok_iff {config : Config} {v : Validator} : newValidator config = .ok v ↔
      (1 ≤ v.messageIDLimit ∧ v.messageIDLimit ≤ 4096 ∧
        normalizeLimit config.recentMessageIDLimit defaultRecentMessageIDLimit = v.messageIDLimit) ∧
      (1 ≤ v.sequenceLimit ∧ v.sequenceLimit ≤ 4096 ∧
        normalizeLimit config.contentSequenceLimit defaultContentSequenceLimit = v.sequenceLimit) ∧
      (0 ≤ config.sequenceNo.toInt ∧ config.sequenceNo.toInt % 2 = 0) ∧
      v.state = config.restore v.messageIDLimit v.sequenceLimit := by
  rw [newValidator_eq]
  generalize normalizeLimit config.recentMessageIDLimit defaultRecentMessageIDLimit = idLimit
  generalize normalizeLimit config.contentSequenceLimit defaultContentSequenceLimit = seqLimit
  have maxIDs : maxRecentMessageIDLimit = 4096 := rfl
  have maxSeqs : maxContentSequenceLimit = 4096 := rfl
  rw [← and_one_eq_zero_iff]
  have sign : config.sequenceNo < 0 ↔ config.sequenceNo.toInt < 0 := Int32.lt_iff_toInt_lt
  obtain ⟨ids, seqs, st⟩ := v
  by_cases h1 : idLimit < 1 ∨ idLimit > maxRecentMessageIDLimit
  · rw [if_pos h1]
    simp only [reduceCtorEq, false_iff]
    rintro ⟨⟨_, _, hi⟩, _⟩
    omega
  by_cases h2 : seqLimit < 1 ∨ seqLimit > maxContentSequenceLimit
  · rw [if_neg h1, if_pos h2]
    simp only [reduceCtorEq, false_iff]
    rintro ⟨_, ⟨_, _, hq⟩, _⟩
    omega
  by_cases h3 : config.sequenceNo < 0 ∨ config.sequenceNo &&& 1 ≠ 0
  · rw [if_neg h1, if_neg h2, if_pos h3]
    simp only [reduceCtorEq, false_iff]
    rintro ⟨_, _, ⟨hpos, hev⟩, _⟩
    rcases h3 with neg | odd
    · have := sign.mp neg
      omega
    · exact odd hev
  · rw [if_neg h1, if_neg h2, if_neg h3]
    push Not at h3
    have hpos : 0 ≤ config.sequenceNo.toInt := by
      by_contra hneg
      exact h3.1 (sign.mpr (by omega))
    simp only [Except.ok.injEq, Validator.mk.injEq]
    constructor
    · rintro ⟨rfl, rfl, rfl⟩
      exact ⟨by omega, by omega, ⟨hpos, h3.2⟩, rfl⟩
    · rintro ⟨⟨_, _, hi⟩, ⟨_, _, hq⟩, _, rfl⟩
      subst hi
      subst hq
      simp

end Tlrpc
