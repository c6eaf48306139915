import Tlrpc.ReplaySafety

namespace Tlrpc

open Option

variable {limit idLimit seqLimit : Nat} {st : ValidatorState}

theorem windowMinimum_checked {n : Int32} (nonneg : 0 ≤ n.toInt)
    (even : n.toInt % 2 = 0) (hlim : limit ≤ 4096) :
    windowMinimumM checked n limit = some (windowMinimum n limit) := by
  have hn := toInt_lt_of_even even
  have one : (1 : Int32).toInt = 1 := rfl
  have span : FitsInt32 (limit * 2) := by constructor <;> omega
  have hsp := toInt_ofInt_of_fits span
  have low : FitsInt32 (n.toInt - (Int32.ofInt (limit * 2)).toInt) := by
    rw [hsp]
    constructor <;> omega
  have hlow := toInt_sub_of_fits low
  have high : FitsInt32 ((n - Int32.ofInt (limit * 2)).toInt + (1 : Int32).toInt) := by
    rw [hlow, hsp, one]
    constructor <;> omega
  unfold windowMinimumM
  simp only [checked_ofInt span, bind_eq_bind, bind_some, checked_sub low, checked_add high]
  rfl

theorem pruneSequenceNos_checked
    (nonneg : 0 ≤ st.sequenceNo.toInt) (even : st.sequenceNo.toInt % 2 = 0) (hlim : limit ≤ 4096) :
    pruneSequenceNosM checked st limit = some (pruneSequenceNos st limit) := by
  unfold pruneSequenceNosM
  rw [windowMinimum_checked nonneg even hlim]
  rfl

theorem succ_fits {n : Int32} (h : n.toInt < 2147483647) : FitsInt32 (n.toInt + (1 : Int32).toInt) := by
  have one : (1 : Int32).toInt = 1 := rfl
  have := (fitsInt32_toInt n).1
  rw [one]
  constructor <;> omega

theorem validateSequenceNo_checked (even : st.sequenceNo.toInt % 2 = 0)
    (limit : Nat) (metadata : MessageMetadata) (kind : MessageKind) :
    validateSequenceNoM checked limit st metadata kind =
      some (validateSequenceNo limit st metadata kind) := by
  have hadd := checked_add (succ_fits (toInt_lt_of_even even))
  rw [validateSequenceNo_eq]
  unfold validateSequenceNoM
  simp only [hadd]
  split_ifs <;> rfl

theorem advanceSequenceNo_checked {s : Int32} {kind : MessageKind}
    (hlim : limit ≤ 4096) (h : SeqsValid limit st)
    (hs : kind = .contentRelated → s.toInt % 2 = 1 ∧ s.toInt < 2147483647) :
    advanceSequenceNoM checked limit st s kind = some (advanceSequenceNo limit st s kind) := by
  by_cases hk : kind = .contentRelated
  · subst kind
    obtain ⟨odd, below⟩ := hs rfl
    have hadd := checked_add (succ_fits (toInt_lt_of_even h.even))
    have hsc := checked_add (succ_fits below)
    have hnx := toInt_succ (toInt_lt_of_even h.even)
    have hval := toInt_succ below
    have hnon := h.nonneg
    rw [advanceSequenceNo_content]
    unfold advanceSequenceNoM
    rw [if_pos rfl, hadd, bind_eq_bind, bind_some]
    by_cases ahead : s ≥ st.sequenceNo + 1
    · have := Int32.le_iff_toInt_le.mp ahead
      have hp : pruneSequenceNosM checked { st with sequenceNo := s + 1 } limit = some _ :=
        pruneSequenceNos_checked (by change 0 ≤ (s + 1).toInt; omega) (by change (s + 1).toInt % 2 = 0; omega) hlim
      simp [ahead, hsc, hp]
    · have hp := pruneSequenceNos_checked h.nonneg h.even hlim
      simp [ahead, hp]
  · rw [advanceSequenceNo_other hk]
    unfold advanceSequenceNoM
    rw [if_neg hk]
    rfl

theorem validateOne_checked (hlim : seqLimit ≤ 4096) (valid : SeqsValid seqLimit st) (now : Time)
    (metadata : MessageMetadata) (kind : MessageKind) :
    validateOneM checked idLimit seqLimit now st metadata kind =
      some (validateOne idLimit seqLimit now st metadata kind) := by
  have hseq := validateSequenceNo_checked valid.even seqLimit metadata kind
  unfold validateOne validateOneM
  cases hk : validKind kind with
  | false => rfl
  | true =>
    cases hm : validateMessageID now st metadata with
    | error e => rfl
    | ok u =>
      simp only [Bool.not_true, Bool.false_eq_true, ↓reduceIte, hseq]
      cases hv : validateSequenceNo seqLimit st metadata kind with
      | error e =>
        unfold validateSequenceNo at hv
        simp only [hv]
        rfl
      | ok u =>
        have hleg : kind = .contentRelated →
            metadata.sequenceNo.toInt % 2 = 1 ∧ metadata.sequenceNo.toInt < 2147483647 := by
          rintro rfl
          have fresh := validateSequenceNo_content valid hv
          exact ⟨fresh.odd, fresh.below⟩
        have hadv := advanceSequenceNo_checked hlim (raiseHighest_seqs valid metadata.messageID) hleg
        unfold validateSequenceNo at hv
        simp only [hv]
        rw [bind_eq_bind, bind_some, hadv]
        rfl

section

variable (positive : 0 < seqLimit) (hlim : seqLimit ≤ 4096) (valid : SeqsValid seqLimit st)
  (clock : Nat → Time)
include positive hlim valid

theorem validateChildren_checked (children : List ContainerMessage) :
    validateChildrenM checked idLimit seqLimit clock st children =
      some (validateChildren idLimit seqLimit clock st children) := by
  induction children generalizing clock st with
  | nil => rfl
  | cons child rest ih =>
    rw [validateChildren_cons]
    unfold validateChildrenM
    split
    · rfl
    rw [validateOne_checked hlim valid, bind_eq_bind, bind_some]
    cases hv : validateOne idLimit seqLimit (clock 0) st ⟨child.messageID, child.sequenceNo⟩ child.kind with
    | error e => rfl
    | ok mid => exact ih (validateOne_seqs positive hlim valid hv).1 _

theorem validateEnvelope_checked (message : Message) :
    validateEnvelopeM checked idLimit seqLimit clock st message =
      some (validateEnvelope idLimit seqLimit clock st message) := by
  rw [validateEnvelope_eq]
  unfold validateEnvelopeM
  split
  · rfl
  next =>
  split
  · rfl
  next =>
  split
  · rfl
  simp only [validateOne_checked hlim valid, bind_eq_bind, bind_some]
  cases hv : validateOne idLimit seqLimit (clock 0) st ⟨message.messageID, message.sequenceNo⟩
      message.kind with
  | error e => rfl
  | ok mid =>
    have hmid := (validateOne_seqs positive hlim valid hv).1
    by_cases hk : message.kind = .container
    · simp only [if_pos hk, validateChildren_checked positive hlim hmid, bind_some]
      cases validateChildren idLimit seqLimit (fun k => clock (k + 1)) mid message.children <;> rfl
    · simp only [if_neg hk]
      rfl

end

theorem Validator.validate_checked {v : Validator} (valid : v.Valid) (clock : Nat → Time)
    (message : Message) : v.validateM checked clock message = some (v.validate clock message) := by
  rw [Validator.validate_eq]
  unfold Validator.validateM
  rw [validateEnvelope_checked valid.seqLimit.1 valid.seqLimit.2 valid.seqs.clone, bind_eq_bind, bind_some]
  cases validateEnvelope v.messageIDLimit v.sequenceLimit clock v.state.clone message <;> rfl

theorem restoreSequenceNo_checked (hlim : limit ≤ 4096) (h : SeqsValid limit st) (s : Int32) :
    restoreSequenceNoM checked limit st s = some (restoreSequenceNo limit st s) := by
  rw [restoreSequenceNo_eq]
  unfold restoreSequenceNoM
  rw [windowMinimum_checked h.nonneg h.even hlim, bind_eq_bind, bind_some]
  split
  · rfl
  rw [checked_add (succ_fits (toInt_lt_of_even h.even)), bind_some]
  split <;> rfl

theorem restoreSequenceNos_checked (hlim : limit ≤ 4096) (h : SeqsValid limit st) (xs : List Int32) :
    xs.foldlM (restoreSequenceNoM checked limit) st = some (xs.foldl (restoreSequenceNo limit) st) := by
  induction xs generalizing st with
  | nil => rfl
  | cons s xs ih =>
    rw [List.foldlM_cons, restoreSequenceNo_checked hlim h, bind_eq_bind, bind_some]
    exact ih (restoreSequenceNo_valid hlim h s)

theorem newValidator_checked (config : Config) :
    newValidatorM checked config = some (newValidator config) := by
  rw [newValidator_eq]
  unfold newValidatorM
  generalize normalizeLimit config.recentMessageIDLimit defaultRecentMessageIDLimit = idLimit
  generalize normalizeLimit config.contentSequenceLimit defaultContentSequenceLimit = seqLimit
  have maxSeqs : maxContentSequenceLimit = 4096 := rfl
  dsimp only
  split
  · rfl
  next =>
  split
  · rfl
  next hseq =>
  split
  · rfl
  rename_i hbs
  have nonneg : 0 ≤ config.sequenceNo.toInt := by
    by_contra hneg
    exact hbs (Or.inl (Int32.lt_iff_toInt_lt.mpr (not_le.mp hneg)))
  have even : config.sequenceNo.toInt % 2 = 0 := by
    by_contra hodd
    exact hbs (Or.inr (and_one_ne_zero_iff.mpr (by omega)))
  have hlim : seqLimit.toNat ≤ 4096 := by omega
  have hst : SeqsValid seqLimit.toNat config.initialState := initialState_seqs nonneg even
  have hin := restoreMessageIDs_seqs idLimit.toNat config.recentMessageIDs hst
  have hsq := restoreSequenceNos_valid hlim hin config.recentSequenceNos
  rw [restoreSequenceNos_checked hlim hin, bind_eq_bind, bind_some,
    pruneSequenceNos_checked hsq.nonneg hsq.even hlim]
  rfl

end Tlrpc
