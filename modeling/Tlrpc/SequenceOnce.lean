import Tlrpc.SnapshotRestore
import Tlrpc.SequenceOverflow

namespace Tlrpc

open List Validator ValidatorRun

def contentSequenceNos (records : List ContainerMessage) : List Int32 :=
  (records.filter (fun record => record.kind = .contentRelated)).map ContainerMessage.sequenceNo

/-- Taken numbers inside the window are remembered; the base is just above the largest. -/
structure TakenOnce (limit : Nat) (st : ValidatorState) (taken : List Int32) : Prop where
  valid : SeqsValid limit st
  nodup : taken.Nodup
  legal : ∀ s ∈ taken, s.toInt % 2 = 1 ∧ 0 < s.toInt ∧ s.toInt < 2147483647
  remembered : ∀ s ∈ taken, st.sequenceNo.toInt - limit * 2 + 1 ≤ s.toInt → s ∈ st.recentSeqNos
  empty : taken = [] → st.sequenceNo = 0
  below : ∀ s ∈ taken, s.toInt < st.sequenceNo.toInt
  top : taken ≠ [] → ∃ s ∈ taken, st.sequenceNo.toInt = s.toInt + 1

variable {limit : Nat} {st st' : ValidatorState} {taken : List Int32} {r : ValidatorRun}

theorem TakenOnce.congr (h : TakenOnce limit st taken) (valid : SeqsValid limit st')
    (hbs : st'.sequenceNo = st.sequenceNo) (hrec : st'.recentSeqNos = st.recentSeqNos) :
    TakenOnce limit st' taken := by
  refine ⟨valid, h.nodup, h.legal, ?_, ?_, ?_, ?_⟩
  · rw [hbs, hrec]
    exact h.remembered
  · rw [hbs]
    exact h.empty
  · rw [hbs]
    exact h.below
  · rw [hbs]
    exact h.top

/-- The number was not taken before: inside the window it would have been remembered. -/
theorem TakenOnce.take {s : Int32}
    (h : TakenOnce limit st taken) (valid : SeqsValid limit st') (fresh : FreshContent limit st s)
    (hbs : st'.sequenceNo.toInt = max st.sequenceNo.toInt (s.toInt + 1))
    (hrec : ∀ t, t ∈ st'.recentSeqNos ↔ t = s ∨ t ∈ st.recentSeqNos ∧
      max st.sequenceNo.toInt (s.toInt + 1) - limit * 2 + 1 ≤ t.toInt) :
    TakenOnce limit st' (taken ++ [s]) := by
  have hodd := fresh.odd
  have hnon := fresh.nonneg
  have hnew : s ∉ taken := fun hold => fresh.fresh (h.remembered s hold fresh.window)
  refine ⟨valid, nodup_append_comm.mp (nodup_cons.mpr ⟨hnew, h.nodup⟩), ?_, ?_, ?_, ?_, ?_⟩
  · intro t ht
    rcases mem_append.mp ht with old | new
    · exact h.legal t old
    · rw [mem_singleton.mp new]
      exact ⟨hodd, by omega, fresh.below⟩
  · intro t ht hwin
    rw [hbs] at hwin
    rw [hrec]
    rcases mem_append.mp ht with old | new
    · exact Or.inr ⟨h.remembered t old (by omega), hwin⟩
    · exact Or.inl (mem_singleton.mp new)
  · intro hnil
    simp at hnil
  · intro t ht
    rw [hbs]
    rcases mem_append.mp ht with old | new
    · have := h.below t old
      omega
    · rw [mem_singleton.mp new]
      omega
  · intro _
    rw [hbs]
    by_cases ahead : st.sequenceNo.toInt ≤ s.toInt + 1
    · exact ⟨s, mem_append_right _ mem_cons_self, max_eq_right ahead⟩
    have hne : taken ≠ [] := by
      intro hnil
      have hz := h.empty hnil
      rw [hz] at ahead
      change ¬ (0 : Int) ≤ s.toInt + 1 at ahead
      omega
    obtain ⟨t, ht, htop⟩ := h.top hne
    exact ⟨t, mem_append_left _ ht, by omega⟩

theorem TakenOnce.accepts {idLimit : Nat}
    {records : List ContainerMessage} (positive : 0 < limit) (hlim : limit ≤ 4096)
    (h : TakenOnce limit st taken) (ha : Accepts idLimit limit st records st') :
    TakenOnce limit st' (taken ++ contentSequenceNos records) := by
  induction ha generalizing taken with
  | done =>
    simp only [contentSequenceNos, filter_nil, map_nil, append_nil]
    exact h
  | @next st mid st' now record rest hv _ ih =>
    obtain ⟨valid, content, other⟩ := validateOne_seqs positive hlim h.valid hv
    by_cases hk : record.kind = .contentRelated
    · obtain ⟨fresh, hbs, hrec⟩ := content hk
      have hspl : taken ++ contentSequenceNos (record :: rest) =
          taken ++ [record.sequenceNo] ++ contentSequenceNos rest := by
        simp [contentSequenceNos, hk]
      rw [hspl]
      exact ih (h.take valid fresh hbs hrec)
    · obtain ⟨hbs, hrec⟩ := other hk
      have hspl : contentSequenceNos (record :: rest) = contentSequenceNos rest := by
        simp [contentSequenceNos, hk]
      rw [hspl]
      exact ih (h.congr valid hbs hrec)

def ValidatorRun.contentTaken (r : ValidatorRun) : List Int32 := contentSequenceNos r.accepted

/-- A valid validator of the given limit that took each content number once. -/
structure SequenceSafe (limit : Nat) (r : ValidatorRun) : Prop where
  valid : r.validator.Valid
  limit_eq : r.validator.sequenceLimit = limit
  once : TakenOnce limit r.validator.state r.contentTaken

def ValidatorOp.KeepsSequenceLimit (limit : Nat) : ValidatorOp → Prop
  | .call _ => True
  | .rebuild _ contentSequenceLimit =>
    normalizeLimit contentSequenceLimit defaultContentSequenceLimit = limit

section

variable (h : SequenceSafe limit r)
include h

theorem SequenceSafe.call (c : ValidatorCall) : SequenceSafe limit (r.step (.call c)) := by
  obtain ⟨hval, _, hq, _⟩ := call_window h.valid c
  refine ⟨hval, hq.trans h.limit_eq, ?_⟩
  have hbou := h.valid.seqLimit
  rw [h.limit_eq] at hbou
  cases c with
  | setServerSalt serverSalt =>
    simp only [ValidatorRun.step, ValidatorRun.contentTaken, ValidatorCall.accepted, append_nil]
    refine h.once.congr ?_ rfl rfl
    rw [← h.limit_eq]
    exact (setServerSalt_valid h.valid serverSalt).seqs
  | validate clock message =>
    cases hv : r.validator.validate clock message with
    | error e =>
      simp only [ValidatorRun.step, Validator.call, hv, ValidatorRun.contentTaken,
        ValidatorCall.accepted, append_nil]
      exact h.once
    | ok v =>
      obtain ⟨mid, ha, rfl⟩ := validate_accepts hv
      obtain ⟨id, heq⟩ := bindSession_frame mid message.sessionID
      rw [h.limit_eq] at ha
      have hclo : TakenOnce limit r.validator.state.clone r.contentTaken :=
        h.once.congr h.once.valid.clone rfl rfl
      have hmid := hclo.accepts hbou.1 hbou.2 ha
      simp only [ValidatorRun.step, Validator.call, hv, ValidatorRun.contentTaken,
        ValidatorCall.accepted, heq]
      rw [contentSequenceNos, filter_append, map_append]
      have hs := hmid.valid
      exact hmid.congr ⟨hs.set, hs.nodup, hs.nonneg, hs.even, hs.odd, hs.window⟩ rfl rfl

theorem SequenceSafe.rebuild {a b : Int} (keep : normalizeLimit b defaultContentSequenceLimit = limit) :
    SequenceSafe limit (r.step (.rebuild a b)) := by
  cases hv : newValidator (r.validator.restoreConfig a b) with
  | error e =>
    simp only [step, hv]
    exact h
  | ok v =>
    simp only [step, hv]
    obtain ⟨_, ⟨_, _, hq⟩, _, hst⟩ := newValidator_ok_iff.mp hv
    have hlim : v.sequenceLimit = limit := by
      have hcs : (v.sequenceLimit : Int) = limit := hq.symm.trans keep
      omega
    have hval := (newValidator_valid hv).1
    refine ⟨hval, hlim, ?_⟩
    have hsm : v.sequenceLimit = r.validator.sequenceLimit := hlim.trans h.limit_eq.symm
    rw [hsm, restore_sequence h.valid] at hst
    obtain ⟨highest, floor, ids, set, heq⟩ := restoreMessageIDs_frame v.messageIDLimit
      (r.validator.restoreConfig a b).initialState r.validator.state.recentIDs
    rw [heq] at hst
    have hsq := hval.seqs
    rw [hlim] at hsq
    refine h.once.congr hsq ?_ ?_
    · rw [hst]
      rfl
    · rw [hst]

theorem SequenceSafe.step
    {op : ValidatorOp} (keep : op.KeepsSequenceLimit limit) : SequenceSafe limit (r.step op) := by
  cases op with
  | call c => exact h.call c
  | rebuild a b => exact h.rebuild keep

theorem SequenceSafe.run {ops : List ValidatorOp} (keep : ∀ op ∈ ops, op.KeepsSequenceLimit limit) :
    SequenceSafe limit (ops.foldl ValidatorRun.step r) := by
  induction ops generalizing r with
  | nil => exact h
  | cons op ops ih =>
    obtain ⟨hop, hops⟩ := forall_mem_cons.mp keep
    exact ih (h.step hop) hops

end

theorem sequenceSafe_start {config : Config} {v : Validator} (h : newValidator config = .ok v)
    (zero : v.state.sequenceNo = 0) : SequenceSafe v.sequenceLimit ⟨v, []⟩ := by
  have hval := (newValidator_valid h).1
  exact ⟨hval, rfl, hval.seqs, nodup_nil, by simp [contentTaken,
    contentSequenceNos], by simp [contentTaken, contentSequenceNos], fun _ => zero,
    by simp [contentTaken, contentSequenceNos],
    by simp [contentTaken, contentSequenceNos]⟩

/-- Over any run from a base of zero whose rebuilds keep the limit: accepted content numbers are
odd, below `2^31-1` and distinct, the base is one above the largest, and no 32-bit operation
overflows. -/
theorem content_sequence_once {config : Config} {v : Validator} (h : newValidator config = .ok v)
    (zero : v.snapshot.sequenceNo = 0) (ops : List ValidatorOp)
    (keep : ∀ op ∈ ops, op.KeepsSequenceLimit v.sequenceLimit) :
    (∀ s ∈ (v.run ops).contentTaken, s.toInt % 2 = 1 ∧ 0 < s.toInt ∧ s.toInt < 2 ^ 31 - 1) ∧
      (v.run ops).contentTaken.Nodup ∧
      ((v.run ops).contentTaken = [] → (v.run ops).validator.snapshot.sequenceNo = 0) ∧
      ((v.run ops).contentTaken ≠ [] → ∃ s ∈ (v.run ops).contentTaken,
        (v.run ops).validator.snapshot.sequenceNo.toInt = s.toInt + 1 ∧
        ∀ t ∈ (v.run ops).contentTaken, t.toInt ≤ s.toInt) ∧
      (∀ clock message, (v.run ops).validator.validateM checked clock message =
        some ((v.run ops).validator.validate clock message)) ∧
      ∀ a b, newValidatorM checked ((v.run ops).validator.restoreConfig a b) =
        some (newValidator ((v.run ops).validator.restoreConfig a b)) := by
  have safe := (sequenceSafe_start h zero).run keep
  refine ⟨safe.once.legal, safe.once.nodup, safe.once.empty, ?_,
    validate_checked safe.valid, fun a b => newValidator_checked _⟩
  intro hne
  obtain ⟨s, hs, hbs⟩ := safe.once.top hne
  refine ⟨s, hs, hbs, ?_⟩
  intro t ht
  have := safe.once.below t ht
  omega

/-- The numbers 5, 1 and 3 arrive in that order around a rebuild; a second 1 is refused. -/
theorem content_sequence_once_reordered :
    ∃ v ops, newValidator freshConfig = .ok v ∧ v.snapshot.sequenceNo = 0 ∧
      ops = [.call (validateContent 4 5), .call (validateContent 12 1), .rebuild 1 0,
        .call (validateContent 8 3), .call (validateContent 16 1)] ∧
      (v.run ops).contentTaken = [5, 1, 3] ∧ (v.run ops).contentTaken.Nodup := by
  have start : newValidator freshConfig = .ok ⟨2, 64, freshConfig.restore 2 64⟩ := by decide
  refine ⟨_, _, start, by decide, rfl, by decide, ?_⟩
  refine (content_sequence_once start (by decide) _ ?_).2.1
  simp only [forall_mem_cons, ValidatorOp.KeepsSequenceLimit, true_and]
  exact ⟨by decide, by simp⟩

end Tlrpc
