import Tlrpc.ValidatorSteps
import Mathlib.Data.Finset.Card

namespace Tlrpc

open List ValidatorState

/-- The base is even; the remembered numbers are distinct odd ones within `limit` of it. -/
structure SeqsValid (limit : Nat) (st : ValidatorState) : Prop where
  set : st.recentSeqSet = st.recentSeqNos.toFinset
  nodup : st.recentSeqNos.Nodup
  nonneg : 0 ≤ st.sequenceNo.toInt
  even : st.sequenceNo.toInt % 2 = 0
  odd : ∀ s ∈ st.recentSeqNos, s.toInt % 2 = 1
  window : ∀ s ∈ st.recentSeqNos,
    st.sequenceNo.toInt - limit * 2 + 1 ≤ s.toInt ∧ s.toInt < st.sequenceNo.toInt

variable {n s : Int32} {limit : Nat} {st : ValidatorState} {metadata : MessageMetadata}

theorem toInt_lt_of_even (even : n.toInt % 2 = 0) : n.toInt < 2147483647 := by
  have := (fitsInt32_toInt n).2
  omega

theorem windowMinimum_toInt (nonneg : 0 ≤ n.toInt)
    (even : n.toInt % 2 = 0) (hlim : limit ≤ 4096) : (windowMinimum n limit).toInt = n.toInt - limit * 2 + 1 := by
  have hn := toInt_lt_of_even even
  have one : (1 : Int32).toInt = 1 := rfl
  have hsp : (Int32.ofInt (limit * 2)).toInt = limit * 2 :=
    toInt_ofInt_of_fits (by constructor <;> omega)
  have hlow : (n - Int32.ofInt (limit * 2)).toInt = n.toInt - limit * 2 := by
    rw [toInt_sub_of_fits (by rw [hsp]; constructor <;> omega), hsp]
  rw [windowMinimum_eq, toInt_add_of_fits (by rw [hlow, one]; constructor <;> omega), hlow, one]

theorem toInt_succ (h : n.toInt < 2147483647) : (n + 1).toInt = n.toInt + 1 := by
  have one : (1 : Int32).toInt = 1 := rfl
  have hn := fitsInt32_toInt n
  rw [toInt_add_of_fits (by rw [one]; constructor <;> have := hn.1 <;> omega), one]

theorem odd_window_length {xs : List Int32} {base : Int} {n : Nat} (nodup : xs.Nodup)
    (even : base % 2 = 0) (odd : ∀ s ∈ xs, s.toInt % 2 = 1)
    (window : ∀ s ∈ xs, base - n * 2 + 1 ≤ s.toInt ∧ s.toInt < base) : xs.length ≤ n := by
  let rank : Int32 → Nat := fun s => ((s.toInt - (base - n * 2 + 1)) / 2).toNat
  have inj : (xs.map rank).Nodup := by
    apply nodup.map_on
    intro s hs t ht heq
    have := odd s hs
    have := odd t ht
    have := window s hs
    have := window t ht
    apply Int32.toInt_inj.mp
    simp only [rank] at heq
    omega
  have below : (xs.map rank).toFinset ⊆ Finset.range n := by
    intro k hk
    obtain ⟨s, hs, rfl⟩ := mem_map.mp (mem_toFinset.mp hk)
    have := window s hs
    simp only [rank, Finset.mem_range]
    omega
  have hcr := Finset.card_le_card below
  rwa [toFinset_card_of_nodup inj, length_map, Finset.card_range] at hcr

section

variable (h : SeqsValid limit st) (fresh : s ∉ st.recentSeqNos) (odd : s.toInt % 2 = 1)
  (window : st.sequenceNo.toInt - limit * 2 + 1 ≤ s.toInt ∧ s.toInt < st.sequenceNo.toInt)
include h fresh odd window

theorem SeqsValid.room : st.recentSeqNos.length < limit := by
  have hlen : (s :: st.recentSeqNos).length ≤ limit := odd_window_length
    (nodup_cons.mpr ⟨fresh, h.nodup⟩) h.even (forall_mem_cons.mpr ⟨odd, h.odd⟩) (forall_mem_cons.mpr ⟨window, h.window⟩)
  simp only [length_cons] at hlen
  omega

theorem rememberSequenceNo_append : st.rememberSequenceNo s limit = st.appendSequenceNo s := by
  have hrm := h.room fresh odd window
  have hset : s ∉ st.recentSeqSet := by
    rw [h.set, mem_toFinset]
    exact fresh
  unfold rememberSequenceNo
  rw [if_neg hset, if_neg (by omega)]

theorem appendSequenceNo_valid : SeqsValid limit (st.appendSequenceNo s) := by
  refine ⟨?_, ?_, h.nonneg, h.even, ?_, ?_⟩
  · ext t
    simp [appendSequenceNo, h.set]
  · exact nodup_append_comm.mp (nodup_cons.mpr ⟨fresh, h.nodup⟩)
  · intro t ht
    rcases mem_append.mp ht with old | new
    · exact h.odd t old
    · rw [mem_singleton.mp new]
      exact odd
  · intro t ht
    rcases mem_append.mp ht with old | new
    · exact h.window t old
    · rw [mem_singleton.mp new]
      exact window

end

theorem pruneSequenceNos_valid (hlim : limit ≤ 4096) (h : SeqsValid limit st) (even : n.toInt % 2 = 0)
    (up : st.sequenceNo.toInt ≤ n.toInt) :
    SeqsValid limit (pruneSequenceNos { st with sequenceNo := n } limit) ∧
      ∀ s, s ∈ (pruneSequenceNos { st with sequenceNo := n } limit).recentSeqNos ↔
        s ∈ st.recentSeqNos ∧ n.toInt - limit * 2 + 1 ≤ s.toInt := by
  have nonneg : 0 ≤ n.toInt := h.nonneg.trans up
  have hmin := windowMinimum_toInt nonneg even hlim
  have hmem : ∀ s, s ∈ (pruneSequenceNos { st with sequenceNo := n } limit).recentSeqNos ↔
      s ∈ st.recentSeqNos ∧ n.toInt - limit * 2 + 1 ≤ s.toInt := by
    intro s
    rw [pruneSequenceNos_eq]
    simp only [dropSequenceNosBelow, mem_filter, decide_eq_true_eq, Int32.lt_iff_toInt_lt, hmin, not_lt]
  refine ⟨⟨?_, ?_, nonneg, even, ?_, ?_⟩, hmem⟩
  · ext s
    rw [mem_toFinset, hmem]
    rw [pruneSequenceNos_eq]
    simp only [dropSequenceNosBelow, Finset.mem_sdiff, mem_toFinset, h.set,
      mem_filter, decide_eq_true_eq, Int32.lt_iff_toInt_lt, hmin, not_and, not_lt]
    constructor
    · exact fun hs => ⟨hs.1, hs.2 hs.1⟩
    · exact fun hs => ⟨hs.1, fun _ => hs.2⟩
  · exact h.nodup.filter _
  · intro s hs
    exact h.odd s ((hmem s).mp hs).1
  · intro s hs
    obtain ⟨hold, hlow⟩ := (hmem s).mp hs
    exact ⟨hlow, lt_of_lt_of_le (h.window s hold).2 up⟩

theorem pruneSequenceNos_self (hlim : limit ≤ 4096)
    (h : SeqsValid limit st) : pruneSequenceNos st limit = st := by
  have hmin := windowMinimum_toInt h.nonneg h.even hlim
  have keep : st.recentSeqNos.filter
      (fun s => ¬ s < windowMinimum st.sequenceNo limit) = st.recentSeqNos := by
    apply filter_eq_self.mpr
    intro s hs
    have := (h.window s hs).1
    simp only [decide_eq_true_eq, Int32.lt_iff_toInt_lt, hmin]
    omega
  have drop : st.recentSeqNos.filter (· < windowMinimum st.sequenceNo limit) = [] := by
    apply filter_eq_nil_iff.mpr
    intro s hs
    have := (h.window s hs).1
    simp only [decide_eq_true_eq, Int32.lt_iff_toInt_lt, hmin]
    omega
  rw [pruneSequenceNos_eq]
  unfold dropSequenceNosBelow
  rw [keep, drop]
  simp

structure FreshContent (limit : Nat) (st : ValidatorState) (s : Int32) : Prop where
  nonneg : 0 ≤ s.toInt
  odd : s.toInt % 2 = 1
  below : s.toInt < 2147483647
  fresh : s ∉ st.recentSeqNos
  window : st.sequenceNo.toInt - limit * 2 + 1 ≤ s.toInt

theorem sequenceNoVerdict_content (h : SeqsValid limit st) (nonneg : 0 ≤ metadata.sequenceNo.toInt)
    (hv : sequenceNoVerdict limit st metadata true (st.sequenceNo + 1) = .ok ()) :
    metadata.sequenceNo.toInt % 2 = 1 ∧ metadata.sequenceNo ∉ st.recentSeqNos ∧
      st.sequenceNo.toInt - limit * 2 + 1 ≤ metadata.sequenceNo.toInt := by
  have hnx := toInt_succ (toInt_lt_of_even h.even)
  have hev := h.even
  rcases eq_or_ne metadata.sequenceNo (st.sequenceNo + 1) with expected | unexpected
  · have hval : metadata.sequenceNo.toInt = st.sequenceNo.toInt + 1 := by rw [expected, hnx]
    refine ⟨by omega, ?_, by omega⟩
    intro hm
    have := (h.window _ hm).2
    omega
  rw [sequenceNoVerdict, if_neg unexpected, if_neg (by simp), if_neg (by simp)] at hv
  split at hv
  · cases hv
  rename_i parity
  have hodd : metadata.sequenceNo.toInt % 2 = 1 := by
    rw [← and_one_ne_zero_iff]
    exact fun hz => parity ⟨hz, rfl⟩
  rw [if_neg (by simp)] at hv
  split at hv
  next first =>
    have hzr : st.sequenceNo.toInt = 0 := by rw [first.1]; rfl
    refine ⟨hodd, ?_, by omega⟩
    rw [length_eq_zero_iff.mp first.2]
    exact not_mem_nil
  split at hv
  · cases hv
  rename_i known
  split at hv
  · cases hv
  next low =>
    rw [h.set, mem_toFinset] at known
    exact ⟨hodd, known, (le_max_left _ _).trans (not_lt.mp low)⟩

theorem validateSequenceNo_content (h : SeqsValid limit st)
    (hv : validateSequenceNo limit st metadata .contentRelated = .ok ()) :
    FreshContent limit st metadata.sequenceNo := by
  rw [validateSequenceNo_eq] at hv
  simp only [reduceCtorEq, ↓reduceIte, true_and, decide_true] at hv
  split_ifs at hv with neg top
  have nonneg : 0 ≤ metadata.sequenceNo.toInt := by
    rw [Int32.lt_iff_toInt_lt] at neg
    exact not_lt.mp neg
  have below : metadata.sequenceNo.toInt < 2147483647 := by
    have hfit := (fitsInt32_toInt metadata.sequenceNo).2
    have hne : metadata.sequenceNo.toInt ≠ 2147483647 := by
      intro heq
      exact top (Int32.toInt_inj.mp heq)
    omega
  obtain ⟨odd, fresh, window⟩ := sequenceNoVerdict_content h nonneg hv
  exact ⟨nonneg, odd, below, fresh, window⟩

/-- The base moves above the number, which is remembered with what the window still holds. -/
theorem advanceSequenceNo_spec
    (positive : 0 < limit) (hlim : limit ≤ 4096) (h : SeqsValid limit st) (hs : FreshContent limit st s) :
    SeqsValid limit (advanceSequenceNo limit st s .contentRelated) ∧
      (advanceSequenceNo limit st s .contentRelated).sequenceNo.toInt =
        max st.sequenceNo.toInt (s.toInt + 1) ∧
      ∀ t, t ∈ (advanceSequenceNo limit st s .contentRelated).recentSeqNos ↔ t = s ∨ t ∈ st.recentSeqNos ∧
          max st.sequenceNo.toInt (s.toInt + 1) - limit * 2 + 1 ≤ t.toInt := by
  have hodd := hs.odd
  have hev := h.even
  have hwin := hs.window
  have hsc := toInt_succ hs.below
  have hnx := toInt_succ (toInt_lt_of_even h.even)
  -- The base after the comparison with `state.sequenceNo+1`.
  obtain ⟨n, hn, hst⟩ : ∃ n : Int32, n.toInt = max st.sequenceNo.toInt (s.toInt + 1) ∧
      (if s ≥ st.sequenceNo + 1 then { st with sequenceNo := s + 1 } else st) =
        { st with sequenceNo := n } := by
    by_cases ahead : s ≥ st.sequenceNo + 1
    · have := Int32.le_iff_toInt_le.mp ahead
      exact ⟨s + 1, by omega, by rw [if_pos ahead]⟩
    · have : ¬ (st.sequenceNo + 1).toInt ≤ s.toInt := fun hle => ahead (Int32.le_iff_toInt_le.mpr hle)
      exact ⟨st.sequenceNo, by omega, by rw [if_neg ahead]⟩
  have evenN : n.toInt % 2 = 0 := by omega
  obtain ⟨hp, hmem⟩ := pruneSequenceNos_valid (n := n) hlim h evenN (by omega)
  have hbs : (pruneSequenceNos { st with sequenceNo := n } limit).sequenceNo = n := rfl
  have hfr : s ∉ (pruneSequenceNos { st with sequenceNo := n } limit).recentSeqNos :=
    fun hm => hs.fresh ((hmem s).mp hm).1
  have hwn : (pruneSequenceNos { st with sequenceNo := n } limit).sequenceNo.toInt - limit * 2 + 1
      ≤ s.toInt ∧ s.toInt < (pruneSequenceNos { st with sequenceNo := n } limit).sequenceNo.toInt := by
    rw [hbs]
    omega
  rw [advanceSequenceNo_content, hst, rememberSequenceNo_append hp hfr hodd hwn]
  refine ⟨appendSequenceNo_valid hp hfr hodd hwn, hn, ?_⟩
  intro t
  rw [← hn]
  simp only [appendSequenceNo, mem_append, mem_singleton, hmem t]
  exact or_comm

theorem SeqsValid.clone (h : SeqsValid limit st) : SeqsValid limit st.clone :=
  ⟨rfl, h.nodup, h.nonneg, h.even, h.odd, h.window⟩

theorem raiseHighest_seqs (h : SeqsValid limit st)
    (messageID : Int) : SeqsValid limit (raiseHighest st messageID) := by
  rw [raiseHighest_frame]
  exact ⟨h.set, h.nodup, h.nonneg, h.even, h.odd, h.window⟩

theorem rememberMessageID_seqs {idLimit : Nat} (h : SeqsValid limit st)
    (messageID : Int) : SeqsValid limit (st.rememberMessageID messageID idLimit) := by
  obtain ⟨floor, ids, set, heq⟩ := rememberMessageID_frame st messageID idLimit
  rw [heq]
  exact ⟨h.set, h.nodup, h.nonneg, h.even, h.odd, h.window⟩

theorem validateOne_seqs {idLimit seqLimit : Nat} {now : Time} {st' : ValidatorState}
    {kind : MessageKind} (positive : 0 < seqLimit) (hlim : seqLimit ≤ 4096) (valid : SeqsValid seqLimit st)
    (h : validateOne idLimit seqLimit now st metadata kind = .ok st') : SeqsValid seqLimit st' ∧
      (kind = .contentRelated → FreshContent seqLimit st metadata.sequenceNo ∧
        st'.sequenceNo.toInt = max st.sequenceNo.toInt (metadata.sequenceNo.toInt + 1) ∧
        ∀ t, t ∈ st'.recentSeqNos ↔ t = metadata.sequenceNo ∨ t ∈ st.recentSeqNos ∧
          max st.sequenceNo.toInt (metadata.sequenceNo.toInt + 1) - seqLimit * 2 + 1 ≤ t.toInt) ∧
      (kind ≠ .contentRelated → st'.sequenceNo = st.sequenceNo ∧ st'.recentSeqNos = st.recentSeqNos) := by
  obtain ⟨_, _, hs, rfl⟩ := validateOne_ok_iff.mp h
  have hrai := raiseHighest_seqs valid metadata.messageID
  have hseq : (raiseHighest st metadata.messageID).sequenceNo = st.sequenceNo := by
    rw [raiseHighest_frame]
  have hrec : (raiseHighest st metadata.messageID).recentSeqNos = st.recentSeqNos := by
    rw [raiseHighest_frame]
  obtain ⟨floor, ids, set, heq⟩ := rememberMessageID_frame
    (advanceSequenceNo seqLimit (raiseHighest st metadata.messageID) metadata.sequenceNo kind)
    metadata.messageID idLimit
  by_cases hk : kind = .contentRelated
  · subst kind
    have fresh := validateSequenceNo_content valid hs
    have fresh' : FreshContent seqLimit (raiseHighest st metadata.messageID) metadata.sequenceNo :=
      ⟨fresh.nonneg, fresh.odd, fresh.below, by rw [hrec]; exact fresh.fresh,
        by rw [hseq]; exact fresh.window⟩
    obtain ⟨hv, hbs, hmem⟩ := advanceSequenceNo_spec positive hlim hrai fresh'
    rw [hseq] at hbs
    rw [hseq, hrec] at hmem
    refine ⟨rememberMessageID_seqs hv _, fun _ => ⟨fresh, ?_, ?_⟩, fun hne => absurd rfl hne⟩
    · rw [heq]
      exact hbs
    · rw [heq]
      exact hmem
  · rw [advanceSequenceNo_other hk] at heq ⊢
    refine ⟨rememberMessageID_seqs hrai _, fun hc => absurd hc hk, fun _ => ?_⟩
    rw [heq]
    exact ⟨hseq, hrec⟩

theorem restoreSequenceNo_valid (hlim : limit ≤ 4096)
    (h : SeqsValid limit st) (s : Int32) : SeqsValid limit (restoreSequenceNo limit st s) := by
  have hmin := windowMinimum_toInt h.nonneg h.even hlim
  have hnx := toInt_succ (toInt_lt_of_even h.even)
  have hev := h.even
  rw [restoreSequenceNo_eq]
  split_ifs with low ahead
  · exact h
  · exact h
  · rw [not_or, Int32.lt_iff_toInt_lt, hmin] at low
    have odd : s.toInt % 2 = 1 := and_one_ne_zero_iff.mp low.2
    have high : s.toInt < st.sequenceNo.toInt + 1 := by
      rw [← hnx]
      exact not_le.mp (fun hle => ahead (Int32.le_iff_toInt_le.mpr hle))
    by_cases known : s ∈ st.recentSeqNos
    · have hset : s ∈ st.recentSeqSet := by
        rw [h.set, mem_toFinset]
        exact known
      rw [rememberSequenceNo, if_pos hset]
      exact h
    · have window : st.sequenceNo.toInt - limit * 2 + 1 ≤ s.toInt ∧ s.toInt < st.sequenceNo.toInt := by omega
      rw [rememberSequenceNo_append h known odd window]
      exact appendSequenceNo_valid h known odd window

theorem restoreSequenceNos_valid (hlim : limit ≤ 4096) (h : SeqsValid limit st) (xs : List Int32) :
    SeqsValid limit (xs.foldl (restoreSequenceNo limit) st) := by
  induction xs generalizing st with
  | nil => exact h
  | cons s xs ih => exact ih (restoreSequenceNo_valid hlim h s)

theorem restoreSequenceNos_frame (limit : Nat) (st : ValidatorState) (xs : List Int32) :
    ∃ seqs set, xs.foldl (restoreSequenceNo limit) st =
      { st with recentSeqNos := seqs, recentSeqSet := set } := by
  induction xs generalizing st with
  | nil => exact ⟨_, _, rfl⟩
  | cons s xs ih =>
    obtain ⟨seqs, set, heq⟩ := ih (restoreSequenceNo limit st s)
    have step : ∃ seqs set, restoreSequenceNo limit st s =
        { st with recentSeqNos := seqs, recentSeqSet := set } := by
      rw [restoreSequenceNo_eq]
      unfold rememberSequenceNo appendSequenceNo evictOldestSequenceNo
      split_ifs <;> exact ⟨_, _, rfl⟩
    obtain ⟨seqs', set', hst⟩ := step
    refine ⟨seqs, set, ?_⟩
    rw [foldl_cons, heq, hst]

end Tlrpc
