import Tlrpc.ValidatorSteps

namespace Tlrpc

open List ReplayWindow ValidatorState

namespace ValidatorState

def window (st : ValidatorState) : ReplayWindow Int := ⟨st.messageIDFloor, st.recentIDs⟩

def FirstLeast (ids : List Int) (index : Nat) : Prop :=
  ∃ least, ids[index]? = some least ∧ (∀ id ∈ ids, least ≤ id) ∧
    ∀ j id, j < index → ids[j]? = some id → least < id

theorem minimumIndexFrom_firstLeast {least : Int} {index : Nat} (seen rest : List Int)
    (hindex : seen[index]? = some least) (hle : ∀ id ∈ seen, least ≤ id)
    (hfst : ∀ j id, j < index → seen[j]? = some id → least < id) :
    FirstLeast (seen ++ rest) (minimumIndexFrom least index seen.length rest) := by
  induction rest generalizing seen least index with
  | nil =>
    rw [append_nil]
    exact ⟨least, hindex, hle, hfst⟩
  | cons id rest ih =>
    have hbd : index < seen.length := (List.getElem?_eq_some_iff.mp hindex).1
    have hspl : seen ++ id :: rest = (seen ++ [id]) ++ rest := by simp
    have hlen : seen.length + 1 = (seen ++ [id]).length := by simp
    unfold minimumIndexFrom
    rw [hspl, hlen]
    split
    next lower =>
      apply ih
      · simp
      · intro y hy
        rcases mem_append.mp hy with old | new
        · exact le_of_lt (lt_of_lt_of_le lower (hle y old))
        · exact (mem_singleton.mp new).ge
      · intro j y hj hy
        rw [getElem?_append_left hj] at hy
        exact lt_of_lt_of_le lower (hle y (mem_of_getElem? hy))
    next hig =>
      apply ih
      · rw [getElem?_append_left hbd]
        exact hindex
      · intro y hy
        rcases mem_append.mp hy with old | new
        · exact hle y old
        · rw [mem_singleton.mp new]
          exact not_lt.mp hig
      · intro j y hj hy
        rw [getElem?_append_left (by omega)] at hy
        exact hfst j y hj hy

theorem minimumIndex_firstLeast {ids : List Int} (hne : ids ≠ []) : FirstLeast ids (minimumIndex ids) := by
  cases ids with
  | nil => exact absurd rfl hne
  | cons id rest =>
    exact minimumIndexFrom_firstLeast [id] rest (by simp) (by simp) (by intro j y hj; omega)

theorem minimumIndex_spec {ids : List Int} (hne : ids ≠ []) :
    ∃ least ∈ ids, (∀ id ∈ ids, least ≤ id) ∧ ids.getD (minimumIndex ids) 0 = least ∧
      ids.eraseIdx (minimumIndex ids) = ids.erase least := by
  obtain ⟨least, hget, hle, hfst⟩ := minimumIndex_firstLeast hne
  obtain ⟨hb, hv⟩ := List.getElem?_eq_some_iff.mp hget
  have hmem : least ∈ ids := mem_of_getElem? hget
  have hlt : ids.idxOf least < ids.length := idxOf_lt_length_iff.mpr hmem
  have hidx : ids.idxOf least = minimumIndex ids := by
    by_contra hneq
    rcases lt_or_gt_of_ne hneq with lower | hig
    · have := hfst _ least lower (by rw [getElem?_eq_getElem hlt, getElem_idxOf hlt])
      omega
    · have := not_of_lt_findIdx (p := (· == least)) hig
      simp [hv] at this
  refine ⟨least, hmem, hle, ?_, ?_⟩
  · simp [getD, hget]
  · rw [erase_eq_eraseIdx_of_idxOf hidx]

theorem evictMinimum_window {st : ValidatorState} (hne : st.recentIDs ≠ []) :
    st.evictMinimum.window = st.window.evict := by
  obtain ⟨least, hmem, hle, hmin, her⟩ := minimumIndex_spec hne
  rw [evict_eq (w := st.window) hmem hle]
  simp only [window, evictMinimum, hmin, her]
  congr 1
  split
  next h => rw [max_eq_right (le_of_lt h)]
  next h => rw [max_eq_left (not_lt.mp h)]

theorem appendMessageID_window (st : ValidatorState) (messageID : Int) :
    (st.appendMessageID messageID).window = st.window.enter messageID := by
  unfold appendMessageID enter
  by_cases low : messageID ≤ st.messageIDFloor
  · rw [if_pos low]
    exact (if_pos low).symm
  · rw [if_neg low]
    exact (if_neg low).symm

theorem rememberMessageID_window {limit : Nat} (positive : 0 < limit) (st : ValidatorState)
    (messageID : Int) :
    (st.rememberMessageID messageID limit).window = st.window.remember limit messageID := by
  unfold rememberMessageID remember makeRoom
  rw [appendMessageID_window]
  congr 1
  change (if st.recentIDs.length = limit then st.evictMinimum else st).window =
    if st.recentIDs.length = limit then st.window.evict else st.window
  split
  next full =>
    exact evictMinimum_window (length_pos_iff.mp (by omega))
  · rfl

end ValidatorState

structure IDsValid (limit : Nat) (st : ValidatorState) : Prop where
  set : st.recentSet = st.recentIDs.toFinset
  sound : st.window.Sound limit
  highest : ∀ id ∈ st.recentIDs, id ≤ st.highestMessageID

variable {limit : Nat} {st : ValidatorState}

theorem IDsValid.blocks_iff (h : IDsValid limit st) {id : Int} :
    st.window.Blocks id ↔ id ≤ st.messageIDFloor ∨ id ∈ st.recentSet := by
  rw [h.set, mem_toFinset]
  rfl

theorem IDsValid.clone (h : IDsValid limit st) : IDsValid limit st.clone :=
  ⟨rfl, h.sound, h.highest⟩

theorem evictMinimum_set (hne : st.recentIDs ≠ [])
    (nodup : st.recentIDs.Nodup) (h : st.recentSet = st.recentIDs.toFinset) :
    st.evictMinimum.recentSet = st.evictMinimum.recentIDs.toFinset := by
  obtain ⟨least, _, _, hmin, her⟩ := minimumIndex_spec hne
  simp only [evictMinimum, hmin, her, h]
  ext id
  simp only [Finset.mem_erase, mem_toFinset, nodup.mem_erase_iff]

theorem appendMessageID_set (messageID : Int) (h : st.recentSet = st.recentIDs.toFinset) :
    (st.appendMessageID messageID).recentSet = (st.appendMessageID messageID).recentIDs.toFinset := by
  unfold appendMessageID
  split
  · exact h
  simp only [h]
  ext id
  simp only [Finset.mem_insert, mem_toFinset, mem_append, mem_singleton]
  exact or_comm

theorem rememberMessageID_set {messageID : Int} (positive : 0 < limit) (nodup : st.recentIDs.Nodup)
    (h : st.recentSet = st.recentIDs.toFinset) : (st.rememberMessageID messageID limit).recentSet =
      (st.rememberMessageID messageID limit).recentIDs.toFinset := by
  apply appendMessageID_set
  split
  next full => exact evictMinimum_set (length_pos_iff.mp (by omega)) nodup h
  · exact h

theorem remember_recent_subset (limit : Nat) (w : ReplayWindow Int) (x : Int) :
    ∀ id ∈ (w.remember limit x).recent, id ∈ w.recent ∨ id = x := by
  intro id hid
  unfold remember enter at hid
  split at hid
  · exact Or.inl (makeRoom_recent_subset limit w hid)
  rcases mem_append.mp hid with old | new
  · exact Or.inl (makeRoom_recent_subset limit w old)
  · exact Or.inr (mem_singleton.mp new)

theorem rememberMessageID_valid {messageID : Int}
    (positive : 0 < limit) (h : IDsValid limit st) (fresh : ¬ st.window.Blocks messageID)
    (bound : messageID ≤ st.highestMessageID) : IDsValid limit (st.rememberMessageID messageID limit) := by
  have hw := rememberMessageID_window positive st messageID
  refine ⟨rememberMessageID_set positive h.sound.nodup h.set, ?_, ?_⟩
  · rw [hw]
    exact remember_sound positive h.sound fresh
  · intro id hid
    have hmem : id ∈ (st.window.remember limit messageID).recent := by
      rw [← hw]
      exact hid
    obtain ⟨floor, ids, set, heq⟩ := rememberMessageID_frame st messageID limit
    have hhg : (st.rememberMessageID messageID limit).highestMessageID = st.highestMessageID := by
      rw [heq]
    rw [hhg]
    rcases remember_recent_subset limit st.window messageID id hmem with old | rfl
    · exact h.highest id old
    · exact bound

variable {metadata : MessageMetadata}

theorem validateMessageID_fresh {now : Time} (h : IDsValid limit st)
    (hv : validateMessageID now st metadata = .ok ()) : ¬ st.window.Blocks metadata.messageID := by
  unfold validateMessageID at hv
  split_ifs at hv with _ _ _ replay
  rw [h.blocks_iff]
  rintro (low | seen)
  · exact replay (Or.inl low)
  · exact replay (Or.inr (Or.inr seen))

theorem raiseHighest_valid (h : IDsValid limit st)
    (messageID : Int) : IDsValid limit (raiseHighest st messageID) := by
  rw [raiseHighest_frame]
  exact ⟨h.set, h.sound, fun id hid => (h.highest id hid).trans (le_max_left _ _)⟩

theorem advanceSequenceNo_ids (h : IDsValid limit st)
    (seqLimit : Nat) (sequenceNo : Int32) (kind : MessageKind) :
    IDsValid limit (advanceSequenceNo seqLimit st sequenceNo kind) := by
  obtain ⟨n, xs, set, heq⟩ := advanceSequenceNo_frame seqLimit st sequenceNo kind
  rw [heq]
  exact ⟨h.set, h.sound, h.highest⟩

section

variable {idLimit seqLimit : Nat} {st' : ValidatorState} (positive : 0 < idLimit)
  (valid : IDsValid idLimit st)
include positive valid

theorem validateOne_window {now : Time} {kind : MessageKind}
    (h : validateOne idLimit seqLimit now st metadata kind = .ok st') :
    ¬ st.window.Blocks metadata.messageID ∧
      st'.window = st.window.remember idLimit metadata.messageID ∧ IDsValid idLimit st' := by
  obtain ⟨_, hm, _, rfl⟩ := validateOne_ok_iff.mp h
  have fresh := validateMessageID_fresh valid hm
  have hv := advanceSequenceNo_ids (raiseHighest_valid valid metadata.messageID) seqLimit
    metadata.sequenceNo kind
  obtain ⟨n, xs, set, heq⟩ := advanceSequenceNo_frame seqLimit
    (raiseHighest st metadata.messageID) metadata.sequenceNo kind
  have hwin : (advanceSequenceNo seqLimit (raiseHighest st metadata.messageID)
      metadata.sequenceNo kind).window = st.window := by
    rw [heq, raiseHighest_frame]
    rfl
  refine ⟨fresh, ?_, rememberMessageID_valid positive hv (by rwa [hwin]) ?_⟩
  · rw [rememberMessageID_window positive, hwin]
  · rw [heq, raiseHighest_frame]
    exact le_max_right _ _

theorem Accepts.window {records : List ContainerMessage} (h : Accepts idLimit seqLimit st records st') :
    ReplayWindow.Admits idLimit st.window (records.map ContainerMessage.messageID) st'.window ∧
      IDsValid idLimit st' := by
  induction h with
  | done => exact ⟨ReplayWindow.Admits.done, valid⟩
  | next hv _ ih =>
    obtain ⟨fresh, hw, hmid⟩ := validateOne_window positive valid hv
    obtain ⟨ha, hval⟩ := ih hmid
    rw [hw] at ha
    exact ⟨ReplayWindow.Admits.next fresh ha, hval⟩

end

theorem restoreMessageID_spec (positive : 0 < limit) (valid : IDsValid limit st) (id : Int) :
    IDsValid limit (restoreMessageID limit st id) ∧
      st.messageIDFloor ≤ (restoreMessageID limit st id).messageIDFloor ∧
      (restoreMessageID limit st id).window.Blocks id ∧
      ∀ y, st.window.Blocks y → (restoreMessageID limit st id).window.Blocks y := by
  unfold restoreMessageID
  split
  next low => exact ⟨valid, le_rfl, Or.inl low, fun _ h => h⟩
  next high =>
  split
  next seen => exact ⟨valid, le_rfl, valid.blocks_iff.mpr (Or.inr seen), fun _ h => h⟩
  rename_i unseen
  have fresh : ¬ st.window.Blocks id := by
    rw [valid.blocks_iff]
    exact not_or.mpr ⟨high, unseen⟩
  -- The source raises the highest ID after remembering; the two steps commute.
  have hcm : raiseHighest (st.rememberMessageID id limit) id =
      (raiseHighest st id).rememberMessageID id limit := by
    rw [raiseHighest_frame, raiseHighest_frame]
    unfold rememberMessageID appendMessageID evictMinimum
    split_ifs <;> rfl
  have hwin : (raiseHighest st id).window = st.window := by
    rw [raiseHighest_frame]
    rfl
  have hw : (raiseHighest (st.rememberMessageID id limit) id).window = st.window.remember limit id := by
    rw [hcm, rememberMessageID_window positive, hwin]
  refine ⟨?_, ?_, ?_, ?_⟩
  · rw [hcm]
    apply rememberMessageID_valid positive (raiseHighest_valid valid id) (by rwa [hwin])
    rw [raiseHighest_frame]
    exact le_max_right _ _
  · change st.window.floor ≤ (raiseHighest (st.rememberMessageID id limit) id).window.floor
    rw [hw]
    exact remember_floor_le _ _ _
  · rw [hw]
    exact remember_blocks_self _ _ _
  · intro y hy
    rw [hw]
    exact remember_keeps_blocked hy

theorem restoreMessageIDs_spec (positive : 0 < limit) (valid : IDsValid limit st) (ids : List Int) :
    IDsValid limit (ids.foldl (restoreMessageID limit) st) ∧
      st.messageIDFloor ≤ (ids.foldl (restoreMessageID limit) st).messageIDFloor ∧
      (∀ id ∈ ids, (ids.foldl (restoreMessageID limit) st).window.Blocks id) ∧
      ∀ y, st.window.Blocks y → (ids.foldl (restoreMessageID limit) st).window.Blocks y := by
  induction ids generalizing st with
  | nil => exact ⟨valid, le_rfl, by simp, fun _ h => h⟩
  | cons id ids ih =>
    obtain ⟨hv, hf, hsf, hkp⟩ := restoreMessageID_spec positive valid id
    obtain ⟨hv', hf', hall, hkp'⟩ := ih hv
    refine ⟨hv', hf.trans hf', ?_, fun y hy => hkp' y (hkp y hy)⟩
    intro y hy
    rcases mem_cons.mp hy with rfl | hy
    · exact hkp' _ hsf
    · exact hall y hy

end Tlrpc
