import Tlrpc.LayerIntervals

namespace Tlrpc

open List Function

class LayerEntry (α : Type) where
  variantKey : α → String × Int
  intervals : α → List LayerInterval
  setIntervals : α → List LayerInterval → α
  variantKey_set : ∀ a l, variantKey (setIntervals a l) = variantKey a
  intervals_set : ∀ a l, intervals (setIntervals a l) = l
  set_set : ∀ a l m, setIntervals (setIntervals a l) m = setIntervals a m
  set_self : ∀ a, setIntervals a (intervals a) = a

export LayerEntry (variantKey intervals setIntervals)

attribute [simp] LayerEntry.variantKey_set LayerEntry.intervals_set LayerEntry.set_set
  LayerEntry.set_self

/-- The entries so far and the last keys; the index maps are read off the entries. -/
structure Timeline (α : Type) where
  entries : List α := []
  active : List (String × Int) := []

theorem perm_map_of_keys {α κ β : Type} [DecidableEq κ] {key : α → κ} {f : α → β} {l m : List α}
    (h : (l.map key).Perm (m.map key)) (hdet : ∀ a ∈ l, ∀ b ∈ m, key a = key b → f a = f b) :
    (l.map f).Perm (m.map f) := by
  let value : κ → Option β := fun k => (m.find? fun b => key b = k).map f
  have hfd : ∀ a ∈ l, value (key a) = some (f a) := by
    intro a ha
    obtain ⟨b, hb, hkey⟩ := mem_map.mp (h.subset (mem_map_of_mem ha))
    have hso : (m.find? fun b => key b = key a).isSome :=
      find?_isSome.mpr ⟨b, hb, decide_eq_true hkey⟩
    obtain ⟨found, hf⟩ := Option.isSome_iff_exists.mp hso
    have hkey : key found = key a := by simpa using find?_some hf
    simp only [value, hf, Option.map_some, hdet a ha found (mem_of_find?_eq_some hf) hkey.symm]
  have hl : (l.map key).filterMap value = l.map f := by
    rw [filterMap_map, ← filterMap_eq_map]
    exact filterMap_congr fun a ha => hfd a ha
  have hm : (m.map key).filterMap value = m.map f := by
    rw [filterMap_map, ← filterMap_eq_map]
    refine filterMap_congr fun b hb => ?_
    obtain ⟨a, ha, hkey⟩ := mem_map.mp (h.symm.subset (mem_map_of_mem hb))
    rw [comp_apply, ← hkey, hfd a ha, hdet a ha b hb hkey]
    rfl
  rw [← hl, ← hm]
  exact h.filterMap value

namespace Timeline

variable {α : Type} [LayerEntry α]

def record (layer : Int) (timeline : Timeline α) (projected : α) : Timeline α :=
  let key := variantKey projected
  if timeline.entries.any (fun entry => variantKey entry = key) then
    ⟨timeline.entries.map fun entry =>
      if variantKey entry = key then setIntervals entry (openInterval (intervals entry) layer)
      else entry, key :: timeline.active⟩
  else ⟨timeline.entries ++ [setIntervals projected [⟨layer, 0⟩]], key :: timeline.active⟩

def closeInactive (timeline : Timeline α) (current : List (String × Int)) (maxLayer : Int) :
    Timeline α :=
  ⟨timeline.entries.map fun entry =>
    if variantKey entry ∈ timeline.active ∧ variantKey entry ∉ current then
      setIntervals entry (closeInterval (intervals entry) maxLayer)
    else entry, timeline.active.filter (· ∈ current)⟩

def snapshot (timeline : Timeline α) (layer : Int) (declarations : List α) : Timeline α :=
  (declarations.foldl (record layer) timeline).closeInactive (declarations.map variantKey)
    (layer - 1)

abbrev History (α : Type) := List (Int × List α)

def presence (history : History α) (key : String × Int) : List (Int × Bool) :=
  history.map fun batch => (batch.1, decide (key ∈ batch.2.map variantKey))

@[simp] theorem presence_concat (history : History α) (batch : Int × List α) (key : String × Int) :
    presence (history ++ [batch]) key =
      presence history key ++ [(batch.1, decide (key ∈ batch.2.map variantKey))] := by
  simp [presence]

structure Recorded (history : History α) (timeline : Timeline α) : Prop where
  distinct : (timeline.entries.map variantKey).Nodup
  followed : ∀ entry ∈ timeline.entries,
    intervals entry = availability (presence history (variantKey entry))
  declared : ∀ entry ∈ timeline.entries, ∃ batch ∈ history, ∃ declaration ∈ batch.2,
    entry = setIntervals declaration (intervals entry)
  complete : ∀ batch ∈ history, ∀ declaration ∈ batch.2,
    ∃ entry ∈ timeline.entries, variantKey entry = variantKey declaration
  active : ∀ key, key ∈ timeline.active ↔ presentLast (presence history key) = true

theorem Recorded.nil : Recorded ([] : History α) {} :=
  ⟨nodup_nil, nofun, nofun, nofun, fun key => by simp [presence]⟩

def reopen (layer : Int) (keys : List (String × Int)) (entry : α) : α :=
  if variantKey entry ∈ keys then setIntervals entry (openInterval (intervals entry) layer)
  else entry

@[simp] theorem variantKey_reopen (layer : Int) (keys : List (String × Int)) (entry : α) :
    variantKey (reopen layer keys entry) = variantKey entry := by
  unfold reopen
  split <;> simp

variable {timeline : Timeline α} {declarations : List α}

theorem foldl_record (layer : Int) (distinct : (declarations.map variantKey).Nodup) :
    declarations.foldl (record layer) timeline =
      ⟨timeline.entries.map (reopen layer (declarations.map variantKey)) ++
        (declarations.filter fun declaration =>
          variantKey declaration ∉ timeline.entries.map variantKey).map (setIntervals · [⟨layer, 0⟩]),
        (declarations.map variantKey).reverse ++ timeline.active⟩ := by
  induction declarations generalizing timeline with
  | nil =>
    have hmap : timeline.entries.map (reopen layer []) = timeline.entries :=
      (map_congr_left fun entry _ => by simp [reopen]).trans (map_id _)
    simp [hmap]
  | cons declaration rest ih =>
    obtain ⟨hnew, hrs⟩ := nodup_cons.mp distinct
    rw [foldl_cons, ih hrs]
    by_cases hkn : variantKey declaration ∈ timeline.entries.map variantKey
    · -- the contract is there: only its intervals change
      obtain ⟨known, hm, hkey⟩ := mem_map.mp hkn
      have hany : (timeline.entries.any fun entry => variantKey entry = variantKey declaration) =
          true := any_eq_true.mpr ⟨known, hm, decide_eq_true hkey⟩
      have hks : (timeline.entries.map fun entry =>
          if variantKey entry = variantKey declaration then
            setIntervals entry (openInterval (intervals entry) layer) else entry).map variantKey =
          timeline.entries.map variantKey := by
        rw [map_map]
        refine map_congr_left fun entry _ => ?_
        simp only [comp_apply]
        split <;> simp
      simp only [record, if_pos hany, hks]
      congr 1
      · rw [map_map, filter_cons_of_neg (by simpa using hkn)]
        congr 1
        refine map_congr_left fun entry _ => ?_
        simp only [comp_apply]
        by_cases heq : variantKey entry = variantKey declaration
        · simp [reopen, heq, hnew]
        · simp [reopen, heq]
      · simp
    · have hany : (timeline.entries.any fun entry => variantKey entry = variantKey declaration) = false := by
        refine any_eq_false.mpr fun entry hm heq => hkn ?_
        exact mem_map.mpr ⟨entry, hm, of_decide_eq_true heq⟩
      simp only [record, hany, Bool.false_eq_true, ↓reduceIte, map_append, map_cons,
        map_nil, LayerEntry.variantKey_set]
      congr 1
      · rw [filter_cons_of_pos (by simpa using hkn), map_cons, append_assoc]
        congr 1
        · refine map_congr_left fun entry hm => ?_
          have heq : variantKey entry ≠ variantKey declaration :=
            fun heq => hkn (mem_map.mpr ⟨entry, hm, heq⟩)
          simp [reopen, heq]
        · have hsf : reopen layer (rest.map variantKey) (setIntervals declaration [⟨layer, 0⟩]) =
              setIntervals declaration [⟨layer, 0⟩] := by
            simp only [reopen, LayerEntry.variantKey_set, if_neg hnew]
          rw [hsf, singleton_append]
          congr 2
          refine filter_congr fun other hm => ?_
          have hne : variantKey other ≠ variantKey declaration :=
            fun heq => hnew (mem_map.mpr ⟨other, hm, heq⟩)
          simp [hne]
      · simp

theorem snapshot_entries (layer : Int) (distinct : (declarations.map variantKey).Nodup) :
    (timeline.snapshot layer declarations).entries =
      timeline.entries.map (fun entry => setIntervals entry (followLayer (intervals entry)
        (decide (variantKey entry ∈ timeline.active))
        (decide (variantKey entry ∈ declarations.map variantKey)) layer)) ++
      (declarations.filter fun declaration =>
        variantKey declaration ∉ timeline.entries.map variantKey).map (setIntervals · [⟨layer, 0⟩]) := by
  simp only [snapshot, closeInactive, foldl_record layer distinct, map_append]
  congr 1
  · rw [map_map]
    refine map_congr_left fun entry _ => ?_
    simp only [comp_apply, variantKey_reopen, mem_append, mem_reverse]
    by_cases hpr : variantKey entry ∈ declarations.map variantKey
    · simp [reopen, hpr, followLayer]
    by_cases hact : variantKey entry ∈ timeline.active
    · simp [reopen, hpr, hact, followLayer]
    · simp [reopen, hpr, hact, followLayer]
  · refine (map_congr_left fun entry hm => ?_).trans (map_id _)
    obtain ⟨declaration, hd, rfl⟩ := mem_map.mp hm
    have hpr : variantKey declaration ∈ declarations.map variantKey :=
      mem_map_of_mem (mem_of_mem_filter hd)
    simp [hpr]

variable {layer : Int} {batch : Int × List α}

theorem mem_snapshot_active (distinct : (declarations.map variantKey).Nodup) (key : String × Int) :
    key ∈ (timeline.snapshot layer declarations).active ↔ key ∈ declarations.map variantKey := by
  simp only [snapshot, closeInactive, foldl_record layer distinct, mem_filter,
    mem_append, mem_reverse, decide_eq_true_eq]
  exact ⟨fun h => h.2, fun h => ⟨.inl h, h⟩⟩

variable {history : History α}

theorem availability_absent {key : String × Int} (h : ∀ batch ∈ history, key ∉ batch.2.map variantKey) :
    availability (presence history key) = [] ∧ presentLast (presence history key) = false := by
  induction history using reverseRecOn with
  | nil => exact ⟨rfl, rfl⟩
  | append_singleton history batch ih =>
    obtain ⟨hemp, hla⟩ := ih fun other hm => h other (mem_append_left _ hm)
    have hbat := h batch (mem_append_right _ (mem_singleton_self _))
    rw [presence_concat, availability_concat, presentLast_concat, hemp, hla, followLayer]
    simp [hbat]

theorem Recorded.snapshot (h : Recorded history timeline) (layer : Int)
    (distinct : (declarations.map variantKey).Nodup) :
    Recorded (history ++ [(layer, declarations)]) (timeline.snapshot layer declarations) := by
  have hact : ∀ key, decide (key ∈ timeline.active) = presentLast (presence history key) := by
    intro key
    rw [Bool.eq_iff_iff, decide_eq_true_iff]
    exact h.active key
  have hold : ∀ entry ∈ timeline.entries, setIntervals entry (followLayer (intervals entry)
      (decide (variantKey entry ∈ timeline.active))
      (decide (variantKey entry ∈ declarations.map variantKey)) layer) ∈
        (timeline.snapshot layer declarations).entries := by
    intro entry hm
    rw [snapshot_entries layer distinct]
    exact mem_append_left _ (mem_map.mpr ⟨entry, hm, rfl⟩)
  refine ⟨?_, ?_, ?_, ?_, ?_⟩
  · rw [snapshot_entries layer distinct, map_append, map_map, map_map]
    simp only [comp_def, LayerEntry.variantKey_set]
    refine nodup_append'.mpr ⟨h.distinct, ?_, ?_⟩
    · exact (distinct.sublist (filter_sublist.map _))
    · intro key hkey hnew
      obtain ⟨declaration, hd, rfl⟩ := mem_map.mp hnew
      have := of_decide_eq_true (mem_filter.mp hd).2
      exact this hkey
  · intro entry hm
    rw [snapshot_entries layer distinct] at hm
    rcases mem_append.mp hm with hm | hm
    · obtain ⟨old, ho, rfl⟩ := mem_map.mp hm
      simp only [LayerEntry.intervals_set, LayerEntry.variantKey_set, presence_concat,
        availability_concat, hact, h.followed old ho]
    obtain ⟨declaration, hd, rfl⟩ := mem_map.mp hm
    obtain ⟨hmem, hnew⟩ := mem_filter.mp hd
    have hnew := of_decide_eq_true hnew
    have habs : ∀ batch ∈ history, variantKey declaration ∉ batch.2.map variantKey := by
      intro batch hb hkey
      obtain ⟨other, ho, heq⟩ := mem_map.mp hkey
      obtain ⟨entry, he, hkey⟩ := h.complete batch hb other ho
      exact hnew (mem_map.mpr ⟨entry, he, hkey.trans heq⟩)
    obtain ⟨hemp, _⟩ := availability_absent habs
    have hpr : variantKey declaration ∈ declarations.map variantKey :=
      mem_map_of_mem hmem
    simp [availability_concat, hemp, followLayer, hpr]
  · intro entry hm
    rw [snapshot_entries layer distinct] at hm
    rcases mem_append.mp hm with hm | hm
    · obtain ⟨old, ho, rfl⟩ := mem_map.mp hm
      obtain ⟨batch, hb, declaration, hd, heq⟩ := h.declared old ho
      refine ⟨batch, mem_append_left _ hb, declaration, hd, ?_⟩
      rw [LayerEntry.intervals_set, heq, LayerEntry.set_set]
    obtain ⟨declaration, hd, rfl⟩ := mem_map.mp hm
    exact ⟨_, mem_append_right _ (mem_singleton_self _), declaration, (mem_filter.mp hd).1, by simp⟩
  · intro batch hb declaration hd
    rcases mem_append.mp hb with hb | hb
    · obtain ⟨entry, he, hkey⟩ := h.complete batch hb declaration hd
      exact ⟨_, hold entry he, by simpa using hkey⟩
    cases mem_singleton.mp hb
    by_cases hkn : variantKey declaration ∈ timeline.entries.map variantKey
    · obtain ⟨entry, he, hkey⟩ := mem_map.mp hkn
      exact ⟨_, hold entry he, by simpa using hkey⟩
    refine ⟨setIntervals declaration [⟨layer, 0⟩], ?_, by simp⟩
    rw [snapshot_entries layer distinct]
    refine mem_append_right _ (mem_map.mpr ⟨declaration, ?_, rfl⟩)
    exact mem_filter.mpr ⟨hd, decide_eq_true hkn⟩
  · intro key
    rw [mem_snapshot_active distinct, presence_concat, presentLast_concat, decide_eq_true_iff]

def batchAt (history : History α) (layer : Int) : Option (Int × List α) :=
  (history.filter (·.1 ≤ layer)).getLast?

theorem presentAt_presence (history : History α) (key : String × Int) (layer : Int) :
    presentAt (presence history key) layer =
      ((batchAt history layer).map fun batch => decide (key ∈ batch.2.map variantKey)).getD false := by
  unfold presentAt presentLast presence batchAt
  rw [filter_map, getLast?_map, Option.map_map]
  rfl

section

variable {history : History α} {timeline : Timeline α}
  (increasing : history.Pairwise fun a b => a.1 < b.1) (positive : ∀ batch ∈ history, 0 < batch.1)
include increasing positive

section

variable (h : Recorded history timeline)
include h

theorem Recorded.follows {entry : α} (hm : entry ∈ timeline.entries) :
    Follows (presence history (variantKey entry)) (intervals entry) := by
  rw [h.followed entry hm]
  refine availability_follows ?_ ?_
  · exact pairwise_map.mpr increasing
  · intro snapshot hs
    obtain ⟨batch, hb, rfl⟩ := mem_map.mp hs
    exact positive batch hb

theorem Recorded.keys_at
    (hbat : batchAt history layer = some batch) (distinct : (batch.2.map variantKey).Nodup) :
    ((timeline.entries.filter fun entry => intervalsSupport (intervals entry) layer).map
      variantKey).Perm (batch.2.map variantKey) := by
  have hsup : ∀ entry ∈ timeline.entries, (intervalsSupport (intervals entry) layer = true ↔
        variantKey entry ∈ batch.2.map variantKey) := by
    intro entry hm
    rw [(h.follows increasing positive hm).support layer, presentAt_presence, hbat]
    simp
  refine (perm_ext_iff_of_nodup ?_ distinct).mpr ?_
  · exact h.distinct.sublist (filter_sublist.map _)
  · intro key
    constructor
    · intro hkey
      obtain ⟨entry, he, rfl⟩ := mem_map.mp hkey
      obtain ⟨hm, hs⟩ := mem_filter.mp he
      exact (hsup entry hm).mp hs
    · intro hkey
      obtain ⟨declaration, hd, rfl⟩ := mem_map.mp hkey
      have hb : batch ∈ history := mem_of_mem_filter (mem_of_getLast? hbat)
      obtain ⟨entry, he, heq⟩ := h.complete batch hb declaration hd
      refine mem_map.mpr ⟨entry, mem_filter.mpr ⟨he, ?_⟩, heq⟩
      exact (hsup entry he).mpr (heq ▸ hkey)

theorem Recorded.contracts_at {γ : Type} {contract : α → γ}
    (hset : ∀ a l, contract (setIntervals a l) = contract a)
    (hsm : ∀ batch ∈ history, ∀ a ∈ batch.2, ∀ other ∈ history, ∀ b ∈ other.2, variantKey a = variantKey b →
    contract a = contract b) (hbat : batchAt history layer = some batch)
    (distinct : (batch.2.map variantKey).Nodup) :
    ((timeline.entries.filter fun entry => intervalsSupport (intervals entry) layer).map
      contract).Perm (batch.2.map contract) := by
  refine perm_map_of_keys (h.keys_at increasing positive hbat distinct) ?_
  intro entry he declaration hd hkey
  obtain ⟨other, ho, source, hs, heq⟩ := h.declared entry (mem_of_mem_filter he)
  have hb : batch ∈ history := mem_of_mem_filter (mem_of_getLast? hbat)
  rw [heq, hset]
  refine hsm other ho source hs batch hb declaration hd ?_
  rw [← hkey, heq, LayerEntry.variantKey_set]

end

end

end Timeline

end Tlrpc
