import Mathlib.Data.List.MinMax
import Mathlib.Data.List.Nodup

namespace Tlrpc

open List

/-- Everything at or below `floor` counts as seen, and so does every key in `recent`. -/
structure ReplayWindow (α : Type) where
  floor : α
  recent : List α
deriving DecidableEq

namespace ReplayWindow

variable {α : Type} [LinearOrder α]

def Blocks (w : ReplayWindow α) (x : α) : Prop := x ≤ w.floor ∨ x ∈ w.recent

/-- Drop the least listed key and let the floor take its place. -/
def evict (w : ReplayWindow α) : ReplayWindow α :=
  match w.recent.argmin id with
  | none => w
  | some least => ⟨max w.floor least, w.recent.erase least⟩

def makeRoom (limit : Nat) (w : ReplayWindow α) : ReplayWindow α :=
  if w.recent.length = limit then w.evict else w

def enter (w : ReplayWindow α) (x : α) : ReplayWindow α :=
  if x ≤ w.floor then w else ⟨w.floor, w.recent ++ [x]⟩

def remember (limit : Nat) (w : ReplayWindow α) (x : α) : ReplayWindow α :=
  (w.makeRoom limit).enter x

structure Sound (limit : Nat) (w : ReplayWindow α) : Prop where
  nodup : w.recent.Nodup
  above : ∀ x ∈ w.recent, w.floor < x
  bounded : w.recent.length ≤ limit

theorem evict_eq {w : ReplayWindow α} {least : α} (hmem : least ∈ w.recent)
    (hle : ∀ x ∈ w.recent, least ≤ x) : w.evict = ⟨max w.floor least, w.recent.erase least⟩ := by
  unfold evict
  cases hmin : w.recent.argmin id with
  | none =>
    rw [argmin_eq_none.mp hmin] at hmem
    exact absurd hmem not_mem_nil
  | some m =>
    have hbl : m ≤ least := le_of_mem_argmin (f := id) hmem hmin
    have hab : least ≤ m := hle m (argmin_mem (Option.mem_def.mpr hmin))
    simp only [le_antisymm hbl hab]

theorem evict_recent_subset (w : ReplayWindow α) : w.evict.recent ⊆ w.recent := by
  unfold evict
  split
  · exact List.Subset.refl _
  · exact erase_subset

theorem evict_floor_le (w : ReplayWindow α) : w.floor ≤ w.evict.floor := by
  unfold evict
  split
  · exact le_rfl
  · exact le_max_left _ _

variable {x : α}

theorem evict_blocks {w : ReplayWindow α} (h : w.Blocks x) : w.evict.Blocks x := by
  unfold evict
  split
  · exact h
  rename_i least hm
  rcases h with low | mem
  · exact Or.inl (low.trans (le_max_left _ _))
  by_cases eq : x = least
  · subst x
    exact Or.inl (le_max_right _ _)
  · exact Or.inr ((mem_erase_of_ne eq).mpr mem)

variable {limit : Nat}

theorem evict_sound {w : ReplayWindow α} (h : w.Sound limit) : w.evict.Sound limit := by
  unfold evict
  split
  · exact h
  rename_i least hm
  refine ⟨h.nodup.erase _, ?_, length_erase_le.trans h.bounded⟩
  intro x hx
  obtain ⟨hne, hmem⟩ := h.nodup.mem_erase_iff.mp hx
  have hle : least ≤ x := le_of_mem_argmin hmem (Option.mem_def.mpr hm)
  exact max_lt (h.above x hmem) (lt_of_le_of_ne hle (Ne.symm hne))

theorem evict_length {w : ReplayWindow α} (h : w.recent ≠ []) :
    w.evict.recent.length + 1 = w.recent.length := by
  unfold evict
  split
  next hm => exact absurd (argmin_eq_none.mp hm) h
  rename_i least hm
  have hmem : least ∈ w.recent := argmin_mem (Option.mem_def.mpr hm)
  have hpos := length_pos_of_mem hmem
  rw [length_erase_of_mem hmem]
  omega

theorem makeRoom_recent_subset (limit : Nat) (w : ReplayWindow α) :
    (w.makeRoom limit).recent ⊆ w.recent := by
  unfold makeRoom
  split
  · exact evict_recent_subset w
  · exact List.Subset.refl _

theorem makeRoom_blocks {w : ReplayWindow α} (h : w.Blocks x) : (w.makeRoom limit).Blocks x := by
  unfold makeRoom
  split
  · exact evict_blocks h
  · exact h

theorem makeRoom_floor_le (limit : Nat) (w : ReplayWindow α) : w.floor ≤ (w.makeRoom limit).floor := by
  unfold makeRoom
  split
  · exact evict_floor_le w
  · exact le_rfl

theorem makeRoom_sound {w : ReplayWindow α} (h : w.Sound limit) : (w.makeRoom limit).Sound limit := by
  unfold makeRoom
  split
  · exact evict_sound h
  · exact h

theorem makeRoom_length {w : ReplayWindow α} (positive : 0 < limit)
    (h : w.Sound limit) : (w.makeRoom limit).recent.length < limit := by
  have hb := h.bounded
  unfold makeRoom
  split
  next full =>
    have hne : w.recent ≠ [] := length_pos_iff.mp (by omega)
    have hl := evict_length hne
    omega
  · omega

theorem enter_floor (w : ReplayWindow α) (x : α) : (w.enter x).floor = w.floor := by
  unfold enter
  split <;> rfl

theorem enter_blocks {w : ReplayWindow α} {y : α} : (w.enter x).Blocks y ↔ w.Blocks y ∨ y = x := by
  unfold enter
  split
  next low =>
    constructor
    · exact Or.inl
    · rintro (h | rfl)
      · exact h
      · exact Or.inl low
  · simp [Blocks, or_assoc]

theorem enter_sound {w : ReplayWindow α} (h : w.Sound limit)
    (fresh : x ∉ w.recent) (room : w.recent.length < limit) : (w.enter x).Sound limit := by
  unfold enter
  split
  · exact h
  rename_i high
  refine ⟨nodup_append_comm.mp (nodup_cons.mpr ⟨fresh, h.nodup⟩), ?_,
    by simp only [length_append, length_singleton]; omega⟩
  intro y hy
  rcases mem_append.mp hy with old | new
  · exact h.above y old
  · rw [mem_singleton.mp new]
    exact not_le.mp high

theorem remember_floor_le (limit : Nat) (w : ReplayWindow α) (x : α) :
    w.floor ≤ (w.remember limit x).floor := by
  rw [remember, enter_floor]
  exact makeRoom_floor_le limit w

theorem remember_keeps_blocked {w : ReplayWindow α} {y : α} (h : w.Blocks y) :
    (w.remember limit x).Blocks y :=
  enter_blocks.mpr (Or.inl (makeRoom_blocks h))

theorem remember_blocks_self (limit : Nat) (w : ReplayWindow α) (x : α) : (w.remember limit x).Blocks x :=
  enter_blocks.mpr (Or.inr rfl)

theorem remember_sound {w : ReplayWindow α} (positive : 0 < limit)
    (h : w.Sound limit) (fresh : ¬ w.Blocks x) : (w.remember limit x).Sound limit :=
  enter_sound (makeRoom_sound h)
    (fun hm => fresh (Or.inr (makeRoom_recent_subset limit w hm))) (makeRoom_length positive h)

/-- The keys `xs` were taken in turn, each of them unseen when its turn came. -/
inductive Admits (limit : Nat) : ReplayWindow α → List α → ReplayWindow α → Prop
  | done {w} : Admits limit w [] w
  | next {w w' x xs} : ¬ w.Blocks x → Admits limit (w.remember limit x) xs w' →
      Admits limit w (x :: xs) w'

variable {w w' : ReplayWindow α} {xs : List α}

section

variable (h : Admits limit w xs w')
include h

theorem Admits.floor_le : w.floor ≤ w'.floor := by
  induction h with
  | done => exact le_rfl
  | next _ _ ih => exact (remember_floor_le _ _ _).trans ih

theorem Admits.keeps_blocked {y : α} (hy : w.Blocks y) : w'.Blocks y := by
  induction h with
  | done => exact hy
  | next _ _ ih => exact ih (remember_keeps_blocked hy)

theorem Admits.blocks_taken : ∀ x ∈ xs, w'.Blocks x := by
  induction h with
  | done => simp
  | next _ rest ih =>
    intro y hy
    rcases mem_cons.mp hy with rfl | hy
    · exact rest.keeps_blocked (remember_blocks_self _ _ _)
    · exact ih y hy

theorem Admits.unseen : ∀ x ∈ xs, ¬ w.Blocks x := by
  induction h with
  | done => simp
  | next fresh _ ih =>
    intro y hy
    rcases mem_cons.mp hy with rfl | hy
    · exact fresh
    · exact fun hb => ih y hy (remember_keeps_blocked hb)

theorem Admits.nodup : xs.Nodup := by
  induction h with
  | done => exact nodup_nil
  | next _ rest ih =>
    exact nodup_cons.mpr ⟨fun hm => rest.unseen _ hm (remember_blocks_self _ _ _), ih⟩

end

end ReplayWindow

end Tlrpc
