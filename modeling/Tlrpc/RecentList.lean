import Mathlib.Data.List.Dedup
import Mathlib.Data.List.DropRight

namespace Tlrpc

open List

theorem rtake_append {α : Type} {a b : List α} {n : Nat} (h : n ≤ b.length) :
    (a ++ b).rtake n = b.rtake n := by
  rw [rtake, rtake, length_append, Nat.add_sub_assoc h, drop_append]
  simp

theorem rtake_of_length_le {α : Type} {l : List α} {n : Nat} (h : l.length ≤ n) : l.rtake n = l := by
  rw [rtake, Nat.sub_eq_zero_of_le h, drop_zero]

section

variable {α : Type} [DecidableEq α]

/-- The `n` last distinct elements, in the order of their last occurrence. -/
def recent (n : Nat) (l : List α) : List α := l.dedup.rtake n

@[simp] theorem recent_nil (n : Nat) : recent n ([] : List α) = [] := by simp [recent]

theorem dedup_concat (l : List α) (x : α) : (l ++ [x]).dedup = l.dedup.erase x ++ [x] := by
  induction l with
  | nil => simp
  | cons a l ih =>
    rw [cons_append]
    by_cases hal : a ∈ l
    · rw [dedup_cons_of_mem hal, dedup_cons_of_mem (mem_append_left [x] hal), ih]
    rw [dedup_cons_of_notMem hal]
    by_cases hax : a = x
    · subst hax
      rw [dedup_cons_of_mem (by simp), ih, erase_cons_head, erase_of_not_mem (fun h => hal (mem_dedup.mp h))]
    have hnot : a ∉ l ++ [x] := by simp [hal, hax]
    rw [dedup_cons_of_notMem hnot, ih, erase_cons_tail (by simpa using hax)]
    rfl

section

variable (n : Nat) (l : List α)

/-- The recent part is shorter than `n` only if nothing is older. -/
theorem recent_split : ∃ older, l.dedup = older ++ recent n l ∧ (older = [] ∨ (recent n l).length = n) := by
  refine ⟨l.dedup.take (l.dedup.length - n), (take_append_drop _ _).symm, ?_⟩
  by_cases h : l.dedup.length ≤ n
  · left
    rw [Nat.sub_eq_zero_of_le h, take_zero]
  right
  rw [recent, rtake, length_drop]
  omega

theorem recent_nodup : (recent n l).Nodup :=
  l.nodup_dedup.sublist (drop_sublist _ _)

theorem recent_length_le : (recent n l).length ≤ n := by
  rw [recent, rtake, length_drop]
  omega

theorem recent_concat (x : α) : recent n (l ++ [x]) =
      if ((recent n l).erase x ++ [x]).length > n then ((recent n l).erase x ++ [x]).tail
      else (recent n l).erase x ++ [x] := by
  obtain ⟨older, hspl, hfl⟩ := recent_split n l
  have hlen := recent_length_le n l
  have hnd : (older ++ recent n l).Nodup := hspl ▸ l.nodup_dedup
  have hcon : recent n (l ++ [x]) = (l.dedup.erase x ++ [x]).rtake n := by
    rw [recent, dedup_concat]
  rw [hcon, hspl]
  generalize recent n l = r at hlen hnd hfl
  by_cases hr : x ∈ r
  · have hold : x ∉ older := fun h => (nodup_append.mp hnd).2.2 x h x hr rfl
    have hbc : (r.erase x ++ [x]).length = r.length := by
      have := length_pos_of_mem hr
      rw [length_append, length_erase_of_mem hr, length_singleton]
      omega
    rw [if_neg (by omega), erase_append_right r hold, append_assoc]
    rcases hfl with rfl | hfl
    · exact rtake_of_length_le (by rw [nil_append]; omega)
    · rw [rtake_append (by omega)]
      exact rtake_of_length_le (by omega)
  · have hbc : (r ++ [x]).length = r.length + 1 := by
      rw [length_append, length_singleton]
    rw [erase_of_not_mem hr]
    rcases hfl with rfl | hfl
    · rw [nil_append, erase_of_not_mem hr]
      split
      next h =>
        have hdr : (r ++ [x]).length - n = 1 := by omega
        rw [rtake, hdr, drop_one]
      next h => exact rtake_of_length_le (by omega)
    · have her : (older ++ r).erase x = older.erase x ++ r := by
        by_cases hold : x ∈ older
        · rw [erase_append_left r hold]
        · rw [erase_append_right r hold, erase_of_not_mem hr, erase_of_not_mem hold]
      have hdr : (r ++ [x]).length - n = 1 := by omega
      rw [if_pos (by omega), her, append_assoc, rtake_append (by omega), rtake, hdr, drop_one]

end

end

end Tlrpc
