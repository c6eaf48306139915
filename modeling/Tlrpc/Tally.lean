import Mathlib.Algebra.BigOperators.Group.List.Basic
import Mathlib.Algebra.GroupWithZero.Nat

namespace Tlrpc

open List Function

variable {α : Type} {l : List α} {a : α} {i : Nat}

def total (weight : α → Nat) (l : List α) : Nat := (l.map weight).sum

section

variable (weight : α → Nat)

theorem total_cons (a : α) (l : List α) : total weight (a :: l) = weight a + total weight l := by
  unfold total
  rw [map_cons, sum_cons]

theorem total_append (l l' : List α) : total weight (l ++ l') = total weight l + total weight l' := by
  unfold total
  rw [map_append, sum_append]

theorem total_set (h : l[i]? = some a) (b : α) :
    total weight (l.set i b) + weight a = total weight l + weight b := by
  induction l generalizing i with
  | nil => cases h
  | cons first rest ih =>
    cases i with
    | zero =>
      cases h
      rw [set_cons_zero, total_cons, total_cons]
      omega
    | succ i =>
      have hrs := ih h
      rw [set_cons_succ, total_cons, total_cons]
      omega

theorem le_total (h : l[i]? = some a) : weight a ≤ total weight l := by
  induction l generalizing i with
  | nil => cases h
  | cons first rest ih =>
    rw [total_cons]
    cases i with
    | zero =>
      cases h
      omega
    | succ i =>
      have hrs := ih h
      omega

end

theorem total_congr {weight weight' : α → Nat} (h : ∀ x ∈ l, weight x = weight' x) :
    total weight l = total weight' l := by
  unfold total
  rw [map_congr_left h]

section

variable [DecidableEq α] {β : Type}

theorem total_erase (weight : α → Nat) (h : a ∈ l) :
    total weight (l.erase a) + weight a = total weight l := by
  induction l with
  | nil => cases h
  | cons first rest ih =>
    by_cases hfst : first = a
    · rw [hfst, erase_cons_head, total_cons]
      omega
    have hrs := ih ((mem_cons.mp h).resolve_left (Ne.symm hfst))
    rw [erase_cons_tail (by simpa using hfst), total_cons, total_cons]
    omega

theorem total_update_of_not_mem (h : a ∉ l) (weight : β → Nat) (values : α → β) (b : β) :
    total (fun x => weight (update values a b x)) l = total (fun x => weight (values x)) l := by
  refine total_congr fun x hx => ?_
  have hne : x ≠ a := fun heq => h (heq ▸ hx)
  rw [update_of_ne hne]

theorem total_update (hnd : l.Nodup) (h : a ∈ l) (weight : β → Nat) (values : α → β) (b : β) :
    total (fun x => weight (update values a b x)) l + weight (values a) =
      total (fun x => weight (values x)) l + weight b := by
  induction l with
  | nil => cases h
  | cons first rest ih =>
    obtain ⟨hnot, hrs⟩ := nodup_cons.mp hnd
    rw [total_cons, total_cons]
    by_cases hfst : first = a
    · rw [hfst] at hnot ⊢
      rw [total_update_of_not_mem hnot, update_self]
      omega
    have hmem := (mem_cons.mp h).resolve_left (Ne.symm hfst)
    have hoth := ih hrs hmem
    rw [update_of_ne hfst]
    omega

end

theorem total_indicator (p : α → Bool) (l : List α) :
    total (fun x => if p x then 1 else 0) l = l.countP p := by
  induction l with
  | nil => rfl
  | cons first rest ih =>
    rw [total_cons, countP_cons, ih, Nat.add_comm]

end Tlrpc
