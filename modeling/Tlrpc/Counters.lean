import Mathlib.Data.List.AList

namespace Tlrpc

open AList

abbrev Counters (K : Type) := AList (fun _ : K => Int)

namespace Counters

variable {K : Type} [DecidableEq K]

def count (m : Counters K) (k : K) : Int := (m.lookup k).getD 0

def raise (m : Counters K) (k : K) : Counters K := m.insert k (count m k + 1)

def lower (m : Counters K) (k : K) : Counters K :=
  if count m k - 1 ≤ 0 then m.erase k else m.insert k (count m k - 1)

theorem count_insert (m : Counters K) (k : K) (n : Int) (k' : K) :
    count (m.insert k n) k' = if k' = k then n else count m k' := by
  unfold count
  split
  next h => rw [h, lookup_insert, Option.getD_some]
  next h => rw [lookup_insert_ne h]

theorem count_raise (m : Counters K) (k k' : K) :
    count (raise m k) k' = if k' = k then count m k + 1 else count m k' :=
  count_insert m k _ k'

theorem count_lower {m : Counters K} {k : K} (h : 1 ≤ count m k) (k' : K) :
    count (lower m k) k' = if k' = k then count m k - 1 else count m k' := by
  unfold lower
  split
  next hla =>
    unfold count at h hla ⊢
    split
    next heq =>
      rw [heq, lookup_erase, Option.getD_none]
      omega
    next hne => rw [lookup_erase_ne hne]
  · exact count_insert m k _ k'

theorem count_lower_le {m : Counters K} {k : K} (h : 1 ≤ count m k) (k' : K) :
    count (lower m k) k' ≤ count m k' := by
  rw [count_lower h]
  split
  next hsm =>
    rw [hsm]
    omega
  · exact Int.le_refl _

end Counters

end Tlrpc
