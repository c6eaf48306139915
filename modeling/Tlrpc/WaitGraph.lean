import Mathlib.Logic.Relation
import Mathlib.Tactic.Common

namespace Tlrpc

inductive LockMode
  | shared
  | exclusive
deriving DecidableEq

def LockMode.conflicts : LockMode → LockMode → Bool
  | .shared, .shared => false
  | _, _ => true

/-- The locks that the calls of a program wait for and hold in one state. -/
structure LockTable (T L : Type) where
  wants : T → Option (L × LockMode)
  holds : L → LockMode → T → Prop

namespace LockTable

variable {T L : Type} (k : LockTable T L)

def WaitsFor (t u : T) : Prop :=
  ∃ l mode mode', k.wants t = some (l, mode) ∧ k.holds l mode' u ∧ mode.conflicts mode' = true

/-- A cycle of calls, each waiting for a lock that the next one holds. -/
def Deadlocked : Prop := ∃ t, Relation.TransGen k.WaitsFor t t

variable {k}

/-- Calls that wait only for calls of a smaller rank cannot wait in a circle. -/
theorem not_deadlocked_of_rank (rank : T → Nat) (h : ∀ t u, k.WaitsFor t u → rank u < rank t) :
    ¬ k.Deadlocked := by
  have hpt : ∀ t u, Relation.TransGen k.WaitsFor t u → rank u < rank t := by
    intro t u hwai
    induction hwai with
    | single hst => exact h _ _ hst
    | tail _ hst ih =>
      have hla := h _ _ hst
      omega
  rintro ⟨t, hcyc⟩
  have hsf := hpt t t hcyc
  omega

theorem deadlocked_of_pair {t u : T} (htu : k.WaitsFor t u) (hut : k.WaitsFor u t) : k.Deadlocked :=
  ⟨t, .tail (.single htu) hut⟩

theorem deadlocked_of_triple {t u v : T} (htu : k.WaitsFor t u) (huv : k.WaitsFor u v)
    (hvt : k.WaitsFor v t) : k.Deadlocked :=
  ⟨t, .tail (.tail (.single htu) huv) hvt⟩

end LockTable

end Tlrpc
