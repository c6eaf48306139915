import Mathlib.Tactic.Common
import Mathlib.Algebra.Group.Int.Defs
import Mathlib.Data.Int.Order.Basic

namespace Tlrpc

/-- The 32-bit operations a program performs, in the monad it runs in. -/
structure Int32Ops (m : Type → Type) where
  add : Int32 → Int32 → m Int32
  sub : Int32 → Int32 → m Int32
  ofInt : Int → m Int32

def FitsInt32 (x : Int) : Prop := -2147483648 ≤ x ∧ x ≤ 2147483647

instance (x : Int) : Decidable (FitsInt32 x) := inferInstanceAs (Decidable (_ ∧ _))

def wrapping : Int32Ops Id where
  add a b := pure (a + b)
  sub a b := pure (a - b)
  ofInt x := pure (Int32.ofInt x)

def checked : Int32Ops Option where
  add a b := if FitsInt32 (a.toInt + b.toInt) then some (a + b) else none
  sub a b := if FitsInt32 (a.toInt - b.toInt) then some (a - b) else none
  ofInt x := if FitsInt32 x then some (Int32.ofInt x) else none

variable {a b : Int32} {x : Int}

theorem checked_add (h : FitsInt32 (a.toInt + b.toInt)) : checked.add a b = some (a + b) := if_pos h

theorem checked_sub (h : FitsInt32 (a.toInt - b.toInt)) : checked.sub a b = some (a - b) := if_pos h

theorem checked_ofInt (h : FitsInt32 x) : checked.ofInt x = some (Int32.ofInt x) :=
  if_pos h

theorem fitsInt32_toInt (a : Int32) : FitsInt32 a.toInt := by
  have := a.le_toInt
  have := a.toInt_lt
  constructor <;> omega

theorem bmod_of_fits (h : FitsInt32 x) : x.bmod 4294967296 = x := by
  obtain ⟨low, high⟩ := h
  exact Int.bmod_eq_of_le (by omega) (by omega)

theorem toInt_add_of_fits (h : FitsInt32 (a.toInt + b.toInt)) : (a + b).toInt = a.toInt + b.toInt := by
  rw [Int32.toInt_add]
  exact bmod_of_fits h

theorem toInt_sub_of_fits (h : FitsInt32 (a.toInt - b.toInt)) : (a - b).toInt = a.toInt - b.toInt := by
  rw [Int32.toInt_sub]
  exact bmod_of_fits h

theorem toInt_mul_of_fits (h : FitsInt32 (a.toInt * b.toInt)) : (a * b).toInt = a.toInt * b.toInt := by
  rw [Int32.toInt_mul]
  exact bmod_of_fits h

theorem toInt_ofInt_of_fits (h : FitsInt32 x) : (Int32.ofInt x).toInt = x := by
  rw [Int32.toInt_ofInt]
  exact bmod_of_fits h

theorem and_one_eq_zero_iff : a &&& 1 = 0 ↔ a.toInt % 2 = 0 := by
  have low : (a &&& 1).toBitVec.toNat = a.toBitVec.toNat % 2 := by
    simp [Int32.toBitVec_and, Nat.and_one_is_mod]
  have parity : a.toInt % 2 = ((a.toBitVec.toNat % 2 : Nat) : Int) := by
    change a.toBitVec.toInt % 2 = _
    rw [BitVec.toInt_eq_toNat_cond]
    split <;> omega
  rw [parity, ← low, ← Int32.toBitVec_inj]
  constructor
  · intro h
    simp [h]
  · intro h
    apply BitVec.eq_of_toNat_eq
    have zero : (a &&& 1).toBitVec.toNat = 0 := by omega
    exact zero

theorem and_one_ne_zero_iff : a &&& 1 ≠ 0 ↔ a.toInt % 2 = 1 := by
  rw [ne_eq, and_one_eq_zero_iff]
  omega

end Tlrpc
