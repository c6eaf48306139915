import Mathlib.Tactic.Ring

namespace Tlrpc

open List

def leNat : List UInt8 → Nat
  | [] => 0
  | byte :: rest => byte.toNat + 256 * leNat rest

def leUint32 (data : List UInt8) : UInt32 := UInt32.ofNat (leNat (data.take 4))

def leBytes : Nat → Nat → List UInt8
  | 0, _ => []
  | n + 1, value => UInt8.ofNat value :: leBytes n (value / 256)

theorem leNat_lt (data : List UInt8) : leNat data < 256 ^ data.length := by
  induction data with
  | nil => simp [leNat]
  | cons byte rest ih =>
    have := byte.toNat_lt
    simp only [leNat, length_cons, pow_succ]
    omega

theorem leUint32_toNat (data : List UInt8) : (leUint32 data).toNat = leNat (data.take 4) := by
  have hlt := leNat_lt (data.take 4)
  have hlen : (data.take 4).length ≤ 4 := length_take_le 4 data
  have hpow : 256 ^ (data.take 4).length ≤ 256 ^ 4 := Nat.pow_le_pow_right (by decide) hlen
  exact UInt32.toNat_ofNat_of_lt' (lt_of_lt_of_le hlt hpow)

theorem leUint32_take (data : List UInt8) : leUint32 (data.take 4) = leUint32 data := by
  unfold leUint32
  rw [take_take, Nat.min_self]

theorem length_leBytes (n value : Nat) : (leBytes n value).length = n := by
  induction n generalizing value with
  | zero => rfl
  | succ n ih => simp [leBytes, ih]

theorem leNat_leBytes (n value : Nat) : leNat (leBytes n value) = value % 256 ^ n := by
  induction n generalizing value with
  | zero => simp [leBytes, leNat, Nat.mod_one]
  | succ n ih =>
    have hby : (UInt8.ofNat value).toNat = value % 256 := UInt8.toNat_ofNat'
    rw [leBytes, leNat, ih, hby, pow_succ, Nat.mul_comm (256 ^ n) 256, Nat.mod_mul]

theorem leUint32_leBytes {value : Nat} (h : value < 2 ^ 32) (rest : List UInt8) :
    (leUint32 (leBytes 4 value ++ rest)).toNat = value := by
  have htk : (leBytes 4 value ++ rest).take 4 = leBytes 4 value := by
    rw [take_append_of_le_length (by rw [length_leBytes]), take_of_length_le]
    rw [length_leBytes]
  rw [leUint32_toNat, htk, leNat_leBytes]
  exact Nat.mod_eq_of_lt h

end Tlrpc
