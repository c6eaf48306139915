import Tlrpc.LittleEndian

namespace Tlrpc

def beNat (data : List UInt8) : Nat := leNat data.reverse

def byteLength (n : Nat) : Nat := if n = 0 then 0 else n.log2 / 8 + 1

/-- The bytes of a number without leading zeros, most significant first. -/
def beBytes (n : Nat) : List UInt8 := (leBytes (byteLength n) n).reverse

theorem pow_256 (k : Nat) : (256 : Nat) ^ k = 2 ^ (8 * k) := by
  rw [pow_mul]
  rfl

theorem length_beBytes (n : Nat) : (beBytes n).length = byteLength n := by
  rw [beBytes, List.length_reverse, length_leBytes]

theorem lt_pow_byteLength (n : Nat) : n < 256 ^ byteLength n := by
  unfold byteLength
  split
  next h => omega
  rename_i h
  have hlog : n < 2 ^ (n.log2 + 1) := Nat.lt_log2_self
  rw [pow_256]
  exact lt_of_lt_of_le hlog (Nat.pow_le_pow_right (by decide) (by omega))

theorem beNat_beBytes (n : Nat) : beNat (beBytes n) = n := by
  rw [beNat, beBytes, List.reverse_reverse, leNat_leBytes]
  exact Nat.mod_eq_of_lt (lt_pow_byteLength n)

theorem byteLength_le {n k : Nat} (h : n < 256 ^ k) : byteLength n ≤ k := by
  unfold byteLength
  split
  · exact Nat.zero_le k
  rename_i hn
  have hlog : 2 ^ n.log2 ≤ n := Nat.log2_self_le hn
  have hlt : n.log2 < 8 * k := by
    rw [pow_256] at h
    exact (Nat.pow_lt_pow_iff_right (by decide)).mp (lt_of_le_of_lt hlog h)
  omega

end Tlrpc
