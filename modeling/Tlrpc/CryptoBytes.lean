import Tlrpc.ByteStrings

namespace Tlrpc

open List

/-- It checks no length and lets the long header keep the low 24 bits. -/
def writeTLBytes (data : List UInt8) : List UInt8 :=
  if data.length < 254 then
    UInt8.ofNat data.length :: data ++ List.replicate ((4 - (data.length + 1) % 4) % 4) 0
  else 254 :: leBytes 3 data.length ++ data ++ List.replicate ((4 - data.length % 4) % 4) 0

/-- The end of `crypto.ReadTLBytes`: one padding for both headers. -/
def readTLData (length : Nat) (input : List UInt8) : Option (List UInt8 × List UInt8) := do
  let (data, rest) ← readFull length input
  let (_, rest) ← readFull ((4 - (length + 1) % 4) % 4) rest
  pure (data, rest)

/-- `crypto.ReadTLBytes`; `none` is an input that ends too early. -/
def readTLBytes (input : List UInt8) : Option (List UInt8 × List UInt8) := do
  let (lenByte, rest) ← readFull 1 input
  let length := (lenByte.headD 0).toNat
  if length ≥ 254 then do
    let (lenBytes, rest) ← readFull 3 rest
    readTLData (leNat lenBytes) rest
  else readTLData length rest

theorem readTLData_eq (length : Nat) : readTLData length = readPadded 1 length := by
  unfold readTLData readPadded tlPadding
  rw [Nat.add_comm 1 length]

theorem readTLBytes_cons (lenByte : UInt8) (rest : List UInt8) :
    readTLBytes (lenByte :: rest) = if lenByte.toNat ≥ 254 then
        (readFull 3 rest).bind fun r => readTLData (leNat r.1) r.2 else readTLData lenByte.toNat rest := by
  unfold readTLBytes
  rw [← singleton_append, readFull_append (n := 1) rfl]
  rfl

variable {v : List UInt8}

theorem writeTLBytes_eq (h : v.length < 2 ^ 24) : writeBytes v = some (writeTLBytes v) := by
  unfold writeBytes writeTLBytes maxTLBytesLength
  rw [if_neg (show ¬v.length > 2 ^ 24 - 1 by omega), Nat.add_comm 1, Nat.add_mod_left]
  split <;> rfl

theorem readTLBytes_short (h : v.length < 254) (suffix : List UInt8) :
    readTLBytes (writeTLBytes v ++ suffix) = some (v, suffix) := by
  have hby : (UInt8.ofNat v.length).toNat = v.length :=
    UInt8.toNat_ofNat_of_lt' (show v.length < 256 by omega)
  unfold writeTLBytes
  rw [if_pos h, cons_append, cons_append, readTLBytes_cons, hby, if_neg (by omega), readTLData_eq,
    Nat.add_comm]
  exact readPadded_append v suffix

/-- Behind a long header the reader skips a padding of another length than was written. -/
theorem readTLBytes_long (h : 254 ≤ v.length) (hmax : v.length < 2 ^ 24) (suffix : List UInt8) :
    readTLBytes (writeTLBytes v ++ suffix) ≠ some (v, suffix) := by
  have hsz : leNat (leBytes 3 v.length) = v.length := by
    rw [leNat_leBytes]
    exact Nat.mod_eq_of_lt hmax
  unfold writeTLBytes
  rw [if_neg (by omega), append_assoc, append_assoc, cons_append, readTLBytes_cons,
    if_pos (by decide), readFull_append (length_leBytes 3 _)]
  show readTLData (leNat (leBytes 3 v.length)) _ ≠ _
  rw [hsz, readTLData_eq, readPadded_eq]
  intro heq
  split at heq
  next hle =>
    have hlen := congrArg (List.length ∘ Prod.snd) (Option.some.inj heq)
    simp only [Function.comp, length_drop, length_append, length_replicate] at hlen hle
    unfold tlPadding at hlen hle
    omega
  · cases heq

/-- Both packages write the same bytes, but the reader of `crypto` takes only the short form back. -/
theorem crypto_bytes_read_back_iff (v : List UInt8) (h : v.length < 2 ^ 24) :
    writeBytes v = some (writeTLBytes v) ∧ (writeTLBytes v).length % 4 = 0 ∧
      ∀ suffix, readTLBytes (writeTLBytes v ++ suffix) = some (v, suffix) ↔ v.length < 254 := by
  have hwr := writeTLBytes_eq h
  have hmax : v.length ≤ maxTLBytesLength := by
    unfold maxTLBytesLength
    omega
  have htl : writeTLBytes v = tlBytes v :=
    Option.some.inj (hwr.symm.trans (writeBytes_eq_some hmax))
  refine ⟨hwr, by rw [htl]; exact length_tlBytes_mod hmax, fun suffix => ⟨fun hrd => ?_, ?_⟩⟩
  · by_contra hln
    exact readTLBytes_long (by omega) h suffix hrd
  · exact fun hsh => readTLBytes_short hsh suffix

theorem crypto_bytes_read_back_iff_three :
    readTLBytes (writeTLBytes [1, 2, 3] ++ [9]) = some ([1, 2, 3], [9]) :=
  ((crypto_bytes_read_back_iff [1, 2, 3] (by decide)).2.2 [9]).mpr (by decide)

/-- 254 bytes: one byte of the padding stays in the input. -/
theorem crypto_bytes_padding_left :
    readTLBytes (writeTLBytes (.replicate 254 7) ++ [1]) = some (.replicate 254 7, [0, 1]) := by
  decide +kernel

end Tlrpc
