import Tlrpc.Writer

namespace Tlrpc

open List

def readFull (n : Nat) (data : List UInt8) : Option (List UInt8 × List UInt8) :=
  if data.length < n then none else some (data.take n, data.drop n)

def readUint32 (data : List UInt8) : Option (UInt32 × List UInt8) := do
  let (bytes, rest) ← readFull 4 data
  pure (UInt32.ofNat (leNat bytes), rest)

def readInt32 (data : List UInt8) : Option (Int32 × List UInt8) := do
  let (value, rest) ← readUint32 data
  pure (value.toInt32, rest)

def readInt64 (data : List UInt8) : Option (Int64 × List UInt8) := do
  let (bytes, rest) ← readFull 8 data
  pure ((UInt64.ofNat (leNat bytes)).toInt64, rest)

/-- The zero bytes after a string whose header and payload take `n` bytes. -/
def tlPadding (n : Nat) : Nat := (4 - n % 4) % 4

/-- The end of `ReadBytes`, after a header of `headerSize` bytes. -/
def readPadded (headerSize length : Nat) (data : List UInt8) : Option (List UInt8 × List UInt8) := do
  let (payload, rest) ← readFull length data
  let (_, rest) ← readFull (tlPadding (headerSize + length)) rest
  pure (payload, rest)

/-- A 24-bit length is never above the limit that `ReadBytes` checks. -/
def readBytes : List UInt8 → Option (List UInt8 × List UInt8)
  | [] => none
  | first :: rest =>
    if first = 255 then none
    else if first < 254 then readPadded 1 first.toNat rest
    else do
      let (size, rest) ← readFull 3 rest
      readPadded 4 (leNat size) rest

theorem readFull_append {n : Nat} {bytes : List UInt8} (h : bytes.length = n) (rest : List UInt8) :
    readFull n (bytes ++ rest) = some (bytes, rest) := by
  unfold readFull
  rw [if_neg (by rw [length_append]; omega), take_left' h, drop_left' h]

theorem readUint32_leBytes (value : UInt32) (rest : List UInt8) :
    readUint32 (leBytes 4 value.toNat ++ rest) = some (value, rest) := by
  unfold readUint32
  rw [readFull_append (length_leBytes 4 _)]
  have hval : leNat (leBytes 4 value.toNat) = value.toNat := by
    rw [leNat_leBytes]
    exact Nat.mod_eq_of_lt value.toNat_lt
  show some (UInt32.ofNat (leNat (leBytes 4 value.toNat)), rest) = _
  rw [hval, UInt32.ofNat_toNat]

theorem readInt32_leBytes (value : Int32) (rest : List UInt8) :
    readInt32 (leBytes 4 value.toUInt32.toNat ++ rest) = some (value, rest) := by
  unfold readInt32
  rw [readUint32_leBytes]
  show some (value.toUInt32.toInt32, rest) = _
  rw [Int32.toInt32_toUInt32]

theorem readInt64_leBytes (value : Int64) (rest : List UInt8) :
    readInt64 (leBytes 8 value.toUInt64.toNat ++ rest) = some (value, rest) := by
  unfold readInt64
  rw [readFull_append (length_leBytes 8 _)]
  have hval : leNat (leBytes 8 value.toUInt64.toNat) = value.toUInt64.toNat := by
    rw [leNat_leBytes]
    exact Nat.mod_eq_of_lt value.toUInt64.toNat_lt
  show some ((UInt64.ofNat (leNat (leBytes 8 value.toUInt64.toNat))).toInt64, rest) = _
  rw [hval, UInt64.ofNat_toNat, Int64.toInt64_toUInt64]

theorem readPadded_append {headerSize : Nat} (payload rest : List UInt8) :
    readPadded headerSize payload.length
      (payload ++ List.replicate (tlPadding (headerSize + payload.length)) 0 ++ rest) =
      some (payload, rest) := by
  unfold readPadded
  rw [append_assoc, readFull_append rfl]
  show (readFull _ _).bind _ = _
  rw [readFull_append length_replicate]
  rfl

variable {v : List UInt8}

theorem readBytes_writeBytes {encoded : List UInt8} (h : writeBytes v = some encoded)
    (rest : List UInt8) : readBytes (encoded ++ rest) = some (v, rest) := by
  unfold writeBytes at h
  split at h
  next hsh =>
    cases h
    have hnat : (UInt8.ofNat v.length).toNat = v.length := by
      rw [UInt8.toNat_ofNat']
      exact Nat.mod_eq_of_lt (by omega)
    have hne : UInt8.ofNat v.length ≠ 255 := by
      intro heq
      rw [heq] at hnat
      have : (255 : UInt8).toNat = 255 := rfl
      omega
    have hlt : UInt8.ofNat v.length < 254 := by
      rw [UInt8.lt_iff_toNat_lt, hnat]
      exact hsh
    show readBytes (UInt8.ofNat v.length :: (v ++ List.replicate _ 0 ++ rest)) = _
    rw [readBytes, if_neg hne, if_pos hlt, hnat]
    exact readPadded_append v rest
  next hln =>
    split at h
    · cases h
    rename_i hmax
    cases h
    have hsz : leNat (leBytes 3 v.length) = v.length := by
      rw [leNat_leBytes]
      refine Nat.mod_eq_of_lt ?_
      unfold maxTLBytesLength at hmax
      omega
    have hspl : (0xfe :: leBytes 3 v.length ++ v ++
        List.replicate ((4 - (4 + v.length) % 4) % 4) 0) ++ rest =
        (0xfe : UInt8) :: (leBytes 3 v.length ++
          (v ++ List.replicate (tlPadding (4 + v.length)) 0 ++ rest)) := by
      simp only [cons_append, append_assoc, tlPadding]
    rw [hspl, readBytes, if_neg (by decide), if_neg (by decide)]
    rw [readFull_append (length_leBytes 3 _)]
    show readPadded 4 (leNat (leBytes 3 v.length)) _ = _
    rw [hsz]
    exact readPadded_append v rest

def tlBytes (v : List UInt8) : List UInt8 := (writeBytes v).getD []

theorem writeBytes_eq_some (h : v.length ≤ maxTLBytesLength) : writeBytes v = some (tlBytes v) := by
  unfold tlBytes writeBytes
  split
  · rfl
  rw [if_neg (by omega)]
  rfl

theorem readBytes_tlBytes (h : v.length ≤ maxTLBytesLength) (rest : List UInt8) :
    readBytes (tlBytes v ++ rest) = some (v, rest) :=
  readBytes_writeBytes (writeBytes_eq_some h) rest

theorem length_tlBytes_le (v : List UInt8) : (tlBytes v).length ≤ v.length + 8 := by
  unfold tlBytes writeBytes
  split
  · simp only [Option.getD_some, length_append, length_cons, length_replicate]
    omega
  split
  · simp
  simp only [Option.getD_some, length_append, length_cons, length_replicate, length_leBytes]
  omega

end Tlrpc
