import Mathlib.Tactic.Common

namespace Tlrpc

open List

def xorBytes (keystream : Nat → UInt8) : Nat → List UInt8 → List UInt8
  | _, [] => []
  | n, byte :: rest => (byte ^^^ keystream n) :: xorBytes keystream (n + 1) rest

variable {keystream : Nat → UInt8}

theorem length_xorBytes (n : Nat) (data : List UInt8) :
    (xorBytes keystream n data).length = data.length := by
  induction data generalizing n with
  | nil => rfl
  | cons byte rest ih => simp [xorBytes, ih]

theorem xorBytes_xorBytes (n : Nat) (data : List UInt8) :
    xorBytes keystream n (xorBytes keystream n data) = data := by
  induction data generalizing n with
  | nil => rfl
  | cons byte rest ih =>
    simp only [xorBytes, ih]
    rw [UInt8.xor_assoc, UInt8.xor_self, UInt8.xor_zero]

theorem drop_xorBytes (n k : Nat) (data : List UInt8) :
    (xorBytes keystream n data).drop k = xorBytes keystream (n + k) (data.drop k) := by
  induction data generalizing n k with
  | nil => simp [xorBytes]
  | cons byte rest ih =>
    cases k with
    | zero => rfl
    | succ k =>
      simp only [xorBytes, drop_succ_cons, ih]
      rw [Nat.add_assoc, Nat.add_comm 1 k]

theorem xorBytes_append (n : Nat) (data more : List UInt8) : xorBytes keystream n (data ++ more) =
      xorBytes keystream n data ++ xorBytes keystream (n + data.length) more := by
  induction data generalizing n with
  | nil => rfl
  | cons byte rest ih =>
    simp only [xorBytes, cons_append, ih, length_cons]
    rw [Nat.add_assoc, Nat.add_comm 1 rest.length]

theorem take_xorBytes (n k : Nat) (data : List UInt8) :
    (xorBytes keystream n data).take k = xorBytes keystream n (data.take k) := by
  induction data generalizing n k with
  | nil => simp [xorBytes]
  | cons byte rest ih =>
    cases k with
    | zero => rfl
    | succ k => simp only [xorBytes, take_succ_cons, ih]

/-- A stream cipher in use: the keystream and how much of it is spent. -/
structure CipherStream where
  keystream : Nat → UInt8
  offset : Nat

def CipherStream.xorKeyStream (stream : CipherStream) (data : List UInt8) :
    List UInt8 × CipherStream :=
  (xorBytes stream.keystream stream.offset data,
    { stream with offset := stream.offset + data.length })

/-- One direction: one keystream, and `wire` holds what was sent and not received yet. -/
structure InStep (sender receiver : CipherStream) (wire sent received : List UInt8) : Prop where
  keystream : sender.keystream = receiver.keystream
  pending : ∃ rest, sent = received ++ rest ∧
    wire = xorBytes receiver.keystream receiver.offset rest ∧
    sender.offset = receiver.offset + rest.length

namespace InStep

variable {sender receiver : CipherStream} {wire sent received : List UInt8}

theorem start (stream : CipherStream) : InStep stream stream [] [] [] := ⟨rfl, [], rfl, rfl, rfl⟩

section

variable (h : InStep sender receiver wire sent received)
include h

theorem send (data : List UInt8) :
    InStep (sender.xorKeyStream data).2 receiver (wire ++ (sender.xorKeyStream data).1)
      (sent ++ data) received := by
  obtain ⟨hks, rest, rfl, rfl, hoff⟩ := h
  refine ⟨hks, rest ++ data, append_assoc _ _ _, ?_, ?_⟩
  · unfold CipherStream.xorKeyStream
    rw [xorBytes_append, hks, hoff]
  · unfold CipherStream.xorKeyStream
    rw [length_append, ← Nat.add_assoc, ← hoff]

theorem receive (n : Nat) : InStep sender (receiver.xorKeyStream (wire.take n)).2 (wire.drop n) sent
      (received ++ (receiver.xorKeyStream (wire.take n)).1) := by
  obtain ⟨hks, rest, rfl, rfl, hoff⟩ := h
  have hlen : (rest.take n).length + (rest.drop n).length = rest.length := by
    rw [← length_append, take_append_drop]
  refine ⟨hks, rest.drop n, ?_, ?_, ?_⟩
  · unfold CipherStream.xorKeyStream
    rw [take_xorBytes, xorBytes_xorBytes, append_assoc, take_append_drop]
  · unfold CipherStream.xorKeyStream
    rw [take_xorBytes, length_xorBytes, drop_xorBytes]
    by_cases hn : n ≤ rest.length
    · rw [length_take_of_le hn]
    · rw [drop_of_length_le (by omega)]
      rfl
  · unfold CipherStream.xorKeyStream
    rw [take_xorBytes, length_xorBytes]
    dsimp only
    omega

theorem received_exactly : received <+: sent ∧ received.length + wire.length = sent.length := by
  obtain ⟨_, rest, rfl, rfl, _⟩ := h
  refine ⟨prefix_append _ _, ?_⟩
  rw [length_xorBytes, length_append]

end

end InStep

end Tlrpc
