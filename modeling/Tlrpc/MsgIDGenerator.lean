import Mathlib.Tactic.Ring

namespace Tlrpc

structure ClockReading where
  unix : Int64
  nanosecond : Nat
  valid : nanosecond < 1000000000

def ClockReading.msgID (now : ClockReading) : Int64 :=
  now.unix <<< 32 ||| (Int64.ofNat now.nanosecond &&& ~~~3)

@[ext]
structure MsgIDGenerator where
  last : Int64 := 0

namespace MsgIDGenerator

def next (g : MsgIDGenerator) (now : ClockReading) : MsgIDGenerator :=
  ⟨if now.msgID ≤ g.last then g.last + 4 else now.msgID⟩

def after (g : MsgIDGenerator) (clock : Nat → ClockReading) : Nat → MsgIDGenerator
  | 0 => g
  | k + 1 => (g.after clock k).next (clock k)

def ids (g : MsgIDGenerator) (clock : Nat → ClockReading) (k : Nat) : Int :=
  (g.after clock (k + 1)).last.toInt

end MsgIDGenerator

theorem and_not_three (x : BitVec 64) : x &&& ~~~3#64 = (x >>> 2) <<< 2 := by
  refine BitVec.eq_of_getLsbD_eq fun i hi => ?_
  have hthr : (3#64).getLsbD i = decide (i < 2) := by
    rw [BitVec.getLsbD_ofNat, show (3 : Nat) = 2 ^ 2 - 1 from rfl, Nat.testBit_two_pow_sub_one]
    simp [hi]
  rw [BitVec.getLsbD_and, BitVec.getLsbD_not, BitVec.getLsbD_shiftLeft, BitVec.getLsbD_ushiftRight, hthr]
  by_cases hlow : i < 2
  · simp [hlow]
  · have hindex : 2 + (i - 2) = i := by omega
    simp [hlow, hi, hindex]

namespace ClockReading

theorem msgID_toNat (now : ClockReading) : ∃ seconds fraction : Nat,
    seconds < 4294967296 ∧ fraction ≤ 999999996 ∧ fraction % 4 = 0 ∧
      now.msgID.toBitVec.toNat = seconds * 4294967296 + fraction := by
  have hbt : now.msgID.toBitVec =
      now.unix.toBitVec <<< 32 ||| (BitVec.ofNat 64 now.nanosecond >>> 2) <<< 2 := by
    rw [← and_not_three]
    unfold msgID
    rw [Int64.toBitVec_or, Int64.toBitVec_and, Int64.toBitVec_shiftLeft, Int64.toBitVec_not]
    rfl
  have hval := now.valid
  have hfra : ((BitVec.ofNat 64 now.nanosecond >>> 2) <<< 2).toNat = now.nanosecond / 4 * 4 := by
    rw [BitVec.toNat_shiftLeft, BitVec.toNat_ushiftRight, BitVec.toNat_ofNat, Nat.shiftLeft_eq,
      Nat.shiftRight_eq_div_pow]
    omega
  have hsec : (now.unix.toBitVec <<< 32).toNat = (now.unix.toBitVec.toNat % 4294967296) <<< 32 := by
    rw [BitVec.toNat_shiftLeft, Nat.shiftLeft_eq, Nat.shiftLeft_eq]
    omega
  refine ⟨now.unix.toBitVec.toNat % 4294967296, now.nanosecond / 4 * 4, by omega, by omega, by omega, ?_⟩
  rw [hbt, BitVec.toNat_or, hfra, hsec, ← Nat.shiftLeft_add_eq_or_of_lt (by omega), Nat.shiftLeft_eq]

/-- The largest ID that a reading can have, in the last second that fits the upper half. -/
def maxMsgID : Int := 9223372033559808508

theorem msgID_aligned (now : ClockReading) : now.msgID.toInt % 4 = 0 := by
  obtain ⟨seconds, fraction, _, _, hfra, hbt⟩ := now.msgID_toNat
  rw [← Int64.toInt_toBitVec, BitVec.toInt_eq_toNat_cond, hbt]
  split <;> omega

theorem msgID_le (now : ClockReading) : now.msgID.toInt ≤ maxMsgID := by
  obtain ⟨seconds, fraction, _, hfra, _, hbt⟩ := now.msgID_toNat
  rw [← Int64.toInt_toBitVec, BitVec.toInt_eq_toNat_cond, hbt]
  unfold maxMsgID
  split <;> omega

end ClockReading

namespace MsgIDGenerator

/-- The IDs a new generator gives before `last + 4` can leave the `int64`s. -/
def monotoneDraws : Nat := 823741825

structure Within (g : MsgIDGenerator) (draws : Nat) : Prop where
  aligned : g.last.toInt % 4 = 0
  nonneg : 0 ≤ g.last.toInt
  le : g.last.toInt ≤ ClockReading.maxMsgID + 4 * draws - 4

variable {g : MsgIDGenerator} {draws : Nat}

theorem within_new : ({} : MsgIDGenerator).Within 0 := ⟨rfl, by decide, by decide⟩

theorem toInt_add_four {x : Int64} (h : x.toInt + 4 < 9223372036854775808)
    (hnon : 0 ≤ x.toInt) : (x + 4).toInt = x.toInt + 4 := by
  rw [Int64.toInt_add]
  have hfr : (4 : Int64).toInt = 4 := rfl
  rw [hfr, Int.bmod_eq_of_le (by omega) (by omega)]

theorem Within.next (h : g.Within draws) (hdra : draws < monotoneDraws) (now : ClockReading) :
    (g.next now).Within (draws + 1) ∧ g.last.toInt + 4 ≤ (g.next now).last.toInt := by
  have hali := h.aligned
  have hnon := h.nonneg
  have hle := h.le
  have hrea := now.msgID_aligned
  have hmax := now.msgID_le
  unfold monotoneDraws at hdra
  unfold ClockReading.maxMsgID at hle hmax
  have hla : (g.next now).last.toInt = g.last.toInt + 4 ∧ now.msgID.toInt ≤ g.last.toInt ∨
      (g.next now).last = now.msgID ∧ g.last.toInt < now.msgID.toInt := by
    unfold MsgIDGenerator.next
    split
    next hbeh => exact .inl ⟨toInt_add_four (by omega) hnon, Int64.le_iff_toInt_le.mp hbeh⟩
    next hahe =>
      rw [Int64.le_iff_toInt_le] at hahe
      exact .inr ⟨rfl, by omega⟩
  rcases hla with ⟨hla, _⟩ | ⟨hla, _⟩
  · exact ⟨⟨by omega, by omega, by unfold ClockReading.maxMsgID; omega⟩, by omega⟩
  rw [hla]
  exact ⟨⟨by rw [hla]; omega, by rw [hla]; omega,
    by rw [hla]; unfold ClockReading.maxMsgID; omega⟩, by omega⟩

variable {k : Nat}

section

variable (h : g.Within draws) (clock : Nat → ClockReading)
include h

theorem Within.after (hdra : draws + k ≤ monotoneDraws) : (g.after clock k).Within (draws + k) := by
  induction k with
  | zero => exact h
  | succ k ih => exact ((ih (by omega)).next (by omega) (clock k)).1

theorem Within.ids_lt
    (hdra : draws + k < monotoneDraws) : (g.after clock k).last.toInt + 4 ≤ g.ids clock k :=
  ((h.after clock (Nat.le_of_lt hdra)).next hdra (clock k)).2

theorem Within.last_le {j : Nat} (hjk : j ≤ k) (hdra : draws + k ≤ monotoneDraws) :
    (g.after clock j).last.toInt ≤ (g.after clock k).last.toInt := by
  induction k, hjk using Nat.le_induction with
  | base => exact Int.le_refl _
  | succ k _ ih =>
    have hnx : (g.after clock k).last.toInt + 4 ≤ (g.after clock (k + 1)).last.toInt :=
      h.ids_lt clock (by omega)
    omega

theorem Within.ids_aligned (hdra : draws + k < monotoneDraws) : g.ids clock k % 4 = 0 :=
  (h.after clock (k := k + 1) hdra).aligned

end

theorem after_still {now : ClockReading} (hnow : now.msgID.toInt = ClockReading.maxMsgID)
    (hk : k < monotoneDraws) : (({} : MsgIDGenerator).after (fun _ => now) (k + 1)).last.toInt =
      ClockReading.maxMsgID + 4 * k := by
  unfold monotoneDraws at hk
  induction k with
  | zero =>
    have hahe : ¬now.msgID ≤ (0 : Int64) := by
      rw [Int64.le_iff_toInt_le, hnow]
      decide
    show (if now.msgID ≤ (0 : Int64) then (0 : Int64) + 4 else now.msgID).toInt = _
    rw [if_neg hahe, hnow]
    rfl
  | succ k ih =>
    have hla := ih (by omega)
    have hbeh : now.msgID ≤ (({} : MsgIDGenerator).after (fun _ => now) (k + 1)).last := by
      rw [Int64.le_iff_toInt_le, hla, hnow]
      omega
    show (if _ then _ else now.msgID).toInt = _
    unfold ClockReading.maxMsgID at hla ⊢
    rw [if_pos hbeh, toInt_add_four (by omega) (by omega), hla]
    omega

end MsgIDGenerator

end Tlrpc
