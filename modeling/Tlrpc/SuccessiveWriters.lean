import Tlrpc.BatchNumbering
import Tlrpc.ConnectionQuotas

namespace Tlrpc

open Function Option List

def ClockReading.notAfter (a b : ClockReading) : Prop :=
  a.unix < b.unix ∨ a.unix = b.unix ∧ a.nanosecond ≤ b.nanosecond

instance (a b : ClockReading) : Decidable (a.notAfter b) :=
  inferInstanceAs (Decidable (_ ∨ _))

/-- Connections that lease one session in turn. `assigned` are its IDs with their connections. -/
structure SuccessiveWriters where
  clock : ClockReading
  generators : ConnRef → MsgIDGenerator
  holder : Option ConnRef
  assigned : List (ConnRef × Int)

/-- Another connection leases; the writer assigns an ID; one is drawn for another session. -/
inductive SuccessiveOp
  | lease (c : ConnRef)
  | assign (push : Bool) (now : ClockReading)
  | drawOther (c : ConnRef) (now : ClockReading)

namespace SuccessiveWriters

def initial (clock : ClockReading) : SuccessiveWriters := ⟨clock, fun _ => {}, none, []⟩

def draw (s : SuccessiveWriters) (c : ConnRef) (now : ClockReading) : SuccessiveWriters :=
  { s with clock := now, generators := Function.update s.generators c ((s.generators c).next now) }

def source (s : SuccessiveWriters) (c : ConnRef) (now : ClockReading) : Int :=
  ((s.generators c).next now).last.toInt

def step (s : SuccessiveWriters) : SuccessiveOp → Option SuccessiveWriters
  | .lease c => some { s with holder := some c }
  | .assign push now =>
    match s.holder with
    | none => none
    | some c =>
      if s.clock.notAfter now then
        some { s.draw c now with
          assigned := s.assigned ++ [(c, nextMessageID (s.source c now) push)] }
      else none
  | .drawOther c now => if s.clock.notAfter now then some (s.draw c now) else none

/-- The writer's next ID lies above those from other generators. -/
def CaughtUp (s : SuccessiveWriters) : SuccessiveOp → Prop
  | .lease _ => True
  | .assign _ now => ∀ c ∈ s.holder, (s.generators c).last.toInt < s.source c now ∧
      ∀ entry ∈ s.assigned, entry.1 ≠ c → entry.2 < s.source c now
  | .drawOther c now => (s.generators c).last.toInt < s.source c now

structure Distinct (s : SuccessiveWriters) : Prop where
  aligned : ∀ c, (s.generators c).last.toInt % 4 = 0
  below : ∀ entry ∈ s.assigned, entry.2 < (s.generators entry.1).last.toInt + 4
  nodup : (s.assigned.map Prod.snd).Nodup

variable {s s' : SuccessiveWriters} {c : ConnRef} {now : ClockReading}

theorem aligned_next {g : MsgIDGenerator} (h : g.last.toInt % 4 = 0) (now : ClockReading) :
    (g.next now).last.toInt % 4 = 0 := by
  unfold MsgIDGenerator.next
  split
  · have hfr : (4 : Int64).toInt = 4 := rfl
    rw [Int64.toInt_add, hfr, Int.bmod_def]
    split <;> omega
  · exact now.msgID_aligned

theorem Distinct.draw (h : s.Distinct) (hup : (s.generators c).last.toInt < s.source c now) :
    (s.draw c now).Distinct := by
  refine ⟨fun other => ?_, fun entry hin => ?_, h.nodup⟩
  · unfold SuccessiveWriters.draw
    dsimp only
    by_cases heq : other = c
    · rw [heq, update_self]
      exact aligned_next (h.aligned c) now
    · rw [update_of_ne heq]
      exact h.aligned other
  · have hbl := h.below entry hin
    show entry.2 < (Function.update s.generators c _ entry.1).last.toInt + 4
    by_cases heq : entry.1 = c
    · rw [heq, update_self]
      rw [heq] at hbl
      unfold source at hup
      omega
    · rw [update_of_ne heq]
      exact hbl

theorem Distinct.source_above (h : s.Distinct) (hup : (s.generators c).last.toInt < s.source c now)
    (hoth : ∀ entry ∈ s.assigned, entry.1 ≠ c → entry.2 < s.source c now) (push : Bool)
    (entry : ConnRef × Int) (hin : entry ∈ s.assigned) : entry.2 < nextMessageID (s.source c now) push := by
  have hali : s.source c now % 4 = 0 := aligned_next (h.aligned c) now
  have hbet := nextMessageID_between hali push
  by_cases heq : entry.1 = c
  · have hbl := h.below entry hin
    have hla := h.aligned c
    rw [heq] at hbl
    omega
  · have hother := hoth entry hin heq
    omega

theorem Distinct.step {op : SuccessiveOp} (h : s.Distinct) (hcau : s.CaughtUp op)
    (hst : s.step op = some s') : s'.Distinct := by
  cases op with
  | lease c =>
    cases hst
    exact ⟨h.aligned, h.below, h.nodup⟩
  | drawOther c now =>
    obtain ⟨-, hst⟩ := ite_none_right_eq_some.mp hst
    cases hst
    exact h.draw hcau
  | assign push now =>
    unfold SuccessiveWriters.step at hst
    dsimp only at hst
    split at hst
    · cases hst
    rename_i c hhol
    obtain ⟨-, hst⟩ := ite_none_right_eq_some.mp hst
    cases hst
    obtain ⟨hup, hoth⟩ := hcau c hhol
    have hab := h.source_above hup hoth push
    have hdr := h.draw hup
    refine ⟨hdr.aligned, fun entry hin => ?_, ?_⟩
    · rcases mem_append.mp hin with hin | hin
      · exact hdr.below entry hin
      · rw [mem_singleton.mp hin]
        show _ < (Function.update s.generators c _ c).last.toInt + 4
        rw [update_self]
        exact (nextMessageID_between (aligned_next (h.aligned c) now) push).2
    · rw [map_append]
      refine nodup_append_comm.mp (nodup_cons.mpr ⟨fun hin => ?_, h.nodup⟩)
      obtain ⟨entry, hent, heq⟩ := mem_map.mp hin
      have hlt := hab entry hent
      rw [heq] at hlt
      exact Int.lt_irrefl _ hlt

def firstReading : ClockReading := ⟨1700000000, 0, by decide⟩

def laterReading : ClockReading := ⟨1700000000, 16, by decide⟩

end SuccessiveWriters

end Tlrpc
