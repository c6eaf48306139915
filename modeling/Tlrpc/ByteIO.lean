import Mathlib.Tactic.Common

namespace Tlrpc

open List

/-- The errors by which readers report the end of their input. -/
class InputErrors (ε : Type) where
  eof : ε
  unexpectedEOF : ε

/-- `read n` delivers at most `n` bytes. Reads of nothing use up the reader's patience. -/
structure ByteReader (σ ε : Type) where
  read : Nat → σ → (List UInt8 × Option ε) × σ
  patience : σ → Nat

namespace ByteReader

variable {σ ε : Type}

/-- `io.ReadFull`: until `wanted` bytes are there or an error is reported. -/
def fill (r : ByteReader σ ε) : Nat → Nat → List UInt8 → σ → (List UInt8 × Option ε) × σ
  | 0, _, got, s => ((got, none), s)
  | fuel + 1, wanted, got, s =>
    if wanted ≤ got.length then ((got, none), s)
    else
      let result := r.read (wanted - got.length) s
      match result.1.2 with
      | none => fill r fuel wanted (got ++ result.1.1) result.2
      | some err => ((got ++ result.1.1, some err), result.2)

/-- `io.ReadFull`. The loop makes fewer rounds than it is given fuel for. -/
def readFull [InputErrors ε] [DecidableEq ε] (r : ByteReader σ ε) (wanted : Nat) (s : σ) :
    Except ε (List UInt8) × σ :=
  let result := r.fill (r.patience s + wanted + 1) wanted [] s
  if wanted ≤ result.1.1.length then (.ok result.1.1, result.2)
  else
    match result.1.2 with
    | none => (.error InputErrors.unexpectedEOF, result.2)
    | some err =>
      if err = InputErrors.eof ∧ result.1.1 ≠ [] then (.error InputErrors.unexpectedEOF, result.2)
      else (.error err, result.2)

/-- The reader delivers `data` in order; `at_ pos` are its states after `pos` bytes. -/
structure Delivers (r : ByteReader σ ε) (data : List UInt8) (limit : Nat)
    (at_ : Nat → σ → Prop) : Prop where
  within : limit ≤ data.length
  sound : ∀ {pos k s bytes err s'}, at_ pos s → r.read k s = ((bytes, err), s') →
    bytes.length ≤ k ∧ pos + bytes.length ≤ data.length ∧
      bytes = (data.drop pos).take bytes.length ∧ at_ (pos + bytes.length) s'
  progress : ∀ {pos k s bytes err s'}, at_ pos s → 0 < k → pos + k ≤ limit →
    r.read k s = ((bytes, err), s') →
    bytes.length = k ∨ err = none ∧ r.patience s' ≤ r.patience s ∧
      (bytes = [] → r.patience s' < r.patience s)

section

variable {r : ByteReader σ ε} {data : List UInt8} {limit : Nat} {at_ : Nat → σ → Prop}
  (h : r.Delivers data limit at_)
include h

theorem fill_sound {fuel wanted pos : Nat} {got got' : List UInt8} {err : Option ε} {s s' : σ}
    (hat : at_ (pos + got.length) s) (hgot : got = (data.drop pos).take got.length)
    (hle : got.length ≤ wanted) (hrun : r.fill fuel wanted got s = ((got', err), s')) :
    got'.length ≤ wanted ∧ got' = (data.drop pos).take got'.length ∧ at_ (pos + got'.length) s' := by
  induction fuel generalizing got s with
  | zero =>
    cases hrun
    exact ⟨hle, hgot, hat⟩
  | succ fuel ih =>
    unfold fill at hrun
    split at hrun
    · cases hrun
      exact ⟨hle, hgot, hat⟩
    obtain ⟨⟨⟨bytes, err'⟩, mid⟩, hrd⟩ : ∃ x, x = r.read (wanted - got.length) s := ⟨_, rfl⟩
    rw [← hrd] at hrun
    obtain ⟨hlen, _, hby, hnx⟩ := h.sound hat hrd.symm
    have hln : (got ++ bytes).length = got.length + bytes.length := length_append
    have hle' : (got ++ bytes).length ≤ wanted := by omega
    have hat' : at_ (pos + (got ++ bytes).length) mid := by
      rw [hln, ← Nat.add_assoc]
      exact hnx
    have hgot' : got ++ bytes = (data.drop pos).take (got ++ bytes).length := by
      rw [hln, take_add, ← hgot, drop_drop, ← hby]
    cases err' with
    | none => exact ih hat' hgot' hle' hrun
    | some e =>
      cases hrun
      exact ⟨hle', hgot', hat'⟩

theorem fill_full {fuel wanted pos : Nat} {got : List UInt8} {s : σ}
    (hat : at_ (pos + got.length) s) (hlim : pos + wanted ≤ limit)
    (hfl : r.patience s + (wanted - got.length) < fuel) :
    wanted ≤ (r.fill fuel wanted got s).1.1.length := by
  induction fuel generalizing got s with
  | zero => omega
  | succ fuel ih =>
    unfold fill
    split
    next hdn => exact hdn
    rename_i hmr
    obtain ⟨⟨⟨bytes, err⟩, mid⟩, hrd⟩ : ∃ x, x = r.read (wanted - got.length) s := ⟨_, rfl⟩
    rw [← hrd]
    obtain ⟨hlen, _, _, hnx⟩ := h.sound hat hrd.symm
    have hpro := h.progress hat (by omega) (by omega) hrd.symm
    have hln : (got ++ bytes).length = got.length + bytes.length := length_append
    cases err with
    | some e =>
      have hall : bytes.length = wanted - got.length := by
        rcases hpro with hall | ⟨hno, _⟩
        · exact hall
        · cases hno
      show wanted ≤ (got ++ bytes).length
      omega
    | none =>
      show wanted ≤ (r.fill fuel wanted (got ++ bytes) mid).1.1.length
      have hat' : at_ (pos + (got ++ bytes).length) mid := by
        rw [hln, ← Nat.add_assoc]
        exact hnx
      rcases hpro with hall | ⟨_, hpat, hemp⟩
      · -- the loop ends in its next round
        have hfu : wanted ≤ (got ++ bytes).length := by omega
        cases fuel with
        | zero => exact hfu
        | succ fuel =>
          unfold fill
          rw [if_pos hfu]
          exact hfu
      · refine ih hat' ?_
        by_cases hb : bytes = []
        · have := hemp hb
          omega
        · have := length_pos_iff.mpr hb
          omega

variable [InputErrors ε] [DecidableEq ε]

theorem readFull_ok {n pos : Nat} {s : σ} (hat : at_ pos s) (hlim : pos + n ≤ limit) :
    ∃ s', r.readFull n s = (.ok ((data.drop pos).take n), s') ∧ at_ (pos + n) s' := by
  have hst : at_ (pos + ([] : List UInt8).length) s := hat
  have hlen : n ≤ (r.fill (r.patience s + n + 1) n [] s).1.1.length :=
    fill_full h hst hlim (by simp only [length_nil]; omega)
  obtain ⟨⟨⟨got, err⟩, s'⟩, hrun⟩ : ∃ x, x = r.fill (r.patience s + n + 1) n [] s := ⟨_, rfl⟩
  rw [← hrun] at hlen
  obtain ⟨hle, hgot, hat'⟩ := fill_sound h hst (by simp) (Nat.zero_le _) hrun.symm
  have hn : got.length = n := Nat.le_antisymm hle hlen
  rw [hn] at hgot hat'
  refine ⟨s', ?_, hat'⟩
  unfold readFull
  rw [← hrun, ← hgot]
  exact if_pos hlen

theorem readFull_sound {n pos : Nat} {s s' : σ} {bytes : List UInt8} (hat : at_ pos s)
    (hpos : pos ≤ data.length) (hrun : r.readFull n s = (.ok bytes, s')) :
    bytes.length = n ∧ bytes = (data.drop pos).take n ∧ pos + n ≤ data.length ∧ at_ (pos + n) s' := by
  have hst : at_ (pos + ([] : List UInt8).length) s := hat
  obtain ⟨⟨⟨got, err⟩, mid⟩, hfl⟩ : ∃ x, x = r.fill (r.patience s + n + 1) n [] s := ⟨_, rfl⟩
  obtain ⟨hle, hgot, hat'⟩ := fill_sound h hst (by simp) (Nat.zero_le _) hfl.symm
  unfold readFull at hrun
  rw [← hfl] at hrun
  dsimp only at hrun
  split at hrun
  next hlen =>
    obtain ⟨rfl, rfl⟩ : got = bytes ∧ mid = s' := by simpa using hrun
    have hn : got.length = n := Nat.le_antisymm hle hlen
    rw [hn] at hgot hat'
    have hcnt := congrArg List.length hgot
    rw [length_take, length_drop] at hcnt
    exact ⟨hn, hgot, by omega, hat'⟩
  · split at hrun
    · cases hrun
    · split at hrun <;> cases hrun

end

end ByteReader

/-- `chunks` bounds the next reads, the later ones deliver all they can. -/
structure ByteSource where
  data : List UInt8
  chunks : List Nat := []
  eager : Bool := false
  sized : Bool := true

namespace ByteSource

def offer (n : Nat) : List Nat → Nat
  | [] => n
  | chunk :: _ => min chunk n

variable {ε : Type} [InputErrors ε]

def read (n : Nat) (s : ByteSource) : (List UInt8 × Option ε) × ByteSource :=
  if s.data = [] then (([], some InputErrors.eof), s)
  else
    let rest := s.data.drop (offer n s.chunks)
    ((s.data.take (offer n s.chunks), if s.eager ∧ rest = [] then some InputErrors.eof else none),
      { s with data := rest, chunks := s.chunks.tail })

def reader : ByteReader ByteSource ε := ⟨read, fun s => s.chunks.length⟩

theorem read_spec {n : Nat} {s s' : ByteSource} {bytes : List UInt8} {err : Option ε}
    (h : s.read n = ((bytes, err), s')) : bytes.length ≤ n ∧ bytes ++ s'.data = s.data ∧ s'.sized = s.sized ∧
      (0 < n → n ≤ s.data.length → bytes.length = n ∨ err = none ∧ s'.chunks.length ≤ s.chunks.length ∧
          (bytes = [] → s'.chunks.length < s.chunks.length)) := by
  unfold read at h
  split at h
  next hemp =>
    cases h
    refine ⟨Nat.zero_le _, rfl, rfl, fun hn hle => ?_⟩
    rw [hemp] at hle
    simp only [length_nil] at hle
    omega
  next hda =>
    cases h
    have hoff : offer n s.chunks ≤ n := by
      unfold offer
      split <;> omega
    refine ⟨?_, take_append_drop _ _, rfl, fun hn hle => ?_⟩
    · rw [length_take]
      omega
    rw [length_take]
    cases hchu : s.chunks with
    | nil =>
      left
      simp only [offer]
      omega
    | cons chunk chunks =>
      simp only [offer]
      by_cases hch : n ≤ chunk
      · left
        omega
      right
      refine ⟨if_neg ?_, by simp, by simp⟩
      rintro ⟨_, hrs⟩
      have := congrArg List.length hrs
      rw [length_drop, length_nil] at this
      omega

theorem delivers (data : List UInt8) : (reader : ByteReader ByteSource ε).Delivers data data.length
      (fun pos s => pos ≤ data.length ∧ s.data = data.drop pos) where
  within := Nat.le_refl _
  sound := by
    rintro pos k s bytes err s' ⟨hpos, hda⟩ hrd
    obtain ⟨hlen, hspl, _, _⟩ := read_spec hrd
    rw [hda] at hspl
    have htot := congrArg List.length hspl
    rw [length_append, length_drop] at htot
    refine ⟨hlen, by omega, ?_, by omega, ?_⟩
    · rw [← hspl, take_left]
    · rw [← drop_drop, ← hspl, drop_left]
  progress := by
    rintro pos k s bytes err s' ⟨hpos, hda⟩ hk hlim hrd
    obtain ⟨_, _, _, hpro⟩ := read_spec hrd
    refine hpro hk ?_
    rw [hda, length_drop]
    omega

end ByteSource

/-- A writer: `write p` tells how many bytes of `p` it took. -/
structure ByteWriter (ω ε : Type) where
  write : List UInt8 → ω → (Nat × Option ε) × ω

/-- The writer takes all it is given, `out` being what it has been given so far. -/
structure ByteWriter.TakesAll {ω ε : Type} (w : ByteWriter ω ε) (out : ω → List UInt8) : Prop where
  taken : ∀ p s, (w.write p s).1 = (p.length, none)
  appended : ∀ p s, out (w.write p s).2 = out s ++ p

end Tlrpc
