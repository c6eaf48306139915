import Mathlib.Algebra.Ring.Int.Defs
import Tlrpc.ByteIO

namespace Tlrpc

open List

inductive DecodeError
  | eof
  | unexpectedEOF
  | negativeLimit
  | decodedBytesLimit
  | wrapperCountLimit
  | containerCountLimit
  | vectorCountLimit
  | objectNodeLimit
  | objectDepthLimit
  | invalidBool
  | invalidMessageLength
  | stringTooLong
  | vectorTooLong
  | invalidVectorConstructor (ctor : UInt32)
  | invalidGzip
  | gzipExpansionRatio
  | gzipWorkLimit
  | decodedPayloadTooLarge
deriving DecidableEq

instance : InputErrors DecodeError := ⟨.eof, .unexpectedEOF⟩

def defaultMaxDecodedBytes : Int := 2 ^ 24
def defaultMaxWrappers : Int := 16
def defaultMaxContainers : Int := 64
def defaultMaxVectorElementBudget : Int := 2 ^ 16
def defaultMaxObjectNodes : Int := 2 ^ 18
def defaultMaxObjectDepth : Int := 128
def defaultMaxGzipExpansionRatio : Int := 128
def defaultMaxGzipWorkBytes : Int := 2 ^ 25

/-- Zero selects the default. -/
structure DecodeLimits where
  maxDecodedBytes : Int := 0
  maxWrappers : Int := 0
  maxContainers : Int := 0
  maxVectorElements : Int := 0
  maxObjectNodes : Int := 0
  maxObjectDepth : Int := 0
  maxGzipRatio : Int := 0
  maxGzipWorkBytes : Int := 0
deriving DecidableEq

def orDefault (value default : Int) : Int := if value = 0 then default else value

def normalizeDecodeLimits (limits : DecodeLimits) : Except DecodeError DecodeLimits :=
  if limits.maxDecodedBytes < 0 ∨ limits.maxWrappers < 0 ∨ limits.maxContainers < 0 ∨
      limits.maxVectorElements < 0 ∨ limits.maxObjectNodes < 0 ∨ limits.maxObjectDepth < 0 ∨
      limits.maxGzipRatio < 0 ∨ limits.maxGzipWorkBytes < 0 then
    .error .negativeLimit
  else
    .ok
      { maxDecodedBytes := orDefault limits.maxDecodedBytes defaultMaxDecodedBytes
        maxWrappers := orDefault limits.maxWrappers defaultMaxWrappers
        maxContainers := orDefault limits.maxContainers defaultMaxContainers
        maxVectorElements := orDefault limits.maxVectorElements defaultMaxVectorElementBudget
        maxObjectNodes := orDefault limits.maxObjectNodes defaultMaxObjectNodes
        maxObjectDepth := orDefault limits.maxObjectDepth defaultMaxObjectDepth
        maxGzipRatio := orDefault limits.maxGzipRatio defaultMaxGzipExpansionRatio
        maxGzipWorkBytes := orDefault limits.maxGzipWorkBytes defaultMaxGzipWorkBytes }

structure DecodeBudget where
  limits : DecodeLimits
  decodedBytes : Int := 0
  wrapperCount : Int := 0
  containerCount : Int := 0
  vectorElements : Int := 0
  objectNodes : Int := 0
  objectDepth : Int := 0
  gzipWorkBytes : Int := 0
deriving DecidableEq

def newDecodeBudget (limits : DecodeLimits) : Except DecodeError DecodeBudget := do
  let normalized ← normalizeDecodeLimits limits
  return { limits := normalized }

namespace DecodeBudget

def remaining (b : DecodeBudget) : Int := b.limits.maxDecodedBytes - b.decodedBytes

def consume (b : DecodeBudget) (n : Nat) : Except DecodeError DecodeBudget :=
  if n > b.remaining then .error .decodedBytesLimit
  else .ok { b with decodedBytes := b.decodedBytes + n }

/-- Before it reads, `BudgetReader.Read` takes the bytes off the budget. -/
def reserve (b : DecodeBudget) (n : Nat) : Except DecodeError (Nat × DecodeBudget) :=
  if b.remaining ≤ 0 then .error .decodedBytesLimit
  else
    let reserved := min n b.remaining.toNat
    .ok (reserved, { b with decodedBytes := b.decodedBytes + reserved })

/-- What `BudgetReader.Read` does when it has read `n` of the reserved bytes. -/
def refund (b : DecodeBudget) (reserved n : Nat) : DecodeBudget :=
  { b with decodedBytes := b.decodedBytes - (reserved - n) }

def enterObject (b : DecodeBudget) : Except DecodeError DecodeBudget :=
  if b.objectNodes ≥ b.limits.maxObjectNodes then .error .objectNodeLimit
  else if b.objectDepth ≥ b.limits.maxObjectDepth then .error .objectDepthLimit
  else .ok { b with objectNodes := b.objectNodes + 1, objectDepth := b.objectDepth + 1 }

def leaveObject (b : DecodeBudget) : DecodeBudget := { b with objectDepth := b.objectDepth - 1 }

def consumeWrapper (b : DecodeBudget) : Except DecodeError DecodeBudget :=
  if b.wrapperCount ≥ b.limits.maxWrappers then .error .wrapperCountLimit
  else .ok { b with wrapperCount := b.wrapperCount + 1 }

def consumeContainer (b : DecodeBudget) : Except DecodeError DecodeBudget :=
  if b.containerCount ≥ b.limits.maxContainers then .error .containerCountLimit
  else .ok { b with containerCount := b.containerCount + 1 }

def consumeVectorElements (b : DecodeBudget) (count : Int) : Except DecodeError DecodeBudget :=
  if count > b.limits.maxVectorElements - b.vectorElements then .error .vectorCountLimit
  else .ok { b with vectorElements := b.vectorElements + count }

end DecodeBudget

def maxInt64 : Int := 2 ^ 63 - 1

def saturatingMultiply (left right : Int) : Int :=
  if left = 0 ∨ right = 0 then 0
  else if left > maxInt64 / right then maxInt64
  else left * right

/-- What `DecompressGzipWithBudget` may use, read before it decompresses. -/
structure GzipAllowance where
  packedBytes : Nat
  decodedRemaining : Int
  workRemaining : Int
  ratioLimit : Int
deriving DecidableEq

def GzipAllowance.limit (a : GzipAllowance) : Int :=
  max 0 (min a.decodedRemaining (min (a.workRemaining - a.packedBytes) a.ratioLimit))

namespace DecodeBudget

/-- The first section of `DecompressGzipWithBudget`. -/
def gzipAllowance (b : DecodeBudget) (packedBytes : Nat) : Except DecodeError GzipAllowance :=
  let workRemaining := b.limits.maxGzipWorkBytes - b.gzipWorkBytes
  if packedBytes > workRemaining then .error .gzipWorkLimit
  else .ok ⟨packedBytes, b.remaining, workRemaining,
    saturatingMultiply packedBytes b.limits.maxGzipRatio⟩

/-- The end of `DecompressGzipWithBudget`, with `decoded` bytes of output. -/
def gzipCharge (b : DecodeBudget) (a : GzipAllowance) (decoded : Nat) :
    Except DecodeError DecodeBudget :=
  let workCharge : Int := a.packedBytes + decoded
  if decoded > a.ratioLimit then .error .gzipExpansionRatio
  else if decoded > a.decodedRemaining then .error .decodedPayloadTooLarge
  else if workCharge > a.workRemaining then .error .gzipWorkLimit
  else if decoded > b.remaining then .error .decodedPayloadTooLarge
  else if workCharge > b.limits.maxGzipWorkBytes - b.gzipWorkBytes then .error .gzipWorkLimit
  else .ok { b with
    decodedBytes := b.decodedBytes + decoded, gzipWorkBytes := b.gzipWorkBytes + workCharge }

end DecodeBudget

structure BudgetReader where
  source : ByteSource
  budget : DecodeBudget

namespace BudgetReader

def read (n : Nat) (r : BudgetReader) : (List UInt8 × Option DecodeError) × BudgetReader :=
  if r.source.sized ∧ r.source.data = [] then (([], some .eof), r)
  else
    match r.budget.reserve n with
    | .error err => (([], some err), r)
    | .ok (reserved, budget) =>
      let result := r.source.read reserved
      (result.1, ⟨result.2, budget.refund reserved result.1.1.length⟩)

def reader : ByteReader BudgetReader DecodeError := ⟨read, fun r => r.source.chunks.length⟩

/-- `readerPhysicalLen`: what the input tells of its length. -/
def physicalLen (r : BudgetReader) : Option Nat :=
  if r.source.sized then some r.source.data.length else none

def len (r : BudgetReader) : Int :=
  let remaining := max 0 r.budget.remaining
  match r.physicalLen with
  | some n => if (n : Int) < remaining then n else remaining
  | none => remaining

end BudgetReader

def DecodeBudget.charge (b : DecodeBudget) (n : Nat) : DecodeBudget :=
  { b with decodedBytes := b.decodedBytes + n }

@[simp] theorem DecodeBudget.charge_zero (b : DecodeBudget) : b.charge 0 = b := by
  simp [DecodeBudget.charge]

theorem DecodeBudget.charge_charge (b : DecodeBudget) (m n : Nat) :
    (b.charge m).charge n = b.charge (m + n) := by
  simp [DecodeBudget.charge, Int.add_assoc]

@[simp] theorem DecodeBudget.remaining_charge (b : DecodeBudget) (n : Nat) :
    (b.charge n).remaining = b.remaining - n := by
  simp only [DecodeBudget.remaining, DecodeBudget.charge]
  omega

theorem BudgetReader.read_spec {n : Nat} {r r' : BudgetReader} {bytes : List UInt8}
    {err : Option DecodeError} (h : r.read n = ((bytes, err), r')) :
    bytes.length ≤ n ∧ bytes ++ r'.source.data = r.source.data ∧
      r'.source.sized = r.source.sized ∧ r'.budget = r.budget.charge bytes.length ∧
      (0 < n → n ≤ r.source.data.length → n ≤ r.budget.remaining → bytes.length = n ∨
        err = none ∧ r'.source.chunks.length ≤ r.source.chunks.length ∧
          (bytes = [] → r'.source.chunks.length < r.source.chunks.length)) := by
  unfold read at h
  split at h
  next hend =>
    cases h
    refine ⟨Nat.zero_le _, rfl, rfl, (DecodeBudget.charge_zero _).symm, fun hn hle => ?_⟩
    rw [hend.2] at hle
    simp only [length_nil] at hle
    omega
  · unfold DecodeBudget.reserve at h
    split at h
    next e hres =>
      cases h
      refine ⟨Nat.zero_le _, rfl, rfl, (DecodeBudget.charge_zero _).symm, fun hn _ hbud => ?_⟩
      split at hres
      next hspe => omega
      · cases hres
    next reserved budget hres =>
      split at hres
      · cases hres
      rename_i hps
      obtain ⟨hrs, hbud⟩ := Prod.mk.inj (Except.ok.inj hres)
      obtain ⟨⟨⟨got, err'⟩, source⟩, hrd⟩ :
          ∃ x : (List UInt8 × Option DecodeError) × ByteSource, x = r.source.read reserved :=
        ⟨_, rfl⟩
      rw [← hrd] at h
      obtain ⟨hlen, hspl, hsz, hpro⟩ := ByteSource.read_spec hrd.symm
      cases h
      refine ⟨by omega, hspl, hsz, ?_, fun hn hle hrm => ?_⟩
      · rw [← hbud, ← hrs]
        simp only [DecodeBudget.refund, DecodeBudget.charge]
        congr 1
        omega
      · have hall : reserved = n := by omega
        rw [hall] at hpro
        exact hpro hn hle

theorem BudgetReader.delivers (r : BudgetReader) : BudgetReader.reader.Delivers r.source.data
      (min r.source.data.length r.budget.remaining.toNat)
      (fun pos s => pos ≤ r.source.data.length ∧ s.source.data = r.source.data.drop pos ∧
        s.source.sized = r.source.sized ∧ s.budget = r.budget.charge pos) where
  within := Nat.min_le_left _ _
  sound := by
    rintro pos k s bytes err s' ⟨hpos, hda, hsz, hbud⟩ hrd
    obtain ⟨hlen, hspl, hsz', hchg, _⟩ := read_spec hrd
    rw [hda] at hspl
    have htot := congrArg length hspl
    rw [length_append, length_drop] at htot
    refine ⟨hlen, by omega, ?_, by omega, ?_, hsz'.trans hsz, ?_⟩
    · rw [← hspl, take_left]
    · rw [← drop_drop, ← hspl, drop_left]
    · rw [hchg, hbud, DecodeBudget.charge_charge]
  progress := by
    rintro pos k s bytes err s' ⟨hpos, hda, hsz, hbud⟩ hk hlim hrd
    obtain ⟨_, _, _, _, hpro⟩ := read_spec hrd
    refine hpro hk ?_ ?_
    · rw [hda, length_drop]
      omega
    · rw [hbud, DecodeBudget.remaining_charge]
      omega

end Tlrpc
