import Tlrpc.DecodeBudget
import Tlrpc.StateExcept
import Tlrpc.TLReader

namespace Tlrpc

/-- A position in a buffer, or a `BudgetReader` over `reader` with the decoder's budget. -/
structure Decoder where
  reader : Option ByteSource
  data : List UInt8
  offset : Nat
  budget : DecodeBudget
  scratch : List UInt8

/-- What `take` returns: a part of the buffer, of the scratch array, or bytes of their own. -/
inductive Span
  | buffer (start n : Nat)
  | scratch (n : Nat)
  | made (bytes : List UInt8)

def Span.shorten (n : Nat) : Span → Span
  | .buffer start _ => .buffer start n
  | .scratch _ => .scratch n
  | .made bytes => .made (bytes.take n)

def defaultDecodeBudget : DecodeBudget :=
  (newDecodeBudget {}).toOption.getD { limits := {} }

def newDecoderBytes (data : List UInt8) (budget : Option DecodeBudget) : Decoder :=
  ⟨none, data, 0, budget.getD defaultDecodeBudget, List.replicate 32 0⟩

def newBudgetReader (source : ByteSource) (budget : Option DecodeBudget) : BudgetReader :=
  ⟨source, budget.getD defaultDecodeBudget⟩

def newDecoder (r : BudgetReader) : Decoder :=
  ⟨some r.source, [], 0, r.budget, List.replicate 32 0⟩

abbrev DecodeM := StateExcept Decoder DecodeError

namespace Decoder

def bytesOf (d : Decoder) : Span → List UInt8
  | .buffer start n => (d.data.drop start).take n
  | .scratch n => d.scratch.take n
  | .made bytes => bytes

def physicalLen (d : Decoder) : Option Nat :=
  match d.reader with
  | none => some (d.data.length - d.offset)
  | some source => BudgetReader.physicalLen ⟨source, d.budget⟩

def available (d : Decoder) : Int :=
  match d.physicalLen with
  | some physical => min (max 0 d.budget.remaining) physical
  | none => max 0 d.budget.remaining

def len (d : Decoder) : Int :=
  match d.physicalLen with
  | some n => n
  | none => d.available

def requireAvailable (n : Nat) : DecodeM Unit := do
  let d ← StateExcept.state
  StateExcept.require (d.physicalLen.all (n ≤ ·)) .unexpectedEOF
  StateExcept.require (n ≤ d.budget.remaining) .decodedBytesLimit

def charge (section_ : DecodeBudget → Except DecodeError DecodeBudget) : DecodeM Unit := fun d =>
  match section_ d.budget with
  | .ok budget => (.ok (), { d with budget })
  | .error err => (.error err, d)

def readFull (n : Nat) : DecodeM (List UInt8) := fun d =>
  match d.reader with
  | none => (.error .eof, d)
  | some source =>
    let result := BudgetReader.reader.readFull n ⟨source, d.budget⟩
    (result.1, { d with reader := some result.2.source, budget := result.2.budget })

def takeBuffer (n : Nat) : DecodeM Span := do
  let d ← StateExcept.state
  StateExcept.require (n ≤ d.data.length - d.offset) .unexpectedEOF
  charge (·.consume n)
  StateExcept.update fun d => { d with offset := d.offset + n }
  return .buffer d.offset n

def takeStream (n : Nat) : DecodeM Span := do
  requireAvailable n
  let got ← readFull n
  if n ≤ 32 then
    StateExcept.update fun d => { d with scratch := got ++ d.scratch.drop n }
    return .scratch n
  else return .made got

def take (n : Nat) : DecodeM Span := do
  let d ← StateExcept.state
  if d.reader.isNone then takeBuffer n else takeStream n

def takeBytes (n : Nat) : DecodeM (List UInt8) := do
  let p ← take n
  StateExcept.view (·.bytesOf p)

def enterObject : DecodeM Unit := charge (·.enterObject)

def leaveObject : DecodeM Unit := charge fun b => .ok b.leaveObject

def readUint32 : DecodeM UInt32 := do
  let p ← takeBytes 4
  return UInt32.ofNat (leNat p)

def readInt32 : DecodeM Int32 := do
  let v ← readUint32
  return v.toInt32

def readUint64 : DecodeM UInt64 := do
  let p ← takeBytes 8
  return UInt64.ofNat (leNat p)

def readInt64 : DecodeM Int64 := do
  let v ← readUint64
  return v.toInt64

/-- `math.Float64frombits` keeps the bits, which stand for the value here. -/
def readDouble : DecodeM UInt64 := readUint64

def readInt128 : DecodeM (List UInt8) := takeBytes 16

def readInt256 : DecodeM (List UInt8) := takeBytes 32

def boolTrue : UInt32 := 0x997275b5
def boolFalse : UInt32 := 0xbc799737

def readBool : DecodeM Bool := do
  let v ← readUint32
  if v = boolTrue then return true
  else if v = boolFalse then return false
  else StateExcept.fail .invalidBool

def byteHeader : DecodeM (Nat × Nat) := do
  let p ← takeBytes 1
  let first := p.headD 0
  if first = 255 then StateExcept.fail .invalidMessageLength
  else if first = 254 then do
    let p ← takeBytes 3
    return (leNat p, 4)
  else return (first.toNat, 1)

def payloadSpan (n padding : Nat) : DecodeM Span := do
  requireAvailable (n + padding)
  let d ← StateExcept.state
  if d.reader.isNone then do
    let p ← take (n + padding)
    return p.shorten n
  else do
    let p ← readFull n
    let _ ← take padding
    return .made p

def byteSpan : DecodeM Span := do
  let header ← byteHeader
  payloadSpan header.1 (tlPadding (header.2 + header.1))

/-- `ReadBytes`; the copy it makes of a part of the buffer has the same bytes. -/
def readBytes : DecodeM (List UInt8) := do
  let p ← byteSpan
  StateExcept.view (·.bytesOf p)

def readString : DecodeM (List UInt8) := readBytes

def readVectorCount (maxElements minElementBytes : Int) : DecodeM Int := do
  StateExcept.require (0 ≤ maxElements ∧ 0 ≤ minElementBytes) .vectorTooLong
  let ctor ← readUint32
  StateExcept.require (ctor = vectorConstructorID) (.invalidVectorConstructor ctor)
  let count ← readInt32
  StateExcept.require (0 ≤ count.toInt ∧ count.toInt ≤ maxElements) .vectorTooLong
  charge (·.consumeVectorElements count.toInt)
  let available ← StateExcept.view available
  StateExcept.require (¬ (minElementBytes > 0 ∧ count.toInt > available / minElementBytes))
    .unexpectedEOF
  return count.toInt

end Decoder

abbrev ReadM := StateExcept BudgetReader DecodeError

namespace BudgetReader

def readFull (n : Nat) : ReadM (List UInt8) := fun r => reader.readFull n r

def readSizedBytes (length : Nat) : ReadM (List UInt8) := do
  let r ← StateExcept.state
  StateExcept.require (length ≤ r.len) .unexpectedEOF
  readFull length

def byteHeader : ReadM (Nat × Nat) := do
  let size ← readFull 1
  let first := size.headD 0
  if first = 255 then StateExcept.fail .invalidMessageLength
  else if first < 254 then return (first.toNat, 1)
  else do
    let size ← readFull 3
    return (leNat size, 4)

def readBytes : ReadM (List UInt8) := do
  let header ← byteHeader
  StateExcept.require (header.1 ≤ 2 ^ 31 - 1) .stringTooLong
  let data ← readSizedBytes header.1
  let padding := tlPadding (header.2 + header.1)
  if padding > 0 then do
    let _ ← readFull padding
    return data
  else return data

end BudgetReader

end Tlrpc
