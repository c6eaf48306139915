import Tlrpc.ByteIO
import Tlrpc.StateExcept
import Tlrpc.TLReader

namespace Tlrpc

inductive EncodeError
  | negativeLimit
  | encodedBytesLimit
  | stringTooLong
  | shortWrite
  | io
deriving DecidableEq

/-- `Encoder`: a bounded buffer, or a writer in state `writer`. -/
structure Encoder (ω : Type) where
  writer : Option ω
  data : List UInt8
  limit : Int

def newEncoder {ω : Type} (writer : ω) : Encoder ω := ⟨some writer, [], 0⟩

def newBufferEncoder {ω : Type} (maxBytes : Int) : Except EncodeError (Encoder ω) :=
  if maxBytes < 0 then .error .negativeLimit
  else if maxBytes = 0 then .ok ⟨none, [], 2 ^ 24⟩
  else .ok ⟨none, [], maxBytes⟩

abbrev EncodeM (ω : Type) := StateExcept (Encoder ω) EncodeError

def tlHeader (n : Nat) : List UInt8 :=
  if n < 254 then [UInt8.ofNat n] else 0xfe :: leBytes 3 n

section

variable {ω : Type} (w : ByteWriter ω EncodeError)

def writeTo (p : List UInt8) : StateExcept ω EncodeError Unit := fun s =>
  match (w.write p s).1.2 with
  | none => (.ok (), (w.write p s).2)
  | some err => (.error err, (w.write p s).2)

def writeBytesTo (v : List UInt8) : StateExcept ω EncodeError Unit :=
  if v.length < 254 then do
    writeTo w [UInt8.ofNat v.length]
    writeTo w v
    let padding := tlPadding (1 + v.length)
    if padding > 0 then writeTo w (List.replicate padding 0) else return ()
  else if v.length > maxTLBytesLength then StateExcept.fail .stringTooLong
  else do
    writeTo w (0xfe :: leBytes 3 v.length)
    writeTo w v
    let padding := tlPadding (4 + v.length)
    if padding > 0 then writeTo w (List.replicate padding 0) else return ()

namespace Encoder

/-- `reserve`; the capacity it grows is not modelled. -/
def reserve (n : Nat) : EncodeM ω Unit := do
  let e ← StateExcept.state
  StateExcept.require (n ≤ e.limit - e.data.length) .encodedBytesLimit

/-- `Write` and `io.WriteString`: all the bytes are taken, or they fail. -/
def writeAll (s : ω) (p : List UInt8) : EncodeM ω Unit := do
  let result := w.write p s
  StateExcept.update fun e => { e with writer := some result.2 }
  match result.1.2 with
  | some err => StateExcept.fail err
  | none => StateExcept.require (result.1.1 = p.length) .shortWrite

def append (p : List UInt8) : EncodeM ω Unit :=
  StateExcept.update fun e => { e with data := e.data ++ p }

def write (p : List UInt8) : EncodeM ω Unit := do
  let e ← StateExcept.state
  match e.writer with
  | some s => writeAll w s p
  | none => do
    reserve p.length
    append p

def bytesHeader (n : Nat) : EncodeM ω Nat := do
  StateExcept.require (n ≤ maxTLBytesLength) .stringTooLong
  let padding := tlPadding ((tlHeader n).length + n)
  let e ← StateExcept.state
  if e.writer.isNone then reserve ((tlHeader n).length + n + padding) else pure ()
  write w (tlHeader n)
  return padding

def padding (n : Nat) : EncodeM ω Unit := write w (List.replicate n 0)

def writeBytes (v : List UInt8) : EncodeM ω Unit := do
  let n ← bytesHeader w v.length
  write w v
  padding w n

def writeText (v : List UInt8) : EncodeM ω Unit := do
  let e ← StateExcept.state
  match e.writer with
  | none => append v
  | some s => writeAll w s v

def writeString (v : List UInt8) : EncodeM ω Unit := do
  let n ← bytesHeader w v.length
  writeText w v
  padding w n

end Encoder

end

end Tlrpc
