import Tlrpc.ByteIO
import Tlrpc.Codec
import Tlrpc.StateExcept

namespace Tlrpc

/-- `ErrQuickAck` comes with its token, `TransportError` with its code. -/
inductive PacketError
  | eof
  | unexpectedEOF
  | invalidLength
  | payloadTooLarge
  | quickAck (token : UInt32)
  | transport (code : Int)
deriving DecidableEq

instance : InputErrors PacketError := ⟨.eof, .unexpectedEOF⟩

def maxPacketPayloadBytes : Nat := 2 ^ 24

def payloadLimit (maxPayloadBytes : Int) : Nat :=
  if 0 < maxPayloadBytes ∧ maxPayloadBytes < maxPacketPayloadBytes then maxPayloadBytes.toNat
  else maxPacketPayloadBytes

def checkedPayloadLength (declared : Nat) (maxPayloadBytes : Int) : Except PacketError Nat :=
  if declared = 0 then .error .invalidLength
  else if declared > payloadLimit maxPayloadBytes then .error .payloadTooLarge
  else .ok declared

def readTransportError (payload : List UInt8) : Except PacketError Unit :=
  if payload.length ≠ 4 then .ok ()
  else
    let code := (leUint32 payload).toInt32.toInt
    if code ≥ 0 then .ok () else .error (.transport code)

structure PacketInput where
  source : ByteSource
  allocated : List Nat := []

abbrev PacketM := StateExcept PacketInput PacketError

namespace PacketInput

def readFull (n : Nat) : PacketM (List UInt8) := fun s =>
  let result := ByteSource.reader.readFull n s.source
  (result.1, { s with source := result.2 })

def readPayload (size : Nat) : PacketM (List UInt8) := do
  StateExcept.update fun s => { s with allocated := s.allocated ++ [size] }
  readFull size

end PacketInput

namespace Codec

open PacketInput

def abridgedQuickAck (first : List UInt8) : PacketM (List UInt8) := do
  let rest ← readFull 3
  StateExcept.fail (.quickAck (leUint32 (first ++ rest)))

def abridgedLength (lengthByte : UInt8) : PacketM Nat :=
  if lengthByte = 0x7f then do
    let ext ← readFull 3
    return leNat ext
  else return (lengthByte &&& 0x7f).toNat

def abridgedPayload (lengthByte : UInt8) (maxPayloadBytes : Int) : PacketM (List UInt8) := do
  let length ← abridgedLength lengthByte
  StateExcept.require (length ≠ 0) .invalidLength
  let payloadLen ← StateExcept.lift (checkedPayloadLength (length * 4) maxPayloadBytes)
  let payload ← readPayload payloadLen
  StateExcept.lift (readTransportError payload)
  return payload

def readAbridged (allowQuickAckTokens : Bool) (maxPayloadBytes : Int) : PacketM (List UInt8) := do
  let first ← readFull 1
  let lengthByte := first.headD 0
  if allowQuickAckTokens ∧ lengthByte = 0x80 then abridgedQuickAck first
  else abridgedPayload lengthByte maxPayloadBytes

def lengthOrQuickAck (allowQuickAckTokens : Bool) (length : UInt32) : PacketM Nat :=
  if length &&& 0x80000000 ≠ 0 ∧ allowQuickAckTokens then
    StateExcept.fail (.quickAck (length &&& 0x7fffffff))
  else return length.toNat

def readIntermediate (allowQuickAckTokens : Bool) (maxPayloadBytes : Int) :
    PacketM (List UInt8) := do
  let header ← readFull 4
  let length ← lengthOrQuickAck allowQuickAckTokens (leUint32 header)
  let payloadLen ← StateExcept.lift (checkedPayloadLength length maxPayloadBytes)
  let payload ← readPayload payloadLen
  StateExcept.lift (readTransportError payload)
  return payload

/-- The whole declared length is read; the check leaves the padding out. -/
def readPaddedIntermediate (allowQuickAckTokens : Bool) (maxPayloadBytes : Int) :
    PacketM (List UInt8) := do
  let header ← readFull 4
  let length ← lengthOrQuickAck allowQuickAckTokens (leUint32 header)
  StateExcept.require (length ≠ 0) .invalidLength
  StateExcept.require (length ≤ maxPacketPayloadBytes + 3) .payloadTooLarge
  let effectiveLength := length - length % 4
  let _ ← StateExcept.lift (checkedPayloadLength effectiveLength maxPayloadBytes)
  let padded ← readPayload length
  let payload := padded.take (padded.length - padded.length % 4)
  StateExcept.lift (readTransportError payload)
  return payload

def fullMinLen : Nat := 12

def readFullPacket (p : Primitives) (maxPayloadBytes : Int) : PacketM (List UInt8) := do
  let header ← readFull 8
  let length := (leUint32 header).toNat
  StateExcept.require (fullMinLen ≤ length) .invalidLength
  let payloadLen ← StateExcept.lift (checkedPayloadLength (length - fullMinLen) maxPayloadBytes)
  let payload ← readPayload payloadLen
  let crcBuf ← readFull 4
  StateExcept.require (p.crc32 (header ++ payload) = leUint32 crcBuf) .invalidLength
  StateExcept.lift (readTransportError payload)
  return payload

def readPacket (p : Primitives) (allowQuickAckTokens : Bool) (maxPayloadBytes : Int) :
    Codec → PacketM (List UInt8)
  | abridged => readAbridged allowQuickAckTokens maxPayloadBytes
  | intermediate => readIntermediate allowQuickAckTokens maxPayloadBytes
  | paddedIntermediate => readPaddedIntermediate allowQuickAckTokens maxPayloadBytes
  | full _ => readFullPacket p maxPayloadBytes

def writePackets (p : Primitives) :
    List (List UInt8) → Codec → Except TransportError (List UInt8 × Codec)
  | [], codec => .ok ([], codec)
  | payload :: payloads, codec => do
    let packet ← codec.writePacket p payload
    let later ← writePackets p payloads packet.2
    return (packet.1 ++ later.1, later.2)

def readPackets (p : Primitives) (allowQuickAckTokens : Bool) (maxPayloadBytes : Int)
    (codec : Codec) : Nat → PacketM (List (List UInt8))
  | 0 => return []
  | n + 1 => do
    let payload ← codec.readPacket p allowQuickAckTokens maxPayloadBytes
    let payloads ← readPackets p allowQuickAckTokens maxPayloadBytes codec n
    return payload :: payloads

end Codec

end Tlrpc
