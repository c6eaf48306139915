import Tlrpc.LittleEndian

namespace Tlrpc

inductive TransportError
  | eof
  | invalidLength
  | invalidObfuscatedHeader
  | unknownTag (tag : UInt32)
  | clientProtocol
  | random
  | keySize (n : Nat)
deriving DecidableEq

/-- SHA-256, the AES-CTR keystream of a key and an initial vector, and CRC-32. -/
structure Primitives where
  sha256 : List UInt8 → Vector UInt8 32
  keystream : List UInt8 → List UInt8 → Nat → UInt8
  crc32 : List UInt8 → UInt32

/-- `Full` counts the packets it has written. -/
inductive Codec
  | abridged
  | intermediate
  | paddedIntermediate
  | full (next : UInt32)
deriving DecidableEq

namespace Codec

def protocolTag : Codec → UInt32
  | abridged => 0xEFEFEFEF
  | intermediate => 0xEEEEEEEE
  | paddedIntermediate => 0xDDDDDDDD
  | full _ => 0

def writeAbridged (payload : List UInt8) : Except TransportError (List UInt8) :=
  if payload.length % 4 ≠ 0 then .error .invalidLength
  else if payload.length / 4 < 0x7f then .ok (UInt8.ofNat (payload.length / 4) :: payload)
  else .ok (0x7f :: leBytes 3 (payload.length / 4) ++ payload)

def writeIntermediate (payload : List UInt8) : List UInt8 :=
  leBytes 4 payload.length ++ payload

def writeFullPacket (p : Primitives) (seqno : UInt32) (payload : List UInt8) : List UInt8 :=
  let header := leBytes 4 (payload.length + 12) ++ leBytes 4 seqno.toNat
  header ++ payload ++ leBytes 4 (p.crc32 (header ++ payload)).toNat

def writePacket (p : Primitives) (payload : List UInt8) :
    Codec → Except TransportError (List UInt8 × Codec)
  | abridged => (writeAbridged payload).map (·, abridged)
  | intermediate => .ok (writeIntermediate payload, intermediate)
  | paddedIntermediate => .ok (writeIntermediate payload, paddedIntermediate)
  | full next => .ok (writeFullPacket p next payload, full (next + 1))

end Codec

end Tlrpc
