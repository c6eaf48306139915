import Tlrpc.Fallible
import Tlrpc.HandshakeSession

namespace Tlrpc

/-- The primitives that message encryption takes from the standard library. -/
structure MessageCrypto where
  sha1 : List UInt8 → List UInt8
  sha256 : List UInt8 → Vector UInt8 32
  aes : List UInt8 → Equiv.Perm (Vector UInt8 16)

namespace Mtproto

/-- A failed read stands for `io.EOF` and `io.ErrUnexpectedEOF`. -/
inductive MessageError
  | invalidMessageLength
  | msgKeyMismatch
  | read
  | random
  | panic
  | frameTooShort
  | authKeySourceRequired
  | loadAuthKey (keyID : KeyID)
  | authKeyMismatch
deriving DecidableEq

def reading {α : Type} : Option α → Except MessageError α
  | some a => .ok a
  | none => .error .read

def require (p : Prop) [Decidable p] (err : MessageError) : Except MessageError Unit :=
  if p then .ok () else .error err

structure UnencryptedMessage where
  authKeyID : Vector UInt8 8
  msgID : Int64
  data : List UInt8
deriving DecidableEq

structure EncryptedMessage where
  authKeyID : KeyID
  msgKey : Int128
  encryptedData : List UInt8
deriving DecidableEq

structure InnerData where
  salt : Int64
  sessionID : Int64
  msgID : Int64
  seqNo : Int32
  data : List UInt8
deriving DecidableEq

def part (data : List UInt8) (start n : Nat) : List UInt8 := (data.drop start).take n

def directionOffset (fromClient : Bool) : Nat := if fromClient then 0 else 8

def computeMsgKey (c : MessageCrypto) (authKey data : List UInt8) (fromClient : Bool) : Int128 :=
  let h := (c.sha256 (part authKey (88 + directionOffset fromClient) 32 ++ data)).toList
  firstBytes 16 (part h 8 16)

def computeKDF (c : MessageCrypto) (authKey : List UInt8) (msgKey : Int128) (fromClient : Bool) :
    List UInt8 × List UInt8 :=
  let x := directionOffset fromClient
  let h1 := (c.sha256 (msgKey.toList ++ part authKey x 36)).toList
  let h2 := (c.sha256 (part authKey (40 + x) 36 ++ msgKey.toList)).toList
  (part h1 0 8 ++ part h2 8 16 ++ part h1 24 8, part h2 0 8 ++ part h1 8 16 ++ part h2 24 8)

/-- `CryptBlocks`, which panics on a key, an initial vector or data of a wrong length. -/
def cryptBlocks (mode : Vector UInt8 16 → Vector UInt8 16 → List (Vector UInt8 16) →
    List (Vector UInt8 16)) (key iv src : List UInt8) : Except MessageError (List UInt8) := do
  require (key.length = 32) .panic
  require (iv.length = 32) .panic
  require (src.length % 16 = 0) .panic
  return HandshakeCrypto.igeBlocks mode iv src

def totalPadding (currentLen : Nat) : Nat :=
  let alignmentPadding := (16 - currentLen % 16) % 16
  let minPadding := 12
  let maxPadding := 1024
  let padding :=
    if alignmentPadding < minPadding then
      alignmentPadding + (minPadding - alignmentPadding + 15) / 16 * 16
    else alignmentPadding
  if padding > maxPadding then maxPadding / 16 * 16 else padding

namespace InnerData

def unpadded (m : InnerData) : List UInt8 :=
  leBytes 8 m.salt.toUInt64.toNat ++ (leBytes 8 m.sessionID.toUInt64.toNat ++
    (leBytes 8 m.msgID.toUInt64.toNat ++ (leBytes 4 m.seqNo.toUInt32.toNat ++
      (leBytes 4 m.data.length ++ m.data))))

/-- `random n` is what `rand.Read` puts into a buffer of `n` bytes. -/
def serialize (random : (n : Nat) → Option (Vector UInt8 n)) (m : InnerData) :
    Except MessageError (List UInt8) :=
  let n := totalPadding m.unpadded.length
  if n > 0 then
    match random n with
    | none => .error .random
    | some pad => .ok (m.unpadded ++ pad.toList)
  else .ok m.unpadded

def encryptWithDirection (c : MessageCrypto) (random : (n : Nat) → Option (Vector UInt8 n))
    (key : AuthKey) (authKeyID : KeyID) (fromClient : Bool) (m : InnerData) :
    Except MessageError EncryptedMessage := do
  let plaintext ← m.serialize random
  let msgKey := computeMsgKey c key.bytes plaintext fromClient
  let kdf := computeKDF c key.bytes msgKey fromClient
  let ciphertext ← cryptBlocks (igeEncrypt HandshakeCrypto.xorBlock (c.aes kdf.1)) kdf.1 kdf.2 plaintext
  return ⟨authKeyID, msgKey, ciphertext⟩

def parse (plaintext : List UInt8) : Except MessageError InnerData := do
  let salt ← reading (readInt64 plaintext)
  let sessionID ← reading (readInt64 salt.2)
  let msgID ← reading (readInt64 sessionID.2)
  let seqNo ← reading (readInt32 msgID.2)
  let dataLen ← reading (readInt32 seqNo.2)
  require (0 ≤ dataLen.1.toInt) .invalidMessageLength
  let data ← reading (readFull dataLen.1.toInt.toNat dataLen.2)
  return ⟨salt.1, sessionID.1, msgID.1, seqNo.1, data.1⟩

end InnerData

def EncryptedMessage.decryptWithDirection (c : MessageCrypto) (key : AuthKey) (fromClient : Bool)
    (m : EncryptedMessage) : Except MessageError InnerData := do
  require (m.encryptedData.length ≠ 0 ∧ m.encryptedData.length % 16 = 0) .invalidMessageLength
  let kdf := computeKDF c key.bytes m.msgKey fromClient
  let plaintext ←
    cryptBlocks (igeDecrypt HandshakeCrypto.xorBlock (c.aes kdf.1)) kdf.1 kdf.2 m.encryptedData
  require (computeMsgKey c key.bytes plaintext fromClient = m.msgKey) .msgKeyMismatch
  InnerData.parse plaintext

def UnencryptedMessage.deserialize (data : List UInt8) : Except MessageError UnencryptedMessage := do
  let authKeyID ← reading (readFull 8 data)
  let msgID ← reading (readInt64 authKeyID.2)
  let length ← reading (readInt32 msgID.2)
  require (0 ≤ length.1.toInt) .invalidMessageLength
  let msgData ← reading (readFull length.1.toInt.toNat length.2)
  return ⟨firstBytes 8 authKeyID.1, msgID.1, msgData.1⟩

inductive DecodedFrame
  | unencrypted (message : UnencryptedMessage)
  | encrypted (message : InnerData) (authKeyID : KeyID) (authKey : AuthKey)
deriving DecidableEq

def decodeFrame (c : MessageCrypto) (frame : List UInt8)
    (authKeys : Option (KeyID → Option AuthKey)) : Except MessageError DecodedFrame := do
  require (8 ≤ frame.length) .frameTooShort
  let keyID : KeyID := UInt64.ofNat (leNat (frame.take 8))
  if keyID = 0 then
    let message ← UnencryptedMessage.deserialize frame
    return .unencrypted message
  else
    require (24 ≤ frame.length) .frameTooShort
    let source ← authKeys.elim (.error .authKeySourceRequired) .ok
    let authKey ← (source keyID).elim (.error (.loadAuthKey keyID)) .ok
    require (authKey.id c.sha1 = keyID) .authKeyMismatch
    let message : EncryptedMessage := ⟨keyID, firstBytes 16 (part frame 8 16), frame.drop 24⟩
    let inner ← message.decryptWithDirection c authKey true
    return .encrypted inner keyID authKey

def serializeEncryptedFrame (message : EncryptedMessage) : List UInt8 :=
  leBytes 8 message.authKeyID.toNat ++ (message.msgKey.toList ++ message.encryptedData)

end Mtproto

end Tlrpc
