import Tlrpc.AuthKeyManager
import Tlrpc.BigEndian
import Tlrpc.BlockChaining
import Tlrpc.ReliabilityStore
import Tlrpc.TLReader

namespace Tlrpc

abbrev Int128 := Vector UInt8 16
abbrev Int256 := Vector UInt8 32

def firstBytes (k : Nat) (data : List UInt8) : Vector UInt8 k := Vector.ofFn fun i => data.getD i 0

def readInt128 (data : List UInt8) : Option (Int128 × List UInt8) := do
  let (bytes, rest) ← readFull 16 data
  pure (firstBytes 16 bytes, rest)

def readInt256 (data : List UInt8) : Option (Int256 × List UInt8) := do
  let (bytes, rest) ← readFull 32 data
  pure (firstBytes 32 bytes, rest)

def uint32Bytes (x : UInt32) : List UInt8 := leBytes 4 x.toNat

def writeVectorHeader (count : Nat) : List UInt8 := uint32Bytes vectorConstructorID ++ leBytes 4 count

def reqPQID : UInt32 := 0x60469778
def reqPQMultiID : UInt32 := 0xbe7e8ef1
def resPQID : UInt32 := 0x05162463
def reqDHParamsID : UInt32 := 0xd712e4be
def serverDHParamsOKID : UInt32 := 0xd0e8075c
def setClientDHParamsID : UInt32 := 0xf5045f1f
def dhGenOKID : UInt32 := 0x3bcbf734
def dhGenRetryID : UInt32 := 0x46dc1fb9
def pqInnerDataID : UInt32 := 0x83c95aec
def pqInnerDataDCID : UInt32 := 0xa9f55f95
def pqInnerDataTempDCID : UInt32 := 0x56fddf88
def serverDHInnerDataID : UInt32 := 0xb5890dba
def clientDHInnerDataID : UInt32 := 0x6643b654
def handshakeGenerator : UInt32 := 3
def maxHandshakePayloadBytes : Nat := 4096

def advertisedPQ : List UInt8 := [0x17, 0xED, 0x48, 0x94, 0x1A, 0x08, 0xF9, 0x81]

def dhPrime : Nat :=
  0xc71caeb9c6b1c9048e6c522f70f13f73980d40238e3e21c14934d037563d930f48198a0aa7c14058229493d22530f4dbfa336f6e0ac925139543aed44cce7c3720fd51f69458705ac68cd4fe6b6b13abdc9746512969328454f18faf8c595f642477fe96bb2a941d5bcd1d4ac8cc49880708fa9b378e3c4f3a9060bee67cf9a4a4a695811051907e162753b56b0f6b410dba74d8a84b2a14b3144e0ef1284754fd17ed950d5965b4b9dd46582db1178d169c6bc465b0d6ff9ca3928fef5b9ae4e418fc15e83ebea0f87fa9ff5eed70050ded2849f47bf959d956850ce929851f0d8115f635b105ee2e4e15d04b2454bf6f4fadf034b10403119cd8e3b92fcc5b

def dhGenerator : Nat := 3

abbrev ServerKeyRef := Nat

/-- What the standard library gives. `probablyPrime` is `ProbablyPrime(32)`. -/
structure HandshakeCrypto where
  sha1 : List UInt8 → List UInt8
  sha1_length : ∀ data, (sha1 data).length = 20
  aes : List UInt8 → Equiv.Perm (Vector UInt8 16)
  probablyPrime : Nat → Bool
  decryptRSA : ServerKeyRef → List UInt8 → Option (List UInt8)

inductive HandshakeError
  | canceled
  | invalidConfig
  | capacity
  | expired
  | closed
  | invalidHandshake
  | unsupportedMessage
  | stringTooLong
  | random
  | serverKeys
  | decryptRSA
  | authKeys (err : AuthKeyError)
deriving DecidableEq

inductive HandshakeStage
  | fresh
  | pqIssued
  | dhIssued
  | closed
deriving DecidableEq

structure HandshakeResult where
  authKeyID : KeyID
  initialServerSalt : Int64
deriving DecidableEq

structure HandshakeOutput where
  response : List UInt8
  result : Option HandshakeResult
deriving DecidableEq

structure DHState where
  newNonce : Int256
  privateA : Nat
  tempKey : List UInt8
  tempIV : List UInt8
  retryID : Int64

/-- A zero `temporaryExpiresAt` stands for a permanent key. -/
structure HandshakeSession where
  stage : HandshakeStage
  nonce : Int128
  serverNonce : Int128
  dh : Option DHState
  temporaryExpiresAt : Time

/-- What one call meets: clock, random source, server keys and key manager. -/
structure HandshakeWorld where
  canceled : Bool
  checkedAt : Time
  serverNonce : Option Int128
  serverKeys : Option (List (Option Int64))
  serverKey : List UInt8 → Option (Option ServerKeyRef)
  supportsTemporary : Bool
  issuedAt : Time
  draw : Nat → Option Nat
  serverTime : Time
  padding : Nat → Option (List UInt8)
  storedAt : Time
  storeError : Option AuthKeyError
  refreshedAt : Time

/-- A key that was given to the manager, with its expiry if it is temporary. -/
structure StoredKey where
  id : KeyID
  key : AuthKey
  expires : Option Time
deriving DecidableEq

/-- The errors that `normalizeError` turns into `ErrInvalidHandshake`. -/
def reading {α : Type} : Option α → Except HandshakeError α
  | some a => .ok a
  | none => .error .invalidHandshake

def orError {α : Type} (err : HandshakeError) : Option α → Except HandshakeError α
  | some a => .ok a
  | none => .error err

def require (p : Prop) [Decidable p] (err : HandshakeError) : Except HandshakeError Unit :=
  if p then .ok () else .error err

namespace HandshakeCrypto

variable (c : HandshakeCrypto)

def xorBlock (a b : Vector UInt8 16) : Vector UInt8 16 := Vector.ofFn fun i => a.get i ^^^ b.get i

def igeBlocks (mode : Vector UInt8 16 → Vector UInt8 16 → List (Vector UInt8 16) →
    List (Vector UInt8 16)) (iv data : List UInt8) : List UInt8 :=
  ofBlocks (mode (firstBytes 16 iv) (firstBytes 16 (iv.drop 16)) (toBlocks 16 (data.length / 16) data))

def aesIGE (key iv data : List UInt8) : List UInt8 := igeBlocks (igeEncrypt xorBlock (c.aes key)) iv data

def aesIGEDecrypt (key iv data : List UInt8) : List UInt8 :=
  igeBlocks (igeDecrypt xorBlock (c.aes key)) iv data

theorem xorBlock_cancel (a b : Vector UInt8 16) : xorBlock (xorBlock a b) b = a := by
  refine Vector.ext fun i hi => ?_
  unfold xorBlock
  have hget : ∀ v : Vector UInt8 16, v.get ⟨i, hi⟩ = v[i] := fun _ => rfl
  rw [Vector.getElem_ofFn, hget, hget, Vector.getElem_ofFn, hget, hget, UInt8.xor_assoc, UInt8.xor_self,
    UInt8.xor_zero]

section

variable {data : List UInt8} (cipher : Equiv.Perm (Vector UInt8 16)) (iv : List UInt8)
  (h : data.length % 16 = 0)
include h

theorem length_igeBlocks : (igeBlocks (igeEncrypt xorBlock cipher) iv data).length = data.length := by
  unfold igeBlocks
  rw [length_ofBlocks, length_igeEncrypt, length_toBlocks]
  omega

theorem igeBlocks_decrypt_encrypt :
    igeBlocks (igeDecrypt xorBlock cipher) iv (igeBlocks (igeEncrypt xorBlock cipher) iv data) = data := by
  have hlen := length_igeBlocks cipher iv h
  generalize henc : igeBlocks (igeEncrypt xorBlock cipher) iv data = encrypted at hlen
  unfold igeBlocks at henc ⊢
  rw [hlen, ← henc]
  generalize hblk : igeEncrypt xorBlock cipher (firstBytes 16 iv) (firstBytes 16 (iv.drop 16))
    (toBlocks 16 (data.length / 16) data) = blocks
  have hcnt : blocks.length = data.length / 16 := by
    rw [← hblk, length_igeEncrypt, length_toBlocks]
  have hbc := toBlocks_ofBlocks blocks []
  rw [hcnt, List.append_nil] at hbc
  rw [hbc, ← hblk, igeDecrypt_igeEncrypt _ _ xorBlock_cancel]
  exact ofBlocks_toBlocks (by omega)

end

def deriveTempKeyIV (newNonce : Int256) (serverNonce : Int128) : List UInt8 × List UInt8 :=
  let hash1 := c.sha1 (newNonce.toList ++ serverNonce.toList)
  let hash2 := c.sha1 (serverNonce.toList ++ newNonce.toList)
  let hash3 := c.sha1 (newNonce.toList ++ newNonce.toList)
  (hash1 ++ hash2.take 12, hash2.drop 12 ++ hash3 ++ newNonce.toList.take 4)

def computeNewNonceHashAuth (newNonce : Int256) (authKey : List UInt8) (marker : UInt8) : Int128 :=
  firstBytes 16 ((c.sha1 (newNonce.toList ++ marker :: (c.sha1 authKey).take 8)).drop 4)

def computeNewNonceHash1Auth (newNonce : Int256) (authKey : List UInt8) : Int128 :=
  c.computeNewNonceHashAuth newNonce authKey 1

def computeNewNonceHash2Auth (newNonce : Int256) (authKey : List UInt8) : Int128 :=
  c.computeNewNonceHashAuth newNonce authKey 2

def validatePQFactors (p q pq : List UInt8) : Except HandshakeError Unit :=
  if beNat p < 2 ∨ beNat q < 2 ∨ c.probablyPrime (beNat p) = false ∨
      c.probablyPrime (beNat q) = false then .error .invalidHandshake
  else if beNat p * beNat q ≠ beNat pq then .error .invalidHandshake
  else .ok ()

/-- `int64` of the first eight bytes of a hash, the ID that a retry answers with. -/
def retryIDOf (authKey : List UInt8) : Int64 := (UInt64.ofNat (leNat ((c.sha1 authKey).take 8))).toInt64

end HandshakeCrypto

def validateDHPublicValue (value prime : Nat) : Except HandshakeError Unit :=
  if value ≤ 2 ^ (2048 - 64) ∨ prime - 2 ^ (2048 - 64) ≤ value then .error .invalidHandshake else .ok ()

def equalBigEndian (a b : List UInt8) : Prop := beNat a = beNat b

instance decidableEqualBigEndian (a b : List UInt8) : Decidable (equalBigEndian a b) :=
  inferInstanceAs (Decidable (beNat a = beNat b))

def computeServerSalt (newNonce : Int256) (serverNonce : Int128) : Int64 :=
  (UInt64.ofNat (leNat (newNonce.toList.take 8)) ^^^
    UInt64.ofNat (leNat (serverNonce.toList.take 8))).toInt64

def encodeDHGenResponse (constructor : UInt32) (nonce serverNonce nonceHash : Int128) : List UInt8 :=
  uint32Bytes constructor ++ nonce.toList ++ serverNonce.toList ++ nonceHash.toList

structure PQInnerData where
  expiresIn : Int32
  pq : List UInt8
  p : List UInt8
  q : List UInt8
  nonce : Int128
  serverNonce : Int128
  newNonce : Int256

/-- The fields after the ID; `none` where the loop of `parsePQInnerData` goes on. -/
def readPQInnerData (constructor : UInt32) (data : List UInt8) : Option (PQInnerData × List UInt8) := do
  let (pq, r) ← readBytes data
  let (p, r) ← readBytes r
  let (q, r) ← readBytes r
  let (nonce, r) ← readInt128 r
  let (serverNonce, r) ← readInt128 r
  let (newNonce, r) ← readInt256 r
  if constructor = pqInnerDataDCID then
    let (_, r) ← readInt32 r
    pure (⟨0, pq, p, q, nonce, serverNonce, newNonce⟩, r)
  else if constructor = pqInnerDataTempDCID then
    let (_, r) ← readInt32 r
    let (expiresIn, r) ← readInt32 r
    if expiresIn.toInt ≤ 0 ∨ expiresIn.toInt * second > maxTemporaryAuthKeyLifetime then none
    else pure (⟨expiresIn, pq, p, q, nonce, serverNonce, newNonce⟩, r)
  else pure (⟨0, pq, p, q, nonce, serverNonce, newNonce⟩, r)

/-- At the offset of a hash, the hash must be that of what was read. -/
def hashMatches (c : HandshakeCrypto) (offset : Nat) (data rest : List UInt8) : Bool :=
  offset ≠ 20 || data.take 20 = c.sha1 ((data.drop offset).take ((data.drop offset).length - rest.length))

def parsePQInnerDataAt (c : HandshakeCrypto) (data : List UInt8) (offset : Nat) : Option PQInnerData := do
  let (constructor, r) ← readUint32 (data.drop offset)
  if constructor ≠ pqInnerDataID ∧ constructor ≠ pqInnerDataDCID ∧ constructor ≠ pqInnerDataTempDCID then
    none
  else
    let (inner, r) ← readPQInnerData constructor r
    if hashMatches c offset data r then pure inner else none

def parsePQInnerData (c : HandshakeCrypto) (data : List UInt8) : Option PQInnerData :=
  (parsePQInnerDataAt c data 0).or (parsePQInnerDataAt c data 20)

structure ClientDHInnerData where
  nonce : Int128
  serverNonce : Int128
  retryID : Int64
  gb : List UInt8

def readClientDHInnerData (data : List UInt8) : Option (ClientDHInnerData × List UInt8) := do
  let (nonce, r) ← readInt128 data
  let (serverNonce, r) ← readInt128 r
  let (retryID, r) ← readInt64 r
  let (gb, r) ← readBytes r
  pure (⟨nonce, serverNonce, retryID, gb⟩, r)

def parseClientDHInnerDataAt (c : HandshakeCrypto) (data : List UInt8) (offset : Nat) :
    Option ClientDHInnerData := do
  let (constructor, r) ← readUint32 (data.drop offset)
  if constructor ≠ clientDHInnerDataID then none
  else
    let (inner, r) ← readClientDHInnerData r
    if hashMatches c offset data r then pure inner else none

def parseClientDHInnerData (c : HandshakeCrypto) (data : List UInt8) : Option ClientDHInnerData :=
  (parseClientDHInnerDataAt c data 20).or (parseClientDHInnerDataAt c data 0)

def generatePrivateExponent (draw : Nat → Option Nat) : Nat → Nat → Except HandshakeError Nat
  | 0, _ => .error .random
  | turns + 1, k =>
    match draw k with
    | none => .error .random
    | some a => if 2 ≤ a then .ok a else generatePrivateExponent draw turns (k + 1)

namespace HandshakeSession

def fresh : HandshakeSession where
  stage := .fresh
  nonce := Vector.replicate 16 0
  serverNonce := Vector.replicate 16 0
  dh := none
  temporaryExpiresAt := zeroTime

section

variable (c : HandshakeCrypto) (world : HandshakeWorld) (s : HandshakeSession) (data : List UInt8)

def handleReqPQ : Except HandshakeError (List UInt8 × HandshakeSession) := do
  let (nonce, r) ← reading (readInt128 (data.drop 4))
  require (r = []) .invalidHandshake
  let serverNonce ← orError .random world.serverNonce
  let keys ← orError .serverKeys world.serverKeys
  require (keys ≠ []) .invalidConfig
  let pq ← orError .stringTooLong (writeBytes advertisedPQ)
  let ids ← keys.mapM (orError .invalidConfig)
  let response := uint32Bytes resPQID ++ nonce.toList ++ serverNonce.toList ++ pq ++
    writeVectorHeader keys.length ++ ids.flatMap fun id => leBytes 8 id.toUInt64.toNat
  pure (response, { s with nonce := nonce, serverNonce := serverNonce, stage := .pqIssued })

def acceptInnerData : Except HandshakeError PQInnerData := do
  let (nonce, r) ← reading (readInt128 (data.drop 4))
  let (serverNonce, r) ← reading (readInt128 r)
  let (p, r) ← reading (readBytes r)
  let (q, r) ← reading (readBytes r)
  let (fingerprint, r) ← reading (readInt64 r)
  let (encrypted, r) ← reading (readBytes r)
  require (r = []) .invalidHandshake
  require (nonce = s.nonce ∧ serverNonce = s.serverNonce) .invalidHandshake
  c.validatePQFactors p q advertisedPQ
  let serverKey ← orError .serverKeys (world.serverKey (leBytes 8 fingerprint.toUInt64.toNat))
  let key ← orError .invalidConfig serverKey
  let decrypted ← orError .decryptRSA (c.decryptRSA key encrypted)
  let inner ← reading (parsePQInnerData c decrypted)
  require (inner.nonce = nonce ∧ inner.serverNonce = serverNonce ∧ equalBigEndian inner.p p ∧
    equalBigEndian inner.q q ∧ equalBigEndian inner.pq advertisedPQ) .invalidHandshake
  c.validatePQFactors inner.p inner.q inner.pq
  require (inner.expiresIn ≠ 0 → world.supportsTemporary = true) (.authKeys .temporaryKeyUnsupported)
  pure inner

def innerExpiry (inner : PQInnerData) : Time :=
  if inner.expiresIn ≠ 0 then world.issuedAt + inner.expiresIn.toInt * second else s.temporaryExpiresAt

def serverDHInnerData (nonce serverNonce : Int128) (ga : Nat) : Except HandshakeError (List UInt8) := do
  let prime ← orError .stringTooLong (writeBytes (beBytes dhPrime))
  let publicValue ← orError .stringTooLong (writeBytes (beBytes ga))
  pure (uint32Bytes serverDHInnerDataID ++ nonce.toList ++ serverNonce.toList ++
    uint32Bytes handshakeGenerator ++ prime ++ publicValue ++
    leBytes 4 (world.serverTime / second % 2 ^ 32).toNat)

def encryptServerDH (newNonce : Int256) (serverNonce : Int128) (plain : List UInt8) :
    Except HandshakeError (List UInt8 × List UInt8 × List UInt8) := do
  let padded := c.sha1 plain ++ plain
  let padding ← if padded.length % 16 = 0 then .ok []
    else orError .random (world.padding (16 - padded.length % 16))
  let (tempKey, tempIV) := c.deriveTempKeyIV newNonce serverNonce
  pure (c.aesIGE tempKey tempIV (padded ++ padding), tempKey, tempIV)

/-- A session that fails here is closed; what it had assigned is not read any more. -/
def handleReqDHParams : Except HandshakeError (List UInt8 × HandshakeSession) := do
  let inner ← s.acceptInnerData c world data
  let privateA ← generatePrivateExponent world.draw 32 0
  let ga := dhGenerator ^ privateA % dhPrime
  validateDHPublicValue ga dhPrime
  let plain ← serverDHInnerData world inner.nonce inner.serverNonce ga
  let (encrypted, tempKey, tempIV) ← encryptServerDH c world inner.newNonce inner.serverNonce plain
  let answer ← orError .stringTooLong (writeBytes encrypted)
  pure (uint32Bytes serverDHParamsOKID ++ inner.nonce.toList ++ inner.serverNonce.toList ++ answer,
    { s with
      temporaryExpiresAt := s.innerExpiry world inner
      dh := some ⟨inner.newNonce, privateA, tempKey, tempIV, 0⟩
      stage := .dhIssued })

def acceptClientDH (dh : DHState) : Except HandshakeError ClientDHInnerData := do
  let (nonce, r) ← reading (readInt128 (data.drop 4))
  let (serverNonce, r) ← reading (readInt128 r)
  let (encrypted, r) ← reading (readBytes r)
  require (r = [] ∧ encrypted ≠ [] ∧ encrypted.length % 16 = 0) .invalidHandshake
  require (nonce = s.nonce ∧ serverNonce = s.serverNonce) .invalidHandshake
  let inner ← reading (parseClientDHInnerData c (c.aesIGEDecrypt dh.tempKey dh.tempIV encrypted))
  require (inner.nonce = nonce ∧ inner.serverNonce = serverNonce) .invalidHandshake
  require (inner.retryID = dh.retryID) .invalidHandshake
  validateDHPublicValue (beNat inner.gb) dhPrime
  pure inner

def storeAuthKey (dh : DHState) (authKey : AuthKey) :
    Except HandshakeError (HandshakeOutput × HandshakeSession × Option StoredKey) := do
  let id := authKey.id c.sha1
  let expires := if s.temporaryExpiresAt = zeroTime then none else some s.temporaryExpiresAt
  require (∀ t ∈ expires, world.storedAt < t) (.authKeys .temporaryKeyExpiry)
  match world.storeError with
  | some err => .error (.authKeys err)
  | none =>
    let response := encodeDHGenResponse dhGenOKID s.nonce s.serverNonce
      (c.computeNewNonceHash1Auth dh.newNonce authKey.bytes)
    pure (⟨response, some ⟨id, computeServerSalt dh.newNonce s.serverNonce⟩⟩, s,
      some ⟨id, authKey, expires⟩)

/-- On success the nonces of the request are those of the session. -/
def handleSetClientDHParams (dh : DHState) :
    Except HandshakeError (HandshakeOutput × HandshakeSession × Option StoredKey) := do
  let inner ← s.acceptClientDH c data dh
  let authKeyBytes := beBytes (beNat inner.gb ^ dh.privateA % dhPrime)
  if h : authKeyBytes.length = 256 then s.storeAuthKey c world dh ⟨authKeyBytes, h⟩
  else
    let response := encodeDHGenResponse dhGenRetryID s.nonce s.serverNonce
      (c.computeNewNonceHash2Auth dh.newNonce authKeyBytes)
    pure (⟨response, none⟩,
      { s with dh := some { dh with retryID := c.retryIDOf authKeyBytes }, stage := .dhIssued }, none)

/-- The `switch` of `Handle`: the session before it, and what the handler returned. -/
def dispatch : HandshakeSession × Except HandshakeError (HandshakeOutput × HandshakeSession × Option StoredKey) :=
  let constructor := leUint32 data
  if constructor = reqPQID ∨ constructor = reqPQMultiID then
    let s := { s with dh := none, temporaryExpiresAt := zeroTime }
    (s, (handleReqPQ world s data).map fun (response, s) => (⟨response, none⟩, s, none))
  else if constructor = reqDHParamsID then
    if s.stage ≠ .pqIssued then (s, .error .invalidHandshake)
    else (s, (handleReqDHParams c world s data).map fun (response, s) => (⟨response, none⟩, s, none))
  else if constructor = setClientDHParamsID then
    if s.stage ≠ .dhIssued then (s, .error .invalidHandshake)
    else
      let ended := { s with dh := none, stage := .closed }
      match s.dh with
      | none => (ended, .error .invalidHandshake)
      | some dh => (ended, handleSetClientDHParams c world ended data dh)
  else (s, .error .unsupportedMessage)

end

end HandshakeSession

abbrev HandshakeRef := Nat

structure HandshakeEngine where
  capacity : Nat
  ttl : Int
  sessions : AList fun _ : HandshakeRef => Time

def defaultCapacity : Nat := 4096
def defaultTTL : Int := 120 * second

def newHandshakeEngine (capacity ttl : Int) : Except HandshakeError HandshakeEngine :=
  if capacity < 0 ∨ ttl < 0 then .error .invalidConfig
  else .ok ⟨if capacity = 0 then defaultCapacity else capacity.toNat, if ttl = 0 then defaultTTL else ttl, ∅⟩

namespace HandshakeEngine

def removeExpired (e : HandshakeEngine) (now : Time) : HandshakeEngine :=
  { e with
    sessions := e.sessions.entries.foldl
      (fun m entry => if entry.2 ≤ now then m.erase entry.1 else m) e.sessions }

/-- `ref` is the address of the session that is made. -/
def newSession (e : HandshakeEngine) (now : Time) (ref : HandshakeRef) :
    Except HandshakeError Unit × HandshakeEngine :=
  let e := e.removeExpired now
  if e.sessions.keys.length ≥ e.capacity then (.error .capacity, e)
  else (.ok (), { e with sessions := e.sessions.insert ref (now + e.ttl) })

def check (e : HandshakeEngine) (now : Time) (ref : HandshakeRef) :
    Except HandshakeError Unit × HandshakeEngine :=
  match e.sessions.lookup ref with
  | none => (.error .expired, e)
  | some expiresAt =>
    if now < expiresAt then (.ok (), e)
    else (.error .expired, { e with sessions := e.sessions.erase ref })

def refresh (e : HandshakeEngine) (now : Time) (ref : HandshakeRef) : HandshakeEngine :=
  match e.sessions.lookup ref with
  | some _ => { e with sessions := e.sessions.insert ref (now + e.ttl) }
  | none => e

def remove (e : HandshakeEngine) (ref : HandshakeRef) : HandshakeEngine :=
  { e with sessions := e.sessions.erase ref }

end HandshakeEngine

inductive EngineOp
  | newSession (now : Time) (ref : HandshakeRef)
  | check (now : Time) (ref : HandshakeRef)
  | refresh (now : Time) (ref : HandshakeRef)
  | remove (ref : HandshakeRef)

def HandshakeEngine.perform (e : HandshakeEngine) : EngineOp → HandshakeEngine
  | .newSession now ref => (e.newSession now ref).2
  | .check now ref => (e.check now ref).2
  | .refresh now ref => e.refresh now ref
  | .remove ref => e.remove ref

namespace HandshakeSession

/-- `others` are the sections of other sessions between the check and the last section. -/
def handle (c : HandshakeCrypto) (world : HandshakeWorld) (ref : HandshakeRef) (others : List EngineOp)
    (e : HandshakeEngine) (s : HandshakeSession) (data : List UInt8) :
    HandshakeEngine × HandshakeSession × Except HandshakeError HandshakeOutput × Option StoredKey :=
  if world.canceled then (e, s, .error .canceled, none)
  else if data.length < 4 ∨ data.length > maxHandshakePayloadBytes then
    (e, s, .error .invalidHandshake, none)
  else if s.stage = .closed then (e, s, .error .closed, none)
  else match e.check world.checkedAt ref with
    | (.error err, e) => (e, { s with stage := .closed, dh := none }, .error err, none)
    | (.ok _, e) =>
      let e := others.foldl HandshakeEngine.perform e
      match s.dispatch c world data with
      | (s, .error err) =>
        if s.stage ≠ .fresh then
          (e.remove ref, { s with stage := .closed, dh := none }, .error err, none)
        else (e, s, .error err, none)
      | (_, .ok (output, s, stored)) =>
        if output.result.isSome ∨ s.stage = .closed then (e.remove ref, s, .ok output, stored)
        else (e.refresh world.refreshedAt ref, s, .ok output, stored)

def close (ref : HandshakeRef) (e : HandshakeEngine) (s : HandshakeSession) :
    HandshakeEngine × HandshakeSession :=
  (e.remove ref, if s.stage ≠ .closed then { s with stage := .closed, dh := none } else s)

end HandshakeSession

end Tlrpc
