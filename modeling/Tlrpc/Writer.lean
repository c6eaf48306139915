import Tlrpc.Inbound

namespace Tlrpc

inductive MessageIntent
  | rpcResult (requestMessageID : Int) (body : List UInt8)
  | rpcError (requestMessageID : Int) (code : Int32) (message : List UInt8)
  | protocolReply (body : List UInt8) (contentRelated unsolicited : Bool)
  | acknowledge (messageIDs : List Int)
  | push (body : List UInt8)
deriving DecidableEq

/-- `ValidateIntent` keeps anything but messages out of a batch. -/
inductive Intent
  | message (m : MessageIntent)
  | batch (items : List MessageIntent)
  | resend (messageIDs : List Int)
  | close
deriving DecidableEq

def rpcResultID : UInt32 := 0xf35c6d01
def rpcErrorID : UInt32 := 0x2144ca19
def vectorConstructorID : UInt32 := 0x1cb5c415

def defaultMaxVectorElements : Nat := 2 ^ 16
def maxTLBytesLength : Nat := 2 ^ 24 - 1

def int32Bytes (x : Int32) : List UInt8 := leBytes 4 (x.toInt % 2 ^ 32).toNat
def int64Bytes (x : Int) : List UInt8 := leBytes 8 (x % 2 ^ 64).toNat

/-- `mtproto.WriteBytes`; `none` is `ErrStringTooLong`. -/
def writeBytes (v : List UInt8) : Option (List UInt8) :=
  if v.length < 254 then
    some (UInt8.ofNat v.length :: v ++ List.replicate ((4 - (1 + v.length) % 4) % 4) 0)
  else if v.length > maxTLBytesLength then none
  else some (0xfe :: leBytes 3 v.length ++ v ++ List.replicate ((4 - (4 + v.length) % 4) % 4) 0)

def bounded (maxBytes : Nat) (body : List UInt8) : Option (List UInt8) :=
  if body.length > maxBytes then none else some body

def serializeRPCResult (requestMessageID : Int) (result : List UInt8) : List UInt8 :=
  leBytes 4 rpcResultID.toNat ++ int64Bytes requestMessageID ++ result

def serializeMsgsAck (messageIDs : List Int) : List UInt8 :=
  leBytes 4 msgsAckID.toNat ++ leBytes 4 vectorConstructorID.toNat ++ leBytes 4 messageIDs.length ++
    messageIDs.flatMap int64Bytes

structure EncodedBody where
  body : List UInt8
  contentRelated : Bool
  push : Bool

/-- `encodeIntentBodyBounded`; `none` stands for its errors. -/
def encodeIntentBodyBounded (maxBytes : Nat) : MessageIntent → Option EncodedBody
  | .rpcResult requestMessageID body => do
    let body ← bounded maxBytes body
    let encoded ← bounded maxBytes (serializeRPCResult requestMessageID body)
    pure ⟨encoded, true, false⟩
  | .rpcError requestMessageID code message => do
    let text ← writeBytes message
    let errorBody ← bounded maxBytes (leBytes 4 rpcErrorID.toNat ++ int32Bytes code ++ text)
    let encoded ← bounded maxBytes (serializeRPCResult requestMessageID errorBody)
    pure ⟨encoded, true, false⟩
  | .protocolReply body contentRelated unsolicited => do
    let body ← bounded maxBytes body
    pure ⟨body, contentRelated, unsolicited⟩
  | .acknowledge messageIDs => do
    let encoded ← bounded maxBytes (serializeMsgsAck messageIDs)
    pure ⟨encoded, false, false⟩
  | .push body => do
    let body ← bounded maxBytes body
    pure ⟨body, true, true⟩

def responseRequestID : MessageIntent → Int
  | .rpcResult requestMessageID _ => requestMessageID
  | .rpcError requestMessageID _ _ => requestMessageID
  | _ => 0

/-- The low two bits are replaced by 3 for a push and 1 for anything else. -/
def nextMessageID (source : Int) (push : Bool) : Int :=
  source - source % 4 + if push then 3 else 1

def nextSequenceNo (snapshot : Snapshot) (contentRelated : Bool) : Int32 × Snapshot :=
  if contentRelated then
    (snapshot.serverSeqNo * 2 + 1, { snapshot with serverSeqNo := snapshot.serverSeqNo + 1 })
  else (snapshot.serverSeqNo * 2, snapshot)

structure AssignedMessage where
  messageID : Int
  requestMessageID : Int
  sequenceNo : Int32
  contentRelated : Bool
  body : List UInt8
deriving DecidableEq

/-- What `prepare` draws on besides the lease; `ids` are the ID source's readings. -/
structure WriterEnv where
  maxEncodedBytes : Nat
  ids : Nat → Int
  encrypt : InnerData → KeyID → Option (List UInt8)
  now : Time

def assignMessage (maxBytes : Nat) (source : Int) (snapshot : Snapshot) (intent : MessageIntent) :
    Option (AssignedMessage × Snapshot) := do
  let encoded ← encodeIntentBodyBounded maxBytes intent
  pure (⟨nextMessageID source encoded.push, responseRequestID intent,
    (nextSequenceNo snapshot encoded.contentRelated).1, encoded.contentRelated, encoded.body⟩,
    (nextSequenceNo snapshot encoded.contentRelated).2)

def assignMessages (maxBytes : Nat) :
    (Nat → Int) → Snapshot → List MessageIntent → Option (List AssignedMessage × Snapshot)
  | _, snapshot, [] => some ([], snapshot)
  | ids, snapshot, intent :: rest => do
    let (first, snapshot) ← assignMessage maxBytes (ids 0) snapshot intent
    let (others, snapshot) ← assignMessages maxBytes (fun k => ids (k + 1)) snapshot rest
    pure (first :: others, snapshot)

def AssignedMessage.item (m : AssignedMessage) : ContainerItem := ⟨m.messageID, m.sequenceNo, m.body⟩

/-- The messages of one frame, a container's own last, with the bytes that go out. -/
structure PreparedFrame where
  messages : List AssignedMessage
  frame : List UInt8
deriving DecidableEq

/-- The messages a frame consists of, and the snapshot after all numbers are taken. -/
def assignFrame (env : WriterEnv) (snapshot : Snapshot) :
    Intent → Option (List AssignedMessage × AssignedMessage × Snapshot)
  | .message m => do
    let (assigned, next) ← assignMessage env.maxEncodedBytes (env.ids 0) snapshot m
    pure ([], assigned, next)
  | .batch items =>
    if items.length > defaultMaxVectorElements then none
    else do
      let (children, next) ← assignMessages env.maxEncodedBytes env.ids snapshot items
      let body ← bounded env.maxEncodedBytes (serializeContainer (children.map AssignedMessage.item))
      pure (children, ⟨nextMessageID (env.ids items.length) false, 0, (nextSequenceNo next false).1,
        false, body⟩, (nextSequenceNo next false).2)
  | _ => none

/-- `Writer.prepare` after its `Lease.Snapshot`; `none` stands for its errors. -/
def prepare (env : WriterEnv) (snapshot : Snapshot) (intent : Intent) :
    Option (PreparedFrame × Snapshot) := do
  let (children, outer, next) ← assignFrame env snapshot intent
  let inner : InnerData := ⟨next.serverSalt, next.sessionID, outer.messageID, outer.sequenceNo, outer.body⟩
  let frame ← env.encrypt inner next.authKeyID
  pure (⟨children ++ [outer], frame⟩, { next with lastActivity := env.now })

end Tlrpc
