import Tlrpc.Session
import Tlrpc.LittleEndian

namespace Tlrpc

structure InnerData where
  salt : Int
  sessionID : Int
  msgID : Int
  seqNo : Int32
  data : List UInt8

structure ContainerItem where
  msgID : Int
  seqNo : Int32
  bodyRaw : List UInt8

def ContainerItem.serializeTL (item : ContainerItem) : List UInt8 :=
  leBytes 8 (item.msgID % 2 ^ 64).toNat ++ leBytes 4 (item.seqNo.toInt % 2 ^ 32).toNat ++
    leBytes 4 item.bodyRaw.length ++ item.bodyRaw

structure InboundMessage where
  messageID : Int
  sequenceNo : Int32
  constructorID : UInt32
  body : List UInt8
  contentRelated : Bool
  retransmission : Bool
deriving DecidableEq

inductive InboundError
  | bodyTooShort
  | trailingContainerData
  | decode (reason : String)
  | validation (e : ValidateError)
deriving DecidableEq

def msgContainerID : UInt32 := 0x73f1f8dc
def msgsAckID : UInt32 := 0x62d6b459
def newSessionCreatedID : UInt32 := 0x9ec20908
def getFutureSaltsID : UInt32 := 0xb921bd04
def pingID : UInt32 := 0x7abe77ec
def pingDelayDisconnectID : UInt32 := 0xf3427b8c
def msgResendReqID : UInt32 := 0x7d861a08
def msgsStateReqID : UInt32 := 0xda69fb52
def msgsStateInfoID : UInt32 := 0x04deb57d

def serializeContainer (items : List ContainerItem) : List UInt8 :=
  leBytes 4 msgContainerID.toNat ++ leBytes 4 items.length ++
    items.flatMap ContainerItem.serializeTL

def classifyMessageKind (constructorID : UInt32) (sequenceNo : Int32) : MessageKind :=
  if constructorID = msgContainerID then .container
  else if constructorID = pingID ∨ constructorID = pingDelayDisconnectID then
    if sequenceNo &&& 1 ≠ 0 then .contentRelated else .nonContentRelated
  else if constructorID ∈ [msgsAckID, newSessionCreatedID, getFutureSaltsID, msgsStateReqID,
      msgResendReqID, msgsStateInfoID] then .nonContentRelated
  else .contentRelated

def requiresAcknowledgement (constructorID : UInt32) (kind : MessageKind) : Bool :=
  if constructorID = pingID ∨ constructorID = pingDelayDisconnectID then false
  else kind = .contentRelated

def ContainerItem.classify (item : ContainerItem) : ContainerMessage :=
  ⟨item.msgID, item.seqNo, classifyMessageKind (leUint32 item.bodyRaw) item.seqNo⟩

def ContainerItem.inbound (item : ContainerItem) : InboundMessage where
  messageID := item.msgID
  sequenceNo := item.seqNo
  constructorID := leUint32 item.bodyRaw
  body := item.bodyRaw
  contentRelated := requiresAcknowledgement (leUint32 item.bodyRaw)
    (classifyMessageKind (leUint32 item.bodyRaw) item.seqNo)
  retransmission := false

/-- `decode` is `MsgContainer.DeserializeTL` under the frame's budget with nothing trailing. -/
def classifyProtocolMessage (decode : List UInt8 → Except InboundError (List ContainerItem))
    (inner : InnerData) : Except InboundError (Message × List InboundMessage) :=
  let constructorID := leUint32 inner.data
  let kind := classifyMessageKind constructorID inner.seqNo
  if constructorID ≠ msgContainerID then
    .ok (⟨inner.salt, inner.sessionID, inner.msgID, inner.seqNo, kind, []⟩,
      [⟨inner.msgID, inner.seqNo, constructorID, inner.data,
        requiresAcknowledgement constructorID kind, false⟩])
  else match decode inner.data with
    | .error e => .error e
    | .ok items =>
      if items.any (fun item => item.bodyRaw.length < 4) then .error .bodyTooShort
      else .ok (⟨inner.salt, inner.sessionID, inner.msgID, inner.seqNo, kind,
        items.map ContainerItem.classify⟩, items.map ContainerItem.inbound)

def Snapshot.protocolConfig (snapshot : Snapshot) : Config where
  sessionID := snapshot.sessionID
  serverSalt := snapshot.serverSalt
  sequenceNo := snapshot.seqNo
  highestMessageID := snapshot.lastClientMsgID
  messageIDFloor := snapshot.clientMsgIDFloor
  recentMessageIDs := snapshot.recentClientMsgIDs
  recentMessageIDLimit := 0
  recentSequenceNos := snapshot.recentClientSeqNos
  contentSequenceLimit := 0

def newProtocolValidator (snapshot : Snapshot) : Except ValidateError Validator :=
  newValidator snapshot.protocolConfig

def replayedChild (recent : Finset Int) (message : Message) : ValidateError → Option (Nat × Int)
  | .badMessage bad =>
    if message.kind = .container ∧ bad.cause = .replayMessageID ∧
        bad.messageID ≠ message.messageID ∧ bad.messageID ∈ recent then
      (message.children.findIdx? (fun child => child.messageID = bad.messageID)).map
        (fun index => (index, bad.messageID))
    else none
  | _ => none

/-- The loop of `SessionValidator.Validate`; `clock pass k` is the `k`-th reading of a pass. -/
def validateRetrying (recent : Finset Int) :
    Nat → (Nat → Nat → Time) → Validator → Message → Finset Int →
      Option (Except ValidateError (Validator × Finset Int))
  | 0, _, _, _, _ => none
  | fuel + 1, clock, v, message, replayed =>
    match v.validate (clock 0) message with
    | .ok v' => some (.ok (v', replayed))
    | .error e =>
      match replayedChild recent message e with
      | none => some (.error e)
      | some (index, id) =>
        validateRetrying recent fuel (fun pass => clock (pass + 1)) v
          { message with children := message.children.eraseIdx index } (insert id replayed)

structure ValidatedInbound where
  outerMessageID : Int
  envelope : InboundMessage
  messages : List InboundMessage
  snapshot : Snapshot
deriving DecidableEq

def Snapshot.withProtocol (s : Snapshot) (state : ProtocolSnapshot) : Snapshot :=
  { s with
    sessionID := state.sessionID
    serverSalt := state.serverSalt
    seqNo := state.sequenceNo
    lastClientMsgID := state.highestMessageID
    clientMsgIDFloor := state.messageIDFloor
    recentClientMsgIDs := state.recentMessageIDs
    recentClientSeqNos := state.recentSequenceNos }

structure SessionValidator where
  validator : Validator

/-- A container's own ID, then every message that is not a retransmission. -/
def ValidatedInbound.recordedIDs (out : ValidatedInbound) : List Int :=
  (if out.envelope.constructorID = msgContainerID then [out.outerMessageID] else []) ++
    (out.messages.filter (fun message => !message.retransmission)).map InboundMessage.messageID

/-- Every pass but the last drops a child: one pass more than children is enough. -/
def SessionValidator.validate (decode : List UInt8 → Except InboundError (List ContainerItem))
    (clock : Nat → Nat → Time) (sv : SessionValidator) (snapshot : Snapshot)
    (inner : InnerData) : Option (SessionValidator × Except InboundError ValidatedInbound) :=
  if inner.data.length < 4 then some (sv, .error .bodyTooShort)
  else match classifyProtocolMessage decode inner with
    | .error e => some (sv, .error e)
    | .ok (message, decoded) =>
      match newProtocolValidator snapshot with
      | .error e => some (sv, .error (.validation e))
      | .ok validator =>
        match validateRetrying snapshot.recentClientMsgIDs.toFinset (message.children.length + 1) clock
          validator message ∅ with
        | none => none
        | some (.error e) => some (⟨validator⟩, .error (.validation e))
        | some (.ok (validator, replayed)) =>
          some (⟨validator⟩, .ok {
            outerMessageID := inner.msgID
            envelope := ⟨inner.msgID, inner.seqNo, leUint32 inner.data, inner.data,
              requiresAcknowledgement (leUint32 inner.data) message.kind, false⟩
            messages := decoded.map (fun child =>
              { child with retransmission := decide (child.messageID ∈ replayed) })
            snapshot := snapshot.withProtocol validator.snapshot })

end Tlrpc
