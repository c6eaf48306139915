import Tlrpc.Validator

namespace Tlrpc

abbrev KeyID := UInt64

structure SessionKey where
  authKeyID : KeyID
  sessionID : Int
deriving DecidableEq

structure ClientMetadata where
  apiID : Int32
  deviceModel : String
  systemVersion : String
  appVersion : String
  systemLangCode : String
  langPack : String
  langCode : String
deriving DecidableEq

structure Snapshot where
  authKeyID : KeyID
  sessionID : Int
  layer : Int
  userID : Int
  pushSubscription : Bool
  serverSalt : Int
  seqNo : Int32
  serverSeqNo : Int32
  lastClientMsgID : Int
  clientMsgIDFloor : Int
  recentClientMsgIDs : List Int
  recentClientSeqNos : List Int32
  client : ClientMetadata
  newSessionCreated : Bool
  firstClientMsgID : Int
  createdAt : Time
  lastActivity : Time
deriving DecidableEq

def Snapshot.key (s : Snapshot) : SessionKey := ⟨s.authKeyID, s.sessionID⟩

def Snapshot.initial (key : SessionKey) (serverSalt : Int) (now : Time) : Snapshot where
  authKeyID := key.authKeyID
  sessionID := key.sessionID
  layer := 0
  userID := 0
  pushSubscription := false
  serverSalt := serverSalt
  seqNo := 0
  serverSeqNo := 0
  lastClientMsgID := 0
  clientMsgIDFloor := 0
  recentClientMsgIDs := []
  recentClientSeqNos := []
  client := ⟨0, "", "", "", "", "", ""⟩
  newSessionCreated := false
  firstClientMsgID := 0
  createdAt := now
  lastActivity := now

inductive SessionMutation
  | setLayer (layer : Int)
  | setClientMetadata (client : ClientMetadata)
  | bindUser (userID : Int)
  | unbindUser
  | setPushSubscription (enabled : Bool)
  | markNewSessionCreated (firstMessageID : Int)
deriving DecidableEq

def validateSessionMutation : SessionMutation → Bool
  | .setLayer layer => layer > 0
  | .setClientMetadata client =>
    client.apiID > 0 && client.deviceModel ≠ "" && client.systemVersion ≠ "" &&
      client.appVersion ≠ "" && client.langCode ≠ ""
  | .bindUser userID => userID > 0
  | .unbindUser => true
  | .setPushSubscription _ => true
  | .markNewSessionCreated firstMessageID => firstMessageID ≠ 0

def Snapshot.mutate (s : Snapshot) : SessionMutation → Snapshot
  | .setLayer layer => { s with layer := layer }
  | .setClientMetadata client => { s with client := client }
  | .bindUser userID => { s with userID := userID }
  | .unbindUser => { s with userID := 0 }
  | .setPushSubscription enabled => { s with pushSubscription := enabled }
  | .markNewSessionCreated firstMessageID =>
    { s with newSessionCreated := true, firstClientMsgID := firstMessageID }

/-- `ApplySessionMutations`; `none` is `ErrInvalidSessionMutation`. -/
def applySessionMutations (current : Snapshot) : List SessionMutation → Option Snapshot
  | [] => some current
  | mutation :: rest =>
    if validateSessionMutation mutation then applySessionMutations (current.mutate mutation) rest
    else none

end Tlrpc
