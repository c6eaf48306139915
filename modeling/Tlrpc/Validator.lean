import Tlrpc.CheckedInt32
import Mathlib.Data.Finset.Basic

namespace Tlrpc

/-- Instants are nanoseconds since the Unix epoch. -/
abbrev Time := Int

def second : Int := 1000000000

def clientMessagePastWindow : Int := 300 * second
def clientMessageFutureWindow : Int := 30 * second

def codeMessageIDTooLow : Int32 := 16
def codeMessageIDTooHigh : Int32 := 17
def codeMessageIDFormat : Int32 := 18
def codeSequenceNoTooLow : Int32 := 32
def codeSequenceNoTooHigh : Int32 := 33
def codeExpectedEvenSequenceNo : Int32 := 34
def codeExpectedOddSequenceNo : Int32 := 35
def codeBadServerSalt : Int32 := 48
def codeInvalidContainer : Int32 := 64
def codeReplayMessageID : Int32 := codeSequenceNoTooLow
def codeSessionIDMismatch : Int32 := codeInvalidContainer

def defaultRecentMessageIDLimit : Int := 64
def maxRecentMessageIDLimit : Int := 4096
def defaultContentSequenceLimit : Int := 64
def maxContentSequenceLimit : Int := 4096

/-- `unknown` stands for every byte value outside the three declared kinds. -/
inductive MessageKind
  | contentRelated
  | nonContentRelated
  | container
  | unknown
deriving DecidableEq

structure ContainerMessage where
  messageID : Int
  sequenceNo : Int32
  kind : MessageKind
deriving DecidableEq

structure Message where
  serverSalt : Int
  sessionID : Int
  messageID : Int
  sequenceNo : Int32
  kind : MessageKind
  children : List ContainerMessage
deriving DecidableEq

structure Config where
  sessionID : Int
  serverSalt : Int
  sequenceNo : Int32
  highestMessageID : Int
  messageIDFloor : Int
  recentMessageIDs : List Int
  recentMessageIDLimit : Int
  recentSequenceNos : List Int32
  contentSequenceLimit : Int
deriving DecidableEq

structure ProtocolSnapshot where
  sessionID : Int
  serverSalt : Int
  sequenceNo : Int32
  highestMessageID : Int
  messageIDFloor : Int
  recentMessageIDs : List Int
  recentSequenceNos : List Int32
deriving DecidableEq

inductive BadMessageCause
  | sessionIDMismatch
  | badServerSalt
  | messageIDTooLow
  | messageIDTooHigh
  | messageIDFormat
  | replayMessageID
  | sequenceNoTooLow
  | sequenceNoTooHigh
  | expectedNonContentSequence
  | expectedContentSequence
deriving DecidableEq

structure BadMessageError where
  messageID : Int
  sequenceNo : Int32
  code : Int32
  expectedServerSalt : Int
  cause : BadMessageCause
deriving DecidableEq

inductive ValidateError
  | badMessage (bad : BadMessageError)
  | invalidMessageKind
  | invalidConfig (reason : String)
deriving DecidableEq

structure ValidatorState where
  sessionID : Int
  serverSalt : Int
  sequenceNo : Int32
  highestMessageID : Int
  messageIDFloor : Int
  recentIDs : List Int
  recentSet : Finset Int
  recentSeqNos : List Int32
  recentSeqSet : Finset Int32
deriving DecidableEq

structure Validator where
  messageIDLimit : Nat
  sequenceLimit : Nat
  state : ValidatorState
deriving DecidableEq

structure MessageMetadata where
  messageID : Int
  sequenceNo : Int32

def validKind (kind : MessageKind) : Bool :=
  kind = .contentRelated || kind = .nonContentRelated || kind = .container

def badMessage (metadata : MessageMetadata) (code : Int32) (expectedSalt : Int)
    (cause : BadMessageCause) : ValidateError :=
  .badMessage ⟨metadata.messageID, metadata.sequenceNo, code, expectedSalt, cause⟩

namespace ValidatorState

def clone (st : ValidatorState) : ValidatorState :=
  { st with recentSet := st.recentIDs.toFinset, recentSeqSet := st.recentSeqNos.toFinset }

/-- The scan for the first least entry, resumed at position `index`. -/
def minimumIndexFrom (least : Int) (minimumIndex index : Nat) : List Int → Nat
  | [] => minimumIndex
  | id :: rest =>
    if id < least then minimumIndexFrom id index (index + 1) rest
    else minimumIndexFrom least minimumIndex (index + 1) rest

def minimumIndex : List Int → Nat
  | [] => 0
  | id :: rest => minimumIndexFrom id 0 1 rest

/-- The eviction branch of `rememberMessageID`, taken on a nonempty list only. -/
def evictMinimum (st : ValidatorState) : ValidatorState :=
  let index := minimumIndex st.recentIDs
  let minimum := st.recentIDs.getD index 0
  { st with
    recentSet := st.recentSet.erase minimum
    recentIDs := st.recentIDs.eraseIdx index
    messageIDFloor := if minimum > st.messageIDFloor then minimum else st.messageIDFloor }

def appendMessageID (st : ValidatorState) (messageID : Int) : ValidatorState :=
  if messageID ≤ st.messageIDFloor then st
  else { st with
    recentIDs := st.recentIDs ++ [messageID]
    recentSet := insert messageID st.recentSet }

def rememberMessageID (st : ValidatorState) (messageID : Int) (limit : Nat) : ValidatorState :=
  appendMessageID (if st.recentIDs.length = limit then st.evictMinimum else st) messageID

def evictOldestSequenceNo (st : ValidatorState) : ValidatorState :=
  { st with
    recentSeqSet := st.recentSeqSet.erase (st.recentSeqNos.headD 0)
    recentSeqNos := st.recentSeqNos.tail }

def appendSequenceNo (st : ValidatorState) (sequenceNo : Int32) : ValidatorState :=
  { st with
    recentSeqNos := st.recentSeqNos ++ [sequenceNo]
    recentSeqSet := insert sequenceNo st.recentSeqSet }

def rememberSequenceNo (st : ValidatorState) (sequenceNo : Int32) (limit : Nat) : ValidatorState :=
  if sequenceNo ∈ st.recentSeqSet then st
  else appendSequenceNo
    (if st.recentSeqNos.length = limit then st.evictOldestSequenceNo else st) sequenceNo

def dropSequenceNosBelow (st : ValidatorState) (minimum : Int32) : ValidatorState :=
  { st with
    recentSeqSet := st.recentSeqSet \ (st.recentSeqNos.filter (· < minimum)).toFinset
    recentSeqNos := st.recentSeqNos.filter (fun sequenceNo => ¬ sequenceNo < minimum) }

end ValidatorState

section Arithmetic

variable {m : Type → Type} [Monad m] (ops : Int32Ops m)

/-- `state.sequenceNo - int32(limit*2) + 1`, the least content number still accepted. -/
def windowMinimumM (sequenceNo : Int32) (limit : Nat) : m Int32 := do
  let span ← ops.ofInt (limit * 2)
  let low ← ops.sub sequenceNo span
  ops.add low 1

def pruneSequenceNosM (st : ValidatorState) (limit : Nat) : m ValidatorState := do
  let minimum ← windowMinimumM ops st.sequenceNo limit
  pure (st.dropSequenceNosBelow minimum)

end Arithmetic

def messageTime (messageID : Int) : Time := messageID / 2 ^ 32 * second

def validateMessageID (now : Time) (st : ValidatorState) (metadata : MessageMetadata) :
    Except ValidateError Unit :=
  if metadata.messageID % 4 ≠ 0 ∨ metadata.messageID % 2 ^ 32 = 0 then
    .error (badMessage metadata codeMessageIDFormat st.serverSalt .messageIDFormat)
  else if messageTime metadata.messageID < now - clientMessagePastWindow then
    .error (badMessage metadata codeMessageIDTooLow st.serverSalt .messageIDTooLow)
  else if messageTime metadata.messageID > now + clientMessageFutureWindow then
    .error (badMessage metadata codeMessageIDTooHigh st.serverSalt .messageIDTooHigh)
  else if metadata.messageID ≤ st.messageIDFloor ∨ metadata.messageID = st.highestMessageID ∨
      metadata.messageID ∈ st.recentSet then
    .error (badMessage metadata codeReplayMessageID st.serverSalt .replayMessageID)
  else .ok ()

def contentMinimum (st : ValidatorState) (sequenceLimit : Nat) : Int :=
  max (st.sequenceNo.toInt - sequenceLimit * 2 + 1) 1

def contentMaximum (st : ValidatorState) (sequenceLimit : Nat) : Int :=
  st.sequenceNo.toInt + sequenceLimit * 2 + 1

/-- `validateSequenceNo` after `expected` is known; what remains compares in int64. -/
def sequenceNoVerdict (sequenceLimit : Nat) (st : ValidatorState) (metadata : MessageMetadata)
    (contentRelated : Bool) (expected : Int32) : Except ValidateError Unit :=
  if metadata.sequenceNo = expected then .ok ()
  else if !contentRelated ∧ metadata.sequenceNo &&& 1 = 0 ∧ metadata.sequenceNo < expected then .ok ()
  else if metadata.sequenceNo &&& 1 ≠ 0 ∧ !contentRelated then
    .error (badMessage metadata codeExpectedEvenSequenceNo st.serverSalt .expectedNonContentSequence)
  else if metadata.sequenceNo &&& 1 = 0 ∧ contentRelated then
    .error (badMessage metadata codeExpectedOddSequenceNo st.serverSalt .expectedContentSequence)
  else if !contentRelated then .ok ()
  else if st.sequenceNo = 0 ∧ st.recentSeqNos.length = 0 then .ok ()
  else if metadata.sequenceNo ∈ st.recentSeqSet then
    .error (badMessage metadata codeSequenceNoTooLow st.serverSalt .sequenceNoTooLow)
  else if metadata.sequenceNo.toInt < contentMinimum st sequenceLimit then
    .error (badMessage metadata codeSequenceNoTooLow st.serverSalt .sequenceNoTooLow)
  else if metadata.sequenceNo.toInt > contentMaximum st sequenceLimit then
    .error (badMessage metadata codeSequenceNoTooHigh st.serverSalt .sequenceNoTooHigh)
  else .ok ()

section Validation

variable {m : Type → Type} [Monad m] (ops : Int32Ops m)

def validateSequenceNoM (sequenceLimit : Nat) (st : ValidatorState) (metadata : MessageMetadata)
    (kind : MessageKind) : m (Except ValidateError Unit) :=
  if metadata.sequenceNo < 0 then
    pure (.error (badMessage metadata codeSequenceNoTooLow st.serverSalt .sequenceNoTooLow))
  else if kind = .container then
    if metadata.sequenceNo &&& 1 ≠ 0 then
      pure (.error (badMessage metadata codeExpectedEvenSequenceNo st.serverSalt
        .expectedNonContentSequence))
    else pure (.ok ())
  else if kind = .contentRelated ∧ metadata.sequenceNo = 2147483647 then
    pure (.error (badMessage metadata codeSequenceNoTooHigh st.serverSalt .sequenceNoTooHigh))
  else do
    let expected ← if kind = .contentRelated then ops.add st.sequenceNo 1 else pure st.sequenceNo
    pure (sequenceNoVerdict sequenceLimit st metadata (kind = .contentRelated) expected)

/-- The content-related bookkeeping at the end of `validateOne`. -/
def advanceSequenceNoM (sequenceLimit : Nat) (st : ValidatorState) (sequenceNo : Int32)
    (kind : MessageKind) : m ValidatorState :=
  if kind = .contentRelated then do
    let next ← ops.add st.sequenceNo 1
    let st ← if sequenceNo ≥ next then do
        let advanced ← ops.add sequenceNo 1
        pure { st with sequenceNo := advanced }
      else pure st
    let st ← pruneSequenceNosM ops st sequenceLimit
    pure (st.rememberSequenceNo sequenceNo sequenceLimit)
  else pure st

def raiseHighest (st : ValidatorState) (messageID : Int) : ValidatorState :=
  if messageID > st.highestMessageID then { st with highestMessageID := messageID } else st

def validateOneM (messageIDLimit sequenceLimit : Nat) (now : Time) (st : ValidatorState)
    (metadata : MessageMetadata) (kind : MessageKind) : m (Except ValidateError ValidatorState) :=
  if !validKind kind then pure (.error .invalidMessageKind)
  else match validateMessageID now st metadata with
    | .error e => pure (.error e)
    | .ok () => do
      match ← validateSequenceNoM ops sequenceLimit st metadata kind with
      | .error e => pure (.error e)
      | .ok () =>
        let st ← advanceSequenceNoM ops sequenceLimit (raiseHighest st metadata.messageID)
          metadata.sequenceNo kind
        pure (.ok (st.rememberMessageID metadata.messageID messageIDLimit))

/-- In wire order; the `k`-th record sees the `k`-th reading of the clock. -/
def validateChildrenM (messageIDLimit sequenceLimit : Nat) :
    (Nat → Time) → ValidatorState → List ContainerMessage → m (Except ValidateError ValidatorState)
  | _, st, [] => pure (.ok st)
  | clock, st, child :: rest =>
    if child.kind = .container ∨ !validKind child.kind then pure (.error .invalidMessageKind)
    else do
      match ← validateOneM ops messageIDLimit sequenceLimit (clock 0) st
        ⟨child.messageID, child.sequenceNo⟩ child.kind with
      | .error e => pure (.error e)
      | .ok st => validateChildrenM messageIDLimit sequenceLimit (fun k => clock (k + 1)) st rest

def bindSession (st : ValidatorState) (sessionID : Int) : ValidatorState :=
  if st.sessionID = 0 then { st with sessionID := sessionID } else st

def validateEnvelopeM (messageIDLimit sequenceLimit : Nat) (clock : Nat → Time)
    (st : ValidatorState) (message : Message) : m (Except ValidateError ValidatorState) :=
  let metadata : MessageMetadata := ⟨message.messageID, message.sequenceNo⟩
  if message.sessionID = 0 ∨ st.sessionID ≠ 0 ∧ message.sessionID ≠ st.sessionID then
    pure (.error (badMessage metadata codeSessionIDMismatch st.serverSalt .sessionIDMismatch))
  else if message.serverSalt ≠ st.serverSalt then
    pure (.error (badMessage metadata codeBadServerSalt st.serverSalt .badServerSalt))
  else if message.kind ≠ .container ∧ message.children.length ≠ 0 then
    pure (.error .invalidMessageKind)
  else do
    match ← validateOneM ops messageIDLimit sequenceLimit (clock 0) st metadata message.kind with
    | .error e => pure (.error e)
    | .ok st =>
      match ← (if message.kind = .container then
          validateChildrenM ops messageIDLimit sequenceLimit (fun k => clock (k + 1)) st
            message.children
        else pure (.ok st)) with
      | .error e => pure (.error e)
      | .ok st => pure (.ok (bindSession st message.sessionID))

def Validator.validateM (v : Validator) (clock : Nat → Time) (message : Message) :
    m (Except ValidateError Validator) := do
  match ← validateEnvelopeM ops v.messageIDLimit v.sequenceLimit clock v.state.clone message with
  | .error e => pure (.error e)
  | .ok candidate => pure (.ok { v with state := candidate })

def restoreMessageID (limit : Nat) (st : ValidatorState) (id : Int) : ValidatorState :=
  if id ≤ st.messageIDFloor then st
  else if id ∈ st.recentSet then st
  else raiseHighest (st.rememberMessageID id limit) id

def restoreSequenceNoM (limit : Nat) (st : ValidatorState) (sequenceNo : Int32) :
    m ValidatorState := do
  let minimum ← windowMinimumM ops st.sequenceNo limit
  if sequenceNo < minimum ∨ sequenceNo &&& 1 = 0 then pure st
  else
    let next ← ops.add st.sequenceNo 1
    if sequenceNo ≥ next then pure st else pure (st.rememberSequenceNo sequenceNo limit)

def normalizeLimit (limit default : Int) : Int := if limit = 0 then default else limit

def Config.initialState (config : Config) : ValidatorState where
  sessionID := config.sessionID
  serverSalt := config.serverSalt
  sequenceNo := config.sequenceNo
  highestMessageID := config.highestMessageID
  messageIDFloor := config.messageIDFloor
  recentIDs := []
  recentSet := ∅
  recentSeqNos := []
  recentSeqSet := ∅

def newValidatorM (config : Config) : m (Except ValidateError Validator) :=
  let limit := normalizeLimit config.recentMessageIDLimit defaultRecentMessageIDLimit
  let sequenceLimit := normalizeLimit config.contentSequenceLimit defaultContentSequenceLimit
  if limit < 1 ∨ limit > maxRecentMessageIDLimit then
    pure (.error (.invalidConfig "recent message id limit must be between 1 and 4096"))
  else if sequenceLimit < 1 ∨ sequenceLimit > maxContentSequenceLimit then
    pure (.error (.invalidConfig "content sequence limit must be between 1 and 4096"))
  else if config.sequenceNo < 0 ∨ config.sequenceNo &&& 1 ≠ 0 then
    pure (.error (.invalidConfig "sequence number must be a non-negative even value"))
  else do
    let st := config.recentMessageIDs.foldl (restoreMessageID limit.toNat) config.initialState
    let st ← config.recentSequenceNos.foldlM (restoreSequenceNoM ops sequenceLimit.toNat) st
    let st ← pruneSequenceNosM ops st sequenceLimit.toNat
    pure (.ok ⟨limit.toNat, sequenceLimit.toNat, st⟩)

end Validation

section Machine

def windowMinimum (sequenceNo : Int32) (limit : Nat) : Int32 :=
  windowMinimumM wrapping sequenceNo limit

def pruneSequenceNos (st : ValidatorState) (limit : Nat) : ValidatorState :=
  pruneSequenceNosM wrapping st limit

def validateSequenceNo (sequenceLimit : Nat) (st : ValidatorState) (metadata : MessageMetadata)
    (kind : MessageKind) : Except ValidateError Unit :=
  validateSequenceNoM wrapping sequenceLimit st metadata kind

def advanceSequenceNo (sequenceLimit : Nat) (st : ValidatorState) (sequenceNo : Int32)
    (kind : MessageKind) : ValidatorState :=
  advanceSequenceNoM wrapping sequenceLimit st sequenceNo kind

def validateOne (messageIDLimit sequenceLimit : Nat) (now : Time) (st : ValidatorState)
    (metadata : MessageMetadata) (kind : MessageKind) : Except ValidateError ValidatorState :=
  validateOneM wrapping messageIDLimit sequenceLimit now st metadata kind

def validateChildren (messageIDLimit sequenceLimit : Nat) (clock : Nat → Time)
    (st : ValidatorState) (children : List ContainerMessage) : Except ValidateError ValidatorState :=
  validateChildrenM wrapping messageIDLimit sequenceLimit clock st children

def validateEnvelope (messageIDLimit sequenceLimit : Nat) (clock : Nat → Time)
    (st : ValidatorState) (message : Message) : Except ValidateError ValidatorState :=
  validateEnvelopeM wrapping messageIDLimit sequenceLimit clock st message

def Validator.validate (v : Validator) (clock : Nat → Time) (message : Message) :
    Except ValidateError Validator :=
  v.validateM wrapping clock message

def restoreSequenceNo (limit : Nat) (st : ValidatorState) (sequenceNo : Int32) : ValidatorState :=
  restoreSequenceNoM wrapping limit st sequenceNo

def newValidator (config : Config) : Except ValidateError Validator :=
  newValidatorM wrapping config

end Machine

def Validator.snapshot (v : Validator) : ProtocolSnapshot where
  sessionID := v.state.sessionID
  serverSalt := v.state.serverSalt
  sequenceNo := v.state.sequenceNo
  highestMessageID := v.state.highestMessageID
  messageIDFloor := v.state.messageIDFloor
  recentMessageIDs := v.state.recentIDs
  recentSequenceNos := v.state.recentSeqNos

def Validator.setServerSalt (v : Validator) (serverSalt : Int) : Validator :=
  { v with state := { v.state with serverSalt := serverSalt } }

end Tlrpc
