import Tlrpc.Writer

namespace Tlrpc

open List Option MessageIntent

def asciiBytes (text : String) : List UInt8 := text.toList.map fun c => UInt8.ofNat c.toNat

/-- An error as `FromError` sees it: with a non-nil `*RPCError` in it, or not. -/
inductive AppError
  | rpc (code : Int32) (message : List UInt8)
  | other
deriving DecidableEq

def fromError : AppError → Int32 × List UInt8
  | .rpc code message => (code, message)
  | .other => (500, asciiBytes "INTERNAL")

structure Outcome where
  intents : List Intent
  mutations : List SessionMutation
  disconnectAfter : Option Int

/-- `SuppressPush` of the routed message, with the message itself. -/
structure RoutedMessage where
  message : InboundMessage
  suppressPush : Bool

def validateMessageIDs (ids : List Int) : Bool := ids ≠ [] && 0 ∉ ids && ids.Nodup

def MessageIntent.validate : MessageIntent → Bool
  | .rpcResult requestMessageID body => requestMessageID ≠ 0 && 4 ≤ body.length
  | .rpcError requestMessageID _ message => requestMessageID ≠ 0 && message ≠ []
  | .protocolReply body _ _ => 4 ≤ body.length
  | .acknowledge messageIDs => validateMessageIDs messageIDs
  | .push body => 4 ≤ body.length

def validateIntent : Intent → Bool
  | .message m => m.validate
  | .batch items => items ≠ [] && items.all MessageIntent.validate
  | .resend messageIDs => validateMessageIDs messageIDs
  | .close => true

def validateOutcome (outcome : Outcome) : Bool :=
  outcome.disconnectAfter.all (0 ≤ ·) && outcome.intents.all validateIntent &&
    outcome.mutations.all validateSessionMutation

def MessageIntent.isPush : MessageIntent → Bool
  | .push _ => true
  | _ => false

def suppressPushIntents : List Intent → List Intent
  | [] => []
  | .message m :: rest =>
    if m.isPush then suppressPushIntents rest else .message m :: suppressPushIntents rest
  | .batch items :: rest =>
    match items.filter (!·.isPush) with
    | [] => suppressPushIntents rest
    | children => .batch children :: suppressPushIntents rest
  | intent :: rest => intent :: suppressPushIntents rest

def withAcknowledgement (ack : MessageIntent) : Intent → List Intent
  | .message (.rpcResult id body) => [.batch [.rpcResult id body, ack]]
  | .message (.rpcError id code message) => [.batch [.rpcError id code message, ack]]
  | .batch items =>
    if items.length < defaultMaxVectorElements then [.batch (items ++ [ack])]
    else [.batch items, .message ack]
  | intent => [intent, .message ack]

def outcomeWriteIntents (intents : List Intent) (message : InboundMessage) : List Intent :=
  if message.contentRelated then
    match intents.getLast? with
    | none => [.message (.acknowledge [message.messageID])]
    | some last => intents.dropLast ++ withAcknowledgement (.acknowledge [message.messageID]) last
  else intents

def appliedIntents (routed : RoutedMessage) (outcome : Outcome) : List Intent :=
  outcomeWriteIntents
    (if routed.suppressPush then suppressPushIntents outcome.intents else outcome.intents) routed.message

/-- How a call of a method ends. `rejected` is an error before the handler runs. -/
inductive HandlerResult
  | methodNotFound
  | decodeFailed
  | trailingBytes
  | rejected (err : AppError)
  | panicked
  | error (err : AppError)
  | nilResponse
  | response (encoded : Option (List UInt8))

def runtimeApplicationFailure (requestMessageID : Int) (err : AppError) : Outcome :=
  ⟨[.message (.rpcError requestMessageID (fromError err).1 (fromError err).2)], [], none⟩

def newRPCError (code : Int32) (message : String) : AppError := .rpc code (asciiBytes message)

def Collected : SessionMutation → Prop
  | .bindUser userID => 0 < userID
  | .unbindUser => True
  | _ => False

def HandlerResult.answer (maxEncodedResponseBytes : Int) :
    HandlerResult → Except AppError (List UInt8)
  | .methodNotFound => .error (newRPCError 404 "METHOD_NOT_FOUND")
  | .decodeFailed => .error (newRPCError 400 "REQUEST_DECODE_FAILED")
  | .trailingBytes => .error (newRPCError 400 "REQUEST_TRAILING_BYTES")
  | .rejected err => .error err
  | .panicked => .error (newRPCError 500 "INTERNAL")
  | .error err => .error err
  | .nilResponse => .error (newRPCError 500 "NIL_RESPONSE")
  | .response none => .error (newRPCError 500 "RESPONSE_ENCODE_FAILED")
  | .response (some body) =>
    if body.length > maxEncodedResponseBytes then .error (newRPCError 500 "RESPONSE_ENCODE_FAILED")
    else .ok body

/-- `DispatchApplication` from the lookup of the method on. -/
def dispatchApplication (maxEncodedResponseBytes : Int) (requestMessageID : Int)
    (collected : List SessionMutation) (result : HandlerResult) : Outcome :=
  match result.answer maxEncodedResponseBytes with
  | .error err => runtimeApplicationFailure requestMessageID err
  | .ok body => ⟨[.message (.rpcResult requestMessageID body)], collected, none⟩

def normalizeMaxEncodedBytes (maxBytes : Int) : Nat := if maxBytes ≤ 0 then 16777216 else maxBytes.toNat

def tlBytesLength (n : Nat) : Nat :=
  if n < 254 then 1 + n + (4 - (1 + n) % 4) % 4 else 4 + n + (4 - (4 + n) % 4) % 4

/-- An answer that fits the writer's limit with its `rpc_result`, acknowledgement and container. -/
def Fits (maxBytes : Nat) : Except AppError (List UInt8) → Prop
  | .ok body => 4 ≤ body.length ∧ body.length + 72 ≤ maxBytes
  | .error err => (fromError err).2 ≠ [] ∧ (fromError err).2.length ≤ maxTLBytesLength ∧
    80 + tlBytesLength (fromError err).2.length ≤ maxBytes

section

variable {maxBytes : Nat}

theorem bounded_eq_some {body encoded : List UInt8} :
    bounded maxBytes body = some encoded ↔ body.length ≤ maxBytes ∧ encoded = body := by
  unfold bounded
  split
  next h => exact ⟨(nomatch ·), fun hle => absurd hle.1 (by omega)⟩
  next h => exact ⟨fun heq => ⟨by omega, (some.inj heq).symm⟩, fun heq => by rw [heq.2]⟩

theorem writeBytes_eq_none {v : List UInt8} : writeBytes v = none ↔ maxTLBytesLength < v.length := by
  unfold writeBytes
  have hlar : 254 ≤ maxTLBytesLength := by decide
  split
  next h => exact ⟨(nomatch ·), fun hlt => by omega⟩
  rename_i h
  split
  next h' => exact ⟨fun _ => h', fun _ => rfl⟩
  next h' => exact ⟨(nomatch ·), fun hlt => absurd hlt h'⟩

theorem writeBytes_length {v text : List UInt8} (h : writeBytes v = some text) :
    text.length = tlBytesLength v.length := by
  unfold writeBytes at h
  unfold tlBytesLength
  split at h
  next hlt =>
    cases h
    rw [if_pos hlt, length_append, length_cons, length_replicate]
    omega
  next hge =>
    split at h
    · cases h
    cases h
    rw [if_neg hge, length_append, length_append, length_cons, length_leBytes, length_replicate]

theorem serializeRPCResult_length (requestMessageID : Int) (result : List UInt8) :
    (serializeRPCResult requestMessageID result).length = 12 + result.length := by
  unfold serializeRPCResult int64Bytes
  rw [length_append, length_append, length_leBytes, length_leBytes]

theorem serializeMsgsAck_length (messageIDs : List Int) :
    (serializeMsgsAck messageIDs).length = 12 + 8 * messageIDs.length := by
  unfold serializeMsgsAck
  have hids : (messageIDs.flatMap int64Bytes).length = 8 * messageIDs.length := by
    induction messageIDs with
    | nil => rfl
    | cons id ids ih =>
      rw [flatMap_cons, length_append, ih, int64Bytes, length_leBytes, length_cons]
      omega
  rw [length_append, length_append, length_append, length_leBytes, length_leBytes, length_leBytes, hids]

variable {e : EncodedBody}

theorem encode_rpcResult {id : Int} {body : List UInt8} :
    encodeIntentBodyBounded maxBytes (.rpcResult id body) = some e ↔
      12 + body.length ≤ maxBytes ∧ e = ⟨serializeRPCResult id body, true, false⟩ := by
  have hlen := serializeRPCResult_length id body
  simp only [encodeIntentBodyBounded, Option.bind_eq_bind, bind_eq_some_iff, bounded_eq_some,
    Option.pure_def, Option.some.injEq]
  constructor
  · rintro ⟨_, ⟨_, rfl⟩, _, ⟨hle, rfl⟩, rfl⟩
    exact ⟨by omega, rfl⟩
  · rintro ⟨hle, rfl⟩
    exact ⟨body, ⟨by omega, rfl⟩, _, ⟨by omega, rfl⟩, rfl⟩

theorem encode_rpcError {id : Int} {code : Int32} {message : List UInt8} :
    encodeIntentBodyBounded maxBytes (.rpcError id code message) = some e ↔
      ∃ text, writeBytes message = some text ∧ 20 + text.length ≤ maxBytes ∧
        e = ⟨serializeRPCResult id (leBytes 4 rpcErrorID.toNat ++ int32Bytes code ++ text), true, false⟩ := by
  have hbd : ∀ text : List UInt8,
      (leBytes 4 rpcErrorID.toNat ++ int32Bytes code ++ text).length = 8 + text.length := by
    intro text
    rw [int32Bytes, length_append, length_append, length_leBytes, length_leBytes]
  have hlen := serializeRPCResult_length id
  simp only [encodeIntentBodyBounded, Option.bind_eq_bind, bind_eq_some_iff, bounded_eq_some,
    Option.pure_def, Option.some.injEq]
  constructor
  · rintro ⟨text, htx, _, ⟨_, rfl⟩, _, ⟨hle, rfl⟩, rfl⟩
    rw [hlen, hbd] at hle
    exact ⟨text, htx, by omega, rfl⟩
  · rintro ⟨text, htx, hle, rfl⟩
    refine ⟨text, htx, _, ⟨?_, rfl⟩, _, ⟨?_, rfl⟩, rfl⟩
    · rw [hbd]
      omega
    · rw [hlen, hbd]
      omega

theorem encode_acknowledge {ids : List Int} : encodeIntentBodyBounded maxBytes (.acknowledge ids) = some e ↔
      12 + 8 * ids.length ≤ maxBytes ∧ e = ⟨serializeMsgsAck ids, false, false⟩ := by
  have hlen := serializeMsgsAck_length ids
  simp only [encodeIntentBodyBounded, Option.bind_eq_bind, bind_eq_some_iff, bounded_eq_some,
    Option.pure_def, Option.some.injEq]
  constructor
  · rintro ⟨_, ⟨hle, rfl⟩, rfl⟩
    exact ⟨by omega, rfl⟩
  · rintro ⟨hle, rfl⟩
    exact ⟨_, ⟨by omega, rfl⟩, rfl⟩

theorem serializeContainer_pair_length (a b : ContainerItem) :
    (serializeContainer [a, b]).length = 40 + a.bodyRaw.length + b.bodyRaw.length := by
  simp only [serializeContainer, ContainerItem.serializeTL, flatMap_cons, flatMap_nil,
    length_append, length_leBytes, length_nil]
  omega

section

variable {env : WriterEnv} (encrypts : ∀ inner key, (env.encrypt inner key).isSome)
  (snapshot : Snapshot)
include encrypts

theorem prepare_isSome (intent : Intent) :
    (prepare env snapshot intent).isSome = (assignFrame env snapshot intent).isSome := by
  unfold prepare
  cases assignFrame env snapshot intent with
  | none => rfl
  | some assigned =>
    obtain ⟨children, outer, next⟩ := assigned
    obtain ⟨frame, hfrm⟩ := isSome_iff_exists.mp
      (encrypts ⟨next.serverSalt, next.sessionID, outer.messageID, outer.sequenceNo, outer.body⟩
        next.authKeyID)
    simp only [bind_eq_bind, bind_some, hfrm]
    rfl

theorem prepare_pair (a b : MessageIntent) : (prepare env snapshot (.batch [a, b])).isSome ↔
      ∃ ea eb, encodeIntentBodyBounded env.maxEncodedBytes a = some ea ∧
        encodeIntentBodyBounded env.maxEncodedBytes b = some eb ∧
        40 + ea.body.length + eb.body.length ≤ env.maxEncodedBytes := by
  have hsh : ¬ [a, b].length > defaultMaxVectorElements := of_decide_eq_false rfl
  rw [prepare_isSome encrypts]
  unfold assignFrame
  simp only [if_neg hsh, assignMessages, assignMessage]
  cases encodeIntentBodyBounded env.maxEncodedBytes a with
  | none => simp
  | some ea =>
    cases encodeIntentBodyBounded env.maxEncodedBytes b with
    | none => simp
    | some eb =>
      simp only [Option.bind_eq_bind, Option.bind_some, Option.pure_def, map_cons, map_nil,
        AssignedMessage.item, Option.some.injEq, bounded, serializeContainer_pair_length]
      split
      next hln =>
        refine ⟨(nomatch ·), ?_⟩
        rintro ⟨_, _, rfl, rfl, hft⟩
        omega
      next hft => exact ⟨fun _ => ⟨ea, eb, rfl, rfl, by omega⟩, fun _ => rfl⟩

end

end

theorem appliedIntents_dispatch {limit : Int} {routed : RoutedMessage}
    (content : routed.message.contentRelated = true) (collected : List SessionMutation)
    (result : HandlerResult) :
    appliedIntents routed (dispatchApplication limit routed.message.messageID collected result) =
      [.batch [match result.answer limit with
          | .ok body => .rpcResult routed.message.messageID body
          | .error err => .rpcError routed.message.messageID (fromError err).1 (fromError err).2,
        .acknowledge [routed.message.messageID]]] := by
  unfold appliedIntents dispatchApplication outcomeWriteIntents
  rw [if_pos content]
  cases result.answer limit <;> cases routed.suppressPush <;> rfl

theorem collected_valid {m : SessionMutation} (h : Collected m) : validateSessionMutation m = true := by
  cases m with
  | bindUser userID => exact decide_eq_true h
  | unbindUser => rfl
  | _ => exact absurd h id

theorem validateOutcome_dispatch {limit requestMessageID : Int} (hid : requestMessageID ≠ 0)
    {collected : List SessionMutation} (hcol : ∀ m ∈ collected, Collected m) (result : HandlerResult) :
    validateOutcome (dispatchApplication limit requestMessageID collected result) = true ↔
      match result.answer limit with
      | .ok body => 4 ≤ body.length | .error err => (fromError err).2 ≠ [] := by
  have hval : collected.all validateSessionMutation = true :=
    all_eq_true.mpr fun m hm => collected_valid (hcol m hm)
  unfold dispatchApplication validateOutcome runtimeApplicationFailure
  cases result.answer limit with
  | ok body => simp [validateIntent, validate, hid, hval]
  | error err => simp [validateIntent, validate, hid]

/-- The outcome of a content-related request is valid and its intents are prepared exactly when its
answer fits. -/
theorem handler_result_sent_iff (limit : Int) (env : WriterEnv) (snapshot : Snapshot)
    (routed : RoutedMessage) (collected : List SessionMutation) (result : HandlerResult)
    (henv : env.maxEncodedBytes = normalizeMaxEncodedBytes limit)
    (encrypts : ∀ inner key, (env.encrypt inner key).isSome)
    (hid : routed.message.messageID ≠ 0) (content : routed.message.contentRelated = true)
    (hcollected : ∀ m ∈ collected, Collected m) :
    (validateOutcome (dispatchApplication limit routed.message.messageID collected result) = true ∧
      ∀ intent ∈ appliedIntents routed (dispatchApplication limit routed.message.messageID collected result),
        (prepare env snapshot intent).isSome) ↔
      Fits (normalizeMaxEncodedBytes limit) (result.answer limit) := by
  rw [appliedIntents_dispatch content, validateOutcome_dispatch hid hcollected]
  simp only [mem_singleton, forall_eq]
  rw [prepare_pair encrypts, henv]
  have hack : ∀ e, encodeIntentBodyBounded (normalizeMaxEncodedBytes limit)
      (.acknowledge [routed.message.messageID]) = some e ↔
      20 ≤ normalizeMaxEncodedBytes limit ∧ e = ⟨serializeMsgsAck [routed.message.messageID], false, false⟩ :=
    fun e => encode_acknowledge
  have hac := serializeMsgsAck_length [routed.message.messageID]
  rw [length_singleton] at hac
  cases result.answer limit with
  | ok body =>
    have hlen := serializeRPCResult_length routed.message.messageID body
    refine and_congr_right fun _ => ⟨?_, fun hft => ?_⟩
    · rintro ⟨ea, eb, ha, hb, hle⟩
      obtain ⟨_, rfl⟩ := encode_rpcResult.mp ha
      obtain ⟨_, rfl⟩ := (hack eb).mp hb
      dsimp only at hle
      omega
    · refine ⟨_, _, encode_rpcResult.mpr ⟨by omega, rfl⟩, (hack _).mpr ⟨by omega, rfl⟩, ?_⟩
      dsimp only
      omega
  | error err =>
    refine and_congr_right fun _ => ⟨?_, ?_⟩
    · rintro ⟨ea, eb, ha, hb, hle⟩
      obtain ⟨text, htx, _, rfl⟩ := encode_rpcError.mp ha
      obtain ⟨_, rfl⟩ := (hack eb).mp hb
      have hln := mt writeBytes_eq_none.mpr (by rw [htx]; exact some_ne_none text)
      have hlen := writeBytes_length htx
      dsimp only at hle
      rw [serializeRPCResult_length, int32Bytes, length_append, length_append, length_leBytes,
        length_leBytes] at hle
      exact ⟨by omega, by omega⟩
    · rintro ⟨hln, hft⟩
      have hwri : writeBytes (fromError err).2 ≠ none := mt writeBytes_eq_none.mp (by omega)
      obtain ⟨text, htx⟩ := ne_none_iff_exists'.mp hwri
      have hlen := writeBytes_length htx
      refine ⟨_, _, encode_rpcError.mpr ⟨text, htx, by omega, rfl⟩, (hack _).mpr ⟨by omega, rfl⟩, ?_⟩
      dsimp only
      rw [serializeRPCResult_length, int32Bytes, length_append, length_append, length_leBytes,
        length_leBytes]
      omega

def plainRequest : RoutedMessage := ⟨⟨4, 1, 5, [5, 0, 0, 0], true, false⟩, false⟩

/-- An encryption that succeeds, as unless the random source fails. -/
def paddedEncrypt (inner : InnerData) (key : KeyID) : Option (List UInt8) :=
  some (int64Bytes key.toNat ++ int64Bytes inner.msgID ++ inner.data)

theorem handler_result_sent_response :
    validateOutcome (dispatchApplication 101 4 [.bindUser 7] (.response (some (List.replicate 29 0)))) =
      true ∧ ∀ intent ∈ appliedIntents plainRequest
        (dispatchApplication 101 4 [.bindUser 7] (.response (some (List.replicate 29 0)))),
      (prepare ⟨101, fun n => 4 * n, paddedEncrypt, 0⟩ (.initial ⟨1, 2⟩ 3 0) intent).isSome :=
  (handler_result_sent_iff 101 ⟨101, fun n => 4 * n, paddedEncrypt, 0⟩ (.initial ⟨1, 2⟩ 3 0) plainRequest
    [.bindUser 7] (.response (some (List.replicate 29 0))) rfl (fun _ _ => rfl) (by decide) rfl
    (by simp [Collected])).mpr ⟨by decide, by decide⟩

/-- An `*RPCError` without a text is refused; a response of 29 bytes does not fit 100 bytes once
wrapped. -/
theorem handler_results_refused :
    validateOutcome (dispatchApplication 100 4 [] (.error (.rpc 400 []))) = false ∧
    validateOutcome (dispatchApplication 100 4 [] (.response (some (List.replicate 29 0)))) = true ∧
    ∀ encrypt ids now snapshot, ∃ intent ∈ appliedIntents plainRequest
        (dispatchApplication 100 4 [] (.response (some (List.replicate 29 0)))),
      prepare ⟨normalizeMaxEncodedBytes 100, ids, encrypt, now⟩ snapshot intent = none :=
  ⟨rfl, rfl, fun _ _ _ _ => ⟨_, mem_singleton_self _, rfl⟩⟩

end Tlrpc
