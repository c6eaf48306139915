import Tlrpc.ReplayExact

namespace Tlrpc

open Option SerialWriter

def maxMessageStateIDs : Nat := 8192

def messageStateUnknownTooOld : UInt8 := 1
def messageStateReceived : UInt8 := 4
def messageStateAcknowledged : UInt8 := 8
def messageStateKnown : UInt8 := 128

/-- The state byte that a `msg_resend_req` is answered with. -/
def OutboundReliabilityState.info (state : OutboundReliabilityState) : UInt8 :=
  if state.known then
    let info := messageStateReceived ||| messageStateKnown
    if state.acknowledged then info ||| messageStateAcknowledged else info
  else messageStateUnknownTooOld

def serializeMsgsStateInfo (requestID : Int) (info : List UInt8) : Option (List UInt8) := do
  let text ← writeBytes info
  bounded (normalizeMaxEncodedBytes 0) (leBytes 4 msgsStateInfoID.toNat ++ int64Bytes requestID ++ text)

/-- A `msg_resend_req` up to the return of the `Submit`. `states` are the answers so far. -/
structure ResendRoute where
  writer : SerialWriter
  requestID : Int
  messageIDs : List Int
  states : List OutboundReliabilityState
  result : Option Bool

inductive ResendOp
  | other (op : SerialOp)
  | inspect (world : RequestWorld)
  | apply (world : RequestWorld)

namespace ResendRoute

def start (writer : SerialWriter) (requestID : Int) (messageIDs : List Int) : ResendRoute :=
  ⟨writer, requestID, messageIDs, [], none⟩

def allEligible (r : ResendRoute) : Bool := r.states.all (·.resendEligible)

/-- The intent of the outcome, if it has one; outside `none` stands for an error. -/
def outcome (r : ResendRoute) : Option (Option Intent) :=
  if r.messageIDs = [] then some none
  else if r.allEligible then some (some (.resend r.messageIDs))
  else (serializeMsgsStateInfo r.requestID (r.states.map OutboundReliabilityState.info)).map fun body =>
    some (.message (.protocolReply body false false))

def submit (r : ResendRoute) (world : RequestWorld) (intent : Intent) : ResendRoute :=
  if validateIntent intent then
    let result := r.writer.processRequest world (.submit intent)
    { r with
      writer := { result.1 with stopped := result.2.2.1 || result.2.2.2.isSome }
      result := some result.2.1.err.isNone }
  else { r with result := some false }

def step (r : ResendRoute) : ResendOp → Option ResendRoute
  | .other op => (r.writer.step op).map fun writer => { r with writer }
  | .inspect world =>
    if r.result.isSome ∨ r.writer.stopped then none
    else r.messageIDs[r.states.length]?.map fun messageID =>
      let result := r.writer.processRequest world (.inspect messageID)
      let r := { r with writer := { result.1 with stopped := result.2.2.1 || result.2.2.2.isSome } }
      match result.2.1.err with
      | some _ => { r with result := some false }
      | none => { r with states := r.states ++ [result.2.1.state] }
  | .apply world =>
    if r.result.isSome ∨ r.writer.stopped ∨ r.states.length < r.messageIDs.length then none
    else match r.outcome with
      | none => some { r with result := some false }
      | some none => some { r with result := some true }
      | some (some intent) => some (r.submit world intent)

end ResendRoute

structure RequestWorld.Works (world : RequestWorld) : Prop where
  canceled : world.canceled = false
  snapshotError : world.snapshotError = none
  saveError : world.saveError = none
  encrypt : ∀ inner keyID, (world.encrypt inner keyID).isSome
  written : ∀ k, world.written k = true

def RequestWorld.sent (world : RequestWorld) : Time :=
  if world.sentAt = zeroTime then world.clock 0 else world.sentAt

namespace SerialWriter

variable {capacity ttl : Int} {w : SerialWriter} {m : RetainedMap} {world : RequestWorld}

theorem live_entry {now : Time} {id : Int} {e : Retained} :
    (m.live now).entries id = some e ↔ m.entries id = some e ∧ now < e.expiresAt := by
  unfold RetainedMap.live
  rw [filter_eq_some_iff, decide_eq_true_eq]

section

variable (hsto : w.store.Refines capacity ttl m)
include hsto

theorem resendAll_ok (hwk : world.Works) (k : Nat)
    (ids : List Int) : (resendAll world k w ids).2 = none ↔ ∀ i id, ids[i]? = some id →
      ∃ e, m.entries id = some e ∧ e.message.acknowledged = false ∧
        ∀ j ≤ i, world.clock (k + j) < e.expiresAt := by
  induction ids generalizing k w m with
  | nil => exact iff_of_true rfl fun _ _ h => nomatch h
  | cons id rest ih =>
    obtain ⟨hfd, hsto⟩ := hsto.lookupForResend (world.clock k) id
    unfold resendAll
    dsimp only
    cases hlk : (w.store.lookupForResend (world.clock k) id).1 with
    | none =>
      refine iff_of_false (some_ne_none _) fun h => ?_
      obtain ⟨e, he, hack, hexp⟩ := h 0 id rfl
      rw [hlk, live_entry.mpr ⟨he, (by exact hexp 0 (le_refl 0))⟩] at hfd
      simp [filter_some, hack] at hfd
    | some retained =>
      rw [hlk, eq_comm, filter_eq_some_iff, map_eq_some_iff] at hfd
      obtain ⟨⟨e, hlv, rfl⟩, hack⟩ := hfd
      obtain ⟨he, hexp⟩ := live_entry.mp hlv
      rw [hwk.written k]
      show (resendAll world (k + 1) _ rest).2 = none ↔ _
      rw [ih (by exact hsto) (k + 1)]
      constructor
      · intro h i x hx
        cases i with
        | zero =>
          cases hx
          refine ⟨e, he, by simpa using hack, fun j hj => ?_⟩
          rw [Nat.le_zero.mp hj]
          exact hexp
        | succ i =>
          obtain ⟨e', he', hack', hexp'⟩ := h i x hx
          obtain ⟨he', hfst⟩ := live_entry.mp he'
          refine ⟨e', he', hack', fun j hj => ?_⟩
          cases j with
          | zero => exact hfst
          | succ j =>
            rw [show k + (j + 1) = k + 1 + j by omega]
            exact hexp' j (by omega)
      · intro h i x hx
        obtain ⟨e', he', hack', hexp'⟩ := h (i + 1) x hx
        refine ⟨e', live_entry.mpr ⟨he', hexp' 0 (by omega)⟩, hack', fun j hj => ?_⟩
        rw [show k + 1 + j = k + (j + 1) by omega]
        exact hexp' (j + 1) (by omega)

theorem retain_one_ok (frame : List UInt8)
    (x : AssignedMessage) : (retainMessages frame world.sentAt world.clock w.store [x]).1 = true ↔
      world.clock 0 < world.sent + ttl := by
  have httl := (hsto.expireLocked (world.clock 0)).ttl
  have hsn : (SentMessage.stamped ⟨x.messageID, x.requestMessageID, x.sequenceNo, frame, world.sentAt,
      false⟩ (world.clock 0)).sentAt = world.sent := by
    unfold SentMessage.stamped RequestWorld.sent
    split <;> rfl
  unfold retainMessages ReliabilityStore.put
  dsimp only
  rw [hsn, httl]
  by_cases hexp : world.sent + ttl ≤ world.clock 0
  · rw [if_pos hexp]
    exact iff_of_false Bool.false_ne_true (Int.not_lt.mpr hexp)
  · rw [if_neg hexp]
    exact iff_of_true rfl (Int.not_le.mp hexp)

theorem send_reply_ok (hwk : world.Works)
    (body : List UInt8) : (w.send world (.message (.protocolReply body false false))).2 = none ↔
      body.length ≤ w.maxEncodedBytes ∧ world.clock 0 < world.sent + ttl := by
  unfold send
  rw [hwk.snapshotError]
  by_cases hft : body.length ≤ w.maxEncodedBytes
  · have hass : assignFrame (w.writerEnv world) w.snapshot (.message (.protocolReply body false false)) =
        some ([], ⟨nextMessageID (w.source w.drawn) false, 0, w.snapshot.serverSeqNo * 2, false, body⟩,
          w.snapshot) := by
      simp [assignFrame, assignMessage, encodeIntentBodyBounded, bounded, writerEnv,
        Nat.not_lt.mpr hft, nextSequenceNo, responseRequestID]
    unfold prepare
    rw [hass]
    obtain ⟨frame, hfrm⟩ := isSome_iff_exists.mp (hwk.encrypt ⟨w.snapshot.serverSalt,
      w.snapshot.sessionID, nextMessageID (w.source w.drawn) false, w.snapshot.serverSeqNo * 2, body⟩
      w.snapshot.authKeyID)
    have henv : (w.writerEnv world).encrypt = world.encrypt := rfl
    simp only [bind_eq_bind, bind_some, henv, hfrm, pure_def, List.nil_append]
    unfold commit
    rw [hwk.saveError, hwk.written]
    dsimp only
    rw [← retain_one_ok hsto frame ⟨nextMessageID (w.source w.drawn) false, 0,
      w.snapshot.serverSeqNo * 2, false, body⟩]
    split
    next hret => exact iff_of_true rfl ⟨hft, hret⟩
    next hret => exact iff_of_false (some_ne_none _) fun h => hret h.2
  · have hass : assignFrame (w.writerEnv world) w.snapshot (.message (.protocolReply body false false)) =
        none := by
      simp [assignFrame, assignMessage, encodeIntentBodyBounded, bounded, writerEnv, Nat.lt_of_not_le hft]
    unfold prepare
    rw [hass]
    exact iff_of_false (some_ne_none _) fun h => hft h.1

theorem resendAll_refines (k : Nat) (ids : List Int) :
    ∃ m', (resendAll world k w ids).1.store.Refines capacity ttl m' := by
  induction ids generalizing k w m with
  | nil => exact ⟨m, hsto⟩
  | cons id rest ih =>
    obtain ⟨-, hmid⟩ := hsto.lookupForResend (world.clock k) id
    unfold resendAll
    dsimp only
    split
    · exact ⟨_, hmid⟩
    rename_i retained _
    cases hwri : world.written k with
    | false => exact ⟨_, hmid⟩
    | true => exact ih (by exact hmid) (k + 1)

end

theorem send_refines (hpos : 0 < capacity) (hsto : w.store.Refines capacity ttl m) (intent : Intent) :
    ∃ m', (w.send world intent).1.store.Refines capacity ttl m' := by
  unfold send
  split
  · exact ⟨m, hsto⟩
  split
  · exact ⟨m, hsto⟩
  rename_i prepared next _
  unfold commit
  split
  · exact ⟨m, hsto⟩
  obtain ⟨m', hm', -⟩ := hsto.retainMessages hpos prepared.frame world.sentAt world.clock prepared.messages
  dsimp only
  split
  · exact ⟨m', hm'⟩
  · exact ⟨m', hm'⟩

theorem processRequest_refines (world : RequestWorld) (hpos : 0 < capacity)
    (hsto : w.store.Refines capacity ttl m) (operation : WriterOperation) :
    ∃ m', (w.processRequest world operation).1.store.Refines capacity ttl m' := by
  cases operation with
  | submit intent =>
    cases intent with
    | message x => exact send_refines hpos hsto (.message x)
    | batch items => exact send_refines hpos hsto (.batch items)
    | resend ids => exact resendAll_refines hsto 0 ids
    | close => exact ⟨m, hsto⟩
  | acknowledge ids =>
    unfold processRequest
    dsimp only
    split
    · exact ⟨m, hsto⟩
    obtain ⟨m', hm', -⟩ := hsto.acknowledgeAll world.clock ids
    exact ⟨m', hm'⟩
  | inspect id =>
    unfold processRequest
    dsimp only
    split
    · exact ⟨m, hsto⟩
    · exact ⟨_, hsto.expireLocked (world.clock 0)⟩
  | replayResponse requestID =>
    have hmid := hsto.expireLocked (world.clock 0)
    unfold processRequest
    dsimp only
    split
    · exact ⟨m, hsto⟩
    split
    · exact ⟨_, hmid⟩
    split
    · exact ⟨_, hmid⟩
    cases world.written 0 with
    | false => exact ⟨_, hmid⟩
    | true => exact ⟨_, hmid⟩

end SerialWriter

theorem serializeMsgsStateInfo_some (requestID : Int) {info : List UInt8}
    (h : info.length ≤ maxMessageStateIDs) :
    ∃ body, serializeMsgsStateInfo requestID info = some body ∧ 4 ≤ body.length := by
  have hinf : info.length ≤ 8192 := h
  have hmax : maxTLBytesLength = 16777215 := by decide
  have hlim : normalizeMaxEncodedBytes 0 = 16777216 := by decide
  have hwrt : ∃ text, writeBytes info = some text ∧ text.length ≤ 8200 := by
    unfold writeBytes
    split
    · exact ⟨_, rfl, by simp; omega⟩
    rw [if_neg (by omega)]
    exact ⟨_, rfl, by simp [length_leBytes]; omega⟩
  obtain ⟨text, htx, hlen⟩ := hwrt
  have hbd : (leBytes 4 msgsStateInfoID.toNat ++ int64Bytes requestID ++ text).length =
      12 + text.length := by
    simp only [List.length_append, int64Bytes, length_leBytes]
  refine ⟨leBytes 4 msgsStateInfoID.toNat ++ int64Bytes requestID ++ text, ?_, by omega⟩
  unfold serializeMsgsStateInfo bounded
  rw [htx, bind_eq_bind, bind_some, if_neg (by omega)]

namespace ResendRoute

variable {capacity ttl : Int} {r r' : ResendRoute} {m : RetainedMap} {world : RequestWorld}

/-- Nothing was asked for; or all of it is eligible, distinct and retained; or the reply fits. -/
def Served (r : ResendRoute) (m : RetainedMap) (ttl : Int) (world : RequestWorld) : Prop :=
  r.messageIDs = [] ∨
  (r.allEligible = true ∧ 0 ∉ r.messageIDs ∧ r.messageIDs.Nodup ∧
    ∀ i id, r.messageIDs[i]? = some id → ∃ e, m.entries id = some e ∧ e.message.acknowledged = false ∧
      ∀ j ≤ i, world.clock j < e.expiresAt) ∨
  (r.allEligible = false ∧
    (∀ body, serializeMsgsStateInfo r.requestID (r.states.map OutboundReliabilityState.info) = some body →
      body.length ≤ r.writer.maxEncodedBytes) ∧ world.clock 0 < world.sent + ttl)

structure Valid (capacity ttl : Int) (messageIDs : List Int) (r : ResendRoute) : Prop where
  store : ∃ m, r.writer.store.Refines capacity ttl m
  states : r.states.length ≤ messageIDs.length
  asked : r.messageIDs = messageIDs

theorem inspect_served (hwk : world.Works) (hst : r.step (.inspect world) = some r') :
    r'.result = none ∧ r'.writer.stopped = false := by
  obtain ⟨hgoes, hst⟩ := ite_none_left_eq_some.mp hst
  obtain ⟨id, -, rfl⟩ := map_eq_some_iff.mp hst
  have hcn := hwk.canceled
  simp only [not_or, not_isSome_iff_eq_none] at hgoes
  simp [processRequest, hcn, hgoes.1]

theorem submit_result (r : ResendRoute) (world : RequestWorld) (intent : Intent)
    (hval : validateIntent intent = true) (hclo : intent ≠ .close) :
    ((r.submit world intent).result = some true ∧ (r.submit world intent).writer.stopped = false) ↔
      (r.writer.process world intent).2.2 = none := by
  have hst : (r.writer.process world intent).2.1 = false := by
    cases intent with
    | close => exact absurd rfl hclo
    | message x => rfl
    | batch items => rfl
    | resend ids => rfl
  unfold submit processRequest
  rw [if_pos hval]
  dsimp only
  rw [hst]
  cases (r.writer.process world intent).2.2 <;> simp

theorem apply_served {messageIDs : List Int} (hmax : messageIDs.length ≤ maxMessageStateIDs)
    (hval : r.Valid capacity ttl messageIDs) (hsto : r.writer.store.Refines capacity ttl m)
    (hwk : world.Works) (hst : r.step (.apply world) = some r') :
    (r'.result = some true ∧ r'.writer.stopped = false) ↔ r.Served m ttl world := by
  obtain ⟨hgoes, hst⟩ := ite_none_left_eq_some.mp hst
  simp only [not_or, Bool.not_eq_true] at hgoes
  obtain ⟨body, hbd, hlen⟩ := serializeMsgsStateInfo_some r.requestID
    (show (r.states.map OutboundReliabilityState.info).length ≤ maxMessageStateIDs by
      rw [List.length_map]
      exact hval.states.trans hmax)
  unfold outcome at hst
  unfold Served
  by_cases hemp : r.messageIDs = []
  · rw [if_pos hemp] at hst
    cases hst
    exact iff_of_true ⟨rfl, hgoes.2.1⟩ (.inl hemp)
  rw [if_neg hemp] at hst
  cases heli : r.allEligible with
  | true =>
    rw [heli, if_pos rfl] at hst
    cases hst
    have hres := resendAll_ok hsto hwk 0 r.messageIDs
    simp only [Nat.zero_add] at hres
    have hids : validateMessageIDs r.messageIDs = true ↔ 0 ∉ r.messageIDs ∧ r.messageIDs.Nodup := by
      simp [validateMessageIDs, hemp]
    simp only [hemp, false_or, true_and, Bool.true_eq_false, false_and, or_false]
    by_cases hok : validateMessageIDs r.messageIDs = true
    · rw [submit_result r world (.resend r.messageIDs) hok Intent.noConfusion]
      exact hres.trans ⟨fun h => ⟨(hids.mp hok).1, (hids.mp hok).2, h⟩, fun h => h.2.2⟩
    have href : r.submit world (.resend r.messageIDs) = { r with result := some false } := if_neg hok
    rw [href]
    exact iff_of_false (fun h => nomatch h.1) fun h => hok (hids.mpr ⟨h.1, h.2.1⟩)
  | false =>
    rw [heli, if_neg Bool.false_ne_true, hbd] at hst
    cases hst
    rw [submit_result r world _ (by simpa [validateIntent, MessageIntent.validate] using hlen)
      Intent.noConfusion]
    have hsn := send_reply_ok hsto hwk body
    simp only [hemp, hbd, false_or, Bool.false_eq_true, false_and, true_and, Option.some.injEq, forall_eq']
    exact hsn

theorem Valid.step {messageIDs : List Int} (hpos : 0 < capacity) (h : r.Valid capacity ttl messageIDs)
    {op : ResendOp} (hst : r.step op = some r') : r'.Valid capacity ttl messageIDs := by
  obtain ⟨m, hsto⟩ := h.store
  cases op with
  | other op =>
    obtain ⟨writer, hwr, rfl⟩ := map_eq_some_iff.mp hst
    refine ⟨?_, h.states, h.asked⟩
    cases op with
    | request operation world =>
      obtain ⟨-, hwr⟩ := ite_none_left_eq_some.mp hwr
      cases hwr
      exact processRequest_refines _ hpos hsto operation
    | saveOther next =>
      cases hwr
      exact ⟨m, hsto⟩
  | inspect world =>
    obtain ⟨-, hst⟩ := ite_none_left_eq_some.mp hst
    obtain ⟨id, hid, rfl⟩ := map_eq_some_iff.mp hst
    have hmr : r.states.length < messageIDs.length := by
      rw [← h.asked]
      exact (List.getElem?_eq_some_iff.mp hid).1
    have haft := processRequest_refines world hpos hsto (.inspect id)
    dsimp only
    split
    · exact ⟨haft, h.states, h.asked⟩
    refine ⟨haft, ?_, h.asked⟩
    rw [List.length_append, List.length_singleton]
    exact hmr
  | apply world =>
    obtain ⟨-, hst⟩ := ite_none_left_eq_some.mp hst
    split at hst
    · cases hst
      exact ⟨h.store, h.states, h.asked⟩
    · cases hst
      exact ⟨h.store, h.states, h.asked⟩
    rename_i intent _
    cases hst
    unfold submit
    split
    · exact ⟨processRequest_refines _ hpos hsto (.submit intent), h.states, h.asked⟩
    · exact ⟨h.store, h.states, h.asked⟩

/-- The inspections fail nothing, and the outcome is applied without an error or an end of the
writer exactly under `Served`. -/
theorem resend_served_exact (hpos : 0 < capacity) {w : SerialWriter} {before : RetainedMap}
    (hstore : w.store.Refines capacity ttl before) {requestID : Int} {messageIDs : List Int}
    (hmax : messageIDs.length ≤ maxMessageStateIDs) {ops : List ResendOp} {r : ResendRoute}
    (hrun : exec step (start w requestID messageIDs) ops = some r) :
    ∃ m, r.writer.store.Refines capacity ttl m ∧
      (∀ world r', world.Works → r.step (.inspect world) = some r' →
        r'.result = none ∧ r'.writer.stopped = false) ∧
      ∀ world r', world.Works → r.step (.apply world) = some r' →
        ((r'.result = some true ∧ r'.writer.stopped = false) ↔ r.Served m ttl world) := by
  have hsty : ∀ (u : ResendRoute) (op : ResendOp) (u' : ResendRoute), u.Valid capacity ttl messageIDs →
      u.step op = some u' → u'.Valid capacity ttl messageIDs := fun _ _ _ h hsp => h.step hpos hsp
  have hst : (start w requestID messageIDs).Valid capacity ttl messageIDs :=
    ⟨⟨before, hstore⟩, Nat.zero_le _, rfl⟩
  have hval := exec_inductive hsty hst hrun
  obtain ⟨m, hm⟩ := hval.store
  exact ⟨m, hm, fun _ _ hwk hsp => inspect_served hwk hsp,
    fun _ _ hwk hsp => apply_served hmax hval hm hwk hsp⟩

open SerialWriter (plainWriter plainWorld emptyStore answer)

theorem plainWorld_works : plainWorld.Works :=
  ⟨rfl, rfl, rfl, fun _ _ => rfl, fun _ => rfl⟩

/-- A retained answer is asked for and sent again. -/
theorem resend_served_exact_retained : ∃ r m,
    exec step (start (plainWriter fun k => 4 * k) 16 [1]) [.other (answer 12 [1]), .inspect plainWorld] =
      some r ∧ r.Served m 100 plainWorld := by
  have hres : ((exec step (start (plainWriter fun k => 4 * k) 16 [1])
      [.other (answer 12 [1]), .inspect plainWorld]).bind fun r => (r.step (.apply plainWorld)).map
        fun r' => (r'.result, r'.writer.stopped)) = some (some true, false) := by
    decide +kernel
  obtain ⟨r, hrun, happ⟩ := bind_eq_some_iff.mp hres
  obtain ⟨r', hst, hres⟩ := map_eq_some_iff.mp happ
  have hsto : (plainWriter fun k => 4 * k).store.Refines 4 100 .empty :=
    (@ReliabilityStore.new_refines ⟨4, 100⟩ emptyStore rfl).2
  obtain ⟨m, -, -, hser⟩ := resend_served_exact (by decide) hsto (by decide) hrun
  exact ⟨r, m, hrun, (hser plainWorld r' plainWorld_works hst).mp (Prod.mk.inj hres)⟩

/-- The answer is acknowledged between inspection and `Submit`, and the writer ends. An answer asked
for twice is refused too. -/
theorem acknowledged_resend_ends_writer :
    (exec step (start (plainWriter fun k => 4 * k) 16 [1]) [.other (answer 12 [1]), .inspect plainWorld,
      .other (.request (.acknowledge [1]) plainWorld), .apply plainWorld]).map
        (fun r => (r.result, r.writer.stopped)) = some (some false, true) ∧
    (exec step (start (plainWriter fun k => 4 * k) 16 [1, 1]) [.other (answer 12 [1]), .inspect plainWorld,
      .inspect plainWorld, .apply plainWorld]).map
        (fun r => (r.result, r.writer.stopped)) = some (some false, false) := by
  decide +kernel

end ResendRoute

end Tlrpc
