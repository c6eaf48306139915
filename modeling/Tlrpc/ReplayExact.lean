import Tlrpc.ApplicationResult
import Tlrpc.SessionSteps
import Tlrpc.WriterRequests

namespace Tlrpc

open List Function Option RetainedMap ReliabilityStore SerialWriter

/-- The message went out first here; unless acknowledged, nothing has acknowledged it since. -/
def SentFirstIn (acknowledged : Bool) (events : List WriterEvent) (x : AssignedMessage)
    (frame : List UInt8) : Prop :=
  ∃ before sent after, events = before ++ .write ⟨.messages sent, frame, true⟩ :: after ∧ x ∈ sent ∧
    (∀ e ∈ before, ¬ e.carries x.messageID) ∧
    (acknowledged = false → ∀ e ∈ after, ¬ e.acknowledges x.messageID)

/-- How an event agrees with those before it. -/
def WriterEvent.Exact (before : List WriterEvent) : WriterEvent → Prop
  | .write ⟨.messages sent, frame, _⟩ =>
    ∃ env snapshot intent next, prepare env snapshot intent = some (⟨sent, frame⟩, next)
  | .write ⟨.resend messageID, frame, _⟩ =>
    ∃ x : AssignedMessage, x.messageID = messageID ∧ SentFirstIn false before x frame
  | .write ⟨.replay requestID messageID, frame, _⟩ =>
    ∃ x : AssignedMessage, x.messageID = messageID ∧
      (∃ result, x.body = serializeRPCResult requestID result) ∧ SentFirstIn false before x frame
  | .acknowledged _ => True

variable {events : List WriterEvent} {frame : List UInt8} {x : AssignedMessage}

theorem SentFirstIn.concat {acknowledged : Bool}
    {e : WriterEvent} (h : SentFirstIn acknowledged events x frame)
    (he : acknowledged = false → ¬ e.acknowledges x.messageID) :
    SentFirstIn acknowledged (events ++ [e]) x frame := by
  obtain ⟨before, sent, after, rfl, hx, hfst, haft⟩ := h
  refine ⟨before, sent, after ++ [e], by simp, hx, hfst, fun hack e' he' => ?_⟩
  rcases mem_append.mp he' with hold | hnew
  · exact haft hack e' hold
  · rw [mem_singleton.mp hnew]
    exact he hack

theorem SentFirstIn.acknowledged {a : Bool} (h : SentFirstIn a events x frame) :
    SentFirstIn true events x frame := by
  obtain ⟨before, sent, after, heq, hx, hfst, _⟩ := h
  exact ⟨before, sent, after, heq, hx, hfst, fun hack => absurd hack (by decide)⟩

/-- Every entry of the map stems from a frame that has been written. -/
def Tracked (events : List WriterEvent) (m : RetainedMap) : Prop :=
  ∀ id e, m.entries id = some e → ∃ x : AssignedMessage, x.messageID = id ∧
    x.requestMessageID = e.message.requestMessageID ∧
    SentFirstIn e.message.acknowledged events x e.message.payload

theorem Tracked.live {m : RetainedMap} (h : Tracked events m) (now : Time) : Tracked events (m.live now) :=
  fun id e he => h id e (live_some he)

variable {event : WriterEvent} {message : SentMessage} {x : AssignedMessage} {s : ReliabilityStore}

theorem Tracked.concat {m : RetainedMap} (h : Tracked events m) (heve : ∀ id, ¬ event.acknowledges id) :
    Tracked (events ++ [event]) m := by
  intro id e he
  obtain ⟨x, hid, hreq, hsn⟩ := h id e he
  exact ⟨x, hid, hreq, hsn.concat (fun _ => heve _)⟩

section

variable {capacity ttl : Int} {s : ReliabilityStore} {m : RetainedMap} {e : Retained} {id : Int}

theorem ReliabilityStore.Refines.entry_id (h : s.Refines capacity ttl m)
    (he : m.entries id = some e) : e.message.messageID = id := by
  have hcn := h.represents.contents id
  rw [he, map_some] at hcn
  exact h.consistent.contents_id hcn

/-- What is retained was retained before, unacknowledged only if no acknowledgement came. -/
theorem ReliabilityStore.Refines.acknowledgeAll (h : s.Refines capacity ttl m) (clock : Nat → Time)
    (ids : List Int) : ∃ m', (acknowledgeAll clock s ids).Refines capacity ttl m' ∧
      ∀ id e', m'.entries id = some e' → ∃ e, m.entries id = some e ∧
        e'.message.requestMessageID = e.message.requestMessageID ∧ e'.message.payload = e.message.payload ∧
        (e'.message.acknowledged = false → e.message.acknowledged = false ∧ id ∉ ids) := by
  induction ids generalizing clock s m with
  | nil =>
    exact ⟨m, h, fun id e he => ⟨e, he, rfl, rfl, fun hack => ⟨hack, not_mem_nil⟩⟩⟩
  | cons first rest ih =>
    obtain ⟨mid, hst, hmid⟩ := h.acknowledge (clock 0) first
    obtain ⟨m', hm', hall⟩ := ih hmid (fun k => clock (k + 1))
    generalize (s.acknowledge (clock 0) first).1 = known at hst
    refine ⟨m', hm', fun id e' he' => ?_⟩
    obtain ⟨e, he, hreq, hpl, hack⟩ := hall id e' he'
    cases hst with
    | acknowledgeUnknown hno =>
      refine ⟨e, live_some he, hreq, hpl, fun h0 => ?_⟩
      refine ⟨(hack h0).1, fun hmem => ?_⟩
      rcases mem_cons.mp hmem with rfl | hmem
      · rw [hno] at he
        cases he
      · exact (hack h0).2 hmem
    | @acknowledge _ _ old hold =>
      dsimp only [RetainedMap.acknowledge] at he
      by_cases hid : id = first
      · subst hid
        rw [update_self] at he
        cases he
        exact ⟨old, live_some hold, hreq, hpl, fun h0 => nomatch (hack h0).1⟩
      rw [update_of_ne hid] at he
      refine ⟨e, live_some he, hreq, hpl, fun h0 => ⟨(hack h0).1, ?_⟩⟩
      intro hmem
      rcases mem_cons.mp hmem with heq | hmem
      · exact hid heq
      · exact (hack h0).2 hmem

theorem RetainedMap.store_some {expiresAt : Time} (h : (m.store message expiresAt).entries id = some e) :
    m.entries id = some e ∨ id = message.messageID ∧ e.message = message := by
  dsimp only [store] at h
  by_cases hid : id = message.messageID
  · rw [hid, update_self] at h
    cases h
    exact .inr ⟨hid, rfl⟩
  · rw [update_of_ne hid] at h
    exact .inl h

theorem SentMessage.stamped_eq (message : SentMessage) (now : Time) :
    ∃ sentAt, message.stamped now = { message with sentAt := sentAt } := by
  unfold stamped
  split
  · exact ⟨now, rfl⟩
  · exact ⟨message.sentAt, rfl⟩

theorem RetainedMap.Step.put_some {m' : RetainedMap} {now : Time} {result : StoreResult}
    (h : m.Step capacity ttl ⟨now, .put message, result⟩ m') (he : m'.entries id = some e) :
    m.entries id = some e ∨ id = message.messageID ∧
      ∃ sentAt, e.message = { message with sentAt := sentAt } := by
  obtain ⟨sentAt, hsta⟩ := message.stamped_eq now
  have hsto : ∀ (base : RetainedMap) expiresAt,
      (base.store (message.stamped now) expiresAt).entries id = some e →
      (base.entries id = some e → m.entries id = some e) →
      m.entries id = some e ∨ id = message.messageID ∧
        ∃ sentAt, e.message = { message with sentAt := sentAt } := by
    intro base expiresAt h hbs
    rw [hsta] at h
    rcases store_some h with hold | ⟨hid, hmsg⟩
    · exact .inl (hbs hold)
    · exact .inr ⟨hid, sentAt, hmsg⟩
  cases h with
  | putExpired => exact .inl (live_some he)
  | putKnown => exact hsto _ _ he live_some
  | putNew => exact hsto _ _ he live_some
  | putEvict => exact hsto _ _ he (fun h => live_some (drop_some h))

theorem ReliabilityStore.Refines.retainMessages (hpos : 0 < capacity) (h : s.Refines capacity ttl m)
    (frame : List UInt8) (sentAt : Time) (clock : Nat → Time) (messages : List AssignedMessage) :
    ∃ m', (retainMessages frame sentAt clock s messages).2.Refines capacity ttl m' ∧
      ∀ id e, m'.entries id = some e → m.entries id = some e ∨
        e.message.payload = frame ∧ e.message.acknowledged = false ∧
        ∃ x ∈ messages, x.messageID = id ∧ x.requestMessageID = e.message.requestMessageID := by
  induction messages generalizing clock s m with
  | nil => exact ⟨m, h, fun id e he => .inl he⟩
  | cons first rest ih =>
    obtain ⟨mid, hst, hmid⟩ := h.put hpos (clock 0)
      ⟨first.messageID, first.requestMessageID, first.sequenceNo, frame, sentAt, false⟩
    have hfst : ∀ id e, mid.entries id = some e → m.entries id = some e ∨
        e.message.payload = frame ∧ e.message.acknowledged = false ∧ ∃ x ∈ first :: rest,
          x.messageID = id ∧ x.requestMessageID = e.message.requestMessageID := by
      intro id e he
      rcases hst.put_some he with hold | ⟨hid, _, hmsg⟩
      · exact .inl hold
      · rw [hmsg]
        exact .inr ⟨rfl, rfl, first, mem_cons_self, hid.symm, rfl⟩
    unfold Tlrpc.retainMessages
    cases hput : s.put (clock 0)
      ⟨first.messageID, first.requestMessageID, first.sequenceNo, frame, sentAt, false⟩ with
    | mk result t =>
      rw [hput] at hmid
      cases result with
      | error err => exact ⟨mid, hmid, hfst⟩
      | ok evicted =>
        obtain ⟨m', hm', hall⟩ := ih hmid (fun k => clock (k + 1))
        refine ⟨m', hm', fun id e he => ?_⟩
        rcases hall id e he with hold | ⟨hpl, hack, x, hx, hid⟩
        · exact hfst id e hold
        · exact .inr ⟨hpl, hack, x, mem_cons_of_mem first hx, hid⟩

end

section

variable {env : WriterEnv} {snapshot next : Snapshot} {intent : Intent} {prepared : PreparedFrame}

theorem assignMessage_response {maxBytes : Nat} {source : Int} {intent : MessageIntent}
    (h : assignMessage maxBytes source snapshot intent = some (x, next)) :
    (∃ push, x.messageID = nextMessageID source push) ∧ (x.requestMessageID ≠ 0 →
      ∃ result, x.body = serializeRPCResult x.requestMessageID result) := by
  obtain ⟨encoded, henc, h⟩ := bind_eq_some_iff.mp h
  cases h
  refine ⟨⟨encoded.push, rfl⟩, fun hrs => ?_⟩
  cases intent with
  | rpcResult requestMessageID body =>
    obtain ⟨_, _, h⟩ := bind_eq_some_iff.mp henc
    obtain ⟨whole, hwh, h⟩ := bind_eq_some_iff.mp h
    cases h
    exact ⟨_, (bounded_eq_some.mp hwh).2⟩
  | rpcError requestMessageID code message =>
    obtain ⟨_, _, h⟩ := bind_eq_some_iff.mp henc
    obtain ⟨_, _, h⟩ := bind_eq_some_iff.mp h
    obtain ⟨whole, hwh, h⟩ := bind_eq_some_iff.mp h
    cases h
    exact ⟨_, (bounded_eq_some.mp hwh).2⟩
  | protocolReply => exact absurd rfl hrs
  | acknowledge => exact absurd rfl hrs
  | push => exact absurd rfl hrs

/-- Where a message's ID comes from; one with a request ID is an `rpc_result` for it. -/
def Assigned (ids : Nat → Int) (count : Nat) (x : AssignedMessage) : Prop :=
  (∃ k < count, ∃ push, x.messageID = nextMessageID (ids k) push) ∧ (x.requestMessageID ≠ 0 →
    ∃ result, x.body = serializeRPCResult x.requestMessageID result)

theorem assignMessages_assigned {maxBytes : Nat} {ids : Nat → Int} {items : List MessageIntent}
    {assigned : List AssignedMessage}
    (h : assignMessages maxBytes ids snapshot items = some (assigned, next)) :
    assigned.length = items.length ∧ ∀ x ∈ assigned, Assigned ids items.length x := by
  induction items generalizing ids snapshot assigned with
  | nil =>
    cases h
    exact ⟨rfl, fun x hx => absurd hx not_mem_nil⟩
  | cons intent rest ih =>
    obtain ⟨first, mid, others, hfst, hoth, rfl⟩ := assignMessages_cons h
    obtain ⟨hlen, hall⟩ := ih hoth
    refine ⟨by rw [length_cons, length_cons, hlen], fun x hx => ?_⟩
    rcases mem_cons.mp hx with rfl | hx
    · obtain ⟨hid, hrs⟩ := assignMessage_response hfst
      exact ⟨⟨0, Nat.succ_pos _, hid⟩, hrs⟩
    · obtain ⟨⟨k, hk, hid⟩, hrs⟩ := hall x hx
      exact ⟨⟨k + 1, Nat.succ_lt_succ hk, hid⟩, hrs⟩

theorem prepare_assigned (h : prepare env snapshot intent = some (prepared, next)) :
    ∀ x ∈ prepared.messages, Assigned env.ids prepared.messages.length x := by
  obtain ⟨⟨children, outer, last⟩, hfrm, h⟩ := bind_eq_some_iff.mp h
  obtain ⟨frame, _, h⟩ := bind_eq_some_iff.mp h
  cases h
  intro x hx
  rcases assignFrame_cases hfrm with ⟨m, rfl, rfl, hm⟩ | ⟨items, rfl, _, hite, hid, hz, _⟩
  · rw [nil_append, mem_singleton] at hx
    subst hx
    obtain ⟨hid, hrs⟩ := assignMessage_response hm
    exact ⟨⟨0, Nat.one_pos, hid⟩, hrs⟩
  obtain ⟨hlen, hall⟩ := assignMessages_assigned hite
  have hcnt : (children ++ [outer]).length = items.length + 1 := by
    rw [length_append, hlen]
    rfl
  rw [hcnt]
  rcases mem_append.mp hx with hx | hx
  · obtain ⟨⟨k, hk, hchi⟩, hrs⟩ := hall x hx
    exact ⟨⟨k, by omega, hchi⟩, hrs⟩
  · rw [mem_singleton.mp hx]
    exact ⟨⟨items.length, by omega, false, hid⟩, fun hne => absurd hz hne⟩

end

theorem nextMessageID_source {a b : Int} {p q : Bool} (h : nextMessageID a p = nextMessageID b q) :
    a / 4 = b / 4 := by
  unfold nextMessageID at h
  split at h <;> split at h <;> omega

def OnlyExpired (clock : Nat → Time) (s s' : ReliabilityStore) : Prop :=
  ∀ id, s'.contents id = s.contents id ∨
    ∃ e k, s.contents id = some e ∧ s'.contents id = none ∧ e.expiresAt ≤ clock k

theorem OnlyExpired.expireLocked {clock : Nat → Time} {t : ReliabilityStore}
    (h : OnlyExpired clock s t) (ht : t.Consistent) (k : Nat) :
    OnlyExpired clock s (t.expireLocked (clock k)).1 := by
  obtain ⟨_, hlv, _⟩ := ht.expireLocked (clock k)
  intro id
  rw [hlv]
  unfold ReliabilityStore.live
  rcases h id with hsm | ⟨e, j, he, hno, hexp⟩
  · rw [hsm]
    cases he : s.contents id with
    | none => exact .inl rfl
    | some e =>
      rw [filter_some]
      by_cases hlat : clock k < e.expiresAt
      · exact .inl (if_pos (decide_eq_true hlat))
      · exact .inr ⟨e, k, rfl, if_neg (by simpa using hlat), not_lt.mp hlat⟩
  · rw [hno]
    exact .inr ⟨e, j, he, rfl, hexp⟩

theorem SentFirstIn.response {a : Bool}
    (h : SentFirstIn a events x frame) (hlog : Logged WriterEvent.Exact events)
    (hrs : x.requestMessageID ≠ 0) : ∃ result, x.body = serializeRPCResult x.requestMessageID result := by
  obtain ⟨before, sent, after, heq, hx, _⟩ := h
  obtain ⟨env, snapshot, intent, next, hprepare⟩ := hlog before _ after heq
  exact (prepare_assigned hprepare x hx).2 hrs

namespace SerialWriter

variable {capacity ttl : Int} {w w' : SerialWriter} {world : RequestWorld}

/-- Frames, acknowledgements and retained messages of a running writer agree. -/
structure Agrees (capacity ttl : Int) (w : SerialWriter) (m : RetainedMap) : Prop where
  refines : w.store.Refines capacity ttl m
  tracked : Tracked w.events m
  exact : Logged WriterEvent.Exact w.events

structure Repeated (clock : Nat → Time) (w w' : SerialWriter) : Prop where
  source : w'.source = w.source
  drawn : w'.drawn = w.drawn
  snapshot : w'.snapshot = w.snapshot
  store : OnlyExpired clock w.store w'.store
  events : ∀ e ∈ w'.events, e ∈ w.events ∨ ∀ id, ¬ e.carries id

theorem Repeated.refl (clock : Nat → Time) (w : SerialWriter) : Repeated clock w w :=
  ⟨rfl, rfl, rfl, fun _ => .inl rfl, fun _ he => .inl he⟩

variable {clock : Nat → Time} {m : RetainedMap} {source : Nat → Int}

theorem Repeated.expire (h : Repeated clock w w') (hw : w'.store.Consistent)
    (k : Nat) (hs : s = (w'.store.expireLocked (clock k)).1) : Repeated clock w { w' with store := s } := by
  subst hs
  exact ⟨h.source, h.drawn, h.snapshot, h.store.expireLocked hw k, h.events⟩

theorem Repeated.log (h : Repeated clock w w') {e : WriterEvent}
    (he : ∀ id, ¬ e.carries id) : Repeated clock w (w'.log e) := by
  refine ⟨h.source, h.drawn, h.snapshot, h.store, fun e' he' => ?_⟩
  rcases mem_append.mp he' with hold | hnew
  · exact h.events e' hold
  · rw [mem_singleton.mp hnew]
    exact .inr he

theorem lookupForResend_store (s : ReliabilityStore) (now : Time) (id : Int) :
    (s.lookupForResend now id).2 = (s.expireLocked now).1 := by
  unfold lookupForResend
  dsimp only
  split
  · rfl
  · split <;> rfl

theorem Agrees.expire (h : w.Agrees capacity ttl m) (now : Time) (hs : s = (w.store.expireLocked now).1) :
    Agrees capacity ttl { w with store := s } (m.live now) := by
  subst hs
  exact ⟨h.refines.expireLocked now, h.tracked.live now, h.exact⟩

theorem Agrees.log (h : w.Agrees capacity ttl m)
    (hexa : event.Exact w.events) (heve : ∀ id, ¬ event.acknowledges id) :
    (w.log event).Agrees capacity ttl m :=
  ⟨h.refines, h.tracked.concat heve, h.exact.concat hexa⟩

theorem resendAll_agrees (h : w'.Agrees capacity ttl m)
    (hrep : Repeated world.clock w w') (k : Nat) (ids : List Int) :
    (∃ m', (resendAll world k w' ids).1.Agrees capacity ttl m') ∧
      Repeated world.clock w (resendAll world k w' ids).1 := by
  induction ids generalizing k w' m with
  | nil => exact ⟨⟨m, h⟩, hrep⟩
  | cons id rest ih =>
    have hfd := (h.refines.lookupForResend (world.clock k) id).1
    have hsto := lookupForResend_store w'.store (world.clock k) id
    have hmid := h.expire (world.clock k) hsto
    have hrep := hrep.expire h.refines.consistent k hsto
    unfold resendAll
    dsimp only
    rw [hfd]
    cases hent : (m.live (world.clock k)).entries id with
    | none => exact ⟨⟨_, hmid⟩, hrep⟩
    | some e =>
      cases hack : e.message.acknowledged with
      | true =>
        rw [map_some, filter_some, hack]
        exact ⟨⟨_, hmid⟩, hrep⟩
      | false =>
        rw [map_some, filter_some, hack]
        obtain ⟨x, hid, _, hsn⟩ := hmid.tracked id e hent
        rw [hack] at hsn
        generalize world.written k = ok
        have hexa : WriterEvent.Exact w'.events (.write ⟨.resend id, e.message.payload, ok⟩) :=
          ⟨x, hid, hsn⟩
        have hnx := hmid.log hexa (fun _ h => h)
        have hrep := hrep.log (e := .write ⟨.resend id, e.message.payload, ok⟩) (fun _ h => h)
        cases ok with
        | false => exact ⟨⟨_, hnx⟩, hrep⟩
        | true => exact ih hnx hrep (k + 1)

theorem replayResponse_agrees (world : RequestWorld) (h : w.Agrees capacity ttl m) (requestID : Int) :
    (∃ m', (w.processRequest world (.replayResponse requestID)).1.Agrees capacity ttl m') ∧
      Repeated world.clock w (w.processRequest world (.replayResponse requestID)).1 := by
  have hmid := h.expire (world.clock 0) rfl
  have hrep := (Repeated.refl world.clock w).expire h.refines.consistent 0 rfl
  have hnew := hmid.refines.represents.newest requestID world.order
  unfold processRequest lookupResponse
  dsimp only
  generalize ((world.order.visit _).map _).foldl _ none = found at hnew ⊢
  split
  · exact ⟨⟨m, h⟩, .refl _ w⟩
  cases found with
  | none => exact ⟨⟨_, hmid⟩, hrep⟩
  | some message =>
    obtain ⟨⟨hz, hreq, id, e, hent, rfl⟩, _⟩ := hnew
    dsimp only
    cases hack : e.message.acknowledged with
    | true => exact ⟨⟨_, hmid⟩, hrep⟩
    | false =>
      obtain ⟨x, hid, hxre, hsn⟩ := hmid.tracked id e hent
      rw [hack] at hsn
      rw [hreq] at hxre
      have hbd := hsn.response h.exact (by rw [hxre]; exact hz)
      rw [hxre] at hbd
      generalize world.written 0 = ok
      have hexa : WriterEvent.Exact w.events
          (.write ⟨.replay requestID e.message.messageID, e.message.payload, ok⟩) :=
        ⟨x, hid.trans (hmid.refines.entry_id hent).symm, hbd, hsn⟩
      have hnx := hmid.log hexa (fun _ h => h)
      have hrep := hrep.log (e := .write ⟨.replay requestID e.message.messageID, e.message.payload, ok⟩)
        (fun _ h => h)
      cases ok with
      | false => exact ⟨⟨_, hnx⟩, hrep⟩
      | true => exact ⟨⟨_, hnx⟩, hrep⟩

theorem acknowledge_agrees (h : w.Agrees capacity ttl m) (clock : Nat → Time)
    (ids : List Int) : ∃ m', Agrees capacity ttl
      ({ w with store := acknowledgeAll clock w.store ids }.log (.acknowledged ids)) m' := by
  obtain ⟨m', hm', hall⟩ := h.refines.acknowledgeAll clock ids
  refine ⟨m', hm', fun id e' he' => ?_, h.exact.concat trivial⟩
  obtain ⟨e, he, hreq, hpl, hack⟩ := hall id e' he'
  obtain ⟨x, hid, hxre, hsn⟩ := h.tracked id e he
  refine ⟨x, hid, hxre.trans hreq.symm, ?_⟩
  rw [hpl]
  cases hnow : e'.message.acknowledged with
  | true => exact hsn.acknowledged.concat (nomatch ·)
  | false =>
    obtain ⟨hbef, hnot⟩ := hack hnow
    rw [hbef] at hsn
    refine hsn.concat (fun _ hmem => hnot ?_)
    rw [← hid]
    exact hmem

/-- Every message ID that has gone out stems from a reading of the source. -/
def Numbered (w : SerialWriter) : Prop :=
  ∀ e ∈ w.events, ∀ id, e.carries id → ∃ k < w.drawn, ∃ push, id = nextMessageID (w.source k) push

theorem Repeated.numbered (h : Repeated clock w w') (hw : w.Numbered) : w'.Numbered := by
  intro e he id hid
  rw [h.source, h.drawn]
  rcases h.events e he with hold | hno
  · exact hw e hold id hid
  · exact absurd hid (hno id)

section

variable {prepared : PreparedFrame} {next : Snapshot} {intent : Intent} {m : RetainedMap}
  (hprepare : prepare (w.writerEnv world) w.snapshot intent = some (prepared, next))
include hprepare

theorem prepared_fresh (hsource : Function.Injective fun k => w.source k / 4) (hw : w.Numbered)
    (hx : x ∈ prepared.messages) : ∀ e ∈ w.events, ¬ e.carries x.messageID := by
  intro e he hcar
  obtain ⟨⟨k, _, push, hid⟩, _⟩ := prepare_assigned hprepare x hx
  obtain ⟨k', hk', push', hid'⟩ := hw e he _ hcar
  have hsm : w.source (w.drawn + k) / 4 = w.source k' / 4 :=
    nextMessageID_source (hid.symm.trans hid')
  have := hsource hsm
  omega

theorem sent_agrees (hpos : 0 < capacity) (hsource : Function.Injective fun k => w.source k / 4)
    (hw : w.Numbered) (h : w.Agrees capacity ttl m) : ∃ m', Agrees capacity ttl ({ w with
        drawn := w.drawn + prepared.messages.length
        snapshot := next
        store := (retainMessages prepared.frame world.sentAt world.clock w.store prepared.messages).2 }.log
          (.write ⟨.messages prepared.messages, prepared.frame, true⟩)) m' := by
  obtain ⟨m', hm', hall⟩ := h.refines.retainMessages hpos prepared.frame world.sentAt world.clock
    prepared.messages
  refine ⟨m', hm', fun id e he => ?_, h.exact.concat ⟨_, _, _, _, hprepare⟩⟩
  rcases hall id e he with hold | ⟨hpl, hack, x, hx, hid, hreq⟩
  · obtain ⟨y, hid, hreq, hsn⟩ := h.tracked id e hold
    exact ⟨y, hid, hreq, hsn.concat (fun _ h => h)⟩
  refine ⟨x, hid, hreq, w.events, prepared.messages, [], ?_, hx, ?_, ?_⟩
  · rw [hpl]
    rfl
  · exact prepared_fresh hprepare hsource hw hx
  · exact fun _ e he => absurd he not_mem_nil

theorem sent_numbered (hw : w.Numbered) (s : ReliabilityStore) (ok : Bool) : Numbered ({ w with
      drawn := w.drawn + prepared.messages.length
      snapshot := next
      store := s }.log (.write ⟨.messages prepared.messages, prepared.frame, ok⟩)) := by
  intro e he id hid
  rcases mem_append.mp he with hold | hnew
  · obtain ⟨k, hk, hsource⟩ := hw e hold id hid
    exact ⟨k, Nat.lt_add_right _ hk, hsource⟩
  rw [mem_singleton.mp hnew] at hid
  cases ok with
  | false => exact hid.elim
  | true =>
    obtain ⟨x, hx, rfl⟩ := mem_map.mp hid
    obtain ⟨⟨k, hk, hsource⟩, _⟩ := prepare_assigned hprepare x hx
    exact ⟨w.drawn + k, Nat.add_lt_add_left hk _, hsource⟩

end

structure Sound (capacity ttl : Int) (source : Nat → Int) (w : SerialWriter) : Prop where
  source : w.source = source
  exact : Logged WriterEvent.Exact w.events
  numbered : w.Numbered
  agrees : w.stopped = false → ∃ m, w.Agrees capacity ttl m

theorem Sound.ends {ends : Bool} (hsource : w.source = source)
    (hexa : Logged WriterEvent.Exact w.events) (hw : w.Numbered)
    (hagr : ends = false → ∃ m, w.Agrees capacity ttl m) :
    Sound capacity ttl source { w with stopped := ends } := by
  refine ⟨hsource, hexa, hw, fun hgoes => ?_⟩
  obtain ⟨m, hm⟩ := hagr hgoes
  exact ⟨m, hm.refines, hm.tracked, hm.exact⟩

theorem Repeated.sound {ends : Bool} (h : Repeated world.clock w w') (hagr : w'.Agrees capacity ttl m)
    (hw : w.Sound capacity ttl source) : Sound capacity ttl source { w' with stopped := ends } :=
  .ends (h.source.trans hw.source) hagr.exact (h.numbered hw.numbered) fun _ => ⟨m, hagr⟩

section

variable {source : Nat → Int} (hpos : 0 < capacity)
  (hsource : Function.Injective fun k => source k / 4) (h : w.Sound capacity ttl source)
  (hgoes : w.stopped = false)
include hpos hsource h hgoes

theorem commit_sound {prepared : PreparedFrame} {next : Snapshot} {intent : Intent}
    (hprepare : prepare (w.writerEnv world) w.snapshot intent = some (prepared, next))
    {r : SerialWriter × Option WriterError}
    (hr : { w with drawn := w.drawn + prepared.messages.length }.commit world prepared next = r) :
    Sound capacity ttl source { r.1 with stopped := r.2.isSome } := by
  obtain ⟨m, hm⟩ := h.agrees hgoes
  have hdr : Numbered { w with drawn := w.drawn + prepared.messages.length } := by
    intro e he id hid
    obtain ⟨k, hk, hid⟩ := h.numbered e he id hid
    exact ⟨k, Nat.lt_add_right _ hk, hid⟩
  subst hr
  unfold commit
  cases world.saveError with
  | some err => exact .ends h.source h.exact hdr (nomatch ·)
  | none =>
    dsimp only
    split
    · have hnum := fun ok => sent_numbered hprepare h.numbered
        (retainMessages prepared.frame world.sentAt world.clock w.store prepared.messages).2 ok
      cases hok : world.written 0 with
      | false =>
        exact .ends h.source (h.exact.concat ⟨_, _, _, _, hprepare⟩) (hnum false) (nomatch ·)
      | true =>
        have hsn := sent_agrees hprepare hpos (by rw [h.source]; exact hsource) h.numbered hm
        exact .ends h.source (h.exact.concat ⟨_, _, _, _, hprepare⟩) (hnum true) fun _ => hsn
    · exact .ends h.source h.exact hdr (nomatch ·)

theorem send_sound (intent : Intent) : Sound capacity ttl source
    { (w.send world intent).1 with stopped := (w.send world intent).2.isSome } := by
  unfold send
  cases world.snapshotError with
  | some err => exact .ends h.source h.exact h.numbered (nomatch ·)
  | none =>
    cases hprepare : prepare (w.writerEnv world) w.snapshot intent with
    | none => exact .ends h.source h.exact h.numbered (nomatch ·)
    | some result => exact commit_sound hpos hsource h hgoes hprepare rfl

theorem process_sound (intent : Intent) : Sound capacity ttl source { (w.process world intent).1 with
      stopped := (w.process world intent).2.1 || (w.process world intent).2.2.isSome } := by
  cases intent with
  | message m => exact send_sound hpos hsource h hgoes (.message m)
  | batch items => exact send_sound hpos hsource h hgoes (.batch items)
  | resend ids =>
    obtain ⟨m, hm⟩ := h.agrees hgoes
    obtain ⟨⟨m', hm'⟩, hrep⟩ := resendAll_agrees hm (.refl world.clock w) 0 ids
    exact hrep.sound hm' h
  | close => exact .ends h.source h.exact h.numbered (nomatch ·)

theorem processRequest_sound (operation : WriterOperation) : Sound capacity ttl source
    { (w.processRequest world operation).1 with
      stopped := (w.processRequest world operation).2.2.1 ||
        (w.processRequest world operation).2.2.2.isSome } := by
  obtain ⟨m, hm⟩ := h.agrees hgoes
  cases operation with
  | submit intent => exact process_sound hpos hsource h hgoes intent
  | acknowledge ids =>
    dsimp only [processRequest]
    split
    · exact (Repeated.refl world.clock w).sound hm h
    obtain ⟨m', hm'⟩ := acknowledge_agrees hm world.clock ids
    refine .ends h.source hm'.exact (fun e he id hid => ?_) (fun _ => ⟨m', hm'⟩)
    rcases mem_append.mp he with hold | hnew
    · exact h.numbered e hold id hid
    · rw [mem_singleton.mp hnew] at hid
      exact hid.elim
  | inspect id =>
    dsimp only [processRequest]
    split
    · exact (Repeated.refl world.clock w).sound hm h
    have hrep := (Repeated.refl world.clock w).expire hm.refines.consistent 0 rfl
    exact hrep.sound (hm.expire (world.clock 0) rfl) h
  | replayResponse requestID =>
    obtain ⟨⟨m', hm'⟩, hrep⟩ := replayResponse_agrees world hm requestID
    exact hrep.sound hm' h

end

theorem step_sound (hpos : 0 < capacity)
    (hsource : Function.Injective fun k => source k / 4) (w : SerialWriter) (op : SerialOp)
    (w' : SerialWriter) (h : w.Sound capacity ttl source) (hst : w.step op = some w') :
    w'.Sound capacity ttl source := by
  cases op with
  | saveOther next =>
    cases hst
    exact ⟨h.source, h.exact, h.numbered, fun hgoes => by
      obtain ⟨m, hm⟩ := h.agrees hgoes
      exact ⟨m, hm.refines, hm.tracked, hm.exact⟩⟩
  | request operation world =>
    dsimp only [step] at hst
    split at hst
    · cases hst
    next hgoes =>
      cases hst
      exact processRequest_sound hpos hsource h (Bool.eq_false_iff.mpr hgoes) operation

theorem new_sound {config : ReliabilityConfig} {store : ReliabilityStore}
    (made : newReliabilityStore config = .ok store) (maxEncodedBytes : Nat) (source : Nat → Int)
    (snapshot : Snapshot) :
    (newSerialWriter maxEncodedBytes source snapshot store).Sound config.capacity config.ttl source := by
  obtain ⟨_, href⟩ := new_refines made
  refine ⟨rfl, .nil, fun e he => absurd he not_mem_nil, fun _ => ⟨.empty, href, ?_, .nil⟩⟩
  intro id e he
  cases he

/-- A repeated request changes neither snapshot nor, but for what has expired, the store. -/
theorem Sound.repeats (h : w.Sound capacity ttl source) {op : SerialOp}
    (hop : op.repeats = some world) (hst : w.step op = some w') :
    w'.snapshot = w.snapshot ∧ OnlyExpired world.clock w.store w'.store := by
  cases op with
  | saveOther next => cases hop
  | request operation world' =>
    dsimp only [step] at hst
    split at hst
    · cases hst
    rename_i hgoes
    obtain ⟨m, hm⟩ := h.agrees (Bool.eq_false_iff.mpr hgoes)
    cases hst
    cases operation with
    | acknowledge => cases hop
    | inspect => cases hop
    | replayResponse requestID =>
      cases hop
      have hrep := (replayResponse_agrees world hm requestID).2
      exact ⟨hrep.snapshot, hrep.store⟩
    | submit intent =>
      cases intent with
      | message => cases hop
      | batch => cases hop
      | close => cases hop
      | resend ids =>
        cases hop
        have hrep := (resendAll_agrees hm (.refl world.clock w) 0 ids).2
        exact ⟨hrep.snapshot, hrep.store⟩

def plainWorld : RequestWorld where
  canceled := false
  snapshotError := none
  encrypt inner _ := some inner.data
  now := 1
  saveError := none
  sentAt := 1
  clock _ := 1
  order := ⟨id, fun _ => .refl _⟩
  written _ := true

def emptyStore : ReliabilityStore :=
  ⟨4, 100, 0, fun _ => ⟨⟨0, 0, 0, [], zeroTime, false⟩, zeroTime, 0, 0⟩, 0, ∅, []⟩

def plainWriter (source : Nat → Int) : SerialWriter :=
  newSerialWriter 1024 source (Snapshot.initial ⟨1, 8⟩ 7 0) emptyStore

def answer (requestID : Int) (result : List UInt8) : SerialOp :=
  .request (.submit (.message (.rpcResult requestID result))) plainWorld

def answered (messageID requestID : Int) (sequenceNo : Int32) (result : List UInt8) : WriterEvent :=
  .write ⟨.messages [⟨messageID, requestID, sequenceNo, true, serializeRPCResult requestID result⟩],
    serializeRPCResult requestID result, true⟩

end SerialWriter

end Tlrpc
