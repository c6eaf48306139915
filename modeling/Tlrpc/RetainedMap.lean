import Mathlib.Data.Set.Card
import Tlrpc.StepSystem
import Tlrpc.StoreContents

namespace Tlrpc

open List Function StoreEntry ReliabilityStore AList

inductive RetentionCall
  | put (message : SentMessage)
  | acknowledge (messageID : Int)
  | lookup (messageID : Int)
  | lookupForResend (messageID : Int)
  | lookupResponse (requestID : Int) (order : ReliabilityStore.MapOrder)
  | remove (messageID : Int)
  | expire
  | len

inductive StoreResult
  | put (result : Except ReliabilityError (Option SentMessage))
  | acknowledged (known : Bool)
  | message (found : Option SentMessage)
  | count (n : Nat)
deriving DecidableEq

/-- A finished call: what the clock said, what was called and what it returned. -/
structure StoreEvent where
  now : Time
  call : RetentionCall
  result : StoreResult

def ReliabilityStore.call (s : ReliabilityStore) (now : Time) :
    RetentionCall → StoreResult × ReliabilityStore
  | .put message => (.put (s.put now message).1, (s.put now message).2)
  | .acknowledge id => (.acknowledged (s.acknowledge now id).1, (s.acknowledge now id).2)
  | .lookup id => (.message (s.lookup now id).1, (s.lookup now id).2)
  | .lookupForResend id => (.message (s.lookupForResend now id).1, (s.lookupForResend now id).2)
  | .lookupResponse requestID order =>
    (.message (s.lookupResponse now requestID order).1, (s.lookupResponse now requestID order).2)
  | .remove id => (.message (s.remove now id).1, (s.remove now id).2)
  | .expire => (.count (s.expire now).1, (s.expire now).2)
  | .len => (.count (s.len now).1, (s.len now).2)

def ReliabilityStore.Calls (s : ReliabilityStore) (e : StoreEvent) (s' : ReliabilityStore) : Prop :=
  s.call e.now e.call = (e.result, s')

structure Retained where
  message : SentMessage
  expiresAt : Time
  order : Nat

/-- Earlier expiry first, then earlier `Put` by its `uint64` number. -/
def Retained.before (a b : Retained) : Prop :=
  a.expiresAt < b.expiresAt ∨
    a.expiresAt = b.expiresAt ∧ a.order % UInt64.size < b.order % UInt64.size

/-- The store as a map, with the number of messages stored in it so far. -/
structure RetainedMap where
  entries : Int → Option Retained
  puts : Nat

namespace RetainedMap

def empty : RetainedMap := ⟨fun _ => none, 0⟩

def ids (m : RetainedMap) : Set Int := {id | (m.entries id).isSome}

def live (m : RetainedMap) (now : Time) : RetainedMap :=
  { m with entries := fun id => (m.entries id).filter fun e => now < e.expiresAt }

def drop (m : RetainedMap) (id : Int) : RetainedMap :=
  { m with entries := Function.update m.entries id none }

def store (m : RetainedMap) (message : SentMessage) (expiresAt : Time) : RetainedMap where
  entries := Function.update m.entries message.messageID (some ⟨message, expiresAt, m.puts + 1⟩)
  puts := m.puts + 1

def acknowledge (m : RetainedMap) (id : Int) (e : Retained) : RetainedMap :=
  let message := { e.message with acknowledged := true }
  { m with entries := Function.update m.entries id (some { e with message := message }) }

def First (m : RetainedMap) (id : Int) (e : Retained) : Prop :=
  m.entries id = some e ∧ ∀ id' e', m.entries id' = some e' → ¬ e'.before e

def Response (m : RetainedMap) (requestID : Int) (message : SentMessage) : Prop :=
  requestID ≠ 0 ∧ message.requestMessageID = requestID ∧
    ∃ id e, m.entries id = some e ∧ e.message = message

def Newest (m : RetainedMap) (requestID : Int) : Option SentMessage → Prop
  | none => ∀ message, ¬ m.Response requestID message
  | some message => m.Response requestID message ∧
    ∀ other, m.Response requestID other → other.messageID ≤ message.messageID

end RetainedMap

/-- What a call may return and leave. Every call first drops what has expired. -/
inductive RetainedMap.Step (capacity ttl : Int) (m : RetainedMap) : StoreEvent → RetainedMap → Prop
  | putExpired {now : Time} {message : SentMessage} :
      (message.stamped now).sentAt + ttl ≤ now →
      Step capacity ttl m ⟨now, .put message, .put (.error .expired)⟩ (m.live now)
  | putKnown {now : Time} {message : SentMessage} {e : Retained} :
      now < (message.stamped now).sentAt + ttl →
      (m.live now).entries message.messageID = some e →
      Step capacity ttl m ⟨now, .put message, .put (.ok none)⟩
        ((m.live now).store (message.stamped now) ((message.stamped now).sentAt + ttl))
  | putNew {now : Time} {message : SentMessage} :
      now < (message.stamped now).sentAt + ttl →
      (m.live now).entries message.messageID = none → (m.live now).ids.ncard < capacity →
      Step capacity ttl m ⟨now, .put message, .put (.ok none)⟩
        ((m.live now).store (message.stamped now) ((message.stamped now).sentAt + ttl))
  | putEvict {now : Time} {message : SentMessage} {id : Int} {e : Retained} :
      now < (message.stamped now).sentAt + ttl →
      (m.live now).entries message.messageID = none → (m.live now).ids.ncard = capacity →
      (m.live now).First id e →
      Step capacity ttl m ⟨now, .put message, .put (.ok (some e.message))⟩
        (((m.live now).drop id).store (message.stamped now) ((message.stamped now).sentAt + ttl))
  | acknowledgeUnknown {now : Time} {id : Int} :
      (m.live now).entries id = none →
      Step capacity ttl m ⟨now, .acknowledge id, .acknowledged false⟩ (m.live now)
  | acknowledge {now : Time} {id : Int} {e : Retained} :
      (m.live now).entries id = some e →
      Step capacity ttl m ⟨now, .acknowledge id, .acknowledged true⟩ ((m.live now).acknowledge id e)
  | lookup {now : Time} {id : Int} :
      Step capacity ttl m
        ⟨now, .lookup id, .message (((m.live now).entries id).map (·.message))⟩ (m.live now)
  | lookupForResend {now : Time} {id : Int} :
      Step capacity ttl m ⟨now, .lookupForResend id,
        .message ((((m.live now).entries id).map (·.message)).filter (!·.acknowledged))⟩ (m.live now)
  | lookupResponse {now : Time} {requestID : Int} {order : ReliabilityStore.MapOrder}
      {found : Option SentMessage} :
      (m.live now).Newest requestID found →
      Step capacity ttl m ⟨now, .lookupResponse requestID order, .message found⟩ (m.live now)
  | remove {now : Time} {id : Int} :
      Step capacity ttl m ⟨now, .remove id, .message (((m.live now).entries id).map (·.message))⟩
        ((m.live now).drop id)
  | expire {now : Time} :
      Step capacity ttl m ⟨now, .expire, .count (m.ids.ncard - (m.live now).ids.ncard)⟩ (m.live now)
  | len {now : Time} :
      Step capacity ttl m ⟨now, .len, .count (m.live now).ids.ncard⟩ (m.live now)

def Retained.stored (e : Retained) : StoreEntry :=
  ⟨e.message, e.expiresAt, UInt64.ofNat e.order, 0⟩

theorem Retained.before_iff (a b : Retained) : a.before b ↔ a.stored.rank < b.stored.rank := by
  unfold before stored rank
  rw [Prod.Lex.toLex_lt_toLex, UInt64.toNat_ofNat', UInt64.toNat_ofNat']

structure ReliabilityStore.Represents (s : ReliabilityStore) (m : RetainedMap) : Prop where
  order : s.order = UInt64.ofNat m.puts
  contents : ∀ id, s.contents id = (m.entries id).map Retained.stored

namespace ReliabilityStore

variable {s : ReliabilityStore} {m : RetainedMap}

theorem Represents.isSome (h : s.Represents m) (id : Int) :
    (s.entries.lookup id).isSome = (m.entries id).isSome := by
  have := congrArg Option.isSome (h.contents id)
  rw [ReliabilityStore.contents, Option.isSome_map, Option.isSome_map] at this
  exact this

variable {id capacity ttl : Int} {t : ReliabilityStore} {message : SentMessage}

variable {now : Time}

section

variable (h : s.Represents m)
include h

theorem Represents.eq_none : s.entries.lookup id = none ↔ m.entries id = none := by
  rw [← Option.not_isSome_iff_eq_none, h.isSome, Option.not_isSome_iff_eq_none]

theorem Represents.eq_some {r : EntryRef} (hr : s.entries.lookup id = some r) :
    ∃ e, m.entries id = some e ∧ (s.memory r).unindexed = e.stored := by
  have hc := h.contents id
  rw [ReliabilityStore.contents, hr, Option.map_some, eq_comm, Option.map_eq_some_iff] at hc
  obtain ⟨e, he, hs⟩ := hc
  exact ⟨e, he, hs.symm⟩

theorem Represents.ids : m.ids = {id | id ∈ s.entries.keys} := by
  ext id
  show (m.entries id).isSome = true ↔ _
  rw [← h.isSome, AList.lookup_isSome, AList.mem_keys, Set.mem_ofPred_eq]

theorem Represents.ncard (hs : s.Consistent) : m.ids.ncard = s.expiry.length := by
  rw [h.ids, ← hs.keys_length, ← toFinset_card_of_nodup s.entries.keys_nodup, ← Set.ncard_coe_finset]
  congr 1
  ext id
  rw [coe_toFinset]

theorem Represents.live
    (hord : t.order = s.order) (hcn : t.contents = ReliabilityStore.live s.contents now) :
    t.Represents (m.live now) := by
  refine ⟨hord.trans h.order, fun id => ?_⟩
  rw [hcn]
  dsimp only [ReliabilityStore.live, RetainedMap.live]
  rw [h.contents]
  cases m.entries id with
  | none => rfl
  | some e =>
    rw [Option.map_some, Option.filter_some, Option.filter_some]
    show (if decide (now < e.expiresAt) = true then _ else _) = _
    split <;> rfl

theorem Represents.store {expiresAt : Time} (hord : t.order = s.order + 1)
    (hcn : t.contents = Function.update s.contents message.messageID
      (some ⟨message, expiresAt, s.order + 1, 0⟩)) : t.Represents (m.store message expiresAt) := by
  have hpt : s.order + 1 = UInt64.ofNat (m.puts + 1) := by
    rw [h.order, UInt64.ofNat_add]
    rfl
  refine ⟨hord.trans hpt, fun id => ?_⟩
  rw [hcn]
  dsimp only [RetainedMap.store]
  by_cases hid : id = message.messageID
  · subst hid
    rw [update_self, update_self, hpt]
    rfl
  · rw [update_of_ne hid, update_of_ne hid]
    exact h.contents id

theorem Represents.drop (hord : t.order = s.order) (hcn : t.contents = Function.update s.contents id none) :
    t.Represents (m.drop id) := by
  refine ⟨hord.trans h.order, fun id' => ?_⟩
  rw [hcn]
  dsimp only [RetainedMap.drop]
  by_cases hid : id' = id
  · subst hid
    rw [update_self, update_self]
    rfl
  · rw [update_of_ne hid, update_of_ne hid]
    exact h.contents id'

theorem Represents.first (hs : s.Consistent) {first : EntryRef}
    {rest : List EntryRef} (hfst : s.expiry = first :: rest) :
    ∃ e, e.message = (s.memory first).message ∧ m.First (s.memory first).message.messageID e := by
  have hlk := hs.lookup_of_mem (r := first) (by rw [hfst]; exact mem_cons_self)
  obtain ⟨e, he, hstd⟩ := h.eq_some hlk
  have hmsg : (s.memory first).message = e.stored.message := message_eq hstd
  refine ⟨e, hmsg.symm, he, fun id' e' he' hbef => ?_⟩
  have hcn : s.contents id' = some e'.stored := by rw [h.contents, he', Option.map_some]
  have hle := hs.first_le hfst hcn
  have hrn : (s.memory first).rank = e.stored.rank := rank_eq hstd
  rw [hrn] at hle
  exact absurd ((e'.before_iff e).mp hbef) (not_lt_of_ge hle)

end

theorem newerResponse_ge {requestID : Int} {found : Option SentMessage} {x : SentMessage}
    (hx : x ∈ found ∨ x = message ∧ x.requestMessageID = requestID ∧ requestID ≠ 0) :
    ∃ y, newerResponse requestID found message = some y ∧ x.messageID ≤ y.messageID := by
  unfold newerResponse
  split
  next h =>
    refine ⟨message, rfl, ?_⟩
    rcases hx with hx | ⟨rfl, _⟩
    · exact le_of_lt (h.2.2 x hx)
    · exact le_refl _
  next h =>
    rcases hx with hx | ⟨rfl, hreq, hz⟩
    · exact ⟨x, hx, le_refl _⟩
    have hnot : ¬ ∀ newest ∈ found, x.messageID > newest.messageID :=
      fun hall => h ⟨hreq, hz, hall⟩
    obtain ⟨newest, hnot⟩ := not_forall.mp hnot
    obtain ⟨hnew, hle⟩ := Classical.not_imp.mp hnot
    exact ⟨newest, hnew, not_lt.mp hle⟩

theorem foldl_newerResponse (requestID : Int) (l : List SentMessage) (found : Option SentMessage) :
    (l.foldl (newerResponse requestID) found = found ∨ ∃ x ∈ l,
      l.foldl (newerResponse requestID) found = some x ∧ x.requestMessageID = requestID ∧
        requestID ≠ 0) ∧ (∀ x, x ∈ found ∨ x ∈ l ∧ x.requestMessageID = requestID ∧ requestID ≠ 0 →
      ∃ y, l.foldl (newerResponse requestID) found = some y ∧ x.messageID ≤ y.messageID) := by
  induction l generalizing found with
  | nil =>
    refine ⟨.inl rfl, fun x hx => ?_⟩
    rcases hx with hx | ⟨hx, _⟩
    · exact ⟨x, hx, le_refl _⟩
    · exact absurd hx not_mem_nil
  | cons message rest ih =>
    rw [foldl_cons]
    obtain ⟨hres, hgre⟩ := ih (newerResponse requestID found message)
    refine ⟨?_, fun x hx => ?_⟩
    · rcases hres with hsm | ⟨x, hx, hla⟩
      · rw [hsm]
        unfold newerResponse
        split
        next h => exact .inr ⟨message, mem_cons_self, rfl, h.1, h.2.1⟩
        · exact .inl rfl
      · exact .inr ⟨x, mem_cons_of_mem message hx, hla⟩
    · by_cases hrs : x ∈ rest ∧ x.requestMessageID = requestID ∧ requestID ≠ 0
      · exact hgre x (.inr hrs)
      · have htr : x ∈ found ∨ x = message ∧ x.requestMessageID = requestID ∧ requestID ≠ 0 := by
          rcases hx with hx | ⟨hx, hre⟩
          · exact .inl hx
          rcases mem_cons.mp hx with rfl | hx
          · exact .inr ⟨rfl, hre⟩
          · exact absurd ⟨hx, hre⟩ hrs
        obtain ⟨y, hy, hle⟩ := newerResponse_ge htr
        obtain ⟨z, hz, hle'⟩ := hgre y (.inl hy)
        exact ⟨z, hz, le_trans hle hle'⟩

theorem Represents.mem_visit (h : s.Represents m) (order : MapOrder) (message : SentMessage) :
    (∃ item ∈ order.visit (s.entries.entries.map Sigma.snd), (s.memory item).message = message) ↔
      ∃ id e, m.entries id = some e ∧ e.message = message := by
  constructor
  · rintro ⟨item, him, rfl⟩
    obtain ⟨⟨id, r⟩, hent, rfl⟩ := mem_map.mp ((order.perm _).subset him)
    obtain ⟨e, he, hstd⟩ := h.eq_some (mem_lookup_iff.mpr hent)
    have hmsg : (s.memory r).message = e.stored.message := message_eq hstd
    exact ⟨id, e, he, hmsg.symm⟩
  · rintro ⟨id, e, he, rfl⟩
    have hcn := h.contents id
    rw [he, Option.map_some] at hcn
    obtain ⟨r, hr, hstd⟩ := contents_eq_some.mp hcn
    have hmsg : (s.memory r).message = e.stored.message := message_eq hstd
    refine ⟨r, (order.perm _).symm.subset ?_, hmsg⟩
    exact mem_map.mpr ⟨⟨id, r⟩, mem_lookup_iff.mp hr, rfl⟩

theorem Represents.newest (h : s.Represents m) (requestID : Int) (order : MapOrder) :
    m.Newest requestID (((order.visit (s.entries.entries.map Sigma.snd)).map
      fun item => (s.memory item).message).foldl (newerResponse requestID) none) := by
  have hmem : ∀ message, message ∈ (order.visit (s.entries.entries.map Sigma.snd)).map
      (fun item => (s.memory item).message) ↔ ∃ id e, m.entries id = some e ∧ e.message = message := by
    intro message
    rw [mem_map]
    exact h.mem_visit order message
  generalize (order.visit (s.entries.entries.map Sigma.snd)).map
    (fun item => (s.memory item).message) = l at hmem ⊢
  obtain ⟨hres, hgre⟩ := foldl_newerResponse requestID l none
  have hrs : ∀ other, m.Response requestID other →
      ∃ y, l.foldl (newerResponse requestID) none = some y ∧ other.messageID ≤ y.messageID := by
    rintro other ⟨hz, hreq, hent⟩
    exact hgre other (.inr ⟨(hmem other).mpr hent, hreq, hz⟩)
  rcases hres with hno | ⟨x, hx, hso, hreq, hz⟩
  · rw [hno] at hrs ⊢
    intro message hmsg
    obtain ⟨_, hy, _⟩ := hrs message hmsg
    cases hy
  rw [hso] at hrs ⊢
  refine ⟨⟨hz, hreq, (hmem x).mp hx⟩, fun other hother => ?_⟩
  obtain ⟨y, hy, hle⟩ := hrs other hother
  rw [Option.some.inj hy]
  exact hle

structure Refines (capacity ttl : Int) (s : ReliabilityStore) (m : RetainedMap) : Prop where
  consistent : s.Consistent
  represents : s.Represents m
  capacity : s.capacity = capacity
  ttl : s.ttl = ttl

section

variable {capacity ttl : Int} (h : Refines capacity ttl s m) (now : Time)
include h

theorem Refines.expireLocked : Refines capacity ttl (s.expireLocked now).1 (m.live now) := by
  obtain ⟨hs, hcn, _, hord, hcap, httl⟩ := h.consistent.expireLocked now
  exact ⟨hs, h.represents.live hord hcn, hcap.trans h.capacity, httl.trans h.ttl⟩

theorem Refines.expire : (s.expire now).1 = m.ids.ncard - (m.live now).ids.ncard ∧
      Refines capacity ttl (s.expire now).2 (m.live now) := by
  have hlv := h.expireLocked now
  obtain ⟨_, _, hcnt, _⟩ := h.consistent.expireLocked now
  refine ⟨?_, hlv⟩
  rw [h.represents.ncard h.consistent, hlv.represents.ncard hlv.consistent]
  show (s.expireLocked now).2 = _
  omega

theorem Refines.len : (s.len now).1 = (m.live now).ids.ncard ∧
    Refines capacity ttl (s.len now).2 (m.live now) := by
  have hlv := h.expireLocked now
  refine ⟨?_, hlv⟩
  rw [hlv.represents.ncard hlv.consistent]
  exact hlv.consistent.keys_length

theorem Refines.lookup_message (id : Int) : ((s.entries.lookup id).map fun item => (s.memory item).message) =
      (m.entries id).map (·.message) := by
  cases hr : s.entries.lookup id with
  | none => rw [h.represents.eq_none.mp hr, Option.map_none, Option.map_none]
  | some r =>
    obtain ⟨e, he, hstd⟩ := h.represents.eq_some hr
    have hmsg : (s.memory r).message = e.stored.message := message_eq hstd
    rw [he, Option.map_some, Option.map_some, hmsg]
    rfl

end

section

variable (h : Refines capacity ttl s m) (now : Time) (id : Int)
include h

theorem Refines.lookup : (s.lookup now id).1 = ((m.live now).entries id).map (·.message) ∧
      Refines capacity ttl (s.lookup now id).2 (m.live now) :=
  ⟨(h.expireLocked now).lookup_message id, h.expireLocked now⟩

theorem Refines.lookupForResend : (s.lookupForResend now id).1 =
      (((m.live now).entries id).map (·.message)).filter (!·.acknowledged) ∧
      Refines capacity ttl (s.lookupForResend now id).2 (m.live now) := by
  have hlv := h.expireLocked now
  have hmsg := hlv.lookup_message id
  rw [← hmsg]
  unfold ReliabilityStore.lookupForResend
  dsimp only
  cases (s.expireLocked now).1.entries.lookup id with
  | none => exact ⟨rfl, hlv⟩
  | some r =>
    dsimp only [Option.map_some]
    rw [Option.filter_some]
    cases ((s.expireLocked now).1.memory r).message.acknowledged with
    | true => exact ⟨rfl, hlv⟩
    | false => exact ⟨rfl, hlv⟩

theorem Refines.remove : (s.remove now id).1 = ((m.live now).entries id).map (·.message) ∧
      Refines capacity ttl (s.remove now id).2 ((m.live now).drop id) := by
  have hlv := h.expireLocked now
  have hmsg := hlv.lookup_message id
  rw [← hmsg]
  unfold ReliabilityStore.remove
  generalize (s.expireLocked now).1 = t at hlv
  dsimp only
  cases hr : t.entries.lookup id with
  | none =>
    refine ⟨rfl, hlv.consistent, hlv.represents.drop rfl ?_, hlv.capacity, hlv.ttl⟩
    refine (update_eq_self_iff.mpr ?_).symm
    rw [contents, hr, Option.map_none]
  | some r =>
    obtain ⟨k, hk⟩ := mem_iff_getElem?.mp ((hlv.consistent.mapped id r).mp hr).1
    obtain ⟨u, hrem, hdr⟩ :=
      heapRemove_dropped hlv.consistent.indexed hlv.consistent.heaped hk
    dsimp only
    rw [hlv.consistent.indexed k r hk, Int.toNat_natCast, hrem]
    refine ⟨?_, hlv.consistent.erase hdr hr, hlv.represents.drop hdr.order (hdr.contents id),
      hdr.capacity.trans hlv.capacity, hdr.ttl.trans hlv.ttl⟩
    rw [Option.map_some, message_eq (hdr.memory r)]

theorem Refines.acknowledge : ∃ m', m.Step capacity ttl
      ⟨now, .acknowledge id, .acknowledged (s.acknowledge now id).1⟩ m' ∧
      Refines capacity ttl (s.acknowledge now id).2 m' := by
  have hlv := h.expireLocked now
  unfold ReliabilityStore.acknowledge
  generalize (s.expireLocked now).1 = t at hlv
  dsimp only
  cases hr : t.entries.lookup id with
  | none => exact ⟨_, .acknowledgeUnknown (hlv.represents.eq_none.mp hr), hlv⟩
  | some r =>
    obtain ⟨e, he, hstd⟩ := hlv.represents.eq_some hr
    have hid := ((hlv.consistent.mapped id r).mp hr).2
    refine ⟨_, .acknowledge he, hlv.consistent.overwrite hr hid rfl rfl, ⟨?_, fun id' => ?_⟩,
      hlv.capacity, hlv.ttl⟩
    · exact hlv.represents.order
    · rw [hlv.consistent.overwrite_contents hr]
      dsimp only [RetainedMap.acknowledge]
      by_cases heq : id' = id
      · subst heq
        rw [update_self, update_self, Option.map_some]
        obtain ⟨hmsg, hexp, hord, _⟩ := StoreEntry.mk.inj hstd
        unfold StoreEntry.unindexed Retained.stored
        rw [hmsg, hexp, hord]
      · rw [update_of_ne heq, update_of_ne heq]
        exact hlv.represents.contents id'

end

theorem stamped_messageID (message : SentMessage) (now : Time) :
    (message.stamped now).messageID = message.messageID := by
  unfold SentMessage.stamped
  split <;> rfl

theorem Consistent.advance (h : s.Consistent) :
    ({ s with order := s.order + 1 } : ReliabilityStore).Consistent :=
  ⟨h.indexed, h.heaped, h.mapped, h.allocated, h.bounded⟩

section

variable (h : Refines capacity ttl s m)
include h

theorem Refines.putLive_known (expiresAt : Time) {r : EntryRef}
    (hr : s.entries.lookup message.messageID = some r) : (s.putLive message expiresAt).1 = none ∧
      Refines capacity ttl (s.putLive message expiresAt).2 (m.store message expiresAt) := by
  have hput : s.putLive message expiresAt =
      (none, ({ s with order := s.order + 1 } : ReliabilityStore).replace r message expiresAt) := by
    unfold putLive
    dsimp only
    rw [hr]
  obtain ⟨hs, hcn, hord, hcap, httl⟩ := h.consistent.advance.replace hr expiresAt
  rw [hput]
  exact ⟨rfl, hs, h.represents.store hord hcn, hcap.trans h.capacity, httl.trans h.ttl⟩

theorem Refines.putLive_new (expiresAt : Time)
    (hnew : s.entries.lookup message.messageID = none) (room : m.ids.ncard < capacity) :
    (s.putLive message expiresAt).1 = none ∧
      Refines capacity ttl (s.putLive message expiresAt).2 (m.store message expiresAt) := by
  have hlen := h.represents.ncard h.consistent
  have hcap := h.capacity
  have hput : s.putLive message expiresAt =
      (none, ({ s with order := s.order + 1 } : ReliabilityStore).insert message expiresAt) := by
    unfold putLive
    dsimp only
    rw [hnew, h.consistent.keys_length]
    rw [if_neg (by omega)]
  have hno : s.contents message.messageID = none := by rw [contents, hnew, Option.map_none]
  obtain ⟨hs, hcn, hord, hcp, httl⟩ :=
    h.consistent.advance.insert message expiresAt hno (by show (s.expiry.length : Int) < s.capacity; omega)
  rw [hput]
  exact ⟨rfl, hs, h.represents.store hord hcn, hcp.trans h.capacity, httl.trans h.ttl⟩

theorem Refines.putLive_evict (expiresAt : Time) (hpos : 0 < capacity)
    (hnew : s.entries.lookup message.messageID = none) (full : m.ids.ncard = capacity) :
    ∃ id e, m.First id e ∧ (s.putLive message expiresAt).1 = some e.message ∧
      Refines capacity ttl (s.putLive message expiresAt).2 ((m.drop id).store message expiresAt) := by
  have hlen := h.represents.ncard h.consistent
  have hcap := h.capacity
  cases hexp : s.expiry with
  | nil =>
    rw [hexp, length_nil] at hlen
    omega
  | cons first rest =>
    obtain ⟨e, hmsg, hfst⟩ := h.represents.first h.consistent hexp
    obtain ⟨t, hpop, ht, hcn, hln, hor, hcp, htl⟩ :=
      h.consistent.advance.popFirst hexp
    have hput : s.putLive message expiresAt = (some e.message, t.insert message expiresAt) := by
      unfold putLive
      dsimp only
      rw [hnew, h.consistent.keys_length]
      rw [if_pos (by omega), hpop, hmsg]
    have hdr : Represents { t with order := s.order } (m.drop (s.memory first).message.messageID) :=
      h.represents.drop rfl hcn
    have hno : t.contents message.messageID = none := by
      rw [hcn]
      by_cases heq : message.messageID = (s.memory first).message.messageID
      · rw [heq]
        exact update_self _ _ _
      refine (update_of_ne heq _ _).trans ?_
      show (s.entries.lookup message.messageID).map _ = none
      rw [hnew, Option.map_none]
    have hrm : (t.expiry.length : Int) < t.capacity := by
      rw [hcp]
      show _ < s.capacity
      have : ({ s with order := s.order + 1 } : ReliabilityStore).expiry.length = s.expiry.length := rfl
      omega
    obtain ⟨hs, hcn', hord, hca, httl⟩ := ht.insert message expiresAt hno hrm
    rw [hor] at hcn' hord
    rw [hput]
    exact ⟨_, e, hfst, rfl, hs, hdr.store hord hcn',
      hca.trans (hcp.trans h.capacity), httl.trans (htl.trans h.ttl)⟩

theorem Refines.put (hpos : 0 < capacity) (now : Time) (message : SentMessage) : ∃ m', m.Step capacity ttl
      ⟨now, .put message, .put (s.put now message).1⟩ m' ∧
      Refines capacity ttl (s.put now message).2 m' := by
  have hlv := h.expireLocked now
  have hid := stamped_messageID message now
  unfold ReliabilityStore.put
  generalize (s.expireLocked now).1 = t at hlv
  have httl := hlv.ttl
  dsimp only
  rw [httl]
  split
  next hexp => exact ⟨_, .putExpired hexp, hlv⟩
  rename_i hfut
  have hfut := not_le.mp hfut
  generalize hei : (message.stamped now).sentAt + ttl = expiresAt at hfut
  cases hr : t.entries.lookup message.messageID with
  | some r =>
    obtain ⟨e, he, _⟩ := hlv.represents.eq_some hr
    have hkn : t.entries.lookup (message.stamped now).messageID = some r := by
      rw [hid]
      exact hr
    obtain ⟨hres, href⟩ := hlv.putLive_known expiresAt hkn
    rw [hres]
    subst hei
    exact ⟨_, .putKnown hfut he, href⟩
  | none =>
    have hno := hlv.represents.eq_none.mp hr
    have hlen := hlv.represents.ncard hlv.consistent
    have hbd := hlv.consistent.bounded
    rw [hlv.capacity] at hbd
    have hnew : t.entries.lookup (message.stamped now).messageID = none := by
      rw [hid]
      exact hr
    by_cases hfl : ((m.live now).ids.ncard : Int) = capacity
    · obtain ⟨id, e, hfst, hres, href⟩ :=
        hlv.putLive_evict expiresAt hpos hnew hfl
      rw [hres]
      subst hei
      exact ⟨_, .putEvict hfut hno hfl hfst, href⟩
    · have hrm : ((m.live now).ids.ncard : Int) < capacity := by omega
      obtain ⟨hres, href⟩ := hlv.putLive_new expiresAt hnew hrm
      rw [hres]
      subst hei
      exact ⟨_, .putNew hfut hno hrm, href⟩

end

theorem Refines.call (hpos : 0 < capacity) (s : ReliabilityStore) (e : StoreEvent)
    (s' : ReliabilityStore) (m : RetainedMap) (h : Refines capacity ttl s m) (hcl : s.Calls e s') :
    ∃ m', m.Step capacity ttl e m' ∧ Refines capacity ttl s' m' := by
  obtain ⟨now, call, result⟩ := e
  have hcl : s.call now call = (result, s') := hcl
  obtain rfl : (s.call now call).1 = result := by rw [hcl]
  obtain rfl : (s.call now call).2 = s' := by rw [hcl]
  cases call with
  | put message => exact h.put hpos now message
  | acknowledge id => exact h.acknowledge now id
  | lookup id =>
    obtain ⟨hres, href⟩ := h.lookup now id
    dsimp only [ReliabilityStore.call]
    rw [hres]
    exact ⟨_, .lookup, href⟩
  | lookupForResend id =>
    obtain ⟨hres, href⟩ := h.lookupForResend now id
    dsimp only [ReliabilityStore.call]
    rw [hres]
    exact ⟨_, .lookupForResend, href⟩
  | lookupResponse requestID order =>
    have hlv := h.expireLocked now
    exact ⟨_, .lookupResponse (hlv.represents.newest requestID order), hlv⟩
  | remove id =>
    obtain ⟨hres, href⟩ := h.remove now id
    dsimp only [ReliabilityStore.call]
    rw [hres]
    exact ⟨_, .remove, href⟩
  | expire =>
    obtain ⟨hres, href⟩ := h.expire now
    dsimp only [ReliabilityStore.call]
    rw [hres]
    exact ⟨_, .expire, href⟩
  | len =>
    obtain ⟨hres, href⟩ := h.len now
    dsimp only [ReliabilityStore.call]
    rw [hres]
    exact ⟨_, .len, href⟩

theorem new_refines {config : ReliabilityConfig} {s : ReliabilityStore}
    (h : newReliabilityStore config = .ok s) :
    0 < config.capacity ∧ Refines config.capacity config.ttl s .empty := by
  unfold newReliabilityStore at h
  split at h
  · cases h
  rename_i hcap
  split at h
  · cases h
  cases h
  have hpos := not_le.mp hcap
  refine ⟨hpos, ⟨?_, ?_, ?_, ?_, ?_⟩, ⟨rfl, fun _ => rfl⟩, rfl, rfl⟩
  · intro k r hk
    cases hk
  · intro k _ hk
    exact absurd hk (Nat.not_lt_zero k)
  · intro id r
    rw [lookup_empty]
    exact ⟨(nomatch ·), fun ⟨hmem, _⟩ => absurd hmem not_mem_nil⟩
  · intro r hr
    exact absurd hr not_mem_nil
  · exact le_of_lt hpos

end ReliabilityStore

section

variable {capacity ttl : Int} {id : Int} {m : RetainedMap}

theorem RetainedMap.live_some {e : Retained}
    (h : (m.live now).entries id = some e) : m.entries id = some e :=
  (Option.filter_eq_some_iff.mp h).1

theorem RetainedMap.drop_some {id' : Int} {e : Retained}
    (h : (m.drop id').entries id = some e) : m.entries id = some e := by
  dsimp only [drop] at h
  by_cases hid : id = id'
  · rw [hid, update_self] at h
    cases h
  · rw [update_of_ne hid] at h
    exact h

theorem RetainedMap.Step.acknowledged {m' : RetainedMap} {event : StoreEvent}
    (h : m.Step capacity ttl event m')
    (stored : ∀ message, event.call = .put message → message.messageID = id →
      event.result = .put (.error .expired))
    (start : ∀ e, m.entries id = some e → e.message.acknowledged = true) :
    ∀ e, m'.entries id = some e → e.message.acknowledged = true := by
  have hlv : ∀ now e, (m.live now).entries id = some e → e.message.acknowledged = true :=
    fun now e he => start e (live_some he)
  have hsto : ∀ (base : RetainedMap) (now : Time) (message : SentMessage) (expiresAt : Time) e,
      (∀ e, base.entries id = some e → e.message.acknowledged = true) → message.messageID ≠ id →
      (base.store (message.stamped now) expiresAt).entries id = some e →
      e.message.acknowledged = true := by
    intro base now message expiresAt e hbs hne he
    have hsta := stamped_messageID message now
    dsimp only [store] at he
    rw [hsta, update_of_ne (Ne.symm hne)] at he
    exact hbs e he
  intro e he
  cases h with
  | @putKnown now message =>
    have hne : message.messageID ≠ id := fun heq => nomatch stored message rfl heq
    exact hsto _ now message _ e (hlv now) hne he
  | @putNew now message =>
    have hne : message.messageID ≠ id := fun heq => nomatch stored message rfl heq
    exact hsto _ now message _ e (hlv now) hne he
  | @putEvict now message id' =>
    have hne : message.messageID ≠ id := fun heq => nomatch stored message rfl heq
    exact hsto _ now message _ e (fun e he => hlv now e (drop_some he)) hne he
  | @acknowledge now id' e' he' =>
    dsimp only [RetainedMap.acknowledge] at he
    by_cases hid : id = id'
    · rw [hid, update_self] at he
      cases he
      rfl
    · rw [update_of_ne hid] at he
      exact hlv now e he
  | @remove now id' => exact hlv now e (drop_some he)
  | _ => exact hlv _ e he

def StoreEvent.keeps (event : StoreEvent) (id : Int) : Prop :=
  ∀ message, event.call = .put message → message.messageID = id →
    event.result = .put (.error .expired)

theorem RetainedMap.acknowledged_sticky {start : RetainedMap} {before after : List StoreEvent}
    (h : Trace (RetainedMap.Step capacity ttl) start
      (before ++ ⟨now, .acknowledge id, .acknowledged true⟩ :: after) m)
    (kept : ∀ event ∈ after, event.keeps id) :
    ∀ e, m.entries id = some e → e.message.acknowledged = true := by
  obtain ⟨mid, mid', _, hst, haft⟩ := h.split_cons
  have hmid : ∀ e, mid'.entries id = some e → e.message.acknowledged = true := by
    intro e he
    cases hst with
    | acknowledge =>
      dsimp only [RetainedMap.acknowledge] at he
      rw [update_self] at he
      cases he
      rfl
  revert kept
  apply haft.invariant
  · exact fun _ => hmid
  · intro log event m m' ih hst hall
    have hkp := hall event (mem_append_right log mem_cons_self)
    exact hst.acknowledged hkp (ih fun event' h => hall event' (mem_append_left _ h))

/-- Under any clock the store returns what the map returns and holds what it holds, each entry at
its index and within the capacity. -/
theorem store_refines_retained_map {config : ReliabilityConfig} {start s : ReliabilityStore}
    {log : List StoreEvent} (made : newReliabilityStore config = .ok start)
    (run : Trace ReliabilityStore.Calls start log s) :
    (∃ m, Trace (RetainedMap.Step config.capacity config.ttl) .empty log m ∧ s.Represents m ∧
      m.ids.Finite ∧ m.ids.ncard ≤ config.capacity ∧
      ∀ before now id after, log = before ++ ⟨now, .acknowledge id, .acknowledged true⟩ :: after →
        (∀ event ∈ after, event.keeps id) → ∀ e, m.entries id = some e → e.message.acknowledged = true) ∧
    s.Consistent ∧ s.capacity = config.capacity := by
  obtain ⟨hpos, hst⟩ := new_refines made
  obtain ⟨m, hsp, href⟩ := run.simulates (ReliabilityStore.Refines.call hpos) hst
  have hs := href.consistent
  refine ⟨⟨m, hsp, href.represents, ?_, ?_, ?_⟩, hs, href.capacity⟩
  · rw [href.represents.ids]
    exact finite_toSet _
  · rw [href.represents.ncard hs, ← href.capacity]
    exact hs.bounded
  · intro before now id after hlog hkp
    subst hlog
    exact RetainedMap.acknowledged_sticky hsp hkp

def earlierMessage : SentMessage := ⟨4, 0, 1, [1], 0, false⟩

def laterMessage : SentMessage := ⟨8, 0, 3, [2], zeroTime, false⟩

def storeForOne : ReliabilityStore :=
  ⟨1, 5, 0, fun _ => ⟨⟨0, 0, 0, [], zeroTime, false⟩, zeroTime, 0, 0⟩, 0, ∅, []⟩

theorem store_refines_retained_map_evicting : ∃ s m, newReliabilityStore ⟨1, 5⟩ = .ok storeForOne ∧
    Trace ReliabilityStore.Calls storeForOne [⟨1, .put earlierMessage, .put (.ok none)⟩,
      ⟨2, .put laterMessage, .put (.ok (some earlierMessage))⟩] s ∧
    Trace (RetainedMap.Step 1 5) .empty [⟨1, .put earlierMessage, .put (.ok none)⟩,
      ⟨2, .put laterMessage, .put (.ok (some earlierMessage))⟩] m ∧ s.Represents m ∧ s.Consistent := by
  have hmd : newReliabilityStore ⟨1, 5⟩ = .ok storeForOne := rfl
  have hfst : storeForOne.Calls ⟨1, .put earlierMessage, .put (.ok none)⟩
      (storeForOne.put 1 earlierMessage).2 := Prod.ext (by decide +kernel) rfl
  have hsnd : (storeForOne.put 1 earlierMessage).2.Calls
      ⟨2, .put laterMessage, .put (.ok (some earlierMessage))⟩
      ((storeForOne.put 1 earlierMessage).2.put 2 laterMessage).2 := Prod.ext (by decide +kernel) rfl
  have hrun := (Trace.nil.snoc hfst).snoc hsnd
  obtain ⟨⟨m, hsp, hrep, _⟩, hcn, _⟩ := store_refines_retained_map hmd hrun
  exact ⟨_, m, hmd, hrun, hsp, hrep, hcn⟩

end

end Tlrpc
