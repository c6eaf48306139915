import Mathlib.Data.List.AList
import Tlrpc.BinaryHeap
import Tlrpc.Validator

namespace Tlrpc

open List HeapInterface

structure SentMessage where
  messageID : Int
  requestMessageID : Int
  sequenceNumber : Int32
  payload : List UInt8
  sentAt : Time
  acknowledged : Bool
deriving DecidableEq

def zeroTime : Time := -62135596800 * second

/-- A zero `SentAt` is replaced by the current time. -/
def SentMessage.stamped (message : SentMessage) (now : Time) : SentMessage :=
  if message.sentAt = zeroTime then { message with sentAt := now } else message

abbrev EntryRef := Nat

structure StoreEntry where
  message : SentMessage
  expiresAt : Time
  order : UInt64
  index : Int

def StoreEntry.less (a b : StoreEntry) : Bool :=
  if a.expiresAt = b.expiresAt then a.order < b.order else a.expiresAt < b.expiresAt

inductive ReliabilityError
  | invalidCapacity
  | invalidTTL
  | expired
deriving DecidableEq

/-- `memory` holds the entries allocated so far, `entries` and `expiry` point into it. -/
structure ReliabilityStore where
  capacity : Int
  ttl : Int
  order : UInt64
  memory : EntryRef → StoreEntry
  allocated : Nat
  entries : AList (fun _ : Int => EntryRef)
  expiry : List EntryRef

structure ReliabilityConfig where
  capacity : Int
  ttl : Int

def newReliabilityStore (config : ReliabilityConfig) : Except ReliabilityError ReliabilityStore :=
  if config.capacity ≤ 0 then .error .invalidCapacity
  else if config.ttl ≤ 0 then .error .invalidTTL
  else .ok ⟨config.capacity, config.ttl, 0, fun _ => ⟨⟨0, 0, 0, [], zeroTime, false⟩, zeroTime, 0, 0⟩,
    0, ∅, []⟩

namespace ReliabilityStore

def setIndex (s : ReliabilityStore) (r : EntryRef) (index : Int) : ReliabilityStore :=
  { s with memory := Function.update s.memory r { s.memory r with index := index } }

/-- A position outside the slice, never used, is not less and is not exchanged. -/
def expiryHeap : HeapInterface ReliabilityStore EntryRef where
  len s := s.expiry.length
  less s i j :=
    match s.expiry[i]?, s.expiry[j]? with
    | some a, some b => (s.memory a).less (s.memory b)
    | _, _ => false
  swap s i j :=
    match s.expiry[i]?, s.expiry[j]? with
    | some a, some b =>
      ({ s with expiry := (s.expiry.set i b).set j a }.setIndex b i).setIndex a j
    | _, _ => s
  push s item := { s.setIndex item s.expiry.length with expiry := s.expiry ++ [item] }
  pop s :=
    match s.expiry.getLast? with
    | some item => (some item, { s.setIndex item (-1) with expiry := s.expiry.dropLast })
    | none => (none, s)

/-- `heap.Pop` and the `delete` that follows it, with the popped message. -/
def popFirst (s : ReliabilityStore) : Option SentMessage × ReliabilityStore :=
  match expiryHeap.heapPop s with
  | (some item, s) =>
    (some (s.memory item).message,
      { s with entries := s.entries.erase (s.memory item).message.messageID })
  | (none, s) => (none, s)

theorem setIndex_expiry (s : ReliabilityStore) (r : EntryRef) (index : Int) :
    (s.setIndex r index).expiry = s.expiry := rfl

theorem swap_length (s : ReliabilityStore) (i j : Nat) :
    (expiryHeap.swap s i j).expiry.length = s.expiry.length := by
  dsimp only [expiryHeap]
  split
  · simp only [setIndex_expiry, length_set]
  · rfl

theorem popFirst_length (s : ReliabilityStore) : s.popFirst.2.expiry.length = s.expiry.length - 1 := by
  have hdw : (expiryHeap.down (expiryHeap.swap s 0 (expiryHeap.len s - 1)) 0
      (expiryHeap.len s - 1)).1.expiry.length = s.expiry.length := by
    refine down_keeps (fun t : ReliabilityStore => t.expiry.length = s.expiry.length)
      ?_ _ _ (swap_length s 0 _)
    intro t i j _ _ h
    rw [swap_length, h]
  unfold popFirst heapPop
  generalize (expiryHeap.down (expiryHeap.swap s 0 (expiryHeap.len s - 1)) 0
    (expiryHeap.len s - 1)).1 = t at hdw
  rw [← hdw]
  dsimp only [expiryHeap]
  cases hla : t.expiry.getLast? with
  | some item => exact length_dropLast
  | none =>
    rw [getLast?_eq_none_iff.mp hla, length_nil]

/-- The number of entries removed is returned as well. -/
def expireLocked (s : ReliabilityStore) (now : Time) : ReliabilityStore × Nat :=
  match h : s.expiry with
  | [] => (s, 0)
  | first :: _ =>
    if (s.memory first).expiresAt ≤ now then
      ((s.popFirst.2.expireLocked now).1, (s.popFirst.2.expireLocked now).2 + 1)
    else (s, 0)
termination_by s.expiry.length
decreasing_by
  all_goals
    have := s.popFirst_length
    rw [h, List.length_cons] at this
    rw [h, List.length_cons]
    omega

def allocate (s : ReliabilityStore) (message : SentMessage) (expiresAt : Time) : ReliabilityStore :=
  { s with
    memory := Function.update s.memory s.allocated ⟨message, expiresAt, s.order, 0⟩
    allocated := s.allocated + 1
    entries := s.entries.insert message.messageID s.allocated }

def insert (s : ReliabilityStore) (message : SentMessage) (expiresAt : Time) : ReliabilityStore :=
  expiryHeap.heapPush (s.allocate message expiresAt) s.allocated

def overwrite (s : ReliabilityStore) (r : EntryRef) (e : StoreEntry) : ReliabilityStore :=
  { s with memory := Function.update s.memory r e }

def replace (s : ReliabilityStore) (current : EntryRef) (message : SentMessage)
    (expiresAt : Time) : ReliabilityStore :=
  let index := (s.memory current).index
  expiryHeap.heapFix (s.overwrite current ⟨message, expiresAt, s.order, index⟩) index.toNat

/-- `Put` from `s.order++` on, for a message that has not expired. -/
def putLive (s : ReliabilityStore) (message : SentMessage) (expiresAt : Time) :
    Option SentMessage × ReliabilityStore :=
  let s := { s with order := s.order + 1 }
  match s.entries.lookup message.messageID with
  | some current => (none, s.replace current message expiresAt)
  | none =>
    let evicted := if s.entries.keys.length = s.capacity then s.popFirst else (none, s)
    (evicted.1, evicted.2.insert message expiresAt)

def put (s : ReliabilityStore) (now : Time) (message : SentMessage) :
    Except ReliabilityError (Option SentMessage) × ReliabilityStore :=
  let s := (s.expireLocked now).1
  let message := message.stamped now
  let expiresAt := message.sentAt + s.ttl
  if expiresAt ≤ now then (.error .expired, s)
  else (.ok (s.putLive message expiresAt).1, (s.putLive message expiresAt).2)

def acknowledge (s : ReliabilityStore) (now : Time) (messageID : Int) : Bool × ReliabilityStore :=
  let s := (s.expireLocked now).1
  match s.entries.lookup messageID with
  | none => (false, s)
  | some item =>
    let message := { (s.memory item).message with acknowledged := true }
    (true, s.overwrite item { s.memory item with message := message })

def lookup (s : ReliabilityStore) (now : Time) (messageID : Int) :
    Option SentMessage × ReliabilityStore :=
  let s := (s.expireLocked now).1
  ((s.entries.lookup messageID).map fun item => (s.memory item).message, s)

def lookupForResend (s : ReliabilityStore) (now : Time) (messageID : Int) :
    Option SentMessage × ReliabilityStore :=
  let s := (s.expireLocked now).1
  match s.entries.lookup messageID with
  | none => (none, s)
  | some item =>
    if (s.memory item).message.acknowledged then (none, s) else (some (s.memory item).message, s)

def remove (s : ReliabilityStore) (now : Time) (messageID : Int) :
    Option SentMessage × ReliabilityStore :=
  let s := (s.expireLocked now).1
  match s.entries.lookup messageID with
  | none => (none, s)
  | some item =>
    let s := (expiryHeap.heapRemove s (s.memory item).index.toNat).2
    (some (s.memory item).message, { s with entries := s.entries.erase messageID })

def expire (s : ReliabilityStore) (now : Time) : Nat × ReliabilityStore :=
  ((s.expireLocked now).2, (s.expireLocked now).1)

def len (s : ReliabilityStore) (now : Time) : Nat × ReliabilityStore :=
  ((s.expireLocked now).1.entries.keys.length, (s.expireLocked now).1)

/-- One turn of the loop of `LookupResponse`; `found` is the newest response so far. -/
def newerResponse (requestID : Int) (found : Option SentMessage) (message : SentMessage) :
    Option SentMessage :=
  if message.requestMessageID = requestID ∧ requestID ≠ 0 ∧
      (∀ newest ∈ found, message.messageID > newest.messageID) then some message
  else found

/-- The order in which a loop over a map visits its values, which Go leaves open. -/
structure MapOrder where
  visit : List EntryRef → List EntryRef
  perm : ∀ values, (visit values).Perm values

def lookupResponse (s : ReliabilityStore) (now : Time) (requestID : Int) (order : MapOrder) :
    Option SentMessage × ReliabilityStore :=
  let s := (s.expireLocked now).1
  let items := order.visit (s.entries.entries.map Sigma.snd)
  ((items.map fun item => (s.memory item).message).foldl (newerResponse requestID) none, s)

end ReliabilityStore

end Tlrpc
