import Mathlib.Data.List.AList
import Tlrpc.LittleEndian
import Tlrpc.Session

namespace Tlrpc

structure AuthKey where
  bytes : List UInt8
  length : bytes.length = 256
deriving DecidableEq

def computeAuthKeyID (sha1 : List UInt8 → List UInt8) (authKey : List UInt8) : KeyID :=
  UInt64.ofNat (leNat ((sha1 authKey).drop ((sha1 authKey).length - 8)))

def AuthKey.id (sha1 : List UInt8 → List UInt8) (k : AuthKey) : KeyID := computeAuthKeyID sha1 k.bytes

structure TemporaryAuthKeyInfo where
  expiresAt : Time
  permanentKeyID : KeyID
deriving DecidableEq

inductive AuthKeyError
  | notFound
  | temporaryKeyUnsupported
  | temporaryKeyAlreadyBound
  | temporaryKeyExpiry
  | invalidKeyBinding
deriving DecidableEq

def maxTemporaryAuthKeyLifetime : Int := 24 * 3600 * second

structure MemoryAuthKeyManager where
  keys : KeyID → Option AuthKey
  temporary : AList fun _ : KeyID => TemporaryAuthKeyInfo

def newMemoryAuthKeyManager : MemoryAuthKeyManager := ⟨fun _ => none, ∅⟩

/-- What `PutTemporary` reads: before the lock, for each entry of its sweep, for the timer. -/
structure PutTemporaryClock where
  checked : Time
  capped : Time
  swept : KeyID → Time
  inserted : Time

def PutTemporaryClock.Sweeps (clock : PutTemporaryClock) (now : Time) (ids : List KeyID) : Prop :=
  ∀ id ∈ ids, now ≤ clock.swept id ∧ clock.swept id ≤ clock.inserted

-- by the list: the instance search would go through all key IDs
instance decidableSweeps (clock : PutTemporaryClock) (now : Time) (ids : List KeyID) :
    Decidable (clock.Sweeps now ids) := List.decidableBAll _ _

namespace MemoryAuthKeyManager

def get (m : MemoryAuthKeyManager) (now : Time) (keyID : KeyID) : Except AuthKeyError AuthKey :=
  match m.keys keyID, m.temporary.lookup keyID with
  | none, _ => .error .notFound
  | some key, none => .ok key
  | some key, some info =>
    if now < info.expiresAt ∧ (info.permanentKeyID ≠ 0 → (m.keys info.permanentKeyID).isSome) then .ok key
    else .error .notFound

def put (m : MemoryAuthKeyManager) (keyID : KeyID) (key : AuthKey) : MemoryAuthKeyManager :=
  { m with keys := Function.update m.keys keyID (some key) }

def discard (m : MemoryAuthKeyManager) (keyID : KeyID) : MemoryAuthKeyManager :=
  ⟨Function.update m.keys keyID none, m.temporary.erase keyID⟩

def discardWhere (m : MemoryAuthKeyManager) (due : KeyID → TemporaryAuthKeyInfo → Bool) :
    MemoryAuthKeyManager :=
  m.temporary.entries.foldl (fun m entry => if due entry.1 entry.2 then m.discard entry.1 else m) m

def delete (m : MemoryAuthKeyManager) (keyID : KeyID) : MemoryAuthKeyManager :=
  (m.discard keyID).discardWhere fun _ info => info.permanentKeyID = keyID

def sweep (m : MemoryAuthKeyManager) (swept : KeyID → Time) : MemoryAuthKeyManager :=
  m.discardWhere fun id info => info.expiresAt ≤ swept id

def putTemporary (m : MemoryAuthKeyManager) (sha1 : List UInt8 → List UInt8) (clock : PutTemporaryClock)
    (id : KeyID) (key : AuthKey) (expires : Time) : Except AuthKeyError Unit × MemoryAuthKeyManager :=
  if expires ≤ clock.checked ∨ clock.capped + maxTemporaryAuthKeyLifetime < expires ∨ key.id sha1 ≠ id then
    (.error .temporaryKeyExpiry, m)
  else
    let m := m.sweep clock.swept
    if m.temporary.keys.length ≥ 4096 then (.error .temporaryKeyExpiry, m)
    else if (m.keys id).isSome then (.error .invalidKeyBinding, m)
    else
      (.ok (), ⟨Function.update m.keys id (some key), m.temporary.insert id ⟨expires, 0⟩⟩)

def timerFired (m : MemoryAuthKeyManager) (now : Time) (id : KeyID) : MemoryAuthKeyManager :=
  match m.temporary.lookup id with
  | some info => if now < info.expiresAt then m else m.discard id
  | none => m

def bindTemporary (m : MemoryAuthKeyManager) (now : Time) (id parent : KeyID) (expires : Time) :
    Except AuthKeyError Unit × MemoryAuthKeyManager :=
  match m.temporary.lookup id with
  | none => (.error .notFound, m)
  | some info =>
    if m.keys parent = none then (.error .notFound, m)
    else if (m.temporary.lookup parent).isSome ∨ parent = id then (.error .invalidKeyBinding, m)
    else if info.permanentKeyID ≠ 0 ∧ info.permanentKeyID ≠ parent then
      (.error .temporaryKeyAlreadyBound, m)
    else if expires ≤ now ∨ info.expiresAt < expires then (.error .temporaryKeyExpiry, m)
    else (.ok (), { m with temporary := m.temporary.insert id ⟨expires, parent⟩ })

end MemoryAuthKeyManager

/-- A temporary key: expiry, bindings in order, whether a bound key was deleted. -/
structure TemporaryLife where
  number : Nat
  insertedAt : Time
  expiresAt : Time
  parents : List KeyID
  orphaned : Bool
deriving DecidableEq

/-- A manager with its clock, pending timers and temporary keys. -/
structure KeyHistory where
  manager : MemoryAuthKeyManager
  now : Time
  timers : List (KeyID × Time)
  lives : KeyID → Option TemporaryLife
  inserted : Nat

def newKeyHistory (now : Time) : KeyHistory :=
  ⟨newMemoryAuthKeyManager, now, [], fun _ => none, 0⟩

inductive AuthKeyOp
  | get (id : KeyID) (now : Time)
  | put (id : KeyID) (key : AuthKey)
  | delete (id : KeyID)
  | putTemporary (id : KeyID) (key : AuthKey) (expires : Time) (clock : PutTemporaryClock)
  | bindTemporary (id parent : KeyID) (expires now : Time)
  | timer (index : Nat) (now : Time)

namespace KeyHistory

def follow (s : KeyHistory) (m : MemoryAuthKeyManager) : KeyHistory :=
  { s with manager := m, lives := fun id => if (m.keys id).isSome then s.lives id else none }

def orphan (s : KeyHistory) (parent : KeyID) : KeyHistory :=
  { s with
    lives := fun id => (s.lives id).map fun life =>
      { life with orphaned := life.orphaned || life.parents.contains parent } }

def begin (s : KeyHistory) (id : KeyID) (expires : Time) : KeyHistory :=
  { s with
    lives := Function.update s.lives id (some ⟨s.inserted, s.now, expires, [], false⟩)
    inserted := s.inserted + 1
    timers := s.timers ++ [(id, expires)] }

def rebind (s : KeyHistory) (id parent : KeyID) (expires : Time) : KeyHistory :=
  { s with
    lives := Function.update s.lives id ((s.lives id).map fun life =>
      { life with expiresAt := expires, parents := life.parents ++ [parent] })
    timers := s.timers ++ [(id, expires)] }

/-- The clock never goes back under the lock; what `PutTemporary` read before it may be older. -/
def step (sha1 : List UInt8 → List UInt8) (s : KeyHistory) : AuthKeyOp → Option KeyHistory
  | .get _ now => if s.now ≤ now then some { s with now := now } else none
  | .put id key =>
    if (s.manager.temporary.lookup id).isSome then none else some (s.follow (s.manager.put id key))
  | .delete id => some ((s.orphan id).follow (s.manager.delete id))
  | .putTemporary id key expires clock =>
    if clock.checked ≤ clock.capped ∧ clock.capped ≤ clock.inserted ∧ s.now ≤ clock.inserted ∧
        clock.Sweeps s.now s.manager.temporary.keys then
      let s := { s with now := clock.inserted }
      match s.manager.putTemporary sha1 clock id key expires with
      | (.ok _, m) => some ((s.follow m).begin id expires)
      | (.error _, m) => some (s.follow m)
    else none
  | .bindTemporary id parent expires now =>
    if s.now ≤ now then
      let s := { s with now := now }
      match s.manager.bindTemporary now id parent expires with
      | (.ok _, m) => some ((s.follow m).rebind id parent expires)
      | (.error _, m) => some (s.follow m)
    else none
  | .timer index now =>
    match s.timers[index]? with
    | some (id, expires) =>
      if s.now ≤ now ∧ expires ≤ now then
        some ({ s with now := now, timers := s.timers.eraseIdx index }.follow
          (s.manager.timerFired now id))
      else none
    | none => none

end KeyHistory

end Tlrpc
