import Mathlib.Data.Finset.Card
import Mathlib.Data.List.AList
import Tlrpc.Session
import Tlrpc.StepSystem

namespace Tlrpc

/-- What ends a lease or `Connection.Run`, as far as it matters. -/
inductive ConnectionError
  | leaseLost
  | protocol
  | handshakeAuthKeyMismatch
  | sessionCapacity (capacity : Nat)
  | other (code : Nat)
deriving DecidableEq

/-- Where a `connectionSession` is in its `shutdown`. -/
inductive ActorStage
  | running
  | closing (cause : ConnectionError)
  | removed
deriving DecidableEq

/-- `cause` is what the context of the session's lease has ended with. -/
structure ConnectionActor where
  key : SessionKey
  cause : Option ConnectionError
  stage : ActorStage

abbrev ActorRef := Nat

/-- `Connection.Run`; `handleEncrypted` is before its `lease.Snapshot` or after it. -/
inductive RunStage
  | reading
  | acquiring (key : SessionKey)
  | routed (actor : ActorRef)
  | handling (actor : ActorRef)
  | ended (cause : ConnectionError)
deriving DecidableEq

/-- `acquired` records the keys that `Acquire` has been called for. -/
structure Connection where
  sessionCapacity : Nat
  sessions : AList (fun _ : SessionKey => ActorRef)
  poisoned : Finset SessionKey
  authKeyID : Option KeyID
  authorization : Option KeyID
  actors : ActorRef → ConnectionActor
  allocated : Nat
  run : RunStage
  closed : Bool
  acquired : List SessionKey

def defaultConnectionSessionCapacity : Nat := 16

def Connection.fresh (sessionCapacity : Nat) : Connection where
  sessionCapacity := sessionCapacity
  sessions := ∅
  poisoned := ∅
  authKeyID := none
  authorization := none
  actors _ := ⟨⟨0, 0⟩, none, .running⟩
  allocated := 0
  run := .reading
  closed := false
  acquired := []

/-- `NewConnection`; `none` is `ErrConnectionConfig`. -/
def newConnection (sessionCapacity : Int) : Option Connection :=
  if sessionCapacity < 0 then none
  else if sessionCapacity = 0 then some (.fresh defaultConnectionSessionCapacity)
  else some (.fresh sessionCapacity.toNat)

inductive ConnectionOp
  | readError (cause : ConnectionError)
  | readUnencrypted (result : Except ConnectionError (Option KeyID))
  | readEncrypted (authKeyID : KeyID) (sessionID : Int)
  | newConnectionSession (result : Except ConnectionError Unit)
  | leaseSnapshot
  | finishFrame (result : Except ConnectionError Unit)
  | endLease (actor : ActorRef) (cause : ConnectionError)
  | shutdownLease (actor : ActorRef)
  | shutdownActor (actor : ActorRef)
  | removeSession (actor : ActorRef)
  | close

namespace Connection

def stop (c : Connection) (cause : ConnectionError) : Connection := { c with run := .ended cause }

/-- The part of `sessionFor` before `newConnectionSession`. -/
def sessionFor (c : Connection) (key : SessionKey) : Connection :=
  if c.authKeyID.isSome ∧ c.authKeyID ≠ some key.authKeyID then c.stop .protocol
  else if key ∈ c.poisoned then c.stop .leaseLost
  else match c.sessions.lookup key with
    | some actor => { c with run := .routed actor }
    | none =>
      if c.sessionCapacity ≤ c.sessions.keys.length then
        c.stop (.sessionCapacity c.sessionCapacity)
      else { c with run := .acquiring key, acquired := c.acquired ++ [key] }

def handleEncrypted (c : Connection) (authKeyID : KeyID) (sessionID : Int) : Connection :=
  if c.authorization.isSome ∧ c.authorization ≠ some authKeyID then c.stop .handshakeAuthKeyMismatch
  else c.sessionFor ⟨authKeyID, sessionID⟩

def handleUnencrypted (c : Connection) (result : Except ConnectionError (Option KeyID)) : Connection :=
  if c.sessions.keys.length ≠ 0 ∨ c.authKeyID.isSome then c.stop .protocol
  else match result with
    | .error cause => c.stop cause
    | .ok authorization => { c with authorization := authorization }

/-- A read of a closed transport fails. -/
def read (c : Connection) (handle : Connection → Connection) : Option Connection :=
  if c.run = .reading ∧ c.closed = false then some (handle c) else none

/-- The rest of `sessionFor`. -/
def newConnectionSession (c : Connection) (result : Except ConnectionError Unit) : Option Connection :=
  match c.run with
  | .acquiring key =>
    match result with
    | .error cause => some (c.stop cause)
    | .ok () => some { c with
        sessions := c.sessions.insert key c.allocated
        authKeyID := some key.authKeyID
        actors := Function.update c.actors c.allocated ⟨key, none, .running⟩
        allocated := c.allocated + 1
        run := .routed c.allocated }
  | _ => none

def leaseSnapshot (c : Connection) : Option Connection :=
  match c.run with
  | .routed actor =>
    match (c.actors actor).cause with
    | some cause => some (c.stop cause)
    | none => some { c with run := .handling actor }
  | _ => none

def finishFrame (c : Connection) (result : Except ConnectionError Unit) : Option Connection :=
  match c.run with
  | .handling _ =>
    match result with
    | .error cause => some (c.stop cause)
    | .ok () => some { c with run := .reading }
  | _ => none

def setActor (c : Connection) (actor : ActorRef) (value : ConnectionActor) : Connection :=
  { c with actors := Function.update c.actors actor value }

/-- `Retire` with the given cause; only the first cause stays. -/
def endLease (c : Connection) (actor : ActorRef) (cause : ConnectionError) : Option Connection :=
  if actor < c.allocated ∧ (c.actors actor).cause = none then
    some (c.setActor actor { c.actors actor with cause := some cause })
  else none

/-- The goroutine that `start` leaves waiting for the lease calls `shutdown`. -/
def shutdownLease (c : Connection) (actor : ActorRef) : Option Connection :=
  match (c.actors actor).cause, (c.actors actor).stage with
  | some cause, .running =>
    if actor < c.allocated then
      some (c.setActor actor { c.actors actor with stage := .closing cause })
    else none
  | _, _ => none

/-- `Connection.shutdown` calls `shutdown` of a session, which retires its lease. -/
def shutdownActor (c : Connection) (actor : ActorRef) : Option Connection :=
  match c.run, (c.actors actor).stage with
  | .ended cause, .running =>
    if c.sessions.lookup (c.actors actor).key = some actor then
      some (c.setActor actor { c.actors actor with
        cause := some ((c.actors actor).cause.getD cause)
        stage := .closing cause })
    else none
  | _, _ => none

def isAcquiring (c : Connection) : Bool :=
  match c.run with
  | .acquiring _ => true
  | _ => false

def detach (c : Connection) (actor : ActorRef) (cause : ConnectionError) : Connection :=
  let key := (c.actors actor).key
  if c.sessions.lookup key = some actor then
    let c := { c with sessions := c.sessions.erase key }
    if cause = .leaseLost then
      let c := { c with poisoned := insert key c.poisoned }
      let closeConnection := c.sessions.keys.length = 0 ∨ c.sessionCapacity ≤ c.poisoned.card
      { c with closed := c.closed || closeConnection }
    else c
  else c

/-- The end of a session's `shutdown`. It waits for the connection's mutex. -/
def removeSession (c : Connection) (actor : ActorRef) : Option Connection :=
  match (c.actors actor).stage with
  | .closing cause =>
    if c.isAcquiring then none
    else some ((c.detach actor cause).setActor actor { c.actors actor with stage := .removed })
  | _ => none

def step (c : Connection) : ConnectionOp → Option Connection
  | .readError cause => if c.run = .reading then some (c.stop cause) else none
  | .readUnencrypted result => c.read (·.handleUnencrypted result)
  | .readEncrypted authKeyID sessionID => c.read (·.handleEncrypted authKeyID sessionID)
  | .newConnectionSession result => c.newConnectionSession result
  | .leaseSnapshot => c.leaseSnapshot
  | .finishFrame result => c.finishFrame result
  | .endLease actor cause => c.endLease actor cause
  | .shutdownLease actor => c.shutdownLease actor
  | .shutdownActor actor => c.shutdownActor actor
  | .removeSession actor => c.removeSession actor
  | .close => some { c with closed := true }

def isEnded (c : Connection) : Bool :=
  match c.run with
  | .ended _ => true
  | _ => false

/-- The session is attached with an active lease, and `Run` will serve its next frame. -/
def Serves (c : Connection) (key : SessionKey) (actor : ActorRef) : Prop :=
  c.isEnded = false ∧ c.sessions.lookup key = some actor ∧ (c.actors actor).cause = none

/-- The key of the frame that `Run` is about to refuse. -/
def refusedKey (c : Connection) : ConnectionOp → Option SessionKey
  | .readEncrypted authKeyID sessionID =>
    if ⟨authKeyID, sessionID⟩ ∈ c.poisoned then some ⟨authKeyID, sessionID⟩ else none
  | .leaseSnapshot =>
    match c.run with
    | .routed actor =>
      if (c.actors actor).cause = some .leaseLost then some (c.actors actor).key else none
    | _ => none
  | _ => none

/-- A frame is refused while another session lives and room for poisoned keys is left. -/
def endangers (c : Connection) (op : ConnectionOp) : Bool :=
  match c.refusedKey op with
  | some key =>
    c.sessions.entries.any (fun e => e.1 ≠ key && (c.actors e.2).cause = none) &&
      c.poisoned.card < c.sessionCapacity
  | none => false

def Unharmed (c : Connection) (op : ConnectionOp) (c' : Connection) : Prop :=
  ∀ key, c.refusedKey op = some key → c.poisoned.card < c.sessionCapacity →
    ∀ key' actor, key' ≠ key → c.Serves key' actor → c'.Serves key' actor

end Connection

end Tlrpc
