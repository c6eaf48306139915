import Tlrpc.Counters
import Tlrpc.PushRegistry
import Tlrpc.StepSystem
import Tlrpc.Tally

namespace Tlrpc

abbrev ConnRef := Nat

structure ConnectionState where
  id : UInt64
  remoteIP : String
  authKeyID : Int64 := 0
  authCounted : Bool := false
  handshakeObserved : Bool := false
  closeReason : String := ""
  activeConnections : Int := 0
  activeConnectionsForIP : Int := 0
  activeConnectionsForAuth : Int := 0
  activeSessionsOnConnection : Int := 0
  activeSessions : List SessionKey := []

/-- Where `serveConn` stands: the ID it has got, what admission said, and the end. -/
inductive ServeStage
  | fresh
  | accepted (remoteIP : String)
  | identified (remoteIP : String) (id : UInt64)
  | rejected
  | running
  | finished
  | gone
deriving DecidableEq

/-- What `lifecycleMu` protects. `underflows` counts decrements that a guard stopped. -/
structure QuotaServer where
  maxConnections : Int
  maxConnectionsPerIP : Int
  maxConnectionsPerAuthKey : Int
  stopped : Bool := false
  connections : List ConnRef := []
  connectionStates : List ConnRef := []
  connectionByID : AList (fun _ : UInt64 => ConnRef) := ∅
  nextConnectionID : UInt64 := 0
  activeConnectionsByIP : Counters String := ∅
  activeConnectionsByAuth : Counters Int64 := ∅
  activeSessions : Int := 0
  memory : ConnRef → ConnectionState := fun _ => { id := 0, remoteIP := "" }
  stage : ConnRef → ServeStage := fun _ => .fresh
  underflows : Nat := 0

inductive QuotaOp
  | serve (c : ConnRef) (remoteIP : String)
  | advance (c : ConnRef)
  | bound (binding : Binding)
  | unbound (binding : Binding)
  | stop

namespace QuotaServer

def store (s : QuotaServer) (c : ConnRef) (state : ConnectionState) : QuotaServer :=
  { s with memory := Function.update s.memory c state }

def goto (s : QuotaServer) (c : ConnRef) (stage : ServeStage) : QuotaServer :=
  { s with stage := Function.update s.stage c stage }

def admitConnection (s : QuotaServer) (c : ConnRef) (remoteIP : String) (id : UInt64) :
    QuotaServer × Bool :=
  let state : ConnectionState := { id, remoteIP }
  if s.maxConnections > 0 ∧ s.connections.length > s.maxConnections then (s.store c state, false)
  else if remoteIP ≠ "" ∧ s.maxConnectionsPerIP > 0 ∧
      Counters.count s.activeConnectionsByIP remoteIP ≥ s.maxConnectionsPerIP then
    (s.store c state, false)
  else
    let byIP :=
      if remoteIP ≠ "" then Counters.raise s.activeConnectionsByIP remoteIP
      else s.activeConnectionsByIP
    ({ s with
      connectionStates := s.connectionStates ++ [c]
      connectionByID := s.connectionByID.insert id c
      activeConnectionsByIP := byIP }.store c
        { state with
          activeConnections := s.connections.length
          activeConnectionsForIP := Counters.count byIP remoteIP }, true)

def lowerGuarded (counter : Int × Nat) : Int × Nat :=
  if counter.1 > 0 then (counter.1 - 1, counter.2) else (counter.1, counter.2 + 1)

def lowerSessions (keys : List SessionKey) (counter : Int × Nat) : Int × Nat :=
  keys.foldl (fun counter _ => lowerGuarded counter) counter

def underflowOf (count : Int) : Nat := if count - 1 < 0 then 1 else 0

def finishMaps (s : QuotaServer) (c : ConnRef) : QuotaServer :=
  { s with
    connectionStates := s.connectionStates.erase c
    connectionByID := s.connectionByID.erase (s.memory c).id }

def finishIP (s : QuotaServer) (c : ConnRef) : QuotaServer :=
  let state := s.memory c
  if state.remoteIP ≠ "" then
    let byIP := Counters.lower s.activeConnectionsByIP state.remoteIP
    { s with
      activeConnectionsByIP := byIP
      underflows := s.underflows +
        underflowOf (Counters.count s.activeConnectionsByIP state.remoteIP) }.store c
      { state with activeConnectionsForIP := Counters.count byIP state.remoteIP }
  else s

def finishAuth (s : QuotaServer) (c : ConnRef) : QuotaServer :=
  let state := s.memory c
  if state.authCounted ∧ state.authKeyID ≠ 0 then
    let byAuth := Counters.lower s.activeConnectionsByAuth state.authKeyID
    { s with
      activeConnectionsByAuth := byAuth
      underflows := s.underflows +
        underflowOf (Counters.count s.activeConnectionsByAuth state.authKeyID) }.store c
      { state with activeConnectionsForAuth := Counters.count byAuth state.authKeyID }
  else s

def finishSessions (s : QuotaServer) (c : ConnRef) : QuotaServer :=
  let state := s.memory c
  let counter := lowerSessions state.activeSessions (s.activeSessions, s.underflows)
  { s with activeSessions := counter.1, underflows := counter.2 }.store c
    { state with
      activeSessions := []
      activeSessionsOnConnection := 0
      activeConnections := s.connections.length - 1 }

def finishConnection (s : QuotaServer) (c : ConnRef) : QuotaServer :=
  if c ∈ s.connectionStates then (((s.finishMaps c).finishIP c).finishAuth c).finishSessions c else s

def countAuth (s : QuotaServer) (c : ConnRef) (authKeyID : Int64) : QuotaServer × Bool :=
  let state := s.memory c
  if ¬state.authCounted ∧ authKeyID ≠ 0 then
    let active := Counters.count s.activeConnectionsByAuth authKeyID
    if s.maxConnectionsPerAuthKey > 0 ∧ active ≥ s.maxConnectionsPerAuthKey then
      (s.store c { state with closeReason := "auth_connection_limit" }, false)
    else
      ({ s with activeConnectionsByAuth := Counters.raise s.activeConnectionsByAuth authKeyID }.store c
        { state with authKeyID, authCounted := true, activeConnectionsForAuth := active + 1 }, true)
  else (s, true)

def addSession (s : QuotaServer) (c : ConnRef) (key : SessionKey) : QuotaServer :=
  let state := s.memory c
  if key ∈ state.activeSessions then s
  else
    { s with activeSessions := s.activeSessions + 1 }.store c
      { state with
        activeSessions := state.activeSessions ++ [key]
        activeSessionsOnConnection := state.activeSessionsOnConnection + 1 }

def handleObservedSessionBound (s : QuotaServer) (binding : Binding) : QuotaServer :=
  match s.connectionByID.lookup binding.connectionID with
  | none => s
  | some c =>
    let observed := s.store c { s.memory c with handshakeObserved := true }
    let counted := observed.countAuth c binding.authKeyID
    if counted.2 then counted.1.addSession c binding.key else counted.1

def handleObservedSessionUnbound (s : QuotaServer) (binding : Binding) : QuotaServer :=
  match s.connectionByID.lookup binding.connectionID with
  | none => s
  | some c =>
    let state := s.memory c
    if binding.key ∈ state.activeSessions then
      let onConnection := lowerGuarded (state.activeSessionsOnConnection, s.underflows)
      let sessions := lowerGuarded (s.activeSessions, onConnection.2)
      { s with activeSessions := sessions.1, underflows := sessions.2 }.store c
        { state with
          activeSessions := state.activeSessions.erase binding.key
          activeSessionsOnConnection := onConnection.1 }
    else s

/-- The next section of `serveConn`, which runs until its setup fails or its run ends. -/
def advance (s : QuotaServer) (c : ConnRef) : ServeStage → Option QuotaServer
  | .accepted remoteIP =>
    let id := s.nextConnectionID + 1
    some ({ s with nextConnectionID := id }.goto c (.identified remoteIP id))
  | .identified remoteIP id =>
    let result := s.admitConnection c remoteIP id
    some (result.1.goto c (if result.2 then .running else .rejected))
  | .rejected =>
    some ({ s with
      connections := s.connections.erase c
      connectionStates := s.connectionStates.erase c }.goto c .gone)
  | .running => some ((s.finishConnection c).goto c .finished)
  | .finished => some ({ s with connections := s.connections.erase c }.goto c .gone)
  | _ => none

def step (s : QuotaServer) : QuotaOp → Option QuotaServer
  | .serve c remoteIP =>
    if s.stage c = .fresh then
      if s.stopped then some (s.goto c .gone)
      else some ({ s with connections := s.connections ++ [c] }.goto c (.accepted remoteIP))
    else none
  | .advance c => s.advance c (s.stage c)
  | .bound binding => some (s.handleObservedSessionBound binding)
  | .unbound binding => some (s.handleObservedSessionUnbound binding)
  | .stop => some { s with stopped := true }

end QuotaServer

end Tlrpc
