import Tlrpc.RetainedMap
import Tlrpc.WriterLoop

namespace Tlrpc

inductive FramePurpose
  | messages (sent : List AssignedMessage)
  | replay (requestID messageID : Int)
  | resend (messageID : Int)
deriving DecidableEq

structure FrameWrite where
  purpose : FramePurpose
  frame : List UInt8
  ok : Bool
deriving DecidableEq

inductive WriterEvent
  | write (w : FrameWrite)
  | acknowledged (messageIDs : List Int)
deriving DecidableEq

def WriterEvent.carries : WriterEvent → Int → Prop
  | .write ⟨.messages sent, _, true⟩, id => id ∈ sent.map AssignedMessage.messageID
  | _, _ => False

def WriterEvent.acknowledges : WriterEvent → Int → Prop
  | .acknowledged messageIDs, id => id ∈ messageIDs
  | _, _ => False

/-- What one request meets; `written` tells which calls of `WriteFrame` succeed. -/
structure RequestWorld where
  canceled : Bool
  snapshotError : Option WriterError
  encrypt : InnerData → KeyID → Option (List UInt8)
  now : Time
  saveError : Option WriterError
  sentAt : Time
  clock : Nat → Time
  order : ReliabilityStore.MapOrder
  written : Nat → Bool

/-- `source` are the readings of the writer's ID source, `drawn` of them taken. -/
structure SerialWriter where
  maxEncodedBytes : Nat
  source : Nat → Int
  drawn : Nat
  snapshot : Snapshot
  store : ReliabilityStore
  events : List WriterEvent
  stopped : Bool

def newSerialWriter (maxEncodedBytes : Nat) (source : Nat → Int) (snapshot : Snapshot)
    (store : ReliabilityStore) : SerialWriter :=
  ⟨maxEncodedBytes, source, 0, snapshot, store, [], false⟩

inductive SerialOp
  | request (operation : WriterOperation) (world : RequestWorld)
  | saveOther (next : Snapshot)

namespace SerialWriter

def log (w : SerialWriter) (event : WriterEvent) : SerialWriter :=
  { w with events := w.events ++ [event] }

def writeFrame (w : SerialWriter) (purpose : FramePurpose) (frame : List UInt8) (ok : Bool) :
    SerialWriter × Option WriterError :=
  (w.log (.write ⟨purpose, frame, ok⟩), if ok then none else some .sink)

def resendAll (world : RequestWorld) : Nat → SerialWriter → List Int → SerialWriter × Option WriterError
  | _, w, [] => (w, none)
  | k, w, messageID :: rest =>
    let found := w.store.lookupForResend (world.clock k) messageID
    let w := { w with store := found.2 }
    match found.1 with
    | none => (w, some (.retainedMessageNotFound messageID))
    | some retained =>
      match w.writeFrame (.resend messageID) retained.payload (world.written k) with
      | (w, some err) => (w, some err)
      | (w, none) => resendAll world (k + 1) w rest

def writerEnv (w : SerialWriter) (world : RequestWorld) : WriterEnv :=
  ⟨w.maxEncodedBytes, fun k => w.source (w.drawn + k), world.encrypt, world.now⟩

/-- `process` from `lease.Save` on. -/
def commit (w : SerialWriter) (world : RequestWorld) (prepared : PreparedFrame) (next : Snapshot) :
    SerialWriter × Option WriterError :=
  match world.saveError with
  | some err => (w, some err)
  | none =>
    let result := retainMessages prepared.frame world.sentAt world.clock w.store prepared.messages
    let w := { w with snapshot := next, store := result.2 }
    if result.1 then w.writeFrame (.messages prepared.messages) prepared.frame (world.written 0)
    else (w, some .expired)

/-- The default case of `process`. After a failed `prepare` the writer ends. -/
def send (w : SerialWriter) (world : RequestWorld) (intent : Intent) :
    SerialWriter × Option WriterError :=
  match world.snapshotError with
  | some err => (w, some err)
  | none =>
    match prepare (w.writerEnv world) w.snapshot intent with
    | none => (w, some .encoding)
    | some (prepared, next) =>
      { w with drawn := w.drawn + prepared.messages.length }.commit world prepared next

/-- Besides the writer: whether it is to stop, and the error. -/
def process (w : SerialWriter) (world : RequestWorld) : Intent → SerialWriter × Bool × Option WriterError
  | .close => (w, true, none)
  | .resend messageIDs =>
    let result := resendAll world 0 w messageIDs
    (result.1, false, result.2)
  | intent =>
    let result := w.send world intent
    (result.1, false, result.2)

/-- The response, whether the writer is to stop, and the error that ends it. -/
def processRequest (w : SerialWriter) (world : RequestWorld) :
    WriterOperation → SerialWriter × WriterResponse × Bool × Option WriterError
  | .submit intent =>
    let result := w.process world intent
    (result.1, ⟨.unknown, result.2.2⟩, result.2.1, result.2.2)
  | .acknowledge messageIDs =>
    if world.canceled then (w, .failure .canceled, false, none)
    else
      ({ w with store := acknowledgeAll world.clock w.store messageIDs }.log (.acknowledged messageIDs),
        ⟨.unknown, none⟩, false, none)
  | .inspect messageID =>
    if world.canceled then (w, .failure .canceled, false, none)
    else
      let found := w.store.lookup (world.clock 0) messageID
      let acknowledged := found.1.any (·.acknowledged)
      ({ w with store := found.2 },
        ⟨⟨found.1.isSome, acknowledged, found.1.isSome && !acknowledged⟩, none⟩, false, none)
  | .replayResponse requestID =>
    if world.canceled then (w, .failure .canceled, false, none)
    else
      let found := w.store.lookupResponse (world.clock 0) requestID world.order
      let w := { w with store := found.2 }
      let known : WriterResponse := ⟨⟨found.1.isSome, false, false⟩, none⟩
      match found.1 with
      | none => (w, known, false, none)
      | some message =>
        if message.acknowledged then (w, known, false, none)
        else match w.writeFrame (.replay requestID message.messageID) message.payload (world.written 0) with
          | (w, some err) => (w, .failure err, false, some err)
          | (w, none) => (w, known, false, none)

/-- `Writer.run` with requests in its order, pushes in batches. Others may save in between. -/
def step (w : SerialWriter) : SerialOp → Option SerialWriter
  | .request operation world =>
    if w.stopped then none
    else
      let result := w.processRequest world operation
      some { result.1 with stopped := result.2.2.1 || result.2.2.2.isSome }
  | .saveOther next => some { w with snapshot := next }

end SerialWriter

def SerialOp.repeats : SerialOp → Option RequestWorld
  | .request (.replayResponse _) world => some world
  | .request (.submit (.resend _)) world => some world
  | _ => none

end Tlrpc
