import Tlrpc.CallerCancelled
import Tlrpc.MsgIDGenerator
import Tlrpc.Tally

namespace Tlrpc

/-- The IDs that `prepare` took, each with its message. A container's own ID has none. -/
structure MessageNumbering where
  intent : Intent
  ids : List (Int × Option MessageIntent)

/-- The IDs of messages, up to the first that cannot be encoded. -/
def messageNumbers (maxBytes : Nat) :
    (Nat → Int) → List MessageIntent → List (Int × Option MessageIntent)
  | _, [] => []
  | ids, intent :: rest =>
    match encodeIntentBodyBounded maxBytes intent with
    | none => []
    | some encoded =>
      (nextMessageID (ids 0) encoded.push, some intent) ::
        messageNumbers maxBytes (fun k => ids (k + 1)) rest

/-- The calls of `nextMessageID` in `prepare`, whether it succeeds or not. -/
def numbers (env : WriterEnv) (snapshot : Snapshot) : Intent → List (Int × Option MessageIntent)
  | .message m => messageNumbers env.maxEncodedBytes env.ids [m]
  | .batch items =>
    if items.length > defaultMaxVectorElements then []
    else messageNumbers env.maxEncodedBytes env.ids items ++
      if (assignFrame env snapshot (.batch items)).isSome then
        [(nextMessageID (env.ids items.length) false, none)]
      else []
  | _ => []

/-- `received` are the calls as they arrive, `replied` the groups as they are replied to. -/
structure BatchingWriter where
  loop : WriterLoop
  generator : MsgIDGenerator
  received : List CallID := []
  replied : List (List CallID) := []
  numberings : List MessageNumbering := []

/-- `breakDown` is an error of the store or the sink, `stop` the end of the own context. -/
inductive BatchingOp
  | loop (op : WriterOp)
  | prepare (clock : Nat → ClockReading) (encrypt : InnerData → KeyID → Option (List UInt8)) (now : Time)
  | breakDown (err : WriterError)
  | stop

def WriterOp.takes : WriterOp → List CallID
  | .receive call | .collect call => [call]
  | _ => []

def WriterLoop.answers (w : WriterLoop) : WriterOp → List (List CallID)
  | .reply => (w.stage.job.map (·.group)).toList
  | _ => []

def WriterLoop.breakDown (w : WriterLoop) (err : WriterError) : Option WriterLoop :=
  match w.stage with
  | .storing job _ _ | .checking job _ _ _ _ | .writing job _ _ _ _ =>
    some (w.fail job err (w.groupCanceled job.group))
  | _ => none

def WriterLoop.stop (w : WriterLoop) : Option WriterLoop :=
  match w.stage with
  | .selecting _ => some { w with stage := .stopped .leaseEnded }
  | _ => none

namespace BatchingWriter

def start (config : WriterConfig) (canceled : ContextID → Bool) (snapshot : Snapshot)
    (store : ReliabilityStore) (generator : MsgIDGenerator) : BatchingWriter where
  loop := newWriter config canceled snapshot store
  generator := generator

def stepLoop (s : BatchingWriter) (op : WriterOp) : Option BatchingWriter :=
  (s.loop.step op).map fun loop => { s with
    loop
    received := s.received ++ op.takes
    replied := s.replied ++ s.loop.answers op }

/-- The step that prepares a group, with the IDs of the generator. -/
def prepare (s : BatchingWriter) (clock : Nat → ClockReading)
    (encrypt : InnerData → KeyID → Option (List UInt8)) (now : Time) : Option BatchingWriter :=
  match s.loop.stage.job.bind fun job => s.loop.groupIntent job.group with
  | none => none
  | some intent =>
    let ids := s.generator.ids clock
    let taken :=
      if s.loop.active then
        numbers ⟨s.loop.config.maxEncodedBytes, ids, encrypt, now⟩ s.loop.snapshot intent
      else []
    (s.loop.prepareGroup ids encrypt now).map fun loop => { s with
      loop
      generator := s.generator.after clock taken.length
      numberings := s.numberings ++ [⟨intent, taken⟩] }

def step (s : BatchingWriter) : BatchingOp → Option BatchingWriter
  | .loop (.prepare _ _ _) => none
  | .loop op => s.stepLoop op
  | .prepare clock encrypt now => s.prepare clock encrypt now
  | .breakDown err => (s.loop.breakDown err).map fun loop => { s with loop }
  | .stop => s.loop.stop.map fun loop => { s with loop }

def ids (s : BatchingWriter) : List (Int × Option MessageIntent) := s.numberings.flatMap (·.ids)

end BatchingWriter

end Tlrpc
