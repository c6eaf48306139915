import Tlrpc.DecodeBudget
import Tlrpc.Inbound

namespace Tlrpc

open BudgetReader DecodeBudget List

/-- What siblings take off the shared budget between two uses of a reader. -/
structure SiblingCharges where
  bytes : Int := 0
  elements : Int := 0
  nodes : Int := 0
  depth : Int := 0

def SiblingCharges.totalBytes : List SiblingCharges → Int
  | [] => 0
  | c :: rest => c.bytes + totalBytes rest

inductive BudgetCounter
  | vectorElements (count : Int)
  | enterObject
  | leaveObject

def DecodeBudget.count (b : DecodeBudget) : BudgetCounter → Except DecodeError DecodeBudget
  | .vectorElements count => b.consumeVectorElements count
  | .enterObject => b.enterObject
  | .leaveObject => .ok b.leaveObject

def BudgetReader.interfere (r : BudgetReader) (c : SiblingCharges) : BudgetReader :=
  { r with budget := { r.budget with
      decodedBytes := r.budget.decodedBytes + c.bytes
      vectorElements := r.budget.vectorElements + c.elements
      objectNodes := r.budget.objectNodes + c.nodes
      objectDepth := r.budget.objectDepth + c.depth } }

inductive ControlError
  | decode (err : DecodeError)
  | wrongConstructor (got want : UInt32)
  | negativeMessageBytes (bytes : Int32)
  | invalidVectorLength (count : Int32)
deriving DecidableEq

def maxContainerMessages : Int := 8192

structure TrailingControlData where
  bytes : Int
deriving DecidableEq

/-- What a `DeserializeTL` does: read, ask for `Len`, count on the budget. -/
inductive ReadProgram (ε α : Type)
  | done (result : Except ε α)
  | read (n : Nat) (next : List UInt8 → Option DecodeError → ReadProgram ε α)
  | len (next : Int → ReadProgram ε α)
  | count (counter : BudgetCounter) (next : Option DecodeError → ReadProgram ε α)

namespace ReadProgram

variable {ε α : Type}

/-- `others` are the siblings' charges before each use; one inside a `Read` counts as after it. -/
def run : ReadProgram ε α → BudgetReader → List SiblingCharges → Except ε α × BudgetReader
  | .done result, r, others => (result, others.foldl BudgetReader.interfere r)
  | .read n next, r, others =>
    let got := (r.interfere (others.headD {})).read n
    (next got.1.1 got.1.2).run got.2 others.tail
  | .len next, r, others =>
    (next (r.interfere (others.headD {})).len).run (r.interfere (others.headD {})) others.tail
  | .count counter next, r, others =>
    match (r.interfere (others.headD {})).budget.count counter with
    | .error err => (next (some err)).run (r.interfere (others.headD {})) others.tail
    | .ok budget => (next none).run ⟨r.source, budget⟩ others.tail

def decode (program : ReadProgram ε α) (body : List UInt8) (budget : DecodeBudget)
    (others : List SiblingCharges) : Except ε α × BudgetReader :=
  program.run ⟨{ data := body }, budget⟩ others

def runPlain : ReadProgram ε α → ByteSource → Except ε α × ByteSource
  | .done result, s => (result, s)
  | .read n next, s =>
    let got : (List UInt8 × Option DecodeError) × ByteSource := s.read n
    (next got.1.1 got.1.2).runPlain got.2
  | .len next, s => (next s.data.length).runPlain s
  | .count _ next, s => (next none).runPlain s

def bind {β : Type} : ReadProgram ε α → (α → ReadProgram ε β) → ReadProgram ε β
  | .done (.error err), _ => .done (.error err)
  | .done (.ok value), next => next value
  | .read n step, next => .read n fun bytes err => (step bytes err).bind next
  | .len step, next => .len fun n => (step n).bind next
  | .count counter step, next => .count counter fun err => (step err).bind next

def readFull (wanted : Nat) : Nat → List UInt8 → ReadProgram ControlError (List UInt8)
  | 0, _ => .done (.error (.decode .unexpectedEOF))
  | fuel + 1, got =>
    if wanted ≤ got.length then .done (.ok got)
    else .read (wanted - got.length) fun bytes err =>
      if wanted ≤ (got ++ bytes).length then .done (.ok (got ++ bytes))
      else match err with
        | none => readFull wanted fuel (got ++ bytes)
        | some err =>
          .done (.error (.decode (if err = .eof ∧ got ++ bytes ≠ [] then .unexpectedEOF else err)))

def readUint32 : ReadProgram ControlError UInt32 :=
  (readFull 4 5 []).bind fun bytes => .done (.ok (leUint32 bytes))

def readInt32 : ReadProgram ControlError Int32 :=
  readUint32.bind fun value => .done (.ok value.toInt32)

def readInt64 : ReadProgram ControlError Int64 :=
  (readFull 8 9 []).bind fun bytes => .done (.ok (UInt64.ofNat (leNat bytes)).toInt64)

def readSizedBytes (length : Nat) : ReadProgram ControlError (List UInt8) :=
  .len fun remaining =>
    if length > remaining then .done (.error (.decode .unexpectedEOF))
    else readFull length (length + 1) []

def readConstructor (want : UInt32) : ReadProgram ControlError Unit :=
  readUint32.bind fun got =>
    .done (if got ≠ want then .error (.wrongConstructor got want) else .ok ())

def ping : ReadProgram ControlError Int64 := (readConstructor pingID).bind fun _ => readInt64

def message : ReadProgram ControlError ContainerItem :=
  readInt64.bind fun msgID => readInt32.bind fun seqNo => readInt32.bind fun bytes =>
    if bytes < 0 then .done (.error (.negativeMessageBytes bytes))
    else (readSizedBytes bytes.toInt.toNat).bind fun body => .done (.ok ⟨msgID.toInt, seqNo, body⟩)

def messages : Nat → ReadProgram ControlError (List ContainerItem)
  | 0 => .done (.ok [])
  | n + 1 => message.bind fun item => (messages n).bind fun rest => .done (.ok (item :: rest))

/-- `MsgContainer.DeserializeTL`, with `ReadBareVectorBounded`. -/
def msgContainer : ReadProgram ControlError (List ContainerItem) :=
  (readConstructor msgContainerID).bind fun _ => readInt32.bind fun count =>
    if count < 0 then .done (.error (.invalidVectorLength count))
    else if count.toInt > maxContainerMessages then .done (.error (.decode .vectorTooLong))
    else .count (.vectorElements count.toInt) fun
      | some err => .done (.error (.decode err))
      | none => messages count.toInt.toNat

end ReadProgram

section

variable {ε α : Type}

/-- A nil budget leaves the plain reader. -/
def decodeControlBudget (body : List UInt8) (value : ReadProgram ε α) (budget : Option DecodeBudget)
    (others : List SiblingCharges) : Except (Sum ε TrailingControlData) α :=
  match budget with
  | none =>
    match value.runPlain { data := body } with
    | (.error err, _) => .error (.inl err)
    | (.ok v, s) => if s.data.length ≠ 0 then .error (.inr ⟨s.data.length⟩) else .ok v
  | some budget =>
    match value.decode body budget others with
    | (.error err, _) => .error (.inl err)
    | (.ok v, r) => if r.len ≠ 0 then .error (.inr ⟨r.len⟩) else .ok v

/-- The part of `classifyProtocolMessage` that decodes a container. -/
def decodeContainer (container : ReadProgram ε (List ContainerItem)) (budget : DecodeBudget)
    (others : List SiblingCharges) (body : List UInt8) : Except InboundError (List ContainerItem) :=
  match budget.consumeContainer with
  | .error _ => .error (.decode "container count")
  | .ok budget =>
    match container.decode body budget others with
    | (.error _, _) => .error (.decode "container")
    | (.ok items, r) => if r.len ≠ 0 then .error .trailingContainerData else .ok items

theorem BudgetReader.interfere_remaining (r : BudgetReader) (c : SiblingCharges) :
    (r.interfere c).budget.remaining = r.budget.remaining - c.bytes := by
  simp only [interfere, remaining]
  omega

theorem BudgetReader.foldl_interfere (others : List SiblingCharges) (r : BudgetReader) :
    (others.foldl BudgetReader.interfere r).source = r.source ∧
      (others.foldl BudgetReader.interfere r).budget.remaining =
        r.budget.remaining - SiblingCharges.totalBytes others := by
  induction others generalizing r with
  | nil => exact ⟨rfl, (Int.sub_zero _).symm⟩
  | cons c rest ih =>
    obtain ⟨hs, hr⟩ := ih (r.interfere c)
    refine ⟨hs, ?_⟩
    rw [foldl_cons, hr, interfere_remaining, SiblingCharges.totalBytes]
    omega

theorem SiblingCharges.totalBytes_eq (others : List SiblingCharges) :
    totalBytes others = (others.headD {}).bytes + totalBytes others.tail := by
  cases others <;> rfl

theorem DecodeBudget.count_remaining {b b' : DecodeBudget} {counter : BudgetCounter}
    (h : b.count counter = .ok b') : b'.remaining = b.remaining := by
  cases counter <;>
    simp only [count, consumeVectorElements, enterObject, leaveObject] at h <;> grind [remaining]

/-- The budget pays for the bytes that a decoder takes and for its siblings. -/
theorem ReadProgram.run_charges (program : ReadProgram ε α) (r : BudgetReader)
    (others : List SiblingCharges) : ∃ taken, taken ++ (program.run r others).2.source.data = r.source.data ∧
      (program.run r others).2.source.sized = r.source.sized ∧ (program.run r others).2.budget.remaining =
        r.budget.remaining - taken.length - SiblingCharges.totalBytes others := by
  induction program generalizing r others with
  | done result =>
    obtain ⟨hs, hr⟩ := foldl_interfere others r
    simp only [run]
    exact ⟨[], by rw [hs]; rfl, by rw [hs], by rw [hr]; simp⟩
  | read n next ih =>
    rw [SiblingCharges.totalBytes_eq others]
    obtain ⟨⟨⟨bytes, err⟩, r'⟩, hgot⟩ : ∃ x, x = (r.interfere (others.headD {})).read n := ⟨_, rfl⟩
    obtain ⟨_, hspl, hsz, hbud, _⟩ := read_spec hgot.symm
    obtain ⟨taken, hda, hsz', hr⟩ := ih bytes err r' others.tail
    simp only [run, ← hgot]
    refine ⟨bytes ++ taken, ?_, hsz'.trans hsz, ?_⟩
    · rw [append_assoc, hda]
      exact hspl
    · rw [hr, hbud, remaining_charge, interfere_remaining, length_append]
      omega
  | len next ih =>
    rw [SiblingCharges.totalBytes_eq others]
    obtain ⟨taken, hda, hsz, hr⟩ := ih (r.interfere (others.headD {})).len
      (r.interfere (others.headD {})) others.tail
    rw [interfere_remaining] at hr
    simp only [run]
    exact ⟨taken, hda, hsz, by omega⟩
  | count counter next ih =>
    rw [SiblingCharges.totalBytes_eq others]
    have hi := interfere_remaining r (others.headD {})
    unfold run
    split
    next err herr =>
      obtain ⟨taken, hda, hsz, hr⟩ := ih (some err) (r.interfere (others.headD {})) others.tail
      exact ⟨taken, hda, hsz, by omega⟩
    rename_i budget hok
    obtain ⟨taken, hda, hsz, hr⟩ := ih none ⟨r.source, budget⟩ others.tail
    have hc := count_remaining hok
    dsimp only at hr
    exact ⟨taken, hda, hsz, by omega⟩

theorem BudgetReader.len_eq_zero {r : BudgetReader} (hsz : r.source.sized = true) :
    r.len = 0 ↔ r.source.data = [] ∨ r.budget.remaining ≤ 0 := by
  rw [← length_eq_zero_iff]
  simp only [len, physicalLen, hsz, if_true]
  split <;> omega

variable {program : ReadProgram ε α} {body : List UInt8} {budget counted : DecodeBudget}
  {others : List SiblingCharges} {container : ReadProgram ε (List ContainerItem)}

def ReadProgram.left (program : ReadProgram ε α) (body : List UInt8) (budget : DecodeBudget)
    (others : List SiblingCharges) : List UInt8 :=
  (program.decode body budget others).2.source.data

def ReadProgram.charged (program : ReadProgram ε α) (body : List UInt8) (budget : DecodeBudget)
    (others : List SiblingCharges) : Int :=
  body.length - (program.left body budget others).length + SiblingCharges.totalBytes others

theorem ReadProgram.len_after_decode (program : ReadProgram ε α) (body : List UInt8)
    (budget : DecodeBudget) (others : List SiblingCharges) : (program.decode body budget others).2.len = 0 ↔
    program.left body budget others = [] ∨ budget.remaining ≤ program.charged body budget others := by
  obtain ⟨taken, hda, hsz, hr⟩ := program.run_charges ⟨{ data := body }, budget⟩ others
  have hl := congrArg length hda
  rw [length_append] at hl
  unfold charged left decode
  rw [len_eq_zero hsz, hr]
  refine or_congr Iff.rfl ?_
  dsimp only at hl ⊢
  omega

theorem decodeControlBudget_eq_ok {value : α} :
    decodeControlBudget body program (some budget) others = .ok value ↔
      (program.decode body budget others).1 = .ok value ∧ (program.decode body budget others).2.len = 0 := by
  unfold decodeControlBudget
  obtain ⟨⟨res, r⟩, hrun⟩ : ∃ x, x = program.decode body budget others := ⟨_, rfl⟩
  rw [← hrun]
  cases res <;> grind

theorem decodeControlBudget_plain {value : α} (h : decodeControlBudget body program none others = .ok value) :
    (program.runPlain { data := body }).2.data = [] := by
  unfold decodeControlBudget at h
  dsimp only at h
  split at h
  · cases h
  rename_i v s hrun
  split at h
  · cases h
  next hno =>
    rw [hrun]
    exact length_eq_zero_iff.mp (Decidable.not_not.mp hno)

theorem decodeContainer_eq_ok {items : List ContainerItem} (hcnt : budget.consumeContainer = .ok counted) :
    decodeContainer container budget others body = .ok items ↔
      (container.decode body counted others).1 = .ok items ∧
        (container.decode body counted others).2.len = 0 := by
  unfold decodeContainer
  obtain ⟨⟨res, r⟩, hrun⟩ : ∃ x, x = container.decode body counted others := ⟨_, rfl⟩
  simp only [hcnt, ← hrun]
  cases res <;> grind

theorem consumeContainer_remaining (h : budget.consumeContainer = .ok counted) :
    counted.remaining = budget.remaining := by
  unfold consumeContainer at h
  split at h
  · cases h
  cases h
  rfl

theorem classifyProtocolMessage_ok_iff
    {decode : List UInt8 → Except InboundError (List ContainerItem)} {inner : InnerData}
    (hct : leUint32 inner.data = msgContainerID) : (∃ out, classifyProtocolMessage decode inner = .ok out) ↔
      ∃ items, decode inner.data = .ok items ∧ items.any (fun item => item.bodyRaw.length < 4) = false := by
  unfold classifyProtocolMessage
  simp only [hct, ne_eq, not_true_eq_false, if_false]
  cases decode inner.data with
  | error => simp
  | ok items =>
    cases hany : items.any (fun item => decide (item.bodyRaw.length < 4)) with
    | false => simp only [Bool.false_eq_true, if_false, Except.ok.injEq, exists_eq', exists_eq_left', hany]
    | true => simp only [if_true, reduceCtorEq, exists_false, Except.ok.injEq, exists_eq_left', hany,
        Bool.true_eq_false]

end

def freshBudget (bytes : Int) : DecodeBudget := { limits := { maxDecodedBytes := bytes, maxContainers := 1 } }

/-- A `ping`, and the body of an empty container, with a word after it. -/
def pingAndWord : List UInt8 := leBytes 4 pingID.toNat ++ leBytes 8 5 ++ leBytes 4 1
def containerAndWord : InnerData := ⟨0, 0, 4, 0, leBytes 4 msgContainerID.toNat ++ leBytes 4 0 ++ leBytes 4 1⟩

end Tlrpc
