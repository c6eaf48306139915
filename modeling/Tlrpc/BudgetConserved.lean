import Tlrpc.DecodeBudget
import Tlrpc.StepSystem
import Tlrpc.Tally

namespace Tlrpc

open DecodeBudget Option List

abbrev DecodeID := Nat

/-- A budget shared by any number of readers and decoders, with all that was charged so far. -/
structure BudgetState where
  budget : DecodeBudget
  operationMu : Option DecodeID
  reads : List (Option Nat)
  gzips : List (Option GzipAllowance)
  objects : List (DecodeID × Bool)
  delivered : Int
  gzipReturned : Int
deriving DecidableEq

namespace BudgetState

def initial (budget : DecodeBudget) : BudgetState := ⟨budget, none, [], [], [], 0, 0⟩

end BudgetState

/-- The sections of the budget's mutex. A read may deliver any part of what was reserved. -/
inductive BudgetOp
  | beginRead (n : Nat)
  | endRead (read n : Nat)
  | consume (n : Nat)
  | enterObject (decode : DecodeID)
  | leaveObject (object : Nat)
  | consumeWrapper
  | consumeContainer
  | consumeVectorElements (count : Int)
  | beginGzip (packedBytes : Nat)
  | endGzip (gzip : Nat) (decoded : Option Nat)
  | lockDecode (decode : DecodeID)
  | unlockDecode (decode : DecodeID)
deriving DecidableEq

namespace BudgetState

def charge (s : BudgetState) (result : Except DecodeError DecodeBudget) : BudgetState :=
  match result with
  | .ok budget => { s with budget }
  | .error _ => s

def step (s : BudgetState) : BudgetOp → Option BudgetState
  | .beginRead n =>
    match s.budget.reserve n with
    | .error _ => some s
    | .ok (reserved, budget) => some { s with budget, reads := s.reads ++ [some reserved] }
  | .endRead read n =>
    match s.reads[read]? with
    | some (some reserved) =>
      if n ≤ reserved then
        some { s with
          budget := s.budget.refund reserved n
          reads := s.reads.set read none
          delivered := s.delivered + n }
      else none
    | _ => none
  | .consume n =>
    match s.budget.consume n with
    | .error _ => some s
    | .ok budget => some { s with budget, delivered := s.delivered + n }
  | .enterObject decode =>
    match s.budget.enterObject with
    | .error _ => some s
    | .ok budget => some { s with budget, objects := s.objects ++ [(decode, true)] }
  | .leaveObject object =>
    match s.objects[object]? with
    | some (decode, true) =>
      some { s with
        budget := s.budget.leaveObject
        objects := s.objects.set object (decode, false) }
    | _ => none
  | .consumeWrapper => some (s.charge s.budget.consumeWrapper)
  | .consumeContainer => some (s.charge s.budget.consumeContainer)
  | .consumeVectorElements count =>
    if 0 ≤ count then some (s.charge (s.budget.consumeVectorElements count)) else none
  | .beginGzip packedBytes =>
    match s.budget.gzipAllowance packedBytes with
    | .error _ => some s
    | .ok allowance => some { s with gzips := s.gzips ++ [some allowance] }
  | .endGzip gzip decoded =>
    match s.gzips[gzip]?, decoded with
    | some (some _), none => some { s with gzips := s.gzips.set gzip none }
    | some (some allowance), some decoded =>
      if decoded ≤ allowance.limit + 1 then
        match s.budget.gzipCharge allowance decoded with
        | .error _ => some { s with gzips := s.gzips.set gzip none }
        | .ok budget =>
          some { s with
            budget
            gzips := s.gzips.set gzip none
            gzipReturned := s.gzipReturned + decoded }
      else none
    | _, _ => none
  | .lockDecode decode =>
    if s.operationMu = none then some { s with operationMu := some decode } else none
  | .unlockDecode decode =>
    if s.operationMu = some decode then some { s with operationMu := none } else none

def reserved (s : BudgetState) : Nat := total (fun read => read.getD 0) s.reads

def entered (s : BudgetState) : Nat := total (fun object => if object.2 then 1 else 0) s.objects

def nesting (s : BudgetState) (decode : DecodeID) : Nat :=
  total (fun object => if object.1 = decode ∧ object.2 then 1 else 0) s.objects

end BudgetState

structure DecodeBudget.WithinLimits (b : DecodeBudget) : Prop where
  decodedBytes : b.decodedBytes ≤ b.limits.maxDecodedBytes
  wrapperCount : b.wrapperCount ≤ b.limits.maxWrappers
  containerCount : b.containerCount ≤ b.limits.maxContainers
  vectorElements : b.vectorElements ≤ b.limits.maxVectorElements
  objectNodes : b.objectNodes ≤ b.limits.maxObjectNodes
  objectDepth : b.objectDepth ≤ b.limits.maxObjectDepth
  gzipWorkBytes : b.gzipWorkBytes ≤ b.limits.maxGzipWorkBytes

namespace DecodeBudget

variable {b b' : DecodeBudget} {n : Nat}

theorem consume_ok (h : b.consume n = .ok b') :
    n ≤ b.remaining ∧ b' = { b with decodedBytes := b.decodedBytes + n } := by
  unfold consume at h
  split at h
  · cases h
  next hle =>
    cases h
    exact ⟨by omega, rfl⟩

theorem reserve_ok {reserved : Nat} (h : b.reserve n = .ok (reserved, b')) :
    reserved ≤ b.remaining ∧ b' = { b with decodedBytes := b.decodedBytes + reserved } := by
  unfold reserve at h
  split at h
  · cases h
  rename_i hps
  obtain ⟨hres, hb⟩ := Prod.mk.inj (Except.ok.inj h)
  rw [hres] at hb
  exact ⟨by omega, hb.symm⟩

theorem enterObject_ok (h : b.enterObject = .ok b') :
    b.objectNodes < b.limits.maxObjectNodes ∧ b.objectDepth < b.limits.maxObjectDepth ∧
      b' = { b with objectNodes := b.objectNodes + 1, objectDepth := b.objectDepth + 1 } := by
  unfold enterObject at h
  split at h
  · cases h
  rename_i hnod
  split at h
  · cases h
  next hdep =>
    cases h
    exact ⟨by omega, by omega, rfl⟩

theorem enterObject_depth (h : b.enterObject = .error .objectDepthLimit) :
    b.limits.maxObjectDepth ≤ b.objectDepth := by
  unfold enterObject at h
  split at h
  · cases h
  split at h
  next hdep => exact hdep
  · cases h

theorem gzipCharge_ok {a : GzipAllowance} (h : b.gzipCharge a n = .ok b') :
    n ≤ b.remaining ∧ a.packedBytes + n ≤ b.limits.maxGzipWorkBytes - b.gzipWorkBytes ∧
      b' = { b with
        decodedBytes := b.decodedBytes + n
        gzipWorkBytes := b.gzipWorkBytes + (a.packedBytes + n) } := by
  unfold gzipCharge at h
  dsimp only at h
  repeat
    split at h
    · cases h
  next hrem hwk =>
    cases h
    exact ⟨by omega, by omega, rfl⟩

end DecodeBudget

namespace BudgetState

/-- The bytes charged are those handed out and those reserved by reads in flight. -/
structure Conserved (limits : DecodeLimits) (s : BudgetState) : Prop where
  limits : s.budget.limits = limits
  decodedBytes : s.budget.decodedBytes = s.delivered + s.gzipReturned + s.reserved
  objectDepth : s.budget.objectDepth = s.entered
  within : s.budget.WithinLimits

theorem orDefault_nonneg {value default : Int} (hval : 0 ≤ value) (hdef : 0 ≤ default) :
    0 ≤ orDefault value default := by
  unfold orDefault
  split <;> assumption

variable {budget : DecodeBudget} {n : Nat} {decode : DecodeID}

theorem initial_conserved {limits : DecodeLimits}
    (h : newDecodeBudget limits = .ok budget) : (initial budget).Conserved budget.limits := by
  unfold newDecodeBudget normalizeDecodeLimits at h
  split at h
  · cases h
  rename_i hnon
  cases h
  simp only [not_or, Int.not_lt] at hnon
  obtain ⟨hby, hwra, hcon, hele, hnod, hdep, _, hwk⟩ := hnon
  refine ⟨rfl, rfl, rfl, ?_⟩
  exact
    { decodedBytes := orDefault_nonneg hby (by decide)
      wrapperCount := orDefault_nonneg hwra (by decide)
      containerCount := orDefault_nonneg hcon (by decide)
      vectorElements := orDefault_nonneg hele (by decide)
      objectNodes := orDefault_nonneg hnod (by decide)
      objectDepth := orDefault_nonneg hdep (by decide)
      gzipWorkBytes := orDefault_nonneg hwk (by decide) }

variable {limits : DecodeLimits} {s s' : BudgetState}

section

variable (hs : s.Conserved limits)
include hs

theorem Conserved.beginRead {reserved : Nat}
    (h : s.budget.reserve n = .ok (reserved, budget)) :
    { s with budget, reads := s.reads ++ [some reserved] }.Conserved limits := by
  obtain ⟨hle, rfl⟩ := reserve_ok h
  have hby := hs.decodedBytes
  unfold remaining at hle
  refine ⟨hs.limits, ?_, hs.objectDepth, { hs.within with decodedBytes := ?_ }⟩
  · have hres : total (fun read => getD read 0) (s.reads ++ [some reserved]) =
        s.reserved + reserved := by
      rw [total_append]
      rfl
    unfold BudgetState.reserved
    dsimp only
    omega
  · dsimp only
    omega

theorem Conserved.endRead {read reserved : Nat}
    (hrd : s.reads[read]? = some (some reserved)) (hn : n ≤ reserved) :
    { s with
      budget := s.budget.refund reserved n
      reads := s.reads.set read none
      delivered := s.delivered + n }.Conserved limits := by
  have hby := hs.decodedBytes
  have hset := total_set (fun read => getD read 0) hrd none
  simp only [getD_some, getD_none] at hset
  refine ⟨hs.limits, ?_, hs.objectDepth, { hs.within with decodedBytes := ?_ }⟩
  · unfold BudgetState.reserved at hby ⊢
    unfold refund
    dsimp only
    omega
  · have hlim := hs.within.decodedBytes
    unfold refund
    dsimp only
    omega

theorem Conserved.consume (h : s.budget.consume n = .ok budget) :
    { s with budget, delivered := s.delivered + n }.Conserved limits := by
  obtain ⟨hle, rfl⟩ := consume_ok h
  have hby := hs.decodedBytes
  unfold remaining at hle
  refine ⟨hs.limits, ?_, hs.objectDepth, { hs.within with decodedBytes := ?_ }⟩
  · unfold reserved at hby ⊢
    dsimp only
    omega
  · dsimp only
    omega

theorem Conserved.enterObject (h : s.budget.enterObject = .ok budget) :
    { s with budget, objects := s.objects ++ [(decode, true)] }.Conserved limits := by
  obtain ⟨hnod, hdep, rfl⟩ := enterObject_ok h
  have hent := hs.objectDepth
  refine ⟨hs.limits, hs.decodedBytes, ?_,
    { hs.within with objectNodes := by dsimp only; omega, objectDepth := by dsimp only; omega }⟩
  unfold entered at hent ⊢
  rw [total_append]
  have hone : total (fun object : DecodeID × Bool => if object.2 then 1 else 0) [(decode, true)] = 1 :=
    rfl
  dsimp only
  omega

theorem Conserved.leaveObject {object : Nat}
    (h : s.objects[object]? = some (decode, true)) :
    { s with
      budget := s.budget.leaveObject
      objects := s.objects.set object (decode, false) }.Conserved limits := by
  have hent := hs.objectDepth
  have hlim := hs.within.objectDepth
  have hset := total_set (fun object : DecodeID × Bool => if object.2 then 1 else 0) h (decode, false)
  simp only [if_true, Bool.false_eq_true, if_false] at hset
  refine ⟨hs.limits, hs.decodedBytes, ?_, { hs.within with objectDepth := ?_ }⟩
  · unfold BudgetState.entered at hent ⊢
    unfold DecodeBudget.leaveObject
    dsimp only
    omega
  · unfold DecodeBudget.leaveObject
    dsimp only
    omega

theorem Conserved.endGzip {gzip decoded : Nat} {allowance : GzipAllowance}
    (h : s.budget.gzipCharge allowance decoded = .ok budget) :
    { s with
      budget
      gzips := s.gzips.set gzip none
      gzipReturned := s.gzipReturned + decoded }.Conserved limits := by
  obtain ⟨hle, hwk, rfl⟩ := gzipCharge_ok h
  have hby := hs.decodedBytes
  unfold remaining at hle
  refine ⟨hs.limits, ?_, hs.objectDepth,
    { hs.within with decodedBytes := by dsimp only; omega, gzipWorkBytes := by dsimp only; omega }⟩
  unfold reserved at hby ⊢
  dsimp only
  omega

theorem Conserved.consumeWrapper :
    (s.charge s.budget.consumeWrapper).Conserved limits := by
  unfold charge DecodeBudget.consumeWrapper
  by_cases hfl : s.budget.wrapperCount ≥ s.budget.limits.maxWrappers
  · rw [if_pos hfl]
    exact hs
  rw [if_neg hfl]
  refine ⟨hs.limits, hs.decodedBytes, hs.objectDepth, { hs.within with wrapperCount := ?_ }⟩
  dsimp only
  omega

theorem Conserved.consumeContainer :
    (s.charge s.budget.consumeContainer).Conserved limits := by
  unfold charge DecodeBudget.consumeContainer
  by_cases hfl : s.budget.containerCount ≥ s.budget.limits.maxContainers
  · rw [if_pos hfl]
    exact hs
  rw [if_neg hfl]
  refine ⟨hs.limits, hs.decodedBytes, hs.objectDepth, { hs.within with containerCount := ?_ }⟩
  dsimp only
  omega

theorem Conserved.consumeVectorElements (count : Int) :
    (s.charge (s.budget.consumeVectorElements count)).Conserved limits := by
  unfold charge DecodeBudget.consumeVectorElements
  by_cases hfl : count > s.budget.limits.maxVectorElements - s.budget.vectorElements
  · rw [if_pos hfl]
    exact hs
  rw [if_neg hfl]
  refine ⟨hs.limits, hs.decodedBytes, hs.objectDepth, { hs.within with vectorElements := ?_ }⟩
  dsimp only
  omega

end

theorem charge_frame (s : BudgetState) (result : Except DecodeError DecodeBudget) :
    (s.charge result).objects = s.objects ∧ (s.charge result).operationMu = s.operationMu := by
  cases result <;> exact ⟨rfl, rfl⟩

theorem step_conserved {op : BudgetOp} (hs : s.Conserved limits) (h : s.step op = some s') :
    s'.Conserved limits := by
  -- the lists of decompressions and the operation mutex are no part of the invariant
  have hold : ∀ gzips operationMu, { s with gzips, operationMu }.Conserved limits :=
    fun _ _ => ⟨hs.limits, hs.decodedBytes, hs.objectDepth, hs.within⟩
  cases op with
  | beginRead n =>
    unfold step at h
    dsimp only at h
    split at h
    · cases h
      exact hs
    next reserved budget hres =>
      cases h
      exact hs.beginRead hres
  | endRead read n =>
    unfold step at h
    dsimp only at h
    split at h
    next reserved hrd =>
      split at h
      next hn =>
        cases h
        exact hs.endRead hrd hn
      · cases h
    · cases h
  | consume n =>
    unfold step at h
    dsimp only at h
    split at h
    · cases h
      exact hs
    next budget hcon =>
      cases h
      exact hs.consume hcon
  | enterObject decode =>
    unfold step at h
    dsimp only at h
    split at h
    · cases h
      exact hs
    next budget hent =>
      cases h
      exact hs.enterObject hent
  | leaveObject object =>
    unfold step at h
    dsimp only at h
    split at h
    next decode hobj =>
      cases h
      exact hs.leaveObject hobj
    · cases h
  | consumeWrapper =>
    cases h
    exact hs.consumeWrapper
  | consumeContainer =>
    cases h
    exact hs.consumeContainer
  | consumeVectorElements count =>
    unfold step at h
    dsimp only at h
    split at h
    · cases h
      exact hs.consumeVectorElements count
    · cases h
  | beginGzip packedBytes =>
    unfold step at h
    dsimp only at h
    split at h
    · cases h
      exact hs
    next allowance _ =>
      cases h
      exact hold _ s.operationMu
  | endGzip gzip decoded =>
    unfold step at h
    dsimp only at h
    split at h
    · cases h
      exact hold _ s.operationMu
    next allowance decoded _ =>
      split at h
      · split at h
        · cases h
          exact hold _ s.operationMu
        next budget hchg =>
          cases h
          exact hs.endGzip hchg
      · cases h
    · cases h
  | lockDecode decode =>
    unfold step at h
    dsimp only at h
    split at h
    · cases h
      exact hold s.gzips _
    · cases h
  | unlockDecode decode =>
    unfold step at h
    dsimp only at h
    split at h
    · cases h
      exact hold s.gzips _
    · cases h

def Bracketed (s : BudgetState) : BudgetOp → Prop
  | .enterObject decode => s.operationMu = some decode
  | .unlockDecode decode => s.nesting decode = 0
  | _ => True

instance (s : BudgetState) (op : BudgetOp) : Decidable (s.Bracketed op) := by
  unfold Bracketed
  split <;> infer_instance

def Held (s : BudgetState) : Prop := ∀ decode, (decode, true) ∈ s.objects → s.operationMu = some decode

theorem nesting_pos (h : (decode, true) ∈ s.objects) : 0 < s.nesting decode := by
  obtain ⟨i, hi⟩ := mem_iff_getElem?.mp h
  have hle := le_total (fun object : DecodeID × Bool => if object.1 = decode ∧ object.2 then 1 else 0) hi
  simp only [and_self, if_true] at hle
  exact hle

theorem Held.entered_eq (hs : s.Held) (h : s.operationMu = some decode) :
    s.entered = s.nesting decode := by
  unfold entered nesting total
  congr 1
  apply map_congr_left
  rintro ⟨owner, opened⟩ hmem
  cases opened with
  | false => simp
  | true =>
    have hown := hs owner hmem
    rw [h] at hown
    cases hown
    simp

theorem step_held {op : BudgetOp} (hs : s.Held) (hop : s.Bracketed op) (h : s.step op = some s') :
    s'.Held := by
  cases op with
  | enterObject decode =>
    unfold step at h
    dsimp only at h
    split at h
    · cases h
      exact hs
    cases h
    intro owner hmem
    rcases mem_append.mp hmem with hold | hnew
    · exact hs owner hold
    · cases mem_singleton.mp hnew
      exact hop
  | leaveObject object =>
    unfold step at h
    dsimp only at h
    split at h
    next decode hobj =>
      cases h
      intro owner hmem
      rcases mem_or_eq_of_mem_set hmem with hold | hlf
      · exact hs owner hold
      · cases hlf
    · cases h
  | lockDecode decode =>
    unfold step at h
    dsimp only at h
    split at h
    next hfr =>
      cases h
      intro owner hmem
      have hno := hs owner hmem
      rw [hfr] at hno
      cases hno
    · cases h
  | unlockDecode decode =>
    unfold step at h
    dsimp only at h
    split at h
    next hhl =>
      cases h
      intro owner hmem
      have hown := hs owner hmem
      rw [hhl] at hown
      cases hown
      have hps : 0 < s.nesting decode := nesting_pos hmem
      have hz : s.nesting decode = 0 := hop
      omega
    · cases h
  | _ =>
    -- the other sections touch neither the objects nor the operation mutex
    have hfrm : s'.objects = s.objects ∧ s'.operationMu = s.operationMu := by
      unfold step at h
      dsimp only at h
      repeat' split at h
      all_goals first | cases h; exact ⟨rfl, rfl⟩ | cases h; exact s.charge_frame _ | cases h
    intro owner hmem
    rw [hfrm.1] at hmem
    rw [hfrm.2]
    exact hs owner hmem

end BudgetState

open BudgetState in
/-- What a budget has charged is what was handed out, no counter passes its limit, and the depth
counts the open objects. Decodes that take turns are refused for their own depth only. -/
theorem decode_budget_conserved {limits : DecodeLimits} {budget : DecodeBudget} {ops : List BudgetOp}
    {s : BudgetState} (hnew : newDecodeBudget limits = .ok budget)
    (hrun : exec step (initial budget) ops = some s) :
    s.budget.limits = budget.limits ∧
      ((∀ read ∈ s.reads, read = none) →
        s.budget.decodedBytes = s.delivered + s.gzipReturned) ∧
      s.budget.WithinLimits ∧
      s.budget.objectDepth = s.entered ∧
      (Meets step Bracketed (initial budget) ops → ∀ decode, s.operationMu = some decode →
        s.budget.enterObject = .error .objectDepthLimit →
        budget.limits.maxObjectDepth < s.nesting decode + 1) := by
  have hs := exec_inductive (fun _ _ _ => step_conserved) (initial_conserved hnew) hrun
  refine ⟨hs.limits, ?_, hs.within, hs.objectDepth, ?_⟩
  · intro hie
    have hres : s.reserved = 0 := by
      apply sum_eq_zero
      intro n hn
      obtain ⟨read, hrd, rfl⟩ := mem_map.mp hn
      rw [hie read hrd]
      rfl
    have hby := hs.decodedBytes
    omega
  · intro hbra decode hhol href
    have hhl : s.Held := exec_invariant (fun _ _ _ => step_held) (by intro _ hmem; cases hmem)
      hbra hrun
    have hown := hhl.entered_eq hhol
    have hdep := enterObject_depth href
    have hent := hs.objectDepth
    rw [hs.limits] at hdep
    omega

def sharedBudget : DecodeBudget :=
  { limits :=
      { maxDecodedBytes := 12, maxWrappers := 16, maxContainers := 64, maxVectorElements := 2 ^ 16
        maxObjectNodes := 2 ^ 18, maxObjectDepth := 1, maxGzipRatio := 128
        maxGzipWorkBytes := 2 ^ 25 } }

/-- Two reads overlap, a payload is expanded meanwhile, and a decode has one object open. -/
def sharedBudgetRun : List BudgetOp :=
  [.beginRead 4, .beginRead 6, .endRead 1 2, .beginGzip 3, .consume 1, .endRead 0 4,
    .endGzip 0 (some 5), .lockDecode 7, .enterObject 7]

def sharedBudgetEnd : BudgetState :=
  { budget := { sharedBudget with
      decodedBytes := 12, gzipWorkBytes := 8, objectNodes := 1, objectDepth := 1 }
    operationMu := some 7
    reads := [none, none]
    gzips := [none]
    objects := [(7, true)]
    delivered := 7
    gzipReturned := 5 }

theorem decode_budget_conserved_shared :
    exec BudgetState.step (.initial sharedBudget) sharedBudgetRun = some sharedBudgetEnd ∧
      sharedBudgetEnd.budget.decodedBytes = 7 + 5 ∧ sharedBudgetEnd.budget.WithinLimits ∧
      sharedBudget.limits.maxObjectDepth < sharedBudgetEnd.nesting 7 + 1 := by
  have hnew : newDecodeBudget sharedBudget.limits = .ok sharedBudget := rfl
  have hrun : exec BudgetState.step (.initial sharedBudget) sharedBudgetRun =
      some sharedBudgetEnd := by decide
  obtain ⟨_, hby, hwi, _, hdep⟩ := decode_budget_conserved hnew hrun
  exact ⟨hrun, hby (by decide), hwi, hdep (by decide) 7 rfl rfl⟩

end Tlrpc
