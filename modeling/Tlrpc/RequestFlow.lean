import Tlrpc.PushBatching

namespace Tlrpc

open List WriterLoop AssignedMessage Function WriterStage ContainerItem MessageIntent

/-- The test of `collectPushRequests` for a push, on the integers of the machine. -/
def pushFits (maxEncodedBytes encodedBytes length : Int64) : Bool :=
  let remaining := maxEncodedBytes - encodedBytes
  !(remaining < 16 || length > remaining - 16)

theorem toInt_sub_of_nonneg {x y : Int64} (hx : 0 ≤ x.toInt) (hy : 0 ≤ y.toInt) :
    (x - y).toInt = x.toInt - y.toInt := by
  have hx' := Int64.toInt_lt x
  have hy' := Int64.toInt_lt y
  rw [Int64.toInt_sub, Int.bmod_eq_of_le (by omega) (by omega)]

theorem pushFits_iff {maxEncodedBytes encodedBytes length : Nat} (hmax : maxEncodedBytes < 2 ^ 63)
    (henc : encodedBytes < 2 ^ 63) (hlen : length < 2 ^ 63) :
    pushFits (.ofNat maxEncodedBytes) (.ofNat encodedBytes) (.ofNat length) = true ↔
      encodedBytes + (messageContainerChildBytes + length) ≤ maxEncodedBytes := by
  have hm := Int64.toInt_ofNat_of_lt hmax
  have he := Int64.toInt_ofNat_of_lt henc
  have hl := Int64.toInt_ofNat_of_lt hlen
  have hsix : (16 : Int64).toInt = 16 := rfl
  have hrem := toInt_sub_of_nonneg (x := .ofNat maxEncodedBytes) (y := .ofNat encodedBytes)
    (by omega) (by omega)
  unfold pushFits messageContainerChildBytes
  by_cases hrm : encodedBytes ≤ maxEncodedBytes
  · have hrs := toInt_sub_of_nonneg (x := .ofNat maxEncodedBytes - .ofNat encodedBytes) (y := 16)
      (by omega) (by omega)
    simp only [Bool.not_eq_true', Bool.or_eq_false_iff, decide_eq_false_iff_not, gt_iff_lt,
      Int64.lt_iff_toInt_lt, hrem, hrs, hsix, hm, he, hl]
    omega
  · simp only [Bool.not_eq_true', Bool.or_eq_false_iff, decide_eq_false_iff_not, gt_iff_lt,
      Int64.lt_iff_toInt_lt, hrem, hsix, hm, he]
    omega

namespace WriterLoop

structure CallsKept (w w' : WriterLoop) : Prop where
  requests : ∀ call request, w.requestOf call = some request → w'.requestOf call = some request
  handed : ∀ call c, w.calls call = some c → c.stage ≠ .offering →
    ∃ c', w'.calls call = some c' ∧ c'.stage ≠ .offering

/-- The requests that a step receives and the groups it replies to. -/
inductive Flow (w : WriterLoop) : List CallID → List (List CallID) → WriterLoop → Prop
  | worked {w' : WriterLoop} {job : WriterJob} : w.stage.job = some job → w'.stage.job = some job →
      w'.calls = w.calls → w'.config = w.config → Flow w [] [] w'
  | beside {w' : WriterLoop} : w'.stage = w.stage → w'.config = w.config → w.CallsKept w' →
      Flow w [] [] w'
  | ended {pending : Option CallID} {ending : WriterEnding} : w.stage = .selecting pending →
      Flow w [] [] { w with stage := .stopped ending }
  | received {call : CallID} {request : WriterRequest} {reply : Option WriterResponse} :
      w.stage = .selecting none → w.calls call = some ⟨request, .offering, reply⟩ →
      Flow w [call] [] ((w.handOver call request).startGroup call request)
  | resumed {call : CallID} {request : WriterRequest} :
      w.stage = .selecting (some call) → w.requestOf call = some request →
      Flow w [] [] (w.startGroup call request)
  | joined {group : List CallID} {encodedBytes : Nat} {call : CallID} {request : WriterRequest}
      {reply : Option WriterResponse} {body : List UInt8} : w.stage = .collecting group encodedBytes →
      group.length < maxOpportunisticPushBatch → w.calls call = some ⟨request, .offering, reply⟩ →
      pushRequest request = some body → (w.handOver call request).contextOf group = some request.ctx →
      encodedBytes + (messageContainerChildBytes + body.length) ≤ w.config.maxEncodedBytes →
      Flow w [call] [] { w.handOver call request with
        stage := .collecting (group ++ [call])
          (encodedBytes + (messageContainerChildBytes + body.length)) }
  | separated {group : List CallID} {encodedBytes : Nat} {call : CallID} {request : WriterRequest}
      {reply : Option WriterResponse} : w.stage = .collecting group encodedBytes →
      w.calls call = some ⟨request, .offering, reply⟩ →
      Flow w [call] [] { w.handOver call request with stage := .processing ⟨group, some call⟩ }
  | collected {group : List CallID} {encodedBytes : Nat} : w.stage = .collecting group encodedBytes →
      Flow w [] [] { w with stage := .processing ⟨group, none⟩ }
  | replied {job : WriterJob} {response : WriterResponse} : w.stage = .replying job response none →
      Flow w [] [job.group] { w.answer response job.group with stage := .selecting job.pending }
  | stopped {job : WriterJob} {response : WriterResponse} {ending : WriterEnding} :
      w.stage = .replying job response (some ending) →
      Flow w [] [job.group]
        { w.answer response job.group with active := false, stage := .stopped ending }

variable {w w' : WriterLoop}

theorem Flow.of_worked {op : WriterOp} (h : w.Worked op w') : w.Flow [] [] w' := by
  obtain ⟨job, hbef, haft⟩ := h.job
  exact .worked hbef haft h.calls h.config

theorem CallsKept.of_eq (h : w'.calls = w.calls) : w.CallsKept w' := by
  refine ⟨fun call request hreq => ?_, fun call c hcl hst => ⟨c, ?_, hst⟩⟩
  · unfold requestOf
    rw [h]
    exact hreq
  · rw [h]
    exact hcl

variable {call : CallID} {request : WriterRequest} {group : List CallID}
  {bodies : List (List UInt8)} {ctx : ContextID}

theorem CallsKept.setCall {c : WriterCall} (hsm : ∀ old, w.calls call = some old → c.request = old.request)
    (hst : ∀ old, w.calls call = some old → c.stage ≠ .offering) : w.CallsKept (w.setCall call c) := by
  refine ⟨fun other request hreq => requestOf_setCall hsm hreq, fun other old hold hne => ?_⟩
  show ∃ c', update w.calls call (some c) other = some c' ∧ _
  by_cases heq : other = call
  · rw [heq, update_self]
    rw [heq] at hold
    exact ⟨c, rfl, hst old hold⟩
  · rw [update_of_ne heq]
    exact ⟨old, hold, hne⟩

variable {reply : Option WriterResponse}

theorem CallsKept.returned {c : WriterCall} {response : WriterResponse} (hcl : w.calls call = some c) :
    w.CallsKept (w.setCall call ⟨c.request, .returned response, reply⟩) := by
  refine .setCall (fun old hold => ?_) (fun _ _ => CallStage.noConfusion)
  cases hcl.symm.trans hold
  rfl

theorem flow_collect (h : w.collect call = some w') : w.Flow [call] [] w' := by
  unfold collect at h
  split at h
  next group encodedBytes next reply hst hcl =>
    split at h
    next hlen =>
      dsimp only at h
      split at h
      next hjoi =>
        cases h
        unfold joins at hjoi
        split at hjoi
        next body hps =>
          obtain ⟨hctx, _, hft⟩ := of_decide_eq_true hjoi
          rw [hps]
          exact .joined hst hlen hcl hps hctx hft
        · cases hjoi
      · cases h
        exact .separated hst hcl
    · cases h
  · cases h

theorem flow_caller (h : (∃ request, w.request call request = some w') ∨ w.receiveReply call = some w' ∨
      w.giveUp call = some w' ∨ w.observeDone call = some w') : w.Flow [] [] w' := by
  rcases h with ⟨request, h⟩ | h | h | h
  · unfold WriterLoop.request at h
    split at h
    next hno =>
      cases h
      refine .beside rfl rfl (.setCall (fun old hold => ?_) (fun old hold => ?_))
      · rw [hno] at hold
        cases hold
      · rw [hno] at hold
        cases hold
    · cases h
  · unfold receiveReply at h
    split at h
    next hcl =>
      cases h
      exact .beside rfl rfl (.returned hcl)
    · cases h
  · unfold giveUp at h
    split at h
    · cases h
    next hcl =>
      split at h
      · cases h
        exact .beside rfl rfl (.returned hcl)
      · cases h
    · cases h
  · unfold observeDone at h
    split at h
    next hcl =>
      split at h
      · cases h
        exact .beside rfl rfl (.returned hcl)
      · cases h
    next hcl =>
      split at h
      · cases h
        exact .beside rfl rfl (.returned hcl)
      · cases h
    · cases h

theorem step_flow {op : WriterOp} (h : w.step op = some w') : w.Flow op.takes (w.answers op) w' := by
  cases op with
  | request call request => exact flow_caller (.inl ⟨request, h⟩)
  | receiveReply call => exact flow_caller (.inr (.inl h))
  | giveUp call => exact flow_caller (.inr (.inr (.inl h)))
  | observeDone call => exact flow_caller (.inr (.inr (.inr h)))
  | cancel ctx =>
    cases h
    exact .beside rfl rfl (.of_eq rfl)
  | endLease =>
    cases h
    exact .beside rfl rfl (.of_eq rfl)
  | saveOther next =>
    dsimp only [step] at h
    split at h
    · cases h
      exact .beside rfl rfl (.of_eq rfl)
    · cases h
  | observeLease =>
    dsimp only [step, observeLease] at h
    split at h
    next pending hst =>
      split at h
      · cases h
      cases h
      exact .ended hst
    · cases h
  | receive call =>
    dsimp only [step, receive] at h
    split at h
    next request reply hst hcl =>
      cases h
      exact .received hst hcl
    · cases h
  | resume =>
    dsimp only [step, resume] at h
    split at h
    next call hst =>
      split at h
      · obtain ⟨request, hreq, rfl⟩ := Option.map_eq_some_iff.mp h
        exact .resumed hst hreq
      cases h
      exact .ended hst
    · cases h
  | collect call => exact flow_collect h
  | collected =>
    dsimp only [step, collected] at h
    split at h
    next group encodedBytes hst =>
      cases h
      exact .collected hst
    · cases h
  | prepare ids encrypt now => exact .of_worked (worked_prepare h)
  | control clock order => exact .of_worked (worked_control h)
  | checkSave => exact .of_worked (worked_checkSave h)
  | storeSave ok => exact .of_worked (worked_storeSave h)
  | retain sentAt clock => exact .of_worked (worked_retain h)
  | lookupForResend now => exact .of_worked (worked_lookupForResend h)
  | enterWrite => exact .of_worked (worked_enterWrite h)
  | checkWrite ok => exact .of_worked (worked_checkWrite h)
  | finishWrite ok => exact .of_worked (worked_finishWrite h)
  | reply =>
    dsimp only [step, reply] at h
    split at h
    next job response ending hst =>
      have hans : w.answers .reply = [job.group] := by
        unfold answers
        rw [hst]
        rfl
      rw [hans]
      split at h
      · cases h
        exact .replied hst
      cases h
      exact .stopped hst
    · cases h

theorem flow_breakDown {err : WriterError} (h : w.breakDown err = some w') : w.Flow [] [] w' := by
  unfold breakDown at h
  split at h
  next hst =>
    cases h
    exact .worked (by rw [hst]; rfl) rfl rfl rfl
  next hst =>
    cases h
    exact .worked (by rw [hst]; rfl) rfl rfl rfl
  next hst =>
    cases h
    exact .worked (by rw [hst]; rfl) rfl rfl rfl
  · cases h

theorem flow_stop (h : w.stop = some w') : w.Flow [] [] w' := by
  unfold stop at h
  split at h
  next pending hst =>
    cases h
    exact .ended hst
  · cases h

theorem CallsKept.handOver (hcl : w.calls call = some ⟨request, .offering, reply⟩) :
    w.CallsKept (w.handOver call request) := by
  refine .setCall (fun old hold => ?_) (fun _ _ => CallStage.noConfusion)
  cases hcl.symm.trans hold
  rfl

theorem handOver_calls (w : WriterLoop) (call : CallID) (request : WriterRequest) :
    (w.handOver call request).calls call = some ⟨request, .handed, none⟩ :=
  update_self ..

theorem CallsKept.answer (w : WriterLoop) (response : WriterResponse) (group : List CallID) :
    w.CallsKept (w.answer response group) := by
  refine ⟨fun call request hreq => ?_, fun call c hcl hst => ?_⟩
  · rw [requestOf_answer]
    exact hreq
  · rw [(answer_eq w response group).1, hcl]
    split
    · exact ⟨_, rfl, hst⟩
    · exact ⟨c, rfl, hst⟩

theorem startGroup_cases (w : WriterLoop) (call : CallID) (request : WriterRequest) :
    (∃ body encodedBytes, pushRequest request = some body ∧
      encodedBytes = messageContainerHeaderBytes + messageContainerChildBytes + body.length ∧
      encodedBytes ≤ w.config.maxEncodedBytes ∧
      w.startGroup call request = { w with stage := .collecting [call] encodedBytes }) ∨
    w.startGroup call request = { w with stage := .processing ⟨[call], none⟩ } := by
  unfold startGroup
  dsimp only
  split
  next body hps =>
    split
    next hft => exact .inl ⟨body, _, hps, rfl, hft.2, rfl⟩
    · exact .inr rfl
  · exact .inr rfl

variable {taken : List CallID} {answered : List (List CallID)}

section

variable (h : w.Flow taken answered w')
include h

theorem Flow.kept : w.CallsKept w' ∧ w'.config = w.config := by
  cases h with
  | worked _ _ hcs hcfg => exact ⟨.of_eq hcs, hcfg⟩
  | beside _ hcfg hkp => exact ⟨hkp, hcfg⟩
  | ended => exact ⟨.of_eq rfl, rfl⟩
  | @received call request reply _ hcl =>
    have hkp := CallsKept.handOver hcl
    obtain ⟨stage, hst, -⟩ := startGroup_stage (w.handOver call request) call request
    rw [hst]
    exact ⟨⟨hkp.requests, hkp.handed⟩, rfl⟩
  | @resumed call request =>
    obtain ⟨stage, hst, -⟩ := startGroup_stage w call request
    rw [hst]
    exact ⟨.of_eq rfl, rfl⟩
  | joined _ _ hcl =>
    have hkp := CallsKept.handOver hcl
    exact ⟨⟨hkp.requests, hkp.handed⟩, rfl⟩
  | separated _ hcl =>
    have hkp := CallsKept.handOver hcl
    exact ⟨⟨hkp.requests, hkp.handed⟩, rfl⟩
  | collected => exact ⟨.of_eq rfl, rfl⟩
  | @replied job response =>
    have hkp := CallsKept.answer w response job.group
    exact ⟨⟨hkp.requests, hkp.handed⟩, config_answer w response job.group⟩
  | @stopped job response =>
    have hkp := CallsKept.answer w response job.group
    exact ⟨⟨hkp.requests, hkp.handed⟩, config_answer w response job.group⟩

/-- All that is received is replied to or in hand, in order; a stop may lose one. -/
theorem Flow.order : ∃ lost : List CallID,
    w.stage.inHand ++ taken = answered.flatten ++ (w'.stage.inHand ++ lost) ∧ lost.length ≤ 1 ∧
      (lost ≠ [] → w'.isStopped = true) := by
  have hno : w.stage.inHand ++ taken = answered.flatten ++ w'.stage.inHand → ∃ lost : List CallID,
        w.stage.inHand ++ taken = answered.flatten ++ (w'.stage.inHand ++ lost) ∧ lost.length ≤ 1 ∧
          (lost ≠ [] → w'.isStopped = true) := by
    intro heq
    exact ⟨[], by rw [append_nil, heq], Nat.zero_le 1, fun hne => absurd rfl hne⟩
  have hls : ∀ pending : Option CallID, pending.toList.length ≤ 1 := by
    intro pending
    cases pending with
    | none => exact Nat.zero_le 1
    | some call => exact Nat.le_refl 1
  cases h with
  | worked hbef haft =>
    refine hno ?_
    rw [inHand_of_job hbef, inHand_of_job haft, append_nil]
    rfl
  | beside hst =>
    refine hno ?_
    rw [hst, append_nil]
    rfl
  | @ended pending ending hst =>
    rw [hst]
    exact ⟨pending.toList, append_nil _, hls pending, fun _ => rfl⟩
  | @received call request reply hst hcl =>
    obtain ⟨stage, hsta, hhn, -⟩ := startGroup_stage (w.handOver call request) call request
    refine hno ?_
    rw [hst, hsta]
    exact hhn.symm
  | @resumed call request hst =>
    obtain ⟨stage, hsta, hhn, -⟩ := startGroup_stage w call request
    refine hno ?_
    rw [hst, hsta]
    exact hhn.symm
  | joined hst =>
    refine hno ?_
    rw [hst]
    rfl
  | separated hst =>
    refine hno ?_
    rw [hst]
    rfl
  | collected hst =>
    refine hno ?_
    rw [hst]
    rfl
  | @replied job response hst =>
    rw [hst]
    refine ⟨[], ?_, Nat.zero_le 1, fun hne => absurd rfl hne⟩
    show job.group ++ job.pending.toList ++ [] = (job.group ++ []) ++ (job.pending.toList ++ [])
    simp only [append_nil]
  | @stopped job response ending hst =>
    rw [hst]
    refine ⟨job.pending.toList, ?_, hls job.pending, fun _ => rfl⟩
    show job.group ++ job.pending.toList ++ [] = (job.group ++ []) ++ ([] ++ job.pending.toList)
    simp only [append_nil, nil_append]

theorem Flow.of_stopped {ending : WriterEnding}
    (hsp : w.stage = .stopped ending) : taken = [] ∧ answered = [] ∧ w'.stage = w.stage := by
  cases h with
  | beside hst => exact ⟨rfl, rfl, hst⟩
  | worked hjob =>
    rw [hsp] at hjob
    cases hjob
  | ended hst => cases hsp.symm.trans hst
  | received hst => cases hsp.symm.trans hst
  | resumed hst => cases hsp.symm.trans hst
  | joined hst => cases hsp.symm.trans hst
  | separated hst => cases hsp.symm.trans hst
  | collected hst => cases hsp.symm.trans hst
  | replied hst => cases hsp.symm.trans hst
  | stopped hst => cases hsp.symm.trans hst

theorem Flow.takes : taken = [] ∨ ∃ call c, taken = [call] ∧
    w.calls call = some c ∧ c.stage = .offering ∧ ∃ c', w'.calls call = some c' ∧ c'.stage ≠ .offering := by
  cases h with
  | @received call request reply _ hcl =>
    obtain ⟨stage, hst, -⟩ := startGroup_stage (w.handOver call request) call request
    rw [hst]
    exact .inr ⟨call, _, rfl, hcl, rfl, _, handOver_calls w call request, CallStage.noConfusion⟩
  | @joined _ _ call request _ _ _ _ hcl =>
    exact .inr ⟨call, _, rfl, hcl, rfl, _, handOver_calls w call request, CallStage.noConfusion⟩
  | @separated _ _ call request _ _ hcl =>
    exact .inr ⟨call, _, rfl, hcl, rfl, _, handOver_calls w call request, CallStage.noConfusion⟩
  | _ => exact .inl rfl

theorem Flow.answers (hin : group ∈ answered) : w.stage.group = some group := by
  cases h with
  | replied hst =>
    rw [mem_singleton.mp hin, hst]
    rfl
  | stopped hst =>
    rw [mem_singleton.mp hin, hst]
    rfl
  | _ => cases hin

end

def containerBytes (bodies : List (List UInt8)) : Nat :=
  messageContainerHeaderBytes + total (fun body => messageContainerChildBytes + body.length) bodies

structure Batch (w : WriterLoop) (group : List CallID) (ctx : ContextID) (bodies : List (List UInt8)) :
    Prop where
  requests : group.map w.requestOf =
    bodies.map fun body => some ⟨ctx, .submit (.message (.push body))⟩
  length : group.length ≤ maxOpportunisticPushBatch
  size : containerBytes bodies ≤ w.config.maxEncodedBytes

structure Grouped (w : WriterLoop) : Prop where
  batches : ∀ group, w.stage.group = some group → 1 < group.length →
    ∃ ctx bodies, w.Batch group ctx bodies
  collecting : ∀ group encodedBytes, w.stage = .collecting group encodedBytes →
    ∃ ctx bodies, w.Batch group ctx bodies ∧ encodedBytes = containerBytes bodies ∧ group ≠ []

theorem Batch.push (h : w.Batch group ctx bodies) (hcl : call ∈ group) :
    ∃ body, w.requestOf call = some ⟨ctx, .submit (.message (.push body))⟩ := by
  have hmem : w.requestOf call ∈ group.map w.requestOf := mem_map_of_mem hcl
  rw [h.requests] at hmem
  obtain ⟨body, _, hreq⟩ := mem_map.mp hmem
  exact ⟨body, hreq.symm⟩

theorem Batch.kept (h : w.Batch group ctx bodies) (hkp : w.CallsKept w') (hcfg : w'.config = w.config) :
    w'.Batch group ctx bodies := by
  refine ⟨?_, h.length, by rw [hcfg]; exact h.size⟩
  rw [← h.requests]
  refine map_congr_left fun call hcl => ?_
  obtain ⟨body, hreq⟩ := h.push hcl
  rw [hkp.requests call _ hreq, hreq]

theorem pushRequest_eq {body : List UInt8} (h : pushRequest request = some body) :
    request = ⟨request.ctx, .submit (.message (.push body))⟩ := by
  obtain ⟨ctx, operation⟩ := request
  unfold pushRequest at h
  dsimp only at h
  split at h
  · cases h
    rfl
  · cases h

theorem requestOf_handOver (w : WriterLoop) (call : CallID) (request : WriterRequest) :
    (w.handOver call request).requestOf call = some request := by
  unfold requestOf
  rw [handOver_calls]
  rfl

theorem Grouped.of_none (h : w.stage.group = none) : w.Grouped := by
  refine ⟨fun group hgrp => ?_, fun group encodedBytes hst => ?_⟩
  · rw [h] at hgrp
    cases hgrp
  · rw [hst] at h
    cases h

theorem Grouped.startGroup
    (hreq : w.requestOf call = some request) : (w.startGroup call request).Grouped := by
  rcases startGroup_cases w call request with ⟨body, encodedBytes, hps, hby, hft, heq⟩ | heq
  · rw [heq]
    refine ⟨fun group hgrp hln => ?_, fun group bytes hst => ?_⟩
    · cases hgrp
      exact absurd hln (Nat.lt_irrefl 1)
    · cases hst
      have hsz : encodedBytes = containerBytes [body] := by
        rw [hby, containerBytes, total_cons, Nat.add_assoc]
        rfl
      refine ⟨request.ctx, [body], ⟨?_, show 1 ≤ 64 by omega, hsz ▸ hft⟩, hsz, cons_ne_nil _ _⟩
      show [w.requestOf call] = [some ⟨request.ctx, .submit (.message (.push body))⟩]
      rw [hreq, ← pushRequest_eq hps]
  · rw [heq]
    refine ⟨fun group hgrp hln => ?_, fun group bytes hst => by cases hst⟩
    cases hgrp
    exact absurd hln (Nat.lt_irrefl 1)

theorem Batch.context {ctx' : ContextID}
    (h : w.Batch group ctx bodies) (hne : group ≠ []) (hctx : w.contextOf group = some ctx') :
    ctx = ctx' := by
  have hreq := h.requests
  cases group with
  | nil => exact absurd rfl hne
  | cons call rest =>
    cases bodies with
    | nil => cases hreq
    | cons body others =>
      have hcl : w.requestOf call = some ⟨ctx, .submit (.message (.push body))⟩ :=
        (List.cons.inj hreq).1
      have hso : (w.requestOf call).map (·.ctx) = some ctx' := hctx
      rw [hcl] at hso
      exact Option.some.inj hso

theorem containerBytes_append (bodies : List (List UInt8)) (body : List UInt8) :
    containerBytes (bodies ++ [body]) =
      containerBytes bodies + (messageContainerChildBytes + body.length) := by
  unfold containerBytes
  rw [total_append, total_cons, ← Nat.add_assoc]
  rfl

theorem Batch.append (h : w.Batch group ctx bodies) {body : List UInt8}
    (hcl : w.requestOf call = some ⟨ctx, .submit (.message (.push body))⟩)
    (hlen : group.length < maxOpportunisticPushBatch)
    (hft : containerBytes bodies + (messageContainerChildBytes + body.length) ≤
      w.config.maxEncodedBytes) : w.Batch (group ++ [call]) ctx (bodies ++ [body]) := by
  refine ⟨?_, ?_, ?_⟩
  · rw [map_append, map_append, h.requests]
    exact congrArg _ (congrArg (fun request => [request]) hcl)
  · rw [length_append, length_singleton]
    exact hlen
  · rw [containerBytes_append]
    exact hft

theorem Grouped.flow (h : w.Grouped) (hfl : w.Flow taken answered w') : w'.Grouped := by
  obtain ⟨hkp, hcfg⟩ := hfl.kept
  cases hfl with
  | worked hbef haft =>
    refine ⟨fun group hgrp hln => ?_, fun group encodedBytes hst => ?_⟩
    · rw [group_of_job haft, ← group_of_job hbef] at hgrp
      obtain ⟨ctx, bodies, hbat⟩ := h.batches group hgrp hln
      exact ⟨ctx, bodies, hbat.kept hkp hcfg⟩
    · rw [hst] at haft
      cases haft
  | beside hst =>
    refine ⟨fun group hgrp hln => ?_, fun group encodedBytes hcol => ?_⟩
    · rw [hst] at hgrp
      obtain ⟨ctx, bodies, hbat⟩ := h.batches group hgrp hln
      exact ⟨ctx, bodies, hbat.kept hkp hcfg⟩
    · rw [hst] at hcol
      obtain ⟨ctx, bodies, hbat, hby, hne⟩ := h.collecting group encodedBytes hcol
      exact ⟨ctx, bodies, hbat.kept hkp hcfg, hby, hne⟩
  | ended => exact .of_none rfl
  | @received call request => exact .startGroup (requestOf_handOver w call request)
  | resumed _ hreq => exact .startGroup hreq
  | @joined group encodedBytes call request reply body hst hlen hcl hps hctx hft =>
    obtain ⟨ctx, bodies, hbat, hby, hne⟩ := h.collecting group encodedBytes hst
    have hbef : (w.handOver call request).Batch group ctx bodies :=
      hbat.kept (.handOver hcl) rfl
    have hsm := hbef.context hne hctx
    have hreq : (w.handOver call request).requestOf call = some ⟨ctx, .submit (.message (.push body))⟩ := by
      rw [requestOf_handOver, hsm, ← pushRequest_eq hps]
    rw [hby] at hft
    have haft := hbef.append hreq hlen hft
    refine ⟨fun group' hgrp _ => ?_, fun group' bytes hcol => ?_⟩
    · cases hgrp
      exact ⟨ctx, _, haft.requests, haft.length, haft.size⟩
    · cases hcol
      refine ⟨ctx, _, ⟨haft.requests, haft.length, haft.size⟩, ?_,
        append_ne_nil_of_right_ne_nil _ (cons_ne_nil _ _)⟩
      rw [containerBytes_append, hby]
  | @separated group encodedBytes call request reply hst hcl =>
    refine ⟨fun group' hgrp _ => ?_, fun group' bytes hcol => by cases hcol⟩
    cases hgrp
    obtain ⟨ctx, bodies, hbat, -⟩ := h.collecting group encodedBytes hst
    exact ⟨ctx, bodies, hbat.kept hkp hcfg⟩
  | @collected group encodedBytes hst =>
    refine ⟨fun group' hgrp _ => ?_, fun group' bytes hcol => by cases hcol⟩
    cases hgrp
    obtain ⟨ctx, bodies, hbat, -⟩ := h.collecting group encodedBytes hst
    exact ⟨ctx, bodies, hbat.kept hkp hcfg⟩
  | replied => exact .of_none rfl
  | stopped => exact .of_none rfl

end WriterLoop

section

variable {env : WriterEnv} {bodies : List (List UInt8)}

theorem length_serializeContainer (items : List ContainerItem) :
    (serializeContainer items).length = WriterLoop.containerBytes (items.map (·.bodyRaw)) := by
  have hite : ∀ items : List ContainerItem, (items.flatMap ContainerItem.serializeTL).length =
      total (fun body => messageContainerChildBytes + body.length) (items.map (·.bodyRaw)) := by
    intro items
    induction items with
    | nil => rfl
    | cons item rest ih =>
      rw [flatMap_cons, length_append, ih, map_cons, total_cons]
      simp only [ContainerItem.serializeTL, length_append, length_leBytes]
      rfl
  unfold serializeContainer containerBytes
  rw [length_append, length_append, length_leBytes, length_leBytes, hite]
  rfl

theorem assignMessages_pushes {maxBytes : Nat} (hft : ∀ body ∈ bodies, body.length ≤ maxBytes)
    (ids : Nat → Int) (snapshot : Snapshot) : ∃ children next,
      assignMessages maxBytes ids snapshot (bodies.map .push) = some (children, next) ∧
        children.map (·.body) = bodies := by
  induction bodies generalizing ids snapshot with
  | nil => exact ⟨[], snapshot, rfl, rfl⟩
  | cons body rest ih =>
    obtain ⟨children, next, hch, hbod⟩ :=
      ih (fun other hin => hft other (mem_cons_of_mem _ hin)) (fun k => ids (k + 1))
        (nextSequenceNo snapshot true).2
    have hbd : bounded maxBytes body = some body :=
      if_neg (Nat.not_lt.mpr (hft body mem_cons_self))
    refine ⟨⟨nextMessageID (ids 0) true, 0, (nextSequenceNo snapshot true).1, true, body⟩ :: children,
      next, ?_, congrArg _ hbod⟩
    simp only [map_cons, assignMessages, assignMessage, encodeIntentBodyBounded, hbd,
      Option.bind_eq_bind, Option.bind_some, Option.pure_def, responseRequestID, hch]

theorem length_le_containerBytes {body : List UInt8} (h : body ∈ bodies) :
    body.length ≤ WriterLoop.containerBytes bodies := by
  obtain ⟨i, hi⟩ := mem_iff_getElem?.mp h
  have hle := le_total (fun body => messageContainerChildBytes + body.length) hi
  unfold containerBytes
  omega

theorem assignFrame_pushes (hlen : bodies.length ≤ maxOpportunisticPushBatch)
    (hsz : WriterLoop.containerBytes bodies ≤ env.maxEncodedBytes) (snapshot : Snapshot) :
    ∃ children outer next,
      assignFrame env snapshot (.batch (bodies.map .push)) = some (children, outer, next) ∧
        children.map (·.body) = bodies ∧
        outer.body = serializeContainer (children.map AssignedMessage.item) ∧
        outer.body.length = WriterLoop.containerBytes bodies := by
  obtain ⟨children, next, hch, hbod⟩ := assignMessages_pushes
    (fun body hin => (length_le_containerBytes hin).trans hsz) env.ids snapshot
  have hraw : (children.map item).map (·.bodyRaw) = bodies := by
    rw [map_map]
    exact hbod
  have hcon : (serializeContainer (children.map item)).length = containerBytes bodies := by
    rw [length_serializeContainer, hraw]
  have hbd : bounded env.maxEncodedBytes (serializeContainer (children.map item)) =
      some (serializeContainer (children.map item)) := by
    refine if_neg ?_
    rw [hcon]
    omega
  have hsh : ¬(bodies.map push).length > defaultMaxVectorElements := by
    rw [length_map]
    unfold maxOpportunisticPushBatch at hlen
    unfold defaultMaxVectorElements
    omega
  refine ⟨children, ⟨nextMessageID (env.ids (bodies.map push).length) false, 0,
    (nextSequenceNo next false).1, false, serializeContainer (children.map item)⟩,
    (nextSequenceNo next false).2, ?_, hbod, rfl, hcon⟩
  unfold assignFrame
  simp only [if_neg hsh, hch, hbd, Option.bind_eq_bind, Option.bind_some, Option.pure_def]

end

end Tlrpc
