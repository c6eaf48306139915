import Tlrpc.WriterLoop

namespace Tlrpc

open Function Option WriterLoop

/-- No group cancelled before the entry of `WriteFrame` fails the writer. -/
def WriterStage.Clean : WriterStage → Prop
  | .checking _ _ _ _ late | .writing _ _ _ _ late => late = false
  | .replying _ _ (some (.failed _ canceledBefore)) | .stopped (.failed _ canceledBefore) =>
    canceledBefore = false
  | _ => True

def WriterStage.group : WriterStage → Option (List CallID)
  | .collecting group _ => some group
  | stage => stage.job.map (·.group)

section

variable {stage : WriterStage} {job : WriterJob} (h : stage.job = some job)
include h

theorem WriterStage.inHand_of_job : stage.inHand = job.group ++ job.pending.toList := by
  cases stage <;> cases h <;> rfl

theorem WriterStage.group_of_job : stage.group = some job.group := by
  cases stage <;> cases h <;> rfl

end

namespace WriterLoop

def Resends (w : WriterLoop) (group : List CallID) : Prop :=
  (∃ messageIDs, w.groupIntent group = some (.resend messageIDs)) ∨
    ∃ request, group.head?.bind w.requestOf = some request ∧ ∀ intent, request.operation ≠ .submit intent

structure Advance (w : WriterLoop) (op : WriterOp) (w' : WriterLoop) : Prop where
  committing : ∀ group ∈ w'.stage.committing,
    group ∈ w.stage.committing ∨ w.groupCanceled group = false
  sending : ∀ group ∈ w'.stage.sending, group ∈ w.stage.sending ∨
    (∃ sentAt clock job prepared, op = .retain sentAt clock ∧ w.stage = .retaining job prepared ∧
      job.group = group) ∨ w.Resends group

structure Worked (w : WriterLoop) (op : WriterOp) (w' : WriterLoop) : Prop where
  job : ∃ job, w.stage.job = some job ∧ w'.stage.job = some job
  calls : w'.calls = w.calls
  canceled : w'.canceled = w.canceled
  active : w'.active = w.active
  config : w'.config = w.config
  frames : w'.frames = w.frames ∨ ∃ job frame rest response late,
    w.stage = .writing job frame rest response late ∧ w'.frames = w.frames ++ [(job.group, frame)]
  advance : w.Advance op w'
  clean : w.Steady op → w.stage.Clean → w'.stage.Clean

variable {encrypt : InnerData → KeyID → Option (List UInt8)} {clock : Nat → Time}
  {request : WriterRequest}

section

variable {w w' : WriterLoop}

variable {op : WriterOp} {job : WriterJob} {now : Time} {ok : Bool} {call : CallID}

theorem Advance.still (hcom : w'.stage.committing = none)
    (hsen : w'.stage.sending = none) : w.Advance op w' := by
  refine ⟨fun group hin => ?_, fun group hin => ?_⟩
  · rw [hcom] at hin
    cases hin
  · rw [hsen] at hin
    cases hin

theorem Advance.same (hcom : w'.stage.committing = w.stage.committing)
    (hsen : w'.stage.sending = w.stage.sending) : w.Advance op w' :=
  ⟨fun _ hin => .inl (hcom ▸ hin), fun _ hin => .inl (hsen ▸ hin)⟩

theorem Advance.resends {group : List CallID} (hcom : w'.stage.committing = none)
    (hsen : w'.stage.sending = some group) (hres : w.Resends group) : w.Advance op w' := by
  refine ⟨fun group hin => ?_, fun group' hin => ?_⟩
  · rw [hcom] at hin
    cases hin
  · rw [hsen] at hin
    cases hin
    exact .inr (.inr hres)

theorem Worked.plain (hjob : w.stage.job = some job) (hjob' : w'.stage.job = some job)
    (hsm : w'.calls = w.calls ∧ w'.canceled = w.canceled ∧ w'.active = w.active ∧
      w'.config = w.config ∧ w'.frames = w.frames)
    (hadv : w.Advance op w') (hcln : w.Steady op → w.stage.Clean → w'.stage.Clean) : w.Worked op w' := by
  obtain ⟨hcs, hcn, hact, hcfg, hfr⟩ := hsm
  exact ⟨⟨job, hjob, hjob'⟩, hcs, hcn, hact, hcfg, .inl hfr, hadv, hcln⟩

theorem exposed_of_job (hjob : w.stage.job = some job)
    (hop : w.exposed op = w.stage.job.map (·.group)) : job.group ∈ w.exposed op := by
  rw [hop, hjob]
  rfl

theorem exposed_prepare {ids : Nat → Int} {intent : Intent} (hst : w.stage = .processing job)
    (hint : w.groupIntent job.group = some intent) (hclo : intent ≠ .close)
    (hres : intent ≠ .resend []) : job.group ∈ w.exposed (.prepare ids encrypt now) := by
  dsimp only [exposed]
  rw [hst]
  dsimp only
  rw [hint]
  split
  next hno => cases hno
  next hso => exact absurd (some.inj hso) hclo
  next hso => exact absurd (some.inj hso) hres
  · rfl

theorem exposed_lookupForResend {messageID : Int} {rest : List Int}
    (hst : w.stage = .resending job (messageID :: rest)) : job.group ∈ w.exposed (.lookupForResend now) := by
  dsimp only [exposed]
  rw [hst]
  rfl

theorem worked_prepare {ids : Nat → Int}
    (h : w.prepareGroup ids encrypt now = some w') : w.Worked (.prepare ids encrypt now) w' := by
  unfold prepareGroup at h
  split at h
  next job hst =>
    have hjob : w.stage.job = some job := by rw [hst]; rfl
    split at h
    · cases h
    · cases h
      exact .plain hjob rfl ⟨rfl, rfl, rfl, rfl, rfl⟩ (.still rfl rfl) (fun _ _ => trivial)
    next messageIDs hint =>
      cases h
      refine .plain hjob rfl ⟨rfl, rfl, rfl, rfl, rfl⟩ ?_ (fun _ _ => trivial)
      exact .resends rfl rfl (.inl ⟨messageIDs, hint⟩)
    next intent hclo hres hint =>
      split at h
      · cases h
        exact .plain hjob rfl ⟨rfl, rfl, rfl, rfl, rfl⟩ (.still rfl rfl) (fun _ _ => trivial)
      split at h
      · cases h
        refine .plain hjob rfl ⟨rfl, rfl, rfl, rfl, rfl⟩ (.still rfl rfl) (fun hsty _ => hsty job.group ?_)
        exact exposed_prepare hst hint hclo (fun heq => hres [] heq)
      cases h
      exact .plain hjob rfl ⟨rfl, rfl, rfl, rfl, rfl⟩ (.still rfl rfl) (fun _ _ => trivial)
  · cases h

theorem worked_checkSave (h : w.checkSave = some w') : w.Worked .checkSave w' := by
  unfold checkSave at h
  split at h
  next job prepared next hst =>
    have hjob : w.stage.job = some job := by rw [hst]; rfl
    split at h
    · cases h
      exact .plain hjob rfl ⟨rfl, rfl, rfl, rfl, rfl⟩ (.still rfl rfl) (fun _ _ => trivial)
    split at h
    next hcn =>
      cases h
      refine .plain hjob rfl ⟨rfl, rfl, rfl, rfl, rfl⟩ (.still rfl rfl) (fun hsty _ => ?_)
      rw [hsty job.group (exposed_of_job hjob rfl)] at hcn
      cases hcn
    next hop =>
      cases h
      refine .plain hjob rfl ⟨rfl, rfl, rfl, rfl, rfl⟩ ⟨fun group hin => ?_, fun _ hin => ?_⟩ (fun _ _ => trivial)
      · cases hin
        exact .inr (Bool.eq_false_iff.mpr hop)
      · cases hin
  · cases h

theorem worked_storeSave (h : w.storeSave ok = some w') : w.Worked (.storeSave ok) w' := by
  unfold storeSave at h
  split at h
  next job prepared next hst =>
    have hjob : w.stage.job = some job := by rw [hst]; rfl
    split at h
    · cases h
      refine .plain hjob rfl ⟨rfl, rfl, rfl, rfl, rfl⟩ ?_ (fun _ _ => trivial)
      exact .same (by rw [hst]; rfl) (by rw [hst]; rfl)
    split at h
    next hcn =>
      cases h
      refine .plain hjob rfl ⟨rfl, rfl, rfl, rfl, rfl⟩ (.still rfl rfl) (fun hsty _ => ?_)
      rw [hsty job.group (exposed_of_job hjob rfl)] at hcn
      cases hcn
    split at h
    · cases h
      exact .plain hjob rfl ⟨rfl, rfl, rfl, rfl, rfl⟩ (.still rfl rfl) (fun _ _ => trivial)
    · cases h
  · cases h

theorem worked_retain {sentAt : Time} (h : w.retain sentAt clock = some w') :
    w.Worked (.retain sentAt clock) w' := by
  unfold retain at h
  split at h
  next job prepared hst =>
    have hjob : w.stage.job = some job := by rw [hst]; rfl
    dsimp only at h
    split at h
    · cases h
      refine .plain hjob rfl ⟨rfl, rfl, rfl, rfl, rfl⟩ ⟨fun _ hin => ?_, fun group hin => ?_⟩ (fun _ _ => trivial)
      · cases hin
      · cases hin
        exact .inr (.inl ⟨sentAt, clock, job, prepared, rfl, hst, rfl⟩)
    · cases h
      exact .plain hjob rfl ⟨rfl, rfl, rfl, rfl, rfl⟩ (.still rfl rfl) (fun hsty _ => hsty job.group (exposed_of_job hjob rfl))
  · cases h

theorem worked_lookupForResend (h : w.lookupForResend now = some w') :
    w.Worked (.lookupForResend now) w' := by
  unfold lookupForResend at h
  split at h
  next job hst =>
    cases h
    exact .plain (by rw [hst]; rfl) rfl ⟨rfl, rfl, rfl, rfl, rfl⟩ (.still rfl rfl) (fun _ _ => trivial)
  next job messageID rest hst =>
    have hjob : w.stage.job = some job := by rw [hst]; rfl
    dsimp only at h
    split at h
    · cases h
      refine .plain hjob rfl ⟨rfl, rfl, rfl, rfl, rfl⟩ (.still rfl rfl) (fun hsty _ => hsty job.group ?_)
      exact exposed_lookupForResend hst
    cases h
    refine .plain hjob rfl ⟨rfl, rfl, rfl, rfl, rfl⟩ ?_ (fun _ _ => trivial)
    exact .same (by rw [hst]; rfl) (by rw [hst]; rfl)
  · cases h

theorem worked_control {order : ReliabilityStore.MapOrder}
    (h : w.control clock order = some w') : w.Worked (.control clock order) w' := by
  unfold control at h
  split at h
  next job hst =>
    have hjob : w.stage.job = some job := by rw [hst]; rfl
    split at h
    · cases h
    rename_i request hreq
    split at h
    · split at h
      · cases h
      cases h
      exact .plain hjob rfl ⟨rfl, rfl, rfl, rfl, rfl⟩ (.still rfl rfl) (fun _ _ => trivial)
    split at h
    · cases h
    · cases h
      exact .plain hjob rfl ⟨rfl, rfl, rfl, rfl, rfl⟩ (.still rfl rfl) (fun _ _ => trivial)
    · cases h
      exact .plain hjob rfl ⟨rfl, rfl, rfl, rfl, rfl⟩ (.still rfl rfl) (fun _ _ => trivial)
    rename_i hope
    dsimp only at h
    split at h
    · split at h
      · cases h
        exact .plain hjob rfl ⟨rfl, rfl, rfl, rfl, rfl⟩ (.still rfl rfl) (fun _ _ => trivial)
      cases h
      refine .plain hjob rfl ⟨rfl, rfl, rfl, rfl, rfl⟩ (.resends rfl rfl ?_) (fun _ _ => trivial)
      refine .inr ⟨request, hreq, fun intent heq => ?_⟩
      rw [hope] at heq
      cases heq
    · cases h
      exact .plain hjob rfl ⟨rfl, rfl, rfl, rfl, rfl⟩ (.still rfl rfl) (fun _ _ => trivial)
  · cases h

theorem worked_enterWrite (h : w.enterWrite = some w') : w.Worked .enterWrite w' := by
  unfold enterWrite at h
  split at h
  next job frame rest response hst =>
    have hjob : w.stage.job = some job := by rw [hst]; rfl
    cases h
    refine .plain hjob rfl ⟨rfl, rfl, rfl, rfl, rfl⟩ ?_ (fun hsty _ => ?_)
    · exact .same (by rw [hst]; rfl) (by rw [hst]; rfl)
    · exact hsty job.group (exposed_of_job hjob rfl)
  · cases h

theorem worked_checkWrite (h : w.checkWrite ok = some w') : w.Worked (.checkWrite ok) w' := by
  unfold checkWrite at h
  split at h
  next job frame rest response late hst =>
    have hjob : w.stage.job = some job := by rw [hst]; rfl
    have hlt : w.stage.Clean → late = false := by
      rw [hst]
      exact id
    split at h
    · split at h
      · cases h
      cases h
      refine .plain hjob rfl ⟨rfl, rfl, rfl, rfl, rfl⟩ ?_ (fun _ hcln => hlt hcln)
      exact .same (by rw [hst]; rfl) (by rw [hst]; rfl)
    · split at h
      · cases h
        exact .plain hjob rfl ⟨rfl, rfl, rfl, rfl, rfl⟩ (.still rfl rfl) (fun _ hcln => hlt hcln)
      · cases h
  · cases h

theorem worked_finishWrite (h : w.finishWrite ok = some w') : w.Worked (.finishWrite ok) w' := by
  unfold finishWrite at h
  split at h
  next job frame rest response late hst =>
    have hjob : w.stage.job = some job := by rw [hst]; rfl
    have hlt : w.stage.Clean → late = false := by
      rw [hst]
      exact id
    split at h
    · have hfr : ∃ job frame rest response late, w.stage = .writing job frame rest response late ∧
          w'.frames = w.frames ++ [(job.group, frame)] := by
        refine ⟨job, frame, rest, response, late, hst, ?_⟩
        split at h
        · cases h
          rfl
        cases h
        rfl
      split at h
      · cases h
        refine ⟨⟨job, hjob, rfl⟩, rfl, rfl, rfl, rfl, .inr hfr, ?_, fun _ _ => trivial⟩
        exact .still rfl rfl
      cases h
      refine ⟨⟨job, hjob, rfl⟩, rfl, rfl, rfl, rfl, .inr hfr, ?_, fun _ _ => trivial⟩
      exact .same (by rw [hst]; rfl) (by rw [hst]; rfl)
    · split at h
      · cases h
        exact .plain hjob rfl ⟨rfl, rfl, rfl, rfl, rfl⟩ (.still rfl rfl) (fun _ hcln => hlt hcln)
      · cases h
  · cases h

inductive Moves (w : WriterLoop) (op : WriterOp) : WriterLoop → Prop
  | worked {w' : WriterLoop} : w.Worked op w' → Moves w op w'
  | aside {w' : WriterLoop} : w'.calls = w.calls → w'.stage = w.stage → w'.config = w.config →
      w'.frames = w.frames → (∀ ctx, w.canceled ctx = true → w'.canceled ctx = true) → Moves w op w'
  | called {call : CallID} {c : WriterCall} : (c.stage = .handed → c.reply ≠ none) →
      (∀ old, w.calls call = some old → c.request = old.request) → Moves w op (w.setCall call c)
  | ended {pending : Option CallID} : w.stage = .selecting pending →
      Moves w op { w with stage := .stopped .leaseEnded }
  | received {call : CallID} {request : WriterRequest} {reply : Option WriterResponse} :
      w.stage = .selecting none → w.calls call = some ⟨request, .offering, reply⟩ →
      Moves w op ((w.handOver call request).startGroup call request)
  | resumed {call : CallID} {request : WriterRequest} :
      w.stage = .selecting (some call) → w.requestOf call = some request →
      Moves w op (w.startGroup call request)
  | joined {group : List CallID} {encodedBytes encodedBytes' : Nat} {call : CallID}
      {request : WriterRequest} {reply : Option WriterResponse} :
      w.stage = .collecting group encodedBytes → w.calls call = some ⟨request, .offering, reply⟩ →
      (w.handOver call request).joins group encodedBytes request = true →
      Moves w op { w.handOver call request with stage := .collecting (group ++ [call]) encodedBytes' }
  | separated {group : List CallID} {encodedBytes : Nat} {call : CallID}
      {request : WriterRequest} {reply : Option WriterResponse} :
      w.stage = .collecting group encodedBytes → w.calls call = some ⟨request, .offering, reply⟩ →
      Moves w op { w.handOver call request with stage := .processing ⟨group, some call⟩ }
  | collected {group : List CallID} {encodedBytes : Nat} :
      w.stage = .collecting group encodedBytes →
      Moves w op { w with stage := .processing ⟨group, none⟩ }
  | replied {job : WriterJob} {response : WriterResponse} :
      w.stage = .replying job response none →
      Moves w op { w.answer response job.group with stage := .selecting job.pending }
  | stopped {job : WriterJob} {response : WriterResponse} {ending : WriterEnding} :
      w.stage = .replying job response (some ending) →
      Moves w op { w.answer response job.group with active := false, stage := .stopped ending }

theorem moves_collect (h : w.collect call = some w') : w.Moves (.collect call) w' := by
  unfold collect at h
  split at h
  next group encodedBytes next reply hst hcl =>
    split at h
    · dsimp only at h
      split at h
      next hjoi =>
        cases h
        exact .joined hst hcl hjoi
      cases h
      exact .separated hst hcl
    · cases h
  · cases h

theorem moves_caller (h : (∃ request, w.request call request = some w') ∨ w.receiveReply call = some w' ∨
      w.giveUp call = some w' ∨ w.observeDone call = some w') : w.Moves op w' := by
  have hret : ∀ {c : WriterCall} {response : WriterResponse} {reply : Option WriterResponse},
      w.calls call = some c → w.Moves op (w.setCall call ⟨c.request, .returned response, reply⟩) := by
    intro c response reply hcl
    refine .called (fun hhan => nomatch hhan) (fun old hold => ?_)
    cases hcl.symm.trans hold
    rfl
  rcases h with ⟨request, h⟩ | h | h | h
  · unfold WriterLoop.request at h
    split at h
    next hno =>
      cases h
      refine .called (fun hhan => nomatch hhan) (fun old hold => ?_)
      rw [hno] at hold
      cases hold
    · cases h
  · unfold receiveReply at h
    split at h
    next hcl =>
      cases h
      exact hret hcl
    · cases h
  · unfold giveUp at h
    split at h
    · cases h
    next hcl =>
      split at h
      · cases h
        exact hret hcl
      · cases h
    · cases h
  · unfold observeDone at h
    split at h
    next hcl =>
      split at h
      · cases h
        exact hret hcl
      · cases h
    next hcl =>
      split at h
      · cases h
        exact hret hcl
      · cases h
    · cases h

theorem step_moves (h : w.step op = some w') : w.Moves op w' := by
  cases op with
  | request call request => exact moves_caller (.inl ⟨request, h⟩)
  | receiveReply call => exact moves_caller (.inr (.inl h))
  | giveUp call => exact moves_caller (.inr (.inr (.inl h)))
  | observeDone call => exact moves_caller (.inr (.inr (.inr h)))
  | cancel ctx =>
    cases h
    refine .aside rfl rfl rfl rfl (fun other hother => ?_)
    show update w.canceled ctx true other = true
    by_cases heq : other = ctx
    · rw [heq, update_self]
    · rw [update_of_ne heq]
      exact hother
  | endLease =>
    cases h
    exact .aside rfl rfl rfl rfl (fun _ => id)
  | saveOther next =>
    dsimp only [step] at h
    split at h
    · cases h
      exact .aside rfl rfl rfl rfl (fun _ => id)
    · cases h
  | observeLease =>
    dsimp only [step, observeLease] at h
    split at h
    next pending hst =>
      split at h
      · cases h
      cases h
      exact .ended hst
    · cases h
  | receive call =>
    dsimp only [step, receive] at h
    split at h
    next request reply hst hcl =>
      cases h
      exact .received hst hcl
    · cases h
  | resume =>
    dsimp only [step, resume] at h
    split at h
    next call hst =>
      split at h
      · obtain ⟨request, hreq, rfl⟩ := map_eq_some_iff.mp h
        exact .resumed hst hreq
      cases h
      exact .ended hst
    · cases h
  | collect call => exact moves_collect h
  | collected =>
    dsimp only [step, collected] at h
    split at h
    next group encodedBytes hst =>
      cases h
      exact .collected hst
    · cases h
  | prepare ids encrypt now => exact .worked (worked_prepare h)
  | control clock order => exact .worked (worked_control h)
  | checkSave => exact .worked (worked_checkSave h)
  | storeSave ok => exact .worked (worked_storeSave h)
  | retain sentAt clock => exact .worked (worked_retain h)
  | lookupForResend now => exact .worked (worked_lookupForResend h)
  | enterWrite => exact .worked (worked_enterWrite h)
  | checkWrite ok => exact .worked (worked_checkWrite h)
  | finishWrite ok => exact .worked (worked_finishWrite h)
  | reply =>
    dsimp only [step, reply] at h
    split at h
    next job response ending hst =>
      split at h
      · cases h
        exact .replied hst
      cases h
      exact .stopped hst
    · cases h

theorem answer_eq (w : WriterLoop) (response : WriterResponse) (group : List CallID) :
    (∀ call, (w.answer response group).calls call = if call ∈ group then
        (w.calls call).map (fun c => { c with reply := some response }) else w.calls call) ∧
      (w.answer response group).stage = w.stage ∧ (w.answer response group).frames = w.frames := by
  induction group generalizing w with
  | nil => exact ⟨fun call => (if_neg List.not_mem_nil).symm, rfl, rfl⟩
  | cons first rest ih =>
    unfold answer
    split
    next c hcl =>
      obtain ⟨hcs, hst, hfr⟩ := ih (w.setCall first { c with reply := some response })
      refine ⟨fun call => ?_, hst, hfr⟩
      rw [hcs]
      show (if call ∈ rest then Option.map _ (update w.calls first _ call)
        else update w.calls first _ call) = _
      by_cases heq : call = first
      · subst heq
        rw [update_self, if_pos List.mem_cons_self, hcl]
        split <;> rfl
      · rw [update_of_ne heq]
        simp only [List.mem_cons, heq, false_or]
    next hcl =>
      obtain ⟨hcs, hst, hfr⟩ := ih w
      refine ⟨fun call => ?_, hst, hfr⟩
      rw [hcs]
      by_cases heq : call = first
      · subst heq
        rw [if_pos List.mem_cons_self, hcl]
        split <;> rfl
      · simp only [List.mem_cons, heq, false_or]

theorem requestOf_answer (w : WriterLoop) (response : WriterResponse) (group : List CallID)
    (call : CallID) : (w.answer response group).requestOf call = w.requestOf call := by
  unfold requestOf
  rw [(answer_eq w response group).1]
  split
  · rw [map_map]
    rfl
  · rfl

theorem canceled_answer (w : WriterLoop) (response : WriterResponse) (group : List CallID) :
    (w.answer response group).canceled = w.canceled := by
  induction group generalizing w with
  | nil => rfl
  | cons call rest ih =>
    unfold answer
    split
    · exact ih _
    · exact ih _

theorem startGroup_stage (w : WriterLoop) (call : CallID) (request : WriterRequest) :
    ∃ stage : WriterStage, w.startGroup call request = { w with stage := stage } ∧
      stage.inHand = [call] ∧ stage.group = some [call] ∧ stage.Clean ∧
      ((∃ encodedBytes, stage = .collecting [call] encodedBytes) ∨ stage = .processing ⟨[call], none⟩) := by
  unfold startGroup
  dsimp only
  split
  · split
    · exact ⟨_, rfl, rfl, rfl, trivial, .inl ⟨_, rfl⟩⟩
    · exact ⟨_, rfl, rfl, rfl, trivial, .inr rfl⟩
  · exact ⟨_, rfl, rfl, rfl, trivial, .inr rfl⟩

theorem isStopped_of_stage {stage : WriterStage} (h : w.stage = stage)
    (hst : ∀ ending, stage ≠ .stopped ending) : w.isStopped = false := by
  unfold isStopped
  split
  next ending hend => exact absurd (h.symm.trans hend) (hst ending)
  · rfl

theorem config_answer (w : WriterLoop) (response : WriterResponse) (group : List CallID) :
    (w.answer response group).config = w.config := by
  induction group generalizing w with
  | nil => rfl
  | cons call rest ih =>
    unfold answer
    split
    · exact ih _
    · exact ih _

/-- Every step keeps configuration, cancelled contexts and frames, but for one frame added. -/
structure Keeps (w w' : WriterLoop) : Prop where
  config : w'.config = w.config
  canceled : ∀ ctx, w.canceled ctx = true → w'.canceled ctx = true
  frames : w'.frames = w.frames ∨ ∃ job frame rest response late,
    w.stage = .writing job frame rest response late ∧ w'.frames = w.frames ++ [(job.group, frame)]

theorem keeps_of_eq (hcfg : w'.config = w.config) (hcn : w'.canceled = w.canceled)
    (hfr : w'.frames = w.frames) : w.Keeps w' :=
  ⟨hcfg, fun _ hctx => hcn ▸ hctx, .inl hfr⟩

theorem step_keeps (h : w.step op = some w') : w.Keeps w' := by
  cases step_moves h with
  | worked hwk => exact ⟨hwk.config, fun _ hctx => hwk.canceled ▸ hctx, hwk.frames⟩
  | aside _ _ hcfg hfr hcn => exact ⟨hcfg, hcn, .inl hfr⟩
  | called => exact keeps_of_eq rfl rfl rfl
  | ended => exact keeps_of_eq rfl rfl rfl
  | @received call request =>
    obtain ⟨stage, hst, -⟩ := startGroup_stage (w.handOver call request) call request
    rw [hst]
    exact keeps_of_eq rfl rfl rfl
  | @resumed call request =>
    obtain ⟨stage, hst, -⟩ := startGroup_stage w call request
    rw [hst]
    exact keeps_of_eq rfl rfl rfl
  | joined => exact keeps_of_eq rfl rfl rfl
  | separated => exact keeps_of_eq rfl rfl rfl
  | collected => exact keeps_of_eq rfl rfl rfl
  | @replied job response =>
    exact keeps_of_eq (config_answer _ _ _) (canceled_answer _ _ _) (answer_eq w response job.group).2.2
  | @stopped job response =>
    exact keeps_of_eq (config_answer _ _ _) (canceled_answer _ _ _) (answer_eq w response job.group).2.2

theorem step_advance (h : w.step op = some w') : w.Advance op w' := by
  cases step_moves h with
  | worked hwk => exact hwk.advance
  | aside _ hst _ _ _ => exact .same (by rw [hst]) (by rw [hst])
  | called => exact .same rfl rfl
  | @received call request =>
    obtain ⟨stage, hsta, -, -, -, hkd⟩ := startGroup_stage (w.handOver call request) call request
    rw [hsta]
    rcases hkd with ⟨encodedBytes, rfl⟩ | rfl
    · exact .still rfl rfl
    · exact .still rfl rfl
  | @resumed call request =>
    obtain ⟨stage, hsta, -, -, -, hkd⟩ := startGroup_stage w call request
    rw [hsta]
    rcases hkd with ⟨encodedBytes, rfl⟩ | rfl
    · exact .still rfl rfl
    · exact .still rfl rfl
  | _ => exact .still rfl rfl

theorem requestOf_setCall {other : CallID} {c : WriterCall}
    (hc : ∀ old, w.calls call = some old → c.request = old.request)
    (h : w.requestOf other = some request) : (w.setCall call c).requestOf other = some request := by
  show (update w.calls call (some c) other).map _ = _
  by_cases heq : other = call
  · subst heq
    obtain ⟨old, hold, hreq⟩ := map_eq_some_iff.mp h
    rw [update_self, map_some, hc old hold, hreq]
  · rw [update_of_ne heq]
    exact h

theorem requestOf_step (h : w.step op = some w') (hreq : w.requestOf call = some request) :
    w'.requestOf call = some request := by
  have hhan : ∀ {other : CallID} {r : WriterRequest} {reply : Option WriterResponse},
      w.calls other = some ⟨r, .offering, reply⟩ →
      (w.handOver other r).requestOf call = some request := by
    intro other r reply hother
    refine requestOf_setCall (fun old hold => ?_) hreq
    cases hother.symm.trans hold
    rfl
  cases step_moves h with
  | worked hwk =>
    unfold requestOf
    rw [hwk.calls]
    exact hreq
  | aside hcs _ _ _ _ =>
    unfold requestOf
    rw [hcs]
    exact hreq
  | called _ hsm => exact requestOf_setCall hsm hreq
  | ended => exact hreq
  | @received other r reply _ hcl =>
    obtain ⟨stage, hst, -⟩ := startGroup_stage (w.handOver other r) other r
    rw [hst]
    exact hhan hcl
  | @resumed other r =>
    obtain ⟨stage, hst, -⟩ := startGroup_stage w other r
    rw [hst]
    exact hreq
  | joined _ hcl _ => exact hhan hcl
  | separated _ hcl => exact hhan hcl
  | collected => exact hreq
  | replied =>
    exact (requestOf_answer _ _ _ _).trans hreq
  | stopped =>
    exact (requestOf_answer _ _ _ _).trans hreq

end

end WriterLoop

end Tlrpc
