import Tlrpc.WriterSteps

namespace Tlrpc

open List Function Option WriterStage WriterLoop

def WriterStage.rank : WriterStage → Nat
  | .saving _ _ _ => 11
  | .storing _ _ _ => 10
  | .retaining _ _ => 9
  | .resending _ messageIDs => 5 + 4 * messageIDs.length
  | .entering _ _ rest _ => 8 + 4 * rest.length
  | .checking _ _ rest _ _ => 7 + 4 * rest.length
  | .writing _ _ rest _ _ => 6 + 4 * rest.length
  | _ => 1

def WriterOp.own : WriterOp → Bool
  | .observeLease | .resume | .collected | .prepare _ _ _ | .control _ _ | .checkSave | .storeSave _
  | .retain _ _ | .lookupForResend _ | .enterWrite | .checkWrite _ | .finishWrite _ | .reply => true
  | _ => false

namespace WriterLoop

variable {request : WriterRequest} {stage : WriterStage} {ending : Option WriterEnding}
  {group : List CallID} {prepared : PreparedFrame}

section

variable {w w' : WriterLoop}

/-- The calls that wait for a reply are those that the writer has in hand. -/
structure Sound (w : WriterLoop) : Prop where
  known : ∀ call ∈ w.stage.inHand, ∃ c, w.calls call = some c
  nonempty : ∀ group, w.stage.group = some group → group ≠ []
  waiting : ∀ call c, w.calls call = some c → c.stage = .handed → c.reply = none →
    w.isStopped = true ∨ call ∈ w.stage.inHand

theorem Sound.handOver (h : w.Sound) {call : CallID} (hst : stage.inHand.Perm (call :: w.stage.inHand))
    (hgrp : ∀ group, stage.group = some group → group ≠ []) (hrun : w.isStopped = false) :
    ({ w.handOver call request with stage := stage } : WriterLoop).Sound := by
  have hcs : ∀ other, ({ w.handOver call request with stage := stage } : WriterLoop).calls other =
      if other = call then some ⟨request, .handed, none⟩ else w.calls other := by
    intro other
    show Function.update w.calls call _ other = _
    split
    next heq => rw [heq, update_self]
    next hne => rw [update_of_ne hne]
  refine ⟨fun other hin => ?_, hgrp, fun other c hother hhan hno => ?_⟩
  · rw [hcs]
    split
    · exact ⟨_, rfl⟩
    rename_i hne
    rcases mem_cons.mp (hst.mem_iff.mp hin) with heq | hold
    · exact absurd heq hne
    · exact h.known other hold
  · refine .inr (hst.mem_iff.mpr ?_)
    rw [hcs] at hother
    split at hother
    next heq => exact mem_cons.mpr (.inl heq)
    rcases h.waiting other c hother hhan hno with hsp | hold
    · rw [hrun] at hsp
      cases hsp
    · exact mem_cons_of_mem _ hold

theorem Sound.goto (h : w.Sound) (hcs : w'.calls = w.calls) (hhn : w'.stage.inHand = w.stage.inHand)
    (hgrp : ∀ group, w'.stage.group = some group → group ≠ []) (hrun : w.isStopped = false) : w'.Sound := by
  refine ⟨fun call hin => ?_, hgrp, fun call c hcl hhan hno => ?_⟩
  · rw [hcs]
    rw [hhn] at hin
    exact h.known call hin
  · rw [hcs] at hcl
    rw [hhn]
    rcases h.waiting call c hcl hhan hno with hst | hin
    · rw [hrun] at hst
      cases hst
    · exact .inr hin

variable {op : WriterOp} {job : WriterJob} {response : WriterResponse} {mid : WriterLoop}
  {ops : List WriterOp}

theorem Sound.worked (h : w.Sound) (hwk : w.Worked op w') : w'.Sound := by
  obtain ⟨job, hbef, haft⟩ := hwk.job
  refine h.goto hwk.calls ?_ (fun group hso => ?_) ?_
  · rw [inHand_of_job haft, inHand_of_job hbef]
  · rw [group_of_job haft] at hso
    cases hso
    exact h.nonempty _ (group_of_job hbef)
  · refine isStopped_of_stage rfl (fun ending hst => ?_)
    rw [hst] at hbef
    cases hbef

theorem Sound.answer (h : w.Sound) (hst : w.stage = .replying job response ending)
    {active : Bool} (hhn : ∀ call ∈ stage.inHand, call ∈ job.pending.toList)
    (hsp : (∃ ending, stage = .stopped ending) ∨ ∀ call ∈ job.pending.toList, call ∈ stage.inHand)
    (hgrp : stage.group = none) :
    ({ w.answer response job.group with active := active, stage := stage } : WriterLoop).Sound := by
  obtain ⟨hcs, -, -⟩ := answer_eq w response job.group
  have hin : w.stage.inHand = job.group ++ job.pending.toList := by rw [hst]; rfl
  refine ⟨fun call hcl => ?_, fun group hso => ?_, fun call c hcl hhan hno => ?_⟩
  · obtain ⟨c, hc⟩ := h.known call (by rw [hin]; exact mem_append_right _ (hhn call hcl))
    rw [hcs, hc]
    split <;> exact ⟨_, rfl⟩
  · rw [hgrp] at hso
    cases hso
  · rcases hsp with ⟨last, rfl⟩ | hsp
    · exact .inl rfl
    · have hcl' : (w.answer response job.group).calls call = some c := hcl
      rw [hcs] at hcl'
      split at hcl'
      · obtain ⟨old, -, rfl⟩ := map_eq_some_iff.mp hcl'
        cases hno
      rename_i hnot
      rcases h.waiting call c hcl' hhan hno with hsto | hold
      · rw [isStopped_of_stage hst (fun _ => WriterStage.noConfusion)] at hsto
        cases hsto
      · rw [hin] at hold
        exact .inr (hsp call ((mem_append.mp hold).resolve_left hnot))

theorem Sound.step (h : w.Sound) (hsp : w.step op = some w') : w'.Sound := by
  cases step_moves hsp with
  | worked hwk => exact h.worked hwk
  | aside hcs hst =>
    refine ⟨?_, ?_, ?_⟩
    · rw [hcs, hst]
      exact h.known
    · rw [hst]
      exact h.nonempty
    · unfold isStopped
      rw [hcs, hst]
      exact h.waiting
  | @called call c hans =>
    have hcs : ∀ other, (w.setCall call c).calls other = if other = call then some c else w.calls other := by
      intro other
      show Function.update w.calls call (some c) other = _
      split
      next heq => rw [heq, update_self]
      next hne => rw [update_of_ne hne]
    refine ⟨fun other hin => ?_, h.nonempty, fun other c' hcl hhan hno => ?_⟩
    · rw [hcs]
      split
      · exact ⟨c, rfl⟩
      · exact h.known other hin
    · rw [hcs] at hcl
      split at hcl
      · cases hcl
        exact absurd hno (hans hhan)
      · exact h.waiting other c' hcl hhan hno
  | ended =>
    refine ⟨fun call hin => ?_, fun group hso => ?_, fun _ _ _ _ _ => .inl rfl⟩
    · cases hin
    · cases hso
  | @received call request reply hst =>
    obtain ⟨stage, hsta, hhn, hgrp, -, -⟩ :=
      startGroup_stage (w.handOver call request) call request
    rw [hsta]
    refine h.handOver ?_ (fun group hso => ?_)
      (isStopped_of_stage hst (fun _ => WriterStage.noConfusion))
    · rw [hhn, hst]
      exact List.Perm.refl _
    · rw [hgrp] at hso
      cases hso
      exact cons_ne_nil _ _
  | @resumed call request hst hreq =>
    obtain ⟨stage, hsta, hhn, hgrp, -, -⟩ := startGroup_stage w call request
    rw [hsta]
    refine h.goto rfl ?_ (fun group hso => ?_)
      (isStopped_of_stage hst (fun _ => WriterStage.noConfusion))
    · rw [hst]
      exact hhn
    · cases hgrp.symm.trans hso
      exact cons_ne_nil _ _
  | @joined group encodedBytes encodedBytes' call request reply hst =>
    refine h.handOver ?_ (fun group' hso => ?_)
      (isStopped_of_stage hst (fun _ => WriterStage.noConfusion))
    · rw [hst]
      exact perm_append_singleton call group
    · cases hso
      exact append_ne_nil_of_right_ne_nil _ (cons_ne_nil _ _)
  | @separated group encodedBytes call request reply hst =>
    refine h.handOver ?_ (fun group' hso => ?_)
      (isStopped_of_stage hst (fun _ => WriterStage.noConfusion))
    · rw [hst]
      exact perm_append_singleton call group
    · cases hso
      exact h.nonempty _ (by rw [hst]; rfl)
  | @collected group encodedBytes hst =>
    refine h.goto rfl ?_ (fun group' hso => ?_)
      (isStopped_of_stage hst (fun _ => WriterStage.noConfusion))
    · rw [hst]
      exact append_nil group
    · cases hso
      exact h.nonempty _ (by rw [hst]; rfl)
  | @replied job response hst =>
    exact h.answer hst (fun _ hin => hin) (.inr fun _ hin => hin) rfl
  | @stopped job response ending hst =>
    exact h.answer hst (fun _ hin => nomatch hin) (.inl ⟨ending, rfl⟩) rfl

theorem clean_step (hcln : w.stage.Clean) (hsty : w.Steady op)
    (hsp : w.step op = some w') : w'.stage.Clean := by
  cases step_moves hsp with
  | worked hwk => exact hwk.clean hsty hcln
  | aside _ hst =>
    rw [hst]
    exact hcln
  | called => exact hcln
  | ended => trivial
  | @received call request =>
    obtain ⟨stage, hsta, -, -, hst, -⟩ := startGroup_stage (w.handOver call request) call request
    rw [hsta]
    exact hst
  | @resumed call request =>
    obtain ⟨stage, hsta, -, -, hst, -⟩ := startGroup_stage w call request
    rw [hsta]
    exact hst
  | joined => trivial
  | separated => trivial
  | collected => trivial
  | replied => trivial
  | @stopped job response ending hst =>
    rw [hst] at hcln
    cases ending with
    | leaseEnded => trivial
    | close => trivial
    | failed group canceledBefore => exact hcln

def Answered (w : WriterLoop) (call : CallID) : Prop :=
  ∃ c, w.calls call = some c ∧ c.reply ≠ none

structure Runs (w : WriterLoop) (ops : List WriterOp) (w' : WriterLoop) : Prop where
  own : ∀ op ∈ ops, op.own = true
  steady : Meets WriterLoop.step WriterLoop.Steady w ops
  run : exec WriterLoop.step w ops = some w'
  requests : ∀ call, w'.requestOf call = w.requestOf call
  canceled : w'.canceled = w.canceled
  answered : ∀ call, w.Answered call → w'.Answered call

theorem Runs.refl (w : WriterLoop) : w.Runs [] w :=
  ⟨fun _ hin => absurd hin not_mem_nil, trivial, rfl, fun _ => rfl, rfl, fun _ => id⟩

theorem Runs.trans {later : List WriterOp} (h : w.Runs ops mid)
    (hlat : mid.Runs later w') : w.Runs (ops ++ later) w' := by
  refine ⟨fun op hin => ?_, h.steady.append h.run hlat.steady, exec_append h.run hlat.run,
    fun call => ?_, ?_, fun call hans => hlat.answered call (h.answered call hans)⟩
  · rcases mem_append.mp hin with hin | hin
    · exact h.own op hin
    · exact hlat.own op hin
  · rw [hlat.requests, h.requests]
  · rw [hlat.canceled, h.canceled]

theorem Runs.single (hown : op.own = true) (hsty : w.Steady op)
    (hst : w.step op = some w') (hreq : ∀ call, w'.requestOf call = w.requestOf call)
    (hcn : w'.canceled = w.canceled)
    (hans : ∀ call, w.Answered call → w'.Answered call) : w.Runs [op] w' := by
  refine ⟨fun other hin => ?_, ⟨hsty, ?_⟩, ?_, hreq, hcn, hans⟩
  · rw [mem_singleton.mp hin]
    exact hown
  · rw [hst]
    trivial
  · exact bind_eq_some_iff.mpr ⟨w', hst, rfl⟩

theorem Runs.aside (hown : op.own = true) (hsty : w.Steady op)
    (hst : w.step op = some w') (hcs : w'.calls = w.calls) (hcn : w'.canceled = w.canceled) :
    w.Runs [op] w' := by
  refine .single hown hsty hst (fun call => ?_) hcn (fun call hans => ?_)
  · unfold requestOf
    rw [hcs]
  · unfold Answered
    rw [hcs]
    exact hans

theorem Runs.groupCanceled (h : w.Runs ops w') (group : List CallID) :
    w'.groupCanceled group = w.groupCanceled group := by
  unfold WriterLoop.groupCanceled contextOf
  rw [h.canceled]
  cases group with
  | nil => rfl
  | cons call rest =>
    show ((w'.requestOf call).map _).any _ = ((w.requestOf call).map _).any _
    rw [h.requests]

theorem Sound.runs (h : w.Sound) (hrns : w.Runs ops w') : w'.Sound :=
  exec_inductive (fun _ _ _ hsd hst => hsd.step hst) h hrns.run

theorem steady_of_uncanceled (hjob : w.stage.job = some job)
    (hctx : w.groupCanceled job.group = false) (op : WriterOp) : w.Steady op := by
  intro group hexp
  suffices hgrp : w.stage.job.map (·.group) = some group by
    rw [hjob] at hgrp
    cases hgrp
    exact hctx
  unfold exposed at hexp
  split at hexp
  · split at hexp
    next job hst =>
      split at hexp
      · cases hexp
      · cases hexp
      · cases hexp
      rw [hst]
      exact hexp
    · cases hexp
  · split at hexp
    next hst =>
      rw [hst]
      exact hexp
    · cases hexp
  · exact hexp
  · exact hexp
  · exact hexp
  · exact hexp
  · cases hexp

def Finishes (w : WriterLoop) (job : WriterJob) : Prop :=
  ∃ ops w', w.Runs ops w' ∧ (w'.stage = .selecting job.pending ∨ w'.isStopped = true) ∧
    ∀ call ∈ job.group, w'.Answered call

theorem Finishes.after (hrns : w.Runs [op] mid) (h : mid.Finishes job) : w.Finishes job := by
  obtain ⟨ops, w', hlat, hst, hans⟩ := h
  exact ⟨op :: ops, w', hrns.trans hlat, hst, hans⟩

theorem Sound.finishes_replying (h : w.Sound) (hst : w.stage = .replying job response ending) :
    w.Finishes job := by
  obtain ⟨hcs, -, -⟩ := answer_eq w response job.group
  have hans : ∀ call ∈ job.group, (w.answer response job.group).Answered call := by
    intro call hin
    obtain ⟨c, hc⟩ := h.known call (by rw [hst]; exact mem_append_left _ hin)
    unfold Answered
    rw [hcs, if_pos hin, hc]
    exact ⟨_, rfl, nofun⟩
  have hkp : ∀ call, w.Answered call → (w.answer response job.group).Answered call := by
    intro call hold
    by_cases hin : call ∈ job.group
    · exact hans call hin
    unfold Answered
    rw [hcs, if_neg hin]
    exact hold
  have hsty : w.Steady .reply := fun group hin => nomatch hin
  have hrp : w.step .reply = w.reply := rfl
  unfold reply at hrp
  rw [hst] at hrp
  cases ending with
  | none =>
    exact ⟨[.reply], _, .single rfl hsty hrp (requestOf_answer w response job.group)
      (canceled_answer w response job.group) hkp, .inl rfl, hans⟩
  | some ending =>
    exact ⟨[.reply], _, .single rfl hsty hrp (requestOf_answer w response job.group)
      (canceled_answer w response job.group) hkp, .inr rfl, hans⟩

def Advances (w : WriterLoop) : Prop :=
  ∃ op w', op.own = true ∧ w.step op = some w' ∧ w.Worked op w' ∧ w'.stage.rank < w.stage.rank ∧
    ∀ job, w'.stage ≠ .processing job

theorem advances (hjob : w.stage.job = some job) (hpr : ∀ job, w.stage ≠ .processing job)
    (hrep : ∀ job response ending, w.stage ≠ .replying job response ending) : w.Advances := by
  have hgoes : ∀ {op : WriterOp} {w' : WriterLoop}, op.own = true → w.step op = some w' →
      w.Worked op w' → w'.stage.rank < w.stage.rank → (∀ job, w'.stage ≠ .processing job) →
      w.Advances :=
    fun hown hsp hwk hrn hnot => ⟨_, _, hown, hsp, hwk, hrn, hnot⟩
  cases hst : w.stage with
  | selecting pending => rw [hst] at hjob; cases hjob
  | collecting group encodedBytes => rw [hst] at hjob; cases hjob
  | stopped ending => rw [hst] at hjob; cases hjob
  | processing job => exact absurd hst (hpr job)
  | replying job response ending => exact absurd hst (hrep job response ending)
  | saving job prepared next =>
    rw [hst] at hjob hgoes
    cases hjob
    by_cases hact : w.active = false
    · have hsp : w.step .checkSave = some (w.failLease job) := by
        simp only [WriterLoop.step, checkSave, hst, hact, if_true]
      exact hgoes rfl hsp (worked_checkSave hsp) (show 1 < 11 by omega) (fun _ => WriterStage.noConfusion)
    cases hctx : w.groupCanceled job.group with
    | false =>
      have hsp : w.step .checkSave = some { w with stage := .storing job prepared next } := by
        simp only [step, checkSave, hst, hact, hctx]
        rfl
      exact hgoes rfl hsp (worked_checkSave hsp) (show 10 < 11 by omega)
        (fun _ => WriterStage.noConfusion)
    | true =>
      have hsp : w.step .checkSave = some (w.fail job .canceled true) := by
        simp only [step, checkSave, hst, hact, hctx]
        rfl
      exact hgoes rfl hsp (worked_checkSave hsp) (show 1 < 11 by omega)
        (fun _ => WriterStage.noConfusion)
  | storing job prepared next =>
    rw [hst] at hgoes
    have hsp : w.step (.storeSave true) =
        some { w with snapshot := next, stage := .retaining job prepared } := by
      simp only [WriterLoop.step, storeSave, hst, if_true]
    exact hgoes rfl hsp (worked_storeSave hsp) (show 9 < 10 by omega) (fun _ => WriterStage.noConfusion)
  | retaining job prepared =>
    rw [hst] at hgoes
    have hsp : w.step (.retain 0 fun _ => 0) = w.retain 0 fun _ => 0 := rfl
    unfold retain at hsp
    rw [hst] at hsp
    dsimp only at hsp
    split at hsp
    · exact hgoes rfl hsp (worked_retain hsp) (show 8 < 9 by omega) (fun _ => WriterStage.noConfusion)
    · exact hgoes rfl hsp (worked_retain hsp) (show 1 < 9 by omega) (fun _ => WriterStage.noConfusion)
  | resending job messageIDs =>
    rw [hst] at hgoes
    have hsp : w.step (.lookupForResend 0) = w.lookupForResend 0 := rfl
    unfold lookupForResend at hsp
    rw [hst] at hsp
    cases messageIDs with
    | nil => exact hgoes rfl hsp (worked_lookupForResend hsp) (show 1 < 5 by omega) (fun _ => WriterStage.noConfusion)
    | cons messageID rest =>
      dsimp only at hsp
      split at hsp
      · refine hgoes rfl hsp (worked_lookupForResend hsp) ?_ (fun _ => WriterStage.noConfusion)
        show 1 < 5 + 4 * (rest.length + 1)
        omega
      refine hgoes rfl hsp (worked_lookupForResend hsp) ?_ (fun _ => WriterStage.noConfusion)
      show 8 + 4 * rest.length < 5 + 4 * (rest.length + 1)
      omega
  | entering job frame rest response =>
    rw [hst] at hgoes
    have hsp : w.step .enterWrite = some { w with
        stage := .checking job frame rest response (w.groupCanceled job.group) } := by
      simp only [WriterLoop.step, enterWrite, hst]
    refine hgoes rfl hsp (worked_enterWrite hsp) ?_ (fun _ => WriterStage.noConfusion)
    show 7 + 4 * rest.length < 8 + 4 * rest.length
    omega
  | checking job frame rest response late =>
    rw [hst] at hjob hgoes
    cases hjob
    cases hctx : w.groupCanceled job.group with
    | false =>
      have hsp : w.step (.checkWrite true) =
          some { w with stage := .writing job frame rest response late } := by
        simp only [step, checkWrite, hst, hctx, if_true, Bool.false_eq_true, and_false, if_false]
      refine hgoes rfl hsp (worked_checkWrite hsp) ?_ (fun _ => WriterStage.noConfusion)
      show 6 + 4 * rest.length < 7 + 4 * rest.length
      omega
    | true =>
      have hsp : w.step (.checkWrite false) = some (w.fail job .sink late) := by
        simp only [WriterLoop.step, checkWrite, hst, hctx, if_true, Bool.false_eq_true, if_false]
      refine hgoes rfl hsp (worked_checkWrite hsp) ?_ (fun _ => WriterStage.noConfusion)
      show 1 < 7 + 4 * rest.length
      omega
  | writing job frame rest response late =>
    rw [hst] at hgoes
    have hsp : w.step (.finishWrite true) = w.finishWrite true := rfl
    unfold finishWrite at hsp
    rw [hst] at hsp
    cases rest with
    | nil => exact hgoes rfl hsp (worked_finishWrite hsp) (show 1 < 6 by omega) (fun _ => WriterStage.noConfusion)
    | cons messageID rest =>
      refine hgoes rfl hsp (worked_finishWrite hsp) ?_ (fun _ => WriterStage.noConfusion)
      show 5 + 4 * (rest.length + 1) < 6 + 4 * (rest.length + 1)
      omega

theorem Sound.finishes_begun (h : w.Sound) (hjob : w.stage.job = some job)
    (hpr : ∀ job, w.stage ≠ .processing job) (hctx : w.groupCanceled job.group = false) :
    w.Finishes job := by
  -- each step of the writer lowers the rank, down to the reply
  induction hrn : w.stage.rank using Nat.strong_induction_on generalizing w with
  | _ n ih =>
    by_cases hrep : ∃ job response ending, w.stage = .replying job response ending
    · obtain ⟨job', response, ending, hst⟩ := hrep
      rw [hst] at hjob
      cases hjob
      exact h.finishes_replying hst
    have hnot : ∀ job response ending, w.stage ≠ .replying job response ending :=
      fun job response ending hst => hrep ⟨job, response, ending, hst⟩
    obtain ⟨op, mid, hown, hsp, hwk, hls, hmid⟩ := advances hjob hpr hnot
    obtain ⟨job', hbef, haft⟩ := hwk.job
    cases hjob.symm.trans hbef
    have hrns : w.Runs [op] mid :=
      .aside hown (steady_of_uncanceled hjob hctx op) hsp hwk.calls hwk.canceled
    have hctx' : mid.groupCanceled job.group = false := by rw [hrns.groupCanceled, hctx]
    exact .after hrns (ih mid.stage.rank (hrn ▸ hls) (h.worked hwk) haft hmid hctx' rfl)

theorem prepareGroup_enabled {intent : Intent} (hst : w.stage = .processing job)
    (hint : w.groupIntent job.group = some intent) (ids : Nat → Int)
    (encrypt : InnerData → KeyID → Option (List UInt8)) (now : Time) :
    ∃ w', w.prepareGroup ids encrypt now = some w' ∧ ∀ job, w'.stage ≠ .processing job := by
  unfold prepareGroup
  rw [hst]
  dsimp only
  rw [hint]
  split
  next hno => cases hno
  · exact ⟨_, rfl, fun _ => WriterStage.noConfusion⟩
  · exact ⟨_, rfl, fun _ => WriterStage.noConfusion⟩
  split
  · exact ⟨_, rfl, fun _ => WriterStage.noConfusion⟩
  split
  · exact ⟨_, rfl, fun _ => WriterStage.noConfusion⟩
  · exact ⟨_, rfl, fun _ => WriterStage.noConfusion⟩

theorem control_enabled (hst : w.stage = .processing job)
    (hreq : job.group.head?.bind w.requestOf = some request)
    (hcon : ∀ intent, request.operation ≠ .submit intent) (clock : Nat → Time)
    (order : ReliabilityStore.MapOrder) :
    ∃ w', w.control clock order = some w' ∧ ∀ job, w'.stage ≠ .processing job := by
  unfold control
  rw [hst]
  dsimp only
  rw [hreq]
  dsimp only
  split
  · split
    next intent hsub => exact absurd hsub (hcon intent)
    · exact ⟨_, rfl, fun _ => WriterStage.noConfusion⟩
  split
  next intent hsub => exact absurd hsub (hcon intent)
  · exact ⟨_, rfl, fun _ => WriterStage.noConfusion⟩
  · exact ⟨_, rfl, fun _ => WriterStage.noConfusion⟩
  split
  · split
    · exact ⟨_, rfl, fun _ => WriterStage.noConfusion⟩
    · exact ⟨_, rfl, fun _ => WriterStage.noConfusion⟩
  · exact ⟨_, rfl, fun _ => WriterStage.noConfusion⟩

theorem groupIntent_eq_none (h : w.groupIntent group = none) : ∃ call, group = [call] ∧
      ∀ request, w.requestOf call = some request → ∀ intent, request.operation ≠ .submit intent := by
  unfold groupIntent at h
  split at h
  next call =>
    refine ⟨call, rfl, fun request hreq intent hsub => ?_⟩
    rw [hreq] at h
    obtain ⟨ctx, operation⟩ := request
    cases hsub
    cases h
  · cases h

theorem Sound.processing_step (h : w.Sound) (hst : w.stage = .processing job) :
    ∃ op w', op.own = true ∧ w.step op = some w' ∧ w.Worked op w' ∧ ∀ job, w'.stage ≠ .processing job := by
  cases hint : w.groupIntent job.group with
  | some intent =>
    obtain ⟨w', hw', hnot⟩ :=
      prepareGroup_enabled hst hint (fun _ => 0) (fun _ _ => none) 0
    exact ⟨.prepare (fun _ => 0) (fun _ _ => none) 0, w', rfl, hw', worked_prepare hw', hnot⟩
  | none =>
    obtain ⟨call, hgrp, hother⟩ := groupIntent_eq_none hint
    obtain ⟨c, hcl⟩ := h.known call (by
      rw [hst]
      show call ∈ job.group ++ _
      rw [hgrp]
      exact mem_cons_self)
    have hreq : w.requestOf call = some c.request := by
      unfold requestOf
      rw [hcl]
      rfl
    have hhd : job.group.head?.bind w.requestOf = some c.request := by rw [hgrp]; exact hreq
    obtain ⟨w', hw', hnot⟩ := control_enabled hst hhd (hother _ hreq) (fun _ => 0) ⟨id, fun _ => .refl _⟩
    exact ⟨.control (fun _ => 0) ⟨id, fun _ => .refl _⟩, w', rfl, hw', worked_control hw', hnot⟩

theorem Sound.finishes_job (h : w.Sound) (hjob : w.stage.job = some job)
    (hctx : w.groupCanceled job.group = false) : w.Finishes job := by
  by_cases hpr : ∃ job, w.stage = .processing job
  · obtain ⟨job', hst⟩ := hpr
    obtain ⟨op, mid, hown, hsp, hwk, hnot⟩ := h.processing_step hst
    obtain ⟨job'', hbef, haft⟩ := hwk.job
    cases hjob.symm.trans hbef
    have hrns : w.Runs [op] mid :=
      .aside hown (steady_of_uncanceled hjob hctx op) hsp hwk.calls hwk.canceled
    have hctx' : mid.groupCanceled job.group = false := by rw [hrns.groupCanceled, hctx]
    exact .after hrns ((h.worked hwk).finishes_begun haft hnot hctx')
  · exact h.finishes_begun hjob (fun job hst => hpr ⟨job, hst⟩) hctx

/-- The writer answers every call in hand and comes back to the head of its loop. -/
def Idles (w : WriterLoop) : Prop :=
  ∃ ops w', w.Runs ops w' ∧ (w'.stage = .selecting none ∨ w'.isStopped = true) ∧
    ∀ call ∈ w.stage.inHand, w'.isStopped = true ∨ w'.Answered call

theorem Idles.after (hrns : w.Runs ops mid)
    (hhn : ∀ call ∈ w.stage.inHand, call ∈ mid.stage.inHand ∨ mid.Answered call) (h : mid.Idles) :
    w.Idles := by
  obtain ⟨later, w', hlat, hst, hans⟩ := h
  refine ⟨ops ++ later, w', hrns.trans hlat, hst, fun call hin => ?_⟩
  rcases hhn call hin with hin | hold
  · exact hans call hin
  · exact .inr (hlat.answered call hold)

theorem idles_of_stopped (hst : w.isStopped = true) : w.Idles :=
  ⟨[], w, .refl w, .inr hst, fun _ _ => .inl hst⟩

theorem Sound.idles_job (h : w.Sound) (hjob : w.stage.job = some job)
    (hpen : job.pending = none) (hctx : w.groupCanceled job.group = false) : w.Idles := by
  obtain ⟨ops, w', hrns, hst, hans⟩ := h.finishes_job hjob hctx
  refine ⟨ops, w', hrns, ?_, fun call hin => ?_⟩
  · rw [← hpen]
    exact hst
  · rw [inHand_of_job hjob, hpen] at hin
    exact .inr (hans call (append_nil job.group ▸ hin))

theorem Sound.idles_collecting (h : w.Sound) {encodedBytes : Nat}
    (hst : w.stage = .collecting group encodedBytes) (hctx : w.groupCanceled group = false) : w.Idles := by
  have hsp : w.step .collected = some { w with stage := .processing ⟨group, none⟩ } := by
    simp only [WriterLoop.step, WriterLoop.collected, hst]
  have hrns : w.Runs [.collected] { w with stage := .processing ⟨group, none⟩ } :=
    .aside rfl (fun _ hin => nomatch hin) hsp rfl rfl
  refine .after hrns (fun call hin => .inl ?_) ((h.runs hrns).idles_job rfl rfl hctx)
  rw [hst] at hin
  exact mem_append_left _ hin

theorem Sound.idles_selecting (h : w.Sound) {pending : Option CallID}
    (hst : w.stage = .selecting pending) (hctx : ∀ call ∈ pending, w.groupCanceled [call] = false) :
    w.Idles := by
  cases pending with
  | none =>
    refine ⟨[], w, .refl w, .inl hst, fun call hin => ?_⟩
    rw [hst] at hin
    exact absurd hin not_mem_nil
  | some call =>
    obtain ⟨c, hcl⟩ := h.known call (by rw [hst]; exact mem_singleton_self call)
    have hreq : w.requestOf call = some c.request := by
      unfold requestOf
      rw [hcl]
      rfl
    have hsty : w.Steady .resume := fun _ hin => nomatch hin
    by_cases hact : w.active = true
    · have hsp : w.step .resume = some (w.startGroup call c.request) := by
        simp only [WriterLoop.step, resume, hst, hact, hreq, if_true, map_some]
      obtain ⟨stage, hsta, hhn, -, -, hkd⟩ := startGroup_stage w call c.request
      rw [hsta] at hsp
      have hrns : w.Runs [.resume] { w with stage := stage } := .aside rfl hsty hsp rfl rfl
      refine .after hrns (fun other hin => .inl ?_) ?_
      · rw [hst] at hin
        rw [hhn]
        exact hin
      · rcases hkd with ⟨encodedBytes, rfl⟩ | rfl
        · exact (h.runs hrns).idles_collecting rfl (hctx call rfl)
        · exact (h.runs hrns).idles_job rfl rfl (hctx call rfl)
    · have hsp : w.step .resume = some { w with stage := .stopped .leaseEnded } := by
        simp only [WriterLoop.step, resume, hst, hact]
        rfl
      exact ⟨[.resume], _, .aside rfl hsty hsp rfl rfl, .inr rfl, fun _ _ => .inl rfl⟩

theorem groupCanceled_eq_false {call : CallID} {rest : List CallID}
    (h : ∀ ctx ∈ w.contextOf [call], w.canceled ctx = false) : w.groupCanceled (call :: rest) = false := by
  show (w.contextOf [call]).any w.canceled = false
  cases hctx : w.contextOf [call] with
  | none => rfl
  | some ctx => exact h ctx hctx

theorem Sound.idles (h : w.Sound)
    (hctx : ∀ call ∈ w.stage.inHand, ∀ ctx ∈ w.contextOf [call], w.canceled ctx = false) : w.Idles := by
  have hhd : ∀ group : List CallID, group ≠ [] → (∀ call ∈ group, call ∈ w.stage.inHand) →
      w.groupCanceled group = false := by
    intro group hne hsub
    obtain ⟨call, rest, rfl⟩ := exists_cons_of_ne_nil hne
    exact groupCanceled_eq_false (hctx call (hsub call mem_cons_self))
  cases hjob : w.stage.job with
  | some job =>
    have hin := inHand_of_job hjob
    obtain ⟨ops, mid, hrns, hst, hans⟩ := h.finishes_job hjob
      (hhd job.group (h.nonempty _ (group_of_job hjob))
        (fun call hcl => hin ▸ mem_append_left _ hcl))
    rcases hst with hst | hsp
    · refine .after hrns (fun call hcl => ?_) ((h.runs hrns).idles_selecting hst ?_)
      · rw [hin] at hcl
        rw [hst]
        rcases mem_append.mp hcl with hcl | hcl
        · exact .inr (hans call hcl)
        · exact .inl hcl
      · intro call hcl
        rw [hrns.groupCanceled]
        refine groupCanceled_eq_false (hctx call ?_)
        rw [hin]
        exact mem_append_right _ (mem_toList.mpr hcl)
    · exact ⟨ops, mid, hrns, .inr hsp, fun _ _ => .inl hsp⟩
  | none =>
    cases hst : w.stage with
    | selecting pending =>
      refine h.idles_selecting hst (fun call hcl => groupCanceled_eq_false (hctx call ?_))
      rw [hst]
      exact mem_toList.mpr hcl
    | collecting group encodedBytes =>
      have hgrp : w.stage.group = some group := by rw [hst]; rfl
      refine h.idles_collecting hst (hhd group (h.nonempty group hgrp) (fun call hcl => ?_))
      rw [hst]
      exact hcl
    | stopped ending =>
      refine idles_of_stopped ?_
      unfold isStopped
      rw [hst]
    | _ => rw [hst] at hjob; cases hjob

/-- The lease ends for a group whose context was cancelled before `WriteFrame` was entered. -/
def Ends (w : WriterLoop) : Prop :=
  ∃ ops w', (∀ op ∈ ops, op.own = true) ∧ exec WriterLoop.step w ops = some w' ∧ w'.active = false ∧
    ∃ group, w'.stage = .stopped (.failed group true)

theorem Ends.after (hown : op.own = true) (hst : w.step op = some mid) (h : mid.Ends) : w.Ends := by
  obtain ⟨ops, w', hops, hrun, hen⟩ := h
  refine ⟨op :: ops, w', fun other hin => ?_, bind_eq_some_iff.mpr ⟨mid, hst, hrun⟩, hen⟩
  rcases mem_cons.mp hin with rfl | hin
  · exact hown
  · exact hops other hin

theorem ends_fail {err : WriterError} {canceledBefore : Bool}
    (h : canceledBefore = true) : (w.fail job err canceledBefore).Ends := by
  subst h
  exact ⟨[.reply], _, fun _ hin => mem_singleton.mp hin ▸ rfl, rfl, rfl, job.group, rfl⟩

theorem ends_entering {frame : List UInt8} {rest : List Int}
    (hst : w.stage = .entering job frame rest response)
    (hctx : w.groupCanceled job.group = true) : w.Ends := by
  have hent : w.step .enterWrite = some { w with stage := .checking job frame rest response true } := by
    simp only [step, enterWrite, hst, hctx]
  have hchk : ({ w with stage := .checking job frame rest response true } : WriterLoop).step
      (.checkWrite false) = some (w.fail job .sink true) := by
    have hctx' : ({ w with stage := .checking job frame rest response true } :
        WriterLoop).groupCanceled job.group = true := hctx
    simp only [step, checkWrite, hctx', if_true]
    rfl
  exact .after rfl hent (.after rfl hchk (ends_fail rfl))

theorem ends_saving {next : Snapshot}
    (hst : w.stage = .saving job prepared next) (hctx : w.groupCanceled job.group = true)
    (hact : w.active = true) : w.Ends := by
  have hsp : w.step .checkSave = some (w.fail job .canceled true) := by
    simp only [step, checkSave, hst, hact, hctx, if_true]
    rfl
  exact .after rfl hsp (ends_fail rfl)

theorem ends_storing {next : Snapshot}
    (hst : w.stage = .storing job prepared next) (hctx : w.groupCanceled job.group = true) : w.Ends := by
  have hsp : w.step (.storeSave false) = some (w.fail job .canceled true) := by
    simp only [step, storeSave, hst, hctx, if_true]
    rfl
  exact .after rfl hsp (ends_fail rfl)

theorem ends_resending {messageID : Int} {rest : List Int}
    (hst : w.stage = .resending job (messageID :: rest))
    (hctx : w.groupCanceled job.group = true) : w.Ends := by
  have hsp : w.step (.lookupForResend 0) = w.lookupForResend 0 := rfl
  unfold lookupForResend at hsp
  rw [hst] at hsp
  dsimp only at hsp
  split at hsp
  · exact .after rfl hsp (ends_fail hctx)
  · exact .after rfl hsp (ends_entering rfl hctx)

theorem ends_prepare {ids : Nat → Int} {encrypt : InnerData → KeyID → Option (List UInt8)} {now : Time}
    (hst : w.stage = .processing job) (hctx : w.groupCanceled job.group = true)
    (hact : w.active = true) (hclo : w.groupIntent job.group ≠ some .close)
    (hres : w.groupIntent job.group ≠ some (.resend []))
    (h : w.prepareGroup ids encrypt now = some w') : w.Ends := by
  have hsp : w.step (.prepare ids encrypt now) = some w' := h
  unfold prepareGroup at h
  rw [hst] at h
  dsimp only at h
  split at h
  · cases h
  next hint => exact absurd hint hclo
  next messageIDs hint =>
    cases h
    cases messageIDs with
    | nil => exact absurd hint hres
    | cons messageID rest => exact .after rfl hsp (ends_resending rfl hctx)
  split at h
  next hnot => cases hact.symm.trans hnot
  split at h
  · cases h
    exact .after rfl hsp (ends_fail hctx)
  cases h
  exact .after rfl hsp (ends_saving rfl hctx hact)

theorem ends_of_unsteady (hact : w.active = true) (hsp : w.step op = some w')
    (huns : ¬w.Steady op) : w.Ends := by
  obtain ⟨group, huns⟩ := not_forall.mp huns
  obtain ⟨hexp, hctx⟩ := Classical.not_imp.mp huns
  rw [Bool.not_eq_false] at hctx
  unfold exposed at hexp
  split at hexp
  next ids encrypt now =>
    split at hexp
    next job hst =>
      split at hexp
      · cases hexp
      · cases hexp
      · cases hexp
      rename_i hclo hres hso
      cases hexp
      refine ends_prepare hst hctx hact (fun heq => ?_) (fun heq => ?_) hsp
      · exact hclo (Option.some.inj (hso.symm.trans heq))
      · exact hres (Option.some.inj (hso.symm.trans heq))
    · cases hexp
  · split at hexp
    next hst =>
      cases hexp
      exact ends_resending hst hctx
    · cases hexp
  · dsimp only [step, checkSave] at hsp
    split at hsp
    next hst =>
      rw [hst] at hexp
      cases hexp
      exact ends_saving hst hctx hact
    · cases hsp
  next ok =>
    dsimp only [step, storeSave] at hsp
    split at hsp
    next hst =>
      rw [hst] at hexp
      cases hexp
      exact ends_storing hst hctx
    · cases hsp
  next sentAt clock _ =>
    have hret : w.retain sentAt clock = some w' := hsp
    dsimp only [retain] at hret
    split at hret
    next hst =>
      rw [hst] at hexp
      cases hexp
      split at hret
      · cases hret
        exact .after rfl hsp (ends_entering rfl hctx)
      cases hret
      exact .after rfl hsp (ends_fail hctx)
    · cases hret
  · dsimp only [step, enterWrite] at hsp
    split at hsp
    next hst =>
      rw [hst] at hexp
      cases hexp
      exact ends_entering hst hctx
    · cases hsp
  · cases hexp

end

theorem sound_newWriter (config : WriterConfig) (canceled : ContextID → Bool) (snapshot : Snapshot)
    (store : ReliabilityStore) : (newWriter config canceled snapshot store).Sound := by
  refine ⟨fun call hin => ?_, fun group hso => ?_, fun call c hcl => ?_⟩
  · exact absurd hin not_mem_nil
  · cases hso
  · cases hcl

def quiet : WriterLoop :=
  newWriter ⟨4096, fun _ => true, true⟩ (fun _ => false) (.initial ⟨1, 8⟩ 0 0)
    ⟨16, 60, 0, fun _ => ⟨⟨0, 0, 0, [], zeroTime, false⟩, zeroTime, 0, 0⟩, 0, ∅, []⟩

def publish (ctx : ContextID) : WriterRequest := ⟨ctx, .submit (.message (.push [1, 2, 3, 4]))⟩

def preparing : WriterOp := .prepare (fun k => 4 * k) (fun inner _ => some inner.data) 0

/-- A push goes out, its caller is cancelled during the reply, and another caller is next. -/
def steadyRun : List WriterOp :=
  [.request 0 (publish 0), .receive 0, .collected, preparing, .checkSave, .storeSave true,
   .retain 0 (fun _ => 0), .enterWrite, .checkWrite true, .cancel 0, .finishWrite true, .giveUp 0,
   .request 1 (publish 1), .reply, .receive 1]

end WriterLoop

end Tlrpc
