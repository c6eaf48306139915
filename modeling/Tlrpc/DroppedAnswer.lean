import Tlrpc.HandlerReply
import Tlrpc.RequestFlow

namespace Tlrpc

open List WriterStage WriterLoop RunningRequest Function

namespace WriterLoop

variable {w w' : WriterLoop}

def Framed (w : WriterLoop) : Prop :=
  ∀ entry ∈ w.frames, ∀ call ∈ entry.1, ∃ request, w.requestOf call = some request

theorem Framed.step (h : w.Framed) (hsd : w.Sound) {op : WriterOp} (hsp : w.step op = some w') :
    w'.Framed := by
  have hold : ∀ entry ∈ w.frames, ∀ call ∈ entry.1, ∃ request, w'.requestOf call = some request := by
    intro entry hin call hcl
    obtain ⟨request, hreq⟩ := h entry hin call hcl
    exact ⟨request, requestOf_step hsp hreq⟩
  unfold Framed
  rcases (step_keeps hsp).frames with hsm | ⟨job, frame, rest, response, late, hst, hnew⟩
  · rw [hsm]
    exact hold
  rw [hnew]
  intro entry hin call hcl
  rcases mem_append.mp hin with hin | hin
  · exact hold entry hin call hcl
  cases mem_singleton.mp hin
  obtain ⟨c, hc⟩ := hsd.known call (by rw [hst]; exact mem_append_left _ hcl)
  refine ⟨c.request, requestOf_step hsp ?_⟩
  unfold requestOf
  rw [hc]
  rfl

end WriterLoop

variable {stage : WriterStage} {group : List CallID}

theorem WriterStage.job_of_sending
    (h : group ∈ stage.sending) : ∃ job, stage.job = some job ∧ job.group = group := by
  cases stage <;> cases h <;> exact ⟨_, rfl, rfl⟩

theorem WriterStage.job_of_committing
    (h : group ∈ stage.committing) : ∃ job, stage.job = some job ∧ job.group = group := by
  cases stage <;> cases h <;> exact ⟨_, rfl, rfl⟩

namespace RunningRequest

structure Sound (s : RunningRequest) : Prop where
  writer : s.writer.Sound
  grouped : s.writer.Grouped
  framed : s.writer.Framed
  replies : ∀ call ∈ s.replies, ∃ intent,
    s.writer.requestOf call = some ⟨s.ctx, .submit intent⟩ ∧ intent.answers s.id = true

section

variable {s s' : RunningRequest} {group : List CallID} {call : CallID} {op : WriterOp}

theorem answersIn_iff : s.answersIn group = true ↔ ∃ call ∈ group, call ∈ s.replies := by
  unfold answersIn
  rw [any_eq_true]
  simp only [decide_eq_true_eq]

theorem answersIn_congr (hrp : s'.replies = s.replies) (group : List CallID) :
    s'.answersIn group = s.answersIn group := by
  unfold answersIn
  rw [hrp]

theorem Sound.lone (h : s.Sound) {job : WriterJob} (hjob : s.writer.stage.job = some job)
    (hans : s.answersIn job.group = true) : ∃ call ∈ s.replies, job.group = [call] := by
  obtain ⟨call, hin, hrp⟩ := answersIn_iff.mp hans
  refine ⟨call, hrp, ?_⟩
  by_cases hln : 1 < job.group.length
  · -- only pushes share a frame
    obtain ⟨intent, hreq, han⟩ := h.replies call hrp
    obtain ⟨ctx, bodies, hbat⟩ := h.grouped.batches job.group (group_of_job hjob) hln
    obtain ⟨body, hps⟩ := hbat.push hin
    cases hreq.symm.trans hps
    cases han
  · have hlen : job.group.length = 1 :=
      Nat.le_antisymm (Nat.le_of_not_lt hln) (length_pos_of_mem hin)
    obtain ⟨other, hlo⟩ := length_eq_one_iff.mp hlen
    rw [hlo] at hin ⊢
    rw [mem_singleton.mp hin]

theorem Sound.groupCanceled (h : s.Sound) (hrp : call ∈ s.replies) :
    s.writer.groupCanceled [call] = s.writer.canceled s.ctx := by
  obtain ⟨intent, hreq, -⟩ := h.replies call hrp
  show ((s.writer.requestOf call).map (·.ctx)).any s.writer.canceled = _
  rw [hreq]
  rfl

theorem Sound.not_resends (h : s.Sound) (hrp : call ∈ s.replies) : ¬ s.writer.Resends [call] := by
  obtain ⟨intent, hreq, hans⟩ := h.replies call hrp
  rintro (⟨messageIDs, hint⟩ | ⟨request, hhd, hnot⟩)
  · unfold groupIntent at hint
    dsimp only at hint
    rw [hreq] at hint
    cases hint
    cases hans
  · cases hreq.symm.trans (show s.writer.requestOf call = some request from hhd)
    exact hnot intent rfl

theorem Sound.goOn (h : s.Sound) (hst : s.writer.step op = some s'.writer)
    (hrou : s'.routed = s.routed) (hctx : s'.ctx = s.ctx) (hrp : s'.replies = s.replies) : s'.Sound := by
  refine ⟨h.writer.step hst, h.grouped.flow (step_flow hst), h.framed.step h.writer hst, fun call hin => ?_⟩
  rw [hrp] at hin
  obtain ⟨intent, hreq, hans⟩ := h.replies call hin
  refine ⟨intent, ?_, ?_⟩
  · rw [hctx]
    exact requestOf_step hst hreq
  · unfold id
    rw [hrou]
    exact hans

/-- Every frame's answer was stored, and none after a `Drop` reported the request as running. -/
structure Honest (s : RunningRequest) : Prop where
  sound : s.Sound
  sending : ∀ group ∈ s.writer.stage.sending, s.answersIn group = true → s.stored = true
  frames : ∀ entry ∈ s.writer.frames, s.answersIn entry.1 = true → s.stored = true
  silent : s.dropped = true → s.writer.canceled s.ctx = true ∧ s.stored = false ∧
    ∀ group ∈ s.writer.stage.committing, s.answersIn group = false

theorem stores_eq_true (h : s.stores op = true) :
    ∃ group ∈ s.writer.stage.committing, s.answersIn group = true := by
  unfold stores at h
  split at h
  next job prepared hst =>
    refine ⟨job.group, ?_, h⟩
    rw [hst]
    rfl
  · cases h

theorem Honest.goOn (h : s.Honest) (hsp : s.writer.step op = some s'.writer)
    (hsm : s'.routed = s.routed ∧ s'.ctx = s.ctx ∧ s'.replies = s.replies ∧ s'.dropped = s.dropped)
    (hstd : s'.stored = (s.stored || s.stores op)) : s'.Honest := by
  obtain ⟨hrou, hctx, hre, hdro⟩ := hsm
  have hsd := h.sound.goOn hsp hrou hctx hre
  have hadv := step_advance hsp
  have hkp := step_keeps hsp
  have hmr : s.stored = true → s'.stored = true := by
    intro hold
    rw [hstd, hold]
    rfl
  refine ⟨hsd, fun group hin hans => ?_, fun entry hin hans => ?_, fun hdr => ?_⟩
  · obtain ⟨job, hjob, rfl⟩ := job_of_sending hin
    obtain ⟨call, hrp, hln⟩ := hsd.lone hjob hans
    rw [answersIn_congr hre] at hans
    rcases hadv.sending job.group hin with hold | ⟨sentAt, clock, job', prepared, rfl, hst, hgrp⟩ | hres
    · exact hmr (h.sending job.group hold hans)
    · have hsto : s.stores (.retain sentAt clock) = true := by
        unfold stores
        rw [hst]
        dsimp only
        rw [hgrp]
        exact hans
      rw [hstd, hsto, Bool.or_true]
    · rw [hln] at hres
      exact absurd hres (h.sound.not_resends (hre ▸ hrp))
  · rw [answersIn_congr hre] at hans
    rcases hkp.frames with hsm | ⟨job, frame, rest, response, late, hst, hnew⟩
    · exact hmr (h.frames entry (hsm ▸ hin) hans)
    rw [hnew] at hin
    rcases mem_append.mp hin with hin | hin
    · exact hmr (h.frames entry hin hans)
    cases mem_singleton.mp hin
    refine hmr (h.sending job.group ?_ hans)
    rw [hst]
    rfl
  · rw [hdro] at hdr
    obtain ⟨hcn, hno, hcom⟩ := h.silent hdr
    refine ⟨?_, ?_, fun group hin => ?_⟩
    · rw [hctx]
      exact hkp.canceled s.ctx hcn
    · rw [hstd, hno, Bool.false_or]
      refine Bool.eq_false_iff.mpr fun hsto => ?_
      obtain ⟨group, hin, hans⟩ := stores_eq_true hsto
      rw [hcom group hin] at hans
      cases hans
    · rw [answersIn_congr hre]
      rcases hadv.committing group hin with hold | hop
      · exact hcom group hold
      -- `lease.Save` looks at the handler's context, which is cancelled
      refine Bool.eq_false_iff.mpr fun hans => ?_
      obtain ⟨job, hjob, rfl⟩ := job_of_committing hin
      rw [← answersIn_congr hre] at hans
      obtain ⟨call, hrp, hln⟩ := hsd.lone hjob hans
      rw [hln, h.sound.groupCanceled (hre ▸ hrp), hcn] at hop
      cases hop

theorem Honest.congr (h : s.Honest) (hwr : s'.writer = s.writer)
    (hsm : s'.routed = s.routed ∧ s'.ctx = s.ctx ∧ s'.replies = s.replies ∧ s'.dropped = s.dropped)
    (hstd : s'.stored = s.stored) : s'.Honest := by
  obtain ⟨routed, request, ctx, writer, registry, handler, replies, stored, dropping, dropped⟩ := s'
  obtain ⟨hrou, hctx, hrp, hdro⟩ := hsm
  subst hwr hrou hctx hrp hdro hstd
  exact ⟨⟨h.sound.writer, h.sound.grouped, h.sound.framed, h.sound.replies⟩, h.sending, h.frames, h.silent⟩

theorem Honest.fail (h : s.Honest) (canceled : Bool) : (s.fail canceled).Honest := by
  cases canceled with
  | true =>
    refine h.congr ?_ ⟨rfl, rfl, rfl, rfl⟩ rfl
    show { s.writer with active := s.writer.active && true } = s.writer
    rw [Bool.and_true]
  | false =>
    have hst : s.writer.step .endLease = some (s.fail false).writer := by
      show some { s.writer with active := false } = some { s.writer with active := s.writer.active && false }
      rw [Bool.and_false]
    exact h.goOn hst ⟨rfl, rfl, rfl, rfl⟩ (Bool.or_false _).symm

theorem Honest.cancelRequest (h : s.Honest) (request : RequestRef) : (s.cancelRequest request).Honest := by
  by_cases heq : request = s.request
  · have hst : s.writer.step (.cancel s.ctx) = some (s.cancelRequest request).writer := by
      show some _ = some (if request = s.request then _ else _)
      rw [if_pos heq]
    exact h.goOn hst ⟨rfl, rfl, rfl, rfl⟩ (Bool.or_false _).symm
  refine h.congr ?_ ⟨rfl, rfl, rfl, rfl⟩ rfl
  show (if request = s.request then _ else _) = _
  rw [if_neg heq]

theorem Honest.cancelRequests (requests : List RequestRef) :
    ∀ {s : RunningRequest}, s.Honest → (requests.foldl RunningRequest.cancelRequest s).Honest := by
  induction requests with
  | nil => exact fun h => h
  | cons request rest ih => exact fun h => ih (h.cancelRequest request)

theorem canceled_cancelRequest (s : RunningRequest) :
    (s.cancelRequest s.request).writer.canceled s.ctx = true := by
  unfold cancelRequest
  rw [if_pos rfl]
  exact update_self s.ctx true s.writer.canceled

theorem stage_cancelRequest (s : RunningRequest) (request : RequestRef) :
    (s.cancelRequest request).writer.stage = s.writer.stage := by
  unfold cancelRequest
  split <;> rfl

theorem Honest.dropCancel (h : s.Honest) (htim : s.Timely .dropCancel)
    (hst : s.dropCancel = some s') : s'.Honest := by
  obtain ⟨request, hdro, rfl⟩ := Option.map_eq_some_iff.mp hst
  have hcan := h.cancelRequest request
  refine ⟨⟨hcan.sound.writer, hcan.sound.grouped, hcan.sound.framed, hcan.sound.replies⟩,
    hcan.sending, hcan.frames, fun hdr => ?_⟩
  by_cases heq : request = s.request
  · subst heq
    obtain ⟨hno, hcom⟩ := htim hdro
    refine ⟨canceled_cancelRequest s, hno, fun group hin => hcom group ?_⟩
    exact stage_cancelRequest s s.request ▸ hin
  refine hcan.silent ?_
  have hfal : (decide (request = s.request)) = false := decide_eq_false heq
  have hdr : (s.dropped || decide (request = s.request)) = true := hdr
  rw [hfal, Bool.or_false] at hdr
  exact hdr

theorem Sound.fresh (h : s.Sound) (hno : s.writer.calls call = none)
    (hgrp : (∃ job, s.writer.stage.job = some job ∧ job.group = group) ∨
      ∃ entry ∈ s.writer.frames, entry.1 = group) : call ∉ group := by
  intro hin
  rcases hgrp with ⟨job, hjob, rfl⟩ | ⟨entry, hent, rfl⟩
  · obtain ⟨c, hkn⟩ := h.writer.known call (by
      rw [inHand_of_job hjob]
      exact mem_append_left _ hin)
    rw [hno] at hkn
    cases hkn
  · obtain ⟨request, hreq⟩ := h.framed entry hent call hin
    unfold requestOf at hreq
    rw [hno] at hreq
    cases hreq

theorem Honest.reply (h : s.Honest) {intent : Intent}
    (hreq : s.writer.requestOf call = some ⟨s.ctx, .submit intent⟩) (hans : intent.answers s.id = true)
    (hfr : ∀ group, ((∃ job, s.writer.stage.job = some job ∧ job.group = group) ∨
      ∃ entry ∈ s.writer.frames, entry.1 = group) → call ∉ group) :
    ({ s with replies := s.replies ++ [call] } : RunningRequest).Honest := by
  have hsm : ∀ group, ((∃ job, s.writer.stage.job = some job ∧ job.group = group) ∨
      ∃ entry ∈ s.writer.frames, entry.1 = group) →
      ({ s with replies := s.replies ++ [call] } : RunningRequest).answersIn group = s.answersIn group := by
    intro group hgrp
    refine Bool.eq_iff_iff.mpr ?_
    rw [answersIn_iff, answersIn_iff]
    constructor
    · rintro ⟨other, hin, hrp⟩
      rcases mem_append.mp hrp with hrp | hrp
      · exact ⟨other, hin, hrp⟩
      · cases mem_singleton.mp hrp
        exact absurd hin (hfr group hgrp)
    · rintro ⟨other, hin, hrp⟩
      exact ⟨other, hin, mem_append_left _ hrp⟩
  refine ⟨⟨h.sound.writer, h.sound.grouped, h.sound.framed, fun other hin => ?_⟩, fun group hin han => ?_,
    fun entry hin han => ?_, fun hdr => ?_⟩
  · rcases mem_append.mp hin with hin | hin
    · exact h.sound.replies other hin
    · cases mem_singleton.mp hin
      exact ⟨intent, hreq, hans⟩
  · rw [hsm group (.inl (job_of_sending hin))] at han
    exact h.sending group hin han
  · rw [hsm entry.1 (.inr ⟨entry, hin, rfl⟩)] at han
    exact h.frames entry hin han
  · obtain ⟨hcn, hno, hcom⟩ := h.silent hdr
    refine ⟨hcn, hno, fun group hin => ?_⟩
    rw [hsm group (.inl (job_of_committing hin))]
    exact hcom group hin

theorem Honest.submit (h : s.Honest) (hst : s.submit call = some s') : s'.Honest := by
  unfold RunningRequest.submit at hst
  split at hst
  next intent rest _ =>
    obtain ⟨writer, hwr, rfl⟩ := Option.map_eq_some_iff.mp hst
    have hgo : s.writer.step (.request call ⟨s.ctx, .submit intent⟩) = some writer := hwr
    have hon : ({ s with writer := writer, handler := .inSubmit call rest } : RunningRequest).Honest :=
      h.goOn hgo ⟨rfl, rfl, rfl, rfl⟩ (Bool.or_false _).symm
    by_cases hans : intent.answers s.id = true
    · rw [if_pos hans]
      unfold WriterLoop.request at hwr
      split at hwr
      next hno =>
        cases hwr
        refine hon.reply ?_ hans (fun group hgrp => h.sound.fresh hno hgrp)
        show (update s.writer.calls call _ call).map _ = _
        rw [update_self]
        rfl
      · cases hwr
    · rw [if_neg hans]
      exact hon
  · cases hst

theorem Honest.step (h : s.Honest) {op : ReplyOp} (htim : s.Timely op) (hst : s.step op = some s') :
    s'.Honest := by
  cases op with
  | writer op =>
    obtain ⟨writer, hwr, rfl⟩ := Option.map_eq_some_iff.mp hst
    exact h.goOn hwr ⟨rfl, rfl, rfl, rfl⟩ rfl
  | dispatched outcome =>
    dsimp only [RunningRequest.step] at hst
    split at hst
    · split at hst
      · cases hst
        exact h.congr rfl ⟨rfl, rfl, rfl, rfl⟩ rfl
      cases hst
      exact h.fail false
    · cases hst
  | dependencyError timeout =>
    dsimp only [RunningRequest.step] at hst
    split at hst
    · cases hst
      exact h.congr rfl ⟨rfl, rfl, rfl, rfl⟩ rfl
    · cases hst
  | failed canceled =>
    dsimp only [RunningRequest.step] at hst
    split at hst
    · cases hst
      exact h.fail canceled
    · cases hst
  | submit call => exact h.submit hst
  | submitReturned =>
    dsimp only [RunningRequest.step, RunningRequest.submitReturned] at hst
    split at hst
    next call rest _ =>
      split at hst
      · split at hst
        · cases hst
          exact h.congr rfl ⟨rfl, rfl, rfl, rfl⟩ rfl
        cases hst
        exact h.fail _
      · cases hst
    · cases hst
  | applied =>
    dsimp only [RunningRequest.step] at hst
    split at hst
    · cases hst
      exact h.congr rfl ⟨rfl, rfl, rfl, rfl⟩ rfl
    · cases hst
  | endRegistration success =>
    dsimp only [RunningRequest.step] at hst
    split at hst
    · cases hst
      exact h.congr rfl ⟨rfl, rfl, rfl, rfl⟩ rfl
    · cases hst
  | cancelRegistration =>
    dsimp only [RunningRequest.step] at hst
    split at hst
    · cases hst
      exact (h.cancelRequest s.request).congr rfl ⟨rfl, rfl, rfl, rfl⟩ rfl
    · cases hst
  | drop id =>
    dsimp only [RunningRequest.step, RunningRequest.drop] at hst
    split at hst
    · cases hst
      exact h.congr rfl ⟨rfl, rfl, rfl, rfl⟩ rfl
    · cases hst
      exact h
    · cases hst
  | dropCancel => exact h.dropCancel htim hst
  | beginBatch ids =>
    cases hst
    exact h.congr rfl ⟨rfl, rfl, rfl, rfl⟩ rfl
  | endOther request success =>
    dsimp only [RunningRequest.step] at hst
    split at hst
    · cases hst
    cases hst
    exact h.congr rfl ⟨rfl, rfl, rfl, rfl⟩ rfl
  | cancelAll order =>
    dsimp only [RunningRequest.step] at hst
    split at hst
    · cases hst
      refine Honest.cancelRequests _ (h.congr rfl ⟨rfl, rfl, rfl, rfl⟩ rfl)
    · cases hst

theorem Honest.start (routed : RoutedMessage) (request : RequestRef) (ctx : ContextID) (config : WriterConfig)
    (canceled : ContextID → Bool) (snapshot : Snapshot) (store : ReliabilityStore)
    (registry : ActiveRequestRegistry) :
    (start routed request ctx (newWriter config canceled snapshot store) registry).Honest := by
  have hwr := sound_newWriter config canceled snapshot store
  refine ⟨⟨hwr, .of_none rfl, ?_, ?_⟩, ?_, ?_, ?_⟩
  · exact fun _ hin => nomatch hin
  · exact fun _ hin => nomatch hin
  · exact fun _ hin => nomatch hin
  · exact fun _ hin => nomatch hin
  · exact fun hdr => nomatch hdr

theorem exec_retain {job : WriterJob} {prepared : PreparedFrame}
    (hst : s.writer.stage = .retaining job prepared) (hans : s.answersIn job.group = true) :
    ∃ s', exec step s [.writer (.retain 0 (fun _ => 0))] = some s' ∧ s'.stored = true ∧
      s'.dropped = s.dropped := by
  have hsto : s.stores (.retain 0 (fun _ => 0)) = true := by
    unfold stores
    rw [hst]
    exact hans
  have hso : (s.writer.retain 0 (fun _ => 0)).isSome = true := by
    unfold retain
    rw [hst]
    dsimp only
    split <;> rfl
  obtain ⟨writer, hwr⟩ := Option.isSome_iff_exists.mp hso
  have hsp : s.step (.writer (.retain 0 (fun _ => 0))) = some { s with
      writer := writer, stored := s.stored || s.stores (.retain 0 (fun _ => 0)) } :=
    Option.map_eq_some_iff.mpr ⟨writer, hwr, rfl⟩
  refine ⟨_, exec_of_step hsp rfl, ?_, rfl⟩
  rw [hsto, Bool.or_true]

theorem exec_committing (hin : group ∈ s.writer.stage.committing) (hans : s.answersIn group = true) :
    ∃ later s', exec step s later = some s' ∧ s'.stored = true ∧ s'.dropped = s.dropped := by
  cases hst : s.writer.stage with
  | storing job prepared next =>
    rw [hst] at hin
    cases hin
    obtain ⟨mid, hsv, hmid, hrp, hdro⟩ : ∃ mid, s.step (.writer (.storeSave true)) = some mid ∧
        mid.writer.stage = .retaining job prepared ∧ mid.replies = s.replies ∧
        mid.dropped = s.dropped := by
      dsimp only [step, WriterLoop.step, WriterLoop.storeSave]
      rw [hst]
      exact ⟨_, rfl, rfl, rfl, rfl⟩
    obtain ⟨s', hrun, hstd, hsm⟩ := exec_retain hmid ((answersIn_congr hrp _).trans hans)
    exact ⟨_, s', exec_of_step hsv hrun, hstd, hsm.trans hdro⟩
  | retaining job prepared =>
    rw [hst] at hin
    cases hin
    obtain ⟨s', hrun, hstd, hdro⟩ := exec_retain hst hans
    exact ⟨_, s', hrun, hstd, hdro⟩
  | _ =>
    rw [hst] at hin
    cases hin

theorem late_drop (hlt : ¬ s.Timely .dropCancel) : ∃ later s',
    exec step s (.dropCancel :: later) = some s' ∧ s'.dropped = true ∧ s'.stored = true := by
  have hfd : s.dropping = some s.request ∧
      ¬(s.stored = false ∧ ∀ group ∈ s.writer.stage.committing, s.answersIn group = false) :=
    Classical.not_imp.mp hlt
  obtain ⟨hdro, hlt⟩ := hfd
  obtain ⟨mid, hsp, hst, hrp, hstd, hdr⟩ : ∃ mid, s.step .dropCancel = some mid ∧
      mid.writer.stage = s.writer.stage ∧ mid.replies = s.replies ∧ mid.stored = s.stored ∧
      mid.dropped = true := by
    dsimp only [step, dropCancel]
    rw [hdro]
    refine ⟨_, rfl, ?_, rfl, rfl, ?_⟩
    · exact stage_cancelRequest s s.request
    · show (s.dropped || decide (s.request = s.request)) = true
      rw [decide_eq_true rfl, Bool.or_true]
  by_cases hold : s.stored = true
  · exact ⟨[], mid, exec_of_step hsp rfl, hdr, hstd.trans hold⟩
  have hcom : ∃ group ∈ s.writer.stage.committing, s.answersIn group = true := by
    by_contra hno
    refine hlt ⟨Bool.eq_false_iff.mpr hold, fun group hin => Bool.eq_false_iff.mpr fun hans => ?_⟩
    exact hno ⟨group, hin, hans⟩
  obtain ⟨group, hin, hans⟩ := hcom
  obtain ⟨later, s', hrun, hstd', hsm⟩ :=
    exec_committing (hst ▸ hin) ((answersIn_congr hrp group).trans hans)
  exact ⟨later, s', exec_of_step hsp hrun, hsm.trans hdr, hstd'⟩

end

/-- If each `Drop` comes before `lease.Save` has looked at the context for an answer, a request
reported as running is never answered. A later `Drop` can leave an answer in the store. -/
theorem dropped_answer_not_written (routed : RoutedMessage) (request : RequestRef) (ctx : ContextID)
    (config : WriterConfig) (canceled : ContextID → Bool) (snapshot : Snapshot) (store : ReliabilityStore)
    (registry : ActiveRequestRegistry) : (∀ ops s,
      Meets step Timely (start routed request ctx (newWriter config canceled snapshot store) registry) ops →
      exec step (start routed request ctx (newWriter config canceled snapshot store) registry) ops = some s →
      s.dropped = true → s.stored = false ∧ ∀ entry ∈ s.writer.frames, s.answersIn entry.1 = false) ∧
    (∀ s, ¬ s.Timely .dropCancel → ∃ later s', exec step s (.dropCancel :: later) = some s' ∧
      s'.dropped = true ∧ s'.stored = true) := by
  constructor
  · intro ops s hmt hrun hdro
    have hhon : s.Honest := by
      apply exec_invariant ?_ ?_ hmt hrun
      · exact fun _ _ _ hhon htim hst => hhon.step htim hst
      · exact .start routed request ctx config canceled snapshot store registry
    obtain ⟨-, hno, -⟩ := hhon.silent hdro
    refine ⟨hno, fun entry hin => Bool.eq_false_iff.mpr fun hans => ?_⟩
    rw [hhon.frames entry hin hans] at hno
    cases hno
  · exact fun s hlt => late_drop hlt

def answering : RunningRequest :=
  start plainRequest 0 0 WriterLoop.quiet
    (ActiveRequestRegistry.beginBatch
      ⟨4, ∅, fun _ => none, [], 0, fun _ => ⟨0, false, false, .fresh⟩, 0, []⟩ [4]).2

def handlerAnswers : List ReplyOp :=
  [.dispatched ⟨[.message (.rpcResult 4 [1, 2, 3, 4])], [], none⟩, .submit 0, .writer (.receive 0),
   .writer WriterLoop.preparing]

theorem dropped_answer_not_written_preparing :
    Meets step Timely answering (handlerAnswers ++ [.drop 4, .dropCancel, .writer .checkSave, .writer .reply]) ∧
    ∃ s, exec step answering
        (handlerAnswers ++ [.drop 4, .dropCancel, .writer .checkSave, .writer .reply]) = some s ∧
      s.dropped = true ∧ s.replies = [0] ∧ s.stored = false ∧
      ∀ entry ∈ s.writer.frames, s.answersIn entry.1 = false := by
  have htim : Meets step Timely answering
      (handlerAnswers ++ [.drop 4, .dropCancel, .writer .checkSave, .writer .reply]) := by
    decide +kernel
  have hvl : (exec step answering
      (handlerAnswers ++ [.drop 4, .dropCancel, .writer .checkSave, .writer .reply])).map (fun s =>
        (s.dropped, s.replies)) = some (true, [0]) := by
    decide +kernel
  obtain ⟨s, hrun, hvl⟩ := Option.map_eq_some_iff.mp hvl
  obtain ⟨hdro, hrp⟩ := Prod.mk.injEq _ _ _ _ ▸ hvl
  have hsil := (dropped_answer_not_written plainRequest 0 0 _ _ _ _ _).1 _ s htim hrun hdro
  exact ⟨htim, s, hrun, hdro, hrp, hsil⟩

/-- The request stays registered until its answer is written, so that a `Drop` reports it as
running. -/
theorem answered_request_dropped : ∃ s, exec step answering
      (handlerAnswers ++ [.writer .checkSave, .writer (.storeSave true),
        .writer (.retain 0 (fun _ => 0)), .writer .enterWrite, .writer (.checkWrite true),
        .writer (.finishWrite true), .drop 4, .dropCancel]) = some s ∧
    s.dropped = true ∧ s.replies = [0] ∧ s.writer.frames.map Prod.fst = [[0]] ∧ s.answersIn [0] = true := by
  have hvl : (exec step answering (handlerAnswers ++ [.writer .checkSave, .writer (.storeSave true),
        .writer (.retain 0 (fun _ => 0)), .writer .enterWrite, .writer (.checkWrite true),
        .writer (.finishWrite true), .drop 4, .dropCancel])).map (fun s =>
        (s.dropped, s.replies, s.writer.frames.map Prod.fst, s.answersIn [0])) =
      some (true, [0], [[0]], true) := by
    decide +kernel
  obtain ⟨s, hrun, hvl⟩ := Option.map_eq_some_iff.mp hvl
  simp only [Prod.mk.injEq] at hvl
  exact ⟨s, hrun, hvl⟩

end RunningRequest

end Tlrpc
