import Tlrpc.BatchNumbering
import Tlrpc.WriterProgress

namespace Tlrpc

open List Option WriterLoop

def BatchingOp.own : BatchingOp → Bool
  | .loop op => op.own
  | _ => true

namespace BatchingWriter

variable {s s' : BatchingWriter} {op : BatchingOp} {w : WriterLoop} {ops : List BatchingOp}

theorem step_flow (h : s.step op = some s') : ∃ taken answered,
    s.loop.Flow taken answered s'.loop ∧ s'.received = s.received ++ taken ∧
      s'.replied = s.replied ++ answered := by
  cases op with
  | loop op =>
    have hst : s.stepLoop op = some s' := by
      cases op with
      | prepare => cases h
      | _ => exact h
    obtain ⟨loop, hlp, rfl⟩ := map_eq_some_iff.mp hst
    exact ⟨_, _, step_flow hlp, rfl, rfl⟩
  | prepare clock encrypt now =>
    obtain ⟨job, intent, taken, _, _, hlp, _, heq⟩ := prepare_spec h
    refine ⟨[], [], .of_worked (worked_prepare hlp), ?_, ?_⟩
    · rw [heq, append_nil]
    · rw [heq, append_nil]
  | breakDown err =>
    obtain ⟨loop, hlp, rfl⟩ := map_eq_some_iff.mp h
    exact ⟨[], [], flow_breakDown hlp, (append_nil _).symm, (append_nil _).symm⟩
  | stop =>
    obtain ⟨loop, hlp, rfl⟩ := map_eq_some_iff.mp h
    exact ⟨[], [], flow_stop hlp, (append_nil _).symm, (append_nil _).symm⟩

/-- What was received is, in order, replied to, in hand, or one request that a stop lost. -/
structure Ordered (s : BatchingWriter) : Prop where
  order : ∃ lost, s.received = s.replied.flatten ++ (s.loop.stage.inHand ++ lost) ∧
    lost.length ≤ 1 ∧ (lost ≠ [] → s.loop.isStopped = true)
  nodup : s.received.Nodup
  handed : ∀ call ∈ s.received, ∃ c, s.loop.calls call = some c ∧ c.stage ≠ .offering
  grouped : s.loop.Grouped
  batches : ∀ group ∈ s.replied, 1 < group.length → ∃ ctx bodies, s.loop.Batch group ctx bodies

theorem exists_stopped (h : w.isStopped = true) : ∃ ending, w.stage = .stopped ending := by
  unfold isStopped at h
  split at h
  next ending hst => exact ⟨ending, hst⟩
  · cases h

theorem Ordered.step_order (h : s.Ordered) {taken : List CallID} {answered : List (List CallID)}
    (hfl : s.loop.Flow taken answered w) :
    ∃ lost, s.received ++ taken = (s.replied ++ answered).flatten ++ (w.stage.inHand ++ lost) ∧
      lost.length ≤ 1 ∧ (lost ≠ [] → w.isStopped = true) := by
  obtain ⟨lost, hrec, hlen, hsp⟩ := h.order
  by_cases hls : lost = []
  · obtain ⟨lost', hord, hlen', hst'⟩ := hfl.order
    refine ⟨lost', ?_, hlen', hst'⟩
    rw [hrec, hls, append_nil, append_assoc, hord, flatten_append, append_assoc]
  obtain ⟨ending, hst⟩ := exists_stopped (hsp hls)
  obtain ⟨rfl, rfl, hsm⟩ := hfl.of_stopped hst
  refine ⟨lost, ?_, hlen, fun _ => ?_⟩
  · rw [append_nil, append_nil, hsm]
    exact hrec
  · unfold isStopped
    rw [hsm, hst]

theorem Ordered.step (h : s.Ordered) (hst : s.step op = some s') : s'.Ordered := by
  obtain ⟨taken, answered, hfl, hrec, hrep⟩ := step_flow hst
  obtain ⟨hkp, hcfg⟩ := hfl.kept
  refine ⟨?_, ?_, ?_, h.grouped.flow hfl, ?_⟩
  · rw [hrec, hrep]
    exact h.step_order hfl
  · rw [hrec]
    rcases hfl.takes with rfl | ⟨call, c, rfl, hcl, hoff, _⟩
    · rw [append_nil]
      exact h.nodup
    refine nodup_append.mpr ⟨h.nodup, nodup_singleton call, fun x hx y hy heq => ?_⟩
    rw [heq, mem_singleton.mp hy] at hx
    obtain ⟨c', hc', hne⟩ := h.handed call hx
    cases hcl.symm.trans hc'
    exact hne hoff
  · intro call hin
    rw [hrec] at hin
    rcases mem_append.mp hin with hin | hin
    · obtain ⟨c, hc, hne⟩ := h.handed call hin
      exact hkp.handed call c hc hne
    rcases hfl.takes with rfl | ⟨other, c, rfl, _, _, haft⟩
    · cases hin
    · rw [mem_singleton.mp hin]
      exact haft
  · intro group hin hln
    rw [hrep] at hin
    have hbef : ∃ ctx bodies, s.loop.Batch group ctx bodies := by
      rcases mem_append.mp hin with hin | hin
      · exact h.batches group hin hln
      · exact h.grouped.batches group (hfl.answers hin) hln
    obtain ⟨ctx, bodies, hbat⟩ := hbef
    exact ⟨ctx, bodies, hbat.kept hkp hcfg⟩

theorem ordered_start (config : WriterConfig) (canceled : ContextID → Bool) (snapshot : Snapshot)
    (store : ReliabilityStore) (generator : MsgIDGenerator) :
    (start config canceled snapshot store generator).Ordered :=
  ⟨⟨[], rfl, Nat.zero_le 1, fun hne => absurd rfl hne⟩, nodup_nil,
    fun _ hin => absurd hin not_mem_nil, .of_none rfl, fun _ hin => absurd hin not_mem_nil⟩

theorem step_progress (hown : op.own = true) (h : s.step op = some s') :
    s'.loop.work < s.loop.work ∨ s'.loop.isStopped = true ∨ s.replied.length < s'.replied.length := by
  cases op with
  | loop op =>
    have hstp : s.stepLoop op = some s' := by
      cases op with
      | prepare => cases h
      | _ => exact h
    obtain ⟨loop, hlp, rfl⟩ := map_eq_some_iff.mp hstp
    by_cases hrp : op = .reply
    · subst hrp
      refine .inr (.inr ?_)
      have hst : s.loop.stage.job ≠ none := by
        intro hno
        dsimp only [WriterLoop.step, WriterLoop.reply] at hlp
        split at hlp
        next hst =>
          rw [hst] at hno
          cases hno
        · cases hlp
      obtain ⟨job, hjob⟩ := ne_none_iff_exists'.mp hst
      unfold answers
      rw [hjob, length_append]
      exact Nat.lt_succ_self _
    · rcases work_step hown hrp hlp with hls | hsp
      · exact .inl hls
      · exact .inr (.inl hsp)
  | prepare clock encrypt now =>
    obtain ⟨_, _, _, _, _, hlp, _⟩ := prepare_spec h
    exact .inl (work_prepareGroup hlp)
  | breakDown err =>
    obtain ⟨loop, hlp, rfl⟩ := map_eq_some_iff.mp h
    exact .inl (work_breakDown hlp)
  | stop =>
    obtain ⟨loop, hlp, rfl⟩ := map_eq_some_iff.mp h
    refine .inr (.inl ?_)
    unfold stop at hlp
    split at hlp
    · cases hlp
      rfl
    · cases hlp

theorem stopped_run {ending : WriterEnding}
    (hst : s.loop.stage = .stopped ending) (h : exec step s ops = some s') :
    s'.loop.stage = .stopped ending := by
  have hsty : ∀ (u : BatchingWriter) (op : BatchingOp) (u' : BatchingWriter),
      u.loop.stage = .stopped ending → u.step op = some u' → u'.loop.stage = .stopped ending := by
    intro u op u' hu hsp
    obtain ⟨_, _, hfl, _⟩ := step_flow hsp
    exact (hfl.of_stopped hu).2.2.trans hu
  exact exec_inductive hsty hst h

/-- The writer cannot go on for long without a reply. -/
theorem run_progress (hown : ∀ op ∈ ops, op.own = true) (h : exec step s ops = some s') :
    s'.loop.work + ops.length ≤ s.loop.work ∧ s'.replied.length = s.replied.length ∨
      s'.loop.isStopped = true ∨ s.replied.length < s'.replied.length := by
  induction ops generalizing s with
  | nil =>
    cases h
    exact .inl ⟨Nat.le_refl _, rfl⟩
  | cons op rest ih =>
    obtain ⟨mid, hstp, hrs⟩ := exec_cons h
    obtain ⟨taken, answered, hfl, _, hrep⟩ := step_flow hstp
    have hgro : s.replied.length ≤ mid.replied.length := by
      rw [hrep, length_append]
      omega
    have hlat := ih (fun other hin => hown other (mem_cons_of_mem _ hin)) hrs
    rw [length_cons]
    rcases step_progress (hown op mem_cons_self) hstp with hls | hsp | hrp
    · rcases hlat with ⟨hwk, hlen⟩ | hsp | hrp
      · by_cases hsm : s.replied.length < mid.replied.length
        · exact .inr (.inr (by omega))
        · exact .inl ⟨by omega, by omega⟩
      · exact .inr (.inl hsp)
      · exact .inr (.inr (by omega))
    · refine .inr (.inl ?_)
      obtain ⟨ending, hst⟩ := exists_stopped hsp
      unfold isStopped
      rw [stopped_run hst hrs]
    · rcases hlat with ⟨_, hlen⟩ | hsp | hlat
      · exact .inr (.inr (by omega))
      · exact .inr (.inl hsp)
      · exact .inr (.inr (by omega))

theorem prepare_enabled {job : WriterJob} {intent : Intent} (hst : s.loop.stage = .processing job)
    (hint : s.loop.groupIntent job.group = some intent) (clock : Nat → ClockReading)
    (encrypt : InnerData → KeyID → Option (List UInt8)) (now : Time) :
    ∃ s', s.prepare clock encrypt now = some s' := by
  obtain ⟨w, hw, _⟩ := prepareGroup_enabled hst hint (s.generator.ids clock) encrypt now
  have hjob : (s.loop.stage.job.bind fun job => s.loop.groupIntent job.group) = some intent := by
    rw [hst]
    exact hint
  unfold BatchingWriter.prepare
  rw [hjob]
  dsimp only
  rw [hw]
  exact ⟨_, rfl⟩

theorem Ordered.enabled (h : s.Ordered) (hhn : s.loop.stage.inHand ≠ []) :
    ∃ op s', op.own = true ∧ (∀ err, op ≠ .breakDown err) ∧ op ≠ .stop ∧ s.step op = some s' := by
  have hgoes : ∀ {op : WriterOp} {w : WriterLoop}, op.own = true →
      (∀ ids encrypt now, op ≠ .prepare ids encrypt now) → s.loop.step op = some w →
      ∃ op s', op.own = true ∧ (∀ err, op ≠ .breakDown err) ∧ op ≠ .stop ∧ s.step op = some s' := by
    intro op w hown hprepare hsp
    refine ⟨.loop op, { s with
      loop := w
      received := s.received ++ op.takes
      replied := s.replied ++ s.loop.answers op }, hown, (fun _ => BatchingOp.noConfusion),
      BatchingOp.noConfusion, ?_⟩
    have hlp : s.step (.loop op) = s.stepLoop op := by
      cases op with
      | prepare ids encrypt now => exact absurd rfl (hprepare ids encrypt now)
      | _ => rfl
    rw [hlp, stepLoop, hsp]
    rfl
  have hkn : ∀ call ∈ s.loop.stage.inHand, ∃ request, s.loop.requestOf call = some request := by
    intro call hin
    obtain ⟨lost, hrec, -⟩ := h.order
    obtain ⟨c, hc, _⟩ := h.handed call (by
      rw [hrec]
      exact mem_append_right _ (mem_append_left _ hin))
    exact ⟨c.request, by rw [requestOf, hc]; rfl⟩
  by_cases hpr : ∃ job, s.loop.stage = .processing job
  · obtain ⟨job, hst⟩ := hpr
    cases hint : s.loop.groupIntent job.group with
    | some intent =>
      obtain ⟨s', hs'⟩ :=
        prepare_enabled hst hint (fun _ => ⟨0, 0, by decide⟩) (fun _ _ => none) 0
      exact ⟨.prepare _ _ _, s', rfl, (fun _ => BatchingOp.noConfusion), BatchingOp.noConfusion, hs'⟩
    | none =>
      obtain ⟨call, hgrp, hother⟩ := groupIntent_eq_none hint
      obtain ⟨request, hreq⟩ := hkn call (by
        rw [hst]
        show call ∈ job.group ++ _
        rw [hgrp]
        exact mem_cons_self)
      have hhd : job.group.head?.bind s.loop.requestOf = some request := by
        rw [hgrp]
        exact hreq
      obtain ⟨w, hw, _⟩ := control_enabled hst hhd (hother _ hreq) (fun _ => 0)
        ⟨id, fun _ => .refl _⟩
      have hsp : s.loop.step (.control (fun _ => 0) ⟨id, fun _ => .refl _⟩) = some w := hw
      exact hgoes rfl (fun _ _ _ => WriterOp.noConfusion) hsp
  · cases hst : s.loop.stage with
    | selecting pending =>
      cases pending with
      | none =>
        rw [hst] at hhn
        exact absurd rfl hhn
      | some call =>
        obtain ⟨request, hreq⟩ := hkn call (by rw [hst]; exact mem_singleton_self call)
        have hres : ∃ w, s.loop.step .resume = some w := by
          simp only [WriterLoop.step, WriterLoop.resume, hst, hreq, map_some]
          split
          · exact ⟨_, rfl⟩
          · exact ⟨_, rfl⟩
        obtain ⟨w, hw⟩ := hres
        exact hgoes rfl (fun _ _ _ => WriterOp.noConfusion) hw
    | collecting group encodedBytes =>
      have hcol : s.loop.step .collected = some { s.loop with stage := .processing ⟨group, none⟩ } := by
        simp only [WriterLoop.step, WriterLoop.collected, hst]
      exact hgoes rfl (fun _ _ _ => WriterOp.noConfusion) hcol
    | replying job response ending =>
      have hrp : ∃ w, s.loop.step .reply = some w := by
        simp only [WriterLoop.step, WriterLoop.reply, hst]
        split
        · exact ⟨_, rfl⟩
        · exact ⟨_, rfl⟩
      obtain ⟨w, hw⟩ := hrp
      exact hgoes rfl (fun _ _ _ => WriterOp.noConfusion) hw
    | stopped ending =>
      rw [hst] at hhn
      exact absurd rfl hhn
    | processing job => exact absurd ⟨job, hst⟩ hpr
    | _ =>
      obtain ⟨op, w, hown, hsp, _⟩ := WriterLoop.advances (by rw [hst]; rfl)
        (fun job heq => hpr ⟨job, heq⟩) (fun job response ending heq => by
          rw [hst] at heq
          cases heq)
      refine hgoes hown (fun ids encrypt now heq => ?_) hsp
      rw [heq] at hsp
      have hno : s.loop.prepareGroup ids encrypt now = some w := hsp
      unfold prepareGroup at hno
      split at hno
      next job hjob => exact hpr ⟨job, hjob⟩
      · cases hno

theorem groupIntent_batch {group : List CallID} {ctx : ContextID}
    {bodies : List (List UInt8)} (h : w.Batch group ctx bodies) (hln : 1 < group.length) :
    w.groupIntent group = some (.batch (bodies.map .push)) := by
  have hite : group.filterMap (fun call =>
      ((w.requestOf call).bind pushRequest).map MessageIntent.push) = bodies.map .push := by
    have hmap : (group.map w.requestOf).filterMap (fun request =>
        (request.bind pushRequest).map MessageIntent.push) = bodies.map .push := by
      rw [h.requests, filterMap_map]
      exact congrFun (filterMap_eq_map (f := MessageIntent.push)) bodies
    rw [filterMap_map] at hmap
    exact hmap
  unfold groupIntent
  split
  · exact absurd hln (Nat.lt_irrefl 1)
  · rw [hite]

theorem prepare_saving {clock : Nat → ClockReading}
    {encrypt : InnerData → KeyID → Option (List UInt8)} {now : Time} {job : WriterJob}
    {prepared : PreparedFrame} {next : Snapshot} (h : s.prepare clock encrypt now = some s')
    (hsav : s'.loop.stage = .saving job prepared next) : ∃ numbering,
      s'.numberings = s.numberings ++ [numbering] ∧
        numbering.ids.map Prod.fst = prepared.messages.map (·.messageID) := by
  obtain ⟨job', intent, taken, hst, hint, hlp, htk, heq⟩ := prepare_spec h
  refine ⟨⟨intent, taken⟩, by rw [heq], ?_⟩
  unfold prepareGroup at hlp
  rw [hst] at hlp
  dsimp only at hlp
  rw [hint] at hlp
  split at hlp
  next hno => cases hno
  · rw [← Option.some.inj hlp] at hsav
    cases hsav
  · rw [← Option.some.inj hlp] at hsav
    cases hsav
  rename_i hsm
  cases hsm
  split at hlp
  · rw [← Option.some.inj hlp] at hsav
    cases hsav
  rename_i hact
  split at hlp
  · rw [← Option.some.inj hlp] at hsav
    cases hsav
  rename_i prepared' next' hpre
  rw [← Option.some.inj hlp] at hsav
  cases hsav
  rcases htk with ⟨_, hina⟩ | ⟨_, rfl⟩
  · exact absurd hina hact
  · exact numbers_prepare hpre

theorem config_run {config : WriterConfig} (hcfg : s.loop.config = config)
    (h : exec step s ops = some s') : s'.loop.config = config := by
  have hsty : ∀ (u : BatchingWriter) (op : BatchingOp) (u' : BatchingWriter),
      u.loop.config = config → u.step op = some u' → u'.loop.config = config := by
    intro u op u' hu hst
    obtain ⟨_, _, hfl, _⟩ := step_flow hst
    exact hfl.kept.2.trans hu
  exact exec_inductive hsty hcfg h

def batchedPushes : List BatchingOp :=
  let push (ctx : ContextID) (body : List UInt8) : WriterRequest :=
    ⟨ctx, .submit (.message (.push body))⟩
  let clock : Nat → ClockReading := fun _ => ⟨1700000000, 5, by decide⟩
  [.loop (.request 0 (push 0 [1, 2, 3, 4])), .loop (.request 1 (push 0 [5, 6, 7, 8])),
    .loop (.request 2 (push 1 [9, 10, 11, 12])), .loop (.receive 0), .loop (.collect 1),
    .loop (.collect 2), .prepare clock (fun inner _ => some inner.data) 0, .loop .checkSave,
    .loop (.storeSave true), .loop (.retain 0 fun _ => 0), .loop .enterWrite,
    .loop (.checkWrite true), .loop (.finishWrite true), .loop .reply, .loop .resume]

def batchingStart (generator : MsgIDGenerator) : BatchingWriter :=
  start ⟨64, fun _ => true, true⟩ (fun _ => false) (.initial ⟨1, 8⟩ 0 0)
    ⟨16, 60, 0, fun _ => ⟨⟨0, 0, 0, [], zeroTime, false⟩, zeroTime, 0, 0⟩, 0, ∅, []⟩ generator

end BatchingWriter

end Tlrpc
