import Tlrpc.LeasedSession
import Tlrpc.InboundAcceptance

namespace Tlrpc

open Option SnapshotUpdate

namespace SessionState

structure Consistent (s : SessionState) : Prop where
  reader : ∀ loaded out, s.reader = .validated loaded out → AcceptedFrom loaded out
  writer : ∀ loaded next, s.writer = .prepared loaded next → SnapshotUpdate .outbound loaded next
  outcome : ∀ byReader job loaded next, s.outcome = some ⟨byReader, job, .loaded loaded next⟩ →
    applySessionMutations loaded job.mutations = some next

theorem acquired_consistent (snapshot : Snapshot) (validator : SessionValidator) :
    (acquired snapshot validator).Consistent :=
  ⟨(by intro _ _ h; cases h), (by intro _ _ h; cases h), (by intro _ _ _ _ h; cases h)⟩

theorem load_eq_some {s : SessionState} {snapshot : Snapshot} (h : s.load = some snapshot) :
    snapshot = s.snapshot := by
  unfold load at h
  split at h
  · cases h
    rfl
  · cases h

theorem save_eq_some {s s' : SessionState} {next : Snapshot} (h : s.save next = some s') :
    s' = { s with snapshot := next } := by
  unfold save at h
  split at h
  · cases h
    rfl
  · cases h

end SessionState

theorem nextSequenceNo_frame (snapshot : Snapshot) (contentRelated : Bool) :
    ∃ n, (nextSequenceNo snapshot contentRelated).2 = { snapshot with serverSeqNo := n } := by
  unfold nextSequenceNo
  split <;> exact ⟨_, rfl⟩

variable {maxBytes : Nat} {next snapshot : Snapshot}

theorem assignMessage_frame {source : Int} {intent : MessageIntent} {assigned : AssignedMessage}
    (h : assignMessage maxBytes source snapshot intent = some (assigned, next)) :
    ∃ n, next = { snapshot with serverSeqNo := n } := by
  obtain ⟨encoded, _, heq⟩ := bind_eq_some_iff.mp h
  cases heq
  exact nextSequenceNo_frame snapshot encoded.contentRelated

variable {assigned : List AssignedMessage} {env : WriterEnv} {intent : Intent}
  {owner : SnapshotUser} {view : Snapshot → W}

theorem assignMessages_cons {ids : Nat → Int} {intent : MessageIntent} {rest : List MessageIntent}
    (h : assignMessages maxBytes ids snapshot (intent :: rest) = some (assigned, next)) :
    ∃ first mid others, assignMessage maxBytes (ids 0) snapshot intent = some (first, mid) ∧
      assignMessages maxBytes (fun k => ids (k + 1)) mid rest = some (others, next) ∧
      assigned = first :: others := by
  obtain ⟨⟨first, mid⟩, hfst, h⟩ := bind_eq_some_iff.mp h
  obtain ⟨⟨others, last⟩, hoth, h⟩ := bind_eq_some_iff.mp h
  cases h
  exact ⟨first, mid, others, hfst, hoth, rfl⟩

theorem assignMessages_frame {ids : Nat → Int} {items : List MessageIntent}
    (h : assignMessages maxBytes ids snapshot items = some (assigned, next)) :
    ∃ n, next = { snapshot with serverSeqNo := n } := by
  induction items generalizing ids snapshot assigned with
  | nil =>
    cases h
    exact ⟨_, rfl⟩
  | cons intent rest ih =>
    obtain ⟨first, mid, others, hfst, hoth, rfl⟩ := assignMessages_cons h
    obtain ⟨n, hn⟩ := assignMessage_frame hfst
    obtain ⟨n', hn'⟩ := ih hoth
    exact ⟨n', by rw [hn', hn]⟩

theorem assignFrame_cases {children : List AssignedMessage} {outer : AssignedMessage}
    (h : assignFrame env snapshot intent = some (children, outer, next)) :
    (∃ m, intent = .message m ∧ children = [] ∧
      assignMessage env.maxEncodedBytes (env.ids 0) snapshot m = some (outer, next)) ∨
    ∃ items, intent = .batch items ∧ items.length ≤ defaultMaxVectorElements ∧
      assignMessages env.maxEncodedBytes env.ids snapshot items = some (children, next) ∧
      outer.messageID = nextMessageID (env.ids items.length) false ∧ outer.requestMessageID = 0 ∧
      outer.sequenceNo = next.serverSeqNo * 2 ∧ outer.contentRelated = false := by
  cases intent with
  | message m =>
    obtain ⟨⟨assigned, after⟩, hm, h⟩ := bind_eq_some_iff.mp h
    cases h
    exact Or.inl ⟨m, rfl, rfl, hm⟩
  | batch items =>
    rw [assignFrame] at h
    split at h
    · cases h
    rename_i hlen
    obtain ⟨⟨assigned, after⟩, hm, h⟩ := bind_eq_some_iff.mp h
    obtain ⟨body, _, h⟩ := bind_eq_some_iff.mp h
    cases h
    exact Or.inr ⟨items, rfl, by omega, hm, rfl, rfl, rfl, rfl⟩
  | resend ids => cases h
  | close => cases h

theorem prepare_update {prepared : PreparedFrame} (h : prepare env snapshot intent = some (prepared, next)) :
    SnapshotUpdate .outbound snapshot next := by
  obtain ⟨⟨children, outer, after⟩, hfrm, h⟩ := bind_eq_some_iff.mp h
  obtain ⟨frame, _, h⟩ := bind_eq_some_iff.mp h
  cases h
  have haft : ∃ n, after = { snapshot with serverSeqNo := n } := by
    rcases assignFrame_cases hfrm with ⟨m, _, _, hm⟩ | ⟨items, _, _, hm, _⟩
    · exact assignMessage_frame hm
    · exact assignMessages_frame hm
  obtain ⟨n, rfl⟩ := haft
  exact outbound snapshot n env.now

namespace SessionState

theorem cell_eq {s : SessionState} {c : SharedCell SnapshotUser Snapshot}
    (value : s.snapshot = c.value) (inbound : s.held .inbound = c.held .inbound)
    (outbound : s.held .outbound = c.held .outbound) (outcome : s.held .outcome = c.held .outcome) :
    s.cell = c := by
  obtain ⟨v, held⟩ := c
  unfold cell
  congr
  funext user
  cases user
  · exact inbound
  · exact outbound
  · exact outcome

def Access (s : SessionState) (label : Option (SnapshotUser × Snapshot)) (s' : SessionState) : Prop :=
  s'.Consistent ∧ SharedCell.Step SnapshotUpdate s.cell label s'.cell

section Accesses

variable {s s' : SessionState}

section

variable (wf : s.Consistent)
include wf

theorem idleReader_access : s.Access none { s with reader := .idle } := by
  refine ⟨⟨(by intro _ _ h; cases h), wf.writer, wf.outcome⟩, ?_⟩
  have hcl : cell { s with reader := .idle } = s.cell.drop .inbound := cell_eq rfl rfl rfl rfl
  rw [hcl]
  exact SharedCell.Step.drop _

theorem stopWriter_access : s.Access none s.stopWriter := by
  refine ⟨⟨wf.reader, (by intro _ _ h; cases h), wf.outcome⟩, ?_⟩
  have hcl : s.stopWriter.cell = s.cell.drop .outbound := cell_eq rfl rfl rfl rfl
  rw [hcl]
  exact SharedCell.Step.drop _

theorem lockedOutcome_access (byReader : Bool) (job : OutcomeJob) :
    s.Access none { s with outcome := some ⟨byReader, job, .locked⟩ } := by
  refine ⟨⟨wf.reader, wf.writer, (by intro _ _ _ _ h; cases h)⟩, ?_⟩
  have hcl : cell { s with outcome := some ⟨byReader, job, .locked⟩ } = s.cell.drop .outcome :=
    cell_eq rfl rfl rfl rfl
  rw [hcl]
  exact SharedCell.Step.drop _

theorem finishedOutcome_access (byReader : Bool) (job : OutcomeJob) :
    s.Access none { s with outcome := some ⟨byReader, job, .finished⟩ } := by
  refine ⟨⟨wf.reader, wf.writer, (by intro _ _ _ _ h; cases h)⟩, ?_⟩
  have hcl : cell { s with outcome := some ⟨byReader, job, .finished⟩ } = s.cell.drop .outcome :=
    cell_eq rfl rfl rfl rfl
  rw [hcl]
  exact SharedCell.Step.drop _

theorem readFrame_access {frame : Frame} (h : s.readFrame frame = some s') : s.Access none s' := by
  unfold readFrame at h
  split at h
  · split at h
    · cases h
      exact ⟨wf, SharedCell.Step.stay⟩
    next =>
    split at h
    · cases h
      exact ⟨wf, SharedCell.Step.stay⟩
    next snapshot hld =>
    split at h
    · cases h
    · cases h
      exact ⟨⟨wf.reader, wf.writer, wf.outcome⟩, SharedCell.Step.stay⟩
    rename_i validator out hval
    cases h
    have hsn := load_eq_some hld
    subst hsn
    refine ⟨⟨?_, wf.writer, wf.outcome⟩, ?_⟩
    · intro loaded out' heq
      cases heq
      exact SessionValidator.validate_ok hval
    · have hcl : cell { s with validator := validator, reader := .validated s.snapshot out } =
          s.cell.load .inbound := cell_eq rfl rfl rfl rfl
      rw [hcl]
      exact SharedCell.Step.load _
  · cases h

end

theorem acceptFrame_cases (h : s.acceptFrame = some s') :
    ∃ loaded out, s.reader = .validated loaded out ∧ s.held .inbound = some loaded ∧
      s' = { s with snapshot := out.snapshot, reader := .routing
                    accepted := s.accepted ++ out.recordedIDs } := by
  unfold acceptFrame at h
  split at h
  next loaded out hrd =>
    obtain ⟨saved, hsv, rfl⟩ := map_eq_some_iff.mp h
    have hsav := save_eq_some hsv
    subst hsav
    exact ⟨loaded, out, hrd, by simp only [held, hrd], rfl⟩
  · cases h

theorem acceptFrame_access (wf : s.Consistent) (h : s.acceptFrame = some s') :
    s.Access (s.saving .acceptFrame) s' := by
  obtain ⟨loaded, out, hrd, hhl, rfl⟩ := acceptFrame_cases h
  refine ⟨⟨(by intro _ _ heq; cases heq), wf.writer, wf.outcome⟩, ?_⟩
  obtain ⟨v, v', now, message, _, _, hsn, _⟩ := wf.reader loaded out hrd
  have hcl : cell { s with
        snapshot := out.snapshot
        reader := .routing
        accepted := s.accepted ++ out.recordedIDs } =
      s.cell.store .inbound out.snapshot := cell_eq rfl rfl rfl rfl
  have hlab : s.saving .acceptFrame = some (.inbound, loaded) := by
    simp only [saving, hhl, map_some]
  rw [hcl, hlab]
  refine SharedCell.Step.store hhl ?_
  rw [hsn]
  exact inbound loaded v'.snapshot

theorem refuseFrame_access (wf : s.Consistent) (h : s.refuseFrame = some s') : s.Access none s' := by
  unfold refuseFrame at h
  split at h
  · cases h
    exact idleReader_access wf
  · cases h

theorem finishFrame_access (wf : s.Consistent) (h : s.finishFrame = some s') : s.Access none s' := by
  unfold finishFrame at h
  split at h
  · split at h
    · cases h
    cases h
    exact idleReader_access wf
  · cases h

theorem prepareWrite_cases
    (h : s.prepareWrite env intent = some s') : s.writer = .idle ∧ (s' = s.stopWriter ∨
      ∃ prepared next, prepare env s.snapshot intent = some (prepared, next) ∧
        s' = { s with writer := .prepared s.snapshot next
                      assigned := s.assigned ++ prepared.messages }) := by
  unfold prepareWrite at h
  split at h
  next hwr =>
    refine ⟨hwr, ?_⟩
    split at h
    · cases h
      exact Or.inl rfl
    next snapshot hld =>
    split at h
    · cases h
      exact Or.inl rfl
    rename_i prepared next hprepare
    cases h
    have hsn := load_eq_some hld
    subst hsn
    exact Or.inr ⟨prepared, next, hprepare, rfl⟩
  · cases h

theorem prepareWrite_access (wf : s.Consistent)
    (h : s.prepareWrite env intent = some s') : s.Access none s' := by
  rcases (prepareWrite_cases h).2 with rfl | ⟨prepared, next, hprepare, rfl⟩
  · exact stopWriter_access wf
  refine ⟨⟨wf.reader, ?_, wf.outcome⟩, ?_⟩
  · intro loaded next' heq
    cases heq
    exact prepare_update hprepare
  · have hcl : cell { s with
        writer := .prepared s.snapshot next
        assigned := s.assigned ++ prepared.messages } =
        s.cell.load .outbound := cell_eq rfl rfl rfl rfl
    rw [hcl]
    exact SharedCell.Step.load _

theorem commitWrite_cases (h : s.commitWrite = some s') :
    ∃ loaded next, s.writer = .prepared loaded next ∧ s.held .outbound = some loaded ∧
      s' = { s with snapshot := next, writer := .idle } := by
  unfold commitWrite at h
  split at h
  next loaded next hwr =>
    obtain ⟨saved, hsv, rfl⟩ := map_eq_some_iff.mp h
    have hsav := save_eq_some hsv
    subst hsav
    exact ⟨loaded, next, hwr, by simp only [held, hwr], rfl⟩
  · cases h

theorem commitWrite_access (wf : s.Consistent) (h : s.commitWrite = some s') :
    s.Access (s.saving .commitWrite) s' := by
  obtain ⟨loaded, next, hwr, hhl, rfl⟩ := commitWrite_cases h
  refine ⟨⟨wf.reader, (by intro _ _ heq; cases heq), wf.outcome⟩, ?_⟩
  have hcl : cell { s with snapshot := next, writer := .idle } = s.cell.store .outbound next :=
    cell_eq rfl rfl rfl rfl
  have hlab : s.saving .commitWrite = some (.outbound, loaded) := by
    simp only [saving, hhl, map_some]
  rw [hcl, hlab]
  exact SharedCell.Step.store hhl (wf.writer loaded next hwr)

theorem failWrite_cases (h : s.failWrite = some s') : s' = s.stopWriter := by
  unfold failWrite at h
  split at h
  · cases h
  cases h
  rfl

theorem lockOutcome_cases {byReader : Bool} {job : OutcomeJob} (h : s.lockOutcome byReader job = some s') :
    s' = { s with outcome := some ⟨byReader, job, .locked⟩ } := by
  unfold lockOutcome at h
  split at h
  · cases h
    rfl
  · cases h
    rfl
  · cases h

theorem loadOutcome_cases (h : s.loadOutcome = some s') : ∃ byReader job,
    s' = { s with outcome := some ⟨byReader, job, .finished⟩ } ∨
      ∃ next, applySessionMutations s.snapshot job.mutations = some next ∧
        s' = { s with outcome := some ⟨byReader, job, .loaded s.snapshot next⟩ } := by
  unfold loadOutcome at h
  split at h
  next byReader job _ =>
    refine ⟨byReader, job, ?_⟩
    split at h
    · cases h
      exact Or.inl rfl
    next snapshot hld =>
    split at h
    · cases h
      exact Or.inl rfl
    next =>
    split at h
    · cases h
      exact Or.inl rfl
    rename_i next hmut
    cases h
    have hsn := load_eq_some hld
    subst hsn
    exact Or.inr ⟨next, hmut, rfl⟩
  · cases h

theorem loadOutcome_access (wf : s.Consistent) (h : s.loadOutcome = some s') : s.Access none s' := by
  obtain ⟨byReader, job, rfl | ⟨next, hmut, rfl⟩⟩ := loadOutcome_cases h
  · exact finishedOutcome_access wf byReader job
  · refine ⟨⟨wf.reader, wf.writer, ?_⟩, ?_⟩
    · intro _ _ loaded next' heq
      cases heq
      exact hmut
    · have hcl : cell { s with outcome := some ⟨byReader, job, .loaded s.snapshot next⟩ } =
          s.cell.load .outcome := cell_eq rfl rfl rfl rfl
      rw [hcl]
      exact SharedCell.Step.load _

theorem saveOutcome_cases (h : s.saveOutcome = some s') :
    ∃ byReader job loaded next push, s.outcome = some ⟨byReader, job, .loaded loaded next⟩ ∧
      s.held .outcome = some loaded ∧
      s' = { s with snapshot := next, outcome := some ⟨byReader, job, .finished⟩, acceptsPush := push
                    committed := s.committed ++ job.mutations } := by
  unfold saveOutcome at h
  split at h
  next byReader job loaded next hout =>
    obtain ⟨saved, hsv, rfl⟩ := map_eq_some_iff.mp h
    have hsav := save_eq_some hsv
    subst hsav
    exact ⟨byReader, job, loaded, next, _, hout, by simp only [held, hout], rfl⟩
  · cases h

theorem saveOutcome_access (wf : s.Consistent) (h : s.saveOutcome = some s') :
    s.Access (s.saving .saveOutcome) s' := by
  obtain ⟨byReader, job, loaded, next, push, hout, hhl, rfl⟩ := saveOutcome_cases h
  refine ⟨⟨wf.reader, wf.writer, (by intro _ _ _ _ heq; cases heq)⟩, ?_⟩
  have hcl : cell { s with
      snapshot := next, outcome := some ⟨byReader, job, .finished⟩, acceptsPush := push
      committed := s.committed ++ job.mutations } = s.cell.store .outcome next :=
    cell_eq rfl rfl rfl rfl
  have hlab : s.saving .saveOutcome = some (.outcome, loaded) := by
    simp only [saving, hhl, map_some]
  rw [hcl, hlab]
  exact SharedCell.Step.store hhl (SnapshotUpdate.outcome (wf.outcome byReader job loaded next hout))

theorem unlockOutcome_access (wf : s.Consistent) (h : s.unlockOutcome = some s') : s.Access none s' := by
  unfold unlockOutcome at h
  split at h
  · cases h
    refine ⟨⟨wf.reader, wf.writer, (by intro _ _ _ _ heq; cases heq)⟩, ?_⟩
    have hcl : cell { s with outcome := none } = s.cell.drop .outcome := cell_eq rfl rfl rfl rfl
    rw [hcl]
    exact SharedCell.Step.drop _
  · cases h

variable {op : SessionOp} {W : Type}

theorem step_access (wf : s.Consistent) (h : s.step op = some s') : s.Access (s.saving op) s' := by
  cases op with
  | readFrame frame => exact readFrame_access wf h
  | acceptFrame => exact acceptFrame_access wf h
  | refuseFrame => exact refuseFrame_access wf h
  | finishFrame => exact finishFrame_access wf h
  | prepareWrite env intent => exact prepareWrite_access wf h
  | commitWrite => exact commitWrite_access wf h
  | failWrite =>
    rw [failWrite_cases h]
    exact stopWriter_access wf
  | lockOutcome byReader job =>
    rw [lockOutcome_cases h]
    exact lockedOutcome_access wf byReader job
  | loadOutcome => exact loadOutcome_access wf h
  | saveOutcome => exact saveOutcome_access wf h
  | unlockOutcome => exact unlockOutcome_access wf h
  | retire =>
    cases h
    exact ⟨⟨wf.reader, wf.writer, wf.outcome⟩, SharedCell.Step.stay⟩

theorem step_records (h : s.step op = some s') : (op ≠ .acceptFrame → s'.accepted = s.accepted) ∧
      (op ≠ .saveOutcome → s'.committed = s.committed) ∧
      ((∀ env intent, op ≠ .prepareWrite env intent) → s'.assigned = s.assigned ∧
        (op ≠ .commitWrite → s'.writer = s.writer ∨ s'.writer = .stopped)) := by
  cases op with
  | readFrame frame =>
    change s.readFrame frame = some s' at h
    unfold readFrame at h
    split at h
    · split at h
      · cases h
        exact ⟨fun _ => rfl, fun _ => rfl, fun _ => ⟨rfl, fun _ => Or.inl rfl⟩⟩
      next =>
      split at h
      · cases h
        exact ⟨fun _ => rfl, fun _ => rfl, fun _ => ⟨rfl, fun _ => Or.inl rfl⟩⟩
      next =>
      split at h
      · cases h
      · cases h
        exact ⟨fun _ => rfl, fun _ => rfl, fun _ => ⟨rfl, fun _ => Or.inl rfl⟩⟩
      cases h
      exact ⟨fun _ => rfl, fun _ => rfl, fun _ => ⟨rfl, fun _ => Or.inl rfl⟩⟩
    · cases h
  | acceptFrame =>
    obtain ⟨_, _, _, _, rfl⟩ := acceptFrame_cases h
    exact ⟨fun hne => absurd rfl hne, fun _ => rfl, fun _ => ⟨rfl, fun _ => Or.inl rfl⟩⟩
  | refuseFrame =>
    change s.refuseFrame = some s' at h
    unfold refuseFrame at h
    split at h
    · cases h
      exact ⟨fun _ => rfl, fun _ => rfl, fun _ => ⟨rfl, fun _ => Or.inl rfl⟩⟩
    · cases h
  | finishFrame =>
    change s.finishFrame = some s' at h
    unfold finishFrame at h
    split at h
    · split at h
      · cases h
      cases h
      exact ⟨fun _ => rfl, fun _ => rfl, fun _ => ⟨rfl, fun _ => Or.inl rfl⟩⟩
    · cases h
  | prepareWrite env intent =>
    rcases (prepareWrite_cases h).2 with rfl | ⟨_, _, _, rfl⟩
    · exact ⟨fun _ => rfl, fun _ => rfl, fun hne => absurd rfl (hne env intent)⟩
    · exact ⟨fun _ => rfl, fun _ => rfl, fun hne => absurd rfl (hne env intent)⟩
  | commitWrite =>
    obtain ⟨_, _, _, _, rfl⟩ := commitWrite_cases h
    exact ⟨fun _ => rfl, fun _ => rfl, fun _ => ⟨rfl, fun hne => absurd rfl hne⟩⟩
  | failWrite =>
    rw [failWrite_cases h]
    exact ⟨fun _ => rfl, fun _ => rfl, fun _ => ⟨rfl, fun _ => Or.inr rfl⟩⟩
  | lockOutcome byReader job =>
    rw [lockOutcome_cases h]
    exact ⟨fun _ => rfl, fun _ => rfl, fun _ => ⟨rfl, fun _ => Or.inl rfl⟩⟩
  | loadOutcome =>
    obtain ⟨_, _, rfl | ⟨_, _, rfl⟩⟩ := loadOutcome_cases h
    · exact ⟨fun _ => rfl, fun _ => rfl, fun _ => ⟨rfl, fun _ => Or.inl rfl⟩⟩
    · exact ⟨fun _ => rfl, fun _ => rfl, fun _ => ⟨rfl, fun _ => Or.inl rfl⟩⟩
  | saveOutcome =>
    obtain ⟨_, _, _, _, _, _, _, rfl⟩ := saveOutcome_cases h
    exact ⟨fun _ => rfl, fun hne => absurd rfl hne, fun _ => ⟨rfl, fun _ => Or.inl rfl⟩⟩
  | unlockOutcome =>
    change s.unlockOutcome = some s' at h
    unfold unlockOutcome at h
    split at h
    · cases h
      exact ⟨fun _ => rfl, fun _ => rfl, fun _ => ⟨rfl, fun _ => Or.inl rfl⟩⟩
    · cases h
  | retire =>
    cases h
    exact ⟨fun _ => rfl, fun _ => rfl, fun _ => ⟨rfl, fun _ => Or.inl rfl⟩⟩

theorem saving_owner {loaded : Snapshot} (h : s.saving op = some (owner, loaded)) :
    (owner = .inbound → op = .acceptFrame) ∧ (owner = .outbound → op = .commitWrite) ∧
      (owner = .outcome → op = .saveOutcome) := by
  cases op with
  | acceptFrame =>
    obtain ⟨_, _, heq⟩ := map_eq_some_iff.mp h
    cases heq
    exact ⟨fun _ => rfl, (fun h => by cases h), (fun h => by cases h)⟩
  | commitWrite =>
    obtain ⟨_, _, heq⟩ := map_eq_some_iff.mp h
    cases heq
    exact ⟨(fun h => by cases h), fun _ => rfl, (fun h => by cases h)⟩
  | saveOutcome =>
    obtain ⟨_, _, heq⟩ := map_eq_some_iff.mp h
    cases heq
    exact ⟨(fun h => by cases h), (fun h => by cases h), fun _ => rfl⟩
  | _ => cases h

/-- While others save what is current, a step is the owner's save or leaves the view alone. -/
theorem step_current (frame : ∀ user v w, user ≠ owner → SnapshotUpdate user v w → view w = view v)
    (wf : s.Consistent) (cur : SharedCell.Current view owner s.cell)
    (fresh : s.SavesCurrent view owner op) (h : s.step op = some s') :
    s'.Consistent ∧ SharedCell.Current view owner s'.cell ∧ (view s'.snapshot = view s.snapshot ∨
        ∃ loaded, s.saving op = some (owner, loaded) ∧ view loaded = view s.snapshot) := by
  obtain ⟨wf', hacc⟩ := step_access wf h
  obtain ⟨cur', hvw⟩ := hacc.current frame fresh cur
  exact ⟨wf', cur', hvw⟩

theorem applySessionMutations_view
    (mutate : ∀ v mutation, view (v.mutate mutation) = view v) {v w : Snapshot}
    {mutations : List SessionMutation} (h : applySessionMutations v mutations = some w) :
    view w = view v := by
  induction mutations generalizing v with
  | nil =>
    cases h
    rfl
  | cons mutation rest ih =>
    unfold applySessionMutations at h
    split at h
    · exact (ih h).trans (mutate v mutation)
    · cases h

theorem acquired_current (view : Snapshot → W) (owner : SnapshotUser) (snapshot : Snapshot)
    (validator : SessionValidator) : SharedCell.Current view owner (acquired snapshot validator).cell := by
  intro v hv
  cases owner <;> cases hv

end Accesses

end SessionState

end Tlrpc
