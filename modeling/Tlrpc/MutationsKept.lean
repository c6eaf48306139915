import Tlrpc.SessionSteps

namespace Tlrpc

open List SessionState

inductive SessionField
  | layer
  | client
  | user
  | pushSubscription
  | newSession
deriving DecidableEq

def SessionMutation.field : SessionMutation → SessionField
  | .setLayer _ => .layer
  | .setClientMetadata _ => .client
  | .bindUser _ => .user
  | .unbindUser => .user
  | .setPushSubscription _ => .pushSubscription
  | .markNewSessionCreated _ => .newSession

def SessionMutation.SetIn : SessionMutation → Snapshot → Prop
  | .setLayer layer, s => s.layer = layer
  | .setClientMetadata client, s => s.client = client
  | .bindUser userID, s => s.userID = userID
  | .unbindUser, s => s.userID = 0
  | .setPushSubscription enabled, s => s.pushSubscription = enabled
  | .markNewSessionCreated firstMessageID, s =>
    s.newSessionCreated = true ∧ s.firstClientMsgID = firstMessageID

structure SessionSettings where
  layer : Int
  client : ClientMetadata
  userID : Int
  pushSubscription : Bool
  newSessionCreated : Bool
  firstClientMsgID : Int
deriving DecidableEq

def Snapshot.settings (s : Snapshot) : SessionSettings :=
  ⟨s.layer, s.client, s.userID, s.pushSubscription, s.newSessionCreated, s.firstClientMsgID⟩

theorem setIn_mutate (s : Snapshot) (m : SessionMutation) : m.SetIn (s.mutate m) := by
  cases m with
  | markNewSessionCreated firstMessageID => exact ⟨rfl, rfl⟩
  | _ => rfl

variable {s s' : Snapshot} {committed : List SessionMutation}

theorem SessionMutation.SetIn.mutate {m other : SessionMutation} (h : m.SetIn s)
    (hne : other.field ≠ m.field) : m.SetIn (s.mutate other) := by
  cases m <;> cases other <;> first
    | exact h
    | exact absurd rfl hne

theorem SessionMutation.SetIn.congr {m : SessionMutation} (h : m.SetIn s)
    (hsm : s'.settings = s.settings) : m.SetIn s' := by
  simp only [Snapshot.settings, SessionSettings.mk.injEq] at hsm
  obtain ⟨hlayer, hcli, hus, hps, hnew, hfst⟩ := hsm
  cases m with
  | setLayer layer => exact hlayer.trans h
  | setClientMetadata client => exact hcli.trans h
  | bindUser userID => exact hus.trans h
  | unbindUser => exact hus.trans h
  | setPushSubscription enabled => exact hps.trans h
  | markNewSessionCreated firstMessageID => exact ⟨hnew.trans h.1, hfst.trans h.2⟩

theorem settings_frame {user : SnapshotUser} {v w : Snapshot} (hne : user ≠ .outcome)
    (h : SnapshotUpdate user v w) : w.settings = v.settings := by
  cases h with
  | inbound state => rfl
  | outbound n t => rfl
  | outcome hm => exact absurd rfl hne

def InForce (committed : List SessionMutation) (s : Snapshot) : Prop :=
  ∀ earlier m later, committed = earlier ++ m :: later → (∀ m' ∈ later, m'.field ≠ m.field) →
    m.SetIn s

theorem InForce.mutate (h : InForce committed s)
    (m : SessionMutation) : InForce (committed ++ [m]) (s.mutate m) := by
  intro earlier m' later hspl hlat
  rcases eq_nil_or_concat later with rfl | ⟨front, last, rfl⟩
  · obtain ⟨_, hm⟩ := append_inj' hspl rfl
    cases hm
    exact setIn_mutate s m
  rw [concat_eq_append] at hspl hlat
  have hspl' : committed ++ [m] = (earlier ++ m' :: front) ++ [last] := by
    rw [hspl]
    simp
  obtain ⟨hfro, hla⟩ := append_inj' hspl' rfl
  cases hla
  have hold := h earlier m' front hfro
    (fun m'' hm'' => hlat m'' (mem_append_left _ hm''))
  exact hold.mutate (hlat m (mem_append_right _ mem_cons_self))

theorem InForce.apply {mutations : List SessionMutation}
    (h : InForce committed s) (hm : applySessionMutations s mutations = some s') :
    InForce (committed ++ mutations) s' := by
  induction mutations generalizing committed s with
  | nil =>
    cases hm
    rw [append_nil]
    exact h
  | cons m rest ih =>
    unfold applySessionMutations at hm
    split at hm
    · have hst := ih (h.mutate m) hm
      rw [append_assoc] at hst
      exact hst
    · cases hm

theorem InForce.congr (h : InForce committed s) (hsm : s'.settings = s.settings) : InForce committed s' := by
  intro earlier m later hspl hlat
  exact (h earlier m later hspl hlat).congr hsm

namespace SessionState

/-- The durable snapshot carries every committed mutation that no later one replaced. -/
structure KeepsMutations (s : SessionState) : Prop where
  consistent : s.Consistent
  current : SharedCell.Current Snapshot.settings .outcome s.cell
  inForce : InForce s.committed s.snapshot

theorem KeepsMutations.step {s s' : SessionState} {op : SessionOp} (h : s.KeepsMutations)
    (fresh : s.SavesCurrent Snapshot.settings .outcome op) (hs : s.step op = some s') :
    s'.KeepsMutations := by
  obtain ⟨wf, cur, hvw⟩ :=
    step_current (fun _ _ _ => settings_frame) h.consistent h.current fresh hs
  refine ⟨wf, cur, ?_⟩
  by_cases hop : op = .saveOutcome
  · subst hop
    obtain ⟨byReader, job, loaded, next, push, hout, hhl, rfl⟩ := saveOutcome_cases hs
    have hloa : loaded.settings = s.snapshot.settings := h.current loaded hhl
    exact (h.inForce.congr hloa).apply (h.consistent.outcome byReader job loaded next hout)
  have hcom := (step_records hs).2.1 hop
  have hsm : s'.snapshot.settings = s.snapshot.settings := by
    rcases hvw with same | ⟨loaded, hsav, _⟩
    · exact same
    · exact absurd ((saving_owner hsav).2.2 rfl) hop
  rw [hcom]
  exact h.inForce.congr hsm

theorem acquired_keeps (snapshot : Snapshot) (validator : SessionValidator) :
    (acquired snapshot validator).KeepsMutations := by
  refine ⟨acquired_consistent snapshot validator, acquired_current _ _ snapshot validator, ?_⟩
  intro earlier m later hspl _
  simp [acquired] at hspl

end SessionState

/-- As long as other saves are made from the durable settings, the snapshot carries each saved
mutation until another one of its field is saved. -/
theorem committed_mutations_kept {snapshot : Snapshot} {validator : SessionValidator}
    {ops : List SessionOp} {s : SessionState}
    (fresh : Meets SessionState.step (SessionState.SavesCurrent Snapshot.settings .outcome)
      (SessionState.acquired snapshot validator) ops)
    (h : exec SessionState.step (SessionState.acquired snapshot validator) ops = some s)
    {earlier later : List SessionMutation} {m : SessionMutation}
    (hm : s.committed = earlier ++ m :: later) (hlater : ∀ m' ∈ later, m'.field ≠ m.field) :
    m.SetIn s.snapshot :=
  (exec_invariant (fun _ _ _ hi hc hs => SessionState.KeepsMutations.step hi hc hs)
    (acquired_keeps snapshot validator) fresh h).inForce earlier m later hm hlater

/-- A user signs in, a frame is accepted, a push goes out, and the user signs out. -/
def signOutRun : List SessionOp :=
  [.lockOutcome false (.applyMutations [.bindUser 5, .setLayer 3]), .loadOutcome, .saveOutcome,
    .unlockOutcome, .readFrame (clientAck 4), .acceptFrame, serverPush, .commitWrite,
    .lockOutcome true .subscribeForPush, .loadOutcome, .saveOutcome, .unlockOutcome,
    .lockOutcome false (.applyMutations [.unbindUser]), .loadOutcome, .saveOutcome]

theorem committed_mutations_kept_sign_out : ∃ s, exec SessionState.step openedSession signOutRun = some s ∧
      s.committed = [.bindUser 5, .setLayer 3, .setPushSubscription true, .unbindUser] ∧
      s.snapshot.layer = 3 ∧ s.snapshot.userID = 0 := by
  have fresh : Meets step (SessionState.SavesCurrent Snapshot.settings .outcome)
      openedSession signOutRun := by decide
  have run : (exec step openedSession signOutRun).map committed =
      some [.bindUser 5, .setLayer 3, .setPushSubscription true, .unbindUser] := rfl
  obtain ⟨s, hs, hcom⟩ := Option.map_eq_some_iff.mp run
  refine ⟨s, hs, hcom, ?_, ?_⟩
  · exact committed_mutations_kept fresh hs (m := .setLayer 3)
      (hcom.trans (show _ = [.bindUser 5] ++ _ :: _ from rfl)) (by decide)
  · exact committed_mutations_kept fresh hs (m := .unbindUser)
      (hcom.trans (show _ = [.bindUser 5, .setLayer 3, .setPushSubscription true] ++ _ :: []
        from rfl)) (by decide)

/-- The user signs out while the writer is between its two lease calls; its save signs the user in
again. -/
theorem stale_write_undoes_sign_out : ∃ s, exec SessionState.step openedSession
        [.lockOutcome false (.applyMutations [.bindUser 5]), .loadOutcome, .saveOutcome,
          .unlockOutcome, serverPush, .lockOutcome false (.applyMutations [.unbindUser]), .loadOutcome,
          .saveOutcome, .unlockOutcome, .commitWrite] = some s ∧
      s.committed = [.bindUser 5, .unbindUser] ∧ s.snapshot.userID = 5 :=
  ⟨_, rfl, rfl, rfl⟩

end Tlrpc
