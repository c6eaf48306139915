import Tlrpc.PushIndexes
import Tlrpc.PushPublish

namespace Tlrpc

open Function RuntimePushRegistry Option

namespace RuntimePushRegistry

variable {r : RuntimePushRegistry}

structure Live (r : RuntimePushRegistry) : Prop where
  registered : ∀ target, (r.memory target).acceptsPush = true → ∃ key, target ∈ r.registrations key
  accepts : ∀ target, (r.memory target).reachable = true → (r.memory target).acceptsPush = true

theorem live_new (schemaLayer : Option Int) : (newRuntimePushRegistry schemaLayer).Live :=
  ⟨nofun, nofun⟩

variable {key : SessionKey}

variable {value : RuntimePushBinding} {sender : RequestSender} {r : RuntimePushRegistry}
  {later : List ProjectedPushTarget}

theorem Live.register (h : r.Live)
    (hval : value.reachable = true → value.acceptsPush = true) : (r.register key value).Live := by
  refine ⟨fun target hacc => ?_, fun target hrch => ?_⟩
  · rw [memory_register] at hacc
    by_cases hnew : target = r.allocated
    · exact ⟨key, mem_register.mpr (.inr ⟨hnew, rfl⟩)⟩
    rw [update_of_ne hnew] at hacc
    obtain ⟨key', hmem⟩ := h.registered target hacc
    exact ⟨key', mem_register.mpr (.inl hmem)⟩
  · rw [memory_register] at hrch ⊢
    by_cases hnew : target = r.allocated
    · rw [hnew, update_self] at hrch ⊢
      exact hval hrch
    · rw [update_of_ne hnew] at hrch ⊢
      exact h.accepts target hrch

theorem Live.rebind (h : r.Live) {target : RegistrationRef} (hmem : target ∈ r.registrations key)
    (hval : value.reachable = true → value.acceptsPush = true) : (r.rebind key target value).Live := by
  refine ⟨fun other hacc => ?_, fun other hrch => ?_⟩
  · rw [registrations_rebind]
    rw [memory_rebind] at hacc
    by_cases hsm : other = target
    · exact ⟨key, hsm ▸ hmem⟩
    · rw [update_of_ne hsm] at hacc
      exact h.registered other hacc
  · rw [memory_rebind] at hrch ⊢
    by_cases hsm : other = target
    · rw [hsm, update_self] at hrch ⊢
      exact hval hrch
    · rw [update_of_ne hsm] at hrch ⊢
      exact h.accepts other hrch

theorem Live.unregister (h : r.Live) (hind : r.Indexed)
    {target : RegistrationRef} (hmem : target ∈ r.registrations key) : (r.unregister key target).Live := by
  have hout : ∀ other, ((r.unregister key target).memory other).acceptsPush = true → other ≠ target := by
    rintro other hacc rfl
    rw [memory_unregister, update_self] at hacc
    cases hacc
  refine ⟨fun other hacc => ?_, fun other hrch => ?_⟩
  · have hne := hout other hacc
    rw [memory_unregister_ne hne] at hacc
    obtain ⟨key', hother⟩ := h.registered other hacc
    exact ⟨key', (hind.mem_unregister hmem).mpr ⟨hother, hne⟩⟩
  · by_cases hsm : other = target
    · rw [hsm, memory_unregister, update_self] at hrch
      cases hrch
    · rw [memory_unregister_ne hsm] at hrch ⊢
      exact h.accepts other hrch

section

variable {snapshot : Snapshot} {leaseGeneration : Int} {sender : RequestSender} {acceptsPush : Bool}
  {key : SessionKey}

theorem Live.updateSection (h : r.Live) (stage : UpdateStage) :
    (r.updateSection snapshot leaseGeneration sender acceptsPush stage).1.Live := by
  have hval : ∀ userID : Int, (userID ≠ 0 && acceptsPush) = true → acceptsPush = true :=
    fun _ hrch => (Bool.and_eq_true_iff.mp hrch).2
  unfold RuntimePushRegistry.updateSection
  cases stage with
  | find =>
    dsimp only
    split <;> exact h
  | create =>
    dsimp only
    split
    · exact h
    · exact h.register (hval _)
  | modify target =>
    dsimp only
    split
    next hmem => exact h.rebind hmem (hval _)
    · exact h

theorem Live.removeSection (h : r.Live) (hind : r.Indexed) (stage : RemoveStage) :
    (r.removeSection key sender stage).1.Live := by
  unfold RuntimePushRegistry.removeSection
  cases stage with
  | find =>
    dsimp only
    split <;> exact h
  | delete target =>
    dsimp only
    split
    next hfd => exact h.unregister hind (find_eq_some hfd).1
    · exact h

theorem Indexed.memory_updateSection (h : r.Indexed) {stage : UpdateStage}
    {target : RegistrationRef} (hmem : target ∈ r.registrations key) (hst : stage ≠ .modify target) :
    (r.updateSection snapshot leaseGeneration sender acceptsPush stage).1.memory target =
      r.memory target := by
  unfold RuntimePushRegistry.updateSection
  cases stage with
  | find =>
    dsimp only
    split <;> rfl
  | create =>
    dsimp only
    split
    · rfl
    · exact h.keys.memory_register hmem
  | modify other =>
    have hne : target ≠ other := fun heq => hst (heq ▸ rfl)
    dsimp only
    split
    · rw [memory_rebind, update_of_ne hne]
    · rfl

theorem memory_removeSection {stage : RemoveStage} {target : RegistrationRef}
    (hst : stage ≠ .delete target) :
    (r.removeSection key sender stage).1.memory target = r.memory target := by
  unfold removeSection
  cases stage with
  | find =>
    dsimp only
    split <;> rfl
  | delete other =>
    have hne : target ≠ other := fun heq => hst (heq ▸ rfl)
    dsimp only
    split
    · exact memory_unregister_ne hne
    · rfl

end

section

variable {userID : Int} {excludedSession : Option SessionKey} {excludedAuthKey : Option KeyID}

theorem Indexed.mem_collect_user (h : r.Indexed) (hps : 0 < userID) {target : RegistrationRef} :
    target ∈ (PushScope.user userID excludedSession excludedAuthKey).collect r ↔
      ∃ key, excludes excludedSession excludedAuthKey key = false ∧ r.Reaches userID key target := by
  unfold PushScope.collect
  dsimp only
  rw [if_neg (by omega)]
  refine (Buckets.mem_flatMap_entries 
    (p := fun key => !excludes excludedSession excludedAuthKey key)).trans ?_
  refine exists_congr fun key => and_congr (by simp) ?_
  exact h.users.exact userID key target

theorem Indexed.nodup_collect_user (h : r.Indexed) :
    ((PushScope.user userID excludedSession excludedAuthKey).collect r).Nodup := by
  unfold PushScope.collect
  dsimp only
  split
  · exact List.nodup_nil
  refine Buckets.nodup_flatMap_entries (h.users.nodup userID) ?_
    (fun key => !excludes excludedSession excludedAuthKey key)
  intro key key' target hkey hkey'
  have hrch := (h.users.exact userID key target).mp hkey
  have hrch' := (h.users.exact userID key' target).mp hkey'
  exact h.keys.oneKey _ _ _ hrch.1 hrch'.1

end

theorem nodup_activeUserIDs (r : RuntimePushRegistry) : r.activeUserIDs.Nodup := by
  exact (List.mergeSort_perm _ _).nodup_iff.mpr (r.byUser.keys_nodup.filter _)

end RuntimePushRegistry

namespace PushRun

/-- With the lock free, a call about to push holds a registration as it was projected for. -/
structure Sound (s : PushRun) : Prop where
  indexed : s.registry.Indexed
  live : s.registry.Live
  checking : ∀ id scope project target body later,
    s.calls id = some (.publishProjected scope project (.check target body later)) →
    project target.binding = some body
  pushing : ∀ id scope project target body later,
    s.calls id = some (.publishProjected scope project (.push target body later)) →
    project target.binding = some body ∧ s.locked target.registration = some id ∧
      scope.current (s.registry.memory target.registration) target.binding = true

theorem sound_initial (schemaLayer : Option Int) : (initial schemaLayer).Sound where
  indexed := indexed_new schemaLayer
  live := live_new schemaLayer
  checking := by
    intro id scope project target body later hcl
    cases hcl
  pushing := by
    intro id scope project target body later hcl
    cases hcl

variable {s s' : PushRun} {id : CallID}

variable {scope : PushScope} {target : ProjectedPushTarget} {keeps canceled : Bool}
  {project : Binding → Option PushBody} {stage : ProjectedStage}

theorem Sound.registered (hs : s.Sound)
    (h : scope.current (s.registry.memory target.registration) target.binding = true) :
    ∃ key, target.registration ∈ s.registry.registrations key := by
  cases scope with
  | user userID excludedSession excludedAuthKey =>
    have hrch := (Bool.and_eq_true_iff.mp h).1
    exact hs.live.registered _ (hs.live.accepts _ hrch)
  | authKey authKeyID =>
    have hacc := (Bool.and_eq_true_iff.mp (Bool.and_eq_true_iff.mp h).1).1
    exact hs.live.registered _ hacc

theorem current_binding {projected : Binding}
    (h : scope.current value projected = true) : value.binding = projected := by
  cases scope with
  | user => exact of_decide_eq_true (Bool.and_eq_true_iff.mp h).2
  | authKey => exact of_decide_eq_true (Bool.and_eq_true_iff.mp h).2

/-- One call goes on; the others keep their locks and the registrations they push to. -/
theorem Sound.proceed (hs : s.Sound) {call : Option RegistryCall} {registry : RuntimePushRegistry}
    {locked : RegistrationRef → Option CallID} {delivered : List ProjectedDelivery}
    (hind : registry.Indexed) (hlv : registry.Live) (hche : ∀ scope project target body later,
      call = some (.publishProjected scope project (.check target body later)) →
      project target.binding = some body) (hpus : ∀ scope project target body later,
      call = some (.publishProjected scope project (.push target body later)) →
      project target.binding = some body ∧ locked target.registration = some id ∧
        scope.current (registry.memory target.registration) target.binding = true)
    (hoth : ∀ other target key, other ≠ id → s.locked target = some other →
      target ∈ s.registry.registrations key →
      locked target = some other ∧ registry.memory target = s.registry.memory target) :
    Sound ⟨registry, locked, Function.update s.calls id call, delivered⟩ where
  indexed := hind
  live := hlv
  checking := by
    intro other scope project target body later hcl
    dsimp only at hcl
    by_cases hsm : other = id
    · rw [hsm, update_self] at hcl
      exact hche scope project target body later hcl
    · rw [update_of_ne hsm] at hcl
      exact hs.checking other scope project target body later hcl
  pushing := by
    intro other scope project target body later hcl
    dsimp only at hcl
    by_cases hsm : other = id
    · rw [hsm, update_self] at hcl
      rw [hsm]
      exact hpus scope project target body later hcl
    rw [update_of_ne hsm] at hcl
    obtain ⟨hbd, hlkd, hcur⟩ := hs.pushing other scope project target body later hcl
    obtain ⟨key, hmem⟩ := hs.registered hcur
    obtain ⟨hlkd', hm⟩ := hoth other target.registration key hsm hlkd hmem
    rw [hm]
    exact ⟨hbd, hlkd', hcur⟩

theorem release_locked {before : Option RegistrationRef} {target : RegistrationRef}
    {other : CallID} (hgd : ∀ target ∈ before, s.locked target = some id) (hother : other ≠ id)
    (hlkd : s.locked target = some other) : (s.release before keeps).locked target = some other := by
  unfold release
  split
  next held =>
    split
    · exact hlkd
    have hne : target ≠ held := by
      rintro rfl
      have hhl := hgd target rfl
      rw [hlkd] at hhl
      exact hother (some.inj hhl)
    unfold unlock
    dsimp only
    rw [update_of_ne hne]
    exact hlkd
  · exact hlkd

theorem release_eq (s : PushRun) (before : Option RegistrationRef) (keeps : Bool) : s.release before keeps =
      ⟨s.registry, (s.release before keeps).locked, s.calls, s.delivered⟩ := by
  unfold release unlock
  split
  · split <;> rfl
  · rfl

theorem Sound.advanceUpdate (hs : s.Sound) {snapshot : Snapshot} {leaseGeneration : Int}
    {acceptsPush : Bool} {stage : UpdateStage}
    (hgd : ∀ target ∈ (RegistryCall.update snapshot leaseGeneration sender acceptsPush stage).mutex,
      s.locked target = some id) :
    ((s.advanceUpdate id snapshot leaseGeneration sender acceptsPush stage).release
      (RegistryCall.update snapshot leaseGeneration sender acceptsPush stage).mutex keeps).Sound := by
  rw [release_eq]
  refine hs.proceed (hs.indexed.updateSection stage) (hs.live.updateSection stage) ?_ ?_ ?_
  · intro scope project target body later hcl
    cases hnx : (s.registry.updateSection snapshot leaseGeneration sender acceptsPush stage).2 <;>
      simp [hnx] at hcl
  · intro scope project target body later hcl
    cases hnx : (s.registry.updateSection snapshot leaseGeneration sender acceptsPush stage).2 <;>
      simp [hnx] at hcl
  · intro other target key hother hlkd hmem
    refine ⟨release_locked hgd hother hlkd, ?_⟩
    refine hs.indexed.memory_updateSection hmem ?_
    rintro rfl
    have hhl := hgd target rfl
    rw [hlkd] at hhl
    exact hother (some.inj hhl)

theorem Sound.advanceRemove (hs : s.Sound) {key : SessionKey} {stage : RemoveStage}
    (hgd : ∀ target ∈ (RegistryCall.remove key sender stage).mutex, s.locked target = some id) :
    ((s.advanceRemove id key sender stage).release (RegistryCall.remove key sender stage).mutex
      keeps).Sound := by
  rw [release_eq]
  refine hs.proceed (hs.indexed.removeSection stage) (hs.live.removeSection hs.indexed stage) ?_ ?_ ?_
  · intro scope project target body later hcl
    cases hnx : (s.registry.removeSection key sender stage).2 <;> simp [hnx] at hcl
  · intro scope project target body later hcl
    cases hnx : (s.registry.removeSection key sender stage).2 <;> simp [hnx] at hcl
  · intro other target key' hother hlkd _
    refine ⟨release_locked hgd hother hlkd, ?_⟩
    refine memory_removeSection ?_
    rintro rfl
    have hhl := hgd target rfl
    rw [hlkd] at hhl
    exact hother (some.inj hhl)

theorem projectedSection_check {body : PushBody}
    (h : projectedSection r scope project canceled stage = some (.check target body later)) :
    project target.binding = some body := by
  unfold projectedSection at h
  split at h
  · cases h
  · cases h
  · cases h
  · cases h
  next first rest =>
    split at h
    · cases h
    split at h
    · cases h
    next projected hpro =>
      cases h
      exact hpro
  · split at h <;> cases h
  · cases h

theorem projectedSection_push {body : PushBody}
    (h : projectedSection r scope project canceled stage = some (.push target body later)) :
    stage = .check target body later ∧
      scope.current (r.memory target.registration) target.binding = true := by
  unfold projectedSection at h
  split at h
  · cases h
  · cases h
  · cases h
  · cases h
  next first rest =>
    split at h
    · cases h
    · split at h <;> cases h
  · split at h
    next hcur =>
      cases h
      exact ⟨rfl, hcur⟩
    · cases h
  · cases h

theorem Sound.advanceProjected (hs : s.Sound)
    (hcl : s.calls id = some (.publishProjected scope project stage))
    (hgd : ∀ target ∈ (RegistryCall.publishProjected scope project stage).mutex,
      s.locked target = some id) : ((s.advanceProjected id scope project canceled stage).release
      (RegistryCall.publishProjected scope project stage).mutex
      (keepsLock ((s.advanceProjected id scope project canceled stage).calls id))).Sound := by
  rw [release_eq]
  refine hs.proceed hs.indexed hs.live ?_ ?_ ?_
  · intro scope' project' target body later hnx
    obtain ⟨next, hst, hcs⟩ := map_eq_some_iff.mp hnx
    cases hcs
    exact projectedSection_check hst
  · intro scope' project' target body later hnx
    obtain ⟨next, hst, hcs⟩ := map_eq_some_iff.mp hnx
    cases hcs
    obtain ⟨rfl, hcur⟩ := projectedSection_push hst
    refine ⟨hs.checking id scope project target body later hcl, ?_, hcur⟩
    have hkp : keepsLock ((s.advanceProjected id scope project canceled
        (.check target body later)).calls id) = true := by
      unfold advanceProjected goto
      dsimp only
      rw [update_self, hst]
      rfl
    rw [hkp]
    exact hgd target.registration rfl
  · intro other target key hother hlkd _
    exact ⟨release_locked hgd hother hlkd, rfl⟩

theorem Sound.step (hs : s.Sound) {op : PushRunOp} (h : s.step op = some s') : s'.Sound := by
  cases op with
  | begin_ id call =>
    unfold PushRun.step at h
    dsimp only at h
    split at h
    next hfr =>
      cases h
      refine hs.proceed hs.indexed hs.live ?_ ?_ (fun _ _ _ _ hlkd _ => ⟨hlkd, rfl⟩)
      · rintro scope project target body later ⟨⟩
        exact absurd hfr.2 (by simp [fresh])
      · rintro scope project target body later ⟨⟩
        exact absurd hfr.2 (by simp [fresh])
    · cases h
  | lock id =>
    unfold PushRun.step at h
    dsimp only at h
    split at h
    next target _ =>
      split at h
      next hfe =>
        cases h
        refine ⟨hs.indexed, hs.live, hs.checking, ?_⟩
        intro other scope project pushed body later hcl
        obtain ⟨hbd, hlkd, hcur⟩ := hs.pushing other scope project pushed body later hcl
        refine ⟨hbd, ?_, hcur⟩
        have hne : pushed.registration ≠ target := by
          intro heq
          rw [heq, hfe] at hlkd
          cases hlkd
        dsimp only
        rw [update_of_ne hne]
        exact hlkd
      · cases h
    · cases h
  | advance id canceled =>
    unfold PushRun.step at h
    dsimp only at h
    split at h
    · cases h
    rename_i call hcl
    split at h
    next hgd =>
      cases h
      cases call with
      | update snapshot leaseGeneration sender acceptsPush stage => exact hs.advanceUpdate hgd
      | remove key sender stage => exact hs.advanceRemove hgd
      | publishProjected scope project stage => exact hs.advanceProjected hcl hgd
    · cases h

theorem step_delivers {op : PushRunOp} {d : ProjectedDelivery} (h : s.step op = some s')
    (hdel : s'.delivered = s.delivered ++ [d]) : ∃ id scope project later,
      s.calls id = some (.publishProjected scope project (.push d.target d.body later)) := by
  have hsm : s.delivered ≠ s.delivered ++ [d] := by simp
  cases op with
  | begin_ id call =>
    unfold step at h
    dsimp only at h
    split at h
    · cases h
      exact absurd hdel hsm
    · cases h
  | lock id =>
    unfold step at h
    dsimp only at h
    split at h
    · split at h
      · cases h
        exact absurd hdel hsm
      · cases h
    · cases h
  | advance id canceled =>
    unfold step at h
    dsimp only at h
    split at h
    · cases h
    rename_i call hcl
    split at h
    · cases h
      rw [release_eq] at hdel
      cases call with
      | update => exact absurd hdel hsm
      | remove => exact absurd hdel hsm
      | publishProjected scope project stage =>
        have hpus : pushed stage = [d] := List.append_cancel_left hdel
        cases stage with
        | push target body later =>
          cases hpus
          exact ⟨id, scope, project, later, hcl⟩
        | _ => cases hpus
    · cases h

end PushRun

open PushRun in
/-- Whenever the registry's lock is free the indexes are exact, and a projected body is pushed only
to a registration with the very binding it was projected for. -/
theorem push_indexes_exact {schemaLayer : Option Int} {ops : List PushRunOp} {s : PushRun}
    (hrun : exec step (initial schemaLayer) ops = some s) :
    (∀ key, ∀ target ∈ s.registry.registrations key, ∀ other ∈ s.registry.registrations key,
      (s.registry.memory target).sender = (s.registry.memory other).sender → target = other) ∧
      (∀ userID key, (NestedBuckets.bucket s.registry.byUser userID key).Nodup ∧
        ∀ target, target ∈ NestedBuckets.bucket s.registry.byUser userID key ↔
          target ∈ s.registry.registrations key ∧ (s.registry.memory target).reachable = true ∧
            (s.registry.memory target).binding.userID = userID) ∧
      NestedBuckets.NoneEmpty s.registry.byUser ∧ s.registry.activeUserIDs.Nodup ∧
      (∀ userID, (userID ∈ s.registry.activeUserIDs ↔ s.registry.hasActiveUser userID = true) ∧
        (s.registry.hasActiveUser userID = true ↔
          0 < userID ∧ ∃ key target, s.registry.Reaches userID key target)) ∧
      (∀ userID excludedSession excludedAuthKey, 0 < userID →
        ∃ targets : List RegistrationRef, targets.Nodup ∧ (∀ target, target ∈ targets ↔ ∃ key,
            excludes excludedSession excludedAuthKey key = false ∧ s.registry.Reaches userID key target) ∧
          s.registry.publish userID excludedSession excludedAuthKey =
            targets.map fun target => (s.registry.memory target).sender) ∧
      ∀ op s' d, s.step op = some s' → s'.delivered = s.delivered ++ [d] → (∃ id scope project later,
          s.calls id = some (.publishProjected scope project (.push d.target d.body later)) ∧
            project d.target.binding = some d.body) ∧
          (∃ key, d.target.registration ∈ s.registry.registrations key) ∧
          (s.registry.memory d.target.registration).binding = d.target.binding := by
  have hs : s.Sound := exec_inductive (fun _ _ _ hs hst => hs.step hst)
    (sound_initial schemaLayer) hrun
  refine ⟨hs.indexed.keys.oneSender,
    fun userID key => ⟨hs.indexed.users.nodup userID key, hs.indexed.users.exact userID key⟩,
    hs.indexed.users.noneEmpty, s.registry.nodup_activeUserIDs, fun userID => ?_, ?_, ?_⟩
  · have hact : s.registry.hasActiveUser userID = true ↔
        0 < userID ∧ ∃ key target, s.registry.Reaches userID key target :=
      hs.indexed.hasActiveUser_iff
    exact ⟨hs.indexed.mem_activeUserIDs.trans hact.symm, hact⟩
  · intro userID excludedSession excludedAuthKey hps
    exact ⟨_, hs.indexed.nodup_collect_user, fun target => hs.indexed.mem_collect_user hps, rfl⟩
  · intro op s' d hst hdel
    obtain ⟨id, scope, project, later, hcl⟩ := step_delivers hst hdel
    obtain ⟨hbd, _, hcur⟩ := hs.pushing id scope project d.target d.body later hcl
    exact ⟨⟨id, scope, project, later, hcl, hbd⟩, hs.registered hcur, current_binding hcur⟩

def pushSnapshot : Snapshot := { Snapshot.initial ⟨7, 1⟩ 0 0 with userID := 5 }

def pushSender : RequestSender := ⟨0, 3⟩

/-- A projected publish holds a registration's lock for its push; a removal waits for it. -/
def projectedPushOps : List PushRunOp :=
  [.begin_ 0 (.update pushSnapshot 1 pushSender true .find), .advance 0 false, .advance 0 false,
    .begin_ 1 (.publishProjected (.user 5 none none) (fun _ => some [9]) .collect),
    .advance 1 false, .lock 1, .advance 1 false, .advance 1 false, .advance 1 false, .lock 1,
    .advance 1 false, .begin_ 2 (.remove ⟨7, 1⟩ pushSender .find), .advance 2 false]

theorem push_indexes_exact_projected :
    ∃ s, exec PushRun.step (.initial (some 42)) projectedPushOps = some s ∧
      (NestedBuckets.bucket s.registry.byUser 5 ⟨7, 1⟩).Nodup ∧
      s.registry.publish 5 none none = [pushSender] ∧
      ∃ s', s.step (.advance 1 false) = some s' ∧ (s.step (.lock 2)).isNone ∧
        ∃ key, 0 ∈ s.registry.registrations key := by
  obtain ⟨s, hrun⟩ := Option.isSome_iff_exists.mp
    (show (exec PushRun.step (.initial (some 42)) projectedPushOps).isSome = true by decide +kernel)
  have hpub : (exec PushRun.step (.initial (some 42)) projectedPushOps).map
      (fun s => (s.registry.publish 5 none none, (s.step (.lock 2)).isNone,
        (s.step (.advance 1 false)).map fun s' => (s.delivered, s'.delivered))) =
      some ([pushSender], true, some ([], [⟨⟨0, (newRuntimePushRegistry (some 42)).bindingOf
        pushSnapshot 1 pushSender⟩, [9]⟩])) := by
    decide +kernel
  rw [hrun] at hpub
  simp only [map_some, some.injEq, Prod.mk.injEq, map_eq_some_iff] at hpub
  obtain ⟨hsen, hwai, s', hs', hbef, haft⟩ := hpub
  obtain ⟨_, hindex, _, _, _, _, hpus⟩ := push_indexes_exact hrun
  obtain ⟨_, hreg, _⟩ := hpus _ s' ⟨_, [9]⟩ hs' (by rw [hbef, haft]; rfl)
  exact ⟨s, hrun, (hindex 5 ⟨7, 1⟩).1, hsen, s', hs', hwai, hreg⟩

end Tlrpc
