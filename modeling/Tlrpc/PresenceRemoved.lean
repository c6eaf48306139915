import Tlrpc.SessionPresence

namespace Tlrpc

open Function SessionStage Option RuntimePushRegistry PresenceState

theorem SessionStage.afterUpdate_present (next : Option UpdateStage) : afterUpdate next ≠ .absent := by
  cases next <;> exact SessionStage.noConfusion

theorem SessionStage.afterUpdate_removed (next : Option UpdateStage) :
    (afterUpdate next).removed = false := by
  cases next <;> rfl

theorem SessionStage.afterRemove_present (next : Option RemoveStage) : afterRemove next ≠ .absent := by
  cases next <;> exact SessionStage.noConfusion

theorem SessionStage.afterRemove_removed (next : Option RemoveStage) :
    (afterRemove next).removed = true ↔ next = none := by
  cases next with
  | none => exact ⟨fun _ => rfl, fun _ => rfl⟩
  | some stage => exact ⟨(nomatch ·), (nomatch ·)⟩

namespace PresenceSession

structure Sound (p : PresenceSession) (id : Nat) : Prop where
  sender : p.sender.id = id
  snapshot : p.snapshot.key = p.key
  started : p.outcome.isSome = true → p.stage.started = true
  updating : ∀ caller job next stage, p.outcome = some ⟨caller, job, .updating next stage⟩ →
    next.key = p.key

structure Keeps (p p' : PresenceSession) : Prop where
  key : p'.key = p.key
  sender : p'.sender = p.sender
  absent : p'.stage = .absent ↔ p.stage = .absent
  removed : p'.stage.removed = p.stage.removed

/-- What a step of one session does to it and the registry; `late` is for late creations. -/
inductive Moves (r : RuntimePushRegistry) (p : PresenceSession) (late : Bool) :
    RuntimePushRegistry → PresenceSession → Prop
  | acquired {p' : PresenceSession} : late = false → p.stage = .absent → p'.stage ≠ .absent →
      p'.stage.removed = false → Moves r p late r p'
  | quiet {p' : PresenceSession} : late = false → p.Keeps p' → Moves r p late r p'
  | updated {p' : PresenceSession} {next : Snapshot} {stage : UpdateStage} : p.stage ≠ .absent →
      p.Keeps p' → next.key = p.key →
      (late = true ↔ p.stage.removed = true ∧ stage = .create ∧ ¬r.Registered p.key p.sender) →
      Moves r p late (r.updateSection next p.generation p.sender p.acceptsPush stage).1 p'
  | removed {p' : PresenceSession} {stage : RemoveStage} : late = false → p.stage = .removing stage →
      p'.key = p.key → p'.sender = p.sender → p'.stage ≠ .absent →
      (p'.stage.removed = true ↔ (r.removeSection p.key p.sender stage).2 = none) →
      Moves r p late (r.removeSection p.key p.sender stage).1 p'

theorem Sound.of_unlocked {p : PresenceSession} {id : Nat} (hsnd : p.sender.id = id)
    (hsn : p.snapshot.key = p.key) (hno : p.outcome = none) : p.Sound id := by
  refine ⟨hsnd, hsn, fun hso => ?_, fun caller job next stage hso => ?_⟩
  · rw [hno] at hso
    cases hso
  · rw [hno] at hso
    cases hso

section

variable {p p' : PresenceSession} {r r' : RuntimePushRegistry} {id : Nat}

theorem Sound.acquire {snapshot : Snapshot} {generation : Int} {connectionID : UInt64}
    (hp : p.acquire id snapshot generation connectionID = some p') : p'.Sound id ∧ Moves r p false r p' := by
  unfold PresenceSession.acquire at hp
  split at hp
  next habs =>
    cases hp
    exact ⟨.of_unlocked rfl rfl rfl, .acquired rfl habs (nomatch ·) rfl⟩
  · cases hp

section

variable (h : p.Sound id)
include h

theorem Sound.construct (hp : p.construct r = some (r', p')) : p'.Sound id ∧ Moves r p false r' p' := by
  unfold PresenceSession.construct at hp
  split at hp
  next stage hst =>
    obtain ⟨rfl, rfl⟩ := Prod.mk.inj (some.inj hp)
    have hno : p.outcome = none := by
      cases hout : p.outcome with
      | none => rfl
      | some holder =>
        have hstd := h.started (by rw [hout]; rfl)
        rw [hst] at hstd
        cases hstd
    have hrem : p.stage.removed = false := by
      rw [hst]
      rfl
    have hpr : p.stage ≠ .absent := by
      rw [hst]
      exact SessionStage.noConfusion
    refine ⟨.of_unlocked h.sender h.snapshot hno, .updated hpr ⟨rfl, rfl, ⟨fun habs => ?_,
      fun habs => ?_⟩, (SessionStage.afterUpdate_removed _).trans hrem.symm⟩ h.snapshot ?_⟩
    · exact absurd habs (SessionStage.afterUpdate_present _)
    · exact absurd habs hpr
    · rw [hrem]
      exact ⟨(nomatch ·), (nomatch ·.1)⟩
  · cases hp

theorem Sound.same (hkey : p'.key = p.key) (hsnd : p'.sender = p.sender)
    (hsn : p'.snapshot.key = p.key) (hout : p'.outcome = p.outcome)
    (hst : p'.stage = p.stage) : p'.Sound id ∧ Moves r p false r p' := by
  refine ⟨⟨?_, ?_, ?_, ?_⟩, .quiet rfl ⟨hkey, hsnd, by rw [hst], by rw [hst]⟩⟩
  · rw [hsnd]
    exact h.sender
  · rw [hsn, hkey]
  · rw [hout, hst]
    exact h.started
  · rw [hout, hkey]
    exact h.updating

theorem Sound.advance (hkey : p'.key = p.key) (hsnd : p'.sender = p.sender)
    (hsn : p'.snapshot = p.snapshot) (hout : p'.outcome = p.outcome)
    (hstd : p'.stage.started = true) : p'.Sound id := by
  refine ⟨?_, ?_, fun _ => hstd, ?_⟩
  · rw [hsnd]
    exact h.sender
  · rw [hsn, hkey]
    exact h.snapshot
  · rw [hout, hkey]
    exact h.updating

theorem Sound.hold (hstd : p.stage.started = true) (caller : OutcomeCaller)
    (job : OutcomeJob) (phase : PresencePhase)
    (hph : ∀ next stage, phase = .updating next stage → next.key = p.key) :
    ({ p with outcome := some ⟨caller, job, phase⟩ } : PresenceSession).Sound id := by
  refine ⟨h.sender, h.snapshot, fun _ => hstd, fun caller' job' next stage hso => ?_⟩
  cases hso
  exact hph next stage rfl

theorem Sound.loadOutcome (hp : p.loadOutcome = some p') : p'.Sound id ∧ Moves r p false r p' := by
  unfold PresenceSession.loadOutcome at hp
  split at hp
  next caller job hout =>
    cases hp
    refine ⟨h.hold (h.started (by rw [hout]; rfl)) caller job _ (fun next stage hph => ?_),
      .quiet rfl ⟨rfl, rfl, Iff.rfl, rfl⟩⟩
    split at hph
    · cases hph
    · split at hph <;> cases hph
  · cases hp

theorem Sound.saveOutcome {stored : Bool} (hp : p.saveOutcome stored = some p') :
    p'.Sound id ∧ Moves r p false r p' := by
  unfold PresenceSession.saveOutcome at hp
  split at hp
  next caller job next hout =>
    have hstd := h.started (by rw [hout]; rfl)
    split at hp
    next hsav =>
      -- `Save` succeeded, so that `next` has the key of the lease.
      have hsn : ({ p with snapshot := next } : PresenceSession).Sound id :=
        ⟨h.sender, hsav.2.1, h.started, h.updating⟩
      have hupd : ({ p with snapshot := next, acceptsPush := next.pushSubscription } :
          PresenceSession).Sound id := ⟨h.sender, hsav.2.1, h.started, h.updating⟩
      split at hp
      · cases hp
        exact ⟨hsn.hold hstd _ _ _ (fun _ _ hph => nomatch hph), .quiet rfl ⟨rfl, rfl, Iff.rfl, rfl⟩⟩
      cases hp
      refine ⟨hupd.hold hstd _ _ _ (fun next' stage hph => ?_), .quiet rfl ⟨rfl, rfl, Iff.rfl, rfl⟩⟩
      cases hph
      exact hsav.2.1
    · cases hp
      exact ⟨h.hold hstd _ _ _ (fun _ _ hph => nomatch hph), .quiet rfl ⟨rfl, rfl, Iff.rfl, rfl⟩⟩
  · cases hp

theorem Sound.updateOutcome (hp : p.updateOutcome r = some (r', p')) :
    p'.Sound id ∧ Moves r p (p.lateCreation r .updateOutcome) r' p' := by
  unfold PresenceSession.updateOutcome at hp
  split at hp
  next caller job next stage hout =>
    obtain ⟨rfl, rfl⟩ := Prod.mk.inj (some.inj hp)
    have hkey := h.updating caller job next stage hout
    have hstd := h.started (by rw [hout]; rfl)
    have hpr : p.stage ≠ .absent := by
      intro habs
      rw [habs] at hstd
      cases hstd
    refine ⟨h.hold hstd caller job _ (fun next' stage' hph => ?_),
      .updated hpr ⟨rfl, rfl, Iff.rfl, rfl⟩ hkey ?_⟩
    · generalize (r.updateSection next p.generation p.sender p.acceptsPush stage).2 = after at hph
      cases after with
      | none => cases hph
      | some _ =>
        cases hph
        exact hkey
    · unfold lateCreation
      rw [hout, ← hkey]
      cases stage with
      | create => simp only [Bool.and_eq_true, isNone_iff_eq_none, find_eq_none, true_and]
      | find => simp only [Bool.false_eq_true, reduceCtorEq, false_and, and_false]
      | modify target => simp only [Bool.false_eq_true, reduceCtorEq, false_and, and_false]
  · cases hp

theorem Sound.unlockOutcome (hp : p.unlockOutcome = some p') : p'.Sound id ∧ Moves r p false r p' := by
  unfold PresenceSession.unlockOutcome at hp
  split at hp
  · cases hp; exact ⟨.of_unlocked h.sender h.snapshot rfl, .quiet rfl ⟨rfl, rfl, Iff.rfl, rfl⟩⟩
  · cases hp; exact ⟨.of_unlocked h.sender h.snapshot rfl, .quiet rfl ⟨rfl, rfl, Iff.rfl, rfl⟩⟩
  · cases hp

theorem Sound.remove (hp : p.remove r = some (r', p')) : p'.Sound id ∧ Moves r p false r' p' := by
  unfold PresenceSession.remove at hp
  split at hp
  next stage hst =>
    obtain ⟨rfl, rfl⟩ := Prod.mk.inj (some.inj hp)
    refine ⟨h.advance rfl rfl rfl rfl ?_, .removed rfl hst rfl rfl
      (afterRemove_present _) (afterRemove_removed _)⟩
    cases (r.removeSection p.key p.sender stage).2 <;> rfl
  · cases hp

theorem Sound.shutdownSteps (hp : p.shutdown = some p' ∨ p.cancelAll = some p' ∨ p.wait = some p') :
    p'.Sound id ∧ Moves r p false r p' := by
  rcases hp with hp | hp | hp
  · unfold shutdown at hp
    split at hp
    next hst =>
      cases hp
      refine ⟨h.advance rfl rfl rfl rfl rfl, .quiet rfl ⟨rfl, rfl, ?_, ?_⟩⟩
      · rw [hst]
        exact ⟨(nomatch ·), (nomatch ·)⟩
      · rw [hst]
        rfl
    · cases hp
  · unfold cancelAll at hp
    split at hp
    next hst =>
      cases hp
      refine ⟨h.advance rfl rfl rfl rfl rfl, .quiet rfl ⟨rfl, rfl, ?_, ?_⟩⟩
      · rw [hst]
        exact ⟨(nomatch ·), (nomatch ·)⟩
      · rw [hst]
        rfl
    · cases hp
  · unfold wait at hp
    split at hp
    next hst =>
      split at hp
      · cases hp
        refine ⟨h.advance rfl rfl rfl rfl rfl, .quiet rfl ⟨rfl, rfl, ?_, ?_⟩⟩
        · rw [hst]
          exact ⟨(nomatch ·), (nomatch ·)⟩
        · rw [hst]
          rfl
      · cases hp
    · cases hp

theorem Sound.step {action : PresenceAction} (hp : p.step r id action = some (r', p')) :
    p'.Sound id ∧ Moves r p (p.lateCreation r action) r' p' := by
  -- All but three actions leave the registry as it is.
  have hkp : ∀ {next : Option PresenceSession}, next.map (r, ·) = some (r', p') →
      next = some p' ∧ r = r' := by
    intro next hmap
    obtain ⟨q, hq, heq⟩ := map_eq_some_iff.mp hmap
    obtain ⟨rfl, rfl⟩ := Prod.mk.inj heq
    exact ⟨hq, rfl⟩
  cases action with
  | acquire snapshot generation connectionID =>
    obtain ⟨hq, rfl⟩ := hkp hp
    exact Sound.acquire hq
  | construct => exact h.construct hp
  | beginRequest request =>
    obtain ⟨hq, rfl⟩ := hkp hp
    unfold beginRequest at hq
    split at hq
    · cases hq
      exact h.same rfl rfl h.snapshot rfl rfl
    · cases hq
  | complete request =>
    obtain ⟨hq, rfl⟩ := hkp hp
    unfold complete at hq
    split at hq
    · cases hq
      exact h.same rfl rfl h.snapshot rfl rfl
    · cases hq
  | lockOutcome caller job =>
    obtain ⟨hq, rfl⟩ := hkp hp
    unfold lockOutcome at hq
    split at hq
    next hlc =>
      cases hq
      exact ⟨h.hold hlc.1 _ _ _ (fun _ _ hph => nomatch hph), .quiet rfl ⟨rfl, rfl, Iff.rfl, rfl⟩⟩
    · cases hq
  | loadOutcome =>
    obtain ⟨hq, rfl⟩ := hkp hp
    exact h.loadOutcome hq
  | saveOutcome stored =>
    obtain ⟨hq, rfl⟩ := hkp hp
    exact h.saveOutcome hq
  | updateOutcome => exact h.updateOutcome hp
  | unlockOutcome =>
    obtain ⟨hq, rfl⟩ := hkp hp
    exact h.unlockOutcome hq
  | save next =>
    obtain ⟨hq, rfl⟩ := hkp hp
    unfold save at hq
    split at hq
    next hsv =>
      cases hq
      exact h.same rfl rfl hsv.2.2 rfl rfl
    · cases hq
  | retire =>
    obtain ⟨hq, rfl⟩ := hkp hp
    unfold retire at hq
    split at hq
    · cases hq
    cases hq
    exact h.same rfl rfl h.snapshot rfl rfl
  | shutdown =>
    obtain ⟨hq, rfl⟩ := hkp hp
    exact h.shutdownSteps (.inl hq)
  | remove => exact h.remove hp
  | cancelAll =>
    obtain ⟨hq, rfl⟩ := hkp hp
    exact h.shutdownSteps (.inr (.inl hq))
  | wait =>
    obtain ⟨hq, rfl⟩ := hkp hp
    exact h.shutdownSteps (.inr (.inr hq))

end

variable {late : Bool}

section

variable (hmv : Moves r p late r' p')
include hmv

theorem Moves.indexed (h : r.Indexed) : r'.Indexed := by
  cases hmv with
  | acquired => exact h
  | quiet => exact h
  | updated => exact h.updateSection _
  | removed => exact h.removeSection _

theorem Moves.identity (hpr : p.stage ≠ .absent) :
    p'.sender = p.sender ∧ p'.key = p.key ∧ p'.stage ≠ .absent := by
  cases hmv with
  | acquired _ habs => exact absurd habs hpr
  | quiet _ hkp => exact ⟨hkp.sender, hkp.key, mt hkp.absent.mp hpr⟩
  | updated _ hkp => exact ⟨hkp.sender, hkp.key, mt hkp.absent.mp hpr⟩
  | removed _ _ hkey hsnd hpr' => exact ⟨hsnd, hkey, hpr'⟩

theorem Moves.registered_other (h : r.Indexed) {key : SessionKey}
    {sender : RequestSender} (hne : sender ≠ p.sender) :
    r'.Registered key sender ↔ r.Registered key sender := by
  cases hmv with
  | acquired => exact Iff.rfl
  | quiet => exact Iff.rfl
  | updated =>
    rw [h.registered_updateSection]
    exact ⟨fun hor => hor.resolve_right (fun hnew => hne hnew.2.2), .inl⟩
  | removed =>
    rw [h.registered_removeSection]
    exact ⟨And.left, fun hold => ⟨hold, fun hgn => hne hgn.2.2⟩⟩

theorem Moves.registered_own (h : r.Indexed) {key : SessionKey} (hnew : r'.Registered key p.sender) :
    r.Registered key p.sender ∨ (key = p.key ∧ p.stage ≠ .absent) := by
  cases hmv with
  | acquired => exact .inl hnew
  | quiet => exact .inl hnew
  | updated hpr _ hkey =>
    rcases (h.registered_updateSection _).mp hnew with hold | ⟨-, hkey', -⟩
    · exact .inl hold
    · exact .inr ⟨hkey'.trans hkey, hpr⟩
  | removed => exact .inl ((h.registered_removeSection _).mp hnew).1

/-- Only a late creation registers a session after `Remove`, and nothing takes that away. -/
theorem Moves.lingers_iff (h : r.Indexed) : (p'.stage.removed = true ∧ r'.Registered p'.key p'.sender) ↔
      (p.stage.removed = true ∧ r.Registered p.key p.sender) ∨ late = true := by
  cases hmv with
  | acquired hlt habs _ hrem =>
    rw [hrem, habs, hlt]
    exact ⟨(nomatch ·.1), fun hor => hor.elim (nomatch ·.1) (nomatch ·)⟩
  | quiet hlt hkp =>
    rw [hkp.key, hkp.sender, hkp.removed, hlt]
    exact ⟨.inl, fun hor => hor.resolve_right (nomatch ·)⟩
  | updated _ hkp hkey hlt =>
    rw [hkp.key, hkp.sender, hkp.removed, h.registered_updateSection, hkey, hlt]
    simp only [and_true]
    tauto
  | @removed _ stage hlt hst hkey hsnd _ hrem =>
    rw [hkey, hsnd, hrem, h.registered_removeSection, hlt, hst]
    refine ⟨fun hgn => absurd ⟨hgn.1, rfl, rfl⟩ hgn.2.2, fun hor => hor.elim ?_ (nomatch ·)⟩
    exact (nomatch ·.1)

end

end

end PresenceSession

namespace PresenceState

open PresenceSession

/-- The registrations belong to the sessions, under their own keys. -/
structure Sound (st : PresenceState) : Prop where
  indexed : st.registry.Indexed
  sessions : ∀ id, (st.sessions id).Sound id
  owned : ∀ key sender, st.registry.Registered key sender → (st.sessions sender.id).sender = sender ∧
    (st.sessions sender.id).key = key ∧ (st.sessions sender.id).stage ≠ .absent

/-- A session that is registered although `shutdown` has been through `Remove`. -/
def Lingers (st : PresenceState) (id : Nat) : Prop :=
  (st.sessions id).stage.removed = true ∧
    st.registry.Registered (st.sessions id).key (st.sessions id).sender

theorem sound_start (schemaLayer : Option Int) : (start schemaLayer).Sound where
  indexed := indexed_new schemaLayer
  sessions id := .of_unlocked rfl rfl rfl
  owned key sender h := by
    obtain ⟨target, hin, -⟩ := h
    cases hin

variable {op : PresenceOp} {st st' : PresenceState}

section

variable (h : st.Sound) (hst : st.step op = some st')
include h hst

theorem step_moves : ∃ p', p'.Sound op.session ∧
      Moves st.registry (st.sessions op.session) (st.lateCreation op) st'.registry p' ∧
      st'.sessions = Function.update st.sessions op.session p' := by
  obtain ⟨⟨r', p'⟩, hloc, rfl⟩ := map_eq_some_iff.mp hst
  obtain ⟨hsd, hmv⟩ := (h.sessions op.session).step hloc
  exact ⟨p', hsd, hmv, rfl⟩

theorem Sound.step : st'.Sound := by
  obtain ⟨p', hsd, hmv, hs⟩ := step_moves h hst
  refine ⟨hmv.indexed h.indexed, fun id => ?_, fun key sender hreg => ?_⟩
  · rw [hs]
    by_cases heq : id = op.session
    · rw [heq, update_self]
      exact hsd
    · rw [update_of_ne heq]
      exact h.sessions id
  · rw [hs]
    have hid := (h.sessions op.session).sender
    by_cases hsnd : sender = (st.sessions op.session).sender
    · subst hsnd
      rw [hid, update_self]
      have hold : (st.sessions op.session).key = key ∧ (st.sessions op.session).stage ≠ .absent := by
        rcases hmv.registered_own h.indexed hreg with hold | ⟨hkey, hpr⟩
        · have hown := h.owned _ _ hold
          rw [hid] at hown
          exact hown.2
        · exact ⟨hkey.symm, hpr⟩
      obtain ⟨hsnd', hkey', hpr'⟩ := hmv.identity hold.2
      exact ⟨hsnd', hkey'.trans hold.1, hpr'⟩
    · have hold := h.owned _ _ ((hmv.registered_other h.indexed hsnd).mp hreg)
      have hne : sender.id ≠ op.session := by
        intro heq
        rw [heq] at hold
        exact hsnd hold.1.symm
      rw [update_of_ne hne]
      exact hold

theorem Sound.lingers_step (id : Nat) :
    st'.Lingers id ↔ st.Lingers id ∨ (op.session = id ∧ st.lateCreation op = true) := by
  obtain ⟨p', -, hmv, hs⟩ := step_moves h hst
  unfold Lingers
  rw [hs]
  by_cases heq : op.session = id
  · subst heq
    rw [update_self, hmv.lingers_iff h.indexed]
    simp only [true_and]
  have hne : (st.sessions id).sender ≠ (st.sessions op.session).sender := by
    intro hsm
    apply heq
    rw [← (h.sessions id).sender, hsm, (h.sessions op.session).sender]
  rw [update_of_ne (Ne.symm heq), hmv.registered_other h.indexed hne]
  exact ⟨.inl, fun hor => hor.resolve_right (fun hlt => heq hlt.1)⟩

end

theorem lingers_iff {schemaLayer : Option Int} {ops : List PresenceOp}
    (run : exec PresenceState.step (start schemaLayer) ops = some st) (id : Nat) :
    ¬st.Lingers id ↔ Meets PresenceState.step
      (fun st op => op.session = id → st.lateCreation op = false) (start schemaLayer) ops := by
  constructor
  · intro hunm
    refine meets_of_unmarked (fun st => st.Lingers id) (fun _ _ _ h hst => h.step hst)
      (fun st op st' h hst hor => ?_) (sound_start schemaLayer) run hunm
    rw [h.lingers_step hst]
    rcases hor with hlt | hold
    · rw [Classical.not_imp, Bool.not_eq_false] at hlt
      exact .inr hlt
    · exact .inl hold
  · intro hmt
    have hinv : st.Sound ∧ ¬st.Lingers id := by
      apply exec_invariant ?_ ?_ hmt run
      · intro st op st' ⟨h, hnot⟩ hcd hst
        refine ⟨h.step hst, fun hlin => ?_⟩
        rcases (h.lingers_step hst id).mp hlin with hold | ⟨hid, hlt⟩
        · exact hnot hold
        · rw [hcd hid] at hlt
          cases hlt
      · exact ⟨sound_start schemaLayer, fun hlin => nomatch hlin.1⟩
    exact hinv.2

/-- After `shutdown` the sender is registered exactly if some `Update` entered it after `Remove`;
otherwise a user is reported only for a session that has not been through `Remove`. -/
theorem ended_session_registered_iff {schemaLayer : Option Int} {ops : List PresenceOp}
    {st : PresenceState} (run : exec PresenceState.step (start schemaLayer) ops = some st) :
    (∀ id, (st.sessions id).stage = .returned →
      ((∀ key, ¬st.registry.Registered key (st.sessions id).sender) ↔
        Meets PresenceState.step (fun st op => op.session = id → st.lateCreation op = false)
          (start schemaLayer) ops)) ∧
    (Meets PresenceState.step (fun st op => st.lateCreation op = false) (start schemaLayer) ops →
      ∀ userID, st.registry.hasActiveUser userID = true ∨ userID ∈ st.registry.activeUserIDs →
        ∃ id key target, target ∈ st.registry.registrations key ∧
          (st.registry.memory target).sender = (st.sessions id).sender ∧
          (st.registry.memory target).binding.userID = userID ∧ (st.sessions id).stage.removed = false) := by
  have hsd : st.Sound := by
    apply exec_inductive ?_ ?_ run
    · exact fun st op st' h hst => h.step hst
    · exact sound_start schemaLayer
  constructor
  · intro id hret
    rw [← lingers_iff run id]
    unfold Lingers
    rw [hret]
    constructor
    · exact fun hno hlin => hno _ hlin.2
    · intro hnot key hreg
      have hown := hsd.owned _ _ hreg
      rw [(hsd.sessions id).sender] at hown
      rw [← hown.2.1] at hreg
      exact hnot ⟨rfl, hreg⟩
  · intro hmt userID hact
    have hrch : ∃ key target, st.registry.Reaches userID key target := by
      rcases hact with hact | hact
      · exact (hsd.indexed.hasActiveUser_iff.mp hact).2
      · exact (hsd.indexed.mem_activeUserIDs.mp hact).2
    obtain ⟨key, target, hin, -, hus⟩ := hrch
    have hreg : st.registry.Registered key (st.registry.memory target).sender := ⟨target, hin, rfl⟩
    obtain ⟨hsnd, hkey, -⟩ := hsd.owned _ _ hreg
    refine ⟨_, key, target, hin, hsnd.symm, hus, ?_⟩
    rw [← Bool.not_eq_true]
    intro hrem
    apply (lingers_iff run (st.registry.memory target).sender.id).mpr
    · apply hmt.mono
      exact fun _ _ hcd _ => hcd
    · refine ⟨hrem, ?_⟩
      rw [hsnd, hkey]
      exact hreg

def subscribedLogin : List PresenceOp :=
  [⟨0, .acquire (.initial ⟨1, 8⟩ 7 0) 1 1⟩, ⟨0, .construct⟩, ⟨0, .construct⟩, ⟨0, .beginRequest 4⟩,
   ⟨0, .lockOutcome .reader .subscribeForPush⟩, ⟨0, .loadOutcome⟩, ⟨0, .saveOutcome true⟩,
   ⟨0, .updateOutcome⟩, ⟨0, .updateOutcome⟩, ⟨0, .unlockOutcome⟩,
   ⟨0, .lockOutcome (.request 4) (.applyMutations [.bindUser 42])⟩, ⟨0, .loadOutcome⟩,
   ⟨0, .saveOutcome true⟩]

def orderlyShutdown : List PresenceOp :=
  subscribedLogin ++ [⟨0, .updateOutcome⟩, ⟨0, .updateOutcome⟩, ⟨0, .unlockOutcome⟩,
    ⟨0, .complete 4⟩, ⟨0, .shutdown⟩, ⟨0, .remove⟩, ⟨0, .remove⟩, ⟨0, .cancelAll⟩, ⟨0, .wait⟩]

def racingShutdown : List PresenceOp :=
  subscribedLogin ++ [⟨0, .shutdown⟩, ⟨0, .remove⟩, ⟨0, .remove⟩, ⟨0, .updateOutcome⟩,
    ⟨0, .updateOutcome⟩, ⟨0, .unlockOutcome⟩, ⟨0, .cancelAll⟩, ⟨0, .complete 4⟩, ⟨0, .wait⟩]

theorem ended_session_registered_iff_orderly : ∃ st,
    exec PresenceState.step (start none) orderlyShutdown = some st ∧ (st.sessions 0).stage = .returned ∧
      ∀ key, ¬st.registry.Registered key (st.sessions 0).sender := by
  have hst : (exec step (start none) orderlyShutdown).map
      (fun st => (st.sessions 0).stage) = some .returned := by decide
  obtain ⟨st, hrun, hret⟩ := map_eq_some_iff.mp hst
  refine ⟨st, hrun, hret, ((ended_session_registered_iff hrun).1 0 hret).mpr ?_⟩
  decide

theorem ended_session_stays_registered : ∃ st,
    exec PresenceState.step (start none) racingShutdown = some st ∧
      (st.sessions 0).stage = .returned ∧ st.registry.Registered ⟨1, 8⟩ (st.sessions 0).sender ∧
      st.registry.hasActiveUser 42 = true ∧ st.registry.activeUserIDs = [42] := by
  have hend : (exec step (start none) racingShutdown).map (fun st =>
      ((st.sessions 0).stage, st.registry.findRuntimePushBinding ⟨1, 8⟩ (st.sessions 0).sender,
        st.registry.hasActiveUser 42, st.registry.activeUserIDs)) =
      some (.returned, some 1, true, [42]) := by decide +kernel
  obtain ⟨st, hrun, hvl⟩ := map_eq_some_iff.mp hend
  simp only [Prod.mk.injEq] at hvl
  obtain ⟨hret, hfd, hact, hids⟩ := hvl
  exact ⟨st, hrun, hret, ⟨1, find_eq_some hfd⟩, hact, hids⟩

end PresenceState

end Tlrpc
