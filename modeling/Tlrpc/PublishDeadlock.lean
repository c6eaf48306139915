import Tlrpc.PublishSteps

namespace Tlrpc

open Function PushBarrierState PublishState LockTable Option

namespace PublishState

section

variable {s s' : PublishState} {c : CallID}

/-- How long a chain of waiting calls can be from a call that waits for the lock. -/
def lockRank (s : PublishState) (c : CallID) : PushLock → Nat
  | .mu => 1
  | .binding target => if s.parked target then 5 else 2
  | .order => 4
  | .outcome => if s.push.writer = some c then 3 else 6

def rank (s : PublishState) (c : CallID) : Nat :=
  match s.wants c with
  | none => 0
  | some (lock, _) => s.lockRank c lock

theorem rank_of_none (h : s.wants c = none) : s.rank c = 0 := by
  unfold rank
  rw [h]

theorem rank_of_some {lock : PushLock} {mode : LockMode} (h : s.wants c = some (lock, mode)) :
    s.rank c = s.lockRank c lock := by
  unfold rank
  rw [h]

def Low (s : PublishState) (c : CallID) : Prop :=
  s.wants c = none ∨ s.wants c = some (.mu, .exclusive)

theorem Low.rank_le (h : s.Low c) : s.rank c ≤ 1 := by
  rcases h with h | h
  · rw [rank_of_none h]
    exact Nat.zero_le 1
  · rw [rank_of_some h]
    exact Nat.le_refl 1

variable {b : BarrierCall} {target : RegistrationRef} {t : CallID}

theorem barrierWants_low (hb : s.push.calls c = some b) (hord : b.wantsOrder = none) :
    s.barrierWants c = none ∨ s.barrierWants c = some (.mu, .exclusive) := by
  unfold barrierWants
  rw [hb]
  dsimp only
  rw [hord]
  split
  · split
    · exact .inl rfl
    · exact .inr rfl
  · exact .inl rfl

theorem low_of_barrierWants (hb : s.push.calls c = some b)
    (hord : b.wantsOrder = none) (hwt : s.wants c = none ∨ s.wants c = s.barrierWants c) : s.Low c := by
  unfold Low
  rcases hwt with hwt | hwt
  · exact .inl hwt
  · rw [hwt]
    exact barrierWants_low hb hord

theorem Sound.wants_in_barrier (h : s.Sound) (hb : s.push.calls c = some b)
    (hnot : ∀ t, b ≠ .finishReply t) : s.wants c = none ∨ s.wants c = s.barrierWants c := by
  have hft := h.fits c
  rw [hb] at hft
  unfold wants
  cases hcl : s.calls c with
  | none => exact .inl rfl
  | some call =>
    rw [hcl] at hft
    cases call with
    | lockBinding push | lockOutcome task => cases hft
    | compare push | unlockBinding target | returned => exact .inl rfl
    | pushing target => exact .inr rfl
    | barrier reply =>
      dsimp only
      split
      next hrp =>
        cases hb.symm.trans hrp
        exact absurd rfl (hnot _)
      · exact .inr rfl
    | outcome task guarded stage =>
      cases guarded with
      | true =>
        obtain ⟨t, ht⟩ := hft
        cases ht
        exact absurd rfl (hnot t)
      | false => cases hft

theorem Sound.low_mu (h : s.Sound) (hc : s.mu = some c) : s.wants c = none := by
  obtain ⟨-, b, hb, hund⟩ := h.mu c hc
  have hnot : ∀ t, b ≠ .finishReply t := by
    rintro t rfl
    cases hund
  rcases h.wants_in_barrier hb hnot with hwt | hwt
  · exact hwt
  rw [hwt]
  unfold barrierWants
  rw [hb]
  dsimp only
  rw [if_pos hund, if_pos hc]

theorem Sound.low_reader (h : s.Sound) (hc : c ∈ s.push.readers) : s.Low c := by
  obtain ⟨b, hb, hrds⟩ := h.owned.readers c hc
  have hnot : ∀ t, b ≠ .finishReply t := by
    rintro t rfl
    cases hrds
  refine low_of_barrierWants hb ?_ (h.wants_in_barrier hb hnot)
  cases b <;> first | rfl | cases hrds

theorem Sound.rank_binding (h : s.Sound) (hc : s.bindingMu target = some c) :
    s.rank c < if s.parked target then 5 else 2 := by
  have hlow : s.Low c → s.rank c < if s.parked target then 5 else 2 := by
    intro hlow
    have hle := hlow.rank_le
    split <;> omega
  obtain ⟨call, hcl, hho⟩ := h.binding target c hc
  have hft := h.fits c
  rw [hcl] at hft
  cases call with
  | compare push | unlockBinding target' =>
    refine hlow (.inl ?_)
    unfold wants
    rw [hcl]
  | pushing target' =>
    obtain ⟨b, hb, hps⟩ := hft
    have hnot : ∀ t, b ≠ .finishReply t := by
      rintro t rfl
      cases hps
    have hwt := h.wants_in_barrier hb hnot
    by_cases hrlo : ∃ body, b = .pushRLock body
    · obtain ⟨body, rfl⟩ := hrlo
      rw [if_pos (parked_iff.mpr ⟨c, body, hc, hb⟩)]
      rcases hwt with hwt | hwt
      · rw [rank_of_none hwt]
        exact Nat.zero_lt_succ 4
      have hord : s.barrierWants c = some (.order, .shared) := by
        unfold barrierWants
        rw [hb]
        rfl
      rw [rank_of_some (hwt.trans hord)]
      exact Nat.lt_succ_self 4
    · refine hlow (low_of_barrierWants hb ?_ hwt)
      cases b with
      | pushRLock body => exact absurd ⟨body, rfl⟩ hrlo
      | _ => first | rfl | cases hps
  | outcome task guarded stage =>
    cases stage with
    | modifying next target' =>
      refine hlow (.inl ?_)
      unfold wants
      rw [hcl]
    | _ => cases hho
  | _ => cases hho

theorem wants_of_modify {call : PublishCall} (hcl : s.calls c = some call)
    (hmod : call.modifyTarget = some target) : s.wants c = some (.binding target, .exclusive) := by
  unfold PublishCall.modifyTarget at hmod
  split at hmod
  · cases hmod
    unfold wants
    rw [hcl]
  · cases hmod

theorem Sound.wants_outcome (h : s.Sound) (hc : s.outcomeMu = some c) :
    s.wants c = none ∨ ∃ target, s.updateTarget = some target ∧
      s.wants c = some (.binding target, .exclusive) := by
  obtain ⟨call, hcl, hin⟩ := (h.outcome c).mp hc
  cases call with
  | outcome task guarded stage =>
    unfold updateTarget wants
    rw [hc]
    dsimp only
    rw [hcl]
    cases stage with
    | updating next update =>
      cases update with
      | modify target => exact .inr ⟨target, rfl, rfl⟩
      | _ => exact .inl rfl
    | _ => exact .inl rfl
  | _ => cases hin

theorem Sound.low_writer (h : s.Sound) (hc : s.push.writer = some c) :
    s.Low c ∨ ∃ t, s.push.calls c = some (.finishReply t) := by
  obtain ⟨b, hb, hwrs⟩ := h.owned.writer c hc
  by_cases hrp : ∃ t, b = .finishReply t
  · obtain ⟨t, rfl⟩ := hrp
    exact .inr ⟨t, hb⟩
  have hnot : ∀ t, b ≠ .finishReply t := fun t heq => hrp ⟨t, heq⟩
  refine .inl (low_of_barrierWants hb ?_ (h.wants_in_barrier hb hnot))
  cases b <;> first | rfl | cases hwrs

theorem Sound.wants_reply (h : s.Sound) (hc : s.push.calls c = some (.finishReply t)) :
    s.wants c = some (.outcome, .exclusive) ∨ s.outcomeMu = some c := by
  have hhl := h.replyHeld hc
  obtain ⟨g, hg⟩ := h.tracked
  have hwr : s.push.writer = some c := (hg.role (role_of_call hc)).1
  unfold PublishState.replyHeld at hhl
  rw [hwr] at hhl
  rw [Bool.or_eq_true, decide_eq_true_eq, decide_eq_true_eq] at hhl
  exact hhl.symm

theorem Good.rank_outcome (h : s.Good) (hc : s.outcomeMu = some c) :
    s.rank c ≤ 5 ∧ ∀ f t, s.push.calls f = some (.finishReply t) → s.rank c ≤ 2 := by
  rcases h.sound.wants_outcome hc with hno | ⟨target, htgt, hbn⟩
  · rw [rank_of_none hno]
    exact ⟨Nat.zero_le 5, fun _ _ _ => Nat.zero_le 2⟩
  rw [rank_of_some hbn]
  dsimp only [lockRank]
  refine ⟨?_, fun f t hrp => ?_⟩
  · split <;> omega
  · have hcle : ¬ s.parked target = true := fun hpr => h.clear target htgt hpr f t hrp
    rw [if_neg hcle]

theorem Good.rank_writer (h : s.Good) (hc : s.push.writer = some c) : s.rank c ≤ 3 := by
  rcases h.sound.low_writer hc with hlow | ⟨t, hrp⟩
  · have hle := hlow.rank_le
    omega
  rcases h.sound.wants_reply hrp with hout | hhl
  · rw [rank_of_some hout]
    dsimp only [lockRank]
    rw [if_pos hc]
  · have hle := (h.rank_outcome hhl).2 c t hrp
    omega

theorem Good.rank_lt (h : s.Good) {d : CallID} (hwai : s.locks.WaitsFor c d) : s.rank d < s.rank c := by
  obtain ⟨lock, mode, mode', hwt, hho, -⟩ := hwai
  have hwt : s.wants c = some (lock, mode) := hwt
  rw [rank_of_some hwt]
  cases lock with
  | mu =>
    cases mode' with
    | shared => cases hho
    | exclusive =>
      rw [rank_of_none (h.sound.low_mu hho)]
      exact Nat.zero_lt_one
  | binding target =>
    cases mode' with
    | shared => cases hho
    | exclusive => exact h.sound.rank_binding hho
  | order =>
    dsimp only [lockRank]
    cases mode' with
    | shared =>
      have hle := (h.sound.low_reader hho).rank_le
      omega
    | exclusive =>
      have hle := h.rank_writer hho
      omega
  | outcome =>
    dsimp only [lockRank]
    cases mode' with
    | shared => cases hho
    | exclusive =>
      obtain ⟨hle, hrep⟩ := h.rank_outcome hho
      split
      next hwr =>
        -- a writer that waits for `outcomeMu` is at its reply
        rcases h.sound.low_writer hwr with hlow | ⟨t, hrp⟩
        · have hone := hlow.rank_le
          rw [rank_of_some hwt] at hone
          dsimp only [lockRank] at hone
          rw [if_pos hwr] at hone
          omega
        · have htwo := hrep c t hrp
          omega
      · omega

theorem Good.not_deadlocked (h : s.Good) : ¬ s.locks.Deadlocked :=
  not_deadlocked_of_rank s.rank (fun _ _ hwai => h.rank_lt hwai)

theorem good_start (snapshot : Snapshot) (generation : Int) (sender : RequestSender)
    (registry : RuntimePushRegistry) (maxCount maxBytes : Int) :
    (start snapshot generation sender registry maxCount maxBytes).Good := by
  refine ⟨⟨⟨_, initial_tracked maxCount maxBytes⟩, ⟨?_, ?_⟩, fun _ => rfl, ?_, ?_, ?_⟩, ?_⟩
  · intro c hc
    cases hc
  · intro c hc
    cases hc
  · intro c hc
    cases hc
  · intro target c hc
    cases hc
  · intro c
    constructor
    · intro hc
      cases hc
    · rintro ⟨call, hcl, -⟩
      cases hcl
  · intro target hin
    cases hin

theorem Sound.parked_call (h : s.Sound) {body : List UInt8}
    (hc : s.bindingMu target = some c) (hbd : s.push.calls c = some (.pushRLock body)) :
    s.calls c = some (.pushing target) := by
  obtain ⟨call, hcl, hho⟩ := h.binding target c hc
  have hft := h.fits c
  rw [hcl, hbd] at hft
  cases call with
  | pushing target' => rw [hcl, of_decide_eq_true hho]
  | compare push => cases hft
  | unlockBinding target' =>
    rcases hft with hbad | ⟨result, hbad⟩
    · cases hbad
    · cases hbad
  | outcome task guarded stage => exact absurd hft (not_fits_rlock body)
  | _ => cases hho

theorem wants_parked {body : List UInt8}
    (hcl : s.calls c = some (.pushing target)) (hbd : s.push.calls c = some (.pushRLock body)) :
    s.wants c = some (.order, .shared) := by
  unfold wants
  rw [hcl]
  unfold barrierWants
  rw [hbd]
  rfl

theorem Sound.deadlocked_find (h : s.Sound) {task : OutcomeTask} {guarded : Bool} {next : Snapshot}
    (hcl : s.calls c = some (.outcome task guarded (.updating next .find)))
    (hpr : s.parked target = true) (hhl : s.replyHeld = true) :
    (s.goto c (.outcome task guarded (.updating next (.modify target)))).locks.Deadlocked := by
  obtain ⟨p, body, hp, hbd⟩ := parked_iff.mp hpr
  have hpus := h.parked_call hp hbd
  have hout : s.outcomeMu = some c := (h.outcome c).mpr ⟨_, hcl, rfl⟩
  have hpc : p ≠ c := by
    rintro rfl
    cases hcl.symm.trans hpus
  generalize hs' : s.goto c (.outcome task guarded (.updating next (.modify target))) = s'
  have hsf : s'.calls c = some (.outcome task guarded (.updating next (.modify target))) := by
    rw [← hs']
    exact update_self c _ _
  have hother : ∀ d, d ≠ c → s'.calls d = s.calls d := by
    intro d hne
    rw [← hs']
    exact update_of_ne hne _ _
  have hps : s'.push = s.push := by rw [← hs']; rfl
  have hwt : s'.wants c = some (.binding target, .exclusive) := wants_of_modify hsf rfl
  have hcp : s'.locks.WaitsFor c p := by
    refine ⟨.binding target, .exclusive, .exclusive, hwt, ?_, rfl⟩
    rw [← hs']
    exact hp
  unfold PublishState.replyHeld at hhl
  split at hhl
  next f hwr =>
    have hpf : s'.locks.WaitsFor p f := by
      refine ⟨.order, .shared, .exclusive, ?_, ?_, rfl⟩
      · exact wants_parked ((hother p hpc).trans hpus) (by rw [hps]; exact hbd)
      · show s'.push.writer = some f
        rw [hps]
        exact hwr
    by_cases hfc : f = c
    · subst hfc
      exact deadlocked_of_pair hcp hpf
    rw [Bool.or_eq_true, decide_eq_true_eq, decide_eq_true_eq] at hhl
    rcases hhl with hhl | hhl
    · cases hout.symm.trans hhl
      exact absurd rfl hfc
    refine deadlocked_of_triple hcp hpf ⟨.outcome, .exclusive, .exclusive, ?_, ?_, rfl⟩
    · show s'.wants f = _
      rw [← hhl]
      unfold wants barrierWants
      rw [hother f hfc, hps, ← hs']
      rfl
    · rw [← hs']
      exact hout
  · cases hhl

theorem Sound.deadlocked_check (h : s.Sound) {outcome : Outcome}
    (hcl : s.calls c = some (.barrier (some outcome))) (hchk : s.push.calls c = some (.finishCheck t))
    (htgt : s.updateTarget = some target) (hpr : s.parked target = true) :
    { s with push := s.push.goto c (.finishReply t), mu := none }.locks.Deadlocked := by
  obtain ⟨p, body, hp, hbd⟩ := parked_iff.mp hpr
  have hpus := h.parked_call hp hbd
  obtain ⟨u, call, hu, huca, hmod⟩ := updateTarget_iff.mp htgt
  obtain ⟨g, hg⟩ := h.tracked
  have hwr : s.push.writer = some c := (hg.role (role_of_call hchk)).1
  have hpc : p ≠ c := by
    rintro rfl
    cases hcl.symm.trans hpus
  have hcu : { s with push := s.push.goto c (.finishReply t), mu := none }.locks.WaitsFor c u := by
    refine ⟨.outcome, .exclusive, .exclusive, ?_, hu, rfl⟩
    have hrp : (s.push.goto c (.finishReply t)).calls c = some (.finishReply t) :=
      update_self c _ _
    show wants _ c = _
    unfold wants
    rw [hcl, hrp]
  have hup : { s with push := s.push.goto c (.finishReply t), mu := none }.locks.WaitsFor u p := by
    refine ⟨.binding target, .exclusive, .exclusive, ?_, hp, rfl⟩
    exact wants_of_modify huca hmod
  have hpc' : { s with push := s.push.goto c (.finishReply t), mu := none }.locks.WaitsFor p c := by
    have hbd' : (s.push.goto c (.finishReply t)).calls p = some (.pushRLock body) :=
      (update_of_ne hpc _ _).trans hbd
    exact ⟨.order, .shared, .exclusive, wants_parked hpus hbd', hwr, rfl⟩
  exact deadlocked_of_triple hcu hup hpc'

theorem barrierStep_finishCheck {result : Option BarrierError} (hmu : s.mu = some c)
    (hop : s.push.barrier.closed = false) (hchk : s.push.calls c = some (.finishCheck t)) :
    s.barrierStep c result = some { s with push := s.push.goto c (.finishReply t), mu := none } := by
  have hps : s.push.step (.advance c result) = some (s.push.goto c (.finishReply t)) := by
    dsimp only [PushBarrierState.step]
    rw [hchk]
    show some (s.push.finishCheck c t) = _
    unfold finishCheck
    rw [hop]
    rfl
  unfold barrierStep
  rw [hchk, hps]
  simp only [BarrierCall.underMu, hmu, if_true, map_some]

theorem Sound.deadlocked_step (h : s.Sound) {op : PublishOp} (hs : s.step op = some s')
    (hmt : ¬ s.Apart op) : s'.locks.Deadlocked := by
  cases op with
  | advance c result stored =>
    obtain ⟨call, hcl, hs⟩ := bind_eq_some_iff.mp hs
    dsimp only [Apart] at hmt
    split at hmt
    next task guarded next hfn =>
      cases hcl.symm.trans hfn
      obtain ⟨target, hmt⟩ := not_forall.mp hmt
      obtain ⟨hfd, hmt⟩ := Classical.not_imp.mp hmt
      obtain ⟨hpr, hhl⟩ := Classical.not_imp.mp hmt
      have hs' : s' = s.goto c (.outcome task guarded (.updating next (.modify target))) := by
        cases hs
        unfold PublishState.updateSection
        dsimp only [RuntimePushRegistry.updateSection]
        rw [mem_def.mp hfd]
        rfl
      rw [hs']
      exact h.deadlocked_find hcl hpr (Bool.not_eq_false _ ▸ hhl)
    next outcome t hbar hchk =>
      cases hcl.symm.trans hbar
      obtain ⟨hmu, hmt⟩ := Classical.not_imp.mp hmt
      obtain ⟨hop, hmt⟩ := Classical.not_imp.mp hmt
      obtain ⟨target, hmt⟩ := not_forall.mp hmt
      obtain ⟨htgt, hpr⟩ := Classical.not_imp.mp hmt
      have hs' : s' = { s with push := s.push.goto c (.finishReply t), mu := none } := by
        dsimp only [run] at hs
        rw [hchk] at hs
        exact (some.inj ((barrierStep_finishCheck hmu hop hchk).symm.trans hs)).symm
      rw [hs']
      exact h.deadlocked_check hcl hchk htgt (Bool.not_eq_false _ ▸ hpr)
    · exact absurd trivial hmt
  | _ => exact absurd trivial hmt

end

instance (s : PublishState) (op : PublishOp) : Decidable (s.Apart op) := by
  unfold Apart
  split
  · split <;> infer_instance
  · infer_instance

/-- As long as an `Update` of a registration whose publisher is on its way to `orderMu` and a
`finish` that holds `orderMu` for its reply are kept apart, no calls wait for each other in a
circle. The first step at which they meet closes one. -/
theorem push_and_reply_deadlock_iff (snapshot : Snapshot) (generation : Int) (sender : RequestSender)
    (registry : RuntimePushRegistry) (maxCount maxBytes : Int) (ops : List PublishOp) (s : PublishState)
    (hmeets : Meets step Apart (start snapshot generation sender registry maxCount maxBytes) ops)
    (hrun : exec step (start snapshot generation sender registry maxCount maxBytes) ops = some s) :
    ¬ s.locks.Deadlocked ∧ ∀ op s', s.step op = some s' → (s'.locks.Deadlocked ↔ ¬ s.Apart op) := by
  have hgd : s.Good := by
    apply exec_invariant ?_ ?_ hmeets hrun
    · exact fun _ _ _ hgd happ hs => hgd.step happ hs
    · exact good_start snapshot generation sender registry maxCount maxBytes
  refine ⟨hgd.not_deadlocked, fun op s' hs => ⟨fun hd happ => ?_, fun hmt => ?_⟩⟩
  · exact (hgd.step happ hs).not_deadlocked hd
  · exact hgd.sound.deadlocked_step hs hmt

def subscriber : Snapshot :=
  { Snapshot.initial ⟨1, 8⟩ 0 0 with userID := 9, pushSubscription := true }

def subscribed : PublishState :=
  start subscriber 1 ⟨0, 5⟩ ((newRuntimePushRegistry (some 7)).updateSection subscriber 1 ⟨0, 5⟩ true .create).1
    4 100

/-- A publisher has found the barrier open, and a reply is going to change the user. -/
def replyWhileParked : List PublishOp :=
  let publish : ProjectedPush := ⟨0, subscribed.registry.bindingOf subscriber 1 ⟨0, 5⟩, none, [1, 2, 3, 4]⟩
  .call 0 (.pushProjectedIfCurrent publish) :: List.replicate 4 (.advance 0 none true) ++
    .call 1 .begin :: List.replicate 4 (.advance 1 none true) ++
    .call 2 (.finish 1 ⟨[], [.bindUser 10], none⟩) :: List.replicate 7 (.advance 2 none true)

theorem push_and_reply_deadlock_iff_parked : Meets step Apart subscribed replyWhileParked ∧
    ∃ s, exec step subscribed replyWhileParked = some s ∧ s.parked 0 = true ∧ s.replyHeld = true ∧
      ¬ s.locks.Deadlocked := by
  have hmt : Meets step Apart subscribed replyWhileParked := by decide +kernel
  have hvl : (exec step subscribed replyWhileParked).map (fun s => (s.parked 0, s.replyHeld)) =
      some (true, true) := by
    decide +kernel
  obtain ⟨s, hrun, hvl⟩ := map_eq_some_iff.mp hvl
  simp only [Prod.mk.injEq] at hvl
  have hfr := (push_and_reply_deadlock_iff subscriber 1 ⟨0, 5⟩ _ 4 100 replyWhileParked s hmt hrun).1
  exact ⟨hmt, s, hrun, hvl.1, hvl.2, hfr⟩

/-- The reply waits for the registration that the publisher holds, the publisher for the reply's
`orderMu`. -/
theorem publisher_and_reply_deadlock :
    ∃ s, exec step subscribed (replyWhileParked ++ [.advance 2 none true]) = some s ∧
      s.locks.Deadlocked := by
  have hvl : (exec step subscribed (replyWhileParked ++ [.advance 2 none true])).map (fun s =>
      (s.wants 0, s.wants 2, s.bindingMu 0, s.push.writer)) =
      some (some (.order, .shared), some (.binding 0, .exclusive), some 0, some 2) := by
    decide +kernel
  obtain ⟨s, hrun, hvl⟩ := map_eq_some_iff.mp hvl
  simp only [Prod.mk.injEq] at hvl
  obtain ⟨hpub, hrp, hbn, hwr⟩ := hvl
  have hfor : s.locks.WaitsFor 0 2 := ⟨.order, .shared, .exclusive, hpub, hwr, rfl⟩
  have hbc : s.locks.WaitsFor 2 0 := ⟨.binding 0, .exclusive, .exclusive, hrp, hbn, rfl⟩
  exact ⟨s, hrun, deadlocked_of_pair hfor hbc⟩

end PublishState

end Tlrpc
