import Tlrpc.BarrierTurns
import Tlrpc.PublishLocks
import Tlrpc.PushGate

namespace Tlrpc

open Function Option PushBarrierState PublishState PublishCall

namespace PublishCall

def holdsBinding (target : RegistrationRef) : PublishCall → Bool
  | .compare push => push.target = target
  | .pushing t | .unlockBinding t => t = target
  | .outcome _ _ (.modifying _ t) => t = target
  | _ => false

def isOutcome : PublishCall → Bool
  | .outcome _ _ _ => true
  | _ => false

def modifyTarget : PublishCall → Option RegistrationRef
  | .outcome _ _ (.updating _ (.modify target)) => some target
  | _ => none

def Fits : Option PublishCall → Option BarrierCall → Prop
  | some (.pushing _), b => ∃ call, b = some call ∧ call.isPush = true
  | some (.unlockBinding _), b | some .returned, b => b = none ∨ ∃ result, b = some (.returned result)
  | some (.barrier reply), b => ∃ call, b = some call ∧ (call.awaitsReply = true → reply.isSome = true)
  | some (.outcome _ true _), b => ∃ t, b = some (.finishReply t)
  | _, b => b = none

end PublishCall

namespace PublishState

structure Sound (s : PublishState) : Prop where
  tracked : ∃ g, s.push.Tracked g
  owned : s.push.Owned
  fits : ∀ c, PublishCall.Fits (s.calls c) (s.push.calls c)
  mu : ∀ c, s.mu = some c → ((∃ reply, s.calls c = some (.barrier reply)) ∨
    ∃ target, s.calls c = some (.pushing target)) ∧
    ∃ call, s.push.calls c = some call ∧ call.underMu = true
  binding : ∀ target c, s.bindingMu target = some c →
    ∃ call, s.calls c = some call ∧ call.holdsBinding target = true
  outcome : ∀ c, s.outcomeMu = some c ↔ ∃ call, s.calls c = some call ∧ call.isOutcome = true

def Clear (s : PublishState) : Prop :=
  ∀ target ∈ s.updateTarget, s.parked target = true → ∀ f t, s.push.calls f ≠ some (.finishReply t)

variable {result : Option BarrierError} {target : RegistrationRef}

section

variable {s s' : PublishState} {c : CallID} {call call' : PublishCall}

theorem Sound.change (h : s.Sound) (hcs : s'.calls = update s.calls c (some call'))
    (htra : ∃ g, s'.push.Tracked g) (hown : s'.push.Owned)
    (hps : ∀ d, d ≠ c → s'.push.calls d = s.push.calls d)
    (hft : PublishCall.Fits (some call') (s'.push.calls c))
    (hmu : ∀ d, s'.mu = some d → d ≠ c ∧ s.mu = some d ∨ d = c ∧
      ((∃ reply, call' = .barrier reply) ∨ ∃ target, call' = .pushing target) ∧
      ∃ call, s'.push.calls c = some call ∧ call.underMu = true)
    (hbn : ∀ target d, s'.bindingMu target = some d → d ≠ c ∧ s.bindingMu target = some d ∨
      d = c ∧ call'.holdsBinding target = true)
    (hout : ∀ d, s'.outcomeMu = some d ↔ d ≠ c ∧ s.outcomeMu = some d ∨
      d = c ∧ call'.isOutcome = true) : s'.Sound := by
  have hsf : s'.calls c = some call' := by rw [hcs, update_self]
  have hother : ∀ d, d ≠ c → s'.calls d = s.calls d := by
    intro d hne
    rw [hcs, update_of_ne hne]
  refine ⟨htra, hown, fun d => ?_, fun d hd => ?_, fun target d hd => ?_, fun d => ?_⟩
  · by_cases heq : d = c
    · subst heq
      rw [hsf]
      exact hft
    · rw [hother d heq, hps d heq]
      exact h.fits d
  · rcases hmu d hd with ⟨hne, hold⟩ | ⟨rfl, hkd, hund⟩
    · rw [hother d hne, hps d hne]
      exact h.mu d hold
    · refine ⟨?_, hund⟩
      rw [hsf]
      rcases hkd with ⟨reply, rfl⟩ | ⟨target, rfl⟩
      · exact .inl ⟨reply, rfl⟩
      · exact .inr ⟨target, rfl⟩
  · rcases hbn target d hd with ⟨hne, hold⟩ | ⟨rfl, hho⟩
    · rw [hother d hne]
      exact h.binding target d hold
    · exact ⟨call', hsf, hho⟩
  · rw [hout d]
    by_cases heq : d = c
    · subst heq
      rw [hsf]
      constructor
      · rintro (⟨hne, -⟩ | ⟨-, hcl⟩)
        · exact absurd rfl hne
        · exact ⟨call', rfl, hcl⟩
      · rintro ⟨call, hcl, hin⟩
        cases hcl
        exact .inr ⟨rfl, hin⟩
    · rw [hother d heq, ← h.outcome d]
      constructor
      · rintro (⟨-, hold⟩ | ⟨hsf, -⟩)
        · exact hold
        · exact absurd hsf heq
      · exact fun hold => .inl ⟨heq, hold⟩

theorem Sound.mu_other (h : s.Sound)
    (hout : (∀ reply, s.calls c ≠ some (.barrier reply)) ∧ (∀ target, s.calls c ≠ some (.pushing target)) ∨
      ∀ b, s.push.calls c = some b → b.underMu = false) : ∀ d, s.mu = some d → d ≠ c := by
  rintro d hd rfl
  obtain ⟨hkd, b, hb, hund⟩ := h.mu d hd
  rcases hout with ⟨hbar, hpus⟩ | hout
  · rcases hkd with ⟨reply, hkd⟩ | ⟨target, hkd⟩
    · exact hbar reply hkd
    · exact hpus target hkd
  · rw [hout b hb] at hund
    cases hund

variable {old : Option PublishCall} {target : RegistrationRef} {guarded : Bool} {task : OutcomeTask}

theorem Sound.binding_other (h : s.Sound) (hcl : s.calls c = old)
    (hkp : ∀ target, old.any (·.holdsBinding target) = true → call'.holdsBinding target = true) :
    ∀ target d, s.bindingMu target = some d → d ≠ c ∧ s.bindingMu target = some d ∨
      d = c ∧ call'.holdsBinding target = true := by
  intro target d hd
  by_cases heq : d = c
  · subst heq
    obtain ⟨call, hso, hho⟩ := h.binding target d hd
    refine .inr ⟨rfl, hkp target ?_⟩
    rw [← hcl, hso]
    exact hho
  · exact .inl ⟨heq, hd⟩

theorem Sound.outcome_other (h : s.Sound) (hcl : s.calls c = old)
    (hsm : old.any (·.isOutcome) = call'.isOutcome) : ∀ d, s.outcomeMu = some d ↔
      d ≠ c ∧ s.outcomeMu = some d ∨ d = c ∧ call'.isOutcome = true := by
  intro d
  by_cases heq : d = c
  · subst heq
    rw [h.outcome d, ← hsm, ← hcl, any_eq_true]
    constructor
    · exact fun hin => .inr ⟨rfl, hin⟩
    · rintro (⟨hne, -⟩ | ⟨-, hin⟩)
      · exact absurd rfl hne
      · exact hin
  · constructor
    · exact fun hold => .inl ⟨heq, hold⟩
    · rintro (⟨-, hold⟩ | ⟨hsf, -⟩)
      · exact hold
      · exact absurd hsf heq

theorem Sound.binding_lock (h : s.Sound) (hcl : s.calls c = old)
    (hno : ∀ target, old.any (·.holdsBinding target) = false) (hho : call'.holdsBinding target = true) :
    ∀ target' d, update s.bindingMu target (some c) target' = some d →
      d ≠ c ∧ s.bindingMu target' = some d ∨ d = c ∧ call'.holdsBinding target' = true := by
  intro target' d hd
  by_cases heq : target' = target
  · subst heq
    rw [update_self] at hd
    cases hd
    exact .inr ⟨rfl, hho⟩
  rw [update_of_ne heq] at hd
  refine h.binding_other hcl (fun target'' hin => ?_) target' d hd
  rw [hno target''] at hin
  cases hin

theorem Sound.binding_unlock (h : s.Sound) (hcl : s.calls c = some call)
    (hon : ∀ target', call.holdsBinding target' = true → target' = target) :
    ∀ target' d, update s.bindingMu target none target' = some d →
      d ≠ c ∧ s.bindingMu target' = some d ∨ d = c ∧ call'.holdsBinding target' = true := by
  intro target' d hd
  by_cases heq : target' = target
  · subst heq
    rw [update_self] at hd
    cases hd
  rw [update_of_ne heq] at hd
  refine .inl ⟨?_, hd⟩
  rintro rfl
  obtain ⟨old, hold, hho⟩ := h.binding target' d hd
  cases hcl.symm.trans hold
  exact heq (hon target' hho)

theorem Sound.outcome_lock (hin : call'.isOutcome = true) (hfr : s.outcomeMu = none) : ∀ d,
    some c = some d ↔ d ≠ c ∧ s.outcomeMu = some d ∨ d = c ∧ call'.isOutcome = true := by
  intro d
  rw [hfr]
  constructor
  · intro heq
    cases heq
    exact .inr ⟨rfl, hin⟩
  · rintro (⟨-, hold⟩ | ⟨rfl, -⟩)
    · cases hold
    · rfl

theorem Sound.outcome_unlock (h : s.Sound) (hcl : s.calls c = some call) (hin : call.isOutcome = true)
    (hout : call'.isOutcome = false) : ∀ d,
    none = some d ↔ d ≠ c ∧ s.outcomeMu = some d ∨ d = c ∧ call'.isOutcome = true := by
  intro d
  have hsf : s.outcomeMu = some c := (h.outcome c).mpr ⟨call, hcl, hin⟩
  constructor
  · intro heq
    cases heq
  · rintro (⟨hne, hold⟩ | ⟨-, htr⟩)
    · rw [hsf] at hold
      cases hold
      exact absurd rfl hne
    · rw [hout] at htr
      cases htr

theorem updateTarget_iff : s.updateTarget = some target ↔
    ∃ c call, s.outcomeMu = some c ∧ s.calls c = some call ∧ call.modifyTarget = some target := by
  unfold updateTarget
  constructor
  · intro h
    split at h
    next c hc =>
      split at h
      next hcl =>
        cases h
        exact ⟨c, _, hc, hcl, rfl⟩
      · cases h
    · cases h
  · rintro ⟨c, call, hc, hcl, hmod⟩
    rw [hc]
    dsimp only
    rw [hcl]
    unfold modifyTarget at hmod
    split at hmod
    · exact hmod
    · cases hmod

theorem parked_iff : s.parked target = true ↔
    ∃ c body, s.bindingMu target = some c ∧ s.push.calls c = some (.pushRLock body) := by
  unfold parked
  constructor
  · intro h
    split at h
    next c hc =>
      split at h
      next body hbd => exact ⟨c, body, hc, hbd⟩
      · cases h
    · cases h
  · rintro ⟨c, body, hc, hbd⟩
    rw [hc]
    dsimp only
    rw [hbd]

theorem Clear.change (hcle : s.Clear) (hcs : s'.calls = update s.calls c (some call'))
    (hout : ∀ d, d ≠ c → s'.outcomeMu = some d → s.outcomeMu = some d) (htgt : call'.modifyTarget = none)
    (hpar : ∀ target, s'.parked target = true → s.parked target = true)
    (hrp : ∀ f t, s'.push.calls f = some (.finishReply t) →
      ∃ f t, s.push.calls f = some (.finishReply t)) : s'.Clear := by
  intro target hin hpr f t hrep
  obtain ⟨d, call, hd, hcl, hmod⟩ := updateTarget_iff.mp hin
  by_cases heq : d = c
  · subst heq
    rw [hcs, update_self] at hcl
    cases hcl
    rw [htgt] at hmod
    cases hmod
  · rw [hcs, update_of_ne heq] at hcl
    obtain ⟨f', t', hold⟩ := hrp f t hrep
    refine hcle target ?_ (hpar target hpr) f' t' hold
    exact updateTarget_iff.mpr ⟨d, call, hout d heq hd, hcl, hmod⟩

structure Good (s : PublishState) : Prop where
  sound : s.Sound
  clear : s.Clear

theorem Good.shift (h : s.Good) (hcs : s'.calls = update s.calls c (some call')) (hps : s'.push = s.push)
    (hmu : s'.mu = s.mu) (hfr : ∀ d, s.mu = some d → d ≠ c)
    (hft : PublishCall.Fits (some call') (s.push.calls c))
    (hunp : ∀ body, ¬ PublishCall.Fits (some call') (some (.pushRLock body)))
    (hbn : ∀ target d, s'.bindingMu target = some d → d ≠ c ∧ s.bindingMu target = some d ∨
      d = c ∧ call'.holdsBinding target = true)
    (hout : ∀ d, s'.outcomeMu = some d ↔ d ≠ c ∧ s.outcomeMu = some d ∨
      d = c ∧ call'.isOutcome = true) (htgt : call'.modifyTarget = none) : s'.Good := by
  have hsd := h.sound
  refine ⟨?_, ?_⟩
  · refine hsd.change hcs ?_ ?_ (fun d _ => by rw [hps]) ?_ (fun d hd => ?_) hbn hout
    · rw [hps]
      exact hsd.tracked
    · rw [hps]
      exact hsd.owned
    · rw [hps]
      exact hft
    · rw [hmu] at hd
      exact .inl ⟨hfr d hd, hd⟩
  · refine h.clear.change hcs (fun d hne hd => ?_) htgt (fun target hpr => ?_) (fun f t hf => ?_)
    · rcases (hout d).mp hd with ⟨-, hold⟩ | ⟨heq, -⟩
      · exact hold
      · exact absurd heq hne
    · obtain ⟨d, body, hd, hbd⟩ := parked_iff.mp hpr
      rw [hps] at hbd
      rcases hbn target d hd with ⟨-, hold⟩ | ⟨rfl, -⟩
      · exact parked_iff.mpr ⟨d, body, hold, hbd⟩
      · rw [hbd] at hft
        exact absurd hft (hunp body)
    · rw [hps] at hf
      exact ⟨f, t, hf⟩

theorem not_fits_rlock {stage : OutcomeSection}
    (body : List UInt8) : ¬ PublishCall.Fits (some (.outcome task guarded stage)) (some (.pushRLock body)) := by
  cases guarded with
  | true =>
    rintro ⟨t, ht⟩
    cases ht
  | false =>
    intro h
    cases h

theorem fits_stage {stage stage' : OutcomeSection}
    {b : Option BarrierCall} (h : PublishCall.Fits (some (.outcome task guarded stage)) b) :
    PublishCall.Fits (some (.outcome task guarded stage')) b := by
  cases guarded <;> exact h

section

variable {f t : CallID} (h : s.Sound) (hf : s.push.calls f = some (.finishReply t))
include h hf

theorem Sound.replyHeld : s.replyHeld = true := by
  obtain ⟨g, hg⟩ := h.tracked
  have hwr : s.push.writer = some f := (hg.role (role_of_call hf)).1
  have hft := h.fits f
  rw [hf] at hft
  unfold PublishState.replyHeld
  rw [hwr]
  rw [Bool.or_eq_true, decide_eq_true_eq, decide_eq_true_eq]
  cases hcl : s.calls f with
  | none =>
    rw [hcl] at hft
    cases hft
  | some call =>
    rw [hcl] at hft
    cases call with
    | barrier reply =>
      obtain ⟨b, hb, hrp⟩ := hft
      cases hb
      obtain ⟨outcome, rfl⟩ := isSome_iff_exists.mp (hrp rfl)
      refine .inr ?_
      unfold wants
      rw [hcl]
      rw [hf]
    | outcome task guarded stage => exact .inl ((h.outcome f).mpr ⟨_, hcl, rfl⟩)
    | pushing target =>
      obtain ⟨b, hb, hps⟩ := hft
      cases hb
      cases hps
    | unlockBinding target | returned =>
      rcases hft with hno | ⟨result, hso⟩
      · cases hno
      · cases hso
    | _ => cases hft

theorem Sound.gated (hop : s.push.barrier.closed = false) : s.push.gated = true := by
  obtain ⟨g, hg⟩ := h.tracked
  have htok : t ∈ g.tokens := (hg.role (role_of_call hf)).2.1
  have hact := hg.agrees.active hop
  have hcr : 0 < g.tokens.card := Finset.card_pos.mpr ⟨t, htok⟩
  unfold PushBarrierState.gated
  rw [Bool.or_eq_true, decide_eq_true_eq]
  left
  omega

end

section

variable (h : s.Good)
include h

theorem Good.turn {b b' : BarrierCall} (hcl : s.calls c = some call)
    (hkd : (∃ reply, call = .barrier reply) ∨ ∃ target, call = .pushing target)
    (hb : s.push.calls c = some b) (htr : s.push.Turn c b b' s'.push)
    (htra : ∃ g, s'.push.Tracked g) (hcs : s'.calls = s.calls)
    (hbn : s'.bindingMu = s.bindingMu) (hout : s'.outcomeMu = s.outcomeMu)
    (hmu : ∀ d, s'.mu = some d → d ≠ c ∧ s.mu = some d)
    (happ : ∀ t, s.push.barrier.closed = false → b = .finishCheck t →
      ∀ target ∈ s.updateTarget, s.parked target = false) : s'.Good := by
  have hsd := h.sound
  have hcs' : s'.calls = update s.calls c (some call) := by
    rw [hcs, ← hcl, update_eq_self]
  have hsf : s'.push.calls c = some b' := by rw [htr.calls, update_self]
  have hother : ∀ d, d ≠ c → s'.push.calls d = s.push.calls d := by
    intro d hne
    rw [htr.calls, update_of_ne hne]
  have hcon := htr.continues
  unfold BarrierCall.continues at hcon
  rw [Bool.and_eq_true] at hcon
  refine ⟨?_, fun target hin hpr f t hf => ?_⟩
  · refine hsd.change hcs' htra (htr.owned hsd.owned) hother ?_
      (fun d hd => .inl (hmu d hd)) ?_ ?_
    · have hft := hsd.fits c
      rw [hcl, hb] at hft
      rw [hsf]
      rcases hkd with ⟨reply, rfl⟩ | ⟨target, rfl⟩
      · obtain ⟨_, heq, hrp⟩ := hft
        cases heq
        refine ⟨b', rfl, fun hawa => hrp ?_⟩
        have hbc := hcon.2
        rw [hawa] at hbc
        exact hbc
      · obtain ⟨_, heq, hps⟩ := hft
        cases heq
        refine ⟨b', rfl, ?_⟩
        have hfor := hcon.1
        rw [hps] at hfor
        exact hfor
    · rw [hbn]
      exact hsd.binding_other hcl (fun _ => id)
    · rw [hout]
      exact hsd.outcome_other hcl rfl
  · have htgt : s'.updateTarget = s.updateTarget := by
      unfold updateTarget
      rw [hcs, hout]
    rw [htgt] at hin
    obtain ⟨d, body, hd, hbd⟩ := parked_iff.mp hpr
    rw [hbn] at hd
    by_cases hdc : d = c
    · -- the publisher has just found the barrier open, so nothing replies
      subst hdc
      cases hsf.symm.trans hbd
      obtain ⟨hop, hfr⟩ := htr.parks body rfl
      have hne : f ≠ d := by
        rintro rfl
        cases hsf.symm.trans hf
      rw [hother f hne] at hf
      rw [hsd.gated hf hop] at hfr
      cases hfr
    · rw [hother d hdc] at hbd
      have hpr : s.parked target = true := parked_iff.mpr ⟨d, body, hd, hbd⟩
      by_cases hfc : f = c
      · subst hfc
        cases hsf.symm.trans hf
        obtain ⟨hop, hchk⟩ := htr.replies t rfl
        rw [happ t hop hchk target hin] at hpr
        cases hpr
      · rw [hother f hfc] at hf
        exact h.clear target hin hpr f t hf

theorem Good.barrierStep (hcl : s.calls c = some call)
    (hkd : (∃ reply, call = .barrier reply) ∨ ∃ target, call = .pushing target)
    (happ : ∀ t, s.mu = some c → s.push.barrier.closed = false →
      s.push.calls c = some (.finishCheck t) → ∀ target ∈ s.updateTarget, s.parked target = false)
    (hs : s.barrierStep c result = some s') : s'.Good := by
  unfold PublishState.barrierStep at hs
  split at hs
  next b hb =>
    have hadv : ∀ {push : PushBarrierState}, s.push.step (.advance c result) = some push →
        (∃ g, push.Tracked g) ∧ ∃ b', s.push.Turn c b b' push := by
      intro push hps
      refine ⟨PushBarrierState.step_tracked h.sound.tracked hps, ?_⟩
      dsimp only [PushBarrierState.step] at hps
      rw [hb] at hps
      exact PushBarrierState.run_turn h.sound.owned hb hps
    split at hs
    next hund =>
      split at hs
      next hmu =>
        obtain ⟨push, hps, rfl⟩ := map_eq_some_iff.mp hs
        obtain ⟨htra, b', htr⟩ := hadv hps
        refine h.turn hcl hkd hb htr htra rfl rfl rfl (fun d hd => by cases hd) ?_
        exact fun t hop hchk => happ t hmu hop (hchk ▸ hb)
      split at hs
      · cases hs
        refine ⟨?_, h.clear⟩
        have hsm : s.calls = update s.calls c (some call) := by
          rw [← hcl, update_eq_self]
        refine h.sound.change hsm h.sound.tracked h.sound.owned (fun _ _ => rfl) ?_
          (fun d hd => ?_) (h.sound.binding_other hcl (fun _ => id)) (h.sound.outcome_other hcl rfl)
        · rw [← hcl]
          exact h.sound.fits c
        · cases hd
          exact .inr ⟨rfl, hkd, b, hb, hund⟩
      · cases hs
    next hund =>
      obtain ⟨push, hps, rfl⟩ := map_eq_some_iff.mp hs
      obtain ⟨htra, b', htr⟩ := hadv hps
      have hout : b.underMu = false := Bool.eq_false_iff.mpr hund
      refine h.turn hcl hkd hb htr htra rfl rfl rfl (fun d hd => ⟨?_, hd⟩) (fun t _ hchk => ?_)
      · refine h.sound.mu_other (.inr fun b'' hb'' => ?_) d hd
        cases hb.symm.trans hb''
        exact hout
      · subst hchk
        cases hout
  · cases hs

theorem Good.enter {request : BarrierRequest}
    (hs : s.enter c request call' = some s') (hcl : s.calls c = old)
    (hkp : ∀ target, old.any (·.holdsBinding target) = true → call'.holdsBinding target = true)
    (hsm : old.any (·.isOutcome) = call'.isOutcome)
    (hft : ∀ first : BarrierCall, (∀ ctxErr body, request = .push ctxErr body → first.isPush = true) →
      (first.awaitsReply = true → ∃ t, request = .finish t) → PublishCall.Fits (some call') (some first))
    (htgt : call'.modifyTarget = none) : s'.Good := by
  obtain ⟨push, hps, rfl⟩ := map_eq_some_iff.mp hs
  obtain ⟨first, hent⟩ := step_enters hps
  have hsd := h.sound
  have hsf : push.calls c = some first := by
    rw [hent.goto]
    exact update_self c _ _
  have hother : ∀ d, d ≠ c → push.calls d = s.push.calls d := by
    intro d hne
    rw [hent.goto]
    exact update_of_ne hne _ _
  refine ⟨?_, ?_⟩
  · refine hsd.change rfl (step_tracked hsd.tracked hps)
      (hent.owned hsd.owned) hother ?_ (fun d hd => .inl ⟨?_, hd⟩)
      (hsd.binding_other hcl hkp) (hsd.outcome_other hcl hsm)
    · show PublishCall.Fits (some call') (push.calls c)
      rw [hsf]
      exact hft first hent.push hent.reply
    · refine hsd.mu_other (.inr fun b hb => ?_) d hd
      rw [hent.fresh] at hb
      cases hb
  · refine h.clear.change rfl (fun d _ hd => hd) htgt (fun target hpr => ?_) (fun f t hf => ?_)
    · obtain ⟨d, body, hd, hbd⟩ := parked_iff.mp hpr
      have hne : d ≠ c := by
        rintro rfl
        cases hsf.symm.trans hbd
        cases hent.critical
      exact parked_iff.mpr ⟨d, body, hd, (hother d hne).symm.trans hbd⟩
    · have hne : f ≠ c := by
        rintro rfl
        cases hsf.symm.trans hf
        cases hent.critical
      exact ⟨f, t, (hother f hne).symm.trans hf⟩

theorem Good.request {request : PublishRequest} (hfr : s.calls c = none)
    (hs : s.request c request = some s') : s'.Good := by
  have hno : s.push.calls c = none := by
    have hft := h.sound.fits c
    rw [hfr] at hft
    exact hft
  have hfe : ∀ d, s.mu = some d → d ≠ c := by
    refine h.sound.mu_other (.inr fun b hb => ?_)
    rw [hno] at hb
    cases hb
  cases request with
  | pushProjectedIfCurrent push =>
    obtain ⟨-, hs⟩ := ite_none_right_eq_some.mp hs
    cases hs
    refine h.shift rfl rfl rfl hfe hno (fun _ => nofun) ?_ (h.sound.outcome_other hfr rfl) rfl
    exact h.sound.binding_other hfr (fun _ hin => by cases hin)
  | subscribeForPush | applyOutcome outcome =>
    cases hs
    refine h.shift rfl rfl rfl hfe hno (fun _ => nofun) ?_ (h.sound.outcome_other hfr rfl) rfl
    exact h.sound.binding_other hfr (fun _ hin => by cases hin)
  | push ctxErr body | begin | cancel t | close cause =>
    refine h.enter hs hfr (fun _ hin => by cases hin) rfl (fun first _ hrp => ?_) rfl
    refine ⟨first, rfl, fun hawa => ?_⟩
    obtain ⟨t', heq⟩ := hrp hawa
    cases heq
  | finish t outcome =>
    refine h.enter hs hfr (fun _ hin => by cases hin) rfl (fun first _ _ => ?_) rfl
    exact ⟨first, rfl, fun _ => rfl⟩

theorem Good.lockBinding
    (hs : s.lockBinding c target call' = some s') (hcl : s.calls c = old) (hno : ∀ target, old.any (·.holdsBinding target) = false)
    (hho : call'.holdsBinding target = true) (hsm : old.any (·.isOutcome) = call'.isOutcome)
    (hfr : ∀ d, s.mu = some d → d ≠ c) (hft : PublishCall.Fits (some call') (s.push.calls c))
    (hunp : ∀ body, ¬ PublishCall.Fits (some call') (some (.pushRLock body)))
    (htgt : call'.modifyTarget = none) : s'.Good := by
  obtain ⟨-, hs⟩ := ite_none_right_eq_some.mp hs
  cases hs
  exact h.shift rfl rfl rfl hfr hft hunp (h.sound.binding_lock hcl hno hho)
    (h.sound.outcome_other hcl hsm) htgt

theorem Good.lockOutcome (hs : s.lockOutcome c task guarded = some s') (hcl : s.calls c = some call)
    (hno : ∀ target, call.holdsBinding target = false) (hfr : ∀ d, s.mu = some d → d ≠ c)
    (hft : PublishCall.Fits (some (.outcome task guarded .locked)) (s.push.calls c)) : s'.Good := by
  obtain ⟨hout, hs⟩ := ite_none_right_eq_some.mp hs
  cases hs
  refine h.shift rfl rfl rfl hfr hft not_fits_rlock ?_ (Sound.outcome_lock rfl hout) rfl
  refine h.sound.binding_other hcl (fun target hin => ?_)
  cases (hno target).symm.trans hin

end

section

variable {task : OutcomeTask} {guarded : Bool} {stage stage' : OutcomeSection}

section

variable (h : s.Good) (hcl : s.calls c = some (.outcome task guarded stage))
include h hcl

theorem Good.outcome_free : ∀ d, s.mu = some d → d ≠ c := by
  refine h.sound.mu_other (.inl ⟨fun _ heq => ?_, fun _ heq => ?_⟩)
  · cases hcl.symm.trans heq
  · cases hcl.symm.trans heq

theorem Good.outcome_fits : PublishCall.Fits (some (.outcome task guarded stage')) (s.push.calls c) := by
  have hft := h.sound.fits c
  rw [hcl] at hft
  exact fits_stage hft

theorem Good.outcome_shift (hcs : s'.calls = update s.calls c (some (.outcome task guarded stage')))
    (hloc : s'.push = s.push ∧ s'.mu = s.mu ∧ s'.bindingMu = s.bindingMu ∧ s'.outcomeMu = s.outcomeMu)
    (hno : ∀ target, PublishCall.holdsBinding target (.outcome task guarded stage) = false)
    (htgt : (PublishCall.outcome task guarded stage').modifyTarget = none) : s'.Good := by
  obtain ⟨hps, hmu, hbn, hout⟩ := hloc
  refine h.shift hcs hps hmu (h.outcome_free hcl) (h.outcome_fits hcl) not_fits_rlock ?_ ?_ htgt
  · rw [hbn]
    refine h.sound.binding_other hcl (fun target hin => ?_)
    cases (hno target).symm.trans hin
  · rw [hout]
    exact h.sound.outcome_other hcl rfl

end

theorem load_modifyTarget (s : PublishState) (task task' : OutcomeTask) (guarded : Bool) :
    (PublishCall.outcome task' guarded (s.load task)).modifyTarget = none := by
  have hmut : ∀ mutations, (outcome task' guarded (s.mutate mutations)).modifyTarget = none := by
    intro mutations
    unfold mutate
    split
    · split <;> rfl
    · rfl
  cases task with
  | applyOutcome outcome =>
    dsimp only [load]
    split
    · rfl
    split
    · rfl
    · exact hmut _
  | subscribeForPush =>
    dsimp only [load]
    split
    · rfl
    · exact hmut _

variable {next : Snapshot}

theorem Good.find (h : s.Good) (hcl : s.calls c = some (.outcome task guarded (.updating next .find)))
    (happ : s.parked target = true → s.replyHeld = false) :
    (s.goto c (.outcome task guarded (.updating next (.modify target)))).Good := by
  have hhl : s.outcomeMu = some c := (h.sound.outcome c).mpr ⟨_, hcl, rfl⟩
  refine ⟨?_, fun target' hin hpr f t hf => ?_⟩
  · refine h.sound.change rfl h.sound.tracked h.sound.owned (fun _ _ => rfl) (h.outcome_fits hcl)
      (fun d hd => .inl ⟨h.outcome_free hcl d hd, hd⟩) ?_ (h.sound.outcome_other hcl rfl)
    exact h.sound.binding_other hcl (fun _ hin => by cases hin)
  · obtain ⟨d, call, hd, hso, hmod⟩ := updateTarget_iff.mp hin
    cases hhl.symm.trans hd
    rw [show (s.goto c _).calls c = _ from update_self c _ _] at hso
    cases hso
    cases hmod
    have hpr : s.parked target = true := hpr
    rw [h.sound.replyHeld hf] at happ
    cases happ hpr

theorem Good.updateSection (h : s.Good) {update : UpdateStage}
    (hcl : s.calls c = some (.outcome task guarded (.updating next update)))
    (hnot : ∀ target, update ≠ .modify target)
    (happ : update = .find → ∀ target ∈ s.registry.findRuntimePushBinding next.key s.sender,
      s.parked target = true → s.replyHeld = false) : (s.updateSection c task guarded next update).Good := by
  unfold PublishState.updateSection
  cases update with
  | modify target => exact absurd rfl (hnot target)
  | find =>
    dsimp only [RuntimePushRegistry.updateSection]
    split
    · exact h.outcome_shift hcl rfl ⟨rfl, rfl, rfl, rfl⟩ (fun _ => rfl) rfl
    next target hfd => exact h.find hcl (happ rfl target hfd)
  | create =>
    dsimp only [RuntimePushRegistry.updateSection]
    split
    · exact h.outcome_shift hcl rfl ⟨rfl, rfl, rfl, rfl⟩ (fun _ => rfl) rfl
    · exact h.outcome_shift hcl rfl ⟨rfl, rfl, rfl, rfl⟩ (fun _ => rfl) rfl

theorem Good.modify (h : s.Good) (hcl : s.calls c = some (.outcome task guarded (.modifying next target))) :
    ((s.updateSection c task guarded next (.modify target)).unlockBinding target).Good := by
  have hst : ∀ (registry : RuntimePushRegistry) (stage' : OutcomeSection),
      (outcome task guarded stage').modifyTarget = none →
      (({ s with registry := registry }.goto c (.outcome task guarded stage')).unlockBinding target).Good := by
    intro registry stage' htgt
    refine h.shift rfl rfl rfl (h.outcome_free hcl) (h.outcome_fits hcl) not_fits_rlock ?_
      (h.sound.outcome_other hcl rfl) htgt
    refine h.sound.binding_unlock hcl (fun target' hin => ?_)
    exact (of_decide_eq_true hin).symm
  unfold PublishState.updateSection
  dsimp only [RuntimePushRegistry.updateSection]
  split
  · exact hst _ _ rfl
  · exact hst _ _ rfl

theorem Good.replied (h : s.Good) {err : Option BarrierError}
    (hcl : s.calls c = some (.outcome task true (.finished err)))
    (hs : ((s.push.step (.advance c result)).map fun push =>
      { { s with outcomeMu := none } with push := push }.goto c (.barrier none)) = some s') : s'.Good := by
  obtain ⟨push, hps, rfl⟩ := map_eq_some_iff.mp hs
  have hsd := h.sound
  obtain ⟨t, hrp⟩ : ∃ t, s.push.calls c = some (.finishReply t) := by
    have hft := hsd.fits c
    rw [hcl] at hft
    exact hft
  have hrun : some ((s.push.emit (.replied t)).goto c (.finishRelease t result)) = some push := by
    dsimp only [PushBarrierState.step] at hps
    rw [hrp] at hps
    exact hps
  have htr : s.push.Turn c (.finishReply t) (.finishRelease t result) push := by
    cases hrun
    exact .plain hsd.owned hrp rfl rfl rfl ⟨rfl, rfl⟩ rfl rfl
  have hsf : push.calls c = some (.finishRelease t result) := by
    rw [htr.calls, update_self]
  have hother : ∀ d, d ≠ c → push.calls d = s.push.calls d := by
    intro d hne
    rw [htr.calls, update_of_ne hne]
  refine ⟨?_, ?_⟩
  · refine hsd.change rfl (step_tracked hsd.tracked hps)
      (htr.owned hsd.owned) hother ?_ (fun d hd => .inl ⟨h.outcome_free hcl d hd, hd⟩) ?_
      (hsd.outcome_unlock hcl rfl rfl)
    · show PublishCall.Fits (some (.barrier none)) (push.calls c)
      rw [hsf]
      exact ⟨_, rfl, fun hawa => by cases hawa⟩
    · exact hsd.binding_other hcl (fun _ hin => by cases hin)
  · refine h.clear.change rfl (fun d _ hd => by cases hd) rfl (fun target hpr => ?_) (fun f t hf => ?_)
    · obtain ⟨d, body, hd, hbd⟩ := parked_iff.mp hpr
      have hne : d ≠ c := by
        rintro rfl
        cases hsf.symm.trans hbd
      exact parked_iff.mpr ⟨d, body, hd, (hother d hne).symm.trans hbd⟩
    · have hne : f ≠ c := by
        rintro rfl
        cases hsf.symm.trans hf
      exact ⟨f, t, (hother f hne).symm.trans hf⟩

theorem Good.outcomeStep (h : s.Good) {stored : Bool} (hcl : s.calls c = some (.outcome task guarded stage))
    (happ : ∀ next, stage = .updating next .find →
      ∀ target ∈ s.registry.findRuntimePushBinding next.key s.sender,
        s.parked target = true → s.replyHeld = false)
    (hs : s.outcomeStep c result stored task guarded stage = some s') : s'.Good := by
  cases stage with
  | locked =>
    cases hs
    exact h.outcome_shift hcl rfl ⟨rfl, rfl, rfl, rfl⟩ (fun _ => rfl) (load_modifyTarget s task task guarded)
  | loaded next =>
    dsimp only [outcomeStep] at hs
    split at hs
    · cases hs
      exact h.outcome_shift hcl rfl ⟨rfl, rfl, rfl, rfl⟩ (fun _ => rfl) rfl
    cases hs
    exact h.outcome_shift hcl rfl ⟨rfl, rfl, rfl, rfl⟩ (fun _ => rfl) rfl
  | updating next update =>
    cases update with
    | modify target =>
      refine h.lockBinding hs hcl (fun _ => rfl) ?_ rfl (h.outcome_free hcl) (h.outcome_fits hcl)
        not_fits_rlock rfl
      exact decide_eq_true rfl
    | find =>
      cases hs
      exact h.updateSection hcl (fun _ => UpdateStage.noConfusion) (fun _ => happ next rfl)
    | create =>
      cases hs
      exact h.updateSection hcl (fun _ => UpdateStage.noConfusion) (fun heq => by cases heq)
  | modifying next target =>
    cases hs
    exact h.modify hcl
  | finished err =>
    cases guarded with
    | true => exact h.replied hcl hs
    | false =>
      cases hs
      have hno : s.push.calls c = none := by
        have hft := h.sound.fits c
        rw [hcl] at hft
        exact hft
      refine h.shift rfl rfl rfl (h.outcome_free hcl) (.inl hno) ?_ ?_
        (h.sound.outcome_unlock hcl rfl rfl) rfl
      · rintro body (hbad | ⟨result, hbad⟩)
        · cases hbad
        · cases hbad
      · exact h.sound.binding_other hcl (fun _ hin => by cases hin)

end

theorem Good.run (h : s.Good) {stored : Bool}
    (hcl : s.calls c = some call) (happ : s.Apart (.advance c result stored))
    (hs : s.run c result stored call = some s') : s'.Good := by
  have hft := h.sound.fits c
  rw [hcl] at hft
  dsimp only [Apart] at happ
  rw [hcl] at happ
  cases call with
  | lockBinding push =>
    have hno : s.push.calls c = none := hft
    have hfr : ∀ d, s.mu = some d → d ≠ c := by
      refine h.sound.mu_other (.inr fun b hb => ?_)
      rw [hno] at hb
      cases hb
    refine h.lockBinding hs hcl (fun _ => rfl) ?_ rfl hfr hno (fun _ => nofun) rfl
    exact decide_eq_true rfl
  | compare push =>
    dsimp only [run, compare] at hs
    split at hs
    · refine h.enter hs hcl (fun _ hin => hin) rfl (fun first hps _ => ?_) rfl
      exact ⟨first, rfl, hps push.ctxErr push.body rfl⟩
    cases hs
    have hno : s.push.calls c = none := hft
    have hfr : ∀ d, s.mu = some d → d ≠ c := by
      refine h.sound.mu_other (.inr fun b hb => ?_)
      rw [hno] at hb
      cases hb
    refine h.shift rfl rfl rfl hfr (.inl hno) ?_ (h.sound.binding_other hcl (fun _ hin => hin))
      (h.sound.outcome_other hcl rfl) rfl
    rintro body (hbad | ⟨result, hbad⟩)
    · cases hbad
    · cases hbad
  | pushing target =>
    dsimp only [run] at hs
    split at hs
    next result' hret =>
      cases hs
      have hfr : ∀ d, s.mu = some d → d ≠ c := by
        refine h.sound.mu_other (.inr fun b hb => ?_)
        cases hret.symm.trans hb
        rfl
      refine h.shift rfl rfl rfl hfr (.inr ⟨result', hret⟩) ?_
        (h.sound.binding_other hcl (fun _ hin => hin)) (h.sound.outcome_other hcl rfl) rfl
      rintro body (hbad | ⟨result, hbad⟩)
      · cases hbad
      · cases hbad
    · refine h.barrierStep hcl (.inr ⟨target, rfl⟩) (fun t _ _ hchk => ?_) hs
      obtain ⟨b, hb, hps⟩ := hft
      cases hb.symm.trans hchk
      cases hps
  | unlockBinding target =>
    cases hs
    have hfr : ∀ d, s.mu = some d → d ≠ c := by
      refine h.sound.mu_other (.inl ⟨fun _ heq => ?_, fun _ heq => ?_⟩)
      · cases hcl.symm.trans heq
      · cases hcl.symm.trans heq
    refine h.shift rfl rfl rfl hfr hft ?_ ?_ (h.sound.outcome_other hcl rfl) rfl
    · rintro body (hbad | ⟨result, hbad⟩)
      · cases hbad
      · cases hbad
    · exact h.sound.binding_unlock hcl (fun target' hin => (of_decide_eq_true hin).symm)
  | barrier reply =>
    have hbar : s.barrierStep c result = some s' → s'.Good := by
      refine fun hs => h.barrierStep hcl (.inl ⟨reply, rfl⟩) (fun t hmu hop hchk => ?_) hs
      obtain ⟨b, hb, hrp⟩ := hft
      cases hb.symm.trans hchk
      obtain ⟨outcome, rfl⟩ := isSome_iff_exists.mp (hrp rfl)
      rw [hchk] at happ
      exact happ hmu hop
    dsimp only [run] at hs
    split at hs
    next outcome t hrp =>
      have hfr : ∀ d, s.mu = some d → d ≠ c := by
        refine h.sound.mu_other (.inr fun b hb => ?_)
        cases hrp.symm.trans hb
        rfl
      exact h.lockOutcome hs hcl (fun _ => rfl) hfr ⟨t, hrp⟩
    · exact hbar hs
  | lockOutcome task =>
    have hno : s.push.calls c = none := hft
    have hfr : ∀ d, s.mu = some d → d ≠ c := by
      refine h.sound.mu_other (.inr fun b hb => ?_)
      rw [hno] at hb
      cases hb
    exact h.lockOutcome hs hcl (fun _ => rfl) hfr hno
  | outcome task guarded stage =>
    refine h.outcomeStep hcl (fun next hst => ?_) hs
    subst hst
    exact happ
  | returned => cases hs

theorem Good.step (h : s.Good) {op : PublishOp} (happ : s.Apart op) (hs : s.step op = some s') :
    s'.Good := by
  cases op with
  | call c request =>
    dsimp only [PublishState.step] at hs
    split at hs
    next hfr => exact h.request hfr hs
    · cases hs
  | advance c result stored =>
    obtain ⟨call, hcl, hs⟩ := bind_eq_some_iff.mp hs
    exact h.run hcl happ hs
  | save next =>
    obtain ⟨-, hs⟩ := ite_none_right_eq_some.mp hs
    cases hs
    exact ⟨⟨h.sound.tracked, h.sound.owned, h.sound.fits, h.sound.mu, h.sound.binding, h.sound.outcome⟩,
      h.clear⟩
  | retire =>
    cases hs
    exact ⟨⟨h.sound.tracked, h.sound.owned, h.sound.fits, h.sound.mu, h.sound.binding, h.sound.outcome⟩,
      h.clear⟩

end

end PublishState

end Tlrpc
