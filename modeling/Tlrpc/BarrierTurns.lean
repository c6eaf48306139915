import Tlrpc.PushBarrier

namespace Tlrpc

open Function Option BarrierCall

namespace BarrierCall

def writes : BarrierCall → Bool
  | .beginActivate | .beginUnlock | .finishCheck _ | .finishReply _ | .finishRelease _ _ | .drain _
  | .drainSubmit _ _ | .drainSubmitting _ _ | .drainFail _ _ | .abortClose _ | .onceUnlock _ _ _
  | .closeClose _ | .closeUnlock => true
  | _ => false

def reads : BarrierCall → Bool
  | .pushRecheck _ | .pushSubmit _ | .pushSubmitting | .pushRUnlock _ _ => true
  | _ => false

def isPush : BarrierCall → Bool
  | .pushCheck _ | .pushRLock _ | .pushRecheck _ | .pushSubmit _ | .pushSubmitting | .pushRUnlock _ _
  | .retireOverflow _ | .returned _ => true
  | _ => false

def awaitsReply : BarrierCall → Bool
  | .finishOnce _ | .finishLock _ | .finishCheck _ | .finishReply _ => true
  | _ => false

def critical : BarrierCall → Bool
  | .pushRLock _ | .finishReply _ => true
  | _ => false

def continues (call call' : BarrierCall) : Bool :=
  (!call.isPush || call'.isPush) && (!call'.awaitsReply || call.awaitsReply)

end BarrierCall

namespace PushBarrierState

structure Owned (s : PushBarrierState) : Prop where
  writer : ∀ c, s.writer = some c → ∃ call, s.calls c = some call ∧ call.writes = true
  readers : ∀ c ∈ s.readers, ∃ call, s.calls c = some call ∧ call.reads = true

structure Turn (s : PushBarrierState) (c : CallID) (call call' : BarrierCall) (s' : PushBarrierState) :
    Prop where
  calls : s'.calls = Function.update s.calls c (some call')
  writer : ∀ d, s'.writer = some d → d = c ∧ call'.writes = true ∨ d ≠ c ∧ s.writer = some d
  readers : ∀ d ∈ s'.readers, d = c ∧ call'.reads = true ∨ d ≠ c ∧ d ∈ s.readers
  continues : call.continues call' = true
  parks : ∀ body, call' = .pushRLock body → s.barrier.closed = false ∧ s.gated = false
  replies : ∀ t, call' = .finishReply t → s.barrier.closed = false ∧ call = .finishCheck t

variable {result : Option BarrierError} {request : BarrierRequest}

section

variable {s s' : PushBarrierState} {c : CallID} {call call' : BarrierCall}

theorem Owned.writer_call (h : s.Owned) (hcl : s.calls c = some call) (hw : s.writer = some c) :
    call.writes = true := by
  obtain ⟨call', hcl', hwrs⟩ := h.writer c hw
  cases hcl.symm.trans hcl'
  exact hwrs

theorem Owned.readers_call (h : s.Owned) (hcl : s.calls c = some call) (hr : c ∈ s.readers) :
    call.reads = true := by
  obtain ⟨call', hcl', hrds⟩ := h.readers c hr
  cases hcl.symm.trans hcl'
  exact hrds

theorem parks_of_not_critical (h : call'.critical = false) :
    ∀ body, call' = .pushRLock body → s.barrier.closed = false ∧ s.gated = false := by
  rintro body rfl
  cases h

theorem replies_of_not_critical (h : call'.critical = false) :
    ∀ t, call' = .finishReply t → s.barrier.closed = false ∧ call = .finishCheck t := by
  rintro t rfl
  cases h

section

variable (h : s.Owned) (hcl : s.calls c = some call)
include h hcl

theorem Turn.keep (hcs : s'.calls = update s.calls c (some call')) (hwr : s'.writer = s.writer)
    (hrea : s'.readers = s.readers)
    (hsm : (!call.writes || call'.writes) = true ∧ (!call.reads || call'.reads) = true)
    (hcon : call.continues call' = true)
    (hpar : ∀ body, call' = .pushRLock body → s.barrier.closed = false ∧ s.gated = false)
    (hrp : ∀ t, call' = .finishReply t → s.barrier.closed = false ∧ call = .finishCheck t) :
    Turn s c call call' s' := by
  refine ⟨hcs, fun d hd => ?_, fun d hd => ?_, hcon, hpar, hrp⟩
  · rw [hwr] at hd
    by_cases heq : d = c
    · subst heq
      have hwrs := h.writer_call hcl hd
      have hsm := hsm.1
      rw [hwrs] at hsm
      exact .inl ⟨rfl, hsm⟩
    · exact .inr ⟨heq, hd⟩
  · rw [hrea] at hd
    by_cases heq : d = c
    · subst heq
      have hrds := h.readers_call hcl hd
      have hsm := hsm.2
      rw [hrds] at hsm
      exact .inl ⟨rfl, hsm⟩
    · exact .inr ⟨heq, hd⟩

theorem Turn.plain (hcs : s'.calls = update s.calls c (some call')) (hwr : s'.writer = s.writer)
    (hrea : s'.readers = s.readers)
    (hsm : (!call.writes || call'.writes) = true ∧ (!call.reads || call'.reads) = true)
    (hcon : call.continues call' = true) (hcr : call'.critical = false) : Turn s c call call' s' :=
  .keep h hcl hcs hwr hrea hsm hcon (parks_of_not_critical hcr)
    (replies_of_not_critical hcr)

theorem turn_lock (hs : s.lock c call' = some s') (hwrs : call'.writes = true) (hrds : call.reads = false)
    (hcon : call.continues call' = true) (hcr : call'.critical = false) : Turn s c call call' s' := by
  obtain ⟨-, hs⟩ := ite_none_right_eq_some.mp hs
  cases hs
  refine ⟨rfl, fun d hd => ?_, fun d hd => .inr ⟨?_, hd⟩, hcon,
    parks_of_not_critical hcr, replies_of_not_critical hcr⟩
  · cases hd
    exact .inl ⟨rfl, hwrs⟩
  · rintro rfl
    rw [h.readers_call hcl hd] at hrds
    cases hrds

theorem turn_unlock (hrds : call.reads = false)
    (hcon : call.continues call' = true) (hcr : call'.critical = false) :
    Turn s c call call' (s.unlock c call') := by
  refine ⟨rfl, fun d hd => ?_, fun d hd => .inr ⟨?_, hd⟩, hcon,
    parks_of_not_critical hcr, replies_of_not_critical hcr⟩
  · cases hd
  · rintro rfl
    rw [h.readers_call hcl hd] at hrds
    cases hrds

end

variable {t : CallID} {body : List UInt8}

theorem turn_once {next : BarrierCall} (h : s.Owned) (hcl : s.calls c = some call)
    (hs : s.once c t next = some s') (hfst : call.writes = false ∧ call.reads = false)
    (hps : call.isPush = false) (hrp : (!next.awaitsReply || call.awaitsReply) = true)
    (hcr : next.critical = false) : ∃ call', Turn s c call call' s' := by
  have hsm : ∀ call' : BarrierCall, (!call.writes || call'.writes) = true ∧
      (!call.reads || call'.reads) = true := by
    intro call'
    rw [hfst.1, hfst.2]
    exact ⟨rfl, rfl⟩
  obtain ⟨⟨once, done⟩, -, hs⟩ := bind_eq_some_iff.mp hs
  cases once with
  | none =>
    cases hs
    refine ⟨next, .plain h hcl rfl rfl rfl (hsm next) ?_ hcr⟩
    unfold continues
    rw [hps, hrp]
    rfl
  | some _ =>
    obtain ⟨-, hs⟩ := ite_none_right_eq_some.mp hs
    cases hs
    refine ⟨.returned none, .plain h hcl rfl rfl rfl (hsm _) ?_ rfl⟩
    unfold continues
    rw [hps]
    rfl

theorem close_fields (s : PushBarrierState) (cause : Option BarrierError) :
    (s.close cause).calls = s.calls ∧ (s.close cause).writer = s.writer ∧
      (s.close cause).readers = s.readers := by
  unfold close
  split
  · exact ⟨rfl, rfl, rfl⟩
  · exact ⟨rfl, rfl, rfl⟩

theorem enqueue_fields (s : PushBarrierState) (c : CallID) (body : List UInt8) :
    (s.enqueue c body).1.calls = s.calls ∧ (s.enqueue c body).1.writer = s.writer ∧
      (s.enqueue c body).1.readers = s.readers := by
  unfold enqueue
  split
  · exact ⟨rfl, rfl, rfl⟩
  split
  · exact ⟨rfl, rfl, rfl⟩
  · exact ⟨rfl, rfl, rfl⟩

section

variable (h : s.Owned)
include h

theorem Turn.after {mid : PushBarrierState} (hcl : s.calls c = some call)
    (hmid : mid.calls = s.calls ∧ mid.writer = s.writer ∧ mid.readers = s.readers)
    (hsm : (!call.writes || call'.writes) = true ∧ (!call.reads || call'.reads) = true)
    (hcon : call.continues call' = true) (hcr : call'.critical = false) :
    Turn s c call call' (mid.goto c call') := by
  obtain ⟨hcs, hwr, hrea⟩ := hmid
  refine .plain h hcl ?_ hwr hrea hsm hcon hcr
  show update mid.calls c _ = _
  rw [hcs]

theorem turn_pushCheck (hcl : s.calls c = some (.pushCheck body)) :
    ∃ call', Turn s c (.pushCheck body) call' (s.pushCheck c body) := by
  unfold pushCheck
  split
  · exact ⟨_, .plain h hcl rfl rfl rfl ⟨rfl, rfl⟩ rfl rfl⟩
  rename_i hop
  split
  · exact ⟨_, .after h hcl (enqueue_fields s c body) ⟨rfl, rfl⟩ rfl rfl⟩
  rename_i hfr
  refine ⟨.pushRLock body, .keep h hcl rfl rfl rfl ⟨rfl, rfl⟩ rfl (fun _ _ => ⟨?_, ?_⟩) ?_⟩
  · exact Bool.eq_false_iff.mpr hop
  · exact Bool.eq_false_iff.mpr hfr
  · exact fun _ => BarrierCall.noConfusion

theorem turn_pushRecheck (hcl : s.calls c = some (.pushRecheck body)) :
    ∃ call', Turn s c (.pushRecheck body) call' (s.pushRecheck c body) := by
  unfold pushRecheck
  split
  · exact ⟨_, .plain h hcl rfl rfl rfl ⟨rfl, rfl⟩ rfl rfl⟩
  split
  · exact ⟨_, .after h hcl (enqueue_fields s c body) ⟨rfl, rfl⟩ rfl rfl⟩
  · exact ⟨_, .plain h hcl rfl rfl rfl ⟨rfl, rfl⟩ rfl rfl⟩

theorem turn_finishCheck (hcl : s.calls c = some (.finishCheck t)) :
    ∃ call', Turn s c (.finishCheck t) call' (s.finishCheck c t) := by
  unfold finishCheck
  split
  · exact ⟨_, .plain h hcl rfl rfl rfl ⟨rfl, rfl⟩ rfl rfl⟩
  rename_i hop
  refine ⟨.finishReply t, .keep h hcl rfl rfl rfl ⟨rfl, rfl⟩ rfl ?_ (fun t' heq => ⟨?_, ?_⟩)⟩
  · exact fun _ => BarrierCall.noConfusion
  · exact Bool.eq_false_iff.mpr hop
  · cases heq
    rfl

theorem turn_finishRelease {replyErr : Option BarrierError}
    (hcl : s.calls c = some (.finishRelease t replyErr)) :
    ∃ call', Turn s c (.finishRelease t replyErr) call' (s.finishRelease c t replyErr) := by
  cases replyErr with
  | some err => exact ⟨_, .after h hcl (close_fields s _) ⟨rfl, rfl⟩ rfl rfl⟩
  | none =>
    dsimp only [finishRelease]
    split
    · exact ⟨_, .plain h hcl rfl rfl rfl ⟨rfl, rfl⟩ rfl rfl⟩
    split
    · exact ⟨_, .plain h hcl rfl rfl rfl ⟨rfl, rfl⟩ rfl rfl⟩
    · exact ⟨_, .plain h hcl rfl rfl rfl ⟨rfl, rfl⟩ rfl rfl⟩

theorem turn_drain (hcl : s.calls c = some (.drain t)) :
    ∃ call', Turn s c (.drain t) call' (s.drain c t) := by
  unfold drain
  split
  · exact ⟨_, .plain h hcl rfl rfl rfl ⟨rfl, rfl⟩ rfl rfl⟩
  split
  · exact ⟨_, .plain h hcl rfl rfl rfl ⟨rfl, rfl⟩ rfl rfl⟩
  split
  · exact ⟨_, .plain h hcl rfl rfl rfl ⟨rfl, rfl⟩ rfl rfl⟩
  · exact ⟨_, .plain h hcl rfl rfl rfl ⟨rfl, rfl⟩ rfl rfl⟩

theorem turn_abortClose (hcl : s.calls c = some (.abortClose t)) :
    ∃ call', Turn s c (.abortClose t) call' (s.abortClose c t) := by
  unfold abortClose
  split
  · exact ⟨_, .plain h hcl rfl rfl rfl ⟨rfl, rfl⟩ rfl rfl⟩
  · exact ⟨_, .after h hcl (close_fields s _) ⟨rfl, rfl⟩ rfl rfl⟩

theorem turn_rlock (hcl : s.calls c = some (.pushRLock body)) :
    Turn s c (.pushRLock body) (.pushRecheck body)
      ({ s with readers := insert c s.readers }.goto c (.pushRecheck body)) := by
  refine ⟨rfl, fun d hd => .inr ⟨?_, hd⟩, fun d hd => ?_, rfl, parks_of_not_critical rfl,
    replies_of_not_critical rfl⟩
  · rintro rfl
    cases h.writer_call hcl hd
  · rcases Finset.mem_insert.mp hd with rfl | hold
    · exact .inl ⟨rfl, rfl⟩
    · refine .inr ⟨?_, hold⟩
      rintro rfl
      cases h.readers_call hcl hold

theorem turn_runlock {queueing : Bool} (hcl : s.calls c = some (.pushRUnlock result queueing)) :
    Turn s c (.pushRUnlock result queueing) (if queueing then .retireOverflow result else .returned result)
      ({ s with readers := s.readers.erase c }.goto c
        (if queueing then .retireOverflow result else .returned result)) := by
  have hcr : (if queueing then BarrierCall.retireOverflow result else .returned result).critical = false := by
    cases queueing <;> rfl
  refine ⟨rfl, fun d hd => .inr ⟨?_, hd⟩, fun d hd => .inr (Finset.mem_erase.mp hd), ?_,
    parks_of_not_critical hcr, replies_of_not_critical hcr⟩
  · rintro rfl
    cases h.writer_call hcl hd
  · cases queueing <;> rfl

theorem run_turn (hcl : s.calls c = some call)
    (hs : s.run c result call = some s') : ∃ call', Turn s c call call' s' := by
  cases call with
  | beginLock | finishLock t | abortLock t | closeLock cause =>
    exact ⟨_, turn_lock h hcl hs rfl rfl rfl rfl⟩
  | finishOnce t | cancelOnce t => exact turn_once h hcl hs ⟨rfl, rfl⟩ rfl rfl rfl
  | beginUnlock | onceUnlock t result' retire | closeUnlock =>
    cases hs
    exact ⟨_, turn_unlock h hcl rfl rfl rfl⟩
  | pushCheck body =>
    cases hs
    exact turn_pushCheck h hcl
  | pushRecheck body =>
    cases hs
    exact turn_pushRecheck h hcl
  | pushRLock body =>
    obtain ⟨-, hs⟩ := ite_none_right_eq_some.mp hs
    cases hs
    exact ⟨_, turn_rlock h hcl⟩
  | pushRUnlock result' queueing =>
    cases hs
    exact ⟨_, turn_runlock h hcl⟩
  | finishCheck t =>
    cases hs
    exact turn_finishCheck h hcl
  | finishRelease t replyErr =>
    cases hs
    exact turn_finishRelease h hcl
  | drain t =>
    cases hs
    exact turn_drain h hcl
  | drainSubmitting t push =>
    cases hs
    cases result with
    | none => exact ⟨_, .plain h hcl rfl rfl rfl ⟨rfl, rfl⟩ rfl rfl⟩
    | some err => exact ⟨_, .plain h hcl rfl rfl rfl ⟨rfl, rfl⟩ rfl rfl⟩
  | abortClose t =>
    cases hs
    exact turn_abortClose h hcl
  | drainFail t err | closeClose cause =>
    cases hs
    exact ⟨_, .after h hcl (close_fields s _) ⟨rfl, rfl⟩ rfl rfl⟩
  | begun | returned result => cases hs
  | _ =>
    cases hs
    exact ⟨_, .plain h hcl rfl rfl rfl ⟨rfl, rfl⟩ rfl rfl⟩

theorem Turn.owned (htr : Turn s c call call' s') : s'.Owned := by
  refine ⟨fun d hd => ?_, fun d hd => ?_⟩
  · rw [htr.calls]
    rcases htr.writer d hd with ⟨rfl, hwrs⟩ | ⟨hne, hold⟩
    · exact ⟨call', update_self d _ _, hwrs⟩
    · rw [update_of_ne hne]
      exact h.writer d hold
  · rw [htr.calls]
    rcases htr.readers d hd with ⟨rfl, hrds⟩ | ⟨hne, hold⟩
    · exact ⟨call', update_self d _ _, hrds⟩
    · rw [update_of_ne hne]
      exact h.readers d hold

end

structure Enters (s : PushBarrierState) (c : CallID) (request : BarrierRequest) (first : BarrierCall)
    (s' : PushBarrierState) : Prop where
  fresh : s.calls c = none
  goto : s' = s.goto c first
  critical : first.critical = false
  push : ∀ ctxErr body, request = .push ctxErr body → first.isPush = true
  reply : first.awaitsReply = true → ∃ t, request = .finish t

theorem step_enters (hs : s.step (.call c request) = some s') : ∃ first, Enters s c request first s' := by
  dsimp only [step] at hs
  split at hs
  next hfr =>
    obtain ⟨first, hfst, rfl⟩ := map_eq_some_iff.mp hs
    refine ⟨first, hfr, rfl, ?_, ?_, ?_⟩
    · unfold PushBarrierState.request at hfst
      split at hfst
      all_goals first
        | (cases hfst; rfl)
        | (split at hfst <;> cases hfst; rfl)
    · rintro ctxErr body rfl
      cases ctxErr <;> cases hfst <;> rfl
    · intro hrp
      unfold PushBarrierState.request at hfst
      split at hfst
      · cases hfst; cases hrp
      · cases hfst; cases hrp
      · cases hfst; cases hrp
      next t => exact ⟨t, rfl⟩
      · split at hfst <;> cases hfst; cases hrp
      · cases hfst; cases hrp
  · cases hs

theorem Enters.owned {first : BarrierCall} (h : s.Owned)
    (hent : Enters s c request first s') : s'.Owned := by
  rw [hent.goto]
  refine ⟨fun d hd => ?_, fun d hd => ?_⟩
  · obtain ⟨call, hcl, hwrs⟩ := h.writer d hd
    have hne : d ≠ c := by
      rintro rfl
      rw [hent.fresh] at hcl
      cases hcl
    exact ⟨call, (update_of_ne hne _ _).trans hcl, hwrs⟩
  · obtain ⟨call, hcl, hrds⟩ := h.readers d hd
    have hne : d ≠ c := by
      rintro rfl
      rw [hent.fresh] at hcl
      cases hcl
    exact ⟨call, (update_of_ne hne _ _).trans hcl, hrds⟩

end

end PushBarrierState

end Tlrpc
