import Mathlib.Data.Finset.Card
import Tlrpc.PushBarrier

namespace Tlrpc

open Function Finset

/-- What a call may rely on, by where it stands. -/
inductive BarrierRole
  | fresh
  | idle
  | pushing
  | checking
  | passing
  | reading
  | opening
  | activating
  | writing
  | finishing (t : CallID)
  | replying (t : CallID)
  | owing
  | drawing (p : CallID) (started : Bool)
deriving DecidableEq

def BarrierCall.role : BarrierCall → BarrierRole
  | .beginLock => .opening
  | .beginActivate => .activating
  | .pushCheck _ => .pushing
  | .pushRLock _ => .pushing
  | .pushRecheck _ => .checking
  | .pushSubmit _ => .passing
  | .pushSubmitting => .passing
  | .pushRUnlock _ _ => .reading
  | .finishLock t => .finishing t
  | .finishCheck t => .replying t
  | .finishReply t => .replying t
  | .finishRelease _ _ => .owing
  | .drainSubmit _ push => .drawing push.call false
  | .drainSubmitting _ push => .drawing push.call true
  | .beginUnlock => .writing
  | .drain _ => .writing
  | .drainFail _ _ => .writing
  | .abortClose _ => .writing
  | .onceUnlock _ _ _ => .writing
  | .closeClose _ => .writing
  | .closeUnlock => .writing
  | _ => .idle

def BarrierRole.submitting : BarrierRole → Bool
  | .passing => true
  | .drawing _ _ => true
  | _ => false

namespace PushBarrierState

def role (s : PushBarrierState) (c : CallID) : BarrierRole :=
  match s.calls c with
  | some call => call.role
  | none => .fresh

def accepted (s : PushBarrierState) : List CallID := s.history.filterMap GateEvent.accepted

def RoleOk (s : PushBarrierState) (g : Gate CallID CallID) (c : CallID) : BarrierRole → Prop
  | .fresh => c ∉ s.accepted ∧ s.tokens c = none
  | .idle => True
  | .pushing => c ∉ s.accepted
  | .checking => c ∈ s.readers ∧ c ∉ s.accepted
  | .passing => c ∈ s.readers ∧ c ∈ g.running
  | .reading => c ∈ s.readers
  | .opening => s.tokens c = none
  | .activating => s.writer = some c ∧ s.tokens c = none
  | .writing => s.writer = some c
  | .finishing t => t ∈ g.tokens ∧ ∃ done, s.tokens t = some ⟨some c, done⟩
  | .replying t => s.writer = some c ∧ t ∈ g.tokens ∧ ∃ done, s.tokens t = some ⟨some c, done⟩
  | .owing => s.writer = some c
  | .drawing p started => s.writer = some c ∧ g.drawn = some (p, started)

def owed (s : PushBarrierState) : Nat :=
  match s.writer with
  | some c => if s.role c = .owing then 1 else 0
  | none => 0

structure Agrees (b : RecoveryPushBarrier) (g : Gate CallID CallID) (owed : Nat) : Prop where
  closed : g.closed = b.closed
  queue : g.queue = b.queue.map QueuedPush.call
  active : b.closed = false → b.active = g.tokens.card + owed
  gated : b.closed = false → b.queue ≠ [] → b.active ≠ 0 ∨ b.draining = true

/-- The events run the gate, and the barrier, its tokens and its calls agree with it. -/
structure Tracked (s : PushBarrierState) (g : Gate CallID CallID) : Prop where
  run : Gate.Run .start s.history g
  agrees : Agrees s.barrier g s.owed
  exclusive : s.writer ≠ none → s.readers = ∅
  running : ∀ p ∈ g.running, s.role p = .passing
  drawn : ∀ p started, g.drawn = some (p, started) → ∃ c, s.role c = .drawing p started
  unused : ∀ t done, s.tokens t = some ⟨none, done⟩ → t ∈ g.tokens
  known : ∀ t ∈ g.tokens, s.tokens t ≠ none
  once : s.accepted.Nodup
  roles : ∀ c, s.RoleOk g c (s.role c)

theorem role_goto (s : PushBarrierState) (c : CallID) (call : BarrierCall) :
    (s.goto c call).role = update s.role c call.role := by
  funext c'
  by_cases hc : c' = c
  · subst hc
    simp [role, goto]
  · simp [role, goto, hc]

theorem role_of_call {s : PushBarrierState} {c : CallID} {call : BarrierCall}
    (h : s.calls c = some call) : s.role c = call.role := by
  simp [role, h]

section

variable {s s' : PushBarrierState} {g g' : Gate CallID CallID} {c : CallID} {r : BarrierRole}

theorem owed_of_writer (h : s.writer = some c) : s.owed = if s.role c = .owing then 1 else 0 := by
  simp [owed, h]

theorem owed_of_free (h : s.writer = none) : s.owed = 0 := by
  simp [owed, h]

theorem owed_same (hw : s'.writer = s.writer) (hr : s'.role = update s.role c r)
    (howi : s.role c = .owing ↔ r = .owing) : s'.owed = s.owed := by
  cases hwr : s.writer with
  | none => rw [owed_of_free hwr, owed_of_free (hw.trans hwr)]
  | some c' =>
    rw [owed_of_writer hwr, owed_of_writer (hw.trans hwr), hr]
    by_cases hc : c' = c
    · subst hc
      rw [update_self]
      simp [howi]
    · rw [update_of_ne hc]

structure Frame (s s' : PushBarrierState) (g g' : Gate CallID CallID) (c : CallID) : Prop where
  accepted : c ∈ s'.accepted → c ∈ s.accepted
  unmade : s.tokens c = none → s'.tokens c = none
  writer : s.writer = some c → s'.writer = some c ∧ g'.drawn = g.drawn
  readers : c ∈ s.readers → c ∈ s'.readers
  running : c ∈ g.running → c ∈ g'.running
  tokens : ∀ t done, s.tokens t = some ⟨some c, done⟩ →
    (∃ done, s'.tokens t = some ⟨some c, done⟩) ∧ (t ∈ g.tokens → t ∈ g'.tokens)

theorem Frame.same (hacc : s'.accepted = s.accepted) (htk : s'.tokens = s.tokens)
    (hwr : s'.writer = s.writer) (hrea : s'.readers = s.readers) : Frame s s' g g c := by
  refine ⟨?_, ?_, ?_, ?_, id, ?_⟩
  · rw [hacc]
    exact id
  · rw [htk]
    exact id
  · intro hw
    exact ⟨hwr.trans hw, rfl⟩
  · rw [hrea]
    exact id
  · intro t done ht
    exact ⟨⟨done, htk ▸ ht⟩, id⟩

theorem RoleOk.frame (h : s.RoleOk g c r) (hf : Frame s s' g g' c) : s'.RoleOk g' c r := by
  cases r with
  | fresh => exact ⟨fun ha => h.1 (hf.accepted ha), hf.unmade h.2⟩
  | idle => trivial
  | pushing => exact fun ha => h (hf.accepted ha)
  | checking => exact ⟨hf.readers h.1, fun ha => h.2 (hf.accepted ha)⟩
  | passing => exact ⟨hf.readers h.1, hf.running h.2⟩
  | reading => exact hf.readers h
  | opening => exact hf.unmade h
  | activating => exact ⟨(hf.writer h.1).1, hf.unmade h.2⟩
  | writing => exact (hf.writer h).1
  | finishing t =>
    obtain ⟨hmem, done, htok⟩ := h
    exact ⟨(hf.tokens t done htok).2 hmem, (hf.tokens t done htok).1⟩
  | replying t =>
    obtain ⟨hw, hmem, done, htok⟩ := h
    exact ⟨(hf.writer hw).1, (hf.tokens t done htok).2 hmem, (hf.tokens t done htok).1⟩
  | owing => exact (hf.writer h).1
  | drawing p started => exact ⟨(hf.writer h.1).1, (hf.writer h.1).2.trans h.2⟩

theorem Tracked.role (h : s.Tracked g) (hc : s.role c = r) : s.RoleOk g c r := hc ▸ h.roles c

theorem Tracked.agrees_same (h : s.Tracked g) (hbar : s'.barrier = s.barrier)
    (hw : s'.writer = s.writer) (hrl : s'.role = update s.role c r)
    (howi : s.role c = .owing ↔ r = .owing) : Agrees s'.barrier g s'.owed := by
  rw [hbar, owed_same hw hrl howi]
  exact h.agrees

theorem Tracked.change (h : s.Tracked g) (hrl : s'.role = update s.role c r)
    (run : Gate.Run .start s'.history g') (agrees : Agrees s'.barrier g' s'.owed)
    (exclusive : s'.writer ≠ none → s'.readers = ∅)
    (running : ∀ p ∈ g'.running, p = c ∧ r = .passing ∨ p ≠ c ∧ p ∈ g.running)
    (drawn : ∀ p started, g'.drawn = some (p, started) → r = .drawing p started ∨
      g.drawn = some (p, started) ∧ s.role c ≠ .drawing p started)
    (unused : ∀ t done, s'.tokens t = some ⟨none, done⟩ → t ∈ g'.tokens)
    (known : ∀ t ∈ g'.tokens, s'.tokens t ≠ none) (once : s'.accepted.Nodup)
    (self : s'.RoleOk g' c r) (others : ∀ c', c' ≠ c → Frame s s' g g' c') : s'.Tracked g' := by
  refine ⟨run, agrees, exclusive, ?_, ?_, unused, known, once, ?_⟩
  · intro p hp
    rw [hrl]
    rcases running p hp with ⟨rfl, hr⟩ | ⟨hne, hold⟩
    · rw [update_self]
      exact hr
    · rw [update_of_ne hne]
      exact h.running p hold
  · intro p started hp
    rcases drawn p started hp with hr | ⟨hold, hne⟩
    · refine ⟨c, ?_⟩
      rw [hrl, update_self]
      exact hr
    obtain ⟨c', hc'⟩ := h.drawn p started hold
    have hcc : c' ≠ c := by
      intro heq
      exact hne (heq ▸ hc')
    refine ⟨c', ?_⟩
    rw [hrl, update_of_ne hcc]
    exact hc'
  · intro c'
    rw [hrl]
    by_cases hc : c' = c
    · subst hc
      rw [update_self]
      exact self
    · rw [update_of_ne hc]
      exact (h.roles c').frame (others c' hc)

theorem Tracked.still (h : s.Tracked g) (hrl : s'.role = update s.role c r)
    (hqt : (s.role c).submitting = false) (hhis : s'.history = s.history)
    (agrees : Agrees s'.barrier g s'.owed) (exclusive : s'.writer ≠ none → s'.readers = ∅)
    (unused : ∀ t done, s'.tokens t = some ⟨none, done⟩ → ∃ done', s.tokens t = some ⟨none, done'⟩)
    (known : ∀ t, s.tokens t ≠ none → s'.tokens t ≠ none) (self : s'.RoleOk g c r)
    (writer : ∀ c', c' ≠ c → s.writer = some c' → s'.writer = some c')
    (readers : ∀ c', c' ≠ c → c' ∈ s.readers → c' ∈ s'.readers)
    (tokens : ∀ c', c' ≠ c → (s.tokens c' = none → s'.tokens c' = none) ∧
      ∀ t done, s.tokens t = some ⟨some c', done⟩ → ∃ done, s'.tokens t = some ⟨some c', done⟩) :
    s'.Tracked g := by
  have hacc : s'.accepted = s.accepted := by
    unfold accepted
    rw [hhis]
  refine h.change hrl (hhis ▸ h.run) agrees exclusive ?_ ?_ ?_ ?_ (hacc ▸ h.once) self ?_
  · intro p hp
    refine Or.inr ⟨?_, hp⟩
    intro heq
    rw [← heq, h.running p hp] at hqt
    cases hqt
  · intro p started hp
    refine Or.inr ⟨hp, ?_⟩
    intro hc
    rw [hc] at hqt
    cases hqt
  · intro t done ht
    obtain ⟨done', ht'⟩ := unused t done ht
    exact h.unused t done' ht'
  · intro t ht
    exact known t (h.known t ht)
  · intro c' hc'
    exact ⟨fun ha => hacc ▸ ha, (tokens c' hc').1, fun hw => ⟨writer c' hc' hw, rfl⟩,
      readers c' hc', id, fun t done ht => ⟨(tokens c' hc').2 t done ht, id⟩⟩

variable {call : BarrierCall}

section

variable (h : s.Tracked g)
include h

theorem Tracked.turn {retired : List BarrierError} (hqt : (s.role c).submitting = false)
    (howi : s.barrier.closed = true ∨ (s.role c = .owing ↔ call.role = .owing))
    (self : s.RoleOk g c call.role) : ({ s with retired := retired }.goto c call).Tracked g := by
  have hrl := role_goto { s with retired := retired } c call
  refine h.still hrl hqt rfl ?_ h.exclusive (fun t done ht => ⟨done, ht⟩) (fun t ht => ht) ?_
    (fun c' _ hw => hw) (fun c' _ hmem => hmem) (fun c' _ => ⟨id, fun t done ht => ⟨done, ht⟩⟩)
  · rcases howi with hcl | hsm
    · refine ⟨h.agrees.closed, h.agrees.queue, ?_, h.agrees.gated⟩
      intro hop
      exact absurd (hcl.symm.trans hop) (by simp)
    · exact h.agrees_same rfl rfl hrl hsm
  · exact self.frame (.same rfl rfl rfl rfl)

theorem Tracked.goto (hqt : (s.role c).submitting = false)
    (howi : s.barrier.closed = true ∨ (s.role c = .owing ↔ call.role = .owing))
    (self : s.RoleOk g c call.role) : (s.goto c call).Tracked g :=
  h.turn hqt howi self

theorem Tracked.lock (hqt : (s.role c).submitting = false)
    (hs : s.lock c call = some s') (howi : call.role ≠ .owing)
    (self : { s with writer := some c }.RoleOk g c call.role) : s'.Tracked g := by
  obtain ⟨⟨hfr, hrea⟩, hs⟩ := Option.ite_none_right_eq_some.mp hs
  cases hs
  have hrl := role_goto { s with writer := some c } c call
  refine h.still hrl hqt rfl ?_ (fun _ => hrea) (fun t done ht => ⟨done, ht⟩)
    (fun t ht => ht) ?_ ?_ (fun c' _ hmem => hmem) (fun c' _ => ⟨id, fun t done ht => ⟨done, ht⟩⟩)
  · have how : ({ s with writer := some c }.goto c call).owed = s.owed := by
      rw [owed_of_free hfr, owed_of_writer rfl, hrl, update_self, if_neg howi]
    rw [how]
    exact h.agrees
  · exact self.frame (.same rfl rfl rfl rfl)
  · intro c' _ hw
    rw [hfr] at hw
    cases hw

theorem Tracked.unlock (hc : s.role c = .writing)
    (hie : call.role = .idle) : (s.unlock c call).Tracked g := by
  have hw : s.writer = some c := h.role hc
  have hrl : (s.unlock c call).role = update s.role c .idle := by
    unfold PushBarrierState.unlock
    rw [role_goto, hie]
    rfl
  refine h.still hrl (by rw [hc]; rfl) rfl ?_ ?_ (fun t done ht => ⟨done, ht⟩) (fun t ht => ht)
    trivial ?_ (fun c' _ hmem => hmem) (fun c' _ => ⟨id, fun t done ht => ⟨done, ht⟩⟩)
  · have how : (s.unlock c call).owed = s.owed := by
      rw [owed_of_free rfl, owed_of_writer hw, hc]
      rfl
    rw [how]
    exact h.agrees
  · intro hne
    exact absurd rfl hne
  · intro c' hc' hw'
    rw [hw] at hw'
    cases hw'
    exact absurd rfl hc'

theorem Tracked.rlock {body : List UInt8} (hc : s.role c = .pushing) (hfe : s.writer = none) :
    ({ s with readers := insert c s.readers }.goto c (.pushRecheck body)).Tracked g := by
  have hfr : c ∉ s.accepted := h.role hc
  have hrl := role_goto { s with readers := insert c s.readers } c (.pushRecheck body)
  refine h.still hrl (by rw [hc]; rfl) rfl ?_ ?_ (fun t done ht => ⟨done, ht⟩) (fun t ht => ht)
    ⟨mem_insert_self c _, hfr⟩ (fun c' _ hw => hw)
    (fun c' _ hmem => mem_insert_of_mem hmem)
    (fun c' _ => ⟨id, fun t done ht => ⟨done, ht⟩⟩)
  · exact h.agrees_same rfl rfl hrl (by simp [hc, BarrierCall.role])
  · intro hne
    exact absurd hfe hne

theorem Tracked.runlock (hc : s.role c = .reading) (hie : call.role = .idle) :
    ({ s with readers := s.readers.erase c }.goto c call).Tracked g := by
  have hrl : ({ s with readers := s.readers.erase c }.goto c call).role = update s.role c .idle := by
    rw [role_goto, hie]
    rfl
  refine h.still hrl (by rw [hc]; rfl) rfl ?_ ?_ (fun t done ht => ⟨done, ht⟩) (fun t ht => ht)
    trivial (fun c' _ hw => hw) (fun c' hc' hmem => mem_erase.mpr ⟨hc', hmem⟩)
    (fun c' _ => ⟨id, fun t done ht => ⟨done, ht⟩⟩)
  · exact h.agrees_same rfl rfl hrl (by simp [hc])
  · intro hne
    have hemp := h.exclusive hne
    rw [hemp]
    rfl

theorem Tracked.claim {t : CallID} {done : Bool}
    (hc : s.role c = .idle) (ht : s.tokens t = some ⟨none, done⟩)
    (hr : call.role = .finishing t ∨ call.role = .idle) :
    ({ s with tokens := update s.tokens t (some ⟨some c, false⟩) }.goto c call).Tracked g := by
  have hrl := role_goto { s with tokens := update s.tokens t (some ⟨some c, false⟩) } c call
  refine h.still hrl (by rw [hc]; rfl) rfl ?_ h.exclusive ?_ ?_ ?_ (fun c' _ hw => hw)
    (fun c' _ hmem => hmem) ?_
  · refine h.agrees_same rfl rfl hrl ?_
    rcases hr with hr | hr <;> simp [hc, hr]
  · intro t' done' ht'
    by_cases heq : t' = t
    · subst heq
      simp [PushBarrierState.goto] at ht'
    · exact ⟨done', by simpa [PushBarrierState.goto, heq] using ht'⟩
  · intro t' ht'
    by_cases heq : t' = t
    · subst heq
      simp [PushBarrierState.goto]
    · simpa [PushBarrierState.goto, heq] using ht'
  · rcases hr with hr | hr
    · rw [hr]
      exact ⟨h.unused t done ht, false, by simp [PushBarrierState.goto]⟩
    · rw [hr]
      trivial
  · intro c' hc'
    refine ⟨?_, ?_⟩
    · intro hno
      have hne : c' ≠ t := by
        intro heq
        rw [heq, ht] at hno
        cases hno
      simpa [PushBarrierState.goto, hne] using hno
    · intro t' done' ht'
      have hne : t' ≠ t := by
        intro heq
        rw [heq, ht] at ht'
        cases ht'
      exact ⟨done', by simpa [PushBarrierState.goto, hne] using ht'⟩

theorem Tracked.complete {t : CallID} {retire : Option BarrierError} (hc : s.role c = .idle)
    (hie : call.role = .idle) : ((s.complete t retire).goto c call).Tracked g := by
  have hrl : ((s.complete t retire).goto c call).role = update s.role c .idle := by
    rw [role_goto, hie]
    rfl
  have hother : ∀ t', t' ≠ t → ((s.complete t retire).goto c call).tokens t' = s.tokens t' := by
    intro t' hne
    simp [PushBarrierState.goto, PushBarrierState.complete, hne]
  have hsf : ((s.complete t retire).goto c call).tokens t =
      (s.tokens t).map fun token => { token with completed := true } := by
    simp [PushBarrierState.goto, PushBarrierState.complete]
  refine h.still hrl (by rw [hc]; rfl) rfl ?_ h.exclusive ?_ ?_ trivial (fun c' _ hw => hw)
    (fun c' _ hmem => hmem) ?_
  · exact h.agrees_same rfl rfl hrl (by simp [hc])
  · intro t' done ht'
    by_cases heq : t' = t
    · subst heq
      rw [hsf] at ht'
      obtain ⟨⟨once, done'⟩, htok, heq⟩ := Option.map_eq_some_iff.mp ht'
      cases heq
      exact ⟨done', htok⟩
    · exact ⟨done, hother t' heq ▸ ht'⟩
  · intro t' ht'
    by_cases heq : t' = t
    · subst heq
      rw [hsf]
      simpa using ht'
    · rw [hother t' heq]
      exact ht'
  · intro c' _
    refine ⟨?_, ?_⟩
    · intro hno
      by_cases heq : c' = t
      · subst heq
        rw [hsf, hno]
        rfl
      · rw [hother c' heq]
        exact hno
    · intro t' done ht'
      by_cases heq : t' = t
      · subst heq
        refine ⟨true, ?_⟩
        rw [hsf, ht']
        rfl
      · exact ⟨done, (hother t' heq).trans ht'⟩

end

end

end PushBarrierState

end Tlrpc
