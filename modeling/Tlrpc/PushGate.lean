import Tlrpc.PushRoles

namespace Tlrpc

open Function PushBarrierState RecoveryPushBarrier Finset List Option

namespace PushBarrierState

variable {result : Option BarrierError} {s' : PushBarrierState}

section

variable {s s' : PushBarrierState} {g g' : Gate CallID CallID} {c : CallID}

variable {e : GateEvent CallID CallID} {b : RecoveryPushBarrier} {body : List UInt8}
  {call : BarrierCall} {t : CallID} {push : QueuedPush}

theorem accepted_emit : (s.emit e).accepted = s.accepted ++ e.accepted.toList := by
  unfold accepted emit
  rw [filterMap_append]
  cases he : e.accepted <;> simp [he]

section

variable (h : s.Tracked g)
include h

theorem Tracked.event (hst : Gate.Step g e g') (agrees : Agrees b g' s.owed) (htk : g'.tokens = g.tokens)
    (hdr : g'.drawn = g.drawn) (hrun : g'.running = g.running) (hacc : ∀ p, e.accepted = some p →
      p ∉ s.accepted ∧ (s.role p = .idle ∨ s.role p = .reading)) :
    ({ s with barrier := b }.emit e).Tracked g' := by
  have hls : ({ s with barrier := b }.emit e).accepted = s.accepted ++ e.accepted.toList :=
    accepted_emit
  refine ⟨h.run.snoc hst, agrees, h.exclusive, hrun ▸ h.running, ?_, ?_, ?_, ?_, ?_⟩
  · intro p started hp
    exact h.drawn p started (hdr ▸ hp)
  · intro t done ht
    rw [htk]
    exact h.unused t done ht
  · intro t ht
    rw [htk] at ht
    exact h.known t ht
  · rw [hls]
    cases he : e.accepted with
    | none => simpa using h.once
    | some p =>
      have hnew := (hacc p he).1
      refine nodup_append.mpr ⟨h.once, by simp, ?_⟩
      intro a ha b hb heq
      simp only [Option.toList_some, List.mem_singleton] at hb
      exact hnew (hb ▸ heq ▸ ha)
  · intro c
    have hrl : ({ s with barrier := b }.emit e).role c = s.role c := rfl
    rw [hrl]
    by_cases hc : e.accepted = some c
    · have hold := h.roles c
      rcases (hacc c hc).2 with hr | hr
      · rw [hr]
        trivial
      · rw [hr] at hold ⊢
        exact hold
    · refine (h.roles c).frame ⟨?_, id, fun hw => ⟨hw, hdr⟩, id, hrun ▸ id,
        fun t done ht => ⟨⟨done, ht⟩, ?_⟩⟩
      · intro hmem
        rw [hls] at hmem
        rcases mem_append.mp hmem with old | new
        · exact old
        · exact absurd (by simpa using new) hc
      · rw [htk]
        exact id

theorem Tracked.close (cause : Option BarrierError) : ∃ g', (s.close cause).Tracked g' := by
  unfold PushBarrierState.close
  split
  · exact ⟨g, h⟩
  rename_i hop
  have hop : s.barrier.closed = false := by simpa using hop
  have hgt : g.closed = false := h.agrees.closed.trans hop
  have hcl : (s.barrier.closeLocked cause).closed = true := by
    simp [closeLocked, hop]
  refine ⟨_, h.event (.close hgt) ⟨hcl.symm, ?_, ?_, ?_⟩ rfl rfl rfl ?_⟩
  · simp [closeLocked, hop]
  · intro hfal
    rw [hcl] at hfal
    cases hfal
  · intro hfal
    rw [hcl] at hfal
    cases hfal
  · intro p hp
    cases hp

theorem Tracked.enqueue (hop : s.barrier.closed = false) (hgat : s.gated = true) (hfr : c ∉ s.accepted)
    (hr : s.role c = .idle ∨ s.role c = .reading) : ∃ g', (s.enqueue c body).1.Tracked g' := by
  unfold PushBarrierState.enqueue
  by_cases hfl : s.barrier.queue.length ≥ s.barrier.maxCount ∨
      body.length > s.barrier.maxBytes - s.barrier.queuedBytes
  · obtain ⟨g', hg'⟩ := h.close (some (.full s.barrier.queue.length s.barrier.maxCount
      s.barrier.queuedBytes body.length s.barrier.maxBytes))
    refine ⟨g', ?_⟩
    simpa [RecoveryPushBarrier.enqueueLocked, hop, hfl, PushBarrierState.close] using hg'
  have hact : s.barrier.active ≠ 0 ∨ s.barrier.draining = true := by
    simpa [PushBarrierState.gated] using hgat
  have hgt : g.closed = false := h.agrees.closed.trans hop
  refine ⟨{ g with queue := g.queue ++ [c] }, ?_⟩
  simp only [enqueueLocked, hop, if_neg hfl, Bool.false_eq_true, if_false]
  refine h.event (.queue hgt) ⟨hgt, ?_, fun _ => h.agrees.active hop, fun _ _ => hact⟩ rfl
    rfl rfl ?_
  · simp [h.agrees.queue]
  · intro p hp
    cases hp
    exact ⟨hfr, hr⟩

theorem Tracked.same_role (hr : s.role c = call.role) : (s.goto c call).Tracked g := by
  have hrl : (s.goto c call).role = s.role := by
    rw [role_goto, ← hr, update_eq_self]
  have how : (s.goto c call).owed = s.owed := by
    unfold owed
    rw [hrl]
    rfl
  refine ⟨h.run, how ▸ h.agrees, h.exclusive, ?_, ?_, h.unused, h.known, h.once, ?_⟩
  · rw [hrl]
    exact h.running
  · rw [hrl]
    exact h.drawn
  · intro c'
    rw [hrl]
    exact (h.roles c').frame (.same rfl rfl rfl rfl)

theorem Tracked.act (hst : Gate.Step g e g') (he : e.accepted = none)
    (agrees : Agrees b g' (({ s with barrier := b }.emit e).goto c call).owed)
    (running : ∀ p ∈ g'.running, p = c ∧ call.role = .passing ∨ p ≠ c ∧ p ∈ g.running)
    (drawn : ∀ p started, g'.drawn = some (p, started) → call.role = .drawing p started ∨
      g.drawn = some (p, started) ∧ s.role c ≠ .drawing p started)
    (unused : ∀ t done, s.tokens t = some ⟨none, done⟩ → t ∈ g'.tokens)
    (known : ∀ t ∈ g'.tokens, t ∈ g.tokens) (self : { s with barrier := b }.RoleOk g' c call.role)
    (hdr : ∀ c', c' ≠ c → s.writer = some c' → g'.drawn = g.drawn)
    (hrun : ∀ c', c' ≠ c → c' ∈ g.running → c' ∈ g'.running)
    (htk : ∀ c' t done, c' ≠ c → s.tokens t = some ⟨some c', done⟩ → t ∈ g.tokens →
      t ∈ g'.tokens) : (({ s with barrier := b }.emit e).goto c call).Tracked g' := by
  have hacc : (({ s with barrier := b }.emit e).goto c call).accepted = s.accepted := by
    refine accepted_emit.trans ?_
    rw [he]
    exact append_nil _
  refine h.change (role_goto _ c call) (h.run.snoc hst) agrees h.exclusive running drawn unused
    (fun t ht => h.known t (known t ht)) (hacc ▸ h.once) ?_ ?_
  · exact self.frame (.same hacc rfl rfl rfl)
  · intro c' hc'
    exact ⟨fun ha => hacc ▸ ha, id, fun hw => ⟨hw, hdr c' hc' hw⟩, id, hrun c' hc',
      fun t done ht => ⟨⟨done, ht⟩, htk c' t done hc' ht⟩⟩

theorem Tracked.agrees_act (howi : s.role c = .owing ↔ call.role = .owing) (hcl : g'.closed = g.closed)
    (hque : g'.queue = g.queue) (htk : g'.tokens = g.tokens) :
    Agrees s.barrier g' ((s.emit e).goto c call).owed := by
  have how : ((s.emit e).goto c call).owed = s.owed := owed_same rfl (role_goto _ c _) howi
  rw [how]
  refine ⟨hcl.trans h.agrees.closed, hque.trans h.agrees.queue, ?_, h.agrees.gated⟩
  rw [htk]
  exact h.agrees.active

theorem Tracked.pass (hc : s.role c = .checking) (hop : s.barrier.closed = false) (hgat : s.gated = false) :
    ∃ g', ((s.emit (.passed c)).goto c (.pushSubmit body)).Tracked g' := by
  obtain ⟨hrd, _⟩ := h.role hc
  have hie : s.barrier.active = 0 ∧ s.barrier.draining = false := by
    simpa [gated] using hgat
  have hfr : s.writer = none := by
    by_contra hne
    rw [h.exclusive hne] at hrd
    simp at hrd
  have htk : g.tokens = ∅ := by
    have hact := h.agrees.active hop
    rw [owed_of_free hfr, hie.1] at hact
    exact card_eq_zero.mp (by omega)
  have hque : s.barrier.queue = [] := by
    by_contra hne
    rcases h.agrees.gated hop hne with hact | hdra
    · exact hact hie.1
    · rw [hie.2] at hdra
      cases hdra
  have hdr : g.drawn = none := by
    cases hd : g.drawn with
    | none => rfl
    | some x =>
      obtain ⟨c', hc'⟩ := h.drawn x.1 x.2 hd
      have hw := (h.role hc').1
      rw [hfr] at hw
      cases hw
  have hgt : g.closed = false := h.agrees.closed.trans hop
  have hst : Gate.Step g (.passed c) { g with running := insert c g.running } :=
    .pass hgt htk (by rw [h.agrees.queue, hque]; rfl) hdr
  refine ⟨_, h.act (b := s.barrier) hst rfl ?_ ?_ ?_ h.unused (fun t ht => ht)
    ⟨hrd, mem_insert_self c _⟩ (fun c' _ _ => rfl)
    (fun c' _ hmem => Finset.mem_insert_of_mem hmem) (fun c' t done _ _ ht => ht)⟩
  · exact h.agrees_act (by simp [hc, BarrierCall.role]) rfl rfl rfl
  · intro p hp
    by_cases hpc : p = c
    · exact Or.inl ⟨hpc, rfl⟩
    · exact Or.inr ⟨hpc, (mem_insert.mp hp).resolve_left hpc⟩
  · intro p started hp
    exact Or.inr ⟨hp, by simp [hc]⟩

theorem Tracked.submitDirect (hc : s.role c = .passing) :
    ((s.emit (.submitted c false)).goto c .pushSubmitting).Tracked g := by
  have hrun := (h.role hc).2
  have heve : (s.emit (.submitted c false)).Tracked g :=
    h.event (b := s.barrier) (.submitDirect hrun) h.agrees rfl rfl rfl (by intro p hp; cases hp)
  exact heve.same_role hc

theorem Tracked.settleDirect (hc : s.role c = .passing) :
    ∃ g', ((s.emit (.settled c)).goto c (.pushRUnlock result false)).Tracked g' := by
  obtain ⟨hrd, hrun⟩ := h.role hc
  refine ⟨_, h.act (b := s.barrier) (.settleDirect hrun) rfl ?_ ?_ ?_ h.unused (fun t ht => ht)
    hrd (fun c' _ _ => rfl) (fun c' hc' hmem => mem_erase.mpr ⟨hc', hmem⟩)
    (fun c' t done _ _ ht => ht)⟩
  · exact h.agrees_act (by simp [hc, BarrierCall.role]) rfl rfl rfl
  · intro p hp
    exact Or.inr (mem_erase.mp hp)
  · intro p started hp
    exact Or.inr ⟨hp, by simp [hc]⟩

theorem Tracked.writer_running (hw : s.writer = some c) : g.running = ∅ := by
  refine eq_empty_of_forall_notMem ?_
  intro p hp
  have hrd := (h.role (h.running p hp)).1
  rw [h.exclusive (by simp [hw])] at hrd
  simp at hrd

theorem Tracked.writer_drawn (hw : s.writer = some c)
    (hc : ∀ p started, s.role c ≠ .drawing p started) : g.drawn = none := by
  cases hd : g.drawn with
  | none => rfl
  | some x =>
    obtain ⟨c', hc'⟩ := h.drawn x.1 x.2 hd
    have hw' := (h.role hc').1
    rw [hw] at hw'
    cases hw'
    exact absurd hc' (hc x.1 x.2)

theorem Tracked.begin (hc : s.role c = .activating) : ∃ g', (s.beginActivate c).Tracked g' := by
  obtain ⟨hw, hunm⟩ := h.role hc
  have hnew : c ∉ g.tokens := fun hmem => h.known c hmem hunm
  have hdr := h.writer_drawn hw (by simp [hc])
  have hrl : (s.beginActivate c).role = Function.update s.role c .writing := role_goto _ c _
  have how : (s.beginActivate c).owed = s.owed := owed_same rfl hrl (by simp [hc])
  have hacc : (s.beginActivate c).accepted = s.accepted :=
    accepted_emit.trans (append_nil _)
  have htok : (s.beginActivate c).tokens c = some ⟨none, false⟩ := update_self ..
  have hother : ∀ t, t ≠ c → (s.beginActivate c).tokens t = s.tokens t :=
    fun t ht => update_of_ne ht _ _
  refine ⟨_, h.change hrl (h.run.snoc (.begin (h.writer_running hw) hdr)) ?_ h.exclusive ?_ ?_ ?_
    ?_ (hacc ▸ h.once) hw ?_⟩
  · rw [how]
    unfold beginActivate
    by_cases hcl : s.barrier.closed = true
    · simp only [hcl, if_true]
      refine ⟨h.agrees.closed, h.agrees.queue, ?_, h.agrees.gated⟩
      intro hop
      exact absurd (hcl.symm.trans hop) (by simp)
    have hop : s.barrier.closed = false := by simpa using hcl
    have hact := h.agrees.active hop
    simp only [hop, Bool.false_eq_true, if_false]
    refine ⟨h.agrees.closed.trans hop, h.agrees.queue, ?_, ?_⟩
    · intro _
      change s.barrier.active + 1 = ((insert c g.tokens).card : Int) + s.owed
      rw [card_insert_of_notMem hnew]
      omega
    · intro _ _
      refine Or.inl ?_
      change s.barrier.active + 1 ≠ 0
      omega
  · intro p hp
    rw [h.writer_running hw] at hp
    simp at hp
  · intro p started hp
    rw [hdr] at hp
    cases hp
  · intro t done ht
    by_cases heq : t = c
    · exact heq ▸ mem_insert_self t _
    · exact mem_insert_of_mem (h.unused t done (hother t heq ▸ ht))
  · intro t ht
    by_cases heq : t = c
    · subst heq
      rw [htok]
      simp
    · rw [hother t heq]
      exact h.known t ((mem_insert.mp ht).resolve_left heq)
  · intro c' hc'
    refine ⟨fun ha => hacc ▸ ha, fun hno => (hother c' hc').trans hno, fun hw' => ⟨hw', rfl⟩, id, id, ?_⟩
    intro t done ht
    have hne : t ≠ c := by
      intro heq
      rw [heq, hunm] at ht
      cases ht
    exact ⟨⟨done, (hother t hne).trans ht⟩, mem_insert_of_mem⟩

end

theorem owed_act (hw : s.writer = some c) : (({ s with barrier := b }.emit e).goto c call).owed =
      if call.role = .owing then 1 else 0 := by
  have hw' : (({ s with barrier := b }.emit e).goto c call).writer = some c := hw
  rw [owed_of_writer hw', role_goto, update_self]

section

variable (h : s.Tracked g)
include h

theorem Tracked.reply (hc : s.role c = .replying t) :
    ∃ g', ((s.emit (.replied t)).goto c (.finishRelease t result)).Tracked g' := by
  obtain ⟨hw, hmem, done, htok⟩ := h.role hc
  have hdr := h.writer_drawn hw (by simp [hc])
  refine ⟨_, h.act (b := s.barrier) .reply rfl ?_ ?_ ?_ ?_ (fun t' ht' => (mem_erase.mp ht').2)
    hw (fun c' _ _ => rfl) (fun c' _ hp => hp) ?_⟩
  · refine ⟨h.agrees.closed, h.agrees.queue, ?_, h.agrees.gated⟩
    intro hop
    have hact := h.agrees.active hop
    have hcr := card_erase_add_one hmem
    rw [owed_of_writer hw, hc, if_neg (by simp)] at hact
    rw [owed_act hw, if_pos (show (BarrierCall.finishRelease t result).role = .owing from rfl)]
    change s.barrier.active = ((g.tokens.erase t).card : Int) + 1
    omega
  · intro p hp
    rw [h.writer_running hw] at hp
    simp at hp
  · intro p started hp
    rw [hdr] at hp
    cases hp
  · intro t' done' ht'
    refine mem_erase.mpr ⟨?_, h.unused t' done' ht'⟩
    intro heq
    rw [heq, htok] at ht'
    cases ht'
  · intro c' t' done' hc' ht' hmem'
    refine mem_erase.mpr ⟨?_, hmem'⟩
    intro heq
    rw [heq, htok] at ht'
    cases ht'
    exact hc' rfl

theorem Tracked.adjust
    (hw : s.writer = some c) (hqt : (s.role c).submitting = false) (hr : call.role = .writing)
    (agrees : Agrees b g 0) : ({ s with barrier := b }.goto c call).Tracked g := by
  have hrl : ({ s with barrier := b }.goto c call).role = Function.update s.role c .writing := by
    rw [role_goto, hr]
    rfl
  have hw' : ({ s with barrier := b }.goto c call).writer = some c := hw
  refine h.still hrl hqt rfl ?_ h.exclusive (fun t done ht => ⟨done, ht⟩) (fun t ht => ht) hw'
    (fun c' _ hw => hw) (fun c' _ hmem => hmem) (fun c' _ => ⟨id, fun t done ht => ⟨done, ht⟩⟩)
  rw [owed_of_writer hw', hrl, update_self, if_neg (by simp)]
  exact agrees

theorem Tracked.release (hc : s.role c = .owing) (hr : call.role = .writing) (hop : s.barrier.closed = false)
    (hb : b = { s.barrier with active := s.barrier.active - 1, draining := b.draining })
    (hdra : s.barrier.queue ≠ [] → s.barrier.active - 1 = 0 → b.draining = true) :
    ({ s with barrier := b }.goto c call).Tracked g := by
  have hw : s.writer = some c := h.role hc
  have hact := h.agrees.active hop
  rw [owed_of_writer hw, hc, if_pos rfl] at hact
  refine h.adjust hw (by rw [hc]; rfl) hr ?_
  rw [hb]
  refine ⟨h.agrees.closed, h.agrees.queue, ?_, ?_⟩
  · intro _
    change s.barrier.active - 1 = (g.tokens.card : Int) + (0 : Nat)
    omega
  · intro _ hne
    by_cases hz : s.barrier.active - 1 = 0
    · exact Or.inr (hdra hne hz)
    · exact Or.inl hz

theorem Tracked.writing_agrees (hc : s.role c = .writing) : Agrees s.barrier g 0 := by
  have how : s.owed = 0 := by
    rw [owed_of_writer (h.role hc), hc]
    rfl
  exact how ▸ h.agrees

theorem Tracked.stop (hc : s.role c = .writing) (hr : call.role = .writing)
    (hdn : s.barrier.closed = true ∨ s.barrier.active ≠ 0 ∨ s.barrier.queue = []) :
    (s.stopDraining.goto c call).Tracked g := by
  have hold := h.writing_agrees hc
  refine h.adjust (h.role hc) (by rw [hc]; rfl) hr ⟨hold.closed, hold.queue, hold.active, ?_⟩
  intro hop hne
  rcases hdn with hcl | hact | hemp
  · exact absurd (hcl.symm.trans hop) (by simp)
  · exact Or.inl hact
  · exact absurd hemp hne

theorem Tracked.draw {rest : List QueuedPush}
    (hc : s.role c = .writing) (hop : s.barrier.closed = false) (hie : s.barrier.active = 0)
    (hque : s.barrier.queue = push :: rest) {bytes : Int} :
    ∃ g', (({ s with barrier := { s.barrier with queue := rest, queuedBytes := bytes } }.emit
      (.dequeued push.call)).goto c (.drainSubmit t push)).Tracked g' := by
  have hw : s.writer = some c := h.role hc
  have hold := h.writing_agrees hc
  have hdra : s.barrier.draining = true := by
    rcases hold.gated hop (by simp [hque]) with hact | hdra
    · exact absurd hie hact
    · exact hdra
  have htk : g.tokens = ∅ := by
    have hact := hold.active hop
    exact card_eq_zero.mp (by omega)
  have hdr := h.writer_drawn hw (by simp [hc])
  have hgt : g.closed = false := hold.closed.trans hop
  have hst : Gate.Step g (.dequeued push.call)
      { g with queue := rest.map QueuedPush.call, drawn := some (push.call, false) } :=
    .draw hgt htk hdr (by rw [hold.queue, hque]; rfl)
  refine ⟨_, h.act hst rfl ?_ ?_ ?_ h.unused (fun t' ht' => ht') ⟨hw, rfl⟩ ?_ (fun c' _ hp => hp)
    (fun c' t' done _ _ ht' => ht')⟩
  · rw [owed_act hw, if_neg (by simp [BarrierCall.role])]
    exact ⟨hold.closed, rfl, hold.active, fun _ _ => Or.inr hdra⟩
  · intro p hp
    rw [h.writer_running hw] at hp
    simp at hp
  · intro p started hp
    cases hp
    exact Or.inl rfl
  · intro c' hc' hw'
    rw [hw] at hw'
    cases hw'
    exact absurd rfl hc'

theorem Tracked.drawn_step {p : CallID} {started : Bool} {next : Option (CallID × Bool)}
    (hc : s.role c = .drawing p started) (hst : Gate.Step g e { g with drawn := next })
    (he : e.accepted = none) (howi : call.role ≠ .owing)
    (hnx : ∀ p started, next = some (p, started) → call.role = .drawing p started)
    (self : s.RoleOk { g with drawn := next } c call.role) :
    ((s.emit e).goto c call).Tracked { g with drawn := next } := by
  have hw : s.writer = some c := (h.role hc).1
  refine h.act (b := s.barrier) hst he ?_ ?_ ?_ h.unused (fun t ht => ht) self ?_
    (fun c' _ hp => hp) (fun c' t done _ _ ht => ht)
  · exact h.agrees_act (by simp [hc, howi]) rfl rfl rfl
  · intro p' hp'
    rw [h.writer_running hw] at hp'
    simp at hp'
  · intro p' started' hp'
    exact Or.inl (hnx p' started' hp')
  · intro c' hc' hw'
    rw [hw] at hw'
    cases hw'
    exact absurd rfl hc'

theorem Tracked.submit (hc : s.role c = .drawing push.call false) :
    ∃ g', ((s.emit (.submitted push.call true)).goto c (.drainSubmitting t push)).Tracked g' := by
  obtain ⟨hw, hdr⟩ := h.role hc
  refine ⟨_, h.drawn_step hc (.submit hdr) rfl (by simp [BarrierCall.role]) ?_ ⟨hw, rfl⟩⟩
  intro p started hp
  cases hp
  rfl

theorem Tracked.settle (hc : s.role c = .drawing push.call true) (hr : call.role = .writing) :
    ∃ g', ((s.emit (.settled push.call)).goto c call).Tracked g' := by
  obtain ⟨hw, hdr⟩ := h.role hc
  refine ⟨_, h.drawn_step hc (.settle hdr) rfl (by simp [hr]) ?_ ?_⟩
  · intro p started hp
    cases hp
  · rw [hr]
    exact hw

end

theorem enqueue_goto : ((s.goto c call).enqueue c body).1 = (s.enqueue c body).1.goto c call := by
  unfold enqueue
  have hbar : (s.goto c call).barrier = s.barrier := rfl
  rw [hbar]
  split
  · rfl
  by_cases hcl : s.barrier.closed = true
  · rw [if_pos hcl, if_pos hcl]
    rfl
  · rw [if_neg hcl, if_neg hcl]
    rfl

section

variable (h : s.Tracked g)
include h

theorem Tracked.enqueue_then
    (hqt : (s.role c).submitting = false) (howi : s.role c ≠ .owing) (hfr : c ∉ s.accepted)
    (hop : s.barrier.closed = false) (hgat : s.gated = true)
    (hr : call.role = .idle ∨ call.role = .reading) (self : s.RoleOk g c call.role) :
    ∃ g', ((s.enqueue c body).1.goto c call).Tracked g' := by
  have htur : (s.goto c call).Tracked g := by
    refine h.goto hqt (Or.inr ?_) self
    rcases hr with hr | hr <;> simp [hr, howi]
  have hrl : (s.goto c call).role c = call.role := by
    rw [role_goto, update_self]
  rw [← enqueue_goto]
  exact htur.enqueue hop hgat hfr (hrl ▸ hr)

theorem Tracked.pushCheck (hc : s.role c = .pushing) : ∃ g', (s.pushCheck c body).Tracked g' := by
  have hqt : (s.role c).submitting = false := by
    rw [hc]
    rfl
  unfold PushBarrierState.pushCheck
  split
  · exact ⟨g, h.goto hqt (Or.inr (by simp [hc, BarrierCall.role])) trivial⟩
  rename_i hcl
  have hop : s.barrier.closed = false := by simpa using hcl
  split
  next hgat =>
    exact h.enqueue_then hqt (by simp [hc]) (h.role hc) hop hgat (Or.inl rfl) trivial
  · exact ⟨g, h.same_role hc⟩

theorem Tracked.pushRecheck (hc : s.role c = .checking) : ∃ g', (s.pushRecheck c body).Tracked g' := by
  obtain ⟨hrd, hfr⟩ := h.role hc
  have hqt : (s.role c).submitting = false := by
    rw [hc]
    rfl
  unfold PushBarrierState.pushRecheck
  split
  · exact ⟨g, h.goto hqt (Or.inr (by simp [hc, BarrierCall.role])) hrd⟩
  rename_i hcl
  have hop : s.barrier.closed = false := by simpa using hcl
  split
  next hgat =>
    exact h.enqueue_then hqt (by simp [hc]) hfr hop hgat (Or.inr rfl) hrd
  next hgat => exact h.pass hc hop (by simpa using hgat)

theorem Tracked.onceDo (hc : s.role c = .idle)
    (hr : call.role = .finishing t ∨ call.role = .idle) (hs : s.once c t call = some s') : s'.Tracked g := by
  obtain ⟨⟨once, done⟩, ht, hs⟩ := bind_eq_some_iff.mp hs
  cases once with
  | none =>
    cases hs
    exact h.claim hc ht hr
  | some c' =>
    obtain ⟨_, hs⟩ := ite_none_right_eq_some.mp hs
    cases hs
    exact h.goto (by rw [hc]; rfl) (Or.inr (by simp [hc, BarrierCall.role])) trivial

theorem Tracked.close_then {cause : Option BarrierError}
    (hw : s.writer = some c) (hqt : (s.role c).submitting = false) (hr : call.role = .writing) :
    ∃ g', ((s.close cause).goto c call).Tracked g' := by
  obtain ⟨g', hg'⟩ := h.close cause
  have hrl : (s.close cause).role c = s.role c := by
    unfold PushBarrierState.close
    split <;> rfl
  have hwr : (s.close cause).writer = some c := by
    unfold PushBarrierState.close
    split <;> exact hw
  have hcl : (s.close cause).barrier.closed = true := by
    unfold PushBarrierState.close
    split
    next hcl => exact hcl
    next hcl => simp [emit, closeLocked, hcl]
  refine ⟨g', hg'.goto (by rw [hrl]; exact hqt) (Or.inl hcl) ?_⟩
  rw [hr]
  exact hwr

theorem Tracked.finishRelease {replyErr : Option BarrierError}
    (hc : s.role c = .owing) : ∃ g', (s.finishRelease c t replyErr).Tracked g' := by
  have hw : s.writer = some c := h.role hc
  have hqt : (s.role c).submitting = false := by
    rw [hc]
    rfl
  cases replyErr with
  | some err => exact h.close_then hw hqt rfl
  | none =>
    dsimp only [PushBarrierState.finishRelease]
    by_cases hcl : s.barrier.closed = true
    · rw [if_pos hcl]
      exact ⟨g, h.goto hqt (Or.inl hcl) hw⟩
    have hop : s.barrier.closed = false := by simpa using hcl
    have hact := h.agrees.active hop
    rw [owed_of_writer hw, hc, if_pos rfl] at hact
    have hrel : s.barrier.releaseLocked = { s.barrier with active := s.barrier.active - 1 } := by
      unfold releaseLocked
      rw [if_pos (by omega)]
    rw [if_neg hcl, hrel]
    by_cases hst : s.barrier.active - 1 = 0 ∧ s.barrier.queue ≠ []
    · rw [if_pos hst]
      exact ⟨g, h.release hc rfl hop rfl (fun _ _ => rfl)⟩
    rw [if_neg hst]
    refine ⟨g, h.release hc rfl hop rfl ?_⟩
    intro hne hz
    exact absurd ⟨hz, hne⟩ hst

theorem Tracked.drain (hc : s.role c = .writing) : ∃ g', (s.drain c t).Tracked g' := by
  unfold PushBarrierState.drain
  split
  next hcl => exact ⟨g, h.stop hc rfl (Or.inl hcl)⟩
  rename_i hcl
  have hop : s.barrier.closed = false := by simpa using hcl
  split
  next hact => exact ⟨g, h.stop hc rfl (Or.inr (Or.inl hact))⟩
  rename_i hact
  have hie : s.barrier.active = 0 := by simpa using hact
  split
  next hque => exact ⟨g, h.stop hc rfl (Or.inr (Or.inr hque))⟩
  next push rest hque => exact h.draw hc hop hie hque

theorem Tracked.abortClose (hc : s.role c = .writing) : ∃ g', (s.abortClose c t).Tracked g' := by
  unfold PushBarrierState.abortClose
  split
  · exact ⟨g, h.same_role hc⟩
  · exact h.close_then (h.role hc) (by rw [hc]; rfl) rfl

end

end

variable {s : PushBarrierState}

section

variable {g : Gate CallID CallID} {c : CallID} {call : BarrierCall} (h : s.Tracked g)
include h

theorem run_tracked
    (hcl : s.calls c = some call) (hs : s.run c result call = some s') : ∃ g', s'.Tracked g' := by
  have hc := role_of_call hcl
  cases call with
  | beginLock =>
    exact ⟨g, h.lock (by rw [hc]; rfl) hs (by simp [BarrierCall.role]) ⟨rfl, h.role hc⟩⟩
  | beginActivate =>
    cases hs
    exact h.begin hc
  | beginUnlock =>
    cases hs
    exact ⟨g, h.unlock hc rfl⟩
  | pushCheck body =>
    cases hs
    exact h.pushCheck hc
  | pushRLock body =>
    obtain ⟨hfr, hs⟩ := ite_none_right_eq_some.mp hs
    cases hs
    exact ⟨g, h.rlock hc hfr⟩
  | pushRecheck body =>
    cases hs
    exact h.pushRecheck hc
  | pushSubmit body =>
    cases hs
    exact ⟨g, h.submitDirect hc⟩
  | pushSubmitting =>
    cases hs
    exact h.settleDirect hc
  | pushRUnlock result queueing =>
    cases hs
    refine ⟨g, h.runlock hc ?_⟩
    cases queueing <;> rfl
  | retireOverflow result =>
    cases hs
    exact ⟨g, h.turn (by rw [hc]; rfl) (Or.inr (by simp [hc, BarrierCall.role])) trivial⟩
  | finishOnce t => exact ⟨g, h.onceDo hc (Or.inl rfl) hs⟩
  | finishLock t =>
    obtain ⟨hmem, htok⟩ := h.role hc
    exact ⟨g, h.lock (by rw [hc]; rfl) hs (by simp [BarrierCall.role]) ⟨rfl, hmem, htok⟩⟩
  | finishCheck t =>
    cases hs
    unfold finishCheck
    split
    · exact ⟨g, h.goto (by rw [hc]; rfl) (Or.inr (by simp [hc, BarrierCall.role])) (h.role hc).1⟩
    · exact ⟨g, h.same_role hc⟩
  | finishReply t =>
    cases hs
    exact h.reply hc
  | finishRelease t replyErr =>
    cases hs
    exact h.finishRelease hc
  | drain t =>
    cases hs
    exact h.drain hc
  | drainSubmit t push =>
    cases hs
    exact h.submit hc
  | drainSubmitting t push =>
    cases hs
    cases result with
    | none => exact h.settle hc rfl
    | some err => exact h.settle hc rfl
  | drainFail t err =>
    cases hs
    exact h.close_then (h.role hc) (by rw [hc]; rfl) rfl
  | cancelOnce t => exact ⟨g, h.onceDo hc (Or.inr rfl) hs⟩
  | abortLock t => exact ⟨g, h.lock (by rw [hc]; rfl) hs (by simp [BarrierCall.role]) rfl⟩
  | abortClose t =>
    cases hs
    exact h.abortClose hc
  | onceUnlock t result retire =>
    cases hs
    exact ⟨g, h.unlock hc rfl⟩
  | onceReturn t result retire =>
    cases hs
    exact ⟨g, h.complete hc rfl⟩
  | closeLock cause => exact ⟨g, h.lock (by rw [hc]; rfl) hs (by simp [BarrierCall.role]) rfl⟩
  | closeClose cause =>
    cases hs
    exact h.close_then (h.role hc) (by rw [hc]; rfl) rfl
  | closeUnlock =>
    cases hs
    exact ⟨g, h.unlock hc rfl⟩
  | begun => cases hs
  | returned result => cases hs

theorem request_tracked {req : BarrierRequest} (hcl : s.calls c = none)
    (hreq : s.request req = some call) : (s.goto c call).Tracked g := by
  have hc : s.role c = .fresh := by simp [role, hcl]
  obtain ⟨hfr, hunm⟩ := h.role hc
  have hsf : s.RoleOk g c call.role ∧ call.role ≠ .owing := by
    cases req with
    | begin =>
      cases hreq
      exact ⟨hunm, by simp [BarrierCall.role]⟩
    | push ctxErr body =>
      cases ctxErr with
      | none =>
        cases hreq
        exact ⟨hfr, by simp [BarrierCall.role]⟩
      | some err =>
        cases hreq
        exact ⟨trivial, by simp [BarrierCall.role]⟩
    | finish t | cancel t =>
      dsimp only [request] at hreq
      split at hreq
      · cases hreq
        exact ⟨trivial, by simp [BarrierCall.role]⟩
      · cases hreq
    | close cause =>
      cases hreq
      exact ⟨trivial, by simp [BarrierCall.role]⟩
  exact h.goto (by rw [hc]; rfl) (Or.inr (by simp [hc, hsf.2])) hsf.1

end

theorem step_tracked {op : BarrierOp} (h : ∃ g, s.Tracked g)
    (hs : s.step op = some s') : ∃ g, s'.Tracked g := by
  obtain ⟨g, h⟩ := h
  cases op with
  | call c req =>
    dsimp only [step] at hs
    split at hs
    next hcl =>
      obtain ⟨call, hreq, rfl⟩ := map_eq_some_iff.mp hs
      exact ⟨g, request_tracked h hcl hreq⟩
    · cases hs
  | advance c result =>
    obtain ⟨call, hcl, hrun⟩ := bind_eq_some_iff.mp hs
    exact run_tracked h hcl hrun

theorem initial_tracked (maxCount maxBytes : Int) : (initial maxCount maxBytes).Tracked .start := by
  refine ⟨.nil, ⟨rfl, rfl, fun _ => rfl, ?_⟩, fun _ => rfl, ?_, ?_, ?_, ?_, nodup_nil, ?_⟩
  · intro _ hne
    exact absurd rfl hne
  · intro p hp
    simp [Gate.start] at hp
  · intro p started hp
    cases hp
  · intro t done ht
    cases ht
  · intro t ht
    simp [Gate.start] at ht
  · intro c
    exact ⟨by simp [accepted, initial], rfl⟩

end PushBarrierState

end Tlrpc
