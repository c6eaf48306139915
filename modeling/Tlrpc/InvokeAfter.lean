import Tlrpc.RequestOutcomes

namespace Tlrpc

open List Function RegistryState

open ActiveRequestRegistry

variable {r : ActiveRequestRegistry}

theorem ActiveRequestRegistry.poll_eq_true {ids : List Int}
    {allComplete : Bool} (h : r.poll allComplete ids = some true) :
    allComplete = true ∧ ∀ id ∈ ids, r.completed id = some true := by
  induction ids generalizing allComplete with
  | nil => exact ⟨Option.some.inj h, fun id hid => absurd hid not_mem_nil⟩
  | cons id ids ih =>
    unfold poll at h
    split at h
    next hso =>
      obtain ⟨hall, hrs⟩ := ih h
      refine ⟨hall, fun x hx => ?_⟩
      rcases mem_cons.mp hx with rfl | hx
      · exact hso
      · exact hrs x hx
    · cases h
    · exact absurd (ih h).1 Bool.false_ne_true

theorem ActiveRequestRegistry.poll_eq_false {ids : List Int}
    {allComplete : Bool} (h : r.poll allComplete ids = some false) :
    allComplete = false ∨ ∃ id ∈ ids, r.completed id = none := by
  induction ids generalizing allComplete with
  | nil => exact .inl (Option.some.inj h)
  | cons id ids ih =>
    unfold poll at h
    split at h
    · rcases ih h with hall | ⟨x, hx, hno⟩
      · exact .inl hall
      · exact .inr ⟨x, mem_cons_of_mem id hx, hno⟩
    · cases h
    next hno => exact .inr ⟨id, mem_cons_self, hno⟩

/-- The latest of the first `looked` outcomes of the ID was retained, and success. -/
def SucceededAt (r : ActiveRequestRegistry) (looked : Nat) (id : Int) : Prop :=
  id ∈ recent r.capacity.toNat ((r.outcomes.take looked).map (·.id)) ∧
    lastOutcome (r.outcomes.take looked) id = some true

/-- A sleeping wait holds the channel it saw; a successful one saw all succeed at one instant. -/
def RequestCall.Sound (r : ActiveRequestRegistry) : RequestCall → Prop
  | .completeOnce q _ | .completeFinish q _ | .completeCancel q | .dropCancel q => q < r.allocated
  | .cancelAll qs => ∀ q ∈ qs, q < r.allocated
  | .waitSleep ids changed => changed ≤ r.changed ∧
    (changed = r.changed → ∃ id ∈ ids, r.completed id = none)
  | .waited ids .complete looked => looked ≤ r.outcomes.length ∧ ∀ id ∈ ids, SucceededAt r looked id
  | .begun (.ok refs) => ∀ q ∈ refs, q < r.allocated
  | _ => True

variable {r r' : ActiveRequestRegistry}

theorem SucceededAt.extend (h : Extends r r') {looked : Nat} {id : Int}
    (hloo : looked ≤ r.outcomes.length) (hs : SucceededAt r looked id) : SucceededAt r' looked id := by
  obtain ⟨more, hmr⟩ := h.outcomes
  unfold SucceededAt
  rw [← hmr, take_append_of_le_length hloo, h.capacity]
  exact hs

theorem RequestCall.Sound.extend (h : Extends r r')
    {call : RequestCall} (hs : call.Sound r) : call.Sound r' := by
  have hle := h.allocated
  cases call with
  | completeOnce q _ => exact lt_of_lt_of_le hs hle
  | completeFinish q _ => exact lt_of_lt_of_le hs hle
  | completeCancel q => exact lt_of_lt_of_le hs hle
  | dropCancel q => exact lt_of_lt_of_le hs hle
  | cancelAll qs => exact fun q hq => lt_of_lt_of_le (hs q hq) hle
  | waitPoll ids => trivial
  | waitSleep ids changed =>
    obtain ⟨hcha, hasl⟩ := hs
    have hle' := h.changed
    refine ⟨le_trans hcha hle', fun heq => ?_⟩
    rw [(h.quiet (by omega)).1]
    exact hasl (by omega)
  | waited ids result looked =>
    cases result with
    | complete =>
      obtain ⟨hloo, hall⟩ := hs
      exact ⟨le_trans hloo h.outcomes.length_le, fun id hid => (hall id hid).extend h hloo⟩
    | _ => trivial
  | begun result =>
    cases result with
    | ok refs => exact fun q hq => lt_of_lt_of_le (hs q hq) hle
    | error _ => trivial
  | dropped _ => trivial
  | returned => trivial

namespace RegistryState

structure Sound (s : RegistryState) : Prop where
  registry : s.registry.Sound
  calls : ∀ c call, s.calls c = some call → call.Sound s.registry

variable {c : CallID} {call : RequestCall} {s s' : RegistryState} {ids : List Int}

theorem Sound.advance (h : s.Sound) (hr : r.Sound ∧ Extends s.registry r) (hcl : call.Sound r) :
    ({ s with registry := r }.goto c call).Sound := by
  refine ⟨hr.1, fun c' call' hc' => ?_⟩
  have hc' : Function.update s.calls c (some call) c' = some call' := hc'
  by_cases heq : c' = c
  · subst heq
    rw [update_self] at hc'
    cases hc'
    exact hcl
  · rw [update_of_ne heq] at hc'
    exact (h.calls c' call' hc').extend hr.2

theorem Sound.stay (h : s.Sound) (hcl : call.Sound s.registry) : (s.goto c call).Sound :=
  h.advance ⟨h.registry, .refl _⟩ hcl

theorem Sound.waitPoll (h : s.Sound) (ids : List Int) : (s.waitPoll ids).Sound s.registry := by
  unfold RegistryState.waitPoll
  split
  · trivial
  next hall =>
    obtain ⟨_, hall⟩ := poll_eq_true hall
    refine ⟨le_refl _, fun id hid => ?_⟩
    have hdn := hall id hid
    have hcom := h.registry.completed id
    unfold SucceededAt
    rw [take_length, ← h.registry.order]
    by_cases hmem : id ∈ s.registry.completedOrder
    · rw [if_pos hmem, hdn] at hcom
      exact ⟨hmem, hcom.symm⟩
    · rw [if_neg hmem, hdn] at hcom
      cases hcom
  next hso =>
    refine ⟨le_refl _, fun _ => ?_⟩
    exact (poll_eq_false hso).resolve_left (Bool.noConfusion ·)

theorem Sound.waitStart (ids : List Int) (timeout : Int) : (s.waitStart ids timeout).Sound s.registry := by
  unfold RegistryState.waitStart
  split
  next hnil =>
    subst hnil
    exact ⟨le_refl _, fun id hid => absurd hid not_mem_nil⟩
  · split <;> trivial

theorem Sound.run (h : s.Sound) {wake : WakeReason}
    (hcl : call.Sound s.registry) (hrun : s.run c wake call = some s') :
    s'.Sound ∧ Extends s.registry s'.registry := by
  have hr := h.registry
  cases call with
  | completeOnce q success =>
    dsimp only [run, completeOnce] at hrun
    split at hrun
    · cases hrun
      have hset := hr.setOnce q .running
      exact ⟨h.advance hset hcl, hset.2⟩
    · cases hrun
    cases hrun
    exact ⟨h.stay trivial, .refl _⟩
  | completeFinish q success =>
    cases hrun
    have hfin := hr.finishLocked hcl success
    exact ⟨h.advance hfin (lt_of_lt_of_le hcl hfin.2.allocated), hfin.2⟩
  | completeCancel q =>
    cases hrun
    obtain ⟨hcan, hext⟩ := hr.cancel q
    obtain ⟨hon, hext'⟩ := hcan.setOnce q .done
    exact ⟨h.advance ⟨hon, hext.trans hext'⟩ trivial, hext.trans hext'⟩
  | dropCancel q =>
    cases hrun
    exact ⟨h.advance (hr.cancel q) trivial, (hr.cancel q).2⟩
  | cancelAll qs =>
    cases qs with
    | nil =>
      cases hrun
      exact ⟨h.stay trivial, .refl _⟩
    | cons q rest =>
      cases hrun
      exact ⟨h.advance (hr.cancel q) fun q' hq' => hcl q' (mem_cons_of_mem q hq'), (hr.cancel q).2⟩
  | waitPoll ids =>
    cases hrun
    exact ⟨h.stay (h.waitPoll ids), .refl _⟩
  | waitSleep ids changed =>
    cases wake with
    | ctxDone =>
      cases hrun
      exact ⟨h.stay trivial, .refl _⟩
    | timer =>
      cases hrun
      exact ⟨h.stay trivial, .refl _⟩
    | changed =>
      dsimp only [run] at hrun
      split at hrun
      · cases hrun
        exact ⟨h.stay trivial, .refl _⟩
      · cases hrun
  | _ => cases hrun

theorem Sound.start (h : s.Sound) {op : RequestOp}
    (hst : s.start c op = some s') : s'.Sound ∧ Extends s.registry s'.registry := by
  have hr := h.registry
  cases op with
  | beginBatch _ ids =>
    cases hst
    obtain ⟨hsd, hext, hres⟩ := hr.beginBatch ids
    refine ⟨h.advance ⟨hsd, hext⟩ ?_, hext⟩
    rcases hres with ⟨err, herr⟩ | ⟨refs, hrf, _, _, hreg⟩
    · rw [herr]
      trivial
    · rw [hrf]
      exact hreg.lt_allocated
  | complete _ q success =>
    dsimp only [RegistryState.start] at hst
    split at hst
    next hlt =>
      cases hst
      exact ⟨h.stay hlt, .refl _⟩
    · cases hst
  | drop _ id =>
    cases hst
    have hdr := hr.drop id
    refine ⟨h.advance hdr ?_, hdr.2⟩
    split
    next q hq => exact lt_of_lt_of_le ((hr.active id q).mp hq).1 hdr.2.allocated
    · trivial
  | cancelAll _ order =>
    dsimp only [RegistryState.start] at hst
    split at hst
    next hpr =>
      cases hst
      have hkn : ∀ e ∈ order, e.2 < s.registry.allocated ∧ (s.registry.requests e.2).id = e.1 := by
        intro e he
        obtain ⟨⟨id, q⟩, hent, rfl⟩ := mem_map.mp (hpr.subset he)
        obtain ⟨hlt, _, hid⟩ := (hr.active id q).mp (AList.mem_lookup_iff.mpr hent)
        exact ⟨hlt, hid⟩
      have hcan := hr.cancelAll hkn
      refine ⟨h.advance hcan fun q hq => ?_, hcan.2⟩
      obtain ⟨e, he, rfl⟩ := mem_map.mp hq
      exact lt_of_lt_of_le (hkn e he).1 hcan.2.allocated
    · cases hst
  | wait _ ids timeout =>
    cases hst
    exact ⟨h.stay (Sound.waitStart ids timeout), .refl _⟩
  | advance _ _ => cases hst

theorem Sound.step (h : s.Sound) {op : RequestOp} (hst : s.step op = some s') :
    s'.Sound ∧ Extends s.registry s'.registry := by
  unfold RegistryState.step at hst
  split at hst
  next c wake call hcl => exact h.run (h.calls c call hcl) hst
  · cases hst
  · exact h.start hst
  · cases hst

theorem initial_sound {capacity : Int}
    (h : newActiveRequestRegistry capacity = some r) : (initial r).Sound ∧ r.capacity = capacity := by
  unfold newActiveRequestRegistry at h
  split at h
  · cases h
  rename_i hpos
  cases h
  refine ⟨⟨⟨Int.not_le.mp hpos, ?_, ?_, ?_, ?_, ?_, (recent_nil _).symm, fun id => rfl⟩, fun c call hc => nomatch hc⟩, rfl⟩
  · show ((0 : Nat) : Int) ≤ capacity
    omega
  · intro id q
    refine ⟨(nomatch ·), fun hq => absurd hq.1 (Nat.not_lt_zero q)⟩
  · exact fun q q' _ hq' => absurd hq' (Nat.not_lt_zero q')
  · exact fun o ho => absurd ho not_mem_nil
  · exact fun q hq => absurd hq (Nat.not_lt_zero q)

theorem Sound.complete_finish (h : s.Sound) {q : RequestRef}
    {success : Bool} {wake : WakeReason} (hc : s.calls c = some (.completeFinish q success))
    (hst : s.step (.advance c wake) = some s') :
    (∀ q' ≠ q, s'.registry.requests q' = s.registry.requests q' ∧
      (∀ id, s'.registry.active.lookup id = some q' ↔ s.registry.active.lookup id = some q') ∧
      s'.registry.outcomes.countP (·.request = q') = s.registry.outcomes.countP (·.request = q')) ∧
    (∀ q' > q, q' < s.registry.allocated →
      (s.registry.requests q').id = (s.registry.requests q).id → s'.registry = s.registry) := by
  have hq : q < s.registry.allocated := h.calls c _ hc
  have hs' : s'.registry = s.registry.finishLocked (s.registry.requests q).id q success := by
    dsimp only [RegistryState.step, RequestOp.caller] at hst
    rw [hc] at hst
    cases hst
    rfl
  rw [hs']
  cases hend : (s.registry.requests q).ended with
  | true =>
    rw [finishLocked_of_ended hend]
    exact ⟨fun q' _ => ⟨rfl, fun _ => Iff.rfl, rfl⟩, fun _ _ _ _ => rfl⟩
  | false =>
    have hf := h.registry.finished hq hend success
    have hsd := hf.sound h.registry hq hend
    refine ⟨fun q' hne => ?_, fun q' hlt hq' hid => ?_⟩
    · have hsm : (s.registry.finishLocked (s.registry.requests q).id q success).requests q' =
          s.registry.requests q' := by rw [hf.requests, update_of_ne hne]
      refine ⟨hsm, fun id => ?_, ?_⟩
      · rw [hsd.active, h.registry.active, hsm, hf.allocated]
      · rw [hf.outcomes, countP_append, countP_singleton]
        simp [Ne.symm hne]
    · have := h.registry.renewed q q' hlt hq' hid.symm
      rw [hend] at this
      cases this

theorem Sound.begin_step (h : s.Sound) (hst : s.step (.beginBatch c ids) = some s') :
    (∃ err, s'.calls c = some (.begun (.error err)) ∧ s'.registry = s.registry) ∨
      ∃ refs, s'.calls c = some (.begun (.ok refs)) ∧ ids.Nodup ∧
        (∀ id ∈ ids, id ≠ 0 ∧ s.registry.active.lookup id = none) ∧
        Registered s.registry ids refs s'.registry := by
  have hs' : s' = { s with registry := (s.registry.beginBatch ids).2 }.goto c
      (.begun (s.registry.beginBatch ids).1) := by
    dsimp only [RegistryState.step, RequestOp.caller] at hst
    split at hst
    next heq _ => cases heq
    next heq _ => cases heq
    · cases hst
      rfl
    · cases hst
  have hcl : s'.calls c = some (.begun (s.registry.beginBatch ids).1) := by
    rw [hs']
    exact update_self _ _ _
  have hreg : s'.registry = (s.registry.beginBatch ids).2 := by rw [hs']; rfl
  obtain ⟨_, _, hres⟩ := h.registry.beginBatch ids
  rw [hcl, hreg]
  rcases hres with ⟨err, herr⟩ | ⟨refs, hrf, hnd, hall, hrg⟩
  · rw [herr]
    exact .inl ⟨err, rfl, rfl⟩
  · rw [hrf]
    exact .inr ⟨refs, rfl, hnd, hall, hrg⟩

theorem step_wakes {changed : Nat}
    (hc : s.calls c = some (.waitSleep ids changed)) (hlt : changed < s.registry.changed) :
    ∃ s', s.step (.advance c .changed) = some s' := by
  dsimp only [step, RequestOp.caller]
  rw [hc]
  dsimp only [run]
  rw [if_pos hlt]
  exact ⟨_, rfl⟩

theorem Sound.wakes (h : s.Sound) {changed : Nat} (hc : s.calls c = some (.waitSleep ids changed))
    (done : ∀ id ∈ ids, s.registry.completed id = some true) :
    ∃ s', s.step (.advance c .changed) = some s' := by
  obtain ⟨hle, hasl⟩ := h.calls c _ hc
  refine step_wakes hc (lt_of_le_of_ne hle fun heq => ?_)
  obtain ⟨id, hid, hno⟩ := hasl heq
  rw [done id hid] at hno
  cases hno

end RegistryState

/-- For every interleaving of the calls of a registry, at the end of every run. -/
theorem active_request_history {capacity : Int} {r : ActiveRequestRegistry} {ops : List RequestOp}
    {s : RegistryState} (made : newActiveRequestRegistry capacity = some r)
    (run : exec RegistryState.step (.initial r) ops = some s) : s.registry.active.keys.length ≤ capacity ∧
    s.registry.completedOrder.Nodup ∧ s.registry.completedOrder.length ≤ capacity ∧
    (∀ id, id ∈ s.registry.completedOrder ↔ (s.registry.completed id).isSome) ∧
    s.registry.completedOrder = recent capacity.toNat (s.registry.outcomes.map (·.id)) ∧
    (∀ id ∈ s.registry.completedOrder, s.registry.completed id = lastOutcome s.registry.outcomes id) ∧
    -- every registration is active and has no outcome, or has exactly one
    (∀ q < s.registry.allocated, s.registry.outcomes.countP (·.request = q) =
      if s.registry.active.lookup (s.registry.requests q).id = some q then 0 else 1) ∧
    -- `Complete` changes no other registration, and nothing once there is a newer one
    (∀ c q success wake s', s.calls c = some (.completeFinish q success) →
      s.step (.advance c wake) = some s' → (∀ q' ≠ q, s'.registry.requests q' = s.registry.requests q' ∧
        (∀ id, s'.registry.active.lookup id = some q' ↔ s.registry.active.lookup id = some q') ∧
        s'.registry.outcomes.countP (·.request = q') = s.registry.outcomes.countP (·.request = q')) ∧
      (∀ q' > q, q' < s.registry.allocated →
        (s.registry.requests q').id = (s.registry.requests q).id → s'.registry = s.registry)) ∧
    (∀ c ids s', s.step (.beginBatch c ids) = some s' →
      (∃ err, s'.calls c = some (.begun (.error err)) ∧ s'.registry = s.registry) ∨
        ∃ refs, s'.calls c = some (.begun (.ok refs)) ∧ ids.Nodup ∧
          (∀ id ∈ ids, id ≠ 0 ∧ s.registry.active.lookup id = none) ∧
          Registered s.registry ids refs s'.registry) ∧
    (∀ c ids looked, s.calls c = some (.waited ids .complete looked) →
      ∀ id ∈ ids, SucceededAt s.registry looked id) ∧
    -- no wait sleeps on once its dependencies are retained as success, or past a begin or a finish
    (∀ c ids changed, s.calls c = some (.waitSleep ids changed) →
      (∀ id ∈ ids, s.registry.completed id = some true) → ∃ s', s.step (.advance c .changed) = some s') ∧
    (∀ op s' c ids changed, s.step op = some s' → s.calls c = some (.waitSleep ids changed) →
      s'.calls c = some (.waitSleep ids changed) →
      s'.registry.allocated ≠ s.registry.allocated ∨ s'.registry.outcomes ≠ s.registry.outcomes →
      ∃ s'', s'.step (.advance c .changed) = some s'') := by
  obtain ⟨hst, hcap⟩ := initial_sound made
  have hinv : s.Sound ∧ s.registry.capacity = capacity := by
    apply exec_inductive ?_ ?_ run
    · intro s op s' hs hsp
      obtain ⟨hsd, hext⟩ := hs.1.step hsp
      exact ⟨hsd, hext.capacity.trans hs.2⟩
    · exact ⟨hst, hcap⟩
  obtain ⟨h, rfl⟩ := hinv
  have hr := h.registry
  have hlen : s.registry.completedOrder.length ≤ s.registry.capacity := by
    have := recent_length_le s.registry.capacity.toNat (s.registry.outcomes.map (·.id))
    have := hr.positive
    rw [hr.order]
    omega
  refine ⟨hr.bounded, hr.order_nodup, hlen, fun id => (hr.completed_isSome id).symm, hr.order, ?_, ?_, ?_,
    ?_, ?_, ?_, ?_⟩
  · intro id hid
    rw [hr.completed, if_pos hid]
  · intro q hq
    rw [hr.once q hq]
    by_cases hend : (s.registry.requests q).ended = true
    · rw [if_pos hend, if_neg]
      intro hlk
      rw [((hr.active _ q).mp hlk).2.1] at hend
      cases hend
    · rw [if_neg hend, if_pos]
      exact (hr.active _ q).mpr ⟨hq, eq_false_of_ne_true hend, rfl⟩
  · exact fun c q success wake s' hc hsp => h.complete_finish hc hsp
  · exact fun c ids s' hsp => h.begin_step hsp
  · exact fun c ids looked hc => (h.calls c _ hc).2
  · exact fun c ids changed hc done => h.wakes hc done
  · intro op s' c ids changed hsp hc hc' hcha
    obtain ⟨_, hext⟩ := h.step hsp
    obtain ⟨hle, _⟩ := h.calls c _ hc
    refine step_wakes hc' (lt_of_le_of_lt hle (lt_of_le_of_ne hext.changed fun heq => ?_))
    obtain ⟨_, hout, hall⟩ := hext.quiet heq.symm
    rcases hcha with hne | hne
    · exact hne hall
    · exact hne hout

def dependentRun : List RequestOp :=
  [.beginBatch 0 [4], .complete 1 0 true, .advance 1 .changed, .advance 1 .changed,
    .advance 1 .changed, .wait 2 [4] 1, .advance 2 .changed]

theorem active_request_history_dependent : ∃ r s, newActiveRequestRegistry 1 = some r ∧
    exec RegistryState.step (.initial r) dependentRun = some s ∧
    s.calls 2 = some (.waited [4] .complete 1) ∧ SucceededAt s.registry 1 4 := by
  obtain ⟨r, made⟩ : ∃ r, newActiveRequestRegistry 1 = some r := ⟨_, rfl⟩
  obtain ⟨s, hrun, hcl⟩ : ∃ s, exec step (.initial r) dependentRun = some s ∧
      s.calls 2 = some (.waited [4] .complete 1) := by
    cases made
    exact ⟨_, rfl, rfl⟩
  obtain ⟨_, _, _, _, _, _, _, _, _, hwai, _⟩ := active_request_history made hrun
  exact ⟨r, s, made, hrun, hcl, hwai 2 [4] 1 hcl 4 mem_cons_self⟩

end Tlrpc
