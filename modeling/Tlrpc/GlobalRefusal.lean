import Tlrpc.QuotasExact

namespace Tlrpc

open List Function

namespace QuotaServer

def refusesGlobally (s : QuotaServer) : Prop :=
  s.maxConnections > 0 ∧ s.connections.length > s.maxConnections

/-- Other connections of the map, not admitted yet, refused or finished. -/
def inTransit (s : QuotaServer) (c : ConnRef) : Nat :=
  (s.connections.erase c).countP fun other => s.stage other ≠ .running

/-- The map holds the connections between their insertion and their removal. -/
structure Mapped (n : Int) (s : QuotaServer) : Prop where
  limit : s.maxConnections = n
  nodup : s.connections.Nodup
  present : ∀ c, c ∈ s.connections ↔ s.stage c ≠ .fresh ∧ s.stage c ≠ .gone
  room : 0 < n → s.connectionStates.length ≤ n

variable {s s' : QuotaServer} {c : ConnRef} {n : Int} {bounds : Int × Int}

theorem present_goto (h : ∀ x, x ∈ s.connections ↔ s.stage x ≠ .fresh ∧ s.stage x ≠ .gone)
    (hc : c ∈ s.connections) {stage : ServeStage} (hfr : stage ≠ .fresh) (hgn : stage ≠ .gone) :
    ∀ x, x ∈ s.connections ↔ update s.stage c stage x ≠ .fresh ∧ update s.stage c stage x ≠ .gone := by
  intro x
  by_cases hx : x = c
  · rw [hx, update_self]
    exact ⟨fun _ => ⟨hfr, hgn⟩, fun _ => hc⟩
  · rw [update_of_ne hx]
    exact h x

theorem present_erase (h : ∀ x, x ∈ s.connections ↔ s.stage x ≠ .fresh ∧ s.stage x ≠ .gone)
    (hnd : s.connections.Nodup) (x : ConnRef) : x ∈ s.connections.erase c ↔
      update s.stage c .gone x ≠ .fresh ∧ update s.stage c .gone x ≠ .gone := by
  rw [hnd.mem_erase_iff]
  by_cases hx : x = c
  · rw [hx, update_self]
    exact ⟨fun hbt => absurd rfl hbt.1, fun hbt => absurd rfl hbt.2⟩
  · rw [update_of_ne hx, ← h x]
    exact ⟨And.right, fun hmem => ⟨hx, hmem⟩⟩

theorem observed_map (s : QuotaServer) (binding : Binding) :
    ((s.handleObservedSessionBound binding).maxConnections = s.maxConnections ∧
      (s.handleObservedSessionBound binding).connections = s.connections) ∧
    (s.handleObservedSessionUnbound binding).maxConnections = s.maxConnections ∧
      (s.handleObservedSessionUnbound binding).connections = s.connections := by
  unfold handleObservedSessionBound handleObservedSessionUnbound addSession countAuth
  dsimp only
  constructor
  all_goals
    repeat' split
    all_goals exact ⟨rfl, rfl⟩

theorem finishConnection_map (s : QuotaServer) (c : ConnRef) :
    (s.finishConnection c).maxConnections = s.maxConnections ∧
      (s.finishConnection c).connections = s.connections ∧ (s.finishConnection c).stage = s.stage ∧
      (s.finishConnection c).connectionStates.length ≤ s.connectionStates.length := by
  have her : (s.connectionStates.erase c).length ≤ s.connectionStates.length := length_erase_le
  unfold finishConnection finishSessions finishAuth finishIP finishMaps
  dsimp only
  repeat' split
  all_goals first | exact ⟨rfl, rfl, rfl, her⟩ | exact ⟨rfl, rfl, rfl, Nat.le_refl _⟩

theorem admitConnection_map (s : QuotaServer) (c : ConnRef) (remoteIP : String) (id : UInt64) :
    (s.admitConnection c remoteIP id).1.maxConnections = s.maxConnections ∧
      (s.admitConnection c remoteIP id).1.connections = s.connections ∧
      ((s.admitConnection c remoteIP id).2 = true → ¬s.refusesGlobally) := by
  unfold admitConnection refusesGlobally
  repeat' split
  all_goals first | exact ⟨rfl, rfl, fun _ => by assumption⟩ | exact ⟨rfl, rfl, fun h => absurd h Bool.false_ne_true⟩

section

variable (h : s.Mapped n) (hsd : s.Sound bounds)
include h hsd

theorem Mapped.admitted (hc : c ∈ s.connections)
    (hout : c ∉ s.connectionStates) : s.connectionStates.length + 1 ≤ s.connections.length := by
  have hsub : s.connectionStates ++ [c] ⊆ s.connections := by
    intro x hx
    rcases mem_append.mp hx with hx | hx
    · have hrun := (hsd.running x).mp hx
      rw [h.present, hrun]
      exact ⟨nofun, nofun⟩
    · rw [mem_singleton.mp hx]
      exact hc
  have hnd : (s.connectionStates ++ [c]).Nodup :=
    nodup_append_comm.mp (nodup_cons.mpr ⟨hout, hsd.exact.nodup⟩)
  have hlen := (hnd.subperm hsub).length_le
  rw [length_append] at hlen
  exact hlen

theorem Mapped.advance {stage : ServeStage}
    (hst : s.stage c = stage) (hadv : s.advance c stage = some s') : s'.Mapped n := by
  have hc : stage ≠ .fresh → stage ≠ .gone → c ∈ s.connections := by
    intro hfr hgn
    rw [h.present, hst]
    exact ⟨hfr, hgn⟩
  cases stage with
  | accepted remoteIP =>
    cases hadv
    exact ⟨h.limit, h.nodup, present_goto h.present (hc nofun nofun) nofun nofun, h.room⟩
  | identified remoteIP id =>
    cases hadv
    obtain ⟨hlim, hmap, hrm⟩ := admitConnection_map s c remoteIP id
    obtain ⟨hkp, _, hsts⟩ := admitConnection_kept s c remoteIP id
    have hmem := hc nofun nofun
    constructor
    case limit => exact hlim.trans h.limit
    case nodup =>
      show (s.admitConnection c remoteIP id).1.connections.Nodup
      rw [hmap]
      exact h.nodup
    case present =>
      show ∀ x, x ∈ (s.admitConnection c remoteIP id).1.connections ↔
        update (s.admitConnection c remoteIP id).1.stage c _ x ≠ .fresh ∧
          update (s.admitConnection c remoteIP id).1.stage c _ x ≠ .gone
      rw [hmap, hkp]
      refine present_goto h.present hmem ?_ ?_ <;> split <;> nofun
    case room =>
      intro hps
      show ((s.admitConnection c remoteIP id).1.connectionStates.length : Int) ≤ n
      rw [hsts]
      split
      next hadm =>
        have hft := hrm hadm
        have hlen := h.admitted hsd hmem (fun hrun => by
          rw [hsd.running, hst] at hrun
          cases hrun)
        unfold refusesGlobally at hft
        rw [h.limit] at hft
        rw [length_append, length_singleton]
        omega
      · exact h.room hps
  | rejected =>
    cases hadv
    refine ⟨h.limit, h.nodup.erase c, present_erase h.present h.nodup, fun hps => ?_⟩
    have hrm := h.room hps
    have hle : (s.connectionStates.erase c).length ≤ s.connectionStates.length := length_erase_le
    show ((s.connectionStates.erase c).length : Int) ≤ n
    omega
  | running =>
    cases hadv
    obtain ⟨hlim, hmap, hkp, hle⟩ := finishConnection_map s c
    constructor
    case limit => exact hlim.trans h.limit
    case nodup =>
      show (s.finishConnection c).connections.Nodup
      rw [hmap]
      exact h.nodup
    case present =>
      show ∀ x, x ∈ (s.finishConnection c).connections ↔ update (s.finishConnection c).stage c _ x ≠ .fresh ∧
          update (s.finishConnection c).stage c _ x ≠ .gone
      rw [hmap, hkp]
      exact present_goto h.present (hc nofun nofun) nofun nofun
    case room =>
      intro hps
      have hrm := h.room hps
      show ((s.finishConnection c).connectionStates.length : Int) ≤ n
      omega
  | finished =>
    cases hadv
    exact ⟨h.limit, h.nodup.erase c, present_erase h.present h.nodup, h.room⟩
  | fresh => cases hadv
  | gone => cases hadv

theorem Mapped.step {op : QuotaOp} (hst : s.step op = some s') : s'.Mapped n := by
  cases op with
  | serve c remoteIP =>
    unfold QuotaServer.step at hst
    obtain ⟨hfr, hst⟩ := Option.ite_none_right_eq_some.mp hst
    have hout : c ∉ s.connections := fun hmem => ((h.present c).mp hmem).1 hfr
    split at hst
    · cases hst
      have hpr := present_erase (c := c) h.present h.nodup
      rw [erase_of_not_mem hout] at hpr
      exact ⟨h.limit, h.nodup, hpr, h.room⟩
    cases hst
    refine ⟨h.limit, nodup_append_comm.mp (nodup_cons.mpr ⟨hout, h.nodup⟩), ?_, h.room⟩
    intro x
    show x ∈ s.connections ++ [c] ↔ update s.stage c (.accepted remoteIP) x ≠ .fresh ∧
      update s.stage c (.accepted remoteIP) x ≠ .gone
    by_cases hx : x = c
    · simp [hx]
    · simp [hx, h.present]
  | advance c => exact h.advance hsd rfl hst
  | bound binding =>
    cases hst
    obtain ⟨⟨hlim, hmap⟩, -⟩ := observed_map s binding
    obtain ⟨hsts, hkp, -⟩ := bound_kept s binding
    exact ⟨hlim.trans h.limit, hmap ▸ h.nodup, by rw [hmap, hkp]; exact h.present,
      by rw [hsts]; exact h.room⟩
  | unbound binding =>
    cases hst
    obtain ⟨-, hlim, hmap⟩ := observed_map s binding
    obtain ⟨hsts, hkp, -⟩ := unbound_kept s binding
    exact ⟨hlim.trans h.limit, hmap ▸ h.nodup, by rw [hmap, hkp]; exact h.present,
      by rw [hsts]; exact h.room⟩
  | stop =>
    cases hst
    exact ⟨h.limit, h.nodup, h.present, h.room⟩

theorem Mapped.length_connections (hc : c ∈ s.connections) (hst : s.stage c ≠ .running) :
    s.connections.length = s.connectionStates.length + s.inTransit c + 1 := by
  have hpr : ((s.connections.erase c).filter fun x => s.stage x = .running).Perm s.connectionStates := by
    refine (perm_ext_iff_of_nodup ((h.nodup.erase c).filter _) hsd.exact.nodup).mpr fun x => ?_
    rw [mem_filter, h.nodup.mem_erase_iff, decide_eq_true_eq, hsd.running, h.present]
    constructor
    · exact And.right
    · intro hrun
      refine ⟨⟨?_, ?_⟩, hrun⟩
      · rintro rfl
        exact hst hrun
      · rw [hrun]
        exact ⟨nofun, nofun⟩
  have hrun : (s.connections.erase c).countP (fun x => s.stage x = .running) =
      s.connectionStates.length := by
    rw [countP_eq_length_filter]
    exact hpr.length_eq
  have hspl := length_eq_countP_add_countP (fun x => decide (s.stage x = .running))
    (l := s.connections.erase c)
  have her := length_erase_of_mem hc
  have hps := length_pos_of_mem hc
  have htra : (s.connections.erase c).countP (fun x => decide ¬decide (s.stage x = .running) = true) =
      s.inTransit c := by
    unfold inTransit
    simp
  omega

end

/-- No more are admitted than the limit; a refusal is due exactly to others admitted or in transit. -/
theorem global_refusal_exact {n maxConnectionsPerIP maxConnectionsPerAuthKey : Int} {ops : List QuotaOp}
    {s : QuotaServer} (hn : 0 < n)
    (hrun : exec step (idle n maxConnectionsPerIP maxConnectionsPerAuthKey) ops = some s) :
    s.connectionStates.Nodup ∧ (∀ c, c ∈ s.connectionStates ↔ s.stage c = .running) ∧
    s.connectionStates.length ≤ n ∧ ∀ c remoteIP id, s.stage c = .identified remoteIP id →
      (s.refusesGlobally → ∃ s', s.step (.advance c) = some s' ∧ s'.stage c = .rejected) ∧
      ((s.refusesGlobally → n ≤ s.connectionStates.length) ↔
        s.connectionStates.length + s.inTransit c < n ∨ n ≤ s.connectionStates.length) := by
  have hinv : s.Sound (maxConnectionsPerIP, maxConnectionsPerAuthKey) ∧ s.Mapped n := by
    have hsty : ∀ (u : QuotaServer) (op : QuotaOp) (u' : QuotaServer),
        u.Sound (maxConnectionsPerIP, maxConnectionsPerAuthKey) ∧ u.Mapped n → u.step op = some u' →
        u'.Sound (maxConnectionsPerIP, maxConnectionsPerAuthKey) ∧ u'.Mapped n :=
      fun _ _ _ h hsp => ⟨h.1.step hsp, h.2.step h.1 hsp⟩
    refine exec_inductive hsty ⟨sound_idle _ _ _, rfl, nodup_nil, fun c => ?_, Int.le_of_lt⟩ hrun
    exact ⟨fun hmem => (nomatch hmem), fun hbt => absurd rfl hbt.1⟩
  obtain ⟨hsd, hmap⟩ := hinv
  refine ⟨hsd.exact.nodup, hsd.running, hmap.room hn, fun c remoteIP id hst => ⟨?_, ?_⟩⟩
  · intro href
    have hadm := (admitConnection_map s c remoteIP id).2.2
    have hfal : (s.admitConnection c remoteIP id).2 = false :=
      Bool.eq_false_of_not_eq_true fun htr => hadm htr href
    have hsp : s.step (.advance c) = s.advance c (.identified remoteIP id) := by rw [← hst]; rfl
    refine ⟨_, hsp, ?_⟩
    show update _ c (if (s.admitConnection c remoteIP id).2 then _ else _) c = _
    rw [update_self, hfal]
    rfl
  · have hc : c ∈ s.connections := by
      rw [hmap.present, hst]
      exact ⟨nofun, nofun⟩
    have hlen := hmap.length_connections hsd hc (by rw [hst]; nofun)
    unfold refusesGlobally
    rw [hmap.limit]
    omega

/-- One connection of a limit of one is admitted, and the second one is refused. -/
theorem global_refusal_exact_second :
    ∃ s, exec step (idle 1 0 0) [.serve 0 "", .advance 0, .advance 0, .serve 1 "", .advance 1] =
      some s ∧ s.refusesGlobally ∧ (1 : Int) ≤ s.connectionStates.length := by
  have hvl : (exec step (idle 1 0 0)
      [.serve 0 "", .advance 0, .advance 0, .serve 1 "", .advance 1]).map (fun s =>
        (s.stage 1, s.maxConnections, s.connections.length, s.connectionStates.length)) =
      some (.identified "" 2, 1, 2, 1) := by
    decide +kernel
  obtain ⟨s, hrun, hvl⟩ := Option.map_eq_some_iff.mp hvl
  simp only [Prod.mk.injEq] at hvl
  obtain ⟨hst, hlim, hlen, hadm⟩ := hvl
  have href : s.refusesGlobally := by
    unfold refusesGlobally
    omega
  obtain ⟨-, -, -, hchk⟩ := global_refusal_exact (by decide) hrun
  have hiff := (hchk 1 "" 2 hst).2
  exact ⟨s, hrun, href, hiff.mpr (.inr (by omega)) href⟩

/-- Two connections arrive together where one may be admitted: both are refused, and none is
admitted. -/
theorem both_arrivals_refused :
    (exec step (idle 1 0 0) [.serve 0 "", .serve 1 "", .advance 0, .advance 1, .advance 0,
      .advance 1]).map (fun s => (s.stage 0, s.stage 1, s.connectionStates)) =
      some (.rejected, .rejected, []) := by
  decide +kernel

end QuotaServer

end Tlrpc
