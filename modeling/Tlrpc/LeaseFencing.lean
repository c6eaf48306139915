import Tlrpc.LeaseOwnership

namespace Tlrpc

open Function Ownership LocalCoordinator

def Role.lease : Role → Option LeaseID
  | .idle => none
  | .opening l _ => some l
  | .entering l => some l
  | .locked l => some l
  | .active l => some l
  | .busy l => some l
  | .releasing l => some l
  | .leaving l => some l

namespace Ownership

/-- What a call knows by its role; `F` is the state of every key's fence. -/
def RoleOk (o : Ownership) (F : SessionKey → Fence Int) (c : CallID) : Role → Prop
  | .idle => True
  | .opening l loaded => ∃ v, o.views l = some v ∧ v.stage = .opening c ∧ v.released = false ∧
      o.leases v.key = some l ∧
      (F v.key).owner = some (v.generation, if loaded then .idle else .opening)
  | .entering l => ∃ v, o.views l = some v ∧ v.stage = .returned
  | .locked l => ∃ v, o.views l = some v ∧ v.stage = .returned ∧ v.opMu = some c
  | .active l => ∃ v, o.views l = some v ∧ v.stage = .returned ∧ v.opMu = some c ∧ v.released = false
  | .busy l => ∃ v, o.views l = some v ∧ v.stage = .returned ∧ v.opMu = some c ∧ v.released = false ∧
      o.leases v.key = some l ∧ (F v.key).owner = some (v.generation, .busy)
  | .releasing l => ∃ v, o.views l = some v ∧ ∀ c', v.stage ≠ .opening c'
  | .leaving l => ∃ v, o.views l = some v ∧ (∀ c', v.stage ≠ .opening c') ∧ v.released = true

/-- The registered lease owns its fence, busy only through the call that holds its mutex. -/
def OwnerOk (o : Ownership) (f : Fence Int) (key : SessionKey) (l : LeaseID) : Prop :=
  ∃ v phase, o.views l = some v ∧ v.key = key ∧ f.owner = some (v.generation, phase) ∧
    (v.stage = .returned → phase ≠ .opening) ∧
    (phase = .busy → ∃ c, v.opMu = some c ∧ o.roles c = .busy l)

structure Tracked (o : Ownership) (F : SessionKey → Fence Int) : Prop where
  run : ∀ key, Fence.Run .vacant (o.history key) (F key)
  last : ∀ key g, (F key).last = some g → g ≤ o.generations key
  vacant : ∀ key, o.leases key = none → (F key).owner = none
  owner : ∀ key l, o.leases key = some l → o.OwnerOk (F key) key l
  fresh : ∀ l, o.allocated ≤ l → o.views l = none
  roles : ∀ c, o.RoleOk F c (o.roles c)

section

variable {o o' : Ownership} {F F' : SessionKey → Fence Int} {c : CallID} {l : LeaseID}
  {v v' : LeaseView} {r : Role}

structure Apart (o o' : Ownership) (F F' : SessionKey → Fence Int) (l : LeaseID) : Prop where
  views : ∀ l', l' ≠ l → o'.views l' = o.views l'
  leases : ∀ key l', l' ≠ l → (o'.leases key = some l' ↔ o.leases key = some l')
  fences : ∀ key l', l' ≠ l → o.leases key = some l' → F' key = F key

theorem RoleOk.apart (h : o.RoleOk F c r) (hapa : o.Apart o' F F' l) (hr : r.lease ≠ some l) :
    o'.RoleOk F' c r := by
  have hne : ∀ l', r.lease = some l' → l' ≠ l := by
    intro l' hl' heq
    exact hr (heq ▸ hl')
  cases r with
  | idle => trivial
  | opening l' loaded =>
    obtain ⟨v, hv, hst, hrel, hreg, hown⟩ := h
    have hl' := hne l' rfl
    refine ⟨v, (hapa.views l' hl').trans hv, hst, hrel, (hapa.leases _ l' hl').mpr hreg, ?_⟩
    rw [hapa.fences _ l' hl' hreg]
    exact hown
  | busy l' =>
    obtain ⟨v, hv, hst, hop, hrel, hreg, hown⟩ := h
    have hl' := hne l' rfl
    refine ⟨v, (hapa.views l' hl').trans hv, hst, hop, hrel, (hapa.leases _ l' hl').mpr hreg, ?_⟩
    rw [hapa.fences _ l' hl' hreg]
    exact hown
  | entering l' | locked l' | active l' | releasing l' | leaving l' =>
    obtain ⟨v, hv, hrs⟩ := h
    exact ⟨v, (hapa.views l' (hne l' rfl)).trans hv, hrs⟩

theorem OwnerOk.apart {key : SessionKey} {l' : LeaseID} (h : o.OwnerOk (F key) key l')
    (hapa : o.Apart o' F F' l) (hl' : l' ≠ l) (hreg : o.leases key = some l')
    (hbs : ∀ c, o.roles c = .busy l' → o'.roles c = .busy l') : o'.OwnerOk (F' key) key l' := by
  obtain ⟨v, phase, hv, hkey, hown, hst, hph⟩ := h
  refine ⟨v, phase, (hapa.views l' hl').trans hv, hkey, ?_, hst, ?_⟩
  · rw [hapa.fences key l' hl' hreg]
    exact hown
  · intro hb
    obtain ⟨c, hc, hrl⟩ := hph hb
    exact ⟨c, hc, hbs c hrl⟩

structure Kept (c : CallID) (v v' : LeaseView) (same : Prop) : Prop where
  key : v'.key = v.key
  generation : v'.generation = v.generation
  returned : v.stage = .returned → v'.stage = .returned
  unopened : (∀ c', v.stage ≠ .opening c') → ∀ c', v'.stage ≠ .opening c'
  released : v.released = true → v'.released = true
  held : v.stage = .returned → v.opMu = some c →
    v'.opMu = v.opMu ∧ v'.released = v.released ∧ (v.released = false → same)
  opening : v.stage = .opening c → v'.stage = v.stage ∧ v'.released = v.released ∧ same

theorem Kept.imp {same same' : Prop} (h : Kept c v v' same) (himp : same → same') : Kept c v v' same' := by
  refine ⟨h.key, h.generation, h.returned, h.unopened, h.released, ?_, ?_⟩
  · intro hst hop
    obtain ⟨hop', hrel, hsm⟩ := h.held hst hop
    exact ⟨hop', hrel, fun hr => himp (hsm hr)⟩
  · intro hst
    obtain ⟨hst', hrel, hsm⟩ := h.opening hst
    exact ⟨hst', hrel, himp hsm⟩

theorem RoleOk.kept (h : o.RoleOk F c r) (hr : r.lease = some l) (hl : o.views l = some v)
    (hl' : o'.views l = some v')
    (hk : Kept c v v' (F' v.key = F v.key ∧ o'.leases v.key = o.leases v.key)) : o'.RoleOk F' c r := by
  cases r with
  | idle => trivial
  | opening l₀ loaded =>
    cases hr
    obtain ⟨v₀, hv, hst, hrel, hreg, hown⟩ := h
    cases hl.symm.trans hv
    obtain ⟨hst', hrel', hF, hlea⟩ := hk.opening hst
    refine ⟨v', hl', hst'.trans hst, hrel'.trans hrel, ?_, ?_⟩
    · rw [hk.key, hlea]
      exact hreg
    · rw [hk.key, hk.generation, hF]
      exact hown
  | entering l₀ =>
    cases hr
    obtain ⟨v₀, hv, hst⟩ := h
    cases hl.symm.trans hv
    exact ⟨v', hl', hk.returned hst⟩
  | locked l₀ =>
    cases hr
    obtain ⟨v₀, hv, hst, hop⟩ := h
    cases hl.symm.trans hv
    exact ⟨v', hl', hk.returned hst, (hk.held hst hop).1.trans hop⟩
  | active l₀ =>
    cases hr
    obtain ⟨v₀, hv, hst, hop, hrel⟩ := h
    cases hl.symm.trans hv
    obtain ⟨hop', hrel', _⟩ := hk.held hst hop
    exact ⟨v', hl', hk.returned hst, hop'.trans hop, hrel'.trans hrel⟩
  | busy l₀ =>
    cases hr
    obtain ⟨v₀, hv, hst, hop, hrel, hreg, hown⟩ := h
    cases hl.symm.trans hv
    obtain ⟨hop', hrel', hsm⟩ := hk.held hst hop
    obtain ⟨hF, hlea⟩ := hsm hrel
    refine ⟨v', hl', hk.returned hst, hop'.trans hop, hrel'.trans hrel, ?_, ?_⟩
    · rw [hk.key, hlea]
      exact hreg
    · rw [hk.key, hk.generation, hF]
      exact hown
  | releasing l₀ =>
    cases hr
    obtain ⟨v₀, hv, hst⟩ := h
    cases hl.symm.trans hv
    exact ⟨v', hl', hk.unopened hst⟩
  | leaving l₀ =>
    cases hr
    obtain ⟨v₀, hv, hst, hrel⟩ := h
    cases hl.symm.trans hv
    exact ⟨v', hl', hk.unopened hst, hk.released hrel⟩

theorem put_view : (o.put l v).views l = some v := update_self ..

theorem update_role_ne {c' : CallID} (hc : c' ≠ c) : (o.turn c r).roles c' = o.roles c' := by
  simp [turn, hc]

theorem update_role_self : (o.turn c r).roles c = r := by
  simp [turn]

theorem Tracked.turn (h : o.Tracked F) (hrs : o.Resting c) (hr : o.RoleOk F c r) :
    (o.turn c r).Tracked F := by
  refine ⟨h.run, h.last, h.vacant, ?_, h.fresh, ?_⟩
  · intro key l hl
    obtain ⟨v, phase, hv, hkey, hown, hst, hph⟩ := h.owner key l hl
    refine ⟨v, phase, hv, hkey, hown, hst, ?_⟩
    intro hb
    obtain ⟨c', hc', hrl⟩ := hph hb
    have hne : c' ≠ c := by
      intro heq
      exact hrs l (heq ▸ hrl)
    exact ⟨c', hc', (update_role_ne hne).trans hrl⟩
  · intro c'
    by_cases hc : c' = c
    · subst hc
      rw [update_role_self]
      exact hr
    · rw [update_role_ne hc]
      exact h.roles c'

/-- A call works on lease `l`: its view changes, and maybe the events and its role. -/
theorem Tracked.work (h : o.Tracked F) (hl : o.views l = some v)
    (hvw : o'.views = update o.views l (some v'))
    (hlea : ∀ key, o'.leases key = o.leases key ∨ o.leases key = some l ∧ o'.leases key = none)
    (hgen : o'.generations = o.generations) (hall : o'.allocated = o.allocated)
    (hrol : o'.roles = update o.roles c r) (hmov : ∀ l', o.roles c = .busy l' → l' = l)
    (hrun : ∀ key, Fence.Run .vacant (o'.history key) (F' key))
    (hF : ∀ key, F' key = F key ∨ o.leases key = some l ∧ (F' key).last = (F key).last)
    (hvac : o'.leases v.key = none → (F' v.key).owner = none)
    (hown : o'.leases v.key = some l → o'.OwnerOk (F' v.key) v.key l) (hsf : o'.RoleOk F' c r)
    (hkp : ∀ c', c' ≠ c → Kept c' v v' (F' v.key = F v.key ∧ o'.leases v.key = o.leases v.key)) :
    o'.Tracked F' := by
  have hapa : o.Apart o' F F' l := by
    refine ⟨?_, ?_, ?_⟩
    · intro l' hl'
      rw [hvw, update_of_ne hl']
    · intro key l' hl'
      rcases hlea key with same | ⟨hold, hnew⟩
      · rw [same]
      · rw [hold, hnew]
        simp [Ne.symm hl']
    · intro key l' hl' hreg
      rcases hF key with same | ⟨hold, _⟩
      · exact same
      · rw [hreg] at hold
        exact absurd (Option.some.inj hold) hl'
  have hrg : ∀ key, o.leases key = some l → key = v.key := by
    intro key hreg
    obtain ⟨v₀, _, hv₀, hkey, _⟩ := h.owner key l hreg
    cases hl.symm.trans hv₀
    exact hkey.symm
  refine ⟨hrun, ?_, ?_, ?_, ?_, ?_⟩
  · intro key g hg
    rw [hgen]
    rcases hF key with same | ⟨_, hla⟩
    · exact h.last key g (same ▸ hg)
    · exact h.last key g (hla ▸ hg)
  · intro key hno
    by_cases hkey : key = v.key
    · subst hkey
      exact hvac hno
    rcases hlea key with same | ⟨hold, _⟩
    · rcases hF key with hsm | ⟨hold, _⟩
      · rw [hsm]
        exact h.vacant key (same ▸ hno)
      · exact absurd (hrg key hold) hkey
    · exact absurd (hrg key hold) hkey
  · intro key l' hreg
    by_cases hne : l' = l
    · subst hne
      have hold : o.leases key = some l' := by
        rcases hlea key with same | ⟨_, hno⟩
        · exact same ▸ hreg
        · rw [hno] at hreg
          cases hreg
      cases hrg key hold
      exact hown hreg
    · have hold := (hapa.leases key l' hne).mp hreg
      refine (h.owner key l' hold).apart hapa hne hold ?_
      intro c' hc'
      have hc : c' ≠ c := by
        intro heq
        exact hne (hmov l' (heq ▸ hc'))
      rw [hrol, update_of_ne hc]
      exact hc'
  · intro l' hl'
    rw [hall] at hl'
    have hne : l' ≠ l := by
      intro heq
      have hno := h.fresh l' hl'
      rw [heq, hl] at hno
      cases hno
    rw [hvw, update_of_ne hne]
    exact h.fresh l' hl'
  · intro c'
    rw [hrol]
    by_cases hc : c' = c
    · subst hc
      rw [update_self]
      exact hsf
    rw [update_of_ne hc]
    by_cases hls : (o.roles c').lease = some l
    · refine (h.roles c').kept hls hl ?_ (hkp c' hc)
      rw [hvw, update_self]
    · exact (h.roles c').apart hapa hls

theorem Tracked.put (h : o.Tracked F) (hl : o.views l = some v) (hrs : o.Resting c)
    (hst : v'.stage = .returned → v.stage = .returned ∨ (F v.key).owner = some (v.generation, .idle))
    (hop : v'.opMu = v.opMu ∨ ∀ c', v.opMu = some c' → o.roles c' ≠ .busy l)
    (hsf : ((o.put l v').turn c r).RoleOk F c r) (hkp : ∀ c', c' ≠ c → Kept c' v v' True) :
    ((o.put l v').turn c r).Tracked F := by
  have hkey : v'.key = v.key ∧ v'.generation = v.generation :=
    ⟨(hkp (c + 1) (by simp)).key, (hkp (c + 1) (by simp)).generation⟩
  have hvw : ((o.put l v').turn c r).views = update o.views l (some v') := rfl
  refine h.work hl hvw (fun _ => Or.inl rfl) rfl rfl rfl ?_ h.run (fun _ => Or.inl rfl)
    (h.vacant v.key) ?_ hsf ?_
  · intro l' hl'
    exact absurd hl' (hrs l')
  · intro hreg
    obtain ⟨v₀, phase, hv₀, _, hown, hph, hbs⟩ := h.owner v.key l hreg
    cases hl.symm.trans hv₀
    refine ⟨v', phase, put_view, hkey.1, hkey.2.symm ▸ hown, ?_, ?_⟩
    · intro hs
      rcases hst hs with old | idle
      · exact hph old
      rw [hown] at idle
      cases idle
      simp
    · intro hb
      obtain ⟨c', hc', hrl⟩ := hbs hb
      have hne : c' ≠ c := by
        intro heq
        exact hrs l (heq ▸ hrl)
      rcases hop with same | free
      · exact ⟨c', same.trans hc', (update_role_ne hne).trans hrl⟩
      · exact absurd hrl (free c' hc')
  · intro c' hc'
    exact (hkp c' hc').imp (fun _ => ⟨rfl, rfl⟩)

theorem Tracked.record {e : FenceEvent Int} {f : Fence Int} {phase : FencePhase} (h : o.Tracked F)
    (hl : o.views l = some v) (hreg : o.leases v.key = some l) (hst : Fence.Step (F v.key) e f)
    (hla : f.last = (F v.key).last) (hown : f.owner = some (v.generation, phase))
    (hph : phase ≠ .opening) (hbs : phase = .busy → v'.opMu = some c ∧ r = .busy l)
    (hmov : ∀ l', o.roles c = .busy l' → l' = l)
    (hsf : (((o.put l v').record v.key e).turn c r).RoleOk (update F v.key f) c r)
    (hkey : v'.key = v.key) (hgen : v'.generation = v.generation) (hkp : ∀ c', c' ≠ c → Kept c' v v' False) :
    (((o.put l v').record v.key e).turn c r).Tracked (update F v.key f) := by
  have hvw : (((o.put l v').record v.key e).turn c r).views = update o.views l (some v') := rfl
  refine h.work hl hvw (fun _ => Or.inl rfl) rfl rfl rfl hmov ?_ ?_ ?_ ?_ hsf ?_
  · intro key
    by_cases hk : key = v.key
    · subst hk
      have hrun := (h.run v.key).snoc hst
      simpa [Ownership.turn, Ownership.record, Ownership.put] using hrun
    · simpa [Ownership.turn, Ownership.record, Ownership.put, hk] using h.run key
  · intro key
    by_cases hk : key = v.key
    · subst hk
      rw [update_self]
      exact Or.inr ⟨hreg, hla⟩
    · rw [update_of_ne hk]
      exact Or.inl rfl
  · intro hno
    have hso : o.leases v.key = none := hno
    rw [hreg] at hso
    cases hso
  · intro _
    rw [update_self]
    refine ⟨v', phase, put_view, hkey, hgen.symm ▸ hown, fun _ => hph, ?_⟩
    intro hb
    exact ⟨c, (hbs hb).1, update_role_self.trans (hbs hb).2⟩
  · intro c' hc'
    exact (hkp c' hc').imp False.elim

theorem put_self (h : o.views l = some v) : o.put l v = o := by
  unfold put
  rw [← h, update_eq_self]

theorem role_view {l₀ : LeaseID} (h : o.RoleOk F c r) (hr : r.lease = some l₀) :
    ∃ v, o.views l₀ = some v := by
  cases r with
  | idle => cases hr
  | opening l loaded | entering l | locked l | active l | busy l | releasing l | leaving l =>
    cases hr
    obtain ⟨v, hv, _⟩ := h
    exact ⟨v, hv⟩

section

variable (h : o.Tracked F)
include h

theorem Tracked.create {key : SessionKey} {g : Int} (hrs : o.Resting c)
    (hfr : o.leases key = none) (hg : o.generations key < g) :
    (o.create c key g).Tracked (update F key ⟨some g, some (g, .opening)⟩) := by
  have hne : ∀ l v, o.views l = some v → l ≠ o.allocated := by
    intro l v hv heq
    have hno := h.fresh l (Nat.le_of_eq heq.symm)
    rw [hv] at hno
    cases hno
  have hapa : o.Apart (o.create c key g) F
      (update F key ⟨some g, some (g, .opening)⟩) o.allocated := by
    refine ⟨?_, ?_, ?_⟩
    · intro l hl
      simp [Ownership.create, hl]
    · intro key' l hl
      by_cases hk : key' = key
      · subst hk
        simp [Ownership.create, hfr, Ne.symm hl]
      · simp [Ownership.create, hk]
    · intro key' l _ hreg
      have hk : key' ≠ key := by
        intro heq
        rw [heq, hfr] at hreg
        cases hreg
      rw [update_of_ne hk]
  have hrol : (o.create c key g).roles = update o.roles c (.opening o.allocated false) := rfl
  refine ⟨?_, ?_, ?_, ?_, ?_, ?_⟩
  · intro key'
    by_cases hk : key' = key
    · subst hk
      have hst : Fence.Step (F key') (.created g) ⟨some g, some (g, .opening)⟩ := by
        refine .create (h.vacant key' hfr) ?_
        intro g' hg'
        have hle := h.last key' g' hg'
        omega
      have hrun := (h.run key').snoc hst
      simpa [Ownership.create] using hrun
    · simpa [Ownership.create, hk] using h.run key'
  · intro key' g' hla
    by_cases hk : key' = key
    · subst hk
      have heq : g' = g := by simpa using hla.symm
      simp [Ownership.create, heq]
    · have hle := h.last key' g' (by simpa [hk] using hla)
      simpa [Ownership.create, hk] using hle
  · intro key' hno
    by_cases hk : key' = key
    · subst hk
      simp [Ownership.create] at hno
    · have hold := h.vacant key' (by simpa [Ownership.create, hk] using hno)
      simpa [hk] using hold
  · intro key' l hreg
    by_cases hk : key' = key
    · subst hk
      have hl : o.allocated = l := by simpa [Ownership.create] using hreg
      subst hl
      refine ⟨⟨key', g, none, false, .opening c⟩, .opening, by simp [Ownership.create], rfl, by simp, ?_, ?_⟩
      · intro hs
        cases hs
      · intro hb
        cases hb
    · have hold : o.leases key' = some l := by simpa [Ownership.create, hk] using hreg
      obtain ⟨v, _, hv, _⟩ := h.owner key' l hold
      refine (h.owner key' l hold).apart hapa (hne l v hv) hold ?_
      intro c' hc'
      have hcc : c' ≠ c := by
        intro heq
        exact hrs l (heq ▸ hc')
      rw [hrol, update_of_ne hcc]
      exact hc'
  · intro l hl
    have hold := h.fresh l (Nat.le_of_succ_le hl)
    simpa [Ownership.create, Nat.ne_of_gt hl] using hold
  · intro c'
    rw [hrol]
    by_cases hc : c' = c
    · subst hc
      rw [update_self]
      exact ⟨⟨key, g, none, false, .opening c'⟩, by simp [create], rfl, rfl,
        by simp [create], by simp⟩
    rw [update_of_ne hc]
    refine (h.roles c').apart hapa ?_
    intro hlea
    obtain ⟨v, hv⟩ := role_view (h.roles c') hlea
    exact hne _ v hv rfl

theorem Tracked.role (hc : o.roles c = r) : o.RoleOk F c r := hc ▸ h.roles c

theorem Tracked.load (hc : o.roles c = .opening l false) (hl : o.views l = some v) :
    ∃ F', ((o.record v.key (.loaded v.generation)).turn c (.opening l true)).Tracked F' := by
  obtain ⟨v₀, hv₀, hst, hrel, hreg, hown⟩ := h.role hc
  cases hl.symm.trans hv₀
  have hput : ((o.put l v).record v.key (.loaded v.generation)).turn c (.opening l true) =
      (o.record v.key (.loaded v.generation)).turn c (.opening l true) := by
    rw [put_self hl]
  rw [← hput]
  refine ⟨_, h.record hl hreg (.load hown) rfl rfl (by simp) (by simp) (by simp [hc]) ?_ rfl rfl ?_⟩
  · exact ⟨v, put_view, hst, hrel, hreg, by simp⟩
  · intro c' hc'
    refine ⟨rfl, rfl, id, id, id, ?_, ?_⟩
    · intro hs
      rw [hst] at hs
      cases hs
    · intro hs
      rw [hst] at hs
      cases hs
      exact absurd rfl hc'

theorem Tracked.abandon {loaded : Bool} (hc : o.roles c = .opening l loaded) (hl : o.views l = some v) :
    ((o.put l { v with stage := .abandoned }).turn c (.releasing l)).Tracked F := by
  obtain ⟨v₀, hv₀, hst, _⟩ := h.role hc
  cases hl.symm.trans hv₀
  refine h.put hl (by simp [Resting, hc]) (by simp) (Or.inl rfl) ?_ ?_
  · exact ⟨_, put_view, by simp⟩
  · intro c' hc'
    refine ⟨rfl, rfl, ?_, by simp, id, fun _ _ => ⟨rfl, rfl, fun _ => trivial⟩, ?_⟩
    · intro hs
      rw [hst] at hs
      cases hs
    · intro hs
      rw [hst] at hs
      cases hs
      exact absurd rfl hc'

theorem Tracked.publish (hc : o.roles c = .opening l true) (hl : o.views l = some v) :
    ((o.put l { v with stage := .returned }).turn c .idle).Tracked F := by
  obtain ⟨v₀, hv₀, hst, _, _, hown⟩ := h.role hc
  cases hl.symm.trans hv₀
  refine h.put hl (by simp [Resting, hc]) (fun _ => Or.inr hown) (Or.inl rfl) trivial ?_
  intro c' hc'
  refine ⟨rfl, rfl, fun _ => rfl, by simp, id, fun _ _ => ⟨rfl, rfl, fun _ => trivial⟩, ?_⟩
  intro hs
  rw [hst] at hs
  cases hs
  exact absurd rfl hc'

theorem Tracked.lock (hc : o.roles c = .entering l) (hl : o.views l = some v)
    (hfr : v.opMu = none) : ((o.put l { v with opMu := some c }).turn c (.locked l)).Tracked F := by
  obtain ⟨v₀, hv₀, hst⟩ := h.role hc
  cases hl.symm.trans hv₀
  refine h.put hl (by simp [Resting, hc]) Or.inl (Or.inr (by simp [hfr])) ?_ ?_
  · exact ⟨_, put_view, hst, rfl⟩
  · intro c' _
    refine ⟨rfl, rfl, id, id, id, ?_, fun _ => ⟨rfl, rfl, trivial⟩⟩
    intro _ hop
    rw [hfr] at hop
    cases hop

end

theorem locked_kept {c' : CallID} {same : Prop} (hst : v.stage = .returned) (hop : v.opMu = some c)
    (hc' : c' ≠ c) (hvw : v' = v ∨ v' = { v with opMu := none }) : Kept c' v v' same := by
  have hhl : ∀ {P : Prop}, v.opMu = some c' → P := by
    intro P hop'
    rw [hop] at hop'
    cases hop'
    exact absurd rfl hc'
  have hope : ∀ {P : Prop}, v.stage = .opening c' → P := by
    intro P hs
    rw [hst] at hs
    cases hs
  rcases hvw with rfl | rfl
  · exact ⟨rfl, rfl, id, id, id, fun _ hop' => hhl hop', hope⟩
  · exact ⟨rfl, rfl, id, id, id, fun _ hop' => hhl hop', hope⟩

section

variable (h : o.Tracked F)
include h

theorem Tracked.unlock (hc : o.roles c = .locked l) (hl : o.views l = some v) :
    ((o.put l { v with opMu := none }).turn c .idle).Tracked F := by
  obtain ⟨v₀, hv₀, hst, hop⟩ := h.role hc
  cases hl.symm.trans hv₀
  refine h.put hl (by simp [Resting, hc]) Or.inl (Or.inr ?_) trivial ?_
  · intro c' hc'
    rw [hop] at hc'
    cases hc'
    simp [hc]
  · intro c' hc'
    exact locked_kept hst hop hc' (Or.inr rfl)

theorem Tracked.begin (hc : o.roles c = .active l) (hl : o.views l = some v)
    (hreg : o.leases v.key = some l) :
    ∃ F', ((o.record v.key (.begun v.generation)).turn c (.busy l)).Tracked F' := by
  obtain ⟨v₀, hv₀, hst, hop, hrel⟩ := h.role hc
  cases hl.symm.trans hv₀
  have hie : (F v.key).owner = some (v.generation, .idle) := by
    obtain ⟨v₁, phase, hv₁, _, hown, hope, hbs⟩ := h.owner v.key l hreg
    cases hl.symm.trans hv₁
    cases phase with
    | opening => exact absurd rfl (hope hst)
    | idle => exact hown
    | busy =>
      -- the call that is busy would hold the mutex that `c` holds
      obtain ⟨c', hc', hrl⟩ := hbs rfl
      rw [hop] at hc'
      cases hc'
      rw [hc] at hrl
      cases hrl
  have hput : ((o.put l v).record v.key (.begun v.generation)).turn c (.busy l) =
      (o.record v.key (.begun v.generation)).turn c (.busy l) := by
    rw [put_self hl]
  rw [← hput]
  refine ⟨_, h.record hl hreg (.begin hie) rfl rfl (by simp) (fun _ => ⟨hop, rfl⟩) (by simp [hc]) ?_
    rfl rfl (fun c' hc' => locked_kept hst hop hc' (Or.inl rfl))⟩
  exact ⟨v, put_view, hst, hop, hrel, hreg, by simp⟩

theorem Tracked.store (hc : o.roles c = .busy l) (hl : o.views l = some v) :
    ∃ F', (o.record v.key (.stored v.generation)).Tracked F' := by
  obtain ⟨v₀, hv₀, hst, hop, hrel, hreg, hown⟩ := h.role hc
  cases hl.symm.trans hv₀
  have hrl : (o.record v.key (.stored v.generation)).roles c = .busy l := hc
  have hput : ((o.put l v).record v.key (.stored v.generation)).turn c (.busy l) =
      o.record v.key (.stored v.generation) := by
    rw [put_self hl, turn_self hrl]
  rw [← hput]
  refine ⟨_, h.record hl hreg (.store hown) rfl hown (by simp) (fun _ => ⟨hop, rfl⟩) ?_ ?_ rfl rfl
    (fun c' hc' => locked_kept hst hop hc' (Or.inl rfl))⟩
  · intro l' hl'
    rw [hc] at hl'
    cases hl'
    rfl
  · exact ⟨v, put_view, hst, hop, hrel, hreg, by simpa using hown⟩

theorem Tracked.finish (hc : o.roles c = .busy l) (hl : o.views l = some v) :
    ∃ F', (((o.put l { v with opMu := none }).record v.key (.finished v.generation)).turn c
      .idle).Tracked F' := by
  obtain ⟨v₀, hv₀, hst, hop, _, hreg, hown⟩ := h.role hc
  cases hl.symm.trans hv₀
  refine ⟨_, h.record hl hreg (.finish hown) rfl rfl (by simp) (by simp) ?_ trivial rfl rfl
    (fun c' hc' => locked_kept hst hop hc' (Or.inr rfl))⟩
  intro l' hl'
  rw [hc] at hl'
  cases hl'
  rfl

theorem Tracked.mark (hc : o.roles c = .releasing l) (hl : o.views l = some v) (hfr : v.opMu = none) :
    ((o.put l { v with released := true }).turn c (.leaving l)).Tracked F := by
  obtain ⟨v₀, hv₀, hst⟩ := h.role hc
  cases hl.symm.trans hv₀
  refine h.put hl (by simp [Resting, hc]) Or.inl (Or.inl rfl) ?_ ?_
  · exact ⟨_, put_view, hst, rfl⟩
  · intro c' _
    refine ⟨rfl, rfl, id, id, fun _ => rfl, ?_, ?_⟩
    · intro _ hop
      rw [hfr] at hop
      cases hop
    · intro hs
      exact absurd hs (hst c')

theorem Tracked.remove (hc : o.roles c = .leaving l) (hl : o.views l = some v)
    (hreg : o.leases v.key = some l) : ∃ F', (({ o with leases := update o.leases v.key none }.record v.key
      (.released v.generation)).turn c .idle).Tracked F' := by
  obtain ⟨v₀, hv₀, hst, hrel⟩ := h.role hc
  cases hl.symm.trans hv₀
  obtain ⟨v₁, phase, hv₁, _, hown, _, hbs⟩ := h.owner v.key l hreg
  cases hl.symm.trans hv₁
  -- a call that is busy with the lease has seen that it is not released
  have hie : phase ≠ .busy := by
    intro hb
    obtain ⟨c', _, hrl⟩ := hbs hb
    obtain ⟨v₂, hv₂, _, _, hunr, _⟩ := h.role hrl
    cases hl.symm.trans hv₂
    rw [hrel] at hunr
    cases hunr
  have hsp := Fence.Step.release hown hie
  have hvw : (({ o with leases := update o.leases v.key none }.record v.key
      (.released v.generation)).turn c .idle).views = update o.views l (some v) := by
    rw [← hl, update_eq_self]
    rfl
  refine ⟨update F v.key { F v.key with owner := none }, h.work hl hvw ?_ rfl rfl rfl
    (by simp [hc]) ?_ ?_ ?_ ?_ trivial ?_⟩
  · intro key
    by_cases hk : key = v.key
    · subst hk
      exact Or.inr ⟨hreg, by simp [Ownership.turn, Ownership.record]⟩
    · exact Or.inl (by simp [Ownership.turn, Ownership.record, hk])
  · intro key
    by_cases hk : key = v.key
    · subst hk
      have hrun := (h.run v.key).snoc hsp
      simpa [Ownership.turn, Ownership.record] using hrun
    · simpa [Ownership.turn, Ownership.record, hk] using h.run key
  · intro key
    by_cases hk : key = v.key
    · subst hk
      exact Or.inr ⟨hreg, by simp⟩
    · exact Or.inl (by simp [hk])
  · intro _
    simp
  · intro hso
    simp [Ownership.turn, Ownership.record] at hso
  · intro c' _
    refine ⟨rfl, rfl, id, id, id, ?_, ?_⟩
    · intro _ _
      refine ⟨rfl, rfl, ?_⟩
      intro hunr
      rw [hrel] at hunr
      cases hunr
    · intro hs
      exact absurd hs (hst c')

theorem Tracked.move (hm : o.Move o') : ∃ F', o'.Tracked F' := by
  cases hm with
  | stay => exact ⟨F, h⟩
  | rest hrs => exact ⟨F, h.turn hrs trivial⟩
  | @enter c l v r hrs hl hst hr =>
    refine ⟨F, h.turn hrs ?_⟩
    rcases hr with rfl | rfl
    · exact ⟨v, hl, hst⟩
    · exact ⟨v, hl, by simp [hst]⟩
  | create hrs hfr hg => exact ⟨_, h.create hrs hfr hg⟩
  | load hc hl => exact h.load hc hl
  | abandon hc hl => exact ⟨F, h.abandon hc hl⟩
  | publish hc hl => exact ⟨F, h.publish hc hl⟩
  | lock hc hl hfr => exact ⟨F, h.lock hc hl hfr⟩
  | unlock hc hl => exact ⟨F, h.unlock hc hl⟩
  | @activate c l v hc hl hrel =>
    obtain ⟨v₀, hv₀, hst, hop⟩ := h.role hc
    cases hl.symm.trans hv₀
    exact ⟨F, h.turn (by simp [Resting, hc]) ⟨v, hl, hst, hop, hrel⟩⟩
  | @deactivate c l hc =>
    obtain ⟨v, hl, hst, hop, _⟩ := h.role hc
    exact ⟨F, h.turn (by simp [Resting, hc]) ⟨v, hl, hst, hop⟩⟩
  | begin hc hl hreg => exact h.begin hc hl hreg
  | store hc hl => exact h.store hc hl
  | finish hc hl => exact h.finish hc hl
  | mark hc hl hfr => exact ⟨F, h.mark hc hl hfr⟩
  | remove hc hl hreg => exact h.remove hc hl hreg

end

end

end Ownership

theorem newLocalCoordinator_tracked {σ : Type} (store : σ) :
    (newLocalCoordinator store).ownership.Tracked (fun _ => .vacant) := by
  refine ⟨fun _ => .nil, ?_, fun _ _ => rfl, ?_, fun _ _ => rfl, fun _ => trivial⟩
  · intro key g hg
    cases hg
  · intro key l hl
    cases hl

theorem history_fenced {σ : Type} {impl : Store σ} {store : σ} {ops : List CoordinatorOp}
    {s : LocalCoordinator σ} (h : exec (LocalCoordinator.step impl) (newLocalCoordinator store) ops = some s)
    (key : SessionKey) : ∃ f, Fence.Run .vacant (s.history key) f := by
  have hst : ∀ (s : LocalCoordinator σ) op s', (∃ F, s.ownership.Tracked F) →
      s.step impl op = some s' → ∃ F, s'.ownership.Tracked F := by
    intro s op s' hi hs
    obtain ⟨F, ht⟩ := hi
    exact ht.move (step_move hs)
  obtain ⟨F, ht⟩ := exec_inductive hst ⟨_, newLocalCoordinator_tracked store⟩ h
  exact ⟨F key, ht.run key⟩

/-- For every interleaving and key: generations increase; between two creations the first lease is
released; when a lease loads, all others are released and have finished on the store; after that no
smaller generation reaches the store. -/
theorem lease_fencing {σ : Type} {impl : Store σ} {store : σ} {ops : List CoordinatorOp}
    {s : LocalCoordinator σ} (h : exec (LocalCoordinator.step impl) (newLocalCoordinator store) ops = some s)
    (key : SessionKey) : ((s.history key).filterMap FenceEvent.creation).Pairwise (· < ·) ∧
      (∀ before g between g' after,
        s.history key = before ++ .created g :: (between ++ .created g' :: after) →
        .released g ∈ between) ∧ ∀ before g after, s.history key = before ++ .loaded g :: after →
        (∀ g', .created g' ∈ before → g' ≠ g →
          .released g' ∈ before ∧ before.count (.begun g') = before.count (.finished g')) ∧
        ∀ g', .begun g' ∈ after ∨ .stored g' ∈ after → g ≤ g' := by
  obtain ⟨f, hrun⟩ := history_fenced h key
  refine ⟨hrun.traced.increasing, ?_, ?_⟩
  · intro before g between g' after hspl
    exact (hspl ▸ hrun).released_between
  · intro before g after hspl
    rw [hspl] at hrun
    refine ⟨hrun.load_exclusive, ?_⟩
    intro g' heve
    rcases heve with begun | stored
    · exact hrun.load_fences _ begun
    · exact hrun.load_fences _ stored

def begins (c : CallID) (request : Request) (n : Nat) : List CoordinatorOp :=
  .call c request :: List.replicate n (.advance c)

def advances (c : CallID) (n : Nat) : List CoordinatorOp := List.replicate n (.advance c)

/-- A second owner acquires while the first is saving; a later save of the first is refused. -/
def takeoverRun : List CoordinatorOp :=
  (begins 0 (.acquire 0 ⟨1, 8⟩ (.initial ⟨1, 8⟩ 7 0)) 5).append <|
    (begins 1 (.save 0 0 (.initial ⟨1, 8⟩ 9 0)) 4).append <|
    (begins 2 (.acquire 1 ⟨1, 8⟩ (.initial ⟨1, 8⟩ 7 0)) 2).append <|
    (advances 1 4).append <| (advances 2 1).append <| (begins 3 (.release 0) 4).append <|
    (advances 2 6).append <| begins 4 (.save 0 0 (.initial ⟨1, 8⟩ 5 0)) 3

theorem lease_fencing_takeover :
    ∃ s, exec (LocalCoordinator.step memoryStore) (newLocalCoordinator fun _ => none) takeoverRun = some s ∧
      s.history ⟨1, 8⟩ = [.created 1, .loaded 1, .begun 1, .stored 1, .finished 1, .released 1,
        .created 2, .loaded 2] ∧ ((s.history ⟨1, 8⟩).filterMap FenceEvent.creation).Pairwise (· < ·) := by
  have run : (exec (step memoryStore) (newLocalCoordinator fun _ => none)
      takeoverRun).map (fun s => s.history ⟨1, 8⟩) = some [.created 1, .loaded 1, .begun 1, .stored 1,
        .finished 1, .released 1, .created 2, .loaded 2] := by decide +kernel
  obtain ⟨s, hs, hhis⟩ := Option.map_eq_some_iff.mp run
  exact ⟨s, hs, hhis, (lease_fencing hs ⟨1, 8⟩).1⟩

end Tlrpc
