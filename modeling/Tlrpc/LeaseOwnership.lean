import Tlrpc.Coordinator

namespace Tlrpc

open Option Function

inductive Role
  | idle
  | opening (l : LeaseID) (loaded : Bool)
  | entering (l : LeaseID)
  | locked (l : LeaseID)
  | active (l : LeaseID)
  | busy (l : LeaseID)
  | releasing (l : LeaseID)
  | leaving (l : LeaseID)

def Call.role : Call → Role
  | .loadOrCreate l _ _ => .opening l false
  | .loaded l _ => .opening l true
  | .publish l _ _ => .opening l true
  | .lock l _ _ => .entering l
  | .checkReady l _ _ => .locked l
  | .unlock l _ => .locked l
  | .checkCause l _ _ => .active l
  | .checkCurrent l _ _ => .active l
  | .checkContext l _ _ => .busy l
  | .perform l _ _ => .busy l
  | .commit l _ => .busy l
  | .finish l _ => .busy l
  | .release l _ => .releasing l
  | .releaseLock l _ => .releasing l
  | .releaseUnregister l _ => .leaving l
  | _ => .idle

structure LeaseView where
  key : SessionKey
  generation : Int
  opMu : Option CallID
  released : Bool
  stage : LeaseStage

def LocalLease.view (lease : LocalLease) : LeaseView :=
  ⟨lease.key, lease.generation.toInt, lease.opMu, lease.released, lease.stage⟩

structure Ownership where
  leases : SessionKey → Option LeaseID
  generations : SessionKey → Int
  views : LeaseID → Option LeaseView
  allocated : LeaseID
  roles : CallID → Role
  history : SessionKey → List (FenceEvent Int)

namespace Ownership

def turn (o : Ownership) (c : CallID) (r : Role) : Ownership :=
  { o with roles := Function.update o.roles c r }

def put (o : Ownership) (l : LeaseID) (v : LeaseView) : Ownership :=
  { o with views := Function.update o.views l (some v) }

def record (o : Ownership) (key : SessionKey) (e : FenceEvent Int) : Ownership :=
  { o with history := Function.update o.history key (o.history key ++ [e]) }

def create (o : Ownership) (c : CallID) (key : SessionKey) (g : Int) : Ownership where
  leases := Function.update o.leases key (some o.allocated)
  generations := Function.update o.generations key g
  views := Function.update o.views o.allocated (some ⟨key, g, none, false, .opening c⟩)
  allocated := o.allocated + 1
  roles := Function.update o.roles c (.opening o.allocated false)
  history := Function.update o.history key (o.history key ++ [.created g])

def Resting (o : Ownership) (c : CallID) : Prop := ∀ l, o.roles c ≠ .busy l

/-- What one action of a call does to the ownership of leases. -/
inductive Move (o : Ownership) : Ownership → Prop
  | stay : Move o o
  | rest {c : CallID} : o.Resting c → Move o (o.turn c .idle)
  | enter {c : CallID} {l : LeaseID} {v : LeaseView} {r : Role} : o.Resting c → o.views l = some v →
      v.stage = .returned → r = .entering l ∨ r = .releasing l → Move o (o.turn c r)
  | create {c : CallID} {key : SessionKey} {g : Int} : o.Resting c → o.leases key = none →
      o.generations key < g → Move o (o.create c key g)
  | load {c : CallID} {l : LeaseID} {v : LeaseView} : o.roles c = .opening l false →
      o.views l = some v → Move o ((o.record v.key (.loaded v.generation)).turn c (.opening l true))
  | abandon {c : CallID} {l : LeaseID} {v : LeaseView} {loaded : Bool} :
      o.roles c = .opening l loaded → o.views l = some v →
      Move o ((o.put l { v with stage := .abandoned }).turn c (.releasing l))
  | publish {c : CallID} {l : LeaseID} {v : LeaseView} : o.roles c = .opening l true →
      o.views l = some v → Move o ((o.put l { v with stage := .returned }).turn c .idle)
  | lock {c : CallID} {l : LeaseID} {v : LeaseView} : o.roles c = .entering l → o.views l = some v →
      v.opMu = none → Move o ((o.put l { v with opMu := some c }).turn c (.locked l))
  | unlock {c : CallID} {l : LeaseID} {v : LeaseView} : o.roles c = .locked l → o.views l = some v →
      Move o ((o.put l { v with opMu := none }).turn c .idle)
  | activate {c : CallID} {l : LeaseID} {v : LeaseView} : o.roles c = .locked l →
      o.views l = some v → v.released = false → Move o (o.turn c (.active l))
  | deactivate {c : CallID} {l : LeaseID} : o.roles c = .active l → Move o (o.turn c (.locked l))
  | begin {c : CallID} {l : LeaseID} {v : LeaseView} : o.roles c = .active l → o.views l = some v →
      o.leases v.key = some l → Move o ((o.record v.key (.begun v.generation)).turn c (.busy l))
  | store {c : CallID} {l : LeaseID} {v : LeaseView} : o.roles c = .busy l → o.views l = some v →
      Move o (o.record v.key (.stored v.generation))
  | finish {c : CallID} {l : LeaseID} {v : LeaseView} : o.roles c = .busy l → o.views l = some v →
      Move o (((o.put l { v with opMu := none }).record v.key (.finished v.generation)).turn c .idle)
  | mark {c : CallID} {l : LeaseID} {v : LeaseView} : o.roles c = .releasing l → o.views l = some v →
      v.opMu = none → Move o ((o.put l { v with released := true }).turn c (.leaving l))
  | remove {c : CallID} {l : LeaseID} {v : LeaseView} : o.roles c = .leaving l → o.views l = some v →
      o.leases v.key = some l →
      Move o (({ o with leases := Function.update o.leases v.key none }.record v.key
        (.released v.generation)).turn c .idle)

variable {r : Role} {impl : Store σ} {result : Except SessionError Unit}

theorem turn_self {o : Ownership} {c : CallID} (h : o.roles c = r) : o.turn c r = o := by
  subst h
  simp [turn]

theorem Move.turn_same {o : Ownership} {c : CallID} (h : o.roles c = r) : Move o (o.turn c r) := by
  rw [turn_self h]
  exact .stay

end Ownership

namespace LocalCoordinator

variable {σ : Type}

def ownership (s : LocalCoordinator σ) : Ownership where
  leases := s.leases
  generations := fun key => (s.generations key).toInt
  views := fun l => (s.objects l).map LocalLease.view
  allocated := s.allocated
  roles := fun c => match s.calls c with
    | some call => call.role
    | none => .idle
  history := s.history

section

variable (s : LocalCoordinator σ)

theorem ownership_goto (c : CallID) (call : Call) :
    (s.goto c call).ownership = s.ownership.turn c call.role := by
  have hrol : (s.goto c call).ownership.roles = update s.ownership.roles c call.role := by
    funext c'
    by_cases hc : c' = c
    · subst hc
      simp [ownership, goto]
    · simp [ownership, goto, hc]
  unfold Ownership.turn
  rw [← hrol]
  rfl

theorem ownership_put (l : LeaseID) (lease : LocalLease) :
    (s.put l lease).ownership = s.ownership.put l lease.view := by
  have hvw : (s.put l lease).ownership.views = update s.ownership.views l (some lease.view) := by
    funext l'
    by_cases hl : l' = l
    · subst hl
      simp [ownership, put]
    · simp [ownership, put, hl]
  unfold Ownership.put
  rw [← hvw]
  rfl

theorem ownership_record (key : SessionKey) (e : FenceEvent Int) :
    (s.record key e).ownership = s.ownership.record key e := rfl

theorem ownership_createLease (c : CallID) (ctx : ContextID)
    (key : SessionKey) (generation : Int64) (initial : Snapshot) :
    ((s.createLease c ctx key generation).goto c (.loadOrCreate s.allocated ctx initial)).ownership =
      s.ownership.create c key generation.toInt := by
  have hvw : (s.createLease c ctx key generation).ownership.views = update s.ownership.views s.allocated
        (some ⟨key, generation.toInt, none, false, .opening c⟩) := by
    funext l
    by_cases hl : l = s.allocated
    · subst hl
      simp [ownership, createLease, LocalLease.view]
    · simp [ownership, createLease, hl]
  have hgen : (s.createLease c ctx key generation).ownership.generations =
      update s.ownership.generations key generation.toInt := by
    funext key'
    by_cases hk : key' = key
    · subst hk
      simp [ownership, createLease]
    · simp [ownership, createLease, hk]
  rw [ownership_goto]
  unfold Ownership.create Ownership.turn
  rw [hvw, hgen]
  rfl

theorem view_cancel (lease : LocalLease) (e : SessionError) : (s.cancel lease e).view = lease.view := by
  unfold cancel
  cases s.cause lease <;> rfl

end

variable {c : CallID} {call : Call} {s : LocalCoordinator σ}

theorem ownership_roles (h : s.calls c = some call) : s.ownership.roles c = call.role := by
  simp [ownership, h]

theorem ownership_views {l : LeaseID} {lease : LocalLease}
    (h : s.objects l = some lease) : s.ownership.views l = some lease.view := by
  simp [ownership, h]

theorem resting_of_role (h : s.ownership.roles c = r) (hr : ∀ l, r ≠ .busy l) : s.ownership.Resting c := by
  intro l hl
  exact hr l (h.symm.trans hl)

section

variable {s : LocalCoordinator σ} {c : CallID} {l : LeaseID} {lease : LocalLease}

variable {call : Call} {ctx : ContextID} {op : StoreCall}

theorem goto_rest (hc : ∀ l', s.ownership.roles c ≠ .busy l') (hr : call.role = .idle) :
    s.ownership.Move (s.goto c call).ownership := by
  rw [ownership_goto, hr]
  exact .rest hc

theorem put_goto {lease' : LocalLease} (hl : s.objects l = some lease)
    (hvw : lease'.view = lease.view) (hm : s.ownership.Move (s.ownership.turn c call.role)) :
    s.ownership.Move ((s.put l lease').goto c call).ownership := by
  have hput : (s.put l lease').ownership = s.ownership := by
    rw [ownership_put, hvw]
    unfold Ownership.put
    rw [← ownership_views hl, update_eq_self]
  rw [ownership_goto, hput]
  exact hm

theorem goto_same {call' : Call} (hc : s.calls c = some call) (hr : call'.role = call.role) :
    s.ownership.Move (s.goto c call').ownership := by
  rw [ownership_goto, hr]
  exact .turn_same (ownership_roles hc)

theorem lookup_move {key : SessionKey} {initial : Snapshot}
    (hc : s.ownership.roles c = .idle) : s.ownership.Move (s.lookup c ctx key initial).ownership := by
  have hrs : s.ownership.Resting c := resting_of_role hc (by intro l' h; cases h)
  unfold lookup
  cases hpre : s.leases key with
  | some previous => exact goto_rest hrs rfl
  | none =>
    by_cases hg : s.generations key + 1 ≤ s.generations key
    · rw [if_pos hg]
      exact goto_rest hrs rfl
    have hlt : s.generations key < s.generations key + 1 := Int64.not_le.mp hg
    rw [if_neg hg, ownership_createLease]
    exact .create hrs hpre (Int64.lt_iff_toInt_lt.mp hlt)

theorem loadOrCreate_move {initial : Snapshot}
    (hc : s.ownership.roles c = .opening l false) (hl : s.ownership.views l = some lease.view) :
    s.ownership.Move (s.loadOrCreate impl c l lease ctx initial).ownership := by
  unfold loadOrCreate
  rw [ownership_goto, ownership_record]
  exact .load hc hl

theorem abandon_move {e : SessionError} {loaded : Bool}
    (hc : s.ownership.roles c = .opening l loaded) (hl : s.ownership.views l = some lease.view) :
    s.ownership.Move (s.abandon c l lease e).ownership := by
  unfold abandon
  rw [ownership_goto, ownership_put]
  exact .abandon hc hl

theorem loaded_move {result : Except SessionError (Snapshot × Bool)}
    (hc : s.calls c = some (.loaded l result)) (hl : s.ownership.views l = some lease.view) :
    s.ownership.Move (s.loaded c l lease result).ownership := by
  have hrl : s.ownership.roles c = .opening l true := ownership_roles hc
  unfold loaded
  split
  next e => exact abandon_move hrl hl
  rename_i snapshot created
  split
  next e => exact abandon_move hrl hl
  · exact goto_same hc rfl

theorem publish_move {snapshot : Snapshot} {created : Bool}
    (hc : s.ownership.roles c = .opening l true) (hl : s.ownership.views l = some lease.view) :
    s.ownership.Move (s.publish c l lease snapshot created).ownership := by
  unfold publish
  rw [ownership_goto, ownership_put]
  exact .publish hc hl

theorem checkReady_move (hc : s.calls c = some (.checkReady l ctx op))
    (hl : s.ownership.views l = some lease.view) :
    s.ownership.Move (s.checkReady c l lease ctx op).ownership := by
  unfold checkReady
  split
  · exact goto_same hc rfl
  rename_i hrea
  have hrel : lease.released = false := by
    cases hr : lease.released
    · rfl
    · simp [hr] at hrea
  rw [ownership_goto]
  exact .activate (ownership_roles hc) hl hrel

theorem checkCause_move (hc : s.calls c = some (.checkCause l ctx op)) :
    s.ownership.Move (s.checkCause c l lease ctx op).ownership := by
  unfold checkCause
  split
  next e =>
    rw [ownership_goto]
    exact .deactivate (ownership_roles hc)
  · exact goto_same hc rfl

theorem checkCurrent_move (hc : s.ownership.roles c = .active l)
    (hl : s.ownership.views l = some lease.view) :
    s.ownership.Move (s.checkCurrent c l lease ctx op).ownership := by
  unfold checkCurrent
  split
  next hcur =>
    rw [ownership_goto, ownership_record]
    exact .begin hc hl hcur
  rw [ownership_goto]
  exact .deactivate hc

theorem checkContext_move (hc : s.calls c = some (.checkContext l ctx op)) :
    s.ownership.Move (s.checkContext c l ctx op).ownership := by
  unfold checkContext
  split
  · exact goto_same hc rfl
  · exact goto_same hc rfl

theorem perform_move (hc : s.ownership.roles c = .busy l) (hl : s.ownership.views l = some lease.view) :
    s.ownership.Move (s.perform impl c l lease ctx op).ownership := by
  have htr : (s.perform impl c l lease ctx op).ownership =
      (s.ownership.record lease.key (.stored lease.generation.toInt)).turn c (.busy l) := by
    unfold perform
    dsimp only
    split
    next e he =>
      rw [ownership_goto]
      rfl
    next he =>
      rw [ownership_goto]
      rfl
  have hrl : (s.ownership.record lease.key (.stored lease.generation.toInt)).roles c = .busy l := hc
  rw [htr, Ownership.turn_self hrl]
  exact .store hc hl

theorem commit_move (hc : s.calls c = some (.commit l op))
    (hl : s.objects l = some lease) : s.ownership.Move (s.commit c l lease op).ownership := by
  have hrl : s.ownership.roles c = .busy l := ownership_roles hc
  cases op with
  | save next => exact put_goto hl rfl (.turn_same hrl)
  | delete => exact put_goto hl (view_cancel s _ _) (.turn_same hrl)

theorem finish_move (hc : s.ownership.roles c = .busy l) (hl : s.ownership.views l = some lease.view) :
    s.ownership.Move (s.finish c l lease result).ownership := by
  unfold finish
  rw [ownership_goto, ownership_record, ownership_put]
  exact .finish hc hl

theorem unregister_move (hc : s.ownership.roles c = .leaving l)
    (hl : s.ownership.views l = some lease.view) :
    s.ownership.Move (s.unregister c l lease result).ownership := by
  unfold unregister
  split
  next hcur =>
    rw [ownership_goto, ownership_record]
    exact .remove hc hl hcur
  · exact goto_rest (resting_of_role hc (by intro l' h; cases h)) rfl

end

theorem run_move {s s' : LocalCoordinator σ} (hc : s.calls c = some call) (h : s.run impl c call = some s') :
    s.ownership.Move s'.ownership := by
  have hrl := ownership_roles hc
  cases call with
  | acquire ctx key initial =>
    have hrs : s.ownership.Resting c := resting_of_role hrl (by intro l h; cases h)
    cases h
    unfold acquire
    split
    · exact goto_rest hrs rfl
    · exact goto_rest hrs rfl
  | lookup ctx key initial =>
    cases h
    exact lookup_move hrl
  | loadOrCreate l ctx initial =>
    obtain ⟨lease, hl, rfl⟩ := map_eq_some_iff.mp h
    exact loadOrCreate_move hrl (ownership_views hl)
  | loaded l result =>
    obtain ⟨lease, hl, rfl⟩ := map_eq_some_iff.mp h
    exact loaded_move hc (ownership_views hl)
  | publish l snapshot created =>
    obtain ⟨lease, hl, hs⟩ := bind_eq_some_iff.mp h
    obtain ⟨_, hs⟩ := ite_none_right_eq_some.mp hs
    cases hs
    exact publish_move hrl (ownership_views hl)
  | retirePrevious l ctx key initial =>
    obtain ⟨lease, hl, hs⟩ := bind_eq_some_iff.mp h
    obtain ⟨_, hs⟩ := ite_none_right_eq_some.mp hs
    cases hs
    exact put_goto hl (view_cancel s _ _) (.rest (resting_of_role hrl (by intro l h; cases h)))
  | waitPrevious l ctx key initial =>
    obtain ⟨lease, hl, hs⟩ := bind_eq_some_iff.mp h
    obtain ⟨_, hs⟩ := ite_none_right_eq_some.mp hs
    cases hs
    exact goto_rest (resting_of_role hrl (by intro l h; cases h)) rfl
  | lock l ctx op =>
    obtain ⟨lease, hl, hs⟩ := bind_eq_some_iff.mp h
    obtain ⟨hfr, hs⟩ := ite_none_right_eq_some.mp hs
    cases hs
    rw [ownership_goto, ownership_put]
    exact .lock hrl (ownership_views hl) hfr
  | checkReady l ctx op =>
    obtain ⟨lease, hl, rfl⟩ := map_eq_some_iff.mp h
    exact checkReady_move hc (ownership_views hl)
  | checkCause l ctx op =>
    obtain ⟨lease, hl, rfl⟩ := map_eq_some_iff.mp h
    exact checkCause_move hc
  | checkCurrent l ctx op =>
    obtain ⟨lease, hl, rfl⟩ := map_eq_some_iff.mp h
    exact checkCurrent_move hrl (ownership_views hl)
  | checkContext l ctx op =>
    cases h
    exact checkContext_move hc
  | perform l ctx op =>
    obtain ⟨lease, hl, rfl⟩ := map_eq_some_iff.mp h
    exact perform_move hrl (ownership_views hl)
  | commit l op =>
    obtain ⟨lease, hl, rfl⟩ := map_eq_some_iff.mp h
    exact commit_move hc hl
  | finish l result =>
    obtain ⟨lease, hl, rfl⟩ := map_eq_some_iff.mp h
    exact finish_move hrl (ownership_views hl)
  | unlock l e =>
    obtain ⟨lease, hl, rfl⟩ := map_eq_some_iff.mp h
    rw [ownership_goto, ownership_put]
    exact .unlock hrl (ownership_views hl)
  | retire l e =>
    obtain ⟨lease, hl, hs⟩ := bind_eq_some_iff.mp h
    obtain ⟨_, hs⟩ := ite_none_right_eq_some.mp hs
    cases hs
    exact put_goto hl (view_cancel s _ _) (.rest (resting_of_role hrl (by intro l h; cases h)))
  | release l result =>
    obtain ⟨lease, hl, hs⟩ := bind_eq_some_iff.mp h
    split at hs
    · cases hs
      exact put_goto hl rfl (.turn_same hrl)
    obtain ⟨_, hs⟩ := ite_none_right_eq_some.mp hs
    cases hs
    exact goto_rest (resting_of_role hrl (by intro l h; cases h)) rfl
  | releaseLock l result =>
    obtain ⟨lease, hl, hs⟩ := bind_eq_some_iff.mp h
    obtain ⟨hfr, hs⟩ := ite_none_right_eq_some.mp hs
    cases hs
    rw [ownership_goto, ownership_put, view_cancel]
    exact .mark hrl (ownership_views hl) hfr
  | releaseUnregister l result =>
    obtain ⟨lease, hl, rfl⟩ := map_eq_some_iff.mp h
    exact unregister_move hrl (ownership_views hl)
  | releaseClose l result =>
    obtain ⟨lease, hl, rfl⟩ := map_eq_some_iff.mp h
    exact put_goto hl rfl (.rest (resting_of_role hrl (by intro l h; cases h)))
  | acquired l => cases h
  | returned result => cases h

theorem request_move {req : Request} (hc : s.calls c = none) (h : s.request req = some call) :
    s.ownership.Move (s.goto c call).ownership := by
  have hrl : s.ownership.roles c = .idle := by simp [ownership, hc]
  have hrs : s.ownership.Resting c := resting_of_role hrl (by intro l h; cases h)
  rw [ownership_goto]
  cases req with
  | acquire ctx key initial =>
    cases h
    split
    · exact .rest hrs
    · exact .rest hrs
  | save l ctx next =>
    obtain ⟨lease, hl, hs⟩ := bind_eq_some_iff.mp h
    obtain ⟨hst, hs⟩ := ite_none_right_eq_some.mp hs
    cases hs
    split
    · exact .rest hrs
    · exact .enter hrs (ownership_views hl) hst (Or.inl rfl)
  | delete l ctx =>
    obtain ⟨lease, hl, hs⟩ := bind_eq_some_iff.mp h
    obtain ⟨hst, hs⟩ := ite_none_right_eq_some.mp hs
    cases hs
    exact .enter hrs (ownership_views hl) hst (Or.inl rfl)
  | retire l e =>
    obtain ⟨lease, hl, hs⟩ := bind_eq_some_iff.mp h
    obtain ⟨_, hs⟩ := ite_none_right_eq_some.mp hs
    cases hs
    exact .rest hrs
  | release l =>
    obtain ⟨lease, hl, hs⟩ := bind_eq_some_iff.mp h
    obtain ⟨hst, hs⟩ := ite_none_right_eq_some.mp hs
    cases hs
    exact .enter hrs (ownership_views hl) hst (Or.inr rfl)

theorem step_move {s s' : LocalCoordinator σ} {op : CoordinatorOp}
    (h : s.step impl op = some s') : s.ownership.Move s'.ownership := by
  cases op with
  | call c req =>
    dsimp only [step] at h
    split at h
    next hc =>
      obtain ⟨call, hreq, rfl⟩ := map_eq_some_iff.mp h
      exact request_move hc hreq
    · cases h
  | advance c =>
    obtain ⟨call, hc, hrun⟩ := bind_eq_some_iff.mp h
    exact run_move hc hrun
  | stopWaiting c =>
    dsimp only [step] at h
    split at h
    next l ctx key initial hc =>
      obtain ⟨_, hs⟩ := ite_none_right_eq_some.mp h
      cases hs
      exact goto_rest (resting_of_role (ownership_roles hc) (by intro l h; cases h)) rfl
    · cases h
  | cancelContext ctx =>
    cases h
    exact .stay

end LocalCoordinator

end Tlrpc
