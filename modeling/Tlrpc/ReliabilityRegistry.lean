import Mathlib.Data.List.MinMax
import Mathlib.Data.Prod.Lex
import Tlrpc.Session
import Tlrpc.StepSystem

namespace Tlrpc

open List Function Option

abbrev RegistryEntryRef := Nat

abbrev MapEntry := SessionKey × RegistryEntryRef

structure RegistryEntry where
  refs : Nat := 0
  idleAt : Int := 0
  idleOrder : UInt64 := 0
deriving DecidableEq

/-- `released` says that `releaseOnce` has run. -/
structure ReliabilityHandle where
  key : SessionKey
  entry : RegistryEntryRef
  released : Bool := false
deriving DecidableEq

/-- The registry with the memory of its entries and all handles given out. -/
structure ReliabilityRegistry where
  maxSessions : Int
  messageCapacity : Int
  ttl : Int
  order : UInt64 := 0
  entries : List MapEntry := []
  memory : RegistryEntryRef → RegistryEntry := fun _ => {}
  allocated : Nat := 0
  handles : List ReliabilityHandle := []

inductive RegistryError
  | sessionCapacity
  | messageCapacity
  | ttl
  | capacity
deriving DecidableEq

def newReliabilityRegistry (maxSessions messageCapacity ttl : Int) :
    Except RegistryError ReliabilityRegistry :=
  if maxSessions ≤ 0 then .error .sessionCapacity
  else if messageCapacity ≤ 0 then .error .messageCapacity
  else if ttl ≤ 0 then .error .ttl
  else .ok { maxSessions, messageCapacity, ttl }

def RegistryEntry.older (a b : RegistryEntry) : Prop :=
  a.idleAt < b.idleAt ∨ a.idleAt = b.idleAt ∧ a.idleOrder < b.idleOrder

instance (a b : RegistryEntry) : Decidable (a.older b) := inferInstanceAs (Decidable (_ ∨ _))

def EvictionRank := Int ×ₗ Nat

instance : LinearOrder EvictionRank := Prod.Lex.instLinearOrder Int Nat

def RegistryEntry.rank (e : RegistryEntry) : EvictionRank := toLex (e.idleAt, e.idleOrder.toNat)

theorem RegistryEntry.older_iff (a b : RegistryEntry) : a.older b ↔ a.rank < b.rank := by
  refine Iff.trans ?_ Prod.Lex.toLex_lt_toLex.symm
  rw [older, UInt64.lt_iff_toNat_lt]

namespace ReliabilityRegistry

def expireIdleLocked (r : ReliabilityRegistry) (now : Int) : ReliabilityRegistry :=
  { r with
    entries := r.entries.filter fun e =>
      !decide ((r.memory e.2).refs = 0 ∧ (r.memory e.2).idleAt + r.ttl ≤ now) }

def candidate (r : ReliabilityRegistry) (found : Option MapEntry)
    (e : MapEntry) : Option MapEntry :=
  if (r.memory e.2).refs ≠ 0 then found
  else match found with
    | none => some e
    | some c => if (r.memory e.2).older (r.memory c.2) then some e else found

/-- The loop visits the map in the order `visit`. -/
def evictOldestIdleLocked (r : ReliabilityRegistry) (visit : List MapEntry) :
    Option ReliabilityRegistry :=
  (visit.foldl r.candidate none).map fun c => { r with entries := r.entries.filter (·.1 ≠ c.1) }

def newHandle (r : ReliabilityRegistry) (key : SessionKey) (entry : RegistryEntryRef) : ReliabilityRegistry :=
  { r with handles := r.handles ++ [{ key, entry }] }

/-- The second half of `Acquire`, for a key without an entry. -/
def create (r : ReliabilityRegistry) (key : SessionKey) : Option RegistryError × ReliabilityRegistry :=
  if r.messageCapacity ≤ 0 then (some .messageCapacity, r)
  else if r.ttl ≤ 0 then (some .ttl, r)
  else (none, { r with
    entries := r.entries ++ [(key, r.allocated)]
    memory := Function.update r.memory r.allocated { refs := 1 }
    allocated := r.allocated + 1 }.newHandle key r.allocated)

/-- The handle is the last one of the list. -/
def acquire (r : ReliabilityRegistry) (key : SessionKey) (now : Int)
    (visit : List MapEntry) : Option RegistryError × ReliabilityRegistry :=
  let r := r.expireIdleLocked now
  match r.entries.lookup key with
  | some entry => (none, { r with
      memory := Function.update r.memory entry { r.memory entry with refs := (r.memory entry).refs + 1 }
      }.newHandle key entry)
  | none =>
    if r.entries.length = r.maxSessions then
      match r.evictOldestIdleLocked visit with
      | none => (some .capacity, r)
      | some r => r.create key
    else r.create key

def release (r : ReliabilityRegistry) (key : SessionKey) (acquired : RegistryEntryRef) (now : Int) :
    ReliabilityRegistry :=
  let entry := r.memory acquired
  if r.entries.lookup key ≠ some acquired ∨ entry.refs = 0 then r
  else if entry.refs - 1 ≠ 0 then
    { r with memory := Function.update r.memory acquired { entry with refs := entry.refs - 1 } }
  else { r with
    order := r.order + 1
    memory := Function.update r.memory acquired { refs := entry.refs - 1, idleAt := now, idleOrder := r.order + 1 } }

end ReliabilityRegistry

/-- `visit` is the order in which the eviction loop comes to the map. -/
inductive RegistryOp
  | acquire (key : SessionKey) (now : Int) (visit : List MapEntry)
  | release (handle : Nat) (now : Int)

namespace ReliabilityRegistry

def step (r : ReliabilityRegistry) : RegistryOp → Option ReliabilityRegistry
  | .acquire key now visit =>
    if visit.Perm (r.expireIdleLocked now).entries then some (r.acquire key now visit).2 else none
  | .release i now =>
    match r.handles[i]? with
    | none => none
    | some handle =>
      if handle.released then some r
      else some { r.release handle.key handle.entry now with
        handles := r.handles.set i { handle with released := true } }

def unreleased (r : ReliabilityRegistry) (entry : RegistryEntryRef) : Nat :=
  r.handles.countP fun handle => handle.entry = entry && !handle.released

/-- `Acquire` fails only if all places are in use, and evicts only the first idle entry. -/
def AcquiresExactly (r : ReliabilityRegistry) (key : SessionKey) (now : Int)
    (visit : List MapEntry) : Prop :=
  (∀ err, (r.acquire key now visit).1 = some err → err = .capacity ∧
    ((r.entries.filter fun e => (r.memory e.2).refs ≠ 0).length : Int) = r.maxSessions) ∧
  ∀ e ∈ (r.expireIdleLocked now).entries, e ∉ (r.acquire key now visit).2.entries →
    (r.memory e.2).refs = 0 ∧ ∀ e' ∈ (r.expireIdleLocked now).entries, (r.memory e'.2).refs = 0 →
      ¬(r.memory e'.2).older (r.memory e.2)

structure Sound (r : ReliabilityRegistry) : Prop where
  keys : (r.entries.map (·.1)).Nodup
  refs : ∀ entry, (r.memory entry).refs = r.unreleased entry
  held : ∀ handle ∈ r.handles, handle.released = false → (handle.key, handle.entry) ∈ r.entries
  placed : ∀ e ∈ r.entries, e.2 < r.allocated
  fresh : ∀ handle ∈ r.handles, handle.entry < r.allocated
  bounded : r.entries.length ≤ r.maxSessions
  config : 0 < r.maxSessions ∧ 0 < r.messageCapacity ∧ 0 < r.ttl

variable {r r' : ReliabilityRegistry} {key : SessionKey} {now : Int} {e : MapEntry}
  {visit : List MapEntry}

variable {handle : ReliabilityHandle}

theorem Sound.refs_pos (h : r.Sound) (hin : handle ∈ r.handles)
    (hop : handle.released = false) : 0 < (r.memory handle.entry).refs := by
  rw [h.refs]
  exact countP_pos_iff.mpr ⟨handle, hin, by simp [hop]⟩

variable {entry : RegistryEntryRef}

theorem mem_of_lookup (h : r.entries.lookup key = some entry) :
    (key, entry) ∈ r.entries := by
  obtain ⟨_, _, hspl, _⟩ := lookup_eq_some_iff.mp h
  simp [hspl]

theorem Sound.lookup_of_mem (h : r.Sound) (he : e ∈ r.entries) : r.entries.lookup e.1 = some e.2 := by
  cases hlk : r.entries.lookup e.1 with
  | none => simpa using lookup_eq_none_iff.mp hlk e he
  | some entry =>
    have heq := inj_on_of_nodup_map h.keys he (mem_of_lookup hlk) rfl
    rw [heq]

theorem Sound.drop (h : r.Sound) {entries : List MapEntry} (hsub : entries.Sublist r.entries)
    (hkp : ∀ e ∈ r.entries, 0 < (r.memory e.2).refs → e ∈ entries) : { r with entries }.Sound := by
  refine ⟨h.keys.sublist (hsub.map _), h.refs, fun handle hin hop => ?_,
    fun e he => h.placed e (hsub.mem he), h.fresh, ?_, h.config⟩
  · exact hkp _ (h.held handle hin hop) (h.refs_pos hin hop)
  · have := hsub.length_le
    have := h.bounded
    dsimp only
    omega

theorem expireIdle_keeps (he : e ∈ r.entries) (hrf : 0 < (r.memory e.2).refs) :
    e ∈ (r.expireIdleLocked now).entries := by
  refine mem_filter.mpr ⟨he, ?_⟩
  simp
  omega

theorem Sound.expireIdle (h : r.Sound) (now : Int) : (r.expireIdleLocked now).Sound :=
  h.drop filter_sublist fun _ => expireIdle_keeps

theorem foldl_candidate (visit : List MapEntry) :
    visit.foldl r.candidate none =
      (visit.filter fun e => (r.memory e.2).refs = 0).argmin fun e => (r.memory e.2).rank := by
  unfold List.argmin
  rw [foldl_filter]
  congr 1
  funext found e
  unfold candidate argAux
  by_cases h : (r.memory e.2).refs = 0
  · cases found with
    | none => simp [h]
    | some c => simp [h, RegistryEntry.older_iff]
  · simp [h]

theorem evictOldestIdle_none (hvis : visit.Perm r.entries) (h : r.evictOldestIdleLocked visit = none) :
    ∀ e ∈ r.entries, 0 < (r.memory e.2).refs := by
  unfold evictOldestIdleLocked at h
  rw [map_eq_none_iff, foldl_candidate, argmin_eq_none, filter_eq_nil_iff] at h
  intro e he
  have := h e (hvis.mem_iff.mpr he)
  simp at this
  omega

section

variable (h : r.Sound)
include h

theorem Sound.evictOldestIdle (hvis : visit.Perm r.entries)
    (hevi : r.evictOldestIdleLocked visit = some r') :
    ∃ c ∈ r.entries, (r.memory c.2).refs = 0 ∧
      (∀ e ∈ r.entries, (r.memory e.2).refs = 0 → ¬(r.memory e.2).older (r.memory c.2)) ∧
      (∀ e ∈ r.entries, e ∈ r'.entries ↔ e ≠ c) ∧ r' = { r with entries := r'.entries } ∧
      r'.entries.Sublist r.entries := by
  unfold evictOldestIdleLocked at hevi
  obtain ⟨c, hc, rfl⟩ := map_eq_some_iff.mp hevi
  rw [foldl_candidate] at hc
  obtain ⟨hin, hie⟩ := mem_filter.mp (argmin_mem hc)
  have hmem := hvis.mem_iff.mp hin
  refine ⟨c, hmem, by simpa using hie, fun e he hz => ?_, fun e he => ?_, rfl, filter_sublist⟩
  · rw [RegistryEntry.older_iff]
    refine not_lt_of_mem_argmin (f := fun e : MapEntry => (r.memory e.2).rank)
      (mem_filter.mpr ?_) hc
    exact ⟨hvis.mem_iff.mpr he, by simpa using hz⟩
  · rw [mem_filter, decide_eq_true_iff]
    refine ⟨fun hne heq => hne.2 (congrArg Prod.fst heq), fun hne => ⟨he, fun heq => hne ?_⟩⟩
    exact inj_on_of_nodup_map h.keys he hmem heq

theorem Sound.newHandle (hent : (key, entry) ∈ r.entries) :
    ({ r with memory := update r.memory entry { r.memory entry with refs := (r.memory entry).refs + 1 } :
      ReliabilityRegistry }.newHandle key entry).Sound := by
  refine ⟨h.keys, fun x => ?_, fun handle hin hop => ?_, h.placed, fun handle hin => ?_, h.bounded, h.config⟩
  · have hcnt : ({ r with handles := r.handles ++ [{ key, entry }] } : ReliabilityRegistry).unreleased x =
        r.unreleased x + if entry = x then 1 else 0 := by
      simp [unreleased, countP_append, countP_singleton]
    have := h.refs x
    show (update r.memory entry _ x).refs = _
    by_cases hx : x = entry
    · subst hx
      rw [update_self]
      simp_all [unreleased, ReliabilityRegistry.newHandle]
    · rw [update_of_ne hx]
      simp_all [unreleased, ReliabilityRegistry.newHandle, Ne.symm hx]
  · rcases mem_append.mp hin with hin | hin
    · exact h.held handle hin hop
    · rw [mem_singleton.mp hin]
      exact hent
  · rcases mem_append.mp hin with hin | hin
    · exact h.fresh handle hin
    · rw [mem_singleton.mp hin]
      exact h.placed _ hent

theorem Sound.create (hnew : r.entries.lookup key = none)
    (hrm : (r.entries.length : Int) < r.maxSessions) :
    (r.create key).1 = none ∧ (r.create key).2.Sound ∧
      (r.create key).2.entries = r.entries ++ [(key, r.allocated)] := by
  obtain ⟨-, hcap, httl⟩ := h.config
  have hfr : r.unreleased r.allocated = 0 := by
    refine countP_eq_zero.mpr fun handle hin => ?_
    rw [Bool.and_eq_true, decide_eq_true_iff]
    exact fun heq => (h.fresh handle hin).ne heq.1
  have hpla : ({ r with
      entries := r.entries ++ [(key, r.allocated)]
      memory := update r.memory r.allocated {}
      allocated := r.allocated + 1 } : ReliabilityRegistry).Sound := by
    refine ⟨?_, fun x => ?_, fun handle hin hop => ?_, fun e he => ?_, fun handle hin => ?_, ?_, h.config⟩
    · rw [map_append, nodup_append]
      refine ⟨h.keys, nodup_singleton _, fun x hx y hy heq => ?_⟩
      obtain ⟨e, he, rfl⟩ := mem_map.mp hx
      have := lookup_eq_none_iff.mp hnew e he
      simp_all
    · show (update r.memory r.allocated _ x).refs = r.unreleased x
      by_cases hx : x = r.allocated
      · rw [hx, update_self, hfr]
      · rw [update_of_ne hx, h.refs]
    · exact mem_append_left _ (h.held handle hin hop)
    · rcases mem_append.mp he with he | he
      · exact (h.placed e he).trans (Nat.lt_succ_self _)
      · rw [mem_singleton.mp he]
        exact Nat.lt_succ_self _
    · exact (h.fresh handle hin).trans (Nat.lt_succ_self _)
    · dsimp only
      rw [length_append, length_singleton]
      omega
  have hhnd := hpla.newHandle (mem_append_right _ (mem_singleton_self (key, r.allocated)))
  unfold ReliabilityRegistry.create
  rw [if_neg (by omega), if_neg (by omega)]
  refine ⟨rfl, ?_, rfl⟩
  simpa [update_idem] using hhnd

theorem Sound.acquire (key : SessionKey) (now : Int)
    (hvis : visit.Perm (r.expireIdleLocked now).entries) :
    (r.acquire key now visit).2.Sound ∧ r.AcquiresExactly key now visit := by
  have hexp := h.expireIdle now
  unfold AcquiresExactly ReliabilityRegistry.acquire
  dsimp only
  split
  next entry hlk =>
    exact ⟨hexp.newHandle (mem_of_lookup hlk), nofun, fun e he hout => absurd he hout⟩
  rename_i hnew
  split
  next hfl =>
    split
    next hevi =>
      refine ⟨hexp, fun err herr => ⟨(some.inj herr).symm, ?_⟩, fun e he hout => absurd he hout⟩
      have hus := evictOldestIdle_none hvis hevi
      rw [← show (r.expireIdleLocked now).maxSessions = r.maxSessions from rfl, ← hfl]
      refine congrArg _ (congrArg _ (filter_congr fun e he => ?_))
      by_cases hin : e ∈ (r.expireIdleLocked now).entries
      · have hpos : 0 < (r.memory e.2).refs := hus e hin
        have hkp := (mem_filter.mp hin).2
        rw [hkp, decide_eq_true_iff]
        omega
      have hie : (r.memory e.2).refs = 0 := by
        by_contra hne
        exact hin (expireIdle_keeps he (Nat.pos_of_ne_zero hne))
      have hgn := fun hkp => hin (mem_filter.mpr ⟨he, hkp⟩)
      rw [Bool.eq_false_iff.mpr hgn]
      simp [hie]
    next r' hevi =>
      obtain ⟨c, hc, hie, hlea, hmem, heq, hsub⟩ := hexp.evictOldestIdle hvis hevi
      have hr' : r'.Sound := by
        rw [heq]
        refine hexp.drop hsub fun e he hpos => (hmem e he).mpr fun hec => ?_
        rw [hec, hie] at hpos
        exact absurd hpos (lt_irrefl _)
      have hrm : r'.entries.length < (r.expireIdleLocked now).entries.length := by
        refine lt_of_le_of_ne hsub.length_le fun hlen => ?_
        rw [← hsub.eq_of_length hlen] at hc
        exact (hmem c (hsub.mem hc)).mp hc rfl
      have hno : r'.entries.lookup key = none :=
        lookup_eq_none_iff.mpr fun e he => lookup_eq_none_iff.mp hnew e (hsub.mem he)
      have hmax : r'.maxSessions = (r.expireIdleLocked now).maxSessions := by rw [heq]
      obtain ⟨hok, hsd, hent⟩ := hr'.create hno (by omega)
      refine ⟨hsd, fun err herr => ?_, fun e he hout => ?_⟩
      · rw [hok] at herr
        cases herr
      · rw [hent, mem_append, not_or, hmem e he, not_not] at hout
        rw [hout.1]
        exact ⟨hie, hlea⟩
  next hrm =>
    have hlt := hexp.bounded.lt_of_ne hrm
    obtain ⟨hok, hsd, hent⟩ := hexp.create hnew hlt
    refine ⟨hsd, fun err herr => ?_, fun e he hout => ?_⟩
    · rw [hok] at herr
      cases herr
    · rw [hent] at hout
      exact absurd (mem_append_left _ he) hout

theorem Sound.released {i : Nat} (hi : r.handles[i]? = some handle)
    (hop : handle.released = false) {entry : RegistryEntry}
    (hrf : entry.refs + 1 = (r.memory handle.entry).refs) (order : UInt64) :
    { r with
      order
      memory := update r.memory handle.entry entry
      handles := r.handles.set i { handle with released := true } : ReliabilityRegistry }.Sound := by
  obtain ⟨hlt, hget⟩ := List.getElem?_eq_some_iff.mp hi
  refine ⟨h.keys, fun x => ?_, fun other hin hother => ?_, h.placed, fun other hin => ?_, h.bounded, h.config⟩
  · show (update r.memory handle.entry entry x).refs = (r.handles.set i _).countP _
    have hx := h.refs x
    unfold unreleased at hx
    rw [countP_set hlt, hget]
    by_cases heq : x = handle.entry
    · subst heq
      simp [hop]
      omega
    · simp [update_of_ne heq, Ne.symm heq, hx]
  · rcases mem_or_eq_of_mem_set hin with hin | rfl
    · exact h.held other hin hother
    · cases hother
  · rcases mem_or_eq_of_mem_set hin with hin | rfl
    · exact h.fresh other hin
    · exact h.fresh handle (mem_of_getElem? hi)

theorem Sound.release {i : Nat} (hi : r.handles[i]? = some handle)
    (hop : handle.released = false) (now : Int) :
    { r.release handle.key handle.entry now with
      handles := r.handles.set i { handle with released := true } : ReliabilityRegistry }.Sound := by
  have hin := mem_of_getElem? hi
  have hlk := h.lookup_of_mem (h.held handle hin hop)
  have hpos := h.refs_pos hin hop
  unfold ReliabilityRegistry.release
  dsimp only at hlk ⊢
  rw [if_neg (by rintro (hne | hz); exact hne hlk; omega)]
  split
  · exact h.released hi hop (by dsimp only; omega) r.order
  · exact h.released hi hop (by dsimp only; omega) _

theorem Sound.step {op : RegistryOp} (hst : r.step op = some r') :
    r'.Sound ∧ ∀ e ∈ r.entries, 0 < (r.memory e.2).refs → e ∈ r'.entries := by
  cases op with
  | acquire key now visit =>
    obtain ⟨hvis, heq⟩ := ite_none_right_eq_some.mp hst
    cases heq
    obtain ⟨hsd, -, hevi⟩ := h.acquire key now hvis
    refine ⟨hsd, fun e he hpos => ?_⟩
    by_contra hout
    have hz := (hevi e (expireIdle_keeps he hpos) hout).1
    omega
  | release i now =>
    unfold ReliabilityRegistry.step at hst
    dsimp only at hst
    split at hst
    · cases hst
    rename_i handle hi
    split at hst
    · cases hst
      exact ⟨h, fun e he _ => he⟩
    rename_i hop
    cases hst
    refine ⟨h.release hi (by simpa using hop) now, fun e he _ => ?_⟩
    show e ∈ (r.release handle.key handle.entry now).entries
    unfold ReliabilityRegistry.release
    dsimp only
    split
    · exact he
    · split <;> exact he

end

theorem newReliabilityRegistry_sound {maxSessions messageCapacity ttl : Int}
    (h : newReliabilityRegistry maxSessions messageCapacity ttl = .ok r) : r.Sound := by
  unfold newReliabilityRegistry at h
  split at h
  · cases h
  split at h
  · cases h
  split at h
  · cases h
  cases h
  exact ⟨nodup_nil, fun _ => rfl, nofun, nofun, nofun, by dsimp only [length_nil]; omega,
    by dsimp only; omega⟩

/-- References are unreleased handles; an entry in use is never expired or evicted, so the handles
of a key share one. -/
theorem reliability_registry_lifetime {maxSessions messageCapacity ttl : Int} {ops : List RegistryOp}
    {start : ReliabilityRegistry} (hnew : newReliabilityRegistry maxSessions messageCapacity ttl = .ok start)
    (hrun : exec step start ops = some r) :
    (∀ entry, (r.memory entry).refs = r.unreleased entry) ∧
    (∀ op r', r.step op = some r' → ∀ e ∈ r.entries, 0 < (r.memory e.2).refs → e ∈ r'.entries) ∧
    (∀ a ∈ r.handles, ∀ b ∈ r.handles, a.released = false → b.released = false → a.key = b.key →
      a.entry = b.entry) ∧
    r.entries.length ≤ r.maxSessions ∧
    ∀ key now visit, visit.Perm (r.expireIdleLocked now).entries → r.AcquiresExactly key now visit := by
  have h : r.Sound := exec_inductive (fun _ _ _ h hst => (h.step hst).1)
    (newReliabilityRegistry_sound hnew) hrun
  refine ⟨h.refs, fun op r' hst => (h.step hst).2, fun a ha b hb hop hop' hkey => ?_, h.bounded,
    fun key now visit hvis => (h.acquire key now hvis).2⟩
  have heq := inj_on_of_nodup_map h.keys (h.held a ha hop) (h.held b hb hop') hkey
  exact congrArg Prod.snd heq

def evictingRun : List RegistryOp :=
  [.acquire ⟨1, 1⟩ 0 [], .release 0 1, .release 0 2, .acquire ⟨1, 2⟩ 3 [(⟨1, 1⟩, 0)]]

theorem reliability_registry_lifetime_evicting :
    ∃ start r, newReliabilityRegistry 1 1 10 = .ok start ∧ exec step start evictingRun = some r ∧
      r.entries = [(⟨1, 2⟩, 1)] ∧ (r.memory 1).refs = r.unreleased 1 := by
  have hnew : newReliabilityRegistry 1 1 10 = .ok { maxSessions := 1, messageCapacity := 1, ttl := 10 } := rfl
  have hvw : (exec step { maxSessions := 1, messageCapacity := 1, ttl := 10 } evictingRun).map (·.entries) =
      some [(⟨1, 2⟩, 1)] := by decide
  obtain ⟨r, hrun, hent⟩ := map_eq_some_iff.mp hvw
  exact ⟨_, r, hnew, hrun, hent, (reliability_registry_lifetime hnew hrun).1 1⟩

end ReliabilityRegistry

end Tlrpc
