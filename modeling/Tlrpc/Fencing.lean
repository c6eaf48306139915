import Mathlib.Order.Basic
import Mathlib.Data.List.Count
import Tlrpc.StepSystem

namespace Tlrpc

open List

/-- What owners do. An operation on the resource begins, may reach it, and finishes. -/
inductive FenceEvent (G : Type)
  | created (g : G)
  | loaded (g : G)
  | begun (g : G)
  | stored (g : G)
  | finished (g : G)
  | released (g : G)
deriving DecidableEq

namespace FenceEvent

def generation {G : Type} : FenceEvent G → G
  | created g => g
  | loaded g => g
  | begun g => g
  | stored g => g
  | finished g => g
  | released g => g

def creation {G : Type} : FenceEvent G → Option G
  | created g => some g
  | _ => none

end FenceEvent

inductive FencePhase
  | opening
  | idle
  | busy
deriving DecidableEq

/-- The last generation given out, and the one owner with what it is doing. -/
structure Fence (G : Type) where
  last : Option G
  owner : Option (G × FencePhase)

namespace Fence

variable {G : Type}

def vacant : Fence G := ⟨none, none⟩

inductive Step [LT G] (f : Fence G) : FenceEvent G → Fence G → Prop
  | create {g : G} : f.owner = none → (∀ g', f.last = some g' → g' < g) →
      Step f (.created g) ⟨some g, some (g, .opening)⟩
  | load {g : G} : f.owner = some (g, .opening) →
      Step f (.loaded g) { f with owner := some (g, .idle) }
  | begin {g : G} : f.owner = some (g, .idle) →
      Step f (.begun g) { f with owner := some (g, .busy) }
  | store {g : G} : f.owner = some (g, .busy) → Step f (.stored g) f
  | finish {g : G} : f.owner = some (g, .busy) →
      Step f (.finished g) { f with owner := some (g, .idle) }
  | release {g : G} {phase : FencePhase} : f.owner = some (g, phase) → phase ≠ .busy →
      Step f (.released g) { f with owner := none }

abbrev Run [LT G] : Fence G → List (FenceEvent G) → Fence G → Prop := Trace Step

variable {log : List (FenceEvent G)}

variable {g : G}

theorem Run.owner_released [LT G] {f f' : Fence G}
    (h : Run f log f') (hown : ∃ phase, f.owner = some (g, phase)) (hend : f'.owner = none) :
    .released g ∈ log := by
  have hinv : (∃ phase, f'.owner = some (g, phase)) ∨ .released g ∈ log := by
    clear hend
    induction h with
    | nil => exact Or.inl hown
    | @snoc log e mid f' _ hst ih =>
      rcases ih with ⟨phase, hmid⟩ | hlog
      · cases hst with
        | create ho _ =>
          rw [hmid] at ho
          cases ho
        | release ho _ =>
          rw [hmid] at ho
          cases ho
          exact Or.inr (mem_append_right _ (mem_singleton.mpr rfl))
        | store _ => exact Or.inl ⟨phase, hmid⟩
        | load ho | begin ho | finish ho =>
          rw [hmid] at ho
          cases ho
          exact Or.inl ⟨_, rfl⟩
      · exact Or.inr (mem_append_left _ hlog)
  rcases hinv with ⟨phase, hown'⟩ | hlog
  · rw [hend] at hown'
    cases hown'
  · exact hlog

variable {e : FenceEvent G} {log : List (FenceEvent G)}

section

variable [Preorder G]

def Above (g : G) (f : Fence G) : Prop :=
  (∀ g' phase, f.owner = some (g', phase) → g ≤ g') ∧ ∃ g', f.last = some g' ∧ g ≤ g'

theorem Step.above {f f' : Fence G} (h : Step f e f') (ha : Above g f) : Above g f' ∧ g ≤ e.generation := by
  obtain ⟨hown, last, hla, hle⟩ := ha
  cases h with
  | @create new _ hnew =>
    have hlt : g ≤ new := le_trans hle (le_of_lt (hnew last hla))
    refine ⟨⟨?_, new, rfl, hlt⟩, hlt⟩
    intro g' phase hg'
    cases hg'
    exact hlt
  | release ho _ =>
    refine ⟨⟨?_, last, hla, hle⟩, hown _ _ ho⟩
    intro g' phase' hg'
    cases hg'
  | store ho => exact ⟨⟨hown, last, hla, hle⟩, hown _ _ ho⟩
  | load ho | begin ho | finish ho =>
    refine ⟨⟨?_, last, hla, hle⟩, hown _ _ ho⟩
    intro g' phase hg'
    cases hg'
    exact hown _ _ ho

theorem Run.above {f f' : Fence G} (h : Run f log f')
    (ha : Above g f) : Above g f' ∧ ∀ e ∈ log, g ≤ e.generation := by
  induction h with
  | nil => exact ⟨ha, by intro e he; cases he⟩
  | snoc hrun hst ih =>
    obtain ⟨hmid, hlog⟩ := ih
    obtain ⟨hend, hla⟩ := hst.above hmid
    refine ⟨hend, ?_⟩
    intro e he
    rcases mem_append.mp he with old | new
    · exact hlog e old
    · rw [mem_singleton.mp new]
      exact hla

end

theorem mem_creation (h : g ∈ log.filterMap FenceEvent.creation) : .created g ∈ log := by
  obtain ⟨e, he, hg⟩ := mem_filterMap.mp h
  cases e with
  | created g' =>
    cases hg
    exact he
  | _ => cases hg

theorem mem_created_snoc (he : e.creation = none) (h : .created g ∈ log ++ [e]) : .created g ∈ log := by
  rcases mem_append.mp h with old | new
  · exact old
  · rw [← mem_singleton.mp new] at he
    cases he

section

variable [DecidableEq G]

def Pending (log : List (FenceEvent G)) (g : G) (n : Nat) : Prop :=
  log.count (.begun g) = log.count (.finished g) + n

def inFlight (f : Fence G) (g : G) : Nat := if f.owner = some (g, .busy) then 1 else 0

theorem Step.pending [LT G] {f f' : Fence G} (h : Step f e f') (hp : Pending log g (f.inFlight g)) :
    Pending (log ++ [e]) g (f'.inFlight g) := by
  unfold Pending inFlight at *
  rw [count_append, count_append]
  cases h with
  | @begin g₀ ho =>
    by_cases hg : g₀ = g
    · subst hg
      simp [ho] at hp ⊢
      omega
    · simpa [ho, count_singleton, hg] using hp
  | @finish g₀ ho =>
    by_cases hg : g₀ = g
    · subst hg
      simp [ho] at hp ⊢
      omega
    · simpa [ho, count_singleton, hg] using hp
  | release ho hph => simpa [ho, count_singleton, hph] using hp
  | create ho _ | load ho | store ho => simpa [ho, count_singleton] using hp

theorem Run.pending [LT G] {f : Fence G} (h : Run vacant log f) (g : G) : Pending log g (f.inFlight g) := by
  induction h with
  | nil => rfl
  | snoc _ hst ih => exact Step.pending hst ih

end

section

variable [Preorder G]

structure Traced (log : List (FenceEvent G)) (f : Fence G) : Prop where
  increasing : (log.filterMap FenceEvent.creation).Pairwise (· < ·)
  bounded : ∀ g, .created g ∈ log → ∃ g', f.last = some g' ∧ g ≤ g'
  owner : ∀ g phase, f.owner = some (g, phase) → f.last = some g
  past : ∀ g, .created g ∈ log → (∀ phase, f.owner ≠ some (g, phase)) → .released g ∈ log

variable {log : List (FenceEvent G)}

theorem Traced.snoc {f f' : Fence G} (h : Traced log f) (he : e.creation = none) (hla : f'.last = f.last)
    (hown : ∀ g phase, f'.owner = some (g, phase) → ∃ phase', f.owner = some (g, phase'))
    (hps : ∀ g phase, f.owner = some (g, phase) → (∀ phase', f'.owner ≠ some (g, phase')) →
      e = .released g) : Traced (log ++ [e]) f' := by
  refine ⟨?_, ?_, ?_, ?_⟩
  · rw [filterMap_append]
    simpa [he] using h.increasing
  · intro g hg
    rw [hla]
    exact h.bounded g (mem_created_snoc he hg)
  · intro g phase ho
    obtain ⟨phase', ho'⟩ := hown g phase ho
    rw [hla]
    exact h.owner g phase' ho'
  · intro g hg hne
    by_cases hold : ∃ phase, f.owner = some (g, phase)
    · obtain ⟨phase, ho⟩ := hold
      rw [hps g phase ho hne]
      exact mem_append_right _ (mem_singleton.mpr rfl)
    refine mem_append_left _ (h.past g (mem_created_snoc he hg) ?_)
    intro phase ho
    exact hold ⟨phase, ho⟩

theorem Step.traced {f f' : Fence G} (h : Step f e f') (ht : Traced log f) : Traced (log ++ [e]) f' := by
  cases h with
  | @create g ho hnew =>
    refine ⟨?_, ?_, ?_, ?_⟩
    · rw [filterMap_append]
      refine pairwise_append.mpr ⟨ht.increasing, pairwise_singleton _ _, ?_⟩
      intro old hold new hnew'
      obtain ⟨last', hla, hle⟩ := ht.bounded old (mem_creation hold)
      rw [mem_singleton.mp hnew']
      exact lt_of_le_of_lt hle (hnew last' hla)
    · intro g' hg'
      refine ⟨g, rfl, ?_⟩
      rcases mem_append.mp hg' with old | new
      · obtain ⟨last', hla, hle⟩ := ht.bounded g' old
        exact le_trans hle (le_of_lt (hnew last' hla))
      · cases mem_singleton.mp new
        exact le_refl g
    · intro g' phase ho'
      cases ho'
      rfl
    · intro g' hg' hne
      rcases mem_append.mp hg' with old | new
      · exact mem_append_left _ (ht.past g' old (by simp [ho]))
      · cases mem_singleton.mp new
        exact absurd rfl (hne .opening)
  | release ho _ =>
    refine ht.snoc rfl rfl ?_ ?_
    · intro g phase ho'
      cases ho'
    · intro g phase ho' _
      rw [ho] at ho'
      cases ho'
      rfl
  | store ho =>
    refine ht.snoc rfl rfl ?_ ?_
    · intro g phase ho'
      exact ⟨phase, ho'⟩
    · intro g phase ho' hne
      exact absurd ho' (hne phase)
  | load ho | begin ho | finish ho =>
    refine ht.snoc rfl rfl ?_ ?_
    · intro g phase ho'
      cases ho'
      exact ⟨_, ho⟩
    · intro g phase ho' hne
      rw [ho] at ho'
      cases ho'
      exact absurd rfl (hne _)

variable {f : Fence G}

theorem Run.traced (h : Run vacant log f) : Traced log f := by
  refine h.invariant ⟨List.Pairwise.nil, ?_, ?_, ?_⟩ (fun _ _ _ _ ht hst => Step.traced hst ht)
  · intro g hg
    cases hg
  · intro g phase ho
    cases ho
  · intro g hg
    cases hg

theorem Run.released_between {before between after : List (FenceEvent G)} {g' : G}
    (h : Run vacant (before ++ .created g :: (between ++ .created g' :: after)) f) :
    .released g ∈ between := by
  obtain ⟨mid, mid', _, hcre, hrs⟩ := h.split_cons
  obtain ⟨free, _, hbet, hnx, _⟩ := hrs.split_cons
  have hown : ∃ phase, mid'.owner = some (g, phase) := by
    cases hcre
    exact ⟨_, rfl⟩
  have hfr : free.owner = none := by
    cases hnx with
    | create ho _ => exact ho
  exact Run.owner_released hbet hown hfr

section

variable {before after : List (FenceEvent G)} {g : G}
  (h : Run vacant (before ++ .loaded g :: after) f)
include h

/-- When an owner loads, all others are released, with no operation pending. -/
theorem Run.load_exclusive [DecidableEq G] :
    ∀ g', .created g' ∈ before → g' ≠ g → .released g' ∈ before ∧ Pending before g' 0 := by
  obtain ⟨mid, mid', hbef, hld, _⟩ := h.split_cons
  intro g' hcre hne
  have hp := Run.pending hbef g'
  cases hld with
  | load ho =>
    refine ⟨(Run.traced hbef).past g' hcre ?_, ?_⟩
    · intro phase ho'
      rw [ho] at ho'
      cases ho'
      exact hne rfl
    · rwa [inFlight, ho, if_neg (by simp)] at hp

theorem Run.load_fences : ∀ e ∈ after, g ≤ e.generation := by
  obtain ⟨mid, mid', hbef, hld, haft⟩ := h.split_cons
  have ht := Run.traced hbef
  have ha : Above g mid' := by
    cases hld with
    | load ho =>
      refine ⟨?_, g, ht.owner g _ ho, le_refl g⟩
      intro g' phase ho'
      cases ho'
      exact le_refl g
  exact (Run.above haft ha).2

end

end

end Fence

end Tlrpc
