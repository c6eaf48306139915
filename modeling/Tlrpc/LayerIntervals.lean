import Mathlib.Data.List.Induction
import Mathlib.Data.List.Sort

namespace Tlrpc

open List

/-- One inclusive availability interval. A zero `maxLayer` is unbounded. -/
structure LayerInterval where
  minLayer : Int
  maxLayer : Int
deriving DecidableEq

def LayerInterval.supports (interval : LayerInterval) (layer : Int) : Bool :=
  layer ≥ interval.minLayer && (interval.maxLayer = 0 || layer ≤ interval.maxLayer)

def intervalsSupport (intervals : List LayerInterval) (layer : Int) : Bool :=
  intervals.any (·.supports layer)

def openInterval (intervals : List LayerInterval) (layer : Int) : List LayerInterval :=
  match intervals.getLast? with
  | none => [⟨layer, 0⟩]
  | some last =>
    if last.maxLayer = 0 ∨ layer ≤ last.maxLayer + 1 then
      intervals.dropLast ++ [⟨last.minLayer, 0⟩]
    else intervals ++ [⟨layer, 0⟩]

def closeInterval (intervals : List LayerInterval) (maxLayer : Int) : List LayerInterval :=
  match intervals.getLast? with
  | none => intervals
  | some last => intervals.dropLast ++ [⟨last.minLayer, maxLayer⟩]

def intersectIntervals (intervals : List LayerInterval) (minLayer maxLayer : Int) :
    List LayerInterval :=
  (intervals.map fun interval =>
    (⟨max interval.minLayer minLayer, min interval.maxLayer maxLayer⟩ : LayerInterval)).filter
      fun interval => interval.minLayer ≤ interval.maxLayer

/-- The loop of `normalizeIntervals`: `last` is the last interval of `merged`. -/
def mergeIntervals (last : LayerInterval) : List LayerInterval → List LayerInterval
  | [] => [last]
  | interval :: rest =>
    if last.maxLayer = 0 ∨ interval.minLayer ≤ last.maxLayer + 1 then
      if last.maxLayer ≠ 0 ∧ (interval.maxLayer = 0 ∨ interval.maxLayer > last.maxLayer) then
        mergeIntervals ⟨last.minLayer, interval.maxLayer⟩ rest
      else mergeIntervals last rest
    else last :: mergeIntervals interval rest

def normalizeIntervals (intervals : List LayerInterval) : List LayerInterval :=
  match intervals.insertionSort (fun a b => a.minLayer ≤ b.minLayer) with
  | [] => []
  | first :: rest => mergeIntervals first rest

def layerRangesOverlap (firstMin firstMax secondMin secondMax : Int) : Bool :=
  (firstMax = 0 || secondMin ≤ firstMax) && (secondMax = 0 || firstMin ≤ secondMax)

def intervalSetsOverlap (first second : List LayerInterval) : Bool :=
  first.any fun left => second.any fun right =>
    layerRangesOverlap left.minLayer left.maxLayer right.minLayer right.maxLayer

variable {layer : Int}

variable {interval : LayerInterval}

theorem LayerInterval.supports_iff : interval.supports layer = true ↔
      interval.minLayer ≤ layer ∧ (interval.maxLayer = 0 ∨ layer ≤ interval.maxLayer) := by
  simp [LayerInterval.supports]

variable {intervals : List LayerInterval}

theorem intervalsSupport_iff : intervalsSupport intervals layer = true ↔
      ∃ interval ∈ intervals, interval.supports layer = true :=
  any_eq_true

@[simp] theorem intervalsSupport_nil (layer : Int) : intervalsSupport [] layer = false := rfl

theorem intervalsSupport_append (first second : List LayerInterval) (layer : Int) :
    intervalsSupport (first ++ second) layer =
      (intervalsSupport first layer || intervalsSupport second layer) :=
  any_append

theorem intervalsSupport_cons (interval : LayerInterval) (rest : List LayerInterval) (layer : Int) :
    intervalsSupport (interval :: rest) layer = (interval.supports layer || intervalsSupport rest layer) :=
  any_cons

def LayerInterval.Nonempty (interval : LayerInterval) : Prop :=
  interval.maxLayer = 0 ∨ interval.minLayer ≤ interval.maxLayer

structure Normalised (intervals : List LayerInterval) : Prop where
  nonempty : ∀ interval ∈ intervals, interval.Nonempty
  apart : intervals.Pairwise fun a b => a.maxLayer ≠ 0 ∧ a.maxLayer + 1 < b.minLayer

theorem Normalised.nil : Normalised [] := ⟨nofun, .nil⟩

theorem Normalised.concat {last : LayerInterval} (h : Normalised intervals) (hla : last.Nonempty)
    (apart : ∀ interval ∈ intervals, interval.maxLayer ≠ 0 ∧ interval.maxLayer + 1 < last.minLayer) :
    Normalised (intervals ++ [last]) := by
  refine ⟨?_, ?_⟩
  · intro interval hm
    rcases mem_append.mp hm with hm | hm
    · exact h.nonempty interval hm
    · cases mem_singleton.mp hm
      exact hla
  · refine pairwise_append.mpr ⟨h.apart, pairwise_singleton _ _, ?_⟩
    intro interval hm other ho
    cases mem_singleton.mp ho
    exact apart interval hm

section

variable {last : LayerInterval} (h : Normalised (intervals ++ [last]))
include h

theorem Normalised.init : Normalised intervals :=
  ⟨fun interval hm => h.nonempty interval (mem_append_left _ hm), (pairwise_append.mp h.apart).1⟩

theorem Normalised.init_apart :
    ∀ interval ∈ intervals, interval.maxLayer ≠ 0 ∧ interval.maxLayer + 1 < last.minLayer :=
  fun interval hm => (pairwise_append.mp h.apart).2.2 interval hm last (mem_singleton_self _)

end

@[simp] theorem openInterval_nil (layer : Int) : openInterval [] layer = [⟨layer, 0⟩] := rfl

section

variable (intervals : List LayerInterval) (last : LayerInterval)

theorem openInterval_concat (layer : Int) : openInterval (intervals ++ [last]) layer =
      if last.maxLayer = 0 ∨ layer ≤ last.maxLayer + 1 then intervals ++ [⟨last.minLayer, 0⟩]
      else intervals ++ [last] ++ [⟨layer, 0⟩] := by
  simp [openInterval]

theorem closeInterval_concat (maxLayer : Int) :
    closeInterval (intervals ++ [last]) maxLayer = intervals ++ [⟨last.minLayer, maxLayer⟩] := by
  simp [closeInterval]

end

def followLayer (intervals : List LayerInterval) (was present : Bool) (layer : Int) :
    List LayerInterval :=
  if present then openInterval intervals layer
  else if was then closeInterval intervals (layer - 1)
  else intervals

def presentLast (history : List (Int × Bool)) : Bool := (history.getLast?.map (·.2)).getD false

def presentAt (history : List (Int × Bool)) (layer : Int) : Bool :=
  presentLast (history.filter (·.1 ≤ layer))

@[simp] theorem presentLast_nil : presentLast [] = false := rfl

@[simp] theorem presentLast_concat (history : List (Int × Bool)) (last : Int × Bool) :
    presentLast (history ++ [last]) = last.2 := by
  simp [presentLast]

theorem presentAt_concat (history : List (Int × Bool)) (last : Int × Bool) (layer : Int) :
    presentAt (history ++ [last]) layer = if last.1 ≤ layer then last.2 else presentAt history layer := by
  simp only [presentAt, filter_append]
  by_cases h : last.1 ≤ layer
  · simp [h]
  · simp [h]

def availability (history : List (Int × Bool)) : List LayerInterval :=
  (history.foldl (fun (intervals, was) snapshot =>
    (followLayer intervals was snapshot.2 snapshot.1, snapshot.2)) ([], false)).1

theorem availability_fold_present (history : List (Int × Bool)) :
    (history.foldl (fun (intervals, was) snapshot =>
      (followLayer intervals was snapshot.2 snapshot.1, snapshot.2))
      (([], false) : List LayerInterval × Bool)).2 = presentLast history := by
  induction history using List.reverseRecOn with
  | nil => rfl
  | append_singleton history last _ => simp

theorem availability_concat (history : List (Int × Bool)) (last : Int × Bool) :
    availability (history ++ [last]) =
      followLayer (availability history) (presentLast history) last.2 last.1 := by
  rw [← availability_fold_present]
  simp [availability]

def Above (history : List (Int × Bool)) (next : Int) : Prop := ∀ snapshot ∈ history, snapshot.1 < next

structure Follows (history : List (Int × Bool)) (intervals : List LayerInterval) : Prop where
  normalised : Normalised intervals
  closed : presentLast history = false → ∀ interval ∈ intervals, interval.maxLayer ≠ 0 ∧
    ∀ next, Above history next → interval.maxLayer + 1 < next
  opened : presentLast history = true → ∃ init minLayer, intervals = init ++ [⟨minLayer, 0⟩] ∧
    ∀ next, Above history next → minLayer < next
  support : ∀ layer, intervalsSupport intervals layer = presentAt history layer

variable {history : List (Int × Bool)}

theorem Above.init {last : Int × Bool} {next : Int}
    (h : Above (history ++ [last]) next) : Above history next :=
  fun snapshot hm => h snapshot (mem_append_left _ hm)

theorem Above.last {last : Int × Bool} {next : Int} (h : Above (history ++ [last]) next) : last.1 < next :=
  h last (mem_append_right _ (mem_singleton_self _))

theorem presentAt_of_last {next layer : Int} (hab : Above history next) (h : next ≤ layer) :
    presentAt history layer = presentLast history := by
  have hall : history.filter (·.1 ≤ layer) = history := by
    refine filter_eq_self.mpr ?_
    intro snapshot hm
    have := hab snapshot hm
    exact decide_eq_true (by omega)
  rw [presentAt, hall]

theorem Follows.present (h : Follows history intervals) (hab : Above history layer) :
    Follows (history ++ [(layer, true)]) (followLayer intervals (presentLast history) true layer) := by
  have hsup : ∀ l, layer ≤ l → intervalsSupport intervals l = presentLast history :=
    fun l hl => (h.support l).trans (presentAt_of_last hab hl)
  simp only [followLayer, ↓reduceIte]
  cases was : presentLast history with
  | true =>
    -- the interval is already open, and stays as it is
    obtain ⟨init, minLayer, rfl, hmin⟩ := h.opened was
    have hop : openInterval (init ++ [⟨minLayer, 0⟩]) layer = init ++ [⟨minLayer, 0⟩] := by
      simp [openInterval_concat]
    rw [hop]
    refine ⟨h.normalised, ?_, ?_, ?_⟩
    · intro hla
      simp at hla
    · intro _
      exact ⟨init, minLayer, rfl, fun next hnx => hmin next hnx.init⟩
    · intro l
      rw [presentAt_concat]
      split
      next hl => exact (hsup l hl).trans was
      · exact h.support l
  | false =>
    have hop : openInterval intervals layer = intervals ++ [⟨layer, 0⟩] := by
      rcases eq_nil_or_concat intervals with rfl | ⟨init, last, rfl⟩
      · rfl
      obtain ⟨hbd, hnx⟩ := h.closed was last (by simp)
      have := hnx layer hab
      rw [concat_eq_append, openInterval_concat, if_neg (by omega)]
    rw [hop]
    refine ⟨?_, ?_, ?_, ?_⟩
    · refine h.normalised.concat (.inl rfl) ?_
      intro interval hm
      obtain ⟨hbd, hnx⟩ := h.closed was interval hm
      exact ⟨hbd, hnx layer hab⟩
    · intro hla
      simp at hla
    · intro _
      exact ⟨intervals, layer, rfl, fun next hnx => hnx.last⟩
    · intro l
      rw [presentAt_concat, intervalsSupport_append, h.support l]
      have hsf : intervalsSupport [(⟨layer, 0⟩ : LayerInterval)] l = decide (layer ≤ l) := by
        simp [intervalsSupport, LayerInterval.supports]
      rw [hsf]
      split
      next hl => simp [hl]
      next hl => simp [hl]

theorem Follows.absent (h : Follows history intervals) (hab : Above history layer)
    (hps : ∀ snapshot ∈ history, 0 < snapshot.1) : Follows (history ++ [(layer, false)])
      (followLayer intervals (presentLast history) false layer) := by
  simp only [followLayer, Bool.false_eq_true, ↓reduceIte]
  cases was : presentLast history with
  | true =>
    -- the open interval ends below this layer
    obtain ⟨init, minLayer, rfl, hmin⟩ := h.opened was
    have hlt := hmin layer hab
    have hone : 1 < layer := by
      rcases eq_nil_or_concat history with rfl | ⟨before, last, rfl⟩
      · simp at was
      have hpos := hps last (by simp)
      have := hab last (by simp)
      omega
    simp only [↓reduceIte, closeInterval_concat]
    refine ⟨?_, ?_, ?_, ?_⟩
    · refine h.normalised.init.concat (.inr (by simpa using by omega)) ?_
      exact h.normalised.init_apart
    · intro _ interval hm
      rcases mem_append.mp hm with hm | hm
      · obtain ⟨hbd, hapa⟩ := h.normalised.init_apart interval hm
        refine ⟨hbd, fun next hnx => ?_⟩
        have := hnx.last
        simp only at hapa this
        omega
      · cases mem_singleton.mp hm
        refine ⟨by simpa using by omega, fun next hnx => ?_⟩
        have := hnx.last
        simp only at this ⊢
        omega
    · intro hla
      simp at hla
    · intro l
      have hold := h.support l
      rw [intervalsSupport_append, intervalsSupport_cons, intervalsSupport_nil, Bool.or_false] at hold ⊢
      rw [presentAt_concat]
      split
      next hl =>
        -- nothing reaches up to the layer
        simp only at hl
        rw [Bool.or_eq_false_iff]
        refine ⟨?_, ?_⟩
        · rw [Bool.eq_false_iff]
          intro hsup
          obtain ⟨interval, hm, hs⟩ := intervalsSupport_iff.mp hsup
          obtain ⟨hbd, hapa⟩ := h.normalised.init_apart interval hm
          have := LayerInterval.supports_iff.mp hs
          simp only at hapa
          omega
        · rw [Bool.eq_false_iff]
          intro hs
          have := LayerInterval.supports_iff.mp hs
          simp only at this
          omega
      next hl =>
        rw [← hold]
        congr 1
        simp only at hl
        rw [Bool.eq_iff_iff, LayerInterval.supports_iff, LayerInterval.supports_iff]
        simp only [true_or, and_true]
        omega
  | false =>
    simp only [Bool.false_eq_true, ↓reduceIte]
    refine ⟨h.normalised, ?_, ?_, ?_⟩
    · intro _ interval hm
      obtain ⟨hbd, hnx⟩ := h.closed was interval hm
      exact ⟨hbd, fun next hn => hnx next hn.init⟩
    · intro hla
      simp at hla
    · intro l
      rw [presentAt_concat, h.support l]
      split
      next hl => exact (presentAt_of_last hab hl).trans was
      · rfl

/-- The intervals are normalised and hold exactly the layers whose snapshots have the entry. -/
theorem availability_follows (increasing : history.Pairwise fun a b => a.1 < b.1)
    (positive : ∀ snapshot ∈ history, 0 < snapshot.1) : Follows history (availability history) := by
  induction history using List.reverseRecOn with
  | nil => exact ⟨.nil, nofun, nofun, fun _ => rfl⟩
  | append_singleton history last ih =>
    obtain ⟨hin, _, hla⟩ := pairwise_append.mp increasing
    have hpos : ∀ snapshot ∈ history, 0 < snapshot.1 :=
      fun snapshot hm => positive snapshot (mem_append_left _ hm)
    have hab : Above history last.1 :=
      fun snapshot hm => hla snapshot hm last (mem_singleton_self _)
    have hfol := ih hin hpos
    rw [availability_concat]
    obtain ⟨layer, present⟩ := last
    cases present with
    | true => exact hfol.present hab
    | false => exact hfol.absent hab hpos

theorem mergeIntervals_spec {last : LayerInterval} {rest : List LayerInterval}
    (hla : last.Nonempty) (hrs : ∀ interval ∈ rest, interval.Nonempty)
    (hmin : ∀ interval ∈ rest, last.minLayer ≤ interval.minLayer)
    (sorted : rest.Pairwise fun a b => a.minLayer ≤ b.minLayer) : Normalised (mergeIntervals last rest) ∧
      (∀ interval ∈ mergeIntervals last rest, last.minLayer ≤ interval.minLayer) ∧
      ∀ layer, intervalsSupport (mergeIntervals last rest) layer =
        intervalsSupport (last :: rest) layer := by
  induction rest generalizing last with
  | nil =>
    refine ⟨⟨?_, pairwise_singleton _ _⟩, ?_, fun _ => rfl⟩
    · intro interval hm
      cases mem_singleton.mp hm
      exact hla
    · intro interval hm
      cases mem_singleton.mp hm
      exact le_refl _
  | cons interval rest ih =>
    obtain ⟨hfst, hsrt⟩ := pairwise_cons.mp sorted
    have hval := hrs interval (mem_cons_self ..)
    have hle := hmin interval (mem_cons_self ..)
    have hrs' : ∀ other ∈ rest, other.Nonempty :=
      fun other hm => hrs other (mem_cons_of_mem _ hm)
    have hmin' : ∀ other ∈ rest, last.minLayer ≤ other.minLayer :=
      fun other hm => hmin other (mem_cons_of_mem _ hm)
    simp only [mergeIntervals]
    split
    next htou =>
      split
      next hlon =>
        have hjoi : LayerInterval.Nonempty ⟨last.minLayer, interval.maxLayer⟩ := by
          unfold LayerInterval.Nonempty
          simp only
          omega
        obtain ⟨hnor, hlow, hsup⟩ := ih hjoi hrs' hmin' hsrt
        refine ⟨hnor, hlow, fun layer => ?_⟩
        rw [hsup layer, intervalsSupport_cons, intervalsSupport_cons, intervalsSupport_cons, ← Bool.or_assoc]
        congr 1
        rw [Bool.eq_iff_iff, Bool.or_eq_true, LayerInterval.supports_iff,
          LayerInterval.supports_iff, LayerInterval.supports_iff]
        simp only
        omega
      next hsho =>
        obtain ⟨hnor, hlow, hsup⟩ := ih hla hrs' hmin' hsrt
        refine ⟨hnor, hlow, fun layer => ?_⟩
        rw [hsup layer, intervalsSupport_cons, intervalsSupport_cons, intervalsSupport_cons, ← Bool.or_assoc]
        congr 1
        rw [Bool.eq_iff_iff, Bool.or_eq_true, LayerInterval.supports_iff, LayerInterval.supports_iff]
        omega
    next happ =>
      obtain ⟨hnor, hlow, hsup⟩ := ih hval hrs' hfst hsrt
      refine ⟨⟨?_, ?_⟩, ?_, fun layer => ?_⟩
      · intro other hm
        rcases mem_cons.mp hm with rfl | hm
        · exact hla
        · exact hnor.nonempty other hm
      · refine pairwise_cons.mpr ⟨?_, hnor.apart⟩
        intro other hm
        have := hlow other hm
        omega
      · intro other hm
        rcases mem_cons.mp hm with rfl | hm
        · exact le_refl _
        · exact hle.trans (hlow other hm)
      · rw [intervalsSupport_cons, hsup layer, ← intervalsSupport_cons]

theorem normalizeIntervals_spec (nonempty : ∀ interval ∈ intervals, interval.Nonempty) :
    Normalised (normalizeIntervals intervals) ∧
      ∀ layer, intervalsSupport (normalizeIntervals intervals) layer = intervalsSupport intervals layer := by
  have hpr := perm_insertionSort (fun a b : LayerInterval => a.minLayer ≤ b.minLayer) intervals
  have hsup : ∀ layer, intervalsSupport
      (intervals.insertionSort fun a b => a.minLayer ≤ b.minLayer) layer =
      intervalsSupport intervals layer := by
    intro layer
    rw [Bool.eq_iff_iff, intervalsSupport_iff, intervalsSupport_iff]
    simp only [hpr.mem_iff]
  have hsrt := pairwise_insertionSort
    (fun a b : LayerInterval => a.minLayer ≤ b.minLayer) intervals
  unfold normalizeIntervals
  split
  next h =>
    rw [h] at hsup
    exact ⟨.nil, hsup⟩
  rename_i first rest h
  rw [h] at hsup hsrt hpr
  obtain ⟨hfst, hrs⟩ := pairwise_cons.mp hsrt
  have hval : ∀ interval ∈ first :: rest, interval.Nonempty :=
    fun interval hm => nonempty interval (hpr.mem_iff.mp hm)
  obtain ⟨hnor, _, hmer⟩ := mergeIntervals_spec (hval first (mem_cons_self ..))
    (fun interval hm => hval interval (mem_cons_of_mem _ hm)) hfst hrs
  exact ⟨hnor, fun layer => (hmer layer).trans (hsup layer)⟩

theorem intersectIntervals_of_within {minLayer maxLayer : Int}
    (within : ∀ interval ∈ intervals, minLayer ≤ interval.minLayer ∧
      interval.minLayer ≤ interval.maxLayer ∧ interval.maxLayer ≤ maxLayer) :
    intersectIntervals intervals minLayer maxLayer = intervals := by
  have hmap : (intervals.map fun interval =>
      (⟨max interval.minLayer minLayer, min interval.maxLayer maxLayer⟩ : LayerInterval)) =
      intervals := by
    refine (map_congr_left ?_).trans (map_id _)
    intro interval hm
    obtain ⟨hmin, _, hmax⟩ := within interval hm
    simp only [id_eq, max_eq_left hmin, min_eq_left hmax]
  rw [intersectIntervals, hmap]
  refine filter_eq_self.mpr ?_
  intro interval hm
  exact decide_eq_true (within interval hm).2.1

end Tlrpc
