import Mathlib.Logic.Equiv.Basic
import Mathlib.Order.Lattice
import Mathlib.Tactic.Common

namespace Tlrpc

open Equiv

/-- Go's `container/heap`: compared and exchanged by position, changed in length at the end. -/
structure HeapInterface (σ ι : Type) where
  len : σ → Nat
  less : σ → Nat → Nat → Bool
  swap : σ → Nat → Nat → σ
  push : σ → ι → σ
  pop : σ → Option ι × σ

namespace HeapInterface

variable {σ ι : Type}

def up (H : HeapInterface σ ι) (s : σ) (j : Nat) : σ :=
  if (j - 1) / 2 = j then s
  else if H.less s j ((j - 1) / 2) then H.up (H.swap s ((j - 1) / 2) j) ((j - 1) / 2)
  else s
termination_by j

def child (H : HeapInterface σ ι) (s : σ) (i n : Nat) : Nat :=
  if 2 * i + 2 < n ∧ H.less s (2 * i + 2) (2 * i + 1) then 2 * i + 2 else 2 * i + 1

theorem child_cases (H : HeapInterface σ ι) (s : σ) (i n : Nat) :
    H.child s i n = 2 * i + 1 ∨ (H.child s i n = 2 * i + 2 ∧ 2 * i + 2 < n) := by
  unfold child
  split
  next h => exact .inr ⟨rfl, h.1⟩
  · exact .inl rfl

/-- Returns the position the loop stops at; the original, whether it moved. -/
def down (H : HeapInterface σ ι) (s : σ) (i n : Nat) : σ × Nat :=
  if 2 * i + 1 < n then
    if H.less s (H.child s i n) i then
      H.down (H.swap s i (H.child s i n)) (H.child s i n) n
    else (s, i)
  else (s, i)
termination_by n - i
decreasing_by
  have := H.child_cases s i n
  omega

def settle (H : HeapInterface σ ι) (s : σ) (i n : Nat) : σ :=
  if (H.down s i n).2 > i then (H.down s i n).1 else H.up (H.down s i n).1 i

def heapPush (H : HeapInterface σ ι) (s : σ) (x : ι) : σ :=
  H.up (H.push s x) (H.len (H.push s x) - 1)

def heapPop (H : HeapInterface σ ι) (s : σ) : Option ι × σ :=
  H.pop (H.down (H.swap s 0 (H.len s - 1)) 0 (H.len s - 1)).1

def heapRemove (H : HeapInterface σ ι) (s : σ) (i : Nat) : Option ι × σ :=
  if H.len s - 1 ≠ i then H.pop (H.settle (H.swap s i (H.len s - 1)) i (H.len s - 1)) else H.pop s

def heapFix (H : HeapInterface σ ι) (s : σ) (i : Nat) : σ := H.settle s i (H.len s)

section

variable {H : HeapInterface σ ι} (inv : σ → Prop) {n : Nat}

theorem up_keeps (swap : ∀ s i j, i < n → j < n → inv s → inv (H.swap s i j)) (j : Nat) :
    ∀ s, j < n → inv s → inv (H.up s j) := by
  induction j using Nat.strongRecOn with
  | ind j ih =>
    intro s hj hs
    rw [up]
    split
    · exact hs
    rename_i hne
    split
    · exact ih _ (by omega) _ (by omega) (swap s _ j (by omega) hj hs)
    · exact hs

theorem down_keeps (swap : ∀ s i j, i < n → j < n → inv s → inv (H.swap s i j)) (s : σ) (i : Nat)
    (hs : inv s) : inv (H.down s i n).1 := by
  induction hm : n - i using Nat.strongRecOn generalizing s i with
  | ind m ih =>
    rw [down]
    split
    next hn =>
      have hc := H.child_cases s i n
      split
      · exact ih _ (by omega) _ _ (swap s i _ (by omega) (by omega) hs) rfl
      · exact hs
    · exact hs

theorem settle_keeps (swap : ∀ s i j, i < n → j < n → inv s → inv (H.swap s i j)) (s : σ) (i : Nat)
    (hi : i < n) (hs : inv s) : inv (H.settle s i n) := by
  have hdw := down_keeps inv swap s i hs
  unfold settle
  split
  · exact hdw
  · exact up_keeps inv swap i _ hi hdw

end

variable {κ : Type} [LinearOrder κ]

/-- `Less` compares the keys at two positions, and `Swap` exchanges them. -/
structure Lawful (H : HeapInterface σ ι) (key : σ → Nat → κ) : Prop where
  less_iff : ∀ s i j, i < H.len s → j < H.len s → (H.less s i j = true ↔ key s i < key s j)
  len_swap : ∀ s i j, H.len (H.swap s i j) = H.len s
  key_swap : ∀ s i j k, i < H.len s → j < H.len s →
    key (H.swap s i j) k = key s (Equiv.swap i j k)

end HeapInterface

def Heaped {κ : Type} [LinearOrder κ] (key : Nat → κ) (n : Nat) : Prop :=
  ∀ k, 0 < k → k < n → key ((k - 1) / 2) ≤ key k

/-- The order with position `i` left out: what is below `i` against what is above it. -/
structure HeapedAround {κ : Type} [LinearOrder κ] (key : Nat → κ) (i n : Nat) : Prop where
  off : ∀ k, 0 < k → k < n → k ≠ i → (k - 1) / 2 ≠ i → key ((k - 1) / 2) ≤ key k
  across : ∀ k, 0 < k → k < n → (k - 1) / 2 = i → 0 < i → key ((i - 1) / 2) ≤ key k

section

variable {κ : Type} [LinearOrder κ] {key : Nat → κ} {i n : Nat}

theorem Heaped.root_le (h : Heaped key n) : ∀ k, k < n → key 0 ≤ key k := by
  intro k
  induction k using Nat.strongRecOn with
  | ind k ih =>
    intro hk
    rcases Nat.eq_zero_or_pos k with rfl | hpos
    · exact le_refl _
    · exact le_trans (ih ((k - 1) / 2) (by omega) (by omega)) (h k hpos hk)

theorem Heaped.mono {m : Nat} (h : Heaped key n) (hm : m ≤ n) : Heaped key m :=
  fun k hpos hk => h k hpos (by omega)

theorem Heaped.congr {key' : Nat → κ} (h : Heaped key n) (same : ∀ k, k < n → key' k = key k) :
    Heaped key' n := by
  intro k hpos hk
  rw [same k hk, same _ (by omega)]
  exact h k hpos hk

theorem Heaped.around {key' : Nat → κ} (h : Heaped key n)
    (same : ∀ k, k < n → k ≠ i → key' k = key k) : HeapedAround key' i n := by
  constructor
  · intro k hpos hk hki hpi
    rw [same k hk hki, same _ (by omega) hpi]
    exact h k hpos hk
  · intro k hpos hk hp hi
    rw [same k hk (by omega), same _ (by omega) (by omega)]
    have hup := h i hi (by omega)
    have hlow := h k hpos hk
    rw [hp] at hlow
    exact le_trans hup hlow

theorem HeapedAround.heaped (h : HeapedAround key i n) (above : 0 < i → key ((i - 1) / 2) ≤ key i)
    (below : ∀ k, 0 < k → k < n → (k - 1) / 2 = i → key i ≤ key k) : Heaped key n := by
  intro k hpos hk
  by_cases hki : k = i
  · subst hki
    exact above hpos
  by_cases hpi : (k - 1) / 2 = i
  · rw [hpi]
    exact below k hpos hk hpi
  · exact h.off k hpos hk hki hpi

theorem HeapedAround.swap_child {c : Nat} (h : HeapedAround key i n) (hpos : 0 < c) (hc : c < n)
    (hp : (c - 1) / 2 = i) (least : ∀ k, 0 < k → k < n → (k - 1) / 2 = i → key c ≤ key k) :
    HeapedAround (fun k => key (Equiv.swap i c k)) c n := by
  constructor
  · intro k hk0 hk hkc hpc
    by_cases hki : k = i
    · subst hki
      rw [swap_apply_left, swap_apply_of_ne_of_ne (by omega) (by omega)]
      exact h.across c hpos hc hp hk0
    rw [swap_apply_of_ne_of_ne hki hkc]
    by_cases hpi : (k - 1) / 2 = i
    · rw [hpi, swap_apply_left]
      exact least k hk0 hk hpi
    · rw [swap_apply_of_ne_of_ne hpi hpc]
      exact h.off k hk0 hk hki hpi
  · intro k hk0 hk hpk _
    rw [hp, swap_apply_left, swap_apply_of_ne_of_ne (by omega) (by omega)]
    have hoff := h.off k hk0 hk (by omega) (by omega)
    rw [hpk] at hoff
    exact hoff

theorem HeapedAround.swap_parent (h : HeapedAround key i n) (hpos : 0 < i) (hi : i < n)
    (lt : key i < key ((i - 1) / 2)) :
    HeapedAround (fun k => key (Equiv.swap ((i - 1) / 2) i k)) ((i - 1) / 2) n ∧
      ∀ k, 0 < k → k < n → (k - 1) / 2 = (i - 1) / 2 →
        key (Equiv.swap ((i - 1) / 2) i ((i - 1) / 2)) ≤ key (Equiv.swap ((i - 1) / 2) i k) := by
  have sibling : ∀ k, 0 < k → k < n → k ≠ i → (k - 1) / 2 = (i - 1) / 2 → key ((i - 1) / 2) ≤ key k := by
    intro k hk0 hk hki hp
    have hoff := h.off k hk0 hk hki (by omega)
    rw [hp] at hoff
    exact hoff
  refine ⟨⟨?_, ?_⟩, ?_⟩
  · intro k hk0 hk hkp hpp
    by_cases hki : k = i
    · omega
    rw [swap_apply_of_ne_of_ne hkp hki]
    by_cases hpi : (k - 1) / 2 = i
    · rw [hpi, swap_apply_right]
      exact h.across k hk0 hk hpi hpos
    · rw [swap_apply_of_ne_of_ne hpp hpi]
      exact h.off k hk0 hk hki hpi
  · intro k hk0 hk hp hpp
    have hgra : key (((i - 1) / 2 - 1) / 2) ≤ key ((i - 1) / 2) :=
      h.off ((i - 1) / 2) hpp (by omega) (by omega) (by omega)
    rw [swap_apply_of_ne_of_ne (a := (i - 1) / 2) (b := i) (by omega) (by omega)]
    by_cases hki : k = i
    · rw [hki, swap_apply_right]
      exact hgra
    · rw [swap_apply_of_ne_of_ne (by omega) hki]
      exact le_trans hgra (sibling k hk0 hk hki hp)
  · intro k hk0 hk hp
    rw [swap_apply_left]
    by_cases hki : k = i
    · rw [hki, swap_apply_right]
      exact le_of_lt lt
    · rw [swap_apply_of_ne_of_ne (by omega) hki]
      exact le_trans (le_of_lt lt) (sibling k hk0 hk hki hp)

end

namespace HeapInterface

variable {σ ι κ : Type} [LinearOrder κ] {H : HeapInterface σ ι} {key : σ → Nat → κ} {i n : Nat}

section

variable (law : H.Lawful key)
include law

theorem Lawful.key_swap_eq {s : σ} {j : Nat} (hi : i < H.len s)
    (hj : j < H.len s) : key (H.swap s i j) = fun k => key s (Equiv.swap i j k) :=
  funext fun k => law.key_swap s i j k hi hj

theorem child_le {s : σ} (hn : n ≤ H.len s) (k : Nat)
    (hpos : 0 < k) (hk : k < n) (hp : (k - 1) / 2 = i) : key s (H.child s i n) ≤ key s k := by
  have hcas : k = 2 * i + 1 ∨ k = 2 * i + 2 := by omega
  unfold child
  split
  next hls =>
    have hlt := (law.less_iff s _ _ (by omega) (by omega)).mp hls.2
    rcases hcas with rfl | rfl
    · exact le_of_lt hlt
    · exact le_refl _
  next hls =>
    rcases hcas with rfl | rfl
    · exact le_refl _
    · refine le_of_not_gt fun hlt => hls ⟨hk, ?_⟩
      exact (law.less_iff s _ _ (by omega) (by omega)).mpr hlt

/-- `down` leaves a heap whose position is not above the children, or restores the order. -/
theorem down_heaped (n : Nat) (s : σ) (i : Nat) (hn : n ≤ H.len s) (h : HeapedAround (key s) i n) :
    (H.down s i n = (s, i) ∧ ∀ k, 0 < k → k < n → (k - 1) / 2 = i → key s i ≤ key s k) ∨
      (i < (H.down s i n).2 ∧ Heaped (key (H.down s i n).1) n) := by
  induction hm : n - i using Nat.strongRecOn generalizing s i with
  | ind m ih =>
    have hc := H.child_cases s i n
    have hlea := child_le law (s := s) (i := i) hn
    rw [down]
    split
    next hin =>
      generalize H.child s i n = c at hc hlea ⊢
      have hpar : (c - 1) / 2 = i := by omega
      split
      next hls =>
        have hlt := (law.less_iff s c i (by omega) (by omega)).mp hls
        have haro := h.swap_child (by omega) (by omega) hpar hlea
        have hkey := law.key_swap_eq (s := s) (i := i) (j := c) (by omega) (by omega)
        rw [← hkey] at haro
        refine .inr ?_
        rcases ih (n - c) (by omega) (H.swap s i c) c (by rw [law.len_swap]; exact hn) haro rfl with
          ⟨hdw, hbl⟩ | ⟨hmov, hhp⟩
        · rw [hdw]
          refine ⟨by dsimp only; omega, haro.heaped ?_ hbl⟩
          intro _
          rw [hkey, hpar]
          dsimp only
          rw [swap_apply_left, swap_apply_right]
          exact le_of_lt hlt
        · exact ⟨by omega, hhp⟩
      next hls =>
        refine .inl ⟨rfl, fun k hpos hk hp => ?_⟩
        have hle : key s i ≤ key s c := le_of_not_gt fun hlt =>
          hls ((law.less_iff s c i (by omega) (by omega)).mpr hlt)
        exact le_trans hle (hlea k hpos hk hp)
    next hin => exact .inl ⟨rfl, fun k hpos hk hp => by omega⟩

theorem up_heaped (n : Nat) (i : Nat) : ∀ s, n ≤ H.len s → i < n →
    HeapedAround (key s) i n → (∀ k, 0 < k → k < n → (k - 1) / 2 = i → key s i ≤ key s k) →
    Heaped (key (H.up s i)) n := by
  induction i using Nat.strongRecOn with
  | ind i ih =>
    intro s hn hi h below
    rw [up]
    split
    next hrt => exact h.heaped (fun hpos => by omega) below
    rename_i hrt
    split
    next hls =>
      have hlt := (law.less_iff s _ _ (by omega) (by omega)).mp hls
      obtain ⟨haro, hbl⟩ := h.swap_parent (by omega) hi hlt
      have hkey := law.key_swap_eq (s := s) (i := (i - 1) / 2) (j := i) (by omega) (by omega)
      rw [← hkey] at haro
      refine ih _ (by omega) _ (by rw [law.len_swap]; exact hn) (by omega) haro ?_
      intro k hpos hk hp
      rw [hkey]
      exact hbl k hpos hk hp
    next hls =>
      refine h.heaped (fun _ => le_of_not_gt fun hlt => hls ?_) below
      exact (law.less_iff s _ _ (by omega) (by omega)).mpr hlt

theorem settle_heaped {s : σ} (hn : n ≤ H.len s)
    (hi : i < n) (h : HeapedAround (key s) i n) : Heaped (key (H.settle s i n)) n := by
  unfold settle
  rcases down_heaped law n s i hn h with ⟨hdw, below⟩ | ⟨hmov, hhp⟩
  · rw [hdw, if_neg (by dsimp only; omega)]
    exact up_heaped law n i s hn hi h below
  · rw [if_pos hmov]
    exact hhp

theorem down_root_heaped {s : σ} (hn : n ≤ H.len s)
    (h : HeapedAround (key s) 0 n) : Heaped (key (H.down s 0 n).1) n := by
  rcases down_heaped law n s 0 hn h with ⟨hdw, below⟩ | ⟨_, hhp⟩
  · rw [hdw]
    exact h.heaped (fun hpos => by omega) below
  · exact hhp

end

end HeapInterface

end Tlrpc
