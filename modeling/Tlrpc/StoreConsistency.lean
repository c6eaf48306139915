import Mathlib.Data.Prod.Lex
import Tlrpc.ReliabilityStore

namespace Tlrpc

open List Function StoreEntry Equiv HeapInterface Option

def StoreEntry.unindexed (e : StoreEntry) : StoreEntry := { e with index := 0 }

variable {a b : StoreEntry}

theorem StoreEntry.message_eq (h : a.unindexed = b.unindexed) : a.message = b.message := (mk.inj h).1

def StoreEntry.rank (e : StoreEntry) : Int ×ₗ Nat := toLex (e.expiresAt, e.order.toNat)

theorem StoreEntry.less_iff (a b : StoreEntry) : a.less b = true ↔ a.rank < b.rank := by
  unfold less rank
  rw [Prod.Lex.toLex_lt_toLex]
  split
  next h =>
    rw [decide_eq_true_iff, UInt64.lt_iff_toNat_lt]
    refine ⟨fun hlt => .inr ⟨h, hlt⟩, ?_⟩
    rintro (hlt | ⟨_, hlt⟩)
    · rw [h] at hlt
      exact absurd hlt (lt_irrefl _)
    · exact hlt
  next h =>
    rw [decide_eq_true_iff]
    refine ⟨fun hlt => .inl hlt, ?_⟩
    rintro (hlt | ⟨heq, _⟩)
    · exact hlt
    · exact absurd heq h

theorem StoreEntry.rank_eq (h : a.unindexed = b.unindexed) : a.rank = b.rank := by
  obtain ⟨_, hexp, hord, _⟩ := mk.inj h
  unfold rank
  rw [hexp, hord]

namespace ReliabilityStore

structure Reheaped (s t : ReliabilityStore) : Prop where
  capacity : t.capacity = s.capacity
  ttl : t.ttl = s.ttl
  order : t.order = s.order
  allocated : t.allocated = s.allocated
  entries : t.entries = s.entries
  memory : ∀ r, (t.memory r).unindexed = (s.memory r).unindexed
  perm : t.expiry.Perm s.expiry

theorem Reheaped.refl (s : ReliabilityStore) : Reheaped s s :=
  ⟨rfl, rfl, rfl, rfl, rfl, fun _ => rfl, .refl _⟩

variable {s : ReliabilityStore} {r : EntryRef} {i j : Nat}

theorem Reheaped.trans {t u : ReliabilityStore} (h : Reheaped s t) (h' : Reheaped t u) : Reheaped s u where
  capacity := h'.capacity.trans h.capacity
  ttl := h'.ttl.trans h.ttl
  order := h'.order.trans h.order
  allocated := h'.allocated.trans h.allocated
  entries := h'.entries.trans h.entries
  memory r := (h'.memory r).trans (h.memory r)
  perm := h'.perm.trans h.perm

def Indexed (s : ReliabilityStore) : Prop :=
  ∀ (k : Nat) (r : EntryRef), s.expiry[k]? = some r → (s.memory r).index = k

def rankAt (s : ReliabilityStore) (k : Nat) : Int ×ₗ Nat := (s.memory (s.expiry.getD k 0)).rank

theorem rankAt_eq {k : Nat} (h : s.expiry[k]? = some r) : s.rankAt k = (s.memory r).rank := by
  unfold rankAt
  rw [getD_eq_getElem?_getD, h, getD_some]

theorem setIndex_unindexed (s : ReliabilityStore) (r r' : EntryRef) (index : Int) :
    ((s.setIndex r index).memory r').unindexed = (s.memory r').unindexed := by
  unfold setIndex
  by_cases h : r' = r
  · subst h
    simp only [update_self]
    rfl
  · simp only [update_of_ne h]

theorem setIndex_index_self (s : ReliabilityStore) (r : EntryRef) (index : Int) :
    ((s.setIndex r index).memory r).index = index := by
  simp only [setIndex, update_self]

theorem setIndex_index_of_ne (s : ReliabilityStore) {r' : EntryRef} (index : Int) (h : r' ≠ r) :
    ((s.setIndex r index).memory r').index = (s.memory r').index := by
  simp only [setIndex, update_of_ne h]

theorem swap_of_lt {a b : EntryRef} (ha : s.expiry[i]? = some a)
    (hb : s.expiry[j]? = some b) : expiryHeap.swap s i j =
      ({ s with expiry := (s.expiry.set i b).set j a }.setIndex b i).setIndex a j := by
  dsimp only [expiryHeap]
  rw [ha, hb]

theorem swap_reheaped (s : ReliabilityStore) (i j : Nat) : Reheaped s (expiryHeap.swap s i j) := by
  dsimp only [expiryHeap]
  split
  next a b ha hb =>
    refine ⟨rfl, rfl, rfl, rfl, rfl, fun r => ?_, ?_⟩
    · rw [setIndex_unindexed, setIndex_unindexed]
    · obtain ⟨hi, rfl⟩ := List.getElem?_eq_some_iff.mp ha
      obtain ⟨hj, rfl⟩ := List.getElem?_eq_some_iff.mp hb
      exact set_set_perm hi hj
  · exact .refl s

theorem swap_getElem? (hi : i < s.expiry.length) (hj : j < s.expiry.length) (k : Nat) :
    (expiryHeap.swap s i j).expiry[k]? = s.expiry[Equiv.swap i j k]? := by
  rw [swap_of_lt (getElem?_eq_getElem hi) (getElem?_eq_getElem hj)]
  show ((s.expiry.set i s.expiry[j]).set j s.expiry[i])[k]? = _
  by_cases hkj : k = j
  · subst hkj
    rw [swap_apply_right, getElem?_set_self (by rw [length_set]; exact hj), getElem?_eq_getElem hi]
  rw [getElem?_set_ne (Ne.symm hkj)]
  by_cases hki : k = i
  · subst hki
    rw [swap_apply_left, getElem?_set_self hi, getElem?_eq_getElem hj]
  · rw [getElem?_set_ne (Ne.symm hki), swap_apply_of_ne_of_ne hki hkj]

theorem swap_indexed (h : s.Indexed) (hi : i < s.expiry.length)
    (hj : j < s.expiry.length) : (expiryHeap.swap s i j).Indexed := by
  intro k r hk
  rw [swap_getElem? hi hj] at hk
  have ha := getElem?_eq_getElem hi
  have hb := getElem?_eq_getElem hj
  have hia := h i _ ha
  have hjb := h j _ hb
  rw [swap_of_lt ha hb]
  by_cases hkj : k = j
  · subst hkj
    rw [swap_apply_right, ha] at hk
    obtain rfl := some.inj hk
    rw [setIndex_index_self]
  by_cases hki : k = i
  · subst hki
    rw [swap_apply_left, hb] at hk
    obtain rfl := some.inj hk
    have hne : s.expiry[j] ≠ s.expiry[k] := by
      intro heq
      rw [heq] at hjb
      omega
    rw [setIndex_index_of_ne _ _ hne, setIndex_index_self]
  · rw [swap_apply_of_ne_of_ne hki hkj] at hk
    have hr := h k r hk
    have hra : r ≠ s.expiry[i] := by
      rintro rfl
      omega
    have hrb : r ≠ s.expiry[j] := by
      rintro rfl
      omega
    rw [setIndex_index_of_ne _ _ hra, setIndex_index_of_ne _ _ hrb]
    exact hr

theorem expiryHeap_lawful : expiryHeap.Lawful rankAt where
  less_iff s i j hi hj := by
    have ha := getElem?_eq_getElem hi
    have hb := getElem?_eq_getElem hj
    have hls : expiryHeap.less s i j = (s.memory s.expiry[i]).less (s.memory s.expiry[j]) := by
      dsimp only [expiryHeap]
      rw [ha, hb]
    rw [hls, less_iff, rankAt_eq ha, rankAt_eq hb]
  len_swap := swap_length
  key_swap s i j k hi hj := by
    have hget : (expiryHeap.swap s i j).expiry.getD k 0 = s.expiry.getD (swap i j k) 0 := by
      rw [getD_eq_getElem?_getD, getD_eq_getElem?_getD, swap_getElem? hi hj]
    unfold rankAt
    rw [hget]
    exact rank_eq ((swap_reheaped s i j).memory _)

section

variable {s : ReliabilityStore} {n i : Nat}

theorem swap_keeps (s : ReliabilityStore) (hn : n ≤ s.expiry.length) (t : ReliabilityStore)
    (i j : Nat) (hi : i < n) (hj : j < n) (h : Reheaped s t ∧ t.Indexed) :
    Reheaped s (expiryHeap.swap t i j) ∧ (expiryHeap.swap t i j).Indexed := by
  have hlen := h.1.perm.length_eq
  exact ⟨h.1.trans (swap_reheaped t i j), swap_indexed h.2 (by omega) (by omega)⟩

theorem settle_reheaped (h : s.Indexed) (hn : n ≤ s.expiry.length) (hi : i < n) :
    Reheaped s (expiryHeap.settle s i n) ∧ (expiryHeap.settle s i n).Indexed :=
  settle_keeps (fun t => Reheaped s t ∧ t.Indexed) (swap_keeps s hn) s i hi ⟨.refl s, h⟩

theorem up_reheaped (h : s.Indexed) (hi : i < s.expiry.length) :
    Reheaped s (expiryHeap.up s i) ∧ (expiryHeap.up s i).Indexed :=
  up_keeps (fun t => Reheaped s t ∧ t.Indexed) (swap_keeps s (le_refl _)) i s hi
    ⟨.refl s, h⟩

theorem down_reheaped (h : s.Indexed) (hn : n ≤ s.expiry.length) :
    Reheaped s (expiryHeap.down s i n).1 ∧ (expiryHeap.down s i n).1.Indexed :=
  down_keeps (fun t => Reheaped s t ∧ t.Indexed) (swap_keeps s hn) s i ⟨.refl s, h⟩

theorem swap_keeps_at {r : EntryRef} (t : ReliabilityStore) (i j : Nat) (hi : i < n) (hj : j < n)
    (h : t.expiry[n]? = some r) : (expiryHeap.swap t i j).expiry[n]? = some r := by
  have hn : n < t.expiry.length := (List.getElem?_eq_some_iff.mp h).1
  rw [swap_getElem? (by omega) (by omega), swap_apply_of_ne_of_ne (by omega) (by omega)]
  exact h

end

structure Dropped (s : ReliabilityStore) (r : EntryRef) (t : ReliabilityStore) : Prop where
  capacity : t.capacity = s.capacity
  ttl : t.ttl = s.ttl
  order : t.order = s.order
  allocated : t.allocated = s.allocated
  entries : t.entries = s.entries
  memory : ∀ r', (t.memory r').unindexed = (s.memory r').unindexed
  perm : s.expiry.Perm (r :: t.expiry)
  indexed : t.Indexed
  heaped : Heaped t.rankAt t.expiry.length

theorem pop_dropped {t : ReliabilityStore} {n : Nat} (h : Reheaped s t)
    (indexed : t.Indexed) (hlen : t.expiry.length = n + 1) (hr : t.expiry[n]? = some r)
    (heaped : Heaped t.rankAt n) : ∃ u, expiryHeap.pop t = (some r, u) ∧ Dropped s r u := by
  have hla : t.expiry.getLast? = some r := by
    rw [getLast?_eq_getElem?, hlen]
    exact hr
  refine ⟨{ t.setIndex r (-1) with expiry := t.expiry.dropLast }, ?_, ?_⟩
  · dsimp only [expiryHeap]
    rw [hla]
  · have hget : ∀ k < n, t.expiry.dropLast[k]? = t.expiry[k]? := by
      intro k hk
      rw [getElem?_dropLast, if_pos (by omega)]
    have hsm : ∀ r', ((t.setIndex r (-1)).memory r').unindexed = (t.memory r').unindexed :=
      fun r' => setIndex_unindexed t r r' (-1)
    refine ⟨h.capacity, h.ttl, h.order, h.allocated, h.entries, ?_, ?_, ?_, ?_⟩
    · exact fun r' => (hsm r').trans (h.memory r')
    · have hspl := dropLast_append_getLast? r hla
      have hpr : t.expiry.Perm (r :: t.expiry.dropLast) := by
        conv_lhs => rw [← hspl]
        exact perm_append_singleton r _
      exact h.perm.symm.trans hpr
    · intro k r' hk
      have hkn : k < t.expiry.dropLast.length := (List.getElem?_eq_some_iff.mp hk).1
      rw [length_dropLast] at hkn
      rw [hget k (by omega)] at hk
      have hne : r' ≠ r := by
        rintro rfl
        have hkr := indexed k r' hk
        have hnr := indexed n r' hr
        omega
      rw [setIndex_index_of_ne _ _ hne]
      exact indexed k r' hk
    · have hln : t.expiry.dropLast.length = n := by
        rw [length_dropLast]
        omega
      rw [hln]
      refine heaped.congr fun k hk => ?_
      unfold rankAt
      rw [getD_eq_getElem?_getD, getD_eq_getElem?_getD]
      rw [hget k hk]
      exact rank_eq (hsm _)

section

variable {s : ReliabilityStore} {r : EntryRef} {i : Nat}

theorem swap_last_around (heaped : Heaped s.rankAt s.expiry.length) (hi : i < s.expiry.length) :
    HeapedAround (expiryHeap.swap s i (s.expiry.length - 1)).rankAt i (s.expiry.length - 1) := by
  refine (heaped.mono (Nat.sub_le _ 1)).around fun k hk hki => ?_
  have hla : s.expiry.length - 1 < s.expiry.length := by omega
  rw [expiryHeap_lawful.key_swap s i _ k hi hla, swap_apply_of_ne_of_ne hki (by omega)]

theorem swap_last_at (hr : s.expiry[i]? = some r) :
    (expiryHeap.swap s i (s.expiry.length - 1)).expiry[s.expiry.length - 1]? = some r := by
  have hi : i < s.expiry.length := (List.getElem?_eq_some_iff.mp hr).1
  rw [swap_getElem? hi (by omega), swap_apply_right]
  exact hr

theorem heapPop_dropped (indexed : s.Indexed) (heaped : Heaped s.rankAt s.expiry.length)
    (hr : s.expiry[0]? = some r) : ∃ t, expiryHeap.heapPop s = (some r, t) ∧ Dropped s r t := by
  have hpos : 0 < s.expiry.length := (List.getElem?_eq_some_iff.mp hr).1
  have hsw := swap_reheaped s 0 (s.expiry.length - 1)
  have hlen := hsw.perm.length_eq
  have hat := swap_last_at hr
  have haro := swap_last_around heaped hpos
  have hidx := swap_indexed indexed hpos (j := s.expiry.length - 1) (by omega)
  show ∃ t, expiryHeap.pop (expiryHeap.down (expiryHeap.swap s 0 (s.expiry.length - 1)) 0
    (s.expiry.length - 1)).1 = (some r, t) ∧ Dropped s r t
  generalize expiryHeap.swap s 0 (s.expiry.length - 1) = m at hsw hlen hat haro hidx ⊢
  obtain ⟨hdw, hdx⟩ := down_reheaped (i := 0) hidx (n := s.expiry.length - 1) (by omega)
  refine pop_dropped (hsw.trans hdw) hdx (n := s.expiry.length - 1) ?_ ?_ ?_
  · rw [hdw.perm.length_eq]
    omega
  · exact down_keeps (fun t : ReliabilityStore => t.expiry[s.expiry.length - 1]? = some r)
      swap_keeps_at m 0 hat
  · exact down_root_heaped expiryHeap_lawful (by show _ ≤ m.expiry.length; omega) haro

theorem heapRemove_dropped (indexed : s.Indexed) (heaped : Heaped s.rankAt s.expiry.length)
    (hr : s.expiry[i]? = some r) : ∃ t, expiryHeap.heapRemove s i = (some r, t) ∧ Dropped s r t := by
  have hi : i < s.expiry.length := (List.getElem?_eq_some_iff.mp hr).1
  show ∃ t, (if s.expiry.length - 1 ≠ i then _ else _) = (some r, t) ∧ Dropped s r t
  by_cases hla : s.expiry.length - 1 = i
  · rw [if_neg (not_not_intro hla)]
    exact pop_dropped (.refl s) indexed (n := i) (by omega) hr (heaped.mono (by omega))
  rw [if_pos hla]
  have hsw := swap_reheaped s i (s.expiry.length - 1)
  have hlen := hsw.perm.length_eq
  have hat := swap_last_at hr
  have haro := swap_last_around heaped hi
  have hidx := swap_indexed indexed hi (j := s.expiry.length - 1) (by omega)
  show ∃ t, expiryHeap.pop (expiryHeap.settle (expiryHeap.swap s i (s.expiry.length - 1)) i
    (s.expiry.length - 1)) = (some r, t) ∧ Dropped s r t
  generalize expiryHeap.swap s i (s.expiry.length - 1) = m at hsw hlen hat haro hidx ⊢
  obtain ⟨hset, hsd⟩ :=
    settle_reheaped (i := i) hidx (n := s.expiry.length - 1) (by omega) (by omega)
  refine pop_dropped (hsw.trans hset) hsd (n := s.expiry.length - 1) ?_ ?_ ?_
  · rw [hset.perm.length_eq]
    omega
  · exact settle_keeps
      (fun t : ReliabilityStore => t.expiry[s.expiry.length - 1]? = some r) swap_keeps_at m i
      (by omega) hat
  · exact settle_heaped expiryHeap_lawful (by show _ ≤ m.expiry.length; omega)
      (by omega) haro

theorem push_indexed (indexed : s.Indexed) (fresh : r ∉ s.expiry) : (expiryHeap.push s r).Indexed := by
  intro k r' hk
  have hk' : (s.expiry ++ [r])[k]? = some r' := hk
  show ((s.setIndex r s.expiry.length).memory r').index = k
  by_cases hlt : k < s.expiry.length
  · rw [getElem?_append_left hlt] at hk'
    have hne : r' ≠ r := fun heq => fresh (heq ▸ mem_of_getElem? hk')
    rw [setIndex_index_of_ne _ _ hne]
    exact indexed k r' hk'
  have hkl : k = s.expiry.length := by
    have := (List.getElem?_eq_some_iff.mp hk').1
    rw [length_append, length_singleton] at this
    omega
  subst hkl
  rw [getElem?_concat_length] at hk'
  obtain rfl := some.inj hk'
  rw [setIndex_index_self]

theorem push_around (heaped : Heaped s.rankAt s.expiry.length) :
    HeapedAround (expiryHeap.push s r).rankAt s.expiry.length (s.expiry.length + 1) := by
  have hget : ∀ k < s.expiry.length, (expiryHeap.push s r).rankAt k = s.rankAt k := by
    intro k hk
    unfold rankAt
    have hps : (expiryHeap.push s r).expiry.getD k 0 = s.expiry.getD k 0 := by
      rw [getD_eq_getElem?_getD, getD_eq_getElem?_getD]
      show (s.expiry ++ [r])[k]?.getD 0 = _
      rw [getElem?_append_left hk]
    rw [hps]
    exact rank_eq (setIndex_unindexed s r _ _)
  constructor
  · intro k hpos hk hkl _
    rw [hget k (by omega), hget _ (by omega)]
    exact heaped k hpos (by omega)
  · intro k hpos hk hp _
    omega

end

end ReliabilityStore

end Tlrpc
