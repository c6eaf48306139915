import Mathlib.Data.List.AList

namespace Tlrpc

open List Option AList

/-- A map from keys to lists. A key without an entry has the empty list. -/
abbrev Buckets (K V : Type) := AList (fun _ : K => List V)

abbrev NestedBuckets (U K V : Type) := AList (fun _ : U => Buckets K V)

namespace Buckets

variable {K V : Type} [DecidableEq K]

def bucket (m : Buckets K V) (k : K) : List V := (m.lookup k).getD []

def store (m : Buckets K V) (k : K) (l : List V) : Buckets K V :=
  if l.isEmpty then m.erase k else m.insert k l

def add (m : Buckets K V) (k : K) (v : V) : Buckets K V := m.insert k (bucket m k ++ [v])

def discard [DecidableEq V] (m : Buckets K V) (k : K) (v : V) : Buckets K V :=
  store m k ((bucket m k).erase v)

def NoneEmpty (m : Buckets K V) : Prop := ∀ k l, m.lookup k = some l → l ≠ []

section

variable (m : Buckets K V) (k : K)

theorem bucket_insert (l : List V) (k' : K) :
    bucket (m.insert k l) k' = if k' = k then l else bucket m k' := by
  unfold bucket
  split
  next h => rw [h, lookup_insert, getD_some]
  next h => rw [lookup_insert_ne h]

theorem bucket_store (l : List V) (k' : K) :
    bucket (store m k l) k' = if k' = k then l else bucket m k' := by
  unfold store
  split
  next hemp =>
    unfold bucket
    split
    next h => rw [h, lookup_erase, isEmpty_iff.mp hemp, getD_none]
    next h => rw [lookup_erase_ne h]
  · exact bucket_insert m k l k'

theorem bucket_add (v : V) (k' : K) :
    bucket (add m k v) k' = if k' = k then bucket m k ++ [v] else bucket m k' :=
  bucket_insert m k _ k'

theorem bucket_discard [DecidableEq V] (v : V) (k' : K) :
    bucket (discard m k v) k' = if k' = k then (bucket m k).erase v else bucket m k' :=
  bucket_store m k _ k'

end

theorem noneEmpty_empty : NoneEmpty (∅ : Buckets K V) := nofun

variable {m : Buckets K V}

theorem NoneEmpty.insert (h : NoneEmpty m) {k : K} {l : List V} (hl : l ≠ []) :
    NoneEmpty (m.insert k l) := by
  intro k' l' hlk
  by_cases heq : k' = k
  · rw [heq, lookup_insert] at hlk
    cases hlk
    exact hl
  · rw [lookup_insert_ne heq] at hlk
    exact h k' l' hlk

theorem NoneEmpty.store (h : NoneEmpty m) (k : K) (l : List V) : NoneEmpty (store m k l) := by
  unfold Buckets.store
  split
  · intro k' l' hlk
    by_cases heq : k' = k
    · rw [heq, lookup_erase] at hlk
      cases hlk
    · rw [lookup_erase_ne heq] at hlk
      exact h k' l' hlk
  next hl => exact h.insert (fun hnil => hl (by rw [hnil]; rfl))

theorem NoneEmpty.add (h : NoneEmpty m) (k : K) (v : V) : NoneEmpty (add m k v) :=
  h.insert (append_ne_nil_of_right_ne_nil _ (cons_ne_nil v []))

theorem NoneEmpty.exists_bucket (h : NoneEmpty m) (hm : m.entries ≠ []) : ∃ k, bucket m k ≠ [] := by
  obtain ⟨⟨k, l⟩, hmem⟩ := exists_mem_of_ne_nil _ hm
  have hlk : m.lookup k = some l := mem_lookup_iff.mpr hmem
  refine ⟨k, ?_⟩
  unfold bucket
  rw [hlk]
  exact h k l hlk

theorem bucket_of_mem_entries {entry : Sigma fun _ : K => List V}
    (h : entry ∈ m.entries) : bucket m entry.1 = entry.2 := by
  have hlk : m.lookup entry.1 = some entry.2 := mem_lookup_iff.mpr h
  unfold bucket
  rw [hlk, getD_some]

theorem mem_flatMap_entries {p : K → Bool} {v : V} :
    v ∈ (m.entries.filter fun entry => p entry.1).flatMap (·.2) ↔ ∃ k, p k = true ∧ v ∈ bucket m k := by
  rw [mem_flatMap]
  constructor
  · rintro ⟨entry, hent, hv⟩
    obtain ⟨hmem, hp⟩ := mem_filter.mp hent
    rw [← bucket_of_mem_entries hmem] at hv
    exact ⟨entry.1, hp, hv⟩
  · rintro ⟨k, hp, hv⟩
    cases hlk : m.lookup k with
    | none =>
      unfold bucket at hv
      rw [hlk] at hv
      cases hv
    | some l =>
      unfold bucket at hv
      rw [hlk] at hv
      exact ⟨⟨k, l⟩, mem_filter.mpr ⟨mem_lookup_iff.mp hlk, hp⟩, hv⟩

theorem nodup_flatMap_entries (hnd : ∀ k, (bucket m k).Nodup)
    (hone : ∀ k k' v, v ∈ bucket m k → v ∈ bucket m k' → k = k') (p : K → Bool) :
    ((m.entries.filter fun entry => p entry.1).flatMap (·.2)).Nodup := by
  have hks : (m.entries.filter fun entry => p entry.1).Pairwise (fun a b => a.1 ≠ b.1) :=
    (nodupKeys_iff_pairwise.mp m.nodupKeys).filter _
  refine nodup_flatMap.mpr ⟨?_, ?_⟩
  · intro entry hent
    rw [← bucket_of_mem_entries (mem_filter.mp hent).1]
    exact hnd entry.1
  · refine hks.imp_of_mem fun {a b} ha hb hne => ?_
    intro v hva hvb
    have hin : v ∈ bucket m a.1 := by
      rw [bucket_of_mem_entries (mem_filter.mp ha).1]
      exact hva
    have hin' : v ∈ bucket m b.1 := by
      rw [bucket_of_mem_entries (mem_filter.mp hb).1]
      exact hvb
    exact hne (hone a.1 b.1 v hin hin')

end Buckets

namespace NestedBuckets

variable {U K V : Type} [DecidableEq U]

def inner (m : NestedBuckets U K V) (u : U) : Buckets K V := (m.lookup u).getD ∅

theorem inner_insert (m : NestedBuckets U K V) (u : U) (b : Buckets K V) (u' : U) :
    inner (m.insert u b) u' = if u' = u then b else inner m u' := by
  unfold inner
  split
  next h => rw [h, lookup_insert, getD_some]
  next h => rw [lookup_insert_ne h]

variable [DecidableEq K]

def bucket (m : NestedBuckets U K V) (u : U) (k : K) : List V := Buckets.bucket (inner m u) k

def add (m : NestedBuckets U K V) (u : U) (k : K) (v : V) : NestedBuckets U K V :=
  m.insert u (Buckets.add (inner m u) k v)

def discard [DecidableEq V] (m : NestedBuckets U K V) (u : U) (k : K) (v : V) :
    NestedBuckets U K V :=
  let rest := Buckets.discard (inner m u) k v
  if rest.entries.isEmpty then m.erase u else m.insert u rest

def NoneEmpty (m : NestedBuckets U K V) : Prop :=
  ∀ u b, m.lookup u = some b → b.entries ≠ [] ∧ Buckets.NoneEmpty b

section

variable (m : NestedBuckets U K V) (u : U) (k : K) (v : V) (u' : U)

theorem inner_discard [DecidableEq V] : inner (discard m u k v) u' =
      if u' = u then Buckets.discard (inner m u) k v else inner m u' := by
  unfold discard
  dsimp only
  split
  next hemp =>
    unfold inner
    split
    next h =>
      rw [h, lookup_erase, getD_none]
      exact (ext (isEmpty_iff.mp hemp)).symm
    next h => rw [lookup_erase_ne h]
  · exact inner_insert m u _ u'

theorem bucket_add (k' : K) : bucket (add m u k v) u' k' =
      if u' = u ∧ k' = k then bucket m u k ++ [v] else bucket m u' k' := by
  unfold bucket add
  rw [inner_insert]
  by_cases hu : u' = u
  · rw [if_pos hu, Buckets.bucket_add]
    simp only [hu, true_and]
  · rw [if_neg hu, if_neg (fun h => hu h.1)]

theorem bucket_discard [DecidableEq V] (k' : K) : bucket (discard m u k v) u' k' =
      if u' = u ∧ k' = k then (bucket m u k).erase v else bucket m u' k' := by
  unfold bucket
  rw [inner_discard]
  by_cases hu : u' = u
  · rw [if_pos hu, Buckets.bucket_discard]
    simp only [hu, true_and]
  · rw [if_neg hu, if_neg (fun h => hu h.1)]

end

variable {m : NestedBuckets U K V}

theorem NoneEmpty.inner (h : NoneEmpty m) (u : U) : Buckets.NoneEmpty (inner m u) := by
  unfold NestedBuckets.inner
  cases hlk : m.lookup u with
  | none => exact Buckets.noneEmpty_empty
  | some b => exact (h u b hlk).2

theorem NoneEmpty.insert (h : NoneEmpty m) {u : U} {b : Buckets K V}
    (hb : b.entries ≠ []) (hno : Buckets.NoneEmpty b) : NoneEmpty (m.insert u b) := by
  intro u' b' hlk
  by_cases heq : u' = u
  · rw [heq, lookup_insert] at hlk
    cases hlk
    exact ⟨hb, hno⟩
  · rw [lookup_insert_ne heq] at hlk
    exact h u' b' hlk

theorem NoneEmpty.add (h : NoneEmpty m) (u : U) (k : K) (v : V) : NoneEmpty (add m u k v) :=
  h.insert (cons_ne_nil _ _) ((h.inner u).add k v)

theorem NoneEmpty.discard [DecidableEq V] (h : NoneEmpty m) (u : U)
    (k : K) (v : V) : NoneEmpty (discard m u k v) := by
  unfold NestedBuckets.discard
  dsimp only
  split
  · intro u' b hlk
    by_cases heq : u' = u
    · rw [heq, lookup_erase] at hlk
      cases hlk
    · rw [lookup_erase_ne heq] at hlk
      exact h u' b hlk
  next hrs =>
    exact h.insert (fun hnil => hrs (by rw [hnil]; rfl)) ((h.inner u).store k _)

/-- The buckets list what is related to their keys, once, and none is empty. -/
structure Lists (m : NestedBuckets U K V) (related : U → K → V → Prop) : Prop where
  noneEmpty : NoneEmpty m
  nodup : ∀ u k, (bucket m u k).Nodup
  exact : ∀ u k v, v ∈ bucket m u k ↔ related u k v

theorem lists_empty : Lists (∅ : NestedBuckets U K V) (fun _ _ _ => False) :=
  ⟨nofun, fun _ _ => nodup_nil, fun _ _ _ => mem_nil_iff _⟩

theorem Lists.congr {p q : U → K → V → Prop} (h : Lists m p)
    (hpq : ∀ u k v, p u k v ↔ q u k v) : Lists m q :=
  ⟨h.noneEmpty, h.nodup, fun u k v => (h.exact u k v).trans (hpq u k v)⟩

variable {p : U → K → V → Prop}

theorem Lists.add (h : Lists m p) {u : U} {k : K} {v : V} (hnew : ¬p u k v) :
    Lists (add m u k v) (fun u' k' v' => p u' k' v' ∨ ((u' = u ∧ k' = k) ∧ v' = v)) := by
  have hnot : v ∉ bucket m u k := fun hmem => hnew ((h.exact u k v).mp hmem)
  refine ⟨h.noneEmpty.add u k v, fun u' k' => ?_, fun u' k' v' => ?_⟩
  · rw [bucket_add]
    split
    · have hdis : (bucket m u k).Disjoint [v] := disjoint_singleton.mpr hnot
      exact (h.nodup u k).append (nodup_singleton v) hdis
    · exact h.nodup u' k'
  · rw [bucket_add]
    split
    next heq =>
      obtain ⟨rfl, rfl⟩ := heq
      rw [mem_append, mem_singleton, h.exact]
      simp only [true_and]
    next hne =>
      rw [h.exact]
      exact ⟨.inl, fun hor => hor.resolve_right (fun hv => hne hv.1)⟩

theorem Lists.discard [DecidableEq V] (h : Lists m p) (u : U) (k : K) (v : V) :
    Lists (discard m u k v) (fun u' k' v' => p u' k' v' ∧ ¬((u' = u ∧ k' = k) ∧ v' = v)) := by
  refine ⟨h.noneEmpty.discard u k v, fun u' k' => ?_, fun u' k' v' => ?_⟩
  · rw [bucket_discard]
    split
    · exact (h.nodup u k).erase v
    · exact h.nodup u' k'
  · rw [bucket_discard]
    split
    next heq =>
      obtain ⟨rfl, rfl⟩ := heq
      rw [(h.nodup u' k').mem_erase_iff, h.exact, and_comm]
      simp only [true_and]
    next hne =>
      rw [h.exact]
      exact ⟨fun hp => ⟨hp, fun hv => hne hv.1⟩, And.left⟩

theorem Lists.mem_iff (h : Lists m p) {u : U} : u ∈ m ↔ ∃ k v, p u k v := by
  constructor
  · intro hu
    obtain ⟨b, hb⟩ := isSome_iff_exists.mp (lookup_isSome.mpr hu)
    obtain ⟨hent, hno⟩ := h.noneEmpty u b hb
    obtain ⟨k, hk⟩ := hno.exists_bucket hent
    obtain ⟨v, hv⟩ := exists_mem_of_ne_nil _ hk
    have hinn : inner m u = b := by
      unfold inner
      rw [hb, getD_some]
    exact ⟨k, v, (h.exact u k v).mp (by unfold bucket; rw [hinn]; exact hv)⟩
  · rintro ⟨k, v, hp⟩
    by_contra hu
    have hmem := (h.exact u k v).mpr hp
    unfold bucket inner at hmem
    rw [lookup_eq_none.mpr hu] at hmem
    cases hmem

theorem NoneEmpty.inner_entries (h : NoneEmpty m) {u : U} :
    (NestedBuckets.inner m u).entries ≠ [] ↔ u ∈ m := by
  unfold NestedBuckets.inner
  cases hlk : m.lookup u with
  | none => exact ⟨fun hne => absurd rfl hne, fun hu => absurd hu (lookup_eq_none.mp hlk)⟩
  | some b =>
    exact ⟨fun _ => lookup_isSome.mp (by rw [hlk]; rfl), fun _ => (h u b hlk).1⟩

end NestedBuckets

end Tlrpc
