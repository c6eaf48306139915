import Mathlib.Data.List.Nodup
import Mathlib.Data.List.Infix

namespace Tlrpc

open List

structure NumberedContract (σ : Type) where
  name : String
  signature : σ
  variant : Int

section

variable {σ : Type} [DecidableEq σ]

def NumberedContract.find (all : List (NumberedContract σ)) (name : String) (signature : σ) :
    Option (NumberedContract σ) :=
  all.find? fun entry => entry.name = name && entry.signature = signature

/-- The first signature of a name is zero, every later one the layer that brought it. -/
def contractVariantLayer (all : List (NumberedContract σ)) (name : String) (signature : σ) (layer : Int) :
    List (NumberedContract σ) × Int :=
  match NumberedContract.find all name signature with
  | some entry => (all, entry.variant)
  | none =>
    let variant := if all.any (·.name = name) then layer else 0
    (all ++ [⟨name, signature, variant⟩], variant)

def contractVariantLayers (layer : Int) : List (NumberedContract σ) → List (String × σ) →
    List (NumberedContract σ) × List Int
  | all, [] => (all, [])
  | all, (name, signature) :: rest =>
    let first := contractVariantLayer all name signature layer
    let later := contractVariantLayers layer first.1 rest
    (later.1, first.2 :: later.2)

def variantOf (all : List (NumberedContract σ)) (name : String) (signature : σ) : Int :=
  ((NumberedContract.find all name signature).map (·.variant)).getD 0

end

structure Numbering {σ : Type} (all : List (NumberedContract σ)) : Prop where
  functional : ∀ a ∈ all, ∀ b ∈ all, a.name = b.name → a.signature = b.signature →
    a.variant = b.variant
  injective : ∀ a ∈ all, ∀ b ∈ all, a.name = b.name → a.variant = b.variant →
    a.signature = b.signature

def Known {σ : Type} (all : List (NumberedContract σ)) (name : String) (signature : σ) : Prop :=
  ∃ entry ∈ all, entry.name = name ∧ entry.signature = signature

section

variable {σ : Type} [DecidableEq σ] {all next : List (NumberedContract σ)} {name : String} {signature : σ}
  {layer variant : Int}

omit [DecidableEq σ] in
theorem Numbering.nil : Numbering ([] : List (NumberedContract σ)) := ⟨nofun, nofun⟩

omit [DecidableEq σ] in
theorem Known.mono (h : Known all name signature) (hext : all <+: next) : Known next name signature := by
  obtain ⟨entry, hm, hent⟩ := h
  exact ⟨entry, hext.subset hm, hent⟩

variable {entry : NumberedContract σ}

theorem NumberedContract.find_some (h : NumberedContract.find all name signature = some entry) :
    entry ∈ all ∧ entry.name = name ∧ entry.signature = signature := by
  refine ⟨mem_of_find?_eq_some h, ?_⟩
  simpa using find?_some h

theorem NumberedContract.find_none (h : NumberedContract.find all name signature = none) :
    ¬ Known all name signature := by
  rintro ⟨entry, hm, rfl, rfl⟩
  have := find?_eq_none.mp h entry hm
  simp at this

section

variable (h : Known all name signature)
include h

theorem Known.find : ∃ entry, NumberedContract.find all name signature = some entry := by
  cases hfd : NumberedContract.find all name signature with
  | some entry => exact ⟨entry, rfl⟩
  | none => exact absurd h (NumberedContract.find_none hfd)

theorem variantOf_mono (hext : all <+: next) :
    variantOf next name signature = variantOf all name signature := by
  obtain ⟨entry, hfd⟩ := h.find
  obtain ⟨more, rfl⟩ := hext
  have hlat : NumberedContract.find (all ++ more) name signature = some entry := by
    unfold NumberedContract.find at hfd ⊢
    rw [find?_append, hfd]
    rfl
  rw [variantOf, variantOf, hfd, hlat]

theorem Known.variantOf_mem : ∃ entry ∈ all, entry.name = name ∧ entry.signature = signature ∧
      entry.variant = variantOf all name signature := by
  obtain ⟨entry, hfd⟩ := h.find
  obtain ⟨hm, hnm, hsig⟩ := NumberedContract.find_some hfd
  exact ⟨entry, hm, hnm, hsig, by rw [variantOf, hfd]; rfl⟩

end

theorem Numbering.variantOf_inj (h : Numbering all) {other : σ} (hkn : Known all name signature)
    (hother : Known all name other) :
    variantOf all name signature = variantOf all name other ↔ signature = other := by
  refine ⟨fun heq => ?_, fun heq => heq ▸ rfl⟩
  obtain ⟨a, ha, hana, rfl, hav⟩ := hkn.variantOf_mem
  obtain ⟨b, hb, hbna, rfl, hbv⟩ := hother.variantOf_mem
  exact h.injective a ha b hb (hana.trans hbna.symm) (hav.trans (heq.trans hbv.symm))

section

variable (all : List (NumberedContract σ)) (name : String) (signature : σ) (layer : Int)

theorem contractVariantLayer_known : Known (contractVariantLayer all name signature layer).1 name signature ∧
      (contractVariantLayer all name signature layer).2 =
        variantOf (contractVariantLayer all name signature layer).1 name signature := by
  unfold contractVariantLayer
  split
  next entry hfd =>
    obtain ⟨hm, hnm, hsig⟩ := NumberedContract.find_some hfd
    exact ⟨⟨entry, hm, hnm, hsig⟩, by rw [variantOf, hfd]; rfl⟩
  rename_i hfd
  refine ⟨⟨⟨name, signature, _⟩, mem_append_right _ (mem_singleton_self _), rfl, rfl⟩, ?_⟩
  unfold NumberedContract.find at hfd
  rw [variantOf, NumberedContract.find, find?_append, hfd]
  simp

theorem contractVariantLayer_prefix : all <+: (contractVariantLayer all name signature layer).1 := by
  unfold contractVariantLayer
  split
  · exact prefix_refl _
  · exact prefix_append _ _

end

theorem contractVariantLayer_mem (hm : entry ∈ (contractVariantLayer all name signature layer).1) :
    entry ∈ all ∨ entry.name = name ∧ (entry.variant = 0 ∨ entry.variant = layer) := by
  unfold contractVariantLayer at hm
  split at hm
  · exact .inl hm
  rcases mem_append.mp hm with hm | hm
  · exact .inl hm
  cases mem_singleton.mp hm
  refine .inr ⟨rfl, ?_⟩
  simp only
  split
  · exact .inr rfl
  · exact .inl rfl

theorem contractVariantLayer_first (hfst : ∀ entry ∈ all, entry.name ≠ name) :
    (contractVariantLayer all name signature layer).2 = 0 := by
  unfold contractVariantLayer
  split
  next entry hfd =>
    obtain ⟨hm, hnm, _⟩ := NumberedContract.find_some hfd
    exact absurd hnm (hfst entry hm)
  have hno : all.any (·.name = name) = false := by
    simpa using hfst
  simp [hno]

theorem contractVariantLayer_numbering (h : Numbering all)
    (hbl : ∀ entry ∈ all, entry.name = name → entry.variant < layer) :
    Numbering (contractVariantLayer all name signature layer).1 := by
  unfold contractVariantLayer
  split
  · exact h
  rename_i hfd
  have hnew := NumberedContract.find_none hfd
  -- an entry of the same name is below the layer, and makes the new number the layer
  have hvar : ∀ entry ∈ all, entry.name = name →
      entry.variant ≠ (if all.any (·.name = name) then layer else 0) := by
    intro entry hm hnm
    have hany : all.any (·.name = name) = true := by
      simpa using ⟨entry, hm, hnm⟩
    rw [if_pos hany]
    have := hbl entry hm hnm
    omega
  refine ⟨?_, ?_⟩
  · intro a ha b hb hnm hsig
    rcases mem_append.mp ha with ha | ha <;> rcases mem_append.mp hb with hb | hb
    · exact h.functional a ha b hb hnm hsig
    · cases mem_singleton.mp hb
      exact absurd ⟨a, ha, hnm, hsig⟩ hnew
    · cases mem_singleton.mp ha
      exact absurd ⟨b, hb, hnm.symm, hsig.symm⟩ hnew
    · cases mem_singleton.mp ha
      cases mem_singleton.mp hb
      rfl
  · intro a ha b hb hnm heq
    rcases mem_append.mp ha with ha | ha <;> rcases mem_append.mp hb with hb | hb
    · exact h.injective a ha b hb hnm heq
    · cases mem_singleton.mp hb
      exact absurd heq (hvar a ha hnm)
    · cases mem_singleton.mp ha
      exact absurd heq.symm (hvar b hb hnm.symm)
    · cases mem_singleton.mp ha
      cases mem_singleton.mp hb
      rfl

variable {declarations : List (String × σ)}

theorem contractVariantLayers_spec (h : Numbering all) (distinct : (declarations.map Prod.fst).Nodup)
    (hbl : ∀ entry ∈ all, entry.name ∈ declarations.map Prod.fst → entry.variant < layer) :
    Numbering (contractVariantLayers layer all declarations).1 ∧
      all <+: (contractVariantLayers layer all declarations).1 ∧ (∀ declaration ∈ declarations,
        Known (contractVariantLayers layer all declarations).1 declaration.1 declaration.2) ∧
      (contractVariantLayers layer all declarations).2 = declarations.map (fun declaration =>
        variantOf (contractVariantLayers layer all declarations).1 declaration.1 declaration.2) := by
  induction declarations generalizing all with
  | nil => exact ⟨h, prefix_refl _, nofun, rfl⟩
  | cons declaration rest ih =>
    obtain ⟨name, signature⟩ := declaration
    obtain ⟨hnm, hdis⟩ := nodup_cons.mp distinct
    simp only [contractVariantLayers]
    obtain ⟨hkn, hvar⟩ := contractVariantLayer_known all name signature layer
    have hext := contractVariantLayer_prefix all name signature layer
    have hnum : Numbering (contractVariantLayer all name signature layer).1 := by
      refine contractVariantLayer_numbering h ?_
      intro entry hm heq
      exact hbl entry hm (heq ▸ mem_cons_self ..)
    obtain ⟨hla, hlat, hrs, hvr⟩ := ih hnum hdis (by
      intro entry hm hmem
      rcases contractVariantLayer_mem hm with hm | ⟨heq, _⟩
      · exact hbl entry hm (mem_cons_of_mem _ hmem)
      · rw [heq] at hmem
        exact absurd hmem hnm)
    refine ⟨hla, hext.trans hlat, ?_, ?_⟩
    · intro declaration hm
      rcases mem_cons.mp hm with rfl | hm
      · exact hkn.mono hlat
      · exact hrs declaration hm
    · rw [map_cons, hvr, variantOf_mono hkn hlat, ← hvar]

theorem contractVariantLayers_mem (hm : entry ∈ (contractVariantLayers layer all declarations).1) :
    entry ∈ all ∨ entry.name ∈ declarations.map Prod.fst ∧ (entry.variant = 0 ∨ entry.variant = layer) := by
  induction declarations generalizing all with
  | nil => exact .inl hm
  | cons declaration rest ih =>
    obtain ⟨name, signature⟩ := declaration
    simp only [contractVariantLayers] at hm
    rcases ih hm with hm | ⟨hmem, hvar⟩
    · rcases contractVariantLayer_mem hm with hm | ⟨rfl, hvar⟩
      · exact .inl hm
      · exact .inr ⟨mem_cons_self .., hvar⟩
    · exact .inr ⟨mem_cons_of_mem _ hmem, hvar⟩

theorem contractVariantLayers_first (h : Numbering all) (distinct : (declarations.map Prod.fst).Nodup)
    (hbl : ∀ entry ∈ all, entry.name ∈ declarations.map Prod.fst → entry.variant < layer)
    {declaration : String × σ} (hm : declaration ∈ declarations)
    (hfst : ∀ entry ∈ all, entry.name ≠ declaration.1) :
    variantOf (contractVariantLayers layer all declarations).1 declaration.1 declaration.2 = 0 := by
  induction declarations generalizing all with
  | nil => exact absurd hm not_mem_nil
  | cons first rest ih =>
    obtain ⟨name, signature⟩ := first
    obtain ⟨hnm, hdis⟩ := nodup_cons.mp distinct
    have hnum : Numbering (contractVariantLayer all name signature layer).1 := by
      refine contractVariantLayer_numbering h ?_
      intro entry hm heq
      exact hbl entry hm (heq ▸ mem_cons_self ..)
    have hbl' : ∀ entry ∈ (contractVariantLayer all name signature layer).1,
        entry.name ∈ rest.map Prod.fst → entry.variant < layer := by
      intro entry hm hmem
      rcases contractVariantLayer_mem hm with hm | ⟨heq, _⟩
      · exact hbl entry hm (mem_cons_of_mem _ hmem)
      · rw [heq] at hmem
        exact absurd hmem hnm
    simp only [contractVariantLayers]
    rcases mem_cons.mp hm with rfl | hm
    · obtain ⟨hkn, hvar⟩ := contractVariantLayer_known all name signature layer
      obtain ⟨_, hlat, _, _⟩ := contractVariantLayers_spec hnum hdis hbl'
      rw [variantOf_mono hkn hlat, ← hvar]
      exact contractVariantLayer_first hfst
    refine ih hnum hdis hbl' hm ?_
    intro entry hent heq
    rcases contractVariantLayer_mem hent with hent | ⟨hnm', _⟩
    · exact hfst entry hent heq
    have hmem : declaration.1 ∈ rest.map Prod.fst := mem_map_of_mem hm
    rw [← heq, hnm'] at hmem
    exact hnm hmem

structure Numbers (batches : List (Int × List (String × σ))) (all : List (NumberedContract σ)) : Prop where
  numbering : Numbering all
  known : ∀ batch ∈ batches, ∀ declaration ∈ batch.2, Known all declaration.1 declaration.2
  named : ∀ entry ∈ all, ∃ batch ∈ batches, entry.name ∈ batch.2.map Prod.fst ∧
    (entry.variant = 0 ∨ entry.variant = batch.1)
  first : ∀ before batch after, batches = before ++ batch :: after → ∀ declaration ∈ batch.2,
    (∀ earlier ∈ before, declaration.1 ∉ earlier.2.map Prod.fst) →
      variantOf all declaration.1 declaration.2 = 0

theorem Numbers.nil : Numbers ([] : List (Int × List (String × σ))) [] :=
  ⟨.nil, nofun, nofun, fun before batch after h => by simp at h⟩

theorem Numbers.add {batches : List (Int × List (String × σ))} (h : Numbers batches all)
    (hps : 0 < layer) (hbl : ∀ batch ∈ batches, batch.1 < layer)
    (declarations : List (String × σ)) (distinct : (declarations.map Prod.fst).Nodup) :
    Numbers (batches ++ [(layer, declarations)]) (contractVariantLayers layer all declarations).1 ∧
      all <+: (contractVariantLayers layer all declarations).1 ∧
      (contractVariantLayers layer all declarations).2 = declarations.map (fun declaration =>
        variantOf (contractVariantLayers layer all declarations).1 declaration.1 declaration.2) := by
  have hent : ∀ entry ∈ all, entry.variant < layer := by
    intro entry hm
    obtain ⟨batch, hb, _, hvar⟩ := h.named entry hm
    have := hbl batch hb
    omega
  obtain ⟨hnum, hext, hkn, hvr⟩ :=
    contractVariantLayers_spec h.numbering distinct fun entry hm _ => hent entry hm
  refine ⟨⟨hnum, ?_, ?_, ?_⟩, hext, hvr⟩
  · intro batch hb declaration hd
    rcases mem_append.mp hb with hb | hb
    · exact (h.known batch hb declaration hd).mono hext
    · cases mem_singleton.mp hb
      exact hkn declaration hd
  · intro entry hm
    rcases contractVariantLayers_mem hm with hm | ⟨hnm, hvar⟩
    · obtain ⟨batch, hb, hbat⟩ := h.named entry hm
      exact ⟨batch, mem_append_left _ hb, hbat⟩
    · exact ⟨_, mem_append_right _ (mem_singleton_self _), hnm, hvar⟩
  · intro before batch after heq declaration hd hear
    rcases eq_nil_or_concat after with rfl | ⟨init, last, rfl⟩
    · -- the new batch
      obtain ⟨rfl, hbat⟩ := append_inj' heq rfl
      obtain ⟨rfl, _⟩ := cons.inj hbat
      refine contractVariantLayers_first h.numbering distinct
        (fun entry hm _ => hent entry hm) hd ?_
      intro entry hm hnm
      obtain ⟨earlier, he, hmem, _⟩ := h.named entry hm
      exact hear earlier he (hnm ▸ hmem)
    · have hbt : batches = before ++ batch :: init := by
        rw [concat_eq_append, ← cons_append, ← append_assoc] at heq
        exact (append_inj' heq rfl).1
      have hb : batch ∈ batches := by simp [hbt]
      rw [variantOf_mono (h.known batch hb declaration hd) hext]
      exact h.first before batch init hbt declaration hd hear

end

end Tlrpc
