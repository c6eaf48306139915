import Mathlib.Order.Bounds.Basic
import Tlrpc.WireContract

namespace Tlrpc

open List FuncDecl

def TypeRef.eraseVariants : TypeRef → TypeRef
  | .plain head => .plain { head with variantLayer := 0 }
  | .generic head element => .generic { head with variantLayer := 0 } element.eraseVariants

def Parameter.eraseVariants (param : Parameter) : Parameter :=
  { param with type := param.type.eraseVariants }

def Constructor.contract (constructor : Constructor) : ConstructorSignature :=
  { constructorContractSignature constructor with
    params := constructor.params.map Parameter.eraseVariants
    resultType := constructor.resultType.eraseVariants }

def FuncDecl.contract (function : FuncDecl) : RequestSignature × TypeRef :=
  ({ functionRequestSignature function with
      params := function.params.map Parameter.eraseVariants },
    function.resultType.eraseVariants)

theorem eraseVariants_annotate (versions : TypeVersions) (reference : TypeRef) :
    (annotateBareTypeRef versions reference).eraseVariants = reference.eraseVariants := by
  have hhd : ∀ head, { annotateHead versions head with variantLayer := 0 } =
      { head with variantLayer := 0 } := by
    intro head
    unfold annotateHead
    split
    · rfl
    · split <;> rfl
  induction reference with
  | plain head => simp only [annotateBareTypeRef, TypeRef.eraseVariants, hhd]
  | generic head element ih => simp only [annotateBareTypeRef, TypeRef.eraseVariants, hhd, ih]

theorem eraseVariants_annotateParameters (versions : TypeVersions) (params : List Parameter) :
    (annotateBareParameters versions params).map Parameter.eraseVariants =
      params.map Parameter.eraseVariants := by
  rw [annotateBareParameters, map_map]
  refine map_congr_left fun param _ => ?_
  simp only [Function.comp_apply, Parameter.eraseVariants, eraseVariants_annotate]

theorem Constructor.contract_congr {a b : Constructor}
    (h : constructorContractSignature a = constructorContractSignature b) : a.contract = b.contract := by
  have hps := congrArg ConstructorSignature.params h
  have hres := congrArg ConstructorSignature.resultType h
  simp only [constructorContractSignature] at hps hres
  rw [Constructor.contract, Constructor.contract, h, hps, hres]

theorem FuncDecl.contract_congr {a b : FuncDecl}
    (h : functionRequestSignature a = functionRequestSignature b)
    (hres : a.resultType = b.resultType) : a.contract = b.contract := by
  have hps := congrArg RequestSignature.params h
  simp only [functionRequestSignature] at hps
  rw [contract, contract, h, hps, hres]

def SnapshotInForce (base : Schema) (baseLayer : Int) (differences : List LayerDifference) (layer : Int)
    (snapshot : Schema) : Prop :=
  ∃ supplied, IsGreatest {l | l ∈ suppliedLayers baseLayer differences ∧ l ≤ layer} supplied ∧
    resolveLayer (snapshotBase base) baseLayer supplied differences = .ok snapshot

def constructorsAt (constructors : List Constructor) (layer : Int) : List Constructor :=
  constructors.filter fun constructor => intervalsSupport constructor.intervals layer

def functionsAt (functions : List FuncDecl) (layer : Int) : List FuncDecl :=
  functions.filter fun function => intervalsSupport function.intervals layer

section

variable (base : Schema) (baseLayer : Int) (differences : List LayerDifference)

/-- At every layer the combined constructors say what the snapshot there says. -/
structure ConstructorsFaithful (constructors : List Constructor) : Prop where
  snapshot : ∀ layer snapshot, SnapshotInForce base baseLayer differences layer snapshot →
    ((constructorsAt constructors layer).map Constructor.contract).Perm
      (snapshot.constructors.map Constructor.contract)
  unique : ∀ layer, baseLayer ≤ layer → ((constructorsAt constructors layer).map (·.name)).Nodup ∧
    ((constructorsAt constructors layer).map (·.id)).Nodup
  normalised : ∀ constructor ∈ constructors, Normalised constructor.intervals
  first : ∀ layer snapshot, SnapshotInForce base baseLayer differences layer snapshot →
    ∀ declared ∈ snapshot.constructors,
      (∀ earlier old, earlier < snapshot.layer → SnapshotInForce base baseLayer differences earlier old →
        ∀ other ∈ old.constructors, other.name ≠ declared.name) →
      ∀ entry ∈ constructorsAt constructors layer, entry.name = declared.name →
        entry.variantLayer = 0
  variants : ∀ layer snapshot, SnapshotInForce base baseLayer differences layer snapshot →
    ∀ layer' snapshot', SnapshotInForce base baseLayer differences layer' snapshot' →
    ∀ a ∈ snapshot.constructors, ∀ b ∈ snapshot'.constructors, a.name = b.name →
    ∀ entry ∈ constructorsAt constructors layer, entry.name = a.name →
    ∀ entry' ∈ constructorsAt constructors layer', entry'.name = a.name →
    ∀ wire wire', wireConstructor snapshot a = .ok wire → wireConstructor snapshot' b = .ok wire' →
      (entry.variantLayer = entry'.variantLayer ↔ wire = wire')
  wired : ∀ layer snapshot, SnapshotInForce base baseLayer differences layer snapshot →
    ∀ declared ∈ snapshot.constructors, ∀ head, declared.resultType = .plain head →
      ∃ wire, wireConstructor snapshot declared = .ok wire

/-- At every layer the combined functions say what the snapshot there says. -/
structure FunctionsFaithful (functions : List FuncDecl) : Prop where
  snapshot : ∀ layer snapshot, SnapshotInForce base baseLayer differences layer snapshot →
    ((functionsAt functions layer).map FuncDecl.contract).Perm
      ((snapshot.functions.filter (·.variantLayer = 0)).map FuncDecl.contract)
  normalised : ∀ function ∈ functions, Normalised function.intervals
  first : ∀ layer snapshot, SnapshotInForce base baseLayer differences layer snapshot →
    ∀ declared ∈ snapshot.functions, declared.variantLayer = 0 →
      (∀ earlier old, earlier < snapshot.layer → SnapshotInForce base baseLayer differences earlier old →
        ∀ other ∈ old.functions, other.variantLayer = 0 → other.name ≠ declared.name) →
      ∀ entry ∈ functionsAt functions layer, entry.name = declared.name → entry.variantLayer = 0
  variants : ∀ layer snapshot, SnapshotInForce base baseLayer differences layer snapshot →
    ∀ layer' snapshot', SnapshotInForce base baseLayer differences layer' snapshot' →
    ∀ a ∈ snapshot.functions, ∀ b ∈ snapshot'.functions, a.variantLayer = 0 → b.variantLayer = 0 →
    a.name = b.name →
    ∀ entry ∈ functionsAt functions layer, entry.name = a.name →
    ∀ entry' ∈ functionsAt functions layer', entry'.name = a.name →
    ∀ wire wire', wireFunction snapshot a = .ok wire → wireFunction snapshot' b = .ok wire' →
      (entry.variantLayer = entry'.variantLayer ↔ wire = wire')
  wired : ∀ layer snapshot, SnapshotInForce base baseLayer differences layer snapshot →
    ∀ declared ∈ snapshot.functions, (∀ param ∈ declared.params, param.type.Vectors) →
      declared.resultType.Vectors → ∃ wire, wireFunction snapshot declared = .ok wire

/-- The historical functions say at every layer what the base accepts there. -/
structure HistoricalFaithful (functions : List FuncDecl) : Prop where
  accepted : ∀ layer, (functionsAt functions layer).map (fun f => (f.variantLayer, f.contract)) =
    (base.functions.filter fun f => f.variantLayer ≠ 0 &&
      intervalsSupport f.acceptIntervals layer).map (fun f => (f.variantLayer, f.contract))
  normalised : ∀ function ∈ functions, Normalised function.intervals

end

structure RequestsFaithful (functions : List FuncDecl) : Prop where
  normalised : ∀ function ∈ functions, Normalised function.requestIntervals
  available : ∀ function ∈ functions, ∀ layer,
    intervalsSupport function.requestIntervals layer = true ↔
      ∃ other ∈ functions, other.name = function.name ∧
        other.requestVariantLayer = function.requestVariantLayer ∧
        intervalsSupport other.intervals layer = true

/-- What the parsers leave: normalised layers, and references without variants. -/
structure ParsedInput (base : Schema) (differences : List LayerDifference) : Prop where
  accepted : ∀ function ∈ base.functions, function.variantLayer ≠ 0 →
    Normalised function.acceptIntervals ∧
      ∀ interval ∈ function.acceptIntervals, interval.maxLayer ≠ 0
  constructors : ∀ constructor ∈ base.constructors, constructor.Unversioned
  functions : ∀ function ∈ base.functions, function.Unversioned
  differences : ∀ difference ∈ differences, ∀ schema ∈ difference.schema,
    (∀ constructor ∈ schema.constructors, constructor.Unversioned) ∧
      ∀ function ∈ schema.functions, function.Unversioned

section

variable {base : Schema} {baseLayer : Int} {differences : List LayerDifference}
  {layered : LayeredSchema} {taken : List TakenSnapshot} {state : Combination}
  {functions : List FuncDecl}
  (hr : ResolvedBy base baseLayer differences layered taken state functions)
include hr

theorem ResolvedBy.increasing_taken : taken.Pairwise fun a b => a.layer < b.layer := by
  have h := hr.increasing
  rw [← hr.layers] at h
  exact pairwise_map.mp h

variable {t : TakenSnapshot}

theorem ResolvedBy.positive_taken (ht : t ∈ taken) : 0 < t.layer := by
  have hmem : t.layer ∈ suppliedLayers baseLayer differences := hr.layers ▸ mem_map_of_mem ht
  have hps := hr.positive
  rcases mem_cons.mp hmem with heq | hmem
  · omega
  · have := (pairwise_cons.mp hr.increasing).1 _ hmem
    omega

theorem ResolvedBy.rebuilt (ht : t ∈ taken) :
    t.snapshot = rebuildSchema t.layer t.snapshot.constructors t.snapshot.functions :=
  (resolveLayer_ok (hr.resolved t ht)).2.2.2

theorem ResolvedBy.unambiguous (ht : t ∈ taken) : Unambiguous t.snapshot.constructors t.snapshot.functions :=
  (resolveLayer_ok (hr.resolved t ht)).2.2.1

theorem ResolvedBy.inForce_self (ht : t ∈ taken) :
    SnapshotInForce base baseLayer differences t.layer t.snapshot := by
  refine ⟨t.layer, ⟨⟨?_, le_refl _⟩, fun l hl => hl.2⟩, hr.resolved t ht⟩
  exact hr.layers ▸ mem_map_of_mem ht

variable {layer : Int} {snapshot : Schema}

theorem ResolvedBy.last_taken {first : TakenSnapshot} (hfst : first ∈ taken) (hle : first.layer ≤ layer) :
    ∃ t ∈ taken, t.layer ≤ layer ∧ (taken.filter (·.layer ≤ layer)).getLast? = some t ∧
      ∀ other ∈ taken, other.layer ≤ layer → other.layer ≤ t.layer := by
  have hfil : first ∈ taken.filter (·.layer ≤ layer) :=
    mem_filter.mpr ⟨hfst, decide_eq_true hle⟩
  rcases eq_nil_or_concat (taken.filter (·.layer ≤ layer)) with hnil | ⟨init, t, hcon⟩
  · rw [hnil] at hfil
    exact absurd hfil not_mem_nil
  rw [concat_eq_append] at hcon
  have ht : t ∈ taken.filter (·.layer ≤ layer) := by simp [hcon]
  obtain ⟨htk, htle⟩ := mem_filter.mp ht
  have hsrt : (init ++ [t]).Pairwise fun a b => a.layer < b.layer :=
    hcon ▸ hr.increasing_taken.sublist filter_sublist
  refine ⟨t, htk, of_decide_eq_true htle, by rw [hcon, List.getLast?_concat], ?_⟩
  intro other hother hlow
  have hmem : other ∈ init ++ [t] := hcon ▸ mem_filter.mpr ⟨hother, decide_eq_true hlow⟩
  rcases mem_append.mp hmem with hin | hla
  · exact ((pairwise_append.mp hsrt).2.2 other hin t (mem_singleton_self _)).le
  · cases mem_singleton.mp hla
    exact le_refl _

theorem ResolvedBy.inForce_taken (hin : SnapshotInForce base baseLayer differences layer snapshot) :
    ∃ t ∈ taken, t.snapshot = snapshot ∧ (taken.filter (·.layer ≤ layer)).getLast? = some t := by
  obtain ⟨supplied, ⟨⟨hmem, hle⟩, hgre⟩, hres⟩ := hin
  rw [← hr.layers] at hmem
  obtain ⟨first, hfst, rfl⟩ := mem_map.mp hmem
  obtain ⟨t, htk, htle, hla, hup⟩ := hr.last_taken hfst hle
  have hlayer : t.layer = first.layer :=
    le_antisymm (hgre ⟨hr.layers ▸ mem_map_of_mem htk, htle⟩) (hup first hfst hle)
  have hsm := hr.resolved t htk
  rw [hlayer, hres] at hsm
  exact ⟨t, htk, (Except.ok.inj hsm).symm, hla⟩

theorem ResolvedBy.inForce_exists (hlayer : baseLayer ≤ layer) :
    ∃ snapshot, SnapshotInForce base baseLayer differences layer snapshot := by
  have hbs : baseLayer ∈ taken.map (·.layer) := by
    rw [hr.layers]
    exact mem_cons_self ..
  obtain ⟨first, hfst, hfir⟩ := mem_map.mp hbs
  obtain ⟨t, htk, htle, _, hup⟩ := hr.last_taken hfst (hfir.trans_le hlayer)
  refine ⟨t.snapshot, t.layer, ⟨⟨hr.layers ▸ mem_map_of_mem htk, htle⟩, ?_⟩, hr.resolved t htk⟩
  rintro l ⟨hl, hle⟩
  rw [← hr.layers] at hl
  obtain ⟨other, hother, rfl⟩ := mem_map.mp hl
  exact hup other hother hle

omit hr in
theorem batchAt_taken {α : Type} [LayerEntry α] (declarations : TakenSnapshot → List α)
    (h : (taken.filter (·.layer ≤ layer)).getLast? = some t) :
    Timeline.batchAt (taken.map fun t => (t.layer, declarations t)) layer =
      some (t.layer, declarations t) := by
  have hfil : (taken.map fun t => (t.layer, declarations t)).filter (·.1 ≤ layer) =
      (taken.filter (·.layer ≤ layer)).map fun t => (t.layer, declarations t) := by
    rw [filter_map]
    rfl
  rw [Timeline.batchAt, hfil, List.getLast?_map, h]
  rfl

theorem ResolvedBy.increasing_history {α : Type} (declarations : TakenSnapshot → List α) :
    (taken.map fun t => (t.layer, declarations t)).Pairwise fun a b => a.1 < b.1 :=
  pairwise_map.mpr hr.increasing_taken

theorem ResolvedBy.positive_history {α : Type} (declarations : TakenSnapshot → List α) :
    ∀ batch ∈ taken.map fun t => (t.layer, declarations t), 0 < batch.1 := by
  intro batch hb
  obtain ⟨t, ht, rfl⟩ := mem_map.mp hb
  exact hr.positive_taken ht

theorem ResolvedBy.constructorKeys (ht : t ∈ taken) : (t.constructors.map variantKey).Nodup := by
  refine List.Nodup.of_map Prod.fst ?_
  rw [map_map, (hr.combined.numbered t ht).constructors, map_map]
  exact (hr.unambiguous ht).constructorNames

theorem ResolvedBy.functionKeys (ht : t ∈ taken) : (t.functions.map variantKey).Nodup := by
  refine List.Nodup.of_map Prod.fst ?_
  rw [map_map, (hr.combined.numbered t ht).functions, map_map, (hr.combined.numbered t ht).requests, map_map]
  exact (hr.unambiguous ht).functionNames

theorem ResolvedBy.taken_contracts (ht : t ∈ taken) :
    t.constructors.map Constructor.contract = t.snapshot.constructors.map Constructor.contract := by
  rw [(hr.combined.numbered t ht).constructors, map_map]
  refine map_congr_left fun constructor _ => ?_
  simp only [Function.comp_apply, Constructor.contract, constructorContractSignature,
    projectConstructor, eraseVariants_annotate, eraseVariants_annotateParameters]

theorem ResolvedBy.taken_functionContracts (ht : t ∈ taken) :
    t.functions.map FuncDecl.contract = t.canonical.map FuncDecl.contract := by
  rw [(hr.combined.numbered t ht).functions, map_map, (hr.combined.numbered t ht).requests, map_map]
  refine map_congr_left fun function _ => ?_
  simp only [Function.comp_apply, contract, functionRequestSignature, projectFunction,
    eraseVariants_annotate, eraseVariants_annotateParameters]

theorem ResolvedBy.entry_variant (ht : t ∈ taken)
    (hla : (taken.filter (·.layer ≤ layer)).getLast? = some t) {entry declared : Constructor}
    (hent : entry ∈ constructorsAt state.constructors.entries layer)
    (hdc : declared ∈ t.snapshot.constructors) (hnm : entry.name = declared.name) : entry.variantLayer =
      variantOf state.constructorVariants declared.name (t.constructorSignature declared) := by
  have hks := hr.combined.constructors.keys_at (hr.increasing_history _) (hr.positive_history _)
    (batchAt_taken (·.constructors) hla) (hr.constructorKeys ht)
  have hmem : variantKey entry ∈ t.constructors.map variantKey :=
    hks.subset (mem_map_of_mem hent)
  obtain ⟨numbered, hnum, hkey⟩ := mem_map.mp hmem
  rw [(hr.combined.numbered t ht).constructors] at hnum
  obtain ⟨source, hsource, rfl⟩ := mem_map.mp hnum
  obtain ⟨hsou, hvar⟩ := Prod.mk.inj hkey
  have hsm : source = declared := inj_on_of_nodup_map (hr.unambiguous ht).constructorNames
    hsource hdc (hsou.trans hnm)
  rw [← hvar, hsm]

theorem ResolvedBy.function_variant (ht : t ∈ taken)
    (hla : (taken.filter (·.layer ≤ layer)).getLast? = some t) {entry declared : FuncDecl}
    (hent : entry ∈ functionsAt state.functions.entries layer)
    (hdc : declared ∈ t.canonical) (hnm : entry.name = declared.name) :
    ∃ request ∈ t.requests, request.name = declared.name ∧ request.requestVariantLayer =
        variantOf state.requestVariants declared.name (t.requestSignature declared) ∧
      request.resultType = annotateBareTypeRef t.versions declared.resultType ∧
      entry.variantLayer = variantOf state.handlerVariants request.name
        ⟨request.requestVariantLayer, request.resultType⟩ := by
  have hks := hr.combined.functions.keys_at (hr.increasing_history _) (hr.positive_history _)
    (batchAt_taken (·.functions) hla) (hr.functionKeys ht)
  have hmem : variantKey entry ∈ t.functions.map variantKey :=
    hks.subset (mem_map_of_mem hent)
  obtain ⟨numbered, hnum, hkey⟩ := mem_map.mp hmem
  rw [(hr.combined.numbered t ht).functions] at hnum
  obtain ⟨request, hreq, rfl⟩ := mem_map.mp hnum
  obtain ⟨hrq, hvar⟩ := Prod.mk.inj hkey
  have hmb := hreq
  rw [(hr.combined.numbered t ht).requests] at hreq
  obtain ⟨source, hsource, rfl⟩ := mem_map.mp hreq
  have hsm : source = declared := inj_on_of_nodup_map (hr.unambiguous ht).functionNames
    hsource hdc (hrq.trans hnm)
  subst hsm
  exact ⟨_, hmb, rfl, rfl, rfl, hvar.symm⟩

theorem ResolvedBy.constructors_snapshot (hin : SnapshotInForce base baseLayer differences layer snapshot) :
    ((constructorsAt state.constructors.entries layer).map Constructor.contract).Perm
      (snapshot.constructors.map Constructor.contract) := by
  obtain ⟨t, ht, rfl, hla⟩ := hr.inForce_taken hin
  rw [← hr.taken_contracts ht]
  refine hr.combined.constructors.contracts_at (hr.increasing_history _) (hr.positive_history _)
    (fun _ _ => rfl) ?_ (batchAt_taken (·.constructors) hla) (hr.constructorKeys ht)
  intro batch hbat a ha other hother b hb hkey
  obtain ⟨s, hs, rfl⟩ := mem_map.mp hbat
  obtain ⟨s', hs', rfl⟩ := mem_map.mp hother
  exact Constructor.contract_congr (hr.combined.constructor_contract hs hs' ha hb hkey)

theorem ResolvedBy.before_taken (ht : t ∈ taken) :
    ∃ before after, taken = before ++ t :: after ∧ ∀ earlier ∈ before, earlier.layer < t.snapshot.layer ∧
        SnapshotInForce base baseLayer differences earlier.layer earlier.snapshot := by
  obtain ⟨before, after, hspl⟩ := append_of_mem ht
  refine ⟨before, after, hspl, fun earlier hear => ⟨?_, ?_⟩⟩
  · have hlayer : t.snapshot.layer = t.layer := by
      rw [hr.rebuilt ht]
      rfl
    have hsrt := hr.increasing_taken
    rw [hspl] at hsrt
    rw [hlayer]
    exact (pairwise_append.mp hsrt).2.2 earlier hear t (mem_cons_self ..)
  · exact hr.inForce_self (hspl ▸ mem_append_left _ hear)

theorem ResolvedBy.unversioned (hprd : ParsedInput base differences)
    (ht : t ∈ taken) : (∀ constructor ∈ t.snapshot.constructors, constructor.Unversioned) ∧
      ∀ function ∈ t.snapshot.functions, function.Unversioned := by
  refine resolveLayer_forall (hr.resolved t ht) ⟨hprd.constructors, ?_⟩ hprd.differences
  exact fun function hf => hprd.functions function (mem_of_mem_filter hf)

theorem ResolvedBy.constructors_faithful (hprd : ParsedInput base differences) :
    ConstructorsFaithful base baseLayer differences state.constructors.entries where
  snapshot _ _ hin := hr.constructors_snapshot hin
  unique _ hlayer := by
    obtain ⟨snapshot, hin⟩ := hr.inForce_exists hlayer
    have hpr := hr.constructors_snapshot hin
    obtain ⟨t, ht, rfl, _⟩ := hr.inForce_taken hin
    have huna := hr.unambiguous ht
    have hnms := hpr.map ConstructorSignature.name
    have hids := hpr.map ConstructorSignature.id
    rw [map_map, map_map] at hnms hids
    exact ⟨hnms.nodup_iff.mpr huna.constructorNames, hids.nodup_iff.mpr huna.constructorIDs⟩
  normalised _ hm := (hr.combined.constructors.follows (hr.increasing_history _)
    (hr.positive_history _) hm).normalised
  first _ _ hin declared hdc hnew _ hent hnm := by
    obtain ⟨t, ht, rfl, hla⟩ := hr.inForce_taken hin
    rw [hr.entry_variant ht hla hent hdc hnm]
    obtain ⟨before, after, hspl, hbef⟩ := hr.before_taken ht
    refine hr.combined.constructorNumbers.first (before.map (·.constructorBatch)) t.constructorBatch
      (after.map (·.constructorBatch)) (by rw [hspl, map_append, map_cons])
      (declared.name, t.constructorSignature declared) (mem_map_of_mem hdc) ?_
    intro batch hbat hmem
    obtain ⟨earlier, hear, rfl⟩ := mem_map.mp hbat
    obtain ⟨hlow, hold⟩ := hbef earlier hear
    simp only [TakenSnapshot.constructorBatch, map_map] at hmem
    obtain ⟨other, hother, heq⟩ := mem_map.mp hmem
    exact hnew earlier.layer earlier.snapshot hlow hold other hother heq
  variants _ _ hin _ _ hin' a ha b hb hnm _ hent hen _ hent' hen' _ _ hwr hwr' := by
    obtain ⟨t, ht, rfl, hla⟩ := hr.inForce_taken hin
    obtain ⟨t', ht', rfl, hla'⟩ := hr.inForce_taken hin'
    rw [hr.entry_variant ht hla hent ha hen, hr.entry_variant ht' hla' hent' hb (hen'.trans hnm),
      hr.combined.constructor_variant ht ht' ha hb hnm]
    exact hr.combined.constructorSignature_eq_iff ht ht' (fun s hs => hr.rebuilt hs) hwr hwr'
      ((hr.unversioned hprd ht).1 a ha) ((hr.unversioned hprd ht').1 b hb)
  wired _ _ hin declared hdc head hres := by
    obtain ⟨t, ht, rfl, _⟩ := hr.inForce_taken hin
    exact hr.combined.wireConstructor_ok ht (hr.rebuilt ht) hdc hres

theorem ResolvedBy.functions_faithful (hprd : ParsedInput base differences) :
    FunctionsFaithful base baseLayer differences state.functions.entries where
  snapshot _ _ hin := by
    obtain ⟨t, ht, rfl, hla⟩ := hr.inForce_taken hin
    change List.Perm _ (t.canonical.map contract)
    rw [← hr.taken_functionContracts ht]
    refine hr.combined.functions.contracts_at (hr.increasing_history _) (hr.positive_history _)
      (fun _ _ => rfl) ?_ (batchAt_taken (·.functions) hla) (hr.functionKeys ht)
    intro batch hbat a ha other hother b hb hkey
    obtain ⟨s, hs, rfl⟩ := mem_map.mp hbat
    obtain ⟨s', hs', rfl⟩ := mem_map.mp hother
    obtain ⟨hsig, hres⟩ := hr.combined.function_contract hs hs' ha hb hkey
    exact contract_congr hsig hres
  normalised _ hm := (hr.combined.functions.follows (hr.increasing_history _)
    (hr.positive_history _) hm).normalised
  first _ _ hin declared hdc hcan hnew _ hent hnm := by
    obtain ⟨t, ht, rfl, hla⟩ := hr.inForce_taken hin
    have hmb : declared ∈ t.canonical := mem_filter.mpr ⟨hdc, by simpa using hcan⟩
    obtain ⟨request, hreq, hrq, _, _, hvar⟩ :=
      hr.function_variant ht hla hent hmb hnm
    rw [hvar]
    obtain ⟨before, after, hspl, hbef⟩ := hr.before_taken ht
    refine hr.combined.handlerNumbers.first (before.map (·.handlerBatch)) t.handlerBatch
      (after.map (·.handlerBatch)) (by rw [hspl, map_append, map_cons])
      (request.name, ⟨request.requestVariantLayer, request.resultType⟩)
      (mem_map_of_mem hreq) ?_
    intro batch hbat hmem
    obtain ⟨earlier, hear, rfl⟩ := mem_map.mp hbat
    obtain ⟨hlow, hold⟩ := hbef earlier hear
    have her : earlier ∈ taken := hspl ▸ mem_append_left _ hear
    simp only [TakenSnapshot.handlerBatch, map_map, (hr.combined.numbered earlier her).requests] at hmem
    obtain ⟨other, hother, heq⟩ := mem_map.mp hmem
    obtain ⟨hmem, hz⟩ := mem_filter.mp hother
    exact hnew earlier.layer earlier.snapshot hlow hold other hmem (by simpa using hz)
      (heq.trans hrq)
  variants _ _ hin _ _ hin' a ha b hb haze hbze hnm _ hent hen _ hent' hen' _ _ hwr hwr' := by
    obtain ⟨t, ht, rfl, hla⟩ := hr.inForce_taken hin
    obtain ⟨t', ht', rfl, hla'⟩ := hr.inForce_taken hin'
    have haca : a ∈ t.canonical := mem_filter.mpr ⟨ha, by simpa using haze⟩
    have hbca : b ∈ t'.canonical := mem_filter.mpr ⟨hb, by simpa using hbze⟩
    obtain ⟨request, hreq, hrq, hnum, hres, hvar⟩ :=
      hr.function_variant ht hla hent haca hen
    obtain ⟨request', hreq', hrq', hnum', hres', hvar'⟩ :=
      hr.function_variant ht' hla' hent' hbca (hen'.trans hnm)
    rw [hvar, hvar', hr.combined.handler_variant ht ht' hreq hreq'
      (hrq.trans (hnm.trans hrq'.symm)), hnum, hnum', hres, hres',
      hr.combined.request_variant ht ht' haca hbca hnm]
    exact hr.combined.functionSignature_eq_iff ht ht' (fun s hs => hr.rebuilt hs) hwr hwr'
      ((hr.unversioned hprd ht).2 a ha) ((hr.unversioned hprd ht').2 b hb)
  wired _ _ hin declared hdc hps hres := by
    obtain ⟨t, ht, rfl, _⟩ := hr.inForce_taken hin
    exact hr.combined.wireFunction_ok ht (hr.rebuilt ht) (hr.bareLayouts t ht) hdc hps hres

end

variable {spans : List SnapshotSpan} {function : FuncDecl}

theorem historicalLayout_contract {intervals : List LayerInterval} {selected layout : Option FuncDecl}
    (hsel : ∀ candidate ∈ selected, candidate.variantLayer = function.variantLayer ∧
      candidate.contract = function.contract)
    (h : historicalLayout function intervals selected spans = .ok layout) :
    ∀ candidate ∈ layout, candidate.variantLayer = function.variantLayer ∧
      candidate.contract = function.contract := by
  induction spans generalizing selected with
  | nil =>
    cases h
    exact hsel
  | cons span rest ih =>
    rw [historicalLayout] at h
    split at h
    · exact ih hsel h
    obtain ⟨_, _, h⟩ := except_bind_ok h
    obtain ⟨_, _, h⟩ := except_bind_ok h
    refine ih ?_ h
    rintro candidate ⟨⟩
    refine ⟨rfl, ?_⟩
    simp only [contract, functionRequestSignature, projectFunction,
      eraseVariants_annotate, eraseVariants_annotateParameters]

theorem addHistorical_ok {baseLayer maxLayer : Int} {functions next : List FuncDecl}
    (h : addHistorical baseLayer maxLayer spans functions function = .ok next) : (function.variantLayer = 0 ∨
        intersectIntervals function.acceptIntervals baseLayer maxLayer = []) ∧ next = functions ∨
      function.variantLayer ≠ 0 ∧ ∃ entry : FuncDecl, next = functions ++ [entry] ∧
        entry.intervals = intersectIntervals function.acceptIntervals baseLayer maxLayer ∧
        entry.variantLayer = function.variantLayer ∧ entry.contract = function.contract := by
  unfold addHistorical at h
  by_cases hz : function.variantLayer = 0
  · rw [if_pos hz] at h
    cases h
    exact .inl ⟨.inl hz, rfl⟩
  rw [if_neg hz] at h
  by_cases hemp : intersectIntervals function.acceptIntervals baseLayer maxLayer = []
  · simp only [hemp, isEmpty_nil, ↓reduceIte] at h
    cases h
    exact .inl ⟨.inr hemp, rfl⟩
  simp only [List.isEmpty_iff, hemp, ↓reduceIte] at h
  obtain ⟨layout, hlay, h⟩ := except_bind_ok h
  obtain ⟨_, _, h⟩ := except_bind_ok h
  cases h
  refine .inr ⟨hz, _, rfl, rfl, ?_⟩
  have hcan := historicalLayout_contract
    (fun _ hm => absurd hm (Option.not_mem_none _)) hlay
  cases layout with
  | none => exact ⟨rfl, rfl⟩
  | some candidate => exact hcan candidate rfl

theorem addHistoricals_ok {baseLayer maxLayer : Int} {declared functions result : List FuncDecl}
    (hwi : ∀ function ∈ declared, function.variantLayer ≠ 0 →
      intersectIntervals function.acceptIntervals baseLayer maxLayer = function.acceptIntervals)
    (h : declared.foldlM (addHistorical baseLayer maxLayer spans) functions = .ok result) :
    ∃ historical, result = functions ++ historical ∧
      (∀ entry ∈ historical, ∃ function ∈ declared, function.variantLayer ≠ 0 ∧
        entry.intervals = function.acceptIntervals) ∧
      ∀ layer, (functionsAt historical layer).map (fun f => (f.variantLayer, f.contract)) =
        (declared.filter fun f => f.variantLayer ≠ 0 &&
          intervalsSupport f.acceptIntervals layer).map (fun f => (f.variantLayer, f.contract)) := by
  induction declared generalizing functions with
  | nil =>
    cases h
    exact ⟨[], (append_nil _).symm, nofun, fun _ => rfl⟩
  | cons function rest ih =>
    rw [foldlM_cons] at h
    obtain ⟨next, hnx, h⟩ := except_bind_ok h
    obtain ⟨historical, hres, hent, hacc⟩ :=
      ih (fun f hf => hwi f (mem_cons_of_mem _ hf)) h
    rcases addHistorical_ok hnx with ⟨hsk, rfl⟩ | ⟨hnon, entry, rfl, hint, hvar, hctr⟩
    · refine ⟨historical, hres, ?_, fun layer => ?_⟩
      · intro entry hm
        obtain ⟨source, hs, hen⟩ := hent entry hm
        exact ⟨source, mem_cons_of_mem _ hs, hen⟩
      · -- a function that is skipped is canonical or accepts no layer
        have hout : (function.variantLayer ≠ 0 &&
            intervalsSupport function.acceptIntervals layer) = false := by
          by_cases hz : function.variantLayer = 0
          · simp [hz]
          have hemp := hsk.resolve_left hz
          rw [hwi function (mem_cons_self ..) hz] at hemp
          simp [hemp]
        rw [hacc layer, filter_cons_of_neg (by rw [hout]; exact Bool.false_ne_true)]
    · rw [hwi function (mem_cons_self ..) hnon] at hint
      refine ⟨entry :: historical, by rw [hres, append_assoc]; rfl, ?_, fun layer => ?_⟩
      · intro other hm
        rcases mem_cons.mp hm with rfl | hm
        · exact ⟨function, mem_cons_self .., hnon, hint⟩
        · obtain ⟨source, hs, hen⟩ := hent other hm
          exact ⟨source, mem_cons_of_mem _ hs, hen⟩
      · have hlat := hacc layer
        unfold functionsAt at hlat ⊢
        by_cases hsup : intervalsSupport function.acceptIntervals layer = true
        · rw [filter_cons_of_pos (by rw [hint, hsup]),
            filter_cons_of_pos (by simp [hnon, hsup]), map_cons, map_cons,
            hlat, hvar, hctr]
        · rw [filter_cons_of_neg (by rw [hint]; exact hsup), filter_cons_of_neg (by simp [hsup]), hlat]

theorem functionsAt_setRequests (requests : FuncDecl → List LayerInterval)
    (functions : List FuncDecl) (layer : Int) :
    functionsAt (functions.map fun f => { f with requestIntervals := requests f }) layer =
      (functionsAt functions layer).map fun f => { f with requestIntervals := requests f } := by
  rw [functionsAt, filter_map]
  rfl

variable {functions : List FuncDecl}

theorem FunctionsFaithful.setRequests {base : Schema} {baseLayer : Int} {differences : List LayerDifference}
    (h : FunctionsFaithful base baseLayer differences functions)
    (requests : FuncDecl → List LayerInterval) : FunctionsFaithful base baseLayer differences
      (functions.map fun f => { f with requestIntervals := requests f }) where
  snapshot layer snapshot hin := by
    rw [functionsAt_setRequests, map_map]
    exact h.snapshot layer snapshot hin
  normalised entry hm := by
    obtain ⟨source, hs, rfl⟩ := mem_map.mp hm
    exact h.normalised source hs
  first layer snapshot hin declared hdc hcan hnew entry hent hnm := by
    rw [functionsAt_setRequests] at hent
    obtain ⟨source, hs, rfl⟩ := mem_map.mp hent
    exact h.first layer snapshot hin declared hdc hcan hnew source hs hnm
  variants layer snapshot hin layer' snapshot' hin' a ha b hb haze hbze hnm entry hent
      hen entry' hent' hen' wire wire' hwr hwr' := by
    rw [functionsAt_setRequests] at hent hent'
    obtain ⟨source, hs, rfl⟩ := mem_map.mp hent
    obtain ⟨source', hs', rfl⟩ := mem_map.mp hent'
    exact h.variants layer snapshot hin layer' snapshot' hin' a ha b hb haze hbze hnm source
      hs hen source' hs' hen' wire wire' hwr hwr'
  wired := h.wired

theorem HistoricalFaithful.setRequests {base : Schema}
    (h : HistoricalFaithful base functions) (requests : FuncDecl → List LayerInterval) :
    HistoricalFaithful base (functions.map fun f => { f with requestIntervals := requests f }) where
  accepted layer := by
    rw [functionsAt_setRequests, map_map]
    exact h.accepted layer
  normalised entry hm := by
    obtain ⟨source, hs, rfl⟩ := mem_map.mp hm
    exact h.normalised source hs

theorem sharedIntervals_support {layer : Int} :
    intervalsSupport (sharedIntervals functions function) layer = true ↔
      ∃ other ∈ functions, other.name = function.name ∧
        other.requestVariantLayer = function.requestVariantLayer ∧
        intervalsSupport other.intervals layer = true := by
  rw [intervalsSupport_iff]
  constructor
  · rintro ⟨interval, hm, hlayer⟩
    obtain ⟨other, hother, hm⟩ := mem_flatMap.mp hm
    obtain ⟨hother, hshr⟩ := mem_filter.mp hother
    have hshr : other.name = function.name ∧
        other.requestVariantLayer = function.requestVariantLayer := by simpa using hshr
    exact ⟨other, hother, hshr.1, hshr.2, intervalsSupport_iff.mpr ⟨interval, hm, hlayer⟩⟩
  · rintro ⟨other, hother, hnm, hvar, hlayer⟩
    obtain ⟨interval, hm, hlayer⟩ := intervalsSupport_iff.mp hlayer
    have hshr : other ∈ functions.filter fun other => other.name = function.name &&
        other.requestVariantLayer = function.requestVariantLayer :=
      mem_filter.mpr ⟨hother, by simp [hnm, hvar]⟩
    exact ⟨interval, mem_flatMap.mpr ⟨other, hshr, hm⟩, hlayer⟩

theorem setRequestIntervals_faithful (h : ∀ function ∈ functions, Normalised function.intervals) :
    RequestsFaithful (setRequestIntervals functions) := by
  have hsp : ∀ function, Normalised (normalizeIntervals (sharedIntervals functions function)) ∧
      ∀ layer, intervalsSupport (normalizeIntervals (sharedIntervals functions function)) layer =
        intervalsSupport (sharedIntervals functions function) layer := by
    intro function
    refine normalizeIntervals_spec fun interval hm => ?_
    obtain ⟨other, hother, hm⟩ := mem_flatMap.mp hm
    exact (h other (mem_of_mem_filter hother)).nonempty interval hm
  refine ⟨fun function hm => ?_, fun function hm layer => ?_⟩
  · obtain ⟨source, _, rfl⟩ := mem_map.mp hm
    exact (hsp source).1
  · obtain ⟨source, _, rfl⟩ := mem_map.mp hm
    rw [(hsp source).2 layer, sharedIntervals_support]
    constructor
    · rintro ⟨other, hother, hshr⟩
      exact ⟨_, mem_map_of_mem hother, hshr⟩
    · rintro ⟨other, hother, hshr⟩
      obtain ⟨source', hs', rfl⟩ := mem_map.mp hother
      exact ⟨source', hs', hshr⟩

def userType : TypeRef := .plain { name := "User" }

def intParameter (name : String) : Parameter := ⟨name, .plain { name := "int" }, none⟩

def userSchema (accepted : List LayerInterval) : Schema :=
  rebuildSchema 1
    [{ name := "user", id := 1, params := [intParameter "id"], resultType := userType }]
    [{ name := "getUser", id := 9, resultType := userType },
      { name := "getUser", id := 10, resultType := userType, variantLayer := 1,
        requestVariantLayer := 1, acceptIntervals := accepted }]

def userDifferences : List LayerDifference :=
  let longer : Constructor :=
    { name := "user", id := 2, params := [intParameter "id", intParameter "age"],
      resultType := userType }
  let shorter : Constructor :=
    { name := "user", id := 1, params := [intParameter "id"], resultType := userType }
  [{ layer := 2, schema := some (rebuildSchema 2 [longer] []) },
    { layer := 5, schema := some (rebuildSchema 5 [shorter] []), removeFunctions := ["getUser"] }]

end Tlrpc
