import Tlrpc.ResolveLayers

namespace Tlrpc

open List

structure TakenSnapshot where
  layer : Int
  snapshot : Schema
  signatures : List (String × SemanticKey)
  versions : TypeVersions
  constructors : List Constructor
  requests : List FuncDecl
  functions : List FuncDecl

namespace TakenSnapshot

variable (taken : TakenSnapshot)

def canonical : List FuncDecl := taken.snapshot.functions.filter (·.variantLayer = 0)

def constructorSignature (constructor : Constructor) : ConstructorSignature :=
  constructorContractSignature (projectConstructor taken.versions constructor)

def requestSignature (function : FuncDecl) : RequestSignature :=
  functionRequestSignature (projectFunction taken.versions function)

def typeBatch : Int × List (String × SemanticKey) := (taken.layer, taken.signatures)

def constructorBatch : Int × List (String × ConstructorSignature) :=
  (taken.layer, taken.snapshot.constructors.map fun constructor =>
    (constructor.name, taken.constructorSignature constructor))

def requestBatch : Int × List (String × RequestSignature) :=
  (taken.layer, taken.canonical.map fun function =>
    (function.name, taken.requestSignature function))

def handlerBatch : Int × List (String × HandlerSignature) :=
  (taken.layer, taken.requests.map fun function =>
    (function.name, ⟨function.requestVariantLayer, function.resultType⟩))

structure Matches (state : Combination) : Prop where
  typeNames : taken.signatures.map Prod.fst = taken.snapshot.types.map (·.name)
  signature : ∀ family ∈ taken.signatures,
    resolvedTypeContractSignature taken.snapshot taken.layer family.1 = .ok family.2
  versions : taken.versions = taken.signatures.map fun family =>
    (family.1, variantOf state.typeVariants family.1 family.2)
  constructors : taken.constructors = taken.snapshot.constructors.map fun constructor =>
    { projectConstructor taken.versions constructor with
      variantLayer := variantOf state.constructorVariants constructor.name
        (taken.constructorSignature constructor) }
  requests : taken.requests = taken.canonical.map fun function =>
    { projectFunction taken.versions function with
      requestVariantLayer := variantOf state.requestVariants function.name
        (taken.requestSignature function) }
  functions : taken.functions = taken.requests.map fun function =>
    { function with
      variantLayer := variantOf state.handlerVariants function.name
        ⟨function.requestVariantLayer, function.resultType⟩ }

end TakenSnapshot

structure Combined (taken : List TakenSnapshot) (state : Combination) : Prop where
  typeNumbers : Numbers (taken.map (·.typeBatch)) state.typeVariants
  constructorNumbers : Numbers (taken.map (·.constructorBatch)) state.constructorVariants
  requestNumbers : Numbers (taken.map (·.requestBatch)) state.requestVariants
  handlerNumbers : Numbers (taken.map (·.handlerBatch)) state.handlerVariants
  constructors : Timeline.Recorded (taken.map fun t => (t.layer, t.constructors))
    state.constructors
  functions : Timeline.Recorded (taken.map fun t => (t.layer, t.functions)) state.functions
  versions : state.versionsBySnapshot = taken.map (·.versions)
  numbered : ∀ t ∈ taken, t.Matches state

theorem Combined.nil : Combined [] {} :=
  ⟨.nil, .nil, .nil, .nil, .nil, .nil, rfl, nofun⟩

structure WellFormedSnapshot (snapshot : Schema) : Prop where
  unambiguous : Unambiguous snapshot.constructors snapshot.functions
  typeNames : (snapshot.types.map (·.name)).Nodup

theorem zipWith_map_map {α β γ δ : Type} (f : β → γ → δ) (g : α → β) (h : α → γ) (l : List α) :
    List.zipWith f (l.map g) (l.map h) = l.map fun a => f (g a) (h a) := by
  induction l with
  | nil => rfl
  | cons a rest ih => simp only [map_cons, zipWith_cons_cons, ih]

variable {taken : List TakenSnapshot}

theorem TakenSnapshot.Matches.mono {state next : Combination}
    (h : Combined taken state) (htys : state.typeVariants <+: next.typeVariants)
    (hcto : state.constructorVariants <+: next.constructorVariants)
    (hreq : state.requestVariants <+: next.requestVariants)
    (hhan : state.handlerVariants <+: next.handlerVariants) : ∀ t ∈ taken, t.Matches next := by
  intro t ht
  have hold := h.numbered t ht
  refine ⟨hold.typeNames, hold.signature, ?_, ?_, ?_, ?_⟩
  · refine hold.versions.trans (map_congr_left fun family hf => ?_)
    rw [variantOf_mono (h.typeNumbers.known _ (mem_map_of_mem ht) family hf) htys]
  · refine hold.constructors.trans (map_congr_left fun constructor hc => ?_)
    rw [variantOf_mono (h.constructorNumbers.known _ (mem_map_of_mem ht) _ (mem_map_of_mem hc)) hcto]
  · refine hold.requests.trans (map_congr_left fun function hf => ?_)
    rw [variantOf_mono (h.requestNumbers.known _ (mem_map_of_mem ht) _ (mem_map_of_mem hf)) hreq]
  · refine hold.functions.trans (map_congr_left fun function hf => ?_)
    rw [variantOf_mono (h.handlerNumbers.known _ (mem_map_of_mem ht) _ (mem_map_of_mem hf)) hhan]

variable {signatures : List (String × SemanticKey)} {functions : List FuncDecl}
  {snapshots : List (Int × Schema)} {differences : List LayerDifference}

theorem typeSignatures_ok {snapshot : Schema} {layer : Int} {declarations : List TypeDecl}
    (h : (declarations.mapM fun declaration => do
      let signature ← resolvedTypeContractSignature snapshot layer declaration.name
      return (declaration.name, signature)) = Except.ok signatures) :
    signatures.map Prod.fst = declarations.map (·.name) ∧ ∀ family ∈ signatures,
      resolvedTypeContractSignature snapshot layer family.1 = .ok family.2 := by
  have hprs := except_mapM_ok h
  clear h
  induction hprs with
  | nil => exact ⟨rfl, nofun⟩
  | cons hfst _ ih =>
    obtain ⟨hnms, hsig⟩ := ih
    obtain ⟨signature, hsg, hpr⟩ := except_bind_ok hfst
    cases hpr
    refine ⟨by rw [map_cons, map_cons, hnms], fun family hm => ?_⟩
    rcases mem_cons.mp hm with rfl | hm
    · exact hsg
    · exact hsig family hm

theorem numbered_eq {α β σ : Type} [DecidableEq σ] {items : List α} (project : α → β)
    (key : β → String × σ) (set : β → Int → β)
    {number : List (String × σ) → List (NumberedContract σ) × List Int}
    {declarations : List (String × σ)} (hdec : declarations = items.map fun a => key (project a))
    (h : (number declarations).2 = declarations.map fun declaration =>
      variantOf (number declarations).1 declaration.1 declaration.2) :
    ((number ((items.map project).map key)).1,
      zipWith set (items.map project) (number ((items.map project).map key)).2) =
      ((number declarations).1, items.map fun a =>
        set (project a) (variantOf (number declarations).1 (key (project a)).1 (key (project a)).2)) := by
  have hpro : (items.map project).map key = declarations := by
    rw [hdec, map_map]
    rfl
  rw [hpro, h, hdec, map_map, zipWith_map_map]
  rfl

theorem Combined.takeSnapshot {state : Combination} {layer : Int}
    {snapshot : Schema} (h : Combined taken state)
    (hsn : WellFormedSnapshot snapshot) (hps : 0 < layer) (hbl : ∀ t ∈ taken, t.layer < layer)
    (hnms : signatures.map Prod.fst = snapshot.types.map (·.name)) (hsig : ∀ family ∈ signatures,
      resolvedTypeContractSignature snapshot layer family.1 = .ok family.2) :
    ∃ t : TakenSnapshot, t.layer = layer ∧ t.snapshot = snapshot ∧
      Combined (taken ++ [t]) (state.takeSnapshot layer snapshot signatures) := by
  have hbat : ∀ {σ : Type} (batch : TakenSnapshot → Int × List (String × σ)),
      (∀ t, (batch t).1 = t.layer) → ∀ b ∈ taken.map batch, b.1 < layer := by
    intro σ batch hlayer b hb
    obtain ⟨t, ht, rfl⟩ := mem_map.mp hb
    exact hlayer t ▸ hbl t ht
  obtain ⟨htys, htyp, hty⟩ := h.typeNumbers.add hps
    (hbat _ fun _ => rfl) signatures (hnms ▸ hsn.typeNames)
  unfold Combination.takeSnapshot
  dsimp only
  generalize hversions : List.zip (snapshot.types.map (·.name))
    (contractVariantLayers layer state.typeVariants signatures).2 = versions
  rw [hty, ← hnms, List.zip, zipWith_map_map] at hversions
  -- the constructors and the requests, under the versions
  have hcon : ((snapshot.constructors.map fun constructor => (constructor.name,
      constructorContractSignature (projectConstructor versions constructor))).map
        Prod.fst).Nodup := by
    rw [map_map]
    exact hsn.unambiguous.constructorNames
  obtain ⟨hcto, hcn, hcns⟩ :=
    h.constructorNumbers.add hps (hbat _ fun _ => rfl) _ hcon
  have hcan : (((snapshot.functions.filter (·.variantLayer = 0)).map fun function =>
      (function.name, functionRequestSignature (projectFunction versions function))).map
        Prod.fst).Nodup := by
    rw [map_map]
    exact hsn.unambiguous.functionNames
  obtain ⟨hreq, hre, hrqs⟩ :=
    h.requestNumbers.add hps (hbat _ fun _ => rfl) _ hcan
  have hct : numberConstructors .. = _ := numbered_eq (projectConstructor versions)
    (fun c => (c.name, constructorContractSignature c)) (fun c n => { c with variantLayer := n })
    rfl hcns
  have hrq : numberRequests .. = _ := numbered_eq (projectFunction versions)
    (fun f => (f.name, functionRequestSignature f)) (fun f n => { f with requestVariantLayer := n })
    rfl hrqs
  refine ⟨⟨layer, snapshot, signatures, versions,
    (numberConstructors layer versions state.constructorVariants snapshot.constructors).2,
    (numberRequests layer versions state.requestVariants
      (snapshot.functions.filter (·.variantLayer = 0))).2,
    (numberHandlers layer state.handlerVariants (numberRequests layer versions
      state.requestVariants (snapshot.functions.filter (·.variantLayer = 0))).2).2⟩, rfl, rfl, ?_⟩
  rw [hct, congrArg Prod.fst hrq]
  -- the handlers, under the requests
  generalize (numberRequests layer versions state.requestVariants
    (snapshot.functions.filter (·.variantLayer = 0))) = numbered at hrq
  obtain ⟨_, requests⟩ := numbered
  have hrq := congrArg Prod.snd hrq
  dsimp only at hrq ⊢
  have hhn : ((requests.map fun function => (function.name,
      (⟨function.requestVariantLayer, function.resultType⟩ : HandlerSignature))).map
        Prod.fst).Nodup := by
    rw [map_map, hrq, map_map]
    exact hsn.unambiguous.functionNames
  obtain ⟨hhan, hhnd, hhl⟩ :=
    h.handlerNumbers.add hps (hbat _ fun _ => rfl) _ hhn
  have hhd := numbered_eq id (fun f : FuncDecl => (f.name, HandlerSignature.mk f.requestVariantLayer
    f.resultType)) (fun f n => { f with variantLayer := n }) rfl hhl
  rw [map_id] at hhd
  rw [show numberHandlers layer state.handlerVariants requests = _ from hhd]
  refine ⟨?_, ?_, ?_, ?_, ?_, ?_, ?_, ?_⟩
  · rw [map_append]
    exact htys
  · rw [map_append]
    exact hcto
  · rw [map_append]
    exact hreq
  · rw [map_append]
    exact hhan
  · rw [map_append]
    refine h.constructors.snapshot layer (List.Nodup.of_map Prod.fst ?_)
    rw [map_map, map_map]
    exact hsn.unambiguous.constructorNames
  · rw [map_append]
    refine h.functions.snapshot layer (List.Nodup.of_map Prod.fst ?_)
    rw [map_map, map_map, hrq, map_map]
    exact hsn.unambiguous.functionNames
  · rw [map_append, ← h.versions]
    rfl
  · intro other ho
    rcases mem_append.mp ho with ho | ho
    · exact TakenSnapshot.Matches.mono h htyp hcn hre hhnd other ho
    · cases mem_singleton.mp ho
      exact ⟨hnms, hsig, hversions.symm, rfl, hrq, rfl⟩

theorem Combined.addSnapshots {state last : Combination} (h : Combined taken state)
    (hsna : ∀ s ∈ snapshots, WellFormedSnapshot s.2 ∧ 0 < s.1)
    (increasing : (taken.map (·.layer) ++ snapshots.map Prod.fst).Pairwise (· < ·))
    (hadd : state.addSnapshots snapshots = .ok last) :
    ∃ more : List TakenSnapshot, more.map (fun t => (t.layer, t.snapshot)) = snapshots ∧
      Combined (taken ++ more) last := by
  induction snapshots generalizing taken state with
  | nil =>
    cases hadd
    exact ⟨[], rfl, by simpa using h⟩
  | cons first rest ih =>
    obtain ⟨layer, snapshot⟩ := first
    obtain ⟨next, hfst, hrs⟩ := except_bind_ok hadd
    obtain ⟨signatures, hsig, hnx⟩ := except_bind_ok hfst
    cases hnx
    obtain ⟨hnms, hsg⟩ := typeSignatures_ok hsig
    obtain ⟨hwl, hps⟩ := hsna _ (mem_cons_self ..)
    have hbl : ∀ t ∈ taken, t.layer < layer := fun t ht =>
      (pairwise_append.mp increasing).2.2 t.layer (mem_map_of_mem ht) layer
        (mem_cons_self ..)
    obtain ⟨t, rfl, rfl, hcom⟩ := h.takeSnapshot hwl hps hbl hnms hsg
    obtain ⟨more, hmr, hla⟩ := ih hcom
      (fun s hs => hsna s (mem_cons_of_mem _ hs)) (by simpa using increasing) hrs
    exact ⟨t :: more, by rw [map_cons, hmr], by simpa using hla⟩

section

variable {taken : List TakenSnapshot} {state : Combination} (h : Combined taken state)
  {t other : TakenSnapshot} (ht : t ∈ taken) (hother : other ∈ taken)
include h ht hother

theorem Combined.constructor_variant {a b : Constructor} (ha : a ∈ t.snapshot.constructors)
    (hb : b ∈ other.snapshot.constructors) (hnm : a.name = b.name) :
    variantOf state.constructorVariants a.name (t.constructorSignature a) =
        variantOf state.constructorVariants b.name (other.constructorSignature b) ↔
      t.constructorSignature a = other.constructorSignature b := by
  have hkn := h.constructorNumbers.known _ (mem_map_of_mem ht) _ (mem_map_of_mem ha)
  have hkno :=
    h.constructorNumbers.known _ (mem_map_of_mem hother) _ (mem_map_of_mem hb)
  rw [← hnm] at hkno ⊢
  exact h.constructorNumbers.numbering.variantOf_inj hkn hkno

theorem Combined.request_variant {a b : FuncDecl} (ha : a ∈ t.canonical) (hb : b ∈ other.canonical)
    (hnm : a.name = b.name) : variantOf state.requestVariants a.name (t.requestSignature a) =
        variantOf state.requestVariants b.name (other.requestSignature b) ↔
      t.requestSignature a = other.requestSignature b := by
  have hkn := h.requestNumbers.known _ (mem_map_of_mem ht) _ (mem_map_of_mem ha)
  have hkno :=
    h.requestNumbers.known _ (mem_map_of_mem hother) _ (mem_map_of_mem hb)
  rw [← hnm] at hkno ⊢
  exact h.requestNumbers.numbering.variantOf_inj hkn hkno

theorem Combined.handler_variant {a b : FuncDecl} (ha : a ∈ t.requests) (hb : b ∈ other.requests)
    (hnm : a.name = b.name) : variantOf state.handlerVariants a.name ⟨a.requestVariantLayer, a.resultType⟩ =
        variantOf state.handlerVariants b.name ⟨b.requestVariantLayer, b.resultType⟩ ↔
      a.requestVariantLayer = b.requestVariantLayer ∧ a.resultType = b.resultType := by
  have hkn := h.handlerNumbers.known _ (mem_map_of_mem ht) _ (mem_map_of_mem ha)
  have hkno :=
    h.handlerNumbers.known _ (mem_map_of_mem hother) _ (mem_map_of_mem hb)
  rw [← hnm] at hkno ⊢
  rw [h.handlerNumbers.numbering.variantOf_inj hkn hkno, HandlerSignature.mk.injEq]

theorem Combined.constructor_contract {a b : Constructor} (ha : a ∈ t.constructors)
    (hb : b ∈ other.constructors) (hkey : variantKey a = variantKey b) :
    constructorContractSignature a = constructorContractSignature b := by
  rw [(h.numbered t ht).constructors] at ha
  rw [(h.numbered other hother).constructors] at hb
  obtain ⟨source, hs, rfl⟩ := mem_map.mp ha
  obtain ⟨source', hs', rfl⟩ := mem_map.mp hb
  obtain ⟨hnm, hvar⟩ := Prod.mk.inj hkey
  exact (h.constructor_variant ht hother hs hs' hnm).mp hvar

theorem Combined.function_contract {a b : FuncDecl} (ha : a ∈ t.functions)
    (hb : b ∈ other.functions) (hkey : variantKey a = variantKey b) :
    functionRequestSignature a = functionRequestSignature b ∧ a.resultType = b.resultType := by
  rw [(h.numbered t ht).functions] at ha
  rw [(h.numbered other hother).functions] at hb
  obtain ⟨request, hr, rfl⟩ := mem_map.mp ha
  obtain ⟨request', hr', rfl⟩ := mem_map.mp hb
  obtain ⟨hnm, hvar⟩ := Prod.mk.inj hkey
  obtain ⟨hnum, hres⟩ := (h.handler_variant ht hother hr hr' hnm).mp hvar
  refine ⟨?_, hres⟩
  rw [(h.numbered t ht).requests] at hr
  rw [(h.numbered other hother).requests] at hr'
  obtain ⟨source, hs, rfl⟩ := mem_map.mp hr
  obtain ⟨source', hs', rfl⟩ := mem_map.mp hr'
  exact (h.request_variant ht hother hs hs' hnm).mp hnum

end

/-- What `ResolveLayers` has gone through when it returns a layered schema. -/
structure ResolvedBy (base : Schema) (baseLayer : Int) (differences : List LayerDifference)
    (layered : LayeredSchema) (taken : List TakenSnapshot) (state : Combination)
    (functions : List FuncDecl) : Prop where
  positive : 0 < baseLayer
  increasing : (suppliedLayers baseLayer differences).Pairwise (· < ·)
  layers : taken.map (·.layer) = suppliedLayers baseLayer differences
  resolved : ∀ t ∈ taken,
    resolveLayer (snapshotBase base) baseLayer t.layer differences = .ok t.snapshot
  bareLayouts : ∀ t ∈ taken, validateBareLayouts t.snapshot = .ok ()
  combined : Combined taken state
  within : ∀ function ∈ base.functions, function.variantLayer ≠ 0 →
    ∀ interval ∈ function.acceptIntervals, baseLayer ≤ interval.minLayer ∧
      interval.maxLayer ≤ lastLayer baseLayer differences
  historical : base.functions.foldlM
    (addHistorical baseLayer (lastLayer baseLayer differences)
      (snapshotSpans (lastLayer baseLayer differences)
        (taken.map fun t => (t.layer, t.snapshot)) state.versionsBySnapshot))
    state.functions.entries = .ok functions
  constructors : layered.schema.constructors = state.constructors.entries
  functions : layered.schema.functions = setRequestIntervals functions
  disjoint : validateLayeredIntervals layered.schema = .ok ()

theorem resolveSnapshots_ok {base : Schema} {baseLayer : Int}
    (h : resolveSnapshots base baseLayer differences = .ok snapshots) :
    snapshots.map Prod.fst = suppliedLayers baseLayer differences ∧ ∀ s ∈ snapshots,
      resolveLayer (snapshotBase base) baseLayer s.1 differences = .ok s.2 ∧
        validateBareLayouts s.2 = .ok () := by
  have hprs := except_mapM_ok h
  clear h
  generalize suppliedLayers baseLayer differences = layers at hprs ⊢
  induction hprs with
  | nil => exact ⟨rfl, nofun⟩
  | cons hfst _ ih =>
    obtain ⟨snapshot, hsn, hfst⟩ := except_bind_ok hfst
    obtain ⟨_, hlay, hfst⟩ := except_bind_ok hfst
    cases hfst
    obtain ⟨hnms, hrs⟩ := ih
    refine ⟨by rw [map_cons, hnms], fun s hs => ?_⟩
    rcases mem_cons.mp hs with rfl | hs
    · exact ⟨hsn, hlay⟩
    · exact hrs s hs

theorem resolveLayers_ok {base : Schema} {baseLayer : Int}
    {layered : LayeredSchema} (h : resolveLayers base baseLayer differences = .ok layered) :
    ∃ taken state functions, ResolvedBy base baseLayer differences layered taken state functions := by
  obtain ⟨_, hwi, h⟩ := except_bind_ok h
  obtain ⟨final, hfin, h⟩ := except_bind_ok h
  obtain ⟨snapshots, hsna, h⟩ := except_bind_ok h
  obtain ⟨_, _, h⟩ := except_bind_ok h
  obtain ⟨state, hsta, h⟩ := except_bind_ok h
  obtain ⟨functions, hfn, h⟩ := except_bind_ok h
  obtain ⟨_, hdis, h⟩ := except_bind_ok h
  cases h
  obtain ⟨hps, hinc, _, _⟩ := resolveLayer_ok hfin
  obtain ⟨hnms, hres⟩ := resolveSnapshots_ok hsna
  have hwl : ∀ s ∈ snapshots, WellFormedSnapshot s.2 ∧ 0 < s.1 := by
    intro s hs
    obtain ⟨_, _, huna, hrebuilt⟩ := resolveLayer_ok (hres s hs).1
    refine ⟨⟨huna, ?_⟩, ?_⟩
    · rw [hrebuilt]
      exact (rebuildSchema_typeNames _ _ _).1
    · have hmem : s.1 ∈ suppliedLayers baseLayer differences := hnms ▸ mem_map_of_mem hs
      rcases mem_cons.mp hmem with heq | hmem
      · exact heq ▸ hps
      · exact hps.trans ((pairwise_cons.mp hinc).1 _ hmem)
  have hst : (([] : List TakenSnapshot).map (·.layer) ++ snapshots.map Prod.fst).Pairwise
      (· < ·) := by
    rw [hnms]
    exact hinc
  obtain ⟨taken, htk, hcom⟩ := Combined.nil.addSnapshots hwl hst hsta
  rw [nil_append] at hcom
  refine ⟨taken, state, functions, hps, hinc, ?_, ?_, ?_, hcom, ?_, ?_, rfl, rfl, hdis⟩
  · rw [← hnms, ← htk, map_map]
    rfl
  · intro t ht
    exact (hres (t.layer, t.snapshot) (htk ▸ mem_map_of_mem ht)).1
  · intro t ht
    exact (hres (t.layer, t.snapshot) (htk ▸ mem_map_of_mem ht)).2
  · intro function hf hvar interval hi
    have hfun := except_forM_ok hwi function
      (mem_filter.mpr ⟨hf, by simpa using hvar⟩)
    have hint := ensure_ok (except_forM_ok hfun interval hi)
    simpa using hint
  · rw [htk]
    exact hfn

end Tlrpc
