import Tlrpc.SnapshotRun

namespace Tlrpc

open List

structure WireParameter where
  name : String
  type : ResolvedTypeRef
  flagBit : Option Nat
deriving DecidableEq

/-- A constructor on the wire of one snapshot, its bare families laid out. -/
structure WireConstructor where
  name : String
  id : UInt32
  genericParams : List GenericParam
  params : List WireParameter
  resultType : ResolvedTypeRef
  isBare : Bool
  vectorCount : String
deriving DecidableEq

structure WireFunction where
  name : String
  id : UInt32
  genericParams : List GenericParam
  params : List WireParameter
  resultType : ResolvedTypeRef
  isTemplate : Bool
  isHelper : Bool
deriving DecidableEq

def wireParameter (contract : String → Except LayerError SemanticKey) (param : Parameter) :
    Except LayerError WireParameter := do
  let type ← resolvedSemanticReference contract param.type
  return ⟨param.name, type, param.flagBit⟩

def familyContract (snapshot : Schema) : String → Except LayerError SemanticKey :=
  resolvedTypeContractSignature snapshot snapshot.layer

def wireConstructor (snapshot : Schema) (constructor : Constructor) :
    Except LayerError WireConstructor := do
  let params ← constructor.params.mapM (wireParameter (familyContract snapshot))
  let resultType ← resolvedSemanticReference (familyContract snapshot) constructor.resultType
  return ⟨constructor.name, constructor.id, constructor.genericParams, params, resultType,
    constructor.isBare, stringValue constructor.vectorCount⟩

def wireFunction (snapshot : Schema) (function : FuncDecl) : Except LayerError WireFunction := do
  let params ← function.params.mapM (wireParameter (familyContract snapshot))
  let resultType ← resolvedSemanticReference (familyContract snapshot) function.resultType
  return ⟨function.name, function.id, function.genericParams, params, resultType,
    function.isTemplate, function.isHelper⟩

def TypeHead.Unversioned (head : TypeHead) : Prop :=
  head.isBare = true → head.isBareReference = false → head.variantLayer = 0

def TypeRef.Unversioned : TypeRef → Prop
  | .plain head => head.Unversioned
  | .generic head element => head.Unversioned ∧ element.Unversioned

def TypeRef.Vectors : TypeRef → Prop
  | .plain _ => True
  | .generic head element =>
    head.isVector = true ∧ head.isBareReference = false ∧ element.Vectors

def Versioned (all : List (NumberedContract SemanticKey)) (versions : TypeVersions)
    (contract : String → Except LayerError SemanticKey) : Prop :=
  ∀ family signature, contract family = .ok signature →
    Known all family signature ∧ versions.version family = variantOf all family signature

variable {reference : TypeRef} {signature : SemanticKey}

section

variable {all : List (NumberedContract SemanticKey)} (numbering : Numbering all)
  {versions other : TypeVersions} {contract contract' : String → Except LayerError SemanticKey}
  (hversions : Versioned all versions contract) (hother : Versioned all other contract')
include numbering hversions hother

theorem annotateHead_eq_iff {head head' : TypeHead} {bare bare' : Option SemanticKey}
    (hbr : bareContractOf contract head = .ok bare) (hbr' : bareContractOf contract' head' = .ok bare')
    (hpln : head.Unversioned) (hpln' : head'.Unversioned) :
    annotateHead versions head = annotateHead other head' ↔
      { head with variantLayer := 0 } = { head' with variantLayer := 0 } ∧ bare = bare' := by
  have her : ∀ v h, { annotateHead v h with variantLayer := 0 } = { h with variantLayer := 0 } := by
    intro v h
    unfold annotateHead
    split
    · rfl
    · split <;> rfl
  -- heads that agree up to the variant have the same kind and name the same family
  have hsm : { head with variantLayer := 0 } = { head' with variantLayer := 0 } →
      head.isBareReference = head'.isBareReference ∧ head.isBare = head'.isBare ∧
        head.fullName = head'.fullName := by
    intro heq
    have hkd := congrArg TypeHead.isBareReference heq
    have hisb := congrArg TypeHead.isBare heq
    have hfl := congrArg TypeHead.fullName heq
    exact ⟨hkd, hisb, hfl⟩
  have hvar : { head with variantLayer := 0 } = { head' with variantLayer := 0 } →
      (annotateHead versions head = annotateHead other head' ↔
        (annotateHead versions head).variantLayer = (annotateHead other head').variantLayer) := by
    intro heq
    refine ⟨fun h => congrArg _ h, fun h => ?_⟩
    have hlf := her versions head
    have hrig := her other head'
    rw [heq, ← hrig] at hlf
    cases hl : annotateHead versions head
    cases hr : annotateHead other head'
    rw [hl, hr] at h hlf
    simp only [TypeHead.mk.injEq] at hlf h ⊢
    simp_all
  by_cases heq : { head with variantLayer := 0 } = { head' with variantLayer := 0 }
  · obtain ⟨hkd, hisb, hfl⟩ := hsm heq
    rw [hvar heq]
    simp only [heq, true_and]
    unfold bareContractOf at hbr hbr'
    unfold annotateHead
    rw [← hkd] at hbr' ⊢
    by_cases hb : head.isBareReference = true
    · rw [if_pos hb] at hbr hbr' ⊢
      rw [if_pos hb]
      obtain ⟨signature, hsig, rfl⟩ := except_map_ok hbr
      obtain ⟨signature', hsig', rfl⟩ := except_map_ok hbr'
      obtain ⟨hkn, hver⟩ := hversions _ _ hsig
      obtain ⟨hkn', hver'⟩ := hother _ _ hsig'
      rw [← hfl] at hkn' hver'
      simp only [← hfl, hver, hver', numbering.variantOf_inj hkn hkn', Option.some.injEq]
    · rw [if_neg hb] at hbr hbr' ⊢
      rw [if_neg hb]
      cases hbr
      cases hbr'
      have hkin : head.isBareReference = false := by simpa using hb
      rw [← hisb]
      by_cases hisB : head.isBare = true
      · simp only [hisB, Bool.not_true, Bool.false_eq_true, ↓reduceIte, iff_true]
        rw [hpln hisB hkin, hpln' (hisb ▸ hisB) (hkd ▸ hkin)]
      · simp [hisB]
  · refine ⟨fun h => absurd ?_ heq, fun h => absurd h.1 heq⟩
    rw [← her versions head, ← her other head', h]

theorem annotateBareTypeRef_eq_iff {reference' : TypeRef} {resolved resolved' : ResolvedTypeRef}
    (h : resolvedSemanticReference contract reference = .ok resolved)
    (h' : resolvedSemanticReference contract' reference' = .ok resolved')
    (hpln : reference.Unversioned) (hpln' : reference'.Unversioned) :
    annotateBareTypeRef versions reference = annotateBareTypeRef other reference' ↔
      resolved = resolved' := by
  induction reference generalizing reference' resolved resolved' with
  | plain head =>
    obtain ⟨bare, hbr, h⟩ := except_bind_ok h
    cases h
    cases reference' with
    | plain head' =>
      obtain ⟨bare', hbr', h'⟩ := except_bind_ok h'
      cases h'
      simp only [annotateBareTypeRef, TypeRef.plain.injEq, ResolvedTypeRef.plain.injEq]
      exact annotateHead_eq_iff numbering hversions hother hbr hbr' hpln hpln'
    | generic head' element' =>
      obtain ⟨_, _, h'⟩ := except_bind_ok h'
      obtain ⟨_, _, h'⟩ := except_bind_ok h'
      cases h'
      simp [annotateBareTypeRef]
  | generic head element ih =>
    obtain ⟨inner, hinn, h⟩ := except_bind_ok h
    obtain ⟨bare, hbr, h⟩ := except_bind_ok h
    cases h
    cases reference' with
    | plain head' =>
      obtain ⟨_, _, h'⟩ := except_bind_ok h'
      cases h'
      simp [annotateBareTypeRef]
    | generic head' element' =>
      obtain ⟨inner', hinn', h'⟩ := except_bind_ok h'
      obtain ⟨bare', hbr', h'⟩ := except_bind_ok h'
      cases h'
      have hhea := annotateHead_eq_iff numbering hversions hother hbr hbr' hpln.1 hpln'.1
      have hele := ih hinn hinn' hpln.2 hpln'.2
      simp only [annotateBareTypeRef, TypeRef.generic.injEq, ResolvedTypeRef.generic.injEq, hhea, hele]
      tauto

theorem annotateBareParameters_eq_iff {params params' : List Parameter}
    {wires wires' : List WireParameter} (h : params.mapM (wireParameter contract) = .ok wires)
    (h' : params'.mapM (wireParameter contract') = .ok wires')
    (hpln : ∀ param ∈ params, param.type.Unversioned) (hpln' : ∀ param ∈ params', param.type.Unversioned) :
    annotateBareParameters versions params = annotateBareParameters other params' ↔ wires = wires' := by
  have hprs := except_mapM_ok h
  have hprs' := except_mapM_ok h'
  clear h h'
  induction hprs generalizing params' wires' with
  | nil =>
    cases hprs' with
    | nil => simp [annotateBareParameters]
    | cons _ _ => simp [annotateBareParameters]
  | @cons param wire params wires hfst _ ih =>
    cases hprs' with
    | nil => simp [annotateBareParameters]
    | @cons param' wire' params' wires' hfst' hrs' =>
      obtain ⟨resolved, hres, hwr⟩ := except_bind_ok hfst
      obtain ⟨resolved', hres', hwr'⟩ := except_bind_ok hfst'
      cases hwr
      cases hwr'
      have htys := annotateBareTypeRef_eq_iff numbering hversions hother hres hres'
        (hpln param (mem_cons_self ..)) (hpln' param' (mem_cons_self ..))
      have hlat := ih (fun p hm => hpln p (mem_cons_of_mem _ hm))
        (fun p hm => hpln' p (mem_cons_of_mem _ hm)) hrs'
      unfold annotateBareParameters at hlat ⊢
      simp only [map_cons, List.cons.injEq, Parameter.mk.injEq, WireParameter.mk.injEq, htys, hlat]

end

theorem Schema.findType_isSome {schema : Schema} {name : String} :
    (∃ declaration, schema.findType name = some declaration) ↔ name ∈ schema.types.map (·.name) := by
  rw [← Option.isSome_iff_exists, Schema.findType, List.find?_isSome]
  simp

theorem resolvedTypeContract_declared {schema : Schema} {layer : Int} {fuel : Nat}
    {stack : List String} {name : String} (hsta : ∀ family ∈ stack, family ∈ schema.types.map (·.name))
    (h : resolvedTypeContract schema layer (fuel + 1) stack name = .ok signature) :
    name ∈ schema.types.map (·.name) := by
  unfold resolvedTypeContract at h
  split at h
  next hcyc => exact hsta name (by simpa using hcyc)
  split at h
  · cases h
  next declaration hfd => exact Schema.findType_isSome.mp ⟨declaration, hfd⟩

theorem familyContract_declared {snapshot : Schema} {family : String}
    (h : familyContract snapshot family = .ok signature) : family ∈ snapshot.types.map (·.name) :=
  resolvedTypeContract_declared (fun _ hm => absurd hm not_mem_nil) h

theorem lookup_map_of_mem {α : Type} {pairs : List (String × α)} (f : String × α → Int)
    (distinct : (pairs.map Prod.fst).Nodup) {pair : String × α} (hm : pair ∈ pairs) :
    (pairs.map fun p => (p.1, f p)).lookup pair.1 = some (f pair) := by
  induction pairs with
  | nil => exact absurd hm not_mem_nil
  | cons first rest ih =>
    obtain ⟨hnew, hrs⟩ := nodup_cons.mp distinct
    rcases mem_cons.mp hm with rfl | hm
    · simp
    have hne : pair.1 ≠ first.1 := fun heq => hnew (heq ▸ mem_map_of_mem hm)
    rw [map_cons, lookup_cons, beq_eq_false_iff_ne.mpr hne]
    exact ih hrs hm

section

variable {taken : List TakenSnapshot} {state : Combination} (h : Combined taken state)
  {t : TakenSnapshot} (ht : t ∈ taken) (hlayer : t.snapshot.layer = t.layer)
include h ht hlayer

theorem Combined.familyContract_ok {family : String} (hm : family ∈ t.snapshot.types.map (·.name)) :
    ∃ signature, (family, signature) ∈ t.signatures ∧ familyContract t.snapshot family = .ok signature := by
  rw [← (h.numbered t ht).typeNames] at hm
  obtain ⟨⟨name, signature⟩, hmem, rfl⟩ := mem_map.mp hm
  refine ⟨signature, hmem, ?_⟩
  rw [familyContract, hlayer]
  exact (h.numbered t ht).signature _ hmem

theorem Combined.versioned (hnms : (t.snapshot.types.map (·.name)).Nodup) :
    Versioned state.typeVariants t.versions (familyContract t.snapshot) := by
  intro family signature hctr
  obtain ⟨found, hmem, hfd⟩ := h.familyContract_ok ht hlayer (familyContract_declared hctr)
  cases hctr.symm.trans hfd
  refine ⟨h.typeNumbers.known _ (mem_map_of_mem ht) _ hmem, ?_⟩
  rw [← (h.numbered t ht).typeNames] at hnms
  have hlk := lookup_map_of_mem
    (fun p : String × SemanticKey => variantOf state.typeVariants p.1 p.2) hnms hmem
  rw [TypeVersions.version, (h.numbered t ht).versions, hlk]
  rfl

end

theorem resolvedSemanticReference_exists {contract contract' : String → Except LayerError SemanticKey}
    (hctr : ∀ family signature, contract family = .ok signature →
      ∃ other, contract' family = .ok other) {resolved : ResolvedTypeRef}
    (h : resolvedSemanticReference contract reference = .ok resolved) :
    ∃ other, resolvedSemanticReference contract' reference = .ok other := by
  have hbar : ∀ {head bare}, bareContractOf contract head = .ok bare →
      ∃ other, bareContractOf contract' head = .ok other := by
    intro head bare hbr
    unfold bareContractOf at hbr ⊢
    split at hbr
    next hb =>
      obtain ⟨signature, hsig, _⟩ := except_map_ok hbr
      obtain ⟨other, hother⟩ := hctr _ _ hsig
      exact ⟨some other, by rw [if_pos hb, hother]; rfl⟩
    next hb => exact ⟨none, by rw [if_neg hb]⟩
  induction reference generalizing resolved with
  | plain head =>
    obtain ⟨bare, hbr, _⟩ := except_bind_ok h
    obtain ⟨other, hother⟩ := hbar hbr
    exact ⟨.plain { head with variantLayer := 0 } other, by
      rw [resolvedSemanticReference, hother]
      rfl⟩
  | generic head element ih =>
    obtain ⟨inner, hinn, h⟩ := except_bind_ok h
    obtain ⟨bare, hbr, _⟩ := except_bind_ok h
    obtain ⟨innerOther, hin⟩ := ih hinn
    obtain ⟨other, hother⟩ := hbar hbr
    exact ⟨.generic { head with variantLayer := 0 } innerOther other, by
      rw [resolvedSemanticReference, hin, except_ok_bind, hother]
      rfl⟩

section

variable {taken : List TakenSnapshot} {state : Combination} (h : Combined taken state)
  {t : TakenSnapshot} (ht : t ∈ taken)
  (hrebuilt : t.snapshot = rebuildSchema t.layer t.snapshot.constructors t.snapshot.functions)
include h ht hrebuilt

theorem Combined.wireConstructor_ok {constructor : Constructor}
    (hm : constructor ∈ t.snapshot.constructors) {head : TypeHead}
    (hres : constructor.resultType = .plain head) :
    ∃ wire, wireConstructor t.snapshot constructor = .ok wire := by
  have hlayer : t.snapshot.layer = t.layer := by
    rw [hrebuilt]
    rfl
  have hdc : constructor.family ∈ t.snapshot.types.map (·.name) := by
    rw [hrebuilt]
    exact ((rebuildSchema_typeNames _ _ _).2 _).mpr ⟨constructor, hm, rfl⟩
  obtain ⟨declaration, hfd⟩ := Schema.findType_isSome.mpr hdc
  have hmem : constructor ∈ declaration.constructors := by
    rw [hrebuilt] at hfd
    rw [rebuildSchema_findType hfd]
    exact mem_filter.mpr ⟨hm, decide_eq_true rfl⟩
  -- the contract of its own family has resolved its parameters
  obtain ⟨signature, _, hctr⟩ := h.familyContract_ok ht hlayer hdc
  simp only [familyContract, resolvedTypeContractSignature, resolvedTypeContract, contains_nil,
    Bool.false_eq_true, ↓reduceIte, hfd] at hctr
  obtain ⟨keys, hks, _⟩ := except_bind_ok hctr
  obtain ⟨key, hkey⟩ := except_mapM_mem hks hmem
  obtain ⟨params, hps, _⟩ := except_bind_ok hkey
  have hexi : ∀ family ∈ t.snapshot.types.map (·.name),
      ∃ other, familyContract t.snapshot family = .ok other := by
    intro family hfam
    obtain ⟨other, _, hother⟩ := h.familyContract_ok ht hlayer hfam
    exact ⟨other, hother⟩
  obtain ⟨fuel, hfl⟩ : ∃ fuel, t.snapshot.types.length = fuel + 1 := by
    have hpos : 0 < (t.snapshot.types.map (·.name)).length := length_pos_of_mem hdc
    rw [length_map] at hpos
    exact ⟨t.snapshot.types.length - 1, by omega⟩
  have hnes : ∀ family other, resolvedTypeContract t.snapshot t.snapshot.layer
      t.snapshot.types.length [constructor.family] family = .ok other →
      ∃ other, familyContract t.snapshot family = .ok other := by
    intro family other hother
    rw [hfl] at hother
    refine hexi family (resolvedTypeContract_declared ?_ hother)
    intro stacked hs
    cases mem_singleton.mp hs
    exact hdc
  obtain ⟨wires, hwir⟩ : ∃ wires,
      constructor.params.mapM (wireParameter (familyContract t.snapshot)) = .ok wires := by
    refine except_mapM_exists fun param hp => ?_
    obtain ⟨_, hpar⟩ := except_mapM_mem hps hp
    obtain ⟨_, hrs, _⟩ := except_bind_ok hpar
    obtain ⟨other, hother⟩ := resolvedSemanticReference_exists hnes hrs
    exact ⟨⟨param.name, other, param.flagBit⟩, by rw [wireParameter, hother]; rfl⟩
  have hfam : head.fullName = constructor.family := by
    rw [Constructor.family, hres]
    rfl
  obtain ⟨bare, hbr⟩ : ∃ bare, bareContractOf (familyContract t.snapshot) head = .ok bare := by
    obtain ⟨other, hother⟩ := hexi _ hdc
    unfold bareContractOf
    split
    · exact ⟨some other, by rw [hfam, hother]; rfl⟩
    · exact ⟨none, rfl⟩
  have hrs : resolvedSemanticReference (familyContract t.snapshot) constructor.resultType =
      .ok (.plain { head with variantLayer := 0 } bare) := by
    rw [hres, resolvedSemanticReference, hbr]
    rfl
  exact ⟨_, by rw [wireConstructor, hwir, except_ok_bind, hrs, except_ok_bind]; rfl⟩

theorem Combined.semanticReference_ok {owner : String} (hvec : reference.Vectors)
    (hchk : checkBareReference t.snapshot.constructors owner reference = .ok ()) :
    ∃ resolved, resolvedSemanticReference (familyContract t.snapshot) reference = .ok resolved := by
  have hlayer : t.snapshot.layer = t.layer := by
    rw [hrebuilt]
    rfl
  have hfm : ∀ family ∈ bareReferenceNames reference,
      ∃ signature, familyContract t.snapshot family = .ok signature := by
    intro family hfml
    have hone := of_decide_eq_true (ensure_ok (except_forM_ok hchk family hfml))
    obtain ⟨constructor, hcon⟩ := exists_mem_of_length_pos (hone ▸ Nat.one_pos)
    obtain ⟨hmem, hfam⟩ := mem_filter.mp hcon
    have hdc : family ∈ t.snapshot.types.map (·.name) := by
      rw [hrebuilt]
      exact ((rebuildSchema_typeNames _ _ _).2 _).mpr ⟨constructor, hmem, of_decide_eq_true hfam⟩
    obtain ⟨signature, _, hsig⟩ := h.familyContract_ok ht hlayer hdc
    exact ⟨signature, hsig⟩
  clear hchk
  induction reference with
  | plain head =>
    rw [resolvedSemanticReference, bareContractOf]
    rw [bareReferenceNames] at hfm
    split at hfm
    next hbr =>
      obtain ⟨signature, hsig⟩ := hfm _ (mem_singleton_self _)
      exact ⟨_, by rw [if_pos hbr, hsig]; rfl⟩
    next hbr => exact ⟨_, by rw [if_neg hbr]; rfl⟩
  | generic head element ih =>
    obtain ⟨hvc, hnot, hinn⟩ := hvec
    rw [bareReferenceNames, if_pos hvc] at hfm
    obtain ⟨resolved, hres⟩ := ih hinn hfm
    exact ⟨_, by
      rw [resolvedSemanticReference, hres, except_ok_bind, bareContractOf, hnot]
      rfl⟩

theorem Combined.wireFunction_ok {function : FuncDecl} (hlay : validateBareLayouts t.snapshot = .ok ())
    (hm : function ∈ t.snapshot.functions) (hps : ∀ param ∈ function.params, param.type.Vectors)
    (hres : function.resultType.Vectors) : ∃ wire, wireFunction t.snapshot function = .ok wire := by
  obtain ⟨_, _, hlay⟩ := except_bind_ok hlay
  obtain ⟨_, hfn, _⟩ := except_bind_ok hlay
  obtain ⟨_, hche, hch⟩ := except_bind_ok (except_forM_ok hfn function hm)
  obtain ⟨wires, hwir⟩ : ∃ wires,
      function.params.mapM (wireParameter (familyContract t.snapshot)) = .ok wires := by
    refine except_mapM_exists fun param hp => ?_
    obtain ⟨resolved, hrs⟩ := h.semanticReference_ok ht hrebuilt (hps param hp)
      (except_forM_ok hche param hp)
    exact ⟨⟨param.name, resolved, param.flagBit⟩, by rw [wireParameter, hrs]; rfl⟩
  obtain ⟨result, hrs⟩ := h.semanticReference_ok ht hrebuilt hres hch
  exact ⟨_, by rw [wireFunction, hwir, except_ok_bind, hrs, except_ok_bind]; rfl⟩

end

def Constructor.Unversioned (constructor : Constructor) : Prop :=
  (∀ param ∈ constructor.params, param.type.Unversioned) ∧ constructor.resultType.Unversioned

def FuncDecl.Unversioned (function : FuncDecl) : Prop :=
  (∀ param ∈ function.params, param.type.Unversioned) ∧ function.resultType.Unversioned

section

variable {taken : List TakenSnapshot} {state : Combination} (h : Combined taken state)
  {t other : TakenSnapshot} (ht : t ∈ taken) (hother : other ∈ taken)
  (hrebuilt : ∀ s ∈ taken,
    s.snapshot = rebuildSchema s.layer s.snapshot.constructors s.snapshot.functions)
include h hrebuilt

theorem Combined.versioned_of_rebuilt {s : TakenSnapshot} (hs : s ∈ taken) :
    Versioned state.typeVariants s.versions (familyContract s.snapshot) := by
  refine h.versioned hs ?_ ?_
  · rw [hrebuilt s hs]
    rfl
  · rw [hrebuilt s hs]
    exact (rebuildSchema_typeNames _ _ _).1

include ht hother

theorem Combined.constructorSignature_eq_iff {a b : Constructor} {wire wire' : WireConstructor}
    (hwr : wireConstructor t.snapshot a = .ok wire) (hwr' : wireConstructor other.snapshot b = .ok wire')
    (ha : a.Unversioned) (hb : b.Unversioned) :
    t.constructorSignature a = other.constructorSignature b ↔ wire = wire' := by
  obtain ⟨params, hps, hwr⟩ := except_bind_ok hwr
  obtain ⟨result, hres, hwr⟩ := except_bind_ok hwr
  obtain ⟨params', hps', hwr'⟩ := except_bind_ok hwr'
  obtain ⟨result', hres', hwr'⟩ := except_bind_ok hwr'
  cases hwr
  cases hwr'
  have hpar := annotateBareParameters_eq_iff h.typeNumbers.numbering
    (h.versioned_of_rebuilt hrebuilt ht) (h.versioned_of_rebuilt hrebuilt hother)
    hps hps' ha.1 hb.1
  have hrs := annotateBareTypeRef_eq_iff h.typeNumbers.numbering
    (h.versioned_of_rebuilt hrebuilt ht) (h.versioned_of_rebuilt hrebuilt hother)
    hres hres' ha.2 hb.2
  simp only [TakenSnapshot.constructorSignature, constructorContractSignature, projectConstructor,
    ConstructorSignature.mk.injEq, WireConstructor.mk.injEq, hpar, hrs]

theorem Combined.functionSignature_eq_iff {a b : FuncDecl} {wire wire' : WireFunction}
    (hwr : wireFunction t.snapshot a = .ok wire) (hwr' : wireFunction other.snapshot b = .ok wire')
    (ha : a.Unversioned) (hb : b.Unversioned) : (t.requestSignature a = other.requestSignature b ∧
      annotateBareTypeRef t.versions a.resultType =
        annotateBareTypeRef other.versions b.resultType) ↔ wire = wire' := by
  obtain ⟨params, hps, hwr⟩ := except_bind_ok hwr
  obtain ⟨result, hres, hwr⟩ := except_bind_ok hwr
  obtain ⟨params', hps', hwr'⟩ := except_bind_ok hwr'
  obtain ⟨result', hres', hwr'⟩ := except_bind_ok hwr'
  cases hwr
  cases hwr'
  have hpar := annotateBareParameters_eq_iff h.typeNumbers.numbering
    (h.versioned_of_rebuilt hrebuilt ht) (h.versioned_of_rebuilt hrebuilt hother)
    hps hps' ha.1 hb.1
  have hrs := annotateBareTypeRef_eq_iff h.typeNumbers.numbering
    (h.versioned_of_rebuilt hrebuilt ht) (h.versioned_of_rebuilt hrebuilt hother)
    hres hres' ha.2 hb.2
  simp only [TakenSnapshot.requestSignature, functionRequestSignature, projectFunction,
    RequestSignature.mk.injEq, WireFunction.mk.injEq, hpar, hrs]
  tauto

end

end Tlrpc
