import Tlrpc.Fallible
import Tlrpc.Schema

namespace Tlrpc

open List

structure LayerDifference where
  layer : Int
  source : String := ""
  schema : Option Schema
  removeConstructors : List String := []
  removeFunctions : List String := []
deriving DecidableEq

def layerDifferenceLabel (difference : LayerDifference) : String :=
  if difference.source = "" then "layer difference " ++ toString difference.layer
  else "layer difference " ++ toString difference.layer ++ " (" ++ difference.source ++ ")"

inductive DeclarationKind
  | constructor
  | function
deriving DecidableEq

/-- The errors of layer resolution, with the values that their messages show. -/
inductive LayerError
  | baseLayerNotPositive
  | targetLayerNotPositive
  | baseLayerMismatch (schemaLayer baseLayer : Int)
  | targetBelowBase (targetLayer baseLayer : Int)
  | differenceLayerMismatch (label : String) (schemaLayer layer : Int)
  | differenceNotAboveBase (layer baseLayer : Int)
  | differencesNotIncreasing (layer previousLayer : Int)
  | targetNotSupplied (targetLayer baseLayer : Int)
  | schemaNil (label : String)
  | emptyRemovalTarget (label : String) (kind : DeclarationKind)
  | duplicateInsideDelta (label : String) (kind : DeclarationKind) (name : String)
  | duplicateConstructorName (label name : String)
  | constructorIDCollision (label : String) (id : UInt32) (first second : String)
  | duplicateFunctionID (label name : String) (id : UInt32)
  | functionIDCollision (label : String) (id : UInt32) (first second : String)
  | repeatedVariantLayer (label name : String) (layer : Int)
  | noCanonicalDeclaration (label name : String)
  | removeMissing (label : String) (kind : DeclarationKind) (name : String)
  | historicalOutsideHistory (name : String) (interval : LayerInterval)
  | bareReferenceConstructors (owner family : String) (count : Nat)
  | recursiveBareLayout (family : String)
  | bareFamilyConstructors (family : String) (layer : Int)
  | bareConstructorReplaced (family first second : String)
  | missingType (layer : Int) (name : String)
  | historicalBareUnavailable (name family : String) (layer : Int)
  | historicalBareChanges (name : String)
  | duplicateHistoricalHandler (name : String) (variantLayer : Int)
  | overlappingContracts (id : UInt32)
deriving DecidableEq

/-- The checks of a Go function: the error of the first that fails. -/
def ensure (condition : Bool) (error : LayerError) : Except LayerError Unit :=
  if condition then .ok () else .error error

def trimSuffix (s suffix : String) : String :=
  if suffix.toList.isSuffixOf s.toList then
    String.ofList (s.toList.take (s.toList.length - suffix.toList.length))
  else s

def serializerPrefixPair (first second : FuncDecl) : Bool :=
  first.isHelper && second.isTemplate && trimSuffix first.name "Prefix" = second.name ||
    second.isHelper && first.isTemplate && trimSuffix second.name "Prefix" = first.name

def validateConstructors (label : String) :
    List String → List (UInt32 × String) → List Constructor → Except LayerError Unit
  | _, _, [] => .ok ()
  | names, ids, constructor :: rest => do
    ensure (!names.contains constructor.name) (.duplicateConstructorName label constructor.name)
    let existing := ids.lookup constructor.id
    ensure (existing.all (· = constructor.name))
      (.constructorIDCollision label constructor.id (existing.getD "") constructor.name)
    validateConstructors label (constructor.name :: names)
      ((constructor.id, constructor.name) :: ids) rest

/-- A serializer prefix shares the ID of its generic function. -/
def validateFunctionIDs (label : String) :
    List (UInt32 × FuncDecl) → List FuncDecl → Except LayerError Unit
  | _, [] => .ok ()
  | ids, function :: rest => do
    let existing := ids.lookup function.id
    ensure (existing.all (·.name ≠ function.name))
      (.duplicateFunctionID label function.name function.id)
    ensure (existing.all (serializerPrefixPair · function))
      (.functionIDCollision label function.id ((existing.map (·.name)).getD "") function.name)
    validateFunctionIDs label ((function.id, function) :: ids) rest

def validateVariantLayers (label name : String) :
    List Int → List FuncDecl → Except LayerError Unit
  | _, [] => .ok ()
  | layers, variant :: rest =>
    if variant.variantLayer = 0 then validateVariantLayers label name layers rest
    else if layers.contains variant.variantLayer then
      .error (.repeatedVariantLayer label name variant.variantLayer)
    else validateVariantLayers label name (variant.variantLayer :: layers) rest

def validateFunctionVariants (label : String) (functions : List FuncDecl) (name : String) :
    Except LayerError Unit := do
  let variants := functions.filter (·.name = name)
  if variants.length = 1 then return ()
  validateVariantLayers label name [] variants
  ensure ((variants.filter (·.variantLayer = 0)).length = 1) (.noCanonicalDeclaration label name)

def validateDeclarationSet (label : String) (constructors : List Constructor)
    (functions : List FuncDecl) : Except LayerError Unit := do
  validateConstructors label [] [] constructors
  validateFunctionIDs label [] functions
  (functions.map (·.name)).forM (validateFunctionVariants label functions)

def validateRemovals (label : String) (kind : DeclarationKind) :
    List String → List String → Except LayerError Unit
  | _, [] => .ok ()
  | names, name :: rest => do
    ensure (name ≠ "") (.emptyRemovalTarget label kind)
    ensure (!names.contains name) (.duplicateInsideDelta label kind name)
    validateRemovals label kind (name :: names) rest

def validateLayerDifference (difference : LayerDifference) : Except LayerError Unit := do
  let label := layerDifferenceLabel difference
  match difference.schema with
  | none => .error (.schemaNil label)
  | some schema =>
    validateDeclarationSet label schema.constructors schema.functions
    validateRemovals label .constructor (schema.constructors.map (·.name))
      difference.removeConstructors
    validateRemovals label .function (schema.functions.map (·.name)) difference.removeFunctions

def constructorIndex (constructors : List Constructor) (name : String) : Option Nat :=
  constructors.findIdx? (·.name = name)

/-- Only the canonical form of a function is replaced or removed. -/
def functionIndex (functions : List FuncDecl) (name : String) : Option Nat :=
  functions.findIdx? fun function => function.name = name && function.variantLayer = 0

section

variable {α : Type} (index : List α → String → Option Nat)

/-- The common text of `removeConstructors` and `removeFunctions`. -/
def removeDeclarations (kind : DeclarationKind) (label : String) :
    List α → List String → Except LayerError (List α)
  | current, [] => .ok current
  | current, name :: rest =>
    match index current name with
    | none => .error (.removeMissing label kind name)
    | some i => removeDeclarations kind label (current.eraseIdx i) rest

/-- The common text of `mergeConstructors` and `mergeFunctions`. -/
def mergeDeclarations (name : α → String) : List α → List α → List α
  | current, [] => current
  | current, replacement :: rest =>
    match index current (name replacement) with
    | some i => mergeDeclarations name (current.set i replacement) rest
    | none => mergeDeclarations name (current ++ [replacement]) rest

end

def removeConstructors := removeDeclarations constructorIndex .constructor
def removeFunctions := removeDeclarations functionIndex .function
def mergeConstructors := mergeDeclarations constructorIndex Constructor.name
def mergeFunctions := mergeDeclarations functionIndex FuncDecl.name

def addToFamily : List TypeDecl → Constructor → List TypeDecl
  | [], constructor => [⟨constructor.family, [constructor], false, 0⟩]
  | declaration :: rest, constructor =>
    if declaration.name = constructor.family then
      { declaration with constructors := declaration.constructors ++ [constructor] } :: rest
    else declaration :: addToFamily rest constructor

def markUnions (types : List TypeDecl) : List TypeDecl :=
  types.map fun declaration =>
    { declaration with isUnion := declaration.constructors.length > 1 }

def unionNames (types : List TypeDecl) : List String := (types.filter (·.isUnion)).map (·.name)

def rebuildSchema (layer : Int) (constructors : List Constructor) (functions : List FuncDecl) :
    Schema :=
  let types := markUnions (constructors.foldl addToFamily [])
  { layer, constructors, functions, types, unionTypes := unionNames types }

def checkDifferences (baseLayer : Int) : Option Int → List LayerDifference → Except LayerError Unit
  | _, [] => .ok ()
  | previous, difference :: rest => do
    ensure (difference.schema.all (·.layer = difference.layer))
      (.differenceLayerMismatch (layerDifferenceLabel difference)
        ((difference.schema.map (·.layer)).getD 0) difference.layer)
    ensure (difference.layer > baseLayer) (.differenceNotAboveBase difference.layer baseLayer)
    ensure (previous.all (difference.layer > ·))
      (.differencesNotIncreasing difference.layer (previous.getD 0))
    validateLayerDifference difference
    checkDifferences baseLayer (some difference.layer) rest

def applyDifference (difference : LayerDifference)
    (declarations : List Constructor × List FuncDecl) :
    Except LayerError (List Constructor × List FuncDecl) := do
  let label := layerDifferenceLabel difference
  let constructors ← removeConstructors label declarations.1 difference.removeConstructors
  let functions ← removeFunctions label declarations.2 difference.removeFunctions
  match difference.schema with
  | none => .error (.schemaNil label)
  | some schema =>
    let constructors := mergeConstructors constructors schema.constructors
    let functions := mergeFunctions functions schema.functions
    validateDeclarationSet label constructors functions
    return (constructors, functions)

def applyDifferences (targetLayer : Int) :
    List LayerDifference → List Constructor × List FuncDecl →
      Except LayerError (List Constructor × List FuncDecl)
  | [], declarations => .ok declarations
  | difference :: rest, declarations =>
    if difference.layer > targetLayer then .ok declarations
    else applyDifference difference declarations >>= applyDifferences targetLayer rest

def resolveLayer (base : Schema) (baseLayer targetLayer : Int)
    (differences : List LayerDifference) : Except LayerError Schema := do
  ensure (0 < baseLayer) .baseLayerNotPositive
  ensure (0 < targetLayer) .targetLayerNotPositive
  ensure (base.layer = baseLayer) (.baseLayerMismatch base.layer baseLayer)
  ensure (baseLayer ≤ targetLayer) (.targetBelowBase targetLayer baseLayer)
  checkDifferences baseLayer none differences
  ensure (targetLayer = baseLayer || differences.any (·.layer = targetLayer))
    (.targetNotSupplied targetLayer baseLayer)
  validateDeclarationSet "base schema" base.constructors base.functions
  let (constructors, functions) ←
    applyDifferences targetLayer differences (base.constructors, base.functions)
  return rebuildSchema targetLayer constructors functions

variable {u : Unit} {constructors : List Constructor} {label : String} {functions : List FuncDecl}
  {types : List TypeDecl} {differences : List LayerDifference}

theorem ensure_ok {condition : Bool} {error : LayerError}
    (h : ensure condition error = .ok u) : condition = true := by
  unfold ensure at h
  split at h
  next hcon => exact hcon
  · cases h

structure Unambiguous (constructors : List Constructor) (functions : List FuncDecl) : Prop where
  constructorNames : (constructors.map (·.name)).Nodup
  constructorIDs : (constructors.map (·.id)).Nodup
  functionNames : ((functions.filter (·.variantLayer = 0)).map (·.name)).Nodup

variable {names : List String} {targetLayer : Int}

theorem validateConstructors_ok {ids : List (UInt32 × String)} (hids : ∀ entry ∈ ids, entry.2 ∈ names)
    (h : validateConstructors label names ids constructors = .ok u) :
    (constructors.map (·.name)).Nodup ∧ (∀ constructor ∈ constructors, constructor.name ∉ names) ∧
      (constructors.map (·.id)).Nodup ∧ ∀ constructor ∈ constructors, constructor.id ∉ ids.map Prod.fst := by
  induction constructors generalizing names ids with
  | nil => exact ⟨nodup_nil, nofun, nodup_nil, nofun⟩
  | cons first rest ih =>
    obtain ⟨_, hnm, h⟩ := except_bind_ok h
    obtain ⟨_, hid, h⟩ := except_bind_ok h
    have hnm : first.name ∉ names := by simpa using ensure_ok hnm
    have hid : first.id ∉ ids.map Prod.fst := by
      intro hm
      cases hlk : ids.lookup first.id with
      | none =>
        obtain ⟨entry, he, heq⟩ := mem_map.mp hm
        have := lookup_eq_none_iff.mp hlk entry he
        simp [heq] at this
      | some existing =>
        have heq : existing = first.name := by simpa [hlk] using ensure_ok hid
        obtain ⟨before, after, hspl, _⟩ := lookup_eq_some_iff.mp hlk
        refine hnm (heq ▸ hids (first.id, existing) ?_)
        simp [hspl]
    obtain ⟨hnms, hfr, hin, hif⟩ := ih (by
      intro entry he
      rcases mem_cons.mp he with rfl | he
      · exact mem_cons_self ..
      · exact mem_cons_of_mem _ (hids entry he)) h
    refine ⟨?_, ?_, ?_, ?_⟩
    · refine nodup_cons.mpr ⟨?_, hnms⟩
      intro hm
      obtain ⟨other, ho, heq⟩ := mem_map.mp hm
      exact hfr other ho (heq ▸ mem_cons_self ..)
    · intro constructor hm
      rcases mem_cons.mp hm with rfl | hm
      · exact hnm
      · exact fun hmem => hfr constructor hm (mem_cons_of_mem _ hmem)
    · refine nodup_cons.mpr ⟨?_, hin⟩
      intro hm
      obtain ⟨other, ho, heq⟩ := mem_map.mp hm
      exact hif other ho (by simp [heq])
    · intro constructor hm
      rcases mem_cons.mp hm with rfl | hm
      · exact hid
      · exact fun hmem => hif constructor hm (mem_cons_of_mem _ hmem)

theorem validateFunctionVariants_ok {name : String}
    (h : validateFunctionVariants label functions name = .ok u) :
    (functions.filter fun function => function.name = name && function.variantLayer = 0).length ≤ 1 := by
  have hfil : functions.filter (fun function => function.name = name && function.variantLayer = 0) =
      (functions.filter (·.name = name)).filter (·.variantLayer = 0) := by
    rw [filter_filter]
    exact filter_congr fun function _ => Bool.and_comm _ _
  rw [hfil]
  unfold validateFunctionVariants at h
  dsimp only at h
  split at h
  next hone => exact hone ▸ length_filter_le _ _
  obtain ⟨_, _, h⟩ := except_bind_ok h
  have := ensure_ok h
  exact (of_decide_eq_true this).le

theorem validateDeclarationSet_ok (h : validateDeclarationSet label constructors functions = .ok u) :
    Unambiguous constructors functions := by
  obtain ⟨_, hcto, h⟩ := except_bind_ok h
  obtain ⟨_, _, h⟩ := except_bind_ok h
  obtain ⟨hnms, _, hids, _⟩ := validateConstructors_ok (fun _ he => absurd he not_mem_nil) hcto
  refine ⟨hnms, hids, ?_⟩
  refine nodup_iff_count_le_one.mpr fun name => ?_
  rw [List.count, countP_map, countP_filter, countP_eq_length_filter]
  by_cases hm : name ∈ functions.map (·.name)
  · have := validateFunctionVariants_ok (except_forM_ok h name hm)
    refine le_trans (le_of_eq ?_) this
    congr 1
  have hno : functions.filter (fun function =>
      ((· == name) ∘ fun function : FuncDecl => function.name) function &&
        decide (function.variantLayer = 0)) = [] := by
    refine filter_eq_nil_iff.mpr fun function hf hnm => hm ?_
    simp only [Function.comp_apply, Bool.and_eq_true, beq_iff_eq] at hnm
    exact mem_map.mpr ⟨function, hf, hnm.1⟩
  rw [hno]
  exact Nat.zero_le 1

theorem mem_addToFamily_names {constructor : Constructor} {name : String} :
    name ∈ (addToFamily types constructor).map (·.name) ↔
      name ∈ types.map (·.name) ∨ constructor.family = name := by
  induction types with
  | nil => simp [addToFamily, eq_comm]
  | cons declaration rest ih =>
    unfold addToFamily
    split
    next heq =>
      simp only [map_cons, mem_cons, heq]
      constructor
      · exact .inl
      · rintro (h | h)
        · exact h
        · exact .inl h.symm
    · rw [map_cons, mem_cons, ih, map_cons, mem_cons, or_assoc]

theorem addToFamily_nodup (constructor : Constructor) (distinct : (types.map (·.name)).Nodup) :
    ((addToFamily types constructor).map (·.name)).Nodup := by
  induction types with
  | nil => exact nodup_singleton _
  | cons declaration rest ih =>
    obtain ⟨hnew, hrs⟩ := nodup_cons.mp distinct
    unfold addToFamily
    split
    · exact distinct
    rename_i hne
    refine nodup_cons.mpr ⟨fun hm => ?_, ih hrs⟩
    rcases mem_addToFamily_names.mp hm with hm | hm
    · exact hnew hm
    · exact hne hm.symm

def familyConstructors (types : List TypeDecl) (family : String) : List Constructor :=
  ((types.find? (·.name = family)).map (·.constructors)).getD []

theorem familyConstructors_addToFamily (types : List TypeDecl) (constructor : Constructor)
    (family : String) : familyConstructors (addToFamily types constructor) family =
      familyConstructors types family ++ [constructor].filter (·.family = family) := by
  induction types with
  | nil =>
    by_cases h : constructor.family = family
    · simp [addToFamily, familyConstructors, h]
    · simp [addToFamily, familyConstructors, h]
  | cons declaration rest ih =>
    unfold familyConstructors at ih ⊢
    unfold addToFamily
    split
    next heq =>
      by_cases h : declaration.name = family
      · have hf : constructor.family = family := heq ▸ h
        simp [h, hf]
      · have hf : constructor.family ≠ family := heq ▸ h
        simp [h, hf]
    next hne =>
      by_cases h : declaration.name = family
      · have hf : constructor.family ≠ family := fun hf => hne (h.trans hf.symm)
        simp [h, hf]
      · simp only [List.find?_cons, decide_eq_false h]
        exact ih

theorem foldl_addToFamily (constructors : List Constructor) (distinct : (types.map (·.name)).Nodup) :
    ((constructors.foldl addToFamily types).map (·.name)).Nodup ∧
      (∀ name, name ∈ (constructors.foldl addToFamily types).map (·.name) ↔
        name ∈ types.map (·.name) ∨ ∃ constructor ∈ constructors, constructor.family = name) ∧
      ∀ family, familyConstructors (constructors.foldl addToFamily types) family =
        familyConstructors types family ++ constructors.filter (·.family = family) := by
  induction constructors generalizing types with
  | nil => exact ⟨distinct, fun name => by simp, fun family => by simp⟩
  | cons constructor rest ih =>
    obtain ⟨hnd, hnms, hfam⟩ := ih (addToFamily_nodup constructor distinct)
    refine ⟨hnd, fun name => ?_, fun family => ?_⟩
    · rw [foldl_cons, hnms name, mem_addToFamily_names]
      simp only [mem_cons, exists_eq_or_imp]
      tauto
    · rw [foldl_cons, hfam family, familyConstructors_addToFamily, append_assoc,
        ← filter_append, singleton_append]

theorem rebuildSchema_typeNames (layer : Int) (constructors : List Constructor) (functions : List FuncDecl) :
    ((rebuildSchema layer constructors functions).types.map (·.name)).Nodup ∧
      ∀ name, name ∈ (rebuildSchema layer constructors functions).types.map (·.name) ↔
        ∃ constructor ∈ constructors, constructor.family = name := by
  have hnms : (rebuildSchema layer constructors functions).types.map (·.name) =
      (constructors.foldl addToFamily []).map (·.name) := by
    simp only [rebuildSchema, markUnions, map_map]
    rfl
  have hemp : (([] : List TypeDecl).map (·.name)).Nodup := nodup_nil
  obtain ⟨hnd, hmem, _⟩ := foldl_addToFamily constructors hemp
  rw [hnms]
  exact ⟨hnd, fun name => by simpa using hmem name⟩

theorem rebuildSchema_findType {layer : Int} {family : String} {declaration : TypeDecl}
    (h : (rebuildSchema layer constructors functions).findType family = some declaration) :
    declaration.constructors = constructors.filter (·.family = family) := by
  have hemp : (([] : List TypeDecl).map (·.name)).Nodup := nodup_nil
  obtain ⟨_, _, hfam⟩ := foldl_addToFamily constructors hemp
  have hfm := hfam family
  simp only [Schema.findType, rebuildSchema, markUnions, List.find?_map] at h
  obtain ⟨source, hsource, rfl⟩ := Option.map_eq_some_iff.mp h
  have hfd : (constructors.foldl addToFamily []).find? (·.name = family) = some source := hsource
  rw [familyConstructors, hfd] at hfm
  simpa [familyConstructors] using hfm

theorem applyDifference_ok {difference : LayerDifference}
    {declarations result : List Constructor × List FuncDecl}
    (h : applyDifference difference declarations = .ok result) : Unambiguous result.1 result.2 := by
  obtain ⟨constructors, _, h⟩ := except_bind_ok h
  obtain ⟨functions, _, h⟩ := except_bind_ok h
  split at h
  · cases h
  rename_i schema _
  obtain ⟨_, hval, h⟩ := except_bind_ok h
  cases h
  exact validateDeclarationSet_ok hval

theorem applyDifferences_ok {declarations result : List Constructor × List FuncDecl}
    (hst : Unambiguous declarations.1 declarations.2)
    (h : applyDifferences targetLayer differences declarations = .ok result) :
    Unambiguous result.1 result.2 := by
  induction differences generalizing declarations with
  | nil =>
    cases h
    exact hst
  | cons difference rest ih =>
    simp only [applyDifferences] at h
    split at h
    · cases h
      exact hst
    obtain ⟨next, happ, h⟩ := except_bind_ok h
    exact ih (applyDifference_ok happ) h

variable {baseLayer : Int}

theorem checkDifferences_ok {previous : Option Int}
    (h : checkDifferences baseLayer previous differences = .ok u) :
    (∀ difference ∈ differences, baseLayer < difference.layer ∧
      ∀ layer ∈ previous, layer < difference.layer) ∧ differences.Pairwise fun a b => a.layer < b.layer := by
  induction differences generalizing previous with
  | nil => exact ⟨nofun, .nil⟩
  | cons difference rest ih =>
    obtain ⟨_, _, h⟩ := except_bind_ok h
    obtain ⟨_, hbs, h⟩ := except_bind_ok h
    obtain ⟨_, hpre, h⟩ := except_bind_ok h
    obtain ⟨_, _, h⟩ := except_bind_ok h
    obtain ⟨hlat, hprs⟩ := ih h
    have hbs := of_decide_eq_true (ensure_ok hbs)
    have hpre : ∀ layer ∈ previous, layer < difference.layer := by
      intro layer hm
      cases hm
      exact of_decide_eq_true (ensure_ok hpre)
    refine ⟨?_, pairwise_cons.mpr ⟨fun other ho => (hlat other ho).2 _ rfl, hprs⟩⟩
    intro other ho
    rcases mem_cons.mp ho with rfl | ho
    · exact ⟨hbs, hpre⟩
    · refine ⟨(hlat other ho).1, fun layer hm => ?_⟩
      exact (hpre layer hm).trans ((hlat other ho).2 _ rfl)

theorem resolveLayer_ok {base snapshot : Schema}
    (h : resolveLayer base baseLayer targetLayer differences = .ok snapshot) : 0 < baseLayer ∧
      (baseLayer :: differences.map (·.layer)).Pairwise (· < ·) ∧
      Unambiguous snapshot.constructors snapshot.functions ∧
      snapshot = rebuildSchema targetLayer snapshot.constructors snapshot.functions := by
  obtain ⟨_, hbs, h⟩ := except_bind_ok h
  obtain ⟨_, _, h⟩ := except_bind_ok h
  obtain ⟨_, _, h⟩ := except_bind_ok h
  obtain ⟨_, _, h⟩ := except_bind_ok h
  obtain ⟨_, hchk, h⟩ := except_bind_ok h
  obtain ⟨_, _, h⟩ := except_bind_ok h
  obtain ⟨_, hset, h⟩ := except_bind_ok h
  obtain ⟨declarations, happ, h⟩ := except_bind_ok h
  cases h
  obtain ⟨hab, hprs⟩ := checkDifferences_ok hchk
  refine ⟨of_decide_eq_true (ensure_ok hbs), ?_, ?_, rfl⟩
  · refine pairwise_cons.mpr ⟨?_, pairwise_map.mpr hprs⟩
    intro layer hm
    obtain ⟨difference, hd, rfl⟩ := mem_map.mp hm
    exact (hab difference hd).1
  · exact applyDifferences_ok (validateDeclarationSet_ok hset) happ

section

variable {α : Type} {index : List α → String → Option Nat} {P : α → Prop}

theorem removeDeclarations_forall {kind : DeclarationKind} {label : String}
    {current result : List α} (h : removeDeclarations index kind label current names = .ok result)
    (hcur : ∀ a ∈ current, P a) : ∀ a ∈ result, P a := by
  induction names generalizing current with
  | nil =>
    cases h
    exact hcur
  | cons name rest ih =>
    unfold removeDeclarations at h
    split at h
    · cases h
    next i _ => exact ih h fun a hm => hcur a (mem_of_mem_eraseIdx hm)

theorem mergeDeclarations_forall {name : α → String} {current replacements : List α}
    (hcur : ∀ a ∈ current, P a) (hrep : ∀ a ∈ replacements, P a) :
    ∀ a ∈ mergeDeclarations index name current replacements, P a := by
  induction replacements generalizing current with
  | nil => exact hcur
  | cons replacement rest ih =>
    have hnew := hrep replacement (mem_cons_self ..)
    have hrs : ∀ a ∈ rest, P a := fun a hm => hrep a (mem_cons_of_mem _ hm)
    unfold mergeDeclarations
    split
    next i _ =>
      refine ih (fun a hm => ?_) hrs
      rcases mem_or_eq_of_mem_set hm with hm | rfl
      · exact hcur a hm
      · exact hnew
    refine ih (fun a hm => ?_) hrs
    rcases mem_append.mp hm with hm | hm
    · exact hcur a hm
    · cases mem_singleton.mp hm
      exact hnew

end

variable {differences : List LayerDifference}

section

variable {P : Constructor → Prop} {Q : FuncDecl → Prop}

theorem applyDifferences_forall {declarations result : List Constructor × List FuncDecl}
    (h : applyDifferences targetLayer differences declarations = .ok result)
    (hdif : ∀ difference ∈ differences, ∀ schema ∈ difference.schema,
      (∀ c ∈ schema.constructors, P c) ∧ ∀ f ∈ schema.functions, Q f)
    (hcto : ∀ c ∈ declarations.1, P c) (hfn : ∀ f ∈ declarations.2, Q f) :
    (∀ c ∈ result.1, P c) ∧ ∀ f ∈ result.2, Q f := by
  induction differences generalizing declarations with
  | nil =>
    cases h
    exact ⟨hcto, hfn⟩
  | cons difference rest ih =>
    simp only [applyDifferences] at h
    split at h
    · cases h
      exact ⟨hcto, hfn⟩
    obtain ⟨next, happ, h⟩ := except_bind_ok h
    obtain ⟨constructors, hrem, happ⟩ := except_bind_ok happ
    obtain ⟨functions, hrm, happ⟩ := except_bind_ok happ
    split at happ
    · cases happ
    rename_i schema hsch
    obtain ⟨_, _, happ⟩ := except_bind_ok happ
    cases happ
    obtain ⟨hnew, hnw⟩ :=
      hdif difference (mem_cons_self ..) schema hsch
    refine ih h (fun d hd => hdif d (mem_cons_of_mem _ hd)) ?_ ?_
    · exact mergeDeclarations_forall (removeDeclarations_forall hrem hcto) hnew
    · exact mergeDeclarations_forall (removeDeclarations_forall hrm hfn) hnw

theorem resolveLayer_forall {base snapshot : Schema}
    (h : resolveLayer base baseLayer targetLayer differences = .ok snapshot)
    (hbs : (∀ c ∈ base.constructors, P c) ∧ ∀ f ∈ base.functions, Q f)
    (hdif : ∀ difference ∈ differences, ∀ schema ∈ difference.schema,
      (∀ c ∈ schema.constructors, P c) ∧ ∀ f ∈ schema.functions, Q f) :
    (∀ c ∈ snapshot.constructors, P c) ∧ ∀ f ∈ snapshot.functions, Q f := by
  obtain ⟨_, _, h⟩ := except_bind_ok h
  obtain ⟨_, _, h⟩ := except_bind_ok h
  obtain ⟨_, _, h⟩ := except_bind_ok h
  obtain ⟨_, _, h⟩ := except_bind_ok h
  obtain ⟨_, _, h⟩ := except_bind_ok h
  obtain ⟨_, _, h⟩ := except_bind_ok h
  obtain ⟨_, _, h⟩ := except_bind_ok h
  obtain ⟨declarations, happ, h⟩ := except_bind_ok h
  cases h
  exact applyDifferences_forall happ hdif hbs.1 hbs.2

end

end Tlrpc
