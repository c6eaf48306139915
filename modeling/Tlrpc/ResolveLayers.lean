import Tlrpc.ContractVariants
import Tlrpc.LayerTimeline
import Tlrpc.ResolveLayer

namespace Tlrpc

/-- The names of the bare families that a reference lays out inline. -/
def bareReferenceNames : TypeRef → List String
  | .plain head => if head.isBareReference then [head.fullName] else []
  | .generic head element =>
    if head.isVector then bareReferenceNames element
    else if head.isBareReference then [head.fullName] else []

def parameterBareNames (params : List Parameter) : List String :=
  params.flatMap fun param => bareReferenceNames param.type

def checkBareReference (constructors : List Constructor) (owner : String) (reference : TypeRef) :
    Except LayerError Unit :=
  (bareReferenceNames reference).forM fun family =>
    let count := (constructors.filter (·.family = family)).length
    ensure (count = 1) (.bareReferenceConstructors owner family count)

def checkBareParameters (constructors : List Constructor) (owner : String)
    (params : List Parameter) : Except LayerError Unit :=
  params.forM fun param => checkBareReference constructors (owner ++ "." ++ param.name) param.type

def bareGraph (constructors : List Constructor) (family : String) : List String :=
  (constructors.filter (·.family = family)).flatMap fun constructor =>
    parameterBareNames constructor.params

/-- Depth-first search for a bare layout inside itself, with the families visited. -/
def visitFamily (graph : String → List String) :
    Nat → List String → List String → String → Except LayerError (List String)
  | 0, _, _, family => .error (.recursiveBareLayout family)
  | fuel + 1, visiting, visited, family =>
    if visiting.contains family then .error (.recursiveBareLayout family)
    else if visited.contains family then .ok visited
    else do
      let visited ← (graph family).foldlM (visitFamily graph fuel (family :: visiting)) visited
      return family :: visited

def validateBareLayouts (schema : Schema) : Except LayerError Unit := do
  schema.constructors.forM fun constructor =>
    checkBareParameters schema.constructors constructor.name constructor.params
  schema.functions.forM fun function => do
    checkBareParameters schema.constructors function.name function.params
    checkBareReference schema.constructors (function.name ++ " result") function.resultType
  let families := schema.constructors.map (·.family)
  let _ ← families.foldlM
    (visitFamily (bareGraph schema.constructors) (families.length + 2) []) []
  return ()

/-- What the JSON text of a contract tells apart. -/
inductive SemanticKey
  | text (value : String)
  | number (value : Int)
  | cons (first rest : SemanticKey)
  | nil
deriving DecidableEq

namespace SemanticKey

def list : List SemanticKey → SemanticKey
  | [] => .nil
  | first :: rest => .cons first (list rest)

def bool (value : Bool) : SemanticKey := .number (if value then 1 else 0)

def optional {α : Type} (key : α → SemanticKey) : Option α → SemanticKey
  | none => .nil
  | some value => .cons (key value) .nil

end SemanticKey

/-- A type reference with contracts of bare families in place of versions. -/
inductive ResolvedTypeRef
  | plain (head : TypeHead) (bareContract : Option SemanticKey)
  | generic (head : TypeHead) (element : ResolvedTypeRef) (bareContract : Option SemanticKey)
deriving DecidableEq

def headKey (head : TypeHead) (bareContract : Option SemanticKey) : SemanticKey :=
  .list [.text head.name, .text head.nameSpace, .text head.genericArg, .text head.flagName,
    .bool head.isVector, .bool head.isBare, .bool head.optional, .bool head.isTypeVar,
    .optional (fun bit : Nat => .number bit) head.flagBit, .optional id bareContract]

def ResolvedTypeRef.key : ResolvedTypeRef → SemanticKey
  | .plain head bareContract => .cons (headKey head bareContract) .nil
  | .generic head element bareContract => .cons (headKey head bareContract) element.key

def bareContractOf (contract : String → Except LayerError SemanticKey) (head : TypeHead) :
    Except LayerError (Option SemanticKey) :=
  if head.isBareReference then (contract head.fullName).map some else .ok none

def resolvedSemanticReference (contract : String → Except LayerError SemanticKey) :
    TypeRef → Except LayerError ResolvedTypeRef
  | .plain head => do
    let bareContract ← bareContractOf contract head
    return .plain { head with variantLayer := 0 } bareContract
  | .generic head element => do
    let element ← resolvedSemanticReference contract element
    let bareContract ← bareContractOf contract head
    return .generic { head with variantLayer := 0 } element bareContract

def resolvedParameterKey (contract : String → Except LayerError SemanticKey) (param : Parameter) :
    Except LayerError SemanticKey := do
  let type ← resolvedSemanticReference contract param.type
  return .list [.text param.name, type.key, .optional (fun bit : Nat => .number bit) param.flagBit]

def genericParamKey (param : GenericParam) : SemanticKey :=
  .list [.text param.name, .text param.constraint]

def stringValue (value : Option String) : String := value.getD ""

def resolvedConstructorKey (contract : String → Except LayerError SemanticKey)
    (constructor : Constructor) : Except LayerError SemanticKey := do
  let params ← constructor.params.mapM (resolvedParameterKey contract)
  return .list [.text constructor.name, .number constructor.id.toNat,
    .list (constructor.genericParams.map genericParamKey), .list params,
    .text constructor.family, .bool constructor.isBare,
    .text (stringValue constructor.vectorCount)]

/-- The contract with bare dependencies expanded; the stack holds the families on the way. -/
def resolvedTypeContract (schema : Schema) (layer : Int) :
    Nat → List String → String → Except LayerError SemanticKey
  | 0, _, name => .ok (.text ("cycle:" ++ name))
  | fuel + 1, stack, name =>
    if stack.contains name then .ok (.text ("cycle:" ++ name))
    else match schema.findType name with
      | none => .error (.missingType layer name)
      | some declaration => do
        let constructors ← declaration.constructors.mapM
          (resolvedConstructorKey (resolvedTypeContract schema layer fuel (name :: stack)))
        return .list constructors

def resolvedTypeContractSignature (schema : Schema) (layer : Int) (name : String) :
    Except LayerError SemanticKey :=
  resolvedTypeContract schema layer (schema.types.length + 1) [] name

abbrev TypeVersions := List (String × Int)

def TypeVersions.version (versions : TypeVersions) (family : String) : Int :=
  (versions.lookup family).getD 0

def annotateHead (versions : TypeVersions) (head : TypeHead) : TypeHead :=
  if head.isBareReference then { head with variantLayer := versions.version head.fullName }
  else if !head.isBare then { head with variantLayer := 0 }
  else head

def annotateBareTypeRef (versions : TypeVersions) : TypeRef → TypeRef
  | .plain head => .plain (annotateHead versions head)
  | .generic head element =>
    .generic (annotateHead versions head) (annotateBareTypeRef versions element)

def annotateBareParameters (versions : TypeVersions) (params : List Parameter) : List Parameter :=
  params.map fun param => { param with type := annotateBareTypeRef versions param.type }

structure ConstructorSignature where
  name : String
  id : UInt32
  genericParams : List GenericParam
  params : List Parameter
  resultType : TypeRef
  isBare : Bool
  vectorCount : String
deriving DecidableEq

def constructorContractSignature (constructor : Constructor) : ConstructorSignature :=
  ⟨constructor.name, constructor.id, constructor.genericParams, constructor.params,
    constructor.resultType, constructor.isBare, stringValue constructor.vectorCount⟩

structure RequestSignature where
  name : String
  id : UInt32
  genericParams : List GenericParam
  params : List Parameter
  isTemplate : Bool
  isHelper : Bool
deriving DecidableEq

def functionRequestSignature (function : FuncDecl) : RequestSignature :=
  ⟨function.name, function.id, function.genericParams, function.params, function.isTemplate,
    function.isHelper⟩

structure HandlerSignature where
  requestVariantLayer : Int
  resultType : TypeRef
deriving DecidableEq

instance : LayerEntry Constructor where
  variantKey constructor := (constructor.name, constructor.variantLayer)
  intervals constructor := constructor.intervals
  setIntervals constructor intervals := { constructor with intervals }
  variantKey_set _ _ := rfl
  intervals_set _ _ := rfl
  set_set _ _ _ := rfl
  set_self _ := rfl

instance : LayerEntry FuncDecl where
  variantKey function := (function.name, function.variantLayer)
  intervals function := function.intervals
  setIntervals function intervals := { function with intervals }
  variantKey_set _ _ := rfl
  intervals_set _ _ := rfl
  set_set _ _ _ := rfl
  set_self _ := rfl

def projectConstructor (versions : TypeVersions) (constructor : Constructor) : Constructor :=
  { constructor with
    params := annotateBareParameters versions constructor.params
    resultType := annotateBareTypeRef versions constructor.resultType }

def projectFunction (versions : TypeVersions) (function : FuncDecl) : FuncDecl :=
  { function with
    params := annotateBareParameters versions function.params
    resultType := annotateBareTypeRef versions function.resultType }

structure Combination where
  typeVariants : List (NumberedContract SemanticKey) := []
  constructorVariants : List (NumberedContract ConstructorSignature) := []
  requestVariants : List (NumberedContract RequestSignature) := []
  handlerVariants : List (NumberedContract HandlerSignature) := []
  constructors : Timeline Constructor := {}
  functions : Timeline FuncDecl := {}
  versionsBySnapshot : List TypeVersions := []

def numberConstructors (layer : Int) (versions : TypeVersions)
    (variants : List (NumberedContract ConstructorSignature)) (constructors : List Constructor) :
    List (NumberedContract ConstructorSignature) × List Constructor :=
  let projected := constructors.map (projectConstructor versions)
  let numbers := contractVariantLayers layer variants
    (projected.map fun constructor => (constructor.name, constructorContractSignature constructor))
  (numbers.1, List.zipWith (fun constructor variantLayer => { constructor with variantLayer })
    projected numbers.2)

def numberRequests (layer : Int) (versions : TypeVersions)
    (variants : List (NumberedContract RequestSignature)) (functions : List FuncDecl) :
    List (NumberedContract RequestSignature) × List FuncDecl :=
  let projected := functions.map (projectFunction versions)
  let numbers := contractVariantLayers layer variants
    (projected.map fun function => (function.name, functionRequestSignature function))
  (numbers.1, List.zipWith
    (fun function requestVariantLayer => { function with requestVariantLayer }) projected numbers.2)

def numberHandlers (layer : Int) (variants : List (NumberedContract HandlerSignature))
    (functions : List FuncDecl) : List (NumberedContract HandlerSignature) × List FuncDecl :=
  let numbers := contractVariantLayers layer variants
    (functions.map fun function =>
      (function.name, ⟨function.requestVariantLayer, function.resultType⟩))
  (numbers.1, List.zipWith (fun function variantLayer => { function with variantLayer })
    functions numbers.2)

/-- A snapshot under its families' contracts: variants are numbered, then recorded. -/
def Combination.takeSnapshot (state : Combination) (layer : Int) (snapshot : Schema)
    (signatures : List (String × SemanticKey)) : Combination :=
  let types := contractVariantLayers layer state.typeVariants signatures
  let versions := List.zip (snapshot.types.map (·.name)) types.2
  let constructors :=
    numberConstructors layer versions state.constructorVariants snapshot.constructors
  let requests := numberRequests layer versions state.requestVariants
    (snapshot.functions.filter (·.variantLayer = 0))
  let functions := numberHandlers layer state.handlerVariants requests.2
  { typeVariants := types.1
    constructorVariants := constructors.1
    requestVariants := requests.1
    handlerVariants := functions.1
    constructors := state.constructors.snapshot layer constructors.2
    functions := state.functions.snapshot layer functions.2
    versionsBySnapshot := state.versionsBySnapshot ++ [versions] }

def Combination.addSnapshot (state : Combination) (layer : Int) (snapshot : Schema) :
    Except LayerError Combination := do
  let signatures ← snapshot.types.mapM fun declaration => do
    let signature ← resolvedTypeContractSignature snapshot layer declaration.name
    return (declaration.name, signature)
  return state.takeSnapshot layer snapshot signatures

def Combination.addSnapshots : Combination → List (Int × Schema) → Except LayerError Combination
  | state, [] => .ok state
  | state, (layer, snapshot) :: rest => do
    let next ← state.addSnapshot layer snapshot
    next.addSnapshots rest

structure SnapshotSpan where
  layer : Int
  lastLayer : Int
  snapshot : Schema
  versions : TypeVersions

def snapshotSpans (maxLayer : Int) : List (Int × Schema) → List TypeVersions → List SnapshotSpan
  | (layer, snapshot) :: (next, later) :: rest, versions :: more =>
    ⟨layer, next - 1, snapshot, versions⟩ :: snapshotSpans maxLayer ((next, later) :: rest) more
  | [(layer, snapshot)], versions :: _ => [⟨layer, maxLayer, snapshot, versions⟩]
  | _, _ => []

/-- The layout of a historical function, the same wherever its intervals reach. -/
def historicalLayout (function : FuncDecl) (intervals : List LayerInterval) :
    Option FuncDecl → List SnapshotSpan → Except LayerError (Option FuncDecl)
  | selected, [] => .ok selected
  | selected, span :: rest =>
    if (intersectIntervals intervals span.layer span.lastLayer).isEmpty then
      historicalLayout function intervals selected rest
    else do
      (parameterBareNames function.params).forM fun family =>
        ensure (span.snapshot.findType family).isSome
          (.historicalBareUnavailable function.name family span.layer)
      let candidate := projectFunction span.versions function
      ensure (selected.all fun other =>
        functionRequestSignature other = functionRequestSignature candidate &&
          other.resultType = candidate.resultType) (.historicalBareChanges function.name)
      historicalLayout function intervals (some candidate) rest

def addHistorical (baseLayer maxLayer : Int) (spans : List SnapshotSpan)
    (functions : List FuncDecl) (function : FuncDecl) : Except LayerError (List FuncDecl) := do
  if function.variantLayer = 0 then return functions
  let requestVariantLayer :=
    if function.requestVariantLayer = 0 then function.variantLayer
    else function.requestVariantLayer
  let intervals := intersectIntervals function.acceptIntervals baseLayer maxLayer
  if intervals.isEmpty then return functions
  let layout ← historicalLayout function intervals none spans
  let projected := { layout.getD function with requestVariantLayer, intervals }
  ensure (!functions.any fun other => variantKey other = variantKey projected)
    (.duplicateHistoricalHandler function.name function.variantLayer)
  return functions ++ [projected]

def sharedIntervals (functions : List FuncDecl) (function : FuncDecl) : List LayerInterval :=
  (functions.filter fun other => other.name = function.name &&
    other.requestVariantLayer = function.requestVariantLayer).flatMap (·.intervals)

def setRequestIntervals (functions : List FuncDecl) : List FuncDecl :=
  functions.map fun function =>
    { function with requestIntervals := normalizeIntervals (sharedIntervals functions function) }

def sortFamily (declaration : TypeDecl) : TypeDecl :=
  { declaration with
    constructors := declaration.constructors.insertionSort fun left right =>
      left.name < right.name ∨ left.name = right.name ∧ left.variantLayer ≤ right.variantLayer }

def validateDisjointIDs : List (UInt32 × List LayerInterval) → Except LayerError Unit
  | [] => .ok ()
  | (id, intervals) :: rest => do
    ensure (rest.all fun other => other.1 ≠ id || !intervalSetsOverlap intervals other.2)
      (.overlappingContracts id)
    validateDisjointIDs rest

def validateLayeredIntervals (schema : Schema) : Except LayerError Unit := do
  validateDisjointIDs
    (schema.constructors.map fun constructor => (constructor.id, constructor.intervals))
  validateDisjointIDs ((schema.functions.filter (!·.isHelper)).map fun function =>
    (function.id, function.intervals))

def validateHistoricalAcceptance (base : Schema) (baseLayer maxLayer : Int) :
    Except LayerError Unit :=
  (base.functions.filter (·.variantLayer ≠ 0)).forM fun function =>
    function.acceptIntervals.forM fun interval =>
      ensure (baseLayer ≤ interval.minLayer && interval.maxLayer ≤ maxLayer)
        (.historicalOutsideHistory function.name interval)

/-- The constructor of a bare family keeps its name through all snapshots. -/
def validateBareFamily (family : String) :
    String → List (Int × Schema) → Except LayerError Unit
  | _, [] => .ok ()
  | name, (layer, snapshot) :: rest =>
    match snapshot.findType family with
    | none => validateBareFamily family name rest
    | some declaration =>
      match declaration.constructors with
      | [constructor] => do
        ensure (name = "" || name = constructor.name)
          (.bareConstructorReplaced family name constructor.name)
        validateBareFamily family constructor.name rest
      | _ => .error (.bareFamilyConstructors family layer)

def validateBareConstructorNames (snapshots : List (Int × Schema)) (historical : List FuncDecl) :
    Except LayerError Unit :=
  let families := historical.flatMap (fun function => parameterBareNames function.params) ++
    snapshots.flatMap fun (_, snapshot) =>
      snapshot.constructors.flatMap (fun constructor => parameterBareNames constructor.params) ++
      snapshot.functions.flatMap fun function => parameterBareNames function.params
  families.forM fun family => validateBareFamily family "" snapshots

structure LayeredSchema where
  baseLayer : Int
  maxLayer : Int
  layers : List Int
  schema : Schema

def snapshotBase (base : Schema) : Schema :=
  { rebuildSchema base.layer base.constructors
      (base.functions.filter (·.variantLayer = 0)) with
    baseLayer := base.baseLayer
    isLayered := base.isLayered }

def suppliedLayers (baseLayer : Int) (differences : List LayerDifference) : List Int :=
  baseLayer :: differences.map (·.layer)

def lastLayer (baseLayer : Int) (differences : List LayerDifference) : Int :=
  (differences.getLast?.map (·.layer)).getD baseLayer

def resolveSnapshots (base : Schema) (baseLayer : Int) (differences : List LayerDifference) :
    Except LayerError (List (Int × Schema)) :=
  (suppliedLayers baseLayer differences).mapM fun layer => do
    let snapshot ← resolveLayer (snapshotBase base) baseLayer layer differences
    validateBareLayouts snapshot
    return (layer, snapshot)

def resolveLayers (base : Schema) (baseLayer : Int) (differences : List LayerDifference) :
    Except LayerError LayeredSchema := do
  let maxLayer := lastLayer baseLayer differences
  validateHistoricalAcceptance base baseLayer maxLayer
  let _ ← resolveLayer (snapshotBase base) baseLayer maxLayer differences
  let snapshots ← resolveSnapshots base baseLayer differences
  validateBareConstructorNames snapshots base.functions
  let state ← Combination.addSnapshots {} snapshots
  let functions ← base.functions.foldlM
    (addHistorical baseLayer maxLayer
      (snapshotSpans maxLayer snapshots state.versionsBySnapshot)) state.functions.entries
  let constructors := state.constructors.entries
  let types := (markUnions (constructors.foldl addToFamily [])).map sortFamily
  let schema : Schema :=
    { layer := maxLayer, baseLayer, isLayered := true, constructors, types,
      functions := setRequestIntervals functions, unionTypes := unionNames types }
  validateLayeredIntervals schema
  return ⟨baseLayer, maxLayer, suppliedLayers baseLayer differences, schema⟩

end Tlrpc
