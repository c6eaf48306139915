import Tlrpc.ResolveLayer
import Tlrpc.SchemaParser

namespace Tlrpc

open List

def builtinTypes : List String :=
  ["int", "long", "int128", "int256", "double", "string", "bytes", "bool", "true", "false", "Bool", "Object",
    "Function", "Type", "#", "Vector", "vector"]

inductive ValidationError
  | duplicateConstructorID (id : UInt32) (name : String)
  | duplicateFunctionID (id : UInt32) (name : String)
  | undefinedType (name context : String)
  | noFlagsParameter (scope field : String)
  | invalidTypeName (name : String)
  | invalidConstructorName (name : String)
  | invalidFunctionName (name : String)
deriving DecidableEq

structure Declaration where
  scope : String
  genericParams : List GenericParam
  params : List Parameter
  resultType : TypeRef

def Constructor.declaration (c : Constructor) : Declaration :=
  ⟨"constructor " ++ c.name, c.genericParams, c.params, c.resultType⟩

def FuncDecl.declaration (f : FuncDecl) : Declaration :=
  ⟨"function " ++ f.name, f.genericParams, f.params, f.resultType⟩

def Schema.declarations (schema : Schema) : List Declaration :=
  schema.constructors.map Constructor.declaration ++ schema.functions.map FuncDecl.declaration

def Schema.defines (schema : Schema) (declaration : Declaration) (name : String) : Bool :=
  builtinTypes.contains name || schema.types.any (·.name = name) ||
    declaration.genericParams.any (·.name = name)

def declarationIntervalSetsOverlap (first second : List LayerInterval) : Bool :=
  intervalSetsOverlap (if first = [] then [⟨0, 0⟩] else first) (if second = [] then [⟨0, 0⟩] else second)

namespace Schema

/-- The errors of the loop over the IDs, in the order of declaration. -/
def validateUniqueConstructorIDs (schema : Schema) : List ValidationError :=
  (schema.constructors.filter fun c =>
    let group := schema.constructors.filter (·.id = c.id)
    group.length > 1 && !(schema.isLayered &&
      group.Pairwise fun a b => ¬ declarationIntervalSetsOverlap a.intervals b.intervals)).map
    fun c => .duplicateConstructorID c.id c.name

def validateUniqueFunctionIDs (schema : Schema) : List ValidationError :=
  (schema.functions.filter fun f =>
    let group := schema.functions.filter (·.id = f.id)
    group.length > 1 &&
      !(schema.isLayered && group.Pairwise fun a b => serializerPrefixPair a b = true ∨
        ¬ declarationIntervalSetsOverlap a.intervals b.intervals) &&
      !(group.length = 2 && group.countP (·.isHelper) = 1)).map
    fun f => .duplicateFunctionID f.id f.name

def checkName (defined : String → Bool) (context : String) (head : TypeHead) : List ValidationError :=
  if defined head.fullName then [] else [.undefinedType head.fullName context]

/-- A conditional type is checked without its element type. -/
def checkTypeReference (defined : String → Bool) : String → TypeRef → List ValidationError
  | context, .plain head => checkName defined context head
  | context, .generic head element =>
    checkName defined context head ++
      if head.flagBit.isSome || !head.isVector then []
      else checkTypeReference defined (context ++ " vector element") element

def validateTypeResolution (schema : Schema) : List ValidationError :=
  schema.declarations.flatMap fun d =>
    checkTypeReference (schema.defines d) (d.scope ++ " result type") d.resultType ++
      d.params.flatMap fun param =>
        checkTypeReference (schema.defines d) (d.scope ++ " parameter " ++ param.name) param.type

def validateFlagBits (d : Declaration) : List ValidationError :=
  let hasFlagsParam := d.params.any fun param =>
    param.name.toList.take 5 = "flags".toList && param.type.head.name = "#"
  if hasFlagsParam then []
  else (d.params.filter (·.flagBit.isSome)).map fun param => .noFlagsParameter d.scope param.name

def validIdent (part : List Char) : Bool :=
  part.head?.any (fun ch => ch.isAlpha || ch == '_') && part.all fun ch => ch.isAlphanum || ch == '_'

def validName (name : String) : Bool := ((name.toList.splitOn '.').filter (· ≠ [])).all validIdent

def validateNamespaceValidity (schema : Schema) : List ValidationError :=
  ((schema.types.filter fun type => type.name ≠ "" && !(type.name.toList.splitOn '.').all validIdent).map
    fun type => .invalidTypeName type.name) ++
  ((schema.constructors.filter fun c => !validName c.name).map fun c => .invalidConstructorName c.name) ++
  ((schema.functions.filter fun f => !validName f.name).map fun f => .invalidFunctionName f.name)

def validate (schema : Schema) : List ValidationError :=
  schema.validateUniqueConstructorIDs ++ schema.validateUniqueFunctionIDs ++
    schema.validateTypeResolution ++ schema.declarations.flatMap validateFlagBits ++
    schema.validateNamespaceValidity

end Schema

def TypeHead.arguments (head : TypeHead) : List String :=
  if head.genericArg = "" then [] else [head.genericArg]

def TypeRef.names : TypeRef → List String
  | .plain head => head.fullName :: head.arguments
  | .generic head element => head.fullName :: head.arguments ++ element.names

/-- What `checkTypeReference` skips: generic arguments, and all below a conditional type. -/
def TypeRef.unchecked : TypeRef → List String
  | .plain head => head.arguments
  | .generic head element =>
    head.arguments ++ if head.flagBit.isSome || !head.isVector then element.names else element.unchecked

def Declaration.types (d : Declaration) : List TypeRef := d.resultType :: d.params.map (·.type)

def flagsDeclared : List Parameter → List Parameter → Bool
  | _, [] => true
  | earlier, param :: rest =>
    (param.flagBit.isNone || earlier.any fun flag =>
      flag.name = param.type.head.flagName && flag.type.fullName = "#") &&
    flagsDeclared (earlier ++ [param]) rest

namespace Schema

def namesResolve (schema : Schema) : Bool :=
  schema.declarations.all fun d => d.types.all fun type => type.names.all (schema.defines d)

def uncheckedResolve (schema : Schema) : Bool :=
  schema.declarations.all fun d => d.types.all fun type => type.unchecked.all (schema.defines d)

theorem checkName_nil {defined : String → Bool} {context : String} {head : TypeHead}
    (h : checkName defined context head = []) : defined head.fullName = true := by
  unfold checkName at h
  split at h
  next hdef => exact hdef
  · cases h

theorem checkTypeReference_names {defined : String → Bool} {context : String} {type : TypeRef}
    (h : checkTypeReference defined context type = []) :
    type.names.all defined = type.unchecked.all defined := by
  induction type generalizing context with
  | plain head =>
    simp [TypeRef.names, TypeRef.unchecked, checkName_nil h]
  | generic head element ih =>
    obtain ⟨hnm, hrs⟩ := append_eq_nil_iff.mp h
    have hdef := checkName_nil hnm
    unfold TypeRef.names TypeRef.unchecked
    split at hrs
    next hsk => simp [hsk, hdef]
    next hsk => simp [hsk, hdef, ih hrs]

theorem resolution_checked {schema : Schema} (h : schema.validateTypeResolution = []) {d : Declaration}
    (hd : d ∈ schema.declarations) {type : TypeRef} (hty : type ∈ d.types) :
    ∃ context, checkTypeReference (schema.defines d) context type = [] := by
  obtain ⟨hres, hps⟩ := append_eq_nil_iff.mp (flatMap_eq_nil_iff.mp h d hd)
  rcases mem_cons.mp hty with rfl | hty
  · exact ⟨_, hres⟩
  · obtain ⟨param, hin, rfl⟩ := mem_map.mp hty
    exact ⟨_, flatMap_eq_nil_iff.mp hps param hin⟩

end Schema

end Tlrpc
