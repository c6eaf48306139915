import Tlrpc.LayerIntervals

namespace Tlrpc

structure GenericParam where
  name : String
  constraint : String
deriving DecidableEq

/-- The fields of a type reference beside its element type. -/
structure TypeHead where
  name : String
  nameSpace : String := ""
  isVector : Bool := false
  isBare : Bool := false
  genericArg : String := ""
  optional : Bool := false
  flagName : String := ""
  flagBit : Option Nat := none
  isTypeVar : Bool := false
  variantLayer : Int := 0
deriving DecidableEq

/-- A type reference without and with a `Generic` of its own. -/
inductive TypeRef
  | plain (head : TypeHead)
  | generic (head : TypeHead) (element : TypeRef)
deriving DecidableEq

def TypeRef.head : TypeRef → TypeHead
  | .plain head => head
  | .generic head _ => head

def TypeRef.element : TypeRef → Option TypeRef
  | .plain _ => none
  | .generic _ element => some element

def TypeRef.mapHead (f : TypeHead → TypeHead) : TypeRef → TypeRef
  | .plain head => .plain (f head)
  | .generic head element => .generic (f head) element

structure Parameter where
  name : String
  type : TypeRef
  flagBit : Option Nat := none
deriving DecidableEq

structure Constructor where
  name : String
  id : UInt32
  genericParams : List GenericParam := []
  params : List Parameter := []
  resultType : TypeRef
  isBare : Bool := false
  vectorCount : Option String := none
  variantLayer : Int := 0
  intervals : List LayerInterval := []
deriving DecidableEq

structure FuncDecl where
  name : String
  id : UInt32
  genericParams : List GenericParam := []
  params : List Parameter := []
  resultType : TypeRef
  isTemplate : Bool := false
  isHelper : Bool := false
  requestVariantLayer : Int := 0
  variantLayer : Int := 0
  intervals : List LayerInterval := []
  requestIntervals : List LayerInterval := []
  acceptIntervals : List LayerInterval := []
deriving DecidableEq

structure TypeDecl where
  name : String
  constructors : List Constructor
  isUnion : Bool
  variantLayer : Int := 0
deriving DecidableEq

structure Schema where
  layer : Int
  baseLayer : Int := 0
  isLayered : Bool := false
  types : List TypeDecl := []
  functions : List FuncDecl := []
  constructors : List Constructor := []
  /-- The names that are true in the map. -/
  unionTypes : List String := []
deriving DecidableEq

def TypeHead.fullName (head : TypeHead) : String :=
  if head.nameSpace ≠ "" then head.nameSpace ++ "." ++ head.name else head.name

def TypeHead.isBuiltin (head : TypeHead) : Bool :=
  ["int", "long", "int128", "int256", "double", "string", "bytes", "bool", "true", "false", "Bool",
    "Object", "Function", "Type", "#"].contains head.name

def TypeRef.fullName (reference : TypeRef) : String := reference.head.fullName

/-- A bare reference to a declared type, laid out where it stands. -/
def TypeHead.isBareReference (head : TypeHead) : Bool :=
  head.isBare && !head.isBuiltin && !head.isTypeVar

def Schema.findType (schema : Schema) (name : String) : Option TypeDecl :=
  schema.types.find? (·.name = name)

def Constructor.family (constructor : Constructor) : String := constructor.resultType.fullName

end Tlrpc
