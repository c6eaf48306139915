import Mathlib.Algebra.GroupWithZero.Nat
import Tlrpc.Schema
import Tlrpc.StateExcept

namespace Tlrpc

inductive TokenType
  | eof | ident | number | colon | semi | equals | lparen | rparen | lbrace | rbrace | lbracket | rbracket
  | less | greater | question | hash | bang | percent | dot | comma | newLine | comment | types | functions
  | hashBracket
deriving DecidableEq

structure Token where
  type : TokenType
  literal : String
deriving DecidableEq

def isLetter (ch : Char) : Bool :=
  ch.isAlpha || ch.val ∈ [0xaa, 0xb5, 0xba] ||
    0xc0 ≤ ch.val && ch.val ≤ 0xff && ch.val ≠ 0xd7 && ch.val ≠ 0xf7

def isIdentChar (ch : Char) : Bool := isLetter ch || ch.isDigit || ch == '_'

def isHexDigit (ch : Char) : Bool := ch.isDigit || 'a' ≤ ch && ch ≤ 'f' || 'A' ≤ ch && ch ≤ 'F'

def isAllHexDigits (s : List Char) : Bool :=
  match s with
  | [] => false
  | '0' :: 'x' :: rest => rest.all isHexDigit
  | s => s.all isHexDigit

namespace Lexer

def singleChars : List (Char × TokenType) :=
  [(':', .colon), (';', .semi), ('=', .equals), ('(', .lparen), (')', .rparen), ('\x7b', .lbrace),
    ('\x7d', .rbrace), ('[', .lbracket), (']', .rbracket), ('<', .less), ('>', .greater), ('?', .question),
    (',', .comma), ('#', .hash), ('!', .bang), ('%', .percent), ('.', .dot), ('\n', .newLine)]

def skipWhitespace (input : List Char) : List Char :=
  input.dropWhile fun ch => ch == ' ' || ch == '\t' || ch == '\r'

def readIdent (input : List Char) : Token × List Char :=
  let literal := input.takeWhile isIdentChar
  let type := if isAllHexDigits literal && literal.head?.any Char.isDigit then .number else .ident
  (⟨type, String.ofList literal⟩, input.dropWhile isIdentChar)

def line (input : List Char) : List Char := input.takeWhile (· ≠ '\n')

def readSectionMarker (input : List Char) : Token × List Char :=
  if line input = "---types---".toList then (⟨.types, "---types---"⟩, input.dropWhile (· ≠ '\n'))
  else if line input = "---functions---".toList then
    (⟨.functions, "---functions---"⟩, input.dropWhile (· ≠ '\n'))
  else readIdent input

/-- `NextToken`. An unknown character gives a token of the kind that the end has. -/
def nextToken (input : List Char) : Token × List Char :=
  match skipWhitespace input with
  | [] => (⟨.eof, ""⟩, [])
  | ch :: rest =>
    if 3 < (ch :: rest).length ∧ (ch :: rest).take 3 = ['-', '-', '-'] then readSectionMarker (ch :: rest)
    else if ch = '/' ∧ rest.head? = some '/' then
      (⟨.comment, String.ofList (line (ch :: rest))⟩, rest.dropWhile (· ≠ '\n'))
    else if ch = '#' ∧ rest.take 2 = [' ', '['] then (⟨.hashBracket, "# ["⟩, rest.drop 2)
    else match singleChars.lookup ch with
      | some type => (⟨type, String.singleton ch⟩, rest)
      | none =>
        if isIdentChar ch then readIdent (ch :: rest) else (⟨.eof, String.singleton ch⟩, rest)

end Lexer

def TypeHead.front (head : TypeHead) : String :=
  (if head.isBare then "!" else "") ++
  (match head.flagBit with
    | some bit => (if head.flagName = "" then "flags" else head.flagName) ++ "." ++ toString bit ++ "?"
    | none => "") ++
  (if head.nameSpace ≠ "" then head.nameSpace ++ "." else "") ++ head.name ++
  (if head.genericArg ≠ "" then " " ++ head.genericArg else "")

def TypeHead.mark (head : TypeHead) : String := if head.optional && head.flagBit.isNone then "?" else ""

def TypeRef.string : TypeRef → String
  | .plain head => head.front ++ (if head.isVector then "<>" else "") ++ head.mark
  | .generic head element =>
    head.front ++ (if head.isVector then "<" ++ element.string ++ ">" else "") ++ head.mark

def crcBit (crc : UInt32) : UInt32 :=
  if crc &&& 1 = 1 then (crc >>> 1) ^^^ 0xedb88320 else crc >>> 1

def computeCRC32 (format : String) : UInt32 :=
  ~~~(format.toList.foldl (fun crc ch => Nat.repeat crcBit 8 (crc ^^^ UInt32.ofNat (ch.toNat % 256)))
    0xffffffff)

/-- The `SerializationFormat` without the semicolon that constructors have. -/
def declarationFormat (name : String) (params : List Parameter) (resultType : TypeRef) : String :=
  name ++ String.join (params.map fun param => " " ++ param.name ++ ":" ++ param.type.string) ++
    " = " ++ resultType.string

/-- A parse error, or the end of the fuel of a loop. -/
inductive ParseFailure
  | error
  | fuel
deriving DecidableEq

structure Parser where
  input : List Char
  cur : Token
  peek : Token

abbrev ParserM := StateExcept Parser ParseFailure

namespace Parser

open StateExcept

def nextToken (p : Parser) : Parser :=
  ⟨(Lexer.nextToken p.input).2, p.peek, (Lexer.nextToken p.input).1⟩

def start (input : List Char) : Parser :=
  nextToken (nextToken ⟨input, ⟨.eof, ""⟩, ⟨.eof, ""⟩⟩)

def curType : ParserM TokenType := view (·.cur.type)

def demand (type : TokenType) : ParserM String := fun p =>
  if p.cur.type = type then (.ok p.cur.literal, p.nextToken) else (.error .error, p)

def expect (type : TokenType) : ParserM Bool := fun p =>
  if p.cur.type = type then (.ok true, p.nextToken) else (.ok false, p)

def skipNewlines : Nat → ParserM Unit
  | 0 => fail .fuel
  | fuel + 1 => do
    if ← expect .newLine then skipNewlines fuel

def parseIdentRest : Nat → String → ParserM String
  | 0, _ => fail .fuel
  | fuel + 1, name => do
    if ← expect .dot then
      let part ← demand .ident
      parseIdentRest fuel (name ++ "." ++ part)
    else pure name

def parseIdent (fuel : Nat) : ParserM String := do
  let type ← curType
  let first ← demand (if type = .hash then .hash else .ident)
  parseIdentRest fuel first

def parseHex (digits : List Char) : Option UInt32 :=
  let value := digits.foldl (fun value ch => value * 16 +
    if ch.isDigit then ch.toNat - 48 else if 'a' ≤ ch then ch.toNat - 87 else ch.toNat - 55) 0
  if digits = [] ∨ value ≥ 2 ^ 32 then none else some (UInt32.ofNat value)

def parseHexID : ParserM UInt32 := do
  let type ← curType
  let literal ← demand (if type = .number then .number else .ident)
  require (isAllHexDigits literal.toList = true) .error
  let digits := match literal.toList with
    | '0' :: 'x' :: digits => digits
    | digits => digits
  match parseHex digits with
  | some id => pure id
  | none => fail .error

def parseGenericParamsRest : Nat → List GenericParam → ParserM (List GenericParam)
  | 0, _ => fail .fuel
  | fuel + 1, params => do
    let type ← curType
    if type = .rbrace ∨ type = .eof then pure params
    else
      let name ← demand .ident
      let _ ← demand .colon
      let constraint ← demand .ident
      let more ← expect .comma
      let type ← curType
      require (more = true ∨ type = .rbrace) .error
      parseGenericParamsRest fuel (params ++ [⟨name, constraint⟩])

def parseGenericParams (fuel : Nat) : ParserM (List GenericParam) := do
  if ← expect .lbrace then
    let params ← parseGenericParamsRest fuel []
    let _ ← demand .rbrace
    pure params
  else pure []

def isTypeVariable (name : String) : Bool :=
  match name.toList with
  | [ch] => ch.isAlpha
  | _ => false

def splitName (name : String) : TypeHead :=
  match (name.toList.splitOn '.').map String.ofList with
  | [nameSpace, name] => { name, nameSpace, isTypeVar := isTypeVariable name }
  | _ => { name, isTypeVar := isTypeVariable name }

def parseFlagBit (literal : List Char) : Option Nat :=
  let value := literal.foldl (fun value ch => value * 10 + (ch.toNat - 48)) 0
  if literal ≠ [] ∧ literal.all Char.isDigit ∧ value < 2 ^ 63 then some value else none

/-- `parseTypeRef` and `parseConditionalTypeRef`, which drops a `!` before the flags. -/
def parseTypeRef : Nat → ParserM TypeRef
  | 0 => fail .fuel
  | fuel + 1 => do
    let isBare ← expect .bang
    let token ← view (·.cur)
    if token.type = .ident ∧ token.literal.toList.take 5 = "flags".toList then
      let flagName ← demand .ident
      let _ ← expect .dot
      let literal ← demand .number
      match parseFlagBit literal.toList with
      | none => fail .error
      | some bit =>
        let _ ← expect .question
        let actual ← parseTypeRef fuel
        pure (actual.mapHead fun head => { head with optional := true, flagName, flagBit := some bit })
    else
      let name ← parseIdent fuel
      let head := { splitName name with isBare }
      let reference ← (do
        if ← expect .less then
          let element ← parseTypeRef fuel
          let _ ← expect .greater
          require (head.name = "vector" ∨ head.name = "Vector") .error
          pure (TypeRef.generic { head with isVector := true } element)
        else pure (TypeRef.plain head))
      let optional ← expect .question
      pure (reference.mapHead fun head => { head with optional })

def parseParams : Nat → List Parameter → ParserM (List Parameter)
  | 0, _ => fail .fuel
  | fuel + 1, params => do
    let type ← curType
    if type = .equals ∨ type = .eof then pure params
    else
      let name ← parseIdent fuel
      let _ ← demand .colon
      let type ← parseTypeRef fuel
      parseParams fuel (params ++ [⟨name, type, type.head.flagBit⟩])

def parseResultType (fuel : Nat) : ParserM TypeRef := do
  let _ ← demand .equals
  let resultType ← parseTypeRef fuel
  let type ← curType
  if type = .ident then
    let genericArg ← demand .ident
    pure (resultType.mapHead fun head => { head with genericArg, isTypeVar := isTypeVariable genericArg })
  else pure resultType

/-- The result and whether the declaration has a question mark. -/
def builtinDeclarations : List (String × String × Bool) :=
  [("int", "Int", true), ("long", "Long", true), ("double", "Double", true), ("string", "String", true),
    ("bytes", "Bytes", false), ("int256", "Int256", false)]

def parseBuiltinConstructor (fuel : Nat) (name : String) : ParserM Constructor := do
  match builtinDeclarations.lookup name with
  | none => fail .error
  | some (result, questionMark) =>
    let marked ← expect .question
    require (marked = questionMark) .error
    let _ ← demand .equals
    let resultType ← parseTypeRef fuel
    let head := resultType.head
    require (head.fullName = result ∧ head.optional = false ∧ head.isVector = false ∧
      head.genericArg = "") .error
    pure { name, id := computeCRC32 (name ++ (if questionMark then " ? = " else " = ") ++ result), resultType }

def parseConstructorID : ParserM UInt32 := do
  let token ← view (·.cur)
  if token.type = .number ∨ token.type = .ident ∧ isAllHexDigits token.literal.toList = true then parseHexID
  else pure 0

def parseVectorCount : ParserM (Option String) := do
  if ← expect .hashBracket then
    let count ← demand .ident
    let _ ← demand .rbracket
    pure (some count)
  else pure none

def parseConstructor (fuel : Nat) : ParserM Constructor := do
  let isBare ← expect .percent
  let name ← parseIdent fuel
  if ← expect .hash then
    let id ← parseConstructorID
    let genericParams ← parseGenericParams fuel
    let vectorCount ← parseVectorCount
    let params ← parseParams fuel []
    let resultType ← parseResultType fuel
    let id := if id = 0 then computeCRC32 (declarationFormat name params resultType ++ ";") else id
    pure { name, id, genericParams, params, resultType, isBare, vectorCount }
  else
    require (isBare = false) .error
    parseBuiltinConstructor fuel name

def parseExplicitID : ParserM (Option UInt32) := do
  if ← expect .hash then
    let id ← parseHexID
    pure (some id)
  else pure none

def parseFunction (fuel : Nat) : ParserM FuncDecl := do
  let name ← parseIdent fuel
  let explicitID ← parseExplicitID
  let genericParams ← parseGenericParams fuel
  let params ← parseParams fuel []
  let resultType ← parseResultType fuel
  let id := explicitID.getD (computeCRC32 (declarationFormat name params resultType))
  let isTemplate := genericParams.any (·.name = resultType.head.name)
  pure { name, id, genericParams, params, resultType, isTemplate }

end Parser

def Schema.addConstructor (schema : Schema) (constructor : Constructor) : Schema :=
  let types :=
    if schema.types.any (·.name = constructor.family) then schema.types.map fun type =>
      -- type names are distinct, so this is the first one
      if type.name = constructor.family then { type with
        constructors := type.constructors ++ [constructor]
        isUnion := true }
      else type
    else schema.types ++ [⟨constructor.family, [constructor], false, 0⟩]
  { schema with
    types
    constructors := schema.constructors ++ [constructor] }

def Schema.addFunction (schema : Schema) (function : FuncDecl) : Schema :=
  { schema with functions := schema.functions ++ [function] }

/-- A function `fPrefix` that goes with a template `f`. -/
def FuncDecl.isPrefixHelper (functions : List FuncDecl) (helper : FuncDecl) : Bool :=
  helper.name.toList.drop (helper.name.length - 6) = "Prefix".toList && helper.resultType.fullName = "Error" &&
    (functions.reverse.find? (·.name = String.ofList (helper.name.toList.take (helper.name.length - 6)))).any
      fun base => base.id = helper.id && base.isTemplate

def markSerializerPrefixHelpers (schema : Schema) : Schema :=
  { schema with
    functions := schema.functions.map fun helper =>
      if helper.isPrefixHelper schema.functions then { helper with isHelper := true } else helper }

namespace Parser

open StateExcept

def parseConstructors : Nat → Schema → ParserM Schema
  | 0, _ => fail .fuel
  | fuel + 1, schema => do
    let type ← curType
    if type = .eof ∨ type = .functions ∨ type = .types then pure schema
    else
      let constructor ← parseConstructor fuel
      if ← expect .semi then
        skipNewlines fuel
        parseConstructors fuel (schema.addConstructor constructor)
      else pure (schema.addConstructor constructor)

def parseFunctions : Nat → Schema → ParserM Schema
  | 0, _ => fail .fuel
  | fuel + 1, schema => do
    let type ← curType
    if type = .eof ∨ type = .functions ∨ type = .types then pure schema
    else
      let function ← parseFunction fuel
      let _ ← expect .semi
      skipNewlines fuel
      parseFunctions fuel (schema.addFunction function)

def parseSections : Nat → Schema → ParserM Schema
  | 0, _ => fail .fuel
  | fuel + 1, schema => do
    let type ← curType
    if type = .eof then pure schema
    else if ← expect .types then
      skipNewlines fuel
      parseConstructors fuel schema >>= parseSections fuel
    else if ← expect .functions then
      skipNewlines fuel
      parseFunctions fuel schema >>= parseSections fuel
    else parseConstructors fuel schema >>= parseSections fuel

def parseWithLayer (fuel : Nat) (input : List Char) (layer : Int) : Except ParseFailure Schema :=
  (parseSections fuel { layer } (start input)).1.map markSerializerPrefixHelpers

end Parser

end Tlrpc
