import Tlrpc.ResolveLayers
import Tlrpc.SchemaValidation

namespace Tlrpc

open List

def goKeywords : List (List Char) :=
  ["break", "default", "func", "interface", "select", "case", "defer", "go", "map", "struct", "chan", "else",
    "goto", "package", "switch", "const", "fallthrough", "if", "range", "type", "continue", "for", "import",
    "return", "var"].map String.toList

def initialisms : List (List Char) :=
  ["api", "ascii", "cpu", "css", "dns", "eof", "guid", "html", "http", "https", "id", "ip", "json", "lhs", "qps",
    "ram", "rhs", "rpc", "sla", "smtp", "sql", "ssh", "tcp", "tls", "ttl", "udp", "ui", "uid", "uuid", "uri",
    "url", "utf8", "vm", "xml"].map String.toList

def isBoundary (prev curr : Char) (next : Option Char) : Bool :=
  curr.isDigit && !prev.isDigit || !curr.isDigit && prev.isDigit || curr.isUpper && prev.isLower ||
    curr.isUpper && next.any Char.isLower && prev.isUpper

def splitCamelFrom : List Char → Char → List Char → List (List Char)
  | word, _, [] => [word]
  | word, prev, curr :: rest =>
    if isBoundary prev curr rest.head? then word :: splitCamelFrom [curr] curr rest
    else splitCamelFrom (word ++ [curr]) curr rest

def splitCamel : List Char → List (List Char)
  | [] => []
  | first :: rest => splitCamelFrom [first] first rest

def splitWords (name : List Char) : List (List Char) :=
  let words := (name.splitOn '_').flatMap splitCamel
  if words = [] then [name] else words

def exportWord (word : List Char) : List Char :=
  let lower := word.map Char.toLower
  if initialisms.contains lower then lower.map Char.toUpper else lower.modifyHead Char.toUpper

def isReserved (name : List Char) : Bool := goKeywords.contains (name.map Char.toLower)

def exported (name : List Char) : List Char :=
  (splitWords name).flatMap exportWord ++ if isReserved name then ['_'] else []

def joinParts {α : Type} (text : Char → α) (part : List Char → List α) (name : List Char) : List α :=
  match name.splitOn '.' with
  | [single] => part single
  | parts =>
    if parts.head? = some "mtproto".toList then
      "mtproto.".toList.map text ++ part (parts.getLast?.getD [])
    else parts.flatMap part

def qualify (name : List Char) : List Char := joinParts id exported name

def variantSuffix (layer : Int) : List Char :=
  if layer = 0 then [] else "Layer".toList ++ (toString layer).toList

def typeName (source : String × Int) : List Char := qualify source.1.toList ++ variantSuffix source.2

def requestSource (function : FuncDecl) : List Char :=
  function.name.toList.map fun ch => if ch = '.' then '_' else ch

def requestName (function : FuncDecl) : List Char :=
  exported (requestSource function) ++ "Request".toList ++ variantSuffix function.requestVariantLayer

def isBaseType (constructor : Constructor) : Bool :=
  ["boolFalse", "boolTrue", "true", "false", "error", "null", "string", "bytes", "int128", "int256", "double",
    "vector"].contains constructor.name

def isGeneric (constructor : Constructor) : Bool :=
  !constructor.genericParams.isEmpty || constructor.resultType.head.isTypeVar

def concreteSource (schema : Schema) (constructor : Constructor) : String × Int :=
  let family := if schema.isLayered then none else schema.types.find? fun declaration =>
    declaration.name = constructor.family && declaration.constructors.length = 1
  match family with
  | some declaration => (declaration.name, declaration.variantLayer)
  | none => (constructor.name, constructor.variantLayer)

def concreteTypeName (schema : Schema) (constructor : Constructor) : List Char :=
  typeName (concreteSource schema constructor)

/-- The constructors that `GenerateType` comes to, with what names them. -/
def Schema.typeSources (schema : Schema) : List ((String × Int) × Constructor) :=
  schema.types.flatMap fun declaration =>
    if declaration.constructors.length = 1 && !schema.isLayered then
      (declaration.constructors.filter fun c => !isBaseType c).map fun c =>
        ((declaration.name, declaration.variantLayer), c)
    else
      (declaration.constructors.filter fun c => !isBaseType c && !isGeneric c).map fun c =>
        (concreteSource schema c, c)

def serviceOf (function : FuncDecl) : List Char :=
  match function.name.toList.splitOn '.' with
  | first :: _ :: _ => first
  | _ => "root".toList

def groupByService (functions : List FuncDecl) : List FuncDecl :=
  functions.insertionSort fun a b => serviceOf a < serviceOf b ∨ serviceOf a = serviceOf b ∧
    (a.name < b.name ∨ a.name = b.name ∧ a.variantLayer ≤ b.variantLayer)

def Schema.requests (schema : Schema) : List FuncDecl :=
  (groupByService schema.functions).filter fun f => !(f.isTemplate || f.isHelper)

/-- The loops over `emittedTypes` and `emitted` skip a name that is there already. -/
def emitNew {α : Type} : List (List Char) → List (List Char × α) → List (List Char × α)
  | _, [] => []
  | emitted, (name, declared) :: rest =>
    if emitted.contains name then emitNew emitted rest else (name, declared) :: emitNew (name :: emitted) rest

def generateTypes (schema : Schema) : List (List Char × Constructor) :=
  emitNew [] (schema.typeSources.map fun c => (typeName c.1, c.2))

def generateRequests (schema : Schema) : List (List Char × FuncDecl) :=
  emitNew [] (schema.requests.map fun f => (requestName f, f))

variable {declared : List (List Char × α)} {entry : List Char × α}

section

variable {α β : Type} {name : List Char}

theorem joinParts_map (f : α → β) (text : Char → α) (part : List Char → List α) :
    (joinParts text part name).map f = joinParts (fun ch => f (text ch)) (fun p => (part p).map f) name := by
  unfold joinParts
  split
  · rfl
  split
  · simp
  · rw [map_flatMap]

theorem emitNew_mem {emitted : List (List Char)}
    (h : entry ∈ emitNew emitted declared) : entry ∈ declared ∧ entry.1 ∉ emitted := by
  induction declared generalizing emitted with
  | nil => exact absurd h not_mem_nil
  | cons first rest ih =>
    unfold emitNew at h
    split at h
    · exact ⟨mem_cons_of_mem _ (ih h).1, (ih h).2⟩
    rename_i hnew
    rcases mem_cons.mp h with rfl | h
    · exact ⟨mem_cons_self, by simpa using hnew⟩
    · obtain ⟨hmem, hnm⟩ := ih h
      exact ⟨mem_cons_of_mem _ hmem, fun hin => hnm (mem_cons_of_mem _ hin)⟩

theorem emitNew_covers (emitted : List (List Char))
    (h : entry ∈ declared) : entry.1 ∈ emitted ∨ ∃ other ∈ emitNew emitted declared, other.1 = entry.1 := by
  induction declared generalizing emitted with
  | nil => exact absurd h not_mem_nil
  | cons first rest ih =>
    unfold emitNew
    split
    next hold =>
      rcases mem_cons.mp h with rfl | h
      · exact .inl (by simpa using hold)
      · exact ih emitted h
    rcases mem_cons.mp h with rfl | h
    · exact .inr ⟨_, mem_cons_self, rfl⟩
    rcases ih (first.1 :: emitted) h with hin | ⟨other, hother, hnm⟩
    · rcases mem_cons.mp hin with heq | hin
      · exact .inr ⟨_, mem_cons_self, heq.symm⟩
      · exact .inl hin
    · exact .inr ⟨other, mem_cons_of_mem _ hother, hnm⟩

theorem emitNew_keeps {γ : Type} (goName : γ → List Char) (declared : γ → α) (contract : α → β)
    {sources : List γ} (h : ∀ a ∈ sources, ∀ b ∈ sources, goName a = goName b →
      contract (declared a) = contract (declared b)) :
    ∀ a ∈ sources, ∃ b ∈ emitNew [] (sources.map fun c => (goName c, declared c)), b.1 = goName a ∧
      contract b.2 = contract (declared a) := by
  intro a ha
  rcases emitNew_covers [] (@mem_map_of_mem _ _ _ _ (fun c => (goName c, declared c)) ha) with
    hin | ⟨b, hb, hnm⟩
  · exact absurd hin not_mem_nil
  · obtain ⟨c, hc, rfl⟩ := mem_map.mp (emitNew_mem hb).1
    exact ⟨_, hb, hnm, h c hc a ha hnm⟩

end

def partLetters (part : List Char) : List Char :=
  let kept := part.filter (· ≠ '_')
  (if kept = [] then part else kept).map Char.toLower ++ if isReserved part then ['_'] else []

def wordCapitals (word : List Char) : List Bool :=
  if initialisms.contains (word.map Char.toLower) then word.map Char.isAlpha
  else (word.map fun _ => false).modifyHead fun _ => word.head?.any Char.isAlpha

def partCapitals (part : List Char) : List Bool :=
  (splitWords part).flatMap wordCapitals ++ if isReserved part then [false] else []

/-- The names have the same letters, with capitals in the same places. -/
def TypesAlike (a b : String × Int) : Prop :=
  joinParts Char.toLower partLetters a.1.toList ++ (variantSuffix a.2).map Char.toLower =
      joinParts Char.toLower partLetters b.1.toList ++ (variantSuffix b.2).map Char.toLower ∧
    joinParts Char.isUpper partCapitals a.1.toList ++ (variantSuffix a.2).map Char.isUpper =
      joinParts Char.isUpper partCapitals b.1.toList ++ (variantSuffix b.2).map Char.isUpper

def requestSuffix (f : FuncDecl) : List Char := "Request".toList ++ variantSuffix f.requestVariantLayer

def RequestsAlike (a b : FuncDecl) : Prop :=
  partLetters (requestSource a) ++ (requestSuffix a).map Char.toLower =
      partLetters (requestSource b) ++ (requestSuffix b).map Char.toLower ∧
    partCapitals (requestSource a) ++ (requestSuffix a).map Char.isUpper =
      partCapitals (requestSource b) ++ (requestSuffix b).map Char.isUpper

theorem char_eq_of_lower {c d : Char} (h : c.toLower = d.toLower) (hup : c.isUpper = d.isUpper) : c = d := by
  delta Char.toLower at h
  unfold Char.isUpper at hup
  refine Char.ext ?_
  grind

theorem isUpper_toLower (c : Char) : c.toLower.isUpper = false := by
  delta Char.toLower
  unfold Char.isUpper
  grind

theorem toLower_toLower (c : Char) : c.toLower.toLower = c.toLower := by
  delta Char.toLower
  refine Char.ext ?_
  grind

theorem isAlpha_toLower (c : Char) : c.toLower.isAlpha = c.isAlpha := by
  delta Char.toLower
  unfold Char.isAlpha Char.isUpper Char.isLower
  grind

theorem isUpper_toUpper (c : Char) : c.toUpper.isUpper = c.isAlpha := by
  delta Char.toUpper
  unfold Char.isAlpha Char.isUpper Char.isLower
  grind

theorem toLower_toUpper (c : Char) : c.toUpper.toLower = c.toLower := by
  refine Char.ext ?_
  by_cases h : 'a'.val ≤ c.val ∧ c.val ≤ 'z'.val
  · have hup : c.toUpper.val = c.val + ('A'.val - 'a'.val) := by
      delta Char.toUpper
      simp only [h, and_self, dite_true]
    have hran : c.toUpper.val ≥ 'A'.val ∧ c.toUpper.val ≤ 'Z'.val := by grind
    delta Char.toLower
    grind
  · have hsm : c.toUpper = c := by
      delta Char.toUpper
      simp only [h, dite_false]
    rw [hsm]

theorem text_eq_iff {a b : List Char} :
    a = b ↔ a.map Char.toLower = b.map Char.toLower ∧ a.map Char.isUpper = b.map Char.isUpper := by
  refine ⟨fun h => h ▸ ⟨rfl, rfl⟩, ?_⟩
  rintro ⟨hlow, hup⟩
  induction a generalizing b with
  | nil =>
    rw [map_nil] at hlow
    exact (map_eq_nil_iff.mp hlow.symm).symm
  | cons c rest ih =>
    cases b with
    | nil => exact absurd hlow (cons_ne_nil _ _)
    | cons d more =>
      obtain ⟨hfst, hlow⟩ := cons.inj hlow
      obtain ⟨hcap, hup⟩ := cons.inj hup
      rw [char_eq_of_lower hfst hcap, ih hlow hup]

theorem exportWord_lower (word : List Char) : (exportWord word).map Char.toLower = word.map Char.toLower := by
  unfold exportWord
  dsimp only
  split
  · simp [toLower_toUpper, toLower_toLower]
  · cases word <;> simp [toLower_toUpper, toLower_toLower]

theorem exportWord_capitals (word : List Char) : (exportWord word).map Char.isUpper = wordCapitals word := by
  unfold exportWord wordCapitals
  dsimp only
  split
  · simp [isUpper_toUpper, isAlpha_toLower]
  cases word with
  | nil => rfl
  | cons first rest =>
    have hrs : rest.map (Char.isUpper ∘ Char.toLower) = rest.map fun _ => false :=
      map_congr_left fun c _ => isUpper_toLower c
    simp [isUpper_toUpper, isAlpha_toLower, hrs]

theorem splitCamelFrom_flatten (word : List Char) (prev : Char) (rest : List Char) :
    (splitCamelFrom word prev rest).flatten = word ++ rest := by
  induction rest generalizing word prev with
  | nil => simp [splitCamelFrom]
  | cons curr rest ih =>
    unfold splitCamelFrom
    split
    · simp [ih]
    · simp [ih]

theorem splitCamel_flatten (part : List Char) : (splitCamel part).flatten = part := by
  cases part with
  | nil => rfl
  | cons first rest => exact splitCamelFrom_flatten [first] first rest

theorem splitOn_flatten (sep : Char) (name : List Char) : (name.splitOn sep).flatten = name.filter (· ≠ sep) := by
  induction name with
  | nil => rfl
  | cons c rest ih =>
    unfold splitOn at ih ⊢
    rw [splitOnP_cons_eq_if_modifyHead]
    by_cases hc : c = sep
    · simp [hc, ih]
    cases hrs : splitOnP (· == sep) rest with
    | nil => exact absurd hrs (splitOnP_ne_nil _ _)
    | cons first more =>
      rw [hrs] at ih
      simp only [flatten_cons, ne_eq, decide_not] at ih
      simp [hc, ih]

theorem splitWords_flatten (part : List Char) :
    (splitWords part).flatten = if part.filter (· ≠ '_') = [] then part else part.filter (· ≠ '_') := by
  have hwds : ((part.splitOn '_').flatMap splitCamel).flatten = part.filter (· ≠ '_') := by
    rw [← splitOn_flatten, flatMap_def, flatten_flatten, map_map]
    congr 1
    exact map_id'' splitCamel_flatten _
  unfold splitWords
  dsimp only
  split
  next hnil =>
    rw [hnil, flatten_nil] at hwds
    rw [if_pos hwds.symm, flatten_singleton]
  rename_i hne
  rw [hwds, if_neg]
  intro hkp
  refine hne (flatMap_eq_nil_iff.mpr fun piece hin => ?_)
  rw [← splitOn_flatten] at hkp
  rw [flatten_eq_nil_iff.mp hkp piece hin]
  rfl

theorem exported_lower (part : List Char) : (exported part).map Char.toLower = partLetters part := by
  have hwds : ((splitWords part).flatMap exportWord).map Char.toLower =
      (splitWords part).flatten.map Char.toLower := by
    rw [map_flatMap, map_flatten, flatMap_def]
    congr 1
    exact map_congr_left fun word _ => exportWord_lower word
  unfold exported partLetters
  rw [map_append, hwds, splitWords_flatten]
  congr 1
  split <;> rfl

theorem exported_capitals (part : List Char) : (exported part).map Char.isUpper = partCapitals part := by
  unfold exported partCapitals
  rw [map_append, map_flatMap]
  congr 1
  · exact flatMap_congr fun word _ => exportWord_capitals word
  · split <;> rfl

theorem typeName_eq_iff (a b : String × Int) : typeName a = typeName b ↔ TypesAlike a b := by
  unfold typeName qualify TypesAlike
  rw [text_eq_iff]
  simp only [map_append, joinParts_map, id_eq, exported_lower, exported_capitals]

theorem requestName_eq_iff (a b : FuncDecl) : requestName a = requestName b ↔ RequestsAlike a b := by
  unfold requestName RequestsAlike requestSuffix
  rw [text_eq_iff]
  simp only [append_assoc, map_append, exported_lower, exported_capitals]

/-- Distinct contracts have types with names of their own, and none is skipped. -/
structure DistinctTypes (schema : Schema) : Prop where
  types : ∀ a ∈ schema.typeSources, ∀ b ∈ schema.typeSources, typeName a.1 = typeName b.1 →
    constructorContractSignature a.2 = constructorContractSignature b.2
  requests : ∀ a ∈ schema.requests, ∀ b ∈ schema.requests, requestName a = requestName b →
    functionRequestSignature a = functionRequestSignature b
  typesEmitted : ∀ a ∈ schema.typeSources, ∃ b ∈ generateTypes schema, b.1 = typeName a.1 ∧
    constructorContractSignature b.2 = constructorContractSignature a.2
  requestsEmitted : ∀ a ∈ schema.requests, ∃ b ∈ generateRequests schema, b.1 = requestName a ∧
    functionRequestSignature b.2 = functionRequestSignature a

def alikeText : String :=
  "foo_bar#1 = Foo; fooBar#2 x:int = Foo;\n---functions---\na.b#3 = Foo; a_b#4 x:int = Foo;"

end Tlrpc
