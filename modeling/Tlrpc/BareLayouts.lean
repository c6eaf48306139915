import Tlrpc.ResolveLayers

namespace Tlrpc

open List Relation

def Lays (graph : String → List String) (a b : String) : Prop := b ∈ graph a

def Acyclic (graph : String → List String) : Prop := ∀ a, ¬TransGen (Lays graph) a a

variable {visit : List String → String → Except LayerError (List String)} {fuel : Nat}
  {constructors : List Constructor} {reference : TypeRef}

section

variable {graph : String → List String} {visiting visited visited' families : List String}
  {a b family : String}

/-- The order in which the search leaves families, the last one first. -/
def Finished (graph : String → List String) : List String → Prop
  | [] => True
  | family :: rest => (∀ child ∈ graph family, child ∈ rest) ∧ family ∉ rest ∧ Finished graph rest

section

variable (h : Finished graph visited) (ha : a ∈ visited)
include h ha

theorem Finished.closed (hab : b ∈ graph a) : b ∈ visited := by
  induction visited with
  | nil => cases ha
  | cons family rest ih =>
    rcases mem_cons.mp ha with rfl | ha
    · exact mem_cons_of_mem _ (h.1 b hab)
    · exact mem_cons_of_mem _ (ih h.2.2 ha)

theorem Finished.reaches (hab : ReflTransGen (Lays graph) a b) : b ∈ visited := by
  induction hab with
  | refl => exact ha
  | tail _ hst ih => exact h.closed ih hst

theorem Finished.acyclic : ¬TransGen (Lays graph) a a := by
  induction visited with
  | nil => cases ha
  | cons family rest ih =>
    obtain ⟨hch, hnew, hrs⟩ := h
    rcases mem_cons.mp ha with rfl | ha
    · -- the first edge leads into the rest, and no path leads out of it
      intro hcyc
      obtain ⟨child, hst, hback⟩ := TransGen.head'_iff.mp hcyc
      exact hnew (hrs.reaches (hch child hst) hback)
    · exact ih hrs ha

end

structure Visited (graph : String → List String) (visiting visited visited' families : List String) :
    Prop where
  finished : Finished graph visited'
  all : ∀ family ∈ families, family ∈ visited'
  kept : visited ⊆ visited'
  fresh : ∀ family ∈ visited', family ∈ visited ∨ family ∉ visiting

theorem Visited.foldlM
    (hvis : ∀ visited visited' family, Finished graph visited → visit visited family = .ok visited' →
      Visited graph visiting visited visited' [family])
    (hfin : Finished graph visited) (h : families.foldlM visit visited = .ok visited') :
    Visited graph visiting visited visited' families := by
  induction families generalizing visited with
  | nil =>
    cases h
    exact ⟨hfin, nofun, Subset.refl _, fun _ hf => .inl hf⟩
  | cons family rest ih =>
    rw [foldlM_cons] at h
    obtain ⟨mid, hmid, h⟩ := except_bind_ok h
    have hfst := hvis _ _ _ hfin hmid
    have hrs := ih hfst.finished h
    refine ⟨hrs.finished, ?_, List.Subset.trans hfst.kept hrs.kept, ?_⟩
    · intro other hm
      rcases mem_cons.mp hm with rfl | hm
      · exact hrs.kept (hfst.all _ (mem_singleton_self _))
      · exact hrs.all other hm
    · intro other hm
      rcases hrs.fresh other hm with hm | hno
      · exact hfst.fresh other hm
      · exact .inr hno

theorem visitFamily_visited (hfin : Finished graph visited)
    (h : visitFamily graph fuel visiting visited family = .ok visited') :
    Visited graph visiting visited visited' [family] := by
  induction fuel generalizing visiting visited visited' family with
  | zero => cases h
  | succ fuel ih =>
    rw [visitFamily] at h
    split at h
    · cases h
    rename_i hnot
    split at h
    next hin =>
      cases h
      refine ⟨hfin, ?_, Subset.refl _, fun _ hf => .inl hf⟩
      simpa using hin
    next hout =>
      obtain ⟨mid, hmid, h⟩ := except_bind_ok h
      cases h
      have hch := Visited.foldlM (fun _ _ _ hf hv => ih hf hv) hfin hmid
      have hnew : family ∉ mid := by
        intro hm
        rcases hch.fresh family hm with hm | hno
        · exact hout (by simpa using hm)
        · exact hno (mem_cons_self ..)
      refine ⟨⟨hch.all, hnew, hch.finished⟩, by simp, ?_, ?_⟩
      · exact List.Subset.trans hch.kept (subset_cons_self _ _)
      · intro other hm
        rcases mem_cons.mp hm with rfl | hm
        · exact .inr (by simpa using hnot)
        · exact (hch.fresh other hm).imp_right fun hno hm => hno (mem_cons_of_mem _ hm)

structure Below (graph : String → List String) (stack : List String) (family : String) : Prop where
  nodup : stack.Nodup
  path : ∀ f ∈ stack, TransGen (Lays graph) f family

theorem Below.start : Below graph [] a := ⟨nodup_nil, nofun⟩

theorem Below.push (h : Below graph visiting a) (hnot : a ∉ visiting) (hab : b ∈ graph a) :
    Below graph (a :: visiting) b := by
  refine ⟨nodup_cons.mpr ⟨hnot, h.nodup⟩, fun f hf => ?_⟩
  rcases mem_cons.mp hf with rfl | hf
  · exact .single hab
  · exact (h.path f hf).tail hab

theorem Below.bounded (h : Below graph visiting family) (hac : Acyclic graph)
    (hnd : ∀ family, graph family ≠ [] → family ∈ families) :
    family ∉ visiting ∧ visiting.length ≤ families.length := by
  refine ⟨fun hm => hac family (h.path family hm), ?_⟩
  have hsub : visiting ⊆ families := by
    intro f hf
    obtain ⟨child, hst, _⟩ := TransGen.head'_iff.mp (h.path f hf)
    exact hnd f (ne_nil_of_mem hst)
  exact (subperm_of_subset h.nodup hsub).length_le

theorem visitFamily_acyclic (hac : Acyclic graph) (hnd : ∀ family, graph family ≠ [] → family ∈ families)
    (hbl : Below graph visiting family) (hfuel : families.length + 2 ≤ fuel + visiting.length)
    (visited : List String) : ∃ visited', visitFamily graph fuel visiting visited family = .ok visited' := by
  obtain ⟨hnot, hle⟩ := hbl.bounded hac hnd
  induction fuel generalizing visiting visited family with
  | zero => omega
  | succ fuel ih =>
    rw [visitFamily, if_neg (by simpa using hnot)]
    split
    · exact ⟨visited, rfl⟩
    obtain ⟨mid, hmid⟩ : ∃ mid, (graph family).foldlM
        (visitFamily graph fuel (family :: visiting)) visited = .ok mid := by
      refine except_foldlM_exists fun visited child hch => ?_
      have hbl := hbl.push hnot hch
      obtain ⟨hnot, hle⟩ := hbl.bounded hac hnd
      exact ih hbl (by rw [length_cons]; omega) visited hnot hle
    exact ⟨family :: mid, by rw [hmid]; rfl⟩

theorem bareSearch_iff {order : List String} (hnd : ∀ family, graph family ≠ [] → family ∈ families)
    (hord : ∀ family, graph family ≠ [] → family ∈ order) :
    (∃ visited, order.foldlM (visitFamily graph (families.length + 2) []) [] = .ok visited) ↔
      Acyclic graph := by
  constructor
  · rintro ⟨visited, h⟩ a hcyc
    have hall : Visited graph [] [] visited order :=
      Visited.foldlM (fun _ _ _ hf hv => visitFamily_visited hf hv) trivial h
    obtain ⟨child, hst, _⟩ := TransGen.head'_iff.mp hcyc
    exact hall.finished.acyclic (hall.all a (hord a (ne_nil_of_mem hst))) hcyc
  · intro hac
    exact except_foldlM_exists fun visited family _ =>
      visitFamily_acyclic hac hnd .start (Nat.le_refl _) visited

end

def SingleConstructor (constructors : List Constructor) (reference : TypeRef) : Prop :=
  ∀ family ∈ bareReferenceNames reference, (constructors.filter (·.family = family)).length = 1

structure SingleConstructors (schema : Schema) : Prop where
  constructors : ∀ constructor ∈ schema.constructors, ∀ param ∈ constructor.params,
    SingleConstructor schema.constructors param.type
  functions : ∀ function ∈ schema.functions,
    (∀ param ∈ function.params, SingleConstructor schema.constructors param.type) ∧
      SingleConstructor schema.constructors function.resultType

theorem checkBareReference_iff {owner : String} : checkBareReference constructors owner reference = .ok () ↔
      SingleConstructor constructors reference := by
  unfold checkBareReference SingleConstructor
  rw [except_forM_iff]
  simp [ensure]

theorem checkBareParameters_iff {owner : String}
    {params : List Parameter} : checkBareParameters constructors owner params = .ok () ↔
      ∀ param ∈ params, SingleConstructor constructors param.type := by
  unfold checkBareParameters
  simp only [except_forM_iff, checkBareReference_iff]

theorem mem_families (constructors : List Constructor) (family : String)
    (h : bareGraph constructors family ≠ []) : family ∈ constructors.map (·.family) := by
  obtain ⟨child, hch⟩ := exists_mem_of_ne_nil _ h
  obtain ⟨constructor, hm, _⟩ := mem_flatMap.mp hch
  obtain ⟨hm, hfam⟩ := mem_filter.mp hm
  exact mem_map.mpr ⟨constructor, hm, of_decide_eq_true hfam⟩

theorem validateBareLayouts_iff (schema : Schema) : validateBareLayouts schema = .ok () ↔
    SingleConstructors schema ∧ Acyclic (bareGraph schema.constructors) := by
  have hnd := mem_families schema.constructors
  rw [← bareSearch_iff hnd hnd, length_map]
  unfold validateBareLayouts
  rw [except_then_iff, except_then_iff, except_forM_iff, except_forM_iff]
  simp only [except_then_iff, checkBareParameters_iff, checkBareReference_iff, length_map]
  constructor
  · rintro ⟨hcon, hfun, h⟩
    obtain ⟨visited, h, _⟩ := except_bind_ok h
    exact ⟨⟨hcon, hfun⟩, visited, h⟩
  · rintro ⟨hsin, visited, h⟩
    exact ⟨hsin.constructors, hsin.functions, by rw [h]; rfl⟩

def TypeHead.bareName (head : TypeHead) : List String :=
  if head.isBareReference then [head.fullName] else []

/-- The families whose contracts `resolvedSemanticReference` asks for, at every depth. -/
def bareHeads : TypeRef → List String
  | .plain head => head.bareName
  | .generic head element => bareHeads element ++ head.bareName

def bareChildren (schema : Schema) (name : String) : List String :=
  match schema.findType name with
  | none => []
  | some declaration => declaration.constructors.flatMap fun constructor =>
    constructor.params.flatMap fun param => bareHeads param.type

/-- The calls of `resolvedTypeContractSignature` for a family, with their stacks. -/
inductive Reached (schema : Schema) (family : String) : List String → String → Prop
  | start : Reached schema family [] family
  | child {stack : List String} {name child : String} : Reached schema family stack name →
    name ∉ stack → child ∈ bareChildren schema name → Reached schema family (name :: stack) child

/-- The contract is found by calls that are neither circular nor too deep. -/
def Expands (schema : Schema) (layer : Int) (family : String) : Prop :=
  (∃ key, resolvedTypeContractSignature schema layer family = .ok key) ∧
    ∀ stack name, Reached schema family stack name →
      name ∉ stack ∧ stack.length ≤ schema.types.length

/-- Every family that the contracts ask for is declared, and none asks for itself. -/
structure Resolvable (schema : Schema) : Prop where
  declared : ∀ name, ∀ child ∈ bareChildren schema name, (schema.findType child).isSome
  acyclic : Acyclic (bareChildren schema)

variable {schema : Schema} {layer : Int} {contract : String → Except LayerError SemanticKey}
  {stack : List String} {name family : String}

theorem bareContractOf_iff {head : TypeHead} : (∃ key, bareContractOf contract head = .ok key) ↔
    ∀ family ∈ head.bareName, ∃ key, contract family = .ok key := by
  unfold bareContractOf TypeHead.bareName
  split
  · rw [forall_mem_singleton]
    exact except_map_iff
  · exact ⟨fun _ => nofun, fun _ => ⟨none, rfl⟩⟩

theorem resolvedSemanticReference_iff :
    (∃ resolved, resolvedSemanticReference contract reference = .ok resolved) ↔
      ∀ family ∈ bareHeads reference, ∃ key, contract family = .ok key := by
  induction reference with
  | plain head => exact except_map_iff.trans bareContractOf_iff
  | generic head element ih =>
    rw [resolvedSemanticReference, except_pair_iff, ih, bareContractOf_iff, bareHeads, forall_mem_append]

theorem resolvedTypeContract_iff (hnot : name ∉ stack) (hdec : (schema.findType name).isSome) :
    (∃ key, resolvedTypeContract schema layer (fuel + 1) stack name = .ok key) ↔
      ∀ child ∈ bareChildren schema name,
        ∃ key, resolvedTypeContract schema layer fuel (name :: stack) child = .ok key := by
  obtain ⟨declaration, hdec⟩ := Option.isSome_iff_exists.mp hdec
  rw [resolvedTypeContract, if_neg (by simpa using hnot)]
  unfold bareChildren
  simp only [hdec]
  refine except_map_iff.trans (except_mapM_iff.trans ?_)
  have hcon : ∀ constructor, (∃ key, resolvedConstructorKey
      (resolvedTypeContract schema layer fuel (name :: stack)) constructor = .ok key) ↔
      ∀ param ∈ constructor.params, ∀ family ∈ bareHeads param.type, ∃ key,
        resolvedTypeContract schema layer fuel (name :: stack) family = .ok key := by
    intro constructor
    refine except_map_iff.trans (except_mapM_iff.trans ?_)
    exact forall₂_congr fun param _ => except_map_iff.trans resolvedSemanticReference_iff
  simp only [hcon, mem_flatMap]
  constructor
  · rintro h child ⟨constructor, hc, param, hp, hm⟩
    exact h constructor hc param hp child hm
  · intro h constructor hc param hp child hm
    exact h child ⟨constructor, hc, param, hp, hm⟩

theorem isSome_findType : (schema.findType name).isSome ↔ name ∈ schema.types.map (·.name) := by
  simp [Schema.findType]

theorem mem_types_of_child (name : String) (h : bareChildren schema name ≠ []) :
    name ∈ schema.types.map (·.name) := by
  rw [← isSome_findType]
  unfold bareChildren at h
  split at h
  · cases h rfl
  next hdec => rw [hdec]; rfl

theorem Resolvable.contract_found (h : Resolvable schema)
    (hdec : (schema.findType name).isSome) (hbl : Below (bareChildren schema) stack name)
    (hfuel : schema.types.length < fuel + stack.length) :
    ∃ key, resolvedTypeContract schema layer fuel stack name = .ok key := by
  obtain ⟨hnot, hle⟩ := hbl.bounded h.acyclic mem_types_of_child
  rw [length_map] at hle
  induction fuel generalizing stack name with
  | zero => omega
  | succ fuel ih =>
    rw [resolvedTypeContract_iff hnot hdec]
    intro child hch
    have hbl := hbl.push hnot hch
    obtain ⟨hnot, hle⟩ := hbl.bounded h.acyclic mem_types_of_child
    rw [length_map] at hle
    exact ih (h.declared name child hch) hbl (by rw [length_cons]; omega) hnot hle

theorem Reached.on_path (h : Reached schema family stack name) : Below (bareChildren schema) stack name := by
  induction h with
  | start => exact .start
  | child _ hnot hch ih => exact ih.push hnot hch

theorem Reached.of_path (hno : ∀ stack name, Reached schema family stack name → name ∉ stack)
    (h : TransGen (Lays (bareChildren schema)) family name) :
    ∃ stack, Reached schema family stack name ∧ family ∈ stack := by
  induction h with
  | single hst => exact ⟨_, .child .start not_mem_nil hst, mem_cons_self ..⟩
  | tail _ hst ih =>
    obtain ⟨stack, hr, hm⟩ := ih
    exact ⟨_, .child hr (hno _ _ hr) hst, mem_cons_of_mem _ hm⟩

theorem resolvable_iff (schema : Schema) (layer : Int) :
    (∀ declaration ∈ schema.types, Expands schema layer declaration.name) ↔ Resolvable schema := by
  constructor
  · intro h
    have hexp : ∀ name, bareChildren schema name ≠ [] → Expands schema layer name := by
      intro name hne
      obtain ⟨declaration, hdec, rfl⟩ := mem_map.mp (mem_types_of_child name hne)
      exact h declaration hdec
    refine ⟨fun name child hch => ?_, fun a hcyc => ?_⟩
    · have hname := mem_types_of_child name (ne_nil_of_mem hch)
      obtain ⟨hok, hno⟩ := hexp name (ne_nil_of_mem hch)
      have hnot := (hno _ _ (.child .start not_mem_nil hch)).1
      obtain ⟨key, hkey⟩ :=
        (resolvedTypeContract_iff not_mem_nil (isSome_findType.mpr hname)).mp hok child hch
      -- the nested call has fuel, since its caller is declared
      obtain ⟨fuel, hfuel⟩ : ∃ fuel, schema.types.length = fuel + 1 := by
        refine Nat.exists_eq_succ_of_ne_zero fun hz => ?_
        rw [length_eq_zero_iff.mp hz] at hname
        cases hname
      rw [hfuel, resolvedTypeContract, if_neg (by simpa using hnot)] at hkey
      split at hkey
      · cases hkey
      next hdec => rw [hdec]; rfl
    · obtain ⟨child, hst, _⟩ := TransGen.head'_iff.mp hcyc
      have hno := (hexp a (ne_nil_of_mem hst)).2
      obtain ⟨stack, hr, hm⟩ := Reached.of_path (fun _ _ hr => (hno _ _ hr).1) hcyc
      exact (hno _ _ hr).1 hm
  · intro h declaration hm
    refine ⟨h.contract_found (isSome_findType.mpr (mem_map_of_mem hm)) .start
      (Nat.lt_succ_self _), fun stack name hr => ?_⟩
    have hbd := hr.on_path.bounded h.acyclic mem_types_of_child
    rwa [length_map] at hbd

/-- The verdict, in whatever order the families are searched, and the contracts that are found. -/
structure ValidatesExactly (schema : Schema) : Prop where
  accepted : validateBareLayouts schema = .ok () ↔
    SingleConstructors schema ∧ Acyclic (bareGraph schema.constructors)
  ordered : ∀ order : List String,
    (∀ family, bareGraph schema.constructors family ≠ [] → family ∈ order) →
    ((∃ visited, order.foldlM (visitFamily (bareGraph schema.constructors)
      (schema.constructors.length + 2) []) [] = .ok visited) ↔ Acyclic (bareGraph schema.constructors))
  expands : validateBareLayouts schema = .ok () →
    ∀ layer, ∀ declaration ∈ schema.types, Expands schema layer declaration.name

/-- A family `Foo` that holds a value of the given type, and a family `Bar`. -/
def holderSchema (type : TypeRef) : Schema :=
  let foo : Constructor := { name := "foo", id := 1, params := [⟨"x", type, none⟩]
                             resultType := .plain { name := "Foo" } }
  let bar : Constructor := { name := "bar", id := 2, resultType := .plain { name := "Bar" } }
  { layer := 1, constructors := [foo, bar]
    types := [⟨"Foo", [foo], false, 0⟩, ⟨"Bar", [bar], false, 0⟩] }

end Tlrpc
