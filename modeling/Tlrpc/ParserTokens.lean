import Tlrpc.SchemaParser

namespace Tlrpc

open List Lexer Option

/-- All tokens up to the end, unknown characters too; `none` if the fuel does not last. -/
def Lexer.tokens : Nat → List Char → Option (List Token)
  | 0, _ => none
  | fuel + 1, input =>
    if skipWhitespace input = [] then some []
    else (tokens fuel (nextToken input).2).map ((nextToken input).1 :: ·)

namespace Parser

open StateExcept

/-- The tokens consumed between two states. None is of the kind that the end has. -/
inductive Took : Parser → List Token → Parser → Prop
  | none (p : Parser) : Took p [] p
  | next {p p' : Parser} {tokens : List Token} :
      p.cur.type ≠ .eof → Took p.nextToken tokens p' → Took p (p.cur :: tokens) p'

variable {p q p' : Parser} {tokens more : List Token}

theorem Took.append (h : Took p tokens q) (hmr : Took q more p') : Took p (tokens ++ more) p' := by
  induction h with
  | none => exact hmr
  | next hcur _ ih => exact .next hcur (ih hmr)

theorem Took.known (h : Took p tokens p') : ∀ token ∈ tokens, token.type ≠ .eof := by
  induction h with
  | none => exact fun _ hin => nomatch hin
  | next hcur _ ih =>
    intro token hin
    rcases mem_cons.mp hin with rfl | hin
    · exact hcur
    · exact ih token hin

def Goes (p p' : Parser) : Prop := ∃ tokens, Took p tokens p'

instance : IsPreorder Parser Goes where
  refl p := ⟨[], .none p⟩
  trans _ _ _ := fun ⟨_, h⟩ ⟨_, hmore⟩ => ⟨_, h.append hmore⟩

variable {type : TokenType}

theorem demand_took (hty : type ≠ .eof) {literal : String}
    (h : demand type p = (.ok literal, p')) : Took p [p.cur] p' ∧ p.cur.type = type := by
  unfold demand at h
  split at h
  next heq =>
    cases h
    exact ⟨.next (heq ▸ hty) (.none _), heq⟩
  · cases h

theorem expect_took {found : Bool} (h : expect type p = (.ok found, p')) (hty : type ≠ .eof) :
    (found = false ∧ p' = p) ∨ found = true ∧ p.cur.type = type ∧ Took p [p.cur] p' := by
  unfold expect at h
  split at h
  next heq =>
    cases h
    exact .inr ⟨rfl, heq, .next (heq ▸ hty) (.none _)⟩
  cases h
  exact .inl ⟨rfl, rfl⟩

theorem demand_goes (hty : type ≠ .eof) : Moves Goes (demand type) :=
  fun _ _ _ h => ⟨_, (demand_took hty h).1⟩

theorem expect_goes (hty : type ≠ .eof) : Moves Goes (expect type) := by
  intro p found p' h
  rcases expect_took h hty with ⟨-, rfl⟩ | ⟨-, -, htk⟩
  · exact ⟨[], .none _⟩
  · exact ⟨_, htk⟩

theorem parseIdentRest_goes (fuel : Nat) (name : String) : Moves Goes (parseIdentRest fuel name) := by
  induction fuel generalizing name with
  | zero => exact .fail _
  | succ fuel ih =>
    exact .bind (expect_goes nofun) fun _ => .ite (.bind (demand_goes nofun) fun _ => ih _) (.pure _)

theorem parseIdent_goes (fuel : Nat) : Moves Goes (parseIdent fuel) := by
  refine .bind (.view _) fun type => .bind (demand_goes ?_) fun _ => parseIdentRest_goes fuel _
  split <;> nofun

theorem parseHexID_goes : Moves Goes parseHexID := by
  refine .bind (.view _) fun type => .bind (demand_goes ?_) fun literal =>
    .bind (.require _ _) fun _ => ?_
  · split <;> nofun
  · dsimp only
    split
    · exact .pure _
    · exact .fail _

section

variable (fuel : Nat)

theorem parseGenericParamsRest_goes (params : List GenericParam) :
    Moves Goes (parseGenericParamsRest fuel params) := by
  induction fuel generalizing params with
  | zero => exact .fail _
  | succ fuel ih =>
    exact .bind (.view _) fun _ => .ite (.pure _) <| .bind (demand_goes nofun) fun _ =>
      .bind (demand_goes nofun) fun _ => .bind (demand_goes nofun) fun _ =>
      .bind (expect_goes nofun) fun _ => .bind (.view _) fun _ => .bind (.require _ _) fun _ => ih _

theorem parseGenericParams_goes : Moves Goes (parseGenericParams fuel) :=
  .bind (expect_goes nofun) fun _ => .ite
    (.bind (parseGenericParamsRest_goes fuel []) fun _ => .bind (demand_goes nofun) fun _ => .pure _)
    (.pure _)

theorem parseTypeRef_goes : Moves Goes (parseTypeRef fuel) := by
  induction fuel with
  | zero => exact .fail _
  | succ fuel ih =>
    refine .bind (expect_goes nofun) fun _ => .bind (.view _) fun _ => .ite ?_ ?_
    · refine .bind (demand_goes nofun) fun _ => .bind (expect_goes nofun) fun _ =>
        .bind (demand_goes nofun) fun literal => ?_
      split
      · exact .fail _
      · exact .bind (expect_goes nofun) fun _ => .bind ih fun _ => .pure _
    · exact .bind (parseIdent_goes fuel) fun _ => .bind
        (.bind (expect_goes nofun) fun _ => .ite (.bind ih fun _ => .bind (expect_goes nofun) fun _ =>
          .bind (.require _ _) fun _ => .pure _) (.pure _))
        fun _ => .bind (expect_goes nofun) fun _ => .pure _

theorem parseParams_goes (params : List Parameter) : Moves Goes (parseParams fuel params) := by
  induction fuel generalizing params with
  | zero => exact .fail _
  | succ fuel ih =>
    exact .bind (.view _) fun _ => .ite (.pure _) <| .bind (parseIdent_goes fuel) fun _ =>
      .bind (demand_goes nofun) fun _ => .bind (parseTypeRef_goes fuel) fun _ => ih _

theorem parseResultType_goes : Moves Goes (parseResultType fuel) :=
  .bind (demand_goes nofun) fun _ => .bind (parseTypeRef_goes fuel) fun _ => .bind (.view _) fun _ =>
    .ite (.bind (demand_goes nofun) fun _ => .pure _) (.pure _)

theorem parseBuiltinConstructor_goes (name : String) : Moves Goes (parseBuiltinConstructor fuel name) := by
  unfold parseBuiltinConstructor
  split
  · exact .fail _
  · exact .bind (expect_goes nofun) fun _ => .bind (.require _ _) fun _ => .bind (demand_goes nofun)
      fun _ => .bind (parseTypeRef_goes fuel) fun _ => .bind (.require _ _) fun _ => .pure _

end

theorem parseVectorCount_goes : Moves Goes parseVectorCount :=
  .bind (expect_goes nofun) fun _ => .ite
    (.bind (demand_goes nofun) fun _ => .bind (demand_goes nofun) fun _ => .pure _) (.pure _)

theorem parseConstructor_goes (fuel : Nat) : Moves Goes (parseConstructor fuel) :=
  .bind (expect_goes nofun) fun _ => .bind (parseIdent_goes fuel) fun name =>
    .bind (expect_goes nofun) fun _ => .ite
      (.bind (.bind (.view _) fun _ => .ite parseHexID_goes (.pure _)) fun _ =>
        .bind (parseGenericParams_goes fuel) fun _ => .bind parseVectorCount_goes fun _ =>
        .bind (parseParams_goes fuel []) fun _ => .bind (parseResultType_goes fuel) fun _ => .pure _)
      (.bind (.require _ _) fun _ => parseBuiltinConstructor_goes fuel name)

theorem parseFunction_goes (fuel : Nat) : Moves Goes (parseFunction fuel) :=
  .bind (parseIdent_goes fuel) fun _ => .bind (.bind (expect_goes nofun) fun _ => .ite
    (.bind parseHexID_goes fun _ => .pure _) (.pure _)) fun _ => .bind (parseGenericParams_goes fuel)
    fun _ => .bind (parseParams_goes fuel []) fun _ => .bind (parseResultType_goes fuel) fun _ => .pure _

def Declares {α : Type} (parse : Nat → ParserM α) (declaration : α) (tokens : List Token) : Prop :=
  ∃ fuel p p' own, parse fuel p = (.ok declaration, p') ∧ Took p own p' ∧
    (tokens = own ∨ ∃ semi : Token, semi.type = .semi ∧ tokens = own ++ [semi])

inductive Belongs (schema : Schema) : List Token → Prop
  | nil : Belongs schema []
  | newLine {token : Token} {tokens : List Token} :
      token.type = .newLine → Belongs schema tokens → Belongs schema (token :: tokens)
  | marker {token : Token} {tokens : List Token} :
      token.type = .types ∨ token.type = .functions → Belongs schema tokens →
      Belongs schema (token :: tokens)
  | constructor {own tokens : List Token} {c : Constructor} : Declares parseConstructor c own →
      c ∈ schema.constructors → Belongs schema tokens → Belongs schema (own ++ tokens)
  | function {own tokens : List Token} {f : FuncDecl} {isHelper : Bool} : Declares parseFunction f own →
      { f with isHelper } ∈ schema.functions → Belongs schema tokens → Belongs schema (own ++ tokens)

variable {schema schema' : Schema}

theorem Declares.known {α : Type} {parse : Nat → ParserM α} {declaration : α}
    (h : Declares parse declaration tokens) : ∀ token ∈ tokens, token.type ≠ .eof := by
  obtain ⟨_, _, _, own, -, htk, heq | ⟨semi, hsm, heq⟩⟩ := h
  · exact heq ▸ htk.known
  · intro token hin
    rw [heq] at hin
    rcases mem_append.mp hin with hin | hin
    · exact htk.known token hin
    · rw [mem_singleton.mp hin, hsm]
      nofun

theorem Belongs.known (h : Belongs schema tokens) : ∀ token ∈ tokens, token.type ≠ .eof := by
  induction h with
  | nil => exact fun _ hin => nomatch hin
  | newLine hty _ ih =>
    exact forall_mem_cons.mpr ⟨by rw [hty]; nofun, ih⟩
  | marker hty _ ih =>
    exact forall_mem_cons.mpr ⟨by rcases hty with h | h <;> rw [h] <;> nofun, ih⟩
  | constructor hown _ _ ih => exact forall_mem_append.mpr ⟨hown.known, ih⟩
  | function hown _ _ ih => exact forall_mem_append.mpr ⟨hown.known, ih⟩

theorem Belongs.append (h : Belongs schema tokens) (hmr : Belongs schema more) :
    Belongs schema (tokens ++ more) := by
  induction h with
  | nil => exact hmr
  | newLine hty _ ih => exact .newLine hty ih
  | marker hty _ ih => exact .marker hty ih
  | constructor hown hin _ ih => exact append_assoc .. ▸ .constructor hown hin ih
  | function hown hin _ ih => exact append_assoc .. ▸ .function hown hin ih

structure Within (schema schema' : Schema) : Prop where
  constructors : ∀ c ∈ schema.constructors, c ∈ schema'.constructors
  functions : ∀ f ∈ schema.functions, ∃ isHelper, { f with isHelper } ∈ schema'.functions

theorem Belongs.within (h : Belongs schema tokens) (hwi : Within schema schema') :
    Belongs schema' tokens := by
  induction h with
  | nil => exact .nil
  | newLine hty _ ih => exact .newLine hty ih
  | marker hty _ ih => exact .marker hty ih
  | constructor hown hin _ ih => exact .constructor hown (hwi.constructors _ hin) ih
  | function hown hin _ ih =>
    obtain ⟨isHelper, hin⟩ := hwi.functions _ hin
    exact .function hown hin ih

theorem Within.refl (schema : Schema) : Within schema schema :=
  ⟨fun _ hin => hin, fun f hin => ⟨f.isHelper, hin⟩⟩

theorem Within.trans {last : Schema} (h : Within schema schema') (hla : Within schema' last) :
    Within schema last := by
  refine ⟨fun c hin => hla.constructors c (h.constructors c hin), fun f hin => ?_⟩
  obtain ⟨_, hin⟩ := h.functions f hin
  obtain ⟨isHelper, hin⟩ := hla.functions _ hin
  exact ⟨isHelper, hin⟩

theorem within_addConstructor (schema : Schema) (c : Constructor) :
    Within schema (schema.addConstructor c) :=
  ⟨fun _ hin => mem_append_left _ hin, (Within.refl schema).functions⟩

theorem within_addFunction (schema : Schema) (f : FuncDecl) : Within schema (schema.addFunction f) :=
  ⟨(Within.refl schema).constructors, fun f hin => ⟨f.isHelper, mem_append_left _ hin⟩⟩

theorem within_markSerializerPrefixHelpers (schema : Schema) :
    Within schema (markSerializerPrefixHelpers schema) := by
  refine ⟨fun _ hin => hin, fun f hin => ?_⟩
  by_cases hhel : f.isPrefixHelper schema.functions = true
  · exact ⟨true, mem_map.mpr ⟨f, hin, if_pos hhel⟩⟩
  · exact ⟨f.isHelper, mem_map.mpr ⟨f, hin, if_neg hhel⟩⟩

def Reads (x : Schema → ParserM Schema) : Prop :=
  ∀ schema p schema' p', x schema p = (.ok schema', p') →
    Within schema schema' ∧ ∃ tokens, Took p tokens p' ∧ Belongs schema' tokens

variable {fuel : Nat}

theorem skipNewlines_took (h : skipNewlines fuel p = (.ok (), p')) :
    ∃ tokens, Took p tokens p' ∧ ∀ schema, Belongs schema tokens := by
  induction fuel generalizing p with
  | zero => cases h
  | succ fuel ih =>
    obtain ⟨found, mid, hexp, hlp⟩ := bind_ok h
    rcases expect_took hexp nofun with ⟨rfl, rfl⟩ | ⟨rfl, hty, htk⟩
    · cases hlp
      exact ⟨[], .none _, fun _ => .nil⟩
    · obtain ⟨tokens, hrs, hbel⟩ := ih hlp
      exact ⟨_, htk.append hrs, fun schema => .newLine hty (hbel schema)⟩

theorem declares_semi {α : Type} {parse : Nat → ParserM α} (hgoes : ∀ fuel, Moves Goes (parse fuel))
    {declaration : α} {found : Bool} {mid : Parser}
    (hprs : parse fuel p = (.ok declaration, mid)) (hexp : expect .semi mid = (.ok found, p')) :
    ∃ tokens, Took p tokens p' ∧ Declares parse declaration tokens := by
  obtain ⟨own, hown⟩ := hgoes fuel _ _ _ hprs
  rcases expect_took hexp nofun with ⟨-, rfl⟩ | ⟨-, hty, htk⟩
  · exact ⟨own, hown, fuel, p, _, own, hprs, hown, .inl rfl⟩
  · exact ⟨_, hown.append htk, fuel, p, mid, own, hprs, hown, .inr ⟨_, hty, rfl⟩⟩

theorem parseConstructors_reads (fuel : Nat) : Reads (parseConstructors fuel) := by
  induction fuel with
  | zero => exact fun _ _ _ _ h => nomatch h
  | succ fuel ih =>
    intro schema p schema' p' h
    obtain ⟨type, _, hty, h⟩ := bind_ok h
    cases hty
    split at h
    · cases h
      exact ⟨.refl _, [], .none _, .nil⟩
    obtain ⟨c, mid, hprs, h⟩ := bind_ok h
    obtain ⟨found, after, hexp, h⟩ := bind_ok h
    obtain ⟨own, htk, hdec⟩ := declares_semi parseConstructor_goes hprs hexp
    have hin : c ∈ (schema.addConstructor c).constructors := mem_append_right _ mem_cons_self
    cases found with
    | false =>
      cases h
      exact ⟨within_addConstructor _ c, own, htk, append_nil own ▸ .constructor hdec hin .nil⟩
    | true =>
      obtain ⟨_, mid, hsk, h⟩ := bind_ok h
      obtain ⟨lines, hlin, hnew⟩ := skipNewlines_took hsk
      obtain ⟨hwi, rest, hrs, hbel⟩ := ih _ _ _ _ h
      exact ⟨(within_addConstructor _ c).trans hwi, _, (htk.append hlin).append hrs,
        append_assoc .. ▸ .constructor hdec (hwi.constructors c hin)
          ((hnew schema').append hbel)⟩

theorem parseFunctions_reads (fuel : Nat) : Reads (parseFunctions fuel) := by
  induction fuel with
  | zero => exact fun _ _ _ _ h => nomatch h
  | succ fuel ih =>
    intro schema p schema' p' h
    obtain ⟨type, _, hty, h⟩ := bind_ok h
    cases hty
    split at h
    · cases h
      exact ⟨.refl _, [], .none _, .nil⟩
    obtain ⟨f, mid, hprs, h⟩ := bind_ok h
    obtain ⟨found, after, hexp, h⟩ := bind_ok h
    obtain ⟨own, htk, hdec⟩ := declares_semi parseFunction_goes hprs hexp
    obtain ⟨_, mid, hsk, h⟩ := bind_ok h
    obtain ⟨lines, hlin, hnew⟩ := skipNewlines_took hsk
    obtain ⟨hwi, rest, hrs, hbel⟩ := ih _ _ _ _ h
    obtain ⟨isHelper, hin⟩ := hwi.functions f (mem_append_right _ mem_cons_self)
    exact ⟨(within_addFunction _ f).trans hwi, _, (htk.append hlin).append hrs,
      append_assoc .. ▸ .function hdec hin ((hnew schema').append hbel)⟩

theorem Reads.bind {x y : Schema → ParserM Schema} (hx : Reads x) (hy : Reads y) :
    Reads fun schema => x schema >>= y := by
  intro schema p schema' p' h
  obtain ⟨mid, q, hfst, hsnd⟩ := bind_ok h
  obtain ⟨hwi, tokens, htk, hbel⟩ := hx _ _ _ _ hfst
  obtain ⟨hla, more, hmr, hrs⟩ := hy _ _ _ _ hsnd
  exact ⟨hwi.trans hla, _, htk.append hmr, (hbel.within hla).append hrs⟩

theorem Reads.section {x : Schema → ParserM Schema} (hx : Reads x) {mid q : Parser}
    (hmar : Took p [p.cur] mid) (hty : p.cur.type = .types ∨ p.cur.type = .functions)
    (hsk : skipNewlines fuel mid = (.ok (), q)) (h : x schema q = (.ok schema', p')) :
    Within schema schema' ∧ ∃ tokens, Took p tokens p' ∧ Belongs schema' tokens := by
  obtain ⟨lines, hlin, hnew⟩ := skipNewlines_took hsk
  obtain ⟨hwi, tokens, htk, hbel⟩ := hx _ _ _ _ h
  exact ⟨hwi, _, (hmar.append hlin).append htk, .marker hty ((hnew schema').append hbel)⟩

theorem parseSections_reads (fuel : Nat) : Reads (parseSections fuel) ∧ ∀ schema p schema' p',
    parseSections fuel schema p = (.ok schema', p') → p'.cur.type = .eof := by
  induction fuel with
  | zero => exact ⟨fun _ _ _ _ h => (nomatch h), fun _ _ _ _ h => (nomatch h)⟩
  | succ fuel ih =>
    obtain ⟨hrds, hen⟩ := ih
    have hcto := (parseConstructors_reads fuel).bind hrds
    have hfn := (parseFunctions_reads fuel).bind hrds
    have hen' : ∀ (x : Schema → ParserM Schema) (schema : Schema) (p : Parser) (schema' : Schema)
        (p' : Parser), (x schema >>= parseSections fuel) p = (.ok schema', p') → p'.cur.type = .eof := by
      intro x schema p schema' p' h
      obtain ⟨_, _, -, h⟩ := bind_ok h
      exact hen _ _ _ _ h
    refine ⟨fun schema p schema' p' h => ?_, fun schema p schema' p' h => ?_⟩
    · obtain ⟨type, _, hty, h⟩ := bind_ok h
      cases hty
      split at h
      · cases h
        exact ⟨.refl _, [], .none _, .nil⟩
      obtain ⟨types, mid, htys, htl⟩ := bind_ok h
      rcases expect_took htys nofun with ⟨rfl, rfl⟩ | ⟨rfl, hty, htk⟩
      · obtain ⟨functions, last, hfun, hrs⟩ := bind_ok htl
        rcases expect_took hfun nofun with ⟨rfl, rfl⟩ | ⟨rfl, hty, htk⟩
        · exact hcto _ _ _ _ hrs
        · obtain ⟨_, _, hsk, hrs⟩ := bind_ok hrs
          exact hfn.section htk (.inr hty) hsk hrs
      · obtain ⟨_, _, hsk, hrs⟩ := bind_ok htl
        exact hcto.section htk (.inl hty) hsk hrs
    · obtain ⟨type, _, hty, h⟩ := bind_ok h
      cases hty
      split at h
      next heof =>
        cases h
        exact heof
      obtain ⟨found, mid, hexp, h⟩ := bind_ok h
      cases found with
      | true =>
        obtain ⟨_, _, -, h⟩ := bind_ok h
        exact hen' _ _ _ _ _ h
      | false =>
        obtain ⟨found, mid, hexp, h⟩ := bind_ok h
        cases found with
        | true =>
          obtain ⟨_, _, -, h⟩ := bind_ok h
          exact hen' _ _ _ _ _ h
        | false => exact hen' _ _ _ _ _ h

variable {input : List Char}

theorem nextToken_end (h : Lexer.skipWhitespace input = []) : Lexer.nextToken input = (⟨.eof, ""⟩, []) := by
  unfold Lexer.nextToken
  rw [h]

theorem tokens_took (hlex : Lexer.tokens fuel input = some more)
    (hkn : ∀ token ∈ more, token.type ≠ .eof) (htk : Took (start input) tokens p')
    (hend : p'.cur.type = .eof) : tokens = more ∧ p'.input = [] := by
  induction fuel generalizing input more tokens with
  | zero => cases hlex
  | succ fuel ih =>
    unfold Lexer.tokens at hlex
    split at hlex
    next hemp =>
      cases hlex
      have hnx := nextToken_end hemp
      cases htk with
      | none =>
        refine ⟨rfl, ?_⟩
        show (Lexer.nextToken (Lexer.nextToken input).2).2 = []
        rw [hnx]
        rfl
      | next hcur _ =>
        have hcur : (Lexer.nextToken input).1.type ≠ .eof := hcur
        rw [hnx] at hcur
        exact absurd rfl hcur
    · obtain ⟨rest, hrs, rfl⟩ := Option.map_eq_some_iff.mp hlex
      obtain ⟨hfst, hkn⟩ := forall_mem_cons.mp hkn
      cases htk with
      | none => exact absurd hend hfst
      | next _ htk =>
        obtain ⟨rfl, hinp⟩ := ih hrs hkn htk
        exact ⟨rfl, hinp⟩

theorem tokens_unique {fuel fuel' : Nat} (h : Lexer.tokens fuel input = some tokens)
    (h' : Lexer.tokens fuel' input = some more) : tokens = more := by
  induction fuel generalizing fuel' input tokens more with
  | zero => cases h
  | succ fuel ih =>
    cases fuel' with
    | zero => cases h'
    | succ fuel' =>
      unfold Lexer.tokens at h h'
      split at h
      next hemp =>
        rw [if_pos hemp] at h'
        exact some.inj (h.symm.trans h')
      rename_i hmr
      rw [if_neg hmr] at h'
      obtain ⟨rest, hrs, rfl⟩ := map_eq_some_iff.mp h
      obtain ⟨rest', hrs', rfl⟩ := map_eq_some_iff.mp h'
      rw [ih hrs hrs']

/-- A returned schema holds all of the input exactly if no character of it is unknown to the lexer.
-/
theorem parsed_whole_iff {fuel : Nat} {input : List Char} {layer : Int} {schema : Schema}
    (h : parseWithLayer fuel input layer = .ok schema) :
    ((parseSections fuel { layer } (start input)).2.input = [] ∧
      ∃ lexed tokens, Lexer.tokens lexed input = some tokens ∧ Belongs schema tokens) ↔
    ∃ lexed tokens, Lexer.tokens lexed input = some tokens ∧ ∀ token ∈ tokens, token.type ≠ .eof := by
  constructor
  · rintro ⟨-, lexed, tokens, hlex, hbel⟩
    exact ⟨lexed, tokens, hlex, hbel.known⟩
  · rintro ⟨lexed, tokens, hlex, hkn⟩
    unfold parseWithLayer at h
    cases hprs : parseSections fuel { layer } (start input) with
    | mk result p' =>
      rw [hprs] at h
      cases result with
      | error failure => cases h
      | ok parsed =>
        cases h
        obtain ⟨hrds, hen⟩ := parseSections_reads fuel
        obtain ⟨-, own, htk, hbel⟩ := hrds _ _ _ _ hprs
        obtain ⟨rfl, hinp⟩ := tokens_took hlex hkn htk (hen _ _ _ _ hprs)
        exact ⟨hinp, lexed, own, hlex, hbel.within (within_markSerializerPrefixHelpers parsed)⟩

def twoSections : List Char := "a#1 = A;\n---functions---\nf#2 x:A = A;\n".toList

theorem parsed_whole_iff_sections : ∃ schema, parseWithLayer 30 twoSections 1 = .ok schema ∧
    schema.constructors.length = 1 ∧ schema.functions.length = 1 ∧
    ∃ lexed tokens, Lexer.tokens lexed twoSections = some tokens ∧ Belongs schema tokens := by
  have hprs : (parseWithLayer 30 twoSections 1).toOption.map
      (fun schema => (schema.constructors.length, schema.functions.length)) = some (1, 1) := by
    decide +kernel
  have hlex : (tokens 30 twoSections).map (fun tokens => tokens.all (·.type ≠ .eof)) = some true := by
    decide +kernel
  obtain ⟨tokens, htk, hkn⟩ := map_eq_some_iff.mp hlex
  have hkn : ∀ token ∈ tokens, token.type ≠ .eof := by simpa using hkn
  cases hok : parseWithLayer 30 twoSections 1 with
  | error failure =>
    rw [hok] at hprs
    cases hprs
  | ok schema =>
    rw [hok] at hprs
    obtain ⟨hcto, hfn⟩ := Prod.mk.inj (some.inj hprs)
    exact ⟨schema, rfl, hcto, hfn, ((parsed_whole_iff hok).mpr ⟨30, tokens, htk, hkn⟩).2⟩

/-- The declaration after an unknown character is dropped without an error. -/
theorem unknown_character_truncates : (parseWithLayer 30 "a#1 = A;\n@ b#2 = B;".toList 1).toOption.map
      (fun schema => schema.constructors.map (·.name)) = some ["a"] ∧
    ∀ lexed tokens schema, Lexer.tokens lexed "a#1 = A;\n@ b#2 = B;".toList = some tokens →
      ¬ Belongs schema tokens := by
  refine ⟨by decide +kernel, fun lexed tokens schema hlex hbel => ?_⟩
  have hall : (Lexer.tokens 30 "a#1 = A;\n@ b#2 = B;".toList).map
      (fun tokens => tokens.any (·.type = .eof)) = some true := by
    decide +kernel
  obtain ⟨more, hmr, hunk⟩ := map_eq_some_iff.mp hall
  rw [← tokens_unique hlex hmr] at hunk
  obtain ⟨token, hin, heof⟩ := any_eq_true.mp hunk
  exact hbel.known token hin (of_decide_eq_true heof)

end Parser

end Tlrpc
