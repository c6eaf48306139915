import Tlrpc.SchemaParser

namespace Tlrpc

open List Token Lexer

/-- What a token counts for: nothing where the lexer may return it without going on. -/
def Token.weight (token : Token) : Nat :=
  if token.type = .eof ∨ token = ⟨.ident, ""⟩ then 0 else 1

namespace Lexer

theorem weight_le (token : Token) : token.weight ≤ 1 := by
  unfold weight
  split <;> omega

theorem length_dropWhile_le (q : Char → Bool) (input : List Char) :
    (input.dropWhile q).length ≤ input.length := (dropWhile_sublist q).length_le

theorem readIdent_weight (input : List Char) :
    (readIdent input).2.length + (readIdent input).1.weight ≤ input.length := by
  have hspl := congrArg length (takeWhile_append_dropWhile (p := isIdentChar) (l := input))
  rw [length_append] at hspl
  unfold readIdent
  by_cases hemp : input.takeWhile isIdentChar = []
  · have hz : (⟨.ident, ""⟩ : Token).weight = 0 := rfl
    rw [hemp]
    simpa [isAllHexDigits, hz] using length_dropWhile_le isIdentChar input
  have hpos := length_pos_iff.mpr hemp
  have := weight_le ⟨if isAllHexDigits (input.takeWhile isIdentChar) &&
    (input.takeWhile isIdentChar).head?.any Char.isDigit then .number else .ident,
    String.ofList (input.takeWhile isIdentChar)⟩
  dsimp only
  omega

theorem readSectionMarker_weight (input : List Char) :
    (readSectionMarker input).2.length + (readSectionMarker input).1.weight ≤ input.length := by
  have hspl := congrArg length (takeWhile_append_dropWhile (p := (· ≠ '\n')) (l := input))
  rw [length_append] at hspl
  unfold readSectionMarker line
  split
  next hln =>
    have := weight_le ⟨.types, "---types---"⟩
    rw [hln] at hspl
    simp only [String.length_toList] at hspl
    have : "---types---".length = 11 := by decide
    dsimp only
    omega
  · split
    next hln =>
      have := weight_le ⟨.functions, "---functions---"⟩
      rw [hln] at hspl
      simp only [String.length_toList] at hspl
      have : "---functions---".length = 15 := by decide
      dsimp only
      omega
    · exact readIdent_weight input

theorem nextToken_weight (input : List Char) :
    (nextToken input).2.length + (nextToken input).1.weight ≤ input.length := by
  have hspa := length_dropWhile_le (fun ch => ch == ' ' || ch == '\t' || ch == '\r') input
  unfold nextToken
  split
  · simp [weight]
  rename_i ch rest hsk
  have hle : rest.length + 1 ≤ input.length := by
    have := congrArg length hsk
    rw [length_cons] at this
    unfold skipWhitespace at this
    omega
  split
  · exact (readSectionMarker_weight _).trans hle
  split
  · have := weight_le ⟨.comment, String.ofList (line (ch :: rest))⟩
    have := length_dropWhile_le (· ≠ '\n') rest
    dsimp only
    omega
  split
  · have := weight_le ⟨.hashBracket, "# ["⟩
    dsimp only
    rw [length_drop]
    omega
  split
  next type _ =>
    have := weight_le ⟨type, String.singleton ch⟩
    dsimp only
    omega
  split
  · exact (readIdent_weight _).trans hle
  have := weight_le ⟨.eof, String.singleton ch⟩
  dsimp only
  omega

end Lexer

namespace Parser

open StateExcept

def measure (p : Parser) : Nat := p.input.length + p.peek.weight + p.cur.weight

theorem nextToken_measure (p : Parser) : measure p.nextToken + p.cur.weight ≤ measure p := by
  have := nextToken_weight p.input
  unfold measure nextToken
  dsimp only
  omega

abbrev EndsParser (bound taken : Nat) {α : Type} (x : ParserM α) : Prop :=
  Ends measure ParseFailure.fuel bound taken x

variable {bound taken fuel : Nat} {α : Type} {type : TokenType}

theorem fail_ends : EndsParser bound taken (fail .error : ParserM α) := .fail nofun

theorem require_ends {q : Prop} [Decidable q] : EndsParser bound 0 (require q .error) := .require nofun

theorem demand_ends : EndsParser bound 0 (demand type) := by
  intro p _
  have := nextToken_measure p
  unfold EndsAt demand
  split
  · exact ⟨nofun, fun a p' h => by cases h; omega⟩
  · exact ⟨nofun, fun _ _ h => nomatch h⟩

theorem demand_takes (hty : type ≠ .eof ∧ type ≠ .ident) : EndsParser bound 1 (demand type) := by
  intro p _
  have := nextToken_measure p
  unfold EndsAt demand
  split
  next h =>
    have hwei : p.cur.weight = 1 := by
      unfold weight
      rw [if_neg]
      rintro (he | he)
      · exact hty.1 (h.symm.trans he)
      · exact hty.2 (h.symm.trans (congrArg Token.type he))
    exact ⟨nofun, fun a p' h => by cases h; omega⟩
  · exact ⟨nofun, fun _ _ h => nomatch h⟩

theorem expect_ends : EndsParser bound 0 (expect type) := by
  intro p _
  have := nextToken_measure p
  unfold EndsAt expect
  split
  · exact ⟨nofun, fun a p' h => by cases h; omega⟩
  · exact ⟨nofun, fun a p' h => by cases h; omega⟩

theorem expect_found {p : Parser} {x y : ParserM α} (h : p.cur.type = type) :
    (expect type >>= fun found => if found = true then x else y) p = (demand type >>= fun _ => x) p := by
  have hexp : expect type p = (.ok true, p.nextToken) := if_pos h
  have hdem : demand type p = (.ok p.cur.literal, p.nextToken) := if_pos h
  rw [bind_run_ok hexp, bind_run_ok hdem, if_pos rfl]

theorem expect_missing {p : Parser} {x y : ParserM α} (h : p.cur.type ≠ type) :
    (expect type >>= fun found => if found = true then x else y) p = y p := by
  have hexp : expect type p = (.ok false, p) := if_neg h
  rw [bind_run_ok hexp, if_neg nofun]

theorem expect_then {x y : ParserM α} (hty : type ≠ .eof ∧ type ≠ .ident)
    (hx : EndsParser (bound - 1) taken x) (hy : EndsParser bound taken y) :
    EndsParser bound taken (expect type >>= fun found => if found = true then x else y) := by
  intro p hp
  unfold EndsAt
  by_cases h : p.cur.type = type
  · rw [expect_found h]
    exact ((demand_takes hty).bind_at fun _ => hx).mono (le_refl _) (by omega) p hp
  · rw [expect_missing h]
    exact hy p hp

theorem skipNewlines_ends (fuel : Nat) : EndsParser fuel 0 (skipNewlines fuel) := by
  induction fuel with
  | zero => exact fun p hp => absurd hp (Nat.not_lt_zero _)
  | succ fuel ih =>
    unfold skipNewlines
    exact expect_then (by decide) ih (.pure _)

theorem parseIdentRest_ends (fuel : Nat) (name : String) : EndsParser fuel 0 (parseIdentRest fuel name) := by
  induction fuel generalizing name with
  | zero => exact fun p hp => absurd hp (Nat.not_lt_zero _)
  | succ fuel ih =>
    unfold parseIdentRest
    exact expect_then (by decide) (.bind demand_ends fun _ => ih _) (.pure _)

theorem parseIdent_ends (fuel : Nat) : EndsParser fuel 0 (parseIdent fuel) :=
  .bind (.view _) fun _ => .bind demand_ends fun _ => parseIdentRest_ends fuel _

theorem parseHexID_ends : EndsParser bound 0 parseHexID := by
  unfold parseHexID
  refine .bind (.view _) fun _ => .bind demand_ends fun _ => .bind require_ends fun _ => ?_
  dsimp only
  split
  · exact .pure _
  · exact fail_ends

section

variable (fuel : Nat)

theorem parseGenericParamsRest_ends (params : List GenericParam) :
    EndsParser fuel 0 (parseGenericParamsRest fuel params) := by
  induction fuel generalizing params with
  | zero => exact fun p hp => absurd hp (Nat.not_lt_zero _)
  | succ fuel ih =>
    unfold parseGenericParamsRest
    refine .bind (.view _) fun _ => .ite (.pure _) (.bind demand_ends fun _ => .weaken ?_)
    refine .next (demand_takes (by decide)) fun _ => .bind demand_ends fun _ => .bind expect_ends fun _ => ?_
    exact .bind (.view _) fun _ => .bind require_ends fun _ => ih _

theorem parseGenericParams_ends : EndsParser fuel 0 (parseGenericParams fuel) := by
  unfold parseGenericParams
  refine expect_then (by decide) (.bind ?_ fun _ => .bind demand_ends fun _ => .pure _) (.pure _)
  exact (parseGenericParamsRest_ends fuel []).below (by omega)

/-- A type is nested at most as deep as there are tokens. -/
theorem parseTypeRef_ends : EndsParser (fuel - 1) 0 (parseTypeRef fuel) := by
  induction fuel with
  | zero => exact fun p hp => absurd hp (Nat.not_lt_zero _)
  | succ fuel ih =>
    unfold parseTypeRef
    refine .bind expect_ends fun _ => .bind (.view _) fun _ => .ite ?_ ?_
    · refine .bind demand_ends fun _ => .bind expect_ends fun _ => .weaken ?_
      refine .next (demand_takes (by decide)) fun _ => ?_
      split
      · exact fail_ends
      · exact .bind expect_ends fun _ => .bind ih fun _ => .pure _
    · refine .bind (parseIdent_ends fuel) fun _ => .bind (expect_then (by decide) ?_ (.pure _))
        fun _ => .bind expect_ends fun _ => .pure _
      exact .bind ih fun _ => .bind expect_ends fun _ => .bind require_ends fun _ => .pure _

theorem parseParams_ends (params : List Parameter) :
    EndsParser (fuel - 1) 0 (parseParams fuel params) := by
  induction fuel generalizing params with
  | zero => exact fun p hp => absurd hp (Nat.not_lt_zero _)
  | succ fuel ih =>
    unfold parseParams
    refine .bind (.view _) fun _ => .ite (.pure _) (.bind (parseIdent_ends fuel) fun _ => .weaken ?_)
    exact .next (demand_takes (by decide)) fun _ => .bind (parseTypeRef_ends fuel) fun _ => ih _

theorem parseResultType_ends : EndsParser (fuel - 1) 1 (parseResultType fuel) := by
  unfold parseResultType
  refine .next (demand_takes (by decide)) fun _ => .bind ((parseTypeRef_ends fuel).below (by omega)) fun _ => ?_
  exact .bind (.view _) fun _ => .ite (.bind demand_ends fun _ => .pure _) (.pure _)

theorem parseBuiltinConstructor_ends (name : String) :
    EndsParser (fuel - 1) 1 (parseBuiltinConstructor fuel name) := by
  unfold parseBuiltinConstructor
  split
  · exact fail_ends
  · refine .bind expect_ends fun _ => .bind require_ends fun _ => .next (demand_takes (by decide)) fun _ => ?_
    exact .bind ((parseTypeRef_ends fuel).below (by omega)) fun _ => .bind require_ends fun _ => .pure _

theorem parseConstructor_ends : EndsParser (fuel - 1) 1 (parseConstructor fuel) := by
  unfold parseConstructor parseConstructorID parseVectorCount
  refine .bind expect_ends fun _ => .bind ((parseIdent_ends fuel).below (by omega)) fun _ =>
    expect_then (by decide) ?_ (.bind require_ends fun _ => parseBuiltinConstructor_ends fuel _)
  refine .bind (.bind (.view _) fun _ => .ite parseHexID_ends (.pure _)) fun _ =>
    .bind ((parseGenericParams_ends fuel).below (by omega)) fun _ => .bind (expect_then (by decide) ?_ (.pure _))
      fun _ => .bind ((parseParams_ends fuel []).below (by omega)) fun _ =>
        .next ((parseResultType_ends fuel).below (by omega)) fun _ => .pure _
  exact .bind demand_ends fun _ => .bind demand_ends fun _ => .pure _

theorem parseFunction_ends : EndsParser (fuel - 1) 1 (parseFunction fuel) := by
  unfold parseFunction parseExplicitID
  refine .bind ((parseIdent_ends fuel).below (by omega)) fun _ => .bind ?_ fun _ => ?_
  · exact expect_then (by decide) (.bind parseHexID_ends fun _ => .pure _) (.pure _)
  refine .bind ((parseGenericParams_ends fuel).below (by omega)) fun _ => ?_
  exact .bind (parseParams_ends fuel []) fun _ => .next (parseResultType_ends fuel) fun _ => .pure _

end

theorem constructor_turn_ends {rest : Schema → ParserM Schema} (schema : Schema)
    (hrs : ∀ schema, EndsParser (fuel - 2) 0 (rest schema)) :
    EndsParser (fuel - 1) 1 (do
      let constructor ← parseConstructor fuel
      if ← expect .semi then
        skipNewlines fuel
        rest (schema.addConstructor constructor)
      else pure (schema.addConstructor constructor)) := by
  refine .next (parseConstructor_ends fuel) fun _ => expect_then (by decide) ?_ (.pure _)
  exact .bind ((skipNewlines_ends fuel).below (by omega)) fun _ => (hrs _).below (by omega)

section

variable (fuel : Nat) (schema : Schema)

theorem parseConstructors_ends :
    EndsParser (fuel - 2) 0 (parseConstructors fuel schema) := by
  induction fuel generalizing schema with
  | zero => exact fun p hp => absurd hp (Nat.not_lt_zero _)
  | succ fuel ih =>
    unfold parseConstructors
    exact .bind (.view _) fun _ => .ite (.pure _) (.weaken (constructor_turn_ends schema ih))

theorem parseFunctions_ends :
    EndsParser (fuel - 2) 0 (parseFunctions fuel schema) := by
  induction fuel generalizing schema with
  | zero => exact fun p hp => absurd hp (Nat.not_lt_zero _)
  | succ fuel ih =>
    unfold parseFunctions
    refine .bind (.view _) fun _ => .ite (.pure _) (.weaken (.next (parseFunction_ends fuel) fun _ => ?_))
    exact .bind expect_ends fun _ => .bind ((skipNewlines_ends fuel).below (by omega)) fun _ => (ih _).below (by omega)

theorem parseConstructors_takes {p : Parser} (hp : measure p < fuel - 2)
    (hcur : ¬(p.cur.type = .eof ∨ p.cur.type = .functions ∨ p.cur.type = .types)) {schema' : Schema} {p' : Parser}
    (h : parseConstructors fuel schema p = (.ok schema', p')) : measure p' + 1 ≤ measure p := by
  cases fuel with
  | zero => exact absurd hp (Nat.not_lt_zero _)
  | succ fuel =>
    unfold parseConstructors curType at h
    rw [bind_run_ok (view_run _ p), if_neg hcur] at h
    exact (constructor_turn_ends schema (parseConstructors_ends fuel) p (by omega)).2 _ _ h

end

theorem demand_then {x : ParserM α} (hty : type ≠ .eof ∧ type ≠ .ident) (hx : EndsParser bound 0 x) :
    EndsParser (bound + 1) 0 (demand type >>= fun _ => x) :=
  .weaken (.next (demand_takes hty) fun _ => hx)

theorem parseSections_ends (fuel : Nat) (schema : Schema) :
    EndsParser (fuel - 3) 0 (parseSections fuel schema) := by
  induction fuel generalizing schema with
  | zero => exact fun p hp => absurd hp (Nat.not_lt_zero _)
  | succ fuel ih =>
    have hsec {x : ParserM Schema} (hx : EndsParser (fuel - 2) 0 x) :
        EndsParser (fuel - 3) 0 (skipNewlines fuel >>= fun _ => x >>= parseSections fuel) :=
      .bind ((skipNewlines_ends fuel).below (by omega)) fun _ => .bind (hx.below (by omega)) ih
    have hcto := parseConstructors_ends fuel schema
    intro p hp
    unfold parseSections curType EndsAt
    rw [bind_run_ok (view_run _ p)]
    by_cases heof : p.cur.type = .eof
    · rw [if_pos heof]
      exact Ends.pure schema p hp
    rw [if_neg heof]
    by_cases htys : p.cur.type = .types
    · rw [expect_found htys]
      exact demand_then (by decide) (hsec hcto) p (by omega)
    rw [expect_missing htys]
    by_cases hfun : p.cur.type = .functions
    · rw [expect_found hfun]
      exact demand_then (by decide) (hsec (parseFunctions_ends fuel schema)) p (by omega)
    rw [expect_missing hfun]
    -- no marker: a constructor is parsed, or an error ends the loop
    refine (hcto p (by omega)).bind fun schema' p' hrun _ => ?_
    have hcur : ¬(p.cur.type = .eof ∨ p.cur.type = .functions ∨ p.cur.type = .types) := by
      rintro (h | h | h) <;> contradiction
    have htk := parseConstructors_takes fuel schema (by omega) hcur hrun
    obtain ⟨hfl, hok⟩ := ih schema' p' (by omega)
    refine ⟨hfl, fun a q h => ?_⟩
    have := hok a q h
    omega

theorem measure_start (input : List Char) : measure (start input) ≤ input.length := by
  have hfst := Lexer.nextToken_weight input
  have hsnd := Lexer.nextToken_weight (Lexer.nextToken input).2
  unfold measure start nextToken
  dsimp only
  omega

/-- The parser ends on every input: no loop or recursion takes more turns than there are characters.
-/
theorem parser_terminates (input : List Char) (layer : Int) (fuel : Nat) (henough : input.length + 4 ≤ fuel) :
    parseWithLayer fuel input layer ≠ .error .fuel := by
  have hst := measure_start input
  obtain ⟨hfl, -⟩ := parseSections_ends fuel { layer } (start input) (by omega)
  unfold parseWithLayer
  cases hrun : (parseSections fuel { layer } (start input)).1 with
  | ok schema => exact nofun
  | error e =>
    intro h
    exact hfl (hrun.trans (congrArg Except.error (Except.error.inj h)))

/-- Three dashes that are no marker give empty identifiers without end. -/
theorem parser_terminates_dashes :
    (Lexer.nextToken "---x".toList = (⟨.ident, ""⟩, "---x".toList)) ∧
      parseWithLayer 8 "---x".toList 1 ≠ .error .fuel :=
  ⟨by decide, parser_terminates "---x".toList 1 8 (by decide)⟩

end Parser

end Tlrpc
