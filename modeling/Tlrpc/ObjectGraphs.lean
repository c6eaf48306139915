import Tlrpc.DecodeBudget
import Tlrpc.Encoder

namespace Tlrpc

open StateExcept Option

inductive GraphError
  | negativeLimit
  | encodedBytesLimit
  | stringTooLong
  | vectorTooLong
  | objectDepthLimit
  | objectNodesLimit
  | nilObject
  | unavailable
  | write
  | fuel
deriving DecidableEq

/-- `Encoder`. `data` is the buffer or what the writer took, `deepest` the greatest depth so far. -/
structure GraphEncoder where
  writer : Option (List UInt8 → List UInt8 → Bool)
  data : List UInt8 := []
  limit : Int := 0
  capacity : Int := 0
  depth : Int := 0
  nodes : Int := 0
  deepest : Int := 0

abbrev GraphM := StateExcept GraphEncoder GraphError

namespace GraphEncoder

def newBuffer (maxBytes : Int) : Except GraphError GraphEncoder :=
  if maxBytes < 0 then .error .negativeLimit
  else .ok { writer := none, limit := if maxBytes = 0 then defaultMaxDecodedBytes else maxBytes }

def enterObject : GraphM Unit := fun e =>
  if e.depth ≥ defaultMaxObjectDepth then (.error .objectDepthLimit, e)
  else if e.nodes ≥ defaultMaxObjectNodes then (.error .objectNodesLimit, e)
  else (.ok (), { e with
    depth := e.depth + 1, nodes := e.nodes + 1, deepest := max e.deepest (e.depth + 1) })

def leaving (x : GraphM Unit) : GraphM Unit := fun e =>
  ((x e).1, { (x e).2 with depth := (x e).2.depth - 1 })

def entered (x : GraphM Unit) : GraphM Unit := do
  enterObject
  leaving x

def reserve (n : Nat) : GraphM Unit := fun e =>
  if e.writer.isSome then (.ok (), e)
  else if n > e.limit - e.data.length then (.error .encodedBytesLimit, e)
  else if n ≤ e.capacity - e.data.length then (.ok (), e)
  else (.ok (), { e with
    capacity := min e.limit (max (max 64 (e.capacity * 2)) (e.data.length + n)) })

def put (p : List UInt8) : GraphM Unit := fun e =>
  match e.writer with
  | some accepts =>
    if accepts e.data p then (.ok (), { e with data := e.data ++ p }) else (.error .write, e)
  | none => (.ok (), { e with
      data := e.data ++ p, capacity := max e.capacity (e.data.length + p.length) })

/-- `Write`, and `WriteUint32` to `WriteInt256` with the bytes of their number. -/
def write (p : List UInt8) : GraphM Unit := do
  reserve p.length
  put p

/-- `WriteBytes` and `WriteString`, whose text is appended as it is. -/
def writeBytes (text : Bool) (v : List UInt8) : GraphM Unit := do
  StateExcept.require (v.length ≤ maxTLBytesLength) .stringTooLong
  reserve ((tlHeader v.length).length + v.length + tlPadding ((tlHeader v.length).length + v.length))
  write (tlHeader v.length)
  (if text then put v else write v)
  write (List.replicate (tlPadding ((tlHeader v.length).length + v.length)) 0)

def writeVectorHeader (count : Nat) : GraphM Unit := do
  StateExcept.require (count < 2 ^ 31) .vectorTooLong
  write (leBytes 4 0x1cb5c415)
  write (leBytes 4 count)

end GraphEncoder

/-- The fields that a body writes, the absent ones left out. A pointer or union may be nil. -/
inductive FieldValue
  | number (p : List UInt8)
  | bytes (text : Bool) (v : List UInt8)
  | object (bare : Bool) (ref : Option Nat)
  | vector (elements : List FieldValue)

/-- An object of a generated type; `available` is its constructor's, at the layer. -/
structure ObjectNode where
  constructorID : UInt32
  isBare : Bool := false
  available : Bool := true
  fields : List FieldValue

open GraphEncoder

mutual

/-- What `writeSerializeValue` emits. -/
def writeValue (serialize : Bool → Option Nat → GraphM Unit) : FieldValue → GraphM Unit
  | .number p => write p
  | .bytes text v => GraphEncoder.writeBytes text v
  | .object bare ref => serialize bare ref
  | .vector elements => entered do
    GraphEncoder.writeVectorHeader elements.length
    writeValues serialize elements

def writeValues (serialize : Bool → Option Nat → GraphM Unit) : List FieldValue → GraphM Unit
  | [] => pure ()
  | value :: rest => do
    writeValue serialize value
    writeValues serialize rest

end

/-- The emitted `SerializeTL` and `serializeTLBare` of the object at an address. -/
def serializeTL (heap : Nat → ObjectNode) : Nat → Bool → Option Nat → GraphM Unit
  | 0, _, _ => StateExcept.fail .fuel
  | _ + 1, _, none => StateExcept.fail .nilObject
  | fuel + 1, bare, some ref =>
    if (heap ref).available then entered do
      (if bare || (heap ref).isBare then pure () else write (leBytes 4 (heap ref).constructorID.toNat))
      writeValues (serializeTL heap fuel) (heap ref).fields
    else StateExcept.fail .unavailable

namespace GraphEncoder

structure Sound (e : GraphEncoder) : Prop where
  depth : e.depth ≤ e.deepest ∧ e.deepest ≤ defaultMaxObjectDepth
  nodes : e.nodes ≤ defaultMaxObjectNodes
  buffer : e.writer = none → e.data.length ≤ e.capacity ∧ e.capacity ≤ e.limit

def Roomy (n : Nat) (e : GraphEncoder) : Prop := e.writer = none → e.data.length + n ≤ e.capacity

/-- What a computation leaves, and that it does not run out of fuel. -/
structure Leaves (e e' : GraphEncoder) (result : Except GraphError Unit) : Prop where
  sound : e'.Sound
  depth : e'.depth = e.depth
  config : e'.writer = e.writer ∧ e'.limit = e.limit
  ends : result ≠ .error .fuel

def Bounded (fuel n m : Nat) (x : GraphM Unit) : Prop :=
  ∀ e, e.Sound → e.Roomy n → defaultMaxObjectDepth - e.depth < fuel →
    Leaves e (x e).2 (x e).1 ∧ ((x e).1 = .ok () → (x e).2.Roomy m)

variable {fuel n m k : Nat} {x y : GraphM Unit} {err : GraphError}

theorem Bounded.mono {fuel' n' m' : Nat} (h : Bounded fuel n m x) (hf : fuel' ≤ fuel) (hn : n ≤ n')
    (hm : m' ≤ m) : Bounded fuel' n' m' x := by
  intro e he hr hd
  obtain ⟨hl, hok⟩ := h e he (fun hw => by have := hr hw; omega) (by omega)
  exact ⟨hl, fun h hw => by have := hok h hw; omega⟩

theorem Bounded.loosen (h : Bounded fuel n m x) : Bounded fuel n 0 x :=
  h.mono (Nat.le_refl _) (Nat.le_refl _) (Nat.zero_le _)

theorem Bounded.pure : Bounded fuel n n (pure ()) :=
  fun _ he hr _ => ⟨⟨he, rfl, ⟨rfl, rfl⟩, nofun⟩, fun _ => hr⟩

theorem Bounded.fail (h : err ≠ .fuel) : Bounded fuel n m (StateExcept.fail err) :=
  fun _ he _ _ => ⟨⟨he, rfl, ⟨rfl, rfl⟩, fun heq => h (Except.error.inj heq)⟩, nofun⟩

theorem Bounded.bind (hx : Bounded fuel n m x) (hy : Bounded fuel m k y) :
    Bounded fuel n k (x >>= fun _ => y) := by
  intro e he hr hd
  obtain ⟨⟨r, e'⟩, hrun⟩ : ∃ z, z = x e := ⟨_, rfl⟩
  obtain ⟨hl, hok⟩ := hx e he hr hd
  rw [← hrun] at hl hok
  cases r with
  | error err =>
    rw [bind_run_error hrun.symm]
    exact ⟨hl, nofun⟩
  | ok a =>
    rw [bind_run_ok hrun.symm]
    have hd' := hl.depth
    dsimp only at hd'
    obtain ⟨hl', hok'⟩ := hy e' hl.sound (hok rfl) (by omega)
    exact ⟨⟨hl'.sound, hl'.depth.trans hl.depth, ⟨hl'.config.1.trans hl.config.1,
      hl'.config.2.trans hl.config.2⟩, hl'.ends⟩, hok'⟩

theorem Bounded.require {p : Prop} [Decidable p] (h : err ≠ .fuel) :
    Bounded fuel n n (StateExcept.require p err) := by
  unfold StateExcept.require
  split
  · exact .pure
  · exact .fail h

theorem reserve_bounded : Bounded fuel n (max n k) (reserve k) := by
  rintro e ⟨hdp, hnd, hbuf⟩ hr hd
  unfold reserve
  have hbuf' (h : ¬e.writer.isSome) := hbuf (not_isSome_iff_eq_none.mp h)
  have hr' (h : ¬e.writer.isSome) := hr (not_isSome_iff_eq_none.mp h)
  split
  next hw => exact ⟨⟨⟨hdp, hnd, hbuf⟩, rfl, ⟨rfl, rfl⟩, nofun⟩, fun _ h => by rw [isSome_iff_ne_none] at hw; exact absurd h hw⟩
  rename_i hw
  have hb := hbuf' hw
  have hr := hr' hw
  split
  · exact ⟨⟨⟨hdp, hnd, hbuf⟩, rfl, ⟨rfl, rfl⟩, nofun⟩, nofun⟩
  split
  · exact ⟨⟨⟨hdp, hnd, hbuf⟩, rfl, ⟨rfl, rfl⟩, nofun⟩, fun _ _ => by dsimp only; omega⟩
  · refine ⟨⟨⟨hdp, hnd, fun _ => ?_⟩, rfl, ⟨rfl, rfl⟩, nofun⟩, fun _ _ => ?_⟩ <;> dsimp only <;> omega

theorem put_bounded (p : List UInt8) (h : p.length ≤ n) : Bounded fuel n (n - p.length) (put p) := by
  rintro e ⟨hdp, hnd, hbuf⟩ hr hd
  unfold put
  split
  next accepts hw =>
    have hno {q : Prop} (h : e.writer = none) : q := by
      rw [hw] at h
      cases h
    split
    · exact ⟨⟨⟨hdp, hnd, hno⟩, rfl, ⟨rfl, rfl⟩, nofun⟩, fun _ => hno⟩
    · exact ⟨⟨⟨hdp, hnd, hbuf⟩, rfl, ⟨rfl, rfl⟩, nofun⟩, nofun⟩
  next hw =>
    have hb := hbuf hw
    have hr := hr hw
    refine ⟨⟨⟨hdp, hnd, fun _ => ?_⟩, rfl, ⟨rfl, rfl⟩, nofun⟩, fun _ _ => ?_⟩ <;>
      simp only [List.length_append] <;> omega

theorem write_bounded (p : List UInt8) : Bounded fuel n (n - p.length) (write p) :=
  .bind (reserve_bounded (k := p.length)) ((put_bounded p (by omega)).mono (Nat.le_refl _) (Nat.le_refl _) (by omega))

theorem writeBytes_bounded (text : Bool) (v : List UInt8) :
    Bounded fuel 0 0 (GraphEncoder.writeBytes text v) := by
  unfold GraphEncoder.writeBytes
  refine .bind (.require nofun) (.bind reserve_bounded (.bind (write_bounded _)
    (.bind (m := 0) ?_ (write_bounded _).loosen)))
  split
  · exact (put_bounded v (by omega)).loosen
  · exact (write_bounded v).loosen

theorem entered_bounded (hx : Bounded fuel 0 0 x) : Bounded (fuel + 1) 0 0 (entered x) := by
  rintro e ⟨hdp, hnd, hbuf⟩ hr hd
  have he : e.Sound := ⟨hdp, hnd, hbuf⟩
  unfold entered
  by_cases hdep : e.depth ≥ defaultMaxObjectDepth
  · have hrun : enterObject e = (.error .objectDepthLimit, e) := if_pos hdep
    rw [bind_run_error hrun]
    exact ⟨⟨he, rfl, ⟨rfl, rfl⟩, nofun⟩, nofun⟩
  by_cases hnod : e.nodes ≥ defaultMaxObjectNodes
  · have hrun : enterObject e = (.error .objectNodesLimit, e) := by
      rw [enterObject, if_neg hdep, if_pos hnod]
    rw [bind_run_error hrun]
    exact ⟨⟨he, rfl, ⟨rfl, rfl⟩, nofun⟩, nofun⟩
  have hrun : enterObject e = (.ok (), { e with
      depth := e.depth + 1, nodes := e.nodes + 1, deepest := max e.deepest (e.depth + 1) }) := by
    rw [enterObject, if_neg hdep, if_neg hnod]
  rw [bind_run_ok hrun]
  unfold leaving
  obtain ⟨⟨hs, hsm, hcfg, hen⟩, hok⟩ := hx { e with
      depth := e.depth + 1, nodes := e.nodes + 1, deepest := max e.deepest (e.depth + 1) }
    ⟨by dsimp only; omega, by dsimp only; omega, hbuf⟩ hr (by dsimp only; omega)
  dsimp only at hsm
  exact ⟨⟨⟨by have := hs.depth; dsimp only; omega, hs.nodes, hs.buffer⟩, by dsimp only; omega, hcfg, hen⟩, hok⟩

variable {serialize : Bool → Option Nat → GraphM Unit}

mutual

theorem writeValue_bounded (h : ∀ bare ref, Bounded fuel 0 0 (serialize bare ref)) :
    ∀ value, Bounded fuel 0 0 (writeValue serialize value)
  | .number p => (write_bounded p).loosen
  | .bytes text v => writeBytes_bounded text v
  | .object bare ref => h bare ref
  | .vector elements => by
    refine (entered_bounded (.bind ?_ (writeValues_bounded h elements))).mono (Nat.le_succ _) (Nat.le_refl _)
      (Nat.le_refl _)
    exact .bind (.require nofun) (.bind (write_bounded _).loosen (write_bounded _).loosen)

theorem writeValues_bounded (h : ∀ bare ref, Bounded fuel 0 0 (serialize bare ref)) :
    ∀ values, Bounded fuel 0 0 (writeValues serialize values)
  | [] => .pure
  | value :: rest => .bind (writeValue_bounded h value) (writeValues_bounded h rest)

end

theorem serializeTL_bounded (heap : Nat → ObjectNode) (fuel : Nat) (bare : Bool) (ref : Option Nat) :
    Bounded fuel 0 0 (serializeTL heap fuel bare ref) := by
  induction fuel generalizing bare ref with
  | zero =>
    intro e he _ hd
    have := he.depth
    omega
  | succ fuel ih =>
    cases ref with
    | none => exact .fail nofun
    | some ref =>
      unfold serializeTL
      split
      · refine entered_bounded (.bind ?_ (writeValues_bounded ih _))
        split
        · exact .pure
        · exact (write_bounded _).loosen
      · exact .fail nofun

/-- Two encoders that have written the same and stand at the same place. -/
structure Alike (e e' : GraphEncoder) : Prop where
  data : e.data = e'.data
  depth : e.depth = e'.depth
  nodes : e.nodes = e'.nodes

def Same (x : GraphM Unit) : Prop :=
  ∀ e e', Alike e e' → (x e).1 = .ok () → (x e').1 = .ok () → Alike (x e).2 (x e').2

theorem Same.pure : Same (pure ()) := fun _ _ h _ _ => h

theorem Same.fail : Same (StateExcept.fail err) := fun _ _ _ h => nomatch h

theorem Same.bind (hx : Same x) (hy : Same y) : Same (x >>= fun _ => y) := by
  intro e e' h hok hok'
  obtain ⟨_, mid, hxe, hye⟩ := bind_ok (Prod.ext hok rfl)
  obtain ⟨_, mid', hxe', hye'⟩ := bind_ok (Prod.ext hok' rfl)
  have hmid := hx e e' h (congrArg Prod.fst hxe) (congrArg Prod.fst hxe')
  rw [hxe, hxe'] at hmid
  have := hy mid mid' hmid (congrArg Prod.fst hye) (congrArg Prod.fst hye')
  rwa [hye, hye'] at this

theorem Same.require {p : Prop} [Decidable p] : Same (StateExcept.require p err) := by
  unfold StateExcept.require
  split
  · exact .pure
  · exact .fail

theorem reserve_same : Same (reserve n) := by
  have hkp (e : GraphEncoder) : Alike e (reserve n e).2 := by
    unfold reserve
    repeat' split
    all_goals exact ⟨rfl, rfl, rfl⟩
  intro e e' h _ _
  have he := hkp e
  have he' := hkp e'
  exact ⟨by rw [← he.data, h.data, he'.data], by rw [← he.depth, h.depth, he'.depth],
    by rw [← he.nodes, h.nodes, he'.nodes]⟩

theorem put_same (p : List UInt8) : Same (put p) := by
  have hpt (e : GraphEncoder) (hok : (put p e).1 = .ok ()) : (put p e).2.data = e.data ++ p ∧
      (put p e).2.depth = e.depth ∧ (put p e).2.nodes = e.nodes := by
    unfold put at hok ⊢
    split
    next hw =>
      rw [hw] at hok
      dsimp only at hok
      split at hok
      next hacc => simp [hacc]
      next => cases hok
    next => exact ⟨rfl, rfl, rfl⟩
  intro e e' h hok hok'
  obtain ⟨hd, hdp, hn⟩ := hpt e hok
  obtain ⟨hd', hdp', hn'⟩ := hpt e' hok'
  exact ⟨by rw [hd, hd', h.data], by rw [hdp, hdp', h.depth], by rw [hn, hn', h.nodes]⟩

theorem write_same (p : List UInt8) : Same (write p) := .bind reserve_same (put_same p)

theorem entered_same (hx : Same x) : Same (entered x) := by
  refine .bind (fun e e' h hok hok' => ?_) fun e e' h hok hok' => ?_
  · unfold enterObject at hok hok' ⊢
    have hd := h.depth
    have hn := h.nodes
    grind [Alike]
  · obtain ⟨hd, hdp, hn⟩ := hx e e' h hok hok'
    exact ⟨hd, congrArg (· - 1) hdp, hn⟩

mutual

theorem writeValue_same (h : ∀ bare ref, Same (serialize bare ref)) : ∀ value, Same (writeValue serialize value)
  | .number p => write_same p
  | .bytes text v => by
    refine .bind .require (.bind reserve_same (.bind (write_same _) (.bind ?_ (write_same _))))
    split
    · exact put_same v
    · exact write_same v
  | .object bare ref => h bare ref
  | .vector elements => entered_same (.bind (.bind .require (.bind (write_same _) (write_same _)))
    (writeValues_same h elements))

theorem writeValues_same (h : ∀ bare ref, Same (serialize bare ref)) : ∀ values, Same (writeValues serialize values)
  | [] => .pure
  | value :: rest => .bind (writeValue_same h value) (writeValues_same h rest)

end

theorem serializeTL_same (heap : Nat → ObjectNode) (fuel : Nat) (bare : Bool) (ref : Option Nat) :
    Same (serializeTL heap fuel bare ref) := by
  induction fuel generalizing bare ref with
  | zero => exact .fail
  | succ fuel ih =>
    cases ref with
    | none => exact .fail
    | some ref =>
      unfold serializeTL
      split
      · refine entered_same (.bind ?_ (writeValues_same ih _))
        split
        · exact .pure
        · exact write_same _
      · exact .fail

/-- Whatever the heap is, an encoding ends within the limits on objects, depth and bytes, gives the depth
back, and writes the same bytes to a buffer and to a stream. -/
theorem object_encoding_bounded (heap : Nat → ObjectNode) (fuel : Nat) (bare : Bool) (ref : Option Nat) :
    (∀ maxBytes e, newBuffer maxBytes = .ok e → e.Sound ∧
      e.limit = if maxBytes = 0 then defaultMaxDecodedBytes else maxBytes) ∧
    (∀ writer, Sound { writer := some writer }) ∧
    (∀ e : GraphEncoder, e.Sound → defaultMaxObjectDepth - e.depth < fuel →
      (serializeTL heap fuel bare ref e).1 ≠ .error .fuel ∧
      (serializeTL heap fuel bare ref e).2.Sound ∧
      (serializeTL heap fuel bare ref e).2.depth = e.depth ∧
      (serializeTL heap fuel bare ref e).2.writer = e.writer ∧
      (serializeTL heap fuel bare ref e).2.limit = e.limit) ∧
    ∀ e e' : GraphEncoder, e.data = e'.data → e.depth = e'.depth → e.nodes = e'.nodes →
      (serializeTL heap fuel bare ref e).1 = .ok () → (serializeTL heap fuel bare ref e').1 = .ok () →
      (serializeTL heap fuel bare ref e).2.data = (serializeTL heap fuel bare ref e').2.data := by
  have hdp : (0 : Int) ≤ 0 ∧ 0 ≤ defaultMaxObjectDepth := by decide
  have hnd : 0 ≤ defaultMaxObjectNodes := by decide
  refine ⟨fun maxBytes e h => ?_, fun writer => ⟨hdp, hnd, nofun⟩, fun e he hd => ?_, ?_⟩
  · unfold newBuffer at h
    split at h
    · cases h
    cases h
    refine ⟨⟨hdp, hnd, fun _ => ⟨Int.le_refl _, ?_⟩⟩, rfl⟩
    have : 0 ≤ defaultMaxDecodedBytes := by decide
    dsimp only
    split <;> omega
  · obtain ⟨hl, -⟩ := serializeTL_bounded heap fuel bare ref e he (fun hw => by
      have := he.buffer hw
      omega) hd
    exact ⟨hl.ends, hl.sound, hl.depth, hl.config⟩
  · intro e e' hda hdp hn hok hok'
    exact (serializeTL_same heap fuel bare ref e e' ⟨hda, hdp, hn⟩ hok hok').data

/-- An object that contains itself. -/
theorem object_encoding_bounded_cyclic :
    (serializeTL (fun _ => ⟨1, false, true, [.object false (some 0)]⟩) 129 false (some 0)
      { writer := none, limit := 600 }).2.depth = 0 :=
  ((object_encoding_bounded (fun _ => ⟨1, false, true, [.object false (some 0)]⟩) 129 false (some 0)).2.2.1
    { writer := none, limit := 600 } ⟨by decide, by decide, fun _ => by decide⟩ (by decide)).2.2.1

end GraphEncoder

end Tlrpc
