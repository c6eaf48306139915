import Tlrpc.Decoder

namespace Tlrpc

open StateExcept DecodeBudget BudgetReader List Decoder Agree

theorem BudgetReader.readFull_ok {r : BudgetReader} {n : Nat} (hda : n ≤ r.source.data.length)
    (hbud : n ≤ r.budget.remaining) :
    ∃ r', BudgetReader.reader.readFull n r = (.ok (r.source.data.take n), r') ∧
      r'.source.data = r.source.data.drop n ∧ r'.source.sized = r.source.sized ∧
      r'.budget = r.budget.charge n := by
  have hst : 0 ≤ r.source.data.length ∧ r.source.data = r.source.data.drop 0 ∧
      r.source.sized = r.source.sized ∧ r.budget = r.budget.charge 0 :=
    ⟨Nat.zero_le _, rfl, rfl, (charge_zero _).symm⟩
  obtain ⟨r', hrun, hat⟩ := ByteReader.readFull_ok (delivers r) hst
    (by omega : 0 + n ≤ min r.source.data.length r.budget.remaining.toNat)
  rw [Nat.zero_add] at hat
  exact ⟨r', hrun, hat.2⟩

theorem BudgetReader.readFull_sound {r r' : BudgetReader} {n : Nat} {bytes : List UInt8}
    (h : BudgetReader.reader.readFull n r = (.ok bytes, r')) :
    n ≤ r.source.data.length ∧ bytes = r.source.data.take n ∧
      r'.source.data = r.source.data.drop n ∧ r'.source.sized = r.source.sized ∧
      r'.budget = r.budget.charge n := by
  have hst : 0 ≤ r.source.data.length ∧ r.source.data = r.source.data.drop 0 ∧
      r.source.sized = r.source.sized ∧ r.budget = r.budget.charge 0 :=
    ⟨Nat.zero_le _, rfl, rfl, (charge_zero _).symm⟩
  obtain ⟨_, hby, hlen, hat⟩ :=
    ByteReader.readFull_sound (delivers r) hst (Nat.zero_le _) h
  rw [Nat.zero_add] at hlen hat
  exact ⟨hlen, hby, hat.2⟩

namespace Decoder

def rest (d : Decoder) : List UInt8 :=
  match d.reader with
  | none => d.data.drop d.offset
  | some source => source.data

def Sized (d : Decoder) : Prop := ∀ source ∈ d.reader, source.sized = true

structure After (d : Decoder) (n : Nat) (d' : Decoder) : Prop where
  rest : d'.rest = d.rest.drop n
  budget : d'.budget = d.budget.charge n
  mode : d'.reader.isNone = d.reader.isNone
  sized : d.Sized → d'.Sized

variable {d d' : Decoder} {n : Nat}

theorem After.trans {mid : Decoder} {m : Nat} (h : d.After m mid) (h' : mid.After n d') :
    d.After (m + n) d' where
  rest := by rw [h'.rest, h.rest, drop_drop]
  budget := by rw [h'.budget, h.budget, charge_charge]
  mode := h'.mode.trans h.mode
  sized hd := h'.sized (h.sized hd)

theorem Sized.physicalLen (h : d.Sized) : d.physicalLen = some d.rest.length := by
  unfold Decoder.physicalLen Decoder.rest
  cases hr : d.reader with
  | none => simp
  | some source =>
    have hsz := h source (by rw [hr]; rfl)
    simp [BudgetReader.physicalLen, hsz]

theorem requireAvailable_run (n : Nat) (d : Decoder) : requireAvailable n d =
      (if d.physicalLen.all (n ≤ ·) then
        if n ≤ d.budget.remaining then .ok () else .error .decodedBytesLimit
      else .error .unexpectedEOF, d) := by
  unfold requireAvailable
  rw [state_bind]
  by_cases hphy : d.physicalLen.all (n ≤ ·) = true
  · rw [require_bind_pos hphy, require_run, if_pos hphy]
  · rw [require_bind_neg hphy, if_neg hphy]

theorem requireAvailable_ok (hda : n ≤ d.rest.length)
    (hbud : n ≤ d.budget.remaining) : requireAvailable n d = (.ok (), d) := by
  have hphy : d.physicalLen.all (n ≤ ·) = true := by
    unfold Decoder.physicalLen BudgetReader.physicalLen
    unfold rest at hda
    cases hr : d.reader with
    | none =>
      rw [hr] at hda
      simpa using hda
    | some source =>
      rw [hr] at hda
      dsimp only
      split
      · simpa using hda
      · rfl
  rw [requireAvailable_run, if_pos hphy, if_pos hbud]

theorem requireAvailable_sized (hsz : d.Sized) : requireAvailable n d = (if n ≤ d.rest.length then
        if n ≤ d.budget.remaining then .ok () else .error .decodedBytesLimit
      else .error .unexpectedEOF, d) := by
  rw [requireAvailable_run, hsz.physicalLen]
  simp only [Option.all_some, decide_eq_true_eq]

theorem readFull_ok (hmd : d.reader.isNone = false)
    (hda : n ≤ d.rest.length) (hbud : n ≤ d.budget.remaining) :
    ∃ d', readFull n d = (.ok (d.rest.take n), d') ∧ d.After n d' ∧ d'.scratch = d.scratch := by
  cases hr : d.reader with
  | none => simp [hr] at hmd
  | some source =>
    have hrs : d.rest = source.data := by rw [rest, hr]
    rw [hrs] at hda ⊢
    obtain ⟨r', hrun, hda', hsz, hbud'⟩ :=
      BudgetReader.readFull_ok (r := ⟨source, d.budget⟩) hda hbud
    refine ⟨{ d with reader := some r'.source, budget := r'.budget }, ?_, ⟨?_, hbud', ?_, ?_⟩, rfl⟩
    · simp only [readFull, hr, hrun]
    · rw [hrs]
      exact hda'
    · rw [hr]
      rfl
    · intro hd source' hs'
      cases hs'
      exact hsz.trans (hd source (by rw [hr]; rfl))

theorem readFull_sound {bytes : List UInt8} (h : readFull n d = (.ok bytes, d')) :
    n ≤ d.rest.length ∧ bytes = d.rest.take n ∧ d.After n d' ∧ d'.scratch = d.scratch := by
  unfold readFull at h
  cases hr : d.reader with
  | none =>
    rw [hr] at h
    cases h
  | some source =>
    rw [hr] at h
    have hrs : d.rest = source.data := by rw [rest, hr]
    obtain ⟨hres, rfl⟩ := Prod.mk.inj h
    obtain ⟨hlen, hby, hda, hsz, hbud⟩ := readFull_sound (r := ⟨source, d.budget⟩) (Prod.ext hres rfl)
    rw [hrs]
    refine ⟨hlen, hby, ⟨?_, hbud, ?_, ?_⟩, rfl⟩
    · rw [hrs]
      exact hda
    · rw [hr]
      rfl
    · intro hd source' hs'
      cases hs'
      exact hsz.trans (hd source (by rw [hr]; rfl))

theorem take_buffer (hr : d.reader = none) : take n d = if n ≤ d.rest.length then
        if n ≤ d.budget.remaining then
          (.ok (.buffer d.offset n), { d with offset := d.offset + n, budget := d.budget.charge n })
        else (.error .decodedBytesLimit, d)
      else (.error .unexpectedEOF, d) := by
  have hlen : d.rest.length = d.data.length - d.offset := by
    rw [rest, hr, length_drop]
  have hmd : d.reader.isNone = true := by rw [hr, Option.isNone_none]
  unfold take takeBuffer
  rw [state_bind, if_pos hmd, state_bind, hlen]
  by_cases hda : n ≤ d.data.length - d.offset
  · rw [require_bind_pos hda, if_pos hda]
    by_cases hbud : n ≤ d.budget.remaining
    · have hchg : charge (·.consume n) d = (.ok (), { d with budget := d.budget.charge n }) := by
        simp only [charge, DecodeBudget.consume, if_neg (not_lt.mpr hbud), DecodeBudget.charge]
      rw [bind_run_ok hchg, if_pos hbud, update_bind, pure_run]
    have hchg : charge (·.consume n) d = (.error .decodedBytesLimit, d) := by
      simp only [charge, consume, if_pos (not_le.mp hbud)]
    rw [bind_run_error hchg, if_neg hbud]
  · rw [require_bind_neg hda, if_neg hda]

theorem take_stream (hmd : d.reader.isNone = false) : take n d = takeStream n d := by
  unfold take
  rw [state_bind, hmd]
  rfl

theorem takeStream_of_readFull {mid : Decoder} {got : List UInt8} (hlen : got.length = n)
    (hava : requireAvailable n d = (.ok (), d)) (hrd : readFull n d = (.ok got, mid))
    (haft : d.After n mid) : ∃ p d', takeStream n d = (.ok p, d') ∧ d'.bytesOf p = got ∧ d.After n d' := by
  unfold takeStream
  rw [bind_run_ok hava, bind_run_ok hrd]
  by_cases hsma : n ≤ 32
  · rw [if_pos hsma, update_bind, pure_run]
    refine ⟨_, _, rfl, ?_, haft.rest, haft.budget, haft.mode, haft.sized⟩
    exact take_left' hlen
  · rw [if_neg hsma, pure_run]
    exact ⟨_, _, rfl, rfl, haft⟩

theorem take_ok (hda : n ≤ d.rest.length) (hbud : n ≤ d.budget.remaining) :
    ∃ p d', take n d = (.ok p, d') ∧ d'.bytesOf p = d.rest.take n ∧ d.After n d' := by
  cases hmd : d.reader.isNone with
  | true =>
    have hr : d.reader = none := by simpa using hmd
    rw [take_buffer hr, if_pos hda, if_pos hbud]
    refine ⟨_, _, rfl, ?_, ?_, rfl, rfl, fun hsz => hsz⟩
    · simp only [bytesOf, rest, hr]
    · simp only [rest, hr, drop_drop]
  | false =>
    obtain ⟨mid, hrd, haft, _⟩ := readFull_ok hmd hda hbud
    rw [take_stream hmd]
    refine takeStream_of_readFull ?_ (requireAvailable_ok hda hbud) hrd haft
    rw [length_take]
    omega

theorem take_sound {p : Span} (h : take n d = (.ok p, d')) :
    n ≤ d.rest.length ∧ d'.bytesOf p = d.rest.take n ∧ d.After n d' := by
  cases hmd : d.reader.isNone with
  | true =>
    have hr : d.reader = none := by simpa using hmd
    have hrun := take_buffer (n := n) hr
    rw [h] at hrun
    split at hrun
    next hda =>
      split at hrun
      next hbud =>
        obtain ⟨p', d'', htk, hby, haft⟩ := take_ok hda hbud
        rw [h] at htk
        cases htk
        exact ⟨hda, hby, haft⟩
      · cases hrun
    · cases hrun
  | false =>
    rw [take_stream hmd] at h
    have hrun := h
    obtain ⟨_, mid, hava, hrun⟩ := bind_ok hrun
    obtain ⟨got, mid', hrd, _⟩ := bind_ok hrun
    have hmid : mid = d := by
      rw [requireAvailable_run] at hava
      exact (Prod.mk.inj hava).2.symm
    subst hmid
    obtain ⟨hda, hgot, haft, _⟩ := readFull_sound hrd
    have hlen : got.length = n := by
      rw [hgot, length_take]
      omega
    obtain ⟨p', d'', htk, hby, haft'⟩ :=
      takeStream_of_readFull hlen hava hrd haft
    rw [h] at htk
    cases htk
    exact ⟨hda, hby.trans hgot, haft'⟩

theorem take_short (hsz : d.Sized) (hda : d.rest.length < n) : take n d = (.error .unexpectedEOF, d) := by
  cases hmd : d.reader.isNone with
  | true =>
    have hr : d.reader = none := by simpa using hmd
    rw [take_buffer hr, if_neg (not_le.mpr hda)]
  | false =>
    rw [take_stream hmd]
    refine bind_run_error ?_
    rw [requireAvailable_sized hsz, if_neg (not_le.mpr hda)]

theorem take_limited (hsz : d.Sized) (hda : n ≤ d.rest.length)
    (hbud : d.budget.remaining < n) : take n d = (.error .decodedBytesLimit, d) := by
  cases hmd : d.reader.isNone with
  | true =>
    have hr : d.reader = none := by simpa using hmd
    rw [take_buffer hr, if_pos hda, if_neg (not_le.mpr hbud)]
  | false =>
    rw [take_stream hmd]
    refine bind_run_error ?_
    rw [requireAvailable_sized hsz, if_pos hda, if_neg (not_le.mpr hbud)]

/-- A decoder on a buffer and one on a stream at the same place of the same input. -/
structure SamePlace (b s : Decoder) : Prop where
  buffer : b.reader.isNone = true
  stream : s.reader.isNone = false
  bufferSized : b.Sized
  streamSized : s.Sized
  rest : b.rest = s.rest
  budget : b.budget = s.budget

theorem SamePlace.after {b s b' s' : Decoder} (h : SamePlace b s) (hb : b.After n b')
    (hs : s.After n s') : SamePlace b' s' where
  buffer := hb.mode.trans h.buffer
  stream := hs.mode.trans h.stream
  bufferSized := hb.sized h.bufferSized
  streamSized := hs.sized h.streamSized
  rest := by rw [hb.rest, hs.rest, h.rest]
  budget := by rw [hb.budget, hs.budget, h.budget]

theorem SamePlace.physicalLen {b s : Decoder} (h : SamePlace b s) : b.physicalLen = s.physicalLen := by
  rw [h.bufferSized.physicalLen, h.streamSized.physicalLen, h.rest]

theorem agree_takeBytes (n : Nat) : Agree SamePlace (takeBytes n) (takeBytes n) := by
  intro b s h
  have hrs := h.rest
  have hbud := h.budget
  by_cases hda : n ≤ b.rest.length
  · by_cases hrm : n ≤ b.budget.remaining
    · obtain ⟨p, b', htk, hby, haft⟩ := take_ok hda hrm
      obtain ⟨p', s', htk', hby', haft'⟩ :=
        take_ok (d := s) (n := n) (by rw [← hrs]; exact hda) (by rw [← hbud]; exact hrm)
      unfold takeBytes
      rw [bind_run_ok htk, bind_run_ok htk', view_run, view_run, hby, hby', hrs]
      exact ⟨rfl, h.after haft haft'⟩
    · have htk := take_limited h.bufferSized hda (not_le.mp hrm)
      have htk' := take_limited (n := n) h.streamSized (by rw [← hrs]; exact hda)
        (by rw [← hbud]; exact not_le.mp hrm)
      unfold takeBytes
      rw [bind_run_error htk, bind_run_error htk']
      exact ⟨rfl, h⟩
  · have htk := take_short h.bufferSized (not_le.mp hda)
    have htk' := take_short (n := n) h.streamSized (by rw [← hrs]; exact not_le.mp hda)
    unfold takeBytes
    rw [bind_run_error htk, bind_run_error htk']
    exact ⟨rfl, h⟩

theorem agree_charge (section_ : DecodeBudget → Except DecodeError DecodeBudget) :
    Agree SamePlace (charge section_) (charge section_) := by
  intro b s h
  unfold charge
  rw [h.budget]
  cases section_ s.budget with
  | ok budget => exact ⟨rfl, h.buffer, h.stream, h.bufferSized, h.streamSized, h.rest, rfl⟩
  | error err => exact ⟨rfl, h⟩

theorem agree_available : Agree SamePlace (view available : DecodeM Int) (view available) := by
  intro b s h
  have hava : b.available = s.available := by
    unfold available
    rw [h.physicalLen, h.budget]
  rw [view_run, view_run, hava]
  exact ⟨rfl, h⟩

theorem agree_readUint32 : Agree SamePlace readUint32 readUint32 :=
  (agree_takeBytes 4).bind fun _ => pure _

theorem agree_readUint64 : Agree SamePlace readUint64 readUint64 :=
  (agree_takeBytes 8).bind fun _ => pure _

theorem agree_byteHeader : Agree SamePlace byteHeader byteHeader := by
  refine (agree_takeBytes 1).bind fun p => ?_
  dsimp only
  split
  · exact fail _
  split
  · exact (agree_takeBytes 3).bind fun _ => pure _
  · exact pure _

theorem payload_ok {padding : Nat} (hda : n + padding ≤ d.rest.length)
    (hbud : ((n + padding : Nat) : Int) ≤ d.budget.remaining) :
    ∃ p d', payloadSpan n padding d = (.ok p, d') ∧ d'.bytesOf p = d.rest.take n ∧
      d.After (n + padding) d' := by
  unfold payloadSpan
  rw [bind_run_ok (requireAvailable_ok hda hbud), state_bind]
  cases hmd : d.reader.isNone with
  | true =>
    have hr : d.reader = none := by simpa using hmd
    have htk := take_buffer (n := n + padding) hr
    rw [if_pos hda, if_pos hbud] at htk
    rw [if_pos rfl, bind_run_ok htk, pure_run]
    refine ⟨_, _, rfl, ?_, ?_, rfl, rfl, fun hsz => hsz⟩
    · simp only [Span.shorten, bytesOf, rest, hr]
    · simp only [rest, hr, drop_drop]
  | false =>
    obtain ⟨mid, hrd, haft, _⟩ :=
      readFull_ok (n := n) hmd (by omega) (by omega)
    have hlen : mid.rest.length = d.rest.length - n := by rw [haft.rest, length_drop]
    have hrem : mid.budget.remaining = d.budget.remaining - n := by
      rw [haft.budget, remaining_charge]
    obtain ⟨p, d', htk, _, haft'⟩ :=
      take_ok (n := padding) (d := mid) (by omega) (by omega)
    rw [if_neg Bool.false_ne_true, bind_run_ok hrd, bind_run_ok htk, pure_run]
    exact ⟨_, _, rfl, rfl, haft.trans haft'⟩

theorem payload_sound {padding : Nat} {p : Span}
    (h : payloadSpan n padding d = (.ok p, d')) : n + padding ≤ d.rest.length := by
  obtain ⟨_, mid, hava, hrun⟩ := bind_ok h
  have hmid : mid = d := by
    rw [requireAvailable_run] at hava
    exact (Prod.mk.inj hava).2.symm
  rw [hmid, state_bind] at hrun
  split at hrun
  · obtain ⟨p', mid', htk, _⟩ := bind_ok hrun
    exact (take_sound htk).1
  obtain ⟨got, mid', hrd, hrun⟩ := bind_ok hrun
  obtain ⟨p', mid'', htk, _⟩ := bind_ok hrun
  obtain ⟨hn, _, haft, _⟩ := readFull_sound hrd
  have hpad := (take_sound htk).1
  rw [haft.rest, length_drop] at hpad
  omega

theorem agree_payload (n padding : Nat) :
    Agree SamePlace (payloadSpan n padding >>= fun p => view (·.bytesOf p))
      (payloadSpan n padding >>= fun p => view (·.bytesOf p)) := by
  intro b s h
  have hrs := h.rest
  have hbud := h.budget
  have hava := requireAvailable_sized (n := n + padding) h.bufferSized
  have hava' := requireAvailable_sized (n := n + padding) h.streamSized
  rw [← hrs, ← hbud] at hava'
  by_cases hda : n + padding ≤ b.rest.length
  · by_cases hrm : ((n + padding : Nat) : Int) ≤ b.budget.remaining
    · obtain ⟨p, b', hp, hby, haft⟩ := payload_ok hda hrm
      obtain ⟨p', s', hp', hby', haft'⟩ :=
        payload_ok (d := s) (by rw [← hrs]; exact hda) (by rw [← hbud]; exact hrm)
      rw [bind_run_ok hp, bind_run_ok hp', view_run, view_run, hby, hby', hrs]
      exact ⟨rfl, h.after haft haft'⟩
    · rw [if_pos hda, if_neg hrm] at hava hava'
      have hp : payloadSpan n padding b = (.error .decodedBytesLimit, b) := bind_run_error hava
      have hp' : payloadSpan n padding s = (.error .decodedBytesLimit, s) :=
        bind_run_error hava'
      rw [bind_run_error hp, bind_run_error hp']
      exact ⟨rfl, h⟩
  · rw [if_neg hda] at hava hava'
    have hp : payloadSpan n padding b = (.error .unexpectedEOF, b) := bind_run_error hava
    have hp' : payloadSpan n padding s = (.error .unexpectedEOF, s) := bind_run_error hava'
    rw [bind_run_error hp, bind_run_error hp']
    exact ⟨rfl, h⟩

theorem agree_readBytes : Agree SamePlace readBytes readBytes := by
  unfold readBytes byteSpan
  rw [bind_assoc]
  exact agree_byteHeader.bind fun header => agree_payload _ _

end Decoder

inductive DecoderOp
  | readUint32
  | readInt32
  | readUint64
  | readInt64
  | readDouble
  | readInt128
  | readInt256
  | readBool
  | readBytes
  | readString
  | readVectorCount (maxElements minElementBytes : Int)
  | enterObject
  | leaveObject

inductive DecodedValue
  | uint32 (v : UInt32)
  | int32 (v : Int32)
  | uint64 (v : UInt64)
  | int64 (v : Int64)
  | double (bits : UInt64)
  | bytes (v : List UInt8)
  | bool (v : Bool)
  | count (v : Int)
  | unit
deriving DecidableEq

def DecoderOp.run : DecoderOp → DecodeM DecodedValue
  | readUint32 => do return .uint32 (← Decoder.readUint32)
  | readInt32 => do return .int32 (← Decoder.readInt32)
  | readUint64 => do return .uint64 (← Decoder.readUint64)
  | readInt64 => do return .int64 (← Decoder.readInt64)
  | readDouble => do return .double (← Decoder.readDouble)
  | readInt128 => do return .bytes (← Decoder.readInt128)
  | readInt256 => do return .bytes (← Decoder.readInt256)
  | readBool => do return .bool (← Decoder.readBool)
  | readBytes => do return .bytes (← Decoder.readBytes)
  | readString => do return .bytes (← Decoder.readString)
  | readVectorCount maxElements minElementBytes => do
    return .count (← Decoder.readVectorCount maxElements minElementBytes)
  | enterObject => do
    Decoder.enterObject
    return .unit
  | leaveObject => do
    Decoder.leaveObject
    return .unit

/-- A program of operations, each chosen by what the earlier ones returned. -/
inductive DecodeProgram
  | done
  | step (op : DecoderOp) (next : Except DecodeError DecodedValue → DecodeProgram)

/-- What a step shows: value or error, and the length and budget left. -/
structure DecodeStep where
  result : Except DecodeError DecodedValue
  len : Int
  budget : DecodeBudget

def DecodeProgram.run : DecodeProgram → Decoder → List DecodeStep
  | done, _ => []
  | step op next, d =>
    ⟨(op.run d).1, (op.run d).2.len, (op.run d).2.budget⟩ :: (next (op.run d).1).run (op.run d).2

namespace Decoder

theorem agree_readBool : Agree SamePlace readBool readBool := by
  refine agree_readUint32.bind fun v => ?_
  split
  · exact pure _
  split
  · exact pure _
  · exact fail _

theorem agree_readInt32 : Agree SamePlace readInt32 readInt32 :=
  agree_readUint32.bind fun _ => pure _

theorem agree_readVectorCount (maxElements minElementBytes : Int) :
    Agree SamePlace (readVectorCount maxElements minElementBytes)
      (readVectorCount maxElements minElementBytes) := by
  refine (Agree.require _ _).bind fun _ => agree_readUint32.bind fun ctor => ?_
  refine (Agree.require _ _).bind fun _ => agree_readInt32.bind fun count => ?_
  refine (Agree.require _ _).bind fun _ => (agree_charge _).bind fun _ => ?_
  refine agree_available.bind fun available => ?_
  exact (Agree.require _ _).bind fun _ => Agree.pure _

end Decoder

theorem DecoderOp.agree (op : DecoderOp) : Agree Decoder.SamePlace op.run op.run := by
  cases op with
  | readUint32 => exact agree_readUint32.bind fun _ => pure _
  | readInt32 => exact agree_readInt32.bind fun _ => pure _
  | readUint64 => exact agree_readUint64.bind fun _ => pure _
  | readInt64 =>
    exact (agree_readUint64.bind fun _ => pure _).bind fun _ => pure _
  | readDouble => exact agree_readUint64.bind fun _ => pure _
  | readInt128 => exact (agree_takeBytes 16).bind fun _ => pure _
  | readInt256 => exact (agree_takeBytes 32).bind fun _ => pure _
  | readBool => exact agree_readBool.bind fun _ => pure _
  | readBytes => exact agree_readBytes.bind fun _ => pure _
  | readString => exact agree_readBytes.bind fun _ => pure _
  | readVectorCount maxElements minElementBytes =>
    exact (agree_readVectorCount _ _).bind fun _ => pure _
  | enterObject => exact (agree_charge _).bind fun _ => pure _
  | leaveObject => exact (agree_charge _).bind fun _ => pure _

theorem DecodeProgram.run_samePlace (program : DecodeProgram) {b s : Decoder}
    (h : Decoder.SamePlace b s) : program.run b = program.run s := by
  induction program generalizing b s with
  | done => rfl
  | step op next ih =>
    obtain ⟨hres, hpla⟩ := op.agree b s h
    have hlen : (op.run b).2.len = (op.run s).2.len := by
      unfold Decoder.len Decoder.available
      rw [hpla.physicalLen, hpla.budget]
    rw [run, run, hres, hlen, hpla.budget, ih _ hpla]

/-- On the same bytes with an equal budget, both kinds of decoder show the same at every step of
every program. -/
theorem decoders_equivalent (data : List UInt8) (limits : DecodeLimits) (program : DecodeProgram) :
    program.run (newDecoderBytes data (newDecodeBudget limits).toOption) =
      program.run (newDecoder (newBudgetReader { data } (newDecodeBudget limits).toOption)) := by
  refine program.run_samePlace ⟨rfl, rfl, ?_, ?_, rfl, rfl⟩
  · intro source hs
    cases hs
  · intro source hs
    cases hs
    rfl

end Tlrpc
