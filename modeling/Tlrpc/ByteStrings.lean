import Tlrpc.DecoderModes
import Tlrpc.Encoder

namespace Tlrpc

open List Encoder Decoder BudgetReader DecodeBudget

open StateExcept

theorem writeBytes_eq (v : List UInt8) :
    writeBytes v = if v.length ≤ maxTLBytesLength then
      some (tlHeader v.length ++ v ++
        List.replicate (tlPadding ((tlHeader v.length).length + v.length)) 0) else none := by
  unfold writeBytes tlHeader tlPadding
  by_cases hsh : v.length < 254
  · have hmax : v.length ≤ maxTLBytesLength := by
      unfold maxTLBytesLength
      omega
    rw [if_pos hsh, if_pos hmax, if_pos hsh]
    rfl
  · rw [if_neg hsh, if_neg hsh]
    by_cases hmax : v.length ≤ maxTLBytesLength
    · rw [if_neg (not_lt.mpr hmax), if_pos hmax, length_cons, length_leBytes]
    · rw [if_pos (not_le.mp hmax), if_neg hmax]

variable {v : List UInt8} {ω : Type}

section

variable (h : v.length ≤ maxTLBytesLength)
include h

theorem tlBytes_eq :
    tlBytes v = tlHeader v.length ++ v ++
      List.replicate (tlPadding ((tlHeader v.length).length + v.length)) 0 := by
  have hso := writeBytes_eq_some h
  rw [writeBytes_eq, if_pos h] at hso
  exact (Option.some.inj hso).symm

theorem length_tlBytes :
    (tlBytes v).length = (tlHeader v.length).length + v.length +
      tlPadding ((tlHeader v.length).length + v.length) := by
  rw [tlBytes_eq h, length_append, length_append, length_replicate]

theorem length_tlBytes_mod :
    (tlBytes v).length % 4 = 0 := by
  rw [length_tlBytes h]
  unfold tlPadding
  omega

end

variable {v : List UInt8} {n : Nat}

section

variable {ω : Type} {w : ByteWriter ω EncodeError} {out : ω → List UInt8} (hw : w.TakesAll out)
include hw

theorem writeTo_ok (p : List UInt8) (s : ω) :
    ∃ s', writeTo w p s = (.ok (), s') ∧ out s' = out s ++ p := by
  refine ⟨(w.write p s).2, ?_, hw.appended p s⟩
  unfold writeTo
  rw [hw.taken]

theorem writeTo_three (a b : List UInt8) (n : Nat) (s : ω) :
    ∃ s', (do
      writeTo w a
      writeTo w b
      if n > 0 then writeTo w (List.replicate n 0) else return ()) s = (.ok (), s') ∧
      out s' = out s ++ (a ++ b ++ List.replicate n 0) := by
  obtain ⟨first, hfst, hout⟩ := writeTo_ok hw a s
  obtain ⟨second, hsnd, hot⟩ := writeTo_ok hw b first
  rw [bind_run_ok hfst, bind_run_ok hsnd]
  by_cases hn : n > 0
  · obtain ⟨third, hthi, hou⟩ := writeTo_ok hw (replicate n 0) second
    refine ⟨third, by rw [if_pos hn, hthi], ?_⟩
    rw [hou, hot, hout, append_assoc, append_assoc, append_assoc]
  have hz : n = 0 := by omega
  refine ⟨second, by rw [if_neg hn, pure_run], ?_⟩
  rw [hot, hout, hz, replicate_zero, append_nil, append_assoc]

theorem writeBytesTo_ok (h : v.length ≤ maxTLBytesLength) (s : ω) :
    ∃ s', writeBytesTo w v s = (.ok (), s') ∧ out s' = out s ++ tlBytes v := by
  rw [tlBytes_eq h]
  unfold writeBytesTo tlHeader
  by_cases hsh : v.length < 254
  · rw [if_pos hsh, if_pos hsh]
    exact writeTo_three hw _ _ _ s
  · rw [if_neg hsh, if_neg hsh, if_neg (not_lt.mpr h), length_cons, length_leBytes]
    exact writeTo_three hw _ _ _ s

variable {e : Encoder ω}

theorem Encoder.write_stream {s : ω} (he : e.writer = some s) (p : List UInt8) :
    ∃ s', Encoder.write w p e = (.ok (), { e with writer := some s' }) ∧ out s' = out s ++ p := by
  refine ⟨(w.write p s).2, ?_, hw.appended p s⟩
  unfold write writeAll
  rw [state_bind, he]
  dsimp only
  rw [update_bind, hw.taken]
  dsimp only
  rw [require_run, if_pos rfl]

omit hw in
theorem Encoder.writeText_stream {s : ω} (he : e.writer = some s)
    (p : List UInt8) : Encoder.writeText w p e = Encoder.write w p e := by
  unfold writeText write
  rw [state_bind, state_bind, he]

theorem Encoder.bytesHeader_stream {s : ω} (he : e.writer = some s)
    (h : n ≤ maxTLBytesLength) :
    ∃ s', Encoder.bytesHeader w n e =
        (.ok (tlPadding ((tlHeader n).length + n)), { e with writer := some s' }) ∧
      out s' = out s ++ tlHeader n := by
  obtain ⟨s', hwrt, hout⟩ := write_stream hw he (tlHeader n)
  refine ⟨s', ?_, hout⟩
  unfold bytesHeader
  rw [require_bind_pos h, state_bind, he]
  dsimp only [Option.isNone_some]
  rw [if_neg Bool.false_ne_true]
  rw [bind_run_ok hwrt, pure_run]

theorem Encoder.writeBytes_stream {s : ω} (he : e.writer = some s)
    (h : v.length ≤ maxTLBytesLength) :
    ∃ s', Encoder.writeBytes w v e = (.ok (), { e with writer := some s' }) ∧
      Encoder.writeString w v e = (.ok (), { e with writer := some s' }) ∧
      out s' = out s ++ tlBytes v := by
  obtain ⟨first, hfst, hout⟩ := bytesHeader_stream hw he h
  obtain ⟨second, hsnd, hot⟩ :=
    write_stream hw (e := { e with writer := some first }) rfl v
  obtain ⟨third, hthi, hou⟩ :=
    write_stream hw (e := { e with writer := some second }) rfl
      (replicate (tlPadding ((tlHeader v.length).length + v.length)) 0)
  have htx := writeText_stream (w := w) (e := { e with writer := some first }) rfl v
  refine ⟨third, ?_, ?_, ?_⟩
  · unfold writeBytes padding
    rw [bind_run_ok hfst, bind_run_ok hsnd, hthi]
  · unfold writeString padding
    rw [bind_run_ok hfst, bind_run_ok (htx.trans hsnd), hthi]
  · rw [hou, hot, hout, tlBytes_eq h, append_assoc, append_assoc,
      append_assoc]

end

theorem Encoder.reserve_run (n : Nat) (e : Encoder ω) :
    Encoder.reserve n e =
      (if (n : Int) ≤ e.limit - e.data.length then .ok () else .error .encodedBytesLimit, e) := by
  unfold reserve
  rw [state_bind, require_run]

section

variable {ω : Type} (w : ByteWriter ω EncodeError) (data : List UInt8) (limit : Int)

theorem Encoder.write_buffer (p : List UInt8) (h : (data.length + p.length : Int) ≤ limit) :
    Encoder.write w p ⟨none, data, limit⟩ = (.ok (), ⟨none, data ++ p, limit⟩) := by
  have hres := reserve_run p.length (⟨none, data, limit⟩ : Encoder ω)
  rw [if_pos (by dsimp only; omega)] at hres
  unfold write
  rw [state_bind]
  dsimp only
  rw [bind_run_ok hres]
  rfl

theorem Encoder.bytesHeader_buffer (h : n ≤ maxTLBytesLength) :
    Encoder.bytesHeader w n ⟨none, data, limit⟩ =
      if (data.length + ((tlHeader n).length + n + tlPadding ((tlHeader n).length + n) : Nat) : Int) ≤
          limit then
        (.ok (tlPadding ((tlHeader n).length + n)), ⟨none, data ++ tlHeader n, limit⟩)
      else (.error .encodedBytesLimit, ⟨none, data, limit⟩) := by
  have hres := reserve_run
    ((tlHeader n).length + n + tlPadding ((tlHeader n).length + n))
    (⟨none, data, limit⟩ : Encoder ω)
  unfold bytesHeader
  rw [require_bind_pos h, state_bind]
  dsimp only [Option.isNone_none]
  rw [if_pos rfl]
  split
  next hft =>
    rw [if_pos (by dsimp only; omega)] at hres
    have hwrt := write_buffer w data limit (tlHeader n) (by omega)
    rw [bind_run_ok hres, bind_run_ok hwrt, pure_run]
  next hfl =>
    rw [if_neg (by dsimp only; omega)] at hres
    rw [bind_run_error hres]

theorem Encoder.writeBytes_buffer (h : v.length ≤ maxTLBytesLength) :
    Encoder.writeBytes w v ⟨none, data, limit⟩ =
        (if (data.length + (tlBytes v).length : Int) ≤ limit then
          (.ok (), ⟨none, data ++ tlBytes v, limit⟩)
        else (.error .encodedBytesLimit, ⟨none, data, limit⟩)) ∧
      Encoder.writeString w v ⟨none, data, limit⟩ =
        Encoder.writeBytes w v ⟨none, data, limit⟩ := by
  have hhdr := bytesHeader_buffer w data limit h
  rw [← length_tlBytes h] at hhdr
  unfold writeBytes writeString padding
  split
  next hft =>
    rw [if_pos hft] at hhdr
    have hlen := length_tlBytes h
    have hpl := write_buffer w (data ++ tlHeader v.length) limit v (by rw [length_append]; omega)
    have hpad := write_buffer w (data ++ tlHeader v.length ++ v) limit
      (replicate (tlPadding ((tlHeader v.length).length + v.length)) 0)
      (by rw [length_append, length_append, length_replicate]; omega)
    have htx : writeText w v ⟨none, data ++ tlHeader v.length, limit⟩ =
        (.ok (), ⟨none, data ++ tlHeader v.length ++ v, limit⟩) := rfl
    rw [bind_run_ok hhdr, bind_run_ok hhdr, bind_run_ok hpl, bind_run_ok htx, hpad,
      tlBytes_eq h]
    simp only [append_assoc, and_self]
  next hfl =>
    rw [if_neg hfl] at hhdr
    rw [bind_run_error hhdr, bind_run_error hhdr]
    exact ⟨rfl, rfl⟩

end

theorem Encoder.bytesHeader_long {w : ByteWriter ω EncodeError}
    (h : maxTLBytesLength < n) (e : Encoder ω) :
    Encoder.bytesHeader w n e = (.error .stringTooLong, e) := by
  unfold bytesHeader
  rw [require_bind_neg (not_le.mpr h)]

def readLength (first : UInt8) (data : List UInt8) : Option ((Nat × Nat) × List UInt8) :=
  if first = 255 then none
  else if first < 254 then some ((first.toNat, 1), data)
  else (readFull 3 data).bind fun size => some ((leNat size.1, 4), size.2)

def readByteHeader (data : List UInt8) : Option ((Nat × Nat) × List UInt8) :=
  (readFull 1 data).bind fun r => readLength (r.1.headD 0) r.2

theorem readBytes_header (data : List UInt8) :
    readBytes data = (readByteHeader data).bind fun r => readPadded r.1.2 r.1.1 r.2 := by
  cases data with
  | nil => rfl
  | cons first rest =>
    have hone : readFull 1 (first :: rest) = some ([first], rest) := by
      unfold readFull
      rw [if_neg (by simp)]
      rfl
    have hhdr : readByteHeader (first :: rest) = readLength first rest := by
      unfold readByteHeader
      rw [hone]
      rfl
    rw [hhdr, readBytes]
    unfold readLength
    by_cases hinv : first = 255
    · rw [if_pos hinv, if_pos hinv]
      rfl
    rw [if_neg hinv, if_neg hinv]
    by_cases hsh : first < 254
    · rw [if_pos hsh, if_pos hsh]
      rfl
    rw [if_neg hsh, if_neg hsh]
    cases readFull 3 rest with
    | none => rfl
    | some size => rfl

theorem readByteHeader_length {data left : List UInt8} {header : Nat × Nat}
    (h : readByteHeader data = some (header, left)) : header.1 ≤ 2 ^ 31 - 1 := by
  unfold readByteHeader readLength at h
  obtain ⟨r, _, h⟩ := Option.bind_eq_some_iff.mp h
  split at h
  · cases h
  split at h
  · cases h
    have := (r.1.headD 0).toNat_lt
    omega
  obtain ⟨size, hsz, h⟩ := Option.bind_eq_some_iff.mp h
  cases h
  have hlt := leNat_lt size.1
  have hlen : size.1.length ≤ 3 := by
    unfold readFull at hsz
    split at hsz
    · cases hsz
    cases hsz
    exact length_take_le _ _
  have hpow : 256 ^ size.1.length ≤ 256 ^ 3 := Nat.pow_le_pow_right (by decide) hlen
  omega

theorem readPadded_eq (headerSize length : Nat) (data : List UInt8) :
    readPadded headerSize length data =
      if length + tlPadding (headerSize + length) ≤ data.length then
        some (data.take length, data.drop (length + tlPadding (headerSize + length)))
      else none := by
  unfold readPadded readFull
  by_cases hlen : data.length < length
  · rw [if_pos hlen, if_neg (by omega)]
    rfl
  rw [if_neg hlen]
  show (if (data.drop length).length < tlPadding (headerSize + length) then none else
    some ((data.drop length).take _, (data.drop length).drop _)).bind
      (fun r => some (data.take length, r.2)) = _
  rw [length_drop, drop_drop]
  by_cases hpad : data.length - length < tlPadding (headerSize + length)
  · rw [if_pos hpad, if_neg (by omega)]
    rfl
  · rw [if_neg hpad, if_pos (by omega)]
    rfl

def Decoder.Ample (d : Decoder) : Prop := d.rest.length ≤ d.budget.remaining

theorem Decoder.Ample.after {d d' : Decoder} (h : d.Ample) (haft : d.After n d')
    (hn : n ≤ d.rest.length) : d'.Ample := by
  unfold Decoder.Ample at h ⊢
  rw [haft.rest, haft.budget, remaining_charge, length_drop]
  omega

theorem Decoder.parses_takeBytes (n : Nat) :
    Parses Decoder.Ample Decoder.rest (Decoder.takeBytes n) (Tlrpc.readFull n) := by
  intro d hd
  unfold Tlrpc.readFull
  by_cases hn : d.rest.length < n
  · rw [if_pos hn]
    refine ⟨nofun, fun _ => ?_⟩
    obtain ⟨⟨result, d'⟩, hrun⟩ : ∃ r, r = takeBytes n d := ⟨_, rfl⟩
    cases result with
    | error err => exact ⟨err, d', hrun.symm⟩
    | ok bytes =>
      obtain ⟨p, mid, htk, _⟩ := bind_ok hrun.symm
      have := (take_sound htk).1
      omega
  · rw [if_neg hn]
    refine ⟨?_, nofun⟩
    rintro bytes left ⟨⟩
    have hrm : (n : Int) ≤ d.budget.remaining := by
      unfold Decoder.Ample at hd
      omega
    obtain ⟨p, d', htk, hby, haft⟩ := take_ok (by omega) hrm
    refine ⟨d', ?_, hd.after haft (by omega), haft.rest⟩
    unfold takeBytes
    rw [bind_run_ok htk, view_run, hby]

theorem Decoder.parses_byteHeader :
    Parses Decoder.Ample Decoder.rest Decoder.byteHeader readByteHeader := by
  refine (parses_takeBytes 1).bind (h := fun p => readLength (p.headD 0)) fun p => ?_
  unfold readLength
  by_cases hinv : p.headD 0 = 255
  · simp only [if_pos hinv]
    exact Parses.fail _
  simp only [if_neg hinv]
  by_cases hln : p.headD 0 = 254
  · have hnot : ¬ p.headD 0 < 254 := by
      rw [hln]
      decide
    simp only [if_pos hln, if_neg hnot]
    exact (parses_takeBytes 3).bind fun size => Parses.pure (leNat size, 4)
  · have hlt : p.headD 0 < 254 := by
      have h255 : (p.headD 0).toNat ≠ 255 := fun heq => hinv (UInt8.toNat_inj.mp heq)
      have h254 : (p.headD 0).toNat ≠ 254 := fun heq => hln (UInt8.toNat_inj.mp heq)
      have hby := (p.headD 0).toNat_lt
      rw [UInt8.lt_iff_toNat_lt]
      show (p.headD 0).toNat < 254
      omega
    simp only [if_neg hln, if_pos hlt]
    exact Parses.pure _

theorem Decoder.parses_payload (headerSize n : Nat) :
    Parses Decoder.Ample Decoder.rest
      (Decoder.payloadSpan n (tlPadding (headerSize + n)) >>= fun p => view (·.bytesOf p))
      (readPadded headerSize n) := by
  intro d hd
  rw [readPadded_eq]
  by_cases hda : n + tlPadding (headerSize + n) ≤ d.rest.length
  · rw [if_pos hda]
    refine ⟨?_, nofun⟩
    rintro bytes left ⟨⟩
    have hrm : ((n + tlPadding (headerSize + n) : Nat) : Int) ≤ d.budget.remaining := by
      unfold Decoder.Ample at hd
      omega
    obtain ⟨p, d', hp, hby, haft⟩ := payload_ok hda hrm
    refine ⟨d', ?_, hd.after haft hda, haft.rest⟩
    rw [bind_run_ok hp, view_run, hby]
  · rw [if_neg hda]
    refine ⟨nofun, fun _ => ?_⟩
    obtain ⟨⟨result, d'⟩, hrun⟩ : ∃ r, r = (payloadSpan n (tlPadding (headerSize + n)) >>=
      fun p => view (·.bytesOf p)) d := ⟨_, rfl⟩
    cases result with
    | error err => exact ⟨err, d', hrun.symm⟩
    | ok bytes =>
      obtain ⟨p, mid, hp, _⟩ := bind_ok hrun.symm
      exact absurd (payload_sound hp) hda

theorem Decoder.parses_readBytes :
    Parses Decoder.Ample Decoder.rest Decoder.readBytes Tlrpc.readBytes := by
  unfold readBytes byteSpan
  rw [bind_assoc]
  refine (parses_byteHeader.bind (h := fun header => readPadded header.2 header.1)
    fun header => ?_).congr fun data => (readBytes_header data).symm
  exact parses_payload header.2 header.1

def BudgetReader.Ample (r : BudgetReader) : Prop :=
  r.source.sized = true ∧ r.source.data.length ≤ r.budget.remaining

theorem BudgetReader.parses_readFull (n : Nat) :
    Parses BudgetReader.Ample (·.source.data) (BudgetReader.readFull n) (Tlrpc.readFull n) := by
  rintro r ⟨hsz, hbud⟩
  unfold Tlrpc.readFull
  by_cases hn : r.source.data.length < n
  · rw [if_pos hn]
    refine ⟨nofun, fun _ => ?_⟩
    obtain ⟨⟨result, r'⟩, hrun⟩ : ∃ x, x = readFull n r := ⟨_, rfl⟩
    cases result with
    | error err => exact ⟨err, r', hrun.symm⟩
    | ok bytes =>
      have := (readFull_sound hrun.symm).1
      omega
  · rw [if_neg hn]
    refine ⟨?_, nofun⟩
    rintro bytes left ⟨⟩
    obtain ⟨r', hrun, hda, hsz', hbud'⟩ :=
      readFull_ok (r := r) (n := n) (by omega) (by omega)
    refine ⟨r', hrun, ⟨hsz'.trans hsz, ?_⟩, hda⟩
    rw [hda, hbud', remaining_charge, length_drop]
    omega

theorem BudgetReader.parses_readSizedBytes (n : Nat) :
    Parses BudgetReader.Ample (·.source.data) (BudgetReader.readSizedBytes n) (Tlrpc.readFull n) := by
  intro r hr
  have hlen : r.len = r.source.data.length := by
    obtain ⟨hsz, hbud⟩ := hr
    simp only [len, physicalLen, hsz, if_true]
    split <;> omega
  unfold readSizedBytes
  rw [state_bind]
  by_cases hn : (n : Int) ≤ r.len
  · rw [require_bind_pos hn]
    exact parses_readFull n r hr
  rw [require_bind_neg hn]
  refine ⟨fun bytes left hrd => ?_, fun _ => ⟨_, _, rfl⟩⟩
  have hsh : r.source.data.length < n := by omega
  unfold Tlrpc.readFull at hrd
  rw [if_pos hsh] at hrd
  cases hrd

theorem BudgetReader.parses_byteHeader :
    Parses BudgetReader.Ample (·.source.data) BudgetReader.byteHeader readByteHeader := by
  refine (parses_readFull 1).bind (h := fun p => readLength (p.headD 0)) fun p => ?_
  unfold readLength
  by_cases hinv : p.headD 0 = 255
  · simp only [if_pos hinv]
    exact Parses.fail _
  simp only [if_neg hinv]
  by_cases hsh : p.headD 0 < 254
  · simp only [if_pos hsh]
    exact Parses.pure _
  · simp only [if_neg hsh]
    exact (parses_readFull 3).bind fun size => Parses.pure (leNat size, 4)

theorem BudgetReader.parses_payload (headerSize n : Nat) (hn : n ≤ 2 ^ 31 - 1) :
    Parses BudgetReader.Ample (·.source.data) (do
      StateExcept.require (n ≤ 2 ^ 31 - 1) .stringTooLong
      let data ← BudgetReader.readSizedBytes n
      if tlPadding (headerSize + n) > 0 then do
        let _ ← BudgetReader.readFull (tlPadding (headerSize + n))
        return data
      else return data) (readPadded headerSize n) := by
  have hpad : ∀ data, readPadded headerSize n data = (Tlrpc.readFull n data).bind fun r =>
      (Tlrpc.readFull (tlPadding (headerSize + n)) r.2).bind fun left => some (r.1, left.2) := by
    intro data
    rfl
  refine Parses.congr (f := fun data => (Tlrpc.readFull n data).bind fun r =>
      (Tlrpc.readFull (tlPadding (headerSize + n)) r.2).bind fun left => some (r.1, left.2)) ?_
    fun data => (hpad data).symm
  intro r hr
  rw [require_bind_pos hn]
  refine ((parses_readSizedBytes n).bind (h := fun payload data =>
    (Tlrpc.readFull (tlPadding (headerSize + n)) data).bind fun left => some (payload, left.2))
      fun payload => ?_) r hr
  split
  · exact (parses_readFull _).bind fun _ => Parses.pure payload
  rename_i hz
  have hno : tlPadding (headerSize + n) = 0 := by omega
  refine (Parses.pure payload).congr fun data => ?_
  rw [hno]
  rfl

theorem BudgetReader.parses_readBytes :
    Parses BudgetReader.Ample (·.source.data) BudgetReader.readBytes Tlrpc.readBytes := by
  refine Parses.congr (f := fun data =>
    (readByteHeader data).bind fun r => readPadded r.1.2 r.1.1 r.2) ?_
    fun data => (readBytes_header data).symm
  intro r hr
  have hhdr := parses_byteHeader r hr
  dsimp only
  unfold readBytes
  cases hrd : readByteHeader r.source.data with
  | none =>
    obtain ⟨err, r', hrun⟩ := hhdr.2 hrd
    refine ⟨nofun, fun _ => ⟨err, r', bind_run_error hrun⟩⟩
  | some header =>
    obtain ⟨mid, hrun, hmid, hlf⟩ := hhdr.1 header.1 header.2 hrd
    have hpl := parses_payload header.1.2 header.1.1
      (readByteHeader_length hrd) mid hmid
    rw [hlf] at hpl
    rw [bind_run_ok hrun]
    exact hpl

def byteBuffer : ByteWriter (List UInt8) EncodeError := ⟨fun p s => ((p.length, none), s ++ p)⟩

theorem byteBuffer_takesAll : byteBuffer.TakesAll id := ⟨fun _ _ => rfl, fun _ _ => rfl⟩

/-- All writers write `encoded` for `v`, into a buffer if it has room. -/
structure WritersProduce (v encoded : List UInt8) : Prop where
  plain : ∀ {ω : Type} {w : ByteWriter ω EncodeError} {out : ω → List UInt8}, w.TakesAll out →
    ∀ s, ∃ s', writeBytesTo w v s = (.ok (), s') ∧ out s' = out s ++ encoded
  stream : ∀ {ω : Type} {w : ByteWriter ω EncodeError} {out : ω → List UInt8}, w.TakesAll out →
    ∀ (e : Encoder ω) (s : ω), e.writer = some s →
      ∃ s', Encoder.writeBytes w v e = (.ok (), { e with writer := some s' }) ∧
        Encoder.writeString w v e = (.ok (), { e with writer := some s' }) ∧
        out s' = out s ++ encoded
  buffer : ∀ {ω : Type} (w : ByteWriter ω EncodeError) (data : List UInt8) (limit : Int),
    Encoder.writeBytes w v ⟨none, data, limit⟩ =
        (if (data.length + encoded.length : Int) ≤ limit then
          (.ok (), ⟨none, data ++ encoded, limit⟩)
        else (.error .encodedBytesLimit, ⟨none, data, limit⟩)) ∧
      Encoder.writeString w v ⟨none, data, limit⟩ = Encoder.writeBytes w v ⟨none, data, limit⟩

structure WritersRefuse (v : List UInt8) : Prop where
  plain : ∀ {ω : Type} (w : ByteWriter ω EncodeError) (s : ω),
    writeBytesTo w v s = (.error .stringTooLong, s)
  encoder : ∀ {ω : Type} (w : ByteWriter ω EncodeError) (e : Encoder ω),
    Encoder.writeBytes w v e = (.error .stringTooLong, e) ∧
      Encoder.writeString w v e = (.error .stringTooLong, e)

/-- All readers with a budget for the input accept the same value and rest, or none accepts. -/
structure ReadersAgree (input : List UInt8) (expected : Option (List UInt8 × List UInt8)) : Prop where
  plain : ∀ (source : ByteSource) (budget : DecodeBudget), source.data = input →
    source.sized = true → input.length ≤ budget.remaining →
    accepted (·.source.data) (BudgetReader.readBytes ⟨source, budget⟩) = expected
  buffer : ∀ budget : DecodeBudget, input.length ≤ budget.remaining →
    accepted Decoder.rest (Decoder.readBytes (newDecoderBytes input (some budget))) = expected
  stream : ∀ (source : ByteSource) (budget : DecodeBudget), source.data = input →
    input.length ≤ budget.remaining →
    accepted Decoder.rest (Decoder.readBytes (newDecoder ⟨source, budget⟩)) = expected

theorem readers_agree (input : List UInt8) : ReadersAgree input (readBytes input) where
  plain source budget hda hsz hbud := by
    subst hda
    exact parses_readBytes.accepted_eq ⟨hsz, hbud⟩
  buffer budget hbud := parses_readBytes.accepted_eq hbud
  stream source budget hda hbud := by
    subst hda
    exact parses_readBytes.accepted_eq hbud

theorem writers_produce (h : v.length ≤ maxTLBytesLength) :
    WritersProduce v (tlBytes v) where
  plain hw s := writeBytesTo_ok hw h s
  stream hw _ _ he := writeBytes_stream hw he h
  buffer w data limit := writeBytes_buffer w data limit h

theorem writers_refuse (h : maxTLBytesLength < v.length) : WritersRefuse v where
  plain w s := by
    have hsh : ¬ v.length < 254 := by
      unfold maxTLBytesLength at h
      omega
    unfold writeBytesTo
    rw [if_neg hsh, if_pos h]
    rfl
  encoder w e := by
    have hhdr := bytesHeader_long (w := w) h e
    exact ⟨bind_run_error hhdr, bind_run_error hhdr⟩

/-- Strings of up to `2 ^ 24 - 1` bytes are written alike by all writers and longer ones refused;
all readers read any input alike, and what was written is read back in front of any suffix. -/
theorem tl_bytes_one_format :
    (∀ v : List UInt8, v.length ≤ 2 ^ 24 - 1 → ∃ encoded, encoded.length % 4 = 0 ∧
      WritersProduce v encoded ∧ ∀ suffix, ReadersAgree (encoded ++ suffix) (some (v, suffix))) ∧
      (∀ v : List UInt8, 2 ^ 24 - 1 < v.length → WritersRefuse v) ∧
      ∀ input, ∃ expected, ReadersAgree input expected := by
  refine ⟨fun v hv => ?_, fun v hv => writers_refuse hv, fun input => ⟨_, readers_agree input⟩⟩
  refine ⟨tlBytes v, length_tlBytes_mod hv, writers_produce hv, fun suffix => ?_⟩
  rw [← readBytes_tlBytes hv suffix]
  exact readers_agree _

/-- The default buffer encoder has no room for the longest string, which `WriteBytes` writes. -/
theorem default_encoder_refuses_longest :
    newBufferEncoder 0 = .ok (⟨none, [], 2 ^ 24⟩ : Encoder (List UInt8)) ∧
      ∃ v : List UInt8, v.length = 2 ^ 24 - 1 ∧
        Encoder.writeBytes byteBuffer v ⟨none, [], 2 ^ 24⟩ =
          (.error .encodedBytesLimit, ⟨none, [], 2 ^ 24⟩) ∧
        (writeBytesTo byteBuffer v []).1 = .ok () := by
  obtain ⟨v, hv⟩ : ∃ v : List UInt8, v.length = 2 ^ 24 - 1 := 
    ⟨replicate (2 ^ 24 - 1) 0, length_replicate⟩
  have hmax : v.length ≤ maxTLBytesLength := hv.le
  refine ⟨rfl, v, hv, ?_, ?_⟩
  · rw [(writeBytes_buffer byteBuffer [] (2 ^ 24) hmax).1, if_neg]
    have hhdr : (tlHeader v.length).length = 4 := by
      unfold tlHeader
      rw [if_neg (by omega), length_cons, length_leBytes]
    rw [length_tlBytes hmax, hhdr, length_nil]
    omega
  · obtain ⟨s', hrun, _⟩ := writeBytesTo_ok byteBuffer_takesAll hmax []
    rw [hrun]

end Tlrpc
