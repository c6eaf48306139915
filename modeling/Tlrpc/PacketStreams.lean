import Tlrpc.PacketReader

namespace Tlrpc

open List StateExcept

open PacketInput

namespace PacketInput

variable {s s' : PacketInput} {n : Nat} {bytes rest : List UInt8}

theorem readFull_append (hda : s.source.data = bytes ++ rest) (hn : bytes.length = n) :
    ∃ s', readFull n s = (.ok bytes, s') ∧ s'.source.data = rest := by
  have hdel := ByteSource.delivers (ε := PacketError) s.source.data
  have hst : 0 ≤ s.source.data.length ∧ s.source.data = s.source.data.drop 0 := by simp
  have hlen : s.source.data.length = n + rest.length := by
    rw [hda, length_append, hn]
  obtain ⟨source, hrd, _, hlf⟩ := ByteReader.readFull_ok hdel hst
    (show 0 + n ≤ s.source.data.length by omega)
  refine ⟨{ s with source }, ?_, ?_⟩
  · unfold readFull
    rw [hrd, drop_zero, hda, take_left' hn]
  · rw [hlf, hda, Nat.zero_add, drop_left' hn]

theorem readPayload_append (hda : s.source.data = bytes ++ rest) (hn : bytes.length = n) :
    ∃ s', readPayload n s = (.ok bytes, s') ∧ s'.source.data = rest := by
  unfold readPayload
  rw [update_bind]
  exact readFull_append hda hn

theorem readFull_length (h : readFull n s = (.ok bytes, s')) : bytes.length = n := by
  have hdel := ByteSource.delivers (ε := PacketError) s.source.data
  have hst : 0 ≤ s.source.data.length ∧ s.source.data = s.source.data.drop 0 := by simp
  obtain ⟨hres, _⟩ := Prod.mk.inj h
  exact (ByteReader.readFull_sound hdel hst (Nat.zero_le _)
    (Prod.ext hres rfl)).1

theorem readPayload_length (h : readPayload n s = (.ok bytes, s')) : bytes.length = n := by
  unfold readPayload at h
  rw [update_bind] at h
  exact readFull_length h

end PacketInput

variable {declared : Nat} {maxPayloadBytes : Int} {sizes : Nat → Prop} {payload : List UInt8}

theorem checkedPayloadLength_eq (hpos : 0 < declared)
    (hle : declared ≤ payloadLimit maxPayloadBytes) :
    checkedPayloadLength declared maxPayloadBytes = .ok declared := by
  unfold checkedPayloadLength
  rw [if_neg (by omega), if_neg (by omega)]

theorem checkedPayloadLength_ok {n : Nat}
    (h : checkedPayloadLength declared maxPayloadBytes = .ok n) :
    n = declared ∧ 0 < declared ∧ declared ≤ payloadLimit maxPayloadBytes := by
  unfold checkedPayloadLength at h
  split at h
  · cases h
  rename_i hpos
  split at h
  · cases h
  next hle =>
    cases h
    exact ⟨rfl, by omega, by omega⟩

structure Sendable (maxPayloadBytes : Int) (payload : List UInt8) : Prop where
  nonempty : payload ≠ []
  aligned : payload.length % 4 = 0
  bounded : payload.length ≤ maxPacketPayloadBytes
  within : payload.length ≤ maxPayloadBytes
  noError : payload.length = 4 → 0 ≤ (leUint32 payload).toInt32.toInt

namespace Sendable

variable {maxPayloadBytes : Int} {payload : List UInt8}

theorem checked (h : Sendable maxPayloadBytes payload) :
    checkedPayloadLength payload.length maxPayloadBytes = .ok payload.length := by
  apply checkedPayloadLength_eq (length_pos_iff.mpr h.nonempty)
  have hbd := h.bounded
  have hwi := h.within
  unfold payloadLimit
  split <;> omega

theorem accepted (h : Sendable maxPayloadBytes payload) : readTransportError payload = .ok () := by
  unfold readTransportError
  split
  · rfl
  next hlen => exact if_pos (h.noError (by omega))

end Sendable

namespace Codec

variable {p : Primitives} {maxPayloadBytes : Int} {payload bytes rest : List UInt8}
  {s s' : PacketInput}

theorem lengthOrQuickAck_disallowed (length : UInt32) :
    lengthOrQuickAck false length = pure length.toNat := by
  unfold lengthOrQuickAck
  rw [if_neg (by simp)]

theorem abridged_short : ∀ n < 0x7f, (UInt8.ofNat n ≠ 0x7f ∧ (UInt8.ofNat n &&& 0x7f).toNat = n) ∧
    UInt8.ofNat n ||| 0x80 ≠ 0x7f ∧ ((UInt8.ofNat n ||| 0x80) &&& 0x7f).toNat = n := by
  decide

theorem abridgedLength_low {lengthByte : UInt8} {n : Nat}
    (h : lengthByte ≠ 0x7f ∧ (lengthByte &&& 0x7f).toNat = n) :
    abridgedLength lengthByte s = (.ok n, s) := by
  unfold abridgedLength
  rw [if_neg h.1, h.2]
  rfl

theorem readAbridged_length (maxPayloadBytes : Int) {lengthByte : UInt8} {body after : List UInt8}
    (hda : s.source.data = lengthByte :: after)
    (hlen : ∀ mid : PacketInput, mid.source.data = after → ∃ mid',
      abridgedLength lengthByte mid = (.ok (body.length / 4), mid') ∧
        mid'.source.data = body ++ rest)
    (hpos : 0 < body.length) (hali : body.length % 4 = 0)
    (herr : readTransportError body = .ok ()) :
    ∃ s', readAbridged false maxPayloadBytes s =
        (if body.length ≤ payloadLimit maxPayloadBytes then .ok body else .error .payloadTooLarge, s') ∧
      s'.source.data = if body.length ≤ payloadLimit maxPayloadBytes then rest else body ++ rest := by
  obtain ⟨mid, hfst, hmid⟩ := PacketInput.readFull_append (n := 1)
    (show s.source.data = [lengthByte] ++ after from hda) rfl
  obtain ⟨mid', hlen, hmid'⟩ := hlen mid hmid
  have hwds : body.length / 4 * 4 = body.length := by omega
  unfold readAbridged
  rw [bind_run_ok hfst, if_neg (by simp)]
  unfold abridgedPayload
  rw [headD_cons, bind_run_ok hlen, require_bind_pos (by omega), hwds]
  split
  next hle =>
    obtain ⟨s', hrd, hrs⟩ := readPayload_append hmid' rfl
    refine ⟨s', ?_, hrs⟩
    rw [lift_bind_ok (checkedPayloadLength_eq hpos hle), bind_run_ok hrd,
      lift_bind_ok herr]
    rfl
  next hgt =>
    refine ⟨mid', ?_, hmid'⟩
    unfold checkedPayloadLength
    rw [if_neg (by omega), if_pos (by omega)]
    rfl

theorem readAbridged_accepted (maxPayloadBytes : Int) (hwri : writeAbridged payload = .ok bytes)
    (hpos : 0 < payload.length) (hbd : payload.length ≤ maxPacketPayloadBytes)
    (herr : readTransportError payload = .ok ()) (hda : s.source.data = bytes ++ rest) :
    ∃ s', readAbridged false maxPayloadBytes s =
        (if payload.length ≤ payloadLimit maxPayloadBytes then .ok payload
          else .error .payloadTooLarge, s') ∧
      s'.source.data =
        if payload.length ≤ payloadLimit maxPayloadBytes then rest else payload ++ rest := by
  unfold writeAbridged at hwri
  split at hwri
  · cases hwri
  rename_i hali
  split at hwri
  next hsh =>
    cases hwri
    refine readAbridged_length maxPayloadBytes hda (fun mid hmid => ⟨mid, ?_, hmid⟩) hpos (by omega) herr
    exact abridgedLength_low (abridged_short _ hsh).1
  next hln =>
    cases hwri
    refine readAbridged_length maxPayloadBytes hda (fun mid hmid => ?_) hpos (by omega) herr
    obtain ⟨after, hext, haft⟩ := PacketInput.readFull_append (hmid.trans (append_assoc _ _ _))
      (length_leBytes 3 _)
    refine ⟨after, ?_, haft⟩
    unfold abridgedLength
    rw [if_pos rfl, bind_run_ok hext, leNat_leBytes]
    unfold maxPacketPayloadBytes at hbd
    rw [Nat.mod_eq_of_lt (by omega)]
    rfl

theorem readAbridged_written (hpl : Sendable maxPayloadBytes payload)
    (hwri : writeAbridged payload = .ok bytes) (hda : s.source.data = bytes ++ rest) :
    ∃ s', readAbridged false maxPayloadBytes s = (.ok payload, s') ∧ s'.source.data = rest := by
  have hle := (checkedPayloadLength_ok hpl.checked).2.2
  obtain ⟨s', hrd, hrs⟩ := readAbridged_accepted maxPayloadBytes hwri
    (length_pos_iff.mpr hpl.nonempty) hpl.bounded hpl.accepted hda
  rw [if_pos hle] at hrd hrs
  exact ⟨s', hrd, hrs⟩

theorem intermediate_header (hpl : Sendable maxPayloadBytes payload)
    (hda : s.source.data = writeIntermediate payload ++ rest) :
    ∃ header mid, readFull 4 s = (.ok header, mid) ∧ (leUint32 header).toNat = payload.length ∧
      mid.source.data = payload ++ rest := by
  have hbd := hpl.bounded
  unfold maxPacketPayloadBytes at hbd
  unfold writeIntermediate at hda
  rw [append_assoc] at hda
  obtain ⟨mid, hhdr, hmid⟩ := readFull_append hda (length_leBytes 4 _)
  refine ⟨_, mid, hhdr, ?_, hmid⟩
  have hlen := leUint32_leBytes (show payload.length < 2 ^ 32 by omega) []
  rwa [append_nil] at hlen

theorem readIntermediate_written (hpl : Sendable maxPayloadBytes payload)
    (hda : s.source.data = writeIntermediate payload ++ rest) :
    ∃ s', readIntermediate false maxPayloadBytes s = (.ok payload, s') ∧ s'.source.data = rest := by
  obtain ⟨header, mid, hhdr, hlen, hmid⟩ := intermediate_header hpl hda
  obtain ⟨s', hrd, hrs⟩ := readPayload_append hmid rfl
  refine ⟨s', ?_, hrs⟩
  unfold readIntermediate
  rw [bind_run_ok hhdr, lengthOrQuickAck_disallowed, hlen,
    bind_run_ok (pure_run _ _),
    lift_bind_ok hpl.checked, bind_run_ok hrd,
    lift_bind_ok hpl.accepted]
  rfl

theorem readPaddedIntermediate_written (hpl : Sendable maxPayloadBytes payload)
    (hda : s.source.data = writeIntermediate payload ++ rest) :
    ∃ s', readPaddedIntermediate false maxPayloadBytes s = (.ok payload, s') ∧
      s'.source.data = rest := by
  have hali := hpl.aligned
  have hbd := hpl.bounded
  have hpos := length_pos_iff.mpr hpl.nonempty
  obtain ⟨header, mid, hhdr, hlen, hmid⟩ := intermediate_header hpl hda
  obtain ⟨s', hrd, hrs⟩ := readPayload_append hmid rfl
  refine ⟨s', ?_, hrs⟩
  unfold readPaddedIntermediate
  rw [bind_run_ok hhdr, lengthOrQuickAck_disallowed, hlen,
    bind_run_ok (pure_run _ _), require_bind_pos (by omega),
    require_bind_pos (by omega), hali, Nat.sub_zero,
    lift_bind_ok hpl.checked, bind_run_ok hrd,
    hali, Nat.sub_zero, take_length,
    lift_bind_ok hpl.accepted]
  rfl

theorem readFullPacket_written (hpl : Sendable maxPayloadBytes payload) (seqno : UInt32)
    (hda : s.source.data = writeFullPacket p seqno payload ++ rest) :
    ∃ s', readFullPacket p maxPayloadBytes s = (.ok payload, s') ∧ s'.source.data = rest := by
  have hbd := hpl.bounded
  unfold maxPacketPayloadBytes at hbd
  unfold writeFullPacket at hda
  generalize hhdr : leBytes 4 (payload.length + 12) ++ leBytes 4 seqno.toNat = header at hda
  have hlen : (leUint32 header).toNat = payload.length + 12 := by
    rw [← hhdr]
    exact leUint32_leBytes (by omega) _
  have heig : header.length = 8 := by
    rw [← hhdr, length_append, length_leBytes, length_leBytes]
  rw [append_assoc, append_assoc] at hda
  obtain ⟨mid, hrd, hmid⟩ := readFull_append hda heig
  obtain ⟨after, hrd', haft⟩ := readPayload_append hmid rfl
  obtain ⟨s', hcrc, hrs⟩ := readFull_append haft (length_leBytes 4 _)
  have hsum : leUint32 (leBytes 4 (p.crc32 (header ++ payload)).toNat) =
      p.crc32 (header ++ payload) := by
    have hval := leUint32_leBytes (p.crc32 (header ++ payload)).toNat_lt []
    rw [append_nil] at hval
    exact UInt32.toNat_inj.mp hval
  refine ⟨s', ?_, hrs⟩
  unfold readFullPacket fullMinLen
  rw [bind_run_ok hrd, hlen, require_bind_pos (by omega), Nat.add_sub_cancel,
    lift_bind_ok hpl.checked, bind_run_ok hrd',
    bind_run_ok hcrc, require_bind_pos hsum.symm,
    lift_bind_ok hpl.accepted]
  rfl

theorem readPacket_written {codec reader : Codec} (hfmt : reader.protocolTag = codec.protocolTag)
    (hpl : Sendable maxPayloadBytes payload) :
    ∃ bytes codec', codec.writePacket p payload = .ok (bytes, codec') ∧
      codec'.protocolTag = codec.protocolTag ∧
      ∀ s rest, s.source.data = bytes ++ rest →
        ∃ s', reader.readPacket p false maxPayloadBytes s = (.ok payload, s') ∧
          s'.source.data = rest := by
  cases codec with
  | abridged =>
    obtain ⟨bytes, hby⟩ : ∃ bytes, writeAbridged payload = .ok bytes := by
      unfold writeAbridged
      rw [if_neg (not_not_intro hpl.aligned)]
      split <;> exact ⟨_, rfl⟩
    refine ⟨bytes, abridged, by rw [writePacket, hby]; rfl, rfl, fun s rest hda => ?_⟩
    cases reader with
    | abridged => exact readAbridged_written hpl hby hda
    | _ => cases hfmt
  | intermediate =>
    refine ⟨_, intermediate, rfl, rfl, fun s rest hda => ?_⟩
    cases reader with
    | intermediate => exact readIntermediate_written hpl hda
    | _ => cases hfmt
  | paddedIntermediate =>
    refine ⟨_, paddedIntermediate, rfl, rfl, fun s rest hda => ?_⟩
    cases reader with
    | paddedIntermediate => exact readPaddedIntermediate_written hpl hda
    | _ => cases hfmt
  | full next =>
    refine ⟨_, full (next + 1), rfl, rfl, fun s rest hda => ?_⟩
    cases reader with
    | full _ => exact readFullPacket_written hpl next hda
    | _ => cases hfmt

theorem readPackets_written {codec reader : Codec} {payloads : List (List UInt8)}
    (hfmt : reader.protocolTag = codec.protocolTag)
    (hpay : ∀ payload ∈ payloads, Sendable maxPayloadBytes payload) :
    ∃ bytes codec', writePackets p payloads codec = .ok (bytes, codec') ∧
      ∀ s rest, s.source.data = bytes ++ rest →
        ∃ s', reader.readPackets p false maxPayloadBytes payloads.length s = (.ok payloads, s') ∧
          s'.source.data = rest := by
  induction payloads generalizing codec with
  | nil => exact ⟨[], codec, rfl, fun s rest hda => ⟨s, rfl, hda⟩⟩
  | cons payload payloads ih =>
    obtain ⟨bytes, codec', hwrt, htag, hrd⟩ :=
      readPacket_written (p := p) hfmt (hpay payload mem_cons_self)
    obtain ⟨later, last, hwrs, hrds⟩ := ih (hfmt.trans htag.symm)
      (fun payload hmem => hpay payload (mem_cons_of_mem _ hmem))
    refine ⟨bytes ++ later, last, ?_, ?_⟩
    · rw [writePackets, hwrt]
      show (writePackets p payloads codec').bind _ = _
      rw [hwrs]
      rfl
    · intro s rest hda
      rw [append_assoc] at hda
      obtain ⟨mid, hfst, hmid⟩ := hrd s _ hda
      obtain ⟨s', hoth, hrs⟩ := hrds mid _ hmid
      refine ⟨s', ?_, hrs⟩
      rw [length_cons, readPackets, bind_run_ok hfst,
        bind_run_ok hoth]
      rfl

end Codec

/-- Every payload buffer made, also on failure, has a size of this kind. -/
def AllocatesOnly {α : Type} (sizes : Nat → Prop) (x : PacketM α) : Prop :=
  ∀ s, ∃ made, (x s).2.allocated = s.allocated ++ made ∧ ∀ size ∈ made, sizes size

namespace AllocatesOnly

variable {α β : Type} {sizes : Nat → Prop} {x : PacketM α} {f : α → PacketM β}

theorem of_none (h : ∀ s, (x s).2.allocated = s.allocated) : AllocatesOnly sizes x :=
  fun s => ⟨[], by rw [h s, append_nil], fun _ hmem => nomatch hmem⟩

theorem pure (a : α) : AllocatesOnly sizes (Pure.pure a) := of_none fun _ => rfl

theorem fail (err : PacketError) : AllocatesOnly sizes (StateExcept.fail err : PacketM α) :=
  of_none fun _ => rfl

theorem readFull (n : Nat) : AllocatesOnly sizes (PacketInput.readFull n) := of_none fun _ => rfl

theorem readPayload {n : Nat} (h : sizes n) : AllocatesOnly sizes (PacketInput.readPayload n) := by
  intro s
  refine ⟨[n], rfl, fun size hmem => ?_⟩
  rw [mem_singleton.mp hmem]
  exact h

theorem bind (hx : AllocatesOnly sizes x) (hf : ∀ a, AllocatesOnly sizes (f a)) :
    AllocatesOnly sizes (x >>= f) := by
  intro s
  obtain ⟨made, hmd, hsiz⟩ := hx s
  obtain ⟨⟨result, mid⟩, hrun⟩ : ∃ y, y = x s := ⟨_, rfl⟩
  rw [← hrun] at hmd
  cases result with
  | error err =>
    rw [bind_run_error hrun.symm]
    exact ⟨made, hmd, hsiz⟩
  | ok a =>
    obtain ⟨later, hlat, hsiz'⟩ := hf a mid
    rw [bind_run_ok hrun.symm]
    refine ⟨made ++ later, ?_, ?_⟩
    · rw [hlat, hmd, append_assoc]
    · intro size hmem
      rcases mem_append.mp hmem with hmem | hmem
      · exact hsiz size hmem
      · exact hsiz' size hmem

theorem lift_bind {r : Except PacketError α} (h : ∀ a, r = .ok a → AllocatesOnly sizes (f a)) :
    AllocatesOnly sizes (StateExcept.lift r >>= f) := by
  cases r with
  | error err => exact of_none fun _ => rfl
  | ok a => exact h a rfl

theorem require_bind {cond : Prop} [Decidable cond] {err : PacketError} {f : Unit → PacketM β}
    (h : AllocatesOnly sizes (f ())) : AllocatesOnly sizes (StateExcept.require cond err >>= f) := by
  by_cases hcd : cond
  · intro s
    rw [require_bind_pos hcd]
    exact h s
  intro s
  rw [require_bind_neg hcd]
  exact fail (α := β) err s

end AllocatesOnly

namespace Codec

def BufferSize (codec : Codec) (maxPayloadBytes : Int) (size : Nat) : Prop :=
  match codec with
  | paddedIntermediate => 0 < size - size % 4 ∧ size - size % 4 ≤ payloadLimit maxPayloadBytes
  | _ => 0 < size ∧ size ≤ payloadLimit maxPayloadBytes

theorem abridgedLength_allocates (lengthByte : UInt8) :
    AllocatesOnly sizes (abridgedLength lengthByte) := by
  unfold abridgedLength
  split
  · exact (AllocatesOnly.readFull 3).bind fun _ => AllocatesOnly.pure _
  · exact AllocatesOnly.pure _

theorem lengthOrQuickAck_allocates (allowQuickAckTokens : Bool)
    (length : UInt32) : AllocatesOnly sizes (lengthOrQuickAck allowQuickAckTokens length) := by
  unfold lengthOrQuickAck
  split
  · exact AllocatesOnly.fail _
  · exact AllocatesOnly.pure _

/-- A buffer is made only for a length that passed the check. -/
theorem readPacket_allocates (p : Primitives) (allowQuickAckTokens : Bool) (maxPayloadBytes : Int)
    (codec : Codec) :
    AllocatesOnly (codec.BufferSize maxPayloadBytes)
      (codec.readPacket p allowQuickAckTokens maxPayloadBytes) := by
  cases codec with
  | abridged =>
    refine (AllocatesOnly.readFull 1).bind fun first => ?_
    dsimp only
    split
    · exact (AllocatesOnly.readFull 3).bind fun _ => AllocatesOnly.fail _
    refine (abridgedLength_allocates _).bind fun length => AllocatesOnly.require_bind ?_
    refine AllocatesOnly.lift_bind fun n hn => ?_
    obtain ⟨rfl, hsz⟩ := checkedPayloadLength_ok hn
    refine (AllocatesOnly.readPayload hsz).bind fun _ => ?_
    exact AllocatesOnly.lift_bind fun _ _ => AllocatesOnly.pure _
  | intermediate =>
    refine (AllocatesOnly.readFull 4).bind fun header => ?_
    refine (lengthOrQuickAck_allocates _ _).bind fun length => ?_
    refine AllocatesOnly.lift_bind fun n hn => ?_
    obtain ⟨rfl, hsz⟩ := checkedPayloadLength_ok hn
    refine (AllocatesOnly.readPayload hsz).bind fun _ => ?_
    exact AllocatesOnly.lift_bind fun _ _ => AllocatesOnly.pure _
  | paddedIntermediate =>
    refine (AllocatesOnly.readFull 4).bind fun header => ?_
    refine (lengthOrQuickAck_allocates _ _).bind fun length => ?_
    refine AllocatesOnly.require_bind (AllocatesOnly.require_bind ?_)
    refine AllocatesOnly.lift_bind fun n hn => ?_
    obtain ⟨_, hsz⟩ := checkedPayloadLength_ok hn
    refine (AllocatesOnly.readPayload hsz).bind fun _ => ?_
    exact AllocatesOnly.lift_bind fun _ _ => AllocatesOnly.pure _
  | full next =>
    refine (AllocatesOnly.readFull 8).bind fun header => AllocatesOnly.require_bind ?_
    refine AllocatesOnly.lift_bind fun n hn => ?_
    obtain ⟨rfl, hsz⟩ := checkedPayloadLength_ok hn
    refine (AllocatesOnly.readPayload hsz).bind fun _ => ?_
    refine (AllocatesOnly.readFull 4).bind fun _ => AllocatesOnly.require_bind ?_
    exact AllocatesOnly.lift_bind fun _ _ => AllocatesOnly.pure _

theorem checked_payload_length
    {s s' : PacketInput}
    (h : (do
      let payloadLen ← StateExcept.lift (checkedPayloadLength declared maxPayloadBytes)
      let payload ← readPayload payloadLen
      StateExcept.lift (readTransportError payload)
      return payload : PacketM (List UInt8)) s = (.ok payload, s')) :
    0 < payload.length ∧ payload.length ≤ payloadLimit maxPayloadBytes := by
  obtain ⟨n, _, hn, h⟩ := bind_ok h
  obtain ⟨read, _, hrd, h⟩ := bind_ok h
  obtain ⟨_, _, _, h⟩ := bind_ok h
  cases h
  obtain ⟨rfl, hsz⟩ := checkedPayloadLength_ok (Prod.mk.inj hn).1
  rw [readPayload_length hrd]
  exact hsz

theorem readPacket_length {p : Primitives} {allowQuickAckTokens : Bool}
    {codec : Codec} {s s' : PacketInput}
    (h : codec.readPacket p allowQuickAckTokens maxPayloadBytes s = (.ok payload, s')) :
    0 < payload.length ∧ payload.length ≤ payloadLimit maxPayloadBytes := by
  cases codec with
  | abridged =>
    obtain ⟨first, mid, _, h⟩ := bind_ok h
    dsimp only at h
    split at h
    · obtain ⟨_, _, _, h⟩ := bind_ok h
      cases h
    obtain ⟨length, _, _, h⟩ := bind_ok h
    obtain ⟨_, _, _, h⟩ := bind_ok h
    exact checked_payload_length h
  | intermediate =>
    obtain ⟨header, _, _, h⟩ := bind_ok h
    obtain ⟨length, _, _, h⟩ := bind_ok h
    exact checked_payload_length h
  | paddedIntermediate =>
    obtain ⟨header, _, _, h⟩ := bind_ok h
    obtain ⟨length, _, _, h⟩ := bind_ok h
    obtain ⟨_, _, _, h⟩ := bind_ok h
    obtain ⟨_, _, _, h⟩ := bind_ok h
    obtain ⟨n, _, hn, h⟩ := bind_ok h
    obtain ⟨padded, _, hrd, h⟩ := bind_ok h
    obtain ⟨_, _, _, h⟩ := bind_ok h
    cases h
    obtain ⟨_, hsz⟩ := checkedPayloadLength_ok (Prod.mk.inj hn).1
    rw [length_take, readPayload_length hrd]
    omega
  | full next =>
    obtain ⟨header, _, _, h⟩ := bind_ok h
    obtain ⟨_, _, _, h⟩ := bind_ok h
    obtain ⟨n, _, hn, h⟩ := bind_ok h
    obtain ⟨read, _, hrd, h⟩ := bind_ok h
    obtain ⟨_, _, _, h⟩ := bind_ok h
    obtain ⟨_, _, _, h⟩ := bind_ok h
    obtain ⟨_, _, _, h⟩ := bind_ok h
    cases h
    obtain ⟨rfl, hsz⟩ := checkedPayloadLength_ok (Prod.mk.inj hn).1
    rw [readPayload_length hrd]
    exact hsz

end Codec

/-- Packets are read as they were written. What is accepted is within the limit, and so is a buffer,
but for up to three bytes of padding. -/
theorem packets_lossless (p : Primitives) (maxPayloadBytes : Int) :
    (∀ (codec reader : Codec) (payloads : List (List UInt8)),
      reader.protocolTag = codec.protocolTag →
      (∀ payload ∈ payloads, Sendable maxPayloadBytes payload) →
      ∃ bytes codec', codec.writePackets p payloads = .ok (bytes, codec') ∧
        ∀ s rest, s.source.data = bytes ++ rest →
          ∃ s', reader.readPackets p false maxPayloadBytes payloads.length s = (.ok payloads, s') ∧
            s'.source.data = rest) ∧
      ∀ (codec : Codec) (allowQuickAckTokens : Bool) (s : PacketInput),
        (∀ payload s',
          codec.readPacket p allowQuickAckTokens maxPayloadBytes s = (.ok payload, s') →
          0 < payload.length ∧ payload.length ≤ payloadLimit maxPayloadBytes) ∧
        ∃ made,
          (codec.readPacket p allowQuickAckTokens maxPayloadBytes s).2.allocated =
            s.allocated ++ made ∧
          ∀ size ∈ made, codec.BufferSize maxPayloadBytes size :=
  ⟨fun _ _ _ => Codec.readPackets_written, fun codec allowQuickAckTokens s =>
    ⟨fun _ _ => Codec.readPacket_length,
      Codec.readPacket_allocates p allowQuickAckTokens maxPayloadBytes codec s⟩⟩

def trivialPrimitives : Primitives := ⟨fun _ => .replicate 32 0, fun _ _ _ => 0, fun _ => 9⟩

def paddedPacket : PacketInput := ⟨{ data := [7, 0, 0, 0, 1, 2, 3, 4, 5, 6, 7] }, []⟩

/-- With a limit of four bytes a declared padded length of seven is accepted, and seven bytes are
allocated. -/
theorem padded_allocates_over_limit :
    (Codec.paddedIntermediate.readPacket trivialPrimitives false 4 paddedPacket).1 =
        .ok [1, 2, 3, 4] ∧
      (Codec.paddedIntermediate.readPacket trivialPrimitives false 4 paddedPacket).2.allocated =
        [7] ∧
      payloadLimit 4 < 7 := by
  decide

end Tlrpc
