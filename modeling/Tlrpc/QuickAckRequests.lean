import Tlrpc.PacketStreams

namespace Tlrpc

open List

/-- The top bit of the first byte asks for a quick acknowledgement. -/
def requestQuickAck : List UInt8 → List UInt8
  | [] => []
  | first :: rest => (first ||| 0x80) :: rest

namespace Codec

def ReadsAlike (maxPayloadBytes : Int) (plain marked : PacketInput) : Prop :=
  (readAbridged false maxPayloadBytes plain).1 = (readAbridged false maxPayloadBytes marked).1 ∧
    (readAbridged false maxPayloadBytes plain).2.source.data =
      (readAbridged false maxPayloadBytes marked).2.source.data

/-- With the bit the extended header is taken for a short one, of 127 words. -/
theorem readAbridged_marked_long (maxPayloadBytes : Int) {ext : List UInt8} {s : PacketInput}
    (hda : s.source.data = 0xff :: ext) (hlen : 508 ≤ ext.length) :
    ∃ s', readAbridged false maxPayloadBytes s = (if 508 ≤ payloadLimit maxPayloadBytes
        then .ok (ext.take 508) else .error .payloadTooLarge, s') ∧
      s'.source.data = if 508 ≤ payloadLimit maxPayloadBytes then ext.drop 508 else ext := by
  have htk : (ext.take 508).length = 508 := by
    rw [length_take]
    omega
  have hspl : ext.take 508 ++ ext.drop 508 = ext := take_append_drop 508 ext
  have herr : readTransportError (ext.take 508) = .ok () := by
    unfold readTransportError
    rw [htk, if_pos (by decide)]
  have hhdr : ∀ mid : PacketInput, mid.source.data = ext → ∃ mid',
      abridgedLength 0xff mid = (.ok ((ext.take 508).length / 4), mid') ∧
        mid'.source.data = ext.take 508 ++ ext.drop 508 := by
    intro mid hmid
    rw [htk, hspl]
    exact ⟨mid, abridgedLength_low (by decide), hmid⟩
  have hrd := readAbridged_length maxPayloadBytes hda hhdr (by omega) (by omega) herr
  rw [htk, hspl] at hrd
  exact hrd

/-- The bit leaves a packet as it is exactly if the header has the short form. -/
theorem quick_ack_request_transparent_iff (maxPayloadBytes : Int) (payload rest : List UInt8)
    {bytes : List UInt8} {plain marked : PacketInput}
    (accepted : writeAbridged payload = .ok bytes) (nonempty : payload ≠ [])
    (bounded : payload.length ≤ 4 * 2 ^ 22)
    (noError : payload.length = 4 → 0 ≤ (leUint32 payload).toInt32.toInt)
    (hplain : plain.source.data = bytes ++ rest)
    (hmarked : marked.source.data = requestQuickAck bytes ++ rest) :
    (payload.length ≤ payloadLimit maxPayloadBytes →
        ∃ s, readAbridged false maxPayloadBytes plain = (.ok payload, s) ∧ s.source.data = rest) ∧
      (ReadsAlike maxPayloadBytes plain marked ↔ payload.length / 4 < 0x7f) := by
  have hpos := length_pos_iff.mpr nonempty
  have herr : readTransportError payload = .ok () := by
    unfold readTransportError
    split
    · rfl
    next hlen => exact if_pos (noError (by omega))
  obtain ⟨s, hrd, hrs⟩ := readAbridged_accepted maxPayloadBytes accepted hpos bounded herr hplain
  refine ⟨fun hle => ⟨s, by rw [hrd, if_pos hle], by rw [hrs, if_pos hle]⟩, ?_⟩
  unfold ReadsAlike
  rw [hrd, hrs]
  unfold writeAbridged at accepted
  split at accepted
  · cases accepted
  rename_i hali
  split at accepted
  next hsh =>
    cases accepted
    obtain ⟨s', hrd', hrs'⟩ := readAbridged_length maxPayloadBytes hmarked
      (fun mid hmid => ⟨mid, abridgedLength_low (abridged_short _ hsh).2, hmid⟩) hpos (by omega) herr
    rw [hrd', hrs']
    exact ⟨fun _ => hsh, fun _ => ⟨rfl, rfl⟩⟩
  next hln =>
    cases accepted
    obtain ⟨s', hrd', hrs'⟩ := readAbridged_marked_long maxPayloadBytes hmarked
      (by simp only [append_eq, length_append, length_leBytes]; omega)
    rw [hrd', hrs']
    refine ⟨fun ⟨_, hrest⟩ => ?_, fun h => absurd h hln⟩
    -- what is left has another length, whichever of the two packets is over the limit
    have hlen := congrArg List.length hrest
    split at hlen <;> split at hlen <;>
      simp only [append_eq, length_append, length_drop, length_leBytes] at hlen <;> omega

/-- Two words, with the top bit of their length set. -/
theorem quick_ack_request_transparent_iff_short :
    ReadsAlike 0 ⟨{ data := [2, 1, 2, 3, 4, 5, 6, 7, 8, 9] }, []⟩
      ⟨{ data := [0x82, 1, 2, 3, 4, 5, 6, 7, 8, 9] }, []⟩ :=
  (quick_ack_request_transparent_iff 0 [1, 2, 3, 4, 5, 6, 7, 8] [9] rfl (by decide) (by decide)
    (by decide) rfl rfl).2.mpr (by decide)

def longPacket : List UInt8 := 0x7f :: 0x7f :: 0 :: 0 :: .replicate 508 7

/-- 127 words: with the bit the reader takes the length for data and leaves three bytes behind. -/
theorem quick_ack_request_misframes : writeAbridged (.replicate 508 7) = .ok longPacket ∧
      (readAbridged false 0 ⟨{ data := longPacket }, []⟩).1 = .ok (.replicate 508 7) ∧
      (readAbridged false 0 ⟨{ data := requestQuickAck longPacket }, []⟩).1 =
        .ok (0x7f :: 0 :: 0 :: .replicate 505 7) ∧
      (readAbridged false 0 ⟨{ data := requestQuickAck longPacket }, []⟩).2.source.data = [7, 7, 7] := by
  decide +kernel

end Codec

end Tlrpc
