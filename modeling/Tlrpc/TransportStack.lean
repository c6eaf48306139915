import Tlrpc.Negotiation
import Tlrpc.ObfuscatedLink
import Tlrpc.PacketStreams

namespace Tlrpc

variable {p : Primitives} {config : NegotiatorConfig} {init : Vector UInt8 64} {codec : Codec}

/-- A server so configured takes a header of this draw for an obfuscated one. -/
def NegotiatorConfig.Obfuscates (config : NegotiatorConfig) (init : Vector UInt8 64) : Prop :=
  config.requireObfuscation = true ∨
    config.allowObfuscation = true ∧ isPlausibleFullLength (leUint32 init.toList) = false

theorem negotiate_client (hmode : config.Obfuscates init)
    (hacc : isDisallowedHeader init.toList = false)
    (hcod : codec ∈ [Codec.abridged, .intermediate, .paddedIntermediate]) {server : ObfuscatedStreams}
    (hsrv : newServerObfuscated p (clientHeader p init.toList codec.protocolTag config.secret)
      config.secret = .ok server) (htag : server.tag = codec.protocolTag) :
    negotiate p config (clientHeader p init.toList codec.protocolTag config.secret) =
      .ok ⟨.obfuscated server, codec, []⟩ := by
  have hlen := @length_clientHeader p init codec.protocolTag config.secret
  have htry : acceptObfuscated p config (clientHeader p init.toList codec.protocolTag config.secret) =
      .ok ⟨.obfuscated server, codec, []⟩ := by
    unfold acceptObfuscated
    rw [if_neg (by omega), List.take_of_length_le hlen.le, List.drop_of_length_le hlen.le, hsrv]
    simp only [bind, Except.bind, pure, Except.pure, htag, codecFromTag_protocolTag hcod]
  cases hreq : config.requireObfuscation with
  | true => exact (if_pos hreq).trans htry
  | false =>
    rcases hmode with hmode | ⟨hall, hword⟩
    · cases hreq.symm.trans hmode
    · have hneg := @negotiate_clientHeader p config init codec.protocolTag [] hreq hacc
      rw [List.append_nil, hword, hall] at hneg
      exact hneg.trans htry

variable {maxPayloadBytes : Int} {payloads : List (List UInt8)}

/-- The packets stand in front of all that has been written, and what has come through holds them. -/
theorem readPackets_received {bytes written received more : List UInt8} {s : PacketInput}
    (hread : ∀ s rest, s.source.data = bytes ++ rest → ∃ s',
      codec.readPackets p false maxPayloadBytes payloads.length s = (.ok payloads, s') ∧
        s'.source.data = rest)
    (hpre : received <+: written) (hwr : written = bytes ++ more) (hle : bytes.length ≤ received.length)
    (hs : s.source.data = received) : ∃ s',
      codec.readPackets p false maxPayloadBytes payloads.length s = (.ok payloads, s') ∧
        s'.source.data = received.drop bytes.length := by
  obtain ⟨rest, hrest⟩ : bytes <+: received :=
    List.prefix_of_prefix_length_le (List.prefix_append bytes more) (hwr ▸ hpre) hle
  obtain ⟨s', hrds, hleft⟩ := hread s rest (hs.trans hrest.symm)
  refine ⟨s', hrds, hleft.trans ?_⟩
  rw [← hrest, List.drop_left]

end Tlrpc
