import Tlrpc.Obfuscated

namespace Tlrpc

inductive Protocol
  | unknown
  | abridged
  | intermediate
  | paddedIntermediate
  | full
deriving DecidableEq

structure NegotiatorConfig where
  allowObfuscation : Bool
  requireObfuscation : Bool
  secret : List UInt8
  protocol : Protocol

inductive Channel
  | plain
  | obfuscated (streams : ObfuscatedStreams)

structure Negotiated where
  channel : Channel
  codec : Codec
  unread : List UInt8

def isPlausibleFullLength (length : UInt32) : Bool := 12 ≤ length && length ≤ 0x1000000

def codecFromTag (tag : UInt32) : Except TransportError Codec :=
  if tag = Codec.intermediate.protocolTag then .ok .intermediate
  else if tag = Codec.paddedIntermediate.protocolTag then .ok .paddedIntermediate
  else if tag = Codec.abridged.protocolTag then .ok .abridged
  else .error (.unknownTag tag)

def acceptObfuscated (p : Primitives) (config : NegotiatorConfig) (input : List UInt8) :
    Except TransportError Negotiated := do
  if input.length < 64 then throw .eof
  let streams ← newServerObfuscated p (input.take 64) config.secret
  let codec ← codecFromTag streams.tag
  return ⟨.obfuscated streams, codec, input.drop 64⟩

/-- The source has the same text twice. -/
def tryObfuscated (p : Primitives) (config : NegotiatorConfig) (input : List UInt8) :
    Except TransportError Negotiated :=
  acceptObfuscated p config input

def negotiate (p : Primitives) (config : NegotiatorConfig) (input : List UInt8) :
    Except TransportError Negotiated :=
  if config.requireObfuscation then acceptObfuscated p config input
  else if input.length < 4 then .error .eof
  else if input.head? = some 0xEF then .ok ⟨.plain, .abridged, input.drop 1⟩
  else if leUint32 input = Codec.intermediate.protocolTag then
    .ok ⟨.plain, .intermediate, input.drop 4⟩
  else if leUint32 input = Codec.paddedIntermediate.protocolTag then
    .ok ⟨.plain, .paddedIntermediate, input.drop 4⟩
  else if isPlausibleFullLength (leUint32 input) then .ok ⟨.plain, .full 0, input⟩
  else if config.allowObfuscation then tryObfuscated p config input
  else .error .invalidObfuscatedHeader

structure ClientNegotiated where
  written : List UInt8
  channel : Channel
  codec : Codec

def clientObfuscated (p : Primitives) (draws : List (Vector UInt8 64)) (config : NegotiatorConfig)
    (tag : UInt32) : Except TransportError ClientNegotiated := do
  let (header, streams) ← newClientObfuscated p draws tag config.secret
  let codec ← codecFromTag tag
  return ⟨header, .obfuscated streams, codec⟩

def clientNegotiate (p : Primitives) (draws : List (Vector UInt8 64)) (config : NegotiatorConfig) :
    Except TransportError ClientNegotiated :=
  if config.requireObfuscation || config.allowObfuscation then
    match config.protocol with
    | .abridged => clientObfuscated p draws config Codec.abridged.protocolTag
    | .intermediate => clientObfuscated p draws config Codec.intermediate.protocolTag
    | .paddedIntermediate => clientObfuscated p draws config Codec.paddedIntermediate.protocolTag
    | _ => .error .clientProtocol
  else
    match config.protocol with
    | .abridged => .ok ⟨[0xEF], .plain, .abridged⟩
    | .intermediate => .ok ⟨[0xEE, 0xEE, 0xEE, 0xEE], .plain, .intermediate⟩
    | .paddedIntermediate => .ok ⟨[0xDD, 0xDD, 0xDD, 0xDD], .plain, .paddedIntermediate⟩
    | .full => .ok ⟨[], .plain, .full 0⟩
    | .unknown => .error .clientProtocol

/-- A client opens with an obfuscated header, or with a plain one and its first packet. -/
inductive Opening
  | obfuscated (init : Vector UInt8 64) (codec : Codec)
  | plain (protocol : Protocol) (payload : List UInt8)

def Protocol.codec : Protocol → Option Codec
  | unknown => none
  | abridged => some .abridged
  | intermediate => some .intermediate
  | paddedIntermediate => some .paddedIntermediate
  | full => some (.full 0)

namespace Opening

/-- Draws that `NewClientObfuscated` accepts, and payloads that the codec can send. -/
def Valid : Opening → Prop
  | obfuscated init codec => isDisallowedHeader init.toList = false ∧
      codec ∈ [Codec.abridged, .intermediate, .paddedIntermediate]
  | plain protocol payload => protocol ≠ .unknown ∧ payload.length % 4 = 0 ∧
      (protocol = .full → payload.length + 12 ≤ 2 ^ 24)

def bytes (p : Primitives) (secret : List UInt8) : Opening → Except TransportError (List UInt8)
  | obfuscated init codec => (newClientObfuscated p [init] codec.protocolTag secret).map Prod.fst
  | plain protocol payload =>
    (clientNegotiate p [] ⟨false, false, secret, protocol⟩).bind fun client =>
      (client.codec.writePacket p payload).map fun packet => client.written ++ packet.1

def Recognised : Opening → Except TransportError Negotiated → Prop
  | obfuscated _ codec, .ok ⟨.obfuscated _, chosen, _⟩ => chosen = codec
  | plain protocol _, .ok ⟨.plain, chosen, _⟩ => some chosen = protocol.codec
  | _, _ => False

/-- No other opening has its first word, and it has four bytes. -/
def Distinct (more : List UInt8) : Opening → Prop
  | obfuscated init _ => isPlausibleFullLength (leUint32 init.toList) = false
  | plain .abridged payload => payload ≠ [] ∨ 2 ≤ more.length
  | plain _ _ => True

end Opening

variable {payload : List UInt8}

section

variable {p : Primitives} {config : NegotiatorConfig} {input : List UInt8}

section

variable {data : List UInt8} (hlen : 4 ≤ data.length) (more : List UInt8)
include hlen

theorem leUint32_append : leUint32 (data ++ more) = leUint32 data := by
  unfold leUint32
  rw [List.take_append_of_le_length hlen]

theorem head_append : (data ++ more).head? = data.head? := by
  cases data with
  | nil => simp at hlen
  | cons byte rest => rfl

end

theorem negotiate_word (hpln : config.requireObfuscation = false) (hlen : 4 ≤ input.length)
    (hhd : input.head? ≠ some 0xEF) (hi : leUint32 input ≠ Codec.intermediate.protocolTag)
    (hp : leUint32 input ≠ Codec.paddedIntermediate.protocolTag) :
    negotiate p config input = if isPlausibleFullLength (leUint32 input) then
      .ok ⟨.plain, .full 0, input⟩ else if config.allowObfuscation then tryObfuscated p config input
      else .error .invalidObfuscatedHeader := by
  unfold negotiate
  rw [hpln, if_neg (by decide), if_neg (by omega), if_neg hhd, if_neg hi, if_neg hp]

theorem accepted_word {init : List UInt8} (h : isDisallowedHeader init = false) :
    init.head? ≠ some 0xEF ∧ leUint32 init ≠ Codec.intermediate.protocolTag ∧
      leUint32 init ≠ Codec.paddedIntermediate.protocolTag := by
  unfold isDisallowedHeader at h
  split at h
  · cases h
  obtain ⟨hwds, _⟩ := Bool.or_eq_false_iff.mp h
  obtain ⟨hlis, hhd⟩ := Bool.or_eq_false_iff.mp hwds
  have hwr : leUint32 init ∉ disallowedPrefixes := by simpa using hlis
  refine ⟨by simpa using hhd, ?_, ?_⟩
  · intro heq
    exact hwr (heq ▸ by decide)
  · intro heq
    exact hwr (heq ▸ by decide)

theorem codecFromTag_protocolTag {codec : Codec}
    (h : codec ∈ [Codec.abridged, .intermediate, .paddedIntermediate]) :
    codecFromTag codec.protocolTag = .ok codec := by
  simp only [List.mem_cons, List.not_mem_nil, or_false] at h
  rcases h with rfl | rfl | rfl <;> rfl

variable {init : Vector UInt8 64}

theorem acceptObfuscated_client {codec : Codec} {more : List UInt8}
    (hacc : isDisallowedHeader init.toList = false)
    (hcod : codec ∈ [Codec.abridged, .intermediate, .paddedIntermediate]) :
    ∃ streams, acceptObfuscated p config
      (clientHeader p init.toList codec.protocolTag config.secret ++ more) =
        .ok ⟨.obfuscated streams, codec, more⟩ := by
  have hlen := @length_clientHeader p init codec.protocolTag config.secret
  have hsrv := @newServerObfuscated_client p init codec.protocolTag config.secret hacc
  unfold acceptObfuscated
  rw [if_neg (by rw [List.length_append]; omega), List.take_left' hlen, List.drop_left' hlen, hsrv]
  simp only [bind, Except.bind, pure, Except.pure, codecFromTag_protocolTag hcod]
  exact ⟨_, rfl⟩

theorem negotiate_clientHeader {tag : UInt32} {more : List UInt8}
    (hpln : config.requireObfuscation = false) (hacc : isDisallowedHeader init.toList = false) :
    negotiate p config (clientHeader p init.toList tag config.secret ++ more) =
      if isPlausibleFullLength (leUint32 init.toList) then
        .ok ⟨.plain, .full 0, clientHeader p init.toList tag config.secret ++ more⟩
      else if config.allowObfuscation then
        tryObfuscated p config (clientHeader p init.toList tag config.secret ++ more)
      else .error .invalidObfuscatedHeader := by
  have hlen := @length_clientHeader p init tag config.secret
  -- the header is encrypted from its byte 56 on
  have hfst := @take_clientHeader p init tag config.secret 4 (by decide)
  have hwr : leUint32 (clientHeader p init.toList tag config.secret ++ more) = leUint32 init.toList := by
    rw [leUint32_append (by omega), ← leUint32_take, hfst, leUint32_take]
  have hhd : (clientHeader p init.toList tag config.secret ++ more).head? = init.toList.head? := by
    have htk := congrArg List.head? hfst
    rw [List.head?_take, List.head?_take, if_neg (by decide), if_neg (by decide)] at htk
    rw [head_append (by omega), htk]
  obtain ⟨hef, hi, hp⟩ := accepted_word hacc
  rw [negotiate_word hpln (by rw [List.length_append]; omega) (hhd ▸ hef) (hwr ▸ hi) (hwr ▸ hp), hwr]

theorem negotiate_obfuscated {codec : Codec} {more : List UInt8}
    (hpln : config.requireObfuscation = false) (hall : config.allowObfuscation = true)
    (hacc : isDisallowedHeader init.toList = false)
    (hcod : codec ∈ [Codec.abridged, .intermediate, .paddedIntermediate]) :
    (Opening.obfuscated init codec).Recognised (negotiate p config
      (clientHeader p init.toList codec.protocolTag config.secret ++ more)) ↔
      isPlausibleFullLength (leUint32 init.toList) = false := by
  rw [negotiate_clientHeader hpln hacc, hall]
  cases hlen : isPlausibleFullLength (leUint32 init.toList) with
  | true => simp [Opening.Recognised]
  | false =>
    obtain ⟨streams, hstr⟩ := @acceptObfuscated_client p config init codec more hacc hcod
    simp [tryObfuscated, hstr, Opening.Recognised]

variable {packet : List UInt8}

section

variable (hpln : config.requireObfuscation = false)
include hpln

theorem negotiate_abridged :
    (Opening.plain .abridged payload).Recognised (negotiate p config (0xEF :: packet)) ↔
      3 ≤ packet.length := by
  unfold negotiate
  rw [hpln, if_neg (by decide), List.length_cons, List.head?_cons, if_pos rfl]
  split
  next hsh =>
    simp only [Opening.Recognised, false_iff]
    omega
  next hln =>
    simp only [Opening.Recognised, Protocol.codec, true_iff]
    omega

theorem negotiate_full {rest : List UInt8}
    (hali : payload.length % 4 = 0) (hlen : payload.length + 12 ≤ 2 ^ 24) :
    negotiate p config (leBytes 4 (payload.length + 12) ++ rest) =
      .ok ⟨.plain, .full 0, leBytes 4 (payload.length + 12) ++ rest⟩ := by
  have hwr : (leUint32 (leBytes 4 (payload.length + 12) ++ rest)).toNat = payload.length + 12 :=
    leUint32_leBytes (by omega) rest
  have hlow : (UInt8.ofNat (payload.length + 12)).toNat = (payload.length + 12) % 256 :=
    UInt8.toNat_ofNat'
  have hln : isPlausibleFullLength (leUint32 (leBytes 4 (payload.length + 12) ++ rest)) = true := by
    simp only [isPlausibleFullLength, Bool.and_eq_true, decide_eq_true_eq, UInt32.le_iff_toNat_le, hwr]
    have hmax : (0x1000000 : UInt32).toNat = 2 ^ 24 := rfl
    exact ⟨by simp, hmax ▸ hlen⟩
  rw [negotiate_word hpln, if_pos hln]
  · rw [List.length_append, length_leBytes]
    omega
  · -- an aligned length never has the low byte `0xEF`
    intro hef
    have hby := congrArg UInt8.toNat (Option.some.inj hef)
    rw [hlow] at hby
    have : (0xEF : UInt8).toNat = 239 := rfl
    omega
  · intro htag
    have := congrArg UInt32.toNat htag
    have hval : (Codec.intermediate.protocolTag).toNat = 0xEEEEEEEE := rfl
    omega
  · intro htag
    have := congrArg UInt32.toNat htag
    have hval : (Codec.paddedIntermediate.protocolTag).toNat = 0xDDDDDDDD := rfl
    omega

theorem negotiate_intermediate :
    negotiate p config ([0xEE, 0xEE, 0xEE, 0xEE] ++ packet) = .ok ⟨.plain, .intermediate, packet⟩ := by
  unfold negotiate
  rw [hpln, if_neg (by decide), if_neg (by simp), if_neg (by simp), leUint32_append (by decide),
    if_pos (by decide)]
  rfl

theorem negotiate_paddedIntermediate : negotiate p config ([0xDD, 0xDD, 0xDD, 0xDD] ++ packet) =
      .ok ⟨.plain, .paddedIntermediate, packet⟩ := by
  unfold negotiate
  rw [hpln, if_neg (by decide), if_neg (by simp), if_neg (by simp), leUint32_append (by decide),
    if_neg (by decide), if_pos (by decide)]
  rfl

end

end

theorem Codec.writeAbridged_aligned (hali : payload.length % 4 = 0) :
    ∃ packet, Codec.writeAbridged payload = .ok packet ∧ payload.length < packet.length ∧
      (payload = [] → packet.length = 1) := by
  unfold Codec.writeAbridged
  rw [if_neg (by omega)]
  split
  · exact ⟨_, rfl, by simp, by rintro rfl; rfl⟩
  rename_i hln
  refine ⟨_, rfl, ?_, ?_⟩
  · simp only [List.cons_append, List.length_cons, List.length_append, length_leBytes]
    omega
  · rintro rfl
    simp at hln

def mixedServer (secret : List UInt8) : NegotiatorConfig := ⟨true, false, secret, .unknown⟩

theorem plain_recognised_iff {p : Primitives} {secret : List UInt8} {protocol : Protocol}
    (hval : (Opening.plain protocol payload).Valid) (more : List UInt8) :
    ∃ bytes, (Opening.plain protocol payload).bytes p secret = .ok bytes ∧
      ((Opening.plain protocol payload).Recognised (negotiate p (mixedServer secret) (bytes ++ more)) ↔
        (Opening.plain protocol payload).Distinct more) := by
  obtain ⟨hkn, hali, hfl⟩ := hval
  cases protocol with
  | unknown => exact absurd rfl hkn
  | abridged =>
    obtain ⟨packet, hpac, hlen, hemp⟩ := Codec.writeAbridged_aligned hali
    have hby : (Opening.plain .abridged payload).bytes p secret = .ok (0xEF :: packet) := by
      simp [Opening.bytes, clientNegotiate, Codec.writePacket, Except.bind, Except.map, hpac]
    refine ⟨_, hby, ?_⟩
    rw [List.cons_append, negotiate_abridged rfl, List.length_append]
    simp only [Opening.Distinct]
    by_cases hpl : payload = []
    · have := hemp hpl
      simp only [hpl, ne_eq, not_true_eq_false, false_or]
      omega
    have := List.length_pos_iff.mpr hpl
    simp only [hpl, ne_eq, not_false_eq_true, true_or, iff_true]
    omega
  | intermediate =>
    refine ⟨_, rfl, ?_⟩
    rw [List.append_assoc, negotiate_intermediate rfl]
    simp [Opening.Recognised, Opening.Distinct, Protocol.codec]
  | paddedIntermediate =>
    refine ⟨_, rfl, ?_⟩
    rw [List.append_assoc, negotiate_paddedIntermediate rfl]
    simp [Opening.Recognised, Opening.Distinct, Protocol.codec]
  | full =>
    refine ⟨_, rfl, ?_⟩
    simp only [Codec.writeFullPacket, List.nil_append, List.append_assoc]
    rw [negotiate_full rfl hali (hfl rfl)]
    simp [Opening.Recognised, Opening.Distinct, Protocol.codec]

theorem opening_recognised_iff (p : Primitives) (secret : List UInt8) (opening : Opening)
    (hvalid : opening.Valid) (more : List UInt8) : ∃ bytes, opening.bytes p secret = .ok bytes ∧
      (opening.Recognised (negotiate p (mixedServer secret) (bytes ++ more)) ↔ opening.Distinct more) := by
  cases opening with
  | obfuscated init codec =>
    obtain ⟨hacc, hcod⟩ := hvalid
    refine ⟨clientHeader p init.toList codec.protocolTag secret, ?_, ?_⟩
    · dsimp only [Opening.bytes]
      rw [newClientObfuscated_accepted hacc]
      rfl
    · exact negotiate_obfuscated rfl rfl hacc hcod
  | plain protocol payload => exact plain_recognised_iff hvalid more

/-- A draw of ones opens an obfuscated connection, and a plain `Full` client with an empty payload
is taken for one. -/
theorem opening_recognised_repeated_byte : (Opening.obfuscated (Vector.replicate 64 1) .intermediate).Valid ∧
    (Opening.plain .full []).Valid ∧ ∀ p secret,
      (∃ bytes, (Opening.obfuscated (Vector.replicate 64 1) .intermediate).bytes p secret = .ok bytes ∧
        (Opening.obfuscated (Vector.replicate 64 1) .intermediate).Recognised
          (negotiate p (mixedServer secret) (bytes ++ []))) ∧
      ∃ bytes, (Opening.plain .full []).bytes p secret = .ok bytes ∧
        (Opening.plain .full []).Recognised (negotiate p (mixedServer secret) (bytes ++ [])) := by
  have hon : (Opening.obfuscated (Vector.replicate 64 1) .intermediate).Valid :=
    ⟨by decide, by decide⟩
  have hfl : (Opening.plain .full []).Valid := ⟨by decide, by decide, by decide⟩
  refine ⟨hon, hfl, ?_⟩
  intro p secret
  constructor
  · obtain ⟨bytes, hby, hiff⟩ := opening_recognised_iff p secret _ hon []
    have hdis : isPlausibleFullLength (leUint32 (Vector.replicate 64 1).toList) = false := by
      decide
    exact ⟨bytes, hby, hiff.mpr hdis⟩
  · obtain ⟨bytes, hby, hiff⟩ := opening_recognised_iff p secret _ hfl []
    exact ⟨bytes, hby, hiff.mpr trivial⟩

def lengthDraw : Vector UInt8 64 := (Vector.replicate 64 1).set 0 12 |>.set 1 0 |>.set 2 0 |>.set 3 0

theorem obfuscated_client_taken_for_full : isDisallowedHeader lengthDraw.toList = false ∧
    (∀ p secret, ∃ bytes, (Opening.obfuscated lengthDraw .abridged).bytes p secret = .ok bytes ∧
      negotiate p (mixedServer secret) bytes = .ok ⟨.plain, .full 0, bytes⟩) ∧
    (∀ p secret, (Opening.plain .abridged []).bytes p secret = .ok [0xEF, 0] ∧
      negotiate p (mixedServer secret) [0xEF, 0] = .error .eof) := by
  have hacc : isDisallowedHeader lengthDraw.toList = false := by decide
  have hlen : isPlausibleFullLength (leUint32 lengthDraw.toList) = true := by decide
  refine ⟨hacc, fun p secret => ?_, fun p secret => ⟨rfl, rfl⟩⟩
  refine ⟨clientHeader p lengthDraw.toList Codec.abridged.protocolTag secret, ?_, ?_⟩
  · dsimp only [Opening.bytes]
    rw [newClientObfuscated_accepted hacc]
    rfl
  · have hres := @negotiate_clientHeader p (mixedServer secret) lengthDraw
      Codec.abridged.protocolTag [] rfl hacc
    rw [hlen, if_pos rfl, List.append_nil] at hres
    exact hres

end Tlrpc
