import Tlrpc.Obfuscated

namespace Tlrpc

/-- `obfuscatedStream`, apart from the reader and the writer it wraps. -/
structure ObfuscatedStream where
  e : CipherStream
  d : CipherStream

def newObfuscatedStream (streams : ObfuscatedStreams) : ObfuscatedStream :=
  ⟨streams.encrypt, streams.decrypt⟩

namespace ObfuscatedStream

def write (p : List UInt8) (s : ObfuscatedStream) : List UInt8 × ObfuscatedStream :=
  let buf := s.e.xorKeyStream p
  (buf.1, { s with e := buf.2 })

def read (p : List UInt8) (s : ObfuscatedStream) : List UInt8 × ObfuscatedStream :=
  if p.length > 0 then
    let plain := s.d.xorKeyStream p
    (plain.1, { s with d := plain.2 })
  else (p, s)

theorem read_eq (p : List UInt8) (s : ObfuscatedStream) :
    s.read p = ((s.d.xorKeyStream p).1, { s with d := (s.d.xorKeyStream p).2 }) := by
  unfold read
  split
  · rfl
  next hemp =>
    obtain rfl : p = [] := List.length_eq_zero_iff.mp (by omega)
    rfl

end ObfuscatedStream

/-- The two ends of a connection, the bytes under way, and what was written and read. -/
structure ObfuscatedLink where
  client : ObfuscatedStream
  server : ObfuscatedStream
  toServer : List UInt8
  toClient : List UInt8
  clientWritten : List UInt8
  serverRead : List UInt8
  serverWritten : List UInt8
  clientRead : List UInt8

/-- Buffers are of any size, and so are the chunks that the wire delivers. -/
inductive LinkOp
  | clientWrite (p : List UInt8)
  | serverWrite (p : List UInt8)
  | serverRead (size chunk : Nat)
  | clientRead (size chunk : Nat)

namespace ObfuscatedLink

def start (client server : ObfuscatedStreams) : ObfuscatedLink :=
  ⟨newObfuscatedStream client, newObfuscatedStream server, [], [], [], [], [], []⟩

def step (l : ObfuscatedLink) : LinkOp → ObfuscatedLink
  | .clientWrite p =>
    let result := l.client.write p
    { l with
      client := result.2
      toServer := l.toServer ++ result.1
      clientWritten := l.clientWritten ++ p }
  | .serverWrite p =>
    let result := l.server.write p
    { l with
      server := result.2
      toClient := l.toClient ++ result.1
      serverWritten := l.serverWritten ++ p }
  | .serverRead size chunk =>
    let result := l.server.read (l.toServer.take (min size chunk))
    { l with
      server := result.2
      toServer := l.toServer.drop (min size chunk)
      serverRead := l.serverRead ++ result.1 }
  | .clientRead size chunk =>
    let result := l.client.read (l.toClient.take (min size chunk))
    { l with
      client := result.2
      toClient := l.toClient.drop (min size chunk)
      clientRead := l.clientRead ++ result.1 }

def run (l : ObfuscatedLink) (ops : List LinkOp) : ObfuscatedLink := ops.foldl step l

structure InStep (l : ObfuscatedLink) : Prop where
  toServer : Tlrpc.InStep l.client.e l.server.d l.toServer l.clientWritten l.serverRead
  toClient : Tlrpc.InStep l.server.e l.client.d l.toClient l.serverWritten l.clientRead

theorem InStep.step {l : ObfuscatedLink} (h : l.InStep) (op : LinkOp) : (l.step op).InStep := by
  cases op with
  | clientWrite p => exact ⟨h.toServer.send p, h.toClient⟩
  | serverWrite p => exact ⟨h.toServer, h.toClient.send p⟩
  | serverRead size chunk =>
    unfold ObfuscatedLink.step
    dsimp only
    rw [ObfuscatedStream.read_eq]
    exact ⟨h.toServer.receive _, h.toClient⟩
  | clientRead size chunk =>
    unfold ObfuscatedLink.step
    dsimp only
    rw [ObfuscatedStream.read_eq]
    exact ⟨h.toServer, h.toClient.receive _⟩

theorem InStep.run {l : ObfuscatedLink} (h : l.InStep) (ops : List LinkOp) : (l.run ops).InStep := by
  induction ops generalizing l with
  | nil => exact h
  | cons op ops ih => exact ih (h.step op)

end ObfuscatedLink

theorem drawInit_accepted {rejected later : List (Vector UInt8 64)} {init : Vector UInt8 64}
    (hrej : ∀ draw ∈ rejected, isDisallowedHeader draw.toList = true)
    (hacc : isDisallowedHeader init.toList = false) :
    drawInit (rejected ++ init :: later) = .ok init.toList := by
  induction rejected with
  | nil =>
    rw [List.nil_append, drawInit, if_neg (by simp [hacc])]
  | cons draw rejected ih =>
    rw [List.cons_append, drawInit, if_pos (hrej draw List.mem_cons_self)]
    exact ih fun draw hmem => hrej draw (List.mem_cons_of_mem _ hmem)

/-- Client and server agree on the tag, and whatever each of them writes the other one reads, in
chunks and buffers of any size. -/
theorem obfuscated_streams_agree (p : Primitives) (tag : UInt32) (secret : List UInt8)
    {rejected later : List (Vector UInt8 64)} {init : Vector UInt8 64}
    (hrejected : ∀ draw ∈ rejected, isDisallowedHeader draw.toList = true)
    (haccepted : isDisallowedHeader init.toList = false) : ∃ header client server,
      newClientObfuscated p (rejected ++ init :: later) tag secret = .ok (header, client) ∧
      newServerObfuscated p header secret = .ok server ∧ server.tag = tag ∧ ∀ ops,
        let l := (ObfuscatedLink.start client server).run ops
        l.serverRead <+: l.clientWritten ∧ l.serverRead.length + l.toServer.length = l.clientWritten.length ∧
          l.clientRead <+: l.serverWritten ∧
          l.clientRead.length + l.toClient.length = l.serverWritten.length := by
  have hdr : drawInit [init] = .ok init.toList :=
    drawInit_accepted (List.forall_mem_nil _) haccepted
  have hcli : newClientObfuscated p (rejected ++ init :: later) tag secret =
      newClientObfuscated p [init] tag secret := by
    unfold newClientObfuscated
    rw [drawInit_accepted hrejected haccepted, hdr]
  refine ⟨_, _, _, hcli.trans (newClientObfuscated_accepted haccepted),
    newServerObfuscated_client haccepted, rfl, fun ops => ?_⟩
  -- the client has enciphered the header with its first cipher, and the server has deciphered it
  have hst : (ObfuscatedLink.start ⟨⟨(headerCipher p (putTag init.toList tag) secret).keystream, 64⟩,
        headerCipher p (putTag init.toList tag).reverse secret, tag⟩
      ⟨headerCipher p (putTag init.toList tag).reverse secret,
        ⟨(headerCipher p (putTag init.toList tag) secret).keystream, 64⟩, tag⟩).InStep :=
    ⟨InStep.start _, InStep.start _⟩
  obtain ⟨hsrv, hcli⟩ := hst.run ops
  exact ⟨hsrv.received_exactly.1, hsrv.received_exactly.2, hcli.received_exactly.1, hcli.received_exactly.2⟩

def countingPrimitives : Primitives :=
  ⟨fun data => .replicate 32 (UInt8.ofNat data.length),
    fun key iv n => UInt8.ofNat (key.length + iv.length + n), fun _ => 0⟩

/-- A draw of zeros is passed over, one of ones is taken. -/
theorem obfuscated_streams_agree_ones : isDisallowedHeader (Vector.replicate 64 1).toList = false ∧
      ∃ header client server,
        newClientObfuscated countingPrimitives [.replicate 64 0, .replicate 64 1] 0xEFEFEFEF [7] =
          .ok (header, client) ∧
        newServerObfuscated countingPrimitives header [7] = .ok server ∧ server.tag = 0xEFEFEFEF := by
  have hacc : isDisallowedHeader (Vector.replicate 64 1).toList = false := by decide
  have hrej : ∀ draw ∈ [Vector.replicate 64 (0 : UInt8)], isDisallowedHeader draw.toList = true := by
    intro draw hmem
    rw [List.mem_singleton.mp hmem]
    decide
  obtain ⟨header, client, server, hcli, hsrv, htag, _⟩ :=
    @obfuscated_streams_agree countingPrimitives 0xEFEFEFEF [7] _ [] _ hrej hacc
  exact ⟨hacc, header, client, server, hcli, hsrv, htag⟩

end Tlrpc
