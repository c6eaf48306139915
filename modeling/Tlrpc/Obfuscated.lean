import Tlrpc.Codec
import Tlrpc.Keystream

namespace Tlrpc

def disallowedPrefixes : List UInt32 :=
  [0x44414548, 0x54534f50, 0x20544547, 0x4954504f, 0xEEEEEEEE, 0xDDDDDDDD, 0x02010316, 0x00000000]

def isDisallowedHeader (header : List UInt8) : Bool :=
  if header.length < 4 then true
  else disallowedPrefixes.contains (leUint32 header) || header.head? == some 0xef ||
    (header.length ≥ 8 && (header.drop 4).take 4 == [0, 0, 0, 0])

structure ObfuscatedStreams where
  encrypt : CipherStream
  decrypt : CipherStream
  tag : UInt32

def applySecret (p : Primitives) (key secret : List UInt8) : List UInt8 :=
  if secret.isEmpty then key else (p.sha256 (key ++ secret)).toList.take 32

def newCTR (p : Primitives) (key iv : List UInt8) : Except TransportError CipherStream :=
  if key.length = 16 ∨ key.length = 24 ∨ key.length = 32 then .ok ⟨p.keystream key iv, 0⟩
  else .error (.keySize key.length)

def slice (data : List UInt8) (start stop : Nat) : List UInt8 := (data.take stop).drop start

def drawInit : List (Vector UInt8 64) → Except TransportError (List UInt8)
  | [] => .error .random
  | init :: rest => if isDisallowedHeader init.toList then drawInit rest else .ok init.toList

def putTag (init : List UInt8) (tag : UInt32) : List UInt8 :=
  init.take 56 ++ leBytes 4 tag.toNat ++ init.drop 60

def newClientObfuscated (p : Primitives) (draws : List (Vector UInt8 64)) (tag : UInt32)
    (secret : List UInt8) : Except TransportError (List UInt8 × ObfuscatedStreams) := do
  let drawn ← drawInit draws
  let init := putTag drawn tag
  let encryptKey := applySecret p (slice init 8 40) secret
  let decryptKey := applySecret p (slice init.reverse 8 40) secret
  let encrypt ← newCTR p encryptKey (slice init 40 56)
  let decrypt ← newCTR p decryptKey (slice init.reverse 40 56)
  let encryptedInit := encrypt.xorKeyStream init
  let header := init.take 56 ++ slice encryptedInit.1 56 64
  return (header, ⟨encryptedInit.2, decrypt, tag⟩)

def newServerObfuscated (p : Primitives) (header secret : List UInt8) :
    Except TransportError ObfuscatedStreams := do
  if header.length ≠ 64 then throw .invalidObfuscatedHeader
  if isDisallowedHeader header then throw .invalidObfuscatedHeader
  let encryptKey := applySecret p (slice header.reverse 8 40) secret
  let decryptKey := applySecret p (slice header 8 40) secret
  let encrypt ← newCTR p encryptKey (slice header.reverse 40 56)
  let decrypt ← newCTR p decryptKey (slice header 40 56)
  let plain := decrypt.xorKeyStream header
  return ⟨encrypt, plain.2, leUint32 (slice plain.1 56 60)⟩

theorem slice_congr {a b : List UInt8} {n start stop : Nat} (h : a.take n = b.take n)
    (hst : stop ≤ n) : slice a start stop = slice b start stop := by
  have htk : a.take stop = b.take stop := by
    have ha : (a.take n).take stop = a.take stop := by rw [List.take_take, Nat.min_eq_left hst]
    have hb : (b.take n).take stop = b.take stop := by rw [List.take_take, Nat.min_eq_left hst]
    rw [← ha, ← hb, h]
  unfold slice
  rw [htk]

theorem slice_reverse {a : List UInt8} {start stop : Nat} (hlen : stop ≤ a.length) :
    slice a.reverse start stop = (slice a (a.length - stop) (a.length - start)).reverse := by
  unfold slice
  rw [List.take_reverse, List.drop_reverse, List.length_drop, List.drop_take]
  congr 2
  omega

theorem length_slice {a : List UInt8} {start stop : Nat} (hlen : stop ≤ a.length) :
    (slice a start stop).length = stop - start := by
  unfold slice
  rw [List.length_drop, List.length_take, Nat.min_eq_left hlen]

theorem length_applySecret {p : Primitives} {key secret : List UInt8} (hkey : key.length = 32) :
    (applySecret p key secret).length = 32 := by
  unfold applySecret
  split
  · exact hkey
  · simp

theorem newCTR_ok {p : Primitives} {key iv : List UInt8} (hkey : key.length = 32) :
    newCTR p key iv = .ok ⟨p.keystream key iv, 0⟩ :=
  if_pos (Or.inr (Or.inr hkey))

theorem isDisallowedHeader_congr {a b : List UInt8} (ha : a.length = 64) (hb : b.length = 64)
    (h : a.take 8 = b.take 8) : isDisallowedHeader a = isDisallowedHeader b := by
  have hwr : leUint32 a = leUint32 b := by
    have htk := @slice_congr a b 8 0 4 h (by decide)
    unfold leUint32
    rw [show a.take 4 = b.take 4 from htk]
  have hhd : a.head? = b.head? := by
    have htk := congrArg List.head? h
    rwa [List.head?_take, List.head?_take, if_neg (by decide), if_neg (by decide)] at htk
  have hz : (a.drop 4).take 4 = (b.drop 4).take 4 := by
    have hsli := @slice_congr a b 8 4 8 h (by decide)
    unfold slice at hsli
    rwa [List.drop_take, List.drop_take] at hsli
  unfold isDisallowedHeader
  rw [ha, hb, hwr, hhd, hz]

section

variable {p : Primitives} {init : Vector UInt8 64} {tag : UInt32} {secret : List UInt8}

theorem length_putTag : (putTag init.toList tag).length = 64 := by
  simp [putTag, length_leBytes]

theorem take_putTag {n : Nat} (hn : n ≤ 56) : (putTag init.toList tag).take n = init.toList.take n := by
  unfold putTag
  rw [List.append_assoc, List.take_append_of_le_length (by simp; omega), List.take_take, Nat.min_eq_left hn]

theorem drop_putTag : (putTag init.toList tag).drop 56 = leBytes 4 tag.toNat ++ init.toList.drop 60 := by
  unfold putTag
  rw [List.append_assoc, List.drop_left' (by simp)]

def headerCipher (p : Primitives) (data secret : List UInt8) : CipherStream :=
  ⟨p.keystream (applySecret p (slice data 8 40) secret) (slice data 40 56), 0⟩

theorem newCTR_header {data : List UInt8} (hlen : data.length = 64) :
    newCTR p (applySecret p (slice data 8 40) secret) (slice data 40 56) =
      .ok (headerCipher p data secret) :=
  newCTR_ok (length_applySecret (length_slice (by omega)))

theorem headerCipher_congr {a b : List UInt8} (h : a.take 56 = b.take 56) :
    headerCipher p a secret = headerCipher p b secret := by
  unfold headerCipher
  rw [slice_congr h (by decide : 40 ≤ 56), slice_congr h (by decide : 56 ≤ 56)]

theorem headerCipher_reverse_congr {a b : List UInt8} (ha : a.length = 64) (hb : b.length = 64)
    (h : a.take 56 = b.take 56) : headerCipher p a.reverse secret = headerCipher p b.reverse secret := by
  unfold headerCipher
  rw [slice_reverse (by omega), slice_reverse (by omega), slice_reverse (by omega),
    slice_reverse (by omega), ha, hb, slice_congr h (by decide : 64 - 8 ≤ 56),
    slice_congr h (by decide : 64 - 40 ≤ 56)]

def clientHeader (p : Primitives) (init : List UInt8) (tag : UInt32) (secret : List UInt8) :
    List UInt8 :=
  (putTag init tag).take 56 ++
    slice (xorBytes (headerCipher p (putTag init tag) secret).keystream 0 (putTag init tag)) 56 64

theorem length_clientHeader : (clientHeader p init.toList tag secret).length = 64 := by
  unfold clientHeader
  rw [List.length_append, List.length_take, length_putTag,
    length_slice (by rw [length_xorBytes, length_putTag])]
  rfl

theorem take_clientHeader {n : Nat} (hn : n ≤ 56) :
    (clientHeader p init.toList tag secret).take n = init.toList.take n := by
  unfold clientHeader
  rw [List.take_append_of_le_length (by rw [List.length_take, length_putTag]; omega), List.take_take,
    Nat.min_eq_left hn, take_putTag hn]

theorem drop_clientHeader : (clientHeader p init.toList tag secret).drop 56 =
    xorBytes (headerCipher p (putTag init.toList tag) secret).keystream 56
      ((putTag init.toList tag).drop 56) := by
  unfold clientHeader
  rw [List.drop_left' (by simp [length_putTag])]
  unfold slice
  rw [List.take_of_length_le (by rw [length_xorBytes, length_putTag]), drop_xorBytes]

theorem newClientObfuscated_accepted (hacc : isDisallowedHeader init.toList = false) :
    newClientObfuscated p [init] tag secret = .ok (clientHeader p init.toList tag secret,
      ⟨⟨(headerCipher p (putTag init.toList tag) secret).keystream, 64⟩,
        headerCipher p (putTag init.toList tag).reverse secret, tag⟩) := by
  have hdr : drawInit [init] = .ok init.toList := by
    unfold drawInit
    rw [if_neg (by simp [hacc])]
  have hlen : (putTag init.toList tag).reverse.length = 64 := by
    rw [List.length_reverse, length_putTag]
  unfold newClientObfuscated
  simp only [hdr, bind, Except.bind, pure, Except.pure, newCTR_header length_putTag,
    newCTR_header hlen, CipherStream.xorKeyStream]
  rw [length_putTag]
  rfl

/-- The server recovers the tag from the header, and its two streams are the client's. -/
theorem newServerObfuscated_client (hacc : isDisallowedHeader init.toList = false) :
    newServerObfuscated p (clientHeader p init.toList tag secret) secret =
      .ok ⟨headerCipher p (putTag init.toList tag).reverse secret,
        ⟨(headerCipher p (putTag init.toList tag) secret).keystream, 64⟩, tag⟩ := by
  have hlen := @length_clientHeader p init tag secret
  have hall : isDisallowedHeader (clientHeader p init.toList tag secret) = false := by
    rw [isDisallowedHeader_congr hlen (by simp) (take_clientHeader (by decide))]
    exact hacc
  have hfst : (clientHeader p init.toList tag secret).take 56 = (putTag init.toList tag).take 56 := by
    rw [take_clientHeader (Nat.le_refl 56), take_putTag (Nat.le_refl 56)]
  have hrev : (clientHeader p init.toList tag secret).reverse.length = 64 := by
    rw [List.length_reverse, hlen]
  have htag : leUint32 (slice (xorBytes (headerCipher p (putTag init.toList tag) secret).keystream 0
      (clientHeader p init.toList tag secret)) 56 60) = tag := by
    have hby : slice (xorBytes (headerCipher p (putTag init.toList tag) secret).keystream 0
        (clientHeader p init.toList tag secret)) 56 60 =
          (leBytes 4 tag.toNat ++ init.toList.drop 60).take 4 := by
      unfold slice
      rw [List.drop_take, drop_xorBytes, drop_clientHeader, xorBytes_xorBytes, drop_putTag]
    rw [hby, leUint32_take]
    exact UInt32.toNat_inj.mp (leUint32_leBytes tag.toNat_lt _)
  unfold newServerObfuscated
  simp only [hlen, hall, bind, Except.bind, pure, Except.pure, newCTR_header hlen,
    newCTR_header hrev, CipherStream.xorKeyStream]
  rw [headerCipher_congr hfst, headerCipher_reverse_congr hlen length_putTag hfst]
  rw [if_neg (by decide), if_neg (by decide)]
  have hoff : (headerCipher p (putTag init.toList tag) secret).offset = 0 := rfl
  rw [hoff, htag]

end

end Tlrpc
