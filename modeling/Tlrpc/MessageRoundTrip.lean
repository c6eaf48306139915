import Tlrpc.EncryptedMessage

namespace Tlrpc

namespace Mtproto

theorem require_ok {p : Prop} [Decidable p] (h : p) (err : MessageError) : require p err = .ok () :=
  if_pos h

theorem length_part {data : List UInt8} {start n : Nat} (h : start + n ≤ data.length) :
    (part data start n).length = n := by
  unfold part
  rw [List.length_take, List.length_drop]
  omega

theorem computeKDF_lengths (c : MessageCrypto) (authKey : List UInt8) (msgKey : Int128)
    (fromClient : Bool) : (computeKDF c authKey msgKey fromClient).1.length = 32 ∧
      (computeKDF c authKey msgKey fromClient).2.length = 32 := by
  have hpar : ∀ h h' : Vector UInt8 32,
      (part h.toList 0 8 ++ part h'.toList 8 16 ++ part h.toList 24 8).length = 32 := by
    intro h h'
    have hlen : h.toList.length = 32 := Vector.length_toList
    have hlen' : h'.toList.length = 32 := Vector.length_toList
    rw [List.length_append, List.length_append, length_part (by omega), length_part (by omega),
      length_part (by omega)]
  exact ⟨hpar _ _, hpar _ _⟩

theorem totalPadding_spec (currentLen : Nat) : 12 ≤ totalPadding currentLen ∧ totalPadding currentLen ≤ 27 ∧
      (currentLen + totalPadding currentLen) % 16 = 0 := by
  unfold totalPadding
  dsimp only
  by_cases hsh : (16 - currentLen % 16) % 16 < 12
  · rw [if_pos hsh, if_neg (by omega)]
    omega
  · rw [if_neg hsh, if_neg (by omega)]
    omega

namespace InnerData

theorem length_unpadded (m : InnerData) : m.unpadded.length = 32 + m.data.length := by
  unfold unpadded
  simp only [List.length_append, length_leBytes]
  omega

theorem serialize_eq (m : InnerData) (random : (n : Nat) → Vector UInt8 n) :
    m.serialize (fun n => some (random n)) =
      .ok (m.unpadded ++ (random (totalPadding m.unpadded.length)).toList) := by
  have hpad := totalPadding_spec m.unpadded.length
  exact if_pos (by omega)

theorem readInt32_length {n : Nat} (h : n < 2 ^ 31) (rest : List UInt8) :
    ∃ value : Int32, readInt32 (leBytes 4 n ++ rest) = some (value, rest) ∧ value.toInt = n := by
  have hlt : n < UInt32.size := Nat.lt_trans h (by decide)
  refine ⟨Int32.ofNat n, ?_, Int32.toInt_ofNat_of_lt h⟩
  have hrd := readInt32_leBytes (Int32.ofNat n) rest
  have hbt : (Int32.ofNat n).toUInt32.toNat = n := by
    rw [Int32.toUInt32_ofNat']
    exact UInt32.toNat_ofNat_of_lt' hlt
  rwa [hbt] at hrd

theorem parse_unpadded (m : InnerData) (hlen : m.data.length < 2 ^ 31) (padding : List UInt8) :
    parse (m.unpadded ++ padding) = .ok m := by
  obtain ⟨dataLen, hrd, hval⟩ := readInt32_length hlen (m.data ++ padding)
  unfold parse unpadded
  simp only [List.append_assoc, readInt64_leBytes, readInt32_leBytes, reading, except_ok_bind, hrd]
  rw [require_ok (by omega), hval, Int.toNat_natCast, readFull_append rfl]
  rfl

end InnerData

section

variable (c : MessageCrypto) (key : AuthKey) (fromClient : Bool)

theorem encryptWithDirection_eq (m : InnerData) (random : (n : Nat) → Vector UInt8 n)
    (authKeyID : KeyID) : ∃ plaintext, m.serialize (fun n => some (random n)) = .ok plaintext ∧
      plaintext.length % 16 = 0 ∧
      m.encryptWithDirection c (fun n => some (random n)) key authKeyID fromClient =
        .ok ⟨authKeyID, computeMsgKey c key.bytes plaintext fromClient, HandshakeCrypto.igeBlocks
            (igeEncrypt HandshakeCrypto.xorBlock (c.aes (computeKDF c key.bytes
              (computeMsgKey c key.bytes plaintext fromClient) fromClient).1))
            (computeKDF c key.bytes (computeMsgKey c key.bytes plaintext fromClient) fromClient).2
            plaintext⟩ := by
  have hpad := totalPadding_spec m.unpadded.length
  have hblk : (m.unpadded ++ (random (totalPadding m.unpadded.length)).toList).length % 16 = 0 := by
    rw [List.length_append, Vector.length_toList]
    omega
  refine ⟨_, m.serialize_eq random, hblk, ?_⟩
  unfold InnerData.encryptWithDirection cryptBlocks
  rw [m.serialize_eq random, except_ok_bind]
  generalize m.unpadded ++ (random (totalPadding m.unpadded.length)).toList = plaintext at hblk
  obtain ⟨hkey, hiv⟩ :=
    computeKDF_lengths c key.bytes (computeMsgKey c key.bytes plaintext fromClient) fromClient
  dsimp only
  rw [require_ok hkey, require_ok hiv, require_ok hblk]
  rfl

variable {message : EncryptedMessage} {keys : KeyID → Option AuthKey}

theorem decrypt_encrypt (m : InnerData) (random : (n : Nat) → Vector UInt8 n) (authKeyID : KeyID)
    (hlen : m.data.length < 2 ^ 31)
    (h : m.encryptWithDirection c (fun n => some (random n)) key authKeyID fromClient =
      .ok message) : message.decryptWithDirection c key fromClient = .ok m := by
  obtain ⟨plaintext, hpla, hblk, hmsg⟩ :=
    encryptWithDirection_eq c key fromClient m random authKeyID
  rw [hmsg] at h
  cases h
  have hprs : InnerData.parse plaintext = .ok m := by
    rw [m.serialize_eq random] at hpla
    cases hpla
    exact m.parse_unpadded hlen _
  have hnon : plaintext.length ≠ 0 := by
    rw [m.serialize_eq random] at hpla
    cases hpla
    rw [List.length_append, m.length_unpadded]
    omega
  obtain ⟨hkey, hiv⟩ :=
    computeKDF_lengths c key.bytes (computeMsgKey c key.bytes plaintext fromClient) fromClient
  have hsz := HandshakeCrypto.length_igeBlocks (c.aes (computeKDF c key.bytes
    (computeMsgKey c key.bytes plaintext fromClient) fromClient).1)
    (computeKDF c key.bytes (computeMsgKey c key.bytes plaintext fromClient) fromClient).2 hblk
  unfold EncryptedMessage.decryptWithDirection cryptBlocks
  dsimp only
  rw [require_ok ⟨by omega, by omega⟩, except_ok_bind, require_ok hkey, require_ok hiv,
    require_ok (by omega), HandshakeCrypto.igeBlocks_decrypt_encrypt _ _ hblk]
  simp only [except_ok_bind, pure, Except.pure]
  rw [require_ok trivial, except_ok_bind, hprs]

theorem frame_parts (message : EncryptedMessage) :
    UInt64.ofNat (leNat ((serializeEncryptedFrame message).take 8)) = message.authKeyID ∧
      firstBytes 16 (part (serializeEncryptedFrame message) 8 16) = message.msgKey ∧
      (serializeEncryptedFrame message).drop 24 = message.encryptedData ∧
      24 ≤ (serializeEncryptedFrame message).length := by
  have hid : (leBytes 8 message.authKeyID.toNat).length = 8 := length_leBytes 8 _
  have hkey : message.msgKey.toList.length = 16 := Vector.length_toList
  unfold serializeEncryptedFrame
  refine ⟨?_, ?_, ?_, ?_⟩
  · rw [List.take_left' hid, leNat_leBytes]
    have hlt : message.authKeyID.toNat < 256 ^ 8 := message.authKeyID.toNat_lt
    rw [Nat.mod_eq_of_lt hlt, UInt64.ofNat_toNat]
  · unfold part
    rw [List.drop_left' hid, List.take_left' hkey]
    refine Vector.ext fun i hi => ?_
    unfold firstBytes
    rw [Vector.getElem_ofFn, List.getD_eq_getElem _ _ (by omega)]
    exact Vector.getElem_toList _
  · rw [show 24 = 8 + 16 from rfl, ← List.drop_drop, List.drop_left' hid, List.drop_left' hkey]
  · rw [List.length_append, List.length_append]
    omega

theorem decodeFrame_zero {frame : List UInt8} {m : InnerData}
    {authKeyID : KeyID} (h : UInt64.ofNat (leNat (frame.take 8)) = 0) :
    decodeFrame c frame (some keys) ≠ .ok (.encrypted m authKeyID key) := by
  intro heq
  obtain ⟨_, _, heq⟩ := except_bind_ok heq
  rw [if_pos h] at heq
  obtain ⟨_, _, heq⟩ := except_bind_ok heq
  cases heq

theorem decodeFrame_encrypted (hz : message.authKeyID ≠ 0) (hks : keys message.authKeyID = some key) :
    decodeFrame c (serializeEncryptedFrame message) (some keys) = (do
      require (key.id c.sha1 = message.authKeyID) .authKeyMismatch
      let inner ← message.decryptWithDirection c key true
      return .encrypted inner message.authKeyID key) := by
  obtain ⟨hid, hkey, hda, hlen⟩ := frame_parts message
  unfold decodeFrame
  rw [require_ok (by omega), except_ok_bind]
  rw [hid, if_neg hz, require_ok hlen, except_ok_bind, hkey, hda]
  simp only [Option.elim_some, except_ok_bind, hks]

theorem decodeFrame_iff {m : InnerData} (hks : keys message.authKeyID = some key)
    (hdec : message.decryptWithDirection c key true = .ok m) :
    decodeFrame c (serializeEncryptedFrame message) (some keys) = .ok (.encrypted m message.authKeyID key) ↔
      message.authKeyID ≠ 0 ∧ key.id c.sha1 = message.authKeyID := by
  by_cases hz : message.authKeyID = 0
  · refine iff_of_false (decodeFrame_zero c key ((frame_parts message).1.trans hz)) ?_
    rintro ⟨hne, _⟩
    exact hne hz
  rw [decodeFrame_encrypted c key hz hks]
  by_cases hown : key.id c.sha1 = message.authKeyID
  · rw [require_ok hown, except_ok_bind, hdec]
    exact iff_of_true rfl ⟨hz, hown⟩
  refine iff_of_false ?_ ?_
  · intro heq
    obtain ⟨_, hreq, _⟩ := except_bind_ok heq
    unfold Mtproto.require at hreq
    rw [if_neg hown] at hreq
    cases hreq
  · rintro ⟨_, heq⟩
    exact hown heq

end

end Mtproto

def constantCrypto (last : UInt8) : MessageCrypto :=
  ⟨fun _ => List.replicate 19 0 ++ [last], fun data => .replicate 32 (UInt8.ofNat data.length),
    fun _ => Equiv.refl _⟩

theorem length_zeroAuthKey : (List.replicate 256 (0 : UInt8)).length = 256 :=
  List.length_replicate

def zeroAuthKey : AuthKey := ⟨List.replicate 256 0, length_zeroAuthKey⟩

def shortMessage : Mtproto.InnerData := ⟨1, -2, 3, 4, [5, 6, 7, 8]⟩

def countedPadding (n : Nat) : Vector UInt8 n := Vector.ofFn fun i => UInt8.ofNat i

end Tlrpc
