import Tlrpc.HandshakeClient

namespace Tlrpc

open Option HandshakeClient HandshakeSession InnerDataForm

section

theorem firstBytes_toList {k : Nat} (v : Vector UInt8 k) : firstBytes k v.toList = v := by
  unfold firstBytes
  refine Vector.ext fun i hi => ?_
  rw [Vector.getElem_ofFn, List.getD_eq_getElem _ _ (by rw [Vector.length_toList]; exact hi)]
  exact Vector.getElem_toList _

theorem readInt128_append (v : Int128) (rest : List UInt8) :
    readInt128 (v.toList ++ rest) = some (v, rest) := by
  unfold readInt128
  rw [readFull_append Vector.length_toList]
  show some (firstBytes 16 v.toList, rest) = _
  rw [firstBytes_toList]

theorem readInt256_append (v : Int256) (rest : List UInt8) :
    readInt256 (v.toList ++ rest) = some (v, rest) := by
  unfold readInt256
  rw [readFull_append Vector.length_toList]
  show some (firstBytes 32 v.toList, rest) = _
  rw [firstBytes_toList]

theorem readUint32_append (x : UInt32) (rest : List UInt8) :
    readUint32 (uint32Bytes x ++ rest) = some (x, rest) := readUint32_leBytes x rest

theorem leUint32_uint32Bytes (x : UInt32) (rest : List UInt8) : leUint32 (uint32Bytes x ++ rest) = x :=
  UInt32.toNat_inj.mp (leUint32_leBytes x.toNat_lt rest)

theorem drop_uint32Bytes (x : UInt32) (rest : List UInt8) : (uint32Bytes x ++ rest).drop 4 = rest :=
  List.drop_left' (length_leBytes 4 _)

theorem length_uint32Bytes (x : UInt32) : (uint32Bytes x).length = 4 := length_leBytes 4 _

section

variable {data : List UInt8} (c : HandshakeCrypto) (key iv : List UInt8) (h : data.length % 16 = 0)
include h

theorem length_aesIGE : (c.aesIGE key iv data).length = data.length :=
  HandshakeCrypto.length_igeBlocks (c.aes key) iv h

theorem aesIGEDecrypt_aesIGE : c.aesIGEDecrypt key iv (c.aesIGE key iv data) = data :=
  HandshakeCrypto.igeBlocks_decrypt_encrypt (c.aes key) iv h

end

theorem dhPrime_lt : dhPrime < 256 ^ 256 := by decide +kernel

theorem length_beBytes_mod (n : Nat) : (beBytes (n % dhPrime)).length ≤ 256 := by
  rw [length_beBytes]
  refine byteLength_le (lt_of_lt_of_le (Nat.mod_lt n (by decide +kernel)) (le_of_lt dhPrime_lt))

theorem shared_secret (a b : Nat) :
    (dhGenerator ^ b % dhPrime) ^ a % dhPrime = dhGenerator ^ (a * b) % dhPrime := by
  rw [← Nat.pow_mod, ← pow_mul, Nat.mul_comm]

theorem leNat_xor {a b : List UInt8} (h : a.length = b.length) :
    leNat (List.zipWith (· ^^^ ·) a b) = leNat a ^^^ leNat b := by
  induction a generalizing b with
  | nil =>
    rw [List.length_eq_zero_iff.mp h.symm]
    rfl
  | cons x xs ih =>
    cases b with
    | nil => cases h
    | cons y ys =>
      have hx := x.toNat_lt
      have hy := y.toNat_lt
      have hlow : (x.toNat + 256 * leNat xs ^^^ (y.toNat + 256 * leNat ys)) % 2 ^ 8 =
          x.toNat ^^^ y.toNat := by
        rw [Nat.xor_mod_two_pow]
        congr 1 <;> omega
      have hhg : (x.toNat + 256 * leNat xs ^^^ (y.toNat + 256 * leNat ys)) / 2 ^ 8 =
          leNat xs ^^^ leNat ys := by
        rw [Nat.xor_div_two_pow]
        congr 1 <;> omega
      have hspl := Nat.mod_add_div (x.toNat + 256 * leNat xs ^^^ (y.toNat + 256 * leNat ys)) (2 ^ 8)
      rw [hlow, hhg] at hspl
      rw [List.zipWith_cons_cons, leNat, leNat, leNat, ih (Nat.succ.inj h), UInt8.toNat_xor]
      exact hspl

theorem salt_eq (client : HandshakeClient) (serverNonce : Int128) :
    computeServerSalt client.newNonce serverNonce = client.salt serverNonce := by
  unfold computeServerSalt salt
  rw [leNat_xor (by simp), UInt64.ofNat_xor]

end

variable {α : Type}

theorem reading_some (a : α) : reading (some a) = .ok a := rfl

theorem orError_some (err : HandshakeError) (a : α) : orError err (some a) = .ok a := rfl

theorem require_pos {p : Prop} [Decidable p] {err : HandshakeError} (h : p) : require p err = .ok () :=
  if_pos h

theorem mapM_orError (err : HandshakeError) {keys : List (Option α)}
    (h : ∀ key ∈ keys, key.isSome) : ∃ ids, keys.mapM (orError err) = .ok ids := by
  induction keys with
  | nil => exact ⟨[], rfl⟩
  | cons key rest ih =>
    obtain ⟨id, rfl⟩ := isSome_iff_exists.mp (h key List.mem_cons_self)
    obtain ⟨ids, hids⟩ := ih fun key hkey => h key (List.mem_cons_of_mem _ hkey)
    refine ⟨id :: ids, ?_⟩
    rw [List.mapM_cons, hids]
    rfl

namespace HandshakeClient

variable {c : HandshakeCrypto} {client : HandshakeClient} {world : HandshakeWorld} {s : HandshakeSession}
  {serverNonce : Int128}

structure Factors (c : HandshakeCrypto) (client : HandshakeClient) : Prop where
  product : client.p * client.q = beNat advertisedPQ
  two_le_p : 2 ≤ client.p
  two_le_q : 2 ≤ client.q
  prime_p : c.probablyPrime client.p = true
  prime_q : c.probablyPrime client.q = true

theorem handleReqPQ_client (client : HandshakeClient) (s : HandshakeSession) {keys : List (Option Int64)}
    (hno : world.serverNonce = some serverNonce)
    (hks : world.serverKeys = some keys) (hne : keys ≠ []) (hall : ∀ key ∈ keys, key.isSome) :
    ∃ rest, HandshakeSession.handleReqPQ world s client.reqPQ =
      .ok (uint32Bytes resPQID ++ (client.nonce.toList ++ (serverNonce.toList ++
          (tlBytes advertisedPQ ++ rest))),
        { s with nonce := client.nonce, serverNonce := serverNonce, stage := .pqIssued }) := by
  obtain ⟨ids, hids⟩ := mapM_orError .invalidConfig hall
  have hrd := readInt128_append client.nonce []
  rw [List.append_nil] at hrd
  refine ⟨writeVectorHeader keys.length ++ ids.flatMap fun id => leBytes 8 id.toUInt64.toNat, ?_⟩
  unfold handleReqPQ reqPQ
  rw [drop_uint32Bytes, hrd]
  simp [reading_some, hno, hks, hids, orError_some, except_ok_bind, require_pos, hne,
    writeBytes_eq_some (show advertisedPQ.length ≤ maxTLBytesLength by decide), pure, Except.pure]

theorem readResPQ_response (h : client.Factors c) (rest : List UInt8) :
    client.readResPQ (uint32Bytes resPQID ++ (client.nonce.toList ++ (serverNonce.toList ++
      (tlBytes advertisedPQ ++ rest)))) = some (.pqIssued serverNonce) := by
  have hpq : advertisedPQ.length ≤ maxTLBytesLength := by decide
  simp [readResPQ, readUint32_append, readInt128_append, readBytes_tlBytes hpq, h.product]

theorem Factors.length_le (h : client.Factors c) :
    (beBytes client.p).length ≤ 8 ∧ (beBytes client.q).length ≤ 8 := by
  have hpro := h.product
  have hp := h.two_le_p
  have hq := h.two_le_q
  have hpq : beNat advertisedPQ < 256 ^ 8 := by decide
  have hple : client.p ≤ client.p * client.q := Nat.le_mul_of_pos_right _ (by omega)
  have hqle : client.q ≤ client.p * client.q := Nat.le_mul_of_pos_left _ (by omega)
  rw [length_beBytes, length_beBytes]
  exact ⟨byteLength_le (by omega), byteLength_le (by omega)⟩

theorem Factors.validate (h : client.Factors c) :
    c.validatePQFactors (beBytes client.p) (beBytes client.q) advertisedPQ = .ok () := by
  have hp := h.two_le_p
  have hq := h.two_le_q
  unfold HandshakeCrypto.validatePQFactors
  rw [beNat_beBytes, beNat_beBytes, h.prime_p, h.prime_q, h.product, if_neg, if_neg (by simp)]
  rintro (hlt | hlt | hfal | hfal)
  · omega
  · omega
  · cases hfal
  · cases hfal

def toInnerData (client : HandshakeClient) (serverNonce : Int128) : PQInnerData :=
  ⟨client.form.expiresIn, advertisedPQ, beBytes client.p, beBytes client.q, client.nonce, serverNonce,
    client.newNonce⟩

theorem readPQInnerData_client (hleg : client.form.Legal) (hp : (beBytes client.p).length ≤ 8)
    (hq : (beBytes client.q).length ≤ 8) (serverNonce : Int128) (padding : List UInt8) :
    readPQInnerData client.form.constructor (tlBytes advertisedPQ ++ (tlBytes (beBytes client.p) ++
      (tlBytes (beBytes client.q) ++ (client.nonce.toList ++ (serverNonce.toList ++
        (client.newNonce.toList ++ (client.form.encode ++ padding))))))) =
      some (client.toInnerData serverNonce, padding) := by
  have hmax : 8 ≤ maxTLBytesLength := by decide
  have hpq : advertisedPQ.length ≤ maxTLBytesLength := by decide
  have hdc : pqInnerDataTempDCID ≠ pqInnerDataDCID := by decide
  have hpln : pqInnerDataID ≠ pqInnerDataDCID ∧ pqInnerDataID ≠ pqInnerDataTempDCID := by decide
  unfold readPQInnerData toInnerData
  simp only [readBytes_tlBytes hpq, readBytes_tlBytes (hp.trans hmax), readBytes_tlBytes (hq.trans hmax),
    readInt128_append, readInt256_append, bind_eq_bind, bind_some]
  cases hfr : client.form with
  | plain =>
    simp [constructor, encode, expiresIn, hpln]
  | dc number =>
    simp [InnerDataForm.constructor, InnerDataForm.encode, InnerDataForm.expiresIn, readInt32_leBytes]
  | tempDC number expiresIn =>
    rw [hfr] at hleg
    obtain ⟨hpos, hlif⟩ := hleg
    have hok : ¬ (expiresIn.toInt ≤ 0 ∨ expiresIn.toInt * second > maxTemporaryAuthKeyLifetime) := by
      omega
    simp [InnerDataForm.constructor, InnerDataForm.encode, InnerDataForm.expiresIn, readInt32_leBytes,
      hdc, hok]

theorem parsePQInnerData_client (hfac : client.Factors c) (hleg : client.form.Legal)
    (padding : List UInt8) : parsePQInnerData c (client.innerData serverNonce ++ padding) =
      some (client.toInnerData serverNonce) := by
  obtain ⟨hp, hq⟩ := hfac.length_le
  have hrd := readPQInnerData_client hleg hp hq serverNonce padding
  have hcon : ¬ (client.form.constructor ≠ pqInnerDataID ∧
      client.form.constructor ≠ pqInnerDataDCID ∧ client.form.constructor ≠ pqInnerDataTempDCID) := by
    cases client.form <;> simp [constructor]
  have hat : parsePQInnerDataAt c (client.innerData serverNonce ++ padding) 0 =
      some (client.toInnerData serverNonce) := by
    unfold parsePQInnerDataAt innerData
    simp only [List.drop_zero, List.append_assoc, readUint32_append, bind_eq_bind,
      bind_some, if_neg hcon, hrd]
    rfl
  rw [parsePQInnerData, hat]
  rfl

def Issued (client : HandshakeClient) (serverNonce : Int128) (s : HandshakeSession) : Prop :=
  s.nonce = client.nonce ∧ s.serverNonce = serverNonce

variable {padding : List UInt8} {b : Nat} {retryID : Int64}

variable {data encrypted : List UInt8} {output : HandshakeOutput} {stored : Option StoredKey}

theorem acceptInnerData_client (hfac : client.Factors c) (hleg : client.form.Legal)
    (hiss : client.Issued serverNonce s) {key : ServerKeyRef} (hlen : encrypted.length ≤ maxTLBytesLength)
    (hkey : world.serverKey (leBytes 8 client.fingerprint.toUInt64.toNat) = some (some key))
    (hdec : c.decryptRSA key encrypted = some (client.innerData serverNonce ++ padding))
    (htem : client.form.expiresIn ≠ 0 → world.supportsTemporary = true) :
    s.acceptInnerData c world (client.reqDHParams serverNonce encrypted) =
      .ok (client.toInnerData serverNonce) := by
  obtain ⟨hp, hq⟩ := hfac.length_le
  obtain ⟨hno, hsrv⟩ := hiss
  have hmax : 8 ≤ maxTLBytesLength := by decide
  have henc := readBytes_tlBytes hlen []
  rw [List.append_nil] at henc
  unfold acceptInnerData reqDHParams
  simp only [drop_uint32Bytes, readInt128_append, readBytes_tlBytes (hp.trans hmax),
    readBytes_tlBytes (hq.trans hmax), readInt64_leBytes, henc, reading_some, except_ok_bind,
    hfac.validate, hkey, orError_some, hdec, parsePQInnerData_client hfac hleg, toInnerData,
    equalBigEndian, hno, hsrv]
  rw [require_pos trivial, except_ok_bind, require_pos ⟨trivial, trivial⟩, except_ok_bind,
    require_pos ⟨trivial, trivial, trivial, trivial, trivial⟩, except_ok_bind, require_pos htem]
  rfl

def serverInner (world : HandshakeWorld) (client : HandshakeClient) (serverNonce : Int128) (ga : Nat) :
    List UInt8 :=
  uint32Bytes serverDHInnerDataID ++ (client.nonce.toList ++ (serverNonce.toList ++
    (uint32Bytes handshakeGenerator ++ (tlBytes (beBytes dhPrime) ++ (tlBytes (beBytes ga) ++
      leBytes 4 (world.serverTime / second % 2 ^ 32).toNat)))))

theorem length_beBytes_dhPrime : (beBytes dhPrime).length ≤ 256 := by
  rw [length_beBytes]
  exact byteLength_le dhPrime_lt

theorem serverDHInnerData_client (n : Nat) :
    HandshakeSession.serverDHInnerData world client.nonce serverNonce (n % dhPrime) =
      .ok (serverInner world client serverNonce (n % dhPrime)) := by
  have hmax : 256 ≤ maxTLBytesLength := by decide
  unfold serverDHInnerData serverInner
  rw [writeBytes_eq_some (length_beBytes_dhPrime.trans hmax),
    writeBytes_eq_some ((length_beBytes_mod n).trans hmax)]
  simp only [orError_some, except_ok_bind, List.append_assoc]
  rfl

theorem length_serverInner_le (world : HandshakeWorld) (client : HandshakeClient) (serverNonce : Int128)
    (n : Nat) : (serverInner world client serverNonce (n % dhPrime)).length ≤ 600 := by
  have hpri := length_tlBytes_le (beBytes dhPrime)
  have hga := length_tlBytes_le (beBytes (n % dhPrime))
  have hpri' := length_beBytes_dhPrime
  have hga' := length_beBytes_mod n
  unfold serverInner
  simp only [List.length_append, length_uint32Bytes, Vector.length_toList, length_leBytes]
  omega

theorem hashMatches_append (c : HandshakeCrypto) (inner padding : List UInt8) :
    hashMatches c 20 (c.sha1 inner ++ (inner ++ padding)) padding = true := by
  unfold hashMatches
  rw [List.drop_left' (c.sha1_length inner), List.take_left' (c.sha1_length inner), List.length_append,
    Nat.add_sub_cancel, List.take_left]
  simp

theorem readServerDHInnerData_client (c : HandshakeCrypto) (world : HandshakeWorld)
    (client : HandshakeClient) (serverNonce : Int128) (n : Nat) (padding : List UInt8) :
    client.readServerDHInnerData c serverNonce
      (c.sha1 (serverInner world client serverNonce (n % dhPrime)) ++
        (serverInner world client serverNonce (n % dhPrime) ++ padding)) = some (n % dhPrime) := by
  have hmax : 256 ≤ maxTLBytesLength := by decide
  have hhs := hashMatches_append c (serverInner world client serverNonce (n % dhPrime)) padding
  have htm : ∀ rest, readInt32 (leBytes 4 (world.serverTime / second % 2 ^ 32).toNat ++ rest) =
      some ((UInt32.ofNat (world.serverTime / second % 2 ^ 32).toNat).toInt32, rest) := by
    intro rest
    have hlt : (world.serverTime / second % 2 ^ 32).toNat < 2 ^ 32 := by omega
    have hrd := readUint32_leBytes (UInt32.ofNat (world.serverTime / second % 2 ^ 32).toNat) rest
    rw [UInt32.toNat_ofNat_of_lt' hlt] at hrd
    unfold readInt32
    rw [hrd]
    rfl
  unfold readServerDHInnerData
  rw [List.drop_left' (c.sha1_length _)]
  generalize c.sha1 (serverInner world client serverNonce (n % dhPrime)) ++
    (serverInner world client serverNonce (n % dhPrime) ++ padding) = decrypted at hhs
  unfold serverInner
  simp only [List.append_assoc, readUint32_append, readInt128_append, bind_eq_bind,
    bind_some, readBytes_tlBytes (length_beBytes_dhPrime.trans hmax),
    readBytes_tlBytes ((length_beBytes_mod n).trans hmax), htm, beNat_beBytes, hhs]
  exact if_pos ⟨trivial, trivial, trivial, rfl, trivial, trivial⟩

theorem encryptServerDH_client (c : HandshakeCrypto) (client : HandshakeClient) (serverNonce : Int128)
    (hpad : ∀ k < 16, (world.padding k).map List.length = some k) (plain : List UInt8) :
    ∃ padding, padding.length < 16 ∧ (c.sha1 plain ++ (plain ++ padding)).length % 16 = 0 ∧
      HandshakeSession.encryptServerDH c world client.newNonce serverNonce plain =
        .ok (c.aesIGE (c.deriveTempKeyIV client.newNonce serverNonce).1
            (c.deriveTempKeyIV client.newNonce serverNonce).2 (c.sha1 plain ++ (plain ++ padding)),
          c.deriveTempKeyIV client.newNonce serverNonce) := by
  unfold encryptServerDH
  by_cases hwh : (c.sha1 plain ++ plain).length % 16 = 0
  · refine ⟨[], by decide, ?_, ?_⟩
    · rw [List.append_nil]
      exact hwh
    · simp only [hwh, if_true, except_ok_bind, List.append_nil]
      rfl
  · have hlt : 16 - (c.sha1 plain ++ plain).length % 16 < 16 := by omega
    obtain ⟨padding, hso, hlen⟩ := map_eq_some_iff.mp (hpad _ hlt)
    refine ⟨padding, by omega, ?_, ?_⟩
    · rw [← List.append_assoc, List.length_append, hlen]
      omega
    · simp only [if_neg hwh, hso, orError_some, except_ok_bind, List.append_assoc]
      rfl

def dhState (c : HandshakeCrypto) (client : HandshakeClient) (serverNonce : Int128) (a : Nat)
    (retryID : Int64) : DHState :=
  ⟨client.newNonce, a, (c.deriveTempKeyIV client.newNonce serverNonce).1,
    (c.deriveTempKeyIV client.newNonce serverNonce).2, retryID⟩

theorem handleReqDHParams_client {a : Nat}
    (hacc : s.acceptInnerData c world data = .ok (client.toInnerData serverNonce))
    (hdr : generatePrivateExponent world.draw 32 0 = .ok a)
    (hval : validateDHPublicValue (dhGenerator ^ a % dhPrime) dhPrime = .ok ())
    (hpad : ∀ k < 16, (world.padding k).map List.length = some k) :
    ∃ response expiresAt, HandshakeSession.handleReqDHParams c world s data = .ok (response, { s with
          temporaryExpiresAt := expiresAt
          dh := some (client.dhState c serverNonce a 0)
          stage := .dhIssued }) ∧
      client.readServerDHParams c serverNonce response =
        some (.dhIssued serverNonce (dhGenerator ^ a % dhPrime) 0) := by
  obtain ⟨padding, hsh, hwh, hen⟩ := encryptServerDH_client c client serverNonce hpad
    (serverInner world client serverNonce (dhGenerator ^ a % dhPrime))
  have hrd := readServerDHInnerData_client c world client serverNonce (dhGenerator ^ a) padding
  have hlen : (c.aesIGE (c.deriveTempKeyIV client.newNonce serverNonce).1
      (c.deriveTempKeyIV client.newNonce serverNonce).2
      (c.sha1 (serverInner world client serverNonce (dhGenerator ^ a % dhPrime)) ++
        (serverInner world client serverNonce (dhGenerator ^ a % dhPrime) ++ padding))).length ≤
        maxTLBytesLength := by
    have hinn := length_serverInner_le world client serverNonce (dhGenerator ^ a)
    have hmax : 700 ≤ maxTLBytesLength := by decide
    rw [length_aesIGE _ _ _ hwh, List.length_append, List.length_append, c.sha1_length]
    omega
  have hdec := aesIGEDecrypt_aesIGE c (c.deriveTempKeyIV client.newNonce serverNonce).1
    (c.deriveTempKeyIV client.newNonce serverNonce).2 hwh
  generalize c.sha1 (serverInner world client serverNonce (dhGenerator ^ a % dhPrime)) ++
    (serverInner world client serverNonce (dhGenerator ^ a % dhPrime) ++ padding) = plain at *
  refine ⟨uint32Bytes serverDHParamsOKID ++ (client.nonce.toList ++ (serverNonce.toList ++
    tlBytes (c.aesIGE (c.deriveTempKeyIV client.newNonce serverNonce).1
      (c.deriveTempKeyIV client.newNonce serverNonce).2 plain))),
    s.innerExpiry world (client.toInnerData serverNonce), ?_, ?_⟩
  · unfold handleReqDHParams
    rw [hacc, except_ok_bind, hdr, except_ok_bind]
    dsimp only [toInnerData]
    rw [hval, except_ok_bind, serverDHInnerData_client, except_ok_bind, hen, except_ok_bind]
    rw [writeBytes_eq_some hlen]
    simp only [orError_some, except_ok_bind, List.append_assoc]
    rfl
  · have henc := readBytes_tlBytes hlen []
    rw [List.append_nil] at henc
    unfold readServerDHParams
    simp only [readUint32_append, readInt128_append, bind_eq_bind, bind_some, henc, hdec, hrd]
    exact if_pos ⟨trivial, trivial, trivial, trivial⟩

theorem length_clientDHInnerData_le (client : HandshakeClient) (serverNonce : Int128) (retryID : Int64)
    (b : Nat) : (client.clientDHInnerData serverNonce retryID b).length ≤ 308 := by
  have hgb := length_tlBytes_le (beBytes (dhGenerator ^ b % dhPrime))
  have hgb' := length_beBytes_mod (dhGenerator ^ b)
  unfold clientDHInnerData
  simp only [List.length_append, length_uint32Bytes, Vector.length_toList, length_leBytes]
  omega

theorem parseClientDHInnerData_client (c : HandshakeCrypto) (client : HandshakeClient)
    (serverNonce : Int128) (retryID : Int64) (b : Nat) (padding : List UInt8) :
    parseClientDHInnerData c (client.paddedInnerData c serverNonce retryID b padding) =
      some ⟨client.nonce, serverNonce, retryID, beBytes (dhGenerator ^ b % dhPrime)⟩ := by
  have hmax : 256 ≤ maxTLBytesLength := by decide
  have hhs := hashMatches_append c (client.clientDHInnerData serverNonce retryID b) padding
  have hdr : (client.paddedInnerData c serverNonce retryID b padding).drop 20 =
      client.clientDHInnerData serverNonce retryID b ++ padding := by
    unfold paddedInnerData
    rw [List.drop_left' (c.sha1_length _)]
  have hat : parseClientDHInnerDataAt c (client.paddedInnerData c serverNonce retryID b padding) 20 =
      some ⟨client.nonce, serverNonce, retryID, beBytes (dhGenerator ^ b % dhPrime)⟩ := by
    unfold parseClientDHInnerDataAt
    rw [hdr]
    unfold paddedInnerData
    generalize c.sha1 (client.clientDHInnerData serverNonce retryID b) ++
      (client.clientDHInnerData serverNonce retryID b ++ padding) = decrypted at hhs
    unfold clientDHInnerData readClientDHInnerData
    simp only [List.append_assoc, readUint32_append, readInt128_append, readInt64_leBytes,
      bind_eq_bind, bind_some, readBytes_tlBytes ((length_beBytes_mod _).trans hmax)]
    simpa using hhs
  rw [parseClientDHInnerData, hat]
  rfl

def sharedSecret (a b : Nat) : List UInt8 := beBytes (dhGenerator ^ (a * b) % dhPrime)

theorem length_paddedInnerData_le (c : HandshakeCrypto) (client : HandshakeClient) (serverNonce : Int128)
    (retryID : Int64) (b : Nat) (hsh : padding.length < 16) :
    20 ≤ (client.paddedInnerData c serverNonce retryID b padding).length ∧
      (client.paddedInnerData c serverNonce retryID b padding).length ≤ 343 := by
  have hinn := length_clientDHInnerData_le client serverNonce retryID b
  unfold paddedInnerData
  rw [List.length_append, List.length_append, c.sha1_length]
  omega

theorem length_setClientDHParams (hsh : padding.length < 16)
    (hwh : (client.paddedInnerData c serverNonce retryID b padding).length % 16 = 0) :
    4 ≤ (client.setClientDHParams c serverNonce retryID b padding).length ∧
      (client.setClientDHParams c serverNonce retryID b padding).length ≤ maxHandshakePayloadBytes := by
  obtain ⟨_, hpad⟩ := length_paddedInnerData_le c client serverNonce retryID b hsh
  have hcip := length_aesIGE c (c.deriveTempKeyIV client.newNonce serverNonce).1
    (c.deriveTempKeyIV client.newNonce serverNonce).2 hwh
  have htl := length_tlBytes_le (c.aesIGE (c.deriveTempKeyIV client.newNonce serverNonce).1
    (c.deriveTempKeyIV client.newNonce serverNonce).2
    (client.paddedInnerData c serverNonce retryID b padding))
  unfold setClientDHParams maxHandshakePayloadBytes
  simp only [List.length_append, length_uint32Bytes, Vector.length_toList]
  omega

theorem acceptClientDH_client (hiss : client.Issued serverNonce s) (a : Nat)
    (hval : validateDHPublicValue (dhGenerator ^ b % dhPrime) dhPrime = .ok ()) (hsh : padding.length < 16)
    (hwh : (client.paddedInnerData c serverNonce retryID b padding).length % 16 = 0) :
    s.acceptClientDH c (client.setClientDHParams c serverNonce retryID b padding)
        (client.dhState c serverNonce a retryID) =
      .ok ⟨client.nonce, serverNonce, retryID, beBytes (dhGenerator ^ b % dhPrime)⟩ := by
  obtain ⟨hno, hsrv⟩ := hiss
  obtain ⟨hlea, hms⟩ := length_paddedInnerData_le c client serverNonce retryID b hsh
  have hcip := length_aesIGE c (c.deriveTempKeyIV client.newNonce serverNonce).1
    (c.deriveTempKeyIV client.newNonce serverNonce).2 hwh
  have hdec := aesIGEDecrypt_aesIGE c (c.deriveTempKeyIV client.newNonce serverNonce).1
    (c.deriveTempKeyIV client.newNonce serverNonce).2 hwh
  have hprs := parseClientDHInnerData_client c client serverNonce retryID b padding
  unfold acceptClientDH setClientDHParams dhState
  dsimp only
  generalize client.paddedInnerData c serverNonce retryID b padding = plain at *
  generalize c.aesIGE (c.deriveTempKeyIV client.newNonce serverNonce).1
    (c.deriveTempKeyIV client.newNonce serverNonce).2 plain = encrypted at *
  have hmax : 400 ≤ maxTLBytesLength := by decide
  have henc := readBytes_tlBytes (show encrypted.length ≤ maxTLBytesLength by omega) []
  rw [List.append_nil] at henc
  have hne : encrypted ≠ [] := by
    rintro rfl
    rw [List.length_nil] at hcip
    omega
  simp only [drop_uint32Bytes, readInt128_append, henc, reading_some, except_ok_bind, hdec,
    hprs, hno, hsrv, beNat_beBytes, hval]
  rw [require_pos ⟨trivial, hne, by omega⟩, except_ok_bind, require_pos ⟨trivial, trivial⟩,
    except_ok_bind, require_pos trivial]
  rfl

theorem handleSetClientDHParams_client {a : Nat}
    (hacc : s.acceptClientDH c data (client.dhState c serverNonce a retryID) =
      .ok ⟨client.nonce, serverNonce, retryID, beBytes (dhGenerator ^ b % dhPrime)⟩)
    (hiss : client.Issued serverNonce s) (hsto : world.storeError = none)
    (hexp : s.temporaryExpiresAt ≠ zeroTime → world.storedAt < s.temporaryExpiresAt) :
    (∃ output, (sharedSecret a b).length < 256 ∧
      HandshakeSession.handleSetClientDHParams c world s data (client.dhState c serverNonce a retryID) =
        .ok (output, { s with
          dh := some (client.dhState c serverNonce a (c.retryIDOf (sharedSecret a b)))
          stage := .dhIssued }, none) ∧ output.result = none ∧
      client.readDHGen c serverNonce (dhGenerator ^ a % dhPrime) b output.response =
        some (.dhIssued serverNonce (dhGenerator ^ a % dhPrime) (c.retryIDOf (sharedSecret a b)))) ∨
    (∃ output key, (sharedSecret a b).length = 256 ∧ key.key.bytes = sharedSecret a b ∧
      key.id = computeAuthKeyID c.sha1 (sharedSecret a b) ∧
      HandshakeSession.handleSetClientDHParams c world s data (client.dhState c serverNonce a retryID) =
        .ok (output, s, some key) ∧ output.result = some ⟨key.id, client.salt serverNonce⟩ ∧
      client.readDHGen c serverNonce (dhGenerator ^ a % dhPrime) b output.response =
        some (.authorized (sharedSecret a b) (computeAuthKeyID c.sha1 (sharedSecret a b))
          (client.salt serverNonce))) := by
  obtain ⟨hno, hsrv⟩ := hiss
  have hkey : beBytes ((dhGenerator ^ b % dhPrime) ^ a % dhPrime) = sharedSecret a b := by
    rw [shared_secret]
    rfl
  have hcli : beBytes ((dhGenerator ^ a % dhPrime) ^ b % dhPrime) = sharedSecret a b := by
    rw [shared_secret, Nat.mul_comm]
    rfl
  have hrd : ∀ (id : UInt32) (hash : Int128), ∃ r,
      readUint32 (encodeDHGenResponse id client.nonce serverNonce hash) = some (id, r) ∧
      ∃ r', readInt128 r = some (client.nonce, r') ∧ ∃ r'', readInt128 r' = some (serverNonce, r'') ∧
        readInt128 r'' = some (hash, []) := by
    intro id hash
    unfold encodeDHGenResponse
    rw [List.append_assoc, List.append_assoc]
    have hla := readInt128_append hash []
    rw [List.append_nil] at hla
    exact ⟨_, readUint32_append _ _, _, readInt128_append _ _, _, readInt128_append _ _, hla⟩
  have hlen := length_beBytes_mod (dhGenerator ^ (a * b))
  unfold handleSetClientDHParams
  rw [hacc, except_ok_bind]
  dsimp only [dhState]
  simp only [beNat_beBytes, hkey]
  by_cases hfl : (sharedSecret a b).length = 256
  · right
    rw [dif_pos hfl]
    obtain ⟨r, hr, r', hr', r'', hr'', hhs⟩ := hrd dhGenOKID
      (c.computeNewNonceHash1Auth client.newNonce (sharedSecret a b))
    refine ⟨⟨encodeDHGenResponse dhGenOKID client.nonce serverNonce
        (c.computeNewNonceHash1Auth client.newNonce (sharedSecret a b)),
        some ⟨computeAuthKeyID c.sha1 (sharedSecret a b), client.salt serverNonce⟩⟩,
      ⟨computeAuthKeyID c.sha1 (sharedSecret a b), ⟨sharedSecret a b, hfl⟩,
        if s.temporaryExpiresAt = zeroTime then none else some s.temporaryExpiresAt⟩,
      hfl, rfl, rfl, ?_, rfl, ?_⟩
    · have hbef : ∀ t ∈ (if s.temporaryExpiresAt = zeroTime then none
          else some s.temporaryExpiresAt), world.storedAt < t := by
        intro t ht
        split at ht
        · cases ht
        next hz =>
          cases ht
          exact hexp hz
      unfold storeAuthKey
      dsimp only
      rw [require_pos hbef, except_ok_bind, hsto, hno, hsrv, salt_eq]
      rfl
    · unfold readDHGen
      simp only [hr, hr', hr'', hhs, bind_eq_bind, bind_some, hcli]
      simp
  · left
    rw [dif_neg hfl]
    obtain ⟨r, hr, r', hr', r'', hr'', hhs⟩ := hrd dhGenRetryID
      (c.computeNewNonceHash2Auth client.newNonce (sharedSecret a b))
    refine ⟨_, lt_of_le_of_ne hlen hfl, rfl, rfl, ?_⟩
    rw [hno, hsrv]
    unfold readDHGen
    simp only [hr, hr', hr'', hhs, bind_eq_bind, bind_some, hcli]
    simp [show dhGenRetryID ≠ dhGenOKID by decide]

end HandshakeClient

theorem HandshakeSession.handle_ok {c : HandshakeCrypto} {world : HandshakeWorld} (ref : HandshakeRef)
    (others : List EngineOp) {e : HandshakeEngine} {s s₀ s' : HandshakeSession}
    (hcn : world.canceled = false)
    (hmin : 4 ≤ data.length) (hmax : data.length ≤ maxHandshakePayloadBytes) (hop : s.stage ≠ .closed)
    (hchk : (e.check world.checkedAt ref).1 = .ok ())
    (hdis : s.dispatch c world data = (s₀, .ok (output, s', stored))) :
    ∃ e', s.handle c world ref others e data = (e', s', .ok output, stored) := by
  unfold handle
  rw [if_neg (by rw [hcn]; decide), if_neg (by omega), if_neg hop]
  cases hres : e.check world.checkedAt ref with
  | mk result e₁ =>
    rw [hres] at hchk
    obtain rfl : result = .ok () := hchk
    rw [hdis]
    dsimp only
    split
    · exact ⟨_, rfl⟩
    · exact ⟨_, rfl⟩

namespace HandshakeSession

variable {c : HandshakeCrypto} {world : HandshakeWorld} {s s' : HandshakeSession} {data response : List UInt8}

theorem dispatch_reqPQ (hid : leUint32 data = reqPQMultiID)
    (hok : handleReqPQ world { s with dh := none, temporaryExpiresAt := zeroTime } data =
      .ok (response, s')) :
    ∃ s₀, s.dispatch c world data = (s₀, .ok (⟨response, none⟩, s', none)) := by
  unfold dispatch
  dsimp only
  rw [if_pos (.inr hid), hok]
  exact ⟨_, rfl⟩

theorem dispatch_reqDHParams (hid : leUint32 data = reqDHParamsID) (hst : s.stage = .pqIssued)
    (hok : handleReqDHParams c world s data = .ok (response, s')) :
    ∃ s₀, s.dispatch c world data = (s₀, .ok (⟨response, none⟩, s', none)) := by
  unfold dispatch
  rw [hid, if_neg (by decide), if_pos rfl, if_neg (not_not.mpr hst), hok]
  exact ⟨_, rfl⟩

theorem dispatch_setClientDHParams (hid : leUint32 data = setClientDHParamsID)
    (hst : s.stage = .dhIssued) {dh : DHState} (hdh : s.dh = some dh)
    {value : HandshakeOutput × HandshakeSession × Option StoredKey}
    (hok : handleSetClientDHParams c world { s with dh := none, stage := .closed } data dh = .ok value) :
    ∃ s₀, s.dispatch c world data = (s₀, .ok value) := by
  unfold dispatch
  rw [hid, if_neg (by decide), if_neg (by decide), if_pos rfl, if_neg (not_not.mpr hst), hdh]
  dsimp only
  rw [hok]
  exact ⟨_, rfl⟩

end HandshakeSession

namespace Conversation

variable {c : HandshakeCrypto} {client : HandshakeClient} {conv conv' : Conversation}

def Open (conv : Conversation) (world : HandshakeWorld) : Prop :=
  world.canceled = false ∧ (conv.run.engine.check world.checkedAt conv.run.ref).1 = .ok ()

/-- `req_DH_params` fits, and the server has the key that decrypts its inner data. -/
def Decryptable (c : HandshakeCrypto) (client : HandshakeClient) (world : HandshakeWorld)
    (encrypted : List UInt8) : ClientStage → Prop
  | .pqIssued serverNonce =>
    (client.reqDHParams serverNonce encrypted).length ≤ maxHandshakePayloadBytes ∧
      ∃ known ∈ world.serverKey (leBytes 8 client.fingerprint.toUInt64.toNat), ∃ key ∈ known,
        ∃ plain ∈ c.decryptRSA key encrypted, client.innerData serverNonce <+: plain
  | _ => True

def WholeBlocks (c : HandshakeCrypto) (client : HandshakeClient) (b : Nat) (padding : List UInt8) :
    ClientStage → Prop
  | .dhIssued serverNonce _ retryID =>
    (client.paddedInnerData c serverNonce retryID b padding).length % 16 = 0
  | _ => True

/-- Random bytes, server keys, the right `DecryptRSA`, valid public values and a working manager. -/
def Cooperates (c : HandshakeCrypto) (client : HandshakeClient) (conv : Conversation) : ClientOp → Prop
  | .reqPQ world _ => conv.Open world ∧ world.serverNonce.isSome ∧
      ∃ keys ∈ world.serverKeys, keys ≠ [] ∧ keys.all Option.isSome
  | .reqDHParams world _ encrypted => conv.Open world ∧ encrypted.length ≤ maxTLBytesLength ∧
      Decryptable c client world encrypted conv.stage ∧
      (client.form.expiresIn ≠ 0 → world.supportsTemporary = true) ∧
      (∃ a ∈ (generatePrivateExponent world.draw 32 0).toOption,
        validateDHPublicValue (dhGenerator ^ a % dhPrime) dhPrime = .ok ()) ∧
      ∀ k < 16, (world.padding k).map List.length = some k
  | .setClientDHParams world _ b padding => conv.Open world ∧
      validateDHPublicValue (dhGenerator ^ b % dhPrime) dhPrime = .ok () ∧ padding.length < 16 ∧
      WholeBlocks c client b padding conv.stage ∧ world.storeError = none ∧
      (conv.run.session.temporaryExpiresAt ≠ zeroTime →
        world.storedAt < conv.run.session.temporaryExpiresAt)

instance decidableDecryptable (c : HandshakeCrypto) (client : HandshakeClient) (world : HandshakeWorld)
    (encrypted : List UInt8) : ∀ stage, Decidable (Decryptable c client world encrypted stage)
  | .pqIssued _ => inferInstanceAs (Decidable (_ ∧ _))
  | .fresh | .dhIssued _ _ _ | .authorized _ _ _ | .rejected => isTrue trivial

instance decidableWholeBlocks (c : HandshakeCrypto) (client : HandshakeClient) (b : Nat)
    (padding : List UInt8) : ∀ stage, Decidable (WholeBlocks c client b padding stage)
  | .dhIssued _ _ _ => inferInstanceAs (Decidable (_ = _))
  | .fresh | .pqIssued _ | .authorized _ _ _ | .rejected => isTrue trivial

instance decidableOpen (conv : Conversation) (world : HandshakeWorld) : Decidable (conv.Open world) :=
  inferInstanceAs (Decidable (_ ∧ _))

instance decidableCooperates (c : HandshakeCrypto) (client : HandshakeClient) (conv : Conversation) :
    ∀ op, Decidable (conv.Cooperates c client op)
  | .reqPQ _ _ => inferInstanceAs (Decidable (_ ∧ _ ∧ _))
  | .reqDHParams _ _ _ => inferInstanceAs (Decidable (_ ∧ _ ∧ _))
  | .setClientDHParams _ _ _ _ => inferInstanceAs (Decidable (_ ∧ _ ∧ _))

def Matches (c : HandshakeCrypto) (client : HandshakeClient) (conv : Conversation) : Prop :=
  match conv.stage with
  | .fresh => conv.run.session.stage = .fresh ∧ conv.run.stored = []
  | .pqIssued serverNonce => conv.run.session.stage = .pqIssued ∧
      client.Issued serverNonce conv.run.session ∧ conv.run.stored = []
  | .dhIssued serverNonce ga retryID => conv.run.session.stage = .dhIssued ∧
      client.Issued serverNonce conv.run.session ∧ conv.run.stored = [] ∧
      ∃ a, ga = dhGenerator ^ a % dhPrime ∧
        conv.run.session.dh = some (client.dhState c serverNonce a retryID)
  | .authorized authKey id salt => authKey.length = 256 ∧
      (∃ key, conv.run.stored = [key] ∧ key.key.bytes = authKey ∧ key.id = id) ∧
      ∃ output, conv.run.outputs.getLast? = some (.ok output) ∧ output.result = some ⟨id, salt⟩
  | .rejected => False

structure Agrees (c : HandshakeCrypto) (client : HandshakeClient) (conv : Conversation) : Prop where
  matching : conv.Matches c client
  ok : ∀ out ∈ conv.run.outputs, ∃ output, out = .ok output

/-- Where a request takes the client. The last one is a retry if the secret is short. -/
def Advances (c : HandshakeCrypto) (client : HandshakeClient) (conv conv' : Conversation) :
    ClientOp → Prop
  | .reqPQ world _ => ∃ serverNonce, world.serverNonce = some serverNonce ∧
      conv'.stage = .pqIssued serverNonce
  | .reqDHParams world _ _ => ∃ serverNonce a, conv.stage = .pqIssued serverNonce ∧
      generatePrivateExponent world.draw 32 0 = .ok a ∧
      conv'.stage = .dhIssued serverNonce (dhGenerator ^ a % dhPrime) 0 ∧
      ∃ dh, conv'.run.session.dh = some dh ∧ dh.privateA = a
  | .setClientDHParams _ _ b _ => ∃ serverNonce ga retryID dh,
      conv.stage = .dhIssued serverNonce ga retryID ∧ conv.run.session.dh = some dh ∧
      ((HandshakeClient.sharedSecret dh.privateA b).length < 256 ∧
        conv'.stage = .dhIssued serverNonce ga
          (c.retryIDOf (HandshakeClient.sharedSecret dh.privateA b)) ∨
      (HandshakeClient.sharedSecret dh.privateA b).length = 256 ∧
        conv'.stage = .authorized (HandshakeClient.sharedSecret dh.privateA b)
          (computeAuthKeyID c.sha1 (HandshakeClient.sharedSecret dh.privateA b))
          (client.salt serverNonce))

variable {others : List EngineOp} {world : HandshakeWorld}

theorem call_ok {read : List UInt8 → Option ClientStage} {s₀ s' : HandshakeSession} {stage : ClientStage}
    (hcl : conv.call c world others data read = some conv') (hop : conv.Open world)
    (hmin : 4 ≤ data.length) (hmax : data.length ≤ maxHandshakePayloadBytes)
    (hst : conv.run.session.stage ≠ .closed)
    (hdis : conv.run.session.dispatch c world data = (s₀, .ok (output, s', stored)))
    (hrd : read output.response = some stage) :
    conv'.stage = stage ∧ conv'.run.session = s' ∧ conv'.run.stored = conv.run.stored ++ stored.toList ∧
      conv'.run.outputs = conv.run.outputs ++ [.ok output] := by
  obtain ⟨run, hsp, rfl⟩ := map_eq_some_iff.mp hcl
  obtain ⟨_, e', s'', out, stored', hhnd, rfl⟩ := HandshakeRun.step_handle hsp
  obtain ⟨e'', hok⟩ := handle_ok conv.run.ref others hop.1 hmin hmax hst hop.2 hdis
  cases hhnd.symm.trans hok
  refine ⟨?_, rfl, rfl, rfl⟩
  dsimp only [HandshakeRun.observe]
  rw [List.getLast?_append_of_ne_nil _ (by simp), List.getLast?_singleton]
  dsimp only
  rw [hrd]
  rfl

theorem Agrees.extend (h : conv.Agrees c client) (hot : conv'.run.outputs = conv.run.outputs ++ [.ok output])
    (hmat : conv'.Matches c client) : conv'.Agrees c client := by
  refine ⟨hmat, fun out hout => ?_⟩
  rw [hot] at hout
  rcases List.mem_append.mp hout with hold | hnew
  · exact h.ok out hold
  · exact ⟨output, List.mem_singleton.mp hnew⟩

theorem reqPQ_agrees (hfac : client.Factors c) (h : conv.Agrees c client)
    (hcp : conv.Cooperates c client (.reqPQ world others))
    (hsp : conv.step c client (.reqPQ world others) = some conv') :
    conv'.Agrees c client ∧ conv.Advances c client conv' (.reqPQ world others) := by
  obtain ⟨hop, hno, keys, hks, hne, hall⟩ := hcp
  rw [mem_def] at hks
  rw [List.all_eq_true] at hall
  obtain ⟨serverNonce, hno⟩ := isSome_iff_exists.mp hno
  dsimp only [step] at hsp
  split at hsp
  next hst =>
    have hmt := h.matching
    unfold Matches at hmt
    rw [hst] at hmt
    obtain ⟨hfr, hstd⟩ := hmt
    obtain ⟨rest, hhnd⟩ := handleReqPQ_client client
      { conv.run.session with dh := none, temporaryExpiresAt := zeroTime } hno hks hne hall
    obtain ⟨s₀, hdis⟩ := dispatch_reqPQ (leUint32_uint32Bytes _ _) hhnd
    have hlen : client.reqPQ.length = 20 := by
      unfold reqPQ
      rw [List.length_append, length_uint32Bytes, Vector.length_toList]
    obtain ⟨hst', hses, hstd', hout⟩ := call_ok hsp hop (by omega)
      (by rw [hlen]; decide) (by rw [hfr]; decide) hdis
      (readResPQ_response hfac rest)
    refine ⟨h.extend hout ?_, serverNonce, hno, hst'⟩
    unfold Matches
    rw [hst', hses, hstd', hstd]
    exact ⟨rfl, ⟨rfl, rfl⟩, rfl⟩
  · cases hsp

theorem reqDHParams_agrees (hfac : client.Factors c) (hleg : client.form.Legal) (h : conv.Agrees c client)
    (hcp : conv.Cooperates c client (.reqDHParams world others encrypted))
    (hsp : conv.step c client (.reqDHParams world others encrypted) = some conv') :
    conv'.Agrees c client ∧ conv.Advances c client conv' (.reqDHParams world others encrypted) := by
  obtain ⟨hop, hlen, hreq, htem, ⟨a, hdr, hval⟩, hpad⟩ := hcp
  have hdr := except_of_toOption hdr
  dsimp only [step] at hsp
  split at hsp
  next serverNonce hst =>
    rw [hst] at hreq
    obtain ⟨hmax, known, hkn, key, hkey, plain, hdec, padding, rfl⟩ := hreq
    cases hkey
    have hmt := h.matching
    unfold Matches at hmt
    rw [hst] at hmt
    obtain ⟨hiss, his, hstd⟩ := hmt
    have hacc := acceptInnerData_client hfac hleg his hlen hkn hdec htem
    obtain ⟨response, expiresAt, hhnd, hrd⟩ := handleReqDHParams_client hacc hdr hval hpad
    obtain ⟨s₀, hdis⟩ := dispatch_reqDHParams (leUint32_uint32Bytes _ _) hiss hhnd
    have hmin : 4 ≤ (client.reqDHParams serverNonce encrypted).length := by
      unfold reqDHParams
      rw [List.length_append, length_uint32Bytes]
      omega
    obtain ⟨hst', hses, hstd', hout⟩ := call_ok hsp hop hmin hmax
      (by rw [hiss]; decide) hdis hrd
    refine ⟨h.extend hout ?_, serverNonce, a, hst, hdr, hst', _, by rw [hses], rfl⟩
    unfold Matches
    rw [hst', hses, hstd', hstd]
    exact ⟨rfl, his, rfl, a, rfl, rfl⟩
  · cases hsp

theorem setClientDHParams_agrees (h : conv.Agrees c client) {b : Nat} {padding : List UInt8}
    (hcp : conv.Cooperates c client (.setClientDHParams world others b padding))
    (hsp : conv.step c client (.setClientDHParams world others b padding) = some conv') :
    conv'.Agrees c client ∧ conv.Advances c client conv' (.setClientDHParams world others b padding) := by
  obtain ⟨hop, hval, hsh, hblk, hsto, hexp⟩ := hcp
  dsimp only [step] at hsp
  split at hsp
  next serverNonce ga retryID hst =>
    rw [hst] at hblk
    have hmt := h.matching
    unfold Matches at hmt
    rw [hst] at hmt
    obtain ⟨hiss, his, hstd, a, rfl, hdh⟩ := hmt
    have hiss' : client.Issued serverNonce { conv.run.session with dh := none, stage := .closed } :=
      his
    have hacc := acceptClientDH_client hiss' a hval hsh hblk
    obtain ⟨hmin, hmax⟩ := length_setClientDHParams hsh hblk
    rcases handleSetClientDHParams_client hacc hiss' hsto hexp with
      ⟨output, hls, hhnd, hres, hrd⟩ | ⟨output, key, hfl, hby, hid, hhnd, hres, hrd⟩
    · obtain ⟨s₀, hdis⟩ := dispatch_setClientDHParams (leUint32_uint32Bytes _ _) hiss hdh hhnd
      obtain ⟨hst', hses, hstd', hout⟩ := call_ok hsp hop hmin hmax
        (by rw [hiss]; decide) hdis hrd
      refine ⟨h.extend hout ?_, serverNonce, _, retryID, _, hst, hdh, .inl ⟨hls, hst'⟩⟩
      unfold Matches
      rw [hst', hses, hstd', hstd]
      exact ⟨rfl, his, rfl, a, rfl, rfl⟩
    · obtain ⟨s₀, hdis⟩ := dispatch_setClientDHParams (leUint32_uint32Bytes _ _) hiss hdh hhnd
      obtain ⟨hst', hses, hstd', hout⟩ := call_ok hsp hop hmin hmax
        (by rw [hiss]; decide) hdis hrd
      refine ⟨h.extend hout ?_, serverNonce, _, retryID, _, hst, hdh, .inr ⟨hfl, hst'⟩⟩
      unfold Matches
      rw [hst', hstd', hstd, hout]
      refine ⟨hfl, ⟨key, rfl, hby, hid⟩, output, ?_, ?_⟩
      · rw [List.getLast?_append_of_ne_nil _ (by simp), List.getLast?_singleton]
      · rw [hres, hid]
  · cases hsp

theorem step_agrees (hfac : client.Factors c) (hleg : client.form.Legal) {op : ClientOp}
    (h : conv.Agrees c client) (hcp : conv.Cooperates c client op)
    (hst : conv.step c client op = some conv') :
    conv'.Agrees c client ∧ conv.Advances c client conv' op := by
  cases op with
  | reqPQ world others => exact reqPQ_agrees hfac h hcp hst
  | reqDHParams world others encrypted => exact reqDHParams_agrees hfac hleg h hcp hst
  | setClientDHParams world others b padding => exact setClientDHParams_agrees h hcp hst

def plainClient : HandshakeClient where
  nonce := Vector.replicate 16 0
  newNonce := Vector.replicate 32 0
  p := 1229739323
  q := 1402015859
  fingerprint := 1
  form := .tempDC 2 3600

end Conversation

end Tlrpc
