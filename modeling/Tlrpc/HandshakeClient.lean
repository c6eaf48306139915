import Tlrpc.HandshakeSafety

namespace Tlrpc

/-- The three forms of `p_q_inner_data` with what they add to it. -/
inductive InnerDataForm
  | plain
  | dc (number : Int32)
  | tempDC (number expiresIn : Int32)

namespace InnerDataForm

def constructor : InnerDataForm → UInt32
  | plain => pqInnerDataID
  | dc _ => pqInnerDataDCID
  | tempDC _ _ => pqInnerDataTempDCID

def encode : InnerDataForm → List UInt8
  | plain => []
  | dc number => leBytes 4 number.toUInt32.toNat
  | tempDC number expiresIn => leBytes 4 number.toUInt32.toNat ++ leBytes 4 expiresIn.toUInt32.toNat

def expiresIn : InnerDataForm → Int32
  | tempDC _ expiresIn => expiresIn
  | _ => 0

/-- A temporary key lives for a positive number of seconds within the limit. -/
def Legal : InnerDataForm → Prop
  | tempDC _ expiresIn =>
    0 < expiresIn.toInt ∧ expiresIn.toInt * second ≤ maxTemporaryAuthKeyLifetime
  | _ => True

end InnerDataForm

/-- A client of the handshake, as the protocol describes it. -/
structure HandshakeClient where
  nonce : Int128
  newNonce : Int256
  p : Nat
  q : Nat
  fingerprint : Int64
  form : InnerDataForm

inductive ClientStage
  | fresh
  | pqIssued (serverNonce : Int128)
  | dhIssued (serverNonce : Int128) (ga : Nat) (retryID : Int64)
  | authorized (authKey : List UInt8) (id : KeyID) (salt : Int64)
  | rejected

namespace HandshakeClient

variable (c : HandshakeCrypto) (client : HandshakeClient)

def reqPQ : List UInt8 := uint32Bytes reqPQMultiID ++ client.nonce.toList

def innerData (serverNonce : Int128) : List UInt8 :=
  uint32Bytes client.form.constructor ++ (tlBytes advertisedPQ ++ (tlBytes (beBytes client.p) ++
    (tlBytes (beBytes client.q) ++ (client.nonce.toList ++ (serverNonce.toList ++
      (client.newNonce.toList ++ client.form.encode))))))

def reqDHParams (serverNonce : Int128) (encrypted : List UInt8) : List UInt8 :=
  uint32Bytes reqDHParamsID ++ (client.nonce.toList ++ (serverNonce.toList ++
    (tlBytes (beBytes client.p) ++ (tlBytes (beBytes client.q) ++
      (leBytes 8 client.fingerprint.toUInt64.toNat ++ tlBytes encrypted)))))

def clientDHInnerData (serverNonce : Int128) (retryID : Int64) (b : Nat) : List UInt8 :=
  uint32Bytes clientDHInnerDataID ++ (client.nonce.toList ++ (serverNonce.toList ++
    (leBytes 8 retryID.toUInt64.toNat ++ tlBytes (beBytes (dhGenerator ^ b % dhPrime)))))

def paddedInnerData (serverNonce : Int128) (retryID : Int64) (b : Nat) (padding : List UInt8) :
    List UInt8 :=
  c.sha1 (client.clientDHInnerData serverNonce retryID b) ++
    (client.clientDHInnerData serverNonce retryID b ++ padding)

def setClientDHParams (serverNonce : Int128) (retryID : Int64) (b : Nat) (padding : List UInt8) :
    List UInt8 :=
  let (tempKey, tempIV) := c.deriveTempKeyIV client.newNonce serverNonce
  uint32Bytes setClientDHParamsID ++ (client.nonce.toList ++ (serverNonce.toList ++
    tlBytes (c.aesIGE tempKey tempIV (client.paddedInnerData c serverNonce retryID b padding))))

def readResPQ (response : List UInt8) : Option ClientStage := do
  let (constructor, r) ← readUint32 response
  let (nonce, r) ← readInt128 r
  let (serverNonce, r) ← readInt128 r
  let (pq, _) ← readBytes r
  if constructor = resPQID ∧ nonce = client.nonce ∧ beNat pq = client.p * client.q then
    pure (.pqIssued serverNonce)
  else none

/-- The public value in `server_DH_inner_data`, once hash and fields agree. -/
def readServerDHInnerData (serverNonce : Int128) (decrypted : List UInt8) : Option Nat := do
  let (constructor, r) ← readUint32 (decrypted.drop 20)
  let (nonce, r) ← readInt128 r
  let (serverNonce', r) ← readInt128 r
  let (g, r) ← readUint32 r
  let (prime, r) ← readBytes r
  let (ga, r) ← readBytes r
  let (_, r) ← readInt32 r
  if constructor = serverDHInnerDataID ∧ nonce = client.nonce ∧ serverNonce' = serverNonce ∧
      g.toNat = dhGenerator ∧ beNat prime = dhPrime ∧ hashMatches c 20 decrypted r then
    pure (beNat ga)
  else none

def readServerDHParams (serverNonce : Int128) (response : List UInt8) : Option ClientStage := do
  let (constructor, r) ← readUint32 response
  let (nonce, r) ← readInt128 r
  let (serverNonce', r) ← readInt128 r
  let (encrypted, r) ← readBytes r
  if constructor = serverDHParamsOKID ∧ nonce = client.nonce ∧ serverNonce' = serverNonce ∧ r = [] then
    let (tempKey, tempIV) := c.deriveTempKeyIV client.newNonce serverNonce
    let ga ← client.readServerDHInnerData c serverNonce (c.aesIGEDecrypt tempKey tempIV encrypted)
    pure (.dhIssued serverNonce ga 0)
  else none

def salt (serverNonce : Int128) : Int64 :=
  (UInt64.ofNat (leNat (List.zipWith (· ^^^ ·) (client.newNonce.toList.take 8)
    (serverNonce.toList.take 8)))).toInt64

/-- The key is `ga ^ b`; by the hash the server has the same one. -/
def readDHGen (serverNonce : Int128) (ga b : Nat) (response : List UInt8) : Option ClientStage := do
  let (constructor, r) ← readUint32 response
  let (nonce, r) ← readInt128 r
  let (serverNonce', r) ← readInt128 r
  let (hash, r) ← readInt128 r
  let authKey := beBytes (ga ^ b % dhPrime)
  if nonce = client.nonce ∧ serverNonce' = serverNonce ∧ r = [] then
    if constructor = dhGenOKID ∧ hash = c.computeNewNonceHash1Auth client.newNonce authKey then
      pure (.authorized authKey (computeAuthKeyID c.sha1 authKey) (client.salt serverNonce))
    else if constructor = dhGenRetryID ∧ hash = c.computeNewNonceHash2Auth client.newNonce authKey then
      pure (.dhIssued serverNonce ga (c.retryIDOf authKey))
    else none
  else none

end HandshakeClient

/-- A request of the client, with what the server meets on the way. -/
inductive ClientOp
  | reqPQ (world : HandshakeWorld) (others : List EngineOp)
  | reqDHParams (world : HandshakeWorld) (others : List EngineOp) (encrypted : List UInt8)
  | setClientDHParams (world : HandshakeWorld) (others : List EngineOp) (b : Nat) (padding : List UInt8)

structure Conversation where
  run : HandshakeRun
  stage : ClientStage

namespace Conversation

def call (c : HandshakeCrypto) (conv : Conversation) (world : HandshakeWorld) (others : List EngineOp)
    (data : List UInt8) (read : List UInt8 → Option ClientStage) : Option Conversation :=
  (conv.run.step c (.handle world others data)).map fun run =>
    ⟨run, match run.outputs.getLast? with
      | some (.ok output) => (read output.response).getD .rejected
      | _ => .rejected⟩

def step (c : HandshakeCrypto) (client : HandshakeClient) (conv : Conversation) :
    ClientOp → Option Conversation
  | .reqPQ world others =>
    match conv.stage with
    | .fresh => conv.call c world others client.reqPQ client.readResPQ
    | _ => none
  | .reqDHParams world others encrypted =>
    match conv.stage with
    | .pqIssued serverNonce =>
      conv.call c world others (client.reqDHParams serverNonce encrypted)
        (client.readServerDHParams c serverNonce)
    | _ => none
  | .setClientDHParams world others b padding =>
    match conv.stage with
    | .dhIssued serverNonce ga retryID =>
      conv.call c world others (client.setClientDHParams c serverNonce retryID b padding)
        (client.readDHGen c serverNonce ga b)
    | _ => none

end Conversation

end Tlrpc
