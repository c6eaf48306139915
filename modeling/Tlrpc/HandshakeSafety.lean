import Tlrpc.Fallible
import Tlrpc.HandshakeSession
import Tlrpc.StepSystem

namespace Tlrpc

open AList List HandshakeEngine HandshakeSession Option

variable {err : HandshakeError} {response : List UInt8} {output : HandshakeOutput}
  {stored : Option StoredKey} {e e' : HandshakeEngine} {ref : HandshakeRef} {s : HandshakeSession}

theorem require_ok {p : Prop} [Decidable p] {u : Unit} (h : require p err = .ok u) : p := by
  unfold require at h
  split at h
  next hp => exact hp
  · cases h

namespace HandshakeSession

variable {c : HandshakeCrypto} {world : HandshakeWorld} {s s' : HandshakeSession} {data : List UInt8}

theorem handleReqPQ_ok (h : handleReqPQ world s data = .ok (response, s')) : ∃ nonce serverNonce,
      s' = { s with nonce := nonce, serverNonce := serverNonce, stage := .pqIssued } := by
  obtain ⟨⟨nonce, r⟩, _, h⟩ := except_bind_ok h
  obtain ⟨_, _, h⟩ := except_bind_ok h
  obtain ⟨serverNonce, _, h⟩ := except_bind_ok h
  obtain ⟨keys, _, h⟩ := except_bind_ok h
  obtain ⟨_, _, h⟩ := except_bind_ok h
  obtain ⟨pq, _, h⟩ := except_bind_ok h
  obtain ⟨ids, _, h⟩ := except_bind_ok h
  cases h
  exact ⟨nonce, serverNonce, rfl⟩

theorem acceptInnerData_ok {inner : PQInnerData} (h : s.acceptInnerData c world data = .ok inner) :
    inner.nonce = s.nonce ∧ inner.serverNonce = s.serverNonce := by
  obtain ⟨⟨nonce, r⟩, _, h⟩ := except_bind_ok h
  obtain ⟨⟨serverNonce, r⟩, _, h⟩ := except_bind_ok h
  obtain ⟨⟨p, r⟩, _, h⟩ := except_bind_ok h
  obtain ⟨⟨q, r⟩, _, h⟩ := except_bind_ok h
  obtain ⟨⟨fingerprint, r⟩, _, h⟩ := except_bind_ok h
  obtain ⟨⟨encrypted, r⟩, _, h⟩ := except_bind_ok h
  obtain ⟨_, _, h⟩ := except_bind_ok h
  obtain ⟨_, hnon, h⟩ := except_bind_ok h
  obtain ⟨_, _, h⟩ := except_bind_ok h
  obtain ⟨serverKey, _, h⟩ := except_bind_ok h
  obtain ⟨key, _, h⟩ := except_bind_ok h
  obtain ⟨decrypted, _, h⟩ := except_bind_ok h
  obtain ⟨inner', _, h⟩ := except_bind_ok h
  obtain ⟨_, hinn, h⟩ := except_bind_ok h
  obtain ⟨_, _, h⟩ := except_bind_ok h
  obtain ⟨_, _, h⟩ := except_bind_ok h
  cases h
  obtain ⟨hno, hsrv⟩ := require_ok hnon
  obtain ⟨hin, hinr, _⟩ := require_ok hinn
  exact ⟨hin.trans hno, hinr.trans hsrv⟩

theorem handleReqDHParams_ok (h : handleReqDHParams c world s data = .ok (response, s')) :
    ∃ inner dh, s.acceptInnerData c world data = .ok inner ∧ s' = { s with
        temporaryExpiresAt := s.innerExpiry world inner
        dh := some dh
        stage := .dhIssued } := by
  obtain ⟨inner, hinn, h⟩ := except_bind_ok h
  obtain ⟨privateA, _, h⟩ := except_bind_ok h
  obtain ⟨_, _, h⟩ := except_bind_ok h
  obtain ⟨plain, _, h⟩ := except_bind_ok h
  obtain ⟨⟨encrypted, tempKey, tempIV⟩, _, h⟩ := except_bind_ok h
  obtain ⟨answer, _, h⟩ := except_bind_ok h
  cases h
  exact ⟨inner, _, hinn, rfl⟩

theorem handleSetClientDHParams_ok {dh : DHState}
    (h : handleSetClientDHParams c world s data dh = .ok (output, s', stored)) :
    (output.result = none ∧ stored = none ∧ ∃ dh', s' = { s with dh := some dh', stage := .dhIssued }) ∨
    (∃ result key, output.result = some result ∧ stored = some key ∧ s' = s ∧
      key.expires = if s.temporaryExpiresAt = zeroTime then none else some s.temporaryExpiresAt) := by
  obtain ⟨inner, _, h⟩ := except_bind_ok h
  dsimp only at h
  split at h
  next hlen =>
    obtain ⟨_, _, h⟩ := except_bind_ok h
    split at h
    · cases h
    cases h
    exact .inr ⟨_, _, rfl, rfl, rfl, rfl⟩
  · cases h
    exact .inl ⟨rfl, rfl, _, rfl⟩

/-- `Handle` is refused, fails in the stage `fresh`, ends the session, or takes one step. -/
inductive Handled (c : HandshakeCrypto) (world : HandshakeWorld) (s : HandshakeSession)
    (data : List UInt8) :
    HandshakeSession → Except HandshakeError HandshakeOutput → Option StoredKey → Prop
  | refused {err : HandshakeError} : Handled c world s data s (.error err) none
  | failed {err : HandshakeError} {s' : HandshakeSession} : s.stage = .fresh → s'.stage = .fresh →
      s'.dh = none ∨ s'.dh = s.dh → Handled c world s data s' (.error err) none
  | ended {err : HandshakeError} {s' : HandshakeSession} : s'.stage = .closed → s'.dh = none →
      Handled c world s data s' (.error err) none
  | pqIssued {output : HandshakeOutput} {nonce serverNonce : Int128} :
      s.stage ≠ .closed → leUint32 data = reqPQID ∨ leUint32 data = reqPQMultiID →
      output.result = none →
      Handled c world s data ⟨.pqIssued, nonce, serverNonce, none, zeroTime⟩ (.ok output) none
  | dhIssued {output : HandshakeOutput} {inner : PQInnerData} {dh : DHState} :
      s.stage = .pqIssued → leUint32 data = reqDHParamsID → s.acceptInnerData c world data = .ok inner →
      output.result = none →
      Handled c world s data
        ⟨.dhIssued, s.nonce, s.serverNonce, some dh, s.innerExpiry world inner⟩ (.ok output) none
  | retried {output : HandshakeOutput} {dh : DHState} : s.stage = .dhIssued →
      leUint32 data = setClientDHParamsID → output.result = none →
      Handled c world s data ⟨.dhIssued, s.nonce, s.serverNonce, some dh, s.temporaryExpiresAt⟩
        (.ok output) none
  | stored {output : HandshakeOutput} {key : StoredKey} : s.stage = .dhIssued →
      leUint32 data = setClientDHParamsID → output.result.isSome →
      key.expires = (if s.temporaryExpiresAt = zeroTime then none else some s.temporaryExpiresAt) →
      Handled c world s data { s with dh := none, stage := .closed } (.ok output) (some key)

theorem dispatch_ok {s₀ : HandshakeSession}
    (hop : s.stage ≠ .closed) (h : s.dispatch c world data = (s₀, .ok (output, s', stored))) :
    Handled c world s data s' (.ok output) stored := by
  unfold dispatch at h
  dsimp only at h
  split at h
  next hid =>
    obtain ⟨_, h⟩ := Prod.mk.inj h
    obtain ⟨⟨response, next⟩, hok, h⟩ := except_map_ok h
    obtain ⟨nonce, serverNonce, rfl⟩ := handleReqPQ_ok hok
    cases h
    exact .pqIssued hop hid rfl
  · split at h
    next hid =>
      split at h
      · cases h
      rename_i hst
      obtain ⟨_, h⟩ := Prod.mk.inj h
      obtain ⟨⟨response, next⟩, hok, h⟩ := except_map_ok h
      obtain ⟨inner, dh, hinn, rfl⟩ := handleReqDHParams_ok hok
      cases h
      exact .dhIssued (not_not.mp hst) hid hinn rfl
    · split at h
      next hid =>
        split at h
        · cases h
        rename_i hst
        have hst := not_not.mp hst
        split at h
        · cases h
        rename_i dh hdh
        obtain ⟨_, h⟩ := Prod.mk.inj h
        rcases handleSetClientDHParams_ok h with ⟨hno, rfl, dh', rfl⟩ | ⟨result, key, hso, rfl, rfl, hexp⟩
        · exact .retried hst hid hno
        · exact .stored hst hid (by rw [hso]; rfl) hexp
      · cases h

theorem dispatch_error (h : s.dispatch c world data = (s', .error err)) :
    s'.stage = .fresh → s.stage = .fresh ∧ (s'.dh = none ∨ s'.dh = s.dh) := by
  intro hfr
  unfold dispatch at h
  dsimp only at h
  split at h
  · obtain ⟨rfl, _⟩ := Prod.mk.inj h
    exact ⟨hfr, .inl rfl⟩
  split at h
  · split at h <;>
    · obtain ⟨rfl, _⟩ := Prod.mk.inj h
      exact ⟨hfr, .inr rfl⟩
  split at h
  · split at h
    · obtain ⟨rfl, _⟩ := Prod.mk.inj h
      exact ⟨hfr, .inr rfl⟩
    split at h <;>
    · obtain ⟨rfl, _⟩ := Prod.mk.inj h
      cases hfr
  · obtain ⟨rfl, _⟩ := Prod.mk.inj h
    exact ⟨hfr, .inr rfl⟩

end HandshakeSession

def EngineOp.creates : EngineOp → Option HandshakeRef
  | .newSession _ ref => some ref
  | _ => none

namespace HandshakeEngine

variable {e : HandshakeEngine} {n : Nat}

structure Bounded (n : Nat) (e : HandshakeEngine) : Prop where
  capacity : e.capacity = n
  length : e.sessions.keys.length ≤ n

structure Shrinks (e e' : HandshakeEngine) : Prop where
  capacity : e'.capacity = e.capacity
  length : e'.sessions.keys.length ≤ e.sessions.keys.length
  absent : ∀ ref, e.sessions.lookup ref = none → e'.sessions.lookup ref = none

theorem Shrinks.refl (e : HandshakeEngine) : Shrinks e e := ⟨rfl, le_refl _, fun _ h => h⟩

theorem shrinks_erase (e : HandshakeEngine) (ref : HandshakeRef) :
    Shrinks e { e with sessions := e.sessions.erase ref } := by
  refine ⟨rfl, ?_, fun ref' hno => ?_⟩
  · rw [keys_erase]
    exact length_erase_le
  · by_cases heq : ref' = ref
    · rw [heq, lookup_erase]
    · rw [lookup_erase_ne heq]
      exact hno

theorem shrinks_removeExpired (e : HandshakeEngine) (now : Time) : Shrinks e (e.removeExpired now) := by
  have hfl : ∀ (entries : List (Sigma fun _ : HandshakeRef => Time))
      (m : AList fun _ : HandshakeRef => Time), Shrinks e { e with sessions := m } →
      Shrinks e { e with
        sessions := entries.foldl (fun m entry => if entry.2 ≤ now then m.erase entry.1 else m) m } := by
    intro entries
    induction entries with
    | nil => exact fun m h => h
    | cons entry rest ih =>
      intro m h
      rw [foldl_cons]
      apply ih
      split
      · have her := shrinks_erase { e with sessions := m } entry.1
        exact ⟨rfl, her.length.trans h.length, fun ref hno => her.absent ref (h.absent ref hno)⟩
      · exact h
  exact hfl e.sessions.entries e.sessions (.refl e)

theorem Bounded.shrinks (h : e.Bounded n) (hshr : Shrinks e e') : e'.Bounded n :=
  ⟨hshr.capacity.trans h.capacity, hshr.length.trans h.length⟩

theorem perform_bounded (h : e.Bounded n) (op : EngineOp) : (e.perform op).Bounded n := by
  cases op with
  | newSession now ref =>
    have hswe := h.shrinks (e.shrinks_removeExpired now)
    unfold perform newSession
    dsimp only
    split
    · exact hswe
    rename_i hrm
    refine ⟨hswe.capacity, ?_⟩
    rw [hswe.capacity] at hrm
    rw [keys_insert, length_cons]
    have hle : ((e.removeExpired now).sessions.keys.erase ref).length ≤
        (e.removeExpired now).sessions.keys.length := length_erase_le
    omega
  | check now ref =>
    unfold perform check
    dsimp only
    split
    · exact h
    split
    · exact h
    · exact h.shrinks (e.shrinks_erase ref)
  | refresh now ref =>
    unfold perform refresh
    dsimp only
    split
    next expiresAt hlk =>
      refine ⟨h.capacity, ?_⟩
      have hmem : ref ∈ e.sessions.keys := by
        rw [← AList.mem_keys, ← AList.lookup_isSome, hlk]
        rfl
      have hpos := length_pos_of_mem hmem
      have hlen := h.length
      rw [keys_insert, length_cons, length_erase_of_mem hmem]
      omega
    · exact h
  | remove ref => exact h.shrinks (e.shrinks_erase ref)

theorem perform_absent (h : e.sessions.lookup ref = none) {op : EngineOp}
    (hop : op.creates ≠ some ref) : (e.perform op).sessions.lookup ref = none := by
  cases op with
  | newSession now ref' =>
    have hshr := e.shrinks_removeExpired now
    have hne : ref ≠ ref' := fun heq => hop (by rw [heq]; rfl)
    unfold perform newSession
    dsimp only
    split
    · exact hshr.absent ref h
    rw [lookup_insert_ne hne]
    exact hshr.absent ref h
  | check now ref' =>
    unfold perform check
    dsimp only
    split
    · exact h
    split
    · exact h
    · exact (e.shrinks_erase ref').absent ref h
  | refresh now ref' =>
    unfold perform refresh
    dsimp only
    split
    next expiresAt hlk =>
      have hne : ref ≠ ref' := by
        rintro rfl
        cases h.symm.trans hlk
      rw [lookup_insert_ne hne]
      exact h
    · exact h
  | remove ref' => exact (e.shrinks_erase ref').absent ref h

theorem performAll_bounded (h : e.Bounded n) (ops : List EngineOp) : (ops.foldl perform e).Bounded n := by
  induction ops generalizing e with
  | nil => exact h
  | cons op rest ih => exact ih (perform_bounded h op)

theorem performAll_absent (h : e.sessions.lookup ref = none) {ops : List EngineOp}
    (hops : ∀ op ∈ ops, op.creates ≠ some ref) : (ops.foldl perform e).sessions.lookup ref = none := by
  induction ops generalizing e with
  | nil => exact h
  | cons op rest ih =>
    exact ih (perform_absent h (hops op mem_cons_self))
      fun op' hop' => hops op' (mem_cons_of_mem op hop')

end HandshakeEngine

namespace HandshakeSession

variable {c : HandshakeCrypto} {world : HandshakeWorld} {s s' : HandshakeSession} {data : List UInt8}
  {ref : HandshakeRef} {others : List EngineOp} {e e' : HandshakeEngine}
  {out : Except HandshakeError HandshakeOutput} {stored : Option StoredKey}

/-- An error after the first checks ends every session that is not `fresh`. -/
theorem handle_spec (h : handle c world ref others e s data = (e', s', out, stored)) :
    Handled c world s data s' out stored ∧ (∃ ops : List EngineOp, e' = ops.foldl HandshakeEngine.perform e ∧
      ∀ op ∈ ops, op ∈ others ∨ op.creates = none) ∧
    (world.canceled = false → 4 ≤ data.length → data.length ≤ maxHandshakePayloadBytes →
      (s.stage ≠ .fresh ∧ ∃ err, out = .error err) ∨ (e.check world.checkedAt ref).1 ≠ .ok () →
      s'.stage = .closed) ∧ (e.sessions.lookup ref = none → (∃ err, out = .error err) ∧ stored = none) := by
  unfold handle at h
  split at h
  next hcn =>
    cases h
    refine ⟨.refused, ⟨[], rfl, fun op hop => absurd hop not_mem_nil⟩, fun hnot => ?_, ?_⟩
    · rw [hcn] at hnot
      cases hnot
    · exact fun _ => ⟨⟨_, rfl⟩, rfl⟩
  · split at h
    next hsz =>
      cases h
      refine ⟨.refused, ⟨[], rfl, fun op hop => absurd hop not_mem_nil⟩, ?_, ?_⟩
      · intro _ hmin hmax
        omega
      · exact fun _ => ⟨⟨_, rfl⟩, rfl⟩
    · split at h
      next hcl =>
        cases h
        refine ⟨.refused, ⟨[], rfl, fun op hop => absurd hop not_mem_nil⟩, ?_, ?_⟩
        · exact fun _ _ _ _ => hcl
        · exact fun _ => ⟨⟨_, rfl⟩, rfl⟩
      next hon =>
        cases hchk : e.check world.checkedAt ref with
        | mk result e₁ =>
          have hper : e.perform (.check world.checkedAt ref) = e₁ := by
            show (e.check world.checkedAt ref).2 = e₁
            rw [hchk]
          rw [hchk] at h
          cases result with
          | error err =>
            cases h
            refine ⟨.ended rfl rfl, ⟨[.check world.checkedAt ref], hper.symm, ?_⟩, ?_, ?_⟩
            · intro op hop
              rw [mem_singleton.mp hop]
              exact .inr rfl
            · exact fun _ _ _ _ => rfl
            · exact fun _ => ⟨⟨_, rfl⟩, rfl⟩
          | ok =>
            have hops : ∀ last : EngineOp, last.creates = none →
                ∃ ops : List EngineOp, (others.foldl perform e₁).perform last =
                  ops.foldl perform e ∧ ∀ op ∈ ops, op ∈ others ∨ op.creates = none := by
              intro last hla
              refine ⟨.check world.checkedAt ref :: (others ++ [last]), ?_, fun op hop => ?_⟩
              · rw [foldl_cons, foldl_append, hper]
                rfl
              · rcases mem_cons.mp hop with rfl | hop
                · exact .inr rfl
                · rcases mem_append.mp hop with hop | hop
                  · exact .inl hop
                  · rw [mem_singleton.mp hop]
                    exact .inr hla
            have hpr : e.sessions.lookup ref ≠ none := by
              intro hno
              unfold check at hchk
              rw [hno] at hchk
              cases hchk
            cases hdis : s.dispatch c world data with
            | mk s₀ result =>
              rw [hdis] at h
              cases result with
              | error err =>
                dsimp only at h
                split at h
                · cases h
                  exact ⟨.ended rfl rfl, hops (.remove ref) rfl, fun _ _ _ _ => rfl,
                    fun hno => absurd hno hpr⟩
                next hfr =>
                  cases h
                  have hfr := not_not.mp hfr
                  obtain ⟨hbef, hdh⟩ := dispatch_error hdis hfr
                  refine ⟨.failed hbef hfr hdh, ?_, ?_, fun hno => absurd hno hpr⟩
                  · refine ⟨.check world.checkedAt ref :: others, ?_, fun op hop => ?_⟩
                    · rw [foldl_cons, hper]
                    · rcases mem_cons.mp hop with rfl | hop
                      · exact .inr rfl
                      · exact .inl hop
                  · rintro _ _ _ (⟨hnot, _⟩ | hnot)
                    · exact absurd hbef hnot
                    · exact absurd rfl hnot
              | ok value =>
                obtain ⟨output, s₁, key⟩ := value
                have hhan := dispatch_ok hon hdis
                have hnoe : ¬ ((s.stage ≠ .fresh ∧ ∃ err : HandshakeError,
                    Except.ok output = .error err) ∨ (Except.ok () : Except HandshakeError Unit) ≠ .ok ()) := by
                  rintro (⟨_, err, herr⟩ | hnot)
                  · cases herr
                  · exact hnot rfl
                dsimp only at h
                split at h
                · cases h
                  exact ⟨hhan, hops (.remove ref) rfl, fun _ _ _ hnot => absurd hnot hnoe,
                    fun hno => absurd hno hpr⟩
                cases h
                exact ⟨hhan, hops (.refresh world.refreshedAt ref) rfl,
                  fun _ _ _ hnot => absurd hnot hnoe, fun hno => absurd hno hpr⟩

end HandshakeSession

inductive HandshakeOp
  | handle (world : HandshakeWorld) (others : List EngineOp) (data : List UInt8)
  | close
  | elsewhere (op : EngineOp)

/-- One session. `issued` are the nonces of the latest `req_pq`, `accepted` is data since then. -/
structure HandshakeRun where
  ref : HandshakeRef
  engine : HandshakeEngine
  session : HandshakeSession
  issued : Option (Int128 × Int128)
  accepted : Option PQInnerData
  stored : List StoredKey
  outputs : List (Except HandshakeError HandshakeOutput)

def startHandshake (ref : HandshakeRef) (engine : HandshakeEngine) : HandshakeRun :=
  ⟨ref, engine, .fresh, none, none, [], []⟩

/-- `NewSession` in an engine that has gone through the sections `before`. -/
def beginHandshake (e : HandshakeEngine) (before : List EngineOp) (now : Time) (ref : HandshakeRef) :
    HandshakeRun :=
  startHandshake ref ((before.foldl HandshakeEngine.perform e).newSession now ref).2

def carriesResult : Except HandshakeError HandshakeOutput → Bool
  | .ok output => output.result.isSome
  | .error _ => false

def issuedAfter (issued : Option (Int128 × Int128)) (data : List UInt8) (s' : HandshakeSession) :
    Except HandshakeError HandshakeOutput → Option (Int128 × Int128)
  | .error _ => issued
  | .ok _ =>
    if leUint32 data = reqPQID ∨ leUint32 data = reqPQMultiID then some (s'.nonce, s'.serverNonce)
    else issued

def acceptedAfter (c : HandshakeCrypto) (world : HandshakeWorld) (s : HandshakeSession)
    (accepted : Option PQInnerData) (data : List UInt8) :
    Except HandshakeError HandshakeOutput → Option PQInnerData
  | .error _ => accepted
  | .ok _ =>
    if leUint32 data = reqPQID ∨ leUint32 data = reqPQMultiID then none
    else if leUint32 data = reqDHParamsID then (s.acceptInnerData c world data).toOption
    else accepted

/-- No temporary key expires at the zero time, which stands for a permanent one. -/
def ExpiryNonzero (c : HandshakeCrypto) (world : HandshakeWorld) (s : HandshakeSession)
    (data : List UInt8) : Prop :=
  s.stage = .pqIssued → leUint32 data = reqDHParamsID →
    ∀ inner ∈ (s.acceptInnerData c world data).toOption, inner.expiresIn ≠ 0 →
      world.issuedAt + inner.expiresIn.toInt * second ≠ zeroTime

instance decidableExpiryNonzero (c : HandshakeCrypto) (world : HandshakeWorld) (s : HandshakeSession)
    (data : List UInt8) : Decidable (ExpiryNonzero c world s data) :=
  inferInstanceAs (Decidable (_ → _ → _))

structure HandshakeSession.Attempt (issued : Option (Int128 × Int128)) (accepted : Option PQInnerData)
    (s : HandshakeSession) : Prop where
  dh : s.dh.isSome ↔ s.stage = .dhIssued
  pqIssued : s.stage = .pqIssued →
    s.temporaryExpiresAt = zeroTime ∧ issued = some (s.nonce, s.serverNonce)
  dhIssued : s.stage = .dhIssued → ∃ inner, accepted = some inner ∧
    issued = some (inner.nonce, inner.serverNonce) ∧
    (s.temporaryExpiresAt = zeroTime → inner.expiresIn = 0)

namespace HandshakeSession

variable {c : HandshakeCrypto} {world : HandshakeWorld} {s s' : HandshakeSession} {data : List UInt8}
  {out : Except HandshakeError HandshakeOutput} {stored : Option StoredKey}
  {issued : Option (Int128 × Int128)} {accepted : Option PQInnerData}

theorem Attempt.idle (hdh : s.dh = none) (hst : s.stage = .fresh ∨ s.stage = .closed) :
    s.Attempt issued accepted := by
  rcases hst with hst | hst
  · refine ⟨?_, ?_, ?_⟩
    · rw [hdh, hst]
      decide
    · rw [hst]
      exact (nomatch ·)
    · rw [hst]
      exact (nomatch ·)
  · refine ⟨?_, ?_, ?_⟩
    · rw [hdh, hst]
      decide
    · rw [hst]
      exact (nomatch ·)
    · rw [hst]
      exact (nomatch ·)

theorem Attempt.handled (h : s.Attempt issued accepted) (hhan : s.Handled c world data s' out stored)
    (hexp : ExpiryNonzero c world s data) :
    s'.Attempt (issuedAfter issued data s' out) (acceptedAfter c world s accepted data out) := by
  cases hhan with
  | refused => exact h
  | failed hbef haft hdh =>
    refine .idle ?_ (.inl haft)
    rcases hdh with hn | hsm
    · exact hn
    · rw [hsm, ← not_isSome_iff_eq_none, h.dh, hbef]
      decide
  | ended hst hdh => exact .idle hdh (.inr hst)
  | pqIssued hop hid hres =>
    refine ⟨by simp, fun _ => ⟨rfl, ?_⟩, (nomatch ·)⟩
    unfold issuedAfter
    rw [if_pos hid]
  | @dhIssued output inner dh hst hid hinn hres =>
    have hnot : ¬ (leUint32 data = reqPQID ∨ leUint32 data = reqPQMultiID) := by
      rw [hid]
      decide
    have hacc : acceptedAfter c world s accepted data (.ok output) = some inner := by
      unfold acceptedAfter
      rw [if_neg hnot, if_pos hid, hinn]
      rfl
    obtain ⟨hz, hiss⟩ := h.pqIssued hst
    obtain ⟨hno, hsrv⟩ := acceptInnerData_ok hinn
    refine ⟨by simp, (nomatch ·), fun _ => ⟨inner, hacc, ?_, fun hei => ?_⟩⟩
    · unfold issuedAfter
      rw [if_neg hnot, hiss, hno, hsrv]
    · by_contra hne
      unfold innerExpiry at hei
      rw [if_pos hne] at hei
      exact hexp hst hid inner (by rw [hinn]; rfl) hne hei
  | @retried output dh hst hid hres =>
    have hnot : ¬ (leUint32 data = reqPQID ∨ leUint32 data = reqPQMultiID) := by
      rw [hid]
      decide
    have hother : leUint32 data ≠ reqDHParamsID := by
      rw [hid]
      decide
    refine ⟨by simp, (nomatch ·), fun _ => ?_⟩
    unfold issuedAfter acceptedAfter
    rw [if_neg hnot, if_neg hnot, if_neg hother]
    exact h.dhIssued hst
  | stored hst hid hres hei => exact .idle rfl (.inr rfl)

end HandshakeSession

namespace HandshakeRun

variable {c : HandshakeCrypto} {r r' : HandshakeRun}

def observe (c : HandshakeCrypto) (r : HandshakeRun) (world : HandshakeWorld) (data : List UInt8)
    (next : HandshakeEngine × HandshakeSession × Except HandshakeError HandshakeOutput × Option StoredKey) :
    HandshakeRun where
  ref := r.ref
  engine := next.1
  session := next.2.1
  issued := issuedAfter r.issued data next.2.1 next.2.2.1
  accepted := acceptedAfter c world r.session r.accepted data next.2.2.1
  stored := r.stored ++ next.2.2.2.toList
  outputs := r.outputs ++ [next.2.2.1]

/-- No other section makes a session at the address of this one. -/
def step (c : HandshakeCrypto) (r : HandshakeRun) : HandshakeOp → Option HandshakeRun
  | .handle world others data =>
    if ∀ op ∈ others, op.creates ≠ some r.ref then
      some (r.observe c world data (r.session.handle c world r.ref others r.engine data))
    else none
  | .close =>
    let next := r.session.close r.ref r.engine
    some { r with engine := next.1, session := next.2 }
  | .elsewhere op => if op.creates ≠ some r.ref then some { r with engine := r.engine.perform op } else none

def ExpiresNonzero (c : HandshakeCrypto) (r : HandshakeRun) : HandshakeOp → Prop
  | .handle world _ data => ExpiryNonzero c world r.session data
  | _ => True

instance decidableExpiresNonzero (c : HandshakeCrypto) (r : HandshakeRun) :
    ∀ op, Decidable (r.ExpiresNonzero c op)
  | .handle world _ data => inferInstanceAs (Decidable (ExpiryNonzero c world r.session data))
  | .close => isTrue trivial
  | .elsewhere _ => isTrue trivial

structure Sound (n : Nat) (r : HandshakeRun) : Prop where
  bounded : r.engine.Bounded n
  attempt : r.session.Attempt r.issued r.accepted
  result : r.outputs.filter carriesResult = [] ∨
    r.session.stage = .closed ∧ (r.outputs.filter carriesResult).length = 1

def Dead (r : HandshakeRun) : Prop :=
  r.session.stage = .closed ∨ r.engine.sessions.lookup r.ref = none

variable {data : List UInt8} {world : HandshakeWorld} {out : Except HandshakeError HandshakeOutput}
  {s' : HandshakeSession} {stored : Option StoredKey} {n : Nat} {op : HandshakeOp}

theorem step_handle {others : List EngineOp} (hst : r.step c (.handle world others data) = some r') :
    (∀ op ∈ others, op.creates ≠ some r.ref) ∧ ∃ e' s' out stored,
      r.session.handle c world r.ref others r.engine data = (e', s', out, stored) ∧
      r' = r.observe c world data (e', s', out, stored) := by
  dsimp only [step] at hst
  split at hst
  next hoth =>
    cases hst
    exact ⟨hoth, _, _, _, _, rfl, rfl⟩
  · cases hst

theorem step_elsewhere {op : EngineOp} (hst : r.step c (.elsewhere op) = some r') :
    op.creates ≠ some r.ref ∧ r' = { r with engine := r.engine.perform op } := by
  dsimp only [step] at hst
  split at hst
  next hother =>
    cases hst
    exact ⟨hother, rfl⟩
  · cases hst

theorem carriesResult_ok (output : HandshakeOutput) :
    carriesResult (.ok output) = output.result.isSome := rfl

theorem result_handled (hhan : s.Handled c world data s' out stored) :
    (carriesResult out = false ∧ (s.stage = .closed → s'.stage = .closed)) ∨
      carriesResult out = true ∧ s.stage ≠ .closed ∧ s'.stage = .closed := by
  cases hhan with
  | refused => exact .inl ⟨rfl, fun h => h⟩
  | failed hbef haft hdh =>
    refine .inl ⟨rfl, fun h => ?_⟩
    rw [hbef] at h
    cases h
  | ended hst hdh => exact .inl ⟨rfl, fun _ => hst⟩
  | pqIssued hop hid hres =>
    refine .inl ⟨?_, fun h => absurd h hop⟩
    rw [carriesResult_ok, hres]
    rfl
  | dhIssued hst hid hinn hres =>
    refine .inl ⟨?_, fun h => ?_⟩
    · rw [carriesResult_ok, hres]
      rfl
    · rw [hst] at h
      cases h
  | retried hst hid hres =>
    refine .inl ⟨?_, fun h => ?_⟩
    · rw [carriesResult_ok, hres]
      rfl
    · rw [hst] at h
      cases h
  | stored hst hid hres hexp =>
    refine .inr ⟨hres, ?_, rfl⟩
    rw [hst]
    decide

theorem observe_sound (h : r.Sound n)
    (hbd : e'.Bounded n) (hhan : r.session.Handled c world data s' out stored)
    (hexp : ExpiryNonzero c world r.session data) :
    (r.observe c world data (e', s', out, stored)).Sound n := by
  refine ⟨hbd, h.attempt.handled hhan hexp, ?_⟩
  show (r.outputs ++ [out]).filter carriesResult = [] ∨
    s'.stage = .closed ∧ ((r.outputs ++ [out]).filter carriesResult).length = 1
  rw [filter_append]
  rcases result_handled hhan with ⟨hno, hsty⟩ | ⟨hso, hop, hcl⟩
  · rw [filter_cons_of_neg (by rw [hno]; decide), filter_nil, append_nil]
    rcases h.result with hemp | ⟨hst, hone⟩
    · exact .inl hemp
    · exact .inr ⟨hsty hst, hone⟩
  rw [filter_cons_of_pos hso, filter_nil]
  rcases h.result with hemp | ⟨hst, _⟩
  · rw [hemp]
    exact .inr ⟨hcl, rfl⟩
  · exact absurd hst hop

theorem step_sound (r : HandshakeRun) (op : HandshakeOp) (r' : HandshakeRun) (h : r.Sound n)
    (hcd : r.ExpiresNonzero c op) (hst : r.step c op = some r') : r'.Sound n := by
  cases op with
  | handle world others data =>
    obtain ⟨_, e', s', out, stored, hhnd, rfl⟩ := step_handle hst
    obtain ⟨hhan, ⟨ops, rfl, _⟩, _⟩ := handle_spec hhnd
    exact observe_sound h (performAll_bounded h.bounded ops) hhan hcd
  | close =>
    cases hst
    have hbd := perform_bounded h.bounded (.remove r.ref)
    have hcl : (r.session.close r.ref r.engine).2.stage = .closed := by
      unfold close
      split
      · rfl
      next hnot => exact not_not.mp hnot
    have hdh : (r.session.close r.ref r.engine).2.dh = none := by
      unfold close
      split
      · rfl
      next hnot =>
        rw [← not_isSome_iff_eq_none, h.attempt.dh, not_not.mp hnot]
        decide
    refine ⟨hbd, .idle hdh (.inr hcl), ?_⟩
    rcases h.result with hemp | ⟨_, hone⟩
    · exact .inl hemp
    · exact .inr ⟨hcl, hone⟩
  | elsewhere op =>
    obtain ⟨_, rfl⟩ := step_elsewhere hst
    exact ⟨perform_bounded h.bounded op, h.attempt, h.result⟩

theorem handled_closed (hhan : s.Handled c world data s' out stored) (hcl : s.stage = .closed) :
    (∃ err, out = .error err) ∧ stored = none ∧ s'.stage = .closed := by
  cases hhan with
  | refused => exact ⟨⟨_, rfl⟩, rfl, hcl⟩
  | ended hst hdh => exact ⟨⟨_, rfl⟩, rfl, hst⟩
  | pqIssued hop hid hres => exact absurd hcl hop
  | failed hbef haft hdh => exact nomatch hbef.symm.trans hcl
  | dhIssued hst hid hinn hres => exact nomatch hst.symm.trans hcl
  | retried hst hid hres => exact nomatch hst.symm.trans hcl
  | stored hst hid hres hexp => exact nomatch hst.symm.trans hcl

def Silent (r r' : HandshakeRun) : Prop :=
  r'.stored = r.stored ∧ ∃ outs, r'.outputs = r.outputs ++ outs ∧ ∀ out ∈ outs, ∃ err, out = .error err

theorem step_dead (hd : r.Dead) (hsp : r.step c op = some r') : r'.Dead ∧ r.Silent r' := by
  cases op with
  | handle world others data =>
    obtain ⟨hoth, e', s', out, stored, hhnd, rfl⟩ := step_handle hsp
    obtain ⟨hhan, ⟨ops, rfl, hops⟩, _, habs⟩ := handle_spec hhnd
    have hcs : ∀ op ∈ ops, op.creates ≠ some r.ref := by
      intro op hop
      rcases hops op hop with hmem | hno
      · exact hoth op hmem
      · rw [hno]
        exact (nomatch ·)
    obtain ⟨hd', ⟨err, rfl⟩, rfl⟩ : (s'.stage = .closed ∨
        (ops.foldl perform r.engine).sessions.lookup r.ref = none) ∧
        (∃ err, out = .error err) ∧ stored = none := by
      rcases hd with hcl | hno
      · obtain ⟨herr, hstd, hst⟩ := handled_closed hhan hcl
        exact ⟨.inl hst, herr, hstd⟩
      · obtain ⟨herr, hstd⟩ := habs hno
        exact ⟨.inr (performAll_absent hno hcs), herr, hstd⟩
    refine ⟨hd', append_nil _, [.error err], rfl, fun out hout => ?_⟩
    rw [mem_singleton.mp hout]
    exact ⟨err, rfl⟩
  | close =>
    cases hsp
    refine ⟨?_, rfl, [], (append_nil _).symm, fun out hout => absurd hout not_mem_nil⟩
    exact .inr (lookup_erase _ _)
  | elsewhere op =>
    obtain ⟨hother, rfl⟩ := step_elsewhere hsp
    refine ⟨?_, rfl, [], (append_nil _).symm, fun out hout => absurd hout not_mem_nil⟩
    rcases hd with hcl | hno
    · exact .inl hcl
    · exact .inr (perform_absent hno hother)

theorem exec_dead (hd : r.Dead) {later : List HandshakeOp} (hrun : exec (step c) r later = some r') :
    r.Silent r' := by
  have hst : r.Dead ∧ r.Silent r :=
    ⟨hd, rfl, [], (append_nil _).symm, fun out hout => absurd hout not_mem_nil⟩
  have hsty : ∀ mid op next, mid.Dead ∧ r.Silent mid → mid.step c op = some next →
      next.Dead ∧ r.Silent next := by
    intro mid op next h hsp
    obtain ⟨hmid, hstd, outs, hot, her⟩ := h
    obtain ⟨hnx, hstd', outs', hot', her'⟩ := step_dead hmid hsp
    refine ⟨hnx, hstd'.trans hstd, outs ++ outs', ?_, fun out hout => ?_⟩
    · rw [hot', hot, append_assoc]
    · rcases mem_append.mp hout with hout | hout
      · exact her out hout
      · exact her' out hout
  have hend : r'.Dead ∧ r.Silent r' := exec_inductive hsty hst hrun
  exact hend.2

/-- A result, a `Close`, the end of the session's time, or a late error after `fresh`. -/
inductive Ends (r : HandshakeRun) : HandshakeOp → HandshakeRun → Prop
  | result {op : HandshakeOp} {r' : HandshakeRun} {out : Except HandshakeError HandshakeOutput} :
      r'.outputs = r.outputs ++ [out] → carriesResult out = true → Ends r op r'
  | close {r' : HandshakeRun} : Ends r .close r'
  | expired {world : HandshakeWorld} {others : List EngineOp} {data : List UInt8} {r' : HandshakeRun} :
      world.canceled = false → 4 ≤ data.length → data.length ≤ maxHandshakePayloadBytes →
      (r.engine.check world.checkedAt r.ref).1 = .error .expired → Ends r (.handle world others data) r'
  | dropped {op : HandshakeOp} {r' : HandshakeRun} :
      r'.engine.sessions.lookup r.ref = none → Ends r op r'
  | error {world : HandshakeWorld} {others : List EngineOp} {data : List UInt8} {r' : HandshakeRun}
      {err : HandshakeError} : world.canceled = false → 4 ≤ data.length →
      data.length ≤ maxHandshakePayloadBytes → r.session.stage ≠ .fresh →
      r'.outputs = r.outputs ++ [.error err] → Ends r (.handle world others data) r'

theorem Ends.dead (h : r.Ends op r') (hsp : r.step c op = some r') : r'.Dead := by
  cases op with
  | handle world others data =>
    obtain ⟨_, e', s', out, stored, hhnd, rfl⟩ := step_handle hsp
    obtain ⟨hhan, _, hclo, _⟩ := handle_spec hhnd
    cases h with
    | @result _ _ out' hot hres =>
      obtain rfl : out = out' := by
        have hot : r.outputs ++ [out] = r.outputs ++ [out'] := hot
        exact head_eq_of_cons_eq (append_cancel_left hot)
      rcases result_handled hhan with ⟨hno, _⟩ | ⟨_, _, hcl⟩
      · rw [hno] at hres
        cases hres
      · exact .inl hcl
    | expired hcn hmin hmax hchk =>
      refine .inl (hclo hcn hmin hmax (.inr ?_))
      rw [hchk]
      exact (nomatch ·)
    | dropped hno => exact .inr hno
    | @error _ _ _ _ err hcn hmin hmax hst hot =>
      obtain rfl : out = .error err := by
        have hot : r.outputs ++ [out] = r.outputs ++ [.error err] := hot
        exact head_eq_of_cons_eq (append_cancel_left hot)
      exact .inl (hclo hcn hmin hmax (.inl ⟨hst, err, rfl⟩))
  | close =>
    cases hsp
    exact .inr (lookup_erase _ _)
  | elsewhere op =>
    obtain ⟨_, rfl⟩ := step_elsewhere hsp
    cases h with
    | @result _ _ out hot hres =>
      have hot : r.outputs = r.outputs ++ [out] := hot
      simp at hot
    | dropped hno => exact .inr hno

theorem breaks_permanent (hsp : r.step c op = some r')
    (hbre : ¬ r.ExpiresNonzero c op) (hiss : r'.session.stage = .dhIssued) :
    ∃ inner, r'.accepted = some inner ∧ inner.expiresIn ≠ 0 ∧ ∀ op' r'' key,
      r'.step c op' = some r'' → r''.stored = r'.stored ++ [key] → key.expires = none := by
  cases op with
  | close => exact absurd trivial hbre
  | elsewhere op => exact absurd trivial hbre
  | handle world others data =>
    obtain ⟨_, e', s', out, stored, hhnd, rfl⟩ := step_handle hsp
    have hhan := (handle_spec hhnd).1
    have hiss : s'.stage = .dhIssued := hiss
    obtain ⟨hst, hid, inner, hinn, hne, hz⟩ : r.session.stage = .pqIssued ∧
        leUint32 data = reqDHParamsID ∧ ∃ inner ∈ (r.session.acceptInnerData c world data).toOption,
          inner.expiresIn ≠ 0 ∧ world.issuedAt + inner.expiresIn.toInt * second = zeroTime := by
      simpa [ExpiresNonzero, ExpiryNonzero] using hbre
    obtain ⟨hexp, hacc⟩ : s'.temporaryExpiresAt = zeroTime ∧
        acceptedAfter c world r.session r.accepted data out = some inner := by
      cases hhan with
      | refused => exact nomatch hiss.symm.trans hst
      | failed hbef haft hdh => exact nomatch hiss.symm.trans haft
      | ended hcl hdh => exact nomatch hiss.symm.trans hcl
      | pqIssued hop hid' hres => exact nomatch hiss
      | retried hbef hid' hres => exact nomatch hbef.symm.trans hst
      | stored hbef hid' hres hexp => exact nomatch hbef.symm.trans hst
      | dhIssued hbef hid' hinn' hres =>
        rw [hinn'] at hinn
        cases hinn
        constructor
        · dsimp only [innerExpiry]
          rw [if_pos hne]
          exact hz
        · unfold acceptedAfter
          rw [if_neg (by rw [hid]; decide), if_pos hid, hinn']
          rfl
    refine ⟨inner, hacc, hne, fun op' r'' key hnx hkey => ?_⟩
    cases op' with
    | close =>
      cases hnx
      exact absurd hkey (by simp)
    | elsewhere op' =>
      obtain ⟨_, rfl⟩ := step_elsewhere hnx
      exact absurd hkey (by simp)
    | handle world' others' data' =>
      obtain ⟨_, e'', s'', out', stored', hhnd', rfl⟩ := step_handle hnx
      have hkey := append_cancel_left hkey
      have hhan' := (handle_spec hhnd').1
      cases hhan' with
      | @stored output key' hst' hid' hres hexp' =>
        cases hkey
        rw [hexp']
        exact if_pos hexp
      | _ => cases hkey

/-- What holds in a handshake's states, at its next step and in the runs after it. -/
structure Safe (c : HandshakeCrypto) (n : Nat) (r : HandshakeRun) : Prop where
  once : (r.outputs.filter carriesResult).length ≤ 1
  dh : r.session.dh.isSome ↔ r.session.stage = .dhIssued
  bounded : r.engine.sessions.keys.length ≤ n
  stored : ∀ op r', r.step c op = some r' →
    r'.stored = r.stored ∨ ∃ key world others data inner, r'.stored = r.stored ++ [key] ∧
      op = .handle world others data ∧ leUint32 data = setClientDHParamsID ∧
      r.session.stage = .dhIssued ∧ r.accepted = some inner ∧
      r.issued = some (inner.nonce, inner.serverNonce) ∧ (key.expires = none → inner.expiresIn = 0)
  restarted : ∀ world others data r' output, r.step c (.handle world others data) = some r' →
    leUint32 data = reqPQID ∨ leUint32 data = reqPQMultiID →
    r'.outputs = r.outputs ++ [.ok output] →
    r'.session.dh = none ∧ r'.session.temporaryExpiresAt = zeroTime ∧ r'.accepted = none
  ended : ∀ op r', r.step c op = some r' → r.Ends op r' →
    ∀ later r'', exec (step c) r' later = some r'' → r'.Silent r''

theorem Sound.safe (h : r.Sound n) : r.Safe c n where
  once := by
    rcases h.result with hemp | ⟨_, hone⟩
    · rw [hemp]
      exact Nat.zero_le 1
    · exact le_of_eq hone
  dh := h.attempt.dh
  bounded := h.bounded.length
  stored op r' hsp := by
    cases op with
    | handle world others data =>
      obtain ⟨_, e', s', out, stored, hhnd, rfl⟩ := step_handle hsp
      have hhan := (handle_spec hhnd).1
      cases hhan with
      | @stored output key hst hid hres hexp =>
        obtain ⟨inner, hacc, hiss, hpr⟩ := h.attempt.dhIssued hst
        refine .inr ⟨key, world, others, data, inner, rfl, rfl, hid, hst, hacc, hiss, ?_⟩
        intro hno
        apply hpr
        by_contra hnon
        rw [hexp, if_neg hnon] at hno
        cases hno
      | _ => exact .inl (append_nil _)
    | close =>
      cases hsp
      exact .inl rfl
    | elsewhere op =>
      obtain ⟨_, rfl⟩ := step_elsewhere hsp
      exact .inl rfl
  restarted world others data r' output hsp hid hout := by
    obtain ⟨_, e', s', out, stored, hhnd, rfl⟩ := step_handle hsp
    have hhan := (handle_spec hhnd).1
    obtain rfl : out = .ok output := by
      have hout : r.outputs ++ [out] = r.outputs ++ [.ok output] := hout
      exact head_eq_of_cons_eq (append_cancel_left hout)
    have hnx : ∀ x : UInt32, x = reqDHParamsID ∨ x = setClientDHParamsID →
        ¬ (x = reqPQID ∨ x = reqPQMultiID) := by
      rintro x (rfl | rfl) <;> decide
    cases hhan with
    | pqIssued hop hid' hres =>
      refine ⟨rfl, rfl, ?_⟩
      dsimp only [observe]
      unfold acceptedAfter
      rw [if_pos hid]
    | dhIssued hst hid' hinn hres => exact absurd hid (hnx _ (.inl hid'))
    | retried hst hid' hres => exact absurd hid (hnx _ (.inr hid'))
    | stored hst hid' hres hexp => exact absurd hid (hnx _ (.inr hid'))
  ended op r' hst hen later r'' hrun := exec_dead (hen.dead hst) hrun

theorem start_sound (h : e.Bounded n) : (startHandshake ref e).Sound n :=
  ⟨h, .idle rfl (.inl rfl), .inl rfl⟩

end HandshakeRun

theorem newHandshakeEngine_bounded {capacity ttl : Int}
    (h : newHandshakeEngine capacity ttl = .ok e) : e.Bounded e.capacity := by
  unfold newHandshakeEngine at h
  split at h
  · cases h
  cases h
  exact ⟨rfl, Nat.zero_le _⟩

/-- All calls on a session of a shared engine, as long as no temporary key would expire at the zero
time. One that does is stored as a permanent key. -/
theorem handshake_safety (c : HandshakeCrypto) (capacity ttl : Int) (e : HandshakeEngine)
    (hnew : newHandshakeEngine capacity ttl = .ok e) (before : List EngineOp) (now : Time)
    (ref : HandshakeRef) (ops : List HandshakeOp) (r : HandshakeRun)
    (hrun : exec (HandshakeRun.step c) (beginHandshake e before now ref) ops = some r)
    (hcond : Meets (HandshakeRun.step c) (HandshakeRun.ExpiresNonzero c)
      (beginHandshake e before now ref) ops) :
    r.Safe c e.capacity ∧ ∀ op r', r.step c op = some r' → ¬ r.ExpiresNonzero c op →
      r'.session.stage = .dhIssued → ∃ inner, r'.accepted = some inner ∧ inner.expiresIn ≠ 0 ∧
        ∀ op' r'' key, r'.step c op' = some r'' → r''.stored = r'.stored ++ [key] → key.expires = none := by
  have hbef := performAll_bounded (newHandshakeEngine_bounded hnew) before
  have hbd := perform_bounded hbef (.newSession now ref)
  have hsd := exec_invariant HandshakeRun.step_sound (HandshakeRun.start_sound hbd) hcond hrun
  exact ⟨hsd.safe, fun op r' hst hbre hiss =>
    HandshakeRun.breaks_permanent hst hbre hiss⟩

/-- A hash of zeros, the identity as cipher, and a client that asks for a temporary key. -/
def plainCrypto : HandshakeCrypto where
  sha1 _ := List.replicate 20 0
  sha1_length _ := rfl
  aes _ := Equiv.refl _
  probablyPrime _ := true
  decryptRSA _ _ := some (uint32Bytes pqInnerDataTempDCID ++ tlBytes advertisedPQ ++
    tlBytes (beBytes 1229739323) ++ tlBytes (beBytes 1402015859) ++ List.replicate 64 0 ++
    leBytes 4 2 ++ leBytes 4 3600)

def stillWorld (now : Time) : HandshakeWorld where
  canceled := false
  checkedAt := now
  serverNonce := some (Vector.replicate 16 0)
  serverKeys := some [some 1]
  serverKey _ := some (some 0)
  supportsTemporary := true
  issuedAt := now
  draw _ := some 1260
  serverTime := now
  padding k := some (List.replicate k 0)
  storedAt := now
  storeError := none
  refreshedAt := now

/-- The three requests of a client with exponent 1260 and zero nonces. -/
def plainRequests : List (List UInt8) :=
  [uint32Bytes reqPQMultiID ++ List.replicate 16 0,
    uint32Bytes reqDHParamsID ++ List.replicate 32 0 ++ tlBytes (beBytes 1229739323) ++
      tlBytes (beBytes 1402015859) ++ leBytes 8 1 ++ tlBytes [0],
    uint32Bytes setClientDHParamsID ++ List.replicate 32 0 ++
      tlBytes (List.replicate 20 0 ++ uint32Bytes clientDHInnerDataID ++
        List.replicate 40 0 ++ tlBytes (beBytes (3 ^ 1260)) ++ List.replicate 4 0)]

def plainOps (now : Time) : List HandshakeOp :=
  plainRequests.map fun data => .handle (stillWorld now) [] data

def plainEngine : HandshakeEngine := ⟨defaultCapacity, defaultTTL, ∅⟩

theorem handshake_safety_temporary : ∃ r,
    exec (HandshakeRun.step plainCrypto) (beginHandshake plainEngine [] 0 0) (plainOps 0) = some r ∧
    r.stored.map (·.expires) = [some (3600 * second)] ∧ r.Safe plainCrypto 4096 := by
  obtain ⟨hvl, hcd⟩ : (exec (HandshakeRun.step plainCrypto) (beginHandshake plainEngine [] 0 0)
        (plainOps 0)).map (fun r => r.stored.map (·.expires)) = some [some (3600 * second)] ∧
      Meets (HandshakeRun.step plainCrypto) (HandshakeRun.ExpiresNonzero plainCrypto)
        (beginHandshake plainEngine [] 0 0) (plainOps 0) := by
    decide +kernel
  obtain ⟨r, hrun, hstd⟩ := map_eq_some_iff.mp hvl
  exact ⟨r, hrun, hstd, (handshake_safety plainCrypto 0 0 plainEngine rfl [] 0 0 (plainOps 0) r hrun hcd).1⟩

/-- At 3600 seconds before the zero time the same client's key is stored as a permanent one. -/
theorem zero_expiry_stored_permanent : ∃ r inner key,
    exec (HandshakeRun.step plainCrypto) (beginHandshake plainEngine [] (zeroTime - 3600 * second) 0)
      (plainOps (zeroTime - 3600 * second)) = some r ∧
    r.accepted = some inner ∧ inner.expiresIn = 3600 ∧ r.stored = [key] ∧ key.expires = none := by
  have hvl : (exec (HandshakeRun.step plainCrypto)
      (beginHandshake plainEngine [] (zeroTime - 3600 * second) 0)
      (plainOps (zeroTime - 3600 * second))).map
        (fun r => (r.accepted.map (·.expiresIn), r.stored.map (·.expires))) =
      some (some 3600, [none]) := by
    decide +kernel
  obtain ⟨r, hrun, hvl⟩ := map_eq_some_iff.mp hvl
  obtain ⟨hacc, hstd⟩ := Prod.mk.inj hvl
  obtain ⟨inner, hacc, hexp⟩ := map_eq_some_iff.mp hacc
  obtain ⟨key, rest, hstd, hkey, hrs⟩ := map_eq_cons_iff.mp hstd
  rw [map_eq_nil_iff.mp hrs] at hstd
  exact ⟨r, inner, key, hrun, hacc, hexp, hstd, hkey⟩

end Tlrpc
