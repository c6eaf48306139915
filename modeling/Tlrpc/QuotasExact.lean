import Tlrpc.ConnectionQuotas

namespace Tlrpc

open List Function Counters ConnectionState QuotaServer AList Option

def fromIP (ip : String) (state : ConnectionState) : Nat := if state.remoteIP = ip then 1 else 0

def countedFor (authKeyID : Int64) (state : ConnectionState) : Nat :=
  if state.authCounted = true ∧ state.authKeyID = authKeyID then 1 else 0

def sessionCount (state : ConnectionState) : Nat := state.activeSessions.length

structure IPCounted (byIP : Counters String) (states : List ConnRef)
    (memory : ConnRef → ConnectionState) : Prop where
  exact : ∀ ip, ip ≠ "" →
    Counters.count byIP ip = total (fun c => fromIP ip (memory c)) states
  none : Counters.count byIP "" = 0

def AuthCounted (byAuth : Counters Int64) (states : List ConnRef)
    (memory : ConnRef → ConnectionState) : Prop :=
  ∀ authKeyID, Counters.count byAuth authKeyID =
    total (fun c => countedFor authKeyID (memory c)) states

def Identified (byID : AList (fun _ : UInt64 => ConnRef)) (states : List ConnRef)
    (memory : ConnRef → ConnectionState) : Prop :=
  ∀ id c, byID.lookup id = some c → c ∈ states ∧ (memory c).id = id

variable {state : ConnectionState} {memory : ConnRef → ConnectionState} {counter : Int × Nat}
  {bounds : Int × Int}

section

variable {byID : AList (fun _ : UInt64 => ConnRef)} {byIP : Counters String} {byAuth : Counters Int64} {states : List ConnRef}
  {memory memory' : ConnRef → ConnectionState} {c : ConnRef}

section

variable (h : IPCounted byIP states memory)
include h

theorem IPCounted.add (hc : c ∉ states) (state : ConnectionState) :
    IPCounted (if state.remoteIP ≠ "" then Counters.raise byIP state.remoteIP else byIP)
      (states ++ [c]) (update memory c state) := by
  refine ⟨fun ip hip => ?_, ?_⟩
  · have htot : total (fun x => fromIP ip (update memory c state x)) (states ++ [c]) =
        total (fun x => fromIP ip (memory x)) states + fromIP ip state := by
      rw [total_append, total_update_of_not_mem hc, total_cons, update_self]
      rfl
    have hexa := h.exact ip hip
    by_cases hno : state.remoteIP = ""
    · rw [if_neg (not_not_intro hno)]
      have hother : fromIP ip state = 0 := if_neg (fun heq => hip (heq.symm.trans hno))
      omega
    rw [if_pos hno, count_raise]
    by_cases heq : ip = state.remoteIP
    · have hone : fromIP ip state = 1 := if_pos heq.symm
      rw [if_pos heq, ← heq]
      omega
    have hz : fromIP ip state = 0 := if_neg (Ne.symm heq)
    rw [if_neg heq]
    omega
  · split
    next hso =>
      rw [count_raise, if_neg (Ne.symm hso)]
      exact h.none
    · exact h.none

theorem IPCounted.positive (hc : c ∈ states)
    (hip : (memory c).remoteIP ≠ "") : 1 ≤ Counters.count byIP (memory c).remoteIP := by
  obtain ⟨i, hi⟩ := mem_iff_getElem?.mp hc
  have hle := le_total (fun x => fromIP (memory c).remoteIP (memory x)) hi
  have hone : fromIP (memory c).remoteIP (memory c) = 1 := if_pos rfl
  rw [h.exact _ hip]
  omega

theorem IPCounted.erase (hc : c ∈ states) (hnd : states.Nodup)
    (hmem : ∀ x, x ≠ c → memory' x = memory x) : IPCounted
      (if (memory c).remoteIP ≠ "" then Counters.lower byIP (memory c).remoteIP else byIP)
      (states.erase c) memory' := by
  have hoth : ∀ weight : ConnectionState → Nat,
      total (fun x => weight (memory' x)) (states.erase c) + weight (memory c) =
        total (fun x => weight (memory x)) states := by
    intro weight
    rw [← total_erase (fun x => weight (memory x)) hc]
    congr 1
    refine total_congr fun x hx => ?_
    rw [hmem x (hnd.mem_erase_iff.mp hx).1]
  refine ⟨fun ip hip => ?_, ?_⟩
  · have htot := hoth (fromIP ip)
    have hexa := h.exact ip hip
    by_cases hno : (memory c).remoteIP = ""
    · rw [if_neg (not_not_intro hno)]
      have hother : fromIP ip (memory c) = 0 := if_neg (fun heq => hip (heq.symm.trans hno))
      omega
    rw [if_pos hno, count_lower (h.positive hc hno)]
    by_cases heq : ip = (memory c).remoteIP
    · have hone : fromIP ip (memory c) = 1 := if_pos heq.symm
      rw [if_pos heq, ← heq]
      omega
    have hz : fromIP ip (memory c) = 0 := if_neg (Ne.symm heq)
    rw [if_neg heq]
    omega
  · split
    next hso =>
      rw [count_lower (h.positive hc hso), if_neg (Ne.symm hso)]
      exact h.none
    · exact h.none

theorem IPCounted.congr
    (hmem : ∀ x, (memory' x).remoteIP = (memory x).remoteIP) : IPCounted byIP states memory' := by
  refine ⟨fun ip hip => ?_, h.none⟩
  rw [h.exact ip hip]
  congr 1
  refine total_congr fun x _ => ?_
  unfold fromIP
  rw [hmem]

end

section

variable (h : AuthCounted byAuth states memory)
include h

theorem AuthCounted.congr (hmem : ∀ x, (memory' x).authCounted = (memory x).authCounted ∧
      (memory' x).authKeyID = (memory x).authKeyID) : AuthCounted byAuth states memory' := by
  intro authKeyID
  rw [h authKeyID]
  congr 1
  refine total_congr fun x _ => ?_
  unfold countedFor
  rw [(hmem x).1, (hmem x).2]

theorem AuthCounted.add (hc : c ∉ states) (hsta : state.authCounted = false) :
    AuthCounted byAuth (states ++ [c]) (update memory c state) := by
  intro authKeyID
  have hz : countedFor authKeyID state = 0 := by
    unfold countedFor
    rw [if_neg (by simp [hsta])]
  rw [total_append, total_update_of_not_mem hc, total_cons, update_self, hz, h authKeyID]
  rfl

theorem AuthCounted.positive (hc : c ∈ states)
    (hctd : (memory c).authCounted = true) : 1 ≤ Counters.count byAuth (memory c).authKeyID := by
  obtain ⟨i, hi⟩ := mem_iff_getElem?.mp hc
  have hle := le_total (fun x => countedFor (memory c).authKeyID (memory x)) hi
  have hone : countedFor (memory c).authKeyID (memory c) = 1 := if_pos ⟨hctd, rfl⟩
  rw [h]
  omega

theorem AuthCounted.erase (hc : c ∈ states)
    (hnd : states.Nodup) (hnon : (memory c).authCounted = true → (memory c).authKeyID ≠ 0)
    (hmem : ∀ x, x ≠ c → memory' x = memory x) : AuthCounted
      (if (memory c).authCounted = true ∧ (memory c).authKeyID ≠ 0 then
        Counters.lower byAuth (memory c).authKeyID else byAuth) (states.erase c) memory' := by
  intro authKeyID
  have htot : total (fun x => countedFor authKeyID (memory' x)) (states.erase c) +
      countedFor authKeyID (memory c) = total (fun x => countedFor authKeyID (memory x)) states := by
    rw [← total_erase (fun x => countedFor authKeyID (memory x)) hc]
    congr 1
    refine total_congr fun x hx => ?_
    rw [hmem x (hnd.mem_erase_iff.mp hx).1]
  have hexa := h authKeyID
  by_cases hctd : (memory c).authCounted = true
  · rw [if_pos ⟨hctd, hnon hctd⟩, count_lower (h.positive hc hctd)]
    by_cases heq : authKeyID = (memory c).authKeyID
    · have hone : countedFor authKeyID (memory c) = 1 := if_pos ⟨hctd, heq.symm⟩
      rw [if_pos heq, ← heq]
      omega
    have hz : countedFor authKeyID (memory c) = 0 := if_neg (fun hbt => heq hbt.2.symm)
    rw [if_neg heq]
    omega
  · have hz : countedFor authKeyID (memory c) = 0 := if_neg (fun hbt => hctd hbt.1)
    rw [if_neg (fun hbt => hctd hbt.1)]
    omega

theorem AuthCounted.raise (hc : c ∈ states) (hnd : states.Nodup) (hfr : (memory c).authCounted = false)
    {key : Int64} (hctd : state.authCounted = true) (hkey : state.authKeyID = key) :
    AuthCounted (Counters.raise byAuth key) states (update memory c state) := by
  subst hkey
  intro authKeyID
  have htot := total_update hnd hc (countedFor authKeyID) memory state
  have hbef : countedFor authKeyID (memory c) = 0 := by
    unfold countedFor
    rw [if_neg (by simp [hfr])]
  have hexa := h authKeyID
  rw [count_raise]
  by_cases heq : authKeyID = state.authKeyID
  · have hone : countedFor authKeyID state = 1 := if_pos ⟨hctd, heq.symm⟩
    rw [if_pos heq, ← heq]
    omega
  have hz : countedFor authKeyID state = 0 := if_neg (fun hbt => heq hbt.2.symm)
  rw [if_neg heq]
  omega

end

section

variable (h : Identified byID states memory)
include h

theorem Identified.congr
    (hmem : ∀ x ∈ states, (memory' x).id = (memory x).id) : Identified byID states memory' :=
  fun id x hlk =>
    have hx := h id x hlk
    ⟨hx.1, (hmem x hx.1).trans hx.2⟩

theorem Identified.insert (hc : c ∉ states) (state : ConnectionState) :
    Identified (byID.insert state.id c) (states ++ [c]) (update memory c state) := by
  intro id x hlk
  by_cases hid : id = state.id
  · rw [hid, lookup_insert] at hlk
    cases hlk
    rw [update_self]
    exact ⟨mem_append_right _ (mem_singleton_self c), hid.symm⟩
  rw [lookup_insert_ne hid] at hlk
  obtain ⟨hx, hsm⟩ := h id x hlk
  rw [update_of_ne (fun heq : x = c => hc (heq ▸ hx))]
  exact ⟨mem_append_left _ hx, hsm⟩

theorem Identified.erase (hmem : ∀ x, x ≠ c → memory' x = memory x) :
    Identified (byID.erase (memory c).id) (states.erase c) memory' := by
  intro id x hlk
  have hid : id ≠ (memory c).id := by
    intro heq
    rw [heq, lookup_erase] at hlk
    cases hlk
  rw [lookup_erase_ne hid] at hlk
  obtain ⟨hx, hsm⟩ := h id x hlk
  have hother : x ≠ c := by
    intro heq
    exact hid (by rw [← hsm, heq])
  exact ⟨(mem_erase_of_ne hother).mpr hx, by rw [hmem x hother]; exact hsm⟩

end

end

namespace QuotaServer

/-- The counters are those of the connections admitted and not finished. -/
structure Exact (s : QuotaServer) : Prop where
  nodup : s.connectionStates.Nodup
  byID : Identified s.connectionByID s.connectionStates s.memory
  byIP : IPCounted s.activeConnectionsByIP s.connectionStates s.memory
  ipLimit : 0 < s.maxConnectionsPerIP →
    ∀ ip, Counters.count s.activeConnectionsByIP ip ≤ s.maxConnectionsPerIP
  byAuth : AuthCounted s.activeConnectionsByAuth s.connectionStates s.memory
  authLimit : 0 < s.maxConnectionsPerAuthKey →
    ∀ authKeyID, Counters.count s.activeConnectionsByAuth authKeyID ≤ s.maxConnectionsPerAuthKey
  counted : ∀ c, (s.memory c).authCounted = true → (s.memory c).authKeyID ≠ 0
  sessions : s.activeSessions = total (fun c => sessionCount (s.memory c)) s.connectionStates
  onConnection : ∀ c, (s.memory c).activeSessionsOnConnection = sessionCount (s.memory c)
  distinct : ∀ c, (s.memory c).activeSessions.Nodup
  released : ∀ c, c ∉ s.connectionStates → (s.memory c).activeSessions = []
  noUnderflow : s.underflows = 0

variable {s s' : QuotaServer} {c : ConnRef}

theorem Exact.frame (h : s.Exact) (stopped : Bool) (connections : List ConnRef)
    (nextConnectionID : UInt64) (stage : ConnRef → ServeStage) :
    { s with stopped, connections, nextConnectionID, stage }.Exact :=
  ⟨h.nodup, h.byID, h.byIP, h.ipLimit, h.byAuth, h.authLimit, h.counted, h.sessions, h.onConnection,
    h.distinct, h.released, h.noUnderflow⟩

variable {state : ConnectionState}

theorem forall_update {q : ConnRef → ConnectionState → Prop}
    (h : ∀ x, q x (memory x)) (hsta : q c state) : ∀ x, q x (update memory c state x) := by
  intro x
  by_cases hx : x = c
  · rw [hx, update_self]
    exact hsta
  · rw [update_of_ne hx]
    exact h x

theorem update_congr {β : Type} (f : ConnectionState → β) (heq : f state = f (memory c)) :
    ∀ x, f (update memory c state x) = f (memory x) := by
  intro x
  by_cases hx : x = c
  · rw [hx, update_self]
    exact heq
  · rw [update_of_ne hx]

section

variable (h : s.Exact)
include h

theorem Exact.changed (hc : c ∈ s.connectionStates) (state : ConnectionState)
    {byAuth : Counters Int64} {active : Int} (hid : state.id = (s.memory c).id)
    (hip : state.remoteIP = (s.memory c).remoteIP)
    (hbya : AuthCounted byAuth s.connectionStates (update s.memory c state))
    (hlim : 0 < s.maxConnectionsPerAuthKey →
      ∀ authKeyID, Counters.count byAuth authKeyID ≤ s.maxConnectionsPerAuthKey)
    (hctd : state.authCounted = true → state.authKeyID ≠ 0) (hdis : state.activeSessions.Nodup)
    (honc : state.activeSessionsOnConnection = sessionCount state)
    (hact : active = s.activeSessions + sessionCount state - sessionCount (s.memory c)) : { s with
      activeConnectionsByAuth := byAuth
      activeSessions := active
      memory := update s.memory c state }.Exact := by
  refine ⟨h.nodup, h.byID.congr (fun x _ => update_congr ConnectionState.id hid x),
    h.byIP.congr (update_congr remoteIP hip), h.ipLimit, hbya, hlim, ?_, ?_, ?_,
    ?_, ?_, h.noUnderflow⟩
  · exact forall_update (q := fun _ state => state.authCounted = true → state.authKeyID ≠ 0)
      h.counted hctd
  · have htot := total_update h.nodup hc sessionCount s.memory state
    have hsum := h.sessions
    dsimp only
    omega
  · exact forall_update (q := fun _ state => state.activeSessionsOnConnection = sessionCount state)
      h.onConnection honc
  · exact forall_update (q := fun _ state => state.activeSessions.Nodup) h.distinct hdis
  · exact forall_update (q := fun x state => x ∉ s.connectionStates → state.activeSessions = [])
      h.released (fun hnot => absurd hc hnot)

theorem Exact.byAuth_update (hctd : state.authCounted = (s.memory c).authCounted)
    (hkey : state.authKeyID = (s.memory c).authKeyID) :
    AuthCounted s.activeConnectionsByAuth s.connectionStates (update s.memory c state) :=
  h.byAuth.congr fun x =>
    ⟨update_congr authCounted hctd x, update_congr authKeyID hkey x⟩

theorem Exact.rejected (hc : c ∉ s.connectionStates)
    (hat : state.authCounted = false) (hs : state.activeSessions = [])
    (honc : state.activeSessionsOnConnection = 0) : (s.store c state).Exact := by
  refine ⟨h.nodup, h.byID.congr (fun x hx => ?_), ⟨fun ip hip => ?_, h.byIP.none⟩, h.ipLimit,
    fun authKeyID => ?_, h.authLimit, ?_, ?_, ?_, ?_, ?_, h.noUnderflow⟩
  · show (update s.memory c state x).id = (s.memory x).id
    rw [update_of_ne (fun heq : x = c => hc (heq ▸ hx))]
  · show _ = ((total (fun x => fromIP ip (update s.memory c state x))
      s.connectionStates : Nat) : Int)
    rw [total_update_of_not_mem hc]
    exact h.byIP.exact ip hip
  · show _ = ((total (fun x => countedFor authKeyID (update s.memory c state x))
      s.connectionStates : Nat) : Int)
    rw [total_update_of_not_mem hc]
    exact h.byAuth authKeyID
  · exact forall_update (q := fun _ state => state.authCounted = true → state.authKeyID ≠ 0)
      h.counted (fun htr => by rw [hat] at htr; cases htr)
  · show s.activeSessions = ((total (fun x => sessionCount (update s.memory c state x))
      s.connectionStates : Nat) : Int)
    rw [total_update_of_not_mem hc]
    exact h.sessions
  · exact forall_update (q := fun _ state => state.activeSessionsOnConnection = sessionCount state)
      h.onConnection (by rw [honc, sessionCount, hs]; rfl)
  · exact forall_update (q := fun _ state => state.activeSessions.Nodup) h.distinct
      (by rw [hs]; exact nodup_nil)
  · exact forall_update (q := fun x state => x ∉ s.connectionStates → state.activeSessions = [])
      h.released (fun _ => hs)

theorem Exact.admitted (hc : c ∉ s.connectionStates)
    (state : ConnectionState) (hat : state.authCounted = false)
    (hs : state.activeSessions = []) (honc : state.activeSessionsOnConnection = 0)
    (hrm : state.remoteIP ≠ "" → 0 < s.maxConnectionsPerIP →
      Counters.count s.activeConnectionsByIP state.remoteIP < s.maxConnectionsPerIP) : { s with
      connectionStates := s.connectionStates ++ [c]
      connectionByID := s.connectionByID.insert state.id c
      activeConnectionsByIP :=
        if state.remoteIP ≠ "" then Counters.raise s.activeConnectionsByIP state.remoteIP
        else s.activeConnectionsByIP
      memory := update s.memory c state }.Exact := by
  have hrej := h.rejected hc hat hs honc
  refine ⟨?_, h.byID.insert hc state, h.byIP.add hc state, ?_, h.byAuth.add hc hat, h.authLimit, hrej.counted, ?_,
    hrej.onConnection, hrej.distinct, ?_, h.noUnderflow⟩
  · exact nodup_append.mpr ⟨h.nodup, nodup_singleton c, fun x hx y hy => by
      rw [mem_singleton.mp hy]
      exact fun heq => hc (heq ▸ hx)⟩
  · intro hps ip
    have hlim := h.ipLimit hps ip
    show count (if state.remoteIP ≠ "" then raise s.activeConnectionsByIP
      state.remoteIP else s.activeConnectionsByIP) ip ≤ s.maxConnectionsPerIP
    split
    next hip =>
      have hbl := hrm hip hps
      rw [count_raise]
      split <;> omega
    · exact hlim
  · have hsum := h.sessions
    have hz : sessionCount state = 0 := by
      rw [sessionCount, hs]
      rfl
    show s.activeSessions = ((total (fun x => sessionCount (update s.memory c state x))
      (s.connectionStates ++ [c]) : Nat) : Int)
    rw [total_append, total_update_of_not_mem hc, total_cons, update_self, hz]
    exact hsum
  · intro x hx
    exact hrej.released x (fun hmem => hx (mem_append_left _ hmem))

theorem Exact.admitConnection (hc : c ∉ s.connectionStates) (remoteIP : String)
    (id : UInt64) : (s.admitConnection c remoteIP id).1.Exact := by
  unfold QuotaServer.admitConnection
  split
  · exact h.rejected hc rfl rfl rfl
  split
  · exact h.rejected hc rfl rfl rfl
  rename_i hrm
  refine h.admitted hc { id, remoteIP, activeConnections := _, activeConnectionsForIP := _ } rfl rfl rfl ?_
  intro hip hps
  by_contra hfl
  exact hrm ⟨hip, hps, Int.not_lt.mp hfl⟩

theorem Exact.addSession (hc : c ∈ s.connectionStates) (key : SessionKey) : (s.addSession c key).Exact := by
  unfold QuotaServer.addSession
  dsimp only
  split
  · exact h
  rename_i hnew
  have hon := h.onConnection c
  have hlen : ((s.memory c).activeSessions ++ [key]).length =
      (s.memory c).activeSessions.length + 1 := length_append
  have hnd : ((s.memory c).activeSessions ++ [key]).Nodup :=
    nodup_append.mpr ⟨h.distinct c, nodup_singleton key, fun x hx y hy => by
      rw [mem_singleton.mp hy]
      exact fun heq => hnew (heq ▸ hx)⟩
  have hctr : (s.memory c).activeSessionsOnConnection + 1 =
      (((s.memory c).activeSessions ++ [key]).length : Int) := by
    rw [hon, hlen, sessionCount]
    omega
  exact h.changed hc _ rfl rfl (h.byAuth_update rfl rfl) h.authLimit (h.counted c) hnd hctr
    (by unfold sessionCount; dsimp only; omega)

theorem Exact.countAuth (hc : c ∈ s.connectionStates) (authKeyID : Int64) :
    (s.countAuth c authKeyID).1.Exact := by
  unfold QuotaServer.countAuth
  dsimp only
  split
  next hfr =>
    split
    · exact h.changed hc _ rfl rfl (h.byAuth_update rfl rfl) h.authLimit (h.counted c) (h.distinct c)
        (h.onConnection c) (by unfold sessionCount; dsimp only; omega)
    rename_i hrm
    refine h.changed hc _ rfl rfl (h.byAuth.raise hc h.nodup (by simpa using hfr.1) rfl rfl) ?_
      (fun _ => hfr.2) (h.distinct c) (h.onConnection c) (by unfold sessionCount; dsimp only; omega)
    intro hps key
    have hlim := h.authLimit hps key
    rw [count_raise]
    split <;> omega
  · exact h

end

theorem connectionStates_countAuth (s : QuotaServer) (c : ConnRef) (authKeyID : Int64) :
    (s.countAuth c authKeyID).1.connectionStates = s.connectionStates := by
  unfold countAuth
  dsimp only
  split
  · split <;> rfl
  · rfl

theorem Exact.handleObservedSessionBound (h : s.Exact) (binding : Binding) :
    (s.handleObservedSessionBound binding).Exact := by
  unfold QuotaServer.handleObservedSessionBound
  split
  · exact h
  rename_i c hlk
  have hc := (h.byID _ _ hlk).1
  have hobs : (s.store c { s.memory c with handshakeObserved := true }).Exact :=
    h.changed hc _ rfl rfl (h.byAuth_update rfl rfl) h.authLimit (h.counted c) (h.distinct c)
      (h.onConnection c) (by unfold sessionCount; dsimp only; omega)
  have hctd := hobs.countAuth hc binding.authKeyID
  dsimp only
  split
  · refine hctd.addSession ?_ binding.key
    rw [connectionStates_countAuth]
    exact hc
  · exact hctd

theorem lowerGuarded_positive (h : 0 < counter.1) :
    lowerGuarded counter = (counter.1 - 1, counter.2) := if_pos h

theorem lowerSessions_eq {keys : List SessionKey} (h : keys.length ≤ counter.1) :
    lowerSessions keys counter = (counter.1 - keys.length, counter.2) := by
  unfold lowerSessions
  induction keys generalizing counter with
  | nil => simp
  | cons key keys ih =>
    rw [length_cons] at h ⊢
    rw [foldl_cons, lowerGuarded_positive (by omega), ih (by dsimp only; omega)]
    congr 1
    omega

theorem Exact.sessions_le (h : s.Exact) (hc : c ∈ s.connectionStates) :
    (s.memory c).activeSessions.length ≤ s.activeSessions := by
  obtain ⟨i, hi⟩ := mem_iff_getElem?.mp hc
  have hle := le_total (fun x => sessionCount (s.memory x)) hi
  have hsum := h.sessions
  unfold sessionCount at hle hsum
  omega

theorem Exact.handleObservedSessionUnbound (h : s.Exact) (binding : Binding) :
    (s.handleObservedSessionUnbound binding).Exact := by
  unfold QuotaServer.handleObservedSessionUnbound
  split
  · exact h
  rename_i c hlk
  have hc := (h.byID _ _ hlk).1
  dsimp only
  split
  next hmem =>
    have hon := h.onConnection c
    have hle := h.sessions_le hc
    have hlen := length_erase_of_mem hmem
    have hps := length_pos_of_mem hmem
    have hpos' : 0 < (s.memory c).activeSessionsOnConnection := by
      rw [hon, sessionCount]
      omega
    have hlow : lowerGuarded ((s.memory c).activeSessionsOnConnection, s.underflows) =
        ((s.memory c).activeSessionsOnConnection - 1, s.underflows) :=
      lowerGuarded_positive hpos'
    rw [hlow, lowerGuarded_positive (by dsimp only; omega)]
    refine h.changed hc _ rfl rfl (h.byAuth_update rfl rfl) h.authLimit (h.counted c)
      ((h.distinct c).erase _) ?_ ?_
    · rw [hon]
      unfold sessionCount
      dsimp only
      omega
    · unfold sessionCount
      dsimp only
      omega
  · exact h

theorem underflowOf_positive {count : Int} (h : 1 ≤ count) : underflowOf count = 0 :=
  if_neg (by omega)

theorem finishIP_eq (s : QuotaServer) (c : ConnRef) (hps : (s.memory c).remoteIP ≠ "" →
      1 ≤ Counters.count s.activeConnectionsByIP (s.memory c).remoteIP) : ∃ n, s.finishIP c = { s with
      activeConnectionsByIP :=
        if (s.memory c).remoteIP ≠ "" then
          Counters.lower s.activeConnectionsByIP (s.memory c).remoteIP
        else s.activeConnectionsByIP
      memory := update s.memory c { s.memory c with activeConnectionsForIP := n } } := by
  unfold finishIP
  dsimp only
  split
  next hip =>
    rw [underflowOf_positive (hps hip)]
    exact ⟨_, rfl⟩
  · exact ⟨(s.memory c).activeConnectionsForIP, by rw [update_eq_self]⟩

theorem finishAuth_eq (s : QuotaServer) (c : ConnRef) (hps : (s.memory c).authCounted = true →
      1 ≤ Counters.count s.activeConnectionsByAuth (s.memory c).authKeyID) : ∃ n, s.finishAuth c = { s with
      activeConnectionsByAuth :=
        if (s.memory c).authCounted = true ∧ (s.memory c).authKeyID ≠ 0 then
          Counters.lower s.activeConnectionsByAuth (s.memory c).authKeyID
        else s.activeConnectionsByAuth
      memory := update s.memory c { s.memory c with activeConnectionsForAuth := n } } := by
  unfold finishAuth
  dsimp only
  split
  next hctd =>
    rw [underflowOf_positive (hps hctd.1)]
    exact ⟨_, rfl⟩
  · exact ⟨(s.memory c).activeConnectionsForAuth, by rw [update_eq_self]⟩

structure Finished (before after : ConnectionState) : Prop where
  authCounted : after.authCounted = before.authCounted
  authKeyID : after.authKeyID = before.authKeyID
  sessions : after.activeSessions = []
  onConnection : after.activeSessionsOnConnection = 0

theorem finishSessions_eq (s : QuotaServer) (c : ConnRef)
    (hle : (s.memory c).activeSessions.length ≤ s.activeSessions) :
    ∃ state, Finished (s.memory c) state ∧ s.finishSessions c = { s with
      activeSessions := s.activeSessions - (s.memory c).activeSessions.length
      memory := update s.memory c state } := by
  unfold finishSessions
  dsimp only
  rw [lowerSessions_eq hle]
  refine ⟨_, ?_, rfl⟩
  exact ⟨rfl, rfl, rfl, rfl⟩

theorem Exact.finishConnection_eq (h : s.Exact) (hc : c ∈ s.connectionStates) :
    ∃ state, Finished (s.memory c) state ∧ s.finishConnection c = { s with
        connectionStates := s.connectionStates.erase c
        connectionByID := s.connectionByID.erase (s.memory c).id
        activeConnectionsByIP :=
          if (s.memory c).remoteIP ≠ "" then
            Counters.lower s.activeConnectionsByIP (s.memory c).remoteIP
          else s.activeConnectionsByIP
        activeConnectionsByAuth :=
          if (s.memory c).authCounted = true ∧ (s.memory c).authKeyID ≠ 0 then
            Counters.lower s.activeConnectionsByAuth (s.memory c).authKeyID
          else s.activeConnectionsByAuth
        activeSessions := s.activeSessions - (s.memory c).activeSessions.length
        memory := update s.memory c state } := by
  obtain ⟨forIP, hip⟩ := finishIP_eq (s.finishMaps c) c (h.byIP.positive hc)
  obtain ⟨forAuth, hat⟩ := finishAuth_eq ((s.finishMaps c).finishIP c) c (by
    rw [hip]
    simp only [update_self]
    exact h.byAuth.positive hc)
  obtain ⟨state, hfin, hs⟩ :=
    finishSessions_eq (((s.finishMaps c).finishIP c).finishAuth c) c (by
      rw [hat, hip]
      simp only [update_self]
      exact h.sessions_le hc)
  unfold finishConnection
  rw [hat, hip] at hs hfin
  simp only [update_self, update_idem] at hs hfin
  rw [if_pos hc, hat, hip]
  simp only [update_self, update_idem]
  exact ⟨state, ⟨hfin.1, hfin.2, hfin.3, hfin.4⟩, hs⟩

theorem Exact.finished (h : s.Exact) (hc : c ∈ s.connectionStates) : (s.finishConnection c).Exact := by
  obtain ⟨state, hfin, heq⟩ := h.finishConnection_eq hc
  have hoth : ∀ x, x ≠ c → update s.memory c state x = s.memory x :=
    fun x hx => update_of_ne hx ..
  rw [heq]
  refine ⟨h.nodup.erase c, h.byID.erase hoth, h.byIP.erase hc h.nodup hoth, ?_,
    h.byAuth.erase hc h.nodup (h.counted c) hoth, ?_, ?_, ?_, ?_, ?_, ?_, h.noUnderflow⟩
  · intro hps ip
    have hlim := h.ipLimit hps ip
    split
    next hip => exact (count_lower_le (h.byIP.positive hc hip) _).trans hlim
    · exact hlim
  · intro hps authKeyID
    have hlim := h.authLimit hps authKeyID
    dsimp only
    split
    next hctd => exact (count_lower_le (h.byAuth.positive hc hctd.1) _).trans hlim
    · exact hlim
  · refine forall_update (q := fun _ state => state.authCounted = true → state.authKeyID ≠ 0)
      h.counted ?_
    rw [hfin.authCounted, hfin.authKeyID]
    exact h.counted c
  · have hsum := h.sessions
    have htot := total_erase (fun x => sessionCount (s.memory x)) hc
    have hrs : total (fun x => sessionCount (update s.memory c state x))
        (s.connectionStates.erase c) =
          total (fun x => sessionCount (s.memory x)) (s.connectionStates.erase c) :=
      total_update_of_not_mem (fun hmem => (h.nodup.mem_erase_iff.mp hmem).1 rfl) ..
    dsimp only
    unfold sessionCount at htot hsum hrs ⊢
    omega
  · refine forall_update (q := fun _ state => state.activeSessionsOnConnection = sessionCount state)
      h.onConnection ?_
    rw [hfin.onConnection, sessionCount, hfin.sessions]
    rfl
  · refine forall_update (q := fun _ state => state.activeSessions.Nodup) h.distinct ?_
    rw [hfin.sessions]
    exact nodup_nil
  · intro x hx
    by_cases hsm : x = c
    · show (update s.memory c state x).activeSessions = []
      rw [hsm, update_self]
      exact hfin.sessions
    show (update s.memory c state x).activeSessions = []
    rw [hoth x hsm]
    exact h.released x (fun hmem => hx ((mem_erase_of_ne hsm).mpr hmem))

def limits (s : QuotaServer) : Int × Int := (s.maxConnectionsPerIP, s.maxConnectionsPerAuthKey)

theorem bound_kept (s : QuotaServer) (binding : Binding) :
    (s.handleObservedSessionBound binding).connectionStates = s.connectionStates ∧
      (s.handleObservedSessionBound binding).stage = s.stage ∧
      (s.handleObservedSessionBound binding).limits = s.limits := by
  unfold handleObservedSessionBound addSession countAuth
  dsimp only
  repeat' split
  all_goals exact ⟨rfl, rfl, rfl⟩

theorem unbound_kept (s : QuotaServer) (binding : Binding) :
    (s.handleObservedSessionUnbound binding).connectionStates = s.connectionStates ∧
      (s.handleObservedSessionUnbound binding).stage = s.stage ∧
      (s.handleObservedSessionUnbound binding).limits = s.limits := by
  unfold handleObservedSessionUnbound
  dsimp only
  repeat' split
  all_goals exact ⟨rfl, rfl, rfl⟩

theorem admitConnection_kept (s : QuotaServer) (c : ConnRef) (remoteIP : String) (id : UInt64) :
    (s.admitConnection c remoteIP id).1.stage = s.stage ∧
      (s.admitConnection c remoteIP id).1.limits = s.limits ∧
      (s.admitConnection c remoteIP id).1.connectionStates =
        if (s.admitConnection c remoteIP id).2 then s.connectionStates ++ [c] else s.connectionStates := by
  unfold admitConnection
  repeat' split
  all_goals first | exact ⟨rfl, rfl, rfl⟩ | contradiction

/-- With it, the connections admitted and not finished are those that run. -/
structure Sound (bounds : Int × Int) (s : QuotaServer) : Prop where
  exact : s.Exact
  bounds : s.limits = bounds
  running : ∀ c, c ∈ s.connectionStates ↔ s.stage c = .running

theorem running_goto (h : ∀ x, x ∈ s.connectionStates ↔ s.stage x = .running)
    (hc : s.stage c ≠ .running) {stage : ServeStage} (hst : stage ≠ .running) :
    ∀ x, x ∈ s.connectionStates ↔ update s.stage c stage x = .running := by
  intro x
  by_cases hx : x = c
  · rw [hx, update_self, h c]
    exact ⟨fun hrun => absurd hrun hc, fun hrun => absurd hrun hst⟩
  · rw [update_of_ne hx]
    exact h x

theorem Sound.advance (h : s.Sound bounds) {stage : ServeStage} (hst : s.stage c = stage)
    (hadv : s.advance c stage = some s') : s'.Sound bounds := by
  have hout : stage ≠ .running → c ∉ s.connectionStates := by
    intro hne hmem
    exact hne (hst ▸ (h.running c).mp hmem)
  cases stage with
  | accepted remoteIP =>
    cases hadv
    exact ⟨h.exact.frame _ _ _ _, h.bounds, running_goto h.running (by rw [hst]; nofun) nofun⟩
  | identified remoteIP id =>
    cases hadv
    have hexa := h.exact.admitConnection (hout nofun) remoteIP id
    obtain ⟨hkp, hlim, hsts⟩ := admitConnection_kept s c remoteIP id
    refine ⟨hexa.frame _ _ _ _, hlim.trans h.bounds, ?_⟩
    show ∀ x, x ∈ (s.admitConnection c remoteIP id).1.connectionStates ↔
      update (s.admitConnection c remoteIP id).1.stage c _ x = .running
    rw [hkp, hsts]
    split
    · intro x
      rw [mem_append, mem_singleton, h.running]
      by_cases hx : x = c
      · rw [hx, update_self]
        exact ⟨fun _ => rfl, fun _ => .inr rfl⟩
      · rw [update_of_ne hx]
        exact ⟨fun hor => hor.resolve_right hx, .inl⟩
    · exact running_goto h.running (by rw [hst]; nofun) nofun
  | rejected =>
    cases hadv
    rw [erase_of_not_mem (hout nofun)]
    exact ⟨h.exact.frame _ _ _ _, h.bounds, running_goto h.running (by rw [hst]; nofun) nofun⟩
  | running =>
    cases hadv
    have hc := (h.running c).mpr hst
    obtain ⟨state, _, heq⟩ := h.exact.finishConnection_eq hc
    have hlim : (s.finishConnection c).limits = s.limits := by
      rw [heq]
      rfl
    refine ⟨(h.exact.finished hc).frame _ _ _ _, hlim.trans h.bounds, ?_⟩
    show ∀ x, x ∈ (s.finishConnection c).connectionStates ↔
      update (s.finishConnection c).stage c _ x = .running
    rw [heq]
    intro x
    rw [h.exact.nodup.mem_erase_iff, h.running]
    by_cases hx : x = c
    · rw [hx, update_self]
      exact ⟨fun hbt => absurd rfl hbt.1, nofun⟩
    · rw [update_of_ne hx]
      exact ⟨And.right, fun hrun => ⟨hx, hrun⟩⟩
  | finished =>
    cases hadv
    exact ⟨h.exact.frame _ _ _ _, h.bounds, running_goto h.running (by rw [hst]; nofun) nofun⟩
  | fresh => cases hadv
  | gone => cases hadv

theorem Sound.step {op : QuotaOp} (h : s.Sound bounds) (hst : s.step op = some s') : s'.Sound bounds := by
  cases op with
  | serve c remoteIP =>
    unfold QuotaServer.step at hst
    dsimp only at hst
    split at hst
    next hfr =>
      have hne : s.stage c ≠ .running := by
        rw [hfr]
        nofun
      split at hst
      all_goals
        cases hst
        exact ⟨h.exact.frame _ _ _ _, h.bounds, running_goto h.running hne nofun⟩
    · cases hst
  | advance c => exact h.advance rfl hst
  | bound binding =>
    cases hst
    obtain ⟨hsts, hkp, hlim⟩ := bound_kept s binding
    refine ⟨h.exact.handleObservedSessionBound binding, hlim.trans h.bounds, fun c => ?_⟩
    rw [hsts, hkp]
    exact h.running c
  | unbound binding =>
    cases hst
    obtain ⟨hsts, hkp, hlim⟩ := unbound_kept s binding
    refine ⟨h.exact.handleObservedSessionUnbound binding, hlim.trans h.bounds, fun c => ?_⟩
    rw [hsts, hkp]
    exact h.running c
  | stop =>
    cases hst
    exact ⟨h.exact.frame _ _ _ _, h.bounds, h.running⟩

def idle (maxConnections maxConnectionsPerIP maxConnectionsPerAuthKey : Int) : QuotaServer :=
  { maxConnections, maxConnectionsPerIP, maxConnectionsPerAuthKey }

theorem sound_idle (maxConnections maxConnectionsPerIP maxConnectionsPerAuthKey : Int) :
    (idle maxConnections maxConnectionsPerIP maxConnectionsPerAuthKey).Sound
      (maxConnectionsPerIP, maxConnectionsPerAuthKey) :=
  ⟨⟨nodup_nil, (fun _ _ h => by cases h), ⟨fun _ _ => rfl, rfl⟩, fun h _ => Int.le_of_lt h,
    fun _ => rfl, fun h _ => Int.le_of_lt h, (fun _ h => by cases h), rfl, fun _ => rfl,
    fun _ => nodup_nil, fun _ _ => rfl, rfl⟩, rfl,
    fun _ => ⟨(fun h => by cases h), (fun h => by cases h)⟩⟩

def isFrom (s : QuotaServer) (ip : String) (c : ConnRef) : Bool :=
  (s.memory c).remoteIP = ip ∧ (s.memory c).remoteIP ≠ ""

def isCountedFor (s : QuotaServer) (authKeyID : Int64) (c : ConnRef) : Bool :=
  (s.memory c).authCounted = true ∧ (s.memory c).authKeyID = authKeyID

theorem Exact.count_ip (h : s.Exact) (ip : String) :
    Counters.count s.activeConnectionsByIP ip = s.connectionStates.countP (s.isFrom ip) := by
  by_cases hip : ip = ""
  · have hno : s.connectionStates.countP (s.isFrom ip) = 0 := by
      rw [countP_eq_zero]
      intro c _
      simp [isFrom, hip]
    rw [hno, hip]
    exact h.byIP.none
  · rw [h.byIP.exact ip hip, ← total_indicator]
    congr 1
    refine total_congr fun c _ => ?_
    unfold fromIP isFrom
    by_cases hfr : (s.memory c).remoteIP = ip
    · simp [hfr, hip]
    · simp [hfr]

theorem Exact.count_auth (h : s.Exact) (authKeyID : Int64) :
    Counters.count s.activeConnectionsByAuth authKeyID =
      s.connectionStates.countP (s.isCountedFor authKeyID) := by
  rw [h.byAuth authKeyID, ← total_indicator]
  congr 1
  refine total_congr fun c _ => ?_
  unfold countedFor isCountedFor
  simp

/-- In every run the counters are those of the connections admitted and not finished, the limits
hold, and no guard of a decrement has fired. -/
theorem connection_quotas_exact {maxConnections maxConnectionsPerIP maxConnectionsPerAuthKey : Int}
    {ops : List QuotaOp} {s : QuotaServer}
    (hrun : exec step (idle maxConnections maxConnectionsPerIP maxConnectionsPerAuthKey) ops =
      some s) : s.connectionStates.Nodup ∧ (∀ c, c ∈ s.connectionStates ↔ s.stage c = .running) ∧
      (∀ ip, Counters.count s.activeConnectionsByIP ip = s.connectionStates.countP (s.isFrom ip) ∧
        (0 < maxConnectionsPerIP → Counters.count s.activeConnectionsByIP ip ≤ maxConnectionsPerIP)) ∧
      (∀ authKeyID, Counters.count s.activeConnectionsByAuth authKeyID =
          s.connectionStates.countP (s.isCountedFor authKeyID) ∧ (0 < maxConnectionsPerAuthKey →
          Counters.count s.activeConnectionsByAuth authKeyID ≤ maxConnectionsPerAuthKey)) ∧
      s.activeSessions = ((s.connectionStates.map fun c => (s.memory c).activeSessions.length).sum : Nat) ∧
      (∀ c, (s.memory c).activeSessions.Nodup ∧
        (s.memory c).activeSessionsOnConnection = (s.memory c).activeSessions.length ∧
        (c ∉ s.connectionStates → (s.memory c).activeSessions = [])) ∧ s.underflows = 0 := by
  have hsd := exec_inductive (fun _ _ _ h hst => h.step hst)
    (sound_idle maxConnections maxConnectionsPerIP maxConnectionsPerAuthKey) hrun
  have hexa := hsd.exact
  obtain ⟨hper, hpr⟩ := Prod.mk.injEq .. ▸ hsd.bounds
  refine ⟨hexa.nodup, hsd.running, fun ip => ⟨hexa.count_ip ip, fun hlim => ?_⟩,
    fun authKeyID => ⟨hexa.count_auth authKeyID, fun hlim => ?_⟩, hexa.sessions,
    fun c => ⟨hexa.distinct c, hexa.onConnection c, hexa.released c⟩, hexa.noUnderflow⟩
  · rw [← hper] at hlim ⊢
    exact hexa.ipLimit hlim ip
  · rw [← hpr] at hlim ⊢
    exact hexa.authLimit hlim authKeyID

/-- Connections 0 and 1 share an address, 0 and 2 an auth key, with one place each. -/
def quotaOps : List QuotaOp :=
  let binding (connectionID : UInt64) (sessionID : Int) : Binding :=
    { connectionID, authKeyID := 7, sessionID, leaseGeneration := 1, serverSalt := 0, userID := 0,
      layer := 0 }
  [.serve 0 "10.0.0.1", .advance 0, .advance 0, .serve 1 "10.0.0.1", .advance 1, .advance 1,
    .serve 2 "10.0.0.2", .advance 2, .advance 2, .advance 1, .bound (binding 1 1),
    .bound (binding 1 2), .bound (binding 1 1), .bound (binding 3 3), .unbound (binding 1 2),
    .unbound (binding 1 2)]

theorem connection_quotas_exact_two : ∃ s, exec step (idle 10 1 1) quotaOps = some s ∧ s.activeSessions = 1 ∧
      s.connectionStates.countP (s.isFrom "10.0.0.1") = 1 ∧
      s.connectionStates.countP (s.isCountedFor 7) = 1 ∧ s.connectionStates.length = 2 ∧
      s.underflows = 0 := by
  obtain ⟨s, hrun⟩ := isSome_iff_exists.mp
    (show (exec step (idle 10 1 1) quotaOps).isSome = true by decide +kernel)
  have hcou : (exec step (idle 10 1 1) quotaOps).map (fun s =>
      (s.activeSessions, count s.activeConnectionsByIP "10.0.0.1",
        count s.activeConnectionsByAuth 7, s.connectionStates.length)) =
      some (1, 1, 1, 2) := by
    decide +kernel
  rw [hrun] at hcou
  simp only [map_some, some.injEq, Prod.mk.injEq] at hcou
  obtain ⟨hs, hip, hat, hlen⟩ := hcou
  obtain ⟨_, _, hby, hbya, _, _, hgua⟩ := connection_quotas_exact hrun
  have hfr := (hby "10.0.0.1").1
  have hctd := (hbya 7).1
  exact ⟨s, hrun, hs, by omega, by omega, hlen, hgua⟩

end QuotaServer

end Tlrpc
