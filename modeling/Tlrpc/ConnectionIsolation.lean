import Tlrpc.LostSession

namespace Tlrpc.Connection

open Function

/-- What `sessionFor` guards: one auth key, that of the handshake if there was one, and the room. -/
structure Guarded (n : Nat) (c : Connection) : Prop where
  pinned : ∀ actor < c.allocated, c.authKeyID = some (c.actors actor).key.authKeyID
  authorized : ∀ id ∈ c.authKeyID, ∀ id' ∈ c.authorization, id' = id
  acquiring : ∀ key, c.run = .acquiring key → (∀ id ∈ c.authKeyID, id = key.authKeyID) ∧
    (∀ id ∈ c.authorization, id = key.authKeyID) ∧ c.sessions.keys.length < n
  attached : c.sessions.keys.length ≤ n
  capacity : c.sessionCapacity = n

variable {n : Nat} {c c' : Connection} {op : ConnectionOp} {sessionCapacity : Int}

theorem guarded_new (h : newConnection sessionCapacity = some c) : c.Guarded c.sessionCapacity := by
  have hfr : ∀ n, (fresh n).Guarded n := fun n => ⟨nofun, nofun, nofun, Nat.zero_le n, rfl⟩
  unfold newConnection at h
  split at h
  · cases h
  split at h <;> cases h <;> exact hfr _

theorem eq_of_not_mismatch {current : Option KeyID} {id id' : KeyID}
    (h : ¬(current.isSome ∧ current ≠ some id)) (hm : id' ∈ current) : id' = id := by
  by_contra hne
  exact h ⟨Option.isSome_of_mem hm, fun heq => hne (Option.some.inj (hm.symm.trans heq))⟩

section

variable (h : c.Guarded n)
include h

theorem Guarded.goto {run : RunStage} (hrun : ∀ key, run ≠ .acquiring key) :
    ({ c with run := run } : Connection).Guarded n :=
  ⟨h.pinned, h.authorized, fun key hk => absurd hk (hrun key), h.attached, h.capacity⟩

theorem Guarded.setActor (actor : ActorRef) {value : ConnectionActor}
    (hval : value.key = (c.actors actor).key) : (c.setActor actor value).Guarded n := by
  refine ⟨fun other hoth => ?_, h.authorized, h.acquiring, h.attached, h.capacity⟩
  show c.authKeyID = some (update c.actors actor value other).key.authKeyID
  by_cases heq : other = actor
  · rw [heq, update_self, hval]
    exact h.pinned actor (heq ▸ hoth)
  · rw [update_of_ne heq]
    exact h.pinned other hoth

theorem Guarded.erase (key : SessionKey) :
    ({ c with sessions := c.sessions.erase key } : Connection).Guarded n := by
  have hlen : (c.sessions.erase key).keys.length ≤ c.sessions.keys.length := by
    rw [AList.keys_erase]
    exact List.length_erase_le
  refine ⟨h.pinned, h.authorized, fun key hk => ?_, hlen.trans h.attached, h.capacity⟩
  obtain ⟨hid, haut, hroom⟩ := h.acquiring key hk
  exact ⟨hid, haut, Nat.lt_of_le_of_lt hlen hroom⟩

theorem Guarded.detach (actor : ActorRef) (cause : ConnectionError) : (c.detach actor cause).Guarded n := by
  have her := h.erase (c.actors actor).key
  unfold Connection.detach
  dsimp only
  split
  · split
    · exact ⟨her.pinned, her.authorized, her.acquiring, her.attached, her.capacity⟩
    · exact her
  · exact h

/-- Plaintext is refused once a session is there, so no later handshake changes the key. -/
theorem Guarded.handleUnencrypted (result : Except ConnectionError (Option KeyID))
    (hrun : c.run = .reading) : (c.handleUnencrypted result).Guarded n := by
  unfold Connection.handleUnencrypted
  split
  · exact h.goto nofun
  next hno =>
    split
    · exact h.goto nofun
    · refine ⟨h.pinned, fun id hm => absurd (.inr (Option.isSome_of_mem hm)) hno, fun key hk => ?_,
        h.attached, h.capacity⟩
      cases hrun.symm.trans hk

theorem Guarded.handleEncrypted (authKeyID : KeyID) (sessionID : Int) :
    (c.handleEncrypted authKeyID sessionID).Guarded n := by
  unfold Connection.handleEncrypted
  split
  · exact h.goto nofun
  next haut =>
    unfold sessionFor
    split
    · exact h.goto nofun
    next hid =>
      split
      · exact h.goto nofun
      split
      · exact h.goto nofun
      split
      · exact h.goto nofun
      next hroom =>
        rw [h.capacity] at hroom
        refine ⟨h.pinned, h.authorized, fun key hk => ?_, h.attached, h.capacity⟩
        cases hk
        exact ⟨fun _ => eq_of_not_mismatch hid, fun _ => eq_of_not_mismatch haut, Nat.lt_of_not_le hroom⟩

theorem Guarded.opened {key : SessionKey} (hrun : c.run = .acquiring key) : ({ c with
      sessions := c.sessions.insert key c.allocated
      authKeyID := some key.authKeyID
      actors := update c.actors c.allocated ⟨key, none, .running⟩
      allocated := c.allocated + 1
      run := .routed c.allocated } : Connection).Guarded n := by
  obtain ⟨hid, haut, hroom⟩ := h.acquiring key hrun
  refine ⟨fun actor hac => ?_, fun id hm => ?_, nofun, ?_, h.capacity⟩
  · dsimp only at hac ⊢
    by_cases heq : actor = c.allocated
    · rw [heq, update_self]
    · rw [update_of_ne heq, ← hid _ (h.pinned actor (by omega))]
  · cases hm
    exact haut
  · rw [AList.keys_insert, List.length_cons]
    exact Nat.lt_of_le_of_lt List.length_erase_le hroom

theorem Guarded.step (hst : c.step op = some c') : c'.Guarded n := by
  cases op with
  | readUnencrypted result =>
    dsimp only [Connection.step, read] at hst
    split at hst <;> cases hst
    next hrd => exact h.handleUnencrypted result hrd.1
  | readEncrypted authKeyID sessionID =>
    dsimp only [Connection.step, read] at hst
    split at hst <;> cases hst
    exact h.handleEncrypted authKeyID sessionID
  | newConnectionSession result =>
    dsimp only [Connection.step, newConnectionSession] at hst
    split at hst
    next key hrun =>
      split at hst <;> cases hst
      · exact h.goto nofun
      · exact h.opened hrun
    · cases hst
  | removeSession actor =>
    dsimp only [Connection.step, removeSession] at hst
    split at hst
    next cause _ =>
      split at hst <;> cases hst
      exact (h.detach actor cause).setActor actor (by rw [(detach_keeps c actor cause).1])
    · cases hst
  | close =>
    cases hst
    exact ⟨h.pinned, h.authorized, h.acquiring, h.attached, h.capacity⟩
  | _ =>
    -- the reader goes on, or one actor changes and keeps its key
    simp only [Connection.step, leaseSnapshot, finishFrame, endLease, shutdownLease, shutdownActor] at hst
    repeat' split at hst
    all_goals cases hst
    all_goals first | exact h.goto nofun | exact h.setActor _ rfl

end

/-- In whatever order frames arrive, leases end and sessions go, no more sessions are attached than
there is room for, and all that ever were are of one auth key, the one of the handshake if any. -/
theorem one_auth_key_per_connection {c₀ : Connection} {ops : List ConnectionOp}
    (hnew : newConnection sessionCapacity = some c₀) (run : exec Connection.step c₀ ops = some c) :
    c.sessions.keys.length ≤ c₀.sessionCapacity ∧ ∀ actor < c.allocated,
      (∀ other < c.allocated, (c.actors other).key.authKeyID = (c.actors actor).key.authKeyID) ∧
        ∀ id ∈ c.authorization, id = (c.actors actor).key.authKeyID := by
  have hgd : c.Guarded c₀.sessionCapacity :=
    exec_inductive (fun _ _ _ h hst => h.step hst) (guarded_new hnew) run
  refine ⟨hgd.attached, fun actor hac => ?_⟩
  have hpin := hgd.pinned actor hac
  refine ⟨fun other hoth => ?_, hgd.authorized _ hpin⟩
  exact Option.some.inj ((hgd.pinned other hoth).symm.trans hpin)

theorem one_auth_key_per_connection_two : ∃ c, newConnection 2 = some (fresh 2) ∧
    exec Connection.step (fresh 2) (.readUnencrypted (.ok (some 1)) :: takeover) = some c ∧
      1 < c.allocated ∧ (c.actors 1).key.authKeyID = (c.actors 0).key.authKeyID ∧
        ∀ id ∈ c.authorization, id = (c.actors 0).key.authKeyID := by
  obtain ⟨c, hrun, hall⟩ := Option.map_eq_some_iff.mp (show (exec Connection.step (fresh 2)
    (.readUnencrypted (.ok (some 1)) :: takeover)).map (·.allocated) = some 2 by decide)
  obtain ⟨_, hall'⟩ := one_auth_key_per_connection (show newConnection 2 = _ from rfl) hrun
  obtain ⟨hkey, haut⟩ := hall' 0 (by omega)
  exact ⟨c, rfl, hrun, by omega, hkey 1 (by omega), haut⟩

end Tlrpc.Connection
