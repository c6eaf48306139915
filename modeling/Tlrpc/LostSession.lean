import Tlrpc.ConnectionSessions

namespace Tlrpc.Connection

/-- A lease that is active or was lost belongs to an attached session or a poisoned key. -/
structure Sound (c : Connection) : Prop where
  attached : ∀ key actor, c.sessions.lookup key = some actor →
    actor < c.allocated ∧ (c.actors actor).key = key
  acquiring : ∀ key, c.run = .acquiring key → c.sessions.lookup key = none ∧ key ∉ c.poisoned
  kept : ∀ actor, actor < c.allocated → (∀ e, (c.actors actor).cause = some e → e = .leaseLost) →
    c.isEnded = true ∨ c.sessions.lookup (c.actors actor).key = some actor ∨
      (c.actors actor).key ∈ c.poisoned
  closing : ∀ actor cause, (c.actors actor).stage = .closing cause →
    c.isEnded = true ∨ (c.actors actor).cause = some cause

def Lost (c : Connection) (key : SessionKey) : Prop :=
  ∃ actor, actor < c.allocated ∧ (c.actors actor).cause = some .leaseLost ∧ (c.actors actor).key = key

theorem sound_fresh (sessionCapacity : Nat) : (fresh sessionCapacity).Sound := by
  refine ⟨fun key actor hlk => ?_, fun key hrun => ?_, fun actor hac => ?_, fun actor cause hst => ?_⟩
  · cases hlk
  · cases hrun
  · exact absurd hac (Nat.not_lt_zero actor)
  · cases hst

variable {c : Connection}

theorem sound_new {sessionCapacity : Int} (h : newConnection sessionCapacity = some c) : c.Sound := by
  unfold newConnection at h
  split at h
  · cases h
  split at h
  · cases h
    exact sound_fresh _
  cases h
  exact sound_fresh _

theorem Sound.goto (h : c.Sound) {run : RunStage} {acquired : List SessionKey} (hen : c.isEnded = false)
    (hacq : ∀ key, run = .acquiring key → c.sessions.lookup key = none ∧ key ∉ c.poisoned) :
    ({ c with run := run, acquired := acquired } : Connection).Sound := by
  refine ⟨h.attached, hacq, fun actor hac hca => ?_, fun actor cause hst => ?_⟩
  · rcases h.kept actor hac hca with hend | hkp
    · rw [hen] at hend
      cases hend
    · exact .inr hkp
  · rcases h.closing actor cause hst with hend | hsm
    · rw [hen] at hend
      cases hend
    · exact .inr hsm

theorem Sound.stop (h : c.Sound) (cause : ConnectionError) : (c.stop cause).Sound :=
  ⟨h.attached, fun _ hrun => (nomatch hrun), fun _ _ _ => .inl rfl, fun _ _ _ => .inl rfl⟩

theorem sessionFor_cases (c : Connection) (key : SessionKey) : (∃ cause, c.sessionFor key = c.stop cause) ∨
    (∃ actor, key ∉ c.poisoned ∧ c.sessions.lookup key = some actor ∧
      c.sessionFor key = { c with run := .routed actor }) ∨
    (key ∉ c.poisoned ∧ c.sessions.lookup key = none ∧
      c.sessionFor key = { c with run := .acquiring key, acquired := c.acquired ++ [key] }) := by
  unfold sessionFor
  split
  · exact .inl ⟨_, rfl⟩
  split
  · exact .inl ⟨_, rfl⟩
  rename_i hcln
  split
  next actor hlk => exact .inr (.inl ⟨actor, hcln, hlk, rfl⟩)
  rename_i hlk
  split
  · exact .inl ⟨_, rfl⟩
  · exact .inr (.inr ⟨hcln, hlk, rfl⟩)

inductive Moves (c : Connection) : ConnectionOp → Connection → Prop
  | stopped {op : ConnectionOp} (cause : ConnectionError) : c.isEnded = false → Moves c op (c.stop cause)
  | authorized {op : ConnectionOp} (authorization : Option KeyID) : c.refusedKey op = none →
      Moves c op { c with authorization := authorization }
  | advanced {op : ConnectionOp} {run : RunStage} : c.isEnded = false → c.refusedKey op = none →
      (∀ key, run ≠ .acquiring key) → (∀ cause, run ≠ .ended cause) → Moves c op { c with run := run }
  | acquiring {op : ConnectionOp} {key : SessionKey} : c.isEnded = false → c.refusedKey op = none →
      key ∉ c.poisoned → c.sessions.lookup key = none →
      Moves c op { c with run := .acquiring key, acquired := c.acquired ++ [key] }
  | opened {op : ConnectionOp} {key : SessionKey} : c.run = .acquiring key → c.refusedKey op = none →
      Moves c op { c with
        sessions := c.sessions.insert key c.allocated
        authKeyID := some key.authKeyID
        actors := Function.update c.actors c.allocated ⟨key, none, .running⟩
        allocated := c.allocated + 1
        run := .routed c.allocated }
  | leaseEnded {actor : ActorRef} {cause : ConnectionError} : (c.actors actor).cause = none →
      Moves c (.endLease actor cause) (c.setActor actor { c.actors actor with cause := some cause })
  | shutdown {op : ConnectionOp} {actor : ActorRef} {cause : ConnectionError} :
      c.refusedKey op = none → (c.actors actor).cause = some cause →
      Moves c op (c.setActor actor { c.actors actor with stage := .closing cause })
  | shutdownEnded {op : ConnectionOp} {actor : ActorRef} {cause : ConnectionError} :
      c.refusedKey op = none → c.run = .ended cause →
      Moves c op (c.setActor actor { c.actors actor with
        cause := some ((c.actors actor).cause.getD cause)
        stage := .closing cause })
  | removed {op : ConnectionOp} {actor : ActorRef} {cause : ConnectionError} :
      c.refusedKey op = none → (∀ key, c.run ≠ .acquiring key) →
      (c.actors actor).stage = .closing cause →
      Moves c op ((c.detach actor cause).setActor actor { c.actors actor with stage := .removed })
  | closed {op : ConnectionOp} : c.refusedKey op = none → Moves c op { c with closed := true }

theorem isEnded_eq_false {run : RunStage} (h : c.run = run)
    (hrun : ∀ cause, run ≠ .ended cause) : c.isEnded = false := by
  unfold isEnded
  split
  next cause hca => exact absurd (h.symm.trans hca) (hrun cause)
  · rfl

theorem handleEncrypted_moves (hrun : c.run = .reading) (authKeyID : KeyID) (sessionID : Int) :
    Moves c (.readEncrypted authKeyID sessionID) (c.handleEncrypted authKeyID sessionID) := by
  have hend := isEnded_eq_false hrun (fun _ => RunStage.noConfusion)
  have href : ⟨authKeyID, sessionID⟩ ∉ c.poisoned →
      c.refusedKey (.readEncrypted authKeyID sessionID) = none := fun hcln => if_neg hcln
  unfold handleEncrypted
  split
  · exact .stopped _ hend
  rcases sessionFor_cases c ⟨authKeyID, sessionID⟩ with
    ⟨cause, heq⟩ | ⟨actor, hcln, -, heq⟩ | ⟨hcln, hlk, heq⟩
  · rw [heq]
    exact .stopped cause hend
  · rw [heq]
    exact .advanced hend (href hcln) (fun _ => RunStage.noConfusion)
      (fun _ => RunStage.noConfusion)
  · rw [heq]
    exact .acquiring hend (href hcln) hcln hlk

theorem handleUnencrypted_moves (hrun : c.run = .reading) (result : Except ConnectionError (Option KeyID)) :
    Moves c (.readUnencrypted result) (c.handleUnencrypted result) := by
  have hend := isEnded_eq_false hrun (fun _ => RunStage.noConfusion)
  unfold handleUnencrypted
  split
  · exact .stopped _ hend
  split
  · exact .stopped _ hend
  · exact .authorized _ rfl

theorem step_moves {c' : Connection} {op : ConnectionOp} (h : c.step op = some c') : Moves c op c' := by
  cases op with
  | readError cause =>
    dsimp only [step] at h
    split at h
    next hrun =>
      cases h
      exact .stopped cause (isEnded_eq_false hrun (fun _ => RunStage.noConfusion))
    · cases h
  | readUnencrypted result =>
    dsimp only [step, read] at h
    split at h
    next hrun =>
      cases h
      exact handleUnencrypted_moves hrun.1 result
    · cases h
  | readEncrypted authKeyID sessionID =>
    dsimp only [step, read] at h
    split at h
    next hrun =>
      cases h
      exact handleEncrypted_moves hrun.1 authKeyID sessionID
    · cases h
  | newConnectionSession result =>
    dsimp only [step, newConnectionSession] at h
    split at h
    next key hrun =>
      split at h
      next cause =>
        cases h
        exact .stopped cause (isEnded_eq_false hrun (fun _ => RunStage.noConfusion))
      cases h
      exact .opened hrun rfl
    · cases h
  | leaseSnapshot =>
    dsimp only [step, leaseSnapshot] at h
    split at h
    next actor hrun =>
      have hend := isEnded_eq_false hrun (fun _ => RunStage.noConfusion)
      split at h
      next cause hca =>
        cases h
        exact .stopped cause hend
      rename_i hca
      cases h
      refine .advanced hend ?_ (fun _ => RunStage.noConfusion) (fun _ => RunStage.noConfusion)
      unfold refusedKey
      rw [hrun]
      dsimp only
      rw [hca]
      exact if_neg (fun heq => nomatch heq)
    · cases h
  | finishFrame result =>
    dsimp only [step, finishFrame] at h
    split at h
    next actor hrun =>
      have hend := isEnded_eq_false hrun (fun _ => RunStage.noConfusion)
      split at h
      next cause =>
        cases h
        exact .stopped cause hend
      cases h
      exact .advanced hend rfl (fun _ => RunStage.noConfusion) (fun _ => RunStage.noConfusion)
    · cases h
  | endLease actor cause =>
    dsimp only [step, endLease] at h
    split at h
    next hact =>
      cases h
      exact .leaseEnded hact.2
    · cases h
  | shutdownLease actor =>
    dsimp only [step, shutdownLease] at h
    split at h
    next cause hca hst =>
      split at h
      · cases h
        exact .shutdown rfl hca
      · cases h
    · cases h
  | shutdownActor actor =>
    dsimp only [step, shutdownActor] at h
    split at h
    next cause hrun hst =>
      split at h
      · cases h
        exact .shutdownEnded rfl hrun
      · cases h
    · cases h
  | removeSession actor =>
    dsimp only [step, removeSession] at h
    split at h
    next cause hst =>
      split at h
      · cases h
      rename_i hfr
      cases h
      refine .removed rfl (fun key hrun => hfr ?_) hst
      unfold isAcquiring
      rw [hrun]
    · cases h
  | close =>
    cases h
    exact .closed rfl

section

variable {c c' : Connection} {op : ConnectionOp}

theorem Sound.setActor (h : c.Sound) {actor : ActorRef} {value : ConnectionActor}
    (hkey : value.key = (c.actors actor).key)
    (hkp : (∀ e, value.cause = some e → e = .leaseLost) → actor < c.allocated →
      c.isEnded = true ∨ c.sessions.lookup value.key = some actor ∨ value.key ∈ c.poisoned)
    (hclo : ∀ cause, value.stage = .closing cause → c.isEnded = true ∨ value.cause = some cause) :
    (c.setActor actor value).Sound := by
  have hact : ∀ other, (c.setActor actor value).actors other =
      if other = actor then value else c.actors other := by
    intro other
    show Function.update c.actors actor value other = _
    split
    next heq => rw [heq, Function.update_self]
    next hne => rw [Function.update_of_ne hne]
  refine ⟨fun key other hlk => ?_, h.acquiring, fun other hother hca => ?_, fun other cause hst => ?_⟩
  · obtain ⟨hlt, hsm⟩ := h.attached key other hlk
    refine ⟨hlt, ?_⟩
    rw [hact]
    split
    next heq => rw [hkey, ← heq, hsm]
    · exact hsm
  · rw [hact] at hca ⊢
    split at hca
    next heq =>
      rw [if_pos heq, heq]
      exact hkp hca (heq ▸ hother)
    next hne =>
      rw [if_neg hne]
      exact h.kept other hother hca
  · rw [hact] at hst ⊢
    split at hst
    next heq =>
      rw [if_pos heq]
      exact hclo cause hst
    next hne =>
      rw [if_neg hne]
      exact h.closing other cause hst

section

variable (c : Connection) (actor : ActorRef) (cause : ConnectionError)

theorem detach_keeps :
    (c.detach actor cause).actors = c.actors ∧ (c.detach actor cause).allocated = c.allocated ∧
      (c.detach actor cause).run = c.run ∧ (c.detach actor cause).acquired = c.acquired := by
  unfold detach
  dsimp only
  split
  · split <;> exact ⟨rfl, rfl, rfl, rfl⟩
  · exact ⟨rfl, rfl, rfl, rfl⟩

theorem detach_lookup : (∀ key other, other ≠ actor →
      ((c.detach actor cause).sessions.lookup key = some other ↔ c.sessions.lookup key = some other)) ∧
    (∀ key, (c.detach actor cause).sessions.lookup key = some actor → c.sessions.lookup key = some actor) ∧
    (∀ key ∈ c.poisoned, key ∈ (c.detach actor cause).poisoned) ∧
    (c.sessions.lookup (c.actors actor).key = some actor → cause = .leaseLost →
      (c.actors actor).key ∈ (c.detach actor cause).poisoned) := by
  have her : ∀ key other, other ≠ actor → c.sessions.lookup (c.actors actor).key = some actor →
      ((c.sessions.erase (c.actors actor).key).lookup key = some other ↔
        c.sessions.lookup key = some other) := by
    intro key other hne hatt
    by_cases heq : key = (c.actors actor).key
    · rw [heq, AList.lookup_erase, hatt]
      exact ⟨(nomatch ·), fun hsm => absurd (Option.some.inj hsm).symm hne⟩
    · rw [AList.lookup_erase_ne heq]
  have hbc : ∀ key, (c.sessions.erase (c.actors actor).key).lookup key = some actor →
      c.sessions.lookup key = some actor := by
    intro key hlk
    by_cases heq : key = (c.actors actor).key
    · rw [heq, AList.lookup_erase] at hlk
      cases hlk
    · rwa [AList.lookup_erase_ne heq] at hlk
  unfold detach
  dsimp only
  split
  next hatt =>
    split
    · exact ⟨fun key other hne => her key other hne hatt, hbc,
        fun key hin => Finset.mem_insert_of_mem hin, fun _ _ => Finset.mem_insert_self _ _⟩
    next hca =>
      exact ⟨fun key other hne => her key other hne hatt, hbc, fun _ hin => hin, fun _ hls => absurd hls hca⟩
  next hnot =>
    exact ⟨fun _ _ _ => Iff.rfl, fun _ hlk => hlk, fun _ hin => hin, fun hatt => absurd hatt hnot⟩

end

theorem Sound.removeSession (h : c.Sound) {actor : ActorRef} {cause : ConnectionError}
    (hfr : ∀ key, c.run ≠ .acquiring key) (hst : (c.actors actor).stage = .closing cause) :
    ((c.detach actor cause).setActor actor { c.actors actor with stage := .removed }).Sound := by
  obtain ⟨hact, hall, hrun, -⟩ := detach_keeps c actor cause
  obtain ⟨hoth, hbc, hpoi, hls⟩ := detach_lookup c actor cause
  have hen : (c.detach actor cause).isEnded = c.isEnded := by
    unfold isEnded
    rw [hrun]
  -- First without the actor that is removed, then with it.
  have hrs : ∀ other, other ≠ actor → other < c.allocated →
      (∀ e, (c.actors other).cause = some e → e = .leaseLost) →
      c.isEnded = true ∨ (c.detach actor cause).sessions.lookup (c.actors other).key = some other ∨
        (c.actors other).key ∈ (c.detach actor cause).poisoned := by
    intro other hne hlt hca
    rcases h.kept other hlt hca with hend | hlk | hin
    · exact .inl hend
    · exact .inr (.inl ((hoth _ other hne).mpr hlk))
    · exact .inr (.inr (hpoi _ hin))
  have hsf : actor < c.allocated → (∀ e, (c.actors actor).cause = some e → e = .leaseLost) →
      c.isEnded = true ∨ (c.actors actor).key ∈ (c.detach actor cause).poisoned := by
    intro hlt hca
    rcases h.closing actor cause hst with hend | hsm
    · exact .inl hend
    rcases h.kept actor hlt hca with hend | hlk | hin
    · exact .inl hend
    · exact .inr (hls hlk (hca cause hsm))
    · exact .inr (hpoi _ hin)
  have hval : ∀ other, (((c.detach actor cause).setActor actor
      { c.actors actor with stage := .removed }).actors other).key = (c.actors other).key ∧
      (((c.detach actor cause).setActor actor
        { c.actors actor with stage := .removed }).actors other).cause = (c.actors other).cause := by
    intro other
    show (Function.update (c.detach actor cause).actors actor _ other).key = _ ∧
      (Function.update (c.detach actor cause).actors actor _ other).cause = _
    rw [hact]
    by_cases heq : other = actor
    · rw [heq, Function.update_self]
      exact ⟨rfl, rfl⟩
    · rw [Function.update_of_ne heq]
      exact ⟨rfl, rfl⟩
  refine ⟨fun key other hlk => ?_, fun key hacq => ?_, fun other hother hca => ?_,
    fun other cause' hclo => ?_⟩
  · have hold : c.sessions.lookup key = some other := by
      by_cases heq : other = actor
      · subst heq
        exact hbc key hlk
      · exact (hoth key other heq).mp hlk
    obtain ⟨hlt, hkey⟩ := h.attached key other hold
    refine ⟨?_, (hval other).1.trans hkey⟩
    show other < (c.detach actor cause).allocated
    rw [hall]
    exact hlt
  · exact absurd (hrun.symm.trans hacq) (hfr key)
  · rw [(hval other).1]
    rw [(hval other).2] at hca
    have hlt : other < c.allocated := hall ▸ hother
    show (c.detach actor cause).isEnded = true ∨ _
    rw [hen]
    by_cases heq : other = actor
    · subst heq
      exact (hsf hlt hca).imp_right .inr
    · exact hrs other heq hlt hca
  · have hne : other ≠ actor := by
      rintro rfl
      have hgn : (((c.detach other cause).setActor other
          { c.actors other with stage := .removed }).actors other).stage = .removed := by
        show (Function.update (c.detach other cause).actors other _ other).stage = _
        rw [Function.update_self]
      rw [hgn] at hclo
      cases hclo
    have hold : (((c.detach actor cause).setActor actor
        { c.actors actor with stage := .removed }).actors other).stage = (c.actors other).stage := by
      show (Function.update (c.detach actor cause).actors actor _ other).stage = _
      rw [Function.update_of_ne hne, hact]
    rw [hold] at hclo
    rw [(hval other).2]
    show (c.detach actor cause).isEnded = true ∨ _
    rw [hen]
    exact h.closing other cause' hclo

variable {key : SessionKey}

theorem Sound.open (h : c.Sound) (hrun : c.run = .acquiring key) : ({ c with
      sessions := c.sessions.insert key c.allocated
      authKeyID := some key.authKeyID
      actors := Function.update c.actors c.allocated ⟨key, none, .running⟩
      allocated := c.allocated + 1
      run := .routed c.allocated } : Connection).Sound := by
  have hen := isEnded_eq_false hrun (fun _ => RunStage.noConfusion)
  have hfr := (h.acquiring key hrun).1
  refine ⟨fun key' other hlk => ?_, fun key' hrun' => ?_, fun other hother hca => ?_,
    fun other cause hst => ?_⟩
  · by_cases heq : key' = key
    · subst heq
      dsimp only at hlk ⊢
      rw [AList.lookup_insert] at hlk
      cases hlk
      rw [Function.update_self]
      exact ⟨Nat.lt_succ_self _, rfl⟩
    · dsimp only at hlk ⊢
      rw [AList.lookup_insert_ne heq] at hlk
      obtain ⟨hlt, hkey⟩ := h.attached key' other hlk
      rw [Function.update_of_ne (Nat.ne_of_lt hlt)]
      exact ⟨Nat.lt_succ_of_lt hlt, hkey⟩
  · cases hrun'
  · dsimp only at hother hca ⊢
    by_cases heq : other = c.allocated
    · subst heq
      rw [Function.update_self]
      exact .inr (.inl (AList.lookup_insert _))
    have hlt : other < c.allocated := Nat.lt_of_le_of_ne (Nat.le_of_lt_succ hother) heq
    rw [Function.update_of_ne heq] at hca ⊢
    rcases h.kept other hlt hca with hend | hlk | hin
    · rw [hen] at hend
      cases hend
    · refine .inr (.inl ?_)
      rw [AList.lookup_insert_ne]
      · exact hlk
      · rintro heq
        rw [heq, hfr] at hlk
        cases hlk
    · exact .inr (.inr hin)
  · dsimp only at hst ⊢
    by_cases heq : other = c.allocated
    · rw [heq, Function.update_self] at hst
      cases hst
    rw [Function.update_of_ne heq] at hst ⊢
    rcases h.closing other cause hst with hend | hsm
    · rw [hen] at hend
      cases hend
    · exact .inr hsm

theorem Sound.step (h : c.Sound) (hsp : c.step op = some c') : c'.Sound := by
  cases step_moves hsp with
  | stopped cause => exact h.stop cause
  | authorized => exact ⟨h.attached, h.acquiring, h.kept, h.closing⟩
  | advanced hen _ hrun => exact h.goto hen (fun key hacq => absurd hacq (hrun key))
  | acquiring hen _ hcln hlk =>
    refine h.goto hen (fun key hrun => ?_)
    cases hrun
    exact ⟨hlk, hcln⟩
  | opened hrun => exact h.open hrun
  | @leaseEnded actor cause hact =>
    refine h.setActor rfl (fun _ hlt => h.kept actor hlt ?_) (fun cause' hst => ?_)
    · intro e he
      rw [hact] at he
      cases he
    · rcases h.closing actor cause' hst with hend | hsm
      · exact .inl hend
      · rw [hact] at hsm
        cases hsm
  | @shutdown _ actor cause _ hca =>
    refine h.setActor rfl (fun hls hlt => h.kept actor hlt hls) (fun cause' hst => ?_)
    cases hst
    exact .inr hca
  | @shutdownEnded _ actor cause _ hrun =>
    have hen : c.isEnded = true := by
      unfold isEnded
      rw [hrun]
    exact h.setActor rfl (fun _ _ => .inl hen) (fun _ _ => .inl hen)
  | removed _ hfr hst => exact h.removeSession hfr hst
  | closed => exact ⟨h.attached, h.acquiring, h.kept, h.closing⟩

theorem Moves.actor (hmv : Moves c op c') {actor : ActorRef} (hac : actor < c.allocated) :
    actor < c'.allocated ∧ (c'.actors actor).key = (c.actors actor).key ∧
      ∀ e, (c.actors actor).cause = some e → (c'.actors actor).cause = some e := by
  have hset : ∀ {d : Connection} {other : ActorRef} {value : ConnectionActor}, d.actors = c.actors →
      d.allocated = c.allocated → value.key = (c.actors other).key →
      (∀ e, (c.actors other).cause = some e → value.cause = some e) →
      actor < (d.setActor other value).allocated ∧
        ((d.setActor other value).actors actor).key = (c.actors actor).key ∧
        ∀ e, (c.actors actor).cause = some e → ((d.setActor other value).actors actor).cause = some e := by
    intro d other value hact hall hkey hca
    refine ⟨?_, ?_⟩
    · show actor < d.allocated
      rw [hall]
      exact hac
    · show (Function.update d.actors other value actor).key = _ ∧ ∀ e, _ →
        (Function.update d.actors other value actor).cause = some e
      by_cases heq : actor = other
      · rw [heq, Function.update_self]
        exact ⟨hkey, hca⟩
      · rw [Function.update_of_ne heq, hact]
        exact ⟨rfl, fun _ he => he⟩
  cases hmv with
  | stopped => exact ⟨hac, rfl, fun _ he => he⟩
  | authorized => exact ⟨hac, rfl, fun _ he => he⟩
  | advanced => exact ⟨hac, rfl, fun _ he => he⟩
  | acquiring => exact ⟨hac, rfl, fun _ he => he⟩
  | opened =>
    dsimp only
    rw [Function.update_of_ne (Nat.ne_of_lt hac)]
    exact ⟨Nat.lt_succ_of_lt hac, rfl, fun _ he => he⟩
  | leaseEnded hai =>
    refine hset rfl rfl rfl (fun e he => ?_)
    rw [hai] at he
    cases he
  | shutdown => exact hset rfl rfl rfl (fun _ he => he)
  | shutdownEnded =>
    refine hset rfl rfl rfl (fun e he => ?_)
    rw [he, Option.getD_some]
  | @removed _ other cause =>
    obtain ⟨hact, hall, -, -⟩ := detach_keeps c other cause
    exact hset hact hall rfl (fun _ he => he)
  | closed => exact ⟨hac, rfl, fun _ he => he⟩

/-- `Acquire` is not called for a key whose lease was lost. -/
theorem Lost.step (h : c.Sound) (hls : c.Lost key) (hst : c.step op = some c') :
    c'.Lost key ∧ c'.acquired.count key = c.acquired.count key := by
  obtain ⟨actor, hac, hca, hkey⟩ := hls
  have hmv := step_moves hst
  obtain ⟨hac', hkey', hca'⟩ := hmv.actor hac
  refine ⟨⟨actor, hac', hca' _ hca, hkey'.trans hkey⟩, ?_⟩
  cases hmv with
  | @acquiring _ key' hen _ hcln hlk =>
    have hne : key' ≠ key := by
      rintro rfl
      rcases h.kept actor hac (fun e he => Option.some.inj (he.symm.trans hca)) with
        hend | hatt | hin
      · rw [hen] at hend
        cases hend
      · rw [hkey, hlk] at hatt
        cases hatt
      · rw [hkey] at hin
        exact hcln hin
    rw [List.count_append, List.count_singleton, if_neg (by simpa using hne), Nat.add_zero]
  | @removed _ other cause =>
    show (c.detach other cause).acquired.count key = _
    rw [(detach_keeps c other cause).2.2.2]
  | stopped => rfl
  | authorized => rfl
  | advanced => rfl
  | opened => rfl
  | leaseEnded => rfl
  | shutdown => rfl
  | shutdownEnded => rfl
  | closed => rfl

theorem Moves.ends_of_refused (hmv : Moves c op c')
    (href : c.refusedKey op = some key) : c.isEnded = false ∧ c'.isEnded = true := by
  have hcon : ∀ {p : Prop}, c.refusedKey op = none → p := by
    intro p hno
    rw [hno] at href
    cases href
  cases hmv with
  | stopped cause hend => exact ⟨hend, rfl⟩
  | leaseEnded => cases href
  | authorized _ hno => exact hcon hno
  | advanced _ hno => exact hcon hno
  | acquiring _ hno => exact hcon hno
  | opened _ hno => exact hcon hno
  | shutdown hno => exact hcon hno
  | shutdownEnded hno => exact hcon hno
  | removed hno => exact hcon hno
  | closed hno => exact hcon hno

theorem unharmed_iff (hst : c.step op = some c') : Unharmed c op c' ↔ c.endangers op = false := by
  unfold Unharmed endangers
  cases href : c.refusedKey op with
  | none => exact ⟨fun _ => rfl, fun _ key hkey => nomatch hkey⟩
  | some key =>
    obtain ⟨hbef, haft⟩ := (step_moves hst).ends_of_refused href
    rw [Bool.eq_false_iff, ne_eq, Bool.and_eq_true, decide_eq_true_iff, List.any_eq_true]
    constructor
    · rintro hunh ⟨⟨⟨key', actor⟩, hin, hlv⟩, hcr⟩
      rw [Bool.and_eq_true, decide_eq_true_iff, decide_eq_true_iff] at hlv
      have hser := hunh key rfl hcr key' actor hlv.1 ⟨hbef, AList.mem_lookup_iff.mpr hin, hlv.2⟩
      rw [hser.1] at haft
      cases haft
    · intro hsf key'' hkey hcr key' actor hne hser
      cases hkey
      refine absurd ⟨⟨⟨key', actor⟩, AList.mem_lookup_iff.mp hser.2.1, ?_⟩, hcr⟩ hsf
      rw [Bool.and_eq_true, decide_eq_true_iff, decide_eq_true_iff]
      exact ⟨hne, hser.2.2⟩

/-- A served session stays served until its own lease ends or `Run` returns. -/
theorem Sound.serves_step (h : c.Sound) (hsp : c.step op = some c')
    {actor : ActorRef} (hser : c.Serves key actor) :
    c'.Serves key actor ∨ c'.isEnded = true ∨ ∃ cause, op = .endLease actor cause := by
  obtain ⟨hen, hlk, hact⟩ := hser
  obtain ⟨hlt, hkey⟩ := h.attached key actor hlk
  cases step_moves hsp with
  | stopped => exact .inr (.inl rfl)
  | authorized => exact .inl ⟨hen, hlk, hact⟩
  | advanced _ _ _ hrun => exact .inl ⟨isEnded_eq_false rfl hrun, hlk, hact⟩
  | acquiring => exact .inl ⟨rfl, hlk, hact⟩
  | @opened _ key' hrun =>
    refine .inl ⟨rfl, ?_, ?_⟩
    · rw [AList.lookup_insert_ne]
      · exact hlk
      · rintro rfl
        rw [(h.acquiring key hrun).1] at hlk
        cases hlk
    · dsimp only
      rw [Function.update_of_ne (Nat.ne_of_lt hlt)]
      exact hact
  | @leaseEnded other cause hother =>
    by_cases heq : actor = other
    · subst heq
      exact .inr (.inr ⟨cause, rfl⟩)
    refine .inl ⟨hen, hlk, ?_⟩
    show (Function.update c.actors other _ actor).cause = none
    rw [Function.update_of_ne heq]
    exact hact
  | @shutdown _ other cause _ hca =>
    have hne : actor ≠ other := by
      rintro rfl
      rw [hact] at hca
      cases hca
    refine .inl ⟨hen, hlk, ?_⟩
    show (Function.update c.actors other _ actor).cause = none
    rw [Function.update_of_ne hne]
    exact hact
  | @shutdownEnded _ other cause _ hrun =>
    refine .inr (.inl ?_)
    show c.isEnded = true
    unfold isEnded
    rw [hrun]
  | @removed _ other cause _ _ hst =>
    have hne : actor ≠ other := by
      rintro rfl
      rcases h.closing actor cause hst with hend | hsm
      · rw [hen] at hend
        cases hend
      · rw [hact] at hsm
        cases hsm
    obtain ⟨hac, -, hrun, -⟩ := detach_keeps c other cause
    refine .inl ⟨?_, ((detach_lookup c other cause).1 key actor hne).mpr hlk, ?_⟩
    · show (c.detach other cause).isEnded = false
      unfold isEnded at hen ⊢
      rw [hrun]
      exact hen
    · show (Function.update (c.detach other cause).actors other _ actor).cause = none
      rw [Function.update_of_ne hne, hac]
      exact hact
  | closed => exact .inl ⟨hen, hlk, hact⟩

end

/-- A key whose lease was lost is never acquired again. A frame refused for such a key leaves the
other sessions served exactly when there is none, or too many keys are poisoned. -/
theorem lost_session_neighbours {sessionCapacity : Int} {c₀ c : Connection} {ops : List ConnectionOp}
    (hnew : newConnection sessionCapacity = some c₀) (run : exec Connection.step c₀ ops = some c) :
    (∀ key later c', c.Lost key → exec Connection.step c later = some c' →
      c'.acquired.count key = c.acquired.count key) ∧
    (Meets Connection.step (fun c op => ∀ c', c.step op = some c' → Unharmed c op c') c₀ ops ↔
      Meets Connection.step (fun c op => c.endangers op = false) c₀ ops) ∧
    (∀ op c' key actor, c.step op = some c' → c.Serves key actor →
      c'.Serves key actor ∨ c'.isEnded = true ∨ ∃ cause, op = .endLease actor cause) := by
  have hsd : c.Sound := by
    apply exec_inductive ?_ ?_ run
    · exact fun _ _ _ h hst => h.step hst
    · exact sound_new hnew
  refine ⟨fun key later c' hls hlat => ?_, ?_, ?_⟩
  · have hinv : c'.Sound ∧ c'.Lost key ∧ c'.acquired.count key = c.acquired.count key := by
      apply exec_inductive ?_ ?_ hlat
      · rintro d op d' ⟨hd, hdlo, hcnt⟩ hst
        obtain ⟨hls', hcnt'⟩ := hdlo.step hd hst
        exact ⟨hd.step hst, hls', hcnt'.trans hcnt⟩
      · exact ⟨hsd, hls, rfl⟩
    exact hinv.2.2
  · refine meets_congr (fun d op d' hst => ?_) run
    rw [← unharmed_iff hst]
    refine ⟨fun hall => hall d' hst, fun hone d'' hst' => ?_⟩
    cases Option.some.inj (hst.symm.trans hst')
    exact hone
  · exact fun op c' key actor hst hser => hsd.serves_step hst hser

def takeover : List ConnectionOp :=
  [.readEncrypted 1 8, .newConnectionSession (.ok ()), .leaseSnapshot, .finishFrame (.ok ()),
   .readEncrypted 1 9, .newConnectionSession (.ok ()), .leaseSnapshot, .finishFrame (.ok ()),
   .endLease 0 .leaseLost, .shutdownLease 0, .removeSession 0]

/-- The second session goes on after the takeover of the first one. -/
theorem lost_session_neighbours_takeover : newConnection 0 = some (fresh 16) ∧
    Meets Connection.step (fun c op => ∀ c', c.step op = some c' → Unharmed c op c') (fresh 16)
      (takeover ++ [.readEncrypted 1 9, .leaseSnapshot, .finishFrame (.ok ())]) := by
  have hdn : (exec Connection.step (fresh 16)
      (takeover ++ [.readEncrypted 1 9, .leaseSnapshot, .finishFrame (.ok ())])).isSome = true := by
    decide
  obtain ⟨c, hrun⟩ := Option.isSome_iff_exists.mp hdn
  have hnew : newConnection 0 = some (fresh 16) := rfl
  refine ⟨hnew, (lost_session_neighbours hnew hrun).2.1.mpr ?_⟩
  decide

/-- A frame that the first client may still send ends `Run` and with it the second session. -/
theorem lost_session_frame_ends_run : ∃ c c', newConnection 0 = some (fresh 16) ∧
    exec Connection.step (fresh 16) takeover = some c ∧ c.step (.readEncrypted 1 8) = some c' ∧
    c.poisoned = {⟨1, 8⟩} ∧ c.sessionCapacity = 16 ∧ c.Serves ⟨1, 9⟩ 1 ∧ c'.run = .ended .leaseLost := by
  have hks : (exec Connection.step (fresh 16) takeover).map (fun c =>
      (c.poisoned, c.sessionCapacity)) = some ({⟨1, 8⟩}, 16) := by decide
  have hsnd : (exec Connection.step (fresh 16) takeover).map (fun c =>
      (c.isEnded, c.sessions.lookup ⟨1, 9⟩, (c.actors 1).cause, (c.step (.readEncrypted 1 8)).map (·.run))) =
      some (false, some 1, none, some (.ended .leaseLost)) := by decide
  obtain ⟨c, hrun, hpoi⟩ := Option.map_eq_some_iff.mp hks
  rw [hrun, Option.map_some, Option.some.injEq] at hsnd
  simp only [Prod.mk.injEq] at hpoi hsnd
  obtain ⟨hen, hlk, hact, haft⟩ := hsnd
  obtain ⟨c', hst, hend⟩ := Option.map_eq_some_iff.mp haft
  exact ⟨c, c', rfl, hrun, hst, hpoi.1, hpoi.2, ⟨hen, hlk, hact⟩, hend⟩

end Tlrpc.Connection
