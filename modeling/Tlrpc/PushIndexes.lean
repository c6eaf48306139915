import Tlrpc.PushRegistry

namespace Tlrpc.RuntimePushRegistry

def Registered (r : RuntimePushRegistry) (key : SessionKey) (sender : RequestSender) : Prop :=
  ∃ target ∈ r.registrations key, (r.memory target).sender = sender

def Reaches (r : RuntimePushRegistry) (userID : Int) (key : SessionKey) (target : RegistrationRef) :
    Prop :=
  target ∈ r.registrations key ∧ (r.memory target).reachable = true ∧
    (r.memory target).binding.userID = userID

/-- A registration stands once, under one key, where its sender has no other. -/
structure KeyIndexed (r : RuntimePushRegistry) : Prop where
  allocated : ∀ key, ∀ target ∈ r.registrations key, target < r.allocated
  nodup : ∀ key, (r.registrations key).Nodup
  oneKey : ∀ key key' target, target ∈ r.registrations key → target ∈ r.registrations key' → key = key'
  oneSender : ∀ key, ∀ target ∈ r.registrations key, ∀ other ∈ r.registrations key,
    (r.memory target).sender = (r.memory other).sender → target = other
  noneEmpty : Buckets.NoneEmpty r.byKey

/-- What holds whenever the registry's mutex is free. -/
structure Indexed (r : RuntimePushRegistry) : Prop where
  keys : r.KeyIndexed
  bound : ∀ target, (r.memory target).reachable = true → (r.memory target).binding.userID ≠ 0
  users : NestedBuckets.Lists r.byUser r.Reaches

theorem indexed_new (schemaLayer : Option Int) : (newRuntimePushRegistry schemaLayer).Indexed where
  keys := ⟨nofun, fun _ => List.nodup_nil, nofun, nofun, Buckets.noneEmpty_empty⟩
  bound := nofun
  users := NestedBuckets.lists_empty.congr (fun _ _ _ => ⟨False.elim, fun h => nomatch h.1⟩)

variable {key key' : SessionKey} {r : RuntimePushRegistry} {target : RegistrationRef}
  {value : RuntimePushBinding}

variable {sender sender' : RequestSender} {other : RegistrationRef}

theorem find_eq_none : r.findRuntimePushBinding key sender = none ↔ ¬r.Registered key sender := by
  unfold findRuntimePushBinding Registered
  rw [List.find?_eq_none]
  simp only [decide_eq_true_eq, not_exists, not_and]

theorem find_eq_some (h : r.findRuntimePushBinding key sender = some target) :
    target ∈ r.registrations key ∧ (r.memory target).sender = sender := by
  have hsnd := List.find?_some h
  exact ⟨List.mem_of_find?_eq_some h, of_decide_eq_true hsnd⟩

theorem Indexed.removeUserLocked (h : r.Indexed) (hmem : target ∈ r.registrations key) :
    NestedBuckets.Lists (r.removeUserLocked key target (r.memory target).binding.userID).byUser
      (fun userID key' other => r.Reaches userID key' other ∧ other ≠ target) := by
  unfold RuntimePushRegistry.removeUserLocked
  split
  next hz =>
    refine h.users.congr (fun userID key' other => ⟨fun hrch => ⟨hrch, ?_⟩, And.left⟩)
    rintro rfl
    exact h.bound other hrch.2.1 hz
  refine (h.users.discard _ key target).congr (fun userID key' other => ?_)
  refine and_congr_right (fun hrch => not_congr ⟨And.right, ?_⟩)
  rintro rfl
  exact ⟨⟨hrch.2.2.symm, h.keys.oneKey _ _ _ hrch.1 hmem⟩, rfl⟩

section

variable (r : RuntimePushRegistry) (key : SessionKey)

theorem registrations_register
    (value : RuntimePushBinding) (key' : SessionKey) : (r.register key value).registrations key' =
      if key' = key then r.registrations key ++ [r.allocated] else r.registrations key' := by
  unfold register registrations
  split <;> exact Buckets.bucket_add r.byKey key r.allocated key'

theorem memory_register (value : RuntimePushBinding) :
    (r.register key value).memory = Function.update r.memory r.allocated value := by
  unfold register
  split <;> rfl

section

variable (target : RegistrationRef)

theorem registrations_rebind
    (value : RuntimePushBinding) : (r.rebind key target value).registrations = r.registrations := by
  unfold rebind RuntimePushRegistry.removeUserLocked
  dsimp only
  split <;> split <;> rfl

theorem memory_rebind (value : RuntimePushBinding) :
    (r.rebind key target value).memory = Function.update r.memory target value := by
  unfold rebind RuntimePushRegistry.removeUserLocked
  dsimp only
  split <;> split <;> rfl

theorem registrations_unregister (key' : SessionKey) : (r.unregister key target).registrations key' =
      if key' = key then (r.registrations key).erase target else r.registrations key' := by
  unfold unregister RuntimePushRegistry.removeUserLocked registrations
  dsimp only
  split <;> exact Buckets.bucket_discard r.byKey key target key'

theorem memory_unregister : (r.unregister key target).memory = Function.update r.memory target
      { r.memory target with reachable := false, acceptsPush := false } := by
  unfold unregister RuntimePushRegistry.removeUserLocked
  dsimp only
  split <;> rfl

end

end

theorem lists_enter {p : Int → SessionKey → RegistrationRef → Prop}
    (h : NestedBuckets.Lists r.byUser p) (habs : ∀ userID key', ¬p userID key' target) : NestedBuckets.Lists
      (if value.reachable then r.addUserLocked key target value.binding.userID else r).byUser
      (fun userID key' other => p userID key' other ∨
        (other = target ∧ key' = key ∧ value.reachable = true ∧ value.binding.userID = userID)) := by
  split
  next hrch =>
    refine (h.add (habs _ key)).congr (fun userID key' other => or_congr_right ?_)
    constructor
    · rintro ⟨⟨rfl, rfl⟩, rfl⟩
      exact ⟨rfl, rfl, hrch, rfl⟩
    · rintro ⟨rfl, rfl, -, rfl⟩
      exact ⟨⟨rfl, rfl⟩, rfl⟩
  next hrch =>
    refine h.congr (fun userID key' other => ⟨.inl, fun hor => hor.resolve_right ?_⟩)
    exact fun hother => hrch hother.2.2.1

theorem mem_register : target ∈ (r.register key value).registrations key' ↔
      target ∈ r.registrations key' ∨ (target = r.allocated ∧ key' = key) := by
  rw [registrations_register]
  split
  next h => rw [h, List.mem_append, List.mem_singleton, eq_self_iff_true, and_true]
  next h => exact ⟨.inl, fun hor => hor.resolve_right (fun hnew => h hnew.2)⟩

theorem KeyIndexed.not_mem_allocated (h : r.KeyIndexed) (key : SessionKey) :
    r.allocated ∉ r.registrations key :=
  fun hin => Nat.lt_irrefl _ (h.allocated key _ hin)

theorem KeyIndexed.memory_register (h : r.KeyIndexed) (hin : target ∈ r.registrations key') :
    (r.register key value).memory target = r.memory target := by
  rw [RuntimePushRegistry.memory_register]
  exact Function.update_of_ne (Nat.ne_of_lt (h.allocated key' target hin)) _ _

theorem KeyIndexed.register (h : r.KeyIndexed) (hnew : ¬r.Registered key value.sender) :
    (r.register key value).KeyIndexed := by
  have hval : (r.register key value).memory r.allocated = value := by
    rw [RuntimePushRegistry.memory_register, Function.update_self]
  have hks : (r.register key value).byKey = Buckets.add r.byKey key r.allocated ∧
      (r.register key value).allocated = r.allocated + 1 := by
    unfold RuntimePushRegistry.register
    split <;> exact ⟨rfl, rfl⟩
  refine ⟨fun key' target hin => ?_, fun key' => ?_, fun key' key'' target hin hin' => ?_,
    fun key' target hin other hin' hsnd => ?_, ?_⟩
  · rw [hks.2]
    rcases mem_register.mp hin with hold | ⟨rfl, -⟩
    · exact Nat.lt_succ_of_lt (h.allocated key' target hold)
    · exact Nat.lt_succ_self _
  · rw [registrations_register]
    split
    · exact (h.nodup key).append (List.nodup_singleton _)
        (List.disjoint_singleton.mpr (h.not_mem_allocated key))
    · exact h.nodup key'
  · rcases mem_register.mp hin with hold | ⟨rfl, rfl⟩
    · rcases mem_register.mp hin' with hold' | ⟨rfl, -⟩
      · exact h.oneKey key' key'' target hold hold'
      · exact absurd hold (h.not_mem_allocated key')
    · rcases mem_register.mp hin' with hold' | ⟨-, rfl⟩
      · exact absurd hold' (h.not_mem_allocated key'')
      · rfl
  · rcases mem_register.mp hin with hold | ⟨rfl, rfl⟩
    · rw [h.memory_register hold] at hsnd
      rcases mem_register.mp hin' with hold' | ⟨rfl, rfl⟩
      · rw [h.memory_register hold'] at hsnd
        exact h.oneSender key' target hold other hold' hsnd
      · rw [hval] at hsnd
        exact absurd ⟨target, hold, hsnd⟩ hnew
    · rw [hval] at hsnd
      rcases mem_register.mp hin' with hold' | ⟨rfl, -⟩
      · rw [h.memory_register hold'] at hsnd
        exact absurd ⟨other, hold', hsnd.symm⟩ hnew
      · rfl
  · rw [hks.1]
    exact h.noneEmpty.add key r.allocated

theorem Indexed.register (h : r.Indexed) (hnew : ¬r.Registered key value.sender)
    (hbd : value.reachable = true → value.binding.userID ≠ 0) : (r.register key value).Indexed := by
  refine ⟨h.keys.register hnew, fun target hrch => ?_, ?_⟩
  · rw [memory_register] at hrch ⊢
    by_cases heq : target = r.allocated
    · rw [heq, Function.update_self] at hrch ⊢
      exact hbd hrch
    · rw [Function.update_of_ne heq] at hrch ⊢
      exact h.bound target hrch
  · have habs : ∀ userID key', ¬r.Reaches userID key' r.allocated :=
      fun _ key' hrch => h.keys.not_mem_allocated key' hrch.1
    let entered : RuntimePushRegistry := { (r.store r.allocated value) with
      byKey := Buckets.add r.byKey key r.allocated
      allocated := r.allocated + 1 }
    have huse : NestedBuckets.Lists entered.byUser r.Reaches := h.users
    refine (lists_enter huse habs).congr (fun userID key' other => ?_)
    unfold Reaches
    rw [mem_register]
    constructor
    · rintro (⟨hold, hrch⟩ | ⟨rfl, rfl, hrch⟩)
      · rw [h.keys.memory_register hold]
        exact ⟨.inl hold, hrch⟩
      · rw [memory_register, Function.update_self]
        exact ⟨.inr ⟨rfl, rfl⟩, hrch⟩
    · rintro ⟨hold | ⟨rfl, rfl⟩, hrch⟩
      · rw [h.keys.memory_register hold] at hrch
        exact .inl ⟨hold, hrch⟩
      · rw [memory_register, Function.update_self] at hrch
        exact .inr ⟨rfl, rfl, hrch⟩

theorem Indexed.rebind (h : r.Indexed) (hin : target ∈ r.registrations key)
    (hsnd : value.sender = (r.memory target).sender)
    (hbd : value.reachable = true → value.binding.userID ≠ 0) : (r.rebind key target value).Indexed := by
  have hrg := r.registrations_rebind key target value
  have hmem := r.memory_rebind key target value
  have hsen : ∀ other, ((r.rebind key target value).memory other).sender = (r.memory other).sender := by
    intro other
    rw [hmem]
    by_cases heq : other = target
    · rw [heq, Function.update_self, hsnd]
    · rw [Function.update_of_ne heq]
  have hkp : (r.rebind key target value).byKey = r.byKey ∧
      (r.rebind key target value).allocated = r.allocated := by
    unfold RuntimePushRegistry.rebind RuntimePushRegistry.removeUserLocked
    dsimp only
    split <;> split <;> exact ⟨rfl, rfl⟩
  refine ⟨⟨?_, ?_, ?_, ?_, ?_⟩, fun other hrch => ?_, ?_⟩
  · rw [hrg, hkp.2]
    exact h.keys.allocated
  · rw [hrg]
    exact h.keys.nodup
  · rw [hrg]
    exact h.keys.oneKey
  · rw [hrg]
    simp only [hsen]
    exact h.keys.oneSender
  · rw [hkp.1]
    exact h.keys.noneEmpty
  · rw [hmem] at hrch ⊢
    by_cases heq : other = target
    · rw [heq, Function.update_self] at hrch ⊢
      exact hbd hrch
    · rw [Function.update_of_ne heq] at hrch ⊢
      exact h.bound other hrch
  · have hrem : NestedBuckets.Lists
        ((r.removeUserLocked key target (r.memory target).binding.userID).store target value).byUser
        (fun userID key' other => r.Reaches userID key' other ∧ other ≠ target) :=
      h.removeUserLocked hin
    refine (lists_enter hrem (fun _ _ hrch => hrch.2 rfl)).congr
      (fun userID key' other => ?_)
    unfold Reaches
    rw [hrg, hmem]
    by_cases heq : other = target
    · subst heq
      rw [Function.update_self]
      constructor
      · rintro (⟨-, hne⟩ | ⟨-, rfl, hrch⟩)
        · exact absurd rfl hne
        · exact ⟨hin, hrch⟩
      · rintro ⟨hin', hrch⟩
        exact .inr ⟨rfl, h.keys.oneKey _ _ _ hin' hin, hrch⟩
    · rw [Function.update_of_ne heq]
      constructor
      · rintro (⟨hrch, -⟩ | ⟨heq', -⟩)
        · exact hrch
        · exact absurd heq' heq
      · exact fun hrch => .inl ⟨hrch, heq⟩

theorem Indexed.mem_unregister (h : r.Indexed) (hin : target ∈ r.registrations key) :
    other ∈ (r.unregister key target).registrations key' ↔
      other ∈ r.registrations key' ∧ other ≠ target := by
  rw [registrations_unregister]
  split
  next heq => rw [heq, (h.keys.nodup key).mem_erase_iff, and_comm]
  rename_i hne
  refine ⟨fun hold => ⟨hold, ?_⟩, And.left⟩
  rintro rfl
  exact hne (h.keys.oneKey _ _ _ hold hin)

theorem memory_unregister_ne (hne : other ≠ target) :
    (r.unregister key target).memory other = r.memory other := by
  rw [memory_unregister, Function.update_of_ne hne]

theorem Indexed.unregister (h : r.Indexed) (hin : target ∈ r.registrations key) :
    (r.unregister key target).Indexed := by
  have hkp : (r.unregister key target).byKey = Buckets.discard r.byKey key target ∧
      (r.unregister key target).allocated = r.allocated ∧ (r.unregister key target).byUser =
        (r.removeUserLocked key target (r.memory target).binding.userID).byUser := by
    unfold RuntimePushRegistry.unregister RuntimePushRegistry.removeUserLocked
    dsimp only
    split <;> exact ⟨rfl, rfl, rfl⟩
  refine ⟨⟨fun key' other hin' => ?_, fun key' => ?_, fun key' key'' other hin' hin'' => ?_,
    fun key' other hin' other' hin'' hsnd => ?_, ?_⟩, fun other hrch => ?_, ?_⟩
  · rw [hkp.2.1]
    exact h.keys.allocated key' other ((h.mem_unregister hin).mp hin').1
  · rw [registrations_unregister]
    split
    · exact (h.keys.nodup key).erase target
    · exact h.keys.nodup key'
  · obtain ⟨hold, -⟩ := (h.mem_unregister hin).mp hin'
    obtain ⟨hold', -⟩ := (h.mem_unregister hin).mp hin''
    exact h.keys.oneKey key' key'' other hold hold'
  · obtain ⟨hold, hne⟩ := (h.mem_unregister hin).mp hin'
    obtain ⟨hold', hne'⟩ := (h.mem_unregister hin).mp hin''
    rw [memory_unregister_ne hne, memory_unregister_ne hne'] at hsnd
    exact h.keys.oneSender key' other hold other' hold' hsnd
  · rw [hkp.1]
    exact h.keys.noneEmpty.store key _
  · by_cases heq : other = target
    · rw [memory_unregister, heq, Function.update_self] at hrch
      cases hrch
    · rw [memory_unregister_ne heq] at hrch ⊢
      exact h.bound other hrch
  · rw [hkp.2.2]
    refine (h.removeUserLocked hin).congr (fun userID key' other => ?_)
    unfold Reaches
    rw [h.mem_unregister hin]
    constructor
    · rintro ⟨⟨hin', hrch⟩, hne⟩
      rw [memory_unregister_ne hne]
      exact ⟨⟨hin', hne⟩, hrch⟩
    · rintro ⟨⟨hin', hne⟩, hrch⟩
      rw [memory_unregister_ne hne] at hrch
      exact ⟨⟨hin', hrch⟩, hne⟩

section

variable {r : RuntimePushRegistry} {snapshot : Snapshot} {leaseGeneration : Int}
  {sender : RequestSender} {acceptsPush : Bool}

theorem Indexed.updateSection (h : r.Indexed) (stage : UpdateStage) :
    (r.updateSection snapshot leaseGeneration sender acceptsPush stage).1.Indexed := by
  have hbd : ∀ userID : Int, (userID ≠ 0 && acceptsPush) = true → userID ≠ 0 := by
    intro userID hrch
    exact of_decide_eq_true (Bool.and_eq_true_iff.mp hrch).1
  cases stage with
  | find =>
    unfold RuntimePushRegistry.updateSection
    dsimp only
    split <;> exact h
  | create =>
    unfold RuntimePushRegistry.updateSection
    dsimp only
    split
    · exact h
    next hno => exact h.register (find_eq_none.mp hno) (hbd _)
  | modify target =>
    unfold RuntimePushRegistry.updateSection
    dsimp only
    split
    next hin => exact h.rebind hin rfl (hbd _)
    · exact h

theorem Indexed.registered_updateSection (h : r.Indexed) (stage : UpdateStage) {key : SessionKey} :
    (r.updateSection snapshot leaseGeneration sender acceptsPush stage).1.Registered key sender' ↔
      r.Registered key sender' ∨ (stage = .create ∧ key = snapshot.key ∧ sender' = sender) := by
  cases stage with
  | find =>
    unfold RuntimePushRegistry.updateSection
    dsimp only
    split <;> exact ⟨.inl, fun hor => hor.resolve_right (nomatch ·.1)⟩
  | create =>
    unfold RuntimePushRegistry.updateSection
    dsimp only
    split
    next target hso =>
      refine ⟨.inl, fun hor => hor.elim id ?_⟩
      rintro ⟨-, rfl, rfl⟩
      exact ⟨target, find_eq_some hso⟩
    next hno =>
      constructor
      · rintro ⟨target, hin, hsnd⟩
        rcases mem_register.mp hin with hold | ⟨rfl, hkey⟩
        · rw [h.keys.memory_register hold] at hsnd
          exact .inl ⟨target, hold, hsnd⟩
        · rw [memory_register, Function.update_self] at hsnd
          exact .inr ⟨rfl, hkey, hsnd.symm⟩
      · rintro (⟨target, hin, hsnd⟩ | ⟨-, rfl, rfl⟩)
        · refine ⟨target, mem_register.mpr (.inl hin), ?_⟩
          rw [h.keys.memory_register hin]
          exact hsnd
        · refine ⟨r.allocated, mem_register.mpr (.inr ⟨rfl, rfl⟩), ?_⟩
          rw [memory_register, Function.update_self]
  | modify target =>
    unfold RuntimePushRegistry.updateSection
    dsimp only
    split
    · refine Iff.trans ?_ ⟨.inl, fun hor => hor.resolve_right (nomatch ·.1)⟩
      unfold Registered
      rw [registrations_rebind, memory_rebind]
      refine exists_congr (fun other => and_congr_right (fun _ => ?_))
      by_cases heq : other = target
      · rw [heq, Function.update_self]
      · rw [Function.update_of_ne heq]
    · exact ⟨.inl, fun hor => hor.resolve_right (nomatch ·.1)⟩

variable {key : SessionKey}

theorem Indexed.removeSection (h : r.Indexed) (stage : RemoveStage) :
    (r.removeSection key sender stage).1.Indexed := by
  cases stage with
  | find =>
    unfold RuntimePushRegistry.removeSection
    dsimp only
    split <;> exact h
  | delete target =>
    unfold RuntimePushRegistry.removeSection
    dsimp only
    split
    next hfd => exact h.unregister (find_eq_some hfd).1
    · exact h

theorem Indexed.registered_removeSection (h : r.Indexed) (stage : RemoveStage) {key' : SessionKey} :
    (r.removeSection key sender stage).1.Registered key' sender' ↔ r.Registered key' sender' ∧
        ¬((r.removeSection key sender stage).2 = none ∧ key' = key ∧ sender' = sender) := by
  cases stage with
  | find =>
    unfold RuntimePushRegistry.removeSection
    dsimp only
    split
    next hno =>
      refine ⟨fun hreg => ⟨hreg, ?_⟩, And.left⟩
      rintro ⟨-, rfl, rfl⟩
      exact find_eq_none.mp hno hreg
    · exact ⟨fun hreg => ⟨hreg, (nomatch ·.1)⟩, And.left⟩
  | delete target =>
    unfold RuntimePushRegistry.removeSection
    dsimp only
    split
    next hfd =>
      obtain ⟨hin, hsnd⟩ := find_eq_some hfd
      constructor
      · rintro ⟨other, hother, rfl⟩
        obtain ⟨hold, hne⟩ := (h.mem_unregister hin).mp hother
        rw [memory_unregister_ne hne]
        refine ⟨⟨other, hold, rfl⟩, ?_⟩
        rintro ⟨-, rfl, hsm⟩
        exact hne (h.keys.oneSender key' other hold target hin (hsm.trans hsnd.symm))
      · rintro ⟨⟨other, hold, rfl⟩, hnot⟩
        have hne : other ≠ target := by
          rintro rfl
          exact hnot ⟨rfl, h.keys.oneKey _ _ _ hold hin, hsnd⟩
        refine ⟨other, (h.mem_unregister hin).mpr ⟨hold, hne⟩, ?_⟩
        rw [memory_unregister_ne hne]
    · exact ⟨fun hreg => ⟨hreg, (nomatch ·.1)⟩, And.left⟩

theorem Indexed.hasActiveUser_iff (h : r.Indexed) {userID : Int} :
    r.hasActiveUser userID = true ↔ 0 < userID ∧ ∃ key target, r.Reaches userID key target := by
  unfold hasActiveUser
  rw [Bool.and_eq_true, decide_eq_true_iff, Bool.not_eq_true', ← Bool.not_eq_true, List.isEmpty_iff,
    ← ne_eq, h.users.noneEmpty.inner_entries, h.users.mem_iff]

theorem Indexed.mem_activeUserIDs (h : r.Indexed) {userID : Int} :
    userID ∈ r.activeUserIDs ↔ 0 < userID ∧ ∃ key target, r.Reaches userID key target := by
  unfold activeUserIDs
  rw [List.mem_mergeSort, List.mem_filter, decide_eq_true_iff, and_comm, ← AList.mem_keys, h.users.mem_iff]

end

end Tlrpc.RuntimePushRegistry
