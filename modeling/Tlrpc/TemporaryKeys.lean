import Tlrpc.AuthKeyManager
import Tlrpc.StepSystem

namespace Tlrpc

open List Function Option AList MemoryAuthKeyManager

namespace MemoryAuthKeyManager

variable {m m' : MemoryAuthKeyManager} {due : KeyID → TemporaryAuthKeyInfo → Bool}

/-- The keys that are gone are gone from both maps, and nothing else has changed. -/
structure Discarded (m m' : MemoryAuthKeyManager) (gone : KeyID → Prop) : Prop where
  lost : ∀ id, gone id → m'.keys id = none ∧ m'.temporary.lookup id = none
  kept : ∀ id, ¬ gone id → m'.keys id = m.keys id ∧ m'.temporary.lookup id = m.temporary.lookup id
  length : m'.temporary.keys.length ≤ m.temporary.keys.length

theorem Discarded.refl (m : MemoryAuthKeyManager) : Discarded m m fun _ => False :=
  ⟨fun _ h => h.elim, fun _ _ => ⟨rfl, rfl⟩, le_refl _⟩

theorem Discarded.congr {gone gone' : KeyID → Prop} (h : Discarded m m' gone)
    (hiff : ∀ id, gone id ↔ gone' id) : Discarded m m' gone' :=
  ⟨fun id hid => h.lost id ((hiff id).mpr hid), fun id hid => h.kept id (mt (hiff id).mp hid), h.length⟩

theorem Discarded.trans {m'' : MemoryAuthKeyManager} {gone gone' : KeyID → Prop}
    (h : Discarded m m' gone) (h' : Discarded m' m'' gone') :
    Discarded m m'' fun id => gone id ∨ gone' id := by
  refine ⟨fun id hid => ?_, fun id hid => ?_, h'.length.trans h.length⟩
  · by_cases hlat : gone' id
    · exact h'.lost id hlat
    · obtain ⟨hks, hlk⟩ := h'.kept id hlat
      rw [hks, hlk]
      exact h.lost id (hid.resolve_right hlat)
  · obtain ⟨hear, hlat⟩ := not_or.mp hid
    obtain ⟨hks, hlk⟩ := h'.kept id hlat
    rw [hks, hlk]
    exact h.kept id hear

theorem discarded_discard (m : MemoryAuthKeyManager) (k : KeyID) :
    Discarded m (m.discard k) fun id => id = k := by
  unfold discard
  refine ⟨?_, ?_, ?_⟩
  · rintro id rfl
    exact ⟨update_self .., lookup_erase ..⟩
  · intro id hid
    exact ⟨update_of_ne hid .., lookup_erase_ne hid⟩
  · rw [keys_erase]
    exact length_erase_le

theorem discarded_foldl (due : KeyID → TemporaryAuthKeyInfo → Bool)
    (entries : List (Sigma fun _ : KeyID => TemporaryAuthKeyInfo)) (m : MemoryAuthKeyManager) :
    Discarded m (entries.foldl (fun m entry => if due entry.1 entry.2 then m.discard entry.1 else m) m)
      fun id => ∃ entry ∈ entries, entry.1 = id ∧ due entry.1 entry.2 = true := by
  induction entries generalizing m with
  | nil => exact (Discarded.refl m).congr (by simp)
  | cons entry rest ih =>
    rw [foldl_cons]
    have hfst : Discarded m (if due entry.1 entry.2 then m.discard entry.1 else m)
        fun id => entry.1 = id ∧ due entry.1 entry.2 = true := by
      split
      next hdue => exact (m.discarded_discard entry.1).congr fun id => by rw [and_iff_left hdue, eq_comm]
      next hdue => exact (Discarded.refl m).congr fun id => ⟨False.elim, fun h => hdue h.2⟩
    exact (hfst.trans (ih _)).congr fun id => by simp

section

variable (m : MemoryAuthKeyManager)

theorem discarded_discardWhere (due : KeyID → TemporaryAuthKeyInfo → Bool) : Discarded m (m.discardWhere due)
      fun id => ∃ info, m.temporary.lookup id = some info ∧ due id info = true := by
  refine (discarded_foldl due m.temporary.entries m).congr fun id => ?_
  constructor
  · rintro ⟨⟨k, info⟩, hmem, rfl, hdue⟩
    exact ⟨info, mem_lookup_iff.mpr hmem, hdue⟩
  · rintro ⟨info, hinf, hdue⟩
    exact ⟨⟨id, info⟩, mem_lookup_iff.mp hinf, rfl, hdue⟩

theorem discarded_delete (k : KeyID) : Discarded m (m.delete k)
    fun id => id = k ∨ ∃ info, m.temporary.lookup id = some info ∧ info.permanentKeyID = k := by
  have hfst := m.discarded_discard k
  refine (hfst.trans (discarded_discardWhere _ _)).congr fun id => ?_
  by_cases hid : id = k
  · exact iff_of_true (.inl hid) (.inl hid)
  · rw [(hfst.kept id hid).2]
    simp only [decide_eq_true_eq]

theorem discarded_timerFired (now : Time) (k : KeyID) : Discarded m (m.timerFired now k)
      fun id => id = k ∧ ∃ info, m.temporary.lookup k = some info ∧ info.expiresAt ≤ now := by
  unfold timerFired
  cases hlk : m.temporary.lookup k with
  | none => exact (Discarded.refl m).congr fun id => by simp
  | some info =>
    dsimp only
    split
    next hlat =>
      refine (Discarded.refl m).congr fun id => ⟨False.elim, ?_⟩
      rintro ⟨_, _, hso, hexp⟩
      cases hso
      exact absurd hlat (not_lt_of_ge hexp)
    next hexp =>
      refine (m.discarded_discard k).congr fun id => ?_
      exact ⟨fun hid => ⟨hid, info, rfl, not_lt.mp hexp⟩, fun h => h.1⟩

end

end MemoryAuthKeyManager

/-- What the manager knows of a temporary key agrees with what was done with it. -/
structure TemporaryLife.Agrees (info : TemporaryAuthKeyInfo) (life : TemporaryLife) : Prop where
  expires : life.expiresAt = info.expiresAt
  capped : life.expiresAt ≤ life.insertedAt + maxTemporaryAuthKeyLifetime
  parents : ∀ p ∈ life.parents, p = info.permanentKeyID ∧ p ≠ 0
  orphaned : life.orphaned = false

namespace KeyHistory

variable {s s' : KeyHistory} {m : MemoryAuthKeyManager} {sha1 : List UInt8 → List UInt8}

structure Sound (s : KeyHistory) : Prop where
  lives : ∀ id, Option.Rel TemporaryLife.Agrees (s.manager.temporary.lookup id) (s.lives id)
  held : ∀ id info, s.manager.temporary.lookup id = some info → (s.manager.keys id).isSome
  parent : ∀ id info, s.manager.temporary.lookup id = some info → info.permanentKeyID ≠ 0 →
    (s.manager.keys info.permanentKeyID).isSome ∧
      s.manager.temporary.lookup info.permanentKeyID = none
  count : s.manager.temporary.keys.length ≤ 4096
  numbered : ∀ id life, s.lives id = some life → life.number < s.inserted

variable {id parent : KeyID} {info : TemporaryAuthKeyInfo} {life : TemporaryLife}
  {gone : KeyID → Prop} {m' m : MemoryAuthKeyManager} {expires now : Time} {op : AuthKeyOp}

section

variable (h : s.Sound)
include h

theorem Sound.lives_none (hid : s.manager.temporary.lookup id = none) : s.lives id = none := by
  have hrel := h.lives id
  rw [hid] at hrel
  generalize s.lives id = life at hrel
  cases hrel
  rfl

theorem Sound.lives_some (hid : s.manager.temporary.lookup id = some info) :
    ∃ life, s.lives id = some life ∧ life.Agrees info := by
  have hrel := h.lives id
  rw [hid] at hrel
  generalize s.lives id = life at hrel
  cases hrel with
  | some hagr => exact ⟨_, rfl, hagr⟩

theorem Sound.info_some (hid : s.lives id = some life) :
    ∃ info, s.manager.temporary.lookup id = some info ∧ life.Agrees info := by
  have hrel := h.lives id
  rw [hid] at hrel
  generalize s.manager.temporary.lookup id = info at hrel
  cases hrel with
  | some hagr => exact ⟨_, rfl, hagr⟩

theorem Sound.follow_lives (hds : s.manager.Discarded m gone) (id : KeyID) :
    (gone id → (s.follow m).lives id = none) ∧ (¬ gone id → (s.follow m).lives id = s.lives id) := by
  unfold follow
  constructor
  · intro hgn
    dsimp only
    rw [(hds.lost id hgn).1]
    rfl
  · intro hkp
    dsimp only
    rw [(hds.kept id hkp).1]
    split
    · rfl
    rename_i hno
    refine (h.lives_none ?_).symm
    cases hlk : s.manager.temporary.lookup id with
    | none => rfl
    | some info => exact absurd (h.held id info hlk) hno

theorem Sound.discard (hds : s.manager.Discarded m gone)
    (hbd : ∀ id info, s.manager.temporary.lookup id = some info → info.permanentKeyID ≠ 0 →
      gone info.permanentKeyID → gone id) : (s.follow m).Sound := by
  have hsty : ∀ id info, m.temporary.lookup id = some info → ¬ gone id := by
    intro id info hlk hgn
    rw [(hds.lost id hgn).2] at hlk
    cases hlk
  refine ⟨fun id => ?_, fun id info hlk => ?_, fun id info hlk hne => ?_, ?_, ?_⟩
  · obtain ⟨hls, hkp⟩ := h.follow_lives hds id
    by_cases hgn : gone id
    · rw [hls hgn]
      show Option.Rel _ (m.temporary.lookup id) none
      rw [(hds.lost id hgn).2]
      exact .none
    rw [hkp hgn]
    show Option.Rel _ (m.temporary.lookup id) _
    rw [(hds.kept id hgn).2]
    exact h.lives id
  · obtain ⟨hks, hold⟩ := hds.kept id (hsty id info hlk)
    show (m.keys id).isSome = true
    rw [hks]
    exact h.held id info (hold.symm.trans hlk)
  · have hid := hsty id info hlk
    have hold := (hds.kept id hid).2.symm.trans hlk
    obtain ⟨hpr, hpe⟩ := h.parent id info hold hne
    have hpar : ¬ gone info.permanentKeyID := fun hgn => hid (hbd id info hold hne hgn)
    obtain ⟨hks, hlo⟩ := hds.kept info.permanentKeyID hpar
    show (m.keys _).isSome = true ∧ m.temporary.lookup _ = none
    rw [hks, hlo]
    exact ⟨hpr, hpe⟩
  · exact hds.length.trans h.count
  · intro id life hlf
    obtain ⟨hls, hkp⟩ := h.follow_lives hds id
    by_cases hgn : gone id
    · rw [hls hgn] at hlf
      cases hlf
    · exact h.numbered id life ((hkp hgn).symm.trans hlf)

theorem Sound.not_bound_to_temporary {info' : TemporaryAuthKeyInfo}
    (hlk : s.manager.temporary.lookup id = some info) (hne : info.permanentKeyID ≠ 0)
    (hpar : s.manager.temporary.lookup info.permanentKeyID = some info') : False := by
  rw [(h.parent id info hlk hne).2] at hpar
  cases hpar

theorem Sound.discard_temporary (hds : s.manager.Discarded m gone)
    (hgn : ∀ id, gone id → ∃ info, s.manager.temporary.lookup id = some info) : (s.follow m).Sound := by
  refine h.discard hds fun id info hlk hne hpar => ?_
  obtain ⟨info', hinf'⟩ := hgn _ hpar
  exact (h.not_bound_to_temporary hlk hne hinf').elim

theorem Sound.orphan_eq (k : KeyID) :
    (s.orphan k).follow (s.manager.delete k) = s.follow (s.manager.delete k) := by
  have hdel := s.manager.discarded_delete k
  unfold follow orphan
  congr 1
  funext id
  dsimp only
  split
  next hpr =>
    have hkp : ¬ (id = k ∨ ∃ info, s.manager.temporary.lookup id = some info ∧ info.permanentKeyID = k) := by
      intro hgn
      rw [(hdel.lost id hgn).1] at hpr
      cases hpr
    cases hlf : s.lives id with
    | none => rfl
    | some life =>
      obtain ⟨info, hinf, hagr⟩ := h.info_some hlf
      have hnot : life.parents.contains k = false := by
        rw [contains_eq_mem, decide_eq_false_iff_not]
        intro hmem
        exact hkp (.inr ⟨info, hinf, (hagr.parents k hmem).1.symm⟩)
      rw [map_some, hnot, Bool.or_false]
  · rfl

theorem Sound.delete (k : KeyID) : ((s.orphan k).follow (s.manager.delete k)).Sound := by
  rw [h.orphan_eq]
  refine h.discard (s.manager.discarded_delete k) fun id info hlk hne hgn => ?_
  rcases hgn with hpar | ⟨info', hinf', _⟩
  · exact .inr ⟨info, hlk, hpar⟩
  · exact (h.not_bound_to_temporary hlk hne hinf').elim

theorem Sound.follow_kept (hks : ∀ k, (s.manager.keys k).isSome → (m.keys k).isSome) (k : KeyID) :
    (s.follow m).lives k = s.lives k := by
  unfold follow
  dsimp only
  split
  · rfl
  rename_i hno
  refine (h.lives_none ?_).symm
  cases hlk : s.manager.temporary.lookup k with
  | none => rfl
  | some info => exact absurd (hks k (h.held k info hlk)) hno

theorem Sound.put (key : AuthKey) : (s.follow (s.manager.put id key)).Sound := by
  have hks : ∀ k, (s.manager.keys k).isSome → ((s.manager.put id key).keys k).isSome := by
    intro k hk
    unfold MemoryAuthKeyManager.put
    dsimp only
    by_cases hid : k = id
    · rw [hid, update_self]
      rfl
    · rw [update_of_ne hid]
      exact hk
  have hliv := h.follow_kept hks
  refine ⟨fun k => ?_, fun k info hlk => ?_, fun k info hlk hne => ?_, h.count, ?_⟩
  · rw [hliv]
    exact h.lives k
  · exact hks k (h.held k info hlk)
  · obtain ⟨hpr, hpe⟩ := h.parent k info hlk hne
    exact ⟨hks _ hpr, hpe⟩
  · intro k life hlf
    rw [hliv] at hlf
    exact h.numbered k life hlf

end

theorem follow_lives_congr {k : KeyID} (hks : m.keys k = m'.keys k) :
    (s.follow m).lives k = (s.follow m').lives k := by
  dsimp only [follow]
  rw [hks]

theorem Sound.insert (h : (s.follow m).Sound) {key : AuthKey}
    (hnew : m.keys id = none) (hrm : m.temporary.keys.length < 4096)
    (hcap : expires ≤ s.now + maxTemporaryAuthKeyLifetime) :
    ((s.follow ⟨update m.keys id (some key), m.temporary.insert id ⟨expires, 0⟩⟩).begin
      id expires).Sound := by
  generalize ht : (s.follow ⟨update m.keys id (some key),
    m.temporary.insert id ⟨expires, 0⟩⟩).begin id expires = t
  have hsf : t.manager.keys id = some key ∧ t.manager.temporary.lookup id = some ⟨expires, 0⟩ ∧
      t.lives id = some ⟨s.inserted, s.now, expires, [], false⟩ := by
    subst ht
    exact ⟨update_self .., lookup_insert _, update_self ..⟩
  have hother : ∀ k, k ≠ id → t.manager.keys k = m.keys k ∧
      t.manager.temporary.lookup k = m.temporary.lookup k ∧ t.lives k = (s.follow m).lives k := by
    intro k hk
    subst ht
    refine ⟨update_of_ne hk .., lookup_insert_ne hk, ?_⟩
    dsimp only [begin]
    rw [update_of_ne hk]
    exact follow_lives_congr (update_of_ne hk ..)
  have hins : t.inserted = s.inserted + 1 := by
    subst ht
    rfl
  have hcnt : t.manager.temporary.keys.length ≤ 4096 := by
    subst ht
    show (m.temporary.insert id ⟨expires, 0⟩).keys.length ≤ 4096
    rw [keys_insert, length_cons]
    have := length_erase_le (a := id) (l := m.temporary.keys)
    omega
  refine ⟨fun k => ?_, fun k info hlk => ?_, fun k info hlk hne => ?_, hcnt, ?_⟩
  · by_cases hk : k = id
    · subst hk
      rw [hsf.2.1, hsf.2.2]
      exact .some ⟨rfl, hcap, fun p hp => absurd hp not_mem_nil, rfl⟩
    · rw [(hother k hk).2.1, (hother k hk).2.2]
      exact h.lives k
  · by_cases hk : k = id
    · rw [hk, hsf.1]
      rfl
    · rw [(hother k hk).1]
      exact h.held k info ((hother k hk).2.1.symm.trans hlk)
  · by_cases hk : k = id
    · rw [hk, hsf.2.1] at hlk
      cases hlk
      exact absurd rfl hne
    · obtain ⟨hpr, hpe⟩ :=
        h.parent k info ((hother k hk).2.1.symm.trans hlk) hne
      have hpar : info.permanentKeyID ≠ id := by
        intro heq
        have hpr : (m.keys info.permanentKeyID).isSome = true := hpr
        rw [heq, hnew] at hpr
        cases hpr
      rw [(hother _ hpar).1, (hother _ hpar).2.1]
      exact ⟨hpr, hpe⟩
  · intro k life hlf
    rw [hins]
    by_cases hk : k = id
    · rw [hk, hsf.2.2] at hlf
      cases hlf
      exact Nat.lt_succ_self _
    · have := h.numbered k life ((hother k hk).2.2.symm.trans hlf)
      exact Nat.lt_succ_of_lt this

theorem Sound.bind (h : s.Sound)
    (hlk : s.manager.temporary.lookup id = some info) (hpr : (s.manager.keys parent).isSome)
    (hpe : s.manager.temporary.lookup parent = none)
    (hsm : info.permanentKeyID = 0 ∨ info.permanentKeyID = parent) (hz : parent ≠ 0)
    (hexp : expires ≤ info.expiresAt) :
    ((s.follow { s.manager with temporary := s.manager.temporary.insert id ⟨expires, parent⟩ }).rebind
      id parent expires).Sound := by
  obtain ⟨life, hlf, hagr⟩ := h.lives_some hlk
  generalize ht : (s.follow { s.manager with
    temporary := s.manager.temporary.insert id ⟨expires, parent⟩ }).rebind id parent expires = t
  have hliv : ∀ k, (s.follow { s.manager with
      temporary := s.manager.temporary.insert id ⟨expires, parent⟩ }).lives k = s.lives k :=
    h.follow_kept fun _ hk => hk
  have hks : t.manager.keys = s.manager.keys := by
    subst ht
    rfl
  have hsf : t.manager.temporary.lookup id = some ⟨expires, parent⟩ ∧ t.lives id =
      some { life with expiresAt := expires, parents := life.parents ++ [parent] } := by
    subst ht
    refine ⟨lookup_insert _, ?_⟩
    dsimp only [rebind]
    rw [update_self, hliv, hlf]
    rfl
  have hother : ∀ k, k ≠ id → t.manager.temporary.lookup k = s.manager.temporary.lookup k ∧
      t.lives k = s.lives k := by
    intro k hk
    subst ht
    refine ⟨lookup_insert_ne hk, ?_⟩
    dsimp only [rebind]
    rw [update_of_ne hk, hliv]
  have hins : t.inserted = s.inserted := by
    subst ht
    rfl
  have hcnt : t.manager.temporary.keys.length ≤ 4096 := by
    subst ht
    show (s.manager.temporary.insert id ⟨expires, parent⟩).keys.length ≤ 4096
    have hmem : id ∈ s.manager.temporary.keys := by
      rw [← AList.mem_keys, ← AList.lookup_isSome, hlk]
      rfl
    have hcnt := h.count
    rw [keys_insert, length_cons, length_erase_of_mem hmem]
    omega
  refine ⟨fun k => ?_, fun k info' hinf' => ?_, fun k info' hinf' hne => ?_, hcnt, ?_⟩
  · by_cases hk : k = id
    · subst hk
      rw [hsf.1, hsf.2]
      refine .some ⟨rfl, ?_, fun p hp => ?_, hagr.orphaned⟩
      · have hle := hagr.capped
        rw [hagr.expires] at hle
        exact hexp.trans hle
      · rcases mem_append.mp hp with hold | hnew
        · obtain ⟨hp, hne⟩ := hagr.parents p hold
          rcases hsm with hno | hsm
          · exact absurd (hp.trans hno) hne
          · exact ⟨hp.trans hsm, hne⟩
        · rw [mem_singleton.mp hnew]
          exact ⟨rfl, hz⟩
    · rw [(hother k hk).1, (hother k hk).2]
      exact h.lives k
  · rw [hks]
    by_cases hk : k = id
    · rw [hk]
      exact h.held id info hlk
    · exact h.held k info' ((hother k hk).1.symm.trans hinf')
  · rw [hks]
    have hfr : ∀ p, s.manager.temporary.lookup p = none → t.manager.temporary.lookup p = none := by
      intro p hp
      by_cases hid : p = id
      · rw [hid, hlk] at hp
        cases hp
      · rw [(hother p hid).1]
        exact hp
    by_cases hk : k = id
    · rw [hk, hsf.1] at hinf'
      cases hinf'
      exact ⟨hpr, hfr _ hpe⟩
    · obtain ⟨hpr', hpe'⟩ := h.parent k info' ((hother k hk).1.symm.trans hinf') hne
      exact ⟨hpr', hfr _ hpe'⟩
  · intro k life' hlf'
    rw [hins]
    by_cases hk : k = id
    · rw [hk, hsf.2] at hlf'
      cases hlf'
      exact h.numbered id life hlf
    · exact h.numbered k life' ((hother k hk).2.symm.trans hlf')

def BindsNonzero (s : KeyHistory) : AuthKeyOp → Prop
  | .bindTemporary id parent expires now =>
    parent = 0 → (s.manager.bindTemporary now id parent expires).1 ≠ .ok ()
  | _ => True

instance decidableBindsNonzero (s : KeyHistory) : ∀ op, Decidable (s.BindsNonzero op)
  | .bindTemporary id parent expires now => inferInstanceAs (Decidable (parent = 0 →
      (s.manager.bindTemporary now id parent expires).1 ≠ .ok ()))
  | .get _ _ | .put _ _ | .delete _ | .putTemporary _ _ _ _ | .timer _ _ => isTrue trivial

theorem bindTemporary_ok (h : m.bindTemporary now id parent expires = (.ok (), m')) :
    ∃ info, m.temporary.lookup id = some info ∧ (m.keys parent).isSome ∧
      m.temporary.lookup parent = none ∧ parent ≠ id ∧
      (info.permanentKeyID = 0 ∨ info.permanentKeyID = parent) ∧ now < expires ∧ expires ≤ info.expiresAt ∧
      m' = { m with temporary := m.temporary.insert id ⟨expires, parent⟩ } := by
  unfold bindTemporary at h
  split at h
  · cases h
  rename_i info hinf
  split at h
  · cases h
  rename_i hpr
  split at h
  · cases h
  rename_i hpe
  split at h
  · cases h
  rename_i hsm
  split at h
  · cases h
  rename_i hexp
  obtain ⟨hpe, hsf⟩ := not_or.mp hpe
  obtain ⟨hfut, hear⟩ := not_or.mp hexp
  cases h
  refine ⟨info, hinf, isSome_iff_ne_none.mpr hpr, ?_, hsf, ?_, not_le.mp hfut, not_lt.mp hear, rfl⟩
  · exact not_isSome_iff_eq_none.mp hpe
  · by_contra hnei
    exact hsm (not_or.mp hnei)

theorem bindTemporary_error {err : AuthKeyError}
    (h : m.bindTemporary now id parent expires = (.error err, m')) : m' = m := by
  unfold bindTemporary at h
  repeat' split at h
  all_goals
    cases h
  all_goals rfl

theorem putTemporary_cases {clock : PutTemporaryClock} {key : AuthKey} {result : Except AuthKeyError Unit}
    (h : m.putTemporary sha1 clock id key expires = (result, m')) :
    (∃ err, result = .error err ∧ (m' = m ∨ m' = m.sweep clock.swept)) ∨
    result = .ok () ∧ expires ≤ clock.capped + maxTemporaryAuthKeyLifetime ∧
      (m.sweep clock.swept).temporary.keys.length < 4096 ∧ (m.sweep clock.swept).keys id = none ∧
      m' = ⟨update (m.sweep clock.swept).keys id (some key),
        (m.sweep clock.swept).temporary.insert id ⟨expires, 0⟩⟩ := by
  unfold putTemporary at h
  dsimp only at h
  split at h
  · cases h
    exact .inl ⟨_, rfl, .inl rfl⟩
  rename_i hchk
  split at h
  · cases h
    exact .inl ⟨_, rfl, .inr rfl⟩
  rename_i hrm
  split at h
  · cases h
    exact .inl ⟨_, rfl, .inr rfl⟩
  rename_i hnew
  cases h
  obtain ⟨_, hchk⟩ := not_or.mp hchk
  refine .inr ⟨rfl, not_lt.mp (not_or.mp hchk).1, not_le.mp hrm, ?_, rfl⟩
  exact not_isSome_iff_eq_none.mp hnew

structure Same (s t : KeyHistory) : Prop where
  manager : t.manager = s.manager
  lives : t.lives = s.lives
  inserted : t.inserted = s.inserted

/-- Apart from the calls that succeed, a step at most discards temporary keys. -/
inductive Acts (s : KeyHistory) : AuthKeyOp → KeyHistory → Prop
  | get {id : KeyID} {now : Time} : Acts s (.get id now) { s with now := now }
  | put {id : KeyID} {key : AuthKey} : Acts s (.put id key) (s.follow (s.manager.put id key))
  | delete {id : KeyID} : Acts s (.delete id) ((s.orphan id).follow (s.manager.delete id))
  | discard {op : AuthKeyOp} {t : KeyHistory} {m : MemoryAuthKeyManager} {gone : KeyID → Prop} :
      Same s t → s.manager.Discarded m gone →
      (∀ id, gone id → ∃ info, s.manager.temporary.lookup id = some info) → Acts s op (t.follow m)
  | insert {id : KeyID} {key : AuthKey} {expires : Time} {clock : PutTemporaryClock} {t : KeyHistory}
      {m : MemoryAuthKeyManager} {gone : KeyID → Prop} :
      Same s t → s.manager.Discarded m gone →
      (∀ id, gone id → ∃ info, s.manager.temporary.lookup id = some info) →
      expires ≤ t.now + maxTemporaryAuthKeyLifetime → m.temporary.keys.length < 4096 →
      m.keys id = none →
      Acts s (.putTemporary id key expires clock)
        ((t.follow ⟨Function.update m.keys id (some key), m.temporary.insert id ⟨expires, 0⟩⟩).begin
          id expires)
  | bind {id parent : KeyID} {expires now : Time} {t : KeyHistory} {info : TemporaryAuthKeyInfo} :
      Same s t → s.manager.bindTemporary now id parent expires =
        (.ok (), { s.manager with temporary := s.manager.temporary.insert id ⟨expires, parent⟩ }) →
      s.manager.temporary.lookup id = some info → (s.manager.keys parent).isSome →
      s.manager.temporary.lookup parent = none →
      info.permanentKeyID = 0 ∨ info.permanentKeyID = parent → expires ≤ info.expiresAt →
      Acts s (.bindTemporary id parent expires now)
        ((t.follow { s.manager with
          temporary := s.manager.temporary.insert id ⟨expires, parent⟩ }).rebind id parent expires)

theorem step_acts (hst : s.step sha1 op = some s') : s.Acts op s' := by
  have hswe : ∀ (swept : KeyID → Time) (id : KeyID), (∃ info, s.manager.temporary.lookup id = some info ∧
      decide (info.expiresAt ≤ swept id) = true) → ∃ info, s.manager.temporary.lookup id = some info :=
    fun _ _ ⟨info, hinf, _⟩ => ⟨info, hinf⟩
  cases op with
  | get id now =>
    dsimp only [step] at hst
    split at hst
    · cases hst
      exact .get
    · cases hst
  | put id key =>
    dsimp only [step] at hst
    split at hst
    · cases hst
    cases hst
    exact .put
  | delete id =>
    cases hst
    exact .delete
  | putTemporary id key expires clock =>
    dsimp only [step] at hst
    split at hst
    next hclo =>
      cases hput : s.manager.putTemporary sha1 clock id key expires with
      | mk result m =>
        rw [hput] at hst
        rcases putTemporary_cases hput with ⟨err, rfl, hm⟩ | ⟨rfl, hexp, hrm, hnew, rfl⟩
        · cases hst
          rcases hm with rfl | rfl
          · exact .discard ⟨rfl, rfl, rfl⟩ (.refl _) fun _ hgn => hgn.elim
          · exact .discard ⟨rfl, rfl, rfl⟩ (s.manager.discarded_discardWhere _) (hswe clock.swept)
        cases hst
        exact .insert ⟨rfl, rfl, rfl⟩ (s.manager.discarded_discardWhere _) (hswe clock.swept)
          (hexp.trans (add_le_add_left hclo.2.1 _)) hrm hnew
    · cases hst
  | bindTemporary id parent expires now =>
    dsimp only [step] at hst
    split at hst
    · cases hbn : s.manager.bindTemporary now id parent expires with
      | mk result m =>
        rw [hbn] at hst
        cases result with
        | error err =>
          cases hst
          rw [bindTemporary_error hbn]
          exact .discard ⟨rfl, rfl, rfl⟩ (.refl _) fun _ hgn => hgn.elim
        | ok =>
          cases hst
          obtain ⟨info, hlk, hpr, hpe, _, hsm, _, hexp, rfl⟩ :=
            bindTemporary_ok hbn
          exact .bind ⟨rfl, rfl, rfl⟩ hbn hlk hpr hpe hsm hexp
    · cases hst
  | timer index now =>
    dsimp only [step] at hst
    split at hst
    next id expires htim =>
      split at hst
      · cases hst
        refine .discard ⟨rfl, rfl, rfl⟩ (s.manager.discarded_timerFired now id) ?_
        rintro _ ⟨rfl, info, hinf, _⟩
        exact ⟨info, hinf⟩
      · cases hst
    · cases hst

theorem Same.sound {t : KeyHistory} (hsm : s.Same t) (h : s.Sound) : t.Sound := by
  obtain ⟨hman, hliv, hins⟩ := hsm
  refine ⟨?_, ?_, ?_, ?_, ?_⟩
  · rw [hman, hliv]
    exact h.lives
  · rw [hman]
    exact h.held
  · rw [hman]
    exact h.parent
  · rw [hman]
    exact h.count
  · rw [hliv, hins]
    exact h.numbered

theorem step_sound (s : KeyHistory) (op : AuthKeyOp) (s' : KeyHistory) (h : s.Sound)
    (hcd : s.BindsNonzero op) (hst : s.step sha1 op = some s') : s'.Sound := by
  cases step_acts hst with
  | @get id now =>
    have hsm : s.Same { s with now := now } := ⟨rfl, rfl, rfl⟩
    exact hsm.sound h
  | @put id key => exact h.put key
  | @delete id => exact h.delete id
  | discard hsm hds hgn =>
    have ht := hsm.sound h
    rw [← hsm.manager] at hds hgn
    exact ht.discard_temporary hds hgn
  | insert hsm hds hgn hexp hrm hnew =>
    have ht := hsm.sound h
    rw [← hsm.manager] at hds hgn
    exact (ht.discard_temporary hds hgn).insert hnew hrm hexp
  | @bind id parent expires now t info hsm hbn hlk hpr hpe hpar hexp =>
    have ht := hsm.sound h
    have hz : parent ≠ 0 := fun hz => hcd hz (by rw [hbn])
    rw [← hsm.manager] at hlk hpr hpe ⊢
    exact ht.bind hlk hpr hpe hpar hz hexp

theorem follow_some (h : (s.follow m).lives id = some life) : s.lives id = some life := by
  dsimp only [follow] at h
  split at h
  · exact h
  · cases h

theorem Sound.expiry_le (h : s.Sound) (hst : s.step sha1 op = some s')
    {life' : TemporaryLife} (hlf : s.lives id = some life) (hlf' : s'.lives id = some life')
    (hnum : life'.number = life.number) : life'.expiresAt ≤ life.expiresAt := by
  have hfol : ∀ {t : KeyHistory} {m : MemoryAuthKeyManager}, t.lives = s.lives →
      (t.follow m).lives id = some life' → life'.expiresAt ≤ life.expiresAt := by
    intro t m ht hfl
    have hold := follow_some hfl
    rw [ht, hlf] at hold
    cases hold
    exact le_refl _
  cases step_acts hst with
  | get =>
    cases hlf.symm.trans hlf'
    exact le_refl _
  | put => exact hfol rfl hlf'
  | delete =>
    have hold := follow_some hlf'
    dsimp only [orphan] at hold
    rw [hlf, map_some] at hold
    cases hold
    exact le_refl _
  | discard hsm => exact hfol hsm.lives hlf'
  | @insert k key expires clock t m gone hsm =>
    dsimp only [begin] at hlf'
    by_cases hk : id = k
    · rw [hk, update_self] at hlf'
      cases hlf'
      have hlat := h.numbered id life hlf
      have hins := hsm.inserted
      dsimp only [follow] at hnum
      omega
    · rw [update_of_ne hk] at hlf'
      exact hfol hsm.lives hlf'
  | @bind k parent expires now t info hsm hbn hlk hpr hpe hpar hexp =>
    dsimp only [rebind] at hlf'
    by_cases hk : id = k
    · subst hk
      obtain ⟨old, hold, hagr⟩ := h.lives_some hlk
      cases hold.symm.trans hlf
      rw [update_self] at hlf'
      obtain ⟨mid, hmid, rfl⟩ := map_eq_some_iff.mp hlf'
      rw [hagr.expires]
      exact hexp
    · rw [update_of_ne hk] at hlf'
      exact hfol hsm.lives hlf'

theorem Sound.permanent_kept (h : s.Sound) (hst : s.step sha1 op = some s')
    (hpr : (s.manager.keys id).isSome) (hpe : s.lives id = none)
    (hls : s'.manager.keys id = none) : op = .delete id := by
  have hnot : ∀ info, s.manager.temporary.lookup id ≠ some info := by
    intro info hlk
    obtain ⟨life, hlf, _⟩ := h.lives_some hlk
    cases hpe.symm.trans hlf
  have hkp : s.manager.keys id ≠ none := isSome_iff_ne_none.mp hpr
  have hds : ∀ {m : MemoryAuthKeyManager} {gone : KeyID → Prop}, s.manager.Discarded m gone →
      m.keys id = none → gone id := by
    intro m gone hdis hno
    by_contra hgn
    exact hkp ((hdis.kept id hgn).1.symm.trans hno)
  have hupd : ∀ {f : KeyID → Option AuthKey} {k : KeyID} {key : AuthKey},
      update f k (some key) id = none → f id = none := by
    intro f k key hno
    by_cases hk : id = k
    · rw [hk, update_self] at hno
      cases hno
    · rw [update_of_ne hk] at hno
      exact hno
  cases step_acts hst with
  | get => exact absurd hls hkp
  | put => exact absurd (hupd hls) hkp
  | @delete k =>
    rcases hds (s.manager.discarded_delete k) hls with rfl | ⟨info, hinf, _⟩
    · rfl
    · exact absurd hinf (hnot info)
  | discard hsm hdis hgn =>
    obtain ⟨info, hinf⟩ := hgn id (hds hdis hls)
    exact absurd hinf (hnot info)
  | insert hsm hdis hgn =>
    obtain ⟨info, hinf⟩ := hgn id (hds hdis (hupd hls))
    exact absurd hinf (hnot info)
  | bind => exact absurd hls hkp

theorem new_sound (now : Time) : (newKeyHistory now).Sound := by
  refine ⟨fun id => .none, fun id info hlk => ?_, fun id info hlk => ?_, Nat.zero_le _, ?_⟩
  · cases hlk
  · cases hlk
  · intro id life hlf
    cases hlf

structure Disciplined (s : KeyHistory) : Prop where
  get : ∀ id now key life, s.manager.get now id = .ok key → s.lives id = some life →
    now < life.expiresAt ∧ life.orphaned = false
  capped : ∀ id life, s.lives id = some life →
    life.expiresAt ≤ life.insertedAt + maxTemporaryAuthKeyLifetime
  bound : ∀ id life, s.lives id = some life → ∀ p ∈ life.parents, ∀ q ∈ life.parents, p = q
  parent : ∀ id info, s.manager.temporary.lookup id = some info → info.permanentKeyID ≠ 0 →
    (s.manager.keys info.permanentKeyID).isSome ∧ s.lives info.permanentKeyID = none
  count : s.manager.temporary.keys.length ≤ 4096

theorem Sound.disciplined (h : s.Sound) : s.Disciplined := by
  refine ⟨?_, ?_, ?_, ?_, h.count⟩
  · intro id now key life hget hlf
    obtain ⟨info, hinf, hagr⟩ := h.info_some hlf
    obtain ⟨stored, hstd⟩ := isSome_iff_exists.mp (h.held id info hinf)
    unfold MemoryAuthKeyManager.get at hget
    rw [hstd, hinf] at hget
    dsimp only at hget
    split at hget
    next hval =>
      rw [hagr.expires]
      exact ⟨hval.1, hagr.orphaned⟩
    · cases hget
  · intro id life hlf
    obtain ⟨info, _, hagr⟩ := h.info_some hlf
    exact hagr.capped
  · intro id life hlf p hp q hq
    obtain ⟨info, _, hagr⟩ := h.info_some hlf
    exact (hagr.parents p hp).1.trans (hagr.parents q hq).1.symm
  · intro id info hlk hne
    obtain ⟨hpr, hpe⟩ := h.parent id info hlk hne
    exact ⟨hpr, h.lives_none hpe⟩

theorem exists_fresh (l : List KeyID) (hl : l.length < 4999) : ∃ k : KeyID, k ∉ l := by
  by_contra hall
  have hall : ∀ k, k ∈ l := by
    intro k
    by_contra hk
    exact hall ⟨k, hk⟩
  have hnd : ((List.range 4999).map UInt64.ofNat).Nodup := by
    refine List.Nodup.map_on (fun a ha b hb heq => ?_) nodup_range
    have ha := mem_range.mp ha
    have hb := mem_range.mp hb
    have heq := congrArg UInt64.toNat heq
    rw [UInt64.toNat_ofNat', UInt64.toNat_ofNat', Nat.mod_eq_of_lt (by omega),
      Nat.mod_eq_of_lt (by omega)] at heq
    exact heq
  have hle := (hnd.subperm fun k _ => hall k).length_le
  rw [length_map, length_range] at hle
  omega

def zeroKey : AuthKey := ⟨List.replicate 256 0, length_replicate⟩

theorem follow_present (h : (m.keys id).isSome) : (s.follow m).lives id = s.lives id := by
  dsimp only [follow]
  rw [if_pos h]

theorem rebind_lives (hks : (m.keys id).isSome) (hlf : s.lives id = some life) :
    ((s.follow m).rebind id parent expires).lives id =
      some { life with expiresAt := expires, parents := life.parents ++ [parent] } := by
  dsimp only [rebind]
  rw [update_self, follow_present hks, hlf]
  rfl

theorem bindTemporary_unbound
    (hlk : m.temporary.lookup id = some ⟨expires, 0⟩) (hpr : (m.keys parent).isSome)
    (hpe : m.temporary.lookup parent = none) (hsf : parent ≠ id) (hfut : now < expires) :
    m.bindTemporary now id parent expires =
      (.ok (), { m with temporary := m.temporary.insert id ⟨expires, parent⟩ }) := by
  unfold bindTemporary
  rw [hlk]
  dsimp only
  rw [if_neg (isSome_iff_ne_none.mp hpr), if_neg, if_neg, if_neg]
  · exact not_or.mpr ⟨not_le.mpr hfut, lt_irrefl _⟩
  · exact fun h => h.1 rfl
  · rw [hpe]
    exact not_or.mpr ⟨nofun, hsf⟩

theorem Sound.rebound (h : s.Sound) (hst : s.step sha1 op = some s')
    (hcd : ¬ s.BindsNonzero op) : ∃ later s'' id life, exec (step sha1) s' later = some s'' ∧
      s''.lives id = some life ∧ ∃ p ∈ life.parents, ∃ q ∈ life.parents, p ≠ q := by
  cases op with
  | bindTemporary id parent expires now =>
    obtain ⟨rfl, hok⟩ := Classical.not_imp.mp hcd
    have hok := not_not.mp hok
    cases hbn : s.manager.bindTemporary now id 0 expires with
    | mk result m =>
      rw [hbn] at hok
      obtain rfl : result = .ok () := hok
      obtain ⟨info, hlk, hpr, _, _, _, hfut, _, rfl⟩ := bindTemporary_ok hbn
      obtain ⟨life, hlf, _⟩ := h.lives_some hlk
      have hhl := h.held id info hlk
      obtain ⟨k, hk⟩ := exists_fresh (0 :: id :: s.manager.temporary.keys)
        (by have := h.count; simp only [length_cons]; omega)
      have hz : k ≠ 0 := fun heq => hk (heq ▸ mem_cons_self)
      have hid : k ≠ id := fun heq => hk (heq ▸ mem_cons_of_mem _ mem_cons_self)
      have hnew : s.manager.temporary.lookup k = none := by
        rw [lookup_eq_none]
        exact fun hmem => hk (mem_cons_of_mem _ (mem_cons_of_mem _ hmem))
      dsimp only [step] at hst
      split at hst
      · rw [hbn] at hst
        cases hst
        generalize ht : ({ s with now := now }.follow { s.manager with
          temporary := s.manager.temporary.insert id ⟨expires, 0⟩ }).rebind id 0 expires = t
        have htli : t.lives id =
            some { life with expiresAt := expires, parents := life.parents ++ [0] } := by
          subst ht
          exact rebind_lives hhl hlf
        have htlo : t.manager.temporary.lookup id = some ⟨expires, 0⟩ := by
          subst ht
          exact lookup_insert _
        have htn : t.manager.temporary.lookup k = none := by
          subst ht
          exact (lookup_insert_ne hid).trans hnew
        have htke : (t.manager.keys id).isSome := by
          subst ht
          exact hhl
        have htw : t.now = now := by
          subst ht
          rfl
        have hput : t.step sha1 (.put k zeroKey) = some (t.follow (t.manager.put k zeroKey)) := by
          dsimp only [step]
          rw [htn]
          rfl
        have hks : ((t.manager.put k zeroKey).keys k).isSome := by
          dsimp only [MemoryAuthKeyManager.put]
          rw [update_self]
          rfl
        have hidk : ((t.manager.put k zeroKey).keys id).isSome := by
          dsimp only [MemoryAuthKeyManager.put]
          rw [update_of_ne hid.symm]
          exact htke
        have haga := bindTemporary_unbound (m := t.manager.put k zeroKey) htlo hks htn hid hfut
        have hman : (t.follow (t.manager.put k zeroKey)).manager = t.manager.put k zeroKey := rfl
        have hnow : (t.follow (t.manager.put k zeroKey)).now ≤ now := le_of_eq htw
        obtain ⟨final, hbd, hliv⟩ : ∃ final,
            (t.follow (t.manager.put k zeroKey)).step sha1 (.bindTemporary id k expires now) = some final ∧
            final.lives id =
              some { life with expiresAt := expires, parents := (life.parents ++ [0]) ++ [k] } := by
          dsimp only [step]
          rw [if_pos hnow, hman, haga]
          exact ⟨_, rfl, rebind_lives hidk ((follow_present hidk).trans htli)⟩
        refine ⟨[.put k zeroKey, .bindTemporary id k expires now], final, id, _,
          exec_of_step hput (exec_of_step hbd rfl), hliv, 0, ?_, k, ?_, hz.symm⟩
        · exact mem_append_left _ (mem_append_right _ mem_cons_self)
        · exact mem_append_right _ mem_cons_self
      · cases hst
  | _ => exact absurd trivial hcd

/-- With a clock that does not go back and no binding to the key ID 0, no expiry moves to a later
time, and only `Delete` removes a permanent key. After a binding to 0 the key can be bound again. -/
theorem temporary_key_discipline (sha1 : List UInt8 → List UInt8) (now : Time) (ops : List AuthKeyOp)
    (s : KeyHistory) (hrun : exec (step sha1) (newKeyHistory now) ops = some s)
    (hcond : Meets (step sha1) BindsNonzero (newKeyHistory now) ops) :
    s.Disciplined ∧ ∀ op s', s.step sha1 op = some s' →
      (∀ id life life', s.lives id = some life → s'.lives id = some life' →
        life'.number = life.number → life'.expiresAt ≤ life.expiresAt) ∧
      (∀ id, (s.manager.keys id).isSome → s.lives id = none → s'.manager.keys id = none → op = .delete id) ∧
      (¬ s.BindsNonzero op → ∃ later s'', exec (step sha1) s' later = some s'' ∧ ¬ s''.Disciplined) := by
  have h := exec_invariant step_sound (new_sound now) hcond hrun
  refine ⟨h.disciplined, fun op s' hst => ⟨?_, ?_, ?_⟩⟩
  · intro id life life' hlf hlf' hnum
    exact h.expiry_le hst hlf hlf' hnum
  · intro id hpr hpe hls
    exact h.permanent_kept hst hpr hpe hls
  · intro hz
    obtain ⟨later, s'', id, life, hlat, hlf, p, hp, q, hq, hne⟩ := h.rebound hst hz
    exact ⟨later, s'', hlat, fun hdis => hne (hdis.bound id life hlf p hp q hq)⟩

def fiveHash (_ : List UInt8) : List UInt8 := [5, 0, 0, 0, 0, 0, 0, 0]

def bindOps (parent : KeyID) : List AuthKeyOp :=
  [.put parent zeroKey, .putTemporary 5 zeroKey 10 ⟨1, 1, fun _ => 1, 1⟩, .bindTemporary 5 parent 10 2]

theorem temporary_key_discipline_bound : ∃ s, exec (step fiveHash) (newKeyHistory 0) (bindOps 7) = some s ∧
    Meets (step fiveHash) BindsNonzero (newKeyHistory 0) (bindOps 7) ∧ s.Disciplined := by
  have hbd : (exec (step fiveHash) (newKeyHistory 0) (bindOps 7)).isSome = true := by decide +kernel
  obtain ⟨s, hrun⟩ := isSome_iff_exists.mp hbd
  have hcd : Meets (step fiveHash) BindsNonzero (newKeyHistory 0) (bindOps 7) := by
    decide +kernel
  exact ⟨s, hrun, hcd, (temporary_key_discipline fiveHash 0 (bindOps 7) s hrun hcd).1⟩

/-- The key 5 is bound to the key 0 and then to the key 7; after 0 is deleted, `Get` still returns it. -/
theorem bound_to_zero_rebound : ∃ s life key, exec (step fiveHash) (newKeyHistory 0)
      (bindOps 0 ++ [.put 7 zeroKey, .bindTemporary 5 7 10 2, .delete 0]) = some s ∧
    s.lives 5 = some life ∧ life.parents = [0, 7] ∧ life.orphaned = true ∧ s.manager.get 3 5 = .ok key := by
  have hvl : (exec (step fiveHash) (newKeyHistory 0)
      (bindOps 0 ++ [.put 7 zeroKey, .bindTemporary 5 7 10 2, .delete 0])).map
      (fun s => (s.lives 5, s.manager.get 3 5)) =
      some (some ⟨0, 1, 10, [0, 7], true⟩, .ok zeroKey) := by decide +kernel
  obtain ⟨s, hrun, hvl⟩ := map_eq_some_iff.mp hvl
  obtain ⟨hlf, hget⟩ := Prod.mk.inj hvl
  exact ⟨s, _, _, hrun, hlf, rfl, rfl, hget⟩

end KeyHistory

end Tlrpc
