import Tlrpc.StoreConsistency

namespace Tlrpc

open List Function AList ReliabilityStore StoreEntry HeapInterface

namespace ReliabilityStore

/-- Slice and map hold the same entries, each at its index and in heap order. -/
structure Consistent (s : ReliabilityStore) : Prop where
  indexed : s.Indexed
  heaped : Heaped s.rankAt s.expiry.length
  mapped : ∀ id r, s.entries.lookup id = some r ↔ r ∈ s.expiry ∧ (s.memory r).message.messageID = id
  allocated : ∀ r ∈ s.expiry, r < s.allocated
  bounded : s.expiry.length ≤ s.capacity

def contents (s : ReliabilityStore) (id : Int) : Option StoreEntry :=
  (s.entries.lookup id).map fun r => (s.memory r).unindexed

variable {s : ReliabilityStore} {rest : List EntryRef} {r : EntryRef}

theorem Indexed.nodup (h : s.Indexed) : s.expiry.Nodup := by
  rw [nodup_iff_getElem?_ne_getElem?]
  intro i j hij hj heq
  obtain ⟨r, hr⟩ : ∃ r, s.expiry[j]? = some r := ⟨_, getElem?_eq_getElem hj⟩
  have hjr := h j r hr
  have hir := h i r (heq.trans hr)
  omega

section

variable {s : ReliabilityStore}

variable {r : EntryRef} {e : StoreEntry} {id : Int} {t s : ReliabilityStore}

theorem Consistent.lookup_of_mem (h : s.Consistent) (hr : r ∈ s.expiry) :
    s.entries.lookup (s.memory r).message.messageID = some r := (h.mapped _ r).mpr ⟨hr, rfl⟩

theorem Consistent.keys_perm (h : s.Consistent) :
    (s.expiry.map fun r => (s.memory r).message.messageID).Perm s.entries.keys := by
  have hnd : (s.expiry.map fun r => (s.memory r).message.messageID).Nodup := by
    refine h.indexed.nodup.map_on fun a ha b hb heq => ?_
    have hla := h.lookup_of_mem ha
    have hlb := h.lookup_of_mem hb
    rw [heq, hlb] at hla
    exact (Option.some.inj hla).symm
  refine (perm_ext_iff_of_nodup hnd s.entries.keys_nodup).mpr fun id => ?_
  rw [← AList.mem_keys, ← AList.lookup_isSome, Option.isSome_iff_exists, mem_map]
  constructor
  · rintro ⟨r, hr, rfl⟩
    exact ⟨r, h.lookup_of_mem hr⟩
  · rintro ⟨r, hr⟩
    obtain ⟨hmem, hid⟩ := (h.mapped id r).mp hr
    exact ⟨r, hmem, hid⟩

theorem Consistent.keys_length (h : s.Consistent) : s.entries.keys.length = s.expiry.length := by
  rw [← h.keys_perm.length_eq, length_map]

theorem contents_eq_some :
    s.contents id = some e ↔ ∃ r, s.entries.lookup id = some r ∧ (s.memory r).unindexed = e := by
  unfold contents
  rw [Option.map_eq_some_iff]

theorem Consistent.contents_id (h : s.Consistent)
    (he : s.contents id = some e) : e.message.messageID = id := by
  obtain ⟨r, hr, rfl⟩ := contents_eq_some.mp he
  exact ((h.mapped id r).mp hr).2

theorem Consistent.first_le (h : s.Consistent) {first : EntryRef}
    (hfst : s.expiry = first :: rest) (he : s.contents id = some e) : (s.memory first).rank ≤ e.rank := by
  obtain ⟨r, hr, rfl⟩ := contents_eq_some.mp he
  obtain ⟨k, hk⟩ := mem_iff_getElem?.mp ((h.mapped id r).mp hr).1
  have hrt := h.heaped.root_le k (List.getElem?_eq_some_iff.mp hk).1
  rw [rankAt_eq hk, rankAt_eq (r := first) (by rw [hfst]; rfl)] at hrt
  exact hrt

theorem Dropped.contents (h : Dropped s r t) (id : Int) :
    ({ t with entries := t.entries.erase id } : ReliabilityStore).contents = update s.contents id none := by
  funext id'
  by_cases hid : id' = id
  · subst hid
    rw [update_self]
    unfold ReliabilityStore.contents
    rw [lookup_erase, Option.map_none]
  rw [update_of_ne hid]
  unfold ReliabilityStore.contents
  rw [lookup_erase_ne hid, h.entries]
  exact Option.map_congr fun r' _ => h.memory r'

theorem Consistent.erase (hs : s.Consistent) (h : Dropped s r t) (hr : s.entries.lookup id = some r) :
    ({ t with entries := t.entries.erase id } : ReliabilityStore).Consistent := by
  have hnd := hs.indexed.nodup
  rw [h.perm.nodup_iff, nodup_cons] at hnd
  refine ⟨h.indexed, h.heaped, fun id' r' => ?_, fun r' hr' => ?_, ?_⟩
  · rw [message_eq (h.memory r'), h.entries]
    by_cases hid : id' = id
    · subst hid
      rw [lookup_erase]
      refine ⟨(nomatch ·), fun ⟨hmem, hmsg⟩ => ?_⟩
      have hmem' : r' ∈ s.expiry := h.perm.symm.subset (mem_cons_of_mem r hmem)
      have hlk := (hs.mapped id' r').mpr ⟨hmem', hmsg⟩
      rw [hr] at hlk
      exact absurd (Option.some.inj hlk ▸ hmem) hnd.1
    · rw [lookup_erase_ne hid, hs.mapped id' r', h.perm.mem_iff, mem_cons]
      refine ⟨fun ⟨hmem, hmsg⟩ => ⟨hmem.resolve_left ?_, hmsg⟩, fun ⟨hmem, hmsg⟩ => ⟨.inr hmem, hmsg⟩⟩
      rintro rfl
      exact hid (hmsg.symm.trans ((hs.mapped id r').mp hr).2)
  · rw [h.allocated]
    exact hs.allocated r' (h.perm.symm.subset (mem_cons_of_mem r hr'))
  · show (t.expiry.length : Int) ≤ t.capacity
    have hlen := h.perm.length_eq
    rw [length_cons] at hlen
    have := hs.bounded
    rw [h.capacity]
    omega

theorem Consistent.popFirst (h : s.Consistent) {first : EntryRef}
    (hfst : s.expiry = first :: rest) : ∃ t, s.popFirst = (some (s.memory first).message, t) ∧
      t.Consistent ∧ t.contents = update s.contents (s.memory first).message.messageID none ∧
      t.expiry.length + 1 = s.expiry.length ∧
      t.order = s.order ∧ t.capacity = s.capacity ∧ t.ttl = s.ttl := by
  have hz : s.expiry[0]? = some first := by rw [hfst]; rfl
  obtain ⟨t, hpop, hdr⟩ := heapPop_dropped h.indexed h.heaped hz
  have hmsg := message_eq (hdr.memory first)
  have hlk := h.lookup_of_mem (mem_of_getElem? hz)
  refine ⟨{ t with entries := t.entries.erase (s.memory first).message.messageID }, ?_,
    h.erase hdr hlk, hdr.contents _, ?_, hdr.order, hdr.capacity, hdr.ttl⟩
  · unfold ReliabilityStore.popFirst
    rw [hpop]
    dsimp only
    rw [hmsg]
  · rw [hdr.perm.length_eq, length_cons]

def live (contents : Int → Option StoreEntry) (now : Time) (id : Int) : Option StoreEntry :=
  (contents id).filter fun e => now < e.expiresAt

theorem live_update_none {contents : Int → Option StoreEntry} {now : Time}
    (h : live contents now id = none) : live (update contents id none) now = live contents now := by
  funext id'
  by_cases hid : id' = id
  · subst hid
    rw [h]
    unfold live
    rw [update_self, Option.filter_none]
  · unfold live
    rw [update_of_ne hid]

theorem Consistent.expireLocked (h : s.Consistent) (now : Time) :
    (s.expireLocked now).1.Consistent ∧ (s.expireLocked now).1.contents = live s.contents now ∧
      (s.expireLocked now).1.expiry.length + (s.expireLocked now).2 = s.expiry.length ∧
      (s.expireLocked now).1.order = s.order ∧ (s.expireLocked now).1.capacity = s.capacity ∧
      (s.expireLocked now).1.ttl = s.ttl := by
  induction hn : s.expiry.length generalizing s with
  | zero =>
    have hnil := length_eq_zero_iff.mp hn
    have hno : s.contents = live s.contents now := by
      funext id
      cases hc : s.contents id with
      | none => rw [live, hc, Option.filter_none]
      | some e =>
        obtain ⟨r, hr, _⟩ := contents_eq_some.mp hc
        have hmem := ((h.mapped id r).mp hr).1
        rw [hnil] at hmem
        exact absurd hmem not_mem_nil
    rw [expireLocked]
    split
    · exact ⟨h, hno, hn, rfl, rfl, rfl⟩
    next hcn =>
      rw [hnil] at hcn
      cases hcn
  | succ n ih =>
    rw [expireLocked]
    split
    next hnil =>
      rw [hnil] at hn
      cases hn
    rename_i first rest hfst
    split
    next hei =>
      obtain ⟨t, hpop, ht, hco, hlen, hord, hcap, httl⟩ := h.popFirst hfst
      rw [hpop]
      dsimp only
      obtain ⟨ht', hlv, hcnt, hord', hcap', httl'⟩ := ih ht (by omega)
      refine ⟨ht', ?_, by omega, hord'.trans hord, hcap'.trans hcap, httl'.trans httl⟩
      rw [hlv, hco]
      refine live_update_none ?_
      have hlk := h.lookup_of_mem (r := first) (by rw [hfst]; exact mem_cons_self)
      unfold live contents
      rw [hlk, Option.map_some]
      exact Option.filter_eq_none_iff.mpr fun e he => by
        cases he
        rw [decide_eq_true_iff]
        exact not_lt_of_ge hei
    next hlv =>
      refine ⟨h, ?_, hn, rfl, rfl, rfl⟩
      funext id
      cases hc : s.contents id with
      | none => rw [live, hc, Option.filter_none]
      | some e =>
        have hle := h.first_le hfst hc
        unfold rank at hle
        rw [Prod.Lex.toLex_le_toLex] at hle
        have hexp : (s.memory first).expiresAt ≤ e.expiresAt := by
          rcases hle with hlt | ⟨heq, _⟩
          · exact le_of_lt hlt
          · exact le_of_eq heq
        rw [live, hc, Option.filter_some, if_pos]
        rw [decide_eq_true_iff]
        exact lt_of_lt_of_le (not_le.mp hlv) hexp

theorem Reheaped.contents (h : Reheaped s t) : t.contents = s.contents := by
  funext id
  unfold ReliabilityStore.contents
  rw [h.entries]
  exact Option.map_congr fun r _ => h.memory r

theorem Reheaped.consistent (h : Reheaped s t) (indexed : t.Indexed)
    (heaped : Heaped t.rankAt t.expiry.length) (mapped : ∀ id r, s.entries.lookup id = some r ↔
      r ∈ s.expiry ∧ (s.memory r).message.messageID = id)
    (allocated : ∀ r ∈ s.expiry, r < s.allocated) (bounded : s.expiry.length ≤ s.capacity) :
    t.Consistent := by
  refine ⟨indexed, heaped, fun id r => ?_, fun r hr => ?_, ?_⟩
  · rw [h.entries, message_eq (h.memory r), h.perm.mem_iff]
    exact mapped id r
  · rw [h.allocated]
    exact allocated r (h.perm.subset hr)
  · rw [h.capacity, h.perm.length_eq]
    exact bounded

section

variable (s : ReliabilityStore) (message : SentMessage) (expiresAt : Time)

theorem allocate_memory_of_ne (h : r ≠ s.allocated) : (s.allocate message expiresAt).memory r = s.memory r :=
  update_of_ne h _ _

theorem allocate_memory_self :
    (s.allocate message expiresAt).memory s.allocated = ⟨message, expiresAt, s.order, 0⟩ :=
  update_self _ _ _

end

section

variable {s : ReliabilityStore} (h : s.Consistent) (message : SentMessage) (expiresAt : Time)
include h

theorem Consistent.ne_allocated (hr : r ∈ s.expiry) : r ≠ s.allocated :=
  Nat.ne_of_lt (h.allocated r hr)

theorem Consistent.allocate_indexed : (s.allocate message expiresAt).Indexed := by
  intro k r hk
  rw [allocate_memory_of_ne _ _ _ (h.ne_allocated (mem_of_getElem? hk))]
  exact h.indexed k r hk

theorem Consistent.allocate_heaped : Heaped (s.allocate message expiresAt).rankAt s.expiry.length := by
  refine h.heaped.congr fun k hk => ?_
  have hget := getElem?_eq_getElem hk
  rw [rankAt_eq hget, rankAt_eq (s := s.allocate message expiresAt) hget,
    allocate_memory_of_ne _ _ _ (h.ne_allocated (mem_of_getElem? hget))]

theorem Consistent.allocate_mapped (hnew : s.entries.lookup message.messageID = none) (id : Int)
    (r : EntryRef) : (s.allocate message expiresAt).entries.lookup id = some r ↔
      r ∈ s.expiry ++ [s.allocated] ∧ ((s.allocate message expiresAt).memory r).message.messageID = id := by
  have hlk : (s.allocate message expiresAt).entries = s.entries.insert message.messageID s.allocated := rfl
  rw [hlk, mem_append, mem_singleton]
  by_cases hid : id = message.messageID
  · subst hid
    rw [lookup_insert]
    constructor
    · intro hr
      obtain rfl := Option.some.inj hr
      rw [allocate_memory_self]
      exact ⟨.inr rfl, rfl⟩
    · rintro ⟨hr | rfl, hmsg⟩
      · rw [allocate_memory_of_ne _ _ _ (h.ne_allocated hr)] at hmsg
        have hlo := (h.mapped _ r).mpr ⟨hr, hmsg⟩
        rw [hnew] at hlo
        cases hlo
      · rfl
  · rw [lookup_insert_ne hid, h.mapped]
    constructor
    · rintro ⟨hr, hmsg⟩
      rw [allocate_memory_of_ne _ _ _ (h.ne_allocated hr)]
      exact ⟨.inl hr, hmsg⟩
    · rintro ⟨hr | rfl, hmsg⟩
      · rw [allocate_memory_of_ne _ _ _ (h.ne_allocated hr)] at hmsg
        exact ⟨hr, hmsg⟩
      · rw [allocate_memory_self] at hmsg
        exact absurd hmsg.symm hid

theorem Consistent.allocate_contents : (s.allocate message expiresAt).contents =
    update s.contents message.messageID (some ⟨message, expiresAt, s.order, 0⟩) := by
  funext id
  unfold contents
  have hlk : (s.allocate message expiresAt).entries = s.entries.insert message.messageID s.allocated := rfl
  rw [hlk]
  by_cases hid : id = message.messageID
  · subst hid
    rw [lookup_insert, update_self, Option.map_some, allocate_memory_self]
    rfl
  rw [lookup_insert_ne hid, update_of_ne hid]
  refine Option.map_congr fun r hr => ?_
  rw [allocate_memory_of_ne _ _ _ (h.ne_allocated ((h.mapped id r).mp hr).1)]

theorem Consistent.insert (hnew : s.contents message.messageID = none)
    (room : s.expiry.length < s.capacity) : (s.insert message expiresAt).Consistent ∧
      (s.insert message expiresAt).contents = update s.contents message.messageID
        (some ⟨message, expiresAt, s.order, 0⟩) ∧ (s.insert message expiresAt).order = s.order ∧
      (s.insert message expiresAt).capacity = s.capacity ∧ (s.insert message expiresAt).ttl = s.ttl := by
  have hfr : s.allocated ∉ s.expiry := fun hmem => h.ne_allocated hmem rfl
  have hlk : s.entries.lookup message.messageID = none := Option.map_eq_none_iff.mp hnew
  set m := expiryHeap.push (s.allocate message expiresAt) s.allocated with hm
  have hexp : m.expiry = s.expiry ++ [s.allocated] := rfl
  have hlen : m.expiry.length = s.expiry.length + 1 := by
    rw [hexp, length_append, length_singleton]
  have hsm : ∀ r, (m.memory r).unindexed = ((s.allocate message expiresAt).memory r).unindexed :=
    fun r => setIndex_unindexed _ _ _ _
  have hind : m.Indexed := push_indexed (h.allocate_indexed message expiresAt) hfr
  have haro : HeapedAround m.rankAt s.expiry.length m.expiry.length := by
    rw [hlen]
    exact push_around (h.allocate_heaped message expiresAt)
  have hins : s.insert message expiresAt = expiryHeap.up m s.expiry.length := by
    show expiryHeap.up m (m.expiry.length - 1) = _
    rw [hlen, Nat.add_sub_cancel]
  obtain ⟨hup, hud⟩ := up_reheaped hind (i := s.expiry.length) (by omega)
  have hhea := up_heaped expiryHeap_lawful m.expiry.length s.expiry.length m
    (le_refl _) (by omega) haro (fun k _ hk hp => by omega)
  rw [hins]
  refine ⟨hup.consistent hud ?_ ?_ ?_ ?_, ?_, hup.order, hup.capacity, hup.ttl⟩
  · rw [hup.perm.length_eq]
    exact hhea
  · intro id r
    rw [message_eq (hsm r), hexp]
    exact h.allocate_mapped message expiresAt hlk id r
  · intro r hr
    rw [hexp, mem_append, mem_singleton] at hr
    rcases hr with hr | rfl
    · exact Nat.lt_succ_of_lt (h.allocated r hr)
    · exact Nat.lt_succ_self _
  · show (m.expiry.length : Int) ≤ s.capacity
    omega
  · rw [hup.contents, ← h.allocate_contents message expiresAt]
    funext id
    exact Option.map_congr fun r _ => hsm r

end

section

variable {s : ReliabilityStore} (h : s.Consistent) {r : EntryRef} {id : Int} {e : StoreEntry}
  (hr : s.entries.lookup id = some r) (hid : e.message.messageID = id)
  (hindex : e.index = (s.memory r).index)

theorem overwrite_memory_of_ne {r' : EntryRef} (hne : r' ≠ r) :
    (s.overwrite r e).memory r' = s.memory r' := update_of_ne hne _ _

theorem overwrite_memory_self : (s.overwrite r e).memory r = e := update_self _ _ _

include h hindex in
theorem Consistent.overwrite_indexed : (s.overwrite r e).Indexed := by
  intro k r' hk
  have hk' := h.indexed k r' hk
  by_cases hne : r' = r
  · subst hne
    rw [overwrite_memory_self, hindex]
    exact hk'
  · rw [overwrite_memory_of_ne hne]
    exact hk'

include h hr hid in
theorem Consistent.overwrite_mapped (id' : Int) (r' : EntryRef) : s.entries.lookup id' = some r' ↔
      r' ∈ s.expiry ∧ ((s.overwrite r e).memory r').message.messageID = id' := by
  rw [h.mapped]
  by_cases hne : r' = r
  · subst hne
    rw [overwrite_memory_self, hid, ((h.mapped id r').mp hr).2]
  · rw [overwrite_memory_of_ne hne]

include h hr in
theorem Consistent.overwrite_contents : (s.overwrite r e).contents =
    update s.contents id (some e.unindexed) := by
  funext id'
  show (s.entries.lookup id').map _ = _
  by_cases heq : id' = id
  · subst heq
    rw [update_self, hr, Option.map_some, overwrite_memory_self]
  rw [update_of_ne heq]
  refine Option.map_congr fun r' hr' => ?_
  have hne : r' ≠ r := by
    rintro rfl
    exact heq (((h.mapped id' r').mp hr').2.symm.trans ((h.mapped id r').mp hr).2)
  rw [overwrite_memory_of_ne hne]

theorem Consistent.overwrite (h : s.Consistent) {id : Int}
    {e : StoreEntry} (hr : s.entries.lookup id = some r) (hid : e.message.messageID = id)
    (hindex : e.index = (s.memory r).index) (hrn : e.rank = (s.memory r).rank) :
    (s.overwrite r e).Consistent := by
  refine ⟨h.overwrite_indexed hindex, h.heaped.congr fun k _ => ?_, h.overwrite_mapped hr hid,
    h.allocated, h.bounded⟩
  show ((s.overwrite r e).memory (s.expiry.getD k 0)).rank = (s.memory (s.expiry.getD k 0)).rank
  by_cases hne : s.expiry.getD k 0 = r
  · rw [hne, overwrite_memory_self, hrn]
  · rw [overwrite_memory_of_ne hne]

theorem Consistent.replace (h : s.Consistent)
    {message : SentMessage} (hr : s.entries.lookup message.messageID = some r) (expiresAt : Time) :
    (s.replace r message expiresAt).Consistent ∧
      (s.replace r message expiresAt).contents = update s.contents message.messageID
        (some ⟨message, expiresAt, s.order, 0⟩) ∧ (s.replace r message expiresAt).order = s.order ∧
      (s.replace r message expiresAt).capacity = s.capacity ∧
      (s.replace r message expiresAt).ttl = s.ttl := by
  obtain ⟨k, hk⟩ := mem_iff_getElem?.mp ((h.mapped _ r).mp hr).1
  have hlt : k < s.expiry.length := (List.getElem?_eq_some_iff.mp hk).1
  have hindex := h.indexed k r hk
  set e : StoreEntry := ⟨message, expiresAt, s.order, (s.memory r).index⟩ with he
  have hfix : s.replace r message expiresAt = expiryHeap.settle (s.overwrite r e) k s.expiry.length := by
    show expiryHeap.heapFix (s.overwrite r e) (s.memory r).index.toNat = _
    rw [hindex, Int.toNat_natCast]
    rfl
  have hidx : (s.overwrite r e).Indexed := h.overwrite_indexed rfl
  have haro : HeapedAround (s.overwrite r e).rankAt k s.expiry.length := by
    refine h.heaped.around fun k' hk' hne => ?_
    have hget := getElem?_eq_getElem hk'
    have hne' : s.expiry[k'] ≠ r := by
      intro heq
      have := h.indexed k' _ hget
      rw [heq] at this
      omega
    rw [rankAt_eq hget, rankAt_eq (s := s.overwrite r e) hget, overwrite_memory_of_ne hne']
  obtain ⟨hset, hsd⟩ := settle_reheaped hidx (n := s.expiry.length) (le_refl _) hlt
  have hhea := settle_heaped expiryHeap_lawful (n := s.expiry.length)
    (s := s.overwrite r e) (le_refl _) hlt haro
  rw [hfix]
  refine ⟨hset.consistent hsd ?_ (h.overwrite_mapped hr rfl) h.allocated h.bounded, ?_,
    hset.order, hset.capacity, hset.ttl⟩
  · rw [hset.perm.length_eq]
    exact hhea
  · rw [hset.contents]
    exact h.overwrite_contents hr

end

end

end ReliabilityStore

end Tlrpc
