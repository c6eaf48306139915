import Tlrpc.ActiveRequests
import Tlrpc.RecentList

namespace Tlrpc

open List Function AList

def lastOutcome (outcomes : List RequestOutcome) (id : Int) : Option Bool :=
  (outcomes.reverse.find? fun o => o.id = id).map (·.success)

theorem lastOutcome_concat (outcomes : List RequestOutcome) (o : RequestOutcome) (id : Int) :
    lastOutcome (outcomes ++ [o]) id = if id = o.id then some o.success else lastOutcome outcomes id := by
  unfold lastOutcome
  rw [reverse_append, reverse_singleton, singleton_append, List.find?_cons]
  by_cases h : id = o.id
  · rw [if_pos h, decide_eq_true h.symm]
    rfl
  · rw [if_neg h, decide_eq_false (Ne.symm h)]

namespace ActiveRequestRegistry

/-- The history lists the last finished IDs; exactly what has no outcome is active. -/
structure Sound (r : ActiveRequestRegistry) : Prop where
  positive : 0 < r.capacity
  bounded : r.active.keys.length ≤ r.capacity
  active : ∀ id q, r.active.lookup id = some q ↔
    q < r.allocated ∧ (r.requests q).ended = false ∧ (r.requests q).id = id
  renewed : ∀ q q', q < q' → q' < r.allocated → (r.requests q).id = (r.requests q').id →
    (r.requests q).ended = true
  outcomes : ∀ o ∈ r.outcomes, o.request < r.allocated
  once : ∀ q < r.allocated,
    r.outcomes.countP (·.request = q) = if (r.requests q).ended then 1 else 0
  order : r.completedOrder = recent r.capacity.toNat (r.outcomes.map (·.id))
  completed : ∀ id, r.completed id =
    if id ∈ r.completedOrder then lastOutcome r.outcomes id else none

section

variable {r : ActiveRequestRegistry}

variable {id : Int} {q : RequestRef} {success : Bool} {r' : ActiveRequestRegistry} {ids : List Int}

theorem lastOutcome_isSome {outcomes : List RequestOutcome} :
    (lastOutcome outcomes id).isSome ↔ id ∈ outcomes.map (·.id) := by
  unfold lastOutcome
  rw [Option.isSome_map, List.find?_isSome, mem_map]
  constructor
  · rintro ⟨o, ho, hid⟩
    exact ⟨o, mem_reverse.mp ho, of_decide_eq_true hid⟩
  · rintro ⟨o, ho, hid⟩
    exact ⟨o, mem_reverse.mpr ho, decide_eq_true hid⟩

theorem mem_of_mem_recent {α : Type} [DecidableEq α] {n : Nat} {l : List α} {x : α}
    (h : x ∈ recent n l) : x ∈ l := mem_dedup.mp (mem_of_mem_drop h)

theorem Sound.completed_isSome (h : r.Sound) (id : Int) :
    (r.completed id).isSome ↔ id ∈ r.completedOrder := by
  rw [h.completed]
  split
  next hmem =>
    refine ⟨fun _ => hmem, fun _ => lastOutcome_isSome.mpr ?_⟩
    rw [h.order] at hmem
    exact mem_of_mem_recent hmem
  next hmem => exact ⟨(nomatch ·), fun hin => absurd hin hmem⟩

theorem Sound.order_nodup (h : r.Sound) : r.completedOrder.Nodup := by
  rw [h.order]
  exact recent_nodup _ _

theorem trim_order (r : ActiveRequestRegistry) : r.trim.completedOrder =
    if (r.completedOrder.length : Int) > r.capacity then r.completedOrder.tail else r.completedOrder := by
  unfold trim
  split
  next hnil =>
    rw [hnil]
    split <;> rfl
  rename_i oldest newer hcn
  split
  · rw [hcn, tail_cons]
  · rfl

theorem trim_completed (nodup : r.completedOrder.Nodup)
    (keys : ∀ id, (r.completed id).isSome ↔ id ∈ r.completedOrder) (x : Int) :
    r.trim.completed x = if x ∈ r.trim.completedOrder then r.completed x else none := by
  have hsf : r.completed x = if x ∈ r.completedOrder then r.completed x else none := by
    split
    · rfl
    next hx => rw [← Option.not_isSome_iff_eq_none, keys]; exact hx
  unfold trim
  split
  · exact hsf
  rename_i oldest newer hcn
  split
  · dsimp only
    rw [hcn] at nodup hsf
    by_cases hx : x = oldest
    · rw [hx, update_self, if_neg (nodup_cons.mp nodup).1]
    rw [update_of_ne hx, hsf]
    simp only [mem_cons, hx, false_or]
    split <;> rfl
  · exact hsf

theorem trim_fields (r : ActiveRequestRegistry) :
    r.trim.capacity = r.capacity ∧ r.trim.active = r.active ∧ r.trim.changed = r.changed ∧
      r.trim.requests = r.requests ∧ r.trim.allocated = r.allocated ∧ r.trim.outcomes = r.outcomes := by
  unfold trim
  split
  · exact ⟨rfl, rfl, rfl, rfl, rfl, rfl⟩
  · split <;> exact ⟨rfl, rfl, rfl, rfl, rfl, rfl⟩

theorem remember_spec (nodup : r.completedOrder.Nodup)
    (keys : ∀ id, (r.completed id).isSome ↔ id ∈ r.completedOrder) (id : Int) (success : Bool) :
    (r.remember id success).completedOrder =
      (if ((r.completedOrder.erase id ++ [id]).length : Int) > r.capacity then
        (r.completedOrder.erase id ++ [id]).tail else r.completedOrder.erase id ++ [id]) ∧
    ∀ x, (r.remember id success).completed x = if x ∈ (r.remember id success).completedOrder then
        (if x = id then some success else r.completed x) else none := by
  have hord : (if (r.completed id).isSome then r.completedOrder.erase id else r.completedOrder) =
      r.completedOrder.erase id := by
    split
    · rfl
    next h => rw [erase_of_not_mem fun hmem => h ((keys id).mpr hmem)]
  have hls : (r.completedOrder.erase id ++ [id]).Nodup := by
    refine nodup_append.mpr ⟨nodup.erase id, nodup_singleton id, ?_⟩
    intro x hx y hy heq
    rw [mem_singleton] at hy
    exact (nodup.mem_erase_iff.mp hx).1 (heq.trans hy)
  have hks : ∀ x, (Function.update r.completed id (some success) x).isSome ↔
      x ∈ r.completedOrder.erase id ++ [id] := by
    intro x
    rw [mem_append, mem_singleton, nodup.mem_erase_iff, update_apply]
    split
    next hx => exact ⟨fun _ => .inr hx, fun _ => rfl⟩
    next hx => exact ⟨fun h => .inl ⟨hx, (keys x).mp h⟩, fun h => (keys x).mpr (h.resolve_right hx).2⟩
  unfold remember
  rw [hord]
  refine ⟨trim_order _, fun x => ?_⟩
  rw [trim_completed hls hks]
  dsimp only
  rw [update_apply]

structure Finished (r : ActiveRequestRegistry) (q : RequestRef) (success : Bool)
    (r' : ActiveRequestRegistry) : Prop where
  capacity : r'.capacity = r.capacity
  active : r'.active = r.active.erase (r.requests q).id
  changed : r'.changed = r.changed + 1
  requests : r'.requests = Function.update r.requests q { r.requests q with ended := true }
  allocated : r'.allocated = r.allocated
  outcomes : r'.outcomes = r.outcomes ++ [⟨q, (r.requests q).id, success⟩]
  order : r'.completedOrder = recent r.capacity.toNat (r'.outcomes.map (·.id))
  completed : ∀ id, r'.completed id =
    if id ∈ r'.completedOrder then lastOutcome r'.outcomes id else none

theorem finishLocked_of_ended (h : (r.requests q).ended = true) : r.finishLocked id q success = r := by
  unfold finishLocked
  rw [if_pos h]

theorem Sound.finished (h : r.Sound) (hq : q < r.allocated)
    (hlv : (r.requests q).ended = false) (success : Bool) :
    Finished r q success (r.finishLocked (r.requests q).id q success) := by
  have hlk := (h.active (r.requests q).id q).mpr ⟨hq, hlv, rfl⟩
  unfold finishLocked
  rw [if_neg (by rw [hlv]; exact Bool.false_ne_true), if_pos hlk]
  set id := (r.requests q).id with hid
  set outcomes := r.outcomes ++ [⟨q, id, success⟩] with hot
  set m : ActiveRequestRegistry := { r with
    requests := Function.update r.requests q { r.requests q with ended := true }
    active := r.active.erase id
    outcomes := outcomes } with hm
  obtain ⟨hcap, hact, hcha, hreq, hall, hout⟩ :
      (m.remember id success).capacity = m.capacity ∧ (m.remember id success).active = m.active ∧
      (m.remember id success).changed = m.changed ∧ (m.remember id success).requests = m.requests ∧
      (m.remember id success).allocated = m.allocated ∧
      (m.remember id success).outcomes = m.outcomes := trim_fields _
  obtain ⟨hord, hcom⟩ :=
    remember_spec (r := m) h.order_nodup h.completed_isSome id success
  have hrec : (m.remember id success).completedOrder = recent r.capacity.toNat (outcomes.map (·.id)) := by
    have hpos := h.positive
    have hror : m.completedOrder = recent r.capacity.toNat (r.outcomes.map (·.id)) := h.order
    rw [hord, hot, map_append, map_singleton, recent_concat, ← hror]
    dsimp only
    by_cases hln : ((m.completedOrder.erase id ++ [id]).length : Int) > r.capacity
    · rw [if_pos hln, if_pos (by omega)]
    · rw [if_neg hln, if_neg (by omega)]
  refine ⟨hcap, hact, ?_, hreq, hall, hout, ?_, fun x => ?_⟩
  · show (m.remember id success).changed + 1 = r.changed + 1
    rw [hcha]
  · show (m.remember id success).completedOrder = recent _ ((m.remember id success).outcomes.map _)
    rw [hout]
    exact hrec
  · show (m.remember id success).completed x = if x ∈ (m.remember id success).completedOrder then
        lastOutcome (m.remember id success).outcomes x else none
    rw [hcom, hout]
    by_cases hin : x ∈ (m.remember id success).completedOrder
    · rw [if_pos hin, if_pos hin]
      rw [lastOutcome_concat]
      by_cases hx : x = id
      · rw [if_pos hx, if_pos hx]
      have hmem : x ∈ r.completedOrder.erase id ++ [id] := by
        rw [hord] at hin
        split at hin
        · exact mem_of_mem_tail hin
        · exact hin
      rw [mem_append, mem_singleton] at hmem
      have hold : x ∈ r.completedOrder := mem_of_mem_erase (hmem.resolve_right hx)
      rw [if_neg hx, if_neg hx]
      exact (h.completed x).trans (if_pos hold)
    · rw [if_neg hin, if_neg hin]

theorem Finished.sound (hf : Finished r q success r') (h : r.Sound) (hq : q < r.allocated)
    (hlv : (r.requests q).ended = false) : r'.Sound := by
  have hlk := (h.active (r.requests q).id q).mpr ⟨hq, hlv, rfl⟩
  have hother : ∀ q', q' ≠ q → r'.requests q' = r.requests q' := by
    intro q' hne
    rw [hf.requests, update_of_ne hne]
  have hsf : (r'.requests q).ended = true := by rw [hf.requests, update_self]
  have hid : ∀ q', (r'.requests q').id = (r.requests q').id := by
    intro q'
    rw [hf.requests, update_apply]
    split
    next heq => rw [heq]
    · rfl
  refine ⟨?_, ?_, fun id q' => ?_, fun q₁ q₂ hlt hq₂ heq => ?_, fun o ho => ?_, fun q' hq' => ?_, ?_,
    hf.completed⟩
  · rw [hf.capacity]
    exact h.positive
  · rw [hf.capacity, hf.active, keys_erase]
    have hle := (erase_sublist (a := (r.requests q).id) (l := r.active.keys)).length_le
    have := h.bounded
    omega
  · rw [hf.active, hf.allocated]
    by_cases hne : q' = q
    · subst hne
      rw [hsf]
      refine ⟨fun hl => ?_, fun hl => nomatch hl.2.1⟩
      by_cases hid : id = (r.requests q').id
      · rw [hid, lookup_erase] at hl
        cases hl
      · rw [lookup_erase_ne hid] at hl
        exact absurd ((h.active id q').mp hl).2.2.symm hid
    · rw [hother q' hne]
      by_cases hid : id = (r.requests q).id
      · subst hid
        rw [lookup_erase]
        refine ⟨(nomatch ·), fun hl => ?_⟩
        have hl := (h.active _ q').mpr hl
        rw [hlk] at hl
        exact absurd (Option.some.inj hl).symm hne
      · rw [lookup_erase_ne hid]
        exact h.active id q'
  · rw [hid, hid] at heq
    rw [hf.allocated] at hq₂
    by_cases hne : q₁ = q
    · rw [hne]
      exact hsf
    · rw [hother q₁ hne]
      exact h.renewed q₁ q₂ hlt hq₂ heq
  · rw [hf.allocated]
    rw [hf.outcomes, mem_append, mem_singleton] at ho
    rcases ho with ho | rfl
    · exact h.outcomes o ho
    · exact hq
  · rw [hf.allocated] at hq'
    have hcnt := h.once q' hq'
    rw [hf.outcomes, countP_append, countP_singleton, hcnt]
    by_cases hne : q' = q
    · subst hne
      rw [hlv, hsf]
      simp
    · rw [hother q' hne]
      simp [Ne.symm hne]
  · rw [hf.order, hf.capacity]

/-- Registrations stay, outcomes are added; other changes need a new channel. -/
structure Extends (r r' : ActiveRequestRegistry) : Prop where
  capacity : r'.capacity = r.capacity
  allocated : r.allocated ≤ r'.allocated
  ids : ∀ q < r.allocated, (r'.requests q).id = (r.requests q).id
  changed : r.changed ≤ r'.changed
  outcomes : r.outcomes <+: r'.outcomes
  quiet : r'.changed = r.changed →
    r'.completed = r.completed ∧ r'.outcomes = r.outcomes ∧ r'.allocated = r.allocated

theorem Extends.refl (r : ActiveRequestRegistry) : Extends r r :=
  ⟨rfl, le_refl _, fun _ _ => rfl, le_refl _, prefix_refl _, fun _ => ⟨rfl, rfl, rfl⟩⟩

theorem Extends.trans {r₁ r₂ r₃ : ActiveRequestRegistry} (h : Extends r₁ r₂) (h' : Extends r₂ r₃) :
    Extends r₁ r₃ where
  capacity := h'.capacity.trans h.capacity
  allocated := le_trans h.allocated h'.allocated
  ids q hq := (h'.ids q (lt_of_lt_of_le hq h.allocated)).trans (h.ids q hq)
  changed := le_trans h.changed h'.changed
  outcomes := h.outcomes.trans h'.outcomes
  quiet heq := by
    have h₁ := h.changed
    have h₂ := h'.changed
    obtain ⟨hc, ho, ha⟩ := h.quiet (by omega)
    obtain ⟨hc', ho', ha'⟩ := h'.quiet (by omega)
    exact ⟨hc'.trans hc, ho'.trans ho, ha'.trans ha⟩

theorem Finished.extends (hf : Finished r q success r') : Extends r r' := by
  refine ⟨hf.capacity, le_of_eq hf.allocated.symm, fun q' _ => ?_, by have := hf.changed; omega, ?_,
    fun heq => absurd heq (by have := hf.changed; omega)⟩
  · rw [hf.requests, update_apply]
    split
    next heq => rw [heq]
    · rfl
  · rw [hf.outcomes]
    exact prefix_append _ _

theorem Sound.finishLocked (h : r.Sound) (hq : q < r.allocated) (success : Bool) :
    (r.finishLocked (r.requests q).id q success).Sound ∧
      Extends r (r.finishLocked (r.requests q).id q success) := by
  cases hend : (r.requests q).ended with
  | true =>
    rw [finishLocked_of_ended hend]
    exact ⟨h, .refl r⟩
  | false =>
    have hf := h.finished hq hend success
    exact ⟨hf.sound h hq hend, hf.extends⟩

theorem Sound.drop (h : r.Sound) (id : Int) : (r.drop id).Sound ∧ Extends r (r.drop id) := by
  unfold ActiveRequestRegistry.drop
  split
  next q hq =>
    obtain ⟨hlt, _, rfl⟩ := (h.active id q).mp hq
    exact h.finishLocked hlt false
  · exact ⟨h, .refl r⟩

theorem Sound.cancelAll {order : List (Int × RequestRef)} {r : ActiveRequestRegistry} (h : r.Sound)
    (known : ∀ e ∈ order, e.2 < r.allocated ∧ (r.requests e.2).id = e.1) :
    (r.cancelAll order).Sound ∧ Extends r (r.cancelAll order) := by
  induction order generalizing r with
  | nil => exact ⟨h, .refl r⟩
  | cons e rest ih =>
    obtain ⟨id, q⟩ := e
    obtain ⟨hlt, hid⟩ := known (id, q) mem_cons_self
    obtain ⟨hsd, hext⟩ := h.finishLocked hlt false
    rw [hid] at hsd hext
    have hrs : ∀ e ∈ rest, e.2 < (r.finishLocked id q false).allocated ∧
        ((r.finishLocked id q false).requests e.2).id = e.1 := by
      intro e he
      obtain ⟨hlt', hid'⟩ := known e (mem_cons_of_mem _ he)
      exact ⟨lt_of_lt_of_le hlt' hext.allocated, (hext.ids e.2 hlt').trans hid'⟩
    obtain ⟨hsd', hext'⟩ := ih hsd hrs
    exact ⟨hsd', hext.trans hext'⟩

theorem Sound.relabel (h : r.Sound) {requests : RequestRef → ActiveRequest}
    (same : ∀ q, (requests q).ended = (r.requests q).ended ∧ (requests q).id = (r.requests q).id) :
    ({ r with requests := requests } : ActiveRequestRegistry).Sound ∧
      Extends r { r with requests := requests } := by
  refine ⟨⟨h.positive, h.bounded, fun id q => ?_, fun q q' hlt hq' heq => ?_, h.outcomes,
    fun q hq => ?_, h.order, h.completed⟩,
    ⟨rfl, le_refl _, fun q _ => (same q).2, le_refl _, prefix_refl _, fun _ => ⟨rfl, rfl, rfl⟩⟩⟩
  · rw [(same q).1, (same q).2]
    exact h.active id q
  · rw [(same q).2, (same q').2] at heq
    rw [(same q).1]
    exact h.renewed q q' hlt hq' heq
  · rw [(same q).1]
    exact h.once q hq

theorem Sound.cancel (h : r.Sound) (q : RequestRef) : (r.cancel q).Sound ∧ Extends r (r.cancel q) := by
  refine h.relabel fun q' => ?_
  rw [update_apply]
  split
  next heq => exact ⟨by rw [heq], by rw [heq]⟩
  · exact ⟨rfl, rfl⟩

theorem Sound.setOnce (h : r.Sound) (q : RequestRef) (once : OnceState) :
    (r.setOnce q once).Sound ∧ Extends r (r.setOnce q once) := by
  refine h.relabel fun q' => ?_
  rw [update_apply]
  split
  next heq => exact ⟨by rw [heq], by rw [heq]⟩
  · exact ⟨rfl, rfl⟩

theorem checkIDs_eq_none {seen : List Int} (h : checkIDs seen ids = none) :
    ids.Nodup ∧ ∀ id ∈ ids, id ≠ 0 ∧ id ∉ seen := by
  induction ids generalizing seen with
  | nil => exact ⟨nodup_nil, fun id hid => absurd hid not_mem_nil⟩
  | cons id ids ih =>
    unfold checkIDs at h
    split at h
    · cases h
    rename_i hz
    split at h
    · cases h
    rename_i hsn
    obtain ⟨hnd, hall⟩ := ih h
    refine ⟨nodup_cons.mpr ⟨fun hmem => ?_, hnd⟩, fun x hx => ?_⟩
    · exact (hall id hmem).2 mem_cons_self
    · rcases mem_cons.mp hx with rfl | hx
      · exact ⟨hz, hsn⟩
      · exact ⟨(hall x hx).1, fun hin => (hall x hx).2 (mem_cons_of_mem id hin)⟩

theorem register_keys (hnew : r.active.lookup id = none) :
    (r.register id).active.keys.length = r.active.keys.length + 1 := by
  show (r.active.insert id r.allocated).keys.length = _
  rw [AList.keys_insert, length_cons, erase_of_not_mem]
  rw [← AList.mem_keys, ← AList.lookup_eq_none]
  exact hnew

theorem Sound.register (h : r.Sound) (hnew : r.active.lookup id = none)
    (room : (r.active.keys.length : Int) + 1 ≤ r.capacity) : (r.register id).Sound := by
  have hother : ∀ q < r.allocated, (r.register id).requests q = r.requests q :=
    fun q hq => update_of_ne (Nat.ne_of_lt hq) _ _
  have hsf : (r.register id).requests r.allocated = ⟨id, false, false, .fresh⟩ :=
    update_self _ _ _
  refine ⟨h.positive, ?_, fun id' q => ?_, fun q q' hlt hq' heq => ?_, fun o ho => ?_, fun q hq => ?_,
    h.order, h.completed⟩
  · rw [register_keys hnew]
    exact room
  · show (r.active.insert id r.allocated).lookup id' = some q ↔ q < r.allocated + 1 ∧ _
    by_cases hid : id' = id
    · subst hid
      rw [lookup_insert]
      constructor
      · intro heq
        obtain rfl := Option.some.inj heq
        rw [hsf]
        exact ⟨Nat.lt_succ_self _, rfl, rfl⟩
      · rintro ⟨hlt, hend, hid⟩
        rcases Nat.lt_succ_iff_lt_or_eq.mp hlt with hlt | rfl
        · rw [hother q hlt] at hend hid
          have hlk := (h.active id' q).mpr ⟨hlt, hend, hid⟩
          rw [hnew] at hlk
          cases hlk
        · rfl
    · rw [lookup_insert_ne hid, h.active]
      constructor
      · rintro ⟨hlt, hrs⟩
        rw [hother q hlt]
        exact ⟨Nat.lt_succ_of_lt hlt, hrs⟩
      · rintro ⟨hlt, hrs⟩
        rcases Nat.lt_succ_iff_lt_or_eq.mp hlt with hlt | rfl
        · rw [hother q hlt] at hrs
          exact ⟨hlt, hrs⟩
        · rw [hsf] at hrs
          exact absurd hrs.2.symm hid
  · rcases Nat.lt_succ_iff_lt_or_eq.mp hq' with hlt' | rfl
    · rw [hother q (lt_trans hlt hlt'), hother q' hlt'] at heq
      rw [hother q (lt_trans hlt hlt')]
      exact h.renewed q q' hlt hlt' heq
    · rw [hother q hlt, hsf] at heq
      rw [hother q hlt]
      by_contra hend
      have hlk := (h.active id q).mpr ⟨hlt, eq_false_of_ne_true hend, heq⟩
      rw [hnew] at hlk
      cases hlk
  · exact Nat.lt_succ_of_lt (h.outcomes o ho)
  · rcases Nat.lt_succ_iff_lt_or_eq.mp hq with hlt | rfl
    · rw [hother q hlt]
      exact h.once q hlt
    · rw [hsf]
      refine countP_eq_zero.mpr fun o ho => ?_
      rw [decide_eq_true_iff]
      exact Nat.ne_of_lt (h.outcomes o ho)

/-- Distinct new IDs get fresh registrations, and nothing else changes. -/
structure Registered (r : ActiveRequestRegistry) (ids : List Int) (refs : List RequestRef)
    (r' : ActiveRequestRegistry) : Prop where
  refs : List.Forall₂ (fun id q => r'.active.lookup id = some q ∧ r'.requests q = ⟨id, false, false, .fresh⟩ ∧
    r.allocated ≤ q ∧ q < r'.allocated) ids refs
  others : ∀ id ∉ ids, r'.active.lookup id = r.active.lookup id
  old : ∀ q < r.allocated, r'.requests q = r.requests q
  capacity : r'.capacity = r.capacity
  allocated : r.allocated ≤ r'.allocated
  completed : r'.completed = r.completed
  order : r'.completedOrder = r.completedOrder
  outcomes : r'.outcomes = r.outcomes

theorem Registered.lt_allocated {refs : List RequestRef}
    (h : Registered r ids refs r') : ∀ q ∈ refs, q < r'.allocated := by
  have hrf := h.refs
  clear h
  induction hrf with
  | nil => exact fun q hq => absurd hq not_mem_nil
  | cons hhd _ ih =>
    intro q hq
    rcases mem_cons.mp hq with rfl | hq
    · exact hhd.2.2.2
    · exact ih q hq

theorem Sound.registerAll {r : ActiveRequestRegistry} (h : r.Sound)
    (nodup : ids.Nodup) (hnew : ∀ id ∈ ids, r.active.lookup id = none)
    (room : (r.active.keys.length : Int) + ids.length ≤ r.capacity) :
    (r.registerAll ids).2.Sound ∧ (r.registerAll ids).2.changed = r.changed ∧
      Registered r ids (r.registerAll ids).1 (r.registerAll ids).2 := by
  induction ids generalizing r with
  | nil =>
    exact ⟨h, rfl, .nil, fun _ _ => rfl, fun _ _ => rfl, rfl, le_refl _, rfl, rfl, rfl⟩
  | cons id ids ih =>
    obtain ⟨hfr, hnd⟩ := nodup_cons.mp nodup
    have hid := hnew id mem_cons_self
    rw [length_cons] at room
    have hsd := h.register hid (by omega)
    have hlk : ∀ id' ≠ id, (r.register id).active.lookup id' = r.active.lookup id' :=
      fun id' hne => lookup_insert_ne hne
    have hks := register_keys hid
    have hnew' : ∀ id' ∈ ids, (r.register id).active.lookup id' = none := by
      intro id' hmem
      rw [hlk id' (fun heq => hfr (heq ▸ hmem))]
      exact hnew id' (mem_cons_of_mem id hmem)
    have hcap : (r.register id).capacity = r.capacity := rfl
    obtain ⟨hsd', hcha, hreg⟩ := ih hsd hnd hnew' (by omega)
    refine ⟨hsd', hcha, ?_⟩
    have hsf : (r.register id).requests r.allocated = ⟨id, false, false, .fresh⟩ :=
      update_self _ _ _
    refine ⟨.cons ⟨?_, ?_, le_refl _, ?_⟩ (hreg.refs.imp ?_), fun id' hnot => ?_, fun q hq => ?_,
      hreg.capacity, Nat.le_of_succ_le hreg.allocated, hreg.completed, hreg.order, hreg.outcomes⟩
    · show ((r.register id).registerAll ids).2.active.lookup id = some r.allocated
      rw [hreg.others id hfr]
      exact lookup_insert _
    · exact (hreg.old r.allocated (Nat.lt_succ_self _)).trans hsf
    · exact lt_of_lt_of_le (Nat.lt_succ_self _) hreg.allocated
    · rintro id' q ⟨hlo, hreq, hle, hlt⟩
      exact ⟨hlo, hreq, Nat.le_of_succ_le hle, hlt⟩
    · rw [mem_cons, not_or] at hnot
      exact (hreg.others id' hnot.2).trans (hlk id' hnot.1)
    · exact (hreg.old q (Nat.lt_succ_of_lt hq)).trans (update_of_ne (Nat.ne_of_lt hq) _ _)

theorem Sound.notifyLocked (h : r.Sound) : r.notifyLocked.Sound :=
  ⟨h.positive, h.bounded, h.active, h.renewed, h.outcomes, h.once, h.order, h.completed⟩

theorem Sound.beginBatch (h : r.Sound) (ids : List Int) :
    (r.beginBatch ids).2.Sound ∧ Extends r (r.beginBatch ids).2 ∧
      ((∃ err, r.beginBatch ids = (.error err, r)) ∨
        ∃ refs, (r.beginBatch ids).1 = .ok refs ∧ ids.Nodup ∧ (∀ id ∈ ids, id ≠ 0 ∧ r.active.lookup id = none) ∧
          Registered r ids refs (r.beginBatch ids).2) := by
  have hfl : ∀ err, r.beginBatch ids = (.error err, r) → (r.beginBatch ids).2.Sound ∧
      Extends r (r.beginBatch ids).2 ∧ ((∃ err, r.beginBatch ids = (.error err, r)) ∨
        ∃ refs, (r.beginBatch ids).1 = .ok refs ∧ ids.Nodup ∧
          (∀ id ∈ ids, id ≠ 0 ∧ r.active.lookup id = none) ∧
          Registered r ids refs (r.beginBatch ids).2) := by
    intro err herr
    rw [herr]
    exact ⟨h, .refl r, .inl ⟨err, rfl⟩⟩
  cases hchk : checkIDs [] ids with
  | some err => exact hfl err (by rw [ActiveRequestRegistry.beginBatch, hchk])
  | none =>
    by_cases hfu : (r.active.keys.length : Int) + ids.length > r.capacity
    · exact hfl _ (by rw [ActiveRequestRegistry.beginBatch, hchk]; exact if_pos hfu)
    cases hfd : ids.find? fun id => (r.active.lookup id).isSome with
    | some id =>
      refine hfl (.duplicate id) ?_
      rw [ActiveRequestRegistry.beginBatch, hchk]
      rw [if_neg hfu, hfd]
    | none =>
      have heq : r.beginBatch ids = (.ok (r.registerAll ids).1, (r.registerAll ids).2.notifyLocked) := by
        rw [ActiveRequestRegistry.beginBatch, hchk]
        rw [if_neg hfu, hfd]
      obtain ⟨hnd, hall⟩ := checkIDs_eq_none hchk
      have hnew : ∀ id ∈ ids, r.active.lookup id = none := fun id hid =>
        Option.not_isSome_iff_eq_none.mp (List.find?_eq_none.mp hfd id hid)
      obtain ⟨hsd, hcha, hreg⟩ := h.registerAll hnd hnew (by omega)
      have hnx : (r.registerAll ids).2.notifyLocked.changed = r.changed + 1 := by
        rw [ActiveRequestRegistry.notifyLocked, hcha]
      rw [heq]
      dsimp only
      refine ⟨hsd.notifyLocked, ⟨hreg.capacity, hreg.allocated, fun q hq => ?_, by omega, ?_,
        fun hsm => absurd hsm (by omega)⟩, .inr ⟨_, rfl, hnd,
        fun id hid => ⟨(hall id hid).1, hnew id hid⟩, hreg.refs, hreg.others, hreg.old, hreg.capacity,
        hreg.allocated, hreg.completed, hreg.order, hreg.outcomes⟩⟩
      · show ((r.registerAll ids).2.requests q).id = _
        rw [hreg.old q hq]
      · exact ⟨[], (append_nil _).trans hreg.outcomes.symm⟩

end

end ActiveRequestRegistry

end Tlrpc
