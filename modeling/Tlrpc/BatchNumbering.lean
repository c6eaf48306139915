import Tlrpc.PushBatching
import Tlrpc.SessionSteps

namespace Tlrpc

open List Option BatchingWriter

def MessageIntent.unsolicited : MessageIntent → Bool
  | .push _ => true
  | .protocolReply _ _ unsolicited => unsolicited
  | _ => false

def Intent.parts : Intent → List (Option MessageIntent)
  | .message m => [some m]
  | .batch items => items.map some ++ [none]
  | _ => []

variable {items : List MessageIntent} {x : Int × Option MessageIntent} {clock : Nat → ClockReading}

section

variable {maxBytes : Nat} {env : WriterEnv} {snapshot next : Snapshot} {intent : Intent}

theorem encoded_push {m : MessageIntent} {encoded : EncodedBody}
    (h : encodeIntentBodyBounded maxBytes m = some encoded) : encoded.push = m.unsolicited := by
  cases m with
  | rpcResult requestMessageID body =>
    obtain ⟨_, _, h⟩ := bind_eq_some_iff.mp h
    obtain ⟨_, _, h⟩ := bind_eq_some_iff.mp h
    cases h
    rfl
  | rpcError requestMessageID code message =>
    obtain ⟨_, _, h⟩ := bind_eq_some_iff.mp h
    obtain ⟨_, _, h⟩ := bind_eq_some_iff.mp h
    obtain ⟨_, _, h⟩ := bind_eq_some_iff.mp h
    cases h
    rfl
  | protocolReply body contentRelated unsolicited =>
    obtain ⟨_, _, h⟩ := bind_eq_some_iff.mp h
    cases h
    rfl
  | acknowledge messageIDs =>
    obtain ⟨_, _, h⟩ := bind_eq_some_iff.mp h
    cases h
    rfl
  | push body =>
    obtain ⟨_, _, h⟩ := bind_eq_some_iff.mp h
    cases h
    rfl

theorem messageNumbers_get {ids : Nat → Int} {i : Nat}
    (h : (messageNumbers maxBytes ids items)[i]? = some x) :
    ∃ m, items[i]? = some m ∧ x = (nextMessageID (ids i) m.unsolicited, some m) := by
  induction items generalizing ids i with
  | nil => cases h
  | cons m rest ih =>
    unfold messageNumbers at h
    split at h
    · cases h
    rename_i encoded henc
    cases i with
    | zero =>
      cases h
      exact ⟨m, rfl, by rw [encoded_push henc]⟩
    | succ i => exact ih h

theorem messageNumbers_parts (ids : Nat → Int) (items : List MessageIntent) :
    (messageNumbers maxBytes ids items).map Prod.snd <+: items.map some := by
  induction items generalizing ids with
  | nil => exact prefix_refl _
  | cons m rest ih =>
    unfold messageNumbers
    split
    · exact nil_prefix
    · exact cons_prefix_cons.mpr ⟨rfl, ih _⟩

theorem messageNumbers_assigned {ids : Nat → Int} {assigned : List AssignedMessage}
    (h : assignMessages maxBytes ids snapshot items = some (assigned, next)) :
    (messageNumbers maxBytes ids items).map Prod.fst = assigned.map (·.messageID) ∧
      (messageNumbers maxBytes ids items).length = items.length := by
  induction items generalizing ids snapshot assigned with
  | nil =>
    cases h
    exact ⟨rfl, rfl⟩
  | cons m rest ih =>
    obtain ⟨first, mid, others, hfst, hoth, rfl⟩ := assignMessages_cons h
    obtain ⟨encoded, henc, hfst⟩ := bind_eq_some_iff.mp hfst
    cases hfst
    obtain ⟨hids, hlen⟩ := ih hoth
    unfold messageNumbers
    rw [henc]
    exact ⟨congrArg _ hids, congrArg _ hlen⟩

theorem numbers_get {i : Nat} (h : (numbers env snapshot intent)[i]? = some x) :
    x.1 = nextMessageID (env.ids i) (x.2.any MessageIntent.unsolicited) := by
  cases intent with
  | message m =>
    obtain ⟨m', _, rfl⟩ := messageNumbers_get h
    rfl
  | batch items =>
    unfold numbers at h
    dsimp only at h
    split at h
    · cases h
    by_cases hchi : i < (messageNumbers env.maxEncodedBytes env.ids items).length
    · rw [getElem?_append_left hchi] at h
      obtain ⟨m', _, rfl⟩ := messageNumbers_get h
      rfl
    rw [getElem?_append_right (by omega)] at h
    split at h
    next hfrm =>
      obtain ⟨⟨children, outer, next⟩, hfrm⟩ := isSome_iff_exists.mp hfrm
      rcases assignFrame_cases hfrm with ⟨m, heq, _⟩ | ⟨items', heq, _, hite, _⟩
      · cases heq
      cases heq
      have hlen := (messageNumbers_assigned hite).2
      rw [hlen] at h hchi
      have hi : i - items.length = 0 := by
        by_contra hne
        rw [getElem?_eq_none (by rw [length_singleton]; omega)] at h
        cases h
      rw [hi] at h
      cases h
      rw [show i = items.length by omega]
      rfl
    · cases h
  | resend messageIDs => cases h
  | close => cases h

theorem numbers_parts (env : WriterEnv) (snapshot : Snapshot) (intent : Intent) :
    (numbers env snapshot intent).map Prod.snd <+: intent.parts := by
  cases intent with
  | message m => exact messageNumbers_parts env.ids [m]
  | batch items =>
    unfold numbers Intent.parts
    dsimp only
    split
    · exact nil_prefix
    have hpar : (messageNumbers env.maxEncodedBytes env.ids items).map Prod.snd <+:
        items.map some := messageNumbers_parts env.ids items
    split
    next hfrm =>
      obtain ⟨⟨children, outer, next⟩, hfrm⟩ := isSome_iff_exists.mp hfrm
      rcases assignFrame_cases hfrm with ⟨m, heq, _⟩ | ⟨items', heq, _, hite, _⟩
      · cases heq
      cases heq
      have hlen := (messageNumbers_assigned hite).2
      have hall := hpar.eq_of_length (by rw [length_map, length_map, hlen])
      rw [map_append, hall]
      exact prefix_refl _
    · rw [append_nil]
      exact hpar.trans (prefix_append _ _)
  | resend messageIDs => exact nil_prefix
  | close => exact nil_prefix

theorem numbers_prepare {prepared : PreparedFrame}
    (h : prepare env snapshot intent = some (prepared, next)) :
    (numbers env snapshot intent).map Prod.fst = prepared.messages.map (·.messageID) := by
  obtain ⟨⟨children, outer, last⟩, hfrm, h⟩ := bind_eq_some_iff.mp h
  obtain ⟨frame, _, h⟩ := bind_eq_some_iff.mp h
  cases h
  rcases assignFrame_cases hfrm with ⟨m, rfl, rfl, hm⟩ | ⟨items, rfl, hite, hm, hid, _⟩
  · obtain ⟨encoded, henc, hm⟩ := bind_eq_some_iff.mp hm
    cases hm
    unfold numbers messageNumbers
    dsimp only
    rw [henc]
    rfl
  · have hso : (assignFrame env snapshot (.batch items)).isSome = true := by rw [hfrm]; rfl
    unfold numbers
    dsimp only
    rw [if_neg (by omega), if_pos hso, map_append, map_append, (messageNumbers_assigned hm).1]
    exact congrArg _ (congrArg (fun id => [id]) hid.symm)

theorem nextMessageID_between {source : Int} (h : source % 4 = 0) (push : Bool) :
    source < nextMessageID source push ∧ nextMessageID source push < source + 4 := by
  unfold nextMessageID
  split <;> omega

theorem numbers_increasing {g : MsgIDGenerator} {draws : Nat} (hg : g.Within draws)
    (hids : env.ids = g.ids clock)
    (hdra : draws + (numbers env snapshot intent).length ≤ MsgIDGenerator.monotoneDraws) :
    ((numbers env snapshot intent).map Prod.fst).Pairwise (· < ·) ∧
      ∀ id ∈ (numbers env snapshot intent).map Prod.fst, g.last.toInt + 4 ≤ id ∧
        id < (g.after clock (numbers env snapshot intent).length).last.toInt + 4 := by
  generalize hls : numbers env snapshot intent = taken at hdra
  have hbet : ∀ i x, taken[i]? = some x → g.ids clock i < x.1 ∧ x.1 < g.ids clock i + 4 := by
    intro i x hx
    have hi : i < taken.length := (List.getElem?_eq_some_iff.mp hx).1
    rw [numbers_get (hls ▸ hx), hids]
    exact nextMessageID_between (hg.ids_aligned clock (by omega)) _
  refine ⟨?_, ?_⟩
  · rw [pairwise_map, pairwise_iff_getElem]
    intro i j hi hj hij
    have hx := hbet i _ (getElem?_eq_getElem hi)
    have hy := hbet j _ (getElem?_eq_getElem hj)
    have hst := hg.ids_lt clock (k := j) (by omega)
    have hmn : g.ids clock i ≤ (g.after clock j).last.toInt := hg.last_le clock hij (by omega)
    omega
  · intro id hid
    obtain ⟨x, hx, rfl⟩ := mem_map.mp hid
    obtain ⟨i, hi⟩ := mem_iff_getElem?.mp hx
    have hlen : i < taken.length := (List.getElem?_eq_some_iff.mp hi).1
    have hx := hbet i x hi
    have hst := hg.ids_lt clock (k := i) (by omega)
    have hfst : g.last.toInt ≤ (g.after clock i).last.toInt :=
      hg.last_le clock (j := 0) (Nat.zero_le i) (by omega)
    have hla : g.ids clock i ≤ (g.after clock taken.length).last.toInt :=
      hg.last_le clock hlen (by omega)
    omega

end

namespace BatchingWriter

def Numbered (before : Nat) (s : BatchingWriter) : Prop :=
  before + s.ids.length ≤ MsgIDGenerator.monotoneDraws →
    s.generator.Within (before + s.ids.length) ∧ (s.ids.map Prod.fst).Pairwise (· < ·) ∧
      ∀ id ∈ s.ids.map Prod.fst, id < s.generator.last.toInt + 4

structure Labelled (s : BatchingWriter) : Prop where
  parts : ∀ numbering ∈ s.numberings, numbering.ids.map Prod.snd <+: numbering.intent.parts
  bits : ∀ x ∈ s.ids, x.1 % 4 = if x.2.any MessageIntent.unsolicited then 3 else 1

variable {s s' : BatchingWriter} {before : Nat}

theorem prepare_spec {encrypt : InnerData → KeyID → Option (List UInt8)} {now : Time}
    (h : s.prepare clock encrypt now = some s') :
    ∃ job intent taken, s.loop.stage = .processing job ∧ s.loop.groupIntent job.group = some intent ∧
      s.loop.prepareGroup (s.generator.ids clock) encrypt now = some s'.loop ∧
      (taken = [] ∧ s.loop.active = false ∨ s.loop.active = true ∧ taken =
        numbers ⟨s.loop.config.maxEncodedBytes, s.generator.ids clock, encrypt, now⟩ s.loop.snapshot
          intent) ∧ s' = { s with
        loop := s'.loop
        generator := s.generator.after clock taken.length
        numberings := s.numberings ++ [⟨intent, taken⟩] } := by
  unfold prepare at h
  split at h
  · cases h
  rename_i intent hint
  obtain ⟨loop, hlp, rfl⟩ := map_eq_some_iff.mp h
  obtain ⟨job, hjob, hint⟩ := bind_eq_some_iff.mp hint
  have hst : s.loop.stage = .processing job := by
    unfold WriterLoop.prepareGroup at hlp
    split at hlp
    next job' hst =>
      rw [hst] at hjob
      cases hjob
      exact hst
    · cases hlp
  refine ⟨job, intent, _, hst, hint, hlp, ?_, rfl⟩
  by_cases hact : s.loop.active = true
  · rw [if_pos hact]
    exact .inr ⟨hact, rfl⟩
  · rw [if_neg hact]
    exact .inl ⟨rfl, Bool.eq_false_iff.mpr hact⟩

variable {op : BatchingOp}

theorem step_numberings (h : s.step op = some s') :
    (s'.generator = s.generator ∧ s'.numberings = s.numberings) ∨
      ∃ clock encrypt now, s.prepare clock encrypt now = some s' := by
  cases op with
  | loop op =>
    have hst : s.stepLoop op = some s' := by
      cases op with
      | prepare => cases h
      | _ => exact h
    obtain ⟨loop, _, rfl⟩ := map_eq_some_iff.mp hst
    exact .inl ⟨rfl, rfl⟩
  | prepare clock encrypt now => exact .inr ⟨clock, encrypt, now, h⟩
  | breakDown err =>
    obtain ⟨loop, _, rfl⟩ := map_eq_some_iff.mp h
    exact .inl ⟨rfl, rfl⟩
  | stop =>
    obtain ⟨loop, _, rfl⟩ := map_eq_some_iff.mp h
    exact .inl ⟨rfl, rfl⟩

theorem ids_append {numbering : MessageNumbering} (h : s'.numberings = s.numberings ++ [numbering]) :
    s'.ids = s.ids ++ numbering.ids := by
  unfold ids
  rw [h, flatMap_append, flatMap_singleton]

theorem ids_congr (h : s'.numberings = s.numberings) : s'.ids = s.ids := by
  unfold ids
  rw [h]

theorem Numbered.step (h : s.Numbered before) (hst : s.step op = some s') : s'.Numbered before := by
  rcases step_numberings hst with ⟨hgen, hnum⟩ | ⟨clock, encrypt, now, hprepare⟩
  · unfold Numbered
    rw [hgen, ids_congr hnum]
    exact h
  obtain ⟨job, intent, taken, _, _, _, htk, heq⟩ := prepare_spec hprepare
  have hids : s'.ids = s.ids ++ taken := by
    have hnum : s'.numberings = s.numberings ++ [⟨intent, taken⟩] := by rw [heq]
    exact ids_append hnum
  have hgen : s'.generator = s.generator.after clock taken.length := by rw [heq]
  intro hdra
  rw [hids, length_append] at hdra ⊢
  rw [hgen]
  obtain ⟨hwi, hinc, hbl⟩ := h (by omega)
  have hran : (taken.map Prod.fst).Pairwise (· < ·) ∧ ∀ id ∈ taken.map Prod.fst,
      s.generator.last.toInt + 4 ≤ id ∧ id < (s.generator.after clock taken.length).last.toInt + 4 := by
    rcases htk with ⟨rfl, _⟩ | ⟨_, rfl⟩
    · exact ⟨.nil, fun _ hid => absurd hid not_mem_nil⟩
    · exact numbers_increasing hwi rfl (by omega)
  rw [← Nat.add_assoc, map_append]
  refine ⟨hwi.after clock (by omega), ?_, fun id hid => ?_⟩
  · refine pairwise_append.mpr ⟨hinc, hran.1, fun a ha b hb => ?_⟩
    have ha := hbl a ha
    have hb := (hran.2 b hb).1
    omega
  · rcases mem_append.mp hid with hid | hid
    · have hid := hbl id hid
      have hla : s.generator.last.toInt ≤ (s.generator.after clock taken.length).last.toInt :=
        hwi.last_le clock (j := 0) (Nat.zero_le _) (by omega)
      omega
    · exact (hran.2 id hid).2

theorem Labelled.step (h : s.Labelled) (hst : s.step op = some s') : s'.Labelled := by
  rcases step_numberings hst with ⟨_, hnum⟩ | ⟨clock, encrypt, now, hprepare⟩
  · refine ⟨?_, ?_⟩
    · rw [hnum]
      exact h.parts
    · rw [ids_congr hnum]
      exact h.bits
  · obtain ⟨job, intent, taken, _, _, _, htk, heq⟩ := prepare_spec hprepare
    have hnum : s'.numberings = s.numberings ++ [⟨intent, taken⟩] := by rw [heq]
    refine ⟨?_, ?_⟩
    · intro numbering hin
      rw [hnum] at hin
      rcases mem_append.mp hin with hin | hin
      · exact h.parts numbering hin
      rw [mem_singleton.mp hin]
      rcases htk with ⟨rfl, _⟩ | ⟨_, rfl⟩
      · exact nil_prefix
      · exact numbers_parts _ _ _
    · intro x hx
      rw [ids_append hnum] at hx
      rcases mem_append.mp hx with hx | hx
      · exact h.bits x hx
      rcases htk with ⟨rfl, _⟩ | ⟨_, rfl⟩
      · cases hx
      obtain ⟨i, hi⟩ := mem_iff_getElem?.mp hx
      rw [numbers_get hi]
      unfold nextMessageID
      split <;> omega

section

variable (config : WriterConfig) (canceled : ContextID → Bool) (snapshot : Snapshot)
  (store : ReliabilityStore)

theorem labelled_start (generator : MsgIDGenerator) :
    (start config canceled snapshot store generator).Labelled :=
  ⟨fun _ hin => absurd hin not_mem_nil, fun _ hin => absurd hin not_mem_nil⟩

theorem numbered_start (earlier : Nat → ClockReading) (before : Nat) :
    (start config canceled snapshot store (({} : MsgIDGenerator).after earlier before)).Numbered before := by
  intro hdra
  have hwi := MsgIDGenerator.within_new.after earlier (k := before) (by
    rw [Nat.zero_add]
    exact hdra)
  rw [Nat.zero_add] at hwi
  exact ⟨hwi, .nil, fun _ hin => absurd hin not_mem_nil⟩

end

end BatchingWriter

end Tlrpc
