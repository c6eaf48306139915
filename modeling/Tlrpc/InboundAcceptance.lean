import Tlrpc.ContainerReplay

namespace Tlrpc

open List Message

variable {message : Message} {decode : List UInt8 → Except InboundError (List ContainerItem)}
  {inner : InnerData}

variable {recent : Finset Int} {clock : Nat → Nat → Time}

theorem replayedChild_some {e : ValidateError}
    {index : Nat} {id : Int} (h : replayedChild recent message e = some (index, id)) :
    id ∈ recent ∧ ∃ before child after, message.children = before ++ child :: after ∧
      before.length = index ∧ child.messageID = id := by
  cases e with
  | invalidMessageKind => cases h
  | invalidConfig reason => cases h
  | badMessage bad =>
    unfold replayedChild at h
    dsimp only at h
    split at h
    next hcd =>
      obtain ⟨found, hfd, heq⟩ := Option.map_eq_some_iff.mp h
      cases heq
      obtain ⟨hlt, hid, _⟩ := List.findIdx?_eq_some_iff_getElem.mp hfd
      simp only [decide_eq_true_eq] at hid
      refine ⟨hcd.2.2.2, message.children.take index, message.children[index],
        message.children.drop (index + 1), ?_, ?_, hid⟩
      · rw [cons_getElem_drop_succ, take_append_drop]
      · rw [length_take, min_eq_left hlt.le]
    · cases h

/-- A frame gets through exactly without its recent children, whatever the clock shows. -/
theorem validateRetrying_ok {fuel : Nat} {v v' : Validator} {replayed dropped : Finset Int} (valid : v.Valid)
    (seen : ∀ id ∈ recent, v.state.window.Blocks id)
    (h : validateRetrying recent fuel clock v message replayed = some (.ok (v', dropped))) :
    (∃ now, v.validate now (message.dropRecent recent) = .ok v') ∧
      message.Dropped recent replayed dropped := by
  induction fuel generalizing clock message replayed with
  | zero => cases h
  | succ fuel ih =>
    unfold validateRetrying at h
    cases hv : v.validate (clock 0) message with
    | ok w =>
      simp only [hv] at h
      cases h
      obtain ⟨_, _, _, ha⟩ := Validator.validate_window valid hv
      have fresh : ∀ child ∈ message.children, child.messageID ∉ recent := by
        intro child hchi hr
        have hmem : child.messageID ∈ message.records.map ContainerMessage.messageID :=
          mem_map_of_mem (mem_cons_of_mem _ hchi)
        exact ha.unseen _ hmem (seen _ hr)
      refine ⟨⟨clock 0, ?_⟩, dropped_nothing fresh _⟩
      rw [dropRecent_self fresh]
      exact hv
    | error e =>
      simp only [hv] at h
      cases hr : replayedChild recent message e with
      | none => simp [hr] at h
      | some found =>
        obtain ⟨index, id⟩ := found
        simp only [hr] at h
        obtain ⟨hrec, before, child, after, hspl, rfl, rfl⟩ := replayedChild_some hr
        have her : message.children.eraseIdx before.length = before ++ after := by
          rw [hspl, eraseIdx_append_of_length_le (le_refl _), Nat.sub_self, eraseIdx_cons_zero]
        rw [her] at h
        obtain ⟨⟨now, hok⟩, hids⟩ := ih h
        refine ⟨⟨now, ?_⟩, dropped_split hspl hrec hids⟩
        rw [dropRecent_split hspl hrec]
        exact hok

/-- `out` is what an accepted message makes of the snapshot; it records that message's IDs. -/
def AcceptedFrom (loaded : Snapshot) (out : ValidatedInbound) : Prop :=
  ∃ v v' now message, newProtocolValidator loaded = .ok v ∧ v.validate now message = .ok v' ∧
    out.snapshot = loaded.withProtocol v'.snapshot ∧
    out.recordedIDs = message.records.map ContainerMessage.messageID

section

variable {decoded : List InboundMessage}
  (h : classifyProtocolMessage decode inner = .ok (message, decoded))
include h

theorem classifyProtocolMessage_single (hc : leUint32 inner.data ≠ msgContainerID) :
    message.messageID = inner.msgID ∧ message.children = [] ∧
      decoded.map InboundMessage.messageID = [inner.msgID] := by
  unfold classifyProtocolMessage at h
  rw [if_pos hc] at h
  cases h
  exact ⟨rfl, rfl, rfl⟩

theorem classifyProtocolMessage_ctor (hc : leUint32 inner.data = msgContainerID) :
    message.messageID = inner.msgID ∧ message.kind = .container := by
  unfold classifyProtocolMessage at h
  rw [if_neg (not_not.mpr hc)] at h
  split at h
  · cases h
  split at h
  · cases h
  cases h
  exact ⟨rfl, if_pos hc⟩

end

theorem filter_fresh_map (decoded : List InboundMessage) (dropped : Finset Int) :
    ((decoded.map (fun child => { child with retransmission := decide (child.messageID ∈ dropped) })).filter
      (fun message => !message.retransmission)).map InboundMessage.messageID =
    (decoded.map InboundMessage.messageID).filter (fun id => id ∉ dropped) := by
  induction decoded with
  | nil => rfl
  | cons child rest ih =>
    by_cases hd : child.messageID ∈ dropped
    · simpa [hd] using ih
    · simpa [hd] using ih

theorem SessionValidator.validate_ok {sv sv' : SessionValidator} {snapshot : Snapshot}
    {out : ValidatedInbound} (h : sv.validate decode clock snapshot inner = some (sv', .ok out)) :
    AcceptedFrom snapshot out := by
  unfold SessionValidator.validate at h
  split at h
  · cases h
  next =>
  split at h
  · cases h
  next message decoded hcla =>
  split at h
  · cases h
  next v hv =>
  split at h
  · cases h
  · cases h
  rename_i v' dropped hrun
  cases h
  obtain ⟨valid, _, _, hrec⟩ := newValidator_valid hv
  have seen : ∀ id ∈ snapshot.recentClientMsgIDs.toFinset, v.state.window.Blocks id := by
    intro id hid
    exact hrec id (mem_toFinset.mp hid)
  obtain ⟨⟨now, hok⟩, hids⟩ := validateRetrying_ok valid seen hrun
  refine ⟨v, v', now, _, hv, hok, rfl, ?_⟩
  unfold ValidatedInbound.recordedIDs
  rw [filter_fresh_map]
  by_cases hc : leUint32 inner.data = msgContainerID
  · obtain ⟨hid, hk⟩ := classifyProtocolMessage_ctor hcla hc
    obtain ⟨_, items, hch, hdec⟩ := classifyProtocolMessage_container hcla hk
    rw [if_pos hc]
    simp only [records, dropRecent, map_cons, hid, hch, hdec,
      singleton_append, List.cons.injEq, true_and, map_map, filter_map]
    have hsm : ∀ item ∈ items, decide (item.msgID ∉ dropped) =
        decide (item.msgID ∉ snapshot.recentClientMsgIDs.toFinset) := by
      intro item him
      rw [decide_eq_decide, hids]
      simp only [Finset.notMem_empty, false_or, not_and, not_exists]
      constructor
      · intro hno hr
        exact hno hr item.classify (hch ▸ mem_map_of_mem him) rfl
      · intro hno hr
        exact absurd hr hno
    exact congrArg _ (filter_congr hsm)
  · obtain ⟨hid, hch, hdec⟩ := classifyProtocolMessage_single hcla hc
    rw [if_neg hc]
    have hn : inner.msgID ∉ dropped := by
      rw [hids, hch]
      simp
    simp [records, dropRecent, hid, hch, hdec, hn]

end Tlrpc
