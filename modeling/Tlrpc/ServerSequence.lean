import Tlrpc.SessionSteps

namespace Tlrpc

open List SessionState Option

/-- From `n` to `k`: odd and counted if content-related, the doubled counter otherwise. -/
inductive Numbered : Int → List AssignedMessage → Int → Prop
  | done {n} : Numbered n [] n
  | content {n k m rest} : m.contentRelated = true → m.sequenceNo.toInt = 2 * n + 1 →
      Numbered (n + 1) rest k → Numbered n (m :: rest) k
  | other {n k m rest} : m.contentRelated = false → m.sequenceNo.toInt = 2 * n →
      Numbered n rest k → Numbered n (m :: rest) k

def contentCount (messages : List AssignedMessage) : Nat :=
  (messages.filter AssignedMessage.contentRelated).length

namespace Numbered

variable {n k l : Int} {xs ys : List AssignedMessage}

theorem append (hx : Numbered n xs k) (hy : Numbered k ys l) : Numbered n (xs ++ ys) l := by
  induction hx with
  | done => exact hy
  | content hc hs _ ih => exact Numbered.content hc hs (ih hy)
  | other hc hs _ ih => exact Numbered.other hc hs (ih hy)

variable {m : AssignedMessage}

section

variable (h : Numbered n xs k)
include h

theorem le : n ≤ k := by
  induction h with
  | done => exact le_rfl
  | content _ _ _ ih => omega
  | other _ _ _ ih => exact ih

theorem content_bounds (hm : m ∈ xs)
    (hc : m.contentRelated = true) : m.sequenceNo.toInt % 2 = 1 ∧ 2 * n < m.sequenceNo.toInt := by
  induction h with
  | done => cases hm
  | content _ hs _ ih =>
    rcases mem_cons.mp hm with rfl | hm
    · omega
    · have := ih hm
      omega
  | other ho _ _ ih =>
    rcases mem_cons.mp hm with rfl | hm
    · rw [ho] at hc
      cases hc
    · exact ih hm

theorem content_increasing :
    ((xs.filter AssignedMessage.contentRelated).map (fun m => m.sequenceNo.toInt)).Pairwise (· < ·) := by
  induction h with
  | done => exact List.Pairwise.nil
  | @content n k m rest hc hs hrs ih =>
    rw [filter_cons_of_pos hc, map_cons]
    apply pairwise_cons.mpr
    refine ⟨?_, ih⟩
    intro y hy
    obtain ⟨m', hm', rfl⟩ := mem_map.mp hy
    obtain ⟨hmem, hcon⟩ := mem_filter.mp hm'
    have := (hrs.content_bounds hmem hcon).2
    omega
  | other hc _ _ ih =>
    rw [filter_cons_of_neg (by simp [hc])]
    exact ih

theorem other_value {earlier later : List AssignedMessage}
    (hspl : xs = earlier ++ m :: later) (ho : m.contentRelated = false) :
    m.sequenceNo.toInt = 2 * (n + contentCount earlier) := by
  induction h generalizing earlier with
  | done => simp at hspl
  | @content n k first rest hc hs hrs ih =>
    cases earlier with
    | nil =>
      obtain ⟨rfl, _⟩ := cons.inj hspl
      rw [hc] at ho
      cases ho
    | cons head tail =>
      obtain ⟨rfl, htl⟩ := cons.inj hspl
      have hval := ih htl
      have hcnt : contentCount (first :: tail) = contentCount tail + 1 := by
        simp [contentCount, hc]
      omega
  | @other n k first rest hc hs hrs ih =>
    cases earlier with
    | nil =>
      obtain ⟨rfl, _⟩ := cons.inj hspl
      simp only [contentCount, filter_nil, length_nil]
      omega
    | cons head tail =>
      obtain ⟨rfl, htl⟩ := cons.inj hspl
      have hval := ih htl
      have hcnt : contentCount (first :: tail) = contentCount tail := by
        simp [contentCount, hc]
      omega

end

end Numbered

variable {snapshot next : Snapshot}

theorem nextSequenceNo_value (nonneg : 0 ≤ snapshot.serverSeqNo.toInt)
    (below : snapshot.serverSeqNo.toInt < 2 ^ 30) (contentRelated : Bool) :
    (nextSequenceNo snapshot contentRelated).1.toInt =
      2 * snapshot.serverSeqNo.toInt + (if contentRelated then 1 else 0) := by
  have two : (2 : Int32).toInt = 2 := rfl
  have one : (1 : Int32).toInt = 1 := rfl
  have hdou : (snapshot.serverSeqNo * 2).toInt = 2 * snapshot.serverSeqNo.toInt := by
    rw [toInt_mul_of_fits (by rw [two]; constructor <;> omega), two]
    omega
  cases contentRelated with
  | false =>
    have hnx : (nextSequenceNo snapshot false).1 = snapshot.serverSeqNo * 2 := rfl
    rw [hnx, hdou]
    simp
  | true =>
    have hnx : (nextSequenceNo snapshot true).1 = snapshot.serverSeqNo * 2 + 1 := rfl
    rw [hnx, toInt_add_of_fits (by rw [hdou, one]; constructor <;> omega), hdou, one]
    simp

theorem nextSequenceNo_counter (nonneg : 0 ≤ snapshot.serverSeqNo.toInt)
    (below : snapshot.serverSeqNo.toInt < 2147483647) (contentRelated : Bool) :
    (nextSequenceNo snapshot contentRelated).2.serverSeqNo.toInt =
      snapshot.serverSeqNo.toInt + (if contentRelated then 1 else 0) := by
  have one : (1 : Int32).toInt = 1 := rfl
  cases contentRelated with
  | false => simp [nextSequenceNo]
  | true =>
    have hnx : (nextSequenceNo snapshot true).2.serverSeqNo = snapshot.serverSeqNo + 1 := rfl
    rw [hnx, toInt_add_of_fits (by rw [one]; constructor <;> omega), one]
    simp

theorem assignMessage_numbered {maxBytes : Nat} {source : Int}
    {intent : MessageIntent} {k : Int} {rest : List AssignedMessage}
    (h : assignMessage maxBytes source snapshot intent = some (m, next))
    (nonneg : 0 ≤ snapshot.serverSeqNo.toInt) (below : snapshot.serverSeqNo.toInt < 2 ^ 30)
    (hrs : Numbered next.serverSeqNo.toInt rest k) : Numbered snapshot.serverSeqNo.toInt (m :: rest) k := by
  obtain ⟨encoded, _, heq⟩ := bind_eq_some_iff.mp h
  cases heq
  have hval := nextSequenceNo_value nonneg below encoded.contentRelated
  have hctr := nextSequenceNo_counter nonneg (by omega) encoded.contentRelated
  cases hc : encoded.contentRelated with
  | true =>
    rw [hc] at hval hctr hrs
    refine Numbered.content rfl ?_ ?_
    · simpa using hval
    · simp only [if_true] at hctr
      rw [← hctr]
      exact hrs
  | false =>
    rw [hc] at hval hctr hrs
    refine Numbered.other rfl ?_ ?_
    · simpa using hval
    · simp only [Bool.false_eq_true, if_false, add_zero] at hctr
      rw [← hctr]
      exact hrs

theorem assignMessages_numbered {maxBytes : Nat} {ids : Nat → Int}
    {items : List MessageIntent} {assigned : List AssignedMessage}
    (h : assignMessages maxBytes ids snapshot items = some (assigned, next))
    (nonneg : 0 ≤ snapshot.serverSeqNo.toInt) (room : snapshot.serverSeqNo.toInt + items.length < 2147483648)
    (below : next.serverSeqNo.toInt < 2 ^ 30) :
    Numbered snapshot.serverSeqNo.toInt assigned next.serverSeqNo.toInt := by
  induction items generalizing ids snapshot assigned with
  | nil =>
    cases h
    exact Numbered.done
  | cons intent rest ih =>
    obtain ⟨first, mid, others, hfst, hoth, rfl⟩ := assignMessages_cons h
    simp only [length_cons] at room
    have hmid : mid.serverSeqNo.toInt = snapshot.serverSeqNo.toInt ∨
        mid.serverSeqNo.toInt = snapshot.serverSeqNo.toInt + 1 := by
      obtain ⟨encoded, _, heq⟩ := bind_eq_some_iff.mp hfst
      cases heq
      rw [nextSequenceNo_counter nonneg (by omega)]
      split <;> omega
    have hrs := ih hoth (by omega) (by omega)
    have := hrs.le
    exact assignMessage_numbered hfst nonneg (by omega) hrs

theorem prepare_numbered {env : WriterEnv} {intent : Intent}
    {prepared : PreparedFrame} (h : prepare env snapshot intent = some (prepared, next))
    (nonneg : 0 ≤ snapshot.serverSeqNo.toInt) (below : snapshot.serverSeqNo.toInt < 2 ^ 30)
    (after : next.serverSeqNo.toInt < 2 ^ 30) :
    Numbered snapshot.serverSeqNo.toInt prepared.messages next.serverSeqNo.toInt := by
  obtain ⟨⟨children, outer, last⟩, hfrm, h⟩ := bind_eq_some_iff.mp h
  obtain ⟨frame, _, h⟩ := bind_eq_some_iff.mp h
  cases h
  have hlim : (defaultMaxVectorElements : Int) = 65536 := rfl
  rcases assignFrame_cases hfrm with ⟨m, _, rfl, hm⟩ | ⟨items, _, hlen, hm, _, _, hseq, hother⟩
  · exact assignMessage_numbered hm nonneg below Numbered.done
  have hch := assignMessages_numbered hm nonneg (by omega) after
  have hlow := hch.le
  have hla : (last.serverSeqNo * 2).toInt = 2 * last.serverSeqNo.toInt + 0 :=
    nextSequenceNo_value (le_trans nonneg hlow) after false
  refine hch.append (Numbered.other hother ?_ Numbered.done)
  rw [hseq, hla, add_zero]

namespace SessionState

def writerSeqNo (s : SessionState) : Int32 :=
  match s.writer with
  | .prepared _ next => next.serverSeqNo
  | _ => s.snapshot.serverSeqNo

def CounterBelow (s : SessionState) : Prop :=
  s.snapshot.serverSeqNo.toInt < 2 ^ 30 ∧ s.writerSeqNo.toInt < 2 ^ 30

instance (s : SessionState) : Decidable s.CounterBelow := inferInstanceAs (Decidable (_ ∧ _))

def StaysBelow (s : SessionState) (op : SessionOp) : Prop := ∀ s' ∈ s.step op, s'.CounterBelow

instance (s : SessionState) (op : SessionOp) : Decidable (s.StaysBelow op) :=
  inferInstanceAs (Decidable (∀ s' ∈ s.step op, s'.CounterBelow))

theorem serverSeqNo_frame {user : SnapshotUser} {v w : Snapshot} (hne : user ≠ .outbound)
    (h : SnapshotUpdate user v w) : w.serverSeqNo = v.serverSeqNo := by
  cases h with
  | inbound state => rfl
  | outbound n t => exact absurd rfl hne
  | outcome hm => exact applySessionMutations_view (fun v mutation => by cases mutation <;> rfl) hm

/-- All numbers so far come from one counter, which a running writer continues. -/
structure NumbersInOrder (start : Int) (s : SessionState) : Prop where
  consistent : s.Consistent
  current : SharedCell.Current Snapshot.serverSeqNo .outbound s.cell
  below : s.CounterBelow
  numbered : ∃ n, Numbered start s.assigned n ∧ (s.writer ≠ .stopped → n = s.writerSeqNo.toInt)

theorem NumbersInOrder.step {start : Int} {s s' : SessionState} {op : SessionOp}
    (nonneg : 0 ≤ start) (h : NumbersInOrder start s)
    (fresh : s.SavesCurrent Snapshot.serverSeqNo .outbound op) (below : s.StaysBelow op)
    (hs : s.step op = some s') : NumbersInOrder start s' := by
  obtain ⟨wf, cur, hvw⟩ :=
    step_current (fun _ _ _ => serverSeqNo_frame) h.consistent h.current fresh hs
  have hbl := below s' hs
  obtain ⟨n, hn, hctr⟩ := h.numbered
  refine ⟨wf, cur, hbl, ?_⟩
  by_cases hcom : op = .commitWrite
  · subst hcom
    obtain ⟨loaded, next, hwr, _, rfl⟩ := commitWrite_cases hs
    refine ⟨n, hn, fun _ => ?_⟩
    have hold : s.writerSeqNo = next.serverSeqNo := by simp only [writerSeqNo, hwr]
    rw [hctr (by rw [hwr]; exact fun heq => by cases heq), hold]
    rfl
  by_cases hprepare : ∃ env intent, op = .prepareWrite env intent
  · obtain ⟨env, intent, rfl⟩ := hprepare
    obtain ⟨hie, rfl | ⟨prepared, next, hp, rfl⟩⟩ := prepareWrite_cases hs
    · exact ⟨n, hn, fun hne => absurd rfl hne⟩
    · have hsm : n = s.snapshot.serverSeqNo.toInt := by
        have hold : s.writerSeqNo = s.snapshot.serverSeqNo := by simp only [writerSeqNo, hie]
        rw [hctr (by rw [hie]; exact fun heq => by cases heq), hold]
      have hlow := hn.le
      rw [hsm] at hn hlow
      exact ⟨_, hn.append (prepare_numbered hp (le_trans nonneg hlow) h.below.1 hbl.2), fun _ => rfl⟩
  · obtain ⟨hass, hwr⟩ := (step_records hs).2.2
      (fun env intent heq => hprepare ⟨env, intent, heq⟩)
    have hseq : s'.snapshot.serverSeqNo = s.snapshot.serverSeqNo := by
      rcases hvw with same | ⟨loaded, hsav, _⟩
      · exact same
      · exact absurd ((saving_owner hsav).2.1 rfl) hcom
    refine ⟨n, by rw [hass]; exact hn, ?_⟩
    intro hrun
    rcases hwr hcom with same | stopped
    · have hold : s'.writerSeqNo = s.writerSeqNo := by simp only [writerSeqNo, same, hseq]
      rw [hold]
      exact hctr (by rw [← same]; exact hrun)
    · exact absurd stopped hrun

end SessionState

/-- As long as other saves are made from the durable counter and it stays below `2^30`,
content-related messages get strictly increasing odd numbers and every other number is twice the
counter at that point. -/
theorem server_sequence_numbers {snapshot : Snapshot} {validator : SessionValidator}
    {ops : List SessionOp} {s : SessionState}
    (start : 0 ≤ snapshot.serverSeqNo.toInt ∧ snapshot.serverSeqNo.toInt < 2 ^ 30)
    (fresh : Meets SessionState.step
      (fun s op => s.SavesCurrent Snapshot.serverSeqNo .outbound op ∧ s.StaysBelow op)
      (SessionState.acquired snapshot validator) ops)
    (h : exec SessionState.step (SessionState.acquired snapshot validator) ops = some s) :
    (∀ m ∈ s.assigned, m.contentRelated = true → m.sequenceNo.toInt % 2 = 1) ∧
      ((s.assigned.filter AssignedMessage.contentRelated).map
        (fun m => m.sequenceNo.toInt)).Pairwise (· < ·) ∧
      ∀ earlier m later, s.assigned = earlier ++ m :: later → m.contentRelated = false →
        m.sequenceNo.toInt = 2 * (snapshot.serverSeqNo.toInt + contentCount earlier) := by
  have initial : SessionState.NumbersInOrder snapshot.serverSeqNo.toInt (acquired snapshot validator) :=
    ⟨acquired_consistent snapshot validator, acquired_current _ _ snapshot validator, ⟨start.2, start.2⟩,
      _, Numbered.done, fun _ => rfl⟩
  obtain ⟨n, hn, _⟩ := (exec_invariant (fun _ _ _ hi hc hs =>
    SessionState.NumbersInOrder.step start.1 hi hc.1 hc.2 hs) initial fresh h).numbered
  exact ⟨fun m hm hc => (hn.content_bounds hm hc).1, hn.content_increasing,
    fun earlier m later hspl ho => hn.other_value hspl ho⟩

def numberingRun : List SessionOp :=
  [serverPush, .commitWrite, .readFrame (clientAck 4), .acceptFrame, .finishFrame,
    .prepareWrite ⟨2 ^ 24, fun k => 1000 * 2 ^ 32 + 4 * k, fun _ _ => some [], 1000 * second⟩
      (.batch [.acknowledge [1], .push [1, 2, 3, 4]]), .commitWrite, serverPush]

theorem server_sequence_numbers_batch : ∃ s, exec SessionState.step openedSession numberingRun = some s ∧
      s.assigned.map AssignedMessage.sequenceNo = [1, 2, 3, 4, 5] ∧
      ((s.assigned.filter AssignedMessage.contentRelated).map
        (fun m => m.sequenceNo.toInt)).Pairwise (· < ·) := by
  have fresh : Meets step
      (fun s op => s.SavesCurrent Snapshot.serverSeqNo .outbound op ∧ s.StaysBelow op)
      openedSession numberingRun := by decide
  have run : (exec step openedSession numberingRun).map
      (fun s => s.assigned.map AssignedMessage.sequenceNo) = some [1, 2, 3, 4, 5] := rfl
  obtain ⟨s, hs, hass⟩ := map_eq_some_iff.mp run
  exact ⟨s, hs, hass, (server_sequence_numbers (by decide) fresh hs).2.1⟩

/-- The reader's save sets the counter back, and the next push repeats the number of the last one. -/
theorem stale_accept_repeats_sequence_number : ∃ s, exec SessionState.step openedSession
        [.readFrame (clientAck 4), serverPush, .commitWrite, .acceptFrame, serverPush] = some s ∧
      s.CounterBelow ∧ s.assigned.map AssignedMessage.contentRelated = [true, true] ∧
      s.assigned.map AssignedMessage.sequenceNo = [1, 1] :=
  ⟨_, rfl, by decide, rfl, rfl⟩

end Tlrpc
