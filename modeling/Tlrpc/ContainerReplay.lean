import Tlrpc.Inbound
import Tlrpc.ReplaySafety

namespace Tlrpc

open List Validator Message ContainerItem

def wellFormedID (messageID : Int) : Bool := messageID % 4 = 0 && messageID % 2 ^ 32 ≠ 0

def inTimeWindow (now : Time) (messageID : Int) : Bool :=
  now - clientMessagePastWindow ≤ messageTime messageID &&
    messageTime messageID ≤ now + clientMessageFutureWindow

def Droppable (now : Time) (child : ContainerMessage) : Prop :=
  child.kind ≠ .container ∧ validKind child.kind = true ∧ wellFormedID child.messageID = true ∧
    inTimeWindow now child.messageID = true

variable {e : ValidateError} {children : List ContainerMessage} {now : Time} {message : Message}
  {st : ValidatorState} {items : List ContainerItem}

section Rejections

variable {idLimit seqLimit : Nat} {now : Time} {st : ValidatorState} {metadata : MessageMetadata}

theorem validateMessageID_blocked (now : Time) (metadata : MessageMetadata)
    (valid : IDsValid idLimit st) (blocked : st.window.Blocks metadata.messageID) :
    ∃ code cause, validateMessageID now st metadata =
        .error (badMessage metadata code st.serverSalt cause) ∧ (cause = .replayMessageID ↔
        wellFormedID metadata.messageID = true ∧ inTimeWindow now metadata.messageID = true) := by
  unfold validateMessageID wellFormedID inTimeWindow
  simp only [Bool.and_eq_true, decide_eq_true_eq]
  rw [valid.blocks_iff] at blocked
  split
  next hfmt =>
    refine ⟨_, _, rfl, ?_⟩
    simp only [reduceCtorEq, false_iff]
    rintro ⟨⟨h4, h32⟩, _⟩
    exact hfmt.elim (fun h => h h4) h32
  next hfmt =>
  split
  next hlow =>
    refine ⟨_, _, rfl, ?_⟩
    simp only [reduceCtorEq, false_iff]
    rintro ⟨_, hle, _⟩
    exact absurd hle (not_le.mpr hlow)
  next hlow =>
  split
  next hhg =>
    refine ⟨_, _, rfl, ?_⟩
    simp only [reduceCtorEq, false_iff]
    rintro ⟨_, _, hle⟩
    exact absurd hle (not_le.mpr hhg)
  next hhg =>
    rw [if_pos (blocked.imp_right Or.inr)]
    push Not at hfmt
    exact ⟨_, _, rfl, iff_of_true rfl ⟨hfmt, not_lt.mp hlow, not_lt.mp hhg⟩⟩

def NamesRecord (metadata : MessageMetadata) (check : Except ValidateError Unit) : Prop :=
  ∀ e, check = .error e → ∃ bad, e = .badMessage bad ∧ bad.messageID = metadata.messageID

theorem namesRecord_ok : NamesRecord metadata (.ok ()) := by
  intro e h
  cases h

theorem namesRecord_badMessage {code : Int32} {salt : Int}
    {cause : BadMessageCause} : NamesRecord metadata (.error (badMessage metadata code salt cause)) := by
  intro e h
  cases h
  exact ⟨_, rfl, rfl⟩

theorem namesRecord_ite {c : Prop} [Decidable c]
    {a b : Except ValidateError Unit} (ha : NamesRecord metadata a) (hb : NamesRecord metadata b) :
    NamesRecord metadata (if c then a else b) := by
  split
  · exact ha
  · exact hb

theorem validateMessageID_names (st : ValidatorState) (metadata : MessageMetadata) :
    NamesRecord metadata (validateMessageID now st metadata) := by
  repeat' apply namesRecord_ite
  all_goals first | exact namesRecord_ok | exact namesRecord_badMessage

theorem validateSequenceNo_names (limit : Nat) (st : ValidatorState) (metadata : MessageMetadata)
    (kind : MessageKind) : NamesRecord metadata (validateSequenceNo limit st metadata kind) := by
  rw [validateSequenceNo_eq]
  -- the branches of `sequenceNoVerdict` are split with the others
  repeat' apply namesRecord_ite
  all_goals first | exact namesRecord_ok | exact namesRecord_badMessage

theorem validateOne_error {kind : MessageKind}
    (h : validateOne idLimit seqLimit now st metadata kind = .error e) :
    e = .invalidMessageKind ∨ ∃ bad, e = .badMessage bad ∧ bad.messageID = metadata.messageID := by
  cases hk : validKind kind with
  | false =>
    rw [validateOne_invalidKind hk] at h
    cases h
    exact Or.inl rfl
  | true =>
    rw [validateOne_validKind hk] at h
    cases hm : validateMessageID now st metadata with
    | error e' =>
      simp only [hm] at h
      cases h
      exact Or.inr (validateMessageID_names st metadata _ hm)
    | ok u =>
      simp only [hm] at h
      cases hs : validateSequenceNo seqLimit st metadata kind with
      | error e' =>
        simp only [hs] at h
        cases h
        exact Or.inr (validateSequenceNo_names _ st metadata kind _ hs)
      | ok u => simp [hs] at h

theorem validateChildren_error {clock : Nat → Time}
    (h : validateChildren idLimit seqLimit clock st children = .error e) : e = .invalidMessageKind ∨
      ∃ bad, e = .badMessage bad ∧ ∃ child ∈ children, child.messageID = bad.messageID := by
  induction children generalizing clock st with
  | nil => cases h
  | cons child rest ih =>
    rw [validateChildren_cons] at h
    split at h
    · cases h
      exact Or.inl rfl
    cases hv : validateOne idLimit seqLimit (clock 0) st ⟨child.messageID, child.sequenceNo⟩ child.kind with
    | error e' =>
      simp only [hv] at h
      cases h
      rcases validateOne_error hv with kind | ⟨bad, he, hid⟩
      · exact Or.inl kind
      · exact Or.inr ⟨bad, he, child, mem_cons_self, hid.symm⟩
    | ok mid =>
      simp only [hv] at h
      rcases ih h with kind | ⟨bad, he, c, hc, hid⟩
      · exact Or.inl kind
      · exact Or.inr ⟨bad, he, c, mem_cons_of_mem _ hc, hid⟩

theorem validateChildren_append (st : ValidatorState) (xs ys : List ContainerMessage) :
    validateChildren idLimit seqLimit (fun _ => now) st (xs ++ ys) =
      (validateChildren idLimit seqLimit (fun _ => now) st xs).bind
        (fun mid => validateChildren idLimit seqLimit (fun _ => now) mid ys) := by
  induction xs generalizing st with
  | nil => rfl
  | cons child rest ih =>
    rw [cons_append, validateChildren_cons, validateChildren_cons]
    split
    · rfl
    cases validateOne idLimit seqLimit now st ⟨child.messageID, child.sequenceNo⟩ child.kind with
    | error e => rfl
    | ok mid => exact ih mid

theorem validateChildren_blocked {child : ContainerMessage} (seqLimit : Nat)
    (now : Time) (rest : List ContainerMessage) (valid : IDsValid idLimit st)
    (blocked : st.window.Blocks child.messageID) :
    ∃ e, validateChildren idLimit seqLimit (fun _ => now) st (child :: rest) = .error e ∧
      (Droppable now child → ∃ bad, e = .badMessage bad ∧ bad.messageID = child.messageID ∧
        bad.cause = .replayMessageID) ∧
      (¬ Droppable now child → ∀ bad, e = .badMessage bad → bad.cause ≠ .replayMessageID) := by
  rw [validateChildren_cons]
  by_cases hk : child.kind = .container ∨ (!validKind child.kind) = true
  · rw [if_pos hk]
    refine ⟨_, rfl, ?_, ?_⟩
    · rintro ⟨hc, hv, _⟩
      simp [hc, hv] at hk
    · intro _ bad he
      cases he
  · rw [if_neg hk]
    simp only [not_or, Bool.not_eq_true', Bool.not_eq_false] at hk
    obtain ⟨code, cause, hm, hca⟩ := validateMessageID_blocked now
      ⟨child.messageID, child.sequenceNo⟩ valid blocked
    rw [validateOne_validKind hk.2, hm]
    refine ⟨_, rfl, ?_, ?_⟩
    · rintro ⟨_, _, hfmt, htm⟩
      exact ⟨_, rfl, rfl, hca.mpr ⟨hfmt, htm⟩⟩
    · intro hdr bad he hrep
      cases he
      obtain ⟨hfmt, htm⟩ := hca.mp hrep
      exact hdr ⟨hk.1, hk.2, hfmt, htm⟩

end Rejections

/-- `validateEnvelope` of a container up to its children. -/
def Validator.openContainer (v : Validator) (now : Time) (message : Message) :
    Except ValidateError ValidatorState :=
  if message.sessionID = 0 ∨
      v.state.clone.sessionID ≠ 0 ∧ message.sessionID ≠ v.state.clone.sessionID then
    .error (badMessage ⟨message.messageID, message.sequenceNo⟩ codeSessionIDMismatch
      v.state.clone.serverSalt .sessionIDMismatch)
  else if message.serverSalt ≠ v.state.clone.serverSalt then
    .error (badMessage ⟨message.messageID, message.sequenceNo⟩ codeBadServerSalt
      v.state.clone.serverSalt .badServerSalt)
  else validateOne v.messageIDLimit v.sequenceLimit now v.state.clone
    ⟨message.messageID, message.sequenceNo⟩ message.kind

variable {v : Validator}

section

variable {now : Time} {message : Message} (hk : message.kind = .container)
include hk

theorem Validator.validate_container :
    v.validate (fun _ => now) message = (v.openContainer now message).bind fun st =>
      (validateChildren v.messageIDLimit v.sequenceLimit (fun _ => now) st message.children).bind
        fun st => .ok { v with state := bindSession st message.sessionID } := by
  rw [validate_eq, validateEnvelope_eq]
  unfold openContainer
  by_cases hses : message.sessionID = 0 ∨
      v.state.clone.sessionID ≠ 0 ∧ message.sessionID ≠ v.state.clone.sessionID
  · rw [if_pos hses, if_pos hses]
    rfl
  by_cases hsl : message.serverSalt ≠ v.state.clone.serverSalt
  · rw [if_neg hses, if_neg hses, if_pos hsl, if_pos hsl]
    rfl
  rw [if_neg hses, if_neg hses, if_neg hsl, if_neg hsl, if_neg (by simp [hk])]
  cases validateOne v.messageIDLimit v.sequenceLimit now v.state.clone
      ⟨message.messageID, message.sequenceNo⟩ message.kind with
  | error e => rfl
  | ok st =>
    simp only [if_pos hk, Except.bind]
    cases validateChildren v.messageIDLimit v.sequenceLimit (fun _ => now) st message.children <;> rfl

theorem Validator.validate_withChildren (children : List ContainerMessage) :
    v.validate (fun _ => now) { message with children := children } =
      (v.openContainer now message).bind fun st =>
        (validateChildren v.messageIDLimit v.sequenceLimit (fun _ => now) st children).bind
          fun st => .ok { v with state := bindSession st message.sessionID } :=
  @Validator.validate_container v now { message with children := children } hk

end

theorem Validator.openContainer_error (h : v.openContainer now message = .error e) :
    e = .invalidMessageKind ∨ ∃ bad, e = .badMessage bad ∧ bad.messageID = message.messageID := by
  unfold openContainer at h
  split at h
  · cases h
    exact Or.inr ⟨_, rfl, rfl⟩
  next =>
  split at h
  · cases h
    exact Or.inr ⟨_, rfl, rfl⟩
  · exact validateOne_error h

theorem Validator.openContainer_ok (valid : v.Valid) (h : v.openContainer now message = .ok st) :
    ¬ v.state.window.Blocks message.messageID ∧ IDsValid v.messageIDLimit st ∧
      ∀ id, v.state.window.Blocks id → st.window.Blocks id := by
  unfold openContainer at h
  split_ifs at h
  obtain ⟨fresh, hw, hids⟩ := validateOne_window valid.idLimit.1 valid.ids.clone h
  refine ⟨fresh, hids, ?_⟩
  intro id hid
  rw [hw]
  exact ReplayWindow.remember_keeps_blocked hid

theorem replayedChild_eq_none {recent : Finset Int}
    (h : ∀ bad, e = .badMessage bad → bad.messageID = message.messageID ∨
      bad.messageID ∉ recent ∨ bad.cause ≠ .replayMessageID) : replayedChild recent message e = none := by
  cases e with
  | badMessage bad =>
    apply if_neg
    rintro ⟨_, hca, hid, hrec⟩
    rcases h bad rfl with same | fresh | other
    · exact hid same
    · exact fresh hrec
    · exact other hca
  | invalidMessageKind => rfl
  | invalidConfig reason => rfl

def Message.dropRecent (message : Message) (recent : Finset Int) : Message :=
  { message with children := message.children.filter (fun child => child.messageID ∉ recent) }

namespace Message

variable {recent : Finset Int} {message : Message} {before after : List ContainerMessage}
  {child : ContainerMessage}

theorem dropRecent_self (fresh : ∀ child ∈ message.children, child.messageID ∉ recent) :
    message.dropRecent recent = message := by
  unfold dropRecent
  rw [filter_eq_self.mpr (fun child hchi => by simpa using fresh child hchi)]

section

variable (hspl : message.children = before ++ child :: after) (hrec : child.messageID ∈ recent)
include hspl hrec

theorem dropRecent_split :
    message.dropRecent recent = dropRecent { message with children := before ++ after } recent := by
  simp [dropRecent, hspl, hrec]

theorem dropRecent_after (fresh : ∀ c ∈ before, c.messageID ∉ recent) : message.dropRecent recent =
      { message with children := before ++ after.filter (fun c => c.messageID ∉ recent) } := by
  rw [dropRecent_split hspl hrec]
  unfold dropRecent
  rw [filter_append, filter_eq_self.mpr (fun c hc => by simpa using fresh c hc)]

end

def Dropped (message : Message) (recent replayed dropped : Finset Int) : Prop :=
  ∀ id, id ∈ dropped ↔ id ∈ replayed ∨
    id ∈ recent ∧ ∃ child ∈ message.children, child.messageID = id

theorem dropped_nothing (fresh : ∀ child ∈ message.children, child.messageID ∉ recent)
    (replayed : Finset Int) : message.Dropped recent replayed replayed := by
  intro id
  constructor
  · exact Or.inl
  · rintro (old | ⟨hr, child, hc, rfl⟩)
    · exact old
    · exact absurd hr (fresh child hc)

theorem dropped_split {replayed dropped : Finset Int}
    (hspl : message.children = before ++ child :: after) (hrec : child.messageID ∈ recent)
    (h : Dropped { message with children := before ++ after } recent
      (insert child.messageID replayed) dropped) :
    message.Dropped recent replayed dropped := by
  intro id
  rw [h id, hspl]
  simp only [Finset.mem_insert, mem_append, mem_cons]
  constructor
  · rintro ((rfl | old) | ⟨hr, c, hc, rfl⟩)
    · exact Or.inr ⟨hrec, child, Or.inr (Or.inl rfl), rfl⟩
    · exact Or.inl old
    · exact Or.inr ⟨hr, c, hc.imp_right Or.inr, rfl⟩
  · rintro (old | ⟨hr, c, hc | rfl | hc, rfl⟩)
    · exact Or.inl (Or.inr old)
    · exact Or.inr ⟨hr, c, Or.inl hc, rfl⟩
    · exact Or.inl (Or.inl rfl)
    · exact Or.inr ⟨hr, c, Or.inr hc, rfl⟩

end Message

section Retry

variable {v : Validator} {recent : Finset Int} {now : Time} {message : Message}

theorem openContainer_stops (recent : Finset Int)
    (h : v.openContainer now message = .error e) : replayedChild recent message e = none := by
  apply replayedChild_eq_none
  rintro bad rfl
  rcases openContainer_error h with hkd | ⟨bad', he, hid⟩
  · cases hkd
  · cases he
    exact Or.inl hid

theorem freshChildren_stop (message : Message) (fresh : ∀ c ∈ children, c.messageID ∉ recent)
    (h : validateChildren v.messageIDLimit v.sequenceLimit (fun _ => now) st children = .error e) :
    replayedChild recent message e = none := by
  apply replayedChild_eq_none
  rintro bad rfl
  rcases validateChildren_error h with hkd | ⟨bad', he, c, hc, hid⟩
  · cases hkd
  · cases he
    exact Or.inr (Or.inl (hid ▸ fresh c hc))

theorem validateRetrying_fresh {fuel : Nat} (hk : message.kind = .container)
    (fresh : ∀ child ∈ message.children, child.messageID ∉ recent) (replayed : Finset Int) :
    validateRetrying recent (fuel + 1) (fun _ _ => now) v message replayed =
      some ((v.validate (fun _ => now) message).map (fun v' => (v', replayed))) := by
  unfold validateRetrying
  cases hv : v.validate (fun _ => now) message with
  | ok v' => rfl
  | error e =>
    have hno : replayedChild recent message e = none := by
      rw [validate_container hk] at hv
      cases ho : v.openContainer now message with
      | error e' =>
        rw [ho] at hv
        cases hv
        exact openContainer_stops recent ho
      | ok st =>
        rw [ho] at hv
        cases hc : validateChildren v.messageIDLimit v.sequenceLimit (fun _ => now) st
            message.children with
        | ok st' => simp [Except.bind, hc] at hv
        | error e' =>
          simp only [Except.bind, hc] at hv
          cases hv
          exact freshChildren_stop message fresh hc
    simp only [hno]
    rfl

theorem replayedChild_first {before after : List ContainerMessage} {child : ContainerMessage}
    {bad : BadMessageError} (hk : message.kind = .container)
    (hspl : message.children = before ++ child :: after)
    (fresh : ∀ c ∈ before, c.messageID ∉ recent) (hchi : child.messageID ∈ recent)
    (hid : bad.messageID = child.messageID) (hca : bad.cause = .replayMessageID)
    (hown : child.messageID ≠ message.messageID) :
    replayedChild recent message (.badMessage bad) = some (before.length, child.messageID) := by
  have hno : before.findIdx? (fun c => c.messageID = bad.messageID) = none := by
    apply findIdx?_eq_none_iff.mpr
    intro c hc
    simp only [decide_eq_false_iff_not]
    intro hsm
    exact fresh c hc (hsm ▸ hid ▸ hchi)
  have hindex : message.children.findIdx? (fun c => c.messageID = bad.messageID) = some before.length := by
    rw [hspl, findIdx?_append, hno]
    simp [findIdx?_cons, hid]
  refine (if_pos ⟨hk, hca, hid ▸ hown, hid ▸ hchi⟩).trans ?_
  rw [hindex, hid]
  rfl

theorem validateRetrying_recent {fuel : Nat} {before after : List ContainerMessage}
    {child : ContainerMessage} (valid : v.Valid) (seen : ∀ id ∈ recent, v.state.window.Blocks id)
    (hk : message.kind = .container) (hspl : message.children = before ++ child :: after)
    (fresh : ∀ c ∈ before, c.messageID ∉ recent) (hchi : child.messageID ∈ recent)
    (replayed : Finset Int) : (Droppable now child ∧
      validateRetrying recent (fuel + 1) (fun _ _ => now) v message replayed =
        validateRetrying recent fuel (fun _ _ => now) v
          { message with children := before ++ after } (insert child.messageID replayed)) ∨
    ∃ e, validateRetrying recent (fuel + 1) (fun _ _ => now) v message replayed = some (.error e) ∧
      (¬ Droppable now child ∨ ∀ rest, ∃ e',
        v.validate (fun _ => now) { message with children := before ++ rest } = .error e') := by
  have hps := @Validator.validate_container v now message hk
  have stop : ∀ e, v.validate (fun _ => now) message = .error e → replayedChild recent message e = none →
      validateRetrying recent (fuel + 1) (fun _ _ => now) v message replayed = some (.error e) := by
    intro e hv hno
    unfold validateRetrying
    simp only [hv, hno]
  cases ho : v.openContainer now message with
  | error e =>
    right
    rw [ho] at hps
    refine ⟨e, stop e hps (openContainer_stops recent ho), Or.inr fun rest => ⟨e, ?_⟩⟩
    rw [validate_withChildren hk, ho]
    rfl
  | ok st =>
    obtain ⟨hown, hids, hkp⟩ := openContainer_ok valid ho
    cases hb : validateChildren v.messageIDLimit v.sequenceLimit (fun _ => now) st before with
    | error e =>
      right
      rw [ho, hspl] at hps
      simp only [Except.bind, validateChildren_append, hb] at hps
      refine ⟨e, stop e hps (freshChildren_stop message fresh hb), Or.inr fun rest => ⟨e, ?_⟩⟩
      rw [validate_withChildren hk, ho]
      simp only [Except.bind, validateChildren_append, hb]
    | ok mid =>
      obtain ⟨hw, hmid⟩ := (validateChildren_accepts hb).window valid.idLimit.1 hids
      obtain ⟨e, he, hdr, hkee⟩ := validateChildren_blocked v.sequenceLimit now after hmid
        (hw.keeps_blocked (hkp _ (seen _ hchi)))
      rw [ho, hspl] at hps
      simp only [Except.bind, validateChildren_append, hb, he] at hps
      by_cases hd : Droppable now child
      · left
        obtain ⟨bad, rfl, hid, hca⟩ := hdr hd
        have hfd := replayedChild_first hk hspl fresh hchi hid hca
          (fun hsm => hown (hsm ▸ seen _ hchi))
        refine ⟨hd, ?_⟩
        rw [validateRetrying]
        simp only [hps, hfd, hspl, eraseIdx_append_of_length_le (le_refl _), Nat.sub_self,
          eraseIdx_cons_zero]
      · right
        exact ⟨e, stop e hps (replayedChild_eq_none fun bad hbad =>
          Or.inr (Or.inr (hkee hd bad hbad))), Or.inl hd⟩

/-- The retry loop validates the container without its recent children, if all can be dropped. -/
theorem validateRetrying_spec {fuel : Nat} (valid : v.Valid)
    (seen : ∀ id ∈ recent, v.state.window.Blocks id) (hk : message.kind = .container)
    (hfl : message.children.length < fuel) (replayed : Finset Int) :
    (∃ v' dropped, validateRetrying recent fuel (fun _ _ => now) v message replayed =
        some (.ok (v', dropped)) ∧
      (∀ child ∈ message.children, child.messageID ∈ recent → Droppable now child) ∧
      v.validate (fun _ => now) (message.dropRecent recent) = .ok v' ∧
      message.Dropped recent replayed dropped) ∨
    ∃ e, validateRetrying recent fuel (fun _ _ => now) v message replayed = some (.error e) ∧
      ¬ ((∀ child ∈ message.children, child.messageID ∈ recent → Droppable now child) ∧
        ∃ v', v.validate (fun _ => now) (message.dropRecent recent) = .ok v') := by
  induction fuel generalizing message replayed with
  | zero => omega
  | succ fuel ih =>
    cases hfd : message.children.find? (fun child => child.messageID ∈ recent) with
    | none =>
      have fresh : ∀ child ∈ message.children, child.messageID ∉ recent := by
        intro child hchi
        simpa using find?_eq_none.mp hfd child hchi
      rw [dropRecent_self fresh, validateRetrying_fresh hk fresh]
      cases hv : v.validate (fun _ => now) message with
      | ok v' =>
        left
        exact ⟨v', replayed, rfl, fun child hc hr => absurd hr (fresh child hc), rfl,
          dropped_nothing fresh replayed⟩
      | error e =>
        right
        refine ⟨e, rfl, ?_⟩
        rintro ⟨_, v', hok⟩
        cases hok
    | some child =>
      obtain ⟨hrec, before, after, hspl, hbef⟩ := find?_eq_some_iff_append.mp hfd
      simp only [decide_eq_true_eq] at hrec
      have fresh : ∀ c ∈ before, c.messageID ∉ recent := by
        intro c hc
        simpa using hbef c hc
      rcases @validateRetrying_recent v recent now message fuel before after child valid seen hk hspl
        fresh hrec replayed with ⟨hd, hlp⟩ | ⟨e, hlp, hfau⟩
      · rw [hlp, dropRecent_split hspl hrec]
        have hlen : ({ message with children := before ++ after } : Message).children.length < fuel := by
          rw [hspl] at hfl
          simp only [length_append, length_cons] at hfl ⊢
          omega
        have hdr : (∀ c ∈ message.children, c.messageID ∈ recent → Droppable now c) ↔
            ∀ c ∈ before ++ after, c.messageID ∈ recent → Droppable now c := by
          rw [hspl]
          simp only [mem_append, mem_cons]
          constructor
          · intro h c hc
            exact h c (hc.imp_right Or.inr)
          · rintro h c (hc | rfl | hc) hr
            · exact h c (Or.inl hc) hr
            · exact hd
            · exact h c (Or.inr hc) hr
        rcases @ih { message with children := before ++ after } hk hlen
          (insert child.messageID replayed) with ⟨v', dropped, hrun, hall, hok, hids⟩ | ⟨e, hrun, hno⟩
        · left
          exact ⟨v', dropped, hrun, hdr.mpr hall, hok, dropped_split hspl hrec hids⟩
        right
        refine ⟨e, hrun, ?_⟩
        rw [hdr]
        exact hno
      · right
        refine ⟨e, hlp, ?_⟩
        rintro ⟨hall, v', hok⟩
        rcases hfau with hd | hrs
        · exact hd (hall child (by rw [hspl]; simp) hrec)
        obtain ⟨e', he'⟩ := hrs (after.filter (fun c => c.messageID ∉ recent))
        rw [dropRecent_after hspl hrec fresh, he'] at hok
        cases hok

end Retry

theorem classifyMessageKind_valid (constructorID : UInt32) (sequenceNo : Int32) :
    validKind (classifyMessageKind constructorID sequenceNo) = true := by
  unfold classifyMessageKind
  split_ifs <;> rfl

theorem classifyProtocolMessage_container
    {decode : List UInt8 → Except InboundError (List ContainerItem)} {inner : InnerData}
    {decoded : List InboundMessage} (h : classifyProtocolMessage decode inner = .ok (message, decoded))
    (hk : message.kind = .container) : leUint32 inner.data = msgContainerID ∧ ∃ items : List ContainerItem,
      message.children = items.map ContainerItem.classify ∧ decoded = items.map ContainerItem.inbound := by
  unfold classifyProtocolMessage at h
  dsimp only at h
  split at h
  next hne =>
    cases h
    simp only [classifyMessageKind, if_neg hne] at hk
    split_ifs at hk
  next heq =>
    refine ⟨not_not.mp heq, ?_⟩
    split at h
    · cases h
    rename_i items _
    split at h
    · cases h
    cases h
    exact ⟨items, rfl, rfl⟩

theorem leUint32_short {data : List UInt8} (h : data.length < 4) : leUint32 data ≠ msgContainerID := by
  intro heq
  have hval : (leUint32 data).toNat = msgContainerID.toNat := by rw [heq]
  have hct : msgContainerID.toNat = 0x73f1f8dc := rfl
  have hlt := leNat_lt (data.take 4)
  have hlen : (data.take 4).length ≤ 3 := by
    rw [length_take]
    omega
  have hpow : 256 ^ (data.take 4).length ≤ 256 ^ 3 := Nat.pow_le_pow_right (by decide) hlen
  rw [leUint32_toNat, hct] at hval
  omega

theorem droppable_iff {child : ContainerMessage} (hch : message.children = items.map ContainerItem.classify)
    (hchi : child ∈ message.children) :
    Droppable now child ↔ child.kind ≠ .container ∧ wellFormedID child.messageID = true ∧
      inTimeWindow now child.messageID = true := by
  rw [hch] at hchi
  obtain ⟨item, _, rfl⟩ := mem_map.mp hchi
  have hval := classifyMessageKind_valid (leUint32 item.bodyRaw) item.seqNo
  exact ⟨fun hd => ⟨hd.1, hd.2.2⟩, fun hd => ⟨hd.1, hval, hd.2⟩⟩

theorem mem_dropped_iff {recent dropped : Finset Int}
    {child : InboundMessage} (hdro : message.Dropped recent ∅ dropped)
    (hch : message.children = items.map ContainerItem.classify)
    (hchi : child ∈ items.map ContainerItem.inbound) :
    child.messageID ∈ dropped ↔ child.messageID ∈ recent := by
  rw [hdro]
  constructor
  · rintro (hno | ⟨hr, _⟩)
    · simp at hno
    · exact hr
  · intro hr
    obtain ⟨item, him, rfl⟩ := mem_map.mp hchi
    exact Or.inr ⟨hr, item.classify, hch ▸ mem_map_of_mem him, rfl⟩

/-- With a clock that stands still, the retry loop is validation of the container without its
remembered children, once none of those is a container and all pass the format and time checks. -/
theorem container_retransmission_is_filtering
    {decode : List UInt8 → Except InboundError (List ContainerItem)} {inner : InnerData}
    {message : Message} {decoded : List InboundMessage}
    (h : classifyProtocolMessage decode inner = .ok (message, decoded))
    (hk : message.kind = .container) (sv : SessionValidator) (snapshot : Snapshot) (now : Time) :
    ∃ sv' result, sv.validate decode (fun _ _ => now) snapshot inner = some (sv', result) ∧
      ((∃ out, result = .ok out) ↔
        (∀ child ∈ message.children, child.messageID ∈ snapshot.recentClientMsgIDs →
          child.kind ≠ .container ∧ wellFormedID child.messageID = true ∧
            inTimeWindow now child.messageID = true) ∧
        ∃ v v', newProtocolValidator snapshot = .ok v ∧ v.validate (fun _ => now)
          (message.dropRecent snapshot.recentClientMsgIDs.toFinset) = .ok v') ∧
      (∀ out, result = .ok out → ∃ v v', newProtocolValidator snapshot = .ok v ∧
        v.validate (fun _ => now) (message.dropRecent snapshot.recentClientMsgIDs.toFinset) = .ok v' ∧
        out.snapshot = snapshot.withProtocol v'.snapshot ∧
        out.messages = decoded.map (fun child => { child with
          retransmission := decide (child.messageID ∈ snapshot.recentClientMsgIDs) })) ∧
      (∀ e, result = .error e → sv' = sv ∨ newProtocolValidator snapshot = .ok sv'.validator) := by
  obtain ⟨hct, items, hch, hdec⟩ := classifyProtocolMessage_container h hk
  have hlen : ¬ inner.data.length < 4 := fun hlt => leUint32_short hlt hct
  have hdr : (∀ child ∈ message.children, child.messageID ∈ snapshot.recentClientMsgIDs.toFinset →
      Droppable now child) ↔
      ∀ child ∈ message.children, child.messageID ∈ snapshot.recentClientMsgIDs →
        child.kind ≠ .container ∧ wellFormedID child.messageID = true ∧
          inTimeWindow now child.messageID = true := by
    simp only [mem_toFinset]
    exact forall₃_congr fun child hchi _ => droppable_iff hch hchi
  unfold SessionValidator.validate
  rw [if_neg hlen, h]
  cases hv : newProtocolValidator snapshot with
  | error e =>
    refine ⟨sv, _, rfl, ?_, ?_, fun _ _ => Or.inl rfl⟩
    · simp
    · intro out hout
      cases hout
  | ok v =>
    obtain ⟨valid, _, _, hrec⟩ := newValidator_valid hv
    have seen : ∀ id ∈ snapshot.recentClientMsgIDs.toFinset, v.state.window.Blocks id := by
      intro id hid
      exact hrec id (mem_toFinset.mp hid)
    rcases @validateRetrying_spec v _ now message _ valid seen hk (Nat.lt_succ_self _) ∅ with
      ⟨v', dropped, hrun, hall, hok, hids⟩ | ⟨e, hrun, hno⟩
    · simp only [hrun]
      refine ⟨_, _, rfl, ?_, ?_, ?_⟩
      · exact iff_of_true ⟨_, rfl⟩ ⟨hdr.mp hall, v, v', rfl, hok⟩
      · rintro out hout
        cases hout
        refine ⟨v, v', rfl, hok, rfl, ?_⟩
        apply map_congr_left
        intro child hchi
        have hmr : child.messageID ∈ dropped ↔ child.messageID ∈ snapshot.recentClientMsgIDs := by
          rw [mem_dropped_iff hids hch (hdec ▸ hchi), mem_toFinset]
        simp only [hmr]
      · intro e he
        cases he
    · simp only [hrun]
      refine ⟨_, _, rfl, ?_, ?_, fun _ _ => Or.inr rfl⟩
      · refine iff_of_false ?_ ?_
        · rintro ⟨out, hout⟩
          cases hout
        · rintro ⟨hall, w, w', hw, hok⟩
          cases hw
          exact hno ⟨hdr.mpr hall, w', hok⟩
      · intro out hout
        cases hout

def rememberingSnapshot : Snapshot :=
  { Snapshot.initial ⟨1, 8⟩ 7 0 with
    seqNo := 2
    lastClientMsgID := 1000 * 2 ^ 32 + 4
    recentClientMsgIDs := [1000 * 2 ^ 32 + 4]
    recentClientSeqNos := [1] }

def containerFrame (items : List ContainerItem) : InnerData :=
  ⟨7, 8, 1000 * 2 ^ 32 + 16, 4, serializeContainer items⟩

def mixedItems : List ContainerItem :=
  [⟨1000 * 2 ^ 32 + 4, 1, [1, 2, 3, 4]⟩, ⟨1000 * 2 ^ 32 + 8, 3, [1, 2, 3, 4]⟩]

/-- A retransmitted request next to a fresh one. -/
theorem container_retransmission_mixed :
    ∃ sv sv' out, SessionValidator.validate (fun _ => .ok mixedItems) (fun _ _ => 1000 * second)
        sv rememberingSnapshot (containerFrame mixedItems) = some (sv', .ok out) ∧
      out.messages.map InboundMessage.retransmission = [true, false] := by
  have classified : classifyProtocolMessage (fun _ => .ok mixedItems) (containerFrame mixedItems) =
      .ok (⟨7, 8, 1000 * 2 ^ 32 + 16, 4, .container, mixedItems.map classify⟩,
        mixedItems.map inbound) := rfl
  obtain ⟨sv', result, hrun, hiff, hout, _⟩ := container_retransmission_is_filtering classified rfl
    ⟨⟨64, 64, freshConfig.restore 64 64⟩⟩ rememberingSnapshot (1000 * second)
  obtain ⟨out, rfl⟩ := hiff.mpr ⟨by decide, _, _, rfl, rfl⟩
  obtain ⟨_, _, _, _, _, hmes⟩ := hout out rfl
  exact ⟨_, sv', out, hrun, by rw [hmes]; decide⟩

def nestedItems : List ContainerItem :=
  [⟨1000 * 2 ^ 32 + 4, 0, serializeContainer []⟩]

/-- A remembered child is a container: without it the container is accepted, yet the frame is refused. -/
theorem nested_container_child_refused : ∃ message decoded v v',
      classifyProtocolMessage (fun _ => .ok nestedItems) (containerFrame nestedItems) =
        .ok (message, decoded) ∧ message.kind = .container ∧
      (∀ child ∈ message.children, wellFormedID child.messageID = true ∧
        inTimeWindow (1000 * second) child.messageID = true) ∧
      newProtocolValidator rememberingSnapshot = .ok v ∧ v.validate (fun _ => 1000 * second)
        (message.dropRecent rememberingSnapshot.recentClientMsgIDs.toFinset) = .ok v' ∧
      SessionValidator.validate (fun _ => .ok nestedItems) (fun _ _ => 1000 * second) ⟨v⟩
        rememberingSnapshot (containerFrame nestedItems) =
        some (⟨v⟩, .error (.validation .invalidMessageKind)) :=
  ⟨_, _, _, _, rfl, rfl, by decide, rfl, rfl, rfl⟩

end Tlrpc
