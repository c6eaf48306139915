import Mathlib.Tactic.Common

namespace Tlrpc

open List

section

variable {S O : Type} (step : S → O → Option S)

/-- A run of a machine whose step is `none` where an operation is not enabled. -/
def exec : S → List O → Option S
  | s, [] => some s
  | s, op :: ops => (step s op).bind (fun s' => exec s' ops)

/-- Every operation of a run meets the condition in the state it is taken in. -/
def Meets (cond : S → O → Prop) : S → List O → Prop
  | _, [] => True
  | s, op :: ops => cond s op ∧
    match step s op with
    | some s' => Meets cond s' ops
    | none => True

instance decidableMeets (cond : S → O → Prop) [∀ s op, Decidable (cond s op)] :
    ∀ (s : S) (ops : List O), Decidable (Meets step cond s ops)
  | _, [] => isTrue trivial
  | s, op :: ops =>
    have : Decidable (match step s op with
        | some s' => Meets step cond s' ops
        | none => True) :=
      match step s op with
      | some s' => decidableMeets cond s' ops
      | none => isTrue trivial
    inferInstanceAs (Decidable (_ ∧ _))

end

section

variable {S O : Type} {step : S → O → Option S} {cond : S → O → Prop} {inv : S → Prop}

theorem exec_cons {s s' : S} {op : O} {ops : List O} (h : exec step s (op :: ops) = some s') :
    ∃ mid, step s op = some mid ∧ exec step mid ops = some s' :=
  Option.bind_eq_some_iff.mp h

theorem exec_of_step {s mid s' : S} {op : O} {ops : List O} (hst : step s op = some mid)
    (hrs : exec step mid ops = some s') : exec step s (op :: ops) = some s' :=
  Option.bind_eq_some_iff.mpr ⟨mid, hst, hrs⟩

theorem exec_append {s mid s' : S} {ops later : List O} (h : exec step s ops = some mid)
    (hlat : exec step mid later = some s') : exec step s (ops ++ later) = some s' := by
  induction ops generalizing s with
  | nil =>
    cases h
    exact hlat
  | cons op ops ih =>
    obtain ⟨next, hst, hrs⟩ := exec_cons h
    exact exec_of_step hst (ih hrs)

theorem Meets.append {s mid : S} {ops later : List O} (hmt : Meets step cond s ops)
    (h : exec step s ops = some mid) (hlat : Meets step cond mid later) :
    Meets step cond s (ops ++ later) := by
  induction ops generalizing s with
  | nil =>
    cases h
    exact hlat
  | cons op ops ih =>
    obtain ⟨next, hst, hrs⟩ := exec_cons h
    have haft := hmt.2
    rw [hst] at haft
    refine ⟨hmt.1, ?_⟩
    rw [hst]
    exact ih haft hrs

/-- What every conditional step preserves holds at the end of such runs. -/
theorem exec_invariant (preserved : ∀ s op s', inv s → cond s op → step s op = some s' → inv s')
    {s s' : S} {ops : List O} (start : inv s) (meets : Meets step cond s ops)
    (h : exec step s ops = some s') : inv s' := by
  induction ops generalizing s with
  | nil =>
    cases h
    exact start
  | cons op ops ih =>
    obtain ⟨mid, hst, hrs⟩ := exec_cons h
    obtain ⟨hcd, hmt⟩ := meets
    rw [hst] at hmt
    exact ih (preserved s op mid start hcd hst) hmt hrs

theorem meets_true (s : S) (ops : List O) : Meets step (fun _ _ => True) s ops := by
  induction ops generalizing s with
  | nil => trivial
  | cons op ops ih =>
    refine ⟨trivial, ?_⟩
    cases step s op with
    | none => trivial
    | some mid => exact ih mid

theorem Meets.mono {cond' : S → O → Prop} (himp : ∀ s op, cond s op → cond' s op) {s : S}
    {ops : List O} (h : Meets step cond s ops) : Meets step cond' s ops := by
  induction ops generalizing s with
  | nil => trivial
  | cons op ops ih =>
    obtain ⟨hcd, hrs⟩ := h
    refine ⟨himp s op hcd, ?_⟩
    cases hst : step s op with
    | none => trivial
    | some mid =>
      rw [hst] at hrs
      exact ih hrs

theorem meets_congr {cond' : S → O → Prop}
    (hiff : ∀ s op s', step s op = some s' → (cond s op ↔ cond' s op)) {s s' : S} {ops : List O}
    (h : exec step s ops = some s') : Meets step cond s ops ↔ Meets step cond' s ops := by
  induction ops generalizing s with
  | nil => exact Iff.rfl
  | cons op ops ih =>
    obtain ⟨mid, hst, hrs⟩ := exec_cons h
    unfold Meets
    rw [hst, hiff s op mid hst]
    exact and_congr_right (fun _ => ih hrs)

/-- The unconditional case: an inductive invariant holds at the end of every run. -/
theorem exec_inductive (preserved : ∀ s op s', inv s → step s op = some s' → inv s') {s s' : S}
    {ops : List O} (start : inv s) (h : exec step s ops = some s') : inv s' :=
  exec_invariant (fun s op s' hi _ hs => preserved s op s' hi hs) start (meets_true s ops) h

/-- A violation leaves a mark that stays: a run without the mark has met the condition. -/
theorem meets_of_unmarked (marked : S → Prop) (preserved : ∀ s op s', inv s → step s op = some s' → inv s')
    (marks : ∀ s op s', inv s → step s op = some s' → ¬cond s op ∨ marked s → marked s') {s s' : S}
    {ops : List O} (start : inv s) (h : exec step s ops = some s') (unmarked : ¬marked s') :
    Meets step cond s ops := by
  have stays : ∀ {s ops}, inv s → exec step s ops = some s' → ¬marked s := by
    intro s ops
    induction ops generalizing s with
    | nil =>
      intro _ h
      cases h
      exact unmarked
    | cons op ops ih =>
      intro start h hmar
      obtain ⟨mid, hst, hrs⟩ := exec_cons h
      exact ih (preserved s op mid start hst) hrs (marks s op mid start hst (.inr hmar))
  induction ops generalizing s with
  | nil => trivial
  | cons op ops ih =>
    obtain ⟨mid, hst, hrs⟩ := exec_cons h
    have hmid := preserved s op mid start hst
    refine ⟨?_, ?_⟩
    · by_contra hcd
      exact stays hmid hrs (marks s op mid start hst (.inl hcd))
    · rw [hst]
      exact ih hmid hrs

end

/-- Names a running call of a concurrent program. -/
abbrev CallID := Nat

section

variable {S E : Type} {step : S → E → S → Prop}

/-- A run of a labelled transition relation with the list of its labels. -/
inductive Trace (step : S → E → S → Prop) (s : S) : List E → S → Prop
  | nil : Trace step s [] s
  | snoc {log : List E} {e : E} {mid s' : S} :
      Trace step s log mid → step mid e s' → Trace step s (log ++ [e]) s'

theorem Trace.split {s s' : S} {log : List E} (h : Trace step s log s') :
    ∀ before after, log = before ++ after → ∃ mid, Trace step s before mid ∧ Trace step mid after s' := by
  induction h with
  | nil =>
    intro before after hlog
    obtain ⟨rfl, rfl⟩ := append_eq_nil_iff.mp hlog.symm
    exact ⟨s, .nil, .nil⟩
  | @snoc log e mid s' hrun hst ih =>
    intro before after hlog
    rcases eq_nil_or_concat after with rfl | ⟨front, last, rfl⟩
    · rw [append_nil] at hlog
      subst hlog
      exact ⟨s', hrun.snoc hst, .nil⟩
    rw [concat_eq_append, ← append_assoc] at hlog
    obtain ⟨hfro, hla⟩ := append_inj' hlog rfl
    obtain ⟨mid', hbef, haft⟩ := ih before front hfro
    cases hla
    rw [concat_eq_append]
    exact ⟨mid', hbef, haft.snoc hst⟩

theorem Trace.split_cons {s s' : S} {before after : List E} {e : E}
    (h : Trace step s (before ++ e :: after) s') :
    ∃ mid mid', Trace step s before mid ∧ step mid e mid' ∧ Trace step mid' after s' := by
  obtain ⟨mid', hfst, haft⟩ := h.split (before ++ [e]) after (by simp)
  generalize hlog : before ++ [e] = log at hfst
  cases hfst with
  | nil => simp at hlog
  | @snoc log e' mid _ hrun hst =>
    obtain ⟨rfl, he⟩ := append_inj' hlog rfl
    cases he
    exact ⟨mid, mid', hrun, hst, haft⟩

/-- What relates two machines across each step relates them after every run. -/
theorem Trace.simulates {M : Type} {spec : M → E → M → Prop} {rel : S → M → Prop}
    (sim : ∀ s e s' m, rel s m → step s e s' → ∃ m', spec m e m' ∧ rel s' m') {s s' : S} {m : M}
    {log : List E} (h : Trace step s log s') (start : rel s m) : ∃ m', Trace spec m log m' ∧ rel s' m' := by
  induction h with
  | nil => exact ⟨m, .nil, start⟩
  | snoc _ hst ih =>
    obtain ⟨mid, hrun, hrel⟩ := ih
    obtain ⟨m', hsp, hrel'⟩ := sim _ _ _ _ hrel hst
    exact ⟨m', hrun.snoc hsp, hrel'⟩

theorem Trace.invariant {inv : List E → S → Prop} {s s' : S} {log : List E}
    (h : Trace step s log s') (start : inv [] s)
    (preserved : ∀ log e mid s', inv log mid → step mid e s' → inv (log ++ [e]) s') : inv log s' := by
  induction h with
  | nil => exact start
  | snoc _ hst ih => exact preserved _ _ _ _ ih hst

end

section

variable {E : Type} {ok : List E → E → Prop}

/-- Every event of a log agrees with the events before it. -/
def Logged (ok : List E → E → Prop) (log : List E) : Prop :=
  ∀ before e after, log = before ++ e :: after → ok before e

theorem Logged.nil : Logged ok [] := by
  intro before e after h
  simp at h

theorem Logged.concat {log : List E} {e : E} (h : Logged ok log) (he : ok log e) :
    Logged ok (log ++ [e]) := by
  intro before e' after heq
  rcases eq_nil_or_concat after with rfl | ⟨front, last, rfl⟩
  · obtain ⟨rfl, hla⟩ := append_inj' heq rfl
    cases hla
    exact he
  have heq : log ++ [e] = (before ++ e' :: front) ++ [last] := by
    rw [heq]
    simp
  exact h before e' front (append_inj' heq rfl).1

end

end Tlrpc
