import Mathlib.Data.Finset.Basic
import Tlrpc.StepSystem

namespace Tlrpc

open List

/-- Tokens `T` shut a gate, items `P` queue behind it; the flag tells queued items from others. -/
inductive GateEvent (P T : Type)
  | begun (t : T)
  | replied (t : T)
  | queued (p : P)
  | passed (p : P)
  | dequeued (p : P)
  | submitted (p : P) (fromQueue : Bool)
  | settled (p : P)
  | closed
deriving DecidableEq

namespace GateEvent

variable {P T : Type}

def accepted : GateEvent P T → Option P
  | queued p => some p
  | _ => none

def delivered : GateEvent P T → Option P
  | submitted p true => some p
  | _ => none

def moves : GateEvent P T → Bool
  | queued _ => true
  | passed _ => true
  | dequeued _ => true
  | _ => false

def submits : GateEvent P T → Bool
  | submitted _ _ => true
  | settled _ => true
  | _ => false

end GateEvent

/-- `drawn` is the item taken from the queue; `running` passed and are not settled yet. -/
structure Gate (P T : Type) where
  tokens : Finset T
  queue : List P
  drawn : Option (P × Bool)
  running : Finset P
  closed : Bool

namespace Gate

variable {P T : Type}

def start : Gate P T := ⟨∅, [], none, ∅, false⟩

def unsent (g : Gate P T) : List P :=
  match g.drawn with
  | some (p, false) => [p]
  | _ => []

/-- Accepted items are submitted, still waiting in order, or were dropped by closing. -/
structure Conserved (log : List (GateEvent P T)) (g : Gate P T) (dropped : List P) : Prop where
  order : log.filterMap GateEvent.accepted =
    log.filterMap GateEvent.delivered ++ g.unsent ++ g.queue ++ dropped
  kept : g.closed = false → dropped = []
  drawn : ∀ p started, g.drawn = some (p, started) → .dequeued p ∈ log

theorem Conserved.snoc {log : List (GateEvent P T)} {g g' : Gate P T} {dropped dropped' : List P}
    {e : GateEvent P T} (h : Conserved log g dropped)
    (hord : g.unsent ++ g.queue ++ dropped ++ e.accepted.toList =
      e.delivered.toList ++ g'.unsent ++ g'.queue ++ dropped')
    (hkp : g'.closed = false → dropped' = []) (hdr : ∀ p started, g'.drawn = some (p, started) →
      e = .dequeued p ∨ ∃ started', g.drawn = some (p, started')) : Conserved (log ++ [e]) g' dropped' := by
  have hsin : ∀ f : GateEvent P T → Option P, [e].filterMap f = (f e).toList := by
    intro f
    cases hf : f e <;> simp [hf]
  refine ⟨?_, hkp, ?_⟩
  · rw [filterMap_append, filterMap_append, hsin, hsin, h.order]
    simp only [append_assoc] at hord ⊢
    rw [hord]
  · intro p started hp
    rcases hdr p started hp with rfl | ⟨started', hold⟩
    · exact mem_append_right _ (mem_singleton.mpr rfl)
    · exact mem_append_left _ (h.drawn p started' hold)

theorem mem_delivered {log : List (GateEvent P T)} {p : P}
    (h : p ∈ log.filterMap GateEvent.delivered) : .submitted p true ∈ log := by
  obtain ⟨e, he, hp⟩ := mem_filterMap.mp h
  cases e with
  | submitted p' fromQueue =>
    cases fromQueue with
    | true =>
      cases hp
      exact he
    | false => cases hp
  | _ => cases hp

theorem before_unique [DecidableEq P] {front front' back back' : List P} {q : P}
    (h : front ++ q :: back = front' ++ q :: back') (hnd : (front ++ q :: back).Nodup) : front = front' := by
  have hq : q ∉ front := by
    intro hmem
    exact (nodup_append.mp hnd).2.2 q hmem q mem_cons_self rfl
  have hq' : q ∉ front' := by
    intro hmem
    exact (nodup_append.mp (h ▸ hnd)).2.2 q hmem q mem_cons_self rfl
  have hlen : front.length = front'.length := by
    have hindex := congrArg (List.idxOf q) h
    rw [idxOf_append_of_notMem hq, idxOf_append_of_notMem hq', idxOf_cons_self, idxOf_cons_self] at hindex
    simpa using hindex
  exact (append_inj h hlen).1

section

variable [DecidableEq P] [DecidableEq T]

inductive Step (g : Gate P T) : GateEvent P T → Gate P T → Prop
  | begin {t : T} : g.running = ∅ → g.drawn = none →
      Step g (.begun t) { g with tokens := insert t g.tokens }
  | reply {t : T} : Step g (.replied t) { g with tokens := g.tokens.erase t }
  | queue {p : P} : g.closed = false → Step g (.queued p) { g with queue := g.queue ++ [p] }
  | pass {p : P} : g.closed = false → g.tokens = ∅ → g.queue = [] → g.drawn = none →
      Step g (.passed p) { g with running := insert p g.running }
  | draw {p : P} {rest : List P} : g.closed = false → g.tokens = ∅ → g.drawn = none →
      g.queue = p :: rest → Step g (.dequeued p) { g with queue := rest, drawn := some (p, false) }
  | submit {p : P} : g.drawn = some (p, false) →
      Step g (.submitted p true) { g with drawn := some (p, true) }
  | submitDirect {p : P} : p ∈ g.running → Step g (.submitted p false) g
  | settle {p : P} : g.drawn = some (p, true) → Step g (.settled p) { g with drawn := none }
  | settleDirect {p : P} : p ∈ g.running →
      Step g (.settled p) { g with running := g.running.erase p }
  | close : g.closed = false → Step g .closed { g with closed := true, queue := [] }

abbrev Run : Gate P T → List (GateEvent P T) → Gate P T → Prop := Trace Step

def Quiet (g : Gate P T) : Prop := g.tokens ≠ ∅ → g.running = ∅ ∧ g.drawn = none

variable {g g' : Gate P T} {e : GateEvent P T}

theorem Step.quiet (h : Step g e g') (hq : g.Quiet) : g'.Quiet := by
  cases h with
  | begin hrun hdr => exact fun _ => ⟨hrun, hdr⟩
  | @reply t =>
    intro hne
    refine hq ?_
    intro hemp
    exact hne (by simp [hemp])
  | pass _ htk _ _ => exact fun hne => absurd htk hne
  | draw _ htk _ _ => exact fun hne => absurd htk hne
  | submit hdr =>
    intro hne
    rw [(hq hne).2] at hdr
    cases hdr
  | submitDirect _ => exact hq
  | settle hdr =>
    intro hne
    exact ⟨(hq hne).1, rfl⟩
  | settleDirect hmem =>
    intro hne
    rw [(hq hne).1] at hmem
    simp at hmem
  | queue _ => exact hq
  | close _ => exact hq

variable {log : List (GateEvent P T)} {g : Gate P T}

theorem Run.quiet (h : Run start log g) : g.Quiet := by
  induction h with
  | nil =>
    intro _
    exact ⟨rfl, rfl⟩
  | snoc _ hst ih => exact hst.quiet ih

theorem Step.shut {t : T} (h : Step g e g') (hq : g.Quiet)
    (ht : t ∈ g.tokens) (he : e ≠ .replied t) : t ∈ g'.tokens ∧ e.submits = false := by
  have hne : g.tokens ≠ ∅ := Finset.ne_empty_of_mem ht
  obtain ⟨hrun, hdr⟩ := hq hne
  cases h with
  | begin _ _ => exact ⟨Finset.mem_insert_of_mem ht, rfl⟩
  | @reply t' =>
    refine ⟨Finset.mem_erase.mpr ⟨?_, ht⟩, rfl⟩
    intro heq
    exact he (heq ▸ rfl)
  | queue _ => exact ⟨ht, rfl⟩
  | pass _ htk _ _ => exact absurd htk hne
  | draw _ htk _ _ => exact absurd htk hne
  | submit hp | settle hp =>
    rw [hdr] at hp
    cases hp
  | submitDirect hp | settleDirect hp =>
    rw [hrun] at hp
    simp at hp
  | close _ => exact ⟨ht, rfl⟩

theorem Run.shut {t : T} (h : Run g log g') (hq : g.Quiet) (ht : t ∈ g.tokens) (hlog : .replied t ∉ log) :
    ∀ e ∈ log, e.submits = false := by
  have hinv : g'.Quiet ∧ t ∈ g'.tokens ∧ ∀ e ∈ log, e.submits = false := by
    induction h with
    | nil => exact ⟨hq, ht, by simp⟩
    | @snoc log e mid g' _ hst ih =>
      obtain ⟨hqt, hmem, hold⟩ := ih (fun hr => hlog (mem_append_left _ hr))
      have he : e ≠ .replied t := by
        intro heq
        exact hlog (by simp [heq])
      obtain ⟨hmem', hsil⟩ := hst.shut hqt hmem he
      refine ⟨hst.quiet hqt, hmem', ?_⟩
      intro e' he'
      rcases mem_append.mp he' with old | new
      · exact hold e' old
      · rw [mem_singleton.mp new]
        exact hsil
  exact hinv.2.2

variable {before after : List (GateEvent P T)}

theorem Run.shut_after_begun {t : T}
    (h : Run start (before ++ .begun t :: after) g) (hlog : .replied t ∉ after) :
    ∀ e ∈ after, e.submits = false := by
  obtain ⟨mid, mid', hbef, hbeg, haft⟩ := h.split_cons
  have hqt := Step.quiet hbeg (Run.quiet hbef)
  have hmem : t ∈ mid'.tokens := by
    cases hbeg
    exact Finset.mem_insert_self t _
  exact Run.shut haft hqt hmem hlog

theorem Step.conserved {dropped : List P} (h : Step g e g') (hc : Conserved log g dropped) :
    ∃ dropped', Conserved (log ++ [e]) g' dropped' := by
  cases h with
  | @queue p hop =>
    refine ⟨[], hc.snoc ?_ (fun _ => rfl) (fun p started hp => Or.inr ⟨started, hp⟩)⟩
    simp [hc.kept hop, GateEvent.accepted, GateEvent.delivered, unsent]
  | @draw p rest hop htk hdr hque =>
    refine ⟨[], hc.snoc ?_ (fun _ => rfl) ?_⟩
    · simp [hc.kept hop, GateEvent.accepted, GateEvent.delivered, unsent, hdr, hque]
    · intro p' started hp
      cases hp
      exact Or.inl rfl
  | @submit p hdr =>
    refine ⟨dropped, hc.snoc ?_ hc.kept ?_⟩
    · simp [GateEvent.accepted, GateEvent.delivered, unsent, hdr]
    · intro p' started hp
      cases hp
      exact Or.inr ⟨false, hdr⟩
  | @settle p hdr =>
    refine ⟨dropped, hc.snoc ?_ hc.kept ?_⟩
    · simp [GateEvent.accepted, GateEvent.delivered, unsent, hdr]
    · intro p' started hp
      cases hp
  | close hop =>
    refine ⟨g.queue, hc.snoc ?_ ?_ (fun p started hp => Or.inr ⟨started, hp⟩)⟩
    · simp [hc.kept hop, GateEvent.accepted, GateEvent.delivered, unsent]
    · intro hcl
      cases hcl
  | begin _ _ | reply | pass _ _ _ _ | submitDirect _ | settleDirect _ =>
    refine ⟨dropped, hc.snoc ?_ hc.kept (fun p started hp => Or.inr ⟨started, hp⟩)⟩
    simp [GateEvent.accepted, GateEvent.delivered, unsent]

theorem Run.conserved (h : Run start log g) : ∃ dropped, Conserved log g dropped := by
  induction h with
  | nil =>
    refine ⟨[], rfl, fun _ => rfl, ?_⟩
    intro p started hp
    cases hp
  | snoc _ hst ih =>
    obtain ⟨dropped, hc⟩ := ih
    exact Step.conserved hst hc

theorem Run.delivered_in_order (h : Run start log g) :
    log.filterMap GateEvent.delivered <+: log.filterMap GateEvent.accepted := by
  obtain ⟨dropped, hc⟩ := Run.conserved h
  rw [hc.order, append_assoc, append_assoc]
  exact prefix_append _ _

theorem Run.nothing_lost (h : Run start log g) (hop : g.closed = false) :
    log.filterMap GateEvent.accepted = log.filterMap GateEvent.delivered ++ g.unsent ++ g.queue := by
  obtain ⟨dropped, hc⟩ := Run.conserved h
  rw [hc.order, hc.kept hop, append_nil]

theorem Run.passed_last {p : P} (h : Run start (before ++ .passed p :: after) g) :
    before.filterMap GateEvent.delivered = before.filterMap GateEvent.accepted := by
  obtain ⟨mid, mid', hbef, hps, _⟩ := h.split_cons
  cases hps with
  | pass hop _ hque hdr =>
    rw [Run.nothing_lost hbef hop]
    simp [unsent, hque, hdr]

theorem Run.earlier_first {first rest after : List (GateEvent P T)} {p q : P} {fromQueue : Bool}
    (h : Run start ((first ++ .queued p :: rest) ++ .submitted q fromQueue :: after) g)
    (hnd : ((first ++ .queued p :: rest).filterMap GateEvent.accepted).Nodup)
    (hlat : fromQueue = true ∧ .queued q ∈ rest ∨ .passed q ∈ rest) :
    .submitted p true ∈ first ++ .queued p :: rest := by
  refine mem_delivered ?_
  rcases hlat with ⟨rfl, hque⟩ | hpas
  · obtain ⟨middle, last, rfl⟩ := append_of_mem hque
    obtain ⟨mid, mid', hbef, hsub, _⟩ := h.split_cons
    have hrun := Trace.snoc hbef hsub
    obtain ⟨back, hbc⟩ := Run.delivered_in_order hrun
    have hacc : (first ++ .queued p :: (middle ++ .queued q :: last)).filterMap
        GateEvent.accepted = (first.filterMap GateEvent.accepted ++ p ::
          middle.filterMap GateEvent.accepted) ++ q :: last.filterMap GateEvent.accepted := by
      simp [GateEvent.accepted]
    have hdel : (first ++ .queued p :: (middle ++ .queued q :: last)).filterMap
        GateEvent.delivered ++ q :: back = (first ++ .queued p :: (middle ++ .queued q :: last)).filterMap
          GateEvent.accepted := by
      have hno : [GateEvent.submitted (T := T) q true].filterMap GateEvent.accepted = [] := rfl
      have hone : [GateEvent.submitted (T := T) q true].filterMap GateEvent.delivered = [q] := rfl
      rw [filterMap_append, filterMap_append (f := GateEvent.accepted), hno, hone,
        append_nil, append_assoc] at hbc
      exact hbc
    have hfro := before_unique (hdel.trans hacc) (hdel ▸ hnd)
    rw [hfro]
    simp
  · obtain ⟨middle, last, rfl⟩ := append_of_mem hpas
    have hspl : (first ++ .queued p :: (middle ++ .passed q :: last)) ++ .submitted q fromQueue ::
        after = (first ++ .queued p :: middle) ++ .passed q :: (last ++ .submitted q fromQueue :: after) := by
      simp
    rw [hspl] at h
    have hall := Run.passed_last h
    have hp : p ∈ (first ++ .queued p :: middle).filterMap GateEvent.delivered := by
      rw [hall]
      simp [GateEvent.accepted]
    have hmr : first ++ .queued p :: (middle ++ .passed q :: last) =
        (first ++ .queued p :: middle) ++ .passed q :: last := by
      simp
    rw [hmr, filterMap_append]
    exact mem_append_left _ hp

theorem Step.after_closed (h : Step g e g') (hcl : g.closed = true) :
    g'.closed = true ∧ e.moves = false ∧ e.delivered.toList ++ g'.unsent = g.unsent := by
  cases h with
  | queue hop | pass hop _ _ _ | draw hop _ _ _ | close hop =>
    rw [hcl] at hop
    cases hop
  | submit hdr | settle hdr =>
    exact ⟨hcl, rfl, by simp [GateEvent.delivered, unsent, hdr]⟩
  | begin _ _ | reply | submitDirect _ | settleDirect _ => exact ⟨hcl, rfl, rfl⟩

/-- After closing nothing is queued, drawn or let through; what was drawn may be submitted. -/
theorem Run.after_closed (h : Run g log g') (hcl : g.closed = true) :
    (∀ e ∈ log, e.moves = false) ∧ log.filterMap GateEvent.delivered <+: g.unsent := by
  have hinv : g'.closed = true ∧ (∀ e ∈ log, e.moves = false) ∧
      log.filterMap GateEvent.delivered ++ g'.unsent = g.unsent := by
    induction h with
    | nil => exact ⟨hcl, by simp, rfl⟩
    | @snoc log e mid g' _ hst ih =>
      obtain ⟨hmid, hmv, hsn⟩ := ih
      obtain ⟨hend, hmo, hla⟩ := Step.after_closed hst hmid
      refine ⟨hend, ?_, ?_⟩
      · intro e' he'
        rcases mem_append.mp he' with old | new
        · exact hmv e' old
        · rw [mem_singleton.mp new]
          exact hmo
      · have hsin : [e].filterMap GateEvent.delivered = e.delivered.toList := by
          cases hd : e.delivered <;> simp [hd]
        rw [filterMap_append, hsin, append_assoc, hla]
        exact hsn
  refine ⟨hinv.2.1, ?_⟩
  rw [← hinv.2.2]
  exact prefix_append _ _

theorem Run.closed_last (h : Run start (before ++ .closed :: after) g) :
    (∀ e ∈ after, e.moves = false) ∧ (after.filterMap GateEvent.delivered).length ≤ 1 ∧
      ∀ p ∈ after.filterMap GateEvent.delivered, .dequeued p ∈ before := by
  obtain ⟨mid, mid', hbef, hclo, haft⟩ := h.split_cons
  obtain ⟨dropped, hc⟩ := Run.conserved hbef
  cases hclo with
  | close hop =>
    obtain ⟨hmv, hsn⟩ := Run.after_closed haft rfl
    have huns : unsent { mid with closed := true, queue := [] } = mid.unsent := rfl
    rw [huns] at hsn
    refine ⟨hmv, ?_, ?_⟩
    · have hle := hsn.length_le
      have hone : mid.unsent.length ≤ 1 := by
        unfold unsent
        split <;> simp
      omega
    · intro p hp
      have hmem : p ∈ mid.unsent := hsn.subset hp
      unfold unsent at hmem
      split at hmem
      next p' hdr =>
        rw [mem_singleton.mp hmem]
        exact hc.drawn p' false hdr
      · cases hmem

end

end Gate

end Tlrpc
