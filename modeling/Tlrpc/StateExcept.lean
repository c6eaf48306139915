import Mathlib.Tactic.Common

namespace Tlrpc

/-- A computation that may fail; the state stays where the failure left it. -/
def StateExcept (σ ε α : Type) : Type := σ → Except ε α × σ

namespace StateExcept

variable {σ ε α β : Type}

instance : Monad (StateExcept σ ε) where
  pure a s := (.ok a, s)
  bind x f s :=
    match x s with
    | (.ok a, s') => f a s'
    | (.error err, s') => (.error err, s')

def fail (err : ε) : StateExcept σ ε α := fun s => (.error err, s)

def state : StateExcept σ ε σ := fun s => (.ok s, s)

def view (f : σ → α) : StateExcept σ ε α := fun s => (.ok (f s), s)

def update (f : σ → σ) : StateExcept σ ε Unit := fun s => (.ok (), f s)

def lift (r : Except ε α) : StateExcept σ ε α := fun s => (r, s)

def require (p : Prop) [Decidable p] (err : ε) : StateExcept σ ε Unit :=
  if p then pure () else fail err

@[simp] theorem pure_run (a : α) (s : σ) : (pure a : StateExcept σ ε α) s = (.ok a, s) := rfl

@[simp] theorem view_run (f : σ → α) (s : σ) : (view f : StateExcept σ ε α) s = (.ok (f s), s) := rfl

@[simp] theorem state_bind (f : σ → StateExcept σ ε β) (s : σ) : (state >>= f) s = f s s := rfl

@[simp] theorem update_bind (f : σ → σ) (g : Unit → StateExcept σ ε β) (s : σ) :
    (update f >>= g) s = g () (f s) := rfl

theorem lift_bind_ok {r : Except ε α} {a : α} (h : r = .ok a) (g : α → StateExcept σ ε β) (s : σ) :
    (lift r >>= g) s = g a s := by
  rw [h]
  rfl

theorem require_run (p : Prop) [Decidable p] (err : ε) (s : σ) :
    (require p err : StateExcept σ ε Unit) s = (if p then .ok () else .error err, s) := by
  unfold require
  split <;> rfl

variable {p : Prop} {err : ε} {f : List UInt8 → Option (α × List UInt8)}

theorem require_bind_pos [Decidable p] (h : p) (g : Unit → StateExcept σ ε β)
    (s : σ) : (require p err >>= g) s = g () s := by
  unfold require
  rw [if_pos h]
  rfl

theorem require_bind_neg [Decidable p] (h : ¬ p)
    (g : Unit → StateExcept σ ε β) (s : σ) : (require p err >>= g) s = (.error err, s) := by
  unfold require
  rw [if_neg h]
  rfl

section

variable {x : StateExcept σ ε α} {f : α → StateExcept σ ε β} {s s' : σ}

theorem bind_run_ok {a : α} (h : x s = (.ok a, s')) : (x >>= f) s = f a s' := by
  show (match x s with
    | (.ok a, s') => f a s'
    | (.error err, s') => (.error err, s')) = _
  rw [h]

theorem bind_run_error (h : x s = (.error err, s')) : (x >>= f) s = (.error err, s') := by
  show (match x s with
    | (.ok a, s') => f a s'
    | (.error err, s') => (.error err, s')) = _
  rw [h]

theorem bind_ok {b : β} (h : (x >>= f) s = (.ok b, s')) :
    ∃ a mid, x s = (.ok a, mid) ∧ f a mid = (.ok b, s') := by
  obtain ⟨⟨r, mid⟩, hx⟩ : ∃ y, y = x s := ⟨_, rfl⟩
  cases r with
  | ok a =>
    rw [bind_run_ok hx.symm] at h
    exact ⟨a, mid, hx.symm, h⟩
  | error err =>
    rw [bind_run_error hx.symm] at h
    cases h

theorem bind_assoc {γ : Type} (x : StateExcept σ ε α) (f : α → StateExcept σ ε β)
    (g : β → StateExcept σ ε γ) : x >>= f >>= g = x >>= fun a => f a >>= g := by
  funext s
  obtain ⟨⟨r, mid⟩, hx⟩ : ∃ y, y = x s := ⟨_, rfl⟩
  cases r with
  | ok a =>
    rw [bind_run_ok hx.symm]
    obtain ⟨⟨r', mid'⟩, hf⟩ : ∃ y, y = f a mid := ⟨_, rfl⟩
    have hxf : (x >>= f) s = (r', mid') := by rw [bind_run_ok hx.symm, hf]
    cases r' with
    | ok b => rw [bind_run_ok hxf, bind_run_ok hf.symm]
    | error err => rw [bind_run_error hxf, bind_run_error hf.symm]
  | error err =>
    rw [bind_run_error hx.symm, bind_run_error (bind_run_error hx.symm)]

end

def Moves (rel : σ → σ → Prop) (x : StateExcept σ ε α) : Prop :=
  ∀ s a s', x s = (.ok a, s') → rel s s'

section

variable {rel : σ → σ → Prop} [IsPreorder σ rel] {x y : StateExcept σ ε α} {f : α → StateExcept σ ε β}

theorem Moves.pure (a : α) : Moves rel (Pure.pure a : StateExcept σ ε α) := by
  intro s b s' h
  cases h
  exact refl s

omit [IsPreorder σ rel] in
theorem Moves.fail (err : ε) : Moves rel (StateExcept.fail err : StateExcept σ ε α) := by
  intro s b s' h
  cases h

theorem Moves.view (f : σ → α) : Moves rel (StateExcept.view f : StateExcept σ ε α) := by
  intro s b s' h
  cases h
  exact refl s

theorem Moves.bind (hx : Moves rel x) (hf : ∀ a, Moves rel (f a)) : Moves rel (x >>= f) := by
  intro s b s' h
  obtain ⟨a, mid, hfst, hsnd⟩ := bind_ok h
  exact IsTrans.trans _ _ _ (hx s a mid hfst) (hf a mid b s' hsnd)

theorem Moves.require (p : Prop) [Decidable p] (err : ε) :
    Moves rel (StateExcept.require p err : StateExcept σ ε Unit) := by
  unfold StateExcept.require
  split
  · exact .pure ()
  · exact .fail err

omit [IsPreorder σ rel] in
theorem Moves.ite [Decidable p] (hx : Moves rel x) (hy : Moves rel y) : Moves rel (if p then x else y) := by
  split
  · exact hx
  · exact hy

end

/-- No failure with `err` from `s`, and on success `measure` is `taken` below `top`. -/
def EndsAt (measure : σ → Nat) (err : ε) (top taken : Nat) (x : StateExcept σ ε α) (s : σ) : Prop :=
  (x s).1 ≠ .error err ∧ ∀ a s', x s = (.ok a, s') → measure s' + taken ≤ top

/-- Started where `measure` is below `bound`, a computation lowers it by `taken`. -/
def Ends (measure : σ → Nat) (err : ε) (bound taken : Nat) (x : StateExcept σ ε α) : Prop :=
  ∀ s, measure s < bound → EndsAt measure err (measure s) taken x s

section

variable {measure : σ → Nat} {err err' : ε} {bound bound' taken taken' : Nat}
  {x y : StateExcept σ ε α} {f : α → StateExcept σ ε β}

theorem Ends.mono (h : Ends measure err bound taken x) (hb : bound' ≤ bound) (ht : taken' ≤ taken) :
    Ends measure err bound' taken' x := by
  intro s hs
  obtain ⟨hfl, hok⟩ := h s (by omega)
  refine ⟨hfl, fun a s' hx => ?_⟩
  have := hok a s' hx
  omega

theorem Ends.weaken (h : Ends measure err bound 1 x) : Ends measure err bound 0 x :=
  h.mono (Nat.le_refl _) (Nat.zero_le _)

theorem Ends.below (h : Ends measure err bound taken x) (hb : bound' ≤ bound) :
    Ends measure err bound' taken x :=
  h.mono hb (Nat.le_refl _)

theorem Ends.pure (a : α) : Ends measure err bound 0 (Pure.pure a : StateExcept σ ε α) := by
  refine fun s _ => ⟨nofun, fun b s' h => ?_⟩
  cases h
  omega

theorem Ends.fail (hne : err' ≠ err) :
    Ends measure err bound taken (StateExcept.fail err' : StateExcept σ ε α) :=
  fun _ _ => ⟨fun h => hne (Except.error.inj h), nofun⟩

theorem Ends.view (g : σ → α) : Ends measure err bound 0 (StateExcept.view g : StateExcept σ ε α) := by
  refine fun s _ => ⟨nofun, fun b s' h => ?_⟩
  cases h
  omega

theorem Ends.require [Decidable p] (hne : err' ≠ err) :
    Ends measure err bound 0 (StateExcept.require p err' : StateExcept σ ε Unit) := by
  unfold StateExcept.require
  split
  · exact .pure ()
  · exact .fail hne

theorem Ends.ite [Decidable p] (hx : Ends measure err bound taken x)
    (hy : Ends measure err bound taken y) : Ends measure err bound taken (if p then x else y) := by
  split
  · exact hx
  · exact hy

theorem EndsAt.bind {s : σ} {top : Nat} (hx : EndsAt measure err top taken x s)
    (hf : ∀ a s', x s = (.ok a, s') → measure s' + taken ≤ top → EndsAt measure err top taken' (f a) s') :
    EndsAt measure err top taken' (x >>= f) s := by
  obtain ⟨hfl, hok⟩ := hx
  obtain ⟨⟨r, mid⟩, hrun⟩ : ∃ y, y = x s := ⟨_, rfl⟩
  cases r with
  | ok a =>
    obtain ⟨hfl', hok'⟩ := hf a mid hrun.symm (hok a mid hrun.symm)
    unfold EndsAt
    rw [bind_run_ok hrun.symm]
    exact ⟨hfl', hok'⟩
  | error e =>
    unfold EndsAt
    rw [bind_run_error hrun.symm]
    rw [← hrun] at hfl
    exact ⟨fun h => hfl (congrArg Except.error (Except.error.inj h)), nofun⟩

theorem Ends.bind_at (hx : Ends measure err bound taken x)
    (hf : ∀ a, Ends measure err (bound - taken) taken' (f a)) :
    Ends measure err bound (taken + taken') (x >>= f) := by
  intro s hs
  refine (hx s hs).bind fun a mid hrun hmid => ?_
  obtain ⟨hfl, hok⟩ := hf a mid (by omega)
  refine ⟨hfl, fun b s' h => ?_⟩
  have := hok b s' h
  omega

theorem Ends.bind (hx : Ends measure err bound 0 x) (hf : ∀ a, Ends measure err bound taken (f a)) :
    Ends measure err bound taken (x >>= f) :=
  (hx.bind_at hf).mono (Nat.le_refl _) (Nat.le_add_left _ _)

theorem Ends.next (hx : Ends measure err bound 1 x) (hf : ∀ a, Ends measure err (bound - 1) 0 (f a)) :
    Ends measure err bound 1 (x >>= f) :=
  hx.bind_at hf

end

/-- From related states two computations return the same and leave related states. -/
def Agree {τ : Type} (rel : σ → τ → Prop) (x : StateExcept σ ε α) (y : StateExcept τ ε α) : Prop :=
  ∀ s t, rel s t → (x s).1 = (y t).1 ∧ rel (x s).2 (y t).2

variable {x : StateExcept σ ε α}

section

variable {τ : Type} {rel : σ → τ → Prop}

theorem Agree.pure (a : α) : Agree rel (Pure.pure a : StateExcept σ ε α) (Pure.pure a) :=
  fun _ _ h => ⟨rfl, h⟩

theorem Agree.fail (err : ε) : Agree rel (StateExcept.fail err : StateExcept σ ε α) (StateExcept.fail err) :=
  fun _ _ h => ⟨rfl, h⟩

theorem Agree.require (p : Prop) [Decidable p] (err : ε) :
    Agree rel (StateExcept.require p err) (StateExcept.require p err) := by
  unfold StateExcept.require
  split
  · exact Agree.pure ()
  · exact Agree.fail err

theorem Agree.bind {y : StateExcept τ ε α} {f : α → StateExcept σ ε β}
    {g : α → StateExcept τ ε β} (hx : Agree rel x y) (hf : ∀ a, Agree rel (f a) (g a)) :
    Agree rel (x >>= f) (y >>= g) := by
  intro s t hst
  obtain ⟨hres, hrel⟩ := hx s t hst
  obtain ⟨⟨r, mid⟩, hxs⟩ : ∃ z, z = x s := ⟨_, rfl⟩
  obtain ⟨⟨r', mid'⟩, hyt⟩ : ∃ z, z = y t := ⟨_, rfl⟩
  rw [← hxs, ← hyt] at hres hrel
  cases hres
  cases r with
  | ok a =>
    rw [bind_run_ok hxs.symm, bind_run_ok hyt.symm]
    exact hf a mid mid' hrel
  | error err =>
    rw [bind_run_error hxs.symm, bind_run_error hyt.symm]
    exact ⟨rfl, hrel⟩

end

def Parses (inv : σ → Prop) (rest : σ → List UInt8) (x : StateExcept σ ε α)
    (parse : List UInt8 → Option (α × List UInt8)) : Prop :=
  ∀ s, inv s →
    (∀ a left, parse (rest s) = some (a, left) → ∃ s', x s = (.ok a, s') ∧ inv s' ∧ rest s' = left) ∧
      (parse (rest s) = none → ∃ err s', x s = (.error err, s'))

section

variable {inv : σ → Prop} {rest : σ → List UInt8}

theorem Parses.pure (a : α) :
    Parses inv rest (Pure.pure a : StateExcept σ ε α) (fun data => some (a, data)) := by
  intro s hs
  refine ⟨?_, nofun⟩
  rintro b left ⟨⟩
  exact ⟨s, rfl, hs, rfl⟩

theorem Parses.fail (err : ε) : Parses inv rest (StateExcept.fail err : StateExcept σ ε α) (fun _ => none) :=
  fun s _ => ⟨nofun, fun _ => ⟨err, s, rfl⟩⟩

theorem Parses.bind {g : α → StateExcept σ ε β} {h : α → List UInt8 → Option (β × List UInt8)}
    (hx : Parses inv rest x f) (hg : ∀ a, Parses inv rest (g a) (h a)) :
    Parses inv rest (x >>= g) (fun data => (f data).bind fun r => h r.1 r.2) := by
  intro s hs
  obtain ⟨hok, herr⟩ := hx s hs
  dsimp only
  cases hf : f (rest s) with
  | none =>
    obtain ⟨err, s', hrun⟩ := herr hf
    rw [Option.bind_none]
    exact ⟨nofun, fun _ => ⟨err, s', bind_run_error hrun⟩⟩
  | some r =>
    obtain ⟨mid, hrun, hmid, hlf⟩ := hok r.1 r.2 hf
    obtain ⟨hok', herr'⟩ := hg r.1 mid hmid
    rw [hlf] at hok' herr'
    rw [bind_run_ok hrun, Option.bind_some]
    exact ⟨hok', herr'⟩

theorem Parses.congr {f' : List UInt8 → Option (α × List UInt8)}
    (h : Parses inv rest x f) (hf : ∀ data, f data = f' data) : Parses inv rest x f' := by
  rwa [show f' = f from funext fun data => (hf data).symm]

end

def accepted (rest : σ → List UInt8) (r : Except ε α × σ) : Option (α × List UInt8) :=
  match r.1 with
  | .ok a => some (a, rest r.2)
  | .error _ => none

theorem Parses.accepted_eq {inv : σ → Prop} {rest : σ → List UInt8} (h : Parses inv rest x f)
    {s : σ} (hs : inv s) : accepted rest (x s) = f (rest s) := by
  obtain ⟨hok, herr⟩ := h s hs
  cases hf : f (rest s) with
  | none =>
    obtain ⟨err, s', hrun⟩ := herr hf
    rw [hrun]
    rfl
  | some r =>
    obtain ⟨s', hrun, _, hlf⟩ := hok r.1 r.2 hf
    rw [hrun, accepted, hlf]

end StateExcept

end Tlrpc
