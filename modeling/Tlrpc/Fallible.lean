import Mathlib.Data.List.Forall2

namespace Tlrpc

open List

section

variable {ε α β : Type} {f : α → Except ε β} {x : Except ε α}

theorem except_bind_ok {b : β} (h : (x >>= f) = .ok b) : ∃ a, x = .ok a ∧ f a = .ok b := by
  cases x with
  | error e => cases h
  | ok a => exact ⟨a, rfl, h⟩

theorem except_ok_bind (a : α) (f : α → Except ε β) : (Except.ok a >>= f) = f a := rfl

theorem except_map_ok {f : α → β} {b : β} (h : x.map f = .ok b) : ∃ a, x = .ok a ∧ f a = b := by
  cases x with
  | error e => cases h
  | ok a => exact ⟨a, rfl, Except.ok.inj h⟩

theorem except_of_toOption {a : α} (h : a ∈ x.toOption) : x = .ok a := by
  cases x with
  | error e => cases h
  | ok b =>
    cases h
    rfl

variable {l : List α}

theorem except_forM_ok {f : α → Except ε Unit} {u : Unit} (h : l.forM f = .ok u) :
    ∀ a ∈ l, f a = .ok () := by
  induction l with
  | nil => exact nofun
  | cons first rest ih =>
    obtain ⟨_, hfst, hrs⟩ := except_bind_ok h
    intro a hm
    rcases mem_cons.mp hm with rfl | hm
    · exact hfst
    · exact ih hrs a hm

theorem except_mapM_ok {bs : List β} (h : l.mapM f = .ok bs) :
    List.Forall₂ (fun a b => f a = .ok b) l bs := by
  induction l generalizing bs with
  | nil =>
    cases h
    exact .nil
  | cons first rest ih =>
    rw [mapM_cons] at h
    obtain ⟨b, hfst, h⟩ := except_bind_ok h
    obtain ⟨more, hrs, h⟩ := except_bind_ok h
    cases h
    exact .cons hfst (ih hrs)

theorem except_mapM_mem {bs : List β} (h : l.mapM f = .ok bs) {a : α} (hm : a ∈ l) : ∃ b, f a = .ok b := by
  have hprs := except_mapM_ok h
  clear h
  induction hprs with
  | nil => exact absurd hm not_mem_nil
  | cons hfst _ ih =>
    rcases mem_cons.mp hm with rfl | hm
    · exact ⟨_, hfst⟩
    · exact ih hm

theorem except_mapM_exists (h : ∀ a ∈ l, ∃ b, f a = .ok b) : ∃ bs, l.mapM f = .ok bs := by
  induction l with
  | nil => exact ⟨[], rfl⟩
  | cons a rest ih =>
    obtain ⟨b, hb⟩ := h a (mem_cons_self ..)
    obtain ⟨bs, hbs⟩ := ih fun a hm => h a (mem_cons_of_mem _ hm)
    exact ⟨b :: bs, by rw [mapM_cons, hb, except_ok_bind, hbs]; rfl⟩

theorem except_forM_iff {f : α → Except ε Unit} :
    l.forM f = .ok () ↔ ∀ a ∈ l, f a = .ok () := by
  refine ⟨except_forM_ok, fun h => ?_⟩
  induction l with
  | nil => rfl
  | cons a rest ih =>
    change (f a >>= fun _ => rest.forM f) = .ok ()
    rw [h a (mem_cons_self ..)]
    exact ih fun b hb => h b (mem_cons_of_mem _ hb)

theorem except_then_iff {x y : Except ε Unit} : (x >>= fun _ => y) = .ok () ↔ x = .ok () ∧ y = .ok () := by
  constructor
  · intro h
    obtain ⟨_, hx, hy⟩ := except_bind_ok h
    exact ⟨hx, hy⟩
  · rintro ⟨rfl, rfl⟩
    rfl

theorem except_mapM_iff : (∃ bs, l.mapM f = .ok bs) ↔ ∀ a ∈ l, ∃ b, f a = .ok b :=
  ⟨fun ⟨_, h⟩ _ hm => except_mapM_mem h hm, except_mapM_exists⟩

theorem except_map_iff {g : α → β} :
    (∃ b, (x >>= fun a => pure (g a)) = .ok b) ↔ ∃ a, x = .ok a := by
  cases x with
  | error err => exact ⟨nofun, nofun⟩
  | ok a => exact ⟨fun _ => ⟨a, rfl⟩, fun _ => ⟨g a, rfl⟩⟩

theorem except_pair_iff {γ : Type} {y : Except ε β} {g : α → β → γ} :
    (∃ c, (x >>= fun a => y >>= fun b => pure (g a b)) = .ok c) ↔ (∃ a, x = .ok a) ∧ ∃ b, y = .ok b := by
  cases x with
  | error err => exact ⟨nofun, nofun⟩
  | ok a => exact except_map_iff.trans ⟨fun h => ⟨⟨a, rfl⟩, h⟩, fun h => h.2⟩

theorem except_foldlM_exists {f : β → α → Except ε β} {b : β}
    (h : ∀ b, ∀ a ∈ l, ∃ b', f b a = .ok b') : ∃ b', l.foldlM f b = .ok b' := by
  induction l generalizing b with
  | nil => exact ⟨b, rfl⟩
  | cons a rest ih =>
    obtain ⟨mid, hmid⟩ := h b a (mem_cons_self ..)
    rw [foldlM_cons, hmid]
    exact ih fun b other hm => h b other (mem_cons_of_mem _ hm)

end

end Tlrpc
