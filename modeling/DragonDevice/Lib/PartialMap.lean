/-
  Lib/PartialMap.lean --- a map over a list in which an element may have no image.

  The map has a result when every element has an image.  The result then stands beside the
  list element by element, and what holds of every image holds of it.
-/
import Mathlib.Data.List.Forall2

set_option autoImplicit false

namespace DragonDevice.Lib

variable {α β γ : Type} {f : α → Option β} {l : List α} {l' : List β}

/-! ## Lists beside each other -/

theorem exists_of_forall₂ {R : α → β → Prop} (h : List.Forall₂ R l l') :
    (∀ a ∈ l, ∃ b ∈ l', R a b) ∧ ∀ b ∈ l', ∃ a ∈ l, R a b := by
  induction h with
  | nil => exact ⟨List.forall_mem_nil _, List.forall_mem_nil _⟩
  | @cons a b l l' hab _ ih =>
      refine ⟨List.forall_mem_cons.mpr ⟨⟨b, List.mem_cons_self, hab⟩, fun a' ha' => ?_⟩,
        List.forall_mem_cons.mpr ⟨⟨a, List.mem_cons_self, hab⟩, fun b' hb' => ?_⟩⟩
      · obtain ⟨b', hb', h⟩ := ih.1 a' ha'
        exact ⟨b', List.mem_cons_of_mem b hb', h⟩
      · obtain ⟨a', ha', h⟩ := ih.2 b' hb'
        exact ⟨a', List.mem_cons_of_mem a ha', h⟩

theorem map_eq_map_of_forall₂ {g : α → γ} {g' : β → γ}
    (h : List.Forall₂ (fun a b => g' b = g a) l l') : l'.map g' = l.map g := by
  induction h with
  | nil => rfl
  | cons hab _ ih => rw [List.map_cons, List.map_cons, hab, ih]

/-! ## What a result says -/

theorem mapM_some_forall₂ (h : l.mapM f = some l') :
    List.Forall₂ (fun a b => f a = some b) l l' := by
  induction l generalizing l' with
  | nil =>
      cases h
      exact .nil
  | cons a l ih =>
      rw [List.mapM_cons] at h
      obtain ⟨b, hb, h⟩ := Option.bind_eq_some_iff.mp h
      obtain ⟨l₁, hl, h⟩ := Option.bind_eq_some_iff.mp h
      cases h
      exact .cons hb (ih hl)

theorem mapM_some_mem (h : l.mapM f = some l') :
    (∀ a ∈ l, ∃ b ∈ l', f a = some b) ∧ ∀ b ∈ l', ∃ a ∈ l, f a = some b :=
  exists_of_forall₂ (mapM_some_forall₂ h)

/-- What an image says of its element carries over to the lists. -/
theorem mapM_some_map {g : α → γ} {g' : β → γ} (hg : ∀ a b, f a = some b → g' b = g a)
    (h : l.mapM f = some l') : l'.map g' = l.map g :=
  map_eq_map_of_forall₂ ((mapM_some_forall₂ h).imp hg)

/-! ## When there is a result -/

theorem mapM_eq_map {g : α → β} (h : ∀ a ∈ l, f a = some (g a)) :
    l.mapM f = some (l.map g) := by
  induction l with
  | nil => rfl
  | cons a l ih =>
      obtain ⟨ha, hl⟩ := List.forall_mem_cons.mp h
      rw [List.mapM_cons, ha, ih hl]
      rfl

theorem exists_mapM_forall₂ {R : α → β → Prop} (h : ∀ a ∈ l, ∃ b, f a = some b ∧ R a b) :
    ∃ l', l.mapM f = some l' ∧ List.Forall₂ R l l' := by
  induction l with
  | nil => exact ⟨[], rfl, .nil⟩
  | cons a l ih =>
      obtain ⟨⟨b, hb, hR⟩, hl⟩ := List.forall_mem_cons.mp h
      obtain ⟨l', hl', hRs⟩ := ih hl
      refine ⟨b :: l', ?_, .cons hR hRs⟩
      rw [List.mapM_cons, hb, hl']
      rfl

theorem exists_mapM_all {P : β → Prop} (h : ∀ a ∈ l, ∃ b, f a = some b ∧ P b) :
    ∃ l', l.mapM f = some l' ∧ ∀ b ∈ l', P b := by
  obtain ⟨l', hl', hP⟩ := exists_mapM_forall₂ h
  refine ⟨l', hl', fun b hb => ?_⟩
  obtain ⟨_, _, hb⟩ := (exists_of_forall₂ hP).2 b hb
  exact hb

theorem exists_mapM (h : ∀ a ∈ l, ∃ b, f a = some b) : ∃ l', l.mapM f = some l' := by
  obtain ⟨l', hl', -⟩ := exists_mapM_forall₂ fun a ha => (h a ha).imp fun _ hb => ⟨hb, trivial⟩
  exact ⟨l', hl'⟩

end DragonDevice.Lib
