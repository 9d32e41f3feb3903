/-
  Lib/Scanf.lean --- lists stripped at both ends, and `sscanf` with the directives it needs.

  A format is a list of directives: white space, a character, and a conversion that takes
  the longest part whose characters meet a test and fails when that part is empty.  The
  result is the list of the conversions before the first failure.
-/
import Mathlib.Data.List.DropRight

set_option autoImplicit false

namespace DragonDevice.Lib

universe u

variable {α : Type u} {p : α → Bool}

/-! ## Ends of a list -/

/-- The first element, if there is one, fails the test. -/
def HeadNot (p : α → Bool) (l : List α) : Prop := ∀ a, l.head? = some a → p a = false

/-- The last element, if there is one, fails the test. -/
def LastNot (p : α → Bool) (l : List α) : Prop := ∀ a, l.getLast? = some a → p a = false

theorem headNot_iff_all {l : List α} : HeadNot p l ↔ (l.head?.all fun a => !p a) = true := by
  unfold HeadNot
  cases l.head? with
  | none => exact iff_of_true (fun a ha => nomatch ha) rfl
  | some b => simp

theorem lastNot_iff_all {l : List α} : LastNot p l ↔ (l.getLast?.all fun a => !p a) = true := by
  unfold LastNot
  cases l.getLast? with
  | none => exact iff_of_true (fun a ha => nomatch ha) rfl
  | some b => simp

instance (l : List α) : Decidable (HeadNot p l) := decidable_of_iff' _ headNot_iff_all

instance (l : List α) : Decidable (LastNot p l) := decidable_of_iff' _ lastNot_iff_all

theorem headNot_nil : HeadNot p [] := fun _ h => nomatch h

theorem headNot_cons {a : α} {l : List α} : HeadNot p (a :: l) ↔ p a = false :=
  ⟨fun h => h a rfl, fun h _ ha => Option.some.inj ha ▸ h⟩

theorem HeadNot.append {l l' : List α} (h : HeadNot p l) (hne : l ≠ []) : HeadNot p (l ++ l') := by
  obtain ⟨a, l, rfl⟩ := List.exists_cons_of_ne_nil hne
  exact h

theorem lastNot_concat {a : α} {l : List α} : LastNot p (l ++ [a]) ↔ p a = false := by
  unfold LastNot
  rw [List.getLast?_concat]
  exact ⟨fun h => h a rfl, fun h _ ha => Option.some.inj ha ▸ h⟩

theorem LastNot.append {l l' : List α} (h : LastNot p l') (hne : l' ≠ []) :
    LastNot p (l ++ l') := by
  intro a ha
  rw [List.getLast?_append_of_ne_nil _ hne] at ha
  exact h a ha

theorem HeadNot.takeWhile {l : List α} (h : HeadNot p l) : l.takeWhile p = [] := by
  cases l with
  | nil => rfl
  | cons a l => rw [List.takeWhile_cons, headNot_cons.mp h]; rfl

theorem HeadNot.dropWhile {l : List α} (h : HeadNot p l) : l.dropWhile p = l := by
  cases l with
  | nil => rfl
  | cons a l => rw [List.dropWhile_cons, headNot_cons.mp h]; rfl

theorem takeWhile_part {part rest : List α} (h : ∀ a ∈ part, p a = true) (hrest : HeadNot p rest) :
    (part ++ rest).takeWhile p = part := by
  rw [List.takeWhile_append_of_pos h, hrest.takeWhile, List.append_nil]

theorem dropWhile_part {part rest : List α} (h : ∀ a ∈ part, p a = true) (hrest : HeadNot p rest) :
    (part ++ rest).dropWhile p = rest := by
  rw [List.dropWhile_append_of_pos h, hrest.dropWhile]

theorem LastNot.rdropWhile {l : List α} (h : LastNot p l) : l.rdropWhile p = l := by
  rw [List.rdropWhile_eq_self_iff]
  intro hne
  rw [h _ (List.getLast?_eq_getLast_of_ne_nil hne)]
  exact Bool.false_ne_true

theorem rdropWhile_part {part rest : List α} (h : ∀ a ∈ part, p a = true) (hrest : LastNot p rest) :
    (rest ++ part).rdropWhile p = rest := by
  induction part using List.reverseRecOn with
  | nil => rw [List.append_nil, hrest.rdropWhile]
  | append_singleton part a ih =>
      rw [← List.append_assoc, List.rdropWhile_concat_pos p _ _ (h a (by simp))]
      exact ih fun b hb => h b (List.mem_append_left _ hb)

/-! ## Stripping -/

/-- What is left between elements at either end that meet the test. -/
def strip (p : α → Bool) (l : List α) : List α := (l.dropWhile p).rdropWhile p

theorem strip_pad {before core after : List α} (hbefore : ∀ a ∈ before, p a = true)
    (hafter : ∀ a ∈ after, p a = true) (hhead : HeadNot p core) (hlast : LastNot p core) :
    strip p (before ++ (core ++ after)) = core := by
  unfold strip
  cases core with
  | nil =>
      rw [List.nil_append, List.dropWhile_append_of_pos hbefore, List.rdropWhile_eq_nil_iff]
      intro a ha
      exact hafter a (List.dropWhile_suffix p |>.subset ha)
  | cons a core =>
      rw [dropWhile_part hbefore (hhead.append (List.cons_ne_nil a core)),
        rdropWhile_part hafter hlast]

theorem strip_self {l : List α} (hhead : HeadNot p l) (hlast : LastNot p l) : strip p l = l := by
  unfold strip
  rw [hhead.dropWhile, hlast.rdropWhile]

/-! ## Formats -/

inductive Directive (α : Type u) where
  | space
  | lit (a : α)
  | scan (p : α → Bool)

/-- The conversions that `sscanf` assigns. -/
def sscanf [DecidableEq α] (isSpace : α → Bool) : List (Directive α) → List α → List (List α)
  | [], _ => []
  | .space :: format, l => sscanf isSpace format (l.dropWhile isSpace)
  | .lit _ :: _, [] => []
  | .lit a :: format, b :: l => if b = a then sscanf isSpace format l else []
  | .scan p :: format, l =>
      if (l.takeWhile p).isEmpty then []
      else l.takeWhile p :: sscanf isSpace format (l.dropWhile p)

section Sscanf

variable [DecidableEq α] {isSpace : α → Bool} {format : List (Directive α)}

theorem sscanf_space {blank rest : List α} (hblank : ∀ a ∈ blank, isSpace a = true)
    (hrest : HeadNot isSpace rest) :
    sscanf isSpace (.space :: format) (blank ++ rest) = sscanf isSpace format rest := by
  rw [sscanf, dropWhile_part hblank hrest]

theorem sscanf_lit (a : α) (l : List α) :
    sscanf isSpace (.lit a :: format) (a :: l) = sscanf isSpace format l := by
  rw [sscanf, if_pos rfl]

theorem sscanf_lit_ne {a : α} {l : List α} (h : HeadNot (· == a) l) :
    sscanf isSpace (.lit a :: format) l = [] := by
  cases l with
  | nil => rfl
  | cons b l =>
      rw [sscanf, if_neg]
      intro heq
      have hne := headNot_cons.mp h
      rw [heq] at hne
      simp at hne

theorem sscanf_scan {part rest : List α} (hne : part ≠ []) (hpart : ∀ a ∈ part, p a = true)
    (hrest : HeadNot p rest) :
    sscanf isSpace (.scan p :: format) (part ++ rest) = part :: sscanf isSpace format rest := by
  rw [sscanf, takeWhile_part hpart hrest, dropWhile_part hpart hrest, if_neg]
  rw [List.isEmpty_iff]
  exact hne

theorem sscanf_scan_fails {l : List α} (h : HeadNot p l) :
    sscanf isSpace (.scan p :: format) l = [] := by
  rw [sscanf, h.takeWhile]
  rfl

end Sscanf

end DragonDevice.Lib
