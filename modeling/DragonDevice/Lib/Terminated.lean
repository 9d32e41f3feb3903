/-
  Lib/Terminated.lean --- a list as pieces that end with a terminator.

  The last piece may be cut off before its terminator.
-/
import Mathlib.Data.List.Basic

set_option autoImplicit false

namespace DragonDevice.Lib

variable {α : Type} {stop : α}

/-- The elements up to the first terminator, if there is one. -/
def upTo [DecidableEq α] (stop : α) : List α → Option (List α)
  | [] => none
  | a :: rest => if a = stop then some [] else (upTo stop rest).map (a :: ·)

/-- The pieces, without their terminators. -/
def pieces [DecidableEq α] (stop : α) : List α → List (List α)
  | [] => []
  | a :: rest =>
      if a = stop then [] :: pieces stop rest
      else
        match pieces stop rest with
        | [] => [[a]]
        | piece :: others => (a :: piece) :: others

theorem upTo_append [DecidableEq α] {piece : List α} (h : stop ∉ piece) (rest : List α) :
    upTo stop (piece ++ stop :: rest) = some piece := by
  induction piece with
  | nil => rw [List.nil_append, upTo, if_pos rfl]
  | cons a piece ih =>
      rw [List.mem_cons, not_or] at h
      rw [List.cons_append, upTo, if_neg (Ne.symm h.1), ih h.2, Option.map_some]

theorem upTo_eq_none [DecidableEq α] {l : List α} (h : stop ∉ l) : upTo stop l = none := by
  induction l with
  | nil => rfl
  | cons a l ih =>
      rw [List.mem_cons, not_or] at h
      rw [upTo, if_neg (Ne.symm h.1), ih h.2, Option.map_none]

theorem upTo_spec [DecidableEq α] (stop : α) (l : List α) :
    (upTo stop l = none ∧ stop ∉ l) ∨
      ∃ piece rest, upTo stop l = some piece ∧ l = piece ++ stop :: rest ∧ stop ∉ piece := by
  induction l with
  | nil => exact Or.inl ⟨rfl, List.not_mem_nil⟩
  | cons a l ih =>
      rw [upTo]
      by_cases ha : a = stop
      · rw [if_pos ha]
        exact Or.inr ⟨[], l, rfl, by rw [ha]; rfl, List.not_mem_nil⟩
      · rw [if_neg ha]
        rcases ih with ⟨hnone, hl⟩ | ⟨piece, rest, hsome, hl, hpiece⟩
        · refine Or.inl ⟨by rw [hnone]; rfl, ?_⟩
          rw [List.mem_cons, not_or]
          exact ⟨Ne.symm ha, hl⟩
        · refine Or.inr ⟨a :: piece, rest, by rw [hsome]; rfl, by rw [hl]; rfl, ?_⟩
          rw [List.mem_cons, not_or]
          exact ⟨Ne.symm ha, hpiece⟩

/-- Pieces with their terminators. -/
def terminate (stop : α) (ps : List (List α)) : List α := ps.flatMap (· ++ [stop])

theorem terminate_cons (piece : List α) (ps : List (List α)) :
    terminate stop (piece :: ps) = piece ++ stop :: terminate stop ps := by
  rw [terminate, List.flatMap_cons, List.append_assoc]
  rfl

/-- Every list is pieces with their terminators, and one that was cut off. -/
theorem exists_pieces [DecidableEq α] (stop : α) (l : List α) :
    ∃ ps rest, l = terminate stop ps ++ rest ∧
    (∀ piece ∈ ps, stop ∉ piece) ∧ stop ∉ rest ∧
    pieces stop l = ps ++ (if rest = [] then [] else [rest]) := by
  induction l with
  | nil => exact ⟨[], [], rfl, by simp, by simp, rfl⟩
  | cons a l ih =>
      obtain ⟨ps, rest, hl, hps, hrest, hpieces⟩ := ih
      by_cases ha : a = stop
      · refine ⟨[] :: ps, rest, ?_, List.forall_mem_cons.mpr ⟨by simp, hps⟩, hrest, ?_⟩
        · rw [terminate_cons, hl, ha]
          rfl
        · rw [pieces, if_pos ha, hpieces]
          rfl
      · rw [pieces, if_neg ha, hpieces]
        cases ps with
        | nil =>
            refine ⟨[], a :: rest, by rw [hl]; rfl, by simp, ?_, ?_⟩
            · rw [List.mem_cons, not_or]
              exact ⟨Ne.symm ha, hrest⟩
            · by_cases hnil : rest = []
              · simp [hnil]
              · simp [hnil]
        | cons piece ps =>
            obtain ⟨hpiece, hps⟩ := List.forall_mem_cons.mp hps
            refine ⟨(a :: piece) :: ps, rest, ?_, List.forall_mem_cons.mpr ⟨?_, hps⟩, hrest, rfl⟩
            · rw [hl, terminate_cons, terminate_cons]
              rfl
            · rw [List.mem_cons, not_or]
              exact ⟨Ne.symm ha, hpiece⟩

/-- The last piece is cut off when the list does not end with a terminator. -/
theorem getLast?_pieces (ps : List (List α)) {rest : List α} (hrest : stop ∉ rest)
    (hne : terminate stop ps ++ rest ≠ []) :
    (terminate stop ps ++ rest).getLast? = some stop ↔ rest = [] := by
  constructor
  · intro hlast
    by_contra hnil
    rw [List.getLast?_append_of_ne_nil _ hnil] at hlast
    exact hrest (List.mem_of_getLast? hlast)
  · intro hnil
    subst hnil
    rw [List.append_nil] at hne ⊢
    cases hps : ps.getLast? with
    | none =>
        rw [List.getLast?_eq_none_iff.mp hps] at hne
        exact absurd rfl hne
    | some piece =>
        obtain ⟨front, rfl⟩ := List.getLast?_eq_some_iff.mp hps
        rw [terminate, List.flatMap_append, List.flatMap_singleton, ← List.append_assoc,
          List.getLast?_concat]

end DragonDevice.Lib
