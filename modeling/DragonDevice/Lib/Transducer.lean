/-
  Lib/Transducer.lean --- a machine that answers each input with one output.

  A run over a list can be cut anywhere, as long as the state is handed on.  Machines are put
  one after the other, or side by side, and one can stand for another.
-/
import Mathlib.Data.List.Basic

set_option autoImplicit false

namespace DragonDevice.Lib

universe u v w

variable {σ : Type u} {α : Type v} {β : Type w} {step : σ → α → σ × β}

/-- The state after a list of inputs, and the outputs. -/
def transduce (step : σ → α → σ × β) (s : σ) : List α → σ × List β
  | [] => (s, [])
  | a :: rest =>
      ((transduce step (step s a).1 rest).1,
        (step s a).2 :: (transduce step (step s a).1 rest).2)

theorem length_transduce (s : σ) (l : List α) : (transduce step s l).2.length = l.length := by
  induction l generalizing s with
  | nil => rfl
  | cons a l ih => exact congrArg (· + 1) (ih (step s a).1)

theorem transduce_append (s : σ) (l l' : List α) :
    transduce step s (l ++ l') =
      ((transduce step (transduce step s l).1 l').1,
        (transduce step s l).2 ++ (transduce step (transduce step s l).1 l').2) := by
  induction l generalizing s with
  | nil => rfl
  | cons a l ih =>
      rw [List.cons_append, transduce, ih]
      rfl

/-- A run, cut after some inputs. -/
theorem transduce_split (k : Nat) (s : σ) (l : List α) :
    transduce step s l =
      ((transduce step (transduce step s (l.take k)).1 (l.drop k)).1,
        (transduce step s (l.take k)).2 ++
          (transduce step (transduce step s (l.take k)).1 (l.drop k)).2) := by
  rw [← transduce_append, List.take_append_drop]

/-! ## Blocks -/

section Blocks

variable {process : σ → List α → σ × List β}

/-- The blocks one after the other, with the outputs together. -/
def runBlocks (process : σ → List α → σ × List β) (s : σ) : List (List α) → σ × List β
  | [] => (s, [])
  | block :: rest =>
      ((runBlocks process (process s block).1 rest).1,
        (process s block).2 ++ (runBlocks process (process s block).1 rest).2)

/-- A machine does not see where a block ends. -/
theorem runBlocks_transduce (blocks : List (List α)) :
    ∀ s : σ, runBlocks (transduce step) s blocks = transduce step s blocks.flatten := by
  induction blocks with
  | nil => exact fun _ => rfl
  | cons block blocks ih =>
      intro s
      rw [runBlocks, ih, List.flatten_cons, transduce_append]

/-- A processor stands for another, in related states, as far as some part of each input and of
each output goes. -/
theorem runBlocks_map_simulates {τ γ δ : Type*} {process' : τ → List γ → τ × List δ}
    {f : α → γ} {g : β → δ} {R : σ → τ → Prop}
    (hprocess : ∀ s t block, R s t →
      R (process s block).1 (process' t (block.map f)).1 ∧
        (process s block).2.map g = (process' t (block.map f)).2)
    (blocks : List (List α)) : ∀ {s : σ} {t : τ}, R s t →
      R (runBlocks process s blocks).1 (runBlocks process' t (blocks.map (List.map f))).1 ∧
        (runBlocks process s blocks).2.map g =
          (runBlocks process' t (blocks.map (List.map f))).2 := by
  induction blocks with
  | nil => exact fun h => ⟨h, rfl⟩
  | cons block blocks ih =>
      intro s t h
      obtain ⟨hstate, houtput⟩ := hprocess s t block h
      obtain ⟨hrest, houtputs⟩ := ih hstate
      refine ⟨hrest, ?_⟩
      rw [runBlocks, List.map_append, houtput, houtputs]
      rfl

/-- A processor stands for another, in related states. -/
theorem runBlocks_simulates {τ : Type*} {process' : τ → List α → τ × List β}
    {R : σ → τ → Prop} (hprocess : ∀ s t block, R s t →
      R (process s block).1 (process' t block).1 ∧ (process s block).2 = (process' t block).2)
    (blocks : List (List α)) {s : σ} {t : τ} (h : R s t) :
      R (runBlocks process s blocks).1 (runBlocks process' t blocks).1 ∧
        (runBlocks process s blocks).2 = (runBlocks process' t blocks).2 := by
  have hmap : R (runBlocks process s blocks).1
        (runBlocks process' t (blocks.map (List.map id))).1 ∧
      (runBlocks process s blocks).2.map id =
        (runBlocks process' t (blocks.map (List.map id))).2 :=
    runBlocks_map_simulates (fun s t block hst => by
      rw [List.map_id, List.map_id]
      exact hprocess s t block hst) blocks h
  simpa using hmap

end Blocks

/-! ## Machines together -/

section Together

variable {τ : Type*}

/-- A machine stands for another, in related states, as far as some part of each input and of
each output goes. -/
theorem transduce_map_simulates {γ δ : Type*} {step' : τ → γ → τ × δ} {f : α → γ} {g : β → δ}
    {R : σ → τ → Prop}
    (hstep : ∀ s t a, R s t →
      R (step s a).1 (step' t (f a)).1 ∧ g (step s a).2 = (step' t (f a)).2)
    (l : List α) : ∀ {s : σ} {t : τ}, R s t →
      R (transduce step s l).1 (transduce step' t (l.map f)).1 ∧
        (transduce step s l).2.map g = (transduce step' t (l.map f)).2 := by
  induction l with
  | nil => exact fun h => ⟨h, rfl⟩
  | cons a l ih =>
      intro s t h
      obtain ⟨hstate, houtput⟩ := hstep s t a h
      obtain ⟨hrest, houtputs⟩ := ih hstate
      exact ⟨hrest, congrArg₂ List.cons houtput houtputs⟩

/-- A machine stands for another, in related states. -/
theorem transduce_simulates {step' : τ → α → τ × β} {R : σ → τ → Prop}
    (hstep : ∀ s t a, R s t → R (step s a).1 (step' t a).1 ∧ (step s a).2 = (step' t a).2)
    (l : List α) {s : σ} {t : τ} (h : R s t) :
      R (transduce step s l).1 (transduce step' t l).1 ∧
        (transduce step s l).2 = (transduce step' t l).2 := by
  have hmap : R (transduce step s l).1 (transduce step' t (l.map id)).1 ∧
      (transduce step s l).2.map id = (transduce step' t (l.map id)).2 :=
    transduce_map_simulates hstep l h
  simpa using hmap

/-- The machines get an input each. -/
def sideBySide {ι : Type*} (step : σ → α → σ × β) (s : ι → σ) (a : ι → α) : (ι → σ) × (ι → β) :=
  (fun i => (step (s i) (a i)).1, fun i => (step (s i) (a i)).2)

theorem transduce_sideBySide {ι : Type*} (step : σ → α → σ × β) (i : ι) (l : List (ι → α)) :
    ∀ s : ι → σ,
    (transduce (sideBySide step) s l).1 i = (transduce step (s i) (l.map (· i))).1 ∧
      (transduce (sideBySide step) s l).2.map (· i) =
        (transduce step (s i) (l.map (· i))).2 := by
  induction l with
  | nil => exact fun _ => ⟨rfl, rfl⟩
  | cons a l ih =>
      intro s
      obtain ⟨hstate, houtput⟩ := ih (sideBySide step s a).1
      exact ⟨hstate, congrArg (List.cons _) houtput⟩

end Together

/-! ## Machines in a row -/

section Row

variable {next : σ → α → σ × α}

/-- Each machine gets the whole output of the one before it. -/
def cascade (next : σ → α → σ × α) : List σ → List α → List σ × List α
  | [], l => ([], l)
  | s :: rest, l =>
      ((transduce next s l).1 :: (cascade next rest (transduce next s l).2).1,
        (cascade next rest (transduce next s l).2).2)

/-- The machines answer one input. -/
def rowStep (next : σ → α → σ × α) : List σ → α → List σ × α
  | [], a => ([], a)
  | s :: rest, a =>
      ((next s a).1 :: (rowStep next rest (next s a).2).1, (rowStep next rest (next s a).2).2)

theorem length_cascade (row : List σ) : ∀ l : List α,
    (cascade next row l).1.length = row.length := by
  induction row with
  | nil => exact fun _ => rfl
  | cons s row ih => exact fun l => congrArg (· + 1) (ih _)

theorem cascade_nil (row : List σ) : cascade next row [] = (row, []) := by
  induction row with
  | nil => rfl
  | cons s row ih =>
      rw [cascade, transduce, ih]

theorem transduce_rowStep_cons (l : List α) : ∀ (s : σ) (row : List σ),
    transduce (rowStep next) (s :: row) l =
      ((transduce next s l).1 :: (transduce (rowStep next) row (transduce next s l).2).1,
        (transduce (rowStep next) row (transduce next s l).2).2) := by
  induction l with
  | nil => exact fun _ _ => rfl
  | cons a l ih =>
      intro s row
      rw [transduce, rowStep, ih]
      rfl

/-- Whether each machine works on the whole list, or all work on each input, is the same. -/
theorem cascade_eq_transduce (row : List σ) : ∀ l : List α,
    cascade next row l = transduce (rowStep next) row l := by
  induction row with
  | nil =>
      intro l
      induction l with
      | nil => rfl
      | cons a l ih =>
          rw [transduce, rowStep, ← ih]
          rfl
  | cons s row ih =>
      intro l
      rw [transduce_rowStep_cons, ← ih]
      rfl

theorem cascade_append (row row' : List σ) : ∀ l : List α,
    cascade next (row ++ row') l =
      ((cascade next row l).1 ++ (cascade next row' (cascade next row l).2).1,
        (cascade next row' (cascade next row l).2).2) := by
  induction row with
  | nil => exact fun _ => rfl
  | cons s row ih =>
      intro l
      rw [List.cons_append, cascade, ih]
      rfl

/-- A row of machines does not see where a block ends. -/
theorem runBlocks_cascade (blocks : List (List α)) (row : List σ) :
    runBlocks (cascade next) row blocks = cascade next row blocks.flatten := by
  have hcascade : cascade next = transduce (rowStep next) :=
    funext fun row => funext (cascade_eq_transduce row)
  rw [hcascade, runBlocks_transduce]

end Row

end DragonDevice.Lib
