/-
  Lib/LongestPath.lean --- the heaviest path to a node of a graph with weights at its nodes.

  The heaviest path to a node goes through the predecessor with the heaviest one, so that a
  pass that comes to a node behind its predecessors finds it.
-/
import Mathlib.Order.Bounds.Basic

set_option autoImplicit false

namespace DragonDevice.Lib

variable {α : Type} {edge : α → α → Prop} {weight : α → Int}

/-- A path that ends at a node. -/
inductive PathTo (edge : α → α → Prop) : α → List α → Prop
  | start (a : α) : PathTo edge a [a]
  | step {a b : α} {path : List α} (h : PathTo edge b path) (hedge : edge b a) :
      PathTo edge a (path ++ [a])

/-- The weights of the nodes on a path, together. -/
def pathWeight (weight : α → Int) (path : List α) : Int :=
  path.foldl (fun total a => total + weight a) 0

theorem pathWeight_singleton (a : α) : pathWeight weight [a] = weight a := Int.zero_add _

theorem pathWeight_concat (path : List α) (a : α) :
    pathWeight weight (path ++ [a]) = pathWeight weight path + weight a := by
  rw [pathWeight, List.foldl_append]
  rfl

/-- The weights of the paths to a node. -/
def pathWeights (edge : α → α → Prop) (weight : α → Int) (a : α) : Set Int :=
  {total | ∃ path, PathTo edge a path ∧ pathWeight weight path = total}

/-- The greatest of the weights of the predecessors, or zero, with the node's own weight is the
greatest weight of a path to the node. -/
theorem isGreatest_pathWeights {a : α} {greatest : Int} (hnonneg : 0 ≤ greatest)
    (hbound : ∀ b, edge b a → ∃ total, IsGreatest (pathWeights edge weight b) total ∧
      total ≤ greatest)
    (hreached : greatest = 0 ∨ ∃ b, edge b a ∧ IsGreatest (pathWeights edge weight b) greatest) :
    IsGreatest (pathWeights edge weight a) (greatest + weight a) := by
  constructor
  · rcases hreached with hzero | ⟨b, hedge, hgreatest⟩
    · refine ⟨[a], PathTo.start a, ?_⟩
      rw [hzero, Int.zero_add, pathWeight_singleton]
    · obtain ⟨path, hpath, htotal⟩ := hgreatest.1
      refine ⟨path ++ [a], PathTo.step hpath hedge, ?_⟩
      rw [pathWeight_concat, htotal]
  · rintro total ⟨path, hpath, rfl⟩
    cases hpath with
    | start =>
        rw [pathWeight_singleton]
        omega
    | @step _ b path hpath hedge =>
        obtain ⟨total, hgreatest, hle⟩ := hbound b hedge
        have hpathle : pathWeight weight path ≤ total := hgreatest.2 ⟨path, hpath, rfl⟩
        rw [pathWeight_concat]
        omega

end DragonDevice.Lib
