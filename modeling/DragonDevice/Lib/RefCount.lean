/-
  Lib/RefCount.lean --- reference counts beside a list of holders.

  A holder has some number of references to each resource; the counts are in step with the
  list when each is the number of references its holders have together.  `acquire` and
  `release` move one count, and the rules say what may happen to the list meanwhile.
-/
import Mathlib.Logic.Function.Basic

set_option autoImplicit false

namespace DragonDevice.Lib

universe u v

variable {α : Type u} {κ : Type v}

section Moves

variable [DecidableEq κ]

/-- The references that an optional reference makes. -/
def refs (o : Option κ) (k : κ) : Nat := if o = some k then 1 else 0

@[simp] theorem refs_none (k : κ) : refs none k = 0 := rfl

/-- One more reference, if any. -/
def acquire (cnt : κ → Nat) : Option κ → κ → Nat
  | none => cnt
  | some k => Function.update cnt k (cnt k + 1)

/-- One reference less, if any; a count of zero stays. -/
def release (cnt : κ → Nat) : Option κ → κ → Nat
  | none => cnt
  | some k => Function.update cnt k (cnt k - 1)

@[simp] theorem acquire_none (cnt : κ → Nat) : acquire cnt none = cnt := rfl

@[simp] theorem release_none (cnt : κ → Nat) : release cnt none = cnt := rfl

theorem acquire_apply (cnt : κ → Nat) (o : Option κ) (k : κ) :
    acquire cnt o k = cnt k + refs o k := by
  cases o with
  | none => rfl
  | some k' =>
      by_cases hk : k' = k
      · subst hk
        simp [acquire, refs]
      · simp [acquire, refs, hk, Function.update_of_ne (Ne.symm hk)]

theorem release_apply (cnt : κ → Nat) (o : Option κ) (k : κ) :
    release cnt o k = cnt k - refs o k := by
  cases o with
  | none => rfl
  | some k' =>
      by_cases hk : k' = k
      · subst hk
        simp [release, refs]
      · simp [release, refs, hk, Function.update_of_ne (Ne.symm hk)]

/-- A reference that was acquired is released. -/
theorem release_acquire (cnt : κ → Nat) (o : Option κ) : release (acquire cnt o) o = cnt := by
  funext k
  rw [release_apply, acquire_apply, Nat.add_sub_cancel]

end Moves

/-! ## Counts in step with the holders -/

/-- The references of a list of holders. -/
def totalRefs (held : α → κ → Nat) : List α → κ → Nat
  | [], _ => 0
  | a :: l, k => held a k + totalRefs held l k

theorem totalRefs_append (held : α → κ → Nat) (l₁ l₂ : List α) (k : κ) :
    totalRefs held (l₁ ++ l₂) k = totalRefs held l₁ k + totalRefs held l₂ k := by
  induction l₁ with
  | nil => exact (Nat.zero_add _).symm
  | cons a l₁ ih =>
      show held a k + totalRefs held (l₁ ++ l₂) k =
        held a k + totalRefs held l₁ k + totalRefs held l₂ k
      rw [ih, Nat.add_assoc]

/-- The counts are the references of the holders. -/
def Counts (held : α → κ → Nat) (cnt : κ → Nat) (l : List α) : Prop :=
  ∀ k, cnt k = totalRefs held l k

section Rules

variable {held : α → κ → Nat} {cnt cnt' : κ → Nat} {before after : List α} {a a' : α}

/-- The references around one holder. -/
theorem totalRefs_middle (k : κ) :
    totalRefs held (before ++ a :: after) k =
      totalRefs held before k + held a k + totalRefs held after k := by
  rw [totalRefs_append]
  show _ + (held a k + totalRefs held after k) = _
  omega

/-- A holder gives up its references for others. -/
theorem Counts.replace (h : Counts held cnt (before ++ a :: after))
    (hcnt : ∀ k, cnt' k = cnt k - held a k + held a' k) :
    Counts held cnt' (before ++ a' :: after) := by
  intro k
  have hk := h k
  rw [totalRefs_middle] at hk
  rw [totalRefs_middle, hcnt k]
  omega

/-- A holder leaves. -/
theorem Counts.remove (h : Counts held cnt (before ++ a :: after))
    (hcnt : ∀ k, cnt' k = cnt k - held a k) : Counts held cnt' (before ++ after) := by
  intro k
  have hk := h k
  rw [totalRefs_middle] at hk
  rw [totalRefs_append, hcnt k]
  omega

/-- A holder without references joins. -/
theorem Counts.add {l : List α} (h : Counts held cnt l) (ha : ∀ k, held a k = 0) :
    Counts held cnt (l ++ [a]) := by
  intro k
  rw [totalRefs_append, h k]
  show _ = _ + (held a k + 0)
  rw [ha k]
  rfl

end Rules

end DragonDevice.Lib
