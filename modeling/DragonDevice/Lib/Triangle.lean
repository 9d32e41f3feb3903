/-
  Lib/Triangle.lean --- interpolation over a triangle of the plane.

  A value given at the three corners is interpolated with the ratios of signed areas
  as weights.  Where the corners take their values from an affine function of the
  plane, every point does.
-/
import Mathlib.Algebra.Field.Basic
import Mathlib.Tactic.LinearCombination
import Mathlib.Tactic.Ring

set_option autoImplicit false

namespace DragonDevice.Lib

/-- A point of the plane. -/
@[ext]
structure Vec2 (F : Type) where
  x : F
  y : F
  deriving DecidableEq, Repr

variable {F : Type} [Field F]

/-- Twice the signed area of a triangle. -/
def signedArea (p q r : Vec2 F) : F :=
  (q.x - p.x) * (r.y - p.y) - (r.x - p.x) * (q.y - p.y)

/-- The value at `p`, from values at the corners. -/
def interpolate (p₀ p₁ p₂ : Vec2 F) (v₀ v₁ v₂ : F) (p : Vec2 F) : F :=
  (signedArea p p₁ p₂ * v₀ + signedArea p₀ p p₂ * v₁ + signedArea p₀ p₁ p * v₂) /
    signedArea p₀ p₁ p₂

/-! ## Affine functions -/

/-- An affine function of the plane. -/
def IsAffine (f : Vec2 F → F) : Prop :=
  ∃ a b c : F, ∀ p, f p = a + b * p.x + c * p.y

namespace IsAffine

variable {f g : Vec2 F → F}

theorem const (k : F) : IsAffine fun _ : Vec2 F => k :=
  ⟨k, 0, 0, fun p => by ring⟩

theorem x : IsAffine (F := F) Vec2.x :=
  ⟨0, 1, 0, fun p => by ring⟩

theorem y : IsAffine (F := F) Vec2.y :=
  ⟨0, 0, 1, fun p => by ring⟩

theorem add (hf : IsAffine f) (hg : IsAffine g) : IsAffine fun p => f p + g p := by
  obtain ⟨a, b, c, hf⟩ := hf
  obtain ⟨a', b', c', hg⟩ := hg
  exact ⟨a + a', b + b', c + c', fun p => by linear_combination hf p + hg p⟩

theorem mul_const (hf : IsAffine f) (k : F) : IsAffine fun p => f p * k := by
  obtain ⟨a, b, c, hf⟩ := hf
  exact ⟨a * k, b * k, c * k, fun p => by linear_combination k * hf p⟩

theorem sub (hf : IsAffine f) (hg : IsAffine g) : IsAffine fun p => f p - g p := by
  obtain ⟨a, b, c, hf⟩ := hf
  obtain ⟨a', b', c', hg⟩ := hg
  exact ⟨a - a', b - b', c - c', fun p => by linear_combination hf p - hg p⟩

theorem div_const (hf : IsAffine f) (k : F) : IsAffine fun p => f p / k := by
  simp only [div_eq_mul_inv]
  exact hf.mul_const k⁻¹

/-- An affine function is interpolated exactly, at every point of the plane. -/
theorem interpolate_eq (hf : IsAffine f) {p₀ p₁ p₂ : Vec2 F}
    (harea : signedArea p₀ p₁ p₂ ≠ 0) (p : Vec2 F) :
    interpolate p₀ p₁ p₂ (f p₀) (f p₁) (f p₂) p = f p := by
  obtain ⟨a, b, c, hf⟩ := hf
  rw [interpolate, div_eq_iff harea]
  simp only [signedArea, hf]
  ring

end IsAffine

end DragonDevice.Lib
