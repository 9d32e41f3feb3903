/-
  Hwc/CrossSection.lean --- what a vertical line meets in a list of rectangles.

  The line at `x` is cut by the top and bottom edges of the rectangles over it
  into strips; on a strip the set of rectangles is constant.  This is the meaning
  of the sweep's `active_regions`, stated without the sweep: the strips at `x`
  are a property of the rectangles alone.
-/
import DragonDevice.Hwc.SeparateRects
import Mathlib.Data.Finset.Max

set_option autoImplicit false

namespace DragonDevice.Hwc

variable {TNum : Type} [LinearOrder TNum]

namespace Rect

/-- Neither empty nor inverted. -/
def Nonempty (r : Rect TNum) : Prop := r.left < r.right ∧ r.top < r.bottom

/-- The point lies in the half-open rectangle. -/
def Contains (r : Rect TNum) (x y : TNum) : Prop :=
  (r.left ≤ x ∧ x < r.right) ∧ (r.top ≤ y ∧ y < r.bottom)

instance (r : Rect TNum) (x y : TNum) : Decidable (r.Contains x y) :=
  inferInstanceAs (Decidable (_ ∧ _))

theorem Contains.nonempty {r : Rect TNum} {x y : TNum} (h : r.Contains x y) :
    r.Nonempty :=
  ⟨lt_of_le_of_lt h.1.1 h.1.2, lt_of_le_of_lt h.2.1 h.2.2⟩

theorem Nonempty.contains_corner {r : Rect TNum} (h : r.Nonempty) :
    r.Contains r.left r.top :=
  ⟨⟨le_refl _, h.1⟩, ⟨le_refl _, h.2⟩⟩

/-- No point lies in both. -/
def Disjoint (a b : Rect TNum) : Prop :=
  ∀ x y, a.Contains x y → ¬ b.Contains x y

end Rect

/-- The rectangle of index `i` is there and contains the point. -/
def Covers (rects : List (Rect TNum)) (x y : TNum) (i : Nat) : Prop :=
  ∃ r, rects[i]? = some r ∧ r.Contains x y

/-- The rectangle is not empty and the vertical line at `x` crosses it. -/
def Crosses (x : TNum) (r : Rect TNum) : Prop :=
  r.Nonempty ∧ r.left ≤ x ∧ x < r.right

/-- `y` is the top or bottom edge of a rectangle that the line at `x` crosses. -/
def IsEdge (rects : List (Rect TNum)) (x y : TNum) : Prop :=
  ∃ r ∈ rects, Crosses x r ∧ (y = r.top ∨ y = r.bottom)

/-- `[top, bottom)` is a strip of the line at `x`: it lies between neighbouring
edges, and `idSet` is the non-empty set of the rectangles over it. -/
structure Strip (rects : List (Rect TNum)) (x top bottom : TNum) (idSet : IdSet) :
    Prop where
  top_edge : IsEdge rects x top
  bottom_edge : IsEdge rects x bottom
  top_lt_bottom : top < bottom
  gap : ∀ y, IsEdge rects x y → y ≤ top ∨ bottom ≤ y
  occupied : idSet.isEmpty = false
  mem_iff : ∀ i, idSet.Mem i ↔ Covers rects x top i

variable {rects : List (Rect TNum)}

theorem covers_iff_crosses {x y : TNum} {i : Nat} :
    Covers rects x y i ↔
      ∃ r, rects[i]? = some r ∧ Crosses x r ∧ r.top ≤ y ∧ y < r.bottom := by
  constructor
  · rintro ⟨r, hr, h⟩
    exact ⟨r, hr, ⟨h.nonempty, h.1⟩, h.2⟩
  · rintro ⟨r, hr, ⟨_, hx⟩, hy⟩
    exact ⟨r, hr, hx, hy⟩

namespace Strip

/-- The set of a strip is the set over each of its points. -/
theorem mem_iff_covers {x top bottom y : TNum} {s : IdSet}
    (h : Strip rects x top bottom s) (htop : top ≤ y) (hbottom : y < bottom)
    (i : Nat) : s.Mem i ↔ Covers rects x y i := by
  rw [h.mem_iff, covers_iff_crosses, covers_iff_crosses]
  -- an edge of `r` never falls inside the gap, so `top` and `y` see it alike
  have hside : ∀ r, rects[i]? = some r → Crosses x r →
      ((r.top ≤ top ∧ top < r.bottom) ↔ (r.top ≤ y ∧ y < r.bottom)) := by
    intro r hr hx
    have hmem : r ∈ rects := List.mem_of_getElem? hr
    have h1 := h.gap r.top ⟨r, hmem, hx, Or.inl rfl⟩
    have h2 := h.gap r.bottom ⟨r, hmem, hx, Or.inr rfl⟩
    grind
  constructor
  · rintro ⟨r, hr, hx, hy⟩
    exact ⟨r, hr, hx, (hside r hr hx).mp hy⟩
  · rintro ⟨r, hr, hx, hy⟩
    exact ⟨r, hr, hx, (hside r hr hx).mpr hy⟩

/-- Two strips of one line that share a point are the same strip. -/
theorem unique {x y t₁ b₁ t₂ b₂ : TNum} {s₁ s₂ : IdSet}
    (h₁ : Strip rects x t₁ b₁ s₁) (h₂ : Strip rects x t₂ b₂ s₂)
    (hy₁ : t₁ ≤ y ∧ y < b₁) (hy₂ : t₂ ≤ y ∧ y < b₂) :
    t₁ = t₂ ∧ b₁ = b₂ ∧ s₁ = s₂ := by
  have ht : t₁ = t₂ := by
    have h12 := h₁.gap t₂ h₂.top_edge
    have h21 := h₂.gap t₁ h₁.top_edge
    grind
  have hb : b₁ = b₂ := by
    have h12 := h₁.gap b₂ h₂.bottom_edge
    have h21 := h₂.gap b₁ h₁.bottom_edge
    grind
  refine ⟨ht, hb, IdSet.ext_mem fun i => ?_⟩
  rw [h₁.mem_iff, h₂.mem_iff, ht]

end Strip

/-- The edges of the line at `x`, in no particular order. -/
def edges [DecidableLT TNum] (rects : List (Rect TNum)) (x : TNum) : List TNum :=
  (rects.filter fun r =>
    decide ((r.left < r.right ∧ r.top < r.bottom) ∧ r.left ≤ x ∧ x < r.right)).flatMap
      fun r => [r.top, r.bottom]

theorem mem_edges_iff {x y : TNum} : y ∈ edges rects x ↔ IsEdge rects x y := by
  simp [edges, IsEdge, Crosses, Rect.Nonempty, and_assoc]

/-- The indices of the rectangles over a point fit into an `IdSet`. -/
theorem exists_idSet_of_covers {x y : TNum} (hlen : rects.length ≤ 64) :
    ∃ s : IdSet, ∀ i, s.Mem i ↔ Covers rects x y i := by
  classical
  let bits : List Bool := List.ofFn fun i : Fin 64 => decide (Covers rects x y i)
  have hbits : bits.length = 64 := List.length_ofFn
  refine ⟨⟨(BitVec.ofBoolListLE bits).cast hbits⟩, ?_⟩
  intro i
  by_cases hi : i < 64
  · rw [IdSet.Mem, BitVec.getLsbD_cast, BitVec.getLsbD_ofBoolListLE,
      List.getD_eq_getElem?_getD, List.getElem?_ofFn, dif_pos hi]
    exact decide_eq_true_iff
  · refine iff_of_false (fun h => hi (BitVec.lt_of_getLsbD h)) ?_
    rintro ⟨r, hr, _⟩
    obtain ⟨hlt, _⟩ := List.getElem?_eq_some_iff.mp hr
    omega

/-- Every covered point lies in a strip of its line. -/
theorem exists_strip_of_covers {x y : TNum} {i : Nat} (hlen : rects.length ≤ 64)
    (h : Covers rects x y i) :
    ∃ top bottom s, Strip rects x top bottom s ∧ top ≤ y ∧ y < bottom := by
  obtain ⟨r, hr, hcross, htop, hbottom⟩ := covers_iff_crosses.mp h
  have hmem : r ∈ rects := List.mem_of_getElem? hr
  have hbelow : ((edges rects x).toFinset.filter (· ≤ y)).Nonempty :=
    ⟨r.top, by simpa [mem_edges_iff] using ⟨⟨r, hmem, hcross, Or.inl rfl⟩, htop⟩⟩
  have habove : ((edges rects x).toFinset.filter (y < ·)).Nonempty :=
    ⟨r.bottom, by simpa [mem_edges_iff] using ⟨⟨r, hmem, hcross, Or.inr rfl⟩, hbottom⟩⟩
  obtain ⟨top, htopMem, htopMax⟩ := Finset.exists_max_image _ id hbelow
  obtain ⟨bottom, hbottomMem, hbottomMin⟩ := Finset.exists_min_image _ id habove
  simp only [Finset.mem_filter, List.mem_toFinset, mem_edges_iff, id, and_imp] at *
  have hgap : ∀ e, IsEdge rects x e → e ≤ top ∨ bottom ≤ e := by
    intro e he
    rcases le_or_gt e y with hle | hgt
    · exact Or.inl (htopMax e he hle)
    · exact Or.inr (hbottomMin e he hgt)
  obtain ⟨s, hs⟩ := exists_idSet_of_covers (x := x) (y := top) hlen
  refine ⟨top, bottom, s, ⟨htopMem.1, hbottomMem.1,
    lt_of_le_of_lt htopMem.2 hbottomMem.2, hgap, ?_, hs⟩, htopMem.2, hbottomMem.2⟩
  have hi : s.Mem i := by
    rw [hs, covers_iff_crosses]
    have hrBottom := hgap r.bottom ⟨r, hmem, hcross, Or.inr rfl⟩
    have hrTop := htopMax r.top ⟨r, hmem, hcross, Or.inl rfl⟩ htop
    exact ⟨r, hr, hcross, hrTop, by grind⟩
  cases hempty : s.isEmpty with
  | false => rfl
  | true => exact absurd hi (IdSet.isEmpty_iff.mp hempty i)

/-- The strips at two lines that cross the same rectangles are the same. -/
theorem strip_congr {x x' top bottom : TNum} {s : IdSet}
    (h : ∀ r ∈ rects, Crosses x r ↔ Crosses x' r)
    (hs : Strip rects x top bottom s) : Strip rects x' top bottom s := by
  have hedge : ∀ y, IsEdge rects x y ↔ IsEdge rects x' y := by
    intro y
    constructor
    · rintro ⟨r, hr, hc, hy⟩
      exact ⟨r, hr, (h r hr).mp hc, hy⟩
    · rintro ⟨r, hr, hc, hy⟩
      exact ⟨r, hr, (h r hr).mpr hc, hy⟩
  refine ⟨(hedge top).mp hs.top_edge, (hedge bottom).mp hs.bottom_edge,
    hs.top_lt_bottom, fun y hy => hs.gap y ((hedge y).mpr hy), hs.occupied, ?_⟩
  intro i
  rw [hs.mem_iff, covers_iff_crosses, covers_iff_crosses]
  constructor
  · rintro ⟨r, hr, hc, hy⟩
    exact ⟨r, hr, (h r (List.mem_of_getElem? hr)).mp hc, hy⟩
  · rintro ⟨r, hr, hc, hy⟩
    exact ⟨r, hr, (h r (List.mem_of_getElem? hr)).mpr hc, hy⟩

end DragonDevice.Hwc
