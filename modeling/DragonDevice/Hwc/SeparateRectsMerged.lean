/-
  Hwc/SeparateRectsMerged.lean --- the sweep does not cut a rectangle that it need not cut.

  Two outputs of one index set never share a whole edge.  One above the other they would be
  two strips of one line with no edge between them.  Side by side the left one would have been
  closed at a line where its strip is still there.
-/
import DragonDevice.Hwc.SeparateRectsCorrect

set_option autoImplicit false

namespace DragonDevice.Hwc

open DragonDevice.Lib

variable {TNum : Type} [LinearOrder TNum] {rects : List (Rect TNum)}

/-- The rectangles share a whole edge: the first is right above the second, or right before
it. -/
def Rect.SharesEdge (a b : Rect TNum) : Prop :=
  (a.left = b.left ∧ a.right = b.right ∧ a.bottom = b.top) ∨
    (a.top = b.top ∧ a.bottom = b.bottom ∧ a.right = b.left)

/-! ## One above the other -/

/-- Two neighbouring strips of a line have different sets: an edge lies between them. -/
theorem Strip.ne_of_touch {x top mid bottom : TNum} {s s' : IdSet}
    (habove : Strip rects x top mid s) (hbelow : Strip rects x mid bottom s') : s ≠ s' := by
  intro heq
  subst heq
  obtain ⟨r, hr, hcross, hedge⟩ := hbelow.top_edge
  obtain ⟨i, hi⟩ := List.mem_iff_getElem?.mp hr
  have hsame : Covers rects x top i ↔ Covers rects x mid i :=
    (habove.mem_iff i).symm.trans (hbelow.mem_iff i)
  rw [covers_iff_crosses, covers_iff_crosses] at hsame
  cases hedge with
  | inl htop =>
      -- the rectangle begins between them
      subst htop
      obtain ⟨r', hr', _, hle, _⟩ := hsame.mpr ⟨r, hi, hcross, le_refl _, hcross.1.2⟩
      rw [hi] at hr'
      cases hr'
      exact absurd habove.top_lt_bottom (not_lt.mpr hle)
  | inr hbottom =>
      -- the rectangle ends between them, and begins at or above the upper strip
      subst hbottom
      have hle : r.top ≤ top := by
        cases habove.gap r.top ⟨r, hr, hcross, Or.inl rfl⟩ with
        | inl h => exact h
        | inr h => exact absurd hcross.1.2 (not_lt.mpr h)
      obtain ⟨r', hr', _, _, hlt⟩ := hsame.mp ⟨r, hi, hcross, hle, habove.top_lt_bottom⟩
      rw [hi] at hr'
      cases hr'
      exact lt_irrefl _ hlt

/-! ## Side by side -/

/-- Every finished rectangle ends where its strip is gone. -/
def Ended (rects : List (Rect TNum)) (out : List (RectSet TNum)) : Prop :=
  ∀ o ∈ out, ¬ Strip rects o.rect.right o.rect.top o.rect.bottom o.idSet

/-- A stop only closes rectangles whose strip is gone. -/
theorem Ended.sweepLine {x : TNum} {st st' : SweepState TNum}
    {closed : List (StartedRect TNum)} (h : Ended rects st.out)
    (hstep : LineStep rects x st st' closed) : Ended rects st'.out := by
  intro o ho
  rw [hstep.out, List.mem_append] at ho
  cases ho with
  | inl hold => exact h o hold
  | inr hnew =>
      obtain ⟨k, hk, rfl⟩ := List.mem_map.mp hnew
      exact ((hstep.closed_iff k).mp hk).2

/-! ## No shared edges -/

theorem Tracks.not_sharesEdge {st : SweepState TNum} (h : Tracks rects (fun _ => True) st)
    (hended : Ended rects st.out) {a b : RectSet TNum} (ha : a ∈ st.out) (hb : b ∈ st.out)
    (hid : a.idSet = b.idSet) : ¬ a.rect.SharesEdge b.rect := by
  have hbegins := ((h.finished b hb).2 b.rect.left (le_refl _) (h.finished b hb).1).2
  intro hshares
  cases hshares with
  | inl habove =>
      obtain ⟨hleft, _, htouch⟩ := habove
      have hfirst := ((h.finished a ha).2 a.rect.left (le_refl _) (h.finished a ha).1).2
      rw [hleft, htouch] at hfirst
      exact hfirst.ne_of_touch hbegins hid
  | inr hbefore =>
      obtain ⟨htop, hbottom, htouch⟩ := hbefore
      refine hended a ha ?_
      rw [htouch, htop, hbottom, hid]
      exact hbegins

/-- No two outputs of `separate_rects_64` of one index set share a whole edge. -/
theorem separateRects64_not_fragmented (rects : List (Rect Int)) (hlen : rects.length ≤ 64) :
    ∃ out, separateRects64 rects [] = some out ∧
      ∀ a ∈ out, ∀ b ∈ out, a.idSet = b.idSet → ¬ a.rect.SharesEdge b.rect := by
  obtain ⟨st, hst, htracks, hended⟩ := separateRects_induct hlen
    (I := fun D st => Tracks rects D st ∧ Ended rects st.out)
    (fun _ _ vEvents h => ⟨h.1.withLine vEvents, h.2⟩)
    (fun _ _ _ _ _ h hstep hbelow hx hconst =>
      ⟨h.1.sweepLine hstep hbelow hx hconst, h.2.sweepLine hstep⟩)
    ⟨tracks_init, List.forall_mem_nil _⟩
  exact ⟨st.out, hst, fun a ha b hb hid => htracks.not_sharesEdge hended ha hb hid⟩

/-- Two equal rectangles side by side stay two, as their sets differ. -/
theorem separateRects64_not_fragmented_pair :
    ([⟨0, 0, 4, 5⟩, ⟨4, 0, 6, 5⟩] : List (Rect Int)).length ≤ 64 ∧
    ∃ out, separateRects64 [⟨0, 0, 4, 5⟩, ⟨4, 0, 6, 5⟩] [] = some out ∧
      ∀ a ∈ out, ∀ b ∈ out, a.idSet = b.idSet → ¬ a.rect.SharesEdge b.rect :=
  ⟨by decide, separateRects64_not_fragmented _ (by decide)⟩

end DragonDevice.Hwc
