/-
  Hwc/SweepRegions.lean --- one stop of the sweep line.

  At a stop the vertical events hold the edges of the rectangles crossed there.
  The pass over them reads off the strips of the cross section (`ReadsLine`), the
  loop over the regions looks up exactly these strips, and what the stop does to
  the started rectangles follows (`LineStep`): those whose strip is gone are
  closed, the others go on, and the new strips are started.
-/
import DragonDevice.Hwc.CrossSection

set_option autoImplicit false

namespace DragonDevice.Hwc

open DragonDevice.Lib

variable {TNum : Type} [LinearOrder TNum] {rects : List (Rect TNum)}

/-! ## Reading the regions off the line -/

/-- `e` is the top or bottom edge of the rectangle. -/
def IsVEvent (r : Rect TNum) (e : SweepEvent TNum) : Prop :=
  e = ⟨.start, r.top, e.rectId⟩ ∨ e = ⟨.stop, r.bottom, e.rectId⟩

/-- The sweep line holds exactly the edges of the rectangles crossed at `x`. -/
def LineAt (rects : List (Rect TNum)) (x : TNum) (vEvents : List (SweepEvent TNum)) :
    Prop :=
  ∀ e, e ∈ vEvents ↔ ∃ r, rects[e.rectId]? = some r ∧ Crosses x r ∧ IsVEvent r e

/-- The running set after the vertical events `pre`. -/
def activeSetOf (pre : List (SweepEvent TNum)) : IdSet :=
  pre.foldl stepActiveSet .empty

omit [LinearOrder TNum] in
theorem activeSetOf_concat (pre : List (SweepEvent TNum)) (e : SweepEvent TNum) :
    activeSetOf (pre ++ [e]) = stepActiveSet (activeSetOf pre) e := by
  simp [activeSetOf]

/-- The running set holds the rectangles whose top has been passed and whose
bottom has not. -/
theorem mem_activeSetOf (hlen : rects.length ≤ 64) {pre : List (SweepEvent TNum)}
    (hsorted : pre.Pairwise SweepEvent.lt)
    (hedge : ∀ e ∈ pre, ∃ r, rects[e.rectId]? = some r ∧ r.Nonempty ∧ IsVEvent r e)
    (i : Nat) :
    (activeSetOf pre).Mem i ↔
      ∃ r, rects[i]? = some r ∧ ⟨.start, r.top, i⟩ ∈ pre ∧ ⟨.stop, r.bottom, i⟩ ∉ pre := by
  induction pre using List.reverseRecOn with
  | nil =>
      refine iff_of_false (IdSet.not_mem_empty i) ?_
      rintro ⟨r, _, h, _⟩
      exact List.not_mem_nil h
  | append_singleton pre e ih =>
      obtain ⟨hpre, _, hlast⟩ := List.pairwise_append.mp hsorted
      have hih := ih hpre fun e' he' => hedge e' (List.mem_append_left _ he')
      obtain ⟨r, hr, hne, hv⟩ := hedge e (by simp)
      have hid : e.rectId < 64 := by
        obtain ⟨hlt, _⟩ := List.getElem?_eq_some_iff.mp hr
        omega
      rw [activeSetOf_concat]
      rcases hv with hv | hv
      · -- a top edge; its bottom edge comes later in the order
        rw [hv, stepActiveSet, IdSet.mem_add hid, hih]
        simp only [List.mem_append, List.mem_singleton]
        constructor
        · rintro (⟨r', hr', hs, ht⟩ | rfl)
          · refine ⟨r', hr', Or.inl hs, ?_⟩
            simp [ht]
          · refine ⟨r, hr, Or.inr rfl, ?_⟩
            rintro (h | h)
            · have hlt := hlast _ h e (List.mem_singleton.mpr rfl)
              rw [hv] at hlt
              rcases hlt with hlt | hlt
              · exact absurd hlt (not_lt.mpr (le_of_lt hne.2))
              · exact absurd hlt.2 (Nat.lt_irrefl _)
            · exact absurd (SweepEvent.mk.inj h).1 (by decide)
        · rintro ⟨r', hr', hs | hs, ht⟩
          · exact Or.inl ⟨r', hr', hs, fun h => ht (Or.inl h)⟩
          · exact Or.inr (SweepEvent.mk.inj hs).2.2
      · rw [hv, stepActiveSet, IdSet.mem_subtract, hih]
        simp only [List.mem_append, List.mem_singleton]
        constructor
        · rintro ⟨⟨r', hr', hs, ht⟩, hne'⟩
          refine ⟨r', hr', Or.inl hs, ?_⟩
          rintro (h | h)
          · exact ht h
          · exact hne' (SweepEvent.mk.inj h).2.2
        · rintro ⟨r', hr', hs, ht⟩
          have hs' : (⟨.start, r'.top, i⟩ : SweepEvent TNum) ∈ pre := by
            rcases hs with hs | hs
            · exact hs
            · exact absurd (SweepEvent.mk.inj hs).1 (by decide)
          refine ⟨⟨r', hr', hs', fun h => ht (Or.inl h)⟩, ?_⟩
          rintro rfl
          obtain rfl : r = r' := Option.some.inj (hr.symm.trans hr')
          exact ht (Or.inr rfl)

/-- What the fold over the vertical events `pre` has recorded. -/
structure RegionsOf (pre : List (SweepEvent TNum)) (acc : List (TNum × IdSet) × IdSet) :
    Prop where
  activeSet : acc.2 = activeSetOf pre
  sorted : (acc.1.map (·.1)).Pairwise (· < ·)
  mem_iff : ∀ y, y ∈ acc.1.map (·.1) ↔ ∃ e ∈ pre, e.pos = y
  entry : ∀ y s, (y, s) ∈ acc.1 → s = activeSetOf (pre.filter fun e => decide (e.pos ≤ y))

theorem filter_concat_of_lt {pre : List (SweepEvent TNum)} {e : SweepEvent TNum} {y : TNum}
    (h : y < e.pos) :
    (pre ++ [e]).filter (fun e' => decide (e'.pos ≤ y)) =
      pre.filter fun e' => decide (e'.pos ≤ y) := by
  simp [h]

theorem filter_concat_self {pre : List (SweepEvent TNum)} {e : SweepEvent TNum}
    (h : ∀ e' ∈ pre, e'.pos ≤ e.pos) :
    (pre ++ [e]).filter (fun e' => decide (e'.pos ≤ e.pos)) = pre ++ [e] := by
  refine List.filter_eq_self.mpr fun e' he' => ?_
  rcases List.mem_append.mp he' with he' | he'
  · exact decide_eq_true (h e' he')
  · rw [List.mem_singleton.mp he']
    exact decide_eq_true (le_refl _)

/-- A region that starts at the event, behind those that start before it. -/
theorem RegionsOf.push {pre : List (SweepEvent TNum)} {e : SweepEvent TNum}
    {regions : List (TNum × IdSet)} {activeSet : IdSet} (hle : ∀ e' ∈ pre, e'.pos ≤ e.pos)
    (hset : activeSet = activeSetOf pre) (hsorted : (regions.map (·.1)).Pairwise (· < ·))
    (hbelow : ∀ y ∈ regions.map (·.1), y < e.pos)
    (hmem : ∀ y, y ∈ regions.map (·.1) ∨ y = e.pos ↔ (∃ e' ∈ pre, e'.pos = y) ∨ y = e.pos)
    (hentry : ∀ y s, (y, s) ∈ regions →
      s = activeSetOf (pre.filter fun e' => decide (e'.pos ≤ y))) :
    RegionsOf (pre ++ [e])
      (regions ++ [(e.pos, stepActiveSet activeSet e)], stepActiveSet activeSet e) := by
  have hset' : stepActiveSet activeSet e = activeSetOf (pre ++ [e]) := by
    rw [activeSetOf_concat, hset]
  refine ⟨hset', ?_, fun y => ?_, fun y s hy => ?_⟩
  · dsimp only
    rw [List.map_append, List.pairwise_append]
    exact ⟨hsorted, by simp, by simpa using hbelow⟩
  · dsimp only
    rw [List.map_append, List.mem_append, List.map_singleton, List.mem_singleton, hmem y]
    constructor
    · rintro (⟨e', he', rfl⟩ | rfl)
      · exact ⟨e', List.mem_append_left _ he', rfl⟩
      · exact ⟨e, List.mem_append_right _ List.mem_cons_self, rfl⟩
    · rintro ⟨e', he', rfl⟩
      rcases List.mem_append.mp he' with he' | he'
      · exact Or.inl ⟨e', he', rfl⟩
      · exact Or.inr (by rw [List.mem_singleton.mp he'])
  · rcases List.mem_append.mp hy with hy | hy
    · rw [filter_concat_of_lt (hbelow y (List.mem_map.mpr ⟨(y, s), hy, rfl⟩))]
      exact hentry y s hy
    · obtain ⟨rfl, rfl⟩ := Prod.mk.inj (List.mem_singleton.mp hy)
      rw [filter_concat_self hle]
      exact hset'

/-- One vertical event. -/
theorem RegionsOf.step {pre : List (SweepEvent TNum)} {e : SweepEvent TNum}
    {acc : List (TNum × IdSet) × IdSet} (h : RegionsOf pre acc)
    (hle : ∀ e' ∈ pre, e'.pos ≤ e.pos) :
    RegionsOf (pre ++ [e]) (stepActiveRegions acc e) := by
  obtain ⟨regions, activeSet⟩ := acc
  obtain ⟨hset, hsorted, hmem, hentry⟩ := h
  dsimp only at hset hsorted hmem hentry
  have hbound : ∀ y ∈ regions.map (·.1), y ≤ e.pos := by
    intro y hy
    obtain ⟨e', he', rfl⟩ := (hmem y).mp hy
    exact hle e' he'
  unfold stepActiveRegions
  dsimp only
  rcases List.eq_nil_or_concat regions with rfl | ⟨front, ⟨y₀, s₀⟩, rfl⟩
  · exact RegionsOf.push hle hset hsorted (by simp) (fun y => by rw [hmem y]) hentry
  · simp only [List.concat_eq_append] at *
    have hparts := hsorted
    rw [List.map_append, List.pairwise_append] at hparts
    obtain ⟨hfront, _, hlt⟩ := hparts
    have hlt' : ∀ y ∈ front.map (·.1), y < y₀ := fun y hy => hlt y hy y₀ (by simp)
    have hy₀ : y₀ ≤ e.pos := hbound y₀ (by simp)
    split
    · -- the region of this position is replaced
      rename_i hsame
      obtain rfl : y₀ = e.pos := by simpa using hsame
      rw [List.dropLast_concat]
      refine RegionsOf.push hle hset hfront hlt' (fun y => ?_)
        fun y s hy => hentry y s (List.mem_append_left _ hy)
      rw [← hmem y, List.map_append, List.mem_append, List.map_singleton, List.mem_singleton,
        or_assoc, or_self]
    · rename_i hdiff
      have hy₀' : y₀ < e.pos := lt_of_le_of_ne hy₀ (by simpa using hdiff)
      refine RegionsOf.push hle hset hsorted (fun y hy => ?_) (fun y => by rw [hmem y]) hentry
      rw [List.map_append, List.mem_append] at hy
      rcases hy with hy | hy
      · exact lt_trans (hlt' y hy) hy₀'
      · obtain rfl : y = y₀ := by simpa using hy
        exact hy₀'

theorem regionsOf_foldl {vEvents : List (SweepEvent TNum)}
    (hsorted : vEvents.Pairwise SweepEvent.lt) :
    RegionsOf vEvents (vEvents.foldl stepActiveRegions ([], .empty)) := by
  induction vEvents using List.reverseRecOn with
  | nil => exact ⟨rfl, by simp, by simp, by simp⟩
  | append_singleton pre e ih =>
      obtain ⟨hpre, _, hlast⟩ := List.pairwise_append.mp hsorted
      rw [List.foldl_append]
      refine (ih hpre).step fun e' he' => ?_
      rcases hlast e' he' e (List.mem_singleton.mpr rfl) with h | h
      · exact le_of_lt h
      · exact le_of_eq h.1

/-- `active_regions` at the line `x`: one entry for each edge, in order, with the
rectangles over the point just below it. -/
structure ReadsLine (rects : List (Rect TNum)) (x : TNum) (regions : List (TNum × IdSet)) :
    Prop where
  sorted : (regions.map (·.1)).Pairwise (· < ·)
  mem_iff : ∀ y, y ∈ regions.map (·.1) ↔ IsEdge rects x y
  entry : ∀ y s, (y, s) ∈ regions → ∀ i, s.Mem i ↔ Covers rects x y i

theorem activeRegions_readsLine {x : TNum} {vEvents : SweepEvents TNum}
    (hlen : rects.length ≤ 64) (hline : LineAt rects x vEvents.elems) :
    ReadsLine rects x (activeRegions vEvents.elems) := by
  have h := regionsOf_foldl vEvents.sorted
  refine ⟨h.sorted, ?_, ?_⟩
  · intro y
    rw [activeRegions, h.mem_iff]
    constructor
    · rintro ⟨e, he, rfl⟩
      obtain ⟨r, hr, hc, hv⟩ := (hline e).mp he
      refine ⟨r, List.mem_of_getElem? hr, hc, ?_⟩
      rcases hv with hv | hv
      · exact Or.inl (by rw [hv])
      · exact Or.inr (by rw [hv])
    · rintro ⟨r, hr, hc, hy⟩
      obtain ⟨i, hi⟩ := List.mem_iff_getElem?.mp hr
      rcases hy with rfl | rfl
      · exact ⟨⟨.start, r.top, i⟩, (hline _).mpr ⟨r, hi, hc, Or.inl rfl⟩, rfl⟩
      · exact ⟨⟨.stop, r.bottom, i⟩, (hline _).mpr ⟨r, hi, hc, Or.inr rfl⟩, rfl⟩
  · intro y s hys i
    have hsub : ∀ e ∈ vEvents.elems.filter (fun e => decide (e.pos ≤ y)),
        ∃ r, rects[e.rectId]? = some r ∧ r.Nonempty ∧ IsVEvent r e := by
      intro e he
      obtain ⟨r, hr, hc, hv⟩ := (hline e).mp (List.mem_filter.mp he).1
      exact ⟨r, hr, hc.1, hv⟩
    rw [h.entry y s hys, mem_activeSetOf hlen (vEvents.sorted.filter _) hsub,
      covers_iff_crosses]
    simp only [List.mem_filter, decide_eq_true_eq, not_and, not_le]
    constructor
    · rintro ⟨r, hr, ⟨hstart, htop⟩, hbottom⟩
      obtain ⟨r', hr', hc, _⟩ := (hline _).mp hstart
      obtain rfl : r = r' := Option.some.inj (hr.symm.trans hr')
      exact ⟨r, hr, hc, htop, hbottom ((hline _).mpr ⟨r, hr, hc, Or.inr rfl⟩)⟩
    · rintro ⟨r, hr, hc, htop, hbottom⟩
      exact ⟨r, hr, ⟨(hline _).mpr ⟨r, hr, hc, Or.inl rfl⟩, htop⟩, fun _ => hbottom⟩

/-! ## Seeing the regions -/

/-- The keys the loop over `active_regions` looks up, in order. -/
def regionKeys (x : TNum) : List (TNum × IdSet) → List (StartedRect TNum)
  | [] => []
  | [_] => []
  | (top, s) :: (bottom, s') :: rest =>
      if s.isEmpty then regionKeys x ((bottom, s') :: rest)
      else ⟨s, x, top, bottom⟩ :: regionKeys x ((bottom, s') :: rest)

omit [LinearOrder TNum] in
theorem mem_regionKeys {x : TNum} {k : StartedRect TNum} :
    ∀ {regions : List (TNum × IdSet)},
      k ∈ regionKeys x regions ↔
        k.left = x ∧ k.idSet.isEmpty = false ∧ ∃ front s rest,
          regions = front ++ (k.top, k.idSet) :: (k.bottom, s) :: rest
  | [] => by simp [regionKeys]
  | [(y, t)] => by
      simp only [regionKeys, List.not_mem_nil, false_iff]
      rintro ⟨_, _, front, s, rest, h⟩
      have hlen := congrArg List.length h
      simp at hlen
      omega
  | (top, s₁) :: (bottom, s₂) :: tail => by
      have ih := @mem_regionKeys x k ((bottom, s₂) :: tail)
      have htail : (∃ front s rest, (top, s₁) :: (bottom, s₂) :: tail =
            front ++ (k.top, k.idSet) :: (k.bottom, s) :: rest) ↔
          ((top, s₁) = (k.top, k.idSet) ∧ bottom = k.bottom) ∨
          ∃ front s rest, (bottom, s₂) :: tail =
            front ++ (k.top, k.idSet) :: (k.bottom, s) :: rest := by
        constructor
        · rintro ⟨front, s, rest, h⟩
          cases front with
          | nil =>
              simp only [List.nil_append, List.cons.injEq] at h
              exact Or.inl ⟨h.1, (Prod.mk.inj h.2.1).1⟩
          | cons a front =>
              exact Or.inr ⟨front, s, rest, (List.cons.inj h).2⟩
        · rintro (⟨h, rfl⟩ | ⟨front, s, rest, h⟩)
          · exact ⟨[], s₂, tail, by rw [h]; rfl⟩
          · exact ⟨(top, s₁) :: front, s, rest, by rw [h]; rfl⟩
      rw [htail]
      unfold regionKeys
      split
      · rename_i hempty
        rw [ih]
        constructor
        · rintro ⟨hx, hk, h⟩
          exact ⟨hx, hk, Or.inr h⟩
        · rintro ⟨hx, hk, ⟨h, _⟩ | h⟩
          · rw [(Prod.mk.inj h).2, hk] at hempty
            exact absurd hempty (by decide)
          · exact ⟨hx, hk, h⟩
      · rename_i hempty
        rw [List.mem_cons, ih]
        constructor
        · rintro (rfl | ⟨hx, hk, h⟩)
          · exact ⟨rfl, by simpa using hempty, Or.inl ⟨rfl, rfl⟩⟩
          · exact ⟨hx, hk, Or.inr h⟩
        · rintro ⟨hx, hk, ⟨h, hb⟩ | h⟩
          · left
            obtain ⟨ht, hs⟩ := Prod.mk.inj h
            cases k
            simp_all
          · exact Or.inr ⟨hx, hk, h⟩

/-- The keys looked up at the line `x` are exactly its strips. -/
theorem mem_regionKeys_iff_strip {x : TNum} {regions : List (TNum × IdSet)}
    (h : ReadsLine rects x regions) {k : StartedRect TNum} :
    k ∈ regionKeys x regions ↔ k.left = x ∧ Strip rects x k.top k.bottom k.idSet := by
  rw [mem_regionKeys]
  constructor
  · rintro ⟨hx, hk, front, s, rest, rfl⟩
    have hsorted := h.sorted
    rw [List.map_append, List.pairwise_append] at hsorted
    obtain ⟨_, htail, hfront⟩ := hsorted
    simp only [List.map_cons, List.pairwise_cons, List.mem_cons, forall_eq_or_imp] at htail
    have hedge : ∀ y, y ∈ (front ++ (k.top, k.idSet) :: (k.bottom, s) :: rest).map (·.1) →
        IsEdge rects x y := fun y => (h.mem_iff y).mp
    refine ⟨hx, hedge k.top (by simp), hedge k.bottom (by simp), htail.1.1, ?_, hk,
      h.entry k.top k.idSet (by simp)⟩
    intro y hy
    have hy' := (h.mem_iff y).mpr hy
    simp only [List.map_append, List.map_cons, List.mem_append, List.mem_cons] at hy'
    rcases hy' with hy' | rfl | rfl | hy'
    · exact Or.inl (le_of_lt (hfront y hy' k.top (by simp)))
    · exact Or.inl (le_refl _)
    · exact Or.inr (le_refl _)
    · exact Or.inr (le_of_lt (htail.2.1 y hy'))
  · rintro ⟨hx, hstrip⟩
    obtain ⟨⟨top, s⟩, hmem, htop⟩ := List.mem_map.mp ((h.mem_iff k.top).mpr hstrip.top_edge)
    obtain rfl : top = k.top := htop
    obtain rfl : s = k.idSet := IdSet.ext_mem fun i => by
      rw [h.entry k.top s hmem, hstrip.mem_iff]
    refine ⟨hx, hstrip.occupied, ?_⟩
    obtain ⟨front, tail, rfl⟩ := List.append_of_mem hmem
    have hsorted := h.sorted
    rw [List.map_append, List.pairwise_append] at hsorted
    obtain ⟨_, htail, hfront⟩ := hsorted
    rw [List.map_cons, List.pairwise_cons] at htail
    have hbottom := (h.mem_iff k.bottom).mpr hstrip.bottom_edge
    simp only [List.map_append, List.map_cons, List.mem_append, List.mem_cons] at hbottom
    -- the bottom edge comes after the top edge, and nothing comes between them
    have hafter : k.bottom ∈ tail.map (·.1) := by
      rcases hbottom with hb | hb | hb
      · exact absurd (hfront k.bottom hb k.top (by simp))
          (not_lt.mpr (le_of_lt hstrip.top_lt_bottom))
      · exact absurd hb (ne_of_gt hstrip.top_lt_bottom)
      · exact hb
    cases tail with
    | nil => simp at hafter
    | cons next rest =>
        obtain ⟨y, s⟩ := next
        have hy : y = k.bottom := by
          have hlow : k.top < y := htail.1 y (by simp)
          have hgap := hstrip.gap y ((h.mem_iff y).mp (by simp))
          rw [List.map_cons, List.pairwise_cons] at htail
          rw [List.map_cons, List.mem_cons] at hafter
          rcases hafter with hafter | hafter
          · exact hafter.symm
          · have hlast := htail.2.1 k.bottom hafter
            rcases hgap with hgap | hgap
            · exact absurd hlow (not_lt.mpr hgap)
            · exact absurd hlast (not_lt.mpr hgap)
        exact ⟨front, s, rest, by rw [hy]⟩

theorem equivalent_comm {a b : StartedRect TNum} :
    Equivalent StartedRect.lt a b ↔ Equivalent StartedRect.lt b a :=
  And.comm

theorem equivalent_trans {a b c : StartedRect TNum}
    (hab : Equivalent StartedRect.lt a b) (hbc : Equivalent StartedRect.lt b c) :
    Equivalent StartedRect.lt a c :=
  IsStrictWeakOrder.incomp_trans a b c hab hbc

theorem mem_seeRegion {key : StartedRect TNum} {started : StartedRects TNum}
    {e : StartedRect TNum × Bool} :
    e ∈ (seeRegion key started).entries ↔
      (e ∈ started.entries ∧ ¬ Equivalent StartedRect.lt key e.1) ∨
      (e.2 = true ∧ e.1 ∈ started.keys ∧ Equivalent StartedRect.lt key e.1) ∨
      (e = (key, true) ∧ ∀ k' ∈ started.keys, ¬ Equivalent StartedRect.lt key k') := by
  unfold seeRegion
  cases hfind : started.find? key with
  | none => exact OrderedMap.mem_set_iff
  | some found =>
      obtain ⟨hmem, heq⟩ := OrderedMap.find?_eq_some hfind
      have hkeys : found.1 ∈ started.keys := List.mem_map_of_mem hmem
      have hsame : ∀ k', Equivalent StartedRect.lt found.1 k' ↔
          Equivalent StartedRect.lt key k' := fun k' =>
        ⟨equivalent_trans heq, equivalent_trans (equivalent_comm.mp heq)⟩
      rw [OrderedMap.mem_set_iff]
      simp only [hsame]
      have hno : ¬ ∀ k' ∈ started.keys, ¬ Equivalent StartedRect.lt key k' :=
        fun h => h found.1 hkeys heq
      simp only [hno, and_false, or_false]

theorem mem_keys_seeRegion {key k : StartedRect TNum} {started : StartedRects TNum} :
    k ∈ (seeRegion key started).keys ↔ k ∈ started.keys ∨
      (k = key ∧ ∀ k' ∈ started.keys, ¬ Equivalent StartedRect.lt key k') := by
  constructor
  · intro h
    obtain ⟨e, he, rfl⟩ := List.mem_map.mp h
    rcases mem_seeRegion.mp he with ⟨he, _⟩ | ⟨_, he, _⟩ | ⟨rfl, hno⟩
    · exact Or.inl (List.mem_map_of_mem he)
    · exact Or.inl he
    · exact Or.inr ⟨rfl, hno⟩
  · rintro (h | ⟨rfl, hno⟩)
    · by_cases heq : Equivalent StartedRect.lt key k
      · exact List.mem_map.mpr ⟨(k, true),
          mem_seeRegion.mpr (Or.inr (Or.inl ⟨rfl, h, heq⟩)), rfl⟩
      · obtain ⟨e, he, rfl⟩ := List.mem_map.mp h
        exact List.mem_map.mpr ⟨e, mem_seeRegion.mpr (Or.inl ⟨he, heq⟩), rfl⟩
    · exact List.mem_map.mpr ⟨(k, true),
        mem_seeRegion.mpr (Or.inr (Or.inr ⟨rfl, hno⟩)), rfl⟩

/-- All regions of one line. -/
theorem mem_foldl_seeRegion :
    ∀ {keys : List (StartedRect TNum)} {started : StartedRects TNum}
      {e : StartedRect TNum × Bool},
      keys.Pairwise (fun a b => ¬ Equivalent StartedRect.lt a b) →
      (e ∈ (keys.foldl (fun m k => seeRegion k m) started).entries ↔
        (e ∈ started.entries ∧ ∀ k ∈ keys, ¬ Equivalent StartedRect.lt k e.1) ∨
        (e.2 = true ∧ e.1 ∈ started.keys ∧ ∃ k ∈ keys, Equivalent StartedRect.lt k e.1) ∨
        (e.2 = true ∧ e.1 ∈ keys ∧
          ∀ k' ∈ started.keys, ¬ Equivalent StartedRect.lt e.1 k')) := by
  intro keys
  induction keys with
  | nil =>
      intro started e _
      simp
  | cons key rest ih =>
      intro started e hpair
      obtain ⟨hkey, hrest⟩ := List.pairwise_cons.mp hpair
      rw [List.foldl_cons, ih hrest]
      simp only [mem_keys_seeRegion, mem_seeRegion, List.mem_cons, forall_eq_or_imp,
        exists_eq_or_imp]
      obtain ⟨k, seen⟩ := e
      dsimp only
      constructor
      · rintro (⟨(⟨he, hne⟩ | ⟨hs, hk, heq⟩ | ⟨he, hno⟩), hall⟩ |
          ⟨hs, (hk | ⟨rfl, hno⟩), k', hk', heq⟩ | ⟨hs, hk, hno⟩)
        · exact Or.inl ⟨he, hne, hall⟩
        · exact Or.inr (Or.inl ⟨hs, hk, Or.inl heq⟩)
        · obtain ⟨rfl, rfl⟩ := Prod.mk.inj he
          exact Or.inr (Or.inr ⟨rfl, Or.inl rfl, hno⟩)
        · exact Or.inr (Or.inl ⟨hs, hk, Or.inr ⟨k', hk', heq⟩⟩)
        · exact absurd (equivalent_comm.mp heq) (hkey k' hk')
        · exact Or.inr (Or.inr ⟨hs, Or.inr hk, fun k' hk' => hno k' (Or.inl hk')⟩)
      · rintro (⟨he, hne, hall⟩ | ⟨hs, hk, heq | ⟨k', hk', heq⟩⟩ | ⟨hs, rfl | hk, hno⟩)
        · exact Or.inl ⟨Or.inl ⟨he, hne⟩, hall⟩
        · by_cases hother : ∃ k' ∈ rest, Equivalent StartedRect.lt k' k
          · exact Or.inr (Or.inl ⟨hs, Or.inl hk, hother⟩)
          · refine Or.inl ⟨Or.inr (Or.inl ⟨hs, hk, heq⟩), ?_⟩
            intro k' hk' h
            exact hother ⟨k', hk', h⟩
        · exact Or.inr (Or.inl ⟨hs, Or.inl hk, k', hk', heq⟩)
        · refine Or.inl ⟨Or.inr (Or.inr ⟨by rw [hs], hno⟩), ?_⟩
          intro k' hk' h
          exact hkey k' hk' (equivalent_comm.mp h)
        · refine Or.inr (Or.inr ⟨hs, hk, ?_⟩)
          rintro k' (hk' | ⟨rfl, _⟩)
          · exact hno k' hk'
          · intro h
            exact hkey k hk (equivalent_comm.mp h)

/-- No assertion of the loop fails when the last region has the empty set. -/
theorem seeRegions_eq (x : TNum) :
    ∀ (regions : List (TNum × IdSet)) (started : StartedRects TNum),
      (∀ last, regions.getLast? = some last → last.2.isEmpty = true) →
      seeRegions x regions started =
        some ((regionKeys x regions).foldl (fun m k => seeRegion k m) started)
  | [], started, _ => rfl
  | [(y, s)], started, hlast => by
      have hs : s.isEmpty = true := hlast (y, s) rfl
      simp [seeRegions, regionKeys, hs]
  | (top, s) :: (bottom, s') :: rest, started, hlast => by
      have hlast' : ∀ last, ((bottom, s') :: rest).getLast? = some last →
          last.2.isEmpty = true := by
        intro last h
        exact hlast last (by simpa using h)
      unfold seeRegions regionKeys
      split
      · exact seeRegions_eq x _ started hlast'
      · rw [List.foldl_cons]
        exact seeRegions_eq x _ _ hlast'

omit [LinearOrder TNum] in
theorem regionKeys_tops_sublist (x : TNum) :
    ∀ regions : List (TNum × IdSet),
      ((regionKeys x regions).map (·.top)).Sublist (regions.map (·.1))
  | [] => by simp [regionKeys]
  | [_] => by simp [regionKeys]
  | (top, s) :: (bottom, s') :: rest => by
      have ih := regionKeys_tops_sublist x ((bottom, s') :: rest)
      unfold regionKeys
      split
      · exact ih.trans (List.sublist_cons_self _ _)
      · exact ih.cons_cons top

theorem ReadsLine.keys_pairwise {x : TNum} {regions : List (TNum × IdSet)}
    (h : ReadsLine rects x regions) :
    (regionKeys x regions).Pairwise fun a b => ¬ Equivalent StartedRect.lt a b := by
  have htops := h.sorted.sublist (regionKeys_tops_sublist x regions)
  rw [List.pairwise_map] at htops
  refine htops.imp fun hlt heq => ?_
  exact absurd (StartedRect.equivalent_iff.mp heq).1 (ne_of_lt hlt)

theorem ReadsLine.last_isEmpty {x : TNum} {regions : List (TNum × IdSet)}
    (h : ReadsLine rects x regions) {last : TNum × IdSet}
    (hlast : regions.getLast? = some last) : last.2.isEmpty = true := by
  obtain ⟨y, s⟩ := last
  obtain ⟨front, rfl⟩ := List.getLast?_eq_some_iff.mp hlast
  refine IdSet.isEmpty_iff.mpr fun i hi => ?_
  obtain ⟨r, hr, hc, _, hbottom⟩ :=
    covers_iff_crosses.mp ((h.entry y s (by simp) i).mp hi)
  -- the bottom of that rectangle would be an edge below the last one
  have hedge := (h.mem_iff r.bottom).mpr ⟨r, List.mem_of_getElem? hr, hc, Or.inr rfl⟩
  have hsorted := h.sorted
  rw [List.map_append, List.pairwise_append] at hsorted
  rw [List.map_append, List.mem_append] at hedge
  rcases hedge with hedge | hedge
  · exact absurd (hsorted.2.2 _ hedge y (by simp)) (not_lt.mpr (le_of_lt hbottom))
  · obtain rfl : r.bottom = y := by simpa using hedge
    exact lt_irrefl _ hbottom

/-! ## One sweep line -/

/-- The strip a started rectangle follows is there at the line `x`. -/
def StartedRect.StripAt (rects : List (Rect TNum)) (x : TNum) (k : StartedRect TNum) : Prop :=
  Strip rects x k.top k.bottom k.idSet

/-- What a sweep line does: started rectangles whose strip is gone are closed,
the others go on, and the remaining strips are started. -/
structure LineStep (rects : List (Rect TNum)) (x : TNum) (st st' : SweepState TNum)
    (closed : List (StartedRect TNum)) : Prop where
  vEvents : st'.vEvents = st.vEvents
  started : ∀ k, k ∈ st'.started.keys ↔ k.StripAt rects x ∧
    (k ∈ st.started.keys ∨
      (k.left = x ∧ ∀ k' ∈ st.started.keys, ¬ Equivalent StartedRect.lt k k'))
  out : st'.out = st.out ++ closed.map (·.close x)
  closed_iff : ∀ k, k ∈ closed ↔ k ∈ st.started.keys ∧ ¬ k.StripAt rects x
  closed_pairwise : closed.Pairwise fun a b => ¬ Equivalent StartedRect.lt a b

/-- The started rectangles behind the loop over the regions at a stop: those whose strip is
there have been seen. -/
def seenAt (x : TNum) (st : SweepState TNum) : StartedRects TNum :=
  (regionKeys x (activeRegions st.vEvents.elems)).foldl (fun m k => seeRegion k m)
    (st.started.fill false)

/-- The loop looks the strips of the cross section up. -/
theorem exists_regionKeys_iff {x : TNum} {st : SweepState TNum}
    (hreads : ReadsLine rects x (activeRegions st.vEvents.elems)) (k : StartedRect TNum) :
    (∃ k' ∈ regionKeys x (activeRegions st.vEvents.elems), Equivalent StartedRect.lt k' k) ↔
      k.StripAt rects x := by
  constructor
  · rintro ⟨k', hk', heq⟩
    have hs := ((mem_regionKeys_iff_strip hreads).mp hk').2
    obtain ⟨ht, hb, hid⟩ := StartedRect.equivalent_iff.mp heq
    rw [ht, hb, hid] at hs
    exact hs
  · intro hs
    exact ⟨{ k with left := x }, (mem_regionKeys_iff_strip hreads).mpr ⟨rfl, hs⟩,
      StartedRect.equivalent_iff.mpr ⟨rfl, rfl, rfl⟩⟩

/-- What was started and is not seen, what goes on, and what is new. -/
theorem mem_seenAt_iff {x : TNum} {st : SweepState TNum}
    (hreads : ReadsLine rects x (activeRegions st.vEvents.elems))
    (e : StartedRect TNum × Bool) :
    e ∈ (seenAt x st).entries ↔
      (e.1 ∈ st.started.keys ∧ e.2 = false ∧ ¬ e.1.StripAt rects x) ∨
      (e.1 ∈ st.started.keys ∧ e.2 = true ∧ e.1.StripAt rects x) ∨
      (e.2 = true ∧ e.1.left = x ∧ e.1.StripAt rects x ∧
        ∀ k' ∈ st.started.keys, ¬ Equivalent StartedRect.lt e.1 k') := by
  have hkeysFill : (st.started.fill false).keys = st.started.keys := by
    simp [OrderedMap.keys, OrderedMap.fill]
  have hnone : (∀ k ∈ regionKeys x (activeRegions st.vEvents.elems),
      ¬ Equivalent StartedRect.lt k e.1) ↔ ¬ e.1.StripAt rects x := by
    rw [← exists_regionKeys_iff hreads]
    simp
  rw [seenAt, mem_foldl_seeRegion hreads.keys_pairwise, hkeysFill, hnone,
    exists_regionKeys_iff hreads, OrderedMap.mem_fill, mem_regionKeys_iff_strip hreads]
  constructor
  · rintro (⟨⟨hk, hf⟩, hno⟩ | ⟨hs, hk, h⟩ | ⟨hs, ⟨hl, hstr⟩, hno⟩)
    · exact Or.inl ⟨hk, hf, hno⟩
    · exact Or.inr (Or.inl ⟨hk, hs, h⟩)
    · exact Or.inr (Or.inr ⟨hs, hl, hl ▸ hstr, hno⟩)
  · rintro (⟨hk, hf, hno⟩ | ⟨hk, hs, h⟩ | ⟨hs, hl, hstr, hno⟩)
    · exact Or.inl ⟨⟨hk, hf⟩, hno⟩
    · exact Or.inr (Or.inl ⟨hs, hk, h⟩)
    · exact Or.inr (Or.inr ⟨hs, ⟨hl, hstr⟩, hno⟩)

theorem sweepLine_step {x : TNum} {st : SweepState TNum} (hlen : rects.length ≤ 64)
    (hline : LineAt rects x st.vEvents.elems) :
    ∃ st' closed, sweepLine x st = some st' ∧ LineStep rects x st st' closed := by
  have hreads := activeRegions_readsLine hlen hline
  have hsee := seeRegions_eq x (activeRegions st.vEvents.elems) (st.started.fill false)
    fun last => hreads.last_isEmpty
  have hseen := mem_seenAt_iff hreads
  refine ⟨{ vEvents := st.vEvents
            started := (seenAt x st).filter (·.2)
            out := st.out ++ ((seenAt x st).entries.filter (!·.2)).map fun e => e.1.close x },
    ((seenAt x st).entries.filter (!·.2)).map (·.1), ?_, rfl, ?_, ?_, ?_, ?_⟩
  · rw [sweepLine, hsee]
    rfl
  · intro k
    constructor
    · intro hk
      obtain ⟨e, he, rfl⟩ := List.mem_map.mp hk
      obtain ⟨he, htrue⟩ := List.mem_filter.mp he
      rcases (hseen e).mp he with ⟨_, hf, _⟩ | ⟨hk, _, hs⟩ | ⟨_, hl, hs, hno⟩
      · rw [hf] at htrue
        exact absurd htrue (by decide)
      · exact ⟨hs, Or.inl hk⟩
      · exact ⟨hs, Or.inr ⟨hl, hno⟩⟩
    · rintro ⟨hs, hk⟩
      refine List.mem_map.mpr ⟨(k, true), List.mem_filter.mpr ⟨?_, rfl⟩, rfl⟩
      rcases hk with hk | ⟨hl, hno⟩
      · exact (hseen (k, true)).mpr (Or.inr (Or.inl ⟨hk, rfl, hs⟩))
      · exact (hseen (k, true)).mpr (Or.inr (Or.inr ⟨rfl, hl, hs, hno⟩))
  · rw [List.map_map]
    rfl
  · intro k
    constructor
    · intro hk
      obtain ⟨e, he, rfl⟩ := List.mem_map.mp hk
      obtain ⟨he, hfalse⟩ := List.mem_filter.mp he
      have hf : e.2 = false := by simpa using hfalse
      rcases (hseen e).mp he with ⟨hk, _, hno⟩ | ⟨_, ht, _⟩ | ⟨ht, _⟩
      · exact ⟨hk, hno⟩
      · rw [hf] at ht
        exact absurd ht (by decide)
      · rw [hf] at ht
        exact absurd ht (by decide)
    · rintro ⟨hk, hno⟩
      exact List.mem_map.mpr ⟨(k, false), List.mem_filter.mpr
        ⟨(hseen (k, false)).mpr (Or.inl ⟨hk, rfl, hno⟩), rfl⟩, rfl⟩
  · rw [List.pairwise_map]
    exact ((seenAt x st).sorted.filter _).imp fun hlt heq => heq.1 hlt

end DragonDevice.Hwc
