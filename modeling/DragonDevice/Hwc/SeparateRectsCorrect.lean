/-
  Hwc/SeparateRectsCorrect.lean --- the sweep computes an exact disjoint cover.

  The horizontal events are exactly the left and right edges of the non-empty
  rectangles, so the vertical sweep line always holds the edges of the
  rectangles entered and not left (`LineOf`).  A started rectangle follows one
  strip from line to line, and the invariant `Tracks` says that the finished and
  the started rectangles together account for every strip to the left of the
  next event, once each.  After the last event nothing is started any more, and
  the finished rectangles are the exact disjoint cover.
-/
import DragonDevice.Hwc.SweepRegions

set_option autoImplicit false

namespace DragonDevice.Hwc

open DragonDevice.Lib

variable {TNum : Type} [LinearOrder TNum] {rects : List (Rect TNum)}

/-! ## Horizontal events -/

/-- `e` is the left or right edge of the non-empty rectangle it names. -/
def IsHEvent (rects : List (Rect TNum)) (e : SweepEvent TNum) : Prop :=
  ∃ r, rects[e.rectId]? = some r ∧ r.Nonempty ∧
    (e = ⟨.start, r.left, e.rectId⟩ ∨ e = ⟨.stop, r.right, e.rectId⟩)

theorem mem_addSweepEvents {events : SweepEvents TNum} {r : Rect TNum} {i : Nat}
    {e : SweepEvent TNum} (hfresh : ∀ e ∈ events, e.rectId ≠ i) :
    e ∈ addSweepEvents events (r, i) ↔
      e ∈ events ∨ (r.Nonempty ∧ (e = ⟨.start, r.left, i⟩ ∨ e = ⟨.stop, r.right, i⟩)) := by
  unfold addSweepEvents
  dsimp only
  split
  · rename_i hempty
    have hnot : ¬ r.Nonempty := by
      rintro ⟨hx, hy⟩
      rcases hempty with h | h
      · exact absurd hx (not_lt.mpr h)
      · exact absurd hy (not_lt.mpr h)
    simp [hnot]
  · rename_i hne
    have hr : r.Nonempty :=
      ⟨not_le.mp fun h => hne (Or.inl h), not_le.mp fun h => hne (Or.inr h)⟩
    have hstart : ∀ y ∈ events, ¬ Equivalent SweepEvent.lt ⟨.start, r.left, i⟩ y := by
      intro y hy heq
      exact hfresh y hy (SweepEvent.equivalent_iff.mp heq).2.symm
    have hstop : ∀ y ∈ events.insert ⟨.start, r.left, i⟩,
        ¬ Equivalent SweepEvent.lt ⟨.stop, r.right, i⟩ y := by
      intro y hy heq
      have hpos := SweepEvent.equivalent_iff.mp heq
      rcases OrderedSet.mem_or_eq_of_mem_insert hy with hy | rfl
      · exact hfresh y hy hpos.2.symm
      · exact absurd hpos.1 (ne_of_gt hr.1)
    rw [OrderedSet.mem_insert_iff hstop, OrderedSet.mem_insert_iff hstart]
    simp only [hr, true_and, or_assoc]

/-- The first pass over any tail of the input, with indices from `n` on. -/
theorem mem_foldl_addSweepEvents :
    ∀ (tail : List (Rect TNum)) (n : Nat) (events : SweepEvents TNum),
      (∀ e ∈ events, e.rectId < n) → ∀ e : SweepEvent TNum,
      (e ∈ (tail.zipIdx n).foldl addSweepEvents events ↔
        e ∈ events ∨ ∃ i r, tail[i]? = some r ∧ r.Nonempty ∧
          (e = ⟨.start, r.left, n + i⟩ ∨ e = ⟨.stop, r.right, n + i⟩)) := by
  intro tail
  induction tail with
  | nil => simp
  | cons r rest ih =>
      intro n events hbound e
      have hfresh : ∀ e ∈ events, e.rectId ≠ n := fun e he => Nat.ne_of_lt (hbound e he)
      have hbound' : ∀ e ∈ addSweepEvents events (r, n), e.rectId < n + 1 := by
        intro e he
        rcases (mem_addSweepEvents hfresh).mp he with he | ⟨_, rfl | rfl⟩
        · exact Nat.lt_succ_of_lt (hbound e he)
        · exact Nat.lt_succ_self n
        · exact Nat.lt_succ_self n
      rw [List.zipIdx_cons, List.foldl_cons, ih (n + 1) _ hbound' e,
        mem_addSweepEvents hfresh]
      constructor
      · rintro ((he | ⟨hr, he⟩) | ⟨i, r', hi, hr, he⟩)
        · exact Or.inl he
        · exact Or.inr ⟨0, r, rfl, hr, he⟩
        · refine Or.inr ⟨i + 1, r', by simpa using hi, hr, ?_⟩
          rw [show n + (i + 1) = n + 1 + i by omega]
          exact he
      · rintro (he | ⟨i, r', hi, hr, he⟩)
        · exact Or.inl (Or.inl he)
        · cases i with
          | zero =>
              obtain rfl : r = r' := by simpa using hi
              exact Or.inl (Or.inr ⟨hr, he⟩)
          | succ i =>
              refine Or.inr ⟨i, r', by simpa using hi, hr, ?_⟩
              rw [show n + 1 + i = n + (i + 1) by omega]
              exact he

theorem mem_sweepHEvents {e : SweepEvent TNum} :
    e ∈ sweepHEvents rects ↔ IsHEvent rects e := by
  unfold sweepHEvents
  rw [mem_foldl_addSweepEvents rects 0 .empty
    (fun e he => absurd he (OrderedSet.not_mem_empty e)) e]
  constructor
  · rintro (he | ⟨i, r, hi, hr, he⟩)
    · exact absurd he (OrderedSet.not_mem_empty e)
    · have hid : e.rectId = i := by rcases he with rfl | rfl <;> simp
      refine ⟨r, by rw [hid]; exact hi, hr, ?_⟩
      rw [hid]
      simpa using he
  · rintro ⟨r, hi, hr, he⟩
    exact Or.inr ⟨e.rectId, r, hi, hr, by simpa using he⟩

/-! ## The vertical sweep line -/

/-- After the horizontal events `done`, the sweep line holds the edges of the
rectangles that have been entered and not left. -/
def LineOf (rects : List (Rect TNum)) (done : List (SweepEvent TNum))
    (vEvents : SweepEvents TNum) : Prop :=
  ∀ e, e ∈ vEvents ↔ ∃ r, rects[e.rectId]? = some r ∧ r.Nonempty ∧ IsVEvent r e ∧
    ⟨.start, r.left, e.rectId⟩ ∈ done ∧ ⟨.stop, r.right, e.rectId⟩ ∉ done

theorem lineOf_nil : LineOf rects [] .empty := by
  intro e
  simp

/-- Entering a rectangle: its two edges are new on the line. -/
theorem markSweepLine_start {r : Rect TNum} {i : Nat} {done : List (SweepEvent TNum)}
    {vEvents : SweepEvents TNum} (hline : LineOf rects done vEvents)
    (hi : rects[i]? = some r) (hr : r.Nonempty)
    (hnew : ⟨.start, r.left, i⟩ ∉ done) (hopen : ⟨.stop, r.right, i⟩ ∉ done) :
    ∃ vEvents', markSweepLine r ⟨.start, r.left, i⟩ vEvents = some vEvents' ∧
      LineOf rects (done ++ [⟨.start, r.left, i⟩]) vEvents' := by
  refine ⟨_, rfl, ?_⟩
  have habsent : ∀ y ∈ vEvents, y.rectId ≠ i := by
    rintro y hy rfl
    obtain ⟨r', hr', _, _, hdone, _⟩ := (hline y).mp hy
    obtain rfl : r = r' := Option.some.inj (hi.symm.trans hr')
    exact hnew hdone
  have htop : ∀ y ∈ vEvents, ¬ Equivalent SweepEvent.lt ⟨.start, r.top, i⟩ y :=
    fun y hy heq => habsent y hy (SweepEvent.equivalent_iff.mp heq).2.symm
  have hbottom : ∀ y ∈ vEvents.insert ⟨.start, r.top, i⟩,
      ¬ Equivalent SweepEvent.lt ⟨.stop, r.bottom, i⟩ y := by
    intro y hy heq
    have hpos := SweepEvent.equivalent_iff.mp heq
    rcases OrderedSet.mem_or_eq_of_mem_insert hy with hy | rfl
    · exact habsent y hy hpos.2.symm
    · exact absurd hpos.1 (ne_of_gt hr.2)
  intro e
  rw [OrderedSet.mem_insert_iff hbottom, OrderedSet.mem_insert_iff htop, hline e]
  simp only [List.mem_append, List.mem_singleton]
  constructor
  · rintro ((⟨r', hr', hne, hv, hs, ht⟩ | rfl) | rfl)
    · refine ⟨r', hr', hne, hv, Or.inl hs, ?_⟩
      simp [ht]
    · exact ⟨r, hi, hr, Or.inl rfl, Or.inr rfl, by simp [hopen]⟩
    · exact ⟨r, hi, hr, Or.inr rfl, Or.inr rfl, by simp [hopen]⟩
  · rintro ⟨r', hr', hne, hv, hs, ht⟩
    have htdone : (⟨.stop, r'.right, e.rectId⟩ : SweepEvent TNum) ∉ done :=
      fun h => ht (Or.inl h)
    rcases hs with hs | hs
    · exact Or.inl (Or.inl ⟨r', hr', hne, hv, hs, htdone⟩)
    · have hid : e.rectId = i := (SweepEvent.mk.inj hs).2.2
      rw [hid] at hr'
      obtain rfl : r = r' := Option.some.inj (hi.symm.trans hr')
      rcases hv with hv | hv
      · exact Or.inl (Or.inr (by rw [hv, hid]))
      · exact Or.inr (by rw [hv, hid])

/-- Leaving a rectangle: both assertions hold, and exactly its edges go. -/
theorem markSweepLine_stop {r : Rect TNum} {i : Nat} {done : List (SweepEvent TNum)}
    {vEvents : SweepEvents TNum} (hline : LineOf rects done vEvents)
    (hi : rects[i]? = some r) (hr : r.Nonempty)
    (hentered : ⟨.start, r.left, i⟩ ∈ done) (hnew : ⟨.stop, r.right, i⟩ ∉ done) :
    ∃ vEvents', markSweepLine r ⟨.stop, r.right, i⟩ vEvents = some vEvents' ∧
      LineOf rects (done ++ [⟨.stop, r.right, i⟩]) vEvents' := by
  have htop : (⟨.start, r.top, i⟩ : SweepEvent TNum) ∈ vEvents :=
    (hline _).mpr ⟨r, hi, hr, Or.inl rfl, hentered, hnew⟩
  have hbottom : (⟨.stop, r.bottom, i⟩ : SweepEvent TNum) ∈ vEvents :=
    (hline _).mpr ⟨r, hi, hr, Or.inr rfl, hentered, hnew⟩
  obtain ⟨startIt, hstart⟩ :=
    Option.isSome_iff_exists.mp (OrderedSet.find?_isSome_of_mem htop)
  have hstartEq := SweepEvent.equivalent_iff.mp (OrderedSet.find?_eq_some hstart).2
  have hbottom' : (⟨.stop, r.bottom, i⟩ : SweepEvent TNum) ∈ vEvents.erase startIt := by
    refine OrderedSet.mem_erase.mpr ⟨hbottom, fun heq => ?_⟩
    have hpos := (SweepEvent.equivalent_iff.mp heq).1
    exact absurd (hstartEq.1.trans hpos) (ne_of_lt hr.2)
  obtain ⟨endIt, hend⟩ :=
    Option.isSome_iff_exists.mp (OrderedSet.find?_isSome_of_mem hbottom')
  have hendEq := SweepEvent.equivalent_iff.mp (OrderedSet.find?_eq_some hend).2
  refine ⟨(vEvents.erase startIt).erase endIt, ?_, ?_⟩
  · simp only [markSweepLine, hstart, hend, Option.bind_eq_bind, Option.bind_some]
  · intro e
    rw [OrderedSet.mem_erase, OrderedSet.mem_erase, SweepEvent.equivalent_iff,
      SweepEvent.equivalent_iff, ← hstartEq.1, ← hstartEq.2, ← hendEq.1, ← hendEq.2,
      hline e]
    simp only [List.mem_append, List.mem_singleton]
    constructor
    · rintro ⟨⟨⟨r', hr', hne, hv, hs, ht⟩, hnotTop⟩, hnotBottom⟩
      refine ⟨r', hr', hne, hv, Or.inl hs, ?_⟩
      rintro (h | h)
      · exact ht h
      · -- the rectangle that ends here would have had its edges removed
        have hid : e.rectId = i := (SweepEvent.mk.inj h).2.2
        rw [hid] at hr'
        obtain rfl : r = r' := Option.some.inj (hi.symm.trans hr')
        rcases hv with hv | hv
        · exact hnotTop ⟨by rw [hv], hid.symm⟩
        · exact hnotBottom ⟨by rw [hv], hid.symm⟩
    · rintro ⟨r', hr', hne, hv, hs, ht⟩
      have hs' : (⟨.start, r'.left, e.rectId⟩ : SweepEvent TNum) ∈ done := by
        rcases hs with hs | hs
        · exact hs
        · exact absurd (SweepEvent.mk.inj hs).1 (by decide)
      have hid : i ≠ e.rectId := by
        rintro rfl
        obtain rfl : r = r' := Option.some.inj (hi.symm.trans hr')
        exact ht (Or.inr rfl)
      exact ⟨⟨⟨r', hr', hne, hv, hs', fun h => ht (Or.inl h)⟩, fun h => hid h.2⟩,
        fun h => hid h.2⟩

/-! ## The run -/

/-- An output and a strip key name the same horizontal band and set. -/
def RectSet.SameStrip (o : RectSet TNum) (top bottom : TNum) (s : IdSet) : Prop :=
  o.rect.top = top ∧ o.rect.bottom = bottom ∧ o.idSet = s

/-- The finished and started rectangles account for every strip at the lines in
`D`, the part of the plane the sweep has passed. -/
structure Tracks (rects : List (Rect TNum)) (D : TNum → Prop) (st : SweepState TNum) :
    Prop where
  /-- A finished rectangle is not empty and its strip is there all along it. -/
  finished : ∀ o ∈ st.out, o.rect.left < o.rect.right ∧
    ∀ x, o.rect.left ≤ x → x < o.rect.right →
      D x ∧ Strip rects x o.rect.top o.rect.bottom o.idSet
  /-- A started rectangle follows its strip up to the end of `D`. -/
  open_ : ∀ k ∈ st.started.keys, D k.left ∧ ∀ x, k.left ≤ x → D x → k.StripAt rects x
  /-- Every strip is in a finished or a started rectangle. -/
  complete : ∀ x top bottom s, D x → Strip rects x top bottom s →
    (∃ o ∈ st.out, o.SameStrip top bottom s ∧ o.rect.left ≤ x ∧ x < o.rect.right) ∨
    (∃ k ∈ st.started.keys, k.top = top ∧ k.bottom = bottom ∧ k.idSet = s ∧ k.left ≤ x)
  /-- Finished rectangles of one band do not overlap. -/
  apart : st.out.Pairwise fun a b => a.SameStrip b.rect.top b.rect.bottom b.idSet →
    a.rect.right ≤ b.rect.left
  /-- A started rectangle begins after the finished ones of its band. -/
  before : ∀ o ∈ st.out, ∀ k ∈ st.started.keys, o.SameStrip k.top k.bottom k.idSet →
    o.rect.right ≤ k.left

/-- The invariant does not speak of the line. -/
theorem Tracks.withLine {D : TNum → Prop} {st : SweepState TNum} (h : Tracks rects D st)
    (vEvents : SweepEvents TNum) : Tracks rects D { st with vEvents } :=
  ⟨h.finished, h.open_, h.complete, h.apart, h.before⟩

/-- One sweep line extends the invariant from the lines left of `x` to any `D`
on which the strips stay as they are at `x`. -/
theorem Tracks.sweepLine {x : TNum} {st st' : SweepState TNum}
    {closed : List (StartedRect TNum)} {D : TNum → Prop}
    (h : Tracks rects (· < x) st) (hstep : LineStep rects x st st' closed)
    (hbelow : ∀ z, z < x → D z) (hx : D x)
    (hconst : ∀ z top bottom s, D z → x ≤ z →
      (Strip rects z top bottom s ↔ Strip rects x top bottom s)) :
    Tracks rects D st' := by
  have hright : ∀ o ∈ st.out, o.rect.right ≤ x := by
    intro o ho
    obtain ⟨hlt, hall⟩ := h.finished o ho
    refine not_lt.mp fun hxr => ?_
    have hl : o.rect.left < x := (hall o.rect.left (le_refl _) hlt).1
    exact lt_irrefl x (hall x (le_of_lt hl) hxr).1
  have hmem : ∀ o, o ∈ st'.out ↔ o ∈ st.out ∨ ∃ k ∈ closed, k.close x = o := by
    intro o
    rw [hstep.out, List.mem_append, List.mem_map]
  refine ⟨?_, ?_, ?_, ?_, ?_⟩
  · intro o ho
    rcases (hmem o).mp ho with ho | ⟨k, hk, rfl⟩
    · refine ⟨(h.finished o ho).1, fun z h1 h2 => ?_⟩
      obtain ⟨hz, hs⟩ := (h.finished o ho).2 z h1 h2
      exact ⟨hbelow z hz, hs⟩
    · obtain ⟨hk, _⟩ := (hstep.closed_iff k).mp hk
      obtain ⟨hleft, hall⟩ := h.open_ k hk
      exact ⟨hleft, fun z h1 h2 => ⟨hbelow z h2, hall z h1 h2⟩⟩
  · intro k hk
    obtain ⟨hs, hk⟩ := (hstep.started k).mp hk
    have hlater : ∀ z, x ≤ z → D z → k.StripAt rects z :=
      fun z hxz hz => (hconst z _ _ _ hz hxz).mpr hs
    rcases hk with hk | ⟨hl, _⟩
    · obtain ⟨hleft, hall⟩ := h.open_ k hk
      refine ⟨hbelow _ hleft, fun z h1 hz => ?_⟩
      rcases lt_or_ge z x with hzx | hxz
      · exact hall z h1 hzx
      · exact hlater z hxz hz
    · exact ⟨hl ▸ hx, fun z h1 hz => hlater z (hl ▸ h1) hz⟩
  · intro z top bottom s hz hstrip
    rcases lt_or_ge z x with hzx | hxz
    · rcases h.complete z top bottom s hzx hstrip with ⟨o, ho, h'⟩ | ⟨k, hk, ht, hb, hs, hl⟩
      · exact Or.inl ⟨o, (hmem o).mpr (Or.inl ho), h'⟩
      · by_cases hat : k.StripAt rects x
        · exact Or.inr ⟨k, (hstep.started k).mpr ⟨hat, Or.inl hk⟩, ht, hb, hs, hl⟩
        · refine Or.inl ⟨k.close x, (hmem _).mpr (Or.inr ⟨k, ?_, rfl⟩), ⟨ht, hb, hs⟩, hl, hzx⟩
          exact (hstep.closed_iff k).mpr ⟨hk, hat⟩
    · -- at or after the line the strip is one of the line's own
      have hstrip' := (hconst z top bottom s hz hxz).mp hstrip
      by_cases hold : ∃ k ∈ st.started.keys, k.top = top ∧ k.bottom = bottom ∧ k.idSet = s
      · obtain ⟨k, hk, rfl, rfl, rfl⟩ := hold
        have hl : k.left < x := (h.open_ k hk).1
        exact Or.inr ⟨k, (hstep.started k).mpr ⟨hstrip', Or.inl hk⟩, rfl, rfl, rfl,
          le_trans (le_of_lt hl) hxz⟩
      · refine Or.inr ⟨⟨s, x, top, bottom⟩, (hstep.started _).mpr ⟨hstrip', Or.inr ⟨rfl, ?_⟩⟩,
          rfl, rfl, rfl, hxz⟩
        intro k' hk' heq
        obtain ⟨ht, hb, hs⟩ := StartedRect.equivalent_iff.mp heq
        exact hold ⟨k', hk', ht.symm, hb.symm, hs.symm⟩
  · rw [hstep.out, List.pairwise_append]
    refine ⟨h.apart, ?_, ?_⟩
    · rw [List.pairwise_map]
      refine hstep.closed_pairwise.imp fun hne hsame => ?_
      exact absurd (StartedRect.equivalent_iff.mpr ⟨hsame.1, hsame.2.1, hsame.2.2⟩) hne
    · intro o ho o' ho' hsame
      obtain ⟨k, hk, rfl⟩ := List.mem_map.mp ho'
      exact h.before o ho k ((hstep.closed_iff k).mp hk).1 hsame
  · intro o ho k hk hsame
    obtain ⟨hs, hk⟩ := (hstep.started k).mp hk
    rcases (hmem o).mp ho with ho | ⟨k', hk', rfl⟩
    · rcases hk with hk | ⟨hl, _⟩
      · exact h.before o ho k hk hsame
      · exact hl ▸ hright o ho
    · -- a closed rectangle has lost its strip, so no open one shares its band
      obtain ⟨_, hno⟩ := (hstep.closed_iff k').mp hk'
      obtain ⟨ht, hb, hid⟩ := hsame
      refine absurd ?_ hno
      unfold StartedRect.StripAt at hs ⊢
      dsimp only [StartedRect.close] at ht hb hid
      rw [ht, hb, hid]
      exact hs

/-- The lines the sweep has passed when the events `rest` are still to come. -/
def Passed (rest : List (SweepEvent TNum)) (x : TNum) : Prop := ∀ e ∈ rest, x < e.pos

theorem pos_le_of_lt {a b : SweepEvent TNum} (h : a.lt b) : a.pos ≤ b.pos := by
  rcases h with h | h
  · exact le_of_lt h
  · exact le_of_eq h.1

theorem passed_cons_iff {h : SweepEvent TNum} {rest : List (SweepEvent TNum)}
    (hsorted : (h :: rest).Pairwise SweepEvent.lt) (x : TNum) :
    Passed (h :: rest) x ↔ x < h.pos := by
  constructor
  · intro hp
    exact hp h List.mem_cons_self
  · intro hx e he
    rcases List.mem_cons.mp he with rfl | he
    · exact hx
    · exact lt_of_lt_of_le hx (pos_le_of_lt ((List.pairwise_cons.mp hsorted).1 e he))

section Run

variable {done rest : List (SweepEvent TNum)} {h : SweepEvent TNum}

/-- When the last event at a coordinate is marked, the line holds the edges of
exactly the rectangles crossed there. -/
theorem lineAt_of_lineOf {vEvents : SweepEvents TNum}
    (hall : ∀ e, e ∈ done ++ h :: rest ↔ IsHEvent rects e)
    (hsorted : (done ++ h :: rest).Pairwise SweepEvent.lt)
    (hlast : Passed rest h.pos) (hline : LineOf rects (done ++ [h]) vEvents) :
    LineAt rects h.pos vEvents.elems := by
  have hle : ∀ e ∈ done ++ [h], e.pos ≤ h.pos := by
    intro e he
    rcases List.mem_append.mp he with he | he
    · exact pos_le_of_lt ((List.pairwise_append.mp hsorted).2.2 e he h List.mem_cons_self)
    · rw [List.mem_singleton.mp he]
  have hdone : ∀ e, IsHEvent rects e → (e ∈ done ++ [h] ↔ e.pos ≤ h.pos) := by
    intro e he
    constructor
    · exact hle e
    · intro hpos
      have hmem := (hall e).mpr he
      rw [← List.singleton_append, ← List.append_assoc, List.mem_append] at hmem
      rcases hmem with hmem | hmem
      · exact hmem
      · exact absurd (hlast e hmem) (not_lt.mpr hpos)
  intro e
  rw [← OrderedSet.mem_def, hline e]
  constructor
  · rintro ⟨r, hr, hne, hv, hs, ht⟩
    have hleft := hdone ⟨.start, r.left, e.rectId⟩ ⟨r, hr, hne, Or.inl rfl⟩
    have hright := hdone ⟨.stop, r.right, e.rectId⟩ ⟨r, hr, hne, Or.inr rfl⟩
    exact ⟨r, hr, ⟨hne, hleft.mp hs, not_le.mp fun hle => ht (hright.mpr hle)⟩, hv⟩
  · rintro ⟨r, hr, ⟨hne, hl, hrt⟩, hv⟩
    have hleft := hdone ⟨.start, r.left, e.rectId⟩ ⟨r, hr, hne, Or.inl rfl⟩
    have hright := hdone ⟨.stop, r.right, e.rectId⟩ ⟨r, hr, hne, Or.inr rfl⟩
    exact ⟨r, hr, hne, hv, hleft.mpr hl, fun hin => absurd hrt (not_lt.mpr (hright.mp hin))⟩

/-- Between two neighbouring event coordinates the same rectangles are crossed. -/
theorem crosses_const (hall : ∀ e, e ∈ done ++ h :: rest ↔ IsHEvent rects e)
    (hsorted : (done ++ h :: rest).Pairwise SweepEvent.lt)
    {z : TNum} (hz : Passed rest z) (hxz : h.pos ≤ z) :
    ∀ r ∈ rects, Crosses z r ↔ Crosses h.pos r := by
  intro r hr
  obtain ⟨i, hi⟩ := List.mem_iff_getElem?.mp hr
  have hside : ∀ e, IsHEvent rects e → (e.pos ≤ z ↔ e.pos ≤ h.pos) := by
    intro e he
    constructor
    · intro hez
      have hmem := (hall e).mpr he
      rw [List.mem_append, List.mem_cons] at hmem
      rcases hmem with hmem | rfl | hmem
      · exact pos_le_of_lt ((List.pairwise_append.mp hsorted).2.2 e hmem h List.mem_cons_self)
      · exact le_refl _
      · exact absurd (hz e hmem) (not_lt.mpr hez)
    · intro hex
      exact le_trans hex hxz
  unfold Crosses
  refine and_congr_right fun hne => and_congr ?_ ?_
  · exact hside ⟨.start, r.left, i⟩ ⟨r, hi, hne, Or.inl rfl⟩
  · rw [← not_le, ← not_le]
    exact not_congr (hside ⟨.stop, r.right, i⟩ ⟨r, hi, hne, Or.inr rfl⟩)

/-- Marking never fails and keeps the line invariant. -/
theorem markSweepLine_lineOf {vEvents : SweepEvents TNum}
    (hall : ∀ e, e ∈ done ++ h :: rest ↔ IsHEvent rects e)
    (hsorted : (done ++ h :: rest).Pairwise SweepEvent.lt)
    (hline : LineOf rects done vEvents) :
    ∃ r vEvents', rects[h.rectId]? = some r ∧ markSweepLine r h vEvents = some vEvents' ∧
      LineOf rects (done ++ [h]) vEvents' := by
  obtain ⟨r, hr, hne, hh⟩ := (hall h).mp (by simp)
  have hirrefl : ∀ e : SweepEvent TNum, ¬ e.lt e := irrefl
  have hbefore : ∀ e ∈ done, e.lt h := fun e he =>
    (List.pairwise_append.mp hsorted).2.2 e he h List.mem_cons_self
  have hafter : ∀ e ∈ rest, h.lt e :=
    (List.pairwise_cons.mp (List.pairwise_append.mp hsorted).2.1).1
  have hnotDone : h ∉ done := fun hd => hirrefl h (hbefore h hd)
  refine ⟨r, ?_⟩
  rcases hh with hh | hh
  · -- the right edge of this rectangle lies after its left edge
    have hopen : (⟨.stop, r.right, h.rectId⟩ : SweepEvent TNum) ∉ done := by
      intro hd
      have hpos := pos_le_of_lt (hbefore _ hd)
      rw [hh] at hpos
      exact absurd hne.1 (not_lt.mpr hpos)
    rw [hh] at hnotDone
    obtain ⟨vEvents', hmark, hline'⟩ := markSweepLine_start hline hr hne hnotDone hopen
    rw [← hh] at hmark hline'
    exact ⟨vEvents', hr, hmark, hline'⟩
  · have hentered : (⟨.start, r.left, h.rectId⟩ : SweepEvent TNum) ∈ done := by
      have hmem := (hall ⟨.start, r.left, h.rectId⟩).mpr ⟨r, hr, hne, Or.inl rfl⟩
      rw [List.mem_append, List.mem_cons] at hmem
      have hpos : h.pos = r.right := by rw [hh]
      rcases hmem with hmem | hmem | hmem
      · exact hmem
      · rw [← hmem] at hpos
        exact absurd hpos (ne_of_lt hne.1)
      · have hle := pos_le_of_lt (hafter _ hmem)
        rw [hpos] at hle
        exact absurd hne.1 (not_lt.mpr hle)
    rw [hh] at hnotDone
    obtain ⟨vEvents', hmark, hline'⟩ := markSweepLine_stop hline hr hne hentered hnotDone
    rw [← hh] at hmark hline'
    exact ⟨vEvents', hr, hmark, hline'⟩

end Run

/-- The induction rule of the sweep.  What speaks of the part of the plane that has been
passed, and not of the line, holds of the whole plane after the sweep when every stop extends
it to the lines on which the strips stay. -/
theorem sweep_induct (hlen : rects.length ≤ 64)
    {I : (TNum → Prop) → SweepState TNum → Prop}
    (hvEvents : ∀ D st vEvents, I D st → I D { st with vEvents })
    (hstop : ∀ x D st st' closed, I (· < x) st → LineStep rects x st st' closed →
      (∀ z, z < x → D z) → D x →
      (∀ z top bottom s, D z → x ≤ z →
        (Strip rects z top bottom s ↔ Strip rects x top bottom s)) → I D st') :
    ∀ (rest done : List (SweepEvent TNum)) (st : SweepState TNum),
      (∀ e, e ∈ done ++ rest ↔ IsHEvent rects e) →
      (done ++ rest).Pairwise SweepEvent.lt →
      LineOf rects done st.vEvents → I (Passed rest) st →
      ∃ st', sweep rects rest st = some st' ∧ I (fun _ => True) st' := by
  intro rest
  induction rest with
  | nil =>
      intro done st _ _ _ hinv
      refine ⟨st, rfl, ?_⟩
      have hD : Passed ([] : List (SweepEvent TNum)) = fun _ => True := by
        funext x
        simp [Passed]
      rw [← hD]
      exact hinv
  | cons h rest ih =>
      intro done st hall hsorted hline hinv
      obtain ⟨r, vEvents, hr, hmark, hline'⟩ := markSweepLine_lineOf hall hsorted hline
      have hassoc : done ++ h :: rest = (done ++ [h]) ++ rest := by simp
      have hall' : ∀ e, e ∈ (done ++ [h]) ++ rest ↔ IsHEvent rects e := hassoc ▸ hall
      have hsorted' : ((done ++ [h]) ++ rest).Pairwise SweepEvent.lt := hassoc ▸ hsorted
      have htail := (List.pairwise_append.mp hsorted).2.1
      have hD : Passed (h :: rest) = (· < h.pos) := by
        funext x
        exact propext (passed_cons_iff htail x)
      rw [hD] at hinv
      have hinv' : I (· < h.pos) { st with vEvents } := hvEvents _ st vEvents hinv
      rw [sweep, hr]
      simp only [Option.bind_eq_bind, Option.bind_some, hmark]
      split
      · -- the next event shares the coordinate, so nothing more has been passed
        rename_i hnext
        refine ih (done ++ [h]) { st with vEvents } hall' hsorted' hline' ?_
        cases rest with
        | nil => simp at hnext
        | cons next rest =>
            have hpos : next.pos = h.pos := by simpa using hnext
            have hD' : Passed (next :: rest) = (· < h.pos) := by
              funext x
              rw [← hpos]
              exact propext (passed_cons_iff (List.pairwise_cons.mp htail).2 x)
            rw [hD']
            exact hinv'
      · rename_i hnext
        have hlast : Passed rest h.pos := by
          cases rest with
          | nil => simp [Passed]
          | cons next rest =>
              have hne : next.pos ≠ h.pos := by simpa using hnext
              have hlt : h.lt next := (List.pairwise_cons.mp htail).1 next List.mem_cons_self
              exact (passed_cons_iff (List.pairwise_cons.mp htail).2 h.pos).mpr
                (lt_of_le_of_ne (pos_le_of_lt hlt) hne.symm)
        have hlineAt := lineAt_of_lineOf hall hsorted hlast hline'
        obtain ⟨st', closed, hsweep, hstep⟩ :=
          @sweepLine_step _ _ _ _ { st with vEvents } hlen hlineAt
        rw [hsweep, Option.bind_some]
        refine ih (done ++ [h]) st' hall' hsorted' ?_ ?_
        · rw [hstep.vEvents]
          exact hline'
        · refine hstop h.pos _ _ st' closed hinv' hstep ?_ hlast ?_
          · intro z hz e he
            exact lt_trans hz (hlast e he)
          · intro z top bottom s hz hxz
            have hcross := crosses_const hall hsorted hz hxz
            exact ⟨strip_congr hcross, strip_congr fun r hr => (hcross r hr).symm⟩

/-- The rule for the whole sweep of `separate_rects`. -/
theorem separateRects_induct (hlen : rects.length ≤ IdSet.maxElements)
    {I : (TNum → Prop) → SweepState TNum → Prop}
    (hvEvents : ∀ D st vEvents, I D st → I D { st with vEvents })
    (hstop : ∀ x D st st' closed, I (· < x) st → LineStep rects x st st' closed →
      (∀ z, z < x → D z) → D x →
      (∀ z top bottom s, D z → x ≤ z →
        (Strip rects z top bottom s ↔ Strip rects x top bottom s)) → I D st')
    (hinit : I (Passed (sweepHEvents rects).elems) ⟨.empty, .empty, []⟩) :
    ∃ st, separateRects rects [] = some st.out ∧ I (fun _ => True) st := by
  have hall : ∀ e, e ∈ [] ++ (sweepHEvents rects).elems ↔ IsHEvent rects e := by
    intro e
    rw [List.nil_append, ← OrderedSet.mem_def]
    exact mem_sweepHEvents
  obtain ⟨st, hst, hinv⟩ := sweep_induct hlen hvEvents hstop (sweepHEvents rects).elems []
    ⟨.empty, .empty, []⟩ hall (by simpa using (sweepHEvents rects).sorted) lineOf_nil hinit
  refine ⟨st, ?_, hinv⟩
  rw [separateRects, if_neg (not_lt.mpr hlen), hst]
  rfl

/-! ## The exact disjoint cover -/

/-- `out` covers exactly the points of `rects`, once each, and every output
carries the set of the inputs over it. -/
structure ExactCover (rects : List (Rect TNum)) (out : List (RectSet TNum)) : Prop where
  nonempty : ∀ o ∈ out, o.rect.Nonempty
  disjoint : out.Pairwise fun a b => a.rect.Disjoint b.rect
  covers : ∀ x y, (∃ o ∈ out, o.rect.Contains x y) ↔ ∃ i, Covers rects x y i
  idSet : ∀ o ∈ out, ∀ x y, o.rect.Contains x y → ∀ i, o.idSet.Mem i ↔ Covers rects x y i

theorem tracks_init : Tracks rects (Passed (sweepHEvents rects).elems) ⟨.empty, .empty, []⟩ := by
  refine ⟨by simp, by simp [OrderedMap.keys, OrderedMap.empty], ?_, by simp, by simp⟩
  -- left of the first event no rectangle is crossed, so there is no strip
  intro x top bottom s hx hstrip
  obtain ⟨r, hr, ⟨hne, hl, _⟩, _⟩ := hstrip.top_edge
  obtain ⟨i, hi⟩ := List.mem_iff_getElem?.mp hr
  have hmem : (⟨.start, r.left, i⟩ : SweepEvent TNum) ∈ sweepHEvents rects :=
    mem_sweepHEvents.mpr ⟨r, hi, hne, Or.inl rfl⟩
  exact absurd (hx _ hmem) (not_lt.mpr hl)

/-- A started rectangle that follows its strip over the whole plane would need a
rectangle without a right edge. -/
theorem Tracks.no_open {st : SweepState TNum} (h : Tracks rects (fun _ => True) st)
    {k : StartedRect TNum} (hk : k ∈ st.started.keys) : False := by
  obtain ⟨_, hall⟩ := h.open_ k hk
  have hbound : ∀ l : List (Rect TNum), ∃ z, k.left ≤ z ∧ ∀ r ∈ l, r.right ≤ z := by
    intro l
    induction l with
    | nil => exact ⟨k.left, le_refl _, by simp⟩
    | cons r l ih =>
        obtain ⟨z, hz, hl⟩ := ih
        refine ⟨max z r.right, le_trans hz (le_max_left _ _), ?_⟩
        intro r' hr'
        rcases List.mem_cons.mp hr' with rfl | hr'
        · exact le_max_right _ _
        · exact le_trans (hl r' hr') (le_max_left _ _)
  obtain ⟨z, hz, hright⟩ := hbound rects
  obtain ⟨r, hr, hc, _⟩ := (hall z hz trivial).top_edge
  exact absurd hc.2.2 (not_lt.mpr (hright r hr))

theorem Tracks.exactCover {st : SweepState TNum} (hlen : rects.length ≤ 64)
    (h : Tracks rects (fun _ => True) st) : ExactCover rects st.out := by
  have hstrip : ∀ o ∈ st.out, ∀ x y, o.rect.Contains x y →
      Strip rects x o.rect.top o.rect.bottom o.idSet := fun o ho x y hc =>
    ((h.finished o ho).2 x hc.1.1 hc.1.2).2
  refine ⟨?_, ?_, ?_, ?_⟩
  · intro o ho
    obtain ⟨hlt, hall⟩ := h.finished o ho
    exact ⟨hlt, (hall o.rect.left (le_refl _) hlt).2.top_lt_bottom⟩
  · refine List.Pairwise.imp_of_mem ?_ h.apart
    intro a b ha hb hap x y hax hbx
    -- two outputs over one point lie in one strip, so they cannot overlap
    obtain ⟨ht, hb', hs⟩ :=
      (hstrip a ha x y hax).unique (hstrip b hb x y hbx) hax.2 hbx.2
    exact absurd (lt_of_le_of_lt hbx.1.1 hax.1.2) (not_lt.mpr (hap ⟨ht, hb', hs⟩))
  · intro x y
    constructor
    · rintro ⟨o, ho, hc⟩
      have hs := hstrip o ho x y hc
      have hnot : ¬ ∀ i, ¬ o.idSet.Mem i := by
        intro hempty
        have := IdSet.isEmpty_iff.mpr hempty
        rw [hs.occupied] at this
        exact absurd this (by decide)
      obtain ⟨i, hi⟩ := not_forall_not.mp hnot
      exact ⟨i, (hs.mem_iff_covers hc.2.1 hc.2.2 i).mp hi⟩
    · rintro ⟨i, hi⟩
      obtain ⟨top, bottom, s, hs, hty, hyb⟩ := exists_strip_of_covers hlen hi
      rcases h.complete x top bottom s trivial hs with
        ⟨o, ho, ⟨ht, hb, _⟩, hl, hr⟩ | ⟨k, hk, _⟩
      · exact ⟨o, ho, ⟨hl, hr⟩, ht ▸ hty, hb ▸ hyb⟩
      · exact absurd hk h.no_open
  · intro o ho x y hc i
    exact (hstrip o ho x y hc).mem_iff_covers hc.2.1 hc.2.2 i

/-- The sweep at any ordered coordinate type: no assertion fails and the output
is an exact disjoint cover. -/
theorem separateRects_exactCover (hlen : rects.length ≤ IdSet.maxElements) :
    ∃ out, separateRects rects [] = some out ∧ ExactCover rects out := by
  obtain ⟨st, hst, htracks⟩ := separateRects_induct hlen (I := Tracks rects)
    (fun _ _ vEvents h => h.withLine vEvents)
    (fun _ _ _ _ _ h hstep hbelow hx hconst => h.sweepLine hstep hbelow hx hconst) tracks_init
  exact ⟨st.out, hst, htracks.exactCover hlen⟩

/-- `separate_rects_64` on at most 64 rectangles, empty and inverted ones
included. -/
theorem separateRects64_exact_disjoint_cover (rects : List (Rect Int))
    (hlen : rects.length ≤ 64) :
    ∃ out, separateRects64 rects [] = some out ∧
      (∀ o ∈ out, o.rect.Nonempty) ∧
      (out.Pairwise fun a b => ∀ x y, a.rect.Contains x y → ¬ b.rect.Contains x y) ∧
      (∀ x y, (∃ o ∈ out, o.rect.Contains x y) ↔
        ∃ (i : Nat) (r : Rect Int), rects[i]? = some r ∧ r.Nonempty ∧ r.Contains x y) ∧
      (∀ o ∈ out, ∀ x y, o.rect.Contains x y → ∀ i, o.idSet.Mem i ↔
        ∃ r : Rect Int, rects[i]? = some r ∧ r.Nonempty ∧ r.Contains x y) := by
  have hcovers : ∀ (x y : Int) (i : Nat), Covers rects x y i ↔
      ∃ r : Rect Int, rects[i]? = some r ∧ r.Nonempty ∧ r.Contains x y := by
    intro x y i
    constructor
    · rintro ⟨r, hr, hc⟩
      exact ⟨r, hr, hc.nonempty, hc⟩
    · rintro ⟨r, hr, _, hc⟩
      exact ⟨r, hr, hc⟩
  obtain ⟨out, hout, hcover⟩ := @separateRects_exactCover Int _ rects hlen
  refine ⟨out, hout, hcover.nonempty, hcover.disjoint, ?_, ?_⟩
  · intro x y
    rw [hcover.covers]
    exact exists_congr (hcovers x y)
  · intro o ho x y hc i
    rw [hcover.idSet o ho x y hc, hcovers]

theorem separateRects64_exact_disjoint_cover_overlap :
    ([⟨0, 0, 4, 5⟩, ⟨2, 0, 6, 6⟩, ⟨3, 3, 3, 9⟩] : List (Rect Int)).length ≤ 64 ∧
    ∃ out, separateRects64 [⟨0, 0, 4, 5⟩, ⟨2, 0, 6, 6⟩, ⟨3, 3, 3, 9⟩] [] = some out ∧
      ∃ o ∈ out, o.rect.Contains 3 1 := by
  refine ⟨by decide, ?_⟩
  obtain ⟨out, hout, _, _, hcover, _⟩ :=
    separateRects64_exact_disjoint_cover [⟨0, 0, 4, 5⟩, ⟨2, 0, 6, 6⟩, ⟨3, 3, 3, 9⟩]
      (by decide)
  refine ⟨out, hout, (hcover 3 1).mpr ⟨0, ⟨0, 0, 4, 5⟩, rfl, ?_, ?_⟩⟩
  · exact ⟨by decide, by decide⟩
  · decide

end DragonDevice.Hwc
