/-
  Hwc/SeparateRects.lean --- `drm_hwcomposer/separate_rects.{h,cpp}`.

  A line sweep that turns at most 64 rectangles into disjoint ones, each with
  the set of input indices it belongs to.  The sweep is generic in the
  coordinate type, as the template is; `separateRects64` is its instance at
  `int`.  Every `assert` of the source is an `Option` that is `none` when the
  assertion fails.
-/
import DragonDevice.Lib.OrderedContainers
import Mathlib.Data.Int.Order.Basic
import Mathlib.Order.Lattice

set_option autoImplicit false

namespace DragonDevice.Hwc

open DragonDevice.Lib

/-! ## Rectangles and index sets -/

/-- `separate_rects::Rect`. -/
structure Rect (TNum : Type) where
  left : TNum
  top : TNum
  right : TNum
  bottom : TNum
  deriving DecidableEq, Repr, Inhabited

namespace Rect

variable {TNum : Type}

def width [Sub TNum] (r : Rect TNum) : TNum := r.right - r.left

def height [Sub TNum] (r : Rect TNum) : TNum := r.bottom - r.top

def area [Sub TNum] [Mul TNum] (r : Rect TNum) : TNum := r.width * r.height

end Rect

/-- `IdSet<uint64_t>`: a set of rectangle indices packed in 64 bits. -/
structure IdSet where
  bitset : BitVec 64
  deriving DecidableEq, Repr, Inhabited

namespace IdSet

/-- `IdSet<TId>::max_elements`, that is `sizeof(TId) * 8`. -/
def maxElements : Nat := 64

def empty : IdSet := ⟨0#64⟩

def add (s : IdSet) (id : Nat) : IdSet := ⟨s.bitset ||| (1#64 <<< id)⟩

def subtract (s : IdSet) (id : Nat) : IdSet := ⟨s.bitset &&& ~~~(1#64 <<< id)⟩

def isEmpty (s : IdSet) : Bool := s.bitset == 0#64

def getBits (s : IdSet) : BitVec 64 := s.bitset

/-- `operator<`. -/
def lt (a b : IdSet) : Prop := a.bitset < b.bitset

instance (a b : IdSet) : Decidable (a.lt b) :=
  inferInstanceAs (Decidable (a.bitset < b.bitset))

/-- The index is in the set. -/
def Mem (id : Nat) (s : IdSet) : Prop := s.bitset.getLsbD id = true

instance (id : Nat) (s : IdSet) : Decidable (s.Mem id) :=
  inferInstanceAs (Decidable (_ = true))

theorem mem_add {s : IdSet} {id i : Nat} (hid : id < 64) :
    (s.add id).Mem i ↔ s.Mem i ∨ i = id := by
  simp only [Mem, add, BitVec.getLsbD_or, BitVec.getLsbD_shiftLeft,
    BitVec.getLsbD_one, Bool.or_eq_true, Bool.and_eq_true, decide_eq_true_eq,
    Bool.not_eq_true', decide_eq_false_iff_not]
  constructor
  · rintro (h | h)
    · exact Or.inl h
    · exact Or.inr (by omega)
  · rintro (h | rfl)
    · exact Or.inl h
    · exact Or.inr (by omega)

theorem mem_subtract {s : IdSet} {id i : Nat} :
    (s.subtract id).Mem i ↔ s.Mem i ∧ i ≠ id := by
  simp only [Mem, subtract, BitVec.getLsbD_and, BitVec.getLsbD_not,
    BitVec.getLsbD_shiftLeft, BitVec.getLsbD_one, Bool.and_eq_true,
    decide_eq_true_eq, Bool.not_eq_true', Bool.and_eq_false_iff,
    decide_eq_false_iff_not, Bool.not_eq_false']
  constructor
  · rintro ⟨h, hi, hbit⟩
    exact ⟨h, by omega⟩
  · rintro ⟨h, hne⟩
    have hi : i < 64 := BitVec.lt_of_getLsbD h
    exact ⟨h, hi, by omega⟩

theorem ext_mem {a b : IdSet} (h : ∀ i, a.Mem i ↔ b.Mem i) : a = b := by
  obtain ⟨a⟩ := a
  obtain ⟨b⟩ := b
  have hbits : a = b := BitVec.eq_of_getLsbD_eq fun i _ => Bool.eq_iff_iff.mpr (h i)
  rw [hbits]

theorem not_mem_empty (i : Nat) : ¬ empty.Mem i := by
  simp [Mem, empty]

theorem isEmpty_iff {s : IdSet} : s.isEmpty = true ↔ ∀ i, ¬ s.Mem i := by
  constructor
  · intro h i
    have hs : s = empty := congrArg mk (by simpa [isEmpty] using h)
    rw [hs]
    exact not_mem_empty i
  · intro h
    have hs : s = empty := ext_mem fun i => iff_of_false (h i) (not_mem_empty i)
    rw [hs]
    rfl

end IdSet

/-- `RectSet`: an output rectangle with the indices of the inputs over it. -/
structure RectSet (TNum : Type) where
  idSet : IdSet
  rect : Rect TNum
  deriving DecidableEq, Repr, Inhabited

/-! ## Events and started rectangles -/

inductive EventType where
  | start
  | stop
  deriving DecidableEq, Repr

/-- `SweepEvent`.  The source's union of `x` and `y` is the one field `pos`. -/
structure SweepEvent (TNum : Type) where
  type : EventType
  pos : TNum
  rectId : Nat
  deriving DecidableEq, Repr

/-- `StartedRect`: a rectangle whose right edge is not known yet. -/
structure StartedRect (TNum : Type) where
  idSet : IdSet
  left : TNum
  top : TNum
  bottom : TNum
  deriving DecidableEq, Repr

variable {TNum : Type} [LinearOrder TNum]

/-- `SweepEvent::operator<`; the event type is not compared. -/
def SweepEvent.lt (a b : SweepEvent TNum) : Prop :=
  a.pos < b.pos ∨ (a.pos = b.pos ∧ a.rectId < b.rectId)

instance : DecidableRel (@SweepEvent.lt TNum _) :=
  fun _ _ => inferInstanceAs (Decidable (_ ∨ _))

/-- `StartedRect::operator<`; `left` is not part of the key. -/
def StartedRect.lt (a b : StartedRect TNum) : Prop :=
  (a.top < b.top ∨ (a.top = b.top ∧ a.bottom < b.bottom)) ∨
    (a.top = b.top ∧ a.bottom = b.bottom ∧ a.idSet.lt b.idSet)

instance : DecidableRel (@StartedRect.lt TNum _) :=
  fun _ _ => inferInstanceAs (Decidable (_ ∨ _))

theorem SweepEvent.equivalent_iff {a b : SweepEvent TNum} :
    Equivalent SweepEvent.lt a b ↔ a.pos = b.pos ∧ a.rectId = b.rectId := by
  simp only [Equivalent, SweepEvent.lt]
  grind

instance : IsStrictOrder (SweepEvent TNum) SweepEvent.lt where
  irrefl a h := by
    rcases h with h | ⟨_, h⟩
    · exact lt_irrefl _ h
    · exact Nat.lt_irrefl _ h
  trans a b c hab hbc := by
    simp only [SweepEvent.lt] at hab hbc ⊢
    grind

theorem StartedRect.equivalent_iff {a b : StartedRect TNum} :
    Equivalent StartedRect.lt a b ↔
      a.top = b.top ∧ a.bottom = b.bottom ∧ a.idSet = b.idSet := by
  obtain ⟨⟨sa⟩, la, ta, ba⟩ := a
  obtain ⟨⟨sb⟩, lb, tb, bb⟩ := b
  simp only [Equivalent, StartedRect.lt, IdSet.lt, IdSet.mk.injEq,
    BitVec.lt_def, ← BitVec.toNat_inj]
  grind

instance : IsStrictWeakOrder (StartedRect TNum) StartedRect.lt where
  irrefl a h := by
    have heq : Equivalent StartedRect.lt a a :=
      StartedRect.equivalent_iff.mpr ⟨rfl, rfl, rfl⟩
    exact heq.1 h
  trans a b c hab hbc := by
    simp only [StartedRect.lt, IdSet.lt, BitVec.lt_def] at hab hbc ⊢
    grind
  incomp_trans a b c hab hbc := by
    have h1 := StartedRect.equivalent_iff.mp hab
    have h2 := StartedRect.equivalent_iff.mp hbc
    exact StartedRect.equivalent_iff.mpr
      ⟨h1.1.trans h2.1, h1.2.1.trans h2.2.1, h1.2.2.trans h2.2.2⟩

/-! ## The sweep -/

/-- `std::set<SweepEvent>`. -/
abbrev SweepEvents (TNum : Type) [LinearOrder TNum] : Type :=
  OrderedSet (SweepEvent TNum) SweepEvent.lt

/-- `std::map<StartedRect, bool>`; the flag is "seen during this sweep line". -/
abbrev StartedRects (TNum : Type) [LinearOrder TNum] : Type :=
  OrderedMap (StartedRect TNum) Bool StartedRect.lt

/-- The first pass: the horizontal start and end event of every rectangle that
is neither empty nor inverted. -/
def addSweepEvents (events : SweepEvents TNum) (entry : Rect TNum × Nat) :
    SweepEvents TNum :=
  let (rect, i) := entry
  if rect.left ≥ rect.right ∨ rect.top ≥ rect.bottom then events
  else (events.insert ⟨.start, rect.left, i⟩).insert ⟨.stop, rect.right, i⟩

def sweepHEvents (rects : List (Rect TNum)) : SweepEvents TNum :=
  rects.zipIdx.foldl addSweepEvents .empty

/-- One horizontal event adds the rectangle's top and bottom to the vertical
sweep line, or removes them.  The removal asserts that both are found. -/
def markSweepLine (rect : Rect TNum) (hEvt : SweepEvent TNum)
    (vEvents : SweepEvents TNum) : Option (SweepEvents TNum) :=
  match hEvt.type with
  | .start =>
      some ((vEvents.insert ⟨.start, rect.top, hEvt.rectId⟩).insert
        ⟨.stop, rect.bottom, hEvt.rectId⟩)
  | .stop => do
      let startIt ← vEvents.find? ⟨.start, rect.top, hEvt.rectId⟩
      let vEvents := vEvents.erase startIt
      let endIt ← vEvents.find? ⟨.stop, rect.bottom, hEvt.rectId⟩
      some (vEvents.erase endIt)

/-- The running set of the vertical pass after one more event. -/
def stepActiveSet (activeSet : IdSet) (vEvt : SweepEvent TNum) : IdSet :=
  match vEvt.type with
  | .start => activeSet.add vEvt.rectId
  | .stop => activeSet.subtract vEvt.rectId

/-- `active_regions` and the running `active_set` after one more event: a
coordinate met again only replaces the set recorded for it. -/
def stepActiveRegions (acc : List (TNum × IdSet) × IdSet) (vEvt : SweepEvent TNum) :
    List (TNum × IdSet) × IdSet :=
  let activeSet := stepActiveSet acc.2 vEvt
  if acc.1.getLast?.map (·.1) = some vEvt.pos then
    (acc.1.dropLast ++ [(vEvt.pos, activeSet)], activeSet)
  else (acc.1 ++ [(vEvt.pos, activeSet)], activeSet)

def activeRegions (vEvents : List (SweepEvent TNum)) : List (TNum × IdSet) :=
  (vEvents.foldl stepActiveRegions ([], .empty)).1

/-- Mark the started rectangle of this key as seen, or start it. -/
def seeRegion (key : StartedRect TNum) (started : StartedRects TNum) :
    StartedRects TNum :=
  match started.find? key with
  | none => started.set key true
  | some entry => started.set entry.1 true

/-- The loop over `active_regions`.  A region with a non-empty set asserts that
a next region bounds it. -/
def seeRegions (x : TNum) :
    List (TNum × IdSet) → StartedRects TNum → Option (StartedRects TNum)
  | [], started => some started
  | (regionTop, regionSet) :: rest, started =>
      if regionSet.isEmpty then seeRegions x rest started
      else
        match rest with
        | [] => none
        | (regionBottom, _) :: _ =>
            seeRegions x rest
              (seeRegion ⟨regionSet, x, regionTop, regionBottom⟩ started)

/-- The output of a started rectangle whose right edge is at `x`. -/
def StartedRect.close (x : TNum) (proto : StartedRect TNum) : RectSet TNum :=
  ⟨proto.idSet, ⟨proto.left, proto.top, x, proto.bottom⟩⟩

structure SweepState (TNum : Type) [LinearOrder TNum] where
  vEvents : SweepEvents TNum
  started : StartedRects TNum
  out : List (RectSet TNum)

/-- What happens at a sweep line once all its events are marked: the started
rectangles not seen any more end here. -/
def sweepLine (x : TNum) (st : SweepState TNum) : Option (SweepState TNum) := do
  let started ← seeRegions x (activeRegions st.vEvents.elems) (st.started.fill false)
  some
    { vEvents := st.vEvents
      started := started.filter (·.2)
      out := st.out ++ (started.entries.filter (!·.2)).map fun e => e.1.close x }

/-- The sweep over the horizontal events.  An event that shares its coordinate
with the next one only marks the sweep line. -/
def sweep (rects : List (Rect TNum)) :
    List (SweepEvent TNum) → SweepState TNum → Option (SweepState TNum)
  | [], st => some st
  | hEvt :: rest, st => do
      let rect ← rects[hEvt.rectId]?
      let vEvents ← markSweepLine rect hEvt st.vEvents
      if rest.head?.map (·.pos) = some hEvt.pos then
        sweep rects rest { st with vEvents }
      else
        let st ← sweepLine hEvt.pos { st with vEvents }
        sweep rects rest st

/-- `separate_rects`. -/
def separateRects (rects : List (Rect TNum)) (out : List (RectSet TNum)) :
    Option (List (RectSet TNum)) :=
  if rects.length > IdSet.maxElements then some out
  else
    (sweep rects (sweepHEvents rects).elems ⟨.empty, .empty, out⟩).map (·.out)

/-- `separate_rects_64`. -/
def separateRects64 (rects : List (Rect Int)) (out : List (RectSet Int)) :
    Option (List (RectSet Int)) :=
  separateRects rects out

end DragonDevice.Hwc
