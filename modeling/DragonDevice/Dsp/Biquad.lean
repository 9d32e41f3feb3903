/-
  Dsp/Biquad.lean --- biquad filters in a row, from `biquad.c` and `eq.c`.

  A filter keeps its last two inputs and outputs.  `eq_process1` runs the filters one after the
  other; `eq_process` runs two of them in one loop, and there the outputs kept by the first stand
  for the inputs kept by the second.  Samples are of any type with the operations of the loops.
-/
import DragonDevice.Dsp.Instantiate
import DragonDevice.Lib.Transducer

set_option autoImplicit false

namespace DragonDevice.Dsp

open DragonDevice.Lib

variable {F : Type}

/-! ## The filters -/

/-- `struct biquad` -/
structure Biquad (F : Type) where
  b0 : F
  b1 : F
  b2 : F
  a1 : F
  a2 : F
  x1 : F
  x2 : F
  y1 : F
  y2 : F

/-- The coefficients that `biquad_set` finds for a type, a frequency, a quality and a gain. -/
structure Coefficients (F : Type) where
  b0 : F
  b1 : F
  b2 : F
  a1 : F
  a2 : F

/-- What `biquad_set` finds for `BQ_NONE`. -/
def Coefficients.none [Zero F] [One F] : Coefficients F := ⟨1, 0, 0, 0, 0⟩

/-- `biquad_set`.  The history is cleared. -/
def biquadSet [Zero F] (c : Coefficients F) : Biquad F :=
  ⟨c.b0, c.b1, c.b2, c.a1, c.a2, 0, 0, 0, 0⟩

/-- There is no history. -/
structure Biquad.Cleared [Zero F] (q : Biquad F) : Prop where
  x1 : q.x1 = 0
  x2 : q.x2 = 0
  y1 : q.y1 = 0
  y2 : q.y2 = 0

theorem cleared_biquadSet [Zero F] (c : Coefficients F) : (biquadSet c).Cleared :=
  ⟨rfl, rfl, rfl, rfl⟩

section Loops

variable [Add F] [Sub F] [Mul F]

/-- A turn of the loop of `eq_process1`. -/
def Biquad.next (q : Biquad F) (x : F) : Biquad F × F :=
  let y := q.b0 * x + q.b1 * q.x1 + q.b2 * q.x2 - q.a1 * q.y1 - q.a2 * q.y2
  ({ q with x1 := x, x2 := q.x1, y1 := y, y2 := q.y1 }, y)

/-- A turn of the loop of `eq_process` over two filters.  The inputs kept by the second are not
read and not written. -/
def biquadPairNext (pair : Biquad F × Biquad F) (x : F) : (Biquad F × Biquad F) × F :=
  let q := pair.1
  let r := pair.2
  let y := q.b0 * x + q.b1 * q.x1 + q.b2 * q.x2 - q.a1 * q.y1 - q.a2 * q.y2
  let z := r.b0 * y + r.b1 * q.y1 + r.b2 * q.y2 - r.a1 * r.y1 - r.a2 * r.y2
  (({ q with x1 := x, x2 := q.x1, y1 := y, y2 := q.y1 }, { r with y1 := z, y2 := r.y1 }), z)

/-- The loop of `eq_process` over the filters. -/
def biquadPairs : List (Biquad F) → List F → List (Biquad F) × List F
  | [], data => ([], data)
  | [q], data => ([(transduce Biquad.next q data).1], (transduce Biquad.next q data).2)
  | q :: r :: rest, data =>
      let pair := transduce biquadPairNext (q, r) data
      let out := biquadPairs rest pair.2
      (pair.1.1 :: pair.1.2 :: out.1, out.2)

end Loops

/-! ## Two filters in one loop -/

/-- The second filter, if the inputs it kept were the outputs that the first kept. -/
def Biquad.after (r q : Biquad F) : Biquad F := { r with x1 := q.y1, x2 := q.y2 }

/-- What the filters are to the loop over pairs of them. -/
def refresh : List (Biquad F) → List (Biquad F)
  | [] => []
  | [q] => [q]
  | q :: r :: rest => q :: r.after q :: refresh rest

theorem Biquad.Cleared.after [Zero F] {q r : Biquad F} (hq : q.Cleared) (hr : r.Cleared) :
    r.after q = r := by
  obtain ⟨b0, b1, b2, a1, a2, x1, x2, y1, y2⟩ := r
  obtain ⟨rfl, rfl, -, -⟩ := hr
  rw [Biquad.after, hq.y1, hq.y2]

theorem refresh_of_cleared [Zero F] : ∀ {row : List (Biquad F)}, (∀ q ∈ row, q.Cleared) →
    refresh row = row
  | [], _ => rfl
  | [_], _ => rfl
  | q :: r :: rest, h => by
      obtain ⟨hq, hrest⟩ := List.forall_mem_cons.mp h
      obtain ⟨hr, hrest⟩ := List.forall_mem_cons.mp hrest
      rw [refresh, hq.after hr, refresh_of_cleared hrest]

section Loops

variable [Add F] [Sub F] [Mul F]

/-- The loop over two filters is both filters, one after the other. -/
theorem transduce_biquadPairNext (data : List F) : ∀ q r : Biquad F,
    (transduce biquadPairNext (q, r) data).1.1 = (transduce Biquad.next q data).1 ∧
      (transduce biquadPairNext (q, r) data).1.2.after
          (transduce biquadPairNext (q, r) data).1.1 =
        (transduce Biquad.next (r.after q) (transduce Biquad.next q data).2).1 ∧
      (transduce biquadPairNext (q, r) data).2 =
        (transduce Biquad.next (r.after q) (transduce Biquad.next q data).2).2 := by
  induction data with
  | nil => exact fun _ _ => ⟨rfl, rfl, rfl⟩
  | cons x data ih =>
      intro q r
      obtain ⟨hq, hr, houtput⟩ := ih (biquadPairNext (q, r) x).1.1 (biquadPairNext (q, r) x).1.2
      exact ⟨hq, hr, congrArg (List.cons _) houtput⟩

/-- The loop over pairs is all filters, one after the other. -/
theorem biquadPairs_eq : ∀ (row : List (Biquad F)) (data : List F),
    refresh (biquadPairs row data).1 = (cascade Biquad.next (refresh row) data).1 ∧
      (biquadPairs row data).2 = (cascade Biquad.next (refresh row) data).2
  | [], _ => ⟨rfl, rfl⟩
  | [_], _ => ⟨rfl, rfl⟩
  | q :: r :: rest, data => by
      obtain ⟨hq, hr, houtput⟩ := transduce_biquadPairNext data q r
      obtain ⟨hrest, hlast⟩ := biquadPairs_eq rest (transduce biquadPairNext (q, r) data).2
      simp only [biquadPairs, refresh, cascade]
      rw [← houtput, ← hrest, ← hlast, hr, hq]
      exact ⟨rfl, rfl⟩

theorem length_biquadPairs : ∀ (row : List (Biquad F)) (data : List F),
    (biquadPairs row data).1.length = row.length
  | [], _ => rfl
  | [_], _ => rfl
  | _ :: _ :: rest, _ => congrArg (· + 2) (length_biquadPairs rest _)

end Loops

/-! ## One channel -/

/-- `struct eq`, with the `n` filters that are in use. -/
structure EqState (F : Type) where
  biquads : List (Biquad F)
  fits : biquads.length ≤ maxBiquadsPerEq

/-- `eq_new` -/
def eqNew : EqState F := ⟨[], Nat.zero_le _⟩

/-- `eq_append_biquad_direct` -/
def eqAppendBiquadDirect (eq : EqState F) (biquad : Biquad F) : EqState F × Int :=
  if h : eq.biquads.length ≥ maxBiquadsPerEq then (eq, -1)
  else
    (⟨eq.biquads ++ [biquad], by
      rw [List.length_append, List.length_singleton]
      omega⟩, 0)

/-- `eq_append_biquad` -/
def eqAppendBiquad [Zero F] (eq : EqState F) (c : Coefficients F) : EqState F × Int :=
  eqAppendBiquadDirect eq (biquadSet c)

/-- An eq to which filters have been appended. -/
def eqOf (appended : List (Biquad F)) : EqState F :=
  appended.foldl (fun eq biquad => (eqAppendBiquadDirect eq biquad).1) eqNew

theorem eqAppendBiquadDirect_biquads (eq : EqState F) (biquad : Biquad F) :
    (eqAppendBiquadDirect eq biquad).1.biquads =
      (eq.biquads ++ [biquad]).take maxBiquadsPerEq := by
  unfold eqAppendBiquadDirect
  split
  · rename_i hfull
    have hlen : eq.biquads.length = maxBiquadsPerEq := Nat.le_antisymm eq.fits hfull
    rw [← hlen, List.take_left]
  · rename_i hroom
    rw [List.take_of_length_le]
    rw [List.length_append, List.length_singleton]
    omega

theorem take_take_append {α : Type} (k : Nat) (l l' : List α) :
    (l.take k ++ l').take k = (l ++ l').take k := by
  have hroom : k - min k l.length = k - l.length := by omega
  rw [List.take_append, List.take_append, List.take_take, Nat.min_self, List.length_take, hroom]

/-- As many filters as there is room for. -/
theorem foldl_eqAppend_biquads (appended : List (Biquad F)) : ∀ eq : EqState F,
    (appended.foldl (fun eq biquad => (eqAppendBiquadDirect eq biquad).1) eq).biquads =
      (eq.biquads ++ appended).take maxBiquadsPerEq := by
  induction appended with
  | nil =>
      intro eq
      rw [List.append_nil, List.take_of_length_le eq.fits, List.foldl_nil]
  | cons biquad appended ih =>
      intro eq
      rw [List.foldl_cons, ih, eqAppendBiquadDirect_biquads, take_take_append,
        ← List.append_cons]

theorem eqOf_biquads (appended : List (Biquad F)) :
    (eqOf appended).biquads = appended.take maxBiquadsPerEq :=
  foldl_eqAppend_biquads appended eqNew

section Loops

variable [Add F] [Sub F] [Mul F]

/-- `eq_process1` -/
def eqProcess1 (eq : EqState F) (data : List F) : EqState F × List F :=
  (⟨(cascade Biquad.next eq.biquads data).1, by
    rw [length_cascade]
    exact eq.fits⟩, (cascade Biquad.next eq.biquads data).2)

/-- `eq_process` -/
def eqProcess (eq : EqState F) (data : List F) : EqState F × List F :=
  (⟨(biquadPairs eq.biquads data).1, by
    rw [length_biquadPairs]
    exact eq.fits⟩, (biquadPairs eq.biquads data).2)

theorem runBlocks_eqProcess1 (eq : EqState F) (blocks : List (List F)) :
    (runBlocks eqProcess1 eq blocks).2 = (cascade Biquad.next eq.biquads blocks.flatten).2 := by
  rw [← runBlocks_cascade]
  exact (runBlocks_simulates (R := fun (eq : EqState F) row => eq.biquads = row)
    (fun eq row data h => by
      cases h
      exact ⟨rfl, rfl⟩) blocks rfl).2

theorem runBlocks_eqProcess (eq : EqState F) (blocks : List (List F)) :
    (runBlocks eqProcess eq blocks).2 =
      (cascade Biquad.next (refresh eq.biquads) blocks.flatten).2 := by
  rw [← runBlocks_cascade]
  exact (runBlocks_simulates (R := fun (eq : EqState F) row => refresh eq.biquads = row)
    (fun eq row data h => by
      cases h
      exact biquadPairs_eq eq.biquads data) blocks rfl).2

/-- However its input is cut into blocks, an eq filters it with the first filters appended to it,
one after the other, whether the filters run one by one or in pairs. -/
theorem eq_loops_agree [Zero F] {appended : List (Biquad F)}
    (hcleared : ∀ q ∈ appended, q.Cleared) (blocks : List (List F)) :
    (runBlocks eqProcess (eqOf appended) blocks).2 =
        (cascade Biquad.next (appended.take maxBiquadsPerEq) blocks.flatten).2 ∧
      (runBlocks eqProcess1 (eqOf appended) blocks).2 =
        (cascade Biquad.next (appended.take maxBiquadsPerEq) blocks.flatten).2 := by
  have hrefresh : refresh (appended.take maxBiquadsPerEq) = appended.take maxBiquadsPerEq :=
    refresh_of_cleared fun q hq => hcleared q (List.mem_of_mem_take hq)
  rw [runBlocks_eqProcess, runBlocks_eqProcess1, eqOf_biquads, hrefresh]
  exact ⟨rfl, rfl⟩

/-- A filter that adds up its inputs, and one that takes differences. -/
def sumAndDifference : List (Biquad Int) :=
  [biquadSet ⟨1, 0, 0, -1, 0⟩, biquadSet ⟨1, -1, 0, 0, 0⟩]

theorem eq_loops_agree_sumAndDifference :
    (runBlocks eqProcess (eqOf sumAndDifference) [[3, 1], [], [4]]).2 = [3, 1, 4] := by
  have hcleared : ∀ q ∈ sumAndDifference, q.Cleared :=
    List.forall_mem_cons.mpr ⟨cleared_biquadSet _,
      List.forall_mem_cons.mpr ⟨cleared_biquadSet _, List.forall_mem_nil _⟩⟩
  rw [(eq_loops_agree hcleared [[3, 1], [], [4]]).1]
  rfl

end Loops

end DragonDevice.Dsp
