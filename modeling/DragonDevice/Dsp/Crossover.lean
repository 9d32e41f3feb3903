/-
  Dsp/Crossover.lean --- one channel split into three bands, from `crossover.c`.

  A filter of the fourth order is a biquad twice, with one set of coefficients.
-/
import DragonDevice.Dsp.Biquad

set_option autoImplicit false

namespace DragonDevice.Dsp

open DragonDevice.Lib

variable {F : Type}

/-- `struct lr4` -/
structure Lr4 (F : Type) where
  b0 : F
  b1 : F
  b2 : F
  a1 : F
  a2 : F
  x1 : F
  x2 : F
  y1 : F
  y2 : F
  z1 : F
  z2 : F

/-- `lr4_set` -/
def lr4Set [Zero F] (c : Coefficients F) : Lr4 F :=
  let q := biquadSet c
  ⟨q.b0, q.b1, q.b2, q.a1, q.a2, 0, 0, 0, 0, 0, 0⟩

/-- The coefficients of one filter with the history of another. -/
def Lr4.withHistory (f g : Lr4 F) : Lr4 F :=
  { f with x1 := g.x1, x2 := g.x2, y1 := g.y1, y2 := g.y2, z1 := g.z1, z2 := g.z2 }

/-- `struct crossover`, with the elements of its two arrays. -/
@[ext]
structure Crossover (α : Type) where
  lp0 : α
  lp1 : α
  lp2 : α
  hp0 : α
  hp1 : α
  hp2 : α

def Crossover.map {α β : Type} (f : α → β) (xo : Crossover α) : Crossover β :=
  ⟨f xo.lp0, f xo.lp1, f xo.lp2, f xo.hp0, f xo.hp1, f xo.hp2⟩

/-- `crossover_init`, with what `biquad_set` finds for the two types and the two frequencies. -/
def crossoverInit [Zero F] (lowpass1 highpass1 lowpass2 highpass2 : Coefficients F) :
    Crossover (Lr4 F) :=
  ⟨lr4Set lowpass1, lr4Set lowpass2, lr4Set lowpass2, lr4Set highpass1, lr4Set highpass2,
    lr4Set highpass2⟩

/-- What comes out for each band. -/
@[ext]
structure Bands (α : Type) where
  data0 : α
  data1 : α
  data2 : α

def Bands.map {α β : Type} (f : α → β) (bands : Bands α) : Bands β :=
  ⟨f bands.data0, f bands.data1, f bands.data2⟩

section Loops

variable [Add F] [Sub F] [Mul F]

/-- A filter in a turn of the loops. -/
def Lr4.next (f : Lr4 F) (x : F) : Lr4 F × F :=
  let y := f.b0 * x + f.b1 * f.x1 + f.b2 * f.x2 - f.a1 * f.y1 - f.a2 * f.y2
  let z := f.b0 * y + f.b1 * f.y1 + f.b2 * f.y2 - f.a1 * f.z1 - f.a2 * f.z2
  ({ f with x1 := x, x2 := f.x1, y1 := y, y2 := f.y1, z1 := z, z2 := f.z1 }, z)

/-- Two filters in a turn, with what is put out for their two samples. -/
def lr4PairNext {γ : Type} (out : F → F → γ) (pair : Lr4 F × Lr4 F) (x : F) :
    (Lr4 F × Lr4 F) × γ :=
  (((pair.1.next x).1, (pair.2.next x).1), out (pair.1.next x).2 (pair.2.next x).2)

/-- A turn of the loop of `lr4_split`. -/
def lr4SplitNext : Lr4 F × Lr4 F → F → (Lr4 F × Lr4 F) × (F × F) :=
  lr4PairNext fun low high => (low, high)

/-- A turn of the loop of `lr4_merge`. -/
def lr4MergeNext : Lr4 F × Lr4 F → F → (Lr4 F × Lr4 F) × F :=
  lr4PairNext fun low high => high + low

/-- `lr4_split` -/
def lr4Split (lp hp : Lr4 F) (data : List F) : (Lr4 F × Lr4 F) × List F × List F :=
  let out := transduce lr4SplitNext (lp, hp) data
  (out.1, out.2.map (·.1), out.2.map (·.2))

/-- `lr4_merge` -/
def lr4Merge (lp hp : Lr4 F) (data : List F) : (Lr4 F × Lr4 F) × List F :=
  transduce lr4MergeNext (lp, hp) data

/-- `crossover_process` -/
def crossoverProcess (xo : Crossover (Lr4 F)) (data : List F) :
    Crossover (Lr4 F) × Bands (List F) :=
  let bands := lr4Split xo.lp0 xo.hp0 data
  let low := lr4Merge xo.lp1 xo.hp1 bands.2.1
  let high := lr4Split xo.lp2 xo.hp2 bands.2.2
  (⟨bands.1.1, low.1.1, high.1.1, bands.1.2, low.1.2, high.1.2⟩,
    ⟨low.2, high.2.1, high.2.2⟩)

/-- A loop changes histories only. -/
theorem withHistory_transduce {γ : Type} (out : F → F → γ) (data : List F) :
    ∀ pair : Lr4 F × Lr4 F,
      pair.1.withHistory (transduce (lr4PairNext out) pair data).1.1 =
          (transduce (lr4PairNext out) pair data).1.1 ∧
        pair.2.withHistory (transduce (lr4PairNext out) pair data).1.2 =
          (transduce (lr4PairNext out) pair data).1.2 := by
  induction data with
  | nil => exact fun _ => ⟨rfl, rfl⟩
  | cons x data ih => exact fun pair => ih (lr4PairNext out pair x).1

end Loops

end DragonDevice.Dsp
