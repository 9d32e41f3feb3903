/-
  Dsp/Eq2.lean --- filters for two channels at once, from `eq2.c`.

  A channel with fewer filters than the other goes through identity filters.  Two rows of filters
  run in one loop, which is written for NEON, for SSE3 and plainly.  In the assembly the channels
  are lanes of vector registers.
-/
import DragonDevice.Dsp.FilterCode

set_option autoImplicit false

namespace DragonDevice.Dsp

open DragonDevice.Lib

variable {F : Type}

/-! ## The filters -/

inductive Channel where
  | left
  | right
  deriving DecidableEq

/-- Something for each channel. -/
abbrev Stereo (α : Type) : Type := Channel → α

/-- `struct eq2` -/
structure Eq2State (F : Type) where
  n : Stereo Nat
  biquad : List (Stereo (Biquad F))
  size : biquad.length = maxBiquadsPerEq2
  fits : ∀ channel, n channel ≤ maxBiquadsPerEq2

/-- `eq2_new` -/
def eq2New [Zero F] [One F] : Eq2State F where
  n := fun _ => 0
  biquad := List.replicate maxBiquadsPerEq2 fun _ => biquadSet Coefficients.none
  size := List.length_replicate
  fits _ := Nat.zero_le _

/-- `eq2_append_biquad_direct` -/
def eq2AppendBiquadDirect (eq2 : Eq2State F) (channel : Channel) (biquad : Biquad F) :
    Eq2State F × Int :=
  if h : eq2.n channel ≥ maxBiquadsPerEq2 then (eq2, -1)
  else
    ({ n := Function.update eq2.n channel (eq2.n channel + 1)
       biquad := eq2.biquad.modify (eq2.n channel) fun row => Function.update row channel biquad
       size := by
        rw [List.length_modify]
        exact eq2.size
       fits := fun other => by
        by_cases hother : other = channel
        · rw [hother, Function.update_self]
          omega
        · rw [Function.update_of_ne hother]
          exact eq2.fits other }, 0)

/-- `eq2_append_biquad` -/
def eq2AppendBiquad [Zero F] (eq2 : Eq2State F) (channel : Channel) (c : Coefficients F) :
    Eq2State F × Int :=
  eq2AppendBiquadDirect eq2 channel (biquadSet c)

/-- An eq2 to which filters have been appended. -/
def eq2Of [Zero F] [One F] (appended : List (Channel × Biquad F)) : Eq2State F :=
  appended.foldl (fun eq2 next => (eq2AppendBiquadDirect eq2 next.1 next.2).1) eq2New

/-- How many rows `eq2_process` goes through. -/
def Eq2State.rows (eq2 : Eq2State F) : Nat :=
  if eq2.n .right > eq2.n .left then eq2.n .right else eq2.n .left

/-- The filters that a channel goes through. -/
def Eq2State.channel (eq2 : Eq2State F) (c : Channel) : List (Biquad F) :=
  (eq2.biquad.take eq2.rows).map (· c)

theorem Eq2State.rows_le (eq2 : Eq2State F) : eq2.rows ≤ eq2.biquad.length := by
  rw [eq2.size]
  unfold Eq2State.rows
  split
  · exact eq2.fits .right
  · exact eq2.fits .left

/-! ## The assembly -/

/-- The loop of `eq2_process_two_neon` up to the stores. -/
def eq2NeonFilters : List (Neon FilterReg Channel Channel) :=
  neonFilters .r (· == .left) (· == .right) .left .right

def neonStores : List (Neon FilterReg Channel Channel) :=
  [.vst1 .v2 .left .left, .vst1 .v2 .right .right]

/-- The loop of `eq2_process_two_neon`. -/
def eq2Neon : List (Neon FilterReg Channel Channel) := eq2NeonFilters ++ neonStores

/-- The loads of `eq2_process_two_sse3`, which leave the input in `xmm2`. -/
def sseLoads : List (Sse FilterReg Channel) :=
  [.movssLoad .left .v2, .movssLoad .right .v1, .unpcklps .v1 .v2]

def sseStores : List (Sse FilterReg Channel) :=
  [.movssStore .v1 .left, .shufps 1 .v1 .v1, .movssStore .v1 .right]

/-- The loop of `eq2_process_two_sse3`. -/
def eq2Sse3 : List (Sse FilterReg Channel) := sseLoads ++ sseFilters .r ++ sseStores

/-- The lane of a channel. -/
def Channel.lane : Channel → Lane
  | .left => .l0
  | .right => .l1

/-- The operands from two filters.  The others are written before they are read. -/
def filterOperand [Zero F] (pair : Biquad F × Biquad F) : FilterReg → F
  | .b0 .q => pair.1.b0
  | .b1 .q => pair.1.b1
  | .b2 .q => pair.1.b2
  | .a1 .q => pair.1.a1
  | .a2 .q => pair.1.a2
  | .b0 .r => pair.2.b0
  | .b1 .r => pair.2.b1
  | .b2 .r => pair.2.b2
  | .a1 .r => pair.2.a1
  | .a2 .r => pair.2.a2
  | .x1 => pair.1.x1
  | .x2 => pair.1.x2
  | .y1 => pair.1.y1
  | .y2 => pair.1.y2
  | .z1 => pair.2.y1
  | .z2 => pair.2.y2
  | .v0 => 0
  | .v1 => 0
  | .v2 => 0

/-- The histories of two filters, from a lane. -/
def storeFilters {L : Type} (regs : FilterReg → L → F) (i : L) (pair : Biquad F × Biquad F) :
    Biquad F × Biquad F :=
  ({ pair.1 with x1 := regs .x1 i, x2 := regs .x2 i, y1 := regs .y1 i, y2 := regs .y2 i },
    { pair.2 with y1 := regs .z1 i, y2 := regs .z2 i })

/-! ## The loops -/

/-- What the code is made for. -/
inductive Build where
  | plain
  | neon
  | sse3

section Loops

variable [Zero F] [Add F] [Sub F] [Mul F]

/-- `eq2_process_one` -/
def eq2ProcessOne (row : Stereo (Biquad F)) (data : List (Stereo F)) :
    Stereo (Biquad F) × List (Stereo F) :=
  transduce (sideBySide Biquad.next) row data

/-- A turn of the loop, with the samples in the cells that the pointers lead to. -/
def eq2NeonNext (regs : FilterReg → Channel → F) (frame : Stereo F) :
    (FilterReg → Channel → F) × Stereo F :=
  let s := Neon.run eq2Neon ⟨regs, frame⟩
  (s.regs, s.cells)

def eq2Sse3Next (regs : FilterReg → Lane → F) (frame : Stereo F) :
    (FilterReg → Lane → F) × Stereo F :=
  let s := Sse.run eq2Sse3 ⟨regs, frame⟩
  (s.regs, s.cells)

/-- Two rows in `eq2_process`. -/
def eq2ProcessTwo (build : Build) (rows : Stereo (Biquad F × Biquad F))
    (data : List (Stereo F)) : Stereo (Biquad F × Biquad F) × List (Stereo F) :=
  match build with
  | .plain =>
      let one := eq2ProcessOne (fun c => (rows c).1) data
      let two := eq2ProcessOne (fun c => (rows c).2) one.2
      (fun c => (one.1 c, two.1 c), two.2)
  | .neon =>
      let out := transduce eq2NeonNext (fun reg c => filterOperand (rows c) reg) data
      (fun c => storeFilters out.1 c (rows c), out.2)
  | .sse3 =>
      let out := transduce eq2Sse3Next
        (fun reg =>
          Lane.pack (filterOperand (rows .left) reg) (filterOperand (rows .right) reg) 0 0) data
      (fun c => storeFilters out.1 c.lane (rows c), out.2)

/-- The loop of `eq2_process` over the rows. -/
def eq2Rows (build : Build) : List (Stereo (Biquad F)) → List (Stereo F) →
    List (Stereo (Biquad F)) × List (Stereo F)
  | [], data => ([], data)
  | [row], data => ([(eq2ProcessOne row data).1], (eq2ProcessOne row data).2)
  | row :: row' :: rest, data =>
      let two := eq2ProcessTwo build (fun c => (row c, row' c)) data
      let out := eq2Rows build rest two.2
      ((fun c => (two.1 c).1) :: (fun c => (two.1 c).2) :: out.1, out.2)

theorem length_eq2Rows (build : Build) : ∀ (rows : List (Stereo (Biquad F)))
    (data : List (Stereo F)), (eq2Rows build rows data).1.length = rows.length
  | [], _ => rfl
  | [_], _ => rfl
  | _ :: _ :: rest, _ => congrArg (· + 2) (length_eq2Rows build rest _)

/-- `eq2_process` -/
def eq2Process (build : Build) (eq2 : Eq2State F) (data : List (Stereo F)) :
    Eq2State F × List (Stereo F) :=
  if data.isEmpty then (eq2, data)
  else
    let out := eq2Rows build (eq2.biquad.take eq2.rows) data
    ({ eq2 with
        biquad := out.1 ++ eq2.biquad.drop eq2.rows
        size := by
          rw [List.length_append, length_eq2Rows, ← List.length_append, List.take_append_drop]
          exact eq2.size }, out.2)

end Loops

end DragonDevice.Dsp
