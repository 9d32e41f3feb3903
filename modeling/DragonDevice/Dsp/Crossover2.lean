/-
  Dsp/Crossover2.lean --- two channels split into three bands, from `crossover2.c`.

  The loops are written for NEON, for SSE3 and plainly.  In the assembly a register has a lane
  for each of the two filters on each of the two channels.
-/
import DragonDevice.Dsp.Crossover
import DragonDevice.Dsp.Eq2

set_option autoImplicit false

namespace DragonDevice.Dsp

open DragonDevice.Lib

variable {F : Type}

/-- `struct lr42` -/
structure Lr42 (F : Type) where
  b0 : F
  b1 : F
  b2 : F
  a1 : F
  a2 : F
  x1 : Stereo F
  x2 : Stereo F
  y1 : Stereo F
  y2 : Stereo F
  z1 : Stereo F
  z2 : Stereo F

namespace Lr42

/-- The filter of a channel. -/
def channel (lr42 : Lr42 F) (c : Channel) : Lr4 F :=
  ⟨lr42.b0, lr42.b1, lr42.b2, lr42.a1, lr42.a2, lr42.x1 c, lr42.x2 c, lr42.y1 c, lr42.y2 c,
    lr42.z1 c, lr42.z2 c⟩

/-- The histories that a loop has left are stored. -/
def store (lr42 : Lr42 F) (f : Stereo (Lr4 F)) : Lr42 F :=
  { lr42 with
    x1 := fun c => (f c).x1
    x2 := fun c => (f c).x2
    y1 := fun c => (f c).y1
    y2 := fun c => (f c).y2
    z1 := fun c => (f c).z1
    z2 := fun c => (f c).z2 }

/-- The histories that a loop has left in the lanes are stored. -/
def storeRegs (lr42 : Lr42 F) (regs : FilterReg → Lane → F) (lane : Channel → Lane) : Lr42 F :=
  { lr42 with
    x1 := fun c => regs .x1 (lane c)
    x2 := fun c => regs .x2 (lane c)
    y1 := fun c => regs .y1 (lane c)
    y2 := fun c => regs .y2 (lane c)
    z1 := fun c => regs .z1 (lane c)
    z2 := fun c => regs .z2 (lane c) }

end Lr42

/-- `lr42_set` -/
def lr42Set [Zero F] (c : Coefficients F) : Lr42 F :=
  let q := biquadSet c
  ⟨q.b0, q.b1, q.b2, q.a1, q.a2, fun _ => 0, fun _ => 0, fun _ => 0, fun _ => 0, fun _ => 0,
    fun _ => 0⟩

/-- `crossover2_init`, with what `biquad_set` finds for the two types and the two frequencies. -/
def crossover2Init [Zero F] (lowpass1 highpass1 lowpass2 highpass2 : Coefficients F) :
    Crossover (Lr42 F) :=
  ⟨lr42Set lowpass1, lr42Set lowpass2, lr42Set lowpass2, lr42Set highpass1, lr42Set highpass2,
    lr42Set highpass2⟩

/-! ## The assembly -/

/-- The lane of a channel in the low pass. -/
def Channel.lpLane : Channel → Lane
  | .left => .l0
  | .right => .l2

/-- The lane of a channel in the high pass. -/
def Channel.hpLane : Channel → Lane
  | .left => .l1
  | .right => .l3

/-- The operands from a filter.  The others are written before they are read. -/
def lr4Operand [Zero F] (f : Lr4 F) : FilterReg → F
  | .b0 _ => f.b0
  | .b1 _ => f.b1
  | .b2 _ => f.b2
  | .a1 _ => f.a1
  | .a2 _ => f.a2
  | .x1 => f.x1
  | .x2 => f.x2
  | .y1 => f.y1
  | .y2 => f.y2
  | .z1 => f.z1
  | .z2 => f.z2
  | .v0 => 0
  | .v1 => 0
  | .v2 => 0

def lr42Operands [Zero F] (lp hp : Lr42 F) (reg : FilterReg) : Lane → F :=
  Lane.pack (lr4Operand (lp.channel .left) reg) (lr4Operand (hp.channel .left) reg)
    (lr4Operand (lp.channel .right) reg) (lr4Operand (hp.channel .right) reg)

/-- The arrays of `lr42_split`. -/
inductive SplitData where
  | data0 (c : Channel)
  | data1 (c : Channel)
  deriving DecidableEq

/-- What the pointers of `lr42_split` lead to.  The second array is written only. -/
def splitCells [Zero F] (frame : Stereo F) : SplitData → F
  | .data0 c => frame c
  | .data1 _ => 0

/-- The NEON loop of `lr42_split` or `lr42_merge` up to the stores. -/
def lr42Neon {P : Type} (left right : P) : List (Neon FilterReg P Lane) :=
  neonFilters .q Lane.lowHalf (fun lane => !lane.lowHalf) left right

def splitNeonStores : List (Neon FilterReg SplitData Lane) :=
  [.vst1 .v2 .l0 (.data0 .left), .vst1 .v2 .l1 (.data1 .left), .vst1 .v2 .l2 (.data0 .right),
    .vst1 .v2 .l3 (.data1 .right)]

/-- The lanes that `vpadd` adds up. -/
def mergedLanes : Lane → Option (Lane × Lane)
  | .l0 => some (.l0, .l1)
  | .l1 => some (.l2, .l3)
  | .l2 => none
  | .l3 => none

def mergeNeonStores : List (Neon FilterReg Channel Lane) :=
  [.vpadd .v2 mergedLanes, .vst1 .v2 .l0 .left, .vst1 .v2 .l1 .right]

/-- The loads of the SSE loops, which leave the input in `xmm2`. -/
def lr42SseLoads {P : Type} (left right : P) : List (Sse FilterReg P) :=
  [.movssLoad left .v2, .movssLoad right .v1, .shufps 0 .v1 .v2]

def splitSseStores : List (Sse FilterReg SplitData) :=
  [.movssStore .v1 (.data0 .left), .shufps 0x39 .v1 .v1, .movssStore .v1 (.data1 .left),
    .shufps 0x39 .v1 .v1, .movssStore .v1 (.data0 .right), .shufps 0x39 .v1 .v1,
    .movssStore .v1 (.data1 .right)]

def mergeSseStores : List (Sse FilterReg Channel) :=
  [.haddps .v1 .v1, .movssStore .v1 .left, .shufps 0x39 .v1 .v1, .movssStore .v1 .right]

/-! ## The loops -/

section Loops

variable [Zero F] [Add F] [Sub F] [Mul F]

def splitNeonNext (regs : FilterReg → Lane → F) (frame : Stereo F) :
    (FilterReg → Lane → F) × Stereo (F × F) :=
  let s := Neon.run (lr42Neon (.data0 .left) (.data0 .right) ++ splitNeonStores)
    ⟨regs, splitCells frame⟩
  (s.regs, fun c => (s.cells (.data0 c), s.cells (.data1 c)))

def splitSseNext (regs : FilterReg → Lane → F) (frame : Stereo F) :
    (FilterReg → Lane → F) × Stereo (F × F) :=
  let s := Sse.run (lr42SseLoads (.data0 .left) (.data0 .right) ++ sseFilters .q ++ splitSseStores)
    ⟨regs, splitCells frame⟩
  (s.regs, fun c => (s.cells (.data0 c), s.cells (.data1 c)))

def mergeNeonNext (regs : FilterReg → Lane → F) (frame : Stereo F) :
    (FilterReg → Lane → F) × Stereo F :=
  let s := Neon.run (lr42Neon .left .right ++ mergeNeonStores) ⟨regs, frame⟩
  (s.regs, s.cells)

def mergeSseNext (regs : FilterReg → Lane → F) (frame : Stereo F) :
    (FilterReg → Lane → F) × Stereo F :=
  let s := Sse.run (lr42SseLoads .left .right ++ sseFilters .q ++ mergeSseStores) ⟨regs, frame⟩
  (s.regs, s.cells)

/-- A plain loop over two filters on two channels. -/
def lr42Plain {γ : Type} (out : F → F → γ) (lp hp : Lr42 F) (data : List (Stereo F)) :
    (Lr42 F × Lr42 F) × List (Stereo γ) :=
  let turns := transduce (sideBySide (lr4PairNext out))
    (fun c => (lp.channel c, hp.channel c)) data
  ((lp.store fun c => (turns.1 c).1, hp.store fun c => (turns.1 c).2), turns.2)

/-- A loop in assembly. -/
def lr42Vector {γ : Type}
    (next : (FilterReg → Lane → F) → Stereo F → (FilterReg → Lane → F) × Stereo γ)
    (lp hp : Lr42 F) (data : List (Stereo F)) : (Lr42 F × Lr42 F) × List (Stereo γ) :=
  let turns := transduce next (lr42Operands lp hp) data
  ((lp.storeRegs turns.1 Channel.lpLane, hp.storeRegs turns.1 Channel.hpLane), turns.2)

/-- `lr42_split` -/
def lr42Split (build : Build) (lp hp : Lr42 F) (data : List (Stereo F)) :
    (Lr42 F × Lr42 F) × List (Stereo F) × List (Stereo F) :=
  let out := match build with
    | .plain => lr42Plain (fun low high => (low, high)) lp hp data
    | .neon => lr42Vector splitNeonNext lp hp data
    | .sse3 => lr42Vector splitSseNext lp hp data
  (out.1, out.2.map fun frame c => (frame c).1, out.2.map fun frame c => (frame c).2)

/-- `lr42_merge` -/
def lr42Merge (build : Build) (lp hp : Lr42 F) (data : List (Stereo F)) :
    (Lr42 F × Lr42 F) × List (Stereo F) :=
  match build with
  | .plain => lr42Plain (fun low high => high + low) lp hp data
  | .neon => lr42Vector mergeNeonNext lp hp data
  | .sse3 => lr42Vector mergeSseNext lp hp data

/-- `crossover2_process` -/
def crossover2Process (build : Build) (xo2 : Crossover (Lr42 F)) (data : List (Stereo F)) :
    Crossover (Lr42 F) × Bands (List (Stereo F)) :=
  if data.isEmpty then (xo2, ⟨[], [], []⟩)
  else
    let bands := lr42Split build xo2.lp0 xo2.hp0 data
    let low := lr42Merge build xo2.lp1 xo2.hp1 bands.2.1
    let high := lr42Split build xo2.lp2 xo2.hp2 bands.2.2
    (⟨bands.1.1, low.1.1, high.1.1, bands.1.2, low.1.2, high.1.2⟩,
      ⟨low.2, high.2.1, high.2.2⟩)

end Loops

end DragonDevice.Dsp
