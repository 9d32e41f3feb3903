/-
  Dsp/DrcKernel.lean --- the lookahead of a kernel of the dynamic range compressor, from
  `drc_kernel.c`.

  The input goes into a ring of pre-delay buffers, and what was there some frames ago goes
  out in its place.  A kernel that is disabled does nothing else.  An enabled one works on
  the ring whenever a division of frames is complete.  The channels have buffers and indices
  alike, so that a cell of the ring is a frame; detector, envelope and compression are
  arbitrary.  A loop that takes more turns than it is allowed has no result.
-/
import DragonDevice.Lib.DelayLine

set_option autoImplicit false

namespace DragonDevice.Dsp

open DragonDevice.Lib

variable {S G : Type}

/-- `MAX_PRE_DELAY_FRAMES` -/
def maxPreDelayFrames : Nat := 1024

/-- `DEFAULT_PRE_DELAY_FRAMES` -/
def defaultPreDelayFrames : Nat := 256

/-- `DIVISION_FRAMES` -/
def divisionFrames : Nat := 32

/-! ## The kernel -/

/-- `struct drc_kernel`.  The ring has the pre-delay buffers and their indices, and `gain` the
fields that only detector, envelope and compression use. -/
structure DrcKernel (S G : Type) where
  gain : G
  enabled : Bool
  processed : Bool
  lastPreDelayFrames : Nat
  ring : DelayRing S

/-- `dk_init` -/
def dkInit [Zero S] (gain : G) : DrcKernel S G where
  gain := gain
  enabled := false
  processed := false
  lastPreDelayFrames := defaultPreDelayFrames
  ring := ⟨fun _ => 0, 0, defaultPreDelayFrames⟩

/-- `dk_set_enabled` -/
def dkSetEnabled (dk : DrcKernel S G) (enabled : Bool) : DrcKernel S G :=
  { dk with enabled := enabled }

/-- The delay that `set_pre_delay_time` settles on: at most the ring, whole divisions, and one
at least. -/
def roundPreDelay (frames : Nat) : Nat :=
  max (min frames (maxPreDelayFrames - 1) / divisionFrames * divisionFrames) divisionFrames

/-- `set_pre_delay_time`, for a time of so many frames. -/
def setPreDelayTime [Zero S] (dk : DrcKernel S G) (frames : Nat) : DrcKernel S G :=
  if dk.lastPreDelayFrames ≠ roundPreDelay frames then
    { dk with
      lastPreDelayFrames := roundPreDelay frames
      ring := ⟨fun _ => 0, 0, roundPreDelay frames⟩ }
  else
    dk

/-! ## What a call does -/

/-- The two copies of a chunk: `frames` cells from `write` on are written, and as many from
`read` on are read. -/
structure Copy where
  write : Nat
  read : Nat
  frames : Nat
  deriving DecidableEq, Repr

/-- What calls leave: the kernel, and the frames that stand in the place of the input; with
the copies that were made and how often `dk_process_one_division` ran. -/
structure Processed (S G : Type) where
  kernel : DrcKernel S G
  output : List S
  copies : List Copy
  divisions : Nat

/-- What went before is put in front. -/
def Processed.prepend (output : List S) (copies : List Copy) (divisions : Nat)
    (rest : Processed S G) : Processed S G where
  kernel := rest.kernel
  output := output ++ rest.output
  copies := copies ++ rest.copies
  divisions := divisions + rest.divisions

/-- The copies of `dk_copy_fragment` and of a turn of `dk_process_delay_only`. -/
def dkCopyFragment (dk : DrcKernel S G) (data : List S) : DrcKernel S G × List S :=
  ({ dk with ring := (exchangeStretch maxPreDelayFrames dk.ring data).1 },
    (exchangeStretch maxPreDelayFrames dk.ring data).2)

/-- Readable and writable frames up to the other index or the end, and the available input. -/
def delayChunk (ring : DelayRing S) (available : Nat) : Nat :=
  min (min (max ring.read ring.write - min ring.read ring.write)
    (maxPreDelayFrames - max ring.read ring.write)) available

/-- `dk_process_delay_only`, in a number of turns. -/
def dkProcessDelayOnly : Nat → DrcKernel S G → List S → Option (Processed S G)
  | _, dk, [] => some ⟨dk, [], [], 0⟩
  | 0, _, _ :: _ => none
  | turns + 1, dk, a :: data =>
      let chunk := delayChunk dk.ring (data.length + 1)
      let copied := dkCopyFragment dk ((a :: data).take chunk)
      (dkProcessDelayOnly turns copied.1 ((a :: data).drop chunk)).map
        (Processed.prepend copied.2 [⟨dk.ring.write, dk.ring.read, chunk⟩] 0)

/-! ## Divisions -/

/-- The frames of a division. -/
abbrev Division (S : Type) : Type := Fin divisionFrames → S

/-- The steps that work on divisions. -/
structure GainSteps (S G : Type) where
  updateDetectorAverage : G → Division S → G
  updateEnvelope : G → G
  compressOutput : G → Division S → G × Division S

def loadDivision (cells : Nat → S) (divStart : Nat) : Division S := fun i => cells (divStart + i)

def storeDivision (cells : Nat → S) (divStart : Nat) (division : Division S) : Nat → S := fun k =>
  if h : divStart ≤ k ∧ k < divStart + divisionFrames then
    division ⟨k - divStart, by omega⟩
  else cells k

section Steps

variable (steps : GainSteps S G)

/-- `dk_update_detector_average`, from the last input division. -/
def dkUpdateDetectorAverage (dk : DrcKernel S G) : DrcKernel S G :=
  let divStart :=
    if dk.ring.write = 0 then maxPreDelayFrames - divisionFrames
    else dk.ring.write - divisionFrames
  { dk with gain := steps.updateDetectorAverage dk.gain (loadDivision dk.ring.cells divStart) }

/-- `dk_update_envelope` -/
def dkUpdateEnvelope (dk : DrcKernel S G) : DrcKernel S G :=
  { dk with gain := steps.updateEnvelope dk.gain }

/-- `dk_compress_output`, of the next output division. -/
def dkCompressOutput (dk : DrcKernel S G) : DrcKernel S G :=
  let out := steps.compressOutput dk.gain (loadDivision dk.ring.cells dk.ring.read)
  { dk with
    gain := out.1
    ring := ⟨storeDivision dk.ring.cells dk.ring.read out.2, dk.ring.read, dk.ring.write⟩ }

/-- `dk_process_one_division` -/
def dkProcessOneDivision (dk : DrcKernel S G) : DrcKernel S G :=
  dkCompressOutput steps (dkUpdateEnvelope steps (dkUpdateDetectorAverage steps dk))

/-- The loop of `dk_process` over fragments, in a number of turns. -/
def processFragments : Nat → DrcKernel S G → Nat → List S → Option (Processed S G)
  | _, dk, _, [] => some ⟨dk, [], [], 0⟩
  | 0, _, _, _ :: _ => none
  | turns + 1, dk, offset, a :: data =>
      let fragment := min (divisionFrames - offset) (data.length + 1)
      let copied := dkCopyFragment dk ((a :: data).take fragment)
      let next := (offset + fragment) % divisionFrames
      let complete := next = 0
      (processFragments turns (if complete then dkProcessOneDivision steps copied.1 else copied.1)
          next ((a :: data).drop fragment)).map
        (Processed.prepend copied.2 [⟨dk.ring.write, dk.ring.read, fragment⟩]
          (if complete then 1 else 0))

/-- The extra step of the first call. -/
def dkPrepare (dk : DrcKernel S G) : DrcKernel S G :=
  if dk.processed then dk
  else { dkCompressOutput steps (dkUpdateEnvelope steps dk) with processed := true }

/-- `dk_process`, where a loop takes a number of turns. -/
def dkProcess (turns : Nat) (dk : DrcKernel S G) (data : List S) : Option (Processed S G) :=
  if dk.enabled then
    processFragments steps turns (dkPrepare steps dk)
      ((dkPrepare steps dk).ring.write % divisionFrames) data
  else
    dkProcessDelayOnly turns dk data

/-- Calls of `dk_process` one after another, each with as many turns as it has frames. -/
def dkRun : DrcKernel S G → List (List S) → Option (Processed S G)
  | dk, [] => some ⟨dk, [], [], 0⟩
  | dk, block :: rest =>
      (dkProcess steps block.length dk block).bind fun p =>
        (dkRun p.kernel rest).map (Processed.prepend p.output p.copies p.divisions)

end Steps

end DragonDevice.Dsp
