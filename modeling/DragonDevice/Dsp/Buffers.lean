/-
  Dsp/Buffers.lean --- the buffers of a pipeline.

  `allocate_buffers` counts in a first pass how many buffers are needed at once, and assigns
  them in a second one.  An input gets the buffer of its peer.  A module that can work in
  place gives back the buffers of its inputs before it takes those of its outputs; one that
  cannot takes them first.  Memory is there when it is asked for.  `none` stands for an
  access outside of the flags, or to a peer that is not there.
-/
import DragonDevice.Lib.FreeSlots
import DragonDevice.Dsp.PipelineOrder
import Mathlib.Data.Finset.Card
import Mathlib.Order.Bounds.Basic

set_option autoImplicit false

namespace DragonDevice.Dsp

open DragonDevice.Lib

variable {F E : Type}

/-! ## Counting -/

/-- `MODULE_INPLACE_BROKEN` -/
def moduleInplaceBroken : Nat := 1

def Instance.inplaceBroken (inst : Instance F) : Bool :=
  inst.properties &&& moduleInplaceBroken != 0

/-- `need_buf` and `peak_buf` -/
structure BufferNeed where
  need : Int
  peak : Int

/-- The body of the first loop of `allocate_buffers`. -/
def BufferNeed.count (n : BufferNeed) (inst : Instance F) : BufferNeed :=
  if inst.inplaceBroken then
    { need := n.need + inst.outputAudioPorts.length - inst.inputAudioPorts.length
      peak := max n.peak (n.need + inst.outputAudioPorts.length) }
  else
    { need := n.need + (inst.outputAudioPorts.length - inst.inputAudioPorts.length)
      peak := max n.peak
        (n.need + (inst.outputAudioPorts.length - inst.inputAudioPorts.length)) }

def countBuffers (instances : List (Instance F)) : BufferNeed :=
  instances.foldl BufferNeed.count ⟨0, 0⟩

/-! ## Assigning -/

def useBuffers (busy : List Bool) (ports : List AudioPort) :
    Option (List AudioPort × List Bool) :=
  takeSlots (fun port k => { port with bufIndex := k }) ports 0 busy

def unuseBuffers (busy : List Bool) (ports : List AudioPort) : Option (List Bool) :=
  giveBack (ports.map (·.bufIndex)) busy

/-- The buffers of the inputs, from upstream. -/
def collectInputs (instances : List (Instance F)) (ports : List AudioPort) :
    Option (List AudioPort) :=
  ports.mapM fun port =>
    (port.peer.bind (findOutputAudioPort instances)).map fun peer =>
      { port with bufIndex := peer.bufIndex }

def Instance.withBuffers (inst : Instance F) (inputs outputs : List AudioPort) : Instance F :=
  { inst with inputAudioPorts := inputs, outputAudioPorts := outputs }

/-- The body of the last loop of `allocate_buffers`. -/
def assignInstance (instances : List (Instance F)) (inst : Instance F) (busy : List Bool) :
    Option (Instance F × List Bool) :=
  (collectInputs instances inst.inputAudioPorts).bind fun inputs =>
    if inst.inplaceBroken then
      (useBuffers busy inst.outputAudioPorts).bind fun r =>
        (unuseBuffers r.2 inputs).bind fun busy =>
          some (inst.withBuffers inputs r.1, busy)
    else
      (unuseBuffers busy inputs).bind fun busy =>
        (useBuffers busy inst.outputAudioPorts).bind fun r =>
          some (inst.withBuffers inputs r.1, r.2)

/-- The last loop, with the instances that are assigned and those that are not. -/
def assignBuffers : List (Instance F) → List (Instance F) → List Bool → Option (List (Instance F))
  | assigned, [], _ => some assigned
  | assigned, inst :: rest, busy =>
      (assignInstance (assigned ++ inst :: rest) inst busy).bind fun r =>
        assignBuffers (assigned ++ [r.1]) rest r.2

/-- What `allocate_buffers` gives a pipeline. -/
structure Allocation (F : Type) where
  peakBuf : Nat
  instances : List (Instance F)

def allocateBuffers (instances : List (Instance F)) : Option (Allocation F) :=
  (assignBuffers [] instances
    (List.replicate (countBuffers instances).peak.toNat false)).map fun assigned =>
      { peakBuf := (countBuffers instances).peak.toNat, instances := assigned }

/-! ## Values and buffers -/

/-- An instance without its buffers. -/
def Instance.wiring (inst : Instance F) : Instance F :=
  inst.withBuffers (inst.inputAudioPorts.map fun port => { port with bufIndex := 0 })
    (inst.outputAudioPorts.map fun port => { port with bufIndex := 0 })

/-- The outputs of an instance, each with its buffer. -/
def Instance.values (inst : Instance F) : List (PortRef × Nat) :=
  inst.outputAudioPorts.map fun port => (⟨inst.plugin, port.originalIndex⟩, port.bufIndex)

/-- The outputs that an instance reads. -/
def Instance.reads (inst : Instance F) : List PortRef :=
  inst.inputAudioPorts.filterMap (·.peer)

/-- The outputs that have been written and not been read when the instances have run. -/
def live (instances : List (Instance F)) : List (PortRef × Nat) :=
  (instances.flatMap Instance.values).filter fun v =>
    decide (v.1 ∉ instances.flatMap Instance.reads)

/-- An output writes its buffer. -/
def writeValue (writer : Nat → Option PortRef) (v : PortRef × Nat) : Nat → Option PortRef :=
  Function.update writer v.2 (some v.1)

/-- The output that has written each buffer last when the instances have run. -/
def lastWriter (instances : List (Instance F)) : Nat → Option PortRef :=
  (instances.flatMap Instance.values).foldl writeValue fun _ => none

/-- The buffers with a value when the first `t` instances have run. -/
def inUse (instances : List (Instance F)) (t : Nat) : Finset Nat :=
  ((live (instances.take t)).map (·.2)).toFinset

/-- The buffers with a value while the instance at `t` runs. -/
def inUseDuring (instances : List (Instance F)) (t : Nat) : Finset Nat :=
  inUse instances t ∪
    (((instances[t]?).toList.flatMap Instance.values).map (·.2)).toFinset

/-- Every audio input reads an output of an instance before its own.  Ports are known by
their plugin and index, which are different for different ports. -/
structure DependencyOrdered (instances : List (Instance F)) : Prop where
  plugins : (instances.map (·.plugin)).Nodup
  outputs : ∀ inst ∈ instances, (inst.outputAudioPorts.map (·.originalIndex)).Nodup
  peers : ∀ l₁ inst l₂, instances = l₁ ++ inst :: l₂ → ∀ port ∈ inst.inputAudioPorts,
    ∃ ref, port.peer = some ref ∧ HasOutput l₁ .audio ref

/-- Each output feeds at most one input. -/
def FeedsOnce (instances : List (Instance F)) : Prop :=
  (instances.flatMap Instance.reads).Nodup

/-- No instance reads an output of its own. -/
def ReadsOthers (instances : List (Instance F)) : Prop :=
  ∀ inst ∈ instances, ∀ ref ∈ inst.reads, ref.plugin ≠ inst.plugin

/-- Buffers that can be shared the way they are. -/
structure BuffersSound (alloc : Allocation F) : Prop where
  bounded : ∀ inst ∈ alloc.instances, ∀ port ∈ inst.inputAudioPorts ++ inst.outputAudioPorts,
    port.bufIndex < alloc.peakBuf
  apart : ∀ t, ∀ v ∈ live (alloc.instances.take t), ∀ v' ∈ live (alloc.instances.take t),
    v.2 = v'.2 → v.1 = v'.1
  holds : ∀ k inst, alloc.instances[k]? = some inst → ∀ port ∈ inst.inputAudioPorts,
    ∃ ref, port.peer = some ref ∧
      lastWriter (alloc.instances.take k) port.bufIndex = some ref
  broken : ∀ inst ∈ alloc.instances, inst.inplaceBroken = true →
    ∀ inp ∈ inst.inputAudioPorts, ∀ out ∈ inst.outputAudioPorts, inp.bufIndex ≠ out.bufIndex
  peak : IsGreatest {n | ∃ t, n = (inUse alloc.instances t).card ∨
    n = (inUseDuring alloc.instances t).card} alloc.peakBuf

end DragonDevice.Dsp
