/-
  Dsp/Instantiate.lean --- `cras_dsp_pipeline_instantiate`: the ports of modules are connected,
  and the delay from the source to each instance is summed up.

  A builtin module keeps what its ports are connected to in a table of its own size, all of it
  unconnected at first.  `none` stands for a store behind the end of the table, for an access
  through a slot that is not connected, for a peer that is not there, and for a sum that does
  not fit in an `int`.  Memory is there when it is asked for.
-/
import DragonDevice.Dsp.Modules
import Mathlib.Algebra.Ring.Int.Defs

set_option autoImplicit false

namespace DragonDevice.Dsp

variable {F E M : Type}

/-! ## Port tables -/

def maxBiquadsPerEq : Nat := 10

def maxBiquadsPerEq2 : Nat := 10

/-- What a port is connected to: a buffer of the pipeline, or the value of a control port. -/
inductive Location where
  | buffer (index : Nat)
  | control (ref : PortRef)
  deriving DecidableEq, Repr

/-- The data of a module: its ports, and the number of filters of the one that its first run
makes. -/
structure ModuleData where
  ports : List (Option Location)
  filter : Option Nat
  deriving DecidableEq, Repr

/-- The number of ports that a module has a slot for. -/
def Module.portCount : Module → Nat
  | .empty => 0
  | .mixStereo => 4
  | .invertLr => 4
  | .eq => 2 + maxBiquadsPerEq * 4
  | .eq2 => 4 + maxBiquadsPerEq2 * 8
  | .drc => 4 + 1 + 8 * 3

/-- `module->instantiate` -/
def Module.instantiate (module : Module) : ModuleData :=
  ⟨List.replicate module.portCount none, none⟩

/-- A store to the table. -/
def ModuleData.storePort (data : ModuleData) (port : Nat) (location : Location) :
    Option ModuleData :=
  if port < data.ports.length then
    some { data with ports := data.ports.set port (some location) }
  else
    none

/-- `module->connect_port` -/
def Module.connectPort (module : Module) (data : ModuleData) (port : Nat) (location : Location) :
    Option ModuleData :=
  match module with
  | .empty => some data
  | _ => data.storePort port location

/-- The calls of `connect_port` for an instance.  An input control port with a peer is connected
to the value of the peer. -/
def Instance.connections (inst : Instance F) : List (Nat × Location) :=
  (inst.inputAudioPorts.map fun port => (port.originalIndex, .buffer port.bufIndex)) ++
    (inst.outputAudioPorts.map fun port => (port.originalIndex, .buffer port.bufIndex)) ++
    (inst.inputControlPorts.map fun port =>
      (port.originalIndex, .control (port.peer.getD ⟨inst.plugin, port.originalIndex⟩))) ++
    (inst.outputControlPorts.map fun port =>
      (port.originalIndex, .control ⟨inst.plugin, port.originalIndex⟩))

/-- An instance's module is instantiated, and its ports are connected. -/
def connectModule (ini : Ini F E) (inst : Instance F) : Option (Module × ModuleData) :=
  (ini.module? inst.plugin).bind fun module =>
    (inst.connections.foldlM (fun data c => module.connectPort data c.1 c.2)
      module.instantiate).map fun data => (module, data)

/-! ## Runs -/

namespace ModuleData

/-- What the port at a slot is connected to, `NULL` if it is not. -/
def port (data : ModuleData) (k : Nat) : Option Location := (data.ports[k]?).join

/-- Every slot that is accessed through is connected. -/
def connected (data : ModuleData) (slots : List Nat) : Bool :=
  slots.all fun k => (data.port k).isSome

/-- An access through slots. -/
def access (data : ModuleData) (slots : List Nat) : Option ModuleData :=
  if data.connected slots then some data else none

/-- `memcpy` from a port to another, unless they are connected to the same. -/
def copy (data : ModuleData) (source target sampleCount : Nat) : Option ModuleData :=
  if data.port source = data.port target ∨ sampleCount = 0 then some data
  else data.access [source, target]

/-- Filters work on ports in place. -/
def process (data : ModuleData) (filters : Nat) (slots : List Nat) (sampleCount : Nat) :
    Option ModuleData :=
  if filters = 0 ∨ sampleCount = 0 then some data else data.access slots

/-- The parameters of filters are read in groups, up to a group whose first port is not
connected.  The number of groups is returned. -/
def readGroups (data : ModuleData) (width : Nat) : Nat → Nat → Option Nat
  | 0, _ => some 0
  | left + 1, i =>
      if data.port i = none then some 0
      else if data.connected (List.range' i width) then
        (data.readGroups width left (i + width)).map (· + 1)
      else
        none

/-- The filter is made when a module runs for the first time. -/
def ensureFilter (data : ModuleData) (make : Option Nat) : Option ModuleData :=
  match data.filter with
  | some _ => some data
  | none => make.map fun filters => { data with filter := some filters }

/-- The number of filters, after they have been made. -/
def filters (data : ModuleData) : Nat := data.filter.getD 0

end ModuleData

/-- `invert_lr_run` and `mix_stereo_run` access all of their ports for every sample. -/
def stereoAccess (data : ModuleData) (sampleCount : Nat) : Option ModuleData :=
  if sampleCount = 0 then some data else data.access [0, 1, 2, 3]

/-- `eq_run` -/
def eqAccess (data : ModuleData) (sampleCount : Nat) : Option ModuleData :=
  (data.ensureFilter (data.readGroups 4 maxBiquadsPerEq 2)).bind fun data =>
    (data.copy 0 1 sampleCount).bind fun data => data.process data.filters [1] sampleCount

/-- `eq2_run` -/
def eq2Access (data : ModuleData) (sampleCount : Nat) : Option ModuleData :=
  (data.ensureFilter (data.readGroups 8 maxBiquadsPerEq2 4)).bind fun data =>
    (data.copy 0 2 sampleCount).bind fun data =>
      (data.copy 1 3 sampleCount).bind fun data => data.process data.filters [2, 3] sampleCount

/-- `drc_run`: the first run reads the parameter of the emphasis and those of three bands. -/
def drcAccess (data : ModuleData) (sampleCount : Nat) : Option ModuleData :=
  (data.ensureFilter (if data.connected (4 :: List.range' 5 (8 * 3)) then some 1 else none)).bind
    fun data =>
      (data.copy 0 2 sampleCount).bind fun data =>
        (data.copy 1 3 sampleCount).bind fun data => data.process data.filters [2, 3] sampleCount

/-- `module->run`, as far as it goes through ports. -/
def Module.access (module : Module) (data : ModuleData) (sampleCount : Nat) : Option ModuleData :=
  match module with
  | .empty => some data
  | .mixStereo => stereoAccess data sampleCount
  | .invertLr => stereoAccess data sampleCount
  | .eq => eqAccess data sampleCount
  | .eq2 => eq2Access data sampleCount
  | .drc => drcAccess data sampleCount

/-- `cras_dsp_pipeline_run` -/
def runModules (modules : List (Module × ModuleData)) (sampleCount : Nat) :
    Option (List (Module × ModuleData)) :=
  modules.mapM fun m => (m.1.access m.2 sampleCount).map fun data => (m.1, data)

/-! ## Delays -/

/-- A sum of type `int`. -/
def addInt (a b : Int) : Option Int :=
  if -2 ^ 31 ≤ a + b ∧ a + b < 2 ^ 31 then some (a + b) else none

/-- The total delay of the instance that an input comes from.  Instances are together with
their total delays. -/
def upstreamDelay (instances : List (Instance F × Int)) (port : AudioPort) : Option Int :=
  port.peer.bind fun ref => (instances.find? fun x => x.1.plugin == ref.plugin).map (·.2)

/-- The greatest delay of an input. -/
def inputDelay (instances : List (Instance F × Int)) (ports : List AudioPort) : Option Int :=
  ports.foldlM (fun delay port => (upstreamDelay instances port).map fun up => max up delay) 0

/-- The loop of `calculate_audio_delay`, with the instances it has been at. -/
def calculateAudioDelayFrom (getDelay : Nat → Int) : List (Instance F × Int) →
    List (Instance F × Int) → Option (List (Instance F × Int))
  | done, [] => some done
  | done, (inst, total) :: rest =>
      (inputDelay (done ++ (inst, total) :: rest) inst.inputAudioPorts).bind fun delay =>
        (addInt delay (getDelay inst.plugin)).bind fun total' =>
          calculateAudioDelayFrom getDelay (done ++ [(inst, total')]) rest

def calculateAudioDelay (getDelay : Nat → Int) (instances : List (Instance F × Int)) :
    Option (List (Instance F × Int)) :=
  calculateAudioDelayFrom getDelay [] instances

/-- `cras_dsp_pipeline_instantiate`, for modules that are connected in some way and have some
delay. -/
def pipelineInstantiate (connect : Instance F → Option M) (getDelay : Nat → Int)
    (instances : List (Instance F × Int)) : Option (List M × List (Instance F × Int)) :=
  (instances.mapM fun x => connect x.1).bind fun modules =>
    (calculateAudioDelay getDelay instances).map fun instances => (modules, instances)

/-- `cras_dsp_pipeline_get_delay` -/
def pipelineGetDelay (instances : List (Instance F × Int)) (sink : Nat) : Option Int :=
  (instances.find? fun x => x.1.plugin == sink).map (·.2)

end DragonDevice.Dsp
