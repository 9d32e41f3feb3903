/-
  Dsp/Pipeline.lean --- building a pipeline from an ini.

  `topological_sort` walks the flows backwards from the sink and appends an instance for
  each enabled plugin it leaves.  The ports of an instance are connected to the outputs that
  `find_origin_port` finds: it goes upstream through plugins that have no instance, from
  their k-th output of a type to their k-th input of that type.  Its recursion has no other
  end.  The pointer that an output port gets back to its peer is never read, and is left out.
-/
import DragonDevice.Lib.DepthFirst
import DragonDevice.Dsp.Ini

set_option autoImplicit false

namespace DragonDevice.Dsp

open DragonDevice.Lib

variable {F E : Type}

/-! ## Instances -/

/-- `struct audio_port`; the peer of an input is an output port. -/
structure AudioPort where
  originalIndex : Nat
  peer : Option PortRef
  bufIndex : Nat
  deriving DecidableEq, Repr

/-- `struct control_port`. -/
structure ControlPort (F : Type) where
  originalIndex : Nat
  peer : Option PortRef
  value : F

/-- `struct instance`, without the module. -/
structure Instance (F : Type) where
  plugin : Nat
  inputAudioPorts : List AudioPort
  outputAudioPorts : List AudioPort
  inputControlPorts : List (ControlPort F)
  outputControlPorts : List (ControlPort F)
  properties : Nat

/-- An instance as `ARRAY_APPEND_ZERO` makes it, for a plugin. -/
def Instance.zero (plugin : Nat) : Instance F := ⟨plugin, [], [], [], [], 0⟩

def findInstanceByPlugin (instances : List (Instance F)) (plugin : Nat) : Option (Instance F) :=
  instances.find? fun inst => inst.plugin == plugin

def findOutputAudioPort (instances : List (Instance F)) (ref : PortRef) : Option AudioPort :=
  (findInstanceByPlugin instances ref.plugin).bind fun inst =>
    inst.outputAudioPorts.find? fun port => port.originalIndex == ref.index

def findOutputControlPort (instances : List (Instance F)) (ref : PortRef) :
    Option (ControlPort F) :=
  (findInstanceByPlugin instances ref.plugin).bind fun inst =>
    inst.outputControlPorts.find? fun port => port.originalIndex == ref.index

/-! ## The origin of an input -/

def Port.is (direction : PortDirection) (type : PortType) (port : Port F) : Bool :=
  port.direction == direction && port.type == type

/-- How many ports of a direction and type stand before `index`. -/
def portRank (direction : PortDirection) (type : PortType) (ports : List (Port F)) (index : Nat) :
    Nat :=
  (ports.take index).countP (Port.is direction type)

/-- The position of the `k`-th port of a direction and type. -/
def nthPort (direction : PortDirection) (type : PortType) : List (Port F) → Nat → Option Nat
  | [], _ => none
  | port :: rest, k =>
      if port.is direction type then
        match k with
        | 0 => some 0
        | k + 1 => (nthPort direction type rest k).map (· + 1)
      else (nthPort direction type rest k).map (· + 1)

/-- The input of a plugin that goes with the output at `index`. -/
def bypass (ports : List (Port F)) (type : PortType) (index : Nat) : Option Nat :=
  if index < ports.length then nthPort .input type ports (portRank .output type ports index)
  else none

/-- `find_origin_port`, where `built` are the plugins that have an instance. -/
def findOriginPort (ini : Ini F E) (built : List Nat) : Nat → PortRef → Outcome PortRef
  | 0, _ => .running
  | fuel + 1, ref =>
      match ini.port? ref with
      | none => .fault
      | some port =>
          match port.flowId with
          | none => .failed
          | some id =>
              match ini.flows[id]? with
              | none => .fault
              | some flow =>
                  match flow.fromPlugin with
                  | none => .fault
                  | some plugin =>
                      if built.contains plugin then .done ⟨plugin, flow.fromPort⟩
                      else
                        match ini.plugins[plugin]? with
                        | none => .fault
                        | some prev =>
                            match bypass prev.ports port.type flow.fromPort with
                            | none => .failed
                            | some index => findOriginPort ini built fuel ⟨plugin, index⟩

/-! ## The walk -/

/-- `is_disabled`, with what evaluating an expression gives. -/
def isDisabled (eval : E → Option Bool) (plugin : Plugin F E) : Bool :=
  match plugin.disableExpr with
  | none => false
  | some expr => eval expr == some true

/-- The plugins that the flows of a plugin's ports come from. -/
def upstream (ini : Ini F E) (p : Nat) : List (Option Nat) :=
  match ini.plugins[p]? with
  | none => []
  | some plugin =>
      (plugin.ports.filterMap (·.flowId)).map fun id => (ini.flows[id]?).bind (·.fromPlugin)

/-- The origin of a port that needs to be connected. -/
def connect (ini : Ini F E) (built : List Nat) (fuel : Nat) (ref : PortRef) (port : Port F) :
    Outcome (Option PortRef) :=
  if port.flowId.isSome && port.direction == .input then
    (findOriginPort ini built fuel ref).bind fun origin => .done (some origin)
  else .done none

def Instance.addAudio (inst : Instance F) (direction : PortDirection) (port : AudioPort) :
    Instance F :=
  match direction with
  | .input => { inst with inputAudioPorts := inst.inputAudioPorts ++ [port] }
  | .output => { inst with outputAudioPorts := inst.outputAudioPorts ++ [port] }

def Instance.addControl (inst : Instance F) (direction : PortDirection) (port : ControlPort F) :
    Instance F :=
  match direction with
  | .input => { inst with inputControlPorts := inst.inputControlPorts ++ [port] }
  | .output => { inst with outputControlPorts := inst.outputControlPorts ++ [port] }

/-- The plugins with an instance, when the ports of `inst` are added. -/
def builtWith (instances : List (Instance F)) (inst : Instance F) : List Nat :=
  (instances ++ [inst]).map (·.plugin)

/-- The body of the loop that constructs the ports of an instance. -/
def addPort (ini : Ini F E) (instances : List (Instance F)) (fuel : Nat) (p : Port F × Nat)
    (inst : Instance F) : Outcome (Instance F) :=
  (connect ini (builtWith instances inst) fuel ⟨inst.plugin, p.2⟩ p.1).bind fun origin =>
    match p.1.type with
    | .audio =>
        let inst := inst.addAudio p.1.direction ⟨p.2, origin, 0⟩
        match origin with
        | none => .done inst
        | some ref =>
            if (findOutputAudioPort (instances ++ [inst]) ref).isSome then .done inst else .failed
    | .control =>
        let inst := inst.addControl p.1.direction ⟨p.2, origin, p.1.initValue⟩
        match origin with
        | none => .done inst
        | some ref =>
            if (findOutputControlPort (instances ++ [inst]) ref).isSome then .done inst else .failed

/-- What `topological_sort` does when it leaves a plugin. -/
def constructInstance (ini : Ini F E) (eval : E → Option Bool) (fuel : Nat) (p : Nat)
    (instances : List (Instance F)) : Outcome (List (Instance F)) :=
  match ini.plugins[p]? with
  | none => .fault
  | some plugin =>
      if isDisabled eval plugin then .done instances
      else
        (foldOutcome (addPort ini instances fuel) plugin.ports.zipIdx (Instance.zero p)).bind
          fun inst => .done (instances ++ [inst])

/-- `topological_sort`, with the visited plugins and the instances. -/
def topologicalSort (ini : Ini F E) (eval : E → Option Bool) (fuel : Nat) :
    Nat → List Nat × List (Instance F) → Outcome (List Nat × List (Instance F)) :=
  depthFirst (upstream ini) (constructInstance ini eval fuel) fuel

/-! ## Creating a pipeline -/

/-- `find_enabled_builtin_plugin`: no plugin or more than one is an error. -/
def findEnabledBuiltinPlugin (ini : Ini F E) (eval : E → Option Bool) (label purpose : String) :
    Option Nat :=
  match (ini.plugins.zipIdx.filter fun p => p.1.library == "builtin" && p.1.label == label &&
      p.1.purpose == some purpose && !isDisabled eval p.1).map (·.2) with
  | [p] => some p
  | _ => none

/-- `struct pipeline`, with the plugins of the source and sink instances. -/
structure Pipeline (F : Type) where
  instances : List (Instance F)
  source : Nat
  sink : Nat
  inputChannels : Nat
  outputChannels : Nat

/-- `cras_dsp_pipeline_create`; a failure is `NULL`. -/
def pipelineCreate (ini : Ini F E) (eval : E → Option Bool) (purpose : String) (fuel : Nat) :
    Outcome (Pipeline F) :=
  match findEnabledBuiltinPlugin ini eval "source" purpose,
      findEnabledBuiltinPlugin ini eval "sink" purpose with
  | some source, some sink =>
      (topologicalSort ini eval fuel sink ([], [])).bind fun st =>
        match findInstanceByPlugin st.2 source, findInstanceByPlugin st.2 sink with
        | some sourceInst, some sinkInst =>
            let inputChannels := sourceInst.outputAudioPorts.length
            let outputChannels := sinkInst.inputAudioPorts.length
            if inputChannels < outputChannels then .failed
            else .done ⟨st.2, source, sink, inputChannels, outputChannels⟩
        | _, _ => .failed
  | _, _ => .failed

end DragonDevice.Dsp
