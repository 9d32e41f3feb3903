/-
  Dsp/Ini.lean --- the static graph of plugins in a dsp ini file.

  Ports name flows, and a flow connects the output port that produces it to the input
  ports that read it.  `fill_flow_info` notes for each flow the last port of either
  direction.  A flow's name begins with the bracket that also gives the type of the port,
  so that all ports of one flow have one type; the parser's result carries this.  Float
  values and disable expressions are of arbitrary types.
-/
import Mathlib.Data.List.Basic

set_option autoImplicit false

namespace DragonDevice.Dsp

/-! ## Ports, plugins and flows -/

inductive PortDirection where
  | input
  | output
  deriving DecidableEq, Repr

inductive PortType where
  | control
  | audio
  deriving DecidableEq, Repr

/-- `struct port`; no flow stands for `INVALID_FLOW_ID`. -/
structure Port (F : Type) where
  direction : PortDirection
  type : PortType
  flowId : Option Nat
  initValue : F

/-- `struct plugin`; the title is only logged. -/
structure Plugin (F E : Type) where
  library : String
  label : String
  purpose : Option String
  disableExpr : Option E
  ports : List (Port F)

/-- `struct flow`, with plugins as their positions in the ini. -/
structure Flow where
  type : PortType
  fromPlugin : Option Nat
  fromPort : Nat
  toPlugin : Option Nat
  toPort : Nat
  deriving DecidableEq, Repr

/-- A flow as `ARRAY_APPEND_ZERO` makes it. -/
def Flow.zero : Flow := ⟨.control, none, 0, none, 0⟩

/-- A port by the positions of its plugin and of itself. -/
structure PortRef where
  plugin : Nat
  index : Nat
  deriving DecidableEq, Repr

/-- All ports with their places, in the order of the two loops of `fill_flow_info`. -/
def allPorts {F E : Type} (plugins : List (Plugin F E)) : List (PortRef × Port F) :=
  plugins.zipIdx.flatMap fun p => p.1.ports.zipIdx.map fun q => (⟨p.2, q.2⟩, q.1)

/-- What one port says about a flow. -/
def Flow.note {F : Type} (flow : Flow) (ref : PortRef) (port : Port F) : Flow :=
  match port.direction with
  | .input => { flow with type := port.type, toPlugin := some ref.plugin, toPort := ref.index }
  | .output => { flow with type := port.type, fromPlugin := some ref.plugin, fromPort := ref.index }

/-- The body of the loops of `fill_flow_info`. -/
def fillPort {F : Type} (flows : List Flow) (p : PortRef × Port F) : List Flow :=
  match p.2.flowId with
  | none => flows
  | some id => flows.modify id fun flow => flow.note p.1 p.2

def fillFlowInfo {F E : Type} (plugins : List (Plugin F E)) (flows : List Flow) : List Flow :=
  (allPorts plugins).foldl fillPort flows

/-- `struct ini` as the parser leaves it: flow ids are positions of flows, and a flow's name
gives the type of its ports.  Only control ports have a value instead of a flow. -/
structure Ini (F E : Type) where
  plugins : List (Plugin F E)
  flowTypes : List PortType
  port_flow : ∀ plugin ∈ plugins, ∀ port ∈ plugin.ports, ∀ id, port.flowId = some id →
    flowTypes[id]? = some port.type
  audio_flow : ∀ plugin ∈ plugins, ∀ port ∈ plugin.ports, port.type = .audio →
    port.flowId ≠ none

namespace Ini

variable {F E : Type}

def flows (ini : Ini F E) : List Flow :=
  fillFlowInfo ini.plugins (ini.flowTypes.map fun _ => Flow.zero)

def port? (ini : Ini F E) (ref : PortRef) : Option (Port F) :=
  (ini.plugins[ref.plugin]?).bind fun plugin => plugin.ports[ref.index]?

end Ini

/-! ## What `fill_flow_info` notes -/

section Fill

variable {F E : Type}

theorem mem_allPorts {plugins : List (Plugin F E)} {ref : PortRef} {port : Port F} :
    (ref, port) ∈ allPorts plugins ↔
      ∃ plugin, plugins[ref.plugin]? = some plugin ∧ plugin.ports[ref.index]? = some port := by
  obtain ⟨i, j⟩ := ref
  unfold allPorts
  simp only [List.mem_flatMap, List.mem_map, Prod.mk.injEq, PortRef.mk.injEq]
  constructor
  · rintro ⟨⟨plugin, i'⟩, hplugin, ⟨q, j'⟩, hport, ⟨hi, hj⟩, hq⟩
    dsimp only at hi hj hq
    subst hi hj hq
    exact ⟨plugin, List.mem_zipIdx_iff_getElem?.mp hplugin, List.mem_zipIdx_iff_getElem?.mp hport⟩
  · rintro ⟨plugin, hplugin, hport⟩
    exact ⟨(plugin, i), List.mem_zipIdx_iff_getElem?.mpr hplugin, (port, j),
      List.mem_zipIdx_iff_getElem?.mpr hport, ⟨rfl, rfl⟩, rfl⟩

/-- An output port of a flow. -/
def Produces (p : PortRef × Port F) (id : Nat) : Prop :=
  p.2.direction = .output ∧ p.2.flowId = some id

/-- A flow knows a producer among the ports seen, and one if there is any. -/
def Noted (seen : List (PortRef × Port F)) (id : Nat) (flow : Flow) : Prop :=
  (∀ i, flow.fromPlugin = some i → ∃ port, (⟨i, flow.fromPort⟩, port) ∈ seen ∧
    Produces (⟨i, flow.fromPort⟩, port) id) ∧
  ((∃ p ∈ seen, Produces p id) → flow.fromPlugin ≠ none)

theorem Noted.snoc_other {seen : List (PortRef × Port F)} {id : Nat} {flow : Flow}
    (h : Noted seen id flow) {p : PortRef × Port F} (hp : ¬ Produces p id) :
    Noted (seen ++ [p]) id flow := by
  refine ⟨fun i hi => ?_, fun hex => h.2 ?_⟩
  · obtain ⟨port, hmem, hproduces⟩ := h.1 i hi
    exact ⟨port, List.mem_append_left _ hmem, hproduces⟩
  · obtain ⟨q, hq, hproduces⟩ := hex
    cases List.mem_append.mp hq with
    | inl hq => exact ⟨q, hq, hproduces⟩
    | inr hq =>
        rw [List.mem_singleton.mp hq] at hproduces
        exact absurd hproduces hp

theorem Noted.note {seen : List (PortRef × Port F)} {id : Nat} {flow : Flow}
    (h : Noted seen id flow) {p : PortRef × Port F} (hp : p.2.flowId = some id) :
    Noted (seen ++ [p]) id (flow.note p.1 p.2) := by
  unfold Flow.note
  cases hdir : p.2.direction with
  | input =>
      have hnot : ¬ Produces p id := by
        intro hproduces
        rw [hproduces.1] at hdir
        cases hdir
      exact h.snoc_other hnot
  | output =>
      refine ⟨fun i hi => ?_, fun _ hnone => nomatch hnone⟩
      cases hi
      exact ⟨p.2, List.mem_append_right _ List.mem_cons_self, hdir, hp⟩

theorem noted_fillPort {seen : List (PortRef × Port F)} {flows : List Flow}
    (h : ∀ id flow, flows[id]? = some flow → Noted seen id flow) (p : PortRef × Port F)
    (id : Nat) (flow : Flow) (hflow : (fillPort flows p)[id]? = some flow) :
    Noted (seen ++ [p]) id flow := by
  unfold fillPort at hflow
  cases hid : p.2.flowId with
  | none =>
      rw [hid] at hflow
      refine (h id flow hflow).snoc_other fun hproduces => ?_
      have hsome := hproduces.2
      rw [hid] at hsome
      cases hsome
  | some id' =>
      rw [hid] at hflow
      dsimp only at hflow
      rw [List.getElem?_modify, Option.map_eq_map, Option.map_eq_some_iff] at hflow
      obtain ⟨old, hold, hnew⟩ := hflow
      by_cases heq : id' = id
      · subst heq
        rw [if_pos rfl] at hnew
        subst hnew
        exact (h id' old hold).note hid
      · rw [if_neg heq] at hnew
        subst hnew
        refine (h id old hold).snoc_other fun hproduces => heq ?_
        rw [hproduces.2] at hid
        cases hid
        rfl

theorem noted_foldl (rest : List (PortRef × Port F)) :
    ∀ (seen : List (PortRef × Port F)) (flows : List Flow),
      (∀ id flow, flows[id]? = some flow → Noted seen id flow) →
      ∀ id flow, (rest.foldl fillPort flows)[id]? = some flow → Noted (seen ++ rest) id flow := by
  induction rest with
  | nil =>
      intro seen flows h id flow hflow
      rw [List.append_nil]
      exact h id flow hflow
  | cons p rest ih =>
      intro seen flows h id flow hflow
      have hnext := ih (seen ++ [p]) (fillPort flows p) (noted_fillPort h p) id flow hflow
      rw [List.append_assoc] at hnext
      exact hnext

theorem length_foldl_fillPort (rest : List (PortRef × Port F)) :
    ∀ flows : List Flow, (rest.foldl fillPort flows).length = flows.length := by
  induction rest with
  | nil =>
      intro flows
      rfl
  | cons p rest ih =>
      intro flows
      rw [List.foldl_cons, ih]
      unfold fillPort
      cases p.2.flowId with
      | none => rfl
      | some id => exact List.length_modify _ _ _

end Fill

namespace Ini

variable {F E : Type} (ini : Ini F E)

theorem mem_allPorts_iff {ref : PortRef} {port : Port F} :
    (ref, port) ∈ allPorts ini.plugins ↔ ini.port? ref = some port := by
  rw [mem_allPorts, Ini.port?, Option.bind_eq_some_iff]

theorem noted_flows (id : Nat) (flow : Flow) (h : ini.flows[id]? = some flow) :
    Noted (allPorts ini.plugins) id flow := by
  have hnoted := noted_foldl (allPorts ini.plugins) [] (ini.flowTypes.map fun _ => Flow.zero)
    (fun id flow hflow => ?_) id flow h
  · exact hnoted
  · rw [List.getElem?_map, Option.map_eq_some_iff] at hflow
    obtain ⟨_, _, hzero⟩ := hflow
    subst hzero
    refine ⟨(fun i hi => nomatch hi), fun hex => ?_⟩
    obtain ⟨p, hp, _⟩ := hex
    cases hp

/-- The flow of a port is there. -/
theorem flow_of_port {ref : PortRef} {port : Port F} {id : Nat} (hport : ini.port? ref = some port)
    (hid : port.flowId = some id) : ∃ flow, ini.flows[id]? = some flow := by
  rw [Ini.port?, Option.bind_eq_some_iff] at hport
  obtain ⟨plugin, hplugin, hport⟩ := hport
  have htype := ini.port_flow plugin (List.mem_of_getElem? hplugin) port
    (List.mem_of_getElem? hport) id hid
  have hlt : id < ini.flows.length := by
    unfold Ini.flows fillFlowInfo
    rw [length_foldl_fillPort, List.length_map]
    exact (List.getElem?_eq_some_iff.mp htype).1
  exact ⟨ini.flows[id], List.getElem?_eq_getElem hlt⟩

/-- The port a flow comes from produces it. -/
theorem produces_of_flow {id : Nat} {flow : Flow} (hflow : ini.flows[id]? = some flow) {i : Nat}
    (hi : flow.fromPlugin = some i) :
    ∃ port, ini.port? ⟨i, flow.fromPort⟩ = some port ∧ port.direction = .output ∧
      port.flowId = some id := by
  obtain ⟨port, hmem, hout, hid⟩ := (ini.noted_flows id flow hflow).1 i hi
  exact ⟨port, (ini.mem_allPorts_iff).mp hmem, hout, hid⟩

/-- A flow that has a producer comes from one. -/
theorem flow_of_produces {ref : PortRef} {port : Port F} {id : Nat} {flow : Flow}
    (hport : ini.port? ref = some port) (hout : port.direction = .output)
    (hid : port.flowId = some id) (hflow : ini.flows[id]? = some flow) :
    ∃ i, flow.fromPlugin = some i := by
  have hsome := (ini.noted_flows id flow hflow).2
    ⟨(ref, port), (ini.mem_allPorts_iff).mpr hport, hout, hid⟩
  exact Option.ne_none_iff_exists'.mp hsome

/-- Ports of one flow have one type. -/
theorem type_eq {ref ref' : PortRef} {port port' : Port F} {id : Nat}
    (h : ini.port? ref = some port) (h' : ini.port? ref' = some port')
    (hid : port.flowId = some id) (hid' : port'.flowId = some id) : port.type = port'.type := by
  rw [Ini.port?, Option.bind_eq_some_iff] at h h'
  obtain ⟨plugin, hplugin, hport⟩ := h
  obtain ⟨plugin', hplugin', hport'⟩ := h'
  have htype := ini.port_flow plugin (List.mem_of_getElem? hplugin) port
    (List.mem_of_getElem? hport) id hid
  have htype' := ini.port_flow plugin' (List.mem_of_getElem? hplugin') port'
    (List.mem_of_getElem? hport') id hid'
  rw [htype] at htype'
  exact Option.some.inj htype'

end Ini

end DragonDevice.Dsp
