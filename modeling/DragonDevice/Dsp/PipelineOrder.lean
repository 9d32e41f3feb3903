/-
  Dsp/PipelineOrder.lean --- the pipeline of an acyclic graph.

  The walk leaves a plugin behind everything upstream of it, so when an instance is built
  the plugins upstream that have no instance are the disabled ones, and the search for an
  origin contracts exactly these.
-/
import DragonDevice.Dsp.Contraction

set_option autoImplicit false

namespace DragonDevice.Dsp

open DragonDevice.Lib

variable {F E : Type}

/-! ## The ports of an instance -/

/-- The ports of a kind: the index of each in the plugin, and its peer. -/
def Instance.ports (inst : Instance F) (direction : PortDirection) (type : PortType) :
    List (Nat × Option PortRef) :=
  match direction, type with
  | .input, .audio => inst.inputAudioPorts.map fun port => (port.originalIndex, port.peer)
  | .output, .audio => inst.outputAudioPorts.map fun port => (port.originalIndex, port.peer)
  | .input, .control => inst.inputControlPorts.map fun port => (port.originalIndex, port.peer)
  | .output, .control => inst.outputControlPorts.map fun port => (port.originalIndex, port.peer)

/-- Some instance of the list has the output. -/
def HasOutput (instances : List (Instance F)) (type : PortType) (ref : PortRef) : Prop :=
  ∃ inst ∈ instances, inst.plugin = ref.plugin ∧
    ref.index ∈ (inst.ports .output type).map (·.1)

theorem hasOutput_of_audio {instances : List (Instance F)} {ref : PortRef}
    (h : (findOutputAudioPort instances ref).isSome = true) : HasOutput instances .audio ref := by
  obtain ⟨port, hport⟩ := Option.isSome_iff_exists.mp h
  obtain ⟨inst, hinst, hfind⟩ := Option.bind_eq_some_iff.mp hport
  refine ⟨inst, List.mem_of_find?_eq_some hinst, beq_iff_eq.mp (List.find?_some hinst :), ?_⟩
  rw [Instance.ports, List.map_map]
  exact List.mem_map.mpr ⟨port, List.mem_of_find?_eq_some hfind,
    beq_iff_eq.mp (List.find?_some hfind :)⟩

theorem hasOutput_of_control {instances : List (Instance F)} {ref : PortRef}
    (h : (findOutputControlPort instances ref).isSome = true) :
    HasOutput instances .control ref := by
  obtain ⟨port, hport⟩ := Option.isSome_iff_exists.mp h
  obtain ⟨inst, hinst, hfind⟩ := Option.bind_eq_some_iff.mp hport
  refine ⟨inst, List.mem_of_find?_eq_some hinst, beq_iff_eq.mp (List.find?_some hinst :), ?_⟩
  rw [Instance.ports, List.map_map]
  exact List.mem_map.mpr ⟨port, List.mem_of_find?_eq_some hfind,
    beq_iff_eq.mp (List.find?_some hfind :)⟩

/-- A port is added to an instance. -/
structure PortAdded (inst inst' : Instance F) (port : Port F) (i : Nat)
    (origin : Option PortRef) : Prop where
  plugin : inst'.plugin = inst.plugin
  added : inst'.ports port.direction port.type =
    inst.ports port.direction port.type ++ [(i, origin)]
  other : ∀ direction type, port.is direction type = false →
    inst'.ports direction type = inst.ports direction type

theorem portAdded_audio (inst : Instance F) {port : Port F} (h : port.type = .audio) (i : Nat)
    (origin : Option PortRef) :
    PortAdded inst (inst.addAudio port.direction ⟨i, origin, 0⟩) port i origin := by
  unfold Instance.addAudio
  cases hdir : port.direction with
  | input =>
      refine ⟨rfl, ?_, fun direction type hother => ?_⟩
      · rw [hdir, h]
        exact List.map_append
      · cases direction with
        | output => cases type <;> rfl
        | input =>
            cases type with
            | control => rfl
            | audio =>
                rw [Port.is_iff.mpr ⟨hdir, h⟩] at hother
                cases hother
  | output =>
      refine ⟨rfl, ?_, fun direction type hother => ?_⟩
      · rw [hdir, h]
        exact List.map_append
      · cases direction with
        | input => cases type <;> rfl
        | output =>
            cases type with
            | control => rfl
            | audio =>
                rw [Port.is_iff.mpr ⟨hdir, h⟩] at hother
                cases hother

theorem portAdded_control (inst : Instance F) {port : Port F} (h : port.type = .control) (i : Nat)
    (origin : Option PortRef) :
    PortAdded inst (inst.addControl port.direction ⟨i, origin, port.initValue⟩) port i origin := by
  unfold Instance.addControl
  cases hdir : port.direction with
  | input =>
      refine ⟨rfl, ?_, fun direction type hother => ?_⟩
      · rw [hdir, h]
        exact List.map_append
      · cases direction with
        | output => cases type <;> rfl
        | input =>
            cases type with
            | audio => rfl
            | control =>
                rw [Port.is_iff.mpr ⟨hdir, h⟩] at hother
                cases hother
  | output =>
      refine ⟨rfl, ?_, fun direction type hother => ?_⟩
      · rw [hdir, h]
        exact List.map_append
      · cases direction with
        | input => cases type <;> rfl
        | output =>
            cases type with
            | audio => rfl
            | control =>
                rw [Port.is_iff.mpr ⟨hdir, h⟩] at hother
                cases hother

/-- What `addPort` does when it succeeds. -/
theorem addPort_done {ini : Ini F E} {instances : List (Instance F)} {fuel : Nat}
    {p : Port F × Nat} {inst inst' : Instance F}
    (h : addPort ini instances fuel p inst = .done inst') :
    ∃ origin, connect ini (builtWith instances inst) fuel ⟨inst.plugin, p.2⟩ p.1 = .done origin ∧
      PortAdded inst inst' p.1 p.2 origin ∧
      ∀ ref, origin = some ref → HasOutput (instances ++ [inst']) p.1.type ref := by
  obtain ⟨origin, hconnect, hrest⟩ := Outcome.bind_eq_done h
  refine ⟨origin, hconnect, ?_⟩
  cases htype : p.1.type with
  | audio =>
      rw [htype] at hrest
      dsimp only at hrest
      have hadded := portAdded_audio inst htype p.2 origin
      cases origin with
      | none =>
          cases hrest
          exact ⟨hadded, fun ref href => nomatch href⟩
      | some ref =>
          dsimp only at hrest
          split at hrest
          · rename_i hfound
            cases hrest
            refine ⟨hadded, fun ref' href => ?_⟩
            cases href
            exact hasOutput_of_audio hfound
          · cases hrest
  | control =>
      rw [htype] at hrest
      dsimp only at hrest
      have hadded := portAdded_control inst htype p.2 origin
      cases origin with
      | none =>
          cases hrest
          exact ⟨hadded, fun ref href => nomatch href⟩
      | some ref =>
          dsimp only at hrest
          split at hrest
          · rename_i hfound
            cases hrest
            refine ⟨hadded, fun ref' href => ?_⟩
            cases href
            exact hasOutput_of_control hfound
          · cases hrest

/-- What the peer of an input port is: an output of an instance before its own, or one of its own
that stands before the port. -/
def PeerOf (ini : Ini F E) (instances : List (Instance F)) (fuel : Nat) (type : PortType)
    (before : List (Port F × Nat)) (ref : PortRef) (port : Port F) (peer : Option PortRef) :
    Prop :=
  (port.flowId = none ∧ peer = none) ∨
    (port.flowId ≠ none ∧ ∃ out, peer = some out ∧
      findOriginPort ini (instances.map (·.plugin) ++ [ref.plugin]) fuel ref = .done out ∧
      (HasOutput instances type out ∨ out.plugin = ref.plugin ∧
        ∃ q ∈ before, q.1.is .output type = true ∧ q.2 = out.index))

/-- An instance with the ports seen so far. -/
structure PortsBuilt (ini : Ini F E) (instances : List (Instance F)) (fuel p : Nat)
    (seen : List (Port F × Nat)) (inst : Instance F) : Prop where
  plugin : inst.plugin = p
  indices : ∀ direction type, (inst.ports direction type).map (·.1) =
    (seen.filter fun q => q.1.is direction type).map (·.2)
  peers : ∀ type i peer, (i, peer) ∈ inst.ports .input type →
    ∃ before port behind, seen = before ++ (port, i) :: behind ∧ port.is .input type = true ∧
      PeerOf ini instances fuel type before ⟨p, i⟩ port peer

/-- The peer of an input of a whole plugin. -/
theorem PortsBuilt.input {ini : Ini F E} {instances : List (Instance F)} {fuel p : Nat}
    {ports : List (Port F)} {inst : Instance F}
    (h : PortsBuilt ini instances fuel p ports.zipIdx inst) {type : PortType} {i : Nat}
    {peer : Option PortRef} (hmem : (i, peer) ∈ inst.ports .input type) :
    ∃ port, ports[i]? = some port ∧ port.is .input type = true ∧
      PeerOf ini instances fuel type (ports.zipIdx.take i) ⟨p, i⟩ port peer := by
  obtain ⟨before, port, behind, hsplit, hkind, hpeer⟩ := h.peers type i peer hmem
  have hget : ports.zipIdx[before.length]? = some (port, i) := by
    rw [hsplit, List.getElem?_append_right (Nat.le_refl _), Nat.sub_self]
    rfl
  rw [List.getElem?_zipIdx, Nat.zero_add] at hget
  obtain ⟨port', hport, heq⟩ := Option.map_eq_some_iff.mp hget
  obtain ⟨rfl, rfl⟩ := Prod.mk.inj heq
  refine ⟨port', hport, hkind, ?_⟩
  rw [hsplit, List.take_left]
  exact hpeer

theorem portsBuilt_addPort {ini : Ini F E} {instances : List (Instance F)} {fuel p : Nat}
    (seen : List (Port F × Nat)) (q : Port F × Nat) (inst inst' : Instance F)
    (h : PortsBuilt ini instances fuel p seen inst)
    (hrun : addPort ini instances fuel q inst = .done inst') :
    PortsBuilt ini instances fuel p (seen ++ [q]) inst' := by
  obtain ⟨origin, hconnect, hadded, hfound⟩ := addPort_done hrun
  have hplugin : inst'.plugin = p := hadded.plugin.trans h.plugin
  refine ⟨hplugin, fun direction type => ?_, fun type i peer hmem => ?_⟩
  · rw [List.filter_append, List.map_append]
    by_cases hkind : q.1.is direction type = true
    · obtain ⟨hdir, htype⟩ := Port.is_iff.mp hkind
      have hports := hadded.added
      rw [hdir, htype] at hports
      have hone : [q].filter (fun q => q.1.is direction type) = [q] := by
        simp only [List.filter_cons, hkind, if_true, List.filter_nil]
      rw [hports, List.map_append, h.indices, hone]
      rfl
    · have hkind' : q.1.is direction type = false := Bool.eq_false_iff.mpr hkind
      have hnone : [q].filter (fun q => q.1.is direction type) = [] := by
        simp [hkind]
      rw [hadded.other direction type hkind', h.indices, hnone]
      exact (List.append_nil _).symm
  · by_cases hkind : q.1.is .input type = true
    · obtain ⟨hdir, htype⟩ := Port.is_iff.mp hkind
      have hports := hadded.added
      rw [hdir, htype] at hports
      rw [hports] at hmem
      cases List.mem_append.mp hmem with
      | inl hmem =>
          obtain ⟨before, port, behind, hsplit, hdirection, hpeer⟩ := h.peers type i peer hmem
          exact ⟨before, port, behind ++ [q], by rw [hsplit, List.append_assoc, List.cons_append],
            hdirection, hpeer⟩
      | inr hmem =>
          cases List.mem_singleton.mp hmem
          refine ⟨seen, q.1, [], rfl, hkind, ?_⟩
          unfold connect at hconnect
          rw [hdir] at hconnect
          cases hflow : q.1.flowId with
          | none =>
              rw [hflow] at hconnect
              cases hconnect
              exact Or.inl ⟨hflow, rfl⟩
          | some id =>
              rw [hflow] at hconnect
              obtain ⟨out, horigin, hsome⟩ := Outcome.bind_eq_done hconnect
              cases hsome
              rw [builtWith, List.map_append, List.map_singleton, h.plugin] at horigin
              refine Or.inr ⟨Option.ne_none_iff_exists'.mpr ⟨id, hflow⟩, out, rfl, horigin, ?_⟩
              have hout := hfound out rfl
              rw [htype] at hout
              obtain ⟨inst'', hmem'', hplugin'', hindex⟩ := hout
              cases List.mem_append.mp hmem'' with
              | inl hbefore => exact Or.inl ⟨inst'', hbefore, hplugin'', hindex⟩
              | inr hself =>
                  rw [List.mem_singleton.mp hself] at hplugin'' hindex
                  have hinput : q.1.is .output type = false := by
                    rw [Bool.eq_false_iff]
                    intro hout
                    exact nomatch hdir.symm.trans (Port.is_iff.mp hout).1
                  rw [hadded.other .output type hinput, h.indices] at hindex
                  obtain ⟨q', hq', heq⟩ := List.mem_map.mp hindex
                  exact Or.inr ⟨hplugin''.symm.trans hplugin, q', (List.mem_filter.mp hq').1,
                    (List.mem_filter.mp hq').2, heq⟩
    · have hkind' : q.1.is .input type = false := Bool.eq_false_iff.mpr hkind
      rw [hadded.other .input type hkind'] at hmem
      obtain ⟨before, port, behind, hsplit, hdirection, hpeer⟩ := h.peers type i peer hmem
      exact ⟨before, port, behind ++ [q], by rw [hsplit, List.append_assoc, List.cons_append],
        hdirection, hpeer⟩

/-! ## The instances of a walk -/

def isEnabled (ini : Ini F E) (eval : E → Option Bool) (p : Nat) : Bool :=
  match ini.plugins[p]? with
  | none => false
  | some plugin => !isDisabled eval plugin

theorem isEnabled_iff {ini : Ini F E} {eval : E → Option Bool} {p : Nat} :
    isEnabled ini eval p = true ↔ Enabled ini eval p := by
  unfold isEnabled Enabled
  cases ini.plugins[p]? with
  | none => simp
  | some plugin => simp

/-- One instance, with the plugins left before it. -/
structure InstanceBuilt (ini : Ini F E) (eval : E → Option Bool) (fuel : Nat) (seen : List Nat)
    (before : List (Instance F)) (inst : Instance F) : Prop where
  enabled : isEnabled ini eval inst.plugin = true
  place : ∃ l₁ l₂, seen = l₁ ++ inst.plugin :: l₂ ∧
    before.map (·.plugin) = l₁.filter (isEnabled ini eval)
  ports : ∃ plugin, ini.plugins[inst.plugin]? = some plugin ∧
    PortsBuilt ini before fuel inst.plugin plugin.ports.zipIdx inst

/-- The instances after the plugins `seen` have been left. -/
structure InstancesBuilt (ini : Ini F E) (eval : E → Option Bool) (fuel : Nat) (seen : List Nat)
    (instances : List (Instance F)) : Prop where
  plugins : instances.map (·.plugin) = seen.filter (isEnabled ini eval)
  each : ∀ k inst, instances[k]? = some inst →
    InstanceBuilt ini eval fuel seen (instances.take k) inst

theorem instancesBuilt_construct {ini : Ini F E} {eval : E → Option Bool} {fuel : Nat}
    (seen : List Nat) (p : Nat) (instances instances' : List (Instance F))
    (h : InstancesBuilt ini eval fuel seen instances)
    (hrun : constructInstance ini eval fuel p instances = .done instances') :
    InstancesBuilt ini eval fuel (seen ++ [p]) instances' := by
  unfold constructInstance at hrun
  cases hplugin : ini.plugins[p]? with
  | none =>
      rw [hplugin] at hrun
      cases hrun
  | some plugin =>
      rw [hplugin] at hrun
      dsimp only at hrun
      have hkeep : ∀ k inst, instances[k]? = some inst →
          InstanceBuilt ini eval fuel (seen ++ [p]) (instances.take k) inst := by
        intro k inst hinst
        obtain ⟨henabled, ⟨l₁, l₂, hseen, hbefore⟩, hports⟩ := h.each k inst hinst
        exact ⟨henabled, ⟨l₁, l₂ ++ [p], by rw [hseen, List.append_assoc, List.cons_append],
          hbefore⟩, hports⟩
      by_cases hdisabled : isDisabled eval plugin = true
      · rw [if_pos hdisabled] at hrun
        cases hrun
        have hnot : isEnabled ini eval p = false := by
          unfold isEnabled
          rw [hplugin]
          dsimp only
          rw [hdisabled]
          rfl
        refine ⟨?_, hkeep⟩
        rw [h.plugins, List.filter_append, List.filter_cons_of_neg (by rw [hnot]; exact nofun)]
        exact (List.append_nil _).symm
      · rw [if_neg hdisabled] at hrun
        obtain ⟨inst, hports, hdone⟩ := Outcome.bind_eq_done hrun
        cases hdone
        have hzero : PortsBuilt ini instances fuel p [] (Instance.zero p : Instance F) := by
          refine ⟨rfl, fun direction type => ?_, fun type i peer hmem => ?_⟩
          · cases direction <;> cases type <;> rfl
          · cases type <;> cases hmem
        have hbuilt := foldOutcome_invariant
          (fun seen a s s' => portsBuilt_addPort seen a s s') plugin.ports.zipIdx []
          (Instance.zero p) inst hzero hports
        rw [List.nil_append] at hbuilt
        have henabled : isEnabled ini eval p = true := by
          unfold isEnabled
          rw [hplugin]
          dsimp only
          rw [Bool.eq_false_iff.mpr hdisabled]
          rfl
        refine ⟨?_, fun k inst' hinst => ?_⟩
        · rw [List.map_append, h.plugins, List.filter_append, List.filter_cons_of_pos henabled,
            List.map_singleton, hbuilt.plugin]
          rfl
        · by_cases hk : k < instances.length
          · rw [List.getElem?_append_left hk] at hinst
            rw [List.take_append_of_le_length (Nat.le_of_lt hk)]
            exact hkeep k inst' hinst
          · have hlast : k = instances.length := by
              have hlt := (List.getElem?_eq_some_iff.mp hinst).1
              rw [List.length_append, List.length_singleton] at hlt
              omega
            subst hlast
            rw [List.getElem?_append_right (Nat.le_refl _), Nat.sub_self] at hinst
            cases hinst
            rw [List.take_append_of_le_length (Nat.le_refl _), List.take_length]
            refine ⟨by rw [hbuilt.plugin]; exact henabled, ⟨seen, [], ?_, h.plugins⟩, plugin,
              ?_, ?_⟩
            · rw [hbuilt.plugin]
            · rw [hbuilt.plugin]
              exact hplugin
            · rw [hbuilt.plugin]
              exact hbuilt

theorem instancesBuilt_of_fold {ini : Ini F E} {eval : E → Option Bool} {fuel : Nat}
    {order : List Nat} {instances : List (Instance F)}
    (h : foldOutcome (constructInstance ini eval fuel) order [] = .done instances) :
    InstancesBuilt ini eval fuel order instances := by
  have hstart : InstancesBuilt ini eval fuel [] ([] : List (Instance F)) :=
    ⟨rfl, fun k inst hinst => nomatch hinst⟩
  have hbuilt := foldOutcome_invariant
    (fun seen a s s' => instancesBuilt_construct seen a s s') order [] [] instances hstart h
  rw [List.nil_append] at hbuilt
  exact hbuilt

/-! ## The walk on an acyclic graph -/

section Acyclic

variable {ini : Ini F E}

theorem mem_upstream_iff {p : Nat} {q : Option Nat} :
    q ∈ upstream ini p ↔ ∃ plugin port id, ini.plugins[p]? = some plugin ∧ port ∈ plugin.ports ∧
      port.flowId = some id ∧ (ini.flows[id]?).bind (·.fromPlugin) = q := by
  unfold upstream
  cases hplugin : ini.plugins[p]? with
  | none => simp
  | some plugin =>
      simp only [List.mem_map, List.mem_filterMap]
      constructor
      · rintro ⟨id, ⟨port, hport, hid⟩, hq⟩
        exact ⟨plugin, port, id, rfl, hport, hid, hq⟩
      · rintro ⟨plugin', port, id, hplugin', hport, hid, hq⟩
        cases hplugin'
        exact ⟨id, ⟨port, hport, hid⟩, hq⟩

/-- What a plugin follows is itself or upstream of it. -/
theorem upstream_of_mem (hsingle : SingleProducer ini) {p q : Nat}
    (h : some q ∈ upstream ini p) : q = p ∨ Upstream ini p q := by
  obtain ⟨plugin, port, id, hplugin, hport, hid, hfrom⟩ := mem_upstream_iff.mp h
  obtain ⟨flow, hflow, hplugin'⟩ := Option.bind_eq_some_iff.mp hfrom
  obtain ⟨i, hi⟩ := List.getElem?_of_mem hport
  have href : ini.port? ⟨p, i⟩ = some port := by
    rw [Ini.port?, hplugin]
    exact hi
  obtain ⟨po, hpo, hout, hpid⟩ := ini.produces_of_flow hflow hplugin'
  cases hdir : port.direction with
  | input => exact Or.inr ⟨⟨q, flow.fromPort⟩, ⟨p, i⟩, ⟨po, port, id, hpo, hout, hpid, href, hdir,
      hid⟩, rfl, rfl⟩
  | output =>
      have heq := hsingle _ _ _ _ id hpo hout hpid href hdir hid
      exact Or.inl (congrArg PortRef.plugin heq)

/-- The flow of an input comes from the one port that produces it. -/
theorem flow_of_feeds (hsingle : SingleProducer ini) {out inp : PortRef} {port : Port F} {id : Nat}
    {flow : Flow} (h : Feeds ini out inp) (hport : ini.port? inp = some port)
    (hid : port.flowId = some id) (hflow : ini.flows[id]? = some flow) :
    flow.fromPlugin = some out.plugin ∧ flow.fromPort = out.index := by
  obtain ⟨po, pi, id', hpo, hout, hpid, hpi, _, hid'⟩ := h
  rw [hport] at hpi
  cases hpi
  rw [hid] at hid'
  cases hid'
  obtain ⟨i, hi⟩ := ini.flow_of_produces hpo hout hpid hflow
  obtain ⟨po', hpo', hout', hpid'⟩ := ini.produces_of_flow hflow hi
  have heq := hsingle _ _ _ _ id hpo' hout' hpid' hpo hout hpid
  rw [hi, ← heq]
  exact ⟨rfl, rfl⟩

theorem mem_upstream_of_upstream (hsingle : SingleProducer ini) {p q : Nat}
    (h : Upstream ini p q) : some q ∈ upstream ini p := by
  obtain ⟨out, inp, hfeeds, hp, hq⟩ := h
  have hports := hfeeds
  obtain ⟨po, pi, id, _, _, _, hpi, _, hid⟩ := hports
  obtain ⟨flow, hflow⟩ := ini.flow_of_port hpi hid
  have hfrom := (flow_of_feeds hsingle hfeeds hpi hid hflow).1
  have hpi' := hpi
  rw [Ini.port?, Option.bind_eq_some_iff] at hpi'
  obtain ⟨plugin, hplugin, hport⟩ := hpi'
  subst hp hq
  refine mem_upstream_iff.mpr ⟨plugin, pi, id, hplugin, List.mem_of_getElem? hport, hid, ?_⟩
  rw [hflow]
  exact hfrom

/-- What the walk reaches is upstream. -/
theorem reflTransGen_of_reach (hsingle : SingleProducer ini) {p q : Nat}
    (h : Reach (upstream ini) p q) : Relation.ReflTransGen (Upstream ini) p q := by
  induction h with
  | refl => exact Relation.ReflTransGen.refl
  | tail _ hstep ih =>
      cases upstream_of_mem hsingle hstep with
      | inl heq =>
          rw [heq]
          exact ih
      | inr hup => exact ih.tail hup

/-- The walk leaves a plugin behind every plugin upstream of it. -/
theorem before_of_upstream (hsingle : SingleProducer ini) (hacyclic : Acyclic ini)
    {roots : Nat → Prop}
    {w : Walked Nat} (hw : WalkFacts (upstream ini) roots [] w) {p q : Nat} (hp : p ∈ w.order)
    (h : Upstream ini p q) : Before w.order q p := by
  cases hw.earlier p hp q (mem_upstream_of_upstream hsingle h) with
  | inl hnil => cases hnil
  | inr hrest =>
      cases hrest with
      | inl hbefore => exact hbefore
      | inr hreach =>
          exact absurd (Relation.TransGen.head' h (reflTransGen_of_reach hsingle hreach))
            (hacyclic p)

theorem mem_order_iff (hsingle : SingleProducer ini) (hacyclic : Acyclic ini) {sink : Nat}
    {w : Walked Nat} (hw : WalkFacts (upstream ini) (fun b => b = sink) [] w)
    (hend : w.ending = .complete) {p : Nat} :
    p ∈ w.order ↔ Relation.ReflTransGen (Upstream ini) sink p := by
  constructor
  · intro hp
    obtain ⟨a, ha, hreach⟩ := hw.reach p hp
    rw [← ha]
    exact reflTransGen_of_reach hsingle hreach
  · intro hreach
    induction hreach with
    | refl =>
        cases hw.leaves hend sink (hw.covers hend sink rfl) with
        | inl hnil => cases hnil
        | inr hmem => exact hmem
    | tail _ hstep ih =>
        obtain ⟨l₁, l₂, hl, hmem⟩ := before_of_upstream hsingle hacyclic hw ih hstep
        rw [hl]
        exact List.mem_append_left _ hmem

/-- Behind the plugins `l₁`, the search for an origin contracts disabled plugins. -/
theorem origin_of_findOriginPort {eval : E → Option Bool} {fuel : Nat} {l₁ l₂ : List Nat}
    {p : Nat} (hnodup : (l₁ ++ p :: l₂).Nodup)
    (hbefore : ∀ q r, q ∈ l₁ ++ p :: l₂ → Upstream ini q r → Before (l₁ ++ p :: l₂) r q)
    {ref out : PortRef} {port : Port F} (hplace : ref.plugin = p ∨ ref.plugin ∈ l₁)
    (hport : ini.port? ref = some port) (hdir : port.direction = .input)
    (h : findOriginPort ini (l₁.filter (isEnabled ini eval) ++ [p]) fuel ref = .done out) :
    Origin ini eval ref out ∧ out.plugin ∈ l₁ := by
  induction fuel generalizing ref port with
  | zero => cases h
  | succ fuel ih =>
      obtain ⟨port', id, flow, q, hport', hid, hflow, hq, hcases⟩ := findOriginPort_step h
      rw [hport] at hport'
      cases hport'
      obtain ⟨po, hpo, hout, hpid⟩ := ini.produces_of_flow hflow hq
      have hfeeds : Feeds ini ⟨q, flow.fromPort⟩ ref :=
        ⟨po, port, id, hpo, hout, hpid, hport, hdir, hid⟩
      have hup : Upstream ini ref.plugin q := ⟨_, _, hfeeds, rfl, rfl⟩
      have hq₁ : q ∈ l₁ := by
        cases hplace with
        | inl heq =>
            rw [heq] at hup
            exact (hbefore p q (List.mem_append_right _ List.mem_cons_self) hup).mem_left hnodup
        | inr hmem =>
            obtain ⟨l, l', hl⟩ := List.append_of_mem hmem
            have hsplit : l₁ ++ p :: l₂ = l ++ ref.plugin :: (l' ++ p :: l₂) := by
              rw [hl, List.append_assoc, List.cons_append]
            have hb := hbefore ref.plugin q (List.mem_append_left _ hmem) hup
            rw [hsplit] at hb hnodup
            rw [hl]
            exact List.mem_append_left _ (hb.mem_left hnodup)
      cases hcases with
      | inl hfound =>
          obtain ⟨hmem, heq⟩ := hfound
          rw [heq]
          refine ⟨Origin.direct hfeeds ?_, hq₁⟩
          cases List.mem_append.mp hmem with
          | inl hmem => exact isEnabled_iff.mp (List.mem_filter.mp hmem).2
          | inr hmem =>
              rw [List.mem_singleton.mp hmem] at hq₁
              exact absurd rfl ((List.nodup_append.mp hnodup).2.2 p hq₁ p List.mem_cons_self)
      | inr hbypass =>
          obtain ⟨hmem, plugin, index, hplugin, hindex, hrest⟩ := hbypass
          have hdisabled : Disabled ini eval q := by
            refine ⟨plugin, hplugin, ?_⟩
            by_contra hnot
            refine hmem (List.mem_append_left _ (List.mem_filter.mpr ⟨hq₁, ?_⟩))
            exact isEnabled_iff.mpr ⟨plugin, hplugin, Bool.eq_false_iff.mpr hnot⟩
          have hpo' : plugin.ports[flow.fromPort]? = some po := by
            rw [Ini.port?, hplugin] at hpo
            exact hpo
          rw [ini.type_eq hport hpo hid hpid] at hindex
          have hcorr := corresponds_of_bypass hplugin hpo' hout hindex
          obtain ⟨_, plugin', po', pi, hplugin', _, _, hpi, hpidir, _, _⟩ := hcorr
          have hinp : ini.port? ⟨q, index⟩ = some pi := by
            rw [Ini.port?, hplugin']
            exact hpi
          obtain ⟨horigin, hmem₁⟩ := ih (Or.inr hq₁) hinp hpidir hrest
          exact ⟨Origin.through hfeeds hdisabled
            (corresponds_of_bypass hplugin hpo' hout hindex) horigin, hmem₁⟩

end Acyclic

/-! ## The pipeline -/

/-- The instances are those of the contracted graph upstream of the sink, in an order in
which every input is behind its peer. -/
structure Contracted (ini : Ini F E) (eval : E → Option Bool) (purpose : String)
    (pipeline : Pipeline F) : Prop where
  sink : findEnabledBuiltinPlugin ini eval "sink" purpose = some pipeline.sink
  nodup : (pipeline.instances.map (·.plugin)).Nodup
  plugins : ∀ p, p ∈ pipeline.instances.map (·.plugin) ↔
    Enabled ini eval p ∧ Relation.ReflTransGen (Upstream ini) pipeline.sink p
  ports : ∀ inst ∈ pipeline.instances, ∃ plugin, ini.plugins[inst.plugin]? = some plugin ∧
    ∀ direction type, (inst.ports direction type).map (·.1) =
      (plugin.ports.zipIdx.filter fun q => q.1.is direction type).map (·.2)
  /-- an input without a peer is a control port with a value instead of a flow -/
  peers : ∀ k inst, pipeline.instances[k]? = some inst →
    ∀ type i peer, (i, peer) ∈ inst.ports .input type →
      (type = .control ∧ peer = none ∧
        ∃ port, ini.port? ⟨inst.plugin, i⟩ = some port ∧ port.flowId = none) ∨
      ∃ out, peer = some out ∧ HasOutput (pipeline.instances.take k) type out ∧
        ∀ out', Origin ini eval ⟨inst.plugin, i⟩ out' ↔ out' = out

/-- How a pipeline that is created came about. -/
structure Created (ini : Ini F E) (eval : E → Option Bool) (purpose : String) (fuel : Nat)
    (pipeline : Pipeline F) : Prop where
  source : findEnabledBuiltinPlugin ini eval "source" purpose = some pipeline.source
  sink : findEnabledBuiltinPlugin ini eval "sink" purpose = some pipeline.sink
  sorted : ∃ visited,
    topologicalSort ini eval fuel pipeline.sink ([], []) = .done (visited, pipeline.instances)
  channels : ∃ source sink, findInstanceByPlugin pipeline.instances pipeline.source = some source ∧
    findInstanceByPlugin pipeline.instances pipeline.sink = some sink ∧
    pipeline.inputChannels = source.outputAudioPorts.length ∧
    pipeline.outputChannels = sink.inputAudioPorts.length
  channels_le : pipeline.outputChannels ≤ pipeline.inputChannels

theorem created_of_pipelineCreate {ini : Ini F E} {eval : E → Option Bool} {purpose : String}
    {fuel : Nat} {pipeline : Pipeline F}
    (h : pipelineCreate ini eval purpose fuel = .done pipeline) :
    Created ini eval purpose fuel pipeline := by
  unfold pipelineCreate at h
  split at h
  · rename_i source sink hsource hsink
    obtain ⟨st, hsort, hrest⟩ := Outcome.bind_eq_done h
    split at hrest
    · rename_i sourceInst sinkInst hsourceInst hsinkInst
      dsimp only at hrest
      split at hrest
      · cases hrest
      · rename_i hle
        cases hrest
        exact ⟨hsource, hsink, ⟨st.1, hsort⟩,
          ⟨sourceInst, sinkInst, hsourceInst, hsinkInst, rfl, rfl⟩, Nat.le_of_not_lt hle⟩
    · cases hrest
  · cases h

/-- The walk from the sink is complete, and the instances come from its order. -/
theorem pipelineCreate_done {ini : Ini F E} {eval : E → Option Bool} {purpose : String} {fuel : Nat}
    {pipeline : Pipeline F} (h : pipelineCreate ini eval purpose fuel = .done pipeline) :
    findEnabledBuiltinPlugin ini eval "sink" purpose = some pipeline.sink ∧
      (walk (upstream ini) fuel pipeline.sink []).ending = .complete ∧
      foldOutcome (constructInstance ini eval fuel)
        (walk (upstream ini) fuel pipeline.sink []).order [] = .done pipeline.instances := by
  have hcreated := created_of_pipelineCreate h
  obtain ⟨visited, hsort⟩ := hcreated.sorted
  unfold topologicalSort at hsort
  rw [depthFirst_eq] at hsort
  obtain ⟨instances, hfold, hend⟩ := Outcome.bind_eq_done hsort
  cases hending : (walk (upstream ini) fuel pipeline.sink []).ending with
  | complete =>
      rw [hending] at hend
      cases hend
      exact ⟨hcreated.sink, rfl, hfold⟩
  | missing =>
      rw [hending] at hend
      cases hend
  | cut =>
      rw [hending] at hend
      cases hend

/-- A pipeline that is created from an acyclic graph with one producer for each flow is the
contracted graph. -/
theorem contracted_of_pipelineCreate {ini : Ini F E} (hacyclic : Acyclic ini)
    (hsingle : SingleProducer ini) {eval : E → Option Bool} {purpose : String} {fuel : Nat}
    {pipeline : Pipeline F} (hcreate : pipelineCreate ini eval purpose fuel = .done pipeline) :
    Contracted ini eval purpose pipeline := by
  obtain ⟨hsink, hend, hfold⟩ := pipelineCreate_done hcreate
  have hw : WalkFacts (upstream ini) (fun b => b = pipeline.sink) []
      (walk (upstream ini) fuel pipeline.sink []) := walk_facts fuel pipeline.sink []
  generalize walk (upstream ini) fuel pipeline.sink [] = w at hw hend hfold
  have hbuilt := instancesBuilt_of_fold hfold
  refine ⟨hsink, ?_, fun p => ?_, fun inst hinst => ?_, fun k inst hinst type i peer hmem => ?_⟩
  · rw [hbuilt.plugins]
    exact hw.nodup.filter _
  · rw [hbuilt.plugins, List.mem_filter, mem_order_iff hsingle hacyclic hw hend, isEnabled_iff,
      and_comm]
  · obtain ⟨k, hk⟩ := List.getElem?_of_mem hinst
    obtain ⟨_, _, plugin, hplugin, hports⟩ := hbuilt.each k inst hk
    exact ⟨plugin, hplugin, hports.indices⟩
  · obtain ⟨_, ⟨l₁, l₂, horder, hbefore⟩, plugin, hplugin, hports⟩ := hbuilt.each k inst hinst
    obtain ⟨port, hget, hkind, hpeer⟩ := hports.input hmem
    obtain ⟨hdir, htype⟩ := Port.is_iff.mp hkind
    have hport : ini.port? ⟨inst.plugin, i⟩ = some port := by
      rw [Ini.port?, hplugin]
      exact hget
    cases hpeer with
    | inl hnone =>
        refine Or.inl ⟨?_, hnone.2, port, hport, hnone.1⟩
        cases type with
        | control => rfl
        | audio =>
            exact absurd hnone.1 (ini.audio_flow plugin (List.mem_of_getElem? hplugin) port
              (List.mem_of_getElem? hget) htype)
    | inr hsome =>
        obtain ⟨_, out, hpeer, horigin, hfound⟩ := hsome
        rw [hbefore] at horigin
        have hnodup := hw.nodup
        have hup : ∀ q r, q ∈ w.order → Upstream ini q r → Before w.order r q :=
          fun q r hq hr => before_of_upstream hsingle hacyclic hw hq hr
        rw [horder] at hnodup hup
        obtain ⟨horg, hmem₁⟩ :=
          origin_of_findOriginPort hnodup hup (Or.inl rfl) hport hdir horigin
        have hne : out.plugin ≠ inst.plugin := by
          intro heq
          rw [heq] at hmem₁
          exact (List.nodup_append.mp hnodup).2.2 _ hmem₁ _ List.mem_cons_self rfl
        exact Or.inr ⟨out, hpeer, hfound.resolve_right fun hown => hne hown.1,
          fun out' => ⟨fun h => h.unique hsingle horg, fun h => h ▸ horg⟩⟩

/-- The instances of a created pipeline are the enabled plugins upstream of the sink, each
once, and the peer of an input is the contracted origin, on an instance before it. -/
theorem pipelineCreate_instances {ini : Ini F E} (hacyclic : Acyclic ini)
    (hsingle : SingleProducer ini) {eval : E → Option Bool} {purpose : String} {fuel : Nat}
    {pipeline : Pipeline F} (hcreate : pipelineCreate ini eval purpose fuel = .done pipeline) :
    (∀ p, p ∈ pipeline.instances.map (·.plugin) ↔
      Enabled ini eval p ∧ Relation.ReflTransGen (Upstream ini) pipeline.sink p) ∧
    (pipeline.instances.map (·.plugin)).Nodup ∧
    (∀ k inst, pipeline.instances[k]? = some inst →
      ∀ i port, ini.port? ⟨inst.plugin, i⟩ = some port →
      port.direction = .input → port.flowId ≠ none →
      ∃ out, (i, some out) ∈ inst.ports .input port.type ∧
        (∀ peer, (i, peer) ∈ inst.ports .input port.type → peer = some out) ∧
        HasOutput (pipeline.instances.take k) port.type out ∧
        ∀ out', Origin ini eval ⟨inst.plugin, i⟩ out' ↔ out' = out) := by
  have h := contracted_of_pipelineCreate hacyclic hsingle hcreate
  refine ⟨h.plugins, h.nodup, fun k inst hinst i port hport hdir hflow => ?_⟩
  obtain ⟨plugin, hplugin, hindices⟩ := h.ports inst (List.mem_of_getElem? hinst)
  have hget : plugin.ports[i]? = some port := by
    rw [Ini.port?, hplugin] at hport
    exact hport
  have hpeer : ∀ peer, (i, peer) ∈ inst.ports .input port.type →
      ∃ out, peer = some out ∧ HasOutput (pipeline.instances.take k) port.type out ∧
        ∀ out', Origin ini eval ⟨inst.plugin, i⟩ out' ↔ out' = out := by
    intro peer hmem
    cases h.peers k inst hinst port.type i peer hmem with
    | inl hnone =>
        obtain ⟨_, _, port', hport', hflow'⟩ := hnone
        rw [hport] at hport'
        cases hport'
        exact absurd hflow' hflow
    | inr hsome => exact hsome
  have hmem : i ∈ (inst.ports .input port.type).map (·.1) := by
    rw [hindices]
    exact List.mem_map.mpr ⟨(port, i), List.mem_filter.mpr
      ⟨List.mem_zipIdx_iff_getElem?.mpr hget, Port.is_iff.mpr ⟨hdir, rfl⟩⟩, rfl⟩
  obtain ⟨⟨j, peer⟩, hin, hj⟩ := List.mem_map.mp hmem
  dsimp only at hj
  subst hj
  obtain ⟨out, hout, hhas, horigin⟩ := hpeer peer hin
  subst hout
  refine ⟨out, hin, fun peer' hin' => ?_, hhas, horigin⟩
  obtain ⟨out', hout', _, horigin'⟩ := hpeer peer' hin'
  rw [hout', (horigin out').mp ((horigin' out').mpr rfl)]

/-! ## A pipeline with a disabled plugin -/

def audioIn (id : Nat) : Port Unit := ⟨.input, .audio, some id, ()⟩

def audioOut (id : Nat) : Port Unit := ⟨.output, .audio, some id, ()⟩

/-- A source, a filter that its expression disables, and a sink. -/
def bypassIni : Ini Unit Bool where
  plugins :=
    [⟨"builtin", "source", some "playback", none, [audioOut 0]⟩,
      ⟨"builtin", "eq", none, some true, [audioIn 0, audioOut 1]⟩,
      ⟨"builtin", "sink", some "playback", none, [audioIn 1]⟩]
  flowTypes := [.audio, .audio]
  port_flow := by decide
  audio_flow := by decide

def bypassPipeline : Pipeline Unit where
  instances :=
    [⟨0, [], [⟨0, none, 0⟩], [], [], 0⟩, ⟨2, [⟨0, some ⟨0, 0⟩, 0⟩], [], [], [], 0⟩]
  source := 0
  sink := 2
  inputChannels := 1
  outputChannels := 1

/-- The sink is connected to the source. -/
theorem pipelineCreate_instances_bypass :
    pipelineCreate bypassIni some "playback" 4 = .done bypassPipeline ∧
      ∀ p, p ∈ [0, 2] ↔
        Enabled bypassIni some p ∧ Relation.ReflTransGen (Upstream bypassIni) 2 p := by
  have hcreate : pipelineCreate bypassIni some "playback" 4 = .done bypassPipeline := by
    rfl
  have hacyclic : Acyclic bypassIni := acyclic_of_rank id (by decide)
  have hsingle : SingleProducer bypassIni := singleProducer_of_ports (by decide)
  exact ⟨hcreate, (pipelineCreate_instances hacyclic hsingle hcreate).1⟩

end DragonDevice.Dsp
