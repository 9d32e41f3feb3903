/-
  Dsp/IdentityPipeline.lean --- a pipeline from the source straight to the sink leaves the
  samples as they are.

  The walk comes to the source and the sink only.  The sink's inputs get the buffers of the
  source's outputs, both modules do nothing, and the conversions are exact.
-/
import DragonDevice.Dsp.ApplyBuffers

set_option autoImplicit false

namespace DragonDevice.Dsp

open DragonDevice.Lib

variable {F E : Type}

/-- The first `n` ports are the audio ports of a direction, and others have no flow. -/
def ChannelPorts (plugin : Plugin F E) (direction : PortDirection) (n : Nat) : Prop :=
  n ≤ plugin.ports.length ∧ ∀ (j : Nat) (port : Port F), plugin.ports[j]? = some port →
    (port.is direction .audio = true ↔ j < n) ∧ (n ≤ j → port.flowId = none)

/-- The `n` outputs of the source flow into the `n` inputs of the sink, each into the one of its
index. -/
structure IdentityWiring (ini : Ini F E) (source sink n : Nat) : Prop where
  outputs : ∃ plugin, ini.plugins[source]? = some plugin ∧ ChannelPorts plugin .output n
  inputs : ∃ plugin, ini.plugins[sink]? = some plugin ∧ ChannelPorts plugin .input n
  flows : ∀ i < n, ∃ port id flow, ini.port? ⟨sink, i⟩ = some port ∧ port.flowId = some id ∧
    ini.flows[id]? = some flow ∧ flow.fromPlugin = some source ∧ flow.fromPort = i

/-! ## The ports of a channel -/

theorem eq_range_of_mem_iff {l : List Nat} {n : Nat} (hasc : l.Pairwise (· < ·))
    (hmem : ∀ k, k ∈ l ↔ k < n) : l = List.range n := by
  have hrange := eq_range_of_ascending hasc fun s hs i hi =>
    (hmem i).mpr (Nat.lt_trans hi ((hmem s).mp hs))
  have hlength : l.length = n := by
    by_contra hne
    have hlast : ∀ k, k < l.length ↔ k < n := by
      intro k
      rw [← hmem, hrange, List.mem_range, List.length_range]
    have := hlast n
    have := hlast l.length
    omega
  rw [hrange, hlength]

theorem ChannelPorts.positions {plugin : Plugin F E} {direction : PortDirection} {n : Nat}
    (h : ChannelPorts plugin direction n) :
    (plugin.ports.zipIdx.filter fun q => q.1.is direction .audio).map (·.2) = List.range n := by
  refine eq_range_of_mem_iff (pairwise_positions _ _) fun k => ?_
  rw [mem_positions]
  constructor
  · rintro ⟨port, hport, his⟩
    exact (h.2 k port hport).1.mp his
  · intro hk
    have hport := List.getElem?_eq_getElem (Nat.lt_of_lt_of_le hk h.1)
    exact ⟨_, hport, (h.2 k _ hport).1.mpr hk⟩

theorem ChannelPorts.lead {ini : Ini F E} {p n : Nat} {plugin : Plugin F E}
    {direction : PortDirection} (hplugin : ini.plugins[p]? = some plugin)
    (h : ChannelPorts plugin direction n) : AudioPortsLead ini p direction := by
  intro plugin' hplugin' k port hport his j hj port' hport'
  cases hplugin.symm.trans hplugin'
  exact (h.2 j port' hport').1.mpr (Nat.lt_trans hj ((h.2 k port hport).1.mp his))

/-- A port with a flow is one of the channels. -/
theorem ChannelPorts.lt {ini : Ini F E} {p n i id : Nat} {plugin : Plugin F E}
    {direction : PortDirection} {port : Port F} (hplugin : ini.plugins[p]? = some plugin)
    (h : ChannelPorts plugin direction n) (hport : ini.port? ⟨p, i⟩ = some port)
    (hid : port.flowId = some id) : i < n ∧ port.direction = direction := by
  rw [Ini.port?, hplugin, Option.bind_some] at hport
  have hlt : i < n := by
    by_contra hge
    rw [(h.2 i port hport).2 (Nat.le_of_not_lt hge)] at hid
    cases hid
  exact ⟨hlt, (Port.is_iff.mp ((h.2 i port hport).1.mpr hlt)).1⟩

/-! ## The walk -/

namespace IdentityWiring

variable {ini : Ini F E} {source sink n : Nat}

/-- The flows of both plugins come from the source, which has no inputs. -/
theorem flow_source (h : IdentityWiring ini source sink n) {p i id : Nat} {port : Port F}
    (hp : p = source ∨ p = sink) (hport : ini.port? ⟨p, i⟩ = some port)
    (hid : port.flowId = some id) :
    i < n ∧ (p = source → port.direction = .output) ∧
      ∃ flow, ini.flows[id]? = some flow ∧ flow.fromPlugin = some source ∧ flow.fromPort = i := by
  obtain ⟨plugin, hplugin, houtputs⟩ := h.outputs
  obtain ⟨plugin', hplugin', hinputs⟩ := h.inputs
  by_cases hsource : p = source
  · subst hsource
    obtain ⟨hi, hdirection⟩ := houtputs.lt hplugin hport hid
    -- the flow at this index of the sink is produced here
    obtain ⟨port', id', flow, _, _, hflow, hfrom, hindex⟩ := h.flows i hi
    obtain ⟨port₁, hport₁, _, hid₁⟩ := ini.produces_of_flow hflow hfrom
    rw [hindex, hport] at hport₁
    cases hport₁
    rw [hid] at hid₁
    cases hid₁
    exact ⟨hi, fun _ => hdirection, flow, hflow, hfrom, hindex⟩
  · have hsink : p = sink := hp.resolve_left hsource
    subst hsink
    obtain ⟨hi, _⟩ := hinputs.lt hplugin' hport hid
    obtain ⟨port', id', flow, hport', hid', hflow, hfrom, hindex⟩ := h.flows i hi
    rw [hport] at hport'
    cases hport'
    rw [hid] at hid'
    cases hid'
    exact ⟨hi, fun heq => absurd heq hsource, flow, hflow, hfrom, hindex⟩

theorem upstream_source (h : IdentityWiring ini source sink n) {p : Nat}
    (hp : p = source ∨ p = sink) {q : Option Nat} (hq : q ∈ upstream ini p) :
    q = some source := by
  obtain ⟨plugin, port, id, hplugin, hport, hid, hfrom⟩ := mem_upstream_iff.mp hq
  obtain ⟨i, hi⟩ := List.getElem?_of_mem hport
  have hport : ini.port? ⟨p, i⟩ = some port := by
    rw [Ini.port?, hplugin]
    exact hi
  obtain ⟨_, _, flow, hflow, hsource, _⟩ := h.flow_source hp hport hid
  rw [hflow] at hfrom
  exact hfrom.symm.trans hsource

/-- The flows of both plugins come from the source, and it reads none. -/
theorem flowOf (h : IdentityWiring ini source sink n) {p q : Nat} {port : Port F}
    (hp : p = source ∨ p = sink) (hflow : FlowOf ini p port q) :
    q = source ∧ (p = source → port.direction = .output) := by
  obtain ⟨i, id, flow, hport, hid, hget, hfrom⟩ := hflow
  obtain ⟨_, hdirection, flow', hget', hfrom', _⟩ := h.flow_source hp hport hid
  rw [hget] at hget'
  cases hget'
  rw [hfrom] at hfrom'
  exact ⟨Option.some.inj hfrom', hdirection⟩

/-- The source has no audio inputs: one would be one of its outputs, or have no flow. -/
theorem positions_input (h : IdentityWiring ini source sink n) {plugin : Plugin F E}
    (hplugin : ini.plugins[source]? = some plugin) :
    (plugin.ports.zipIdx.filter fun q => q.1.is .input .audio).map (·.2) = [] := by
  refine List.eq_nil_iff_forall_not_mem.mpr fun k hk => ?_
  obtain ⟨port, hport, his⟩ := mem_positions.mp hk
  obtain ⟨hdirection, htype⟩ := Port.is_iff.mp his
  have hflow := ini.audio_flow plugin (List.mem_of_getElem? hplugin) port
    (List.mem_of_getElem? hport) htype
  obtain ⟨id, hid⟩ := Option.ne_none_iff_exists'.mp hflow
  have hport' : ini.port? ⟨source, k⟩ = some port := by
    rw [Ini.port?, hplugin]
    exact hport
  rw [(h.flow_source (Or.inl rfl) hport' hid).2.1 rfl] at hdirection
  cases hdirection

/-- The search for an origin ends at the source's output of the same index. -/
theorem origin_eq (h : IdentityWiring ini source sink n) {built : List Nat}
    (hbuilt : source ∈ built) {fuel p i : Nat} {origin : PortRef} (hp : p = source ∨ p = sink)
    (horigin : findOriginPort ini built fuel ⟨p, i⟩ = .done origin) : origin = ⟨source, i⟩ := by
  cases fuel with
  | zero => cases horigin
  | succ fuel =>
      obtain ⟨port, id, flow, q, hport, hid, hflow, hq, hcases⟩ := findOriginPort_step horigin
      obtain ⟨_, _, flow', hflow', hfrom, hindex⟩ := h.flow_source hp hport hid
      rw [hflow] at hflow'
      cases hflow'
      rw [hfrom] at hq
      cases hq
      rcases hcases with ⟨_, rfl⟩ | ⟨hnot, _⟩
      · rw [hindex]
      · exact absurd hbuilt hnot

theorem reach (h : IdentityWiring ini source sink n) {q : Nat}
    (hreach : Reach (upstream ini) sink q) : q = source ∨ q = sink := by
  induction hreach with
  | refl => exact Or.inr rfl
  | tail _ hstep ih =>
      obtain ⟨port, hflow⟩ := flowOf_of_mem_upstream hstep
      exact Or.inl (h.flowOf ih hflow).1

theorem not_follows_source (h : IdentityWiring ini source sink n) (q : Nat) :
    ¬ Follows ini source q := by
  rintro ⟨port, hflow, hinput⟩
  obtain ⟨hq, hdirection⟩ := h.flowOf (Or.inl rfl) hflow
  rcases hinput with hinput | hne
  · rw [hdirection rfl] at hinput
    cases hinput
  · exact hne hq

theorem followsNoCycle (h : IdentityWiring ini source sink n) (hne : source ≠ sink) :
    FollowsNoCycle ini sink := by
  have hleaves : ∀ q, ¬ Relation.TransGen (Follows ini) source q := by
    intro q hsteps
    obtain ⟨_, hfirst, _⟩ := Relation.TransGen.head'_iff.mp hsteps
    exact h.not_follows_source _ hfirst
  intro p hreached hcycle
  obtain ⟨q, ⟨port, hflow, _⟩, hrest⟩ := Relation.TransGen.head'_iff.mp hcycle
  rcases Relation.reflTransGen_iff_eq_or_transGen.mp hreached with rfl | hreached
  · -- from the sink, the first step is to the source
    obtain ⟨rfl, _⟩ := h.flowOf (Or.inr rfl) hflow
    rcases Relation.reflTransGen_iff_eq_or_transGen.mp hrest with heq | hrest
    · exact hne heq.symm
    · exact hleaves _ hrest
  · obtain ⟨q', ⟨port', hflow', _⟩, hrest'⟩ := Relation.TransGen.head'_iff.mp hreached
    obtain ⟨rfl, _⟩ := h.flowOf (Or.inr rfl) hflow'
    rcases Relation.reflTransGen_iff_eq_or_transGen.mp hrest' with rfl | hrest'
    · exact hleaves _ hcycle
    · exact hleaves _ hrest'

end IdentityWiring

/-! ## The instances -/

/-- The source and the sink, with their ports connected straight. -/
structure StraightInstances (pipeline : Pipeline F) (n : Nat) (src snk : Instance F) : Prop where
  instances : pipeline.instances = [src, snk]
  source : src.plugin = pipeline.source
  sink : snk.plugin = pipeline.sink
  outputs : src.outputAudioPorts.map (·.originalIndex) = List.range n
  first : src.inputAudioPorts = []
  inputs : snk.inputAudioPorts.map (·.originalIndex) = List.range n
  peers : ∀ port ∈ snk.inputAudioPorts, port.peer = some ⟨src.plugin, port.originalIndex⟩

/-- Only the source and the sink have instances. -/
theorem exists_pair_of_pipelineCreate {ini : Ini F E} {eval : E → Option Bool} {purpose : String}
    {fuel n : Nat} {pipeline : Pipeline F}
    (hcreate : pipelineCreate ini eval purpose fuel = .done pipeline)
    (hwiring : IdentityWiring ini pipeline.source pipeline.sink n) :
    ∃ src snk, pipeline.instances = [src, snk] ∧ src.plugin = pipeline.source ∧
      snk.plugin = pipeline.sink := by
  have hne := pipelineCreate_source_ne_sink hcreate
  have hord := dependencyOrdered_of_pipelineCreate hcreate (hwiring.followsNoCycle hne)
  have hmem := pipelineCreate_source hcreate
  obtain ⟨front, snk, hinstances, hsnk⟩ := pipelineCreate_sink hcreate
  obtain ⟨_, _, hfold⟩ := pipelineCreate_done hcreate
  have hplugins := (instancesBuilt_of_fold hfold).plugins
  have hw : WalkFacts (upstream ini) (fun b => b = pipeline.sink) []
      (walk (upstream ini) fuel pipeline.sink []) := walk_facts fuel pipeline.sink []
  have hnodup := hord.plugins
  rw [hinstances, List.map_append, List.map_singleton, hsnk] at hplugins hnodup hmem
  obtain ⟨hfrontNodup, _, hapart⟩ := List.nodup_append.mp hnodup
  have hfront : ∀ p ∈ front.map (·.plugin), p = pipeline.source := by
    intro p hp
    have horder : p ∈ (walk (upstream ini) fuel pipeline.sink []).order := by
      have hin := List.mem_append_left [pipeline.sink] hp
      rw [hplugins] at hin
      exact (List.mem_filter.mp hin).1
    obtain ⟨a, rfl, hreach⟩ := hw.reach p horder
    exact (hwiring.reach hreach).resolve_right (hapart p hp _ List.mem_cons_self)
  have hsource : pipeline.source ∈ front.map (·.plugin) := by
    rcases List.mem_append.mp hmem with hmem | hmem
    · exact hmem
    · exact absurd (List.mem_singleton.mp hmem) hne
  cases front with
  | nil => cases hsource
  | cons src rest =>
      obtain ⟨hsrc, hrest⟩ := List.forall_mem_cons.mp hfront
      cases rest with
      | nil => exact ⟨src, snk, hinstances, hsrc, hsnk⟩
      | cons inst rest =>
          -- a second instance would have the same plugin
          obtain ⟨hnot, _⟩ := List.nodup_cons.mp hfrontNodup
          have hinst := hrest inst.plugin List.mem_cons_self
          refine absurd ?_ hnot
          rw [hsrc, ← hinst]
          exact List.mem_cons_self

theorem straightInstances_of_pipelineCreate {ini : Ini F E} {eval : E → Option Bool}
    {purpose : String} {fuel n : Nat} {pipeline : Pipeline F}
    (hcreate : pipelineCreate ini eval purpose fuel = .done pipeline)
    (hwiring : IdentityWiring ini pipeline.source pipeline.sink n) :
    ∃ src snk, StraightInstances pipeline n src snk := by
  obtain ⟨src, snk, hinstances, hsource, hsink⟩ := exists_pair_of_pipelineCreate hcreate hwiring
  obtain ⟨_, _, hfold⟩ := pipelineCreate_done hcreate
  have heach := (instancesBuilt_of_fold hfold).each
  obtain ⟨plugin₁, hplugin₁, houtputs⟩ := hwiring.outputs
  obtain ⟨plugin₂, hplugin₂, hinputs⟩ := hwiring.inputs
  obtain ⟨_, _, plugin, hplugin, hports⟩ := heach 0 src (by rw [hinstances]; rfl)
  obtain ⟨_, _, plugin', hplugin', hports'⟩ := heach 1 snk (by rw [hinstances]; rfl)
  rw [hsource] at hplugin
  obtain rfl : plugin₁ = plugin := Option.some.inj (hplugin₁.symm.trans hplugin)
  rw [hsink] at hplugin'
  obtain rfl : plugin₂ = plugin' := Option.some.inj (hplugin₂.symm.trans hplugin')
  refine ⟨src, snk, hinstances, hsource, hsink, ?_, ?_, ?_, fun port hport => ?_⟩
  · rw [← houtputs.positions, ← hports.indices, Instance.ports, List.map_map]
    rfl
  · have hindices := hports.indices .input .audio
    rw [Instance.ports, List.map_map, hwiring.positions_input hplugin₁] at hindices
    exact List.map_eq_nil_iff.mp hindices
  · rw [← hinputs.positions, ← hports'.indices, Instance.ports, List.map_map]
    rfl
  · have hmem : (port.originalIndex, port.peer) ∈ snk.ports .input .audio :=
      List.mem_map_of_mem hport
    obtain ⟨port', hget, hkind, hpeer⟩ := hports'.input hmem
    have hindex : port.originalIndex < n := (hinputs.2 _ port' hget).1.mp hkind
    obtain ⟨port₁, id, _, hport₁, hid, _⟩ := hwiring.flows _ hindex
    rw [Ini.port?, hplugin₂, Option.bind_some, hget] at hport₁
    cases hport₁
    have hbuilt : pipeline.source ∈ (pipeline.instances.take 1).map (·.plugin) ++
        [snk.plugin] := by
      rw [hinstances, ← hsource]
      exact List.mem_cons_self
    rcases hpeer with ⟨hnone, _⟩ | ⟨_, out, hpeer, horigin, _⟩
    · rw [hid] at hnone
      cases hnone
    · rw [hpeer, hwiring.origin_eq hbuilt (Or.inr hsink) horigin, hsource]

/-! ## Creation -/

theorem findInstanceByPlugin_pair {a b : Instance F} (hne : a.plugin ≠ b.plugin) :
    findInstanceByPlugin [a, b] a.plugin = some a ∧
      findInstanceByPlugin [a, b] b.plugin = some b := by
  simp [findInstanceByPlugin, hne]

/-- A port that needs no origin is added. -/
theorem addPort_unconnected {ini : Ini F E} {instances : List (Instance F)} {fuel : Nat}
    {q : Port F × Nat} {inst : Instance F}
    (h : q.1.flowId = none ∨ q.1.direction = .output) :
    ∃ inst', addPort ini instances fuel q inst = .done inst' ∧ inst'.plugin = inst.plugin := by
  have hneeds : (q.1.flowId.isSome && q.1.direction == .input) = false := by
    rcases h with h | h <;> rw [h]
    · rfl
    · cases q.1.flowId <;> rfl
  have hconnect : connect ini (builtWith instances inst) fuel ⟨inst.plugin, q.2⟩ q.1 =
      .done none := by
    rw [connect, hneeds]
    rfl
  obtain ⟨inst', hadd⟩ : ∃ inst', addPort ini instances fuel q inst = .done inst' := by
    rw [addPort, hconnect, Outcome.done_bind]
    cases q.1.type with
    | audio => exact ⟨_, rfl⟩
    | control => exact ⟨_, rfl⟩
  obtain ⟨_, _, hadded, _⟩ := addPort_done hadd
  exact ⟨inst', hadd, hadded.plugin⟩

namespace IdentityWiring

variable {ini : Ini F E} {source sink n : Nat}

/-- The walk leaves the source and then the sink. -/
theorem walk_eq (h : IdentityWiring ini source sink n) (hne : source ≠ sink) (hn : 0 < n) :
    walk (upstream ini) 3 sink [] = ⟨[source, sink], [source, sink], .complete⟩ := by
  have hinner : walk (upstream ini) 2 source [sink] =
      ⟨[source], [source, sink], .complete⟩ := by
    have hmarked : walkAll (walk (upstream ini) 1) (upstream ini source) [source, sink] =
        ⟨[], [source, sink], .complete⟩ :=
      walkAll_marked 0 fun x hx => ⟨source, List.mem_cons_self, h.upstream_source (Or.inl rfl) hx⟩
    rw [walk, if_neg (by simpa using hne), hmarked]
    rfl
  have hsome : some source ∈ upstream ini sink := by
    obtain ⟨port, id, flow, hport, hid, hflow, hfrom, _⟩ := h.flows 0 hn
    exact FlowOf.mem_upstream ⟨0, id, flow, hport, hid, hflow, hfrom⟩
  have hall : walkAll (walk (upstream ini) 2) (upstream ini sink) [sink] =
      ⟨[source], [source, sink], .complete⟩ := by
    cases hlist : upstream ini sink with
    | nil =>
        rw [hlist] at hsome
        cases hsome
    | cons x rest =>
        have hx := h.upstream_source (Or.inr rfl) (by rw [hlist]; exact List.mem_cons_self)
        subst hx
        have hrest : walkAll (walk (upstream ini) 2) rest [source, sink] =
            ⟨[], [source, sink], .complete⟩ := by
          refine walkAll_marked 1 fun y hy => ⟨source, List.mem_cons_self, ?_⟩
          exact h.upstream_source (Or.inr rfl) (by rw [hlist]; exact List.mem_cons_of_mem _ hy)
        rw [walkAll, hinner, Walked.andThen, hrest]
        rfl
  rw [walk, if_neg List.not_mem_nil, hall]
  rfl

/-- The ports of the source are added. -/
theorem construct_source (h : IdentityWiring ini source sink n) {eval : E → Option Bool}
    (henabled : isEnabled ini eval source = true) (fuel : Nat) :
    ∃ src : Instance F, constructInstance ini eval fuel source [] = .done [src] := by
  obtain ⟨plugin, hplugin, houtputs⟩ := h.outputs
  have hdisabled : isDisabled eval plugin = false := by
    rw [isEnabled, hplugin] at henabled
    simpa using henabled
  have hports : ∀ q ∈ plugin.ports.zipIdx, ∀ inst : Instance F, inst.plugin = source →
      ∃ inst', addPort ini [] fuel q inst = .done inst' ∧ inst'.plugin = source := by
    intro q hq inst hinst
    rw [← hinst]
    refine addPort_unconnected ?_
    have hget := List.mem_zipIdx_iff_getElem?.mp hq
    by_cases hlt : q.2 < n
    · exact Or.inr (Port.is_iff.mp ((houtputs.2 q.2 q.1 hget).1.mpr hlt)).1
    · exact Or.inl ((houtputs.2 q.2 q.1 hget).2 (Nat.le_of_not_lt hlt))
  obtain ⟨src, hfold, _⟩ := foldOutcome_done hports (Instance.zero source) rfl
  refine ⟨src, ?_⟩
  rw [constructInstance, hplugin]
  dsimp only
  rw [hdisabled, if_neg Bool.false_ne_true, hfold]
  rfl

/-- The ports of the sink are connected to those of the source. -/
theorem construct_sink (h : IdentityWiring ini source sink n) {eval : E → Option Bool}
    (henabled : isEnabled ini eval sink = true) (fuel : Nat) {src : Instance F}
    (hsrc : src.plugin = source)
    (houtputs : src.outputAudioPorts.map (·.originalIndex) = List.range n) :
    ∃ snk : Instance F, constructInstance ini eval (fuel + 1) sink [src] = .done [src, snk] := by
  obtain ⟨plugin, hplugin, hinputs⟩ := h.inputs
  have hdisabled : isDisabled eval plugin = false := by
    rw [isEnabled, hplugin] at henabled
    simpa using henabled
  have hports : ∀ q ∈ plugin.ports.zipIdx, ∀ inst : Instance F, inst.plugin = sink →
      ∃ inst', addPort ini [src] (fuel + 1) q inst = .done inst' ∧ inst'.plugin = sink := by
    intro q hq inst hinst
    have hget := List.mem_zipIdx_iff_getElem?.mp hq
    by_cases hlt : q.2 < n
    · obtain ⟨hdirection, htype⟩ := Port.is_iff.mp ((hinputs.2 q.2 q.1 hget).1.mpr hlt)
      obtain ⟨port, id, flow, hport, hid, hflow, hfrom, hindex⟩ := h.flows q.2 hlt
      have hbuilt : (builtWith [src] inst).contains source = true := by
        rw [List.contains_iff_mem, ← hsrc]
        exact List.mem_cons_self
      have horigin : findOriginPort ini (builtWith [src] inst) (fuel + 1) ⟨sink, q.2⟩ =
          .done ⟨source, q.2⟩ := by
        rw [findOriginPort, hport]
        dsimp only
        rw [hid]
        dsimp only
        rw [hflow]
        dsimp only
        rw [hfrom]
        dsimp only
        rw [if_pos hbuilt, hindex]
      have hsame : q.1 = port := by
        rw [Ini.port?, hplugin, Option.bind_some, hget] at hport
        exact Option.some.inj hport
      have hconnect : connect ini (builtWith [src] inst) (fuel + 1) ⟨inst.plugin, q.2⟩ q.1 =
          .done (some ⟨source, q.2⟩) := by
        rw [connect, hinst, hsame, hid, ← hsame, hdirection, horigin]
        rfl
      have hfound : ∀ inst', (findOutputAudioPort ([src] ++ [inst']) ⟨source, q.2⟩).isSome =
          true := by
        intro inst'
        have hfirst : findInstanceByPlugin ([src] ++ [inst']) source = some src := by
          rw [findInstanceByPlugin, List.singleton_append, List.find?_cons_of_pos]
          exact beq_iff_eq.mpr hsrc
        have hmem : q.2 ∈ src.outputAudioPorts.map (·.originalIndex) := by
          rw [houtputs]
          exact List.mem_range.mpr hlt
        obtain ⟨port, hport, hindex⟩ := List.mem_map.mp hmem
        rw [findOutputAudioPort, hfirst, Option.bind_some, List.find?_isSome]
        exact ⟨port, hport, beq_iff_eq.mpr hindex⟩
      refine ⟨inst.addAudio q.1.direction ⟨q.2, some ⟨source, q.2⟩, 0⟩, ?_, ?_⟩
      · rw [addPort, hconnect, Outcome.done_bind, htype]
        dsimp only
        rw [if_pos (hfound _)]
      · rw [hdirection]
        exact hinst
    · rw [← hinst]
      exact addPort_unconnected (Or.inl ((hinputs.2 q.2 q.1 hget).2 (Nat.le_of_not_lt hlt)))
  obtain ⟨snk, hfold, _⟩ := foldOutcome_done hports (Instance.zero sink) rfl
  refine ⟨snk, ?_⟩
  rw [constructInstance, hplugin]
  dsimp only
  rw [hdisabled, if_neg Bool.false_ne_true, hfold]
  rfl

end IdentityWiring

/-- The audio ports of an instance are at the indices of the channels. -/
theorem ChannelPorts.indices {ini : Ini F E} {eval : E → Option Bool} {fuel p n k : Nat}
    {seen : List Nat} {instances : List (Instance F)} {inst : Instance F} {plugin : Plugin F E}
    {direction : PortDirection} (h : ChannelPorts plugin direction n)
    (hplugin : ini.plugins[p]? = some plugin)
    (hbuilt : InstancesBuilt ini eval fuel seen instances) (hinst : instances[k]? = some inst)
    (hp : inst.plugin = p) :
    (inst.ports direction .audio).map (·.1) = List.range n := by
  obtain ⟨_, _, plugin', hplugin', hports⟩ := hbuilt.each k inst hinst
  rw [hp] at hplugin'
  obtain rfl : plugin = plugin' := Option.some.inj (hplugin.symm.trans hplugin')
  rw [hports.indices, h.positions]

/-- A pipeline is created. -/
theorem pipelineCreate_identity {ini : Ini F E} {eval : E → Option Bool} {purpose : String}
    {source sink n : Nat}
    (hsource : findEnabledBuiltinPlugin ini eval "source" purpose = some source)
    (hsink : findEnabledBuiltinPlugin ini eval "sink" purpose = some sink)
    (h : IdentityWiring ini source sink n) (hn : 0 < n) :
    ∃ pipeline, pipelineCreate ini eval purpose 3 = .done pipeline := by
  have hne := source_ne_sink hsource hsink
  have henabled : ∀ {label p}, findEnabledBuiltinPlugin ini eval label purpose = some p →
      isEnabled ini eval p = true := by
    intro label p hp
    obtain ⟨plugin, hplugin, _, _, hdisabled⟩ := findEnabledBuiltinPlugin_spec hp
    exact isEnabled_iff.mpr ⟨plugin, hplugin, hdisabled⟩
  obtain ⟨src, hsrc⟩ := h.construct_source (henabled hsource) 3
  have hfirst : foldOutcome (constructInstance ini eval 3) [source] [] = .done [src] := by
    rw [foldOutcome, hsrc]
    rfl
  have hbuilt := instancesBuilt_of_fold hfirst
  have hsrcPlugin : src.plugin = source := by
    have hplugins := hbuilt.plugins
    rw [List.filter_cons_of_pos (henabled hsource)] at hplugins
    exact List.head_eq_of_cons_eq hplugins
  obtain ⟨plugin₁, hplugin₁, houtputs⟩ := h.outputs
  obtain ⟨plugin₂, hplugin₂, hinputs⟩ := h.inputs
  have hsrcIndices := houtputs.indices (k := 0) hplugin₁ hbuilt rfl hsrcPlugin
  rw [Instance.ports, List.map_map] at hsrcIndices
  obtain ⟨snk, hsnk⟩ := h.construct_sink (henabled hsink) 2 hsrcPlugin hsrcIndices
  have hfold : foldOutcome (constructInstance ini eval 3) [source, sink] [] =
      .done [src, snk] := by
    rw [foldOutcome, hsrc, Outcome.done_bind, foldOutcome, hsnk]
    rfl
  have hbuilt' := instancesBuilt_of_fold hfold
  have hsnkPlugin : snk.plugin = sink := by
    have hplugins := hbuilt'.plugins
    rw [List.filter_cons_of_pos (henabled hsource), List.filter_cons_of_pos (henabled hsink)]
      at hplugins
    exact List.head_eq_of_cons_eq (List.tail_eq_of_cons_eq hplugins)
  have hsnkIndices := hinputs.indices (k := 1) hplugin₂ hbuilt' rfl hsnkPlugin
  rw [Instance.ports, List.map_map] at hsnkIndices
  have hlength : src.outputAudioPorts.length = snk.inputAudioPorts.length := by
    have hsame := congrArg List.length (hsrcIndices.trans hsnkIndices.symm)
    rwa [List.length_map, List.length_map] at hsame
  have hsort : topologicalSort ini eval 3 sink ([], []) =
      .done ([source, sink], [src, snk]) := by
    rw [topologicalSort, depthFirst_eq, h.walk_eq hne hn, Walked.run, hfold]
    rfl
  have hdiffer : src.plugin ≠ snk.plugin := by
    rw [hsrcPlugin, hsnkPlugin]
    exact hne
  obtain ⟨hfindFirst, hfindSecond⟩ := findInstanceByPlugin_pair hdiffer
  rw [hsrcPlugin] at hfindFirst
  rw [hsnkPlugin] at hfindSecond
  refine ⟨⟨[src, snk], source, sink, src.outputAudioPorts.length, snk.inputAudioPorts.length⟩, ?_⟩
  rw [pipelineCreate, hsource, hsink]
  dsimp only
  rw [hsort, Outcome.done_bind]
  dsimp only
  rw [hfindFirst, hfindSecond]
  dsimp only
  rw [if_neg (by omega)]

/-! ## Loading -/

theorem module_empty {ini : Ini F E} {eval : E → Option Bool} {label purpose : String} {p : Nat}
    (hlabel : label = "source" ∨ label = "sink")
    (h : findEnabledBuiltinPlugin ini eval label purpose = some p) :
    ini.module? p = some .empty := by
  obtain ⟨plugin, hplugin, hlibrary, hplabel, _⟩ := findEnabledBuiltinPlugin_spec h
  rw [Ini.module?, hplugin, Option.bind_some]
  exact loadBuiltin_empty hlibrary (by rw [hplabel]; exact hlabel)

namespace StraightInstances

variable {pipeline : Pipeline F} {n : Nat} {src snk : Instance F}

/-- The sink reads the outputs of the source, in their order. -/
theorem reads (h : StraightInstances pipeline n src snk) :
    snk.reads = (List.range n).map fun i => ⟨src.plugin, i⟩ := by
  rw [← h.inputs, List.map_map, Instance.reads, ← List.filterMap_eq_map]
  exact List.filterMap_congr h.peers

theorem feedsOnce (h : StraightInstances pipeline n src snk) : FeedsOnce pipeline.instances := by
  have hsrc : src.reads = [] := by
    rw [Instance.reads, h.first]
    rfl
  have hall : pipeline.instances.flatMap Instance.reads = snk.reads := by
    rw [h.instances, List.flatMap_cons, hsrc, List.nil_append, List.flatMap_singleton]
  rw [FeedsOnce, hall, h.reads]
  refine List.nodup_range.map_on fun i _ j _ heq => ?_
  exact congrArg PortRef.index heq

/-- Both sides have `n` channels. -/
theorem channels (h : StraightInstances pipeline n src snk) {ini : Ini F E}
    {eval : E → Option Bool} {purpose : String} {fuel : Nat}
    (hcreate : pipelineCreate ini eval purpose fuel = .done pipeline) :
    pipeline.inputChannels = n ∧ pipeline.outputChannels = n := by
  obtain ⟨source, sink, hsource, hsink, hinputs, houtputs⟩ :=
    (created_of_pipelineCreate hcreate).channels
  have hne : src.plugin ≠ snk.plugin := by
    rw [h.source, h.sink]
    exact pipelineCreate_source_ne_sink hcreate
  obtain ⟨hfirst, hsecond⟩ := findInstanceByPlugin_pair hne
  rw [h.instances, ← h.source, hfirst] at hsource
  rw [h.instances, ← h.sink, hsecond] at hsink
  cases hsource
  cases hsink
  have hin := congrArg List.length h.outputs
  have hout := congrArg List.length h.inputs
  rw [List.length_map, List.length_range] at hin hout
  exact ⟨hinputs.trans hin, houtputs.trans hout⟩

/-- After loading, a channel has the same buffer at the source and at the sink. -/
theorem same_buffer (h : StraightInstances pipeline n src snk) {alloc : Allocation F}
    {src' snk' : Instance F} (hinstances : alloc.instances = [src', snk'])
    (hsrc : BuffersGiven alloc.peakBuf src src')
    (hsnk : snk'.ports .input .audio = snk.ports .input .audio)
    (hsound : BuffersSound alloc) {i b b' : Nat}
    (hb : findBuffer src'.outputAudioPorts i = some b)
    (hb' : findBuffer snk'.inputAudioPorts i = some b') : b' = b := by
  obtain ⟨out, hout, houtIndex, rfl⟩ := findBuffer_eq_some hb
  obtain ⟨inp, hinp, hinpIndex, rfl⟩ := findBuffer_eq_some hb'
  have hpeer : inp.peer = some ⟨src.plugin, i⟩ := by
    have hmem : (inp.originalIndex, inp.peer) ∈ snk'.ports .input .audio :=
      List.mem_map_of_mem hinp
    rw [hsnk] at hmem
    obtain ⟨port, hport, heq⟩ := List.mem_map.mp hmem
    obtain ⟨hindex, hsame⟩ := Prod.mk.inj heq
    rw [← hsame, h.peers port hport, hindex, hinpIndex]
  obtain ⟨ref, hpeer', hwriter⟩ := hsound.holds 1 snk' (by rw [hinstances]; rfl) inp hinp
  rw [hpeer] at hpeer'
  cases hpeer'
  have hlast : src'.values.foldl writeValue (fun _ => none) inp.bufIndex =
      some ⟨src.plugin, i⟩ := by
    rw [hinstances, List.take_succ_cons, List.take_zero, lastWriter, List.flatMap_singleton]
      at hwriter
    exact hwriter
  have hnodup : (src'.values.map (·.2)).Nodup := by
    rw [Instance.values, List.map_map]
    exact hsrc.apart
  have hwritten : inp.bufIndex ∈ src'.values.map (·.2) := by
    by_contra hnot
    rw [foldl_writeValue_of_not_mem hnot] at hlast
    cases hlast
  obtain ⟨v, hv, hbuf⟩ := List.mem_map.mp hwritten
  rw [← hbuf, foldl_writeValue_of_mem hv hnodup] at hlast
  obtain ⟨port, hport, rfl⟩ := List.mem_map.mp hv
  have hindex : port.originalIndex = i := congrArg PortRef.index (Option.some.inj hlast)
  have hindices : (src'.outputAudioPorts.map (·.originalIndex)).Nodup := by
    rw [hsrc.outputs, h.outputs]
    exact List.nodup_range
  rw [← hbuf, List.inj_on_of_nodup_map hindices hport hout (hindex.trans houtIndex.symm)]

/-- The modules of the source and the sink have no properties of their own. -/
theorem pipelineLoad_done (h : StraightInstances pipeline n src snk) {ini : Ini F E}
    {alloc : Allocation F} (hsource : ini.module? pipeline.source = some .empty)
    (hsink : ini.module? pipeline.sink = some .empty)
    (halloc : allocateBuffers (pipeline.instances.map Instance.loaded) = some alloc) :
    pipelineLoad ini pipeline = .done alloc := by
  rw [← h.source] at hsource
  rw [← h.sink] at hsink
  have hsrc : loadModule ini src = some src.loaded := by
    rw [loadModule, hsource]
    rfl
  have hsnk : loadModule ini snk = some snk.loaded := by
    rw [loadModule, hsink]
    rfl
  have hmodules : pipeline.instances.mapM (loadModule ini) =
      some (pipeline.instances.map Instance.loaded) := by
    rw [h.instances, List.mapM_cons, List.mapM_cons, hsrc, hsnk]
    rfl
  rw [pipelineLoad, hmodules]
  simp only [halloc]

/-- The channels' buffers are those of the two instances. -/
theorem channelBuffers (h : StraightInstances pipeline n src snk)
    (hne : pipeline.source ≠ pipeline.sink) {alloc : Allocation F} {src' snk' : Instance F}
    (hinstances : alloc.instances = [src', snk']) (hsrc : src'.plugin = src.plugin)
    (hsnk : snk'.plugin = snk.plugin) (i : Nat) :
    getSourceBuffer pipeline alloc i = findBuffer src'.outputAudioPorts i ∧
      getSinkBuffer pipeline alloc i = findBuffer snk'.inputAudioPorts i := by
  have hne' : src'.plugin ≠ snk'.plugin := by
    rw [hsrc, hsnk, h.source, h.sink]
    exact hne
  obtain ⟨hfirst, hsecond⟩ := findInstanceByPlugin_pair hne'
  rw [getSourceBuffer, getSinkBuffer, hinstances, ← h.source, ← h.sink, ← hsrc, ← hsnk, hfirst,
    hsecond, Option.bind_some, Option.bind_some]
  exact ⟨rfl, rfl⟩

end StraightInstances

/-- What loading an identity pipeline gives: each channel has a buffer of its own. -/
structure StraightLoaded (ini : Ini F E) (pipeline : Pipeline F) (alloc : Allocation F) (n : Nat)
    (buffer : Nat → Nat) : Prop where
  inputChannels : pipeline.inputChannels = n
  outputChannels : pipeline.outputChannels = n
  source : ∀ i < n, getSourceBuffer pipeline alloc i = some (buffer i)
  sink : ∀ i < n, getSinkBuffer pipeline alloc i = some (buffer i)
  apart : ∀ i < n, ∀ j < n, buffer i = buffer j → i = j
  modules : ∀ inst ∈ alloc.instances, ini.module? inst.plugin = some .empty

theorem straightLoaded_of_pipelineCreate {ini : Ini F E} {eval : E → Option Bool}
    {purpose : String} {fuel n : Nat} {pipeline : Pipeline F}
    (hcreate : pipelineCreate ini eval purpose fuel = .done pipeline)
    (hwiring : IdentityWiring ini pipeline.source pipeline.sink n) :
    ∃ alloc buffer, pipelineLoad ini pipeline = .done alloc ∧
      StraightLoaded ini pipeline alloc n buffer := by
  obtain ⟨src, snk, h⟩ := straightInstances_of_pipelineCreate hcreate hwiring
  have hord := dependencyOrdered_of_pipelineCreate hcreate
    (hwiring.followsNoCycle (pipelineCreate_source_ne_sink hcreate))
  have hcreated := created_of_pipelineCreate hcreate
  have hsource := module_empty (Or.inl rfl) hcreated.source
  have hsink := module_empty (Or.inr rfl) hcreated.sink
  obtain ⟨alloc, halloc, hsame, hpeak, hall⟩ :=
    allAssigned_of_allocateBuffers hord.loaded h.feedsOnce.loaded
  have hsound := hall.buffersSound hpeak
  have hload := h.pipelineLoad_done hsource hsink halloc
  rw [h.instances] at hsame
  obtain ⟨src', snk', hinstances, hsrcWiring, hsnkWiring⟩ := map_eq_pair hsame
  have hgiven := pipelineLoad_given hload
  rw [h.instances, hinstances] at hgiven
  obtain ⟨hsrcGiven, hrest⟩ := List.forall₂_cons.mp hgiven
  obtain ⟨hsnkGiven, _⟩ := List.forall₂_cons.mp hrest
  have hports : snk'.ports .input .audio = snk.ports .input .audio := by
    rw [← snk'.wiring_ports, hsnkWiring, snk.loaded.wiring_ports]
    rfl
  obtain ⟨plugin₁, hplugin₁, houtputs⟩ := hwiring.outputs
  obtain ⟨plugin₂, hplugin₂, hinputs⟩ := hwiring.inputs
  have hbuffered := (channelsBuffered_iff_lead hcreate hload).mpr
    ⟨houtputs.lead hplugin₁, hinputs.lead hplugin₂⟩
  obtain ⟨hinputChannels, houtputChannels⟩ := h.channels hcreate
  have hchannels := h.channelBuffers (pipelineCreate_source_ne_sink hcreate) hinstances
    hsrcGiven.plugin hsnkGiven.plugin
  have hchannel : ∀ i < n, ∃ b, getSourceBuffer pipeline alloc i = some b ∧
      getSinkBuffer pipeline alloc i = some b := by
    intro i hi
    obtain ⟨b, _, hb⟩ := hbuffered.source i (by rw [hinputChannels]; exact hi)
    obtain ⟨b', _, hb'⟩ := hbuffered.sink i (by rw [houtputChannels]; exact hi)
    refine ⟨b, hb, ?_⟩
    rw [(hchannels i).1] at hb
    have hsame := hb'
    rw [(hchannels i).2] at hsame
    rw [hb', h.same_buffer hinstances hsrcGiven hports hsound hb hsame]
  refine ⟨alloc, fun i => (getSourceBuffer pipeline alloc i).getD 0, hload, hinputChannels,
    houtputChannels, fun i hi => ?_, fun i hi => ?_, fun i hi j hj heq => ?_, ?_⟩
  · obtain ⟨b, hb, _⟩ := hchannel i hi
    rw [hb]
    rfl
  · obtain ⟨b, hb, hb'⟩ := hchannel i hi
    rw [hb, hb']
    rfl
  · obtain ⟨b, hb, _⟩ := hchannel i hi
    obtain ⟨b', hb', _⟩ := hchannel j hj
    by_contra hne
    refine hbuffered.apart i (by rw [hinputChannels]; exact hi) j (by rw [hinputChannels]; exact hj)
      hne ?_
    rw [hb, hb'] at heq ⊢
    exact congrArg some heq
  · rw [hinstances]
    refine List.forall_mem_cons.mpr ⟨?_, List.forall_mem_singleton.mpr ?_⟩
    · rw [hsrcGiven.plugin, h.source]
      exact hsource
    · rw [hsnkGiven.plugin, h.sink]
      exact hsink

/-! ## The samples -/

/-- Empty modules leave the buffers as they are. -/
theorem runInstances_empty {S B : Type} [Neg S] [Add S] [DecidableEq B] {n : Nat}
    (filters : Filters S n) {ini : Ini F E} (names : Instance F → Nat → Option B) :
    ∀ {instances : List (Instance F)},
      (∀ inst ∈ instances, ini.module? inst.plugin = some .empty) →
      ∀ blocks, runInstances filters ini names instances blocks = some blocks := by
  intro instances
  induction instances with
  | nil => exact fun _ _ => rfl
  | cons inst instances ih =>
      intro h blocks
      obtain ⟨hinst, hrest⟩ := List.forall_mem_cons.mp h
      rw [runInstances_cons filters hinst rfl]
      exact ih hrest blocks

/-- Applying an identity pipeline to any number of frames leaves every sample as it was, whatever
was in the buffers. -/
theorem pipelineApply_straight {ini : Ini F E} {pipeline : Pipeline F} {alloc : Allocation F}
    {n : Nat} {buffer : Nat → Nat} (h : StraightLoaded ini pipeline alloc n buffer)
    (filters : ∀ n, Filters Rat n) (frames : Nat) (buffers : Nat → Nat → Rat)
    (buf : Nat → Int16) :
    ∃ buffers', pipelineApplyBuffers filters ini pipeline alloc int16ToFloat floatToInt16
      frames buffers buf = some (buffers', buf) := by
  have hsource : (List.range pipeline.inputChannels).mapM (getSourceBuffer pipeline alloc) =
      some ((List.range n).map buffer) := by
    rw [h.inputChannels]
    exact mapM_eq_map fun i hi => h.source i (List.mem_range.mp hi)
  have hsink : (List.range pipeline.outputChannels).mapM (getSinkBuffer pipeline alloc) =
      some ((List.range n).map buffer) := by
    rw [h.outputChannels]
    exact mapM_eq_map fun i hi => h.sink i (List.mem_range.mp hi)
  have hnodup : ((List.range n).map buffer).Nodup :=
    List.nodup_range.map_on fun i hi j hj =>
      h.apart i (List.mem_range.mp hi) j (List.mem_range.mp hj)
  rw [pipelineApplyBuffers]
  by_cases hframes : frames = 0
  · exact ⟨buffers, by rw [if_pos hframes]⟩
  · rw [if_neg hframes, hsource, Option.bind_some, hsink, Option.bind_some]
    exact applyChunks_idle (fun n => runInstances_empty (filters n) sharedNames h.modules)
      floatToInt16_int16ToFloat hnodup dspBufferSize_pos frames 0 buffers buf

/-- With the outputs of the source wired straight to the inputs of the sink, a pipeline is
created if there is a channel, and every pipeline that is created can be loaded and leaves
every sample as it was. -/
theorem pipelineApply_identity {ini : Ini F E} {eval : E → Option Bool} {purpose : String}
    {source sink n : Nat}
    (hsource : findEnabledBuiltinPlugin ini eval "source" purpose = some source)
    (hsink : findEnabledBuiltinPlugin ini eval "sink" purpose = some sink)
    (hwiring : IdentityWiring ini source sink n) (filters : ∀ n, Filters Rat n) :
    (0 < n → ∃ fuel pipeline, pipelineCreate ini eval purpose fuel = .done pipeline) ∧
      ∀ fuel pipeline, pipelineCreate ini eval purpose fuel = .done pipeline →
        ∃ alloc, pipelineLoad ini pipeline = .done alloc ∧
          ∀ (frames : Nat) (buffers : Nat → Nat → Rat) (buf : Nat → Int16),
            ∃ buffers', pipelineApplyBuffers filters ini pipeline alloc int16ToFloat floatToInt16
              frames buffers buf = some (buffers', buf) := by
  refine ⟨fun hn => ⟨3, pipelineCreate_identity hsource hsink hwiring hn⟩, ?_⟩
  intro fuel pipeline hcreate
  have hcreated := created_of_pipelineCreate hcreate
  obtain rfl : source = pipeline.source := Option.some.inj (hsource.symm.trans hcreated.source)
  obtain rfl : sink = pipeline.sink := Option.some.inj (hsink.symm.trans hcreated.sink)
  obtain ⟨alloc, buffer, hload, h⟩ := straightLoaded_of_pipelineCreate hcreate hwiring
  exact ⟨alloc, hload, pipelineApply_straight h filters⟩

/-- Two channels. -/
def stereoIni : Ini Unit Bool where
  plugins :=
    [⟨"builtin", "source", some "playback", none, [audioOut 0, audioOut 1]⟩,
      ⟨"builtin", "sink", some "playback", none, [audioIn 0, audioIn 1]⟩]
  flowTypes := [.audio, .audio]
  port_flow := by decide
  audio_flow := by decide

theorem identityWiring_stereo : IdentityWiring stereoIni 0 1 2 := by
  refine ⟨⟨_, rfl, Nat.le_refl 2, ?_⟩, ⟨_, rfl, Nat.le_refl 2, ?_⟩, ?_⟩
  · intro j port hport
    match j, hport with
    | 0, hport => cases hport; exact ⟨by decide, by decide⟩
    | 1, hport => cases hport; exact ⟨by decide, by decide⟩
  · intro j port hport
    match j, hport with
    | 0, hport => cases hport; exact ⟨by decide, by decide⟩
    | 1, hport => cases hport; exact ⟨by decide, by decide⟩
  · intro i hi
    match i, hi with
    | 0, _ => exact ⟨_, _, _, rfl, rfl, rfl, rfl, rfl⟩
    | 1, _ => exact ⟨_, _, _, rfl, rfl, rfl, rfl, rfl⟩

/-- Filters that do nothing; there are none to run. -/
def noFilters (n : Nat) : Filters Rat n := ⟨fun _ b => b, fun _ p => p, fun _ p => p⟩

theorem pipelineApply_identity_stereo :
    ∃ fuel pipeline alloc, pipelineCreate stereoIni some "playback" fuel = .done pipeline ∧
      pipelineLoad stereoIni pipeline = .done alloc ∧
      ∀ buf : Nat → Int16, ∃ buffers', pipelineApplyBuffers noFilters stereoIni pipeline alloc
        int16ToFloat floatToInt16 5000 (fun _ _ => 0) buf = some (buffers', buf) := by
  obtain ⟨hcreates, hleaves⟩ := @pipelineApply_identity Unit Bool stereoIni some "playback" 0 1 2
    rfl rfl identityWiring_stereo noFilters
  obtain ⟨fuel, pipeline, hcreate⟩ := hcreates (by decide)
  obtain ⟨alloc, hload, happly⟩ := hleaves fuel pipeline hcreate
  exact ⟨fuel, pipeline, alloc, hcreate, hload, fun buf => happly 5000 _ buf⟩

end DragonDevice.Dsp
