/-
  Dsp/ChannelBuffers.lean --- the buffers of the channels of a pipeline.

  The channels of a pipeline are the audio outputs of its source and the audio inputs of
  its sink, as many as there are.  Their buffers are looked up by the index of the port in
  its plugin, which is the channel only while no other port stands before.
-/
import DragonDevice.Dsp.SharedTransparent

set_option autoImplicit false

namespace DragonDevice.Dsp

open DragonDevice.Lib

variable {F E : Type}

/-! ## Looking up -/

/-- `find_buffer`; `none` is `NULL`, and a buffer goes by its index. -/
def findBuffer (ports : List AudioPort) (index : Nat) : Option Nat :=
  (ports.find? fun port => port.originalIndex == index).map (·.bufIndex)

/-- `cras_dsp_pipeline_get_source_buffer` -/
def getSourceBuffer (pipeline : Pipeline F) (alloc : Allocation F) (index : Nat) : Option Nat :=
  (findInstanceByPlugin alloc.instances pipeline.source).bind fun inst =>
    findBuffer inst.outputAudioPorts index

/-- `cras_dsp_pipeline_get_sink_buffer` -/
def getSinkBuffer (pipeline : Pipeline F) (alloc : Allocation F) (index : Nat) : Option Nat :=
  (findInstanceByPlugin alloc.instances pipeline.sink).bind fun inst =>
    findBuffer inst.inputAudioPorts index

/-- Every channel has one of the buffers, and the channels of the source have different ones. -/
structure ChannelsBuffered (pipeline : Pipeline F) (alloc : Allocation F) : Prop where
  source : ∀ i < pipeline.inputChannels, ∃ b < alloc.peakBuf,
    getSourceBuffer pipeline alloc i = some b
  sink : ∀ i < pipeline.outputChannels, ∃ b < alloc.peakBuf,
    getSinkBuffer pipeline alloc i = some b
  apart : ∀ i < pipeline.inputChannels, ∀ j < pipeline.inputChannels, i ≠ j →
    getSourceBuffer pipeline alloc i ≠ getSourceBuffer pipeline alloc j

/-- The audio ports of a direction stand before all other ports of the plugin. -/
def AudioPortsLead (ini : Ini F E) (p : Nat) (direction : PortDirection) : Prop :=
  ∀ plugin, ini.plugins[p]? = some plugin → ∀ (k : Nat) (port : Port F),
    plugin.ports[k]? = some port → port.is direction .audio = true →
    ∀ j < k, ∀ port' : Port F, plugin.ports[j]? = some port' → port'.is direction .audio = true

/-! ## What loading gives an instance -/

/-- An instance before and after it got its buffers. -/
structure BuffersGiven (peak : Nat) (inst inst' : Instance F) : Prop where
  plugin : inst'.plugin = inst.plugin
  inputs : inst'.inputAudioPorts.map (·.originalIndex) =
    inst.inputAudioPorts.map (·.originalIndex)
  outputs : inst'.outputAudioPorts.map (·.originalIndex) =
    inst.outputAudioPorts.map (·.originalIndex)
  inputs_lt : ∀ port ∈ inst'.inputAudioPorts, port.bufIndex < peak
  outputs_lt : ∀ port ∈ inst'.outputAudioPorts, port.bufIndex < peak
  apart : (inst'.outputAudioPorts.map (·.bufIndex)).Nodup

theorem collectInputs_indices {instances : List (Instance F)} {ports inputs : List AudioPort}
    (h : collectInputs instances ports = some inputs) :
    inputs.map (·.originalIndex) = ports.map (·.originalIndex) := by
  refine mapM_some_map (fun port port' hport => ?_) h
  obtain ⟨peer, -, rfl⟩ := Option.map_eq_some_iff.mp hport
  rfl

theorem useBuffers_some {busy busy' : List Bool} {ports outputs : List AudioPort}
    (h : useBuffers busy ports = some (outputs, busy')) :
    outputs.map (·.originalIndex) = ports.map (·.originalIndex) ∧
    (∀ port ∈ outputs, port.bufIndex < busy.length) ∧ (outputs.map (·.bufIndex)).Nodup ∧
    busy'.length = busy.length := by
  obtain ⟨slots, hlen, hzip, hasc, hslots, hpool⟩ := takeSlots_some h
  obtain ⟨hbufs, hwiring⟩ := map_zipWith_bufIndex ports slots hlen
  rw [← hzip] at hbufs hwiring
  refine ⟨?_, fun port hport => ?_, ?_, hpool⟩
  · have hindices := congrArg (List.map AudioPort.originalIndex) hwiring
    rw [List.map_map, List.map_map] at hindices
    exact hindices
  · have hmem : port.bufIndex ∈ slots := by
      rw [← hbufs]
      exact List.mem_map_of_mem hport
    exact (List.getElem?_eq_some_iff.mp (hslots _ hmem).2).1
  · rw [hbufs]
    exact hasc.imp fun hlt => Nat.ne_of_lt hlt

theorem unuseBuffers_some {busy busy' : List Bool} {ports : List AudioPort}
    (h : unuseBuffers busy ports = some busy') :
    (∀ port ∈ ports, port.bufIndex < busy.length) ∧ busy'.length = busy.length := by
  obtain ⟨hlt, hlen⟩ := giveBack_some h
  exact ⟨fun port hport => hlt _ (List.mem_map_of_mem hport), hlen⟩

/-- An instance that got buffers has some of the pool, and its outputs have different ones. -/
theorem assignInstance_given {instances : List (Instance F)} {inst inst' : Instance F}
    {busy busy' : List Bool} (h : assignInstance instances inst busy = some (inst', busy')) :
    BuffersGiven busy.length inst inst' ∧ busy'.length = busy.length := by
  unfold assignInstance at h
  obtain ⟨inputs, hcollect, h⟩ := Option.bind_eq_some_iff.mp h
  have hindices := collectInputs_indices hcollect
  split at h
  · obtain ⟨⟨outputs, busy₁⟩, huse, h⟩ := Option.bind_eq_some_iff.mp h
    obtain ⟨busy₂, hunuse, h⟩ := Option.bind_eq_some_iff.mp h
    cases h
    obtain ⟨hout, hlt, hnodup, hlen⟩ := useBuffers_some huse
    obtain ⟨hin, hlen'⟩ := unuseBuffers_some hunuse
    rw [hlen] at hin hlen'
    exact ⟨⟨rfl, hindices, hout, hin, hlt, hnodup⟩, hlen'⟩
  · obtain ⟨busy₁, hunuse, h⟩ := Option.bind_eq_some_iff.mp h
    obtain ⟨⟨outputs, busy₂⟩, huse, h⟩ := Option.bind_eq_some_iff.mp h
    cases h
    obtain ⟨hin, hlen⟩ := unuseBuffers_some hunuse
    obtain ⟨hout, hlt, hnodup, hlen'⟩ := useBuffers_some huse
    rw [hlen] at hlt hlen'
    exact ⟨⟨rfl, hindices, hout, hin, hlt, hnodup⟩, hlen'⟩

/-- What every assignment gives, all instances have got. -/
theorem assignBuffers_forall₂ {P : List Bool → Prop} {R : Instance F → Instance F → Prop}
    (hassign : ∀ instances inst inst' busy busy', P busy →
      assignInstance instances inst busy = some (inst', busy') → R inst inst' ∧ P busy') :
    ∀ {rest assigned out : List (Instance F)} {busy : List Bool}, P busy →
      assignBuffers assigned rest busy = some out →
      ∃ tail, out = assigned ++ tail ∧ List.Forall₂ R rest tail := by
  intro rest
  induction rest with
  | nil =>
      intro assigned out busy _ h
      cases h
      exact ⟨[], by rw [List.append_nil], List.Forall₂.nil⟩
  | cons inst rest ih =>
      intro assigned out busy hbusy h
      obtain ⟨⟨inst', busy'⟩, hone, h⟩ := Option.bind_eq_some_iff.mp h
      obtain ⟨hinst, hbusy'⟩ := hassign _ _ _ _ _ hbusy hone
      obtain ⟨tail, hout, htail⟩ := ih hbusy' h
      exact ⟨inst' :: tail, by rw [hout, List.append_assoc]; rfl, List.Forall₂.cons hinst htail⟩

theorem assignBuffers_given {rest assigned out : List (Instance F)} {busy : List Bool}
    (h : assignBuffers assigned rest busy = some out) :
    ∃ tail, out = assigned ++ tail ∧ List.Forall₂ (BuffersGiven busy.length) rest tail := by
  refine assignBuffers_forall₂ (P := fun busy' => busy'.length = busy.length) ?_ rfl h
  intro instances inst inst' busy₁ busy₂ hlen hassign
  obtain ⟨hgiven, hlen'⟩ := assignInstance_given hassign
  rw [hlen] at hgiven hlen'
  exact ⟨hgiven, hlen'⟩

/-- Loading leaves the wiring of the instances as it is. -/
theorem pipelineLoad_given {ini : Ini F E} {pipeline : Pipeline F} {alloc : Allocation F}
    (h : pipelineLoad ini pipeline = .done alloc) :
    List.Forall₂ (BuffersGiven alloc.peakBuf) pipeline.instances alloc.instances := by
  obtain ⟨out, hassign, rfl⟩ := Option.map_eq_some_iff.mp (allocateBuffers_of_pipelineLoad h)
  obtain ⟨tail, rfl, hgiven⟩ := assignBuffers_given hassign
  rw [List.length_replicate, List.forall₂_map_left_iff] at hgiven
  exact hgiven.imp fun inst inst' h => ⟨h.plugin, h.inputs, h.outputs, h.inputs_lt, h.outputs_lt,
    h.apart⟩

/-! ## The source and the sink -/

/-- The same instance is found before and after. -/
theorem findInstanceByPlugin_given {peak p : Nat} {l l' : List (Instance F)} {inst : Instance F}
    (h : List.Forall₂ (BuffersGiven peak) l l') (hfind : findInstanceByPlugin l p = some inst) :
    ∃ inst', findInstanceByPlugin l' p = some inst' ∧ BuffersGiven peak inst inst' := by
  unfold findInstanceByPlugin at hfind ⊢
  induction h with
  | nil => cases hfind
  | @cons a a' l l' ha _ ih =>
      rw [List.find?_cons] at hfind ⊢
      rw [ha.plugin]
      cases hp : a.plugin == p with
      | true =>
          rw [hp] at hfind
          cases hfind
          exact ⟨a', rfl, ha⟩
      | false =>
          rw [hp] at hfind
          exact ih hfind

/-- The indices of the audio ports of an instance, from the ports of its plugin. -/
theorem pipelineCreate_indices {ini : Ini F E} {eval : E → Option Bool} {purpose : String}
    {fuel : Nat} {pipeline : Pipeline F}
    (h : pipelineCreate ini eval purpose fuel = .done pipeline) {p : Nat} {inst : Instance F}
    (hfind : findInstanceByPlugin pipeline.instances p = some inst) :
    ∃ plugin, ini.plugins[p]? = some plugin ∧ ∀ direction,
      (inst.ports direction .audio).map (·.1) =
        (plugin.ports.zipIdx.filter fun q => q.1.is direction .audio).map (·.2) := by
  obtain ⟨_, _, hfold⟩ := pipelineCreate_done h
  obtain ⟨k, hk⟩ := List.getElem?_of_mem (List.mem_of_find?_eq_some hfind)
  obtain ⟨_, _, plugin, hplugin, hports⟩ := (instancesBuilt_of_fold hfold).each k inst hk
  rw [beq_iff_eq.mp (List.find?_some hfind :)] at hplugin
  exact ⟨plugin, hplugin, fun direction => hports.indices direction .audio⟩

/-! ## Channels and ports -/

/-- The numbers below the length of the list are all in it exactly when nothing that is not in
it is below an element. -/
theorem mem_of_lt_length_iff {l : List Nat} (hasc : l.Pairwise (· < ·)) :
    (∀ i < l.length, i ∈ l) ↔ ∀ k ∈ l, ∀ j < k, j ∈ l := by
  constructor
  · intro h k hk j hj
    have hnodup : l.Nodup := hasc.imp fun hlt => Nat.ne_of_lt hlt
    have hsub : List.range l.length ⊆ l := fun i hi => h i (List.mem_range.mp hi)
    have hperm : List.Perm (List.range l.length) l :=
      (List.nodup_range.subperm hsub).perm_of_length_le (by rw [List.length_range])
    have hklt := List.mem_range.mp (hperm.mem_iff.mpr hk)
    exact h j (by omega)
  · intro h i hi
    rw [eq_range_of_ascending hasc h]
    exact List.mem_range.mpr hi

/-- The positions of the elements with a property, in order. -/
theorem pairwise_positions {α : Type} (p : α → Bool) (l : List α) :
    ((l.zipIdx.filter fun q => p q.1).map (·.2)).Pairwise (· < ·) := by
  refine List.Pairwise.sublist (List.filter_sublist.map _) ?_
  rw [List.zipIdx_map_snd]
  exact List.pairwise_lt_range'

theorem mem_positions {α : Type} {p : α → Bool} {l : List α} {k : Nat} :
    k ∈ (l.zipIdx.filter fun q => p q.1).map (·.2) ↔ ∃ a, l[k]? = some a ∧ p a = true := by
  constructor
  · intro hk
    obtain ⟨⟨a, k'⟩, hq, rfl⟩ := List.mem_map.mp hk
    obtain ⟨hmem, hp⟩ := List.mem_filter.mp hq
    exact ⟨a, List.mem_zipIdx_iff_getElem?.mp hmem, hp⟩
  · rintro ⟨a, ha, hp⟩
    exact List.mem_map.mpr ⟨(a, k), List.mem_filter.mpr ⟨List.mem_zipIdx_iff_getElem?.mpr ha, hp⟩,
      rfl⟩

/-- The channels of a direction are ports of their index exactly when these ports lead. -/
theorem channels_iff_lead {ini : Ini F E} {p : Nat} {plugin : Plugin F E}
    (hplugin : ini.plugins[p]? = some plugin) {direction : PortDirection} (indices : List Nat)
    (hindices : indices =
      (plugin.ports.zipIdx.filter fun q => q.1.is direction .audio).map (·.2)) :
    (∀ i < indices.length, i ∈ indices) ↔ AudioPortsLead ini p direction := by
  rw [hindices, mem_of_lt_length_iff (pairwise_positions _ _)]
  constructor
  · intro h plugin' hplugin' k port hport his j hj port' hport'
    rw [hplugin] at hplugin'
    cases hplugin'
    obtain ⟨port'', hport'', his'⟩ := mem_positions.mp (h k (mem_positions.mpr ⟨port, hport, his⟩)
      j hj)
    rw [hport'] at hport''
    cases hport''
    exact his'
  · intro h k hk j hj
    obtain ⟨port, hport, his⟩ := mem_positions.mp hk
    have hlt : j < plugin.ports.length := by
      have := (List.getElem?_eq_some_iff.mp hport).1
      omega
    refine mem_positions.mpr ⟨_, List.getElem?_eq_getElem hlt, ?_⟩
    exact h plugin hplugin k port hport his j hj _ (List.getElem?_eq_getElem hlt)

/-! ## Which channels have a buffer -/

theorem findBuffer_eq_some {ports : List AudioPort} {index b : Nat}
    (h : findBuffer ports index = some b) :
    ∃ port ∈ ports, port.originalIndex = index ∧ port.bufIndex = b := by
  obtain ⟨port, hfind, hbuf⟩ := Option.map_eq_some_iff.mp h
  exact ⟨port, List.mem_of_find?_eq_some hfind, beq_iff_eq.mp (List.find?_some hfind :), hbuf⟩

/-- An index has a buffer when it is that of a port. -/
theorem exists_findBuffer_iff {ports : List AudioPort} {peak : Nat}
    (hlt : ∀ port ∈ ports, port.bufIndex < peak) (index : Nat) :
    (∃ b < peak, findBuffer ports index = some b) ↔ index ∈ ports.map (·.originalIndex) := by
  constructor
  · rintro ⟨b, _, hb⟩
    obtain ⟨port, hport, hindex, _⟩ := findBuffer_eq_some hb
    rw [← hindex]
    exact List.mem_map_of_mem hport
  · intro hindex
    obtain ⟨port, hport, rfl⟩ := List.mem_map.mp hindex
    cases hfind : ports.find? fun port' => port'.originalIndex == port.originalIndex with
    | none => exact absurd (List.find?_eq_none.mp hfind port hport) (by simp)
    | some port' =>
        refine ⟨port'.bufIndex, hlt port' (List.mem_of_find?_eq_some hfind), ?_⟩
        rw [findBuffer, hfind]
        rfl

/-- Ports with different buffers have them under different indices. -/
theorem findBuffer_inj {ports : List AudioPort} (hnodup : (ports.map (·.bufIndex)).Nodup)
    {i j b : Nat} (hi : findBuffer ports i = some b) (hj : findBuffer ports j = some b) :
    i = j := by
  obtain ⟨port, hport, rfl, hbuf⟩ := findBuffer_eq_some hi
  obtain ⟨port', hport', rfl, hbuf'⟩ := findBuffer_eq_some hj
  rw [List.inj_on_of_nodup_map hnodup hport hport' (hbuf.trans hbuf'.symm)]

/-- The channels of a pipeline with buffers are found exactly when the audio outputs of the source
and the audio inputs of the sink stand before all other ports of their plugins. -/
theorem channelsBuffered_iff_lead {ini : Ini F E} {eval : E → Option Bool} {purpose : String}
    {fuel : Nat} {pipeline : Pipeline F} {alloc : Allocation F}
    (hcreate : pipelineCreate ini eval purpose fuel = .done pipeline)
    (hload : pipelineLoad ini pipeline = .done alloc) :
    ChannelsBuffered pipeline alloc ↔
      AudioPortsLead ini pipeline.source .output ∧ AudioPortsLead ini pipeline.sink .input := by
  obtain ⟨source, sink, hsource, hsink, hin, hout⟩ := (created_of_pipelineCreate hcreate).channels
  have hgiven := pipelineLoad_given hload
  obtain ⟨source', hsource', hsgiven⟩ := findInstanceByPlugin_given hgiven hsource
  obtain ⟨sink', hsink', hkgiven⟩ := findInstanceByPlugin_given hgiven hsink
  have hsourceBuf : ∀ i,
      getSourceBuffer pipeline alloc i = findBuffer source'.outputAudioPorts i := by
    intro i
    rw [getSourceBuffer, hsource', Option.bind_some]
  have hsinkBuf : ∀ i, getSinkBuffer pipeline alloc i = findBuffer sink'.inputAudioPorts i := by
    intro i
    rw [getSinkBuffer, hsink', Option.bind_some]
  obtain ⟨plugin, hplugin, hindices⟩ := pipelineCreate_indices hcreate hsource
  obtain ⟨plugin', hplugin', hindices'⟩ := pipelineCreate_indices hcreate hsink
  have hsourceLead := channels_iff_lead hplugin (source.outputAudioPorts.map (·.originalIndex))
    (by rw [← hindices .output, Instance.ports, List.map_map]; rfl)
  have hsinkLead := channels_iff_lead hplugin' (sink.inputAudioPorts.map (·.originalIndex))
    (by rw [← hindices' .input, Instance.ports, List.map_map]; rfl)
  rw [List.length_map, ← hin, ← hsgiven.outputs] at hsourceLead
  rw [List.length_map, ← hout, ← hkgiven.inputs] at hsinkLead
  rw [← hsourceLead, ← hsinkLead]
  constructor
  · intro h
    refine ⟨fun i hi => ?_, fun i hi => ?_⟩
    · rw [← exists_findBuffer_iff hsgiven.outputs_lt, ← hsourceBuf]
      exact h.source i hi
    · rw [← exists_findBuffer_iff hkgiven.inputs_lt, ← hsinkBuf]
      exact h.sink i hi
  · rintro ⟨hs, hk⟩
    have hall : ∀ i < pipeline.inputChannels, ∃ b < alloc.peakBuf,
        getSourceBuffer pipeline alloc i = some b := by
      intro i hi
      rw [hsourceBuf, exists_findBuffer_iff hsgiven.outputs_lt]
      exact hs i hi
    refine ⟨hall, fun i hi => ?_, fun i hi j _ hne heq => ?_⟩
    · rw [hsinkBuf, exists_findBuffer_iff hkgiven.inputs_lt]
      exact hk i hi
    · obtain ⟨b, _, hb⟩ := hall i hi
      rw [hb] at heq
      rw [hsourceBuf] at hb heq
      exact hne (findBuffer_inj hsgiven.apart hb heq.symm)

/-- A pipeline is created, and no module fails to load.  Where each output feeds at most one
input, none of its own instance, loading stays within the flags and every channel has its buffer
exactly when the audio ports of the source and the sink lead; and of any other pipeline this holds
if loading stays within the flags. -/
theorem channelsBuffered_iff {ini : Ini F E} {eval : E → Option Bool} {purpose : String}
    {fuel : Nat} {pipeline : Pipeline F}
    (hcreate : pipelineCreate ini eval purpose fuel = .done pipeline)
    (hload : pipelineLoad ini pipeline ≠ .failed) :
    (FeedsOnce pipeline.instances → ReadsOthers pipeline.instances →
      ((∃ alloc, pipelineLoad ini pipeline = .done alloc ∧ ChannelsBuffered pipeline alloc) ↔
        AudioPortsLead ini pipeline.source .output ∧ AudioPortsLead ini pipeline.sink .input)) ∧
    ∀ alloc, pipelineLoad ini pipeline = .done alloc →
      (ChannelsBuffered pipeline alloc ↔
        AudioPortsLead ini pipeline.source .output ∧
          AudioPortsLead ini pipeline.sink .input) := by
  refine ⟨fun honce hothers => ⟨?_, fun hlead => ?_⟩,
    fun alloc hdone => channelsBuffered_iff_lead hcreate hdone⟩
  · rintro ⟨alloc, hdone, hbuffered⟩
    exact (channelsBuffered_iff_lead hcreate hdone).mp hbuffered
  · obtain ⟨alloc, hdone⟩ :=
      pipelineLoad_of_feedsOnce (dependencyOrdered_of_readsOthers hcreate hothers) honce hload
    exact ⟨alloc, hdone, (channelsBuffered_iff_lead hcreate hdone).mpr hlead⟩

/-- One output that feeds both inputs of a module is counted as two buffers given back: the
second output of the module finds no free flag. -/
def twiceReadIni : Ini Unit Bool where
  plugins :=
    [⟨"builtin", "source", some "playback", none, [audioOut 0]⟩,
      ⟨"builtin", "mix_stereo", none, none, [audioIn 0, audioIn 0, audioOut 1, audioOut 2]⟩,
      ⟨"builtin", "sink", some "playback", none, [audioIn 1]⟩]
  flowTypes := [.audio, .audio, .audio]
  port_flow := by decide
  audio_flow := by decide

example : ∃ pipeline, pipelineCreate twiceReadIni some "playback" 4 = .done pipeline ∧
    pipelineLoad twiceReadIni pipeline = .fault := ⟨_, rfl, rfl⟩

/-! ## A source with a control port -/

/-- The source has a control port before its audio port. -/
def controlFirstIni : Ini Unit Bool where
  plugins :=
    [⟨"builtin", "source", some "playback", none, [⟨.input, .control, none, ()⟩, audioOut 0]⟩,
      ⟨"builtin", "sink", some "playback", none, [audioIn 0]⟩]
  flowTypes := [.audio]
  port_flow := by decide
  audio_flow := by decide

/-- The pipeline is created and loaded, and its only source channel has no buffer. -/
theorem not_channelsBuffered_controlFirst :
    ∃ pipeline alloc, pipelineCreate controlFirstIni some "playback" 4 = .done pipeline ∧
      pipelineLoad controlFirstIni pipeline = .done alloc ∧ pipeline.inputChannels = 1 ∧
      getSourceBuffer pipeline alloc 0 = none ∧ ¬ ChannelsBuffered pipeline alloc := by
  refine ⟨_, _, rfl, rfl, rfl, rfl, fun h => ?_⟩
  obtain ⟨b, _, hb⟩ := h.source 0 Nat.zero_lt_one
  cases hb

/-- A plugin with one port is led by it. -/
theorem audioPortsLead_of_singleton {ini : Ini F E} {p : Nat} {direction : PortDirection}
    (h : ∀ plugin, ini.plugins[p]? = some plugin → plugin.ports.length = 1) :
    AudioPortsLead ini p direction := by
  intro plugin hplugin k port hport _ j hj
  have hlt := (List.getElem?_eq_some_iff.mp hport).1
  rw [h plugin hplugin] at hlt
  omega

theorem channelsBuffered_bypass :
    ∃ alloc, pipelineCreate bypassIni some "playback" 4 = .done bypassPipeline ∧
      pipelineLoad bypassIni bypassPipeline = .done alloc ∧
      ChannelsBuffered bypassPipeline alloc := by
  have hcreate : pipelineCreate bypassIni some "playback" 4 = .done bypassPipeline := rfl
  have hsource : AudioPortsLead bypassIni bypassPipeline.source .output :=
    audioPortsLead_of_singleton fun plugin hplugin => by cases hplugin; rfl
  have hsink : AudioPortsLead bypassIni bypassPipeline.sink .input :=
    audioPortsLead_of_singleton fun plugin hplugin => by cases hplugin; rfl
  have honce : FeedsOnce bypassPipeline.instances := by
    unfold FeedsOnce
    decide
  have hothers : ReadsOthers bypassPipeline.instances := by
    unfold ReadsOthers
    decide
  obtain ⟨alloc, hload, hchannels⟩ :=
    ((channelsBuffered_iff hcreate nofun).1 honce hothers).mpr ⟨hsource, hsink⟩
  exact ⟨alloc, hcreate, hload, hchannels⟩

end DragonDevice.Dsp
