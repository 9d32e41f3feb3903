/-
  Dsp/SharedTransparent.lean --- when sharing buffers makes no difference.

  A created and loaded pipeline of builtin modules is its source, filters and its sink, in
  this order, and no module is marked as broken in place.  Where lanes are not crossed, the
  sink gets the same samples as from separate buffers.
-/
import DragonDevice.Dsp.SharedRun

set_option autoImplicit false

namespace DragonDevice.Dsp

open DragonDevice.Lib

variable {F E : Type}

/-! ## Loading -/

/-- An instance with the properties that all modules have. -/
def Instance.loaded (inst : Instance F) : Instance F := { inst with properties := 0 }

theorem mapM_loadModule {ini : Ini F E} {l l' : List (Instance F)}
    (h : l.mapM (loadModule ini) = some l') : l' = l.map Instance.loaded := by
  have hmap := @mapM_some_map _ _ _ _ _ _ Instance.loaded id (fun inst inst' hinst => ?_) h
  · rwa [List.map_id] at hmap
  · obtain ⟨m, -, hloaded⟩ := Option.map_eq_some_iff.mp hinst
    exact hloaded.symm

/-- All modules are loaded, and then the buffers are allocated. -/
theorem pipelineLoad_done {ini : Ini F E} {pipeline : Pipeline F} {alloc : Allocation F}
    (h : pipelineLoad ini pipeline = .done alloc) :
    ∃ loaded, pipeline.instances.mapM (loadModule ini) = some loaded ∧
      allocateBuffers (pipeline.instances.map Instance.loaded) = some alloc := by
  unfold pipelineLoad at h
  split at h
  · cases h
  · rename_i loaded hloaded
    rw [← mapM_loadModule hloaded]
    split at h
    · cases h
    · rename_i alloc' halloc
      cases h
      exact ⟨loaded, hloaded, halloc⟩

theorem allocateBuffers_of_pipelineLoad {ini : Ini F E} {pipeline : Pipeline F}
    {alloc : Allocation F} (h : pipelineLoad ini pipeline = .done alloc) :
    allocateBuffers (pipeline.instances.map Instance.loaded) = some alloc := by
  obtain ⟨_, _, halloc⟩ := pipelineLoad_done h
  exact halloc

/-- What is allocated, is loaded unless a module is missing. -/
theorem pipelineLoad_of_allocateBuffers {ini : Ini F E} {pipeline : Pipeline F}
    {alloc : Allocation F} (hload : pipelineLoad ini pipeline ≠ .failed)
    (halloc : allocateBuffers (pipeline.instances.map Instance.loaded) = some alloc) :
    pipelineLoad ini pipeline = .done alloc := by
  unfold pipelineLoad at hload ⊢
  split at hload
  · exact absurd rfl hload
  · rename_i loaded hloaded
    rw [← mapM_loadModule hloaded] at halloc
    rw [halloc]

theorem HasOutput.loaded {l : List (Instance F)} {type : PortType} {ref : PortRef}
    (h : HasOutput l type ref) : HasOutput (l.map Instance.loaded) type ref := by
  obtain ⟨inst, hmem, hplugin, hindex⟩ := h
  refine ⟨inst.loaded, List.mem_map_of_mem hmem, hplugin, ?_⟩
  cases type with
  | audio => exact hindex
  | control => exact hindex

theorem DependencyOrdered.loaded {l : List (Instance F)} (h : DependencyOrdered l) :
    DependencyOrdered (l.map Instance.loaded) := by
  refine ⟨?_, fun inst hinst => ?_, fun l₁ inst l₂ hl port hport => ?_⟩
  · rw [List.map_map]
    exact h.plugins
  · obtain ⟨inst', hmem, heq⟩ := List.mem_map.mp hinst
    rw [← heq]
    exact h.outputs inst' hmem
  · obtain ⟨m₁, m, hm, h₁, h₂⟩ := List.map_eq_append_iff.mp hl
    obtain ⟨inst', m₂, hm₂, heq, _⟩ := List.map_eq_cons_iff.mp h₂
    rw [← heq] at hport
    obtain ⟨ref, hpeer, hout⟩ := h.peers m₁ inst' m₂ (by rw [hm, hm₂]) port hport
    refine ⟨ref, hpeer, ?_⟩
    rw [← h₁]
    exact hout.loaded

theorem FeedsOnce.loaded {l : List (Instance F)} (h : FeedsOnce l) :
    FeedsOnce (l.map Instance.loaded) := by
  unfold FeedsOnce
  rw [List.flatMap_map]
  exact h

/-- The instances are in the order of dependency where none reads an output of its own. -/
theorem dependencyOrdered_of_readsOthers {ini : Ini F E} {eval : E → Option Bool}
    {purpose : String} {fuel : Nat} {pipeline : Pipeline F}
    (hcreate : pipelineCreate ini eval purpose fuel = .done pipeline)
    (hothers : ReadsOthers pipeline.instances) : DependencyOrdered pipeline.instances :=
  dependencyOrdered_of_foreign hcreate fun inst hinst _ hport _ _ _ hpeer =>
    hothers inst hinst _ (Instance.mem_reads.mpr ⟨_, hport, hpeer⟩) rfl

/-- The flags suffice where each output feeds at most one input. -/
theorem pipelineLoad_of_feedsOnce {ini : Ini F E} {pipeline : Pipeline F}
    (hord : DependencyOrdered pipeline.instances) (honce : FeedsOnce pipeline.instances)
    (hload : pipelineLoad ini pipeline ≠ .failed) :
    ∃ alloc, pipelineLoad ini pipeline = .done alloc := by
  obtain ⟨alloc, halloc, _⟩ := allAssigned_of_allocateBuffers hord.loaded honce.loaded
  exact ⟨alloc, pipelineLoad_of_allocateBuffers hload halloc⟩

theorem lanes_loaded (l : List (Instance F)) : lanes (l.map Instance.loaded) = lanes l := by
  unfold lanes
  rw [List.foldl_map]
  rfl

/-! ## The shape of a created pipeline -/

theorem loadBuiltin_empty {plugin : Plugin F E} (hlib : plugin.library = "builtin")
    (hlabel : plugin.label = "source" ∨ plugin.label = "sink") :
    loadBuiltin plugin = some .empty := by
  cases hlabel with
  | inl hlabel => simp [loadBuiltin, hlib, hlabel]
  | inr hlabel => simp [loadBuiltin, hlib, hlabel]

/-- The source comes first and the sink last. -/
theorem pipeline_split {ini : Ini F E} {eval : E → Option Bool} {purpose : String} {fuel : Nat}
    {pipeline : Pipeline F} (hcreate : pipelineCreate ini eval purpose fuel = .done pipeline)
    (hord : DependencyOrdered pipeline.instances) (hbuiltin : BuiltinPipeline ini pipeline) :
    ∃ source mid sink, pipeline.instances = source :: (mid ++ [sink]) ∧
      source.plugin = pipeline.source ∧ sink.plugin = pipeline.sink ∧
      ∀ inst ∈ mid, inst.plugin ≠ pipeline.source ∧ inst.plugin ≠ pipeline.sink := by
  have hmem := pipelineCreate_source hcreate
  obtain ⟨front, sink, hinstances, hsinkplugin⟩ := pipelineCreate_sink hcreate
  have hne := pipelineCreate_source_ne_sink hcreate
  have hnodup := hord.plugins
  rw [hinstances, List.map_append, List.map_singleton, hsinkplugin] at hnodup hmem
  have hsinkfront : ∀ inst ∈ front, inst.plugin ≠ pipeline.sink := fun inst hinst =>
    (List.nodup_append.mp hnodup).2.2 _ (List.mem_map_of_mem hinst) _ List.mem_cons_self
  cases front with
  | nil => exact absurd (List.mem_singleton.mp hmem) hne
  | cons source mid =>
      -- the first instance has nothing to read from, so it is no filter
      have hfirst : source.plugin = pipeline.source := by
        by_contra hnot
        have hin : source ∈ pipeline.instances := by
          rw [hinstances]
          exact List.mem_cons_self
        obtain ⟨m, hmodule, hfits⟩ := hbuiltin.filters source hin hnot
          (hsinkfront source List.mem_cons_self)
        have hinput : ∃ port, port ∈ source.inputAudioPorts := by
          cases filterPorts_of_fits hmodule hfits with
          | mono _ hports _ _ _ => exact ⟨_, by rw [hports]; exact List.mem_cons_self⟩
          | stereo _ _ hports _ _ _ _ _ => exact ⟨_, by rw [hports]; exact List.mem_cons_self⟩
        obtain ⟨port, hport⟩ := hinput
        obtain ⟨ref, _, inst, hinst, _⟩ :=
          hord.peers [] source (mid ++ [sink]) hinstances port hport
        cases hinst
      refine ⟨source, mid, sink, hinstances, hfirst, hsinkplugin, fun inst hinst => ⟨?_, ?_⟩⟩
      · intro heq
        rw [List.map_cons, List.cons_append, hfirst, List.nodup_cons] at hnodup
        refine hnodup.1 (List.mem_append_left _ ?_)
        rw [← heq]
        exact List.mem_map_of_mem hinst
      · exact hsinkfront inst (List.mem_cons_of_mem _ hinst)

/-- What an assigned instance has from the one it comes from. -/
structure ComesFrom (inst inst' : Instance F) : Prop where
  plugin : inst'.plugin = inst.plugin
  reads : inst'.reads = inst.reads
  inputs : inst'.inputAudioPorts.map (·.originalIndex) = inst.inputAudioPorts.map (·.originalIndex)
  outputs : inst'.outputAudioPorts.map (·.originalIndex) =
    inst.outputAudioPorts.map (·.originalIndex)
  inplace : inst'.inplaceBroken = false

theorem comesFrom_of_wiring {inst inst' : Instance F}
    (h : inst'.wiring = inst.loaded.wiring) : ComesFrom inst inst' := by
  refine ⟨?_, ?_, ?_, ?_, ?_⟩
  · rw [← inst'.wiring_plugin, h]
    rfl
  · rw [← inst'.wiring_reads, h, inst.loaded.wiring_reads]
    rfl
  · have hports := congrArg (fun i => (i.ports .input .audio).map (·.1)) h
    simp only [Instance.wiring_ports] at hports
    rw [Instance.ports, Instance.ports, List.map_map, List.map_map] at hports
    exact hports
  · rw [← inst'.wiring_indices, h, inst.loaded.wiring_indices]
    rfl
  · have hproperties : inst'.properties = 0 := congrArg (·.properties) h
    rw [Instance.inplaceBroken, hproperties]
    rfl

/-! ## Transparent sharing -/

theorem exists_comesFrom {l l' : List (Instance F)}
    (h : l'.map Instance.wiring = (l.map Instance.loaded).map Instance.wiring) {inst' : Instance F}
    (hmem : inst' ∈ l') : ∃ inst ∈ l, ComesFrom inst inst' := by
  have hwiring : inst'.wiring ∈ (l.map Instance.loaded).map Instance.wiring := by
    rw [← h]
    exact List.mem_map_of_mem hmem
  rw [List.map_map] at hwiring
  obtain ⟨inst, hinst, heq⟩ := List.mem_map.mp hwiring
  exact ⟨inst, hinst, comesFrom_of_wiring heq.symm⟩

theorem Uncrossed.of_wiring {ini : Ini F E} {l l' : List (Instance F)} (hcross : Uncrossed ini l)
    (h : l'.map Instance.wiring = (l.map Instance.loaded).map Instance.wiring) :
    Uncrossed ini l' := by
  intro inst' hmem m hmodule hturn r r' hreads
  obtain ⟨inst, hinst, hcomes⟩ := exists_comesFrom h hmem
  rw [lanes_of_wiring h, lanes_loaded]
  rw [hcomes.plugin] at hmodule
  rw [hcomes.reads] at hreads
  exact hcross inst hinst m hmodule hturn r r' hreads

/-- The source has no inputs, the sink no outputs, and the outputs of a filter stand behind its
inputs, so no walk upstream comes back to an instance. -/
theorem BuiltinPipeline.dependencyOrdered {ini : Ini F E} {eval : E → Option Bool}
    {purpose : String} {fuel : Nat} {pipeline : Pipeline F}
    (hbuiltin : BuiltinPipeline ini pipeline)
    (hcreate : pipelineCreate ini eval purpose fuel = .done pipeline) :
    DependencyOrdered pipeline.instances := by
  refine dependencyOrdered_of_foreign hcreate fun inst hinst port hport own hown hlt _ => ?_
  by_cases hsource : inst.plugin = pipeline.source
  · rw [hbuiltin.source inst hinst hsource] at hport
    cases hport
  · by_cases hsink : inst.plugin = pipeline.sink
    · rw [hbuiltin.sink inst hinst hsink] at hown
      cases hown
    · obtain ⟨m, hmodule, hfits⟩ := hbuiltin.filters inst hinst hsource hsink
      cases filterPorts_of_fits hmodule hfits with
      | mono _ hinputs houtputs ha hc =>
          rw [hinputs, List.mem_singleton] at hport
          rw [hport, ha] at hlt
          exact Nat.not_lt_zero _ hlt
      | stereo _ _ hinputs houtputs ha hb hc hd =>
          rw [hinputs, List.mem_pair] at hport
          rw [houtputs, List.mem_pair] at hown
          have hin : port.originalIndex ≤ 1 := by
            obtain rfl | rfl := hport <;> omega
          have hout : 2 ≤ own.originalIndex := by
            obtain rfl | rfl := hown <;> omega
          omega

/-- The sink of a created and loaded pipeline of builtin modules gets the same samples from
shared buffers, if no module that copies its inputs in turn has them crossed. -/
theorem sharesTransparently_of_uncrossed {ini : Ini F E} {eval : E → Option Bool}
    {purpose : String} {fuel : Nat} {pipeline : Pipeline F}
    (hcreate : pipelineCreate ini eval purpose fuel = .done pipeline)
    (hload : pipelineLoad ini pipeline ≠ .failed) (hbuiltin : BuiltinPipeline ini pipeline)
    (honce : FeedsOnce pipeline.instances) (huncrossed : Uncrossed ini pipeline.instances) :
    ∃ alloc, pipelineLoad ini pipeline = .done alloc ∧
      SharesTransparently ini pipeline alloc := by
  have hord := hbuiltin.dependencyOrdered hcreate
  obtain ⟨alloc, hdone⟩ := pipelineLoad_of_feedsOnce hord honce hload
  refine ⟨alloc, hdone, ?_⟩
  obtain ⟨source, mid, sink, hinstances, hsource, hsink, hmid⟩ :=
    pipeline_split hcreate hord hbuiltin
  obtain ⟨alloc', halloc, hwiring, _, hall⟩ :=
    allAssigned_of_allocateBuffers hord.loaded honce.loaded
  rw [allocateBuffers_of_pipelineLoad hdone] at halloc
  cases halloc
  have hsplit := hwiring
  rw [hinstances, List.map_cons, List.map_cons, List.map_append, List.map_append] at hsplit
  obtain ⟨source', rest', hl, hs, hrest⟩ := List.map_eq_cons_iff.mp hsplit
  obtain ⟨mid', last', hl', hmid', hlast⟩ := List.map_eq_append_iff.mp hrest
  obtain ⟨sink', hsing, hsink'⟩ := List.map_eq_singleton_iff.mp hlast
  rw [hl', hsing] at hl
  have hsourceFrom := comesFrom_of_wiring hs
  have hsinkFrom := comesFrom_of_wiring hsink'
  have hsourceMem : source ∈ pipeline.instances := by
    rw [hinstances]
    exact List.mem_cons_self
  have hempty : ini.module? source'.plugin = some .empty := by
    obtain ⟨plugin, hplugin, hlib, hlabel, _⟩ :=
      findEnabledBuiltinPlugin_spec (created_of_pipelineCreate hcreate).source
    rw [hsourceFrom.plugin, hsource, Ini.module?, hplugin]
    exact loadBuiltin_empty hlib (Or.inl hlabel)
  have hempty' : ini.module? sink'.plugin = some .empty := by
    obtain ⟨plugin, hplugin, hlib, hlabel, _⟩ :=
      findEnabledBuiltinPlugin_spec (created_of_pipelineCreate hcreate).sink
    rw [hsinkFrom.plugin, hsink, Ini.module?, hplugin]
    exact loadBuiltin_empty hlib (Or.inr hlabel)
  have hnoinputs : source'.inputAudioPorts = [] := by
    have hinputs := hsourceFrom.inputs
    rw [hbuiltin.source source hsourceMem hsource] at hinputs
    exact List.map_eq_nil_iff.mp hinputs
  have hfilters : ∀ inst' ∈ mid', FilterPorts ini inst' ∧ inst'.inplaceBroken = false := by
    intro inst' hmem
    obtain ⟨inst, hinst, hcomes⟩ := exists_comesFrom hmid' hmem
    obtain ⟨hne, hne'⟩ := hmid inst hinst
    have hin : inst ∈ pipeline.instances := by
      rw [hinstances]
      exact List.mem_cons_of_mem _ (List.mem_append_left _ hinst)
    obtain ⟨m, hmodule, hfits⟩ := hbuiltin.filters inst hin hne hne'
    rw [← hcomes.plugin] at hmodule
    rw [FitsModule, ← hcomes.inputs, ← hcomes.outputs] at hfits
    exact ⟨filterPorts_of_fits hmodule hfits, hcomes.inplace⟩
  have hord' : DependencyOrdered alloc.instances := hord.loaded.of_wiring hwiring
  intro S _ _ n filters shared own hstart
  have hsourceMem' : source' ∈ alloc.instances := by
    rw [hl]
    exact List.mem_cons_self
  obtain ⟨shared', own', hshared, hown, hsame⟩ := run_pipeline filters hall hord'
    (honce.loaded.of_wiring hwiring) (huncrossed.of_wiring hwiring) hl
    ⟨hempty, hnoinputs, hsourceFrom.inplace⟩ hfilters hempty'
    (hstart source' hsourceMem' (hsourceFrom.plugin.trans hsource))
  refine ⟨shared', own', hshared, hown, fun inst hmem hplugin port hport => ?_⟩
  have heq : inst = sink' := by
    have hmem' : sink' ∈ alloc.instances := by
      rw [hl]
      exact List.mem_cons_of_mem _ (List.mem_append_right _ List.mem_cons_self)
    refine List.inj_on_of_nodup_map hord'.plugins hmem hmem' ?_
    rw [hplugin, hsinkFrom.plugin, hsink]
  rw [heq] at hport
  exact hsame port hport

/-! ## Straight and crossed inputs -/

/-- `invert_lr` with the channels as they come. -/
def straightIni : Ini Unit Bool where
  plugins :=
    [⟨"builtin", "source", some "playback", none, [audioOut 0, audioOut 1]⟩,
      ⟨"builtin", "invert_lr", none, none, [audioIn 0, audioIn 1, audioOut 2, audioOut 3]⟩,
      ⟨"builtin", "sink", some "playback", none, [audioIn 2, audioIn 3]⟩]
  flowTypes := [.audio, .audio, .audio, .audio]
  port_flow := by decide
  audio_flow := by decide

/-- `invert_lr` with the channels swapped. -/
def crossedIni : Ini Unit Bool where
  plugins :=
    [⟨"builtin", "source", some "playback", none, [audioOut 0, audioOut 1]⟩,
      ⟨"builtin", "invert_lr", none, none, [audioIn 1, audioIn 0, audioOut 2, audioOut 3]⟩,
      ⟨"builtin", "sink", some "playback", none, [audioIn 2, audioIn 3]⟩]
  flowTypes := [.audio, .audio, .audio, .audio]
  port_flow := by decide
  audio_flow := by decide

/-- The instances of both, with the outputs and buffers that `invert_lr` reads. -/
def invertInstances (r r' : PortRef) (b b' c d : Nat) : List (Instance Unit) :=
  [⟨0, [], [⟨0, none, 0⟩, ⟨1, none, d⟩], [], [], 0⟩,
    ⟨1, [⟨0, some r, b⟩, ⟨1, some r', b'⟩], [⟨2, none, c⟩, ⟨3, none, d⟩], [], [], 0⟩,
    ⟨2, [⟨0, some ⟨1, 2⟩, c⟩, ⟨1, some ⟨1, 3⟩, d⟩], [], [], [], 0⟩]

def invertPipeline (r r' : PortRef) : Pipeline Unit where
  instances := invertInstances r r' 0 0 0 0
  source := 0
  sink := 2
  inputChannels := 2
  outputChannels := 2

theorem pipelineCreate_straight : pipelineCreate straightIni some "playback" 4 =
    .done (invertPipeline ⟨0, 0⟩ ⟨0, 1⟩) := rfl

theorem pipelineCreate_crossed : pipelineCreate crossedIni some "playback" 4 =
    .done (invertPipeline ⟨0, 1⟩ ⟨0, 0⟩) := rfl

theorem pipelineLoad_straight : pipelineLoad straightIni (invertPipeline ⟨0, 0⟩ ⟨0, 1⟩) =
    .done ⟨2, invertInstances ⟨0, 0⟩ ⟨0, 1⟩ 0 1 0 1⟩ := rfl

theorem pipelineLoad_crossed : pipelineLoad crossedIni (invertPipeline ⟨0, 1⟩ ⟨0, 0⟩) =
    .done ⟨2, invertInstances ⟨0, 1⟩ ⟨0, 0⟩ 1 0 0 1⟩ := rfl

theorem builtinPipeline_invert {ini : Ini Unit Bool} {r r' : PortRef}
    (hmodule : ini.module? 1 = some .invertLr) : BuiltinPipeline ini (invertPipeline r r') := by
  refine ⟨fun inst hmem hplugin => ?_, fun inst hmem hplugin => ?_, fun inst hmem hne hne' => ?_⟩
  · simp only [invertPipeline, invertInstances, List.mem_cons, List.not_mem_nil, or_false] at hmem
    obtain rfl | rfl | rfl := hmem
    · rfl
    · cases hplugin
    · cases hplugin
  · simp only [invertPipeline, invertInstances, List.mem_cons, List.not_mem_nil, or_false] at hmem
    obtain rfl | rfl | rfl := hmem
    · cases hplugin
    · cases hplugin
    · rfl
  · simp only [invertPipeline, invertInstances, List.mem_cons, List.not_mem_nil, or_false] at hmem
    obtain rfl | rfl | rfl := hmem
    · exact absurd rfl hne
    · exact ⟨.invertLr, hmodule, rfl⟩
    · exact absurd rfl hne'

/-- The straight inputs are transparent. -/
theorem sharesTransparently_straight :
    ∃ alloc, pipelineLoad straightIni (invertPipeline ⟨0, 0⟩ ⟨0, 1⟩) = .done alloc ∧
      SharesTransparently straightIni (invertPipeline ⟨0, 0⟩ ⟨0, 1⟩) alloc := by
  refine sharesTransparently_of_uncrossed pipelineCreate_straight
    (by rw [pipelineLoad_straight]; exact nofun) (builtinPipeline_invert rfl) ?_ ?_
  · unfold FeedsOnce
    decide
  · intro inst hmem m hmodule hturn r r' hreads
    simp only [invertPipeline, invertInstances, List.mem_cons, List.not_mem_nil, or_false] at hmem
    obtain rfl | rfl | rfl := hmem
    · cases hreads
    · cases hreads
      decide
    · cases hmodule
      cases hturn

/-- With the inputs swapped the second channel is lost: the sink gets the first one twice. -/
theorem not_sharesTransparently_crossed :
    pipelineCreate crossedIni some "playback" 4 = .done (invertPipeline ⟨0, 1⟩ ⟨0, 0⟩) ∧
      pipelineLoad crossedIni (invertPipeline ⟨0, 1⟩ ⟨0, 0⟩) =
        .done ⟨2, invertInstances ⟨0, 1⟩ ⟨0, 0⟩ 1 0 0 1⟩ ∧
      BuiltinPipeline crossedIni (invertPipeline ⟨0, 1⟩ ⟨0, 0⟩) ∧
      FeedsOnce (invertPipeline ⟨0, 1⟩ ⟨0, 0⟩).instances ∧
      ¬ SharesTransparently crossedIni (invertPipeline ⟨0, 1⟩ ⟨0, 0⟩)
        ⟨2, invertInstances ⟨0, 1⟩ ⟨0, 0⟩ 1 0 0 1⟩ := by
  refine ⟨pipelineCreate_crossed, pipelineLoad_crossed, builtinPipeline_invert rfl, ?_,
    fun h => ?_⟩
  · unfold FeedsOnce
    decide
  · -- one sample: 5 on the first channel of the source, 7 on the second
    obtain ⟨shared', own', hshared, hown, hsame⟩ :=
      h Int 1 ⟨fun _ b => b, fun _ b => b, fun _ b => b⟩
        (fun b _ => if b = 0 then 5 else 7) (fun ref _ => if ref = ⟨0, 0⟩ then 5 else 7) (by
        intro inst hmem hplugin v hv
        simp only [invertInstances, List.mem_cons, List.not_mem_nil, or_false] at hmem
        obtain rfl | rfl | rfl := hmem
        · simp only [Instance.values, List.map_cons, List.map_nil, List.mem_cons,
            List.not_mem_nil, or_false] at hv
          obtain rfl | rfl := hv
          · rfl
          · rfl
        · cases hplugin
        · cases hplugin)
    cases hshared
    cases hown
    obtain ⟨ref, hpeer, heq⟩ := hsame ⟨2, [⟨0, some ⟨1, 2⟩, 0⟩, ⟨1, some ⟨1, 3⟩, 1⟩], [], [], [], 0⟩
      (by simp [invertInstances]) rfl ⟨1, some ⟨1, 3⟩, 1⟩ (by simp)
    cases hpeer
    have hsample := congrFun heq 0
    exact absurd hsample (by decide)

end DragonDevice.Dsp
