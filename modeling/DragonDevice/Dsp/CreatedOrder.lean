/-
  Dsp/CreatedOrder.lean --- created pipelines are in the order of dependency.

  An input is connected to an instance before its own, or to an output of its own that
  stands before it.  The builtin modules have their outputs behind their inputs, and where
  the walk meets no cycle the search for an origin ends at an instance that is behind it; so
  the buffers of such a pipeline can be assigned.  The sink is the plugin the walk leaves
  last.
-/
import DragonDevice.Dsp.PipelineCycles
import DragonDevice.Dsp.Buffers

set_option autoImplicit false

namespace DragonDevice.Dsp

open DragonDevice.Lib

variable {F E : Type}

/-- No plugin that the walk comes to is on a cycle. -/
def FollowsNoCycle (ini : Ini F E) (sink : Nat) : Prop :=
  ∀ p, Relation.ReflTransGen (Follows ini) sink p → ¬ Relation.TransGen (Follows ini) p p

/-- The search for an origin ends before the plugin it started from. -/
theorem findOriginPort_mem {ini : Ini F E} {order : List Nat} (h : LeftInOrder ini order)
    {built : List Nat} {out : PortRef} :
    ∀ fuel ref port l l', order = l ++ ref.plugin :: l' → ini.port? ref = some port →
      port.direction = .input → findOriginPort ini built fuel ref = .done out → out.plugin ∈ l := by
  intro fuel
  induction fuel with
  | zero =>
      intro ref port l l' _ _ _ hfind
      cases hfind
  | succ fuel ih =>
      intro ref port l l' horder hport hdir hfind
      obtain ⟨port', id, flow, q, hport', hid, hflow, hq, hcases⟩ := findOriginPort_step hfind
      rw [hport] at hport'
      cases hport'
      have hback : FlowsBack ini ref.plugin q :=
        ⟨port, ⟨ref.index, id, flow, hport, hid, hflow, hq⟩, hdir⟩
      have hmem : ref.plugin ∈ order := by
        rw [horder]
        exact List.mem_append_right _ List.mem_cons_self
      have hbefore := h.before ref.plugin hmem q hback
      have hnodup := h.nodup
      rw [horder] at hbefore hnodup
      have hql := hbefore.mem_left hnodup
      cases hcases with
      | inl hfound =>
          rw [hfound.2]
          exact hql
      | inr hbypass =>
          obtain ⟨_, plugin, index, hplugin, hindex, hrest⟩ := hbypass
          unfold bypass at hindex
          split at hindex
          · obtain ⟨pi, hpi, hpidir, _⟩ := nthPort_eq_some hindex
            obtain ⟨l₁, l₂, hl⟩ := List.append_of_mem hql
            have hout := ih ⟨q, index⟩ pi l₁ (l₂ ++ ref.plugin :: l')
              (by rw [horder, hl, List.append_assoc, List.cons_append])
              (by rw [Ini.port?, hplugin]; exact hpi) hpidir hrest
            rw [hl]
            exact List.mem_append_left _ hout
          · cases hindex

theorem leftInOrder_of_followsNoCycle {ini : Ini F E} {fuel sink : Nat}
    (hsink : sink < ini.plugins.length) (h : FollowsNoCycle ini sink) :
    LeftInOrder ini (walk (upstream ini) fuel sink []).order := by
  have hw : WalkFacts (upstream ini) (fun b => b = sink) []
      (walk (upstream ini) fuel sink []) := walk_facts fuel sink []
  refine leftInOrder_of_walk hsink fun p hp q hback hrest => ?_
  obtain ⟨a, ha, hreach⟩ := hw.reach p hp
  rw [ha] at hreach
  exact h p (follows_of_reach hreach) (Relation.TransGen.head' hback.follows hrest)

/-- What an audio input of a created pipeline is connected to: an output of an instance before its
own, or one of its own that stands before it. -/
theorem pipelineCreate_peer {ini : Ini F E} {eval : E → Option Bool} {purpose : String}
    {fuel : Nat} {pipeline : Pipeline F}
    (hcreate : pipelineCreate ini eval purpose fuel = .done pipeline) {l₁ l₂ : List (Instance F)}
    {inst : Instance F} (hinstances : pipeline.instances = l₁ ++ inst :: l₂) {port : AudioPort}
    (hport : port ∈ inst.inputAudioPorts) :
    ∃ out, port.peer = some out ∧
      findOriginPort ini (l₁.map (·.plugin) ++ [inst.plugin]) fuel
        ⟨inst.plugin, port.originalIndex⟩ = .done out ∧
      (HasOutput l₁ .audio out ∨ out.plugin = inst.plugin ∧ out.index < port.originalIndex ∧
        ∃ own ∈ inst.outputAudioPorts, own.originalIndex = out.index) := by
  obtain ⟨_, _, hfold⟩ := pipelineCreate_done hcreate
  have hget : pipeline.instances[l₁.length]? = some inst := by
    rw [hinstances, List.getElem?_append_right (Nat.le_refl _), Nat.sub_self]
    rfl
  obtain ⟨_, _, plugin, hplugin, hports⟩ := (instancesBuilt_of_fold hfold).each _ inst hget
  rw [hinstances, List.take_left] at hports
  have hmem : (port.originalIndex, port.peer) ∈ inst.ports .input .audio :=
    List.mem_map_of_mem hport
  obtain ⟨p, hp, hkind, hpeer⟩ := hports.input hmem
  cases hpeer with
  | inl hnone =>
      exact absurd hnone.1 (ini.audio_flow plugin (List.mem_of_getElem? hplugin) p
        (List.mem_of_getElem? hp) (Port.is_iff.mp hkind).2)
  | inr hsome =>
      obtain ⟨_, out, hpeer, horigin, hfound⟩ := hsome
      refine ⟨out, hpeer, horigin, hfound.imp_right fun hown => ?_⟩
      obtain ⟨hself, q, hq, hout, hindex⟩ := hown
      obtain ⟨j, hj, heq⟩ := List.getElem_of_mem hq
      rw [List.length_take] at hj
      rw [List.getElem_take, List.getElem_zipIdx, Nat.zero_add] at heq
      have hlt : out.index < port.originalIndex := by
        rw [← hindex, ← heq]
        exact Nat.lt_of_lt_of_le hj (Nat.min_le_left _ _)
      have hout' : out.index ∈ (inst.ports .output .audio).map (·.1) := by
        rw [hports.indices]
        exact List.mem_map.mpr ⟨q, List.mem_filter.mpr ⟨List.mem_of_mem_take hq, hout⟩, hindex⟩
      rw [Instance.ports, List.map_map] at hout'
      obtain ⟨own, hown, hownIndex⟩ := List.mem_map.mp hout'
      exact ⟨hself, hlt, own, hown, hownIndex⟩

/-- The instances of a created pipeline are in the order of dependency, unless an input reads an
output of its own instance that stands before it. -/
theorem dependencyOrdered_of_foreign {ini : Ini F E} {eval : E → Option Bool}
    {purpose : String} {fuel : Nat} {pipeline : Pipeline F}
    (hcreate : pipelineCreate ini eval purpose fuel = .done pipeline)
    (hforeign : ∀ inst ∈ pipeline.instances, ∀ port ∈ inst.inputAudioPorts,
      ∀ own ∈ inst.outputAudioPorts, own.originalIndex < port.originalIndex →
        port.peer ≠ some ⟨inst.plugin, own.originalIndex⟩) :
    DependencyOrdered pipeline.instances := by
  obtain ⟨hsink, _, hfold⟩ := pipelineCreate_done hcreate
  have hbuilt := instancesBuilt_of_fold hfold
  have hw : WalkFacts (upstream ini) (fun b => b = pipeline.sink) []
      (walk (upstream ini) fuel pipeline.sink []) := walk_facts fuel pipeline.sink []
  refine ⟨?_, fun inst hinst => ?_, fun l₁ inst l₂ hinstances port hport => ?_⟩
  · rw [hbuilt.plugins]
    exact hw.nodup.filter _
  · obtain ⟨k, hk⟩ := List.getElem?_of_mem hinst
    obtain ⟨_, _, plugin, hplugin, hports⟩ := hbuilt.each k inst hk
    have hindices := hports.indices .output .audio
    rw [Instance.ports, List.map_map] at hindices
    change inst.outputAudioPorts.map (·.originalIndex) = _ at hindices
    rw [hindices]
    refine List.Nodup.sublist (List.filter_sublist.map _) ?_
    rw [List.zipIdx_map_snd]
    exact List.nodup_range'
  · obtain ⟨out, hpeer, _, hfound⟩ := pipelineCreate_peer hcreate hinstances hport
    refine ⟨out, hpeer, hfound.resolve_right fun hself => ?_⟩
    obtain ⟨hplugin, hlt, own, hown, hindex⟩ := hself
    have hinst : inst ∈ pipeline.instances := by
      rw [hinstances]
      exact List.mem_append_right _ List.mem_cons_self
    refine hforeign inst hinst port hport own hown (hindex ▸ hlt) ?_
    rw [hpeer, hindex, ← hplugin]

/-- Without cycles every input of a created pipeline is connected to an instance before its own. -/
theorem dependencyOrdered_of_pipelineCreate {ini : Ini F E} {eval : E → Option Bool}
    {purpose : String} {fuel : Nat} {pipeline : Pipeline F}
    (hcreate : pipelineCreate ini eval purpose fuel = .done pipeline)
    (hcycle : FollowsNoCycle ini pipeline.sink) : DependencyOrdered pipeline.instances := by
  obtain ⟨hsink, _, hfold⟩ := pipelineCreate_done hcreate
  have horder : LeftInOrder ini (walk (upstream ini) fuel pipeline.sink []).order :=
    leftInOrder_of_followsNoCycle (findEnabledBuiltinPlugin_lt hsink) hcycle
  refine dependencyOrdered_of_foreign hcreate fun inst hinst port hport own _ _ hself => ?_
  obtain ⟨l₁, l₂, hinstances⟩ := List.append_of_mem hinst
  have hget : pipeline.instances[l₁.length]? = some inst := by
    rw [hinstances, List.getElem?_append_right (Nat.le_refl _), Nat.sub_self]
    rfl
  obtain ⟨_, ⟨p₁, p₂, hplace, _⟩, plugin, hplugin, hports⟩ :=
    (instancesBuilt_of_fold hfold).each _ inst hget
  have hmem : (port.originalIndex, port.peer) ∈ inst.ports .input .audio :=
    List.mem_map_of_mem hport
  obtain ⟨p, hp, hkind, _⟩ := hports.input hmem
  obtain ⟨out, hpeer, horigin, _⟩ := pipelineCreate_peer hcreate hinstances hport
  have hbefore := findOriginPort_mem horder fuel ⟨inst.plugin, port.originalIndex⟩ p p₁ p₂ hplace
    (by rw [Ini.port?, hplugin]; exact hp) (Port.is_iff.mp hkind).1 horigin
  rw [hself] at hpeer
  cases hpeer
  have hnodup := horder.nodup
  rw [hplace] at hnodup
  exact (List.nodup_append.mp hnodup).2.2 inst.plugin hbefore inst.plugin List.mem_cons_self rfl

/-! ## Source and sink -/

/-- The source of a created pipeline has an instance. -/
theorem pipelineCreate_source {ini : Ini F E} {eval : E → Option Bool} {purpose : String}
    {fuel : Nat} {pipeline : Pipeline F}
    (h : pipelineCreate ini eval purpose fuel = .done pipeline) :
    pipeline.source ∈ pipeline.instances.map (·.plugin) := by
  obtain ⟨source, _, hsource, -⟩ := (created_of_pipelineCreate h).channels
  refine List.mem_map.mpr ⟨source, List.mem_of_find?_eq_some hsource, ?_⟩
  exact beq_iff_eq.mp (List.find?_some hsource :)

/-- The sink is the last instance. -/
theorem pipelineCreate_sink {ini : Ini F E} {eval : E → Option Bool} {purpose : String}
    {fuel : Nat} {pipeline : Pipeline F}
    (h : pipelineCreate ini eval purpose fuel = .done pipeline) :
    ∃ front sink, pipeline.instances = front ++ [sink] ∧ sink.plugin = pipeline.sink := by
  obtain ⟨hsink, hend, hfold⟩ := pipelineCreate_done h
  have hbuilt := instancesBuilt_of_fold hfold
  have hlast : ∃ l, (walk (upstream ini) fuel pipeline.sink []).order = l ++ [pipeline.sink] := by
    cases fuel with
    | zero => cases hend
    | succ fuel =>
        rw [walk, if_neg List.not_mem_nil] at hend ⊢
        obtain ⟨hinner, _⟩ := Walked.complete_of_andThen hend
        rw [Walked.andThen, hinner]
        exact ⟨_, rfl⟩
  obtain ⟨l, hl⟩ := hlast
  obtain ⟨plugin, hplugin, _, _, henabled⟩ := findEnabledBuiltinPlugin_spec hsink
  have henabled : isEnabled ini eval pipeline.sink = true :=
    isEnabled_iff.mpr ⟨plugin, hplugin, henabled⟩
  have hplugins := hbuilt.plugins
  rw [hl, List.filter_append, List.filter_cons_of_pos henabled, List.filter_nil] at hplugins
  obtain ⟨front, back, hinstances, _, hback⟩ := List.map_eq_append_iff.mp hplugins
  obtain ⟨sink, hsing, hplugin⟩ := List.map_eq_singleton_iff.mp hback
  exact ⟨front, sink, by rw [hinstances, hsing], hplugin⟩

/-- The source is not the sink. -/
theorem source_ne_sink {ini : Ini F E} {eval : E → Option Bool} {purpose : String}
    {source sink : Nat} (hsource : findEnabledBuiltinPlugin ini eval "source" purpose = some source)
    (hsink : findEnabledBuiltinPlugin ini eval "sink" purpose = some sink) : source ≠ sink := by
  intro heq
  obtain ⟨plugin, hplugin, _, hlabel, _⟩ := findEnabledBuiltinPlugin_spec hsource
  obtain ⟨plugin', hplugin', _, hlabel', _⟩ := findEnabledBuiltinPlugin_spec hsink
  rw [heq, hplugin'] at hplugin
  cases hplugin
  rw [hlabel'] at hlabel
  exact absurd hlabel (by decide)

theorem pipelineCreate_source_ne_sink {ini : Ini F E} {eval : E → Option Bool} {purpose : String}
    {fuel : Nat} {pipeline : Pipeline F}
    (h : pipelineCreate ini eval purpose fuel = .done pipeline) :
    pipeline.source ≠ pipeline.sink :=
  source_ne_sink (created_of_pipelineCreate h).source (created_of_pipelineCreate h).sink

end DragonDevice.Dsp
