/-
  Dsp/PipelineCycles.lean --- creating a pipeline from a graph with cycles.

  `topological_sort` passes over a plugin it has entered before, finished or not, so a cycle
  goes unnoticed: the plugin at which it closes is left before the plugins it reads from.
  The search for an origin then takes the open plugins for disabled ones.  It may connect a
  plugin to itself, or go around a cycle of disabled plugins for ever.  Where the walk leaves
  no plugin of a cycle, every search goes back along the order in which they are left.
-/
import DragonDevice.Dsp.PipelineOrder
import Mathlib.Data.List.Perm.Subperm

set_option autoImplicit false

namespace DragonDevice.Dsp

open DragonDevice.Lib

variable {F E : Type}

/-! ## Flows backwards -/

/-- A port of the first plugin has a flow that comes from the second. -/
def FlowOf (ini : Ini F E) (p : Nat) (port : Port F) (q : Nat) : Prop :=
  ∃ i id flow, ini.port? ⟨p, i⟩ = some port ∧ port.flowId = some id ∧
    ini.flows[id]? = some flow ∧ flow.fromPlugin = some q

/-- An input of the first plugin reads a flow that comes from the second. -/
def FlowsBack (ini : Ini F E) (p q : Nat) : Prop :=
  ∃ port, FlowOf ini p port q ∧ port.direction = .input

/-- `topological_sort` goes from the first plugin to the second: it follows the flows of all
ports, and those of a plugin's own outputs lead to itself or to another producer. -/
def Follows (ini : Ini F E) (p q : Nat) : Prop :=
  ∃ port, FlowOf ini p port q ∧ (port.direction = .input ∨ q ≠ p)

/-- A cycle is reached by following flows backwards. -/
def ReachesCycle (ini : Ini F E) (sink : Nat) : Prop :=
  ∃ p, Relation.ReflTransGen (FlowsBack ini) sink p ∧ Relation.TransGen (FlowsBack ini) p p

/-- Creation returns, and with `NULL` if the sink reaches a cycle. -/
def EndsRejectingCycles (ini : Ini F E) (eval : E → Option Bool) (purpose : String) : Prop :=
  ∃ fuel, pipelineCreate ini eval purpose fuel = .failed ∨
    ∃ pipeline, pipelineCreate ini eval purpose fuel = .done pipeline ∧
      ¬ ReachesCycle ini pipeline.sink

/-- The plugins that a walk of the flows leaves, which ends at the first flow that nobody
produces. -/
def leftPlugins (ini : Ini F E) (sink : Nat) : List Nat :=
  (walk (upstream ini) (ini.plugins.length + 1) sink []).order

/-- No plugin that the walk leaves is on a cycle that goes through one of its inputs. -/
def LeavesNoCycle (ini : Ini F E) (sink : Nat) : Prop :=
  ∀ p ∈ leftPlugins ini sink, ∀ q, FlowsBack ini p q → ¬ Relation.ReflTransGen (Follows ini) q p

theorem FlowsBack.follows {ini : Ini F E} {p q : Nat} (h : FlowsBack ini p q) :
    Follows ini p q := by
  obtain ⟨port, hflow, hdir⟩ := h
  exact ⟨port, hflow, Or.inl hdir⟩

theorem FlowOf.mem_upstream {ini : Ini F E} {p q : Nat} {port : Port F}
    (h : FlowOf ini p port q) : some q ∈ upstream ini p := by
  obtain ⟨i, id, flow, hport, hid, hflow, hfrom⟩ := h
  rw [Ini.port?, Option.bind_eq_some_iff] at hport
  obtain ⟨plugin, hplugin, hport⟩ := hport
  refine mem_upstream_iff.mpr ⟨plugin, port, id, hplugin, List.mem_of_getElem? hport, hid, ?_⟩
  rw [hflow]
  exact hfrom

theorem flowOf_of_mem_upstream {ini : Ini F E} {p q : Nat} (h : some q ∈ upstream ini p) :
    ∃ port, FlowOf ini p port q := by
  obtain ⟨plugin, port, id, hplugin, hport, hid, hfrom⟩ := mem_upstream_iff.mp h
  obtain ⟨flow, hflow, hq⟩ := Option.bind_eq_some_iff.mp hfrom
  obtain ⟨i, hi⟩ := List.getElem?_of_mem hport
  refine ⟨port, i, id, flow, ?_, hid, hflow, hq⟩
  rw [Ini.port?, hplugin]
  exact hi

theorem follows_of_reach {ini : Ini F E} {p q : Nat} (h : Reach (upstream ini) p q) :
    Relation.ReflTransGen (Follows ini) p q := by
  induction h with
  | refl => exact Relation.ReflTransGen.refl
  | @tail b c _ hstep ih =>
      obtain ⟨port, hflow⟩ := flowOf_of_mem_upstream hstep
      by_cases heq : c = b
      · rw [heq]
        exact ih
      · exact ih.tail ⟨port, hflow, Or.inr heq⟩

/-- A flow comes from a plugin of the ini. -/
theorem FlowOf.plugin_lt {ini : Ini F E} {p q : Nat} {port : Port F} (h : FlowOf ini p port q) :
    q < ini.plugins.length := by
  obtain ⟨i, id, flow, _, _, hflow, hfrom⟩ := h
  obtain ⟨po, hpo, _⟩ := ini.produces_of_flow hflow hfrom
  rw [Ini.port?, Option.bind_eq_some_iff] at hpo
  obtain ⟨plugin, hplugin, _⟩ := hpo
  exact (List.getElem?_eq_some_iff.mp hplugin).1

/-- What a plugin that is found is. -/
theorem findEnabledBuiltinPlugin_spec {ini : Ini F E} {eval : E → Option Bool}
    {label purpose : String} {p : Nat}
    (h : findEnabledBuiltinPlugin ini eval label purpose = some p) :
    ∃ plugin, ini.plugins[p]? = some plugin ∧ plugin.library = "builtin" ∧
      plugin.label = label ∧ isDisabled eval plugin = false := by
  unfold findEnabledBuiltinPlugin at h
  split at h
  · rename_i q hq
    cases h
    have hmem : p ∈ [p] := List.mem_cons_self
    rw [← hq] at hmem
    obtain ⟨⟨plugin, i⟩, hfilter, hi⟩ := List.mem_map.mp hmem
    obtain ⟨hzip, htest⟩ := List.mem_filter.mp hfilter
    have hget := List.mem_zipIdx_iff_getElem?.mp hzip
    simp only [Bool.and_eq_true, beq_iff_eq, Bool.not_eq_true'] at htest
    dsimp only at hi hget
    subst hi
    exact ⟨plugin, hget, htest.1.1.1, htest.1.1.2, htest.2⟩
  · cases h

theorem findEnabledBuiltinPlugin_lt {ini : Ini F E} {eval : E → Option Bool}
    {label purpose : String} {p : Nat}
    (h : findEnabledBuiltinPlugin ini eval label purpose = some p) : p < ini.plugins.length := by
  obtain ⟨plugin, hplugin, _⟩ := findEnabledBuiltinPlugin_spec h
  exact (List.getElem?_eq_some_iff.mp hplugin).1

/-! ## The order of the walk -/

/-- The plugins that are left when none of them is on a cycle. -/
structure LeftInOrder (ini : Ini F E) (order : List Nat) : Prop where
  nodup : order.Nodup
  plugin : ∀ p ∈ order, p < ini.plugins.length
  /-- the flows of their ports are produced -/
  present : ∀ p ∈ order, none ∉ upstream ini p
  before : ∀ p ∈ order, ∀ q, FlowsBack ini p q → Before order q p

theorem leftInOrder_of_walk {ini : Ini F E} {fuel sink : Nat} (hsink : sink < ini.plugins.length)
    (h : ∀ p ∈ (walk (upstream ini) fuel sink []).order, ∀ q, FlowsBack ini p q →
      ¬ Relation.ReflTransGen (Follows ini) q p) :
    LeftInOrder ini (walk (upstream ini) fuel sink []).order := by
  have hw : WalkFacts (upstream ini) (fun b => b = sink) []
      (walk (upstream ini) fuel sink []) := walk_facts fuel sink []
  refine ⟨hw.nodup, fun p hp => ?_, hw.present, fun p hp q hflow => ?_⟩
  · obtain ⟨a, ha, hreach⟩ := hw.reach p hp
    rw [ha] at hreach
    cases hreach with
    | refl => exact hsink
    | tail _ hstep =>
        obtain ⟨port, hflow⟩ := flowOf_of_mem_upstream hstep
        exact hflow.plugin_lt
  · have hback := hflow
    obtain ⟨port, hof, _⟩ := hflow
    cases hw.earlier p hp q hof.mem_upstream with
    | inl hnil => cases hnil
    | inr hrest =>
        cases hrest with
        | inl hbefore => exact hbefore
        | inr hreach => exact absurd (follows_of_reach hreach) (h p hp q hback)

/-- The walk of the flows ends. -/
theorem walk_upstream_ends {ini : Ini F E} {sink : Nat} (hsink : sink < ini.plugins.length) :
    (walk (upstream ini) (ini.plugins.length + 1) sink []).ending ≠ .cut := by
  have hclosed : ∀ p ∈ List.range ini.plugins.length, ∀ q, some q ∈ upstream ini p →
      q ∈ List.range ini.plugins.length := by
    intro p _ q hq
    obtain ⟨port, hflow⟩ := flowOf_of_mem_upstream hq
    exact List.mem_range.mpr hflow.plugin_lt
  have hunmarked : unmarked (List.range ini.plugins.length) [] ≤
      (List.range ini.plugins.length).length := List.length_filter_le _ _
  rw [List.length_range] at hunmarked
  exact walk_ends hclosed _ sink [] (List.mem_range.mpr hsink) (Nat.lt_succ_of_le hunmarked)

theorem LeftInOrder.length_le {ini : Ini F E} {order : List Nat} (h : LeftInOrder ini order) :
    order.length ≤ ini.plugins.length := by
  have hsub : order ⊆ List.range ini.plugins.length := fun p hp =>
    List.mem_range.mpr (h.plugin p hp)
  have hle := (h.nodup.subperm hsub).length_le
  rw [List.length_range] at hle
  exact hle

/-! ## The actions return -/

/-- The search for an origin goes back along the order. -/
theorem findOriginPort_returns {ini : Ini F E} {order : List Nat} (h : LeftInOrder ini order)
    (built : List Nat) :
    ∀ fuel ref port l l', order = l ++ ref.plugin :: l' → l.length < fuel →
      ini.port? ref = some port → port.direction = .input →
      (findOriginPort ini built fuel ref).Returns := by
  intro fuel
  induction fuel with
  | zero =>
      intro ref port l l' _ hfuel
      omega
  | succ fuel ih =>
      intro ref port l l' horder hfuel hport hdir
      unfold findOriginPort
      rw [hport]
      dsimp only
      cases hid : port.flowId with
      | none => exact Or.inr rfl
      | some id =>
          obtain ⟨flow, hflow⟩ := ini.flow_of_port hport hid
          dsimp only
          rw [hflow]
          dsimp only
          have hmem : ref.plugin ∈ order := by
            rw [horder]
            exact List.mem_append_right _ List.mem_cons_self
          cases hfrom : flow.fromPlugin with
          | none =>
              refine absurd ?_ (h.present ref.plugin hmem)
              rw [Ini.port?, Option.bind_eq_some_iff] at hport
              obtain ⟨plugin, hplugin, hget⟩ := hport
              refine mem_upstream_iff.mpr ⟨plugin, port, id, hplugin, List.mem_of_getElem? hget,
                hid, ?_⟩
              rw [hflow]
              exact hfrom
          | some q =>
              have hback : FlowsBack ini ref.plugin q :=
                ⟨port, ⟨ref.index, id, flow, hport, hid, hflow, hfrom⟩, hdir⟩
              have hbefore := h.before ref.plugin hmem q hback
              have hnodup := h.nodup
              rw [horder] at hbefore hnodup
              obtain ⟨l₁, l₂, hl⟩ := List.append_of_mem (hbefore.mem_left hnodup)
              dsimp only
              split
              · exact Or.inl ⟨_, rfl⟩
              · obtain ⟨po, hpo, _⟩ := ini.produces_of_flow hflow hfrom
                rw [Ini.port?, Option.bind_eq_some_iff] at hpo
                obtain ⟨prev, hprev, _⟩ := hpo
                rw [hprev]
                dsimp only
                cases hbypass : bypass prev.ports port.type flow.fromPort with
                | none => exact Or.inr rfl
                | some index =>
                    dsimp only
                    unfold bypass at hbypass
                    split at hbypass
                    · obtain ⟨pi, hpi, hpidir, _⟩ := nthPort_eq_some hbypass
                      refine ih ⟨q, index⟩ pi l₁ (l₂ ++ ref.plugin :: l') ?_ ?_ ?_ hpidir
                      · rw [horder, hl, List.append_assoc, List.cons_append]
                      · rw [hl, List.length_append, List.length_cons] at hfuel
                        omega
                      · rw [Ini.port?, hprev]
                        exact hpi
                    · cases hbypass

theorem constructInstance_returns {ini : Ini F E} {order : List Nat} (h : LeftInOrder ini order)
    (eval : E → Option Bool) {fuel : Nat} (hfuel : order.length ≤ fuel) {p : Nat}
    (hp : p ∈ order) (instances : List (Instance F)) :
    (constructInstance ini eval fuel p instances).Returns := by
  have hplugin := List.getElem?_eq_getElem (h.plugin p hp)
  obtain ⟨l, l', horder⟩ := List.append_of_mem hp
  unfold constructInstance
  rw [hplugin]
  dsimp only
  split
  · exact Or.inl ⟨_, rfl⟩
  · refine Outcome.Returns.bind ?_ fun inst _ => Or.inl ⟨_, rfl⟩
    refine foldOutcome_returns (I := fun inst : Instance F => inst.plugin = p)
      (fun q inst inst' hinst hrun => ?_) _ (Instance.zero p) rfl fun q hq inst hinst => ?_
    · obtain ⟨origin, _, hadded, _⟩ := addPort_done hrun
      exact hadded.plugin.trans hinst
    · refine Outcome.Returns.bind ?_ fun origin _ => ?_
      · unfold connect
        split
        · rename_i hneed
          rw [Bool.and_eq_true, beq_iff_eq] at hneed
          refine Outcome.Returns.bind ?_ fun origin _ => Or.inl ⟨_, rfl⟩
          rw [hinst]
          refine findOriginPort_returns h _ fuel ⟨p, q.2⟩ q.1 l l' horder ?_ ?_ hneed.2
          · rw [horder, List.length_append, List.length_cons] at hfuel
            omega
          · rw [Ini.port?, hplugin]
            exact List.mem_zipIdx_iff_getElem?.mp hq
        · exact Or.inl ⟨none, rfl⟩
      · cases q.1.type with
        | audio =>
            cases origin with
            | none => exact Or.inl ⟨_, rfl⟩
            | some ref =>
                dsimp only
                split
                · exact Or.inl ⟨_, rfl⟩
                · exact Or.inr rfl
        | control =>
            cases origin with
            | none => exact Or.inl ⟨_, rfl⟩
            | some ref =>
                dsimp only
                split
                · exact Or.inl ⟨_, rfl⟩
                · exact Or.inr rfl

/-! ## Creation returns -/

/-- A complete walk that leaves no cycle has left everything upstream. -/
theorem not_reachesCycle {ini : Ini F E} {sink : Nat} (hsink : sink < ini.plugins.length)
    (h : LeavesNoCycle ini sink)
    (hend : (walk (upstream ini) (ini.plugins.length + 1) sink []).ending = .complete) :
    ¬ ReachesCycle ini sink := by
  have hw : WalkFacts (upstream ini) (fun b => b = sink) []
      (walk (upstream ini) (ini.plugins.length + 1) sink []) := walk_facts _ sink []
  have horder : LeftInOrder ini (leftPlugins ini sink) := leftInOrder_of_walk hsink h
  rintro ⟨p, hreach, hcycle⟩
  have hp : p ∈ leftPlugins ini sink := by
    clear hcycle
    induction hreach with
    | refl =>
        cases hw.leaves hend sink (hw.covers hend sink rfl) with
        | inl hnil => cases hnil
        | inr hmem => exact hmem
    | tail _ hstep ih =>
        obtain ⟨l₁, l₂, hl, hmem⟩ := horder.before _ ih _ hstep
        rw [hl]
        exact List.mem_append_left _ hmem
  obtain ⟨q, hback, hrest⟩ := Relation.TransGen.head'_iff.mp hcycle
  exact h p hp q hback (hrest.lift id fun _ _ hflow => hflow.follows)

/-- Creation returns, and with no pipeline if the sink reaches a cycle, when there is no
source or no sink to start from or the walk leaves no plugin of a cycle through an input of it. -/
theorem endsRejectingCycles_of_leavesNoCycle {ini : Ini F E} {eval : E → Option Bool}
    {purpose : String}
    (h : ∀ sink, (findEnabledBuiltinPlugin ini eval "source" purpose).isSome →
      findEnabledBuiltinPlugin ini eval "sink" purpose = some sink → LeavesNoCycle ini sink) :
    EndsRejectingCycles ini eval purpose := by
  refine ⟨ini.plugins.length + 1, ?_⟩
  cases hsource : findEnabledBuiltinPlugin ini eval "source" purpose with
  | none =>
      refine Or.inl ?_
      unfold pipelineCreate
      rw [hsource]
  | some source =>
      cases hsink : findEnabledBuiltinPlugin ini eval "sink" purpose with
      | none =>
          refine Or.inl ?_
          unfold pipelineCreate
          rw [hsource, hsink]
      | some sink =>
          have hlt := findEnabledBuiltinPlugin_lt hsink
          have hnocycle := h sink (by rw [hsource]; rfl) hsink
          have horder : LeftInOrder ini (leftPlugins ini sink) := leftInOrder_of_walk hlt hnocycle
          have hreturns : (pipelineCreate ini eval purpose (ini.plugins.length + 1)).Returns := by
            unfold pipelineCreate
            rw [hsource, hsink]
            dsimp only
            refine Outcome.Returns.bind ?_ fun st _ => ?_
            · unfold topologicalSort
              rw [depthFirst_eq]
              refine Outcome.Returns.bind ?_ fun instances _ => ?_
              · refine foldOutcome_returns (fun _ _ _ _ _ => True.intro) _ _ True.intro
                  fun p hp instances _ => ?_
                exact constructInstance_returns horder eval
                  (Nat.le_succ_of_le horder.length_le) hp instances
              · cases hend : (walk (upstream ini) (ini.plugins.length + 1) sink []).ending with
                | complete => exact Or.inl ⟨_, rfl⟩
                | missing => exact Or.inr rfl
                | cut => exact absurd hend (walk_upstream_ends hlt)
            · split
              · split
                · exact Or.inr rfl
                · exact Or.inl ⟨_, rfl⟩
              · exact Or.inr rfl
          cases hreturns with
          | inr hfailed => exact Or.inl hfailed
          | inl hdone =>
              obtain ⟨pipeline, hcreate⟩ := hdone
              obtain ⟨hsink', hend, _⟩ := pipelineCreate_done hcreate
              rw [hsink] at hsink'
              cases hsink'
              exact Or.inr ⟨pipeline, hcreate, not_reachesCycle hlt hnocycle hend⟩

/-- The sink reads the source, a flow that nobody produces, and a plugin that feeds itself. -/
def unfedIni : Ini Unit Bool where
  plugins :=
    [⟨"builtin", "source", some "playback", none, [audioOut 0]⟩,
      ⟨"builtin", "eq", none, none, [audioIn 1, audioOut 1]⟩,
      ⟨"builtin", "sink", some "playback", none, [audioIn 0, audioIn 2, audioIn 1]⟩]
  flowTypes := [.audio, .audio, .audio]
  port_flow := by decide
  audio_flow := by decide

theorem not_flowsBack_source (q : Nat) : ¬ FlowsBack unfedIni 0 q := by
  rintro ⟨port, ⟨i, id, flow, hport, _⟩, hdir⟩
  cases i with
  | succ i => cases hport
  | zero =>
      cases hport
      cases hdir

/-- The walk ends before it comes to the cycle. -/
theorem endsRejectingCycles_unfed :
    ReachesCycle unfedIni 2 ∧ EndsRejectingCycles unfedIni some "playback" := by
  have hsink : FlowsBack unfedIni 2 1 := ⟨audioIn 1, ⟨2, 1, _, rfl, rfl, rfl, rfl⟩, rfl⟩
  have hself : FlowsBack unfedIni 1 1 := ⟨audioIn 1, ⟨0, 1, _, rfl, rfl, rfl, rfl⟩, rfl⟩
  refine ⟨⟨1, Relation.ReflTransGen.single hsink, Relation.TransGen.single hself⟩,
    endsRejectingCycles_of_leavesNoCycle fun sink _ hfound p hp q hback _ => ?_⟩
  cases hfound
  have hleft : leftPlugins unfedIni 2 = [0] := rfl
  rw [hleft, List.mem_singleton] at hp
  rw [hp] at hback
  exact not_flowsBack_source q hback

/-! ## More fuel -/

theorem findOriginPort_below (ini : Ini F E) (built : List Nat) :
    ∀ fuel fuel' ref, fuel ≤ fuel' →
      (findOriginPort ini built fuel ref).Below (findOriginPort ini built fuel' ref) := by
  intro fuel
  induction fuel with
  | zero =>
      intro fuel' ref _
      exact Or.inl rfl
  | succ fuel ih =>
      intro fuel' ref hle
      cases fuel' with
      | zero => omega
      | succ fuel' =>
          unfold findOriginPort
          repeat' split
          all_goals first
            | exact Outcome.Below.refl _
            | exact ih fuel' _ (Nat.le_of_succ_le_succ hle)

theorem constructInstance_below (ini : Ini F E) (eval : E → Option Bool) {fuel fuel' : Nat}
    (hle : fuel ≤ fuel') (p : Nat) (instances : List (Instance F)) :
    (constructInstance ini eval fuel p instances).Below
      (constructInstance ini eval fuel' p instances) := by
  unfold constructInstance
  split
  · exact Outcome.Below.refl _
  · split
    · exact Outcome.Below.refl _
    · refine Outcome.Below.bind ?_ fun inst => Outcome.Below.refl _
      refine foldOutcome_below (fun q inst => ?_) _ _
      refine Outcome.Below.bind ?_ fun origin => Outcome.Below.refl _
      unfold connect
      split
      · exact (findOriginPort_below ini _ fuel fuel' _ hle).bind fun origin =>
          Outcome.Below.refl _
      · exact Outcome.Below.refl _

theorem pipelineCreate_below (ini : Ini F E) (eval : E → Option Bool) (purpose : String)
    {fuel fuel' : Nat} (hle : fuel ≤ fuel') :
    (pipelineCreate ini eval purpose fuel).Below (pipelineCreate ini eval purpose fuel') := by
  unfold pipelineCreate
  split
  · exact (depthFirst_below (constructInstance_below ini eval hle) fuel fuel' _ _ hle).bind
      fun st => Outcome.Below.refl _
  · exact Outcome.Below.refl _

/-- Creation has one result. -/
theorem pipelineCreate_unique {ini : Ini F E} {eval : E → Option Bool} {purpose : String}
    {fuel fuel' : Nat} (h : pipelineCreate ini eval purpose fuel ≠ .running)
    (h' : pipelineCreate ini eval purpose fuel' ≠ .running) :
    pipelineCreate ini eval purpose fuel = pipelineCreate ini eval purpose fuel' := by
  cases Nat.le_total fuel fuel' with
  | inl hle => exact ((pipelineCreate_below ini eval purpose hle).eq_of_ne_running h).symm
  | inr hle => exact (pipelineCreate_below ini eval purpose hle).eq_of_ne_running h'

/-! ## Cycles that are not rejected -/

/-- The sink reads a disabled plugin that feeds itself. -/
def endlessIni : Ini Unit Bool where
  plugins :=
    [⟨"builtin", "source", some "playback", none, [audioOut 0]⟩,
      ⟨"builtin", "eq", none, some true, [audioIn 1, audioOut 1]⟩,
      ⟨"builtin", "sink", some "playback", none, [audioIn 1]⟩]
  flowTypes := [.audio, .audio]
  port_flow := by decide
  audio_flow := by decide

/-- The sink reads the source and an enabled plugin that feeds itself, with the output first. -/
def selfFedIni : Ini Unit Bool where
  plugins :=
    [⟨"builtin", "source", some "playback", none, [audioOut 0, audioOut 1]⟩,
      ⟨"builtin", "eq", none, none, [audioOut 2, audioIn 2]⟩,
      ⟨"builtin", "sink", some "playback", none, [audioIn 0, audioIn 2]⟩]
  flowTypes := [.audio, .audio, .audio]
  port_flow := by decide
  audio_flow := by decide

def selfFedPipeline : Pipeline Unit where
  instances :=
    [⟨0, [], [⟨0, none, 0⟩, ⟨1, none, 0⟩], [], [], 0⟩,
      ⟨1, [⟨1, some ⟨1, 0⟩, 0⟩], [⟨0, none, 0⟩], [], [], 0⟩,
      ⟨2, [⟨0, some ⟨0, 0⟩, 0⟩, ⟨1, some ⟨1, 0⟩, 0⟩], [], [], [], 0⟩]
  source := 0
  sink := 2
  inputChannels := 2
  outputChannels := 2

/-- The search goes around the plugin that feeds itself. -/
theorem findOriginPort_endless (built : List Nat) (hbuilt : 1 ∉ built) :
    ∀ fuel, findOriginPort endlessIni built fuel ⟨1, 0⟩ = .running := by
  intro fuel
  induction fuel with
  | zero => rfl
  | succ fuel ih =>
      have hstep : findOriginPort endlessIni built (fuel + 1) ⟨1, 0⟩ =
          if built.contains 1 then .done ⟨1, 1⟩ else findOriginPort endlessIni built fuel ⟨1, 0⟩ :=
        rfl
      rw [hstep, if_neg (fun hmem => hbuilt (List.contains_iff_mem.mp hmem))]
      exact ih

theorem pipelineCreate_endless (fuel : Nat) :
    pipelineCreate endlessIni some "playback" (fuel + 4) = .running := by
  have hsearch : findOriginPort endlessIni [2] (fuel + 4) ⟨2, 0⟩ = .running :=
    findOriginPort_endless [2] (by decide) (fuel + 3)
  have hsink : constructInstance endlessIni some (fuel + 4) 2 [] = .running := by
    change (((((findOriginPort endlessIni [2] (fuel + 4) ⟨2, 0⟩).bind _).bind _).bind _).bind _) = _
    rw [hsearch]
    rfl
  have hsort : topologicalSort endlessIni some (fuel + 4) 2 ([], []) = .running := by
    unfold topologicalSort
    rw [depthFirst_eq]
    change (((constructInstance endlessIni some (fuel + 4) 2 []).bind _).bind _) = _
    rw [hsink]
    rfl
  change (topologicalSort endlessIni some (fuel + 4) 2 ([], [])).bind _ = _
  rw [hsort]
  rfl

theorem reachesCycle_selfFed : ReachesCycle selfFedIni 2 := by
  have hsink : FlowsBack selfFedIni 2 1 := ⟨audioIn 2, ⟨1, 2, _, rfl, rfl, rfl, rfl⟩, rfl⟩
  have hself : FlowsBack selfFedIni 1 1 := ⟨audioIn 2, ⟨1, 2, _, rfl, rfl, rfl, rfl⟩, rfl⟩
  exact ⟨1, Relation.ReflTransGen.single hsink, Relation.TransGen.single hself⟩

/-- Creation goes on for ever with a cycle of disabled plugins, and accepts a cycle of
enabled ones. -/
theorem not_endsRejectingCycles :
    ¬ EndsRejectingCycles endlessIni some "playback" ∧
      ¬ EndsRejectingCycles selfFedIni some "playback" := by
  constructor
  · rintro ⟨fuel, h⟩
    have hbelow := pipelineCreate_below endlessIni some "playback" (Nat.le_add_right fuel 4)
    rw [pipelineCreate_endless] at hbelow
    have hrunning : pipelineCreate endlessIni some "playback" fuel = .running := by
      cases hbelow with
      | inl hrunning => exact hrunning
      | inr heq => exact heq
    rw [hrunning] at h
    cases h with
    | inl hfailed => cases hfailed
    | inr hdone =>
        obtain ⟨pipeline, hdone, _⟩ := hdone
        cases hdone
  · rintro ⟨fuel, h⟩
    have hcreate : pipelineCreate selfFedIni some "playback" 4 = .done selfFedPipeline := rfl
    have hunique : pipelineCreate selfFedIni some "playback" fuel ≠ .running →
        pipelineCreate selfFedIni some "playback" fuel = .done selfFedPipeline := by
      intro hne
      rw [← hcreate]
      refine pipelineCreate_unique hne ?_
      rw [hcreate]
      exact fun hrunning => nomatch hrunning
    cases h with
    | inl hfailed =>
        rw [hfailed] at hunique
        cases hunique (fun hrunning => nomatch hrunning)
    | inr hdone =>
        obtain ⟨pipeline, hdone, hnot⟩ := hdone
        rw [hdone] at hunique
        cases hunique (fun hrunning => nomatch hrunning)
        exact hnot reachesCycle_selfFed

end DragonDevice.Dsp
