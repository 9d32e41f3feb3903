/-
  Dsp/PipelineDelay.lean --- the delay of a pipeline is that of its longest path.

  In an order of dependency the pass of `calculate_audio_delay` comes to an instance when the
  total delays of the instances that feed it are known.
-/
import DragonDevice.Dsp.Instantiate
import DragonDevice.Lib.LongestPath

set_option autoImplicit false

namespace DragonDevice.Dsp

open DragonDevice.Lib

variable {F M : Type} {instances : List (Instance F)} {getDelay : Nat → Int}

/-- An audio input of a plugin's instance reads an output of another plugin. -/
def AudioConnection (instances : List (Instance F)) (p q : Nat) : Prop :=
  ∃ inst ∈ instances, inst.plugin = q ∧
    ∃ port ∈ inst.inputAudioPorts, ∃ ref, port.peer = some ref ∧ ref.plugin = p

/-- The delays of the paths of audio connections to a plugin. -/
def pathDelays (instances : List (Instance F)) (getDelay : Nat → Int) (p : Nat) : Set Int :=
  pathWeights (AudioConnection instances) getDelay p

/-- No sum over a path is too great for an `int`. -/
def DelaysFit (instances : List (Instance F)) (getDelay : Nat → Int) : Prop :=
  ∀ p, ∀ delay ∈ pathDelays instances getDelay p, delay < 2 ^ 31

/-! ## The greatest delay of an input -/

/-- The loop over the inputs finds the greatest of their delays and the one it began with. -/
theorem foldlM_max {α : Type} (delayOf : α → Option Int) : ∀ (l : List α) (delay : Int),
    (∀ a ∈ l, ∃ up, delayOf a = some up) →
    ∃ greatest, l.foldlM (fun delay a => (delayOf a).map fun up => max up delay) delay =
        some greatest ∧ delay ≤ greatest ∧
      (∀ a ∈ l, ∀ up, delayOf a = some up → up ≤ greatest) ∧
      (greatest = delay ∨ ∃ a ∈ l, delayOf a = some greatest) := by
  intro l
  induction l with
  | nil =>
      intro delay _
      exact ⟨delay, rfl, Int.le_refl _, by simp, Or.inl rfl⟩
  | cons a l ih =>
      intro delay hdelays
      obtain ⟨⟨up, hup⟩, hrest⟩ := List.forall_mem_cons.mp hdelays
      obtain ⟨greatest, hfold, hle, hbound, hreached⟩ := ih (max up delay) hrest
      refine ⟨greatest, ?_, by omega, ?_, ?_⟩
      · rw [List.foldlM_cons, hup]
        exact hfold
      · refine List.forall_mem_cons.mpr ⟨fun up' hup' => ?_, hbound⟩
        cases hup.symm.trans hup'
        omega
      · rcases hreached with hmax | ⟨b, hb, hreached⟩
        · by_cases hgreater : delay ≤ up
          · refine Or.inr ⟨a, List.mem_cons_self, ?_⟩
            rw [hup, hmax, max_eq_left hgreater]
          · left
            omega
        · exact Or.inr ⟨b, List.mem_cons_of_mem a hb, hreached⟩

/-! ## The pass -/

/-- The total delays that have been calculated are those of the longest paths. -/
def DelaysRight (instances : List (Instance F)) (getDelay : Nat → Int)
    (done : List (Instance F × Int)) : Prop :=
  ∀ x ∈ done, IsGreatest (pathDelays instances getDelay x.1.plugin) x.2

/-- The search by a plugin finds an instance of it. -/
theorem find?_plugin {l : List (Instance F × Int)} {p : Nat} (h : ∃ x ∈ l, x.1.plugin = p) :
    ∃ y ∈ l, (l.find? fun x => x.1.plugin == p) = some y ∧ y.1.plugin = p := by
  obtain ⟨x, hx, hplugin⟩ := h
  have hsome : (l.find? fun x => x.1.plugin == p).isSome = true :=
    List.find?_isSome.mpr ⟨x, hx, beq_iff_eq.mpr hplugin⟩
  obtain ⟨y, hy⟩ := Option.isSome_iff_exists.mp hsome
  exact ⟨y, List.mem_of_find?_eq_some hy, hy, beq_iff_eq.mp (List.find?_some hy :)⟩

/-- The instance that feeds an input has been calculated. -/
theorem upstreamDelay_right {done rest : List (Instance F × Int)}
    (hright : DelaysRight instances getDelay done) {port : AudioPort} {ref : PortRef}
    (hpeer : port.peer = some ref) (hout : HasOutput (done.map Prod.fst) .audio ref) :
    ∃ up, upstreamDelay (done ++ rest) port = some up ∧
      IsGreatest (pathDelays instances getDelay ref.plugin) up := by
  obtain ⟨inst, hinst, hplugin, _⟩ := hout
  obtain ⟨x, hx, rfl⟩ := List.mem_map.mp hinst
  obtain ⟨y, hy, hfind, hyplugin⟩ := find?_plugin ⟨x, hx, hplugin⟩
  refine ⟨y.2, ?_, ?_⟩
  · rw [upstreamDelay, hpeer, Option.bind_some, List.find?_append, hfind]
    rfl
  · rw [← hyplugin]
    exact hright y hy

/-- What the pass calculates for an instance. -/
theorem totalDelay_right {done rest : List (Instance F × Int)} {inst : Instance F} {total : Int}
    (hord : DependencyOrdered instances) (hdelay : ∀ p, 0 ≤ getDelay p)
    (hfits : DelaysFit instances getDelay)
    (hsplit : instances = done.map Prod.fst ++ inst :: rest.map Prod.fst)
    (hright : DelaysRight instances getDelay done) :
    ∃ delay total', inputDelay (done ++ (inst, total) :: rest) inst.inputAudioPorts = some delay ∧
      addInt delay (getDelay inst.plugin) = some total' ∧
      IsGreatest (pathDelays instances getDelay inst.plugin) total' := by
  have hups : ∀ port ∈ inst.inputAudioPorts, ∃ up ref, port.peer = some ref ∧
      upstreamDelay (done ++ (inst, total) :: rest) port = some up ∧
      IsGreatest (pathDelays instances getDelay ref.plugin) up := by
    intro port hport
    obtain ⟨ref, hpeer, hout⟩ := hord.peers _ _ _ hsplit port hport
    obtain ⟨up, hup, hgreatest⟩ := upstreamDelay_right hright hpeer hout
    exact ⟨up, ref, hpeer, hup, hgreatest⟩
  obtain ⟨delay, hinput, hnonneg, hbound, hreached⟩ := foldlM_max
    (upstreamDelay (done ++ (inst, total) :: rest)) inst.inputAudioPorts 0
    (fun port hport => by
      obtain ⟨up, _, _, hup, _⟩ := hups port hport
      exact ⟨up, hup⟩)
  have hmem : inst ∈ instances := by
    rw [hsplit]
    exact List.mem_append_right _ List.mem_cons_self
  have hgreatest : IsGreatest (pathDelays instances getDelay inst.plugin)
      (delay + getDelay inst.plugin) := by
    refine isGreatest_pathWeights hnonneg ?_ ?_
    · rintro q ⟨inst', hinst', hplugin, port, hport, ref, hpeer, rfl⟩
      -- instances of one plugin are the same
      have hsame : inst' = inst := List.inj_on_of_nodup_map hord.plugins hinst' hmem hplugin
      subst hsame
      obtain ⟨up, ref', hpeer', hup, hgreatest⟩ := hups port hport
      cases hpeer.symm.trans hpeer'
      exact ⟨up, hgreatest, hbound port hport up hup⟩
    · rcases hreached with hzero | ⟨port, hport, hreached⟩
      · exact Or.inl hzero
      · obtain ⟨up, ref, hpeer, hup, hgreatest⟩ := hups port hport
        cases hup.symm.trans hreached
        exact Or.inr ⟨ref.plugin, ⟨inst, hmem, rfl, port, hport, ref, hpeer, rfl⟩, hgreatest⟩
  have hlt := hfits inst.plugin _ hgreatest.1
  have hown := hdelay inst.plugin
  refine ⟨delay, delay + getDelay inst.plugin, hinput, ?_, hgreatest⟩
  rw [addInt, if_pos ⟨by omega, hlt⟩]

theorem calculateAudioDelayFrom_right (hord : DependencyOrdered instances)
    (hdelay : ∀ p, 0 ≤ getDelay p) (hfits : DelaysFit instances getDelay) :
    ∀ (rest done : List (Instance F × Int)),
      instances = done.map Prod.fst ++ rest.map Prod.fst →
      DelaysRight instances getDelay done →
      ∃ after, calculateAudioDelayFrom getDelay done rest = some after ∧
        after.map Prod.fst = instances ∧ DelaysRight instances getDelay after := by
  intro rest
  induction rest with
  | nil =>
      intro done hsplit hright
      refine ⟨done, rfl, ?_, hright⟩
      rw [hsplit, List.map_nil, List.append_nil]
  | cons x rest ih =>
      intro done hsplit hright
      obtain ⟨inst, total⟩ := x
      obtain ⟨delay, total', hinput, hadd, hgreatest⟩ :=
        totalDelay_right hord hdelay hfits hsplit hright
      obtain ⟨after, hafter, hinstances, hright'⟩ := ih (done ++ [(inst, total')])
        (by rw [hsplit, List.map_append, List.append_assoc]; rfl)
        (List.forall_mem_append.mpr ⟨hright, by simpa using hgreatest⟩)
      refine ⟨after, ?_, hinstances, hright'⟩
      rw [calculateAudioDelayFrom, hinput, Option.bind_some, hadd, Option.bind_some, hafter]

/-! ## The delay of a pipeline -/

/-- In an order of dependency, and with delays that fit, instantiation succeeds when the modules
can be connected, and the delay of the pipeline is the greatest of a path to the sink, whatever
the total delays were before. -/
theorem pipelineInstantiate_delay (connect : Instance F → Option M) {getDelay : Nat → Int}
    (hdelay : ∀ p, 0 ≤ getDelay p) {before : List (Instance F × Int)}
    (hord : DependencyOrdered (before.map Prod.fst))
    (hfits : DelaysFit (before.map Prod.fst) getDelay)
    {modules : List M} (hconnect : (before.mapM fun x => connect x.1) = some modules)
    {sink : Nat} (hsink : sink ∈ before.map fun x => x.1.plugin) :
    ∃ after delay, pipelineInstantiate connect getDelay before = some (modules, after) ∧
      after.map Prod.fst = before.map Prod.fst ∧
      pipelineGetDelay after sink = some delay ∧
      IsGreatest (pathDelays (before.map Prod.fst) getDelay sink) delay := by
  obtain ⟨after, hafter, hinstances, hright⟩ := calculateAudioDelayFrom_right hord hdelay hfits
    before [] rfl (List.forall_mem_nil _)
  obtain ⟨x, hx, rfl⟩ := List.mem_map.mp hsink
  have hout : x.1 ∈ after.map Prod.fst := by
    rw [hinstances]
    exact List.mem_map_of_mem hx
  obtain ⟨y, hy, hyx⟩ := List.mem_map.mp hout
  obtain ⟨z, hz, hfind, hplugin⟩ := find?_plugin ⟨y, hy, congrArg Instance.plugin hyx⟩
  refine ⟨after, z.2, ?_, hinstances, by rw [pipelineGetDelay, hfind]; rfl, ?_⟩
  · rw [pipelineInstantiate, hconnect, Option.bind_some, calculateAudioDelay, hafter]
    rfl
  · rw [← hplugin]
    exact hright z hz

/-- One channel of a source goes through a compressor, the other one goes around it. -/
def aroundDrc : List (Instance Unit × Int) :=
  [(⟨0, [], [⟨0, none, 0⟩, ⟨1, none, 1⟩], [], [], 0⟩, 0),
   (⟨1, [⟨0, some ⟨0, 0⟩, 0⟩], [⟨2, none, 0⟩], [], [], 0⟩, 0),
   (⟨2, [⟨0, some ⟨1, 2⟩, 0⟩, ⟨1, some ⟨0, 1⟩, 1⟩], [], [], [], 0⟩, 0)]

def drcDelay (p : Nat) : Int := if p = 1 then 288 else 0

theorem dependencyOrdered_aroundDrc : DependencyOrdered (aroundDrc.map Prod.fst) := by
  refine ⟨by decide, by decide, fun l₁ inst l₂ hl port hport => ?_⟩
  rcases l₁ with _ | ⟨a, _ | ⟨b, _ | ⟨c, l₁⟩⟩⟩
  · cases hl
    cases hport
  · cases hl
    cases List.mem_singleton.mp hport
    exact ⟨_, rfl, _, List.mem_cons_self, rfl, by decide⟩
  · cases hl
    cases List.mem_cons.mp hport with
    | inl hfirst =>
        cases hfirst
        exact ⟨_, rfl, _, List.mem_cons_of_mem _ List.mem_cons_self, rfl, by decide⟩
    | inr hsecond =>
        cases List.mem_singleton.mp hsecond
        exact ⟨_, rfl, _, List.mem_cons_self, rfl, by decide⟩
  · have hnil := congrArg (List.drop 3) hl
    cases (List.append_eq_nil_iff.mp hnil.symm).2

/-- No path goes through the compressor twice. -/
theorem pathWeight_aroundDrc {p : Nat} {path : List Nat}
    (h : PathTo (AudioConnection (aroundDrc.map Prod.fst)) p path) :
    pathWeight drcDelay path ≤ if p = 0 then 0 else 288 := by
  induction h with
  | start a =>
      rw [pathWeight_singleton, drcDelay]
      split <;> split <;> omega
  | @step a b path _ hedge ih =>
      rw [pathWeight_concat]
      obtain ⟨inst, hinst, hplugin, port, hport, ref, hpeer, hfrom⟩ := hedge
      simp only [aroundDrc, List.map_cons, List.map_nil, List.mem_cons, List.not_mem_nil,
        or_false] at hinst
      rcases hinst with rfl | rfl | rfl
      · cases hport
      · cases List.mem_singleton.mp hport
        cases hpeer
        subst hplugin hfrom
        rw [if_pos rfl] at ih
        exact Int.add_le_add_right ih 288
      · subst hplugin
        have hpath : pathWeight drcDelay path ≤ 288 := by
          split at ih <;> omega
        exact Int.add_le_add_right hpath 0

theorem delaysFit_aroundDrc : DelaysFit (aroundDrc.map Prod.fst) drcDelay := by
  rintro p delay ⟨path, hpath, rfl⟩
  have hle := pathWeight_aroundDrc hpath
  split at hle <;> omega

theorem pipelineInstantiate_delay_aroundDrc :
    ∃ after, pipelineInstantiate (fun _ => some ()) drcDelay aroundDrc =
      some ([(), (), ()], after) ∧
      pipelineGetDelay after 2 = some 288 ∧
      IsGreatest (pathDelays (aroundDrc.map Prod.fst) drcDelay 2) 288 := by
  have hdelay : ∀ p, 0 ≤ drcDelay p := by
    intro p
    unfold drcDelay
    split <;> decide
  obtain ⟨after, delay, hafter, _, hget, hgreatest⟩ := pipelineInstantiate_delay (fun _ => some ())
    hdelay dependencyOrdered_aroundDrc delaysFit_aroundDrc rfl
    (show 2 ∈ [0, 1, 2] by decide)
  have hsame : delay = 288 := by
    cases hafter
    cases hget
    rfl
  subst hsame
  exact ⟨after, hafter, hget, hgreatest⟩

end DragonDevice.Dsp
