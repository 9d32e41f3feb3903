/-
  Dsp/SharedRun.lean --- a run on shared buffers against a run on separate ones.

  Live values agree along a run of both.  A filter keeps this when the buffer of its first
  output is not that of its second input, which it has still to read: then it computes the
  same from the same.  `mix_stereo` reads both inputs first and does not mind.
-/
import DragonDevice.Dsp.Modules
import DragonDevice.Dsp.Lanes
import DragonDevice.Dsp.CreatedOrder

set_option autoImplicit false

namespace DragonDevice.Dsp

open DragonDevice.Lib

variable {F E : Type}

/-! ## Pipelines of builtin modules -/

/-- The audio ports of a filter module: its inputs and its outputs. -/
def Module.audioPorts : Module → Option (List Nat × List Nat)
  | .empty => none
  | .eq => some ([0], [1])
  | .mixStereo => some ([0, 1], [2, 3])
  | .invertLr => some ([0, 1], [2, 3])
  | .eq2 => some ([0, 1], [2, 3])
  | .drc => some ([0, 1], [2, 3])

/-- The modules that write their first output before they read their second input. -/
def Module.copiesInTurn : Module → Bool
  | .invertLr => true
  | .eq2 => true
  | .drc => true
  | .empty => false
  | .mixStereo => false
  | .eq => false

/-- The ports of an instance are those of its module. -/
def FitsModule (m : Module) (inst : Instance F) : Prop :=
  m.audioPorts = some (inst.inputAudioPorts.map (·.originalIndex),
    inst.outputAudioPorts.map (·.originalIndex))

/-- One source, one sink and filters between them, with the audio ports of their modules. -/
structure BuiltinPipeline (ini : Ini F E) (pipeline : Pipeline F) : Prop where
  source : ∀ inst ∈ pipeline.instances, inst.plugin = pipeline.source → inst.inputAudioPorts = []
  sink : ∀ inst ∈ pipeline.instances, inst.plugin = pipeline.sink → inst.outputAudioPorts = []
  filters : ∀ inst ∈ pipeline.instances, inst.plugin ≠ pipeline.source →
    inst.plugin ≠ pipeline.sink → ∃ m, ini.module? inst.plugin = some m ∧ FitsModule m inst

/-- A module that copies its inputs in turn has the lower lane on the first. -/
def Uncrossed (ini : Ini F E) (instances : List (Instance F)) : Prop :=
  ∀ inst ∈ instances, ∀ m, ini.module? inst.plugin = some m → m.copiesInTurn = true →
    ∀ r r', inst.reads = [r, r'] → lanes instances r < lanes instances r'

/-- The ports of a filter, one by one. -/
inductive FilterPorts (ini : Ini F E) (inst : Instance F) : Prop
  | mono {a c : AudioPort} (hmodule : ini.module? inst.plugin = some .eq)
      (inputs : inst.inputAudioPorts = [a]) (outputs : inst.outputAudioPorts = [c])
      (ha : a.originalIndex = 0) (hc : c.originalIndex = 1)
  | stereo {m : Module} {a b c d : AudioPort} (hmodule : ini.module? inst.plugin = some m)
      (hm : m.audioPorts = some ([0, 1], [2, 3]))
      (inputs : inst.inputAudioPorts = [a, b]) (outputs : inst.outputAudioPorts = [c, d])
      (ha : a.originalIndex = 0) (hb : b.originalIndex = 1) (hc : c.originalIndex = 2)
      (hd : d.originalIndex = 3)

theorem map_eq_pair {α β : Type} {f : α → β} {l : List α} {x y : β} (h : l.map f = [x, y]) :
    ∃ a b, l = [a, b] ∧ f a = x ∧ f b = y := by
  obtain ⟨a, rest, hl, ha, hrest⟩ := List.map_eq_cons_iff.mp h
  obtain ⟨b, hb, hfb⟩ := List.map_eq_singleton_iff.mp hrest
  exact ⟨a, b, by rw [hl, hb], ha, hfb⟩

theorem filterPorts_of_fits {ini : Ini F E} {inst : Instance F} {m : Module}
    (hmodule : ini.module? inst.plugin = some m) (h : FitsModule m inst) :
    FilterPorts ini inst := by
  have hstereo : m.audioPorts = some ([0, 1], [2, 3]) → FilterPorts ini inst := by
    intro hm
    rw [FitsModule, hm] at h
    obtain ⟨hin, hout⟩ := Prod.mk.inj (Option.some.inj h)
    obtain ⟨a, b, hab, ha, hb⟩ := map_eq_pair hin.symm
    obtain ⟨c, d, hcd, hc, hd⟩ := map_eq_pair hout.symm
    exact FilterPorts.stereo hmodule hm hab hcd ha hb hc hd
  cases m with
  | empty => cases h
  | mixStereo => exact hstereo rfl
  | invertLr => exact hstereo rfl
  | eq2 => exact hstereo rfl
  | drc => exact hstereo rfl
  | eq =>
      obtain ⟨hin, hout⟩ := Prod.mk.inj (Option.some.inj h)
      obtain ⟨a, ha, hai⟩ := List.map_eq_singleton_iff.mp hin.symm
      obtain ⟨c, hc, hci⟩ := List.map_eq_singleton_iff.mp hout.symm
      exact FilterPorts.mono hmodule ha hc hai hci

theorem FilterPorts.shape {ini : Ini F E} {inst : Instance F} (h : FilterPorts ini inst) :
    FilterShape inst := by
  cases h with
  | mono _ hin hout _ _ => exact FilterShape.mono hin hout
  | stereo _ _ hin hout _ _ _ _ => exact FilterShape.stereo hin hout

/-! ## One filter -/

section Filter

variable {S : Type} {n : Nat}

/-- Live values are the same in both runs. -/
def Agree (shared : Nat → Block S n) (own : PortRef → Block S n) (l : List (Instance F)) : Prop :=
  ∀ v ∈ live l, shared v.2 = own v.1

variable {ini : Ini F E} {peak : Nat} {l : List (Instance F)} {inst : Instance F}
  {shared : Nat → Block S n} {own : PortRef → Block S n}

/-- What an instance leaves behind, when it has written its outputs and nothing else. -/
theorem Agree.snoc (h : Agree shared own l) (hassigned : InstanceAssigned peak l inst)
    (hord : DependencyOrdered (l ++ [inst])) {shared' : Nat → Block S n}
    {own' : PortRef → Block S n} (hvalues : ∀ v ∈ inst.values, shared' v.2 = own' v.1)
    (hshared : ∀ i, i ∉ inst.values.map (·.2) → shared' i = shared i)
    (hown : ∀ ref, ref ∉ inst.values.map (·.1) → own' ref = own ref) :
    Agree shared' own' (l ++ [inst]) := by
  intro v hv
  rw [live_snoc hord] at hv
  cases List.mem_append.mp hv with
  | inr hnew => exact hvalues v hnew
  | inl hold =>
      have hlive := (List.mem_filter.mp hold).1
      rw [hshared, hown]
      · exact h v hlive
      · intro href
        obtain ⟨v', hv', heq⟩ := List.mem_map.mp href
        obtain ⟨inst', hmem, hvalue⟩ := List.mem_flatMap.mp ((live_sublist l).subset hlive)
        refine hord.plugin_not_mem ?_
        rw [← Instance.plugin_of_mem_values hv', heq, Instance.plugin_of_mem_values hvalue]
        exact List.mem_map_of_mem hmem
      · intro hbuf
        refine hassigned.free v.2 ?_ (List.mem_map_of_mem hold)
        have heq : inst.values.map (·.2) = inst.outputAudioPorts.map (·.bufIndex) := List.map_map
        rw [← heq]
        exact hbuf

/-- The inputs of an instance are the same in both runs. -/
theorem Agree.input (h : Agree shared own l) (hassigned : InstanceAssigned peak l inst)
    {port : AudioPort} (hport : port ∈ inst.inputAudioPorts) :
    ∃ ref, port.peer = some ref ∧ shared port.bufIndex = own ref ∧
      ref.plugin ∈ l.map (·.plugin) := by
  obtain ⟨ref, hpeer, hlive⟩ := hassigned.inputs port hport
  obtain ⟨inst', hmem, hvalue⟩ := List.mem_flatMap.mp ((live_sublist l).subset hlive)
  refine ⟨ref, hpeer, h _ hlive, List.mem_map.mpr ⟨inst', hmem, ?_⟩⟩
  exact (Instance.plugin_of_mem_values hvalue).symm

theorem values_pair {c d : AudioPort} (h : inst.outputAudioPorts = [c, d]) :
    inst.values = [(⟨inst.plugin, c.originalIndex⟩, c.bufIndex),
      (⟨inst.plugin, d.originalIndex⟩, d.bufIndex)] := by
  rw [Instance.values, h]
  rfl

variable [Neg S] [Add S]

/-- What a module with two channels computes does not depend on the buffers' names. -/
theorem runModule_stereo (filters : Filters S n) (plugin : Nat) {m : Module}
    (hm : m.audioPorts = some ([0, 1], [2, 3])) :
    ∃ effect : Block S n → Block S n → Block S n × Block S n,
      ∀ {B : Type} [DecidableEq B] {port : Nat → Option B} {p₀ p₁ p₂ p₃ : B}
        (buffers : B → Block S n), port 0 = some p₀ → port 1 = some p₁ → port 2 = some p₂ →
        port 3 = some p₃ → p₂ ≠ p₃ → (m.copiesInTurn = true → p₁ ≠ p₂) →
        ∃ buffers', runModule filters plugin m port buffers = some buffers' ∧
          StereoEffect p₀ p₁ p₂ p₃ effect buffers buffers' := by
  have hports : ∀ {B : Type} {port : Nat → Option B} {p₀ p₁ p₂ p₃ : B}
      (run : B → B → B → B → B → Block S n), port 0 = some p₀ → port 1 = some p₁ →
      port 2 = some p₂ → port 3 = some p₃ →
      withStereoPorts port run = some (run p₀ p₁ p₂ p₃) := by
    intro B port p₀ p₁ p₂ p₃ run h₀ h₁ h₂ h₃
    rw [withStereoPorts, h₀, h₁, h₂, h₃]
    rfl
  cases m with
  | empty => cases hm
  | eq => cases hm
  | mixStereo =>
      refine ⟨mixStereoEffect, fun {B _ port p₀ p₁ p₂ p₃} buffers h₀ h₁ h₂ h₃ _ _ => ?_⟩
      exact ⟨_, hports _ h₀ h₁ h₂ h₃, mixStereo_effect buffers⟩
  | invertLr =>
      refine ⟨invertLrEffect, fun {B _ port p₀ p₁ p₂ p₃} buffers h₀ h₁ h₂ h₃ hne hturn => ?_⟩
      exact ⟨_, hports _ h₀ h₁ h₂ h₃, invertLr_effect hne (hturn rfl) buffers⟩
  | eq2 =>
      refine ⟨fun left right => filters.eq2Process plugin (left, right),
        fun {B _ port p₀ p₁ p₂ p₃} buffers h₀ h₁ h₂ h₃ hne hturn => ?_⟩
      exact ⟨_, hports _ h₀ h₁ h₂ h₃, stereoRun_effect hne (hturn rfl) buffers⟩
  | drc =>
      refine ⟨fun left right => filters.drcProcess plugin (left, right),
        fun {B _ port p₀ p₁ p₂ p₃} buffers h₀ h₁ h₂ h₃ hne hturn => ?_⟩
      exact ⟨_, hports _ h₀ h₁ h₂ h₃, stereoRun_effect hne (hturn rfl) buffers⟩

/-- An `eq` writes the same from both names of its input. -/
theorem Agree.mono (h : Agree shared own l) (filters : Filters S n)
    (hassigned : InstanceAssigned peak l inst) (hord : DependencyOrdered (l ++ [inst]))
    {a c : AudioPort} (hin : inst.inputAudioPorts = [a]) (hout : inst.outputAudioPorts = [c])
    (ha : a.originalIndex = 0) (hc : c.originalIndex = 1) :
    ∃ shared' own', runModule filters inst.plugin .eq (sharedNames inst) shared = some shared' ∧
      runModule filters inst.plugin .eq (ownNames inst) own = some own' ∧
      Agree shared' own' (l ++ [inst]) := by
  have ha' : a ∈ inst.inputAudioPorts := by
    rw [hin]
    exact List.mem_cons_self
  obtain ⟨ref, hpeer, hsame, _⟩ := h.input hassigned ha'
  have hs₀ : sharedNames inst 0 = some a.bufIndex := by
    simp [sharedNames, hin, hout, ha]
  have hs₁ : sharedNames inst 1 = some c.bufIndex := by
    simp [sharedNames, hin, hout, ha, hc]
  have ho₀ : ownNames inst 0 = some ref := by
    simp [ownNames, hin, ha, hpeer]
  have ho₁ : ownNames inst 1 = some ⟨inst.plugin, c.originalIndex⟩ := by
    simp [ownNames, hin, hout, ha, hc]
  have hvalues : inst.values = [(⟨inst.plugin, c.originalIndex⟩, c.bufIndex)] := by
    rw [Instance.values, hout]
    rfl
  obtain ⟨hfirst, hother⟩ := eqRun_effect (filters.eqProcess inst.plugin)
    a.bufIndex c.bufIndex shared
  obtain ⟨hfirst', hother'⟩ := eqRun_effect (filters.eqProcess inst.plugin)
    ref ⟨inst.plugin, c.originalIndex⟩ own
  refine ⟨eqRun (filters.eqProcess inst.plugin) a.bufIndex c.bufIndex shared,
    eqRun (filters.eqProcess inst.plugin) ref ⟨inst.plugin, c.originalIndex⟩ own, ?_, ?_,
      h.snoc hassigned hord (fun v hv => ?_) (fun i hi => ?_)
    (fun ref' hi => ?_)⟩
  · rw [runModule, hs₀, hs₁]
    rfl
  · rw [runModule, ho₀, ho₁]
    rfl
  · rw [hvalues, List.mem_singleton] at hv
    rw [hv, hfirst, hfirst', hsame]
  · rw [hvalues, List.map_singleton, List.mem_singleton] at hi
    exact hother i hi
  · rw [hvalues, List.map_singleton, List.mem_singleton] at hi
    exact hother' ref' hi

/-- A module with two inputs and two outputs writes the same from both names of its inputs,
where it writes no input before it has read it. -/
theorem Agree.stereo (h : Agree shared own l) (filters : Filters S n)
    (hassigned : InstanceAssigned peak l inst) (hord : DependencyOrdered (l ++ [inst]))
    {m : Module} {a b c d : AudioPort} (hm : m.audioPorts = some ([0, 1], [2, 3]))
    (hin : inst.inputAudioPorts = [a, b]) (hout : inst.outputAudioPorts = [c, d])
    (ha : a.originalIndex = 0) (hb : b.originalIndex = 1) (hc : c.originalIndex = 2)
    (hd : d.originalIndex = 3) (huncrossed : m.copiesInTurn = true → b.bufIndex ≠ c.bufIndex) :
    ∃ shared' own', runModule filters inst.plugin m (sharedNames inst) shared = some shared' ∧
      runModule filters inst.plugin m (ownNames inst) own = some own' ∧
      Agree shared' own' (l ++ [inst]) := by
  have ha' : a ∈ inst.inputAudioPorts := by
    rw [hin]
    exact List.mem_cons_self
  have hb' : b ∈ inst.inputAudioPorts := by
    rw [hin]
    exact List.mem_cons_of_mem _ List.mem_cons_self
  obtain ⟨ref, hpeer, hsame, _⟩ := h.input hassigned ha'
  obtain ⟨ref', hpeer', hsame', hplugin'⟩ := h.input hassigned hb'
  have hvalues := values_pair hout
  have hlt : c.bufIndex < d.bufIndex := by
    have hasc := hassigned.ascending
    rw [hout] at hasc
    exact (List.pairwise_cons.mp hasc).1 _ List.mem_cons_self
  have hne : (⟨inst.plugin, c.originalIndex⟩ : PortRef) ≠ ⟨inst.plugin, d.originalIndex⟩ := by
    rw [hc, hd]
    simp
  have hne' : ref' ≠ ⟨inst.plugin, c.originalIndex⟩ := by
    intro heq
    rw [heq] at hplugin'
    exact hord.plugin_not_mem hplugin'
  obtain ⟨effect, heffect⟩ := runModule_stereo filters inst.plugin hm
  obtain ⟨shared', hrun, hs⟩ := @heffect Nat _ (sharedNames inst) a.bufIndex b.bufIndex
    c.bufIndex d.bufIndex shared
    (by simp [sharedNames, hin, ha]) (by simp [sharedNames, hin, ha, hb])
    (by simp [sharedNames, hin, hout, ha, hb, hc])
    (by simp [sharedNames, hin, hout, ha, hb, hc, hd]) (Nat.ne_of_lt hlt)
    huncrossed
  obtain ⟨own', hrun', ho⟩ := @heffect PortRef _ (ownNames inst) ref ref'
    ⟨inst.plugin, c.originalIndex⟩ ⟨inst.plugin, d.originalIndex⟩ own
    (by simp [ownNames, hin, ha, hpeer]) (by simp [ownNames, hin, ha, hb, hpeer'])
    (by simp [ownNames, hin, hout, ha, hb, hc])
    (by simp [ownNames, hin, hout, ha, hb, hc, hd]) hne fun _ => hne'
  refine ⟨shared', own', hrun, hrun', h.snoc hassigned hord (fun v hv => ?_)
    (fun i hi => ?_) (fun ref'' hi => ?_)⟩
  · rw [hvalues] at hv
    cases List.mem_cons.mp hv with
    | inl hfirst => rw [hfirst, hs.first, ho.first, hsame, hsame']
    | inr hsecond =>
        rw [List.mem_singleton.mp hsecond, hs.second, ho.second, hsame, hsame']
  · rw [hvalues] at hi
    simp only [List.map_cons, List.map_nil, List.mem_cons, List.not_mem_nil, or_false,
      not_or] at hi
    exact hs.other i hi.1 hi.2
  · rw [hvalues] at hi
    simp only [List.map_cons, List.map_nil, List.mem_cons, List.not_mem_nil, or_false,
      not_or] at hi
    exact ho.other ref'' hi.1 hi.2

/-- A filter that does not overwrite what it has still to read keeps the agreement. -/
theorem Agree.filter (h : Agree shared own l) (filters : Filters S n)
    (hassigned : InstanceAssigned peak l inst) (hord : DependencyOrdered (l ++ [inst]))
    (hports : FilterPorts ini inst)
    (huncrossed : ∀ m, ini.module? inst.plugin = some m → m.copiesInTurn = true →
      ∀ a b c d, inst.inputAudioPorts = [a, b] → inst.outputAudioPorts = [c, d] →
        b.bufIndex ≠ c.bufIndex) :
    ∃ m shared' own', ini.module? inst.plugin = some m ∧
      runModule filters inst.plugin m (sharedNames inst) shared = some shared' ∧
      runModule filters inst.plugin m (ownNames inst) own = some own' ∧
      Agree shared' own' (l ++ [inst]) := by
  cases hports with
  | mono hmodule hin hout ha hc =>
      obtain ⟨shared', own', hrun, hrun', hagree⟩ :=
        h.mono filters hassigned hord hin hout ha hc
      exact ⟨.eq, shared', own', hmodule, hrun, hrun', hagree⟩
  | @stereo m a b c d hmodule hm hin hout ha hb hc hd =>
      obtain ⟨shared', own', hrun, hrun', hagree⟩ :=
        h.stereo filters hassigned hord hm hin hout ha hb hc hd
          fun hturn => huncrossed m hmodule hturn a b c d hin hout
      exact ⟨m, shared', own', hmodule, hrun, hrun', hagree⟩

end Filter

/-! ## All filters -/

section Run

variable {S : Type} [Neg S] [Add S] {n : Nat} {ini : Ini F E} {peak N : Nat}
  {instances : List (Instance F)}

/-- In lanes that are not crossed, the first output has the buffer of the first input. -/
theorem buffer_ne_of_uncrossed (hall : AllAssigned peak instances)
    (hord : DependencyOrdered instances) (huncrossed : Uncrossed ini instances)
    {l l' : List (Instance F)} {inst : Instance F} (hsplit : instances = l ++ inst :: l')
    (hlanes : LanesHold N l) (hreads : inst.reads.Nodup) (hinplace : inst.inplaceBroken = false)
    {m : Module} (hmodule : ini.module? inst.plugin = some m) (hturn : m.copiesInTurn = true)
    {a b c d : AudioPort} (hin : inst.inputAudioPorts = [a, b])
    (hout : inst.outputAudioPorts = [c, d]) : b.bufIndex ≠ c.bufIndex := by
  have hassigned := hall.each l inst l' hsplit
  obtain ⟨busy, hbusy⟩ := hall.states l _ hsplit
  have hfront : DependencyOrdered l := by
    rw [hsplit] at hord
    exact hord.append_left
  have hlane : ∀ port ∈ inst.inputAudioPorts, ∃ ref, port.peer = some ref ∧
      port.bufIndex = lanes instances ref := by
    intro port hport
    obtain ⟨ref, hpeer, hlive⟩ := hassigned.inputs port hport
    have hvalue := (live_sublist l).subset hlive
    refine ⟨ref, hpeer, ?_⟩
    obtain ⟨inst', hmem, hvalue'⟩ := List.mem_flatMap.mp hvalue
    have hplugin : ref.plugin ∈ l.map (·.plugin) :=
      List.mem_map.mpr ⟨inst', hmem, (Instance.plugin_of_mem_values hvalue').symm⟩
    have hnodup := hord.plugins
    rw [hsplit] at hnodup ⊢
    rw [lanes_append hnodup hplugin]
    exact hlanes.buffers _ hvalue
  obtain ⟨ref, hpeer, hbuf⟩ := hlane a (by rw [hin]; exact List.mem_cons_self)
  obtain ⟨ref', hpeer', hbuf'⟩ := hlane b
    (by rw [hin]; exact List.mem_cons_of_mem _ List.mem_cons_self)
  have hread : inst.reads = [ref, ref'] := by
    rw [Instance.reads, hin, List.filterMap_cons, hpeer]
    dsimp only
    rw [List.filterMap_cons, hpeer']
    rfl
  have hmem : inst ∈ instances := by
    rw [hsplit]
    exact List.mem_append_right _ List.mem_cons_self
  have hlt := huncrossed inst hmem m hmodule hturn ref ref' hread
  have hperm := hassigned.outputs_perm hbusy hfront hreads hinplace hlanes.full
    (FilterShape.stereo hin hout).length_eq
  have hasc := hassigned.ascending
  rw [hin, hout] at hperm
  rw [hout] at hasc
  have hmin : c.bufIndex = min a.bufIndex b.bufIndex :=
    (pair_of_perm hperm ((List.pairwise_cons.mp hasc).1 _ List.mem_cons_self)).1
  omega

theorem runInstances_cons {B : Type} [DecidableEq B] (filters : Filters S n)
    {names : Instance F → Nat → Option B} {inst : Instance F} {rest : List (Instance F)}
    {m : Module} {buffers buffers₁ : B → Block S n} (hmodule : ini.module? inst.plugin = some m)
    (hrun : runModule filters inst.plugin m (names inst) buffers = some buffers₁) :
    runInstances filters ini names (inst :: rest) buffers =
      runInstances filters ini names rest buffers₁ := by
  rw [runInstances, hmodule, Option.bind_some, hrun, Option.bind_some]

/-- The filters keep the agreement, one after the other; `last` is what follows them. -/
theorem run_filters (filters : Filters S n) (hall : AllAssigned peak instances)
    (hord : DependencyOrdered instances) (honce : FeedsOnce instances)
    (huncrossed : Uncrossed ini instances) {last : List (Instance F)} :
    ∀ (rest l : List (Instance F)) (shared : Nat → Block S n) (own : PortRef → Block S n),
      instances = l ++ (rest ++ last) → LanesHold N l → Agree shared own l →
      (∀ inst ∈ rest, FilterPorts ini inst ∧ inst.inplaceBroken = false) →
      ∃ shared' own', Agree shared' own' (l ++ rest) ∧
        runInstances filters ini sharedNames (rest ++ last) shared =
          runInstances filters ini sharedNames last shared' ∧
        runInstances filters ini ownNames (rest ++ last) own =
          runInstances filters ini ownNames last own' := by
  intro rest
  induction rest with
  | nil =>
      intro l shared own _ _ hagree _
      refine ⟨shared, own, ?_, rfl, rfl⟩
      rw [List.append_nil]
      exact hagree
  | cons inst rest ih =>
      intro l shared own hsplit hlanes hagree hfilters
      obtain ⟨hports, hinplace⟩ := hfilters inst List.mem_cons_self
      have hsplit' : instances = (l ++ [inst]) ++ (rest ++ last) := by
        rw [hsplit, List.append_assoc]
        rfl
      have hord' : DependencyOrdered (l ++ [inst]) := by
        rw [hsplit'] at hord
        exact hord.append_left
      have hreads : inst.reads.Nodup := by
        have hnodup := honce
        rw [hsplit'] at hnodup
        have hnodup := hnodup.append_left
        unfold FeedsOnce at hnodup
        rw [List.flatMap_append, List.flatMap_singleton] at hnodup
        exact hnodup.of_append_right
      have hassigned := hall.each l inst (rest ++ last) hsplit
      obtain ⟨busy, hbusy⟩ := hall.states l _ hsplit
      obtain ⟨m, shared₁, own₁, hmodule, hrun, hrun', hagree₁⟩ :=
        hagree.filter filters hassigned hord' hports fun m hmodule hturn a b c d hin hout =>
          buffer_ne_of_uncrossed hall hord huncrossed hsplit hlanes hreads hinplace hmodule hturn
            hin hout
      have hlanes₁ := hlanes.filter hassigned hbusy hord' hreads hinplace hports.shape
      obtain ⟨shared', own', hagree', hshared, hown⟩ := ih (l ++ [inst]) shared₁ own₁ hsplit'
        hlanes₁ hagree₁ fun inst' hmem => hfilters inst' (List.mem_cons_of_mem _ hmem)
      rw [List.append_assoc] at hagree'
      refine ⟨shared', own', hagree', ?_, ?_⟩
      · rw [List.cons_append, runInstances_cons filters hmodule hrun]
        exact hshared
      · rw [List.cons_append, runInstances_cons filters hmodule hrun']
        exact hown

/-- The run of a source, filters and a sink. -/
theorem run_pipeline (filters : Filters S n) (hall : AllAssigned peak instances)
    (hord : DependencyOrdered instances) (honce : FeedsOnce instances)
    (huncrossed : Uncrossed ini instances) {source sink : Instance F} {mid : List (Instance F)}
    (hsplit : instances = source :: (mid ++ [sink]))
    (hsource : ini.module? source.plugin = some .empty ∧ source.inputAudioPorts = [] ∧
      source.inplaceBroken = false)
    (hmid : ∀ inst ∈ mid, FilterPorts ini inst ∧ inst.inplaceBroken = false)
    (hsink : ini.module? sink.plugin = some .empty) {shared : Nat → Block S n}
    {own : PortRef → Block S n} (hstart : ∀ v ∈ source.values, shared v.2 = own v.1) :
    ∃ shared' own', runInstances filters ini sharedNames instances shared = some shared' ∧
      runInstances filters ini ownNames instances own = some own' ∧
      ∀ port ∈ sink.inputAudioPorts, ∃ ref, port.peer = some ref ∧
        shared' port.bufIndex = own' ref := by
  obtain ⟨hempty, hinputs, hinplace⟩ := hsource
  have hord₁ : DependencyOrdered [source] := by
    rw [hsplit] at hord
    exact hord.append_left (l := [source])
  have hlanes : LanesHold source.outputAudioPorts.length [source] :=
    lanesHold_source (hall.each [] source _ hsplit) hord₁ hinplace hinputs
  have hagree : Agree shared own [source] := by
    intro v hv
    have hvalue := (live_sublist [source]).subset hv
    rw [List.flatMap_singleton] at hvalue
    exact hstart v hvalue
  obtain ⟨shared', own', hagree', hshared, hown⟩ := run_filters filters hall hord honce huncrossed
    mid [source] shared own hsplit hlanes hagree hmid
  refine ⟨shared', own', ?_, ?_, fun port hport => ?_⟩
  · rw [hsplit, runInstances_cons filters hempty rfl, hshared, runInstances_cons filters hsink rfl]
    rfl
  · rw [hsplit, runInstances_cons filters hempty rfl, hown, runInstances_cons filters hsink rfl]
    rfl
  · have hassigned := hall.each ([source] ++ mid) sink [] (by rw [hsplit]; simp)
    obtain ⟨ref, hpeer, hlive⟩ := hassigned.inputs port hport
    exact ⟨ref, hpeer, hagree' _ hlive⟩

end Run

end DragonDevice.Dsp
