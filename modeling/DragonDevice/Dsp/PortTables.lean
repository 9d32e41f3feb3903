/-
  Dsp/PortTables.lean --- when builtin modules only touch ports that are connected.

  The ports of an instance are connected at the indices they have in the ini file, and these
  are all the indices below their number.  So a module stays within its table, and its runs
  within what is connected, exactly for certain numbers of ports.
-/
import DragonDevice.Dsp.Instantiate
import DragonDevice.Dsp.ChannelBuffers

set_option autoImplicit false

namespace DragonDevice.Dsp

open DragonDevice.Lib

variable {F E : Type}

/-- The numbers of ports that a module works with. -/
def Module.FitsPorts (k : Nat) : Module → Prop
  | .empty => True
  | .mixStereo => k = 4
  | .invertLr => k = 4
  | .eq => k = 0 ∨ ∃ groups ≤ maxBiquadsPerEq, k = 2 + groups * 4
  | .eq2 => k = 0 ∨ ∃ groups ≤ maxBiquadsPerEq2, k = 4 + groups * 8
  | .drc => k = 4 + 1 + 8 * 3

theorem Module.FitsPorts.le_portCount {module : Module} {k : Nat} (h : module.FitsPorts k)
    (hmodule : module ≠ .empty) : k ≤ module.portCount := by
  cases module with
  | empty => exact absurd rfl hmodule
  | mixStereo => exact Nat.le_of_eq h
  | invertLr => exact Nat.le_of_eq h
  | eq =>
      rcases h with rfl | ⟨groups, hgroups, rfl⟩
      · exact Nat.zero_le _
      · exact Nat.add_le_add_left (Nat.mul_le_mul_right 4 hgroups) 2
  | eq2 =>
      rcases h with rfl | ⟨groups, hgroups, rfl⟩
      · exact Nat.zero_le _
      · exact Nat.add_le_add_left (Nat.mul_le_mul_right 8 hgroups) 4
  | drc => exact Nat.le_of_eq h

/-- The ports of all modules can be connected, and no runs go through a slot that was not. -/
def TouchesConnected (ini : Ini F E) (instances : List (Instance F)) : Prop :=
  ∃ modules, instances.mapM (connectModule ini) = some modules ∧
    ∀ sampleCounts : List Nat, ∃ modules', sampleCounts.foldlM runModules modules = some modules'

/-! ## Connecting -/

namespace ModuleData

/-- The slots below a number are connected, and no others. -/
def ConnectedBelow (data : ModuleData) (k : Nat) : Prop :=
  ∀ j, (data.port j).isSome = true ↔ j < k

theorem storePort_some {data data' : ModuleData} {i : Nat} {location : Location}
    (h : data.storePort i location = some data') :
    i < data.ports.length ∧ data'.ports.length = data.ports.length ∧
      data'.filter = data.filter ∧
      ∀ j, (data'.port j).isSome = true ↔ j = i ∨ (data.port j).isSome = true := by
  unfold storePort at h
  split at h
  · rename_i hlt
    cases h
    refine ⟨hlt, List.length_set, rfl, fun j => ?_⟩
    unfold port
    by_cases hj : j = i
    · subst hj
      rw [List.getElem?_set_self hlt]
      simp
    · rw [List.getElem?_set_ne (Ne.symm hj)]
      simp [hj]
  · cases h

/-- Stores to a table succeed exactly when they are within it. -/
theorem foldlM_storePort : ∀ (connections : List (Nat × Location)) (data : ModuleData),
    (∀ c ∈ connections, c.1 < data.ports.length) →
    ∃ data', connections.foldlM (fun data c => data.storePort c.1 c.2) data = some data' := by
  intro connections
  induction connections with
  | nil =>
      intro data _
      exact ⟨data, rfl⟩
  | cons c connections ih =>
      intro data hlt
      obtain ⟨hc, hrest⟩ := List.forall_mem_cons.mp hlt
      have hstore : ∃ data₁, data.storePort c.1 c.2 = some data₁ :=
        ⟨_, by rw [storePort, if_pos hc]⟩
      obtain ⟨data₁, hstore⟩ := hstore
      obtain ⟨_, hlength, _⟩ := storePort_some hstore
      obtain ⟨data', hfold⟩ := ih data₁ (by rw [hlength]; exact hrest)
      exact ⟨data', by rw [List.foldlM_cons, hstore]; exact hfold⟩

/-- What stores that succeed leave. -/
theorem foldlM_storePort_some : ∀ (connections : List (Nat × Location)) {data data' : ModuleData},
    connections.foldlM (fun data c => data.storePort c.1 c.2) data = some data' →
    (∀ c ∈ connections, c.1 < data.ports.length) ∧ data'.filter = data.filter ∧
      ∀ j, (data'.port j).isSome = true ↔
        j ∈ connections.map Prod.fst ∨ (data.port j).isSome = true := by
  intro connections
  induction connections with
  | nil =>
      intro data data' h
      cases h
      exact ⟨List.forall_mem_nil _, rfl, by simp⟩
  | cons c connections ih =>
      intro data data' h
      rw [List.foldlM_cons] at h
      obtain ⟨data₁, hstore, hfold⟩ := Option.bind_eq_some_iff.mp h
      obtain ⟨hlt, hlength, hfilter, hport⟩ := storePort_some hstore
      obtain ⟨hrest, hfilter', hport'⟩ := ih hfold
      rw [hlength] at hrest
      refine ⟨List.forall_mem_cons.mpr ⟨hlt, hrest⟩, hfilter'.trans hfilter, fun j => ?_⟩
      rw [hport', hport, List.map_cons, List.mem_cons]
      tauto

end ModuleData

theorem Module.instantiate_port (module : Module) (j : Nat) :
    (module.instantiate.port j).isSome = false := by
  rw [ModuleData.port, Module.instantiate, List.getElem?_replicate]
  split <;> rfl

/-- The table of a module after its ports have been connected. -/
theorem Module.connect_iff {module : Module} (hmodule : module ≠ .empty)
    {connections : List (Nat × Location)} {k : Nat}
    (hindices : ∀ j, j ∈ connections.map Prod.fst ↔ j < k) :
    ((∃ data, connections.foldlM (fun data c => module.connectPort data c.1 c.2)
        module.instantiate = some data) ↔ k ≤ module.portCount) ∧
      ∀ data, connections.foldlM (fun data c => module.connectPort data c.1 c.2)
        module.instantiate = some data → data.filter = none ∧ data.ConnectedBelow k := by
  have hstores : connections.foldlM (fun data c => module.connectPort data c.1 c.2)
      module.instantiate =
      connections.foldlM (fun data c => data.storePort c.1 c.2) module.instantiate := by
    cases module with
    | empty => exact absurd rfl hmodule
    | _ => rfl
  have hlength : module.instantiate.ports.length = module.portCount := List.length_replicate
  rw [hstores]
  refine ⟨⟨?_, ?_⟩, ?_⟩
  · rintro ⟨data, hfold⟩
    obtain ⟨hlt, _⟩ := ModuleData.foldlM_storePort_some connections hfold
    by_contra hgreater
    obtain ⟨c, hc, hindex⟩ := List.mem_map.mp ((hindices module.portCount).mpr (by omega))
    have := hlt c hc
    omega
  · intro hk
    refine ModuleData.foldlM_storePort connections _ fun c hc => ?_
    have := (hindices c.1).mp (List.mem_map_of_mem hc)
    omega
  · intro data hfold
    obtain ⟨_, hfilter, hport⟩ := ModuleData.foldlM_storePort_some connections hfold
    refine ⟨hfilter, fun j => ?_⟩
    rw [hport, hindices, Module.instantiate_port]
    simp

/-! ## Accesses -/

namespace ModuleData

variable {data data' : ModuleData} {k : Nat}

theorem connected_iff (h : data.ConnectedBelow k) (slots : List Nat) :
    data.connected slots = true ↔ ∀ j ∈ slots, j < k := by
  rw [connected, List.all_eq_true]
  exact forall₂_congr fun j _ => h j

theorem access_of_lt (h : data.ConnectedBelow k) {slots : List Nat} (hslots : ∀ j ∈ slots, j < k) :
    data.access slots = some data := by
  rw [access, if_pos ((connected_iff h slots).mpr hslots)]

theorem access_some (h : data.ConnectedBelow k) {slots : List Nat}
    (haccess : data.access slots = some data') : data' = data ∧ ∀ j ∈ slots, j < k := by
  unfold access at haccess
  split at haccess
  · rename_i hconnected
    cases haccess
    exact ⟨rfl, (connected_iff h slots).mp hconnected⟩
  · cases haccess

theorem port_eq_none (h : data.ConnectedBelow k) {j : Nat} : data.port j = none ↔ k ≤ j := by
  rw [← Option.not_isSome_iff_eq_none, h, Nat.not_lt]

/-- A copy between connected ports, or between two that are not. -/
theorem copy_of_lt_iff (h : data.ConnectedBelow k) {source target : Nat}
    (hports : source < k ↔ target < k) (sampleCount : Nat) :
    data.copy source target sampleCount = some data := by
  unfold copy
  split
  · rfl
  · rename_i hdiffer
    refine access_of_lt h ?_
    by_cases hsource : source < k
    · simpa using ⟨hsource, hports.mp hsource⟩
    · -- both are `NULL`, and no copy is made
      refine absurd (Or.inl ?_) hdiffer
      rw [(port_eq_none h).mpr (by omega), (port_eq_none h).mpr (by omega)]

theorem copy_one_some (h : data.ConnectedBelow k) {source target : Nat}
    (hcopy : data.copy source target 1 = some data') :
    data' = data ∧ (source < k ↔ target < k) := by
  unfold copy at hcopy
  split at hcopy
  · rename_i hsame
    cases hcopy
    rcases hsame with hsame | hzero
    · rw [← h, ← h, hsame]
      exact ⟨rfl, Iff.rfl⟩
    · cases hzero
  · obtain ⟨heq, hslots⟩ := access_some h hcopy
    have hsource := hslots source (by simp)
    have htarget := hslots target (by simp)
    exact ⟨heq, iff_of_true hsource htarget⟩

theorem process_of_lt (h : data.ConnectedBelow k) {slots : List Nat} {count : Nat}
    (hslots : count ≠ 0 → ∀ j ∈ slots, j < k) (sampleCount : Nat) :
    data.process count slots sampleCount = some data := by
  unfold process
  split
  · rfl
  · rename_i hne
    rw [not_or] at hne
    exact access_of_lt h (hslots hne.1)

/-- Groups of parameters are read exactly when the last of them is complete. -/
theorem exists_readGroups_iff (h : data.ConnectedBelow k) {width : Nat} (hwidth : 0 < width) :
    ∀ left i, k ≤ i + left * width →
      ((∃ groups, data.readGroups width left i = some groups) ↔ k ≤ i ∨ width ∣ k - i) := by
  intro left
  induction left with
  | zero =>
      intro i hk
      exact iff_of_true ⟨0, rfl⟩ (Or.inl (by omega))
  | succ left ih =>
      intro i hk
      rw [readGroups]
      by_cases hi : k ≤ i
      · rw [if_pos ((port_eq_none h).mpr hi)]
        exact iff_of_true ⟨0, rfl⟩ (Or.inl hi)
      · rw [if_neg (fun hnone => hi ((port_eq_none h).mp hnone))]
        have hgroup : data.connected (List.range' i width) = true ↔ i + width ≤ k := by
          rw [connected_iff h]
          constructor
          · intro hall
            have := hall (i + width - 1) (List.mem_range'_1.mpr (by omega))
            omega
          · intro hle j hj
            have := List.mem_range'_1.mp hj
            omega
        by_cases hle : i + width ≤ k
        · rw [if_pos (hgroup.mpr hle)]
          have hk' : k ≤ i + width + left * width := by
            rw [Nat.succ_mul] at hk
            omega
          have hrest := ih (i + width) hk'
          have hsub : k - i = k - (i + width) + width := by omega
          rw [hsub, Nat.dvd_add_self_right]
          constructor
          · rintro ⟨groups, hgroups⟩
            obtain ⟨groups', hgroups', _⟩ := Option.map_eq_some_iff.mp hgroups
            rcases hrest.mp ⟨groups', hgroups'⟩ with hend | hdvd
            · exact Or.inr (by rw [Nat.sub_eq_zero_of_le hend]; exact Nat.dvd_zero _)
            · exact Or.inr hdvd
          · rintro (hend | hdvd)
            · exact absurd hend hi
            · obtain ⟨groups, hgroups⟩ := hrest.mpr (Or.inr hdvd)
              exact ⟨groups + 1, by rw [hgroups]; rfl⟩
        · rw [if_neg (fun hconnected => hle (hgroup.mp hconnected))]
          refine iff_of_false (by rintro ⟨_, ⟨⟩⟩) ?_
          rintro (hend | hdvd)
          · exact hi hend
          · have := Nat.le_of_dvd (by omega) hdvd
            omega

theorem readGroups_of_le (h : data.ConnectedBelow k) (width left : Nat) {i : Nat} (hi : k ≤ i) :
    data.readGroups width left i = some 0 := by
  cases left with
  | zero => rfl
  | succ left => rw [readGroups, if_pos ((port_eq_none h).mpr hi)]

/-- Complete groups behind the audio ports are read. -/
theorem exists_groups (h : data.ConnectedBelow k) {width : Nat} (hwidth : 0 < width)
    {left start : Nat} (hk : k = 0 ∨ ∃ groups ≤ left, k = start + groups * width) :
    ∃ groups, data.readGroups width left start = some groups ∧ (k = 0 → groups = 0) := by
  by_cases hzero : k = 0
  · exact ⟨0, readGroups_of_le h width left (by omega), fun _ => rfl⟩
  · obtain ⟨groups, hgroups, hk⟩ := hk.resolve_left hzero
    have hle : k ≤ start + left * width := by
      have := Nat.mul_le_mul_right width hgroups
      omega
    have hdvd : width ∣ k - start := ⟨groups, by rw [hk, Nat.add_sub_cancel_left, Nat.mul_comm]⟩
    obtain ⟨groups', hread⟩ := (exists_readGroups_iff h hwidth left start hle).mpr (Or.inr hdvd)
    exact ⟨groups', hread, fun h => absurd h hzero⟩

/-- Behind the audio ports there are only complete groups if all groups are read. -/
theorem fits_of_readGroups (h : data.ConnectedBelow k) {width : Nat} (hwidth : 0 < width)
    {left start groups : Nat} (hread : data.readGroups width left start = some groups)
    (hk : k ≤ start + left * width) (hstart : k = 0 ∨ start ≤ k) :
    k = 0 ∨ ∃ groups ≤ left, k = start + groups * width := by
  rcases hstart with hzero | hstart
  · exact Or.inl hzero
  · have hdvd : width ∣ k - start := by
      rcases (exists_readGroups_iff h hwidth left start hk).mp ⟨groups, hread⟩ with hle | hdvd
      · exact ⟨0, by omega⟩
      · exact hdvd
    obtain ⟨groups', hgroups'⟩ := hdvd
    rw [Nat.mul_comm] at hgroups'
    refine Or.inr ⟨groups', Nat.le_of_mul_le_mul_right ?_ hwidth, by omega⟩
    omega

/-- Slots stay connected, and there are no filters without ports. -/
structure Ready (k : Nat) (data : ModuleData) : Prop where
  below : data.ConnectedBelow k
  filters : k = 0 → data.filters = 0

theorem Ready.ensureFilter (h : Ready k data) {make : Option Nat}
    (hmake : ∃ groups, make = some groups ∧ (k = 0 → groups = 0)) :
    ∃ data', data.ensureFilter make = some data' ∧ Ready k data' := by
  unfold ModuleData.ensureFilter
  cases hfilter : data.filter with
  | some filters => exact ⟨data, rfl, h⟩
  | none =>
      obtain ⟨groups, rfl, hgroups⟩ := hmake
      exact ⟨_, rfl, h.below, hgroups⟩

theorem ensureFilter_some {make : Option Nat} (hfilter : data.filter = none)
    (h : data.ensureFilter make = some data') :
    ∃ groups, make = some groups ∧ data'.ports = data.ports := by
  unfold ensureFilter at h
  rw [hfilter] at h
  obtain ⟨groups, hgroups, rfl⟩ := Option.map_eq_some_iff.mp h
  exact ⟨groups, hgroups, rfl⟩

theorem ConnectedBelow.of_ports (h : data.ConnectedBelow k) (hports : data'.ports = data.ports) :
    data'.ConnectedBelow k := by
  intro j
  rw [port, hports]
  exact h j

end ModuleData

/-! ## Runs of a module -/

/-- A module with a fitting number of ports can run at any time. -/
theorem Module.access_ready {module : Module} {k : Nat} {data : ModuleData}
    (hfits : module.FitsPorts k) (h : ModuleData.Ready k data) (sampleCount : Nat) :
    ∃ data', module.access data sampleCount = some data' ∧ ModuleData.Ready k data' := by
  have hstereo : k = 4 → stereoAccess data sampleCount = some data := by
    intro hk
    unfold stereoAccess
    split
    · rfl
    · exact ModuleData.access_of_lt h.below (by simp; omega)
  cases module with
  | empty => exact ⟨data, rfl, h⟩
  | mixStereo => exact ⟨data, hstereo hfits, h⟩
  | invertLr => exact ⟨data, hstereo hfits, h⟩
  | eq =>
      obtain ⟨data₁, hfilter, h₁⟩ :=
        h.ensureFilter (ModuleData.exists_groups h.below (by decide) hfits)
      have hk : k = 0 ∨ 2 ≤ k := hfits.imp id fun ⟨_, _, hk⟩ => by omega
      have hcopy := ModuleData.copy_of_lt_iff h₁.below
        (show 0 < k ↔ 1 < k by omega) sampleCount
      have hprocess : data₁.process data₁.filters [1] sampleCount = some data₁ :=
        ModuleData.process_of_lt h₁.below (fun hne => by
          have hpos : k ≠ 0 := fun hzero => hne (h₁.filters hzero)
          simp
          omega) sampleCount
      refine ⟨data₁, ?_, h₁⟩
      show eqAccess data sampleCount = _
      rw [eqAccess, hfilter, Option.bind_some, hcopy, Option.bind_some, hprocess]
  | eq2 =>
      obtain ⟨data₁, hfilter, h₁⟩ :=
        h.ensureFilter (ModuleData.exists_groups h.below (by decide) hfits)
      have hk : k = 0 ∨ 4 ≤ k := hfits.imp id fun ⟨_, _, hk⟩ => by omega
      have hcopy := ModuleData.copy_of_lt_iff h₁.below
        (show 0 < k ↔ 2 < k by omega) sampleCount
      have hcopy' := ModuleData.copy_of_lt_iff h₁.below
        (show 1 < k ↔ 3 < k by omega) sampleCount
      have hprocess : data₁.process data₁.filters [2, 3] sampleCount = some data₁ :=
        ModuleData.process_of_lt h₁.below (fun hne => by
          have hpos : k ≠ 0 := fun hzero => hne (h₁.filters hzero)
          simp
          omega) sampleCount
      refine ⟨data₁, ?_, h₁⟩
      show eq2Access data sampleCount = _
      rw [eq2Access, hfilter, Option.bind_some, hcopy, Option.bind_some, hcopy', Option.bind_some,
        hprocess]
  | drc =>
      have hk : k = 29 := hfits
      have hparameters : data.connected (4 :: List.range' 5 (8 * 3)) = true :=
        (ModuleData.connected_iff h.below _).mpr (by rw [hk]; decide)
      have hmake : ∃ groups,
          (if data.connected (4 :: List.range' 5 (8 * 3)) then some 1 else none) =
          some groups ∧ (k = 0 → groups = 0) :=
        ⟨1, if_pos hparameters, by omega⟩
      obtain ⟨data₁, hfilter, h₁⟩ := h.ensureFilter hmake
      have hcopy := ModuleData.copy_of_lt_iff h₁.below
        (show 0 < k ↔ 2 < k by omega) sampleCount
      have hcopy' := ModuleData.copy_of_lt_iff h₁.below
        (show 1 < k ↔ 3 < k by omega) sampleCount
      have hprocess : data₁.process data₁.filters [2, 3] sampleCount = some data₁ :=
        ModuleData.process_of_lt h₁.below (fun _ => by simp; omega) sampleCount
      refine ⟨data₁, ?_, h₁⟩
      show drcAccess data sampleCount = _
      rw [drcAccess, hfilter, Option.bind_some, hcopy, Option.bind_some, hcopy', Option.bind_some,
        hprocess]

/-- The first run of a module over one sample finds out whether the number of its ports fits. -/
theorem Module.fitsPorts_of_access {module : Module} {k : Nat} {data data' : ModuleData}
    (hk : k ≤ module.portCount) (hbelow : data.ConnectedBelow k) (hfilter : data.filter = none)
    (h : module.access data 1 = some data') : module.FitsPorts k := by
  have hstereo : k ≤ 4 → stereoAccess data 1 = some data' → k = 4 := by
    intro hk h
    have := (ModuleData.access_some hbelow h).2 3 (by simp)
    omega
  cases module with
  | empty => trivial
  | mixStereo => exact hstereo hk h
  | invertLr => exact hstereo hk h
  | eq =>
      obtain ⟨data₁, hensure, hrest⟩ := Option.bind_eq_some_iff.mp h
      obtain ⟨groups, hread, hports⟩ := ModuleData.ensureFilter_some hfilter hensure
      obtain ⟨data₂, hcopy, _⟩ := Option.bind_eq_some_iff.mp hrest
      obtain ⟨_, hcopied⟩ := ModuleData.copy_one_some (hbelow.of_ports hports) hcopy
      exact ModuleData.fits_of_readGroups hbelow (by decide) hread hk (by omega)
  | eq2 =>
      obtain ⟨data₁, hensure, hrest⟩ := Option.bind_eq_some_iff.mp h
      obtain ⟨groups, hread, hports⟩ := ModuleData.ensureFilter_some hfilter hensure
      obtain ⟨data₂, hcopy, hrest'⟩ := Option.bind_eq_some_iff.mp hrest
      obtain ⟨rfl, hcopied⟩ := ModuleData.copy_one_some (hbelow.of_ports hports) hcopy
      obtain ⟨data₃, hcopy', _⟩ := Option.bind_eq_some_iff.mp hrest'
      obtain ⟨_, hcopied'⟩ := ModuleData.copy_one_some (hbelow.of_ports hports) hcopy'
      have hstart : k = 0 ∨ 4 ≤ k := by omega
      exact ModuleData.fits_of_readGroups hbelow (by decide) hread hk hstart
  | drc =>
      obtain ⟨data₁, hensure, _⟩ := Option.bind_eq_some_iff.mp h
      obtain ⟨groups, hread, _⟩ := ModuleData.ensureFilter_some hfilter hensure
      split at hread
      · rename_i hconnected
        have hlast := (ModuleData.connected_iff hbelow _).mp hconnected 28 (by decide)
        have hall : k ≤ 29 := hk
        show k = 29
        omega
      · cases hread

/-! ## The indices of an instance -/

theorem Instance.connections_indices (inst : Instance F) : inst.connections.map Prod.fst =
    inst.inputAudioPorts.map (·.originalIndex) ++ inst.outputAudioPorts.map (·.originalIndex) ++
      inst.inputControlPorts.map (·.originalIndex) ++
      inst.outputControlPorts.map (·.originalIndex) := by
  simp only [Instance.connections, List.map_append, List.map_map]
  rfl

theorem assignInstance_controls {instances : List (Instance F)} {inst inst' : Instance F}
    {busy busy' : List Bool} (h : assignInstance instances inst busy = some (inst', busy')) :
    inst'.inputControlPorts = inst.inputControlPorts ∧
      inst'.outputControlPorts = inst.outputControlPorts := by
  unfold assignInstance at h
  obtain ⟨inputs, _, h⟩ := Option.bind_eq_some_iff.mp h
  split at h
  · obtain ⟨_, _, h⟩ := Option.bind_eq_some_iff.mp h
    obtain ⟨_, _, h⟩ := Option.bind_eq_some_iff.mp h
    cases h
    exact ⟨rfl, rfl⟩
  · obtain ⟨_, _, h⟩ := Option.bind_eq_some_iff.mp h
    obtain ⟨_, _, h⟩ := Option.bind_eq_some_iff.mp h
    cases h
    exact ⟨rfl, rfl⟩

/-- Loading keeps the indices of the ports. -/
theorem pipelineLoad_indices {ini : Ini F E} {pipeline : Pipeline F} {alloc : Allocation F}
    (h : pipelineLoad ini pipeline = .done alloc) :
    List.Forall₂ (fun inst inst' => inst'.plugin = inst.plugin ∧
      inst'.connections.map Prod.fst = inst.connections.map Prod.fst)
      pipeline.instances alloc.instances := by
  obtain ⟨out, hassign, rfl⟩ := Option.map_eq_some_iff.mp (allocateBuffers_of_pipelineLoad h)
  obtain ⟨tail, rfl, hgiven⟩ := assignBuffers_forall₂
    (P := fun _ => True)
    (R := fun inst inst' => inst'.plugin = inst.plugin ∧
      inst'.connections.map Prod.fst = inst.connections.map Prod.fst)
    (fun instances inst inst' busy busy' _ hone => by
      have hcontrol := assignInstance_controls hone
      have hindices := (assignInstance_given hone).1
      refine ⟨⟨hindices.plugin, ?_⟩, trivial⟩
      rw [Instance.connections_indices, Instance.connections_indices, hindices.inputs,
        hindices.outputs, hcontrol.1, hcontrol.2]) trivial hassign
  rw [List.forall₂_map_left_iff] at hgiven
  exact hgiven

/-- The ports of an instance are connected at all the indices of the plugin's ports. -/
theorem connections_of_pipelineCreate {ini : Ini F E} {eval : E → Option Bool} {purpose : String}
    {fuel : Nat} {pipeline : Pipeline F}
    (h : pipelineCreate ini eval purpose fuel = .done pipeline) {inst : Instance F}
    (hinst : inst ∈ pipeline.instances) :
    ∃ plugin, ini.plugins[inst.plugin]? = some plugin ∧
      ∀ j, j ∈ inst.connections.map Prod.fst ↔ j < plugin.ports.length := by
  obtain ⟨_, _, hfold⟩ := pipelineCreate_done h
  obtain ⟨i, hi⟩ := List.getElem?_of_mem hinst
  obtain ⟨_, _, plugin, hplugin, hports⟩ := (instancesBuilt_of_fold hfold).each i inst hi
  refine ⟨plugin, hplugin, fun j => ?_⟩
  have hkind : ∀ direction type, j ∈ (inst.ports direction type).map (·.1) ↔
      ∃ port, plugin.ports[j]? = some port ∧ port.is direction type = true := by
    intro direction type
    rw [hports.indices, mem_positions]
  have hinputAudio := hkind .input .audio
  have houtputAudio := hkind .output .audio
  have hinputControl := hkind .input .control
  have houtputControl := hkind .output .control
  simp only [Instance.ports, List.map_map] at hinputAudio houtputAudio hinputControl houtputControl
  rw [Instance.connections_indices, List.mem_append, List.mem_append, List.mem_append]
  constructor
  · rintro (((hj | hj) | hj) | hj)
    · obtain ⟨port, hport, _⟩ := hinputAudio.mp hj
      exact (List.getElem?_eq_some_iff.mp hport).1
    · obtain ⟨port, hport, _⟩ := houtputAudio.mp hj
      exact (List.getElem?_eq_some_iff.mp hport).1
    · obtain ⟨port, hport, _⟩ := hinputControl.mp hj
      exact (List.getElem?_eq_some_iff.mp hport).1
    · obtain ⟨port, hport, _⟩ := houtputControl.mp hj
      exact (List.getElem?_eq_some_iff.mp hport).1
  · intro hj
    have hport := List.getElem?_eq_getElem hj
    cases hdirection : plugin.ports[j].direction with
    | input =>
        cases htype : plugin.ports[j].type with
        | audio =>
            exact Or.inl (Or.inl (Or.inl
              (hinputAudio.mpr ⟨_, hport, Port.is_iff.mpr ⟨hdirection, htype⟩⟩)))
        | control =>
            exact Or.inl (Or.inr
              (hinputControl.mpr ⟨_, hport, Port.is_iff.mpr ⟨hdirection, htype⟩⟩))
    | output =>
        cases htype : plugin.ports[j].type with
        | audio =>
            exact Or.inl (Or.inl (Or.inr
              (houtputAudio.mpr ⟨_, hport, Port.is_iff.mpr ⟨hdirection, htype⟩⟩)))
        | control =>
            exact Or.inr (houtputControl.mpr ⟨_, hport, Port.is_iff.mpr ⟨hdirection, htype⟩⟩)

/-! ## Runs of a pipeline -/

/-- A module that can run at any time. -/
def RunsReady (m : Module × ModuleData) : Prop :=
  m.1 = .empty ∨ ∃ k, m.1.FitsPorts k ∧ ModuleData.Ready k m.2

theorem runModules_ready {modules : List (Module × ModuleData)}
    (h : ∀ m ∈ modules, RunsReady m) (sampleCount : Nat) :
    ∃ modules', runModules modules sampleCount = some modules' ∧ ∀ m ∈ modules', RunsReady m := by
  refine exists_mapM_all fun m hm => ?_
  rcases h m hm with hempty | ⟨k, hfits, hready⟩
  · refine ⟨m, ?_, Or.inl hempty⟩
    obtain ⟨module, data⟩ := m
    subst hempty
    rfl
  · obtain ⟨data', haccess, hready'⟩ := Module.access_ready hfits hready sampleCount
    exact ⟨(m.1, data'), by rw [haccess]; rfl, Or.inr ⟨k, hfits, hready'⟩⟩

theorem foldlM_runModules_ready (sampleCounts : List Nat) :
    ∀ {modules : List (Module × ModuleData)}, (∀ m ∈ modules, RunsReady m) →
      ∃ modules', sampleCounts.foldlM runModules modules = some modules' := by
  induction sampleCounts with
  | nil =>
      intro modules _
      exact ⟨modules, rfl⟩
  | cons sampleCount sampleCounts ih =>
      intro modules h
      obtain ⟨modules₁, hrun, h₁⟩ := runModules_ready h sampleCount
      obtain ⟨modules', hfold⟩ := ih h₁
      exact ⟨modules', by rw [List.foldlM_cons, hrun]; exact hfold⟩

/-- The plugin of an instance has a number of ports that its module works with. -/
def PortsFit (ini : Ini F E) (inst : Instance F) : Prop :=
  ∀ plugin module, ini.plugins[inst.plugin]? = some plugin → loadBuiltin plugin = some module →
    module.FitsPorts plugin.ports.length

/-- One instance, before and after loading. -/
def InstanceLoaded (ini : Ini F E) (inst inst' : Instance F) : Prop :=
  ∃ plugin module, ini.plugins[inst.plugin]? = some plugin ∧
    loadBuiltin plugin = some module ∧ ini.module? inst'.plugin = some module ∧
    ∀ j, j ∈ inst'.connections.map Prod.fst ↔ j < plugin.ports.length

theorem instancesLoaded {ini : Ini F E} {eval : E → Option Bool} {purpose : String}
    {fuel : Nat} {pipeline : Pipeline F} {alloc : Allocation F}
    (hcreate : pipelineCreate ini eval purpose fuel = .done pipeline)
    (hload : pipelineLoad ini pipeline = .done alloc) :
    (∀ inst ∈ pipeline.instances, ∃ inst' ∈ alloc.instances, InstanceLoaded ini inst inst') ∧
      ∀ inst' ∈ alloc.instances, ∃ inst ∈ pipeline.instances, InstanceLoaded ini inst inst' := by
  obtain ⟨loaded, hmapM, _⟩ := pipelineLoad_done hload
  have hmodules := (mapM_some_mem hmapM).1
  have hindices := exists_of_forall₂ (pipelineLoad_indices hload)
  have hone : ∀ inst ∈ pipeline.instances, ∀ inst', inst'.plugin = inst.plugin ∧
      inst'.connections.map Prod.fst = inst.connections.map Prod.fst →
      InstanceLoaded ini inst inst' := by
    rintro inst hinst inst' ⟨hplugin, hconnections⟩
    obtain ⟨plugin, hget, hports⟩ := connections_of_pipelineCreate hcreate hinst
    obtain ⟨_, _, hmodule⟩ := hmodules inst hinst
    obtain ⟨module, hmodule, _⟩ := Option.map_eq_some_iff.mp hmodule
    have hbuiltin := hmodule
    rw [Ini.module?, hget, Option.bind_some] at hbuiltin
    refine ⟨plugin, module, hget, hbuiltin, by rw [hplugin]; exact hmodule, fun j => ?_⟩
    rw [hconnections]
    exact hports j
  refine ⟨fun inst hinst => ?_, fun inst' hinst' => ?_⟩
  · obtain ⟨inst', hinst', h⟩ := hindices.1 inst hinst
    exact ⟨inst', hinst', hone inst hinst inst' h⟩
  · obtain ⟨inst, hinst, h⟩ := hindices.2 inst' hinst'
    exact ⟨inst, hinst, hone inst hinst inst' h⟩

/-- An instance whose ports fit can be connected and run. -/
theorem InstanceLoaded.connect {ini : Ini F E} {inst inst' : Instance F}
    (h : InstanceLoaded ini inst inst') (hfit : PortsFit ini inst) :
    ∃ m, connectModule ini inst' = some m ∧ RunsReady m := by
  obtain ⟨plugin, module, hplugin, hbuiltin, hmodule, hindices⟩ := h
  have hfits := hfit plugin module hplugin hbuiltin
  rw [connectModule, hmodule, Option.bind_some]
  by_cases hempty : module = .empty
  · subst hempty
    have hfold : ∀ (connections : List (Nat × Location)) (data : ModuleData),
        connections.foldlM (fun data c => Module.empty.connectPort data c.1 c.2) data =
          some data := by
      intro connections
      induction connections with
      | nil => exact fun data => rfl
      | cons c connections ih => exact fun data => ih data
    exact ⟨_, by rw [hfold]; rfl, Or.inl rfl⟩
  · obtain ⟨hconnect, hdata⟩ := Module.connect_iff hempty hindices
    have hle : plugin.ports.length ≤ module.portCount := hfits.le_portCount hempty
    obtain ⟨data, hfold⟩ := hconnect.mpr hle
    obtain ⟨hfilter, hbelow⟩ := hdata data hfold
    refine ⟨(module, data), by rw [hfold]; rfl, Or.inr ⟨_, hfits, hbelow, fun _ => ?_⟩⟩
    rw [ModuleData.filters, hfilter]
    rfl

/-- The ports of an instance fit if it can be connected and run over one sample. -/
theorem InstanceLoaded.portsFit {ini : Ini F E} {inst inst' : Instance F}
    (h : InstanceLoaded ini inst inst') {m : Module × ModuleData} {data' : ModuleData}
    (hconnect : connectModule ini inst' = some m) (hrun : m.1.access m.2 1 = some data') :
    PortsFit ini inst := by
  obtain ⟨plugin, module, hplugin, hbuiltin, hmodule, hindices⟩ := h
  intro plugin' module' hplugin' hbuiltin'
  cases hplugin.symm.trans hplugin'
  cases hbuiltin.symm.trans hbuiltin'
  rw [connectModule, hmodule, Option.bind_some] at hconnect
  obtain ⟨data, hfold, rfl⟩ := Option.map_eq_some_iff.mp hconnect
  by_cases hempty : module = .empty
  · rw [hempty]
    trivial
  · obtain ⟨hle, hdata⟩ := Module.connect_iff hempty hindices
    obtain ⟨hfilter, hbelow⟩ := hdata data hfold
    exact Module.fitsPorts_of_access (hle.mp ⟨data, hfold⟩) hbelow hfilter hrun

/-- A pipeline with buffers only touches ports that are connected exactly when every instance has a
number of ports that its module works with. -/
theorem touchesConnected_iff_portsFit {ini : Ini F E} {eval : E → Option Bool} {purpose : String}
    {fuel : Nat} {pipeline : Pipeline F} {alloc : Allocation F}
    (hcreate : pipelineCreate ini eval purpose fuel = .done pipeline)
    (hload : pipelineLoad ini pipeline = .done alloc) :
    TouchesConnected ini alloc.instances ↔ ∀ inst ∈ pipeline.instances, PortsFit ini inst := by
  obtain ⟨hafter, hbefore⟩ := instancesLoaded hcreate hload
  constructor
  · rintro ⟨modules, hconnect, hruns⟩ inst hinst
    obtain ⟨inst', hinst', hloaded⟩ := hafter inst hinst
    obtain ⟨m, hm, hmodule⟩ := (mapM_some_mem hconnect).1 inst' hinst'
    obtain ⟨modules', hrun⟩ := hruns [1]
    obtain ⟨modules₁, hone, _⟩ := Option.bind_eq_some_iff.mp hrun
    obtain ⟨m', _, haccess⟩ := (mapM_some_mem hone).1 m hm
    obtain ⟨data', haccess, _⟩ := Option.map_eq_some_iff.mp haccess
    exact hloaded.portsFit hmodule haccess
  · intro hfit
    have hconnects : ∀ inst' ∈ alloc.instances,
        ∃ m, connectModule ini inst' = some m ∧ RunsReady m := by
      intro inst' hinst'
      obtain ⟨inst, hinst, hloaded⟩ := hbefore inst' hinst'
      exact hloaded.connect (hfit inst hinst)
    obtain ⟨modules, hconnect, hready⟩ := exists_mapM_all hconnects
    exact ⟨modules, hconnect, fun sampleCounts => foldlM_runModules_ready sampleCounts hready⟩

/-- A pipeline is created, and no module fails to load.  Where each output feeds at most one
input, none of its own instance, loading stays within the flags and only ports that are connected
are touched exactly when every instance has a number of ports that its module works with; and of
any other pipeline this holds if loading stays within the flags. -/
theorem touchesConnected_iff {ini : Ini F E} {eval : E → Option Bool} {purpose : String}
    {fuel : Nat} {pipeline : Pipeline F}
    (hcreate : pipelineCreate ini eval purpose fuel = .done pipeline)
    (hload : pipelineLoad ini pipeline ≠ .failed) :
    (FeedsOnce pipeline.instances → ReadsOthers pipeline.instances →
      ((∃ alloc, pipelineLoad ini pipeline = .done alloc ∧
          TouchesConnected ini alloc.instances) ↔
        ∀ inst ∈ pipeline.instances, PortsFit ini inst)) ∧
    ∀ alloc, pipelineLoad ini pipeline = .done alloc →
      (TouchesConnected ini alloc.instances ↔
        ∀ inst ∈ pipeline.instances, PortsFit ini inst) := by
  refine ⟨fun honce hothers => ⟨?_, fun hfit => ?_⟩,
    fun alloc hdone => touchesConnected_iff_portsFit hcreate hdone⟩
  · rintro ⟨alloc, hdone, htouches⟩
    exact (touchesConnected_iff_portsFit hcreate hdone).mp htouches
  · obtain ⟨alloc, hdone⟩ :=
      pipelineLoad_of_feedsOnce (dependencyOrdered_of_readsOthers hcreate hothers) honce hload
    exact ⟨alloc, hdone, (touchesConnected_iff_portsFit hcreate hdone).mpr hfit⟩

/-- `invert_lr` has its four ports. -/
theorem touchesConnected_straight :
    ∃ alloc, pipelineLoad straightIni (invertPipeline ⟨0, 0⟩ ⟨0, 1⟩) = .done alloc ∧
      TouchesConnected straightIni alloc.instances := by
  have honce : FeedsOnce (invertPipeline ⟨0, 0⟩ ⟨0, 1⟩).instances := by
    unfold FeedsOnce
    decide
  have hothers : ReadsOthers (invertPipeline ⟨0, 0⟩ ⟨0, 1⟩).instances := by
    unfold ReadsOthers
    decide
  refine ((touchesConnected_iff pipelineCreate_straight nofun).1 honce hothers).mpr ?_
  intro inst hinst plugin module hplugin hbuiltin
  simp only [invertPipeline, invertInstances, List.mem_cons, List.not_mem_nil, or_false] at hinst
  rcases hinst with rfl | rfl | rfl
  · cases hplugin
    cases hbuiltin
    trivial
  · cases hplugin
    cases hbuiltin
    rfl
  · cases hplugin
    cases hbuiltin
    trivial

/-- `eq` with the first parameter of a filter only. -/
def partialFilterIni : Ini Unit Bool where
  plugins :=
    [⟨"builtin", "source", some "playback", none, [audioOut 0]⟩,
      ⟨"builtin", "eq", none, none, [audioIn 0, audioOut 1, ⟨.input, .control, none, ()⟩]⟩,
      ⟨"builtin", "sink", some "playback", none, [audioIn 1]⟩]
  flowTypes := [.audio, .audio]
  port_flow := by decide
  audio_flow := by decide

/-- The pipeline is created, loaded and connected, and its first run reads the second parameter
through a slot that is not connected. -/
theorem not_touchesConnected_partialFilter :
    ∃ pipeline alloc modules, pipelineCreate partialFilterIni some "playback" 4 = .done pipeline ∧
      pipelineLoad partialFilterIni pipeline = .done alloc ∧
      alloc.instances.mapM (connectModule partialFilterIni) = some modules ∧
      runModules modules 1 = none ∧ ¬ TouchesConnected partialFilterIni alloc.instances := by
  refine ⟨_, _, _, rfl, rfl, rfl, rfl, ?_⟩
  rintro ⟨modules, hconnect, hruns⟩
  cases hconnect
  obtain ⟨modules', hrun⟩ := hruns [1]
  cases hrun

end DragonDevice.Dsp
