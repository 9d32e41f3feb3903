/-
  Dsp/BuffersSound.lean --- buffers are shared by values that are not live together.

  The invariant of the second pass is that the flags are set for the buffers of the live
  values, each of which has its own, and that their number is the `need_buf` of the first
  pass.  So there is room for the outputs of the next instance.
-/
import DragonDevice.Dsp.Buffers
import DragonDevice.Lib.PartialMap

set_option autoImplicit false

namespace DragonDevice.Dsp

open DragonDevice.Lib

variable {F : Type}

/-! ## What does not depend on the buffers -/

theorem Instance.wiring_plugin (inst : Instance F) : inst.wiring.plugin = inst.plugin := rfl

theorem Instance.wiring_reads (inst : Instance F) : inst.wiring.reads = inst.reads :=
  List.filterMap_map

theorem Instance.wiring_ports (inst : Instance F) (direction : PortDirection) (type : PortType) :
    inst.wiring.ports direction type = inst.ports direction type := by
  cases direction with
  | input =>
      cases type with
      | audio => exact List.map_map
      | control => rfl
  | output =>
      cases type with
      | audio => exact List.map_map
      | control => rfl

theorem Instance.wiring_indices (inst : Instance F) :
    inst.wiring.outputAudioPorts.map (·.originalIndex) =
      inst.outputAudioPorts.map (·.originalIndex) := List.map_map

theorem plugins_of_wiring {l l' : List (Instance F)}
    (h : l'.map Instance.wiring = l.map Instance.wiring) :
    l'.map (·.plugin) = l.map (·.plugin) := by
  have hmap := congrArg (List.map (·.plugin)) h
  rw [List.map_map, List.map_map] at hmap
  exact hmap

theorem reads_of_wiring {l l' : List (Instance F)}
    (h : l'.map Instance.wiring = l.map Instance.wiring) :
    l'.flatMap Instance.reads = l.flatMap Instance.reads := by
  have hmap := congrArg (List.flatMap Instance.reads) h
  rw [List.flatMap_map, List.flatMap_map] at hmap
  simp only [Instance.wiring_reads] at hmap
  exact hmap

theorem HasOutput.of_wiring {l l' : List (Instance F)} {type : PortType} {ref : PortRef}
    (h : l'.map Instance.wiring = l.map Instance.wiring) (hout : HasOutput l type ref) :
    HasOutput l' type ref := by
  obtain ⟨inst, hmem, hplugin, hindex⟩ := hout
  have hwiring : inst.wiring ∈ l'.map Instance.wiring := by
    rw [h]
    exact List.mem_map_of_mem hmem
  obtain ⟨inst', hmem', heq⟩ := List.mem_map.mp hwiring
  refine ⟨inst', hmem', ?_, ?_⟩
  · rw [← inst'.wiring_plugin, heq]
    exact hplugin
  · rw [← inst'.wiring_ports, heq, inst.wiring_ports]
    exact hindex

theorem DependencyOrdered.of_wiring {l l' : List (Instance F)} (hord : DependencyOrdered l)
    (h : l'.map Instance.wiring = l.map Instance.wiring) : DependencyOrdered l' := by
  refine ⟨?_, fun inst hmem => ?_, fun l₁ inst l₂ hl port hport => ?_⟩
  · rw [plugins_of_wiring h]
    exact hord.plugins
  · have hwiring : inst.wiring ∈ l.map Instance.wiring := by
      rw [← h]
      exact List.mem_map_of_mem hmem
    obtain ⟨inst', hmem', heq⟩ := List.mem_map.mp hwiring
    rw [← inst.wiring_indices, ← heq, inst'.wiring_indices]
    exact hord.outputs inst' hmem'
  · rw [hl, List.map_append, List.map_cons] at h
    obtain ⟨m₁, m, hm, h₁, h₂⟩ := List.map_eq_append_iff.mp h.symm
    obtain ⟨inst', m₂, hm₂, heq, _⟩ := List.map_eq_cons_iff.mp h₂
    have hport' : (port.originalIndex, port.peer) ∈ inst'.ports .input .audio := by
      rw [← inst'.wiring_ports, heq, inst.wiring_ports]
      exact List.mem_map_of_mem hport
    obtain ⟨port', hmem, hpeq⟩ := List.mem_map.mp hport'
    obtain ⟨ref, hpeer, hout⟩ := hord.peers m₁ inst' m₂ (by rw [hm, hm₂]) port' hmem
    refine ⟨ref, ?_, hout.of_wiring h₁.symm⟩
    rw [← (Prod.mk.inj hpeq).2]
    exact hpeer

theorem FeedsOnce.of_wiring {l l' : List (Instance F)} (honce : FeedsOnce l)
    (h : l'.map Instance.wiring = l.map Instance.wiring) : FeedsOnce l' := by
  unfold FeedsOnce
  rw [reads_of_wiring h]
  exact honce

/-! ## The first pass -/

theorem countBuffers_snoc (l : List (Instance F)) (inst : Instance F) :
    countBuffers (l ++ [inst]) = (countBuffers l).count inst := by
  unfold countBuffers
  rw [List.foldl_append]
  rfl

theorem BufferNeed.peak_le_count (n : BufferNeed) (inst : Instance F) :
    n.peak ≤ (n.count inst).peak := by
  unfold BufferNeed.count
  split
  · exact le_max_left _ _
  · exact le_max_left _ _

theorem BufferNeed.count_need (n : BufferNeed) (inst : Instance F) :
    (n.count inst).need =
      n.need + inst.outputAudioPorts.length - inst.inputAudioPorts.length := by
  unfold BufferNeed.count
  split
  · rfl
  · dsimp only
    omega

theorem peak_le_append (l l' : List (Instance F)) :
    (countBuffers l).peak ≤ (countBuffers (l ++ l')).peak := by
  induction l' generalizing l with
  | nil =>
      rw [List.append_nil]
  | cons inst l' ih =>
      have hnext := ih (l ++ [inst])
      rw [List.append_assoc] at hnext
      refine Int.le_trans ?_ hnext
      rw [countBuffers_snoc]
      exact BufferNeed.peak_le_count _ inst

theorem count_of_wiring {l l' : List (Instance F)}
    (h : l'.map Instance.wiring = l.map Instance.wiring) : countBuffers l' = countBuffers l := by
  have hone : ∀ (n : BufferNeed) (inst : Instance F), n.count inst = n.count inst.wiring := by
    intro n inst
    unfold BufferNeed.count Instance.inplaceBroken Instance.wiring Instance.withBuffers
    simp only [List.length_map]
  have hmap : ∀ l : List (Instance F), countBuffers l = countBuffers (l.map Instance.wiring) := by
    intro l
    unfold countBuffers
    rw [List.foldl_map]
    congr 1
    funext n inst
    exact hone n inst
  rw [hmap l', h, ← hmap l]

/-! ## Live values -/

theorem DependencyOrdered.append_left {l l' : List (Instance F)}
    (h : DependencyOrdered (l ++ l')) : DependencyOrdered l := by
  refine ⟨?_, fun inst hmem => h.outputs inst (List.mem_append_left l' hmem),
    fun l₁ inst l₂ hl port hport => ?_⟩
  · have hnodup := h.plugins
    rw [List.map_append] at hnodup
    exact hnodup.of_append_left
  · exact h.peers l₁ inst (l₂ ++ l') (by rw [hl, List.append_assoc, List.cons_append]) port hport

theorem FeedsOnce.append_left {l l' : List (Instance F)} (h : FeedsOnce (l ++ l')) :
    FeedsOnce l := by
  unfold FeedsOnce at h ⊢
  rw [List.flatMap_append] at h
  exact h.of_append_left

theorem Instance.plugin_of_mem_values {inst : Instance F} {v : PortRef × Nat}
    (h : v ∈ inst.values) : v.1.plugin = inst.plugin := by
  obtain ⟨port, _, hv⟩ := List.mem_map.mp h
  rw [← hv]

/-- Each output has one value. -/
theorem DependencyOrdered.values_nodup {l : List (Instance F)} (h : DependencyOrdered l) :
    ((l.flatMap Instance.values).map (·.1)).Nodup := by
  rw [List.map_flatMap, List.nodup_flatMap]
  constructor
  · intro inst hmem
    have hindices := (h.outputs inst hmem).map (f := PortRef.mk inst.plugin)
      fun i j hij => (PortRef.mk.inj hij).2
    rw [List.map_map] at hindices
    unfold Instance.values
    rw [List.map_map]
    exact hindices
  · refine (List.pairwise_map.mp h.plugins).imp fun {inst inst'} hne => ?_
    intro ref href href'
    obtain ⟨v, hv, hvref⟩ := List.mem_map.mp href
    obtain ⟨v', hv', hvref'⟩ := List.mem_map.mp href'
    apply hne
    rw [← Instance.plugin_of_mem_values hv, ← Instance.plugin_of_mem_values hv', hvref, hvref']

theorem HasOutput.plugin_mem {l : List (Instance F)} {type : PortType} {ref : PortRef}
    (h : HasOutput l type ref) : ref.plugin ∈ l.map (·.plugin) := by
  obtain ⟨inst, hmem, hplugin, _⟩ := h
  exact List.mem_map.mpr ⟨inst, hmem, hplugin⟩

theorem Instance.mem_reads {inst : Instance F} {ref : PortRef} :
    ref ∈ inst.reads ↔ ∃ port ∈ inst.inputAudioPorts, port.peer = some ref :=
  List.mem_filterMap

/-- What an instance reads is an output before it. -/
theorem DependencyOrdered.hasOutput_of_read {l l' : List (Instance F)} {inst : Instance F}
    (h : DependencyOrdered (l ++ inst :: l')) {ref : PortRef} (href : ref ∈ inst.reads) :
    HasOutput l .audio ref := by
  obtain ⟨port, hport, hpeer⟩ := Instance.mem_reads.mp href
  obtain ⟨ref', hpeer', hout⟩ := h.peers l inst l' rfl port hport
  rw [hpeer] at hpeer'
  cases hpeer'
  exact hout

theorem DependencyOrdered.plugin_of_reads {l : List (Instance F)} (h : DependencyOrdered l)
    {ref : PortRef} (href : ref ∈ l.flatMap Instance.reads) : ref.plugin ∈ l.map (·.plugin) := by
  obtain ⟨inst, hmem, hread⟩ := List.mem_flatMap.mp href
  obtain ⟨l₁, l₂, hl⟩ := List.append_of_mem hmem
  rw [hl] at h ⊢
  have hplugin := (h.hasOutput_of_read hread).plugin_mem
  rw [List.map_append]
  exact List.mem_append_left _ hplugin

theorem DependencyOrdered.plugin_not_mem {l l' : List (Instance F)} {inst : Instance F}
    (h : DependencyOrdered (l ++ inst :: l')) : inst.plugin ∉ l.map (·.plugin) := by
  intro hmem
  have hnodup := h.plugins
  rw [List.map_append, List.map_cons] at hnodup
  exact (List.nodup_append.mp hnodup).2.2 _ hmem _ List.mem_cons_self rfl

/-- An instance ends the life of what it reads, and its outputs begin theirs. -/
theorem live_snoc {l : List (Instance F)} {inst : Instance F}
    (h : DependencyOrdered (l ++ [inst])) :
    live (l ++ [inst]) = (live l).filter (fun v => decide (v.1 ∉ inst.reads)) ++ inst.values := by
  unfold live
  rw [List.flatMap_append, List.flatMap_append, List.filter_append, List.flatMap_singleton,
    List.flatMap_singleton, List.filter_filter]
  congr 1
  · apply List.filter_congr
    intro v _
    simp only [List.mem_append, not_or, Bool.decide_and]
    exact Bool.and_comm _ _
  · rw [List.filter_eq_self]
    intro v hv
    rw [decide_eq_true_iff, List.mem_append, not_or]
    have hplugin := Instance.plugin_of_mem_values hv
    constructor
    · intro href
      have hmem := h.append_left.plugin_of_reads href
      rw [hplugin] at hmem
      exact h.plugin_not_mem hmem
    · intro href
      have hmem := (h.hasOutput_of_read href).plugin_mem
      rw [hplugin] at hmem
      exact h.plugin_not_mem hmem

theorem live_sublist (l : List (Instance F)) : List.Sublist (live l) (l.flatMap Instance.values) :=
  List.filter_sublist

/-- Taking out the elements with the given keys. -/
theorem length_filter_keys {α β : Type} [DecidableEq β] {l : List (β × α)} {keys : List β}
    (hl : (l.map (·.1)).Nodup) (hkeys : keys.Nodup) (hsub : ∀ x ∈ keys, x ∈ l.map (·.1)) :
    (l.filter fun v => decide (v.1 ∉ keys)).length + keys.length = l.length := by
  have hperm : List.Perm ((l.map (·.1)).filter fun x => decide (x ∈ keys)) keys := by
    rw [List.perm_ext_iff_of_nodup (hl.filter _) hkeys]
    intro x
    rw [List.mem_filter, decide_eq_true_iff]
    exact ⟨fun hx => hx.2, fun hx => ⟨hsub x hx, hx⟩⟩
  have hlen := hperm.length_eq
  rw [List.filter_map, List.length_map] at hlen
  have hsplit := List.length_eq_length_filter_add (l := l) fun v => decide (v.1 ∈ keys)
  have hnot : (l.filter fun v => !decide (v.1 ∈ keys)) = l.filter fun v => decide (v.1 ∉ keys) := by
    apply List.filter_congr
    intro v _
    rw [decide_not]
  have hcomp : (l.filter ((fun x => decide (x ∈ keys)) ∘ fun v : β × α => v.1)) =
      l.filter fun v => decide (v.1 ∈ keys) := rfl
  rw [hcomp] at hlen
  rw [hnot] at hsplit
  omega

/-! ## The inputs of an instance -/

/-- The peer of an input is found among the instances before it. -/
theorem findOutputAudioPort_append {l l' : List (Instance F)} {ref : PortRef}
    (hnodup : (l.map (·.plugin)).Nodup) (h : HasOutput l .audio ref) :
    ∃ port, findOutputAudioPort (l ++ l') ref = some port ∧
      (ref, port.bufIndex) ∈ l.flatMap Instance.values := by
  obtain ⟨inst, hmem, hplugin, hindex⟩ := h
  have hfind : findInstanceByPlugin (l ++ l') ref.plugin = some inst := by
    unfold findInstanceByPlugin
    cases hfound : l.find? fun inst => inst.plugin == ref.plugin with
    | none =>
        have hnone := List.find?_eq_none.mp hfound inst hmem
        rw [hplugin] at hnone
        exact absurd (beq_self_eq_true _) hnone
    | some inst' =>
        have hmem' := List.mem_of_find?_eq_some hfound
        have hplugin' := beq_iff_eq.mp (List.find?_some hfound :)
        have heq := List.inj_on_of_nodup_map hnodup hmem' hmem (hplugin'.trans hplugin.symm)
        rw [List.find?_append, hfound, heq]
        rfl
  unfold findOutputAudioPort
  rw [hfind, Option.bind_some]
  rw [Instance.ports, List.map_map] at hindex
  obtain ⟨port, hport, hpindex⟩ := List.mem_map.mp hindex
  cases hfound : inst.outputAudioPorts.find? fun port => port.originalIndex == ref.index with
  | none =>
      have hnone := List.find?_eq_none.mp hfound port hport
      exact absurd (beq_iff_eq.mpr hpindex) hnone
  | some port' =>
      refine ⟨port', rfl, List.mem_flatMap.mpr ⟨inst, hmem, List.mem_map.mpr
        ⟨port', List.mem_of_find?_eq_some hfound, ?_⟩⟩⟩
      rw [hplugin, beq_iff_eq.mp (List.find?_some hfound :)]

/-- The inputs of an instance have the buffers of the live values that they read. -/
structure InputsCollected (assigned : List (Instance F)) (inst : Instance F)
    (inputs : List AudioPort) : Prop where
  wiring : inputs.map (fun port => { port with bufIndex := 0 }) =
    inst.inputAudioPorts.map fun port => { port with bufIndex := 0 }
  live : ∀ port ∈ inputs, ∃ ref, port.peer = some ref ∧ (ref, port.bufIndex) ∈ live assigned

theorem collectInputs_spec {assigned rest : List (Instance F)} {inst : Instance F}
    (hord : DependencyOrdered (assigned ++ inst :: rest))
    (honce : FeedsOnce (assigned ++ inst :: rest)) :
    ∃ inputs, collectInputs (assigned ++ inst :: rest) inst.inputAudioPorts = some inputs ∧
      InputsCollected assigned inst inputs := by
  have hlive : ∀ port ∈ inst.inputAudioPorts, ∃ port',
      ((port.peer.bind (findOutputAudioPort (assigned ++ inst :: rest))).map fun peer =>
        { port with bufIndex := peer.bufIndex }) = some port' ∧
      ({ port' with bufIndex := 0 } : AudioPort) = { port with bufIndex := 0 } ∧
      ∃ ref, port'.peer = some ref ∧ (ref, port'.bufIndex) ∈ live assigned := by
    intro port hport
    obtain ⟨ref, hpeer, hout⟩ := hord.peers assigned inst rest rfl port hport
    obtain ⟨peer, hfind, hvalue⟩ := findOutputAudioPort_append hord.append_left.plugins hout
    refine ⟨{ port with bufIndex := peer.bufIndex }, ?_, rfl, ref, hpeer, ?_⟩
    · rw [hpeer, Option.bind_some, hfind]
      rfl
    · refine List.mem_filter.mpr ⟨hvalue, decide_eq_true fun hread => ?_⟩
      unfold FeedsOnce at honce
      rw [List.flatMap_append, List.flatMap_cons] at honce
      exact (List.nodup_append.mp honce).2.2 ref hread ref
        (List.mem_append_left _ (Instance.mem_reads.mpr ⟨port, hport, hpeer⟩)) rfl
  obtain ⟨inputs, hcollect, hall⟩ := exists_mapM_forall₂ hlive
  refine ⟨inputs, hcollect, map_eq_map_of_forall₂ (hall.imp fun _ _ h => h.1), ?_⟩
  intro port' hport'
  obtain ⟨_, _, h⟩ := (exists_of_forall₂ hall).2 port' hport'
  exact h.2

theorem map_eq_map_some {α β : Type} {f : α → Option β} :
    ∀ {l : List α}, (∀ a ∈ l, ∃ b, f a = some b) → l.map f = (l.filterMap f).map some := by
  intro l
  induction l with
  | nil =>
      intro _
      rfl
  | cons a l ih =>
      intro h
      obtain ⟨b, hb⟩ := h a List.mem_cons_self
      rw [List.map_cons, List.filterMap_cons, hb, List.map_cons,
        ih fun a ha => h a (List.mem_cons_of_mem _ ha)]

namespace InputsCollected

variable {assigned : List (Instance F)} {inst : Instance F} {inputs : List AudioPort}

theorem length_eq (h : InputsCollected assigned inst inputs) :
    inputs.length = inst.inputAudioPorts.length := by
  have hlen := congrArg List.length h.wiring
  rw [List.length_map, List.length_map] at hlen
  exact hlen

theorem reads_eq (h : InputsCollected assigned inst inputs) :
    inputs.filterMap (·.peer) = inst.reads := by
  have hmap := congrArg (List.filterMap (·.peer)) h.wiring
  rw [List.filterMap_map, List.filterMap_map] at hmap
  exact hmap

theorem peers_eq (h : InputsCollected assigned inst inputs) :
    inputs.map (·.peer) = inst.reads.map some := by
  rw [← h.reads_eq]
  refine map_eq_map_some fun port hport => ?_
  obtain ⟨ref, hpeer, _⟩ := h.live port hport
  exact ⟨ref, hpeer⟩

/-- Inputs that read different values have different buffers. -/
theorem buffers_nodup (h : InputsCollected assigned inst inputs) (hreads : inst.reads.Nodup)
    (hapart : ((Dsp.live assigned).map (·.2)).Nodup) : (inputs.map (·.bufIndex)).Nodup := by
  have hpeers : (inputs.map (·.peer)).Nodup := by
    rw [h.peers_eq]
    exact hreads.map (Option.some_injective _)
  refine List.Nodup.map_on (fun port hport port' hport' heq => ?_) (List.Nodup.of_map _ hpeers)
  obtain ⟨ref, hpeer, hlive⟩ := h.live port hport
  obtain ⟨ref', hpeer', hlive'⟩ := h.live port' hport'
  have hvalue := List.inj_on_of_nodup_map hapart hlive hlive' heq
  refine List.inj_on_of_nodup_map hpeers hport hport' ?_
  rw [hpeer, hpeer', (Prod.mk.inj hvalue).1]

theorem buffers_live (h : InputsCollected assigned inst inputs) :
    ∀ i ∈ inputs.map (·.bufIndex), i ∈ (Dsp.live assigned).map (·.2) := by
  intro i hi
  obtain ⟨port, hport, hbuf⟩ := List.mem_map.mp hi
  obtain ⟨ref, _, hlive⟩ := h.live port hport
  exact List.mem_map.mpr ⟨_, hlive, hbuf⟩

/-- The buffers of the values that live on. -/
theorem mem_remaining_iff (h : InputsCollected assigned inst inputs)
    (hrefs : ((Dsp.live assigned).map (·.1)).Nodup)
    (hapart : ((Dsp.live assigned).map (·.2)).Nodup) (i : Nat) :
    i ∈ ((Dsp.live assigned).filter fun v => decide (v.1 ∉ inst.reads)).map (·.2) ↔
      i ∈ (Dsp.live assigned).map (·.2) ∧ i ∉ inputs.map (·.bufIndex) := by
  constructor
  · intro hi
    obtain ⟨v, hv, hvi⟩ := List.mem_map.mp hi
    obtain ⟨hlive, hread⟩ := List.mem_filter.mp hv
    refine ⟨List.mem_map.mpr ⟨v, hlive, hvi⟩, fun hinput => ?_⟩
    obtain ⟨port, hport, hbuf⟩ := List.mem_map.mp hinput
    obtain ⟨ref, hpeer, hlive'⟩ := h.live port hport
    have hvalue := List.inj_on_of_nodup_map hapart hlive hlive' (hvi.trans hbuf.symm)
    refine of_decide_eq_true hread ?_
    rw [← h.reads_eq, hvalue]
    exact List.mem_filterMap.mpr ⟨port, hport, hpeer⟩
  · rintro ⟨hi, hnot⟩
    obtain ⟨v, hlive, hvi⟩ := List.mem_map.mp hi
    refine List.mem_map.mpr ⟨v, List.mem_filter.mpr ⟨hlive, decide_eq_true fun hread => ?_⟩, hvi⟩
    rw [← h.reads_eq] at hread
    obtain ⟨port, hport, hpeer⟩ := List.mem_filterMap.mp hread
    obtain ⟨ref, hpeer', hlive'⟩ := h.live port hport
    rw [hpeer] at hpeer'
    have hvalue := List.inj_on_of_nodup_map hrefs hlive hlive' (Option.some.inj hpeer')
    refine hnot (List.mem_map.mpr ⟨port, hport, ?_⟩)
    rw [← hvi, hvalue]

end InputsCollected

/-! ## One instance -/

/-- The state of the second pass. -/
structure Assigned (peak : Nat) (assigned : List (Instance F)) (busy : List Bool) : Prop where
  length : busy.length = peak
  flags : ∀ i, busy[i]? = some true ↔ i ∈ (live assigned).map (·.2)
  count : busy.count true = (live assigned).length
  need : (countBuffers assigned).need = (live assigned).length
  apart : ((live assigned).map (·.2)).Nodup
  writes : ∀ v ∈ live assigned, lastWriter assigned v.2 = some v.1

/-- What the buffers of an instance are, behind the instances `assigned`. -/
structure InstanceAssigned (peak : Nat) (assigned : List (Instance F)) (inst : Instance F) :
    Prop where
  inputs : ∀ port ∈ inst.inputAudioPorts, ∃ ref, port.peer = some ref ∧
    (ref, port.bufIndex) ∈ live assigned
  bounded : ∀ port ∈ inst.outputAudioPorts, port.bufIndex < peak
  ascending : (inst.outputAudioPorts.map (·.bufIndex)).Pairwise (· < ·)
  /-- an output is not in a buffer whose value lives on -/
  free : ∀ i ∈ inst.outputAudioPorts.map (·.bufIndex),
    i ∉ ((live assigned).filter fun v => decide (v.1 ∉ inst.reads)).map (·.2)
  broken : inst.inplaceBroken = true →
    ∀ i ∈ inst.outputAudioPorts.map (·.bufIndex), i ∉ (live assigned).map (·.2)
  lowest : inst.inplaceBroken = false → ∀ s ∈ inst.outputAudioPorts.map (·.bufIndex), ∀ i < s,
    i ∈ ((live assigned).filter fun v => decide (v.1 ∉ inst.reads)).map (·.2) ∨
      i ∈ inst.outputAudioPorts.map (·.bufIndex)

theorem map_zipWith_bufIndex : ∀ (ports : List AudioPort) (slots : List Nat),
    slots.length = ports.length →
    (List.zipWith (fun port k => { port with bufIndex := k }) ports slots).map (·.bufIndex) =
      slots ∧
    (List.zipWith (fun port k => { port with bufIndex := k }) ports slots).map
      (fun port => { port with bufIndex := 0 }) =
        ports.map fun port => { port with bufIndex := 0 } := by
  intro ports
  induction ports with
  | nil =>
      intro slots hlen
      rw [List.length_eq_zero_iff.mp hlen]
      exact ⟨rfl, rfl⟩
  | cons port ports ih =>
      intro slots hlen
      cases slots with
      | nil => cases hlen
      | cons s slots =>
          obtain ⟨hbuf, hwiring⟩ := ih slots (Nat.succ.inj hlen)
          exact ⟨congrArg (s :: ·) hbuf, congrArg (_ :: ·) hwiring⟩

/-- The buffers of an instance's inputs are given back, and those of its outputs taken. -/
structure BuffersMoved (assigned : List (Instance F)) (inst : Instance F)
    (inputs outputs : List AudioPort) (busy busy' : List Bool) : Prop where
  wiring : outputs.map (fun port => { port with bufIndex := 0 }) =
    inst.outputAudioPorts.map fun port => { port with bufIndex := 0 }
  length : busy'.length = busy.length
  ascending : (outputs.map (·.bufIndex)).Pairwise (· < ·)
  free : ∀ i ∈ outputs.map (·.bufIndex),
    i ∉ ((live assigned).filter fun v => decide (v.1 ∉ inst.reads)).map (·.2)
  broken : inst.inplaceBroken = true →
    ∀ i ∈ outputs.map (·.bufIndex), i ∉ (live assigned).map (·.2)
  lowest : inst.inplaceBroken = false → ∀ s ∈ outputs.map (·.bufIndex), ∀ i < s,
    i ∈ ((live assigned).filter fun v => decide (v.1 ∉ inst.reads)).map (·.2) ∨
      i ∈ outputs.map (·.bufIndex)
  flags : ∀ i, busy'[i]? = some true ↔
    i ∈ ((live assigned).filter fun v => decide (v.1 ∉ inst.reads)).map (·.2) ∨
      i ∈ outputs.map (·.bufIndex)
  count : busy'.count true + inputs.length = busy.count true + outputs.length

section Step

variable {peak : Nat} {assigned : List (Instance F)} {inst : Instance F} {inputs : List AudioPort}
  {busy : List Bool}

/-- A module that cannot work in place takes buffers first. -/
theorem buffersMoved_broken (h : Assigned peak assigned busy)
    (hrefs : ((live assigned).map (·.1)).Nodup) (hreads : inst.reads.Nodup)
    (hbroken : inst.inplaceBroken = true)
    (hinputs : InputsCollected assigned inst inputs)
    (hroom : inst.outputAudioPorts.length + (live assigned).length ≤ peak) :
    ∃ outputs busy₁ busy', useBuffers busy inst.outputAudioPorts = some (outputs, busy₁) ∧
      unuseBuffers busy₁ inputs = some busy' ∧
      BuffersMoved assigned inst inputs outputs busy busy' := by
  obtain ⟨slots, busy₁, hlen, htake, htaken⟩ := takeSlots_spec
    (fun (port : AudioPort) k => { port with bufIndex := k }) inst.outputAudioPorts 0 busy
    (fun i hi => absurd hi (Nat.not_lt_zero i)) (by rw [h.count, h.length]; exact hroom)
  obtain ⟨hslots, hwiring⟩ := map_zipWith_bufIndex inst.outputAudioPorts slots hlen
  obtain ⟨busy', hgive, hgiven⟩ := giveBack_spec (inputs.map (·.bufIndex)) busy₁
    (hinputs.buffers_nodup hreads h.apart) fun s hs =>
      (htaken.taken s).mpr (Or.inl ((h.flags s).mpr (hinputs.buffers_live s hs)))
  have hunused : ∀ i ∈ slots, i ∉ (live assigned).map (·.2) := by
    intro i hi hlive
    have hfree := htaken.free i hi
    rw [(h.flags i).mpr hlive] at hfree
    cases hfree
  refine ⟨_, busy₁, busy', htake, hgive, hwiring, ?_, ?_, ?_, fun _ => ?_, fun hinplace => ?_,
    fun i => ?_, ?_⟩
  · rw [hgiven.length, htaken.length]
  · rw [hslots]
    exact htaken.ascending
  · rw [hslots]
    intro i hi hremaining
    exact hunused i hi ((hinputs.mem_remaining_iff hrefs h.apart i).mp hremaining).1
  · rw [hslots]
    exact hunused
  · rw [hbroken] at hinplace
    cases hinplace
  · rw [hslots, hgiven.given, htaken.taken, h.flags, hinputs.mem_remaining_iff hrefs h.apart]
    constructor
    · rintro ⟨hlive | hslot, hnot⟩
      · exact Or.inl ⟨hlive, hnot⟩
      · exact Or.inr hslot
    · rintro (⟨hlive, hnot⟩ | hslot)
      · exact ⟨Or.inl hlive, hnot⟩
      · exact ⟨Or.inr hslot, fun hinput => hunused i hslot (hinputs.buffers_live i hinput)⟩
  · have hgave := hgiven.count
    have houtputs := congrArg List.length hslots
    rw [htaken.count, List.length_map] at hgave
    rw [List.length_map] at houtputs
    omega

/-- A module that works in place gives buffers back first. -/
theorem buffersMoved_inplace (h : Assigned peak assigned busy)
    (hrefs : ((live assigned).map (·.1)).Nodup) (hreads : inst.reads.Nodup)
    (hinplace : inst.inplaceBroken = false) (hinputs : InputsCollected assigned inst inputs)
    (hroom : inst.outputAudioPorts.length + (live assigned).length ≤ peak + inputs.length) :
    ∃ busy₁ outputs busy', unuseBuffers busy inputs = some busy₁ ∧
      useBuffers busy₁ inst.outputAudioPorts = some (outputs, busy') ∧
      BuffersMoved assigned inst inputs outputs busy busy' := by
  obtain ⟨busy₁, hgive, hgiven⟩ := giveBack_spec (inputs.map (·.bufIndex)) busy
    (hinputs.buffers_nodup hreads h.apart) fun s hs =>
      (h.flags s).mpr (hinputs.buffers_live s hs)
  have hgave := hgiven.count
  rw [List.length_map, h.count] at hgave
  obtain ⟨slots, busy', hlen, htake, htaken⟩ := takeSlots_spec
    (fun (port : AudioPort) k => { port with bufIndex := k }) inst.outputAudioPorts 0 busy₁
    (fun i hi => absurd hi (Nat.not_lt_zero i)) (by rw [hgiven.length, h.length]; omega)
  obtain ⟨hslots, hwiring⟩ := map_zipWith_bufIndex inst.outputAudioPorts slots hlen
  have hremaining : ∀ i, busy₁[i]? = some true ↔
      i ∈ ((live assigned).filter fun v => decide (v.1 ∉ inst.reads)).map (·.2) := by
    intro i
    rw [hgiven.given, h.flags, hinputs.mem_remaining_iff hrefs h.apart]
  refine ⟨busy₁, _, busy', hgive, htake, hwiring, ?_, ?_, ?_, fun hbroken => ?_, fun _ => ?_,
    fun i => ?_, ?_⟩
  · rw [htaken.length, hgiven.length]
  · rw [hslots]
    exact htaken.ascending
  · rw [hslots]
    intro i hi hlive
    have hfree := htaken.free i hi
    rw [(hremaining i).mpr hlive] at hfree
    cases hfree
  · rw [hinplace] at hbroken
    cases hbroken
  · rw [hslots]
    intro s hs i hi
    have hused := htaken.lowest s hs i hi
    rw [htaken.taken, hremaining] at hused
    exact hused
  · rw [hslots, htaken.taken, hremaining]
  · have houtputs := congrArg List.length hslots
    rw [List.length_map] at houtputs
    rw [htaken.count, h.count]
    omega

theorem foldl_writeValue_of_not_mem {writer : Nat → Option PortRef} :
    ∀ {vs : List (PortRef × Nat)} {i : Nat}, i ∉ vs.map (·.2) →
      vs.foldl writeValue writer i = writer i := by
  intro vs
  induction vs generalizing writer with
  | nil =>
      intro i _
      rfl
  | cons v vs ih =>
      intro i hi
      rw [List.map_cons, List.mem_cons, not_or] at hi
      rw [List.foldl_cons, ih hi.2, writeValue, Function.update_of_ne hi.1]

theorem foldl_writeValue_of_mem {writer : Nat → Option PortRef} :
    ∀ {vs : List (PortRef × Nat)} {v : PortRef × Nat}, v ∈ vs → (vs.map (·.2)).Nodup →
      vs.foldl writeValue writer v.2 = some v.1 := by
  intro vs
  induction vs generalizing writer with
  | nil =>
      intro v hv
      cases hv
  | cons v' vs ih =>
      intro v hv hnodup
      rw [List.map_cons, List.nodup_cons] at hnodup
      rw [List.foldl_cons]
      cases List.mem_cons.mp hv with
      | inl heq =>
          rw [heq, foldl_writeValue_of_not_mem hnodup.1, writeValue, Function.update_self]
      | inr hv => exact ih hv hnodup.2

theorem lastWriter_snoc (l : List (Instance F)) (inst : Instance F) :
    lastWriter (l ++ [inst]) = inst.values.foldl writeValue (lastWriter l) := by
  unfold lastWriter
  rw [List.flatMap_append, List.foldl_append, List.flatMap_singleton]

/-- The invariant of the second pass is kept. -/
theorem Assigned.snoc {inst' : Instance F} {outputs : List AudioPort} {busy' : List Bool}
    (h : Assigned peak assigned busy) (hord : DependencyOrdered (assigned ++ [inst']))
    (honce : FeedsOnce (assigned ++ [inst']))
    (hinst : inst' = inst.withBuffers inputs outputs) (hreads : inst'.reads = inst.reads)
    (hinputs : InputsCollected assigned inst inputs)
    (hmoved : BuffersMoved assigned inst inputs outputs busy busy') :
    Assigned peak (assigned ++ [inst']) busy' := by
  have hvalues : inst'.values.map (·.2) = outputs.map (·.bufIndex) := by
    rw [hinst]
    exact List.map_map
  have hlive := live_snoc hord
  rw [hreads] at hlive
  have hbuffers : (live (assigned ++ [inst'])).map (·.2) =
      ((live assigned).filter fun v => decide (v.1 ∉ inst.reads)).map (·.2) ++
        outputs.map (·.bufIndex) := by
    rw [hlive, List.map_append, hvalues]
  have hrefs : ((live assigned).map (·.1)).Nodup :=
    hord.append_left.values_nodup.sublist ((live_sublist assigned).map _)
  have hnodup : inst.reads.Nodup := by
    unfold FeedsOnce at honce
    rw [List.flatMap_append, List.flatMap_singleton, hreads] at honce
    exact honce.of_append_right
  have hreadlive : ∀ ref ∈ inst.reads, ref ∈ (live assigned).map (·.1) := by
    intro ref href
    rw [← hinputs.reads_eq] at href
    obtain ⟨port, hport, hpeer⟩ := List.mem_filterMap.mp href
    obtain ⟨ref', hpeer', hvalue⟩ := hinputs.live port hport
    rw [hpeer] at hpeer'
    cases hpeer'
    exact List.mem_map.mpr ⟨_, hvalue, rfl⟩
  have hremaining := length_filter_keys hrefs hnodup hreadlive
  have hnreads : inst.reads.length = inputs.length := by
    have hpeers := congrArg List.length hinputs.peers_eq
    rw [List.length_map, List.length_map] at hpeers
    exact hpeers.symm
  have hnvalues : inst'.values.length = outputs.length := by
    have hlen := congrArg List.length hvalues
    rw [List.length_map, List.length_map] at hlen
    exact hlen
  have hnlive : (live (assigned ++ [inst'])).length + inputs.length =
      (live assigned).length + outputs.length := by
    rw [hlive, List.length_append, hnvalues]
    omega
  have hapart : ((live (assigned ++ [inst'])).map (·.2)).Nodup := by
    rw [hbuffers, List.nodup_append]
    refine ⟨h.apart.sublist (List.filter_sublist.map _), ?_, fun i hi j hj hij => ?_⟩
    · exact hmoved.ascending.imp fun hlt => Nat.ne_of_lt hlt
    · rw [← hij] at hj
      exact hmoved.free i hj hi
  refine ⟨?_, fun i => ?_, ?_, ?_, hapart, fun v hv => ?_⟩
  · rw [hmoved.length, h.length]
  · rw [hmoved.flags, hbuffers, List.mem_append]
  · have hcount := hmoved.count
    rw [h.count] at hcount
    omega
  · rw [countBuffers_snoc, BufferNeed.count_need, h.need, hinst]
    change ((live assigned).length : Int) + outputs.length - inputs.length = _
    rw [← hinst]
    omega
  · rw [hlive] at hv
    rw [lastWriter_snoc]
    cases List.mem_append.mp hv with
    | inl hold =>
        rw [foldl_writeValue_of_not_mem]
        · exact h.writes v (List.mem_filter.mp hold).1
        · rw [hvalues]
          intro hout
          exact hmoved.free v.2 hout (List.mem_map_of_mem hold)
    | inr hnew =>
        refine foldl_writeValue_of_mem hnew ?_
        rw [hvalues]
        exact hmoved.ascending.imp fun hlt => Nat.ne_of_lt hlt

/-- An instance is assigned buffers whenever the first pass has counted it. -/
theorem assignInstance_spec {rest : List (Instance F)}
    (hord : DependencyOrdered (assigned ++ inst :: rest))
    (honce : FeedsOnce (assigned ++ inst :: rest)) (h : Assigned peak assigned busy)
    (hpeak : (countBuffers (assigned ++ [inst])).peak ≤ peak) :
    ∃ inst' busy', assignInstance (assigned ++ inst :: rest) inst busy = some (inst', busy') ∧
      inst'.wiring = inst.wiring ∧ InstanceAssigned peak assigned inst' ∧
      Assigned peak (assigned ++ [inst']) busy' := by
  obtain ⟨inputs, hcollect, hinputs⟩ := collectInputs_spec hord honce
  have hsplit : assigned ++ inst :: rest = (assigned ++ [inst]) ++ rest := by
    rw [List.append_assoc]
    rfl
  have hrefs : ((live assigned).map (·.1)).Nodup :=
    hord.append_left.values_nodup.sublist ((live_sublist assigned).map _)
  rw [hsplit] at hord honce
  have hreads : inst.reads.Nodup := by
    have hnodup := honce.append_left
    unfold FeedsOnce at hnodup
    rw [List.flatMap_append, List.flatMap_singleton] at hnodup
    exact hnodup.of_append_right
  have hmoved : ∃ outputs busy', assignInstance (assigned ++ inst :: rest) inst busy =
      some (inst.withBuffers inputs outputs, busy') ∧
      BuffersMoved assigned inst inputs outputs busy busy' := by
    unfold assignInstance
    rw [hcollect, Option.bind_some]
    rw [countBuffers_snoc, BufferNeed.count] at hpeak
    cases hbroken : inst.inplaceBroken with
    | true =>
        rw [hbroken, if_pos rfl] at hpeak
        have hroom := Int.le_trans (le_max_right _ _) hpeak
        rw [h.need] at hroom
        obtain ⟨outputs, busy₁, busy', huse, hunuse, hmoved⟩ :=
          buffersMoved_broken h hrefs hreads hbroken hinputs (by omega)
        refine ⟨outputs, busy', ?_, hmoved⟩
        rw [if_pos rfl, huse, Option.bind_some, hunuse]
        rfl
    | false =>
        rw [hbroken, if_neg Bool.false_ne_true] at hpeak
        have hroom := Int.le_trans (le_max_right _ _) hpeak
        rw [h.need] at hroom
        obtain ⟨busy₁, outputs, busy', hunuse, huse, hmoved⟩ :=
          buffersMoved_inplace h hrefs hreads hbroken hinputs (by rw [hinputs.length_eq]; omega)
        refine ⟨outputs, busy', ?_, hmoved⟩
        rw [if_neg Bool.false_ne_true, hunuse, Option.bind_some, huse]
        rfl
  obtain ⟨outputs, busy', hassign, hmoved⟩ := hmoved
  have hwiring : (inst.withBuffers inputs outputs).wiring = inst.wiring := by
    change inst.withBuffers (inputs.map _) (outputs.map _) = _
    rw [hinputs.wiring, hmoved.wiring]
    rfl
  have hmap : (assigned ++ [inst.withBuffers inputs outputs]).map Instance.wiring =
      (assigned ++ [inst]).map Instance.wiring := by
    rw [List.map_append, List.map_append, List.map_singleton, List.map_singleton, hwiring]
  have hreads' : (inst.withBuffers inputs outputs).reads = inst.reads := hinputs.reads_eq
  have hassigned := h.snoc (hord.append_left.of_wiring hmap) (honce.append_left.of_wiring hmap)
    rfl hreads' hinputs hmoved
  refine ⟨_, busy', hassign, hwiring, ⟨hinputs.live, fun port hport => ?_, hmoved.ascending, ?_,
    hmoved.broken, ?_⟩, hassigned⟩
  · have hflag := (hmoved.flags port.bufIndex).mpr (Or.inr (List.mem_map_of_mem hport))
    rw [← hassigned.length]
    exact (List.getElem?_eq_some_iff.mp hflag).1
  · rw [hreads']
    exact hmoved.free
  · rw [hreads']
    exact hmoved.lowest

end Step

/-! ## The whole pass -/

/-- Every instance has its buffers. -/
structure AllAssigned (peak : Nat) (instances : List (Instance F)) : Prop where
  states : ∀ l₁ l₂, instances = l₁ ++ l₂ → ∃ busy, Assigned peak l₁ busy
  each : ∀ l₁ inst l₂, instances = l₁ ++ inst :: l₂ → InstanceAssigned peak l₁ inst

theorem AllAssigned.snoc {peak : Nat} {l : List (Instance F)} {inst : Instance F}
    {busy : List Bool} (h : AllAssigned peak l) (hinst : InstanceAssigned peak l inst)
    (hbusy : Assigned peak (l ++ [inst]) busy) : AllAssigned peak (l ++ [inst]) := by
  constructor
  · intro l₁ l₂ hl
    cases List.eq_nil_or_concat l₂ with
    | inl hnil =>
        rw [hnil, List.append_nil] at hl
        rw [← hl]
        exact ⟨busy, hbusy⟩
    | inr hconcat =>
        obtain ⟨l₃, x, hl₂⟩ := hconcat
        rw [hl₂, List.concat_eq_append, ← List.append_assoc] at hl
        exact h.states l₁ l₃ (List.append_inj' hl rfl).1
  · intro l₁ inst' l₂ hl
    cases List.eq_nil_or_concat l₂ with
    | inl hnil =>
        rw [hnil] at hl
        obtain ⟨hfront, hinst'⟩ := List.append_inj' hl rfl
        cases hinst'
        rw [← hfront]
        exact hinst
    | inr hconcat =>
        obtain ⟨l₃, x, hl₂⟩ := hconcat
        rw [hl₂, List.concat_eq_append, ← List.cons_append, ← List.append_assoc] at hl
        exact h.each l₁ inst' l₃ (List.append_inj' hl rfl).1

theorem assignBuffers_spec {peak : Nat} : ∀ (rest assigned : List (Instance F)) (busy : List Bool),
    DependencyOrdered (assigned ++ rest) → FeedsOnce (assigned ++ rest) →
    (countBuffers (assigned ++ rest)).peak ≤ peak → Assigned peak assigned busy →
    AllAssigned peak assigned →
    ∃ out, assignBuffers assigned rest busy = some out ∧
      out.map Instance.wiring = (assigned ++ rest).map Instance.wiring ∧ AllAssigned peak out := by
  intro rest
  induction rest with
  | nil =>
      intro assigned busy _ _ _ _ hall
      exact ⟨assigned, rfl, by rw [List.append_nil], hall⟩
  | cons inst rest ih =>
      intro assigned busy hord honce hpeak hbusy hall
      have hsplit : ∀ inst : Instance F,
          assigned ++ inst :: rest = (assigned ++ [inst]) ++ rest := by
        intro inst
        rw [List.append_assoc]
        rfl
      have hpeak₁ : (countBuffers (assigned ++ [inst])).peak ≤ peak := by
        rw [hsplit] at hpeak
        exact Int.le_trans (peak_le_append _ rest) hpeak
      obtain ⟨inst', busy', hassign, hwiring, hinst, hbusy'⟩ :=
        assignInstance_spec hord honce hbusy hpeak₁
      have hmap : ((assigned ++ [inst']) ++ rest).map Instance.wiring =
          (assigned ++ inst :: rest).map Instance.wiring := by
        rw [← hsplit, List.map_append, List.map_cons, hwiring, List.map_append, List.map_cons]
      obtain ⟨out, hout, hsame, hall'⟩ := ih (assigned ++ [inst']) busy' (hord.of_wiring hmap)
        (honce.of_wiring hmap) (by rw [count_of_wiring hmap]; exact hpeak) hbusy'
        (hall.snoc hinst hbusy')
      refine ⟨out, ?_, hsame.trans hmap, hall'⟩
      rw [assignBuffers, hassign]
      exact hout

/-- Some point of the first pass has the peak. -/
theorem peak_attained (l : List (Instance F)) :
    ∃ l₁ l₂, l = l₁ ++ l₂ ∧ ((countBuffers l).peak = (countBuffers l₁).need ∨
      ∃ inst l₃, l₂ = inst :: l₃ ∧ inst.inplaceBroken = true ∧
        (countBuffers l).peak = (countBuffers l₁).need + inst.outputAudioPorts.length) := by
  induction l using List.reverseRecOn with
  | nil => exact ⟨[], [], rfl, Or.inl rfl⟩
  | append_singleton l inst ih =>
      by_cases hpeak : (countBuffers (l ++ [inst])).peak = (countBuffers l).peak
      · rw [hpeak]
        obtain ⟨l₁, l₂, hl, hattained⟩ := ih
        refine ⟨l₁, l₂ ++ [inst], by rw [hl, List.append_assoc], ?_⟩
        cases hattained with
        | inl hneed => exact Or.inl hneed
        | inr hbroken =>
            obtain ⟨inst', l₃, hl₂, hbroken⟩ := hbroken
            exact Or.inr ⟨inst', l₃ ++ [inst], by rw [hl₂, List.cons_append], hbroken⟩
      · rw [countBuffers_snoc] at hpeak ⊢
        cases hbroken : inst.inplaceBroken with
        | true =>
            refine ⟨l, [inst], rfl, Or.inr ⟨inst, [], rfl, hbroken, ?_⟩⟩
            rw [BufferNeed.count, hbroken, if_pos rfl] at hpeak ⊢
            dsimp only at hpeak ⊢
            omega
        | false =>
            refine ⟨l ++ [inst], [], by rw [List.append_nil], Or.inl ?_⟩
            rw [countBuffers_snoc]
            rw [BufferNeed.count, hbroken, if_neg Bool.false_ne_true] at hpeak ⊢
            dsimp only at hpeak ⊢
            omega

section Sound

variable {peak : Nat} {instances : List (Instance F)}

theorem Assigned.lt_of_mem {assigned : List (Instance F)} {busy : List Bool}
    (h : Assigned peak assigned busy) {i : Nat} (hi : i ∈ (live assigned).map (·.2)) :
    i < peak := by
  rw [← h.length]
  exact (List.getElem?_eq_some_iff.mp ((h.flags i).mpr hi)).1

theorem AllAssigned.inUse_subset (h : AllAssigned peak instances) (t : Nat) :
    inUse instances t ⊆ Finset.range peak := by
  intro i hi
  obtain ⟨busy, hbusy⟩ := h.states (instances.take t) (instances.drop t)
    (List.take_append_drop t instances).symm
  exact Finset.mem_range.mpr (hbusy.lt_of_mem (List.mem_toFinset.mp hi))

theorem AllAssigned.inUseDuring_subset (h : AllAssigned peak instances) (t : Nat) :
    inUseDuring instances t ⊆ Finset.range peak := by
  intro i hi
  cases Finset.mem_union.mp hi with
  | inl hi => exact h.inUse_subset t hi
  | inr hi =>
      obtain ⟨v, hv, hvi⟩ := List.mem_map.mp (List.mem_toFinset.mp hi)
      obtain ⟨inst, hinst, hvalue⟩ := List.mem_flatMap.mp hv
      have hget := Option.mem_toList.mp hinst
      obtain ⟨hlt, hinst⟩ := List.getElem?_eq_some_iff.mp hget
      have hsplit : instances = instances.take t ++ inst :: instances.drop (t + 1) := by
        rw [← hinst, ← List.drop_eq_getElem_cons hlt, List.take_append_drop]
      obtain ⟨port, hport, hv⟩ := List.mem_map.mp hvalue
      rw [← hvi, ← hv]
      exact Finset.mem_range.mpr ((h.each _ inst _ hsplit).bounded port hport)

/-- The peak is the number of buffers that are in use at some time. -/
theorem AllAssigned.isGreatest (h : AllAssigned peak instances)
    (hpeak : (countBuffers instances).peak = peak) :
    IsGreatest {n | ∃ t, n = (inUse instances t).card ∨ n = (inUseDuring instances t).card}
      peak := by
  constructor
  · obtain ⟨l₁, l₂, hl, hattained⟩ := peak_attained instances
    obtain ⟨busy, hbusy⟩ := h.states l₁ l₂ hl
    have htake : instances.take l₁.length = l₁ := by
      rw [hl, List.take_left]
    have hcard : (inUse instances l₁.length).card = (live l₁).length := by
      unfold inUse
      rw [htake, List.toFinset_card_of_nodup hbusy.apart, List.length_map]
    refine ⟨l₁.length, ?_⟩
    rw [hpeak, hbusy.need] at hattained
    cases hattained with
    | inl hneed =>
        left
        rw [hcard]
        omega
    | inr hbroken =>
        obtain ⟨inst, l₃, hl₂, hbroken, hneed⟩ := hbroken
        right
        rw [hl₂] at hl
        have hinst := h.each l₁ inst l₃ hl
        have hget : instances[l₁.length]? = some inst := by
          rw [hl, List.getElem?_append_right (Nat.le_refl _), Nat.sub_self]
          rfl
        have hvalues : ((instances[l₁.length]?).toList.flatMap Instance.values).map (·.2) =
            inst.outputAudioPorts.map (·.bufIndex) := by
          rw [hget, Option.toList_some, List.flatMap_singleton]
          exact List.map_map
        have hdisjoint : Disjoint (inUse instances l₁.length)
            (inst.outputAudioPorts.map (·.bufIndex)).toFinset := by
          rw [Finset.disjoint_left]
          intro i hi hout
          unfold inUse at hi
          rw [htake] at hi
          exact hinst.broken hbroken i (List.mem_toFinset.mp hout) (List.mem_toFinset.mp hi)
        unfold inUseDuring
        rw [hvalues, Finset.card_union_of_disjoint hdisjoint, hcard, List.toFinset_card_of_nodup
          (hinst.ascending.imp fun hlt => Nat.ne_of_lt hlt), List.length_map]
        omega
  · rintro n ⟨t, hn | hn⟩
    · rw [hn, ← Finset.card_range peak]
      exact Finset.card_le_card (h.inUse_subset t)
    · rw [hn, ← Finset.card_range peak]
      exact Finset.card_le_card (h.inUseDuring_subset t)

theorem AllAssigned.buffersSound (h : AllAssigned peak instances)
    (hpeak : (countBuffers instances).peak = peak) : BuffersSound ⟨peak, instances⟩ := by
  refine ⟨fun inst hmem port hport => ?_, fun t v hv v' hv' heq => ?_,
    fun k inst hinst port hport => ?_, fun inst hmem hbroken inp hinp out hout heq => ?_,
    h.isGreatest hpeak⟩
  · obtain ⟨l₁, l₂, hl⟩ := List.append_of_mem hmem
    have hinst := h.each l₁ inst l₂ hl
    obtain ⟨busy, hbusy⟩ := h.states l₁ _ hl
    cases List.mem_append.mp hport with
    | inl hin =>
        obtain ⟨ref, _, hlive⟩ := hinst.inputs port hin
        exact hbusy.lt_of_mem (List.mem_map_of_mem hlive)
    | inr hout => exact hinst.bounded port hout
  · obtain ⟨busy, hbusy⟩ := h.states (instances.take t) (instances.drop t)
      (List.take_append_drop t instances).symm
    rw [List.inj_on_of_nodup_map hbusy.apart hv hv' heq]
  · obtain ⟨hlt, hget⟩ := List.getElem?_eq_some_iff.mp hinst
    have hsplit : instances = instances.take k ++ inst :: instances.drop (k + 1) := by
      rw [← hget, ← List.drop_eq_getElem_cons hlt, List.take_append_drop]
    obtain ⟨busy, hbusy⟩ := h.states _ _ hsplit
    obtain ⟨ref, hpeer, hlive⟩ := (h.each _ inst _ hsplit).inputs port hport
    exact ⟨ref, hpeer, hbusy.writes _ hlive⟩
  · obtain ⟨l₁, l₂, hl⟩ := List.append_of_mem hmem
    have hinst := h.each l₁ inst l₂ hl
    obtain ⟨ref, _, hlive⟩ := hinst.inputs inp hinp
    refine hinst.broken hbroken out.bufIndex (List.mem_map_of_mem hout) ?_
    rw [← heq]
    exact List.mem_map_of_mem hlive

end Sound

theorem allAssigned_of_allocateBuffers {instances : List (Instance F)}
    (hord : DependencyOrdered instances) (honce : FeedsOnce instances) :
    ∃ alloc, allocateBuffers instances = some alloc ∧
      alloc.instances.map Instance.wiring = instances.map Instance.wiring ∧
      (countBuffers alloc.instances).peak = alloc.peakBuf ∧
      AllAssigned alloc.peakBuf alloc.instances := by
  have hnonneg : 0 ≤ (countBuffers instances).peak := peak_le_append [] instances
  have hpeak : (countBuffers instances).peak = (countBuffers instances).peak.toNat :=
    (Int.toNat_of_nonneg hnonneg).symm
  have hstart : Assigned (F := F) (countBuffers instances).peak.toNat []
      (List.replicate (countBuffers instances).peak.toNat false) := by
    refine ⟨List.length_replicate, fun i => ?_, ?_, rfl, List.nodup_nil, fun v hv => nomatch hv⟩
    · rw [List.getElem?_replicate]
      split
      · simp [live]
      · simp [live]
    · rw [List.count_replicate]
      rfl
  have hall : AllAssigned (F := F) (countBuffers instances).peak.toNat [] := by
    refine ⟨fun l₁ l₂ hl => ?_, fun l₁ inst l₂ hl => ?_⟩
    · rw [(List.append_eq_nil_iff.mp hl.symm).1]
      exact ⟨_, hstart⟩
    · cases (List.append_eq_nil_iff.mp hl.symm).2
  obtain ⟨out, hout, hwiring, hall'⟩ := assignBuffers_spec instances [] _ hord honce
    (Int.le_of_eq hpeak) hstart hall
  refine ⟨⟨(countBuffers instances).peak.toNat, out⟩, ?_, hwiring, ?_, hall'⟩
  · unfold allocateBuffers
    rw [hout]
    rfl
  · rw [List.nil_append] at hwiring
    rw [count_of_wiring hwiring]
    exact hpeak

/-- For a pipeline in the order of dependency in which no output feeds two inputs, buffers
are assigned, and shared only where that does no harm. -/
theorem allocateBuffers_sound {instances : List (Instance F)}
    (hord : DependencyOrdered instances) (honce : FeedsOnce instances) :
    ∃ alloc, allocateBuffers instances = some alloc ∧
      alloc.instances.map Instance.wiring = instances.map Instance.wiring ∧
      BuffersSound alloc := by
  obtain ⟨alloc, halloc, hwiring, hpeak, hall⟩ := allAssigned_of_allocateBuffers hord honce
  exact ⟨alloc, halloc, hwiring, hall.buffersSound hpeak⟩

/-- A source with two outputs, a module that cannot work in place, and a sink. -/
def brokenInstances : List (Instance Unit) :=
  [⟨0, [], [⟨0, none, 0⟩, ⟨1, none, 0⟩], [], [], 0⟩,
    ⟨1, [⟨0, some ⟨0, 1⟩, 0⟩, ⟨1, some ⟨0, 0⟩, 0⟩], [⟨2, none, 0⟩], [], [], 1⟩,
    ⟨2, [⟨0, some ⟨1, 2⟩, 0⟩], [], [], [], 0⟩]

theorem dependencyOrdered_broken : DependencyOrdered brokenInstances := by
  refine ⟨by decide, by decide, fun l₁ inst l₂ hl port hport => ?_⟩
  rcases l₁ with _ | ⟨a, _ | ⟨b, _ | ⟨c, l₁⟩⟩⟩
  · cases hl
    cases hport
  · cases hl
    cases List.mem_cons.mp hport with
    | inl hfirst =>
        cases hfirst
        exact ⟨_, rfl, _, List.mem_cons_self, rfl, by decide⟩
    | inr hsecond =>
        cases List.mem_singleton.mp hsecond
        exact ⟨_, rfl, _, List.mem_cons_self, rfl, by decide⟩
  · cases hl
    cases List.mem_singleton.mp hport
    exact ⟨_, rfl, _, List.mem_cons_of_mem _ List.mem_cons_self, rfl, by decide⟩
  · have hnil := congrArg (List.drop 3) hl
    cases (List.append_eq_nil_iff.mp hnil.symm).2

/-- The module's output takes a third buffer. -/
theorem allocateBuffers_sound_broken :
    ∃ alloc, allocateBuffers brokenInstances = some alloc ∧ alloc.peakBuf = 3 ∧
      BuffersSound alloc := by
  have honce : FeedsOnce brokenInstances := by
    unfold FeedsOnce
    decide
  obtain ⟨alloc, halloc, _, hsound⟩ := allocateBuffers_sound dependencyOrdered_broken honce
  refine ⟨alloc, halloc, ?_, hsound⟩
  cases halloc
  rfl

end DragonDevice.Dsp
