/-
  Dsp/Lanes.lean --- which buffers a pipeline of builtin modules gets.

  The source's outputs get the buffers from 0 on.  Each filter has as many outputs as inputs,
  and its inputs' buffers are the lowest that are free when they have been given back.  So
  the outputs get them again, but in ascending order.  The numbers of the buffers, here the
  lanes, follow from the wiring alone.
-/
import DragonDevice.Dsp.BuffersSound
import Mathlib.Data.List.Sort

set_option autoImplicit false

namespace DragonDevice.Dsp

variable {F : Type}

/-! ## Lanes -/

/-- The lanes of an instance's outputs: the first output of two gets the lower lane of the
inputs, a single output the lane of the input, and a source's outputs are numbered. -/
def laneStep (lane : PortRef → Nat) (inst : Instance F) (ref : PortRef) : Nat :=
  if ref.plugin = inst.plugin then
    match inst.reads with
    | [r] => lane r
    | [r, r'] =>
        if (inst.outputAudioPorts.map (·.originalIndex)).head? = some ref.index then
          min (lane r) (lane r')
        else max (lane r) (lane r')
    | _ => (inst.outputAudioPorts.map (·.originalIndex)).idxOf ref.index
  else lane ref

def lanes (instances : List (Instance F)) : PortRef → Nat :=
  instances.foldl laneStep fun _ => 0

theorem lanes_snoc (l : List (Instance F)) (inst : Instance F) :
    lanes (l ++ [inst]) = laneStep (lanes l) inst := by
  unfold lanes
  rw [List.foldl_append]
  rfl

theorem laneStep_of_ne {lane : PortRef → Nat} {inst : Instance F} {ref : PortRef}
    (h : ref.plugin ≠ inst.plugin) : laneStep lane inst ref = lane ref := by
  rw [laneStep, if_neg h]

/-- Later instances do not change the lanes of earlier outputs. -/
theorem lanes_append {l l' : List (Instance F)} (h : ((l ++ l').map (·.plugin)).Nodup)
    {ref : PortRef} (href : ref.plugin ∈ l.map (·.plugin)) : lanes (l ++ l') ref = lanes l ref := by
  induction l' using List.reverseRecOn with
  | nil => rw [List.append_nil]
  | append_singleton l' inst ih =>
      rw [← List.append_assoc, List.map_append, List.map_singleton] at h
      obtain ⟨hfront, _, hne⟩ := List.nodup_append.mp h
      rw [← List.append_assoc, lanes_snoc, laneStep_of_ne, ih hfront]
      intro heq
      refine hne ref.plugin ?_ inst.plugin List.mem_cons_self heq
      rw [List.map_append]
      exact List.mem_append_left _ href

/-- The lanes depend on the wiring only. -/
theorem lanes_of_wiring {l l' : List (Instance F)}
    (h : l'.map Instance.wiring = l.map Instance.wiring) : lanes l' = lanes l := by
  have hmap : ∀ l : List (Instance F), lanes l = lanes (l.map Instance.wiring) := by
    intro l
    unfold lanes
    rw [List.foldl_map]
    congr 1
    funext lane inst ref
    unfold laneStep
    rw [inst.wiring_reads, inst.wiring_indices, inst.wiring_plugin]
  rw [hmap l', h, ← hmap l]

/-! ## Lists of buffers -/

/-- An ascending list that leaves no gap. -/
theorem eq_range_of_ascending {l : List Nat} (hasc : l.Pairwise (· < ·))
    (hclosed : ∀ s ∈ l, ∀ i < s, i ∈ l) : l = List.range l.length := by
  have hnodup : l.Nodup := hasc.imp fun hlt => Nat.ne_of_lt hlt
  have hsub : l ⊆ List.range l.length := by
    intro s hs
    have hall : List.range (s + 1) ⊆ l := by
      intro i hi
      cases Nat.lt_or_eq_of_le (Nat.le_of_lt_succ (List.mem_range.mp hi)) with
      | inl hlt => exact hclosed s hs i hlt
      | inr heq =>
          rw [heq]
          exact hs
    have hle := (List.nodup_range.subperm hall).length_le
    rw [List.length_range] at hle
    exact List.mem_range.mpr hle
  have hperm : List.Perm l (List.range l.length) :=
    (hnodup.subperm hsub).perm_of_length_le (by rw [List.length_range])
  exact hperm.eq_of_pairwise (fun _ _ _ _ h h' => absurd h (Nat.lt_asymm h')) hasc
    List.pairwise_lt_range

/-- An instance with as many outputs as inputs uses its inputs' buffers again. -/
theorem InstanceAssigned.outputs_perm {peak : Nat} {l : List (Instance F)} {inst : Instance F}
    {busy : List Bool} (h : InstanceAssigned peak l inst) (hbusy : Assigned peak l busy)
    (hord : DependencyOrdered l) (hreads : inst.reads.Nodup)
    (hinplace : inst.inplaceBroken = false) {N : Nat}
    (hfull : ∀ i, i ∈ (live l).map (·.2) ↔ i < N)
    (hlen : inst.outputAudioPorts.length = inst.inputAudioPorts.length) :
    List.Perm (inst.outputAudioPorts.map (·.bufIndex)) (inst.inputAudioPorts.map (·.bufIndex)) := by
  have hcollected : InputsCollected l inst inst.inputAudioPorts := ⟨rfl, h.inputs⟩
  have hrefs : ((live l).map (·.1)).Nodup :=
    hord.values_nodup.sublist ((live_sublist l).map _)
  have hremaining := hcollected.mem_remaining_iff hrefs hbusy.apart
  have hinputs := hcollected.buffers_nodup hreads hbusy.apart
  have houtputs : (inst.outputAudioPorts.map (·.bufIndex)).Nodup :=
    h.ascending.imp fun hlt => Nat.ne_of_lt hlt
  have hsub : inst.outputAudioPorts.map (·.bufIndex) ⊆ inst.inputAudioPorts.map (·.bufIndex) := by
    intro s hs
    by_contra hnot
    have hbeyond : N ≤ s := by
      apply Nat.le_of_not_lt
      intro hlt
      exact h.free s hs ((hremaining s).mpr ⟨(hfull s).mpr hlt, hnot⟩)
    -- then all inputs' buffers have been taken again, and this one as well
    have hmore : s :: inst.inputAudioPorts.map (·.bufIndex) ⊆
        inst.outputAudioPorts.map (·.bufIndex) := by
      refine List.cons_subset.mpr ⟨hs, fun i hi => ?_⟩
      have hlt := (hfull i).mp (hcollected.buffers_live i hi)
      cases h.lowest hinplace s hs i (by omega) with
      | inl hlive => exact absurd hi ((hremaining i).mp hlive).2
      | inr hout => exact hout
    have hle := ((List.nodup_cons.mpr ⟨hnot, hinputs⟩).subperm hmore).length_le
    rw [List.length_cons, List.length_map, List.length_map] at hle
    omega
  exact (houtputs.subperm hsub).perm_of_length_le (by rw [List.length_map, List.length_map]; omega)

/-! ## Buffers are lanes -/

/-- Behind the source all buffers hold values, and their numbers are lanes. -/
structure LanesHold (N : Nat) (l : List (Instance F)) : Prop where
  buffers : ∀ v ∈ l.flatMap Instance.values, v.2 = lanes l v.1
  full : ∀ i, i ∈ (live l).map (·.2) ↔ i < N

theorem live_nil : live ([] : List (Instance F)) = [] := rfl

theorem lanesHold_source {peak : Nat} {inst : Instance F} (h : InstanceAssigned peak [] inst)
    (hord : DependencyOrdered [inst]) (hinplace : inst.inplaceBroken = false)
    (hsource : inst.inputAudioPorts = []) :
    LanesHold inst.outputAudioPorts.length [inst] := by
  have hreads : inst.reads = [] := by
    rw [Instance.reads, hsource]
    rfl
  have hclosed : ∀ s ∈ inst.outputAudioPorts.map (·.bufIndex), ∀ i < s,
      i ∈ inst.outputAudioPorts.map (·.bufIndex) := by
    intro s hs i hi
    cases h.lowest hinplace s hs i hi with
    | inl hlive => cases hlive
    | inr hout => exact hout
  have hrange := eq_range_of_ascending h.ascending hclosed
  rw [List.length_map] at hrange
  have hlive : live [inst] = inst.values := by
    have hsnoc := live_snoc (l := []) hord
    rw [List.nil_append, live_nil] at hsnoc
    exact hsnoc
  refine ⟨fun v hv => ?_, fun i => ?_⟩
  · rw [List.flatMap_singleton] at hv
    obtain ⟨port, hport, hvalue⟩ := List.mem_map.mp hv
    obtain ⟨k, hk, hget⟩ := List.getElem_of_mem hport
    have hbuf : port.bufIndex = k := by
      have hgetbuf : (inst.outputAudioPorts.map (·.bufIndex))[k]? = some port.bufIndex := by
        rw [List.getElem?_map, List.getElem?_eq_getElem hk, hget]
        rfl
      rw [hrange, List.getElem?_range hk] at hgetbuf
      exact (Option.some.inj hgetbuf).symm
    have hindex : (inst.outputAudioPorts.map (·.originalIndex)).idxOf port.originalIndex = k := by
      have hlt : k < (inst.outputAudioPorts.map (·.originalIndex)).length := by
        rw [List.length_map]
        exact hk
      have hidx := List.Nodup.idxOf_getElem (hord.outputs inst List.mem_cons_self) k hlt
      rw [List.getElem_map, hget] at hidx
      exact hidx
    have hlane : lanes [inst] ⟨inst.plugin, port.originalIndex⟩ = k := by
      change laneStep (fun _ => 0) inst ⟨inst.plugin, port.originalIndex⟩ = k
      rw [laneStep, if_pos rfl, hreads]
      exact hindex
    rw [← hvalue]
    exact hbuf.trans hlane.symm
  · rw [hlive]
    have hbufs : inst.values.map (·.2) = inst.outputAudioPorts.map (·.bufIndex) := List.map_map
    rw [hbufs, hrange, List.mem_range]

/-- The number of ports of a filter, with what it reads. -/
inductive FilterShape (inst : Instance F) : Prop
  | mono {a c : AudioPort} (inputs : inst.inputAudioPorts = [a])
      (outputs : inst.outputAudioPorts = [c])
  | stereo {a b c d : AudioPort} (inputs : inst.inputAudioPorts = [a, b])
      (outputs : inst.outputAudioPorts = [c, d])

theorem FilterShape.length_eq {inst : Instance F} (h : FilterShape inst) :
    inst.outputAudioPorts.length = inst.inputAudioPorts.length := by
  cases h with
  | mono hin hout => rw [hin, hout]; rfl
  | stereo hin hout => rw [hin, hout]; rfl

/-- A pair in ascending order. -/
theorem pair_of_perm {a b c d : Nat} (h : List.Perm [c, d] [a, b]) (hlt : c < d) :
    c = min a b ∧ d = max a b := by
  have hc : c = a ∨ c = b := by simpa using h.subset List.mem_cons_self
  have hd : d = a ∨ d = b := by
    simpa using h.subset (List.mem_cons_of_mem _ List.mem_cons_self)
  have ha : a = c ∨ a = d := by simpa using h.symm.subset List.mem_cons_self
  have hb : b = c ∨ b = d := by
    simpa using h.symm.subset (List.mem_cons_of_mem _ List.mem_cons_self)
  omega

section Filter

variable {peak N : Nat} {l : List (Instance F)} {inst : Instance F} {busy : List Bool}

/-- The buffers of the outputs of a filter. -/
theorem filter_buffers (h : InstanceAssigned peak l inst) (hbusy : Assigned peak l busy)
    (hord : DependencyOrdered (l ++ [inst])) (hreads : inst.reads.Nodup)
    (hinplace : inst.inplaceBroken = false) (hshape : FilterShape inst) (hlanes : LanesHold N l) :
    ∀ v ∈ inst.values, v.2 = laneStep (lanes l) inst v.1 := by
  have hperm := h.outputs_perm hbusy hord.append_left hreads hinplace hlanes.full hshape.length_eq
  have hlane : ∀ port ∈ inst.inputAudioPorts, ∃ ref, port.peer = some ref ∧
      port.bufIndex = lanes l ref := by
    intro port hport
    obtain ⟨ref, hpeer, hlive⟩ := h.inputs port hport
    exact ⟨ref, hpeer, hlanes.buffers _ ((live_sublist l).subset hlive)⟩
  intro v hv
  obtain ⟨port, hport, hvalue⟩ := List.mem_map.mp hv
  rw [← hvalue]
  cases hshape with
  | @mono a c hin hout =>
      rw [hout, hin] at hperm
      rw [hout, List.mem_singleton] at hport
      obtain ⟨ref, hpeer, hbuf⟩ := hlane a (by rw [hin]; exact List.mem_cons_self)
      have hread : inst.reads = [ref] := by
        rw [Instance.reads, hin, List.filterMap_cons, hpeer]
        rfl
      rw [laneStep, if_pos rfl, hread, hport]
      have heq := List.perm_singleton.mp hperm
      exact (List.cons.inj heq).1.trans hbuf
  | @stereo a b c d hin hout =>
      have hasc := h.ascending
      have hindices := hord.outputs inst (List.mem_append_right _ List.mem_cons_self)
      rw [hout] at hasc hindices
      rw [hout, hin] at hperm
      rw [hout] at hport
      obtain ⟨ref, hpeer, hbuf⟩ := hlane a (by rw [hin]; exact List.mem_cons_self)
      obtain ⟨ref', hpeer', hbuf'⟩ := hlane b
        (by rw [hin]; exact List.mem_cons_of_mem _ List.mem_cons_self)
      have hread : inst.reads = [ref, ref'] := by
        rw [Instance.reads, hin, List.filterMap_cons, hpeer]
        dsimp only
        rw [List.filterMap_cons, hpeer']
        rfl
      have hlt : c.bufIndex < d.bufIndex := by
        have hpair := List.pairwise_cons.mp hasc
        exact hpair.1 _ List.mem_cons_self
      have hne : c.originalIndex ≠ d.originalIndex := by
        intro heq
        refine (List.nodup_cons.mp hindices).1 ?_
        exact List.mem_map.mpr ⟨d, List.mem_cons_self, heq.symm⟩
      obtain ⟨hmin, hmax⟩ := pair_of_perm hperm hlt
      rw [laneStep, if_pos rfl, hread, hout]
      dsimp only
      rw [← hbuf, ← hbuf']
      cases List.mem_cons.mp hport with
      | inl hfirst =>
          rw [hfirst]
          simp only [List.map_cons, List.head?_cons, if_true]
          exact hmin
      | inr hsecond =>
          rw [List.mem_singleton.mp hsecond]
          simp only [List.map_cons, List.head?_cons, Option.some.injEq, hne, if_false]
          exact hmax

theorem LanesHold.filter (hlanes : LanesHold N l) (h : InstanceAssigned peak l inst)
    (hbusy : Assigned peak l busy) (hord : DependencyOrdered (l ++ [inst]))
    (hreads : inst.reads.Nodup) (hinplace : inst.inplaceBroken = false)
    (hshape : FilterShape inst) : LanesHold N (l ++ [inst]) := by
  have hperm := h.outputs_perm hbusy hord.append_left hreads hinplace hlanes.full hshape.length_eq
  have hcollected : InputsCollected l inst inst.inputAudioPorts := ⟨rfl, h.inputs⟩
  have hrefs : ((live l).map (·.1)).Nodup :=
    hord.append_left.values_nodup.sublist ((live_sublist l).map _)
  refine ⟨fun v hv => ?_, fun i => ?_⟩
  · rw [lanes_snoc]
    rw [List.flatMap_append, List.flatMap_singleton] at hv
    cases List.mem_append.mp hv with
    | inl hold =>
        obtain ⟨inst', hmem, hvalue⟩ := List.mem_flatMap.mp hold
        rw [laneStep_of_ne, ← hlanes.buffers v hold]
        intro heq
        rw [Instance.plugin_of_mem_values hvalue] at heq
        refine hord.plugin_not_mem ?_
        rw [← heq]
        exact List.mem_map_of_mem hmem
    | inr hnew =>
        exact filter_buffers h hbusy hord hreads hinplace hshape hlanes v hnew
  · have hvalues : inst.values.map (·.2) = inst.outputAudioPorts.map (·.bufIndex) := List.map_map
    rw [live_snoc hord, List.map_append, List.mem_append, hvalues, hperm.mem_iff,
      hcollected.mem_remaining_iff hrefs hbusy.apart, ← hlanes.full]
    constructor
    · rintro (⟨hlive, _⟩ | hinput)
      · exact hlive
      · exact hcollected.buffers_live i hinput
    · intro hlive
      by_cases hinput : i ∈ inst.inputAudioPorts.map (·.bufIndex)
      · exact Or.inr hinput
      · exact Or.inl ⟨hlive, hinput⟩

end Filter

end DragonDevice.Dsp
