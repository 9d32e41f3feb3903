/-
  Dsp/Contraction.lean --- the graph that a pipeline stands for.

  A plugin is upstream of another when one of its outputs has the flow of one of the other's
  inputs.  Disabled plugins are contracted: the signal of an input is followed back through
  them, from the k-th output of a type to the k-th input of that type, to an enabled plugin.
-/
import DragonDevice.Dsp.Pipeline

set_option autoImplicit false

namespace DragonDevice.Dsp

open DragonDevice.Lib

variable {F E : Type}

/-! ## The contracted graph -/

/-- An output and an input port of one flow. -/
def Feeds (ini : Ini F E) (out inp : PortRef) : Prop :=
  ∃ po pi id, ini.port? out = some po ∧ po.direction = .output ∧ po.flowId = some id ∧
    ini.port? inp = some pi ∧ pi.direction = .input ∧ pi.flowId = some id

/-- The first plugin reads a flow that the second one produces. -/
def Upstream (ini : Ini F E) (p q : Nat) : Prop :=
  ∃ out inp, Feeds ini out inp ∧ inp.plugin = p ∧ out.plugin = q

/-- No plugin is upstream of itself. -/
def Acyclic (ini : Ini F E) : Prop := ∀ p, ¬ Relation.TransGen (Upstream ini) p p

/-- Each flow has at most one producing output port. -/
def SingleProducer (ini : Ini F E) : Prop :=
  ∀ out out' po po' id, ini.port? out = some po → po.direction = .output → po.flowId = some id →
    ini.port? out' = some po' → po'.direction = .output → po'.flowId = some id → out = out'

def Enabled (ini : Ini F E) (eval : E → Option Bool) (p : Nat) : Prop :=
  ∃ plugin, ini.plugins[p]? = some plugin ∧ isDisabled eval plugin = false

def Disabled (ini : Ini F E) (eval : E → Option Bool) (p : Nat) : Prop :=
  ∃ plugin, ini.plugins[p]? = some plugin ∧ isDisabled eval plugin = true

/-- The k-th output of a type and the k-th input of that type, of one plugin. -/
def Corresponds (ini : Ini F E) (out inp : PortRef) : Prop :=
  out.plugin = inp.plugin ∧ ∃ plugin po pi, ini.plugins[out.plugin]? = some plugin ∧
    plugin.ports[out.index]? = some po ∧ po.direction = .output ∧
    plugin.ports[inp.index]? = some pi ∧ pi.direction = .input ∧ pi.type = po.type ∧
    portRank .output po.type plugin.ports out.index = portRank .input po.type plugin.ports inp.index

/-- The output of an enabled plugin that an input's signal comes from. -/
inductive Origin (ini : Ini F E) (eval : E → Option Bool) : PortRef → PortRef → Prop
  | direct {inp out : PortRef} (feeds : Feeds ini out inp) (enabled : Enabled ini eval out.plugin) :
      Origin ini eval inp out
  | through {inp mid inp' out : PortRef} (feeds : Feeds ini mid inp)
      (disabled : Disabled ini eval mid.plugin) (corresponds : Corresponds ini mid inp')
      (rest : Origin ini eval inp' out) : Origin ini eval inp out

/-- The graph is acyclic when the plugins can be numbered along the flows. -/
theorem acyclic_of_rank {ini : Ini F E} (rank : Nat → Nat)
    (h : ∀ x ∈ allPorts ini.plugins, ∀ y ∈ allPorts ini.plugins, x.2.direction = .output →
      y.2.direction = .input → x.2.flowId ≠ none → x.2.flowId = y.2.flowId →
      rank x.1.plugin < rank y.1.plugin) : Acyclic ini := by
  have hup : ∀ p q, Upstream ini p q → rank q < rank p := by
    intro p q hpq
    obtain ⟨out, inp, ⟨po, pi, id, hpo, hout, hid, hpi, hin, hpid⟩, hp, hq⟩ := hpq
    rw [← hp, ← hq]
    exact h (out, po) (ini.mem_allPorts_iff.mpr hpo) (inp, pi) (ini.mem_allPorts_iff.mpr hpi)
      hout hin (by rw [hid]; exact Option.some_ne_none id) (hid.trans hpid.symm)
  have htrans : ∀ p q, Relation.TransGen (Upstream ini) p q → rank q < rank p := by
    intro p q hpq
    induction hpq with
    | single h => exact hup _ _ h
    | tail _ h ih => exact Nat.lt_trans (hup _ _ h) ih
  intro p hp
  exact Nat.lt_irrefl _ (htrans p p hp)

theorem singleProducer_of_ports {ini : Ini F E}
    (h : ∀ x ∈ allPorts ini.plugins, ∀ y ∈ allPorts ini.plugins, x.2.direction = .output →
      y.2.direction = .output → x.2.flowId ≠ none → x.2.flowId = y.2.flowId → x.1 = y.1) :
    SingleProducer ini := by
  intro out out' po po' id hpo hout hid hpo' hout' hid'
  exact h (out, po) (ini.mem_allPorts_iff.mpr hpo) (out', po') (ini.mem_allPorts_iff.mpr hpo')
    hout hout' (by rw [hid]; exact Option.some_ne_none id) (hid.trans hid'.symm)

/-! ## Finding the corresponding input -/

theorem Port.is_iff {direction : PortDirection} {type : PortType} {port : Port F} :
    port.is direction type = true ↔ port.direction = direction ∧ port.type = type := by
  rw [Port.is, Bool.and_eq_true, beq_iff_eq, beq_iff_eq]

theorem nthPort_eq_some {direction : PortDirection} {type : PortType} :
    ∀ {ports : List (Port F)} {k i : Nat}, nthPort direction type ports k = some i →
      ∃ port, ports[i]? = some port ∧ port.direction = direction ∧ port.type = type ∧
        portRank direction type ports i = k := by
  intro ports
  induction ports with
  | nil =>
      intro k i h
      cases h
  | cons port rest ih =>
      intro k i h
      unfold nthPort at h
      by_cases hport : port.is direction type = true
      · rw [if_pos hport] at h
        cases k with
        | zero =>
            cases h
            exact ⟨port, rfl, (Port.is_iff.mp hport).1, (Port.is_iff.mp hport).2, rfl⟩
        | succ k =>
            obtain ⟨i', hrest, hi⟩ := Option.map_eq_some_iff.mp h
            obtain ⟨q, hq, hdir, htype, hrank⟩ := ih hrest
            subst hi
            refine ⟨q, hq, hdir, htype, ?_⟩
            unfold portRank at hrank ⊢
            rw [List.take_succ_cons, List.countP_cons_of_pos hport, hrank]
      · rw [if_neg hport] at h
        obtain ⟨i', hrest, hi⟩ := Option.map_eq_some_iff.mp h
        obtain ⟨q, hq, hdir, htype, hrank⟩ := ih hrest
        subst hi
        refine ⟨q, hq, hdir, htype, ?_⟩
        unfold portRank at hrank ⊢
        rw [List.take_succ_cons, List.countP_cons_of_neg hport, hrank]

/-- A bypassed plugin corresponds to the input it is left by. -/
theorem corresponds_of_bypass {ini : Ini F E} {p : Nat} {plugin : Plugin F E} {po : Port F}
    {index index' : Nat} (hplugin : ini.plugins[p]? = some plugin)
    (hpo : plugin.ports[index]? = some po) (hout : po.direction = .output)
    (hbypass : bypass plugin.ports po.type index = some index') :
    Corresponds ini ⟨p, index⟩ ⟨p, index'⟩ := by
  unfold bypass at hbypass
  split at hbypass
  · obtain ⟨pi, hpi, hdir, htype, hrank⟩ := nthPort_eq_some hbypass
    exact ⟨rfl, plugin, po, pi, hplugin, hpo, hout, hpi, hdir, htype, hrank.symm⟩
  · cases hbypass

/-- Two ports of a kind with as many of that kind before them are one. -/
theorem index_eq_of_portRank {direction : PortDirection} {type : PortType} {ports : List (Port F)}
    {i i' : Nat} {port port' : Port F} (h : ports[i]? = some port) (h' : ports[i']? = some port')
    (hkind : port.is direction type = true) (hkind' : port'.is direction type = true)
    (hrank : portRank direction type ports i = portRank direction type ports i') : i = i' := by
  have hless : ∀ {j j' : Nat} {q : Port F}, ports[j]? = some q → q.is direction type = true →
      j < j' → portRank direction type ports j < portRank direction type ports j' := by
    intro j j' q hq hkind hlt
    have hstep : portRank direction type ports (j + 1) = portRank direction type ports j + 1 := by
      unfold portRank
      rw [List.take_add_one, hq, Option.toList_some, List.countP_append,
        List.countP_singleton, if_pos hkind]
    have hmono : portRank direction type ports (j + 1) ≤ portRank direction type ports j' :=
      (List.take_sublist_take_left hlt).countP_le
    omega
  by_contra hne
  cases Nat.lt_or_gt_of_ne hne with
  | inl hlt =>
      have := hless h hkind hlt
      omega
  | inr hgt =>
      have := hless h' hkind' hgt
      omega

/-- An output corresponds to one input only. -/
theorem Corresponds.unique {ini : Ini F E} {out inp inp' : PortRef} (h : Corresponds ini out inp)
    (h' : Corresponds ini out inp') : inp = inp' := by
  obtain ⟨hplugin, plugin, po, pi, hp, hpo, _, hpi, hdir, htype, hrank⟩ := h
  obtain ⟨hplugin', plugin', po', pi', hp', hpo', _, hpi', hdir', htype', hrank'⟩ := h'
  rw [hp] at hp'
  cases hp'
  rw [hpo] at hpo'
  cases hpo'
  have hindex := index_eq_of_portRank hpi hpi' (Port.is_iff.mpr ⟨hdir, htype⟩)
    (Port.is_iff.mpr ⟨hdir', htype'⟩) (hrank.symm.trans hrank')
  obtain ⟨p, i⟩ := inp
  obtain ⟨p', i'⟩ := inp'
  dsimp only at hplugin hplugin' hindex
  rw [← hplugin, ← hplugin', hindex]

theorem Feeds.unique {ini : Ini F E} (hsingle : SingleProducer ini) {out out' inp : PortRef}
    (h : Feeds ini out inp) (h' : Feeds ini out' inp) : out = out' := by
  obtain ⟨po, pi, id, hpo, hout, hid, hpi, _, hpid⟩ := h
  obtain ⟨po', pi', id', hpo', hout', hid', hpi', _, hpid'⟩ := h'
  rw [hpi] at hpi'
  cases hpi'
  rw [hpid] at hpid'
  cases hpid'
  exact hsingle out out' po po' id hpo hout hid hpo' hout' hid'

theorem not_disabled_of_enabled {ini : Ini F E} {eval : E → Option Bool} {p : Nat}
    (h : Enabled ini eval p) : ¬ Disabled ini eval p := by
  intro hdisabled
  obtain ⟨plugin, hplugin, hfalse⟩ := h
  obtain ⟨plugin', hplugin', htrue⟩ := hdisabled
  rw [hplugin] at hplugin'
  cases hplugin'
  rw [hfalse] at htrue
  cases htrue

/-- With one producer for each flow, an input has one origin. -/
theorem Origin.unique {ini : Ini F E} {eval : E → Option Bool} (hsingle : SingleProducer ini)
    {inp out out' : PortRef} (h : Origin ini eval inp out) (h' : Origin ini eval inp out') :
    out = out' := by
  induction h with
  | direct hfeeds henabled =>
      cases h' with
      | direct hfeeds' _ => exact hfeeds.unique hsingle hfeeds'
      | through hfeeds' hdisabled _ _ =>
          rw [← hfeeds.unique hsingle hfeeds'] at hdisabled
          exact absurd hdisabled (not_disabled_of_enabled henabled)
  | through hfeeds hdisabled hcorr _ ih =>
      cases h' with
      | direct hfeeds' henabled =>
          rw [← hfeeds.unique hsingle hfeeds'] at henabled
          exact absurd hdisabled (not_disabled_of_enabled henabled)
      | through hfeeds' _ hcorr' hrest =>
          rw [← hfeeds.unique hsingle hfeeds'] at hcorr'
          rw [← hcorr.unique hcorr'] at hrest
          exact ih hrest

/-! ## One step of the search -/

/-- How the search for an origin goes on from an input port. -/
theorem findOriginPort_step {ini : Ini F E} {built : List Nat} {fuel : Nat} {ref origin : PortRef}
    (h : findOriginPort ini built (fuel + 1) ref = .done origin) :
    ∃ port id flow p, ini.port? ref = some port ∧ port.flowId = some id ∧
      ini.flows[id]? = some flow ∧ flow.fromPlugin = some p ∧
      ((p ∈ built ∧ origin = ⟨p, flow.fromPort⟩) ∨
        (p ∉ built ∧ ∃ plugin index, ini.plugins[p]? = some plugin ∧
          bypass plugin.ports port.type flow.fromPort = some index ∧
          findOriginPort ini built fuel ⟨p, index⟩ = .done origin)) := by
  unfold findOriginPort at h
  split at h
  · cases h
  · rename_i port hport
    split at h
    · cases h
    · rename_i id hid
      split at h
      · cases h
      · rename_i flow hflow
        split at h
        · cases h
        · rename_i p hp
          refine ⟨port, id, flow, p, hport, hid, hflow, hp, ?_⟩
          split at h
          · rename_i hbuilt
            cases h
            exact Or.inl ⟨List.contains_iff_mem.mp hbuilt, rfl⟩
          · rename_i hbuilt
            refine Or.inr ⟨fun hmem => hbuilt (List.contains_iff_mem.mpr hmem), ?_⟩
            split at h
            · cases h
            · rename_i plugin hplugin
              split at h
              · cases h
              · rename_i index hindex
                exact ⟨plugin, index, hplugin, hindex, h⟩

end DragonDevice.Dsp
