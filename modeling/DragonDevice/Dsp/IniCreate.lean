/-
  Dsp/IniCreate.lean --- `cras_dsp_ini_create`: from the text of an ini file to its plugins.

  Each section is a plugin.  Flows are numbered as their names first come, over all sections.
  A flow's name begins with the bracket that gives the type of its ports, so what the parser
  returns meets the conditions that `Ini` carries.  What `strtof` makes of a text is arbitrary.
-/
import DragonDevice.Dsp.ExprEval
import DragonDevice.Dsp.ParsePorts
import DragonDevice.IniParser.Sections
import DragonDevice.Lib.PartialMap

set_option autoImplicit false

namespace DragonDevice.Dsp

open DragonDevice.Lib DragonDevice.IniParser

variable {F : Type}

/-! ## The code -/

/-- What `iniparser_getstring` finds. -/
def lookupString (d : IniParser.Dictionary) : Dictionary := fun key => iniparserGetstring d key none

/-- The type of the ports of a flow. -/
def flowType (name : List Char) : PortType := if name.head? = some '<' then .control else .audio

/-- The disable expression of a section, `NULL` when there is none or it cannot be read. -/
def parseDisable (dict : Dictionary) (secName : List Char) : Option Expression :=
  (getstring dict secName "disable".toList).bind fun str => (crasExprExpressionParse str).join

/-- `parse_plugin_section`, with the names of the flows so far. -/
def parsePluginSection [Zero F] (strtof : List Char → F) (dict : Dictionary)
    (secName : List Char) (flows : List (List Char)) :
    Option (Plugin F Expression × List (List Char)) :=
  match getstring dict secName "library".toList, getstring dict secName "label".toList with
  | some library, some label =>
      let parsed := parsePorts strtof dict secName flows
      if parsed.succeeds then
        some (⟨String.ofList library, String.ofList label,
          (getstring dict secName "purpose".toList).map String.ofList, parseDisable dict secName,
          parsed.ports⟩, parsed.flows)
      else none
  | _, _ => none

/-- The loop over the sections. -/
def parseSections [Zero F] (strtof : List Char → F) (dict : Dictionary) :
    List (List Char) → List (List Char) → Option (List (Plugin F Expression) × List (List Char))
  | [], flows => some ([], flows)
  | secName :: rest, flows =>
      (parsePluginSection strtof dict secName flows).bind fun p =>
        (parseSections strtof dict rest p.2).map fun q => (p.1 :: q.1, q.2)

/-- The sections by their numbers; each of them is there. -/
def sectionNames (d : IniParser.Dictionary) : List (List Char) :=
  (List.range (iniparserGetnsec d)).filterMap (iniparserGetsecname d)

/-! ## What a section says -/

/-- A value for a port has the type that its text begins with. -/
def PortValue.Typed : PortValue F → Prop
  | .flow type name => type = flowType name
  | .number _ => True

theorem portEntry_typed {strtof : List Char → F} {direction direction' : PortDirection}
    {str : List Char} {value : PortValue F}
    (h : portEntry strtof direction str = .port direction' value) : value.Typed := by
  cases str with
  | nil => cases h
  | cons c rest =>
      rw [portEntry] at h
      by_cases hcontrol : c = '<'
      · rw [if_pos hcontrol] at h
        cases h
        rw [hcontrol]
        rfl
      · rw [if_neg hcontrol] at h
        by_cases haudio : c = '{'
        · rw [if_pos haudio] at h
          cases h
          rw [haudio]
          rfl
        · rw [if_neg haudio] at h
          cases h
          trivial

theorem readPort_typed {strtof : List Char → F} {get : List Char → Option (List Char)} {i : Nat}
    {direction : PortDirection} {value : PortValue F}
    (h : readPort strtof get i = .port direction value) : value.Typed := by
  unfold readPort at h
  split at h
  · exact portEntry_typed h
  · split at h
    · exact portEntry_typed h
    · cases h

theorem portPrefix_typed {strtof : List Char → F} {get : List Char → Option (List Char)}
    (left : Nat) : ∀ i, ∀ v ∈ (portPrefix (readPort strtof get) left i).1, v.2.Typed := by
  induction left with
  | zero => exact fun i v hv => absurd hv List.not_mem_nil
  | succ left ih =>
      intro i v hv
      rw [portPrefix] at hv
      cases hread : readPort strtof get i with
      | missing =>
          rw [hread] at hv
          exact absurd hv List.not_mem_nil
      | empty =>
          rw [hread] at hv
          exact absurd hv List.not_mem_nil
      | port direction value =>
          rw [hread] at hv
          cases List.mem_cons.mp hv with
          | inl heq =>
              rw [heq]
              exact readPort_typed hread
          | inr hv => exact ih (i + 1) v hv

/-- What `Ini` asks of a port. -/
def Port.WellFormed (flowTypes : List PortType) (port : Port F) : Prop :=
  (∀ id, port.flowId = some id → flowTypes[id]? = some port.type) ∧
    (port.type = .audio → port.flowId ≠ none)

theorem PortOf.wellFormed [Zero F] {flows : List (List Char)} {v : PortDirection × PortValue F}
    {port : Port F} (h : PortOf flows v port) (htyped : v.2.Typed) :
    port.WellFormed (flows.map flowType) := by
  obtain ⟨-, hvalue⟩ := h
  cases hv : v.2 with
  | flow type name =>
      rw [hv] at hvalue htyped
      obtain ⟨htype, -, id, hid, hname⟩ := hvalue
      refine ⟨fun id' hid' => ?_, fun _ hnone => ?_⟩
      · rw [hid] at hid'
        cases hid'
        rw [List.getElem?_map, hname, htype, show type = flowType name from htyped]
        rfl
      · rw [hid] at hnone
        cases hnone
  | number init =>
      rw [hv] at hvalue
      obtain ⟨htype, -, hnone⟩ := hvalue
      refine ⟨fun id hid => ?_, fun haudio => ?_⟩
      · rw [hnone] at hid
        cases hid
      · rw [htype] at haudio
        cases haudio

/-- The ports that a section names, up to the first index without one. -/
def namedPorts (strtof : List Char → F) (dict : Dictionary) (secName : List Char) :
    List (PortDirection × PortValue F) × Bool :=
  portPrefix (readPort strtof (getstring dict secName)) maxNrPort 0

/-- A section that can be a plugin. -/
structure PluginSection (strtof : List Char → F) (dict : Dictionary) (secName : List Char) :
    Prop where
  library : (getstring dict secName "library".toList).isSome = true
  label : (getstring dict secName "label".toList).isSome = true
  ports : (namedPorts strtof dict secName).2 = true

/-- The plugin of a section, where flows go by their names. -/
structure PluginOf [Zero F] (strtof : List Char → F) (dict : Dictionary)
    (flows : List (List Char)) (secName : List Char) (plugin : Plugin F Expression) : Prop where
  library : getstring dict secName "library".toList = some plugin.library.toList
  label : getstring dict secName "label".toList = some plugin.label.toList
  purpose : getstring dict secName "purpose".toList = plugin.purpose.map String.toList
  disable : plugin.disableExpr = parseDisable dict secName
  ports : List.Forall₂ (PortOf flows) (namedPorts strtof dict secName).1 plugin.ports

section Sections

variable [Zero F] {strtof : List Char → F} {dict : Dictionary}

theorem PluginOf.mono {flows flows' : List (List Char)} {secName : List Char}
    {plugin : Plugin F Expression} (h : PluginOf strtof dict flows secName plugin)
    (hgrown : flows <+: flows') : PluginOf strtof dict flows' secName plugin :=
  { h with ports := h.ports.imp fun _ _ hport => hport.mono hgrown }

theorem PluginOf.wellFormed {flows : List (List Char)} {secName : List Char}
    {plugin : Plugin F Expression} (h : PluginOf strtof dict flows secName plugin) :
    ∀ port ∈ plugin.ports, port.WellFormed (flows.map flowType) := by
  intro port hport
  obtain ⟨v, hv, hof⟩ := (exists_of_forall₂ h.ports).2 port hport
  exact hof.wellFormed (portPrefix_typed maxNrPort 0 v hv)

/-- A name is a flow once. -/
theorem lookupOrAddFlow_nodup {flows : List (List Char)} (h : flows.Nodup) (name : List Char) :
    (lookupOrAddFlow flows name).2.Nodup := by
  unfold lookupOrAddFlow
  split
  · exact h
  · rename_i hnone
    apply List.Nodup.append h (List.nodup_singleton name)
    intro a ha ha'
    have hne := List.findIdx?_eq_none_iff.mp hnone a ha
    rw [List.mem_singleton.mp ha'] at hne
    simp at hne

theorem parsePortsFrom_nodup (read : Nat → PortEntry F) (left : Nat) :
    ∀ (i : Nat) {flows : List (List Char)}, flows.Nodup →
      (parsePortsFrom read left i flows).flows.Nodup := by
  induction left with
  | zero => exact fun i flows h => h
  | succ left ih =>
      intro i flows h
      rw [parsePortsFrom]
      cases read i with
      | missing => exact h
      | empty => exact h
      | port direction value =>
          apply ih
          cases value with
          | flow type name => exact lookupOrAddFlow_nodup h name
          | number init => exact h

/-- `parse_plugin_section` succeeds for a section that can be a plugin. -/
theorem parsePluginSection_spec (secName : List Char) (flows : List (List Char)) :
    (parsePluginSection strtof dict secName flows = none ∧ ¬ PluginSection strtof dict secName) ∨
    ∃ plugin flows', parsePluginSection strtof dict secName flows = some (plugin, flows') ∧
      PluginSection strtof dict secName ∧ PluginOf strtof dict flows' secName plugin ∧
      flows <+: flows' ∧ (flows.Nodup → flows'.Nodup) := by
  obtain ⟨hports, hsucceeds, hgrown⟩ := parsePortsFrom_spec
    (readPort strtof (getstring dict secName)) maxNrPort 0 flows
  unfold parsePluginSection
  cases hlibrary : getstring dict secName "library".toList with
  | none =>
      refine Or.inl ⟨rfl, fun h => ?_⟩
      have hsome := h.library
      rw [hlibrary] at hsome
      cases hsome
  | some library =>
      cases hlabel : getstring dict secName "label".toList with
      | none =>
          refine Or.inl ⟨rfl, fun h => ?_⟩
          have hsome := h.label
          rw [hlabel] at hsome
          cases hsome
      | some label =>
          dsimp only
          cases hports' : (parsePorts strtof dict secName flows).succeeds with
          | false =>
              refine Or.inl ⟨by simp, fun h => ?_⟩
              have hnamed := h.ports
              unfold namedPorts at hnamed
              rw [← hsucceeds] at hnamed
              exact Bool.false_ne_true (hports'.symm.trans hnamed)
          | true =>
              rw [if_pos rfl]
              refine Or.inr ⟨_, _, rfl, ⟨by rw [hlibrary]; rfl, by rw [hlabel]; rfl, ?_⟩, ?_,
                hgrown, fun h => parsePortsFrom_nodup _ maxNrPort 0 h⟩
              · exact hsucceeds.symm.trans hports'
              · refine ⟨?_, ?_, ?_, rfl, hports⟩
                · rw [hlibrary, String.toList_ofList]
                · rw [hlabel, String.toList_ofList]
                · cases getstring dict secName "purpose".toList with
                  | none => rfl
                  | some purpose => simp

/-- The loop succeeds when every section can be a plugin. -/
theorem parseSections_spec (names : List (List Char)) :
    ∀ flows : List (List Char), flows.Nodup →
      (parseSections strtof dict names flows = none ∧
        ¬ ∀ secName ∈ names, PluginSection strtof dict secName) ∨
      ∃ plugins flows', parseSections strtof dict names flows = some (plugins, flows') ∧
        (∀ secName ∈ names, PluginSection strtof dict secName) ∧
        List.Forall₂ (PluginOf strtof dict flows') names plugins ∧ flows <+: flows' ∧
        flows'.Nodup := by
  induction names with
  | nil =>
      exact fun flows hnodup =>
        Or.inr ⟨[], flows, rfl, List.forall_mem_nil _, .nil, List.prefix_rfl, hnodup⟩
  | cons secName names ih =>
      intro flows hnodup
      rw [parseSections]
      rcases @parsePluginSection_spec F _ strtof dict secName flows with
        ⟨hnone, hbad⟩ | ⟨plugin, flows₁, hsome, hgood, hplugin, hgrown, hnodup₁⟩
      · rw [hnone]
        exact Or.inl ⟨rfl, fun hall => hbad (hall secName List.mem_cons_self)⟩
      · rw [hsome, Option.bind_some]
        rcases ih flows₁ (hnodup₁ hnodup) with
          ⟨hnone, hbad⟩ | ⟨plugins, flows₂, hrest, hgood', hplugins, hgrown', hnodup₂⟩
        · rw [hnone]
          exact Or.inl ⟨rfl, fun hall => hbad fun s hs => hall s (List.mem_cons_of_mem _ hs)⟩
        · rw [hrest]
          exact Or.inr ⟨_, _, rfl, List.forall_mem_cons.mpr ⟨hgood, hgood'⟩,
            .cons (hplugin.mono hgrown') hplugins, hgrown.trans hgrown', hnodup₂⟩

theorem parseSections_wellFormed {names : List (List Char)}
    {plugins : List (Plugin F Expression)} {flows : List (List Char)}
    (h : parseSections strtof dict names [] = some (plugins, flows)) :
    ∀ plugin ∈ plugins, ∀ port ∈ plugin.ports, port.WellFormed (flows.map flowType) := by
  intro plugin hplugin
  rcases @parseSections_spec F _ strtof dict names [] List.nodup_nil with
    ⟨hnone, -⟩ | ⟨plugins', flows', hsome, -, hplugins, -⟩
  · rw [h] at hnone
    cases hnone
  · rw [h] at hsome
    cases hsome
    obtain ⟨secName, -, hof⟩ := (exists_of_forall₂ hplugins).2 plugin hplugin
    exact hof.wellFormed

end Sections

/-! ## Creating an ini -/

/-- The ini of a dictionary; `fill_flow_info` is what `Ini.flows` says. -/
def iniOfDictionary [Zero F] (strtof : List Char → F) (d : IniParser.Dictionary) :
    Option (Ini F Expression) :=
  match h : parseSections strtof (lookupString d) (sectionNames d) [] with
  | none => none
  | some (plugins, flows) => some
      { plugins := plugins
        flowTypes := flows.map flowType
        port_flow := fun plugin hplugin port hport =>
          (parseSections_wellFormed h plugin hplugin port hport).1
        audio_flow := fun plugin hplugin port hport =>
          (parseSections_wellFormed h plugin hplugin port hport).2 }

/-- `cras_dsp_ini_create` for the text of a file; a failure is `NULL`. -/
def crasDspIniCreate [Zero F] (strtof : List Char → F) (text : List Char) :
    Outcome (Ini F Expression) :=
  (iniparserLoad text).bind fun d =>
    match iniOfDictionary strtof d with
    | none => .failed
    | some ini => .done ini

/-! ## What is created -/

section Create

variable [Zero F] {strtof : List Char → F}

theorem iniOfDictionary_spec (d : IniParser.Dictionary) :
    (iniOfDictionary strtof d = none ∧
      ¬ ∀ secName ∈ sectionNames d, PluginSection strtof (lookupString d) secName) ∨
    ∃ (ini : Ini F Expression) (flows : List (List Char)), iniOfDictionary strtof d = some ini ∧
      (∀ secName ∈ sectionNames d, PluginSection strtof (lookupString d) secName) ∧
      ini.flowTypes = flows.map flowType ∧ flows.Nodup ∧
      List.Forall₂ (PluginOf strtof (lookupString d) flows) (sectionNames d) ini.plugins := by
  have hspec := @parseSections_spec F _ strtof (lookupString d) (sectionNames d) [] List.nodup_nil
  unfold iniOfDictionary
  split
  · rename_i hnone
    rcases hspec with ⟨-, hbad⟩ | ⟨plugins, flows, hsome, -⟩
    · exact Or.inl ⟨rfl, hbad⟩
    · rw [hnone] at hsome
      cases hsome
  · rename_i plugins flows hparse
    rcases hspec with ⟨hnone, -⟩ | ⟨plugins', flows', hsome, hgood, hplugins, -, hnodup⟩
    · rw [hparse] at hnone
      cases hnone
    · rw [hparse] at hsome
      cases hsome
      exact Or.inr ⟨_, flows, rfl, hgood, rfl, hnodup, hplugins⟩

theorem sectionNames_eq (d : IniParser.Dictionary) : sectionNames d = d.sections := by
  unfold sectionNames
  rw [IniParser.Dictionary.getnsec_eq]
  have hget : iniparserGetsecname d = fun i => d.sections[i]? :=
    funext IniParser.Dictionary.getsecname_eq
  rw [hget]
  generalize d.sections = l
  induction l with
  | nil => rfl
  | cons a l ih =>
      rw [List.length_cons, List.range_succ_eq_map,
        List.filterMap_cons_some (show (a :: l)[0]? = some a from rfl), List.filterMap_map]
      exact congrArg (a :: ·) ih

end Create

/-- What the assignments of a file say of keys. -/
def assigned (as : List Assignment) : Dictionary := fun key =>
  (List.lookup (strlwc key) as.reverse).getD none

/-- The sections of assignments, as they first come. -/
def assignedSections (as : List Assignment) : List (List Char) :=
  ((assignAll [] as).map Prod.fst).filter isSection

/-- For lines that fit, an ini is created exactly when the file loads and every section has a
library, a label and no empty port.  The plugins are then those of the sections in their order,
and ports are of one flow exactly when they have one name. -/
theorem iniCreate_means [Zero F] (strtof : List Char → F) {lines : List (List Char)}
    (h : Readable lines) :
    ((∃ ini, crasDspIniCreate strtof (terminate '\n' lines) = .done ini) ↔
      trailingErrs [] 0 (logicalLines [] lines) = 0 ∧
        ∀ secName ∈ assignedSections (assignments [] (logicalLines [] lines)),
          PluginSection strtof (assigned (assignments [] (logicalLines [] lines))) secName) ∧
    ∀ ini, crasDspIniCreate strtof (terminate '\n' lines) = .done ini →
      ∃ flows : List (List Char), ini.flowTypes = flows.map flowType ∧ flows.Nodup ∧
        List.Forall₂
          (PluginOf strtof (assigned (assignments [] (logicalLines [] lines))) flows)
          (assignedSections (assignments [] (logicalLines [] lines))) ini.plugins := by
  obtain ⟨d, hvalid, hentries, hload⟩ := h.load
  have hlookup : lookupString d = assigned (assignments [] (logicalLines [] lines)) := by
    funext key
    unfold lookupString iniparserGetstring dictionaryGet assigned
    have htable : d.table.entries = assignAll [] (assignments [] (logicalLines [] lines)) :=
      hentries
    rw [hvalid.find_eq, IniParser.Dictionary.map, SlotTable.lookup, htable, lookup_assignAll,
      List.lookup_nil, Option.or_none]
  have hnames : sectionNames d = assignedSections (assignments [] (logicalLines [] lines)) := by
    rw [sectionNames_eq, IniParser.Dictionary.sections, hentries]
    rfl
  have hspec := @iniOfDictionary_spec F _ strtof d
  rw [hlookup, hnames] at hspec
  unfold crasDspIniCreate
  rw [hload]
  by_cases herrs : trailingErrs [] 0 (logicalLines [] lines) = 0
  · rw [if_pos herrs, Outcome.done_bind]
    rcases hspec with ⟨hnone, hbad⟩ | ⟨ini, flows, hsome, hgood, htypes, hnodup, hplugins⟩
    · rw [hnone]
      refine ⟨⟨?_, fun hok => absurd hok.2 hbad⟩, fun ini hdone => ?_⟩
      · rintro ⟨ini, hdone⟩
        cases hdone
      · cases hdone
    · rw [hsome]
      refine ⟨⟨fun _ => ⟨herrs, hgood⟩, fun _ => ⟨ini, rfl⟩⟩, fun ini' hdone => ?_⟩
      cases hdone
      exact ⟨flows, htypes, hnodup, hplugins⟩
  · rw [if_neg herrs, Outcome.failed_bind]
    refine ⟨⟨?_, fun hok => absurd hok.1 herrs⟩, fun ini hdone => ?_⟩
    · rintro ⟨ini, hdone⟩
      cases hdone
    · cases hdone

/-- A source that flows into a sink. -/
def passThrough : List (List Char) :=
  ["[in]".toList, "library=builtin".toList, "label=source".toList, "output_0=\x7bx\x7d".toList,
    "[out]".toList, "library=builtin".toList, "label=sink".toList, "input_0=\x7bx\x7d".toList]

theorem readable_passThrough : Readable passThrough := ⟨by decide, by decide, by decide⟩

/-- It is created, with two plugins. -/
theorem iniCreate_means_passThrough :
    ∃ ini : Ini Int Expression,
      crasDspIniCreate (fun _ => 0) (terminate '\n' passThrough) = .done ini ∧
        ini.plugins.length = 2 := by
  have hmeans := iniCreate_means (F := Int) (fun _ => 0) readable_passThrough
  have hsections : assignedSections (assignments [] (logicalLines [] passThrough)) =
      ["in".toList, "out".toList] := by decide
  rw [hsections] at hmeans
  obtain ⟨ini, hini⟩ := hmeans.1.mpr ⟨by decide, List.forall_mem_cons.mpr
    ⟨⟨by decide, by decide, by decide⟩, List.forall_mem_cons.mpr
      ⟨⟨by decide, by decide, by decide⟩, List.forall_mem_nil _⟩⟩⟩
  obtain ⟨flows, -, -, hplugins⟩ := hmeans.2 ini hini
  exact ⟨ini, hini, hplugins.length_eq.symm⟩

end DragonDevice.Dsp
