/-
  Hwc/GlComposite.lean --- when a composition reports what it drew.

  Every layer that is used overwrites `ret`, so that only the last of them decides what
  is returned, and a layer that fails takes its entry out of the texture list.  A
  success means something only if every layer that is used was imported.
-/
import DragonDevice.Hwc.GlWorker
import DragonDevice.Hwc.SeparateLayers
import Mathlib.Algebra.Field.Rat

set_option autoImplicit false

namespace DragonDevice.Hwc

open DragonDevice.Lib

variable {F : Type}

theorem ealready_ne_zero : -ealready ≠ 0 := by decide

/-! ## Importing the layers -/

section Import

variable {used : Nat → Bool} {outcomes : GlOutcomes}

/-- The state of the loop over the layers after `n` of them. -/
def importUpTo (used : Nat → Bool) (outcomes : GlOutcomes) (n : Nat) : Int × List (Option Nat) :=
  (List.range n).foldl (importLayer used outcomes) (0, [])

theorem importUpTo_succ (n : Nat) :
    importUpTo used outcomes (n + 1) =
      importLayer used outcomes (importUpTo used outcomes n) n := by
  rw [importUpTo, List.range_succ, List.foldl_append]
  rfl

/-- One layer: what it does to the status and to the textures. -/
theorem importLayer_cases (s : Int × List (Option Nat)) (i : Nat) :
    (used i = false ∧ importLayer used outcomes s i = (s.1, s.2 ++ [none])) ∨
    (used i = true ∧ outcomes.status i ≠ 0 ∧ importLayer used outcomes s i = (-einval, s.2)) ∨
    (used i = true ∧ outcomes.status i = 0 ∧
      importLayer used outcomes s i = (0, s.2 ++ [some i])) := by
  unfold importLayer
  cases hused : used i with
  | false => exact Or.inl ⟨rfl, if_pos rfl⟩
  | true =>
      by_cases hstatus : outcomes.status i ≠ 0
      · exact Or.inr (Or.inl ⟨rfl, hstatus, by simp [hstatus]⟩)
      · exact Or.inr (Or.inr ⟨rfl, not_not.mp hstatus, by simp [not_not.mp hstatus]⟩)

/-- The last layer that is used among the first `n` fails. -/
def LastFails (used : Nat → Bool) (outcomes : GlOutcomes) (n : Nat) : Prop :=
  ∃ i, i < n ∧ used i = true ∧ outcomes.status i ≠ 0 ∧ ∀ j, j < n → used j = true → j ≤ i

/-- The status is that of the last layer. -/
theorem importUpTo_ret (n : Nat) :
    (importUpTo used outcomes n).1 ≠ 0 ↔ LastFails used outcomes n := by
  induction n with
  | zero =>
      refine iff_of_false (fun h => h rfl) fun h => ?_
      obtain ⟨i, hi, _⟩ := h
      omega
  | succ n ih =>
      rw [importUpTo_succ]
      obtain ⟨hused, heq⟩ | ⟨hused, hfails, heq⟩ | ⟨hused, hok, heq⟩ :=
        @importLayer_cases used outcomes (importUpTo used outcomes n) n
      · rw [heq]
        refine ih.trans ⟨fun h => ?_, fun h => ?_⟩
        · obtain ⟨i, hi, hui, hsi, hlast⟩ := h
          refine ⟨i, by omega, hui, hsi, fun j hj huj => ?_⟩
          have hne : j ≠ n := fun hjn => by rw [hjn, hused] at huj; cases huj
          exact hlast j (by omega) huj
        · obtain ⟨i, hi, hui, hsi, hlast⟩ := h
          have hne : i ≠ n := fun hin => by rw [hin, hused] at hui; cases hui
          exact ⟨i, by omega, hui, hsi, fun j hj huj => hlast j (by omega) huj⟩
      · rw [heq]
        refine iff_of_true einval_ne_zero ⟨n, Nat.lt_succ_self n, hused, hfails, ?_⟩
        exact fun j hj _ => Nat.le_of_lt_succ hj
      · rw [heq]
        refine iff_of_false (fun h => h rfl) fun h => ?_
        obtain ⟨i, hi, _, hsi, hlast⟩ := h
        have hin : i = n := Nat.le_antisymm (Nat.le_of_lt_succ hi)
          (hlast n (Nat.lt_succ_self n) hused)
        rw [hin] at hsi
        exact hsi hok

/-- A texture in the list is that of a layer that is used and succeeded. -/
theorem mem_importUpTo {n i : Nat} : some i ∈ (importUpTo used outcomes n).2 ↔
    i < n ∧ used i = true ∧ outcomes.status i = 0 := by
  induction n with
  | zero => simp [importUpTo]
  | succ n ih =>
      have hsplit : i < n + 1 ↔ i < n ∨ i = n := by omega
      rw [importUpTo_succ, hsplit, or_and_right, ← ih]
      obtain ⟨hused, heq⟩ | ⟨hused, hfails, heq⟩ | ⟨hused, hok, heq⟩ :=
        @importLayer_cases used outcomes (importUpTo used outcomes n) n
      · rw [heq]
        simp only [List.mem_append, List.mem_singleton, reduceCtorEq, or_false]
        refine (or_iff_left fun h => ?_).symm
        rw [h.1, hused] at h
        cases h.2.1
      · rw [heq]
        refine (or_iff_left fun h => ?_).symm
        rw [h.1] at h
        exact hfails h.2.2
      · rw [heq]
        simp only [List.mem_append, List.mem_singleton, Option.some.injEq]
        refine or_congr_right ⟨fun h => ?_, fun h => h.1⟩
        rw [h]
        exact ⟨rfl, hused, hok⟩

/-- As long as no layer fails, each has its own place. -/
theorem importUpTo_textures {n : Nat}
    (hok : ∀ i, i < n → used i = true → outcomes.status i = 0) :
    (importUpTo used outcomes n).2 =
      (List.range n).map fun i => if used i then some i else none := by
  induction n with
  | zero => rfl
  | succ n ih =>
      rw [importUpTo_succ, List.range_succ, List.map_append,
        ← ih fun i hi => hok i (Nat.lt_succ_of_lt hi)]
      obtain ⟨hused, heq⟩ | ⟨hused, hfails, heq⟩ | ⟨hused, _, heq⟩ :=
        @importLayer_cases used outcomes (importUpTo used outcomes n) n
      · rw [heq]
        simp [hused]
      · exact absurd (hok n (Nat.lt_succ_self n) hused) hfails
      · rw [heq]
        simp [hused]

theorem importLayers_ret :
    (importLayers used outcomes).1 ≠ 0 ↔ LastFails used outcomes maxOverlappingLayers :=
  importUpTo_ret maxOverlappingLayers

theorem mem_importLayers {i : Nat} : some i ∈ (importLayers used outcomes).2 ↔
    i < maxOverlappingLayers ∧ used i = true ∧ outcomes.status i = 0 :=
  mem_importUpTo

end Import

/-! ## The sources of a command -/

/-- The layers of a region that are sampled: down to the first one that is opaque. -/
def sampledLayers (layers : List (GlLayer F)) : List Nat → List Nat
  | [] => []
  | i :: rest =>
      if (layers[i]?).any (·.blending = .none) then [i] else i :: sampledLayers layers rest

theorem sampledLayers_subset (layers : List (GlLayer F)) (l : List Nat) :
    sampledLayers layers l ⊆ l := by
  induction l with
  | nil => exact fun _ hi => hi
  | cons i rest ih =>
      unfold sampledLayers
      split
      · exact fun j hj => by rw [List.mem_singleton.mp hj]; exact List.mem_cons_self
      · exact List.cons_subset_cons i ih

theorem textureSources_spec [Field F] {layers : List (GlLayer F)} {bounds : Rect F} :
    ∀ {l : List Nat} {count : Nat}, (∀ i ∈ l, i < layers.length) → count ≤ maxOverlappingLayers →
      (∃ srcs, textureSources layers bounds l count = some srcs ∧
        srcs.map (·.textureIndex) = sampledLayers layers l ∧
        count + (sampledLayers layers l).length ≤ maxOverlappingLayers) ∨
      textureSources layers bounds l count = none ∧
        maxOverlappingLayers < count + (sampledLayers layers l).length := by
  intro l
  induction l with
  | nil => exact fun _ hcount => Or.inl ⟨[], rfl, rfl, hcount⟩
  | cons i rest ih =>
      intro count hrange hcount
      have hi := hrange i List.mem_cons_self
      have hlayer := List.getElem?_eq_getElem hi
      unfold textureSources sampledLayers
      rw [hlayer, Option.bind_eq_bind, Option.bind_some, Option.any_some]
      by_cases hfull : maxOverlappingLayers ≤ count
      · rw [if_pos hfull]
        refine Or.inr ⟨rfl, ?_⟩
        split
        · rw [List.length_singleton]
          omega
        · rw [List.length_cons]
          omega
      · rw [if_neg hfull]
        by_cases hopaque : layers[i].blending = .none
        · rw [if_pos hopaque, if_pos (decide_eq_true hopaque)]
          refine Or.inl ⟨_, rfl, rfl, ?_⟩
          rw [List.length_singleton]
          omega
        · rw [if_neg hopaque, if_neg (by simpa using hopaque), List.length_cons]
          have hrest := @ih (count + 1) (fun j hj => hrange j (List.mem_cons_of_mem i hj))
            (by omega)
          obtain ⟨srcs, hsrcs, hindices, hle⟩ | ⟨hnone, hlt⟩ := hrest
          · refine Or.inl ⟨_, by rw [hsrcs]; rfl, ?_, by omega⟩
            rw [List.map_cons, hindices]
            rfl
          · exact Or.inr ⟨by rw [hnone]; rfl, by omega⟩

/-! ## The commands of a composition -/

/-- The source layers of every region are layers of the list. -/
def SourcesInRange (layers : List (GlLayer F)) (regions : List DrmCompositionRegion) : Prop :=
  ∀ region ∈ regions, ∀ i ∈ region.sourceLayers, i < layers.length

/-- No region samples more layers than a command has room for. -/
def CommandsFit (layers : List (GlLayer F)) (regions : List DrmCompositionRegion) : Prop :=
  ∀ region ∈ regions,
    (sampledLayers layers region.sourceLayers).length ≤ maxOverlappingLayers

section Commands

variable [Field F] {layers : List (GlLayer F)} {region : DrmCompositionRegion}
  {cmd : RenderingCommand F}

theorem constructCommand_fits (hrange : ∀ i ∈ region.sourceLayers, i < layers.length) :
    (∃ cmd : RenderingCommand F, constructCommand layers region = some cmd) ↔
      (sampledLayers layers region.sourceLayers).length ≤ maxOverlappingLayers := by
  unfold constructCommand
  obtain ⟨srcs, hsrcs, _, hle⟩ | ⟨hnone, hlt⟩ :=
    @textureSources_spec F _ layers region.frame.toFloat _ 0 hrange (Nat.zero_le _)
  · rw [hsrcs, Option.map_some]
    exact iff_of_true ⟨_, rfl⟩ (by omega)
  · rw [hnone, Option.map_none]
    exact iff_of_false (fun h => by obtain ⟨_, h⟩ := h; cases h) (by omega)

/-- The sources of a command are layers of its region. -/
theorem constructCommand_sources (hrange : ∀ i ∈ region.sourceLayers, i < layers.length)
    (h : constructCommand layers region = some cmd) :
    ∀ src ∈ cmd.textures, src.textureIndex ∈ region.sourceLayers := by
  unfold constructCommand at h
  obtain ⟨srcs, hsrcs, rfl⟩ := Option.map_eq_some_iff.mp h
  obtain ⟨_, hsrcs', hindices, _⟩ | ⟨hnone, _⟩ :=
    @textureSources_spec F _ layers region.frame.toFloat _ 0 hrange (Nat.zero_le _)
  · rw [hsrcs] at hsrcs'
    cases hsrcs'
    intro src hsrc
    apply sampledLayers_subset layers
    rw [← hindices]
    exact List.mem_map_of_mem hsrc
  · rw [hsrcs] at hnone
    cases hnone

end Commands

/-! ## Drawing -/

/-- A command drawn with, for each of its sources, the texture of the layer of that index. -/
def RenderingCommand.drawnAs (cmd : RenderingCommand F) : DrawnCommand F :=
  ⟨cmd.bounds, cmd.textures.map fun src => (src, some src.textureIndex)⟩

/-- Where each source has its texture in its place, a command is drawn with these, if at all. -/
theorem drawCommand_spec {program : Nat → Bool} {layerTextures : List (Option Nat)}
    {cmd : RenderingCommand F}
    (h : ∀ src ∈ cmd.textures, layerTextures[src.textureIndex]? = some (some src.textureIndex)) :
    ∃ ds, drawCommand program layerTextures cmd = some ds ∧ ∀ d ∈ ds, d = cmd.drawnAs := by
  have hbind : cmd.textures.mapM (fun src =>
      (layerTextures[src.textureIndex]?).map fun texture => (src, texture)) =
        some (cmd.textures.map fun src => (src, some src.textureIndex)) := by
    refine mapM_eq_map fun src hsrc => ?_
    rw [h src hsrc, Option.map_some]
  unfold drawCommand
  rw [hbind]
  split
  · exact ⟨[], rfl, fun d hd => absurd hd List.not_mem_nil⟩
  · split
    · exact ⟨[], rfl, fun d hd => absurd hd List.not_mem_nil⟩
    · exact ⟨[cmd.drawnAs], rfl, fun d hd => List.mem_singleton.mp hd⟩

/-! ## What a success says -/

section Honest

variable [Field F]

/-- The composition has a result, and if it returns 0, then every layer that a region uses was
imported and its fence waited for, and what is drawn for a region samples the textures of its
own layers. -/
def CompositesHonestly (layers : List (GlLayer F)) (regions : List DrmCompositionRegion)
    (outcomes : GlOutcomes) : Prop :=
  ∃ result, glComposite layers regions outcomes = some result ∧
    (result.ret = 0 →
      (∀ i, layersUsed regions i = true →
        outcomes.createTexture i = 0 ∧ outcomes.fenceWait i = 0 ∧
        some i ∈ result.layerTextures) ∧
      ∀ d ∈ result.drawn, ∃ region ∈ regions, ∃ cmd,
        constructCommand layers region = some cmd ∧ d = cmd.drawnAs)

/-- Every layer that is used is one the loop visits, and it succeeds. -/
def AllImported (used : Nat → Bool) (outcomes : GlOutcomes) : Prop :=
  ∀ i, used i = true → i < maxOverlappingLayers ∧ outcomes.status i = 0

theorem status_eq_zero {outcomes : GlOutcomes} {i : Nat} :
    outcomes.status i = 0 ↔ outcomes.createTexture i = 0 ∧ outcomes.fenceWait i = 0 := by
  unfold GlOutcomes.status
  split
  · exact iff_of_false (by assumption) fun h => by simp_all
  · rename_i h
    rw [not_not.mp h]
    exact (and_iff_right rfl).symm

theorem AllImported.not_lastFails {used : Nat → Bool} {outcomes : GlOutcomes}
    (h : AllImported used outcomes) : ¬ LastFails used outcomes maxOverlappingLayers :=
  fun ⟨i, _, hused, hfails, _⟩ => hfails (h i hused).2

/-- With all layers imported, each is in its place of the list. -/
theorem AllImported.getElem? {used : Nat → Bool} {outcomes : GlOutcomes}
    (h : AllImported used outcomes) {i : Nat} (hused : used i = true) :
    (importLayers used outcomes).2[i]? = some (some i) := by
  have htextures := @importUpTo_textures used outcomes maxOverlappingLayers fun i _ hi => (h i hi).2
  rw [importUpTo, ← importLayers] at htextures
  rw [htextures, List.getElem?_map, List.getElem?_range (h i hused).1, Option.map_some,
    if_pos hused]

theorem layersUsed_iff {regions : List DrmCompositionRegion} {i : Nat} :
    layersUsed regions i = true ↔ ∃ region ∈ regions, i ∈ region.sourceLayers := by
  simp [layersUsed]

variable {layers : List (GlLayer F)} {regions : List DrmCompositionRegion}
  {outcomes : GlOutcomes}

/-- A composition with regions and a framebuffer, once its commands are constructed. -/
theorem glComposite_eq (hregions : regions ≠ []) (hfb : outcomes.framebuffer = true)
    {commands : List (RenderingCommand F)}
    (hcommands : regions.mapM (constructCommand layers) = some commands) {ret : Int}
    {layerTextures : List (Option Nat)}
    (himport : importLayers (layersUsed regions) outcomes = (ret, layerTextures)) :
    glComposite layers regions outcomes =
      if ret ≠ 0 then some ⟨ret, layerTextures, []⟩
      else (commands.mapM (drawCommand outcomes.program layerTextures)).map fun drawn =>
        ⟨ret, layerTextures, drawn.flatten⟩ := by
  unfold glComposite
  rw [if_neg hregions, hfb, if_neg (by simp), hcommands, himport, Option.bind_eq_bind,
    Option.bind_some, Option.map_eq_bind]
  rfl

/-- A failure of the last layer is returned. -/
theorem compositesHonestly_of_lastFails (hregions : regions ≠ [])
    (hfb : outcomes.framebuffer = true) {commands : List (RenderingCommand F)}
    (hcommands : regions.mapM (constructCommand layers) = some commands)
    (hfails : LastFails (layersUsed regions) outcomes maxOverlappingLayers) :
    CompositesHonestly layers regions outcomes := by
  have hret := importLayers_ret.mpr hfails
  refine ⟨_, (glComposite_eq hregions hfb hcommands Prod.mk.eta.symm).trans (if_pos hret),
    fun h => ?_⟩
  exact absurd h hret

/-- With all layers imported, everything that is drawn samples its own layers. -/
theorem compositesHonestly_of_allImported (hregions : regions ≠ [])
    (hfb : outcomes.framebuffer = true) (hrange : SourcesInRange layers regions)
    {commands : List (RenderingCommand F)}
    (hcommands : regions.mapM (constructCommand layers) = some commands)
    (hall : AllImported (layersUsed regions) outcomes) :
    CompositesHonestly layers regions outcomes := by
  have hret := mt importLayers_ret.mp hall.not_lastFails
  have hcommand : ∀ cmd ∈ commands, ∃ ds,
      drawCommand outcomes.program (importLayers (layersUsed regions) outcomes).2 cmd = some ds ∧
      ∀ d ∈ ds, d = cmd.drawnAs := by
    intro cmd hcmd
    obtain ⟨region, hregion, hconstruct⟩ := (mapM_some_mem hcommands).2 cmd hcmd
    refine drawCommand_spec fun src hsrc => hall.getElem? (layersUsed_iff.mpr ?_)
    exact ⟨region, hregion, constructCommand_sources (hrange region hregion) hconstruct src hsrc⟩
  obtain ⟨drawn, hdrawn⟩ := exists_mapM fun cmd hcmd =>
    (hcommand cmd hcmd).imp fun _ hds => hds.1
  refine ⟨_, (glComposite_eq hregions hfb hcommands Prod.mk.eta.symm).trans
    ((if_neg hret).trans (by rw [hdrawn, Option.map_some])), fun _ => ⟨fun i hi => ?_, ?_⟩⟩
  · obtain ⟨htexture, hfence⟩ := status_eq_zero.mp (hall i hi).2
    exact ⟨htexture, hfence, List.mem_of_getElem? (hall.getElem? hi)⟩
  · intro d hd
    obtain ⟨ds, hds, hmem⟩ := List.mem_flatten.mp hd
    obtain ⟨cmd, hcmd, hdraw⟩ := (mapM_some_mem hdrawn).2 ds hds
    obtain ⟨ds', hdraw', hsame⟩ := hcommand cmd hcmd
    rw [hdraw] at hdraw'
    cases hdraw'
    obtain ⟨region, hregion, hconstruct⟩ := (mapM_some_mem hcommands).2 cmd hcmd
    exact ⟨region, hregion, cmd, hconstruct, hsame d hmem⟩

/-- What an honest composition with regions and a framebuffer tells. -/
theorem CompositesHonestly.fits_and_imported (h : CompositesHonestly layers regions outcomes)
    (hregions : regions ≠ []) (hfb : outcomes.framebuffer = true)
    (hrange : SourcesInRange layers regions) :
    CommandsFit layers regions ∧
      (LastFails (layersUsed regions) outcomes maxOverlappingLayers ∨
        AllImported (layersUsed regions) outcomes) := by
  obtain ⟨result, hresult, hhonest⟩ := h
  cases hcommands : regions.mapM (constructCommand layers) with
  | none =>
      unfold glComposite at hresult
      rw [if_neg hregions, hfb, if_neg (by simp), hcommands] at hresult
      cases hresult
  | some commands =>
      refine ⟨fun region hregion => ?_, ?_⟩
      · obtain ⟨cmd, _, hcmd⟩ := (mapM_some_mem hcommands).1 region hregion
        exact (constructCommand_fits (hrange region hregion)).mp ⟨cmd, hcmd⟩
      · rw [glComposite_eq hregions hfb hcommands Prod.mk.eta.symm] at hresult
        by_cases hret : (importLayers (layersUsed regions) outcomes).1 ≠ 0
        · exact Or.inl (importLayers_ret.mp hret)
        · rw [if_neg hret] at hresult
          obtain ⟨drawn, _, rfl⟩ := Option.map_eq_some_iff.mp hresult
          refine Or.inr fun i hi => ?_
          obtain ⟨hlt, _, hstatus⟩ :=
            mem_importLayers.mp ((hhonest (not_not.mp hret)).1 i hi).2.2
          exact ⟨hlt, hstatus⟩

/-- A composition is honest exactly when it ends before its layers, or when its commands have
room for their sources and either the last layer fails, so that the failure is returned, or
none does. -/
theorem glComposite_honest_iff (hrange : SourcesInRange layers regions) :
    CompositesHonestly layers regions outcomes ↔
      regions = [] ∨ outcomes.framebuffer = false ∨
      CommandsFit layers regions ∧
        (LastFails (layersUsed regions) outcomes maxOverlappingLayers ∨
          AllImported (layersUsed regions) outcomes) := by
  by_cases hregions : regions = []
  · refine iff_of_true ⟨_, if_pos hregions, fun h => ?_⟩ (Or.inl hregions)
    exact absurd h ealready_ne_zero
  cases hfb : outcomes.framebuffer with
  | false =>
      refine iff_of_true ⟨_, (if_neg hregions).trans (if_pos hfb), fun h => ?_⟩ (by simp)
      exact absurd h einval_ne_zero
  | true =>
      simp only [hregions, false_or, reduceCtorEq]
      refine ⟨fun h => ?_, fun h => ?_⟩
      · exact h.fits_and_imported hregions hfb hrange
      · obtain ⟨hfit, h⟩ := h
        obtain ⟨commands, hcommands⟩ := exists_mapM fun region hregion =>
          (constructCommand_fits (hrange region hregion)).mpr (hfit region hregion)
        cases h with
        | inl hfails => exact compositesHonestly_of_lastFails hregions hfb hcommands hfails
        | inr hall => exact compositesHonestly_of_allImported hregions hfb hrange hcommands hall

end Honest

/-! ## Two layers that are blended -/

/-- A layer that covers four by four pixels. -/
def blendedLayer (sfHandle : Nat) : GlLayer Rat :=
  { sfHandle, grallocBufferUsage := 0#32, format := .abgr8888, transform := 0#32
    blending := .preMult, sourceCrop := ⟨0, 0, 4, 4⟩, displayFrame := ⟨0, 0, 4, 4⟩
    bufferWidth := 4, bufferHeight := 4, alpha := 255 }

/-- A region that blends the layer 1 over the layer 0. -/
def blendedRegion : DrmCompositionRegion := ⟨⟨0, 0, 4, 4⟩, [1, 0]⟩

/-- Every call succeeds, except for the fence of the layers in `failed`. -/
def fencesFail (failed : List Nat) : GlOutcomes :=
  { framebuffer := true, createTexture := fun _ => 0
    fenceWait := fun i => if i ∈ failed then -einval else 0, program := fun _ => true }

theorem blended_sourcesInRange :
    SourcesInRange [blendedLayer 1, blendedLayer 2] [blendedRegion] := by
  intro region hregion i hi
  rw [List.mem_singleton.mp hregion] at hi
  simp only [blendedRegion, List.mem_cons, List.not_mem_nil, or_false] at hi
  simp only [List.length_cons, List.length_nil]
  omega

/-- The fence of the layer 0 fails and the layer 1 succeeds: the composition returns 0, and the
texture that is bound for the layer 0 is that of the layer 1. -/
theorem not_compositesHonestly_firstFails :
    ¬ CompositesHonestly [blendedLayer 1, blendedLayer 2] [blendedRegion] (fencesFail [0]) := by
  intro h
  obtain ⟨_, hfails | hall⟩ := h.fits_and_imported (by simp) rfl blended_sourcesInRange
  · obtain ⟨i, hi, _, hstatus, hlast⟩ := hfails
    have hle : 1 ≤ i := hlast 1 (by decide) (by decide)
    have hok : (fencesFail [0]).status i = 0 := by
      have hne : i ≠ 0 := by omega
      simp [fencesFail, GlOutcomes.status, hne]
    exact hstatus hok
  · exact absurd (hall 0 (by decide)).2 (by decide)

theorem blended_composites_honestly :
    SourcesInRange [blendedLayer 1, blendedLayer 2] [blendedRegion] ∧
    CompositesHonestly [blendedLayer 1, blendedLayer 2] [blendedRegion] (fencesFail []) := by
  refine ⟨blended_sourcesInRange, (glComposite_honest_iff blended_sourcesInRange).mpr ?_⟩
  refine Or.inr (Or.inr ⟨fun region hregion => ?_, Or.inr fun i hi => ?_⟩)
  · rw [List.mem_singleton.mp hregion]
    decide
  · have hi : i = 1 ∨ i = 0 := by
      simpa [layersUsed, blendedRegion] using hi
    refine ⟨?_, by simp [fencesFail, GlOutcomes.status]⟩
    rw [maxOverlappingLayers]
    omega

end DragonDevice.Hwc
