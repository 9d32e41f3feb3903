/-
  Hwc/PlanDraft.lean --- a composition under construction, and what its stages do.

  While the stages run, the composition is a list of planes with one layer each,
  followed by at most one precomp plane.  A `Draft` has this form by construction,
  and each helper of the planner is an operation on drafts.  A stage takes layers
  out of the map one by one; `Takes` says what taking one layer can do, and
  everything about whole stages follows from it by induction.
-/
import DragonDevice.Hwc.Planner
import Mathlib.Data.List.Perm.Subperm

set_option autoImplicit false

namespace DragonDevice.Hwc

open DragonDevice.Lib

variable {F : Type}

/-! ## Drafts -/

/-- A composition in the making, with the planes that are left. -/
structure Draft where
  dedicated : List (DrmPlane × Nat)
  precomp : Option (DrmPlane × List Nat)
  planes : List DrmPlane
  deriving DecidableEq, Repr

def layerPlane (crtc : DrmCrtc) (p : DrmPlane × Nat) : DrmCompositionPlane :=
  ⟨.layer, p.1, some crtc, [p.2]⟩

def precompPlane (crtc : DrmCrtc) (p : DrmPlane × List Nat) : DrmCompositionPlane :=
  ⟨.precomp, p.1, some crtc, p.2⟩

namespace Draft

def composition (crtc : DrmCrtc) (d : Draft) : List DrmCompositionPlane :=
  d.dedicated.map (layerPlane crtc) ++ d.precomp.toList.map (precompPlane crtc)

def provision (crtc : DrmCrtc) (d : Draft) : Provision := ⟨d.composition crtc, d.planes⟩

/-- Put a layer in the precomposition. -/
def precompose (d : Draft) (i : Nat) : Draft :=
  match d.precomp with
  | some (plane, indices) => { d with precomp := some (plane, indices ++ [i]) }
  | none =>
      match d.planes.getLast? with
      | some plane => { d with precomp := some (plane, [i]), planes := d.planes.dropLast }
      | none => d

/-- Give a layer the next plane. -/
def dedicate (d : Draft) (i : Nat) : Option Draft :=
  match d.planes with
  | [] => none
  | plane :: planes => some { d with dedicated := d.dedicated ++ [(plane, i)], planes }

/-- Give a layer a primary plane, below all others. -/
def dedicateFirst (d : Draft) (i : Nat) : Option Draft :=
  match takePrimary d.planes with
  | none => none
  | some (plane, planes) => some { d with dedicated := (plane, i) :: d.dedicated, planes }

/-- The layers that have been given a plane of their own. -/
def dedicatedIndices (d : Draft) : List Nat := d.dedicated.map (·.2)

/-- The layers of the precomposition. -/
def precompIndices (d : Draft) : List Nat := (d.precomp.map (·.2)).getD []

def indices (d : Draft) : List Nat := d.dedicatedIndices ++ d.precompIndices

/-- Every plane of the draft, in use or not. -/
def allPlanes (d : Draft) : List DrmPlane :=
  d.dedicated.map (·.1) ++ (d.precomp.map (·.1)).toList ++ d.planes

/-- `n` layers can still be placed: there is a precomposition for them, or a plane for
each. -/
def Room (d : Draft) (n : Nat) : Prop := d.precomp.isSome = true ∨ n ≤ d.planes.length

end Draft

/-! ## The helpers on drafts -/

variable {crtc : DrmCrtc} {d d' : Draft}

theorem getPrecomp_append_layers (l : List (DrmPlane × Nat)) (rest : List DrmCompositionPlane) :
    getPrecomp (l.map (layerPlane crtc) ++ rest) = getPrecomp rest := by
  induction l with
  | nil => rfl
  | cons p l ih => exact ih

theorem pushPrecomp_append_layers (i : Nat) (l : List (DrmPlane × Nat))
    (rest : List DrmCompositionPlane) :
    pushPrecomp i (l.map (layerPlane crtc) ++ rest) =
      l.map (layerPlane crtc) ++ pushPrecomp i rest := by
  induction l with
  | nil => rfl
  | cons p l ih =>
      rw [List.map_cons, List.cons_append, pushPrecomp, ih]
      rfl

theorem insertBeforePrecomp_append_layers (q : DrmCompositionPlane)
    (l : List (DrmPlane × Nat)) (rest : List DrmCompositionPlane) :
    insertBeforePrecomp q (l.map (layerPlane crtc) ++ rest) =
      l.map (layerPlane crtc) ++ insertBeforePrecomp q rest := by
  induction l with
  | nil => rfl
  | cons p l ih =>
      rw [List.map_cons, List.cons_append, insertBeforePrecomp, ih]
      rfl

theorem getPrecomp_composition (crtc : DrmCrtc) (d : Draft) :
    getPrecomp (d.composition crtc) = d.precomp.map (precompPlane crtc) := by
  rw [Draft.composition, getPrecomp_append_layers]
  cases d.precomp with
  | none => rfl
  | some p => rfl

theorem precompose_provision (crtc : DrmCrtc) (d : Draft) (i : Nat) :
    precompose crtc (d.provision crtc) i = (d.precompose i).provision crtc := by
  obtain ⟨dedicated, precomp, planes⟩ := d
  cases precomp with
  | some p =>
      have hpush : pushPrecomp i (Draft.composition crtc ⟨dedicated, some p, planes⟩) =
          Draft.composition crtc ⟨dedicated, some (p.1, p.2 ++ [i]), planes⟩ := by
        rw [Draft.composition, pushPrecomp_append_layers]
        rfl
      simp only [precompose, Draft.provision, getPrecomp_composition, Option.map_some, hpush,
        Draft.precompose]
  | none =>
      simp only [precompose, Draft.provision, getPrecomp_composition, Option.map_none,
        Draft.precompose]
      cases planes.getLast? with
      | none => rfl
      | some plane =>
          simp only [Draft.composition, Option.toList_none, Option.toList_some, List.map_nil,
            List.append_nil, List.map_cons]
          rfl

theorem isSome_precompose {d : Draft} (h : d.precomp.isSome = true) {i : Nat} :
    (d.precompose i).precomp.isSome = true := by
  rw [Draft.precompose]
  split
  · rfl
  · rename_i hnone
    rw [hnone] at h
    cases h

/-- Pushing onto a precomp plane that is there. -/
theorem pushPrecomp_provision (crtc : DrmCrtc) {d : Draft} (h : d.precomp.isSome = true)
    (i : Nat) :
    { d.provision crtc with composition := pushPrecomp i (d.provision crtc).composition } =
      (d.precompose i).provision crtc := by
  rw [← precompose_provision, precompose]
  have hprecomp : getPrecomp (d.provision crtc).composition =
      d.precomp.map (precompPlane crtc) := getPrecomp_composition crtc d
  rw [hprecomp]
  cases hp : d.precomp with
  | none =>
      rw [hp] at h
      cases h
  | some p => rfl

theorem emplace_provision (crtc : DrmCrtc) (d : Draft) (i : Nat) :
    emplace crtc (d.provision crtc) i = (d.dedicate i).map (Draft.provision crtc) := by
  obtain ⟨dedicated, precomp, planes⟩ := d
  cases planes with
  | nil => rfl
  | cons plane planes =>
      have hinsert : insertBeforePrecomp (layerPlane crtc (plane, i))
          (Draft.composition crtc ⟨dedicated, precomp, plane :: planes⟩) =
          Draft.composition crtc ⟨dedicated ++ [(plane, i)], precomp, planes⟩ := by
        simp only [Draft.composition, insertBeforePrecomp_append_layers, List.map_append,
          List.append_assoc]
        cases precomp with
        | none => rfl
        | some p => rfl
      exact congrArg (fun c => some (Provision.mk c planes)) hinsert

theorem placeRotated_provision (crtc : DrmCrtc) (d : Draft) (z : Int) (i : Nat) :
    placeRotated crtc (d.provision crtc, z) i =
      match d.dedicateFirst i with
      | some d' => (d'.provision crtc, intOfSizeT i)
      | none => (d.provision crtc, z) := by
  rw [placeRotated, Draft.dedicateFirst]
  dsimp only [Draft.provision]
  cases takePrimary d.planes with
  | none => rfl
  | some p => rfl

/-! ## Taking one layer out of the map -/

/-- What any stage does with a layer `e` it takes out: planes are only moved, no index
but that of `e` is added, and an unprotected layer finds its place where there is
room. -/
structure Takes (e : Nat × DrmHwcLayer F) (d d' : Draft) : Prop where
  planes : d'.allPlanes.Perm d.allPlanes
  indices : d'.indices.Subperm (e.1 :: d.indices)
  dedicated : d.dedicatedIndices ⊆ d'.dedicatedIndices
  precomp : d.precompIndices ⊆ d'.precompIndices
  room : ∀ n, d.Room (n + 1) → d'.Room n
  placed : e.2.protectedUsage = false → d.Room 1 → e.1 ∈ d'.indices

theorem Draft.Room.mono {n m : Nat} (h : d.Room m) (hle : n ≤ m) : d.Room n := by
  cases h with
  | inl hsome => exact Or.inl hsome
  | inr hlen => exact Or.inr (Nat.le_trans hle hlen)

theorem perm_dropLast {l : List DrmPlane} {p : DrmPlane} (h : l.getLast? = some p) :
    (p :: l.dropLast).Perm l := by
  have hl : l = l.dropLast ++ [p] := (List.dropLast_append_getLast? p h).symm
  calc (p :: l.dropLast).Perm (l.dropLast ++ [p]) := (List.perm_append_singleton p _).symm
    _ = l := hl.symm

theorem takes_precompose (e : Nat × DrmHwcLayer F) (d : Draft) : Takes e d (d.precompose e.1) := by
  obtain ⟨dedicated, precomp, planes⟩ := d
  cases precomp with
  | some p =>
      refine ⟨List.Perm.refl _, ?_, List.Subset.refl _, ?_, fun n _ => Or.inl rfl, fun _ _ => ?_⟩
      · refine List.Perm.subperm ?_
        show (dedicated.map (·.2) ++ (p.2 ++ [e.1])).Perm (e.1 :: (dedicated.map (·.2) ++ p.2))
        rw [← List.append_assoc]
        exact List.perm_append_singleton _ _
      · exact List.subset_append_left _ _
      · exact List.mem_append_right _ (List.mem_append_right _ (List.mem_singleton_self _))
  | none =>
      cases hlast : planes.getLast? with
      | none =>
          have hnil : planes = [] := List.getLast?_eq_none_iff.mp hlast
          have hsame : Draft.precompose ⟨dedicated, none, planes⟩ e.1 =
              ⟨dedicated, none, planes⟩ := by
            simp only [Draft.precompose, hlast]
          rw [hsame]
          refine ⟨List.Perm.refl _, (List.sublist_cons_self _ _).subperm, List.Subset.refl _,
            List.Subset.refl _, fun n h => h.mono (Nat.le_succ n), fun _ h => ?_⟩
          cases h with
          | inl hsome => cases hsome
          | inr hlen =>
              rw [hnil] at hlen
              exact absurd hlen (Nat.not_succ_le_zero 0)
      | some plane =>
          have hnew : Draft.precompose ⟨dedicated, none, planes⟩ e.1 =
              ⟨dedicated, some (plane, [e.1]), planes.dropLast⟩ := by
            simp only [Draft.precompose, hlast]
          rw [hnew]
          refine ⟨?_, ?_, List.Subset.refl _, List.nil_subset _, fun n _ => Or.inl rfl,
            fun _ _ => ?_⟩
          · show (dedicated.map (·.1) ++ [plane] ++ planes.dropLast).Perm
              (dedicated.map (·.1) ++ [] ++ planes)
            rw [List.append_nil, List.append_assoc]
            exact (perm_dropLast hlast).append_left _
          · refine List.Perm.subperm ?_
            show (dedicated.map (·.2) ++ [e.1]).Perm (e.1 :: (dedicated.map (·.2) ++ []))
            rw [List.append_nil]
            exact List.perm_append_singleton _ _
          · exact List.mem_append_right _ (List.mem_singleton_self _)

theorem takes_of_protected (e : Nat × DrmHwcLayer F) (d : Draft)
    (h : e.2.protectedUsage = true) : Takes e d d := by
  refine ⟨List.Perm.refl _, (List.sublist_cons_self _ _).subperm, List.Subset.refl _,
    List.Subset.refl _, fun n hroom => hroom.mono (Nat.le_succ n), fun hnot => ?_⟩
  rw [h] at hnot
  cases hnot

theorem takes_dedicate {e : Nat × DrmHwcLayer F} (h : d.dedicate e.1 = some d') :
    Takes e d d' := by
  obtain ⟨dedicated, precomp, planes⟩ := d
  cases planes with
  | nil => cases h
  | cons plane planes =>
      cases h
      refine ⟨?_, ?_, ?_, List.Subset.refl _, ?_, fun _ _ => ?_⟩
      · simp only [Draft.allPlanes, List.map_append, List.map_cons, List.map_nil,
          List.append_assoc]
        refine List.Perm.append_left _ ?_
        simp only [List.singleton_append]
        exact List.perm_middle.symm
      · refine List.Perm.subperm ?_
        simp only [Draft.indices, Draft.dedicatedIndices, Draft.precompIndices, List.map_append,
          List.map_cons, List.map_nil, List.append_assoc]
        exact List.perm_middle
      · simp only [Draft.dedicatedIndices, List.map_append]
        exact List.subset_append_left _ _
      · intro n hroom
        cases hroom with
        | inl hsome => exact Or.inl hsome
        | inr hlen => exact Or.inr (Nat.le_of_succ_le_succ hlen)
      · simp [Draft.indices, Draft.dedicatedIndices]

/-- The first element with a property, and the list without it. -/
theorem find?_eraseP_perm {α : Type} (p : α → Bool) :
    ∀ l : List α, ((l.find? p).toList ++ l.eraseP p).Perm l := by
  intro l
  induction l with
  | nil => exact List.Perm.refl _
  | cons a l ih =>
      rw [List.find?_cons]
      cases ha : p a with
      | true =>
          rw [List.eraseP_cons_of_pos ha]
          exact List.Perm.refl _
      | false =>
          rw [List.eraseP_cons_of_neg (by simp [ha])]
          exact List.perm_middle.trans (ih.cons a)

theorem takePrimary_perm {planes rest : List DrmPlane} {plane : DrmPlane}
    (h : takePrimary planes = some (plane, rest)) : (plane :: rest).Perm planes := by
  have hperm := find?_eraseP_perm (·.isPrimary) planes
  unfold takePrimary at h
  cases hfind : planes.find? (·.isPrimary) with
  | none =>
      rw [hfind] at h
      cases h
  | some p =>
      rw [hfind] at h hperm
      cases h
      exact hperm

theorem countP_of_takePrimary_none {planes : List DrmPlane} (h : takePrimary planes = none) :
    planes.countP (·.isPrimary) = 0 := by
  rw [takePrimary] at h
  split at h
  · rename_i hfind
    rw [List.countP_eq_zero]
    exact List.find?_eq_none.mp hfind
  · cases h

theorem countP_of_takePrimary {planes rest : List DrmPlane} {plane : DrmPlane}
    (h : takePrimary planes = some (plane, rest)) :
    planes.countP (·.isPrimary) = rest.countP (·.isPrimary) + 1 := by
  have hprimary : plane.isPrimary = true := by
    rw [takePrimary] at h
    split at h
    · cases h
    · rename_i p hfind
      cases h
      exact List.find?_some hfind
  rw [← (takePrimary_perm h).countP_eq, List.countP_cons_of_pos hprimary]

theorem takes_dedicateFirst {e : Nat × DrmHwcLayer F} (h : d.dedicateFirst e.1 = some d') :
    Takes e d d' := by
  rw [Draft.dedicateFirst] at h
  cases htake : takePrimary d.planes with
  | none =>
      rw [htake] at h
      cases h
  | some p =>
      obtain ⟨plane, rest⟩ := p
      rw [htake] at h
      cases h
      have hperm := takePrimary_perm htake
      refine ⟨?_, ?_, ?_, List.Subset.refl _, ?_, fun _ _ => ?_⟩
      · simp only [Draft.allPlanes, List.map_cons, List.cons_append]
        exact List.perm_middle.symm.trans (hperm.append_left _)
      · exact List.Subperm.refl _
      · exact List.subset_cons_self _ _
      · intro n hroom
        cases hroom with
        | inl hsome => exact Or.inl hsome
        | inr hlen =>
            rw [← hperm.length_eq] at hlen
            exact Or.inr (Nat.le_of_succ_le_succ hlen)
      · exact List.mem_cons_self

/-! ## Whole stages -/

/-- Taking a list of layers out, one after the other. -/
structure TakesAll (l : List (Nat × DrmHwcLayer F)) (d d' : Draft) : Prop where
  planes : d'.allPlanes.Perm d.allPlanes
  indices : d'.indices.Subperm (l.map (·.1) ++ d.indices)
  dedicated : d.dedicatedIndices ⊆ d'.dedicatedIndices
  precomp : d.precompIndices ⊆ d'.precompIndices
  room : ∀ n, d.Room (n + l.length) → d'.Room n
  placed : d.Room l.length → ∀ e ∈ l, e.2.protectedUsage = false → e.1 ∈ d'.indices

theorem Draft.indices_subset (hded : d.dedicatedIndices ⊆ d'.dedicatedIndices)
    (hpre : d.precompIndices ⊆ d'.precompIndices) : d.indices ⊆ d'.indices := by
  intro i hi
  cases List.mem_append.mp hi with
  | inl h => exact List.mem_append_left _ (hded h)
  | inr h => exact List.mem_append_right _ (hpre h)

theorem TakesAll.nil (d : Draft) : TakesAll ([] : List (Nat × DrmHwcLayer F)) d d :=
  ⟨List.Perm.refl _, List.Subperm.refl _, List.Subset.refl _, List.Subset.refl _,
    fun _ h => h, fun _ _ he => nomatch he⟩

theorem TakesAll.cons {e : Nat × DrmHwcLayer F} {l : List (Nat × DrmHwcLayer F)}
    {d₁ d₂ d₃ : Draft} (h : Takes e d₁ d₂) (h' : TakesAll l d₂ d₃) :
    TakesAll (e :: l) d₁ d₃ := by
  refine ⟨h'.planes.trans h.planes, ?_, List.Subset.trans h.dedicated h'.dedicated,
    List.Subset.trans h.precomp h'.precomp, ?_, ?_⟩
  · have hperm : (l.map (·.1) ++ e.1 :: d₁.indices).Perm ((e :: l).map (·.1) ++ d₁.indices) :=
      List.perm_middle
    exact h'.indices.trans
      ((List.Subperm.append (List.Subperm.refl _) h.indices).trans hperm.subperm)
  · intro n hroom
    exact h'.room n (h.room _ hroom)
  · intro hroom a ha hplain
    cases List.mem_cons.mp ha with
    | inl heq =>
        rw [heq] at hplain ⊢
        exact Draft.indices_subset h'.dedicated h'.precomp
          (h.placed hplain (hroom.mono (Nat.succ_le_succ (Nat.zero_le _))))
    | inr hmem => exact h'.placed (h.room _ hroom) a hmem hplain

/-- The loop rule: a body that takes each layer takes them all. -/
theorem takesAll_foldl {body : Draft → Nat × DrmHwcLayer F → Draft} :
    ∀ (l : List (Nat × DrmHwcLayer F)) (d : Draft),
      (∀ e ∈ l, ∀ d, Takes e d (body d e)) → TakesAll l d (l.foldl body d) := by
  intro l
  induction l with
  | nil => intro d _; exact TakesAll.nil d
  | cons e l ih =>
      intro d hbody
      exact TakesAll.cons (hbody e List.mem_cons_self d)
        (ih _ fun a ha => hbody a (List.mem_cons_of_mem e ha))

/-- From `layers` and `d` a stage leads to `layers'` and `d'`: nothing is used twice,
and no unprotected layer is lost while there is room. -/
structure StageSpec (layers : LayerMap F) (d : Draft) (layers' : LayerMap F) (d' : Draft) :
    Prop where
  planes : d'.allPlanes.Perm d.allPlanes
  indices : (layers'.keys ++ d'.indices).Subperm (layers.keys ++ d.indices)
  dedicated : d.dedicatedIndices ⊆ d'.dedicatedIndices
  precomp : d.precompIndices ⊆ d'.precompIndices
  remaining : layers'.entries ⊆ layers.entries
  room : d.Room layers.entries.length → d'.Room layers'.entries.length
  placed : d.Room layers.entries.length → ∀ e ∈ layers.entries, e.2.protectedUsage = false →
    e.1 ∈ d'.indices ∨ e ∈ layers'.entries

theorem StageSpec.refl (layers : LayerMap F) (d : Draft) : StageSpec layers d layers d :=
  ⟨List.Perm.refl _, List.Subperm.refl _, List.Subset.refl _, List.Subset.refl _,
    List.Subset.refl _, fun h => h, fun _ _ he _ => Or.inr he⟩

theorem StageSpec.trans {layers₁ layers₂ layers₃ : LayerMap F} {d₁ d₂ d₃ : Draft}
    (h : StageSpec layers₁ d₁ layers₂ d₂) (h' : StageSpec layers₂ d₂ layers₃ d₃) :
    StageSpec layers₁ d₁ layers₃ d₃ := by
  refine ⟨h'.planes.trans h.planes, h'.indices.trans h.indices,
    List.Subset.trans h.dedicated h'.dedicated, List.Subset.trans h.precomp h'.precomp,
    List.Subset.trans h'.remaining h.remaining, fun hroom => h'.room (h.room hroom), ?_⟩
  intro hroom e he hplain
  cases h.placed hroom e he hplain with
  | inl hin => exact Or.inl (Draft.indices_subset h'.dedicated h'.precomp hin)
  | inr hleft => exact h'.placed (h.room hroom) e hleft hplain

/-- Taking out some of the layers and leaving the others is such a stage. -/
theorem stageSpec_of_perm {layers layers' : LayerMap F} {taken : List (Nat × DrmHwcLayer F)}
    (hperm : (taken ++ layers'.entries).Perm layers.entries) (h : TakesAll taken d d') :
    StageSpec layers d layers' d' := by
  have hlen := hperm.length_eq
  rw [List.length_append] at hlen
  refine ⟨h.planes, ?_, h.dedicated, h.precomp, ?_, ?_, ?_⟩
  · have hkeys : (layers'.keys ++ (taken.map (·.1) ++ d.indices)).Perm
        (layers.keys ++ d.indices) := by
      rw [OrderedMap.keys, OrderedMap.keys, ← List.append_assoc, ← List.map_append]
      exact ((List.perm_append_comm.trans hperm).map _).append_right _
    exact (List.Subperm.append (List.Subperm.refl _) h.indices).trans hkeys.subperm
  · intro e he
    exact hperm.subset (List.mem_append_right _ he)
  · intro hroom
    refine h.room _ ?_
    rw [Nat.add_comm, hlen]
    exact hroom
  · intro hroom e he hplain
    cases List.mem_append.mp (hperm.symm.subset he) with
    | inl htaken => exact Or.inl (h.placed (hroom.mono (by omega)) e htaken hplain)
    | inr hleft => exact Or.inr hleft

/-- A loop that takes out the selected layers is such a stage. -/
theorem stageSpec_of_filter {layers : LayerMap F} (selected : Nat × DrmHwcLayer F → Bool)
    (h : TakesAll (layers.entries.filter selected) d d') :
    StageSpec layers d (layers.filter fun e => !selected e) d' :=
  stageSpec_of_perm (List.filter_append_perm selected layers.entries) h

end DragonDevice.Hwc
