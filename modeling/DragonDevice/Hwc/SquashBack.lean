/-
  Hwc/SquashBack.lean --- when the layers that `SquashFrame` moves out find their way back.

  The loop at `move_layers_back` has one index, for the planes and for the entries of
  `dst_layers`.  It gives back what was moved where the two agree: where a plane with layers
  stands at the index that is the number of the layers before it, and where the loop over the
  planes has not stopped in the middle of one.
-/
import DragonDevice.Hwc.SquashFrame

set_option autoImplicit false

namespace DragonDevice.Hwc

variable {F : Type} {n : Nat} {layers : Fin n → DrmHwcLayer F}

/-! ## The condition -/

/-- The layers that are moved out of a plane when none of them is protected. -/
def SquashPlane.moves (p : SquashPlane n) : List (Fin n) :=
  if p.type = .disable then [] else p.sourceLayers

/-- The plane is null, or its first layer is protected: no layer of it is moved. -/
def SquashPlane.StopsFirst (layers : Fin n → DrmHwcLayer F) (p : SquashPlane n) : Prop :=
  p.plane = none ∨ ∃ i, p.sourceLayers.head? = some i ∧ (layers i).protectedUsage = true

/-- Planes from an index on, before which a number of layers has been moved.  A plane with
layers stands at the index that is the number of the layers before it, and the plane at which
the loop stops, if it does, has none of its layers moved. -/
structure InStep (layers : Fin n → DrmHwcLayer F) (index entries : Nat)
    (planes : List (SquashPlane n)) : Prop where
  step : ∀ k p, (planes.takeWhile (SquashPlane.movable layers))[k]? = some p → p.moves ≠ [] →
    entries + ((planes.take k).flatMap SquashPlane.moves).length = index + k
  stops : ∀ p, (planes.dropWhile (SquashPlane.movable layers)).head? = some p →
    p.StopsFirst layers

/-- The call stops before the first plane; or the layers have been handed on and are not needed
back, or there are none; or they have not been handed on, no layer is moved twice, and the planes
are in step. -/
def MovesBack (src : SquashSource n) (layers : Fin n → DrmHwcLayer F) (dst : SquashTarget F)
    (calls : SquashCalls F) : Prop :=
  src.type ≠ .frame ∨ src.planes.countP (fun p => p.type ≠ .disable) ≤ 1 ∨
    calls.initResult ≠ 0 ∨
    if src.handsOn layers dst then
      (∀ p ∈ src.planes, p.moves = []) ∨ calls.finalizeResult = 0 ∧ calls.preCompositeResult = 0
    else
      ((src.planes.takeWhile (SquashPlane.movable layers)).flatMap SquashPlane.moves).Nodup ∧
        InStep layers 0 0 src.planes

/-! ## The layers that are moved -/

/-- The layers of the plane at which the loop stops. -/
def stoppedLayers (layers : Fin n → DrmHwcLayer F) (p : SquashPlane n) : List (Fin n) :=
  if p.plane = none then [] else p.sourceLayers.takeWhile fun i => !(layers i).protectedUsage

theorem SquashPlane.moves_subset {p : SquashPlane n} {j : Fin n} (hj : j ∈ p.moves) :
    j ∈ p.sourceLayers := by
  unfold moves at hj
  split at hj
  · cases hj
  · exact hj

theorem SquashPlane.moves_eq_sourceLayers {p : SquashPlane n} (h : p.moves ≠ []) :
    p.moves = p.sourceLayers := by
  unfold moves at h ⊢
  split at h
  · exact absurd rfl h
  · rename_i htype
    rw [if_neg htype]

theorem movedLayers_cons_of_movable {p : SquashPlane n} (h : p.movable layers = true)
    (rest : List (SquashPlane n)) :
    movedLayers layers (p :: rest) = p.moves ++ movedLayers layers rest := by
  cases hplane : p.plane with
  | none =>
      rw [SquashPlane.movable_none hplane] at h
      cases h
  | some plane =>
      rw [movedLayers, if_neg (by rw [hplane]; exact Option.some_ne_none plane), SquashPlane.moves]
      by_cases hdisable : p.type = .disable
      · rw [if_pos hdisable, if_pos hdisable, List.nil_append]
      · have hall := (SquashPlane.movable_iff hplane hdisable).mp h
        have hany : ¬ (p.sourceLayers.any fun i => (layers i).protectedUsage) = true := by
          rw [List.any_eq_true]
          rintro ⟨i, hi, hprotected⟩
          rw [hall i hi] at hprotected
          cases hprotected
        rw [if_neg hdisable, if_neg hany, if_neg hdisable]

/-- A plane that cannot be moved is null, or has a protected layer. -/
theorem SquashPlane.protected_of_not_movable {p : SquashPlane n}
    (h : ¬ p.movable layers = true) (hplane : p.plane ≠ none) :
    p.type ≠ .disable ∧ ∃ i ∈ p.sourceLayers, (layers i).protectedUsage = true := by
  obtain ⟨plane, hplane⟩ := Option.ne_none_iff_exists'.mp hplane
  have htype : p.type ≠ .disable := fun htype => h (SquashPlane.movable_disable hplane htype)
  rw [SquashPlane.movable_iff hplane htype] at h
  refine ⟨htype, ?_⟩
  by_contra hnone
  refine h fun i hi => Bool.eq_false_iff.mpr fun hprotected => hnone ⟨i, hi, hprotected⟩

theorem movedLayers_cons_of_not_movable {p : SquashPlane n} (h : ¬ p.movable layers = true)
    (rest : List (SquashPlane n)) :
    movedLayers layers (p :: rest) = stoppedLayers layers p := by
  rw [movedLayers, stoppedLayers]
  by_cases hplane : p.plane = none
  · rw [if_pos hplane, if_pos hplane]
  · obtain ⟨htype, i, hi, hprotected⟩ := SquashPlane.protected_of_not_movable h hplane
    have hany : (p.sourceLayers.any fun i => (layers i).protectedUsage) = true :=
      List.any_eq_true.mpr ⟨i, hi, hprotected⟩
    rw [if_neg hplane, if_neg htype, if_pos hany, if_neg hplane]

theorem stoppedLayers_subset (layers : Fin n → DrmHwcLayer F) (p : SquashPlane n) {i : Fin n}
    (hi : i ∈ stoppedLayers layers p) :
    i ∈ p.sourceLayers ∧ (layers i).protectedUsage = false := by
  unfold stoppedLayers at hi
  split at hi
  · cases hi
  · have hfree := List.mem_takeWhile_imp hi
    exact ⟨(List.takeWhile_sublist _).subset hi, by simpa using hfree⟩

/-- The plane at which the loop stops has no layer moved when it stops at once. -/
theorem stoppedLayers_eq_nil_iff {p : SquashPlane n} (h : ¬ p.movable layers = true) :
    stoppedLayers layers p = [] ↔ p.StopsFirst layers := by
  unfold stoppedLayers SquashPlane.StopsFirst
  by_cases hplane : p.plane = none
  · rw [if_pos hplane]
    exact iff_of_true rfl (Or.inl hplane)
  · obtain ⟨_, i, hi, _⟩ := SquashPlane.protected_of_not_movable h hplane
    rw [if_neg hplane, or_iff_right hplane]
    cases hlist : p.sourceLayers with
    | nil =>
        rw [hlist] at hi
        cases hi
    | cons first rest =>
        rw [List.head?_cons]
        cases hfirst : (layers first).protectedUsage with
        | true =>
            rw [List.takeWhile_cons_of_neg (by rw [hfirst]; decide)]
            exact iff_of_true rfl ⟨first, rfl, hfirst⟩
        | false =>
            rw [List.takeWhile_cons_of_pos (by rw [hfirst]; rfl)]
            refine iff_of_false nofun ?_
            rintro ⟨i, hi, hprotected⟩
            cases hi
            rw [hfirst] at hprotected
            cases hprotected

/-- Only layers of the planes are moved. -/
theorem movedLayers_sublist (layers : Fin n → DrmHwcLayer F) (planes : List (SquashPlane n)) :
    List.Sublist (movedLayers layers planes) (planes.flatMap SquashPlane.sourceLayers) := by
  induction planes with
  | nil => exact List.Sublist.slnil
  | cons p rest ih =>
      rw [List.flatMap_cons]
      by_cases hmovable : p.movable layers = true
      · rw [movedLayers_cons_of_movable hmovable]
        refine List.Sublist.append ?_ ih
        unfold SquashPlane.moves
        split
        · exact List.nil_sublist _
        · exact List.Sublist.refl _
      · rw [movedLayers_cons_of_not_movable hmovable]
        refine List.Sublist.trans ?_ (List.sublist_append_left _ _)
        unfold stoppedLayers
        split
        · exact List.nil_sublist _
        · exact List.takeWhile_sublist _

/-! ## Planes in step -/

theorem inStep_nil (layers : Fin n → DrmHwcLayer F) (index entries : Nat) :
    InStep layers index entries [] := ⟨nofun, nofun⟩

theorem inStep_cons_of_movable {p : SquashPlane n} (h : p.movable layers = true)
    {index entries : Nat} {rest : List (SquashPlane n)} :
    InStep layers index entries (p :: rest) ↔ (p.moves ≠ [] → entries = index) ∧
      InStep layers (index + 1) (entries + p.moves.length) rest := by
  constructor
  · rintro ⟨hstep, hstops⟩
    rw [List.takeWhile_cons_of_pos h] at hstep
    rw [List.dropWhile_cons_of_pos h] at hstops
    refine ⟨fun hmoves => hstep 0 p rfl hmoves, fun k q hq hmoves => ?_, hstops⟩
    have hk := hstep (k + 1) q hq hmoves
    rw [List.take_succ_cons, List.flatMap_cons, List.length_append] at hk
    omega
  · rintro ⟨hfirst, hrest⟩
    refine ⟨fun k q hq hmoves => ?_, ?_⟩
    · rw [List.takeWhile_cons_of_pos h] at hq
      cases k with
      | zero =>
          cases hq
          exact hfirst hmoves
      | succ k =>
          have hk := hrest.step k q hq hmoves
          rw [List.take_succ_cons, List.flatMap_cons, List.length_append]
          omega
    · rw [List.dropWhile_cons_of_pos h]
      exact hrest.stops

theorem inStep_cons_of_not_movable {p : SquashPlane n} (h : ¬ p.movable layers = true)
    {index entries : Nat} {rest : List (SquashPlane n)} :
    InStep layers index entries (p :: rest) ↔ stoppedLayers layers p = [] := by
  rw [stoppedLayers_eq_nil_iff h]
  constructor
  · rintro ⟨_, hstops⟩
    rw [List.dropWhile_cons_of_neg h] at hstops
    exact hstops p rfl
  · intro hfirst
    refine ⟨fun k q hq => ?_, fun q hq => ?_⟩
    · rw [List.takeWhile_cons_of_neg h] at hq
      cases hq
    · rw [List.dropWhile_cons_of_neg h] at hq
      cases hq
      exact hfirst

/-- Planes that are in step are moved whole. -/
theorem InStep.movedLayers_eq : ∀ {planes : List (SquashPlane n)} {index entries : Nat},
    InStep layers index entries planes → movedLayers layers planes =
      (planes.takeWhile (SquashPlane.movable layers)).flatMap SquashPlane.moves := by
  intro planes
  induction planes with
  | nil => exact fun _ => rfl
  | cons p rest ih =>
      intro index entries h
      by_cases hmovable : p.movable layers = true
      · rw [movedLayers_cons_of_movable hmovable, List.takeWhile_cons_of_pos hmovable,
          List.flatMap_cons, ih ((inStep_cons_of_movable hmovable).mp h).2]
      · rw [movedLayers_cons_of_not_movable hmovable, List.takeWhile_cons_of_neg hmovable,
          (inStep_cons_of_not_movable hmovable).mp h, List.flatMap_nil]

/-- Planes from which nothing is moved are in step. -/
theorem inStep_of_movedLayers_eq_nil : ∀ {planes : List (SquashPlane n)} {index entries : Nat},
    movedLayers layers planes = [] → InStep layers index entries planes := by
  intro planes
  induction planes with
  | nil => exact fun _ => inStep_nil _ _ _
  | cons p rest ih =>
      intro index entries h
      by_cases hmovable : p.movable layers = true
      · rw [movedLayers_cons_of_movable hmovable] at h
        obtain ⟨hmoves, hrest⟩ := List.append_eq_nil_iff.mp h
        exact (inStep_cons_of_movable hmovable).mpr ⟨fun hne => absurd hmoves hne, ih hrest⟩
      · rw [movedLayers_cons_of_not_movable hmovable] at h
        exact (inStep_cons_of_not_movable hmovable).mpr h

/-- Once the index is ahead of the layers, nothing more is moved. -/
theorem InStep.movedLayers_of_lt : ∀ {planes : List (SquashPlane n)} {index entries : Nat},
    InStep layers index entries planes → entries < index → movedLayers layers planes = [] := by
  intro planes
  induction planes with
  | nil => exact fun _ _ => rfl
  | cons p rest ih =>
      intro index entries h hlt
      by_cases hmovable : p.movable layers = true
      · obtain ⟨hfirst, hrest⟩ := (inStep_cons_of_movable hmovable).mp h
        have hmoves : p.moves = [] := by
          by_contra hne
          have := hfirst hne
          omega
        rw [hmoves, List.length_nil] at hrest
        rw [movedLayers_cons_of_movable hmovable, hmoves, List.nil_append]
        exact ih hrest (by omega)
      · rw [movedLayers_cons_of_not_movable hmovable]
        exact (inStep_cons_of_not_movable hmovable).mp h

/-! ## The loop on the numbers of the entries -/

theorem idxOf?_append_of_ne {l : List (Fin n)} {i j : Fin n} (h : j ≠ i) :
    (l ++ [i]).idxOf? j = l.idxOf? j := by
  by_cases hmem : j ∈ l
  · exact idxOf?_append_mem hmem [i]
  · rw [idxOf?_eq_none.mpr hmem, idxOf?_eq_none]
    rw [List.mem_append, List.mem_singleton, not_or]
    exact ⟨hmem, h⟩

theorem getElem?_numbers {entries k : Nat} :
    ((List.range entries).map some)[k]? = if k < entries then some (some k) else none := by
  rw [List.getElem?_map]
  split
  · rename_i hk
    rw [List.getElem?_range hk, Option.map_some]
  · rename_i hk
    rw [List.getElem?_eq_none (by rw [List.length_range]; exact Nat.le_of_not_lt hk),
      Option.map_none]

/-- Layers that come next are given the entries they were moved to. -/
theorem moveBackPlane_numbers (entries : Nat) : ∀ (l moved : List (Fin n)),
    (moved ++ l).Nodup → (moved ++ l).length ≤ entries →
    moveBackPlane ((List.range entries).map some) l moved.length (fun j => moved.idxOf? j) =
      some fun j => (moved ++ l).idxOf? j := by
  intro l
  induction l with
  | nil =>
      intro moved _ _
      rw [List.append_nil, moveBackPlane]
  | cons i rest ih =>
      intro moved hnodup hle
      have hlt : moved.length < entries := by
        rw [List.length_append, List.length_cons] at hle
        omega
      have hi : i ∉ moved := fun hmem =>
        (List.nodup_append.mp hnodup).2.2 i hmem i List.mem_cons_self rfl
      rw [List.append_cons] at hnodup hle ⊢
      have hnext := ih (moved ++ [i]) hnodup hle
      have hgiven : (fun j => if j = i then some moved.length else moved.idxOf? j) =
          fun j => (moved ++ [i]).idxOf? j := by
        funext j
        by_cases hj : j = i
        · rw [if_pos hj, hj, idxOf?_append_self hi]
        · rw [if_neg hj, idxOf?_append_of_ne hj]
      rw [List.length_append, List.length_singleton, ← hgiven] at hnext
      rw [moveBackPlane, getElem?_numbers, if_pos hlt]
      exact hnext

/-- The layers of a plane are given entries from the index on. -/
theorem moveBackPlane_given (entries : Nat) : ∀ (l : List (Fin n)) {index : Nat}
    {f g : Fin n → Option Nat},
    moveBackPlane ((List.range entries).map some) l index f = some g →
    ∀ j, (j ∈ l → ∃ k, index ≤ k ∧ g j = some k) ∧ (j ∉ l → g j = f j) := by
  intro l
  induction l with
  | nil =>
      intro index f g h j
      cases h
      exact ⟨nofun, fun _ => rfl⟩
  | cons i rest ih =>
      intro index f g h j
      rw [moveBackPlane, getElem?_numbers] at h
      split at h
      · cases h
      · rename_i l hl
        split at hl
        · cases hl
          obtain ⟨hgiven, hsame⟩ := ih h j
          refine ⟨fun hj => ?_, fun hj => ?_⟩
          · by_cases hrest : j ∈ rest
            · obtain ⟨k, hk, hg⟩ := hgiven hrest
              exact ⟨k, by omega, hg⟩
            · have hi := (List.mem_cons.mp hj).resolve_right hrest
              exact ⟨index, Nat.le_refl _, (hsame hrest).trans (if_pos hi)⟩
          · rw [List.mem_cons, not_or] at hj
            exact (hsame hj.2).trans (if_neg hj.1)
        · cases hl

/-- A layer keeps what it has, or is in one of the planes and given an entry from the index on. -/
theorem moveLayersBack_given (entries : Nat) : ∀ (planes : List (SquashPlane n))
    {passed index : Nat} {f g : Fin n → Option Nat},
    moveLayersBack ((List.range entries).map some) planes passed index f = some g →
    ∀ j, g j = f j ∨
      j ∈ planes.flatMap SquashPlane.sourceLayers ∧ ∃ k, index ≤ k ∧ g j = some k := by
  intro planes
  induction planes with
  | nil =>
      intro passed index f g h j
      rw [moveLayersBack] at h
      cases h
      exact Or.inl rfl
  | cons p rest ih =>
      intro passed index f g h j
      have hlift : ∀ {P : Prop}, (j ∈ rest.flatMap SquashPlane.sourceLayers ∧ P) →
          j ∈ (p :: rest).flatMap SquashPlane.sourceLayers ∧ P := by
        rintro P ⟨hj, hP⟩
        exact ⟨by rw [List.flatMap_cons]; exact List.mem_append_right _ hj, hP⟩
      cases passed with
      | succ passed => exact (ih h j).imp_right hlift
      | zero =>
          rw [moveLayersBack] at h
          split at h
          · split at h
            · refine (ih h j).imp_right fun hgiven => ?_
              obtain ⟨hj, k, hk, hg⟩ := hlift hgiven
              exact ⟨hj, k, by omega, hg⟩
            · split at h
              · cases h
              · rename_i f' hplane
                obtain ⟨hgiven, hother⟩ := moveBackPlane_given entries p.sourceLayers hplane j
                rcases ih h j with hsame | hlater
                · by_cases hj : j ∈ p.sourceLayers
                  · obtain ⟨k, hk, hf⟩ := hgiven hj
                    refine Or.inr ⟨?_, k, hk, hsame.trans hf⟩
                    rw [List.flatMap_cons]
                    exact List.mem_append_left _ hj
                  · exact Or.inl (hsame.trans (hother hj))
                · obtain ⟨hj, k, hk, hg⟩ := hlift hlater
                  exact Or.inr ⟨hj, k, by omega, hg⟩
          · cases h
            exact Or.inl rfl

/-- Behind the last entry the loop does nothing. -/
theorem moveLayersBack_done {α : Type} {entries : List α} : ∀ (planes : List (SquashPlane n))
    {passed index : Nat} {f : Fin n → α}, entries.length ≤ index →
    moveLayersBack entries planes passed index f = some f := by
  intro planes
  induction planes with
  | nil => exact fun _ => rfl
  | cons p rest ih =>
      intro passed index f h
      cases passed with
      | succ passed => exact ih h
      | zero => rw [moveLayersBack, if_neg (Nat.not_lt.mpr h)]

/-- Layers that are moved out in step are given the entries they were moved to. -/
theorem InStep.gives {entries : Nat} : ∀ {planes : List (SquashPlane n)} {index passed : Nat}
    {moved : List (Fin n)}, InStep layers index moved.length planes →
    moved.length = index + passed → (moved ++ movedLayers layers planes).Nodup →
    (moved ++ movedLayers layers planes).length = entries →
    moveLayersBack ((List.range entries).map some) planes passed moved.length
        (fun j => moved.idxOf? j) =
      some fun j => (moved ++ movedLayers layers planes).idxOf? j := by
  intro planes
  induction planes with
  | nil =>
      intro index passed moved _ _ _ _
      rw [moveLayersBack, movedLayers, List.append_nil]
  | cons p rest ih =>
      intro index passed moved h hindex hnodup hlength
      by_cases hend : movedLayers layers (p :: rest) = []
      · rw [hend, List.append_nil] at hlength ⊢
        refine moveLayersBack_done _ ?_
        rw [List.length_map, List.length_range, hlength]
      by_cases hmovable : p.movable layers = true
      swap
      · rw [movedLayers_cons_of_not_movable hmovable] at hend
        exact absurd ((inStep_cons_of_not_movable hmovable).mp h) hend
      obtain ⟨hfirst, hrest⟩ := (inStep_cons_of_movable hmovable).mp h
      rw [movedLayers_cons_of_movable hmovable] at hend hnodup hlength ⊢
      by_cases hmoves : p.moves = []
      · rw [hmoves, List.length_nil, Nat.add_zero] at hrest
        rw [hmoves, List.nil_append] at hend hnodup hlength ⊢
        cases passed with
        | succ passed => exact ih hrest (by omega) hnodup hlength
        | zero => exact absurd (hrest.movedLayers_of_lt (by omega)) hend
      · have hpassed : passed = 0 := by
          have := hfirst hmoves
          omega
        have hsource := SquashPlane.moves_eq_sourceLayers hmoves
        rw [hsource] at hmoves hrest hnodup hlength ⊢
        rw [← List.append_assoc] at hnodup hlength ⊢
        have hpos := List.length_pos_iff.mpr hmoves
        have hle : (moved ++ p.sourceLayers).length ≤ entries := by
          rw [List.length_append] at hlength
          omega
        have hlt : moved.length < ((List.range entries).map some).length := by
          rw [List.length_map, List.length_range]
          rw [List.length_append] at hle
          omega
        have hback := moveBackPlane_numbers entries p.sourceLayers moved
          (List.nodup_append.mp hnodup).1 hle
        rw [List.length_append] at hle
        have hnext := @ih (index + 1) (p.sourceLayers.length - 1) (moved ++ p.sourceLayers)
          (by rw [List.length_append]; exact hrest) (by rw [List.length_append]; omega) hnodup
          hlength
        rw [List.length_append] at hnext
        rw [hpassed, moveLayersBack, if_pos hlt, if_neg hmoves, hback]
        exact hnext

/-! ## What a loop that gives back tells -/

section Given

variable {entries passed : Nat} {planes : List (SquashPlane n)} {moved l : List (Fin n)}

/-- A layer that the loop does not come to is not among those given back. -/
theorem not_mem_of_given {index : Nat}
    (hgives : moveLayersBack ((List.range entries).map some) planes passed index
      (fun j => moved.idxOf? j) = some fun j => (moved ++ l).idxOf? j)
    {j : Fin n} (hmoved : j ∉ moved) (hplanes : j ∉ planes.flatMap SquashPlane.sourceLayers) :
    j ∉ l := by
  intro hmem
  obtain hsame | ⟨hplane, _⟩ := moveLayersBack_given entries planes hgives j
  · rw [idxOf?_eq_none.mpr hmoved, idxOf?_eq_none, List.mem_append, not_or] at hsame
    exact hsame.2 hmem
  · exact hplanes hplane

/-- When the index skips an entry, none of the entries from there on is given back. -/
theorem eq_nil_of_skipped
    (hgives : moveLayersBack ((List.range entries).map some) planes passed (moved.length + 1)
      (fun j => moved.idxOf? j) = some fun j => (moved ++ l).idxOf? j)
    (hnodup : (moved ++ l).Nodup) : l = [] := by
  cases l with
  | nil => rfl
  | cons first others =>
      have hnot : first ∉ moved := fun hmem =>
        (List.nodup_append.mp hnodup).2.2 first hmem first List.mem_cons_self rfl
      have hindex : (moved ++ first :: others).idxOf? first = some moved.length := by
        rw [List.append_cons, idxOf?_append_mem List.mem_concat_self, idxOf?_append_self hnot]
      obtain hsame | ⟨_, k, hk, hgiven⟩ := moveLayersBack_given entries planes hgives first
      · rw [hindex, idxOf?_eq_none.mpr hnot] at hsame
        cases hsame
      · rw [hindex] at hgiven
        have := Option.some.inj hgiven
        omega

end Given

/-- A plane all of whose layers are moved does not stop the loop. -/
theorem SquashPlane.moves_of_all_moved {p : SquashPlane n} {rest : List (SquashPlane n)}
    (hsource : p.sourceLayers ≠ [])
    (hall : ∀ j ∈ p.sourceLayers, j ∈ movedLayers layers (p :: rest))
    (hlater : ∀ j ∈ p.sourceLayers, j ∉ movedLayers layers rest) :
    p.movable layers = true ∧ p.moves = p.sourceLayers := by
  obtain ⟨first, hfirst⟩ := List.exists_mem_of_ne_nil _ hsource
  by_cases hmovable : p.movable layers = true
  · rw [movedLayers_cons_of_movable hmovable] at hall
    refine ⟨hmovable, moves_eq_sourceLayers ?_⟩
    exact List.ne_nil_of_mem
      ((List.mem_append.mp (hall first hfirst)).resolve_right (hlater first hfirst))
  · rw [movedLayers_cons_of_not_movable hmovable] at hall
    by_cases hnull : p.plane = none
    · have hmem := hall first hfirst
      rw [stoppedLayers, if_pos hnull] at hmem
      cases hmem
    · obtain ⟨_, j, hj, hprotected⟩ := protected_of_not_movable hmovable hnull
      rw [(stoppedLayers_subset layers p (hall j hj)).2] at hprotected
      cases hprotected

/-- Layers that are given the entries they were moved to were moved out in step, if no layer is in
two places. -/
theorem inStep_of_gives {entries : Nat} : ∀ {planes : List (SquashPlane n)} {index passed : Nat}
    {moved : List (Fin n)}, (moved ++ planes.flatMap SquashPlane.sourceLayers).Nodup →
    moved.length = index + passed →
    (moved ++ movedLayers layers planes).length = entries →
    moveLayersBack ((List.range entries).map some) planes passed moved.length
        (fun j => moved.idxOf? j) =
      some (fun j => (moved ++ movedLayers layers planes).idxOf? j) →
    InStep layers index moved.length planes := by
  intro planes
  induction planes with
  | nil => exact fun _ _ _ _ => inStep_nil _ _ _
  | cons p rest ih =>
      intro index passed moved hnodup hindex hlength hgives
      by_cases hend : movedLayers layers (p :: rest) = []
      · exact inStep_of_movedLayers_eq_nil hend
      have hmovedNodup : (moved ++ movedLayers layers (p :: rest)).Nodup :=
        hnodup.sublist (List.Sublist.append_left (movedLayers_sublist layers (p :: rest)) _)
      rw [List.flatMap_cons] at hnodup
      -- a layer of this plane is in no other place
      have hfresh : ∀ j ∈ p.sourceLayers,
          j ∉ moved ∧ j ∉ rest.flatMap SquashPlane.sourceLayers := by
        intro j hj
        obtain ⟨_, hsources, happart⟩ := List.nodup_append.mp hnodup
        exact ⟨fun hmem => happart j hmem j (List.mem_append_left _ hj) rfl,
          fun hmem => (List.nodup_append.mp hsources).2.2 j hj j hmem rfl⟩
      cases passed with
      | succ passed =>
          -- the plane is passed, so none of its layers has been moved
          rw [moveLayersBack] at hgives
          have hnone : ∀ j ∈ p.sourceLayers, j ∉ movedLayers layers (p :: rest) := fun j hj =>
            not_mem_of_given hgives (hfresh j hj).1 (hfresh j hj).2
          by_cases hmovable : p.movable layers = true
          · rw [movedLayers_cons_of_movable hmovable] at hlength hgives hnone
            have hmoves : p.moves = [] := List.eq_nil_iff_forall_not_mem.mpr fun j hj =>
              hnone j (SquashPlane.moves_subset hj) (List.mem_append_left _ hj)
            rw [hmoves, List.nil_append] at hlength hgives
            refine (inStep_cons_of_movable hmovable).mpr ⟨fun hne => absurd hmoves hne, ?_⟩
            rw [hmoves, List.length_nil, Nat.add_zero]
            refine ih (hnodup.sublist ?_) (by omega) hlength hgives
            exact List.Sublist.append_left (List.sublist_append_right _ _) _
          · rw [movedLayers_cons_of_not_movable hmovable] at hnone
            refine (inStep_cons_of_not_movable hmovable).mpr ?_
            exact List.eq_nil_iff_forall_not_mem.mpr fun j hj =>
              hnone j (stoppedLayers_subset layers p hj).1 hj
      | zero =>
          have hpos := List.length_pos_iff.mpr hend
          have hlt : moved.length < entries := by
            rw [List.length_append] at hlength
            omega
          rw [moveLayersBack, List.length_map, List.length_range, if_pos hlt] at hgives
          by_cases hsource : p.sourceLayers = []
          · rw [if_pos hsource] at hgives
            exact absurd (eq_nil_of_skipped hgives hmovedNodup) hend
          · rw [if_neg hsource] at hgives
            cases hplane : moveBackPlane ((List.range entries).map some) p.sourceLayers
                moved.length fun j => moved.idxOf? j with
            | none =>
                rw [hplane] at hgives
                cases hgives
            | some g =>
                rw [hplane] at hgives
                dsimp only at hgives
                -- the layers of the plane are given entries, so all of them have been moved
                have hall : ∀ j ∈ p.sourceLayers, j ∈ movedLayers layers (p :: rest) := by
                  intro j hj
                  obtain ⟨k, _, hg⟩ := (moveBackPlane_given entries p.sourceLayers hplane j).1 hj
                  obtain hsame | ⟨hmem, _⟩ := moveLayersBack_given entries rest hgives j
                  · have hin : j ∈ moved ++ movedLayers layers (p :: rest) := by
                      by_contra hout
                      rw [hg, idxOf?_eq_none.mpr hout] at hsame
                      cases hsame
                    exact (List.mem_append.mp hin).resolve_left (hfresh j hj).1
                  · exact absurd hmem (hfresh j hj).2
                obtain ⟨hmovable, hmoves⟩ := SquashPlane.moves_of_all_moved hsource hall
                  fun j hj hmem => (hfresh j hj).2 ((movedLayers_sublist layers rest).subset hmem)
                rw [movedLayers_cons_of_movable hmovable, hmoves, ← List.append_assoc]
                  at hlength hgives hmovedNodup
                have hle : (moved ++ p.sourceLayers).length ≤ entries := by
                  rw [List.length_append] at hlength
                  omega
                rw [moveBackPlane_numbers entries p.sourceLayers moved
                  (List.nodup_append.mp hmovedNodup).1 hle] at hplane
                cases hplane
                rw [← List.length_append] at hgives
                refine (inStep_cons_of_movable hmovable).mpr ⟨fun _ => by omega, ?_⟩
                rw [hmoves, ← List.length_append]
                refine ih ?_ ?_ hlength hgives
                · rw [List.append_assoc]
                  exact hnodup
                · have := List.length_pos_iff.mpr hsource
                  rw [List.length_append]
                  omega

/-! ## When the layers find their way back -/

/-- When no plane stops the loop, nothing is moved exactly when no plane has layers to move. -/
theorem movedLayers_eq_nil_iff {planes : List (SquashPlane n)}
    (hall : planes.all (SquashPlane.movable layers) = true) :
    movedLayers layers planes = [] ↔ ∀ p ∈ planes, p.moves = [] := by
  induction planes with
  | nil => exact iff_of_true rfl nofun
  | cons p rest ih =>
      rw [List.all_cons, Bool.and_eq_true] at hall
      rw [movedLayers_cons_of_movable hall.1, List.append_eq_nil_iff, ih hall.2,
        List.forall_mem_cons]

theorem SquashSource.all_movable {src : SquashSource n} {dst : SquashTarget F}
    (h : src.handsOn layers dst = true) : src.planes.all (SquashPlane.movable layers) = true := by
  unfold SquashSource.handsOn at h
  rw [Bool.and_eq_true, Bool.and_eq_true] at h
  exact h.1.1

variable {src : SquashSource n} {dst : SquashTarget F} {calls : SquashCalls F}

theorem MovesBack.givesBack (h : MovesBack src layers dst calls) :
    GivesBack src layers dst calls := by
  refine h.imp_right fun h => h.imp_right fun h => h.imp_right fun h => ?_
  split at h
  · rename_i hhands
    rw [if_pos hhands]
    exact h.imp_left (movedLayers_eq_nil_iff (SquashSource.all_movable hhands)).mpr
  · rename_i hhands
    obtain ⟨hnodup, hstep⟩ := h
    rw [if_neg hhands]
    have hgives := @InStep.gives F n layers _ src.planes 0 0 [] hstep rfl
      (by rw [List.nil_append, hstep.movedLayers_eq]; exact hnodup) rfl
    exact hgives

theorem GivesBack.movesBack (hnodup : (src.planes.flatMap SquashPlane.sourceLayers).Nodup)
    (h : GivesBack src layers dst calls) : MovesBack src layers dst calls := by
  refine h.imp_right fun h => h.imp_right fun h => h.imp_right fun h => ?_
  split at h
  · rename_i hhands
    rw [if_pos hhands]
    exact h.imp_left (movedLayers_eq_nil_iff (SquashSource.all_movable hhands)).mp
  · rename_i hhands
    rw [if_neg hhands]
    have hstep : InStep layers 0 0 src.planes :=
      @inStep_of_gives F n layers _ src.planes 0 0 [] hnodup rfl rfl h
    refine ⟨?_, hstep⟩
    rw [← hstep.movedLayers_eq]
    exact hnodup.sublist (movedLayers_sublist layers src.planes)

/-- `SquashFrame` gives the layers back on every error, whatever they hold, when the error
comes before a layer is moved, or no layer is moved, or the error comes before the layers are
handed on and the planes are in step; and only then, if no layer is in two places of the planes. -/
theorem squashFrame_keepsLayers (src : SquashSource n) (layers : Fin n → DrmHwcLayer F)
    (dst : SquashTarget F) (calls : SquashCalls F) :
    (MovesBack src layers dst calls →
      ∀ owned, KeepsLayers src (heldLayers layers owned) dst calls) ∧
    ((src.planes.flatMap SquashPlane.sourceLayers).Nodup →
      (∀ owned, KeepsLayers src (heldLayers layers owned) dst calls) →
        MovesBack src layers dst calls) := by
  rw [squashFrame_keeps_iff_givesBack]
  exact ⟨MovesBack.givesBack, GivesBack.movesBack⟩

/-! ## A panel with a protected layer -/

def panelLayer (usage : BitVec 32) : DrmHwcLayer Int where
  sfHandle := 1
  grallocBufferUsage := usage
  format := .argb8888
  transform := 0#32
  blending := .none
  sourceCrop := ⟨0, 0, 16, 16⟩
  displayFrame := ⟨0, 0, 16, 16⟩

/-- The last layer of a number is protected. -/
def protectedLayers {n : Nat} (i : Fin n) : DrmHwcLayer Int :=
  panelLayer (if i.val + 1 = n then grallocUsageProtected else 0#32)

/-- Two layers on the first two planes and a protected one on the last, with a disabled plane
between. -/
def lateFrame : SquashSource 3 where
  type := .frame
  crtc := some ⟨10, 0⟩
  planes :=
    [⟨.layer, some ⟨1, .primary, 1#32⟩, [(Fin.last 2).rev]⟩,
      ⟨.layer, some ⟨2, .overlay, 1#32⟩, [Fin.castSucc (Fin.last 1)]⟩,
      ⟨.disable, some ⟨3, .overlay, 1#32⟩, []⟩,
      ⟨.layer, some ⟨4, .overlay, 1#32⟩, [Fin.last 2]⟩]

theorem inStep_lateFrame : InStep protectedLayers 0 0 lateFrame.planes := by
  refine (inStep_cons_of_movable (by decide)).mpr ⟨fun _ => rfl, ?_⟩
  refine (inStep_cons_of_movable (by decide)).mpr ⟨fun _ => rfl, ?_⟩
  refine (inStep_cons_of_movable (by decide)).mpr ⟨fun h => absurd rfl h, ?_⟩
  exact (inStep_cons_of_not_movable (by decide)).mpr (by decide)

/-- Both layers are moved out and come back. -/
theorem squashFrame_keepsLayers_late :
    KeepsLayers lateFrame (heldLayers protectedLayers ownedByNumber) ⟨.empty, [], []⟩
        ⟨0, 0, 0, none⟩ ∧
      MovesBack lateFrame protectedLayers ⟨.empty, [], []⟩ ⟨0, 0, 0, none⟩ := by
  have hlate := squashFrame_keepsLayers lateFrame protectedLayers ⟨.empty, [], []⟩
    ⟨0, 0, 0, none⟩
  have hkeeps := hlate.1 <| by
    refine Or.inr (Or.inr (Or.inr ?_))
    rw [if_neg (by decide)]
    exact ⟨by decide, inStep_lateFrame⟩
  exact ⟨hkeeps ownedByNumber, hlate.2 (by decide) hkeeps⟩

/-- A frame of two layers, the second of which is protected, behind a disabled plane. -/
def protectedFrame : SquashSource 2 where
  type := .frame
  crtc := some ⟨10, 0⟩
  planes :=
    [⟨.disable, some ⟨3, .overlay, 1#32⟩, []⟩,
      ⟨.layer, some ⟨1, .primary, 1#32⟩, [(Fin.last 1).rev]⟩,
      ⟨.layer, some ⟨2, .overlay, 1#32⟩, [Fin.last 1]⟩]

/-- With the disabled plane before the others, the first layer is moved out and not back. -/
theorem squashFrame_loses_layer :
    ¬ KeepsLayers protectedFrame (heldLayers protectedLayers ownedByNumber) ⟨.empty, [], []⟩
      ⟨0, 0, 0, none⟩ := by
  intro hkeeps
  obtain ⟨r, hr, hsame⟩ := hkeeps
  cases hr
  have hbuffer := (hsame (by decide) (Fin.last 1).rev).2.1
  exact absurd hbuffer (by decide)

end DragonDevice.Hwc
