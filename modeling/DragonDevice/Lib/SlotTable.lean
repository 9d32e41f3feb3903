/-
  Lib/SlotTable.lean --- a table of slots that are free or hold an entry.

  What a table says is the map of its entries.  An entry put into a free slot, changed where
  it stands or taken out changes the map at its key alone.  A free slot is found by going
  round the table from any slot on.  When entries are only added behind the last one, they
  stand in the order in which their keys first came.
-/
import Mathlib.Data.List.Nodup
import Mathlib.Logic.Function.Basic

set_option autoImplicit false

namespace DragonDevice.Lib

universe u v

/-! ## Lists cut at a place -/

theorem exists_cut_of_getElem? {α : Type u} {l : List α} {i : Nat} {a : α} (h : l[i]? = some a) :
    ∃ before after, l = before ++ a :: after ∧ before.length = i := by
  obtain ⟨hlt, hget⟩ := List.getElem?_eq_some_iff.mp h
  refine ⟨l.take i, l.drop (i + 1), ?_, List.length_take_of_le (Nat.le_of_lt hlt)⟩
  rw [← hget, List.getElem_cons_drop hlt, List.take_append_drop]

theorem set_cut {α : Type u} (before after : List α) (a b : α) :
    (before ++ a :: after).set before.length b = before ++ b :: after := by
  rw [List.set_append_right _ _ (Nat.le_refl _), Nat.sub_self]
  rfl

/-! ## Going round -/

section Ring

variable {α : Type u}

/-- The first place from `i` on where the test holds, going round; so many places are looked
at. -/
def ringFind (p : α → Bool) (l : List α) : Nat → Nat → Option Nat
  | 0, _ => none
  | fuel + 1, i =>
      match l[i]? with
      | none => none
      | some a =>
          if p a then some i
          else ringFind p l fuel (if i + 1 = l.length then 0 else i + 1)

variable {p : α → Bool} {l : List α}

theorem ringFind_some {fuel i j : Nat} (h : ringFind p l fuel i = some j) :
    ∃ a, l[j]? = some a ∧ p a = true := by
  induction fuel generalizing i with
  | zero => cases h
  | succ fuel ih =>
      unfold ringFind at h
      cases ha : l[i]? with
      | none =>
          rw [ha] at h
          cases h
      | some a =>
          rw [ha] at h
          dsimp only at h
          split at h
          · rename_i hp
            cases h
            exact ⟨a, ha, hp⟩
          · exact ih h

/-- The test holds at the place where the search begins. -/
theorem ringFind_here {fuel i : Nat} {a : α} (ha : l[i]? = some a) (hp : p a = true) :
    ringFind p l (fuel + 1) i = some i := by
  unfold ringFind
  rw [ha]
  exact if_pos hp

/-- A place at a distance is reached. -/
theorem exists_ringFind_of_distance {fuel i d : Nat} (hi : i < l.length) (hd : d < fuel)
    (hlap : d < l.length)
    (hp : ∃ a, l[if i + d < l.length then i + d else i + d - l.length]? = some a ∧ p a = true) :
    ∃ j, ringFind p l fuel i = some j := by
  induction fuel generalizing i d with
  | zero => exact absurd hd (Nat.not_lt_zero d)
  | succ fuel ih =>
      unfold ringFind
      rw [List.getElem?_eq_getElem hi]
      dsimp only
      split
      · exact ⟨i, rfl⟩
      · rename_i hnot
        cases d with
        | zero =>
            obtain ⟨a, ha, hpa⟩ := hp
            rw [Nat.add_zero, if_pos hi, List.getElem?_eq_getElem hi] at ha
            cases ha
            exact absurd hpa hnot
        | succ d =>
            have hplace : (if (if i + 1 = l.length then 0 else i + 1) + d < l.length
                then (if i + 1 = l.length then 0 else i + 1) + d
                else (if i + 1 = l.length then 0 else i + 1) + d - l.length) =
                if i + (d + 1) < l.length then i + (d + 1) else i + (d + 1) - l.length := by
              split <;> split <;> split <;> omega
            apply ih (d := d)
            · split <;> omega
            · omega
            · omega
            · rw [hplace]
              exact hp

/-- A full round finds a place if there is one. -/
theorem exists_ringFind {i : Nat} (hi : i < l.length) (hp : ∃ a ∈ l, p a = true) :
    ∃ j, ringFind p l l.length i = some j := by
  obtain ⟨a, ha, hpa⟩ := hp
  obtain ⟨k, hk⟩ := List.getElem?_of_mem ha
  have hlt := (List.getElem?_eq_some_iff.mp hk).1
  by_cases hik : i ≤ k
  · apply exists_ringFind_of_distance (d := k - i) hi (by omega) (by omega)
    rw [if_pos (by omega), Nat.add_sub_cancel' hik]
    exact ⟨a, hk, hpa⟩
  · apply exists_ringFind_of_distance (d := k + l.length - i) hi (by omega) (by omega)
    have hback : i + (k + l.length - i) - l.length = k := by omega
    rw [if_neg (by omega), hback]
    exact ⟨a, hk, hpa⟩

end Ring

/-! ## Tables -/

variable {κ : Type u} {ν : Type v}

abbrev SlotTable (κ : Type u) (ν : Type v) : Type (max u v) := List (Option (κ × ν))

namespace SlotTable

/-- The entries in the order of their slots. -/
def entries (t : SlotTable κ ν) : List (κ × ν) := t.filterMap id

theorem entries_cut (before after : SlotTable κ ν) (slot : Option (κ × ν)) :
    entries (before ++ slot :: after) = before.entries ++ (slot.toList ++ after.entries) := by
  unfold entries
  rw [List.filterMap_append]
  cases slot with
  | none => rw [List.filterMap_cons_none rfl, Option.toList_none, List.nil_append]
  | some e =>
      rw [List.filterMap_cons_some (f := id) rfl, Option.toList_some, List.singleton_append]

theorem mem_entries {t : SlotTable κ ν} {e : κ × ν} : e ∈ t.entries ↔ some e ∈ t := by
  simp [entries]

/-- New slots are free. -/
theorem entries_append_free (t : SlotTable κ ν) (m : Nat) :
    entries (t ++ List.replicate m none) = t.entries := by
  unfold entries
  rw [List.filterMap_append]
  simp

theorem length_entries_le (t : SlotTable κ ν) : t.entries.length ≤ t.length :=
  List.length_filterMap_le id t

/-- A table that is not full has a free slot. -/
theorem exists_free {t : SlotTable κ ν} (h : t.entries.length < t.length) : none ∈ t := by
  by_contra hfull
  have hall : ∀ l : SlotTable κ ν, none ∉ l → l.entries.length = l.length := by
    intro l
    induction l with
    | nil => exact fun _ => rfl
    | cons slot l ih =>
        intro hl
        rw [List.mem_cons, not_or] at hl
        cases slot with
        | none => exact absurd rfl hl.1
        | some e =>
            have hrest := ih hl.2
            unfold entries at hrest ⊢
            rw [List.filterMap_cons_some (f := id) rfl, List.length_cons, List.length_cons, hrest]
  rw [hall t hfull] at h
  exact Nat.lt_irrefl _ h

/-! ## The map of a table -/

section Lookup

/-- What the table says of a key. -/
def lookup [BEq κ] (t : SlotTable κ ν) (key : κ) : Option ν := List.lookup key t.entries

/-- No two slots hold one key. -/
def Distinct (t : SlotTable κ ν) : Prop := (t.entries.map Prod.fst).Nodup

/-- A value for a key: in the place of the key if it has one, and behind the others if not. -/
def upsert [DecidableEq κ] (l : List (κ × ν)) (key : κ) (value : ν) : List (κ × ν) :=
  if key ∈ l.map Prod.fst then l.map fun e => if e.1 = key then (key, value) else e
  else l ++ [(key, value)]

/-- The entries fill the slots from the first one on. -/
def Dense (t : SlotTable κ ν) : Prop :=
  ∃ free, t = t.entries.map some ++ List.replicate free none

variable [DecidableEq κ] [BEq κ] [LawfulBEq κ]

omit [DecidableEq κ] in
theorem lookup_eq_none {l : List (κ × ν)} {key : κ} (h : key ∉ l.map Prod.fst) :
    List.lookup key l = none := by
  rw [List.lookup_eq_none_iff]
  intro e he
  rw [bne_iff_ne]
  intro heq
  exact h (List.mem_map.mpr ⟨e, he, heq.symm⟩)

omit [DecidableEq κ] in
theorem lookup_isSome_iff {l : List (κ × ν)} {key : κ} :
    (List.lookup key l).isSome = true ↔ key ∈ l.map Prod.fst := by
  rw [List.lookup_isSome_iff, List.mem_map]
  constructor
  · rintro ⟨e, he, hkey⟩
    exact ⟨e, he, (beq_iff_eq.mp hkey).symm⟩
  · rintro ⟨e, he, rfl⟩
    exact ⟨e, he, beq_self_eq_true _⟩

omit [DecidableEq κ] in
theorem mem_of_lookup_eq {l : List (κ × ν)} {k : κ} {v : ν} (h : List.lookup k l = some v) :
    (k, v) ∈ l := by
  obtain ⟨before, after, rfl, -⟩ := List.lookup_eq_some_iff.mp h
  exact List.mem_append_right _ List.mem_cons_self

omit [DecidableEq κ] in
theorem lookup_eq_of_mem {l : List (κ × ν)} (hdistinct : (l.map Prod.fst).Nodup) {e : κ × ν}
    (he : e ∈ l) : List.lookup e.1 l = some e.2 := by
  obtain ⟨before, after, rfl⟩ := List.append_of_mem he
  rw [List.map_append, List.map_cons, List.nodup_append] at hdistinct
  have hfirst : e.1 ∉ before.map Prod.fst := fun hmem =>
    hdistinct.2.2 _ hmem _ List.mem_cons_self rfl
  rw [List.lookup_append, lookup_eq_none hfirst, Option.none_or]
  exact List.lookup_cons_self

omit [DecidableEq κ] in
/-- With distinct keys the order of the entries makes no difference. -/
theorem lookup_congr {l l' : List (κ × ν)} (h : (l.map Prod.fst).Nodup)
    (h' : (l'.map Prod.fst).Nodup) (hmem : ∀ e, e ∈ l ↔ e ∈ l') (k : κ) :
    List.lookup k l = List.lookup k l' := by
  cases hl : List.lookup k l with
  | some v => exact (lookup_eq_of_mem h' ((hmem _).mp (mem_of_lookup_eq hl))).symm
  | none =>
      cases hl' : List.lookup k l' with
      | none => rfl
      | some v =>
          rw [lookup_eq_of_mem h ((hmem _).mpr (mem_of_lookup_eq hl'))] at hl
          cases hl

theorem lookup_middle {before after : List (κ × ν)} {key : κ} (value : ν)
    (hbefore : key ∉ before.map Prod.fst) (k : κ) :
    List.lookup k (before ++ (key, value) :: after) =
      Function.update (fun k' => List.lookup k' (before ++ after)) key (some value) k := by
  by_cases hk : k = key
  · subst hk
    rw [Function.update_self, List.lookup_append, lookup_eq_none hbefore, Option.none_or]
    exact List.lookup_cons_self
  · rw [Function.update_of_ne hk, List.lookup_append, List.lookup_append, List.lookup_cons]
    rw [beq_eq_false_iff_ne.mpr hk]

omit [DecidableEq κ] [BEq κ] [LawfulBEq κ] in
theorem not_mem_of_distinct {before after : List (κ × ν)} {e : κ × ν}
    (h : ((before ++ e :: after).map Prod.fst).Nodup) :
    e.1 ∉ before.map Prod.fst ∧ e.1 ∉ after.map Prod.fst ∧
      ((before ++ after).map Prod.fst).Nodup := by
  rw [List.map_append, List.map_cons] at h
  have hperm := List.perm_middle.nodup_iff.mp h
  obtain ⟨hnot, hrest⟩ := List.nodup_cons.mp hperm
  rw [List.mem_append, not_or] at hnot
  rw [List.map_append]
  exact ⟨hnot.1, hnot.2, hrest⟩

variable {t : SlotTable κ ν} {i : Nat}

/-- A new entry in a free slot. -/
theorem set_free {key : κ} (value : ν) (hdistinct : t.Distinct) (hnew : t.lookup key = none)
    (hfree : t[i]? = some none) :
    Distinct (t.set i (some (key, value))) ∧
      lookup (t.set i (some (key, value))) = Function.update t.lookup key (some value) ∧
      (entries (t.set i (some (key, value)))).length = t.entries.length + 1 := by
  obtain ⟨before, after, rfl, rfl⟩ := exists_cut_of_getElem? hfree
  have hkey : key ∉ (entries (before ++ none :: after)).map Prod.fst := by
    rw [← lookup_isSome_iff]
    unfold lookup at hnew
    rw [hnew]
    exact Bool.false_ne_true
  unfold Distinct lookup at *
  rw [set_cut, entries_cut, entries_cut] at *
  rw [Option.toList_none, List.nil_append] at hdistinct hkey ⊢
  rw [Option.toList_some, List.singleton_append]
  rw [List.map_append, List.mem_append, not_or] at hkey
  refine ⟨?_, funext fun k => lookup_middle value hkey.1 k, ?_⟩
  · rw [List.map_append, List.map_cons]
    apply List.perm_middle.nodup_iff.mpr
    rw [List.map_append] at hdistinct
    refine List.nodup_cons.mpr ⟨?_, hdistinct⟩
    rw [List.mem_append, not_or]
    exact hkey
  · rw [List.length_append, List.length_cons, List.length_append]
    omega

/-- A new value where the entry stands. -/
theorem set_value {key : κ} {old : ν} (value : ν) (hdistinct : t.Distinct)
    (hheld : t[i]? = some (some (key, old))) :
    (entries (t.set i (some (key, value)))).map Prod.fst = t.entries.map Prod.fst ∧
      lookup (t.set i (some (key, value))) = Function.update t.lookup key (some value) := by
  obtain ⟨before, after, rfl, rfl⟩ := exists_cut_of_getElem? hheld
  unfold Distinct lookup at *
  rw [set_cut, entries_cut, entries_cut] at *
  rw [Option.toList_some, List.singleton_append] at hdistinct ⊢
  rw [Option.toList_some, List.singleton_append]
  obtain ⟨hbefore, -, -⟩ := not_mem_of_distinct hdistinct
  refine ⟨?_, funext fun k => ?_⟩
  · rw [List.map_append, List.map_append, List.map_cons, List.map_cons]
  · rw [lookup_middle value hbefore, funext (lookup_middle old hbefore), Function.update_idem]

/-- The entry taken out. -/
theorem set_none {key : κ} {old : ν} (hdistinct : t.Distinct)
    (hheld : t[i]? = some (some (key, old))) :
    Distinct (t.set i none) ∧ lookup (t.set i none) = Function.update t.lookup key none ∧
      (entries (t.set i none)).length + 1 = t.entries.length := by
  obtain ⟨before, after, rfl, rfl⟩ := exists_cut_of_getElem? hheld
  unfold Distinct lookup at *
  rw [set_cut, entries_cut, entries_cut] at *
  rw [Option.toList_some, List.singleton_append] at hdistinct
  rw [Option.toList_none, List.nil_append, Option.toList_some, List.singleton_append]
  obtain ⟨hbefore, hafter, hrest⟩ := not_mem_of_distinct hdistinct
  refine ⟨hrest, ?_, ?_⟩
  · rw [funext (lookup_middle old hbefore), Function.update_idem]
    apply Eq.symm
    rw [Function.update_eq_self_iff]
    rw [List.lookup_append, lookup_eq_none hbefore, lookup_eq_none hafter]
    rfl
  · rw [List.length_append, List.length_append, List.length_cons]
    omega

/-! ## Entries in the order in which their keys came -/

omit [DecidableEq κ] in
theorem lookup_cons_of_ne {e : κ × ν} {k : κ} (h : k ≠ e.1) (l : List (κ × ν)) :
    List.lookup k (e :: l) = List.lookup k l := by
  rw [List.lookup_cons, beq_eq_false_iff_ne.mpr h]

theorem lookup_map_value (l : List (κ × ν)) (key : κ) (value : ν) (k : κ) :
    List.lookup k (l.map fun e => if e.1 = key then (key, value) else e) =
      if k = key ∧ key ∈ l.map Prod.fst then some value else List.lookup k l := by
  induction l with
  | nil => simp
  | cons e l ih =>
      rw [List.map_cons]
      by_cases he : e.1 = key
      · rw [if_pos he]
        by_cases hk : k = key
        · rw [hk, List.lookup_cons_self, if_pos ⟨rfl, by rw [List.map_cons, he]; simp⟩]
        · have hke : k ≠ e.1 := fun h => hk (h.trans he)
          have hnot : ∀ P : Prop, ¬ (k = key ∧ P) := fun _ h => hk h.1
          rw [lookup_cons_of_ne hk, lookup_cons_of_ne hke, ih, if_neg (hnot _), if_neg (hnot _)]
      · rw [if_neg he]
        by_cases hk : k = e.1
        · have hnot : ∀ P : Prop, ¬ (e.1 = key ∧ P) := fun _ h => he h.1
          rw [hk, if_neg (hnot _), List.lookup_cons_self, List.lookup_cons, beq_self_eq_true]
        · rw [lookup_cons_of_ne hk, lookup_cons_of_ne hk, ih]
          have hmem :
              (k = key ∧ key ∈ (e :: l).map Prod.fst) ↔ (k = key ∧ key ∈ l.map Prod.fst) := by
            rw [List.map_cons, List.mem_cons]
            exact and_congr_right fun hkey => or_iff_right fun heq => he heq.symm
          simp only [hmem]

theorem lookup_upsert (l : List (κ × ν)) (key : κ) (value : ν) (k : κ) :
    List.lookup k (upsert l key value) = if k = key then some value else List.lookup k l := by
  unfold upsert
  split
  · rename_i hmem
    rw [lookup_map_value]
    simp only [hmem, and_true]
  · rename_i hmem
    rw [List.lookup_append]
    by_cases hk : k = key
    · rw [hk, lookup_eq_none hmem, if_pos rfl, List.lookup_cons_self]
      rfl
    · rw [lookup_cons_of_ne hk, if_neg hk, List.lookup_nil, Option.or_none]

omit [BEq κ] [LawfulBEq κ] in
theorem nodup_upsert {l : List (κ × ν)} (h : (l.map Prod.fst).Nodup) (key : κ) (value : ν) :
    ((upsert l key value).map Prod.fst).Nodup := by
  unfold upsert
  split
  · have hkeys : (l.map fun e => if e.1 = key then (key, value) else e).map Prod.fst =
        l.map Prod.fst := by
      rw [List.map_map]
      apply List.map_congr_left
      intro e _
      by_cases he : e.1 = key
      · simp [he]
      · simp [he]
    rw [hkeys]
    exact h
  · rename_i hnew
    rw [List.map_append]
    apply List.Nodup.append h (List.nodup_singleton key)
    intro k hk hk'
    rw [List.mem_singleton.mp hk'] at hk
    exact hnew hk

omit [BEq κ] [LawfulBEq κ] in
/-- Keys that are new are added one behind the other. -/
theorem foldl_upsert_fresh {l : List (κ × ν)} :
    ∀ {entries : List (κ × ν)}, ((entries ++ l).map Prod.fst).Nodup →
      l.foldl (fun entries e => upsert entries e.1 e.2) entries = entries ++ l := by
  induction l with
  | nil => exact fun _ => (List.append_nil _).symm
  | cons e l ih =>
      intro entries hnodup
      rw [List.foldl_cons]
      have hnew := (not_mem_of_distinct hnodup).1
      have hcut : entries ++ e :: l = (entries ++ [e]) ++ l := by
        rw [List.append_assoc, List.singleton_append]
      rw [hcut] at hnodup
      rw [upsert, if_neg hnew, ih hnodup, hcut]

omit [DecidableEq κ] [BEq κ] [LawfulBEq κ] in
theorem entries_dense (l : List (κ × ν)) (free : Nat) :
    entries (l.map some ++ List.replicate free none) = l := by
  rw [entries_append_free]
  unfold entries
  rw [List.filterMap_map]
  exact List.filterMap_some

omit [DecidableEq κ] [BEq κ] [LawfulBEq κ] in
theorem dense_of_eq {l : List (κ × ν)} {free : Nat}
    (h : t = l.map some ++ List.replicate free none) : t.Dense ∧ t.entries = l := by
  subst h
  exact ⟨⟨free, by rw [entries_dense]⟩, entries_dense l free⟩

/-- The first free slot of a dense table is behind its entries. -/
theorem Dense.set_next {key : κ} (value : ν) (hdense : t.Dense)
    (hroom : t.entries.length < t.length) (hnew : t.lookup key = none) :
    t[t.entries.length]? = some none ∧
      Dense (t.set t.entries.length (some (key, value))) ∧
      entries (t.set t.entries.length (some (key, value))) = upsert t.entries key value := by
  obtain ⟨free, ht⟩ := hdense
  have hkey : key ∉ t.entries.map Prod.fst := by
    rw [← lookup_isSome_iff]
    unfold lookup at hnew
    rw [hnew]
    exact Bool.false_ne_true
  have hlen : t.length = t.entries.length + free := by
    conv_lhs => rw [ht, List.length_append, List.length_map, List.length_replicate]
  cases free with
  | zero => omega
  | succ free =>
      have hset : t.set t.entries.length (some (key, value)) =
          (t.entries ++ [(key, value)]).map some ++ List.replicate free none := by
        conv_lhs => rw [ht, entries_dense, List.replicate_succ]
        have hcut := set_cut (t.entries.map some) (List.replicate free none) none
          (some (key, value))
        rw [List.length_map] at hcut
        rw [hcut, List.map_append, List.append_assoc]
        rfl
      obtain ⟨hdense', hentries⟩ := dense_of_eq hset
      refine ⟨?_, hdense', ?_⟩
      · have hget : (t.entries.map some ++ List.replicate (free + 1) none)[t.entries.length]? =
            some none := by
          rw [List.getElem?_append_right (by simp), List.length_map, Nat.sub_self]
          rfl
        rw [← ht] at hget
        exact hget
      · rw [hentries, upsert, if_neg hkey]

omit [BEq κ] [LawfulBEq κ] in
/-- A new value in a dense table. -/
theorem Dense.set_value {key : κ} {old : ν} (value : ν) (hdense : t.Dense)
    (hdistinct : t.Distinct) (hheld : t[i]? = some (some (key, old))) :
    Dense (t.set i (some (key, value))) ∧
      entries (t.set i (some (key, value))) = upsert t.entries key value := by
  obtain ⟨free, ht⟩ := hdense
  have hmem : (key, old) ∈ t.entries := mem_entries.mpr (List.mem_of_getElem? hheld)
  have hplace : t.entries[i]? = some (key, old) := by
    rw [ht] at hheld
    by_cases hi : i < t.entries.length
    · rw [List.getElem?_append_left (by rw [List.length_map]; exact hi), List.getElem?_map] at hheld
      obtain ⟨e, he, heq⟩ := Option.map_eq_some_iff.mp hheld
      cases heq
      exact he
    · rw [List.getElem?_append_right (by rw [List.length_map]; omega)] at hheld
      exact absurd (List.eq_of_mem_replicate (List.mem_of_getElem? hheld)) (by simp)
  obtain ⟨before, after, hcut, hlen⟩ := exists_cut_of_getElem? hplace
  have hset : t.set i (some (key, value)) =
      (before ++ (key, value) :: after).map some ++ List.replicate free none := by
    conv_lhs => rw [ht, hcut]
    rw [List.map_append, List.map_cons, List.append_assoc, List.map_append, List.map_cons,
      List.append_assoc, List.cons_append, List.cons_append, ← hlen]
    have hset' := set_cut (before.map some) (after.map some ++ List.replicate free none)
      (some (key, old)) (some (key, value))
    rw [List.length_map] at hset'
    exact hset'
  obtain ⟨hdense', hentries⟩ := dense_of_eq hset
  refine ⟨hdense', ?_⟩
  rw [hentries, upsert, if_pos (List.mem_map.mpr ⟨_, hmem, rfl⟩), hcut]
  unfold Distinct at hdistinct
  rw [hcut] at hdistinct
  obtain ⟨hbefore, hafter, -⟩ := not_mem_of_distinct hdistinct
  have hother : ∀ l : List (κ × ν), key ∉ l.map Prod.fst →
      (l.map fun e => if e.1 = key then (key, value) else e) = l := by
    intro l hl
    conv_rhs => rw [← List.map_id l]
    apply List.map_congr_left
    intro e he
    rw [if_neg fun heq => hl (List.mem_map.mpr ⟨e, he, heq⟩)]
    rfl
  rw [List.map_append, List.map_cons, if_pos rfl, hother before hbefore, hother after hafter]

end Lookup

end SlotTable

end DragonDevice.Lib
