/-
  Lib/OrderedContainers.lean --- sets and maps kept in comparator order.

  The containers are the ones C++ calls `std::set` and `std::map`: a finite
  collection iterated in the order of a comparator, in which two elements that
  the comparator cannot tell apart count as the same element.  The comparator is
  any transitive relation; equality of elements plays no role, so a comparator
  that looks at part of an element only gives a container keyed by that part.

  The order is a field of the structure, so an unsorted container cannot be
  built and no operation has to assume sortedness.
-/
import Mathlib.Order.RelClasses
import Mathlib.Data.List.Pairwise

set_option autoImplicit false

namespace DragonDevice.Lib

universe u v

/-- Neither element precedes the other: the comparator identifies them. -/
def Equivalent {α : Type u} (lt : α → α → Prop) (x y : α) : Prop :=
  ¬ lt x y ∧ ¬ lt y x

instance {α : Type u} (lt : α → α → Prop) [DecidableRel lt] (x y : α) :
    Decidable (Equivalent lt x y) :=
  inferInstanceAs (Decidable (_ ∧ _))

theorem not_equivalent_of_lt {α : Type u} {lt : α → α → Prop}
    [IsStrictWeakOrder α lt] {x y z : α} (hxy : Equivalent lt x y) (hyz : lt y z) :
    ¬ Equivalent lt x z := by
  intro hxz
  exact (IsStrictWeakOrder.incomp_trans y x z ⟨hxy.2, hxy.1⟩ hxz).1 hyz

/-- A finite set iterated in the order of `lt`. -/
structure OrderedSet (α : Type u) (lt : α → α → Prop) where
  elems : List α
  sorted : elems.Pairwise lt

namespace OrderedSet

variable {α : Type u} {lt : α → α → Prop}

/-- The set without elements. -/
def empty : OrderedSet α lt := ⟨[], List.Pairwise.nil⟩

instance : Inhabited (OrderedSet α lt) := ⟨empty⟩

instance : Membership α (OrderedSet α lt) := ⟨fun s x => x ∈ s.elems⟩

theorem mem_def {s : OrderedSet α lt} {x : α} : x ∈ s ↔ x ∈ s.elems := Iff.rfl

@[simp] theorem not_mem_empty (x : α) : x ∉ (empty : OrderedSet α lt) :=
  List.not_mem_nil

variable [DecidableRel lt]

/-! ## Insertion -/

/-- Put `x` before the first element it precedes, unless an equivalent element
is met first. -/
def insertList (lt : α → α → Prop) [DecidableRel lt] (x : α) : List α → List α
  | [] => [x]
  | y :: rest =>
      if lt x y then x :: y :: rest
      else if lt y x then y :: insertList lt x rest
      else y :: rest

theorem mem_insertList_of_mem {x a : α} {l : List α} (h : a ∈ l) :
    a ∈ insertList lt x l := by
  induction l with
  | nil => simp at h
  | cons y rest ih =>
      unfold insertList
      split
      · exact List.mem_cons_of_mem x h
      · split
        · rcases List.mem_cons.mp h with rfl | h
          · exact List.mem_cons_self
          · exact List.mem_cons_of_mem y (ih h)
        · exact h

theorem mem_or_eq_of_mem_insertList {x a : α} {l : List α}
    (h : a ∈ insertList lt x l) : a ∈ l ∨ a = x := by
  induction l with
  | nil => exact Or.inr (by simpa [insertList] using h)
  | cons y rest ih =>
      unfold insertList at h
      split at h
      · rcases List.mem_cons.mp h with h | h
        · exact Or.inr h
        · exact Or.inl h
      · split at h
        · rcases List.mem_cons.mp h with rfl | h
          · exact Or.inl List.mem_cons_self
          · exact (ih h).imp_left (List.mem_cons_of_mem y)
        · exact Or.inl h

theorem mem_insertList_self {x : α} {l : List α}
    (h : ∀ y ∈ l, ¬ Equivalent lt x y) : x ∈ insertList lt x l := by
  induction l with
  | nil => simp [insertList]
  | cons y rest ih =>
      unfold insertList
      split
      · exact List.mem_cons_self
      · rename_i hxy
        split
        · exact List.mem_cons_of_mem y
            (ih fun z hz => h z (List.mem_cons_of_mem y hz))
        · rename_i hyx
          exact absurd ⟨hxy, hyx⟩ (h y List.mem_cons_self)

theorem insertList_sorted [IsTrans α lt] {x : α} {l : List α}
    (h : l.Pairwise lt) : (insertList lt x l).Pairwise lt := by
  induction l with
  | nil => simp [insertList]
  | cons y rest ih =>
      obtain ⟨hy, hrest⟩ := List.pairwise_cons.mp h
      unfold insertList
      split
      · rename_i hxy
        refine List.pairwise_cons.mpr ⟨?_, h⟩
        intro z hz
        rcases List.mem_cons.mp hz with rfl | hz
        · exact hxy
        · exact IsTrans.trans x y z hxy (hy z hz)
      · split
        · rename_i hyx
          refine List.pairwise_cons.mpr ⟨?_, ih hrest⟩
          intro z hz
          rcases mem_or_eq_of_mem_insertList hz with hz | rfl
          · exact hy z hz
          · exact hyx
        · exact h

/-- Insertion; an equivalent element that is already present wins. -/
def insert [IsTrans α lt] (x : α) (s : OrderedSet α lt) : OrderedSet α lt :=
  ⟨insertList lt x s.elems, insertList_sorted s.sorted⟩

theorem mem_insert_of_mem [IsTrans α lt] {x a : α} {s : OrderedSet α lt}
    (h : a ∈ s) : a ∈ s.insert x :=
  mem_insertList_of_mem h

theorem mem_or_eq_of_mem_insert [IsTrans α lt] {x a : α} {s : OrderedSet α lt}
    (h : a ∈ s.insert x) : a ∈ s ∨ a = x :=
  mem_or_eq_of_mem_insertList h

/-- An element with no equivalent in the set is added and nothing else is. -/
theorem mem_insert_iff [IsTrans α lt] {x a : α} {s : OrderedSet α lt}
    (h : ∀ y ∈ s, ¬ Equivalent lt x y) : a ∈ s.insert x ↔ a ∈ s ∨ a = x := by
  constructor
  · exact mem_or_eq_of_mem_insert
  · rintro (ha | rfl)
    · exact mem_insert_of_mem ha
    · exact mem_insertList_self h

/-! ## Search and removal -/

/-- The element equivalent to `x`, if there is one. -/
def find? (x : α) (s : OrderedSet α lt) : Option α :=
  s.elems.find? fun y => decide (Equivalent lt x y)

theorem find?_isSome_of_mem [Std.Irrefl lt] {x : α} {s : OrderedSet α lt}
    (h : x ∈ s) : (s.find? x).isSome := by
  refine List.find?_isSome.mpr ⟨x, h, ?_⟩
  exact decide_eq_true ⟨irrefl x, irrefl x⟩

theorem find?_eq_some {x y : α} {s : OrderedSet α lt} (h : s.find? x = some y) :
    y ∈ s ∧ Equivalent lt x y :=
  ⟨List.mem_of_find?_eq_some h, by simpa using List.find?_some h⟩

/-- Removal of the element equivalent to `x`. -/
def erase (x : α) (s : OrderedSet α lt) : OrderedSet α lt :=
  ⟨s.elems.filter fun y => decide (¬ Equivalent lt x y), s.sorted.filter _⟩

@[simp] theorem mem_erase {x a : α} {s : OrderedSet α lt} :
    a ∈ s.erase x ↔ a ∈ s ∧ ¬ Equivalent lt x a := by
  simp [mem_def, erase]

end OrderedSet

/-! ## Maps -/

/-- A finite map iterated in the order of `lt` on its keys. -/
structure OrderedMap (κ : Type u) (β : Type v) (lt : κ → κ → Prop) where
  entries : List (κ × β)
  sorted : entries.Pairwise fun a b => lt a.1 b.1

namespace OrderedMap

variable {κ : Type u} {β : Type v} {lt : κ → κ → Prop}

/-- The map without entries. -/
def empty : OrderedMap κ β lt := ⟨[], List.Pairwise.nil⟩

instance : Inhabited (OrderedMap κ β lt) := ⟨empty⟩

/-- The keys in iteration order. -/
def keys (m : OrderedMap κ β lt) : List κ := m.entries.map (·.1)

theorem keys_sorted (m : OrderedMap κ β lt) : m.keys.Pairwise lt :=
  List.pairwise_map.mpr m.sorted

/-- Keep the entries that satisfy `p`: what a loop that erases while it iterates
leaves behind. -/
def filter (p : κ × β → Bool) (m : OrderedMap κ β lt) : OrderedMap κ β lt :=
  ⟨m.entries.filter p, m.sorted.filter p⟩

@[simp] theorem filter_entries (p : κ × β → Bool) (m : OrderedMap κ β lt) :
    (m.filter p).entries = m.entries.filter p := rfl

/-- Assign `v` to every key. -/
def fill (v : β) (m : OrderedMap κ β lt) : OrderedMap κ β lt :=
  ⟨m.entries.map fun e => (e.1, v), by
    rw [List.pairwise_map]
    exact m.sorted⟩

theorem mem_fill {v : β} {m : OrderedMap κ β lt} {e : κ × β} :
    e ∈ (m.fill v).entries ↔ e.1 ∈ m.keys ∧ e.2 = v := by
  obtain ⟨k, b⟩ := e
  constructor
  · intro h
    obtain ⟨a, ha, hab⟩ := List.mem_map.mp h
    cases hab
    exact ⟨List.mem_map.mpr ⟨a, ha, rfl⟩, rfl⟩
  · rintro ⟨h, rfl⟩
    obtain ⟨a, ha, rfl⟩ := List.mem_map.mp h
    exact List.mem_map.mpr ⟨a, ha, rfl⟩

variable [DecidableRel lt]

/-- The entry whose key is equivalent to `k`. -/
def find? (k : κ) (m : OrderedMap κ β lt) : Option (κ × β) :=
  m.entries.find? fun e => decide (Equivalent lt k e.1)

theorem find?_eq_some {k : κ} {m : OrderedMap κ β lt} {e : κ × β}
    (h : m.find? k = some e) : e ∈ m.entries ∧ Equivalent lt k e.1 :=
  ⟨List.mem_of_find?_eq_some h, by simpa using List.find?_some h⟩

/-- Assign `v` to the key `k`.  A key equivalent to `k` that is already there is
kept and only its value changes. -/
def setList (lt : κ → κ → Prop) [DecidableRel lt] (k : κ) (v : β) :
    List (κ × β) → List (κ × β)
  | [] => [(k, v)]
  | e :: rest =>
      if lt k e.1 then (k, v) :: e :: rest
      else if lt e.1 k then e :: setList lt k v rest
      else (e.1, v) :: rest

theorem mem_setList_cases {k : κ} {v : β} {l : List (κ × β)} {e : κ × β}
    (h : e ∈ setList lt k v l) :
    e ∈ l ∨ e = (k, v) ∨ (e.2 = v ∧ ∃ a ∈ l, a.1 = e.1) := by
  induction l with
  | nil => exact Or.inr (Or.inl (by simpa [setList] using h))
  | cons a rest ih =>
      unfold setList at h
      split at h
      · rcases List.mem_cons.mp h with h | h
        · exact Or.inr (Or.inl h)
        · exact Or.inl h
      · split at h
        · rcases List.mem_cons.mp h with rfl | h
          · exact Or.inl List.mem_cons_self
          · rcases ih h with h | h | ⟨hv, b, hb, hbe⟩
            · exact Or.inl (List.mem_cons_of_mem a h)
            · exact Or.inr (Or.inl h)
            · exact Or.inr (Or.inr ⟨hv, b, List.mem_cons_of_mem a hb, hbe⟩)
        · rcases List.mem_cons.mp h with rfl | h
          · exact Or.inr (Or.inr ⟨rfl, a, List.mem_cons_self, rfl⟩)
          · exact Or.inl (List.mem_cons_of_mem a h)

theorem setList_sorted [IsTrans κ lt] {k : κ} {v : β} {l : List (κ × β)}
    (h : l.Pairwise fun a b => lt a.1 b.1) :
    (setList lt k v l).Pairwise fun a b => lt a.1 b.1 := by
  induction l with
  | nil => simp [setList]
  | cons a rest ih =>
      obtain ⟨ha, hrest⟩ := List.pairwise_cons.mp h
      unfold setList
      split
      · rename_i hka
        refine List.pairwise_cons.mpr ⟨?_, h⟩
        intro e he
        rcases List.mem_cons.mp he with rfl | he
        · exact hka
        · exact IsTrans.trans k a.1 e.1 hka (ha e he)
      · split
        · rename_i hak
          refine List.pairwise_cons.mpr ⟨?_, ih hrest⟩
          intro e he
          rcases mem_setList_cases he with he | rfl | ⟨_, b, hb, hbe⟩
          · exact ha e he
          · exact hak
          · exact hbe ▸ ha b hb
        · exact List.pairwise_cons.mpr ⟨ha, hrest⟩

/-- `m[k] = v`. -/
def set [IsTrans κ lt] (k : κ) (v : β) (m : OrderedMap κ β lt) :
    OrderedMap κ β lt :=
  ⟨setList lt k v m.entries, setList_sorted m.sorted⟩

theorem mem_setList_iff [IsStrictWeakOrder κ lt] {k : κ} {v : β}
    {l : List (κ × β)} {e : κ × β} (h : l.Pairwise fun a b => lt a.1 b.1) :
    e ∈ setList lt k v l ↔
      (e ∈ l ∧ ¬ Equivalent lt k e.1) ∨
      (e.2 = v ∧ (∃ a ∈ l, a.1 = e.1) ∧ Equivalent lt k e.1) ∨
      (e = (k, v) ∧ ∀ a ∈ l, ¬ Equivalent lt k a.1) := by
  induction l with
  | nil => simp [setList]
  | cons a rest ih =>
      obtain ⟨ha, hrest⟩ := List.pairwise_cons.mp h
      obtain ⟨ak, av⟩ := a
      obtain ⟨ek, ev⟩ := e
      unfold setList
      split
      · -- `k` precedes the whole list, so nothing in it is equivalent to `k`
        rename_i hka
        have hfar : ∀ b ∈ (ak, av) :: rest, ¬ Equivalent lt k b.1 := by
          intro b hb heq
          rcases List.mem_cons.mp hb with rfl | hb
          · exact heq.1 hka
          · exact heq.1 (IsTrans.trans k ak b.1 hka (ha b hb))
        rw [List.mem_cons]
        constructor
        · rintro (h | h)
          · exact Or.inr (Or.inr ⟨h, hfar⟩)
          · exact Or.inl ⟨h, hfar _ h⟩
        · rintro (⟨h, _⟩ | ⟨_, ⟨b, hb, hbe⟩, heq⟩ | ⟨h, _⟩)
          · exact Or.inr h
          · exact absurd (hbe ▸ heq) (hfar b hb)
          · exact Or.inl h
      · rename_i hka
        split
        · rename_i hak
          have hne : ¬ Equivalent lt k ak := fun heq => heq.2 hak
          rw [List.mem_cons, ih hrest]
          constructor
          · rintro (h | ⟨h, hn⟩ | ⟨hv, ⟨b, hb, hbe⟩, heq⟩ | ⟨h, hn⟩)
            · cases h
              exact Or.inl ⟨List.mem_cons_self, hne⟩
            · exact Or.inl ⟨List.mem_cons_of_mem _ h, hn⟩
            · exact Or.inr (Or.inl ⟨hv, ⟨b, List.mem_cons_of_mem _ hb, hbe⟩, heq⟩)
            · exact Or.inr (Or.inr ⟨h, List.forall_mem_cons.mpr ⟨hne, hn⟩⟩)
          · rintro (⟨h, hn⟩ | ⟨hv, ⟨b, hb, hbe⟩, heq⟩ | ⟨h, hn⟩)
            · rcases List.mem_cons.mp h with h | h
              · exact Or.inl h
              · exact Or.inr (Or.inl ⟨h, hn⟩)
            · rcases List.mem_cons.mp hb with rfl | hb
              · cases hbe
                exact absurd heq hne
              · exact Or.inr (Or.inr (Or.inl ⟨hv, ⟨b, hb, hbe⟩, heq⟩))
            · exact Or.inr (Or.inr (Or.inr ⟨h, fun b hb => hn b (List.mem_cons_of_mem _ hb)⟩))
        · -- the head is the equivalent key, and the rest lies beyond it
          rename_i hak
          have heq : Equivalent lt k ak := ⟨hka, hak⟩
          have hfar : ∀ b ∈ rest, ¬ Equivalent lt k b.1 :=
            fun b hb => not_equivalent_of_lt heq (ha b hb)
          rw [List.mem_cons]
          constructor
          · rintro (h | h)
            · cases h
              exact Or.inr (Or.inl ⟨rfl, ⟨_, List.mem_cons_self, rfl⟩, heq⟩)
            · exact Or.inl ⟨List.mem_cons_of_mem _ h, hfar _ h⟩
          · rintro (⟨h, hn⟩ | ⟨hv, ⟨b, hb, hbe⟩, heq'⟩ | ⟨_, hn⟩)
            · rcases List.mem_cons.mp h with h | h
              · cases h
                exact absurd heq hn
              · exact Or.inr h
            · rcases List.mem_cons.mp hb with rfl | hb
              · cases hbe
                cases hv
                exact Or.inl rfl
              · exact absurd (hbe ▸ heq') (hfar b hb)
            · exact absurd heq (hn _ List.mem_cons_self)

/-- What an assignment leaves in the map: the untouched entries, the reassigned
one under the key it already had, or a new entry. -/
theorem mem_set_iff [IsStrictWeakOrder κ lt] {k : κ} {v : β}
    {m : OrderedMap κ β lt} {e : κ × β} :
    e ∈ (m.set k v).entries ↔
      (e ∈ m.entries ∧ ¬ Equivalent lt k e.1) ∨
      (e.2 = v ∧ e.1 ∈ m.keys ∧ Equivalent lt k e.1) ∨
      (e = (k, v) ∧ ∀ k' ∈ m.keys, ¬ Equivalent lt k k') := by
  rw [show (m.set k v).entries = setList lt k v m.entries from rfl,
    mem_setList_iff m.sorted]
  simp only [keys, List.mem_map, forall_exists_index, and_imp, forall_apply_eq_imp_iff₂]

end OrderedMap

end DragonDevice.Lib
