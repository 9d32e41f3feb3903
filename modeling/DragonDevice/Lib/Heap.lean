/-
  Lib/Heap.lean --- objects that are allocated and freed, and two programs in step.

  A pointer is the number of an allocation and is never given twice, so that a pointer to a
  freed object stays dangling.  Reading or freeing through such a pointer has no result.
  Two computations agree when they end in the same way, with results that are related.
-/
import DragonDevice.Lib.DepthFirst
import DragonDevice.Lib.SlotTable

set_option autoImplicit false

namespace DragonDevice.Lib

universe u v w x

/-! ## Heaps -/

/-- The live objects by their pointers. -/
structure Heap (α : Type u) where
  objects : List (Nat × α)
  next : Nat
  fresh : ∀ o ∈ objects, o.1 < next
  distinct : (objects.map Prod.fst).Nodup

namespace Heap

variable {α : Type u}

def empty : Heap α := ⟨[], 0, fun _ h => absurd h List.not_mem_nil, List.nodup_nil⟩

/-- The object behind a pointer. -/
def read (h : Heap α) (p : Nat) : Option α := List.lookup p h.objects

def alloc (h : Heap α) (a : α) : Heap α :=
  { objects := (h.next, a) :: h.objects
    next := h.next + 1
    fresh := fun o ho => (List.mem_cons.mp ho).elim
      (fun heq => Nat.lt_succ_of_le (Nat.le_of_eq (congrArg Prod.fst heq)))
      fun ho => Nat.lt_succ_of_lt (h.fresh o ho)
    distinct := List.nodup_cons.mpr ⟨fun hmem =>
      (List.mem_map.mp hmem).elim fun o ho => Nat.lt_irrefl _ (ho.2 ▸ h.fresh o ho.1),
      h.distinct⟩ }

def free (h : Heap α) (p : Nat) : Option (Heap α) :=
  if (h.read p).isSome then
    some
      { objects := h.objects.filter fun o => o.1 != p
        next := h.next
        fresh := fun o ho => h.fresh o (List.mem_filter.mp ho).1
        distinct := h.distinct.sublist (List.filter_sublist.map Prod.fst) }
  else none

/-- How many live objects pass a test. -/
def count (h : Heap α) (test : α → Bool) : Nat := h.objects.countP fun o => test o.2

@[simp] theorem read_empty (p : Nat) : (empty : Heap α).read p = none := rfl

theorem lt_of_read {h : Heap α} {p : Nat} {a : α} (hp : h.read p = some a) : p < h.next := by
  exact h.fresh (p, a) (SlotTable.mem_of_lookup_eq hp)

theorem read_next (h : Heap α) : h.read h.next = none := by
  cases hp : h.read h.next with
  | none => rfl
  | some a => exact absurd (lt_of_read hp) (Nat.lt_irrefl _)

theorem read_alloc (h : Heap α) (a : α) (p : Nat) :
    (h.alloc a).read p = if p = h.next then some a else h.read p := by
  unfold alloc read
  rw [List.lookup_cons]
  by_cases hp : p = h.next
  · rw [if_pos hp, hp, beq_self_eq_true]
  · rw [if_neg hp, beq_eq_false_iff_ne.mpr hp]

theorem read_alloc_self (h : Heap α) (a : α) : (h.alloc a).read h.next = some a := by
  rw [read_alloc, if_pos rfl]

theorem read_alloc_of_some {h : Heap α} {p : Nat} {b : α} (a : α) (hp : h.read p = some b) :
    (h.alloc a).read p = some b := by
  rw [read_alloc, if_neg (Nat.ne_of_lt (lt_of_read hp)), hp]

theorem lookup_filter_ne (l : List (Nat × α)) (p q : Nat) :
    List.lookup q (l.filter fun o => o.1 != p) = if q = p then none else List.lookup q l := by
  induction l with
  | nil => simp
  | cons o l ih =>
      by_cases ho : o.1 = p
      · rw [List.filter_cons_of_neg (by simp [ho]), ih]
        by_cases hq : q = p
        · rw [if_pos hq, if_pos hq]
        · have hne : (q == o.1) = false := beq_eq_false_iff_ne.mpr fun h => hq (h.trans ho)
          rw [if_neg hq, if_neg hq, List.lookup_cons, hne]
      · rw [List.filter_cons_of_pos (by simp [ho]), List.lookup_cons, List.lookup_cons, ih]
        by_cases hq : q = p
        · have hne : (q == o.1) = false := beq_eq_false_iff_ne.mpr fun h => ho (h.symm.trans hq)
          rw [hne, if_pos hq]
        · rw [if_neg hq, if_neg hq]

/-- An object that is live can be freed, and the others stay. -/
theorem free_of_read {h : Heap α} {p : Nat} {a : α} (hp : h.read p = some a) :
    ∃ h', h.free p = some h' ∧ h'.next = h.next ∧
      ∀ q, h'.read q = if q = p then none else h.read q := by
  unfold free
  rw [if_pos (by rw [hp]; rfl)]
  exact ⟨_, rfl, rfl, fun q => lookup_filter_ne h.objects p q⟩

theorem count_alloc (h : Heap α) (a : α) (test : α → Bool) :
    (h.alloc a).count test = h.count test + if test a then 1 else 0 :=
  List.countP_cons

/-- Objects that fail the test are freed without being counted. -/
theorem count_free {h h' : Heap α} {p : Nat} {test : α → Bool} (hfree : h.free p = some h')
    (htest : ∀ a, h.read p = some a → test a = false) : h'.count test = h.count test := by
  unfold free at hfree
  split at hfree
  · cases hfree
    unfold count
    rw [List.countP_filter]
    apply List.countP_congr
    intro o ho
    rw [Bool.and_eq_true, bne_iff_ne]
    refine ⟨And.left, fun hpass => ⟨hpass, fun heq => ?_⟩⟩
    have hread : h.read p = some o.2 := by
      rw [← heq]
      exact SlotTable.lookup_eq_of_mem h.distinct ho
    rw [htest o.2 hread] at hpass
    cases hpass
  · cases hfree

end Heap

/-! ## Computations in step -/

namespace Outcome

variable {α : Type u} {β : Type v} {α' : Type w} {β' : Type x}

/-- Both end in the same way, with related results. -/
inductive Agree (R : α → β → Prop) : Outcome α → Outcome β → Prop where
  | done {a : α} {b : β} (h : R a b) : Agree R (.done a) (.done b)
  | failed : Agree R .failed .failed
  | fault : Agree R .fault .fault
  | running : Agree R .running .running

theorem Agree.bind {R : α → β → Prop} {S : α' → β' → Prop} {x : Outcome α} {y : Outcome β}
    {f : α → Outcome α'} {g : β → Outcome β'} (h : Agree R x y)
    (hnext : ∀ a b, R a b → Agree S (f a) (g b)) : Agree S (x.bind f) (y.bind g) := by
  cases h with
  | done h => exact hnext _ _ h
  | failed => exact .failed
  | fault => exact .fault
  | running => exact .running

/-- One of them goes on, and succeeds in it. -/
theorem Agree.bind_left {R : α → β → Prop} {S : α' → β → Prop} {x : Outcome α} {y : Outcome β}
    {f : α → Outcome α'} (h : Agree R x y)
    (hnext : ∀ a b, R a b → ∃ a', f a = .done a' ∧ S a' b) : Agree S (x.bind f) y := by
  cases h with
  | done h =>
      obtain ⟨a', hdone, hrel⟩ := hnext _ _ h
      rw [done_bind, hdone]
      exact .done hrel
  | failed => exact .failed
  | fault => exact .fault
  | running => exact .running

theorem Agree.of_done {R : α → β → Prop} {a : α} {y : Outcome β} (h : Agree R (.done a) y) :
    ∃ b, y = .done b ∧ R a b := by
  cases h with
  | done h => exact ⟨_, rfl, h⟩

theorem Agree.of_done_right {R : α → β → Prop} {x : Outcome α} {b : β} (h : Agree R x (.done b)) :
    ∃ a, x = .done a ∧ R a b := by
  cases h with
  | done h => exact ⟨_, rfl, h⟩

theorem Agree.mono {R S : α → β → Prop} {x : Outcome α} {y : Outcome β} (h : Agree R x y)
    (himp : ∀ a b, R a b → S a b) : Agree S x y := by
  cases h with
  | done h => exact .done (himp _ _ h)
  | failed => exact .failed
  | fault => exact .fault
  | running => exact .running

theorem Agree.refl_of {R : α → α → Prop} {x : Outcome α} (h : ∀ a, x = .done a → R a a) :
    Agree R x x := by
  cases x with
  | done a => exact .done (h a rfl)
  | failed => exact .failed
  | fault => exact .fault
  | running => exact .running

/-- Loops in step, over what has been gone through. -/
theorem Agree.fold {ι : Type*} {R : List ι → α → β → Prop} {f : ι → α → Outcome α}
    {g : ι → β → Outcome β}
    (hstep : ∀ seen i a b, R seen a b → Agree (R (seen ++ [i])) (f i a) (g i b)) :
    ∀ (l seen : List ι) (a : α) (b : β), R seen a b →
      Agree (R (seen ++ l)) (foldOutcome f l a) (foldOutcome g l b) := by
  intro l
  induction l with
  | nil =>
      intro seen a b h
      rw [List.append_nil]
      exact .done h
  | cons i l ih =>
      intro seen a b h
      refine (hstep seen i a b h).bind fun a' b' h' => ?_
      have hrest := ih (seen ++ [i]) a' b' h'
      rw [List.append_assoc] at hrest
      exact hrest

/-- Runs in step. -/
theorem Agree.run {ι : Type*} {R : α → β → Prop} {f : ι → α → Outcome α} {g : ι → β → Outcome β}
    (hstep : ∀ i a b, R a b → Agree R (f i a) (g i b)) (l : List ι) {a : α} {b : β} (h : R a b) :
    Agree R (foldOutcome f l a) (foldOutcome g l b) :=
  fold (fun _ => hstep) l [] a b h

/-- It is done, with a result that passes a test. -/
def check (test : α → Bool) : Outcome α → Bool
  | .done a => test a
  | _ => false

theorem exists_of_check {x : Outcome α} {test : α → Bool} (h : x.check test = true) :
    ∃ a, x = .done a ∧ test a = true := by
  cases x with
  | done a => exact ⟨a, rfl, h⟩
  | failed => cases h
  | fault => cases h
  | running => cases h

end Outcome

end DragonDevice.Lib
