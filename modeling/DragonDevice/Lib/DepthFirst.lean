/-
  Lib/DepthFirst.lean --- a recursive depth-first walk with an action on leaving.

  The walk marks a node when it enters it, follows its successors in order, and runs an
  action when it leaves it.  A successor may be missing, which ends the walk with a failure.
  The action may fail, fault or not end.  `depthFirst_eq` takes the two apart: the order in
  which the nodes are left depends on the graph alone, and the actions are run along it.
-/
import Mathlib.Logic.Relation
import Mathlib.Data.List.Nodup

set_option autoImplicit false

namespace DragonDevice.Lib

universe u v w

/-! ## Outcomes -/

/-- How a function ends: with a result, with a failure it reports, by doing something
undefined, or not yet. -/
inductive Outcome (α : Type u) where
  | done (a : α)
  | failed
  | fault
  | running
  deriving DecidableEq

namespace Outcome

variable {α : Type u} {β : Type v}

def bind (x : Outcome α) (f : α → Outcome β) : Outcome β :=
  match x with
  | .done a => f a
  | .failed => .failed
  | .fault => .fault
  | .running => .running

@[simp] theorem done_bind (a : α) (f : α → Outcome β) : (done a).bind f = f a := rfl

@[simp] theorem failed_bind (f : α → Outcome β) : (failed : Outcome α).bind f = .failed := rfl

@[simp] theorem fault_bind (f : α → Outcome β) : (fault : Outcome α).bind f = .fault := rfl

@[simp] theorem running_bind (f : α → Outcome β) : (running : Outcome α).bind f = .running := rfl

theorem bind_assoc {γ : Type w} (x : Outcome α) (f : α → Outcome β) (g : β → Outcome γ) :
    (x.bind f).bind g = x.bind fun a => (f a).bind g := by
  cases x with
  | done a => rfl
  | failed => rfl
  | fault => rfl
  | running => rfl

theorem bind_eq_done {x : Outcome α} {f : α → Outcome β} {b : β} (h : x.bind f = .done b) :
    ∃ a, x = .done a ∧ f a = .done b := by
  cases x with
  | done a => exact ⟨a, rfl, h⟩
  | failed => cases h
  | fault => cases h
  | running => cases h

/-- It comes to an end that is defined. -/
def Returns (x : Outcome α) : Prop := (∃ a, x = .done a) ∨ x = .failed

theorem Returns.bind {x : Outcome α} {f : α → Outcome β} (h : x.Returns)
    (hf : ∀ a, x = .done a → (f a).Returns) : (x.bind f).Returns := by
  cases h with
  | inl hdone =>
      obtain ⟨a, ha⟩ := hdone
      have hnext := hf a ha
      rw [ha]
      exact hnext
  | inr hfailed =>
      rw [hfailed]
      exact Or.inr rfl

/-- The second has run further than the first, or as far. -/
def Below (x y : Outcome α) : Prop := x = .running ∨ x = y

theorem Below.refl (x : Outcome α) : Below x x := Or.inr rfl

theorem Below.eq_of_ne_running {x y : Outcome α} (h : Below x y) (hx : x ≠ .running) : y = x := by
  cases h with
  | inl hrunning => exact absurd hrunning hx
  | inr heq => exact heq.symm

theorem Below.bind {x y : Outcome α} {f g : α → Outcome β} (h : Below x y)
    (hfg : ∀ a, Below (f a) (g a)) : Below (x.bind f) (y.bind g) := by
  cases h with
  | inl hrunning =>
      rw [hrunning]
      exact Or.inl rfl
  | inr heq =>
      rw [heq]
      cases y with
      | done a => exact hfg a
      | failed => exact Or.inr rfl
      | fault => exact Or.inr rfl
      | running => exact Or.inr rfl

end Outcome

/-- Run an action on the elements of a list in order. -/
def foldOutcome {α : Type u} {σ : Type v} (leave : α → σ → Outcome σ) : List α → σ → Outcome σ
  | [], s => .done s
  | a :: rest, s => (leave a s).bind (foldOutcome leave rest)

theorem foldOutcome_append {α : Type u} {σ : Type v} (leave : α → σ → Outcome σ) (l l' : List α)
    (s : σ) :
    foldOutcome leave (l ++ l') s = (foldOutcome leave l s).bind (foldOutcome leave l') := by
  induction l generalizing s with
  | nil => rfl
  | cons a l ih =>
      rw [List.cons_append, foldOutcome, foldOutcome, Outcome.bind_assoc]
      congr 1
      funext s'
      exact ih s'

/-- What each action keeps, with the elements that are done, holds at the end. -/
theorem foldOutcome_invariant {α : Type u} {σ : Type v} {leave : α → σ → Outcome σ}
    {I : List α → σ → Prop}
    (hstep : ∀ seen a s s', I seen s → leave a s = .done s' → I (seen ++ [a]) s') :
    ∀ (l seen : List α) (s s' : σ), I seen s → foldOutcome leave l s = .done s' →
      I (seen ++ l) s' := by
  intro l
  induction l with
  | nil =>
      intro seen s s' hI hrun
      cases hrun
      rw [List.append_nil]
      exact hI
  | cons a l ih =>
      intro seen s s' hI hrun
      obtain ⟨s₁, hleave, hrest⟩ := Outcome.bind_eq_done hrun
      have hnext := ih (seen ++ [a]) s₁ s' (hstep seen a s s₁ hI hleave) hrest
      rw [List.append_assoc] at hnext
      exact hnext

/-- A run of actions returns, if each does where the ones before it have led. -/
theorem foldOutcome_returns {α : Type u} {σ : Type v} {leave : α → σ → Outcome σ} {I : σ → Prop}
    (hkeep : ∀ a s s', I s → leave a s = .done s' → I s') :
    ∀ (l : List α) (s : σ), I s → (∀ a ∈ l, ∀ s, I s → (leave a s).Returns) →
      (foldOutcome leave l s).Returns := by
  intro l
  induction l with
  | nil =>
      intro s _ _
      exact Or.inl ⟨s, rfl⟩
  | cons a l ih =>
      intro s hI hl
      refine (hl a List.mem_cons_self s hI).bind fun s' hs' => ?_
      exact ih s' (hkeep a s s' hI hs') fun b hb => hl b (List.mem_cons_of_mem a hb)

/-- Actions that succeed and keep an invariant, one after the other. -/
theorem foldOutcome_done {α : Type u} {σ : Type v} {leave : α → σ → Outcome σ} {I : σ → Prop} :
    ∀ {l : List α}, (∀ a ∈ l, ∀ s, I s → ∃ s', leave a s = .done s' ∧ I s') →
      ∀ s, I s → ∃ s', foldOutcome leave l s = .done s' ∧ I s' := by
  intro l
  induction l with
  | nil => exact fun _ s hs => ⟨s, rfl, hs⟩
  | cons a l ih =>
      intro h s hs
      obtain ⟨ha, hl⟩ := List.forall_mem_cons.mp h
      obtain ⟨s₁, hfirst, hs₁⟩ := ha s hs
      obtain ⟨s', hrest, hs'⟩ := ih hl s₁ hs₁
      exact ⟨s', by rw [foldOutcome, hfirst]; exact hrest, hs'⟩

theorem foldOutcome_below {α : Type u} {σ : Type v} {leave leave' : α → σ → Outcome σ}
    (h : ∀ a s, (leave a s).Below (leave' a s)) :
    ∀ (l : List α) (s : σ), (foldOutcome leave l s).Below (foldOutcome leave' l s) := by
  intro l
  induction l with
  | nil =>
      intro s
      exact Outcome.Below.refl _
  | cons a l ih =>
      intro s
      exact (h a s).bind ih

/-! ## The walk -/

section Walk

variable {α : Type u} {σ : Type v}

/-- Follow the successors in order, with the nodes marked so far and the state. -/
def followAll (follow : α → List α × σ → Outcome (List α × σ)) :
    List (Option α) → List α × σ → Outcome (List α × σ)
  | [], st => .done st
  | none :: _, _ => .failed
  | some b :: rest, st => (follow b st).bind (followAll follow rest)

/-- The walk from `a`, at most `fuel` nodes deep. -/
def depthFirst [DecidableEq α] (succ : α → List (Option α)) (leave : α → σ → Outcome σ) :
    Nat → α → List α × σ → Outcome (List α × σ)
  | 0, _, _ => .running
  | fuel + 1, a, st =>
      if a ∈ st.1 then .done st
      else
        (followAll (depthFirst succ leave fuel) (succ a) (a :: st.1, st.2)).bind fun st =>
          (leave a st.2).bind fun s => .done (st.1, s)

theorem followAll_below {follow follow' : α → List α × σ → Outcome (List α × σ)}
    (h : ∀ a st, (follow a st).Below (follow' a st)) :
    ∀ l st, (followAll follow l st).Below (followAll follow' l st) := by
  intro l
  induction l with
  | nil =>
      intro st
      exact Outcome.Below.refl _
  | cons b rest ih =>
      intro st
      cases b with
      | none => exact Outcome.Below.refl _
      | some b => exact (h b st).bind ih

/-- A deeper walk with actions that run further runs further. -/
theorem depthFirst_below [DecidableEq α] {succ : α → List (Option α)}
    {leave leave' : α → σ → Outcome σ} (h : ∀ a s, (leave a s).Below (leave' a s)) :
    ∀ fuel fuel' a st, fuel ≤ fuel' →
      (depthFirst succ leave fuel a st).Below (depthFirst succ leave' fuel' a st) := by
  intro fuel
  induction fuel with
  | zero =>
      intro fuel' a st _
      exact Or.inl rfl
  | succ fuel ih =>
      intro fuel' a st hle
      cases fuel' with
      | zero => omega
      | succ fuel' =>
          have hfollow : ∀ b st, (depthFirst succ leave fuel b st).Below
              (depthFirst succ leave' fuel' b st) := by
            intro b st
            exact ih fuel' b st (Nat.le_of_succ_le_succ hle)
          unfold depthFirst
          split
          · exact Outcome.Below.refl _
          · refine (followAll_below hfollow (succ a) _).bind fun st => ?_
            exact (h a st.2).bind fun s => Outcome.Below.refl _

/-- How a walk without actions ends. -/
inductive Ending where
  | complete
  | missing
  | cut
  deriving DecidableEq

/-- The nodes a walk leaves, in order, the nodes marked after it, and how it ends. -/
structure Walked (α : Type u) where
  order : List α
  marked : List α
  ending : Ending

/-- Walk on from where a walk ended, if it was complete. -/
def Walked.andThen (w : Walked α) (next : List α → Walked α) : Walked α :=
  match w.ending with
  | .complete =>
      { order := w.order ++ (next w.marked).order
        marked := (next w.marked).marked
        ending := (next w.marked).ending }
  | .missing => w
  | .cut => w

def walkAll (follow : α → List α → Walked α) : List (Option α) → List α → Walked α
  | [], marked => ⟨[], marked, .complete⟩
  | none :: _, marked => ⟨[], marked, .missing⟩
  | some b :: rest, marked => (follow b marked).andThen (walkAll follow rest)

theorem Walked.complete_of_andThen {w : Walked α} {next : List α → Walked α}
    (h : (w.andThen next).ending = .complete) :
    w.ending = .complete ∧ (next w.marked).ending = .complete := by
  obtain ⟨order, marked, ending⟩ := w
  cases ending with
  | complete => exact ⟨rfl, h⟩
  | missing => cases h
  | cut => cases h

/-- The walk without actions. -/
def walk [DecidableEq α] (succ : α → List (Option α)) : Nat → α → List α → Walked α
  | 0, _, marked => ⟨[], marked, .cut⟩
  | fuel + 1, a, marked =>
      if a ∈ marked then ⟨[], marked, .complete⟩
      else
        (walkAll (walk succ fuel) (succ a) (a :: marked)).andThen fun marked =>
          ⟨[a], marked, .complete⟩

/-- What a walk gives when its actions are run along its order. -/
def Walked.run (w : Walked α) (leave : α → σ → Outcome σ) (s : σ) : Outcome (List α × σ) :=
  (foldOutcome leave w.order s).bind fun s =>
    match w.ending with
    | .complete => .done (w.marked, s)
    | .missing => .failed
    | .cut => .running

theorem Walked.run_andThen (w : Walked α) (next : List α → Walked α) (leave : α → σ → Outcome σ)
    (s : σ) :
    (w.andThen next).run leave s = (w.run leave s).bind fun st => (next st.1).run leave st.2 := by
  obtain ⟨order, marked, ending⟩ := w
  cases ending with
  | complete =>
      simp only [Walked.andThen, Walked.run, foldOutcome_append, Outcome.bind_assoc,
        Outcome.done_bind]
  | missing => simp only [Walked.andThen, Walked.run, Outcome.bind_assoc, Outcome.failed_bind]
  | cut => simp only [Walked.andThen, Walked.run, Outcome.bind_assoc, Outcome.running_bind]

variable {succ : α → List (Option α)}

/-- The actions of a walk are run along the order the graph gives. -/
theorem depthFirst_eq [DecidableEq α] (leave : α → σ → Outcome σ) :
    ∀ fuel a st, depthFirst succ leave fuel a st = (walk succ fuel a st.1).run leave st.2 := by
  intro fuel
  induction fuel with
  | zero =>
      intro a st
      rfl
  | succ fuel ih =>
      have hall : ∀ l st, followAll (depthFirst succ leave fuel) l st =
          (walkAll (walk succ fuel) l st.1).run leave st.2 := by
        intro l
        induction l with
        | nil =>
            intro st
            rfl
        | cons b rest ihl =>
            intro st
            cases b with
            | none => rfl
            | some b =>
                rw [followAll, walkAll, Walked.run_andThen, ih b st]
                congr 1
                funext st'
                exact ihl st'
      intro a st
      rw [depthFirst, walk]
      split
      · rfl
      · rw [hall, Walked.run_andThen]
        congr 1
        funext st'
        simp only [Walked.run, foldOutcome, Outcome.bind_assoc, Outcome.done_bind]

end Walk

section Order

variable {α : Type u} {succ : α → List (Option α)}

/-! ## The order of a complete walk -/

/-- Reached along the successors. -/
abbrev Reach (succ : α → List (Option α)) : α → α → Prop :=
  Relation.ReflTransGen fun x y => some y ∈ succ x

/-- `b` stands before `x` in the list. -/
def Before (l : List α) (b x : α) : Prop := ∃ l₁ l₂, l = l₁ ++ x :: l₂ ∧ b ∈ l₁

theorem Before.append_right {l : List α} {b x : α} (h : Before l b x) (l' : List α) :
    Before (l ++ l') b x := by
  obtain ⟨l₁, l₂, hl, hb⟩ := h
  exact ⟨l₁, l₂ ++ l', by rw [hl, List.append_assoc, List.cons_append], hb⟩

theorem Before.append_left {l : List α} {b x : α} (h : Before l b x) (l' : List α) :
    Before (l' ++ l) b x := by
  obtain ⟨l₁, l₂, hl, hb⟩ := h
  exact ⟨l' ++ l₁, l₂, by rw [hl, List.append_assoc], List.mem_append_right l' hb⟩

theorem Before.of_mem {l l' : List α} {b x : α} (hb : b ∈ l) (hx : x ∈ l') :
    Before (l ++ l') b x := by
  obtain ⟨l₁, l₂, hl⟩ := List.append_of_mem hx
  exact ⟨l ++ l₁, l₂, by rw [hl, List.append_assoc], List.mem_append_left l₁ hb⟩

/-- In a list without repetition there is only one place to stand before. -/
theorem Before.mem_left {l₁ l₂ : List α} {b x : α} (h : Before (l₁ ++ x :: l₂) b x)
    (hnodup : (l₁ ++ x :: l₂).Nodup) : b ∈ l₁ := by
  obtain ⟨l₁', l₂', hl, hb⟩ := h
  have hx : x ∉ l₁ := by
    intro hx
    exact (List.nodup_append.mp hnodup).2.2 x hx x List.mem_cons_self rfl
  rw [hl] at hnodup
  have hx' : x ∉ l₁' := by
    intro hx
    exact (List.nodup_append.mp hnodup).2.2 x hx x List.mem_cons_self rfl
  cases List.append_eq_append_iff.mp hl with
  | inl h =>
      obtain ⟨mid, hmid, hrest⟩ := h
      cases mid with
      | nil =>
          rw [List.append_nil] at hmid
          rw [← hmid]
          exact hb
      | cons y mid =>
          rw [List.cons_append] at hrest
          obtain ⟨rfl, _⟩ := List.cons.inj hrest
          exact absurd (by rw [hmid]; exact List.mem_append_right _ List.mem_cons_self) hx'
  | inr h =>
      obtain ⟨mid, hmid, hrest⟩ := h
      rw [hmid]
      exact List.mem_append_left mid hb

/-- What a walk from `roots` has done. -/
structure WalkFacts (succ : α → List (Option α)) (roots : α → Prop) (marked : List α)
    (w : Walked α) : Prop where
  marks : ∀ x, x ∈ marked ∨ x ∈ w.order → x ∈ w.marked
  nodup : w.order.Nodup
  fresh : ∀ x ∈ w.order, x ∉ marked
  reach : ∀ x ∈ w.order, ∃ a, roots a ∧ Reach succ a x
  present : ∀ x ∈ w.order, none ∉ succ x
  earlier : ∀ x ∈ w.order, ∀ b, some b ∈ succ x →
    b ∈ marked ∨ Before w.order b x ∨ Reach succ b x
  /-- a complete walk has left what it marked -/
  leaves : w.ending = .complete → ∀ x, x ∈ w.marked → x ∈ marked ∨ x ∈ w.order
  covers : w.ending = .complete → ∀ a, roots a → a ∈ w.marked

theorem WalkFacts.mono {roots roots' : α → Prop} {marked : List α} {w : Walked α}
    (h : WalkFacts succ roots marked w) (hroots : ∀ a, roots a → roots' a)
    (hend : w.ending ≠ .complete) : WalkFacts succ roots' marked w where
  marks := h.marks
  nodup := h.nodup
  fresh := h.fresh
  reach := fun x hx => (h.reach x hx).imp fun a ha => ⟨hroots a ha.1, ha.2⟩
  present := h.present
  earlier := h.earlier
  leaves := h.leaves
  covers := fun hcomplete => absurd hcomplete hend

/-- Walking on from a walk. -/
theorem WalkFacts.andThen {roots roots' : α → Prop} {marked : List α} {w : Walked α}
    {next : List α → Walked α} (h : WalkFacts succ roots marked w)
    (h' : WalkFacts succ roots' w.marked (next w.marked)) :
    WalkFacts succ (fun a => roots a ∨ roots' a) marked (w.andThen next) := by
  obtain ⟨order, marked₁, ending⟩ := w
  cases ending with
  | missing => exact h.mono (fun _ => Or.inl) (fun hend => nomatch hend)
  | cut => exact h.mono (fun _ => Or.inl) (fun hend => nomatch hend)
  | complete =>
      refine ⟨fun x hx => ?_, ?_, fun x hx => ?_, fun x hx => ?_, fun x hx => ?_,
        fun x hx b hb => ?_, fun hend x hx => ?_, fun hend a ha => ?_⟩
      · apply h'.marks
        cases hx with
        | inl hm => exact Or.inl (h.marks x (Or.inl hm))
        | inr ho =>
            cases List.mem_append.mp ho with
            | inl ho => exact Or.inl (h.marks x (Or.inr ho))
            | inr ho => exact Or.inr ho
      · change (order ++ (next marked₁).order).Nodup
        refine List.nodup_append.mpr ⟨h.nodup, h'.nodup, fun x hx y hy hxy => ?_⟩
        rw [← hxy] at hy
        exact h'.fresh x hy (h.marks x (Or.inr hx))
      · cases List.mem_append.mp hx with
        | inl hx => exact h.fresh x hx
        | inr hx => exact fun hm => h'.fresh x hx (h.marks x (Or.inl hm))
      · cases List.mem_append.mp hx with
        | inl hx =>
            obtain ⟨a, ha, hreach⟩ := h.reach x hx
            exact ⟨a, Or.inl ha, hreach⟩
        | inr hx =>
            obtain ⟨a, ha, hreach⟩ := h'.reach x hx
            exact ⟨a, Or.inr ha, hreach⟩
      · cases List.mem_append.mp hx with
        | inl hx => exact h.present x hx
        | inr hx => exact h'.present x hx
      · cases List.mem_append.mp hx with
        | inl hx =>
            cases h.earlier x hx b hb with
            | inl hm => exact Or.inl hm
            | inr hrest =>
                cases hrest with
                | inl hbefore => exact Or.inr (Or.inl (hbefore.append_right _))
                | inr hreach => exact Or.inr (Or.inr hreach)
        | inr hx =>
            cases h'.earlier x hx b hb with
            | inl hm =>
                cases h.leaves rfl b hm with
                | inl hm => exact Or.inl hm
                | inr ho => exact Or.inr (Or.inl (Before.of_mem ho hx))
            | inr hrest =>
                cases hrest with
                | inl hbefore => exact Or.inr (Or.inl (hbefore.append_left _))
                | inr hreach => exact Or.inr (Or.inr hreach)
      · cases h'.leaves hend x hx with
        | inl hm =>
            cases h.leaves rfl x hm with
            | inl hm => exact Or.inl hm
            | inr ho => exact Or.inr (List.mem_append_left _ ho)
        | inr ho => exact Or.inr (List.mem_append_right _ ho)
      · cases ha with
        | inl ha => exact h'.marks a (Or.inl (h.covers rfl a ha))
        | inr ha => exact h'.covers hend a ha

end Order

/-! ## What a walk does -/

section Facts

variable {α : Type u} {succ : α → List (Option α)}

/-- The walk over the successors of `a`, seen from before `a` was marked, while `a` is not
left. -/
theorem WalkFacts.inside {a : α} {marked : List α} {w : Walked α}
    (h : WalkFacts succ (fun b => some b ∈ succ a) (a :: marked) w) {ending : Ending}
    (hend : ending ≠ .complete) :
    WalkFacts succ (fun b => b = a) marked { w with ending := ending } := by
  have hreach : ∀ x ∈ w.order, Reach succ a x := by
    intro x hx
    obtain ⟨b, hb, hreach⟩ := h.reach x hx
    exact Relation.ReflTransGen.head hb hreach
  refine ⟨fun x hx => ?_, h.nodup, fun x hx hm => h.fresh x hx (List.mem_cons_of_mem a hm),
    fun x hx => ⟨a, rfl, hreach x hx⟩, h.present, fun x hx b hb => ?_,
    fun hcomplete => absurd hcomplete hend, fun hcomplete => absurd hcomplete hend⟩
  · apply h.marks
    cases hx with
    | inl hm => exact Or.inl (List.mem_cons_of_mem a hm)
    | inr ho => exact Or.inr ho
  · cases h.earlier x hx b hb with
    | inl hm =>
        cases List.mem_cons.mp hm with
        | inl heq =>
            rw [heq]
            exact Or.inr (Or.inr (hreach x hx))
        | inr hm => exact Or.inl hm
    | inr hrest => exact Or.inr hrest

/-- Leaving `a` after its successors. -/
theorem WalkFacts.leave {a : α} {marked : List α} {w : Walked α} (ha : a ∉ marked)
    (hnone : w.ending = .complete → none ∉ succ a)
    (h : WalkFacts succ (fun b => some b ∈ succ a) (a :: marked) w) :
    WalkFacts succ (fun b => b = a) marked (w.andThen fun marked => ⟨[a], marked, .complete⟩) := by
  obtain ⟨order, marked₁, ending⟩ := w
  cases ending with
  | missing => exact h.inside (fun hend => nomatch hend)
  | cut => exact h.inside (fun hend => nomatch hend)
  | complete =>
      have hin := h.inside (show Ending.cut ≠ .complete from fun hend => nomatch hend)
      have hmark : a ∈ marked₁ := h.marks a (Or.inl List.mem_cons_self)
      refine ⟨fun x hx => ?_, ?_, fun x hx => ?_, fun x hx => ?_, fun x hx => ?_,
        fun x hx b hb => ?_, fun _ x hx => ?_, fun _ b hb => ?_⟩
      · cases hx with
        | inl hm => exact hin.marks x (Or.inl hm)
        | inr ho =>
            cases List.mem_append.mp ho with
            | inl ho => exact hin.marks x (Or.inr ho)
            | inr ho =>
                rw [List.mem_singleton.mp ho]
                exact hmark
      · refine List.nodup_append.mpr ⟨h.nodup, List.nodup_singleton a, fun x hx y hy hxy => ?_⟩
        rw [hxy, List.mem_singleton.mp hy] at hx
        exact h.fresh a hx List.mem_cons_self
      · cases List.mem_append.mp hx with
        | inl hx => exact hin.fresh x hx
        | inr hx =>
            rw [List.mem_singleton.mp hx]
            exact ha
      · cases List.mem_append.mp hx with
        | inl hx => exact hin.reach x hx
        | inr hx => exact ⟨a, rfl, by rw [List.mem_singleton.mp hx]⟩
      · cases List.mem_append.mp hx with
        | inl hx => exact h.present x hx
        | inr hx =>
            rw [List.mem_singleton.mp hx]
            exact hnone rfl
      · cases List.mem_append.mp hx with
        | inl hx =>
            cases hin.earlier x hx b hb with
            | inl hm => exact Or.inl hm
            | inr hrest =>
                cases hrest with
                | inl hbefore => exact Or.inr (Or.inl (hbefore.append_right _))
                | inr hr => exact Or.inr (Or.inr hr)
        | inr hx =>
            rw [List.mem_singleton.mp hx] at hb ⊢
            cases h.leaves rfl b (h.covers rfl b hb) with
            | inl hm =>
                cases List.mem_cons.mp hm with
                | inl heq =>
                    rw [heq]
                    exact Or.inr (Or.inr Relation.ReflTransGen.refl)
                | inr hm => exact Or.inl hm
            | inr ho => exact Or.inr (Or.inl (Before.of_mem ho List.mem_cons_self))
      · cases h.leaves rfl x hx with
        | inl hm =>
            cases List.mem_cons.mp hm with
            | inl heq =>
                rw [heq]
                exact Or.inr (List.mem_append_right _ List.mem_cons_self)
            | inr hm => exact Or.inl hm
        | inr ho => exact Or.inr (List.mem_append_left _ ho)
      · rw [hb]
        exact hmark

/-- A walk that does not leave anything. -/
theorem WalkFacts.nothing {roots : α → Prop} {marked : List α} {ending : Ending}
    (h : ending = .complete → ∀ a, roots a → a ∈ marked) :
    WalkFacts succ roots marked ⟨[], marked, ending⟩ := by
  refine ⟨fun x hx => ?_, List.nodup_nil, ?_, ?_, ?_, ?_, fun _ x hx => Or.inl hx, h⟩
  · cases hx with
    | inl hm => exact hm
    | inr ho => cases ho
  · exact fun x hx => nomatch hx
  · exact fun x hx => nomatch hx
  · exact fun x hx => nomatch hx
  · exact fun x hx => nomatch hx

theorem walkAll_facts {follow : α → List α → Walked α}
    (hfollow : ∀ a marked, WalkFacts succ (fun b => b = a) marked (follow a marked)) :
    ∀ l marked, WalkFacts succ (fun b => some b ∈ l) marked (walkAll follow l marked) ∧
      ((walkAll follow l marked).ending = .complete → none ∉ l) := by
  intro l
  induction l with
  | nil =>
      intro marked
      exact ⟨WalkFacts.nothing (fun _ a ha => nomatch ha), fun _ => List.not_mem_nil⟩
  | cons b rest ih =>
      intro marked
      cases b with
      | none => exact ⟨WalkFacts.nothing (fun hend => nomatch hend), (fun hend => nomatch hend)⟩
      | some b =>
          have hroots : (fun a => some a ∈ some b :: rest) = fun a => a = b ∨ some a ∈ rest := by
            funext a
            rw [List.mem_cons, Option.some_inj]
          refine ⟨?_, fun hend hmem => ?_⟩
          · rw [hroots]
            exact (hfollow b marked).andThen (ih (follow b marked).marked).1
          · cases List.mem_cons.mp hmem with
            | inl h => cases h
            | inr h => exact (ih _).2 (Walked.complete_of_andThen hend).2 h

/-- Nothing is left when all successors are marked. -/
theorem walkAll_marked [DecidableEq α] (fuel : Nat) {marked : List α} :
    ∀ {l : List (Option α)}, (∀ x ∈ l, ∃ b ∈ marked, x = some b) →
      walkAll (walk succ (fuel + 1)) l marked = ⟨[], marked, .complete⟩ := by
  intro l
  induction l with
  | nil => exact fun _ => rfl
  | cons x l ih =>
      intro h
      obtain ⟨⟨b, hb, rfl⟩, hl⟩ := List.forall_mem_cons.mp h
      have hfirst : walk succ (fuel + 1) b marked = ⟨[], marked, .complete⟩ := by
        rw [walk, if_pos hb]
      rw [walkAll, hfirst, Walked.andThen, ih hl]
      rfl

variable [DecidableEq α]

/-- A walk leaves each node once and behind its successors, unless these lead back to it. -/
theorem walk_facts : ∀ fuel a marked,
    WalkFacts succ (fun b => b = a) marked (walk succ fuel a marked) := by
  intro fuel
  induction fuel with
  | zero =>
      intro a marked
      exact WalkFacts.nothing fun hend => nomatch hend
  | succ fuel ih =>
      intro a marked
      unfold walk
      by_cases ha : a ∈ marked
      · rw [if_pos ha]
        apply WalkFacts.nothing
        intro _ b hb
        rw [hb]
        exact ha
      · rw [if_neg ha]
        obtain ⟨hfacts, hnone⟩ := walkAll_facts ih (succ a) (a :: marked)
        exact hfacts.leave ha hnone

/-! ## Enough fuel -/

/-- Marks stay. -/
theorem walk_marked : ∀ fuel a marked x, x ∈ marked → x ∈ (walk succ fuel a marked).marked := by
  intro fuel
  induction fuel with
  | zero =>
      intro a marked x hx
      exact hx
  | succ fuel ih =>
      have hall : ∀ l marked x, x ∈ marked → x ∈ (walkAll (walk succ fuel) l marked).marked := by
        intro l
        induction l with
        | nil =>
            intro marked x hx
            exact hx
        | cons b rest ihl =>
            intro marked x hx
            cases b with
            | none => exact hx
            | some b =>
                have hb := ih b marked x hx
                rw [walkAll, Walked.andThen]
                cases (walk succ fuel b marked).ending with
                | complete => exact ihl _ x hb
                | missing => exact hb
                | cut => exact hb
      intro a marked x hx
      unfold walk
      split
      · exact hx
      · have hinner := hall (succ a) (a :: marked) x (List.mem_cons_of_mem a hx)
        rw [Walked.andThen]
        cases (walkAll (walk succ fuel) (succ a) (a :: marked)).ending with
        | complete => exact hinner
        | missing => exact hinner
        | cut => exact hinner

/-- How many of the nodes are not marked. -/
def unmarked (nodes marked : List α) : Nat := (nodes.filter fun x => decide (x ∉ marked)).length

theorem unmarked_le {nodes marked marked' : List α} (h : ∀ x, x ∈ marked → x ∈ marked') :
    unmarked nodes marked' ≤ unmarked nodes marked := by
  apply List.Sublist.length_le
  apply List.monotone_filter_right
  intro x hx
  rw [decide_eq_true_iff] at hx ⊢
  exact fun hm => hx (h x hm)

theorem unmarked_lt {nodes marked : List α} {a : α} (hnode : a ∈ nodes) (ha : a ∉ marked) :
    unmarked nodes (a :: marked) < unmarked nodes marked := by
  have hfilter : (nodes.filter fun x => decide (x ∉ a :: marked)) =
      ((nodes.filter fun x => decide (x ∉ marked)).filter fun x => decide (x ≠ a)) := by
    rw [List.filter_filter]
    apply List.filter_congr
    intro x _
    by_cases hx : x = a
    · simp [hx]
    · simp [hx]
  have hmem : a ∈ nodes.filter fun x => decide (x ∉ marked) :=
    List.mem_filter.mpr ⟨hnode, decide_eq_true ha⟩
  rw [unmarked, unmarked, hfilter]
  apply Nat.lt_of_le_of_ne (List.length_filter_le _ _)
  intro heq
  have hall := List.length_filter_eq_length_iff.mp heq a hmem
  exact of_decide_eq_true hall rfl

/-- A walk on a finite set of nodes ends. -/
theorem walk_ends {nodes : List α} (hclosed : ∀ x ∈ nodes, ∀ b, some b ∈ succ x → b ∈ nodes) :
    ∀ fuel a marked, a ∈ nodes → unmarked nodes marked < fuel →
      (walk succ fuel a marked).ending ≠ .cut := by
  intro fuel
  induction fuel with
  | zero =>
      intro a marked _ hfuel
      exact absurd hfuel (Nat.not_lt_zero _)
  | succ fuel ih =>
      have hall : ∀ l marked, (∀ b, some b ∈ l → b ∈ nodes) → unmarked nodes marked < fuel →
          (walkAll (walk succ fuel) l marked).ending ≠ .cut := by
        intro l
        induction l with
        | nil =>
            intro marked _ _ hcut
            cases hcut
        | cons b rest ihl =>
            intro marked hnodes hfuel
            cases b with
            | none =>
                intro hcut
                cases hcut
            | some b =>
                have hb := ih b marked (hnodes b List.mem_cons_self) hfuel
                rw [walkAll, Walked.andThen]
                cases hend : (walk succ fuel b marked).ending with
                | complete =>
                    refine ihl _ (fun c hc => hnodes c (List.mem_cons_of_mem _ hc)) ?_
                    exact Nat.lt_of_le_of_lt (unmarked_le (walk_marked fuel b marked)) hfuel
                | missing =>
                    dsimp only
                    rw [hend]
                    exact fun hcut => nomatch hcut
                | cut => exact absurd hend hb
      intro a marked hnode hfuel
      unfold walk
      by_cases ha : a ∈ marked
      · rw [if_pos ha]
        exact fun hcut => nomatch hcut
      · have hless := unmarked_lt hnode ha
        have hinner := hall (succ a) (a :: marked) (hclosed a hnode) (by omega)
        rw [if_neg ha, Walked.andThen]
        cases hend : (walkAll (walk succ fuel) (succ a) (a :: marked)).ending with
        | complete => exact fun hcut => nomatch hcut
        | missing =>
            dsimp only
            rw [hend]
            exact fun hcut => nomatch hcut
        | cut => exact absurd hend hinner

end Facts

end DragonDevice.Lib
