/-
  Lib/BreakLoop.lean --- a loop over a list with `break` and `continue`.

  The body sees the position, the element and the state, and says whether the loop
  goes on.  Where whether it goes on is a property of the position and the element
  alone, a run either passes all of them or stops at the first one without it.
-/
import Mathlib.Data.List.Basic

set_option autoImplicit false

namespace DragonDevice.Lib

universe u v

/-- How one turn of a loop ends. -/
inductive Flow where
  | next | stop
  deriving DecidableEq, Repr

variable {α : Type u} {σ : Type v}

/-- Run the body on the elements, from position `k` on; no result where the body has
none. -/
def breakLoop (body : Nat → α → σ → Option (Flow × σ)) : List α → Nat → σ → Option (Flow × σ)
  | [], _, s => some (.next, s)
  | a :: rest, k, s =>
      match body k a s with
      | none => none
      | some (.next, s) => breakLoop body rest (k + 1) s
      | some (.stop, s) => some (.stop, s)

/-- What one turn does to an invariant `I`: at elements with `G` the loop goes on, at the
others it stops with `Q`. -/
def TurnSpec (body : Nat → α → σ → Option (Flow × σ)) (l : List α) (I : Nat → σ → Prop)
    (G : Nat → α → Prop) (Q : Nat → α → σ → Prop) : Prop :=
  ∀ k a s flow s', l[k]? = some a → I k s → body k a s = some (flow, s') →
    (flow = .next ∧ G k a ∧ I (k + 1) s') ∨ (flow = .stop ∧ ¬ G k a ∧ Q k a s')

variable {body : Nat → α → σ → Option (Flow × σ)} {l : List α} {I : Nat → σ → Prop}
  {G : Nat → α → Prop} {Q : Nat → α → σ → Prop}

/-- The loop behind the elements that are done. -/
theorem breakLoop_from (hturn : TurnSpec body l I G Q) :
    ∀ (rest done : List α) (s : σ) (flow : Flow) (s' : σ), l = done ++ rest →
      (∀ j a, done[j]? = some a → G j a) → I done.length s →
      breakLoop body rest done.length s = some (flow, s') →
      (flow = .next ∧ (∀ j a, l[j]? = some a → G j a) ∧ I l.length s') ∨
      (flow = .stop ∧ ∃ j a, l[j]? = some a ∧ ¬ G j a ∧ Q j a s' ∧
        ∀ i b, i < j → l[i]? = some b → G i b) := by
  intro rest
  induction rest with
  | nil =>
      intro done s flow s' hl hdone hI hrun
      rw [List.append_nil] at hl
      cases hrun
      rw [hl]
      exact Or.inl ⟨rfl, hdone, hI⟩
  | cons a rest ih =>
      intro done s flow s' hl hdone hI hrun
      have hget : l[done.length]? = some a := by
        rw [hl, List.getElem?_append_right (Nat.le_refl _), Nat.sub_self]
        rfl
      unfold breakLoop at hrun
      cases hbody : body done.length a s with
      | none =>
          rw [hbody] at hrun
          cases hrun
      | some r =>
          obtain ⟨flow₁, s₁⟩ := r
          rw [hbody] at hrun
          cases hturn done.length a s flow₁ s₁ hget hI hbody with
          | inl hnext =>
              obtain ⟨hflow, hG, hI₁⟩ := hnext
              rw [hflow] at hrun
              have hlen : (done ++ [a]).length = done.length + 1 := List.length_append
              refine ih (done ++ [a]) s₁ flow s' ?_ ?_ ?_ ?_
              · rw [hl, List.append_assoc]
                rfl
              · intro j b hj
                by_cases hlt : j < done.length
                · rw [List.getElem?_append_left hlt] at hj
                  exact hdone j b hj
                · have hj' : j < done.length + 1 := hlen ▸ (List.getElem?_eq_some_iff.mp hj).1
                  have heq : j = done.length := by omega
                  rw [heq, List.getElem?_append_right (Nat.le_refl _), Nat.sub_self] at hj
                  cases hj
                  rw [heq]
                  exact hG
              · rw [hlen]
                exact hI₁
              · rw [hlen]
                exact hrun
          | inr hstop =>
              obtain ⟨hflow, hG, hQ⟩ := hstop
              rw [hflow] at hrun
              cases hrun
              refine Or.inr ⟨rfl, done.length, a, hget, hG, hQ, fun i b hi hb => ?_⟩
              rw [hl, List.getElem?_append_left hi] at hb
              exact hdone i b hb

/-- A run goes through the whole list, or stops at the first element without `G`. -/
theorem breakLoop_spec (hturn : TurnSpec body l I G Q) {s : σ} {flow : Flow} {s' : σ}
    (hI : I 0 s) (hrun : breakLoop body l 0 s = some (flow, s')) :
    (flow = .next ∧ (∀ j a, l[j]? = some a → G j a) ∧ I l.length s') ∨
    (flow = .stop ∧ ∃ j a, l[j]? = some a ∧ ¬ G j a ∧ Q j a s' ∧
      ∀ i b, i < j → l[i]? = some b → G i b) :=
  breakLoop_from hturn l [] s flow s' rfl (fun j a hj => by simp at hj) hI hrun

/-- A run without a result, behind the elements that are done. -/
theorem breakLoop_none_from (hturn : TurnSpec body l I G Q) :
    ∀ (rest done : List α) (s : σ), l = done ++ rest →
      (∀ j a, done[j]? = some a → G j a) → I done.length s →
      breakLoop body rest done.length s = none →
      ∃ j a s', l[j]? = some a ∧ I j s' ∧ body j a s' = none ∧
        ∀ i b, i < j → l[i]? = some b → G i b := by
  intro rest
  induction rest with
  | nil =>
      intro done s _ _ _ hrun
      cases hrun
  | cons a rest ih =>
      intro done s hl hdone hI hrun
      have hget : l[done.length]? = some a := by
        rw [hl, List.getElem?_append_right (Nat.le_refl _), Nat.sub_self]
        rfl
      unfold breakLoop at hrun
      cases hbody : body done.length a s with
      | none =>
          refine ⟨done.length, a, s, hget, hI, hbody, fun i b hi hb => ?_⟩
          rw [hl, List.getElem?_append_left hi] at hb
          exact hdone i b hb
      | some r =>
          obtain ⟨flow₁, s₁⟩ := r
          rw [hbody] at hrun
          cases hturn done.length a s flow₁ s₁ hget hI hbody with
          | inl hnext =>
              obtain ⟨hflow, hG, hI₁⟩ := hnext
              rw [hflow] at hrun
              have hlen : (done ++ [a]).length = done.length + 1 := List.length_append
              refine ih (done ++ [a]) s₁ ?_ ?_ (by rw [hlen]; exact hI₁) (by rw [hlen]; exact hrun)
              · rw [hl, List.append_assoc]
                rfl
              · intro j b hj
                rcases Nat.lt_or_eq_of_le (Nat.le_of_lt_succ
                  (hlen ▸ (List.getElem?_eq_some_iff.mp hj).1)) with hlt | rfl
                · rw [List.getElem?_append_left hlt] at hj
                  exact hdone j b hj
                · rw [List.getElem?_append_right (Nat.le_refl _), Nat.sub_self] at hj
                  cases hj
                  exact hG
          | inr hstop =>
              rw [hstop.1] at hrun
              cases hrun

/-- A run without a result comes to an element for which the body has none. -/
theorem breakLoop_eq_none (hturn : TurnSpec body l I G Q) {s : σ} (hI : I 0 s)
    (hrun : breakLoop body l 0 s = none) :
    ∃ j a s', l[j]? = some a ∧ I j s' ∧ body j a s' = none ∧
      ∀ i b, i < j → l[i]? = some b → G i b :=
  breakLoop_none_from hturn l [] s rfl (fun j a hj => by simp at hj) hI hrun

end DragonDevice.Lib
