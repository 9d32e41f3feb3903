/-
  Lib/EraseLoop.lean --- a loop over an ordered map that erases while it iterates.

  An entry that is selected is handed to the body and erased, the others are
  skipped.  When the selection looks at the entry alone, the loop is a filter of
  the map and a fold over the entries that were erased.
-/
import DragonDevice.Lib.OrderedContainers

set_option autoImplicit false

namespace DragonDevice.Lib

universe u v w

variable {α : Type u} {κ : Type u} {β : Type v} {σ : Type w} {lt : κ → κ → Prop}

/-- The loop over the entries: those that stay, and the state after the others went
through the body. -/
def eraseList (selected : α → Bool) (body : σ → α → σ) : List α → σ → List α × σ
  | [], s => ([], s)
  | e :: rest, s =>
      if selected e then eraseList selected body rest (body s e)
      else
        let (kept, s) := eraseList selected body rest s
        (e :: kept, s)

theorem eraseList_eq (selected : α → Bool) (body : σ → α → σ) :
    ∀ (l : List α) (s : σ), eraseList selected body l s =
      (l.filter fun e => !selected e, (l.filter selected).foldl body s) := by
  intro l
  induction l with
  | nil => intro s; rfl
  | cons e rest ih =>
      intro s
      rw [eraseList]
      cases hsel : selected e with
      | true => simp [ih, hsel]
      | false => simp [ih, hsel]

namespace OrderedMap

/-- The loop over a map. -/
def eraseLoop (selected : κ × β → Bool) (body : σ → κ × β → σ) (m : OrderedMap κ β lt)
    (s : σ) : OrderedMap κ β lt × σ :=
  (⟨(eraseList selected body m.entries s).1, by
    rw [eraseList_eq]
    exact m.sorted.filter _⟩, (eraseList selected body m.entries s).2)

theorem eraseLoop_eq (selected : κ × β → Bool) (body : σ → κ × β → σ)
    (m : OrderedMap κ β lt) (s : σ) : m.eraseLoop selected body s =
      (m.filter fun e => !selected e, (m.entries.filter selected).foldl body s) := by
  simp only [eraseLoop, eraseList_eq]
  rfl

end OrderedMap

end DragonDevice.Lib
