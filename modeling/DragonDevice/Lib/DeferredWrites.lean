/-
  Lib/DeferredWrites.lean --- a queue of writes to one cell.

  Some entries of the queue write the cell when they are taken out, others read it and
  expect a value that was decided when they were put in.  The cell has a value, or was
  never written.
-/

set_option autoImplicit false

namespace DragonDevice.Lib

universe u v

variable {α : Type u} {β : Type v} (write expects : α → Option β)

/-- The cell after all writes of a queue. -/
def valueAfter : List α → Option β → Option β
  | [], value => value
  | a :: queue, value => valueAfter queue ((write a).or value)

/-- Every entry finds what it expects. -/
def ReadsRight : List α → Option β → Prop
  | [], _ => True
  | a :: queue, value =>
      (∀ b, expects a = some b → value = some b) ∧ ReadsRight queue ((write a).or value)

variable {write expects} {value : Option β} {a : α} {queue : List α}

theorem valueAfter_append_singleton :
    ∀ {queue : List α} {value : Option β},
      valueAfter write (queue ++ [a]) value = (write a).or (valueAfter write queue value) := by
  intro queue
  induction queue with
  | nil => intro value; rfl
  | cons b queue ih => intro value; exact ih

/-- An entry can be put behind the queue when the queue leaves what it expects. -/
theorem ReadsRight.append_singleton :
    ∀ {queue : List α} {value : Option β}, ReadsRight write expects queue value →
      (∀ b, expects a = some b → valueAfter write queue value = some b) →
      ReadsRight write expects (queue ++ [a]) value := by
  intro queue
  induction queue with
  | nil =>
      intro value _ ha
      exact ⟨ha, trivial⟩
  | cons b queue ih =>
      intro value h ha
      exact ⟨h.1, ih h.2 ha⟩

end DragonDevice.Lib
