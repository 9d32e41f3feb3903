/-
  Lib/ShiftRegister.lean --- a bit vector that remembers the last events.

  Every event is shifted in at the lowest bit, so that the register of width `w`
  holds the last `w` of them, and is zero when none of these was set.
-/
import Mathlib.Data.Nat.Notation

set_option autoImplicit false

namespace DragonDevice.Lib

variable {w : Nat}

/-- Shift an event in. -/
def shiftIn (register : BitVec w) (event : Bool) : BitVec w :=
  (register <<< 1) ||| (if event then 1#w else 0#w)

/-- The bits say which of the last events were set, the newest first. -/
def Remembers (register : BitVec w) (event : Nat → Prop) : Prop :=
  ∀ j, j < w → (register.getLsbD j = true ↔ event j)

theorem remembers_zero {event : Nat → Prop} (h : ∀ j, ¬ event j) : Remembers (0#w) event := by
  intro j _
  rw [BitVec.getLsbD_zero]
  exact iff_of_false Bool.false_ne_true (h j)

theorem Remembers.shiftIn {register : BitVec w} {event event' : Nat → Prop} {new : Bool}
    (h : Remembers register event) (hnew : new = true ↔ event' 0)
    (hold : ∀ j, event' (j + 1) ↔ event j) : Remembers (shiftIn register new) event' := by
  intro j hj
  rw [Lib.shiftIn, BitVec.getLsbD_or, BitVec.getLsbD_shiftLeft]
  cases j with
  | zero =>
      rw [← hnew]
      cases new with
      | false => simp
      | true => simp [hj]
  | succ j =>
      have hlow : (if new then 1#w else 0#w).getLsbD (j + 1) = false := by
        cases new with
        | false => exact BitVec.getLsbD_zero
        | true => simp [BitVec.getLsbD_one]
      rw [hlow, Bool.or_false, hold j, ← h j (by omega)]
      simp [hj]

/-- The register is zero when none of the events it remembers was set. -/
theorem Remembers.eq_zero_iff {register : BitVec w} {event : Nat → Prop}
    (h : Remembers register event) : register = 0#w ↔ ∀ j, j < w → ¬ event j := by
  refine ⟨fun hzero j hj hset => ?_, fun hnone => BitVec.eq_of_getLsbD_eq fun j hj => ?_⟩
  · have hbit := (h j hj).mpr hset
    rw [hzero, BitVec.getLsbD_zero] at hbit
    cases hbit
  · rw [BitVec.getLsbD_zero]
    exact Bool.eq_false_iff.mpr fun hbit => hnone j hj ((h j hj).mp hbit)

end DragonDevice.Lib
