/-
  Lib/VectorCode.lean --- straight-line code on vector registers.

  The instructions of NEON and of SSE that work on lanes of numbers.  A register gives a number
  for each lane, and a pointer leads to one cell.
-/
import Mathlib.Logic.Function.Basic
import Mathlib.Algebra.Group.Defs

set_option autoImplicit false

namespace DragonDevice.Lib

variable {R P L F : Type}

structure VectorState (R P L F : Type) where
  regs : R → L → F
  cells : P → F

namespace VectorState

def set [DecidableEq R] (s : VectorState R P L F) (d : R) (v : L → F) : VectorState R P L F :=
  { s with regs := Function.update s.regs d v }

def store [DecidableEq P] (s : VectorState R P L F) (p : P) (a : F) : VectorState R P L F :=
  { s with cells := Function.update s.cells p a }

end VectorState

/-! ## Lanes -/

/-- The lanes of a register with four of them. -/
inductive Lane where
  | l0
  | l1
  | l2
  | l3
  deriving DecidableEq

/-- A register with these lanes. -/
def Lane.pack (a b c d : F) : Lane → F
  | .l0 => a
  | .l1 => b
  | .l2 => c
  | .l3 => d

/-- The lanes of the first half of the register. -/
def Lane.lowHalf : Lane → Bool
  | .l0 => true
  | .l1 => true
  | .l2 => false
  | .l3 => false

/-! ## NEON -/

/-- The destination comes first.  `vld1` loads one cell into some lanes, and `vpadd` puts sums of
two lanes of the register into some of its lanes. -/
inductive Neon (R P L : Type) where
  | vmul (d a b : R)
  | vmla (d a b : R)
  | vmls (d a b : R)
  | vmov (d a : R)
  | vld1 (d : R) (lanes : L → Bool) (p : P)
  | vst1 (d : R) (lane : L) (p : P)
  | vpadd (d : R) (sums : L → Option (L × L))

section Neon

variable [DecidableEq R] [DecidableEq P] [Add F] [Sub F] [Mul F]

def Neon.exec (s : VectorState R P L F) : Neon R P L → VectorState R P L F
  | .vmul d a b => s.set d fun i => s.regs a i * s.regs b i
  | .vmla d a b => s.set d fun i => s.regs d i + s.regs a i * s.regs b i
  | .vmls d a b => s.set d fun i => s.regs d i - s.regs a i * s.regs b i
  | .vmov d a => s.set d (s.regs a)
  | .vld1 d lanes p => s.set d fun i => bif lanes i then s.cells p else s.regs d i
  | .vst1 d lane p => s.store p (s.regs d lane)
  | .vpadd d sums => s.set d fun i =>
      (sums i).elim (s.regs d i) fun lanes => s.regs d lanes.1 + s.regs d lanes.2

def Neon.run (code : List (Neon R P L)) (s : VectorState R P L F) : VectorState R P L F :=
  code.foldl Neon.exec s

theorem Neon.run_append (code code' : List (Neon R P L)) (s : VectorState R P L F) :
    Neon.run (code ++ code') s = Neon.run code' (Neon.run code s) := List.foldl_append

end Neon

/-! ## SSE -/

/-- The lane that the last digit of a number to the base four stands for. -/
def Lane.digit (number : Nat) : Lane :=
  if number % 4 = 0 then .l0
  else if number % 4 = 1 then .l1
  else if number % 4 = 2 then .l2
  else .l3

/-- The destination comes last.  The lanes that `shufps` takes are the digits of its
number. -/
inductive Sse (R P : Type) where
  | movssLoad (p : P) (d : R)
  | movssStore (a : R) (p : P)
  | unpcklps (a d : R)
  | shufps (number : Nat) (a d : R)
  | movaps (a d : R)
  | mulps (a d : R)
  | addps (a d : R)
  | subps (a d : R)
  | haddps (a d : R)

section Sse

variable [DecidableEq R] [DecidableEq P] [Zero F] [Add F] [Sub F] [Mul F]

def Sse.exec (s : VectorState R P Lane F) : Sse R P → VectorState R P Lane F
  | .movssLoad p d => s.set d (Lane.pack (s.cells p) 0 0 0)
  | .movssStore a p => s.store p (s.regs a .l0)
  | .unpcklps a d => s.set d
      (Lane.pack (s.regs d .l0) (s.regs a .l0) (s.regs d .l1) (s.regs a .l1))
  | .shufps number a d => s.set d
      (Lane.pack (s.regs d (.digit number)) (s.regs d (.digit (number / 4)))
        (s.regs a (.digit (number / 16))) (s.regs a (.digit (number / 64))))
  | .movaps a d => s.set d (s.regs a)
  | .mulps a d => s.set d fun i => s.regs d i * s.regs a i
  | .addps a d => s.set d fun i => s.regs d i + s.regs a i
  | .subps a d => s.set d fun i => s.regs d i - s.regs a i
  | .haddps a d => s.set d
      (Lane.pack (s.regs d .l0 + s.regs d .l1) (s.regs d .l2 + s.regs d .l3)
        (s.regs a .l0 + s.regs a .l1) (s.regs a .l2 + s.regs a .l3))

def Sse.run (code : List (Sse R P)) (s : VectorState R P Lane F) : VectorState R P Lane F :=
  code.foldl Sse.exec s

theorem Sse.run_append (code code' : List (Sse R P)) (s : VectorState R P Lane F) :
    Sse.run (code ++ code') s = Sse.run code' (Sse.run code s) := List.foldl_append

end Sse

end DragonDevice.Lib
