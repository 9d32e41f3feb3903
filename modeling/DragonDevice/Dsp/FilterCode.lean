/-
  Dsp/FilterCode.lean --- two filters on vector registers.

  The assembly of `eq2.c` and of `crossover2.c` has the loop over two filters once for NEON and
  once for SSE; only the loads, the stores and the coefficients of the second filter differ.  On
  each lane it is the loop over two filters of `eq.c`, up to the order of factors and summands.
-/
import DragonDevice.Dsp.Biquad
import DragonDevice.Lib.VectorCode

set_option autoImplicit false

namespace DragonDevice.Dsp

open DragonDevice.Lib

variable {F : Type}

/-! ## The code -/

/-- Which filter a coefficient is for. -/
inductive Stage where
  | q
  | r
  deriving DecidableEq

/-- The operands, and `d0` to `d2`, `q0` to `q2` or `xmm0` to `xmm2`. -/
inductive FilterReg where
  | b0 (stage : Stage)
  | b1 (stage : Stage)
  | b2 (stage : Stage)
  | a1 (stage : Stage)
  | a2 (stage : Stage)
  | x1
  | x2
  | y1
  | y2
  | z1
  | z2
  | v0
  | v1
  | v2
  deriving DecidableEq

/-- The NEON code up to the stores, where the second filter has the coefficients of `stage`. -/
def neonFilters {P L : Type} (stage : Stage) (lanes lanes' : L → Bool) (p p' : P) :
    List (Neon FilterReg P L) :=
  [.vmul .v1 (.b1 .q) .x1,
    .vld1 .v0 lanes p,
    .vld1 .v0 lanes' p',
    .vmul .v2 (.b1 stage) .y1,
    .vmla .v1 (.b0 .q) .v0,
    .vmla .v1 (.b2 .q) .x2,
    .vmov .x2 .x1,
    .vmov .x1 .v0,
    .vmls .v1 (.a1 .q) .y1,
    .vmls .v1 (.a2 .q) .y2,
    .vmla .v2 (.b0 stage) .v1,
    .vmla .v2 (.b2 stage) .y2,
    .vmov .y2 .y1,
    .vmov .y1 .v1,
    .vmls .v2 (.a1 stage) .z1,
    .vmls .v2 (.a2 stage) .z2,
    .vmov .z2 .z1,
    .vmov .z1 .v2]

/-- The SSE code between the loads, which leave the input in `xmm2`, and the stores.  `lddqu`
moves like `movaps`. -/
def sseFilters {P : Type} (stage : Stage) : List (Sse FilterReg P) :=
  [.mulps (.b2 .q) .x2,
    .movaps (.b0 .q) .v0,
    .mulps (.a2 stage) .z2,
    .movaps (.b1 .q) .v1,
    .mulps .v2 .v0,
    .mulps .x1 .v1,
    .addps .v1 .v0,
    .movaps (.a1 .q) .v1,
    .mulps .y1 .v1,
    .addps .x2 .v0,
    .movaps (.b1 stage) .x2,
    .mulps .y1 .x2,
    .subps .v1 .v0,
    .movaps (.a2 .q) .v1,
    .mulps .y2 .v1,
    .mulps (.b2 stage) .y2,
    .subps .v1 .v0,
    .movaps (.b0 stage) .v1,
    .mulps .v0 .v1,
    .addps .x2 .v1,
    .movaps .x1 .x2,
    .movaps .v2 .x1,
    .addps .y2 .v1,
    .movaps (.a1 stage) .y2,
    .mulps .z1 .y2,
    .subps .y2 .v1,
    .movaps .y1 .y2,
    .movaps .v0 .y1,
    .subps .z2 .v1,
    .movaps .z1 .z2,
    .movaps .v1 .z1]

/-! ## One lane -/

/-- A lane has the operands of two filters. -/
structure HoldsFilters {L : Type} (stage : Stage) (regs : FilterReg → L → F) (i : L)
    (pair : Biquad F × Biquad F) : Prop where
  qb0 : regs (.b0 .q) i = pair.1.b0
  qb1 : regs (.b1 .q) i = pair.1.b1
  qb2 : regs (.b2 .q) i = pair.1.b2
  qa1 : regs (.a1 .q) i = pair.1.a1
  qa2 : regs (.a2 .q) i = pair.1.a2
  rb0 : regs (.b0 stage) i = pair.2.b0
  rb1 : regs (.b1 stage) i = pair.2.b1
  rb2 : regs (.b2 stage) i = pair.2.b2
  ra1 : regs (.a1 stage) i = pair.2.a1
  ra2 : regs (.a2 stage) i = pair.2.a2
  x1 : regs .x1 i = pair.1.x1
  x2 : regs .x2 i = pair.1.x2
  y1 : regs .y1 i = pair.1.y1
  y2 : regs .y2 i = pair.1.y2
  z1 : regs .z1 i = pair.2.y1
  z2 : regs .z2 i = pair.2.y2

namespace HoldsFilters

section Neon

variable {P L : Type} [DecidableEq P] [Add F] [Sub F] [Mul F] {stage : Stage}
  {lanes lanes' : L → Bool} {p p' : P} {s : VectorState FilterReg P L F} {i : L}

theorem neon_y1 : (Neon.run (neonFilters stage lanes lanes' p p') s).regs .y1 i =
    s.regs (.b1 .q) i * s.regs .x1 i +
      s.regs (.b0 .q) i *
        (bif lanes' i then s.cells p' else bif lanes i then s.cells p else s.regs .v0 i) +
      s.regs (.b2 .q) i * s.regs .x2 i - s.regs (.a1 .q) i * s.regs .y1 i -
      s.regs (.a2 .q) i * s.regs .y2 i := rfl

theorem neon_z1 : (Neon.run (neonFilters stage lanes lanes' p p') s).regs .z1 i =
    s.regs (.b1 stage) i * s.regs .y1 i +
      s.regs (.b0 stage) i * (Neon.run (neonFilters stage lanes lanes' p p') s).regs .y1 i +
      s.regs (.b2 stage) i * s.regs .y2 i - s.regs (.a1 stage) i * s.regs .z1 i -
      s.regs (.a2 stage) i * s.regs .z2 i := rfl

theorem neon_v2 : (Neon.run (neonFilters stage lanes lanes' p p') s).regs .v2 i =
    (Neon.run (neonFilters stage lanes lanes' p p') s).regs .z1 i := rfl

end Neon

/-- What a lane of `d2` has after the code is the output. -/
theorem neon {P L : Type} [DecidableEq P] [AddCommMagma F] [Sub F] [Mul F]
    {stage : Stage} {lanes lanes' : L → Bool} {p p' : P} {s : VectorState FilterReg P L F}
    {i : L} {pair : Biquad F × Biquad F} (h : HoldsFilters stage s.regs i pair) {x : F}
    (hx : (bif lanes' i then s.cells p' else bif lanes i then s.cells p else s.regs .v0 i) =
      x) :
    HoldsFilters stage (Neon.run (neonFilters stage lanes lanes' p p') s).regs i
        (biquadPairNext pair x).1 ∧
      (Neon.run (neonFilters stage lanes lanes' p p') s).regs .v2 i =
        (biquadPairNext pair x).2 := by
  have hy : (Neon.run (neonFilters stage lanes lanes' p p') s).regs .y1 i =
      (biquadPairNext pair x).1.1.y1 := by
    rw [neon_y1, hx, h.qb0, h.qb1, h.qb2, h.qa1, h.qa2, h.x1, h.x2, h.y1, h.y2,
      add_comm (pair.1.b1 * pair.1.x1)]
    rfl
  have hz : (Neon.run (neonFilters stage lanes lanes' p p') s).regs .z1 i =
      (biquadPairNext pair x).1.2.y1 := by
    rw [neon_z1, hy, h.rb0, h.rb1, h.rb2, h.ra1, h.ra2, h.y1, h.y2, h.z1, h.z2,
      add_comm (pair.2.b1 * pair.1.y1)]
    rfl
  exact ⟨⟨h.qb0, h.qb1, h.qb2, h.qa1, h.qa2, h.rb0, h.rb1, h.rb2, h.ra1, h.ra2, hx, h.x1, hy,
    h.y1, hz, h.z1⟩, neon_v2.trans hz⟩

section Sse

variable {P : Type} [DecidableEq P] [Zero F] [Add F] [Sub F] [Mul F] {stage : Stage}
  {s : VectorState FilterReg P Lane F} {i : Lane}

theorem sse_y1 : (Sse.run (sseFilters stage) s).regs .y1 i =
    s.regs (.b0 .q) i * s.regs .v2 i + s.regs (.b1 .q) i * s.regs .x1 i +
      s.regs .x2 i * s.regs (.b2 .q) i - s.regs (.a1 .q) i * s.regs .y1 i -
      s.regs (.a2 .q) i * s.regs .y2 i := rfl

theorem sse_z1 : (Sse.run (sseFilters stage) s).regs .z1 i =
    s.regs (.b0 stage) i * (Sse.run (sseFilters stage) s).regs .y1 i +
      s.regs (.b1 stage) i * s.regs .y1 i + s.regs .y2 i * s.regs (.b2 stage) i -
      s.regs (.a1 stage) i * s.regs .z1 i - s.regs .z2 i * s.regs (.a2 stage) i := rfl

theorem sse_v1 : (Sse.run (sseFilters stage) s).regs .v1 i =
    (Sse.run (sseFilters stage) s).regs .z1 i := rfl

end Sse

/-- What a lane of `xmm1` has after the code is the output. -/
theorem sse {P : Type} [DecidableEq P] [Zero F] [Add F] [Sub F] [CommMagma F] {stage : Stage}
    {s : VectorState FilterReg P Lane F} {i : Lane} {pair : Biquad F × Biquad F}
    (h : HoldsFilters stage s.regs i pair) {x : F} (hx : s.regs .v2 i = x) :
    HoldsFilters stage (Sse.run (sseFilters stage) s).regs i (biquadPairNext pair x).1 ∧
      (Sse.run (sseFilters stage) s).regs .v1 i = (biquadPairNext pair x).2 := by
  have hy : (Sse.run (sseFilters stage) s).regs .y1 i = (biquadPairNext pair x).1.1.y1 := by
    rw [sse_y1, hx, h.qb0, h.qb1, h.qb2, h.qa1, h.qa2, h.x1, h.x2, h.y1, h.y2, mul_comm pair.1.x2]
    rfl
  have hz : (Sse.run (sseFilters stage) s).regs .z1 i = (biquadPairNext pair x).1.2.y1 := by
    rw [sse_z1, hy, h.rb0, h.rb1, h.rb2, h.ra1, h.ra2, h.y1, h.y2, h.z1, h.z2,
      mul_comm pair.1.y2, mul_comm pair.2.y2]
    rfl
  exact ⟨⟨h.qb0, h.qb1, h.qb2, h.qa1, h.qa2, h.rb0, h.rb1, h.rb2, h.ra1, h.ra2, hx, h.x1, hy,
    h.y1, hz, h.z1⟩, sse_v1.trans hz⟩

end HoldsFilters

end DragonDevice.Dsp
