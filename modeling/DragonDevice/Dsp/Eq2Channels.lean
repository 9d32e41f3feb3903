/-
  Dsp/Eq2Channels.lean --- the channels of an eq2 are filtered apart from each other.

  Whatever the code is made for, a channel goes through its own filters, in order, and however
  the input is cut into blocks.
-/
import DragonDevice.Dsp.Eq2
import Mathlib.Algebra.Ring.Defs

set_option autoImplicit false

namespace DragonDevice.Dsp

open DragonDevice.Lib

variable {F : Type}

/-! ## Lanes -/

namespace HoldsFilters

section Store

variable {L : Type} {regs : FilterReg → L → F} {i : L} {pair : Biquad F × Biquad F}

theorem of_operands [Zero F] (h : ∀ reg, regs reg i = filterOperand pair reg) :
    HoldsFilters .r regs i pair :=
  ⟨h _, h _, h _, h _, h _, h _, h _, h _, h _, h _, h _, h _, h _, h _, h _, h _⟩

theorem store_eq (h : HoldsFilters .r regs i pair) : storeFilters regs i pair = pair := by
  unfold storeFilters
  rw [h.x1, h.x2, h.y1, h.y2, h.z1, h.z2]

end Store

theorem neonStores_cells [Add F] [Sub F] [Mul F] {s : VectorState FilterReg Channel Channel F}
    {c : Channel} : (Neon.run neonStores s).cells c = s.regs .v2 c := by
  cases c with
  | left => rfl
  | right => rfl

section Sse

variable [Zero F] [Add F] [Sub F] [Mul F] {s : VectorState FilterReg Channel Lane F}

theorem sseLoads_v2 {c : Channel} : (Sse.run sseLoads s).regs .v2 c.lane = s.cells c := by
  cases c with
  | left => rfl
  | right => rfl

theorem sseStores_cells {c : Channel} :
    (Sse.run sseStores s).cells c = s.regs .v1 c.lane := by
  cases c with
  | left => rfl
  | right => rfl

variable {i : Lane} {pair : Biquad F × Biquad F}

/-- The loads write to `xmm1` and `xmm2` only. -/
theorem after_loads (h : HoldsFilters .r s.regs i pair) :
    HoldsFilters .r (Sse.run sseLoads s).regs i pair := { h with }

/-- The stores write to `xmm1` only. -/
theorem after_stores (h : HoldsFilters .r s.regs i pair) :
    HoldsFilters .r (Sse.run sseStores s).regs i pair := { h with }

end Sse

end HoldsFilters

/-! ## Two rows -/

theorem eq2NeonNext_holds [AddCommMagma F] [Sub F] [Mul F] {regs : FilterReg → Channel → F}
    {rows : Stereo (Biquad F × Biquad F)} (h : ∀ c, HoldsFilters .r regs c (rows c))
    (frame : Stereo F) :
    (∀ c, HoldsFilters .r (eq2NeonNext regs frame).1 c
        ((sideBySide biquadPairNext rows frame).1 c)) ∧
      (eq2NeonNext regs frame).2 = (sideBySide biquadPairNext rows frame).2 := by
  have hinput : ∀ c : Channel, (bif c == .right then frame .right
      else bif c == .left then frame .left else regs .v0 c) = frame c := by
    intro c
    cases c with
    | left => rfl
    | right => rfl
  have hfilters : ∀ c, HoldsFilters .r (Neon.run eq2NeonFilters ⟨regs, frame⟩).regs c
        (biquadPairNext (rows c) (frame c)).1 ∧
      (Neon.run eq2NeonFilters ⟨regs, frame⟩).regs .v2 c = (biquadPairNext (rows c) (frame c)).2 :=
    fun c => (h c).neon (hinput c)
  unfold eq2NeonNext eq2Neon
  rw [Neon.run_append]
  exact ⟨fun c => (hfilters c).1,
    funext fun c => HoldsFilters.neonStores_cells.trans (hfilters c).2⟩

theorem eq2Sse3Next_holds [Zero F] [Add F] [Sub F] [CommMagma F] {regs : FilterReg → Lane → F}
    {rows : Stereo (Biquad F × Biquad F)} (h : ∀ c, HoldsFilters .r regs c.lane (rows c))
    (frame : Stereo F) :
    (∀ c, HoldsFilters .r (eq2Sse3Next regs frame).1 (Channel.lane c)
        ((sideBySide biquadPairNext rows frame).1 c)) ∧
      (eq2Sse3Next regs frame).2 = (sideBySide biquadPairNext rows frame).2 := by
  have hfilters := fun c => HoldsFilters.sse (HoldsFilters.after_loads (s := ⟨regs, frame⟩) (h c))
    HoldsFilters.sseLoads_v2
  unfold eq2Sse3Next eq2Sse3
  rw [Sse.run_append, Sse.run_append]
  exact ⟨fun c => (hfilters c).1.after_stores,
    funext fun c => HoldsFilters.sseStores_cells.trans (hfilters c).2⟩

section Stored

variable [Add F] [Sub F] [Mul F] {L : Type} {regs : FilterReg → L → F} {i : L}

/-- A loop changes histories only. -/
theorem storeFilters_transduce (data : List F) : ∀ pair : Biquad F × Biquad F,
    storeFilters regs i (transduce biquadPairNext pair data).1 = storeFilters regs i pair := by
  induction data with
  | nil => exact fun _ => rfl
  | cons x data ih => exact fun pair => ih (biquadPairNext pair x).1

/-- What a loop has left in a lane is stored. -/
theorem HoldsFilters.stored {pair : Biquad F × Biquad F} {data : List F}
    (h : HoldsFilters .r regs i (transduce biquadPairNext pair data).1) :
    storeFilters regs i pair = (transduce biquadPairNext pair data).1 := by
  rw [← storeFilters_transduce data, h.store_eq]

end Stored

section Rows

variable [Zero F]

theorem eq2ProcessTwo_neon [AddCommMagma F] [Sub F] [Mul F]
    (rows : Stereo (Biquad F × Biquad F)) (data : List (Stereo F)) (c : Channel) :
    (eq2ProcessTwo .neon rows data).1 c =
        (transduce biquadPairNext (rows c) (data.map (· c))).1 ∧
      (eq2ProcessTwo .neon rows data).2.map (· c) =
        (transduce biquadPairNext (rows c) (data.map (· c))).2 := by
  have hloaded : ∀ c, HoldsFilters .r (fun reg c => filterOperand (rows c) reg) c (rows c) :=
    fun c => .of_operands fun _ => rfl
  obtain ⟨hstate, houtput⟩ := transduce_simulates
    (R := fun regs (rows : Stereo (Biquad F × Biquad F)) => ∀ c, HoldsFilters .r regs c (rows c))
    (fun _ _ frame h => eq2NeonNext_holds h frame) data hloaded
  obtain ⟨hchannel, hchannels⟩ := transduce_sideBySide biquadPairNext c data rows
  have hholds := hstate c
  rw [hchannel] at hholds
  refine ⟨hholds.stored, ?_⟩
  rw [← hchannels, ← houtput]
  rfl

theorem eq2ProcessTwo_sse3 [Add F] [Sub F] [CommMagma F]
    (rows : Stereo (Biquad F × Biquad F)) (data : List (Stereo F)) (c : Channel) :
    (eq2ProcessTwo .sse3 rows data).1 c =
        (transduce biquadPairNext (rows c) (data.map (· c))).1 ∧
      (eq2ProcessTwo .sse3 rows data).2.map (· c) =
        (transduce biquadPairNext (rows c) (data.map (· c))).2 := by
  have hloaded : ∀ c : Channel, HoldsFilters .r
      (fun reg =>
        Lane.pack (filterOperand (rows .left) reg) (filterOperand (rows .right) reg) 0 0)
      c.lane (rows c) := by
    intro c
    cases c with
    | left => exact .of_operands fun _ => rfl
    | right => exact .of_operands fun _ => rfl
  obtain ⟨hstate, houtput⟩ := transduce_simulates
    (R := fun regs (rows : Stereo (Biquad F × Biquad F)) =>
      ∀ c, HoldsFilters .r regs (Channel.lane c) (rows c))
    (fun _ _ frame h => eq2Sse3Next_holds h frame) data hloaded
  obtain ⟨hchannel, hchannels⟩ := transduce_sideBySide biquadPairNext c data rows
  have hholds := hstate c
  rw [hchannel] at hholds
  refine ⟨hholds.stored, ?_⟩
  rw [← hchannels, ← houtput]
  rfl

theorem eq2ProcessTwo_plain [Add F] [Sub F] [Mul F]
    (rows : Stereo (Biquad F × Biquad F)) (data : List (Stereo F)) (c : Channel) :
    (eq2ProcessTwo .plain rows data).1 c =
        ((transduce Biquad.next (rows c).1 (data.map (· c))).1,
          (transduce Biquad.next (rows c).2
            (transduce Biquad.next (rows c).1 (data.map (· c))).2).1) ∧
      (eq2ProcessTwo .plain rows data).2.map (· c) =
        (transduce Biquad.next (rows c).2
          (transduce Biquad.next (rows c).1 (data.map (· c))).2).2 := by
  obtain ⟨hone, hfirst⟩ :=
    transduce_sideBySide Biquad.next c data fun c => (rows c).1
  obtain ⟨htwo, hsecond⟩ := transduce_sideBySide Biquad.next c
    (transduce (sideBySide Biquad.next) (fun c => (rows c).1) data).2 fun c => (rows c).2
  rw [hfirst] at htwo hsecond
  exact ⟨Prod.ext hone htwo, hsecond⟩

/-! ## All rows -/

theorem eq2Rows_plain [Add F] [Sub F] [Mul F] (c : Channel) :
    ∀ (rows : List (Stereo (Biquad F))) (data : List (Stereo F)),
      (eq2Rows .plain rows data).1.map (· c) =
          (cascade Biquad.next (rows.map (· c)) (data.map (· c))).1 ∧
        (eq2Rows .plain rows data).2.map (· c) =
          (cascade Biquad.next (rows.map (· c)) (data.map (· c))).2
  | [], _ => ⟨rfl, rfl⟩
  | [row], data => by
      obtain ⟨hstate, houtput⟩ := transduce_sideBySide Biquad.next c data row
      exact ⟨congrArg (fun q => [q]) hstate, houtput⟩
  | row :: row' :: rest, data => by
      obtain ⟨hstate, houtput⟩ := eq2ProcessTwo_plain (fun c => (row c, row' c)) data c
      obtain ⟨hrest, hlast⟩ := eq2Rows_plain c rest
        (eq2ProcessTwo .plain (fun c => (row c, row' c)) data).2
      rw [houtput] at hrest hlast
      obtain ⟨hq, hr⟩ := Prod.ext_iff.mp hstate
      exact ⟨congrArg₂ List.cons hq (congrArg₂ List.cons hr hrest), hlast⟩

/-- Rows of which two at a time go through the loop over two filters. -/
theorem eq2Rows_pairs [Add F] [Sub F] [Mul F] {build : Build} {c : Channel}
    (htwo : ∀ (rows : Stereo (Biquad F × Biquad F)) (data : List (Stereo F)),
      (eq2ProcessTwo build rows data).1 c =
          (transduce biquadPairNext (rows c) (data.map (· c))).1 ∧
        (eq2ProcessTwo build rows data).2.map (· c) =
          (transduce biquadPairNext (rows c) (data.map (· c))).2) :
    ∀ (rows : List (Stereo (Biquad F))) (data : List (Stereo F)),
      (eq2Rows build rows data).1.map (· c) =
          (biquadPairs (rows.map (· c)) (data.map (· c))).1 ∧
        (eq2Rows build rows data).2.map (· c) =
          (biquadPairs (rows.map (· c)) (data.map (· c))).2
  | [], _ => ⟨rfl, rfl⟩
  | [row], data => by
      obtain ⟨hstate, houtput⟩ := transduce_sideBySide Biquad.next c data row
      exact ⟨congrArg (fun q => [q]) hstate, houtput⟩
  | row :: row' :: rest, data => by
      obtain ⟨hstate, houtput⟩ := htwo (fun c => (row c, row' c)) data
      obtain ⟨hrest, hlast⟩ := eq2Rows_pairs htwo rest
        (eq2ProcessTwo build (fun c => (row c, row' c)) data).2
      rw [houtput] at hrest hlast
      obtain ⟨hq, hr⟩ := Prod.ext_iff.mp hstate
      exact ⟨congrArg₂ List.cons hq (congrArg₂ List.cons hr hrest), hlast⟩

/-- What the filters of a channel are to the code. -/
def Build.filters : Build → List (Biquad F) → List (Biquad F)
  | .plain, row => row
  | .neon, row => refresh row
  | .sse3, row => refresh row

theorem Build.filters_of_cleared (build : Build) {row : List (Biquad F)}
    (hcleared : ∀ q ∈ row, q.Cleared) : build.filters row = row := by
  cases build with
  | plain => rfl
  | neon => exact refresh_of_cleared hcleared
  | sse3 => exact refresh_of_cleared hcleared

section Commutative

variable [AddCommMagma F] [Sub F] [CommMagma F]

theorem eq2Rows_channel (build : Build) (c : Channel) (rows : List (Stereo (Biquad F)))
    (data : List (Stereo F)) :
    build.filters ((eq2Rows build rows data).1.map (· c)) =
        (cascade Biquad.next (build.filters (rows.map (· c))) (data.map (· c))).1 ∧
      (eq2Rows build rows data).2.map (· c) =
        (cascade Biquad.next (build.filters (rows.map (· c))) (data.map (· c))).2 := by
  have hpairs := biquadPairs_eq (rows.map (· c)) (data.map (· c))
  cases build with
  | plain => exact eq2Rows_plain c rows data
  | neon =>
      obtain ⟨hstate, houtput⟩ := eq2Rows_pairs (eq2ProcessTwo_neon · · c) rows data
      rw [hstate, houtput]
      exact hpairs
  | sse3 =>
      obtain ⟨hstate, houtput⟩ := eq2Rows_pairs (eq2ProcessTwo_sse3 · · c) rows data
      rw [hstate, houtput]
      exact hpairs

theorem eq2Process_channel (build : Build) (c : Channel) (eq2 : Eq2State F)
    (data : List (Stereo F)) :
    build.filters ((eq2Process build eq2 data).1.channel c) =
        (cascade Biquad.next (build.filters (eq2.channel c)) (data.map (· c))).1 ∧
      (eq2Process build eq2 data).2.map (· c) =
        (cascade Biquad.next (build.filters (eq2.channel c)) (data.map (· c))).2 := by
  unfold eq2Process
  split
  · rename_i hempty
    rw [List.isEmpty_iff.mp hempty, List.map_nil, cascade_nil]
    exact ⟨rfl, rfl⟩
  · have hrows := eq2Rows_channel build c (eq2.biquad.take eq2.rows) data
    have hlen : (eq2Rows build (eq2.biquad.take eq2.rows) data).1.length = eq2.rows := by
      rw [length_eq2Rows, List.length_take, Nat.min_eq_left eq2.rows_le]
    have htake : ((eq2Rows build (eq2.biquad.take eq2.rows) data).1 ++
        eq2.biquad.drop eq2.rows).take eq2.rows =
          (eq2Rows build (eq2.biquad.take eq2.rows) data).1 := by
      rw [List.take_left' hlen]
    refine ⟨Eq.trans ?_ hrows.1, hrows.2⟩
    exact congrArg (fun rows => build.filters (rows.map (· c))) htake

theorem runBlocks_eq2Process (build : Build) (c : Channel) (eq2 : Eq2State F)
    (blocks : List (List (Stereo F))) :
    (runBlocks (eq2Process build) eq2 blocks).2.map (· c) =
      (cascade Biquad.next (build.filters (eq2.channel c)) (blocks.flatten.map (· c))).2 := by
  have hblocks : (runBlocks (eq2Process build) eq2 blocks).2.map (· c) =
      (runBlocks (cascade Biquad.next) (build.filters (eq2.channel c))
        (blocks.map (List.map (· c)))).2 :=
    (runBlocks_map_simulates
      (R := fun (eq2 : Eq2State F) row => build.filters (eq2.channel c) = row)
      (fun eq2 row data h => by
        cases h
        exact eq2Process_channel build c eq2 data) blocks rfl).2
  rw [hblocks, runBlocks_cascade, List.map_flatten]

end Commutative

end Rows

end DragonDevice.Dsp
