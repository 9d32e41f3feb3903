/-
  Dsp/Crossover2Channels.lean --- a crossover2 is a crossover on each channel.

  Whatever the code is made for, a loop over four lanes leaves the histories and puts out the
  samples that the plain loop does, and a channel of the plain loop is the loop of
  `crossover.c`.
-/
import DragonDevice.Dsp.Crossover2

set_option autoImplicit false

namespace DragonDevice.Dsp

open DragonDevice.Lib

variable {F : Type}

/-! ## Lanes -/

/-- The biquad of a filter twice.  The inputs of the second are not kept. -/
def Lr4.pair [Zero F] (f : Lr4 F) : Biquad F × Biquad F :=
  (⟨f.b0, f.b1, f.b2, f.a1, f.a2, f.x1, f.x2, f.y1, f.y2⟩,
    ⟨f.b0, f.b1, f.b2, f.a1, f.a2, 0, 0, f.z1, f.z2⟩)

/-- The lanes have the operands of the two filters on each channel. -/
structure HoldsLr42 [Zero F] (regs : FilterReg → Lane → F) (rows : Stereo (Lr4 F × Lr4 F)) :
    Prop where
  low : ∀ c : Channel, HoldsFilters .q regs c.lpLane (rows c).1.pair
  high : ∀ c : Channel, HoldsFilters .q regs c.hpLane (rows c).2.pair

/-- A register has the outputs of the two filters on each channel. -/
structure HoldsOutputs [Add F] [Sub F] [Mul F] (register : Lane → F)
    (rows : Stereo (Lr4 F × Lr4 F)) (frame : Stereo F) : Prop where
  low : ∀ c : Channel, register c.lpLane = ((rows c).1.next (frame c)).2
  high : ∀ c : Channel, register c.hpLane = ((rows c).2.next (frame c)).2

theorem HoldsFilters.of_lr4Operand [Zero F] {L : Type} {regs : FilterReg → L → F} {i : L}
    {f : Lr4 F} (h : ∀ reg, regs reg i = lr4Operand f reg) : HoldsFilters .q regs i f.pair :=
  ⟨h _, h _, h _, h _, h _, h _, h _, h _, h _, h _, h _, h _, h _, h _, h _, h _⟩

theorem HoldsLr42.of_operands [Zero F] (lp hp : Lr42 F) :
    HoldsLr42 (lr42Operands lp hp) fun c => (lp.channel c, hp.channel c) where
  low c := by
    cases c with
    | left => exact .of_lr4Operand fun _ => rfl
    | right => exact .of_lr4Operand fun _ => rfl
  high c := by
    cases c with
    | left => exact .of_lr4Operand fun _ => rfl
    | right => exact .of_lr4Operand fun _ => rfl

theorem HoldsLr42.set_v1 [Zero F] {P : Type} {rows : Stereo (Lr4 F × Lr4 F)}
    {s : VectorState FilterReg P Lane F} (v : Lane → F)
    (h : HoldsLr42 s.regs rows) : HoldsLr42 (s.set .v1 v).regs rows :=
  ⟨fun c => { h.low c with }, fun c => { h.high c with }⟩

theorem HoldsLr42.set_v2 [Zero F] {P : Type} {rows : Stereo (Lr4 F × Lr4 F)}
    {s : VectorState FilterReg P Lane F} (v : Lane → F)
    (h : HoldsLr42 s.regs rows) : HoldsLr42 (s.set .v2 v).regs rows :=
  ⟨fun c => { h.low c with }, fun c => { h.high c with }⟩

section Turn

variable {P : Type} [DecidableEq P] {rows : Stereo (Lr4 F × Lr4 F)}
  {s : VectorState FilterReg P Lane F}

/-- The rows after a turn. -/
def nextRows [Add F] [Sub F] [Mul F] (rows : Stereo (Lr4 F × Lr4 F)) (frame : Stereo F) :
    Stereo (Lr4 F × Lr4 F) :=
  fun c => (((rows c).1.next (frame c)).1, ((rows c).2.next (frame c)).1)

theorem HoldsLr42.neon [Zero F] [AddCommMagma F] [Sub F] [Mul F] (h : HoldsLr42 s.regs rows)
    {frame : Stereo F} (left right : P)
    (hleft : s.cells left = frame .left) (hright : s.cells right = frame .right) :
    HoldsLr42 (Neon.run (lr42Neon left right) s).regs (nextRows rows frame) ∧
      HoldsOutputs ((Neon.run (lr42Neon left right) s).regs .v2) rows frame := by
  have hlow : ∀ c : Channel, (bif !c.lpLane.lowHalf then s.cells right
      else bif c.lpLane.lowHalf then s.cells left else s.regs .v0 c.lpLane) = frame c := by
    intro c
    cases c with
    | left => exact hleft
    | right => exact hright
  have hhigh : ∀ c : Channel, (bif !c.hpLane.lowHalf then s.cells right
      else bif c.hpLane.lowHalf then s.cells left else s.regs .v0 c.hpLane) = frame c := by
    intro c
    cases c with
    | left => exact hleft
    | right => exact hright
  exact ⟨⟨fun c => ((h.low c).neon (hlow c)).1, fun c => ((h.high c).neon (hhigh c)).1⟩,
    ⟨fun c => ((h.low c).neon (hlow c)).2, fun c => ((h.high c).neon (hhigh c)).2⟩⟩

theorem HoldsLr42.sse [Zero F] [Add F] [Sub F] [CommMagma F] (h : HoldsLr42 s.regs rows)
    {frame : Stereo F} (left right : P)
    (hleft : s.cells left = frame .left) (hright : s.cells right = frame .right) :
    HoldsLr42 (Sse.run (sseFilters .q) (Sse.run (lr42SseLoads left right) s)).regs
        (nextRows rows frame) ∧
      HoldsOutputs ((Sse.run (sseFilters .q) (Sse.run (lr42SseLoads left right) s)).regs .v1)
        rows frame := by
  have hkept : ∀ (i : Lane) (pair : Biquad F × Biquad F), HoldsFilters .q s.regs i pair →
      HoldsFilters .q (Sse.run (lr42SseLoads left right) s).regs i pair :=
    fun _ _ h => { h with }
  have hlow : ∀ c : Channel,
      (Sse.run (lr42SseLoads left right) s).regs .v2 c.lpLane = frame c := by
    intro c
    cases c with
    | left => exact hleft
    | right => exact hright
  have hhigh : ∀ c : Channel,
      (Sse.run (lr42SseLoads left right) s).regs .v2 c.hpLane = frame c := by
    intro c
    cases c with
    | left => exact hleft
    | right => exact hright
  exact ⟨⟨fun c => ((hkept _ _ (h.low c)).sse (hlow c)).1,
      fun c => ((hkept _ _ (h.high c)).sse (hhigh c)).1⟩,
    ⟨fun c => ((hkept _ _ (h.low c)).sse (hlow c)).2,
      fun c => ((hkept _ _ (h.high c)).sse (hhigh c)).2⟩⟩

end Turn

/-! ## The stores -/

section Stores

variable [Add F] [Sub F] [Mul F] (c : Channel)

theorem splitNeonStores_cells (s : VectorState FilterReg SplitData Lane F) :
    (Neon.run splitNeonStores s).cells (.data0 c) = s.regs .v2 c.lpLane ∧
      (Neon.run splitNeonStores s).cells (.data1 c) = s.regs .v2 c.hpLane := by
  cases c with
  | left => exact ⟨rfl, rfl⟩
  | right => exact ⟨rfl, rfl⟩

theorem mergeNeonStores_cells (s : VectorState FilterReg Channel Lane F) :
    (Neon.run mergeNeonStores s).cells c = s.regs .v2 c.lpLane + s.regs .v2 c.hpLane := by
  cases c with
  | left => rfl
  | right => rfl

variable [Zero F]

theorem splitSseStores_cells (s : VectorState FilterReg SplitData Lane F) :
    (Sse.run splitSseStores s).cells (.data0 c) = s.regs .v1 c.lpLane ∧
      (Sse.run splitSseStores s).cells (.data1 c) = s.regs .v1 c.hpLane := by
  cases c with
  | left => exact ⟨rfl, rfl⟩
  | right => exact ⟨rfl, rfl⟩

theorem mergeSseStores_cells (s : VectorState FilterReg Channel Lane F) :
    (Sse.run mergeSseStores s).cells c = s.regs .v1 c.lpLane + s.regs .v1 c.hpLane := by
  cases c with
  | left => rfl
  | right => rfl

/-! They write to `q2` or `xmm1` only. -/

variable {rows : Stereo (Lr4 F × Lr4 F)}

theorem HoldsLr42.splitNeonStores {s : VectorState FilterReg SplitData Lane F}
    (h : HoldsLr42 s.regs rows) : HoldsLr42 (Neon.run Dsp.splitNeonStores s).regs rows := h

theorem HoldsLr42.mergeNeonStores {s : VectorState FilterReg Channel Lane F}
    (h : HoldsLr42 s.regs rows) : HoldsLr42 (Neon.run Dsp.mergeNeonStores s).regs rows :=
  h.set_v2 _

theorem HoldsLr42.splitSseStores {s : VectorState FilterReg SplitData Lane F}
    (h : HoldsLr42 s.regs rows) : HoldsLr42 (Sse.run Dsp.splitSseStores s).regs rows := by
  have hfirst := h.set_v1 ((Sse.run (Dsp.splitSseStores.take 2) s).regs .v1)
  have hsecond := hfirst.set_v1 ((Sse.run (Dsp.splitSseStores.take 4) s).regs .v1)
  exact hsecond.set_v1 ((Sse.run (Dsp.splitSseStores.take 6) s).regs .v1)

theorem HoldsLr42.mergeSseStores {s : VectorState FilterReg Channel Lane F}
    (h : HoldsLr42 s.regs rows) : HoldsLr42 (Sse.run Dsp.mergeSseStores s).regs rows := by
  have hfirst := h.set_v1 ((Sse.run (Dsp.mergeSseStores.take 1) s).regs .v1)
  exact hfirst.set_v1 ((Sse.run (Dsp.mergeSseStores.take 3) s).regs .v1)

end Stores

/-! ## A turn -/

section Turns

variable [Zero F] {rows : Stereo (Lr4 F × Lr4 F)} {regs : FilterReg → Lane → F}
  (frame : Stereo F)

theorem splitNeonNext_holds [AddCommMagma F] [Sub F] [Mul F] (h : HoldsLr42 regs rows) :
    HoldsLr42 (splitNeonNext regs frame).1 (sideBySide lr4SplitNext rows frame).1 ∧
      (splitNeonNext regs frame).2 = (sideBySide lr4SplitNext rows frame).2 := by
  obtain ⟨hrows, houtputs⟩ := HoldsLr42.neon (s := ⟨regs, splitCells frame⟩) h
    (SplitData.data0 .left) (SplitData.data0 .right) rfl rfl
  unfold splitNeonNext
  rw [Neon.run_append]
  exact ⟨hrows.splitNeonStores, funext fun c => Prod.ext
    ((splitNeonStores_cells c _).1.trans (houtputs.low c))
    ((splitNeonStores_cells c _).2.trans (houtputs.high c))⟩

theorem splitSseNext_holds [Add F] [Sub F] [CommMagma F] (h : HoldsLr42 regs rows) :
    HoldsLr42 (splitSseNext regs frame).1 (sideBySide lr4SplitNext rows frame).1 ∧
      (splitSseNext regs frame).2 = (sideBySide lr4SplitNext rows frame).2 := by
  obtain ⟨hrows, houtputs⟩ := HoldsLr42.sse (s := ⟨regs, splitCells frame⟩) h
    (SplitData.data0 .left) (SplitData.data0 .right) rfl rfl
  have hcells := fun c => splitSseStores_cells c (Sse.run (sseFilters .q)
    (Sse.run (lr42SseLoads (.data0 .left) (.data0 .right)) ⟨regs, splitCells frame⟩))
  unfold splitSseNext
  rw [Sse.run_append, Sse.run_append]
  exact ⟨hrows.splitSseStores, funext fun c => Prod.ext ((hcells c).1.trans (houtputs.low c))
    ((hcells c).2.trans (houtputs.high c))⟩

theorem mergeNeonNext_holds [AddCommMagma F] [Sub F] [Mul F] (h : HoldsLr42 regs rows) :
    HoldsLr42 (mergeNeonNext regs frame).1 (sideBySide lr4MergeNext rows frame).1 ∧
      (mergeNeonNext regs frame).2 = (sideBySide lr4MergeNext rows frame).2 := by
  obtain ⟨hrows, houtputs⟩ := HoldsLr42.neon (s := ⟨regs, frame⟩) h Channel.left Channel.right
    rfl rfl
  unfold mergeNeonNext
  rw [Neon.run_append]
  refine ⟨hrows.mergeNeonStores, funext fun c => (mergeNeonStores_cells c _).trans ?_⟩
  rw [houtputs.low, houtputs.high]
  exact add_comm _ _

theorem mergeSseNext_holds [AddCommMagma F] [Sub F] [CommMagma F] (h : HoldsLr42 regs rows) :
    HoldsLr42 (mergeSseNext regs frame).1 (sideBySide lr4MergeNext rows frame).1 ∧
      (mergeSseNext regs frame).2 = (sideBySide lr4MergeNext rows frame).2 := by
  obtain ⟨hrows, houtputs⟩ := HoldsLr42.sse (s := ⟨regs, frame⟩) h Channel.left Channel.right
    rfl rfl
  unfold mergeSseNext
  rw [Sse.run_append, Sse.run_append]
  refine ⟨hrows.mergeSseStores, funext fun c => (mergeSseStores_cells c _).trans ?_⟩
  rw [houtputs.low, houtputs.high]
  exact add_comm _ _

end Turns

/-! ## A block -/

theorem Lr42.storeRegs_eq [Zero F] {regs : FilterReg → Lane → F} {lane : Channel → Lane}
    {f : Stereo (Lr4 F)} (h : ∀ c, HoldsFilters .q regs (lane c) (f c).pair) (lr42 : Lr42 F) :
    lr42.storeRegs regs lane = lr42.store f := by
  have hx1 : (fun c => regs .x1 (lane c)) = fun c => (f c).x1 := funext fun c => (h c).x1
  have hx2 : (fun c => regs .x2 (lane c)) = fun c => (f c).x2 := funext fun c => (h c).x2
  have hy1 : (fun c => regs .y1 (lane c)) = fun c => (f c).y1 := funext fun c => (h c).y1
  have hy2 : (fun c => regs .y2 (lane c)) = fun c => (f c).y2 := funext fun c => (h c).y2
  have hz1 : (fun c => regs .z1 (lane c)) = fun c => (f c).z1 := funext fun c => (h c).z1
  have hz2 : (fun c => regs .z2 (lane c)) = fun c => (f c).z2 := funext fun c => (h c).z2
  unfold Lr42.storeRegs Lr42.store
  rw [hx1, hx2, hy1, hy2, hz1, hz2]

/-- A loop in assembly is the plain loop. -/
theorem lr42Vector_eq [Zero F] [Add F] [Sub F] [Mul F] {γ : Type}
    {next : (FilterReg → Lane → F) → Stereo F → (FilterReg → Lane → F) × Stereo γ}
    {out : F → F → γ}
    (hnext : ∀ regs rows frame, HoldsLr42 regs rows →
      HoldsLr42 (next regs frame).1 (sideBySide (lr4PairNext out) rows frame).1 ∧
        (next regs frame).2 = (sideBySide (lr4PairNext out) rows frame).2)
    (lp hp : Lr42 F) (data : List (Stereo F)) :
    lr42Vector next lp hp data = lr42Plain out lp hp data := by
  obtain ⟨hstate, houtput⟩ := transduce_simulates hnext data (HoldsLr42.of_operands lp hp)
  exact Prod.ext (Prod.ext (Lr42.storeRegs_eq hstate.low lp) (Lr42.storeRegs_eq hstate.high hp))
    houtput

/-- A channel of the plain loop is a loop on that channel. -/
theorem lr42Plain_channel [Add F] [Sub F] [Mul F] {γ : Type} (out : F → F → γ) (c : Channel)
    (lp hp : Lr42 F) (data : List (Stereo F)) :
    ((lr42Plain out lp hp data).1.1.channel c, (lr42Plain out lp hp data).1.2.channel c) =
        (transduce (lr4PairNext out) (lp.channel c, hp.channel c) (data.map (· c))).1 ∧
      (lr42Plain out lp hp data).2.map (· c) =
        (transduce (lr4PairNext out) (lp.channel c, hp.channel c) (data.map (· c))).2 := by
  obtain ⟨hstate, houtput⟩ := transduce_sideBySide (lr4PairNext out) c data
    fun c => (lp.channel c, hp.channel c)
  obtain ⟨hlow, hhigh⟩ := withHistory_transduce out (data.map (· c))
    (lp.channel c, hp.channel c)
  rw [← hstate] at hlow hhigh ⊢
  exact ⟨Prod.ext hlow hhigh, houtput⟩

section Commutative

variable [Zero F] [AddCommMagma F] [Sub F] [CommMagma F] (build : Build) (c : Channel)
  (lp hp : Lr42 F) (data : List (Stereo F))

theorem lr42Split_build : lr42Split build lp hp data = lr42Split .plain lp hp data := by
  cases build with
  | plain => rfl
  | neon =>
      unfold lr42Split
      simp only [lr42Vector_eq fun _ _ frame h => splitNeonNext_holds frame h]
  | sse3 =>
      unfold lr42Split
      simp only [lr42Vector_eq fun _ _ frame h => splitSseNext_holds frame h]

theorem lr42Merge_build : lr42Merge build lp hp data = lr42Merge .plain lp hp data := by
  cases build with
  | plain => rfl
  | neon => exact lr42Vector_eq (fun _ _ frame h => mergeNeonNext_holds frame h) lp hp data
  | sse3 => exact lr42Vector_eq (fun _ _ frame h => mergeSseNext_holds frame h) lp hp data

theorem lr42Split_channel :
    ((lr42Split build lp hp data).1.1.channel c, (lr42Split build lp hp data).1.2.channel c) =
        (lr4Split (lp.channel c) (hp.channel c) (data.map (· c))).1 ∧
      (lr42Split build lp hp data).2.1.map (· c) =
        (lr4Split (lp.channel c) (hp.channel c) (data.map (· c))).2.1 ∧
      (lr42Split build lp hp data).2.2.map (· c) =
        (lr4Split (lp.channel c) (hp.channel c) (data.map (· c))).2.2 := by
  rw [lr42Split_build]
  obtain ⟨hstate, houtput⟩ :=
    lr42Plain_channel (fun low high => (low, high)) c lp hp data
  have hfirst : ∀ frames : List (Stereo (F × F)),
      (frames.map fun frame c => (frame c).1).map (· c) = (frames.map (· c)).map (·.1) :=
    fun frames => by
      rw [List.map_map, List.map_map]
      rfl
  have hsecond : ∀ frames : List (Stereo (F × F)),
      (frames.map fun frame c => (frame c).2).map (· c) = (frames.map (· c)).map (·.2) :=
    fun frames => by
      rw [List.map_map, List.map_map]
      rfl
  exact ⟨hstate, (hfirst _).trans (congrArg _ houtput), (hsecond _).trans (congrArg _ houtput)⟩

theorem lr42Merge_channel :
    ((lr42Merge build lp hp data).1.1.channel c, (lr42Merge build lp hp data).1.2.channel c) =
        (lr4Merge (lp.channel c) (hp.channel c) (data.map (· c))).1 ∧
      (lr42Merge build lp hp data).2.map (· c) =
        (lr4Merge (lp.channel c) (hp.channel c) (data.map (· c))).2 := by
  rw [lr42Merge_build]
  exact lr42Plain_channel (fun low high => high + low) c lp hp data

theorem crossover2Process_channel (xo2 : Crossover (Lr42 F)) :
    (crossover2Process build xo2 data).1.map (·.channel c) =
        (crossoverProcess (xo2.map (·.channel c)) (data.map (· c))).1 ∧
      (crossover2Process build xo2 data).2.map (List.map (· c)) =
        (crossoverProcess (xo2.map (·.channel c)) (data.map (· c))).2 := by
  unfold crossover2Process
  split
  · rename_i hempty
    rw [List.isEmpty_iff.mp hempty]
    exact ⟨rfl, rfl⟩
  · obtain ⟨hbands, hdata0, hdata1⟩ := lr42Split_channel build c xo2.lp0 xo2.hp0 data
    obtain ⟨hlow, hlows⟩ := lr42Merge_channel build c xo2.lp1 xo2.hp1
      (lr42Split build xo2.lp0 xo2.hp0 data).2.1
    obtain ⟨hhigh, hhighs, htops⟩ := lr42Split_channel build c xo2.lp2 xo2.hp2
      (lr42Split build xo2.lp0 xo2.hp0 data).2.2
    rw [hdata0] at hlow hlows
    rw [hdata1] at hhigh hhighs htops
    obtain ⟨hlp0, hhp0⟩ := Prod.ext_iff.mp hbands
    obtain ⟨hlp1, hhp1⟩ := Prod.ext_iff.mp hlow
    obtain ⟨hlp2, hhp2⟩ := Prod.ext_iff.mp hhigh
    exact ⟨Crossover.ext hlp0 hlp1 hlp2 hhp0 hhp1 hhp2, Bands.ext hlows hhighs htops⟩

end Commutative

/-- The filters of a new crossover2 are on each channel those of a new crossover. -/
theorem crossover2Init_channel [Zero F] (lowpass1 highpass1 lowpass2 highpass2 : Coefficients F)
    (c : Channel) :
    (crossover2Init lowpass1 highpass1 lowpass2 highpass2).map (·.channel c) =
      crossoverInit lowpass1 highpass1 lowpass2 highpass2 := rfl

section Blocks

variable [Zero F] [AddCommMagma F] [Sub F] [CommMagma F]

/-- A block keeps a crossover the channel of a crossover2. -/
theorem crossover2Process_keeps (build : Build) (c : Channel) (xo2 : Crossover (Lr42 F))
    (xo : Crossover (Lr4 F)) (data : List (Stereo F)) (h : xo2.map (·.channel c) = xo) :
    (crossover2Process build xo2 data).1.map (·.channel c) =
        (crossoverProcess xo (data.map (· c))).1 ∧
      (crossover2Process build xo2 data).2.map (List.map (· c)) =
        (crossoverProcess xo (data.map (· c))).2 := by
  cases h
  exact crossover2Process_channel build c data xo2

/-- Whatever the code is made for, each channel of a crossover2 is what a crossover makes of that
channel, in all bands and after any blocks of input. -/
theorem crossover2_is_crossover (build : Build) (c : Channel) (xo2 : Crossover (Lr42 F))
    (blocks : List (List (Stereo F))) :
    (transduce (crossover2Process build) xo2 blocks).1.map (·.channel c) =
        (transduce crossoverProcess (xo2.map (·.channel c))
          (blocks.map (List.map (· c)))).1 ∧
      (transduce (crossover2Process build) xo2 blocks).2.map (Bands.map (List.map (· c))) =
        (transduce crossoverProcess (xo2.map (·.channel c))
          (blocks.map (List.map (· c)))).2 :=
  transduce_map_simulates (crossover2Process_keeps build c) blocks rfl

/-- A new crossover2 puts out on each channel what a new crossover puts out. -/
theorem crossover2Init_bands (build : Build) (c : Channel)
    (lowpass1 highpass1 lowpass2 highpass2 : Coefficients F) (blocks : List (List (Stereo F))) :
    (transduce (crossover2Process build) (crossover2Init lowpass1 highpass1 lowpass2 highpass2)
        blocks).2.map (Bands.map (List.map (· c))) =
      (transduce crossoverProcess (crossoverInit lowpass1 highpass1 lowpass2 highpass2)
        (blocks.map (List.map (· c)))).2 :=
  (transduce_map_simulates (crossover2Process_keeps build c) blocks
    (crossover2Init_channel lowpass1 highpass1 lowpass2 highpass2 c)).2

end Blocks

end DragonDevice.Dsp
