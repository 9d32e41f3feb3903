/-
  Dsp/DrcBlocks.lean --- a kernel of the compressor does not see how its input is cut into
  blocks.

  Both loops copy stretches of the ring that stay clear of each other and of its end, so
  that a call does what a machine does that takes one frame at a time.  For a disabled
  kernel this is a delay line.
-/
import DragonDevice.Dsp.DrcKernel
import Mathlib.Algebra.Ring.Int.Defs

set_option autoImplicit false

namespace DragonDevice.Dsp

open DragonDevice.Lib

variable {S G : Type}

/-! ## Delays -/

/-- The indices are in the ring, as far apart as the delay, which is a number of divisions. -/
structure DrcKernel.Delays (dk : DrcKernel S G) : Prop where
  read_lt : dk.ring.read < maxPreDelayFrames
  write_lt : dk.ring.write < maxPreDelayFrames
  apart : (dk.ring.write + maxPreDelayFrames - dk.ring.read) % maxPreDelayFrames =
    dk.lastPreDelayFrames
  divisions : dk.lastPreDelayFrames % divisionFrames = 0
  le_delay : divisionFrames ≤ dk.lastPreDelayFrames
  delay_le : dk.lastPreDelayFrames ≤ maxPreDelayFrames - divisionFrames

theorem DrcKernel.Delays.ring {dk : DrcKernel S G} (h : dk.Delays) :
    dk.ring.Delays maxPreDelayFrames dk.lastPreDelayFrames where
  read_lt := h.read_lt
  write_eq := by
    obtain ⟨hread, hwrite, hapart, _, _, _⟩ := h
    simp only [maxPreDelayFrames] at *
    omega

theorem DrcKernel.Delays.of_ring {dk dk' : DrcKernel S G} (h : dk.Delays)
    (hlast : dk'.lastPreDelayFrames = dk.lastPreDelayFrames)
    (hring : dk'.ring.Delays maxPreDelayFrames dk.lastPreDelayFrames) : dk'.Delays := by
  obtain ⟨_, _, _, hdiv, hle, hge⟩ := h
  obtain ⟨hread, hwrite⟩ := hring
  simp only [maxPreDelayFrames, divisionFrames] at *
  refine ⟨hread, ?_, ?_, ?_, ?_, ?_⟩
  all_goals simp only [maxPreDelayFrames, divisionFrames, hlast]
  all_goals omega

/-- A kernel as `dk_init` and any calls of `set_pre_delay_time` leave it. -/
def freshKernel [Zero S] (gain : G) (delays : List Nat) : DrcKernel S G :=
  delays.foldl setPreDelayTime (dkInit gain)

/-- The kernel delays, nothing is in its ring, and no call has been made. -/
structure DrcKernel.Fresh [Zero S] (dk : DrcKernel S G) : Prop where
  delays : dk.Delays
  cells : dk.ring.cells = fun _ => 0
  enabled : dk.enabled = false
  aligned : dk.ring.write % divisionFrames = 0

theorem roundPreDelay_spec (frames : Nat) : roundPreDelay frames % divisionFrames = 0 ∧
    divisionFrames ≤ roundPreDelay frames ∧
    roundPreDelay frames ≤ maxPreDelayFrames - divisionFrames := by
  simp only [roundPreDelay, maxPreDelayFrames, divisionFrames]
  omega

theorem DrcKernel.Fresh.setPreDelayTime [Zero S] {dk : DrcKernel S G} (h : dk.Fresh)
    (frames : Nat) : (Dsp.setPreDelayTime dk frames).Fresh := by
  unfold Dsp.setPreDelayTime
  split
  · obtain ⟨hdiv, hle, hge⟩ := roundPreDelay_spec frames
    simp only [maxPreDelayFrames, divisionFrames] at hdiv hle hge
    refine ⟨⟨?_, ?_, ?_, ?_, ?_, ?_⟩, rfl, h.enabled, ?_⟩
    all_goals simp only [maxPreDelayFrames, divisionFrames]
    all_goals omega
  · exact h

theorem fresh_foldl [Zero S] (delays : List Nat) {dk : DrcKernel S G} (h : dk.Fresh) :
    (delays.foldl setPreDelayTime dk).Fresh := by
  induction delays generalizing dk with
  | nil => exact h
  | cons frames delays ih => exact ih (h.setPreDelayTime frames)

theorem freshKernel_fresh [Zero S] (gain : G) (delays : List Nat) :
    (freshKernel gain delays : DrcKernel S G).Fresh := by
  refine fresh_foldl delays ⟨⟨?_, ?_, ?_, ?_, ?_, ?_⟩, rfl, rfl, ?_⟩
  all_goals simp [dkInit, defaultPreDelayFrames, maxPreDelayFrames, divisionFrames]

/-! ## One frame at a time -/

/-- A frame goes into the ring, and one comes out. -/
def exchangeFrame (dk : DrcKernel S G) (a : S) : DrcKernel S G × S :=
  ({ dk with ring := (exchange maxPreDelayFrames dk.ring a).1 },
    (exchange maxPreDelayFrames dk.ring a).2)

theorem transduce_exchangeFrame (dk : DrcKernel S G) (data : List S) :
    transduce exchangeFrame dk data =
      ({ dk with ring := (transduce (exchange maxPreDelayFrames) dk.ring data).1 },
        (transduce (exchange maxPreDelayFrames) dk.ring data).2) := by
  induction data generalizing dk with
  | nil => rfl
  | cons a data ih =>
      rw [transduce, ih]
      rfl

theorem DrcKernel.Delays.transduce {dk : DrcKernel S G} (h : dk.Delays) (data : List S) :
    (Lib.transduce exchangeFrame dk data).1.Delays := by
  rw [transduce_exchangeFrame]
  exact h.of_ring rfl (h.ring.transduce data)

/-- The two stretches of a copy are in the ring, and they are different cells. -/
structure Copy.Fits (copy : Copy) : Prop where
  write_le : copy.write + copy.frames ≤ maxPreDelayFrames
  read_le : copy.read + copy.frames ≤ maxPreDelayFrames
  apart : copy.read + copy.frames ≤ copy.write ∨ copy.write + copy.frames ≤ copy.read

theorem dkCopyFragment_eq {dk : DrcKernel S G} (h : dk.Delays) (data : List S)
    (hfits : Copy.Fits ⟨dk.ring.write, dk.ring.read, data.length⟩) :
    dkCopyFragment dk data = transduce exchangeFrame dk data := by
  rw [transduce_exchangeFrame, dkCopyFragment, exchangeStretch_eq_transduce data dk.ring h.read_lt
    h.write_lt hfits.read_le hfits.write_le hfits.apart]

/-! ## Disabled kernels -/

theorem delayChunk_fits {dk : DrcKernel S G} (h : dk.Delays) (available : Nat) :
    Copy.Fits ⟨dk.ring.write, dk.ring.read, delayChunk dk.ring available⟩ := by
  obtain ⟨hread, hwrite, _, _, _, _⟩ := h
  unfold delayChunk
  simp only [maxPreDelayFrames] at *
  constructor
  all_goals simp only [maxPreDelayFrames]
  all_goals omega

/-- A turn makes progress. -/
theorem delayChunk_pos {dk : DrcKernel S G} (h : dk.Delays) {available : Nat}
    (havailable : 0 < available) : 0 < delayChunk dk.ring available := by
  obtain ⟨hread, hwrite, hapart, _, hle, _⟩ := h
  unfold delayChunk
  simp only [maxPreDelayFrames, divisionFrames] at *
  omega

/-- A call ends in as many turns as it has frames, and does what the frames do one by one. -/
theorem dkProcessDelayOnly_spec (turns : Nat) :
    ∀ (dk : DrcKernel S G) (data : List S), dk.Delays → data.length ≤ turns →
      ∃ copies, dkProcessDelayOnly turns dk data =
          some ⟨(transduce exchangeFrame dk data).1, (transduce exchangeFrame dk data).2, copies,
            0⟩ ∧
        ∀ copy ∈ copies, copy.Fits := by
  induction turns with
  | zero =>
      intro dk data _ hlen
      rw [List.eq_nil_of_length_eq_zero (Nat.le_zero.mp hlen)]
      exact ⟨[], rfl, by simp⟩
  | succ turns ih =>
      intro dk data h hlen
      cases data with
      | nil => exact ⟨[], rfl, by simp⟩
      | cons a data =>
          have hpos := delayChunk_pos h (Nat.succ_pos data.length)
          have hfits := delayChunk_fits h (data.length + 1)
          have hle : delayChunk dk.ring (data.length + 1) ≤ (a :: data).length :=
            Nat.min_le_right _ _
          rw [dkProcessDelayOnly]
          generalize delayChunk dk.ring (data.length + 1) = chunk at hpos hfits hle ⊢
          have htake : ((a :: data).take chunk).length = chunk := List.length_take_of_le hle
          have hcopy := dkCopyFragment_eq h ((a :: data).take chunk)
            (by rw [htake]; exact hfits)
          rw [hcopy]
          obtain ⟨copies, hrest, hcopies⟩ := ih _ ((a :: data).drop chunk)
            (h.transduce ((a :: data).take chunk)) (by
              rw [List.length_drop]
              rw [List.length_cons] at hlen ⊢
              omega)
          refine ⟨_, ?_, List.forall_mem_cons.mpr ⟨hfits, hcopies⟩⟩
          rw [hrest, Option.map_some, transduce_split chunk dk (a :: data)]
          rfl

/-- Calls one after another do what all frames do one by one. -/
theorem dkRun_disabled (steps : GainSteps S G) (blocks : List (List S)) :
    ∀ dk : DrcKernel S G, dk.Delays → dk.enabled = false →
      ∃ copies, dkRun steps dk blocks =
          some ⟨(transduce exchangeFrame dk blocks.flatten).1,
            (transduce exchangeFrame dk blocks.flatten).2, copies, 0⟩ ∧
        ∀ copy ∈ copies, copy.Fits := by
  induction blocks with
  | nil =>
      intro dk _ _
      exact ⟨[], rfl, by simp⟩
  | cons block blocks ih =>
      intro dk h henabled
      obtain ⟨copies, hblock, hcopies⟩ :=
        dkProcessDelayOnly_spec block.length dk block h (Nat.le_refl _)
      have hstill : (transduce exchangeFrame dk block).1.enabled = false := by
        rw [transduce_exchangeFrame]
        exact henabled
      obtain ⟨copies', hrest, hcopies'⟩ := ih _ (h.transduce block) hstill
      refine ⟨copies ++ copies', ?_, List.forall_mem_append.mpr ⟨hcopies, hcopies'⟩⟩
      rw [dkRun, dkProcess, henabled, if_neg Bool.false_ne_true, hblock, Option.bind_some, hrest,
        Option.map_some, List.flatten_cons, transduce_append]
      rfl

/-- However its input is cut into blocks, a disabled kernel puts out the input after as many
zeros as its delay has frames.  Every call ends, with the indices in the ring and as far
apart as before, and copies between different cells of the ring. -/
theorem dkRun_delays [Zero S] (steps : GainSteps S G) (gain : G) (delays : List Nat)
    (blocks : List (List S)) :
    ∃ p, dkRun steps (freshKernel gain delays) blocks = some p ∧ p.kernel.Delays ∧
      p.kernel.lastPreDelayFrames = (freshKernel gain delays : DrcKernel S G).lastPreDelayFrames ∧
      (∀ copy ∈ p.copies, copy.Fits) ∧
      p.output = (List.replicate p.kernel.lastPreDelayFrames 0 ++ blocks.flatten).take
        blocks.flatten.length := by
  have hfresh := freshKernel_fresh (S := S) gain delays
  generalize (freshKernel gain delays : DrcKernel S G) = dk at hfresh ⊢
  obtain ⟨copies, hrun, hcopies⟩ := dkRun_disabled steps blocks dk hfresh.delays hfresh.enabled
  have hlast : (transduce exchangeFrame dk blocks.flatten).1.lastPreDelayFrames =
      dk.lastPreDelayFrames := by
    rw [transduce_exchangeFrame]
  refine ⟨_, hrun, hfresh.delays.transduce _, hlast, hcopies, ?_⟩
  have hpos : 0 < dk.lastPreDelayFrames := by
    have hle := hfresh.delays.le_delay
    simp only [divisionFrames] at hle
    omega
  have hlt : dk.lastPreDelayFrames < maxPreDelayFrames := by
    have hle := hfresh.delays.delay_le
    simp only [maxPreDelayFrames, divisionFrames] at hle ⊢
    omega
  have hheld : dk.ring.held maxPreDelayFrames dk.lastPreDelayFrames =
      List.replicate dk.lastPreDelayFrames 0 := by
    unfold DelayRing.held
    rw [hfresh.cells, List.map_const', List.length_range]
  have hline := transduce_held hpos hlt blocks.flatten hfresh.delays.ring
  rw [hheld] at hline
  rw [hlast, ← hline, transduce_exchangeFrame]
  exact (List.take_left' (length_transduce _ _)).symm

/-! ## Enabled kernels -/

section Enabled

variable (steps : GainSteps S G)

/-- A frame goes into the ring and one comes out; with the last frame of a division, it is
processed. -/
def divisionFrame (dk : DrcKernel S G) (a : S) : DrcKernel S G × S :=
  (if (exchangeFrame dk a).1.ring.write % divisionFrames = 0 then
      dkProcessOneDivision steps (exchangeFrame dk a).1
    else (exchangeFrame dk a).1,
    (exchangeFrame dk a).2)

theorem DrcKernel.Delays.processOneDivision {dk : DrcKernel S G} (h : dk.Delays) :
    (dkProcessOneDivision steps dk).Delays :=
  ⟨h.read_lt, h.write_lt, h.apart, h.divisions, h.le_delay, h.delay_le⟩

theorem DrcKernel.Delays.prepare {dk : DrcKernel S G} (h : dk.Delays) :
    (dkPrepare steps dk).Delays := by
  unfold dkPrepare
  split
  · exact h
  · exact ⟨h.read_lt, h.write_lt, h.apart, h.divisions, h.le_delay, h.delay_le⟩

/-- The place in a division moves on with the write index. -/
theorem next_offset (write frames : Nat) :
    (write + frames) % maxPreDelayFrames % divisionFrames =
      (write % divisionFrames + frames) % divisionFrames := by
  simp only [maxPreDelayFrames, divisionFrames]
  omega

theorem DrcKernel.Delays.divisionFrame {dk : DrcKernel S G} (h : dk.Delays) (a : S) :
    (Dsp.divisionFrame steps dk a).1.Delays := by
  have hnext : (exchangeFrame dk a).1.Delays := h.transduce [a]
  unfold Dsp.divisionFrame
  split
  · exact hnext.processOneDivision steps
  · exact hnext

theorem divisionFrame_write (dk : DrcKernel S G) (a : S) :
    (divisionFrame steps dk a).1.ring.write = (dk.ring.write + 1) % maxPreDelayFrames := by
  unfold divisionFrame
  split <;> rfl

theorem DrcKernel.Delays.divisionFrames (data : List S) {dk : DrcKernel S G} (h : dk.Delays) :
    (Lib.transduce (Dsp.divisionFrame steps) dk data).1.Delays := by
  induction data generalizing dk with
  | nil => exact h
  | cons a data ih => exact ih (h.divisionFrame steps a)

theorem transduce_divisionFrame_write (data : List S) {dk : DrcKernel S G} (h : dk.Delays) :
    (transduce (divisionFrame steps) dk data).1.ring.write =
      (dk.ring.write + data.length) % maxPreDelayFrames := by
  induction data generalizing dk with
  | nil => exact (Nat.mod_eq_of_lt h.write_lt).symm
  | cons a data ih =>
      rw [transduce]
      dsimp only
      rw [ih (h.divisionFrame steps a), divisionFrame_write, Nat.mod_add_mod, List.length_cons]
      congr 1
      omega

/-- Frames of one division are only copied, until it is complete. -/
theorem transduce_divisionFrame (data : List S) :
    ∀ dk : DrcKernel S G, dk.Delays → data ≠ [] →
      dk.ring.write % divisionFrames + data.length ≤ divisionFrames →
      transduce (divisionFrame steps) dk data =
        (if (dk.ring.write % divisionFrames + data.length) % divisionFrames = 0 then
            dkProcessOneDivision steps (transduce exchangeFrame dk data).1
          else (transduce exchangeFrame dk data).1,
          (transduce exchangeFrame dk data).2) := by
  induction data with
  | nil =>
      intro dk _ hne _
      exact absurd rfl hne
  | cons a data ih =>
      intro dk h _ hle
      have hnext : (exchangeFrame dk a).1.ring.write % divisionFrames =
          (dk.ring.write % divisionFrames + 1) % divisionFrames := next_offset dk.ring.write 1
      cases data with
      | nil =>
          simp only [transduce, divisionFrame, hnext, List.length_singleton]
      | cons b data =>
          simp only [List.length_cons] at hle
          have hoffset : (dk.ring.write % divisionFrames + 1) % divisionFrames =
              dk.ring.write % divisionFrames + 1 := Nat.mod_eq_of_lt (by omega)
          have hframe : divisionFrame steps dk a = exchangeFrame dk a := by
            rw [divisionFrame, hnext, hoffset, if_neg (Nat.succ_ne_zero _)]
          rw [transduce, hframe, ih (exchangeFrame dk a).1 (h.transduce [a])
            (List.cons_ne_nil b data) (by rw [hnext, hoffset, List.length_cons]; omega), hnext,
            hoffset]
          rw [Nat.add_assoc, Nat.add_comm 1]
          rfl

/-- A copy stays within the divisions it begins in. -/
structure Copy.InDivision (copy : Copy) : Prop where
  fits : copy.Fits
  write_le : copy.write % divisionFrames + copy.frames ≤ divisionFrames
  read_le : copy.read % divisionFrames + copy.frames ≤ divisionFrames

theorem copy_inDivision {dk : DrcKernel S G} (h : dk.Delays) (frames : Nat)
    (hframes : dk.ring.write % divisionFrames + frames ≤ divisionFrames) :
    Copy.InDivision ⟨dk.ring.write, dk.ring.read, frames⟩ := by
  obtain ⟨hread, hwrite, hapart, hdiv, hle, hge⟩ := h
  simp only [maxPreDelayFrames, divisionFrames] at *
  refine ⟨⟨?_, ?_, ?_⟩, ?_, ?_⟩
  all_goals simp only [maxPreDelayFrames, divisionFrames]
  all_goals omega

/-- Whole divisions before and after a fragment. -/
theorem count_divisions {offset fragment : Nat} (rest : Nat) (hpos : 0 < fragment)
    (h : offset + fragment ≤ divisionFrames) :
    (if (offset + fragment) % divisionFrames = 0 then 1 else 0) +
        ((offset + fragment) % divisionFrames + rest) / divisionFrames =
      (offset + (fragment + rest)) / divisionFrames := by
  by_cases hzero : (offset + fragment) % divisionFrames = 0
  · rw [if_pos hzero]
    simp only [divisionFrames] at *
    omega
  · rw [if_neg hzero]
    simp only [divisionFrames] at *
    omega

/-- The loop over fragments ends, does what the frames do one by one, and processes every
division that becomes complete. -/
theorem processFragments_spec (turns : Nat) :
    ∀ (dk : DrcKernel S G) (data : List S), dk.Delays → data.length ≤ turns →
      ∃ copies, processFragments steps turns dk (dk.ring.write % divisionFrames) data =
          some ⟨(transduce (divisionFrame steps) dk data).1,
            (transduce (divisionFrame steps) dk data).2, copies,
            (dk.ring.write % divisionFrames + data.length) / divisionFrames⟩ ∧
        ∀ copy ∈ copies, copy.InDivision := by
  have hnil : ∀ (turns : Nat) (dk : DrcKernel S G),
      processFragments steps turns dk (dk.ring.write % divisionFrames) [] =
        some ⟨dk, [], [], dk.ring.write % divisionFrames / divisionFrames⟩ := by
    intro turns dk
    rw [processFragments, Nat.div_eq_of_lt (Nat.mod_lt _ (by decide))]
  induction turns with
  | zero =>
      intro dk data _ hlen
      rw [List.eq_nil_of_length_eq_zero (Nat.le_zero.mp hlen)]
      exact ⟨[], hnil 0 dk, by simp⟩
  | succ turns ih =>
      intro dk data h hlen
      cases data with
      | nil => exact ⟨[], hnil (turns + 1) dk, by simp⟩
      | cons a data =>
          have hoffset : dk.ring.write % divisionFrames < divisionFrames :=
            Nat.mod_lt _ (by decide)
          have hlength : (a :: data).length = data.length + 1 := rfl
          rw [processFragments]
          generalize hfragment :
            min (divisionFrames - dk.ring.write % divisionFrames) (data.length + 1) = fragment
          have htake : ((a :: data).take fragment).length = fragment :=
            List.length_take_of_le (by omega)
          have hin := copy_inDivision h fragment (by omega)
          have hcopy := dkCopyFragment_eq h ((a :: data).take fragment)
            (by rw [htake]; exact hin.fits)
          have hfirst := transduce_divisionFrame steps ((a :: data).take fragment) dk h
            (by rw [Ne, ← List.length_eq_zero_iff, htake]; omega) (by rw [htake]; omega)
          have hwrite := transduce_divisionFrame_write steps ((a :: data).take fragment) h
          have hnext := h.divisionFrames steps ((a :: data).take fragment)
          obtain ⟨copies, hrest, hcopies⟩ := ih _ ((a :: data).drop fragment) hnext
            (by rw [List.length_drop]; omega)
          refine ⟨_, ?_, List.forall_mem_cons.mpr ⟨hin, hcopies⟩⟩
          rw [htake] at hfirst hwrite
          rw [hwrite, next_offset, List.length_drop] at hrest
          have hcount := count_divisions ((a :: data).length - fragment) (by omega)
            (show dk.ring.write % divisionFrames + fragment ≤ divisionFrames by omega)
          rw [show fragment + ((a :: data).length - fragment) = (a :: data).length by omega]
            at hcount
          rw [transduce_split fragment dk (a :: data), ← hcount, hcopy]
          rw [hfirst] at hrest ⊢
          rw [hrest, Option.map_some]
          rfl

theorem dkPrepare_processed (dk : DrcKernel S G) : (dkPrepare steps dk).processed = true := by
  unfold dkPrepare
  split
  · assumption
  · rfl

theorem dkPrepare_of_processed {dk : DrcKernel S G} (h : dk.processed = true) :
    dkPrepare steps dk = dk := by
  rw [dkPrepare, h, if_pos rfl]

theorem dkPrepare_enabled (dk : DrcKernel S G) : (dkPrepare steps dk).enabled = dk.enabled := by
  unfold dkPrepare
  split <;> rfl

theorem divisionFrame_flags (dk : DrcKernel S G) (a : S) :
    (divisionFrame steps dk a).1.enabled = dk.enabled ∧
      (divisionFrame steps dk a).1.processed = dk.processed := by
  unfold divisionFrame
  split <;> exact ⟨rfl, rfl⟩

theorem transduce_divisionFrame_flags (data : List S) (dk : DrcKernel S G) :
    (transduce (divisionFrame steps) dk data).1.enabled = dk.enabled ∧
      (transduce (divisionFrame steps) dk data).1.processed = dk.processed := by
  induction data generalizing dk with
  | nil => exact ⟨rfl, rfl⟩
  | cons a data ih =>
      obtain ⟨henabled, hprocessed⟩ := ih (divisionFrame steps dk a).1
      obtain ⟨henabled', hprocessed'⟩ := divisionFrame_flags steps dk a
      exact ⟨henabled.trans henabled', hprocessed.trans hprocessed'⟩

/-- Calls after the first do what all frames do one by one. -/
theorem dkRun_processed (blocks : List (List S)) :
    ∀ dk : DrcKernel S G, dk.Delays → dk.enabled = true → dk.processed = true →
      ∃ copies, dkRun steps dk blocks =
          some ⟨(transduce (divisionFrame steps) dk blocks.flatten).1,
            (transduce (divisionFrame steps) dk blocks.flatten).2, copies,
            (dk.ring.write % divisionFrames + blocks.flatten.length) / divisionFrames⟩ ∧
        ∀ copy ∈ copies, copy.InDivision := by
  induction blocks with
  | nil =>
      intro dk _ _ _
      refine ⟨[], ?_, by simp⟩
      rw [List.flatten_nil, List.length_nil, Nat.add_zero,
        Nat.div_eq_of_lt (Nat.mod_lt _ (by decide))]
      rfl
  | cons block blocks ih =>
      intro dk h henabled hprocessed
      obtain ⟨copies, hblock, hcopies⟩ :=
        processFragments_spec steps block.length dk block h (Nat.le_refl _)
      obtain ⟨henabled', hprocessed'⟩ := transduce_divisionFrame_flags steps block dk
      obtain ⟨copies', hrest, hcopies'⟩ := ih _ (h.divisionFrames steps block)
        (henabled'.trans henabled) (hprocessed'.trans hprocessed)
      refine ⟨copies ++ copies', ?_, List.forall_mem_append.mpr ⟨hcopies, hcopies'⟩⟩
      rw [transduce_divisionFrame_write steps block h, next_offset] at hrest
      have hcount : (dk.ring.write % divisionFrames + block.length) / divisionFrames +
          ((dk.ring.write % divisionFrames + block.length) % divisionFrames +
            blocks.flatten.length) / divisionFrames =
          (dk.ring.write % divisionFrames + (block :: blocks).flatten.length) / divisionFrames := by
        rw [List.flatten_cons, List.length_append]
        simp only [divisionFrames]
        omega
      rw [dkRun, dkProcess, henabled, if_pos rfl, dkPrepare_of_processed steps hprocessed, hblock,
        Option.bind_some, hrest, Option.map_some, ← hcount, List.flatten_cons, transduce_append]
      rfl

/-- The first call prepares the kernel, and goes on as the others do. -/
theorem dkRun_prepared {dk : DrcKernel S G} (henabled : dk.enabled = true)
    {blocks : List (List S)} (hne : blocks ≠ []) :
    dkRun steps dk blocks = dkRun steps (dkPrepare steps dk) blocks := by
  cases blocks with
  | nil => exact absurd rfl hne
  | cons block blocks =>
      have hagain := dkPrepare_of_processed steps (dkPrepare_processed steps dk)
      have hstill := (dkPrepare_enabled steps dk).trans henabled
      rw [dkRun, dkRun, dkProcess, dkProcess, henabled, hstill, if_pos rfl, if_pos rfl, hagain]

end Enabled

/-- However its input is cut into blocks, an enabled kernel puts out the same and is left in
the same state, if it is called at all.  Every call ends, no copy leaves a division or the
ring, and every complete division is processed once. -/
theorem dkRun_blocks [Zero S] (steps : GainSteps S G) (gain : G) (delays : List Nat)
    {blocks blocks' : List (List S)} (hsame : blocks.flatten = blocks'.flatten)
    (hcalls : blocks = [] ↔ blocks' = []) :
    ∃ p p', dkRun steps (dkSetEnabled (freshKernel gain delays) true) blocks = some p ∧
      dkRun steps (dkSetEnabled (freshKernel gain delays) true) blocks' = some p' ∧
      p.output = p'.output ∧ p.kernel = p'.kernel ∧
      (∀ copy ∈ p.copies, copy.InDivision) ∧
      p.divisions = blocks.flatten.length / divisionFrames := by
  have hfresh := freshKernel_fresh (S := S) gain delays
  generalize (freshKernel gain delays : DrcKernel S G) = dk at hfresh ⊢
  have hdelays : (dkSetEnabled dk true).Delays :=
    ⟨hfresh.delays.read_lt, hfresh.delays.write_lt, hfresh.delays.apart, hfresh.delays.divisions,
      hfresh.delays.le_delay, hfresh.delays.delay_le⟩
  by_cases hnone : blocks = []
  · rw [hnone, hcalls.mp hnone]
    exact ⟨_, _, rfl, rfl, rfl, rfl, by simp, by simp⟩
  · have hprepared := hdelays.prepare steps
    have henabled : (dkPrepare steps (dkSetEnabled dk true)).enabled = true :=
      dkPrepare_enabled steps _
    have hprocessed := dkPrepare_processed steps (dkSetEnabled dk true)
    obtain ⟨copies, hrun, hcopies⟩ :=
      dkRun_processed steps blocks _ hprepared henabled hprocessed
    obtain ⟨copies', hrun', _⟩ :=
      dkRun_processed steps blocks' _ hprepared henabled hprocessed
    have haligned : (dkPrepare steps (dkSetEnabled dk true)).ring.write % divisionFrames = 0 := by
      unfold dkPrepare
      split <;> exact hfresh.aligned
    rw [haligned, Nat.zero_add] at hrun
    rw [dkRun_prepared steps rfl hnone, dkRun_prepared steps rfl (mt hcalls.mpr hnone)]
    refine ⟨_, _, hrun, hrun', ?_, ?_, hcopies, rfl⟩
    · rw [hsame]
    · rw [hsame]

/-- Steps that count divisions and double the output. -/
def doublingSteps : GainSteps Int Nat where
  updateDetectorAverage gain _ := gain + 1
  updateEnvelope gain := gain
  compressOutput gain division := (gain, fun i => 2 * division i)

theorem dkRun_blocks_three :
    ∃ p p', dkRun doublingSteps (dkSetEnabled (freshKernel 0 [100]) true) [[1, 2], [], [3]] =
        some p ∧
      dkRun doublingSteps (dkSetEnabled (freshKernel 0 [100]) true) [[1], [2, 3]] = some p' ∧
      p.output = p'.output ∧ p.kernel = p'.kernel := by
  obtain ⟨p, p', hp, hp', houtput, hkernel, _⟩ := dkRun_blocks doublingSteps 0 [100]
    (show [[1, 2], [], [3]].flatten = [[1], [2, 3]].flatten from rfl) (by simp)
  exact ⟨p, p', hp, hp', houtput, hkernel⟩

end DragonDevice.Dsp
