/-
  Dsp/ApplyBuffers.lean --- `cras_dsp_pipeline_apply` on the buffers of a pipeline.

  A chunk goes sample by sample to the buffers of the source's channels, the modules run on
  the buffers, and the samples come back from the buffers of the sink's channels.  The buffers
  keep what they have from chunk to chunk.  A `float` is a rational number, which it is
  exactly for the samples of an `int16_t` buffer.
-/
import DragonDevice.Dsp.Apply
import Mathlib.Data.Rat.Floor
import Mathlib.Tactic.Linarith

set_option autoImplicit false

namespace DragonDevice.Dsp

variable {F E S T : Type}

/-! ## Conversions -/

/-- The sample in `dsp_util_deinterleave`. -/
def int16ToFloat (x : Int16) : Rat := (x.toInt : Rat) / 32768

/-- A conversion to an integer type cuts the fraction off. -/
def truncate (q : Rat) : Int := if 0 ≤ q then ⌊q⌋ else ⌈q⌉

/-- The sample in `dsp_util_interleave`, with `f` for it times 32768. -/
def roundToInt16 (f : Rat) : Int16 :=
  if f > 32767 then 32767
  else if f < -32768 then -32768
  else Int16.ofInt (truncate (if f > 0 then f + 1 / 2 else f - 1 / 2))

def floatToInt16 (s : Rat) : Int16 := roundToInt16 (s * 32768)

/-! ## Channels and buffers -/

/-- One frame of `dsp_util_deinterleave`: the samples from `target` on go to a place in the
buffers of the channels. -/
def deinterleaveFrame (toFloat : T → S) (buf : Nat → T) (i : Nat) :
    List Nat → Nat → (Nat → Nat → S) → Nat → Nat → S
  | [], _, buffers => buffers
  | b :: channels, target, buffers =>
      deinterleaveFrame toFloat buf i channels (target + 1)
        (Function.update buffers b (Function.update (buffers b) i (toFloat (buf target))))

/-- `dsp_util_deinterleave` -/
def dspUtilDeinterleave (toFloat : T → S) (buf : Nat → T) (channels : List Nat) :
    Nat → Nat → Nat → (Nat → Nat → S) → Nat → Nat → S
  | _, _, 0, buffers => buffers
  | target, i, frames + 1, buffers =>
      dspUtilDeinterleave toFloat buf channels (target + channels.length) (i + 1) frames
        (deinterleaveFrame toFloat buf i channels target buffers)

/-- One frame of `dsp_util_interleave`. -/
def interleaveFrame (fromFloat : S → T) (buffers : Nat → Nat → S) (i : Nat) :
    List Nat → Nat → (Nat → T) → Nat → T
  | [], _, buf => buf
  | b :: channels, target, buf =>
      interleaveFrame fromFloat buffers i channels (target + 1)
        (Function.update buf target (fromFloat (buffers b i)))

/-- `dsp_util_interleave` -/
def dspUtilInterleave (fromFloat : S → T) (buffers : Nat → Nat → S) (channels : List Nat) :
    Nat → Nat → Nat → (Nat → T) → Nat → T
  | _, _, 0, buf => buf
  | target, i, frames + 1, buf =>
      dspUtilInterleave fromFloat buffers channels (target + channels.length) (i + 1) frames
        (interleaveFrame fromFloat buffers i channels target buf)

/-! ## The loop -/

section Loop

variable [Neg S] [Add S] (filters : ∀ n, Filters S n) (ini : Ini F E) (alloc : Allocation F)
  (toFloat : T → S) (fromFloat : S → T) (source sink : List Nat)

/-- `cras_dsp_pipeline_run` on the first samples of the buffers. -/
def runBuffers (sampleCount : Nat) (buffers : Nat → Nat → S) : Option (Nat → Nat → S) :=
  (runInstances (filters sampleCount) ini sharedNames alloc.instances fun b i => buffers b i).map
    fun blocks b i => if h : i < sampleCount then blocks b ⟨i, h⟩ else buffers b i

/-- One turn of the loop. -/
def applyChunk (target chunk : Nat) (buffers : Nat → Nat → S) (buf : Nat → T) :
    Option ((Nat → Nat → S) × (Nat → T)) :=
  (runBuffers filters ini alloc chunk
    (dspUtilDeinterleave toFloat buf source target 0 chunk buffers)).map fun buffers =>
      (buffers, dspUtilInterleave fromFloat buffers sink target 0 chunk buf)

/-- The `while` loop, with buffers of `size` samples. -/
def applyChunks (size : Nat) (hsize : 0 < size) (target remaining : Nat)
    (buffers : Nat → Nat → S) (buf : Nat → T) : Option ((Nat → Nat → S) × (Nat → T)) :=
  if remaining = 0 then some (buffers, buf)
  else
    (applyChunk filters ini alloc toFloat fromFloat source sink target (min remaining size) buffers
      buf).bind fun r =>
        applyChunks size hsize (target + min remaining size * sink.length)
          (remaining - min remaining size) r.1 r.2
termination_by remaining
decreasing_by omega

end Loop

theorem dspBufferSize_pos : 0 < dspBufferSize := by decide

/-- `cras_dsp_pipeline_apply`; without a buffer for a channel it goes through `NULL`. -/
def pipelineApplyBuffers [Neg S] [Add S] (filters : ∀ n, Filters S n) (ini : Ini F E)
    (pipeline : Pipeline F) (alloc : Allocation F) (toFloat : T → S) (fromFloat : S → T)
    (frames : Nat) (buffers : Nat → Nat → S) (buf : Nat → T) :
    Option ((Nat → Nat → S) × (Nat → T)) :=
  if frames = 0 then some (buffers, buf)
  else
    ((List.range pipeline.inputChannels).mapM (getSourceBuffer pipeline alloc)).bind fun source =>
      ((List.range pipeline.outputChannels).mapM (getSinkBuffer pipeline alloc)).bind fun sink =>
        applyChunks filters ini alloc toFloat fromFloat source sink dspBufferSize dspBufferSize_pos
          0 frames buffers buf

/-! ## Exact samples -/

theorem truncate_add_half {n : Int} (hn : 0 < n) : truncate ((n : Rat) + 1 / 2) = n := by
  have hpos : (0 : Rat) < n := by exact_mod_cast hn
  rw [truncate, if_pos (by linarith), Int.floor_eq_iff]
  constructor <;> linarith

theorem truncate_sub_half {n : Int} (hn : n ≤ 0) : truncate ((n : Rat) - 1 / 2) = n := by
  have hneg : (n : Rat) ≤ 0 := by exact_mod_cast hn
  rw [truncate, if_neg (by linarith), Int.ceil_eq_iff]
  constructor <;> linarith

/-- An integer in the range of `int16_t` is rounded to itself. -/
theorem roundToInt16_int {n : Int} (hlow : -32768 ≤ n) (hhigh : n ≤ 32767) :
    roundToInt16 (n : Rat) = Int16.ofInt n := by
  have hlow' : (-32768 : Rat) ≤ n := by exact_mod_cast hlow
  have hhigh' : (n : Rat) ≤ 32767 := by exact_mod_cast hhigh
  rw [roundToInt16, if_neg (not_lt.mpr hhigh'), if_neg (not_lt.mpr hlow')]
  by_cases hn : 0 < n
  · have hpos : (n : Rat) > 0 := by exact_mod_cast hn
    rw [if_pos hpos, truncate_add_half hn]
  · have hneg : ¬ (n : Rat) > 0 := by
      intro hpos
      exact hn (by exact_mod_cast hpos)
    rw [if_neg hneg, truncate_sub_half (Int.not_lt.mp hn)]

/-- A sample comes back from the conversions as it was. -/
theorem floatToInt16_int16ToFloat (x : Int16) : floatToInt16 (int16ToFloat x) = x := by
  have hscaled : int16ToFloat x * 32768 = (x.toInt : Rat) := by
    rw [int16ToFloat]
    exact div_mul_cancel₀ _ (by norm_num)
  rw [floatToInt16, hscaled, roundToInt16_int x.le_toInt (Int.le_of_lt_add_one x.toInt_lt),
    Int16.ofInt_toInt]

/-! ## To the buffers and back -/

section Frames

variable {toFloat : T → S} {fromFloat : S → T}

theorem deinterleaveFrame_other {i k : Nat} (hk : k ≠ i) (buf : Nat → T) (b : Nat) :
    ∀ (channels : List Nat) (target : Nat) (buffers : Nat → Nat → S),
      deinterleaveFrame toFloat buf i channels target buffers b k = buffers b k := by
  intro channels
  induction channels with
  | nil => exact fun _ _ => rfl
  | cons c channels ih =>
      intro target buffers
      rw [deinterleaveFrame, ih]
      by_cases hb : b = c
      · rw [hb, Function.update_self, Function.update_of_ne hk]
      · rw [Function.update_of_ne hb]

theorem deinterleaveFrame_not_mem (i : Nat) (buf : Nat → T) {b : Nat} :
    ∀ {channels : List Nat}, b ∉ channels → ∀ (target : Nat) (buffers : Nat → Nat → S),
      deinterleaveFrame toFloat buf i channels target buffers b = buffers b := by
  intro channels
  induction channels with
  | nil => exact fun _ _ _ => rfl
  | cons c channels ih =>
      intro hb target buffers
      rw [List.mem_cons, not_or] at hb
      rw [deinterleaveFrame, ih hb.2, Function.update_of_ne hb.1]

/-- Each channel has its sample of the frame. -/
theorem deinterleaveFrame_get (i : Nat) (buf : Nat → T) {b : Nat} :
    ∀ {channels : List Nat}, channels.Nodup → ∀ {j : Nat}, channels[j]? = some b →
      ∀ (target : Nat) (buffers : Nat → Nat → S),
        deinterleaveFrame toFloat buf i channels target buffers b i =
          toFloat (buf (target + j)) := by
  intro channels
  induction channels with
  | nil =>
      intro _ j hj
      cases hj
  | cons c channels ih =>
      intro hnodup j hj target buffers
      obtain ⟨hc, hnodup⟩ := List.nodup_cons.mp hnodup
      rw [deinterleaveFrame]
      cases j with
      | zero =>
          cases hj
          rw [deinterleaveFrame_not_mem i buf hc, Function.update_self, Function.update_self]
          rfl
      | succ j =>
          rw [List.getElem?_cons_succ] at hj
          rw [ih hnodup hj, Nat.add_right_comm, Nat.add_assoc]

theorem dspUtilDeinterleave_before (buf : Nat → T) (channels : List Nat) (b : Nat) :
    ∀ (frames target i : Nat) (buffers : Nat → Nat → S) {k : Nat}, k < i →
      dspUtilDeinterleave toFloat buf channels target i frames buffers b k = buffers b k := by
  intro frames
  induction frames with
  | zero => exact fun _ _ _ _ _ => rfl
  | succ frames ih =>
      intro target i buffers k hk
      rw [dspUtilDeinterleave, ih _ _ _ (Nat.lt_succ_of_lt hk),
        deinterleaveFrame_other (Nat.ne_of_lt hk)]

/-- Every sample is in the buffer of its channel, at the place of its frame. -/
theorem dspUtilDeinterleave_get (buf : Nat → T) {channels : List Nat} (hnodup : channels.Nodup)
    {j b : Nat} (hj : channels[j]? = some b) :
    ∀ (frames target i : Nat) (buffers : Nat → Nat → S) {m : Nat}, m < frames →
      dspUtilDeinterleave toFloat buf channels target i frames buffers b (i + m) =
        toFloat (buf (target + m * channels.length + j)) := by
  intro frames
  induction frames with
  | zero =>
      intro target i buffers m hm
      exact absurd hm (Nat.not_lt_zero m)
  | succ frames ih =>
      intro target i buffers m hm
      rw [dspUtilDeinterleave]
      cases m with
      | zero =>
          have hi : i + 0 < i + 1 := Nat.lt_succ_self i
          rw [dspUtilDeinterleave_before _ _ _ _ _ _ _ hi, Nat.add_zero,
            deinterleaveFrame_get i buf hnodup hj, Nat.zero_mul, Nat.add_zero]
      | succ m =>
          have hnext := next_frame target m channels.length
          have hplace : i + (m + 1) = i + 1 + m := by omega
          rw [hplace, ih _ _ _ (Nat.lt_of_succ_lt_succ hm), hnext]

/-- Samples that are what they were change nothing. -/
theorem interleaveFrame_same {buffers : Nat → Nat → S} {i : Nat} {buf : Nat → T} :
    ∀ {channels : List Nat} {target : Nat},
      (∀ j b, channels[j]? = some b → fromFloat (buffers b i) = buf (target + j)) →
      interleaveFrame fromFloat buffers i channels target buf = buf := by
  intro channels
  induction channels with
  | nil => exact fun _ => rfl
  | cons c channels ih =>
      intro target hsame
      have hfirst : fromFloat (buffers c i) = buf target := hsame 0 c rfl
      rw [interleaveFrame, hfirst, Function.update_eq_self]
      refine ih fun j b hj => ?_
      rw [Nat.add_assoc, Nat.add_comm 1 j]
      exact hsame (j + 1) b hj

theorem dspUtilInterleave_same {buffers : Nat → Nat → S} {channels : List Nat} {buf : Nat → T} :
    ∀ {frames target i : Nat},
      (∀ m < frames, ∀ j b, channels[j]? = some b →
        fromFloat (buffers b (i + m)) = buf (target + m * channels.length + j)) →
      dspUtilInterleave fromFloat buffers channels target i frames buf = buf := by
  intro frames
  induction frames with
  | zero => exact fun _ => rfl
  | succ frames ih =>
      intro target i hsame
      have hframe : interleaveFrame fromFloat buffers i channels target buf = buf := by
        refine interleaveFrame_same fun j b hj => ?_
        have hfirst := hsame 0 (Nat.succ_pos frames) j b hj
        rwa [Nat.zero_mul, Nat.add_zero, Nat.add_zero] at hfirst
      rw [dspUtilInterleave, hframe]
      refine ih fun m hm j b hj => ?_
      have hnext := next_frame target m channels.length
      have hplace : i + 1 + m = i + (m + 1) := by omega
      rw [hnext, hplace]
      exact hsame (m + 1) (Nat.succ_lt_succ hm) j b hj

end Frames

/-! ## Modules that do nothing -/

section Idle

variable [Neg S] [Add S] {filters : ∀ n, Filters S n} {ini : Ini F E} {alloc : Allocation F}
  {toFloat : T → S} {fromFloat : S → T} {source : List Nat}

/-- Buffers that no module changes are the ones that were there. -/
theorem runBuffers_idle
    (hidle : ∀ n blocks, runInstances (filters n) ini sharedNames alloc.instances blocks =
      some blocks) (sampleCount : Nat) (buffers : Nat → Nat → S) :
    runBuffers filters ini alloc sampleCount buffers = some buffers := by
  rw [runBuffers, hidle, Option.map_some]
  refine congrArg some (funext fun b => funext fun i => ?_)
  split <;> rfl

/-- A chunk that goes to the buffers and back from the same buffers is as it was. -/
theorem applyChunk_idle
    (hidle : ∀ n blocks, runInstances (filters n) ini sharedNames alloc.instances blocks =
      some blocks)
    (hexact : ∀ x, fromFloat (toFloat x) = x) (hnodup : source.Nodup) (target chunk : Nat)
    (buffers : Nat → Nat → S) (buf : Nat → T) :
    ∃ buffers', applyChunk filters ini alloc toFloat fromFloat source source target chunk buffers
      buf = some (buffers', buf) := by
  refine ⟨dspUtilDeinterleave toFloat buf source target 0 chunk buffers, ?_⟩
  rw [applyChunk, runBuffers_idle hidle, Option.map_some, dspUtilInterleave_same]
  intro m hm j b hj
  rw [dspUtilDeinterleave_get buf hnodup hj chunk target 0 buffers hm, hexact]

theorem applyChunks_idle
    (hidle : ∀ n blocks, runInstances (filters n) ini sharedNames alloc.instances blocks =
      some blocks)
    (hexact : ∀ x, fromFloat (toFloat x) = x) (hnodup : source.Nodup) {size : Nat}
    (hsize : 0 < size) (remaining : Nat) :
    ∀ (target : Nat) (buffers : Nat → Nat → S) (buf : Nat → T),
      ∃ buffers', applyChunks filters ini alloc toFloat fromFloat source source size hsize target
        remaining buffers buf = some (buffers', buf) := by
  induction remaining using Nat.strong_induction_on with
  | _ remaining ih =>
      intro target buffers buf
      rw [applyChunks]
      by_cases hzero : remaining = 0
      · exact ⟨buffers, by rw [if_pos hzero]⟩
      · obtain ⟨buffers₁, hchunk⟩ :=
          @applyChunk_idle _ _ _ _ _ _ filters ini alloc toFloat fromFloat
            source hidle hexact hnodup target (min remaining size) buffers buf
        obtain ⟨buffers', hrest⟩ := ih (remaining - min remaining size) (by omega)
          (target + min remaining size * source.length) buffers₁ buf
        exact ⟨buffers', by rw [if_neg hzero, hchunk, Option.bind_some]; exact hrest⟩

end Idle

end DragonDevice.Dsp
