/-
  Dsp/Apply.lean --- `cras_dsp_pipeline_apply`.

  The frames of a buffer are processed in chunks: a chunk is deinterleaved from `target`,
  runs through the modules, and is interleaved back to the same place, with as many samples
  to a frame as the pipeline has outputs.  Then `target` moves on, by these samples only.
  The modules take a frame at a time, with a state of their own; samples and the
  conversions between them are arbitrary.
-/
import DragonDevice.Lib.Transducer
import DragonDevice.Dsp.ChannelBuffers

set_option autoImplicit false

namespace DragonDevice.Dsp

open DragonDevice.Lib

variable {F E σ S T : Type}

/-- `DSP_BUFFER_SIZE` -/
def dspBufferSize : Nat := 2048

/-! ## Frames -/

/-- `dsp_util_deinterleave`: the frames from `target` on. -/
def deinterleave {channels : Nat} (toFloat : T → S) (buf : Nat → T) :
    Nat → Nat → List (Fin channels → S)
  | _, 0 => []
  | target, frames + 1 =>
      (fun j => toFloat (buf (target + j))) ::
        deinterleave toFloat buf (target + channels) frames

/-- The samples of one frame are stored. -/
def storeFrame {channels : Nat} (fromFloat : S → T) (frame : Fin channels → S) (target : Nat)
    (buf : Nat → T) (k : Nat) : T :=
  if h : target ≤ k ∧ k < target + channels then fromFloat (frame ⟨k - target, by omega⟩)
  else buf k

/-- `dsp_util_interleave` -/
def interleave {channels : Nat} (fromFloat : S → T) :
    List (Fin channels → S) → Nat → (Nat → T) → Nat → T
  | [], _, buf => buf
  | frame :: rest, target, buf =>
      interleave fromFloat rest (target + channels) (storeFrame fromFloat frame target buf)

/-! ## The loop -/

section Loop

variable {inputs outputs : Nat} (toFloat : T → S) (fromFloat : S → T)
  (step : σ → (Fin inputs → S) → σ × (Fin outputs → S))

/-- One pass over some frames: what a turn of the loop does with a chunk. -/
def applyPass (target frames : Nat) (s : σ) (buf : Nat → T) : σ × (Nat → T) :=
  ((transduce step s (deinterleave toFloat buf target frames)).1,
    interleave fromFloat (transduce step s (deinterleave toFloat buf target frames)).2 target buf)

/-- The `while` loop, with buffers of `size` samples. -/
def applyLoop (size : Nat) (hsize : 0 < size) (target remaining : Nat) (s : σ) (buf : Nat → T) :
    σ × (Nat → T) :=
  if remaining = 0 then (s, buf)
  else
    applyLoop size hsize (target + min remaining size * outputs) (remaining - min remaining size)
      (applyPass toFloat fromFloat step target (min remaining size) s buf).1
      (applyPass toFloat fromFloat step target (min remaining size) s buf).2
termination_by remaining
decreasing_by omega

end Loop

/-- Every channel has a buffer. -/
def channelsFound (pipeline : Pipeline F) (alloc : Allocation F) : Bool :=
  (List.range pipeline.inputChannels).all (fun i => (getSourceBuffer pipeline alloc i).isSome) &&
    (List.range pipeline.outputChannels).all (fun i => (getSinkBuffer pipeline alloc i).isSome)

/-- `cras_dsp_pipeline_apply`; without a buffer for a channel it goes through `NULL`. -/
def pipelineApply (pipeline : Pipeline F) (alloc : Allocation F) (toFloat : T → S)
    (fromFloat : S → T)
    (step : σ → (Fin pipeline.inputChannels → S) → σ × (Fin pipeline.outputChannels → S))
    (frames : Nat) (s : σ) (buf : Nat → T) : Option (σ × (Nat → T)) :=
  if frames = 0 then some (s, buf)
  else if channelsFound pipeline alloc then
    some (applyLoop toFloat fromFloat step dspBufferSize (by decide) 0 frames s buf)
  else none

/-- Whatever the modules and the samples are, the frames of the buffer go to the modules in
their order, and the outputs are where a single pass over all frames puts them. -/
def AppliesUnsplit (pipeline : Pipeline F) (alloc : Allocation F) (frames : Nat) : Prop :=
  ∀ (σ S T : Type) (toFloat : T → S) (fromFloat : S → T)
    (step : σ → (Fin pipeline.inputChannels → S) → σ × (Fin pipeline.outputChannels → S))
    (s : σ) (buf : Nat → T),
    pipelineApply pipeline alloc toFloat fromFloat step frames s buf =
      some (applyPass toFloat fromFloat step 0 frames s buf)

/-! ## Reading and storing frames -/

theorem next_frame (target frames channels : Nat) :
    target + channels + frames * channels = target + (frames + 1) * channels := by
  rw [Nat.succ_mul]
  omega

section Frames

variable {channels : Nat} {toFloat : T → S} {fromFloat : S → T} {buf buf' : Nat → T}

theorem length_deinterleave (target frames : Nat) :
    (deinterleave toFloat buf target frames : List (Fin channels → S)).length = frames := by
  induction frames generalizing target with
  | zero => rfl
  | succ frames ih => exact congrArg (· + 1) (ih (target + channels))

theorem deinterleave_add (target m n : Nat) :
    (deinterleave toFloat buf target (m + n) : List (Fin channels → S)) =
      deinterleave toFloat buf target m ++
        deinterleave toFloat buf (target + m * channels) n := by
  induction m generalizing target with
  | zero => simp [deinterleave]
  | succ m ih =>
      rw [Nat.succ_add, deinterleave, ih, deinterleave, List.cons_append, next_frame]

/-- Frames are read from their own samples only. -/
theorem deinterleave_congr {target frames : Nat}
    (h : ∀ k, target ≤ k → k < target + frames * channels → buf k = buf' k) :
    (deinterleave toFloat buf target frames : List (Fin channels → S)) =
      deinterleave toFloat buf' target frames := by
  induction frames generalizing target with
  | zero => rfl
  | succ frames ih =>
      have hnext := next_frame target frames channels
      unfold deinterleave
      congr 1
      · funext j
        have hle : target + channels ≤ target + (frames + 1) * channels := by
          rw [← hnext]
          exact Nat.le_add_right _ _
        rw [h (target + j) (by omega) (by omega)]
      · exact ih fun k hle hlt => h k (by omega) (by omega)

theorem interleave_append (l l' : List (Fin channels → S)) (target : Nat) (buf : Nat → T) :
    interleave fromFloat (l ++ l') target buf =
      interleave fromFloat l' (target + l.length * channels)
        (interleave fromFloat l target buf) := by
  induction l generalizing target buf with
  | nil => simp [interleave]
  | cons frame l ih =>
      rw [List.cons_append, interleave, ih, interleave, List.length_cons, next_frame]

/-- Frames are stored to their own samples only. -/
theorem interleave_of_outside {l : List (Fin channels → S)} {target k : Nat}
    (h : k < target ∨ target + l.length * channels ≤ k) :
    interleave fromFloat l target buf k = buf k := by
  induction l generalizing target buf with
  | nil => rfl
  | cons frame l ih =>
      have hnext := next_frame target l.length channels
      rw [List.length_cons] at h
      rw [interleave, ih (by omega), storeFrame, dif_neg]
      intro hk
      have := Nat.zero_le (l.length * channels)
      omega

end Frames

/-! ## Chunks -/

section Chunks

variable {inputs outputs : Nat} {toFloat : T → S} {fromFloat : S → T}
  {step : σ → (Fin inputs → S) → σ × (Fin outputs → S)}

theorem applyLoop_zero {size : Nat} (hsize : 0 < size) (target : Nat) (s : σ) (buf : Nat → T) :
    applyLoop toFloat fromFloat step size hsize target 0 s buf = (s, buf) := by
  rw [applyLoop, if_pos rfl]

/-- A pass stores nothing beyond its outputs. -/
theorem applyPass_kept {target frames k : Nat} (h : target + frames * outputs ≤ k) (s : σ)
    (buf : Nat → T) : (applyPass toFloat fromFloat step target frames s buf).2 k = buf k := by
  apply interleave_of_outside
  rw [length_transduce, length_deinterleave]
  exact Or.inr h

/-- With as many outputs as inputs, a pass can be cut in two: the second part reads what the
first has not stored to. -/
theorem applyPass_add (h : outputs = inputs) (target m n : Nat) (s : σ) (buf : Nat → T) :
    applyPass toFloat fromFloat step target (m + n) s buf =
      applyPass toFloat fromFloat step (target + m * outputs) n
        (applyPass toFloat fromFloat step target m s buf).1
        (applyPass toFloat fromFloat step target m s buf).2 := by
  subst h
  unfold applyPass
  have hlen : (transduce step s (deinterleave toFloat buf target m)).2.length = m := by
    rw [length_transduce, length_deinterleave]
  have hread : (deinterleave toFloat (interleave fromFloat
      (transduce step s (deinterleave toFloat buf target m)).2 target buf)
        (target + m * outputs) n : List (Fin outputs → S)) =
      deinterleave toFloat buf (target + m * outputs) n := by
    refine deinterleave_congr fun k hle _ => ?_
    rw [interleave_of_outside (Or.inr (by rw [hlen]; exact hle))]
  simp only
  rw [hread, deinterleave_add, transduce_append, interleave_append, hlen]

/-- With as many outputs as inputs, the loop is one pass. -/
theorem applyLoop_of_eq (h : outputs = inputs) {size : Nat} (hsize : 0 < size) (remaining : Nat) :
    ∀ (target : Nat) (s : σ) (buf : Nat → T),
      applyLoop toFloat fromFloat step size hsize target remaining s buf =
        applyPass toFloat fromFloat step target remaining s buf := by
  induction remaining using Nat.strong_induction_on with
  | _ remaining ih =>
      intro target s buf
      rw [applyLoop]
      by_cases hzero : remaining = 0
      · rw [if_pos hzero, hzero]
        rfl
      · rw [if_neg hzero, ih _ (by omega), ← applyPass_add h]
        congr 1
        omega

/-- A single chunk is one pass. -/
theorem applyLoop_of_le {size : Nat} (hsize : 0 < size) {remaining : Nat} (hle : remaining ≤ size)
    (target : Nat) (s : σ) (buf : Nat → T) :
    applyLoop toFloat fromFloat step size hsize target remaining s buf =
      applyPass toFloat fromFloat step target remaining s buf := by
  rw [applyLoop]
  by_cases hzero : remaining = 0
  · rw [if_pos hzero, hzero]
    rfl
  · rw [if_neg hzero, Nat.min_eq_left hle, Nat.sub_self, applyLoop_zero]

end Chunks

/-! ## What the modules are fed -/

section Record

variable {inputs outputs : Nat}

/-- Modules that note the first sample of every frame, and put out zeros. -/
def recordFirst (hinputs : 0 < inputs) (s : List Nat) (frame : Fin inputs → Nat) :
    List Nat × (Fin outputs → Nat) :=
  (s ++ [frame ⟨0, hinputs⟩], fun _ => 0)

variable {hinputs : 0 < inputs}

theorem transduce_recordFirst (s : List Nat) (l : List (Fin inputs → Nat)) :
    (transduce (recordFirst hinputs : _ → _ → _ × (Fin outputs → Nat)) s l).1 =
      s ++ l.map fun frame => frame ⟨0, hinputs⟩ := by
  induction l generalizing s with
  | nil => simp [transduce]
  | cons frame l ih => simp [transduce, ih, recordFirst]

/-- The next frame that is fed is the one at `target`. -/
theorem applyLoop_recordFirst {size : Nat} (hsize : 0 < size) (remaining : Nat) :
    ∀ (target : Nat) (s : List Nat) (buf : Nat → Nat), ∃ l,
      (applyLoop id id (recordFirst hinputs : _ → _ → _ × (Fin outputs → Nat)) size hsize target
        remaining s buf).1 = s ++ l ∧ (0 < remaining → l.head? = some (buf target)) := by
  induction remaining using Nat.strong_induction_on with
  | _ remaining ih =>
      intro target s buf
      rw [applyLoop]
      by_cases hzero : remaining = 0
      · exact ⟨[], by rw [if_pos hzero, List.append_nil], fun h => absurd hzero (by omega)⟩
      · rw [if_neg hzero]
        obtain ⟨l, hl, _⟩ := ih (remaining - min remaining size) (by omega)
          (target + min remaining size * outputs)
          (applyPass id id (recordFirst hinputs : _ → _ → _ × (Fin outputs → Nat)) target
            (min remaining size) s buf).1
          (applyPass id id (recordFirst hinputs : _ → _ → _ × (Fin outputs → Nat)) target
            (min remaining size) s buf).2
        obtain ⟨chunk, hchunk⟩ : ∃ chunk, min remaining size = chunk + 1 :=
          ⟨min remaining size - 1, by omega⟩
        refine ⟨(deinterleave id buf target (min remaining size)).map
          (fun frame : Fin inputs → Nat => frame ⟨0, hinputs⟩) ++ l, ?_, fun _ => ?_⟩
        · rw [hl, applyPass, transduce_recordFirst, List.append_assoc]
        · rw [hchunk, deinterleave]
          rfl

/-- With fewer outputs than inputs, the first frame of the second chunk is not the next one. -/
theorem applyLoop_ne_applyPass (h : outputs < inputs) {size frames : Nat} (hsize : 0 < size)
    (hframes : size < frames) :
    (applyLoop id id (recordFirst (Nat.zero_lt_of_lt h) : _ → _ → _ × (Fin outputs → Nat)) size
        hsize 0 frames [] id).1 ≠
      (applyPass id id (recordFirst (Nat.zero_lt_of_lt h) : _ → _ → _ × (Fin outputs → Nat)) 0
        frames [] id).1 := by
  intro heq
  obtain ⟨rest, rfl⟩ : ∃ rest, frames = size + (rest + 1) := ⟨frames - size - 1, by omega⟩
  rw [applyLoop, if_neg (by omega), Nat.min_eq_right (by omega)] at heq
  obtain ⟨l, hl, hhead⟩ := @applyLoop_recordFirst inputs outputs (Nat.zero_lt_of_lt h) size hsize
    (size + (rest + 1) - size) (0 + size * outputs)
    (applyPass id id (recordFirst (Nat.zero_lt_of_lt h) : _ → _ → _ × (Fin outputs → Nat)) 0
      size [] id).1
    (applyPass id id (recordFirst (Nat.zero_lt_of_lt h) : _ → _ → _ × (Fin outputs → Nat)) 0
      size [] id).2
  -- after the first chunk, the loop is at `size * outputs`, which has not been stored to
  have hkept : (applyPass id id (recordFirst (Nat.zero_lt_of_lt h) :
      _ → _ → _ × (Fin outputs → Nat)) 0 size [] id).2 (0 + size * outputs) = size * outputs :=
    (applyPass_kept (Nat.le_refl _) [] id).trans (Nat.zero_add _)
  -- and a single pass is at `size * inputs`
  rw [hl, applyPass, transduce_recordFirst, applyPass, transduce_recordFirst, List.nil_append,
    List.nil_append, deinterleave_add, List.map_append] at heq
  have hnext := congrArg List.head? (List.append_cancel_left heq)
  rw [hhead (by omega), hkept, deinterleave, List.map_cons, List.head?_cons,
    Option.some.injEq] at hnext
  have heq : size * outputs = size * inputs := by simpa using hnext
  exact absurd (Nat.eq_of_mul_eq_mul_left hsize heq) (by omega)

end Record

/-! ## Created pipelines -/

/-- With fewer outputs than inputs, more than one chunk is not applied as in a single pass. -/
theorem not_appliesUnsplit_of_lt {pipeline : Pipeline F} {alloc : Allocation F} {frames : Nat}
    (hlt : pipeline.outputChannels < pipeline.inputChannels) (hframes : dspBufferSize < frames) :
    ¬ AppliesUnsplit pipeline alloc frames := by
  intro h
  have happly := h (List Nat) Nat Nat id id (recordFirst (Nat.zero_lt_of_lt hlt)) [] id
  rw [pipelineApply, if_neg (by omega)] at happly
  split at happly
  · refine applyLoop_ne_applyPass hlt (by decide) hframes ?_
    exact congrArg Prod.fst (Option.some.inj happly)
  · cases happly

/-- A created pipeline is applied as if in a single pass exactly when nothing has to be done,
or when every channel has a buffer and there are as many outputs as inputs or no more frames
than one chunk has. -/
theorem pipelineApply_unsplit_iff {ini : Ini F E} {eval : E → Option Bool} {purpose : String}
    {fuel : Nat} {pipeline : Pipeline F}
    (hcreate : pipelineCreate ini eval purpose fuel = .done pipeline) (alloc : Allocation F)
    (frames : Nat) :
    AppliesUnsplit pipeline alloc frames ↔
      frames = 0 ∨ channelsFound pipeline alloc = true ∧
        (pipeline.outputChannels = pipeline.inputChannels ∨ frames ≤ dspBufferSize) := by
  have hle := (created_of_pipelineCreate hcreate).channels_le
  constructor
  · intro h
    by_cases hzero : frames = 0
    · exact Or.inl hzero
    refine Or.inr ⟨?_, ?_⟩
    · by_contra hfound
      have happly := h Unit Unit Unit id id (fun _ _ => ((), fun _ => ())) () (fun _ => ())
      rw [pipelineApply, if_neg hzero, if_neg hfound] at happly
      cases happly
    · by_contra hnot
      rw [not_or] at hnot
      exact not_appliesUnsplit_of_lt (by omega) (Nat.lt_of_not_le hnot.2) h
  · intro h σ S T toFloat fromFloat step s buf
    rw [pipelineApply]
    obtain hzero | ⟨hfound, hcases⟩ := h
    · rw [if_pos hzero, hzero]
      rfl
    · by_cases hzero : frames = 0
      · rw [if_pos hzero, hzero]
        rfl
      · rw [if_neg hzero, if_pos hfound]
        cases hcases with
        | inl heq => rw [applyLoop_of_eq heq]
        | inr hle => rw [applyLoop_of_le _ hle]

/-! ## Two channels to one -/

/-- A source with two channels, a module that mixes them, and a sink with the first of its
outputs. -/
def downmixIni : Ini Unit Bool where
  plugins :=
    [⟨"builtin", "source", some "playback", none, [audioOut 0, audioOut 1]⟩,
      ⟨"builtin", "mix_stereo", none, none, [audioIn 0, audioIn 1, audioOut 2, audioOut 3]⟩,
      ⟨"builtin", "sink", some "playback", none, [audioIn 2]⟩]
  flowTypes := [.audio, .audio, .audio, .audio]
  port_flow := by decide
  audio_flow := by decide

def downmixPipeline : Pipeline Unit where
  instances :=
    [⟨0, [], [⟨0, none, 0⟩, ⟨1, none, 0⟩], [], [], 0⟩,
      ⟨1, [⟨0, some ⟨0, 0⟩, 0⟩, ⟨1, some ⟨0, 1⟩, 0⟩], [⟨2, none, 0⟩, ⟨3, none, 0⟩], [], [], 0⟩,
      ⟨2, [⟨0, some ⟨1, 2⟩, 0⟩], [], [], [], 0⟩]
  source := 0
  sink := 2
  inputChannels := 2
  outputChannels := 1

/-- The pipeline is created and loaded, and with one frame more than a chunk has, the last frame
is not the one that the modules are fed. -/
theorem not_appliesUnsplit_downmix :
    ∃ alloc, pipelineCreate downmixIni some "playback" 8 = .done downmixPipeline ∧
      pipelineLoad downmixIni downmixPipeline = .done alloc ∧
      channelsFound downmixPipeline alloc = true ∧
      ¬ AppliesUnsplit downmixPipeline alloc 2049 := by
  exact ⟨_, rfl, rfl, rfl, not_appliesUnsplit_of_lt (by decide) (by decide)⟩

theorem appliesUnsplit_bypass :
    ∃ alloc, pipelineCreate bypassIni some "playback" 4 = .done bypassPipeline ∧
      pipelineLoad bypassIni bypassPipeline = .done alloc ∧
      AppliesUnsplit bypassPipeline alloc 5000 := by
  have hcreate : pipelineCreate bypassIni some "playback" 4 = .done bypassPipeline := rfl
  refine ⟨_, hcreate, rfl, (pipelineApply_unsplit_iff hcreate _ 5000).mpr (Or.inr ⟨rfl, ?_⟩)⟩
  exact Or.inl rfl

end DragonDevice.Dsp
