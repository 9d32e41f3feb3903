/-
  Audio/InRead.lean --- `in_read` and the caller's buffer, from `audio_hw.c`, with
  `sound_trigger_read_samples` from `sound_trigger_hw.c`.

  Sizes are those of the caller's machine, so a negative result of the DSP becomes a large
  size.  What is written to the caller's buffer is kept as stretches in bytes.  An input that
  reads from the DSP takes every result but 0 for a success.
-/
import DragonDevice.Audio.CaptureBounds
import DragonDevice.Audio.ChannelAgreement

set_option autoImplicit false

namespace DragonDevice.Audio

open DragonDevice.Lib

/-! ## The DSP -/

def efault : Int := 14

/-- What `sound_trigger_read_samples` finds: the device of the sound trigger, and what its PCM
answers to each `pcm_mmap_avail` and to `pcm_mmap_begin` for some frames.  The numbers are
those of an `int`; no more frames are available than the buffer of the DSP has, and mapped than
were asked for. -/
structure DspAnswers where
  opened : Bool
  isStreaming : Bool
  pcm : Bool
  mmapAvail : Nat → Int
  mmapBegin : Nat → Int × Nat
  avail_int : ∀ k, -2147483648 ≤ mmapAvail k
  avail_le : ∀ k, mmapAvail k ≤ 240 * 8
  begin_int : ∀ frames, -2147483648 ≤ (mmapBegin frames).1
  begin_le : ∀ frames, (mmapBegin frames).2 ≤ frames

/-- The loop at `read_again`, for a number of attempts: an error, the frames there are, or 0
when it gives up. -/
def awaitFrames (mmapAvail : Nat → Int) : (attempts k : Nat) → Int
  | 0, _ => 0
  | attempts + 1, k =>
      if mmapAvail k = 0 then awaitFrames mmapAvail attempts (k + 1) else mmapAvail k

/-- `sound_trigger_read_samples`: what it returns, and what it writes. -/
def soundTriggerReadSamples (dsp : DspAnswers) (audioHandle : Int) (bufferLen : Nat) :
    Int × List (Nat × Nat) :=
  if audioHandle ≤ 0 then (-einval, [])
  else if dsp.opened = false then (-efault, [])
  else if dsp.isStreaming = false then (-einval, [])
  else if dsp.pcm = false then (-einval, [])
  else
    let frames := awaitFrames dsp.mmapAvail 11 0
    if frames ≤ 0 then (frames, [])
    else
      let mapped := dsp.mmapBegin (min frames.toNat (bufferLen / 2))
      if mapped.1 < 0 then (mapped.1, [])
      else (mapped.2 * 2, [(0, mapped.2 * 2)])

theorem awaitFrames_int (dsp : DspAnswers) (attempts k : Nat) :
    -2147483648 ≤ awaitFrames dsp.mmapAvail attempts k := by
  induction attempts generalizing k with
  | zero =>
      rw [awaitFrames]
      decide
  | succ attempts ih =>
      rw [awaitFrames]
      split
      · exact ih (k + 1)
      · exact dsp.avail_int k

/-- The result is an error of an `int`, or at most the size of the buffer, as is what was
written. -/
theorem soundTriggerReadSamples_within (dsp : DspAnswers) (audioHandle : Int) (bufferLen : Nat) :
    -2147483648 ≤ (soundTriggerReadSamples dsp audioHandle bufferLen).1 ∧
      (soundTriggerReadSamples dsp audioHandle bufferLen).1 ≤ bufferLen ∧
      ∀ w ∈ (soundTriggerReadSamples dsp audioHandle bufferLen).2, w.1 + w.2 ≤ bufferLen := by
  have herror : ∀ e : Int, -2147483648 ≤ e → e ≤ 0 →
      -2147483648 ≤ e ∧ e ≤ bufferLen ∧ ∀ w ∈ ([] : List (Nat × Nat)), w.1 + w.2 ≤ bufferLen :=
    fun e hint hle => ⟨hint, by omega, nofun⟩
  unfold soundTriggerReadSamples
  split
  · exact herror _ (by decide) (by decide)
  · split
    · exact herror _ (by decide) (by decide)
    · split
      · exact herror _ (by decide) (by decide)
      · split
        · exact herror _ (by decide) (by decide)
        · dsimp only
          split
          · rename_i hframes
            exact herror _ (awaitFrames_int dsp 11 0) hframes
          · split
            · rename_i hmapped
              exact herror _ (dsp.begin_int _) (Int.le_of_lt hmapped)
            · have hmapped := dsp.begin_le
                (min (awaitFrames dsp.mmapAvail 11 0).toNat (bufferLen / 2))
              refine ⟨by dsimp only; omega, by dsimp only; omega, fun w hw => ?_⟩
              rw [List.mem_singleton.mp hw]
              dsimp only
              omega

/-- `read_bytes_from_dsp`. -/
def readBytesFromDsp (dsp : DspAnswers) (device : PcmDevice) (bytes : Nat) :
    Int × List (Nat × Nat) :=
  if 0 < device.soundTriggerHandle then
    soundTriggerReadSamples dsp device.soundTriggerHandle bytes
  else
    (0, [])

theorem readBytesFromDsp_within (dsp : DspAnswers) (device : PcmDevice) (bytes : Nat) :
    -2147483648 ≤ (readBytesFromDsp dsp device bytes).1 ∧
      (readBytesFromDsp dsp device bytes).1 ≤ bytes ∧
      ∀ w ∈ (readBytesFromDsp dsp device bytes).2, w.1 + w.2 ≤ bytes := by
  unfold readBytesFromDsp
  split
  · exact soundTriggerReadSamples_within dsp device.soundTriggerHandle bytes
  · exact ⟨by decide, Int.natCast_nonneg bytes, nofun⟩

/-! ## Reading -/

/-- What the libraries answer in one call, and how long the loops are watched for. -/
structure ReadAnswers (α : Type) where
  start : StartAnswers
  dsp : DspAnswers
  world : CaptureWorld α
  patience : Nat
  rounds : Nat

/-- What was read: `bytes` afterwards, the buffers, what was written to the caller's, whether
it was successful if it has come back, and whether an error was reported. -/
structure Reading (α : Type) (bits : Nat) where
  bytes : BitVec bits
  buffers : CaptureBuffers α
  writes : List (Nat × Nat)
  successful : Option Bool
  reported : Bool

/-- `audio_stream_in_frame_size`. -/
def audioStreamInFrameSize (inp : StreamIn) : Nat :=
  audioChannelCountFromInMask inp.mainChannels * bytesPerSample

/-- How frames are read from a device of the input.  Without a PCM there is no way, but for no
frames. -/
def captureFormat (inp : StreamIn) (device : PcmDevice) (framesRq : Nat) : Option CaptureFormat :=
  (match device.openedWith with
    | some config => some config.channels
    | none => if framesRq = 0 then some inp.config.channels else none).map fun pcmChannels =>
      ⟨inp.config.periodSize, inp.config.channels, pcmChannels,
        audioChannelCountFromInMask inp.mainChannels⟩

/-- Whether the reading of frames reported an error, or without a resampler a `pcm_read` of
it. -/
def readReported {α : Type} (world : CaptureWorld α) (resampler : Bool) (b b' : CaptureBuffers α)
    (ret : Option Int) : Bool :=
  ret.any (fun frames => frames < 0) ||
    (!resampler && (List.range b'.reads).any fun k => b.reads ≤ k && world.readError k != 0)

section

variable {α : Type} {bits : Nat}

/-- `in_read` from `false_alarm` on, without the mute. -/
def readInput (answers : ReadAnswers α) (inp : StreamIn) (b : CaptureBuffers α)
    (bytes : BitVec bits) : Option (Reading α bits) :=
  match inp.pcmDevList with
  | [] => some ⟨bytes, b, [], some false, false⟩
  | device :: _ =>
      if inp.usecase = .audioCaptureHotword then
        let (ret, writes) := readBytesFromDsp answers.dsp device bytes.toNat
        let bytes := BitVec.ofInt bits ret
        some ⟨bytes, b, writes, some (bytes != 0), ret < 0⟩
      else
        let framesRq := bytes.toNat / audioStreamInFrameSize inp
        (captureFormat inp device framesRq).map fun format =>
          let (b', ret, trace) := readAndProcessFrames answers.world format inp.resampler
            answers.patience answers.rounds inp.preprocessors b framesRq
          ⟨bytes, b', trace.written.map fun w => (w.1 * bytesPerSample, w.2 * bytesPerSample),
            ret.map fun frames => 0 ≤ frames, readReported answers.world inp.resampler b b' ret⟩

/-- What a call of `in_read` did: the buffers, what was written to the caller's, whether an
error was reported, and if it has returned its result and the device. -/
structure InReadOutcome (α : Type) where
  buffers : CaptureBuffers α
  writes : List (Nat × Nat)
  reported : Bool
  result : Option (Int × AudioDevice)

/-- `in_read` up to `false_alarm`: the input is started if it is in standby. -/
def startForRead (asInput : AsInput) (depth : Nat) (answers : StartAnswers) (adev : AudioDevice)
    (id : Nat) : Option (Int × AudioDevice) :=
  (adev.ins id).bind fun inp =>
    if inp.standby then startInputStream asInput depth answers adev id else some (0, adev)

/-- The buffers after it: a start that comes to its end resets them. -/
def buffersForRead (adev started : AudioDevice) (id : Nat) (b : CaptureBuffers α) :
    CaptureBuffers α :=
  if (adev.ins id).any StreamIn.standby ∧ started.activeInput = some id then b.started else b

/-- `in_read`, with what it writes to the caller's buffer. -/
def inReadBuffer (asInput : AsInput) (depth : Nat) (answers : ReadAnswers α) (adev : AudioDevice)
    (b : CaptureBuffers α) (id : Nat) (bytes : BitVec bits) : Option (InReadOutcome α) := do
  let (ret, started) ← startForRead asInput depth answers.start adev id
  let b := buffersForRead adev started id b
  let finish := fun successful => inRead asInput depth answers.start successful adev id
  if ret ≠ 0 then
    some ⟨b, [], true, (finish false).map fun adev => (bytes.toInt, adev)⟩
  else do
    let inp ← started.ins id
    let reading ← readInput answers inp b bytes
    let muted := if reading.successful = some true ∧ started.micMute then
      [(0, reading.bytes.toNat)] else []
    some ⟨reading.buffers, reading.writes ++ muted, reading.reported,
      (reading.successful.bind finish).map fun adev => (reading.bytes.toInt, adev)⟩

end

/-! ## Inputs that can be read -/

/-- The channels of an input: the caller gets at least one, and a PCM has those of the
configuration, if that has any. -/
structure StreamIn.Readable (inp : StreamIn) : Prop where
  aux : inp.auxChannels = 0 ∨ inp.auxChannels = channelIndexMask4
  main : 0 < audioChannelCountFromInMask inp.mainChannels
  channels : ∀ device ∈ inp.pcmDevList, ∀ config, device.openedWith = some config →
    inp.config.channels = config.channels ∨ inp.config.channels = 0

theorem checkInputParameters_channels {sampleRate channelCount : Nat} {pcm16 : Bool}
    (h : checkInputParameters sampleRate pcm16 channelCount = 0) : 0 < channelCount := by
  unfold checkInputParameters at h
  split at h
  · cases h
  · split at h
    · cases h
    · omega

theorem readable_rule :
    InputRule (fun _ => ChannelsLoaded) (fun _ => True) fun _ _ inp => inp.Readable where
  growProfiles _ _ h := h
  growInput _ _ _ h := h
  created _ _ _ _ _ hcheck := ⟨.inl rfl, checkInputParameters_channels hcheck, nofun⟩
  unopened _ _ inp devices hnone h := by
    refine ⟨h.aux, h.main, fun device hdevice config hconfig => ?_⟩
    rw [hnone device hdevice] at hconfig
    cases hconfig
  standby _ _ _ _ h := ⟨h.aux, h.main, h.channels⟩
  parameters _ _ _ _ _ h := ⟨h.aux, h.main, h.channels⟩
  effects _ _ _ _ _ _ haux h := by
    refine ⟨?_, h.main, h.channels⟩
    rcases haux with rfl | haux | haux
    · exact h.aux
    · exact .inl haux
    · exact .inr haux
  fast _ _ inp p h _ _ := h.fast inp.inputFlags p
  started _ _ profiles inp p answers devices _ hloaded _ h _ hdevices := by
    refine ⟨h.aux, h.main, fun device hdevice config hconfig => ?_⟩
    obtain ⟨hopened, htype⟩ := hdevices device hdevice config hconfig
    show (configuredInput answers inp _ p).config.channels = _ ∨
      (configuredInput answers inp _ p).config.channels = 0
    rw [configuredInput_channels, hopened]
    split
    · rcases h.aux with haux | haux
      · right
        rw [haux]
        decide
      · left
        rw [haux]
        exact ((hloaded.fast inp.inputFlags p).quad htype).symm
    · exact .inl rfl

/-- Frames that need no adjustment are frames of the PCM. -/
theorem StreamIn.Readable.format {inp : StreamIn} (h : inp.Readable) {device : PcmDevice}
    (hdevice : device ∈ inp.pcmDevList) {framesRq : Nat} {format : CaptureFormat}
    (hformat : captureFormat inp device framesRq = some format) :
    format.channels = inp.config.channels ∧
      format.mainChannels = audioChannelCountFromInMask inp.mainChannels ∧
      (format.mainChannels = format.channels → format.pcmChannels = format.channels) := by
  obtain ⟨pcmChannels, hpcm, rfl⟩ := Option.map_eq_some_iff.mp hformat
  refine ⟨rfl, rfl, fun hmain => ?_⟩
  cases hopened : device.openedWith with
  | none =>
      rw [hopened] at hpcm
      dsimp only at hpcm
      split at hpcm
      · exact (Option.some.inj hpcm).symm
      · cases hpcm
  | some config =>
      rw [hopened] at hpcm
      have hmain : audioChannelCountFromInMask inp.mainChannels = inp.config.channels := hmain
      rcases h.channels device hdevice config hopened with hchannels | hchannels
      · rw [hchannels]
        exact (Option.some.inj hpcm).symm
      · have hpos := h.main
        rw [hmain, hchannels] at hpos
        cases hpos

/-! ## Standby -/

section

variable {asInput : AsInput} {depth : Nat} {adev adev' : AudioDevice} {id : Nat}

/-- A read that is not successful ends in standby. -/
theorem inRead_failed {answers : StartAnswers}
    (h : inRead asInput depth answers false adev id = some adev') :
    ∃ inp, adev'.ins id = some inp ∧ inp.standby = true := by
  have hread : ∀ {mid}, readStarted false mid id = some adev' →
      ∃ inp, adev'.ins id = some inp ∧ inp.standby = true := by
    intro mid hmid
    obtain ⟨inp, -, hmid⟩ := Option.bind_eq_some_iff.mp hmid
    rw [if_neg (fun hand => Bool.false_ne_true hand.2)] at hmid
    exact doInStandby_standby hmid
  obtain ⟨inp, -, h⟩ := Option.bind_eq_some_iff.mp h
  split at h
  · obtain ⟨⟨ret, started⟩, -, h⟩ := Option.bind_eq_some_iff.mp h
    dsimp only at h
    split at h
    · exact doInStandby_standby h
    · obtain ⟨inp', -, h⟩ := Option.bind_eq_some_iff.mp h
      exact hread h
  · exact hread h

/-- A read that is successful leaves the input out of standby. -/
theorem inRead_successful {answers : StartAnswers} {started : AudioDevice} {inp : StreamIn}
    (hstart : startForRead asInput depth answers adev id = some (0, started))
    (hinp : started.ins id = some inp) (hdevices : inp.pcmDevList ≠ []) :
    ∃ adev' inp', inRead asInput depth answers true adev id = some adev' ∧
      adev'.ins id = some inp' ∧ inp'.standby = false := by
  obtain ⟨before, hbefore, hstart⟩ := Option.bind_eq_some_iff.mp hstart
  unfold inRead
  rw [hbefore, Option.bind_eq_bind, Option.bind_some]
  split at hstart
  · rename_i hstandby
    refine ⟨started.setIn id { inp with standby := false }, { inp with standby := false }, ?_,
      Function.update_self .., rfl⟩
    rw [if_pos hstandby, hstart, Option.bind_eq_bind, Option.bind_some]
    dsimp only
    rw [if_neg (not_not_intro rfl), hinp, Option.bind_some, readStarted]
    have hset : (started.setIn id { inp with standby := false }).ins id =
        some { inp with standby := false } := Function.update_self ..
    rw [hset, Option.bind_eq_bind, Option.bind_some, if_pos ⟨hdevices, rfl⟩]
  · rename_i hstandby
    cases hstart
    rw [hbefore] at hinp
    cases hinp
    refine ⟨adev, inp, ?_, hbefore, Bool.eq_false_iff.mpr hstandby⟩
    rw [if_neg hstandby, readStarted, hbefore, Option.bind_eq_bind, Option.bind_some,
      if_pos ⟨hdevices, rfl⟩]

end

/-! ## One call -/

section

variable {α : Type} {bits : Nat}

theorem toInt_le_toNat (bytes : BitVec bits) : bytes.toInt ≤ bytes.toNat := by
  rw [BitVec.toInt]
  split <;> omega

/-- A size that fits stays what it is. -/
theorem toNat_ofInt_of_le {ret : Int} {bytes : BitVec bits} (hnonneg : 0 ≤ ret)
    (hle : ret ≤ bytes.toNat) : ((BitVec.ofInt bits ret).toNat : Int) = ret := by
  have hlt : ret < ((2 ^ bits : Nat) : Int) := by
    have hbytes := bytes.isLt
    omega
  rw [BitVec.toNat_ofInt, Int.emod_eq_of_lt hnonneg hlt, Int.toNat_of_nonneg hnonneg]

/-- An error of an `int` is no size of 0. -/
theorem ofInt_ne_zero {ret : Int} (hbits : 32 ≤ bits) (hint : -2147483648 ≤ ret)
    (hnegative : ret < 0) : BitVec.ofInt bits ret ≠ 0 := by
  have hsize : 2 ^ 32 ≤ 2 ^ bits := Nat.pow_le_pow_right (by decide) hbits
  have hmod : ret % ((2 ^ bits : Nat) : Int) = ret + ((2 ^ bits : Nat) : Int) := by
    rw [← Int.add_emod_right]
    exact Int.emod_eq_of_lt (by omega) (by omega)
  intro hzero
  have hnat := congrArg BitVec.toNat hzero
  rw [BitVec.toNat_ofInt, hmod, BitVec.ofNat_eq_ofNat, BitVec.toNat_ofNat, Nat.zero_mod] at hnat
  omega

/-- A reading leaves the status of the last `pcm_read`. -/
theorem readInput_status {answers : ReadAnswers α} {inp : StreamIn} {b : CaptureBuffers α}
    {bytes : BitVec bits} {reading : Reading α bits} (h : b.readStatus ≤ 0)
    (hread : readInput answers inp b bytes = some reading) : reading.buffers.readStatus ≤ 0 := by
  unfold readInput at hread
  split at hread
  · cases hread
    exact h
  · split at hread
    · cases hread
      exact h
    · obtain ⟨format, -, rfl⟩ := Option.map_eq_some_iff.mp hread
      obtain ⟨b', ret, trace, hframes, hread, -⟩ := readAndProcessFrames_read answers.world format
        inp.resampler answers.patience answers.rounds inp.preprocessors h
        (bytes.toNat / audioStreamInFrameSize inp)
      dsimp only
      rw [hframes]
      exact hread.status

/-- An error that was reported is not taken for a success. -/
theorem readReported_negative {world : CaptureWorld α} {format : CaptureFormat}
    {resampler : Bool} {frames : Nat} {b b' : CaptureBuffers α} {ret : Option Int}
    (hread : FramesRead world format resampler frames b b' ret)
    (h : readReported world resampler b b' ret = true) :
    ret.map (fun frames => decide (0 ≤ frames)) ≠ some true := by
  intro hsome
  obtain ⟨v, rfl, hv⟩ := Option.map_eq_some_iff.mp hsome
  have hnonneg : 0 ≤ v := of_decide_eq_true hv
  rw [readReported, Bool.or_eq_true, Bool.and_eq_true] at h
  rcases h with h | ⟨hresampler, h⟩
  · have hnegative : v < 0 := of_decide_eq_true h
    omega
  · obtain ⟨k, hk, herror⟩ := List.any_eq_true.mp h
    rw [Bool.and_eq_true, bne_iff_ne] at herror
    exact herror.2 (hread.noted ((Bool.not_eq_true' _).mp hresampler) v rfl hnonneg k
      (of_decide_eq_true herror.1) (List.mem_range.mp hk))

/-- The reading stays within the caller's buffer, and takes no error for a success, if it gets
none from the DSP. -/
theorem readInput_within {answers : ReadAnswers α} {inp : StreamIn} {b : CaptureBuffers α}
    {bytes : BitVec bits} {reading : Reading α bits} (hready : inp.Readable)
    (hstatus : b.readStatus ≤ 0) (hworld : answers.world.Within inp.config.channels)
    (hdsp : inp.usecase = .audioCaptureHotword → ∀ device ∈ inp.pcmDevList.head?,
      0 ≤ (readBytesFromDsp answers.dsp device bytes.toNat).1)
    (hread : readInput answers inp b bytes = some reading) :
    (∀ w ∈ reading.writes, w.1 + w.2 ≤ bytes.toNat) ∧
      reading.bytes.toNat ≤ bytes.toNat ∧
      (reading.reported = true → reading.successful ≠ some true) := by
  unfold readInput at hread
  split at hread
  · cases hread
    exact ⟨nofun, Nat.le_refl _, nofun⟩
  · rename_i device devices hdevices
    split at hread
    · rename_i husecase
      have hnonneg := hdsp husecase device (by rw [hdevices]; rfl)
      obtain ⟨-, hle, hwrites⟩ := readBytesFromDsp_within answers.dsp device bytes.toNat
      generalize readBytesFromDsp answers.dsp device bytes.toNat = result at *
      obtain ⟨ret, writes⟩ := result
      dsimp only at hnonneg hle hwrites
      cases hread
      refine ⟨hwrites, ?_, fun hreported => ?_⟩
      · have hsize := toNat_ofInt_of_le hnonneg hle
        dsimp only
        omega
      · have hnegative : ret < 0 := of_decide_eq_true hreported
        omega
    · obtain ⟨format, hformat, rfl⟩ := Option.map_eq_some_iff.mp hread
      obtain ⟨hchannels, hmain, hpcm⟩ := hready.format (by rw [hdevices]; exact List.mem_cons_self)
        hformat
      obtain ⟨b', ret, trace, hframes, hread, hwritten⟩ := readAndProcessFrames_read answers.world
        format inp.resampler answers.patience answers.rounds inp.preprocessors hstatus
        (bytes.toNat / audioStreamInFrameSize inp)
      dsimp only
      rw [hframes]
      refine ⟨fun w hw => ?_, Nat.le_refl _, readReported_negative hread⟩
      obtain ⟨write, hwrite, rfl⟩ := List.mem_map.mp hw
      have hle := hwritten (hchannels ▸ hworld) hpcm write hwrite
      calc write.1 * bytesPerSample + write.2 * bytesPerSample
          = (write.1 + write.2) * bytesPerSample := (Nat.add_mul _ _ _).symm
        _ ≤ bytes.toNat / audioStreamInFrameSize inp * format.mainChannels * bytesPerSample :=
            Nat.mul_le_mul_right _ hle
        _ = bytes.toNat / audioStreamInFrameSize inp * audioStreamInFrameSize inp := by
            rw [hmain, Nat.mul_assoc, audioStreamInFrameSize]
        _ ≤ bytes.toNat := Nat.div_mul_le_self _ _

theorem buffersForRead_status (adev started : AudioDevice) (id : Nat) {b : CaptureBuffers α}
    (h : b.readStatus ≤ 0) : (buffersForRead adev started id b).readStatus ≤ 0 := by
  unfold buffersForRead
  split
  · exact h
  · exact h

/-- A call stays within the caller's buffer, returns at most its size, and ends in standby if
the start or the reading reported an error. -/
structure InReadContract (id : Nat) (bytes : BitVec bits) (outcome : InReadOutcome α) : Prop where
  inside : ∀ w ∈ outcome.writes, w.1 + w.2 ≤ bytes.toNat
  returned : ∀ ret adev, outcome.result = some (ret, adev) → ret ≤ bytes.toNat
  standby : outcome.reported = true → ∀ ret adev, outcome.result = some (ret, adev) →
    ∃ inp, adev.ins id = some inp ∧ inp.standby = true

/-- The call reads from the DSP, and that reports an error. -/
def DspFails (asInput : AsInput) (depth : Nat) (answers : ReadAnswers α) (adev : AudioDevice)
    (id : Nat) (bytes : BitVec bits) : Prop :=
  ∃ started inp device, startForRead asInput depth answers.start adev id = some (0, started) ∧
    started.ins id = some inp ∧ inp.usecase = .audioCaptureHotword ∧
    inp.pcmDevList.head? = some device ∧
    (readBytesFromDsp answers.dsp device bytes.toNat).1 < 0

section

variable {asInput : AsInput} {depth : Nat} {answers : ReadAnswers α} {adev : AudioDevice}
  {b : CaptureBuffers α} {id : Nat} {bytes : BitVec bits} {outcome : InReadOutcome α}

/-- An error of the DSP is a success for the call, which leaves the input out of standby. -/
theorem not_contract_of_dspFails (hbits : 32 ≤ bits)
    (hread : inReadBuffer asInput depth answers adev b id bytes = some outcome)
    (hfails : DspFails asInput depth answers adev id bytes) :
    ¬ InReadContract id bytes outcome := by
  intro hcontract
  obtain ⟨started, inp, device, hstart, hinp, husecase, hdevice, hnegative⟩ := hfails
  obtain ⟨devices, hdevices⟩ : ∃ devices, inp.pcmDevList = device :: devices := by
    cases hlist : inp.pcmDevList with
    | nil =>
        rw [hlist] at hdevice
        cases hdevice
    | cons head devices =>
        rw [hlist] at hdevice
        cases hdevice
        exact ⟨devices, rfl⟩
  have hreading := readBytesFromDsp_within answers.dsp device bytes.toNat
  have hsize := ofInt_ne_zero hbits hreading.1 hnegative
  have hne : inp.pcmDevList ≠ [] := by
    rw [hdevices]
    exact List.cons_ne_nil _ _
  obtain ⟨adev', inp', hfinish, hinp', hstandby⟩ := inRead_successful hstart hinp hne
  obtain ⟨mid, hmid, hread⟩ := Option.bind_eq_some_iff.mp hread
  rw [hstart] at hmid
  cases hmid
  dsimp only at hread
  rw [if_neg (not_not_intro rfl)] at hread
  obtain ⟨mid, hmid, hread⟩ := Option.bind_eq_some_iff.mp hread
  rw [hinp] at hmid
  cases hmid
  obtain ⟨reading, hreading', hread⟩ := Option.bind_eq_some_iff.mp hread
  rw [readInput, hdevices] at hreading'
  dsimp only at hreading'
  rw [if_pos husecase] at hreading'
  cases hreading'
  cases hread
  have hsuccess : (BitVec.ofInt bits (readBytesFromDsp answers.dsp device bytes.toNat).1 != 0) =
      true := bne_iff_ne.mpr hsize
  obtain ⟨inp'', hinp'', hstandby''⟩ := hcontract.standby (decide_eq_true hnegative) _ adev' (by
    dsimp only
    rw [hsuccess, Option.bind_some, hfinish, Option.map_some])
  rw [hinp'] at hinp''
  cases hinp''
  rw [hstandby] at hstandby''
  cases hstandby''

/-- Without an error of the DSP, a call keeps to its contract. -/
theorem contract_of_not_dspFails
    (hready : ∀ started inp, startForRead asInput depth answers.start adev id = some (0, started) →
      started.ins id = some inp →
      inp.Readable ∧ answers.world.Within inp.config.channels)
    (hstatus : b.readStatus ≤ 0)
    (hread : inReadBuffer asInput depth answers adev b id bytes = some outcome)
    (hfails : ¬ DspFails asInput depth answers adev id bytes) :
    InReadContract id bytes outcome := by
  obtain ⟨⟨ret, started⟩, hstart, hread⟩ := Option.bind_eq_some_iff.mp hread
  dsimp only at hread
  have hbuffers := buffersForRead_status adev started id hstatus
  split at hread
  · cases hread
    refine ⟨nofun, fun v adev' hresult => ?_, fun _ v adev' hresult => ?_⟩
    · obtain ⟨mid, -, hpair⟩ := Option.map_eq_some_iff.mp hresult
      cases hpair
      exact toInt_le_toNat bytes
    · obtain ⟨mid, hmid, hpair⟩ := Option.map_eq_some_iff.mp hresult
      cases hpair
      exact inRead_failed hmid
  · rename_i hret
    obtain rfl := Decidable.not_not.mp hret
    obtain ⟨inp, hinp, hread⟩ := Option.bind_eq_some_iff.mp hread
    obtain ⟨reading, hreading, hread⟩ := Option.bind_eq_some_iff.mp hread
    obtain ⟨hreadable, hworld⟩ := hready started inp hstart hinp
    obtain ⟨hwrites, hsize, hreported⟩ := readInput_within hreadable hbuffers hworld
      (fun husecase device hdevice => Int.not_lt.mp fun hnegative =>
        hfails ⟨started, inp, device, hstart, hinp, husecase, hdevice, hnegative⟩) hreading
    cases hread
    refine ⟨fun w hw => ?_, fun v adev' hresult => ?_, fun herror v adev' hresult => ?_⟩
    · rcases List.mem_append.mp hw with hw | hw
      · exact hwrites w hw
      · split at hw
        · rw [List.mem_singleton.mp hw, Nat.zero_add]
          exact hsize
        · cases hw
    · obtain ⟨mid, -, hpair⟩ := Option.map_eq_some_iff.mp hresult
      cases hpair
      exact Int.le_trans (toInt_le_toNat reading.bytes) (Int.ofNat_le.mpr hsize)
    · obtain ⟨mid, hmid, hpair⟩ := Option.map_eq_some_iff.mp hresult
      cases hpair
      obtain ⟨successful, hsuccessful, hmid⟩ := Option.bind_eq_some_iff.mp hmid
      have hfalse : successful = false := by
        refine Bool.eq_false_iff.mpr fun htrue => hreported herror ?_
        rw [hsuccessful, htrue]
      rw [hfalse] at hmid
      exact inRead_failed hmid

/-- The device after a call is the one that `in_read` leaves, and the status of the last
`pcm_read` is an error or 0. -/
theorem inReadBuffer_returns (hstatus : b.readStatus ≤ 0)
    (hread : inReadBuffer asInput depth answers adev b id bytes = some outcome) :
    outcome.buffers.readStatus ≤ 0 ∧ ∀ ret adev', outcome.result = some (ret, adev') →
      ∃ successful, inRead asInput depth answers.start successful adev id = some adev' := by
  obtain ⟨⟨ret, started⟩, -, hread⟩ := Option.bind_eq_some_iff.mp hread
  dsimp only at hread
  have hbuffers := buffersForRead_status adev started id hstatus
  split at hread
  · cases hread
    refine ⟨hbuffers, fun v adev' hresult => ⟨false, ?_⟩⟩
    obtain ⟨mid, hmid, hpair⟩ := Option.map_eq_some_iff.mp hresult
    cases hpair
    exact hmid
  · obtain ⟨inp, -, hread⟩ := Option.bind_eq_some_iff.mp hread
    obtain ⟨reading, hreading, hread⟩ := Option.bind_eq_some_iff.mp hread
    cases hread
    refine ⟨readInput_status hbuffers hreading, fun v adev' hresult => ?_⟩
    obtain ⟨mid, hmid, hpair⟩ := Option.map_eq_some_iff.mp hresult
    cases hpair
    obtain ⟨successful, -, hmid⟩ := Option.bind_eq_some_iff.mp hmid
    exact ⟨successful, hmid⟩

end

/-! ## Runs -/

/-- The audio HAL with the buffers of its inputs. -/
structure Capturing (α : Type) where
  adev : AudioDevice
  buffers : Nat → CaptureBuffers α

/-- The buffers of an input as `calloc` leaves them. -/
structure CaptureBuffers.Fresh (b : CaptureBuffers α) : Prop where
  readBufSize : b.readBufSize = 0
  readBufFrames : b.readBufFrames = 0
  readStatus : b.readStatus = 0
  procBufFrames : b.procBufFrames = 0
  procBufSize : b.procBufSize = 0

/-- A call but `in_read`, or `in_read` with the size of the caller's buffer. -/
inductive CapturingEvent (α : Type) (bits : Nat) where
  | call (call : Call)
  | read (id : Nat) (bytes : BitVec bits) (answers : ReadAnswers α)

def Capturing.next (asInput : AsInput) (depth : Nat) (s : Capturing α) :
    CapturingEvent α bits → Option (Capturing α)
  | .call (.inRead ..) => none
  | .call call => (call.run asInput depth s.adev).map fun adev => { s with adev := adev }
  | .read id bytes answers =>
      (inReadBuffer asInput depth answers s.adev (s.buffers id) id bytes).bind fun outcome =>
        outcome.result.map fun result =>
          ⟨result.2, Function.update s.buffers id outcome.buffers⟩

/-- The audio HAL from its opening on, with the buffers. -/
def capturingSystem (α : Type) (bits : Nat) (asInput : AsInput) (depth : Nat) :
    System (Capturing α) (CapturingEvent α bits) where
  start s := (∃ soundTrigger, s.adev = adevOpen soundTrigger) ∧ ∀ i, (s.buffers i).Fresh
  next s event := s.next asInput depth event

/-- All inputs can be read. -/
structure Capturing.Readable (s : Capturing α) : Prop where
  inputs : InputsMeet (fun _ => ChannelsLoaded) (fun _ _ inp => inp.Readable) s.adev
  status : ∀ i, (s.buffers i).readStatus ≤ 0

theorem startsMeet_true (adev : AudioDevice) (call : Call) :
    StartsMeet (fun _ => True) adev call := by
  cases call with
  | inRead => exact fun _ _ _ => trivial
  | _ => trivial

variable {asInput : AsInput} {depth : Nat} {s s' : Capturing α}

theorem Capturing.Readable.next (h : s.Readable) {event : CapturingEvent α bits}
    (hnext : s.next asInput depth event = some s') : s'.Readable := by
  cases event with
  | call call =>
      have hrun : (call.run asInput depth s.adev).map (fun adev => { s with adev := adev }) =
          some s' := by
        cases call with
        | inRead => cases hnext
        | _ => exact hnext
      obtain ⟨adev', hadev', rfl⟩ := Option.map_eq_some_iff.mp hrun
      exact ⟨run_meet readable_rule h.inputs (startsMeet_true _ _) hadev', h.status⟩
  | read id bytes answers =>
      obtain ⟨outcome, hread, hnext⟩ := Option.bind_eq_some_iff.mp hnext
      obtain ⟨⟨ret, adev'⟩, hresult, rfl⟩ := Option.map_eq_some_iff.mp hnext
      obtain ⟨hstatus, hfinish⟩ := inReadBuffer_returns (h.status id) hread
      obtain ⟨successful, hfinish⟩ := hfinish ret adev' hresult
      have hrun : (Call.inRead id answers.start successful).run asInput depth s.adev =
          some adev' := hfinish
      refine ⟨run_meet readable_rule h.inputs (startsMeet_true _ _) hrun, fun i => ?_⟩
      dsimp only
      by_cases hi : i = id
      · subst hi
        rw [Function.update_self]
        exact hstatus
      · rw [Function.update_of_ne hi]
        exact h.status i

theorem reachable_readable
    (h : (capturingSystem α bits asInput depth).Reachable (fun _ _ => True) s) : s.Readable := by
  refine h.invariant ?_ fun _ _ _ hI _ hnext => hI.next hnext
  rintro s ⟨⟨soundTrigger, hadev⟩, hfresh⟩
  refine ⟨?_, fun i => Int.le_of_eq (hfresh i).readStatus⟩
  rw [hadev]
  exact ⟨fun _ => ⟨rfl, rfl⟩, nofun⟩

/-- The input that a call reads from can be read. -/
theorem Capturing.Readable.started (h : s.Readable) {answers : StartAnswers} {id : Nat}
    {started : AudioDevice} {ret : Int} {inp : StreamIn}
    (hstart : startForRead asInput depth answers s.adev id = some (ret, started))
    (hinp : started.ins id = some inp) : inp.Readable := by
  obtain ⟨before, hbefore, hstart⟩ := Option.bind_eq_some_iff.mp hstart
  split at hstart
  · exact (h.inputs.startIn readable_rule hbefore trivial hstart).inputs id inp hinp
  · cases hstart
    exact h.inputs.inputs id inp hinp

/-- In every run, a call of `in_read` keeps to its contract exactly if it gets no error from the
DSP. -/
theorem inReadContract_iff (hbits : 32 ≤ bits)
    (h : (capturingSystem α bits asInput depth).Reachable (fun _ _ => True) s)
    {answers : ReadAnswers α} {id : Nat} {bytes : BitVec bits} {outcome : InReadOutcome α}
    (hworld : ∀ started inp, startForRead asInput depth answers.start s.adev id =
      some (0, started) → started.ins id = some inp → answers.world.Within inp.config.channels)
    (hread : inReadBuffer asInput depth answers s.adev (s.buffers id) id bytes = some outcome) :
    InReadContract id bytes outcome ↔ ¬ DspFails asInput depth answers s.adev id bytes := by
  have hreadable := reachable_readable h
  constructor
  · intro hcontract hfails
    exact not_contract_of_dspFails hbits hread hfails hcontract
  · intro hfails
    refine contract_of_not_dspFails (fun started inp hstart hinp => ?_) (hreadable.status id) hread
      hfails
    exact ⟨hreadable.started hstart hinp, hworld started inp hstart hinp⟩

end

/-- Silence, without effects and without a resampler. -/
def silence : CaptureWorld Unit where
  samples _ := ()
  readError _ := 0
  process _ _ _ _ := ⟨0, 0, []⟩
  resample _ _ := ⟨[], 0, []⟩
  overlapped _ mem _ _ _ := mem

theorem silence_within (channels : Nat) : silence.Within channels where
  consumed _ _ _ frames _ := Nat.zero_le frames
  produced _ _ _ room := Nat.zero_le room
  output _ _ _ _ := Nat.zero_le _
  frames _ wanted := Nat.zero_le wanted
  resampled _ _ := Nat.zero_le _

/-- A DSP that is open, and streams or not. -/
def dspWith (isStreaming : Bool) : DspAnswers where
  opened := true
  isStreaming := isStreaming
  pcm := true
  mmapAvail _ := 240
  mmapBegin frames := (0, frames)
  avail_int _ := by decide
  avail_le _ := by decide
  begin_int _ := show (-2147483648 : Int) ≤ 0 by decide
  begin_le frames := Nat.le_refl frames

def silentAnswers (isStreaming : Bool) : ReadAnswers Unit :=
  ⟨allSucceed, dspWith isStreaming, silence, 0, 0⟩

/-- The HAL with fresh buffers. -/
def capturingOpen (soundTrigger : Bool) : Capturing Unit :=
  ⟨adevOpen soundTrigger,
    fun _ => ⟨fun _ => (), 0, 0, 0, fun _ => (), 0, 0, fun _ => (), 0, 0, 0, 0⟩⟩

theorem capturingOpen_reachable (soundTrigger : Bool) :
    (capturingSystem Unit 64 readsAsDefault 2).Reachable (fun _ _ => True)
      (capturingOpen soundTrigger) :=
  .start ⟨⟨soundTrigger, rfl⟩, fun _ => ⟨rfl, rfl, rfl, rfl, rfl⟩⟩

/-- The HAL with an input from the built-in microphone. -/
def micOpened : Capturing Unit :=
  { capturingOpen false with
    adev := (adevOpenInputStream (capturingOpen false).adev micRequest).2 }

/-- Four frames from the built-in microphone, of two channels for the caller. -/
theorem inReadContract_mic : ∃ outcome,
    inReadBuffer readsAsDefault 2 (silentAnswers true) micOpened.adev (micOpened.buffers 0) 0
        (16 : BitVec 64) = some outcome ∧
      outcome.writes = [(0, 16)] ∧ InReadContract 0 (16 : BitVec 64) outcome := by
  have hopened : (capturingSystem Unit 64 readsAsDefault 2).Reachable (fun _ _ => True)
      micOpened :=
    (capturingOpen_reachable false).step (e := .call (.openInputStream micRequest)) trivial rfl
  have hwrites : (inReadBuffer readsAsDefault 2 (silentAnswers true) micOpened.adev
      (micOpened.buffers 0) 0 (16 : BitVec 64)).map InReadOutcome.writes = some [(0, 16)] := by
    decide
  have husecase : (startForRead readsAsDefault 2 allSucceed micOpened.adev 0).bind
      (fun started => (started.2.ins 0).map StreamIn.usecase) = some .audioCapture := by
    decide
  obtain ⟨outcome, hread, hwrites⟩ := Option.map_eq_some_iff.mp hwrites
  refine ⟨outcome, hread, hwrites,
    (inReadContract_iff (by decide) hopened (fun _ _ _ _ => silence_within _) hread).mpr ?_⟩
  rintro ⟨started, inp, device, hstart, hinp, hhotword, -⟩
  have hstart : startForRead readsAsDefault 2 allSucceed micOpened.adev 0 = some (0, started) :=
    hstart
  rw [hstart, Option.bind_some, hinp, Option.map_some, hhotword] at husecase
  cases husecase

/-- An input for hotwords. -/
def hotwordRequest : InputRequest :=
  ⟨deviceInBuiltinMic, sourceHotword, 0, 16000, true, 0x10⟩

/-- The HAL with an input for hotwords, and the microphone muted. -/
def hotwordMuted : Capturing Unit :=
  { capturingOpen true with
    adev := { (adevOpenInputStream (capturingOpen true).adev hotwordRequest).2 with
              micMute := true } }

/-- With the microphone muted, a DSP that has stopped streaming makes the call clear memory far
beyond the caller's buffer. -/
theorem not_inReadContract_muted :
    ¬ ∀ (s : Capturing Unit) (answers : ReadAnswers Unit) (id : Nat) (bytes : BitVec 64)
        (outcome : InReadOutcome Unit),
      (capturingSystem Unit 64 readsAsDefault 2).Reachable (fun _ _ => True) s →
      (∀ channels, answers.world.Within channels) →
      inReadBuffer readsAsDefault 2 answers s.adev (s.buffers id) id bytes = some outcome →
      InReadContract id bytes outcome := by
  intro h
  have hmuted : (capturingSystem Unit 64 readsAsDefault 2).Reachable (fun _ _ => True)
      hotwordMuted :=
    ((capturingOpen_reachable true).step (e := .call (.openInputStream hotwordRequest)) trivial
      rfl).step (e := .call (.setMicMute true)) trivial rfl
  have hwrites : (inReadBuffer readsAsDefault 2 (silentAnswers false) hotwordMuted.adev
      (hotwordMuted.buffers 0) 0 (16 : BitVec 64)).map InReadOutcome.writes =
        some [(0, 18446744073709551594)] := by
    decide
  obtain ⟨outcome, hread, hwrites⟩ := Option.map_eq_some_iff.mp hwrites
  have hcontract := h hotwordMuted (silentAnswers false) 0 16 outcome hmuted silence_within hread
  have hinside := hcontract.inside (0, 18446744073709551594) (by
    rw [hwrites]
    exact List.mem_singleton_self _)
  exact absurd hinside (by decide)

end DragonDevice.Audio
