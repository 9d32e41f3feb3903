/-
  Audio/StreamsIndependent.lean --- what a capture stream is opened with and the size of the
  buffers it reports, whatever other streams did.

  A profile belongs to all streams.  A fast input writes its low latency period to the
  profile when it starts, and nothing else writes to a profile.  As long as no fast input
  starts, the configuration and the buffer size follow from what the client set the stream
  up with.
-/
import DragonDevice.Audio.InputRules
import Mathlib.Algebra.Ring.Nat

set_option autoImplicit false

namespace DragonDevice.Audio

open DragonDevice.Lib

/-! ## Buffer sizes -/

/-- `get_input_buffer_size`; the only format that passes the check has two bytes a sample. -/
def getInputBufferSize (profiles : ProfileId → PcmDeviceProfile) (sampleRate : Nat)
    (pcm16 : Bool) (channelCount : Nat) (type : UsecaseType) (devices : AudioDevices) : Nat :=
  if checkInputParameters sampleRate pcm16 channelCount ≠ 0 then 0
  else
    match getPcmDevice profiles type devices with
    | none => 0
    | some profile =>
        let config := (profiles profile).config
        let size := config.periodSize * sampleRate % 2 ^ 32 / config.rate
        (size + 15) / 16 * 16 * channelCount * 2

/-- `in_get_buffer_size`. -/
def inGetBufferSize (profiles : ProfileId → PcmDeviceProfile) (inp : StreamIn) : Nat :=
  getInputBufferSize profiles inp.requestedRate true
    (audioChannelCountFromInMask inp.mainChannels) inp.usecaseType inp.devices

/-! ## Independence -/

/-- A client set both streams up in the same way. -/
structure StreamIn.Alike (inp₁ inp₂ : StreamIn) : Prop where
  devices : inp₁.devices = inp₂.devices
  source : inp₁.source = inp₂.source
  usecaseType : inp₁.usecaseType = inp₂.usecaseType
  inputFlags : inp₁.inputFlags = inp₂.inputFlags
  mainChannels : inp₁.mainChannels = inp₂.mainChannels
  requestedRate : inp₁.requestedRate = inp₂.requestedRate
  preprocessors : inp₁.preprocessors = inp₂.preprocessors
  auxChannelsChanged : inp₁.auxChannelsChanged = inp₂.auxChannelsChanged
  auxChannels : inp₁.auxChannels = inp₂.auxChannels

/-- The configurations that the PCMs of an input were opened with. -/
def StreamIn.openedWith (inp : StreamIn) : List PcmConfig :=
  inp.pcmDevList.filterMap PcmDevice.openedWith

/-- In any two runs, inputs that are set up alike start with the same configuration and
report the same buffer size, and the size stays as long as the devices are the same. -/
structure StreamsIndependent (asInput : AsInput) (depth : Nat)
    (ok : AudioDevice → Call → Prop) : Prop where
  config : ∀ adev₁ adev₂ i₁ i₂ inp₁ inp₂ answers₁ answers₂ adev₁' adev₂' inp₁' inp₂',
    (audioSystem asInput depth).Reachable ok adev₁ →
    (audioSystem asInput depth).Reachable ok adev₂ →
    adev₁.ins i₁ = some inp₁ → adev₂.ins i₂ = some inp₂ → inp₁.Alike inp₂ →
    startInputStream asInput depth answers₁ adev₁ i₁ = some (0, adev₁') →
    startInputStream asInput depth answers₂ adev₂ i₂ = some (0, adev₂') →
    adev₁'.ins i₁ = some inp₁' → adev₂'.ins i₂ = some inp₂' →
    inp₁'.config = inp₂'.config ∧
      ∀ config₁ ∈ inp₁'.openedWith, ∀ config₂ ∈ inp₂'.openedWith, config₁ = config₂
  bufferSize : ∀ adev₁ adev₂ i₁ i₂ inp₁ inp₂,
    (audioSystem asInput depth).Reachable ok adev₁ →
    (audioSystem asInput depth).Reachable ok adev₂ →
    adev₁.ins i₁ = some inp₁ → adev₂.ins i₂ = some inp₂ → inp₁.Alike inp₂ →
    inGetBufferSize adev₁.profiles inp₁ = inGetBufferSize adev₂.profiles inp₂
  stays : ∀ adev adev' i inp inp',
    (audioSystem asInput depth).Reachable ok adev →
    ((audioSystem asInput depth).resumed adev).Reachable ok adev' →
    adev.ins i = some inp → adev'.ins i = some inp' → inp'.devices = inp.devices →
    inGetBufferSize adev'.profiles inp' = inGetBufferSize adev.profiles inp

/-! ## Settings and profiles -/

/-- A start of the input writes to no profile. -/
def StreamIn.LeavesProfiles (inp : StreamIn) : Prop :=
  anyOf inp.inputFlags inputFlagFast = true →
    getPcmDevice loadedProfiles inp.usecaseType inp.devices = none

/-- What no call changes of an input, and its buffer size depends on. -/
def StreamIn.settings (inp : StreamIn) : UsecaseType × Nat × ChannelMask :=
  (inp.usecaseType, inp.requestedRate, inp.mainChannels)

/-- The profiles are as they were loaded, and the streams before a number keep their
settings. -/
theorem settings_rule (bound : Nat) (settings : Nat → Option (UsecaseType × Nat × ChannelMask)) :
    InputRule (fun n profiles => profiles = loadedProfiles ∧ bound ≤ n)
      StreamIn.LeavesProfiles
      fun n i inp => i < n ∧ (i < bound → some inp.settings = settings i) where
  growProfiles _ _ h := ⟨h.1, Nat.le_succ_of_le h.2⟩
  growInput _ _ _ h := ⟨Nat.lt_succ_of_lt h.1, h.2⟩
  created n _ _ _ h _ := ⟨Nat.lt_succ_self n, fun hlt => absurd hlt (Nat.not_lt.mpr h.2)⟩
  unopened _ _ _ _ _ h := h
  standby _ _ _ _ h := h
  parameters _ _ _ _ _ h := h
  effects _ _ _ _ _ _ _ h := h
  fast n profiles inp p h hok hprofile := by
    obtain ⟨rfl, hbound⟩ := h
    unfold fastProfiles
    split
    · rename_i hfast
      rw [hok hfast] at hprofile
      cases hprofile
    · exact ⟨rfl, hbound⟩
  started _ _ _ _ _ _ _ _ _ _ h _ _ := h

section Runs

variable {asInput : AsInput} {depth : Nat} {adev adev' : AudioDevice}

theorem reachable_settings
    (h : (audioSystem asInput depth).Reachable (StartsMeet StreamIn.LeavesProfiles) adev) :
    adev.profiles = loadedProfiles ∧ ∀ i inp, adev.ins i = some inp → i < adev.nextStream := by
  have hmeet := reachable_meet (settings_rule 0 fun _ => none) ⟨rfl, Nat.le_refl 0⟩ h
  exact ⟨hmeet.profiles.1, fun i inp hinp => (hmeet.inputs i inp hinp).1⟩

/-- Profiles and settings from a state on. -/
theorem resumed_settings
    (h : (audioSystem asInput depth).Reachable (StartsMeet StreamIn.LeavesProfiles) adev)
    (h' : ((audioSystem asInput depth).resumed adev).Reachable
      (StartsMeet StreamIn.LeavesProfiles) adev') :
    adev'.profiles = loadedProfiles ∧ ∀ i inp inp', adev.ins i = some inp →
      adev'.ins i = some inp' → inp'.settings = inp.settings := by
  obtain ⟨hprofiles, hlt⟩ := reachable_settings h
  have hrule := settings_rule adev.nextStream fun i => (adev.ins i).map StreamIn.settings
  have hmeet := resumed_meet hrule
    ⟨⟨hprofiles, Nat.le_refl _⟩, fun i inp hinp =>
      ⟨hlt i inp hinp, fun _ => by rw [hinp, Option.map_some]⟩⟩ h'
  refine ⟨hmeet.profiles.1, fun i inp inp' hinp hinp' => ?_⟩
  have hsame := (hmeet.inputs i inp' hinp').2 (hlt i inp hinp)
  rw [hinp, Option.map_some] at hsame
  exact Option.some.inj hsame

/-- The input after a start that succeeds. -/
theorem startInputStream_opens {answers : StartAnswers} {i : Nat} {inp : StreamIn}
    (hinp : adev.ins i = some inp)
    (hrun : startInputStream asInput depth answers adev i = some (0, adev')) :
    ∃ p device, getPcmDevice adev.profiles inp.usecaseType inp.devices = some p ∧
      adev'.ins i = some { configuredInput answers inp
        (fastProfiles adev.profiles inp.inputFlags p p).config p with pcmDevList := [device] } ∧
      ∀ config, device.openedWith = some config →
        config = (fastProfiles adev.profiles inp.inputFlags p p).config := by
  rw [startInputStream, hinp, Option.bind_eq_bind, Option.bind_some] at hrun
  cases hprofile : getPcmDevice adev.profiles inp.usecaseType inp.devices with
  | none =>
      rw [hprofile] at hrun
      cases hrun
  | some p =>
      rw [hprofile] at hrun
      dsimp only at hrun
      obtain ⟨mid, hmid, hrun⟩ := Option.bind_eq_some_iff.mp hrun
      have hprofiles : mid.profiles = fastProfiles adev.profiles inp.inputFlags p :=
        (selectDevices_inputsKept hmid).profiles.trans
          (applyFastPeriod_profiles _ inp.inputFlags p)
      by_cases hfails : CaptureFails answers mid p
      · rw [openCapture_fails hfails] at hrun
        obtain ⟨stopped, -, hrun⟩ := Option.bind_eq_some_iff.mp hrun
        cases hrun
      · obtain ⟨device, handles, hopen, -, hconfig⟩ := openCapture_opens hfails i
        rw [hopen] at hrun
        dsimp only at hrun
        rw [hprofiles] at hrun hconfig
        obtain ⟨-, rfl⟩ := Prod.mk.inj (Option.some.inj hrun)
        refine ⟨p, device, rfl, ?_, fun config h => (hconfig config h).1⟩
        exact Function.update_self ..

end Runs

/-! ## Runs without fast starts -/

theorem inGetBufferSize_congr {inp₁ inp₂ : StreamIn} (hsettings : inp₁.settings = inp₂.settings)
    (hdevices : inp₁.devices = inp₂.devices) (profiles : ProfileId → PcmDeviceProfile) :
    inGetBufferSize profiles inp₁ = inGetBufferSize profiles inp₂ := by
  obtain ⟨htype, hsettings⟩ := Prod.mk.inj hsettings
  obtain ⟨hrate, hchannels⟩ := Prod.mk.inj hsettings
  rw [inGetBufferSize, inGetBufferSize, htype, hrate, hchannels, hdevices]

theorem startConfig_congr {inp₁ inp₂ : StreamIn} (h : inp₁.Alike inp₂) (config : PcmConfig) :
    startConfig inp₁ config = startConfig inp₂ config := by
  rw [startConfig, startConfig, h.auxChannelsChanged, h.auxChannels]

/-- In the runs in which no fast input starts, streams are independent. -/
theorem streams_independent (asInput : AsInput) (depth : Nat) :
    StreamsIndependent asInput depth (StartsMeet StreamIn.LeavesProfiles) where
  config adev₁ adev₂ i₁ i₂ inp₁ inp₂ answers₁ answers₂ adev₁' adev₂' inp₁' inp₂' h₁ h₂ hinp₁ hinp₂
      halike hrun₁ hrun₂ hinp₁' hinp₂' := by
    obtain ⟨p₁, device₁, hp₁, hstarted₁, hopened₁⟩ := startInputStream_opens hinp₁ hrun₁
    obtain ⟨p₂, device₂, hp₂, hstarted₂, hopened₂⟩ := startInputStream_opens hinp₂ hrun₂
    rw [(reachable_settings h₁).1, halike.usecaseType, halike.devices] at hp₁
    rw [(reachable_settings h₂).1, hp₁] at hp₂
    cases hp₂
    rw [hstarted₁] at hinp₁'
    rw [hstarted₂] at hinp₂'
    cases hinp₁'
    cases hinp₂'
    rw [(reachable_settings h₁).1, halike.inputFlags] at hopened₁
    rw [(reachable_settings h₂).1] at hopened₂
    refine ⟨?_, fun config₁ hconfig₁ config₂ hconfig₂ => ?_⟩
    · show startConfig inp₁ _ = startConfig inp₂ _
      rw [(reachable_settings h₁).1, (reachable_settings h₂).1, halike.inputFlags,
        startConfig_congr halike]
    · obtain ⟨d₁, hd₁, hconfig₁⟩ := List.mem_filterMap.mp hconfig₁
      obtain ⟨d₂, hd₂, hconfig₂⟩ := List.mem_filterMap.mp hconfig₂
      rw [List.mem_singleton.mp hd₁] at hconfig₁
      rw [List.mem_singleton.mp hd₂] at hconfig₂
      rw [hopened₁ config₁ hconfig₁, hopened₂ config₂ hconfig₂]
  bufferSize adev₁ adev₂ i₁ i₂ inp₁ inp₂ h₁ h₂ _ _ halike := by
    rw [(reachable_settings h₁).1, (reachable_settings h₂).1]
    refine inGetBufferSize_congr ?_ halike.devices _
    rw [StreamIn.settings, StreamIn.settings, halike.usecaseType, halike.requestedRate,
      halike.mainChannels]
  stays adev adev' i inp inp' h h' hinp hinp' hdevices := by
    obtain ⟨hprofiles, hsettings⟩ := resumed_settings h h'
    rw [hprofiles, (reachable_settings h).1]
    exact inGetBufferSize_congr (hsettings i inp inp' hinp hinp') hdevices _

/-- A fast input from the built-in microphone. -/
def fastMicRequest : InputRequest := { micRequest with flags := inputFlagFast }

/-- The same input, opened as the first stream, and opened after an output was written to, another
input was read and closed, and a fast one was opened: both starts give the same configuration. -/
theorem streams_independent_histories :
    ∃ adev₁ adev₂ inp₁ inp₂ adev₁' adev₂' inp₁' inp₂',
      (audioSystem readsAsDefault 2).Reachable (StartsMeet StreamIn.LeavesProfiles) adev₁ ∧
      (audioSystem readsAsDefault 2).Reachable (StartsMeet StreamIn.LeavesProfiles) adev₂ ∧
      adev₁.usecaseList.length = 0 ∧ adev₂.usecaseList.length = 1 ∧
      adev₁.ins 0 = some inp₁ ∧ adev₂.ins 3 = some inp₂ ∧
      startInputStream readsAsDefault 2 allSucceed adev₁ 0 = some (0, adev₁') ∧
      startInputStream readsAsDefault 2 allSucceed adev₂ 3 = some (0, adev₂') ∧
      adev₁'.ins 0 = some inp₁' ∧ adev₂'.ins 3 = some inp₂' ∧ inp₁'.config = inp₂'.config ∧
      inGetBufferSize adev₁.profiles inp₁ = inGetBufferSize adev₂.profiles inp₂ := by
  have h₁ : (audioSystem readsAsDefault 2).Reachable (StartsMeet StreamIn.LeavesProfiles)
      (adevOpen false) := .start ⟨false, rfl⟩
  have h₂ := h₁
  replace h₁ := h₁.step (e := Call.openInputStream micRequest) trivial rfl
  replace h₂ := h₂.step (e := Call.openOutputStream deviceOutSpeaker outputFlagPrimary) trivial rfl
  replace h₂ := h₂.step (e := Call.openInputStream fastMicRequest) trivial rfl
  replace h₂ := h₂.step (e := Call.openInputStream micRequest) trivial rfl
  replace h₂ := h₂.step (e := Call.outWrite 0 allSucceed fun _ => 0) trivial rfl
  replace h₂ := h₂.step (e := Call.inRead 2 allSucceed true)
    (fun inp hinp _ hfast => by cases hinp; cases hfast) rfl
  replace h₂ := h₂.step (e := Call.closeInputStream 2) trivial rfl
  replace h₂ := h₂.step (e := Call.openInputStream micRequest) trivial rfl
  have halike : StreamIn.Alike (newInput micRequest captureConfig)
      (newInput micRequest captureConfig) := ⟨rfl, rfl, rfl, rfl, rfl, rfl, rfl, rfl, rfl⟩
  have hsame := streams_independent readsAsDefault 2
  refine ⟨_, _, _, _, _, _, _, _, h₁, h₂, rfl, rfl, rfl, rfl, rfl, rfl, rfl, rfl, ?_, ?_⟩
  · exact (hsame.config _ _ 0 3 _ _ allSucceed allSucceed _ _ _ _ h₁ h₂ rfl rfl halike rfl rfl rfl
      rfl).1
  · exact hsame.bufferSize _ _ 0 3 _ _ h₁ h₂ rfl rfl halike

/-- A fast input that records halves the buffers of an input that is opened later. -/
theorem streams_dependent_fast :
    ¬ StreamsIndependent readsAsDefault 2 fun _ _ => True := by
  intro h
  have hplain : ((audioSystem readsAsDefault 2).run (fun _ _ => True)
      [.openInputStream micRequest] (adevOpen false)).bind
        (fun adev => (adev.ins 0).map fun inp => (inp, inGetBufferSize adev.profiles inp)) =
      some (newInput micRequest captureConfig, 4096) := by
    decide
  have hafter : ((audioSystem readsAsDefault 2).run (fun _ _ => True)
      [.openInputStream fastMicRequest, .inRead 0 allSucceed true, .closeInputStream 0,
        .openInputStream micRequest] (adevOpen false)).bind
        (fun adev => (adev.ins 1).map fun inp =>
          ({ inp with config := captureConfig }, inGetBufferSize adev.profiles inp)) =
      some (newInput micRequest captureConfig, 2048) := by
    decide
  obtain ⟨adev₁, hrun₁, hsize₁⟩ := Option.bind_eq_some_iff.mp hplain
  obtain ⟨adev₂, hrun₂, hsize₂⟩ := Option.bind_eq_some_iff.mp hafter
  obtain ⟨inp₁, hinp₁, hsize₁⟩ := Option.map_eq_some_iff.mp hsize₁
  obtain ⟨inp₂, hinp₂, hsize₂⟩ := Option.map_eq_some_iff.mp hsize₂
  obtain ⟨hinput₁, hsize₁⟩ := Prod.mk.inj hsize₁
  obtain ⟨hinput₂, hsize₂⟩ := Prod.mk.inj hsize₂
  have halike : inp₁.Alike { inp₂ with config := captureConfig } := by
    rw [hinput₁, hinput₂]
    exact ⟨rfl, rfl, rfl, rfl, rfl, rfl, rfl, rfl, rfl⟩
  have hstart : (audioSystem readsAsDefault 2).Reachable (fun _ _ => True) (adevOpen false) :=
    .start ⟨false, rfl⟩
  have hsame := h.bufferSize adev₁ adev₂ 0 1 inp₁ inp₂ (hstart.run hrun₁) (hstart.run hrun₂)
    hinp₁ hinp₂ ⟨halike.1, halike.2, halike.3, halike.4, halike.5, halike.6, halike.7, halike.8,
      halike.9⟩
  rw [hsize₁, hsize₂] at hsame
  cases hsame

end DragonDevice.Audio
