/-
  Audio/ChannelAgreement.lean --- when the channel count of a capture stream is that of its
  PCM.

  An input that is marked as changed by its effects starts with the channel count of its
  auxiliary channels, but the PCM is always opened with the profile's.  The two agree where
  the auxiliary channels are those of the quad microphone.  An effect that cannot be
  configured, or one that is added while another microphone is used, leaves no auxiliary
  channels and the mark.
-/
import DragonDevice.Audio.InputRules

set_option autoImplicit false

namespace DragonDevice.Audio

open DragonDevice.Lib

/-- Every PCM that the input opened has the channels of the input's configuration. -/
def StreamIn.Agrees (inp : StreamIn) : Prop :=
  ∀ device ∈ inp.pcmDevList, ∀ config, device.openedWith = some config →
    inp.config.channels = config.channels

/-- If effects have marked the input as changed, they have left it the quad microphone. -/
def StreamIn.QuadIfChanged (inp : StreamIn) : Prop :=
  inp.auxChannelsChanged = true → inp.auxChannels = channelIndexMask4

/-- The profiles have the channels and types they were loaded with. -/
def ChannelsLoaded (profiles : ProfileId → PcmDeviceProfile) : Prop :=
  ∀ p, (profiles p).config.channels = (loadedProfiles p).config.channels ∧
    (profiles p).type = (loadedProfiles p).type

theorem ChannelsLoaded.fast {profiles : ProfileId → PcmDeviceProfile}
    (h : ChannelsLoaded profiles) (flags : BitVec 32) (p : ProfileId) :
    ChannelsLoaded (fastProfiles profiles flags p) := by
  intro q
  unfold fastProfiles
  split
  · by_cases hq : q = p
    · subst hq
      rw [Function.update_self]
      exact h q
    · rw [Function.update_of_ne hq]
      exact h q
  · exact h q

/-- All profiles but the hotword's have the channels of the quad microphone. -/
theorem ChannelsLoaded.quad {profiles : ProfileId → PcmDeviceProfile}
    (h : ChannelsLoaded profiles) {p : ProfileId}
    (htype : (profiles p).type ≠ .pcmHotwordStreaming) :
    (profiles p).config.channels = audioChannelCountFromInMask channelIndexMask4 := by
  obtain ⟨hchannels, htypes⟩ := h p
  rw [htypes] at htype
  rw [hchannels]
  cases p with
  | hotwordStreaming => exact absurd rfl htype
  | playbackHs => decide
  | capture => decide
  | playbackSpk => decide
  | captureLoopbackAec => decide
  | playbackSpkAndHeadset => decide

/-- The channel count that a start gives the input. -/
theorem configuredInput_channels (answers : StartAnswers) (inp : StreamIn) (config : PcmConfig)
    (p : ProfileId) : (configuredInput answers inp config p).config.channels =
      if inp.auxChannelsChanged then audioChannelCountFromInMask inp.auxChannels
      else config.channels := by
  unfold configuredInput startConfig
  dsimp only
  split <;> rfl

theorem agrees_rule :
    InputRule (fun _ => ChannelsLoaded) StreamIn.QuadIfChanged fun _ _ inp => inp.Agrees where
  growProfiles _ _ h := h
  growInput _ _ _ h := h
  created _ _ _ _ _ _ := nofun
  unopened _ _ inp devices hnone _ device hdevice config hconfig := by
    rw [hnone device hdevice] at hconfig
    cases hconfig
  standby _ _ _ _ h := h
  parameters _ _ _ _ _ h := h
  effects _ _ _ _ _ _ _ h := h
  fast _ _ inp p h _ _ := h.fast inp.inputFlags p
  started _ _ profiles inp p answers devices _ h hok _ _ hdevices := by
    intro device hdevice config hconfig
    obtain ⟨hopened, htype⟩ := hdevices device hdevice config hconfig
    show (configuredInput answers inp _ p).config.channels = _
    rw [configuredInput_channels, hopened]
    split
    · rename_i hchanged
      rw [hok hchanged]
      exact ((h.fast inp.inputFlags p).quad htype).symm
    · rfl

/-- In every run in which inputs start with the quad microphone if effects have marked them,
every input has the channel count of the PCM it opened. -/
theorem channels_agree {asInput : AsInput} {depth : Nat} {adev : AudioDevice}
    (h : (audioSystem asInput depth).Reachable (StartsMeet StreamIn.QuadIfChanged) adev)
    {i : Nat} {inp : StreamIn} (hinp : adev.ins i = some inp) : inp.Agrees :=
  (reachable_meet agrees_rule (fun _ => ⟨rfl, rfl⟩) h).inputs i inp hinp

/-- An effect that takes its configuration. -/
def configures : Nat → EffectAnswers := fun _ => ⟨0, (0, 0), (0, 0)⟩

/-- An effect that refuses its configuration. -/
def refuses : Nat → EffectAnswers := fun _ => ⟨-1, (0, 0), (0, 0)⟩

/-- The channels of an input, and what its devices were opened with. -/
def StreamIn.opened (inp : StreamIn) : Nat × List (Option PcmConfig) :=
  (inp.config.channels, inp.pcmDevList.map PcmDevice.openedWith)

/-- An input with an effect records from the built-in microphone. -/
theorem channels_agree_quad : ∃ adev,
    (audioSystem readsAsDefault 2).Reachable (StartsMeet StreamIn.QuadIfChanged) adev ∧
      (adev.ins 0).map StreamIn.opened = some (4, [some captureConfig]) ∧
      ∀ inp, adev.ins 0 = some inp → inp.Agrees := by
  have h₀ : (audioSystem readsAsDefault 2).Reachable (StartsMeet StreamIn.QuadIfChanged)
      (adevOpen false) := .start ⟨false, rfl⟩
  have h₁ := h₀.step (show StartsMeet _ _ (.openInputStream micRequest) from trivial) rfl
  have h₂ := h₁.step (show StartsMeet _ _ (.inAddAudioEffect 0 7 configures) from trivial) rfl
  have h₃ := h₂.step (show StartsMeet _ _ (.inRead 0 allSucceed true) from
    fun inp hinp _ _ => by cases hinp; rfl) rfl
  exact ⟨_, h₃, by decide, fun inp hinp => channels_agree h₃ hinp⟩

/-- An effect that refuses its configuration leaves the input without channels, and the PCM
has four. -/
theorem channels_disagree :
    ¬ ∀ adev i inp, (audioSystem readsAsDefault 2).Reachable (fun _ _ => True) adev →
      adev.ins i = some inp → inp.Agrees := by
  intro h
  have hopened : ((audioSystem readsAsDefault 2).run (fun _ _ => True)
      [.openInputStream micRequest, .inAddAudioEffect 0 7 refuses, .inRead 0 allSucceed true]
      (adevOpen false)).bind (fun adev => (adev.ins 0).map StreamIn.opened) =
        some (0, [some captureConfig]) := by
    decide
  obtain ⟨adev, hrun, hopened⟩ := Option.bind_eq_some_iff.mp hopened
  obtain ⟨inp, hinp, hopened⟩ := Option.map_eq_some_iff.mp hopened
  obtain ⟨hchannels, hdevices⟩ := Prod.mk.inj hopened
  have hstart : (audioSystem readsAsDefault 2).Reachable (fun _ _ => True) (adevOpen false) :=
    .start ⟨false, rfl⟩
  have hmem : some captureConfig ∈ inp.pcmDevList.map PcmDevice.openedWith := by
    rw [hdevices]
    exact List.mem_cons_self
  obtain ⟨device, hdevice, hconfig⟩ := List.mem_map.mp hmem
  have hagrees := h adev 0 inp (hstart.run hrun) hinp device hdevice captureConfig hconfig
  rw [hchannels] at hagrees
  cases hagrees

end DragonDevice.Audio
