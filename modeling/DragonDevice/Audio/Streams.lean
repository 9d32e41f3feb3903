/-
  Audio/Streams.lean --- starting and stopping streams and the voice call, and the effects of
  an input, from `audio_hw.c`.

  What the libraries answer (`pcm_open`, `create_resampler`, the sound trigger, the commands
  of an effect) is an argument.  A function has no result where the code would follow a
  pointer to a stream that is gone.
-/
import DragonDevice.Audio.Hal

set_option autoImplicit false

namespace DragonDevice.Audio

/-! ## PCM handles -/

/-- How `pcm_open` ends: without a handle, with one that is not ready, or with a ready one. -/
inductive PcmOpened where
  | null
  | notReady
  | ready
  deriving DecidableEq, Repr

/-- What the libraries answer while a stream starts; a PCM device and its resampler by the
profile. -/
structure StartAnswers where
  pcmOpen : ProfileId → PcmOpened
  createResampler : ProfileId → Int
  openForStreaming : Int

namespace AudioDevice

/-- A handle that no PCM has now. -/
def freshHandle (adev : AudioDevice) : Nat :=
  (adev.handles.map PcmHandle.id).foldr max 0 + 1

/-- `pcm_open`. -/
def pcmOpen (adev : AudioDevice) (owner : StreamRef) : PcmOpened → AudioDevice × Option Nat
  | .null => (adev, none)
  | .notReady =>
      ({ adev with handles := ⟨adev.freshHandle, owner, false⟩ :: adev.handles },
        some adev.freshHandle)
  | .ready =>
      ({ adev with handles := ⟨adev.freshHandle, owner, true⟩ :: adev.handles },
        some adev.freshHandle)

/-- `pcm_close`, if there is a PCM. -/
def pcmClose (adev : AudioDevice) : Option Nat → AudioDevice
  | none => adev
  | some pcm => { adev with handles := adev.handles.filter fun h => h.id ≠ pcm }

/-- `pcm_close` of every device of a list. -/
def closeAll (adev : AudioDevice) (devices : List PcmDevice) : AudioDevice :=
  devices.foldl (fun adev device => adev.pcmClose device.pcm) adev

end AudioDevice

/-! ## Input streams -/

/-- A device of an input after `in_close_pcm_devices`. -/
def PcmDevice.closedIn (device : PcmDevice) : PcmDevice :=
  { device with pcm := none, openedWith := none, soundTriggerHandle := 0 }

/-- `in_close_pcm_devices`. -/
def inClosePcmDevices (adev : AudioDevice) (id : Nat) : Option AudioDevice := do
  let inp ← adev.ins id
  some ((adev.closeAll inp.pcmDevList).setIn id
    { inp with pcmDevList := inp.pcmDevList.map PcmDevice.closedIn })

/-- `stop_input_stream`. -/
def stopInputStream (adev : AudioDevice) (id : Nat) : Option AudioDevice := do
  let inp ← adev.ins id
  let adev := { adev with activeInput := none }
  match adev.getUsecaseFromId inp.usecase with
  | none => some adev
  | some uc =>
      let adev := disableSndDevice adev (uc.inSndDevice.map .inp)
      let adev := { adev with usecaseList := removeUsecase inp.usecase adev.usecaseList }
      some (adev.setIn id { inp with pcmDevList := [] })

/-- The low latency period of a fast input, written to the profile. -/
def applyFastPeriod (adev : AudioDevice) (inputFlags : BitVec 32) (profile : ProfileId) :
    AudioDevice :=
  if anyOf inputFlags inputFlagFast then
    let p := adev.profiles profile
    { adev with
      profiles := Function.update adev.profiles profile
        { p with config := { p.config with periodSize := capturePeriodSizeLowLatency } } }
  else
    adev

/-- `in->config`, as the start takes it over from the profile. -/
def startConfig (inp : StreamIn) (config : PcmConfig) : PcmConfig :=
  if inp.auxChannelsChanged then
    { config with channels := audioChannelCountFromInMask inp.auxChannels }
  else
    config

/-- `recreate_resampler`. -/
def recreateResampler (inp : StreamIn) (config : PcmConfig) : Bool :=
  inp.config.rate != config.rate || inp.auxChannelsChanged || inp.requestedRate != config.rate

/-- The use case of an input that starts. -/
def captureUsecase (id : Nat) (inp : StreamIn) : AudioUsecase :=
  ⟨inp.usecase, .pcmCapture, inp.devices, none, none, .inp id⟩

/-- How the PCM device or the DSP of an input opens: the device that is listed, or `none` for
the jump to `error_open`. -/
def openCapture (answers : StartAnswers) (adev : AudioDevice) (id : Nat) (profile : ProfileId) :
    AudioDevice × Option PcmDevice :=
  let device := newPcmDevice profile
  if (adev.profiles profile).type = .pcmHotwordStreaming then
    if adev.soundTrigger ∧ 0 < answers.openForStreaming then
      (adev, some { device with soundTriggerHandle := answers.openForStreaming })
    else
      (adev, none)
  else
    let (opened, pcm) := adev.pcmOpen (.inp id) (answers.pcmOpen profile)
    if answers.pcmOpen profile = .notReady then
      (opened.pcmClose pcm, none)
    else
      let openedWith := pcm.map fun _ => (adev.profiles profile).config
      (opened, some { device with pcm := pcm, openedWith := openedWith })

/-- `start_input_stream` up to the selection of devices: the stream lists the device of its
profile, and the use case is there. -/
def enableInputPath (asInput : AsInput) (depth : Nat) (adev : AudioDevice) (id : Nat)
    (inp : StreamIn) (profile : ProfileId) : Option AudioDevice :=
  let adev := applyFastPeriod { adev with activeInput := some id } inp.inputFlags profile
  let adev := adev.setIn id { inp with pcmDevList := [newPcmDevice profile] }
  selectDevices asInput depth
    { adev with usecaseList := adev.usecaseList ++ [captureUsecase id inp] } inp.usecase

/-- What `create_resampler` returns for an input, if one is needed. -/
def inResampler (answers : StartAnswers) (inp : StreamIn) (config : PcmConfig)
    (profile : ProfileId) : Int :=
  if recreateResampler inp config then answers.createResampler profile else 0

/-- The input with its configuration updated and its resampler recreated. -/
def configuredInput (answers : StartAnswers) (inp : StreamIn) (config : PcmConfig)
    (profile : ProfileId) : StreamIn :=
  { inp with
    config := startConfig inp config
    resampler :=
      if recreateResampler inp config then inResampler answers inp config profile = 0
      else inp.resampler }

/-- `start_input_stream`. -/
def startInputStream (asInput : AsInput) (depth : Nat) (answers : StartAnswers)
    (adev : AudioDevice) (id : Nat) : Option (Int × AudioDevice) := do
  let inp ← adev.ins id
  match getPcmDevice adev.profiles inp.usecaseType inp.devices with
  | none => some (-einval, { adev with activeInput := none })
  | some profile => do
      let adev ← enableInputPath asInput depth adev id inp profile
      let config := (adev.profiles profile).config
      let ret := inResampler answers inp config profile
      let inp := configuredInput answers inp config profile
      match openCapture answers adev id profile with
      | (adev, none) => do
          let adev ← stopInputStream
            (adev.setIn id
              { inp with pcmDevList := [newPcmDevice profile], resampler := false }) id
          some (-eio, { adev with activeInput := none })
      | (adev, some device) => some (ret, adev.setIn id { inp with pcmDevList := [device] })

/-- `do_in_standby_l`. -/
def doInStandby (adev : AudioDevice) (id : Nat) : Option AudioDevice := do
  let inp ← adev.ins id
  if inp.standby then
    some adev
  else do
    let adev ← inClosePcmDevices adev id
    let adev ← stopInputStream adev id
    let inp ← adev.ins id
    some (adev.setIn id { inp with standby := true })

/-! ## Effects of an input -/

/-- `MAX_PREPROCESSORS`. -/
def maxPreprocessors : Nat := 3

/-- What an effect answers to the commands of one configuration: the status of the call, and
with the last two the status in the reply. -/
structure EffectAnswers where
  getConfig : Int
  setConfig : Int × Int
  enable : Int × Int

/-- `get_command_status`. -/
def getCommandStatus (status fctStatus cmdStatus : Int) : Int :=
  if fctStatus ≠ 0 then fctStatus
  else if cmdStatus ≠ 0 then cmdStatus
  else status

/-- `in_configure_effect_channels`. -/
def inConfigureEffectChannels (answers : EffectAnswers) : Int :=
  if answers.getConfig ≠ 0 then
    answers.getConfig
  else
    let status := getCommandStatus 0 answers.setConfig.1 answers.setConfig.2
    if status ≠ 0 then status
    else getCommandStatus status answers.enable.1 answers.enable.2

/-- `in_reconfigure_channels`, for an effect that is added: every effect if the configuration
changed, else the new one if there are auxiliary channels. -/
def inReconfigureChannels (answers : Nat → EffectAnswers) (inp : StreamIn)
    (auxChannels : ChannelMask) (configChanged : Bool) : Int :=
  if configChanged then
    (List.range inp.preprocessors.length).foldl
      (fun status i =>
        let curStatus := inConfigureEffectChannels (answers i)
        if curStatus ≠ 0 then curStatus else status) 0
  else if auxChannels ≠ 0 then
    inConfigureEffectChannels (answers (inp.preprocessors.length - 1))
  else
    0

/-- `in_get_aux_channels`. -/
def inGetAuxChannels (inp : StreamIn) : ChannelMask :=
  if inp.preprocessors = [] then 0
  else if ¬ anyOf inp.devices (deviceInBuiltinMic &&& ~~~deviceBitIn) then 0
  else channelIndexMask4

/-- The auxiliary channels that `in_update_aux_channels` settles on. -/
def updatedAuxChannels (answers : Nat → EffectAnswers) (inp : StreamIn) : ChannelMask :=
  let auxChannels := inGetAuxChannels inp
  let status := inReconfigureChannels answers inp auxChannels (auxChannels != inp.auxChannels)
  if status ≠ 0 then 0 else auxChannels

/-- `in_update_aux_channels`. -/
def inUpdateAuxChannels (answers : Nat → EffectAnswers) (adev : AudioDevice) (id : Nat) :
    Option AudioDevice := do
  let inp ← adev.ins id
  let auxChannels := updatedAuxChannels answers inp
  if inp.auxChannels ≠ auxChannels then
    doInStandby
      (adev.setIn id { inp with auxChannelsChanged := true, auxChannels := auxChannels }) id
  else
    some adev

/-! ## Output streams -/

/-- A device of an output after `out_close_pcm_devices`. -/
def PcmDevice.closedOut (device : PcmDevice) : PcmDevice :=
  { device with
    pcm := none
    openedWith := none
    soundTriggerHandle := if 0 < device.soundTriggerHandle then 0 else device.soundTriggerHandle
    resampler := false }

/-- `out_close_pcm_devices`. -/
def outClosePcmDevices (adev : AudioDevice) (id : Nat) : Option AudioDevice := do
  let out ← adev.outs id
  some ((adev.closeAll out.pcmDevList).setOut id
    { out with pcmDevList := out.pcmDevList.map PcmDevice.closedOut })

/-- The loop of `out_open_pcm_devices` over the devices it has not come to.  The flag says
that it jumped to `error_open`; the handle of a device that is not ready is dropped. -/
def openPcmDevices (answers : StartAnswers) (owner : StreamRef) (sampleRate : Nat) :
    AudioDevice → Int → List PcmDevice → AudioDevice × Int × Bool × List PcmDevice
  | adev, ret, [] => (adev, ret, false, [])
  | adev, ret, device :: rest =>
      let config := (adev.profiles device.profile).config
      let (adev, pcm) := adev.pcmOpen owner (answers.pcmOpen device.profile)
      if answers.pcmOpen device.profile = .notReady then
        (adev, -eio, true, { device with pcm := none } :: rest)
      else
        let device := { device with pcm := pcm, openedWith := pcm.map fun _ => config }
        let create := sampleRate ≠ config.rate
        let ret := if create then answers.createResampler device.profile else ret
        let device := { device with resampler := if create then ret = 0 else device.resampler }
        let (adev, ret, failed, rest) := openPcmDevices answers owner sampleRate adev ret rest
        (adev, ret, failed, device :: rest)

/-- `out_open_pcm_devices`. -/
def outOpenPcmDevices (answers : StartAnswers) (adev : AudioDevice) (id : Nat) :
    Option (Int × AudioDevice) := do
  let out ← adev.outs id
  let (adev, ret, failed, devices) :=
    openPcmDevices answers (.out id) out.sampleRate adev 0 out.pcmDevList
  let adev := adev.setOut id { out with pcmDevList := devices }
  if failed then do
    let adev ← outClosePcmDevices adev id
    some (ret, adev)
  else
    some (ret, adev)

/-- `uc_release_pcm_devices`. -/
def ucReleasePcmDevices (adev : AudioDevice) : StreamRef → Option AudioDevice
  | .out id => (adev.outs id).map fun out => adev.setOut id { out with pcmDevList := [] }
  | .inp _ => none

/-- `uc_select_pcm_devices`. -/
def ucSelectPcmDevices (adev : AudioDevice) (uc : AudioUsecase) : Option AudioDevice :=
  match uc.stream with
  | .out id =>
      (adev.outs id).map fun out =>
        adev.setOut id
          { out with
            pcmDevList :=
              ((getPcmDevice adev.profiles uc.type uc.devices).map newPcmDevice).toList }
  | .inp _ => none

/-- `disable_output_path_l`, and so `stop_output_stream`. -/
def stopOutputStream (adev : AudioDevice) (id : Nat) : Option AudioDevice := do
  let out ← adev.outs id
  match adev.getUsecaseFromId out.usecase with
  | none => some adev
  | some uc => do
      let adev := disableSndDevice adev (uc.outSndDevice.map .out)
      let adev ← ucReleasePcmDevices adev uc.stream
      some { adev with usecaseList := removeUsecase out.usecase adev.usecaseList }

/-- The use case of an output that starts. -/
def playbackUsecase (id : Nat) (out : StreamOut) : AudioUsecase :=
  ⟨out.usecase, .pcmPlayback, out.devices, none, none, .out id⟩

/-- `enable_output_path_l`. -/
def enableOutputPath (asInput : AsInput) (depth : Nat) (adev : AudioDevice) (id : Nat) :
    Option AudioDevice := do
  let out ← adev.outs id
  let adev ← ucSelectPcmDevices adev (playbackUsecase id out)
  selectDevices asInput depth
    { adev with usecaseList := adev.usecaseList ++ [playbackUsecase id out] } out.usecase

/-- `start_output_stream`. -/
def startOutputStream (asInput : AsInput) (depth : Nat) (answers : StartAnswers)
    (adev : AudioDevice) (id : Nat) : Option (Int × AudioDevice) := do
  let adev ← enableOutputPath asInput depth adev id
  let (ret, adev) ← outOpenPcmDevices answers adev id
  if ret ≠ 0 then do
    let adev ← stopOutputStream adev id
    some (ret, adev)
  else
    some (0, adev)

/-- `do_out_standby_l`. -/
def doOutStandby (adev : AudioDevice) (id : Nat) : Option AudioDevice := do
  let out ← adev.outs id
  let adev ← outClosePcmDevices (adev.setOut id { out with standby := true }) id
  stopOutputStream adev id

/-! ## Voice call -/

/-- `stop_voice_call`. -/
def stopVoiceCall (adev : AudioDevice) : Option AudioDevice :=
  let adev := { adev with inCall := false }
  match adev.getUsecaseFromId .voiceCall with
  | none => some adev
  | some uc => do
      let adev := disableSndDevice adev (uc.outSndDevice.map .out)
      let adev := disableSndDevice adev (uc.inSndDevice.map .inp)
      let adev ← ucReleasePcmDevices adev uc.stream
      some { adev with usecaseList := removeUsecase .voiceCall adev.usecaseList }

/-- `start_voice_call`. -/
def startVoiceCall (asInput : AsInput) (depth : Nat) (adev : AudioDevice) :
    Option AudioDevice := do
  let id ← adev.primaryOutput
  let out ← adev.outs id
  let uc : AudioUsecase := ⟨.voiceCall, .voiceCall, out.devices, none, none, .out id⟩
  let adev ← ucSelectPcmDevices adev uc
  let adev ← selectDevices asInput depth
    { adev with usecaseList := adev.usecaseList ++ [uc] } .voiceCall
  some { adev with inCall := true }

end DragonDevice.Audio
