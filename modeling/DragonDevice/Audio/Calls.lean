/-
  Audio/Calls.lean --- the calls of the audio HAL's interface, one after another, and its
  runs, from `audio_hw.c`.

  A call names an open stream; without one, or where the code would follow a pointer to a
  stream that is gone or stop at a fatal check, there is no state after it.
-/
import DragonDevice.Audio.Streams

set_option autoImplicit false

namespace DragonDevice.Audio

/-! ## Opening and closing -/

/-- The devices an output is opened with. -/
def openedOutDevices (devices : AudioDevices) : AudioDevices :=
  if devices = deviceNone then deviceOutSpeaker else devices

/-- The output that `adev_open_output_stream` builds. -/
def newOutput (devices : AudioDevices) (flags : BitVec 32) (config : PcmConfig) : StreamOut where
  devices := devices
  usecase :=
    if anyOf flags outputFlagDeepBuffer then .audioPlaybackDeepBuffer else .audioPlayback
  sampleRate :=
    if anyOf flags outputFlagDeepBuffer then pcmConfigDeepBuffer.rate else config.rate
  standby := true
  pcmDevList := []

/-- `adev_open_output_stream`.  A primary output is recorded before the use case is checked,
and stays recorded when the stream is freed. -/
def adevOpenOutputStream (adev : AudioDevice) (devices : AudioDevices) (flags : BitVec 32) :
    Int × AudioDevice :=
  let devices := openedOutDevices devices
  match getPcmDevice adev.profiles .pcmPlayback devices with
  | none => (-einval, adev)
  | some profile =>
      let out := newOutput devices flags (adev.profiles profile).config
      let id := adev.nextStream
      if anyOf flags outputFlagPrimary ∧ adev.primaryOutput ≠ none then
        (-eexist, adev)
      else
        let adev :=
          { adev with
            nextStream := id + 1
            primaryOutput :=
              if anyOf flags outputFlagPrimary then some id else adev.primaryOutput }
        match adev.getUsecaseFromId out.usecase with
        | some _ => (-eexist, adev)
        | none => (0, adev.setOut id out)

/-- `out_standby`. -/
def outStandby (adev : AudioDevice) (id : Nat) : Option AudioDevice := do
  let out ← adev.outs id
  if out.standby then some adev else doOutStandby adev id

/-- `adev_close_output_stream`. -/
def adevCloseOutputStream (adev : AudioDevice) (id : Nat) : Option AudioDevice := do
  let adev ← outStandby adev id
  some { adev with outs := Function.update adev.outs id none }

/-- The rates that `check_input_parameters` accepts. -/
def inputRates : List Nat := [8000, 11025, 12000, 16000, 22050, 24000, 32000, 44100, 48000]

/-- `check_input_parameters`; the format is whether it is 16 bit PCM. -/
def checkInputParameters (sampleRate : Nat) (pcm16 : Bool) (channelCount : Nat) : Int :=
  if pcm16 = false then -einval
  else if channelCount < 1 ∨ 4 < channelCount then -einval
  else if sampleRate ∈ inputRates then 0
  else -einval

/-- What an input is opened with. -/
structure InputRequest where
  devices : AudioDevices
  source : Nat
  flags : BitVec 32
  sampleRate : Nat
  pcm16 : Bool
  channelMask : ChannelMask

/-- The type of use case by the source. -/
def sourceUsecaseType (source : Nat) : UsecaseType :=
  if source = sourceHotword then .pcmHotwordStreaming else .pcmCapture

/-- The input that `adev_open_input_stream` builds. -/
def newInput (request : InputRequest) (config : PcmConfig) : StreamIn where
  devices := request.devices
  source := request.source
  usecase := if request.source = sourceHotword then .audioCaptureHotword else .audioCapture
  usecaseType := sourceUsecaseType request.source
  inputFlags :=
    if request.sampleRate ≠ captureDefaultSamplingRate then request.flags &&& ~~~inputFlagFast
    else request.flags
  mainChannels := request.channelMask
  requestedRate := request.sampleRate
  config := config
  standby := true
  pcmDevList := []
  resampler := false
  preprocessors := []
  auxChannelsChanged := false
  auxChannels := 0

/-- `adev_open_input_stream`. -/
def adevOpenInputStream (adev : AudioDevice) (request : InputRequest) : Int × AudioDevice :=
  let channelCount := audioChannelCountFromInMask request.channelMask
  if checkInputParameters request.sampleRate request.pcm16 channelCount ≠ 0 then
    (-einval, adev)
  else
    match getPcmDevice adev.profiles (sourceUsecaseType request.source) request.devices with
    | none => (-einval, adev)
    | some profile =>
        let inp := newInput request (adev.profiles profile).config
        (0, { adev with nextStream := adev.nextStream + 1 }.setIn adev.nextStream inp)

/-- `adev_close_input_stream`. -/
def adevCloseInputStream (adev : AudioDevice) (id : Nat) : Option AudioDevice := do
  let adev ← doInStandby adev id
  some { adev with ins := Function.update adev.ins id none }

/-! ## Output calls -/

/-- The active input, if a change of the output has to reset it. -/
def inputToReset (adev : AudioDevice) : Option (Option Nat) :=
  match adev.activeInput with
  | none => some none
  | some id =>
      (adev.ins id).map fun inp =>
        if inp.source = sourceVoiceCommunication ∨ inp.source = sourceMic then some id else none

/-- The forced standby of the input that an output call took note of, with its fatal check. -/
def resetInput (adev : AudioDevice) : Option Nat → Option AudioDevice
  | none => some adev
  | some id => if adev.activeInput = some id then doInStandby adev id else none

/-- `ret` after the loop of `out_write` over the devices, by the status of each write. -/
def writeStatus (status : ProfileId → Int) (devices : List PcmDevice) : Int :=
  devices.foldl
    (fun ret device =>
      if device.pcm ≠ none ∧ status device.profile ≠ 0 then status device.profile else ret) 0

/-- The standby of an output after an error. -/
def standbyOnError (adev : AudioDevice) (id : Nat) (ret : Int) : Option AudioDevice :=
  if ret ≠ 0 then outStandby adev id else some adev

/-- `out_write` from the loop over the devices on. -/
def writeStarted (status : ProfileId → Int) (adev : AudioDevice) (id : Nat)
    (reset : Option Nat) : Option AudioDevice := do
  let out ← adev.outs id
  let adev ← standbyOnError adev id (writeStatus status out.pcmDevList)
  resetInput adev reset

/-- `out_write`. -/
def outWrite (asInput : AsInput) (depth : Nat) (answers : StartAnswers)
    (status : ProfileId → Int) (adev : AudioDevice) (id : Nat) : Option AudioDevice := do
  let out ← adev.outs id
  if out.standby then do
    let (ret, adev) ← startOutputStream asInput depth answers adev id
    if ret ≠ 0 then
      standbyOnError adev id ret
    else do
      let out ← adev.outs id
      let adev := adev.setOut id { out with standby := false }
      let reset ← inputToReset adev
      writeStarted status adev id reset
  else
    writeStarted status adev id none

/-- The routing of an output as such: a change of devices goes through standby. -/
def rerouteOutput (asInput : AsInput) (depth : Nat) (adev : AudioDevice) (id : Nat)
    (devices : AudioDevices) : Option AudioDevice := do
  let out ← adev.outs id
  let adev := adev.setOut id { out with devices := devices }
  if out.standby then some adev
  else if out.devices ≠ devices then doOutStandby adev id
  else selectDevices asInput depth adev out.usecase

/-- The voice call follows the routing of the primary output: it starts, or its devices are
selected again. -/
def routeCall (asInput : AsInput) (depth : Nat) (adev : AudioDevice) (id : Nat) :
    Option AudioDevice :=
  if adev.mode = modeInCall ∧ adev.primaryOutput = some id then
    if adev.inCall then selectDevices asInput depth adev .voiceCall
    else startVoiceCall asInput depth adev
  else
    some adev

/-- The end of the voice call with the mode. -/
def endCall (adev : AudioDevice) (id : Nat) : Option AudioDevice :=
  if adev.mode = modeNormal ∧ adev.inCall ∧ adev.primaryOutput = some id then
    stopVoiceCall adev
  else
    some adev

/-- The input to reset because of a routing value. -/
def routingReset (adev : AudioDevice) (out : StreamOut) (value : AudioDevices) :
    Option (Option Nat) :=
  if out.devices ≠ value ∧ value ≠ 0 ∧ out.standby = false ∧
      out.usecase = .audioPlayback then
    inputToReset adev
  else
    some none

/-- The routing of an output and, with it, of the voice call; nothing for a value of 0. -/
def applyRouting (asInput : AsInput) (depth : Nat) (adev : AudioDevice) (id : Nat)
    (value : AudioDevices) : Option AudioDevice :=
  if value ≠ 0 then do
    let adev ← rerouteOutput asInput depth adev id value
    routeCall asInput depth adev id
  else
    some adev

/-- `out_set_parameters` with a routing value. -/
def outSetRouting (asInput : AsInput) (depth : Nat) (adev : AudioDevice) (id : Nat)
    (value : AudioDevices) : Option AudioDevice := do
  let out ← adev.outs id
  let reset ← routingReset adev out value
  let adev ← applyRouting asInput depth adev id value
  let adev ← endCall adev id
  resetInput adev reset

/-! ## Input calls -/

/-- `in_read` of an input out of standby; `successful` is how the read itself ends, if there
is a device to read. -/
def readStarted (successful : Bool) (adev : AudioDevice) (id : Nat) : Option AudioDevice := do
  let inp ← adev.ins id
  if inp.pcmDevList ≠ [] ∧ successful then some adev else doInStandby adev id

/-- `in_read`. -/
def inRead (asInput : AsInput) (depth : Nat) (answers : StartAnswers) (successful : Bool)
    (adev : AudioDevice) (id : Nat) : Option AudioDevice := do
  let inp ← adev.ins id
  if inp.standby then do
    let (ret, adev) ← startInputStream asInput depth answers adev id
    if ret ≠ 0 then
      doInStandby adev id
    else do
      let inp ← adev.ins id
      readStarted successful (adev.setIn id { inp with standby := false }) id
  else
    readStarted successful adev id

/-- `in_set_parameters`, with the values of source and routing that are given. -/
def inSetParameters (asInput : AsInput) (depth : Nat) (adev : AudioDevice) (id : Nat)
    (source : Option Nat) (routing : Option AudioDevices) : Option AudioDevice := do
  let inp ← adev.ins id
  let inp := { inp with source := (source.filter fun val => val ≠ 0).getD inp.source }
  let adev := adev.setIn id inp
  match routing with
  | none => some adev
  | some val =>
      if inp.devices ≠ val ∧ val ≠ 0 then do
        let adev := adev.setIn id { inp with devices := val }
        if inp.standby then
          some adev
        else
          let leaves :=
            (adev.getUsecaseFromId inp.usecase).isSome &&
              inp.pcmDevList.head?.any fun device =>
                (adev.profiles device.profile).devices &&& val &&& ~~~deviceBitIn == 0
          if leaves then doInStandby adev id
          else selectDevices asInput depth adev inp.usecase
      else
        some adev

/-- `in_add_audio_effect`, after the descriptor was read. -/
def inAddAudioEffect (answers : Nat → EffectAnswers) (adev : AudioDevice) (id effect : Nat) :
    Option (Int × AudioDevice) := do
  let inp ← adev.ins id
  if maxPreprocessors ≤ inp.preprocessors.length then
    some (-enosys, adev)
  else do
    let adev ← inUpdateAuxChannels answers
      (adev.setIn id { inp with preprocessors := inp.preprocessors ++ [effect] }) id
    let inp ← adev.ins id
    some (0, adev.setIn id { inp with auxChannelsChanged := true })

/-- `in_remove_audio_effect`, after the descriptor was read. -/
def inRemoveAudioEffect (adev : AudioDevice) (id effect : Nat) : Option (Int × AudioDevice) := do
  let inp ← adev.ins id
  if inp.preprocessors = [] then
    some (-enosys, adev)
  else if effect ∈ inp.preprocessors then
    some (0, adev.setIn id
      { inp with
        preprocessors := inp.preprocessors.erase effect
        auxChannelsChanged := false })
  else
    some (-einval, adev)

/-! ## Device calls -/

/-- `adev_set_parameters`, as far as the mode for teletypes goes. -/
def adevSetTty (asInput : AsInput) (depth : Nat) (adev : AudioDevice) (tty : TtyMode) :
    Option AudioDevice :=
  if tty ≠ adev.tty then
    let adev := { adev with tty := tty }
    if adev.inCall then selectDevices asInput depth adev .voiceCall else some adev
  else
    some adev

/-- A call, with what the libraries answer while it runs. -/
inductive Call where
  | openOutputStream (devices : AudioDevices) (flags : BitVec 32)
  | closeOutputStream (id : Nat)
  | openInputStream (request : InputRequest)
  | closeInputStream (id : Nat)
  | outWrite (id : Nat) (answers : StartAnswers) (status : ProfileId → Int)
  | outStandby (id : Nat)
  | outSetRouting (id : Nat) (value : AudioDevices)
  | inRead (id : Nat) (answers : StartAnswers) (successful : Bool)
  | inStandby (id : Nat)
  | inSetParameters (id : Nat) (source : Option Nat) (routing : Option AudioDevices)
  | inAddAudioEffect (id effect : Nat) (answers : Nat → EffectAnswers)
  | inRemoveAudioEffect (id effect : Nat)
  | setMode (mode : Nat)
  | setTty (tty : TtyMode)
  | setMicMute (state : Bool)

/-- The state after a call. -/
def Call.run (asInput : AsInput) (depth : Nat) (adev : AudioDevice) : Call → Option AudioDevice
  | .openOutputStream devices flags => some (adevOpenOutputStream adev devices flags).2
  | .closeOutputStream id => adevCloseOutputStream adev id
  | .openInputStream request => some (adevOpenInputStream adev request).2
  | .closeInputStream id => adevCloseInputStream adev id
  | .outWrite id answers status => Audio.outWrite asInput depth answers status adev id
  | .outStandby id => Audio.outStandby adev id
  | .outSetRouting id value => Audio.outSetRouting asInput depth adev id value
  | .inRead id answers successful => Audio.inRead asInput depth answers successful adev id
  | .inStandby id => doInStandby adev id
  | .inSetParameters id source routing =>
      Audio.inSetParameters asInput depth adev id source routing
  | .inAddAudioEffect id effect answers =>
      (Audio.inAddAudioEffect answers adev id effect).map Prod.snd
  | .inRemoveAudioEffect id effect =>
      (Audio.inRemoveAudioEffect adev id effect).map Prod.snd
  | .setMode mode => some { adev with mode := mode }
  | .setTty tty => adevSetTty asInput depth adev tty
  | .setMicMute state => some { adev with micMute := state }

end DragonDevice.Audio
