/-
  Audio/Devices.lean --- the tables of the audio HAL: audio devices, sources and channel
  masks of the framework, the PCM device profiles, and the sound devices of the mixer paths
  with the choice among them.

  The profiles are a table that the HAL writes to, so it is part of the state.
-/
import Mathlib.Data.List.Basic

set_option autoImplicit false

namespace DragonDevice.Audio

/-! ## Numbers of the framework -/

/-- `audio_devices_t`. -/
abbrev AudioDevices : Type := BitVec 32

/-- `audio_channel_mask_t`. -/
abbrev ChannelMask : Type := BitVec 32

def deviceNone : AudioDevices := 0
def deviceBitIn : AudioDevices := 0x80000000
def deviceOutEarpiece : AudioDevices := 0x1
def deviceOutSpeaker : AudioDevices := 0x2
def deviceOutWiredHeadset : AudioDevices := 0x4
def deviceOutWiredHeadphone : AudioDevices := 0x8
def deviceInCommunication : AudioDevices := 0x80000001
def deviceInBuiltinMic : AudioDevices := 0x80000004
def deviceInWiredHeadset : AudioDevices := 0x80000010
def deviceInAuxDigital : AudioDevices := 0x80000020
def deviceInVoiceCall : AudioDevices := 0x80000040
def deviceInBackMic : AudioDevices := 0x80000080

def sourceDefault : Nat := 0
def sourceMic : Nat := 1
def sourceCamcorder : Nat := 5
def sourceVoiceRecognition : Nat := 6
def sourceVoiceCommunication : Nat := 7
def sourceHotword : Nat := 1999

def modeNormal : Nat := 0
def modeInCall : Nat := 2

def outputFlagPrimary : BitVec 32 := 0x2
def outputFlagDeepBuffer : BitVec 32 := 0x8
def inputFlagFast : BitVec 32 := 0x1

/-- `AUDIO_CHANNEL_IN_FRONT_BACK`. -/
def channelInFrontBack : ChannelMask := 0x30

/-- `AUDIO_CHANNEL_INDEX_MASK_4`: the representation by index, and four channels. -/
def channelIndexMask4 : ChannelMask := 0x8000000f

def popcount (bits : BitVec 32) : Nat := (List.range 32).countP fun i => bits.getLsbD i

/-- `audio_channel_count_from_in_mask`: by position only the input positions count, by
index every bit below the representation. -/
def audioChannelCountFromInMask (mask : ChannelMask) : Nat :=
  if mask >>> 30 = 0 then popcount (mask &&& 0xfffc)
  else if mask >>> 30 = 2 then popcount (mask &&& 0x3fffffff)
  else 0

/-- Some bit of `bits` is set in `devices`. -/
def anyOf (devices bits : BitVec 32) : Bool := devices &&& bits != 0

/-! ## PCM device profiles -/

/-- `usecase_type_t`. -/
inductive UsecaseType where
  | pcmPlayback
  | pcmCapture
  | voiceCall
  | pcmHotwordStreaming
  deriving DecidableEq, Repr

/-- `pcm_config`, as far as the HAL reads it. -/
structure PcmConfig where
  channels : Nat
  rate : Nat
  periodSize : Nat
  deriving DecidableEq, Repr, Inhabited

/-- `pcm_device_profile`. -/
structure PcmDeviceProfile where
  config : PcmConfig
  type : UsecaseType
  devices : AudioDevices
  deriving DecidableEq, Repr

def playbackConfig : PcmConfig := ⟨4, 48000, 512⟩
def captureConfig : PcmConfig := ⟨4, 48000, 1024⟩
def hotwordConfig : PcmConfig := ⟨1, 16000, 1024⟩
def pcmConfigDeepBuffer : PcmConfig := ⟨2, 48000, 1440⟩

/-- `CAPTURE_PERIOD_SIZE_LOW_LATENCY`. -/
def capturePeriodSizeLowLatency : Nat := 512

/-- `CAPTURE_DEFAULT_SAMPLING_RATE`. -/
def captureDefaultSamplingRate : Nat := 48000

/-- The profiles, structures of the HAL that `pcm_devices` points to. -/
inductive ProfileId where
  | playbackHs
  | capture
  | playbackSpk
  | captureLoopbackAec
  | playbackSpkAndHeadset
  | hotwordStreaming
  deriving DecidableEq, Repr

/-- The profiles as the HAL is loaded.  The devices of the loopback are the number of a sound
device, `SND_DEVICE_IN_LOOPBACK_AEC`. -/
def loadedProfiles : ProfileId → PcmDeviceProfile
  | .playbackHs =>
      ⟨playbackConfig, .pcmPlayback, deviceOutWiredHeadset ||| deviceOutWiredHeadphone⟩
  | .capture =>
      ⟨captureConfig, .pcmCapture,
        deviceInBuiltinMic ||| deviceInWiredHeadset ||| deviceInBackMic⟩
  | .playbackSpk => ⟨playbackConfig, .pcmPlayback, deviceOutSpeaker⟩
  | .captureLoopbackAec => ⟨captureConfig, .pcmCapture, 32⟩
  | .playbackSpkAndHeadset =>
      ⟨playbackConfig, .pcmPlayback,
        deviceOutSpeaker ||| deviceOutWiredHeadset ||| deviceOutWiredHeadphone⟩
  | .hotwordStreaming =>
      ⟨hotwordConfig, .pcmHotwordStreaming,
        deviceInBuiltinMic ||| deviceInWiredHeadset ||| deviceInBackMic⟩

/-- `pcm_devices`. -/
def pcmDevices : List ProfileId :=
  [.playbackHs, .capture, .playbackSpk, .captureLoopbackAec, .playbackSpkAndHeadset,
    .hotwordStreaming]

/-- `get_pcm_device`. -/
def getPcmDevice (profiles : ProfileId → PcmDeviceProfile) (type : UsecaseType)
    (devices : AudioDevices) : Option ProfileId :=
  let devices := devices &&& ~~~deviceBitIn
  if devices = 0 then none
  else
    pcmDevices.find? fun profile =>
      (profiles profile).type = type && devices &&& (profiles profile).devices = devices

/-! ## Sound devices -/

/-- The playback sound devices. -/
inductive OutSndDevice where
  | handset
  | speaker
  | headphones
  | speakerAndHeadphones
  | voiceHandset
  | voiceSpeaker
  | voiceHeadphones
  | hdmi
  | speakerAndHdmi
  | voiceTtyFullHeadphones
  | voiceTtyVcoHeadphones
  | voiceTtyHcoHandset
  deriving DecidableEq, Repr

/-- The capture sound devices. -/
inductive InSndDevice where
  | handsetMic
  | speakerMic
  | headsetMic
  | handsetMicAec
  | speakerMicAec
  | headsetMicAec
  | voiceSpeakerMic
  | voiceHeadsetMic
  | hdmiMic
  | camcorderMic
  | voiceDmic1
  | voiceSpeakerDmic1
  | voiceTtyFullHeadsetMic
  | voiceTtyVcoHandsetMic
  | voiceTtyHcoHeadsetMic
  | voiceRecHeadsetMic
  | voiceRecMic
  | voiceRecDmic1
  | voiceRecDmicNs1
  | loopbackAec
  deriving DecidableEq, Repr

/-- `snd_device_t` but `SND_DEVICE_NONE`, which is `none` where it can be. -/
inductive SndDevice where
  | out (device : OutSndDevice)
  | inp (device : InSndDevice)
  deriving DecidableEq, Repr

/-- `TTY_MODE_OFF` and the others. -/
inductive TtyMode where
  | off
  | full
  | vco
  | hco
  deriving DecidableEq, Repr

/-- `get_output_snd_device`. -/
def getOutputSndDevice (mode : Nat) (tty : TtyMode) (devices : AudioDevices) :
    Option OutSndDevice :=
  let headphones :=
    anyOf devices deviceOutWiredHeadphone || anyOf devices deviceOutWiredHeadset
  if devices = deviceNone ∨ anyOf devices deviceBitIn then
    none
  else if mode = modeInCall ∧ headphones then
    match tty with
    | .full => some .voiceTtyFullHeadphones
    | .vco => some .voiceTtyVcoHeadphones
    | .hco => some .voiceTtyHcoHandset
    | .off => some .voiceHeadphones
  else if mode = modeInCall ∧ anyOf devices deviceOutSpeaker then
    some .voiceSpeaker
  else if mode = modeInCall ∧ anyOf devices deviceOutEarpiece then
    some .handset
  else if popcount devices = 2 then
    if devices = deviceOutWiredHeadphone ||| deviceOutSpeaker then
      some .speakerAndHeadphones
    else if devices = deviceOutWiredHeadset ||| deviceOutSpeaker then
      some .speakerAndHeadphones
    else
      none
  else if popcount devices ≠ 1 then
    none
  else if headphones then
    some .headphones
  else if anyOf devices deviceOutSpeaker then
    some .speaker
  else if anyOf devices deviceOutEarpiece then
    some .handset
  else
    none

/-- What `get_input_snd_device` reads of the input it takes for the active one. -/
structure InputView where
  source : Nat
  devices : AudioDevices
  mainChannels : ChannelMask
  enableAec : Bool

/-- The settings of the device that it reads. -/
structure InputSettings where
  mode : Nat
  tty : TtyMode
  dualmicConfig1 : Bool
  nsInVoiceRec : Bool

/-- The end of `get_input_snd_device`: the sound device by the input device, or by the
output device if there is none. -/
def defaultInputSndDevice (inDevice outDevice : AudioDevices) : InSndDevice :=
  if inDevice ≠ deviceNone ∧
      ¬ anyOf inDevice deviceInVoiceCall ∧ ¬ anyOf inDevice deviceInCommunication then
    if anyOf inDevice deviceInBuiltinMic then .handsetMic
    else if anyOf inDevice deviceInBackMic then .speakerMic
    else if anyOf inDevice deviceInWiredHeadset then .headsetMic
    else if anyOf inDevice deviceInAuxDigital then .hdmiMic
    else .handsetMic
  else if anyOf outDevice deviceOutEarpiece then .handsetMic
  else if anyOf outDevice deviceOutWiredHeadset then .headsetMic
  else if anyOf outDevice deviceOutSpeaker then .speakerMic
  else .handsetMic

/-- The branch of a voice call, `none` if it decides nothing. -/
def voiceCallInputSndDevice (tty : TtyMode) (outDevice : AudioDevices) :
    Option InSndDevice :=
  let headphones :=
    anyOf outDevice deviceOutWiredHeadphone || anyOf outDevice deviceOutWiredHeadset
  match tty, headphones with
  | .full, true => some .voiceTtyFullHeadsetMic
  | .vco, true => some .voiceTtyVcoHandsetMic
  | .hco, true => some .voiceTtyHcoHeadsetMic
  | _, _ =>
      if anyOf outDevice deviceOutEarpiece || anyOf outDevice deviceOutWiredHeadphone then
        some .handsetMic
      else if anyOf outDevice deviceOutWiredHeadset then some .voiceHeadsetMic
      else if anyOf outDevice deviceOutSpeaker then some .voiceSpeakerMic
      else none

/-- The branch of voice recognition. -/
def voiceRecInputSndDevice (settings : InputSettings) (channelMask : ChannelMask)
    (inDevice : AudioDevices) : Option InSndDevice :=
  if anyOf inDevice deviceInBuiltinMic then
    if settings.dualmicConfig1 ∧ channelMask = channelInFrontBack then some .voiceRecDmic1
    else if settings.dualmicConfig1 ∧ settings.nsInVoiceRec then some .voiceRecDmicNs1
    else some .voiceRecMic
  else if anyOf inDevice deviceInWiredHeadset then
    some .voiceRecHeadsetMic
  else
    none

/-- The branch of voice communication and the microphone, with echo cancellation. -/
def aecInputSndDevice (inDevice outDevice : AudioDevices) : Option InSndDevice :=
  if anyOf inDevice deviceInBackMic then
    some .speakerMicAec
  else if anyOf inDevice deviceInBuiltinMic then
    if anyOf outDevice deviceOutWiredHeadphone then some .speakerMicAec
    else some .handsetMicAec
  else if anyOf inDevice deviceInWiredHeadset then
    some .headsetMicAec
  else
    none

/-- `get_input_snd_device`.  The input device has its `IN` bit masked off, so a test for a
device tests the device's other bit; not so when the back microphone is put in its place
because the output is the speaker. -/
def getInputSndDevice (settings : InputSettings) (active : Option InputView)
    (outDevice : AudioDevices) : Option InSndDevice :=
  let source := (active.map InputView.source).getD sourceDefault
  let inDevice := (active.map InputView.devices).getD deviceNone &&& ~~~deviceBitIn
  let channelMask := (active.map InputView.mainChannels).getD 0x10
  if settings.mode = modeInCall then
    if outDevice = deviceNone then
      none
    else
      some ((voiceCallInputSndDevice settings.tty outDevice).getD
        (defaultInputSndDevice inDevice outDevice))
  else if source = sourceCamcorder then
    if anyOf inDevice deviceInBuiltinMic || anyOf inDevice deviceInBackMic then
      some .camcorderMic
    else
      some (defaultInputSndDevice inDevice outDevice)
  else if source = sourceVoiceRecognition then
    some ((voiceRecInputSndDevice settings channelMask inDevice).getD
      (defaultInputSndDevice inDevice outDevice))
  else if source = sourceVoiceCommunication ∨ source = sourceMic then
    let inDevice := if anyOf outDevice deviceOutSpeaker then deviceInBackMic else inDevice
    if (active.map InputView.enableAec).getD false then
      some ((aecInputSndDevice inDevice outDevice).getD
        (defaultInputSndDevice inDevice outDevice))
    else
      some (defaultInputSndDevice inDevice outDevice)
  else if source = sourceDefault then
    none
  else
    some (defaultInputSndDevice inDevice outDevice)

end DragonDevice.Audio
