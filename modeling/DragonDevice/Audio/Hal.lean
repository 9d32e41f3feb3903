/-
  Audio/Hal.lean --- the state of the audio HAL and the functions that its calls share: the
  list of use cases, the reference counts of the sound devices and routing, from
  `audio_hw.c`.

  Streams are numbered as they are opened; a stream that is closed is gone, and a function
  that would follow a pointer to it has no result.  A PCM handle is what `pcm_open` returns;
  it stays until `pcm_close`, also when the device was not ready.  Mixer paths, DSP contexts
  and the samples themselves are left out.
-/
import DragonDevice.Lib.RefCount
import DragonDevice.Audio.Devices

set_option autoImplicit false

namespace DragonDevice.Audio

open DragonDevice.Lib

def einval : Int := 22
def eio : Int := 5
def eexist : Int := 17
def enosys : Int := 38

/-! ## State -/

/-- `audio_usecase_t`. -/
inductive UsecaseId where
  | audioPlayback
  | audioPlaybackDeepBuffer
  | audioCapture
  | audioCaptureHotword
  | voiceCall
  deriving DecidableEq, Repr

/-- A pointer to a stream. -/
inductive StreamRef where
  | out (id : Nat)
  | inp (id : Nat)
  deriving DecidableEq, Repr

/-- `pcm_device`, with the configuration its PCM was opened with. -/
structure PcmDevice where
  profile : ProfileId
  pcm : Option Nat
  openedWith : Option PcmConfig
  soundTriggerHandle : Int
  resampler : Bool
  deriving DecidableEq, Repr

/-- A `pcm_device` as it is allocated. -/
def newPcmDevice (profile : ProfileId) : PcmDevice := ⟨profile, none, none, 0, false⟩

/-- `stream_out`. -/
structure StreamOut where
  devices : AudioDevices
  usecase : UsecaseId
  sampleRate : Nat
  standby : Bool
  pcmDevList : List PcmDevice
  deriving DecidableEq, Repr

/-- `stream_in`.  An effect is its handle; the buffers are left to the reading of frames. -/
structure StreamIn where
  devices : AudioDevices
  source : Nat
  usecase : UsecaseId
  usecaseType : UsecaseType
  inputFlags : BitVec 32
  mainChannels : ChannelMask
  requestedRate : Nat
  config : PcmConfig
  standby : Bool
  pcmDevList : List PcmDevice
  resampler : Bool
  preprocessors : List Nat
  auxChannelsChanged : Bool
  auxChannels : ChannelMask
  deriving DecidableEq, Repr

/-- `audio_usecase`. -/
structure AudioUsecase where
  id : UsecaseId
  type : UsecaseType
  devices : AudioDevices
  outSndDevice : Option OutSndDevice
  inSndDevice : Option InSndDevice
  stream : StreamRef
  deriving DecidableEq, Repr

/-- What `pcm_open` returned, for the stream it was called for. -/
structure PcmHandle where
  id : Nat
  owner : StreamRef
  ready : Bool
  deriving DecidableEq, Repr

/-- `audio_device`, with the profiles, the open streams and the PCM handles. -/
structure AudioDevice where
  profiles : ProfileId → PcmDeviceProfile
  mode : Nat
  tty : TtyMode
  micMute : Bool
  inCall : Bool
  soundTrigger : Bool
  activeInput : Option Nat
  primaryOutput : Option Nat
  usecaseList : List AudioUsecase
  sndDevRefCnt : SndDevice → Nat
  outs : Nat → Option StreamOut
  ins : Nat → Option StreamIn
  nextStream : Nat
  handles : List PcmHandle

/-- The device as `adev_open` leaves it.  The library of the sound trigger may be there or
not. -/
def adevOpen (soundTrigger : Bool) : AudioDevice where
  profiles := loadedProfiles
  mode := modeNormal
  tty := .off
  micMute := false
  inCall := false
  soundTrigger := soundTrigger
  activeInput := none
  primaryOutput := none
  usecaseList := []
  sndDevRefCnt := fun _ => 0
  outs := fun _ => none
  ins := fun _ => none
  nextStream := 0
  handles := []

namespace AudioDevice

def setOut (adev : AudioDevice) (id : Nat) (out : StreamOut) : AudioDevice :=
  { adev with outs := Function.update adev.outs id (some out) }

def setIn (adev : AudioDevice) (id : Nat) (inp : StreamIn) : AudioDevice :=
  { adev with ins := Function.update adev.ins id (some inp) }

/-- `get_usecase_from_id`. -/
def getUsecaseFromId (adev : AudioDevice) (id : UsecaseId) : Option AudioUsecase :=
  adev.usecaseList.find? fun uc => uc.id = id

/-- `get_usecase_from_type` for `PCM_CAPTURE|VOICE_CALL`, the only one asked for. -/
def getCaptureOrCall (adev : AudioDevice) : Option AudioUsecase :=
  adev.usecaseList.find? fun uc => uc.type = .pcmCapture || uc.type = .voiceCall

end AudioDevice

/-- A change of the first use case with an id. -/
def modifyUsecase (id : UsecaseId) (f : AudioUsecase → AudioUsecase) :
    List AudioUsecase → List AudioUsecase
  | [] => []
  | uc :: rest => if uc.id = id then f uc :: rest else uc :: modifyUsecase id f rest

/-- `list_remove` of the first use case with an id. -/
def removeUsecase (id : UsecaseId) (l : List AudioUsecase) : List AudioUsecase :=
  l.eraseP fun uc => uc.id = id

/-! ## Sound devices -/

/-- `enable_snd_device`; nothing for `SND_DEVICE_NONE`. -/
def enableSndDevice (adev : AudioDevice) (device : Option SndDevice) : AudioDevice :=
  { adev with sndDevRefCnt := acquire adev.sndDevRefCnt device }

/-- `disable_snd_device`; nothing for `SND_DEVICE_NONE` or a count of zero. -/
def disableSndDevice (adev : AudioDevice) (device : Option SndDevice) : AudioDevice :=
  { adev with sndDevRefCnt := release adev.sndDevRefCnt device }

/-- The end of `select_devices`: the use case changes over to the sound devices. -/
def switchSndDevices (adev : AudioDevice) (uc : AudioUsecase) (out : Option OutSndDevice)
    (inp : Option InSndDevice) : AudioDevice :=
  if out = uc.outSndDevice ∧ inp = uc.inSndDevice then
    adev
  else
    let adev := disableSndDevice adev (uc.outSndDevice.map .out)
    let adev := disableSndDevice adev (uc.inSndDevice.map .inp)
    let adev := enableSndDevice adev (out.map .out)
    let adev := enableSndDevice adev (inp.map .inp)
    { adev with
      usecaseList := modifyUsecase uc.id
        (fun uc => { uc with inSndDevice := inp, outSndDevice := out }) adev.usecaseList }

/-- How the memory of an output reads through a pointer to an input: what the choice of a
microphone sees, and the use case.  It happens for the stream of the voice call. -/
abbrev AsInput : Type := StreamOut → InputView × UsecaseId

/-- The view through a pointer to an input, `none` if it dangles.  Echo cancellation is never
enabled by flag with preprocessing built in. -/
def viewInput (asInput : AsInput) (adev : AudioDevice) :
    StreamRef → Option (InputView × UsecaseId)
  | .inp id =>
      (adev.ins id).map fun i => (⟨i.source, i.devices, i.mainChannels, false⟩, i.usecase)
  | .out id => (adev.outs id).map asInput

/-- `get_input_snd_device`, with the input it takes for the active one. -/
def chooseInputSndDevice (asInput : AsInput) (adev : AudioDevice) (outDevice : AudioDevices) :
    Option (Option InSndDevice) :=
  let settings : InputSettings := ⟨adev.mode, adev.tty, false, false⟩
  match adev.getCaptureOrCall with
  | none => some (getInputSndDevice settings none outDevice)
  | some uc =>
      (viewInput asInput adev uc.stream).map fun view =>
        getInputSndDevice settings (some view.1) outDevice

def setUsecaseDevices (adev : AudioDevice) (id : UsecaseId) (devices : AudioDevices) :
    AudioDevice :=
  { adev with
    usecaseList :=
      modifyUsecase id (fun uc => { uc with devices := devices }) adev.usecaseList }

/-- The devices of an output, through a pointer. -/
def outDevices (adev : AudioDevice) : StreamRef → Option AudioDevices
  | .out id => (adev.outs id).map StreamOut.devices
  | .inp _ => none

/-- The devices of an input, through a pointer. -/
def inDevices (adev : AudioDevice) : StreamRef → Option AudioDevices
  | .inp id => (adev.ins id).map StreamIn.devices
  | .out _ => none

/-- The sound devices of the voice call, which the other use cases follow.  Without a call
there are none; with a call that has no use case the code follows a null pointer. -/
def callSndDevices (adev : AudioDevice) : Option (Option OutSndDevice × Option InSndDevice) :=
  if adev.inCall then
    (adev.getUsecaseFromId .voiceCall).map fun vc => (vc.outSndDevice, vc.inSndDevice)
  else
    some (none, none)

/-- The use case of the input that is selected again because the primary output starts:
`some none` if there is none. -/
def followingInput (asInput : AsInput) (adev : AudioDevice) (stream : StreamRef) :
    Option (Option UsecaseId) :=
  if adev.primaryOutput.map StreamRef.out = some stream then
    match adev.getCaptureOrCall with
    | none => some none
    | some uc =>
        (viewInput asInput adev uc.stream).map fun view =>
          if view.1.source = sourceVoiceCommunication then some view.2 else none
  else
    some none

/-- The microphone of a capture use case without a call: with voice communication the
devices of a primary output that plays count. -/
def captureSndDevice (asInput : AsInput) (adev : AudioDevice) : Option (Option InSndDevice) := do
  let uc ← adev.getCaptureOrCall
  let view ← viewInput asInput adev uc.stream
  match adev.primaryOutput with
  | none => chooseInputSndDevice asInput adev deviceNone
  | some id =>
      if view.1.source = sourceVoiceCommunication then do
        let out ← adev.outs id
        chooseInputSndDevice asInput adev (if out.standby then deviceNone else out.devices)
      else
        chooseInputSndDevice asInput adev deviceNone

/-- `select_devices`, with a bound on the depth of its recursion.  `none` when the depth is
not enough or a pointer dangles. -/
def selectDevices (asInput : AsInput) : Nat → AudioDevice → UsecaseId → Option AudioDevice
  | 0, _, _ => none
  | depth + 1, adev, ucId =>
      if ucId = .audioCaptureHotword then
        some adev
      else
        match adev.getUsecaseFromId ucId with
        | none => some adev
        | some uc =>
            match uc.type with
            | .voiceCall => do
                let devices ← outDevices adev uc.stream
                let out := getOutputSndDevice adev.mode adev.tty devices
                let inp ← chooseInputSndDevice asInput adev devices
                some (switchSndDevices (setUsecaseDevices adev ucId devices) uc out inp)
            | .pcmPlayback => do
                let call ← callSndDevices adev
                let devices ← outDevices adev uc.stream
                let adev := setUsecaseDevices adev ucId devices
                match call.1 with
                | some out => some (switchSndDevices adev uc (some out) none)
                | none =>
                    let out := getOutputSndDevice adev.mode adev.tty devices
                    match ← followingInput asInput adev uc.stream with
                    | none => some (switchSndDevices adev uc out none)
                    | some following => do
                        let adev ← selectDevices asInput depth adev following
                        let uc ← adev.getUsecaseFromId ucId
                        some (switchSndDevices adev uc out none)
            | .pcmCapture => do
                let call ← callSndDevices adev
                let devices ← inDevices adev uc.stream
                let adev := setUsecaseDevices adev ucId devices
                match call.2 with
                | some inp => some (switchSndDevices adev uc none (some inp))
                | none => do
                    let inp ← captureSndDevice asInput adev
                    some (switchSndDevices adev uc none inp)
            | .pcmHotwordStreaming => do
                let call ← callSndDevices adev
                some (switchSndDevices adev uc call.1 call.2)

end DragonDevice.Audio
