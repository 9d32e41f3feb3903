/-
  Audio/Locking.lean --- the calls of the audio HAL as threads run them: where they lock and
  unlock, and what they do in between, from `audio_hw.c`.

  What is done under the locks are the functions of the calls that run one after another.
  A call that would follow a pointer to a stream that is gone crashes.  The lock of a DSP
  context's pipeline, a leaf that nothing is taken under, is left out: `cras_dsp_get_pipeline`
  and `cras_dsp_put_pipeline` take no mutex here.  Nobody takes `dummybuf_thread_lock`.
-/
import DragonDevice.Lib.LockOrder
import DragonDevice.Audio.Calls

set_option autoImplicit false

namespace DragonDevice.Audio

open DragonDevice.Lib

/-- The mutexes: two of each stream, two of the device. -/
inductive Mutex where
  | lockInputs
  | inPreLock (id : Nat)
  | inLock (id : Nat)
  | outPreLock (id : Nat)
  | outLock (id : Nat)
  | adevLock
  deriving DecidableEq, Repr

/-- Code of the HAL. -/
abbrev HalCode : Type := ThreadCode Mutex AudioDevice Int

namespace Locked

/-! ## Pieces -/

def crash : HalCode := .act (fun _ => none) fun _ => .ret

/-- A function whose result nobody looks at. -/
def doing (f : AudioDevice → Option AudioDevice) (rest : HalCode) : HalCode :=
  .act (fun adev => (f adev).map fun adev' => (0, adev')) fun _ => rest

/-- The output as it is now. -/
def withOut (id : Nat) (rest : StreamOut → HalCode) : HalCode :=
  .read fun adev =>
    match adev.outs id with
    | none => crash
    | some out => rest out

/-- The input as it is now. -/
def withIn (id : Nat) (rest : StreamIn → HalCode) : HalCode :=
  .read fun adev =>
    match adev.ins id with
    | none => crash
    | some inp => rest inp

/-- `lock_output_stream`. -/
def lockOutputStream (id : Nat) (rest : HalCode) : HalCode :=
  .lock (.outPreLock id) (.lock (.outLock id) (.unlock (.outPreLock id) rest))

/-- `lock_input_stream`. -/
def lockInputStream (id : Nat) (rest : HalCode) : HalCode :=
  .lock (.inPreLock id) (.lock (.inLock id) (.unlock (.inPreLock id) rest))

/-- Something done under the lock of the device. -/
def underAdevLock (f : AudioDevice → Option AudioDevice) (rest : HalCode) : HalCode :=
  .lock .adevLock (doing f (.unlock .adevLock rest))

/-! ## Output calls -/

/-- `out_standby`. -/
def outStandby (id : Nat) (rest : HalCode) : HalCode :=
  lockOutputStream id (withOut id fun out =>
    if out.standby then .unlock (.outLock id) rest
    else underAdevLock (doOutStandby · id) (.unlock (.outLock id) rest))

/-- The standby of the input that an output call took note of: the fatal check, and what
follows. -/
def forceInputStandby (id : Nat) (rest : HalCode) : HalCode :=
  lockInputStream id
    (.lock .adevLock
      (.check (fun adev => adev.activeInput = some id)
        (doing (doInStandby · id) (.unlock .adevLock (.unlock (.inLock id) rest)))))

/-- The end of `out_write`: `lock_inputs` was left locked if there is an input to reset. -/
def resetNoted : Option Nat → HalCode
  | none => .ret
  | some id => forceInputStandby id (.unlock .lockInputs .ret)

/-- `out_write` from `exit` on. -/
def writeExit (id : Nat) (ret : Int) (reset : Option Nat) : HalCode :=
  .unlock (.outLock id)
    (if ret ≠ 0 then outStandby id (resetNoted reset) else resetNoted reset)

/-- `out_write` from `false_alarm` on. -/
def writeDevices (status : ProfileId → Int) (id : Nat) (reset : Option Nat) : HalCode :=
  withOut id fun out => writeExit id (writeStatus status out.pcmDevList) reset

/-- The input that a change of the output has to reset is noted. -/
def noteInput (note : AudioDevice → Option (Option Nat)) (rest : Option Nat → HalCode) :
    HalCode :=
  .read fun adev =>
    match note adev with
    | none => crash
    | some reset => rest reset

/-- `out->standby = false`. -/
def leaveOutStandby (id : Nat) (adev : AudioDevice) : Option AudioDevice :=
  (adev.outs id).map fun out => adev.setOut id { out with standby := false }

/-- `out_write` once the output was started: `lock_inputs` stays locked if there is an input
to reset. -/
def writeStartedOutput (status : ProfileId → Int) (id : Nat) : HalCode :=
  doing (leaveOutStandby id)
    (noteInput inputToReset fun reset =>
      .unlock .adevLock
        (match reset with
        | none => .unlock .lockInputs (writeDevices status id none)
        | some inp => writeDevices status id (some inp)))

/-- `out_write`. -/
def outWrite (asInput : AsInput) (depth : Nat) (answers : StartAnswers)
    (status : ProfileId → Int) (id : Nat) : HalCode :=
  lockOutputStream id (withOut id fun out =>
    if out.standby then
      .unlock (.outLock id) (.lock .lockInputs (lockOutputStream id (withOut id fun out =>
        if out.standby then
          .lock .adevLock
            (.act (startOutputStream asInput depth answers · id) fun ret =>
              if ret ≠ 0 then
                .unlock .adevLock (.unlock .lockInputs (writeExit id ret none))
              else
                writeStartedOutput status id)
        else
          .unlock .lockInputs (writeDevices status id none))))
    else
      writeDevices status id none)

/-- The input to reset because of a routing value. -/
def noteForRouting (id : Nat) (value : AudioDevices) (adev : AudioDevice) :
    Option (Option Nat) :=
  (adev.outs id).bind fun out => routingReset adev out value

/-- `out_set_parameters`; without a routing value it takes no lock. -/
def outSetParameters (asInput : AsInput) (depth : Nat) (id : Nat) :
    Option AudioDevices → HalCode
  | none => .ret
  | some value =>
      .lock .lockInputs (lockOutputStream id (.lock .adevLock
        (noteInput (noteForRouting id value) fun reset =>
          doing (applyRouting asInput depth · id value)
            (doing (endCall · id)
              (.unlock .adevLock (.unlock (.outLock id)
                (match reset with
                | none => .unlock .lockInputs .ret
                | some inp => forceInputStandby inp (.unlock .lockInputs .ret))))))))

/-- `out_get_presentation_position`, as far as it locks. -/
def outGetPresentationPosition (id : Nat) : HalCode :=
  lockOutputStream id (.unlock (.outLock id) .ret)

/-- `adev_close_output_stream`. -/
def adevCloseOutputStream (id : Nat) : HalCode :=
  outStandby id
    (doing (fun adev => some { adev with outs := Function.update adev.outs id none }) .ret)

/-! ## Input calls -/

/-- `in_standby_l`. -/
def inStandbyL (id : Nat) (rest : HalCode) : HalCode :=
  lockInputStream id (withIn id fun inp =>
    if inp.standby then .unlock (.inLock id) rest
    else underAdevLock (doInStandby · id) (.unlock (.inLock id) rest))

/-- `in_standby`. -/
def inStandby (id : Nat) : HalCode :=
  .lock .lockInputs (inStandbyL id (.unlock .lockInputs .ret))

/-- `in_read` from `exit` on. -/
def readExit (id : Nat) (successful : Bool) : HalCode :=
  .unlock (.inLock id) (if successful then .ret else inStandby id)

/-- `in_read` from `false_alarm` on. -/
def readFrames (successful : Bool) (id : Nat) : HalCode :=
  withIn id fun inp => readExit id (!inp.pcmDevList.isEmpty && successful)

/-- `in->standby = 0`. -/
def leaveInStandby (id : Nat) (adev : AudioDevice) : Option AudioDevice :=
  (adev.ins id).map fun inp => adev.setIn id { inp with standby := false }

/-- `in_read`. -/
def inRead (asInput : AsInput) (depth : Nat) (answers : StartAnswers) (successful : Bool)
    (id : Nat) : HalCode :=
  lockInputStream id (withIn id fun inp =>
    if inp.standby then
      .unlock (.inLock id) (.lock .lockInputs (lockInputStream id (withIn id fun inp =>
        if inp.standby then
          .lock .adevLock
            (.act (startInputStream asInput depth answers · id) fun ret =>
              .unlock .adevLock (.unlock .lockInputs
                (if ret ≠ 0 then readExit id false
                else doing (leaveInStandby id) (readFrames successful id))))
        else
          .unlock .lockInputs (readFrames successful id))))
    else
      readFrames successful id)

/-- A call that works on an input under all its locks. -/
def underInputLocks (id : Nat) (f : AudioDevice → Option AudioDevice) : HalCode :=
  .lock .lockInputs (lockInputStream id
    (underAdevLock f (.unlock (.inLock id) (.unlock .lockInputs .ret))))

/-- `adev_close_input_stream`. -/
def adevCloseInputStream (id : Nat) : HalCode :=
  .lock .lockInputs (inStandbyL id
    (doing (fun adev => some { adev with ins := Function.update adev.ins id none })
      (.unlock .lockInputs .ret)))

/-! ## Device calls -/

/-- What `adev_set_parameters` finds for the mode for teletypes. -/
inductive TtyParameter where
  | absent
  | unknown
  | given (tty : TtyMode)
  deriving DecidableEq, Repr

/-- The rotation is set under the lock of the device; it only reaches the mixer. -/
def setRotation (given : Bool) : HalCode :=
  if given then underAdevLock some .ret else .ret

/-- `adev_set_parameters`. -/
def adevSetParameters (asInput : AsInput) (depth : Nat) (rotation : Bool) :
    TtyParameter → HalCode
  | .absent => setRotation rotation
  | .unknown => .ret
  | .given tty => underAdevLock (adevSetTty asInput depth · tty) (setRotation rotation)

end Locked

/-- A call that a thread makes, with what the libraries answer while it runs. -/
inductive Request where
  | outWrite (id : Nat) (answers : StartAnswers) (status : ProfileId → Int)
  | outStandby (id : Nat)
  | outSetParameters (id : Nat) (routing : Option AudioDevices)
  | outGetPresentationPosition (id : Nat)
  | closeOutputStream (id : Nat)
  | inRead (id : Nat) (answers : StartAnswers) (successful : Bool)
  | inStandby (id : Nat)
  | inSetParameters (id : Nat) (source : Option Nat) (routing : Option AudioDevices)
  | inAddAudioEffect (id effect : Nat) (described : Bool) (answers : Nat → EffectAnswers)
  | inRemoveAudioEffect (id effect : Nat) (described : Bool)
  | closeInputStream (id : Nat)
  | setParameters (tty : Locked.TtyParameter) (rotation : Bool)
  | setMode (mode : Nat)
  | setMicMute (state : Bool)
  | setVoiceVolume

/-- The code of a call.  An effect without a descriptor is refused before any lock; the voice
volume is no part of the state. -/
def Request.code (asInput : AsInput) (depth : Nat) : Request → HalCode
  | .outWrite id answers status => Locked.outWrite asInput depth answers status id
  | .outStandby id => Locked.outStandby id .ret
  | .outSetParameters id routing => Locked.outSetParameters asInput depth id routing
  | .outGetPresentationPosition id => Locked.outGetPresentationPosition id
  | .closeOutputStream id => Locked.adevCloseOutputStream id
  | .inRead id answers successful => Locked.inRead asInput depth answers successful id
  | .inStandby id => Locked.inStandby id
  | .inSetParameters id source routing =>
      Locked.underInputLocks id (Audio.inSetParameters asInput depth · id source routing)
  | .inAddAudioEffect id effect described answers =>
      if described then
        Locked.underInputLocks id fun adev =>
          (Audio.inAddAudioEffect answers adev id effect).map Prod.snd
      else .ret
  | .inRemoveAudioEffect id effect described =>
      if described then
        Locked.underInputLocks id fun adev =>
          (Audio.inRemoveAudioEffect adev id effect).map Prod.snd
      else .ret
  | .closeInputStream id => Locked.adevCloseInputStream id
  | .setParameters tty rotation => Locked.adevSetParameters asInput depth rotation tty
  | .setMode mode => Locked.underAdevLock (fun adev => some { adev with mode := mode }) .ret
  | .setMicMute state =>
      Locked.underAdevLock (fun adev => some { adev with micMute := state }) .ret
  | .setVoiceVolume => Locked.underAdevLock some .ret

/-- The call as one of those that run one after another, if it changes the state at all. -/
def Request.call : Request → Option Call
  | .outWrite id answers status => some (.outWrite id answers status)
  | .outStandby id => some (.outStandby id)
  | .outSetParameters id routing => routing.map (.outSetRouting id)
  | .outGetPresentationPosition _ => none
  | .closeOutputStream id => some (.closeOutputStream id)
  | .inRead id answers successful => some (.inRead id answers successful)
  | .inStandby id => some (.inStandby id)
  | .inSetParameters id source routing => some (.inSetParameters id source routing)
  | .inAddAudioEffect id effect described answers =>
      if described then some (.inAddAudioEffect id effect answers) else none
  | .inRemoveAudioEffect id effect described =>
      if described then some (.inRemoveAudioEffect id effect) else none
  | .closeInputStream id => some (.closeInputStream id)
  | .setParameters (.given tty) _ => some (.setTty tty)
  | .setParameters _ _ => none
  | .setMode mode => some (.setMode mode)
  | .setMicMute state => some (.setMicMute state)
  | .setVoiceVolume => none

/-- The HAL with its threads, from any state in which no mutex is held. -/
def halThreads (τ : Type) [DecidableEq τ] (asInput : AsInput) (depth : Nat) :
    System (Threads τ Mutex AudioDevice Int) (ThreadEvent τ Request) :=
  threadSystem τ (Request.code asInput depth)

end DragonDevice.Audio
