/-
  SoundTrigger/Device.lean --- the sound trigger HAL of `sound_trigger_hw.c` as a system of
  its locked sections.

  Any number of callers make the calls of the HAL; in `stop` and `unload` one gives up the
  lock and waits for the recognition thread, and the others go on in the meantime.  Which
  thread it waits for it reads without the lock.  The thread takes the lock when it
  starts, after every `poll`, and after it has delivered its event.  The audio HAL may
  close the PCM at any time, without the lock.  Every event carries the outcomes of the
  PCM, mixer, socket and poll calls that its section makes.
-/
import Mathlib.Logic.Function.Basic
import DragonDevice.Lib.Transition

set_option autoImplicit false

namespace DragonDevice.SoundTrigger

open DragonDevice.Lib

def einval : Int := 22
def enosys : Int := 38
def enomem : Int := 12

/-! ## State -/

/-- What `stdev->pcm` is: `NULL`, a handle of a device that could not be opened, or an
open device. -/
inductive Pcm where
  | null
  | notReady
  | opened
  deriving DecidableEq, Repr

/-- Where a recognition thread is: created, in `poll`, in the callback, or gone. -/
inductive Phase where
  | created
  | polling
  | delivering
  | ended
  deriving DecidableEq, Repr

/-- Where a caller is: between calls, in `unload` or `stop` without the lock, there waiting for
a thread, or in `stop` after it has closed the PCM. -/
inductive Caller where
  | idle
  | unloadUnlocked
  | unloadJoin (id : Nat)
  | stopUnlocked
  | stopJoin (id : Nat)
  | stopClosed
  deriving DecidableEq, Repr

/-- `dragon_sound_trigger_device`, with the DSP's power, the threads and the callers.
`returned` is the result of the call that the last event completed, and `stopped` says
that `stop` or `unload` has returned 0 after the last successful `start`. -/
structure Device where
  modelHandle : Int
  recognitionCallback : Bool
  config : Option Bool
  pcm : Pcm
  isStreaming : Bool
  sockets : Bool
  power : Bool
  phase : Nat → Phase
  threads : Nat
  callbackThread : Nat
  callers : Nat → Caller
  returned : Option Int
  stopped : Bool

/-- The device after it has been opened. -/
def opened : Device where
  modelHandle := 0
  recognitionCallback := false
  config := none
  pcm := .null
  isStreaming := false
  sockets := false
  power := false
  phase := fun _ => .ended
  threads := 0
  callbackThread := 0
  callers := fun _ => .idle
  returned := none
  stopped := false

/-- `stdev_dsp_set_power`, with the outcome of the mixer write, which nobody looks at. -/
def stdevDspSetPower (d : Device) (val mixer : Bool) : Device :=
  { d with isStreaming := false, power := if mixer then val else d.power }

def setPhase (d : Device) (id : Nat) (phase : Phase) : Device :=
  { d with phase := Function.update d.phase id phase }

/-- `pcm_close` and the handle set to `NULL`, if there is one. -/
def closePcm (d : Device) : Device := { d with pcm := .null }

/-! ## Calls -/

/-- The caller goes on to another place. -/
def setCaller (d : Device) (caller : Nat) (place : Caller) : Device :=
  { d with callers := Function.update d.callers caller place, returned := none }

/-- The call is over. -/
def returns (d : Device) (caller : Nat) (result : Int) : Device :=
  { setCaller d caller .idle with returned := some result }

/-- `stdev_load_sound_model`.  `loaded` is the result of the write of the model. -/
def loadSoundModel (d : Device) (caller : Nat) (arguments : Bool) (loaded : Int) : Device :=
  if arguments = false then
    returns d caller (-einval)
  else if d.modelHandle = 1 then
    returns d caller (-enosys)
  else if loaded ≠ 0 then
    returns d caller loaded
  else
    returns { d with modelHandle := 1 } caller 0

/-- The label `exit` of `unload` and `stop`. -/
def powerOffExit (d : Device) (caller : Nat) (status : Int) (mixer : Bool) : Device :=
  returns (stdevDspSetPower d false mixer) caller status

/-- `stdev_unload_sound_model`, up to the wait if there is one. -/
def unloadSoundModel (d : Device) (caller : Nat) (handle : Int) (mixer : Bool) : Device :=
  if handle ≠ 1 then
    powerOffExit d caller (-einval) mixer
  else if d.modelHandle = 0 then
    powerOffExit d caller (-enosys) mixer
  else if d.recognitionCallback then
    setCaller { d with modelHandle := 0, config := none, recognitionCallback := false } caller
      .unloadUnlocked
  else
    { powerOffExit { d with modelHandle := 0, config := none } caller 0 mixer with
      stopped := true }

/-- `stdev_start_recognition`.  `config` is what the caller passes, `alloc` the outcome of
`malloc`. -/
def startRecognition (d : Device) (caller : Nat) (handle : Int) (config : Option Bool)
    (callback alloc mixer : Bool) : Device :=
  if d.modelHandle ≠ handle then
    returns d caller (-enosys)
  else if d.recognitionCallback then
    returns d caller (-enosys)
  else if config.isSome ∧ alloc = false then
    returns { d with config := none } caller (-enomem)
  else
    let d := stdevDspSetPower (closePcm { d with config := config }) false mixer
    { returns (setPhase d d.threads .created) caller 0 with
      recognitionCallback := callback
      callbackThread := d.threads
      threads := d.threads + 1
      stopped := false }

/-- `stdev_stop_recognition`, up to the wait. -/
def stopRecognition (d : Device) (caller : Nat) (handle : Int) (mixer : Bool) : Device :=
  if d.modelHandle ≠ handle then
    powerOffExit d caller (-enosys) mixer
  else if d.recognitionCallback = false then
    powerOffExit d caller (-enosys) mixer
  else
    setCaller { d with config := none, recognitionCallback := false } caller .stopUnlocked

/-- `stdev->callback_thread` is read for `pthread_join`, without the lock. -/
def readThread (d : Device) (caller : Nat) : Option Device :=
  match d.callers caller with
  | .unloadUnlocked => some (setCaller d caller (.unloadJoin d.callbackThread))
  | .stopUnlocked => some (setCaller d caller (.stopJoin d.callbackThread))
  | _ => none

/-- `pthread_join` comes back when the thread has ended: `unload` takes the lock again and
finishes, and `stop` closes the PCM first. -/
def threadJoined (d : Device) (caller : Nat) (mixer : Bool) : Option Device :=
  match d.callers caller with
  | .unloadJoin id =>
      if d.phase id = .ended then some { powerOffExit d caller 0 mixer with stopped := true }
      else none
  | .stopJoin id =>
      if d.phase id = .ended then some (setCaller (closePcm d) caller .stopClosed) else none
  | _ => none

/-- `stop` has taken the lock again. -/
def stopFinish (d : Device) (caller : Nat) (mixer : Bool) : Device :=
  { powerOffExit d caller 0 mixer with stopped := true }

/-- `sound_trigger_close_for_streaming`, a call of the audio HAL. -/
def closeForStreaming (d : Device) (handle : Int) : Device :=
  if handle ≤ 0 then
    { d with returned := some (-einval) }
  else
    { closePcm d with returned := some 0 }

/-! ## The recognition thread -/

/-- The label `exit` of `callback_thread_loop`. -/
def threadExit (d : Device) (id : Nat) (mixer : Bool) : Device :=
  let d := { d with recognitionCallback := false, sockets := false, returned := none }
  let d := if d.config = some false then stdevDspSetPower d false mixer else d
  setPhase d id .ended

/-- Outcomes of the first section of the thread: the socket pair, the mixer write that
turns the DSP on, `pcm_open` with `pcm_is_ready`, `pcm_start`, the descriptor for `poll`,
and the mixer write of the exit. -/
structure Startup where
  socketPair : Bool
  mixer : Bool
  pcm : Pcm
  pcmStart : Bool
  pollFd : Bool
  exitMixer : Bool
  deriving DecidableEq, Repr

/-- `callback_thread_loop` before its loop. -/
def threadStart (d : Device) (id : Nat) (o : Startup) : Device :=
  if d.recognitionCallback = false ∨ o.socketPair = false then
    threadExit d id o.exitMixer
  else
    let d := { stdevDspSetPower { d with sockets := true } true o.mixer with pcm := o.pcm }
    if o.pcm ≠ .opened ∨ o.pcmStart = false ∨ o.pollFd = false then
      threadExit d id o.exitMixer
    else
      { setPhase d id .polling with returned := none }

/-- Outcomes of a turn of the loop: whether `poll` failed, what has input, and the
allocation of the event. -/
structure Wakeup where
  pollFailed : Bool
  pcmInput : Bool
  termInput : Bool
  alloc : Bool
  exitMixer : Bool
  deriving DecidableEq, Repr

/-- A turn of the loop of `callback_thread_loop`, up to the callback if there is one. -/
def threadWake (d : Device) (id : Nat) (o : Wakeup) : Device :=
  if o.pollFailed ∨ d.recognitionCallback = false then
    threadExit (closePcm d) id o.exitMixer
  else if o.pcmInput then
    if o.alloc = false then
      threadExit (closePcm d) id o.exitMixer
    else
      setPhase { d with isStreaming := true, returned := none } id .delivering
  else if o.termInput then
    threadExit (closePcm d) id o.exitMixer
  else
    { d with returned := none }

/-! ## The system -/

inductive Event where
  | load (caller : Nat) (arguments : Bool) (loaded : Int)
  | unload (caller : Nat) (handle : Int) (mixer : Bool)
  | start (caller : Nat) (handle : Int) (config : Option Bool) (callback alloc mixer : Bool)
  | stop (caller : Nat) (handle : Int) (mixer : Bool)
  | readThread (caller : Nat)
  | threadJoined (caller : Nat) (mixer : Bool)
  | stopFinish (caller : Nat) (mixer : Bool)
  | closeForStreaming (handle : Int)
  | threadStart (id : Nat) (outcomes : Startup)
  | threadWake (id : Nat) (outcomes : Wakeup)
  | threadDelivered (id : Nat) (mixer : Bool)
  deriving DecidableEq, Repr

/-- The result of `e` if its party is there. -/
def next (d : Device) : Event → Option Device
  | .load caller arguments loaded =>
      if d.callers caller = .idle then some (loadSoundModel d caller arguments loaded) else none
  | .unload caller handle mixer =>
      if d.callers caller = .idle then some (unloadSoundModel d caller handle mixer) else none
  | .start caller handle config callback alloc mixer =>
      if d.callers caller = .idle then
        some (startRecognition d caller handle config callback alloc mixer)
      else none
  | .stop caller handle mixer =>
      if d.callers caller = .idle then some (stopRecognition d caller handle mixer) else none
  | .readThread caller => readThread d caller
  | .threadJoined caller mixer => threadJoined d caller mixer
  | .stopFinish caller mixer =>
      if d.callers caller = .stopClosed then some (stopFinish d caller mixer) else none
  | .closeForStreaming handle => some (closeForStreaming d handle)
  | .threadStart id o => if d.phase id = .created then some (threadStart d id o) else none
  | .threadWake id o => if d.phase id = .polling then some (threadWake d id o) else none
  | .threadDelivered id mixer =>
      if d.phase id = .delivering then some (threadExit d id mixer) else none

def system : System Device Event := ⟨fun d => d = opened, next⟩

/-! ## The contract -/

/-- The recognition thread is in `poll` and the callback is set. -/
def Device.Active (d : Device) : Prop :=
  d.phase d.callbackThread = .polling ∧ d.recognitionCallback = true

/-- A call that returns an error leaves an active recognition as it is. -/
def ErrorsHarmless (ok : Device → Event → Prop) (d : Device) : Prop :=
  ∀ e d' r, ok d e → next d e = some d' → d'.returned = some r → r ≠ 0 → d.Active →
    d'.power = true ∧ d'.recognitionCallback = true ∧ d'.pcm = .opened

/-- After `stop` or `unload` has returned 0, and until a `start` does, nothing is left of
the recognition. -/
def StoppedClean (d : Device) : Prop :=
  d.stopped = true → (∀ id, d.phase id = .ended) ∧ d.recognitionCallback = false ∧
    d.power = false ∧ d.pcm ≠ .opened

end DragonDevice.SoundTrigger
