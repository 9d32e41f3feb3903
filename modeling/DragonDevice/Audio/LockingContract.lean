/-
  Audio/LockingContract.lean --- the threads of the audio HAL never wait in a cycle, release
  what they take, and the active input stays while `lock_inputs` is held.

  The mutexes are ranked as they are nested: `lock_inputs`, an input, an output, the device,
  where the lock in front of a stream comes before the stream's own.  `lock_inputs` guards
  the active input, which is how an output call knows it across the unlocked window before
  its fatal check.
-/
import DragonDevice.Audio.BookkeepingContract
import DragonDevice.Audio.Frames
import DragonDevice.Audio.Locking

set_option autoImplicit false

namespace DragonDevice.Audio

open DragonDevice.Lib

/-! ## The calls follow the protocol -/

/-- The rank of a mutex. -/
def Mutex.rank : Mutex → Nat
  | .lockInputs => 0
  | .inPreLock _ => 1
  | .inLock _ => 2
  | .outPreLock _ => 3
  | .outLock _ => 4
  | .adevLock => 5

/-- The order of the mutexes; `lock_inputs` guards the active input. -/
def halProtocol : LockProtocol Mutex AudioDevice (Option Nat) where
  rank := Mutex.rank
  guard := .lockInputs
  part := AudioDevice.activeInput

@[simp] theorem halProtocol_guard : halProtocol.guard = .lockInputs := rfl

namespace Locked

section Rules

variable {held : List Mutex} {known : Option (Option Nat)} {rest : HalCode} {i : Nat}

theorem follows_crash : Follows halProtocol held known crash := by
  refine .keep (fun adev r adev' h => ?_) fun adev r adev' h => ?_
  · cases h
  · cases h

/-- A function that keeps the active input. -/
theorem follows_doing {f : AudioDevice → Option AudioDevice}
    (hf : ∀ adev adev', f adev = some adev' → adev'.activeInput = adev.activeInput)
    (hrest : Follows halProtocol held known rest) :
    Follows halProtocol held known (doing f rest) := by
  refine .keep (fun adev r adev' h => ?_) fun _ _ _ _ => hrest
  obtain ⟨_, hadev, heq⟩ := Option.map_eq_some_iff.mp h
  cases heq
  exact hf adev adev' hadev

/-- A function that may change the active input, under `lock_inputs`. -/
theorem follows_changing {f : AudioDevice → Option AudioDevice} (hheld : .lockInputs ∈ held)
    (hrest : Follows halProtocol held none rest) :
    Follows halProtocol held known (doing f rest) :=
  .change hheld fun _ _ _ _ => hrest

theorem follows_withOut {rest : StreamOut → HalCode}
    (hrest : ∀ out, Follows halProtocol held known (rest out)) :
    Follows halProtocol held known (withOut i rest) := by
  refine .read fun adev => ?_
  cases adev.outs i with
  | none => exact follows_crash
  | some out => exact hrest out

theorem follows_withIn {rest : StreamIn → HalCode}
    (hrest : ∀ inp, Follows halProtocol held known (rest inp)) :
    Follows halProtocol held known (withIn i rest) := by
  refine .read fun adev => ?_
  cases adev.ins i with
  | none => exact follows_crash
  | some inp => exact hrest inp

theorem follows_lockOutputStream (horder : ∀ x ∈ held, x.rank < 3)
    (hrest : Follows halProtocol (.outLock i :: held) known rest) :
    Follows halProtocol held known (lockOutputStream i rest) := by
  refine .lock horder (.lock (fun x hx => ?_) (.unlock_second (by simp) (by simp) hrest))
  rcases List.mem_cons.mp hx with rfl | hx
  · exact Nat.lt_succ_self 3
  · exact Nat.lt_succ_of_lt (horder x hx)

theorem follows_lockInputStream (horder : ∀ x ∈ held, x.rank < 1)
    (hrest : Follows halProtocol (.inLock i :: held) known rest) :
    Follows halProtocol held known (lockInputStream i rest) := by
  refine .lock horder (.lock (fun x hx => ?_) (.unlock_second (by simp) (by simp) hrest))
  rcases List.mem_cons.mp hx with rfl | hx
  · exact Nat.lt_succ_self 1
  · exact Nat.lt_succ_of_lt (horder x hx)

theorem follows_underAdevLock {f : AudioDevice → Option AudioDevice}
    (horder : ∀ x ∈ held, x.rank < 5)
    (hf : ∀ adev adev', f adev = some adev' → adev'.activeInput = adev.activeInput)
    (hrest : Follows halProtocol held known rest) :
    Follows halProtocol held known (underAdevLock f rest) :=
  .lock horder (follows_doing hf (.unlock_head (by simp) hrest))

theorem follows_changingUnderAdevLock {f : AudioDevice → Option AudioDevice}
    (horder : ∀ x ∈ held, x.rank < 5) (hheld : .lockInputs ∈ held)
    (hrest : Follows halProtocol held none rest) :
    Follows halProtocol held known (underAdevLock f rest) :=
  .lock horder (follows_changing (List.mem_cons_of_mem _ hheld) (.unlock_head (by simp) hrest))

/-! ### Outputs -/

theorem follows_outStandby (horder : ∀ x ∈ held, x.rank < 3)
    (hrest : Follows halProtocol held known rest) :
    Follows halProtocol held known (outStandby i rest) := by
  refine follows_lockOutputStream horder (follows_withOut fun out => ?_)
  have hexit : Follows halProtocol (.outLock i :: held) known (.unlock (.outLock i) rest) :=
    .unlock_head (by simp) hrest
  split
  · exact hexit
  · refine follows_underAdevLock (fun x hx => ?_)
      (fun _ _ h => (doOutStandby_inputsKept h).active) hexit
    rcases List.mem_cons.mp hx with rfl | hx
    · exact Nat.lt_succ_self 4
    · exact Nat.lt_trans (horder x hx) (by decide)

/-- The check: the input is still the active one, since `lock_inputs` has been held since it
was noted. -/
theorem follows_forceInputStandby (hrest : Follows halProtocol [.lockInputs] none rest) :
    Follows halProtocol [.lockInputs] (some (some i)) (forceInputStandby i rest) := by
  refine follows_lockInputStream (by simp [Mutex.rank]) (.lock (by simp [halProtocol, Mutex.rank])
    (.check (fun adev hadev => decide_eq_true hadev) (follows_changing (by simp) ?_)))
  exact .unlock_head (by simp) (.unlock_head (by simp) hrest)

/-- What an output call holds and knows when it has noted an input to reset, or none. -/
def heldFor : Option Nat → List Mutex
  | none => []
  | some _ => [.lockInputs]

def knownFor : Option Nat → Option (Option Nat)
  | none => none
  | some i => some (some i)

theorem follows_resetNoted (reset : Option Nat) :
    Follows halProtocol (heldFor reset) (knownFor reset) (resetNoted reset) := by
  cases reset with
  | none => exact .ret
  | some i => exact follows_forceInputStandby (Follows.release_head .ret)

theorem follows_writeExit (ret : Int) (reset : Option Nat) :
    Follows halProtocol (.outLock i :: heldFor reset) (knownFor reset) (writeExit i ret reset) := by
  refine .unlock_head (by simp) ?_
  split
  · refine follows_outStandby ?_ (follows_resetNoted reset)
    cases reset <;> simp [heldFor, Mutex.rank]
  · exact follows_resetNoted reset

theorem follows_writeDevices (status : ProfileId → Int) (reset : Option Nat) :
    Follows halProtocol (.outLock i :: heldFor reset) (knownFor reset)
      (writeDevices status i reset) :=
  follows_withOut fun _ => follows_writeExit _ reset

end Rules

/-- The noted input is the active one. -/
theorem inputToReset_active {adev : AudioDevice} {i : Nat}
    (h : inputToReset adev = some (some i)) : adev.activeInput = some i := by
  unfold inputToReset at h
  split at h
  · cases h
  · rename_i id hactive
    obtain ⟨inp, -, h⟩ := Option.map_eq_some_iff.mp h
    split at h
    · cases h
      exact hactive
    · cases h

/-- The part of an output call in which it notes the input to reset. -/
theorem follows_noteInput {held : List Mutex} {known : Option (Option Nat)}
    {note : AudioDevice → Option (Option Nat)} {rest : Option Nat → HalCode}
    (hheld : .lockInputs ∈ held)
    (hactive : ∀ adev i, note adev = some (some i) → adev.activeInput = some i)
    (hrest : ∀ reset, Follows halProtocol held (knownFor reset) (rest reset)) :
    Follows halProtocol held known (noteInput note rest) := by
  refine .learn hheld fun adev => ?_
  cases hnote : note adev with
  | none => exact follows_crash
  | some reset =>
      cases reset with
      | none => exact (hrest none).weaken
      | some i =>
          show Follows halProtocol held (some adev.activeInput) (rest (some i))
          rw [hactive adev i hnote]
          exact hrest (some i)

section Calls

variable (asInput : AsInput) (depth : Nat)

theorem follows_outWrite (answers : StartAnswers) (status : ProfileId → Int) (i : Nat) :
    Follows halProtocol [] none (outWrite asInput depth answers status i) := by
  refine follows_lockOutputStream (by simp) (follows_withOut fun out => ?_)
  split
  · refine .unlock_head (by simp) (.lock (by simp) (follows_lockOutputStream (by simp [Mutex.rank])
      (follows_withOut fun out => ?_)))
    split
    · refine .lock (by simp [halProtocol, Mutex.rank])
        (.keep (fun _ _ _ h => (startOutputStream_inputsKept h).active) fun _ ret _ _ => ?_)
      split
      · exact .unlock_head (by simp) (Follows.release_second (by simp) (follows_writeExit ret none))
      · refine follows_doing (fun adev adev' h => ?_)
          (follows_noteInput (by simp) (fun _ _ => inputToReset_active) fun reset =>
            .unlock_head (by simp) ?_)
        · obtain ⟨_, -, rfl⟩ := Option.map_eq_some_iff.mp h
          rfl
        · cases reset with
          | none => exact Follows.release_second (by simp) (follows_writeDevices status none)
          | some inp => exact follows_writeDevices status (some inp)
    · exact Follows.release_second (by simp) (follows_writeDevices status none)
  · exact follows_writeDevices status none

theorem follows_outSetParameters (i : Nat) (routing : Option AudioDevices) :
    Follows halProtocol [] none (outSetParameters asInput depth i routing) := by
  cases routing with
  | none => exact .ret
  | some value =>
      refine .lock (by simp) (follows_lockOutputStream (by simp [Mutex.rank])
        (.lock (by simp [halProtocol, Mutex.rank])
          (follows_noteInput (by simp) (fun adev inp h => ?_) fun reset =>
            follows_doing (fun _ _ h => (applyRouting_inputsKept h).active)
              (follows_doing (fun _ _ h => (endCall_inputsKept h).active)
                (.unlock_head (by simp) (.unlock_head (by simp) ?_))))))
      · obtain ⟨out, -, h⟩ := Option.bind_eq_some_iff.mp h
        unfold routingReset at h
        split at h
        · exact inputToReset_active h
        · cases h
      · cases reset with
        | none => exact Follows.release_head .ret
        | some inp => exact follows_forceInputStandby (Follows.release_head .ret)

/-! ### Inputs -/

theorem follows_inStandbyL {i : Nat} {rest : HalCode}
    (hrest : Follows halProtocol [.lockInputs] none rest) :
    Follows halProtocol [.lockInputs] none (inStandbyL i rest) := by
  refine follows_lockInputStream (by simp [Mutex.rank]) (follows_withIn fun inp => ?_)
  have hexit : Follows halProtocol [.inLock i, .lockInputs] none (.unlock (.inLock i) rest) :=
    .unlock_head (by simp) hrest
  split
  · exact hexit
  · exact follows_changingUnderAdevLock (by simp [Mutex.rank]) (by simp) hexit

theorem follows_inStandby (i : Nat) : Follows halProtocol [] none (inStandby i) :=
  .lock (by simp) (follows_inStandbyL (Follows.release_head .ret))

theorem follows_readExit (i : Nat) (successful : Bool) :
    Follows halProtocol [.inLock i] none (readExit i successful) := by
  refine .unlock_head (by simp) ?_
  split
  · exact .ret
  · exact follows_inStandby i

theorem follows_readFrames (successful : Bool) (i : Nat) :
    Follows halProtocol [.inLock i] none (readFrames successful i) :=
  follows_withIn fun _ => follows_readExit i _

theorem follows_inRead (answers : StartAnswers) (successful : Bool) (i : Nat) :
    Follows halProtocol [] none (inRead asInput depth answers successful i) := by
  refine follows_lockInputStream (by simp) (follows_withIn fun inp => ?_)
  split
  · refine .unlock_head (by simp) (.lock (by simp) (follows_lockInputStream (by simp [Mutex.rank])
      (follows_withIn fun inp => ?_)))
    split
    · refine .lock (by simp [halProtocol, Mutex.rank])
        (.change (by simp [halProtocol]) fun _ ret _ _ =>
          .unlock_head (by simp) (Follows.release_second (by simp) ?_))
      split
      · exact follows_readExit i false
      · refine follows_doing (fun adev adev' h => ?_) (follows_readFrames successful i)
        obtain ⟨_, -, rfl⟩ := Option.map_eq_some_iff.mp h
        rfl
    · exact Follows.release_second (by simp) (follows_readFrames successful i)
  · exact follows_readFrames successful i

theorem follows_underInputLocks (i : Nat) (f : AudioDevice → Option AudioDevice) :
    Follows halProtocol [] none (underInputLocks i f) := by
  refine .lock (by simp) (follows_lockInputStream (by simp [Mutex.rank])
    (follows_changingUnderAdevLock (by simp [Mutex.rank]) (by simp) ?_))
  exact .unlock_head (by simp) (Follows.release_head .ret)

theorem follows_setRotation (given : Bool) : Follows halProtocol [] none (setRotation given) := by
  unfold setRotation
  split
  · exact follows_underAdevLock (by simp) (fun _ _ h => by cases h; rfl) .ret
  · exact .ret

end Calls

end Locked

/-- Every call follows the protocol, on every path. -/
theorem Request.follows (asInput : AsInput) (depth : Nat) (request : Request) :
    Follows halProtocol [] none (request.code asInput depth) := by
  cases request with
  | outWrite id answers status => exact Locked.follows_outWrite asInput depth answers status id
  | outStandby id => exact Locked.follows_outStandby (by simp) .ret
  | outSetParameters id routing => exact Locked.follows_outSetParameters asInput depth id routing
  | outGetPresentationPosition id =>
      exact Locked.follows_lockOutputStream (by simp) (.unlock_head (by simp) .ret)
  | closeOutputStream id =>
      exact Locked.follows_outStandby (by simp)
        (Locked.follows_doing (fun _ _ h => by cases h; rfl) .ret)
  | inRead id answers successful =>
      exact Locked.follows_inRead asInput depth answers successful id
  | inStandby id => exact Locked.follows_inStandby id
  | inSetParameters id source routing => exact Locked.follows_underInputLocks id _
  | inAddAudioEffect id effect described answers =>
      cases described with
      | false => exact .ret
      | true => exact Locked.follows_underInputLocks id _
  | inRemoveAudioEffect id effect described =>
      cases described with
      | false => exact .ret
      | true => exact Locked.follows_underInputLocks id _
  | closeInputStream id =>
      refine .lock (by simp) (Locked.follows_inStandbyL ?_)
      exact Locked.follows_changing (by simp) (Follows.release_head .ret)
  | setParameters tty rotation =>
      cases tty with
      | absent => exact Locked.follows_setRotation rotation
      | unknown => exact .ret
      | given tty =>
          exact Locked.follows_underAdevLock (by simp)
            (fun _ _ h => (adevSetTty_inputsKept h).active)
            (Locked.follows_setRotation rotation)
  | setMode mode => exact Locked.follows_underAdevLock (by simp) (fun _ _ h => by cases h; rfl) .ret
  | setMicMute state =>
      exact Locked.follows_underAdevLock (by simp) (fun _ _ h => by cases h; rfl) .ret
  | setVoiceVolume =>
      exact Locked.follows_underAdevLock (by simp) (fun _ _ h => by cases h; rfl) .ret

/-! ## A thread alone -/

namespace Locked

section Alone

variable (adev : AudioDevice) (i : Nat) (rest : HalCode)

@[simp] theorem alone_doing (f : AudioDevice → Option AudioDevice) :
    (doing f rest).alone adev = (f adev).bind rest.alone := by
  cases h : f adev <;> simp [doing, ThreadCode.alone, h]

@[simp] theorem alone_withOut (rest : StreamOut → HalCode) :
    (withOut i rest).alone adev = (adev.outs i).bind fun out => (rest out).alone adev := by
  cases h : adev.outs i <;> simp [withOut, crash, ThreadCode.alone, h]

@[simp] theorem alone_withIn (rest : StreamIn → HalCode) :
    (withIn i rest).alone adev = (adev.ins i).bind fun inp => (rest inp).alone adev := by
  cases h : adev.ins i <;> simp [withIn, crash, ThreadCode.alone, h]

@[simp] theorem alone_noteInput (note : AudioDevice → Option (Option Nat))
    (rest : Option Nat → HalCode) :
    (noteInput note rest).alone adev = (note adev).bind fun reset => (rest reset).alone adev := by
  cases h : note adev <;> simp [noteInput, crash, ThreadCode.alone, h]

@[simp] theorem alone_lockOutputStream : (lockOutputStream i rest).alone adev = rest.alone adev :=
  rfl

@[simp] theorem alone_lockInputStream : (lockInputStream i rest).alone adev = rest.alone adev :=
  rfl

@[simp] theorem alone_underAdevLock (f : AudioDevice → Option AudioDevice) :
    (underAdevLock f rest).alone adev = (f adev).bind rest.alone :=
  alone_doing adev _ f

@[simp] theorem alone_underInputLocks (f : AudioDevice → Option AudioDevice) :
    (underInputLocks i f).alone adev = f adev := by
  refine (alone_underAdevLock adev _ f).trans ?_
  exact Option.bind_fun_some (f adev)

theorem alone_outStandby :
    (outStandby i rest).alone adev = (Audio.outStandby adev i).bind rest.alone := by
  rw [outStandby, alone_lockOutputStream, alone_withOut, Audio.outStandby, Option.bind_eq_bind,
    Option.bind_assoc]
  congr 1
  funext out
  split
  · rfl
  · rw [alone_underAdevLock]
    rfl

theorem alone_forceInputStandby :
    (forceInputStandby i rest).alone adev = (resetInput adev (some i)).bind rest.alone := by
  unfold forceInputStandby resetInput
  rw [alone_lockInputStream, ThreadCode.alone, ThreadCode.alone]
  simp only [decide_eq_true_eq]
  split
  · rw [alone_doing]
    rfl
  · rfl

theorem alone_resetNoted (reset : Option Nat) :
    (resetNoted reset).alone adev = resetInput adev reset := by
  cases reset with
  | none => rfl
  | some i =>
      rw [resetNoted, alone_forceInputStandby]
      exact Option.bind_fun_some _

theorem alone_writeExit (ret : Int) (reset : Option Nat) :
    (writeExit i ret reset).alone adev =
      (standbyOnError adev i ret).bind fun adev => resetInput adev reset := by
  unfold writeExit standbyOnError
  rw [ThreadCode.alone]
  split
  · rw [alone_outStandby]
    congr 1
    funext adev
    exact alone_resetNoted adev reset
  · exact alone_resetNoted adev reset

theorem alone_writeDevices (status : ProfileId → Int) (reset : Option Nat) :
    (writeDevices status i reset).alone adev = writeStarted status adev i reset := by
  rw [writeDevices, alone_withOut]
  unfold writeStarted
  congr 1
  funext out
  exact alone_writeExit adev i _ reset

theorem alone_writeStartedOutput (status : ProfileId → Int) :
    (writeStartedOutput status i).alone adev =
      ((adev.outs i).bind fun out =>
        (inputToReset (adev.setOut i { out with standby := false })).bind fun reset =>
          writeStarted status (adev.setOut i { out with standby := false }) i reset) := by
  rw [writeStartedOutput, alone_doing, leaveOutStandby, Option.map_eq_bind, Option.bind_assoc]
  congr 1
  funext out
  rw [Function.comp_apply, Option.bind_some, alone_noteInput]
  congr 1
  funext reset
  cases reset with
  | none => exact alone_writeDevices _ i status none
  | some inp => exact alone_writeDevices _ i status (some inp)

theorem alone_inStandbyL :
    (inStandbyL i rest).alone adev = (doInStandby adev i).bind rest.alone := by
  rw [inStandbyL, alone_lockInputStream, alone_withIn]
  cases hinp : adev.ins i with
  | none => simp [doInStandby, hinp]
  | some inp =>
      rw [Option.bind_some]
      split
      · rename_i hstandby
        simp [doInStandby, hinp, hstandby, ThreadCode.alone]
      · rw [alone_underAdevLock]
        rfl

theorem alone_inStandby : (inStandby i).alone adev = doInStandby adev i := by
  refine (alone_inStandbyL adev i _).trans ?_
  exact Option.bind_fun_some _

theorem alone_outWrite (asInput : AsInput) (depth : Nat) (answers : StartAnswers)
    (status : ProfileId → Int) :
    (outWrite asInput depth answers status i).alone adev =
      Audio.outWrite asInput depth answers status adev i := by
  rw [outWrite, alone_lockOutputStream, alone_withOut]
  unfold Audio.outWrite
  cases hout : adev.outs i with
  | none => rfl
  | some out =>
      simp only [Option.bind_some, Option.bind_eq_bind]
      split
      · rename_i hstandby
        simp only [ThreadCode.alone, alone_lockOutputStream, alone_withOut, hout, Option.bind_some,
          hstandby, if_true]
        cases startOutputStream asInput depth answers adev i with
        | none => rfl
        | some started =>
            obtain ⟨ret, started⟩ := started
            simp only [Option.bind_some]
            split
            · simp only [ThreadCode.alone, alone_writeExit]
              exact Option.bind_fun_some _
            · exact alone_writeStartedOutput started i status
      · exact alone_writeDevices adev i status none

theorem alone_outSetParameters (asInput : AsInput) (depth : Nat) (value : AudioDevices) :
    (outSetParameters asInput depth i (some value)).alone adev =
      Audio.outSetRouting asInput depth adev i value := by
  rw [outSetParameters, ThreadCode.alone, alone_lockOutputStream, ThreadCode.alone,
    alone_noteInput, noteForRouting, Option.bind_assoc]
  unfold Audio.outSetRouting
  congr 1
  funext out
  congr 1
  funext reset
  rw [alone_doing]
  congr 1
  funext routed
  rw [alone_doing]
  congr 1
  funext ended
  simp only [ThreadCode.alone]
  cases reset with
  | none => rfl
  | some inp =>
      refine (alone_forceInputStandby ended inp _).trans ?_
      exact Option.bind_fun_some _

theorem alone_readExit (successful : Bool) :
    (readExit i successful).alone adev =
      if successful then some adev else doInStandby adev i := by
  cases successful with
  | false => exact alone_inStandby adev i
  | true => rfl

theorem alone_readFrames (successful : Bool) :
    (readFrames successful i).alone adev = readStarted successful adev i := by
  rw [readFrames, alone_withIn]
  unfold readStarted
  congr 1
  funext inp
  rw [alone_readExit]
  cases inp.pcmDevList <;> simp

theorem alone_inRead (asInput : AsInput) (depth : Nat) (answers : StartAnswers)
    (successful : Bool) :
    (inRead asInput depth answers successful i).alone adev =
      Audio.inRead asInput depth answers successful adev i := by
  rw [inRead, alone_lockInputStream, alone_withIn]
  unfold Audio.inRead
  cases hinp : adev.ins i with
  | none => rfl
  | some inp =>
      simp only [Option.bind_some, Option.bind_eq_bind]
      split
      · rename_i hstandby
        simp only [ThreadCode.alone, alone_lockInputStream, alone_withIn, hinp, Option.bind_some,
          hstandby, if_true]
        cases startInputStream asInput depth answers adev i with
        | none => rfl
        | some started =>
            obtain ⟨ret, started⟩ := started
            simp only [Option.bind_some]
            split
            · exact alone_readExit started i false
            · rw [alone_doing, leaveInStandby, Option.map_eq_bind, Option.bind_assoc]
              congr 1
              funext inp
              exact alone_readFrames _ i successful
      · exact alone_readFrames adev i successful

theorem alone_setRotation (given : Bool) : (setRotation given).alone adev = some adev := by
  cases given <;> rfl

end Alone

end Locked

/-- A call that no other thread interrupts does what it does in a run of calls one after
another. -/
theorem Request.alone_code (asInput : AsInput) (depth : Nat) (request : Request)
    (adev : AudioDevice) :
    (request.code asInput depth).alone adev =
      request.call.elim (some adev) fun call => call.run asInput depth adev := by
  cases request with
  | outWrite id answers status => exact Locked.alone_outWrite adev id asInput depth answers status
  | outStandby id =>
      refine (Locked.alone_outStandby adev id .ret).trans ?_
      exact Option.bind_fun_some _
  | outSetParameters id routing =>
      cases routing with
      | none => rfl
      | some value => exact Locked.alone_outSetParameters adev id asInput depth value
  | outGetPresentationPosition id => rfl
  | closeOutputStream id =>
      refine (Locked.alone_outStandby adev id _).trans ?_
      show _ = (Audio.outStandby adev id).bind _
      congr 1
  | inRead id answers successful =>
      exact Locked.alone_inRead adev id asInput depth answers successful
  | inStandby id => exact Locked.alone_inStandby adev id
  | inSetParameters id source routing => exact Locked.alone_underInputLocks adev id _
  | inAddAudioEffect id effect described answers =>
      cases described with
      | false => rfl
      | true => exact Locked.alone_underInputLocks adev id _
  | inRemoveAudioEffect id effect described =>
      cases described with
      | false => rfl
      | true => exact Locked.alone_underInputLocks adev id _
  | closeInputStream id =>
      refine (Locked.alone_inStandbyL adev id _).trans ?_
      show _ = (doInStandby adev id).bind _
      congr 1
  | setParameters tty rotation =>
      cases tty with
      | absent => exact Locked.alone_setRotation adev rotation
      | unknown => rfl
      | given tty =>
          refine (Locked.alone_underAdevLock adev _ _).trans ?_
          rw [funext fun adev => Locked.alone_setRotation adev rotation]
          exact Option.bind_fun_some _
  | setMode mode => rfl
  | setMicMute state => rfl
  | setVoiceVolume => rfl

/-! ## Every interleaving -/

/-- In every interleaving of any number of threads: no threads wait for each other in a
cycle, a thread unlocks only what it holds and holds nothing when its call returns, no fatal
check fails; and the active input changes only in a step of the thread that holds
`lock_inputs`. -/
theorem locking_protocol {τ : Type} [DecidableEq τ] {asInput : AsInput} {depth : Nat}
    {m : Threads τ Mutex AudioDevice Int}
    (h : (halThreads τ asInput depth).Reachable (fun _ _ => True) m) :
    m.Orderly ∧ ∀ event m', (halThreads τ asInput depth).next m event = some m' →
      m'.state.activeInput ≠ m.state.activeInput →
        ∃ t, event = .step t ∧ m.holder .lockInputs = some t := by
  obtain ⟨held, known, hobeyed⟩ := reachable_obeyed (Request.follows asInput depth) h
  refine ⟨hobeyed.orderly, fun event m' hnext hne => ?_⟩
  cases event with
  | enter t request =>
      refine absurd ?_ hne
      have henter : m.enter t (request.code asInput depth) = some m' := hnext
      unfold Threads.enter at henter
      split at henter
      · cases henter
        rfl
      · cases henter
  | step t => exact ⟨t, rfl, hobeyed.part_step hnext hne⟩

/-- The HAL with an output in standby and an input that records. -/
def inputRecording : Option AudioDevice :=
  (audioSystem readsAsDefault 2).run (fun _ _ => True)
    [.openOutputStream deviceOutSpeaker outputFlagPrimary, .openInputStream micRequest,
      .inRead 1 allSucceed true] (adevOpen false)

/-- A thread writes to the output, which starts it and takes note of the input; another one
wants to put the input into standby. -/
def writeAndStandby : List (ThreadEvent Nat Request) :=
  .enter 0 (.outWrite 0 allSucceed fun _ => 0) :: List.replicate 21 (.step 0) ++
    [.enter 1 (.inStandby 1)]

/-- The first thread comes to its fatal check with the locks of the input, and the second one
waits for it. -/
theorem locking_protocol_noted : ∃ adev m, inputRecording = some adev ∧
    (halThreads Nat readsAsDefault 2).run (fun _ _ => True) writeAndStandby
      ⟨fun _ => .ret, fun _ => none, adev⟩ = some m ∧
    m.holder (.inLock 1) = some 0 ∧ m.WaitsFor 1 0 ∧ m.Orderly ∧
    ∃ test rest, m.code 0 = .check test rest ∧ test m.state = true := by
  have horderly : ∀ adev m, (halThreads Nat readsAsDefault 2).run (fun _ _ => True)
      writeAndStandby ⟨fun _ => .ret, fun _ => none, adev⟩ = some m → m.Orderly := by
    intro adev m hrun
    have hstart : (halThreads Nat readsAsDefault 2).Reachable (fun _ _ => True)
        ⟨fun _ => .ret, fun _ => none, adev⟩ :=
      .start ⟨fun _ => rfl, fun _ => rfl⟩
    exact (locking_protocol (hstart.run hrun)).1
  exact ⟨_, _, rfl, rfl, rfl, ⟨.lockInputs, _, rfl, rfl⟩,
    horderly (inputRecording.get rfl) _ rfl, _, _, rfl, rfl⟩

end DragonDevice.Audio
