/-
  SoundTrigger/Contract.lean --- when the sound trigger HAL keeps its state in order.

  `stop` and `unload` share one exit for success and errors, and it turns the DSP off; a
  call with a wrong handle does so under a recognition that goes on.  `unload` leaves the
  PCM alone, so a PCM that the thread has left open for streaming stays open; and the audio
  HAL can close the PCM of a recognition it knows nothing about.  While `stop` or `unload`
  waits for the thread without the lock, a `start` of another caller begins a recognition that
  the end of the wait turns off, and an `unload` of another caller finds nothing to wait for.
  In runs without these the contract holds.
-/
import DragonDevice.SoundTrigger.Device

set_option autoImplicit false

namespace DragonDevice.SoundTrigger

open DragonDevice.Lib

/-- What a step must avoid: a call of `stop` or `unload` with a handle it refuses while a
recognition is active; an `unload` of a PCM that no thread is going to close, or of a
recognition whose callback is gone and whose thread is not; a `start` without a callback, or
while a `stop` or `unload` waits; a `close_for_streaming` while the thread polls; and a mixer
write that fails when the thread turns the DSP on or a call that returns 0 turns it off. -/
def Careful (d : Device) : Event → Prop
  | .load _ _ _ => True
  | .unload _ handle mixer =>
      (handle ≠ 1 ∨ d.modelHandle = 0 → ¬ d.Active) ∧
        (handle = 1 ∧ d.modelHandle ≠ 0 →
          (d.pcm = .opened → d.phase d.callbackThread = .polling) ∧
          (d.recognitionCallback = false →
            mixer = true ∧ d.phase d.callbackThread = .ended))
  | .start _ handle _ callback _ _ =>
      callback = true ∧ (d.modelHandle = handle → ∀ caller, d.callers caller = .idle)
  | .stop _ handle _ => d.modelHandle ≠ handle → ¬ d.Active
  | .readThread _ => True
  | .threadJoined caller mixer => ∀ id, d.callers caller = .unloadJoin id → mixer = true
  | .stopFinish _ mixer => mixer = true
  | .closeForStreaming handle => 0 < handle → d.phase d.callbackThread ≠ .polling
  | .threadStart _ o => o.mixer = true
  | .threadWake _ _ => True
  | .threadDelivered _ _ => True

/-! ## The invariant -/

/-- What holds while a caller is at a place: without the lock, the callback is gone, the thread
it waits for is the last one, and `unload` will find the PCM closed. -/
def Waits (d : Device) : Caller → Prop
  | .idle => True
  | .unloadUnlocked =>
      d.recognitionCallback = false ∧ (d.phase d.callbackThread ≠ .polling → d.pcm ≠ .opened)
  | .unloadJoin id =>
      d.recognitionCallback = false ∧ (d.phase d.callbackThread ≠ .polling → d.pcm ≠ .opened) ∧
        id = d.callbackThread
  | .stopUnlocked => d.recognitionCallback = false
  | .stopJoin id => d.recognitionCallback = false ∧ id = d.callbackThread
  | .stopClosed =>
      d.recognitionCallback = false ∧ d.phase d.callbackThread = .ended ∧ d.pcm ≠ .opened

/-- At most one thread is there, the callback is set only while it is, and power and PCM
are on while a recognition is active. -/
structure InOrder (d : Device) : Prop where
  others : ∀ id, id ≠ d.callbackThread → d.phase id = .ended
  idle : (∀ caller, d.callers caller = .idle) → d.recognitionCallback = false →
    d.phase d.callbackThread = .ended
  ended : d.phase d.callbackThread = .ended → d.recognitionCallback = false
  created : d.phase d.callbackThread = .created → d.pcm ≠ .opened
  active : d.Active → d.power = true ∧ d.pcm = .opened
  waits : ∀ caller, Waits d (d.callers caller)
  stopped : d.stopped = true →
    d.phase d.callbackThread = .ended ∧ d.power = false ∧ d.pcm ≠ .opened

theorem opened_inOrder : InOrder opened := by
  constructor <;> simp [opened, Device.Active, Waits]

/-- A caller that is not between calls finds no callback. -/
theorem Waits.callback {d : Device} {place : Caller} (h : Waits d place) (hbusy : place ≠ .idle) :
    d.recognitionCallback = false := by
  cases place with
  | idle => exact absurd rfl hbusy
  | unloadUnlocked => exact h.1
  | unloadJoin id => exact h.1
  | stopUnlocked => exact h
  | stopJoin id => exact h.1
  | stopClosed => exact h.1

/-- What a step may change while callers wait: threads end, and the PCM is closed. -/
theorem Waits.mono {d d' : Device} {place : Caller} (h : Waits d place)
    (hthread : d'.callbackThread = d.callbackThread)
    (hcb : d.recognitionCallback = false → d'.recognitionCallback = false)
    (hended : d.phase d.callbackThread = .ended → d'.phase d.callbackThread = .ended)
    (hpcm : d'.pcm = .opened → d.pcm = .opened ∧
      (d.phase d.callbackThread = .polling → d'.phase d.callbackThread = .polling)) :
    Waits d' place := by
  have hclosed : (d.phase d.callbackThread ≠ .polling → d.pcm ≠ .opened) →
      d'.phase d.callbackThread ≠ .polling → d'.pcm ≠ .opened := by
    intro hkept hphase hopened
    obtain ⟨hpcm, hpoll⟩ := hpcm hopened
    exact hkept (fun hpolling => hphase (hpoll hpolling)) hpcm
  cases place with
  | idle => trivial
  | unloadUnlocked => exact ⟨hcb h.1, by rw [hthread]; exact hclosed h.2⟩
  | unloadJoin id =>
      exact ⟨hcb h.1, by rw [hthread]; exact hclosed h.2.1, by rw [hthread]; exact h.2.2⟩
  | stopUnlocked => exact hcb h
  | stopJoin id => exact ⟨hcb h.1, by rw [hthread]; exact h.2⟩
  | stopClosed =>
      exact ⟨hcb h.1, by rw [hthread]; exact hended h.2.1, fun hopened => h.2.2 (hpcm hopened).1⟩

/-- A call that begins and ends in one section leaves the callers where they are. -/
theorem returns_of_idle {d : Device} {caller : Nat} (hidle : d.callers caller = .idle)
    (result : Int) : returns d caller result = { d with returned := some result } := by
  have hcallers : Function.update d.callers caller .idle = d.callers := by
    rw [← hidle, Function.update_eq_self]
  rw [returns, setCaller, hcallers]

/-- The invariant says nothing of the model and of what was returned. -/
theorem InOrder.congr {d d' : Device} (h : InOrder d) (hphase : d'.phase = d.phase)
    (hthread : d'.callbackThread = d.callbackThread)
    (hcb : d'.recognitionCallback = d.recognitionCallback) (hpcm : d'.pcm = d.pcm)
    (hcallers : d'.callers = d.callers)
    (hpower : d'.power = d.power ∨ d'.power = false ∧ ¬ d.Active)
    (hstopped : d'.stopped = d.stopped) : InOrder d' := by
  refine ⟨?_, ?_, ?_, ?_, ?_, ?_, ?_⟩
  · rw [hphase, hthread]
    exact h.others
  · rw [hphase, hthread, hcb, hcallers]
    exact h.idle
  · rw [hphase, hthread, hcb]
    exact h.ended
  · rw [hphase, hthread, hpcm]
    exact h.created
  · unfold Device.Active
    rw [hphase, hthread, hcb, hpcm]
    intro hactive
    cases hpower with
    | inl hsame =>
        rw [hsame]
        exact h.active hactive
    | inr hoff => exact absurd hactive hoff.2
  · intro caller
    rw [hcallers]
    refine (h.waits caller).mono hthread (by rw [hcb]; exact id) (by rw [hphase]; exact id) ?_
    rw [hphase, hpcm]
    exact fun hopened => ⟨hopened, id⟩
  · rw [hphase, hthread, hpcm, hstopped]
    intro hset
    obtain ⟨hended, hpower', hclosed⟩ := h.stopped hset
    refine ⟨hended, ?_, hclosed⟩
    cases hpower with
    | inl hsame => rw [hsame, hpower']
    | inr hoff => exact hoff.1

/-- A call that only returns. -/
theorem InOrder.returns {d : Device} (h : InOrder d) {caller : Nat}
    (hidle : d.callers caller = .idle) (r : Int) : InOrder (returns d caller r) := by
  rw [returns_of_idle hidle]
  exact h.congr rfl rfl rfl rfl rfl (.inl rfl) rfl

/-- The mixer write of the shared exit, when no recognition is active. -/
theorem InOrder.powerOff {d : Device} (h : InOrder d) (hactive : ¬ d.Active) (mixer : Bool) :
    InOrder (stdevDspSetPower d false mixer) := by
  refine h.congr rfl rfl rfl rfl rfl ?_ rfl
  cases mixer with
  | true => exact .inr ⟨rfl, hactive⟩
  | false => exact .inl rfl

theorem InOrder.powerOffExit {d : Device} (h : InOrder d) {caller : Nat}
    (hidle : d.callers caller = .idle) (hactive : ¬ d.Active) (r : Int) (mixer : Bool) :
    InOrder (powerOffExit d caller r mixer) :=
  (h.powerOff hactive mixer).returns hidle r

/-! ## Calls -/

theorem InOrder.loadSoundModel {d : Device} (h : InOrder d) {caller : Nat}
    (hidle : d.callers caller = .idle) (arguments : Bool) (loaded : Int) :
    InOrder (loadSoundModel d caller arguments loaded) := by
  have hmodel : InOrder { d with modelHandle := 1 } :=
    h.congr rfl rfl rfl rfl rfl (.inl rfl) rfl
  unfold SoundTrigger.loadSoundModel
  split
  · exact h.returns hidle _
  · split
    · exact h.returns hidle _
    · split
      · exact h.returns hidle _
      · exact hmodel.returns hidle _

/-- A caller gives up the lock after it has cleared the callback. -/
theorem InOrder.unlock {d d' : Device} (h : InOrder d) {caller : Nat} {place : Caller}
    (hphase : d'.phase = d.phase) (hthread : d'.callbackThread = d.callbackThread)
    (hcb : d.recognitionCallback = true) (hcb' : d'.recognitionCallback = false)
    (hpcm : d'.pcm = d.pcm) (hcallers : d'.callers = Function.update d.callers caller place)
    (hplace : place ≠ .idle) (hstopped : d'.stopped = d.stopped) (hwaits : Waits d' place) :
    InOrder d' := by
  refine ⟨?_, fun hall => ?_, fun _ => hcb', ?_, fun hactive => ?_, ?_, fun hset => ?_⟩
  · rw [hphase, hthread]
    exact h.others
  · have hself := hall caller
    rw [hcallers, Function.update_self] at hself
    exact absurd hself hplace
  · rw [hphase, hthread, hpcm]
    exact h.created
  · rw [hactive.2] at hcb'
    cases hcb'
  · rw [hcallers, Function.forall_update_iff d.callers (p := fun _ place => Waits d' place)]
    refine ⟨hwaits, fun other _ => (h.waits other).mono hthread (fun _ => hcb')
      (by rw [hphase]; exact id) ?_⟩
    rw [hphase, hpcm]
    exact fun hopened => ⟨hopened, id⟩
  · -- the thread of a callback that is set has not ended
    rw [hstopped] at hset
    rw [h.ended (h.stopped hset).1] at hcb
    cases hcb

/-- A caller that comes back after the thread has ended. -/
theorem InOrder.finish {d : Device} (h : InOrder d) {caller : Nat}
    (hended : d.phase d.callbackThread = .ended) (hpcm : d.pcm ≠ .opened) :
    InOrder (SoundTrigger.stopFinish d caller true) := by
  refine ⟨h.others, fun _ _ => hended, h.ended, h.created, fun hactive => ?_, ?_,
    fun _ => ⟨hended, rfl, hpcm⟩⟩
  · have hpolling : d.phase d.callbackThread = .polling := hactive.1
    rw [hended] at hpolling
    cases hpolling
  · show ∀ c, Waits _ (Function.update d.callers caller .idle c)
    rw [Function.forall_update_iff d.callers (p := fun _ place => Waits _ place)]
    exact ⟨trivial, fun other _ => (h.waits other).mono rfl id id fun hopened => ⟨hopened, id⟩⟩

theorem InOrder.unloadSoundModel {d : Device} (h : InOrder d) {caller : Nat}
    (hidle : d.callers caller = .idle) {handle : Int} {mixer : Bool}
    (hok : Careful d (.unload caller handle mixer)) :
    InOrder (unloadSoundModel d caller handle mixer) := by
  obtain ⟨hrefused, haccepted⟩ := hok
  unfold SoundTrigger.unloadSoundModel
  split
  · rename_i hhandle
    exact h.powerOffExit hidle (hrefused (.inl hhandle)) _ _
  · split
    · rename_i hmodel
      exact h.powerOffExit hidle (hrefused (.inr hmodel)) _ _
    · rename_i hhandle hmodel
      obtain ⟨hpcm, hgone⟩ := haccepted ⟨Decidable.not_not.mp hhandle, hmodel⟩
      split
      · -- the thread is still there, and if it has an open PCM it polls
        rename_i hcb
        exact h.unlock rfl rfl hcb rfl rfl rfl (by decide) rfl
          ⟨rfl, fun hphase hopened => hphase (hpcm hopened)⟩
      · rename_i hcb
        obtain ⟨hmixer, hended⟩ := hgone (Bool.eq_false_iff.mpr hcb)
        have hmodel : InOrder { d with modelHandle := 0, config := none } :=
          h.congr rfl rfl rfl rfl rfl (.inl rfl) rfl
        rw [hmixer]
        refine hmodel.finish hended fun hopened => ?_
        rw [hpcm hopened] at hended
        cases hended

/-- A thread is created when all others have ended and nobody is in a call. -/
theorem started_inOrder {d d' : Device} (hended : ∀ id, d.phase id = .ended)
    (hphase : d'.phase = Function.update d.phase d'.callbackThread .created)
    (hpcm : d'.pcm ≠ .opened) (hcallers : ∀ caller, d'.callers caller = .idle)
    (hstopped : d'.stopped = false) (hcb : d'.recognitionCallback = true) : InOrder d' := by
  have hcreated : d'.phase d'.callbackThread = .created := by
    rw [hphase, Function.update_self]
  refine ⟨fun id hid => ?_, fun _ hnone => ?_, fun hend => ?_, fun _ => hpcm, fun hactive => ?_,
    fun caller => ?_, fun hset => ?_⟩
  · rw [hphase, Function.update_of_ne hid]
    exact hended id
  · rw [hcb] at hnone
    cases hnone
  · rw [hcreated] at hend
    cases hend
  · rw [Device.Active, hcreated] at hactive
    cases hactive.1
  · rw [hcallers caller]
    trivial
  · rw [hstopped] at hset
    cases hset

theorem InOrder.startRecognition {d : Device} (h : InOrder d) {caller : Nat}
    (hidle : d.callers caller = .idle) {handle : Int}
    (hwaits : d.modelHandle = handle → ∀ caller, d.callers caller = .idle)
    (config : Option Bool) (alloc mixer : Bool) :
    InOrder (startRecognition d caller handle config true alloc mixer) := by
  have hconfig : InOrder { d with config := none } := h.congr rfl rfl rfl rfl rfl (.inl rfl) rfl
  unfold SoundTrigger.startRecognition
  split
  · exact h.returns hidle _
  · rename_i hmodel
    have hall := hwaits (Decidable.not_not.mp hmodel)
    split
    · exact h.returns hidle _
    · rename_i hcb
      split
      · exact hconfig.returns hidle _
      · -- the old thread has ended, so the new one is the only one
        have hcb : d.recognitionCallback = false := Bool.eq_false_iff.mpr hcb
        have hended : ∀ id, d.phase id = .ended := by
          intro id
          by_cases hid : id = d.callbackThread
          · rw [hid]
            exact h.idle hall hcb
          · exact h.others id hid
        refine started_inOrder hended rfl (fun hopened => by cases hopened) (fun other => ?_) rfl
          rfl
        show Function.update d.callers caller .idle other = .idle
        rw [← hidle, Function.update_eq_self, hall other, hidle]

theorem InOrder.stopRecognition {d : Device} (h : InOrder d) {caller : Nat}
    (hidle : d.callers caller = .idle) {handle : Int} {mixer : Bool}
    (hok : Careful d (.stop caller handle mixer)) :
    InOrder (stopRecognition d caller handle mixer) := by
  unfold SoundTrigger.stopRecognition
  split
  · rename_i hmodel
    exact h.powerOffExit hidle (hok hmodel) _ _
  · split
    · rename_i hcb
      refine h.powerOffExit hidle ?_ _ _
      rintro ⟨-, hset⟩
      rw [hcb] at hset
      cases hset
    · rename_i hcb
      exact h.unlock rfl rfl (by simpa using hcb) rfl rfl rfl (by decide) rfl rfl

/-- A caller goes on without the lock. -/
theorem InOrder.setCaller {d : Device} (h : InOrder d) {caller : Nat} {place : Caller}
    (hplace : place ≠ .idle) (hwaits : Waits d place) : InOrder (setCaller d caller place) := by
  refine ⟨h.others, fun hall => ?_, h.ended, h.created, h.active, ?_, h.stopped⟩
  · have hself : Function.update d.callers caller place caller = .idle := hall caller
    rw [Function.update_self] at hself
    exact absurd hself hplace
  · show ∀ c, Waits _ (Function.update d.callers caller place c)
    rw [Function.forall_update_iff d.callers (p := fun _ place => Waits _ place)]
    exact ⟨hwaits.mono rfl id id fun hopened => ⟨hopened, id⟩,
      fun other _ => (h.waits other).mono rfl id id fun hopened => ⟨hopened, id⟩⟩

theorem InOrder.readThread {d d' : Device} (h : InOrder d) {caller : Nat}
    (hnext : readThread d caller = some d') : InOrder d' := by
  have hwaits := h.waits caller
  unfold SoundTrigger.readThread at hnext
  split at hnext
  · rename_i hplace
    rw [hplace] at hwaits
    cases hnext
    exact h.setCaller nofun ⟨hwaits.1, hwaits.2, rfl⟩
  · rename_i hplace
    rw [hplace] at hwaits
    cases hnext
    exact h.setCaller nofun ⟨hwaits, rfl⟩
  · cases hnext

theorem InOrder.closePcm {d : Device} (h : InOrder d)
    (hpolling : d.phase d.callbackThread ≠ .polling) : InOrder (closePcm d) := by
  refine ⟨h.others, h.idle, h.ended, fun _ => by simp [SoundTrigger.closePcm],
    fun hactive => absurd hactive.1 hpolling, fun caller => ?_, fun hset => ?_⟩
  · exact (h.waits caller).mono rfl id id nofun
  · obtain ⟨hended, hpower, -⟩ := h.stopped hset
    exact ⟨hended, hpower, nofun⟩

theorem InOrder.threadJoined {d d' : Device} (h : InOrder d) {caller : Nat} {mixer : Bool}
    (hok : Careful d (.threadJoined caller mixer))
    (hnext : threadJoined d caller mixer = some d') : InOrder d' := by
  have hwaits := h.waits caller
  unfold SoundTrigger.threadJoined at hnext
  split at hnext
  · rename_i id hplace
    rw [hplace] at hwaits
    obtain ⟨-, hpcm, hid⟩ := hwaits
    obtain ⟨hended, rfl⟩ := guarded_eq_some hnext
    rw [hid] at hended
    rw [hok id hplace]
    exact h.finish hended (hpcm (by rw [hended]; decide))
  · rename_i id hplace
    rw [hplace] at hwaits
    obtain ⟨hcb, hid⟩ := hwaits
    obtain ⟨hended, rfl⟩ := guarded_eq_some hnext
    rw [hid] at hended
    exact (h.closePcm (by rw [hended]; decide)).setCaller (by decide) ⟨hcb, hended, nofun⟩
  · cases hnext

theorem InOrder.stopFinish {d : Device} (h : InOrder d) {caller : Nat} {mixer : Bool}
    (hclosed : d.callers caller = .stopClosed) (hmixer : mixer = true) :
    InOrder (stopFinish d caller mixer) := by
  have hwaits := h.waits caller
  rw [hclosed] at hwaits
  obtain ⟨-, hended, hpcm⟩ := hwaits
  rw [hmixer]
  exact h.finish hended hpcm

theorem InOrder.closeForStreaming {d : Device} (h : InOrder d) {handle : Int}
    (hok : Careful d (.closeForStreaming handle)) : InOrder (closeForStreaming d handle) := by
  unfold SoundTrigger.closeForStreaming
  split
  · exact h.congr rfl rfl rfl rfl rfl (.inl rfl) rfl
  · rename_i hhandle
    exact (h.closePcm (hok (by omega))).congr rfl rfl rfl rfl rfl (.inl rfl) rfl

/-! ## The thread -/

/-- A thread that is there is the one that was created last. -/
theorem InOrder.eq_callbackThread {d : Device} (h : InOrder d) {id : Nat}
    (hid : d.phase id ≠ .ended) : id = d.callbackThread := by
  by_contra hne
  exact hid (h.others id hne)

/-- A thread that is there has not been stopped. -/
theorem InOrder.running {d : Device} (h : InOrder d)
    (hphase : d.phase d.callbackThread ≠ .ended) : d.stopped = false :=
  Bool.eq_false_iff.mpr fun hstopped => hphase (h.stopped hstopped).1

/-- The exit of the only thread: its PCM is closed, unless it comes from elsewhere than `poll`. -/
theorem threadExit_inOrder {d : Device} (mixer : Bool)
    (hothers : ∀ id, id ≠ d.callbackThread → d.phase id = .ended) (hstopped : d.stopped = false)
    (hwaits : ∀ caller, Waits d (d.callers caller))
    (hpcm : d.pcm = .opened → d.phase d.callbackThread ≠ .polling) :
    InOrder (threadExit d d.callbackThread mixer) := by
  obtain ⟨d', hd', hthread, hphase, hpcm', hcallers, hcb, hstopped'⟩ : ∃ d',
      threadExit d d.callbackThread mixer = d' ∧ d'.callbackThread = d.callbackThread ∧
      d'.phase = Function.update d.phase d.callbackThread .ended ∧ d'.pcm = d.pcm ∧
      d'.callers = d.callers ∧ d'.recognitionCallback = false ∧ d'.stopped = d.stopped := by
    refine ⟨_, rfl, ?_⟩
    unfold threadExit
    dsimp only
    split <;> exact ⟨rfl, rfl, rfl, rfl, rfl, rfl⟩
  have hended : d'.phase d.callbackThread = .ended := by
    rw [hphase, Function.update_self]
  rw [hd']
  refine ⟨fun id hid => ?_, fun _ _ => by rw [hthread]; exact hended, fun _ => hcb,
    fun hcreated => ?_, fun hactive => ?_, fun caller => ?_, fun hset => ?_⟩
  · rw [hthread] at hid
    rw [hphase, Function.update_of_ne hid]
    exact hothers id hid
  · rw [hthread, hended] at hcreated
    cases hcreated
  · rw [hactive.2] at hcb
    cases hcb
  · rw [hcallers]
    refine (hwaits caller).mono hthread (fun _ => hcb) (fun _ => hended) fun hopened => ?_
    rw [hpcm'] at hopened
    exact ⟨hopened, fun hpolling => absurd hpolling (hpcm hopened)⟩
  · rw [hstopped', hstopped] at hset
    cases hset

/-- While the callback is set, nobody waits. -/
theorem InOrder.nobody {d : Device} (h : InOrder d) (hcb : d.recognitionCallback = true)
    (caller : Nat) : d.callers caller = .idle := by
  by_contra hbusy
  rw [(h.waits caller).callback hbusy] at hcb
  cases hcb

/-- While the callback is set, only the phase of the thread, the power and the PCM change. -/
theorem InOrder.proceed {d d' : Device} (h : InOrder d) (hcb : d.recognitionCallback = true)
    {phase : Phase} (hphase : d'.phase = Function.update d.phase d.callbackThread phase)
    (hthread : d'.callbackThread = d.callbackThread) (hcb' : d'.recognitionCallback = true)
    (hcallers : d'.callers = d.callers) (hstopped : d'.stopped = d.stopped)
    (hplace : phase = .delivering ∨ phase = .polling ∧ d'.power = true ∧ d'.pcm = .opened) :
    InOrder d' := by
  have hthis : d'.phase d'.callbackThread = phase := by
    rw [hthread, hphase, Function.update_self]
  have hended : phase ≠ .ended := by
    obtain rfl | ⟨rfl, -⟩ := hplace <;> decide
  refine ⟨fun id hid => ?_, fun _ hnone => ?_, fun hend => ?_, fun hcreated => ?_,
    fun hactive => ?_, fun caller => ?_, fun hset => ?_⟩
  · rw [hthread] at hid
    rw [hphase, Function.update_of_ne hid]
    exact h.others id hid
  · rw [hcb'] at hnone
    cases hnone
  · exact absurd (hthis.symm.trans hend) hended
  · rw [hthis] at hcreated
    obtain rfl | ⟨rfl, -⟩ := hplace <;> cases hcreated
  · obtain rfl | ⟨rfl, hpower, hpcm⟩ := hplace
    · cases hthis.symm.trans hactive.1
    · exact ⟨hpower, hpcm⟩
  · rw [hcallers, h.nobody hcb caller]
    trivial
  · -- the callback is not set once the thread has been stopped
    rw [hstopped] at hset
    rw [h.ended (h.stopped hset).1] at hcb
    cases hcb

theorem InOrder.threadStart {d : Device} (h : InOrder d) {id : Nat} {o : Startup}
    (hphase : d.phase id = .created) (hok : Careful d (.threadStart id o)) :
    InOrder (threadStart d id o) := by
  have hmixer : o.mixer = true := hok
  obtain rfl := h.eq_callbackThread (by rw [hphase]; decide : d.phase id ≠ .ended)
  have hpolling : d.phase d.callbackThread ≠ .polling := by
    rw [hphase]
    decide
  have hrunning := h.running (by rw [hphase]; decide)
  unfold SoundTrigger.threadStart
  split
  · exact threadExit_inOrder _ h.others hrunning h.waits fun _ => hpolling
  · rename_i hgo
    have hcb : d.recognitionCallback = true := by
      cases hcb : d.recognitionCallback with
      | true => rfl
      | false => exact absurd (.inl hcb) hgo
    dsimp only
    split
    · refine @threadExit_inOrder { stdevDspSetPower { d with sockets := true } true o.mixer with
        pcm := o.pcm } _ h.others hrunning (fun caller => ?_) fun _ => hpolling
      show Waits _ (d.callers caller)
      rw [h.nobody hcb caller]
      trivial
    · rename_i hready
      have hpcm : o.pcm = .opened := by
        by_contra hne
        exact hready (.inl hne)
      exact h.proceed hcb rfl rfl hcb rfl rfl
        (.inr ⟨rfl, by simp [stdevDspSetPower, hmixer, setPhase], hpcm⟩)

theorem InOrder.threadWake {d : Device} (h : InOrder d) {id : Nat} (o : Wakeup)
    (hphase : d.phase id = .polling) : InOrder (threadWake d id o) := by
  obtain rfl := h.eq_callbackThread (by rw [hphase]; decide : d.phase id ≠ .ended)
  have hexit : InOrder (threadExit (SoundTrigger.closePcm d) d.callbackThread o.exitMixer) :=
    @threadExit_inOrder (SoundTrigger.closePcm d) _ h.others
      (h.running (by rw [hphase]; decide))
      (fun caller => (h.waits caller).mono rfl id id nofun) nofun
  unfold SoundTrigger.threadWake
  split
  · exact hexit
  · rename_i hgo
    have hcb : d.recognitionCallback = true := by
      cases hcb : d.recognitionCallback with
      | true => rfl
      | false => exact absurd (.inr hcb) hgo
    split
    · split
      · exact hexit
      · exact h.proceed hcb rfl rfl hcb rfl rfl (.inl rfl)
    · split
      · exact hexit
      · exact h.congr rfl rfl rfl rfl rfl (.inl rfl) rfl

/-- The sections of the thread complete no call. -/
theorem threadExit_returned (d : Device) (id : Nat) (mixer : Bool) :
    (threadExit d id mixer).returned = none := by
  unfold threadExit
  dsimp only
  split <;> rfl

theorem threadStart_returned (d : Device) (id : Nat) (o : Startup) :
    (threadStart d id o).returned = none := by
  unfold threadStart
  split
  · exact threadExit_returned _ _ _
  · dsimp only
    split
    · exact threadExit_returned _ _ _
    · rfl

theorem threadWake_returned (d : Device) (id : Nat) (o : Wakeup) :
    (threadWake d id o).returned = none := by
  unfold threadWake
  split
  · exact threadExit_returned _ _ _
  · split
    · split
      · exact threadExit_returned _ _ _
      · rfl
    · split
      · exact threadExit_returned _ _ _
      · rfl

/-! ## Every run -/

theorem InOrder.next {d d' : Device} {e : Event} (h : InOrder d) (hok : Careful d e)
    (hnext : next d e = some d') : InOrder d' := by
  cases e with
  | load caller arguments loaded =>
      obtain ⟨hidle, rfl⟩ := guarded_eq_some hnext
      exact h.loadSoundModel hidle _ _
  | unload caller handle mixer =>
      obtain ⟨hidle, rfl⟩ := guarded_eq_some hnext
      exact h.unloadSoundModel hidle hok
  | start caller handle config callback alloc mixer =>
      obtain ⟨hidle, rfl⟩ := guarded_eq_some hnext
      obtain ⟨hcb, hwaits⟩ := hok
      rw [hcb]
      exact h.startRecognition hidle hwaits _ _ _
  | stop caller handle mixer =>
      obtain ⟨hidle, rfl⟩ := guarded_eq_some hnext
      exact h.stopRecognition hidle hok
  | readThread caller => exact h.readThread hnext
  | threadJoined caller mixer => exact h.threadJoined hok hnext
  | stopFinish caller mixer =>
      obtain ⟨hclosed, rfl⟩ := guarded_eq_some hnext
      exact h.stopFinish hclosed hok
  | closeForStreaming handle =>
      cases hnext
      exact h.closeForStreaming hok
  | threadStart id o =>
      obtain ⟨hphase, rfl⟩ := guarded_eq_some hnext
      exact h.threadStart hphase hok
  | threadWake id o =>
      obtain ⟨hphase, rfl⟩ := guarded_eq_some hnext
      exact h.threadWake o hphase
  | threadDelivered id mixer =>
      obtain ⟨hphase, rfl⟩ := guarded_eq_some hnext
      obtain rfl := h.eq_callbackThread (by rw [hphase]; decide : d.phase id ≠ .ended)
      exact threadExit_inOrder mixer h.others (h.running (by rw [hphase]; decide)) h.waits
        fun _ => by rw [hphase]; decide

theorem reachable_inOrder {d : Device} (h : system.Reachable Careful d) : InOrder d :=
  h.invariant (fun _ hstart => hstart ▸ opened_inOrder) fun _ _ _ hI hok hnext =>
    hI.next hok hnext

/-- The sections without the lock and behind it return no error. -/
theorem readThread_returned {d d' : Device} {caller : Nat} (h : readThread d caller = some d') :
    d'.returned = none := by
  unfold readThread at h
  split at h <;> cases h <;> rfl

theorem threadJoined_returned {d d' : Device} {caller : Nat} {mixer : Bool}
    (h : threadJoined d caller mixer = some d') {r : Int} (hr : d'.returned = some r) : r = 0 := by
  unfold threadJoined at h
  split at h
  · obtain ⟨-, rfl⟩ := guarded_eq_some h
    cases hr
    rfl
  · obtain ⟨-, rfl⟩ := guarded_eq_some h
    cases hr
  · cases h

/-- A refused call changes nothing but the power. -/
theorem refused_keeps {d d' : Device} {e : Event} (h : InOrder d) (hok : Careful d e)
    (hnext : next d e = some d') {r : Int} (hreturned : d'.returned = some r) (hr : r ≠ 0)
    (hactive : d.Active) :
    d'.power = true ∧ d'.recognitionCallback = true ∧ d'.pcm = .opened := by
  obtain ⟨hpower, hpcm⟩ := h.active hactive
  have hcb := hactive.2
  cases e with
  | load caller arguments loaded =>
      obtain ⟨hidle, rfl⟩ := guarded_eq_some hnext
      unfold loadSoundModel
      split
      · exact ⟨hpower, hcb, hpcm⟩
      · split
        · exact ⟨hpower, hcb, hpcm⟩
        · split <;> exact ⟨hpower, hcb, hpcm⟩
  | unload caller handle mixer =>
      obtain ⟨hidle, rfl⟩ := guarded_eq_some hnext
      unfold unloadSoundModel at hreturned
      split at hreturned
      · rename_i hhandle
        exact absurd hactive (hok.1 (.inl hhandle))
      · split at hreturned
        · rename_i hmodel
          exact absurd hactive (hok.1 (.inr hmodel))
        · cases hreturned
  | start caller handle config callback alloc mixer =>
      obtain ⟨hidle, rfl⟩ := guarded_eq_some hnext
      unfold startRecognition
      split
      · exact ⟨hpower, hcb, hpcm⟩
      · exact ⟨hpower, hcb, hpcm⟩
  | stop caller handle mixer =>
      obtain ⟨hidle, rfl⟩ := guarded_eq_some hnext
      unfold stopRecognition at hreturned
      split at hreturned
      · rename_i hmodel
        exact absurd hactive (hok hmodel)
      · rw [if_neg (by rw [hcb]; decide)] at hreturned
        cases hreturned
  | readThread caller =>
      rw [readThread_returned hnext] at hreturned
      cases hreturned
  | threadJoined caller mixer => exact absurd (threadJoined_returned hnext hreturned) hr
  | stopFinish caller mixer =>
      obtain ⟨-, rfl⟩ := guarded_eq_some hnext
      cases hreturned
      exact absurd rfl hr
  | closeForStreaming handle =>
      cases hnext
      unfold closeForStreaming at hreturned ⊢
      split at hreturned
      · rename_i hhandle
        rw [if_pos hhandle]
        exact ⟨hpower, hcb, hpcm⟩
      · cases hreturned
        exact absurd rfl hr
  | threadStart id o =>
      obtain ⟨-, rfl⟩ := guarded_eq_some hnext
      rw [threadStart_returned] at hreturned
      cases hreturned
  | threadWake id o =>
      obtain ⟨-, rfl⟩ := guarded_eq_some hnext
      rw [threadWake_returned] at hreturned
      cases hreturned
  | threadDelivered id mixer =>
      obtain ⟨-, rfl⟩ := guarded_eq_some hnext
      rw [threadExit_returned] at hreturned
      cases hreturned

/-- In every run whose steps are careful, with any number of callers, a call that returns an error
leaves an active recognition as it is, and after `stop` or `unload` has returned 0 nothing is
left of it. -/
theorem device_contract {d : Device} (h : system.Reachable Careful d) :
    ErrorsHarmless Careful d ∧ StoppedClean d := by
  have hI := reachable_inOrder h
  refine ⟨fun e d' r hok hnext hreturned hr hactive =>
    refused_keeps hI hok hnext hreturned hr hactive, fun hstopped => ?_⟩
  obtain ⟨hended, hpower, hpcm⟩ := hI.stopped hstopped
  refine ⟨fun id => ?_, hI.ended hended, hpower, hpcm⟩
  by_cases hid : id = d.callbackThread
  · rw [hid]
    exact hended
  · exact hI.others id hid

/-- Everything goes well. -/
def goodStartup : Startup := ⟨true, true, .opened, true, true, true⟩

/-- The thread finds input at the PCM. -/
def heard : Wakeup := ⟨false, true, false, true, true⟩

/-- The thread is told to end. -/
def told : Wakeup := ⟨false, false, true, true, true⟩

/-- A recognition that one caller starts and another one stops.  While this one waits, the first
makes calls that are refused. -/
theorem device_contract_stopped :
    ∃ d, system.Reachable Careful d ∧ d.stopped = true ∧
      ErrorsHarmless Careful d ∧ StoppedClean d := by
  have hload : system.Reachable Careful _ :=
    .step (.start rfl) (show Careful _ (.load 0 true 0) from trivial) rfl
  have hstart := hload.step
    (show Careful _ (.start 0 1 (some true) true true true) from
      ⟨rfl, fun _ caller => by cases caller <;> rfl⟩) rfl
  have hpolls := hstart.step (show Careful _ (.threadStart 0 goodStartup) from rfl) rfl
  have hstop := hpolls.step (show Careful _ (.stop 1 1 true) from fun h => absurd rfl h) rfl
  have hread := hstop.step (show Careful _ (.readThread 1) from trivial) rfl
  have hrefused := hread.step (show Careful _ (.load 0 true 0) from trivial) rfl
  have hagain := hrefused.step (show Careful _ (.stop 0 1 true) from fun h => absurd rfl h) rfl
  have hended := hagain.step (show Careful _ (.threadWake 0 told) from trivial) rfl
  have hjoined := hended.step (show Careful _ (.threadJoined 1 true) from fun _ _ => rfl) rfl
  have hdone := hjoined.step (show Careful _ (.stopFinish 1 true) from rfl) rfl
  exact ⟨_, hdone, rfl, device_contract hdone⟩

/-- An `unload` with a wrong handle turns the DSP off under a recognition that goes on; an
`unload` after the event was delivered returns 0 with the PCM open; and a `stop` returns 0 with
the thread of another caller's `start` there, which came while it waited. -/
theorem device_contract_broken :
    (∃ d, system.Reachable (fun _ _ => True) d ∧ ¬ ErrorsHarmless (fun _ _ => True) d) ∧
      (∃ d, system.Reachable (fun _ _ => True) d ∧ d.pcm = .opened ∧ ¬ StoppedClean d) ∧
      ∃ d, system.Reachable (fun _ _ => True) d ∧ d.phase 1 = .created ∧ ¬ StoppedClean d := by
  have hload : system.Reachable (fun _ _ => True) _ :=
    .step (.start rfl) (e := .load 0 true 0) trivial rfl
  have hstart := hload.step (e := .start 0 1 (some true) true true true) trivial rfl
  have hpolls := hstart.step (e := .threadStart 0 goodStartup) trivial rfl
  have hheard := hpolls.step (e := .threadWake 0 heard) trivial rfl
  have hended := hheard.step (e := .threadDelivered 0 true) trivial rfl
  have hunload := hended.step (e := .unload 0 1 true) trivial rfl
  have hstop := hpolls.step (e := .stop 1 1 true) trivial rfl
  have hread := hstop.step (e := .readThread 1) trivial rfl
  have hagain := hread.step (e := .start 0 1 (some true) true true true) trivial rfl
  have htold := hagain.step (e := .threadWake 0 told) trivial rfl
  have hjoined := htold.step (e := .threadJoined 1 true) trivial rfl
  have hdone := hjoined.step (e := .stopFinish 1 true) trivial rfl
  refine ⟨⟨_, hpolls, fun h => ?_⟩, ⟨_, hunload, rfl, fun h => ?_⟩,
    ⟨_, hdone, rfl, fun h => ?_⟩⟩
  · have hoff := (h (.unload 0 2 true) _ (-einval) trivial rfl rfl (by decide) ⟨rfl, rfl⟩).1
    cases hoff
  · exact (h rfl).2.2.2 rfl
  · cases (h rfl).1 1

end DragonDevice.SoundTrigger
