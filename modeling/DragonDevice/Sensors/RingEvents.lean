/-
  Sensors/RingEvents.lean --- the events of the sensor hub's ring and what the HAL makes
  of them: `processEvent` and `readEvents` of `cros_ec_sensors.cpp`.

  The caller's buffer is a memory addressed relative to the pointer it passed, so an
  address below it is an offset below zero.  Every write is logged.
-/
import Mathlib.Logic.Function.Basic
import Mathlib.Data.List.Basic

set_option autoImplicit false

namespace DragonDevice.Sensors

/-! ## Numbers of the platform -/

def einval : Int := 22
def enokey : Int := 126

/-- `IIO_MAX_BUFF_SIZE`, the entries of `mEvents`. -/
def iioMaxBuffSize : Nat := 4096

/-- `CROS_EC_MAX_PHYSICAL_SENSOR`, the handle of the first gesture. -/
def crosEcMaxPhysicalSensor : Int := 256

/-- `sizeof(cros_ec_event)`: two bytes, three axes and the time stamp, packed. -/
def crosEcEventSize : Nat := 16

/-- `sizeof(sensors_event_t)`, the version of a data event. -/
def sensorsEventSize : Int := 104

def metaDataFlushComplete : Nat := 1
def metaDataVersion : Int := 2

def sensorTypeMetaData : Int := 0
def sensorTypeAccelerometer : Int := 1
def sensorTypeMagneticField : Int := 2
def sensorTypeGyroscope : Int := 4
def sensorTypeLight : Int := 5
def sensorTypeProximity : Int := 8

def sensorStatusAccuracyLow : BitVec 32 := 1
def sensorFlagOneShotMode : Nat := 4

/-- `CROS_EC_EVENT_FLUSH_FLAG`. -/
def crosEcEventFlushFlag : Nat := 1

/-- Single precision on bit patterns.  Nothing below depends on how it rounds. -/
structure Floats where
  ofInt : Int → BitVec 32
  mul : BitVec 32 → BitVec 32 → BitVec 32

/-! ## Data -/

/-- `cros_ec_event`.  The activity and its state are the two bytes of the first axis. -/
structure CrosEcEvent where
  sensorId : BitVec 8
  flags : BitVec 8
  vector : Nat → BitVec 16
  timestamp : Int

namespace CrosEcEvent

def activity (event : CrosEcEvent) : Nat := (event.vector 0).toNat % 256

def state (event : CrosEcEvent) : Nat := (event.vector 0).toNat / 256

end CrosEcEvent

/-- `sensors_event_t`.  The payload is the union's array of 32-bit words. -/
structure SensorsEvent where
  version : Int
  sensor : Int
  type : Int
  reserved0 : Int
  timestamp : Int
  word : Nat → BitVec 32

instance : Inhabited SensorsEvent := ⟨⟨0, 0, 0, 0, 0, fun _ => 0⟩⟩

/-- Enumeration `cros_ec_sensor_device`. -/
inductive CrosEcSensorDevice where
  | accel
  | gyro
  | mag
  | prox
  | light
  | activity
  | ring
  deriving DecidableEq, Repr

/-- `cros_ec_sensor_info`, as far as an event reads it. -/
structure SensorInfo where
  dataType : Int
  resolution : BitVec 32
  device : CrosEcSensorDevice
  enabled : Bool

/-- `cros_ec_gesture_info`, as far as an event reads it. -/
structure GestureInfo where
  dataType : Int
  flags : Nat
  enabled : Bool

/-- The tables of a `CrosECSensor`. -/
structure Hub where
  sensorInfo : List SensorInfo
  gestureInfo : List GestureInfo

/-- An entry of the ring and the time of the clock when it is looked at. -/
structure Arrival where
  event : CrosEcEvent
  now : Int

/-! ## processEvent -/

/-- What `processEvent` returns and leaves: the tables, and the slot if any field of it
was written. -/
structure Processed where
  rc : Int
  hub : Hub
  slot : Option SensorsEvent

/-- The report of a completed flush. -/
def flushReport (event : CrosEcEvent) (slot : SensorsEvent) : SensorsEvent where
  version := metaDataVersion
  sensor := 0
  type := sensorTypeMetaData
  reserved0 := 0
  timestamp := 0
  word := Function.update
    (Function.update slot.word 0 (BitVec.ofNat 32 metaDataFlushComplete))
    1 (event.sensorId.setWidth 32)

/-- The report of a gesture. -/
def gestureReport (fl : Floats) (gesture : GestureInfo) (arrival : Arrival)
    (slot : SensorsEvent) : SensorsEvent where
  version := sensorsEventSize
  sensor := crosEcMaxPhysicalSensor + arrival.event.activity
  type := gesture.dataType
  reserved0 := slot.reserved0
  timestamp := arrival.now
  word := Function.update slot.word 0 (fl.ofInt arrival.event.state)

/-- The fields of a data event that are written before the axes.  The status is the low
byte of the word behind them. -/
def dataHeader (info : SensorInfo) (event : CrosEcEvent) (slot : SensorsEvent) :
    SensorsEvent where
  version := sensorsEventSize
  sensor := event.sensorId.toNat
  type := info.dataType
  reserved0 := slot.reserved0
  timestamp := event.timestamp
  word := Function.update slot.word 3
    ((slot.word 3 &&& ~~~(255#32)) ||| sensorStatusAccuracyLow)

/-- The value of an axis by the sensor's type, which is signed or not; other types have
none. -/
def axisValue (type : Int) (axis : BitVec 16) : Option Int :=
  if type = sensorTypeAccelerometer ∨ type = sensorTypeGyroscope ∨
      type = sensorTypeMagneticField then
    some axis.toInt
  else if type = sensorTypeLight ∨ type = sensorTypeProximity then
    some axis.toNat
  else
    none

/-- The loop over the axes, with the result of the function it ends. -/
def writeAxes (fl : Floats) (info : SensorInfo) (event : CrosEcEvent) :
    List Nat → SensorsEvent → Int × SensorsEvent
  | [], slot => (0, slot)
  | i :: axes, slot =>
      match axisValue info.dataType (event.vector i) with
      | none => (-einval, slot)
      | some d =>
          writeAxes fl info event axes
            { slot with
              word := Function.update slot.word i (fl.mul (fl.ofInt d) info.resolution) }

def processActivity (fl : Floats) (hub : Hub) (arrival : Arrival) (slot : SensorsEvent) :
    Processed :=
  match hub.gestureInfo[arrival.event.activity]? with
  | none => ⟨-enokey, hub, none⟩
  | some gesture =>
      if gesture.enabled = false then
        ⟨-enokey, hub, none⟩
      else
        { rc := 0
          hub :=
            if gesture.flags &&& sensorFlagOneShotMode ≠ 0 then
              { hub with
                gestureInfo := hub.gestureInfo.set arrival.event.activity
                  { gesture with enabled := false } }
            else
              hub
          slot := some (gestureReport fl gesture arrival slot) }

def processData (fl : Floats) (hub : Hub) (info : SensorInfo) (event : CrosEcEvent)
    (slot : SensorsEvent) : Processed :=
  if info.enabled = false then
    ⟨-enokey, hub, none⟩
  else
    let axes := writeAxes fl info event [0, 1, 2] (dataHeader info event slot)
    ⟨axes.1, hub, some axes.2⟩

/-- `CrosECSensor::processEvent`. -/
def processEvent (fl : Floats) (hub : Hub) (arrival : Arrival) (slot : SensorsEvent) :
    Processed :=
  if arrival.event.flags.toNat &&& crosEcEventFlushFlag ≠ 0 then
    ⟨0, hub, some (flushReport arrival.event slot)⟩
  else
    match hub.sensorInfo[arrival.event.sensorId.toNat]? with
    | none => ⟨-einval, hub, none⟩
    | some info =>
        if info.device = .activity then
          processActivity fl hub arrival slot
        else
          processData fl hub info arrival.event slot

/-- The result of the axis loop does not depend on the slot. -/
theorem writeAxes_rc (fl : Floats) (info : SensorInfo) (event : CrosEcEvent)
    (axes : List Nat) (slot slot' : SensorsEvent) :
    (writeAxes fl info event axes slot).1 = (writeAxes fl info event axes slot').1 := by
  induction axes generalizing slot slot' with
  | nil => rfl
  | cons i axes ih =>
      unfold writeAxes
      cases axisValue info.dataType (event.vector i) with
      | none => rfl
      | some d => exact ih _ _

/-- Whether an event is accepted, and what it does to the tables, does not depend on what
the slot held. -/
theorem processEvent_slot_irrel (fl : Floats) (hub : Hub) (arrival : Arrival)
    (slot slot' : SensorsEvent) :
    (processEvent fl hub arrival slot).rc = (processEvent fl hub arrival slot').rc ∧
      (processEvent fl hub arrival slot).hub = (processEvent fl hub arrival slot').hub := by
  unfold processEvent
  split
  · exact ⟨rfl, rfl⟩
  · cases hub.sensorInfo[arrival.event.sensorId.toNat]? with
    | none => exact ⟨rfl, rfl⟩
    | some info =>
        dsimp only
        split
        · unfold processActivity
          cases hub.gestureInfo[arrival.event.activity]? with
          | none => exact ⟨rfl, rfl⟩
          | some gesture =>
              dsimp only
              split <;> exact ⟨rfl, rfl⟩
        · unfold processData
          split
          · exact ⟨rfl, rfl⟩
          · exact ⟨writeAxes_rc _ _ _ _ _ _, rfl⟩

/-- An accepted event has been written. -/
theorem processEvent_writes {fl : Floats} {hub : Hub} {arrival : Arrival}
    {slot : SensorsEvent} (h : (processEvent fl hub arrival slot).rc = 0) :
    ∃ slot', (processEvent fl hub arrival slot).slot = some slot' := by
  unfold processEvent at h ⊢
  split
  · exact ⟨_, rfl⟩
  · rename_i hflags
    rw [if_neg hflags] at h
    cases hinfo : hub.sensorInfo[arrival.event.sensorId.toNat]? with
    | none =>
        rw [hinfo] at h
        cases h
    | some info =>
        rw [hinfo] at h
        dsimp only at h ⊢
        split
        · rename_i hdev
          rw [if_pos hdev] at h
          unfold processActivity at h ⊢
          cases hgest : hub.gestureInfo[arrival.event.activity]? with
          | none =>
              rw [hgest] at h
              cases h
          | some gesture =>
              rw [hgest] at h
              dsimp only at h ⊢
              split
              · rename_i hen
                rw [if_pos hen] at h
                cases h
              · exact ⟨_, rfl⟩
        · rename_i hdev
          rw [if_neg hdev] at h
          unfold processData at h ⊢
          split
          · rename_i hen
            rw [if_pos hen] at h
            cases h
          · exact ⟨_, rfl⟩

/-! ## What the ring reported -/

/-- The arrivals that are accepted, each with the tables it is looked at with. -/
def accepted (fl : Floats) : Hub → List Arrival → List (Hub × Arrival)
  | _, [] => []
  | hub, arrival :: rest =>
      let r := processEvent fl hub arrival default
      if r.rc = 0 then
        (hub, arrival) :: accepted fl r.hub rest
      else
        accepted fl r.hub rest

/-- The tables after a list of arrivals. -/
def hubAfter (fl : Floats) (hub : Hub) (arrivals : List Arrival) : Hub :=
  arrivals.foldl (fun hub arrival => (processEvent fl hub arrival default).hub) hub

theorem accepted_cons (fl : Floats) (hub : Hub) (arrival : Arrival) (rest : List Arrival) :
    accepted fl hub (arrival :: rest) =
      if (processEvent fl hub arrival default).rc = 0 then
        (hub, arrival) :: accepted fl (processEvent fl hub arrival default).hub rest
      else
        accepted fl (processEvent fl hub arrival default).hub rest := rfl

theorem accepted_append (fl : Floats) (hub : Hub) (l l' : List Arrival) :
    accepted fl hub (l ++ l') = accepted fl hub l ++ accepted fl (hubAfter fl hub l) l' := by
  induction l generalizing hub with
  | nil => rfl
  | cons arrival l ih =>
      rw [List.cons_append, accepted_cons, accepted_cons, ih]
      split
      · rfl
      · rfl

theorem hubAfter_append (fl : Floats) (hub : Hub) (l l' : List Arrival) :
    hubAfter fl hub (l ++ l') = hubAfter fl (hubAfter fl hub l) l' :=
  List.foldl_append

theorem accepted_length_le (fl : Floats) (hub : Hub) (l : List Arrival) :
    (accepted fl hub l).length ≤ l.length := by
  induction l generalizing hub with
  | nil => exact Nat.le_refl 0
  | cons arrival l ih =>
      rw [accepted_cons]
      have hrest := ih (processEvent fl hub arrival default).hub
      split
      · rw [List.length_cons, List.length_cons]
        omega
      · rw [List.length_cons]
        omega

/-- The slot holds the report of an event: it is what `processEvent` makes of some
content of the slot. -/
def Holds (fl : Floats) (entry : Hub × Arrival) (slot : SensorsEvent) : Prop :=
  ∃ before, (processEvent fl entry.1 entry.2 before).slot = some slot

/-! ## readEvents -/

/-- A write of the call: a slot relative to the caller's pointer, or the first entries of
`mEvents`. -/
inductive Write where
  | slot (offset : Int)
  | ring (entries : Nat)
  deriving DecidableEq, Repr

/-- The memory a call works on. -/
structure Memory where
  hub : Hub
  data : Int → SensorsEvent
  writes : List Write

/-- What `read` on the ring device gives: an error, a number of bytes that is not a number
of events, or events. -/
inductive RingRead where
  | failed
  | incomplete (bytes : Nat)
  | events (arrivals : List Arrival)

namespace RingRead

/-- `read` gives at most what was asked for. -/
def fits (count : Int) : RingRead → Bool
  | failed => true
  | incomplete bytes =>
      decide (bytes % crosEcEventSize ≠ 0 ∧ (bytes : Int) ≤ crosEcEventSize * count)
  | events arrivals => decide ((arrivals.length : Int) ≤ count)

/-- The events it brought. -/
def arrivals : RingRead → List Arrival
  | failed => []
  | incomplete _ => []
  | events arrivals => arrivals

end RingRead

/-- One turn of the loop of `readEvents`: the event is processed into the slot that
`data` points to. -/
def processAt (fl : Floats) (mem : Memory) (data : Int) (arrival : Arrival) : Int × Memory :=
  let r := processEvent fl mem.hub arrival (mem.data data)
  match r.slot with
  | none => (r.rc, { mem with hub := r.hub })
  | some slot =>
      (r.rc,
        { hub := r.hub
          data := Function.update mem.data data slot
          writes := mem.writes ++ [.slot data] })

/-- The loop of `readEvents`, from the slot `data` points to.  It gives the number of
events that were accepted. -/
def processAll (fl : Floats) : List Arrival → Int → Memory → Int × Memory
  | [], _, mem => (0, mem)
  | arrival :: rest, data, mem =>
      let r := processAt fl mem data arrival
      if r.1 = 0 then
        let s := processAll fl rest (data + 1) r.2
        (s.1 + 1, s.2)
      else
        processAll fl rest data r.2

/-- What the loop leaves when it starts at the slot `data`: the reports from there on, in
the order of the ring, nothing changed below, and no write outside the slots that the
number of events allows. -/
structure ProcessesAll (fl : Floats) (arrivals : List Arrival) (data : Int) (mem : Memory)
    (r : Int × Memory) : Prop where
  count : r.1 = (accepted fl mem.hub arrivals).length
  hub : r.2.hub = hubAfter fl mem.hub arrivals
  below : ∀ i, i < data → r.2.data i = mem.data i
  holds : ∀ (i : Nat) (entry : Hub × Arrival),
    (accepted fl mem.hub arrivals)[i]? = some entry → Holds fl entry (r.2.data (data + i))
  keeps : ∀ w ∈ mem.writes, w ∈ r.2.writes
  confined : ∀ w ∈ r.2.writes, w ∈ mem.writes ∨
    ∃ offset, w = .slot offset ∧ data ≤ offset ∧ offset < data + arrivals.length

/-- One turn: the result and the tables are those of the event, other slots stay, and only
the slot itself is written. -/
theorem processAt_spec (fl : Floats) (mem : Memory) (data : Int) (arrival : Arrival) :
    (processAt fl mem data arrival).1 = (processEvent fl mem.hub arrival default).rc ∧
      (processAt fl mem data arrival).2.hub =
        (processEvent fl mem.hub arrival default).hub ∧
      (∀ i, i ≠ data → (processAt fl mem data arrival).2.data i = mem.data i) ∧
      (∀ w, w ∈ (processAt fl mem data arrival).2.writes →
        w ∈ mem.writes ∨ w = .slot data) ∧
      (∀ w ∈ mem.writes, w ∈ (processAt fl mem data arrival).2.writes) := by
  obtain ⟨hrc, hhub⟩ := processEvent_slot_irrel fl mem.hub arrival (mem.data data) default
  unfold processAt
  dsimp only
  cases hslot : (processEvent fl mem.hub arrival (mem.data data)).slot with
  | none =>
      exact ⟨hrc, hhub, fun _ _ => rfl, fun w hw => .inl hw, fun w hw => hw⟩
  | some slot =>
      refine ⟨hrc, hhub, fun i hi => Function.update_of_ne hi _ _, fun w hw => ?_,
        fun w hw => List.mem_append_left _ hw⟩
      rcases List.mem_append.mp hw with hold | hnew
      · exact .inl hold
      · exact .inr (List.mem_singleton.mp hnew)

/-- The slot of an accepted event holds its report. -/
theorem processAt_holds {fl : Floats} {mem : Memory} {data : Int} {arrival : Arrival}
    (h : (processAt fl mem data arrival).1 = 0) :
    Holds fl (mem.hub, arrival) ((processAt fl mem data arrival).2.data data) := by
  have hrc : (processEvent fl mem.hub arrival (mem.data data)).rc = 0 := by
    rw [(processEvent_slot_irrel fl mem.hub arrival (mem.data data) default).1,
      ← (processAt_spec fl mem data arrival).1]
    exact h
  obtain ⟨slot, hslot⟩ := processEvent_writes hrc
  refine ⟨mem.data data, ?_⟩
  unfold processAt
  dsimp only
  rw [hslot]
  dsimp only
  rw [Function.update_self]

theorem processAll_spec (fl : Floats) (arrivals : List Arrival) (data : Int) (mem : Memory) :
    ProcessesAll fl arrivals data mem (processAll fl arrivals data mem) := by
  induction arrivals generalizing data mem with
  | nil =>
      refine ⟨rfl, rfl, fun _ _ => rfl, fun i entry h => ?_, fun w hw => hw,
        fun w hw => .inl hw⟩
      cases h
  | cons arrival rest ih =>
      obtain ⟨hrc, hhub, hother, hwrites, hkeeps⟩ := processAt_spec fl mem data arrival
      unfold processAll
      dsimp only
      by_cases hzero : (processAt fl mem data arrival).1 = 0
      · -- accepted: the rest goes to the next slots, which leaves this one alone
        rw [if_pos hzero]
        have hrest := ih (data + 1) (processAt fl mem data arrival).2
        have hacc : accepted fl mem.hub (arrival :: rest) =
            (mem.hub, arrival) ::
              accepted fl (processAt fl mem data arrival).2.hub rest := by
          rw [accepted_cons, if_pos (hrc ▸ hzero), hhub]
        refine ⟨?_, ?_, ?_, ?_, ?_, ?_⟩
        · rw [hacc, hrest.count, List.length_cons]
          push_cast
          rfl
        · rw [hrest.hub, hhub]
          rfl
        · intro i hi
          rw [hrest.below i (by omega), hother i (by omega)]
        · intro i entry hentry
          rw [hacc] at hentry
          cases i with
          | zero =>
              cases hentry
              rw [Int.natCast_zero, Int.add_zero, hrest.below data (by omega)]
              exact processAt_holds hzero
          | succ i =>
              have h := hrest.holds i entry hentry
              rw [show data + ((i + 1 : Nat) : Int) = data + 1 + (i : Int) by omega]
              exact h
        · intro w hw
          exact hrest.keeps w (hkeeps w hw)
        · intro w hw
          rcases hrest.confined w hw with hold | ⟨offset, rfl, hlo, hhi⟩
          · rcases hwrites w hold with hold | rfl
            · exact .inl hold
            · refine .inr ⟨data, rfl, by omega, ?_⟩
              rw [List.length_cons]
              omega
          · refine .inr ⟨offset, rfl, by omega, ?_⟩
            rw [List.length_cons]
            omega
      · -- rejected: the rest starts at this slot again
        rw [if_neg hzero]
        have hrest := ih data (processAt fl mem data arrival).2
        have hacc : accepted fl mem.hub (arrival :: rest) =
            accepted fl (processAt fl mem data arrival).2.hub rest := by
          rw [accepted_cons, if_neg (hrc ▸ hzero), hhub]
        refine ⟨?_, ?_, ?_, ?_, ?_, ?_⟩
        · rw [hacc, hrest.count]
        · rw [hrest.hub, hhub]
          rfl
        · intro i hi
          rw [hrest.below i hi, hother i (by omega)]
        · intro i entry hentry
          rw [hacc] at hentry
          exact hrest.holds i entry hentry
        · intro w hw
          exact hrest.keeps w (hkeeps w hw)
        · intro w hw
          rcases hrest.confined w hw with hold | ⟨offset, rfl, hlo, hhi⟩
          · rcases hwrites w hold with hold | rfl
            · exact .inl hold
            · refine .inr ⟨data, rfl, by omega, ?_⟩
              rw [List.length_cons]
              omega
          · refine .inr ⟨offset, rfl, by omega, ?_⟩
            rw [List.length_cons]
            omega

/-- `CrosECSensor::readEvents`. -/
def readEvents (fl : Floats) (mem : Memory) (data count : Int) (result : RingRead) :
    Int × Memory :=
  if count < 1 then
    (-einval, mem)
  else
    match result with
    | .failed => (-1, mem)
    | .incomplete bytes =>
        (-einval, { mem with writes := mem.writes ++ [.ring (bytes / crosEcEventSize + 1)] })
    | .events arrivals =>
        processAll fl arrivals data
          { mem with writes := mem.writes ++ [.ring arrivals.length] }

end DragonDevice.Sensors
