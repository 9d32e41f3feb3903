/-
  Sensors/Batch.lean --- the rates of the physical sensors: `activate` and `batch` of
  `cros_ec_sensors.cpp`.

  Periods and latencies are nanoseconds in 64 bits, the delays of a sensor are microseconds,
  and what goes to the embedded controller is milliseconds.  The two helpers `max` and `min`
  take 32-bit integers, so what they compare is not always what was passed.
-/
import Mathlib.Algebra.Ring.Int.Defs
import DragonDevice.Sensors.RingEvents

set_option autoImplicit false

namespace DragonDevice.Sensors

/-! ## Numbers -/

/-- The conversion of a 64-bit integer to `int`. -/
def toInt32 (x : Int) : Int := (x + 2 ^ 31) % 2 ^ 32 - 2 ^ 31

/-- `max` of `cros_ec_sensors.cpp`. -/
def max32 (a b : Int) : Int := if toInt32 a > toInt32 b then toInt32 a else toInt32 b

/-- `min` of `cros_ec_sensors.cpp`. -/
def min32 (a b : Int) : Int := if toInt32 a < toInt32 b then toInt32 a else toInt32 b

def nanosecondsToMicroseconds (ns : Int) : Int := ns.tdiv 1000

def microsecondsToNanoseconds (us : Int) : Int := us * 1000

def nanosecondsToMilliseconds (ns : Int) : Int := ns.tdiv 1000000

/-- `CROS_EC_MAX_SAMPLING_PERIOD`. -/
def crosEcMaxSamplingPeriod : Int := 2 ^ 16 - 2

/-! ## Sensors -/

/-- The delays of a `sensor_t`, in microseconds. -/
structure SensorDelays where
  minDelay : Int
  maxDelay : Int
  deriving DecidableEq, Repr

/-- `sSensorListTemplate`, as far as `batch` reads it. -/
def sSensorListTemplate : CrosEcSensorDevice → Option SensorDelays
  | .accel => some ⟨5000, 80000⟩
  | .gyro => some ⟨5000, 80000⟩
  | .mag => some ⟨40000, 200000⟩
  | .prox => some ⟨20000, 10000000⟩
  | .light => some ⟨20000, 10000000⟩
  | .activity => none
  | .ring => none

/-- `cros_ec_sensor_info`, as far as the rates read it. -/
structure SensorRate where
  sensorData : SensorDelays
  samplingPeriodNs : Int
  maxReportLatencyNs : Int
  enabled : Bool
  deriving DecidableEq, Repr

/-- `cros_ec_gesture_info`, as far as `activate` reads it. -/
structure GestureSwitch where
  enableEntry : String
  enabled : Bool
  deriving DecidableEq, Repr

/-- The tables of a `CrosECSensor`. -/
structure RateTables where
  sensorInfo : List SensorRate
  gestureInfo : List GestureSwitch
  deriving DecidableEq, Repr

/-- What the functions ask of their surroundings: the quotient of `1e12` and a period, which
is computed in floating point, and the result of writing an attribute. -/
structure Sysfs where
  frequency : Int → Int
  write : String → Int → Int

/-- The result of a call, the tables after it and the attributes it wrote. -/
structure RateCall where
  err : Int
  tables : RateTables
  writes : List (String × Int)
  deriving DecidableEq, Repr

/-! ## activate and batch -/

/-- `ec_period`, for a latency. -/
def ecPeriod (maxReportLatencyNs enabled : Int) : Int :=
  if enabled ≠ 0 then
    min32 crosEcMaxSamplingPeriod (nanosecondsToMilliseconds maxReportLatencyNs)
  else 0

/-- `activate`; a handle behind the tables has no result. -/
def activate (sys : Sysfs) (tables : RateTables) (handle : Nat) (enabled : Int) :
    Option RateCall :=
  if (handle : Int) < crosEcMaxPhysicalSensor then
    match tables.sensorInfo[handle]? with
    | none => none
    | some info =>
        let frequency := toInt32 (if enabled ≠ 0 then sys.frequency info.samplingPeriodNs else 0)
        let err := sys.write "frequency" frequency
        if err ≠ 0 then some ⟨err, tables, [("frequency", frequency)]⟩
        else
          let period := ecPeriod info.maxReportLatencyNs enabled
          let err := sys.write "sampling_frequency" period
          let info := if err = 0 then { info with enabled := enabled != 0 } else info
          some ⟨err, { tables with sensorInfo := tables.sensorInfo.set handle info },
            [("frequency", frequency), ("sampling_frequency", period)]⟩
  else
    let index := handle - crosEcMaxPhysicalSensor.toNat
    match tables.gestureInfo[index]? with
    | none => none
    | some info =>
        let attr := "events/" ++ info.enableEntry
        let err := sys.write attr enabled
        let info := if err = 0 then { info with enabled := enabled != 0 } else info
        some ⟨err, { tables with gestureInfo := tables.gestureInfo.set index info },
          [(attr, enabled)]⟩

/-- The stored sampling period. -/
def batchPeriod (delays : SensorDelays) (samplingPeriodNs : Int) : Int :=
  if nanosecondsToMicroseconds samplingPeriodNs > delays.maxDelay then
    microsecondsToNanoseconds delays.maxDelay
  else if nanosecondsToMicroseconds samplingPeriodNs < delays.minDelay then
    microsecondsToNanoseconds delays.minDelay
  else samplingPeriodNs

/-- The stored latency. -/
def batchLatency (samplingPeriodNs storedPeriodNs maxReportLatencyNs : Int) : Int :=
  if maxReportLatencyNs < max32 samplingPeriodNs storedPeriodNs then
    max32 samplingPeriodNs storedPeriodNs
  else maxReportLatencyNs

/-- `batch`. -/
def batch (sys : Sysfs) (tables : RateTables) (handle : Nat)
    (samplingPeriodNs maxReportLatencyNs : Int) : Option RateCall :=
  if (handle : Int) < crosEcMaxPhysicalSensor then
    match tables.sensorInfo[handle]? with
    | none => none
    | some info =>
        let period := batchPeriod info.sensorData samplingPeriodNs
        let info := { info with
          samplingPeriodNs := period
          maxReportLatencyNs := batchLatency samplingPeriodNs period maxReportLatencyNs }
        activate sys { tables with sensorInfo := tables.sensorInfo.set handle info } handle
          (if info.enabled then 1 else 0)
  else some ⟨0, tables, []⟩

/-! ## The property and the condition -/

/-- A positive number of milliseconds in 16 bits. -/
def PeriodFits (v : Int) : Prop := 0 < v ∧ v < 2 ^ 16

/-- What `batch` has to leave behind: the period is in the range of the sensor, the latency is
no smaller, and whatever is written for the enabled sensor, then or by a later `activate`,
fits. -/
structure BatchLeaves (enabled : Bool) (handle : Nat) (r : RateCall) (info : SensorRate) :
    Prop where
  period : microsecondsToNanoseconds info.sensorData.minDelay ≤ info.samplingPeriodNs ∧
    info.samplingPeriodNs ≤ microsecondsToNanoseconds info.sensorData.maxDelay
  latency : info.samplingPeriodNs ≤ info.maxReportLatencyNs
  written : enabled = true → ∀ v, ("sampling_frequency", v) ∈ r.writes → PeriodFits v
  activated : ∀ sys on r', on ≠ 0 → activate sys r.tables handle on = some r' →
    ∀ v, ("sampling_frequency", v) ∈ r'.writes → PeriodFits v

def BatchMeets (tables : RateTables) (handle : Nat) (info : SensorRate)
    (samplingPeriodNs maxReportLatencyNs : Int) : Prop :=
  ∀ sys, ∃ r info', batch sys tables handle samplingPeriodNs maxReportLatencyNs = some r ∧
    r.tables.sensorInfo[handle]? = some info' ∧ info'.sensorData = info.sensorData ∧
    BatchLeaves info.enabled handle r info'

/-- The requests that are served as they should be. -/
structure BatchSafe (delays : SensorDelays) (samplingPeriodNs maxReportLatencyNs : Int) :
    Prop where
  /-- the period is not less than a microsecond above the largest one -/
  period : samplingPeriodNs ≤ delays.maxDelay * 1000 ∨
    delays.maxDelay * 1000 + 1000 ≤ samplingPeriodNs
  /-- the period fits 32 bits, or the latency is no smaller -/
  latency : min samplingPeriodNs (delays.maxDelay * 1000) < 2 ^ 31 ∨
    min samplingPeriodNs (delays.maxDelay * 1000) ≤ maxReportLatencyNs
  /-- the latency fits 32 bits, or its milliseconds are positive when they are cut to 32 -/
  millis : maxReportLatencyNs < 2 ^ 31 ∨
    (0 < maxReportLatencyNs / 1000000 % 2 ^ 32 ∧ maxReportLatencyNs / 1000000 % 2 ^ 32 < 2 ^ 31)

/-! ## The arithmetic -/

/-- The delays of a sensor that can be served: at least a millisecond, and the smaller one in
32 bits of nanoseconds. -/
structure SensorDelays.Valid (delays : SensorDelays) : Prop where
  millisecond : 1000 ≤ delays.minDelay
  ordered : delays.minDelay ≤ delays.maxDelay
  fits : delays.minDelay * 1000 < 2 ^ 31

/-- The delays of every sensor of the template. -/
theorem template_valid {device : CrosEcSensorDevice} {delays : SensorDelays}
    (h : sSensorListTemplate device = some delays) : delays.Valid := by
  cases device with
  | accel | gyro | mag | prox | light =>
      cases h
      exact ⟨by decide, by decide, by decide⟩
  | activity | ring => cases h

theorem nanosecondsToMicroseconds_lt {ns k : Int} (hk : 0 < k) :
    nanosecondsToMicroseconds ns < k ↔ ns < k * 1000 := by
  rw [nanosecondsToMicroseconds, Int.tdiv_eq_ediv]
  split
  · omega
  · have hsign : Int.sign 1000 = 1 := rfl
    omega

theorem lt_nanosecondsToMicroseconds {ns k : Int} (hk : 0 ≤ k) :
    k < nanosecondsToMicroseconds ns ↔ k * 1000 + 1000 ≤ ns := by
  rw [nanosecondsToMicroseconds, Int.tdiv_eq_ediv]
  split
  · omega
  · have hsign : Int.sign 1000 = 1 := rfl
    omega

variable {delays : SensorDelays} {ns latency : Int}

/-- The stored period in the terms of the request. -/
theorem batchPeriod_eq (hvalid : delays.Valid) :
    batchPeriod delays ns =
      if delays.maxDelay * 1000 + 1000 ≤ ns then delays.maxDelay * 1000
      else if ns < delays.minDelay * 1000 then delays.minDelay * 1000 else ns := by
  have hmin := hvalid.millisecond
  have hmax := hvalid.ordered
  simp only [batchPeriod, microsecondsToNanoseconds, gt_iff_lt,
    lt_nanosecondsToMicroseconds (show 0 ≤ delays.maxDelay by omega),
    nanosecondsToMicroseconds_lt (show 0 < delays.minDelay by omega)]

theorem batchPeriod_range_iff (hvalid : delays.Valid) :
    (delays.minDelay * 1000 ≤ batchPeriod delays ns ∧
        batchPeriod delays ns ≤ delays.maxDelay * 1000) ↔
      (ns ≤ delays.maxDelay * 1000 ∨ delays.maxDelay * 1000 + 1000 ≤ ns) := by
  have hmax := hvalid.ordered
  rw [batchPeriod_eq hvalid]
  split
  · omega
  · split
    · omega
    · omega

/-- A period in the range is the request clamped to it. -/
theorem batchPeriod_clamped (hvalid : delays.Valid)
    (hperiod : ns ≤ delays.maxDelay * 1000 ∨ delays.maxDelay * 1000 + 1000 ≤ ns) :
    batchPeriod delays ns = max (delays.minDelay * 1000) (min ns (delays.maxDelay * 1000)) := by
  have hmax := hvalid.ordered
  rw [batchPeriod_eq hvalid]
  split
  · omega
  · split
    · omega
    · omega

theorem toInt32_lt (x : Int) : toInt32 x < 2 ^ 31 := by
  unfold toInt32
  omega

theorem toInt32_of_fits {x : Int} (hlow : 0 ≤ x) (hhigh : x < 2 ^ 31) : toInt32 x = x := by
  unfold toInt32
  omega

theorem max32_lt (a b : Int) : max32 a b < 2 ^ 31 := by
  unfold max32
  split
  · exact toInt32_lt a
  · exact toInt32_lt b

theorem toInt32_le_max32 (a b : Int) : toInt32 b ≤ max32 a b := by
  unfold max32
  split
  · omega
  · exact Int.le_refl _

/-- The comparison of the latency is one of 32-bit periods. -/
theorem batchLatency_eq (ns period latency : Int) :
    batchLatency ns period latency = max latency (max32 ns period) := by
  unfold batchLatency
  split
  · omega
  · omega

/-- A latency below the period is only raised to a period of 32 bits. -/
theorem le_batchLatency_iff {period : Int} (hperiod : 0 ≤ period) :
    period ≤ batchLatency ns period latency ↔ period < 2 ^ 31 ∨ period ≤ latency := by
  have hlt := max32_lt ns period
  rw [batchLatency_eq]
  constructor
  · omega
  · intro h
    cases h with
    | inl hfits =>
        have hle := toInt32_le_max32 ns period
        rw [toInt32_of_fits hperiod hfits] at hle
        omega
    | inr hle => omega

/-- The milliseconds that are written are cut to 32 bits. -/
theorem periodFits_iff {on : Int} (hon : on ≠ 0) (hlatency : 0 ≤ latency) :
    PeriodFits (ecPeriod latency on) ↔
      0 < latency / 1000000 % 2 ^ 32 ∧ latency / 1000000 % 2 ^ 32 < 2 ^ 31 := by
  rw [ecPeriod, if_pos hon, PeriodFits, min32, nanosecondsToMilliseconds,
    Int.tdiv_eq_ediv_of_nonneg hlatency]
  unfold toInt32 crosEcMaxSamplingPeriod
  split
  · omega
  · omega

/-- What `batch` stores is right exactly for the safe requests. -/
theorem batchSafe_iff (hvalid : delays.Valid) {on : Int} (hon : on ≠ 0) (hlatency : 0 ≤ latency) :
    ((delays.minDelay * 1000 ≤ batchPeriod delays ns ∧
          batchPeriod delays ns ≤ delays.maxDelay * 1000) ∧
        batchPeriod delays ns ≤ batchLatency ns (batchPeriod delays ns) latency ∧
        PeriodFits (ecPeriod (batchLatency ns (batchPeriod delays ns) latency) on)) ↔
      BatchSafe delays ns latency := by
  have hmin := hvalid.millisecond
  have hfits := hvalid.fits
  by_cases hperiod : ns ≤ delays.maxDelay * 1000 ∨ delays.maxDelay * 1000 + 1000 ≤ ns
  · have hrange := (batchPeriod_range_iff hvalid).mpr hperiod
    have hclamped := batchPeriod_clamped hvalid hperiod
    have hpos : 0 ≤ batchPeriod delays ns := by omega
    have hmax := max32_lt ns (batchPeriod delays ns)
    have hraised := batchLatency_eq ns (batchPeriod delays ns) latency
    have hle : 0 ≤ batchLatency ns (batchPeriod delays ns) latency := by omega
    rw [le_batchLatency_iff hpos, periodFits_iff hon hle]
    constructor
    · intro h
      obtain ⟨_, hperiod', hmillis⟩ := h
      refine ⟨hperiod, by omega, ?_⟩
      by_cases hbig : latency < 2 ^ 31
      · exact Or.inl hbig
      · rw [show batchLatency ns (batchPeriod delays ns) latency = latency by omega] at hmillis
        exact Or.inr hmillis
    · intro h
      have hsafe := h.latency
      refine ⟨hrange, by omega, ?_⟩
      cases h.millis with
      | inl hsmall =>
          have hstored := toInt32_le_max32 ns (batchPeriod delays ns)
          rw [toInt32_of_fits hpos (by omega)] at hstored
          omega
      | inr hmillis =>
          by_cases hbig : latency < 2 ^ 31
          · have hstored := toInt32_le_max32 ns (batchPeriod delays ns)
            rw [toInt32_of_fits hpos (by omega)] at hstored
            omega
          · rw [show batchLatency ns (batchPeriod delays ns) latency = latency by omega]
            exact hmillis
  · constructor
    · intro h
      exact absurd ((batchPeriod_range_iff hvalid).mp h.1) hperiod
    · intro h
      exact absurd h.period hperiod

/-! ## The calls -/

section Calls

variable {tables : RateTables} {handle : Nat} {info : SensorRate}

/-- What `activate` leaves of a sensor, and what it writes for it. -/
structure Activated (sys : Sysfs) (handle : Nat) (info : SensorRate) (on : Int) (r : RateCall) :
    Prop where
  entry : ∃ enabled, r.tables.sensorInfo[handle]? = some { info with enabled } ∧
    (enabled = info.enabled ∨ enabled = (on != 0))
  written : ∀ v, ("sampling_frequency", v) ∈ r.writes → v = ecPeriod info.maxReportLatencyNs on
  writes : (∀ attr v, sys.write attr v = 0) →
    ("sampling_frequency", ecPeriod info.maxReportLatencyNs on) ∈ r.writes

theorem activate_sensor (hhandle : (handle : Int) < crosEcMaxPhysicalSensor)
    (hinfo : tables.sensorInfo[handle]? = some info) (sys : Sysfs) (on : Int) :
    ∃ r, activate sys tables handle on = some r ∧ Activated sys handle info on r := by
  obtain ⟨hlt, _⟩ := List.getElem?_eq_some_iff.mp hinfo
  rw [activate, if_pos hhandle, hinfo]
  dsimp only
  generalize toInt32 (if on ≠ 0 then sys.frequency info.samplingPeriodNs else 0) = frequency
  by_cases hfailed : sys.write "frequency" frequency ≠ 0
  · rw [if_pos hfailed]
    refine ⟨_, rfl, ⟨info.enabled, hinfo, Or.inl rfl⟩, fun v hv => ?_, fun hok => ?_⟩
    · simp at hv
    · exact absurd (hok _ _) hfailed
  · rw [if_neg hfailed]
    refine ⟨_, rfl, ?_, fun v hv => ?_, fun _ => by simp⟩
    · dsimp only
      rw [List.getElem?_set_self hlt]
      split
      · exact ⟨on != 0, rfl, Or.inr rfl⟩
      · exact ⟨info.enabled, rfl, Or.inl rfl⟩
    · simpa using hv

/-- The entry of a sensor after `batch`, before its `activate`. -/
def SensorRate.batched (info : SensorRate) (ns latency : Int) : SensorRate :=
  { info with
    samplingPeriodNs := batchPeriod info.sensorData ns
    maxReportLatencyNs := batchLatency ns (batchPeriod info.sensorData ns) latency }

theorem batch_sensor (hhandle : (handle : Int) < crosEcMaxPhysicalSensor)
    (hinfo : tables.sensorInfo[handle]? = some info) (sys : Sysfs) (ns latency : Int) :
    ∃ r, batch sys tables handle ns latency = some r ∧
      r.tables.sensorInfo[handle]? = some (info.batched ns latency) ∧
      Activated sys handle (info.batched ns latency) (if info.enabled then 1 else 0) r := by
  obtain ⟨hlt, _⟩ := List.getElem?_eq_some_iff.mp hinfo
  have hset : (tables.sensorInfo.set handle (info.batched ns latency))[handle]? =
      some (info.batched ns latency) := List.getElem?_set_self hlt
  obtain ⟨r, hrun, hactivated⟩ := @activate_sensor
    { tables with sensorInfo := tables.sensorInfo.set handle (info.batched ns latency) } _ _
    hhandle hset sys (if info.enabled then 1 else 0)
  refine ⟨r, ?_, ?_, hactivated⟩
  · rw [batch, if_pos hhandle, hinfo]
    exact hrun
  · obtain ⟨enabled, hentry, henabled⟩ := hactivated.entry
    have hsame : enabled = info.enabled := by
      cases henabled with
      | inl h => exact h
      | inr h =>
          rw [h]
          cases info.enabled with
          | true => rfl
          | false => rfl
    rw [hentry, hsame]
    rfl

/-- For the sensors of the template, `batch` leaves what it should exactly for the requests
whose period does not exceed the largest one by less than a microsecond, fits 32 bits or is
no larger than the latency, and whose latency has positive milliseconds in 32 bits. -/
theorem batch_meets_iff {device : CrosEcSensorDevice} {ns latency : Int}
    (hhandle : (handle : Int) < crosEcMaxPhysicalSensor)
    (hinfo : tables.sensorInfo[handle]? = some info)
    (htemplate : sSensorListTemplate device = some info.sensorData) (hlatency : 0 ≤ latency) :
    BatchMeets tables handle info ns latency ↔ BatchSafe info.sensorData ns latency := by
  have hvalid := template_valid htemplate
  rw [← batchSafe_iff hvalid Int.one_ne_zero hlatency]
  constructor
  · intro hmeets
    -- every write succeeds
    let sys : Sysfs := ⟨fun _ => 0, fun _ _ => 0⟩
    obtain ⟨r, info', hrun, hentry, _, hleaves⟩ := hmeets sys
    obtain ⟨r₁, hrun₁, hentry₁, _⟩ := batch_sensor hhandle hinfo sys ns latency
    rw [hrun] at hrun₁
    cases hrun₁
    rw [hentry] at hentry₁
    cases hentry₁
    obtain ⟨r', hrun', hactivated⟩ := activate_sensor hhandle hentry sys 1
    exact ⟨hleaves.period, hleaves.latency,
      hleaves.activated _ 1 r' Int.one_ne_zero hrun' _ (hactivated.writes fun _ _ => rfl)⟩
  · intro hsafe sys
    obtain ⟨hperiod, hle, hfits⟩ := hsafe
    obtain ⟨r, hrun, hentry, hactivated⟩ := batch_sensor hhandle hinfo sys ns latency
    refine ⟨r, info.batched ns latency, hrun, hentry, rfl, hperiod, hle,
      fun henabled v hv => ?_, fun sys' on r' hon hrun' v hv => ?_⟩
    · rw [hactivated.written v hv, henabled]
      exact hfits
    · obtain ⟨r₁, hrun₁, hactivated'⟩ := activate_sensor hhandle hentry sys' on
      rw [hrun'] at hrun₁
      cases hrun₁
      have hsame : ∀ l, ecPeriod l on = ecPeriod l 1 := fun l => by
        rw [ecPeriod, ecPeriod, if_pos hon, if_pos Int.one_ne_zero]
      rw [hactivated'.written v hv, hsame]
      exact hfits

end Calls

/-! ## Requests -/

/-- A sensor that is on, and a table with it alone. -/
def idleSensor (delays : SensorDelays) : SensorRate := ⟨delays, 0, 0, true⟩

def oneSensor (delays : SensorDelays) : RateTables := ⟨[idleSensor delays], []⟩

/-- A proximity sensor that is asked for a report every three seconds without latency: the
period does not fit 32 bits, so the latency stays zero, and zero is written. -/
theorem batch_period_above_latency :
    sSensorListTemplate .prox = some ⟨20000, 10000000⟩ ∧
      ¬ BatchMeets (oneSensor ⟨20000, 10000000⟩) 0 (idleSensor ⟨20000, 10000000⟩) 3000000000 0 ∧
      batch ⟨fun _ => 0, fun _ _ => 0⟩ (oneSensor ⟨20000, 10000000⟩) 0 3000000000 0 =
        some ⟨0, ⟨[⟨⟨20000, 10000000⟩, 3000000000, 0, true⟩], []⟩,
          [("frequency", 0), ("sampling_frequency", 0)]⟩ := by
  have hrun : batch ⟨fun _ => 0, fun _ _ => 0⟩ (oneSensor ⟨20000, 10000000⟩) 0 3000000000 0 =
      some ⟨0, ⟨[⟨⟨20000, 10000000⟩, 3000000000, 0, true⟩], []⟩,
        [("frequency", 0), ("sampling_frequency", 0)]⟩ := by decide
  refine ⟨rfl, fun hmeets => ?_, hrun⟩
  obtain ⟨r, info', hbatch, hentry, _, hleaves⟩ := hmeets ⟨fun _ => 0, fun _ _ => 0⟩
  rw [hrun] at hbatch
  cases hbatch
  cases hentry
  exact absurd hleaves.latency (by decide)

/-- An accelerometer with a report every ten milliseconds and a latency of a tenth second. -/
theorem batch_meets_accel :
    sSensorListTemplate .accel = some ⟨5000, 80000⟩ ∧
      BatchMeets (oneSensor ⟨5000, 80000⟩) 0 (idleSensor ⟨5000, 80000⟩) 10000000 100000000 :=
  ⟨rfl, (batch_meets_iff (by decide) rfl (show sSensorListTemplate .accel = _ from rfl)
    (by decide)).mpr
    ⟨by decide, by decide, by decide⟩⟩

end DragonDevice.Sensors
