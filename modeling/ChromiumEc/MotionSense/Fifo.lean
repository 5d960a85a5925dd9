import ChromiumEc.Queue.Queue

/-!
# Fifo — the motion sense FIFO

The state of `motion_sense_fifo.c` and its operations.  Entries are staged behind the tail of a
queue, and a commit moves the tail over them.  An array is a function of its index.
-/

namespace ChromiumEc.MotionSense

open Queue

abbrev Time := BitVec 32

/-- `time_until`, a signed distance -/
def timeUntil (fromTime toTime : Time) : Int :=
  (toTime - fromTime).toInt

def timeAfter (a b : Time) : Bool :=
  timeUntil a b < 0

/-! ## Entries -/

/-- `struct ec_response_motion_sensor_data`.  The timestamp shares its place with `data[1]` and
`data[2]`, and the reserved half word shares its place with `data[0]`. -/
structure SensorData where
  flags : BitVec 8
  sensorNum : BitVec 8
  reserved : BitVec 16
  timestamp : Time
  deriving DecidableEq, Repr

instance : Inhabited SensorData := ⟨⟨0, 0, 0, 0⟩⟩

def flagFlush : BitVec 8 := 0x01
def flagTimestamp : BitVec 8 := 0x02
def flagWakeup : BitVec 8 := 0x04
def flagTabletMode : BitVec 8 := 0x08
def flagOdr : BitVec 8 := 0x10
def flagBypassFifo : BitVec 8 := 0x80

def SensorData.has (data : SensorData) (flags : BitVec 8) : Bool :=
  data.flags &&& flags != 0

def isTimestamp (data : SensorData) : Bool :=
  data.has flagTimestamp

def isData (data : SensorData) : Bool :=
  !data.has (flagTimestamp ||| flagOdr)

/-- The size of an entry in bytes: `fifo.unit_bytes`. -/
def unitBytes : BitVec 32 := 8

/-- `enum motion_sense_async_event` -/
inductive AsyncEvent
  | flush
  | odr
  deriving DecidableEq, Repr

def AsyncEvent.flags : AsyncEvent → BitVec 8
  | .flush => flagFlush ||| flagTimestamp
  | .odr => flagOdr ||| flagTimestamp

/-- What the FIFO reads and writes of a `struct motion_sensor_t`. -/
structure Sensor where
  oversampling : BitVec 16
  oversamplingRatio : BitVec 16
  /-- `config[SENSOR_CONFIG_AP]` -/
  ecRate : BitVec 32
  odr : BitVec 32
  deriving DecidableEq, Repr

/-- The build: `CONFIG_ACCEL_FIFO_SIZE`, `CONFIG_SENSOR_TIGHT_TIMESTAMPS`, `CONFIG_TABLET_MODE` and
`MAX_MOTION_SENSORS`.  An entry is one cell of the queue. -/
structure Config where
  fifo : QueueConfig 32
  tight : Bool
  tabletMode : Bool
  maxMotionSensors : Nat
  oneCell : fifo.unitBytes = 1

/-- An entry that has left the FIFO: the AP read it, or it was evicted. -/
structure Gone where
  entry : SensorData
  wasRead : Bool
  deriving DecidableEq, Repr

structure Stamp where
  sensorNum : Nat
  staged : Time
  written : Time
  deriving DecidableEq, Repr

structure State where
  fifo : QueueState 32 SensorData
  fifoLost : BitVec 32
  fifoSensorLost : Nat → BitVec 16
  -- fifo_staged
  readTs : Time
  stagedCount : BitVec 16
  sampleCount : Nat → BitVec 8
  requiresSpreading : Bool
  -- next_timestamp
  prev : Nat → Time
  next : Nat → Time
  nextTimestampInitialized : Nat → Bool
  expectedDataPeriods : Nat → BitVec 32
  dataPeriods : Nat → BitVec 32
  bypassNeeded : Bool
  wakeUpNeeded : Bool
  apInterruptNeeded : Bool
  tsLastInt : Nat → Time
  sensors : Nat → Sensor
  -- not in the C variables: what was staged, what has left, what was evicted since the last reset,
  -- and the timestamps that commits wrote, each oldest first
  written : List SensorData
  gone : List Gone
  lost : List SensorData
  stamps : List Stamp

/-- The state after `motion_sense_fifo_reset`, with the periods and the sensors set up. -/
def State.start (cfg : Config) (periods : Nat → BitVec 32) (sensors : Nat → Sensor) : State where
  fifo := ⟨0, 0, List.replicate cfg.fifo.bufferUnits.toNat default⟩
  fifoLost := 0
  fifoSensorLost _ := 0
  readTs := 0
  stagedCount := 0
  sampleCount _ := 0
  requiresSpreading := false
  prev _ := 0
  next _ := 0
  nextTimestampInitialized _ := false
  expectedDataPeriods := periods
  dataPeriods _ := 0
  bypassNeeded := false
  wakeUpNeeded := false
  apInterruptNeeded := false
  tsLastInt _ := 0
  sensors := sensors
  written := []
  gone := []
  lost := []
  stamps := []

/-! ## Making room -/

def getFifoHead (cfg : Config) (s : State) : SensorData :=
  s.fifo.buffer.getD (s.fifo.head &&& cfg.fifo.bufferUnitsMask).toNat default

/-- The end of `fifo_pop`, for an entry that was staged. -/
def fifoPopStaged (cfg : Config) (head : SensorData) (s : State) : State :=
  let s := { s with stagedCount := s.stagedCount - 1 }
  if isTimestamp head then s
  else
    let n := head.sensorNum.toNat
    let s := { s with sampleCount := Function.update s.sampleCount n (s.sampleCount n - 1) }
    if s.sampleCount n < 2 then
      { s with
        requiresSpreading := (List.range cfg.maxMotionSensors).any fun i => 1 < s.sampleCount i }
    else s

def fifoPop (cfg : Config) (s : State) : State :=
  let head := getFifoHead cfg s
  let initialCount := queueCount s.fifo
  if initialCount = 0 ∧ s.stagedCount = 0 then s
  else
    -- with nothing committed, the oldest staged entry is passed through the queue
    let fifo := if initialCount = 0 then (queueAdvanceTail cfg.fifo 1 s.fifo).2 else s.fifo
    let n := head.sensorNum.toNat
    let s :=
      { s with
        fifo := (queueAdvanceHead 1 fifo).2
        wakeUpNeeded := s.wakeUpNeeded || head.has flagWakeup
        fifoLost := s.fifoLost + 1
        fifoSensorLost :=
          if isTimestamp head then s.fifoSensorLost
          else Function.update s.fifoSensorLost n (s.fifoSensorLost n + 1)
        gone := s.gone ++ [⟨head, false⟩]
        lost := s.lost ++ [head] }
    if initialCount ≠ 0 then s else fifoPopStaged cfg head s

/-- The condition of the loop in `fifo_ensure_space`. -/
def popsOn (cfg : Config) (s : State) : Bool :=
  cfg.tight && !isTimestamp (getFifoHead cfg s) &&
    queueCount s.fifo + s.stagedCount.setWidth 32 != 0

/-- The loop in `fifo_ensure_space`, for at most `fuel + 1` rounds. -/
def fifoPopLoop (cfg : Config) : Nat → State → State
  | 0, s => fifoPop cfg s
  | fuel + 1, s =>
    let s := fifoPop cfg s
    if popsOn cfg s then fifoPopLoop cfg fuel s else s

def fifoEnsureSpace (cfg : Config) (s : State) : State :=
  if s.stagedCount.setWidth 32 < queueSpace cfg.fifo s.fifo then s
  else fifoPopLoop cfg ((queueCount s.fifo).toNat + s.stagedCount.toNat) s

/-! ## Staging -/

def isNewTimestamp (cfg : Config) (s : State) (sensorNum : Nat) : Bool :=
  sensorNum < cfg.maxMotionSensors && !s.nextTimestampInitialized sensorNum

/-- The first timestamp of a sensor is where its time starts. -/
def initTimestamp (cfg : Config) (data : SensorData) (s : State) : State :=
  let n := data.sensorNum.toNat
  if isTimestamp data && isNewTimestamp cfg s n then
    { s with
      next := Function.update s.next n data.timestamp
      prev := Function.update s.prev n data.timestamp
      nextTimestampInitialized := Function.update s.nextTimestampInitialized n true }
  else s

/-- The oversampling of `fifo_stage_unit`: whether the AP does not need the data. -/
def oversample (sensor : Nat) (s : State) : Bool × State :=
  let r := s.sensors sensor
  if r.oversamplingRatio = 0 then (true, s)
  else
    (r.oversampling != 0,
      { s with
        sensors := Function.update s.sensors sensor
          { r with oversampling := (r.oversampling + 1) % r.oversamplingRatio } })

/-- The part of `fifo_stage_unit` that writes the entry. -/
def fifoWriteUnit (cfg : Config) (tablet : Bool) (data : SensorData) (s : State) : State :=
  let s := fifoEnsureSpace cfg s
  let data :=
    if cfg.tabletMode && tablet then { data with flags := data.flags ||| flagTabletMode } else data
  match (queueGetWriteChunk cfg.fifo (s.stagedCount.setWidth 32) s.fifo).buffer with
  | none => s
  | some p =>
    let s :=
      { s with
        fifo := { s.fifo with buffer := Lib.overwrite s.fifo.buffer p [data] }
        stagedCount := s.stagedCount + 1
        written := s.written ++ [data] }
    if cfg.tight && !isTimestamp data then
      let n := data.sensorNum.toNat
      let s := { s with sampleCount := Function.update s.sampleCount n (s.sampleCount n + 1) }
      if 1 < s.sampleCount n then { s with requiresSpreading := true } else s
    else s

/-- `fifo_stage_unit`; the sensor is its index in `motion_sensors`, and `tablet` is
`tablet_get_mode`. -/
def fifoStageUnit (cfg : Config) (tablet : Bool) (data : SensorData) (sensor : Option Nat)
    (validData : Nat) (s : State) : State :=
  if 0 < validData ∧ sensor = none then s
  else
    let s := initTimestamp cfg data s
    match sensor with
    | some i =>
      if validData = 0 then fifoWriteUnit cfg tablet data s
      else
        let (removed, s) := oversample i s
        if removed then s else fifoWriteUnit cfg tablet data s
    | none => fifoWriteUnit cfg tablet data s

def fifoStageTimestamp (cfg : Config) (tablet : Bool) (timestamp : Time) (sensorNum : BitVec 8)
    (s : State) : State :=
  fifoStageUnit cfg tablet ⟨flagTimestamp, sensorNum, 0, timestamp⟩ none 0 s

/-- Whether a sample is due for an interrupt to the AP. -/
def interruptDue (time : Time) (id : Nat) (sensor : Option Nat) (s : State) : Bool :=
  match sensor with
  | none => false
  | some i =>
    0 < (s.sensors i).ecRate && 0 < (s.sensors i).odr &&
      timeAfter time (s.tsLastInt id + (s.sensors i).ecRate - s.expectedDataPeriods id / 2)

def noteInterrupt (time : Time) (id : Nat) (sensor : Option Nat) (s : State) : State :=
  if interruptDue time id sensor s then { s with apInterruptNeeded := true } else s

def noteReadTs (now : Time) (s : State) : State :=
  if s.stagedCount = 0 then { s with readTs := now } else s

/-- `motion_sense_fifo_stage_data`; `now` is the clock. -/
def stageData (cfg : Config) (tablet : Bool) (now : Time) (data : SensorData)
    (sensor : Option Nat) (validData : Nat) (time : Time) (s : State) : State :=
  let s :=
    if cfg.tight then
      fifoStageTimestamp cfg tablet time data.sensorNum (noteReadTs now s)
    else s
  fifoStageUnit cfg tablet data sensor validData (noteInterrupt time data.sensorNum.toNat sensor s)

/-! ## Committing -/

/-- `peek_fifo_staged`: the cell that the pointer points to. -/
def peekFifoStaged (cfg : Config) (offset : BitVec 32) (s : State) : Option Nat :=
  (queueGetWriteChunk cfg.fifo offset s.fifo).buffer

def readCell (p : Nat) (s : State) : SensorData :=
  s.fifo.buffer.getD p default

/-- The sample `data` gets the timestamp in the cell `p` before it. -/
def stampSample (cfg : Config) (data : SensorData) (p : Nat) (s : State) : State :=
  let n := data.sensorNum.toNat
  let ts := readCell p s
  let s :=
    if isNewTimestamp cfg s n || timeAfter ts.timestamp (s.prev n) then
      { s with
        next := Function.update s.next n ts.timestamp
        nextTimestampInitialized := Function.update s.nextTimestampInitialized n true }
    else s
  let time := s.next n
  let period := if s.requiresSpreading then s.dataPeriods n else s.expectedDataPeriods n
  { s with
    fifo := { s.fifo with buffer := s.fifo.buffer.set p { ts with timestamp := time } }
    prev := Function.update s.prev n time
    next := Function.update s.next n (time + period)
    stamps := s.stamps ++ [⟨n, ts.timestamp, time⟩] }

def noteFlags (data : SensorData) (s : State) : State :=
  { s with
    bypassNeeded := s.bypassNeeded || data.has flagBypassFifo
    wakeUpNeeded := s.wakeUpNeeded || data.has flagWakeup }

/-- One round of the loop in `motion_sense_fifo_commit_data`. -/
def commitEntry (cfg : Config) (s : State) (i : Nat) : State :=
  match peekFifoStaged cfg (BitVec.ofNat 32 i) s with
  | none => s
  | some p =>
    let data := readCell p s
    let s := noteFlags data s
    if !isData data then s
    else
      match peekFifoStaged cfg (BitVec.ofNat 32 i - 1) s with
      | none => s
      | some p' => if !isTimestamp (readCell p' s) then s else stampSample cfg data p' s

/-- The period of a sensor for a commit with this window. -/
def samplePeriod (window : Int) (expected : BitVec 32) (count : BitVec 8) : BitVec 32 :=
  let period := expected.toInt
  BitVec.ofInt 32
    (if window ≠ 0 ∧ 1 < count then min period (window.tdiv (count.toNat - 1)) else period)

/-- The first part of `motion_sense_fifo_commit_data`. -/
def updatePeriods (cfg : Config) (s : State) : State :=
  if !s.requiresSpreading then s
  else
    match peekFifoStaged cfg 0 s with
    | none => s
    | some p =>
      let data := readCell p s
      if !isTimestamp data then { s with requiresSpreading := false }
      else
        let window := timeUntil data.timestamp s.readTs
        { s with
          dataPeriods := fun i =>
            if i < cfg.maxMotionSensors ∧ s.sampleCount i ≠ 0 then
              samplePeriod window (s.expectedDataPeriods i) (s.sampleCount i)
            else s.dataPeriods i }

/-- `motion_sense_fifo_commit_data` -/
def commitData (cfg : Config) (s : State) : State :=
  if s.stagedCount = 0 then s
  else
    let s := updatePeriods cfg s
    let s := (List.range s.stagedCount.toNat).foldl (commitEntry cfg) s
    { s with
      fifo := (queueAdvanceTail cfg.fifo (s.stagedCount.setWidth 32) s.fifo).2
      readTs := 0
      stagedCount := 0
      sampleCount := fun _ => 0
      requiresSpreading := false }

/-- `motion_sense_fifo_insert_async_event` -/
def insertAsyncEvent (cfg : Config) (tablet : Bool) (now : Time) (sensor : Nat)
    (event : AsyncEvent) (s : State) : State :=
  commitData cfg
    (fifoStageUnit cfg tablet ⟨event.flags, BitVec.ofNat 8 sensor, 0, now⟩ (some sensor) 0 s)

/-- `motion_sense_fifo_add_timestamp` -/
def addTimestamp (cfg : Config) (tablet : Bool) (timestamp : Time) (s : State) : State :=
  commitData cfg (fifoStageTimestamp cfg tablet timestamp 0xff s)

/-- `motion_sense_fifo_read`: the number of entries, and the entries. -/
def fifoRead (cfg : Config) (capacityBytes maxCount : BitVec 32) (s : State) :
    (BitVec 32 × List SensorData) × State :=
  let count := minSize (capacityBytes / unitBytes) (minSize (queueCount s.fifo) maxCount)
  let r := queueRemoveUnits cfg.fifo count s.fifo
  (r.1, { s with fifo := r.2, gone := s.gone ++ r.1.2.map fun e => ⟨e, true⟩ })

/-- `struct ec_response_motion_sense_fifo_info`, without the timestamp. -/
structure FifoInfo where
  size : BitVec 16
  count : BitVec 16
  totalLost : BitVec 16
  lost : List (BitVec 16)

/-- `motion_sense_fifo_get_info` -/
def getInfo (cfg : Config) (reset : Bool) (s : State) : FifoInfo × State :=
  (⟨cfg.fifo.bufferUnits.setWidth 16, (queueCount s.fifo).setWidth 16, s.fifoLost.setWidth 16,
      (List.range cfg.maxMotionSensors).map s.fifoSensorLost⟩,
    if reset then { s with fifoLost := 0, fifoSensorLost := fun _ => 0, lost := [] } else s)

/-- What the sensors, the motion sense task and the AP do. -/
inductive Event
  | stageData (tablet : Bool) (now : Time) (data : SensorData) (sensor : Option Nat)
      (validData : Nat) (time : Time)
  | addTimestamp (tablet : Bool) (timestamp : Time)
  | insertAsyncEvent (tablet : Bool) (now : Time) (sensor : Nat) (event : AsyncEvent)
  | commitData
  | read (capacityBytes maxCount : BitVec 32)
  | getInfo (reset : Bool)

def step (cfg : Config) (s : State) : Event → State
  | .stageData tablet now data sensor validData time =>
    stageData cfg tablet now data sensor validData time s
  | .addTimestamp tablet timestamp => addTimestamp cfg tablet timestamp s
  | .insertAsyncEvent tablet now sensor event => insertAsyncEvent cfg tablet now sensor event s
  | .commitData => commitData cfg s
  | .read capacityBytes maxCount => (fifoRead cfg capacityBytes maxCount s).2
  | .getInfo reset => (getInfo cfg reset s).2

end ChromiumEc.MotionSense
