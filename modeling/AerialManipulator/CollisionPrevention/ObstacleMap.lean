/-
`CollisionPrevention`: the map of obstacles.

The map has a distance for every ten degrees around the vehicle.  `updateObstacleMap` enters the
message of an external sensor, whose array of 72 distances begins at an angle of the sender's choice
and goes on in steps of the sender's choice.

A read outside the array is a failure of the run, here `none`.  The function that brings an angle
into one turn comes from the matrix library; it is the parameter `wrap_360`.  The yaw of the vehicle
is taken as it is computed from the attitude, in degrees.  The distance sensors, whose readings are
entered before the message, are left out: the map before the message is any map.
-/
import AerialManipulator.Lib.Circle

structure ObstacleDistance (K : Type*) where
  timestamp : UInt64
  frame : UInt8
  distances : Fin 72 → UInt16
  increment : K
  min_distance : UInt16
  max_distance : UInt16
  angle_offset : K

namespace ObstacleDistance

def MAV_FRAME_GLOBAL : UInt8 := 0
def MAV_FRAME_LOCAL_NED : UInt8 := 1
def MAV_FRAME_BODY_FRD : UInt8 := 12

/-- `distances[msg_index]`, if that is in the array. -/
def read {K : Type*} (obstacle : ObstacleDistance K) (msg_index : ℤ) : Option UInt16 :=
  if h : 0 ≤ msg_index ∧ msg_index < 72 then
    some (obstacle.distances ⟨msg_index.toNat, by omega⟩)
  else none

theorem isSome_read {K : Type*} (obstacle : ObstacleDistance K) (msg_index : ℤ) :
    (obstacle.read msg_index).isSome ↔ 0 ≤ msg_index ∧ msg_index ≤ 71 := by
  rw [read]
  split_ifs with h
  · exact iff_of_true rfl ⟨h.1, by omega⟩
  · exact iff_of_false Bool.false_ne_true (by omega)

end ObstacleDistance

structure CollisionPrevention where
  -- the map, in the frame of the body
  timestamp : UInt64
  min_distance : UInt16
  max_distance : UInt16
  distances : Fin 72 → UInt16
  -- of each entry
  data_timestamps : Fin 72 → UInt64
  data_maxranges : Fin 72 → UInt16
  data_fov : Fin 72 → Bool

namespace CollisionPrevention

def RANGE_STREAM_TIMEOUT_US : UInt64 := 500000
def UINT16_MAX : UInt16 := 65535

variable {K : Type*} [Field K] [LinearOrder K] [IsStrictOrderedRing K] [FloorRing K]

def entry (i : Fin 36) : Fin 72 := i.castLE (by decide)

def enterData (c : CollisionPrevention) (map_index : Fin 72) (sensor_range sensor_reading : K) :
    Bool :=
  let sensor_range_cm := UInt16.ofNat ⌊100 * sensor_range + 1 / 2⌋₊
  if sensor_reading < sensor_range then
    c.distances map_index < c.data_maxranges map_index &&
        sensor_range_cm ≤ c.data_maxranges map_index ||
      c.distances map_index ≥ c.data_maxranges map_index
  else
    c.distances map_index ≥ c.data_maxranges map_index &&
        sensor_range_cm ≥ c.data_maxranges map_index ||
      c.distances map_index < c.data_maxranges map_index &&
        sensor_range_cm == c.data_maxranges map_index

def binAngleDeg (i : Fin 36) : K := (i : ℕ) * 10

section Message

variable (wrap_360 : K → K) (obstacle : ObstacleDistance K)

def msgIndex (angle : K) : ℤ := ⌈wrap_360 angle * (1 / obstacle.increment)⌉

def addBin (angle : Fin 36 → K) (c : CollisionPrevention) (i : Fin 36) :
    Option CollisionPrevention :=
  (obstacle.read (msgIndex wrap_360 obstacle (angle i))).map fun distance =>
    if distance ≠ UINT16_MAX ∧
        c.enterData (entry i) ((obstacle.max_distance.toNat : K) / 100) ((distance.toNat : K) / 100)
          then
      { c with
        distances := Function.update c.distances (entry i) distance
        data_timestamps := Function.update c.data_timestamps (entry i) c.timestamp
        data_maxranges := Function.update c.data_maxranges (entry i) obstacle.max_distance
        data_fov := Function.update c.data_fov (entry i) true }
    else c

/-- The entries of the message go to the bins; the directions of the message are those of the world
or those of the vehicle. -/
def addObstacleSensorData (vehicle_orientation_deg : K) (c : CollisionPrevention) :
    Option CollisionPrevention :=
  if obstacle.frame = ObstacleDistance.MAV_FRAME_GLOBAL ∨
      obstacle.frame = ObstacleDistance.MAV_FRAME_LOCAL_NED then
    (List.finRange 36).foldlM (addBin wrap_360 obstacle fun i =>
      vehicle_orientation_deg + binAngleDeg i - obstacle.angle_offset) c
  else if obstacle.frame = ObstacleDistance.MAV_FRAME_BODY_FRD then
    (List.finRange 36).foldlM (addBin wrap_360 obstacle fun i =>
      binAngleDeg i - obstacle.angle_offset) c
  else some c

/-- A message that is neither stale nor without a step. -/
def Accepts (now : UInt64) (obstacle : ObstacleDistance K) : Prop :=
  now - obstacle.timestamp < RANGE_STREAM_TIMEOUT_US ∧ 0 < obstacle.increment

instance (now : UInt64) : Decidable (Accepts now obstacle) := instDecidableAnd

/-- The message of an external sensor is entered, if it is accepted. -/
def updateObstacleMap (now : UInt64) (vehicle_orientation_deg : K) (c : CollisionPrevention) :
    Option CollisionPrevention :=
  if Accepts now obstacle then
    addObstacleSensorData wrap_360 obstacle vehicle_orientation_deg
      { c with
        timestamp := max c.timestamp obstacle.timestamp
        max_distance := max c.max_distance obstacle.max_distance
        min_distance := min c.min_distance obstacle.min_distance }
  else some c

end Message

end CollisionPrevention
