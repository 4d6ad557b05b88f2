/-
Mission items on the wire and in storage.

`parse_mavlink_mission_item` turns a `MISSION_ITEM` or `MISSION_ITEM_INT` into a
`mission_item_s`, and `format_mavlink_mission_item` goes back.  Both are large switches
over the commands, one for items with coordinates and one for items without.

* **`parse_format`** — an item that was accepted is formatted into a message that is
  accepted again and parsed to the same item, in the integer frame; left out are a loiter
  time with a heading, a region of interest at a location, and a jump that is not given in
  whole numbers;
* **`reparsed_differs`** — none of these, and no item in a frame without integers, comes
  back as it was.
-/
import AerialManipulator.Math

open WithNaN

namespace Mission

/-- `MAV_CMD`, with which `NAV_CMD` is compatible: the commands the two switches name. -/
inductive Command
  | NAV_WAYPOINT
  | NAV_LOITER_UNLIM
  | NAV_LOITER_TIME
  | NAV_RETURN_TO_LAUNCH
  | NAV_LAND
  | NAV_TAKEOFF
  | NAV_LOITER_TO_ALT
  | NAV_ROI
  | NAV_VTOL_TAKEOFF
  | NAV_VTOL_LAND
  | NAV_DELAY
  | CONDITION_DELAY
  | CONDITION_DISTANCE
  | DO_JUMP
  | DO_CHANGE_SPEED
  | DO_SET_HOME
  | DO_SET_SERVO
  | DO_LAND_START
  | DO_SET_ROI_LOCATION
  | DO_SET_ROI_WPNEXT_OFFSET
  | DO_SET_ROI_NONE
  | DO_CONTROL_VIDEO
  | DO_SET_ROI
  | DO_DIGICAM_CONTROL
  | DO_MOUNT_CONFIGURE
  | DO_MOUNT_CONTROL
  | DO_SET_CAM_TRIGG_DIST
  | DO_SET_CAM_TRIGG_INTERVAL
  | OBLIQUE_SURVEY
  | SET_CAMERA_MODE
  | SET_CAMERA_ZOOM
  | SET_CAMERA_FOCUS
  | DO_GIMBAL_MANAGER_PITCHYAW
  | DO_GIMBAL_MANAGER_CONFIGURE
  | IMAGE_START_CAPTURE
  | IMAGE_STOP_CAPTURE
  | DO_TRIGGER_CONTROL
  | VIDEO_START_CAPTURE
  | VIDEO_STOP_CAPTURE
  | DO_VTOL_TRANSITION
  | CONDITION_GATE
  | NAV_FENCE_RETURN_POINT
  | NAV_FENCE_POLYGON_VERTEX_INCLUSION
  | NAV_FENCE_POLYGON_VERTEX_EXCLUSION
  | NAV_FENCE_CIRCLE_INCLUSION
  | NAV_FENCE_CIRCLE_EXCLUSION
  | NAV_RALLY_POINT
  | other (command : UInt16)
  deriving DecidableEq

/-- `MAV_FRAME`. -/
inductive Frame
  | GLOBAL
  | MISSION
  | GLOBAL_RELATIVE_ALT
  | GLOBAL_INT
  | GLOBAL_RELATIVE_ALT_INT
  | other (frame : UInt8)
  deriving DecidableEq

/-- `MAV_MISSION_RESULT`. -/
inductive MissionResult
  | ACCEPTED
  | ERROR
  | UNSUPPORTED_FRAME
  | UNSUPPORTED
  | NO_SPACE
  | INVALID_PARAM1
  | OPERATION_CANCELLED
  | other (result : UInt8)
  deriving DecidableEq

/-- `MAV_MISSION_TYPE`; any byte may arrive. -/
inductive MissionType
  | MISSION
  | FENCE
  | RALLY
  | ALL
  | other (type : UInt8)
  deriving DecidableEq

/-- The coordinates of an item: floats in a `MISSION_ITEM`, integers in a
`MISSION_ITEM_INT`. -/
inductive Coords (K : Type*)
  | float (x y : Flt K)
  | int (x y : Int32)

/-- `mavlink_mission_item_t` and `mavlink_mission_item_int_t`. -/
structure WireItem (K : Type*) where
  param1 : Flt K
  param2 : Flt K
  param3 : Flt K
  param4 : Flt K
  coords : Coords K
  z : Flt K
  seq : ℕ
  command : Command
  frame : Frame
  current : Bool
  autocontinue : UInt8
  mission_type : MissionType

/-- The union of the parameters: the members of the struct are `params[0]` to `params[6]`,
and `circle_radius` is `time_inside`. -/
structure Params (K : Type*) where
  time_inside : Flt K
  acceptance_radius : Flt K
  loiter_radius : Flt K
  yaw : Flt K
  lat_float : Flt K
  lon_float : Flt K
  altitude : Flt K

/-- `mission_item_s`.  `count` is the union of `do_jump_current_count`, `vertex_count` and
`land_precision`. -/
structure MissionItem (K : Type*) where
  lat : Flt K
  lon : Flt K
  params : Params K
  nav_cmd : Command
  do_jump_mission_index : Int16
  do_jump_repeat_count : UInt16
  count : UInt16
  frame : Frame
  origin : ℕ
  loiter_exit_xtrack : Bool
  force_heading : Bool
  altitude_is_relative : Bool
  autocontinue : Bool

def ORIGIN_MAVLINK : ℕ := 0

section Casts

variable {K : Type*} [Field K] [LinearOrder K] [FloorRing K]

def trunc (x : K) : ℤ := if 0 ≤ x then ⌊x⌋ else ⌈x⌉

/-- `round` of `math.h`: halves go away from zero. -/
def round : Flt K → Flt K :=
  map fun x => if 0 ≤ x then (⌊x + 1 / 2⌋ : K) else (⌈x - 1 / 2⌉ : K)

variable (K) in
/-- The conversions of a float to an integer type: they round towards zero where the
result has a value of the type; nothing is said of the rest. -/
structure Casts where
  toInt32 : Flt K → Int32
  toInt16 : Flt K → Int16
  toUInt16 : Flt K → UInt16
  toInt32_trunc : ∀ (x : K) (n : Int32), trunc x = n.toInt → toInt32 (num x) = n
  toInt16_trunc : ∀ (x : K) (n : Int16), trunc x = n.toInt → toInt16 (num x) = n
  toUInt16_trunc : ∀ (x : K) (n : UInt16), trunc x = n.toNat → toUInt16 (num x) = n

end Casts

section Parse

variable {K : Type*} [Field K] [LinearOrder K] [FloorRing K] [Elementary K]

def degrees (radians : Flt K) : Flt K := radians * (num 180 / num Elementary.pi)

def flag (b : Bool) : Flt K := if b then 1 else 0

/-- `struct mission_item_s mission_item = {}`. -/
def MissionItem.zero : MissionItem K where
  lat := 0
  lon := 0
  params := ⟨0, 0, 0, 0, 0, 0, 0⟩
  nav_cmd := .other 0
  do_jump_mission_index := 0
  do_jump_repeat_count := 0
  count := 0
  frame := .GLOBAL
  origin := 0
  loiter_exit_xtrack := false
  force_heading := false
  altitude_is_relative := false
  autocontinue := false

/-- `_int_mode` while an item is parsed: `handle_mission_item` and
`handle_mission_item_int` have just set it to the kind of the message. -/
def WireItem.intMode (wp : WireItem K) : Bool :=
  match wp.coords with
  | .float _ _ => false
  | .int _ _ => true

/-- `lat` and `lon` of an item with coordinates. -/
def Coords.latLon : Coords K → Flt K × Flt K
  | float x y => (x, y)
  | int x y => (num ((x.toInt : K) * 1e-7), num ((y.toInt : K) * 1e-7))

/-- `params[4]` and `params[5]` of an item without. -/
def Coords.params : Coords K → Flt K × Flt K
  | float x y => (x, y)
  | int x y => (num (x.toInt : K), num (y.toInt : K))

variable (c : Casts K) (wrap_2pi : Flt K → Flt K)

/-- The heading that `param4` asks for. -/
def yawOf (param4 : Flt K) : Flt K := wrap_2pi (math.radians param4)

/-- The switch of `parse_mavlink_mission_item` for items with coordinates, from the item as
it is before. -/
def parseGlobal (wp : WireItem K) (m : MissionItem K) : Except MissionResult (MissionItem K) :=
  match wp.command with
  | .NAV_WAYPOINT =>
    .ok { m with
      nav_cmd := .NAV_WAYPOINT
      params := { m.params with
        time_inside := wp.param1
        acceptance_radius := wp.param2
        yaw := yawOf wrap_2pi wp.param4 } }
  | .NAV_LOITER_UNLIM =>
    .ok { m with
      nav_cmd := .NAV_LOITER_UNLIM
      params := { m.params with
        loiter_radius := wp.param3
        yaw := yawOf wrap_2pi wp.param4 } }
  | .NAV_LOITER_TIME =>
    .ok { m with
      nav_cmd := .NAV_LOITER_TIME
      force_heading := wp.param2 > 0
      loiter_exit_xtrack := wp.param4 > 0
      params := { m.params with
        time_inside := wp.param1
        loiter_radius := wp.param3
        yaw := yawOf wrap_2pi wp.param4 } }
  | .NAV_LAND =>
    .ok { m with
      nav_cmd := .NAV_LAND
      params := { m.params with yaw := yawOf wrap_2pi wp.param4 }
      count := c.toUInt16 wp.param2 }
  | .NAV_TAKEOFF =>
    .ok { m with
      nav_cmd := .NAV_TAKEOFF
      params := { m.params with yaw := yawOf wrap_2pi wp.param4 } }
  | .NAV_LOITER_TO_ALT =>
    .ok { m with
      nav_cmd := .NAV_LOITER_TO_ALT
      force_heading := wp.param1 > 0
      params := { m.params with loiter_radius := wp.param2 }
      loiter_exit_xtrack := wp.param4 > 0 }
  | .NAV_ROI | .DO_SET_ROI =>
    -- `MAV_ROI_LOCATION` and `MAV_ROI_NONE`
    if c.toInt32 wp.param1 = 3 then
      .ok { m with
        nav_cmd := .DO_SET_ROI
        params := { m.params with time_inside := num 3, altitude := wp.z } }
    else if c.toInt32 wp.param1 = 0 then
      .ok { m with nav_cmd := .DO_SET_ROI, params := { m.params with time_inside := num 0 } }
    else .error .INVALID_PARAM1
  | .DO_SET_ROI_LOCATION =>
    .ok { m with nav_cmd := .DO_SET_ROI_LOCATION, params := { m.params with altitude := wp.z } }
  | .NAV_VTOL_TAKEOFF | .NAV_VTOL_LAND =>
    .ok { m with
      nav_cmd := wp.command
      params := { m.params with yaw := yawOf wrap_2pi wp.param4 } }
  | .CONDITION_GATE | .NAV_FENCE_RETURN_POINT => .ok { m with nav_cmd := wp.command }
  | .NAV_FENCE_POLYGON_VERTEX_INCLUSION | .NAV_FENCE_POLYGON_VERTEX_EXCLUSION =>
    .ok { m with nav_cmd := wp.command, count := c.toUInt16 (wp.param1 + num (1 / 2)) }
  | .NAV_FENCE_CIRCLE_INCLUSION | .NAV_FENCE_CIRCLE_EXCLUSION =>
    .ok { m with nav_cmd := wp.command, params := { m.params with time_inside := wp.param1 } }
  | .NAV_RALLY_POINT => .ok { m with nav_cmd := wp.command }
  | _ => .error .UNSUPPORTED

/-- The commands without coordinates whose parameters are kept as they are. -/
def Command.plain : Command → Bool
  | .DO_CHANGE_SPEED | .DO_SET_HOME | .DO_SET_SERVO | .DO_LAND_START | .DO_TRIGGER_CONTROL
  | .DO_DIGICAM_CONTROL | .DO_MOUNT_CONFIGURE | .DO_MOUNT_CONTROL
  | .DO_GIMBAL_MANAGER_PITCHYAW | .SET_CAMERA_FOCUS | .DO_GIMBAL_MANAGER_CONFIGURE
  | .IMAGE_START_CAPTURE | .IMAGE_STOP_CAPTURE | .VIDEO_START_CAPTURE | .VIDEO_STOP_CAPTURE
  | .DO_CONTROL_VIDEO | .DO_SET_CAM_TRIGG_DIST | .OBLIQUE_SURVEY | .DO_SET_CAM_TRIGG_INTERVAL
  | .SET_CAMERA_MODE | .SET_CAMERA_ZOOM | .DO_VTOL_TRANSITION | .NAV_DELAY
  | .NAV_RETURN_TO_LAUNCH | .DO_SET_ROI_WPNEXT_OFFSET | .DO_SET_ROI_NONE | .CONDITION_DELAY
  | .CONDITION_DISTANCE => true
  | _ => false

def parseMission (wp : WireItem K) (m : MissionItem K) : Except MissionResult (MissionItem K) :=
  match wp.command with
  | .DO_JUMP =>
    .ok { m with
      nav_cmd := .DO_JUMP
      do_jump_mission_index := c.toInt16 wp.param1
      count := 0
      do_jump_repeat_count := c.toUInt16 wp.param2 }
  | .NAV_ROI | .DO_SET_ROI =>
    -- `MAV_ROI_NONE`, `MAV_ROI_WPNEXT` and `MAV_ROI_WPINDEX`
    if c.toInt32 wp.param1 = 0 ∨ c.toInt32 wp.param1 = 1 ∨ c.toInt32 wp.param1 = 2 then
      .ok { m with nav_cmd := .DO_SET_ROI }
    else .error .INVALID_PARAM1
  | command => if command.plain then .ok { m with nav_cmd := command } else .error .UNSUPPORTED

def Frame.isGlobal (frame : Frame) (int_mode : Bool) : Bool :=
  frame = .GLOBAL || frame = .GLOBAL_RELATIVE_ALT ||
    int_mode && (frame = .GLOBAL_INT || frame = .GLOBAL_RELATIVE_ALT_INT)

def globalItem (wp : WireItem K) : MissionItem K :=
  { (MissionItem.zero : MissionItem K) with
    lat := wp.coords.latLon.1
    lon := wp.coords.latLon.2
    params := ⟨0, 0, 0, 0, 0, 0, wp.z⟩
    altitude_is_relative :=
      wp.frame = .GLOBAL_RELATIVE_ALT ∨ wp.frame = .GLOBAL_RELATIVE_ALT_INT }

def missionItem (wp : WireItem K) : MissionItem K :=
  { (MissionItem.zero : MissionItem K) with
    params := ⟨wp.param1, wp.param2, wp.param3, wp.param4, wp.coords.params.1,
      wp.coords.params.2, wp.z⟩ }

def finishItem (wp : WireItem K) (frame : Frame) (m : MissionItem K) : MissionItem K :=
  { m with frame := frame, autocontinue := wp.autocontinue % 2 = 1, origin := ORIGIN_MAVLINK }

def parseMavlinkMissionItem (wp : WireItem K) : Except MissionResult (MissionItem K) :=
  if wp.frame.isGlobal wp.intMode then
    (parseGlobal c wrap_2pi wp (globalItem wp)).map (finishItem wp wp.frame)
  else if wp.frame = .MISSION then
    (parseMission c wp (missionItem wp)).map (finishItem wp .MISSION)
  else .error .UNSUPPORTED_FRAME

theorem parse_error_ne_accepted {wp : WireItem K} {r : MissionResult}
    (h : parseMavlinkMissionItem c wrap_2pi wp = .error r) : r ≠ .ACCEPTED := by
  rintro rfl
  unfold parseMavlinkMissionItem at h
  split at h
  · unfold parseGlobal at h
    split at h
    all_goals try split at h
    all_goals try split at h
    all_goals simp [Except.map] at h
  · split at h
    · unfold parseMission at h
      split at h
      all_goals try split at h
      all_goals simp [Except.map] at h
    · simp at h

end Parse

section Format

variable {K : Type*} [Field K] [LinearOrder K] [FloorRing K] [Elementary K] (c : Casts K)

/-- The message with the fields that both kinds of items have: `wp{}` and the first lines of
`format_mavlink_mission_item`. -/
def WireItem.ofItem (m : MissionItem K) (coords : Coords K) : WireItem K where
  param1 := 0
  param2 := 0
  param3 := 0
  param4 := 0
  coords := coords
  z := m.params.altitude
  seq := 0
  command := m.nav_cmd
  frame := m.frame
  current := false
  autocontinue := if m.autocontinue then 1 else 0
  mission_type := .MISSION

/-- The commands of the switch for items without coordinates. -/
def Command.formatted : Command → Bool
  | .DO_JUMP | .DO_CHANGE_SPEED | .DO_SET_HOME | .DO_SET_SERVO | .DO_LAND_START
  | .DO_TRIGGER_CONTROL | .DO_DIGICAM_CONTROL | .IMAGE_START_CAPTURE | .IMAGE_STOP_CAPTURE
  | .VIDEO_START_CAPTURE | .VIDEO_STOP_CAPTURE | .DO_CONTROL_VIDEO | .DO_MOUNT_CONFIGURE
  | .DO_MOUNT_CONTROL | .DO_GIMBAL_MANAGER_PITCHYAW | .DO_GIMBAL_MANAGER_CONFIGURE
  | .DO_SET_ROI | .DO_SET_CAM_TRIGG_DIST | .OBLIQUE_SURVEY | .DO_SET_CAM_TRIGG_INTERVAL
  | .SET_CAMERA_MODE | .SET_CAMERA_ZOOM | .SET_CAMERA_FOCUS | .DO_VTOL_TRANSITION => true
  | _ => false

/-- `format_mavlink_mission_item` for an item without coordinates: the result and the
message, which is complete even where the result is an error. -/
def formatMission (int_mode : Bool) (m : MissionItem K) : Bool × WireItem K :=
  let coords : Coords K :=
    if int_mode then
      .int (c.toInt32 (round m.params.lat_float)) (c.toInt32 (round m.params.lon_float))
    else .float m.params.lat_float m.params.lon_float
  let wp : WireItem K := { WireItem.ofItem m coords with
    param1 := m.params.time_inside
    param2 := m.params.acceptance_radius
    param3 := m.params.loiter_radius
    param4 := m.params.yaw }
  (m.nav_cmd.formatted,
    if m.nav_cmd = .DO_JUMP then { wp with
      param1 := num (m.do_jump_mission_index.toInt : K)
      param2 := num (m.do_jump_repeat_count.toNat : K) }
    else wp)

def globalFrame (int_mode relative : Bool) : Frame :=
  if relative then
    if int_mode then .GLOBAL_RELATIVE_ALT_INT else .GLOBAL_RELATIVE_ALT
  else if int_mode then .GLOBAL_INT
  else .GLOBAL

/-- `format_mavlink_mission_item` for an item with coordinates. -/
def formatGlobal (int_mode : Bool) (m : MissionItem K) : Bool × WireItem K :=
  let coords : Coords K :=
    if int_mode then
      .int (c.toInt32 (round (m.lat * num 1e7))) (c.toInt32 (round (m.lon * num 1e7)))
    else .float m.lat m.lon
  let wp : WireItem K :=
    { WireItem.ofItem m coords with frame := globalFrame int_mode m.altitude_is_relative }
  match m.nav_cmd with
  | .NAV_WAYPOINT =>
    (true, { wp with
      param1 := m.params.time_inside
      param2 := m.params.acceptance_radius
      param4 := degrees m.params.yaw })
  | .NAV_LOITER_UNLIM =>
    (true, { wp with param3 := m.params.loiter_radius, param4 := degrees m.params.yaw })
  | .NAV_LOITER_TIME =>
    (true, { wp with
      param1 := m.params.time_inside
      param2 := flag m.force_heading
      param3 := m.params.loiter_radius
      param4 := flag m.loiter_exit_xtrack })
  | .NAV_LAND =>
    (true, { wp with param2 := num (m.count.toNat : K), param4 := degrees m.params.yaw })
  | .NAV_TAKEOFF => (true, { wp with param4 := degrees m.params.yaw })
  | .NAV_LOITER_TO_ALT =>
    (true, { wp with
      param1 := flag m.force_heading
      param2 := m.params.loiter_radius
      param4 := flag m.loiter_exit_xtrack })
  | .NAV_VTOL_TAKEOFF | .NAV_VTOL_LAND => (true, { wp with param4 := degrees m.params.yaw })
  | .NAV_FENCE_RETURN_POINT => (true, wp)
  | .NAV_FENCE_POLYGON_VERTEX_INCLUSION | .NAV_FENCE_POLYGON_VERTEX_EXCLUSION =>
    (true, { wp with param1 := num (m.count.toNat : K) })
  | .NAV_FENCE_CIRCLE_INCLUSION | .NAV_FENCE_CIRCLE_EXCLUSION =>
    (true, { wp with param1 := m.params.time_inside })
  | .NAV_RALLY_POINT => (true, wp)
  | _ => (false, wp)

/-- `format_mavlink_mission_item`; `true` for `PX4_OK`. -/
def formatMavlinkMissionItem (int_mode : Bool) (m : MissionItem K) : Bool × WireItem K :=
  if m.frame = .MISSION then formatMission c int_mode m else formatGlobal c int_mode m

end Format

/-! ### Round trip -/

section RoundTrip

variable {c : Casts ℝ} {wrap_2pi : Flt ℝ → Flt ℝ}

/-- What `matrix::wrap_2pi` does: it wraps a number into `[0, 2π)` and leaves the numbers
of this range, and what is not a number, alone. -/
structure Wraps (wrap_2pi : Flt ℝ → Flt ℝ) : Prop where
  range : ∀ x : ℝ, ∃ y : ℝ, wrap_2pi (num x) = num y ∧ 0 ≤ y ∧ y < 2 * Real.pi
  fixed : ∀ y : ℝ, 0 ≤ y → y < 2 * Real.pi → wrap_2pi (num y) = num y
  nan : wrap_2pi nan = nan

theorem degrees_num (x : ℝ) : degrees (num x) = num (x * (180 / Real.pi)) := by
  have h : (num 180 : Flt ℝ) / num Real.pi = num (180 / Real.pi) := if_neg Real.pi_ne_zero
  exact congrArg (num x * ·) h

theorem yawOf_degrees (hwrap : Wraps wrap_2pi) (p : Flt ℝ) :
    yawOf wrap_2pi (degrees (yawOf wrap_2pi p)) = yawOf wrap_2pi p := by
  cases p with
  | nan =>
    have hnan : yawOf wrap_2pi nan = nan := hwrap.nan
    rw [hnan]
    exact hwrap.nan
  | num x =>
    obtain ⟨y, hy, hpos, hlt⟩ := hwrap.range (x * (Real.pi / 180))
    have hyaw : yawOf wrap_2pi (num x) = num y := by
      rw [yawOf, math.radians_num, hy]
    have hback : y * (180 / Real.pi) * (Real.pi / 180) = y := by
      have := Real.pi_ne_zero
      field_simp
    rw [hyaw, degrees_num, yawOf, math.radians_num, hback, hwrap.fixed y hpos hlt]

theorem trunc_intCast (n : ℤ) : trunc (n : ℝ) = n := by
  unfold trunc
  split
  · exact Int.floor_intCast n
  · exact Int.ceil_intCast n

theorem round_intCast (n : ℤ) : round (num (n : ℝ)) = num (n : ℝ) := by
  show num _ = num _
  congr 1
  dsimp only
  split
  · rw [Int.floor_intCast_add, show ⌊(1 / 2 : ℝ)⌋ = 0 by norm_num, add_zero]
  · rw [Int.ceil_eq_iff (z := n) |>.mpr]
    constructor <;> linarith

theorem toInt32_round (n : Int32) : c.toInt32 (round (num (n.toInt : ℝ))) = n := by
  rw [round_intCast]
  exact c.toInt32_trunc _ n (trunc_intCast _)

theorem latLon_format (x : Int32) :
    c.toInt32 (round (num ((x.toInt : ℝ) * 1e-7) * num 1e7)) = x := by
  have h : (num ((x.toInt : ℝ) * 1e-7) * num 1e7 : Flt ℝ) = num (x.toInt : ℝ) := by
    show num _ = num _
    congr 1
    norm_num
    ring
  rw [h, toInt32_round]

theorem toUInt16_natCast (n : UInt16) : c.toUInt16 (num (n.toNat : ℝ)) = n := by
  apply c.toUInt16_trunc
  have h := trunc_intCast (n.toNat : ℤ)
  simpa using h

theorem toInt16_intCast (n : Int16) : c.toInt16 (num (n.toInt : ℝ)) = n :=
  c.toInt16_trunc _ n (trunc_intCast _)

theorem toUInt16_add_half (n : UInt16) : c.toUInt16 (num (n.toNat : ℝ) + num (1 / 2)) = n := by
  apply c.toUInt16_trunc
  have hpos : (0 : ℝ) ≤ (n.toNat : ℝ) + 1 / 2 := by positivity
  unfold trunc
  rw [if_pos hpos, Int.floor_eq_iff]
  constructor
  · push_cast
    linarith
  · push_cast
    linarith

theorem flag_pos (b : Bool) : decide ((flag b : Flt ℝ) > 0) = b := by
  cases b
  · exact decide_eq_false (lt_irrefl (0 : ℝ))
  · exact decide_eq_true (zero_lt_one (α := ℝ))

/-- Items that both switches treat alike. -/
def Symmetric (c : Casts ℝ) (wp : WireItem ℝ) : Prop :=
  (wp.command = .NAV_LOITER_TIME → wp.param4 = num 0 ∨ wp.param4 = num 1) ∧
  (wp.frame ≠ .MISSION → wp.command = .NAV_ROI ∨ wp.command = .DO_SET_ROI →
    c.toInt32 wp.param1 ≠ 3) ∧
  (wp.command = .DO_JUMP → (∃ n : Int16, wp.param1 = num (n.toInt : ℝ)) ∧
    ∃ n : UInt16, wp.param2 = num (n.toNat : ℝ))

/-- The frame of a formatted item in a `MISSION_ITEM_INT`. -/
def Frame.asInt : Frame → Frame
  | GLOBAL => GLOBAL_INT
  | GLOBAL_RELATIVE_ALT => GLOBAL_RELATIVE_ALT_INT
  | frame => frame

theorem flag_of_mem {p : Flt ℝ} (h : p = num 0 ∨ p = num 1) : flag (decide (p > 0)) = p := by
  rcases h with rfl | rfl
  · rw [decide_eq_false (show ¬ (num 0 : Flt ℝ) > 0 from lt_irrefl (0 : ℝ))]
    rfl
  · rw [decide_eq_true (show (num 1 : Flt ℝ) > 0 from zero_lt_one (α := ℝ))]
    rfl

theorem parseGlobal_roi {wp : WireItem ℝ} {b m : MissionItem ℝ}
    (hcmd : wp.command = .NAV_ROI ∨ wp.command = .DO_SET_ROI) (hroi : c.toInt32 wp.param1 ≠ 3)
    (h : parseGlobal c wrap_2pi wp b = .ok m) :
    m = { b with nav_cmd := .DO_SET_ROI, params := { b.params with time_inside := num 0 } } := by
  unfold parseGlobal at h
  rcases hcmd with hcmd | hcmd
  all_goals
    rw [hcmd] at h
    dsimp only at h
    rw [if_neg hroi] at h
    split at h
    · exact (Except.ok.inj h).symm
    · exact absurd h (by simp)

theorem parseGlobal_format_roi (m b : MissionItem ℝ) (hcmd : m.nav_cmd = .DO_SET_ROI) :
    parseGlobal c wrap_2pi (formatGlobal c true m).2 b =
      .ok { b with nav_cmd := .DO_SET_ROI, params := { b.params with time_inside := num 0 } } := by
  have hnone : c.toInt32 (0 : Flt ℝ) = 0 := by
    apply c.toInt32_trunc
    simp [trunc]
  simp only [formatGlobal, parseGlobal, WireItem.ofItem, hcmd, hnone]
  rw [if_neg (by decide), if_pos trivial]

theorem parseGlobal_format (hwrap : Wraps wrap_2pi) {wp : WireItem ℝ} {b m : MissionItem ℝ}
    (hsym : Symmetric c wp) (hframe : wp.frame ≠ .MISSION)
    (hb : b.params = ⟨0, 0, 0, 0, 0, 0, wp.z⟩) (h : parseGlobal c wrap_2pi wp b = .ok m) :
    parseGlobal c wrap_2pi (formatGlobal c true (finishItem wp wp.frame m)).2 b = .ok m := by
  obtain ⟨htime, hroi, -⟩ := hsym
  by_cases hcmd : wp.command = .NAV_ROI ∨ wp.command = .DO_SET_ROI
  · obtain rfl := parseGlobal_roi hcmd (hroi hframe hcmd) h
    exact parseGlobal_format_roi _ b rfl
  · cases hc : wp.command
    case NAV_ROI => exact absurd (Or.inl hc) hcmd
    case DO_SET_ROI => exact absurd (Or.inr hc) hcmd
    case NAV_LOITER_TIME =>
      simp only [parseGlobal, hc] at h
      cases h
      simp only [formatGlobal, parseGlobal, WireItem.ofItem, finishItem, flag_pos,
        flag_of_mem (htime hc)]
    -- the other commands: each parameter is written from the field it was read into
    all_goals
      simp only [parseGlobal, hc, reduceCtorEq] at h
    all_goals
      cases h
      simp only [formatGlobal, parseGlobal, WireItem.ofItem, finishItem, hb, yawOf_degrees hwrap,
        flag_pos, toUInt16_natCast, toUInt16_add_half]

theorem parseGlobal_keeps {wp : WireItem ℝ} {b m : MissionItem ℝ}
    (hz : b.params.altitude = wp.z) (h : parseGlobal c wrap_2pi wp b = .ok m) :
    m.lat = b.lat ∧ m.lon = b.lon ∧ m.altitude_is_relative = b.altitude_is_relative ∧
      m.params.altitude = wp.z := by
  -- the regions of interest are the commands with an `if`
  unfold parseGlobal at h
  split at h
  case h_7 | h_8 =>
    split at h
    · cases h
      exact ⟨rfl, rfl, rfl, rfl⟩
    · split at h
      · cases h
        exact ⟨rfl, rfl, rfl, hz⟩
      · cases h
  case h_9 =>
    cases h
    exact ⟨rfl, rfl, rfl, rfl⟩
  case h_19 => cases h
  all_goals
    cases h
    exact ⟨rfl, rfl, rfl, hz⟩

theorem formatGlobal_fields (m : MissionItem ℝ) :
    let wp := (formatGlobal c true m).2
    wp.coords = .int (c.toInt32 (round (m.lat * num 1e7))) (c.toInt32 (round (m.lon * num 1e7))) ∧
      wp.z = m.params.altitude ∧ wp.frame = globalFrame true m.altitude_is_relative ∧
      wp.autocontinue = if m.autocontinue then 1 else 0 := by
  intro wp
  simp only [wp, formatGlobal, WireItem.ofItem]
  cases m.nav_cmd
  all_goals exact ⟨rfl, rfl, rfl, rfl⟩

theorem autocontinue_flag (b : Bool) :
    decide ((if b then (1 : UInt8) else 0) % 2 = 1) = b := by
  cases b <;> rfl

theorem parse_global {wp : WireItem ℝ} (h : wp.frame.isGlobal wp.intMode) :
    parseMavlinkMissionItem c wrap_2pi wp =
      (parseGlobal c wrap_2pi wp (globalItem wp)).map (finishItem wp wp.frame) :=
  if_pos h

theorem map_eq_ok {ε α β : Type*} {f : α → β} {x : Except ε α} {y : β} (h : x.map f = .ok y) :
    ∃ a, x = .ok a ∧ f a = y := by
  cases x with
  | error e => exact absurd h (by simp [Except.map])
  | ok a => exact ⟨a, rfl, Except.ok.inj h⟩

theorem parse_format_global (hwrap : Wraps wrap_2pi) {wp : WireItem ℝ} {x y : Int32}
    (hcoords : wp.coords = .int x y) (hglobal : wp.frame.isGlobal true) {m : MissionItem ℝ}
    (hsym : Symmetric c wp) (h : parseMavlinkMissionItem c wrap_2pi wp = .ok m) :
    parseMavlinkMissionItem c wrap_2pi (formatMavlinkMissionItem c true m).2 =
      .ok { m with frame := m.frame.asInt } := by
  have hint : wp.intMode = true := by
    unfold WireItem.intMode
    rw [hcoords]
  have hframe : wp.frame ≠ .MISSION := by
    intro hf
    rw [hf] at hglobal
    exact nomatch hglobal
  rw [parse_global (by rw [hint]; exact hglobal)] at h
  obtain ⟨m₀, h₀, rfl⟩ := map_eq_ok h
  obtain ⟨hlat, hlon, hrel, halt⟩ := parseGlobal_keeps rfl h₀
  have hformat : ∀ m' : MissionItem ℝ, m'.frame = wp.frame →
      formatMavlinkMissionItem c true m' = formatGlobal c true m' := by
    intro m' hm'
    exact if_neg (by rw [hm']; exact hframe)
  rw [hformat _ rfl]
  set m₁ := finishItem wp wp.frame m₀
  obtain ⟨hc, hz, hf, ha⟩ := formatGlobal_fields (c := c) m₁
  have hcoords' : (formatGlobal c true m₁).2.coords = wp.coords := by
    rw [hc, hcoords]
    show Coords.int (c.toInt32 (round (m₀.lat * num 1e7)))
      (c.toInt32 (round (m₀.lon * num 1e7))) = Coords.int x y
    rw [hlat, hlon, globalItem, hcoords]
    exact congrArg₂ Coords.int (latLon_format x) (latLon_format y)
  have hframe' : globalFrame true m₁.altitude_is_relative = wp.frame.asInt := by
    show globalFrame true m₀.altitude_is_relative = wp.frame.asInt
    rw [hrel, globalItem]
    cases hfr : wp.frame with
    | other n =>
      rw [hfr] at hglobal
      exact absurd hglobal (by simp [Frame.isGlobal])
    | MISSION => exact absurd hfr hframe
    | GLOBAL => simp [globalFrame, Frame.asInt]
    | GLOBAL_RELATIVE_ALT => simp [globalFrame, Frame.asInt]
    | GLOBAL_INT => simp [globalFrame, Frame.asInt]
    | GLOBAL_RELATIVE_ALT_INT => simp [globalFrame, Frame.asInt]
  have hbase : globalItem (formatGlobal c true m₁).2 = globalItem wp := by
    unfold globalItem
    rw [hcoords', hz, hf, hframe']
    show MissionItem.mk _ _ ⟨0, 0, 0, 0, 0, 0, m₀.params.altitude⟩ _ _ _ _ _ _ _ _ _ _ =
      MissionItem.mk _ _ ⟨0, 0, 0, 0, 0, 0, wp.z⟩ _ _ _ _ _ _ _ _ _ _
    rw [halt]
    cases hfr : wp.frame <;> simp [Frame.asInt]
  have hglobal' : (formatGlobal c true m₁).2.frame.isGlobal (formatGlobal c true m₁).2.intMode := by
    have hint' : (formatGlobal c true m₁).2.intMode = true := by
      unfold WireItem.intMode
      rw [hcoords', hcoords]
    rw [hint', hf]
    unfold globalFrame
    split <;> rfl
  have hparse : parseGlobal c wrap_2pi (formatGlobal c true m₁).2 (globalItem wp) = .ok m₀ :=
    parseGlobal_format hwrap hsym hframe rfl h₀
  rw [parse_global hglobal', hbase, hparse]
  show Except.ok (finishItem _ _ _) = Except.ok _
  unfold finishItem
  rw [hf, hframe', ha, autocontinue_flag]
  rfl

theorem parseMission_keeps {wp : WireItem ℝ} {b m : MissionItem ℝ}
    (h : parseMission c wp b = .ok m) :
    m.params = b.params ∧ (m.nav_cmd = .DO_JUMP ↔ wp.command = .DO_JUMP) ∧
      (wp.command = .DO_JUMP → m.do_jump_mission_index = c.toInt16 wp.param1 ∧
        m.do_jump_repeat_count = c.toUInt16 wp.param2) := by
  unfold parseMission at h
  split at h
  · next hcmd =>
    cases h
    exact ⟨rfl, iff_of_true rfl hcmd, fun _ => ⟨rfl, rfl⟩⟩
  · next hcmd =>
    split at h
    · cases h
      exact ⟨rfl, by rw [hcmd]; simp, fun hjump => absurd (hcmd.symm.trans hjump) (by simp)⟩
    · cases h
  · next hcmd =>
    split at h
    · cases h
      exact ⟨rfl, by rw [hcmd], fun hjump => absurd (hcmd.symm.trans hjump) (by simp)⟩
    · cases h
  · next hjump _ _ =>
    split at h
    · cases h
      exact ⟨rfl, Iff.rfl, fun hcmd => absurd hcmd hjump⟩
    · cases h

theorem formatMission_fields {wp : WireItem ℝ} {x y : Int32} (hcoords : wp.coords = .int x y)
    (hsym : Symmetric c wp) {m : MissionItem ℝ}
    (h : parseMission c wp (missionItem wp) = .ok m) :
    (formatMission c true (finishItem wp .MISSION m)).2 =
      { wp with
        command := m.nav_cmd
        frame := .MISSION
        seq := 0
        current := false
        autocontinue := if (wp.autocontinue % 2 = 1 : Bool) then 1 else 0
        mission_type := .MISSION } := by
  obtain ⟨hparams, hjump, hindex⟩ := parseMission_keeps h
  have hx : c.toInt32 (round m.params.lat_float) = x := by
    rw [hparams, missionItem, hcoords]
    exact toInt32_round x
  have hy : c.toInt32 (round m.params.lon_float) = y := by
    rw [hparams, missionItem, hcoords]
    exact toInt32_round y
  unfold formatMission
  simp only [finishItem, WireItem.ofItem, if_true, hx, hy]
  by_cases hcmd : wp.command = .DO_JUMP
  · obtain ⟨⟨n₁, hn₁⟩, n₂, hn₂⟩ := hsym.2.2 hcmd
    obtain ⟨hi, hr⟩ := hindex hcmd
    rw [if_pos (hjump.mpr hcmd), hi, hr, hn₁, hn₂, toInt16_intCast, toUInt16_natCast, hparams,
      missionItem, hcoords]
    rfl
  · rw [if_neg fun hm => hcmd (hjump.mp hm), hparams, missionItem, hcoords]
    rfl

theorem parse_mission {wp : WireItem ℝ} (h : wp.frame = .MISSION) :
    parseMavlinkMissionItem c wrap_2pi wp =
      (parseMission c wp (missionItem wp)).map (finishItem wp .MISSION) := by
  unfold parseMavlinkMissionItem
  rw [if_neg (by rw [h]; simp [Frame.isGlobal]), if_pos h]

theorem parseMission_command {wp : WireItem ℝ} {m : MissionItem ℝ}
    (h : parseMission c wp (missionItem wp) = .ok m) {wp' : WireItem ℝ}
    (hcmd : wp'.command = m.nav_cmd) (h₁ : wp'.param1 = wp.param1) (h₂ : wp'.param2 = wp.param2) :
    parseMission c wp' (missionItem wp) = .ok m := by
  unfold parseMission at h
  split at h
  · cases h
    simp only [parseMission, hcmd, h₁, h₂]
  · split at h
    · next hroi =>
      cases h
      simp only [parseMission, hcmd, h₁]
      rw [if_pos hroi]
    · cases h
  · split at h
    · next hroi =>
      cases h
      simp only [parseMission, hcmd, h₁]
      rw [if_pos hroi]
    · cases h
  · next hjump hroi hset =>
    split at h
    · next hplain =>
      cases h
      dsimp only at hcmd
      unfold parseMission
      rw [hcmd]
      split
      · next heq => exact absurd heq hjump
      · next heq => exact absurd heq hroi
      · next heq => exact absurd heq hset
      · rw [if_pos hplain]
    · cases h

theorem parse_format_mission {wp : WireItem ℝ} {x y : Int32} (hcoords : wp.coords = .int x y)
    (hframe : wp.frame = .MISSION) {m : MissionItem ℝ} (hsym : Symmetric c wp)
    (h : parseMavlinkMissionItem c wrap_2pi wp = .ok m) :
    parseMavlinkMissionItem c wrap_2pi (formatMavlinkMissionItem c true m).2 =
      .ok { m with frame := m.frame.asInt } := by
  rw [parse_mission hframe] at h
  obtain ⟨m₀, h₀, rfl⟩ := map_eq_ok h
  have hformat : formatMavlinkMissionItem c true (finishItem wp .MISSION m₀) =
      formatMission c true (finishItem wp .MISSION m₀) := if_pos rfl
  have hfields := formatMission_fields hcoords hsym h₀
  have hcmd : (formatMission c true (finishItem wp .MISSION m₀)).2.command = m₀.nav_cmd := by
    rw [hfields]
  have hparse := parseMission_command h₀ hcmd (by rw [hfields]) (by rw [hfields])
  have hitem : missionItem (formatMission c true (finishItem wp .MISSION m₀)).2 =
      missionItem wp := by
    rw [hfields]
    rfl
  rw [hformat, parse_mission (by rw [hfields]), hitem, hparse]
  show Except.ok (finishItem _ _ _) = Except.ok _
  rw [hfields]
  unfold finishItem
  dsimp only
  rw [autocontinue_flag]
  rfl

/-- **Round trip of an accepted `MISSION_ITEM_INT`.** -/
theorem parse_format (hwrap : Wraps wrap_2pi) {wp : WireItem ℝ} {x y : Int32}
    (hcoords : wp.coords = .int x y) (hsym : Symmetric c wp) {m : MissionItem ℝ}
    (h : parseMavlinkMissionItem c wrap_2pi wp = .ok m) :
    parseMavlinkMissionItem c wrap_2pi (formatMavlinkMissionItem c true m).2 =
      .ok { m with frame := m.frame.asInt } := by
  have hint : wp.intMode = true := by
    unfold WireItem.intMode
    rw [hcoords]
  by_cases hglobal : wp.frame.isGlobal true
  · exact parse_format_global hwrap hcoords hglobal hsym h
  · by_cases hframe : wp.frame = .MISSION
    · exact parse_format_mission hcoords hframe hsym h
    · unfold parseMavlinkMissionItem at h
      rw [hint, if_neg hglobal, if_neg hframe] at h
      exact absurd h (by simp)

/-- The conversions where they are defined, and zero elsewhere. -/
def casts (K : Type*) [Field K] [LinearOrder K] [FloorRing K] : Casts K where
  toInt32
    | num x => Int32.ofInt (trunc x)
    | nan => 0
  toInt16
    | num x => Int16.ofInt (trunc x)
    | nan => 0
  toUInt16
    | num x => UInt16.ofNat (trunc x).toNat
    | nan => 0
  toInt32_trunc x n h := by
    dsimp only
    rw [h, Int32.ofInt_toInt]
  toInt16_trunc x n h := by
    dsimp only
    rw [h, Int16.ofInt_toInt]
  toUInt16_trunc x n h := by
    dsimp only
    rw [h, Int.toNat_natCast, UInt16.ofNat_toNat]

noncomputable def realCasts : Casts ℝ := casts ℝ

noncomputable def realWrap : Flt ℝ → Flt ℝ := map (toIcoMod Real.two_pi_pos 0)

theorem realWrap_wraps : Wraps realWrap where
  range x := by
    have h := toIcoMod_mem_Ico Real.two_pi_pos 0 x
    rw [zero_add] at h
    exact ⟨_, rfl, h.1, h.2⟩
  fixed y hpos hlt := by
    refine congrArg num ((toIcoMod_eq_self Real.two_pi_pos).mpr ⟨hpos, ?_⟩)
    rwa [zero_add]
  nan := rfl

def itemAt (command : Command) (frame : Frame) (param1 param4 : Flt ℝ) : WireItem ℝ where
  param1 := param1
  param2 := 0
  param3 := 0
  param4 := param4
  coords := .int 473977420 85455940
  z := 0
  seq := 0
  command := command
  frame := frame
  current := false
  autocontinue := 1
  mission_type := .MISSION

/-- A takeoff with a heading. -/
theorem parse_format_takeoff :
    ∃ m, parseMavlinkMissionItem realCasts realWrap
        (itemAt .NAV_TAKEOFF .GLOBAL_RELATIVE_ALT_INT 0 (num 90)) = .ok m ∧
      parseMavlinkMissionItem realCasts realWrap (formatMavlinkMissionItem realCasts true m).2 =
        .ok { m with frame := m.frame.asInt } := by
  obtain ⟨m, hm⟩ : ∃ m, parseMavlinkMissionItem realCasts realWrap
      (itemAt .NAV_TAKEOFF .GLOBAL_RELATIVE_ALT_INT 0 (num 90)) = .ok m := ⟨_, rfl⟩
  refine ⟨m, hm, parse_format realWrap_wraps rfl ⟨?_, ?_, ?_⟩ hm⟩
  · exact fun h => nomatch h
  · exact fun _ h => nomatch h
  · exact fun h => nomatch h

/-- The frame without integers, the heading of a loiter time and the location of a region
of interest are not what they were. -/
theorem reparsed_differs :
    (∃ m m', parseMavlinkMissionItem realCasts realWrap (itemAt .NAV_TAKEOFF .GLOBAL 0 0) = .ok m ∧
      parseMavlinkMissionItem realCasts realWrap (formatMavlinkMissionItem realCasts true m).2 =
        .ok m' ∧ m'.frame ≠ m.frame) ∧
    (∃ m m', parseMavlinkMissionItem realCasts realWrap
        (itemAt .NAV_LOITER_TIME .GLOBAL_INT 0 (num 90)) = .ok m ∧
      parseMavlinkMissionItem realCasts realWrap (formatMavlinkMissionItem realCasts true m).2 =
        .ok m' ∧ m'.params.yaw ≠ m.params.yaw) ∧
    (∃ m m', parseMavlinkMissionItem realCasts realWrap
        (itemAt .DO_SET_ROI .GLOBAL_INT (num 3) 0) = .ok m ∧
      parseMavlinkMissionItem realCasts realWrap (formatMavlinkMissionItem realCasts true m).2 =
        .ok m' ∧ m'.params.time_inside ≠ m.params.time_inside) := by
  refine ⟨⟨_, _, rfl, rfl, ?_⟩, ⟨_, _, rfl, rfl, ?_⟩, ?_⟩
  · decide
  · show yawOf realWrap (flag (decide ((num 90 : Flt ℝ) > 0))) ≠ yawOf realWrap (num 90)
    have hpi := Real.pi_pos
    have hflag : decide ((num 90 : Flt ℝ) > 0) = true :=
      decide_eq_true (show (0 : ℝ) < 90 by norm_num)
    rw [hflag, yawOf, yawOf, show (flag true : Flt ℝ) = num 1 from rfl, math.radians_num,
      math.radians_num, realWrap_wraps.fixed _ (by positivity) (by linarith),
      realWrap_wraps.fixed _ (by positivity) (by linarith)]
    intro h
    have := num.inj h
    linarith
  · have hthree : realCasts.toInt32 (num 3) = 3 :=
      realCasts.toInt32_trunc 3 3 (by have := trunc_intCast 3; simpa using this)
    set wp := itemAt .DO_SET_ROI .GLOBAL_INT (num 3) 0
    set m := finishItem wp .GLOBAL_INT { globalItem wp with
      nav_cmd := .DO_SET_ROI
      params := { (globalItem wp).params with time_inside := num 3, altitude := 0 } }
    have hm : parseMavlinkMissionItem realCasts realWrap wp = .ok m := by
      rw [parse_global rfl]
      show Except.map _ (if realCasts.toInt32 (num 3) = 3 then _ else _) = _
      rw [if_pos hthree]
      rfl
    have hformat : formatMavlinkMissionItem realCasts true m = formatGlobal realCasts true m := rfl
    refine ⟨m, _, hm, by rw [hformat, parse_global rfl, parseGlobal_format_roi m _ rfl]; rfl, ?_⟩
    show (num 0 : Flt ℝ) ≠ num 3
    intro h
    have := num.inj h
    norm_num at this

end RoundTrip

end Mission
