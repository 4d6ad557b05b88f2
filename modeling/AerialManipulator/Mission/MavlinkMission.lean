/-
The mission protocol: `MavlinkMissionManager`.

Every MAVLink link has a manager that takes part in uploads and downloads of missions,
fences and rally points.  The managers share static variables (which waypoint store is
active, how many items there are, whether a transfer is in progress) and the data manager.
A handler sees the shared state and its own; what it sends is collected.

`Io` stands for what a handler gets from outside: the time and whether the data manager
carries out what it is asked for.  A write that fails leaves the stored items alone.
-/
import AerialManipulator.Mission.MissionItem
import AerialManipulator.Dataman.Dataman
import AerialManipulator.Lib.Trace

open WithNaN

namespace Mission

structure Address where
  sysid : UInt8
  compid : UInt8
  deriving DecidableEq

/-- `MAVLINK_WPM_STATES`. -/
inductive WpmState
  | IDLE
  | SENDLIST
  | GETLIST
  deriving DecidableEq

/-- `DM_KEY_WAYPOINTS_OFFBOARD_0` and `DM_KEY_WAYPOINTS_OFFBOARD_1`. -/
inductive Offboard
  | OFFBOARD_0
  | OFFBOARD_1
  deriving DecidableEq

def Offboard.alternate : Offboard → Offboard
  | OFFBOARD_0 => OFFBOARD_1
  | OFFBOARD_1 => OFFBOARD_0

@[simp] theorem Offboard.alternate_ne (id : Offboard) : id.alternate ≠ id := by
  cases id <;> decide

/-- `DM_KEY_FENCE_POINTS` and `DM_KEY_SAFE_POINTS`. -/
inductive PointKey
  | FENCE_POINTS
  | SAFE_POINTS
  deriving DecidableEq

/-- The union of `mission_fence_point_s`. -/
inductive Extent (K : Type*)
  | vertices (vertex_count : UInt16)
  | radius (circle_radius : Flt K)

/-- `mission_fence_point_s` and `mission_safe_point_s`. -/
inductive Point (K : Type*)
  | fence (lat lon alt : Flt K) (extent : Extent K) (nav_cmd : Command) (frame : Frame)
  | safe (lat lon alt : Flt K) (frame : Frame)

/-- `mission_stats_entry_s`. -/
structure Stats where
  num_items : ℕ
  update_counter : UInt16

structure MissionState where
  timestamp : UInt64
  dataman_id : Offboard
  count : ℕ
  current_seq : ℤ

/-- What the managers keep in the data manager.  The statistics of the points are their
entry 0. -/
structure Store (K : Type*) where
  waypoints : Offboard → ℕ → Option (MissionItem K)
  points : PointKey → ℕ → Option (Point K)
  stats : PointKey → Option Stats
  state : Option MissionState

namespace Store

variable {K : Type*}

def putWaypoint (s : Store K) (id : Offboard) (seq : ℕ) (item : MissionItem K) : Store K :=
  { s with
    waypoints := Function.update s.waypoints id (Function.update (s.waypoints id) seq (some item)) }

def putPoint (s : Store K) (key : PointKey) (index : ℕ) (p : Point K) : Store K :=
  { s with points := Function.update s.points key (Function.update (s.points key) index (some p)) }

end Store

structure Counts where
  mission : ℕ
  fence : ℕ
  rally : ℕ

/-- The static members, the build and the address of this system. -/
structure Shared (K : Type*) where
  build : Dataman.Build
  own : Address
  store : Store K
  dataman_id : Offboard
  count : Counts
  current_seq : ℤ
  transfer_in_progress : Bool
  update_counter : PointKey → UInt16

structure Manager where
  state : WpmState
  mission_type : MissionType
  time_last_recv : UInt64
  time_last_sent : UInt64
  reached_sent_count : ℕ
  int_mode : Bool
  filesystem_errcount : ℕ
  my_dataman_id : Offboard
  last_reached : ℤ
  transfer_dataman_id : Offboard
  transfer_count : ℕ
  transfer_seq : ℕ
  transfer_current_seq : ℤ
  partner : Address
  geofence_locked : Bool

/-- `Manager` as it is constructed. -/
def Manager.init (dataman_id : Offboard) : Manager where
  state := .IDLE
  mission_type := .MISSION
  time_last_recv := 0
  time_last_sent := 0
  reached_sent_count := 0
  int_mode := false
  filesystem_errcount := 0
  my_dataman_id := dataman_id
  last_reached := -1
  transfer_dataman_id := .OFFBOARD_1
  transfer_count := 0
  transfer_seq := 0
  transfer_current_seq := -1
  partner := ⟨0, 0⟩
  geofence_locked := false

/-- What a manager sends; the texts are `send_statustext_critical` and
`send_statustext_info`, `mission` is the topic for the navigator. -/
inductive Out (K : Type*)
  | ack (target : Address) (type : MissionResult) (mission_type : MissionType)
  | request (int_mode : Bool) (target : Address) (seq : ℕ) (mission_type : MissionType)
  | count (target : Address) (count : ℕ) (mission_type : MissionType)
  | item (target : Address) (seq : ℕ) (current : Bool) (wp : WireItem K)
  | current (seq : ℤ)
  | reached (seq : ℤ)
  | critical (text : String)
  | info (text : String)
  | mission (state : MissionState)

/-- The time, and which calls of the data manager succeed. -/
structure Io where
  now : UInt64
  writeItem : Bool
  writeState : Bool
  writeStats : PointKey → Bool
  read : Bool
  lock : Bool

/-- What a handler works on: the shared state, its manager, and what it has sent. -/
structure World (K : Type*) where
  shared : Shared K
  me : Manager
  out : List (Out K)

/-- The payload of a `MISSION_*` message. -/
inductive Body (K : Type*)
  | ack (type : MissionResult) (mission_type : MissionType)
  | setCurrent (seq : ℕ)
  | requestList (mission_type : MissionType)
  | request (seq : ℕ) (mission_type : MissionType)
  | requestInt (seq : ℕ) (mission_type : MissionType)
  | count (count : ℕ) (mission_type : MissionType)
  | item (wp : WireItem K)
  | clearAll (mission_type : MissionType)

/-- A message: an item has floats or integers by its coordinates. -/
structure Message (K : Type*) where
  sender : Address
  target : Address
  body : Body K

/-- `mission_result_s`. -/
structure MissionResultTopic where
  seq_current : ℤ
  seq_reached : ℤ
  item_do_jump_changed : Bool
  item_changed_index : ℕ

/-- Polygons have a number of vertices, the other fences a radius. -/
def Command.isPolygon (cmd : Command) : Bool :=
  cmd = .NAV_FENCE_POLYGON_VERTEX_INCLUSION || cmd = .NAV_FENCE_POLYGON_VERTEX_EXCLUSION

def Command.misplaced (cmd : Command) : Bool :=
  cmd = .NAV_FENCE_POLYGON_VERTEX_INCLUSION || cmd = .NAV_FENCE_POLYGON_VERTEX_EXCLUSION ||
    cmd = .NAV_FENCE_CIRCLE_INCLUSION || cmd = .NAV_FENCE_CIRCLE_EXCLUSION ||
    cmd = .NAV_RALLY_POINT

def fencePoint {K : Type*} (item : MissionItem K) : Point K :=
  .fence item.lat item.lon item.params.altitude
    (if item.nav_cmd.isPolygon then .vertices item.count else .radius item.params.time_inside)
    item.nav_cmd item.frame

def safePoint {K : Type*} (item : MissionItem K) : Point K :=
  .safe item.lat item.lon item.params.altitude item.frame

def fenceItem {K : Type*} [Field K] (lat lon alt : Flt K) (extent : Extent K)
    (nav_cmd : Command) (frame : Frame) : MissionItem K :=
  { (MissionItem.zero : MissionItem K) with
    lat := lat
    lon := lon
    nav_cmd := nav_cmd
    frame := frame
    params := ⟨match extent with | .vertices _ => 0 | .radius r => r, 0, 0, 0, 0, 0, alt⟩
    count := match extent with | .vertices n => n | .radius _ => 0 }

def safeItem {K : Type*} [Field K] (lat lon alt : Flt K) (frame : Frame) : MissionItem K :=
  { (MissionItem.zero : MissionItem K) with
    lat := lat
    lon := lon
    nav_cmd := .NAV_RALLY_POINT
    frame := frame
    params := ⟨0, 0, 0, 0, 0, 0, alt⟩ }

/-- `CHECK_SYSID_COMPID_MISSION`. -/
def addressed (own target : Address) : Bool :=
  target.sysid = own.sysid &&
    -- `MAV_COMP_ID_MISSIONPLANNER` and `MAV_COMP_ID_ALL`
    (target.compid = own.compid || target.compid = 190 || target.compid = 0)

/-- `MAX_COUNT`, zero out of bounds. -/
def maxCount (b : Dataman.Build) : MissionType → ℕ
  | .MISSION => Dataman.maxIndex b Dataman.Item.WAYPOINTS_OFFBOARD_0.num
  | .FENCE => Dataman.maxIndex b Dataman.Item.FENCE_POINTS.num - 1
  | .RALLY => Dataman.maxIndex b Dataman.Item.SAFE_POINTS.num - 1
  | _ => 0

/-- `_count[type]`, zero out of bounds. -/
def Counts.of (c : Counts) : MissionType → ℕ
  | .MISSION => c.mission
  | .FENCE => c.fence
  | .RALLY => c.rally
  | _ => 0

/-- `FILESYSTEM_ERRCOUNT_NOTIFY_LIMIT`. -/
def ERRCOUNT_LIMIT : ℕ := 2

/-- `MAVLINK_MISSION_PROTOCOL_TIMEOUT_DEFAULT`. -/
def PROTOCOL_TIMEOUT : UInt64 := 5000000

/-- `MAVLINK_MISSION_RETRY_TIMEOUT_DEFAULT`. -/
def RETRY_TIMEOUT : UInt64 := 250000

namespace World

variable {K : Type*}

/-! ### Sending -/

def say (w : World K) (o : Out K) : World K := { w with out := w.out ++ [o] }

def currentMaxItemCount (w : World K) : ℕ := maxCount w.shared.build w.me.mission_type

def currentItemCount (w : World K) : ℕ := w.shared.count.of w.me.mission_type

def sendMissionAck (w : World K) (target : Address) (type : MissionResult) : World K :=
  w.say (.ack target type w.me.mission_type)

def ackPartner (w : World K) (type : MissionResult) : World K := w.sendMissionAck w.me.partner type

def sendMissionCurrent (w : World K) (seq : ℤ) : World K :=
  if seq < w.shared.count.mission then w.say (.current seq)
  else if seq ≤ 0 ∧ w.shared.count.mission = 0 then w
  else w.say (.critical "ERROR: wp index out of bounds")

def sendMissionCount (w : World K) (io : Io) (target : Address) (count : ℕ)
    (mission_type : MissionType) : World K :=
  { w with me.time_last_sent := io.now }.say (.count target count mission_type)

def sendMissionRequest (w : World K) (io : Io) (target : Address) (seq : ℕ) : World K :=
  if seq < w.currentMaxItemCount then
    { w with me.time_last_sent := io.now }.say (.request w.me.int_mode target seq w.me.mission_type)
  else w.say (.critical "ERROR: Waypoint index exceeds list capacity")

def requestNext (w : World K) (io : Io) : World K :=
  w.sendMissionRequest io w.me.partner w.me.transfer_seq

/-- `_filesystem_errcount++` and its text. -/
def filesystemError (w : World K) (text : String) : World K :=
  let w' : World K := { w with me.filesystem_errcount := w.me.filesystem_errcount + 1 }
  if w.me.filesystem_errcount < ERRCOUNT_LIMIT then w'.say (.critical text) else w'

/-! ### Stored state -/

def updateActiveMission (w : World K) (io : Io) (dataman_id : Offboard) (count : ℕ) (seq : ℤ) :
    World K × Bool :=
  let mission : MissionState := ⟨io.now, dataman_id, count, seq⟩
  if io.writeState then
    ({ w with
        shared.store.state := some mission
        shared.dataman_id := dataman_id
        shared.count.mission := count
        shared.current_seq := seq
        me.my_dataman_id := dataman_id }.say (.mission mission), true)
  else (w.filesystemError "Mission storage: Unable to write to microSD", false)

/-- `_count` with the number of points. -/
def setCount (c : Counts) (key : PointKey) (count : ℕ) : Counts :=
  match key with
  | .FENCE_POINTS => { c with fence := count }
  | .SAFE_POINTS => { c with rally := count }

/-- `update_geofence_count` and `update_safepoint_count`. -/
def updateCount (key : PointKey) (w : World K) (io : Io) (count : ℕ) : World K × Bool :=
  let counter := w.shared.update_counter key + 1
  let w : World K :=
    { w with shared.update_counter := Function.update w.shared.update_counter key counter }
  if io.writeStats key then
    ({ w with
        shared.store.stats := Function.update w.shared.store.stats key (some ⟨count, counter⟩)
        shared.count := setCount w.shared.count key count }, true)
  else (w.filesystemError "Mission storage: Unable to write to microSD", false)

def updateGeofenceCount (w : World K) (io : Io) (count : ℕ) : World K × Bool :=
  updateCount .FENCE_POINTS w io count

def updateSafepointCount (w : World K) (io : Io) (count : ℕ) : World K × Bool :=
  updateCount .SAFE_POINTS w io count

def loadGeofenceStats (w : World K) (io : Io) : World K :=
  match w.shared.store.stats .FENCE_POINTS with
  | none => w
  | some stats =>
    if io.read then
      { w with
        shared.count.fence := stats.num_items
        shared.update_counter :=
          Function.update w.shared.update_counter .FENCE_POINTS stats.update_counter }
    else w

def loadSafepointStats (w : World K) (io : Io) : World K :=
  match w.shared.store.stats .SAFE_POINTS with
  | none => w
  | some stats => if io.read then { w with shared.count.rally := stats.num_items } else w

def switchToIdleState (w : World K) : World K :=
  { w with me.geofence_locked := false, me.state := .IDLE }

def endTransfer (w : World K) : World K :=
  { w.switchToIdleState with shared.transfer_in_progress := false }

/-! ### Messages without items -/

/-- The body of `handle_mission_ack`. -/
def handleMissionAck (w : World K) (io : Io) (sender : Address) (type : MissionResult)
    (mission_type : MissionType) : World K :=
  if sender = w.me.partner then
    if w.me.state = .SENDLIST ∧ w.me.mission_type = mission_type then
      -- accepted, cancelled or an error: the download is over in any case
      { w with me.time_last_recv := io.now }.switchToIdleState
    else if w.me.state = .GETLIST then
      if type = .UNSUPPORTED then { w with me.int_mode := !w.me.int_mode }.requestNext io
      else if type = .OPERATION_CANCELLED then w.endTransfer
      else w
    else w
  else w.say (.critical "REJ. WP CMD: partner id mismatch")

/-- The body of `handle_mission_set_current`. -/
def handleMissionSetCurrent (w : World K) (io : Io) (seq : ℕ) : World K :=
  if w.me.state = .IDLE then
    let w : World K := { w with me.time_last_recv := io.now }
    if seq < w.shared.count.mission then
      match w.updateActiveMission io w.shared.dataman_id w.shared.count.mission seq with
      | (w, true) => w
      | (w, false) => w.say (.critical "WPM: WP CURR CMD: Error setting ID")
    else w.say (.critical "WPM: WP CURR CMD: Not in list")
  else w.say (.critical "WPM: IGN WP CURR CMD: Busy")

/-- `handle_mission_request_list` from where the manager is idle or sends the same list. -/
def startDownload (w : World K) (io : Io) (sender : Address) (mission_type : MissionType) :
    World K :=
  let w : World K := { w with
    me.time_last_recv := io.now
    me.state := .SENDLIST
    me.mission_type := mission_type }
  let w : World K := match mission_type with
    | .FENCE => w.loadGeofenceStats io
    | .RALLY => w.loadSafepointStats io
    | _ => w
  let w : World K := { w with
    me.transfer_seq := 0
    me.transfer_count := w.currentItemCount
    me.partner := sender }
  w.sendMissionCount io sender w.me.transfer_count mission_type

/-- The body of `handle_mission_request_list`. -/
def handleMissionRequestList (w : World K) (io : Io) (sender : Address)
    (mission_type : MissionType) : World K :=
  let w : World K :=
    if w.me.transfer_seq = w.currentItemCount then w.switchToIdleState else w
  if w.me.state = .IDLE ∨ (w.me.state = .SENDLIST ∧ w.me.mission_type = mission_type) then
    w.startDownload io sender mission_type
  else w.say (.info "Mission download request ignored, already active")

/-- `handle_mission_count` for an upload that is taken. -/
def openUpload (w : World K) (io : Io) (sender : Address) (count : ℕ) : World K :=
  { w with
    me.state := .GETLIST
    me.transfer_seq := 0
    me.partner := sender
    me.transfer_count := count
    me.transfer_dataman_id := w.shared.dataman_id.alternate
    me.transfer_current_seq := -1
    me.geofence_locked := if w.me.mission_type = .FENCE then io.lock || w.me.geofence_locked
      else w.me.geofence_locked }

/-- `handle_mission_count` with a count of zero. -/
def clearByCount (w : World K) (io : Io) : World K :=
  match w.me.mission_type with
  | .MISSION => (w.updateActiveMission io w.shared.dataman_id.alternate 0 0).1
  | .FENCE => (w.updateGeofenceCount io 0).1
  | .RALLY => (w.updateSafepointCount io 0).1
  | _ => w

/-- The body of `handle_mission_count`. -/
def handleMissionCount (w : World K) (io : Io) (sender : Address) (count : ℕ)
    (mission_type : MissionType) : World K :=
  match w.me.state with
  | .IDLE =>
    let w : World K := { w with me.time_last_recv := io.now }
    if w.shared.transfer_in_progress then w.ackPartner .ERROR
    else
      let w : World K := { w with
        shared.transfer_in_progress := true
        me.mission_type := mission_type }
      if count > w.currentMaxItemCount then
        { w.ackPartner .NO_SPACE with shared.transfer_in_progress := false }
      else if count = 0 then
        { (w.clearByCount io).ackPartner .ACCEPTED with shared.transfer_in_progress := false }
      else (w.openUpload io sender count).requestNext io
  | .GETLIST =>
    let w : World K := { w with me.time_last_recv := io.now }
    if w.me.transfer_seq = 0 then w.requestNext io
    else (w.say (.critical "WPM: REJ. CMD: Busy")).ackPartner .ERROR
  | .SENDLIST => (w.say (.critical "WPM: IGN MISSION_COUNT: Busy")).ackPartner .ERROR

/-- The body of `handle_mission_clear_all`; `ret` is kept as success. -/
def handleMissionClearAll (w : World K) (io : Io) (mission_type : MissionType) : World K :=
  if w.me.state = .IDLE then
    let w : World K := { w with me.time_last_recv := io.now, me.mission_type := mission_type }
    let (w, ret) := match mission_type with
      | .MISSION => w.updateActiveMission io w.shared.dataman_id.alternate 0 0
      | .FENCE => w.updateGeofenceCount io 0
      | .RALLY => w.updateSafepointCount io 0
      | .ALL =>
        let (w, mission) := w.updateActiveMission io w.shared.dataman_id.alternate 0 0
        let (w, fence) := w.updateGeofenceCount io 0
        let (w, rally) := w.updateSafepointCount io 0
        (w, mission && fence && rally)
      | _ => (w, true)
    w.ackPartner (if ret then .ACCEPTED else .ERROR)
  else w.say (.critical "WPM: IGN CLEAR CMD: Busy")

/-! ### Items -/

section Items

variable [Field K] [LinearOrder K] [FloorRing K] [Elementary K]
  (c : Casts K) (wrap_2pi : Flt K → Flt K)

/-- The item that `send_mission_item` reads. -/
def readItem (w : World K) (seq : ℕ) : Option (MissionItem K) :=
  match w.me.mission_type with
  | .MISSION => w.shared.store.waypoints w.shared.dataman_id seq
  | .FENCE =>
    match w.shared.store.points .FENCE_POINTS (seq + 1) with
    | some (.fence lat lon alt extent nav_cmd frame) =>
      some (fenceItem lat lon alt extent nav_cmd frame)
    | _ => none
  | .RALLY =>
    match w.shared.store.points .SAFE_POINTS (seq + 1) with
    | some (.safe lat lon alt frame) => some (safeItem lat lon alt frame)
    | _ => none
  | _ => none

def warnUnknownType (w : World K) : World K :=
  match w.me.mission_type with
  | .MISSION | .FENCE | .RALLY => w
  | _ => w.say (.critical "Received unknown mission type, abort.")

def sendMissionItem (w : World K) (io : Io) (target : Address) (seq : ℕ) : World K :=
  let w := w.warnUnknownType
  match if io.read then w.readItem seq else none with
  | some item =>
    { w with me.time_last_sent := io.now }.say (.item target seq
      (w.shared.current_seq = seq) (formatMavlinkMissionItem c w.me.int_mode item).2)
  | none =>
    (w.ackPartner .ERROR).filesystemError "Mission storage: Unable to read from microSD"

/-- The end of `handle_mission_request_both` for a request that was not expected. -/
def rejectRequest (w : World K) : World K :=
  (w.switchToIdleState.ackPartner .ERROR).say (.critical "WPM: REJ. CMD: Req. WP was unexpected")

/-- The end of `handle_mission_request_both` for a request that was. -/
def answerRequest (w : World K) (io : Io) (seq : ℕ) : World K :=
  if seq < w.currentItemCount then w.sendMissionItem c io w.me.partner seq else w.rejectRequest

/-- `handle_mission_request_both`, behind `handle_mission_request` or
`handle_mission_request_int`. -/
def handleMissionRequestBoth (w : World K) (io : Io) (sender : Address) (seq : ℕ)
    (mission_type : MissionType) : World K :=
  if sender = w.me.partner then
    match w.me.state with
    | .SENDLIST =>
      if w.me.mission_type ≠ mission_type then w
      else
        let w : World K := { w with me.time_last_recv := io.now }
        if seq = w.me.transfer_seq ∧ w.me.transfer_seq < w.me.transfer_count then
          { w with me.transfer_seq := w.me.transfer_seq + 1 }.answerRequest c io seq
        else if seq + 1 = w.me.transfer_seq then w.answerRequest c io seq
        else w.rejectRequest
    | .IDLE => w
    | .GETLIST => w.say (.critical "WPM: REJ. CMD: Busy")
  else w.say (.critical "WPM: REJ. CMD: partner id mismatch")

/-- The switch of `handle_mission_item_both` that stores the item: whether it failed to
write and whether the item was refused. -/
def storeItem (w : World K) (io : Io) (seq : ℕ) (item : MissionItem K) : World K × Bool × Bool :=
  match w.me.mission_type with
  | .MISSION =>
    if item.nav_cmd.misplaced then (w, false, true)
    else if io.writeItem then
      ({ w with
          shared.store := w.shared.store.putWaypoint w.me.transfer_dataman_id seq item },
        false, false)
    else (w, true, false)
  | .FENCE =>
    if item.nav_cmd.isPolygon && item.count < 3 then ((w.updateGeofenceCount io 0).1, false, true)
    else if io.writeItem then
      ({ w with
          shared.store := w.shared.store.putPoint .FENCE_POINTS (seq + 1) (fencePoint item) },
        false, false)
    else (w, true, false)
  | .RALLY =>
    if io.writeItem then
      ({ w with
          shared.store := w.shared.store.putPoint .SAFE_POINTS (seq + 1) (safePoint item) },
        false, false)
    else (w, true, false)
  | _ => (w.say (.critical "Received unknown mission type, abort."), false, false)

/-- The switch of `handle_mission_item_both` after the last item. -/
def commitUpload (w : World K) (io : Io) : World K × Bool :=
  match w.me.mission_type with
  | .MISSION =>
    w.updateActiveMission io w.me.transfer_dataman_id w.me.transfer_count w.me.transfer_current_seq
  | .FENCE => w.updateGeofenceCount io w.me.transfer_count
  | .RALLY => w.updateSafepointCount io w.me.transfer_count
  | _ => (w, true)

/-- `handle_mission_item_both` for the item that is expected. -/
def takeItem (w : World K) (io : Io) (wp : WireItem K) : World K :=
  match parseMavlinkMissionItem c wrap_2pi wp with
  | .error ret =>
    ((w.say (.critical "IGN MISSION_ITEM: Invalid item")).ackPartner ret).endTransfer
  | .ok item =>
    match w.storeItem io wp.seq item with
    | (w, write_failed, check_failed) =>
      if write_failed || check_failed then
        let w := w.ackPartner .ERROR
        (if write_failed then w.say (.critical "Unable to write on micro SD") else w).endTransfer
      else
        let w : World K := { w with
          me.transfer_current_seq := if wp.current then wp.seq else w.me.transfer_current_seq
          me.transfer_seq := wp.seq + 1 }
        if w.me.transfer_seq = w.me.transfer_count then
          match w.commitUpload io with
          | (w, ret) =>
            { w.switchToIdleState.ackPartner (if ret then .ACCEPTED else .ERROR) with
              shared.transfer_in_progress := false }
        else w.requestNext io

/-- `handle_mission_item_both`, behind `handle_mission_item` or
`handle_mission_item_int`. -/
def handleMissionItemBoth (w : World K) (io : Io) (wp : WireItem K) : World K :=
  if wp.mission_type ≠ w.me.mission_type then w.ackPartner .ERROR
  else
    match w.me.state with
    | .GETLIST =>
      let w : World K := { w with me.time_last_recv := io.now }
      if wp.seq ≠ w.me.transfer_seq then w.requestNext io else w.takeItem c wrap_2pi io wp
    | .IDLE =>
      -- the last acknowledgement may have been lost
      if w.me.transfer_seq = wp.seq + 1 then w.ackPartner .ACCEPTED
      else (w.say (.critical "IGN MISSION_ITEM: No transfer")).ackPartner .ERROR
    | .SENDLIST => (w.say (.critical "IGN MISSION_ITEM: Busy")).ackPartner .ERROR

/-- `_int_mode` follows the items and the requests for them, whoever they are for. -/
def takeMode (w : World K) : Body K → World K
  | .request _ _ => { w with me.int_mode := false }
  | .requestInt _ _ => { w with me.int_mode := true }
  | .item wp => { w with me.int_mode := wp.intMode }
  | _ => w

def dispatch (w : World K) (io : Io) (sender : Address) : Body K → World K
  | .ack type mission_type => w.handleMissionAck io sender type mission_type
  | .setCurrent seq => w.handleMissionSetCurrent io seq
  | .requestList mission_type => w.handleMissionRequestList io sender mission_type
  | .request seq mission_type | .requestInt seq mission_type =>
    w.handleMissionRequestBoth c io sender seq mission_type
  | .count count mission_type => w.handleMissionCount io sender count mission_type
  | .item wp => w.handleMissionItemBoth c wrap_2pi io wp
  | .clearAll mission_type => w.handleMissionClearAll io mission_type

def handleMessage (w : World K) (io : Io) (msg : Message K) : World K :=
  let w := w.takeMode msg.body
  if addressed w.shared.own msg.target then w.dispatch c wrap_2pi io msg.sender msg.body else w

/-! ### Periodic work -/

/-- News of the mission: the current item and the one that was reached. -/
def noteResult (w : World K) (r : MissionResultTopic) : World K :=
  let w : World K := { w with shared.current_seq := r.seq_current }
  if w.me.last_reached ≠ r.seq_reached then
    let w : World K := { w with me.last_reached := r.seq_reached, me.reached_sent_count := 0 }
    if r.seq_reached ≥ 0 then w.say (.reached r.seq_reached) else w
  else w

/-- A jump whose repetitions have changed is sent again, but not during a transfer. -/
def resendJump (w : World K) (io : Io) (r : MissionResultTopic) : World K :=
  if r.item_do_jump_changed ∧ w.me.state = .IDLE then
    { w with me.mission_type := .MISSION }.sendMissionItem c io w.me.partner r.item_changed_index
  else w

def repeatProgress (w : World K) : World K :=
  let w := w.sendMissionCurrent w.shared.current_seq
  if w.me.last_reached ≥ 0 ∧ w.me.reached_sent_count < 10 then
    { w.say (.reached w.me.last_reached) with
      me.reached_sent_count := w.me.reached_sent_count + 1 }
  else w

/-- The first part of `send`: news of the mission, or the slow repetition. -/
def sendProgress (w : World K) (io : Io) (result : Option MissionResultTopic) (slow : Bool) :
    World K :=
  match result with
  | some r =>
    let w := w.noteResult r
    (w.sendMissionCurrent w.shared.current_seq).resendJump c io r
  | none => if slow then w.repeatProgress else w

/-- The protocol timeout of `send` is due. -/
def timedOut (w : World K) (io : Io) : Bool :=
  w.me.state ≠ .IDLE && w.me.time_last_recv > 0 && io.now - w.me.time_last_recv > PROTOCOL_TIMEOUT

def retryDue (w : World K) (io : Io) : Bool :=
  w.me.state = .GETLIST && w.me.time_last_sent > 0 && io.now - w.me.time_last_sent > RETRY_TIMEOUT

/-- The second part of `send`. -/
def checkTimeouts (w : World K) (io : Io) : World K :=
  if w.retryDue io then w.requestNext io
  else if w.timedOut io then (w.say (.critical "Operation timeout")).endTransfer
  else if w.me.state = .IDLE then { w with me.time_last_sent := 0, me.time_last_recv := 0 }
  else w

/-- `send`, which does nothing on a link of high latency. -/
def send (w : World K) (io : Io) (iridium : Bool) (result : Option MissionResultTopic)
    (slow : Bool) : World K :=
  if iridium then w else (w.sendProgress c io result slow).checkTimeouts io

def checkActiveMission (w : World K) (io : Io) (iridium : Bool) : World K :=
  if iridium then w
  else if w.me.my_dataman_id ≠ w.shared.dataman_id then
    { w with me.my_dataman_id := w.shared.dataman_id }.sendMissionCount io w.me.partner
      w.shared.count.mission .MISSION
  else w

end Items

end World

end Mission
