/-
What a step of a mission manager can do.

`Core` is what the protocol is about: the state of the transfer, and the stored lists.
The rest (times, texts, counters, the mode of the items) decides when and how a message is
sent.  `Transition` lists every change of the core that one event can make, with the
acknowledgements that are sent along.

* **`react_transition`** — every event makes one of these changes;
* **`System.step`** — a step of one of any number of managers with their shared state.
-/
import AerialManipulator.Mission.MavlinkMission

open WithNaN

namespace Mission

variable {K : Type*}

/-- What happens to a manager: a message, or one of its periodic calls. -/
inductive Event (K : Type*)
  | message (io : Io) (msg : Message K)
  | send (io : Io) (iridium : Bool) (result : Option MissionResultTopic) (slow : Bool)
  | checkActiveMission (io : Io) (iridium : Bool)

/-- The transfer of a manager and the lists it works on. -/
structure Core (K : Type*) where
  build : Dataman.Build
  own : Address
  state : WpmState
  mission_type : MissionType
  transfer_seq : ℕ
  transfer_count : ℕ
  transfer_dataman_id : Offboard
  partner : Address
  dataman_id : Offboard
  count : Counts
  in_progress : Bool
  waypoints : Offboard → ℕ → Option (MissionItem K)
  points : PointKey → ℕ → Option (Point K)
  stats : PointKey → Option Stats

def Out.acknowledges : Out K → Option (Address × MissionResult)
  | .ack target type _ => some (target, type)
  | _ => none

namespace World

def core (w : World K) : Core K where
  build := w.shared.build
  own := w.shared.own
  state := w.me.state
  mission_type := w.me.mission_type
  transfer_seq := w.me.transfer_seq
  transfer_count := w.me.transfer_count
  transfer_dataman_id := w.me.transfer_dataman_id
  partner := w.me.partner
  dataman_id := w.shared.dataman_id
  count := w.shared.count
  in_progress := w.shared.transfer_in_progress
  waypoints := w.shared.store.waypoints
  points := w.shared.store.points
  stats := w.shared.store.stats

def acks (w : World K) : List (Address × MissionResult) := w.out.filterMap Out.acknowledges

theorem acks_say (w : World K) (o : Out K) :
    (w.say o).acks = w.acks ++ (Out.acknowledges o).toList := by
  unfold acks say
  rw [List.filterMap_append]
  cases h : Out.acknowledges o with
  | none => simp [h]
  | some a => simp [h]

/-! ### What sending leaves alone -/

@[simp] theorem core_ackPartner (w : World K) (type : MissionResult) :
    (w.ackPartner type).core = w.core := rfl

@[simp] theorem acks_ackPartner (w : World K) (type : MissionResult) :
    (w.ackPartner type).acks = w.acks ++ [(w.me.partner, type)] :=
  acks_say w _

@[simp] theorem acks_critical (w : World K) (text : String) :
    (w.say (.critical text)).acks = w.acks := by
  rw [acks_say]
  exact List.append_nil _

@[simp] theorem acks_info (w : World K) (text : String) : (w.say (.info text)).acks = w.acks := by
  rw [acks_say]
  exact List.append_nil _

@[simp] theorem acks_sendMissionCount (w : World K) (io : Io) (target : Address) (count : ℕ)
    (mission_type : MissionType) :
    (w.sendMissionCount io target count mission_type).acks = w.acks := by
  unfold sendMissionCount
  rw [acks_say]
  exact List.append_nil _

@[simp] theorem core_requestNext (w : World K) (io : Io) : (w.requestNext io).core = w.core := by
  unfold requestNext sendMissionRequest
  split <;> rfl

@[simp] theorem acks_requestNext (w : World K) (io : Io) : (w.requestNext io).acks = w.acks := by
  unfold requestNext sendMissionRequest
  split
  · rw [acks_say]
    exact List.append_nil _
  · exact acks_critical _ _

@[simp] theorem core_filesystemError (w : World K) (text : String) :
    (w.filesystemError text).core = w.core := by
  unfold filesystemError
  split <;> rfl

@[simp] theorem acks_filesystemError (w : World K) (text : String) :
    (w.filesystemError text).acks = w.acks := by
  unfold filesystemError
  split
  · exact acks_critical _ _
  · rfl

/-! ### What the stored state becomes -/

@[simp] theorem acks_updateActiveMission (w : World K) (io : Io) (dataman_id : Offboard)
    (count : ℕ) (seq : ℤ) : (w.updateActiveMission io dataman_id count seq).1.acks = w.acks := by
  unfold updateActiveMission
  split
  · rw [acks_say]
    exact List.append_nil _
  · exact acks_filesystemError _ _

theorem snd_updateActiveMission (w : World K) (io : Io) (dataman_id : Offboard) (count : ℕ)
    (seq : ℤ) : (w.updateActiveMission io dataman_id count seq).2 = io.writeState := by
  unfold updateActiveMission
  split <;> simp [*]

theorem core_updateActiveMission (w : World K) (io : Io) (dataman_id : Offboard) (count : ℕ)
    (seq : ℤ) : (w.updateActiveMission io dataman_id count seq).1.core =
      if io.writeState then
        { w.core with dataman_id := dataman_id, count := { w.core.count with mission := count } }
      else w.core := by
  unfold updateActiveMission
  split
  · rfl
  · exact core_filesystemError _ _

@[simp] theorem acks_updateCount (key : PointKey) (w : World K) (io : Io) (count : ℕ) :
    (updateCount key w io count).1.acks = w.acks := by
  unfold updateCount
  dsimp only
  split
  · rfl
  · exact acks_filesystemError _ _

theorem snd_updateCount (key : PointKey) (w : World K) (io : Io) (count : ℕ) :
    (updateCount key w io count).2 = io.writeStats key := by
  unfold updateCount
  dsimp only
  split <;> simp [*]

theorem core_updateCount (key : PointKey) (w : World K) (io : Io) (count : ℕ) :
    (updateCount key w io count).1.core =
      if io.writeStats key then
        { w.core with
          stats := Function.update w.core.stats key (some ⟨count, w.shared.update_counter key + 1⟩)
          count := setCount w.core.count key count }
      else w.core := by
  unfold updateCount
  dsimp only
  split
  · rfl
  · exact core_filesystemError _ _

@[simp] theorem mission_setCount (c : Counts) (key : PointKey) (count : ℕ) :
    (setCount c key count).mission = c.mission := by
  cases key <;> rfl

end World

/-! ### Transitions -/

def PointKey.type : PointKey → MissionType
  | FENCE_POINTS => .FENCE
  | SAFE_POINTS => .RALLY

theorem PointKey.type_ne_mission (key : PointKey) : .MISSION ≠ key.type := by
  cases key <;> decide

theorem PointKey.type_ne_all (key : PointKey) : .ALL ≠ key.type := by
  cases key <;> decide

theorem PointKey.type_ne_other (key : PointKey) (t : UInt8) : .other t ≠ key.type := by
  cases key <;> simp [PointKey.type]

def PointKey.point : PointKey → MissionItem K → Point K
  | FENCE_POINTS => fencePoint
  | SAFE_POINTS => safePoint

def MissionItem.tooFew (item : MissionItem K) : Bool := item.nav_cmd.isPolygon && item.count < 3

namespace Core

def putWaypoint (c : Core K) (item : MissionItem K) : Offboard → ℕ → Option (MissionItem K) :=
  match c.mission_type with
  | .MISSION =>
    Function.update c.waypoints c.transfer_dataman_id
      (Function.update (c.waypoints c.transfer_dataman_id) c.transfer_seq (some item))
  | _ => c.waypoints

def putPoint (c : Core K) (item : MissionItem K) : PointKey → ℕ → Option (Point K) :=
  match c.mission_type with
  | .FENCE =>
    Function.update c.points .FENCE_POINTS
      (Function.update (c.points .FENCE_POINTS) (c.transfer_seq + 1) (some (fencePoint item)))
  | .RALLY =>
    Function.update c.points .SAFE_POINTS
      (Function.update (c.points .SAFE_POINTS) (c.transfer_seq + 1) (some (safePoint item)))
  | _ => c.points

def put (c : Core K) (item : MissionItem K) : Core K :=
  { c with waypoints := c.putWaypoint item, points := c.putPoint item }

theorem putWaypoint_mission {c : Core K} (h : c.mission_type = .MISSION) (item : MissionItem K) :
    c.putWaypoint item = Function.update c.waypoints c.transfer_dataman_id
      (Function.update (c.waypoints c.transfer_dataman_id) c.transfer_seq (some item)) := by
  unfold putWaypoint
  rw [h]

theorem putWaypoint_of_ne {c : Core K} (h : c.mission_type ≠ .MISSION) (item : MissionItem K) :
    c.putWaypoint item = c.waypoints := by
  unfold putWaypoint
  split
  · next ht => exact absurd ht h
  · rfl

theorem putPoint_key {c : Core K} (key : PointKey) (h : c.mission_type = key.type)
    (item : MissionItem K) :
    c.putPoint item = Function.update c.points key
      (Function.update (c.points key) (c.transfer_seq + 1) (some (key.point item))) := by
  unfold putPoint
  cases key with
  | FENCE_POINTS => rw [show c.mission_type = .FENCE from h]; rfl
  | SAFE_POINTS => rw [show c.mission_type = .RALLY from h]; rfl

theorem putPoint_of_ne {c : Core K} {key : PointKey} (h : c.mission_type ≠ key.type)
    (item : MissionItem K) : c.putPoint item key = c.points key := by
  by_cases hother : ∃ k : PointKey, c.mission_type = k.type
  · obtain ⟨k, hk⟩ := hother
    have hne : key ≠ k := by
      rintro rfl
      exact h hk
    rw [putPoint_key k hk]
    exact Function.update_of_ne hne _ _
  · unfold putPoint
    cases ht : c.mission_type with
    | FENCE => exact absurd ⟨.FENCE_POINTS, ht⟩ hother
    | RALLY => exact absurd ⟨.SAFE_POINTS, ht⟩ hother
    | _ => rfl

theorem putPoint_eq {c : Core K} (h : ∀ key : PointKey, c.mission_type ≠ key.type)
    (item : MissionItem K) : c.putPoint item = c.points :=
  funext fun key => putPoint_of_ne (h key) item

/-- The item passes the checks for its type and is written. -/
def Storable (c : Core K) (io : Io) (item : MissionItem K) : Prop :=
  match c.mission_type with
  | .MISSION => item.nav_cmd.misplaced = false ∧ io.writeItem
  | .FENCE => item.tooFew = false ∧ io.writeItem
  | .RALLY => io.writeItem
  | _ => True

instance decidableStorable (c : Core K) (io : Io) (item : MissionItem K) :
    Decidable (c.Storable io item) :=
  match h : c.mission_type with
  | .MISSION =>
    decidable_of_iff (item.nav_cmd.misplaced = false ∧ io.writeItem) (by rw [Storable, h])
  | .FENCE => decidable_of_iff (item.tooFew = false ∧ io.writeItem) (by rw [Storable, h])
  | .RALLY => decidable_of_iff (io.writeItem = true) (by rw [Storable, h])
  | .ALL => isTrue (by rw [Storable, h]; trivial)
  | .other _ => isTrue (by rw [Storable, h]; trivial)

/-- The item of an upload that the manager waits for. -/
structure Expected (c : Core K) (msg : Message K) (wp : WireItem K) : Prop where
  body : msg.body = .item wp
  addressed : addressed c.own msg.target
  mission_type : wp.mission_type = c.mission_type
  state : c.state = .GETLIST
  seq : wp.seq = c.transfer_seq

/-- Messages that are answered with an acknowledgement, or that carry the expected item. -/
def Concerns (c : Core K) (msg : Message K) : Prop :=
  addressed c.own msg.target ∧
  match msg.body with
  | .count n t =>
    match c.state with
    | .IDLE => c.in_progress ∨ n = 0 ∨ n > maxCount c.build t
    | .GETLIST => c.transfer_seq ≠ 0
    | .SENDLIST => True
  | .item wp => ¬ (wp.mission_type = c.mission_type ∧ c.state = .GETLIST ∧ wp.seq ≠ c.transfer_seq)
  | .clearAll _ => c.state = .IDLE
  | _ => False

/-- Lists of the type are empty, where the data manager has written that down. -/
def Emptied (t : MissionType) (c c' : Core K) : Prop :=
  ∃ d n st, c' = { c with dataman_id := d, count := n, stats := st } ∧
    ((d = c.dataman_id ∧ n.mission = c.count.mission) ∨
      ((t = .MISSION ∨ t = .ALL) ∧ n.mission = 0)) ∧
    ∀ key, st key = c.stats key ∨ t = key.type ∨ t = .ALL

theorem Emptied.refl (t : MissionType) (c : Core K) : Emptied t c c :=
  ⟨c.dataman_id, c.count, c.stats, rfl, .inl ⟨rfl, rfl⟩, fun _ => .inl rfl⟩

theorem Emptied.trans {t : MissionType} {c c' c'' : Core K} (h : Emptied t c c')
    (h' : Emptied t c' c'') : Emptied t c c'' := by
  obtain ⟨d, n, st, rfl, hmission, hstats⟩ := h
  obtain ⟨d', n', st', rfl, hmission', hstats'⟩ := h'
  refine ⟨d', n', st', rfl, ?_, ?_⟩
  · rcases hmission' with ⟨hd, hn⟩ | hempty
    · rw [hd, hn]
      exact hmission
    · exact .inr hempty
  · intro key
    rcases hstats' key with hkey | ht
    · rw [hkey]
      exact hstats key
    · exact .inr ht

theorem Emptied.partner {t : MissionType} {c c' : Core K} (h : Emptied t c c') :
    c'.partner = c.partner := by
  obtain ⟨d, n, st, rfl, -⟩ := h
  rfl

theorem Emptied.free {t : MissionType} {c c' : Core K} {b : Bool}
    (h : Emptied t { c with in_progress := b } c') :
    Emptied t c { c' with in_progress := c.in_progress } := by
  obtain ⟨d, n, st, rfl, hmission, hstats⟩ := h
  exact ⟨d, n, st, rfl, hmission, hstats⟩

/-- The uploaded list is the active one of its type. -/
def Committed (c c' : Core K) : Prop :=
  ∃ d n st, c' = { c with dataman_id := d, count := n, stats := st } ∧
    (if c.mission_type = .MISSION then d = c.transfer_dataman_id ∧ n.mission = c.transfer_count
      else d = c.dataman_id ∧ n.mission = c.count.mission) ∧
    ∀ key, st key = c.stats key ∨ c.mission_type = key.type

theorem Committed.partner {c c' : Core K} (h : Committed c c') : c'.partner = c.partner := by
  obtain ⟨d, n, st, rfl, -⟩ := h
  rfl

/-- An upload is opened by the message. -/
structure Opens (c : Core K) (msg : Message K) (n : ℕ) (t : MissionType) : Prop where
  body : msg.body = .count n t
  addressed : addressed c.own msg.target
  state : c.state = .IDLE
  free : c.in_progress = false
  pos : n ≠ 0
  le : n ≤ maxCount c.build t

theorem Expected.concerns {c : Core K} {msg : Message K} {wp : WireItem K}
    (h : c.Expected msg wp) : c.Concerns msg := by
  rw [Concerns, h.body]
  exact ⟨h.addressed, fun hother => hother.2.2 h.seq⟩

theorem Opens.not_concerns {c : Core K} {msg : Message K} {n : ℕ} {t : MissionType}
    (h : c.Opens msg n t) : ¬ c.Concerns msg := by
  rw [Concerns, h.body]
  dsimp only
  rw [h.state]
  rintro ⟨-, hbusy | hzero | hmax⟩
  · exact Bool.false_ne_true (h.free.symm.trans hbusy)
  · exact h.pos hzero
  · exact absurd h.le (not_le.mpr hmax)

end Core

/-! ### The handlers -/

namespace World

theorem core_startDownload (w : World K) (io : Io) (sender : Address) (t : MissionType) :
    ∃ n k, (w.startDownload io sender t).core =
        { w.core with
          state := .SENDLIST, mission_type := t, count := n, transfer_seq := 0
          transfer_count := k, partner := sender } ∧
      n.mission = w.core.count.mission ∧ (w.startDownload io sender t).acks = w.acks := by
  unfold startDownload
  dsimp only
  split
  · unfold loadGeofenceStats
    dsimp only
    split
    · exact ⟨_, _, rfl, rfl, acks_sendMissionCount _ _ _ _ _⟩
    · split
      · exact ⟨_, _, rfl, rfl, acks_sendMissionCount _ _ _ _ _⟩
      · exact ⟨_, _, rfl, rfl, acks_sendMissionCount _ _ _ _ _⟩
  · unfold loadSafepointStats
    dsimp only
    split
    · exact ⟨_, _, rfl, rfl, acks_sendMissionCount _ _ _ _ _⟩
    · split
      · exact ⟨_, _, rfl, rfl, acks_sendMissionCount _ _ _ _ _⟩
      · exact ⟨_, _, rfl, rfl, acks_sendMissionCount _ _ _ _ _⟩
  · exact ⟨_, _, rfl, rfl, acks_sendMissionCount _ _ _ _ _⟩

/-- A request for a list counts as the end of the transfer if all items have been sent or, in
an upload, if there are as many as have been received. -/
theorem handleMissionRequestList_done {w : World K}
    (h : w.me.transfer_seq = w.currentItemCount) (io : Io) (sender : Address) (t : MissionType) :
    w.handleMissionRequestList io sender t = w.switchToIdleState.startDownload io sender t := by
  have hidle : w.switchToIdleState.me.state = .IDLE := rfl
  unfold handleMissionRequestList
  rw [if_pos h]
  exact if_pos (.inl hidle)

theorem warnUnknownType_spec (w : World K) :
    w.warnUnknownType.core = w.core ∧ w.warnUnknownType.acks = w.acks ∧
      w.warnUnknownType.me = w.me := by
  unfold warnUnknownType
  split
  · exact ⟨rfl, rfl, rfl⟩
  · exact ⟨rfl, rfl, rfl⟩
  · exact ⟨rfl, rfl, rfl⟩
  · exact ⟨rfl, acks_critical w _, rfl⟩

theorem rejectRequest_spec (w : World K) :
    (w.rejectRequest.core = w.core ∨ w.rejectRequest.core = { w.core with state := .IDLE }) ∧
      (w.rejectRequest.acks = w.acks ∨ w.rejectRequest.acks = w.acks ++ [(w.me.partner, .ERROR)]) :=
  ⟨.inr rfl, .inr ((acks_critical _ _).trans (acks_ackPartner _ _))⟩

theorem emptied_updateActiveMission {t : MissionType} (ht : t = .MISSION ∨ t = .ALL)
    (w : World K) (io : Io) (id : Offboard) :
    Core.Emptied t w.core (w.updateActiveMission io id 0 0).1.core := by
  rw [core_updateActiveMission]
  split
  · exact ⟨_, _, _, rfl, .inr ⟨ht, rfl⟩, fun _ => .inl rfl⟩
  · exact .refl t _

theorem emptied_updateCount {t : MissionType} (key : PointKey) (ht : t = key.type ∨ t = .ALL)
    (w : World K) (io : Io) : Core.Emptied t w.core (updateCount key w io 0).1.core := by
  rw [core_updateCount]
  split
  · refine ⟨_, _, _, rfl, .inl ⟨rfl, mission_setCount _ _ _⟩, fun k => ?_⟩
    by_cases hk : k = key
    · rw [hk]
      exact .inr ht
    · exact .inl (Function.update_of_ne hk _ _)
  · exact .refl t _

theorem clearByCount_spec (w : World K) (io : Io) :
    Core.Emptied w.core.mission_type w.core (w.clearByCount io).core ∧
      (w.clearByCount io).acks = w.acks := by
  unfold clearByCount
  split
  · next ht =>
    exact ⟨emptied_updateActiveMission (.inl ht) w io _, acks_updateActiveMission _ _ _ _ _⟩
  · next ht =>
    exact ⟨emptied_updateCount .FENCE_POINTS (.inl ht) w io, acks_updateCount _ _ _ _⟩
  · next ht =>
    exact ⟨emptied_updateCount .SAFE_POINTS (.inl ht) w io, acks_updateCount _ _ _ _⟩
  · exact ⟨.refl _ _, rfl⟩

theorem storeItem_of_storable {w : World K} {io : Io} {item : MissionItem K}
    (h : w.core.Storable io item) :
    ∃ w', w.storeItem io w.me.transfer_seq item = (w', false, false) ∧
      w'.core = w.core.put item ∧ w'.me = w.me ∧ w'.acks = w.acks := by
  have hput : ∀ w' : World K, w'.core = { w.core with
      waypoints := w'.core.waypoints, points := w'.core.points } →
      w.core.putWaypoint item = w'.core.waypoints → w.core.putPoint item = w'.core.points →
      w'.core = w.core.put item := by
    intro w' hcore hway hpts
    rw [hcore, ← hway, ← hpts]
    rfl
  have htype : w.core.mission_type = w.me.mission_type := rfl
  unfold Core.Storable at h
  unfold storeItem
  cases ht : w.me.mission_type with
  | MISSION =>
    rw [htype, ht] at h
    have hpts := Core.putPoint_eq (c := w.core) (by simp [htype, ht, PointKey.type_ne_mission]) item
    dsimp only at h ⊢
    rw [if_neg (by simp [h.1]), if_pos h.2]
    exact ⟨_, rfl, hput _ rfl (Core.putWaypoint_mission ht item) hpts, rfl, rfl⟩
  | FENCE =>
    rw [htype, ht] at h
    have hway := Core.putWaypoint_of_ne (c := w.core) (by simp [htype, ht]) item
    dsimp only at h ⊢
    rw [if_neg (by simpa [MissionItem.tooFew] using h.1), if_pos h.2]
    exact ⟨_, rfl, hput _ rfl hway (Core.putPoint_key .FENCE_POINTS ht item), rfl, rfl⟩
  | RALLY =>
    rw [htype, ht] at h
    have hway := Core.putWaypoint_of_ne (c := w.core) (by simp [htype, ht]) item
    dsimp only at h ⊢
    rw [if_pos h]
    exact ⟨_, rfl, hput _ rfl hway (Core.putPoint_key .SAFE_POINTS ht item), rfl, rfl⟩
  | ALL =>
    have hway := Core.putWaypoint_of_ne (c := w.core) (by simp [htype, ht]) item
    have hpts := Core.putPoint_eq (c := w.core) (by simp [htype, ht, PointKey.type_ne_all]) item
    exact ⟨_, rfl, hput _ rfl hway hpts, rfl, acks_critical _ _⟩
  | other t =>
    have hway := Core.putWaypoint_of_ne (c := w.core) (by simp [htype, ht]) item
    have hpts := Core.putPoint_eq (c := w.core) (by simp [htype, ht, PointKey.type_ne_other]) item
    exact ⟨_, rfl, hput _ rfl hway hpts, rfl, acks_critical _ _⟩

/-- An item that is not storable is not stored; a polygon with too few vertices empties the
fence. -/
theorem storeItem_of_not_storable {w : World K} {io : Io} {item : MissionItem K}
    (h : ¬ w.core.Storable io item) (seq : ℕ) :
    ∃ w' wf cf, w.storeItem io seq item = (w', wf, cf) ∧ (wf || cf) = true ∧ w'.acks = w.acks ∧
      if w.core.mission_type = .FENCE ∧ item.tooFew ∧ io.writeStats .FENCE_POINTS then
        ∃ n k, n.mission = w.core.count.mission ∧ w'.core =
          { w.core with
            count := n, stats := Function.update w.core.stats .FENCE_POINTS (some ⟨0, k⟩) }
      else w'.core = w.core := by
  have htype : w.core.mission_type = w.me.mission_type := rfl
  unfold Core.Storable at h
  unfold storeItem
  cases ht : w.me.mission_type with
  | MISSION =>
    rw [htype, ht] at h ⊢
    dsimp only at h ⊢
    by_cases hcmd : item.nav_cmd.misplaced
    · rw [if_pos hcmd]
      exact ⟨_, _, _, rfl, rfl, rfl, by simp⟩
    · rw [if_neg hcmd, if_neg (by simpa [hcmd] using h)]
      exact ⟨_, _, _, rfl, rfl, rfl, by simp⟩
  | FENCE =>
    rw [htype, ht] at h ⊢
    dsimp only at h ⊢
    by_cases hfew : item.tooFew
    · rw [if_pos (by simpa [MissionItem.tooFew] using hfew)]
      refine ⟨_, _, _, rfl, rfl, acks_updateCount _ _ _ _, ?_⟩
      rw [updateGeofenceCount, core_updateCount]
      split
      · next hio =>
        rw [if_pos hio.2.2]
        exact ⟨_, _, mission_setCount _ _ _, rfl⟩
      · next hio => rw [if_neg (by simpa [hfew] using hio)]
    · rw [if_neg (by simpa [MissionItem.tooFew] using hfew), if_neg (by simpa [hfew] using h)]
      exact ⟨_, _, _, rfl, rfl, rfl, by simp [hfew]⟩
  | RALLY =>
    rw [htype, ht] at h ⊢
    dsimp only at h ⊢
    rw [if_neg h]
    exact ⟨_, _, _, rfl, rfl, rfl, by simp⟩
  | ALL =>
    rw [htype, ht] at h
    exact absurd trivial h
  | other t =>
    rw [htype, ht] at h
    exact absurd trivial h

theorem updateCount_commits {w : World K} {key : PointKey} (h : w.me.mission_type = key.type)
    (io : Io) (n : ℕ) :
    ((updateCount key w io n).2 = true ∧ w.core.Committed (updateCount key w io n).1.core) ∨
      ((updateCount key w io n).2 = false ∧ (updateCount key w io n).1.core = w.core) := by
  rw [snd_updateCount, core_updateCount]
  by_cases hio : io.writeStats key
  · rw [if_pos hio]
    refine .inl ⟨hio, _, _, _, rfl, ?_, ?_⟩
    · have hne : w.core.mission_type ≠ .MISSION := fun ht =>
        key.type_ne_mission (ht.symm.trans h)
      rw [if_neg hne]
      exact ⟨rfl, mission_setCount _ _ _⟩
    · intro k
      by_cases hk : k = key
      · rw [hk]
        exact .inr h
      · exact .inl (Function.update_of_ne hk _ _)
  · rw [if_neg hio]
    exact .inr ⟨Bool.not_eq_true _ ▸ hio, rfl⟩

theorem commitUpload_spec (w : World K) (io : Io) :
    (w.commitUpload io).1.acks = w.acks ∧
      (((w.commitUpload io).2 = true ∧ w.core.Committed (w.commitUpload io).1.core) ∨
        ((w.commitUpload io).2 = false ∧ (w.commitUpload io).1.core = w.core)) := by
  have htype : w.core.mission_type = w.me.mission_type := rfl
  unfold commitUpload
  cases ht : w.me.mission_type with
  | MISSION =>
    dsimp only
    refine ⟨acks_updateActiveMission _ _ _ _ _, ?_⟩
    rw [snd_updateActiveMission, core_updateActiveMission]
    by_cases hio : io.writeState
    · rw [if_pos hio]
      refine .inl ⟨hio, _, _, _, rfl, ?_, fun _ => .inl rfl⟩
      rw [if_pos (htype.trans ht)]
      exact ⟨rfl, rfl⟩
    · rw [if_neg hio]
      exact .inr ⟨Bool.not_eq_true _ ▸ hio, rfl⟩
  | FENCE => exact ⟨acks_updateCount _ _ _ _, updateCount_commits ht io _⟩
  | RALLY => exact ⟨acks_updateCount _ _ _ _, updateCount_commits ht io _⟩
  | ALL =>
    refine ⟨rfl, .inl ⟨rfl, _, _, _, rfl, ?_, fun _ => .inl rfl⟩⟩
    rw [if_neg (by simp [htype, ht])]
    exact ⟨rfl, rfl⟩
  | other t =>
    refine ⟨rfl, .inl ⟨rfl, _, _, _, rfl, ?_, fun _ => .inl rfl⟩⟩
    rw [if_neg (by simp [htype, ht])]
    exact ⟨rfl, rfl⟩

theorem takeMode_spec (w : World K) (body : Body K) :
    (w.takeMode body).core = w.core ∧ (w.takeMode body).acks = w.acks := by
  unfold takeMode
  split
  all_goals exact ⟨rfl, rfl⟩

theorem checkActiveMission_spec (w : World K) (io : Io) (iridium : Bool) :
    (w.checkActiveMission io iridium).core = w.core ∧
      (w.checkActiveMission io iridium).acks = w.acks := by
  unfold checkActiveMission
  split
  · exact ⟨rfl, rfl⟩
  · split
    · exact ⟨rfl, acks_sendMissionCount _ _ _ _ _⟩
    · exact ⟨rfl, rfl⟩

end World

section Transition

variable [Field K] [LinearOrder K] [FloorRing K] [Elementary K]

/-- What one event can do to the core, and the acknowledgements that go with it; `due` says
when the manager has not heard anything for too long. -/
inductive Transition (cs : Casts K) (wrap_2pi : Flt K → Flt K) (due : Io → Bool) (c : Core K) :
    Event K → Core K → List (Address × MissionResult) → Prop
  /-- Nothing. -/
  | quiet {e : Event K} (h : ∀ io msg, e = .message io msg → ¬ c.Concerns msg) :
      Transition cs wrap_2pi due c e c []
  /-- An answer. -/
  | refuse {io : Io} {msg : Message K} (t : MissionType) (r : MissionResult)
      (h : c.Concerns msg) (hfree : ∀ wp, ¬ c.Expected msg wp)
      (ht : t = c.mission_type ∨ c.state = .IDLE) (hr : r = .ACCEPTED → c.state = .IDLE) :
      Transition cs wrap_2pi due c (.message io msg) { c with mission_type := t } [(c.partner, r)]
  /-- A download goes on, or ends with an error. -/
  | serve {io : Io} {msg : Message K} (k : ℕ) (st : WpmState)
      {acks : List (Address × MissionResult)} (hsender : msg.sender = c.partner)
      (h : ¬ c.Concerns msg) (hstate : c.state = .SENDLIST) (hst : st ≠ .GETLIST)
      (hacks : ∀ a ∈ acks, a.1 = c.partner) :
      Transition cs wrap_2pi due c (.message io msg) { c with transfer_seq := k, state := st } acks
  /-- A download ends. -/
  | endDownload {io : Io} {msg : Message K} (h : ¬ c.Concerns msg) (hstate : c.state = .SENDLIST) :
      Transition cs wrap_2pi due c (.message io msg) { c with state := .IDLE } []
  /-- The partner cancels its upload. -/
  | cancel {io : Io} {msg : Message K} (h : ¬ c.Concerns msg) (hstate : c.state = .GETLIST) :
      Transition cs wrap_2pi due c (.message io msg)
        { c with state := .IDLE, in_progress := false } []
  /-- A download begins. -/
  | download {io : Io} {msg : Message K} {t : MissionType} {n : Counts} {k : ℕ}
      (hbody : msg.body = .requestList t) (haddressed : addressed c.own msg.target)
      (hstate : c.state ≠ .GETLIST ∨ c.transfer_seq = c.count.of c.mission_type)
      (hn : n.mission = c.count.mission) :
      Transition cs wrap_2pi due c (.message io msg)
        { c with
          state := .SENDLIST, mission_type := t, count := n, transfer_seq := 0
          transfer_count := k, partner := msg.sender } []
  /-- An upload begins. -/
  | openUpload {io : Io} {msg : Message K} {n : ℕ} {t : MissionType} (h : c.Opens msg n t) :
      Transition cs wrap_2pi due c (.message io msg)
        { c with
          state := .GETLIST, mission_type := t, in_progress := true, transfer_seq := 0
          transfer_count := n, transfer_dataman_id := c.dataman_id.alternate
          partner := msg.sender } []
  /-- Lists are emptied. -/
  | clear {io : Io} {msg : Message K} {t : MissionType} {c' : Core K} (r : MissionResult)
      (haddressed : addressed c.own msg.target) (hstate : c.state = .IDLE)
      (hbody : msg.body = .clearAll t ∨ (msg.body = .count 0 t ∧ c.in_progress = false))
      (h : Core.Emptied t { c with mission_type := t } c') :
      Transition cs wrap_2pi due c (.message io msg) c' [(c.partner, r)]
  /-- The expected item is not taken. -/
  | reject {io : Io} {msg : Message K} {wp : WireItem K} (r : MissionResult)
      (h : c.Expected msg wp)
      (hitem : ∀ item, parseMavlinkMissionItem cs wrap_2pi wp = .ok item → ¬ c.Storable io item ∧
        ¬ (c.mission_type = .FENCE ∧ item.tooFew ∧ io.writeStats .FENCE_POINTS))
      (hr : r ≠ .ACCEPTED) :
      Transition cs wrap_2pi due c (.message io msg)
        { c with state := .IDLE, in_progress := false } [(c.partner, r)]
  /-- A polygon with too few vertices also empties the fence. -/
  | rejectPolygon {io : Io} {msg : Message K} {wp : WireItem K} {item : MissionItem K}
      (n : Counts) (k : UInt16) (h : c.Expected msg wp)
      (hitem : parseMavlinkMissionItem cs wrap_2pi wp = .ok item) (htype : c.mission_type = .FENCE)
      (hfew : item.tooFew) (hn : n.mission = c.count.mission) (hio : io.writeStats .FENCE_POINTS) :
      Transition cs wrap_2pi due c (.message io msg)
        { c with
          state := .IDLE, in_progress := false, count := n
          stats := Function.update c.stats .FENCE_POINTS (some ⟨0, k⟩) }
        [(c.partner, .ERROR)]
  /-- The expected item is taken, and there are more to come. -/
  | store {io : Io} {msg : Message K} {wp : WireItem K} {item : MissionItem K}
      (h : c.Expected msg wp) (hitem : parseMavlinkMissionItem cs wrap_2pi wp = .ok item)
      (hstore : c.Storable io item) (hmore : c.transfer_seq + 1 ≠ c.transfer_count) :
      Transition cs wrap_2pi due c (.message io msg)
        { c.put item with transfer_seq := c.transfer_seq + 1 } []
  /-- The last item is taken and the list is made the active one. -/
  | complete {io : Io} {msg : Message K} {wp : WireItem K} {item : MissionItem K} {c' : Core K}
      (h : c.Expected msg wp) (hitem : parseMavlinkMissionItem cs wrap_2pi wp = .ok item)
      (hstore : c.Storable io item) (hlast : c.transfer_seq + 1 = c.transfer_count)
      (hcommit : Core.Committed { c.put item with transfer_seq := c.transfer_seq + 1 } c') :
      Transition cs wrap_2pi due c (.message io msg)
        { c' with state := .IDLE, in_progress := false }
        [(c.partner, .ACCEPTED)]
  /-- The last item is taken, but the list is not made the active one. -/
  | commitFails {io : Io} {msg : Message K} {wp : WireItem K} {item : MissionItem K}
      (h : c.Expected msg wp) (hitem : parseMavlinkMissionItem cs wrap_2pi wp = .ok item)
      (hstore : c.Storable io item) (hlast : c.transfer_seq + 1 = c.transfer_count) :
      Transition cs wrap_2pi due c (.message io msg)
        { c.put item with
          transfer_seq := c.transfer_seq + 1, state := .IDLE, in_progress := false }
        [(c.partner, .ERROR)]
  /-- Nothing has been heard for too long. -/
  | timeout {io : Io} {result : Option MissionResultTopic} {slow : Bool}
      (hstate : c.state ≠ .IDLE) (hdue : due io) :
      Transition cs wrap_2pi due c (.send io false result slow)
        { c with state := .IDLE, in_progress := false } []
  /-- News of the mission is passed on. -/
  | report {io : Io} {result : Option MissionResultTopic} {slow : Bool}
      {acks : List (Address × MissionResult)} (t : MissionType) (hstate : c.state = .IDLE) :
      Transition cs wrap_2pi due c (.send io false result slow) { c with mission_type := t } acks

variable {cs : Casts K} {wrap_2pi : Flt K → Flt K} {due : Io → Bool}

theorem Transition.of_eq {c c₁ c₂ : Core K} {e : Event K}
    {acks₁ acks₂ : List (Address × MissionResult)}
    (h : Transition cs wrap_2pi due c e c₁ acks₁) (hc : c₂ = c₁) (hacks : acks₂ = acks₁) :
    Transition cs wrap_2pi due c e c₂ acks₂ := by
  rw [hc, hacks]
  exact h

namespace World

theorem quiet_transition {w w' : World K} {io : Io} {msg : Message K}
    (h : ¬ w.core.Concerns msg) (hcore : w'.core = w.core) (hacks : w'.acks = []) :
    Transition cs wrap_2pi due w.core (.message io msg) w'.core w'.acks :=
  (Transition.quiet fun _ _ heq => by cases heq; exact h).of_eq hcore hacks

theorem refuse_transition {w w₁ : World K} (hw : w₁.acks = []) {io : Io} {msg : Message K}
    {r : MissionResult} (hr : r = .ACCEPTED → w.core.state = .IDLE)
    (hconcerns : w.core.Concerns msg) (hfree : ∀ wp, ¬ w.core.Expected msg wp)
    (hcore : w₁.core = w.core) :
    Transition cs wrap_2pi due w.core (.message io msg) (w₁.ackPartner r).core
      (w₁.ackPartner r).acks := by
  refine (Transition.refuse w.core.mission_type r hconcerns hfree (.inl rfl) hr).of_eq hcore ?_
  rw [acks_ackPartner, hw, show w₁.me.partner = w.core.partner from congrArg Core.partner hcore]
  rfl

theorem handleMissionAck_transition {w : World K} (hw : w.acks = []) {io : Io} {msg : Message K}
    {type : MissionResult} {t : MissionType} (hbody : msg.body = .ack type t) :
    Transition cs wrap_2pi due w.core (.message io msg)
      (w.handleMissionAck io msg.sender type t).core
      (w.handleMissionAck io msg.sender type t).acks := by
  have hnot : ¬ w.core.Concerns msg := by simp [Core.Concerns, hbody]
  unfold handleMissionAck
  split
  · split
    · next hstate => exact (Transition.endDownload hnot hstate.1).of_eq rfl hw
    · split
      · next hstate =>
        split
        · exact quiet_transition hnot (core_requestNext _ io) ((acks_requestNext _ io).trans hw)
        · split
          · exact (Transition.cancel hnot hstate).of_eq rfl hw
          · exact quiet_transition hnot rfl hw
      · exact quiet_transition hnot rfl hw
  · exact quiet_transition hnot rfl ((acks_critical w _).trans hw)

theorem handleMissionSetCurrent_transition {w : World K} (hw : w.acks = []) {io : Io}
    {msg : Message K} {seq : ℕ} (hbody : msg.body = .setCurrent seq) :
    Transition cs wrap_2pi due w.core (.message io msg) (w.handleMissionSetCurrent io seq).core
      (w.handleMissionSetCurrent io seq).acks := by
  have hnot : ¬ w.core.Concerns msg := by simp [Core.Concerns, hbody]
  unfold handleMissionSetCurrent
  split
  · dsimp only
    split
    · set w₁ : World K := { w with me.time_last_recv := io.now }
      have hcore := core_updateActiveMission w₁ io w.shared.dataman_id w.shared.count.mission seq
      have hacks := acks_updateActiveMission w₁ io w.shared.dataman_id w.shared.count.mission seq
      have hsame : (w₁.updateActiveMission io w.shared.dataman_id w.shared.count.mission seq).1.core
          = w.core := by
        rw [hcore]
        split <;> rfl
      split
      · next heq =>
        rw [heq] at hsame hacks
        exact quiet_transition hnot hsame (hacks.trans hw)
      · next heq =>
        rw [heq] at hsame hacks
        exact quiet_transition hnot hsame ((acks_critical _ _).trans (hacks.trans hw))
    · exact quiet_transition hnot rfl ((acks_critical _ _).trans hw)
  · exact quiet_transition hnot rfl ((acks_critical _ _).trans hw)

theorem handleMissionRequestList_transition {w : World K} (hw : w.acks = []) {io : Io}
    {msg : Message K} {t : MissionType} (hbody : msg.body = .requestList t)
    (haddressed : addressed w.core.own msg.target) :
    Transition cs wrap_2pi due w.core (.message io msg)
      (w.handleMissionRequestList io msg.sender t).core
      (w.handleMissionRequestList io msg.sender t).acks := by
  have hnot : ¬ w.core.Concerns msg := by simp [Core.Concerns, hbody]
  by_cases hdone : w.me.transfer_seq = w.currentItemCount
  · rw [handleMissionRequestList_done hdone]
    obtain ⟨n, k, hcore, hn, hacks⟩ := core_startDownload w.switchToIdleState io msg.sender t
    exact (Transition.download hbody haddressed (.inr hdone) hn).of_eq hcore (hacks.trans hw)
  · unfold handleMissionRequestList
    rw [if_neg hdone]
    dsimp only
    split
    · next hstate =>
      have hne : w.core.state ≠ .GETLIST := by
        intro hget
        rcases hstate with h | ⟨h, -⟩
        · exact absurd (h.symm.trans hget) (by decide)
        · exact absurd (h.symm.trans hget) (by decide)
      obtain ⟨n, k, hcore, hn, hacks⟩ := core_startDownload w io msg.sender t
      exact (Transition.download hbody haddressed (.inl hne) hn).of_eq hcore (hacks.trans hw)
    · exact quiet_transition hnot rfl ((acks_info _ _).trans hw)

theorem sendMissionItem_spec (cs : Casts K) (w : World K) (io : Io) (target : Address) (seq : ℕ) :
    (w.sendMissionItem cs io target seq).core = w.core ∧
      ((w.sendMissionItem cs io target seq).acks = w.acks ∨
        (w.sendMissionItem cs io target seq).acks = w.acks ++ [(w.me.partner, .ERROR)]) := by
  obtain ⟨hcore, hacks, hme⟩ := warnUnknownType_spec w
  unfold sendMissionItem
  dsimp only
  split
  · refine ⟨hcore, .inl ?_⟩
    rw [acks_say]
    exact (List.append_nil _).trans hacks
  · rw [core_filesystemError, acks_filesystemError, core_ackPartner, acks_ackPartner, hacks, hme]
    exact ⟨hcore, .inr rfl⟩

theorem answerRequest_spec (cs : Casts K) (w : World K) (io : Io) (seq : ℕ) :
    ((w.answerRequest cs io seq).core = w.core ∨
        (w.answerRequest cs io seq).core = { w.core with state := .IDLE }) ∧
      ((w.answerRequest cs io seq).acks = w.acks ∨
        (w.answerRequest cs io seq).acks = w.acks ++ [(w.me.partner, .ERROR)]) := by
  unfold answerRequest
  split
  · obtain ⟨hcore, hacks⟩ := sendMissionItem_spec cs w io w.me.partner seq
    exact ⟨.inl hcore, hacks⟩
  · exact rejectRequest_spec w

theorem serve_transition {w w₁ w₂ : World K} (hw : w₁.acks = []) {io : Io} {msg : Message K}
    (hsender : msg.sender = w.core.partner) (hnot : ¬ w.core.Concerns msg)
    (hstate : w.core.state = .SENDLIST)
    (hcore₁ : w₁.core = { w.core with transfer_seq := w₁.core.transfer_seq })
    (hspec : (w₂.core = w₁.core ∨ w₂.core = { w₁.core with state := .IDLE }) ∧
      (w₂.acks = w₁.acks ∨ w₂.acks = w₁.acks ++ [(w₁.me.partner, .ERROR)])) :
    Transition cs wrap_2pi due w.core (.message io msg) w₂.core w₂.acks := by
  have hp : w₁.me.partner = w.core.partner := congrArg Core.partner hcore₁
  have hto : ∀ a ∈ w₂.acks, a.1 = w.core.partner := by
    intro a ha
    rcases hspec.2 with h | h
    · rw [h, hw] at ha
      exact nomatch ha
    · rw [h, hw, hp] at ha
      rw [List.mem_singleton.mp ha]
  rcases hspec.1 with h | h
  · refine (Transition.serve w₁.core.transfer_seq .SENDLIST hsender hnot hstate (by decide)
      hto).of_eq ?_ rfl
    rw [h, ← hstate]
    exact hcore₁
  · refine (Transition.serve w₁.core.transfer_seq .IDLE hsender hnot hstate (by decide)
      hto).of_eq ?_ rfl
    rw [h, hcore₁]

theorem handleMissionRequestBoth_transition {w : World K} (hw : w.acks = []) {io : Io}
    {msg : Message K} {seq : ℕ} {t : MissionType}
    (hbody : msg.body = .request seq t ∨ msg.body = .requestInt seq t) :
    Transition cs wrap_2pi due w.core (.message io msg)
      (w.handleMissionRequestBoth cs io msg.sender seq t).core
      (w.handleMissionRequestBoth cs io msg.sender seq t).acks := by
  have hnot : ¬ w.core.Concerns msg := by
    rcases hbody with h | h
    · simp [Core.Concerns, h]
    · simp [Core.Concerns, h]
  unfold handleMissionRequestBoth
  split
  · next hsender =>
    split
    · next hstate =>
      split
      · exact quiet_transition hnot rfl hw
      · dsimp only
        split
        · refine serve_transition ?_ hsender hnot hstate ?_ (answerRequest_spec cs _ io seq)
          · exact hw
          · rfl
        · split
          · refine serve_transition ?_ hsender hnot hstate ?_ (answerRequest_spec cs _ io seq)
            · exact hw
            · rfl
          · refine serve_transition ?_ hsender hnot hstate ?_ (rejectRequest_spec _)
            · exact hw
            · rfl
    · exact quiet_transition hnot rfl hw
    · exact quiet_transition hnot rfl ((acks_critical _ _).trans hw)
  · exact quiet_transition hnot rfl ((acks_critical _ _).trans hw)

/-! ### Uploads -/

theorem handleMissionCount_transition {w : World K} (hw : w.acks = []) {io : Io}
    {msg : Message K} {n : ℕ} {t : MissionType} (hbody : msg.body = .count n t)
    (haddressed : addressed w.core.own msg.target) :
    Transition cs wrap_2pi due w.core (.message io msg)
      (w.handleMissionCount io msg.sender n t).core
      (w.handleMissionCount io msg.sender n t).acks := by
  have hfree : ∀ wp, ¬ w.core.Expected msg wp := by
    intro wp h
    exact absurd (hbody.symm.trans h.body) (by simp)
  have hconcerns : w.core.Concerns msg ↔ match w.core.state with
      | .IDLE => w.core.in_progress ∨ n = 0 ∨ n > maxCount w.core.build t
      | .GETLIST => w.core.transfer_seq ≠ 0
      | .SENDLIST => True := by
    rw [Core.Concerns, hbody]
    exact and_iff_right haddressed
  unfold handleMissionCount
  split
  · next hstate =>
    rw [show w.core.state = .IDLE from hstate] at hconcerns
    dsimp only
    split
    · next hbusy => exact refuse_transition hw (by simp) (hconcerns.mpr (.inl hbusy)) hfree rfl
    · next hbusy =>
      have hnot : w.core.in_progress = false := Bool.not_eq_true _ ▸ hbusy
      split
      · next hmax =>
        refine (Transition.refuse t .NO_SPACE (hconcerns.mpr (.inr (.inr hmax))) hfree
          (.inr hstate) (by simp)).of_eq ?_ ?_
        · rw [← hnot]
          rfl
        · exact (acks_ackPartner _ _).trans (congrArg (· ++ _) hw)
      · next hmax =>
        split
        · next hzero =>
          set w₁ : World K := { w with
            shared.transfer_in_progress := true
            me.time_last_recv := io.now
            me.mission_type := t }
          obtain ⟨hcore, hacks⟩ := clearByCount_spec w₁ io
          have hempty : Core.Emptied t { w.core with mission_type := t }
              { (w₁.clearByCount io).core with in_progress := w.core.in_progress } := hcore.free
          refine (Transition.clear .ACCEPTED haddressed hstate (.inr ⟨hzero ▸ hbody, hnot⟩)
            hempty).of_eq ?_ ?_
          · rw [hnot]
            rfl
          · refine (acks_ackPartner _ _).trans ?_
            rw [hacks, show (w₁.clearByCount io).me.partner = w.core.partner from hcore.partner]
            exact congrArg (· ++ _) hw
        · next hzero =>
          have hopens : w.core.Opens msg n t :=
            ⟨hbody, haddressed, hstate, hnot, hzero, not_lt.mp hmax⟩
          refine (Transition.openUpload hopens).of_eq ?_ ?_
          · exact core_requestNext _ io
          · exact (acks_requestNext _ io).trans hw
  · next hstate =>
    rw [show w.core.state = .GETLIST from hstate] at hconcerns
    dsimp only
    split
    · next hseq =>
      exact quiet_transition (fun h => hconcerns.mp h hseq) (core_requestNext _ io)
        ((acks_requestNext _ io).trans hw)
    · next hseq =>
      exact refuse_transition ((acks_critical _ _).trans hw) (by simp) (hconcerns.mpr hseq) hfree
        rfl
  · next hstate =>
    rw [show w.core.state = .SENDLIST from hstate] at hconcerns
    exact refuse_transition ((acks_critical _ _).trans hw) (by simp) (hconcerns.mpr trivial) hfree
      rfl

theorem handleMissionClearAll_transition {w : World K} (hw : w.acks = []) {io : Io}
    {msg : Message K} {t : MissionType} (hbody : msg.body = .clearAll t)
    (haddressed : addressed w.core.own msg.target) :
    Transition cs wrap_2pi due w.core (.message io msg) (w.handleMissionClearAll io t).core
      (w.handleMissionClearAll io t).acks := by
  unfold handleMissionClearAll
  split
  · next hstate =>
    set w₁ : World K := { w with me.time_last_recv := io.now, me.mission_type := t } with hw₁
    have hclear : ∀ (w' : World K) (r : MissionResult), Core.Emptied t w₁.core w'.core →
        w'.acks = w₁.acks → Transition cs wrap_2pi due w.core (.message io msg)
          (w'.ackPartner r).core (w'.ackPartner r).acks := by
      intro w' r hempty hacks
      refine (Transition.clear r haddressed hstate (.inl hbody) hempty).of_eq rfl ?_
      rw [acks_ackPartner, hacks, show w'.me.partner = w.core.partner from hempty.partner]
      exact congrArg (· ++ _) hw
    cases t with
    | MISSION =>
      exact hclear _ _ (emptied_updateActiveMission (.inl rfl) w₁ io _)
        (acks_updateActiveMission _ _ _ _ _)
    | FENCE =>
      exact hclear _ _ (emptied_updateCount .FENCE_POINTS (.inl rfl) w₁ io)
        (acks_updateCount _ _ _ _)
    | RALLY =>
      exact hclear _ _ (emptied_updateCount .SAFE_POINTS (.inl rfl) w₁ io)
        (acks_updateCount _ _ _ _)
    | ALL =>
      let w₂ := (w₁.updateActiveMission io w₁.shared.dataman_id.alternate 0 0).1
      let w₃ := (w₂.updateGeofenceCount io 0).1
      have h₁ : Core.Emptied .ALL w₁.core w₂.core :=
        emptied_updateActiveMission (.inr rfl) w₁ io w₁.shared.dataman_id.alternate
      have h₂ : Core.Emptied .ALL w₂.core w₃.core :=
        emptied_updateCount .FENCE_POINTS (.inr rfl) w₂ io
      have h₃ := emptied_updateCount .SAFE_POINTS (.inr rfl) w₃ io
      refine hclear (updateCount .SAFE_POINTS w₃ io 0).1 _ (h₁.trans (h₂.trans h₃)) ?_
      calc (updateCount .SAFE_POINTS w₃ io 0).1.acks = w₃.acks := acks_updateCount _ _ _ _
        _ = w₂.acks := acks_updateCount _ _ _ _
        _ = w₁.acks := acks_updateActiveMission _ _ _ _ _
    | other => exact hclear _ _ (.refl _ _) rfl
  · next hstate =>
    have hnot : ¬ w.core.Concerns msg := by
      rw [Core.Concerns, hbody]
      exact fun h => hstate h.2
    exact quiet_transition hnot rfl ((acks_critical _ _).trans hw)

/-! ### Items -/

theorem commitUpload_transition {w w₁ : World K} {io : Io} {msg : Message K} {wp : WireItem K}
    {item : MissionItem K} (h : w.core.Expected msg wp)
    (hparse : parseMavlinkMissionItem cs wrap_2pi wp = .ok item)
    (hstore : w.core.Storable io item) (hlast : w.core.transfer_seq + 1 = w.core.transfer_count)
    (hcore₁ : w₁.core = { w.core.put item with transfer_seq := w.core.transfer_seq + 1 })
    (hacks₁ : w₁.acks = []) {w' : World K}
    (hw' : w' = match w₁.commitUpload io with
      | (w, ret) => { w.switchToIdleState.ackPartner (if ret then .ACCEPTED else .ERROR) with
          shared.transfer_in_progress := false }) :
    Transition cs wrap_2pi due w.core (.message io msg) w'.core w'.acks := by
  obtain ⟨hacks₂, hcommit⟩ := commitUpload_spec w₁ io
  rw [hcore₁] at hcommit
  generalize w₁.commitUpload io = p at hacks₂ hcommit hw'
  obtain ⟨w₂, ret⟩ := p
  dsimp only at hacks₂ hcommit hw'
  have hacks : w'.acks = [(w₂.me.partner, if ret then .ACCEPTED else .ERROR)] := by
    rw [hw']
    refine (acks_ackPartner _ _).trans ?_
    rw [show w₂.switchToIdleState.acks = [] from hacks₂.trans hacks₁]
    rfl
  rcases hcommit with ⟨rfl, hc⟩ | ⟨rfl, hc⟩
  · refine (Transition.complete h hparse hstore hlast hc).of_eq ?_ ?_
    · rw [hw']
      rfl
    · rw [hacks, show w₂.me.partner = w.core.partner from hc.partner]
      rfl
  · refine (Transition.commitFails h hparse hstore hlast).of_eq ?_ ?_
    · rw [hw']
      exact congrArg (fun c : Core K => { c with state := .IDLE, in_progress := false }) hc
    · rw [hacks, show w₂.me.partner = w.core.partner from congrArg Core.partner hc]
      rfl

theorem takeItem_transition {w : World K} (hw : w.acks = []) {io : Io} {msg : Message K}
    {wp : WireItem K} (h : w.core.Expected msg wp) :
    Transition cs wrap_2pi due w.core (.message io msg) (w.takeItem cs wrap_2pi io wp).core
      (w.takeItem cs wrap_2pi io wp).acks := by
  have hseq : wp.seq = w.me.transfer_seq := h.seq
  unfold takeItem
  cases hparse : parseMavlinkMissionItem cs wrap_2pi wp with
  | error ret =>
    dsimp only
    refine (Transition.reject ret h ?_ (parse_error_ne_accepted cs wrap_2pi hparse)).of_eq rfl ?_
    · intro item hok
      exact absurd (hparse.symm.trans hok) (by simp)
    · refine (acks_ackPartner _ _).trans ?_
      rw [acks_critical, hw]
      rfl
  | ok item =>
    dsimp only
    rw [hseq]
    by_cases hstore : w.core.Storable io item
    · obtain ⟨w', heq, hcore, hme, hacks⟩ := storeItem_of_storable hstore
      rw [heq]
      dsimp only
      rw [if_neg (by simp)]
      split
      · next hlast =>
        rw [hme] at hlast
        refine commitUpload_transition h hparse hstore hlast ?_ ?_ rfl
        · rw [← hcore]
          rfl
        · exact hacks.trans hw
      · next hmore =>
        rw [hme] at hmore
        refine (Transition.store h hparse hstore hmore).of_eq ?_ ?_
        · refine (core_requestNext _ io).trans ?_
          rw [← hcore]
          rfl
        · exact (acks_requestNext _ io).trans (hacks.trans hw)
    · obtain ⟨w', wf, cf, heq, hfailed, hacks, hcore⟩ :=
        storeItem_of_not_storable hstore w.me.transfer_seq
      have hpartner : w'.me.partner = w.core.partner := by
        split at hcore
        · obtain ⟨n, k, -, hc⟩ := hcore
          exact congrArg Core.partner hc
        · exact congrArg Core.partner hcore
      have hend : ∀ x : World K, x.core = w'.core → x.acks = [(w.core.partner, .ERROR)] →
          Transition cs wrap_2pi due w.core (.message io msg) x.endTransfer.core
            x.endTransfer.acks := by
        intro x hx hxacks
        have hxcore : x.endTransfer.core =
            { w'.core with state := .IDLE, in_progress := false } := by
          rw [← hx]
          rfl
        split at hcore
        · next hfew =>
          obtain ⟨n, k, hn, hc⟩ := hcore
          refine (Transition.rejectPolygon n k h hparse hfew.1 hfew.2.1 hn hfew.2.2).of_eq ?_ hxacks
          rw [hxcore, hc]
        · next hfew =>
          refine (Transition.reject .ERROR h ?_ (by decide)).of_eq ?_ hxacks
          · intro item' hok
            cases hparse.symm.trans hok
            exact ⟨hstore, hfew⟩
          · rw [hxcore, hcore]
      rw [heq]
      dsimp only
      rw [if_pos hfailed]
      have hacks' : (w'.ackPartner .ERROR).acks = [(w.core.partner, .ERROR)] := by
        rw [acks_ackPartner, hacks, hw, hpartner]
        rfl
      split
      · exact hend _ rfl ((acks_critical _ _).trans hacks')
      · exact hend _ rfl hacks'

theorem handleMissionItemBoth_transition {w : World K} (hw : w.acks = []) {io : Io}
    {msg : Message K} {wp : WireItem K} (hbody : msg.body = .item wp)
    (haddressed : addressed w.core.own msg.target) :
    Transition cs wrap_2pi due w.core (.message io msg)
      (w.handleMissionItemBoth cs wrap_2pi io wp).core
      (w.handleMissionItemBoth cs wrap_2pi io wp).acks := by
  have hconcerns : w.core.Concerns msg ↔ ¬ (wp.mission_type = w.core.mission_type ∧
      w.core.state = .GETLIST ∧ wp.seq ≠ w.core.transfer_seq) := by
    rw [Core.Concerns, hbody]
    exact and_iff_right haddressed
  have hexpected : ∀ wp', w.core.Expected msg wp' → wp.mission_type = w.core.mission_type ∧
      w.core.state = .GETLIST := by
    intro wp' h
    cases hbody.symm.trans h.body
    exact ⟨h.mission_type, h.state⟩
  unfold handleMissionItemBoth
  split
  · next htype =>
    exact refuse_transition hw (by simp) (hconcerns.mpr fun h => htype h.1)
      (fun wp' h => htype (hexpected wp' h).1) rfl
  · next htype =>
    have htype' : wp.mission_type = w.core.mission_type := not_not.mp htype
    split
    · next hstate =>
      dsimp only
      split
      · next hseq =>
        exact quiet_transition (fun h => hconcerns.mp h ⟨htype', hstate, hseq⟩)
          (core_requestNext _ io) ((acks_requestNext _ io).trans hw)
      · next hseq =>
        have h : w.core.Expected msg wp := ⟨hbody, haddressed, htype', hstate, not_not.mp hseq⟩
        exact takeItem_transition (w := { w with me.time_last_recv := io.now }) hw h
    · next hstate =>
      have hidle : w.core.state ≠ .GETLIST := by
        rw [show w.core.state = .IDLE from hstate]
        decide
      have hc := hconcerns.mpr fun h => hidle h.2.1
      have hfree := fun wp' h => hidle (hexpected wp' h).2
      split
      · exact refuse_transition hw (fun _ => hstate) hc hfree rfl
      · exact refuse_transition ((acks_critical _ _).trans hw) (by simp) hc hfree rfl
    · next hstate =>
      have hsend : w.core.state ≠ .GETLIST := by
        rw [show w.core.state = .SENDLIST from hstate]
        decide
      exact refuse_transition ((acks_critical _ _).trans hw) (by simp)
        (hconcerns.mpr fun h => hsend h.2.1) (fun wp' h => hsend (hexpected wp' h).2) rfl

/-! ### Events -/

theorem dispatch_transition {w : World K} (hw : w.acks = []) {io : Io} {msg : Message K}
    (haddressed : addressed w.core.own msg.target) :
    Transition cs wrap_2pi due w.core (.message io msg)
      (w.dispatch cs wrap_2pi io msg.sender msg.body).core
      (w.dispatch cs wrap_2pi io msg.sender msg.body).acks := by
  cases hbody : msg.body with
  | ack type t => exact handleMissionAck_transition hw hbody
  | setCurrent seq => exact handleMissionSetCurrent_transition hw hbody
  | requestList t => exact handleMissionRequestList_transition hw hbody haddressed
  | request seq t => exact handleMissionRequestBoth_transition hw (.inl hbody)
  | requestInt seq t => exact handleMissionRequestBoth_transition hw (.inr hbody)
  | count n t => exact handleMissionCount_transition hw hbody haddressed
  | item wp => exact handleMissionItemBoth_transition hw hbody haddressed
  | clearAll t => exact handleMissionClearAll_transition hw hbody haddressed

theorem handleMessage_transition {w : World K} (hw : w.acks = []) {io : Io} {msg : Message K} :
    Transition cs wrap_2pi due w.core (.message io msg) (w.handleMessage cs wrap_2pi io msg).core
      (w.handleMessage cs wrap_2pi io msg).acks := by
  obtain ⟨hcore, hacks⟩ := takeMode_spec w msg.body
  unfold handleMessage
  dsimp only
  split
  · next haddressed =>
    rw [← hcore]
    exact dispatch_transition (hacks.trans hw) haddressed
  · next haddressed =>
    refine quiet_transition ?_ hcore (hacks.trans hw)
    rw [← hcore]
    exact fun h => haddressed h.1

/-- `w'` differs from `w` in what was reported of the mission. -/
structure Reported (w w' : World K) : Prop where
  core : w'.core = w.core
  acks : w'.acks = w.acks
  time_last_recv : w'.me.time_last_recv = w.me.time_last_recv
  time_last_sent : w'.me.time_last_sent = w.me.time_last_sent

section Reported

omit [Field K] [LinearOrder K] [FloorRing K] [Elementary K]

theorem Reported.trans {w w₁ w₂ : World K} (h₁ : Reported w w₁) (h₂ : Reported w₁ w₂) :
    Reported w w₂ :=
  ⟨h₂.core.trans h₁.core, h₂.acks.trans h₁.acks, h₂.time_last_recv.trans h₁.time_last_recv,
    h₂.time_last_sent.trans h₁.time_last_sent⟩

theorem Reported.state {w w' : World K} (h : Reported w w') : w'.me.state = w.me.state :=
  congrArg Core.state h.core

theorem Reported.timedOut {w w' : World K} (h : Reported w w') (io : Io) :
    w'.timedOut io = w.timedOut io := by
  rw [World.timedOut, World.timedOut, h.state, h.time_last_recv]

theorem Reported.retryDue {w w' : World K} (h : Reported w w') (io : Io) :
    w'.retryDue io = w.retryDue io := by
  rw [World.retryDue, World.retryDue, h.state, h.time_last_sent]

theorem reported_reached (w : World K) (seq : ℤ) : Reported w (w.say (.reached seq)) := by
  refine ⟨rfl, ?_, rfl, rfl⟩
  rw [acks_say]
  exact List.append_nil _

theorem reported_sendMissionCurrent (w : World K) (seq : ℤ) :
    Reported w (w.sendMissionCurrent seq) := by
  unfold sendMissionCurrent
  split
  · refine ⟨rfl, ?_, rfl, rfl⟩
    rw [acks_say]
    exact List.append_nil _
  · split
    · exact ⟨rfl, rfl, rfl, rfl⟩
    · exact ⟨rfl, acks_critical w _, rfl, rfl⟩

theorem reported_noteResult (w : World K) (r : MissionResultTopic) :
    Reported w (w.noteResult r) := by
  unfold noteResult
  dsimp only
  split
  · split
    · refine ⟨rfl, ?_, rfl, rfl⟩
      exact (reported_reached _ _).acks
    · exact ⟨rfl, rfl, rfl, rfl⟩
  · exact ⟨rfl, rfl, rfl, rfl⟩

theorem reported_repeatProgress (w : World K) : Reported w w.repeatProgress := by
  refine (reported_sendMissionCurrent w w.shared.current_seq).trans ?_
  unfold repeatProgress
  dsimp only
  split
  · exact (reported_reached _ _).trans ⟨rfl, rfl, rfl, rfl⟩
  · exact ⟨rfl, rfl, rfl, rfl⟩

end Reported

theorem sendProgress_busy (cs : Casts K) {w : World K} (h : w.core.state ≠ .IDLE) (io : Io)
    (result : Option MissionResultTopic) (slow : Bool) :
    Reported w (w.sendProgress cs io result slow) := by
  unfold sendProgress
  split
  · next r =>
    have hnews := (reported_noteResult w r).trans
      (reported_sendMissionCurrent _ (w.noteResult r).shared.current_seq)
    have hstate := congrArg Core.state hnews.core
    dsimp only
    unfold resendJump
    rw [if_neg fun hjump => h (hstate.symm.trans hjump.2)]
    exact hnews
  · split
    · exact reported_repeatProgress w
    · exact ⟨rfl, rfl, rfl, rfl⟩

theorem core_sendProgress (cs : Casts K) (w : World K) (io : Io)
    (result : Option MissionResultTopic)
    (slow : Bool) :
    ∃ t, (w.sendProgress cs io result slow).core = { w.core with mission_type := t } := by
  unfold sendProgress
  split
  · next r =>
    have hnews := (reported_noteResult w r).trans
      (reported_sendMissionCurrent _ (w.noteResult r).shared.current_seq)
    dsimp only
    unfold resendJump
    split
    · refine ⟨.MISSION, (sendMissionItem_spec cs _ io _ _).1.trans ?_⟩
      rw [← hnews.core]
      rfl
    · exact ⟨w.core.mission_type, hnews.core⟩
  · split
    · exact ⟨w.core.mission_type, (reported_repeatProgress w).core⟩
    · exact ⟨w.core.mission_type, rfl⟩

/-- During a transfer, `send` gives up exactly when the protocol timeout is due and no retry
is. -/
theorem send_busy (cs : Casts K) {w : World K} (hstate : w.core.state ≠ .IDLE) (io : Io)
    (result : Option MissionResultTopic) (slow : Bool) :
    (w.send cs io false result slow).acks = w.acks ∧
      (w.send cs io false result slow).core =
        if w.retryDue io = false ∧ w.timedOut io then
          { w.core with state := .IDLE, in_progress := false }
        else w.core := by
  have hrep := sendProgress_busy cs hstate io result slow
  have hbusy : (w.sendProgress cs io result slow).me.state ≠ .IDLE := by
    rw [hrep.state]
    exact hstate
  unfold send checkTimeouts
  rw [if_neg (by simp), hrep.retryDue, hrep.timedOut]
  by_cases hretry : w.retryDue io
  · rw [if_pos hretry, if_neg (by simp [hretry]), core_requestNext, acks_requestNext]
    exact ⟨hrep.acks, hrep.core⟩
  · rw [if_neg hretry]
    by_cases hdue : w.timedOut io
    · rw [if_pos hdue, if_pos ⟨Bool.not_eq_true _ ▸ hretry, hdue⟩, ← hrep.core]
      exact ⟨(acks_critical _ _).trans hrep.acks, rfl⟩
    · rw [if_neg hdue, if_neg hbusy, if_neg (fun h => hdue h.2)]
      exact ⟨hrep.acks, hrep.core⟩

theorem send_transition {w : World K} (hw : w.acks = []) {io : Io} {iridium : Bool}
    {result : Option MissionResultTopic} {slow : Bool} :
    Transition cs wrap_2pi w.timedOut w.core (.send io iridium result slow)
      (w.send cs io iridium result slow).core (w.send cs io iridium result slow).acks := by
  cases iridium with
  | true => exact (Transition.quiet (by simp)).of_eq rfl hw
  | false =>
    by_cases hstate : w.core.state = .IDLE
    · obtain ⟨t, hcore⟩ := core_sendProgress cs w io result slow
      have hidle : (w.sendProgress cs io result slow).me.state = .IDLE :=
        (congrArg Core.state hcore).trans hstate
      unfold send checkTimeouts
      rw [if_neg (by simp), if_neg (by simp [retryDue, hidle]),
        if_neg (by simp [timedOut, hidle]), if_pos hidle]
      exact (Transition.report t hstate).of_eq hcore rfl
    · obtain ⟨hacks, hcore⟩ := send_busy cs hstate io result slow
      split at hcore
      · next hdue => exact (Transition.timeout hstate hdue.2).of_eq hcore (hacks.trans hw)
      · exact (Transition.quiet (by simp)).of_eq hcore (hacks.trans hw)

def react (cs : Casts K) (wrap_2pi : Flt K → Flt K) (w : World K) : Event K → World K
  | .message io msg => w.handleMessage cs wrap_2pi io msg
  | .send io iridium result slow => w.send cs io iridium result slow
  | .checkActiveMission io iridium => w.checkActiveMission io iridium

theorem react_transition {w : World K} (hw : w.acks = []) (e : Event K) :
    Transition cs wrap_2pi w.timedOut w.core e (w.react cs wrap_2pi e).core
      (w.react cs wrap_2pi e).acks := by
  cases e with
  | message io msg => exact handleMessage_transition hw
  | send io iridium result slow => exact send_transition hw
  | checkActiveMission io iridium =>
    obtain ⟨hcore, hacks⟩ := checkActiveMission_spec w io iridium
    exact (Transition.quiet (by simp)).of_eq hcore (hacks.trans hw)

end World

end Transition

end Mission
