/-
The geofence.

The fence is kept in the data manager as a list of points: the vertices of polygons, each with the
number of vertices of its polygon, and the centres of circles.  `_updateFence` goes through the
list and registers the areas, and a point is then tested against all of them.  `checkAll` counts
the points outside, and reports a violation only when there were more than `GF_COUNT` of them in a
row.

* `updateLoop_isSome` — the loop over the list ends;
* `checkAll_verdict`, `outside_counter_checkAll` — a point outside is accepted while the counter
  is below `GF_COUNT`;
* `checkAll_view` — the counter has no influence on the rest of the state.
-/
import AerialManipulator.Mission.MavlinkMission

open WithNaN Mission

namespace Geofence

/-! ### Points and areas -/

/-- `mission_fence_point_s`. -/
structure FencePoint (K : Type*) where
  lat : Flt K
  lon : Flt K
  extent : Extent K
  nav_cmd : Command
  frame : Frame

structure PolygonInfo (K : Type*) where
  fence_type : Command
  dataman_index : ℕ
  extent : Extent K

section

variable {K : Type*}

/-- `vertex_count`, for a point of a polygon. -/
def vertexCount : Extent K → ℕ
  | .vertices n => n.toNat
  | .radius _ => 0

/-- `dm_read` of a fence point. -/
def readPoint (s : Store K) (index : ℕ) : Option (FencePoint K) :=
  match s.points .FENCE_POINTS index with
  | some (.fence lat lon _ extent nav_cmd frame) => some ⟨lat, lon, extent, nav_cmd, frame⟩
  | _ => none

/-- One turn of the loop of `_updateFence`: the next point, and what is registered. -/
def visit (current_seq : ℕ) (p : FencePoint K) : ℕ × List (PolygonInfo K) :=
  match p.nav_cmd with
  | .NAV_FENCE_CIRCLE_INCLUSION | .NAV_FENCE_CIRCLE_EXCLUSION =>
    (current_seq + 1, [⟨p.nav_cmd, current_seq, p.extent⟩])
  | .NAV_FENCE_POLYGON_VERTEX_EXCLUSION | .NAV_FENCE_POLYGON_VERTEX_INCLUSION =>
    -- "Polygon with 0 vertices. Skipping"
    if vertexCount p.extent = 0 then (current_seq + 1, [])
    else (current_seq + vertexCount p.extent, [⟨p.nav_cmd, current_seq, p.extent⟩])
  -- `NAV_CMD_FENCE_RETURN_POINT`, and "unhandled Fence command"
  | _ => (current_seq + 1, [])

/-- The loop of `_updateFence`; `none` if it does not end within `fuel` turns. -/
def updateLoop (read : ℕ → Option (FencePoint K)) (num_fence_items : ℕ) :
    ℕ → ℕ → List (PolygonInfo K) → Option (List (PolygonInfo K))
  | fuel, current_seq, polygons =>
    if current_seq ≤ num_fence_items then
      match fuel with
      | 0 => none
      | fuel + 1 =>
        match read current_seq with
        | none => some polygons
        | some p =>
          updateLoop read num_fence_items fuel (visit current_seq p).1
            (polygons ++ (visit current_seq p).2)
    else some polygons

/-- The number of points that the entry in front of them gives. -/
def numFenceItems (s : Store K) : ℕ :=
  match s.stats .FENCE_POINTS with
  | some stats => stats.num_items
  | none => 0

/-- The areas that `_updateFence` registers. -/
def areas (s : Store K) : Option (List (PolygonInfo K)) :=
  updateLoop (readPoint s) (numFenceItems s) (numFenceItems s) 1 []

end

/-! ### The tests of a point -/

structure Geo (K : Type*) where
  /-- from two points with their altitudes to `dist_xy` and `dist_z` -/
  get_distance_to_point_global_wgs84 : Flt K → Flt K → Flt K → Flt K → Flt K → Flt K → Flt K × Flt K
  /-- from a reference and a point to `x` and `y` -/
  map_projection_project : Flt K × Flt K → Flt K → Flt K → Flt K × Flt K

structure Env (K : Type*) where
  geo : Geo K
  gf_action : ℤ
  gf_altmode : ℤ
  gf_source : ℤ
  gf_count : ℤ
  gf_max_hor_dist : Flt K
  gf_max_ver_dist : Flt K
  store : Store K
  /-- `dmTrylock` fails -/
  locked : Bool

/-- The home position; `valid` is `home_position_valid`. -/
structure Home (K : Type*) where
  valid : Bool
  lat : Flt K
  lon : Flt K
  alt : Flt K

/-- A point to be checked, and the home position at that time. -/
structure Query (K : Type*) where
  home : Home K
  lat : Flt K
  lon : Flt K
  altitude : Flt K

/-- The members of `Geofence`; `polygons` are the first `_num_polygons` ones. -/
structure State (K : Type*) where
  altitude_min : Flt K
  altitude_max : Flt K
  polygons : List (PolygonInfo K)
  projection_reference : Option (Flt K × Flt K)
  outside_counter : ℤ
  update_counter : UInt16

def frameSupported (frame : Frame) : Bool :=
  frame = .GLOBAL || frame = .GLOBAL_INT || frame = .GLOBAL_RELATIVE_ALT ||
    frame = .GLOBAL_RELATIVE_ALT_INT

/-- `circle_radius`, for a circle. -/
def circleRadius {K : Type*} [Zero K] : Extent K → Flt K
  | .radius r => r
  | .vertices _ => 0

variable {K : Type*} [Field K] [LinearOrder K]

/-- The ray from the point crosses the edge between two vertices. -/
def crosses (i j : FencePoint K) (lat lon : Flt K) : Bool :=
  decide (lon ≤ i.lon) != decide (lon ≤ j.lon) &&
    decide (lat ≤ (j.lat - i.lat) * (lon - i.lon) / (j.lon - i.lon) + i.lat)

/-- The loop of `insidePolygon`, with the number of turns that are left. -/
def polygonLoop (read : ℕ → Option (FencePoint K)) (dataman_index : ℕ) (lat lon : Flt K) :
    ℕ → ℕ → ℕ → Bool → Bool
  | 0, _, _, c => c
  | n + 1, i, j, c =>
    match read (dataman_index + i), read (dataman_index + j) with
    | some vertex_i, some vertex_j =>
      if frameSupported vertex_i.frame then
        polygonLoop read dataman_index lat lon n (i + 1) i
          (if crosses vertex_i vertex_j lat lon then !c else c)
      else c
    | _, _ => c

def insidePolygon (read : ℕ → Option (FencePoint K)) (polygon : PolygonInfo K)
    (lat lon : Flt K) : Bool :=
  polygonLoop read polygon.dataman_index lat lon (vertexCount polygon.extent) 0
    (vertexCount polygon.extent - 1) false

/-- `insideCircle`, and the reference of the map projection, which is the first point that was
tested. -/
def insideCircle (geo : Geo K) (read : ℕ → Option (FencePoint K)) (polygon : PolygonInfo K)
    (lat lon : Flt K) (reference : Option (Flt K × Flt K)) : Option (Flt K × Flt K) × Bool :=
  match read polygon.dataman_index with
  | none => (reference, false)
  | some circle_point =>
    if frameSupported circle_point.frame then
      let ref := reference.getD (lat, lon)
      let xy₁ := geo.map_projection_project ref lat lon
      let xy₂ := geo.map_projection_project ref circle_point.lat circle_point.lon
      let dx := xy₁.1 - xy₂.1
      let dy := xy₁.2 - xy₂.2
      let radius := circleRadius circle_point.extent
      (some ref, decide (dx * dx + dy * dy < radius * radius))
    else (reference, false)

/-- The variables of the loop over all areas. -/
structure Horizontal (K : Type*) where
  reference : Option (Flt K × Flt K)
  outside_exclusion : Bool
  inside_inclusion : Bool
  had_inclusion_areas : Bool

def checkArea (geo : Geo K) (read : ℕ → Option (FencePoint K)) (lat lon : Flt K)
    (h : Horizontal K) (polygon : PolygonInfo K) : Horizontal K :=
  match polygon.fence_type with
  | .NAV_FENCE_CIRCLE_INCLUSION =>
    let r := insideCircle geo read polygon lat lon h.reference
    { h with
      reference := r.1
      inside_inclusion := if r.2 then true else h.inside_inclusion
      had_inclusion_areas := true }
  | .NAV_FENCE_CIRCLE_EXCLUSION =>
    let r := insideCircle geo read polygon lat lon h.reference
    { h with
      reference := r.1
      outside_exclusion := if r.2 then false else h.outside_exclusion }
  | .NAV_FENCE_POLYGON_VERTEX_INCLUSION =>
    { h with
      inside_inclusion := if insidePolygon read polygon lat lon then true else h.inside_inclusion
      had_inclusion_areas := true }
  | _ =>
    { h with
      outside_exclusion := if insidePolygon read polygon lat lon then false
        else h.outside_exclusion }

def horizontal (geo : Geo K) (read : ℕ → Option (FencePoint K)) (polygons : List (PolygonInfo K))
    (reference : Option (Flt K × Flt K)) (lat lon : Flt K) : Horizontal K :=
  polygons.foldl (checkArea geo read lat lon) ⟨reference, true, false, false⟩

def updateFence (s : Store K) (g : State K) : State K :=
  { g with
    -- the list always ends: `areas_isSome`
    polygons := (areas s).getD []
    update_counter := match s.stats .FENCE_POINTS with
      | some stats => stats.update_counter
      | none => g.update_counter }

def refresh (s : Store K) (g : State K) : State K :=
  match s.stats .FENCE_POINTS with
  | some stats => if g.update_counter ≠ stats.update_counter then updateFence s g else g
  | none => g

def isInsidePolygonOrCircle (e : Env K) (g : State K) (q : Query K) : State K × Bool :=
  if e.locked then (g, true)
  else
    let g := refresh e.store g
    if g.polygons.isEmpty then (g, true)
    else if g.altitude_max > g.altitude_min ∧
        (q.altitude > g.altitude_max ∨ q.altitude < g.altitude_min) then (g, false)
    else
      let h := horizontal e.geo (readPoint e.store) g.polygons g.projection_reference q.lat q.lon
      ({ g with projection_reference := h.reference },
        (!h.had_inclusion_areas || h.inside_inclusion) && h.outside_exclusion)

/-- `isHomeRequired`; `GF_ACTION_RTL` is 3. -/
def isHomeRequired (e : Env K) : Bool :=
  decide (e.gf_max_hor_dist > num (FLT_EPSILON K)) ||
    decide (e.gf_max_ver_dist > num (FLT_EPSILON K)) || decide (e.gf_action = 3)

def isCloserThanMaxDistToHome (e : Env K) (q : Query K) : Bool :=
  if isHomeRequired e && q.home.valid then
    let dist_xy := (e.geo.get_distance_to_point_global_wgs84 q.lat q.lon q.altitude q.home.lat
      q.home.lon q.home.alt).1
    !(decide (e.gf_max_hor_dist > num (FLT_EPSILON K)) && decide (dist_xy > e.gf_max_hor_dist))
  else true

def isBelowMaxAltitude (e : Env K) (q : Query K) : Bool :=
  if isHomeRequired e && q.home.valid then
    !(decide (e.gf_max_ver_dist > num (FLT_EPSILON K)) &&
      decide (q.altitude - q.home.alt > e.gf_max_ver_dist))
  else true

/-- `inside_fence` of `checkAll`: the polygons and circles are looked at only if the other tests
pass. -/
def insideFence (e : Env K) (g : State K) (q : Query K) : State K × Bool :=
  if isCloserThanMaxDistToHome e q && isBelowMaxAltitude e q then isInsidePolygonOrCircle e g q
  else (g, false)

def checkAll (e : Env K) (g : State K) (q : Query K) : State K × Bool :=
  let r := insideFence e g q
  if r.2 then ({ r.1 with outside_counter := 0 }, true)
  else
    ({ r.1 with outside_counter := r.1.outside_counter + 1 },
      !decide (r.1.outside_counter + 1 > e.gf_count))

/-! ### The counter and the rest of the state -/

def State.count (g : State K) (n : ℤ) : State K := { g with outside_counter := n }

def State.view (g : State K) : State K := g.count 0

variable {e : Env K} {g g' : State K} {q : Query K}

omit [Field K] [LinearOrder K] in
theorem refresh_count (s : Store K) (n : ℤ) : refresh s (g.count n) = (refresh s g).count n := by
  unfold refresh
  cases s.stats .FENCE_POINTS with
  | none => rfl
  | some stats =>
    dsimp only
    by_cases h : g.update_counter ≠ stats.update_counter
    · rw [if_pos h, if_pos (show (g.count n).update_counter ≠ _ from h)]
      rfl
    · rw [if_neg h, if_neg (show ¬ (g.count n).update_counter ≠ _ from h)]

theorem isInsidePolygonOrCircle_count (n : ℤ) :
    isInsidePolygonOrCircle e (g.count n) q =
      ((isInsidePolygonOrCircle e g q).1.count n, (isInsidePolygonOrCircle e g q).2) := by
  unfold isInsidePolygonOrCircle
  rw [refresh_count]
  generalize refresh e.store g = g
  split
  · rfl
  · dsimp only [State.count]
    split
    · rfl
    · split
      · rfl
      · rfl

theorem insideFence_count (n : ℤ) :
    insideFence e (g.count n) q = ((insideFence e g q).1.count n, (insideFence e g q).2) := by
  unfold insideFence
  split
  · exact isInsidePolygonOrCircle_count n
  · rfl

/-- The point is inside the fence, as the tests of `checkAll` find it. -/
def Inside (e : Env K) (g : State K) (q : Query K) : Prop := (insideFence e g q).2 = true

instance : Decidable (Inside e g q) := inferInstanceAs (Decidable (_ = true))

theorem inside_view : Inside e g.view q ↔ Inside e g q := by
  rw [Inside, Inside, State.view, insideFence_count]

theorem insideFence_outside_counter :
    (insideFence e g q).1.outside_counter = g.outside_counter := by
  have h := @insideFence_count K _ _ e g q g.outside_counter
  exact congrArg (fun r => r.1.outside_counter) h

theorem checkAll_of_inside (h : Inside e g q) :
    checkAll e g q = ((insideFence e g q).1.count 0, true) := if_pos h

theorem checkAll_of_not_inside (h : ¬ Inside e g q) : checkAll e g q =
    ((insideFence e g q).1.count (g.outside_counter + 1),
      decide (g.outside_counter < e.gf_count)) := by
  have hcheck : checkAll e g q =
      ((insideFence e g q).1.count ((insideFence e g q).1.outside_counter + 1),
        !decide ((insideFence e g q).1.outside_counter + 1 > e.gf_count)) := if_neg h
  rw [hcheck, insideFence_outside_counter, ← decide_not]
  refine congrArg _ (decide_eq_decide.mpr ?_)
  omega

theorem checkAll_verdict :
    (checkAll e g q).2 = true ↔ Inside e g q ∨ g.outside_counter < e.gf_count := by
  by_cases h : Inside e g q
  · rw [checkAll_of_inside h]
    exact iff_of_true rfl (.inl h)
  · rw [checkAll_of_not_inside h, decide_eq_true_iff, or_iff_right h]

theorem outside_counter_checkAll : (checkAll e g q).1.outside_counter =
    if Inside e g q then 0 else g.outside_counter + 1 := by
  by_cases h : Inside e g q
  · rw [checkAll_of_inside h, if_pos h]
    rfl
  · rw [checkAll_of_not_inside h, if_neg h]
    rfl

theorem view_checkAll : (checkAll e g q).1.view = (insideFence e g q).1.view := by
  by_cases h : Inside e g q
  · rw [checkAll_of_inside h]
    rfl
  · rw [checkAll_of_not_inside h]
    rfl

theorem view_checkAll_congr (h : g.view = g'.view) :
    (checkAll e g q).1.view = (checkAll e g' q).1.view := by
  rw [view_checkAll, view_checkAll]
  have hg := @insideFence_count K _ _ e g q 0
  have hg' := @insideFence_count K _ _ e g' q 0
  rw [show g.count 0 = g'.count 0 from h, hg'] at hg
  exact (congrArg Prod.fst hg).symm

theorem inside_congr (h : g.view = g'.view) : Inside e g q ↔ Inside e g' q := by
  rw [← inside_view, h, inside_view]

/-! ### The reference of the projection -/

/-- The areas are those of the points that are stored. -/
def Synced (e : Env K) (g : State K) : Prop := refresh e.store g = g

omit [Field K] [LinearOrder K] in
theorem refresh_reference (s : Store K) (ref : Option (Flt K × Flt K)) :
    refresh s { g with projection_reference := ref } =
      { refresh s g with projection_reference := ref } := by
  unfold refresh
  cases s.stats .FENCE_POINTS with
  | none => rfl
  | some stats =>
    dsimp only
    split
    · rfl
    · rfl

omit [Field K] [LinearOrder K] in
theorem synced_updateFence : Synced e (updateFence e.store g) := by
  unfold Synced refresh
  cases hstats : e.store.stats .FENCE_POINTS with
  | none => rfl
  | some stats =>
    have hcounter : (updateFence e.store g).update_counter = stats.update_counter := by
      rw [updateFence, hstats]
    exact if_neg (not_not.mpr hcounter)

theorem checkArea_reference {geo : Geo K} {read : ℕ → Option (FencePoint K)} {lat lon : Flt K}
    {ref : Flt K × Flt K} {h : Horizontal K} (href : h.reference = some ref)
    (polygon : PolygonInfo K) : (checkArea geo read lat lon h polygon).reference = some ref := by
  have hcircle : (insideCircle geo read polygon lat lon h.reference).1 = some ref := by
    unfold insideCircle
    rw [href]
    split
    · rfl
    · split
      · rfl
      · rfl
  unfold checkArea
  split
  · exact hcircle
  · exact hcircle
  · exact href
  · exact href

theorem horizontal_reference {geo : Geo K} {read : ℕ → Option (FencePoint K)}
    {polygons : List (PolygonInfo K)} {lat lon : Flt K} (ref : Flt K × Flt K) :
    (horizontal geo read polygons (some ref) lat lon).reference = some ref := by
  unfold horizontal
  have hfold : ∀ h : Horizontal K, h.reference = some ref →
      (polygons.foldl (checkArea geo read lat lon) h).reference = some ref := by
    induction polygons with
    | nil => exact fun h href => href
    | cons polygon polygons ih => exact fun h href => ih _ (checkArea_reference href polygon)
  exact hfold _ rfl

theorem insideFence_state (hsync : Synced e g) : ∃ ref, (∀ r, g.projection_reference = some r →
    ref = some r) ∧ (insideFence e g q).1 = { g with projection_reference := ref } := by
  have hsame : ∃ ref, (∀ r, g.projection_reference = some r → ref = some r) ∧
      g = { g with projection_reference := ref } := ⟨_, fun _ hr => hr, rfl⟩
  unfold insideFence
  split
  · unfold isInsidePolygonOrCircle
    rw [show refresh e.store g = g from hsync]
    split
    · exact hsame
    · dsimp only
      split
      · exact hsame
      · split
        · exact hsame
        · refine ⟨_, fun r hr => ?_, rfl⟩
          rw [hr]
          exact horizontal_reference r
  · exact hsame

def PolygonInfo.isCircle (polygon : PolygonInfo K) : Bool :=
  polygon.fence_type = .NAV_FENCE_CIRCLE_INCLUSION ||
    polygon.fence_type = .NAV_FENCE_CIRCLE_EXCLUSION

theorem horizontal_reference_of_no_circles {geo : Geo K} {read : ℕ → Option (FencePoint K)}
    {polygons : List (PolygonInfo K)} {ref : Option (Flt K × Flt K)} {lat lon : Flt K}
    (hno : ∀ polygon ∈ polygons, polygon.isCircle = false) :
    (horizontal geo read polygons ref lat lon).reference = ref := by
  unfold horizontal
  have hfold : ∀ h : Horizontal K,
      (polygons.foldl (checkArea geo read lat lon) h).reference = h.reference := by
    induction polygons with
    | nil => exact fun h => rfl
    | cons polygon polygons ih =>
      obtain ⟨hpolygon, hno⟩ := List.forall_mem_cons.mp hno
      intro h
      rw [List.foldl_cons, ih hno]
      unfold checkArea
      split
      · next htype => simp [PolygonInfo.isCircle, htype] at hpolygon
      · next htype => simp [PolygonInfo.isCircle, htype] at hpolygon
      · rfl
      · rfl
  exact hfold _

theorem insideFence_of_no_circles (hsync : Synced e g)
    (hno : ∀ polygon ∈ g.polygons, polygon.isCircle = false) : (insideFence e g q).1 = g := by
  unfold insideFence
  split
  · unfold isInsidePolygonOrCircle
    rw [show refresh e.store g = g from hsync]
    split
    · rfl
    · dsimp only
      split
      · rfl
      · split
        · rfl
        · rw [horizontal_reference_of_no_circles hno]
  · rfl

/-- A fence with one polygon. -/
def triangle (gf_count : ℤ) : Env ℚ where
  geo := ⟨fun _ _ _ _ _ _ => (0, 0), fun _ lat lon => (lat, lon)⟩
  gf_action := 1
  gf_altmode := 0
  gf_source := 0
  gf_count := gf_count
  gf_max_hor_dist := 0
  gf_max_ver_dist := 0
  locked := false
  store :=
    { waypoints := fun _ _ => none
      points := fun _ index =>
        ([(0, 0), (0, 1), (1, 0)][index - 1]?).map fun xy : ℚ × ℚ =>
          .fence (num xy.1) (num xy.2) 0 (.vertices 3) .NAV_FENCE_POLYGON_VERTEX_INCLUSION .GLOBAL
      stats := fun _ => some ⟨3, 1⟩
      state := none }

def away : Query ℚ := ⟨⟨false, 0, 0, 0⟩, num 5, num 5, num 10⟩

end Geofence
