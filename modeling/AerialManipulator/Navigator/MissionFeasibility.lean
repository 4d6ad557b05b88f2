/-
Missions and the geofence.

Before a mission is flown its items are checked against the geofence, by the same `checkAll` that
checks the position of the vehicle: with the counter of points outside and the limit `GF_COUNT`.

`NonInterfering e g` says that an item is accepted exactly if it is inside the fence, a mission
exactly if its items are, and that the check of a mission leaves the later checks of the vehicle
as they would have been.

* `Reached` — up to the counter, the states of a run are the first one, with the reference of the
  projection set or not;
* **`nonInterfering_iff`** — it is so in every run exactly if `GF_COUNT` is not positive, or
  nothing is outside;
* **`outside_item_accepted`** — the item outside that is accepted.
-/
import AerialManipulator.Navigator.Geofence
import AerialManipulator.Navigator.MissionRead

open WithNaN Mission
open Navigator (itemContainsPosition)

namespace Geofence

variable {K : Type*} [Field K] [LinearOrder K]

/-! ### The checks -/

/-- `vehicle_global_position_s`, `vehicle_gps_position_s` and `vehicle_air_data_s`. -/
structure Vehicle (K : Type*) where
  home : Home K
  lat : Flt K
  lon : Flt K
  alt : Flt K
  gps_lat : Int32
  gps_lon : Int32
  gps_alt : Int32
  baro_alt_meter : Flt K

/-- The point of `check` for the vehicle; `GF_ALT_MODE_WGS84` and `GF_SOURCE_GLOBALPOS` are 0. -/
def vehicleQuery (e : Env K) (v : Vehicle K) : Query K :=
  let gps_lat := num ((v.gps_lat.toInt : K) * 1e-7)
  let gps_lon := num ((v.gps_lon.toInt : K) * 1e-7)
  if e.gf_altmode = 0 then
    if e.gf_source = 0 then ⟨v.home, v.lat, v.lon, v.alt⟩
    else ⟨v.home, gps_lat, gps_lon, num ((v.gps_alt.toInt : K) * 1e-3)⟩
  else
    if e.gf_source = 0 then ⟨v.home, v.lat, v.lon, v.baro_alt_meter⟩
    else ⟨v.home, gps_lat, gps_lon, v.baro_alt_meter⟩

/-- The point of `check` for a mission item. -/
def itemQuery (home : Home K) (item : MissionItem K) : Query K :=
  ⟨home, item.lat, item.lon, item.params.altitude⟩

/-- `check` for the vehicle. -/
def checkVehicle (e : Env K) (g : State K) (v : Vehicle K) : State K × Bool :=
  checkAll e g (vehicleQuery e v)

/-- `check` for a mission item. -/
def checkItem (e : Env K) (g : State K) (home : Home K) (item : MissionItem K) : State K × Bool :=
  checkAll e g (itemQuery home item)

def amsl (home : Home K) (item : MissionItem K) : MissionItem K :=
  if item.altitude_is_relative then
    { item with params := { item.params with altitude := item.params.altitude + home.alt } }
  else item

omit [LinearOrder K] in
theorem itemContainsPosition_amsl (home : Home K) (item : MissionItem K) :
    itemContainsPosition (amsl home item) = itemContainsPosition item := by
  unfold amsl
  split
  · rfl
  · rfl

/-- The loop of `checkGeofence` over the items, as they are read. -/
def checkItems (e : Env K) (home : Home K) :
    State K → List (Option (MissionItem K)) → State K × Bool
  | g, [] => (g, true)
  | g, none :: _ => (g, false)
  | g, some item :: items =>
    -- "Geofence requires valid home position"
    if item.altitude_is_relative && !home.valid then (g, false)
    else if itemContainsPosition (amsl home item) then
      match checkItem e g home (amsl home item) with
      | (g, true) => checkItems e home g items
      | (g, false) => (g, false)
    else checkItems e home g items

def checkGeofence (e : Env K) (g : State K) (home : Home K)
    (mission : List (Option (MissionItem K))) : State K × Bool :=
  if isHomeRequired e && !home.valid then (g, false) else checkItems e home g mission

inductive Check (K : Type*)
  | vehicle (v : Vehicle K)
  | item (home : Home K) (item : MissionItem K)

def step (e : Env K) (g : State K) : Check K → State K
  | .vehicle v => (checkVehicle e g v).1
  | .item home item => (checkItem e g home item).1

/-- `Geofence` as it is constructed, with the altitudes of the file. -/
def init (e : Env K) (altitude_min altitude_max : Flt K) : State K :=
  updateFence e.store ⟨altitude_min, altitude_max, [], none, 0, 0⟩

def verdicts (e : Env K) : State K → List (Vehicle K) → List Bool
  | _, [] => []
  | g, v :: vs => (checkVehicle e g v).2 :: verdicts e (checkVehicle e g v).1 vs

/-! ### What the checks should do -/

/-- An item that was read can be converted, and is inside if it has a position. -/
def AcceptableItem (e : Env K) (g : State K) (home : Home K) (r : Option (MissionItem K)) : Prop :=
  ∃ item, r = some item ∧ (item.altitude_is_relative = true → home.valid = true) ∧
    (itemContainsPosition item = true → Inside e g (itemQuery home (amsl home item)))

/-- A mission all of whose items are acceptable. -/
def Acceptable (e : Env K) (g : State K) (home : Home K)
    (mission : List (Option (MissionItem K))) : Prop :=
  (isHomeRequired e = true → home.valid = true) ∧ ∀ r ∈ mission, AcceptableItem e g home r

/-- Checks of items and of missions depend on the fence only, and do not disturb the others. -/
structure NonInterfering (e : Env K) (g : State K) : Prop where
  item : ∀ home item, itemContainsPosition item = true →
    ((checkItem e g home item).2 = true ↔ Inside e g (itemQuery home item))
  mission : ∀ home mission, (checkGeofence e g home mission).2 = true ↔ Acceptable e g home mission
  later : ∀ home mission vs, verdicts e (checkGeofence e g home mission).1 vs = verdicts e g vs

/-- Whether a point is inside does not depend on the point that the projection was set up with. -/
def ReferenceFree (e : Env K) (g : State K) : Prop :=
  ∀ q q', Inside e (checkAll e g q).1 q' ↔ Inside e g q'

variable {e : Env K} {g₀ g : State K}

theorem referenceFree_of_no_circles (hsync : Synced e g)
    (hno : ∀ polygon ∈ g.polygons, polygon.isCircle = false) : ReferenceFree e g := by
  intro q q'
  refine inside_congr ?_
  rw [view_checkAll, insideFence_of_no_circles hsync hno]

/-! ### The states of a run -/

/-- A state after any number of checks. -/
structure Reached (e : Env K) (g₀ g : State K) : Prop where
  view : g.view = g₀.view ∨ ∃ q, g.view = (checkAll e g₀ q).1.view
  nonneg : 0 ≤ g.outside_counter

theorem Reached.check (hsync : Synced e g₀) (h : Reached e g₀ g) (q : Query K) :
    Reached e g₀ (checkAll e g q).1 := by
  refine ⟨?_, ?_⟩
  · rcases h.view with hview | ⟨q₀, hview⟩
    · exact .inr ⟨q, view_checkAll_congr hview⟩
    · obtain ⟨ref, hkeep, hstate⟩ := @insideFence_state K _ _ e g₀ q₀ hsync
      rw [view_checkAll, hstate] at hview
      cases ref with
      | none =>
        have hnone : g₀.projection_reference = none := by
          cases hr : g₀.projection_reference with
          | none => rfl
          | some r => exact absurd (hkeep r hr) (Option.some_ne_none r).symm
        refine .inr ⟨q, view_checkAll_congr (hview.trans ?_)⟩
        rw [← hnone]
      | some r =>
        refine .inr ⟨q₀, ?_⟩
        have hsync' : Synced e { g₀ with projection_reference := some r } := by
          rw [Synced, refresh_reference, show refresh e.store g₀ = g₀ from hsync]
        obtain ⟨ref', hkeep', hstate'⟩ := @insideFence_state K _ _ e _ q hsync'
        obtain rfl := hkeep' r rfl
        rw [view_checkAll_congr hview, view_checkAll, hstate', view_checkAll, hstate]
  · rw [outside_counter_checkAll]
    have := h.nonneg
    split
    · exact le_rfl
    · omega

theorem Reached.step (hsync : Synced e g₀) (h : Reached e g₀ g) (c : Check K) :
    Reached e g₀ (step e g c) := by
  cases c with
  | vehicle v => exact h.check hsync _
  | item home item => exact h.check hsync _

theorem Reached.run (hsync : Synced e g₀) (h : Reached e g₀ g) (cs : List (Check K)) :
    Reached e g₀ (Trace.run (Geofence.step e) g cs) :=
  Trace.run_of_invariant (fun _ c hg _ => hg.step hsync c) h (Trace.always_true g cs)

theorem Reached.inside (href : ReferenceFree e g₀) (h : Reached e g₀ g) (q : Query K) :
    Inside e g q ↔ Inside e g₀ q := by
  rcases h.view with hview | ⟨q₀, hview⟩
  · exact inside_congr hview
  · rw [inside_congr hview, href q₀ q]

/-! ### Runs in which the counter does not matter -/

section Immediate

variable (hsync : Synced e g₀) (href : ReferenceFree e g₀)
  (hcount : e.gf_count ≤ 0 ∨ ∀ q, Inside e g₀ q)

include href hcount

theorem Reached.verdict (h : Reached e g₀ g) (q : Query K) :
    (checkAll e g q).2 = true ↔ Inside e g₀ q := by
  rw [checkAll_verdict, h.inside href]
  refine or_iff_left_of_imp fun hlt => ?_
  rcases hcount with hle | hall
  · have := h.nonneg
    omega
  · exact hall q

include hsync

theorem Reached.verdicts (h : Reached e g₀ g) (vs : List (Vehicle K)) :
    verdicts e g vs = vs.map fun v => decide (Inside e g₀ (vehicleQuery e v)) := by
  induction vs generalizing g with
  | nil => rfl
  | cons v vs ih =>
    have hnext : Reached e g₀ (checkVehicle e g v).1 := h.check hsync _
    rw [Geofence.verdicts, List.map_cons, ih hnext]
    congr 1
    rw [Bool.eq_iff_iff, decide_eq_true_iff]
    exact h.verdict href hcount _

theorem Reached.checkItems (h : Reached e g₀ g) (home : Home K)
    (mission : List (Option (MissionItem K))) :
    Reached e g₀ (checkItems e home g mission).1 ∧
      ((checkItems e home g mission).2 = true ↔ ∀ r ∈ mission, AcceptableItem e g₀ home r) := by
  induction mission generalizing g with
  | nil => exact ⟨h, iff_of_true rfl fun r hr => nomatch hr⟩
  | cons r mission ih =>
    rw [List.forall_mem_cons]
    cases r with
    | none =>
      refine ⟨h, iff_of_false Bool.false_ne_true ?_⟩
      rintro ⟨⟨item, hitem, -⟩, -⟩
      exact nomatch hitem
    | some item =>
      rw [Geofence.checkItems, itemContainsPosition_amsl]
      by_cases hhome : (item.altitude_is_relative && !home.valid) = true
      · rw [if_pos hhome]
        refine ⟨h, iff_of_false Bool.false_ne_true ?_⟩
        rintro ⟨⟨item', hitem, hvalid, -⟩, -⟩
        cases hitem
        simp only [Bool.and_eq_true, Bool.not_eq_true'] at hhome
        exact absurd (hvalid hhome.1) (by rw [hhome.2]; exact Bool.false_ne_true)
      · rw [if_neg hhome]
        have hvalid : item.altitude_is_relative = true → home.valid = true := by
          intro hrel
          rw [hrel, Bool.true_and, Bool.not_eq_true', Bool.not_eq_false] at hhome
          exact hhome
        have hitem : AcceptableItem e g₀ home (some item) ↔ (itemContainsPosition item = true →
            Inside e g₀ (itemQuery home (amsl home item))) := by
          constructor
          · rintro ⟨item', heq, -, hpos⟩
            cases heq
            exact hpos
          · exact fun hpos => ⟨item, rfl, hvalid, hpos⟩
        rw [hitem]
        by_cases hpos : itemContainsPosition item = true
        · rw [if_pos hpos]
          have hnext : Reached e g₀ (checkItem e g home (amsl home item)).1 := h.check hsync _
          have hverdict := h.verdict href hcount (itemQuery home (amsl home item))
          rw [show checkAll e g (itemQuery home (amsl home item)) =
            checkItem e g home (amsl home item) from rfl] at hverdict
          rcases hcheck : checkItem e g home (amsl home item) with ⟨g', verdict⟩
          rw [hcheck] at hnext hverdict
          cases verdict with
          | true =>
            refine ⟨(ih hnext).1, (ih hnext).2.trans ?_⟩
            exact (and_iff_right fun _ => hverdict.mp rfl).symm
          | false =>
            refine ⟨hnext, iff_of_false Bool.false_ne_true fun hall => ?_⟩
            exact Bool.false_ne_true (hverdict.mpr (hall.1 hpos))
        · rw [if_neg hpos]
          exact ⟨(ih h).1, (ih h).2.trans (and_iff_right fun hyes => absurd hyes hpos).symm⟩

theorem Reached.checkGeofence (h : Reached e g₀ g) (home : Home K)
    (mission : List (Option (MissionItem K))) :
    Reached e g₀ (checkGeofence e g home mission).1 ∧
      ((checkGeofence e g home mission).2 = true ↔ Acceptable e g₀ home mission) := by
  unfold Geofence.checkGeofence Acceptable
  by_cases hhome : (isHomeRequired e && !home.valid) = true
  · rw [if_pos hhome]
    refine ⟨h, iff_of_false Bool.false_ne_true fun hall => ?_⟩
    simp only [Bool.and_eq_true, Bool.not_eq_true'] at hhome
    exact absurd (hall.1 hhome.1) (by rw [hhome.2]; exact Bool.false_ne_true)
  · rw [if_neg hhome]
    obtain ⟨hstate, hverdict⟩ := h.checkItems hsync href hcount home mission
    refine ⟨hstate, hverdict.trans (and_iff_right fun hreq => ?_).symm⟩
    rw [hreq, Bool.true_and, Bool.not_eq_true', Bool.not_eq_false] at hhome
    exact hhome

theorem Reached.nonInterfering (h : Reached e g₀ g) : NonInterfering e g := by
  have hinside : ∀ q, Inside e g q ↔ Inside e g₀ q := h.inside href
  refine ⟨fun home item _ => ?_, fun home mission => ?_, fun home mission vs => ?_⟩
  · rw [hinside]
    exact h.verdict href hcount _
  · refine (h.checkGeofence hsync href hcount home mission).2.trans ?_
    unfold Acceptable AcceptableItem
    simp only [hinside]
  · rw [(h.checkGeofence hsync href hcount home mission).1.verdicts hsync href hcount,
      h.verdicts hsync href hcount]

end Immediate

def waypoint (q : Query K) : MissionItem K :=
  { (MissionItem.zero : MissionItem K) with
    lat := q.lat
    lon := q.lon
    nav_cmd := .NAV_WAYPOINT
    params := ⟨0, 0, 0, 0, 0, 0, q.altitude⟩ }

/-- The check of an item tells whether it is inside exactly if it is, or enough points outside have
been counted before.  Where the reference of the projection does not matter, the checks never
interfere in any run exactly if `GF_COUNT` is not positive, or nothing is outside. -/
theorem nonInterfering_iff (e : Env K) (altitude_min altitude_max : Flt K) :
    (∀ g home item, ((checkItem e g home item).2 = true ↔ Inside e g (itemQuery home item)) ↔
      Inside e g (itemQuery home item) ∨ e.gf_count ≤ g.outside_counter) ∧
    (ReferenceFree e (init e altitude_min altitude_max) →
      ((∀ cs, NonInterfering e (Trace.run (step e) (init e altitude_min altitude_max) cs)) ↔
        e.gf_count ≤ 0 ∨ ∀ q, Inside e (init e altitude_min altitude_max) q)) := by
  constructor
  · intro g home item
    rw [checkItem, checkAll_verdict]
    by_cases h : Inside e g (itemQuery home item)
    · exact iff_of_true (iff_of_true (.inl h) h) (.inl h)
    · rw [or_iff_right h, or_iff_right h, iff_false_right h]
      exact not_lt
  · intro href
    have hsync : Synced e (init e altitude_min altitude_max) := synced_updateFence
    have hinit : Reached e (init e altitude_min altitude_max) (init e altitude_min altitude_max) :=
      ⟨.inl rfl, le_rfl⟩
    constructor
    · intro h
      refine or_iff_not_imp_left.mpr fun hpos q => ?_
      refine ((h []).item q.home (waypoint q) rfl).mp ?_
      exact checkAll_verdict.mpr (.inr (not_le.mp hpos))
    · intro hcount cs
      exact (hinit.run hsync cs).nonInterfering hsync href hcount

/-! ### Items outside -/

/-- The first item outside is accepted if `GF_COUNT` is 1. -/
theorem outside_item_accepted : ¬ ∀ cs, NonInterfering (triangle 1)
    (Trace.run (step (triangle 1)) (init (triangle 1) 0 0) cs) := by
  intro h
  have hinside : Inside (triangle 1) (init (triangle 1) 0 0) away :=
    ((h []).item away.home (waypoint away) rfl).mp (checkAll_verdict.mpr (.inr (by decide)))
  revert hinside
  decide +kernel

/-- With the value that `GF_COUNT` has by default, the point outside is never accepted. -/
theorem nonInterfering_default :
    ¬ Inside (triangle (-1)) (init (triangle (-1)) 0 0) away ∧ ∀ cs, NonInterfering (triangle (-1))
      (Trace.run (step (triangle (-1))) (init (triangle (-1)) 0 0) cs) := by
  have hcircles : ∀ polygon ∈ (init (triangle (-1)) 0 0).polygons, polygon.isCircle = false := by
    decide +kernel
  refine ⟨by decide +kernel, ((nonInterfering_iff (triangle (-1)) 0 0).2 ?_).mpr (.inl (by decide))⟩
  exact referenceFree_of_no_circles synced_updateFence hcircles

end Geofence
