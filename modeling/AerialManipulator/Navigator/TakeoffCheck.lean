/-
The takeoff of a mission.

`checkTakeoff` goes through the mission twice: it looks for takeoffs, and then at the items before
the first takeoff behind item 0.  The second pass overwrites its verdict with each item, so that
only the last of them counts.

* `checkTakeoff_iff` — what is accepted;
* **`takeoffRule_iff`** — when that is what the rule says.
-/
import AerialManipulator.Navigator.MissionRead

open WithNaN
open Mission (MissionItem Command)

namespace Navigator

variable {K : Type*} [Field K] [LinearOrder K]

structure TakeoffEnv (K : Type*) where
  default_acceptance_radius : Flt K
  takeoff_required : Bool
  landed : Bool

/-! ### The check -/

def NAV_EPSILON_POSITION : Flt K := 0.001

def isTakeoff (item : MissionItem K) : Bool := item.nav_cmd = .NAV_TAKEOFF

def takeoffAlt (home_alt : Flt K) (item : MissionItem K) : Flt K :=
  if item.altitude_is_relative then item.params.altitude else item.params.altitude - home_alt

def acceptanceRadius (e : TakeoffEnv K) (item : MissionItem K) : Flt K :=
  if NAV_EPSILON_POSITION < item.params.acceptance_radius then item.params.acceptance_radius
  else e.default_acceptance_radius

def tooLow (e : TakeoffEnv K) (home_alt : Flt K) (item : MissionItem K) : Bool :=
  takeoffAlt home_alt item - 1 < acceptanceRadius e item

/-- The variables of the first pass; there is no index for `-1`. -/
structure TakeoffScan where
  has_takeoff : Bool
  takeoff_first : Bool
  takeoff_index : Option ℕ

/-- A takeoff at the index `i`. -/
def TakeoffScan.found (s : TakeoffScan) (i : ℕ) : TakeoffScan where
  has_takeoff := true
  takeoff_first := if i = 0 then true else s.takeoff_first
  takeoff_index := if i ≠ 0 ∧ s.takeoff_index = none then some i else s.takeoff_index

/-- The first pass, over the items as they are read; `none` if the mission is rejected. -/
def takeoffScan (e : TakeoffEnv K) (home_alt : Flt K) :
    List (Option (MissionItem K)) → ℕ → TakeoffScan → Option TakeoffScan
  | [], _, s => some s
  | none :: _, _, _ => none
  | some item :: items, i, s =>
    if isTakeoff item then
      if tooLow e home_alt item then none else takeoffScan e home_alt items (i + 1) (s.found i)
    else takeoffScan e home_alt items (i + 1) s

/-- The items that may be set before a takeoff; `NAV_CMD_IDLE` is 0. -/
def listed (item : MissionItem K) : Bool :=
  match item.nav_cmd with
  | .NAV_DELAY | .DO_JUMP | .DO_CHANGE_SPEED | .DO_SET_HOME | .DO_SET_SERVO | .DO_LAND_START
  | .DO_TRIGGER_CONTROL | .DO_DIGICAM_CONTROL | .IMAGE_START_CAPTURE | .IMAGE_STOP_CAPTURE
  | .VIDEO_START_CAPTURE | .VIDEO_STOP_CAPTURE | .DO_CONTROL_VIDEO | .DO_MOUNT_CONFIGURE
  | .DO_MOUNT_CONTROL | .DO_GIMBAL_MANAGER_PITCHYAW | .DO_GIMBAL_MANAGER_CONFIGURE | .DO_SET_ROI
  | .DO_SET_ROI_LOCATION | .DO_SET_ROI_WPNEXT_OFFSET | .DO_SET_ROI_NONE | .DO_SET_CAM_TRIGG_DIST
  | .OBLIQUE_SURVEY | .DO_SET_CAM_TRIGG_INTERVAL | .SET_CAMERA_MODE | .SET_CAMERA_ZOOM
  | .SET_CAMERA_FOCUS | .DO_VTOL_TRANSITION => true
  | .other command => command = 0
  | _ => false

def beforeTakeoff : List (Option (MissionItem K)) → Bool → Option Bool
  | [], takeoff_first => some takeoff_first
  | none :: _, _ => none
  | some item :: items, _ => beforeTakeoff items (listed item)

/-- `takeoff_first` after the second pass. -/
def secondPass (mission : List (Option (MissionItem K))) (s : TakeoffScan) : Option Bool :=
  match s.takeoff_index with
  | none => some s.takeoff_first
  | some index => beforeTakeoff (mission.take index) s.takeoff_first

def checkTakeoff (e : TakeoffEnv K) (home_alt : Flt K) (mission : List (Option (MissionItem K))) :
    Bool :=
  match takeoffScan e home_alt mission 0 ⟨false, false, none⟩ with
  | none => false
  | some s =>
    match secondPass mission s with
    | none => false
    | some takeoff_first =>
      if e.takeoff_required && e.landed then
        -- "takeoff waypoint required", "takeoff not first waypoint item"
        if !s.has_takeoff then false else if !takeoff_first then false else true
      else true

/-! ### What is accepted -/

variable {e : TakeoffEnv K} {home_alt : Flt K}

theorem takeoffScan_succ (items : List (MissionItem K)) (i : ℕ) (s : TakeoffScan) :
    takeoffScan e home_alt (items.map some) (i + 1) s =
      if items.any (fun item => isTakeoff item && tooLow e home_alt item) then none
      else some ⟨s.has_takeoff || items.any isTakeoff, s.takeoff_first,
        s.takeoff_index <|> (items.findIdx? isTakeoff).map (· + (i + 1))⟩ := by
  induction items generalizing i s with
  | nil => cases s with | mk has first index => cases index <;> simp [takeoffScan]
  | cons item items ih =>
    rw [List.map_cons, takeoffScan]
    by_cases htakeoff : isTakeoff item
    · rw [if_pos htakeoff]
      by_cases hlow : tooLow e home_alt item
      · simp [htakeoff, hlow]
      · rw [if_neg hlow, ih]
        cases s with
        | mk has first index =>
          cases index <;> simp [htakeoff, hlow, TakeoffScan.found, List.findIdx?_cons]
    · rw [if_neg htakeoff, ih]
      have hshift : ((items.findIdx? isTakeoff).map (· + (i + 1 + 1)) : Option ℕ) =
          ((items.findIdx? isTakeoff).map (· + 1)).map (· + (i + 1)) := by
        rw [Option.map_map]
        refine congrArg (fun f => (items.findIdx? isTakeoff).map f) (funext fun n => ?_)
        dsimp only [Function.comp_apply]
        omega
      simp [htakeoff, List.findIdx?_cons, hshift]

omit [Field K] [LinearOrder K] in
theorem beforeTakeoff_map (items : List (MissionItem K)) (takeoff_first : Bool) :
    beforeTakeoff (items.map some) takeoff_first =
      some ((items.getLast?.map listed).getD takeoff_first) := by
  induction items generalizing takeoff_first with
  | nil => rfl
  | cons item items ih =>
    rw [List.map_cons, beforeTakeoff, ih]
    cases items with
    | nil => rfl
    | cons item' items => rw [List.getLast?_cons_cons, List.getLast?_cons, Option.map_some]; rfl

/-- The item directly before the first takeoff behind item 0. -/
def directlyBefore : List (MissionItem K) → Option (MissionItem K)
  | [] => none
  | item :: items =>
    if items.any isTakeoff then (item :: items.takeWhile fun x => !isTakeoff x).getLast? else none

omit [Field K] [LinearOrder K] in
theorem take_findIdx? (items : List (MissionItem K)) {m : ℕ}
    (hm : items.findIdx? isTakeoff = some m) :
    items.take m = items.takeWhile (fun x => !isTakeoff x) ∧ items.any isTakeoff = true := by
  induction items generalizing m with
  | nil => exact nomatch hm
  | cons item items ih =>
    rw [List.findIdx?_cons] at hm
    by_cases htakeoff : isTakeoff item
    · rw [if_pos htakeoff, Option.some.injEq] at hm
      subst hm
      simp [htakeoff]
    · rw [if_neg htakeoff] at hm
      obtain ⟨n, hn, rfl⟩ := Option.map_eq_some_iff.mp hm
      obtain ⟨htake, hany⟩ := ih hn
      simp [htakeoff, htake, hany]

theorem takeoffScan_cons (item : MissionItem K) (items : List (MissionItem K)) :
    takeoffScan e home_alt ((item :: items).map some) 0 ⟨false, false, none⟩ =
      if (item :: items).any (fun item => isTakeoff item && tooLow e home_alt item) then none
      else some ⟨(item :: items).any isTakeoff, isTakeoff item,
        (items.findIdx? isTakeoff).map (· + 1)⟩ := by
  rw [List.map_cons, takeoffScan, List.any_cons, List.any_cons]
  by_cases htakeoff : isTakeoff item
  · rw [if_pos htakeoff]
    by_cases hlow : tooLow e home_alt item
    · simp [htakeoff, hlow]
    · rw [if_neg hlow, takeoffScan_succ]
      simp [htakeoff, hlow, TakeoffScan.found]
  · rw [if_neg htakeoff, takeoffScan_succ]
    simp [htakeoff]

omit [Field K] [LinearOrder K] in
theorem secondPass_cons (item : MissionItem K) (items : List (MissionItem K)) (has_takeoff : Bool) :
    secondPass ((item :: items).map some)
        ⟨has_takeoff, isTakeoff item, (items.findIdx? isTakeoff).map (· + 1)⟩ =
      some (((directlyBefore (item :: items)).map listed).getD (isTakeoff item)) := by
  cases hindex : items.findIdx? isTakeoff with
  | none =>
    have hno : items.any isTakeoff = false := by
      rw [List.findIdx?_eq_none_iff] at hindex
      rw [List.any_eq_false]
      intro x hx
      rw [hindex x hx]
      exact Bool.false_ne_true
    rw [directlyBefore, hno]
    rfl
  | some m =>
    obtain ⟨htake, hyes⟩ := take_findIdx? items hindex
    have htake' : ((item :: items).map some).take (m + 1) =
        (item :: items.takeWhile fun x => !isTakeoff x).map some := by
      rw [← List.map_take, List.take_succ_cons, htake]
    rw [secondPass]
    dsimp only [Option.map_some]
    rw [htake', beforeTakeoff_map, directlyBefore, if_pos hyes]

theorem checkTakeoff_iff (items : List (MissionItem K)) (hreq : e.takeoff_required && e.landed) :
    checkTakeoff e home_alt (items.map some) = true ↔
      (∀ item ∈ items, isTakeoff item → ¬ tooLow e home_alt item) ∧
        (∃ item ∈ items, isTakeoff item) ∧
        ∀ item ∈ directlyBefore items, listed item := by
  cases items with
  | nil => simp [checkTakeoff, takeoffScan, secondPass, hreq]
  | cons item items =>
    have hlow_iff : (∀ x ∈ item :: items, isTakeoff x → ¬ tooLow e home_alt x) ↔
        ¬ (item :: items).any (fun item => isTakeoff item && tooLow e home_alt item) := by
      rw [List.any_eq_true]
      simp only [Bool.and_eq_true, not_exists, not_and]
    rw [checkTakeoff, takeoffScan_cons, hlow_iff]
    by_cases hlow : (item :: items).any (fun item => isTakeoff item && tooLow e home_alt item)
    · rw [if_pos hlow]
      exact iff_of_false Bool.false_ne_true fun h => h.1 hlow
    · rw [if_neg hlow]
      dsimp only
      rw [secondPass_cons]
      dsimp only
      rw [if_pos hreq, ← List.any_eq_true]
      cases hbefore : directlyBefore (item :: items) with
      | none =>
        -- there is no takeoff behind item 0
        have hno : items.any isTakeoff = false := by
          rw [directlyBefore] at hbefore
          by_contra hany
          rw [if_pos ((Bool.not_eq_false _).mp hany), List.getLast?_cons] at hbefore
          exact Option.some_ne_none _ hbefore
        rw [List.any_cons, hno, Bool.or_false]
        cases isTakeoff item <;> simp [hlow]
      | some y => cases (item :: items).any isTakeoff <;> cases hy : listed y <;> simp [hlow, hy]

/-! ### The rule -/

/-- One metre above home, and the radius. -/
def HighEnough (e : TakeoffEnv K) (home_alt : Flt K) (item : MissionItem K) : Prop :=
  acceptanceRadius e item + 1 ≤ takeoffAlt home_alt item

/-- Heights that are numbers. -/
def Known (e : TakeoffEnv K) (home_alt : Flt K) (item : MissionItem K) : Prop :=
  (takeoffAlt home_alt item).isFinite ∧ (acceptanceRadius e item).isFinite

instance (item : MissionItem K) : Decidable (Known e home_alt item) := instDecidableAnd

/-- A takeoff, all takeoffs high enough, and only listed items before the first one. -/
structure TakeoffRule (e : TakeoffEnv K) (home_alt : Flt K) (items : List (MissionItem K)) :
    Prop where
  takeoff : ∃ item ∈ items, isTakeoff item
  high : ∀ item ∈ items, isTakeoff item → HighEnough e home_alt item
  before : ∀ item ∈ items.takeWhile (fun x => !isTakeoff x), listed item

/-- The missions that are judged by the wrong item, or by no number. -/
inductive Misjudged (e : TakeoffEnv K) (home_alt : Flt K) (items : List (MissionItem K)) : Prop
  /-- an item that is not listed, and a listed one directly before the takeoff -/
  | overwritten (hbefore : ∀ item ∈ directlyBefore items, listed item)
      (hnot : ∃ item ∈ items.takeWhile (fun x => !isTakeoff x), ¬ listed item)
  /-- a takeoff whose height is not a number -/
  | notANumber (hbefore : ∀ item ∈ directlyBefore items, listed item)
      (hnot : ∃ item ∈ items, isTakeoff item ∧ ¬ Known e home_alt item)
  /-- a takeoff in the beginning, and one more behind an item that is not listed -/
  | repeated (hfirst : ∃ item ∈ items.head?, isTakeoff item)
      (hnot : ∃ item ∈ directlyBefore items, ¬ listed item)
      (hknown : ∀ item ∈ items, isTakeoff item → Known e home_alt item)

/-- There is a takeoff, and none of which the code says that it is too low. -/
def Eligible (e : TakeoffEnv K) (home_alt : Flt K) (items : List (MissionItem K)) : Prop :=
  (∃ item ∈ items, isTakeoff item) ∧ ∀ item ∈ items, isTakeoff item → ¬ tooLow e home_alt item

theorem highEnough_iff [IsStrictOrderedRing K] (item : MissionItem K) :
    HighEnough e home_alt item ↔ ¬ tooLow e home_alt item ∧ Known e home_alt item := by
  rw [HighEnough, tooLow, decide_eq_true_eq, Known]
  cases acceptanceRadius e item with
  | nan => exact iff_of_false (not_nan_le _) fun h => Bool.false_ne_true h.2.2
  | num r =>
    cases takeoffAlt home_alt item with
    | nan => exact iff_of_false (not_le_nan _) fun h => Bool.false_ne_true h.2.1
    | num a =>
      have hiff : r + 1 ≤ a ↔ ¬ a - 1 < r := by rw [not_lt, le_sub_iff_add_le]
      exact hiff.trans (and_iff_left ⟨rfl, rfl⟩).symm

omit [Field K] [LinearOrder K] in
theorem directlyBefore_mem {items : List (MissionItem K)} {y : MissionItem K}
    (hy : directlyBefore items = some y) (hfirst : ¬ ∃ item ∈ items.head?, isTakeoff item) :
    y ∈ items.takeWhile (fun x => !isTakeoff x) := by
  cases items with
  | nil => exact nomatch hy
  | cons item items =>
    have hitem : isTakeoff item = false := by
      by_contra htakeoff
      exact hfirst ⟨item, rfl, (Bool.not_eq_false _).mp htakeoff⟩
    rw [directlyBefore] at hy
    split_ifs at hy
    rw [List.takeWhile_cons_of_pos (by rw [hitem]; rfl)]
    exact List.mem_of_getLast? hy

/-- **When the check follows the rule**: where a takeoff is required, on all missions but those that
are eligible and misjudged. -/
theorem takeoffRule_iff [IsStrictOrderedRing K] (items : List (MissionItem K))
    (hreq : e.takeoff_required && e.landed) :
    (checkTakeoff e home_alt (items.map some) = true ↔ TakeoffRule e home_alt items) ↔
      ¬ (Eligible e home_alt items ∧ Misjudged e home_alt items) := by
  rw [checkTakeoff_iff items hreq]
  constructor
  · rintro hiff ⟨⟨htakeoff, hnotLow⟩, hmis⟩
    cases hmis with
    | overwritten hbefore hnot =>
      obtain ⟨item, hitem, hlisted⟩ := hnot
      exact hlisted ((hiff.mp ⟨hnotLow, htakeoff, hbefore⟩).before item hitem)
    | notANumber hbefore hnot =>
      obtain ⟨item, hitem, his, hknown⟩ := hnot
      have hhigh := (hiff.mp ⟨hnotLow, htakeoff, hbefore⟩).high item hitem his
      exact hknown ((highEnough_iff item).mp hhigh).2
    | repeated hfirst hnot hknown =>
      obtain ⟨y, hy, hlisted⟩ := hnot
      have hhigh : ∀ item ∈ items, isTakeoff item → HighEnough e home_alt item :=
        fun item hitem his => (highEnough_iff item).mpr ⟨hnotLow item hitem his,
          hknown item hitem his⟩
      refine hlisted ((hiff.mpr ⟨htakeoff, hhigh, ?_⟩).2.2 y hy)
      obtain ⟨first, hhead, his⟩ := hfirst
      intro item hitem
      cases items with
      | nil => exact nomatch hhead
      | cons x items =>
        rw [List.head?_cons, Option.mem_def, Option.some.injEq] at hhead
        rw [List.takeWhile_cons_of_neg (by rw [hhead, his]; decide)] at hitem
        exact nomatch hitem
  · intro hmis
    constructor
    · rintro ⟨hnotLow, htakeoff, hbefore⟩
      refine ⟨htakeoff, fun item hitem his => ?_, fun item hitem => ?_⟩
      · refine (highEnough_iff item).mpr ⟨hnotLow item hitem his, ?_⟩
        by_contra hknown
        exact hmis ⟨⟨htakeoff, hnotLow⟩, .notANumber hbefore ⟨item, hitem, his, hknown⟩⟩
      · by_contra hlisted
        exact hmis ⟨⟨htakeoff, hnotLow⟩, .overwritten hbefore ⟨item, hitem, hlisted⟩⟩
    · rintro ⟨htakeoff, hhigh, hbefore⟩
      have hnotLow : ∀ item ∈ items, isTakeoff item → ¬ tooLow e home_alt item :=
        fun item hitem his => ((highEnough_iff item).mp (hhigh item hitem his)).1
      refine ⟨hnotLow, htakeoff, fun y hy => ?_⟩
      by_contra hlisted
      by_cases hfirst : ∃ item ∈ items.head?, isTakeoff item
      · exact hmis ⟨⟨htakeoff, hnotLow⟩, .repeated hfirst ⟨y, hy, hlisted⟩
          fun item hitem his => ((highEnough_iff item).mp (hhigh item hitem his)).2⟩
      · exact hlisted (hbefore y (directlyBefore_mem hy hfirst))

/-! ### Missions -/

def itemOf (nav_cmd : Command) : MissionItem ℚ where
  lat := num 0
  lon := num 0
  params := ⟨num 0, num 0, num 0, num 0, num 0, num 0, num 20⟩
  nav_cmd := nav_cmd
  do_jump_mission_index := 0
  do_jump_repeat_count := 0
  count := 0
  frame := .GLOBAL_RELATIVE_ALT
  origin := 0
  loiter_exit_xtrack := false
  force_heading := false
  altitude_is_relative := true
  autocontinue := true

def takeoffEnv : TakeoffEnv ℚ := ⟨num 10, true, true⟩

theorem takeoffRule_direct :
    checkTakeoff takeoffEnv (num 0)
        ([itemOf .DO_CHANGE_SPEED, itemOf .NAV_TAKEOFF, itemOf .NAV_WAYPOINT].map some) = true ↔
      TakeoffRule takeoffEnv (num 0)
        [itemOf .DO_CHANGE_SPEED, itemOf .NAV_TAKEOFF, itemOf .NAV_WAYPOINT] := by
  refine (takeoffRule_iff _ rfl).mpr ?_
  rintro ⟨-, hmis⟩
  cases hmis with
  | overwritten _ hnot => revert hnot; decide
  | notANumber _ hnot => revert hnot; decide +kernel
  | repeated hfirst _ _ => revert hfirst; decide

/-- A waypoint before the takeoff, and an item that is listed between them. -/
theorem not_takeoffRule_overwritten :
    ¬ (checkTakeoff takeoffEnv (num 0)
        ([itemOf .NAV_WAYPOINT, itemOf .DO_CHANGE_SPEED, itemOf .NAV_TAKEOFF].map some) = true ↔
      TakeoffRule takeoffEnv (num 0)
        [itemOf .NAV_WAYPOINT, itemOf .DO_CHANGE_SPEED, itemOf .NAV_TAKEOFF]) := by
  intro hiff
  have hlisted := (hiff.mp (by decide +kernel)).before (itemOf .NAV_WAYPOINT) List.mem_cons_self
  exact Bool.false_ne_true hlisted

end Navigator
