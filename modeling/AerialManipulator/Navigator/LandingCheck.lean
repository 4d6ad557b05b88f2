/-
The landing pattern of a mission.

`checkFixedWingLanding` and `checkVTOLLanding` record the index of the land start and the index in
front of the last landing, and compare them in the end.  Both begin with 0, which is an index too;
only the check for fixed wings also records whether there was a landing.

* `Scanned.turn` — what the indices are, after each item;
* **`landingChecks_iff`** — when an accepted mission has a landing pattern.
-/
import AerialManipulator.Navigator.TakeoffCheck

open WithNaN
open Mission (MissionItem Command)

namespace Navigator

variable {K : Type*}

/-- `position_controller_landing_status_s`. -/
structure LandingStatus (K : Type*) where
  timestamp : ℕ
  flare_length : Flt K
  horizontal_slope_displacement : Flt K
  slope_angle_rad : Flt K

/-- What the check for fixed wings asks for: the landing status when the item `i` is read, and
functions of the geo and the mathematics library. -/
structure LandingEnv (K : Type*) where
  landing_status : ℕ → LandingStatus K
  get_distance_to_next_waypoint : Flt K → Flt K → Flt K → Flt K → Flt K
  tanf : Flt K → Flt K

/-! ### The checks -/

section Approach

variable [Field K] [LinearOrder K]

def getLandingSlopeAbsoluteAltitude (e : LandingEnv K) (wp_landing_distance wp_landing_altitude
    horizontal_slope_displacement landing_slope_angle_rad : Flt K) : Flt K :=
  (wp_landing_distance - horizontal_slope_displacement) * e.tanf landing_slope_angle_rad +
    wp_landing_altitude

/-- The item before a landing is in front of the flare and not above the slope. -/
def approachFeasible (e : LandingEnv K) (i : ℕ) (previous item : MissionItem K) : Bool :=
  let landing_status := e.landing_status i
  let wp_distance := e.get_distance_to_next_waypoint previous.lat previous.lon item.lat item.lon
  if itemContainsPosition previous then
    if landing_status.timestamp > 0 ∧ landing_status.flare_length < wp_distance then
      if item.params.altitude - previous.params.altitude < 0 then
        let slope_alt_req := getLandingSlopeAbsoluteAltitude e wp_distance item.params.altitude
          landing_status.horizontal_slope_displacement landing_status.slope_angle_rad
        -- "adjust landing approach"
        !decide (slope_alt_req + 1 < previous.params.altitude)
      else false
    else false
  else false

end Approach

def isLandStart (item : MissionItem K) : Bool := item.nav_cmd = .DO_LAND_START

def isReturnToLaunch (item : MissionItem K) : Bool := item.nav_cmd = .NAV_RETURN_TO_LAUNCH

def isLand (item : MissionItem K) : Bool := item.nav_cmd = .NAV_LAND

def isLandOrVtolLand (item : MissionItem K) : Bool :=
  item.nav_cmd = .NAV_LAND || item.nav_cmd = .NAV_VTOL_LAND

structure LandingScan where
  landing_valid : Bool
  land_start_found : Bool
  do_land_start_index : ℕ
  landing_approach_index : ℕ

/-- The first part of a turn; `none` for "more than one land start". -/
def landStartTurn (i : ℕ) (item : MissionItem K) (s : LandingScan) : Option LandingScan :=
  if isLandStart item then
    if s.land_start_found then none
    else some { s with land_start_found := true, do_land_start_index := i }
  else some s

/-- The second part of a turn, with the item `previous` as it is read; the check of the approach is
all that the two functions do differently. -/
def landingTurn (isLanding : MissionItem K → Bool)
    (approach : ℕ → MissionItem K → MissionItem K → Bool) (previous : Option (MissionItem K))
    (i : ℕ) (item : MissionItem K) (s : LandingScan) : Option LandingScan :=
  if isLanding item then
    if 0 < i then
      match previous with
      | none => none
      | some previous =>
        if approach i previous item then
          some { s with landing_approach_index := i - 1, landing_valid := true }
        else none
    -- "starts with land waypoint"
    else none
  else if isReturnToLaunch item then
    if s.land_start_found ∧ s.do_land_start_index < i then none else some s
  else some s

/-- The loop over the items as they are read; `none` if the mission is rejected. -/
def landingLoop (isLanding : MissionItem K → Bool)
    (approach : ℕ → MissionItem K → MissionItem K → Bool)
    (mission : List (Option (MissionItem K))) :
    List (Option (MissionItem K)) → ℕ → LandingScan → Option LandingScan
  | [], _, s => some s
  | none :: _, _, _ => none
  | some item :: items, i, s =>
    (landStartTurn i item s).bind fun s =>
      (landingTurn isLanding approach (mission[i - 1]?.join) i item s).bind fun s =>
        landingLoop isLanding approach mission items (i + 1) s

def checkFixedWingLanding [Field K] [LinearOrder K] (e : LandingEnv K)
    (mission : List (Option (MissionItem K))) (land_start_req : Bool) : Bool :=
  match landingLoop isLand (approachFeasible e) mission mission 0 ⟨false, false, 0, 0⟩ with
  | none => false
  | some s =>
    -- "landing pattern required"
    if land_start_req && !s.land_start_found then false
    -- "invalid land start"
    else if s.land_start_found &&
        (!s.landing_valid || decide (s.landing_approach_index < s.do_land_start_index)) then false
    else true

def checkVTOLLanding (mission : List (Option (MissionItem K))) (land_start_req : Bool) : Bool :=
  match landingLoop isLandOrVtolLand (fun _ _ _ => true) mission mission 0 ⟨false, false, 0, 0⟩ with
  | none => false
  | some s =>
    if land_start_req && !s.land_start_found then false
    else if s.land_start_found && decide (s.landing_approach_index < s.do_land_start_index)
      then false
    else true

/-! ### What is recorded -/

/-- The item at an index has the property. -/
def At (items : List (MissionItem K)) (P : MissionItem K → Bool) (i : ℕ) : Prop :=
  ∃ item, items[i]? = some item ∧ P item

variable {isLanding : MissionItem K → Bool} {approach : ℕ → MissionItem K → MissionItem K → Bool}
  {items : List (MissionItem K)} {n : ℕ} {s : LandingScan}

theorem at_iff {P : MissionItem K → Bool} {item : MissionItem K} (hitem : items[n]? = some item) :
    At items P n ↔ P item := by
  rw [At, hitem]
  constructor
  · rintro ⟨item', heq, hP⟩
    exact Option.some.inj heq ▸ hP
  · exact fun hP => ⟨item, rfl, hP⟩

/-- What is known after `n` items. -/
structure Scanned (isLanding : MissionItem K → Bool) (items : List (MissionItem K)) (n : ℕ)
    (s : LandingScan) : Prop where
  found : s.land_start_found = true → At items isLandStart s.do_land_start_index
  only : ∀ d, d < n → At items isLandStart d → s.land_start_found = true ∧ d = s.do_land_start_index
  valid : s.landing_valid = true → At items isLanding (s.landing_approach_index + 1)
  invalid : s.landing_valid = false → s.landing_approach_index = 0 ∧ ∀ l, l < n →
    ¬ At items isLanding l
  rtl : ∀ r, r < n → At items isReturnToLaunch r → s.land_start_found = true →
    r ≤ s.do_land_start_index

theorem Scanned.turn (hdisj : ∀ item : MissionItem K, isLanding item → ¬ isReturnToLaunch item)
    (h : Scanned isLanding items n s) {item : MissionItem K}
    (hitem : items[n]? = some item) {s₁ s₂ : LandingScan} (h₁ : landStartTurn n item s = some s₁)
    {previous : Option (MissionItem K)}
    (h₂ : landingTurn isLanding approach previous n item s₁ = some s₂) :
    Scanned isLanding items (n + 1) s₂ := by
  have hat : ∀ P : MissionItem K → Bool, At items P n ↔ P item := fun P => at_iff hitem
  -- the land start
  have hstart : s₁.landing_valid = s.landing_valid ∧
      s₁.landing_approach_index = s.landing_approach_index ∧
      (s₁.land_start_found = true → At items isLandStart s₁.do_land_start_index) ∧
      (∀ d, d < n + 1 → At items isLandStart d →
        s₁.land_start_found = true ∧ d = s₁.do_land_start_index) ∧
      ∀ r, r < n → At items isReturnToLaunch r → s₁.land_start_found = true →
        r ≤ s₁.do_land_start_index := by
    rw [landStartTurn] at h₁
    split_ifs at h₁ with his hfound
    · rw [Option.some.injEq] at h₁
      subst h₁
      refine ⟨rfl, rfl, fun _ => (hat _).mpr his, fun d hd hdat => ⟨rfl, ?_⟩, fun r hr _ _ => hr.le⟩
      rcases Nat.lt_succ_iff_lt_or_eq.mp hd with hlt | rfl
      · exact absurd (h.only d hlt hdat).1 hfound
      · rfl
    · rw [Option.some.injEq] at h₁
      subst h₁
      refine ⟨rfl, rfl, h.found, fun d hd hdat => ?_, h.rtl⟩
      rcases Nat.lt_succ_iff_lt_or_eq.mp hd with hlt | rfl
      · exact h.only d hlt hdat
      · exact absurd ((hat _).mp hdat) his
  obtain ⟨hvalid, happroach, hfound, honly, hrtl⟩ := hstart
  rw [landingTurn.eq_def] at h₂
  by_cases hland : isLanding item
  · rw [if_pos hland] at h₂
    cases previous with
    | none => split_ifs at h₂
    | some previous =>
      dsimp only at h₂
      split_ifs at h₂ with hpos hok
      rw [Option.some.injEq] at h₂
      subst h₂
      have hn : n - 1 + 1 = n := Nat.sub_add_cancel hpos
      refine ⟨hfound, honly, fun _ => ?_, fun hfalse => Bool.noConfusion hfalse,
        fun r hr hat' hs => ?_⟩
      · dsimp only
        rw [hn]
        exact (hat _).mpr hland
      · rcases Nat.lt_succ_iff_lt_or_eq.mp hr with hlt | rfl
        · exact hrtl r hlt hat' hs
        · exact absurd ((hat _).mp hat') (hdisj item hland)
  · rw [if_neg hland] at h₂
    have hsame : s₂ = s₁ ∧ (isReturnToLaunch item → s₁.land_start_found = true →
        n ≤ s₁.do_land_start_index) := by
      split_ifs at h₂ with hreturn hbad
      · rw [Option.some.injEq] at h₂
        exact ⟨h₂.symm, fun _ hs => not_lt.mp fun hlt => hbad ⟨hs, hlt⟩⟩
      · rw [Option.some.injEq] at h₂
        exact ⟨h₂.symm, fun hr => absurd hr hreturn⟩
    obtain ⟨rfl, hreturn⟩ := hsame
    refine ⟨hfound, honly, fun hs => ?_, fun hs => ?_, fun r hr hat' hs => ?_⟩
    · rw [happroach]
      exact h.valid (hvalid ▸ hs)
    · obtain ⟨hzero, hnone⟩ := h.invalid (hvalid ▸ hs)
      refine ⟨happroach.trans hzero, fun l hl hat' => ?_⟩
      rcases Nat.lt_succ_iff_lt_or_eq.mp hl with hlt | rfl
      · exact hnone l hlt hat'
      · exact hland ((hat _).mp hat')
    · rcases Nat.lt_succ_iff_lt_or_eq.mp hr with hlt | rfl
      · exact hrtl r hlt hat' hs
      · exact hreturn ((hat _).mp hat') hs

theorem scanned_init : Scanned isLanding items 0 ⟨false, false, 0, 0⟩ :=
  ⟨fun h => Bool.noConfusion h, fun d hd => absurd hd (Nat.not_lt_zero d),
    fun h => Bool.noConfusion h, fun _ => ⟨rfl, fun _ hl => nomatch hl⟩, fun _ hr => nomatch hr⟩

theorem Scanned.loop (hdisj : ∀ item : MissionItem K, isLanding item → ¬ isReturnToLaunch item)
    {mission : List (Option (MissionItem K))} {rest : List (MissionItem K)}
    (hrest : items.drop n = rest) (h : Scanned isLanding items n s) {s' : LandingScan}
    (hs' : landingLoop isLanding approach mission (rest.map some) n s = some s') :
    Scanned isLanding items (n + rest.length) s' := by
  induction rest generalizing n s with
  | nil =>
    rw [List.map_nil, landingLoop, Option.some.injEq] at hs'
    exact hs' ▸ h
  | cons item rest ih =>
    have hitem : items[n]? = some item := by
      rw [← List.head?_drop, hrest, List.head?_cons]
    have hdrop : items.drop (n + 1) = rest := by
      rw [← List.tail_drop, hrest, List.tail_cons]
    rw [List.map_cons, landingLoop] at hs'
    obtain ⟨s₁, h₁, hs'⟩ := Option.bind_eq_some_iff.mp hs'
    obtain ⟨s₂, h₂, hs'⟩ := Option.bind_eq_some_iff.mp hs'
    have hloop := ih hdrop (h.turn hdisj hitem h₁ h₂) hs'
    rw [List.length_cons]
    have heq : n + (rest.length + 1) = n + 1 + rest.length := by omega
    rw [heq]
    exact hloop

/-! ### The rule -/

/-- A land start is the only one, a landing comes after it, and no return. -/
structure LandingRule (isLanding : MissionItem K → Bool) (items : List (MissionItem K)) (d : ℕ) :
    Prop where
  only : ∀ d', At items isLandStart d' → d' = d
  landing : ∃ l, d < l ∧ At items isLanding l
  rtl : ∀ r, d < r → ¬ At items isReturnToLaunch r

/-- What an accepted mission looks like. -/
structure LandingPattern (isLanding : MissionItem K → Bool) (items : List (MissionItem K))
    (land_start_req : Bool) : Prop where
  rule : ∀ d, At items isLandStart d → LandingRule isLanding items d
  required : land_start_req = true → ∃ d, At items isLandStart d

theorem At.lt_length {P : MissionItem K → Bool} (h : At items P n) : n < items.length := by
  obtain ⟨item, hitem, -⟩ := h
  exact (List.getElem?_eq_some_iff.mp hitem).1

/-- The comparison in the end gives the rule, if there was a landing or the land start is not first.
-/
theorem Scanned.pattern (h : Scanned isLanding items items.length s) {land_start_req : Bool}
    (hreq : ¬ (land_start_req && !s.land_start_found) = true)
    (hend : s.land_start_found = true → s.do_land_start_index ≤ s.landing_approach_index ∧
      (s.landing_valid = false → s.do_land_start_index ≠ 0)) :
    LandingPattern isLanding items land_start_req := by
  refine ⟨fun d hd => ?_, fun hr => ?_⟩
  · obtain ⟨hfound, rfl⟩ := h.only d hd.lt_length hd
    obtain ⟨hle, hfirst⟩ := hend hfound
    refine ⟨fun d' hd' => (h.only d' hd'.lt_length hd').2, ?_, fun r hr hat => ?_⟩
    · cases hvalid : s.landing_valid with
      | true => exact ⟨_, by omega, h.valid hvalid⟩
      | false =>
        have hzero := (h.invalid hvalid).1
        exact absurd (by omega) (hfirst hvalid)
    · exact absurd (h.rtl r hat.lt_length hat hfound) (not_le.mpr hr)
  · cases hfound : s.land_start_found with
    | true => exact ⟨_, h.found hfound⟩
    | false =>
      rw [hr, hfound] at hreq
      exact absurd rfl hreq

theorem isLand_disjoint (item : MissionItem K) (h : isLand item) : ¬ isReturnToLaunch item := by
  rw [isLand, decide_eq_true_eq] at h
  rw [isReturnToLaunch, h]
  decide

theorem isLandOrVtolLand_disjoint (item : MissionItem K) (h : isLandOrVtolLand item) :
    ¬ isReturnToLaunch item := by
  rw [isLandOrVtolLand, Bool.or_eq_true, decide_eq_true_eq, decide_eq_true_eq] at h
  rw [isReturnToLaunch]
  rcases h with h | h
  · rw [h]
    decide
  · rw [h]
    decide

theorem scanned_of_loop (hdisj : ∀ item : MissionItem K, isLanding item → ¬ isReturnToLaunch item)
    (hloop : landingLoop isLanding approach (items.map some) (items.map some) 0 ⟨false, false, 0,
      0⟩ =
      some s) : Scanned isLanding items items.length s := by
  have hscanned := scanned_init.loop hdisj List.drop_zero hloop
  rwa [Nat.zero_add] at hscanned

theorem checkFixedWingLanding_pattern [Field K] [LinearOrder K] (e : LandingEnv K)
    {land_start_req : Bool} (hcheck : checkFixedWingLanding e (items.map some) land_start_req =
      true) :
    LandingPattern isLand items land_start_req := by
  rw [checkFixedWingLanding] at hcheck
  split at hcheck
  · exact nomatch hcheck
  · next s hloop =>
    split_ifs at hcheck with hreq hend
    refine (scanned_of_loop isLand_disjoint hloop).pattern hreq fun hfound => ?_
    rw [hfound, Bool.true_and, Bool.or_eq_true, not_or, Bool.not_eq_true', Bool.not_eq_false,
      decide_eq_true_eq] at hend
    exact ⟨not_lt.mp hend.2, fun hvalid => absurd (hend.1.symm.trans hvalid) (by decide)⟩

/-! ### A land start alone -/

/-- The mission begins with its land start, and there is neither a landing nor a return. -/
structure BareLandStart (items : List (MissionItem K)) : Prop where
  first : At items isLandStart 0
  only : ∀ d, At items isLandStart d → d = 0
  landing : ∀ l, ¬ At items isLandOrVtolLand l
  rtl : ∀ r, ¬ At items isReturnToLaunch r

theorem landingLoop_plain (mission : List (Option (MissionItem K))) (rest : List (MissionItem K))
    (i : ℕ) (s : LandingScan) (hplain : ∀ item ∈ rest,
      isLandStart item = false ∧ isLanding item = false ∧ isReturnToLaunch item = false) :
    landingLoop isLanding approach mission (rest.map some) i s = some s := by
  induction rest generalizing i with
  | nil => rfl
  | cons item rest ih =>
    obtain ⟨⟨hstart, hland, hreturn⟩, hrest⟩ := List.forall_mem_cons.mp hplain
    rw [List.map_cons, landingLoop, landStartTurn, hstart, if_neg Bool.false_ne_true,
      Option.bind_some, landingTurn.eq_def, hland, if_neg Bool.false_ne_true, hreturn,
      if_neg Bool.false_ne_true, Option.bind_some]
    exact ih (i + 1) hrest

theorem BareLandStart.checkVTOLLanding (h : BareLandStart items) (land_start_req : Bool) :
    checkVTOLLanding (items.map some) land_start_req = true := by
  obtain ⟨first, hfirst, hstart⟩ := h.first
  obtain ⟨rest, rfl⟩ : ∃ rest, items = first :: rest := by
    cases items with
    | nil => exact nomatch hfirst
    | cons x rest => exact ⟨rest, by rw [Option.some.inj hfirst]⟩
  have hland : isLandOrVtolLand first = false := by
    by_contra hyes
    exact h.landing 0 ⟨first, rfl, (Bool.not_eq_false _).mp hyes⟩
  have hreturn : isReturnToLaunch first = false := by
    by_contra hyes
    exact h.rtl 0 ⟨first, rfl, (Bool.not_eq_false _).mp hyes⟩
  have hplain : ∀ item ∈ rest,
      isLandStart item = false ∧ isLandOrVtolLand item = false ∧ isReturnToLaunch item = false := by
    intro item hitem
    obtain ⟨k, hk⟩ := List.getElem?_of_mem hitem
    refine ⟨?_, ?_, ?_⟩
    · by_contra hyes
      exact Nat.succ_ne_zero k (h.only (k + 1) ⟨item, hk, (Bool.not_eq_false _).mp hyes⟩)
    · by_contra hyes
      exact h.landing (k + 1) ⟨item, hk, (Bool.not_eq_false _).mp hyes⟩
    · by_contra hyes
      exact h.rtl (k + 1) ⟨item, hk, (Bool.not_eq_false _).mp hyes⟩
  have hloop : landingLoop isLandOrVtolLand (fun _ _ _ => true) ((first :: rest).map some)
      ((first :: rest).map some) 0 ⟨false, false, 0, 0⟩ = some ⟨false, true, 0, 0⟩ := by
    rw [List.map_cons, landingLoop, landStartTurn, hstart, if_pos rfl, if_neg Bool.false_ne_true,
      Option.bind_some, landingTurn.eq_def, hland, if_neg Bool.false_ne_true, hreturn,
      if_neg Bool.false_ne_true, Option.bind_some]
    exact landingLoop_plain _ rest 1 _ hplain
  rw [Navigator.checkVTOLLanding, hloop]
  simp

theorem checkVTOLLanding_pattern (hbare : ¬ BareLandStart items) {land_start_req : Bool}
    (hcheck : checkVTOLLanding (items.map some) land_start_req = true) :
    LandingPattern isLandOrVtolLand items land_start_req := by
  rw [checkVTOLLanding] at hcheck
  split at hcheck
  · exact nomatch hcheck
  · next s hloop =>
    split_ifs at hcheck with hreq hend
    have hscanned := scanned_of_loop isLandOrVtolLand_disjoint hloop
    refine hscanned.pattern hreq fun hfound => ?_
    rw [hfound, Bool.true_and, decide_eq_true_eq] at hend
    refine ⟨not_lt.mp hend, fun hvalid hzero => hbare ?_⟩
    have hnone := (hscanned.invalid hvalid).2
    refine ⟨hzero ▸ hscanned.found hfound, fun d hd => ?_, fun l hl => hnone l hl.lt_length hl,
      fun r hr => ?_⟩
    · rw [(hscanned.only d hd.lt_length hd).2, hzero]
    · have hle := hscanned.rtl r hr.lt_length hr hfound
      rw [hzero, Nat.le_zero] at hle
      -- the item with the index 0 is the land start
      obtain ⟨item, hitem, hstart⟩ := hzero ▸ hscanned.found hfound
      rw [hle, at_iff hitem, isReturnToLaunch, decide_eq_true_eq] at hr
      rw [isLandStart, hr] at hstart
      exact nomatch hstart

variable [Field K] [LinearOrder K]

/-- A mission that is accepted has a landing pattern, for both kinds of vehicles. -/
structure LandingChecks (e : LandingEnv K) (items : List (MissionItem K)) (land_start_req : Bool) :
    Prop where
  vtol : checkVTOLLanding (items.map some) land_start_req = true →
    LandingPattern isLandOrVtolLand items land_start_req
  fixedWing : checkFixedWingLanding e (items.map some) land_start_req = true →
    LandingPattern isLand items land_start_req

/-- **When the checks of the landing hold**: if the mission is not a land start alone. -/
theorem landingChecks_iff (e : LandingEnv K) (items : List (MissionItem K))
    (land_start_req : Bool) :
    LandingChecks e items land_start_req ↔ ¬ BareLandStart items := by
  constructor
  · intro hchecks hbare
    obtain ⟨l, -, hl⟩ := ((hchecks.vtol (hbare.checkVTOLLanding land_start_req)).rule 0
      hbare.first).landing
    exact hbare.landing l hl
  · intro hbare
    exact ⟨checkVTOLLanding_pattern hbare, checkFixedWingLanding_pattern e⟩

def landingEnv : LandingEnv ℚ where
  landing_status := fun _ => ⟨1, num 50, num 10, num 0⟩
  get_distance_to_next_waypoint := fun _ _ _ _ => num 100
  tanf := fun _ => num 0

/-- A land start without a landing is accepted. -/
theorem not_landingChecks_bare :
    ¬ LandingChecks landingEnv [itemOf .DO_LAND_START, itemOf .NAV_WAYPOINT] false := by
  intro hchecks
  obtain ⟨l, -, item, hitem, hl⟩ := ((hchecks.vtol rfl).rule 0 ⟨_, rfl, rfl⟩).landing
  rcases l with _ | _ | l
  · rw [← Option.some.inj hitem] at hl
    exact Bool.false_ne_true hl
  · rw [← Option.some.inj hitem] at hl
    exact Bool.false_ne_true hl
  · exact Option.some_ne_none item hitem.symm

end Navigator
