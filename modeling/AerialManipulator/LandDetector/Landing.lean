/-
When a multicopter is found to have landed.

The message has three stages, and a stage is only left out while the vehicle is not armed: then
all of them are asked for at once.

* `observe_stages` — what a cycle does to the stages, and what it shows of itself;
* `ordered_run` — in every run, landed implies maybe landed;
* **`landing_law`** — since the conditions for ground contact last failed, a vehicle that is armed
  and has an estimate of its vertical velocity has had contact for the trigger time.
-/
import AerialManipulator.LandDetector.MulticopterLandDetector
import AerialManipulator.Lib.Mealy

open Trace WithNaN

namespace LandDetector

/-! ### Runs -/

section Run

variable {K : Type*} [Field K] [LinearOrder K] [Elementary K]

structure Observed where
  now_us : UInt64
  armed : Bool
  /-- There is an estimate of the vertical velocity, and it is valid. -/
  estimate : Bool
  /-- The conditions for ground contact are met. -/
  contact : Bool
  has_low_throttle : Bool
  horizontal_movement : Bool
  vertical_movement : Bool
  ground_contact : Bool
  maybe_landed : Bool
  landed : Bool
  deriving DecidableEq

def Detector.observe (trig_time : ℚ) (s : Detector K) (c : Cycle K) : Detector K × Observed :=
  let s' := s.run trig_time c
  (s', { now_us := c.now_us
         armed := s'.armed
         estimate := s'.lposAvailable c.maybe_now && s'.vehicle_local_position.v_z_valid
         contact := (s.stageInput trig_time c).ground_contact
         has_low_throttle := s'.has_low_throttle
         horizontal_movement := s'.horizontal_movement
         vertical_movement := s'.vertical_movement
         ground_contact := s'.land_detected.ground_contact
         maybe_landed := s'.land_detected.maybe_landed
         landed := s'.land_detected.landed })

variable (K) in
def Detector.init : Detector K where
  params := ⟨0, 0, 0, 0, false, 0, 0, 0, 0, 0⟩
  freefall_hysteresis := Hysteresis.init false
  stages := ⟨Hysteresis.init true, Hysteresis.init true, Hysteresis.init true⟩
  ground_effect_hysteresis := Hysteresis.init false
  vehicle_local_position := ⟨0, 0, 0, 0, false, false, 0, false, 0⟩
  acceleration := fun _ => 0
  armed := false
  dist_bottom_is_observable := false
  land_detected :=
    ⟨0, some (-1), false, true, true, true, false, false, false, false, false, false⟩
  hover_thrust_estimate_last_valid := 0
  hover_thrust_estimate_valid := false
  flag_control_climb_rate_enabled := false
  hover_thrust_initialized := false
  actuator_controls_throttle := 0
  takeoff_state := .disarmed
  min_thrust_start := 0
  landed_time := 0
  in_descend := false
  horizontal_movement := false
  vertical_movement := false
  has_low_throttle := false
  close_to_ground_or_skipped_check := false
  below_gnd_effect_hgt := false

def shown (trig_time : ℚ) (cs : List (Cycle K)) : List Observed :=
  (Mealy.feed (Detector.observe trig_time) (Detector.init K) cs).2

/-- Low throttle, and no movement. -/
structure Quiet (o : Observed) : Prop where
  has_low_throttle : o.has_low_throttle = true
  horizontal_movement : o.horizontal_movement = false
  vertical_movement : o.vertical_movement = false

/-- The stages in a run.  In the last of them, the conditions for ground contact have been failed in
the cycle `c`, and the cycles since then are `since ++ [o]`; the trigger time is in seconds. -/
structure LandingLaw (trig_time : ℚ) (os : List Observed) : Prop where
  landed : ∀ o ∈ os, o.landed = true → o.maybe_landed = true
  maybe_landed : ∀ o ∈ os, o.armed = true → o.estimate = true → o.maybe_landed = true →
    o.ground_contact = true
  span : ∀ before c since o after, os = before ++ c :: (since ++ o :: after) → c.contact = false →
    (∀ x ∈ since ++ [o], x.armed = true ∧ x.estimate = true) → o.landed = true →
      ∃ first, EndsInBlock Quiet (since ++ [o]) first o ∧
        trig_time * 1000000 * (1 - 1 / 2 ^ 22) < (o.now_us.toNat - first.now_us.toNat : ℕ) + 3

/-! ### One cycle -/

variable {trig_time : ℚ} {s : Detector K} {c : Cycle K}

theorem run_frame : ∃ h m, s.run trig_time c =
    { s.staged trig_time c with ground_effect_hysteresis := h, land_detected := m } := by
  obtain ⟨m, hm⟩ := @Detector.publish_frame _ _ _
    ((s.staged trig_time c).callGroundEffect c.now_us) c.publish_now c.elapsed_now
  exact ⟨_, m, hm⟩

theorem run_stages : (s.run trig_time c).stages = s.stages.call (s.stageInput trig_time c) := by
  obtain ⟨h, m, hframe⟩ := @run_frame _ _ _ _ trig_time s c
  rw [hframe, ← Detector.staged_stages]

/-- What the later stages read, or only show. -/
structure SameFlight (s t : Detector K) : Prop where
  armed : t.armed = s.armed
  vehicle_local_position : t.vehicle_local_position = s.vehicle_local_position
  has_low_throttle : t.has_low_throttle = s.has_low_throttle
  horizontal_movement : t.horizontal_movement = s.horizontal_movement
  vertical_movement : t.vertical_movement = s.vertical_movement

theorem sameFlight_maybeLanded :
    SameFlight (s.contacted trig_time c) (s.maybeLanded trig_time c) := by
  obtain ⟨t, hframe⟩ := @Detector.callMaybeLanded_frame _ _ _ _ (s.contacted trig_time c) c
  unfold Detector.maybeLanded
  rw [hframe]
  exact ⟨rfl, rfl, rfl, rfl, rfl⟩

theorem sameFlight_run : SameFlight (s.contacted trig_time c) (s.run trig_time c) := by
  obtain ⟨h, m, hframe⟩ := @run_frame _ _ _ _ trig_time s c
  rw [hframe]
  exact ⟨sameFlight_maybeLanded.armed, sameFlight_maybeLanded.vehicle_local_position,
    sameFlight_maybeLanded.has_low_throttle, sameFlight_maybeLanded.horizontal_movement,
    sameFlight_maybeLanded.vertical_movement⟩

theorem observe_stages :
    (s.observe trig_time c).2.landed = (s.run trig_time c).stages.landed.state ∧
      (s.observe trig_time c).2.maybe_landed = (s.run trig_time c).stages.maybe_landed.state ∧
      (s.observe trig_time c).2.ground_contact =
        (s.run trig_time c).stages.ground_contact.state := by
  obtain ⟨m, hm⟩ := @Detector.publish_frame _ _ _
    ((s.staged trig_time c).callGroundEffect c.now_us) c.publish_now c.elapsed_now
  have hstages : (s.run trig_time c).stages =
      ((s.staged trig_time c).callGroundEffect c.now_us).stages := by
    rw [Detector.run, hm]
  rw [hstages]
  exact Detector.publish_land_detected _

theorem landed_input : (s.stageInput trig_time c).landed =
    (!(s.observe trig_time c).2.armed ||
      (s.stages.call (s.stageInput trig_time c)).maybe_landed.state) := by
  have harmed : (s.observe trig_time c).2.armed = (s.maybeLanded trig_time c).armed :=
    sameFlight_run.armed.trans sameFlight_maybeLanded.armed.symm
  rw [harmed, ← Detector.staged_stages]
  rfl

theorem waits : s.stages.Waits (s.stageInput trig_time c) := by
  have hinput := @landed_input _ _ _ _ trig_time s c
  cases harmed : (s.observe trig_time c).2.armed with
  | false =>
    rw [harmed] at hinput
    have hcontacted : (s.contacted trig_time c).armed = false :=
      sameFlight_run.armed.symm.trans harmed
    refine .inr ⟨?_, hinput⟩
    change ((s.contacted trig_time c).maybeLandedState _ _).2 = true
    rw [Detector.maybeLandedState, if_pos (by rw [hcontacted]; rfl)]
  | true =>
    rw [harmed] at hinput
    exact .inl hinput

theorem quiet_of_contact (harmed : (s.observe trig_time c).2.armed = true)
    (hcontact : (s.stageInput trig_time c).ground_contact = true) :
    Quiet (s.observe trig_time c).2 := by
  have hprepared : (s.prepared trig_time c).armed = true := sameFlight_run.armed.symm.trans harmed
  obtain ⟨hthrottle, hhorizontal, hvertical⟩ :=
    Detector.groundContactState_true hcontact hprepared
  exact ⟨sameFlight_run.has_low_throttle.trans hthrottle,
    sameFlight_run.horizontal_movement.trans hhorizontal,
    sameFlight_run.vertical_movement.trans hvertical⟩

theorem contact_of_maybe (harmed : (s.observe trig_time c).2.armed = true)
    (hestimate : (s.observe trig_time c).2.estimate = true)
    (hmaybe : (s.stageInput trig_time c).maybe_landed = true) :
    (s.stages.call (s.stageInput trig_time c)).ground_contact.state = true := by
  have hcontacted : (s.contacted trig_time c).armed = true := sameFlight_run.armed.symm.trans harmed
  obtain ⟨hlpos, hvalid⟩ := Bool.and_eq_true_iff.mp hestimate
  have hposition : (s.run trig_time c).vehicle_local_position =
      (s.contacted trig_time c).vehicle_local_position := sameFlight_run.vehicle_local_position
  unfold Detector.lposAvailable at hlpos
  rw [hposition] at hlpos hvalid
  have hstate := Detector.maybeLandedState_true hmaybe hcontacted hlpos hvalid
  obtain ⟨t, hframe⟩ := @Detector.callMaybeLanded_frame _ _ _ _ (s.contacted trig_time c) c
  have hsame : (s.staged trig_time c).stages.ground_contact =
      (s.contacted trig_time c).stages.ground_contact := by
    change ((s.contacted trig_time c).callMaybeLanded c).stages.ground_contact = _
    rw [hframe]
  rw [← Detector.staged_stages, hsame]
  exact hstate

theorem feeds (htrig : 0 < trig_time) (harmed : (s.observe trig_time c).2.armed = true)
    (hestimate : (s.observe trig_time c).2.estimate = true) :
    s.stages.Feeds (delay trig_time 1).toNat Quiet Observed.now_us (s.stageInput trig_time c)
      (s.observe trig_time c).2 where
  time := rfl
  quiet := quiet_of_contact harmed
  maybe := contact_of_maybe harmed hestimate
  landed := by rw [landed_input, harmed]; rfl
  delay := delay_one_le htrig (s.readTopics c)

/-! ### Whole runs -/

variable {os : List Observed} {before : UInt64}

/-- What the cycles shown so far say about the stages. -/
structure Seen (trig_time : ℚ) (os : List Observed) (s : Detector K) (now : UInt64) : Prop where
  quick : s.stages.Quick now
  ordered : s.stages.Ordered
  chained : 0 < (delay trig_time 1).toNat → ∀ pre c since, os = pre ++ c :: since →
    c.contact = false → (∀ x ∈ since, x.armed = true ∧ x.estimate = true) →
      Stages.Chained (delay trig_time 1).toNat Quiet Observed.now_us since s.stages now

omit [Field K] [LinearOrder K] [Elementary K] in
theorem seen_nil {now : UInt64} (h : s.stages.Quick now) (h' : s.stages.Ordered) :
    Seen trig_time [] s now :=
  ⟨h, h', fun _ pre c since hos => absurd hos.symm (by simp)⟩

theorem Seen.observe (h : Seen trig_time os s before) (htrig : 0 < trig_time)
    (hle : before ≤ c.now_us) :
    Seen trig_time (os ++ [(s.observe trig_time c).2]) (s.run trig_time c) c.now_us := by
  have hquick := @Stages.Quick.call _ (s.stageInput trig_time c) _ h.quick hle
  refine ⟨?_, ?_, fun hd pre x since hos hcontact hsince => ?_⟩
  · rw [run_stages]
    exact hquick
  · rw [run_stages]
    exact h.ordered.call h.quick hle waits
  · rw [run_stages]
    cases since using List.reverseRecOn with
    | nil =>
      obtain ⟨-, hx⟩ := List.append_inj' hos rfl
      obtain rfl : (s.observe trig_time c).2 = x := List.head_eq_of_cons_eq hx
      exact Stages.chained_of_not_requested hquick
        (@Hysteresis.Quick.drive_false _ c.now_us _ (s.stageInput trig_time c).delay _
          h.quick.ground_contact hcontact).2
    | append_singleton since y _ =>
      have hsplit : os ++ [(s.observe trig_time c).2] = (pre ++ x :: since) ++ [y] := by
        rw [hos, List.append_assoc, List.cons_append]
      obtain ⟨hos', hy⟩ := List.append_inj' hsplit rfl
      obtain rfl : (s.observe trig_time c).2 = y := List.head_eq_of_cons_eq hy
      obtain ⟨hbefore, hlast⟩ := List.forall_mem_append.mp hsince
      obtain ⟨harmed, hestimate⟩ := hlast _ (List.mem_singleton_self _)
      exact (h.chained hd pre x since hos' hcontact hbefore).call hd h.quick hle
        (feeds htrig harmed hestimate)

theorem quiet_of_grounded (hq : s.stages.Quick before)
    (harmed : (s.observe trig_time c).2.armed = true)
    (hstate : (s.run trig_time c).stages.ground_contact.state = true) :
    Quiet (s.observe trig_time c).2 := by
  refine quiet_of_contact harmed ?_
  by_contra hinput
  rw [run_stages] at hstate
  have hfalse := (@Hysteresis.Quick.drive_false _ c.now_us _ (s.stageInput trig_time c).delay _
    hq.ground_contact (Bool.not_eq_true _ ▸ hinput)).1
  exact absurd (hfalse.symm.trans hstate) Bool.false_ne_true

omit [Field K] [LinearOrder K] [Elementary K] in
theorem Seen.span {pre since : List Observed} {x o : Observed} (h : Seen trig_time os s o.now_us)
    (htrig : 0 < trig_time) (hos : os = pre ++ x :: (since ++ [o])) (hfailed : x.contact = false)
    (hsince : ∀ x ∈ since ++ [o], x.armed = true ∧ x.estimate = true)
    (hground : s.stages.ground_contact.state = true) (hstate : s.stages.landed.state = true)
    (hquiet : Quiet o) :
    ∃ first, EndsInBlock Quiet (since ++ [o]) first o ∧
      trig_time * 1000000 * (1 - 1 / 2 ^ 22) < (o.now_us.toNat - first.now_us.toNat : ℕ) + 3 := by
  rcases (delay trig_time 1).toNat.eq_zero_or_pos with hd | hd
  · -- the delays are rounded to nothing
    have htime := trigger_lt htrig (by rw [hd]; decide)
    rw [hd] at htime
    refine ⟨o, endsInBlock_single hquiet since, htime.trans_le ?_⟩
    rw [Nat.sub_self]
    simp
  · have hchain := h.chained hd pre x (since ++ [o]) hos hfailed hsince
    obtain ⟨first, last, hblock, hspan⟩ := hchain.span h.quick hground hstate
    obtain rfl := hblock.last_eq
    have hlt := UInt64.toNat_lt last.now_us
    have htime := trigger_lt htrig (by omega)
    refine ⟨first, hblock, htime.trans_le ?_⟩
    have hcast : ((3 * (delay trig_time 1).toNat : ℕ) : ℚ) ≤
        (last.now_us.toNat - first.now_us.toNat : ℕ) := Nat.cast_le.mpr hspan
    rw [Nat.cast_mul] at hcast
    exact add_le_add_left hcast 3

theorem Seen.law (h : Seen trig_time os s before) (htrig : 0 < trig_time)
    (hle : before ≤ c.now_us) (hlaw : LandingLaw trig_time os) :
    LandingLaw trig_time (os ++ [(s.observe trig_time c).2]) := by
  have hseen := h.observe htrig hle
  obtain ⟨hlanded, hmaybe, hcontact⟩ := @observe_stages _ _ _ _ trig_time s c
  have hfirst : (s.observe trig_time c).2.landed = true →
      (s.observe trig_time c).2.maybe_landed = true := by
    rw [hlanded, hmaybe]
    exact hseen.ordered.state
  have hsecond : (s.observe trig_time c).2.armed = true →
      (s.observe trig_time c).2.estimate = true →
        (s.observe trig_time c).2.maybe_landed = true →
          (s.observe trig_time c).2.ground_contact = true := by
    intro harmed hestimate hstate
    rw [hmaybe, run_stages] at hstate
    rw [hcontact, run_stages]
    refine contact_of_maybe harmed hestimate ?_
    by_contra hinput
    have hfalse := (@Hysteresis.Quick.drive_false _ c.now_us _ (s.stageInput trig_time c).delay _
      h.quick.maybe_landed (Bool.not_eq_true _ ▸ hinput)).1
    exact absurd (hfalse.symm.trans hstate) Bool.false_ne_true
  refine ⟨fun o ho => ?_, fun o ho => ?_, fun pre x since o after hos hfailed hsince hstate => ?_⟩
  · rcases List.mem_append.mp ho with ho | ho
    · exact hlaw.landed o ho
    · rw [List.mem_singleton.mp ho]
      exact hfirst
  · rcases List.mem_append.mp ho with ho | ho
    · exact hlaw.maybe_landed o ho
    · rw [List.mem_singleton.mp ho]
      exact hsecond
  · cases after using List.reverseRecOn with
    | nil =>
      have hsplit : os ++ [(s.observe trig_time c).2] = (pre ++ x :: since) ++ [o] := by
        rw [hos, List.append_assoc, List.cons_append]
      obtain ⟨-, ho⟩ := List.append_inj' hsplit rfl
      obtain rfl : (s.observe trig_time c).2 = o := List.head_eq_of_cons_eq ho
      obtain ⟨harmed, hestimate⟩ :=
        hsince _ (List.mem_append_right since (List.mem_singleton_self _))
      have hground := hsecond harmed hestimate (hfirst hstate)
      rw [hcontact] at hground
      exact hseen.span htrig hos hfailed hsince hground (hlanded.symm.trans hstate)
        (quiet_of_grounded h.quick harmed hground)
    | append_singleton after y _ =>
      have hsplit : os ++ [(s.observe trig_time c).2] =
          (pre ++ x :: (since ++ o :: after)) ++ [y] := by
        rw [hos, List.append_assoc, List.cons_append, List.append_assoc, List.cons_append]
      obtain ⟨hos', -⟩ := List.append_inj' hsplit rfl
      exact hlaw.span pre x since o after hos' hfailed hsince hstate

theorem law_nil : LandingLaw trig_time [] :=
  ⟨by simp, by simp, fun pre c since o after hos => absurd hos.symm (by simp)⟩

theorem law_feed (htrig : 0 < trig_time) : ∀ {cs : List (Cycle K)} {os : List Observed}
    {s : Detector K} {before : UInt64}, (∀ c ∈ cs, before ≤ c.now_us) →
    cs.Pairwise (·.now_us ≤ ·.now_us) → Seen trig_time os s before → LandingLaw trig_time os →
      LandingLaw trig_time (os ++ (Mealy.feed (Detector.observe trig_time) s cs).2) := by
  intro cs
  induction cs with
  | nil =>
    intro os s before _ _ _ hlaw
    rw [Mealy.feed_nil, List.append_nil]
    exact hlaw
  | cons c cs ih =>
    intro os s before hbefore hclock hseen hlaw
    obtain ⟨hle, -⟩ := List.forall_mem_cons.mp hbefore
    obtain ⟨hnext, hclock'⟩ := List.pairwise_cons.mp hclock
    rw [Mealy.feed_cons, List.append_cons]
    exact ih hnext hclock' (hseen.observe htrig hle) (hseen.law htrig hle hlaw)

/-- In every run whose clock does not run backwards: landed implies maybe landed, and, where the
vehicle is armed and its vertical velocity is known, maybe landed implies ground contact; and since
the conditions for ground contact last failed, such a vehicle has been quiet for the trigger
time. -/
theorem landing_law (htrig : 0 < trig_time) {cs : List (Cycle K)}
    (hclock : cs.Pairwise (·.now_us ≤ ·.now_us)) : LandingLaw trig_time (shown trig_time cs) := by
  have hinit : (Hysteresis.init true).Quick 0 := ⟨rfl, fun _ => rfl, fun _ => UInt64.le_refl 0⟩
  have hordered : (Detector.init K).stages.Ordered := ⟨fun _ => rfl, fun _ => ⟨rfl, .inl rfl⟩⟩
  exact law_feed htrig (fun c _ => UInt64.zero_le) hclock
    (seen_nil ⟨hinit, hinit, hinit⟩ hordered) law_nil

end Run

/-! ### A vehicle that is switched off in the air -/

/-- The square roots of squares, and `M_PI_F`; the detector uses nothing else. -/
abbrev elementaryRat : Elementary ℚ where
  sqrt x := (x.num.natAbs.sqrt : ℚ) / x.den.sqrt
  sin _ := 0
  cos _ := 1
  acos _ := 0
  pi := 13176795 / 4194304

def cycleAt (t : UInt64) (armed : Bool) (throttle vz : ℚ) : Cycle ℚ where
  parameter_update := false
  parameters :=
    ⟨num 0.12, num 0.08, num 0.7, 1, num 0.5, num (-1), num 20, num 1.5, num 0.5, num (-1)⟩
  actuator_armed := some armed
  vehicle_acceleration := some ![num 0, num 0, num (-9.8)]
  vehicle_local_position := some ⟨t, num 0, num 0, num vz, true, true, num 0, false, 0⟩
  actuator_controls := some (num throttle)
  vehicle_control_mode := none
  hover_thrust_estimate := none
  takeoff_status := none
  trajectory_setpoint := none
  vehicle_angular_velocity := ![num 0, num 0]
  now_us := t
  contact_now := t
  maybe_now := t
  landed_now := t
  elapsed_now := t
  publish_now := t

/-- It comes down, and does not move for three seconds. -/
def descent : List (Cycle ℚ) :=
  cycleAt 1000000 true 0.8 5 :: [2000000, 3000000, 4000000, 5000000].map fun t => cycleAt t true 0 0

theorem landing_law_descent : LandingLaw 3 (@shown ℚ _ _ elementaryRat 3 descent) ∧
    (@shown ℚ _ _ elementaryRat 3 descent).map (fun o => (o.contact, o.landed)) =
      [(false, false), (true, false), (true, false), (true, false), (true, true)] :=
  ⟨@landing_law ℚ _ _ elementaryRat 3 (by norm_num) descent (by decide), by decide +kernel⟩

/-- It falls while it is not armed, and is armed again after a second. -/
def fall : List (Cycle ℚ) :=
  [cycleAt 1000000 true 0.8 5, cycleAt 2000000 false 0 5, cycleAt 3000000 true 0 0]

/-- The vehicle is armed in the only cycle since there last was no ground contact. -/
theorem landed_at_once :
    ∃ flying off on, @shown ℚ _ _ elementaryRat 3 fall = [flying, off, on] ∧
      off.ground_contact = false ∧ off.landed = false ∧ on.armed = true ∧ on.estimate = true ∧
      on.landed = true ∧
      ¬ ∃ first, EndsInBlock Quiet [flying, off, on] first on ∧
        3 * 1000000 * (1 - 1 / 2 ^ 22 : ℚ) < (on.now_us.toNat - first.now_us.toNat : ℕ) + 3 := by
  refine ⟨⟨1000000, true, true, false, false, false, true, false, false, false⟩,
    ⟨2000000, false, true, true, true, false, true, false, false, false⟩,
    ⟨3000000, true, true, true, true, false, false, true, true, true⟩, by decide +kernel, rfl, rfl,
    rfl, rfl, rfl, ?_⟩
  rintro ⟨first, ⟨pre, post, hsplit, hquiet, -⟩, htime⟩
  have hfirst := hquiet first List.mem_cons_self
  rcases pre with _ | ⟨_, _ | ⟨_, _ | ⟨_, pre⟩⟩⟩
  · rw [← List.head_eq_of_cons_eq hsplit] at hfirst
    exact nomatch hfirst.vertical_movement
  · rw [← List.head_eq_of_cons_eq (List.tail_eq_of_cons_eq hsplit)] at hfirst
    exact nomatch hfirst.vertical_movement
  · have heq := List.tail_eq_of_cons_eq (List.tail_eq_of_cons_eq hsplit)
    rw [← List.head_eq_of_cons_eq heq, Nat.sub_self] at htime
    norm_num at htime
  · have hlength := congrArg List.length hsplit
    simp at hlength

end LandDetector
