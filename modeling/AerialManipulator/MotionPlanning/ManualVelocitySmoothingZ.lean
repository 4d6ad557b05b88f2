/-
`ManualVelocitySmoothingZ`: the vertical setpoints of the altitude mode.

A cycle of the flight task follows the trajectory for the time that has passed, takes the limits of
the direction that is asked for, locks or unlocks the position and plans a new trajectory.

* `updateSetpoints_spec` — what a cycle does to a trajectory within the limits;
* **`limits_kept`** — the setpoints keep the limits in every run;
* **`settles`** — when the stick stays where it is, the velocity is reached in the time of one plan.
-/
import AerialManipulator.Lib.Trace
import AerialManipulator.MotionPlanning.Replanning

open WithNaN VelocitySmoothing

structure ManualVelocitySmoothingZ (K : Type*) where
  trajectory : VelocitySmoothing K
  position_lock_active : Bool
  position_setpoint_locked : Flt K
  velocity_setpoint_feedback : Flt K
  position_estimate : Flt K
  state : Trajectory K
  max_accel_up : Flt K
  max_accel_down : Flt K
  max_vel_up : Flt K
  max_vel_down : Flt K

namespace ManualVelocitySmoothingZ

section Definitions

variable {K : Type*} [Field K] [LinearOrder K]

def init : ManualVelocitySmoothingZ K :=
  ⟨.init 0 0 0, false, 0, 0, 0, ⟨0, 0, 0, 0⟩, 0, 0, 0, 0⟩

def resetPositionLock (s : ManualVelocitySmoothingZ K) : ManualVelocitySmoothingZ K :=
  { s with position_lock_active := false, position_setpoint_locked := nan }

def reset (accel vel pos : Flt K) (s : ManualVelocitySmoothingZ K) : ManualVelocitySmoothingZ K :=
  { s with trajectory := s.trajectory.reset accel vel pos }.resetPositionLock

def updateTrajectories (dt : Flt K) (s : ManualVelocitySmoothingZ K) : ManualVelocitySmoothingZ K :=
  { s with
    trajectory := s.trajectory.updateTraj dt 1
    state := (s.trajectory.updateTraj dt 1).state }

def updateTrajConstraints (velocity_target : Flt K) (s : ManualVelocitySmoothingZ K) :
    ManualVelocitySmoothingZ K :=
  { s with
    trajectory :=
      if velocity_target < 0 then
        { s.trajectory with max_accel := s.max_accel_up, max_vel := s.max_vel_up }
      else { s.trajectory with max_accel := s.max_accel_down, max_vel := s.max_vel_down } }

def checkPositionLock (velocity_target : Flt K) (s : ManualVelocitySmoothingZ K) :
    ManualVelocitySmoothingZ K :=
  if fabsf s.state.v < 0.1 ∧ fabsf s.state.a < 0.2 ∧
      fabsf velocity_target ≤ num (FLT_EPSILON K) then
    { s with position_lock_active := true, position_setpoint_locked := s.state.x }
  else
    -- the feed-forward continues with the input of the velocity controller
    let s := if s.position_lock_active then
        { s with
          trajectory := s.trajectory.setCurrentVelocity s.velocity_setpoint_feedback
          state := { s.state with v := s.velocity_setpoint_feedback } }.resetPositionLock
      else s
    { s with trajectory := s.trajectory.setCurrentPosition s.position_estimate }

def update [Elementary K] (sign : Flt K → ℤ) (dt velocity_target : Flt K)
    (s : ManualVelocitySmoothingZ K) : ManualVelocitySmoothingZ K :=
  let s := ((s.updateTrajectories dt).updateTrajConstraints velocity_target).checkPositionLock
    velocity_target
  { s with trajectory := s.trajectory.updateDurations sign velocity_target }

def setCurrentPosition (pos : Flt K) (s : ManualVelocitySmoothingZ K) :
    ManualVelocitySmoothingZ K :=
  { s with
    state := { s.state with x := pos }
    trajectory := s.trajectory.setCurrentPosition pos
    position_estimate := pos
    position_setpoint_locked := if s.position_lock_active then pos else s.position_setpoint_locked }

end Definitions

end ManualVelocitySmoothingZ

namespace FlightTaskManualAltitudeSmoothVel

section Definitions

variable {K : Type*} [Field K] [LinearOrder K]

/-- A new task, with the setpoints of the last one, as far as there are any. -/
def activate (z vz az position velocity : Flt K) : ManualVelocitySmoothingZ K :=
  ManualVelocitySmoothingZ.init.reset (if az.isFinite then az else 0)
    (if vz.isFinite then vz else velocity) (if z.isFinite then z else position)

/-- The inputs of a cycle: parameters, constraints, and the vertical components of the rest. -/
structure Inputs (K : Type*) where
  mpc_jerk_max : Flt K
  mpc_acc_up_max : Flt K
  mpc_acc_down_max : Flt K
  speed_up : Flt K
  speed_down : Flt K
  velocity_setpoint_feedback : Flt K
  position : Flt K
  deltatime : Flt K
  velocity_setpoint : Flt K

/-- `_updateTrajConstraints`, the feedback and the cycle of the smoothing. -/
def updateSetpoints [Elementary K] (sign : Flt K → ℤ) (s : ManualVelocitySmoothingZ K)
    (i : Inputs K) : ManualVelocitySmoothingZ K :=
  { s with
    trajectory := { s.trajectory with max_jerk := i.mpc_jerk_max }
    max_accel_up := i.mpc_acc_up_max
    max_vel_up := i.speed_up
    max_accel_down := i.mpc_acc_down_max
    max_vel_down := i.speed_down
    velocity_setpoint_feedback := i.velocity_setpoint_feedback
    position_estimate := i.position }.update sign i.deltatime i.velocity_setpoint

inductive Event (K : Type*)
  | updateSetpoints (i : Inputs K)
  | ekfResetHandlerPositionZ (position : Flt K)

def step [Elementary K] (sign : Flt K → ℤ) (s : ManualVelocitySmoothingZ K) :
    Event K → ManualVelocitySmoothingZ K
  | .updateSetpoints i => updateSetpoints sign s i
  | .ekfResetHandlerPositionZ position => s.setCurrentPosition position

end Definitions

/-! ### A cycle -/

variable {sign : Flt ℝ → ℤ} {s : ManualVelocitySmoothingZ ℝ} {i : Inputs ℝ} {b : Bool}
  {J A B V W t r : ℝ}

/-- The trajectory is a plan within the limits, or what `activate` leaves. -/
inductive Course (J A V : ℝ) (c : VelocitySmoothing ℝ) : Prop
  | plan (p : JerkProfile ℝ) (d : ℤ) (a v x : ℝ) (runs : Runs c p d J A a v x)
      (inside : Inside J V a v) (ends : |v + d * p.finalGain| ≤ V)
  | start (a v x : ℝ) (starts : c = VelocitySmoothing.reset (num a) (num v) (num x) (.init 0 0 0))
      (accel : |a| ≤ A) (inside : Inside J V a v)

/-- Inputs that are numbers, with limits in the direction that is asked for; the feedback matters to
unlock the position. -/
structure Admissible (J A V : ℝ) (locked : Bool) (i : Inputs ℝ) (t r B W : ℝ) : Prop where
  jerk : i.mpc_jerk_max = num J
  time : i.deltatime = num t
  time_nonneg : 0 ≤ t
  target : i.velocity_setpoint = num r
  accel : (if r < 0 then i.mpc_acc_up_max else i.mpc_acc_down_max) = num B
  accel_mem : 0 < B ∧ B ≤ A
  speed : (if r < 0 then i.speed_up else i.speed_down) = num W
  speed_mem : 0 < W ∧ W ≤ V
  position : i.position.isFinite = true
  feedback : locked = true → ∃ v, i.velocity_setpoint_feedback = num v ∧ |v| + A ^ 2 / (2 * J) ≤ V

theorem updateTraj_start {a v x : ℝ} (hJ : 0 < J) (ht : 0 ≤ t) (accel : |a| ≤ A)
    (inside : Inside J V a v) :
    ∃ j a' v' x', ({ VelocitySmoothing.reset (num a) (num v) (num x) (.init 0 0 0) with
        max_jerk := num J }.updateTraj (num t) 1).state = ⟨num j, num a', num v', num x'⟩ ∧
      |j| ≤ J ∧ |a'| ≤ A ∧ Inside J V a' v' := by
  obtain ⟨x₁, h1⟩ := evaluatePoly_num J a v x 0 0
  obtain ⟨j₂, x₂, h2, hj₂⟩ := nextPhase_num ht le_rfl 0 ((0 : ℤ) * J) (a + (0 : ℤ) * J * 0)
    (v + a * 0 + (0 : ℤ) * J * 0 ^ 2 / 2) x₁ 0
  rw [min_eq_right ht, sub_zero] at h2
  obtain ⟨j₃, x₃, h3, hj₃⟩ := nextPhase_num ht le_rfl J j₂
    (a + (0 : ℤ) * J * 0 + (0 : ℤ) * 0 * 0) (v + a * 0 + (0 : ℤ) * J * 0 ^ 2 / 2 +
      (a + (0 : ℤ) * J * 0) * 0 + (0 : ℤ) * 0 * 0 ^ 2 / 2) x₂ 0
  rw [min_eq_right ht, sub_zero] at h3
  have hj₃' : j₃ = 0 := by
    rcases hj₃ with rfl | rfl
    · rcases hj₂ with rfl | rfl <;> norm_num
    · norm_num
  have htime : (0 : Flt ℝ) + num t * 1 = num t := by rw [one_def, num_mul, mul_one, zero_add]
  have hlowered : nextPhase (num J) 0 (-0) (nextPhase 0 0 0
      (evaluatePoly (num J) (num a) (num v) (num x) (math.min (num t) 0) 0,
        num t - math.min (num t) 0)) = (⟨0, num a, num v, num x₃⟩, num t) := by
    rw [zero_def, math.min_num, min_eq_right ht, num_sub, sub_zero, h1, h2, neg_zero, h3, hj₃']
    simp
  rw [updateTraj, trajAt]
  dsimp only [VelocitySmoothing.reset, VelocitySmoothing.init]
  simp only [htime, hlowered]
  split_ifs with hlt
  · obtain ⟨x₄, h4⟩ := evaluatePoly_num 0 0 v x₃ t 0
    refine ⟨0, 0, v, x₄, ?_, ?_, ?_, ?_⟩
    · rw [zero_def, h4]
      simp
    · rw [abs_zero]
      exact hJ.le
    · rw [abs_zero]
      exact (abs_nonneg a).trans accel
    · have hv := inside.abs_le hJ
      rw [Inside]
      simpa using hv
  · exact ⟨0, a, v, x₃, rfl, by rw [abs_zero]; exact hJ.le, accel, inside⟩

theorem Course.next {c : VelocitySmoothing ℝ} (h : Course J A V c) (hJ : 0 < J) (ht : 0 ≤ t) :
    ∃ j a v x, ({ c with max_jerk := num J }.updateTraj (num t) 1).state =
      ⟨num j, num a, num v, num x⟩ ∧ |j| ≤ J ∧ |a| ≤ A ∧ Inside J V a v := by
  cases h with
  | plan p d a v x runs inside ends =>
    obtain ⟨j, x, hstate, hj⟩ := runs.state t
    rw [runs.with_max_jerk]
    exact ⟨j, _, _, x, hstate, hj, runs.abs_acc_le ht, runs.inside inside ends ht⟩
  | start a v x starts accel inside => exact starts ▸ updateTraj_start hJ ht accel inside

theorem Course.setCurrentPosition {c : VelocitySmoothing ℝ} (h : Course J A V c) (x : ℝ) :
    Course J A V (c.setCurrentPosition (num x)) := by
  cases h with
  | plan p d a v _ runs inside ends =>
    have hf := runs.follows
    exact .plan p d a v x { runs with follows := ⟨hf.max_jerk, hf.direction, hf.state_init_a,
      hf.state_init_v, rfl, hf.T1, hf.T2, hf.T3⟩ } inside ends
  | start a v _ starts accel inside => exact .start a v x (starts ▸ rfl) accel inside

theorem updateTrajConstraints_spec (s : ManualVelocitySmoothingZ ℝ)
    (haccel : (if r < 0 then s.max_accel_up else s.max_accel_down) = num B)
    (hspeed : (if r < 0 then s.max_vel_up else s.max_vel_down) = num W) :
    s.updateTrajConstraints (num r) =
      { s with trajectory := { s.trajectory with max_accel := num B, max_vel := num W } } := by
  have hneg : (num r : Flt ℝ) < 0 ↔ r < 0 := Iff.rfl
  rw [ManualVelocitySmoothingZ.updateTrajConstraints]
  by_cases hr : r < 0
  · rw [if_pos hr] at haccel hspeed
    rw [if_pos (hneg.mpr hr), haccel, hspeed]
  · rw [if_neg hr] at haccel hspeed
    rw [if_neg (mt hneg.mp hr), haccel, hspeed]

/-- Unlocking the position changes the velocity, the rest keeps the one that was reached. -/
theorem checkPositionLock_spec (s : ManualVelocitySmoothingZ ℝ) {j a v x e : ℝ} (r : ℝ)
    (hstate : s.state = ⟨num j, num a, num v, num x⟩)
    (htraj : s.trajectory.state = s.state) (hpos : s.position_estimate = num e)
    (hfeedback : s.position_lock_active = true →
      ∃ v, s.velocity_setpoint_feedback = num v ∧ |v| + A ^ 2 / (2 * J) ≤ V) :
    ∃ v' x' init locked position,
      s.checkPositionLock (num r) =
        { s with
          trajectory := { s.trajectory with
            state := ⟨num j, num a, num v', num x'⟩, state_init := init }
          state := ⟨num j, num a, num v', num x⟩
          position_lock_active := locked
          position_setpoint_locked := position } ∧
      (v' = v ∨ s.position_lock_active = true ∧ |v'| + A ^ 2 / (2 * J) ≤ V) ∧
      (locked = true → |v'| < 0.1 ∧ |a| < 0.2 ∧ |r| ≤ FLT_EPSILON ℝ) := by
  rw [ManualVelocitySmoothingZ.checkPositionLock]
  split_ifs with hlock hactive
  · have hlock' : fabsf (num v) < 0.1 ∧ fabsf (num a) < 0.2 ∧
        fabsf (num r) ≤ num (FLT_EPSILON ℝ) := by simpa only [hstate] using hlock
    refine ⟨v, x, s.trajectory.state_init, true, s.state.x, ?_, .inl rfl, fun _ => hlock'⟩
    rw [← hstate, ← htraj]
  · obtain ⟨v', hv', hle⟩ := hfeedback hactive
    refine ⟨v', e, { s.trajectory.state_init with v := num v', x := num e }, false, nan, ?_,
      .inr ⟨hactive, hle⟩, fun h => nomatch h⟩
    rw [hv', ManualVelocitySmoothingZ.resetPositionLock]
    simp only [setCurrentPosition, setCurrentVelocity, htraj, hstate, hpos]
  · refine ⟨v, e, { s.trajectory.state_init with x := num e }, s.position_lock_active,
      s.position_setpoint_locked, ?_, .inl rfl, fun h => absurd h hactive⟩
    simp only [setCurrentPosition, htraj, hstate, hpos]

/-- A cycle plans from the state that has been reached, or from the feedback when it unlocks. -/
def Cycled (J A V B W r : ℝ) (locked : Bool) (j a v x : ℝ) (s : ManualVelocitySmoothingZ ℝ) :
    Prop :=
  ∃ v' x' p d, s.state = ⟨num j, num a, num v', num x⟩ ∧
    (v' = v ∨ locked = true ∧ |v'| + A ^ 2 / (2 * J) ≤ V) ∧
    Replans s.trajectory J A B a v' x' (limitedVelSp W r) p d ∧
    (s.position_lock_active = true → |v'| < 0.1 ∧ |a| < 0.2 ∧ |r| ≤ FLT_EPSILON ℝ)

theorem update_spec (hs : IsSign sign) (hJ : 0 < J) (hB : 0 < B) (hBA : B ≤ A) (hW : 0 < W)
    {j a v x e : ℝ} (s : ManualVelocitySmoothingZ ℝ) (hjerk : s.trajectory.max_jerk = num J)
    (hnext : (s.trajectory.updateTraj (num t) 1).state = ⟨num j, num a, num v, num x⟩)
    (ha : |a| ≤ A) (haccel : (if r < 0 then s.max_accel_up else s.max_accel_down) = num B)
    (hspeed : (if r < 0 then s.max_vel_up else s.max_vel_down) = num W)
    (hpos : s.position_estimate = num e) (hlock : s.position_lock_active = b)
    (hfeedback : b = true → ∃ v, s.velocity_setpoint_feedback = num v ∧ |v| + A ^ 2 / (2 * J) ≤ V) :
    Cycled J A V B W r b j a v x (s.update sign (num t) (num r)) := by
  subst hlock
  have hlimits := updateTrajConstraints_spec (s.updateTrajectories (num t)) haccel hspeed
  obtain ⟨v', x', init, locked, position, heq, hv', hlocked⟩ := checkPositionLock_spec
    { s.updateTrajectories (num t) with
      trajectory :=
        { s.trajectory.updateTraj (num t) 1 with max_accel := num B, max_vel := num W } }
    r hnext rfl hpos hfeedback
  rw [ManualVelocitySmoothingZ.update, hlimits]
  simp only [ManualVelocitySmoothingZ.updateTrajectories] at heq ⊢
  simp only [heq]
  refine ⟨v', x', ?_⟩
  obtain ⟨p, d, hplan⟩ := exists_replans hs
    { s.trajectory.updateTraj (num t) 1 with
      max_accel := num B
      max_vel := num W
      state := ⟨num j, num a, num v', num x'⟩
      state_init := init }
    ⟨hjerk, rfl, rfl, hJ, hB.trans_le hBA, hW, rfl, rfl, rfl, ha⟩ rfl hB hBA r
  exact ⟨p, d, rfl, hv', hplan, hlocked⟩

theorem updateSetpoints_spec (hs : IsSign sign) (hJ : 0 < J)
    (hi : Admissible J A V s.position_lock_active i t r B W) {j a v x : ℝ}
    (hnext : ({ s.trajectory with max_jerk := num J }.updateTraj (num t) 1).state =
      ⟨num j, num a, num v, num x⟩) (ha : |a| ≤ A) :
    Cycled J A V B W r s.position_lock_active j a v x (updateSetpoints sign s i) := by
  obtain ⟨e, he⟩ := isFinite_iff.mp hi.position
  rw [updateSetpoints, hi.jerk, hi.time, hi.target]
  exact update_spec hs hJ hi.accel_mem.1 hi.accel_mem.2 hi.speed_mem.1 _ rfl hnext ha hi.accel
    hi.speed he rfl hi.feedback

/-! ### Runs -/

/-- What a run may be given. -/
def Allowed (J A V : ℝ) (s : ManualVelocitySmoothingZ ℝ) : Event ℝ → Prop
  | .updateSetpoints i => ∃ t r B W, Admissible J A V s.position_lock_active i t r B W
  | .ekfResetHandlerPositionZ position => position.isFinite = true

/-- The setpoints that a cycle gives. -/
def Limited (J A V : ℝ) (s : ManualVelocitySmoothingZ ℝ) : Event ℝ → Prop
  | .updateSetpoints _ => ∃ j a v, s.state.j = num j ∧ s.state.a = num a ∧ s.state.v = num v ∧
      |j| ≤ J ∧ |a| ≤ A ∧ |v| ≤ V ∧ (s.position_lock_active = true → |v| < 0.1 ∧ |a| < 0.2)
  | .ekfResetHandlerPositionZ _ => True

theorem abs_limitedVelSp_le (hW : 0 < W) (hWV : W ≤ V) (r : ℝ) : |limitedVelSp W r| ≤ V := by
  refine (abs_le.mpr ⟨le_max_left _ _, ?_⟩).trans hWV
  exact max_le (by linarith) (min_le_right _ _)

theorem Cycled.course {locked : Bool} {j a v x : ℝ} (h : Cycled J A V B W r locked j a v x s)
    (hJ : 0 < J) (hW : 0 < W) (hWV : W ≤ V) (ha : |a| ≤ A) (hin : Inside J V a v) :
    Course J A V s.trajectory ∧ ∃ v', s.state = ⟨num j, num a, num v', num x⟩ ∧ |v'| ≤ V ∧
      (s.position_lock_active = true → |v'| < 0.1 ∧ |a| < 0.2) := by
  obtain ⟨v', x', p, d, hstate, hv', hplan, hlock⟩ := h
  have hin' : Inside J V a v' := by
    rcases hv' with rfl | ⟨-, hle⟩
    · exact hin
    · exact inside_of_reserve hJ ha hle
  refine ⟨.plan p d a v' x' hplan.plans.toRuns hin' ?_, v', hstate, hin'.abs_le hJ, fun hl => ?_⟩
  · rw [hplan.plans.ends]
    exact abs_limitedVelSp_le hW hWV r
  · exact ⟨(hlock hl).1, (hlock hl).2.1⟩

theorem course_activate {a₀ v₀ x₀ : ℝ} (ha : |a₀| ≤ A) (hv : |v₀| + a₀ ^ 2 / (2 * J) ≤ V)
    (position velocity : Flt ℝ) :
    Course J A V (activate (num x₀) (num v₀) (num a₀) position velocity).trajectory :=
  .start a₀ v₀ x₀ rfl ha hv

theorem Course.step (hs : IsSign sign) (hJ : 0 < J) (hcourse : Course J A V s.trajectory)
    {e : Event ℝ} (he : Allowed J A V s e) :
    Limited J A V (step sign s e) e ∧ Course J A V (step sign s e).trajectory := by
  cases e with
  | updateSetpoints i =>
    obtain ⟨t, r, B, W, hi⟩ := he
    obtain ⟨j, a, v, x, hnext, hj, ha, hin⟩ := hcourse.next hJ hi.time_nonneg
    obtain ⟨hcourse', v', hstate, hv', hlock⟩ := (updateSetpoints_spec hs hJ hi hnext ha).course hJ
      hi.speed_mem.1 hi.speed_mem.2 ha hin
    refine ⟨⟨j, a, v', ?_, ?_, ?_, hj, ha, hv', hlock⟩, hcourse'⟩ <;>
      rw [FlightTaskManualAltitudeSmoothVel.step, hstate]
  | ekfResetHandlerPositionZ position =>
    obtain ⟨x, rfl⟩ := isFinite_iff.mp he
    exact ⟨trivial, hcourse.setCurrentPosition x⟩

/-- **The setpoints keep the limits** of jerk, acceleration and velocity in every run of the task,
when the limits change from cycle to cycle and the estimator resets the position. -/
theorem limits_kept (hs : IsSign sign) (hJ : 0 < J) {a₀ v₀ x₀ : ℝ} (ha : |a₀| ≤ A)
    (hv : |v₀| + a₀ ^ 2 / (2 * J) ≤ V) (position velocity : Flt ℝ) (es : List (Event ℝ))
    (hes : Trace.Always (step sign) (Allowed J A V)
      (activate (num x₀) (num v₀) (num a₀) position velocity) es) :
    Trace.Always (step sign) (fun s e => Limited J A V (step sign s e) e)
      (activate (num x₀) (num v₀) (num a₀) position velocity) es :=
  Trace.always_of_invariant (I := fun s => Course J A V s.trajectory)
    (fun _ _ hcourse he => hcourse.step hs hJ he) (course_activate ha hv position velocity) hes

def climbing (deltatime : ℝ) : Inputs ℝ where
  mpc_jerk_max := num 4
  mpc_acc_up_max := num 4
  mpc_acc_down_max := num 3
  speed_up := num 3
  speed_down := num 1
  velocity_setpoint_feedback := nan
  position := num 0
  deltatime := num deltatime
  velocity_setpoint := num (-1)

theorem climbing_admissible (ht : 0 ≤ t) : Admissible 4 4 3 false (climbing t) t (-1) 4 3 where
  jerk := rfl
  time := rfl
  time_nonneg := ht
  target := rfl
  accel := if_pos (by norm_num)
  accel_mem := by norm_num
  speed := if_pos (by norm_num)
  speed_mem := by norm_num
  position := rfl
  feedback h := nomatch h

theorem limits_kept_climbing :
    Trace.Always (step standardSign) (fun s e => Limited 4 4 3 (step standardSign s e) e)
      (activate (num 0) (num 1) (num 1) nan nan)
      [.updateSetpoints (climbing (1 / 50)), .ekfResetHandlerPositionZ (num 2)] :=
  limits_kept (fun _ => rfl) (by norm_num) (by norm_num) (by norm_num) nan nan _
    ⟨⟨_, _, _, _, climbing_admissible (by norm_num)⟩, rfl, trivial⟩

/-! ### A constant stick -/

/-- Cycles with one target and its limits. -/
def Steady (J A V r B W : ℝ) (i : Inputs ℝ) : Prop := ∃ t, Admissible J A V false i t r B W

theorem Steady.sum_nonneg {is : List (Inputs ℝ)} (h : ∀ i ∈ is, Steady J A V r B W i) :
    ∃ y : ℝ, 0 ≤ y ∧ (is.map Inputs.deltatime).sum = num y := by
  induction is with
  | nil => exact ⟨0, le_rfl, rfl⟩
  | cons i is ih =>
    obtain ⟨⟨t, hi⟩, his⟩ := List.forall_mem_cons.mp h
    obtain ⟨y, hy, hsum⟩ := ih his
    refine ⟨t + y, add_nonneg hi.time_nonneg hy, ?_⟩
    rw [List.map_cons, List.sum_cons, hi.time, hsum, num_add]

theorem Cycled.unlocked {locked : Bool} {j a v x : ℝ} (h : Cycled J A V B W r locked j a v x s)
    (hr : FLT_EPSILON ℝ < |r|) : s.position_lock_active = false := by
  obtain ⟨_, _, _, _, _, _, _, hlock⟩ := h
  rw [← Bool.not_eq_true]
  exact fun hl => absurd (hlock hl).2.2 (not_le.mpr hr)

theorem steady_cycle (hs : IsSign sign) (hJ : 0 < J) (hr : FLT_EPSILON ℝ < |r|)
    {p : JerkProfile ℝ} {d : ℤ} {a v x : ℝ} (hlock : s.position_lock_active = false)
    (hplan : Replans s.trajectory J A B a v x (limitedVelSp W r) p d)
    (hi : Admissible J A V false i t r B W) :
    (updateSetpoints sign s i).position_lock_active = false ∧
      (updateSetpoints sign s i).state.a = num (d * p.acc t) ∧
      (updateSetpoints sign s i).state.v = num (v + d * p.gain t) ∧
      ∃ x' p' d', Replans (updateSetpoints sign s i).trajectory J A B (d * p.acc t)
        (v + d * p.gain t) x' (limitedVelSp W r) p' d' ∧ p'.total = max (p.total - t) 0 := by
  have hruns := hplan.plans.toRuns
  obtain ⟨j, x₁, hnext, -⟩ := hruns.state t
  rw [← hruns.with_max_jerk] at hnext
  rw [← hlock] at hi
  have hcycled := updateSetpoints_spec hs hJ hi hnext (hruns.abs_acc_le hi.time_nonneg)
  have hunlocked := hcycled.unlocked hr
  obtain ⟨v', x', p', d', hstate, hv', hplan', -⟩ := hcycled
  have hvel : v' = v + d * p.gain t := hv'.resolve_right fun h => by simp [hlock] at h
  subst hvel
  rw [hstate]
  exact ⟨hunlocked, rfl, rfl, x', p', d', hplan',
    hplan.remaining hJ hi.accel_mem.1 hi.time_nonneg hplan'⟩

/-- By induction on the cycles: the time that a plan takes is no more than the cycles still have. -/
theorem reaches (hs : IsSign sign) (hJ : 0 < J) (hr : FLT_EPSILON ℝ < |r|) (i : Inputs ℝ)
    (is : List (Inputs ℝ)) {p : JerkProfile ℝ} {d : ℤ} {a v x : ℝ}
    (hlock : s.position_lock_active = false)
    (hplan : Replans s.trajectory J A B a v x (limitedVelSp W r) p d)
    (his : ∀ k ∈ i :: is, Steady J A V r B W k)
    (hsum : num p.total ≤ ((i :: is).map Inputs.deltatime).sum) :
    ((i :: is).foldl (updateSetpoints sign) s).state.v = num (limitedVelSp W r) ∧
      ((i :: is).foldl (updateSetpoints sign) s).state.a = 0 := by
  induction is generalizing s i p d a v x with
  | nil =>
    obtain ⟨t, hi⟩ := his i List.mem_cons_self
    obtain ⟨-, ha, hv, -⟩ := steady_cycle hs hJ hr hlock hplan hi
    have htotal : p.total ≤ t := by simpa [hi.time] using hsum
    have hrests := hplan.plans.rests
    rw [List.foldl_cons, List.foldl_nil, hv, ha, hrests.gain_of_total_le htotal,
      hrests.acc_of_total_le htotal, hplan.plans.ends, mul_zero]
    exact ⟨rfl, rfl⟩
  | cons i' is ih =>
    obtain ⟨t, hi⟩ := his i List.mem_cons_self
    have his' : ∀ k ∈ i' :: is, Steady J A V r B W k :=
      fun k hk => his k (List.mem_cons_of_mem i hk)
    obtain ⟨hlock', -, -, x', p', d', hplan', htotal⟩ := steady_cycle hs hJ hr hlock hplan hi
    refine ih i' hlock' hplan' his' ?_
    obtain ⟨y, hy, hrest⟩ := Steady.sum_nonneg his'
    have hle : p.total ≤ t + y := by
      rw [List.map_cons, List.sum_cons, hrest, hi.time] at hsum
      exact hsum
    rw [hrest, htotal]
    exact max_le (by linarith) hy

/-- **The velocity settles.**  From any state that a run reaches, a target outside of the dead zone
that is kept is reached exactly, as soon as the time of the first plan to it has passed. -/
theorem settles (hs : IsSign sign) (hJ : 0 < J) {a₀ v₀ x₀ : ℝ} (ha : |a₀| ≤ A)
    (hv : |v₀| + a₀ ^ 2 / (2 * J) ≤ V) (position velocity : Flt ℝ) (es : List (Event ℝ))
    (hes : Trace.Always (step sign) (Allowed J A V)
      (activate (num x₀) (num v₀) (num a₀) position velocity) es)
    (hrun : Trace.run (step sign) (activate (num x₀) (num v₀) (num a₀) position velocity) es = s)
    (hr : FLT_EPSILON ℝ < |r|) (i₀ : Inputs ℝ)
    (hi₀ : Admissible J A V s.position_lock_active i₀ t r B W) :
    ∃ T : ℝ, (updateSetpoints sign s i₀).trajectory.getTotalTime = num T ∧
      ∀ i is, (∀ k ∈ i :: is, Steady J A V r B W k) →
        num T ≤ ((i :: is).map Inputs.deltatime).sum →
        ((i₀ :: i :: is).foldl (updateSetpoints sign) s).state.v = num (limitedVelSp W r) ∧
          ((i₀ :: i :: is).foldl (updateSetpoints sign) s).state.a = 0 := by
  have hcourse : Course J A V s.trajectory := hrun ▸ Trace.run_of_invariant
    (I := fun s => Course J A V s.trajectory) (fun _ _ hcourse he => (hcourse.step hs hJ he).2)
    (course_activate ha hv position velocity) hes
  obtain ⟨j, a, v, x, hnext, -, ha, -⟩ := hcourse.next hJ hi₀.time_nonneg
  have hcycled := updateSetpoints_spec hs hJ hi₀ hnext ha
  have hunlocked := hcycled.unlocked hr
  obtain ⟨v', x', p, d, -, -, hplan, -⟩ := hcycled
  exact ⟨p.total, hplan.plans.toRuns.getTotalTime, fun i is his hsum =>
    reaches hs hJ hr i is hunlocked hplan his hsum⟩

theorem settles_climbing : ∃ T : ℝ,
    (updateSetpoints standardSign (activate (num 0) (num 1) (num 1) nan nan)
      (climbing (1 / 50))).trajectory.getTotalTime = num T ∧
    ∀ i is, (∀ k ∈ i :: is, Steady 4 4 3 (-1) 4 3 k) →
      num T ≤ ((i :: is).map Inputs.deltatime).sum →
      ((climbing (1 / 50) :: i :: is).foldl (updateSetpoints standardSign)
          (activate (num 0) (num 1) (num 1) nan nan)).state.v = num (limitedVelSp 3 (-1)) ∧
        ((climbing (1 / 50) :: i :: is).foldl (updateSetpoints standardSign)
          (activate (num 0) (num 1) (num 1) nan nan)).state.a = 0 :=
  settles (fun _ => rfl) (by norm_num) (by norm_num) (by norm_num) nan nan [] trivial rfl
    (by norm_num [FLT_EPSILON]) _ (climbing_admissible (by norm_num))

end FlightTaskManualAltitudeSmoothVel
