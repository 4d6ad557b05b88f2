/-
`VelocitySmoothing`: trajectories with a limited jerk.

`updateDurations` computes the durations of three phases, in which the acceleration is raised, held
and lowered, so that a velocity is reached; `updateTraj` evaluates the trajectory at a time, and
`timeSynchronization` stretches several of them to the duration of the longest.

The tests of numbers against `FLT_EPSILON` are tests for zero.  The sign of a number comes from the
matrix library; it is the parameter `sign`.
-/
import AerialManipulator.Math

open WithNaN

structure Trajectory (K : Type*) where
  j : Flt K
  a : Flt K
  v : Flt K
  x : Flt K

structure VelocitySmoothing (K : Type*) where
  vel_sp : Flt K
  -- constraints
  max_jerk : Flt K
  max_accel : Flt K
  max_vel : Flt K
  -- states
  state : Trajectory K
  direction : ℤ
  state_init : Trajectory K
  T1 : Flt K
  T2 : Flt K
  T3 : Flt K
  local_time : Flt K

namespace VelocitySmoothing

variable {K : Type*} [Field K] [LinearOrder K]

def init (initial_accel initial_vel initial_pos : Flt K) : VelocitySmoothing K where
  vel_sp := 0
  max_jerk := 22.0
  max_accel := 8.0
  max_vel := 6.0
  state := ⟨0, initial_accel, initial_vel, initial_pos⟩
  direction := 0
  state_init := ⟨0, initial_accel, initial_vel, initial_pos⟩
  T1 := 0
  T2 := 0
  T3 := 0
  local_time := 0

def reset (accel vel pos : Flt K) (c : VelocitySmoothing K) : VelocitySmoothing K :=
  { c with state := ⟨0, accel, vel, pos⟩, state_init := ⟨0, accel, vel, pos⟩ }

def setCurrentVelocity (vel : Flt K) (c : VelocitySmoothing K) : VelocitySmoothing K :=
  { c with state := { c.state with v := vel }, state_init := { c.state_init with v := vel } }

def setCurrentPosition (pos : Flt K) (c : VelocitySmoothing K) : VelocitySmoothing K :=
  { c with state := { c.state with x := pos }, state_init := { c.state_init with x := pos } }

def getTotalTime (c : VelocitySmoothing K) : Flt K := c.T1 + c.T2 + c.T3

def ofInt (d : ℤ) : Flt K := num (d : K)

/-! ### Durations -/

/-- An acceleration above the limit shortens the first phase. -/
def saturateT1ForAccel (a0 j_max T1 a_max : Flt K) : Flt K :=
  let accel_T1 := a0 + j_max * T1
  if a_max < accel_T1 then (a_max - a0) / j_max
  else if accel_T1 < -a_max then (-a_max - a0) / j_max
  else T1

section Root

variable [Elementary K]

def computeT1 (a0 v3 j_max a_max : Flt K) : Flt K :=
  let delta := 2.0 * a0 * a0 + 4.0 * j_max * v3
  if delta < 0 then 0
  else
    let sqrt_delta := sqrtf delta
    let T1_plus := (-a0 + 0.5 * sqrt_delta) / j_max
    let T1_minus := (-a0 - 0.5 * sqrt_delta) / j_max
    let T3_plus := a0 / j_max + T1_plus
    let T3_minus := a0 / j_max + T1_minus
    let T1 :=
      if 0 ≤ T1_plus ∧ 0 ≤ T3_plus then T1_plus
      else if 0 ≤ T1_minus ∧ 0 ≤ T3_minus then T1_minus
      else 0
    math.max (saturateT1ForAccel a0 j_max T1 a_max) 0

def computeT1OfTotal (T123 a0 v3 j_max a_max : Flt K) : Flt K :=
  let a := -j_max
  let b := j_max * T123 - a0
  let delta := T123 * T123 * j_max * j_max + 2.0 * T123 * a0 * j_max - a0 * a0 - 4.0 * j_max * v3
  if delta < 0 then 0
  else
    let sqrt_delta := sqrtf delta
    let denominator_inv := 1.0 / (2.0 * a)
    let T1_plus := math.max ((-b + sqrt_delta) * denominator_inv) 0
    let T1_minus := math.max ((-b - sqrt_delta) * denominator_inv) 0
    let T3_plus := a0 / j_max + T1_plus
    let T3_minus := a0 / j_max + T1_minus
    let T13_plus := T1_plus + T3_plus
    let T13_minus := T1_minus + T3_minus
    let T1 :=
      if T123 < T13_plus then T1_minus
      else if T123 < T13_minus then T1_plus
      else 0
    saturateT1ForAccel a0 j_max T1 a_max

end Root

def computeT2 (T1 T3 a0 v3 j_max : Flt K) : Flt K :=
  let den := a0 + j_max * T1
  let T2 :=
    if 0 < fabsf den then
      (-0.5 * T1 * T1 * j_max - T1 * T3 * j_max - T1 * a0 + 0.5 * T3 * T3 * j_max - T3 * a0 +
        v3) / den
    else 0
  math.max T2 0

def computeT2OfTotal (T123 T1 T3 : Flt K) : Flt K := math.max (T123 - T1 - T3) 0

def computeT3 (T1 a0 j_max : Flt K) : Flt K := math.max (a0 / j_max + T1) 0

section Sign

variable (sign : Flt K → ℤ) (c : VelocitySmoothing K)

def computeVelAtZeroAcc : Flt K :=
  if 0 < fabsf c.state.a then
    let j_zero_acc := -ofInt (sign c.state.a) * c.max_jerk
    let t_zero_acc := -c.state.a / j_zero_acc
    c.state.v + c.state.a * t_zero_acc + 0.5 * j_zero_acc * t_zero_acc * t_zero_acc
  else c.state.v

def computeDirection : ℤ :=
  let direction := sign (c.vel_sp - c.computeVelAtZeroAcc sign)
  if direction = 0 then sign c.state.a else direction

end Sign

section Durations

variable [Elementary K]

def updateDurationsMinimizeTotalTime (c : VelocitySmoothing K) : VelocitySmoothing K :=
  let jerk_max_T1 := ofInt c.direction * c.max_jerk
  let delta_v := c.vel_sp - c.state.v
  let T1 := computeT1 c.state.a delta_v jerk_max_T1 c.max_accel
  let T3 := computeT3 T1 c.state.a jerk_max_T1
  { c with T1 := T1, T3 := T3, T2 := computeT2 T1 T3 c.state.a delta_v jerk_max_T1 }

def updateDurationsGivenTotalTime (T123 : Flt K) (c : VelocitySmoothing K) : VelocitySmoothing K :=
  let jerk_max_T1 := ofInt c.direction * c.max_jerk
  let delta_v := c.vel_sp - c.state.v
  let T1 := computeT1OfTotal T123 c.state.a delta_v jerk_max_T1 c.max_accel
  let T3 := computeT3 T1 c.state.a jerk_max_T1
  { c with T1 := T1, T3 := T3, T2 := computeT2OfTotal T123 T1 T3 }

def updateDurations (sign : Flt K → ℤ) (vel_setpoint : Flt K) (c : VelocitySmoothing K) :
    VelocitySmoothing K :=
  let c := { c with
    vel_sp := math.constrain vel_setpoint (-c.max_vel) c.max_vel
    local_time := 0
    state_init := c.state }
  let c := { c with direction := c.computeDirection sign }
  if c.direction ≠ 0 then c.updateDurationsMinimizeTotalTime
  else { c with T1 := 0, T2 := 0, T3 := 0 }

end Durations

/-! ### The trajectory -/

def evaluatePoly (j a0 v0 x0 t : Flt K) (d : ℤ) : Trajectory K :=
  let jt := ofInt d * j
  let t2 := t * t
  let t3 := t2 * t
  { j := jt
    a := a0 + jt * t
    v := v0 + a0 * t + 0.5 * jt * t2
    x := x0 + v0 * t + 0.5 * a0 * t2 + 1.0 / 6.0 * jt * t3 }

/-- A phase of length `T`, if there is time left for it. -/
def nextPhase (j T : Flt K) (d : ℤ) (traj : Trajectory K × Flt K) : Trajectory K × Flt K :=
  if 0 < traj.2 then
    let t := math.min traj.2 T
    (evaluatePoly j traj.1.a traj.1.v traj.1.x t d, traj.2 - t)
  else traj

/-- The phases that have been reached at the local time, one after the other. -/
def trajAt (c : VelocitySmoothing K) (local_time : Flt K) : Trajectory K :=
  let t1 := math.min local_time c.T1
  let state := evaluatePoly c.max_jerk c.state_init.a c.state_init.v c.state_init.x t1 c.direction
  let held := nextPhase 0 c.T2 0 (state, local_time - t1)
  let lowered := nextPhase c.max_jerk c.T3 (-c.direction) held
  if 0 < lowered.2 then evaluatePoly 0 0 lowered.1.v lowered.1.x lowered.2 0 else lowered.1

def updateTraj (c : VelocitySmoothing K) (dt time_stretch : Flt K) : VelocitySmoothing K :=
  let local_time := c.local_time + dt * time_stretch
  { c with local_time := local_time, state := c.trajAt local_time }

/-! ### Synchronisation -/

/-- The desired time and the index of the longest trajectory, with one more of them. -/
def longer (best : Flt K × ℕ) (traj : VelocitySmoothing K × ℕ) : Flt K × ℕ :=
  if best.1 < traj.1.getTotalTime then (traj.1.getTotalTime, traj.2) else best

def longest (traj : List (VelocitySmoothing K)) : Flt K × ℕ := traj.zipIdx.foldl longer (0, 0)

def timeSynchronization [Elementary K] (traj : List (VelocitySmoothing K)) :
    List (VelocitySmoothing K) :=
  let desired_time := (longest traj).1
  let longest_traj_index := (longest traj).2
  if 0 < desired_time then
    traj.mapIdx fun i c =>
      if i ≠ longest_traj_index then c.updateDurationsGivenTotalTime desired_time else c
  else traj

end VelocitySmoothing
