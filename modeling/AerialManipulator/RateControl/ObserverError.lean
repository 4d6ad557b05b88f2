/-
The error of the rate observer in flight.

As for the position observer the disturbance of an axis is what the angular acceleration has beyond
the observer's input, here the nominal one of the last torque.  The errors of the two estimates form
a chain at the bandwidth of the axis.

* `rateErrorChain_update` — one Euler step of the observer, in terms of the chain;
* `rate_estimate_converges` — a run of the rate controller in flight.
-/
import AerialManipulator.Lib.DecayChain
import AerialManipulator.RateControl.RateControl

open WithNaN DecayChain

def rateErrorChain (ω e1 e2 : ℝ) : ℕ → ℝ
  | 0 => e1
  | 1 => e2 - ω * e1
  | _ => 0

def rateErrorSize (ω e1 e2 : ℝ) : ℝ := |e2| + ω * |e1|

theorem rateErrorSize_nonneg {ω : ℝ} (hω : 0 ≤ ω) (e1 e2 : ℝ) : 0 ≤ rateErrorSize ω e1 e2 := by
  rw [rateErrorSize]
  positivity

theorem within_rateErrorChain {ω : ℝ} (hω : 0 < ω) (e1 e2 : ℝ) :
    Within 2 (ω / 2) (rateErrorSize ω e1 e2) (rateErrorChain ω e1 e2) := by
  have h1 : 0 ≤ ω * |e1| := by positivity
  have h2 : 0 ≤ |e2| := abs_nonneg e2
  constructor
  · intro i hi
    rw [rateErrorSize]
    obtain rfl | rfl : i = 0 ∨ i = 1 := by omega
    · show (ω / 2) ^ 1 * |e1| ≤ _
      linarith [show (ω / 2) ^ 1 * |e1| = ω * |e1| / 2 by ring]
    · show (ω / 2) ^ 0 * |e2 - ω * e1| ≤ _
      have hsub := abs_sub e2 (ω * e1)
      rw [abs_mul, abs_of_pos hω] at hsub
      rw [pow_zero, one_mul]
      linarith
  · intro i hi
    obtain ⟨j, rfl⟩ := Nat.exists_eq_add_of_le' hi
    rfl

theorem rateErrors_of_within {ω b e1 e2 : ℝ} (hω : 0 < ω)
    (hy : Within 2 (ω / 2) b (rateErrorChain ω e1 e2)) : ω * |e1| ≤ 2 * b ∧ |e2| ≤ 3 * b := by
  have h0 : (ω / 2) ^ 1 * |e1| ≤ b := hy.bound 0 (by omega)
  have h1 : (ω / 2) ^ 0 * |e2 - ω * e1| ≤ b := hy.bound 1 (by omega)
  have hrate : ω * |e1| ≤ 2 * b := by linarith [show (ω / 2) ^ 1 * |e1| = ω * |e1| / 2 by ring]
  rw [pow_zero, one_mul] at h1
  refine ⟨hrate, ?_⟩
  calc |e2| = |(e2 - ω * e1) + ω * e1| := by ring_nf
    _ ≤ |e2 - ω * e1| + |ω * e1| := abs_add_le _ _
    _ = |e2 - ω * e1| + ω * |e1| := by rw [abs_mul, abs_of_pos hω]
    _ ≤ 3 * b := by linarith

theorem rateErrorChain_update (ω z1 z2 u dt r d r' d' : ℝ) (i : ℕ) :
    rateErrorChain ω (r' - (z1 + (u + z2 + 2 * ω * (r - z1)) * dt))
        (d' - (z2 + ω ^ 2 * (r - z1) * dt)) i =
      next ω dt (rateErrorChain ω (r - z1) (d - z2)) i +
        rateErrorChain ω (r' - r - dt * (u + d)) (d' - d) i := by
  match i with
  | 0 => simp only [rateErrorChain, next]; ring
  | 1 => simp only [rateErrorChain, next]; ring
  | _ + 2 => simp only [rateErrorChain, next]; ring

namespace AttitudeESO

/-- The gains of an axis are those of a bandwidth. -/
structure Tuned (e : AttitudeESO ℝ) (i : Fin 3) (ω : ℝ) : Prop where
  beta1 : e.beta1 i = num (2 * ω)
  beta2 : e.beta2 i = num (ω ^ 2)

theorem tuned_init {wp : Vector3f ℝ} {i : Fin 3} {ω : ℝ} (h : wp i = num ω) :
    Tuned (AttitudeESO.init wp) i ω := by
  have h2 : (2.0 : Flt ℝ) = num 2 := by
    rw [ofScientific_def]
    norm_num
  refine ⟨?_, ?_⟩
  · show wp i * 2.0 = _
    rw [h, h2, num_mul, mul_comm]
  · show wp i * wp i = _
    rw [h, num_mul, pow_two]

/-- The estimates of an axis. -/
structure Estimates (e : AttitudeESO ℝ) (i : Fin 3) (z1 z2 : ℝ) : Prop where
  z1 : e.z1_est_omega i = num z1
  z2 : e.z2_est_dist i = num z2

theorem Estimates.update {e : AttitudeESO ℝ} {i : Fin 3} {ω z1 z2 r u : ℝ}
    {omega_meas u_input : Vector3f ℝ} (dt : ℝ) (he : Estimates e i z1 z2) (ht : Tuned e i ω)
    (hr : omega_meas i = num r) (hu : u_input i = num u) :
    Estimates (e.update omega_meas u_input (num dt)) i (z1 + (u + z2 + 2 * ω * (r - z1)) * dt)
        (z2 + ω ^ 2 * (r - z1) * dt) ∧
      Tuned (e.update omega_meas u_input (num dt)) i ω := by
  refine ⟨⟨?_, ?_⟩, ⟨ht.beta1, ht.beta2⟩⟩
  · show e.z1_est_omega i + (u_input i + e.z2_est_dist i +
      e.beta1 i * (omega_meas i - e.z1_est_omega i)) * num dt = _
    rw [he.z1, he.z2, ht.beta1, hr, hu]
    rfl
  · show e.z2_est_dist i + e.beta2 i * (omega_meas i - e.z1_est_omega i) * num dt = _
    rw [he.z1, he.z2, ht.beta2, hr]
    rfl

end AttitudeESO

namespace ESORateControl

/-! ### Cycles of the controller in flight -/

/-- The observer's input of a cycle: the angular acceleration of the last torque, without the
Coriolis term and with what is injected for the arm. -/
noncomputable def nominalInput (c : ESORateControl ℝ) (rate : Vector3f ℝ) (dt : ℝ) : Vector3f ℝ :=
  mulVec c.inertia_inv (c.last_torque - cross rate (mulVec c.inertia rate) +
    emult (c.filterTauS (num dt) false).2 c.tau_s_obs_axis_scale)

theorem filterTauS_frame (c : ESORateControl ℝ) (dt : Flt ℝ) (landed : Bool) :
    ∃ filtered valid, (c.filterTauS dt landed).1 =
      { c with tau_s_filtered := filtered, tau_s_filter_valid := valid } := by
  simp only [filterTauS]
  split_ifs
  · exact ⟨_, _, rfl⟩
  · exact ⟨_, _, rfl⟩
  · exact ⟨_, _, rfl⟩

theorem update_eso (c : ESORateControl ℝ) (rate rate_sp : Vector3f ℝ) (dt : ℝ) :
    (c.update rate rate_sp (num dt) false).1.eso =
      c.eso.update rate (c.nominalInput rate dt) (num dt) := by
  obtain ⟨filtered, valid, hfilter⟩ := filterTauS_frame c (num dt) false
  show ((c.filterTauS (num dt) false).1.observe rate rate_sp
    (emult (c.filterTauS (num dt) false).2 (c.filterTauS (num dt) false).1.tau_s_obs_axis_scale)
    (num dt) false).eso = _
  rw [hfilter, observe, if_neg Bool.false_ne_true]
  dsimp only
  split_ifs <;> rfl

/-- A cycle in flight: gains, limits, the terms of the attitude loop and the saturation may be set,
and the controller is updated. -/
structure FlightCycle where
  configure : ESORateControl ℝ → ESORateControl ℝ
  rate : Vector3f ℝ
  rate_sp : Vector3f ℝ
  dt : ℝ
  -- what is set is not the observer
  eso : ∀ c, (configure c).eso = c.eso

noncomputable def flightCycle (c : ESORateControl ℝ) (x : FlightCycle) : ESORateControl ℝ :=
  ((x.configure c).update x.rate x.rate_sp (num x.dt) false).1

/-- The controller after the first `n` cycles. -/
noncomputable def after (c : ESORateControl ℝ) (cycles : ℕ → FlightCycle) : ℕ → ESORateControl ℝ
  | 0 => c
  | n + 1 => flightCycle (after c cycles n) (cycles n)

/-- The observer's input in the cycle `n`. -/
noncomputable def inputAt (c : ESORateControl ℝ) (cycles : ℕ → FlightCycle) (n : ℕ) : Vector3f ℝ :=
  ((cycles n).configure (after c cycles n)).nominalInput (cycles n).rate (cycles n).dt

theorem flightCycle_eso (c : ESORateControl ℝ) (x : FlightCycle) :
    (flightCycle c x).eso =
      c.eso.update x.rate ((x.configure c).nominalInput x.rate x.dt) (num x.dt) := by
  rw [flightCycle, update_eso, x.eso]

/-- The estimates of an axis after the first `n` cycles. -/
noncomputable def estimates (ω : ℝ) (dt u r : ℕ → ℝ) (z : ℝ × ℝ) : ℕ → ℝ × ℝ
  | 0 => z
  | n + 1 =>
    let z' := estimates ω dt u r z n
    let err := r n - z'.1
    (z'.1 + (u n + z'.2 + 2 * ω * err) * dt n, z'.2 + ω ^ 2 * err * dt n)

section Run

variable {c : ESORateControl ℝ} {cycles : ℕ → FlightCycle} {n : ℕ} {i : Fin 3} {ω : ℝ} {r u : ℕ → ℝ}

theorem estimates_after {z : ℝ × ℝ} (hr : ∀ k < n, (cycles k).rate i = num (r k))
    (hu : ∀ k < n, inputAt c cycles k i = num (u k)) (htuned : c.eso.Tuned i ω)
    (hstart : c.eso.Estimates i z.1 z.2) :
    (after c cycles n).eso.Estimates i (estimates ω (fun k => (cycles k).dt) u r z n).1
        (estimates ω (fun k => (cycles k).dt) u r z n).2 ∧
      (after c cycles n).eso.Tuned i ω := by
  induction n with
  | zero => exact ⟨hstart, htuned⟩
  | succ n ih =>
    obtain ⟨hest, ht⟩ := ih (fun k hk => hr k (by omega)) fun k hk => hu k (by omega)
    have hnext := hest.update (cycles n).dt ht (hr n (Nat.lt_succ_self n))
      (hu n (Nat.lt_succ_self n))
    rw [inputAt, ← flightCycle_eso] at hnext
    exact hnext

/-- The observer in a run of the controller in flight.  On an axis with rate `r` and a disturbance
`d` beyond the nominal acceleration `u`, the errors of the disturbance and the rate fall
exponentially with the time that has passed, at half of the bandwidth, to a rest that the motion
accounts for. -/
theorem rate_estimate_converges {S z1 z2 : ℝ} {d : ℕ → ℝ} (hω : 0 < ω)
    (hdt : ∀ k < n, 0 ≤ (cycles k).dt ∧ ω * (cycles k).dt ≤ 1)
    (hr : ∀ k < n, (cycles k).rate i = num (r k))
    (hu : ∀ k < n, inputAt c cycles k i = num (u k)) (htuned : c.eso.Tuned i ω)
    (hstart : c.eso.Estimates i z1 z2)
    (hmismatch : ∀ k < n, rateErrorSize ω (r (k + 1) - r k - (cycles k).dt * (u k + d k))
      (d (k + 1) - d k) ≤ (cycles k).dt * S) (hS : 0 ≤ S) :
    ∃ z1' z2', (after c cycles n).eso.Estimates i z1' z2' ∧
      let b := Real.exp (-(ω / 2 * ∑ k ∈ Finset.range n, (cycles k).dt)) *
        rateErrorSize ω (r 0 - z1) (d 0 - z2) + S / (ω / 2)
      |d n - z2'| ≤ 3 * b ∧ ω * |r n - z1'| ≤ 2 * b := by
  obtain ⟨hest, -⟩ := estimates_after (z := (z1, z2)) hr hu htuned hstart
  refine ⟨_, _, hest, ?_⟩
  let Z := estimates ω (fun k => (cycles k).dt) u r (z1, z2)
  have hrun := Within.run_exp (m := 2) (n := n) (S := S)
    (y := fun k => rateErrorChain ω (r k - (Z k).1) (d k - (Z k).2))
    (w := fun k => rateErrorChain ω (r (k + 1) - r k - (cycles k).dt * (u k + d k))
      (d (k + 1) - d k))
    (h := fun k => (cycles k).dt) hω (fun k _ j => rateErrorChain_update ω _ _ _ _ _ _ _ _ j) hdt
    (within_rateErrorChain hω _ _) (rateErrorSize_nonneg hω.le _ _)
    (fun k hk => (within_rateErrorChain hω _ _).mono (hmismatch k hk)) hS
  obtain ⟨hrate, hdist⟩ := rateErrors_of_within hω hrun
  exact ⟨hdist, hrate⟩

end Run

def holdAttitude : FlightCycle where
  configure := id
  rate := fun _ => 0
  rate_sp := fun _ => 0
  dt := 0.004
  eso _ := rfl

theorem mulVec_zero {M : Matrix3f ℝ} (hM : ∀ i, FiniteVec (M i)) :
    mulVec M (fun _ => 0) = fun _ => 0 := by
  choose A hA using fun i => exists_numVec (hM i)
  have hnum : M = numMat A := funext hA
  have hmul := mulVec_numMat A 0
  rw [hnum]
  refine hmul.trans (funext fun i => ?_)
  rw [numVec_apply]
  simp only [Pi.zero_apply, mul_zero, Finset.sum_const_zero]
  rfl

theorem nominalInput_init (dt : ℝ) : (init ℝ).nominalInput (fun _ => 0) dt = fun _ => 0 := by
  have hoff : math.constrain (init ℝ).tau_s_scale 0 1 ≤ num (FLT_EPSILON ℝ) := by
    show math.constrain (num 0) (num 0) (num 1) ≤ num (FLT_EPSILON ℝ)
    rw [math.constrain_num_of_le zero_le_one, num_le_num]
    norm_num [FLT_EPSILON]
  have hfilter : ((init ℝ).filterTauS (num dt) false).2 = fun _ => 0 := by
    dsimp only [filterTauS]
    rw [if_pos (Or.inr (Or.inl hoff))]
  have hinertia : ∀ i, FiniteVec ((init ℝ).inertia i) := by
    intro i j
    fin_cases i <;> fin_cases j <;> rfl
  have hinv : ∀ i, FiniteVec ((init ℝ).inertia_inv i) := by
    intro i j
    fin_cases i <;> fin_cases j <;> rfl
  have hzero : (init ℝ).last_torque - cross (fun _ => 0) (fun _ => 0) +
      emult (fun _ => 0) (init ℝ).tau_s_obs_axis_scale = fun _ => 0 := by
    have hterm : (num 0 - (num 0 * num 0 - num 0 * num 0) + num 0 * num 1 : Flt ℝ) = num 0 := by
      simp only [num_mul, num_sub, num_add, mul_zero, zero_mul, sub_zero, add_zero]
    funext i
    fin_cases i <;> exact hterm
  rw [nominalInput, hfilter, mulVec_zero hinertia, hzero, mulVec_zero hinv]

/-- One cycle with a disturbance of 1 rad/s² that has just set in. -/
theorem rate_estimate_converges_push :
    ∃ z1' z2', (after (init ℝ) (fun _ => holdAttitude) 1).eso.Estimates 0 z1' z2' ∧
      let b := Real.exp (-(30 / 2 * ∑ _k ∈ Finset.range 1, holdAttitude.dt)) *
        rateErrorSize 30 (0.004 * (0 : ℕ) - 0) (1 - 0) + 0 / (30 / 2)
      |1 - z2'| ≤ 3 * b ∧ 30 * |0.004 * (1 : ℕ) - z1'| ≤ 2 * b := by
  refine rate_estimate_converges (r := fun k => 0.004 * (k : ℝ)) (d := fun _ => 1) (u := fun _ => 0)
    (by norm_num) ?_ ?_ ?_ (AttitudeESO.tuned_init rfl) ⟨rfl, rfl⟩ ?_ (le_refl 0)
  · intro k _
    show (0 : ℝ) ≤ 0.004 ∧ (30 : ℝ) * 0.004 ≤ 1
    norm_num
  · intro k hk
    obtain rfl : k = 0 := by omega
    show (0 : Flt ℝ) = num (0.004 * ((0 : ℕ) : ℝ))
    rw [Nat.cast_zero, mul_zero, zero_def]
  · intro k hk
    obtain rfl : k = 0 := by omega
    exact congrFun (nominalInput_init 0.004) 0
  · intro k hk
    obtain rfl : k = 0 := by omega
    show rateErrorSize 30 (0.004 * ((0 + 1 : ℕ) : ℝ) - 0.004 * ((0 : ℕ) : ℝ) - 0.004 * (0 + 1))
      (1 - 1) ≤ 0.004 * 0
    norm_num [rateErrorSize]

end ESORateControl
