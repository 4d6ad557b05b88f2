/-
The error of the position observer in flight.

The disturbance of an axis is what its acceleration has beyond the observer's input.  The errors of
the three estimates form a chain of decaying quantities at the bandwidth of the axis, driven by how
far the motion is from one of constant velocity, acceleration and disturbance over a cycle.  This
holds whatever the controller does with the estimate, and for cycles of any lengths up to `1 / ω`.

* `errorChain_update` — one Euler step of the observer, in terms of the chain;
* `within_errorChain`, `Within.errors` — from the errors to the chain and back;
* `estimate_converges` — a run of the whole controller.
-/
import AerialManipulator.Lib.DecayChain
import AerialManipulator.PosControl.UpdateRun

open WithNaN DecayChain

def errorChain (ω e1 e2 e3 : ℝ) : ℕ → ℝ
  | 0 => e1
  | 1 => e2 - 2 * ω * e1
  | 2 => e3 - ω * e2 + ω ^ 2 * e1
  | _ => 0

/-- The errors, each by the power of the bandwidth that makes it an acceleration. -/
def errorSize (ω e1 e2 e3 : ℝ) : ℝ := |e3| + ω * |e2| + ω ^ 2 * |e1|

theorem errorSize_nonneg {ω : ℝ} (hω : 0 ≤ ω) (e1 e2 e3 : ℝ) : 0 ≤ errorSize ω e1 e2 e3 := by
  rw [errorSize]
  positivity

theorem within_errorChain {ω : ℝ} (hω : 0 < ω) (e1 e2 e3 : ℝ) :
    Within 3 (ω / 2) (errorSize ω e1 e2 e3) (errorChain ω e1 e2 e3) := by
  have h1 : 0 ≤ ω ^ 2 * |e1| := by positivity
  have h2 : 0 ≤ ω * |e2| := by positivity
  have h3 : 0 ≤ |e3| := abs_nonneg e3
  constructor
  · intro i hi
    rw [errorSize]
    obtain rfl | rfl | rfl : i = 0 ∨ i = 1 ∨ i = 2 := by omega
    · show (ω / 2) ^ 2 * |e1| ≤ _
      linarith [show (ω / 2) ^ 2 * |e1| = ω ^ 2 * |e1| / 4 by ring]
    · show (ω / 2) ^ 1 * |e2 - 2 * ω * e1| ≤ _
      have hsub := abs_sub e2 (2 * ω * e1)
      rw [abs_mul, abs_of_pos (by linarith : (0 : ℝ) < 2 * ω)] at hsub
      calc (ω / 2) ^ 1 * |e2 - 2 * ω * e1| ≤ (ω / 2) ^ 1 * (|e2| + 2 * ω * |e1|) := by gcongr
        _ = ω * |e2| / 2 + ω ^ 2 * |e1| := by ring
        _ ≤ |e3| + ω * |e2| + ω ^ 2 * |e1| := by linarith
    · show (ω / 2) ^ 0 * |e3 - ω * e2 + ω ^ 2 * e1| ≤ _
      rw [pow_zero, one_mul]
      refine (abs_add_le _ _).trans ?_
      rw [abs_mul (ω ^ 2), abs_of_pos (by positivity : (0 : ℝ) < ω ^ 2)]
      have hsub := abs_sub e3 (ω * e2)
      rw [abs_mul, abs_of_pos hω] at hsub
      linarith
  · intro i hi
    obtain ⟨j, rfl⟩ := Nat.exists_eq_add_of_le' hi
    rfl

theorem DecayChain.Within.errors {ω b e1 e2 e3 : ℝ} (hω : 0 < ω)
    (hy : Within 3 (ω / 2) b (errorChain ω e1 e2 e3)) :
    ω ^ 2 * |e1| ≤ 4 * b ∧ ω * |e2| ≤ 10 * b ∧ |e3| ≤ 7 * b := by
  have h0 : (ω / 2) ^ 2 * |e1| ≤ b := hy.bound 0 (by omega)
  have h1 : (ω / 2) ^ 1 * |e2 - 2 * ω * e1| ≤ b := hy.bound 1 (by omega)
  have h2 : (ω / 2) ^ 0 * |e3 - ω * e2 + ω ^ 2 * e1| ≤ b := hy.bound 2 (by omega)
  have hpos : ω ^ 2 * |e1| ≤ 4 * b := by
    linarith [show (ω / 2) ^ 2 * |e1| = ω ^ 2 * |e1| / 4 by ring]
  have hslope : ω * |e2 - 2 * ω * e1| ≤ 2 * b := by
    linarith [show (ω / 2) ^ 1 * |e2 - 2 * ω * e1| = ω * |e2 - 2 * ω * e1| / 2 by ring]
  rw [pow_zero, one_mul] at h2
  refine ⟨hpos, ?_, ?_⟩
  · calc ω * |e2| = ω * |(e2 - 2 * ω * e1) + 2 * ω * e1| := by ring_nf
      _ ≤ ω * (|e2 - 2 * ω * e1| + |2 * ω * e1|) := by gcongr; exact abs_add_le _ _
      _ = ω * |e2 - 2 * ω * e1| + 2 * (ω ^ 2 * |e1|) := by
        rw [abs_mul, abs_of_pos (by linarith : (0 : ℝ) < 2 * ω)]
        ring
      _ ≤ 10 * b := by linarith
  · calc |e3| = |(e3 - ω * e2 + ω ^ 2 * e1) + ω * (e2 - 2 * ω * e1) + ω ^ 2 * e1| := by ring_nf
      _ ≤ |e3 - ω * e2 + ω ^ 2 * e1| + |ω * (e2 - 2 * ω * e1)| + |ω ^ 2 * e1| :=
        (abs_add_le _ _).trans (add_le_add_left (abs_add_le _ _) _)
      _ = |e3 - ω * e2 + ω ^ 2 * e1| + ω * |e2 - 2 * ω * e1| + ω ^ 2 * |e1| := by
        rw [abs_mul, abs_of_pos hω, abs_mul, abs_of_pos (by positivity : (0 : ℝ) < ω ^ 2)]
      _ ≤ 7 * b := by linarith

namespace PositionESO

/-- The gains of an axis are those of a bandwidth. -/
structure Tuned (e : PositionESO ℝ) (i : Fin 3) (ω : ℝ) : Prop where
  beta1 : e.beta1 i = num (3 * ω)
  beta2 : e.beta2 i = num (3 * ω ^ 2)
  beta3 : e.beta3 i = num (ω ^ 3)

theorem tuned_setBandwidth (e : PositionESO ℝ) {bw : Vector3f ℝ} {i : Fin 3} {ω : ℝ}
    (h : bw i = num ω) : Tuned (e.setBandwidth bw) i ω := by
  have h3 : (3.0 : Flt ℝ) = num 3 := by
    rw [ofScientific_def]
    norm_num
  refine ⟨?_, ?_, ?_⟩
  · show bw i * 3.0 = _
    rw [h, h3, num_mul, mul_comm]
  · show bw i * bw i * 3.0 = _
    rw [h, h3, num_mul, num_mul]
    congr 1
    ring
  · show bw i * bw i * bw i = _
    rw [h, num_mul, num_mul]
    congr 1
    ring

/-- The estimates of an axis. -/
structure Estimates (e : PositionESO ℝ) (i : Fin 3) (z1 z2 z3 : ℝ) : Prop where
  z1 : e.z1 i = num z1
  z2 : e.z2 i = num z2
  z3 : e.z3 i = num z3

theorem Estimates.update {e : PositionESO ℝ} {i : Fin 3} {ω z1 z2 z3 p u : ℝ}
    {pos_meas u_control : Vector3f ℝ} (dt : ℝ) (he : Estimates e i z1 z2 z3) (ht : Tuned e i ω)
    (hp : pos_meas i = num p) (hu : u_control i = num u) :
    Estimates (e.update pos_meas u_control (num dt)) i (z1 + (z2 + 3 * ω * (p - z1)) * dt)
        (z2 + (z3 + u + 3 * ω ^ 2 * (p - z1)) * dt) (z3 + ω ^ 3 * (p - z1) * dt) ∧
      Tuned (e.update pos_meas u_control (num dt)) i ω := by
  refine ⟨⟨?_, ?_, ?_⟩, ⟨ht.beta1, ht.beta2, ht.beta3⟩⟩
  · show e.z1 i + (e.z2 i + e.beta1 i * (pos_meas i - e.z1 i)) * num dt = _
    rw [he.z1, he.z2, ht.beta1, hp]
    rfl
  · show e.z2 i + (e.z3 i + u_control i + e.beta2 i * (pos_meas i - e.z1 i)) * num dt = _
    rw [he.z1, he.z2, he.z3, ht.beta2, hp, hu]
    rfl
  · show e.z3 i + e.beta3 i * (pos_meas i - e.z1 i) * num dt = _
    rw [he.z1, he.z3, ht.beta3, hp]
    rfl

theorem errorChain_update (ω z1 z2 z3 u dt p v d p' v' d' : ℝ) (i : ℕ) :
    errorChain ω (p' - (z1 + (z2 + 3 * ω * (p - z1)) * dt))
        (v' - (z2 + (z3 + u + 3 * ω ^ 2 * (p - z1)) * dt)) (d' - (z3 + ω ^ 3 * (p - z1) * dt)) i =
      next ω dt (errorChain ω (p - z1) (v - z2) (d - z3)) i +
        errorChain ω (p' - p - dt * v) (v' - v - dt * (u + d)) (d' - d) i := by
  match i with
  | 0 => simp only [errorChain, next]; ring
  | 1 => simp only [errorChain, next]; ring
  | 2 => simp only [errorChain, next]; ring
  | _ + 3 => simp only [errorChain, next]; ring

end PositionESO

namespace ESOPositionControl

/-! ### Cycles of the controller -/

/-- A cycle: parameters, limits and the pose of the arm may be set, then the state and the setpoint,
and the controller is updated. -/
structure Cycle where
  configure : ESOPositionControl ℝ → ESOPositionControl ℝ
  states : PositionControlStates ℝ
  setpoint : LocalPositionSetpoint ℝ
  dt : ℝ
  -- what is set is not the observer
  eso : ∀ c, (configure c).eso = c.eso
  eso_input : ∀ c, (configure c).eso_input = c.eso_input
  enabled : ∀ c, (configure c).eso_update_enabled = c.eso_update_enabled
  enabled_prev : ∀ c, (configure c).eso_update_enabled_prev = c.eso_update_enabled_prev

def prepared (c : ESOPositionControl ℝ) (x : Cycle) : ESOPositionControl ℝ :=
  ((x.configure c).setState x.states).setInputSetpoint x.setpoint

noncomputable def cycle (dcm : Quatf ℝ → Matrix3f ℝ) (c : ESOPositionControl ℝ) (x : Cycle) :
    ESOPositionControl ℝ :=
  ((c.prepared x).update dcm (num x.dt)).1

/-- The controller after the first `n` cycles. -/
noncomputable def after (dcm : Quatf ℝ → Matrix3f ℝ) (c : ESOPositionControl ℝ)
    (cycles : ℕ → Cycle) : ℕ → ESOPositionControl ℝ
  | 0 => c
  | n + 1 => cycle dcm (after dcm c cycles n) (cycles n)

/-- The observer that a cycle integrates, which the enabling edge initialises. -/
noncomputable def integrated (c : ESOPositionControl ℝ) (x : Cycle) : PositionESO ℝ :=
  if c.eso_update_enabled_prev then c.eso else c.eso.resetTo x.states.position x.states.velocity

variable {dcm : Quatf ℝ → Matrix3f ℝ} {c : ESOPositionControl ℝ}

theorem cycle_eso (dcm : Quatf ℝ → Matrix3f ℝ) {x : Cycle} (hen : c.eso_update_enabled = true)
    (hv : (c.prepared x).inputValid = true) :
    (cycle dcm c x).eso = (c.integrated x).update x.states.position c.eso_input (num x.dt) := by
  have henabled : (c.prepared x).eso_update_enabled = true := (x.enabled c).trans hen
  have hprev : (c.prepared x).eso_update_enabled_prev = c.eso_update_enabled_prev :=
    x.enabled_prev c
  have heso : (c.prepared x).eso = c.eso := x.eso c
  have hinput : (c.prepared x).eso_input = c.eso_input := x.eso_input c
  rw [cycle, update_eso_of_valid hv, observedESO, if_pos henabled, hprev, heso, hinput, integrated]
  cases c.eso_update_enabled_prev <;> rfl

theorem cycle_flags (dcm : Quatf ℝ → Matrix3f ℝ) (x : Cycle) (hen : c.eso_update_enabled = true) :
    (cycle dcm c x).eso_update_enabled = true ∧ (cycle dcm c x).eso_update_enabled_prev = true := by
  have henabled : (c.prepared x).eso_update_enabled = true := (x.enabled c).trans hen
  constructor
  · rw [cycle, update_eso_update_enabled]
    exact henabled
  · rw [cycle, update_eso_update_enabled_prev]
    exact henabled

theorem after_enabled (dcm : Quatf ℝ → Matrix3f ℝ) (cycles : ℕ → Cycle)
    (hen : c.eso_update_enabled = true) (n : ℕ) :
    (after dcm c cycles n).eso_update_enabled = true := by
  induction n with
  | zero => exact hen
  | succ n ih => exact (cycle_flags dcm _ ih).1

theorem integrated_succ {cycles : ℕ → Cycle} (hen : c.eso_update_enabled = true) (n : ℕ) :
    (after dcm c cycles (n + 1)).integrated (cycles (n + 1)) =
      (after dcm c cycles (n + 1)).eso := by
  have hprev := (cycle_flags dcm (cycles n) (after_enabled dcm cycles hen n)).2
  show (if (cycle dcm (after dcm c cycles n) (cycles n)).eso_update_enabled_prev = true
    then _ else _) = _
  rw [if_pos hprev]

/-- The estimates of an axis after the first `n` cycles. -/
noncomputable def estimates (ω : ℝ) (dt u p : ℕ → ℝ) (z : ℝ × ℝ × ℝ) : ℕ → ℝ × ℝ × ℝ
  | 0 => z
  | n + 1 =>
    let z' := estimates ω dt u p z n
    let err := p n - z'.1
    (z'.1 + (z'.2.1 + 3 * ω * err) * dt n,
      z'.2.1 + (z'.2.2 + u n + 3 * ω ^ 2 * err) * dt n,
      z'.2.2 + ω ^ 3 * err * dt n)

theorem Tuned.integrated {x : Cycle} {i : Fin 3} {ω : ℝ} (ht : c.eso.Tuned i ω) :
    (c.integrated x).Tuned i ω := by
  rw [ESOPositionControl.integrated]
  split
  · exact ht
  · exact ⟨ht.beta1, ht.beta2, ht.beta3⟩

section Run

variable {cycles : ℕ → Cycle} {n : ℕ} {i : Fin 3} {ω : ℝ} {p u : ℕ → ℝ} {z : ℝ × ℝ × ℝ}

theorem estimates_after (hen : c.eso_update_enabled = true)
    (hvalid : ∀ k < n, ((after dcm c cycles k).prepared (cycles k)).inputValid = true)
    (hp : ∀ k < n, (cycles k).states.position i = num (p k))
    (hu : ∀ k < n, (after dcm c cycles k).eso_input i = num (u k))
    (htuned : c.eso.Tuned i ω)
    (hstart : (c.integrated (cycles 0)).Estimates i z.1 z.2.1 z.2.2) :
    ((after dcm c cycles n).integrated (cycles n)).Estimates i
        (estimates ω (fun k => (cycles k).dt) u p z n).1
        (estimates ω (fun k => (cycles k).dt) u p z n).2.1
        (estimates ω (fun k => (cycles k).dt) u p z n).2.2 ∧
      (after dcm c cycles n).eso.Tuned i ω := by
  induction n with
  | zero => exact ⟨hstart, htuned⟩
  | succ n ih =>
    obtain ⟨hest, ht⟩ := ih (fun k hk => hvalid k (by omega)) (fun k hk => hp k (by omega))
      fun k hk => hu k (by omega)
    have heso := cycle_eso dcm (after_enabled dcm cycles hen n) (hvalid n (Nat.lt_succ_self n))
    obtain ⟨hest', ht'⟩ := hest.update (cycles n).dt (Tuned.integrated ht)
      (hp n (Nat.lt_succ_self n)) (hu n (Nat.lt_succ_self n))
    rw [← heso] at hest' ht'
    rw [integrated_succ hen]
    exact ⟨hest', ht'⟩

end Run

/-- How far the motion is from one of constant velocity, acceleration and disturbance over a cycle,
as an acceleration. -/
def mismatch (ω dt u p v d p' v' d' : ℝ) : ℝ :=
  errorSize ω (p' - p - dt * v) (v' - v - dt * (u + d)) (d' - d)

/-- The observer in a run of the controller.  On an axis with position `p`, velocity `v` and a
disturbance `d` beyond the observer's input `u`, the error of the disturbance estimate falls
exponentially with the time that has passed, at half of the bandwidth, to a rest that the motion
accounts for; so do the errors of velocity and position. -/
theorem estimate_converges {cycles : ℕ → Cycle} {n : ℕ} {i : Fin 3} {ω S z1 z2 z3 : ℝ}
    {p v d u : ℕ → ℝ} (hω : 0 < ω) (hen : c.eso_update_enabled = true)
    (hvalid : ∀ k < n, ((after dcm c cycles k).prepared (cycles k)).inputValid = true)
    (hdt : ∀ k < n, 0 ≤ (cycles k).dt ∧ ω * (cycles k).dt ≤ 1)
    (hp : ∀ k < n, (cycles k).states.position i = num (p k))
    (hu : ∀ k < n, (after dcm c cycles k).eso_input i = num (u k))
    (htuned : c.eso.Tuned i ω) (hstart : (c.integrated (cycles 0)).Estimates i z1 z2 z3)
    (hmismatch : ∀ k < n,
      mismatch ω (cycles k).dt (u k) (p k) (v k) (d k) (p (k + 1)) (v (k + 1)) (d (k + 1)) ≤
        (cycles k).dt * S) (hS : 0 ≤ S) (hn : 0 < n) :
    ∃ z1' z2' z3', (after dcm c cycles n).eso.Estimates i z1' z2' z3' ∧
      let b := Real.exp (-(ω / 2 * ∑ k ∈ Finset.range n, (cycles k).dt)) *
        errorSize ω (p 0 - z1) (v 0 - z2) (d 0 - z3) + S / (ω / 2)
      |d n - z3'| ≤ 7 * b ∧ ω * |v n - z2'| ≤ 10 * b ∧ ω ^ 2 * |p n - z1'| ≤ 4 * b := by
  obtain ⟨hest, -⟩ := estimates_after (z := (z1, z2, z3)) hen hvalid hp hu htuned hstart
  obtain ⟨m, rfl⟩ := Nat.exists_eq_add_of_le' hn
  rw [integrated_succ hen] at hest
  refine ⟨_, _, _, hest, ?_⟩
  let Z := estimates ω (fun k => (cycles k).dt) u p (z1, z2, z3)
  have hrun := Within.run_exp (m := 3) (n := m + 1) (S := S)
    (y := fun k => errorChain ω (p k - (Z k).1) (v k - (Z k).2.1) (d k - (Z k).2.2))
    (w := fun k => errorChain ω (p (k + 1) - p k - (cycles k).dt * v k)
      (v (k + 1) - v k - (cycles k).dt * (u k + d k)) (d (k + 1) - d k))
    (h := fun k => (cycles k).dt) hω
    (fun k _ j => PositionESO.errorChain_update ω _ _ _ _ _ _ _ _ _ _ _ j) hdt
    (within_errorChain hω _ _ _) (errorSize_nonneg hω.le _ _ _)
    (fun k hk => (within_errorChain hω _ _ _).mono (hmismatch k hk)) hS
  obtain ⟨hpos, hvel, hdist⟩ := Within.errors hω hrun
  exact ⟨hdist, hvel, hpos⟩

noncomputable def holdPosition : Cycle where
  configure := id
  states := atRest
  setpoint := positionSetpoint fun _ => 0
  dt := 0.004
  eso _ := rfl
  eso_input _ := rfl
  enabled _ := rfl
  enabled_prev _ := rfl

/-- One cycle with a disturbance of 1 m/s² that has just set in. -/
theorem estimate_converges_push :
    ∃ z1' z2' z3', (after rotationMatrix (tuned.setESOBandwidth fun _ => num 2)
        (fun _ => holdPosition) 1).eso.Estimates 2 z1' z2' z3' ∧
      let b := Real.exp (-(2 / 2 * ∑ _k ∈ Finset.range 1, holdPosition.dt)) *
        errorSize 2 (0 - 0) (0.004 * (0 : ℕ) - 0) (1 - 0) + 0 / (2 / 2)
      |1 - z3'| ≤ 7 * b ∧ 2 * |0.004 * (1 : ℕ) - z2'| ≤ 10 * b ∧ 2 ^ 2 * |0 - z1'| ≤ 4 * b := by
  refine estimate_converges (p := fun _ => 0) (v := fun k => 0.004 * (k : ℝ)) (d := fun _ => 1)
    (u := fun _ => 0) two_pos rfl ?_ ?_ ?_ ?_
    (PositionESO.tuned_setBandwidth _ rfl) ⟨rfl, rfl, rfl⟩ ?_ (le_refl 0) one_pos
  · intro k hk
    obtain rfl : k = 0 := by omega
    rfl
  · intro k _
    show (0 : ℝ) ≤ 0.004 ∧ (2 : ℝ) * 0.004 ≤ 1
    norm_num
  · intro k _
    rfl
  · intro k hk
    obtain rfl : k = 0 := by omega
    rfl
  · intro k hk
    obtain rfl : k = 0 := by omega
    show errorSize 2 (0 - 0 - 0.004 * (0.004 * ((0 : ℕ) : ℝ)))
      (0.004 * ((0 + 1 : ℕ) : ℝ) - 0.004 * ((0 : ℕ) : ℝ) - 0.004 * (0 + 1)) (1 - 1) ≤ 0.004 * 0
    norm_num [errorSize]

end ESOPositionControl
