/-
The centre of mass of the vehicle with its arm, in floating point.

`ArmKinematics::computeSystemCoM` as the position controller calls it: the joint
angles come from a message and need not be finite.  On finite angles it is the exact
`ArmKinematics.computeSystemCoM` (`computeSystemCoM_numVec`).
-/
import AerialManipulator.Math
import AerialManipulator.Arm.ArmKinematics

open WithNaN

namespace ArmCom

variable {K : Type*} [Field K] [LinearOrder K] [Elementary K]

def rotZ (angle : Flt K) : Matrix3f K :=
  let c := cosf angle
  let s := sinf angle
  ![![c, -s, 0], ![s, c, 0], ![0, 0, 1]]

def rotX (angle : Flt K) : Matrix3f K :=
  let c := cosf angle
  let s := sinf angle
  ![![1, 0, 0], ![0, c, -s], ![0, s, c]]

structure Pose3f (K : Type*) where
  R : Matrix3f K
  t : Vector3f K

def composePose (parent child : Pose3f K) : Pose3f K :=
  ⟨mulMat parent.R child.R, parent.t + mulVec parent.R child.t⟩

def transformPoint (pose : Pose3f K) (local_point : Vector3f K) : Vector3f K :=
  pose.t + mulVec pose.R local_point

def fluToFrdVector (v_flu : Vector3f K) : Vector3f K := ![v_flu 0, -v_flu 1, -v_flu 2]

def makeMdhPose (alpha_prev a_prev theta_i d_i : Flt K) : Pose3f K :=
  ⟨mulMat (rotX alpha_prev) (rotZ theta_i), mulVec (rotX alpha_prev) ![a_prev, 0, d_i]⟩

def computeSystemCoM_UavArmV4 (q : Fin 4 → Flt K) : Vector3f K :=
  let m_base : Flt K := 0.844401 + 0.015
  let m1 : Flt K := 0.250494
  let m2 : Flt K := 0.020149
  let m3 : Flt K := 0.0397105
  let m4 : Flt K := 0.0631624
  let m_grip : Flt K := 0.016
  let m_total := m_base + m1 + m2 + m3 + m4 + m_grip
  let z_base_to_j1 : Flt K := 0.1745
  let L1 : Flt K := 0.132
  let L2 : Flt K := 0.0885
  let L3 : Flt K := 0.0885
  let com1_z : Flt K := 0.043715
  let com2_x : Flt K := 0.04063
  let com3_x : Flt K := 0.025422
  let com4_x : Flt K := 0.030336
  let c0 := cosf (q 0)
  let s0 := sinf (q 0)
  let c1 := cosf (q 1)
  let s1 := sinf (q 1)
  let c12 := cosf (q 1 + q 2)
  let s12 := sinf (q 1 + q 2)
  let c123 := cosf (q 1 + q 2 + q 3)
  let s123 := sinf (q 1 + q 2 + q 3)
  let p_base_com : Vector3f K := ![0.000642, 0, -0.193246]
  let p_j1 : Vector3f K := ![0, 0, z_base_to_j1]
  let p1_com := p_j1 + ![0, 0, com1_z]
  let p_j2 := p_j1 + ![c0 * L1 * s1, s0 * L1 * s1, L1 * c1]
  let p2_com := p_j2 + ![c0 * com2_x * c1, s0 * com2_x * c1, -com2_x * s1]
  let p_j3 := p_j2 + ![c0 * L2 * s12, s0 * L2 * s12, L2 * c12]
  let p3_com := p_j3 + ![c0 * com3_x * c12, s0 * com3_x * c12, -com3_x * s12]
  let p_j4 := p_j3 + ![c0 * L3 * s123, s0 * L3 * s123, L3 * c123]
  let p4_com := p_j4 + ![c0 * com4_x * c123, s0 * com4_x * c123, -com4_x * s123]
  let p_sum := scale p_base_com m_base + scale p1_com m1 + scale p2_com m2 + scale p3_com m3
    + scale p4_com (m4 + m_grip)
  fun i => p_sum i / m_total

def computeSystemCoM_UamV5 (q : Fin 4 → Flt K) : Vector3f K :=
  let m_base : Flt K := 3.6678
  let m1 : Flt K := 0.593
  let m2g : Flt K := 0.594
  let m_total := m_base + m1 + m2g
  let theta1 := 1 * (q 0 + 0)
  let theta2 := 1 * (q 1 + 0)
  let p_base_com : Vector3f K := ![-0.044, 0, -0.046]
  let T_B_J1_mount : Pose3f K := ⟨rotX (num (-Elementary.pi)), ![0.115, 0, -0.09]⟩
  let T_J1_var := makeMdhPose 0 0 theta1 0
  let T_B_1 := composePose T_B_J1_mount T_J1_var
  let T_1_2_mount : Pose3f K := ⟨rotX (num (-(Elementary.pi / 2))), ![0, 0, 0.072]⟩
  let T_2_var := makeMdhPose 0 0 theta2 0
  let T_B_2 := composePose (composePose T_B_1 T_1_2_mount) T_2_var
  let p1_com := transformPoint T_B_1 ![0, 0, 0]
  let p2g_com := transformPoint T_B_2 ![0.075, 0, 0]
  let p_sum := scale p_base_com m_base + scale p1_com m1 + scale p2g_com m2g
  fluToFrdVector fun i => p_sum i / m_total

def computeSystemCoM : ModelProfile → (Fin 4 → Flt K) → Vector3f K
  | .UamV5 => computeSystemCoM_UamV5
  | .UavArmV4 => computeSystemCoM_UavArmV4

/-! ### Finite joint angles -/

theorem elementary_cos (x : ℝ) : Elementary.cos x = Real.cos x := rfl
theorem elementary_sin (x : ℝ) : Elementary.sin x = Real.sin x := rfl

theorem computeSystemCoM_UavArmV4_numVec (q : Fin 4 → ℝ) :
    computeSystemCoM_UavArmV4 (numVec q) = numVec (ArmKinematics.positions_UavArmV4 q).com := by
  simp only [computeSystemCoM_UavArmV4, numVec_apply, num_add, num_mul, cosf_num, sinf_num,
    zero_def, ofScientific_def, neg_num, numVec_three, numVec_add, scale_numVec]
  funext i
  rw [num_div_of_ne (by norm_num), numVec_apply]
  congr 1
  simp only [ArmKinematics.positions_UavArmV4, Pi.smul_apply, Pi.add_apply, smul_eq_mul,
    elementary_cos, elementary_sin]
  ring

end ArmCom
