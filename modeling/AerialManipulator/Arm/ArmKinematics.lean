/-
`ArmKinematics`: centre of mass and inertia of the vehicle with its arm.

Two model profiles share one object.  `computeSystemCoM` leaves the link
positions and the centre of mass in a cache, keyed by the joint angles;
`computeSystemInertia` recomputes them only when the key differs.

* `UavArmV4` has a base and four links and works in the body frame throughout;
* `UamV5` has a base and two links, works in the frame of its model file
  (forward, left, up) and converts its results to the body frame (forward,
  right, down).

Numbers are exact; `sin`, `cos` and `pi` are those of the class `Elementary`.
-/
import AerialManipulator.Lib.WithNaN

open Matrix

/-- `eso_common::ModelProfile`. -/
inductive ModelProfile where
  | UavArmV4
  | UamV5
  deriving DecidableEq, Repr

def ModelProfile.joints : ModelProfile → List (Fin 4)
  | .UavArmV4 => [0, 1, 2, 3]
  | .UamV5 => [0, 1]

abbrev Vec3 (K : Type*) := Fin 3 → K

abbrev Mat3 (K : Type*) := Matrix (Fin 3) (Fin 3) K

/-- The joint angles; `UamV5` reads the first two only. -/
abbrev Joints (K : Type*) := Fin 4 → K

/-- The cached positions of the link centres of mass and of the system. -/
structure LinkPositions (K : Type*) where
  p1 : Vec3 K
  p2 : Vec3 K
  p3 : Vec3 K
  p4 : Vec3 K
  com : Vec3 K

structure ArmKinematics (K : Type*) where
  mass_total_system : K
  base_com_offset : Vec3 K
  base_inertia_val : Mat3 K
  model_profile : ModelProfile
  cached : LinkPositions K
  cached_q : Joints K
  uam_v5_cache_valid : Bool

namespace ArmKinematics

variable {K : Type*} [Field K]

def init (K : Type*) [Field K] : ArmKinematics K where
  mass_total_system := 1.5
  base_com_offset := 0
  base_inertia_val := 0
  model_profile := .UavArmV4
  cached := ⟨0, 0, 0, 0, 0⟩
  cached_q := 0
  uam_v5_cache_valid := false

def setModelProfile (a : ArmKinematics K) (profile : ModelProfile) : ArmKinematics K :=
  { a with model_profile := profile, uam_v5_cache_valid := false }

def setParameters (a : ArmKinematics K) (mass_total : K) (base_com_offset : Vec3 K)
    (base_inertia : Mat3 K) : ArmKinematics K :=
  { a with
    mass_total_system := mass_total
    base_com_offset := base_com_offset
    base_inertia_val := base_inertia
    uam_v5_cache_valid := false }

/-! ### Rotations and poses -/

/-- The matrix of the cross product with `v`. -/
def skew (v : Vec3 K) : Mat3 K := !![0, -v 2, v 1; v 2, 0, -v 0; -v 1, v 0, 0]

section Trig

variable [Elementary K]

def rotZ (angle : K) : Mat3 K :=
  let c := Elementary.cos angle
  let s := Elementary.sin angle
  !![c, -s, 0; s, c, 0; 0, 0, 1]

def rotX (angle : K) : Mat3 K :=
  let c := Elementary.cos angle
  let s := Elementary.sin angle
  !![1, 0, 0; 0, c, -s; 0, s, c]

def rotY (angle : K) : Mat3 K :=
  let c := Elementary.cos angle
  let s := Elementary.sin angle
  !![c, 0, s; 0, 1, 0; -s, 0, c]

end Trig

/-- A frame relative to its parent: rotation and origin. -/
structure Pose3f (K : Type*) where
  R : Mat3 K
  t : Vec3 K

def composePose (parent child : Pose3f K) : Pose3f K :=
  ⟨parent.R * child.R, parent.t + parent.R *ᵥ child.t⟩

def transformPoint (pose : Pose3f K) (local_point : Vec3 K) : Vec3 K :=
  pose.t + pose.R *ᵥ local_point

def fluToFrd : Mat3 K := !![1, 0, 0; 0, -1, 0; 0, 0, -1]

def fluToFrdVector (v_flu : Vec3 K) : Vec3 K := ![v_flu 0, -v_flu 1, -v_flu 2]

def fluToFrdMatrix (m_flu : Mat3 K) : Mat3 K := fluToFrd * m_flu * fluToFrdᵀ

/-- One addend of the inertia: the local inertia turned into the body frame and
moved by the parallel-axis theorem. -/
def movedInertia (R I_local : Mat3 K) (r : Vec3 K) (m : K) : Mat3 K :=
  R * I_local * Rᵀ + m • ((skew r)ᵀ * skew r)

section Profiles

variable [Elementary K]

def makeMdhPose (alpha_prev a_prev theta_i d_i : K) : Pose3f K :=
  ⟨rotX alpha_prev * rotZ theta_i, rotX alpha_prev *ᵥ ![a_prev, 0, d_i]⟩

/-! ### The profile `UavArmV4` -/

/-- The positions that `computeSystemCoM_UavArmV4` computes. -/
def positions_UavArmV4 (q : Joints K) : LinkPositions K :=
  let m_base : K := 0.844401 + 0.015
  let m1 : K := 0.250494
  let m2 : K := 0.020149
  let m3 : K := 0.0397105
  let m4 : K := 0.0631624
  let m_grip : K := 0.016
  let m_total := m_base + m1 + m2 + m3 + m4 + m_grip
  let z_base_to_j1 : K := 0.1745
  let L1 : K := 0.132
  let L2 : K := 0.0885
  let L3 : K := 0.0885
  let com1_z : K := 0.043715
  let com2_x : K := 0.04063
  let com3_x : K := 0.025422
  let com4_x : K := 0.030336
  let c0 := Elementary.cos (q 0)
  let s0 := Elementary.sin (q 0)
  let c1 := Elementary.cos (q 1)
  let s1 := Elementary.sin (q 1)
  let c12 := Elementary.cos (q 1 + q 2)
  let s12 := Elementary.sin (q 1 + q 2)
  let c123 := Elementary.cos (q 1 + q 2 + q 3)
  let s123 := Elementary.sin (q 1 + q 2 + q 3)
  let p_base_com : Vec3 K := ![0.000642, 0, -0.193246]
  let p_j1 : Vec3 K := ![0, 0, z_base_to_j1]
  let p1_com := p_j1 + ![0, 0, com1_z]
  let p_j2 := p_j1 + ![c0 * L1 * s1, s0 * L1 * s1, L1 * c1]
  let p2_com := p_j2 + ![c0 * com2_x * c1, s0 * com2_x * c1, -com2_x * s1]
  let p_j3 := p_j2 + ![c0 * L2 * s12, s0 * L2 * s12, L2 * c12]
  let p3_com := p_j3 + ![c0 * com3_x * c12, s0 * com3_x * c12, -com3_x * s12]
  let p_j4 := p_j3 + ![c0 * L3 * s123, s0 * L3 * s123, L3 * c123]
  let p4_com := p_j4 + ![c0 * com4_x * c123, s0 * com4_x * c123, -com4_x * s123]
  { p1 := p1_com
    p2 := p2_com
    p3 := p3_com
    p4 := p4_com
    com := m_total⁻¹ • (m_base • p_base_com + m1 • p1_com + m2 • p2_com + m3 • p3_com
      + (m4 + m_grip) • p4_com) }

def computeSystemCoM_UavArmV4 (a : ArmKinematics K) (q : Joints K) : ArmKinematics K × Vec3 K :=
  let positions := positions_UavArmV4 q
  ({ a with cached := positions, cached_q := q }, positions.com)

/-- The sum of `computeSystemInertia_UavArmV4` over the cached positions. -/
def inertia_UavArmV4 (base_inertia_val : Mat3 K) (cached : LinkPositions K) (q : Joints K) :
    Mat3 K :=
  let m1 : K := 0.250494
  let m2 : K := 0.020149
  let m3 : K := 0.0397105
  let m4 : K := 0.0631624 + 0.016
  let I1_local : Mat3 K := diagonal ![0.005, 0.005, 0.005]
  let I2_local : Mat3 K := diagonal ![0.005, 0.005, 0.005]
  let I3_local : Mat3 K := diagonal ![0.003, 0.003, 0.003]
  let I4_local : Mat3 K := diagonal ![0.003, 0.003, 0.003]
  let R1 := rotZ (q 0)
  let R2 := R1 * rotY (q 1)
  let R3 := R2 * rotY (q 2)
  let R4 := R3 * rotY (q 3)
  base_inertia_val + movedInertia R1 I1_local (cached.p1 - cached.com) m1
    + movedInertia R2 I2_local (cached.p2 - cached.com) m2
    + movedInertia R3 I3_local (cached.p3 - cached.com) m3
    + movedInertia R4 I4_local (cached.p4 - cached.com) m4

/-! ### The profile `UamV5` -/

/-- `T_B_1`, the frame of the first link; the source writes the chain out in
both functions. -/
def pose1_UamV5 (q : Joints K) : Pose3f K :=
  let theta1 := 1 * (q 0 + 0)
  let T_B_J1_mount : Pose3f K := ⟨rotX (-Elementary.pi), ![0.115, 0, -0.09]⟩
  let T_J1_var := makeMdhPose 0 0 theta1 0
  composePose T_B_J1_mount T_J1_var

/-- `T_B_2`, the frame of the second link with the gripper. -/
def pose2_UamV5 (q : Joints K) : Pose3f K :=
  let theta2 := 1 * (q 1 + 0)
  let T_1_2_mount : Pose3f K := ⟨rotX (-(Elementary.pi / 2)), ![0, 0, 0.072]⟩
  let T_2_var := makeMdhPose 0 0 theta2 0
  composePose (composePose (pose1_UamV5 q) T_1_2_mount) T_2_var

/-- The positions that `computeSystemCoM_UamV5` computes, in the frame of the
model file. -/
def positions_UamV5 (q : Joints K) : LinkPositions K :=
  let m_base : K := 3.6678
  let m1 : K := 0.593
  let m2g : K := 0.594
  let m_total := m_base + m1 + m2g
  let p_base_com : Vec3 K := ![-0.044, 0, -0.046]
  let p1_com := transformPoint (pose1_UamV5 q) ![0, 0, 0]
  let p2g_com := transformPoint (pose2_UamV5 q) ![0.075, 0, 0]
  { p1 := p1_com
    p2 := p2g_com
    p3 := 0
    p4 := 0
    com := m_total⁻¹ • (m_base • p_base_com + m1 • p1_com + m2g • p2g_com) }

def computeSystemCoM_UamV5 (a : ArmKinematics K) (q : Joints K) : ArmKinematics K × Vec3 K :=
  let positions := positions_UamV5 q
  ({ a with cached := positions, cached_q := q, uam_v5_cache_valid := true },
    fluToFrdVector positions.com)

/-- The sum of `computeSystemInertia_UamV5` over the cached positions. -/
def inertia_UamV5 (cached : LinkPositions K) (q : Joints K) : Mat3 K :=
  let m_base : K := 3.6678
  let m1 : K := 0.593
  let m2g : K := 0.594
  let I_base_local : Mat3 K := diagonal ![0.049436, 0.052665, 0.086619]
  let I1_local : Mat3 K := diagonal ![0.000839, 0.000791, 0.000943]
  let I2g_local : Mat3 K := diagonal ![0.000302, 0.002811, 0.002717]
  let r_base : Vec3 K := ![-0.044, 0, -0.046] - cached.com
  fluToFrdMatrix
    (I_base_local + m_base • ((skew r_base)ᵀ * skew r_base)
      + movedInertia (pose1_UamV5 q).R I1_local (cached.p1 - cached.com) m1
      + movedInertia (pose2_UamV5 q).R I2g_local (cached.p2 - cached.com) m2g)

/-! ### The two calls -/

def computeSystemCoM (a : ArmKinematics K) (q : Joints K) : ArmKinematics K × Vec3 K :=
  match a.model_profile with
  | .UamV5 => a.computeSystemCoM_UamV5 q
  | .UavArmV4 => a.computeSystemCoM_UavArmV4 q

variable [LinearOrder K]

/-- Joint `i` differs from the cached one by more than `q_eps`. -/
def jointMoved (a : ArmKinematics K) (q : Joints K) (i : Fin 4) : Bool :=
  decide (1e-6 < |q i - a.cached_q i|)

def computeSystemInertia_UavArmV4 (a : ArmKinematics K) (q : Joints K) : ArmKinematics K × Mat3 K :=
  let a :=
    if a.jointMoved q 0 || a.jointMoved q 1 || a.jointMoved q 2 || a.jointMoved q 3 then
      (a.computeSystemCoM q).1
    else a
  (a, inertia_UavArmV4 a.base_inertia_val a.cached q)

def computeSystemInertia_UamV5 (a : ArmKinematics K) (q : Joints K) : ArmKinematics K × Mat3 K :=
  let a :=
    if a.jointMoved q 0 || a.jointMoved q 1 || !a.uam_v5_cache_valid then
      (a.computeSystemCoM_UamV5 q).1
    else a
  (a, inertia_UamV5 a.cached q)

def computeSystemInertia (a : ArmKinematics K) (q : Joints K) : ArmKinematics K × Mat3 K :=
  match a.model_profile with
  | .UamV5 => a.computeSystemInertia_UamV5 q
  | .UavArmV4 => a.computeSystemInertia_UavArmV4 q

/-! ### The calls in terms of the cache -/

def positions : ModelProfile → Joints K → LinkPositions K
  | .UavArmV4 => positions_UavArmV4
  | .UamV5 => positions_UamV5

def inertia (base_inertia_val : Mat3 K) : ModelProfile → LinkPositions K → Joints K → Mat3 K
  | .UavArmV4 => inertia_UavArmV4 base_inertia_val
  | .UamV5 => inertia_UamV5

/-- `computeSystemInertia` recomputes the positions. -/
def stale (a : ArmKinematics K) (q : Joints K) : Bool :=
  a.model_profile.joints.any (a.jointMoved q)
    || (decide (a.model_profile = .UamV5) && !a.uam_v5_cache_valid)

/-- `q'` agrees with `q` on the joints of the profile. -/
def Near (profile : ModelProfile) (q' q : Joints K) : Prop :=
  ∀ i ∈ profile.joints, |q' i - q i| ≤ 1e-6

variable {a : ArmKinematics K}

omit [LinearOrder K] in
theorem computeSystemCoM_fst (q : Joints K) :
    (a.computeSystemCoM q).1 =
      { a with
        cached := positions a.model_profile q
        cached_q := q
        uam_v5_cache_valid :=
          decide (a.model_profile = .UamV5) || a.uam_v5_cache_valid } := by
  cases h : a.model_profile <;>
    simp [computeSystemCoM, h, computeSystemCoM_UavArmV4, computeSystemCoM_UamV5, positions]

theorem computeSystemInertia_fst (q : Joints K) :
    (a.computeSystemInertia q).1 = if a.stale q then (a.computeSystemCoM q).1 else a := by
  cases h : a.model_profile <;>
    simp [computeSystemInertia, h, computeSystemInertia_UavArmV4, computeSystemInertia_UamV5,
      stale, ModelProfile.joints, computeSystemCoM, or_assoc]

theorem computeSystemInertia_snd (q : Joints K) :
    (a.computeSystemInertia q).2 = inertia a.base_inertia_val a.model_profile
      (if a.stale q then positions a.model_profile q else a.cached) q := by
  have hfst := computeSystemInertia_fst (a := a) q
  have hsnd : (a.computeSystemInertia q).2 = inertia (a.computeSystemInertia q).1.base_inertia_val
      a.model_profile (a.computeSystemInertia q).1.cached q := by
    cases h : a.model_profile <;> simp only [computeSystemInertia, h] <;> rfl
  rw [hsnd, hfst]
  split_ifs <;> simp only [computeSystemCoM_fst]

omit [Elementary K] in
theorem near_refl [IsStrictOrderedRing K] (profile : ModelProfile) (q : Joints K) :
    Near profile q q := by
  intro i _
  rw [sub_self, abs_zero]
  positivity

theorem computeSystemInertia_of_near {q q' : Joints K} (h : Near a.model_profile q' q) :
    ((a.computeSystemCoM q').1.computeSystemInertia q).2
      = inertia a.base_inertia_val a.model_profile (positions a.model_profile q') q := by
  have hstale : (a.computeSystemCoM q').1.stale q = false := by
    have hmoved : a.model_profile.joints.any ((a.computeSystemCoM q').1.jointMoved q) = false := by
      rw [List.any_eq_false]
      intro i hi
      rw [jointMoved, decide_eq_true_eq, not_lt, computeSystemCoM_fst, abs_sub_comm]
      exact h i hi
    have hprofile : (a.computeSystemCoM q').1.model_profile = a.model_profile := by
      rw [computeSystemCoM_fst]
    rw [stale, hprofile, hmoved, Bool.false_or, computeSystemCoM_fst]
    cases a.model_profile <;> rfl
  rw [computeSystemInertia_snd, hstale, computeSystemCoM_fst]
  rfl

end Profiles

end ArmKinematics
