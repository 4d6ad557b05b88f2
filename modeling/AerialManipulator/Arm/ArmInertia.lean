/-
The inertia that `ArmKinematics` computes, against the sum over its bodies.

* `inertia_UamV5_eq` — the profile `UamV5` computes the inertia of its three
  bodies about their centre of mass, in the body frame;
* `inertia_UavArmV4_eq` — the profile `UavArmV4` lacks the parallel-axis term of
  its base;
* `system_inertia_law` — both are positive definite, and the inertia is that of
  the bodies exactly for `UamV5`.
-/
import AerialManipulator.Arm.ArmKinematics
import AerialManipulator.Lib.RigidBody

open Matrix RigidBody

namespace ArmKinematics

/-! ### Rotations -/

theorem rotZ_orthogonal (x : ℝ) : rotZ x * (rotZ x)ᵀ = 1 := by
  have h := Real.sin_sq_add_cos_sq x
  ext i j
  fin_cases i <;> fin_cases j <;>
    simp [rotZ, Elementary.sin, Elementary.cos, Matrix.mul_apply, Fin.sum_univ_three] <;>
    nlinarith

theorem rotX_orthogonal (x : ℝ) : rotX x * (rotX x)ᵀ = 1 := by
  have h := Real.sin_sq_add_cos_sq x
  ext i j
  fin_cases i <;> fin_cases j <;>
    simp [rotX, Elementary.sin, Elementary.cos, Matrix.mul_apply, Fin.sum_univ_three] <;>
    nlinarith

theorem rotY_orthogonal (x : ℝ) : rotY x * (rotY x)ᵀ = 1 := by
  have h := Real.sin_sq_add_cos_sq x
  ext i j
  fin_cases i <;> fin_cases j <;>
    simp [rotY, Elementary.sin, Elementary.cos, Matrix.mul_apply, Fin.sum_univ_three] <;>
    nlinarith

theorem fluToFrd_orthogonal : (fluToFrd : Mat3 ℝ) * fluToFrdᵀ = 1 := by
  ext i j
  fin_cases i <;> fin_cases j <;> simp [fluToFrd, Matrix.mul_apply, Fin.sum_univ_three]

theorem orthogonal_mul {A B : Mat3 ℝ} (hA : A * Aᵀ = 1) (hB : B * Bᵀ = 1) :
    A * B * (A * B)ᵀ = 1 := by
  rw [transpose_mul, ← mul_assoc, mul_assoc A, hB, mul_one, hA]

theorem pose1_orthogonal (q : Joints ℝ) : (pose1_UamV5 q).R * (pose1_UamV5 q).Rᵀ = 1 :=
  orthogonal_mul (rotX_orthogonal _) (orthogonal_mul (rotX_orthogonal _) (rotZ_orthogonal _))

theorem pose2_orthogonal (q : Joints ℝ) : (pose2_UamV5 q).R * (pose2_UamV5 q).Rᵀ = 1 :=
  orthogonal_mul (orthogonal_mul (pose1_orthogonal q) (rotX_orthogonal _))
    (orthogonal_mul (rotX_orthogonal _) (rotZ_orthogonal _))

theorem fluToFrdVector_eq (v : Vec3 ℝ) : fluToFrdVector v = fluToFrd *ᵥ v := by
  funext i
  fin_cases i <;> simp [fluToFrdVector, fluToFrd, mulVec, dotProduct, Fin.sum_univ_three]

theorem skew_transpose_mul_skew (r : Vec3 ℝ) : (skew r)ᵀ * skew r = parallelAxis r := by
  ext i j
  fin_cases i <;> fin_cases j <;>
    simp [skew, parallelAxis, Matrix.mul_apply, vecMulVec_apply, dotProduct, Fin.sum_univ_three] <;>
    ring

theorem movedInertia_eq (R I_local : Mat3 ℝ) (r : Vec3 ℝ) (m : ℝ) :
    movedInertia R I_local r m = R * I_local * Rᵀ + m • parallelAxis r := by
  rw [movedInertia, skew_transpose_mul_skew]

theorem posDef_diagonal {x y z : ℝ} (hx : 0 < x) (hy : 0 < y) (hz : 0 < z) :
    (diagonal ![x, y, z] : Mat3 ℝ).PosDef := by
  refine PosDef.diagonal fun i => ?_
  fin_cases i
  exacts [hx, hy, hz]

/-! ### The bodies of the profiles -/

section Bodies

variable {I : Mat3 ℝ} (hI : I.PosDef) (q : Joints ℝ)

/-- The base of `UavArmV4` with its inertia `I`. -/
noncomputable def base_UavArmV4 : Body (Fin 3) where
  mass := 0.844401 + 0.015
  mass_pos := by norm_num
  position := ![0.000642, 0, -0.193246]
  R := 1
  R_orthogonal := by rw [transpose_one, mul_one]
  inertia := I
  inertia_posDef := hI

/-- The links of `UavArmV4`, the last one with the gripper. -/
noncomputable def links_UavArmV4 : List (Body (Fin 3)) :=
  let h1 := rotZ_orthogonal (q 0)
  let h2 := orthogonal_mul h1 (rotY_orthogonal (q 1))
  let h3 := orthogonal_mul h2 (rotY_orthogonal (q 2))
  let h4 := orthogonal_mul h3 (rotY_orthogonal (q 3))
  let I12 : Mat3 ℝ := diagonal ![0.005, 0.005, 0.005]
  let I34 : Mat3 ℝ := diagonal ![0.003, 0.003, 0.003]
  have hI12 : I12.PosDef := posDef_diagonal (by norm_num) (by norm_num) (by norm_num)
  have hI34 : I34.PosDef := posDef_diagonal (by norm_num) (by norm_num) (by norm_num)
  let p := positions_UavArmV4 q
  [⟨0.250494, by norm_num, p.p1, _, h1, I12, hI12⟩,
    ⟨0.020149, by norm_num, p.p2, _, h2, I12, hI12⟩,
    ⟨0.0397105, by norm_num, p.p3, _, h3, I34, hI34⟩,
    ⟨0.0631624 + 0.016, by norm_num, p.p4, _, h4, I34, hI34⟩]

/-- The base of `UamV5`; its inertia is a constant of the source. -/
noncomputable def base_UamV5 : Body (Fin 3) where
  mass := 3.6678
  mass_pos := by norm_num
  position := ![-0.044, 0, -0.046]
  R := 1
  R_orthogonal := by rw [transpose_one, mul_one]
  inertia := diagonal ![0.049436, 0.052665, 0.086619]
  inertia_posDef := posDef_diagonal (by norm_num) (by norm_num) (by norm_num)

/-- The links of `UamV5` in the frame of the model file. -/
noncomputable def links_UamV5 : List (Body (Fin 3)) :=
  [{ mass := 0.593
     mass_pos := by norm_num
     position := (positions_UamV5 q).p1
     R := (pose1_UamV5 q).R
     R_orthogonal := pose1_orthogonal q
     inertia := diagonal ![0.000839, 0.000791, 0.000943]
     inertia_posDef := posDef_diagonal (by norm_num) (by norm_num) (by norm_num) },
    { mass := 0.594
      mass_pos := by norm_num
      position := (positions_UamV5 q).p2
      R := (pose2_UamV5 q).R
      R_orthogonal := pose2_orthogonal q
      inertia := diagonal ![0.000302, 0.002811, 0.002717]
      inertia_posDef := posDef_diagonal (by norm_num) (by norm_num) (by norm_num) }]

noncomputable def bodies : ModelProfile → List (Body (Fin 3))
  | .UavArmV4 => base_UavArmV4 hI :: links_UavArmV4 q
  | .UamV5 => (base_UamV5 :: links_UamV5 q).map (Body.rotate fluToFrd fluToFrd_orthogonal)

end Bodies

variable {I : Mat3 ℝ} (hI : I.PosDef) (q : Joints ℝ)

theorem com_UavArmV4_eq :
    (positions_UavArmV4 q).com = centerOfMass (base_UavArmV4 hI :: links_UavArmV4 q) := by
  simp only [positions_UavArmV4, centerOfMass, totalMass, links_UavArmV4, base_UavArmV4,
    List.map_cons, List.map_nil, List.sum_cons, List.sum_nil, add_zero, add_assoc]

theorem inertia_UavArmV4_eq (I : Mat3 ℝ) :
    inertia_UavArmV4 I (positions_UavArmV4 q) q
      = I + inertiaAbout (positions_UavArmV4 q).com (links_UavArmV4 q) := by
  simp only [inertia_UavArmV4, movedInertia_eq, inertiaAbout, links_UavArmV4, Body.inertiaAt,
    List.map_cons, List.map_nil, List.sum_cons, List.sum_nil, add_zero, add_assoc]

theorem com_UamV5_eq : (positions_UamV5 q).com = centerOfMass (base_UamV5 :: links_UamV5 q) := by
  simp only [positions_UamV5, centerOfMass, totalMass, links_UamV5, base_UamV5,
    List.map_cons, List.map_nil, List.sum_cons, List.sum_nil, add_zero, add_assoc]

theorem inertia_UamV5_eq :
    inertia_UamV5 (positions_UamV5 q) q = fluToFrdMatrix
      (inertiaAbout (positions_UamV5 q).com (base_UamV5 :: links_UamV5 q)) := by
  simp only [inertia_UamV5, movedInertia_eq, skew_transpose_mul_skew, inertiaAbout, links_UamV5,
    base_UamV5, Body.inertiaAt, List.map_cons, List.map_nil, List.sum_cons, List.sum_nil, add_zero,
    add_assoc, one_mul, transpose_one, mul_one]

/-! ### The base of `UavArmV4` -/

/-- The centre of mass of `UavArmV4` lies between that of its base and the
origin, in every configuration. -/
theorem com_UavArmV4_z :
    -0.193246 < (positions_UavArmV4 q).com 2 ∧ (positions_UavArmV4 q).com 2 < 0 := by
  have hc1 := Real.neg_one_le_cos (q 1)
  have hc1' := Real.cos_le_one (q 1)
  have hs1 := Real.neg_one_le_sin (q 1)
  have hs1' := Real.sin_le_one (q 1)
  have hc2 := Real.neg_one_le_cos (q 1 + q 2)
  have hc2' := Real.cos_le_one (q 1 + q 2)
  have hs2 := Real.neg_one_le_sin (q 1 + q 2)
  have hs2' := Real.sin_le_one (q 1 + q 2)
  have hc3 := Real.neg_one_le_cos (q 1 + q 2 + q 3)
  have hc3' := Real.cos_le_one (q 1 + q 2 + q 3)
  have hs3 := Real.neg_one_le_sin (q 1 + q 2 + q 3)
  have hs3' := Real.sin_le_one (q 1 + q 2 + q 3)
  simp only [positions_UavArmV4, Pi.smul_apply, Pi.add_apply, smul_eq_mul, cons_val]
  constructor <;> norm_num [Elementary.cos, Elementary.sin] <;> linarith

theorem base_term_ne_zero :
    (base_UavArmV4 hI).mass • parallelAxis ((base_UavArmV4 hI).position
      - (positions_UavArmV4 q).com) ≠ 0 := by
  have hz : ((base_UavArmV4 hI).position - (positions_UavArmV4 q).com) 2 ≠ 0 := by
    rw [Pi.sub_apply]
    exact sub_ne_zero.mpr (com_UavArmV4_z q).1.ne
  refine smul_ne_zero (base_UavArmV4 hI).mass_pos.ne' fun h => ?_
  have hpos := parallelAxis_diag_pos (i := 0) (by decide) hz
  rw [h] at hpos
  exact lt_irrefl 0 hpos

/-- The inertia of `UavArmV4` and that of its bodies differ by the term of the
base. -/
theorem inertiaAbout_UavArmV4 :
    inertiaAbout (positions_UavArmV4 q).com (base_UavArmV4 hI :: links_UavArmV4 q)
      = inertia_UavArmV4 I (positions_UavArmV4 q) q
        + (base_UavArmV4 hI).mass • parallelAxis ((base_UavArmV4 hI).position
          - (positions_UavArmV4 q).com) := by
  have hbase : (base_UavArmV4 hI).inertiaAt (positions_UavArmV4 q).com
      = I + (base_UavArmV4 hI).mass • parallelAxis ((base_UavArmV4 hI).position
          - (positions_UavArmV4 q).com) := by
    rw [Body.inertiaAt]
    simp only [base_UavArmV4, one_mul, transpose_one, mul_one]
  rw [inertiaAbout, List.map_cons, List.sum_cons, hbase, inertia_UavArmV4_eq, inertiaAbout,
    add_right_comm]

theorem posDef_inertia_UavArmV4 (hI : I.PosDef) :
    (inertia_UavArmV4 I (positions_UavArmV4 q) q).PosDef := by
  rw [inertia_UavArmV4_eq]
  exact posDef_add_inertiaAbout hI _ _

/-! ### The bodies of `UamV5` -/

theorem com_UamV5_rotate (q : Joints ℝ) :
    fluToFrdVector (positions_UamV5 q).com = centerOfMass
      ((base_UamV5 :: links_UamV5 q).map (Body.rotate fluToFrd fluToFrd_orthogonal)) := by
  rw [centerOfMass_rotate, com_UamV5_eq, fluToFrdVector_eq]

theorem inertia_UamV5_rotate (q : Joints ℝ) :
    inertia_UamV5 (positions_UamV5 q) q = inertiaAbout (fluToFrdVector (positions_UamV5 q).com)
      ((base_UamV5 :: links_UamV5 q).map (Body.rotate fluToFrd fluToFrd_orthogonal)) := by
  rw [fluToFrdVector_eq, inertiaAbout_rotate, inertia_UamV5_eq, fluToFrdMatrix]

theorem posDef_inertia_UamV5 (q : Joints ℝ) : (inertia_UamV5 (positions_UamV5 q) q).PosDef := by
  rw [inertia_UamV5_rotate, List.map_cons, inertiaAbout, List.map_cons, List.sum_cons]
  exact posDef_add_inertiaAbout (posDef_inertiaAt _ _) _ _

/-! ### The law -/

/-- `computeSystemCoM` and then `computeSystemInertia` on one object: the centre
of mass and the inertia of its bodies. -/
structure InertiaLaw (a : ArmKinematics ℝ) (hI : a.base_inertia_val.PosDef) (q : Joints ℝ) :
    Prop where
  com_eq : (a.computeSystemCoM q).2 = centerOfMass (bodies hI q a.model_profile)
  posDef : ((a.computeSystemCoM q).1.computeSystemInertia q).2.PosDef
  isUnit : IsUnit ((a.computeSystemCoM q).1.computeSystemInertia q).2
  sum_eq : ((a.computeSystemCoM q).1.computeSystemInertia q).2
    = inertiaAbout (a.computeSystemCoM q).2 (bodies hI q a.model_profile)

variable {a : ArmKinematics ℝ}

theorem computeSystemCoM_eq (hI : a.base_inertia_val.PosDef) (q : Joints ℝ) :
    (a.computeSystemCoM q).2 = centerOfMass (bodies hI q a.model_profile) := by
  cases hp : a.model_profile with
  | UavArmV4 =>
    rw [computeSystemCoM, hp]
    exact com_UavArmV4_eq hI q
  | UamV5 =>
    rw [computeSystemCoM, hp]
    exact com_UamV5_rotate q

theorem posDef_computeSystemInertia (hI : a.base_inertia_val.PosDef) (q : Joints ℝ) :
    ((a.computeSystemCoM q).1.computeSystemInertia q).2.PosDef := by
  rw [computeSystemInertia_of_near (near_refl _ q)]
  cases a.model_profile with
  | UavArmV4 => exact posDef_inertia_UavArmV4 q hI
  | UamV5 => exact posDef_inertia_UamV5 q

theorem computeSystemInertia_eq_iff (hI : a.base_inertia_val.PosDef) (q : Joints ℝ) :
    ((a.computeSystemCoM q).1.computeSystemInertia q).2
        = inertiaAbout (a.computeSystemCoM q).2 (bodies hI q a.model_profile)
      ↔ a.model_profile = .UamV5 := by
  rw [computeSystemInertia_of_near (near_refl _ q)]
  cases hp : a.model_profile with
  | UavArmV4 =>
    have hcom : (a.computeSystemCoM q).2 = (positions_UavArmV4 q).com := by
      rw [computeSystemCoM, hp]
      rfl
    refine ⟨fun h => ?_, fun hV5 => absurd hV5 (by decide)⟩
    rw [hcom, bodies, inertiaAbout_UavArmV4] at h
    exact absurd (left_eq_add.mp h) (base_term_ne_zero hI q)
  | UamV5 =>
    have hcom : (a.computeSystemCoM q).2 = fluToFrdVector (positions_UamV5 q).com := by
      rw [computeSystemCoM, hp]
      rfl
    refine ⟨fun _ => rfl, fun _ => ?_⟩
    rw [hcom]
    exact inertia_UamV5_rotate q

/-- The inertia is positive definite for both profiles, so that it has an
inverse; it is the inertia of the bodies exactly for `UamV5`. -/
theorem system_inertia_law (hI : a.base_inertia_val.PosDef) (q : Joints ℝ) :
    (((a.computeSystemCoM q).1.computeSystemInertia q).2.PosDef
      ∧ IsUnit ((a.computeSystemCoM q).1.computeSystemInertia q).2)
    ∧ (InertiaLaw a hI q ↔ a.model_profile = .UamV5) := by
  have hpos := posDef_computeSystemInertia hI q
  have hiff := computeSystemInertia_eq_iff hI q
  exact ⟨⟨hpos, hpos.isUnit⟩, fun h => hiff.mp h.sum_eq,
    fun hp => ⟨computeSystemCoM_eq hI q, hpos, hpos.isUnit, hiff.mpr hp⟩⟩

theorem posDef_bodyInertia : (diagonal ![0.045, 0.045, 0.08] : Mat3 ℝ).PosDef :=
  posDef_diagonal (by norm_num) (by norm_num) (by norm_num)

/-- The law for `UamV5` at rest. -/
theorem system_inertia_law_UamV5 :
    InertiaLaw (((init ℝ).setModelProfile .UamV5).setParameters 4.8548
      ![0.00405203, 0, 0.06556744] (diagonal ![0.045, 0.045, 0.08])) posDef_bodyInertia 0 :=
  (system_inertia_law (a := ((init ℝ).setModelProfile .UamV5).setParameters 4.8548
    ![0.00405203, 0, 0.06556744] (diagonal ![0.045, 0.045, 0.08])) posDef_bodyInertia 0).2.mpr rfl

/-- With the default parameters of `UavArmV4` the inertia at rest is not that of
its five bodies. -/
theorem base_term_missing :
    ¬ InertiaLaw (((init ℝ).setModelProfile .UavArmV4).setParameters 1.289 ![-0.01, 0, 0.161]
      (diagonal ![0.045, 0.045, 0.08])) posDef_bodyInertia 0 :=
  fun h => nomatch (computeSystemInertia_eq_iff posDef_bodyInertia 0).mp h.sum_eq

/-! ### An empty cache -/

theorem inertia_UavArmV4_empty_ne (I : Mat3 ℝ) (q q' : Joints ℝ) :
    inertia_UavArmV4 I ⟨0, 0, 0, 0, 0⟩ q ≠ inertia_UavArmV4 I (positions_UavArmV4 q') q := by
  intro h
  have hz : 0 < ((positions_UavArmV4 q').p1 - (positions_UavArmV4 q').com) 2 := by
    have hp1 : (positions_UavArmV4 q').p1 2 = 0.1745 + 0.043715 := by
      simp [positions_UavArmV4]
    have hcom := (com_UavArmV4_z q').2
    rw [Pi.sub_apply, hp1]
    linarith
  -- the other three links have no negative term
  have h1 := parallelAxis_diag_pos (i := 0) (by decide) hz.ne'
  have h2 := parallelAxis_diag_nonneg ((positions_UavArmV4 q').p2 - (positions_UavArmV4 q').com) 0
  have h3 := parallelAxis_diag_nonneg ((positions_UavArmV4 q').p3 - (positions_UavArmV4 q').com) 0
  have h4 := parallelAxis_diag_nonneg ((positions_UavArmV4 q').p4 - (positions_UavArmV4 q').com) 0
  have h00 := congrFun (congrFun h 0) 0
  simp only [inertia_UavArmV4, movedInertia_eq, sub_self, parallelAxis_zero, smul_zero, add_zero,
    Matrix.add_apply, Matrix.smul_apply, smul_eq_mul] at h00
  linarith

end ArmKinematics
