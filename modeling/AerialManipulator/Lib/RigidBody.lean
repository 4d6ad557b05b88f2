/-
Inertia of systems of rigid bodies.

A body has a mass, the position of its centre of mass, an orientation and an
inertia in its own frame; the structure carries that the orientation is
orthogonal and the inertia positive definite.  The inertia of a system about a
point is the sum of the turned local inertias and the parallel-axis terms.

* `posDef_inertiaAt` — one body about any point;
* `posDef_add_inertiaAbout` — any positive definite matrix plus the inertia of
  a system;
* `inertiaAbout_rotate`, `centerOfMass_rotate` — change of frame.
-/
import Mathlib.Algebra.Order.Star.Real
import Mathlib.LinearAlgebra.Matrix.PosDef

open Matrix

namespace RigidBody

variable {n : Type*} [Fintype n] [DecidableEq n]

/-! ### The parallel-axis term -/

/-- `|r|² 1 - r rᵀ`. -/
def parallelAxis (r : n → ℝ) : Matrix n n ℝ := (r ⬝ᵥ r) • 1 - vecMulVec r r

theorem parallelAxis_apply_self (r : n → ℝ) (i : n) : parallelAxis r i i = r ⬝ᵥ r - r i * r i := by
  simp [parallelAxis, vecMulVec_apply]

@[simp] theorem parallelAxis_zero : parallelAxis (0 : n → ℝ) = 0 := by
  simp [parallelAxis]

theorem parallelAxis_mulVec (r x : n → ℝ) : parallelAxis r *ᵥ x = (r ⬝ᵥ r) • x - (r ⬝ᵥ x) • r := by
  rw [parallelAxis, sub_mulVec, smul_mulVec, one_mulVec, vecMulVec_mulVec, op_smul_eq_smul]

theorem posSemidef_parallelAxis (r : n → ℝ) : (parallelAxis r).PosSemidef := by
  refine PosSemidef.of_dotProduct_mulVec_nonneg ?_ fun x => ?_
  · ext i j
    simp [parallelAxis, vecMulVec_apply, Matrix.one_apply, eq_comm, mul_comm]
  · have hcs := Finset.sum_mul_sq_le_sq_mul_sq Finset.univ r x
    have hquad : star x ⬝ᵥ (parallelAxis r *ᵥ x) = (r ⬝ᵥ r) * (x ⬝ᵥ x) - (r ⬝ᵥ x) * (r ⬝ᵥ x) := by
      rw [star_trivial, parallelAxis_mulVec, dotProduct_sub, dotProduct_smul, dotProduct_smul,
        dotProduct_comm x r, smul_eq_mul, smul_eq_mul]
    simp only [pow_two] at hcs
    rw [hquad]
    exact sub_nonneg.mpr hcs

theorem parallelAxis_diag_nonneg (r : n → ℝ) (i : n) : 0 ≤ parallelAxis r i i :=
  (posSemidef_parallelAxis r).diag_nonneg

theorem parallelAxis_diag_pos {r : n → ℝ} {i j : n} (hij : i ≠ j) (hj : r j ≠ 0) :
    0 < parallelAxis r i i := by
  have hmem : j ∈ Finset.univ \ {i} := by simp [hij.symm]
  rw [parallelAxis_apply_self, dotProduct,
    Finset.sum_eq_add_sum_sdiff_singleton_of_mem (Finset.mem_univ i), add_sub_cancel_left]
  calc 0 < r j * r j := mul_self_pos.mpr hj
    _ ≤ ∑ k ∈ Finset.univ \ {i}, r k * r k :=
      Finset.single_le_sum (f := fun k => r k * r k) (fun k _ => mul_self_nonneg (r k)) hmem

theorem parallelAxis_rotate {C : Matrix n n ℝ} (hC : C * Cᵀ = 1) (r : n → ℝ) :
    parallelAxis (C *ᵥ r) = C * parallelAxis r * Cᵀ := by
  have hC' : Cᵀ * C = 1 := mul_eq_one_comm.mp hC
  have hnorm : (C *ᵥ r) ⬝ᵥ (C *ᵥ r) = r ⬝ᵥ r := by
    rw [dotProduct_mulVec, vecMul_mulVec, hC', vecMul_one]
  have hvec : vecMulVec (C *ᵥ r) (C *ᵥ r) = C * vecMulVec r r * Cᵀ := by
    rw [mul_vecMulVec, vecMulVec_mul, vecMul_transpose]
  rw [parallelAxis, hnorm, hvec, parallelAxis, mul_sub, sub_mul, Matrix.mul_smul, mul_one,
    Matrix.smul_mul, hC]

/-! ### Bodies -/

structure Body (n : Type*) [Fintype n] [DecidableEq n] where
  mass : ℝ
  mass_pos : 0 < mass
  position : n → ℝ
  R : Matrix n n ℝ
  R_orthogonal : R * Rᵀ = 1
  inertia : Matrix n n ℝ
  inertia_posDef : inertia.PosDef

/-- The inertia of a body about the point `c`. -/
def Body.inertiaAt (c : n → ℝ) (b : Body n) : Matrix n n ℝ :=
  b.R * b.inertia * b.Rᵀ + b.mass • parallelAxis (b.position - c)

/-- The body seen from a frame that is turned by `C`. -/
def Body.rotate (C : Matrix n n ℝ) (hC : C * Cᵀ = 1) (b : Body n) : Body n :=
  { b with
    position := C *ᵥ b.position
    R := C * b.R
    R_orthogonal := by
      rw [transpose_mul, ← mul_assoc, mul_assoc C, b.R_orthogonal, mul_one, hC] }

/-- The inertia of a system about the point `c`. -/
def inertiaAbout (c : n → ℝ) (bs : List (Body n)) : Matrix n n ℝ := (bs.map (Body.inertiaAt c)).sum

def totalMass (bs : List (Body n)) : ℝ := (bs.map Body.mass).sum

noncomputable def centerOfMass (bs : List (Body n)) : n → ℝ :=
  (totalMass bs)⁻¹ • (bs.map fun b => b.mass • b.position).sum

theorem injective_vecMul {C : Matrix n n ℝ} (hC : C * Cᵀ = 1) : Function.Injective C.vecMul := by
  intro x y h
  have h' := congrArg (fun v => v ᵥ* Cᵀ) h
  simpa only [vecMul_vecMul, hC, vecMul_one] using h'

theorem posDef_rotate {C M : Matrix n n ℝ} (hC : C * Cᵀ = 1) (hM : M.PosDef) :
    (C * M * Cᵀ).PosDef := by
  have h := hM.mul_mul_conjTranspose_same (injective_vecMul hC)
  rwa [conjTranspose_eq_transpose_of_trivial] at h

theorem posDef_inertiaAt (c : n → ℝ) (b : Body n) : (b.inertiaAt c).PosDef :=
  (posDef_rotate b.R_orthogonal b.inertia_posDef).add_posSemidef
    ((posSemidef_parallelAxis _).smul b.mass_pos.le)

theorem posDef_add_inertiaAbout {M : Matrix n n ℝ} (hM : M.PosDef) (c : n → ℝ)
    (bs : List (Body n)) : (M + inertiaAbout c bs).PosDef := by
  induction bs generalizing M with
  | nil => simpa [inertiaAbout] using hM
  | cons b bs ih =>
    have h := ih (hM.add (posDef_inertiaAt c b))
    rwa [add_assoc] at h

/-! ### Change of frame -/

variable {C : Matrix n n ℝ}

theorem inertiaAt_rotate (hC : C * Cᵀ = 1) (c : n → ℝ) (b : Body n) :
    (b.rotate C hC).inertiaAt (C *ᵥ c) = C * b.inertiaAt c * Cᵀ := by
  have hpos : (b.rotate C hC).position - C *ᵥ c = C *ᵥ (b.position - c) := (mulVec_sub C _ _).symm
  rw [Body.inertiaAt, hpos, parallelAxis_rotate hC, Body.inertiaAt, mul_add, add_mul,
    Matrix.mul_smul, Matrix.smul_mul]
  congr 1
  show C * b.R * b.inertia * (C * b.R)ᵀ = C * (b.R * b.inertia * b.Rᵀ) * Cᵀ
  rw [transpose_mul]
  simp only [mul_assoc]

theorem inertiaAbout_rotate (hC : C * Cᵀ = 1) (c : n → ℝ) (bs : List (Body n)) :
    inertiaAbout (C *ᵥ c) (bs.map (Body.rotate C hC)) = C * inertiaAbout c bs * Cᵀ := by
  induction bs with
  | nil => simp [inertiaAbout]
  | cons b bs ih =>
    simp only [inertiaAbout, List.map_cons, List.sum_cons, inertiaAt_rotate hC] at ih ⊢
    rw [ih, mul_add, add_mul]

theorem centerOfMass_rotate (hC : C * Cᵀ = 1) (bs : List (Body n)) :
    centerOfMass (bs.map (Body.rotate C hC)) = C *ᵥ centerOfMass bs := by
  have hmass : totalMass (bs.map (Body.rotate C hC)) = totalMass bs := by
    simp only [totalMass, List.map_map]
    rfl
  have hsum : ((bs.map (Body.rotate C hC)).map fun b => b.mass • b.position).sum
      = C *ᵥ (bs.map fun b => b.mass • b.position).sum := by
    clear hmass
    induction bs with
    | nil => simp
    | cons b bs ih =>
      rw [List.map_cons, List.map_cons, List.sum_cons, ih, List.map_cons, List.sum_cons, mulVec_add,
        mulVec_smul]
      rfl
  rw [centerOfMass, hmass, hsum, centerOfMass, mulVec_smul]

end RigidBody
