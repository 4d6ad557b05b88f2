/-
The frame of two vectors: the columns are `x`, `z × x` and `z`.

It is a rotation if `x` and `z` are orthogonal unit vectors; in general its Gram matrix says how far
it is from one.

* **`frame_mem_specialOrthogonalGroup`**;
* `frame_transpose_mul`, `det_frame` — its Gram matrix and its determinant.
-/
import Mathlib.Data.Real.Star
import Mathlib.LinearAlgebra.CrossProduct
import Mathlib.LinearAlgebra.UnitaryGroup
import Mathlib.Tactic.LinearCombination

open Matrix

variable {R : Type*} [CommRing R]

/-- The matrix with the columns `x`, `z × x` and `z`. -/
def frame (x z : Fin 3 → R) : Matrix (Fin 3) (Fin 3) R :=
  of fun i => ![x i, crossProduct z x i, z i]

variable {x z : Fin 3 → R}

theorem frame_transpose_mul (x z : Fin 3 → R) :
    (frame x z)ᵀ * frame x z =
      !![x ⬝ᵥ x, 0, x ⬝ᵥ z; 0, (x ⬝ᵥ x) * (z ⬝ᵥ z) - (x ⬝ᵥ z) * (x ⬝ᵥ z), 0; x ⬝ᵥ z, 0,
        z ⬝ᵥ z] := by
  ext i j
  rw [mul_apply, Fin.sum_univ_three]
  fin_cases i <;> fin_cases j <;>
    simp [frame, cross_apply, vec3_dotProduct] <;> ring

theorem det_frame (x z : Fin 3 → R) :
    (frame x z).det = (x ⬝ᵥ x) * (z ⬝ᵥ z) - (x ⬝ᵥ z) * (x ⬝ᵥ z) := by
  rw [det_fin_three]
  simp [frame, cross_apply, vec3_dotProduct]
  ring

theorem frame_mem_specialOrthogonalGroup {x z : Fin 3 → ℝ} (hx : x ⬝ᵥ x = 1) (hz : z ⬝ᵥ z = 1)
    (hxz : x ⬝ᵥ z = 0) : frame x z ∈ specialOrthogonalGroup (Fin 3) ℝ := by
  rw [mem_specialOrthogonalGroup_iff, mem_orthogonalGroup_iff', det_frame, hx, hz, hxz]
  refine ⟨?_, by ring⟩
  show (frame x z)ᵀ * frame x z = 1
  rw [frame_transpose_mul, hx, hz, hxz]
  ext i j
  fin_cases i <;> fin_cases j <;> simp
