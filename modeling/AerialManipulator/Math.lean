/-
The mathlib limits and the float types of the flight code.

`math::min`, `math::max` and `math::constrain` are C++ ternaries, so on a
`nan` argument they return whichever operand the failed comparison selects:
`math.min nan b = b` and `math.max nan b = b`, while `math.constrain nan lo hi`
stays `nan`.

The vectors, matrices and quaternions of the matrix library are functions on
`Fin n` with `nan`-extended components.
-/
import AerialManipulator.Lib.WithNaN

open WithNaN

/-- A `float`. -/
abbrev Flt (K : Type*) := WithNaN K

abbrev Vector2f (K : Type*) := Fin 2 → Flt K

abbrev Vector3f (K : Type*) := Fin 3 → Flt K

abbrev Quatf (K : Type*) := Fin 4 → Flt K

abbrev Matrix3f (K : Type*) := Fin 3 → Fin 3 → Flt K

namespace math

section Generic

variable {T : Type*} [LT T] [DecidableLT T]

def min (a b : T) : T := if a < b then a else b

def max (a b : T) : T := if b < a then a else b

def constrain (val min_val max_val : T) : T :=
  if val < min_val then min_val else if max_val < val then max_val else val

end Generic

section Float

variable {K : Type*} [Field K]

def lerp (a b s : Flt K) : Flt K := (1 - s) * a + s * b

def radians [LinearOrder K] [Elementary K] (degrees : Flt K) : Flt K :=
  degrees * (num Elementary.pi / num 180)

def expo [LinearOrder K] (value e : Flt K) : Flt K :=
  let x := constrain value (-1) 1
  let ec := constrain e 0 1
  (1 - ec) * x + ec * x * x * x

def superexpo [LinearOrder K] (value e g : Flt K) : Flt K :=
  let x := constrain value (-1) 1
  let gc := constrain g 0 0.99
  expo x e * (1 - gc) / (1 - fabsf x * gc)

end Float

variable {K : Type*} [LinearOrder K]

@[simp] theorem min_num (x y : K) : min (num x) (num y) = num (Min.min x y) := by
  rw [min]
  by_cases h : x < y
  · rw [if_pos ((num_lt_num x y).mpr h), min_eq_left h.le]
  · rw [if_neg (fun hc => h ((num_lt_num x y).mp hc)), min_eq_right (not_lt.mp h)]

@[simp] theorem min_nan_left (b : Flt K) : min nan b = b := if_neg (not_nan_lt b)

@[simp] theorem max_num (x y : K) : max (num x) (num y) = num (Max.max x y) := by
  rw [max]
  by_cases h : y < x
  · rw [if_pos ((num_lt_num y x).mpr h), max_eq_left h.le]
  · rw [if_neg (fun hc => h ((num_lt_num y x).mp hc)), max_eq_right (not_lt.mp h)]

@[simp] theorem max_nan_left (b : Flt K) : max nan b = b := if_neg (not_lt_nan b)

theorem constrain_num (x lo hi : K) :
    constrain (num x) (num lo) (num hi)
      = num (if x < lo then lo else if hi < x then hi else x) := by
  simp only [constrain, num_lt_num]
  split_ifs <;> rfl

theorem constrain_num_of_le {lo hi : K} (h : lo ≤ hi) (x : K) :
    constrain (num x) (num lo) (num hi) = num (Max.max lo (Min.min x hi)) := by
  rw [constrain_num]
  refine congrArg num ?_
  split_ifs with hlo hhi
  · rw [max_eq_left ((min_le_left x hi).trans hlo.le)]
  · rw [min_eq_right hhi.le, max_eq_right h]
  · rw [min_eq_left (not_lt.mp hhi), max_eq_right (not_lt.mp hlo)]

@[simp] theorem constrain_nan (lo hi : Flt K) : constrain nan lo hi = nan := by
  rw [constrain, if_neg (not_nan_lt lo), if_neg (not_lt_nan hi)]

theorem isFinite_constrain (a : Flt K) (lo hi : K) :
    (constrain a (num lo) (num hi)).isFinite = a.isFinite := by
  cases a with
  | num x => rw [constrain_num]; rfl
  | nan => rw [constrain_nan]

theorem radians_num (x : ℝ) : radians (num x) = num (x * (Real.pi / 180)) := by
  have h : (num Real.pi : Flt ℝ) / num 180 = num (Real.pi / 180) := if_neg (by norm_num)
  exact congrArg (num x * ·) h

end math

section Constants

variable (K : Type*) [Field K]

/-- `FLT_EPSILON`, `2⁻²³`. -/
def FLT_EPSILON : K := 1 / 2 ^ 23

def CONSTANTS_ONE_G : K := 9.80665

end Constants

theorem FLT_EPSILON_pos : 0 < FLT_EPSILON ℝ := by
  norm_num [FLT_EPSILON]

theorem CONSTANTS_ONE_G_pos : 0 < CONSTANTS_ONE_G ℝ := by
  norm_num [CONSTANTS_ONE_G]
