/-
Sensors that are stuck.

`put` compares each component of a sample with that of the sample before, and counts those that are
the same "accumulated also between axes".  A component that differs starts the count again in the
middle of the sample.  A sample behind one with the time 0 is not compared.

* `Call`, `perform` — what a sensor module does with a validator;
* `counted_run` — the counter is the row of equal components, modulo 2³²;
* **`staleData`** — when a sensor is reported as stale, in exact arithmetic and in floats.
-/
import AerialManipulator.Sensors.DataValidator
import AerialManipulator.Lib.Streak
import AerialManipulator.Lib.Trace

namespace Sensors

def sameExact : Option ℚ → Option ℚ → Bool
  | some a, some b => |a - b| < 1 / 1000000
  | _, _ => false

namespace DataValidator

variable (same : Option ℚ → Option ℚ → Bool) (v : DataValidator)

def axes (val : Value) : List Bool := [0, 1, 2].map fun i => same (v.value i) (val i)

/-- `put`, with a comparison of values. -/
def putWith (timestamp : UInt64) (val : Value) (error_count_in : UInt32) (priority_in : UInt8) :
    DataValidator :=
  { v.put timestamp val error_count_in priority_in with
    value_equal_count :=
      if v.time_last = 0 then v.value_equal_count
      else (v.axes same val).foldl (fun n b => if b then n + 1 else 0) v.value_equal_count }

def scalar (val : Option ℚ) : Value
  | 0 => val
  | _ => some 0

inductive Call
  | put (timestamp : UInt64) (val : Value) (error_count : UInt32) (priority : UInt8)
  | putScalar (timestamp : UInt64) (val : Option ℚ) (error_count : UInt32) (priority : UInt8)
  | confidence (timestamp : UInt64)
  | reset_state

def perform : Call → DataValidator
  | .put timestamp val error_count priority => v.putWith same timestamp val error_count priority
  | .putScalar timestamp val error_count priority => v.putWith same timestamp
    (scalar val) error_count priority
  | .confidence timestamp => (v.confidence timestamp).2
  | .reset_state => { v with error_mask := ERROR_FLAG_NO_ERROR }

def comparison : Call → List (List Bool)
  | .put _ val _ _ => if v.time_last = 0 then [] else [v.axes same val]
  | .putScalar _ val _ _ => if v.time_last = 0 then [] else [v.axes same (scalar val)]
  | _ => []

def comparisons (v : DataValidator) : List Call → List (List Bool)
  | [] => []
  | c :: cs => v.comparison same c ++ comparisons (v.perform same c) cs

/-- The samples of a run, with their times. -/
def samples : List Call → List (UInt64 × Value)
  | [] => []
  | .put timestamp val _ _ :: cs => (timestamp, val) :: samples cs
  | .putScalar timestamp val _ _ :: cs => (timestamp, scalar val) :: samples cs
  | _ :: cs => samples cs

/-- Each sample is compared with the one before it, axis by axis, if that has a time. -/
def compared : UInt64 × Value → List (UInt64 × Value) → List (List Bool)
  | _, [] => []
  | (t, a), (t', b) :: rest =>
    (if t = 0 then [] else [[0, 1, 2].map fun i => same (a i) (b i)]) ++ compared (t', b) rest

def Fresh (timestamp : UInt64) : Prop :=
  v.time_last ≠ 0 ∧ ¬ timestamp - v.time_last > v.timeout_interval.toUInt64

instance (timestamp : UInt64) : Decidable (v.Fresh timestamp) := inferInstanceAs (Decidable (_ ∧ _))

def withLimits (timeout_interval threshold : UInt32) : DataValidator :=
  { timeout_interval := timeout_interval, value_equal_count_threshold := threshold }

/-! ### The counter -/

theorem comparisons_concat (cs : List Call) (c : Call) :
    v.comparisons same (cs ++ [c]) = v.comparisons same cs ++
      (Trace.run (perform same) v cs).comparison same c := by
  induction cs generalizing v with
  | nil => exact (List.append_nil _).trans (List.nil_append _).symm
  | cons a cs ih =>
    exact (congrArg (v.comparison same a ++ ·) (ih (v.perform same a))).trans
      (List.append_assoc _ _ _).symm

theorem noCriticalError_sample :
    v.noCriticalError.2.time_last = v.time_last ∧ v.noCriticalError.2.value = v.value := by
  unfold noCriticalError
  dsimp only
  split <;> exact ⟨rfl, rfl⟩

theorem confidence_sample (timestamp : UInt64) :
    (v.confidence timestamp).2.time_last = v.time_last ∧
      (v.confidence timestamp).2.value = v.value := by
  unfold confidence
  split_ifs
  · exact ⟨rfl, rfl⟩
  · exact ⟨rfl, rfl⟩
  · exact ⟨rfl, rfl⟩
  · exact ⟨rfl, rfl⟩
  · exact noCriticalError_sample _
  · exact v.noCriticalError_sample

theorem comparisons_eq (cs : List Call) :
    v.comparisons same cs = compared same (v.time_last, v.value) (samples cs) := by
  induction cs generalizing v with
  | nil => rfl
  | cons c cs ih =>
    cases c with
    | put timestamp val error_count priority => exact congrArg (_ ++ ·) (ih _)
    | putScalar timestamp val error_count priority => exact congrArg (_ ++ ·) (ih _)
    | confidence timestamp =>
      have hsample := v.confidence_sample timestamp
      have hrest := ih (v.confidence timestamp).2
      rw [hsample.1, hsample.2] at hrest
      exact hrest
    | reset_state => exact ih _

theorem noCriticalError_counts : v.noCriticalError.2.value_equal_count = v.value_equal_count ∧
    v.noCriticalError.2.value_equal_count_threshold = v.value_equal_count_threshold := by
  unfold noCriticalError
  dsimp only
  split <;> exact ⟨rfl, rfl⟩

theorem confidence_counts (timestamp : UInt64) :
    (v.confidence timestamp).2.value_equal_count = v.value_equal_count ∧
      (v.confidence timestamp).2.value_equal_count_threshold = v.value_equal_count_threshold := by
  unfold confidence
  split_ifs
  · exact ⟨rfl, rfl⟩
  · exact ⟨rfl, rfl⟩
  · exact ⟨rfl, rfl⟩
  · exact ⟨rfl, rfl⟩
  · exact noCriticalError_counts _
  · exact v.noCriticalError_counts

variable {same} {v}

theorem putWith_count {l : List Bool} (h : v.value_equal_count = UInt32.ofNat (Streak.length l))
    (timestamp : UInt64) (val : Value) (error_count : UInt32) (priority : UInt8) :
    (v.putWith same timestamp val error_count priority).value_equal_count
      = UInt32.ofNat (Streak.length
        (l ++ (if v.time_last = 0 then [] else [v.axes same val]).flatten)) := by
  rw [putWith]
  split
  · exact h.trans (congrArg _ (congrArg _ (List.append_nil l).symm))
  · rw [h, Streak.foldl_count, List.flatten_singleton]

theorem perform_count {l : List Bool} (h : v.value_equal_count = UInt32.ofNat (Streak.length l))
    (c : Call) :
    (v.perform same c).value_equal_count =
      UInt32.ofNat (Streak.length (l ++ (v.comparison same c).flatten)) := by
  cases c with
  | put timestamp val error_count priority =>
    exact putWith_count h timestamp val error_count priority
  | putScalar timestamp val error_count priority =>
    exact putWith_count h timestamp (scalar val) error_count priority
  | confidence timestamp =>
    exact (v.confidence_counts timestamp).1.trans
      (h.trans (congrArg (fun l => UInt32.ofNat (Streak.length l)) (List.append_nil l).symm))
  | reset_state =>
    exact h.trans (congrArg (fun l => UInt32.ofNat (Streak.length l)) (List.append_nil l).symm)

theorem perform_threshold (c : Call) :
    (v.perform same c).value_equal_count_threshold = v.value_equal_count_threshold := by
  cases c with
  | put timestamp val error_count priority => rfl
  | putScalar timestamp val error_count priority => rfl
  | confidence timestamp => exact (v.confidence_counts timestamp).2
  | reset_state => rfl

theorem counted_run (timeout threshold : UInt32) (cs : List Call) :
    (Trace.run (perform same) (withLimits timeout threshold) cs).value_equal_count
        = UInt32.ofNat (Streak.length
          ((withLimits timeout threshold).comparisons same cs).flatten) ∧
      (Trace.run (perform same) (withLimits timeout threshold) cs).value_equal_count_threshold =
        threshold := by
  induction cs using List.reverseRecOn with
  | nil => exact ⟨rfl, rfl⟩
  | append_singleton cs c ih =>
    rw [comparisons_concat, List.flatten_append, Trace.run_append]
    exact ⟨perform_count ih.1 c, (perform_threshold c).trans ih.2⟩

/-! ### The report -/

theorem not_stale_or {mask flag : UInt32} (hmask : mask &&& ERROR_FLAG_STALE_DATA = 0)
    (hflag : flag &&& ERROR_FLAG_STALE_DATA = 0) : (mask ||| flag) &&& ERROR_FLAG_STALE_DATA =
      0 := by
  have hdistrib : (mask ||| flag) &&& ERROR_FLAG_STALE_DATA
      = (mask &&& ERROR_FLAG_STALE_DATA) ||| (flag &&& ERROR_FLAG_STALE_DATA) :=
    UInt32.toBitVec_inj.mp BitVec.and_or_distrib_right
  rw [hdistrib, hmask, hflag]
  rfl

theorem not_stale_noCriticalError (h : v.error_mask &&& ERROR_FLAG_STALE_DATA = 0) :
    v.noCriticalError.2.error_mask &&& ERROR_FLAG_STALE_DATA = 0 := by
  unfold noCriticalError
  dsimp only
  split
  · exact UInt32.zero_and
  · exact h

theorem stale_or {mask : UInt32} (hmask : mask &&& ERROR_FLAG_STALE_DATA ≠ 0) (flag : UInt32) :
    (mask ||| flag) &&& ERROR_FLAG_STALE_DATA ≠ 0 := by
  have hdistrib : (mask ||| flag) &&& ERROR_FLAG_STALE_DATA
      = (mask &&& ERROR_FLAG_STALE_DATA) ||| (flag &&& ERROR_FLAG_STALE_DATA) :=
    UInt32.toBitVec_inj.mp BitVec.and_or_distrib_right
  rw [hdistrib]
  exact fun hzero => hmask (UInt32.or_eq_zero_iff.mp hzero).1

theorem stale_noCriticalError (hmask : v.error_mask &&& ERROR_FLAG_STALE_DATA ≠ 0)
    (hd : v.error_density ≤ ERROR_DENSITY_WINDOW) :
    v.noCriticalError.2.error_mask &&& ERROR_FLAG_STALE_DATA ≠ 0 ↔ v.noCriticalError.1 = 0 := by
  unfold noCriticalError
  dsimp only
  rcases densityConfidence_cases hd with hzero | hpos
  · rw [hzero, if_neg (lt_irrefl _)]
    exact iff_of_true hmask rfl
  · have hlt : 0 < densityConfidence v.error_density :=
      (by norm_num : (0 : ℚ) < 1 / 128).trans_le hpos
    rw [if_pos hlt]
    exact iff_of_false (not_not.mpr UInt32.zero_and) hlt.ne'

/-- A report stays until the sensor can be trusted again. -/
theorem stale_kept (hmask : v.error_mask &&& ERROR_FLAG_STALE_DATA ≠ 0) (timestamp : UInt64) :
    (v.confidence timestamp).2.error_mask &&& ERROR_FLAG_STALE_DATA ≠ 0 ↔
      (v.confidence timestamp).1 = 0 := by
  unfold confidence
  split_ifs with _ _ _ _ hhigh
  · exact iff_of_true (stale_or hmask _) rfl
  · exact iff_of_true (stale_or hmask _) rfl
  · exact iff_of_true (stale_or hmask _) rfl
  · exact iff_of_true (stale_or hmask _) rfl
  · exact stale_noCriticalError (stale_or hmask _) le_rfl
  · exact stale_noCriticalError hmask (le_of_not_high hhigh)

theorem stale_iff {timestamp : UInt64} (hfresh : v.Fresh timestamp)
    (hmask : v.error_mask &&& ERROR_FLAG_STALE_DATA = 0) :
    (v.confidence timestamp).2.error_mask &&& ERROR_FLAG_STALE_DATA ≠ 0 ↔
      v.value_equal_count_threshold < v.value_equal_count := by
  unfold confidence
  rw [if_neg hfresh.1, if_neg hfresh.2]
  split_ifs with hstale hcount hhigh
  · refine iff_of_true (fun hzero => ?_) hstale
    have hdistrib : (v.error_mask ||| ERROR_FLAG_STALE_DATA) &&& ERROR_FLAG_STALE_DATA
        = (v.error_mask &&& ERROR_FLAG_STALE_DATA) |||
          (ERROR_FLAG_STALE_DATA &&& ERROR_FLAG_STALE_DATA) :=
      UInt32.toBitVec_inj.mp BitVec.and_or_distrib_right
    rw [hdistrib, hmask] at hzero
    exact nomatch hzero
  · exact iff_of_false (not_not.mpr (not_stale_or hmask (by decide))) hstale
  · exact iff_of_false (not_not.mpr
      (not_stale_noCriticalError (not_stale_or hmask (by decide)))) hstale
  · exact iff_of_false (not_not.mpr (not_stale_noCriticalError hmask)) hstale

theorem comparison_length (c : Call) : ∀ b ∈ v.comparison same c, b.length = 3 := by
  intro b hb
  cases c with
  | put timestamp val error_count priority =>
    rw [comparison] at hb
    split at hb
    · exact nomatch hb
    · rw [List.mem_singleton.mp hb]
      rfl
  | putScalar timestamp val error_count priority =>
    rw [comparison] at hb
    split at hb
    · exact nomatch hb
    · rw [List.mem_singleton.mp hb]
      rfl
  | confidence timestamp => exact nomatch hb
  | reset_state => exact nomatch hb

theorem comparisons_length (cs : List Call) : ∀ b ∈ v.comparisons same cs, b.length = 3 := by
  induction cs generalizing v with
  | nil => exact fun b hb => nomatch hb
  | cons c cs ih => exact fun b hb => (List.mem_append.mp hb).elim (comparison_length c b) (ih b)

/-- The samples of a run that are the same as those before them. -/
def repeats (same : Option ℚ → Option ℚ → Bool) (v : DataValidator) (cs : List Call) : List Bool :=
  (v.comparisons same cs).map (·.all id)

/-- When stale data is reported; the comparisons are those of each sample with the one before it. -/
structure StaleData (same : Option ℚ → Option ℚ → Bool) : Prop where
  compared : ∀ (timeout n : UInt32) (cs : List Call),
    (withLimits timeout n).comparisons same cs = compared same (0, fun _ => some 0) (samples cs)
  kept : ∀ (v : DataValidator) (timestamp : UInt64), v.error_mask &&& ERROR_FLAG_STALE_DATA ≠ 0 →
    ((v.confidence timestamp).2.error_mask &&& ERROR_FLAG_STALE_DATA ≠ 0 ↔
      (v.confidence timestamp).1 = 0)
  reported : ∀ (timeout n : UInt32) (cs : List Call) (timestamp : UInt64),
    (Trace.run (perform same) (withLimits timeout n) cs).Fresh timestamp →
    (Trace.run (perform same) (withLimits timeout n) cs).error_mask &&& ERROR_FLAG_STALE_DATA = 0 →
    (((Trace.run (perform same) (withLimits timeout n) cs).confidence timestamp).2.error_mask
        &&& ERROR_FLAG_STALE_DATA ≠ 0 ↔
      n.toNat < Streak.length ((withLimits timeout n).comparisons same cs).flatten % 2 ^ 32)
  samples : ∀ (timeout n : UInt32) (cs : List Call), ∃ rest < 3,
    Streak.length ((withLimits timeout n).comparisons same cs).flatten
      = 3 * Streak.length (repeats same (withLimits timeout n) cs) + rest
  changing : ∀ (timeout n : UInt32) (cs : List Call) (timestamp : UInt64), 2 ≤ n →
    (∀ b ∈ (withLimits timeout n).comparisons same cs, false ∈ b) →
    (Trace.run (perform same) (withLimits timeout n) cs).Fresh timestamp →
    (Trace.run (perform same) (withLimits timeout n) cs).error_mask &&& ERROR_FLAG_STALE_DATA = 0 →
    ((Trace.run (perform same) (withLimits timeout n) cs).confidence timestamp).2.error_mask
      &&& ERROR_FLAG_STALE_DATA = 0

theorem reported_iff (timeout n : UInt32) (cs : List Call) {timestamp : UInt64}
    (hfresh : (Trace.run (perform same) (withLimits timeout n) cs).Fresh timestamp)
    (hmask : (Trace.run (perform same)
      (withLimits timeout n) cs).error_mask &&& ERROR_FLAG_STALE_DATA = 0) :
    ((Trace.run (perform same) (withLimits timeout n) cs).confidence timestamp).2.error_mask
        &&& ERROR_FLAG_STALE_DATA ≠ 0 ↔
      n.toNat < Streak.length ((withLimits timeout n).comparisons same cs).flatten % 2 ^ 32 := by
  obtain ⟨hcount, hthreshold⟩ := @counted_run same timeout n cs
  rw [stale_iff hfresh hmask, hcount, hthreshold, UInt32.lt_iff_toNat_lt, UInt32.toNat_ofNat']

theorem streak_samples (timeout n : UInt32) (cs : List Call) : ∃ rest < 3,
    Streak.length ((withLimits timeout n).comparisons same cs).flatten
      = 3 * Streak.length (repeats same (withLimits timeout n) cs) + rest :=
  Streak.length_flatten (by decide) (comparisons_length cs)

theorem staleData_of (same : Option ℚ → Option ℚ → Bool) : StaleData same where
  compared timeout n cs := (withLimits timeout n).comparisons_eq same cs
  kept _ timestamp hmask := stale_kept hmask timestamp
  reported timeout n cs _ hfresh hmask := reported_iff timeout n cs hfresh hmask
  samples := streak_samples
  changing timeout n cs timestamp hn hchange hfresh hmask := by
    by_contra hstale
    have hlt := (reported_iff timeout n cs hfresh hmask).mp hstale
    obtain ⟨rest, hrest, hlen⟩ := @streak_samples same timeout n cs
    have hrow : Streak.length (repeats same (withLimits timeout n) cs) = 0 := by
      refine Streak.length_of_forall_false fun b hb => ?_
      obtain ⟨axes, haxes, rfl⟩ := List.mem_map.mp hb
      exact List.all_eq_false.mpr ⟨false, hchange axes haxes, Bool.false_ne_true⟩
    have htwo : 2 ≤ n.toNat := UInt32.le_iff_toNat_le.mp hn
    rw [hlen, hrow, Nat.mod_eq_of_lt (by omega)] at hlt
    omega

/-- **Stale data**, with exact differences and with those of the floats, which are those of `put`.
-/
theorem staleData : StaleData sameExact ∧ StaleData DataValidator.sameValue ∧
    DataValidator.putWith DataValidator.sameValue = DataValidator.put :=
  ⟨staleData_of sameExact, staleData_of DataValidator.sameValue, rfl⟩

/-- A three-dimensional sample that is repeated once, for a limit of two. -/
theorem repeated_once_stale : ¬ ∀ (timeout n : UInt32) (cs : List Call) (timestamp : UInt64),
    (Trace.run (perform sameExact) (withLimits timeout n) cs).Fresh timestamp →
    (Trace.run (perform sameExact) (withLimits timeout n) cs).error_mask &&& ERROR_FLAG_STALE_DATA =
      0 →
    (((Trace.run (perform sameExact) (withLimits timeout n) cs).confidence timestamp).2.error_mask
        &&& ERROR_FLAG_STALE_DATA ≠ 0 ↔
      n.toNat + 1 ≤ Streak.length (repeats sameExact (withLimits timeout n) cs)) := by
  intro h
  have hiff := h 20000 2 [.put 1 (fun _ => some 1) 0 0, .put 2 (fun _ => some 1) 0 0] 3
    (by decide +kernel)
    (by decide +kernel)
  exact absurd (hiff.mp (by decide +kernel)) (by decide +kernel)

end DataValidator

end Sensors
