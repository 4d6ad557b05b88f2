/-
The message of an external sensor.

The index into the array is an angle divided by the step of the sensor, and nothing keeps it below
72.

* `isSome_addObstacleSensorData` — the loop stays in the array if each of its bins does;
* `angles_of_bins` — the angles of the bins, counted from the first entry;
* **`entersFirst_iff`** — when the array is not left and each bin gets the first entry after it.
-/
import AerialManipulator.CollisionPrevention.ObstacleMap

open Circle

namespace CollisionPrevention

variable {K : Type*} [Field K] [LinearOrder K] [IsStrictOrderedRing K] [FloorRing K]
  {wrap_360 : K → K} {obstacle : ObstacleDistance K}

/-! ### The loop -/

omit [IsStrictOrderedRing K] in
theorem isSome_addBins (angle : Fin 36 → K) (l : List (Fin 36)) (c : CollisionPrevention) :
    (l.foldlM (addBin wrap_360 obstacle angle) c).isSome ↔
      ∀ i ∈ l, (obstacle.read (msgIndex wrap_360 obstacle (angle i))).isSome := by
  induction l generalizing c with
  | nil => exact iff_of_true rfl fun i hi => nomatch hi
  | cons i l ih =>
    rw [List.foldlM_cons, List.forall_mem_cons]
    cases hread : obstacle.read (msgIndex wrap_360 obstacle (angle i)) with
    | none =>
      rw [addBin, hread]
      exact iff_of_false Bool.false_ne_true fun h => Bool.false_ne_true h.1
    | some distance =>
      rw [addBin, hread]
      exact (ih _).trans (and_iff_right rfl).symm

/-- The direction that the message counts from; nothing is entered in other frames. -/
def origin (vehicle_orientation_deg : K) (obstacle : ObstacleDistance K) : Option K :=
  if obstacle.frame = ObstacleDistance.MAV_FRAME_GLOBAL ∨
      obstacle.frame = ObstacleDistance.MAV_FRAME_LOCAL_NED then some vehicle_orientation_deg
  else if obstacle.frame = ObstacleDistance.MAV_FRAME_BODY_FRD then some 0
  else none

def entryOf (wrap_360 : K → K) (obstacle : ObstacleDistance K) (o : K) (i : Fin 36) : ℤ :=
  msgIndex wrap_360 obstacle (o + binAngleDeg i - obstacle.angle_offset)

omit [IsStrictOrderedRing K] in
theorem isSome_addObstacleSensorData (yaw : K) (c : CollisionPrevention) :
    (addObstacleSensorData wrap_360 obstacle yaw c).isSome ↔ ∀ o, origin yaw obstacle = some o →
      ∀ i, 0 ≤ entryOf wrap_360 obstacle o i ∧ entryOf wrap_360 obstacle o i ≤ 71 := by
  have hbins : ∀ o : K, ((List.finRange 36).foldlM (addBin wrap_360 obstacle fun i =>
      o + binAngleDeg i - obstacle.angle_offset) c).isSome ↔
      ∀ i, 0 ≤ entryOf wrap_360 obstacle o i ∧ entryOf wrap_360 obstacle o i ≤ 71 := by
    intro o
    rw [isSome_addBins]
    constructor
    · intro h i
      exact (obstacle.isSome_read _).mp (h i (List.mem_finRange i))
    · intro h i _
      exact (obstacle.isSome_read _).mpr (h i)
  rw [addObstacleSensorData, origin]
  split_ifs
  · rw [hbins]
    exact ⟨fun h o ho => Option.some.inj ho ▸ h, fun h => h yaw rfl⟩
  · have hzero := hbins 0
    simp only [zero_add] at hzero
    rw [hzero]
    exact ⟨fun h o ho => Option.some.inj ho ▸ h, fun h => h 0 rfl⟩
  · exact iff_of_true rfl fun o ho => ho.elim

/-! ### The angles of the bins -/

theorem wraps_ten : Wraps 10 (reduce (10 : K)) := wraps_reduce (by norm_num)

/-- The angle of the step `s`. -/
def stepAngle (x : K) (s : Fin 36) : K := reduce 10 x + (s : ℕ) * 10

theorem stepAngle_nonneg (x : K) (s : Fin 36) : 0 ≤ stepAngle x s :=
  add_nonneg (wraps_ten.nonneg x) (by positivity)

theorem stepAngle_le (x : K) (s : Fin 36) : stepAngle x s ≤ reduce 10 x + 350 := by
  have hs : ((s : ℕ) : K) ≤ 35 := by exact_mod_cast Nat.le_of_lt_succ s.isLt
  rw [stepAngle]
  linarith

theorem wrap_eq_stepAngle (h : Wraps 360 wrap_360) (x : K) (i s : Fin 36)
    (hs : ∃ t : ℤ, ⌊x / 10⌋ + (i : ℕ) = (s : ℕ) + 36 * t) :
    wrap_360 (x + binAngleDeg i) = stepAngle x s := by
  obtain ⟨t, ht⟩ := hs
  have hcast : (⌊x / 10⌋ : K) + (i : ℕ) = (s : ℕ) + 36 * t := by exact_mod_cast ht
  have heq : x + binAngleDeg i + (-t : ℤ) * 360 = stepAngle x s := by
    rw [binAngleDeg, stepAngle, reduce]
    push_cast
    linear_combination 10 * hcast
  have hlt := wraps_ten.lt x
  rw [← heq]
  refine h.eq_of_mem (-t) ?_ ?_
  · rw [heq]
    exact stepAngle_nonneg x s
  · rw [heq]
    linarith [stepAngle_le x s]

theorem exists_step (q r : ℤ) : ∃ i : Fin 36, ∃ t : ℤ, q + (i : ℕ) = r + 36 * t := by
  refine ⟨⟨((r - q) % 36).toNat, by omega⟩, -((r - q) / 36), ?_⟩
  dsimp only
  omega

theorem angles_of_bins (h : Wraps 360 wrap_360) (x : K) (P : K → Prop) :
    (∀ i, P (wrap_360 (x + binAngleDeg i))) ↔ ∀ s, P (stepAngle x s) := by
  constructor
  · intro hP s
    obtain ⟨i, t, hi⟩ := exists_step ⌊x / 10⌋ (s : ℕ)
    rw [← wrap_eq_stepAngle h x i s ⟨t, hi⟩]
    exact hP i
  · intro hP i
    obtain ⟨s, t, hs⟩ := exists_step 0 (⌊x / 10⌋ + (i : ℕ))
    rw [wrap_eq_stepAngle h x i s ⟨-t, by omega⟩]
    exact hP s

/-! ### The message -/

/-- What the message is taken for: no entry outside the array is read, and each bin gets the first
entry whose direction, on the circle, is at or after its own. -/
structure EntersFirst (wrap_360 : K → K) (obstacle : ObstacleDistance K) (now : UInt64) (yaw : K)
    (c : CollisionPrevention) : Prop where
  reads : (updateObstacleMap wrap_360 obstacle now yaw c).isSome
  first : ∀ o, origin yaw obstacle = some o → ∀ i, ∀ k : ℤ, 0 ≤ k → k ≤ 71 →
    wrap_360 (obstacle.angle_offset + entryOf wrap_360 obstacle o i * obstacle.increment -
        (o + binAngleDeg i)) ≤
      wrap_360 (obstacle.angle_offset + k * obstacle.increment - (o + binAngleDeg i))

/-- The array reaches the last bin, and the sensor does not measure between a bin and the next step
of its first turn in another turn. -/
structure Fits (o : K) (obstacle : ObstacleDistance K) : Prop where
  reaches : reduce 10 (o - obstacle.angle_offset) + 350 ≤ 71 * obstacle.increment
  turns : (∃ t : ℤ, obstacle.increment = t * 360) ∨
    ∀ s, Interleaved 360 obstacle.increment 71 (stepAngle (o - obstacle.angle_offset) s)

omit [IsStrictOrderedRing K] in
theorem entryOf_eq (o : K) (i : Fin 36) : entryOf wrap_360 obstacle o i =
    ⌈wrap_360 (o - obstacle.angle_offset + binAngleDeg i) / obstacle.increment⌉ := by
  rw [entryOf, msgIndex, mul_one_div, add_sub_right_comm]

theorem entries_iff (h : Wraps 360 wrap_360) (hinc : 0 < obstacle.increment) (o : K) :
    (∀ i, 0 ≤ entryOf wrap_360 obstacle o i ∧ entryOf wrap_360 obstacle o i ≤ 71) ↔
      reduce 10 (o - obstacle.angle_offset) + 350 ≤ 71 * obstacle.increment := by
  simp only [entryOf_eq]
  rw [angles_of_bins h (o - obstacle.angle_offset)
    fun r => 0 ≤ ⌈r / obstacle.increment⌉ ∧ ⌈r / obstacle.increment⌉ ≤ 71]
  constructor
  · intro hall
    have hlast := (ceil_div_le_iff hinc _ _).mp (hall 35).2
    have heq : stepAngle (o - obstacle.angle_offset) 35 =
        reduce 10 (o - obstacle.angle_offset) + 350 := by
      rw [stepAngle]
      norm_num
    rw [heq] at hlast
    exact_mod_cast hlast
  · intro hle s
    have hs := (stepAngle_le (o - obstacle.angle_offset) s).trans hle
    exact ⟨Int.ceil_nonneg (div_nonneg (stepAngle_nonneg _ s) hinc.le),
      (ceil_div_le_iff hinc _ _).mpr (by exact_mod_cast hs)⟩

omit [FloorRing K] in
theorem wrap_entry (h : Wraps 360 wrap_360) (o : K) (i : Fin 36) (k : ℤ) :
    wrap_360 (obstacle.angle_offset + k * obstacle.increment - (o + binAngleDeg i)) =
      wrap_360 (k * obstacle.increment - wrap_360 (o - obstacle.angle_offset + binAngleDeg i)) := by
  rw [h.sub_wrap]
  congr 1
  ring

theorem first_iff_steps (h : Wraps 360 wrap_360) (o : K) :
    (∀ i, ∀ k : ℤ, 0 ≤ k → k ≤ 71 →
      wrap_360 (obstacle.angle_offset + entryOf wrap_360 obstacle o i * obstacle.increment -
          (o + binAngleDeg i)) ≤
        wrap_360 (obstacle.angle_offset + k * obstacle.increment - (o + binAngleDeg i))) ↔
      ∀ s, ∀ k : ℤ, 0 ≤ k → k ≤ 71 →
        wrap_360 (⌈stepAngle (o - obstacle.angle_offset) s / obstacle.increment⌉ *
            obstacle.increment - stepAngle (o - obstacle.angle_offset) s) ≤
          wrap_360 (k * obstacle.increment - stepAngle (o - obstacle.angle_offset) s) := by
  simp only [wrap_entry h, entryOf_eq]
  exact angles_of_bins h (o - obstacle.angle_offset) fun r => ∀ k : ℤ, 0 ≤ k → k ≤ 71 →
    wrap_360 (⌈r / obstacle.increment⌉ * obstacle.increment - r) ≤
      wrap_360 (k * obstacle.increment - r)

theorem whole_turns_of_gt (h : Wraps 360 wrap_360) {inc x : K} (hinc : 360 < inc)
    (hfirst : ∀ s, ∀ k : ℤ, 0 ≤ k → k ≤ 71 →
      wrap_360 (⌈stepAngle x s / inc⌉ * inc - stepAngle x s) ≤ wrap_360 (k * inc - stepAngle x s)) :
    ∃ t : ℤ, inc = t * 360 := by
  obtain ⟨t, ht⟩ := h.turns inc
  have hlt := h.lt inc
  have hrem := wraps_ten.nonneg x
  have hrem' := wraps_ten.lt x
  rcases (h.nonneg inc).eq_or_lt with hzero | hpos
  · refine ⟨-t, ?_⟩
    rw [← hzero] at ht
    push_cast
    linarith
  exfalso
  -- every bin behind the first direction uses the first step
  have hone : ∀ s, 0 < stepAngle x s → stepAngle x s < 360 → ∀ k : ℤ, 0 ≤ k → k ≤ 71 →
      wrap_360 (wrap_360 inc - stepAngle x s) ≤ wrap_360 (k * inc - stepAngle x s) := by
    intro s hs hs' k hk hk'
    have hceil : ⌈stepAngle x s / inc⌉ = 1 := by
      have hinc₀ : 0 < inc := lt_trans (by norm_num) hinc
      refine le_antisymm ((ceil_div_le_iff hinc₀ _ _).mpr ?_) (Int.ceil_pos.mpr (div_pos hs hinc₀))
      rw [Int.cast_one, one_mul]
      exact (hs'.trans hinc).le
    have hsame : wrap_360 (wrap_360 inc - stepAngle x s) = wrap_360 (inc - stepAngle x s) := by
      rw [ht, add_sub_right_comm, h.add_turns]
    have hle := hfirst s k hk hk'
    rw [hceil, Int.cast_one, one_mul] at hle
    rwa [hsame]
  have hlast : stepAngle x 35 = reduce 10 x + 350 := by
    rw [stepAngle]
    norm_num
  have hnext : stepAngle x 34 = reduce 10 x + 340 := by
    rw [stepAngle]
    norm_num
  -- the entry `0` is in front of the last bin, so the step is too
  have hstep : reduce 10 x + 350 ≤ wrap_360 inc := by
    by_contra hgt
    have hle := hone 35 (by linarith) (by linarith) 0 le_rfl (by norm_num)
    rw [hlast, Int.cast_zero, zero_mul, zero_sub] at hle
    rw [h.eq_of_mem (x := wrap_360 inc - (reduce 10 x + 350)) 1 (by push_cast; linarith)
      (by push_cast; linarith), h.eq_of_mem (x := -(reduce 10 x + 350)) 1 (by push_cast; linarith)
      (by push_cast; linarith)] at hle
    linarith
  -- then the second step is in front of it for the bin before
  have hle := hone 34 (by linarith) (by linarith) 2 (by norm_num) (by norm_num)
  have hsecond : wrap_360 ((2 : ℤ) * inc - stepAngle x 34) =
      2 * wrap_360 inc - 360 - stepAngle x 34 := by
    have heq : (2 : ℤ) * inc - stepAngle x 34 + (2 * t - 1 : ℤ) * 360 =
        2 * wrap_360 inc - 360 - stepAngle x 34 := by
      rw [ht]
      push_cast
      ring
    rw [h.eq_of_mem (2 * t - 1) (by rw [heq, hnext]; linarith) (by rw [heq, hnext]; linarith), heq]
  rw [hsecond, hnext, h.eq_self (by linarith) (by linarith)] at hle
  linarith

theorem first_iff (h : Wraps 360 wrap_360) (hinc : 0 < obstacle.increment) (o : K) :
    (∀ s, ∀ k : ℤ, 0 ≤ k → k ≤ 71 →
      wrap_360 (⌈stepAngle (o - obstacle.angle_offset) s / obstacle.increment⌉ *
          obstacle.increment - stepAngle (o - obstacle.angle_offset) s) ≤
        wrap_360 (k * obstacle.increment - stepAngle (o - obstacle.angle_offset) s)) ↔
      (∃ t : ℤ, obstacle.increment = t * 360) ∨
        ∀ s, Interleaved 360 obstacle.increment 71 (stepAngle (o - obstacle.angle_offset) s) := by
  constructor
  · intro hfirst
    rcases le_or_gt obstacle.increment 360 with hle | hgt
    · exact .inr fun s => interleaved_of_wrap_ceil_le h hinc hle (hfirst s)
    · exact .inl (whole_turns_of_gt h hgt hfirst)
  · rintro (⟨t, ht⟩ | hint) s k hk hk'
    · have hsame : ∀ j : ℤ, wrap_360
          (j * obstacle.increment - stepAngle (o - obstacle.angle_offset) s) =
          wrap_360 (-stepAngle (o - obstacle.angle_offset) s) := by
        intro j
        rw [← h.add_turns (-stepAngle (o - obstacle.angle_offset) s) (j * t), ht]
        congr 1
        push_cast
        ring
      rw [hsame, hsame]
    · exact wrap_ceil_le h hinc (hint s) hk hk'

/-- **When a message is entered as it was measured**: no frame is supported, or the array fits. -/
theorem entersFirst_iff (h : Wraps 360 wrap_360) (now : UInt64) (yaw : K) (c : CollisionPrevention)
    (haccept : Accepts now obstacle) :
    EntersFirst wrap_360 obstacle now yaw c ↔ ∀ o, origin yaw obstacle = some o →
      Fits o obstacle := by
  have hinc := haccept.2
  have hreads : (updateObstacleMap wrap_360 obstacle now yaw c).isSome ↔
      ∀ o, origin yaw obstacle = some o →
        reduce 10 (o - obstacle.angle_offset) + 350 ≤ 71 * obstacle.increment := by
    rw [updateObstacleMap, if_pos haccept, isSome_addObstacleSensorData]
    exact forall₂_congr fun o _ => entries_iff h hinc o
  constructor
  · intro henters o ho
    exact ⟨hreads.mp henters.reads o ho,
      (first_iff h hinc o).mp ((first_iff_steps h o).mp (henters.first o ho))⟩
  · intro hfits
    refine ⟨hreads.mpr fun o ho => (hfits o ho).reaches, fun o ho => ?_⟩
    exact (first_iff_steps h o).mpr ((first_iff h hinc o).mpr (hfits o ho).turns)

theorem fits_of_dvd {o : K} (hinc : 360 ≤ 71 * obstacle.increment) (m : ℤ)
    (hm : m * obstacle.increment = 360) : Fits o obstacle := by
  have hlt := wraps_ten.lt (o - obstacle.angle_offset)
  exact ⟨by linarith, .inr fun s => interleaved_of_dvd 71 m hm⟩

/-- A sensor that measures in steps of `increment` degrees, from one degree to the right on. -/
def turned (increment : ℚ) : ObstacleDistance ℚ where
  timestamp := 0
  frame := ObstacleDistance.MAV_FRAME_BODY_FRD
  distances := fun _ => 500
  increment := increment
  min_distance := 20
  max_distance := 1000
  angle_offset := 1

def noObstacles : CollisionPrevention where
  timestamp := 0
  min_distance := UINT16_MAX
  max_distance := 0
  distances := fun _ => UINT16_MAX
  data_timestamps := fun _ => 0
  data_maxranges := fun _ => 0
  data_fov := fun _ => false

theorem entersFirst_turned : EntersFirst (reduce 360) (turned 10) 100 30 noObstacles :=
  (entersFirst_iff (wraps_reduce (by norm_num)) _ _ _ ⟨by decide, by norm_num [turned]⟩).mpr
    fun _ _ => fits_of_dvd (by norm_num [turned]) 36 (by norm_num [turned])

/-- With steps of five degrees, the first bin is 359 degrees from the first entry. -/
theorem not_entersFirst_turned : ¬ EntersFirst (reduce 360) (turned 5) 100 30 noObstacles := by
  intro henters
  have hreads := henters.reads
  rw [updateObstacleMap, if_pos ⟨by decide, by norm_num [turned]⟩,
    isSome_addObstacleSensorData] at hreads
  have hfirst := (hreads 0 rfl 0).2
  have hfloor : ⌊(-1 / 360 : ℚ)⌋ = -1 := by
    rw [Int.floor_eq_iff]
    norm_num
  have hceil : ⌈(359 / 5 : ℚ)⌉ = 72 := by
    rw [Int.ceil_eq_iff]
    norm_num
  rw [entryOf_eq] at hfirst
  norm_num [turned, reduce, binAngleDeg, hfloor, hceil] at hfirst

end CollisionPrevention
