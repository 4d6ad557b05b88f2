/-
The mixer of a multirotor.

Roll, pitch, yaw and thrust are mixed to the outputs of the rotors.  Where outputs are beyond their
limits, a multiple of the scales of one axis is added, so that the axis gives way; the multiple
comes from the worst output on either side.

* `gain_ones` — the multiple, when all outputs are moved together;
* `minimize_reduce_sum` — moving them to reduce the thrust never adds thrust;
* **`withoutAirmode`** — the thrust without airmode, the excess that is left, and runs.
-/
import AerialManipulator.Math
import AerialManipulator.Lib.Trace

namespace MultirotorMixer

structure SaturationStatus where
  valid : Bool
  motor_pos : Bool
  motor_neg : Bool
  roll_pos : Bool
  roll_neg : Bool
  pitch_pos : Bool
  pitch_neg : Bool
  yaw_pos : Bool
  yaw_neg : Bool
  thrust_pos : Bool
  thrust_neg : Bool
  deriving DecidableEq

def SaturationStatus.zero : SaturationStatus :=
  ⟨false, false, false, false, false, false, false, false, false, false, false⟩

inductive Airmode
  | disabled
  | roll_pitch
  | roll_pitch_yaw
  deriving DecidableEq

structure Rotor (K : Type*) where
  roll_scale : K
  pitch_scale : K
  yaw_scale : K
  thrust_scale : K

structure Controls (K : Type*) where
  roll : K
  pitch : K
  yaw : K
  thrust : K

structure State (K : Type*) where
  delta_out_max : K
  thrust_factor : K
  airmode : Airmode
  saturation_status : SaturationStatus
  rotors : List (Rotor K)
  outputs_prev : List K

section

variable {K : Type*} [Field K] [LinearOrder K]

def State.init (rotors : List (Rotor K)) : State K :=
  ⟨0, 0, .disabled, .zero, rotors, List.replicate rotors.length (-1)⟩

/-! ### Saturation -/

/-- `k_min`, `k_max` and the status, after one more output. -/
def gainStep (min_output max_output : K) (r : K × K × SaturationStatus) (vo : K × K) :
    K × K × SaturationStatus :=
  -- "Avoid division by zero."
  if |vo.1| < FLT_EPSILON K then r
  else
    let r :=
      if vo.2 < min_output then
        let k := (min_output - vo.2) / vo.1
        (if k < r.1 then k else r.1, if r.2.1 < k then k else r.2.1,
          { r.2.2 with motor_neg := true })
      else r
    if max_output < vo.2 then
      let k := (max_output - vo.2) / vo.1
      (if k < r.1 then k else r.1, if r.2.1 < k then k else r.2.1, { r.2.2 with motor_pos := true })
    else r

def computeDesaturationGain (desaturation_vector outputs : List K) (sat_status : SaturationStatus)
    (min_output max_output : K) : K × SaturationStatus :=
  let r := (desaturation_vector.zip outputs).foldl (gainStep min_output max_output)
    (0, 0, sat_status)
  (r.1 + r.2.1, r.2.2)

def addScaled (k : K) (vector outputs : List K) : List K :=
  List.zipWith (fun o v => o + k * v) outputs vector

def minimizeSaturation (desaturation_vector outputs : List K) (sat_status : SaturationStatus)
    (min_output max_output : K) (reduce_only : Bool) : List K × SaturationStatus :=
  let r := computeDesaturationGain desaturation_vector outputs sat_status min_output max_output
  if reduce_only ∧ 0 < r.1 then (outputs, r.2)
  else
    let outputs := addScaled r.1 desaturation_vector outputs
    let r := computeDesaturationGain desaturation_vector outputs r.2 min_output max_output
    -- half of the gain, so that what is left is the same on both sides
    (addScaled (r.1 / 2) desaturation_vector outputs, r.2)

/-! ### Mixing -/

def rollScales (rotors : List (Rotor K)) : List K := rotors.map Rotor.roll_scale

def pitchScales (rotors : List (Rotor K)) : List K := rotors.map Rotor.pitch_scale

def yawScales (rotors : List (Rotor K)) : List K := rotors.map Rotor.yaw_scale

def thrustScales (rotors : List (Rotor K)) : List K := rotors.map Rotor.thrust_scale

def mixYaw (rotors : List (Rotor K)) (yaw : K) (outputs : List K) (sat_status : SaturationStatus) :
    List K × SaturationStatus :=
  let outputs := addScaled yaw (yawScales rotors) outputs
  -- "allow some yaw response at maximum thrust"
  let r := minimizeSaturation (yawScales rotors) outputs sat_status 0 (115 / 100) false
  minimizeSaturation (thrustScales rotors) r.1 r.2 0 1 true

def mixAirmodeRp (rotors : List (Rotor K)) (roll pitch yaw thrust : K)
    (sat_status : SaturationStatus) : List K × SaturationStatus :=
  let outputs := rotors.map fun r => roll * r.roll_scale + pitch * r.pitch_scale +
    thrust * r.thrust_scale
  let r := minimizeSaturation (thrustScales rotors) outputs sat_status 0 1 false
  mixYaw rotors yaw r.1 r.2

def mixAirmodeRpy (rotors : List (Rotor K)) (roll pitch yaw thrust : K)
    (sat_status : SaturationStatus) : List K × SaturationStatus :=
  let outputs := rotors.map fun r =>
    roll * r.roll_scale + pitch * r.pitch_scale + yaw * r.yaw_scale + thrust * r.thrust_scale
  let r := minimizeSaturation (thrustScales rotors) outputs sat_status 0 1 false
  minimizeSaturation (yawScales rotors) r.1 r.2 0 1 false

/-- "never allow to increase the thrust to unsaturate a motor" -/
def mixAirmodeDisabled (rotors : List (Rotor K)) (roll pitch yaw thrust : K)
    (sat_status : SaturationStatus) : List K × SaturationStatus :=
  let outputs := rotors.map fun r => roll * r.roll_scale + pitch * r.pitch_scale +
    thrust * r.thrust_scale
  let r := minimizeSaturation (thrustScales rotors) outputs sat_status 0 1 true
  let r := minimizeSaturation (rollScales rotors) r.1 r.2 0 1 false
  let r := minimizeSaturation (pitchScales rotors) r.1 r.2 0 1 false
  mixYaw rotors yaw r.1 r.2

/-- The flags of an axis: those on the side of the scale, or on the other one. -/
def axisFlags (scale : K) (pos neg : Bool) : Bool × Bool :=
  if 0 < scale then (true, neg) else if scale < 0 then (pos, true) else (pos, neg)

def updateSaturationStatus (rotor : Rotor K)
    (clipping_high clipping_low_roll_pitch clipping_low_yaw : Bool) (s : SaturationStatus) :
    SaturationStatus :=
  let s :=
    if clipping_high then
      let roll := axisFlags rotor.roll_scale s.roll_pos s.roll_neg
      let pitch := axisFlags rotor.pitch_scale s.pitch_pos s.pitch_neg
      let yaw := axisFlags rotor.yaw_scale s.yaw_pos s.yaw_neg
      { s with
        roll_pos := roll.1, roll_neg := roll.2, pitch_pos := pitch.1, pitch_neg := pitch.2
        yaw_pos := yaw.1, yaw_neg := yaw.2, thrust_pos := true }
    else s
  let s :=
    if clipping_low_roll_pitch then
      let roll := axisFlags rotor.roll_scale s.roll_neg s.roll_pos
      let pitch := axisFlags rotor.pitch_scale s.pitch_neg s.pitch_pos
      { s with
        roll_neg := roll.1, roll_pos := roll.2, pitch_neg := pitch.1, pitch_pos := pitch.2
        thrust_neg := true }
    else s
  let s :=
    if clipping_low_yaw then
      let yaw := axisFlags rotor.yaw_scale s.yaw_neg s.yaw_pos
      { s with yaw_neg := yaw.1, yaw_pos := yaw.2 }
    else s
  { s with valid := true }

/-- The output of a rotor, and how it was clipped. -/
structure Limited (K : Type*) where
  output : K
  clipping_high : Bool
  clipping_low_roll_pitch : Bool
  clipping_low_yaw : Bool

def limit (airmode : Airmode) (delta_out_max output prev : K) : Limited K :=
  let low := decide (output < -(99 / 100))
  let r : Limited K := ⟨output, false, low && decide (airmode = .disabled),
    low && (decide (airmode = .disabled) || decide (airmode = .roll_pitch))⟩
  if 0 < delta_out_max then
    if delta_out_max < output - prev then { r with output := prev + delta_out_max, clipping_high :=
      true }
    else if output - prev < -delta_out_max then
      { r with output := prev - delta_out_max, clipping_low_roll_pitch := true, clipping_low_yaw :=
        true }
    else r
  else r

def slewLoop (airmode : Airmode) (delta_out_max : K) :
    List (Rotor K) → List K → List K → SaturationStatus → List K × SaturationStatus
  | rotor :: rotors, output :: outputs, prev :: prevs, sat_status =>
    let r := limit airmode delta_out_max output prev
    let rest := slewLoop airmode delta_out_max rotors outputs prevs
      (updateSaturationStatus rotor r.clipping_high r.clipping_low_roll_pitch r.clipping_low_yaw
        sat_status)
    (r.output :: rest.1, rest.2)
  | _, _, _, sat_status => ([], sat_status)

variable [Elementary K]

/-- "model: thrust = (1 - _thrust_factor) * PWM + _thrust_factor * PWM^2" -/
def thrustModel (thrust_factor output : K) : K :=
  if 0 < thrust_factor then
    -(1 - thrust_factor) / (2 * thrust_factor) + Elementary.sqrt
      ((1 - thrust_factor) * (1 - thrust_factor) /
      (4 * thrust_factor * thrust_factor) + if output < 0 then 0 else output / thrust_factor)
  else output

/-- `mix`, for an array of the size `space`. -/
def mix (s : State K) (controls : Controls K) (space : ℕ) : State K × Option (List K) :=
  if space < s.rotors.length then (s, none)
  else
    let roll := math.constrain controls.roll (-1) 1
    let pitch := math.constrain controls.pitch (-1) 1
    let yaw := math.constrain controls.yaw (-1) 1
    let thrust := math.constrain controls.thrust 0 1
    let mixed :=
      match s.airmode with
      | .roll_pitch => mixAirmodeRp s.rotors roll pitch yaw thrust .zero
      | .roll_pitch_yaw => mixAirmodeRpy s.rotors roll pitch yaw thrust .zero
      | .disabled => mixAirmodeDisabled s.rotors roll pitch yaw thrust .zero
    let outputs := mixed.1.map fun o => math.constrain (2 * thrustModel s.thrust_factor o - 1)
      (-1) 1
    let r := slewLoop s.airmode s.delta_out_max s.rotors outputs s.outputs_prev mixed.2
    ({ s with delta_out_max := 0, saturation_status := r.2, outputs_prev := r.1 }, some r.1)

inductive Event (K : Type*)
  | mix (controls : Controls K) (space : ℕ)
  | set_max_delta_out_once (delta_out_max : K)
  | set_thrust_factor (val : K)
  | set_airmode (airmode : Airmode)

def step (s : State K) : Event K → State K
  | .mix controls space => (mix s controls space).1
  | .set_max_delta_out_once delta_out_max => { s with delta_out_max := delta_out_max }
  | .set_thrust_factor val => { s with thrust_factor := math.constrain val 0 1 }
  | .set_airmode airmode => { s with airmode := airmode }

end

/-! ### Sums and lengths -/

section

variable {K : Type*} [Field K]

theorem addScaled_ones (k : K) (outs : List K) :
    addScaled k (List.replicate outs.length 1) outs = outs.map (· + k) := by
  induction outs with
  | nil => rfl
  | cons o outs ih => exact congrArg₂ List.cons (congrArg (o + ·) (mul_one k)) ih

theorem sum_addScaled (k : K) {vector outs : List K} (hlen : vector.length = outs.length) :
    (addScaled k vector outs).sum = outs.sum + k * vector.sum := by
  induction outs generalizing vector with
  | nil =>
    rw [List.length_eq_zero_iff.mp hlen]
    simp [addScaled]
  | cons o outs ih =>
    obtain ⟨v, vector, rfl⟩ := List.exists_cons_of_length_eq_add_one hlen
    have hrest := ih (Nat.succ.inj hlen)
    rw [addScaled] at hrest ⊢
    rw [List.zipWith_cons_cons, List.sum_cons, List.sum_cons, List.sum_cons, hrest]
    ring

theorem length_addScaled (k : K) {vector outs : List K} (hlen : vector.length = outs.length) :
    (addScaled k vector outs).length = outs.length := by
  rw [addScaled, List.length_zipWith, hlen, min_self]

/-- A generated table. -/
structure Balanced (rotors : List (Rotor K)) : Prop where
  roll : (rollScales rotors).sum = 0
  pitch : (pitchScales rotors).sum = 0
  yaw : (yawScales rotors).sum = 0
  thrust : ∀ r ∈ rotors, r.thrust_scale = 1

theorem Balanced.thrustScales_eq {rotors : List (Rotor K)} (h : Balanced rotors) :
    thrustScales rotors = List.replicate rotors.length 1 :=
  List.map_eq_replicate_iff.mpr h.thrust

theorem sum_mixed (roll pitch thrust : K) (rotors : List (Rotor K)) :
    (rotors.map fun r => roll * r.roll_scale + pitch * r.pitch_scale + thrust * r.thrust_scale).sum
      = roll * (rollScales rotors).sum + pitch * (pitchScales rotors).sum
        + thrust * (thrustScales rotors).sum := by
  induction rotors with
  | nil => simp [rollScales, pitchScales, thrustScales]
  | cons r rotors ih =>
    simp only [rollScales, pitchScales, thrustScales, List.map_cons, List.sum_cons] at ih ⊢
    rw [ih]
    ring

variable [LinearOrder K]

theorem length_minimize {vector outs : List K} (st : SaturationStatus) (mn mx : K)
    (reduce_only : Bool) (hlen : vector.length = outs.length) :
    (minimizeSaturation vector outs st mn mx reduce_only).1.length = outs.length := by
  rw [minimizeSaturation]
  split
  · rfl
  · have hfirst := length_addScaled (computeDesaturationGain vector outs st mn mx).1 hlen
    exact (length_addScaled _ (hlen.trans hfirst.symm)).trans hfirst

theorem sum_minimize_balanced {vector outs : List K} (st : SaturationStatus) (mn mx : K)
    (reduce_only : Bool) (hlen : vector.length = outs.length) (hsum : vector.sum = 0) :
    (minimizeSaturation vector outs st mn mx reduce_only).1.sum = outs.sum := by
  rw [minimizeSaturation]
  split
  · rfl
  · have hfirst := length_addScaled (computeDesaturationGain vector outs st mn mx).1 hlen
    simp only
    rw [sum_addScaled _ (hlen.trans hfirst.symm), sum_addScaled _ hlen, hsum, mul_zero, mul_zero,
      add_zero, add_zero]

theorem length_axis (scale : Rotor K → K) {rotors : List (Rotor K)} {outs : List K}
    (hlen : outs.length = rotors.length) (st : SaturationStatus) (mn mx : K) (reduce_only : Bool) :
    (minimizeSaturation (rotors.map scale) outs st mn mx reduce_only).1.length = rotors.length :=
  (length_minimize st mn mx reduce_only ((List.length_map _).trans hlen.symm)).trans hlen

theorem length_mixYaw {rotors : List (Rotor K)} (yaw : K) {outs : List K}
    (hlen : outs.length = rotors.length) (st : SaturationStatus) :
    (mixYaw rotors yaw outs st).1.length = rotors.length := by
  have hscales : (yawScales rotors).length = outs.length := (List.length_map _).trans hlen.symm
  exact length_axis _ (length_axis _ ((length_addScaled yaw hscales).trans hlen) st 0
    (115 / 100) false) _ 0 1 true

theorem length_mixAirmodeDisabled (rotors : List (Rotor K)) (roll pitch yaw thrust : K)
    (st : SaturationStatus) : (mixAirmodeDisabled rotors roll pitch yaw thrust st).1.length =
      rotors.length :=
  length_mixYaw yaw (length_axis _
    (length_axis _ (length_axis _ (List.length_map _) _ 0 1 true) _ 0 1 false)
    _ 0 1 false) _

theorem length_mixAirmodeRp (rotors : List (Rotor K)) (roll pitch yaw thrust : K)
    (st : SaturationStatus) : (mixAirmodeRp rotors roll pitch yaw thrust st).1.length =
      rotors.length :=
  length_mixYaw yaw (length_axis _ (List.length_map _) _ 0 1 false) _

theorem length_mixAirmodeRpy (rotors : List (Rotor K)) (roll pitch yaw thrust : K)
    (st : SaturationStatus) : (mixAirmodeRpy rotors roll pitch yaw thrust st).1.length =
      rotors.length :=
  length_axis _ (length_axis _ (List.length_map _) _ 0 1 false) _ 0 1 false

/-! ### All outputs together -/

variable [IsStrictOrderedRing K]

theorem one_not_small : ¬ |(1 : K)| < FLT_EPSILON K := by
  rw [abs_one, not_lt, FLT_EPSILON]
  exact div_le_self zero_le_one (one_le_pow₀ one_le_two)

theorem gainStep_one (mn mx o : K) (r : K × K × SaturationStatus) (hneg : r.1 ≤ 0)
    (hpos : 0 ≤ r.2.1) :
    (gainStep mn mx r (1, o)).1 = min r.1 (mx - o) ∧
      (gainStep mn mx r (1, o)).2.1 = max r.2.1 (mn - o) := by
  have hif : ∀ a b : K, (if a < b then a else b) = min b a := fun a b => by
    rcases lt_or_ge a b with h | h
    · rw [if_pos h, min_eq_right h.le]
    · rw [if_neg (not_lt.mpr h), min_eq_left h]
  have hif' : ∀ a b : K, (if b < a then a else b) = max b a := fun a b => by
    rcases lt_or_ge b a with h | h
    · rw [if_pos h, max_eq_right h.le]
    · rw [if_neg (not_lt.mpr h), max_eq_left h]
  simp only [gainStep, if_neg one_not_small, div_one, hif, hif']
  -- the gain of an output that is too low is positive, and of one that is too high negative
  have hlow : o < mn → min r.1 (mn - o) = r.1 :=
    fun h => min_eq_left (hneg.trans (sub_nonneg.mpr h.le))
  have hlow' : ¬ o < mn → max r.2.1 (mn - o) = r.2.1 := fun h =>
    max_eq_left ((sub_nonpos.mpr (not_lt.mp h)).trans hpos)
  have hhigh : mx < o → ∀ m, 0 ≤ m → max m (mx - o) = m := fun h m hm =>
    max_eq_left ((sub_nonpos.mpr h.le).trans hm)
  have hhigh' : ¬ mx < o → min r.1 (mx - o) = r.1 := fun h =>
    min_eq_left (hneg.trans (sub_nonneg.mpr (not_lt.mp h)))
  by_cases hl : o < mn
  · rw [if_pos hl]
    by_cases hh : mx < o
    · rw [if_pos hh]
      exact ⟨by rw [hlow hl], hhigh hh _ (le_max_of_le_left hpos)⟩
    · rw [if_neg hh]
      exact ⟨by rw [hlow hl, hhigh' hh], rfl⟩
  · rw [if_neg hl]
    by_cases hh : mx < o
    · rw [if_pos hh]
      exact ⟨rfl, by rw [hhigh hh _ hpos, hlow' hl]⟩
    · rw [if_neg hh]
      exact ⟨(hhigh' hh).symm, (hlow' hl).symm⟩

theorem foldl_gainStep_one (mn mx : K) (outs : List K) (r : K × K × SaturationStatus)
    (hneg : r.1 ≤ 0) (hpos : 0 ≤ r.2.1) :
    ((((List.replicate outs.length 1).zip outs).foldl (gainStep mn mx) r).1
        = outs.foldl (fun m o => min m (mx - o)) r.1) ∧
      (((List.replicate outs.length 1).zip outs).foldl (gainStep mn mx) r).2.1
        = outs.foldl (fun m o => max m (mn - o)) r.2.1 := by
  induction outs generalizing r with
  | nil => exact ⟨rfl, rfl⟩
  | cons o outs ih =>
    obtain ⟨h1, h2⟩ := gainStep_one mn mx o r hneg hpos
    have hstep := ih (gainStep mn mx r (1, o)) (h1 ▸ min_le_of_left_le hneg)
      (h2 ▸ le_max_of_le_left hpos)
    rw [h1, h2] at hstep
    exact hstep

theorem foldl_min {α β : Type*} [LinearOrder β] (f : α → β) {l : List α} {a : α} (ha : a ∈ l)
    (hmin : ∀ b ∈ l, f a ≤ f b) (m : β) : l.foldl (fun m b => min m (f b)) m = min m (f a) := by
  have hle : ∀ (l : List α) (m : β), l.foldl (fun m b => min m (f b)) m ≤ m ∧
      (∀ b ∈ l, l.foldl (fun m b => min m (f b)) m ≤ f b) ∧
      ∀ k, k ≤ m → (∀ b ∈ l, k ≤ f b) → k ≤ l.foldl (fun m b => min m (f b)) m := by
    intro l
    induction l with
    | nil => exact fun m => ⟨le_rfl, by simp, fun k hk _ => hk⟩
    | cons b l ih =>
      intro m
      obtain ⟨h1, h2, h3⟩ := ih (min m (f b))
      refine ⟨h1.trans (min_le_left _ _), fun c hc => ?_, fun k hk hall => ?_⟩
      · rcases List.mem_cons.mp hc with rfl | hc
        · exact h1.trans (min_le_right _ _)
        · exact h2 c hc
      · exact h3 k (le_min hk (hall b List.mem_cons_self)) fun c hc => hall c
          (List.mem_cons_of_mem _ hc)
  obtain ⟨h1, h2, h3⟩ := hle l m
  exact le_antisymm (le_min h1 (h2 a ha))
    (h3 _ (min_le_left _ _) fun b hb => (min_le_right _ _).trans (hmin b hb))

theorem gain_ones (mn mx : K) (st : SaturationStatus) {outs : List K} {lo hi : K}
    (hlo : IsLeast {o | o ∈ outs} lo) (hhi : IsGreatest {o | o ∈ outs} hi) :
    (computeDesaturationGain (List.replicate outs.length 1) outs st mn mx).1
      = min 0 (mx - hi) + max 0 (mn - lo) := by
  obtain ⟨h1, h2⟩ := foldl_gainStep_one mn mx outs (0, 0, st) le_rfl le_rfl
  have hmin := foldl_min (fun o => mx - o) hhi.1 (fun o ho => sub_le_sub_left (hhi.2 ho) mx) 0
  have hmax := foldl_min (β := Kᵒᵈ) (fun o : K => OrderDual.toDual (mn - o)) hlo.1
    (fun o ho => sub_le_sub_left (hlo.2 ho) mn) (OrderDual.toDual 0)
  exact congrArg₂ (· + ·) (h1.trans hmin) (h2.trans hmax)

theorem isGreatest_map (k : K) {outs : List K} {hi : K} (h : IsGreatest {o | o ∈ outs} hi) :
    IsGreatest {o | o ∈ outs.map (· + k)} (hi + k) := by
  have hset : {o | o ∈ outs.map (· + k)} = (· + k) '' {o | o ∈ outs} :=
    Set.ext fun _ => List.mem_map
  exact hset ▸ (add_left_mono (a := k)).map_isGreatest h

theorem isLeast_map (k : K) {outs : List K} {lo : K} (h : IsLeast {o | o ∈ outs} lo) :
    IsLeast {o | o ∈ outs.map (· + k)} (lo + k) := by
  have hset : {o | o ∈ outs.map (· + k)} = (· + k) '' {o | o ∈ outs} :=
    Set.ext fun _ => List.mem_map
  exact hset ▸ (add_left_mono (a := k)).map_isLeast h

/-- The gain for the worst outputs, and half of the gain that is left. -/
def firstGain (mn mx lo hi : K) : K := min 0 (mx - hi) + max 0 (mn - lo)

def shift (mn mx lo hi : K) : K :=
  firstGain mn mx lo hi + firstGain mn mx (lo + firstGain mn mx lo hi)
    (hi + firstGain mn mx lo hi) / 2

theorem minimize_ones (mn mx : K) (st : SaturationStatus) (reduce_only : Bool) {outs : List K}
    {lo hi : K} (hlo : IsLeast {o | o ∈ outs} lo) (hhi : IsGreatest {o | o ∈ outs} hi) :
    (minimizeSaturation (List.replicate outs.length 1) outs st mn mx reduce_only).1
      = if reduce_only ∧ 0 < firstGain mn mx lo hi then outs
        else outs.map (· + shift mn mx lo hi) := by
  have hg := gain_ones mn mx st hlo hhi
  rw [minimizeSaturation, hg, ← firstGain]
  split
  · rfl
  · have hmap : addScaled (firstGain mn mx lo hi) (List.replicate outs.length 1) outs
        = outs.map (· + firstGain mn mx lo hi) := addScaled_ones _ _
    have hlen : outs.length = (outs.map (· + firstGain mn mx lo hi)).length :=
      (List.length_map _).symm
    simp only
    rw [hmap, hlen, gain_ones mn mx _ (isLeast_map _ hlo) (isGreatest_map _ hhi), addScaled_ones,
      List.map_map]
    refine congrArg (fun f : K → K => List.map f outs) (funext fun o => ?_)
    exact add_assoc _ _ _

/-- The shift takes away what is too much, puts the outputs inside their range if they fit, and
else leaves as much above as below. -/
theorem shift_law {mn mx lo hi : K} :
    (firstGain mn mx lo hi ≤ 0 → shift mn mx lo hi ≤ 0) ∧
      (hi - lo ≤ mx - mn → mn ≤ lo + shift mn mx lo hi ∧ hi + shift mn mx lo hi ≤ mx) ∧
      (mx - mn < hi - lo → hi + shift mn mx lo hi = mx + (hi - lo - (mx - mn)) / 2 ∧
        lo + shift mn mx lo hi = mn - (hi - lo - (mx - mn)) / 2) := by
  rw [shift]
  generalize hk : firstGain mn mx lo hi = k
  rw [firstGain] at hk ⊢
  rcases le_total 0 (mx - hi) with h1 | h1 <;> rcases le_total 0 (mn - lo) with h2 | h2 <;>
  rcases le_total 0 (mx - (hi + k)) with h3 | h3 <;>
  rcases le_total 0 (mn - (lo + k)) with h4 | h4 <;>
  simp only [min_eq_left, min_eq_right, max_eq_left, max_eq_right, h1, h2, h3, h4] at hk ⊢ <;>
  refine ⟨fun h => ?_, fun h => ⟨?_, ?_⟩, fun h => ⟨?_, ?_⟩⟩ <;> linarith

/-! ### The thrust -/

theorem minimize_reduce_sum (outs : List K) (st : SaturationStatus) (mn mx : K) :
    (minimizeSaturation (List.replicate outs.length 1) outs st mn mx true).1.sum ≤ outs.sum := by
  rcases outs.eq_nil_or_concat' with rfl | ⟨init, last, houts⟩
  · rw [minimizeSaturation]
    split <;> exact le_rfl
  · have hne : {o | o ∈ outs}.Nonempty := ⟨last, by simp [houts]⟩
    obtain ⟨lo, hlo⟩ := Set.exists_min_image _ id outs.finite_toSet hne
    obtain ⟨hi, hhi⟩ := Set.exists_max_image _ id outs.finite_toSet hne
    rw [minimize_ones mn mx st true hlo hhi]
    split
    · rfl
    · rename_i h
      have hneg := shift_law.1 (not_lt.mp fun hk => h ⟨rfl, hk⟩)
      refine (List.sum_le_sum fun o _ => ?_).trans_eq (congrArg List.sum (List.map_id outs))
      exact add_le_of_nonpos_right hneg

theorem mixYaw_sum {rotors : List (Rotor K)} (h : Balanced rotors) (yaw : K) {outs : List K}
    (hlen : outs.length = rotors.length) (st : SaturationStatus) :
    (mixYaw rotors yaw outs st).1.sum ≤ outs.sum := by
  have hscales : (yawScales rotors).length = outs.length := (List.length_map _).trans hlen.symm
  have hadd : (addScaled yaw (yawScales rotors) outs).sum = outs.sum := by
    rw [sum_addScaled yaw hscales, h.yaw, mul_zero, add_zero]
  have hlen' := length_addScaled yaw hscales
  have hyaw := sum_minimize_balanced st 0 (115 / 100) false (hscales.trans hlen'.symm) h.yaw
  have hyawlen := length_minimize st 0 (115 / 100) false (hscales.trans hlen'.symm)
  rw [mixYaw, h.thrustScales_eq, ← hlen, ← hlen', ← hyawlen]
  exact (minimize_reduce_sum _ _ 0 1).trans_eq (hyaw.trans hadd)

theorem mixAirmodeDisabled_sum {rotors : List (Rotor K)} (h : Balanced rotors)
    (roll pitch yaw thrust : K) (st : SaturationStatus) :
    (mixAirmodeDisabled rotors roll pitch yaw thrust st).1.sum ≤ rotors.length * thrust := by
  rw [mixAirmodeDisabled]
  generalize hmixed : (rotors.map fun r =>
    roll * r.roll_scale + pitch * r.pitch_scale + thrust * r.thrust_scale) = outs
  have hlen : outs.length = rotors.length := hmixed ▸ List.length_map _
  have hsum : outs.sum = rotors.length * thrust := by
    rw [← hmixed, sum_mixed, h.roll, h.pitch, h.thrustScales_eq, List.sum_replicate, nsmul_eq_mul]
    ring
  have hfirst := minimize_reduce_sum outs st 0 1
  rw [hlen, ← h.thrustScales_eq] at hfirst
  have hfirstlen := (length_minimize st 0 1 true ((List.length_map _).trans hlen.symm) :
    (minimizeSaturation (thrustScales rotors) outs st 0 1 true).1.length = outs.length).trans hlen
  generalize minimizeSaturation (thrustScales rotors) outs st 0 1 true = r1 at hfirst hfirstlen
  have hrolllen : (rollScales rotors).length = r1.1.length :=
    (List.length_map _).trans hfirstlen.symm
  have hroll := sum_minimize_balanced r1.2 0 1 false hrolllen h.roll
  have hlen2 := (length_minimize r1.2 0 1 false hrolllen).trans hfirstlen
  generalize minimizeSaturation (rollScales rotors) r1.1 r1.2 0 1 false = r2 at hroll hlen2
  have hpitchlen : (pitchScales rotors).length = r2.1.length := (List.length_map _).trans hlen2.symm
  have hpitch := sum_minimize_balanced r2.2 0 1 false hpitchlen h.pitch
  have hlen3 := (length_minimize r2.2 0 1 false hpitchlen).trans hlen2
  calc _ ≤ (minimizeSaturation (pitchScales rotors) r2.1 r2.2 0 1 false).1.sum :=
    mixYaw_sum h yaw hlen3 _
    _ = r1.1.sum := hpitch.trans hroll
    _ ≤ _ := hfirst.trans_eq hsum

/-! ### The limit of the change -/

/-- The range of an output. -/
def InRange (o : K) : Prop := -1 ≤ o ∧ o ≤ 1

/-- What an output may be after the output `prev`. -/
def Follows (delta_out_max : K) (o prev : K) : Prop :=
  InRange o ∧ (0 < delta_out_max → |o - prev| ≤ delta_out_max)

theorem limit_spec (airmode : Airmode) (delta_out_max : K) {output prev : K} (ho : InRange output)
    (hp : InRange prev) : Follows delta_out_max
      (limit airmode delta_out_max output prev).output prev := by
  rw [limit]
  by_cases hd : 0 < delta_out_max
  · rw [if_pos hd]
    split_ifs with hhigh hlow
    · refine ⟨⟨?_, ?_⟩, fun _ => ?_⟩
      · exact hp.1.trans (le_add_of_nonneg_right hd.le)
      · exact (add_le_of_le_sub_left hhigh.le).trans ho.2
      · rw [add_sub_cancel_left, abs_of_pos hd]
    · refine ⟨⟨?_, ?_⟩, fun _ => ?_⟩
      · linarith [ho.1]
      · exact (sub_le_self prev hd.le).trans hp.2
      · rw [sub_sub_cancel_left, abs_neg, abs_of_pos hd]
    · exact ⟨ho, fun _ => abs_le.mpr ⟨not_lt.mp hlow, not_lt.mp hhigh⟩⟩
  · rw [if_neg hd]
    exact ⟨ho, fun h => absurd h hd⟩

theorem slewLoop_spec (airmode : Airmode) (delta_out_max : K) {rotors : List (Rotor K)}
    {outs prevs : List K}
    (hlen : outs.length = rotors.length) (hprevs : prevs.length = rotors.length)
    (hout : ∀ o ∈ outs, InRange o) (hprev : ∀ o ∈ prevs, InRange o) (st : SaturationStatus) :
    List.Forall₂ (Follows delta_out_max)
      (slewLoop airmode delta_out_max rotors outs prevs st).1 prevs := by
  induction rotors generalizing outs prevs st with
  | nil =>
    rw [List.length_eq_zero_iff.mp hlen, List.length_eq_zero_iff.mp hprevs]
    exact List.Forall₂.nil
  | cons rotor rotors ih =>
    obtain ⟨o, outs, rfl⟩ := List.exists_cons_of_length_eq_add_one hlen
    obtain ⟨p, prevs, rfl⟩ := List.exists_cons_of_length_eq_add_one hprevs
    rw [List.forall_mem_cons] at hout hprev
    exact List.Forall₂.cons (limit_spec airmode delta_out_max hout.1 hprev.1)
      (ih (Nat.succ.inj hlen) (Nat.succ.inj hprevs) hout.2 hprev.2 _)

/-! ### Runs -/

theorem inRange_constrain (x : K) : InRange (math.constrain x (-1) 1) := by
  have hle : (-1 : K) ≤ 1 := neg_le_self zero_le_one
  rw [math.constrain]
  split_ifs with hlo hhi
  · exact ⟨le_rfl, hle⟩
  · exact ⟨hle, le_rfl⟩
  · exact ⟨not_lt.mp hlo, not_lt.mp hhi⟩

/-- The previous outputs are those of the rotors, in range. -/
structure State.Ready (s : State K) : Prop where
  length : s.outputs_prev.length = s.rotors.length
  inRange : ∀ o ∈ s.outputs_prev, InRange o

theorem ready_init (rotors : List (Rotor K)) : (State.init rotors).Ready := by
  refine ⟨List.length_replicate, fun o ho => ?_⟩
  rw [List.eq_of_mem_replicate ho]
  exact ⟨le_rfl, neg_le_self zero_le_one⟩

variable [Elementary K]

theorem mix_spec {s : State K} (h : s.Ready) (controls : Controls K) (space : ℕ) {outs : List K}
    (hmix : (mix s controls space).2 = some outs) :
    List.Forall₂ (Follows s.delta_out_max) outs s.outputs_prev ∧
      (mix s controls space).1.outputs_prev = outs := by
  rw [mix] at hmix ⊢
  split at hmix
  · exact absurd hmix (Option.some_ne_none outs).symm
  · rename_i hspace
    rw [if_neg hspace]
    refine ⟨?_, Option.some.inj hmix⟩
    rw [← Option.some.inj hmix]
    refine slewLoop_spec _ _ ((List.length_map _).trans ?_) h.length (fun o ho => ?_) h.inRange _
    · cases s.airmode with
      | disabled => exact length_mixAirmodeDisabled _ _ _ _ _ _
      | roll_pitch => exact length_mixAirmodeRp _ _ _ _ _ _
      | roll_pitch_yaw => exact length_mixAirmodeRpy _ _ _ _ _ _
    · obtain ⟨o', -, rfl⟩ := List.mem_map.mp ho
      exact inRange_constrain _

/-- What a call keeps. -/
def Kept (s : State K) : Event K → Prop
  | .mix controls space => ∀ outs, (mix s controls space).2 = some outs →
      List.Forall₂ (Follows s.delta_out_max) outs s.outputs_prev ∧
        (mix s controls space).1.outputs_prev = outs
  | _ => True

theorem ready_step {s : State K} (h : s.Ready) (e : Event K) : Kept s e ∧ (step s e).Ready := by
  cases e with
  | mix controls space =>
    refine ⟨fun outs hmix => mix_spec h controls space hmix, ?_⟩
    cases hmix : (mix s controls space).2 with
    | none =>
      rw [mix] at hmix
      split at hmix
      · rename_i hspace
        rw [step, mix, if_pos hspace]
        exact h
      · exact nomatch hmix
    | some outs =>
      obtain ⟨hfollows, hprev⟩ := mix_spec h controls space hmix
      have hrotors : (mix s controls space).1.rotors = s.rotors := by
        rw [mix]
        split <;> rfl
      refine ⟨?_, fun o ho => ?_⟩
      · exact ((congrArg List.length hprev).trans hfollows.length_eq).trans
          (h.length.trans (congrArg List.length hrotors.symm))
      · exact ((List.forall₂_and_left outs s.outputs_prev).mp hfollows).1 o (hprev ▸ ho)
  | set_max_delta_out_once d => exact ⟨trivial, h.length, h.inRange⟩
  | set_thrust_factor v => exact ⟨trivial, h.length, h.inRange⟩
  | set_airmode a => exact ⟨trivial, h.length, h.inRange⟩

end

/-! ### The mixer without airmode -/

/-- The thrust, the saturation and runs. -/
structure WithoutAirmode : Prop where
  never_adds : ∀ (rotors : List (Rotor ℝ)) (roll pitch yaw thrust : ℝ) (st : SaturationStatus),
    Balanced rotors → (mixAirmodeDisabled rotors roll pitch yaw thrust st).1.sum ≤
      rotors.length * thrust
  inside : ∀ (outs : List ℝ) (st : SaturationStatus) (mn mx lo hi : ℝ), IsLeast {o | o ∈ outs} lo →
    IsGreatest {o | o ∈ outs} hi → hi - lo ≤ mx - mn →
    ∀ o ∈ (minimizeSaturation (List.replicate outs.length 1) outs st mn mx false).1, mn ≤ o ∧ o ≤ mx
  excess : ∀ (outs : List ℝ) (st : SaturationStatus) (mn mx lo hi : ℝ), IsLeast {o | o ∈ outs} lo →
    IsGreatest {o | o ∈ outs} hi → mx - mn < hi - lo → ∃ e > 0,
    IsGreatest {o | o ∈ (minimizeSaturation (List.replicate outs.length 1) outs st mn mx false).1}
      (mx + e) ∧
    IsLeast {o | o ∈ (minimizeSaturation (List.replicate outs.length 1) outs st mn mx false).1}
      (mn - e)
  start : ∀ rotors : List (Rotor ℝ), (State.init rotors).Ready
  run : ∀ (s : State ℝ) (events : List (Event ℝ)), s.Ready → Trace.Always step Kept s events

/-- Desaturation never adds thrust, moves all outputs inside where they fit and shares the excess
where they do not, and the outputs of a run are in range and change by at most the limit. -/
theorem withoutAirmode : WithoutAirmode where
  never_adds _ roll pitch yaw thrust st h := mixAirmodeDisabled_sum h roll pitch yaw thrust st
  inside outs st mn mx lo hi hlo hhi h o ho := by
    obtain ⟨hmn, hmx⟩ := shift_law.2.1 h
    rw [minimize_ones mn mx st false hlo hhi, if_neg (fun hc => nomatch hc.1)]
      at ho
    obtain ⟨o', ho', rfl⟩ := List.mem_map.mp ho
    exact ⟨hmn.trans (add_le_add_left (hlo.2 ho') _), (add_le_add_left (hhi.2 ho') _).trans hmx⟩
  excess outs st mn mx lo hi hlo hhi h := by
    obtain ⟨hmx, hmn⟩ := shift_law.2.2 h
    refine ⟨(hi - lo - (mx - mn)) / 2, half_pos (sub_pos.mpr h), ?_⟩
    rw [minimize_ones mn mx st false hlo hhi, if_neg (fun hc => nomatch hc.1), ← hmx, ← hmn]
    exact ⟨isGreatest_map _ hhi, isLeast_map _ hlo⟩
  start := ready_init
  run s events h := Trace.always_of_invariant (I := State.Ready) (C := fun _ _ => True)
    (fun _ e hI _ => ready_step hI e) h (Trace.always_true s events)

/-- The four rotors of an x. -/
def quadX {K : Type*} [Field K] : List (Rotor K) :=
  [⟨-1, 1, 1, 1⟩, ⟨1, -1, 1, 1⟩, ⟨1, 1, -1, 1⟩, ⟨-1, -1, -1, 1⟩]

/-- A demand in all axes, two outputs that are too far from each other, and two that are not. -/
theorem quad_never_adds :
    (mixAirmodeDisabled (quadX : List (Rotor ℝ)) (3 / 5) (-1 / 5) (1 / 2) (7 / 10) .zero).1.sum ≤
        4 * (7 / 10) ∧
      (∃ e > 0, IsGreatest {o | o ∈ (minimizeSaturation [1, 1] [-1, (3 : ℝ)] .zero 0 1 false).1}
        (1 + e)) ∧
      ∀ o ∈ (minimizeSaturation [1, 1] [1, (3 / 2 : ℝ)] .zero 0 1 false).1, 0 ≤ o ∧ o ≤ 1 := by
  refine ⟨withoutAirmode.never_adds quadX _ _ _ _ _ ⟨?_, ?_, ?_, fun r hr => ?_⟩, ?_, ?_⟩
  · norm_num [quadX, rollScales]
  · norm_num [quadX, pitchScales]
  · norm_num [quadX, yawScales]
  · fin_cases hr <;> rfl
  · obtain ⟨e, he, hmax, -⟩ := withoutAirmode.excess [-1, 3] .zero 0 1 (-1) 3
      ⟨by simp, by simp [lowerBounds]; norm_num⟩ ⟨by simp, by simp [upperBounds]; norm_num⟩
      (by norm_num)
    exact ⟨e, he, hmax⟩
  · exact withoutAirmode.inside [1, 3 / 2] .zero 0 1 1 (3 / 2)
      ⟨by simp, by simp [lowerBounds]; norm_num⟩ ⟨by simp, by simp [upperBounds]; norm_num⟩
      (by norm_num)

end MultirotorMixer
