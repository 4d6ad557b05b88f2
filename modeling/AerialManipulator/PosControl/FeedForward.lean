/-
The feed-forward of the position controller.

`constrainXY` adds its two arguments and gives the first one priority.  `_positionControl` hands it
the whole velocity demand as the first one, and the feed-forward, which is a part of that, as the
second one.  So the feed-forward counts twice.

* `velSpLimited_num` — the demand that is limited, on numbers;
* **`positionControl_law_iff`** — where this does not matter.
-/
import AerialManipulator.PosControl.ConstrainXY
import AerialManipulator.PosControl.UpdateSpec

open WithNaN ControlMath

namespace ESOPositionControl

/-- What `_positionControl` reads. -/
structure PosLoop where
  pos_sp : Fin 3 → ℝ
  pos : Fin 3 → ℝ
  gain_p : Fin 3 → ℝ
  gain_i : Fin 3 → ℝ
  integral : Fin 3 → ℝ
  feedforward : Fin 3 → ℝ
  lim_horizontal : ℝ
  lim_up : ℝ
  lim_down : ℝ
  lim_int : ℝ

namespace PosLoop

variable (d : PosLoop)

def error : Fin 3 → ℝ := d.pos_sp - d.pos

def feedback : Fin 3 → ℝ := d.error * d.gain_p + d.integral * d.gain_i

def unc : Fin 3 → ℝ := d.feedback + d.feedforward

def hor (v : Fin 3 → ℝ) : Fin 2 → ℝ := ![v 0, v 1]

theorem xy_numVec (v : Fin 3 → ℝ) : xy (numVec v) = numVec (hor v) := by
  funext i
  fin_cases i <;> rfl

theorem hor_unc : hor d.unc = hor d.feedback + hor d.feedforward := by
  funext i
  fin_cases i <;> rfl

/-- The vertical demand is in its limits. -/
def VerticalIn : Prop := -d.lim_up ≤ d.unc 2 ∧ d.unc 2 ≤ d.lim_down

/-- There is no feed-forward; or the demand is over the limit and is not brought back by more of the
feed-forward; or it is, by a feed-forward that goes against the feedback. -/
def Spared : Prop :=
  0 ≤ d.lim_horizontal ∧ (hor d.feedforward = 0 ∨
    (hor d.unc ≠ 0 ∧ d.lim_horizontal ≤ len (hor d.unc) ∧
      d.lim_horizontal < len (hor d.unc + hor d.feedforward)) ∨
    (d.lim_horizontal < len (hor d.unc) ∧
      len (hor d.unc + hor d.feedforward) ≤ d.lim_horizontal ∧
      ∃ k : ℝ, 0 ≤ k ∧ k ≤ 1 ∧ hor d.feedforward = -(k • hor d.feedback)))

/-- The parts of the demand enter with weights in `[0, 1]`. -/
def Weighted (w : Fin 2 → ℝ) : Prop :=
  ∃ k l : ℝ, 0 ≤ k ∧ k ≤ 1 ∧ 0 ≤ l ∧ l ≤ 1 ∧ w = k • hor d.feedback + l • hor d.feedforward

end PosLoop

open PosLoop

variable {c : ESOPositionControl ℝ} {d : PosLoop}

/-- The controller has these numbers in it. -/
structure Loaded (d : PosLoop) (c : ESOPositionControl ℝ) : Prop where
  pos_sp : c.pos_sp = numVec d.pos_sp
  pos : c.pos = numVec d.pos
  gain_p : c.gain_pos_p = numVec d.gain_p
  gain_i : c.gain_pos_i = numVec d.gain_i
  integral : c.pos_int = numVec d.integral
  feedforward : c.vel_sp = numVec d.feedforward
  lim_horizontal : c.lim_vel_horizontal = num d.lim_horizontal
  lim_up : c.lim_vel_up = num d.lim_up
  lim_down : c.lim_vel_down = num d.lim_down
  lim_int : c.lim_pos_int = num d.lim_int

theorem ne_zero_of_len_pos {n : ℕ} {a : Fin n → ℝ} (h : 0 < len a) : a ≠ 0 := by
  rintro rfl
  exact h.ne' len_zero

/-! ### The demand -/

section Demand

variable (h : Loaded d c)

include h

theorem Loaded.velSpUnc : c.velSpUnc = numVec d.unc := by
  unfold ESOPositionControl.velSpUnc velSpP velSpI
  rw [h.pos_sp, h.pos, h.gain_p, h.integral, h.gain_i, h.feedforward, numVec_sub, emult_numVec,
    emult_numVec, numVec_add]
  rfl

theorem Loaded.limited_xy : xy c.velSpLimited =
    constrainXY (numVec (hor d.unc)) (numVec (hor d.feedforward)) (num d.lim_horizontal) := by
  have hset : setZeroIfNanVector3f c.velSpUnc = numVec d.unc := by
    rw [h.velSpUnc]
    exact funext fun i => setZeroIfNan_num _ i _ rfl
  have hff : setZeroIfNanVector3f c.velSpUnc - c.velSpP - c.velSpI = numVec d.feedforward := by
    unfold velSpP velSpI
    rw [hset, h.pos_sp, h.pos, h.gain_p, h.integral, h.gain_i, numVec_sub, emult_numVec,
      emult_numVec, numVec_sub, numVec_sub]
    refine congrArg numVec ?_
    unfold unc feedback error
    abel
  rw [xy_velSpLimited, hff, hset, h.lim_horizontal, xy_numVec, xy_numVec]

theorem Loaded.limited_z : c.velSpLimited 2 =
    num (if d.unc 2 < -d.lim_up then -d.lim_up
      else if d.lim_down < d.unc 2 then d.lim_down else d.unc 2) := by
  rw [← math.constrain_num, ← neg_num, ← h.lim_up, ← h.lim_down]
  show math.constrain (setZeroIfNanVector3f c.velSpUnc 2) _ _ = _
  rw [setZeroIfNan_num _ 2 (d.unc 2) (congrFun h.velSpUnc 2)]

theorem Loaded.limited_of_in {w : Fin 3 → ℝ} (hxy : xy c.velSpLimited = numVec (hor w))
    (hz : d.VerticalIn) (hw : w 2 = d.unc 2) : c.velSpLimited = numVec w := by
  have h0 := congrFun hxy 0
  have h1 := congrFun hxy 1
  rw [xy_zero] at h0
  rw [xy_one] at h1
  refine vec_eq_three h0 h1 ?_
  rw [h.limited_z, if_neg (not_lt.mpr hz.1), if_neg (not_lt.mpr hz.2), hw]

end Demand

/-! ### The law of the limiter -/

/-- A demand in the limits is the output and the integral advances by the error; the output is
always in the horizontal limit, and the parts of the demand enter with weights in `[0, 1]`. -/
structure Obeys (d : PosLoop) (c : ESOPositionControl ℝ) (dt : ℝ) : Prop where
  inside : len (hor d.unc) ≤ d.lim_horizontal → d.VerticalIn →
    (c.positionControl (num dt)).vel_sp = numVec d.unc ∧
    c.velSpUnc - (c.positionControl (num dt)).vel_sp = numVec 0 ∧
    (c.positionControl (num dt)).pos_int = fun i =>
      math.constrain (num (d.integral i + d.error i * dt)) (-num d.lim_int) (num d.lim_int)
  limited : ∃ w, xy (c.positionControl (num dt)).vel_sp = numVec w ∧ len w ≤ d.lim_horizontal ∧
    d.Weighted w

theorem Loaded.posIntegral (h : Loaded d c) (dt : ℝ)
    (hsat : c.velSpUnc - c.velSpLimited = numVec 0) :
    c.posIntegral (num dt) = fun i =>
      math.constrain (num (d.integral i + d.error i * dt)) (-num d.lim_int) (num d.lim_int) := by
  have herr : c.pos_sp - c.pos = numVec d.error := by
    rw [h.pos_sp, h.pos, numVec_sub]
    rfl
  have hfin : allFinite (numVec d.error) = true := rfl
  simp only [ESOPositionControl.posIntegral]
  rw [hsat, herr, if_pos hfin, h.integral, h.lim_int]
  funext i
  refine congrArg (math.constrain · _ _) ?_
  simp only [Pi.add_apply, Pi.sub_apply, scale, emult, numVec, h.gain_p]
  have harw : ∃ x : ℝ, (if num (FLT_EPSILON ℝ) < num (d.gain_p i) then 2.0 / num (d.gain_p i) else 0
      : Flt ℝ) = num x := by
    split_ifs with hgain
    · have hne : d.gain_p i ≠ 0 := fun hzero => by
        rw [hzero] at hgain
        exact absurd hgain (not_lt.mpr FLT_EPSILON_pos.le)
      exact ⟨2.0 / d.gain_p i, if_neg hne⟩
    · exact ⟨0, rfl⟩
  obtain ⟨x, hx⟩ := harw
  rw [hx]
  simp

section Cases

variable (h : Loaded d c) (dt : ℝ)

include h

theorem Loaded.obeys {w : Fin 2 → ℝ} (hw : xy c.velSpLimited = numVec w)
    (hle : len w ≤ d.lim_horizontal) (hweight : d.Weighted w)
    (hin : len (hor d.unc) ≤ d.lim_horizontal → w = hor d.unc) : Obeys d c dt where
  inside hlen hz := by
    rw [hin hlen] at hw
    have hlim := h.limited_of_in hw hz rfl
    have hsat : c.velSpUnc - c.velSpLimited = numVec 0 := by
      rw [hlim, h.velSpUnc, numVec_sub, sub_self]
    exact ⟨hlim, hsat, h.posIntegral dt hsat⟩
  limited := ⟨w, hw, hle, hweight⟩

theorem Loaded.limited_inside (hin : len (hor d.unc + hor d.feedforward) ≤ d.lim_horizontal) :
    xy c.velSpLimited = numVec (hor d.unc + hor d.feedforward) :=
  h.limited_xy.trans (constrainXY_inside hin)

theorem Loaded.limited_priority (hu : hor d.unc ≠ 0) (hm : d.lim_horizontal ≤ len (hor d.unc))
    (hout : d.lim_horizontal < len (hor d.unc + hor d.feedforward)) :
    xy c.velSpLimited = numVec ((d.lim_horizontal / len (hor d.unc)) • hor d.unc) :=
  h.limited_xy.trans (constrainXY_priority hu hm hout)

theorem Loaded.obeys_priority (hL : 0 ≤ d.lim_horizontal) (hu : hor d.unc ≠ 0)
    (hm : d.lim_horizontal ≤ len (hor d.unc))
    (hout : d.lim_horizontal < len (hor d.unc + hor d.feedforward)) : Obeys d c dt := by
  have hpos := len_pos hu
  have hk0 : 0 ≤ d.lim_horizontal / len (hor d.unc) := div_nonneg hL hpos.le
  have hk1 : d.lim_horizontal / len (hor d.unc) ≤ 1 := (div_le_one hpos).mpr hm
  refine h.obeys dt (h.limited_priority hu hm hout) (len_scaled hu hL).le ?_ fun hle => ?_
  · refine ⟨_, _, hk0, hk1, hk0, hk1, ?_⟩
    rw [← smul_add, ← hor_unc]
  · rw [le_antisymm hm hle, div_self hpos.ne', one_smul]

theorem Loaded.obeys_of_spared (hs : d.Spared) : Obeys d c dt := by
  obtain ⟨hL, hs⟩ := hs
  rcases hs with hf | ⟨hu, hm, hout⟩ | ⟨hm, hin, k, hk0, hk1, hk⟩
  · rcases le_or_gt (len (hor d.unc + hor d.feedforward)) d.lim_horizontal with hin | hout
    · refine h.obeys dt (h.limited_inside hin) hin ⟨1, 0, zero_le_one, le_rfl, le_rfl, zero_le_one,
        ?_⟩
        fun _ => ?_
      · rw [hor_unc, hf, add_zero, add_zero, one_smul, smul_zero, add_zero]
      · rw [hf, add_zero]
    · have hout' := hout
      rw [hf, add_zero] at hout'
      have hu : hor d.unc ≠ 0 := ne_zero_of_len_pos (hL.trans_lt hout')
      exact h.obeys_priority dt hL hu hout'.le hout
  · exact h.obeys_priority dt hL hu hm hout
  · refine h.obeys dt (h.limited_inside hin) hin
      ⟨1 - k, 1, sub_nonneg.mpr hk1, sub_le_self 1 hk0, zero_le_one, le_rfl, ?_⟩
      fun hle => absurd hm (not_lt.mpr hle)
    rw [hor_unc, one_smul, sub_smul, one_smul]
    nth_rewrite 1 [hk]
    abel

theorem Loaded.limited_ne (hf : hor d.feedforward ≠ 0)
    (hle : len (hor d.unc) ≤ d.lim_horizontal)
    (hp : ¬ (hor d.unc ≠ 0 ∧ d.lim_horizontal ≤ len (hor d.unc) ∧
      d.lim_horizontal < len (hor d.unc + hor d.feedforward))) :
    xy c.velSpLimited ≠ numVec (hor d.unc) := by
  intro heq
  rcases le_or_gt (len (hor d.unc + hor d.feedforward)) d.lim_horizontal with hin | hout
  · rw [h.limited_inside hin] at heq
    exact hf (left_eq_add.mp (numVec_injective heq).symm)
  by_cases hd : Degenerate (hor d.unc) (hor d.feedforward) d.lim_horizontal
  · have hnan := constrainXY_degenerate hd 0
    rw [← h.limited_xy, heq] at hnan
    exact nomatch hnan
  rcases hle.lt_or_eq with hlt | hlim
  · obtain ⟨w, hw, -, hon, -⟩ := constrainXY_below _ _ _ hlt hd
    rw [h.limited_xy, hw] at heq
    rw [← hon hout, numVec_injective heq] at hlt
    exact lt_irrefl _ hlt
  · -- at zero the first argument gives no direction
    have hu : hor d.unc = 0 := by
      by_contra hu
      exact hp ⟨hu, hlim.ge, hout⟩
    have hout' := hout
    rw [hu, zero_add] at hout'
    refine hd ⟨hu, hout', .inl ?_⟩
    rw [← hlim, hu, len_zero]

theorem Loaded.spared_of_obeys (hz : d.VerticalIn) (ho : Obeys d c dt) : d.Spared := by
  obtain ⟨w, hw, hlen, k, l, hk0, hk1, hl0, hl1, hkl⟩ := ho.limited
  have hL : 0 ≤ d.lim_horizontal := (len_nonneg w).trans hlen
  refine ⟨hL, ?_⟩
  by_contra hno
  push Not at hno
  obtain ⟨hf, hp, hagainst⟩ := hno
  have hp' : ¬ (hor d.unc ≠ 0 ∧ d.lim_horizontal ≤ len (hor d.unc) ∧
      d.lim_horizontal < len (hor d.unc + hor d.feedforward)) :=
    fun ⟨hu, hm, hout⟩ => absurd hout (not_lt.mpr (hp hu hm))
  have hover : d.lim_horizontal < len (hor d.unc) := by
    by_contra hle
    refine h.limited_ne hf (not_lt.mp hle) hp' ?_
    have hv := (ho.inside (not_lt.mp hle) hz).1
    rw [← xy_numVec, ← hv]
    rfl
  have hu : hor d.unc ≠ 0 := ne_zero_of_len_pos (hL.trans_lt hover)
  have hin := hp hu hover.le
  have hw' : w = hor d.unc + hor d.feedforward :=
    numVec_injective (hw.symm.trans (h.limited_inside hin))
  have hl : (0 : ℝ) < 2 - l := by linarith
  refine hagainst hover hin ((1 - k) / (2 - l)) (div_nonneg (sub_nonneg.mpr hk1) hl.le)
    ((div_le_one hl).mpr (by linarith)) ?_
  have hsum : (2 - l) • hor d.feedforward = -((1 - k) • hor d.feedback) := by
    rw [hw', hor_unc] at hkl
    rw [sub_smul, sub_smul, two_smul, one_smul]
    linear_combination hkl
  rw [div_eq_inv_mul, mul_smul, ← smul_neg, ← hsum, smul_smul, inv_mul_cancel₀ hl.ne', one_smul]

end Cases

/-- **The limiter obeys its law where the feed-forward is spared.**  For a vertical demand in its
limits nowhere else. -/
theorem positionControl_law_iff (h : Loaded d c) (dt : ℝ) :
    (d.Spared → Obeys d c dt) ∧ (d.VerticalIn → Obeys d c dt → d.Spared) :=
  ⟨h.obeys_of_spared dt, h.spared_of_obeys dt⟩

/-! ### A feed-forward at the setpoint -/

/-- The feed-forward `f` without a position error. -/
def cruise (f : Fin 3 → ℝ) : PosLoop where
  pos_sp := 0
  pos := 0
  gain_p := 1
  gain_i := 0
  integral := 0
  feedforward := f
  lim_horizontal := 10
  lim_up := 1
  lim_down := 1
  lim_int := 0

noncomputable def cruising (f : Fin 3 → ℝ) : ESOPositionControl ℝ :=
  { tuned with vel_sp := numVec f }

theorem loaded_cruising (f : Fin 3 → ℝ) : Loaded (cruise f) (cruising f) where
  pos_sp := rfl
  pos := rfl
  gain_p := rfl
  gain_i := rfl
  integral := rfl
  feedforward := rfl
  lim_horizontal := rfl
  lim_up := rfl
  lim_down := rfl
  lim_int := rfl

theorem unc_cruise (f : Fin 3 → ℝ) : (cruise f).unc = f := by
  simp [unc, feedback, error, cruise]

theorem verticalIn_cruise {f : Fin 3 → ℝ} (h : f 2 = 0) : (cruise f).VerticalIn := by
  rw [VerticalIn, unc_cruise, h]
  exact ⟨neg_nonpos.mpr zero_le_one, zero_le_one⟩

theorem len_axis {x : ℝ} (hx : 0 ≤ x) : len ![x, 0] = x := by
  rw [len, Fin.sum_univ_two]
  simp [Real.sqrt_mul_self hx]

/-- The setpoint is 30 metres ahead. -/
def far : PosLoop := { cruise 0 with pos_sp := ![30, 0, 0] }

noncomputable def farAway : ESOPositionControl ℝ := { cruising 0 with pos_sp := numVec far.pos_sp }

/-- Thirty metres per second are asked for, without a feed-forward, and ten are allowed. -/
theorem positionControl_law_iff_far :
    Obeys far farAway 0.01 ∧ far.Spared ∧ far.lim_horizontal < len (hor far.unc) := by
  have hloaded : Loaded far farAway := { loaded_cruising 0 with pos_sp := rfl }
  have hlaw := positionControl_law_iff hloaded 0.01
  have hunc : far.unc = ![30, 0, 0] := by simp [unc, feedback, error, far, cruise]
  have hspared : far.Spared :=
    ⟨by norm_num [far, cruise], .inl (funext fun i => by fin_cases i <;> rfl)⟩
  have hz : far.VerticalIn := by
    rw [VerticalIn, hunc]
    exact ⟨neg_nonpos.mpr zero_le_one, zero_le_one⟩
  refine ⟨hlaw.1 hspared, hlaw.2 hz (hlaw.1 hspared), ?_⟩
  rw [hunc]
  exact (by norm_num [far, cruise] : far.lim_horizontal < 30).trans_eq (len_axis (by norm_num)).symm

/-- One metre per second is asked for, and two are output. -/
theorem feedforward_doubled :
    len (hor (cruise ![1, 0, 0]).unc) ≤ (cruise ![1, 0, 0]).lim_horizontal ∧
    (cruise ![1, 0, 0]).VerticalIn ∧
    ((cruising ![1, 0, 0]).positionControl (num 0.01)).vel_sp = numVec ![2, 0, 0] ∧
    ¬ Obeys (cruise ![1, 0, 0]) (cruising ![1, 0, 0]) 0.01 := by
  have hhor : hor (cruise ![1, 0, 0]).unc = ![1, 0] := by
    rw [unc_cruise]
    rfl
  have hsum : hor (cruise ![1, 0, 0]).unc + hor (cruise ![1, 0, 0]).feedforward = ![2, 0] := by
    rw [hhor]
    funext i
    fin_cases i <;> norm_num [cruise, hor]
  have hin : len (hor (cruise ![1, 0, 0]).unc + hor (cruise ![1, 0, 0]).feedforward)
      ≤ (cruise ![1, 0, 0]).lim_horizontal := by
    rw [hsum, len_axis zero_le_two]
    norm_num [cruise]
  have hle : len (hor (cruise ![1, 0, 0]).unc) ≤ (cruise ![1, 0, 0]).lim_horizontal := by
    rw [hhor, len_axis zero_le_one]
    norm_num [cruise]
  have hz : (cruise ![1, 0, 0]).VerticalIn := verticalIn_cruise rfl
  have hout : ((cruising ![1, 0, 0]).positionControl (num 0.01)).vel_sp = numVec ![2, 0, 0] := by
    refine (loaded_cruising _).limited_of_in ?_ hz (by rw [unc_cruise]; rfl)
    rw [(loaded_cruising _).limited_inside hin, hsum]
    rfl
  refine ⟨hle, hz, hout, fun ho => ?_⟩
  have heq := (ho.inside hle hz).1
  rw [hout, unc_cruise] at heq
  have h0 := congrFun (numVec_injective heq) 0
  norm_num at h0

end ESOPositionControl
