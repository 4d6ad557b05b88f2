/-
Limits of the actuator outputs.

`output_limit_calc` brings control values into the range of the outputs.  After the first arming it
waits, then it ramps up from the disarmed value, and then it is on; when it is not armed, and while
it waits, it puts out the disarmed values.

* `state_of_beforeInit` — how long it waits;
* **`calc_correct_iff`** — what holds of every run, and where the order is lost;
* **`calc_wraps`** — a control value below the range that gives the greatest output.
-/
import AerialManipulator.Lib.WithNaN
import AerialManipulator.Lib.Trace

namespace OutputLimit

def INIT_TIME_US : ℕ := 50000

def RAMP_TIME_US : ℕ := 500000

def PROGRESS_INT_SCALING : ℕ := 10000

inductive State
  | OFF
  | INIT
  | RAMP
  | ON
  deriving DecidableEq, Repr

/-- `output_limit_t`. -/
structure Limit where
  state : State
  time_armed : ℕ
  ramp_up : Bool

def outputLimitInit : Limit where
  state := .INIT
  time_armed := 0
  ramp_up := true

structure Channels where
  reverse_mask : UInt16
  disarmed_output : ℕ → UInt16
  min_output : ℕ → UInt16
  max_output : ℕ → UInt16

def Limit.change (limit : Limit) (armed : Bool) (now : ℕ) : Limit :=
  match limit.state with
  | .INIT =>
    if armed then
      let time_armed := if limit.time_armed = 0 then now else limit.time_armed
      { limit with
        time_armed := time_armed
        state := if INIT_TIME_US ≤ now - time_armed then .OFF else .INIT }
    else limit
  | .OFF =>
    if armed then
      { limit with state := if limit.ramp_up then .RAMP else .ON, time_armed := now }
    else limit
  | .RAMP =>
    if !armed then { limit with state := .OFF }
    else if RAMP_TIME_US ≤ now - limit.time_armed then { limit with state := .ON }
    else limit
  | .ON => if !armed then { limit with state := .OFF } else limit

def Limit.localState (limit : Limit) (pre_armed : Bool) : State :=
  if pre_armed then .ON else limit.state

def Limit.progress (limit : Limit) (now : ℕ) : ℕ :=
  let progress := (now - limit.time_armed) * PROGRESS_INT_SCALING / RAMP_TIME_US % 2 ^ 32
  if PROGRESS_INT_SCALING < progress then PROGRESS_INT_SCALING else progress

/-- The lowest output during the ramp, a blend between disarmed and min. -/
def rampMin (disarmed min : UInt16) (progress : ℕ) : UInt16 :=
  if 0 < disarmed then
    let disarmed := if min < disarmed then min else disarmed
    UInt16.ofNat (disarmed.toNat + (min.toNat - disarmed.toNat) * progress / PROGRESS_INT_SCALING)
  else min

def scaled (min max : UInt16) (control_value : ℚ) : ℚ :=
  control_value * ((max.toNat : ℤ) - (min.toNat : ℤ) : ℤ) / 2 + ((max.toNat + min.toNat) / 2 : ℕ)

def narrow (x : ℚ) : UInt16 := UInt16.ofInt (if 0 ≤ x then ⌊x⌋ else ⌈x⌉)

/-- One output, with the last line of defense against invalid inputs. -/
def limited (min max : UInt16) (control_value : ℚ) : UInt16 :=
  let effective_output := narrow (scaled min max control_value)
  if effective_output < min then min
  else if max < effective_output then max
  else effective_output

namespace Channels

variable (c : Channels)

def reversed (i : ℕ) : Bool := c.reverse_mask.toNat.testBit i

/-- The lowest output of a channel; none where the disarmed value is put out. -/
def lowest (limit : Limit) (pre_armed : Bool) (now i : ℕ) : Option UInt16 :=
  match limit.localState pre_armed with
  | .OFF | .INIT => none
  | .RAMP => some (rampMin (c.disarmed_output i) (c.min_output i) (limit.progress now))
  | .ON => some (c.min_output i)

/-- What is put out on a channel, once the state has changed. -/
def effective (limit : Limit) (pre_armed : Bool) (now i : ℕ) (output : WithNaN ℚ) : UInt16 :=
  match c.lowest limit pre_armed now i with
  | none => c.disarmed_output i
  | some min =>
    match output with
    -- invalid and disabled channels
    | .nan => c.disarmed_output i
    | .num control_value =>
      limited min (c.max_output i) (if c.reversed i then -1 * control_value else control_value)

end Channels

def outputLimitCalc (c : Channels) (armed pre_armed : Bool) (num_channels : ℕ)
    (output : ℕ → WithNaN ℚ)
    (effective_output : ℕ → UInt16) (now : ℕ) (limit : Limit) : (ℕ → UInt16) × Limit :=
  let limit := limit.change armed now
  (fun i =>
      if i < num_channels then c.effective limit pre_armed now i (output i)
      else effective_output i,
    limit)

/-! ### Runs -/

structure Call where
  armed : Bool
  pre_armed : Bool
  now : ℕ

def step (limit : Limit) (call : Call) : Limit := limit.change call.armed call.now

def after (calls : List Call) : Limit := Trace.run step outputLimitInit calls

def Channels.output (c : Channels) (calls : List Call) (call : Call) (i : ℕ) (x : WithNaN ℚ) :
    UInt16 :=
  (outputLimitCalc c call.armed call.pre_armed (i + 1) (fun _ => x) c.disarmed_output call.now
    (after calls)).1 i

def Channels.lowestOutput (c : Channels) (calls : List Call) (call : Call) (i : ℕ) :
    Option UInt16 :=
  c.lowest (after (calls ++ [call])) call.pre_armed call.now i

theorem after_concat (calls : List Call) (call : Call) :
    after (calls ++ [call]) = (after calls).change call.armed call.now := by
  rw [after, Trace.run_append]
  rfl

theorem output_of_lowest_none {c : Channels} {calls : List Call} {call : Call} {i : ℕ}
    (h : c.lowestOutput calls call i = none) (x : WithNaN ℚ) :
    c.output calls call i x = c.disarmed_output i := by
  rw [Channels.lowestOutput, after_concat] at h
  unfold Channels.output outputLimitCalc Channels.effective
  dsimp only
  rw [if_pos (Nat.lt_succ_self i), h]

theorem output_of_lowest_some {c : Channels} {calls : List Call} {call : Call} {i : ℕ} {lo : UInt16}
    (h : c.lowestOutput calls call i = some lo) (x : ℚ) :
    c.output calls call i (.num x) =
      limited lo (c.max_output i) (if c.reversed i then -1 * x else x) := by
  rw [Channels.lowestOutput, after_concat] at h
  unfold Channels.output outputLimitCalc Channels.effective
  dsimp only
  rw [if_pos (Nat.lt_succ_self i), h]

/-! ### The range -/

section Limited

variable {lo hi : UInt16} {x y : ℚ}

/-- The value is one of 16 bits, up to its fraction. -/
def InRange (lo hi : UInt16) (x : ℚ) : Prop := -1 < scaled lo hi x ∧ scaled lo hi x < 65536

theorem toNat_ofInt (n : ℤ) : (UInt16.ofInt n).toNat = (n % 65536).toNat := by
  rw [UInt16.ofInt]
  change (UInt16.ofNat (n % 65536).toNat).toNat = _
  rw [UInt16.toNat_ofNat', Nat.mod_eq_of_lt]
  have hlt := Int.emod_lt_of_pos n (show (0 : ℤ) < 65536 by decide)
  omega

theorem toNat_narrow (hlo : -1 < x) (hhi : x < 65536) : (narrow x).toNat = ⌊x⌋.toNat := by
  have hfloor : ⌊x⌋ < 65536 := Int.floor_lt.mpr (by exact_mod_cast hhi)
  rw [narrow, toNat_ofInt]
  by_cases h : 0 ≤ x
  · have hnonneg : 0 ≤ ⌊x⌋ := Int.floor_nonneg.mpr h
    rw [if_pos h, Int.emod_eq_of_lt hnonneg hfloor]
  · have hneg : ⌊x⌋ < 0 := Int.floor_lt.mpr (by exact_mod_cast not_le.mp h)
    have hceil : ⌈x⌉ = 0 := Int.ceil_eq_zero_iff.mpr ⟨hlo, le_of_not_ge h⟩
    rw [if_neg h, hceil, Int.toNat_of_nonpos hneg.le]
    rfl

theorem toNat_limited (h : lo ≤ hi) :
    (limited lo hi x).toNat = max lo.toNat (min (narrow (scaled lo hi x)).toNat hi.toNat) := by
  have hle : lo.toNat ≤ hi.toNat := UInt16.le_iff_toNat_le.mp h
  unfold limited
  dsimp only
  generalize narrow (scaled lo hi x) = n
  split_ifs with hbelow habove
  · have hlt := UInt16.lt_iff_toNat_lt.mp hbelow
    omega
  · have hlt := UInt16.lt_iff_toNat_lt.mp habove
    omega
  · have hge := UInt16.le_iff_toNat_le.mp (UInt16.not_lt.mp hbelow)
    have hle' := UInt16.le_iff_toNat_le.mp (UInt16.not_lt.mp habove)
    omega

theorem limited_mem (h : lo ≤ hi) : lo ≤ limited lo hi x ∧ limited lo hi x ≤ hi := by
  have hle : lo.toNat ≤ hi.toNat := UInt16.le_iff_toNat_le.mp h
  rw [UInt16.le_iff_toNat_le, UInt16.le_iff_toNat_le, toNat_limited h]
  omega

theorem scaled_mono (h : lo ≤ hi) (hxy : x ≤ y) : scaled lo hi x ≤ scaled lo hi y := by
  have hle : (lo.toNat : ℤ) ≤ hi.toNat := by exact_mod_cast UInt16.le_iff_toNat_le.mp h
  have hnonneg : (0 : ℚ) ≤ ((hi.toNat : ℤ) - lo.toNat : ℤ) := by exact_mod_cast sub_nonneg.mpr hle
  have hmul := mul_le_mul_of_nonneg_right hxy hnonneg
  unfold scaled
  linarith

theorem limited_mono (h : lo ≤ hi) (hxy : x ≤ y) (hx : InRange lo hi x)
    (hy : InRange lo hi y) : limited lo hi x ≤ limited lo hi y := by
  have hfloor := Int.toNat_le_toNat (Int.floor_le_floor (scaled_mono h hxy))
  rw [UInt16.le_iff_toNat_le, toNat_limited h, toNat_limited h, toNat_narrow hx.1 hx.2,
    toNat_narrow hy.1 hy.2]
  omega

theorem half_sum (a b : ℕ) : (((a + b) / 2 : ℕ) : ℚ) = (a + b) / 2 - ((a + b) % 2 : ℕ) / 2 := by
  have hsplit : (((a + b) % 2 + 2 * ((a + b) / 2) : ℕ) : ℚ) = ((a + b : ℕ) : ℚ) :=
    congrArg Nat.cast (Nat.mod_add_div (a + b) 2)
  push_cast at hsplit ⊢
  linarith

theorem scaled_neg_one :
    scaled lo hi (-1) = (lo.toNat : ℚ) - ((hi.toNat + lo.toNat) % 2 : ℕ) / 2 := by
  rw [scaled, half_sum]
  push_cast
  ring

theorem scaled_one : scaled lo hi 1 = (hi.toNat : ℚ) - ((hi.toNat + lo.toNat) % 2 : ℕ) / 2 := by
  rw [scaled, half_sum]
  push_cast
  ring

theorem floor_sub_half (n r : ℕ) (hr : r < 2) : ⌊(n : ℚ) - (r : ℚ) / 2⌋ = (n : ℤ) - r := by
  rw [Int.floor_eq_iff]
  have hle : (r : ℚ) ≤ 1 := by exact_mod_cast Nat.le_of_lt_succ hr
  have hnonneg : (0 : ℚ) ≤ r := Nat.cast_nonneg r
  push_cast
  constructor
  · linarith
  · linarith

theorem inRange_sub_half {n : UInt16} {r : ℕ} (hr : r < 2) :
    -1 < (n.toNat : ℚ) - (r : ℚ) / 2 ∧ (n.toNat : ℚ) - (r : ℚ) / 2 < 65536 := by
  have hn : (n.toNat : ℚ) < 65536 := by exact_mod_cast n.toNat_lt
  have hle : (r : ℚ) ≤ 1 := by exact_mod_cast Nat.le_of_lt_succ hr
  have hnonneg : (0 : ℚ) ≤ r := Nat.cast_nonneg r
  have hnonneg' : (0 : ℚ) ≤ n.toNat := Nat.cast_nonneg n.toNat
  constructor
  · linarith
  · linarith

theorem inRange_neg_one : InRange lo hi (-1) := by
  rw [InRange, scaled_neg_one]
  exact inRange_sub_half (Nat.mod_lt _ two_pos)

theorem inRange_one : InRange lo hi 1 := by
  rw [InRange, scaled_one]
  exact inRange_sub_half (Nat.mod_lt _ two_pos)

theorem limited_neg_one (h : lo ≤ hi) : limited lo hi (-1) = lo := by
  have hle : lo.toNat ≤ hi.toNat := UInt16.le_iff_toNat_le.mp h
  have hr := Nat.mod_lt (hi.toNat + lo.toNat) two_pos
  apply UInt16.toNat_inj.mp
  rw [toNat_limited h, toNat_narrow inRange_neg_one.1 inRange_neg_one.2, scaled_neg_one,
    floor_sub_half _ _ hr]
  omega

theorem limited_one (h : lo ≤ hi) :
    (limited lo hi 1).toNat = hi.toNat - (hi.toNat + lo.toNat) % 2 := by
  have hle : lo.toNat ≤ hi.toNat := UInt16.le_iff_toNat_le.mp h
  have hr := Nat.mod_lt (hi.toNat + lo.toNat) two_pos
  rw [toNat_limited h, toNat_narrow inRange_one.1 inRange_one.2, scaled_one, floor_sub_half _ _ hr]
  omega

theorem limited_wrapped (h : lo < hi) : ∃ x : ℚ, x < -1 ∧ limited lo hi x = hi := by
  have hlt : lo.toNat < hi.toNat := UInt16.lt_iff_toNat_lt.mp h
  have hpos : (0 : ℚ) < (hi.toNat : ℚ) - lo.toNat := by
    have hcast : (lo.toNat : ℚ) < hi.toNat := by exact_mod_cast hlt
    linarith
  have hmid : (0 : ℚ) ≤ ((hi.toNat + lo.toNat) / 2 : ℕ) := Nat.cast_nonneg _
  have hhalf := half_sum hi.toNat lo.toNat
  have hr : (((hi.toNat + lo.toNat) % 2 : ℕ) : ℚ) ≤ 1 := by
    exact_mod_cast Nat.le_of_lt_succ (Nat.mod_lt _ two_pos)
  have hlo : (0 : ℚ) ≤ lo.toNat := Nat.cast_nonneg _
  generalize hm : (((hi.toNat + lo.toNat) / 2 : ℕ) : ℚ) = m at hmid hhalf
  -- the value at which the result is minus one
  refine ⟨(-1 - m) * 2 / (hi.toNat - lo.toNat), ?_, ?_⟩
  · rw [div_lt_iff₀ hpos]
    linarith
  · have hscaled : scaled lo hi ((-1 - m) * 2 / (hi.toNat - lo.toNat)) = -1 := by
      rw [scaled, hm]
      push_cast
      field_simp
      ring
    have hnarrow : narrow (-1) = 65535 := by decide +kernel
    apply UInt16.toNat_inj.mp
    rw [toNat_limited (UInt16.le_of_lt h), hscaled, hnarrow]
    have hlt' := hi.toNat_lt
    have htop : (65535 : UInt16).toNat = 65535 := rfl
    omega

theorem limited_mono_iff (h : lo ≤ hi) :
    (∀ x y : ℚ, x ≤ y → limited lo hi x ≤ limited lo hi y) ↔ lo = hi := by
  constructor
  · intro hmono
    by_contra hne
    obtain ⟨x, hx, hwrapped⟩ := limited_wrapped (UInt16.lt_of_le_of_ne h hne)
    have hle := hmono x (-1) hx.le
    rw [hwrapped, limited_neg_one h] at hle
    exact hne (UInt16.le_antisymm h hle)
  · rintro rfl x y -
    rw [UInt16.le_antisymm (limited_mem h).2 (limited_mem h).1,
      UInt16.le_antisymm (limited_mem h).2 (limited_mem h).1]
    exact UInt16.le_refl lo

end Limited

/-! ### The ramp -/

theorem toNat_rampMin (disarmed low : UInt16) {progress : ℕ} (h : progress ≤ 10000) :
    (rampMin disarmed low progress).toNat =
      if 0 < disarmed then
        min disarmed.toNat low.toNat + (low.toNat - disarmed.toNat) * progress / 10000
      else low.toNat := by
  unfold rampMin PROGRESS_INT_SCALING
  by_cases hpos : 0 < disarmed
  · have hlow := low.toNat_lt
    have hblend : (low.toNat - disarmed.toNat) * progress / 10000 ≤ low.toNat - disarmed.toNat :=
      Nat.div_le_of_le_mul (by
        rw [Nat.mul_comm 10000]
        exact Nat.mul_le_mul_left _ h)
    rw [if_pos hpos, if_pos hpos]
    dsimp only
    by_cases hlt : low < disarmed
    · have hle := UInt16.le_iff_toNat_le.mp (UInt16.le_of_lt hlt)
      rw [if_pos hlt, Nat.sub_self, Nat.sub_eq_zero_of_le hle, Nat.zero_mul, Nat.zero_div,
        Nat.add_zero, Nat.add_zero, UInt16.ofNat_toNat, min_eq_right hle]
    · have hle := UInt16.le_iff_toNat_le.mp (UInt16.not_lt.mp hlt)
      rw [if_neg hlt, UInt16.toNat_ofNat', min_eq_left hle, Nat.mod_eq_of_lt]
      omega
  · rw [if_neg hpos, if_neg hpos]

theorem rampMin_mem (disarmed low : UInt16) {progress : ℕ} (h : progress ≤ 10000) :
    min disarmed.toNat low.toNat ≤ (rampMin disarmed low progress).toNat ∧
      (rampMin disarmed low progress).toNat ≤ low.toNat := by
  have hblend : (low.toNat - disarmed.toNat) * progress / 10000 ≤ low.toNat - disarmed.toNat :=
    Nat.div_le_of_le_mul (by
      rw [Nat.mul_comm 10000]
      exact Nat.mul_le_mul_left _ h)
  rw [toNat_rampMin disarmed low h]
  split_ifs
  · omega
  · exact ⟨min_le_right _ _, le_rfl⟩

theorem rampMin_mono (disarmed low : UInt16) {p q : ℕ} (hpq : p ≤ q) (hq : q ≤ 10000) :
    rampMin disarmed low p ≤ rampMin disarmed low q := by
  rw [UInt16.le_iff_toNat_le, toNat_rampMin disarmed low (hpq.trans hq),
    toNat_rampMin disarmed low hq]
  split_ifs
  · exact Nat.add_le_add_left (Nat.div_le_div_right (Nat.mul_le_mul_left _ hpq)) _
  · exact le_rfl

theorem progress_le (limit : Limit) (now : ℕ) : limit.progress now ≤ 10000 := by
  unfold Limit.progress PROGRESS_INT_SCALING
  dsimp only
  split_ifs with h
  · exact le_rfl
  · exact not_lt.mp h

theorem progress_eq {limit : Limit} {now : ℕ} (h : now - limit.time_armed < RAMP_TIME_US) :
    limit.progress now = (now - limit.time_armed) * 10000 / 500000 := by
  unfold RAMP_TIME_US at h
  unfold Limit.progress PROGRESS_INT_SCALING RAMP_TIME_US
  dsimp only
  rw [Nat.mod_eq_of_lt (by omega), if_neg (by omega)]

/-! ### State changes -/

section Change

variable {limit : Limit} {armed : Bool} {now : ℕ}

theorem change_not_armed (limit : Limit) (now : ℕ) :
    (limit.change false now).state = .OFF ∨ (limit.change false now).state = .INIT := by
  obtain ⟨state, time_armed, ramp_up⟩ := limit
  cases state with
  | OFF => exact .inl rfl
  | INIT => exact .inr rfl
  | RAMP => exact .inl rfl
  | ON => exact .inl rfl

theorem change_ramp (h : (limit.change armed now).state = .RAMP) :
    limit.state = .OFF ∧ (limit.change armed now).time_armed = now ∨
      limit.state = .RAMP ∧ (limit.change armed now).time_armed = limit.time_armed ∧
        now - limit.time_armed < RAMP_TIME_US := by
  obtain ⟨state, time_armed, ramp_up⟩ := limit
  cases armed with
  | false =>
    rcases change_not_armed ⟨state, time_armed, ramp_up⟩ now with h' | h'
    · cases h'.symm.trans h
    · cases h'.symm.trans h
  | true =>
    cases state with
    | OFF => exact .inl ⟨rfl, rfl⟩
    | INIT =>
      unfold Limit.change at h
      dsimp only at h
      rw [if_pos rfl] at h
      split_ifs at h
    | RAMP =>
      unfold Limit.change at h ⊢
      dsimp only at h ⊢
      split_ifs at h ⊢ with _ hlate
      exact .inr ⟨rfl, rfl, not_le.mp hlate⟩
    | ON => cases h

theorem change_ramp_recent (h : (limit.change armed now).state = .RAMP) :
    now - (limit.change armed now).time_armed < RAMP_TIME_US := by
  rcases change_ramp h with ⟨-, heq⟩ | ⟨-, heq, hlt⟩
  · rw [heq, Nat.sub_self]
    decide
  · rw [heq]
    exact hlt

/-- The time of the first armed call is kept, and the state is left once it is long ago. -/
theorem change_init (h : limit.state = .INIT) (harmed : armed = true) :
    (limit.change armed now).time_armed = (if limit.time_armed = 0 then now else limit.time_armed) ∧
      (limit.change armed now).state =
        if INIT_TIME_US ≤ now - (limit.change armed now).time_armed then .OFF else .INIT := by
  obtain ⟨state, time_armed, ramp_up⟩ := limit
  cases h
  cases harmed
  exact ⟨rfl, rfl⟩

theorem change_init_not_armed (h : limit.state = .INIT) (harmed : armed = false) :
    limit.change armed now = limit := by
  obtain ⟨state, time_armed, ramp_up⟩ := limit
  cases h
  cases harmed
  rfl

end Change

/-- The time to initialize has not passed since any armed call. -/
def BeforeInit (calls : List Call) (now : ℕ) : Prop :=
  ∀ call ∈ calls, call.armed = true → now < call.now + INIT_TIME_US

theorem after_init (calls : List Call) :
    ((after calls).state = .INIT ∧
        ((after calls).time_armed = 0 ∨
          ∃ call ∈ calls, call.armed = true ∧ call.now = (after calls).time_armed)) ∨
      ∃ call ∈ calls, ∃ late ∈ calls, call.armed = true ∧ call.now + INIT_TIME_US ≤ late.now := by
  induction calls using List.reverseRecOn with
  | nil => exact .inl ⟨rfl, .inl rfl⟩
  | append_singleton calls last ih =>
    rw [after_concat]
    rcases ih with ⟨hstate, htime⟩ | ⟨call, hcall, late, hlate, hpassed⟩
    · cases harmed : last.armed with
      | false =>
        rw [change_init_not_armed hstate rfl]
        refine .inl ⟨hstate, htime.imp_right fun ⟨call, hcall, heq⟩ => ?_⟩
        exact ⟨call, List.mem_append_left _ hcall, heq⟩
      | true =>
        obtain ⟨htime', hstate'⟩ := @change_init _ _ last.now hstate rfl
        have hcall : ∃ call ∈ calls ++ [last], call.armed = true ∧
            call.now = ((after calls).change true last.now).time_armed := by
          rw [htime']
          split_ifs with hzero
          · exact ⟨last, List.mem_append_right _ (List.mem_singleton_self last), harmed, rfl⟩
          · obtain ⟨call, hcall, heq⟩ := htime.resolve_left hzero
            exact ⟨call, List.mem_append_left _ hcall, heq⟩
        rw [hstate']
        split_ifs with hpassed
        · obtain ⟨call, hmem, harmed', hnow⟩ := hcall
          refine .inr ⟨call, hmem, last, List.mem_append_right _ (List.mem_singleton_self last),
            harmed', ?_⟩
          unfold INIT_TIME_US at hpassed ⊢
          omega
        · exact .inl ⟨rfl, .inr hcall⟩
    · exact .inr ⟨call, List.mem_append_left _ hcall, late, List.mem_append_left _ hlate, hpassed⟩

theorem state_of_beforeInit {calls : List Call} {call : Call}
    (hclock : (calls ++ [call]).Pairwise fun a b => a.now ≤ b.now)
    (h : BeforeInit (calls ++ [call]) call.now) : (after (calls ++ [call])).state = .INIT := by
  rcases after_init (calls ++ [call]) with ⟨hstate, -⟩ | ⟨early, hearly, late, hlate, harmed,
    hpassed⟩
  · exact hstate
  · have hle : late.now ≤ call.now := by
      rcases List.mem_append.mp hlate with hmem | hmem
      · exact (List.pairwise_append.mp hclock).2.2 late hmem call (List.mem_singleton_self call)
      · rw [List.mem_singleton.mp hmem]
    have hlt := h early hearly harmed
    omega

/-! ### Runs of calls -/

variable {c : Channels} {calls : List Call} {call : Call} {i : ℕ} {lo : UInt16}

theorem lowestOutput_some (h : c.lowestOutput calls call i = some lo) :
    (call.pre_armed = false ∧ (after (calls ++ [call])).state = .RAMP ∧
        lo = rampMin (c.disarmed_output i) (c.min_output i)
          ((after (calls ++ [call])).progress call.now)) ∨
      (call.pre_armed = true ∨ (after (calls ++ [call])).state = .ON) ∧ lo = c.min_output i := by
  unfold Channels.lowestOutput Channels.lowest Limit.localState at h
  cases hpre : call.pre_armed with
  | true =>
    rw [hpre, if_pos rfl] at h
    exact .inr ⟨.inl rfl, (Option.some.inj h).symm⟩
  | false =>
    rw [hpre, if_neg Bool.false_ne_true] at h
    cases hstate : (after (calls ++ [call])).state with
    | OFF => simp only [hstate, reduceCtorEq] at h
    | INIT => simp only [hstate, reduceCtorEq] at h
    | RAMP =>
      simp only [hstate, Option.some.injEq] at h
      exact .inl ⟨rfl, rfl, h.symm⟩
    | ON =>
      simp only [hstate, Option.some.injEq] at h
      exact .inr ⟨.inr rfl, h.symm⟩

theorem lowestOutput_le (hc : c.min_output i ≤ c.max_output i)
    (h : c.lowestOutput calls call i = some lo) : lo ≤ c.max_output i := by
  rcases lowestOutput_some h with ⟨-, -, rfl⟩ | ⟨-, rfl⟩
  · exact UInt16.le_trans (UInt16.le_iff_toNat_le.mpr
      (rampMin_mem _ _ (progress_le _ _)).2) hc
  · exact hc

/-- The calls from the first one to the last one are in one ramp. -/
def InRamp (calls : List Call) (first : Call) (mid : List Call) (last : Call) : Prop :=
  Trace.Always step (fun limit call => (step limit call).state = .RAMP) (after calls)
    (first :: (mid ++ [last]))

theorem run_in_ramp {limit : Limit} (hlimit : limit.state = .RAMP)
    (h : Trace.Always step (fun limit call => (step limit call).state = .RAMP) limit calls) :
    (Trace.run step limit calls).state = .RAMP ∧
      (Trace.run step limit calls).time_armed = limit.time_armed := by
  induction calls generalizing limit with
  | nil => exact ⟨hlimit, rfl⟩
  | cons call calls ih =>
    obtain ⟨hstate, hrest⟩ := h
    obtain ⟨hstate', htime⟩ := ih hstate hrest
    refine ⟨hstate', htime.trans ?_⟩
    rcases change_ramp hstate with ⟨hoff, -⟩ | ⟨-, heq, -⟩
    · cases hlimit.symm.trans hoff
    · exact heq

theorem InRamp.lowest_mono {first last : Call} {mid : List Call} {lo' : UInt16}
    (h : InRamp calls first mid last)
    (hclock : (calls ++ first :: mid ++ [last]).Pairwise fun a b => a.now ≤ b.now)
    (hfirst : first.pre_armed = false) (hlast : last.pre_armed = false)
    (hlo : c.lowestOutput calls first i = some lo)
    (hlo' : c.lowestOutput (calls ++ first :: mid) last i = some lo') : lo ≤ lo' := by
  have hnow : first.now ≤ last.now := by
    refine (List.pairwise_append.mp hclock).2.2 first ?_ last (List.mem_singleton_self last)
    exact List.mem_append_right _ List.mem_cons_self
  obtain ⟨hstate, hrest⟩ := h
  have hstate₁ : (after (calls ++ [first])).state = .RAMP := by
    rw [after_concat]
    exact hstate
  obtain ⟨hstate₂, htime⟩ := run_in_ramp hstate hrest
  have hrun : Trace.run step (step (after calls) first) (mid ++ [last]) =
      after (calls ++ first :: mid ++ [last]) := by
    rw [after, after, ← Trace.run_cons, ← Trace.run_append, List.append_assoc, List.cons_append]
  rw [hrun] at hstate₂ htime
  have htime₁ : (after (calls ++ [first])).time_armed = (step (after calls) first).time_armed := by
    rw [after_concat]
    rfl
  have hrecent₁ := change_ramp_recent hstate
  have hrecent₂ : last.now - (after (calls ++ first :: mid ++ [last])).time_armed
      < RAMP_TIME_US := by
    rw [after_concat] at hstate₂ ⊢
    exact change_ramp_recent hstate₂
  rcases lowestOutput_some hlo with ⟨-, -, rfl⟩ | ⟨hon | hon, -⟩
  · rcases lowestOutput_some hlo' with ⟨-, -, rfl⟩ | ⟨hon | hon, -⟩
    · apply rampMin_mono _ _ _ (progress_le _ _)
      rw [progress_eq (by rw [after_concat]; exact hrecent₁), progress_eq hrecent₂, htime, htime₁]
      exact Nat.div_le_div_right (Nat.mul_le_mul_right _ (Nat.sub_le_sub_right hnow _))
    · cases hlast.symm.trans hon
    · cases hstate₂.symm.trans hon
  · cases hfirst.symm.trans hon
  · cases hstate₁.symm.trans hon

def Channels.directed (c : Channels) (i : ℕ) (x : ℚ) : ℚ := if c.reversed i then -1 * x else x

/-- The outputs of two control values are in their order, on a reversed channel the other way
round. -/
def Channels.Ordered (c : Channels) (calls : List Call) (call : Call) (i : ℕ) (x y : ℚ) : Prop :=
  if c.reversed i then c.output calls call i (.num y) ≤ c.output calls call i (.num x)
  else c.output calls call i (.num x) ≤ c.output calls call i (.num y)

theorem ordered_of_inRange (hle : lo ≤ c.max_output i)
    (h : c.lowestOutput calls call i = some lo) {x y : ℚ} (hxy : x ≤ y)
    (hx : InRange lo (c.max_output i) (c.directed i x))
    (hy : InRange lo (c.max_output i) (c.directed i y)) : c.Ordered calls call i x y := by
  unfold Channels.Ordered
  unfold Channels.directed at hx hy
  rw [output_of_lowest_some h, output_of_lowest_some h]
  cases hrev : c.reversed i with
  | true =>
    rw [hrev, if_pos rfl] at hx hy
    rw [if_pos rfl, if_pos rfl, if_pos rfl]
    exact limited_mono hle (by linarith) hy hx
  | false =>
    rw [hrev, if_neg Bool.false_ne_true] at hx hy
    rw [if_neg Bool.false_ne_true, if_neg Bool.false_ne_true, if_neg Bool.false_ne_true]
    exact limited_mono hle hxy hx hy

theorem ordered_iff (hle : lo ≤ c.max_output i) (h : c.lowestOutput calls call i = some lo) :
    (∀ x y, x ≤ y → c.Ordered calls call i x y) ↔ lo = c.max_output i := by
  rw [← limited_mono_iff hle]
  unfold Channels.Ordered
  cases hrev : c.reversed i with
  | true =>
    simp only [output_of_lowest_some h, hrev, if_true]
    constructor
    · intro hmono x y hxy
      have := hmono (-1 * y) (-1 * x) (by linarith)
      rwa [← mul_assoc, ← mul_assoc, neg_one_mul (-1 : ℚ), neg_neg, one_mul, one_mul] at this
    · intro hmono x y hxy
      exact hmono _ _ (by linarith)
  | false => simp only [output_of_lowest_some h, hrev, Bool.false_eq_true, if_false]

theorem toNat_output_neg_one (hle : lo ≤ c.max_output i)
    (h : c.lowestOutput calls call i = some lo) :
    (c.output calls call i (.num (-1))).toNat =
      if c.reversed i then (c.max_output i).toNat - ((c.max_output i).toNat + lo.toNat) % 2
      else lo.toNat := by
  rw [output_of_lowest_some h]
  cases hrev : c.reversed i with
  | true =>
    rw [if_pos rfl, if_pos rfl, neg_one_mul, neg_neg]
    exact limited_one hle
  | false => rw [if_neg Bool.false_ne_true, if_neg Bool.false_ne_true, limited_neg_one hle]

/-- What holds of each call of a run.  Calls that are not armed, or too early, put out the disarmed
values.  The other ones put out values in the range; of control values whose result fits in 16 bits
they keep the order, of all control values only where there is just one output.  In one ramp, the
output for the lowest control value goes down only on a reversed channel, by one, when the lowest
output becomes odd against the highest one. -/
theorem calc_correct_iff (c : Channels) (hc : ∀ i, c.min_output i ≤ c.max_output i)
    (calls : List Call) (call : Call)
    (hclock : (calls ++ [call]).Pairwise fun a b => a.now ≤ b.now) :
    (call.pre_armed = false → (call.armed = false ∨ BeforeInit (calls ++ [call]) call.now) →
      ∀ i x, c.output calls call i x = c.disarmed_output i) ∧
    (call.pre_armed = true ∨ (after (calls ++ [call])).state = .RAMP ∨
        (after (calls ++ [call])).state = .ON →
      ∀ i, ∃ lo, c.lowestOutput calls call i = some lo ∧
        min (c.disarmed_output i).toNat (c.min_output i).toNat ≤ lo.toNat ∧
        (call.pre_armed = true ∨ (after (calls ++ [call])).state = .ON → lo = c.min_output i) ∧
        (∀ x : ℚ, lo ≤ c.output calls call i (.num x) ∧
          c.output calls call i (.num x) ≤ c.max_output i) ∧
        (∀ x y, x ≤ y → InRange lo (c.max_output i) (c.directed i x) →
          InRange lo (c.max_output i) (c.directed i y) → c.Ordered calls call i x y) ∧
        ((∀ x y, x ≤ y → c.Ordered calls call i x y) ↔ lo = c.max_output i)) ∧
    ∀ pre first mid, calls = pre ++ first :: mid → InRamp pre first mid call →
      first.pre_armed = false → call.pre_armed = false →
      ∀ i lo lo', c.lowestOutput pre first i = some lo → c.lowestOutput calls call i = some lo' →
        (c.output pre first i (.num (-1)) ≤ c.output calls call i (.num (-1)) ↔
          ¬ (c.reversed i = true ∧ ((c.max_output i).toNat + lo.toNat) % 2 = 0 ∧
            ((c.max_output i).toNat + lo'.toNat) % 2 = 1)) := by
  refine ⟨fun hpre hdisarmed i x => ?_, fun hactive i => ?_, ?_⟩
  · apply output_of_lowest_none
    have hstate : (after (calls ++ [call])).state = .OFF ∨
        (after (calls ++ [call])).state = .INIT := by
      rcases hdisarmed with harmed | hearly
      · rw [after_concat, harmed]
        exact change_not_armed _ _
      · exact .inr (state_of_beforeInit hclock hearly)
    unfold Channels.lowestOutput Channels.lowest Limit.localState
    rw [hpre, if_neg Bool.false_ne_true]
    rcases hstate with hstate | hstate
    · rw [hstate]
    · rw [hstate]
  · cases hlo : c.lowestOutput calls call i with
    | none =>
      unfold Channels.lowestOutput Channels.lowest Limit.localState at hlo
      rcases hactive with hpre | hstate | hstate
      · simp only [hpre, if_true, reduceCtorEq] at hlo
      · rw [hstate] at hlo
        split_ifs at hlo
      · rw [hstate] at hlo
        split_ifs at hlo
    | some lo =>
      have hle := lowestOutput_le (hc i) hlo
      refine ⟨lo, rfl, ?_, ?_, fun x => ?_, fun x y hxy => ordered_of_inRange hle hlo hxy,
        ordered_iff hle hlo⟩
      · rcases lowestOutput_some hlo with ⟨-, -, rfl⟩ | ⟨-, rfl⟩
        · exact (rampMin_mem _ _ (progress_le _ _)).1
        · exact min_le_right _ _
      · intro hon
        rcases lowestOutput_some hlo with ⟨hpre, hramp, -⟩ | ⟨-, heq⟩
        · rcases hon with hon | hon
          · cases hpre.symm.trans hon
          · cases hramp.symm.trans hon
        · exact heq
      · rw [output_of_lowest_some hlo]
        exact limited_mem hle
  · rintro pre first mid rfl hramp hfirst hcall i lo lo' hlo hlo'
    have hmono := UInt16.le_iff_toNat_le.mp (hramp.lowest_mono hclock hfirst hcall hlo hlo')
    have hle := lowestOutput_le (hc i) hlo
    have hle' := lowestOutput_le (hc i) hlo'
    rw [UInt16.le_iff_toNat_le, toNat_output_neg_one hle hlo, toNat_output_neg_one hle' hlo']
    have hmax := UInt16.le_iff_toNat_le.mp hle
    have hmax' := UInt16.le_iff_toNat_le.mp hle'
    cases hrev : c.reversed i with
    | true =>
      rw [if_pos rfl, if_pos rfl]
      simp only [true_and]
      omega
    | false =>
      rw [if_neg Bool.false_ne_true, if_neg Bool.false_ne_true]
      simp only [Bool.false_eq_true, false_and, not_false_eq_true, iff_true]
      exact hmono

def sample : Channels where
  reverse_mask := 0
  disarmed_output := fun _ => 900
  min_output := fun _ => 1000
  max_output := fun _ => 2000

theorem sample_min_le (i : ℕ) : sample.min_output i ≤ sample.max_output i :=
  show (1000 : UInt16) ≤ 2000 by decide

def rampCalls : List Call := [⟨true, false, 1⟩, ⟨true, false, 50001⟩, ⟨true, false, 50002⟩]

/-- In the middle of the ramp. -/
theorem calc_ramp :
    ∃ lo, 900 ≤ lo.toNat ∧ lo ≤ sample.output rampCalls ⟨true, false, 300002⟩ 0 (.num 1) ∧
      sample.output rampCalls ⟨true, false, 300002⟩ 0 (.num 1) ≤ 2000 := by
  obtain ⟨-, hactive, -⟩ :=
    calc_correct_iff sample sample_min_le rampCalls ⟨true, false, 300002⟩ (by decide)
  obtain ⟨lo, -, hlo, -, hmem, -⟩ := hactive (.inr (.inl rfl)) 0
  exact ⟨lo, hlo, hmem 1⟩

/-- Behind the ramp, a control value of minus four gives the highest output, and minus one the
lowest. -/
theorem calc_wraps :
    ¬ ∀ c : Channels, (∀ i, c.min_output i ≤ c.max_output i) → ∀ calls call,
      (calls ++ [call]).Pairwise (fun a b => a.now ≤ b.now) →
      (after (calls ++ [call])).state = .ON →
      ∀ i x y, x ≤ y → c.Ordered calls call i x y := by
  intro hclaim
  have hordered := hclaim sample sample_min_le rampCalls ⟨true, false, 550002⟩ (by decide)
    rfl 0 (-4) (-1) (by decide)
  exact absurd hordered (by
    unfold Channels.Ordered
    decide +kernel)

end OutputLimit
