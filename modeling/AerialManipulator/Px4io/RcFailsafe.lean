/-
The failsafe of the RC input.

A receiver may report a failsafe, or hold the throttle outside of its range.  The flag for it is
written by every protocol, and again by every throttle channel, which looks at a value that was
already brought into its range.  The flag for the mapping compares a bit mask with a number.

* `gather_reported` — which reports reach the flag;
* **`failsafe_correct_iff`** — when a tick does what it should, in any run;
* **`throttle_never_fails`** — a throttle far below its range.
-/
import AerialManipulator.Px4io.RcConfig

namespace Px4io

open Flags

variable {G : Type*}

namespace State

variable (s : State G) (input : Input)

/-! ### What a tick receives -/

def sbusAccepted : Bool := (s.sbusInput input.sbus).2

def ppmAccepted : Bool := ((s.sbusInput input.sbus).1.ppmInput input.ppm).2

def atPort : State G := ((s.sbusInput input.sbus).1.ppmInput input.ppm).1

def sumdAccepted : Bool :=
  !has (s.atPort input).status_flags (STATUS_FLAGS_RC_SBUS ||| STATUS_FLAGS_RC_PPM) &&
    ((((s.atPort input).dsmInput input.dsm).1.st24Input input.st24).1.sumdInput input.sumd).2

def sbusReported : Bool := s.sbusAccepted input && input.sbus.any (·.failsafe)

/-- The receiver itself reports failsafe, in a frame that is accepted. -/
def reported : Bool :=
  s.sbusReported input || s.sumdAccepted input && input.sumd.any (·.failsafe)

def received : State G := (s.gather input).1

/-- An enabled channel of the frame is the throttle. -/
def ThrottleReceived : Prop :=
  ∃ i < (s.received input).raw_rc_count.toNat,
    (s.rc_input_config i).enabled = true ∧ (s.rc_input_config i).assignment = 3

/-- A received throttle is outside of its range, and behind the threshold. -/
def ThrottleOut : Prop :=
  ∃ i < (s.received input).raw_rc_count.toNat,
    (s.rc_input_config i).enabled = true ∧ (s.rc_input_config i).assignment = 3 ∧
      s.throttleFailsafe (s.rc_input_config i) ((s.received input).raw_rc_values i) = true

/-- The controls that are assigned by the channels of the frame. -/
def assigned : Finset ℕ :=
  (Finset.range CONTROL_CHANNELS).filter fun j =>
    ∃ i < (s.received input).raw_rc_count.toNat,
      (s.rc_input_config i).enabled = true ∧ (s.rc_input_config i).assignment.toNat = j

/-! ### The reports -/

section Reports

variable {s input}

theorem sbusInput_accepted {frame : Option SbusFrame} (h : (s.sbusInput frame).2 = true) :
    has (s.sbusInput frame).1.status_flags STATUS_FLAGS_RC_SBUS = true ∧
      has (s.sbusInput frame).1.raw_rc_flags RAW_RC_FLAGS_FAILSAFE = frame.any (·.failsafe) := by
  unfold sbusInput at *
  cases frame with
  | none => cases h
  | some frame =>
    dsimp only at *
    split_ifs at *
    refine ⟨?_, has_put (by decide) _⟩
    rw [has_or, has_self (by decide), Bool.or_true]

theorem ppmInput_accepted {frame : Option Frame} (h : (s.ppmInput frame).2 = true) :
    has (s.ppmInput frame).1.status_flags STATUS_FLAGS_RC_PPM = true ∧
      has (s.ppmInput frame).1.raw_rc_flags RAW_RC_FLAGS_FAILSAFE = false := by
  unfold ppmInput at *
  cases frame with
  | none => cases h
  | some frame =>
    dsimp only at *
    split_ifs at *
    refine ⟨?_, has_put (by decide) _⟩
    rw [has_or, has_self (by decide), Bool.or_true]

theorem ppmInput_refused {frame : Option Frame} (h : (s.ppmInput frame).2 = false) :
    (s.ppmInput frame).1.status_flags = s.status_flags ∧
      (s.ppmInput frame).1.raw_rc_flags = s.raw_rc_flags := by
  unfold ppmInput at *
  cases frame with
  | none => exact ⟨rfl, rfl⟩
  | some frame =>
    dsimp only at *
    split_ifs at *
    exact ⟨rfl, rfl⟩

theorem sumdInput_accepted {frame : Option SumdFrame} (h : (s.sumdInput frame).2 = true) :
    has (s.sumdInput frame).1.raw_rc_flags RAW_RC_FLAGS_FAILSAFE = frame.any (·.failsafe) := by
  unfold sumdInput at *
  cases frame with
  | none => cases h
  | some frame =>
    dsimp only at *
    split_ifs at *
    exact has_put (by decide) _

theorem portInput_of_has (h : has s.status_flags STATUS_FLAGS_RC_SBUS = true ∨
    has s.status_flags STATUS_FLAGS_RC_PPM = true) : s.portInput input = (s, false) := by
  apply if_pos
  rw [has_or_mask, Bool.or_eq_true]
  exact h

/-- A report reaches the flag, unless a PPM frame comes in the same tick as the one of S.BUS. -/
theorem gather_reported (h : s.reported input = true) :
    has (s.received input).raw_rc_flags RAW_RC_FLAGS_FAILSAFE = true ↔
      ¬ (s.sbusReported input = true ∧ s.ppmAccepted input = true) := by
  have hport : (s.received input).raw_rc_flags =
      ((s.atPort input).portInput input).1.raw_rc_flags :=
    rfl
  rw [hport]
  cases hsbus : s.sbusReported input with
  | true =>
    rw [sbusReported, Bool.and_eq_true] at hsbus
    obtain ⟨hflag, hfailsafe⟩ := sbusInput_accepted hsbus.1
    rw [hsbus.2] at hfailsafe
    cases hppm : s.ppmAccepted input with
    | true =>
      obtain ⟨hflag', hfailsafe'⟩ := ppmInput_accepted hppm
      rw [portInput_of_has (s := s.atPort input) (.inr hflag')]
      simp only [and_self, not_true_eq_false, iff_false, Bool.not_eq_true]
      exact hfailsafe'
    | false =>
      obtain ⟨hstatus, hraw⟩ := ppmInput_refused hppm
      rw [portInput_of_has (s := s.atPort input) (.inl (by rw [atPort, hstatus]; exact hflag))]
      simp only [Bool.false_eq_true, and_false, not_false_eq_true, iff_true]
      rw [atPort, hraw]
      exact hfailsafe
  | false =>
    rw [reported, hsbus, Bool.false_or, sumdAccepted, Bool.and_eq_true, Bool.and_eq_true,
      Bool.not_eq_true'] at h
    obtain ⟨⟨hfree, haccepted⟩, hfailsafe⟩ := h
    simp only [Bool.false_eq_true, false_and, not_false_eq_true, iff_true]
    unfold portInput
    rw [hfree, if_neg Bool.false_ne_true]
    exact (sumdInput_accepted haccepted).trans hfailsafe

end Reports

/-! ### The loop over the channels -/

section Mapping

variable {s} (fl : Rounding)

theorem throttleFailsafe_constrain {conf : RcConf} (h : conf.min ≤ conf.max) (raw : UInt16) :
    s.throttleFailsafe conf (conf.constrain raw) = false := by
  obtain ⟨hmin, hmax⟩ := RcConf.constrain_mem h raw
  unfold throttleFailsafe
  rw [decide_eq_false (UInt16.not_lt.mpr hmin), decide_eq_false (UInt16.not_lt.mpr hmax)]
  rfl

theorem mapChannel_flags (ht : s.rcThrFailsafe ≠ 0) (m : Mapping) {i : ℕ}
    (hsane : (s.rc_input_config i).Sane) :
    has (s.mapChannel fl m i).raw_rc_flags RAW_RC_FLAGS_FAILSAFE =
      (has m.raw_rc_flags RAW_RC_FLAGS_FAILSAFE &&
        !((s.rc_input_config i).enabled && (s.rc_input_config i).assignment == 3)) := by
  unfold mapChannel
  dsimp only
  cases henabled : (s.rc_input_config i).enabled with
  | false => simp
  | true =>
    obtain ⟨-, hmin, hmax, -, -⟩ := hsane henabled
    rw [if_pos rfl, throttleFailsafe_constrain (UInt16.le_trans hmin hmax)]
    by_cases hthrottle : (s.rc_input_config i).assignment = 3
    · have hmapped : (s.rc_input_config i).assignment.toNat < CONTROL_CHANNELS := by
        rw [hthrottle]
        decide
      rw [if_pos hmapped, if_pos ⟨hthrottle, ht⟩, has_put (by decide), hthrottle]
      simp
    · have hne : ((s.rc_input_config i).assignment == 3) = false := beq_false_of_ne hthrottle
      have hno : ¬ ((s.rc_input_config i).assignment = 3 ∧ s.rcThrFailsafe ≠ 0) :=
        fun h => hthrottle h.1
      rw [hne, if_neg hno]
      split_ifs <;> simp

theorem mapChannels_failsafe (ht : s.rcThrFailsafe ≠ 0) (hsane : s.AllSane) {n : ℕ}
    (hn : n ≤ RC_INPUT_CHANNELS) :
    has (s.mapChannels fl n).raw_rc_flags RAW_RC_FLAGS_FAILSAFE = true ↔
      has s.raw_rc_flags RAW_RC_FLAGS_FAILSAFE = true ∧
        ¬ ∃ i < n, (s.rc_input_config i).enabled = true ∧ (s.rc_input_config i).assignment = 3 := by
  induction n with
  | zero => simp [mapChannels]
  | succ n ih =>
    rw [mapChannels, mapChannel_flags fl ht _ (hsane n hn), Bool.and_eq_true,
      ih (Nat.le_of_succ_le hn), and_assoc, Bool.not_eq_true', Bool.and_eq_false_iff,
      Nat.exists_lt_succ_right]
    refine and_congr_right fun _ => ?_
    rw [not_or, not_and_or, Bool.not_eq_true, beq_eq_false_iff_ne]

theorem testBit_assigned (n j : ℕ) :
    (s.mapChannels fl n).assigned_channels.testBit j = true ↔
      j < CONTROL_CHANNELS ∧ ∃ i < n, (s.rc_input_config i).enabled = true ∧
        (s.rc_input_config i).assignment.toNat = j := by
  induction n with
  | zero => simp [mapChannels]
  | succ n ih =>
    rw [mapChannels, Nat.exists_lt_succ_right, and_or_left, ← ih]
    unfold mapChannel
    dsimp only
    cases henabled : (s.rc_input_config n).enabled with
    | false => simp
    | true =>
      rw [if_pos rfl]
      by_cases hmapped : (s.rc_input_config n).assignment.toNat < CONTROL_CHANNELS
      · rw [if_pos hmapped, testBit_assign, Bool.or_eq_true, decide_eq_true_eq]
        exact or_congr_right ⟨fun h => ⟨h ▸ hmapped, rfl, h⟩, fun h => h.2.2⟩
      · rw [if_neg hmapped]
        have hnot : ¬ (j < CONTROL_CHANNELS ∧ true = true ∧
            (s.rc_input_config n).assignment.toNat = j) :=
          fun h => hmapped (h.2.2 ▸ h.1)
        rw [or_iff_left hnot]
        split_ifs <;> rfl

end Mapping

/-! ### The mask and the number of its bits -/

def bits (mask : ℕ) : Finset ℕ := (Finset.range CONTROL_CHANNELS).filter (mask.testBit ·)

theorem four_lt_iff : ∀ mask < 256, 4 < mask ↔ ¬ (bits mask ⊆ {0, 1} ∨ bits mask = {2}) := by
  decide +kernel

/-- The comparison with four finds five controls only where there are five, or where there are at
most roll and pitch, or yaw. -/
theorem four_lt_iff_card {mask : ℕ} (hmask : mask < 256) :
    (4 < mask ↔ 5 ≤ (bits mask).card) ↔
      5 ≤ (bits mask).card ∨ bits mask ⊆ {0, 1} ∨ bits mask = {2} := by
  have hsmall : bits mask ⊆ {0, 1} ∨ bits mask = {2} → (bits mask).card ≤ 2 := by
    rintro (hsub | heq)
    · exact (Finset.card_le_card hsub).trans (by decide)
    · rw [heq]
      decide
  rw [four_lt_iff mask hmask]
  constructor
  · intro h
    by_cases hcase : bits mask ⊆ {0, 1} ∨ bits mask = {2}
    · exact .inr hcase
    · exact .inl (h.mp hcase)
  · rintro (hcard | hcase)
    · exact ⟨fun _ => hcard, fun _ hcase => by have := hsmall hcase; omega⟩
    · exact ⟨fun h => absurd hcase h, fun hcard => by have := hsmall hcase; omega⟩

/-! ### A tick -/

section Tick

variable {s input} (fl : Rounding) {now : ℕ}

theorem received_rc_input_config : (s.received input).rc_input_config = s.rc_input_config := by
  rw [received, s.received_gather input]

theorem received_rcThrFailsafe : (s.received input).rcThrFailsafe = s.rcThrFailsafe := by
  rw [rcThrFailsafe, received, s.received_gather input]
  rfl

theorem lose_of_not_lost (h : s.inputLost now = false) :
    (s.lose now).raw_rc_flags = s.raw_rc_flags := by
  unfold lose
  dsimp only
  rw [h, if_neg Bool.false_ne_true, if_neg Bool.false_ne_true]
  split_ifs <;> rfl

theorem controlsTick_raw_rc_flags (hupdated : (s.gather input).2 = true) :
    (s.controlsTick fl now input).raw_rc_flags =
      put (((s.received input).mapChannels fl
        (s.received input).raw_rc_count.toNat).raw_rc_flags |||
          RAW_RC_FLAGS_RC_OK) RAW_RC_FLAGS_MAPPING_OK
        (4 < ((s.received input).mapChannels fl
          (s.received input).raw_rc_count.toNat).assigned_channels) := by
  have hlost : ((s.received input).process fl now).inputLost now = false := by
    unfold inputLost process
    dsimp only
    rw [Nat.sub_self]
    rfl
  unfold controlsTick checkOverride
  dsimp only
  rw [hupdated, if_pos rfl]
  exact lose_of_not_lost hlost

theorem controlsTick_failsafe (ht : s.rcThrFailsafe ≠ 0) (hsane : s.AllSane)
    (hupdated : (s.gather input).2 = true) :
    has (s.controlsTick fl now input).raw_rc_flags RAW_RC_FLAGS_FAILSAFE = true ↔
      has (s.received input).raw_rc_flags RAW_RC_FLAGS_FAILSAFE = true ∧
        ¬ s.ThrottleReceived input := by
  have hmap := mapChannels_failsafe (s := s.received input) fl
    (by rw [received_rcThrFailsafe]; exact ht) (hsane.of_config received_rc_input_config)
    (s.gather_count input)
  rw [received_rc_input_config] at hmap
  rw [controlsTick_raw_rc_flags fl hupdated, has_put_of_disjoint (by decide), has_or,
    show has RAW_RC_FLAGS_RC_OK RAW_RC_FLAGS_FAILSAFE = false by decide, Bool.or_false]
  exact hmap

theorem bits_assigned :
    bits ((s.received input).mapChannels fl
      (s.received input).raw_rc_count.toNat).assigned_channels = s.assigned input := by
  ext j
  rw [bits, assigned, Finset.mem_filter, Finset.mem_filter, testBit_assigned, Finset.mem_range,
    received_rc_input_config]
  tauto

theorem controlsTick_mapping_ok (hupdated : (s.gather input).2 = true) :
    (has (s.controlsTick fl now input).raw_rc_flags RAW_RC_FLAGS_MAPPING_OK = true ↔
      5 ≤ (s.assigned input).card) ↔
    5 ≤ (s.assigned input).card ∨ s.assigned input ⊆ {0, 1} ∨ s.assigned input = {2} := by
  have hmask : ((s.received input).mapChannels fl
      (s.received input).raw_rc_count.toNat).assigned_channels < 2 ^ 8 := by
    apply Nat.lt_pow_two_of_testBit
    intro j hj
    rw [← Bool.not_eq_true, testBit_assigned]
    exact fun h => absurd h.1 (Nat.not_lt.mpr hj)
  rw [controlsTick_raw_rc_flags fl hupdated, has_put (by decide), decide_eq_true_eq,
    ← bits_assigned fl]
  exact four_lt_iff_card hmask

theorem lose_timestamp (s : State G) (now : ℕ) :
    (s.lose now).rc_channels_timestamp_received = s.rc_channels_timestamp_received := by
  unfold lose
  dsimp only
  split_ifs <;> rfl

theorem lose_of_lost (h : s.inputLost now = true) :
    has (s.lose now).status_flags STATUS_FLAGS_RC_OK = false := by
  unfold lose
  dsimp only
  rw [h, if_pos rfl, if_pos rfl]
  exact has_clear (by decide)

theorem controlsTick_override (s : State G) (now : ℕ) (input : Input)
    (h : has (s.controlsTick fl now input).raw_rc_flags RAW_RC_FLAGS_FAILSAFE = true ∨
      200000 < now - (s.controlsTick fl now input).rc_channels_timestamp_received) :
    has (s.controlsTick fl now input).status_flags STATUS_FLAGS_OVERRIDE = false := by
  unfold controlsTick checkOverride at *
  dsimp only at *
  generalize (if (s.gather input).2 = true then (s.gather input).1.process fl now
    else (s.gather input).1) = t at *
  rw [has_put (by decide), Bool.and_eq_false_iff]
  left
  unfold overrideAllowed
  rcases h with hfailsafe | hlost
  · rw [hfailsafe]
    simp
  · rw [lose_timestamp] at hlost
    rw [lose_of_lost (decide_eq_true hlost)]
    simp

end Tick

/-! ### Runs -/

/-- What a tick should do with its frame. -/
def FailsafeCorrect (fl : Rounding) (s : State G) (now : ℕ) (input : Input) : Prop :=
  ((s.gather input).2 = true →
    (s.reported input = true ∨ s.ThrottleOut input →
      has (s.controlsTick fl now input).raw_rc_flags RAW_RC_FLAGS_FAILSAFE = true) ∧
    (has (s.controlsTick fl now input).raw_rc_flags RAW_RC_FLAGS_MAPPING_OK = true ↔
      5 ≤ (s.assigned input).card)) ∧
  (has (s.controlsTick fl now input).raw_rc_flags RAW_RC_FLAGS_FAILSAFE = true ∨
      200000 < now - (s.controlsTick fl now input).rc_channels_timestamp_received →
    has (s.controlsTick fl now input).status_flags STATUS_FLAGS_OVERRIDE = false)

/-- No throttle is out of its range; a frame that reports failsafe has no throttle, and does not
come with a PPM frame; the controls are five, or roll and pitch at most, or yaw. -/
def Harmless (s : State G) (input : Input) : Prop :=
  (s.gather input).2 = true →
    ¬ s.ThrottleOut input ∧
    (s.reported input = true → ¬ s.ThrottleReceived input ∧
      ¬ (s.sbusReported input = true ∧ s.ppmAccepted input = true)) ∧
    (5 ≤ (s.assigned input).card ∨ s.assigned input ⊆ {0, 1} ∨ s.assigned input = {2})

theorem ThrottleOut.received (h : s.ThrottleOut input) : s.ThrottleReceived input :=
  h.imp fun _ ⟨hi, henabled, hthrottle, _⟩ => ⟨hi, henabled, hthrottle⟩

theorem failsafeCorrect_iff (fl : Rounding) (ht : s.rcThrFailsafe ≠ 0) (hsane : s.AllSane)
    (now : ℕ) (input : Input) : s.FailsafeCorrect fl now input ↔ s.Harmless input := by
  unfold FailsafeCorrect Harmless
  rw [and_iff_left (s.controlsTick_override fl now input)]
  refine forall_congr' fun hupdated => ?_
  rw [controlsTick_mapping_ok fl hupdated, controlsTick_failsafe fl ht hsane hupdated, ← and_assoc]
  refine and_congr_left fun _ => ⟨fun h => ⟨fun hout => ?_, fun hreported => ?_⟩, ?_⟩
  · exact (h (.inr hout)).2 hout.received
  · obtain ⟨hflag, hnone⟩ := h (.inl hreported)
    exact ⟨hnone, (gather_reported hreported).mp hflag⟩
  · rintro ⟨hnot, hcond⟩ (hreported | hout)
    · obtain ⟨hnone, hppm⟩ := hcond hreported
      exact ⟨(gather_reported hreported).mpr hppm, hnone⟩
    · exact absurd hout hnot

/-- A threshold, sane channels, and a throttle. -/
def Configured (s : State G) : Prop :=
  s.rcThrFailsafe ≠ 0 ∧ s.AllSane ∧
    ∃ i < RC_INPUT_CHANNELS, (s.rc_input_config i).enabled = true ∧
      (s.rc_input_config i).assignment = 3

end State

/-- In any run, the ticks of a configured state are correct exactly if their inputs are harmless. -/
theorem failsafe_correct_iff (fl : Rounding) (s : State G) (es : List RcEvent) :
    Trace.Always (State.rcStep fl)
        (fun s e => ∀ now input, e = .controls now input → s.Configured →
          s.FailsafeCorrect fl now input) s es ↔
      Trace.Always (State.rcStep fl)
        (fun s e => ∀ now input, e = .controls now input → s.Configured →
          s.Harmless input) s es := by
  refine Trace.always_iff_of_invariant (I := fun _ => True) (fun s e _ => ?_)
    (fun _ _ _ _ => trivial) trivial
  refine forall₄_congr fun now input _ hconfigured => ?_
  exact s.failsafeCorrect_iff fl hconfigured.1 hconfigured.2.1 now input

/-- The threshold is set, and a frame of S.BUS has the throttle below it and below its range. -/
def throttleEvents : List RcEvent :=
  [.write 0 .SETUP 13 [900],
    .controls 1 ⟨some ⟨⟨16, fun i => some (if i = 3 then 800 else 1500)⟩, false, false⟩,
      none, none, none, none⟩]

/-- The flag is not set. -/
theorem throttle_never_fails :
    ¬ ∀ es, Trace.Always (State.rcStep .exact)
      (fun s e => ∀ now input, e = .controls now input → s.Configured →
        s.FailsafeCorrect .exact now input) (State.powerOn ()).controlsInit es := by
  intro h
  obtain ⟨-, htick, -⟩ := h throttleEvents
  have hconfigured := htick 1 _ rfl
    ⟨by decide, (State.allSane_controlsInit (State.powerOn ())).of_config rfl, 3, by decide, rfl,
      rfl⟩
  obtain ⟨hframe, -⟩ := hconfigured
  have hflag := (hframe rfl).1 (.inr ⟨3, by decide, rfl, rfl, rfl⟩)
  exact nomatch hflag

end Px4io
