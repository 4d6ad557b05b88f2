/-
The configuration of the RC channels over runs.

A channel is checked when its options are written, and the mapping of the inputs relies on it.  The
other registers of a channel are written one at a time; such a write should disable the channel,
but it keeps exactly the flag that it should clear.

* `Singly` — what holds of each register of a write;
* **`config_correct`** — then every enabled channel is sane, and every scaled value in its range;
* **`write_keeps_enabled`** — a channel that is enabled with a minimum above its maximum.
-/
import AerialManipulator.Px4io.Controls

namespace Px4io

open Flags

/-- What changes the configuration, or reads it. -/
inductive RcEvent
  | write (now : ℕ) (page : Page) (offset : ℕ) (values : List UInt16)
  | controls (now : ℕ) (input : Input)
  /-- The safety switch and the tick of the mixer change flags. -/
  | flags (status_flags setup_arming : UInt16)

variable {G : Type*} (fl : Rounding)

namespace State

def rcStep (s : State G) : RcEvent → State G
  | .write now page offset values => (s.registersSet now page offset values).1
  | .controls now input => s.controlsTick fl now input
  | .flags status_flags setup_arming =>
    { s with status_flags := status_flags, setup_arming := setup_arming }

/-- `P` holds of each register that is set, with the state before it. -/
def Singly (P : State G → ℕ → UInt16 → Prop) : State G → ℕ → List UInt16 → Prop
  | _, _, [] => True
  | s, offset, value :: values =>
    P s offset value ∧ ∀ s', s.setRcConfig offset value = some s' → Singly P s' (offset + 1) values

/-- `P` holds of each register of the channels that an event sets. -/
def EachRegister (P : State G → ℕ → UInt16 → Prop) (s : State G) : RcEvent → Prop
  | .write _ page offset values => page = .RC_CONFIG → Singly P s offset (clip offset values)
  | .controls _ _ => True
  | .flags _ _ => True

/-- No option of a channel is set when another register of it is written. -/
def NoOptions (s : State G) (offset : ℕ) (_ : UInt16) : Prop :=
  has s.status_flags STATUS_FLAGS_SAFETY_OFF = false →
    RcConf.channel offset < RC_INPUT_CHANNELS → RcConf.index offset ≠ RcConf.OPTIONS →
      (s.rc_input_config (RcConf.channel offset)).options = 0

instance (s : State G) (offset : ℕ) (value : UInt16) : Decidable (s.NoOptions offset value) :=
  inferInstanceAs (Decidable (_ → _ → _ → _))

instance decidableForallSome {α : Type*} {P : α → Prop} [DecidablePred P] :
    ∀ o : Option α, Decidable (∀ a, o = some a → P a)
  | none => .isTrue nofun
  | some a => decidable_of_iff (P a) ⟨fun h _ heq => Option.some.inj heq ▸ h, fun h => h a rfl⟩

instance decidableSingly (P : State G → ℕ → UInt16 → Prop)
    [∀ s offset value, Decidable (P s offset value)] :
    ∀ s offset values, Decidable (Singly P s offset values)
  | _, _, [] => inferInstanceAs (Decidable True)
  | s, offset, value :: values =>
    have := fun s' => decidableSingly P s' (offset + 1) values
    inferInstanceAs (Decidable (_ ∧ ∀ s', s.setRcConfig offset value = some s' → _))

instance (P : State G → ℕ → UInt16 → Prop) [∀ s offset value, Decidable (P s offset value)]
    (s : State G) : DecidablePred (EachRegister P s)
  | .write _ _ _ _ => inferInstanceAs (Decidable (_ → Singly P s _ _))
  | .controls _ _ | .flags _ _ => inferInstanceAs (Decidable True)

def AllSane (s : State G) : Prop := ∀ i < RC_INPUT_CHANNELS, (s.rc_input_config i).Sane

/-- What a single write should do: a register other than the options disables its channel, and
changes nothing else; a channel is enabled only through its options, and only if it is sane. -/
def WriteCorrect (s : State G) (offset : ℕ) (value : UInt16) : Prop :=
  (has s.status_flags STATUS_FLAGS_SAFETY_OFF = false →
    RcConf.channel offset < RC_INPUT_CHANNELS → RcConf.index offset ≠ RcConf.OPTIONS →
      s.setRcConfig offset value = some (s.writeDisabled offset value)) ∧
  ∀ s', s.setRcConfig offset value = some s' → s'.AllSane ∧
    ∀ i, (s'.rc_input_config i).enabled = true → (s.rc_input_config i).enabled = true ∨
      RcConf.channel offset = i ∧ RcConf.index offset = RcConf.OPTIONS

/-- What a step should do: each register is written as it should be; other steps leave the
configuration; enabled channels are sane, so that each value of one can be scaled, and the mapped
values are in their range. -/
def ConfigCorrect (s : State G) (e : RcEvent) : Prop :=
  EachRegister WriteCorrect s e ∧
  ((∀ now offset values, e ≠ .write now .RC_CONFIG offset values) →
    (s.rcStep fl e).rc_input_config = s.rc_input_config) ∧
  (s.rcStep fl e).AllSane ∧
  (∀ i < RC_INPUT_CHANNELS, ((s.rcStep fl e).rc_input_config i).enabled = true → ∀ raw,
    let conf := (s.rcStep fl e).rc_input_config i
    ((conf.center.toNat + conf.deadzone.toNat : ℤ) < (conf.constrain raw).toNat → conf.upper ≠ 0) ∧
    (((conf.constrain raw).toNat : ℤ) < conf.center.toNat - conf.deadzone.toNat → conf.lower ≠ 0) ∧
    -10000 ≤ conf.scaled fl raw ∧ conf.scaled fl raw ≤ 10000) ∧
  ∀ now input, e = .controls now input → (s.gather input).2 = true →
    (∀ j < CONTROL_CHANNELS, InRange ((s.rcStep fl e).rc_values j)) ∧
    ((s.rcStep fl e).rc_value_override = s.rc_value_override ∨
      InRange (s.rcStep fl e).rc_value_override)

/-! ### The registers of a write -/

variable {fl} {s : State G}

theorem singly_of_invariant {I : State G → Prop} {C P : State G → ℕ → UInt16 → Prop}
    (hone : ∀ s offset value, I s → C s offset value →
      P s offset value ∧ ∀ s', s.setRcConfig offset value = some s' → I s')
    (values : List UInt16) : ∀ {s : State G} {offset : ℕ}, I s → Singly C s offset values →
      Singly P s offset values ∧ I (s.registersSetAll .RC_CONFIG offset values).1 := by
  induction values with
  | nil => exact fun hI _ => ⟨trivial, hI⟩
  | cons value values ih =>
    intro s offset hI hC
    obtain ⟨hvalue, hvalues⟩ := hC
    obtain ⟨hP, hkeep⟩ := hone s offset value hI hvalue
    refine ⟨⟨hP, fun s' hset => (ih (hkeep s' hset) (hvalues s' hset)).1⟩, ?_⟩
    have hone' : s.registersSetOne .RC_CONFIG offset value = s.setRcConfig offset value := rfl
    unfold registersSetAll
    rw [hone']
    cases hset : s.setRcConfig offset value with
    | none => exact hI
    | some s' => exact (ih (hkeep s' hset) (hvalues s' hset)).2

theorem writeCorrect_of_noOptions {offset : ℕ} {value : UInt16} (hsane : s.AllSane)
    (h : s.NoOptions offset value) : s.WriteCorrect offset value := by
  refine ⟨fun hsafety hchannel hindex =>
    (setRcConfig_iff hsafety hchannel hindex).mpr (h hsafety hchannel hindex), fun s' hset => ?_⟩
  rcases rc_input_config_setRcConfig hset with hsame | ⟨hsafety, hchannel, conf, hconf, hcase⟩
  · unfold AllSane
    rw [hsame]
    exact ⟨hsane, fun i hi => .inl hi⟩
  · have hnew : conf.Sane ∧ (RcConf.index offset ≠ RcConf.OPTIONS → conf.enabled = false) := by
      rcases hcase with ⟨hindex, hsane'⟩ | ⟨hindex, hoptions⟩
      · exact ⟨hsane', fun hne => absurd hindex hne⟩
      · have hdisabled : conf.enabled = false := by
          rw [RcConf.enabled, hoptions, h hsafety hchannel hindex]
          rfl
        exact ⟨fun henabled => absurd (hdisabled.symm.trans henabled) Bool.false_ne_true,
          fun _ => hdisabled⟩
    unfold AllSane
    rw [hconf]
    refine ⟨fun i hi => ?_, fun i hi => ?_⟩
    · by_cases hic : i = RcConf.channel offset
      · rw [hic, Function.update_self]
        exact hnew.1
      · rw [Function.update_of_ne hic]
        exact hsane i hi
    · by_cases hic : i = RcConf.channel offset
      · subst hic
        rw [Function.update_self] at hi
        by_cases hindex : RcConf.index offset = RcConf.OPTIONS
        · exact .inr ⟨rfl, hindex⟩
        · exact absurd ((hnew.2 hindex).symm.trans hi) Bool.false_ne_true
      · rw [Function.update_of_ne hic] at hi
        exact .inl hi

/-! ### Runs -/

/-- An event that meets the condition. -/
def Meets (s : State G) (e : RcEvent) : Prop := s.EachRegister NoOptions e

instance (s : State G) : DecidablePred s.Meets :=
  inferInstanceAs (DecidablePred (EachRegister NoOptions s))

theorem rcStep_rc_input_config {e : RcEvent}
    (h : ∀ now offset values, e ≠ .write now .RC_CONFIG offset values) :
    (s.rcStep fl e).rc_input_config = s.rc_input_config := by
  cases e with
  | write now page offset values =>
    refine registersSet_rc_input_config s now (fun hpage => ?_) offset values
    exact h now offset values (by rw [hpage])
  | controls now input => exact s.controlsTick_rc_input_config fl now input
  | flags status_flags setup_arming => rfl

theorem AllSane.of_config {s' : State G} (h : s.AllSane)
    (hconfig : s'.rc_input_config = s.rc_input_config) : s'.AllSane := by
  unfold AllSane
  rw [hconfig]
  exact h

/-- The registers of an event are written as they should be, and the channels stay sane. -/
theorem AllSane.registers {e : RcEvent} (h : s.AllSane) (hmeets : s.Meets e) :
    s.EachRegister WriteCorrect e ∧ (s.rcStep fl e).AllSane := by
  by_cases hwrite : ∀ now offset values, e ≠ .write now .RC_CONFIG offset values
  · refine ⟨?_, h.of_config (rcStep_rc_input_config hwrite)⟩
    cases e with
    | write now page offset values =>
      exact fun hpage => absurd (by rw [hpage]) (hwrite now offset values)
    | controls now input => trivial
    | flags status_flags setup_arming => trivial
  · push Not at hwrite
    obtain ⟨now, offset, values, rfl⟩ := hwrite
    obtain ⟨hsingly, hlast⟩ := singly_of_invariant
      (fun s offset value hsane hoptions =>
        have hcorrect := writeCorrect_of_noOptions hsane hoptions
        ⟨hcorrect, fun s' hset => (hcorrect.2 s' hset).1⟩)
      (clip offset values) h (hmeets rfl)
    exact ⟨fun _ => hsingly, hlast⟩

theorem AllSane.controls (h : s.AllSane) (now : ℕ) {input : Input}
    (hupdated : (s.gather input).2 = true) :
    (∀ j < CONTROL_CHANNELS, InRange ((s.controlsTick fl now input).rc_values j)) ∧
    ((s.controlsTick fl now input).rc_value_override = s.rc_value_override ∨
      InRange (s.controlsTick fl now input).rc_value_override) := by
  have hgather := s.received_gather input
  have hsane : (s.gather input).1.AllSane := h.of_config (by rw [hgather])
  have hoverride : (s.gather input).1.rc_value_override = s.rc_value_override := by rw [hgather]
  unfold controlsTick checkOverride
  dsimp only
  rw [hupdated, if_pos rfl, (lose_frame _ now).2.1, (lose_frame _ now).2.2, ← hoverride]
  exact process_inRange fl _ hsane (s.gather_count input) now

theorem AllSane.step {e : RcEvent} (h : s.AllSane) (hmeets : s.Meets e) :
    s.ConfigCorrect fl e ∧ (s.rcStep fl e).AllSane := by
  obtain ⟨hregisters, hsane⟩ := @AllSane.registers _ fl _ _ h hmeets
  refine ⟨⟨hregisters, rcStep_rc_input_config, hsane, fun i hi henabled raw => ?_, ?_⟩, hsane⟩
  · have hordered := hsane i hi henabled
    obtain ⟨hupper, hlower, -⟩ := RcConf.scale_mem fl hordered
      (RcConf.constrain_mem (UInt16.le_trans hordered.2.1 hordered.2.2.1) raw)
    exact ⟨fun hraw => (hupper hraw).ne', fun hraw => (hlower hraw).ne',
      RcConf.scaled_mem fl hordered raw⟩
  · rintro now input rfl hupdated
    exact h.controls now hupdated

theorem allSane_controlsInit (s : State G) : s.controlsInit.AllSane := by
  intro i hi _
  have hdefault : (500 : UInt16) ≤ 1000 ∧ (1000 : UInt16) ≤ 1500 ∧ (1500 : UInt16) ≤ 2000 ∧
      (2000 : UInt16) ≤ 2500 ∧ (30 : UInt16) ≤ 500 := by decide
  unfold controlsInit
  dsimp only
  rw [if_pos hi]
  exact hdefault

end State

/-- In every run from the start in which no option of a channel is set when another register of it
is written, the configuration is as it should be at each step. -/
theorem config_correct (fl : Rounding) (group : G) (es : List RcEvent)
    (h : Trace.Always (State.rcStep fl) State.Meets (State.powerOn group).controlsInit es) :
    Trace.Always (State.rcStep fl) (State.ConfigCorrect fl) (State.powerOn group).controlsInit es :=
  Trace.always_of_invariant (fun _ _ hsane hmeets => hsane.step hmeets)
    (State.allSane_controlsInit _) h

/-- A channel is disabled, configured and enabled, in two writes, before a frame arrives. -/
def configEvents : List RcEvent :=
  [.write 0 .RC_CONFIG 5 [0], .write 1 .RC_CONFIG 0 [1100, 1500, 1900, 20, 2, 1],
    .controls 2 ⟨some ⟨⟨16, fun _ => some 1700⟩, false, false⟩, none, none, none, none⟩]

theorem config_in_two_writes :
    Trace.Always (State.rcStep .exact) (State.ConfigCorrect .exact)
      (State.powerOn ()).controlsInit configEvents :=
  config_correct .exact () configEvents (by decide)

/-- A minimum is written to a channel that is enabled, which stays so. -/
theorem write_keeps_enabled :
    ¬ ∀ es : List RcEvent, Trace.Always (State.rcStep .exact) (State.ConfigCorrect .exact)
      (State.powerOn ()).controlsInit es := by
  intro h
  obtain ⟨-, -, hsane, -⟩ := (h [.write 0 .RC_CONFIG 0 [3000]]).1
  obtain ⟨-, hmin, -⟩ := hsane 0 (by decide) rfl
  exact nomatch hmin

end Px4io
