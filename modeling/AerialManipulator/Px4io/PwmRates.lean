/-
The PWM rates of the IO processor.

The outputs of one timer form a group and share a rate.  Three registers say which channels run at
the alternate rate, and what the two rates are; a write to one of them checks the map, programs the
groups and stores the registers at the end.

* `configure_spec` — what a legal map programs and stores;
* `raises_iff` — which writes raise the alarm; they change nothing else;
* **`rateWrites`** — over runs.
-/
import AerialManipulator.Lib.Flags
import AerialManipulator.Lib.Literals
import AerialManipulator.Lib.Trace

namespace Px4io.Pwm

open Flags

def PX4IO_SERVO_COUNT : ℕ := 8

def RATES_VALID : UInt16 := 0x00FF

def ALARMS_PWM_ERROR : UInt16 := 0x0040

/-- The registers `PWM_RATES`, `PWM_DEFAULTRATE` and `PWM_ALTRATE`. -/
structure Rates where
  map : UInt16
  defaultrate : UInt16
  altrate : UInt16
  deriving DecidableEq

structure State where
  setup : Rates
  status_alarms : UInt16
  /-- The rates at which the groups run. -/
  hardware : ℕ → UInt16

def State.powerOn (hardware : ℕ → UInt16) : State := ⟨⟨0, 50, 200⟩, 0, hardware⟩

section

variable (groups : ℕ → UInt32) (works : ℕ → UInt16 → Bool)

def alt (map : UInt16) (group : ℕ) : UInt32 := map.toUInt32 &&& groups group

/-- The first pass: all channels of the group are at one rate. -/
def Legal (map : UInt16) (group : ℕ) : Prop :=
  groups group = 0 ∨ alt groups map group = 0 ∨ alt groups map group = groups group

instance (map : UInt16) (group : ℕ) : Decidable (Legal groups map group) :=
  inferInstanceAs (Decidable (_ ∨ _))

/-- The whole map is legal. -/
def LegalMap (map : UInt16) : Prop := ∀ group ∈ List.range PX4IO_SERVO_COUNT, Legal groups map group

instance (map : UInt16) : Decidable (LegalMap groups map) :=
  inferInstanceAs (Decidable (∀ group ∈ List.range PX4IO_SERVO_COUNT, Legal groups map group))

def rate (map : UInt16) (r : Rates) (group : ℕ) : UInt16 :=
  if alt groups map group ≠ 0 then r.altrate else r.defaultrate

/-- The second pass: `up_pwm_servo_set_rate_group_update`, which may fail. -/
def program (map : UInt16) (s : State) (group : ℕ) : State :=
  if groups group = 0 then s
  else if works group (rate groups map s.setup group) then
    { s with hardware := Function.update s.hardware group (rate groups map s.setup group) }
  else { s with status_alarms := s.status_alarms ||| ALARMS_PWM_ERROR }

def pwmConfigureRates (s : State) (r : Rates) : State :=
  if LegalMap groups r.map then
    { (List.range PX4IO_SERVO_COUNT).foldl (program groups works r.map) s with setup := r }
  else { s with status_alarms := s.status_alarms ||| ALARMS_PWM_ERROR }

inductive Write
  | rates (value : UInt16)
  | defaultrate (value : UInt16)
  | altrate (value : UInt16)

def constrainRate (value : UInt16) : UInt16 :=
  let value := if value < 25 then 25 else value
  if 400 < value then 400 else value

/-- The registers with the written value; a rate of 0 selects Oneshot. -/
def Rates.written (r : Rates) : Write → Rates
  | .rates value => { r with map := value &&& RATES_VALID }
  | .defaultrate value => { r with defaultrate := constrainRate value }
  | .altrate value => { r with altrate := if value ≠ 0 then constrainRate value else value }

/-- `registers_set_one`. -/
def step (s : State) (w : Write) : State := pwmConfigureRates groups works s (s.setup.written w)

/-! ### One write -/

/-- The write sets the alarm where it is not set yet. -/
def Raises (s : State) (w : Write) : Prop :=
  has (step groups works { s with status_alarms := 0 } w).status_alarms ALARMS_PWM_ERROR = true

/-- Every group runs at the rate that the registers say. -/
def Agrees (s : State) : Prop :=
  ∀ group < PX4IO_SERVO_COUNT, groups group ≠ 0 →
    s.hardware group
      = if alt groups s.setup.map group = groups group then s.setup.altrate else s.setup.defaultrate

end

section

variable {groups : ℕ → UInt32}

theorem foldl_program (map : UInt16) (l : List ℕ) (s : State) :
    (l.foldl (program groups (fun _ _ => true) map) s).setup = s.setup ∧
      (l.foldl (program groups (fun _ _ => true) map) s).status_alarms = s.status_alarms ∧
      ∀ group, (l.foldl (program groups (fun _ _ => true) map) s).hardware group
        = if group ∈ l ∧ groups group ≠ 0 then rate groups map s.setup group
          else s.hardware group := by
  induction l generalizing s with
  | nil => exact ⟨rfl, rfl, fun group => (if_neg (fun h => List.not_mem_nil h.1)).symm⟩
  | cons a l ih =>
    obtain ⟨hsetup, halarms, hhardware⟩ := ih (program groups (fun _ _ => true) map s a)
    by_cases ha : groups a = 0
    · have hstep : program groups (fun _ _ => true) map s a = s := if_pos ha
      rw [hstep] at hsetup halarms hhardware
      refine ⟨?_, ?_, fun group => ?_⟩
      · rw [List.foldl_cons, hstep, hsetup]
      · rw [List.foldl_cons, hstep, halarms]
      · rw [List.foldl_cons, hstep, hhardware]
        refine if_congr ?_ rfl rfl
        rw [List.mem_cons, and_congr_left_iff]
        exact fun hgroup => ⟨.inr, fun h => h.resolve_left fun heq => hgroup (heq ▸ ha)⟩
    · have hstep : program groups (fun _ _ => true) map s a
          = { s with hardware := Function.update s.hardware a (rate groups map s.setup a) } :=
        (if_neg ha).trans (if_pos rfl)
      rw [hstep] at hsetup halarms hhardware
      refine ⟨?_, ?_, fun group => ?_⟩
      · rw [List.foldl_cons, hstep, hsetup]
      · rw [List.foldl_cons, hstep, halarms]
      · rw [List.foldl_cons, hstep, hhardware]
        dsimp only
        by_cases heq : group = a
        · subst heq
          rw [Function.update_self, ite_self, if_pos ⟨List.mem_cons_self, ha⟩]
        · rw [Function.update_of_ne heq]
          refine if_congr ?_ rfl rfl
          rw [List.mem_cons, or_iff_right heq]

/-- A legal map is programmed with the rates in the registers, and then the registers are stored. -/
theorem configure_spec {s : State} {r : Rates} (h : LegalMap groups r.map) :
    (pwmConfigureRates groups (fun _ _ => true) s r).setup = r ∧
      (pwmConfigureRates groups (fun _ _ => true) s r).status_alarms = s.status_alarms ∧
      ∀ group < PX4IO_SERVO_COUNT, groups group ≠ 0 →
        (pwmConfigureRates groups (fun _ _ => true) s r).hardware group
          = if alt groups r.map group = groups group then s.setup.altrate
            else s.setup.defaultrate := by
  rw [pwmConfigureRates, if_pos h]
  obtain ⟨-, halarms, hhardware⟩ := @foldl_program groups r.map (List.range PX4IO_SERVO_COUNT) s
  refine ⟨rfl, halarms, fun group hlt hne => ?_⟩
  have hmem := List.mem_range.mpr hlt
  rw [hhardware, if_pos ⟨hmem, hne⟩, rate]
  refine if_congr ⟨fun halt => ?_, fun hfull hzero => hne (hfull.symm.trans hzero)⟩ rfl rfl
  exact ((h group hmem).resolve_left hne).resolve_left halt

theorem configure_refused {s : State} {r : Rates} (works : ℕ → UInt16 → Bool)
    (h : ¬ LegalMap groups r.map) :
    pwmConfigureRates groups works s r
      = { s with status_alarms := s.status_alarms ||| ALARMS_PWM_ERROR } := if_neg h

theorem raises_iff (s : State) (w : Write) :
    Raises groups (fun _ _ => true) s w ↔ ¬ LegalMap groups (s.setup.written w).map := by
  rw [Raises, step]
  by_cases h : LegalMap groups (s.setup.written w).map
  · have halarms := (configure_spec (s := { s with status_alarms := 0 }) h).2.1
    rw [halarms]
    exact iff_of_false (show ¬ has 0 ALARMS_PWM_ERROR = true by decide) (not_not.mpr h)
  · rw [configure_refused _ h]
    refine iff_of_true ?_ h
    rw [has_or, Bool.or_eq_true]
    exact .inr (by decide)

/-- What a write should do. -/
structure Holds (groups : ℕ → UInt32) (s : State) (w : Write) : Prop where
  refused : Raises groups (fun _ _ => true) s w →
    (step groups (fun _ _ => true) s w).setup = s.setup ∧
      (step groups (fun _ _ => true) s w).hardware = s.hardware
  stored : ¬ Raises groups (fun _ _ => true) s w →
    (step groups (fun _ _ => true) s w).setup = s.setup.written w
  programmed : ¬ Raises groups (fun _ _ => true) s w →
    Agrees groups (step groups (fun _ _ => true) s w)

/-- The written rate is the one that is in the register, or no group runs at it. -/
def Harmless (groups : ℕ → UInt32) (s : State) : Write → Prop
  | .rates _ => True
  | .defaultrate value => constrainRate value = s.setup.defaultrate ∨
      ∀ group < PX4IO_SERVO_COUNT, groups group ≠ 0 → alt groups s.setup.map group = groups group
  | .altrate value => (if value ≠ 0 then constrainRate value else value) = s.setup.altrate ∨
      ∀ group < PX4IO_SERVO_COUNT, groups group ≠ 0 → alt groups s.setup.map group ≠ groups group

theorem refused (s : State) {w : Write} (h : Raises groups (fun _ _ => true) s w) :
    (step groups (fun _ _ => true) s w).setup = s.setup ∧
      (step groups (fun _ _ => true) s w).hardware = s.hardware := by
  rw [step, configure_refused _ ((raises_iff s w).mp h)]
  exact ⟨rfl, rfl⟩

theorem legal_of_not_raises {s : State} {w : Write} (h : ¬ Raises groups (fun _ _ => true) s w) :
    LegalMap groups (s.setup.written w).map := not_not.mp fun hnot => h ((raises_iff s w).mpr hnot)

theorem stored (s : State) {w : Write} (h : ¬ Raises groups (fun _ _ => true) s w) :
    (step groups (fun _ _ => true) s w).setup = s.setup.written w :=
  (configure_spec (legal_of_not_raises h)).1

/-- The groups agree with the registers, if the old and the new registers say the same rates. -/
theorem agrees_iff {s : State} {w : Write} (h : ¬ Raises groups (fun _ _ => true) s w) :
    Agrees groups (step groups (fun _ _ => true) s w) ↔
      ∀ group < PX4IO_SERVO_COUNT, groups group ≠ 0 →
        (if alt groups (s.setup.written w).map group = groups group then s.setup.altrate
          else s.setup.defaultrate)
        = if alt groups (s.setup.written w).map group = groups group
          then (s.setup.written w).altrate
          else (s.setup.written w).defaultrate := by
  obtain ⟨hsetup, -, hhardware⟩ := configure_spec (s := s) (legal_of_not_raises h)
  refine forall_congr' fun group => forall_congr' fun hlt => forall_congr' fun hne => ?_
  rw [step, hhardware group hlt hne, hsetup]

theorem holds_iff {s : State} (hlegal : LegalMap groups s.setup.map) (w : Write) :
    Holds groups s w ↔ Harmless groups s w := by
  have hsplit : ∀ P : Prop, (¬ Raises groups (fun _ _ => true) s w →
      (Agrees groups (step groups (fun _ _ => true) s w) ↔ P)) →
      (Raises groups (fun _ _ => true) s w → P) → (Holds groups s w ↔ P) := fun P hiff hraise => by
    constructor
    · intro h
      by_cases hr : Raises groups (fun _ _ => true) s w
      · exact hraise hr
      · exact (hiff hr).mp (h.programmed hr)
    · exact fun hP => ⟨refused s, stored s, fun hr => (hiff hr).mpr hP⟩
  cases w with
  | rates value =>
    refine hsplit True (fun hr => iff_of_true
      ((agrees_iff hr).mpr fun group _ _ => rfl) trivial) fun _ => trivial
  | defaultrate value =>
    refine hsplit _ (fun hr => (agrees_iff hr).trans ?_) fun hr => absurd hlegal
      ((raises_iff s _).mp hr)
    constructor
    · intro h
      by_cases heq : constrainRate value = s.setup.defaultrate
      · exact .inl heq
      · refine .inr fun group hlt hne => by_contra fun hout => heq ?_
        exact ((if_neg hout).symm.trans ((h group hlt hne).trans (if_neg hout))).symm
    · rintro (heq | hall) group hlt hne
      · exact if_congr Iff.rfl rfl heq.symm
      · exact (if_pos (hall group hlt hne)).trans (if_pos (hall group hlt hne)).symm
  | altrate value =>
    refine hsplit _ (fun hr => (agrees_iff hr).trans ?_) fun hr => absurd hlegal
      ((raises_iff s _).mp hr)
    constructor
    · intro h
      by_cases heq : (if value ≠ 0 then constrainRate value else value) = s.setup.altrate
      · exact .inl heq
      · refine .inr fun group hlt hne hin => heq ?_
        exact ((if_pos hin).symm.trans ((h group hlt hne).trans (if_pos hin))).symm
    · rintro (heq | hall) group hlt hne
      · exact if_congr Iff.rfl heq.symm rfl
      · exact (if_neg (hall group hlt hne)).trans (if_neg (hall group hlt hne)).symm

theorem legal_step {s : State} (h : LegalMap groups s.setup.map) (w : Write) :
    LegalMap groups (step groups (fun _ _ => true) s w).setup.map := by
  by_cases hr : Raises groups (fun _ _ => true) s w
  · rw [(refused s hr).1]
    exact h
  · rw [stored s hr]
    exact legal_of_not_raises hr

end

/-- **The rates.** Over every run of writes where the hardware takes all updates: a write that
raises the alarm changes nothing else, all others store the registers, and the groups run at the
rates in the registers after each of them, exactly if no write changes a rate that is in use. -/
theorem rateWrites (groups : ℕ → UInt32) (hardware : ℕ → UInt16) (ws : List Write) :
    Trace.Always (step groups (fun _ _ => true)) (Holds groups) (State.powerOn hardware) ws ↔
      Trace.Always (step groups (fun _ _ => true)) (Harmless groups)
        (State.powerOn hardware) ws := by
  have hstart : LegalMap groups (State.powerOn hardware).setup.map :=
    fun group _ => .inr (.inl UInt32.zero_and)
  exact Trace.always_iff_of_invariant (I := fun s => LegalMap groups s.setup.map)
    (fun s w h => holds_iff h w) (fun s w h _ => legal_step h w) hstart

/-- The default rate is set to 100 Hz; the only group stays at 50 Hz. -/
theorem default_rate_not_programmed :
    ¬ ∀ (groups : ℕ → UInt32) (hardware : ℕ → UInt16) (w : Write),
      ¬ Raises groups (fun _ _ => true) (State.powerOn hardware) w →
      Agrees groups (step groups (fun _ _ => true) (State.powerOn hardware) w) := by
  intro h
  have hagrees := h (fun group => if group = 0 then 0xFF else 0) (fun _ => 50) (.defaultrate 100)
    (by unfold Raises; decide) 0 (by decide) (by decide)
  exact nomatch hagrees

end Px4io.Pwm
