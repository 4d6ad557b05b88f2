/-
The upward limit while the take-off ramp is running.

`updateRamp` counts the progress of the ramp, and `updateTakeoffState` resets it when it enters the
ramp.  A `Stay` is what happens from there on, as long as the state is still `rampup`.

* `Progress.step` — the progress against the time that has passed in the stay;
* **`ramp_law`** — the limit in, before and after a stay.
-/
import AerialManipulator.PosControl.Takeoff

open WithNaN Trace

namespace ESOTakeoff

variable {K : Type*} [Field K] [LinearOrder K]

/-! ### One call -/

section Step

variable {t : ESOTakeoff K} {c : Call}

@[simp] theorem updateTakeoffState_ramp_time :
    (t.updateTakeoffState c).takeoff_ramp_time = t.takeoff_ramp_time := by
  have hswitch : ∀ u : ESOTakeoff K, (u.switchState c).takeoff_ramp_time = u.takeoff_ramp_time := by
    intro u
    simp only [switchState, caseDisarmed, caseSpoolup, caseReadyForTakeoff, caseRampup, caseFlight]
    split <;> split_ifs <;> rfl
  simp only [updateTakeoffState]
  split_ifs <;> exact hswitch _

@[simp] theorem updateRamp_ramp_time (dt vz : Flt K) :
    (t.updateRamp dt vz).1.takeoff_ramp_time = t.takeoff_ramp_time := by
  simp only [updateRamp]
  split_ifs <;> rfl

/-- The switch enters the ramp with no progress, and keeps what there is while it stays. -/
theorem switchState_progress (h : (t.switchState c).takeoff_state = .rampup) :
    (t.switchState c).takeoff_ramp_progress =
      if t.takeoff_state = .rampup then t.takeoff_ramp_progress else 0 := by
  cases hs : t.takeoff_state <;>
    simp only [switchState, hs, caseDisarmed, caseSpoolup, caseReadyForTakeoff, caseRampup,
      caseFlight] at h ⊢ <;>
    split_ifs at h ⊢ <;> simp_all

theorem updateTakeoffState_progress (h : (t.updateTakeoffState c).takeoff_state = .rampup) :
    (t.updateTakeoffState c).takeoff_ramp_progress =
      if t.takeoff_state = .rampup then t.takeoff_ramp_progress else 0 := by
  cases harmed : c.armed with
  | false =>
    rw [state_disarmed_iff.mpr harmed] at h
    exact nomatch h
  | true =>
    cases hskip : c.skip_takeoff with
    | true => simp [updateTakeoffState, harmed, hskip] at h
    | false =>
      simp only [updateTakeoffState, harmed, hskip, Bool.and_false, Bool.not_true,
        Bool.false_eq_true, if_false] at h ⊢
      exact switchState_progress h

end Step

/-! ### The progress in a stay -/

/-- The time that has passed in the `updateRamp` calls. -/
def elapsed : List (Event K) → K
  | [] => 0
  | .call _ :: es => elapsed es
  | .ramp (num dt) _ :: es => dt + elapsed es
  | .ramp nan _ :: es => elapsed es

omit [LinearOrder K] in
theorem elapsed_cons (e : Event K) (es : List (Event K)) :
    elapsed (e :: es) = elapsed [e] + elapsed es := by
  rcases e with c | ⟨dt | _, vz⟩
  · exact (zero_add _).symm
  · exact congrArg (· + elapsed es) (add_zero dt).symm
  · exact (zero_add _).symm

/-- `updateRamp` is called with a positive time and the desired speed `d`. -/
def Steady (d : K) : Event K → Prop
  | .call _ => True
  | .ramp dt vz => ∃ x, 0 < x ∧ dt = num x ∧ vz = num d

/-- The state is `rampup` from the call `c` on, which enters it. -/
def Stay (t : ESOTakeoff K) (c : Call) (es : List (Event K)) : Prop :=
  t.takeoff_state ≠ .rampup ∧
    Always step (fun s e => (step s e).takeoff_state = .rampup) t (.call c :: es)

/-- What is known of the ramp, with the ramp time `R` and the initial value `v`. -/
structure Ramp (R v : K) (t : ESOTakeoff K) : Prop where
  ramp_time : t.takeoff_ramp_time = num R
  vz_init : t.takeoff_ramp_vz_init = num v

theorem Ramp.step {R v : K} {t : ESOTakeoff K} (h : Ramp R v t) (e : Event K) :
    Ramp R v (step t e) := by
  cases e with
  | call c =>
    exact ⟨updateTakeoffState_ramp_time.trans h.ramp_time,
      updateTakeoffState_ramp_vz_init.trans h.vz_init⟩
  | ramp dt vz =>
    exact ⟨(updateRamp_ramp_time dt vz).trans h.ramp_time,
      (updateRamp_ramp_vz_init dt vz).trans h.vz_init⟩

theorem Ramp.run {R v : K} {t : ESOTakeoff K} (h : Ramp R v t) (es : List (Event K)) :
    Ramp R v (run ESOTakeoff.step t es) :=
  run_of_invariant (I := Ramp R v) (fun _ e h _ => h.step e) h (always_true t es)

/-- The progress after a time `T` in the ramp. -/
structure Progress (R T : K) (t : ESOTakeoff K) (p : K) : Prop where
  state : t.takeoff_state = .rampup
  progress : t.takeoff_ramp_progress = num p
  nonneg : 0 ≤ p
  measures : 1 ≤ p ∨ p * R = T

/-- The progress after one more `updateRamp`. -/
def advance (R p dt : K) : K := if dt < R then p + dt / R else 1

def limit (v d p : K) : K := v + min p 1 * (d - v)

section Advance

variable [IsStrictOrderedRing K] {R p dt : K}

theorem le_advance (hdt : 0 < dt) : min p 1 ≤ min (advance R p dt) 1 := by
  unfold advance
  split_ifs with h
  · exact min_le_min_right 1 (le_add_of_nonneg_right (div_pos hdt (hdt.trans h)).le)
  · rw [min_self]
    exact min_le_right p 1

theorem advance_nonneg (hdt : 0 < dt) (hp : 0 ≤ p) : 0 ≤ advance R p dt := by
  unfold advance
  split_ifs with h
  · exact add_nonneg hp (div_pos hdt (hdt.trans h)).le
  · exact zero_le_one

theorem advance_measures {T : K} (hdt : 0 < dt) (h : 1 ≤ p ∨ p * R = T) :
    1 ≤ advance R p dt ∨ advance R p dt * R = T + dt := by
  unfold advance
  split_ifs with hlt
  · have hR := hdt.trans hlt
    rcases h with hdone | hT
    · exact .inl (hdone.trans (le_add_of_nonneg_right (div_pos hdt hR).le))
    · right
      rw [add_mul, hT, div_mul_cancel₀ _ hR.ne']
  · exact .inl (le_refl 1)

theorem one_le_advance {T : K} (hdt : 0 < dt) (h : 1 ≤ p ∨ p * R = T) (hR : R ≤ T + dt) :
    1 ≤ advance R p dt := by
  rcases advance_measures hdt h with hdone | hT
  · exact hdone
  · unfold advance at hT ⊢
    split_ifs at hT ⊢ with hlt
    · rw [← hT] at hR
      exact (le_mul_iff_one_le_left (hdt.trans hlt)).mp hR
    · exact le_refl 1

variable {v d : K}

theorem limit_mono {q : K} (hd : v ≤ d) (h : min p 1 ≤ min q 1) : limit v d p ≤ limit v d q :=
  add_le_add_right (mul_le_mul_of_nonneg_right h (sub_nonneg.mpr hd)) v

theorem le_limit (hd : v ≤ d) (hp : 0 ≤ p) : v ≤ limit v d p :=
  le_add_of_nonneg_right (mul_nonneg (le_min hp zero_le_one) (sub_nonneg.mpr hd))

theorem limit_le (hd : v ≤ d) : limit v d p ≤ d := by
  have hle := mul_le_mul_of_nonneg_right (min_le_right p 1) (sub_nonneg.mpr hd)
  rw [one_mul] at hle
  unfold limit
  linarith

omit [IsStrictOrderedRing K] in
theorem limit_of_done (h : 1 ≤ p) : limit v d p = d := by
  unfold limit
  rw [min_eq_right h]
  ring

end Advance

/-! ### The limit -/

section Limit

variable {R v d p T dt : K} {t : ESOTakeoff K}

theorem updateRamp_of_rampup (h : Ramp R v t) (hp : Progress R T t p) (hdt : 0 < dt) :
    (t.updateRamp (num dt) (num d)).1.takeoff_ramp_progress = num (advance R p dt) ∧
      (t.updateRamp (num dt) (num d)).2 = num (limit v d (advance R p dt)) := by
  have hadvance : (if num dt < t.takeoff_ramp_time then
      t.takeoff_ramp_progress + num dt / t.takeoff_ramp_time else 1) = num (advance R p dt) := by
    rw [h.ramp_time, hp.progress]
    unfold advance
    by_cases hlt : dt < R
    · rw [if_pos hlt, if_pos ((num_lt_num dt R).mpr hlt), num_div_of_ne (hdt.trans hlt).ne',
        num_add]
    · rw [if_neg hlt, if_neg (fun hc => hlt ((num_lt_num dt R).mp hc))]
      rfl
  have hnot : ¬ ESOTakeoffState.rampup < .rampup := by decide
  simp only [updateRamp, hp.state, if_true, hadvance, h.vz_init, if_neg hnot, true_and]
  unfold limit
  by_cases hlt : advance R p dt < 1
  · rw [min_eq_left hlt.le]
    exact if_pos ((num_lt_num _ 1).mpr hlt)
  · rw [min_eq_right (not_lt.mp hlt), one_mul, add_sub_cancel]
    exact if_neg fun hc => hlt ((num_lt_num _ 1).mp hc)

variable [IsStrictOrderedRing K]

theorem Progress.step (h : Ramp R v t) (hp : Progress R T t p) {e : Event K} (he : Steady d e)
    (hstay : (ESOTakeoff.step t e).takeoff_state = .rampup) :
    ∃ q, Progress R (T + elapsed [e]) (ESOTakeoff.step t e) q ∧ min p 1 ≤ min q 1 := by
  cases e with
  | call c =>
    refine ⟨p, ⟨hstay, ?_, hp.nonneg, ?_⟩, le_refl _⟩
    · refine (updateTakeoffState_progress hstay).trans ?_
      rw [if_pos hp.state, hp.progress]
    · rw [elapsed, elapsed, add_zero]
      exact hp.measures
  | ramp dt vz =>
    obtain ⟨x, hx, rfl, rfl⟩ := he
    refine ⟨advance R p x, ⟨hstay, (updateRamp_of_rampup h hp hx).1, advance_nonneg hx hp.nonneg,
      ?_⟩, le_advance hx⟩
    rw [elapsed, elapsed, add_zero]
    exact advance_measures hx hp.measures

theorem Progress.run (h : Ramp R v t) (hp : Progress R T t p) {es : List (Event K)}
    (hes : ∀ e ∈ es, Steady d e)
    (hstay : Always ESOTakeoff.step (fun s e => (ESOTakeoff.step s e).takeoff_state =
      .rampup) t es) :
    ∃ q, Progress R (T + elapsed es) (Trace.run ESOTakeoff.step t es) q ∧ min p 1 ≤ min q 1 := by
  induction es generalizing t p T with
  | nil => exact ⟨p, by rwa [elapsed, add_zero], le_refl _⟩
  | cons e es ih =>
    obtain ⟨he, hes⟩ := List.forall_mem_cons.mp hes
    obtain ⟨q, hq, hpq⟩ := hp.step h he hstay.1
    obtain ⟨q', hq', hqq'⟩ := ih (h.step e) hq hes hstay.2
    rw [elapsed_cons, ← add_assoc]
    exact ⟨q', hq', hpq.trans hqq'⟩

omit [IsStrictOrderedRing K] in
theorem Stay.progress {c : Call} {es : List (Event K)} (h : Stay t c es) :
    Progress R 0 (t.updateTakeoffState c) 0 := by
  refine ⟨h.2.1, ?_, le_refl 0, .inr (zero_mul R)⟩
  rw [updateTakeoffState_progress h.2.1, if_neg h.1]
  rfl

end Limit

/-- What a stay promises of the limit `l` that `updateRamp` returns after it. -/
structure Ascends (R v d dt : K) (t : ESOTakeoff K) (c : Call) (stay : List (Event K)) (l : K) :
    Prop where
  lower : v ≤ l
  upper : l ≤ d
  done : R ≤ elapsed stay + dt → l = d
  mono : ∀ a x b, stay = a ++ .ramp (num x) (num d) :: b →
    ∃ l' ≤ l, ((run step t (.call c :: a)).updateRamp (num x) (num d)).2 = num l'

theorem exists_stay {t : ESOTakeoff K} (ht : t.takeoff_state ≠ .rampup) {es : List (Event K)}
    (h : (run step t es).takeoff_state = .rampup) :
    ∃ pre c stay, es = pre ++ .call c :: stay ∧ Stay (run step t pre) c stay := by
  induction es using List.reverseRecOn with
  | nil => exact absurd h ht
  | append_singleton es e ih =>
    by_cases hold : (run step t es).takeoff_state = .rampup
    · obtain ⟨pre, c, stay, rfl, hne, hstay⟩ := ih hold
      refine ⟨pre, c, stay ++ [e], by simp, hne, ?_⟩
      rw [← List.cons_append, always_append]
      refine ⟨hstay, ?_, trivial⟩
      rw [← run_append]
      rwa [run_append] at h
    · cases e with
      | call c => exact ⟨es, c, [], rfl, hold, by rwa [run_append] at h, trivial⟩
      | ramp dt vz =>
        rw [run_append, run_cons, run_nil, step, updateRamp_takeoff_state] at h
        exact absurd h hold

section Law

variable [IsStrictOrderedRing K] {R v d dt : K} {t : ESOTakeoff K}

theorem Stay.ascends (h : Ramp R v t) (hd : v ≤ d) {c : Call} {stay : List (Event K)}
    (hs : Stay t c stay) (hes : ∀ e ∈ stay, Steady d e) (hdt : 0 < dt) :
    ∃ l, ((run step t (.call c :: stay)).updateRamp (num dt) (num d)).2 = num l ∧
      Ascends R v d dt t c stay l := by
  have hcall := h.step (.call c)
  obtain ⟨q, hq, -⟩ := (hs.progress (R := R)).run hcall hes hs.2.2
  rw [zero_add] at hq
  obtain ⟨-, hl⟩ := updateRamp_of_rampup (d := d) (hcall.run stay) hq hdt
  refine ⟨_, hl, le_limit hd (advance_nonneg hdt hq.nonneg), limit_le hd, fun hR => ?_, ?_⟩
  · exact limit_of_done (one_le_advance hdt hq.measures hR)
  · rintro a x b rfl
    obtain ⟨hsa, hsr, hsb⟩ := (always_append _ _ _).mp hs.2.2
    obtain ⟨hea, her⟩ := List.forall_mem_append.mp hes
    obtain ⟨⟨x', hx, hxx', -⟩, heb⟩ := List.forall_mem_cons.mp her
    obtain rfl : x = x' := by injection hxx'
    -- the limit at the earlier call, and the progress it leaves
    obtain ⟨p, hp, -⟩ := (hs.progress (R := R)).run hcall hea hsa
    obtain ⟨hadvance, hl'⟩ := updateRamp_of_rampup (d := d) (hcall.run a) hp hx
    obtain ⟨p', hp', -⟩ := hp.step (hcall.run a) (e := .ramp (num x) (num d)) ⟨x, hx, rfl, rfl⟩ hsr
    obtain rfl : advance R p x = p' := by
      have heq := hadvance.symm.trans hp'.progress
      injection heq
    obtain ⟨q', hq', hle⟩ := hp'.run ((hcall.run a).step _) heb hsb
    obtain rfl : q = q' := by
      have hend := hq.progress
      rw [run_append, run_cons] at hend
      have heq := hend.symm.trans hq'.progress
      injection heq
    exact ⟨_, limit_mono hd (hle.trans (le_advance hdt)), hl'⟩

/-- The initial value of the ramp for the gain `gain`. -/
def initialValue (gain : K) : K := -CONSTANTS_ONE_G K / max gain 0.01

theorem initialValue_neg (gain : K) : initialValue gain < 0 := by
  have hmin : (0 : K) < 0.01 := by norm_num
  have hg : 0 < CONSTANTS_ONE_G K := by
    unfold CONSTANTS_ONE_G
    norm_num
  exact div_neg_of_neg_of_pos (neg_lt_zero.mpr hg) (lt_max_of_lt_right hmin)

def configured (T : UInt64) (R gain : K) : ESOTakeoff K :=
  (fresh T (num R) 0).generateInitialRampValue (num gain)

theorem configured_ramp (T : UInt64) (R gain : K) :
    Ramp R (initialValue gain) (configured T R gain) := by
  have hmin : (0 : K) < 0.01 := by norm_num
  refine ⟨rfl, ?_⟩
  show -num (CONSTANTS_ONE_G K) / math.max (num gain) (num 0.01) = num (initialValue gain)
  rw [math.max_num, neg_num, num_div_of_ne (lt_max_of_lt_right hmin).ne']
  rfl

/-- **The limit of a take-off.**  Below the ramp it is the initial value, which is negative, and in
flight it is the desired speed.  In the ramp, which is always entered by a call that begins a stay,
it goes up from the initial value to the desired speed, and is there when the ramp time is over. -/
theorem ramp_law (T : UInt64) (R gain d : K) (hd : 0 ≤ d) (es : List (Event K))
    (hes : ∀ e ∈ es, Steady d e) (dt : K) (hdt : 0 < dt) :
    initialValue gain < 0 ∧
    ((run step (configured T R gain) es).takeoff_state < .rampup →
      ((run step (configured T R gain) es).updateRamp (num dt) (num d)).2
        = num (initialValue gain)) ∧
    ((run step (configured T R gain) es).takeoff_state = .flight →
      ((run step (configured T R gain) es).updateRamp (num dt) (num d)).2 = num d) ∧
    ((run step (configured T R gain) es).takeoff_state = .rampup →
      ∃ pre c stay, es = pre ++ .call c :: stay ∧
        Stay (run step (configured T R gain) pre) c stay) ∧
    ∀ pre c stay, es = pre ++ .call c :: stay → Stay (run step (configured T R gain) pre) c stay →
      ∃ l, ((run step (configured T R gain) es).updateRamp (num dt) (num d)).2 = num l ∧
        Ascends R (initialValue gain) d dt (run step (configured T R gain) pre) c stay l := by
  have hneg := initialValue_neg gain
  have hramp := configured_ramp T R gain
  refine ⟨hneg, fun hbelow => ?_, fun hflight => ?_, fun hstate => ?_, ?_⟩
  · rw [updateRamp_snd_of_lt hbelow, (hramp.run es).vz_init]
  · have hnot : ¬ ESOTakeoffState.flight < .rampup := by decide
    have hne : ESOTakeoffState.flight ≠ .rampup := by decide
    simp only [updateRamp, hflight, if_neg hne, if_neg hnot]
  · refine exists_stay ?_ hstate
    show ESOTakeoffState.disarmed ≠ .rampup
    decide
  · rintro pre c stay rfl hstay
    rw [run_append]
    refine hstay.ascends (hramp.run pre) (hneg.le.trans hd) (fun e he => hes e ?_) hdt
    exact List.mem_append_right _ (List.mem_cons_of_mem _ he)

end Law

/-- A take-off with a ramp of two seconds, half a second into it. -/
theorem ramp_law_take_off :
    let es : List (Event ℚ) :=
      [.call ⟨true, true, true, false, 0⟩, .ramp (num (1 / 4)) (num 3), .ramp (num (1 / 4)) (num 3)]
    (run step (configured 0 2 1 : ESOTakeoff ℚ) es).takeoff_state = .rampup ∧
      ∃ pre c stay, es = pre ++ .call c :: stay ∧
        Stay (run step (configured 0 2 1 : ESOTakeoff ℚ) pre) c stay := by
  intro es
  have hquarter : Steady (3 : ℚ) (.ramp (num (1 / 4)) (num 3)) := ⟨1 / 4, by norm_num, rfl, rfl⟩
  have hes : ∀ e ∈ es, Steady 3 e :=
    List.forall_mem_cons.mpr ⟨trivial, List.forall_mem_cons.mpr ⟨hquarter,
      List.forall_mem_singleton.mpr hquarter⟩⟩
  have hstate : (run step (configured 0 2 1 : ESOTakeoff ℚ) es).takeoff_state = .rampup := by
    decide +kernel
  exact ⟨hstate, (ramp_law 0 2 1 3 (by norm_num) es hes 1 one_pos).2.2.2.1 hstate⟩

end ESOTakeoff
