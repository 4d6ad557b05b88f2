/-
Three stages of a detection, each of them a hysteresis that waits for the one before.

The delays are written before every call, and may differ from call to call; none is shorter than
`d`.

* `Ordered.call` — the third stage is not reached without the second one, if the last input is the
  second stage or both inputs are true;
* `Chained.call` — while each stage is the input of the next one, the third is reached at least
  three delays after the first input of a block.
-/
import AerialManipulator.Hysteresis

open Trace

namespace LandDetector

structure Stages where
  ground_contact : Hysteresis
  maybe_landed : Hysteresis
  landed : Hysteresis

structure StageInput where
  now : UInt64
  delay : UInt64
  ground_contact : Bool
  maybe_landed : Bool
  landed : Bool

namespace Stages

def call (s : Stages) (i : StageInput) : Stages where
  ground_contact := s.ground_contact.drive i.delay i.ground_contact i.now
  maybe_landed := s.maybe_landed.drive i.delay i.maybe_landed i.now
  landed := s.landed.drive i.delay i.landed i.now

/-- All stages fall without delay. -/
structure Quick (s : Stages) (now : UInt64) : Prop where
  ground_contact : s.ground_contact.Quick now
  maybe_landed : s.maybe_landed.Quick now
  landed : s.landed.Quick now

variable {s : Stages} {i : StageInput} {before : UInt64}

theorem Quick.call (h : s.Quick before) (hle : before ≤ i.now) : (s.call i).Quick i.now :=
  ⟨h.ground_contact.drive hle, h.maybe_landed.drive hle, h.landed.drive hle⟩

/-- What a true input does to a stage, from `h` to `h'`. -/
def Rises (h h' : Hysteresis) (now delay : UInt64) : Prop :=
  h'.requested_state = true ∧
    h'.last_time_to_change_state =
      (if h.requested_state = true then h.last_time_to_change_state else now) ∧
    (h'.state = true ↔ h.state = true ∨
      h'.last_time_to_change_state.toNat + delay.toNat ≤ now.toNat)

theorem ground_contact_true (h : s.Quick before) (hle : before ≤ i.now)
    (hi : i.ground_contact = true) :
    Rises s.ground_contact (s.call i).ground_contact i.now i.delay :=
  h.ground_contact.drive_true hle hi

theorem maybe_landed_true (h : s.Quick before) (hle : before ≤ i.now) (hi : i.maybe_landed = true) :
    Rises s.maybe_landed (s.call i).maybe_landed i.now i.delay :=
  h.maybe_landed.drive_true hle hi

theorem landed_true (h : s.Quick before) (hle : before ≤ i.now) (hi : i.landed = true) :
    Rises s.landed (s.call i).landed i.now i.delay :=
  h.landed.drive_true hle hi

/-! ### Order -/

/-- The third stage has the second one, and is requested no earlier. -/
structure Ordered (s : Stages) : Prop where
  state : s.landed.state = true → s.maybe_landed.state = true
  requested : s.landed.requested_state = true → s.maybe_landed.requested_state = true ∧
    (s.maybe_landed.state = true ∨ s.maybe_landed.last_time_to_change_state.toNat ≤
      s.landed.last_time_to_change_state.toNat)

/-- The third stage waits for the second one, or both are asked for. -/
def Waits (s : Stages) (i : StageInput) : Prop :=
  i.landed = (s.call i).maybe_landed.state ∨ i.maybe_landed = true ∧ i.landed = true

theorem Ordered.call (h : s.Ordered) (hq : s.Quick before) (hle : before ≤ i.now)
    (hwaits : s.Waits i) : (s.call i).Ordered := by
  have hquick := hq.call hle
  rcases hwaits with hinput | ⟨hmaybe, hlanded⟩
  · cases hstate : (s.call i).maybe_landed.state with
    | false =>
      -- a stage whose input is false is false, and not requested
      obtain ⟨hfalse, hreq⟩ : (s.call i).landed.state = false ∧
        (s.call i).landed.requested_state = false := hq.landed.drive_false (hinput.trans hstate)
      exact ⟨fun h' => absurd (hfalse.symm.trans h') Bool.false_ne_true,
        fun h' => absurd (hreq.symm.trans h') Bool.false_ne_true⟩
    | true => exact ⟨fun _ => hstate, fun _ => ⟨hquick.maybe_landed.requested hstate, .inl hstate⟩⟩
  · obtain ⟨hreq, hlast, hstate⟩ := maybe_landed_true hq hle hmaybe
    obtain ⟨hreq', hlast', hstate'⟩ := landed_true hq hle hlanded
    have hpast := UInt64.le_iff_toNat_le.mp (hquick.maybe_landed.past hreq)
    -- the request for the second stage is not younger
    have hyoung : (s.call i).maybe_landed.state = true ∨
        (s.call i).maybe_landed.last_time_to_change_state.toNat ≤
          (s.call i).landed.last_time_to_change_state.toNat := by
      by_cases hld_req : s.landed.requested_state = true
      · obtain ⟨hml_req, hml_state | hle'⟩ := h.requested hld_req
        · exact .inl (hstate.mpr (.inl hml_state))
        · rw [if_pos hml_req] at hlast
          rw [if_pos hld_req] at hlast'
          rw [hlast, hlast']
          exact .inr hle'
      · rw [if_neg hld_req] at hlast'
        rw [hlast']
        exact .inr hpast
    refine ⟨fun h' => ?_, fun _ => ⟨hreq, hyoung⟩⟩
    rcases hstate'.mp h' with hld_state | hdelay
    · exact hstate.mpr (.inl (h.state hld_state))
    · rcases hyoung with hml_state | hle'
      · exact hml_state
      · exact hstate.mpr (.inr (by omega))

/-! ### Time -/

section Chain

variable {ε : Type*} (d : ℕ) (P : ε → Prop) (time : ε → UInt64)

/-- The first stage has been asked for in a block of events; and each of the next ones, once the
first has been reached, was asked for when the one before had been waited for. -/
structure Chained (es : List ε) (s : Stages) (now : UInt64) : Prop where
  block : s.ground_contact.requested_state = true → ∃ first last, EndsInBlock P es first last ∧
    s.ground_contact.last_time_to_change_state = time first
  early : s.ground_contact.state = false → s.ground_contact.requested_state = true →
    s.maybe_landed.requested_state = false ∧ s.landed.requested_state = false
  contact : s.ground_contact.state = true →
    s.ground_contact.last_time_to_change_state.toNat + d ≤ now.toNat
  maybe : s.ground_contact.state = true → s.maybe_landed.requested_state = true →
    s.ground_contact.last_time_to_change_state.toNat + d ≤
      s.maybe_landed.last_time_to_change_state.toNat
  maybe_time : s.ground_contact.state = true → s.maybe_landed.state = true →
    s.maybe_landed.last_time_to_change_state.toNat + d ≤ now.toNat
  landed : s.ground_contact.state = true → s.landed.requested_state = true →
    s.maybe_landed.state = true ∧ s.maybe_landed.last_time_to_change_state.toNat + d ≤
      s.landed.last_time_to_change_state.toNat
  landed_time : s.ground_contact.state = true → s.landed.state = true →
    s.landed.last_time_to_change_state.toNat + d ≤ now.toNat

/-- Each stage is the input of the next one, and the event says whether the first is asked for. -/
structure Feeds (s : Stages) (i : StageInput) (e : ε) : Prop where
  time : time e = i.now
  quiet : i.ground_contact = true → P e
  maybe : i.maybe_landed = true → (s.call i).ground_contact.state = true
  landed : i.landed = (s.call i).maybe_landed.state
  delay : d ≤ i.delay.toNat

variable {d P time} {es : List ε} {e : ε}

theorem chained_of_not_requested {now : UInt64} (h : s.Quick now)
    (hreq : s.ground_contact.requested_state = false) : Chained d P time es s now := by
  have hstate : ¬ s.ground_contact.state = true := fun h' =>
    absurd (hreq.symm.trans (h.ground_contact.requested h')) Bool.false_ne_true
  have hreq' : ¬ s.ground_contact.requested_state = true := Bool.not_eq_true _ ▸ hreq
  exact ⟨fun h' => absurd h' hreq', fun _ h' => absurd h' hreq', fun h' => absurd h' hstate,
    fun h' => absurd h' hstate, fun h' => absurd h' hstate, fun h' => absurd h' hstate,
    fun h' => absurd h' hstate⟩

section Call

variable (h : Chained d P time es s before) (hd : 0 < d) (hq : s.Quick before)
  (hle : before ≤ i.now) (hf : Feeds d P time s i e)

include h hq hle

theorem Chained.contact_call (hdelay : d ≤ i.delay.toNat)
    (hcontact : i.ground_contact = true) (hstate : (s.call i).ground_contact.state = true) :
    (s.call i).ground_contact.last_time_to_change_state.toNat + d ≤ i.now.toNat := by
  obtain ⟨-, hlast, hiff⟩ := ground_contact_true hq hle hcontact
  rcases hiff.mp hstate with hold | hwaited
  · rw [if_pos (hq.ground_contact.requested hold)] at hlast
    rw [hlast]
    exact Nat.le_trans (h.contact hold) (UInt64.le_iff_toNat_le.mp hle)
  · omega

include hd

/-- In the cycle in which the first stage is reached, the others had not been asked for. -/
theorem Chained.fresh (hdelay : d ≤ i.delay.toNat) (hcontact : i.ground_contact = true)
    (hstate : (s.call i).ground_contact.state = true) (hold : s.ground_contact.state = false) :
    s.maybe_landed.requested_state = false ∧ s.landed.requested_state = false := by
  obtain ⟨-, hlast, hiff⟩ := ground_contact_true hq hle hcontact
  refine h.early hold ?_
  by_contra hreq
  rw [if_neg hreq] at hlast
  rcases hiff.mp hstate with hstate' | hwaited
  · exact absurd (hold.symm.trans hstate') Bool.false_ne_true
  · rw [hlast] at hwaited
    omega

include hf

theorem Chained.maybe_call (hcontact : i.ground_contact = true)
    (hstate : (s.call i).ground_contact.state = true) (hmaybe : i.maybe_landed = true) :
    (s.call i).ground_contact.last_time_to_change_state.toNat + d ≤
        (s.call i).maybe_landed.last_time_to_change_state.toNat ∧
      ((s.call i).maybe_landed.state = true →
        (s.call i).maybe_landed.last_time_to_change_state.toNat + d ≤ i.now.toNat) := by
  have hle' := UInt64.le_iff_toNat_le.mp hle
  have hdelay := hf.delay
  obtain ⟨-, hlast, -⟩ := ground_contact_true hq hle hcontact
  obtain ⟨-, hlast', hiff'⟩ := maybe_landed_true hq hle hmaybe
  have hcontact' := h.contact_call hq hle hdelay hcontact hstate
  cases hold : s.ground_contact.state with
  | false =>
    obtain ⟨hreq, -⟩ := h.fresh hd hq hle hdelay hcontact hstate hold
    have hreq' : ¬ s.maybe_landed.requested_state = true := Bool.not_eq_true _ ▸ hreq
    rw [if_neg hreq'] at hlast'
    refine ⟨hlast'.symm ▸ hcontact', fun hstate' => ?_⟩
    rcases hiff'.mp hstate' with hold' | hwaited
    · exact absurd (hq.maybe_landed.requested hold') hreq'
    · omega
  | true =>
    have hcontact₀ := h.contact hold
    rw [if_pos (hq.ground_contact.requested hold)] at hlast
    rw [hlast]
    by_cases hreq : s.maybe_landed.requested_state = true
    · rw [if_pos hreq] at hlast'
      rw [hlast'] at hiff' ⊢
      refine ⟨h.maybe hold hreq, fun hstate' => ?_⟩
      rcases hiff'.mp hstate' with hold' | hwaited
      · exact Nat.le_trans (h.maybe_time hold hold') hle'
      · omega
    · rw [if_neg hreq] at hlast'
      rw [hlast'] at hiff' ⊢
      refine ⟨by omega, fun hstate' => ?_⟩
      rcases hiff'.mp hstate' with hold' | hwaited
      · exact absurd (hq.maybe_landed.requested hold') hreq
      · omega

theorem Chained.landed_call (hcontact : i.ground_contact = true)
    (hstate : (s.call i).ground_contact.state = true) (hmaybe : i.maybe_landed = true)
    (hlanded : i.landed = true) :
    (s.call i).maybe_landed.last_time_to_change_state.toNat + d ≤
        (s.call i).landed.last_time_to_change_state.toNat ∧
      ((s.call i).landed.state = true →
        (s.call i).landed.last_time_to_change_state.toNat + d ≤ i.now.toNat) := by
  have hle' := UInt64.le_iff_toNat_le.mp hle
  have hdelay := hf.delay
  obtain ⟨-, hlast, -⟩ := maybe_landed_true hq hle hmaybe
  obtain ⟨-, hlast', hiff'⟩ := landed_true hq hle hlanded
  have hmaybe' := (h.maybe_call hd hq hle hf hcontact hstate hmaybe).2 (hf.landed ▸ hlanded)
  by_cases hreq : s.landed.requested_state = true
  · rw [if_pos hreq] at hlast'
    have hold : s.ground_contact.state = true := by
      by_contra hold
      obtain ⟨-, hreq'⟩ := h.fresh hd hq hle hdelay hcontact hstate (Bool.not_eq_true _ ▸ hold)
      exact absurd (hreq'.symm.trans hreq) Bool.false_ne_true
    obtain ⟨hold', hwaited'⟩ := h.landed hold hreq
    rw [if_pos (hq.maybe_landed.requested hold')] at hlast
    rw [hlast'] at hiff' ⊢
    rw [hlast]
    refine ⟨hwaited', fun hstate' => ?_⟩
    rcases hiff'.mp hstate' with hold'' | hwaited
    · exact Nat.le_trans (h.landed_time hold hold'') hle'
    · omega
  · rw [if_neg hreq] at hlast'
    refine ⟨hlast'.symm ▸ hmaybe', fun hstate' => ?_⟩
    rcases hiff'.mp hstate' with hold'' | hwaited
    · exact absurd (hq.landed.requested hold'') hreq
    · omega

theorem Chained.call : Chained d P time (es ++ [e]) (s.call i) i.now := by
  have hquick := hq.call hle
  cases hcontact : i.ground_contact with
  | false => exact chained_of_not_requested hquick (hq.ground_contact.drive_false hcontact).2
  | true =>
    obtain ⟨-, hlast, -⟩ := ground_contact_true hq hle hcontact
    have hmaybe : ∀ {b : Bool}, (s.call i).maybe_landed.requested_state = true →
        i.maybe_landed = b → b = true := by
      rintro (_ | _) hreq hb
      · exact absurd ((hq.maybe_landed.drive_false hb).2.symm.trans hreq) Bool.false_ne_true
      · rfl
    have hlanded : ∀ {b : Bool}, (s.call i).landed.requested_state = true →
        i.landed = b → b = true := by
      rintro (_ | _) hreq hb
      · exact absurd ((hq.landed.drive_false hb).2.symm.trans hreq) Bool.false_ne_true
      · rfl
    have hchain := @Chained.maybe_call _ _ _ _ _ _ _ _ _ h hd hq hle hf hcontact
    have hchain' := @Chained.landed_call _ _ _ _ _ _ _ _ _ h hd hq hle hf hcontact
    refine ⟨fun _ => ?_, fun hstate _ => ?_, h.contact_call hq hle hf.delay hcontact,
      fun hstate hreq => ?_, fun hstate hstate' => ?_, fun hstate hreq => ?_,
      fun hstate hstate' => ?_⟩
    · by_cases hreq : s.ground_contact.requested_state = true
      · rw [if_pos hreq] at hlast
        obtain ⟨first, last, hblock, htime⟩ := h.block hreq
        exact ⟨first, e, hblock.snoc (hf.quiet hcontact), hlast.trans htime⟩
      · rw [if_neg hreq] at hlast
        exact ⟨e, e, endsInBlock_single (hf.quiet hcontact) es, hlast.trans hf.time.symm⟩
    · -- the later stages wait for the first one
      have hmaybe' : i.maybe_landed = false := by
        by_contra hmaybe'
        have hstate' := hf.maybe (Bool.not_eq_false _ ▸ hmaybe')
        exact absurd (hstate.symm.trans hstate') Bool.false_ne_true
      obtain ⟨hfalse, hreq⟩ : (s.call i).maybe_landed.state = false ∧
        (s.call i).maybe_landed.requested_state = false := hq.maybe_landed.drive_false hmaybe'
      exact ⟨hreq, (hq.landed.drive_false (hf.landed.trans hfalse)).2⟩
    · exact (hchain hstate (hmaybe hreq rfl)).1
    · exact (hchain hstate (hmaybe (hquick.maybe_landed.requested hstate') rfl)).2 hstate'
    · have hinput : i.landed = true := hlanded hreq rfl
      have hstate' : (s.call i).maybe_landed.state = true := hf.landed ▸ hinput
      have hinput' := hmaybe (hquick.maybe_landed.requested hstate') rfl
      exact ⟨hstate', (hchain' hstate hinput' hinput).1⟩
    · have hinput : i.landed = true := hlanded (hquick.landed.requested hstate') rfl
      have hmaybe' : (s.call i).maybe_landed.state = true := hf.landed ▸ hinput
      have hinput' := hmaybe (hquick.maybe_landed.requested hmaybe') rfl
      exact (hchain' hstate hinput' hinput).2 hstate'

end Call

theorem Chained.span {now : UInt64} (h : Chained d P time es s now) (hq : s.Quick now)
    (hcontact : s.ground_contact.state = true) (hlanded : s.landed.state = true) :
    ∃ first last, EndsInBlock P es first last ∧ 3 * d ≤ now.toNat - (time first).toNat := by
  obtain ⟨first, last, hblock, hlast⟩ := h.block (hq.ground_contact.requested hcontact)
  obtain ⟨hmaybe, hlanded'⟩ := h.landed hcontact (hq.landed.requested hlanded)
  have hmaybe' := h.maybe hcontact (hq.maybe_landed.requested hmaybe)
  have htime := h.landed_time hcontact hlanded
  refine ⟨first, last, hblock, ?_⟩
  rw [← hlast]
  omega

end Chain

end Stages

end LandDetector
