/-
`systemlib::Hysteresis`: a Boolean that follows its input after a delay.

The times are `hrt_abstime` microsecond counters.  `Follows` is what the users
of the class rely on: fed with non-decreasing times and falling without delay,
the state is true only if the input has been true in every call over a span of
at least the rising delay that ends with the last call.  `Follows.snoc` says
that every call keeps it.

With both delays, **`request_law`** says when a call changes the state, by the calls
before it alone; `Waits` is what the fields of the class remember of them.
-/
import AerialManipulator.Lib.Trace
import Mathlib.Data.List.Induction

open Trace

/-- The hysteresis times are for leaving `true` and for leaving `false`. -/
structure Hysteresis where
  last_time_to_change_state : UInt64
  time_from_true_us : UInt64
  time_from_false_us : UInt64
  state : Bool
  requested_state : Bool
  deriving DecidableEq, Repr

namespace Hysteresis

def init (init_state : Bool) : Hysteresis := ⟨0, 0, 0, init_state, init_state⟩

def setHysteresisTimeFrom (h : Hysteresis) (from_state : Bool) (new_hysteresis_time_us : UInt64) :
    Hysteresis :=
  if from_state then { h with time_from_true_us := new_hysteresis_time_us }
  else { h with time_from_false_us := new_hysteresis_time_us }

def update (h : Hysteresis) (now_us : UInt64) : Hysteresis :=
  if h.requested_state != h.state then
    let elapsed := now_us - h.last_time_to_change_state
    if h.state && !h.requested_state then
      if h.time_from_true_us ≤ elapsed then { h with state := false } else h
    else if !h.state && h.requested_state then
      if h.time_from_false_us ≤ elapsed then { h with state := true } else h
    else h
  else h

def setStateAndUpdate (h : Hysteresis) (new_state : Bool) (now_us : UInt64) : Hysteresis :=
  let h :=
    if new_state != h.state then
      if new_state != h.requested_state then
        { h with requested_state := new_state, last_time_to_change_state := now_us }
      else h
    else { h with requested_state := h.state }
  h.update now_us

/-! ### One call -/

variable {h : Hysteresis} {now : UInt64}

@[simp] theorem setStateAndUpdate_time_from_true (b : Bool) :
    (h.setStateAndUpdate b now).time_from_true_us = h.time_from_true_us := by
  simp only [setStateAndUpdate, update]
  split_ifs <;> rfl

@[simp] theorem setStateAndUpdate_time_from_false (b : Bool) :
    (h.setStateAndUpdate b now).time_from_false_us = h.time_from_false_us := by
  simp only [setStateAndUpdate, update]
  split_ifs <;> rfl

theorem setStateAndUpdate_false (now : UInt64) (hT : h.time_from_true_us = 0)
    (hreq : h.state = true → h.requested_state = true) :
    (h.setStateAndUpdate false now).state = false ∧
      (h.setStateAndUpdate false now).requested_state = false := by
  cases hs : h.state with
  | false => simp [setStateAndUpdate, update, hs]
  | true => simp [setStateAndUpdate, update, hs, hreq hs, hT]

/-- A true input is requested; the request dates from the first true input in
a row, and the state is true once it is old enough. -/
theorem setStateAndUpdate_true (now : UInt64)
    (hreq : h.state = true → h.requested_state = true) :
    (h.setStateAndUpdate true now).requested_state = true ∧
      (h.setStateAndUpdate true now).last_time_to_change_state
        = (if h.requested_state then h.last_time_to_change_state else now) ∧
      (h.setStateAndUpdate true now).state
        = (h.state || decide (h.time_from_false_us
          ≤ now - (if h.requested_state then h.last_time_to_change_state else now))) := by
  cases hs : h.state with
  | false =>
    cases hr : h.requested_state <;> simp only [setStateAndUpdate, update, hs, hr] <;>
      simp <;> split_ifs <;> simp_all
  | true => simp [setStateAndUpdate, update, hs, hreq hs]

theorem setStateAndUpdate_of_state {b : Bool} (hs : h.state = b) :
    (h.setStateAndUpdate b now).state = b := by
  simp [setStateAndUpdate, update, hs]

/-! ### Falling without delay -/

def drive (h : Hysteresis) (delay : UInt64) (b : Bool) (now : UInt64) : Hysteresis :=
  (h.setHysteresisTimeFrom false delay).setStateAndUpdate b now

/-- What every call keeps when there is no falling delay; the last one was at `now`. -/
structure Quick (h : Hysteresis) (now : UInt64) : Prop where
  from_true : h.time_from_true_us = 0
  requested : h.state = true → h.requested_state = true
  past : h.requested_state = true → h.last_time_to_change_state ≤ now

section Quick

variable {before delay : UInt64} {b : Bool} (hq : h.Quick before)

include hq

theorem Quick.drive_false (hb : b = false) :
    (h.drive delay b now).state = false ∧ (h.drive delay b now).requested_state = false := by
  subst hb
  exact @setStateAndUpdate_false (h.setHysteresisTimeFrom false delay) now hq.from_true hq.requested

theorem Quick.drive_true (hle : before ≤ now) (hb : b = true) :
    (h.drive delay b now).requested_state = true ∧
      (h.drive delay b now).last_time_to_change_state =
        (if h.requested_state = true then h.last_time_to_change_state else now) ∧
      ((h.drive delay b now).state = true ↔ h.state = true ∨
        (h.drive delay b now).last_time_to_change_state.toNat + delay.toNat ≤ now.toNat) := by
  subst hb
  obtain ⟨hreq, hlast, hstate⟩ :=
    @setStateAndUpdate_true (h.setHysteresisTimeFrom false delay) now hq.requested
  refine ⟨hreq, hlast, ?_⟩
  have hpast : (h.drive delay true now).last_time_to_change_state ≤ now := by
    unfold drive
    rw [hlast]
    split
    next h' => exact UInt64.le_trans (hq.past h') hle
    next => exact UInt64.le_refl now
  unfold drive at hpast ⊢
  rw [hlast] at hpast ⊢
  rw [hstate, Bool.or_eq_true, decide_eq_true_eq, UInt64.le_iff_toNat_le,
    UInt64.toNat_sub_of_le _ _ hpast]
  have hle' := UInt64.le_iff_toNat_le.mp hpast
  change h.state = true ∨ delay.toNat ≤ _ ↔ _
  refine or_congr_right ?_
  omega

theorem Quick.drive (hle : before ≤ now) : (h.drive delay b now).Quick now := by
  have htrue : (h.drive delay b now).time_from_true_us = 0 := by
    unfold Hysteresis.drive
    rw [setStateAndUpdate_time_from_true]
    exact hq.from_true
  cases b with
  | false =>
    obtain ⟨hstate, hreq⟩ := @drive_false _ now _ delay _ hq rfl
    exact ⟨htrue, fun h' => absurd (hstate.symm.trans h') Bool.false_ne_true,
      fun h' => absurd (hreq.symm.trans h') Bool.false_ne_true⟩
  | true =>
    obtain ⟨hreq, hlast, -⟩ := @drive_true _ now _ delay _ hq hle rfl
    refine ⟨htrue, fun _ => hreq, fun _ => ?_⟩
    rw [hlast]
    split
    next h' => exact UInt64.le_trans (hq.past h') hle
    next => exact UInt64.le_refl now

end Quick

/-! ### Whole histories -/

theorem span_mono {T first last now : UInt64} (h1 : first ≤ last) (h2 : last ≤ now)
    (h : T ≤ last - first) : T ≤ now - first := by
  rw [UInt64.le_iff_toNat_le] at *
  rw [UInt64.toNat_sub_of_le _ _ (UInt64.le_iff_toNat_le.mpr h1)] at h
  rw [UInt64.toNat_sub_of_le _ _ (UInt64.le_iff_toNat_le.mpr (Nat.le_trans h1 h2))]
  omega

section History

variable {ε : Type*} (input : ε → Bool) (time : ε → UInt64)

/-- What the history `es` of calls says about the hysteresis `h` with rising
delay `T`. -/
structure Follows (T : UInt64) (es : List ε) (h : Hysteresis) : Prop where
  from_true : h.time_from_true_us = 0
  from_false : h.time_from_false_us = T
  requested : h.state = true → h.requested_state = true
  held : h.requested_state = true → ∃ first last, EndsInBlock (input · = true) es first last ∧
    h.last_time_to_change_state = time first ∧ (h.state = true → T ≤ time last - time first)

variable {input time} {T : UInt64} {es : List ε} {e : ε}

theorem Follows.snoc (hf : Follows input time T es h) (e : ε)
    (hmono : (es ++ [e]).Pairwise (time · ≤ time ·)) :
    Follows input time T (es ++ [e]) (h.setStateAndUpdate (input e) (time e)) := by
  cases he : input e with
  | false =>
    obtain ⟨hs, hr⟩ := setStateAndUpdate_false (time e) hf.from_true hf.requested
    exact ⟨by simp [hf.from_true], by simp [hf.from_false], by simp [hs], by simp [hr]⟩
  | true =>
    obtain ⟨hr, hlast, hs⟩ := setStateAndUpdate_true (time e) hf.requested
    refine ⟨by simp [hf.from_true], by simp [hf.from_false], fun _ => hr, fun _ => ?_⟩
    rw [hlast, hs, hf.from_false]
    cases hreq : h.requested_state with
    | false =>
      -- the block starts with this call
      have hst : h.state = false := by
        by_contra hc
        rw [hf.requested (by simpa using hc)] at hreq
        exact nomatch hreq
      exact ⟨e, e, endsInBlock_single (P := (input · = true)) he es, by simp, by simp [hst]⟩
    | true =>
      obtain ⟨first, last, hb, hl, hspan⟩ := hf.held hreq
      refine ⟨first, e, hb.snoc he, by simpa using hl, fun h' => ?_⟩
      rw [hl, if_pos rfl, Bool.or_eq_true, decide_eq_true_eq] at h'
      refine h'.elim (fun hst => ?_) id
      obtain ⟨hle, hle'⟩ := hb.ordered (fun x => UInt64.le_refl (time x)) hmono
      exact span_mono hle hle' (hspan hst)

theorem Follows.skip (hf : Follows input time T es h) (he : input e = true)
    (hmono : (es ++ [e]).Pairwise (time · ≤ time ·)) : Follows input time T (es ++ [e]) h := by
  refine ⟨hf.from_true, hf.from_false, hf.requested, fun hreq => ?_⟩
  obtain ⟨first, last, hb, hl, hspan⟩ := hf.held hreq
  obtain ⟨hle, hle'⟩ := hb.ordered (fun x => UInt64.le_refl (time x)) hmono
  exact ⟨first, e, hb.snoc he, hl, fun hst => span_mono hle hle' (hspan hst)⟩

theorem Follows.reset (hf : Follows input time T es h) (e : ε) :
    Follows input time T (es ++ [e]) (h.setStateAndUpdate false (time e)) := by
  obtain ⟨hs, hr⟩ := setStateAndUpdate_false (time e) hf.from_true hf.requested
  exact ⟨by simp [hf.from_true], by simp [hf.from_false], by simp [hs], by simp [hr]⟩

theorem Follows.span (hf : Follows input time T (es ++ [e]) h) (hstate : h.state = true) :
    ∃ first, EndsInBlock (input · = true) (es ++ [e]) first e ∧ T ≤ time e - time first := by
  obtain ⟨first, last, hb, -, hspan⟩ := hf.held (hf.requested hstate)
  obtain rfl := hb.last_eq
  exact ⟨first, hb, hspan hstate⟩

end History

/-! ### Delays both ways -/

/-- The delay of leaving `from_state`. -/
def delay (h : Hysteresis) (from_state : Bool) : UInt64 :=
  if from_state then h.time_from_true_us else h.time_from_false_us

def configured (init_state : Bool) (time_from_true_us time_from_false_us : UInt64) : Hysteresis :=
  ((init init_state).setHysteresisTimeFrom true time_from_true_us).setHysteresisTimeFrom false
    time_from_false_us

def request (h : Hysteresis) (c : Bool × UInt64) : Hysteresis := h.setStateAndUpdate c.1 c.2

/-- Since when the opposite state has been requested, if it is at `now`. -/
def since (h : Hysteresis) (now : UInt64) : UInt64 :=
  if h.requested_state = h.state then now else h.last_time_to_change_state

section Requests

variable {cs : List (Bool × UInt64)} {c : Bool × UInt64}

theorem request_same (hc : c.1 = h.state) : h.request c =
    { h with requested_state := h.state } := by
  simp [request, setStateAndUpdate, update, hc]

theorem request_other (hc : c.1 = !h.state) : h.request c =
    { h with
      last_time_to_change_state := h.since c.2
      requested_state := !h.state
      state := if h.delay h.state ≤ c.2 - h.since c.2 then !h.state else h.state } := by
  obtain ⟨last, from_true, from_false, state, requested⟩ := h
  cases state <;> cases requested <;>
    simp only [request, setStateAndUpdate, update, delay, since, hc] <;> simp <;>
    split_ifs <;> simp_all

theorem request_delay (b : Bool) : (h.request c).delay b = h.delay b := by
  unfold delay request
  rw [setStateAndUpdate_time_from_true, setStateAndUpdate_time_from_false]

/-- What the calls say about the hysteresis: the opposite state has been requested since the start
of the longest block of requests for it. -/
structure Waits (cs : List (Bool × UInt64)) (h : Hysteresis) : Prop where
  idle : h.requested_state = h.state → ∀ first last, ¬ EndsInBlock (·.1 = !h.state) cs first last
  waiting : h.requested_state ≠ h.state →
    (∃ first last, EndsInBlock (·.1 = !h.state) cs first last ∧
      first.2 = h.last_time_to_change_state) ∧
    ∀ first last, EndsInBlock (·.1 = !h.state) cs first last → h.last_time_to_change_state ≤ first.2

/-- With one more request for the opposite state the longest block starts at `since`. -/
theorem Waits.since_first (hw : Waits cs h) (hc : c.1 = !h.state) : ∃ first, EndsInBlock
    (·.1 = !h.state) (cs ++ [c]) first c ∧
    first.2 = h.since c.2 := by
  unfold since
  by_cases hidle : h.requested_state = h.state
  · rw [if_pos hidle]
    exact ⟨c, endsInBlock_single (P := (·.1 = !h.state)) hc cs, rfl⟩
  · rw [if_neg hidle]
    obtain ⟨⟨first, last, hblock, hfirst⟩, -⟩ := hw.waiting hidle
    exact ⟨first, hblock.snoc hc, hfirst⟩

variable (hw : Waits cs h) (hmono : (cs ++ [c]).Pairwise (·.2 ≤ ·.2))

include hmono

theorem first_le {P : Bool × UInt64 → Prop} {first : Bool × UInt64}
    (hblock : EndsInBlock P (cs ++ [c]) first c) : first.2 ≤ c.2 := by
  rcases List.mem_append.mp hblock.last_mem.1 with hin | hlast
  · exact (List.pairwise_append.mp hmono).2.2 first hin c (List.mem_singleton_self c)
  · rw [List.mem_singleton.mp hlast]
    exact UInt64.le_refl _

include hw

theorem Waits.since_le {first last : Bool × UInt64}
    (hblock : EndsInBlock (·.1 = !h.state) (cs ++ [c]) first last) : h.since c.2 ≤ first.2 := by
  unfold since
  obtain ⟨-, rfl | ⟨last', hold⟩⟩ := hblock.of_snoc
  · by_cases hidle : h.requested_state = h.state
    · rw [if_pos hidle]
      exact UInt64.le_refl _
    · obtain ⟨⟨start, last', hblock', hstart⟩, -⟩ := hw.waiting hidle
      rw [if_neg hidle, ← hstart]
      exact (List.pairwise_append.mp hmono).2.2 start hblock'.last_mem.1 first
        (List.mem_singleton_self first)
  · by_cases hidle : h.requested_state = h.state
    · exact absurd hold (hw.idle hidle first last')
    · rw [if_neg hidle]
      exact (hw.waiting hidle).2 first last' hold

theorem Waits.old_iff (hc : c.1 = !h.state) : h.delay h.state ≤ c.2 - h.since c.2 ↔
    ∃ first, EndsInBlock (·.1 = !h.state) (cs ++ [c]) first c ∧
      first.2.toNat + (h.delay h.state).toNat ≤ c.2.toNat := by
  obtain ⟨start, hblock, hstart⟩ := hw.since_first hc
  have hle := first_le hmono hblock
  rw [← hstart, UInt64.le_iff_toNat_le, UInt64.toNat_sub_of_le _ _ hle]
  rw [UInt64.le_iff_toNat_le] at hle
  constructor
  · intro hdelay
    exact ⟨start, hblock, by omega⟩
  · rintro ⟨first, hblock', hdelay⟩
    have hfirst := hw.since_le hmono hblock'
    rw [← hstart, UInt64.le_iff_toNat_le] at hfirst
    omega

theorem Waits.snoc : Waits (cs ++ [c]) (h.request c) := by
  by_cases hc : c.1 = h.state
  · -- the request returns to the current state
    rw [request_same hc]
    refine ⟨fun _ first last hblock => ?_, fun hne => absurd rfl hne⟩
    obtain ⟨hopposite, -⟩ := hblock.of_snoc
    rw [hc] at hopposite
    exact (Bool.eq_not_self _).mp hopposite
  · have hopp : c.1 = !h.state := Bool.eq_not.mpr hc
    rw [request_other hopp]
    by_cases hold : h.delay h.state ≤ c.2 - h.since c.2
    · rw [if_pos hold]
      refine ⟨fun _ first last hblock => ?_, fun hne => absurd rfl hne⟩
      obtain ⟨hopposite, -⟩ := hblock.of_snoc
      rw [hopp] at hopposite
      exact (Bool.eq_not_self _).mp hopposite
    · rw [if_neg hold]
      refine ⟨fun heq => ((Bool.not_eq_self _).mp heq).elim, fun _ => ⟨?_, fun first last => ?_⟩⟩
      · obtain ⟨first, hblock, hfirst⟩ := hw.since_first hopp
        exact ⟨first, c, hblock, hfirst⟩
      · exact hw.since_le hmono

end Requests

theorem configured_waits (b : Bool) (from_true from_false : UInt64) :
    Waits [] (configured b from_true from_false) := by
  refine ⟨fun _ first last hblock => ?_, fun hne => absurd rfl hne⟩
  exact nomatch hblock.last_mem.1

theorem run_waits (b : Bool) (from_true from_false : UInt64) (cs : List (Bool × UInt64))
    (hmono : cs.Pairwise (·.2 ≤ ·.2)) :
    Waits cs (run request (configured b from_true from_false) cs) ∧
      ∀ s, (run request (configured b from_true from_false) cs).delay s =
        if s then from_true else from_false := by
  induction cs using List.reverseRecOn with
  | nil => exact ⟨configured_waits b from_true from_false, fun s => rfl⟩
  | append_singleton cs c ih =>
    obtain ⟨hw, hdelay⟩ := ih (List.pairwise_append.mp hmono).1
    rw [run_append, run_cons, run_nil]
    exact ⟨hw.snoc hmono, fun s => (request_delay s).trans (hdelay s)⟩

/-- The state after the calls `cs`. -/
def stateAfter (b : Bool) (from_true from_false : UInt64) (cs : List (Bool × UInt64)) : Bool :=
  (run request (configured b from_true from_false) cs).state

/-- The state `s` has not been requested since a call that is a delay before the call `c`. -/
def Overdue (s : Bool) (delay : UInt64) (cs : List (Bool × UInt64)) (c : Bool × UInt64) : Prop :=
  ∃ first, EndsInBlock (·.1 = !s) cs first c ∧ first.2.toNat + delay.toNat ≤ c.2.toNat

theorem state_changes_iff (b : Bool) (from_true from_false : UInt64) (cs : List (Bool × UInt64))
    (c : Bool × UInt64) (hmono : (cs ++ [c]).Pairwise (·.2 ≤ ·.2)) :
    stateAfter b from_true from_false (cs ++ [c]) ≠ stateAfter b from_true from_false cs ↔
      Overdue (stateAfter b from_true from_false cs)
        (if stateAfter b from_true from_false cs then from_true else from_false) (cs ++ [c]) c := by
  obtain ⟨hw, hdelay⟩ := run_waits b from_true from_false cs (List.pairwise_append.mp hmono).1
  unfold stateAfter Overdue
  rw [run_append, run_cons, run_nil, ← hdelay]
  by_cases hc : c.1 = (run request (configured b from_true from_false) cs).state
  · rw [request_same hc]
    refine ⟨fun hne => absurd rfl hne, fun ⟨first, hblock, _⟩ => ?_⟩
    have hopposite := hblock.of_snoc.1
    rw [hc] at hopposite
    exact ((Bool.eq_not_self _).mp hopposite).elim
  · have hopp := Bool.eq_not.mpr hc
    rw [← hw.old_iff hmono hopp, request_other hopp]
    dsimp only
    split_ifs with hold
    · exact ⟨fun _ => hold, fun _ heq => (Bool.not_eq_self _).mp heq⟩
    · exact ⟨fun hne => absurd rfl hne, fun hold' => absurd hold' hold⟩

/-- **The law of the hysteresis.**  A call changes the state if the opposite one has been requested
in every call over a span of at least the delay of leaving it, and not otherwise.  Calls up to a
contrary request do not count. -/
theorem request_law (b : Bool) (from_true from_false : UInt64) (cs : List (Bool × UInt64))
    (c : Bool × UInt64) (hmono : (cs ++ [c]).Pairwise (·.2 ≤ ·.2)) :
    (stateAfter b from_true from_false (cs ++ [c]) ≠ stateAfter b from_true from_false cs ↔
      Overdue (stateAfter b from_true from_false cs)
        (if stateAfter b from_true from_false cs then from_true else from_false) (cs ++ [c]) c) ∧
    ∀ pre contrary post, cs ++ [c] = pre ++ contrary :: post →
      contrary.1 = stateAfter b from_true from_false cs →
      (stateAfter b from_true from_false (cs ++ [c]) ≠ stateAfter b from_true from_false cs ↔
        Overdue (stateAfter b from_true from_false cs)
          (if stateAfter b from_true from_false cs then from_true else from_false) post c) := by
  have hiff := state_changes_iff b from_true from_false cs c hmono
  refine ⟨hiff, fun pre contrary post hsplit hcontrary => ?_⟩
  have hnot : ¬ contrary.1 = !stateAfter b from_true from_false cs := by
    rw [hcontrary]
    exact fun heq => (Bool.eq_not_self _).mp heq
  rw [hiff, hsplit]
  exact exists_congr fun first => and_congr_left fun _ =>
    endsInBlock_append_of_not (P := (·.1 = !stateAfter b from_true from_false cs)) hnot pre post

/-- A request that comes back in time, and one that stays. -/
theorem request_law_stays :
    stateAfter false 0 5 [(true, 1), (false, 3), (true, 4), (true, 8), (true, 9)] ≠
      stateAfter false 0 5 [(true, 1), (false, 3), (true, 4), (true, 8)] :=
  (request_law false 0 5 [(true, 1), (false, 3), (true, 4), (true, 8)] (true, 9) (by decide)).1.mpr
    ⟨(true, 4), ⟨[(true, 1), (false, 3)], [(true, 8), (true, 9)], rfl,
      List.forall_mem_cons.mpr ⟨rfl,
        List.forall_mem_cons.mpr ⟨rfl, List.forall_mem_singleton.mpr rfl⟩⟩,
      rfl⟩, by decide⟩

end Hysteresis
