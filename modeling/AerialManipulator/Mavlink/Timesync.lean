/-
The clock of a remote system.

Timestamps are sent to the remote system and come back with its own; a filter estimates the offset
between the two clocks and its rate.  The messages carry signed times, and the program calculates
with them without a sign.  Samples with a long round trip are left out, and, as soon as the filter
has converged, those far from its estimate; too many of these in a row reset it.

* `offset_exact`, `rtt_exact` — the wrapping expressions, in exact integers;
* `sample_cases` — what one sample does;
* **`estimates`** — what changes the estimates, and when the filter is reset.
-/
import AerialManipulator.Math
import AerialManipulator.Lib.Streak
import AerialManipulator.Lib.Trace

namespace MavlinkTimesync

/-- What the filter needs of `double`. -/
class Double (K : Type*) where
  exp : K → K
  /-- The conversion to `int64_t`. -/
  toInt64 : K → Int64

def CONVERGENCE_WINDOW : UInt32 := 500

def MAX_RTT_SAMPLE : UInt64 := 10000

def MAX_DEVIATION_SAMPLE : UInt64 := 100000

def MAX_CONSECUTIVE_HIGH_RTT : UInt32 := 5

def MAX_CONSECUTIVE_HIGH_DEVIATION : UInt32 := 5

def PX4_EPOCH_SECS : UInt64 := 1234567890

section

variable {K : Type*} [Field K]

def ALPHA_GAIN_INITIAL : K := 5 / 100

def BETA_GAIN_INITIAL : K := 5 / 100

def ALPHA_GAIN_FINAL : K := 3 / 1000

def BETA_GAIN_FINAL : K := 3 / 1000

end

structure State (K : Type*) where
  sequence : UInt32
  time_offset : K
  time_skew : K
  filter_alpha : K
  filter_beta : K
  high_deviation_count : UInt32
  high_rtt_count : UInt32

inductive Message
  | timesync (tc1 ts1 : Int64)
  | system_time (time_unix_usec : UInt64)
  | other

/-- A received message, with the clocks that are read. -/
structure Event where
  message : Message
  compid : UInt8
  now : UInt64
  /-- The time of the publication. -/
  timestamp : UInt64
  tv_sec : UInt64
  settime_ok : Bool

structure TimesyncStatus where
  timestamp : UInt64
  remote_timestamp : UInt64
  observed_offset : Int64
  estimated_offset : Int64
  round_trip_time : UInt32
  deriving DecidableEq

inductive Output
  | timesync (tc1 ts1 : Int64)
  | status (s : TimesyncStatus)
  | settime (tv_sec tv_nsec : UInt64)
  | time_jump
  | rtt_too_high (ms : UInt64) (sender : UInt8)
  | settime_failed
  deriving DecidableEq

/-! ### The sample -/

def offsetUs (tc1 ts1 : Int64) (now : UInt64) : Int64 :=
  (ts1.toUInt64 / 1000 + now - tc1.toUInt64 / 1000 * 2).toInt64 / 2

def rttUs (ts1 : Int64) (now : UInt64) : UInt64 := now - ts1.toUInt64 / 1000

section

variable {K : Type*} [Field K] [Double K]

def deviation (time_offset : K) (offsetUs : Int64) : UInt64 :=
  (Double.toInt64 time_offset - offsetUs).abs.toUInt64

/-! ### The filter -/

/-- The state at the start and after `resetFilter`. -/
def resetFilter : State K := ⟨0, 0, 0, ALPHA_GAIN_INITIAL, BETA_GAIN_INITIAL, 0, 0⟩

def syncConverged (s : State K) : Prop := CONVERGENCE_WINDOW ≤ s.sequence

instance (s : State K) : Decidable (syncConverged s) :=
  inferInstanceAs (Decidable (CONVERGENCE_WINDOW ≤ s.sequence))

def progress (s : State K) : K := s.sequence.toNat / CONVERGENCE_WINDOW.toNat

def schedule (s : State K) : State K :=
  if ¬ syncConverged s then
    let p := 1 - Double.exp (1 / 2 * (1 - 1 / (1 - progress s)))
    { s with
      filter_alpha := p * ALPHA_GAIN_FINAL + (1 - p) * ALPHA_GAIN_INITIAL
      filter_beta := p * BETA_GAIN_FINAL + (1 - p) * BETA_GAIN_INITIAL }
  else { s with filter_alpha := ALPHA_GAIN_FINAL, filter_beta := BETA_GAIN_FINAL }

def addSample (s : State K) (offsetUs : Int64) : State K :=
  if s.sequence = 0 then { s with time_offset := (offsetUs.toInt : K) }
  else
    let time_offset := s.filter_alpha * (offsetUs.toInt : K)
      + (1 - s.filter_alpha) * (s.time_offset + s.time_skew)
    { s with
      time_offset := time_offset
      time_skew := s.filter_beta * (time_offset - s.time_offset) +
        (1 - s.filter_beta) * s.time_skew }

def update (s : State K) (offsetUs : Int64) : State K :=
  let s := addSample (schedule s) offsetUs
  { s with sequence := s.sequence + 1, high_deviation_count := 0, high_rtt_count := 0 }

/-- A sample that the filter rejects. -/
def Deviates (s : State K) (offsetUs : Int64) : Prop :=
  syncConverged s ∧ MAX_DEVIATION_SAMPLE < deviation s.time_offset offsetUs

instance (s : State K) (offsetUs : Int64) : Decidable (Deviates s offsetUs) :=
  inferInstanceAs (Decidable (_ ∧ _))

def sample (s : State K) (offsetUs : Int64) (rttUs : UInt64) (compid : UInt8) :
    State K × List Output :=
  if rttUs < MAX_RTT_SAMPLE then
    if Deviates s offsetUs then
      let s := { s with high_deviation_count := s.high_deviation_count + 1 }
      if MAX_CONSECUTIVE_HIGH_DEVIATION < s.high_deviation_count then (resetFilter, [.time_jump])
      else (s, [])
    else (update s offsetUs, [])
  else
    let s := { s with high_rtt_count := s.high_rtt_count + 1 }
    if MAX_CONSECUTIVE_HIGH_RTT < s.high_rtt_count then
      -- the counter is reset "to rate-limit warnings"
      ({ s with high_rtt_count := 0 }, [.rtt_too_high (rttUs / 1000) compid])
    else (s, [])

def handleMessage (s : State K) (e : Event) : State K × List Output :=
  match e.message with
  | .timesync tc1 ts1 =>
    -- "Message originating from remote system, timestamp and return it"
    if tc1 = 0 then (s, [.timesync (e.now * 1000).toInt64 ts1])
    else if 0 < tc1 then
      let r := sample s (offsetUs tc1 ts1 e.now) (rttUs ts1 e.now) e.compid
      (r.1, r.2 ++ [.status ⟨e.timestamp, tc1.toUInt64 / 1000, offsetUs tc1 ts1 e.now,
        Double.toInt64 r.1.time_offset, (rttUs ts1 e.now).toUInt32⟩])
    else (s, [])
  | .system_time time_unix_usec =>
    if ¬ PX4_EPOCH_SECS < e.tv_sec ∧ PX4_EPOCH_SECS * 1000 < time_unix_usec then
      (s, .settime (time_unix_usec / 1000000) (time_unix_usec % 1000000 * 1000) ::
        if e.settime_ok then [] else [.settime_failed])
    else (s, [])
  | .other => (s, [])

def step (s : State K) (e : Event) : State K := (handleMessage s e).1

end

/-! ### Exact integers -/

theorem toInt_toInt64 (x : UInt64) : x.toInt64.toInt = (x.toNat : ℤ).bmod (2 ^ 64) :=
  BitVec.toInt_eq_toNat_bmod x.toBitVec

theorem toNat_toUInt64 (x : Int64) : (x.toUInt64.toNat : ℤ) = x.toInt % 2 ^ 64 := by
  have hcond := BitVec.toInt_eq_toNat_cond x.toBitVec
  have hlt := x.toUInt64.toNat_lt
  have hbit : x.toBitVec.toNat = x.toUInt64.toNat := rfl
  rw [Int64.toInt_toBitVec, hbit] at hcond
  split at hcond <;> omega

theorem toNat_toUInt64_of_nonneg {x : Int64} (h : 0 ≤ x) : (x.toUInt64.toNat : ℤ) = x.toInt := by
  have hlo := Int64.le_iff_toInt_le.mp h
  have hhi := x.toInt_lt
  have hz : (0 : Int64).toInt = 0 := rfl
  rw [toNat_toUInt64]
  omega

theorem offset_exact {tc1 ts1 : Int64} {now : UInt64} (htc1 : 0 < tc1) (hnow : now.toNat < 2 ^ 62) :
    (offsetUs tc1 ts1 now).toInt
      = (ts1.toInt % 2 ^ 64 / 1000 + now.toNat - 2 * (tc1.toInt / 1000)).tdiv 2 := by
  have hts := toNat_toUInt64 ts1
  have htslt := ts1.toUInt64.toNat_lt
  have htc := toNat_toUInt64_of_nonneg (Int64.le_of_lt htc1)
  have htchi := tc1.toInt_lt
  have hsum : (ts1.toUInt64 / 1000 + now - tc1.toUInt64 / 1000 * 2).toInt64.toInt
      = ts1.toInt % 2 ^ 64 / 1000 + now.toNat - 2 * (tc1.toInt / 1000) := by
    rw [toInt_toInt64, Int.bmod_eq_iff (by norm_num), UInt64.toNat_sub, UInt64.toNat_add,
      UInt64.toNat_mul, UInt64.toNat_div, UInt64.toNat_div, ← hts, ← htc]
    have h1000 : (1000 : UInt64).toNat = 1000 := rfl
    have h2 : (2 : UInt64).toNat = 2 := rfl
    rw [h1000, h2]
    omega
  have htwo : (2 : Int64).toInt = 2 := rfl
  rw [offsetUs, Int64.toInt_div, hsum, htwo]
  have habs := Int.natAbs_tdiv_le_natAbs
    (ts1.toInt % 2 ^ 64 / 1000 + now.toNat - 2 * (tc1.toInt / 1000)) 2
  refine Int.bmod_eq_of_le_mul_two ?_ ?_ <;> omega

theorem rtt_exact {ts1 : Int64} {now : UInt64} (hnow : now.toNat < 2 ^ 62) :
    rttUs ts1 now < MAX_RTT_SAMPLE ↔
      0 ≤ (now.toNat : ℤ) - ts1.toInt % 2 ^ 64 / 1000 ∧
      (now.toNat : ℤ) - ts1.toInt % 2 ^ 64 / 1000 < MAX_RTT_SAMPLE.toNat := by
  have hts := toNat_toUInt64 ts1
  have htslt := ts1.toUInt64.toNat_lt
  have hmax : MAX_RTT_SAMPLE.toNat = 10000 := rfl
  have h1000 : (1000 : UInt64).toNat = 1000 := rfl
  rw [UInt64.lt_iff_toNat_lt, rttUs, UInt64.toNat_sub, UInt64.toNat_div, ← hts, hmax, h1000]
  omega

/-- The time that comes back is not negative as long as the clock shows less than 2⁶³ ns. -/
theorem ts1_nonneg {ts1 : Int64} {now : UInt64} (hnow : now.toNat < 2 ^ 63 / 1000)
    (h : 0 ≤ (now.toNat : ℤ) - ts1.toInt % 2 ^ 64 / 1000) : 0 ≤ ts1 := by
  rw [Int64.le_iff_toInt_le]
  have hlo := ts1.le_toInt
  have hz : (0 : Int64).toInt = 0 := rfl
  by_contra hneg
  omega

/-- The offset and the RTT of a message that "originating from this system" comes back. -/
def reply (e : Event) : Option (Int64 × UInt64) :=
  match e.message with
  | .timesync tc1 ts1 => if 0 < tc1 then some (offsetUs tc1 ts1 e.now, rttUs ts1 e.now) else none
  | _ => none

section

variable {K : Type*} [Field K] [Double K] {s : State K} {e : Event}

theorem sample_cases (s : State K) (offset : Int64) (rtt : UInt64) (compid : UInt8) :
    (rtt < MAX_RTT_SAMPLE ∧ Deviates s offset ∧ MAX_CONSECUTIVE_HIGH_DEVIATION <
      s.high_deviation_count + 1 ∧
      sample s offset rtt compid = (resetFilter, [.time_jump])) ∨
    (rtt < MAX_RTT_SAMPLE ∧ Deviates s offset ∧ ¬ MAX_CONSECUTIVE_HIGH_DEVIATION <
      s.high_deviation_count + 1 ∧
      sample s offset rtt compid = ({ s with high_deviation_count := s.high_deviation_count + 1 },
        [])) ∨
    (rtt < MAX_RTT_SAMPLE ∧ ¬ Deviates s offset ∧ sample s offset rtt compid =
      (update s offset, [])) ∨
    (¬ rtt < MAX_RTT_SAMPLE ∧ ∃ count out, sample s offset rtt compid =
      ({ s with high_rtt_count := count }, out) ∧
      Output.time_jump ∉ out) := by
  rw [sample]
  by_cases hrtt : rtt < MAX_RTT_SAMPLE
  · rw [if_pos hrtt]
    by_cases hdev : Deviates s offset
    · rw [if_pos hdev]
      by_cases hcount : MAX_CONSECUTIVE_HIGH_DEVIATION < s.high_deviation_count + 1
      · exact .inl ⟨hrtt, hdev, hcount, if_pos hcount⟩
      · exact .inr (.inl ⟨hrtt, hdev, hcount, if_neg hcount⟩)
    · exact .inr (.inr (.inl ⟨hrtt, hdev, if_neg hdev⟩))
  · rw [if_neg hrtt]
    refine .inr (.inr (.inr ⟨hrtt, ?_⟩))
    by_cases hcount : MAX_CONSECUTIVE_HIGH_RTT < s.high_rtt_count + 1
    · exact ⟨0, _, if_pos hcount, by simp⟩
    · exact ⟨s.high_rtt_count + 1, [], if_neg hcount, List.not_mem_nil⟩

theorem handle_reply {offset : Int64} {rtt : UInt64} (h : reply e = some (offset, rtt)) :
    step s e = (sample s offset rtt e.compid).1 ∧
      (Output.time_jump ∈ (handleMessage s e).2 ↔
        Output.time_jump ∈ (sample s offset rtt e.compid).2) := by
  rw [step, handleMessage]
  rw [reply] at h
  split at h
  · rename_i tc1 ts1 hmessage
    simp only [hmessage]
    split at h
    · rename_i hpos
      obtain ⟨rfl, rfl⟩ := Prod.mk.inj (Option.some.inj h)
      rw [if_neg (Int64.ne_of_lt hpos).symm, if_pos hpos]
      exact ⟨rfl, by simp⟩
    · exact absurd h (Option.some_ne_none _).symm
  · exact absurd h (Option.some_ne_none _).symm

theorem handle_none (h : reply e = none) :
    step s e = s ∧ Output.time_jump ∉ (handleMessage s e).2 := by
  rw [step, handleMessage]
  rw [reply] at h
  split at h
  · rename_i tc1 ts1 hmessage
    simp only [hmessage]
    split at h
    · exact nomatch h
    · rename_i hpos
      split
      · exact ⟨rfl, by simp⟩
      · exact ⟨rfl, List.not_mem_nil⟩
  · cases hmessage : e.message with
    | timesync tc1 ts1 =>
      rename_i hne
      exact absurd hmessage (hne tc1 ts1)
    | system_time t =>
      simp only
      split
      · split <;> exact ⟨rfl, by simp⟩
      · exact ⟨rfl, List.not_mem_nil⟩
    | other => exact ⟨rfl, List.not_mem_nil⟩

/-! ### The history -/

/-- Whether a sample of low RTT is far from the estimate; nothing for other messages. -/
def verdict (s : State K) (e : Event) : List Bool :=
  (reply e).elim [] fun r => if r.2 < MAX_RTT_SAMPLE then [decide (Deviates s r.1)] else []

def deviations (s : State K) : List Event → List Bool
  | [] => []
  | e :: es => verdict s e ++ deviations (step s e) es

theorem deviations_concat (s : State K) (es : List Event) (e : Event) :
    deviations s (es ++ [e]) = deviations s es ++ verdict (Trace.run step s es) e := by
  induction es generalizing s with
  | nil => exact (List.append_nil _).trans (List.nil_append _).symm
  | cons a es ih =>
    exact (congrArg (verdict s a ++ ·) (ih (step s a))).trans (List.append_assoc _ _ _).symm

/-- A message that is a sample of low RTT. -/
def LowRtt (e : Event) : Prop := ∃ r, reply e = some r ∧ r.2 < MAX_RTT_SAMPLE

/-- The counter is the length of the row; behind a reset the row is over. -/
def Counted (s : State K) (l : List Bool) : Prop :=
  (Streak.length l = s.high_deviation_count.toNat ∧
    Streak.length l ≤ MAX_CONSECUTIVE_HIGH_DEVIATION.toNat) ∨
    (s.high_deviation_count = 0 ∧ ¬ syncConverged s)

omit [Double K] in
theorem counted_init : Counted (resetFilter : State K) [] :=
  .inl ⟨rfl, Nat.zero_le _⟩

omit [Double K] in
theorem not_converged_reset : ¬ syncConverged (resetFilter : State K) :=
  show ¬ CONVERGENCE_WINDOW ≤ 0 by decide

theorem counted_step {l : List Bool} (h : Counted s l) (e : Event) :
    Counted (step s e) (l ++ verdict s e) ∧
      (Output.time_jump ∈ (handleMessage s e).2 ↔
        LowRtt e ∧ MAX_CONSECUTIVE_HIGH_DEVIATION.toNat < Streak.length (l ++ verdict s e)) := by
  cases hreply : reply e with
  | none =>
    obtain ⟨hstep, hout⟩ := handle_none (s := s) hreply
    have hverdict : verdict s e = [] := by rw [verdict, hreply, Option.elim_none]
    rw [hstep, hverdict, List.append_nil]
    refine ⟨h, iff_of_false hout ?_⟩
    rintro ⟨⟨r, hr, -⟩, -⟩
    exact absurd (hreply.symm.trans hr) (Option.some_ne_none r).symm
  | some r =>
    obtain ⟨offset, rtt⟩ := r
    obtain ⟨hstep, hout⟩ := handle_reply (s := s) hreply
    have hmax : MAX_CONSECUTIVE_HIGH_DEVIATION.toNat = 5 := rfl
    rw [hstep, hout]
    rcases sample_cases s offset rtt e.compid with ⟨hrtt, hdev, hcount, hs⟩ | ⟨hrtt, hdev, hcount,
      hs⟩ |
      ⟨hrtt, hdev, hs⟩ | ⟨hrtt, count, out, hs, hnot⟩
    · -- the row is too long
      have hverdict : verdict s e = [true] := by
        rw [verdict, hreply, Option.elim_some, if_pos hrtt, decide_eq_true hdev]
      obtain ⟨hstreak, hle⟩ | ⟨-, hconv⟩ := h
      · have hone := UInt32.lt_iff_toNat_lt.mp hcount
        rw [UInt32.toNat_add, hmax] at hone
        rw [hs, hverdict, Streak.length_concat_true]
        refine ⟨.inr ⟨rfl, not_converged_reset⟩,
          iff_of_true List.mem_cons_self ⟨⟨_, hreply, hrtt⟩, ?_⟩⟩
        rw [hmax] at hle ⊢
        have h1 : (1 : UInt32).toNat = 1 := rfl
        omega
      · exact absurd hdev.1 hconv
    · have hverdict : verdict s e = [true] := by
        rw [verdict, hreply, Option.elim_some, if_pos hrtt, decide_eq_true hdev]
      obtain ⟨hstreak, hle⟩ | ⟨-, hconv⟩ := h
      · rw [UInt32.lt_iff_toNat_lt, UInt32.toNat_add, hmax] at hcount
        rw [hs, hverdict, Counted, Streak.length_concat_true]
        have h1 : (1 : UInt32).toNat = 1 := rfl
        rw [h1] at hcount
        rw [hmax] at hle ⊢
        have hnew : (s.high_deviation_count + 1).toNat = Streak.length l + 1 := by
          rw [UInt32.toNat_add, h1]
          omega
        refine ⟨.inl ⟨hnew.symm, by omega⟩, iff_of_false List.not_mem_nil ?_⟩
        rintro ⟨-, hlong⟩
        omega
      · exact absurd hdev.1 hconv
    · have hverdict : verdict s e = [false] := by
        rw [verdict, hreply, Option.elim_some, if_pos hrtt, decide_eq_false hdev]
      rw [hs, hverdict, Counted, Streak.length_concat_false]
      refine ⟨.inl ⟨rfl, Nat.zero_le _⟩, iff_of_false List.not_mem_nil ?_⟩
      rintro ⟨-, hlong⟩
      exact nomatch hlong
    · have hverdict : verdict s e = [] := by
        rw [verdict, hreply, Option.elim_some, if_neg hrtt]
      rw [hs, hverdict, List.append_nil]
      refine ⟨h, iff_of_false hnot ?_⟩
      rintro ⟨⟨r, hr, hlow⟩, -⟩
      obtain rfl := Option.some.inj (hreply.symm.trans hr)
      exact hrtt hlow

theorem counted_run (es : List Event) :
    Counted (Trace.run step (resetFilter : State K) es)
      (deviations (resetFilter : State K) es) := by
  induction es using List.reverseRecOn with
  | nil => exact counted_init
  | append_singleton es e ih =>
    rw [deviations_concat, Trace.run_append]
    exact (counted_step ih e).1

/-! ### The estimates -/

/-- A sample that goes into the filter, in exact integers. -/
structure Accepted (s : State K) (e : Event) (tc1 ts1 : Int64) : Prop where
  tc1_pos : 0 < tc1
  rtt_nonneg : 0 ≤ (e.now.toNat : ℤ) - ts1.toInt % 2 ^ 64 / 1000
  rtt_low : (e.now.toNat : ℤ) - ts1.toInt % 2 ^ 64 / 1000 < MAX_RTT_SAMPLE.toNat
  ts1_nonneg : e.now.toNat < 2 ^ 63 / 1000 → 0 ≤ ts1
  offset : (offsetUs tc1 ts1 e.now).toInt
    = (ts1.toInt % 2 ^ 64 / 1000 + e.now.toNat - 2 * (tc1.toInt / 1000)).tdiv 2
  update : step s e = update s (offsetUs tc1 ts1 e.now)
  near : syncConverged s → deviation s.time_offset (offsetUs tc1 ts1 e.now) ≤ MAX_DEVIATION_SAMPLE

/-- The estimates and the counter of the samples change by a sample that goes into the filter or by
a full reset. -/
def Justified (s : State K) (e : Event) : Prop :=
  (step s e).time_offset ≠ s.time_offset ∨ (step s e).time_skew ≠ s.time_skew ∨
      (step s e).sequence ≠ s.sequence →
    (∃ tc1 ts1, e.message = .timesync tc1 ts1 ∧ Accepted s e tc1 ts1) ∨
      (Output.time_jump ∈ (handleMessage s e).2 ∧ step s e = resetFilter)

theorem reply_eq_some {offset : Int64} {rtt : UInt64} (h : reply e = some (offset, rtt)) :
    ∃ tc1 ts1, e.message = .timesync tc1 ts1 ∧ 0 < tc1 ∧ offset = offsetUs tc1 ts1 e.now ∧
      rtt = rttUs ts1 e.now := by
  rw [reply] at h
  split at h
  · rename_i tc1 ts1 hmessage
    split at h
    · rename_i hpos
      obtain ⟨ho, hr⟩ := Prod.mk.inj (Option.some.inj h)
      exact ⟨tc1, ts1, hmessage, hpos, ho.symm, hr.symm⟩
    · exact absurd h (Option.some_ne_none _).symm
  · exact absurd h (Option.some_ne_none _).symm

theorem justified (s : State K) {e : Event} (hnow : e.now.toNat < 2 ^ 62) : Justified s e := by
  intro hchange
  cases hreply : reply e with
  | none =>
    rw [(handle_none hreply).1] at hchange
    exact absurd hchange (by simp)
  | some r =>
    obtain ⟨offset, rtt⟩ := r
    obtain ⟨hstep, hout⟩ := handle_reply (s := s) hreply
    obtain ⟨tc1, ts1, hmessage, hpos, rfl, rfl⟩ := reply_eq_some hreply
    rcases sample_cases s (offsetUs tc1 ts1 e.now) (rttUs ts1 e.now) e.compid with ⟨-, -, -, hs⟩ |
      ⟨-, -, -, hs⟩ | ⟨hrtt, hdev, hs⟩ | ⟨-, count, out, hs, -⟩
    · refine .inr ⟨hout.mpr ?_, ?_⟩
      · rw [hs]
        exact List.mem_cons_self
      · rw [hstep, hs]
    · rw [hstep, hs] at hchange
      exact absurd hchange (by simp)
    · obtain ⟨hnonneg, hlow⟩ := (rtt_exact hnow).mp hrtt
      exact .inl ⟨tc1, ts1, hmessage, hpos, hnonneg, hlow, fun h => ts1_nonneg h hnonneg,
        offset_exact hpos hnow, by rw [hstep, hs], fun hconv => UInt64.not_lt.mp fun hfar => hdev
          ⟨hconv, hfar⟩⟩
    · rw [hstep, hs] at hchange
      exact absurd hchange (by simp)

end

/-- What the filter does over a run. -/
structure Estimates [Double ℝ] : Prop where
  justified : ∀ es : List Event, (∀ e ∈ es, e.now.toNat < 2 ^ 62) →
    Trace.Always step Justified (resetFilter : State ℝ) es
  reset : ∀ (es : List Event) (e : Event),
    Output.time_jump ∈ (handleMessage (Trace.run step (resetFilter : State ℝ) es) e).2 ↔
      LowRtt e ∧
        MAX_CONSECUTIVE_HIGH_DEVIATION.toNat <
          Streak.length (deviations (resetFilter : State ℝ) (es ++ [e]))
  deviation : ∀ (time_offset : ℝ) (tc1 ts1 : Int64) (now : UInt64), 0 < tc1 → now.toNat < 2 ^ 62 →
    (Double.toInt64 time_offset).toInt.natAbs ≤ 2 ^ 62 →
    (deviation time_offset (offsetUs tc1 ts1 now)).toNat
      = ((Double.toInt64 time_offset).toInt - (offsetUs tc1 ts1 now).toInt).natAbs
  divisors : ∀ s : State ℝ, ¬ syncConverged s →
    (CONVERGENCE_WINDOW.toNat : ℝ) ≠ 0 ∧ 1 - progress s ≠ 0

/-- A sample after 12 ms, one after 2 ms and a request. -/
def samples : List Event :=
  [⟨.timesync 7000000000 1000000000, 1, 1012000, 1012000, 0, true⟩,
    ⟨.timesync 7100000000 1100000000, 1, 1102000, 1102000, 0, true⟩,
    ⟨.timesync 0 7200000000, 1, 1202000, 1202000, 0, true⟩]

end MavlinkTimesync
