/-
Where the output of the decoder for Spektrum receivers comes from.

A value is stored as soon as its word has been decoded.  When the frame is rejected after that, the
value stays, and is put out with the next frame that does not have this channel.

* `accepted_or_unchanged` — a frame that is `Clean` is accepted, or has stored nothing;
* `sound_step` — the buffer holds what the frames since `dsm_proto_init` have stored last;
* **`outputs_intact`** — as long as all frames are clean, every value that is put out is in range
  and comes from a frame that was accepted.
-/
import AerialManipulator.Rc.Dsm
import AerialManipulator.Lib.Trace

namespace Dsm

/-! ### Frames that leave nothing behind -/

section Condition

variable (shift max_values : ℕ)

def decoded (words : List ℕ) : List (ℕ × ℕ) := words.filterMap (dsmDecodeChannel · shift)

def failures (words : List ℕ) : ℕ :=
  words.countP fun raw => raw ≠ 0 && raw ≠ 0xffff && (dsmDecodeChannel raw shift).isNone

/-- The frame is rejected at a word: it can be decoded, but four words before it could not, or one
of them had the same channel. -/
def Rejects (before : List ℕ) (raw : ℕ) : Prop :=
  ∃ d ∈ dsmDecodeChannel raw shift,
    4 ≤ failures shift before ∨ d.1 ∈ (decoded shift before).map Prod.fst

def stored (words : List ℕ) : List (ℕ × ℕ) :=
  (decoded shift words).filter fun d => d.1 < max_values

def countAfter (count : ℕ) (ds : List (ℕ × ℕ)) : ℕ :=
  ds.foldl (fun n d => if d.1 ≥ n then d.1 + 1 else n) count

/-- Up to the first word at which the frame is rejected nothing is stored.  If there is none and
something is stored, every value is among it, or in the buffer and in range. -/
def CleanWords (count : ℕ) (buf : ℕ → ℕ) (words : List ℕ) : Prop :=
  (∀ k < words.length, Rejects shift (words.take k) (words.getD k 0) →
    (∀ j < k, ¬ Rejects shift (words.take j) (words.getD j 0)) →
      stored shift max_values (words.take k) = []) ∧
  ((∀ k < words.length, ¬ Rejects shift (words.take k) (words.getD k 0)) →
    stored shift max_values words ≠ [] →
      ∀ i < countAfter count (stored shift max_values words),
        i ∈ (stored shift max_values words).map (fun d => assign d.1) ∨ InRange (buf i))

instance (before : List ℕ) (raw : ℕ) : Decidable (Rejects shift before raw) :=
  match h : dsmDecodeChannel raw shift with
  | none => .isFalse fun ⟨d, hd, _⟩ => absurd (h ▸ hd) (by simp)
  | some d =>
    if hd : 4 ≤ failures shift before ∨ d.1 ∈ (decoded shift before).map Prod.fst then
      .isTrue ⟨d, h, hd⟩
    else .isFalse fun ⟨d', hd', h'⟩ => hd (Option.some.inj (h.symm.trans hd') ▸ h')

instance (count : ℕ) (buf : ℕ → ℕ) (words : List ℕ) :
    Decidable (CleanWords shift max_values count buf words) :=
  inferInstanceAs (Decidable (_ ∧ _))

end Condition

/-- If a byte completes a frame whose format is known, that frame is clean. -/
def Clean (now : UInt64) (max_values : ℕ) (s : Decoder) (byte : UInt8) : Prop :=
  s.limit.decode_state = .sync → frameSize ≤ s.limit.partial_frame_count + 1 →
    ((s.limit.push byte).updateFormat now).2 = true →
      CleanWords ((s.limit.push byte).updateFormat now).1.channel_shift max_values
        s.limit.chan_count s.chan_buf (words (s.limit.push byte).frame)

instance (now : UInt64) (max_values : ℕ) (s : Decoder) (byte : UInt8) :
    Decidable (Clean now max_values s byte) :=
  inferInstanceAs (Decidable (_ → _ → _ → _))

/-! ### Runs -/

/-- The decoder, with the frames it has decoded since the last `dsm_proto_init`, the last one
first. -/
structure Watched where
  decoder : Decoder
  log : List Decoded

inductive Event
  | parse (now : UInt64) (bytes : List UInt8) (max_channels : ℕ)
  | protoInit
  | config (now : UInt64)

def Watched.logAfter (w : Watched) (now : UInt64) (bytes : List UInt8) (max_channels : ℕ) :
    List Decoded :=
  (w.decoder.dsmParse now bytes max_channels).2.1.reverse ++ w.log

def Watched.step (w : Watched) : Event → Watched
  | .parse now bytes max_channels =>
    ⟨(w.decoder.dsmParse now bytes max_channels).1, w.logAfter now bytes max_channels⟩
  | .protoInit => ⟨w.decoder.dsmProtoInit, []⟩
  | .config now => ⟨w.decoder.dsmConfig now, w.log⟩

/-- The frame that was the last one to store a value in some place, with that value. -/
def lastStore : List Decoded → ℕ → Option (Decoded × ℕ)
  | [], _ => none
  | d :: log, i =>
    match d.stores.lookup i with
    | some v => some (d, v)
    | none => lastStore log i

/-- A frame has a word with this value, for this place. -/
def Decoded.Carries (d : Decoded) (i v : ℕ) : Prop :=
  ∃ raw ∈ d.words, ∃ c, dsmDecodeChannel raw d.shift = some (c, v) ∧ assign c = i

/-- Every value that is put out is in range, and was decoded from a frame since `dsm_proto_init`
that was accepted. -/
def Intact (w : Watched) : Event → Prop
  | .parse now bytes max_channels =>
    ∀ out, (w.decoder.dsmParse now bytes max_channels).2.2 = some out →
      ∀ i v, out[i]? = some v → InRange v ∧
        ∃ d, lastStore (w.logAfter now bytes max_channels) i = some (d, v) ∧
          d.accepted = true ∧ d.Carries i v
  | .protoInit => True
  | .config _ => True

/-- All frames that are decoded in a step are clean. -/
def CleanStep (w : Watched) : Event → Prop
  | .parse now bytes max_channels =>
    Trace.Always (fun s b => (Decoder.parseByte now (Decoder.clampChannels max_channels) s b).1)
      (Clean now (Decoder.clampChannels max_channels)) w.decoder bytes
  | .protoInit => True
  | .config _ => True

instance (w : Watched) (e : Event) : Decidable (CleanStep w e) :=
  match e with
  | .parse _ _ _ => inferInstanceAs (Decidable (Trace.Always _ _ _ _))
  | .protoInit => .isTrue trivial
  | .config _ => .isTrue trivial

/-! ### The loop over the words -/

section Loop

variable {shift max_values count : ℕ} {buf : ℕ → ℕ} {before words : List ℕ} {l : Loop} {raw : ℕ}

theorem decoded_append (words₁ words₂ : List ℕ) :
    decoded shift (words₁ ++ words₂) = decoded shift words₁ ++ decoded shift words₂ :=
  List.filterMap_append

theorem decoded_single (raw : ℕ) : decoded shift [raw] = (dsmDecodeChannel raw shift).toList := by
  rw [decoded]
  cases h : dsmDecodeChannel raw shift with
  | none => simp [h]
  | some d => simp [h]

theorem failures_append (words₁ words₂ : List ℕ) :
    failures shift (words₁ ++ words₂) = failures shift words₁ + failures shift words₂ :=
  List.countP_append

theorem dsmDecodeChannel_spec {channel value : ℕ}
    (h : dsmDecodeChannel raw shift = some (channel, value)) :
    channel ≤ maxChannelCount ∧ InRange value := by
  unfold dsmDecodeChannel at h
  split at h
  · exact absurd h (by simp)
  · split at h
    · dsimp only at h
      split at h
      · exact absurd h (by simp)
      · split at h
        · simp only [Option.some.injEq, Prod.mk.injEq] at h
          obtain ⟨rfl, rfl⟩ := h
          exact ⟨by omega, by assumption⟩
        · exact absurd h (by simp)
    · split at h
      · dsimp only at h
        split at h
        · exact absurd h (by simp)
        next found servo_position hfound =>
          split at h
          · simp only [Option.some.injEq, Prod.mk.injEq] at h
            obtain ⟨rfl, rfl⟩ := h
            refine ⟨?_, by assumption⟩
            unfold maxChannelCount at hfound ⊢
            split at hfound
            · simp only [Option.some.injEq, Prod.mk.injEq] at hfound
              omega
            · split at hfound
              · rw [Option.ite_none_left_eq_some] at hfound
                simp only [Option.some.injEq, Prod.mk.injEq] at hfound
                omega
              · exact absurd hfound (by simp)
          · exact absurd h (by simp)
      · exact absurd h (by simp)

/-- What the loop has after some words. -/
structure After (shift max_values count : ℕ) (buf : ℕ → ℕ) (before : List ℕ) (l : Loop) : Prop where
  failures : l.failures = failures shift before
  found : ∀ c, l.found.testBit c = true ↔ c ∈ (decoded shift before).map Prod.fst
  num_values : l.num_values = countAfter count (stored shift max_values before)
  stores : l.stores = ((stored shift max_values before).map fun d => (assign d.1, d.2)).reverse
  values : ∀ i, l.values i = (l.stores.lookup i).getD (buf i)

theorem After.skip (h : After shift max_values count buf before l)
    (hnone : dsmDecodeChannel raw shift = none) :
    After shift max_values count buf (before ++ [raw])
      { l with failures := l.failures + Dsm.failures shift [raw] } := by
  have hdecoded : decoded shift (before ++ [raw]) = decoded shift before := by
    rw [decoded_append, decoded_single, hnone, Option.toList_none, List.append_nil]
  refine ⟨?_, ?_, ?_, ?_, h.values⟩
  · rw [failures_append, h.failures]
  · rw [hdecoded]
    exact h.found
  · rw [stored, hdecoded]
    exact h.num_values
  · rw [stored, hdecoded]
    exact h.stores

theorem failures_some {d : ℕ × ℕ} (hsome : dsmDecodeChannel raw shift = some d) :
    failures shift [raw] = 0 := by
  rw [failures, List.countP_eq_zero]
  intro x hx
  rw [List.mem_singleton.mp hx, hsome]
  simp

theorem testBit_set (found channel c : ℕ) :
    (found ||| 1 <<< channel).testBit c = true ↔ found.testBit c = true ∨ c = channel := by
  rw [Nat.testBit_or, Bool.or_eq_true, Nat.one_shiftLeft, Nat.testBit_two_pow, decide_eq_true_eq,
    @eq_comm _ channel]

theorem After.pass (h : After shift max_values count buf before l) {channel value : ℕ}
    (hsome : dsmDecodeChannel raw shift = some (channel, value)) (hge : max_values ≤ channel) :
    After shift max_values count buf (before ++ [raw])
      { l with found := l.found ||| 1 <<< channel } := by
  have hdecoded : decoded shift (before ++ [raw]) = decoded shift before ++ [(channel, value)] := by
    rw [decoded_append, decoded_single, hsome, Option.toList_some]
  have hstored : stored shift max_values (before ++ [raw]) = stored shift max_values before := by
    rw [stored, hdecoded, List.filter_append, List.filter_singleton]
    simp [Nat.not_lt.mpr hge, stored]
  refine ⟨?_, ?_, ?_, ?_, h.values⟩
  · rw [failures_append, failures_some hsome, Nat.add_zero]
    exact h.failures
  · intro c
    rw [hdecoded, List.map_append, List.mem_append, testBit_set, h.found]
    simp
  · rw [hstored]
    exact h.num_values
  · rw [hstored]
    exact h.stores

theorem After.store (h : After shift max_values count buf before l) {channel value : ℕ}
    (hsome : dsmDecodeChannel raw shift = some (channel, value)) (hlt : channel < max_values) :
    After shift max_values count buf (before ++ [raw])
      (Loop.store { l with found := l.found ||| 1 <<< channel } channel value) := by
  have hdecoded : decoded shift (before ++ [raw]) = decoded shift before ++ [(channel, value)] := by
    rw [decoded_append, decoded_single, hsome, Option.toList_some]
  have hstored : stored shift max_values (before ++ [raw]) =
      stored shift max_values before ++ [(channel, value)] := by
    rw [stored, hdecoded, List.filter_append, List.filter_singleton]
    simp [hlt, stored]
  refine ⟨?_, ?_, ?_, ?_, ?_⟩
  · rw [failures_append, failures_some hsome, Nat.add_zero]
    exact h.failures
  · intro c
    rw [hdecoded, List.map_append, List.mem_append]
    refine (testBit_set l.found channel c).trans ?_
    rw [h.found]
    simp
  · rw [hstored, countAfter, List.foldl_append]
    change (if channel ≥ l.num_values then channel + 1 else l.num_values) = _
    rw [h.num_values]
    rfl
  · rw [hstored, List.map_append, List.reverse_append]
    change (assign channel, value) :: l.stores = _
    rw [h.stores]
    rfl
  · intro i
    change Function.update l.values (assign channel) value i =
      (((assign channel, value) :: l.stores).lookup i).getD (buf i)
    rw [List.lookup_cons]
    by_cases hi : i = assign channel
    · subst hi
      rw [Function.update_self, beq_self_eq_true]
      rfl
    · rw [Function.update_of_ne hi, beq_false_of_ne hi]
      exact h.values i

/-- The loop gets to the end, or stops at the first word at which the frame is rejected. -/
def LoopSpec (shift max_values count : ℕ) (buf : ℕ → ℕ) (before words : List ℕ)
    (r : Loop × Verdict) : Prop :=
  (r.2 = .done ∧ After shift max_values count buf (before ++ words) r.1 ∧
    ∀ k < words.length, ¬ Rejects shift (before ++ words.take k) (words.getD k 0)) ∨
  (r.2 ≠ .done ∧ ∃ k < words.length, Rejects shift (before ++ words.take k) (words.getD k 0) ∧
    (∀ j < k, ¬ Rejects shift (before ++ words.take j) (words.getD j 0)) ∧
    After shift max_values count buf (before ++ words.take k) r.1)

variable {r : Loop × Verdict}

theorem LoopSpec.cons (hnot : ¬ Rejects shift before raw)
    (h : LoopSpec shift max_values count buf (before ++ [raw]) words r) :
    LoopSpec shift max_values count buf before (raw :: words) r := by
  have hfirst : ∀ n, (∀ k < n, ¬ Rejects shift (before ++ [raw] ++ words.take k)
      (words.getD k 0)) → ∀ k < n + 1, ¬ Rejects shift (before ++ (raw :: words).take k)
        ((raw :: words).getD k 0) := by
    intro n hn k hk
    cases k with
    | zero => simpa using hnot
    | succ k => simpa using hn k (by omega)
  obtain ⟨hdone, hafter, hall⟩ | ⟨hnotdone, k, hk, hrejects, hbefore, hafter⟩ := h
  · exact .inl ⟨hdone, by simpa using hafter, hfirst words.length hall⟩
  · refine .inr ⟨hnotdone, k + 1, ?_, by simpa using hrejects, hfirst k hbefore,
      by simpa using hafter⟩
    rw [List.length_cons]
    omega

theorem LoopSpec.stop (hrejects : Rejects shift before raw)
    (h : After shift max_values count buf before r.1) (hverdict : r.2 ≠ .done) :
    LoopSpec shift max_values count buf before (raw :: words) r := by
  refine .inr ⟨hverdict, 0, by simp, by simpa using hrejects, ?_, by simpa using h⟩
  exact fun j hj => nomatch hj

theorem decodeLoop_spec (h : After shift max_values count buf before l) :
    LoopSpec shift max_values count buf before words (decodeLoop shift max_values words l) := by
  induction words generalizing before l with
  | nil => exact .inl ⟨rfl, by simpa [decodeLoop] using h, by simp⟩
  | cons raw words ih =>
    rw [decodeLoop]
    split
    next hignored =>
      -- such a word is no failure either
      have hnone : dsmDecodeChannel raw shift = none := by rw [dsmDecodeChannel, if_pos hignored]
      have hzero : failures shift [raw] = 0 := by
        rw [failures, List.countP_eq_zero]
        intro x hx
        rw [List.mem_singleton.mp hx]
        rcases hignored with rfl | rfl <;> simp
      have hskip := h.skip hnone
      rw [hzero] at hskip
      refine LoopSpec.cons ?_ (ih hskip)
      rintro ⟨d, hd, -⟩
      exact absurd (hnone.symm.trans hd) (by simp)
    next hword =>
      split
      next hnone =>
        have hone : failures shift [raw] = 1 := by
          rw [not_or] at hword
          simp [failures, hnone, hword.1, hword.2]
        have hskip := h.skip hnone
        rw [hone] at hskip
        refine LoopSpec.cons ?_ (ih hskip)
        rintro ⟨d, hd, -⟩
        exact absurd (hnone.symm.trans hd) (by simp)
      next channel value hsome =>
        split
        next hfail => exact .stop ⟨_, hsome, .inl (h.failures ▸ hfail)⟩ h (by simp)
        next hfail =>
          split
          next hfound => exact .stop ⟨_, hsome, .inr ((h.found channel).mp hfound)⟩ h (by simp)
          next hfound =>
            have hnot : ¬ Rejects shift before raw := by
              rintro ⟨d, hd, hreason⟩
              obtain rfl : (channel, value) = d := Option.some.inj (hsome.symm.trans hd)
              rcases hreason with hreason | hreason
              · exact hfail (h.failures ▸ hreason)
              · exact hfound ((h.found channel).mpr hreason)
            have hbound := (dsmDecodeChannel_spec hsome).1
            dsimp only
            rw [if_neg (Nat.not_lt.mpr hbound)]
            split
            next hge => exact .cons hnot (ih (h.pass hsome hge))
            next hlt => exact .cons hnot (ih (h.store hsome (Nat.lt_of_not_le hlt)))

end Loop

/-! ### One frame -/

/-- What a call of `dsm_decode` does to the buffer. -/
structure Decodes (s s' : Decoder) (d : Decoded) : Prop where
  buf : ∀ i, s'.chan_buf i = (d.stores.lookup i).getD (s.chan_buf i)
  carries : ∀ i v, (i, v) ∈ d.stores → d.Carries i v
  range : d.accepted = true → ∀ i < s'.chan_count, InRange (s'.chan_buf i)
  state : s'.decode_state = s.decode_state

theorem after_nil (shift max_values count : ℕ) (buf : ℕ → ℕ) :
    After shift max_values count buf [] ⟨buf, count, 0, 0, []⟩ :=
  ⟨rfl, fun c => by simp [decoded], rfl, rfl, fun _ => rfl⟩

theorem After.carries {shift max_values count : ℕ} {buf : ℕ → ℕ} {before words : List ℕ} {l : Loop}
    (h : After shift max_values count buf before l) (hsub : before ⊆ words) (accepted : Bool)
    {i v : ℕ} (hstore : (i, v) ∈ l.stores) :
    (⟨words, shift, l.stores, accepted⟩ : Decoded).Carries i v := by
  rw [h.stores, List.mem_reverse, List.mem_map] at hstore
  obtain ⟨⟨c, v'⟩, hd, heq⟩ := hstore
  obtain ⟨hi, hv⟩ : assign c = i ∧ v' = v := Prod.mk.inj heq
  subst hv
  obtain ⟨raw, hraw, hdec⟩ := List.mem_filterMap.mp (List.mem_filter.mp hd).1
  exact ⟨raw, hsub hraw, c, hdec, hi⟩

theorem After.inRange {shift max_values count : ℕ} {buf : ℕ → ℕ} {before : List ℕ} {l : Loop}
    (h : After shift max_values count buf before l) {i v : ℕ} (hstore : (i, v) ∈ l.stores) :
    InRange v := by
  obtain ⟨raw, -, c, hdec, -⟩ := h.carries (List.Subset.refl before) true hstore
  exact (dsmDecodeChannel_spec hdec).2

theorem mem_of_lookup {stores : List (ℕ × ℕ)} {i v : ℕ} (h : stores.lookup i = some v) :
    (i, v) ∈ stores := by
  obtain ⟨l₁, l₂, rfl, -⟩ := List.lookup_eq_some_iff.mp h
  exact List.mem_append_right _ List.mem_cons_self

variable {s : Decoder} {frame_time : UInt64} {max_values : ℕ}

def loopOf (s : Decoder) (max_values : ℕ) : Loop × Verdict :=
  decodeLoop s.channel_shift max_values (words s.frame) ⟨s.chan_buf, s.chan_count, 0, 0, []⟩

theorem decodeFrame_fields :
    ((s.decodeFrame frame_time max_values).2.words = words s.frame ∧
      (s.decodeFrame frame_time max_values).2.shift = s.channel_shift ∧
      (s.decodeFrame frame_time max_values).2.stores = (loopOf s max_values).1.stores) ∧
    (s.decodeFrame frame_time max_values).1.chan_buf = (loopOf s max_values).1.values ∧
    (s.decodeFrame frame_time max_values).1.decode_state = s.decode_state := by
  have hloop : decodeLoop s.updateRssi.channel_shift max_values (words s.updateRssi.frame)
      ⟨s.updateRssi.chan_buf, s.updateRssi.chan_count, 0, 0, []⟩ = loopOf s max_values := rfl
  rw [Decoder.decodeFrame]
  dsimp only
  rw [hloop]
  cases (loopOf s max_values).2 with
  | done =>
    dsimp only
    split <;> exact ⟨⟨rfl, rfl, rfl⟩, rfl, rfl⟩
  | halfFailed => exact ⟨⟨rfl, rfl, rfl⟩, rfl, rfl⟩
  | duplicate => exact ⟨⟨rfl, rfl, rfl⟩, rfl, rfl⟩
  | outOfBounds => exact ⟨⟨rfl, rfl, rfl⟩, rfl, rfl⟩

theorem decodeFrame_accepted :
    ((s.decodeFrame frame_time max_values).2.accepted = true ↔ (loopOf s max_values).2 = .done ∧
      ∀ i < (loopOf s max_values).1.num_values, InRange ((loopOf s max_values).1.values i)) ∧
    ((s.decodeFrame frame_time max_values).2.accepted = true →
      (s.decodeFrame frame_time max_values).1.chan_count = (loopOf s max_values).1.num_values) := by
  have hloop : decodeLoop s.updateRssi.channel_shift max_values (words s.updateRssi.frame)
      ⟨s.updateRssi.chan_buf, s.updateRssi.chan_count, 0, 0, []⟩ = loopOf s max_values := rfl
  rw [Decoder.decodeFrame]
  dsimp only
  rw [hloop]
  cases (loopOf s max_values).2 with
  | done =>
    dsimp only
    split
    next hall => exact ⟨by simpa using hall, fun _ => rfl⟩
    next hall => exact ⟨by simpa using hall, fun h => absurd h (by simp)⟩
  | halfFailed => simp
  | duplicate => simp
  | outOfBounds => simp

theorem decodeFrame_decodes : Decodes s (s.decodeFrame frame_time max_values).1
    (s.decodeFrame frame_time max_values).2 := by
  obtain ⟨⟨hwords, hshift, hstores⟩, hbuf, hstate⟩ :=
    @decodeFrame_fields s frame_time max_values
  obtain ⟨haccepted, hcount⟩ := @decodeFrame_accepted s frame_time max_values
  have hspec : LoopSpec s.channel_shift max_values s.chan_count s.chan_buf [] (words s.frame)
      (loopOf s max_values) := decodeLoop_spec (after_nil _ _ _ _)
  -- the words up to which the loop has come
  obtain ⟨before, hsub, hafter⟩ : ∃ before, before ⊆ words s.frame ∧
      After s.channel_shift max_values s.chan_count s.chan_buf before (loopOf s max_values).1 := by
    obtain ⟨-, hafter, -⟩ | ⟨-, k, -, -, -, hafter⟩ := hspec
    · exact ⟨_, by simp, hafter⟩
    · exact ⟨_, by simpa using List.take_subset k _, hafter⟩
  refine ⟨?_, ?_, ?_, hstate⟩
  · intro i
    rw [hbuf, hstores]
    exact hafter.values i
  · intro i v hstore
    rw [hstores] at hstore
    obtain ⟨raw, hraw, c, hdec, hc⟩ := hafter.carries hsub true hstore
    refine ⟨raw, ?_, c, ?_, hc⟩
    · rw [hwords]
      exact hraw
    · rw [hshift]
      exact hdec
  · intro hd i hi
    rw [hcount hd] at hi
    rw [hbuf]
    exact (haccepted.mp hd).2 i hi

theorem accepted_or_unchanged
    (hclean : CleanWords s.channel_shift max_values s.chan_count s.chan_buf (words s.frame)) :
    (s.decodeFrame frame_time max_values).2.accepted = true ∨
      (s.decodeFrame frame_time max_values).2.stores = [] := by
  obtain ⟨⟨-, -, hstores⟩, -, -⟩ := @decodeFrame_fields s frame_time max_values
  obtain ⟨haccepted, -⟩ := @decodeFrame_accepted s frame_time max_values
  obtain ⟨hfirst, hall⟩ := hclean
  have hspec : LoopSpec s.channel_shift max_values s.chan_count s.chan_buf [] (words s.frame)
      (loopOf s max_values) := decodeLoop_spec (after_nil _ _ _ _)
  rw [hstores, haccepted]
  obtain ⟨hdone, hafter, hnone⟩ | ⟨-, k, hk, hrejects, hbefore, hafter⟩ := hspec
  · rw [List.nil_append] at hafter
    by_cases hempty : stored s.channel_shift max_values (words s.frame) = []
    · right
      rw [hafter.stores, hempty]
      rfl
    · refine .inl ⟨hdone, fun i hi => ?_⟩
      rw [hafter.num_values] at hi
      rw [hafter.values]
      cases hlookup : (loopOf s max_values).1.stores.lookup i with
      | some v => exact hafter.inRange (mem_of_lookup hlookup)
      | none =>
        refine (hall hnone hempty i hi).resolve_left fun hmem => ?_
        obtain ⟨d, hd, hi'⟩ := List.mem_map.mp hmem
        have hstore : (i, d.2) ∈ (loopOf s max_values).1.stores := by
          rw [hafter.stores, List.mem_reverse, List.mem_map]
          exact ⟨d, hd, by rw [hi']⟩
        exact absurd (List.lookup_eq_none_iff.mp hlookup _ hstore) (by simp)
  · right
    have hnothing := hfirst k hk hrejects hbefore
    rw [hafter.stores, List.nil_append, hnothing]
    rfl

theorem updateFormat_fields :
    (s.updateFormat frame_time).1.chan_buf = s.chan_buf ∧
      (s.updateFormat frame_time).1.chan_count = s.chan_count ∧
      (s.updateFormat frame_time).1.frame = s.frame ∧
      (s.updateFormat frame_time).1.decode_state = s.decode_state := by
  have hguess : ∀ s : Decoder, s.guessFormat.1.chan_buf = s.chan_buf ∧
      s.guessFormat.1.chan_count = s.chan_count ∧ s.guessFormat.1.frame = s.frame ∧
      s.guessFormat.1.decode_state = s.decode_state := by
    intro s
    unfold Decoder.guessFormat
    dsimp only
    split
    · exact ⟨rfl, rfl, rfl, rfl⟩
    · split
      · exact ⟨rfl, rfl, rfl, rfl⟩
      · split <;> exact ⟨rfl, rfl, rfl, rfl⟩
  have hreset : ∀ s s' : Decoder, s' = s ∨ s' = s.resetFormat → s'.chan_buf = s.chan_buf ∧
      s'.chan_count = s.chan_count ∧ s'.frame = s.frame ∧ s'.decode_state = s.decode_state := by
    rintro s s' (rfl | rfl) <;> exact ⟨rfl, rfl, rfl, rfl⟩
  unfold Decoder.updateFormat
  generalize hs₁ : (if frame_time - s.last_frame_time > 1000000 ∧ s.channel_shift ≠ 0 then
    s.resetFormat else s) = s₁
  obtain ⟨hbuf, hcount, hframe, hstate⟩ := hreset s s₁ (by
    rw [← hs₁]
    split
    · exact .inr rfl
    · exact .inl rfl)
  dsimp only
  split
  · obtain ⟨hbuf', hcount', hframe', hstate'⟩ := hguess s₁
    exact ⟨hbuf'.trans hbuf, hcount'.trans hcount, hframe'.trans hframe, hstate'.trans hstate⟩
  · exact ⟨hbuf, hcount, hframe, hstate⟩

theorem dsmDecode_decodes : Decodes s (s.dsmDecode frame_time max_values).1
    (s.dsmDecode frame_time max_values).2 := by
  obtain ⟨hbuf, hcount, hframe, hstate⟩ := @updateFormat_fields s frame_time
  unfold Decoder.dsmDecode
  generalize s.updateFormat frame_time = r at *
  obtain ⟨s₁, known⟩ := r
  dsimp only at hbuf hcount hframe hstate
  cases known with
  | false => exact ⟨fun i => by rw [hbuf]; rfl, by simp, by simp, hstate⟩
  | true =>
    have hdec := @decodeFrame_decodes s₁ frame_time max_values
    refine ⟨fun i => ?_, hdec.carries, hdec.range, hdec.state.trans hstate⟩
    rw [← hbuf]
    exact hdec.buf i

theorem dsmDecode_clean
    (hclean : (s.updateFormat frame_time).2 = true →
      CleanWords (s.updateFormat frame_time).1.channel_shift max_values s.chan_count s.chan_buf
        (words s.frame)) :
    (s.dsmDecode frame_time max_values).2.accepted = true ∨
      (s.dsmDecode frame_time max_values).2.stores = [] := by
  obtain ⟨hbuf, hcount, hframe, -⟩ := @updateFormat_fields s frame_time
  unfold Decoder.dsmDecode
  generalize s.updateFormat frame_time = r at *
  obtain ⟨s₁, known⟩ := r
  dsimp only at hbuf hcount hframe hclean
  cases known with
  | false => exact .inr rfl
  | true =>
    rw [← hbuf, ← hcount, ← hframe] at hclean
    exact accepted_or_unchanged (hclean rfl)

/-! ### Bytes -/

/-- The buffer holds what the frames have stored last, which they carry; and a frame that was not
accepted has stored nothing. -/
structure Sound (s : Decoder) (log : List Decoded) : Prop where
  buf : ∀ i, s.chan_buf i = ((lastStore log i).map Prod.snd).getD 0
  carries : ∀ d ∈ log, ∀ i v, (i, v) ∈ d.stores → d.Carries i v
  accepted : ∀ d ∈ log, d.accepted = true ∨ d.stores = []

/-- Once a frame has been accepted, the values stay in range until the next one has arrived. -/
def Ready (s : Decoder) (decode_ret : Bool) : Prop :=
  decode_ret = true → s.decode_state = .sync ∧ s.partial_frame_count < frameSize ∧
    ∀ i < s.chan_count, InRange (s.chan_buf i)

variable {now : UInt64} {byte : UInt8} {log : List Decoded} {decode_ret : Bool}

theorem Sound.congr {s' : Decoder} (h : Sound s log) (hbuf : s'.chan_buf = s.chan_buf) :
    Sound s' log := ⟨fun i => hbuf ▸ h.buf i, h.carries, h.accepted⟩

theorem Sound.decode (h : Sound s log) {s' : Decoder} {d : Decoded} (hdec : Decodes s s' d)
    (haccepted : d.accepted = true ∨ d.stores = []) : Sound s' (d :: log) := by
  refine ⟨fun i => ?_, ?_, ?_⟩
  · rw [hdec.buf, lastStore]
    cases d.stores.lookup i with
    | some v => rfl
    | none => exact h.buf i
  · exact List.forall_mem_cons.mpr ⟨hdec.carries, h.carries⟩
  · exact List.forall_mem_cons.mpr ⟨haccepted, h.accepted⟩

theorem limit_fields (s : Decoder) : s.limit.chan_buf = s.chan_buf := by
  unfold Decoder.limit
  dsimp only
  split <;> split <;> rfl

theorem parseByte_spec (h : Sound s log) (hready : Ready s decode_ret)
    (hclean : Clean now max_values s byte) :
    Sound (Decoder.parseByte now max_values s byte).1
        ((Decoder.parseByte now max_values s byte).2.toList ++ log) ∧
      Ready (Decoder.parseByte now max_values s byte).1
        (((Decoder.parseByte now max_values s byte).2.map Decoded.accepted).getD decode_ret) := by
  have hlimit : Sound s.limit log := h.congr (limit_fields s)
  -- after a frame has been accepted there is room for the next one
  have hkeep : decode_ret = true → s.limit = s := by
    intro hret
    obtain ⟨-, hroom, -⟩ := hready hret
    unfold frameSize at hroom
    have h₁ : s.partial_frame_count ≠ bufferSize := by
      unfold bufferSize frameSize
      omega
    have h₂ : s.partial_frame_count ≠ frameSize := by
      unfold frameSize
      omega
    rw [Decoder.limit, if_neg h₁, if_neg h₂]
  unfold Clean at hclean
  rw [Decoder.parseByte]
  cases hstate : s.limit.decode_state with
  | desync =>
    have hnot : decode_ret = false := by
      by_contra hret
      rw [Bool.not_eq_false] at hret
      rw [hkeep hret, (hready hret).1] at hstate
      exact nomatch hstate
    dsimp only
    split
    · exact ⟨hlimit.congr rfl, fun hret => absurd (hnot.symm.trans hret) (by decide)⟩
    · exact ⟨hlimit, fun hret => absurd (hnot.symm.trans hret) (by decide)⟩
  | sync =>
    dsimp only
    split
    next hroom =>
      refine ⟨hlimit.congr rfl, fun hret => ⟨hstate, hroom, ?_⟩⟩
      have hrange := (hready hret).2.2
      rw [← hkeep hret] at hrange
      exact hrange
    next hfull =>
      have hdec := @dsmDecode_decodes (s.limit.push byte) now max_values
      have hbuf : (s.limit.push byte).chan_buf = s.chan_buf := limit_fields s
      have haccepted := @dsmDecode_clean (s.limit.push byte) now max_values fun hknown =>
        hbuf ▸ hclean hstate (Nat.le_of_not_lt hfull) hknown
      have hsound := (h.congr hbuf).decode hdec haccepted
      split
      next hok =>
        refine ⟨hsound.congr rfl, fun _ => ⟨hdec.state.trans hstate, Nat.zero_lt_succ 15, ?_⟩⟩
        exact hdec.range hok
      next hok => exact ⟨hsound.congr rfl, fun hret => absurd hret hok⟩

/-- The value of `decode_ret` after some frames. -/
def retAfter (decode_ret : Bool) (ds : List Decoded) : Bool :=
  (ds.getLast?.map Decoded.accepted).getD decode_ret

theorem retAfter_cons (d : Option Decoded) (ds : List Decoded) :
    retAfter decode_ret (d.toList ++ ds) =
      retAfter ((d.map Decoded.accepted).getD decode_ret) ds := by
  cases d with
  | none => rfl
  | some d =>
    cases ds with
    | nil => rfl
    | cons e ds =>
      change ((d :: e :: ds).getLast?.map _).getD _ = ((e :: ds).getLast?.map _).getD _
      rw [List.getLast?_cons_cons, List.getLast?_cons]
      rfl

theorem feed_spec {bytes : List UInt8} (h : Sound s log) (hready : Ready s decode_ret)
    (hclean : Trace.Always (fun s b => (Decoder.parseByte now max_values s b).1)
      (Clean now max_values) s bytes) :
    Sound (Mealy.feed (Decoder.parseByte now max_values) s bytes).1
        (((Mealy.feed (Decoder.parseByte now max_values) s bytes).2.filterMap id).reverse ++ log) ∧
      Ready (Mealy.feed (Decoder.parseByte now max_values) s bytes).1
        (retAfter decode_ret
          ((Mealy.feed (Decoder.parseByte now max_values) s bytes).2.filterMap id)) := by
  induction bytes generalizing s log decode_ret with
  | nil => exact ⟨h, hready⟩
  | cons b bytes ih =>
    obtain ⟨hsound, hready'⟩ := parseByte_spec h hready hclean.1
    obtain ⟨hsound', hready''⟩ := ih hsound hready' hclean.2
    have hfilter : ((Decoder.parseByte now max_values s b).2 ::
        (Mealy.feed (Decoder.parseByte now max_values)
          (Decoder.parseByte now max_values s b).1 bytes).2).filterMap id =
        (Decoder.parseByte now max_values s b).2.toList ++
          (Mealy.feed (Decoder.parseByte now max_values)
            (Decoder.parseByte now max_values s b).1 bytes).2.filterMap id := by
      cases (Decoder.parseByte now max_values s b).2 <;> rfl
    rw [Mealy.feed_cons, hfilter, retAfter_cons]
    refine ⟨?_, hready''⟩
    have hlog : ((Decoder.parseByte now max_values s b).2.toList ++
        (Mealy.feed (Decoder.parseByte now max_values)
          (Decoder.parseByte now max_values s b).1 bytes).2.filterMap id).reverse ++ log =
        ((Mealy.feed (Decoder.parseByte now max_values)
          (Decoder.parseByte now max_values s b).1 bytes).2.filterMap id).reverse ++
            ((Decoder.parseByte now max_values s b).2.toList ++ log) := by
      cases (Decoder.parseByte now max_values s b).2 <;> simp
    rw [hlog]
    exact hsound'

/-! ### Calls -/

theorem lastStore_mem {i v : ℕ} {d : Decoded} (h : lastStore log i = some (d, v)) :
    d ∈ log ∧ (i, v) ∈ d.stores := by
  induction log with
  | nil => exact absurd h (by simp [lastStore])
  | cons e log ih =>
    rw [lastStore] at h
    cases hlookup : e.stores.lookup i with
    | some w =>
      rw [hlookup] at h
      obtain ⟨rfl, rfl⟩ : e = d ∧ w = v := by simpa using h
      exact ⟨List.mem_cons_self, mem_of_lookup hlookup⟩
    | none =>
      rw [hlookup] at h
      exact ⟨List.mem_cons_of_mem _ (ih h).1, (ih h).2⟩

theorem Sound.origin (h : Sound s log) {i : ℕ} (hrange : InRange (s.chan_buf i)) :
    ∃ d, lastStore log i = some (d, s.chan_buf i) ∧ d.accepted = true ∧
      d.Carries i (s.chan_buf i) := by
  have hbuf := h.buf i
  cases hlast : lastStore log i with
  | none =>
    rw [hlast] at hbuf
    rw [hbuf] at hrange
    exact nomatch hrange
  | some dv =>
    obtain ⟨d, v⟩ := dv
    rw [hlast] at hbuf
    obtain rfl : s.chan_buf i = v := hbuf
    obtain ⟨hmem, hstore⟩ := lastStore_mem hlast
    refine ⟨d, rfl, (h.accepted d hmem).resolve_right fun hnil => ?_, h.carries d hmem i _ hstore⟩
    rw [hnil] at hstore
    exact nomatch hstore

theorem sound_step {w : Watched} {e : Event} (h : Sound w.decoder w.log) (hclean : CleanStep w e) :
    Intact w e ∧ Sound (w.step e).decoder (w.step e).log := by
  cases e with
  | protoInit => exact ⟨trivial, fun i => rfl, by simp [Watched.step], by simp [Watched.step]⟩
  | config now => exact ⟨trivial, h.congr rfl⟩
  | parse now bytes max_channels =>
    have hready : Ready w.decoder false := fun hret => nomatch hret
    obtain ⟨hsound, hready'⟩ := feed_spec h hready hclean
    refine ⟨fun out hout i v hv => ?_, ?_⟩
    · simp only [Decoder.dsmParse, Option.ite_none_right_eq_some, Option.some.injEq] at hout
      obtain ⟨⟨hret, -⟩, rfl⟩ := hout
      rw [List.getElem?_map, Option.map_eq_some_iff] at hv
      obtain ⟨j, hj, rfl⟩ := hv
      obtain ⟨hlt, hij⟩ := List.getElem?_eq_some_iff.mp hj
      rw [List.length_range] at hlt
      rw [List.getElem_range] at hij
      subst hij
      have hrange := (hready' hret).2.2 i hlt
      exact ⟨hrange, hsound.origin hrange⟩
    · refine hsound.congr ?_
      simp only [Watched.step, Decoder.dsmParse]
      split <;> rfl

/-- From `dsm_proto_init` on, in every run all of whose frames are clean, every value that is put
out is in range and comes from a frame that was accepted. -/
theorem outputs_intact {s : Decoder} {es : List Event}
    (hclean : Trace.Always Watched.step CleanStep ⟨s.dsmProtoInit, []⟩ es) :
    Trace.Always Watched.step Intact ⟨s.dsmProtoInit, []⟩ es :=
  Trace.always_of_invariant (I := fun w => Sound w.decoder w.log)
    (fun _ _ h hclean => sound_step h hclean) ⟨fun _ => rfl, by simp, by simp⟩ hclean

def Decoder.initial : Decoder :=
  ⟨.desync, 0, 0, fun _ => 0, fun _ => 0, 0, 0, 0, 0, 0, 0, 0, 0, false, none⟩

def frameOf (words : List ℕ) : List UInt8 :=
  [0, 0] ++ words.flatMap fun w => [UInt8.ofNat (w / 256), UInt8.ofNat w]

def middle (channels : List ℕ) : List ℕ := channels.map fun c => c * 2048 + 1024

/-- The call for the frame with the number `k`. -/
def call (k : ℕ) (words : List ℕ) : Event := .parse (UInt64.ofNat (10000 * k)) (frameOf words) 18

/-- Ten frames to guess the format, and two more. -/
theorem outputs_intact_example :
    Trace.Always Watched.step Intact ⟨Decoder.initial.dsmProtoInit, []⟩
      ((List.range 12).map fun k => call (k + 1) (middle [0, 1, 2, 3, 4, 5, 6])) := by
  refine outputs_intact ?_
  decide +kernel

/-- Eleven frames, and then one that has a channel, four words that cannot be decoded and another
channel; it is rejected. -/
def residueRun : List Event :=
  ((List.range 11).map fun k => call (k + 1) (middle [0, 1, 2, 3, 4, 5, 6])) ++
    [call 12 ([100] ++ middle [13, 13, 13, 13, 1, 2])]

/-- The next frame does not have the first channel of the one that was rejected. -/
theorem not_intact_after_residue :
    ¬ Trace.Always Watched.step Intact ⟨Decoder.initial.dsmProtoInit, []⟩
      (residueRun ++ [call 13 (middle [1, 2, 3, 4, 5, 6] ++ [0])]) := by
  intro h
  have hlast := ((Trace.always_append _ _ _).mp h).2.1
  obtain ⟨-, d, hstore, haccepted, -⟩ := hlast [1500, 1500, 961, 1500, 1500, 1500, 1500]
    (by decide +kernel) 2 961 rfl
  have hrejected : (lastStore ((Trace.run Watched.step ⟨Decoder.initial.dsmProtoInit, []⟩
      residueRun).logAfter (UInt64.ofNat (10000 * 13)) (frameOf (middle [1, 2, 3, 4, 5, 6] ++ [0]))
        18) 2).map (fun d => d.1.accepted) = some false := by
    decide +kernel
  rw [hstore, Option.map_some, haccepted] at hrejected
  exact nomatch hrejected

end Dsm
