/-
Which channel a word of a frame of a Spektrum receiver goes to.

With 11 bits a word has a channel id; the channels from 12 on share one id, and are told apart by
the X-Plus index and the phase.  The phase is the highest bit, but the mask for it is zero.  The
channels of a frame are marked in a bitset, for which the highest channel that is let through is one
too many.

* `dsmDecodeChannel_eleven` — the channel of a word, as it is decoded;
* `mem_bitsetIndices` — the words whose channels are looked up;
* **`addressed_iff`** — the words of a frame go where they should if none has the phase bit in an
  X-Plus channel, or only where it does no harm, and with 10 bits none has the channel 18.
-/
import AerialManipulator.Rc.DsmIntegrity

open ByteStore

namespace Dsm

/-! ### Words -/

/-- A word that the receiver leaves empty. -/
def Blank (w : ℕ) : Prop := w = 0 ∨ w = 0xffff

instance : DecidablePred Blank := fun w => inferInstanceAs (Decidable (w = 0 ∨ w = 0xffff))

def chanId (w : ℕ) : ℕ := (w >>> 11) &&& 0x0f

def xPlus (w : ℕ) : ℕ := (w >>> 9) &&& 0x03

def phase (w : ℕ) : Bool := w.testBit 15

def address (w : ℕ) : ℕ × Bool × ℕ :=
  if chanId w = 12 then (12, phase w, xPlus w) else (chanId w, false, 0)

/-! ### Accesses -/

/-- The positions of the bitset that are looked up in the loop of `dsm_decode`. -/
def bitsetIndices (shift max_values : ℕ) : List ℕ → Loop → List ℕ
  | [], _ => []
  | raw :: words, l =>
    if raw = 0 ∨ raw = 0xffff then bitsetIndices shift max_values words l
    else
      match dsmDecodeChannel raw shift with
      | none => bitsetIndices shift max_values words { l with failures := l.failures + 1 }
      | some (channel, value) =>
        if l.failures ≥ 4 then []
        else if l.found.testBit channel then [channel]
        else
          let l := { l with found := l.found ||| (1 <<< channel) }
          if channel > maxChannelCount then [channel]
          else if channel ≥ max_values then channel :: bitsetIndices shift max_values words l
          else channel :: bitsetIndices shift max_values words (l.store channel value)

/-- `ARRAY_SIZE` of the bitset. -/
def bitsetArraySize : ℕ := maxChannelCount / 8 + 1

def Decoder.bitset (s : Decoder) (max_values : ℕ) : List ℕ :=
  bitsetIndices s.channel_shift max_values (words s.frame) ⟨s.chan_buf, s.chan_count, 0, 0, []⟩

/-- The indices at which the values are stored, and those at which they are checked. -/
def Decoder.valueIndices (s : Decoder) (max_values : ℕ) : List ℕ :=
  (loopOf s max_values).1.stores.map Prod.fst ++ List.range (loopOf s max_values).1.num_values

/-! ### What is promised, and when -/

/-- Every word that is not empty goes to the channel of its address; no index is out of range. -/
structure Addressed (s : Decoder) (max_values : ℕ) : Prop where
  accepted : s.channel_shift = 11 → ∀ w ∈ words s.frame, ¬ Blank w →
    ((dsmDecodeChannel w 11).isSome ↔ chanId w ≤ 12)
  normal : s.channel_shift = 11 → ∀ w ∈ words s.frame, ∀ d, dsmDecodeChannel w 11 = some d →
    chanId w < 12 → d.1 = chanId w
  xplus : s.channel_shift = 11 → ∀ w ∈ words s.frame, ∀ d, dsmDecodeChannel w 11 = some d →
    chanId w = 12 → 12 + xPlus w + 4 * (phase w).toNat < maxChannelCount →
      d.1 = 12 + xPlus w + 4 * (phase w).toNat
  distinct : s.channel_shift = 11 → ∀ w ∈ words s.frame, ∀ w' ∈ words s.frame, ∀ d d',
    dsmDecodeChannel w 11 = some d → dsmDecodeChannel w' 11 = some d' → address w ≠ address w' →
      d.1 ≠ d'.1
  bitset : ∀ i ∈ s.bitset max_values, i < maxChannelCount
  values : ∀ i ∈ s.valueIndices max_values, i < maxChannelCount

/-- The loop looks up the channel of a word: the frame has not been given up before. -/
def LooksUp (shift : ℕ) (ws : List ℕ) (k : ℕ) : Prop :=
  Dsm.failures shift (ws.take k) < 4 ∧ ∀ j < k, ¬ Rejects shift (ws.take j) (ws.getD j 0)

/-- With 11 bits, an X-Plus word with the phase bit would not have a channel, and none without it
has its index; with 10 bits, no word that is looked up has the channel 18. -/
structure Proper (s : Decoder) : Prop where
  phase : s.channel_shift = 11 → ∀ w ∈ words s.frame, ¬ Blank w → chanId w = 12 →
    phase w = true → 2 ≤ xPlus w ∧ ∀ w' ∈ words s.frame, ¬ Blank w' → chanId w' = 12 →
      phase w' = false → xPlus w' ≠ xPlus w
  bound : s.channel_shift = 10 → ∀ k < frameChannels, LooksUp 10 (words s.frame) k →
    ¬ Blank ((words s.frame).getD k 0) →
      ((words s.frame).getD k 0 &&& 0xfc00) >>> 10 ≠ maxChannelCount

/-! ### One word -/

section Word

variable {w : ℕ}

theorem inRange_eleven : ∀ p < 2048, InRange (scaled p 24 + offset) := by decide +kernel

theorem inRange_ten : ∀ p < 1024, InRange (scaled p 23 + offset) := by decide +kernel

theorem xPlus_le : xPlus w ≤ 3 := Nat.and_le_right

theorem dsmDecodeChannel_eleven (hw : ¬ Blank w) : (dsmDecodeChannel w 11).map Prod.fst =
    if chanId w < 12 then some (chanId w)
    else if chanId w = 12 then some (12 + xPlus w) else none := by
  have hphase : w &&& 2 >>> 15 = 0 := Nat.and_zero w
  have hposition : w &&& 0x07ff < 2048 := Nat.lt_succ_of_le Nat.and_le_right
  have hxposition : (w &&& 0x01ff) <<< 2 < 2048 := by
    have hle : w &&& 0x01ff ≤ 0x01ff := Nat.and_le_right
    rw [Nat.shiftLeft_eq]
    omega
  have hx := @xPlus_le w
  unfold Blank at hw
  unfold chanId
  unfold xPlus at hx ⊢
  unfold dsmDecodeChannel
  rw [if_neg hw, if_neg (by decide), if_pos rfl]
  dsimp only
  rw [hphase]
  by_cases hnormal : (w >>> 11) &&& 0x0f < 12
  · rw [if_pos hnormal, if_pos hnormal]
    dsimp only
    rw [if_pos (inRange_eleven _ hposition)]
    rfl
  · rw [if_neg hnormal, if_neg hnormal]
    by_cases hxplus : (w >>> 11) &&& 0x0f = 12
    · have hle : ¬ ((w >>> 11) &&& 0x0f) + ((w >>> 9) &&& 0x03) + 0 > maxChannelCount := by
        unfold maxChannelCount
        omega
      rw [if_pos hxplus, if_pos hxplus, if_neg (not_not.mpr rfl), if_neg hle]
      dsimp only
      rw [if_pos (inRange_eleven _ hxposition), hxplus]
      rfl
    · rw [if_neg hxplus, if_neg hxplus]
      rfl

theorem dsmDecodeChannel_blank {shift : ℕ} (hw : Blank w) : dsmDecodeChannel w shift = none := by
  unfold dsmDecodeChannel
  exact if_pos hw

theorem dsmDecodeChannel_ten (hw : ¬ Blank w) : (dsmDecodeChannel w 10).map Prod.fst =
    if (w &&& 0xfc00) >>> 10 > maxChannelCount then none else some ((w &&& 0xfc00) >>> 10) := by
  have hposition : w &&& 0x03ff < 1024 := Nat.lt_succ_of_le Nat.and_le_right
  unfold Blank at hw
  unfold dsmDecodeChannel
  rw [if_neg hw, if_pos rfl]
  dsimp only
  by_cases hmax : (w &&& 0xfc00) >>> 10 > maxChannelCount
  · rw [if_pos hmax, if_pos hmax]
    rfl
  · rw [if_neg hmax, if_neg hmax, if_pos (inRange_ten _ hposition)]
    rfl

theorem dsmDecodeChannel_other {shift : ℕ} (h10 : shift ≠ 10) (h11 : shift ≠ 11) :
    dsmDecodeChannel w shift = none := by
  unfold dsmDecodeChannel
  rw [if_neg h10, if_neg h11, ite_self]

theorem eleven_cases {d : ℕ × ℕ} (h : dsmDecodeChannel w 11 = some d) :
    ¬ Blank w ∧ (chanId w < 12 ∧ d.1 = chanId w ∨ chanId w = 12 ∧ d.1 = 12 + xPlus w) := by
  have hblank : ¬ Blank w := fun hw => nomatch (dsmDecodeChannel_blank hw).symm.trans h
  have hmap := dsmDecodeChannel_eleven hblank
  rw [h, Option.map_some] at hmap
  refine ⟨hblank, ?_⟩
  split_ifs at hmap with hnormal hxplus
  · exact .inl ⟨hnormal, Option.some.inj hmap⟩
  · exact .inr ⟨hxplus, Option.some.inj hmap⟩

theorem isSome_eleven (hw : ¬ Blank w) : (dsmDecodeChannel w 11).isSome ↔ chanId w ≤ 12 := by
  rw [← Option.isSome_map, dsmDecodeChannel_eleven hw]
  split_ifs with hnormal hxplus
  · exact iff_of_true rfl hnormal.le
  · exact iff_of_true rfl hxplus.le
  · exact iff_of_false Bool.false_ne_true (by omega)

end Word

/-! ### The loop -/

section Loop

variable {shift max_values count : ℕ} {buf : ℕ → ℕ} {before ws : List ℕ} {l : Loop} {w : ℕ}

/-- The word at an index is looked up, and its channel is this one. -/
def LooksUpAt (shift : ℕ) (before ws : List ℕ) (i k : ℕ) : Prop :=
  (∃ d, dsmDecodeChannel (ws.getD k 0) shift = some d ∧ d.1 = i) ∧
    Dsm.failures shift (before ++ ws.take k) < 4 ∧
    ∀ j < k, ¬ Rejects shift (before ++ ws.take j) (ws.getD j 0)

theorem looksUpAt_cons {i : ℕ} :
    (∃ k < (w :: ws).length, LooksUpAt shift before (w :: ws) i k) ↔
      ((∃ d, dsmDecodeChannel w shift = some d ∧ d.1 = i) ∧ Dsm.failures shift before < 4) ∨
        (¬ Rejects shift before w ∧ ∃ k < ws.length, LooksUpAt shift (before ++ [w]) ws i k) := by
  constructor
  · rintro ⟨k, hk, hsome, hfailures, hrejects⟩
    cases k with
    | zero =>
      rw [List.take_zero, List.append_nil] at hfailures
      exact .inl ⟨hsome, hfailures⟩
    | succ k =>
      have hfirst := hrejects 0 (Nat.succ_pos k)
      rw [List.take_zero, List.append_nil] at hfirst
      rw [List.take_succ_cons, List.append_cons] at hfailures
      refine .inr ⟨hfirst, k, Nat.lt_of_succ_lt_succ hk, hsome, hfailures, fun j hj => ?_⟩
      have hnext := hrejects (j + 1) (Nat.succ_lt_succ hj)
      rwa [List.take_succ_cons, List.append_cons] at hnext
  · rintro (⟨hsome, hfailures⟩ | ⟨hfirst, k, hk, hsome, hfailures, hrejects⟩)
    · refine ⟨0, Nat.succ_pos _, hsome, ?_, fun j hj => nomatch hj⟩
      rwa [List.take_zero, List.append_nil]
    · refine ⟨k + 1, Nat.succ_lt_succ hk, hsome, ?_, fun j hj => ?_⟩
      · rwa [List.take_succ_cons, List.append_cons]
      · cases j with
        | zero => rwa [List.take_zero, List.append_nil]
        | succ j =>
          rw [List.take_succ_cons, List.append_cons]
          exact hrejects j (Nat.lt_of_succ_lt_succ hj)

theorem not_rejects_of_none {before : List ℕ} {w : ℕ} (hnone : dsmDecodeChannel w shift = none) :
    ¬ Rejects shift before w := by
  rintro ⟨d, hd, -⟩
  exact Option.some_ne_none d (hd.symm.trans hnone)

theorem mem_bitsetIndices {i : ℕ} (ws : List ℕ) : ∀ {before : List ℕ} {l : Loop},
    After shift max_values count buf before l →
    (i ∈ bitsetIndices shift max_values ws l ↔ ∃ k < ws.length, LooksUpAt shift before ws i k) := by
  induction ws with
  | nil =>
    intro before l h
    refine iff_of_false List.not_mem_nil ?_
    rintro ⟨k, hk, -⟩
    exact Nat.not_lt_zero k hk
  | cons w ws ih =>
    intro before l h
    rw [looksUpAt_cons, bitsetIndices]
    split
    next hblank =>
      have hnone : dsmDecodeChannel w shift = none := dsmDecodeChannel_blank hblank
      have hzero : Dsm.failures shift [w] = 0 := by
        rw [Dsm.failures, List.countP_eq_zero]
        intro x hx
        rw [List.mem_singleton.mp hx]
        rcases hblank with rfl | rfl <;> simp
      have hskip := h.skip hnone
      rw [hzero, Nat.add_zero] at hskip
      rw [ih hskip, hnone]
      simp [not_rejects_of_none hnone]
    next hword =>
      split
      next hnone =>
        have hone : Dsm.failures shift [w] = 1 := by
          rw [not_or] at hword
          simp [Dsm.failures, hnone, hword.1, hword.2]
        have hskip := h.skip hnone
        rw [hone] at hskip
        rw [ih hskip, hnone]
        simp [not_rejects_of_none hnone]
      next channel value hsome =>
        have hfirst : (∃ d, dsmDecodeChannel w shift = some d ∧ d.1 = i) ↔ i = channel := by
          rw [hsome]
          constructor
          · rintro ⟨d, hd, rfl⟩
            rw [← Option.some.inj hd]
          · rintro rfl
            exact ⟨_, rfl, rfl⟩
        rw [hfirst]
        have hfailed := h.failures
        split
        next hfail =>
          have hrejects : Rejects shift before w := ⟨_, hsome, .inl (hfailed ▸ hfail)⟩
          refine iff_of_false List.not_mem_nil ?_
          rintro (⟨-, hlt⟩ | ⟨hnot, -⟩)
          · omega
          · exact hnot hrejects
        next hfail =>
          have hlt : Dsm.failures shift before < 4 := by omega
          split
          next hfound =>
            have hrejects : Rejects shift before w :=
              ⟨_, hsome, .inr ((h.found channel).mp hfound)⟩
            simp [hrejects, hlt]
          next hfound =>
            have hnot : ¬ Rejects shift before w := by
              rintro ⟨d, hd, hreason⟩
              obtain rfl : (channel, value) = d := Option.some.inj (hsome.symm.trans hd)
              rcases hreason with hreason | hreason
              · exact hfail (hfailed ▸ hreason)
              · exact hfound ((h.found channel).mpr hreason)
            have hbound := (dsmDecodeChannel_spec hsome).1
            dsimp only
            rw [if_neg (Nat.not_lt.mpr hbound)]
            split
            next hge => simp [ih (h.pass hsome hge), hnot, hlt]
            next hge => simp [ih (h.store hsome (Nat.lt_of_not_le hge)), hnot, hlt]

theorem assign_lt {c : ℕ} (hc : c < maxChannelCount) : assign c < maxChannelCount := by
  unfold assign
  split
  · decide
  · decide
  · decide
  · exact hc

/-- The number of values, and where they are stored, stay below the number of channels. -/
theorem decodeLoop_bounded (hmax : max_values ≤ maxChannelCount) (ws : List ℕ) : ∀ {l : Loop},
    l.num_values ≤ maxChannelCount → (∀ d ∈ l.stores, d.1 < maxChannelCount) →
    (decodeLoop shift max_values ws l).1.num_values ≤ maxChannelCount ∧
      ∀ d ∈ (decodeLoop shift max_values ws l).1.stores, d.1 < maxChannelCount := by
  induction ws with
  | nil => exact fun hcount hstores => ⟨hcount, hstores⟩
  | cons w ws ih =>
    intro l hcount hstores
    unfold decodeLoop
    split
    · exact ih hcount hstores
    · split
      · exact ih hcount hstores
      · dsimp only
        split_ifs with _ _ _ hge
        · exact ⟨hcount, hstores⟩
        · exact ⟨hcount, hstores⟩
        · exact ⟨hcount, hstores⟩
        · exact ih hcount hstores
        next channel value _ _ _ =>
          have hlt : channel < maxChannelCount := (not_le.mp hge).trans_le hmax
          refine ih ?_ ?_
          · unfold Loop.store
            dsimp only
            split_ifs <;> omega
          · intro d hd
            rcases List.mem_cons.mp hd with rfl | hd
            · exact assign_lt hlt
            · exact hstores d hd

end Loop

/-! ### States in which a frame is decoded -/

/-- The decoder between two calls. -/
inductive Reachable : Decoder → Prop
  | initial : Reachable Decoder.initial
  | protoInit {s : Decoder} (hs : Reachable s) : Reachable s.dsmProtoInit
  | config {s : Decoder} (hs : Reachable s) (now : UInt64) : Reachable (s.dsmConfig now)
  | parse {s : Decoder} (hs : Reachable s) (now : UInt64) (bytes : List UInt8) (max_channels : ℕ) :
      Reachable (s.dsmParse now bytes max_channels).1

/-- The decoder, when it has found the format of a frame, and how many values it may store. -/
inductive Decoding : Decoder → ℕ → Prop
  | frame {s : Decoder} (hs : Reachable s) {now : UInt64} {max_channels : ℕ} {bytes : List UInt8}
      (byte : UInt8) {s' : Decoder}
      (hs' : (Mealy.feed (Decoder.parseByte now (Decoder.clampChannels max_channels)) s bytes).1 =
        s')
      (hsync : s'.limit.decode_state = .sync) (hfull : frameSize ≤ s'.limit.partial_frame_count + 1)
      (hknown : ((s'.limit.push byte).updateFormat now).2 = true) :
      Decoding ((s'.limit.push byte).updateFormat now).1 (Decoder.clampChannels max_channels)

section Reach

variable {s : Decoder} (now : UInt64) {max_values : ℕ}

theorem clampChannels_le (max_channels : ℕ) :
    Decoder.clampChannels max_channels ≤ maxChannelCount := by
  unfold Decoder.clampChannels
  split
  · exact le_rfl
  next h => exact not_lt.mp h

theorem limit_chan_count (s : Decoder) : s.limit.chan_count = s.chan_count := by
  unfold Decoder.limit
  dsimp only
  split <;> split <;> rfl

theorem decodeFrame_chan_count (hmax : max_values ≤ maxChannelCount)
    (hs : s.chan_count ≤ maxChannelCount) :
    (s.decodeFrame now max_values).1.chan_count ≤ maxChannelCount := by
  have hloop := (@decodeLoop_bounded s.channel_shift _ hmax (words s.frame)
    ⟨s.chan_buf, s.chan_count, 0, 0, []⟩ hs fun d hd => nomatch hd).1
  unfold Decoder.decodeFrame Decoder.updateRssi
  dsimp only
  generalize decodeLoop s.channel_shift max_values (words s.frame)
    ⟨s.chan_buf, s.chan_count, 0, 0, []⟩ = r at hloop ⊢
  obtain ⟨l, verdict⟩ := r
  cases verdict with
  | halfFailed => exact hloop
  | duplicate => exact hloop
  | outOfBounds => exact hloop
  | done =>
    dsimp only
    split
    · exact hloop
    · exact Nat.zero_le _

theorem dsmDecode_chan_count (hmax : max_values ≤ maxChannelCount)
    (hs : s.chan_count ≤ maxChannelCount) :
    (s.dsmDecode now max_values).1.chan_count ≤ maxChannelCount := by
  have hcount : (s.updateFormat now).1.chan_count ≤ maxChannelCount :=
    (@updateFormat_fields s now).2.1 ▸ hs
  unfold Decoder.dsmDecode
  generalize s.updateFormat now = r at *
  obtain ⟨s', known⟩ := r
  cases known with
  | false => exact hcount
  | true => exact decodeFrame_chan_count now hmax hcount

theorem parseByte_chan_count {byte : UInt8} (hmax : max_values ≤ maxChannelCount)
    (hs : s.chan_count ≤ maxChannelCount) :
    (Decoder.parseByte now max_values s byte).1.chan_count ≤ maxChannelCount := by
  have hlimit : s.limit.chan_count ≤ maxChannelCount := limit_chan_count s ▸ hs
  rw [Decoder.parseByte]
  cases s.limit.decode_state with
  | desync =>
    dsimp only
    split
    · exact Nat.zero_le _
    · exact hlimit
  | sync =>
    dsimp only
    split
    · exact hlimit
    · have hdecode := @dsmDecode_chan_count (s.limit.push byte) now _ hmax hlimit
      split <;> exact hdecode

theorem feed_chan_count (hmax : max_values ≤ maxChannelCount) (bytes : List UInt8) :
    ∀ {s : Decoder}, s.chan_count ≤ maxChannelCount →
      (Mealy.feed (Decoder.parseByte now max_values) s bytes).1.chan_count ≤ maxChannelCount := by
  induction bytes with
  | nil => exact fun hs => hs
  | cons byte bytes ih => exact fun hs => ih (parseByte_chan_count now hmax hs)

theorem Reachable.chan_count (hs : Reachable s) : s.chan_count ≤ maxChannelCount := by
  induction hs with
  | initial => exact Nat.zero_le _
  | protoInit => exact Nat.zero_le _
  | config _ _ ih => exact ih
  | parse _ now bytes max_channels ih =>
    have hfeed := feed_chan_count now (clampChannels_le max_channels) bytes ih
    unfold Decoder.dsmParse
    dsimp only
    split <;> exact hfeed

theorem Decoding.bounded (hs : Decoding s max_values) :
    s.chan_count ≤ maxChannelCount ∧ max_values ≤ maxChannelCount := by
  cases hs with
  | @frame _ hs now max_channels bytes byte s' hs' _ _ _ =>
    have hmax := clampChannels_le max_channels
    refine ⟨?_, hmax⟩
    have hcount : (s'.limit.push byte).chan_count ≤ maxChannelCount := by
      have hfeed := feed_chan_count now hmax bytes hs.chan_count
      rw [hs', ← limit_chan_count s'] at hfeed
      exact hfeed
    exact (@updateFormat_fields (s'.limit.push byte) now).2.1 ▸ hcount

end Reach

/-! ### The frame -/

section Frame

variable {s : Decoder} {max_values : ℕ}

theorem mem_bitset {i : ℕ} : i ∈ s.bitset max_values ↔
    ∃ k < frameChannels, LooksUp s.channel_shift (words s.frame) k ∧
      ∃ d, dsmDecodeChannel ((words s.frame).getD k 0) s.channel_shift = some d ∧ d.1 = i := by
  have hlength : (words s.frame).length = frameChannels := by
    rw [words, List.length_map, List.length_range]
  unfold Decoder.bitset
  rw [mem_bitsetIndices _ (after_nil _ _ _ _), hlength]
  exact exists_congr fun k => and_congr_right fun _ => and_comm

theorem bitset_memory {i : ℕ} (hi : i ∈ s.bitset max_values) : i / 8 < bitsetArraySize := by
  obtain ⟨k, -, -, d, hd, rfl⟩ := mem_bitset.mp hi
  exact (Nat.div_le_div_right (dsmDecodeChannel_spec hd).1).trans_lt (by decide)

theorem values_bounded (hcount : s.chan_count ≤ maxChannelCount)
    (hmax : max_values ≤ maxChannelCount) {i : ℕ} (hi : i ∈ s.valueIndices max_values) :
    i < maxChannelCount := by
  obtain ⟨hnum, hstores⟩ := @decodeLoop_bounded s.channel_shift _ hmax (words s.frame)
    ⟨s.chan_buf, s.chan_count, 0, 0, []⟩ hcount fun d hd => nomatch hd
  rcases List.mem_append.mp hi with hi | hi
  · obtain ⟨d, hd, rfl⟩ := List.mem_map.mp hi
    exact hstores d hd
  · exact (List.mem_range.mp hi).trans_le hnum

theorem decoded_xPlus {w : ℕ} (hw : ¬ Blank w) (hid : chanId w = 12) :
    ∃ d, dsmDecodeChannel w 11 = some d ∧ d.1 = 12 + xPlus w := by
  obtain ⟨d, hd⟩ := Option.isSome_iff_exists.mp ((isSome_eleven hw).mpr hid.le)
  obtain ⟨-, ⟨hlt, -⟩ | ⟨-, hchannel⟩⟩ := eleven_cases hd
  · exact absurd hid hlt.ne
  · exact ⟨d, hd, hchannel⟩

theorem address_xPlus {w : ℕ} (hid : chanId w = 12) : address w = (12, phase w, xPlus w) :=
  if_pos hid

theorem address_normal {w : ℕ} (hid : chanId w < 12) : address w = (chanId w, false, 0) :=
  if_neg hid.ne

/-- The phase is not seen: that is harmless if the channel would not exist, and no other word has
the same index. -/
theorem phase_iff {ws : List ℕ} :
    ((∀ w ∈ ws, ∀ d, dsmDecodeChannel w 11 = some d → chanId w = 12 →
      12 + xPlus w + 4 * (phase w).toNat < maxChannelCount →
        d.1 = 12 + xPlus w + 4 * (phase w).toNat) ∧
    ∀ w ∈ ws, ∀ w' ∈ ws, ∀ d d', dsmDecodeChannel w 11 = some d →
      dsmDecodeChannel w' 11 = some d' → address w ≠ address w' → d.1 ≠ d'.1) ↔
    ∀ w ∈ ws, ¬ Blank w → chanId w = 12 → phase w = true → 2 ≤ xPlus w ∧
      ∀ w' ∈ ws, ¬ Blank w' → chanId w' = 12 → phase w' = false → xPlus w' ≠ xPlus w := by
  constructor
  · rintro ⟨hxplus, hdistinct⟩ w hw hblank hid hphase
    obtain ⟨d, hd, hchannel⟩ := decoded_xPlus hblank hid
    refine ⟨?_, fun w' hw' hblank' hid' hphase' heq => ?_⟩
    · by_contra hlt
      have hgoes := hxplus w hw d hd hid
      rw [hphase, Bool.toNat_true, hchannel] at hgoes
      unfold maxChannelCount at hgoes
      omega
    · obtain ⟨d', hd', hchannel'⟩ := decoded_xPlus hblank' hid'
      refine hdistinct w hw w' hw' d d' hd hd' ?_ (by rw [hchannel, hchannel', heq])
      rw [address_xPlus hid, address_xPlus hid', hphase, hphase']
      simp
  · intro hproper
    refine ⟨fun w hw d hd hid hlt => ?_, fun w hw w' hw' d d' hd hd' haddress heq => ?_⟩
    · obtain ⟨hblank, ⟨hnormal, -⟩ | ⟨-, hchannel⟩⟩ := eleven_cases hd
      · exact absurd hid hnormal.ne
      · cases hphase : phase w with
        | false => exact hchannel
        | true =>
          have hle := (hproper w hw hblank hid hphase).1
          rw [hphase, Bool.toNat_true] at hlt
          unfold maxChannelCount at hlt
          omega
    · obtain ⟨hblank, ⟨hid, hchannel⟩ | ⟨hid, hchannel⟩⟩ := eleven_cases hd
      · obtain ⟨-, ⟨hid', hchannel'⟩ | ⟨-, hchannel'⟩⟩ := eleven_cases hd'
        · rw [address_normal hid, address_normal hid', ← hchannel, ← hchannel', heq] at haddress
          exact haddress rfl
        · omega
      · obtain ⟨hblank', ⟨hid', hchannel'⟩ | ⟨hid', hchannel'⟩⟩ := eleven_cases hd'
        · omega
        · have hindex : xPlus w = xPlus w' := by omega
          rw [address_xPlus hid, address_xPlus hid', hindex] at haddress
          -- only the phases can differ, and then one of the words has it
          cases hphase : phase w with
          | false =>
            cases hphase' : phase w' with
            | false => exact haddress (by rw [hphase, hphase'])
            | true => exact (hproper w' hw' hblank' hid' hphase').2 w hw hblank hid hphase hindex
          | true =>
            cases hphase' : phase w' with
            | false =>
              exact (hproper w hw hblank hid hphase).2 w' hw' hblank' hid' hphase' hindex.symm
            | true => exact haddress (by rw [hphase, hphase'])

/-- With 11 bits the bitset has room for all channels, and with 10 bits for all but one. -/
theorem bitset_iff : (∀ i ∈ s.bitset max_values, i < maxChannelCount) ↔
    (s.channel_shift = 10 → ∀ k < frameChannels, LooksUp 10 (words s.frame) k →
      ¬ Blank ((words s.frame).getD k 0) →
        ((words s.frame).getD k 0 &&& 0xfc00) >>> 10 ≠ maxChannelCount) := by
  constructor
  · intro hbitset hshift k hk hlooks hblank heq
    have hten := dsmDecodeChannel_ten hblank
    rw [heq, if_neg (lt_irrefl _)] at hten
    obtain ⟨d, hd, hchannel⟩ := Option.map_eq_some_iff.mp hten
    have hlt := hbitset d.1 (mem_bitset.mpr ⟨k, hk, hshift ▸ hlooks, d, hshift ▸ hd, rfl⟩)
    exact hlt.ne hchannel
  · intro hbound i hi
    obtain ⟨k, hk, hlooks, d, hd, rfl⟩ := mem_bitset.mp hi
    by_cases h11 : s.channel_shift = 11
    · rw [h11] at hd
      have hx := @xPlus_le ((words s.frame).getD k 0)
      obtain ⟨-, ⟨hid, hchannel⟩ | ⟨-, hchannel⟩⟩ := eleven_cases hd
      · exact (hchannel ▸ hid).trans (by decide)
      · unfold maxChannelCount
        omega
    · by_cases h10 : s.channel_shift = 10
      · rw [h10] at hd hlooks
        have hblank : ¬ Blank ((words s.frame).getD k 0) := fun hw =>
          nomatch (dsmDecodeChannel_blank hw).symm.trans hd
        have hten := dsmDecodeChannel_ten hblank
        have hne := hbound h10 k hk hlooks hblank
        rw [hd, Option.map_some] at hten
        split_ifs at hten with hgt
        rw [Option.some.inj hten]
        exact lt_of_le_of_ne (not_lt.mp hgt) hne
      · exact nomatch (dsmDecodeChannel_other h10 h11).symm.trans hd

/-- Whenever a frame is decoded, no memory out of range is used; the words go where they should,
and no index is out of range, if and only if the frame is proper. -/
theorem addressed_iff (hs : Decoding s max_values) :
    (∀ i ∈ s.bitset max_values, i / 8 < bitsetArraySize) ∧ (Addressed s max_values ↔ Proper s) := by
  obtain ⟨hcount, hmax⟩ := hs.bounded
  refine ⟨fun _ => bitset_memory, fun h => ⟨fun hshift => ?_, bitset_iff.mp h.bitset⟩, fun h => ?_⟩
  · exact phase_iff.mp ⟨h.xplus hshift, h.distinct hshift⟩
  · refine ⟨fun _ _ _ hw => isSome_eleven hw, fun _ w _ d hd hid => ?_, fun hshift => ?_,
      fun hshift => ?_, bitset_iff.mpr h.bound, fun _ => values_bounded hcount hmax⟩
    · obtain ⟨-, ⟨-, hchannel⟩ | ⟨hid', -⟩⟩ := eleven_cases hd
      · exact hchannel
      · exact absurd hid' hid.ne
    · exact (phase_iff.mpr (h.phase hshift)).1
    · exact (phase_iff.mpr (h.phase hshift)).2

def afterFrames (n : ℕ) : Decoder :=
  (List.range n).foldl (fun s k => (s.dsmParse (UInt64.ofNat (10000 * (k + 1)))
    (frameOf (middle [0, 1, 2, 3, 4, 5, 6])) 18).1) Decoder.initial

theorem reachable_afterFrames (n : ℕ) : Reachable (afterFrames n) := by
  induction n with
  | zero => exact .initial
  | succ n ih =>
    unfold afterFrames at ih ⊢
    rw [List.range_succ, List.foldl_append]
    exact ih.parse _ _ _

/-- The bytes of a frame up to the last one, after eleven frames. -/
def beforeLast (ws : List ℕ) : Decoder :=
  (Mealy.feed (Decoder.parseByte 120000 (Decoder.clampChannels 18)) (afterFrames 11)
    (frameOf ws).dropLast).1

def atFrame (ws : List ℕ) : Decoder :=
  (((beforeLast ws).limit.push ((frameOf ws).getLastD 0)).updateFormat 120000).1

/-- Four normal channels, and three of the X-Plus channels, all without the phase bit. -/
theorem addressed_iff_example :
    Addressed (atFrame [5, 2100, 4200, 6300, 24600, 25100, 25700]) 18 := by
  have hs : Decoding (atFrame [5, 2100, 4200, 6300, 24600, 25100, 25700])
      (Decoder.clampChannels 18) :=
    .frame (reachable_afterFrames 11) _ rfl (by decide +kernel) (by decide +kernel)
      (by decide +kernel)
  have hshift : (atFrame [5, 2100, 4200, 6300, 24600, 25100, 25700]).channel_shift = 11 := by
    decide +kernel
  exact (addressed_iff hs).2.mpr
    ⟨fun _ => by decide +kernel, fun h => absurd (hshift.symm.trans h) (by decide)⟩

/-- The first X-Plus channel with the phase bit is the channel 16, but it goes to the channel 12. -/
theorem phase_lost :
    Decoding (atFrame (57600 :: List.replicate 6 0)) (Decoder.clampChannels 18) ∧
      ¬ Addressed (atFrame (57600 :: List.replicate 6 0)) (Decoder.clampChannels 18) := by
  refine ⟨.frame (reachable_afterFrames 11) _ rfl (by decide +kernel) (by decide +kernel)
    (by decide +kernel), fun h => ?_⟩
  have hword : 57600 ∈ words (atFrame (57600 :: List.replicate 6 0)).frame := by decide +kernel
  have hdecoded : dsmDecodeChannel 57600 11 = some (12, 1500) := by decide +kernel
  have hgoes := h.xplus (by decide +kernel) 57600 hword _ hdecoded (by decide) (by decide)
  exact nomatch hgoes

end Frame

end Dsm
