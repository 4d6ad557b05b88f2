/-
What `sbus_parse` does with any bytes.

The states of the parser share one counter, which some of them set back and others leave as it is.

* `Bounded` — the counter, for each state;
* `accesses` — the indices of the frame buffer that are read and written for a byte;
* **`robust_iff`** — a call stays inside the first 25 bytes of the buffer, and reports a frame that
  it has decoded if the last frame that was complete in it could be decoded, and only then.
-/
import AerialManipulator.Rc.Sbus
import AerialManipulator.Lib.Trace

open ByteStore

namespace Sbus

/-! ### The accesses -/

def channelAccesses (max_values : ℕ) : List ℕ :=
  (List.range (min max_values inputChannels)).flatMap fun channel =>
    (sbusDecoder channel).filterMap fun d => if d.mask ≠ 0 then some (1 + d.byte) else none

/-- The indices that `sbus_decode` reads. -/
def decodeAccesses (p : Parser) (max_values : ℕ) : List ℕ :=
  if p.sbus_frame 0 ≠ startSymbol then [0]
  else
    match Parser.followUp (p.sbus_frame 24) with
    | some _ => [0, 24] ++ channelAccesses max_values ++ [flagsByte]
    | none => [0, 24]

/-- The indices that the search for a second start marker reads. -/
def searchAccesses (p : Parser) : List ℕ :=
  List.range' 1 (if p.startIndex ≠ 0 then p.startIndex else p.partial_frame_count - 1)

/-- The indices that are read and written when everything is shifted. -/
def shiftAccesses (p : Parser) (start_index : ℕ) : List ℕ :=
  (List.range (p.partial_frame_count - start_index)).flatMap fun i => [i + start_index, i]

def completeAccesses (p : Parser) (max_channels : ℕ) : List ℕ :=
  let r := p.sbusDecode max_channels
  decodeAccesses p max_channels ++
    if r.2 = false ∧ r.1.state = .desync then
      searchAccesses r.1 ++
        if r.1.startIndex ≠ 0 then shiftAccesses r.1 r.1.startIndex else []
    else []

/-- The indices of the frame buffer that are read and written in a round of the loop. -/
def accesses (max_channels : ℕ) (p : Parser) (byte : UInt8) : List ℕ :=
  let p := p.limit
  match p.state with
  | .desync => if byte = startSymbol then [0] else []
  | .sbusStart | .sbus1Sync | .sbus2Sync =>
    p.partial_frame_count ::
      if (p.push byte).partial_frame_count < frameSize then []
      else completeAccesses (p.push byte) max_channels
  | .sbus2RxVoltage | .sbus2Gps => [p.partial_frame_count, 0]
  | .sbus2Data1 | .sbus2Data2 => []

/-! ### What is promised, and when -/

/-- The states in which a frame is collected. -/
def Collects (p : Parser) : Prop :=
  p.state = .sbusStart ∨ p.state = .sbus1Sync ∨ p.state = .sbus2Sync

instance (p : Parser) : Decidable (Collects p) := inferInstanceAs (Decidable (_ ∨ _))

def completed (p : Parser) (byte : UInt8) : Option Parser :=
  if Collects p.limit ∧ frameSize ≤ (p.limit.push byte).partial_frame_count then
    some (p.limit.push byte)
  else none

def decodable (p : Parser) : Bool :=
  p.sbus_frame 0 = startSymbol ∧ (Parser.followUp (p.sbus_frame 24)).isSome

def next (max_channels : ℕ) (p : Parser) (byte : UInt8) : Parser :=
  (Parser.parseByte max_channels (p, false) byte).1

def completeFrames (max_channels : ℕ) : Parser → List UInt8 → List Parser
  | _, [] => []
  | p, byte :: bytes =>
    (completed p byte).toList ++ completeFrames max_channels (next max_channels p byte) bytes

/-- A round of the loop stays inside a frame, and if there is another start marker in a frame that
cannot be decoded, the buffer begins with it afterwards. -/
structure Inside (max_channels : ℕ) (p : Parser) (byte : UInt8) : Prop where
  inside : ∀ i ∈ accesses max_channels p byte, i < frameSize
  recovers : ∀ q, completed p byte = some q → decodable q = false → q.startIndex ≠ 0 →
    (next max_channels p byte).sbus_frame 0 = startSymbol ∧
      0 < (next max_channels p byte).partial_frame_count

/-- The parser as it may be when it is called. -/
inductive Reachable : Parser → Prop
  | init {p : Parser} : p.state = .desync → p.partial_frame_count = 0 → Reachable p
  | parse {p : Parser} (max_channels : ℕ) (now : UInt64) (frame : List UInt8) :
      Reachable p → Reachable (p.sbusParse max_channels now frame).1
  /-- `sbus_config` -/
  | config {p : Parser} (now : UInt64) :
      Reachable p → Reachable { p with
        partial_frame_count := 0, last_rx_time := now, sbus_frame_drops := 0 }
  /-- `sbus_input`, when the last bytes came long ago. -/
  | timeLimit {p : Parser} :
      Reachable p → Reachable { p with partial_frame_count := 0, state := .desync }
  /-- `sbus_input`, when the first byte is not a start symbol. -/
  | noStart {p : Parser} : Reachable p → Reachable { p with state := .desync }

/-- The counter. -/
def Bounded (p : Parser) : Prop :=
  match p.state with
  | .desync | .sbusStart | .sbus1Sync | .sbus2Sync => p.partial_frame_count < frameSize
  | .sbus2RxVoltage => p.partial_frame_count < frameSizeRxVoltage
  | .sbus2Gps => p.partial_frame_count < 24
  | .sbus2Data1 | .sbus2Data2 => False

section Step

variable {max_channels : ℕ} {p : Parser} {byte : UInt8}

theorem Bounded.count_lt (h : Bounded p) : p.partial_frame_count < frameSize := by
  unfold Bounded at h
  cases hstate : p.state <;> rw [hstate] at h
  case sbus2Data1 => exact h.elim
  case sbus2Data2 => exact h.elim
  case sbus2RxVoltage => exact h.trans (by decide)
  case sbus2Gps => exact h.trans (by decide)
  all_goals exact h

theorem bounded_of_collects (h : Collects p) (hcount : p.partial_frame_count < frameSize) :
    Bounded p := by
  unfold Bounded
  rcases h with h | h | h <;> rw [h] <;> exact hcount

theorem bounded_of_desync (h : p.state = .desync) (hcount : p.partial_frame_count < frameSize) :
    Bounded p := by
  unfold Bounded
  rw [h]
  exact hcount

theorem mem_channelAccesses {i : ℕ} (h : i ∈ channelAccesses max_channels) : i < frameSize := by
  obtain ⟨channel, hchannel, hi⟩ := List.mem_flatMap.mp h
  obtain ⟨d, hd, hpick⟩ := List.mem_filterMap.mp hi
  have hlt : channel < 16 := (List.mem_range.mp hchannel).trans_le (Nat.min_le_right _ _)
  have hbyte : ∀ channel < 16, ∀ d ∈ sbusDecoder channel, 1 + d.byte < frameSize := by decide
  split_ifs at hpick with hmask
  rw [← Option.some.inj hpick]
  exact hbyte channel hlt d hd

theorem sbusDecode_spec : (p.sbusDecode max_channels).2 = decodable p ∧
    (p.sbusDecode max_channels).1.partial_frame_count = p.partial_frame_count ∧
    (p.sbusDecode max_channels).1.sbus_frame = p.sbus_frame ∧
    (decodable p = false → (p.sbusDecode max_channels).1.state = .desync) ∧
    (decodable p = true → ∃ state, Parser.followUp (p.sbus_frame 24) = some state ∧
      (p.sbusDecode max_channels).1.state = state) := by
  unfold Parser.sbusDecode decodable
  by_cases hstart : p.sbus_frame 0 = startSymbol
  · rw [if_neg (not_not.mpr hstart)]
    cases hfollow : Parser.followUp (p.sbus_frame 24) with
    | none => simp [hstart]
    | some state =>
      simp only [hstart, Option.isSome_some, and_self, decide_true]
      exact ⟨trivial, rfl, rfl, nofun, fun _ => ⟨state, rfl, rfl⟩⟩
  · rw [if_pos hstart]
    simp [hstart]

theorem followUp_bounded {last : UInt8} {state : DecodeState}
    (h : Parser.followUp last = some state) :
    state = .sbus1Sync ∨ state = .sbus2Sync ∨ state = .sbus2RxVoltage ∨ state = .sbus2Gps := by
  unfold Parser.followUp at h
  split_ifs at h <;> obtain rfl := Option.some.inj h <;> simp

theorem startIndex_spec (h : p.startIndex ≠ 0) :
    p.sbus_frame p.startIndex = startSymbol ∧ p.startIndex < p.partial_frame_count := by
  unfold Parser.startIndex at h ⊢
  cases hfind : (List.range' 1 (p.partial_frame_count - 1)).find? fun i =>
      p.sbus_frame i = startSymbol with
  | none =>
    rw [hfind] at h
    exact absurd rfl h
  | some i =>
    have hmem := List.mem_range'_1.mp (List.mem_of_find?_eq_some hfind)
    rw [Option.getD_some]
    exact ⟨by simpa using List.find?_some hfind, by omega⟩

theorem shift_zero {start_index : ℕ} (h : start_index < p.partial_frame_count) :
    (p.shift start_index).sbus_frame 0 = p.sbus_frame start_index := by
  have hrest : ∀ (is : List ℕ) (frame : Mem), (∀ i ∈ is, i ≠ 0) →
      is.foldl (fun frame i => Function.update frame i (frame (i + start_index))) frame 0 =
        frame 0 := by
    intro is
    induction is with
    | nil => exact fun _ _ => rfl
    | cons i is ih =>
      intro frame hpos
      rw [List.foldl_cons, ih _ fun j hj => hpos j (List.mem_cons_of_mem _ hj),
        Function.update_of_ne (hpos i List.mem_cons_self).symm]
  obtain ⟨n, hn⟩ : ∃ n, p.partial_frame_count - start_index = n + 1 :=
    ⟨p.partial_frame_count - start_index - 1, by omega⟩
  change (List.range (p.partial_frame_count - start_index)).foldl _ p.sbus_frame 0 = _
  rw [hn, List.range_succ_eq_map, List.foldl_cons, hrest, Function.update_self, Nat.zero_add]
  intro i hi
  obtain ⟨j, -, rfl⟩ := List.mem_map.mp hi
  exact Nat.succ_ne_zero j

theorem completed_eq (hp : Bounded p) : completed p byte =
    if Collects p ∧ frameSize ≤ p.partial_frame_count + 1 then some (p.push byte) else none := by
  unfold completed
  rw [Parser.limit_of_lt hp.count_lt]
  rfl

theorem parseByte_collects (hp : Bounded p) (hstate : Collects p) (ret : Bool) :
    Parser.parseByte max_channels (p, ret) byte =
      if p.partial_frame_count + 1 < frameSize then (p.push byte, ret)
      else (p.push byte).complete max_channels := by
  unfold Parser.parseByte
  dsimp only
  rw [Parser.limit_of_lt hp.count_lt]
  rcases hstate with h | h | h <;> rw [h] <;> rfl

theorem complete_snd (q : Parser) : (q.complete max_channels).2 = decodable q :=
  sbusDecode_spec.1

theorem parseByte_of_none (hp : Bounded p) (hnone : completed p byte = none) (ret : Bool) :
    Parser.parseByte max_channels (p, ret) byte = (next max_channels p byte, ret) := by
  rw [completed_eq hp] at hnone
  by_cases hstate : Collects p
  · have hlt : p.partial_frame_count + 1 < frameSize := by
      by_contra hge
      rw [if_pos ⟨hstate, not_lt.mp hge⟩] at hnone
      exact nomatch hnone
    rw [next, parseByte_collects hp hstate, parseByte_collects hp hstate, if_pos hlt, if_pos hlt]
  · unfold next Parser.parseByte
    dsimp only
    rw [Parser.limit_of_lt hp.count_lt]
    unfold Collects at hstate
    unfold Bounded at hp
    cases h : p.state with
    | desync =>
      dsimp only
      split_ifs <;> rfl
    | sbus2RxVoltage => rfl
    | sbus2Gps => rfl
    | sbus2Data1 =>
      rw [h] at hp
      exact hp.elim
    | sbus2Data2 =>
      rw [h] at hp
      exact hp.elim
    | sbusStart => exact absurd (.inl h) hstate
    | sbus1Sync => exact absurd (.inr (.inl h)) hstate
    | sbus2Sync => exact absurd (.inr (.inr h)) hstate

theorem parseByte_of_some {q : Parser} (hp : Bounded p) (hsome : completed p byte = some q)
    (ret : Bool) :
    Parser.parseByte max_channels (p, ret) byte = (next max_channels p byte, decodable q) ∧
      q = p.push byte ∧ q.partial_frame_count = frameSize ∧
      next max_channels p byte = (q.complete max_channels).1 := by
  rw [completed_eq hp] at hsome
  split_ifs at hsome with hcomplete
  obtain ⟨hstate, hge⟩ := hcomplete
  obtain rfl := Option.some.inj hsome
  have hcount := hp.count_lt
  have hnext : next max_channels p byte = ((p.push byte).complete max_channels).1 := by
    rw [next, parseByte_collects hp hstate, if_neg (by omega)]
  refine ⟨?_, rfl, ?_, hnext⟩
  · rw [parseByte_collects hp hstate, if_neg (by omega), hnext, ← complete_snd]
  · exact le_antisymm hcount hge

theorem complete_spec (q : Parser) (hcount : q.partial_frame_count = frameSize) :
    Bounded (q.complete max_channels).1 ∧
      (decodable q = false → q.startIndex ≠ 0 →
        (q.complete max_channels).1.sbus_frame 0 = startSymbol ∧
          0 < (q.complete max_channels).1.partial_frame_count) := by
  obtain ⟨hret, hcount', hframe, hdesync, hfollow⟩ := @sbusDecode_spec max_channels q
  have hindex : (q.sbusDecode max_channels).1.startIndex = q.startIndex := by
    unfold Parser.startIndex
    rw [hcount', hframe]
  unfold Parser.complete
  dsimp only
  rw [hret, hindex]
  cases hdecodable : decodable q with
  | true =>
    have hnone : (if true = false ∧ (q.sbusDecode max_channels).1.state = .desync then q.startIndex
        else 0) = 0 := if_neg fun h => absurd h.1 nofun
    rw [hnone, if_neg (not_not.mpr rfl)]
    obtain ⟨state, hstate, hstate'⟩ := hfollow hdecodable
    refine ⟨?_, nofun⟩
    unfold Bounded
    dsimp only
    rw [hstate']
    rcases followUp_bounded hstate with rfl | rfl | rfl | rfl <;> decide
  | false =>
    have hsome : (if false = false ∧ (q.sbusDecode max_channels).1.state = .desync then q.startIndex
        else 0) = q.startIndex := if_pos ⟨rfl, hdesync hdecodable⟩
    rw [hsome]
    by_cases hzero : q.startIndex = 0
    · rw [if_neg (not_not.mpr hzero)]
      refine ⟨?_, fun _ hne => absurd hzero hne⟩
      unfold Bounded
      dsimp only
      rw [hdesync hdecodable]
      decide
    · rw [if_pos hzero]
      obtain ⟨hstart, hlt⟩ := startIndex_spec hzero
      have hcount'' : ((q.sbusDecode max_channels).1.shift q.startIndex).partial_frame_count =
          q.partial_frame_count - q.startIndex := congrArg (· - q.startIndex) hcount'
      refine ⟨?_, fun _ _ => ⟨?_, by omega⟩⟩
      · have hlt' : ((q.sbusDecode max_channels).1.shift q.startIndex).partial_frame_count <
            frameSize := by omega
        exact hlt'
      · rw [shift_zero (hcount' ▸ hlt), hframe]
        exact hstart

theorem slot_bounded {size : ℕ} {marker : UInt8} (hp : p.partial_frame_count < size)
    (hsize : size < frameSize)
    (hstate : ∀ q : Parser, q.state = p.state → q.partial_frame_count < size → Bounded q) :
    Bounded (p.slot byte size marker) := by
  have hcount : (p.push byte).partial_frame_count = p.partial_frame_count + 1 := rfl
  unfold Parser.slot
  dsimp only
  split_ifs with hsync hlt hmarker hlt' hmarker'
  · exact (hcount ▸ hlt).trans hsize
  · exact show 0 < frameSize by decide
  · exact show p.partial_frame_count + 1 < frameSize by omega
  · exact hstate _ rfl hlt'
  · exact hstate _ rfl (Nat.zero_lt_of_lt hp)
  · exact show p.partial_frame_count + 1 < frameSize by omega

theorem Bounded.next (hp : Bounded p) : Bounded (next max_channels p byte) := by
  cases hcompleted : completed p byte with
  | some q =>
    obtain ⟨-, -, hcount, hnext⟩ := @parseByte_of_some max_channels p byte q hp hcompleted false
    rw [hnext]
    exact (complete_spec q hcount).1
  | none =>
    rw [completed_eq hp] at hcompleted
    have hlimit := Parser.limit_of_lt hp.count_lt
    by_cases hcollects : Collects p
    · have hlt : p.partial_frame_count + 1 < frameSize := by
        by_contra hge
        rw [if_pos ⟨hcollects, not_lt.mp hge⟩] at hcompleted
        exact nomatch hcompleted
      rw [Sbus.next, parseByte_collects hp hcollects, if_pos hlt]
      exact bounded_of_collects (p := p.push byte) hcollects hlt
    · unfold Sbus.next Parser.parseByte
      dsimp only
      rw [hlimit]
      unfold Bounded at hp
      cases h : p.state with
      | desync =>
        dsimp only
        split_ifs
        · exact bounded_of_collects (.inl rfl) (by decide : 0 + 1 < frameSize)
        · unfold Bounded
          rw [h] at hp ⊢
          exact hp
      | sbus2RxVoltage =>
        rw [h] at hp
        refine slot_bounded hp (by decide) fun q hq hlt => ?_
        unfold Bounded
        rw [hq, h]
        exact hlt
      | sbus2Gps =>
        rw [h] at hp
        refine slot_bounded hp (by decide) fun q hq hlt => ?_
        unfold Bounded
        rw [hq, h]
        exact hlt
      | sbus2Data1 =>
        rw [h] at hp
        exact hp.elim
      | sbus2Data2 =>
        rw [h] at hp
        exact hp.elim
      | sbusStart => exact absurd (.inl h) hcollects
      | sbus1Sync => exact absurd (.inr (.inl h)) hcollects
      | sbus2Sync => exact absurd (.inr (.inr h)) hcollects

theorem mem_decodeAccesses {i : ℕ} (h : i ∈ decodeAccesses p max_channels) : i < frameSize := by
  unfold decodeAccesses at h
  split_ifs at h
  · obtain rfl := List.mem_singleton.mp h
    decide
  · cases hfollow : Parser.followUp (p.sbus_frame 24) with
    | none =>
      rw [hfollow] at h
      rcases List.mem_pair.mp h with rfl | rfl <;> decide
    | some state =>
      rw [hfollow] at h
      rcases List.mem_append.mp h with h | h
      · rcases List.mem_append.mp h with h | h
        · rcases List.mem_pair.mp h with rfl | rfl <;> decide
        · exact mem_channelAccesses h
      · obtain rfl := List.mem_singleton.mp h
        decide

theorem mem_completeAccesses {q : Parser} (hcount : q.partial_frame_count = frameSize) {i : ℕ}
    (h : i ∈ completeAccesses q max_channels) : i < frameSize := by
  obtain ⟨-, hcount', -⟩ := @sbusDecode_spec max_channels q
  rw [hcount] at hcount'
  unfold completeAccesses at h
  dsimp only at h
  rcases List.mem_append.mp h with h | h
  · exact mem_decodeAccesses h
  · split_ifs at h with hrecover hzero
    · rcases List.mem_append.mp h with h | h
      · unfold searchAccesses at h
        rw [if_pos hzero] at h
        have hlt := (startIndex_spec hzero).2
        have hmem := List.mem_range'_1.mp h
        omega
      · obtain ⟨j, hj, hi⟩ := List.mem_flatMap.mp h
        have hj' := List.mem_range.mp hj
        rcases List.mem_pair.mp hi with rfl | rfl <;> omega
    · rw [List.append_nil] at h
      unfold searchAccesses at h
      rw [if_neg hzero] at h
      have hmem := List.mem_range'_1.mp h
      omega
    · exact nomatch h

theorem Bounded.inside (hp : Bounded p) : Inside max_channels p byte where
  inside := by
    intro i hi
    have hcount := hp.count_lt
    unfold accesses at hi
    rw [Parser.limit_of_lt hcount] at hi
    have hcollects : i ∈ p.partial_frame_count ::
        (if (p.push byte).partial_frame_count < frameSize then []
          else completeAccesses (p.push byte) max_channels) → i < frameSize := by
      intro hi
      rcases List.mem_cons.mp hi with rfl | hi
      · exact hcount
      · split_ifs at hi with hlt
        · exact nomatch hi
        · have hfull : (p.push byte).partial_frame_count = frameSize :=
            le_antisymm hcount (not_lt.mp hlt)
          exact mem_completeAccesses hfull hi
    have hslot : i ∈ [p.partial_frame_count, 0] → i < frameSize := by
      intro hi
      rcases List.mem_pair.mp hi with rfl | rfl
      · exact hcount
      · decide
    dsimp only at hi
    cases h : p.state <;> rw [h] at hi <;> dsimp only at hi
    case desync =>
      split_ifs at hi
      · obtain rfl := List.mem_singleton.mp hi
        decide
      · exact nomatch hi
    case sbus2RxVoltage => exact hslot hi
    case sbus2Gps => exact hslot hi
    case sbus2Data1 => exact nomatch hi
    case sbus2Data2 => exact nomatch hi
    all_goals exact hcollects hi
  recovers := by
    intro q hq hdecodable hzero
    obtain ⟨-, -, hcount, hnext⟩ := @parseByte_of_some max_channels p byte q hp hq false
    rw [hnext]
    exact (complete_spec q hcount).2 hdecodable hzero

end Step

/-! ### Calls -/

section Calls

variable {max_channels : ℕ} {p : Parser}

theorem foldl_parseByte (bytes : List UInt8) : ∀ {p : Parser} (ret : Bool), Bounded p →
    bytes.foldl (Parser.parseByte max_channels) (p, ret) =
      (Trace.run (next max_channels) p bytes,
        ((completeFrames max_channels p bytes).getLast?.map decodable).getD ret) := by
  induction bytes with
  | nil => exact fun _ _ => rfl
  | cons byte bytes ih =>
    intro p ret hp
    rw [List.foldl_cons, Trace.run_cons, completeFrames]
    cases hcompleted : completed p byte with
    | none =>
      rw [parseByte_of_none hp hcompleted, ih ret hp.next]
      rfl
    | some q =>
      rw [(parseByte_of_some hp hcompleted ret).1, ih _ hp.next, Option.toList_some,
        List.singleton_append, List.getLast?_cons]
      cases (completeFrames max_channels (next max_channels p byte) bytes).getLast? <;> rfl

theorem Bounded.run (hp : Bounded p) (bytes : List UInt8) :
    Bounded (Trace.run (Sbus.next max_channels) p bytes) :=
  Trace.run_of_invariant (fun _ _ h _ => h.next) hp (Trace.always_true p bytes)

theorem Bounded.last_rx_time (hp : Bounded p) (now : UInt64) :
    Bounded { p with last_rx_time := now } := hp

theorem Reachable.bounded (h : Reachable p) : Bounded p := by
  induction h with
  | init hstate hcount => exact bounded_of_desync hstate (hcount ▸ by decide)
  | parse max_channels now frame _ ih =>
    unfold Parser.sbusParse
    rw [foldl_parseByte frame false (ih.last_rx_time now)]
    exact (ih.last_rx_time now).run frame
  | @config p now _ ih =>
    unfold Bounded at ih ⊢
    cases hstate : p.state <;> rw [hstate] at ih
    case sbus2Data1 => exact ih.elim
    case sbus2Data2 => exact ih.elim
    all_goals exact Nat.succ_pos _
  | timeLimit _ _ => exact bounded_of_desync rfl (Nat.succ_pos 24)
  | noStart _ ih => exact bounded_of_desync rfl ih.count_lt

end Calls

/-- A call of `sbus_parse`: every round of the loop stays inside a frame, and a frame that could be
decoded is reported. -/
structure Robust (max_channels : ℕ) (p : Parser) (now : UInt64) (frame : List UInt8) : Prop where
  inside : Trace.Always (next max_channels) (Inside max_channels) { p with last_rx_time := now }
    frame
  reported : (∃ q ∈ completeFrames max_channels { p with last_rx_time := now } frame,
    decodable q = true) → (p.sbusParse max_channels now frame).2 = true

/-- If a frame in the call can be decoded, the last one that is complete in it can. -/
def LastDecodable (max_channels : ℕ) (p : Parser) (now : UInt64) (frame : List UInt8) : Prop :=
  let frames := completeFrames max_channels { p with last_rx_time := now } frame
  (∃ q ∈ frames, decodable q = true) → ∀ q, frames.getLast? = some q → decodable q = true

theorem robust_iff {p : Parser} (hp : Reachable p) (max_channels : ℕ) (now : UInt64)
    (frame : List UInt8) :
    Robust max_channels p now frame ↔ LastDecodable max_channels p now frame := by
  have hbounded := hp.bounded.last_rx_time now
  have hret : (p.sbusParse max_channels now frame).2 =
      ((completeFrames max_channels { p with last_rx_time := now } frame).getLast?.map
        decodable).getD false := by
    unfold Parser.sbusParse
    rw [foldl_parseByte frame false hbounded]
  unfold LastDecodable
  dsimp only
  constructor
  · rintro ⟨-, hreported⟩ hsome q hq
    have htrue := hreported hsome
    rwa [hret, hq] at htrue
  · intro hlast
    refine ⟨Trace.always_of_invariant (fun _ _ h _ => ⟨h.inside, h.next⟩) hbounded
      (Trace.always_true _ _), ?_⟩
    rintro ⟨q, hq, hdecodable⟩
    rw [hret, List.getLast?_eq_some_getLast (List.ne_nil_of_mem hq)]
    exact hlast ⟨q, hq, hdecodable⟩ _ (List.getLast?_eq_some_getLast (List.ne_nil_of_mem hq))

def idle : Parser := ⟨0, .desync, fun _ => 0, 0, 0, fun _ => 0, 0, false, false, 0⟩

theorem idle_reachable : Reachable idle := .init rfl rfl

def zeros (last : UInt8) : List UInt8 := startSymbol :: List.replicate 23 0 ++ [last]

/-- A bad frame and a good one. -/
theorem robust_bad_good : Robust 16 idle 0 (zeros 1 ++ zeros 0) := by
  have hlast : (completeFrames 16 idle (zeros 1 ++ zeros 0)).getLast?.map decodable =
      some true := by
    decide +kernel
  refine (robust_iff idle_reachable 16 0 _).mpr fun _ q hq => ?_
  rw [show { idle with last_rx_time := 0 } = idle from rfl] at hq
  rw [hq] at hlast
  exact Option.some.inj hlast

/-- A good frame and a bad one: nothing is reported. -/
theorem good_bad_unreported : ¬ Robust 16 idle 0 (zeros 0 ++ zeros 1) := by
  rintro ⟨-, hreported⟩
  have hgood : (completeFrames 16 idle (zeros 0 ++ zeros 1)).any decodable = true := by
    decide +kernel
  exact absurd (hreported (List.any_eq_true.mp hgood)) (by decide +kernel)

end Sbus
