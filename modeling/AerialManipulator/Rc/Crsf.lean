/-
The decoder for CRSF.

Each time the buffer has been filled, one frame is handled.  When the end of a chunk has been copied
and there are two frames in the buffer, the second one waits for the next call.

* `format` — the frames with the channels, and what is read from them;
* `handle` — which frames are handled in a call, as a function of the lengths of the frames and of
  the chunk;
* **`onTime_iff`** — for every sequence of frames and every way to cut it into chunks, each frame
  with channels is decoded in the call that delivers its last byte if and only if no such frame is
  left after any of the calls.
-/
import AerialManipulator.Rc.FrameParser
import AerialManipulator.Lib.ByteStream

open ByteStream CommonRc FrameParser

namespace Crsf

/-- What `crsf_parse` puts out. -/
structure Out where
  values : ℕ → ℕ
  num_values : ℕ

/-- The fields of `crsf_payload_RC_channels_packed_t`: sixteen numbers of 11 bits, one after the
other. -/
def chan (f : List UInt8) (i : ℕ) : ℕ := ofLittleEndian ((f.drop 3).take 22) / 2 ^ (11 * i) % 2 ^ 11

/-- The buffer has the size of `crsf_frame_t`; frames with channels have the type
`rc_channels_packed`. -/
def format (max_channels : ℕ) : Format Out where
  size := 30
  isRc length type := length = 22 + 2 && type = 0x16
  stops := true
  update out f :=
    { num_values := min max_channels 16
      values := fun i =>
        if i < min max_channels 16 then convertChannelValue (chan f i) else out.values i }

/-- `crsf_parse`, with the turns of its loop. -/
def crsfParse (fuel : ℕ) (p : Parser Out) (bytes : List UInt8) (max_channels : ℕ) :
    Option (Parser Out × List Turn) :=
  Parser.parseLoop (format max_channels) fuel p bytes

theorem format_ok (max_channels : ℕ) : (format max_channels).Ok := by
  refine ⟨?_, ?_⟩
  · change 4 ≤ 30
    decide
  · change 30 < 2 ^ 31
    decide

/-- Bytes that arrive, and the number of channels that the caller asks for. -/
structure Call where
  bytes : List UInt8
  max_channels : ℕ

def after (p : Parser Out) (c : Call) : Parser Out :=
  ((crsfParse c.bytes.length p c.bytes c.max_channels).getD (p, [])).1

/-! ### Frames -/

def isRcFrame (f : List UInt8) : Bool := (f.getD 1 0 = 24 : Bool) && (f.getD 2 0 = 0x16 : Bool)

/-- A frame of at most 30 bytes whose length is right, and its checksum, if it has channels. -/
def WellFormed (f : List UInt8) : Prop := FrameParser.WellFormed (format 16) f

/-- The frames with channels that end in the first `n` bytes. -/
def completeRc : List (List UInt8) → ℕ → List (List UInt8)
  | [], _ => []
  | f :: fs, n =>
    if f.length ≤ n then (if isRcFrame f then [f] else []) ++ completeRc fs (n - f.length) else []

/-- The frames that are left after a call, when `n` bytes of them have arrived, and how many of
these bytes are left: one frame is handled as long as there are more bytes than fit into the buffer,
and one more, if it is complete. -/
def handle : List (List UInt8) → ℕ → List (List UInt8) × ℕ
  | [], n => ([], n)
  | f :: fs, n =>
    if 30 < n then handle fs (n - f.length)
    else if f.length ≤ n then (fs, n - f.length)
    else (f :: fs, n)

/-- The frames that have not been handled, and how many bytes of them have arrived. -/
structure Pending where
  frames : List (List UInt8)
  available : ℕ

/-- A chunk of `k` bytes arrives. -/
def Pending.step (s : Pending) (k : ℕ) : Pending :=
  if k = 0 then s
  else ⟨(handle s.frames (s.available + k)).1, (handle s.frames (s.available + k)).2⟩

/-- After the chunk, no frame with channels is complete and has not been handled. -/
def NoneLeft (s : Pending) (k : ℕ) : Prop :=
  completeRc (s.step k).frames (s.step k).available = []

instance (s : Pending) (k : ℕ) : Decidable (NoneLeft s k) :=
  inferInstanceAs (Decidable (_ = _))

/-! ### The parser in sync -/

variable {max_channels n : ℕ} {p : Parser Out} {f : List UInt8} {fs : List (List UInt8)}
  {bytes : List UInt8}

theorem isRc_eq (f : List UInt8) :
    (format max_channels).isRc (f.getD 1 0) (f.getD 2 0) = isRcFrame f := rfl

theorem wellFormed_format (h : WellFormed f) (max_channels : ℕ) :
    FrameParser.WellFormed (format max_channels) f := ⟨h.min, h.max, h.length, h.crc⟩

theorem completeRc_cons (h : f.length ≤ n) :
    completeRc (f :: fs) n =
      (if isRcFrame f then some f else none).toList ++ completeRc fs (n - f.length) := by
  rw [completeRc, if_pos h]
  split <;> rfl

/-- When the buffer has been filled up to `k`, the rest of the chunk is behind the first frame. -/
theorem prefix_behind_frame {k : ℕ} (h : bytes <+: (f :: fs).flatten.drop n) (hn : n ≤ k)
    (hf : f.length ≤ k) (hk : k - n ≤ bytes.length) :
    bytes.drop (k - n) <+: fs.flatten.drop (k - f.length) := by
  obtain ⟨later, hlater⟩ := h
  refine ⟨later, ?_⟩
  have hdropped := congrArg (List.drop (k - n)) hlater
  rwa [List.drop_append_of_le_length hk, List.drop_drop, Nat.add_sub_cancel' hn, List.flatten_cons,
    List.drop_append, List.drop_of_length_le hf, List.nil_append] at hdropped

theorem crsfParse_of_fits (hroom : p.position < (format max_channels).size) (hne : bytes ≠ [])
    (hall : p.currentLen (format max_channels) bytes.length = bytes.length) {fuel : ℕ}
    (hfuel : bytes.length ≤ fuel) :
    crsfParse fuel p bytes max_channels =
      some (p.next (format max_channels) bytes, [p.turn (format max_channels) bytes]) := by
  have hpos := List.length_pos_iff.mpr hne
  obtain ⟨fuel, rfl⟩ : ∃ k, fuel = k + 1 := Nat.exists_eq_succ_of_ne_zero (by omega)
  rw [crsfParse, parseLoop_cons (format_ok max_channels) hroom fuel hne, hall, List.drop_length,
    Parser.parseLoop]
  rfl

/-- A call in sync: which frames are handled, and that those with channels are decoded. -/
theorem parseLoop_linked (h : Linked (format max_channels) p fs n)
    (hwf : ∀ f ∈ fs, WellFormed f) (hne : bytes ≠ []) (hbytes : bytes <+: fs.flatten.drop n) :
    ∃ r, (∀ fuel ≥ bytes.length, crsfParse fuel p bytes max_channels = some r) ∧
      Linked (format max_channels) r.1 (handle fs (n + bytes.length)).1
        (handle fs (n + bytes.length)).2 ∧
      completeRc fs (n + bytes.length) = frames r.2 ++
        completeRc (handle fs (n + bytes.length)).1 (handle fs (n + bytes.length)).2 := by
  have hF := format_ok max_channels
  induction fs generalizing p n bytes with
  | nil =>
    rw [List.flatten_nil, List.drop_nil, List.prefix_nil] at hbytes
    exact absurd hbytes hne
  | cons f fs ih =>
    obtain ⟨hf, hfs⟩ := List.forall_mem_cons.mp hwf
    have hmin : 4 ≤ f.length := hf.min
    have hmax : f.length ≤ 30 := hf.max
    have hlt : n < 30 := h.lt
    have hpos := List.length_pos_iff.mpr hne
    have hsize : (format max_channels).size = 30 := rfl
    have hlen := currentLen_eq hF (h.position.symm ▸ h.lt) bytes.length
    rw [h.position, hsize] at hlen
    have hroom : p.position < (format max_channels).size := h.position.symm ▸ h.lt
    obtain ⟨hmore, hfull⟩ := h.turn hF (wellFormed_format hf max_channels) hbytes
    by_cases hlast : n + bytes.length ≤ 30
    · -- the rest of the chunk fits into the buffer
      have hall : p.currentLen (format max_channels) bytes.length = bytes.length := by omega
      rw [hall] at hmore hfull
      refine ⟨_, fun fuel hfuel => crsfParse_of_fits hroom hne hall hfuel, ?_⟩
      rw [handle, if_neg (Nat.not_lt.mpr hlast)]
      by_cases hcomplete : f.length ≤ n + bytes.length
      · obtain ⟨hdecoded, hlinked⟩ := hfull hcomplete
        rw [if_pos hcomplete, completeRc_cons hcomplete, frames_cons, hdecoded, isRc_eq]
        exact ⟨hlinked, by rw [List.append_assoc]; rfl⟩
      · obtain ⟨hdecoded, hlinked⟩ := hmore (Nat.lt_of_not_le hcomplete)
        rw [if_neg hcomplete, frames_cons, hdecoded]
        exact ⟨hlinked, rfl⟩
    · -- the buffer is full, so that the frame is complete
      have hcopied : p.currentLen (format max_channels) bytes.length = 30 - n := by omega
      rw [hcopied] at hfull
      have hthirty : n + (30 - n) = 30 := by omega
      rw [hthirty] at hfull
      obtain ⟨hdecoded, hlinked⟩ := hfull hmax
      have hdrop : (bytes.drop (30 - n)).length = bytes.length - (30 - n) := List.length_drop
      have hrest : bytes.drop (30 - n) <+: fs.flatten.drop (30 - f.length) :=
        prefix_behind_frame hbytes h.lt.le hmax (by omega)
      obtain ⟨r, hr, hlinked', hcomplete⟩ := ih hlinked hfs
        (List.ne_nil_of_length_pos (by omega)) hrest
      have hn : 30 - f.length + (bytes.drop (30 - n)).length = n + bytes.length - f.length := by
        omega
      rw [hn] at hlinked' hcomplete
      refine ⟨(r.1, p.turn (format max_channels) bytes :: r.2), fun fuel hfuel => ?_, ?_⟩
      · obtain ⟨fuel, rfl⟩ : ∃ k, fuel = k + 1 := Nat.exists_eq_succ_of_ne_zero (by omega)
        have hfuel' := hr fuel (by omega)
        rw [crsfParse] at hfuel'
        rw [crsfParse, parseLoop_cons hF hroom fuel hne, hcopied, hfuel', Option.map_some]
      · rw [handle, if_pos (Nat.lt_of_not_le hlast)]
        refine ⟨hlinked', ?_⟩
        rw [completeRc_cons (by omega), hcomplete, frames_cons, hdecoded, isRc_eq,
          List.append_assoc]

/-! ### Runs -/

/-- The parser, and the number of bytes that have been delivered. -/
structure Run where
  parser : Parser Out
  delivered : ℕ

def Run.step (s : Run) (c : Call) : Run := ⟨after s.parser c, s.delivered + c.bytes.length⟩

/-- The frames that are decoded in a call are those with channels whose last byte it delivers, and
what is put out are the channels of the last one of them. -/
def OnTime (fs : List (List UInt8)) (s : Run) (c : Call) : Prop :=
  ∃ r, (∀ fuel ≥ c.bytes.length, crsfParse fuel s.parser c.bytes c.max_channels = some r) ∧
    completeRc fs (s.delivered + c.bytes.length) = completeRc fs s.delivered ++ frames r.2 ∧
    (ret r.2 = true ↔ frames r.2 ≠ []) ∧
    ∀ f, (frames r.2).getLast? = some f → r.1.out.num_values = min c.max_channels 16 ∧
      ∀ i < min c.max_channels 16, r.1.out.values i = convertChannelValue (chan f i)

theorem completeRc_append (done : List (List UInt8)) (fs : List (List UInt8)) (n : ℕ) :
    completeRc (done ++ fs) (done.flatten.length + n) =
      done.filter isRcFrame ++ completeRc fs n := by
  induction done with
  | nil =>
    rw [List.flatten_nil, List.length_nil, Nat.zero_add]
    rfl
  | cons f done ih =>
    have hlen : (f :: done).flatten.length + n = f.length + (done.flatten.length + n) := by
      rw [List.flatten_cons, List.length_append, Nat.add_assoc]
    rw [List.cons_append, hlen, completeRc_cons (Nat.le_add_right _ _), Nat.add_sub_cancel_left,
      ih, List.filter_cons, ← List.append_assoc]
    congr 1
    cases isRcFrame f <;> rfl

theorem handle_suffix (hwf : ∀ f ∈ fs, WellFormed f) (n : ℕ) :
    ∃ done, fs = done ++ (handle fs n).1 ∧ n = done.flatten.length + (handle fs n).2 := by
  induction fs generalizing n with
  | nil => exact ⟨[], rfl, (Nat.zero_add _).symm⟩
  | cons f fs ih =>
    obtain ⟨hf, hfs⟩ := List.forall_mem_cons.mp hwf
    have hmax : f.length ≤ 30 := hf.max
    rw [handle]
    split
    next hmore =>
      obtain ⟨done, hdone, hn⟩ := ih hfs (n - f.length)
      refine ⟨f :: done, by rw [List.cons_append, ← hdone], ?_⟩
      rw [List.flatten_cons, List.length_append]
      omega
    next =>
      split
      next hcomplete => exact ⟨[f], rfl, by simp; omega⟩
      next => exact ⟨[], rfl, by simp⟩

/-- The frames that have been handled, those that have not, and the parser that has some bytes of
them. -/
structure Consistent (all : List (List UInt8)) (s : Run) (q : Pending) : Prop where
  wellFormed : ∀ f ∈ q.frames, WellFormed f
  handled : ∃ done, all = done ++ q.frames ∧ s.delivered = done.flatten.length + q.available
  linked : Linked (format 16) s.parser q.frames q.available
  none : completeRc q.frames q.available = []

theorem linked_format {m m' : ℕ} (h : Linked (format m) p fs n) : Linked (format m') p fs n :=
  ⟨h.synced, h.position, h.lt, h.content, h.le⟩

theorem foldl_update {out : Out} {ds : List (List UInt8)} {f : List UInt8}
    (h : ds.getLast? = some f) :
    (ds.foldl (format max_channels).update out).num_values = min max_channels 16 ∧
      ∀ i < min max_channels 16,
        (ds.foldl (format max_channels).update out).values i = convertChannelValue (chan f i) := by
  obtain ⟨init, rfl⟩ := List.getLast?_eq_some_iff.mp h
  rw [List.foldl_append]
  exact ⟨rfl, fun i hi => if_pos hi⟩

variable {all : List (List UInt8)} {s : Run} {q : Pending} {c : Call}

theorem onTime_iff_of_eq {r : Parser Out × List Turn}
    (hr : ∀ fuel ≥ c.bytes.length, crsfParse fuel s.parser c.bytes c.max_channels = some r)
    (hp : s.parser.position < 30) :
    OnTime all s c ↔
      completeRc all (s.delivered + c.bytes.length) = completeRc all s.delivered ++ frames r.2 := by
  obtain ⟨r', hr', hcall⟩ := parseLoop_spec (format_ok c.max_channels) hp c.bytes
  obtain rfl : r' = r := Option.some.inj ((hr' _ le_rfl).symm.trans (hr _ le_rfl))
  constructor
  · rintro ⟨r, hr'', hcomplete, -⟩
    obtain rfl : r' = r := Option.some.inj ((hr' _ le_rfl).symm.trans (hr'' _ le_rfl))
    exact hcomplete
  · intro hcomplete
    refine ⟨r', hr, hcomplete, ret_eq hcall.turns, fun f hf => ?_⟩
    rw [hcall.out]
    exact foldl_update hf

theorem Consistent.step (h : Consistent all s q)
    (hbytes : c.bytes <+: q.frames.flatten.drop q.available) :
    (OnTime all s c ↔ NoneLeft q c.bytes.length) ∧
      (NoneLeft q c.bytes.length → Consistent all (s.step c) (q.step c.bytes.length)) := by
  obtain ⟨done, hall, hdelivered⟩ := h.handled
  have hp : s.parser.position < 30 := h.linked.position.symm ▸ h.linked.lt
  by_cases hne : c.bytes = []
  · have hloop : ∀ fuel ≥ c.bytes.length,
        crsfParse fuel s.parser c.bytes c.max_channels = some (s.parser, []) := by
      intro fuel _
      rw [hne, crsfParse, Parser.parseLoop]
    have hstep : q.step c.bytes.length = q := by
      rw [hne]
      rfl
    rw [onTime_iff_of_eq hloop hp, NoneLeft, hstep]
    refine ⟨⟨fun _ => h.none, fun _ => ?_⟩, fun _ => ⟨h.wellFormed, ⟨done, hall, ?_⟩, ?_, h.none⟩⟩
    · rw [hne]
      exact (List.append_nil _).symm
    · rw [Run.step, hne]
      exact hdelivered
    · rw [Run.step, after, hloop _ le_rfl]
      exact h.linked
  · obtain ⟨r, hr, hlinked, hcomplete⟩ :=
      parseLoop_linked (linked_format h.linked) h.wellFormed hne hbytes
    have hstep : q.step c.bytes.length =
        ⟨(handle q.frames (q.available + c.bytes.length)).1,
          (handle q.frames (q.available + c.bytes.length)).2⟩ := by
      rw [Pending.step, if_neg (mt List.length_eq_zero_iff.mp hne)]
    rw [onTime_iff_of_eq hr hp, NoneLeft, hstep, hdelivered, Nat.add_assoc, hall,
      completeRc_append, completeRc_append, h.none, hcomplete, List.append_nil]
    refine ⟨by simp, fun hnone => ?_⟩
    obtain ⟨done', hdone', hn⟩ := handle_suffix h.wellFormed (q.available + c.bytes.length)
    refine ⟨fun f hf => h.wellFormed f ?_, ⟨done ++ done', ?_, ?_⟩, ?_, hnone⟩
    · rw [hdone']
      exact List.mem_append_right _ hf
    · rw [List.append_assoc]
      exact congrArg (done ++ ·) hdone'
    · rw [Run.step, hdelivered, List.flatten_append, List.length_append]
      dsimp only
      omega
    · rw [Run.step, after, hr _ le_rfl]
      exact linked_format hlinked

theorem Consistent.stream (h : Consistent all s q) :
    all.flatten.drop s.delivered = q.frames.flatten.drop q.available := by
  obtain ⟨done, rfl, hdelivered⟩ := h.handled
  rw [hdelivered, List.flatten_append, ← List.drop_drop, List.drop_left]

theorem Consistent.onTime_iff (h : Consistent all s q) {calls : List Call}
    (hcalls : (calls.map Call.bytes).flatten <+: all.flatten.drop s.delivered) :
    Trace.Always Run.step (OnTime all) s calls ↔
      Trace.Always Pending.step NoneLeft q (calls.map fun c => c.bytes.length) := by
  induction calls generalizing s q with
  | nil => exact Iff.rfl
  | cons c calls ih =>
    rw [List.map_cons, List.flatten_cons] at hcalls
    obtain ⟨later, hlater⟩ := hcalls
    rw [List.append_assoc] at hlater
    obtain ⟨hiff, hnext⟩ := h.step (c := c) ⟨_, hlater.trans h.stream⟩
    rw [Trace.always_cons, List.map_cons, Trace.always_cons, hiff]
    refine and_congr_right fun hnone => ih (hnext hnone) ⟨later, ?_⟩
    have hdropped := congrArg (List.drop c.bytes.length) hlater
    rw [List.drop_left, List.drop_drop] at hdropped
    exact hdropped

theorem consistent_start (hwf : ∀ f ∈ fs, WellFormed f) (hsynced : p.synced = true)
    (hempty : p.position = 0) : Consistent fs ⟨p, 0⟩ ⟨fs, 0⟩ := by
  have hcontent : p.content = [] := by
    rw [Parser.content, hempty]
    rfl
  have hnone : completeRc fs 0 = [] := by
    cases fs with
    | nil => rfl
    | cons f fs =>
      have hmin : 4 ≤ f.length := (hwf f List.mem_cons_self).min
      rw [completeRc, if_neg (by omega)]
  exact ⟨hwf, ⟨[], rfl, rfl⟩, ⟨hsynced, hempty, Nat.zero_lt_succ 29, hcontent, Nat.zero_le _⟩,
    hnone⟩

/-- Every frame with channels is decoded in the call that delivers its last byte, if and only if
after no call such a frame is left in the buffer. -/
theorem crsf_onTime_iff (hwf : ∀ f ∈ fs, WellFormed f)
    {calls : List Call} (hcalls : (calls.map Call.bytes).flatten = fs.flatten)
    (hsynced : p.synced = true) (hempty : p.position = 0) :
    Trace.Always Run.step (OnTime fs) ⟨p, 0⟩ calls ↔
      Trace.Always Pending.step NoneLeft ⟨fs, 0⟩ (calls.map fun c => c.bytes.length) :=
  (consistent_start hwf hsynced hempty).onTime_iff ⟨[], by rw [List.append_nil, hcalls]; rfl⟩

def syncedParser : Parser Out := ⟨0, true, fun _ => 0, ⟨fun _ => 0, 0⟩⟩

def rcFrame : List UInt8 :=
  let f : List UInt8 := [0xc8, 24, 0x16, 172, 7, 0, 124, 224, 3, 31, 248, 192, 7, 62, 240, 129, 15,
    124, 224, 3, 31, 248, 192, 7, 62]
  f ++ [(f.drop 2).foldl crc8DvbS2 0]

def emptyFrame : List UInt8 := [0xc8, 2, 0x28, crc8DvbS2 0 0x28]

theorem wellFormed_rcFrame : WellFormed rcFrame :=
  ⟨by decide, by decide, by decide, fun _ => by decide +kernel⟩

theorem wellFormed_emptyFrame : WellFormed emptyFrame :=
  ⟨by decide, by decide, by decide, fun h => nomatch h⟩

/-- A frame in two chunks, and one that follows. -/
theorem onTime_two_frames :
    Trace.Always Run.step (OnTime [rcFrame, emptyFrame]) ⟨syncedParser, 0⟩
      [⟨rcFrame.take 10, 16⟩, ⟨rcFrame.drop 10 ++ emptyFrame, 8⟩] :=
  (crsf_onTime_iff (by simpa using ⟨wellFormed_rcFrame, wellFormed_emptyFrame⟩)
    (by decide +kernel) rfl rfl).mpr (by decide)

/-- Both frames in one chunk: the second one is not decoded. -/
theorem not_onTime_one_chunk :
    ¬ Trace.Always Run.step (OnTime [emptyFrame, rcFrame]) ⟨syncedParser, 0⟩
      [⟨emptyFrame ++ rcFrame, 16⟩] := by
  have hstart : Consistent [emptyFrame, rcFrame] ⟨syncedParser, 0⟩ ⟨[emptyFrame, rcFrame], 0⟩ :=
    consistent_start (by simpa using ⟨wellFormed_emptyFrame, wellFormed_rcFrame⟩) rfl rfl
  rw [hstart.onTime_iff ⟨[], by decide +kernel⟩]
  decide

end Crsf
