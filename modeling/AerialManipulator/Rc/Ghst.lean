/-
The decoder for GHST.

Every frame has the first four channels, and four of the others or the signal strength, depending
on its type.  The values of the last frames are kept, and are put out together.

* `format` — the frames with the channels, and what is read from them;
* **`parsers_robust`** — for all bytes that may arrive, the decoders for CRSF and GHST come to an
  end, stay inside of their buffers and put out what they have read from frames whose checksum is
  right;
* **`channels_remembered`** — a call puts out the last value of every channel.
-/
import AerialManipulator.Rc.Crsf
import AerialManipulator.Rc.FrameStream

open ByteStream CommonRc FrameParser

namespace Ghst

/-- What `ghst_parse` puts out, and what is kept from frame to frame. -/
structure Out where
  values : ℕ → ℕ
  rssi : ℤ
  num_values : ℕ
  ghst_rssi : ℤ
  prev_rc_vals : ℕ → ℕ

def maxNumChannels : ℕ := 16

/-- `memcpy` of all channels. -/
def copyChannels (dst src : ℕ → ℕ) : ℕ → ℕ := fun i => if i < maxNumChannels then src i else dst i

/-! ### Frames -/

def frameType (f : List UInt8) : UInt8 := f.getD 2 0

def frameType5to8 : UInt8 := 0x10
def frameType9to12 : UInt8 := 0x11
def frameType13to16 : UInt8 := 0x12
def frameTypeRssi : UInt8 := 0x13

def chan1to4 (f : List UInt8) (i : ℕ) : ℕ :=
  ofLittleEndian ((f.drop 3).take 6) / 2 ^ (12 * i) % 2 ^ 12

/-- `chanA` to `chanD`. -/
def chanAtoD (f : List UInt8) (i : ℕ) : ℕ := (f.getD (9 + i) 0).toNat

/-- The index of the channel that is in `chanA`. -/
def firstOther (f : List UInt8) : Option ℕ :=
  if frameType f = frameType5to8 then some 4
  else if frameType f = frameType9to12 then some 8
  else if frameType f = frameType13to16 then some 12
  else none

def carried (f : List UInt8) (i : ℕ) : Option ℕ :=
  if i < 4 then some (convertChannelValue (chan1to4 f i >>> 1))
  else
    match firstOther f with
    | none => none
    | some k =>
      if k ≤ i ∧ i < k + 4 then some (convertChannelValue (chanAtoD f (i - k) <<< 3)) else none

def updateRssi (ghst_rssi : ℤ) (f : List UInt8) : ℤ :=
  if frameType f = frameTypeRssi then spekDbmToPercent (f.getD 10 0).toInt8 else ghst_rssi

/-- The buffer has the size of `ghst_frame_t`. -/
def format (max_channels : ℕ) : Format Out where
  size := 18
  isRc length type := 0x10 ≤ type && type ≤ 0x1f && length = 12
  stops := false
  update out f :=
    let values := fun i =>
      if i < max_channels then (carried f i).getD (out.values i) else out.values i
    let ghst_rssi := updateRssi out.ghst_rssi f
    { values := values
      rssi := ghst_rssi
      num_values := min max_channels maxNumChannels
      ghst_rssi := ghst_rssi
      prev_rc_vals := copyChannels out.prev_rc_vals values }

def restore (p : Parser Out) : Parser Out :=
  { p with out := { p.out with values := copyChannels p.out.values p.out.prev_rc_vals } }

/-- `ghst_parse`, with the turns of its loop. -/
def ghstParse (fuel : ℕ) (p : Parser Out) (bytes : List UInt8) (max_channels : ℕ) :
    Option (Parser Out × List Turn) :=
  Parser.parseLoop (format max_channels) fuel (restore p) bytes

/-- What `ghst_config` does to the decoder. -/
def ghstConfig (p : Parser Out) : Parser Out :=
  { p with out := { p.out with
      prev_rc_vals := fun i => if i < maxNumChannels then 65535 else p.out.prev_rc_vals i } }

theorem format_ok (max_channels : ℕ) : (format max_channels).Ok := by
  refine ⟨?_, ?_⟩
  · change 4 ≤ 18
    decide
  · change 18 < 2 ^ 31
    decide

inductive Event
  | config
  | parse (bytes : List UInt8) (max_channels : ℕ)

def result (p : Parser Out) (bytes : List UInt8) (max_channels : ℕ) : Parser Out × List Turn :=
  (ghstParse bytes.length p bytes max_channels).getD (p, [])

def after (p : Parser Out) : Event → Parser Out
  | .config => ghstConfig p
  | .parse bytes max_channels => (result p bytes max_channels).1

/-! ### Robustness -/

/-- The call comes to an end, and does what it should. -/
def Robust (p : Parser Out) : Event → Prop
  | .config => True
  | .parse bytes max_channels =>
    ∃ r, (∀ fuel ≥ bytes.length, ghstParse fuel p bytes max_channels = some r) ∧
      CallOk (format max_channels) (restore p) r

theorem robust_step {p : Parser Out} (hp : p.position < 18) (e : Event) :
    Robust p e ∧ (after p e).position < 18 := by
  cases e with
  | config => exact ⟨trivial, hp⟩
  | parse bytes max_channels =>
    obtain ⟨r, hr, hcall⟩ := parseLoop_spec (format_ok max_channels) (p := restore p) hp bytes
    refine ⟨⟨r, hr, hcall⟩, ?_⟩
    have hresult : result p bytes max_channels = r := by
      rw [result, ghstParse, hr _ le_rfl]
      rfl
    rw [after, hresult]
    exact hcall.position

end Ghst

/-- The same for CRSF. -/
def Crsf.Robust (p : Parser Crsf.Out) (c : Crsf.Call) : Prop :=
  ∃ r, (∀ fuel ≥ c.bytes.length, Crsf.crsfParse fuel p c.bytes c.max_channels = some r) ∧
    CallOk (Crsf.format c.max_channels) p r

theorem Crsf.robust_step {p : Parser Crsf.Out} (hp : p.position < 30) (c : Crsf.Call) :
    Crsf.Robust p c ∧ (Crsf.after p c).position < 30 := by
  obtain ⟨r, hr, hcall⟩ := parseLoop_spec (Crsf.format_ok c.max_channels) hp c.bytes
  refine ⟨⟨r, hr, hcall⟩, ?_⟩
  rw [Crsf.after, Crsf.crsfParse, hr _ le_rfl]
  exact hcall.position

/-- Whatever bytes arrive and however they are cut into chunks: both decoders come to an end, there
is progress in every turn, and after it the buffer is not full; all accesses are inside of the
buffer; and what is put out comes from frames whose length, type and checksum are right. -/
theorem parsers_robust (frame frame' : ByteStore.Mem) (out : Crsf.Out) (out' : Ghst.Out)
    (calls : List Crsf.Call) (events : List Ghst.Event) :
    Trace.Always Crsf.after Crsf.Robust ⟨0, false, frame, out⟩ calls ∧
      Trace.Always Ghst.after Ghst.Robust ⟨0, false, frame', out'⟩ events := by
  constructor
  · exact Trace.always_of_invariant (I := fun p => p.position < 30)
      (fun _ c hp _ => Crsf.robust_step hp c) (Nat.zero_lt_succ 29) (Trace.always_true _ calls)
  · exact Trace.always_of_invariant (I := fun p => p.position < 18)
      (fun _ e hp _ => Ghst.robust_step hp e) (Nat.zero_lt_succ 17) (Trace.always_true _ events)

namespace Ghst

/-! ### The channels that are remembered -/

/-- What happens to the decoder, when all channels are asked for. -/
inductive Input
  | config
  | chunk (bytes : List UInt8)

/-- The decoder, with all bytes that it got, the frames that they have been cut into, the last one
first, and those of them since the last `ghst_config`. -/
structure Watched where
  parser : Parser Out
  stream : List UInt8
  passed : List (List UInt8)
  since : List (List UInt8)

/-- The step, with the frames that the decoder passes over in it. -/
def Watched.step (w : Watched) : Input × List (List UInt8) → Watched
  | (.config, _) => ⟨ghstConfig w.parser, w.stream, w.passed, []⟩
  | (.chunk bytes, fs) =>
    ⟨(result w.parser bytes 16).1, w.stream ++ bytes, fs ++ w.passed, fs ++ w.since⟩

def verified (fs : List (List UInt8)) : List (List UInt8) := fs.filter (Verified (format 16) ·)

def latest (log : List (List UInt8)) (k : ℕ) : ℕ := (log.findSome? (carried · k)).getD 65535

/-- The stream is cut into frames, but for less than a buffer.  A call returns true if and only if
one of the frames that it passes over is verified; then it puts out the last value of every channel,
and else the values that are kept do not change. -/
def Remembers (w : Watched) : Input × List (List UInt8) → Prop
  | (.config, _) => True
  | (.chunk bytes, fs) =>
    (∃ synced rest, Cut (format 16) (w.stream ++ bytes) (fs ++ w.passed) synced rest ∧
      rest.length < 18) ∧
    (ret (result w.parser bytes 16).2 = true ↔ ∃ f ∈ fs, Verified (format 16) f) ∧
    (ret (result w.parser bytes 16).2 = true → ∀ k < maxNumChannels,
      (result w.parser bytes 16).1.out.values k = latest (verified (fs ++ w.since)) k) ∧
    (ret (result w.parser bytes 16).2 = false → ∀ k < maxNumChannels,
      (result w.parser bytes 16).1.out.prev_rc_vals k = w.parser.out.prev_rc_vals k)

/-- The values are those of the frames, and the same as those that are kept. -/
def Tracks (out : Out) (log : List (List UInt8)) : Prop :=
  ∀ k < maxNumChannels, out.values k = latest log k ∧ out.prev_rc_vals k = latest log k

theorem latest_cons (f : List UInt8) (log : List (List UInt8)) (k : ℕ) :
    latest (f :: log) k = (carried f k).getD (latest log k) := by
  rw [latest, List.findSome?_cons]
  cases carried f k <;> rfl

theorem Tracks.update {out : Out} {log : List (List UInt8)} (h : Tracks out log) (f : List UInt8) :
    Tracks ((format 16).update out f) (f :: log) := by
  intro k hk
  have hvalue : ((format 16).update out f).values k = latest (f :: log) k := by
    rw [latest_cons, ← (h k hk).1]
    exact if_pos hk
  exact ⟨hvalue, (if_pos hk).trans hvalue⟩

theorem Tracks.foldl {out : Out} {log : List (List UInt8)} (h : Tracks out log)
    (ds : List (List UInt8)) : Tracks (ds.foldl (format 16).update out) (ds.reverse ++ log) := by
  induction ds generalizing out log with
  | nil => exact h
  | cons f ds ih =>
    rw [List.foldl_cons, List.reverse_cons, List.append_assoc]
    exact ih (h.update f)

/-- The decoder reads the stream, and keeps the last value of every channel. -/
structure Hears (w : Watched) : Prop where
  reads : Reads (format 16) w.stream w.passed w.parser
  kept : ∀ k < maxNumChannels, w.parser.out.prev_rc_vals k = latest (verified w.since) k

theorem remembers_step {w : Watched} (h : Hears w) (i : Input) :
    ∃ fs, Remembers w (i, fs) ∧ Hears (w.step (i, fs)) := by
  cases i with
  | config => exact ⟨[], trivial, ⟨h.reads.cut, h.reads.position⟩, fun k hk => if_pos hk⟩
  | chunk bytes =>
    have hreads : Reads (format 16) w.stream w.passed (restore w.parser) :=
      ⟨h.reads.cut, h.reads.position⟩
    obtain ⟨r, hr, hcall⟩ := parseLoop_spec (format_ok 16) hreads.position bytes
    obtain ⟨r', fs, hr', hreads', hframes⟩ := reads_parseLoop (format_ok 16) hreads bytes
    obtain rfl : r' = r := Option.some.inj ((hr' _ le_rfl).symm.trans (hr _ le_rfl))
    have hresult : result w.parser bytes 16 = r' := by
      rw [result, ghstParse, hr _ le_rfl]
      rfl
    have hrestored : Tracks (restore w.parser).out (verified w.since) := fun k hk =>
      ⟨(if_pos hk).trans (h.kept k hk), h.kept k hk⟩
    have hlog : (frames r'.2).reverse ++ verified w.since = verified (fs ++ w.since) := by
      rw [hframes, verified, verified, List.filter_append]
    have htracks := hrestored.foldl (frames r'.2)
    rw [← hcall.out, hlog] at htracks
    have hret := ret_eq hcall.turns
    have hverified : frames r'.2 ≠ [] ↔ ∃ f ∈ fs, Verified (format 16) f := by
      rw [← List.reverse_ne_nil_iff, hframes, Ne, List.filter_eq_nil_iff]
      push Not
      simp only [decide_eq_true_iff]
    refine ⟨fs, ?_⟩
    unfold Remembers Watched.step
    dsimp only
    rw [hresult]
    refine ⟨⟨⟨_, _, hreads'.cut, ?_⟩, hret.trans hverified, fun _ k hk => (htracks k hk).1,
      fun hfalse k hk => ?_⟩, hreads', fun k hk => (htracks k hk).2⟩
    · rw [length_content]
      exact hreads'.position
    · -- no frame was accepted
      have hnone : frames r'.2 = [] := by
        by_contra hne
        exact absurd (hfalse.symm.trans (hret.mpr hne)) (by decide)
      rw [hcall.out, hnone]
      rfl

/-- After `ghst_config`, every call that returns true puts out, for each channel, the value in the
last verified frame that had this channel, and 65535 if there was none; a call that returns false
leaves the values as they are.  The frames are those that the stream has been cut into. -/
theorem channels_remembered (frame : ByteStore.Mem) (out : Out) (inputs : List Input) :
    ∃ heard : List (Input × List (List UInt8)), heard.map Prod.fst = inputs ∧
      Trace.Always Watched.step Remembers ⟨ghstConfig ⟨0, false, frame, out⟩, [], [], []⟩ heard :=
  Trace.exists_always (I := Hears) (fun _ i h => remembers_step h i)
    ⟨⟨.start, Nat.zero_lt_succ 17⟩, fun _ hk => if_pos hk⟩ inputs

/-- The first four channels, and the others up to the eighth. -/
def frame5to8 : List UInt8 := [0x82, 12, 0x10, 0, 0, 0, 0, 0, 0, 0, 0, 0, 0, 234]

/-- Other values for the first four channels, and the ones from the ninth on. -/
def frame9to12 : List UInt8 := [0x82, 12, 0x11, 0, 0, 64, 0, 0, 0, 1, 2, 3, 4, 57]

/-- The decoder after `ghst_config`. -/
def configured : Parser Out :=
  ghstConfig ⟨0, false, fun _ => 0, ⟨fun _ => 0, 0, 0, 0, fun _ => 0⟩⟩

/-- Two frames in two chunks: the channels of the first one are put out with the second one. -/
theorem channels_remembered_two :
    (∃ heard : List (Input × List (List UInt8)),
      heard.map Prod.fst = [.chunk frame5to8, .chunk frame9to12] ∧
        Trace.Always Watched.step Remembers ⟨configured, [], [], []⟩ heard) ∧
      (let r := result (result configured frame5to8 16).1 frame9to12 16
       ret r.2 = true ∧ carried frame5to8 4 = some (r.1.out.values 4) ∧
        carried frame9to12 8 = some (r.1.out.values 8) ∧ r.1.out.values 12 = 65535) :=
  ⟨channels_remembered _ _ _, by decide +kernel⟩

/-- Behind a frame that lost its last four bytes, the next one is lost, though it is complete and
its checksum is right. -/
theorem frame_lost :
    let bytes := frame5to8 ++ frame5to8.take 10 ++ frame9to12
    let r := result configured bytes 16
    ret r.2 = true ∧ frame9to12 <:+ bytes ∧ Verified (format 16) frame9to12 ∧
      ∃ v, carried frame9to12 1 = some v ∧ r.1.out.values 1 ≠ v :=
  ⟨by decide +kernel, List.suffix_append _ _, by decide +kernel, _, rfl, by decide +kernel⟩

end Ghst
