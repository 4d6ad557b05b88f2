/-
The parser that the decoders for CRSF and GHST share.

Bytes are copied into a buffer that has the size of the largest frame.  There is no sync byte: the
parser looks for a length and a type that fit together; from there on it goes from frame to frame.
What is behind a frame moves to the beginning of the buffer.  Each time the buffer has been filled,
one frame is handled.

* `parseBuffer` — what is done with the buffer, as the list of the bytes that are accessed and the
  frame that has been accepted;
* `parseLoop` — the loop over the bytes of a call.  It gets the number of turns as an argument, and
  `none` is a loop that goes on;
* **`parseLoop_spec`** — the loop ends, and never without progress.
-/
import AerialManipulator.Rc.CommonRc
import AerialManipulator.Lib.Trace

open ByteStore CommonRc

namespace FrameParser

/-- What the two decoders differ in: the size of the buffer, the frames with channels, as a length
and a type, whether a call without progress returns, and what is done with a frame. -/
structure Format (α : Type) where
  size : ℕ
  isRc : UInt8 → UInt8 → Bool
  stops : Bool
  update : α → List UInt8 → α

/-- The variables of the parser, with what the decoder puts out. -/
structure Parser (α : Type) where
  position : ℕ
  synced : Bool
  frame : Mem
  out : α

/-- One turn of the loop: where the buffer is filled up to after it, whether there was no progress,
which of its bytes have been read or written, and the frame that was accepted. -/
structure Turn where
  position : ℕ
  stalled : Bool
  accesses : List ℕ
  decoded : Option (List UInt8)

variable {α : Type} (F : Format α)

namespace Parser

variable (p : Parser α)

/-- The number of places where a frame is looked for; the subtraction is one of 32 bits. -/
def places : ℕ := (p.position + 2 ^ 32 - 1) % 2 ^ 32 - 1

def search : Option ℕ :=
  (List.range' 1 p.places).find? fun i => F.isRc (p.frame i) (p.frame (i + 1))

def searched : List ℕ := (List.range' 1 p.places).flatMap fun i => [i, i + 1]

/-- `memmove` of the bytes from `offset` on to the beginning. -/
def moveToFront (offset : ℕ) : Parser α :=
  { p with
    frame := put p.frame 0 (slice p.frame offset (p.position - offset))
    position := p.position - offset }

def moved (offset n : ℕ) : List ℕ := List.range' offset n ++ List.range n

def synchronize : Parser α × List ℕ :=
  if p.synced then (p, [])
  else
    match p.search F with
    | none => (p, p.searched)
    | some i =>
      let p' := { p with synced := true }
      if i - 1 ≠ 0 then
        (p'.moveToFront (i - 1), p.searched ++ moved (i - 1) (p.position - (i - 1)))
      else (p', p.searched)

def discard : Parser α :=
  { p with frame := put p.frame 0 (slice p.frame (F.size - 3) 3), position := 3 }

def frameLength : ℕ := (p.frame 1).toNat + 2

/-- The checksum of the frame: over its type and its payload. -/
def frameCRC : UInt8 :=
  (slice p.frame 3 ((p.frame 1).toNat - 2)).foldl crc8DvbS2 (crc8DvbS2 0 (p.frame 2))

def frameAccesses : List ℕ := [1, 2, 3 + ((p.frame 1).toNat - 2)] ++
  List.range' 3 ((p.frame 1).toNat - 2)

/-- A frame that is complete: it is accepted if it has channels and its checksum is right. -/
def acceptFrame : Parser α × List ℕ × Option (List UInt8) :=
  if F.isRc (p.frame 1) (p.frame 2) then
    if p.frame (3 + ((p.frame 1).toNat - 2)) = p.frameCRC then
      ({ p with out := F.update p.out (slice p.frame 0 p.frameLength) }, p.frameAccesses,
        some (slice p.frame 0 p.frameLength))
    else (p, p.frameAccesses, none)
  else (p, [1, 2], none)

def removeFrame (length : ℕ) : Parser α × List ℕ :=
  if p.position > length then (p.moveToFront length, moved length (p.position - length))
  else ({ p with position := 0 }, [])

def handleFrame : Parser α × List ℕ × Option (List UInt8) :=
  if p.position < 3 then (p, [], none)
  -- too long or bogus: everything is discarded
  else if p.frameLength > F.size ∨ p.frameLength < 4 then
    ({ p with position := 0, synced := false }, [1], none)
  else if p.position < p.frameLength then (p, [1], none)
  else
    match p.acceptFrame F with
    | (p', accesses, decoded) =>
      match p'.removeFrame p.frameLength with
      | (p', accesses') => (p', accesses ++ accesses', decoded)

/-- `crsf_parse_buffer` and `ghst_parse_buffer`. -/
def parseBuffer : Parser α × List ℕ × Option (List UInt8) :=
  match p.synchronize F with
  | (p, searched) =>
    if ! p.synced then
      -- the last three bytes are kept, as a frame may start in them
      if p.position ≥ F.size then
        (p.discard F, searched ++ moved (F.size - 3) 3, none)
      else (p, searched, none)
    else
      match p.handleFrame F with
      | (p, accesses, decoded) => (p, searched ++ accesses, decoded)

/-- The number of bytes that are copied in one turn; the subtraction is one of 32 bits. -/
def currentLen (len : ℕ) : ℕ := min len ((F.size + 2 ^ 32 - p.position) % 2 ^ 32)

def fill (bytes : List UInt8) : Parser α :=
  { p with
    frame := put p.frame p.position (bytes.take (p.currentLen F bytes.length))
    position := p.position + p.currentLen F bytes.length }

/-- The loop of `crsf_parse` and `ghst_parse`. -/
def parseLoop : ℕ → Parser α → List UInt8 → Option (Parser α × List Turn)
  | _, p, [] => some (p, [])
  | 0, _, _ :: _ => none
  | fuel + 1, p, byte :: bytes =>
    let current_len := p.currentLen F (byte :: bytes).length
    let copied := List.range' p.position current_len
    let p := p.fill F (byte :: bytes)
    -- the protection against a loop without progress: CRSF returns here, GHST tries again
    if current_len = 0 then
      let p := { p with position := 0, synced := false }
      let turn : Turn := ⟨0, true, copied, none⟩
      if F.stops then some (p, [turn])
      else (parseLoop fuel p (byte :: bytes)).map fun r => (r.1, turn :: r.2)
    else
      match p.parseBuffer F with
      | (p, accesses, decoded) =>
        (parseLoop fuel p ((byte :: bytes).drop current_len)).map fun r =>
          (r.1, ⟨p.position, false, copied ++ accesses, decoded⟩ :: r.2)

end Parser

/-- The value that is returned: a call without progress makes it false. -/
def ret (turns : List Turn) : Bool :=
  turns.foldl (fun r t => if t.stalled then false else r || t.decoded.isSome) false

def frames (turns : List Turn) : List (List UInt8) := turns.filterMap Turn.decoded

/-! ### Frames -/

/-- The checksum of a frame: over what is between its header and its last byte. -/
def checksum (f : List UInt8) : UInt8 := ((f.drop 2).take (f.length - 3)).foldl crc8DvbS2 0

/-- The length and the type are those of a frame with channels, and the last byte is the
checksum. -/
structure Verified (f : List UInt8) : Prop where
  isRc : F.isRc (f.getD 1 0) (f.getD 2 0) = true
  length : f.length = (f.getD 1 0).toNat + 2
  crc : f.getD (f.length - 1) 0 = checksum f

/-- The buffer is larger than the bytes that are kept, and small enough for its arithmetic. -/
structure Format.Ok : Prop where
  pos : 4 ≤ F.size
  lt : F.size < 2 ^ 31

variable {F} {p : Parser α}

theorem getD_slice (m : Mem) {i n : ℕ} (h : i < n) : (slice m 0 n).getD i 0 = m i := by
  rw [List.getD_eq_getElem?_getD, getElem?_slice m 0 h, Nat.zero_add, Option.getD_some]

theorem checksum_slice (hlen : 2 ≤ (p.frame 1).toNat) :
    checksum (slice p.frame 0 p.frameLength) = p.frameCRC := by
  obtain ⟨n, hn⟩ : ∃ n, (p.frame 1).toNat = n + 2 := ⟨_, (Nat.sub_add_cancel hlen).symm⟩
  rw [checksum, Parser.frameLength, Parser.frameCRC, length_slice, hn,
    slice_drop _ _ (by omega), slice_take _ _ (by omega)]
  change (slice p.frame 2 (n + 1)).foldl crc8DvbS2 0 = _
  rw [slice_cons, List.foldl_cons]
  rfl

theorem verified_slice (hlen : 2 ≤ (p.frame 1).toNat) (hrc : F.isRc (p.frame 1) (p.frame 2) = true)
    (hcrc : p.frame (3 + ((p.frame 1).toNat - 2)) = p.frameCRC) :
    Verified F (slice p.frame 0 p.frameLength) := by
  have hlength : p.frameLength = (p.frame 1).toNat + 2 := rfl
  refine ⟨?_, ?_, ?_⟩
  · rw [getD_slice _ (by omega), getD_slice _ (by omega)]
    exact hrc
  · rw [getD_slice _ (by omega), length_slice, hlength]
  · rw [length_slice, getD_slice _ (by omega), checksum_slice hlen, ← hcrc]
    congr 1
    omega

/-! ### The buffer -/

/-- What a part of `parseBuffer` may do: there is room in the buffer after it, its accesses are
inside of the buffer, and the output is changed by a frame that is verified and by nothing else. -/
structure Handled (F : Format α) (p : Parser α) (r : Parser α × List ℕ × Option (List UInt8)) :
    Prop where
  position : r.1.position < F.size
  accesses : ∀ a ∈ r.2.1, a < F.size
  decoded : ∀ f, r.2.2 = some f → Verified F f ∧ r.1.out = F.update p.out f
  silent : r.2.2 = none → r.1.out = p.out

theorem mem_moved {offset n a : ℕ} (h : a ∈ Parser.moved offset n) : a < offset + n := by
  rcases List.mem_append.mp h with h | h
  · exact (List.mem_range'_1.mp h).2
  · have := List.mem_range.mp h
    omega

theorem acceptFrame_spec (hlen : 2 ≤ (p.frame 1).toNat) :
    ((p.acceptFrame F).1.position = p.position ∧ (p.acceptFrame F).1.frame = p.frame) ∧
      (∀ a ∈ (p.acceptFrame F).2.1, a < p.frameLength) ∧
      (∀ f, (p.acceptFrame F).2.2 = some f →
        Verified F f ∧ (p.acceptFrame F).1.out = F.update p.out f) ∧
      ((p.acceptFrame F).2.2 = none → (p.acceptFrame F).1.out = p.out) := by
  have hlength : p.frameLength = (p.frame 1).toNat + 2 := rfl
  have haccesses : ∀ a ∈ p.frameAccesses, a < p.frameLength := by
    intro a ha
    rcases List.mem_append.mp ha with ha | ha
    · simp only [List.mem_cons, List.not_mem_nil, or_false] at ha
      omega
    · have := List.mem_range'_1.mp ha
      omega
  unfold Parser.acceptFrame
  split
  next hrc =>
    split
    next hcrc =>
      refine ⟨⟨rfl, rfl⟩, haccesses, ?_, fun h => absurd h (by simp)⟩
      rintro _ ⟨⟩
      exact ⟨verified_slice hlen hrc hcrc, rfl⟩
    next => exact ⟨⟨rfl, rfl⟩, haccesses, fun f h => absurd h (by simp), fun _ => rfl⟩
  next =>
    refine ⟨⟨rfl, rfl⟩, ?_, fun f h => absurd h (by simp), fun _ => rfl⟩
    simp only [List.forall_mem_cons, List.not_mem_nil, false_implies, implies_true, and_true]
    omega

theorem handleFrame_spec (hF : F.Ok) (hp : p.position ≤ F.size) :
    Handled F p (p.handleFrame F) := by
  have hpos := hF.pos
  unfold Parser.handleFrame
  split
  next hshort =>
    exact ⟨by dsimp only; omega, by simp, fun f h => absurd h (by simp), fun _ => rfl⟩
  next =>
    split
    next =>
      refine ⟨by dsimp only; omega, ?_, fun f h => absurd h (by simp), fun _ => rfl⟩
      simp only [List.mem_singleton, forall_eq]
      omega
    next hlength =>
      split
      next hmore =>
        refine ⟨by dsimp only; omega, ?_, fun f h => absurd h (by simp), fun _ => rfl⟩
        simp only [List.mem_singleton, forall_eq]
        omega
      next hfull =>
        have hlen : 2 ≤ (p.frame 1).toNat := by
          have : p.frameLength = (p.frame 1).toNat + 2 := rfl
          omega
        obtain ⟨⟨hposition, hframe⟩, haccesses, hdecoded, hsilent⟩ := acceptFrame_spec (F := F) hlen
        generalize p.acceptFrame F = r at *
        obtain ⟨p', accesses, decoded⟩ := r
        dsimp only at hposition hframe haccesses hdecoded hsilent ⊢
        unfold Parser.removeFrame
        split
        next hgt =>
          refine ⟨?_, ?_, hdecoded, hsilent⟩
          · change p'.position - p.frameLength < F.size
            omega
          · intro a ha
            rcases List.mem_append.mp ha with ha | ha
            · exact (haccesses a ha).trans_le (by omega)
            · have := mem_moved ha
              omega
        next hle =>
          refine ⟨by dsimp only; omega, ?_, hdecoded, hsilent⟩
          intro a ha
          rw [List.append_nil] at ha
          exact (haccesses a ha).trans_le (by omega)

theorem places_eq (hp : 1 ≤ p.position) (hlt : p.position < 2 ^ 32) :
    p.places = p.position - 2 := by
  unfold Parser.places
  omega

theorem synchronize_spec (hF : F.Ok) (hp : 1 ≤ p.position) (hp' : p.position ≤ F.size) :
    (p.synchronize F).1.position ≤ F.size ∧ (∀ a ∈ (p.synchronize F).2, a < F.size) ∧
      (p.synchronize F).1.out = p.out := by
  have hlt := hF.lt
  have hplaces := places_eq hp (by omega)
  have hsearched : ∀ a ∈ p.searched, a < F.size := by
    intro a ha
    obtain ⟨i, hi, ha⟩ := List.mem_flatMap.mp ha
    have hi' := List.mem_range'_1.mp hi
    simp only [List.mem_cons, List.not_mem_nil, or_false] at ha
    omega
  unfold Parser.synchronize
  split
  next => exact ⟨hp', by simp, rfl⟩
  next =>
    split
    next =>
      dsimp only
      exact ⟨hp', hsearched, rfl⟩
    next i hi =>
      have hi' := List.mem_range'_1.mp (List.mem_of_find?_eq_some hi)
      split
      next =>
        refine ⟨?_, ?_, rfl⟩
        · change p.position - (i - 1) ≤ F.size
          omega
        · intro a ha
          rcases List.mem_append.mp ha with ha | ha
          · exact hsearched a ha
          · have := mem_moved ha
            omega
      next =>
        dsimp only
        exact ⟨hp', hsearched, rfl⟩

theorem parseBuffer_spec (hF : F.Ok) (hp : 1 ≤ p.position) (hp' : p.position ≤ F.size) :
    Handled F p (p.parseBuffer F) := by
  have hpos := hF.pos
  obtain ⟨hposition, hsearched, hout⟩ := synchronize_spec hF hp hp'
  unfold Parser.parseBuffer
  generalize p.synchronize F = r at *
  obtain ⟨p₁, searched⟩ := r
  dsimp only at hposition hsearched hout ⊢
  split
  next =>
    split
    next =>
      refine ⟨hpos, ?_, fun f h => absurd h (by simp), fun _ => hout⟩
      intro a ha
      rcases List.mem_append.mp ha with ha | ha
      · exact hsearched a ha
      · have := mem_moved ha
        omega
    next hroom =>
      exact ⟨Nat.lt_of_not_le hroom, hsearched, fun f h => absurd h (by simp), fun _ => hout⟩
  next =>
    obtain ⟨hposition', haccesses, hdecoded, hsilent⟩ := handleFrame_spec hF hposition
    refine ⟨hposition', ?_, ?_, fun h => (hsilent h).trans hout⟩
    · intro a ha
      rcases List.mem_append.mp ha with ha | ha
      · exact hsearched a ha
      · exact haccesses a ha
    · intro f hf
      rw [← hout]
      exact hdecoded f hf

/-! ### The loop -/

/-- What a turn of the loop does. -/
structure TurnOk (F : Format α) (t : Turn) : Prop where
  position : t.position < F.size
  progress : t.stalled = false
  accesses : ∀ a ∈ t.accesses, a < F.size
  verified : ∀ f, t.decoded = some f → Verified F f

/-- What a call does: there is room in the buffer after it, and what is put out comes from the
frames that were accepted. -/
structure CallOk (F : Format α) (p : Parser α) (r : Parser α × List Turn) : Prop where
  position : r.1.position < F.size
  turns : ∀ t ∈ r.2, TurnOk F t
  out : r.1.out = (frames r.2).foldl F.update p.out

theorem currentLen_eq (hF : F.Ok) (hp : p.position < F.size) (n : ℕ) :
    p.currentLen F n = min n (F.size - p.position) := by
  have hlt := hF.lt
  have hroom : (F.size + 2 ^ 32 - p.position) % 2 ^ 32 = F.size - p.position := by omega
  rw [Parser.currentLen, hroom]

def Parser.next (F : Format α) (p : Parser α) (bytes : List UInt8) : Parser α :=
  ((p.fill F bytes).parseBuffer F).1

def Parser.turn (F : Format α) (p : Parser α) (bytes : List UInt8) : Turn :=
  ⟨(p.next F bytes).position, false,
    List.range' p.position (p.currentLen F bytes.length) ++ ((p.fill F bytes).parseBuffer F).2.1,
    ((p.fill F bytes).parseBuffer F).2.2⟩

theorem parseLoop_cons (hF : F.Ok) (hp : p.position < F.size) (fuel : ℕ) {bytes : List UInt8}
    (hne : bytes ≠ []) :
    Parser.parseLoop F (fuel + 1) p bytes =
      (Parser.parseLoop F fuel (p.next F bytes) (bytes.drop (p.currentLen F bytes.length))).map
        fun r => (r.1, p.turn F bytes :: r.2) := by
  obtain ⟨b, bs, rfl⟩ := List.exists_cons_of_ne_nil hne
  have hlen : p.currentLen F (b :: bs).length ≠ 0 := by
    rw [currentLen_eq hF hp, List.length_cons]
    omega
  rw [Parser.parseLoop, if_neg hlen]
  rfl

theorem turn_spec (hF : F.Ok) (hp : p.position < F.size) {bytes : List UInt8} (hne : bytes ≠ []) :
    (p.next F bytes).position < F.size ∧ TurnOk F (p.turn F bytes) ∧
      (p.next F bytes).out = (p.turn F bytes).decoded.toList.foldl F.update p.out := by
  have hlen := currentLen_eq hF hp bytes.length
  have hpos := List.length_pos_iff.mpr hne
  have hfill : (p.fill F bytes).position = p.position + p.currentLen F bytes.length := rfl
  have hhandled : Handled F (p.fill F bytes) ((p.fill F bytes).parseBuffer F) :=
    parseBuffer_spec hF (by omega) (by omega)
  refine ⟨hhandled.position, ⟨hhandled.position, rfl, ?_, ?_⟩, ?_⟩
  · intro a ha
    rcases List.mem_append.mp ha with ha | ha
    · have ha' := List.mem_range'_1.mp ha
      omega
    · exact hhandled.accesses a ha
  · exact fun f hf => (hhandled.decoded f hf).1
  · rw [Parser.next, Parser.turn]
    cases hdecoded : ((p.fill F bytes).parseBuffer F).2.2 with
    | none => exact hhandled.silent hdecoded
    | some f => exact (hhandled.decoded f hdecoded).2

theorem frames_cons (t : Turn) (ts : List Turn) :
    frames (t :: ts) = t.decoded.toList ++ frames ts := by
  rw [frames, List.filterMap_cons]
  cases t.decoded <;> rfl

theorem parseLoop_spec (hF : F.Ok) (hp : p.position < F.size) (bytes : List UInt8) :
    ∃ r, (∀ fuel ≥ bytes.length, Parser.parseLoop F fuel p bytes = some r) ∧ CallOk F p r := by
  induction hn : bytes.length using Nat.strong_induction_on generalizing p bytes with
  | _ n ih =>
    by_cases hne : bytes = []
    · subst hne
      refine ⟨(p, []), fun fuel _ => ?_, hp, by simp, rfl⟩
      rw [Parser.parseLoop]
    · have hlen := currentLen_eq hF hp bytes.length
      have hpos := List.length_pos_iff.mpr hne
      have hdrop := List.length_drop (l := bytes) (i := p.currentLen F bytes.length)
      obtain ⟨hposition, hturn, hout⟩ := turn_spec hF hp hne
      obtain ⟨r, hr, hcall⟩ :=
        ih _ (by omega) hposition (bytes.drop (p.currentLen F bytes.length)) rfl
      refine ⟨(r.1, p.turn F bytes :: r.2), fun fuel hfuel => ?_, hcall.position,
        List.forall_mem_cons.mpr ⟨hturn, hcall.turns⟩, ?_⟩
      · obtain ⟨fuel, rfl⟩ : ∃ k, fuel = k + 1 := Nat.exists_eq_succ_of_ne_zero (by omega)
        rw [parseLoop_cons hF hp fuel hne, hr fuel (by omega), Option.map_some]
      · dsimp only
        rw [hcall.out, hout, frames_cons, List.foldl_append]

theorem ret_eq {turns : List Turn} (h : ∀ t ∈ turns, TurnOk F t) :
    ret turns = true ↔ frames turns ≠ [] := by
  have hfold : ∀ (ts : List Turn) (r : Bool), (∀ t ∈ ts, TurnOk F t) →
      (ts.foldl (fun r t => if t.stalled then false else r || t.decoded.isSome) r = true ↔
        r = true ∨ frames ts ≠ []) := by
    intro ts
    induction ts with
    | nil => simp [frames]
    | cons t ts ih =>
      intro r hts
      obtain ⟨ht, hts⟩ := List.forall_mem_cons.mp hts
      rw [List.foldl_cons, ht.progress, if_neg (by decide), ih _ hts, frames_cons]
      cases t.decoded <;> simp
  rw [ret, hfold turns false h]
  simp

/-! ### Frame by frame -/

def Parser.content (p : Parser α) : List UInt8 := slice p.frame 0 p.position

theorem content_fill (bytes : List UInt8) :
    (p.fill F bytes).content = p.content ++ bytes.take (p.currentLen F bytes.length) := by
  have hlen : (bytes.take (p.currentLen F bytes.length)).length = p.currentLen F bytes.length := by
    rw [List.length_take]
    exact Nat.min_eq_left (Nat.min_le_left _ _)
  rw [Parser.content, Parser.fill]
  dsimp only
  rw [slice_add, Nat.zero_add]
  congr 1
  · exact slice_congr fun i hi => put_of_lt (by omega)
  · nth_rewrite 2 [← hlen]
    exact slice_put_self _ _ _

theorem content_moveToFront {offset : ℕ} (h : offset ≤ p.position) :
    (p.moveToFront offset).content = p.content.drop offset := by
  have hself := slice_put_self p.frame 0 (slice p.frame offset (p.position - offset))
  rw [length_slice] at hself
  rw [Parser.content, Parser.content, slice_drop _ _ h, Nat.zero_add]
  exact hself

theorem content_removeFrame {length : ℕ} (h : length ≤ p.position) :
    (p.removeFrame length).1.content = p.content.drop length ∧
      (p.removeFrame length).1.position = p.position - length ∧
      (p.removeFrame length).1.synced = p.synced := by
  unfold Parser.removeFrame
  split
  next => exact ⟨content_moveToFront h, rfl, rfl⟩
  next hle =>
    obtain rfl : p.position = length := by omega
    refine ⟨?_, (Nat.sub_self _).symm, rfl⟩
    rw [List.drop_of_length_le (by rw [Parser.content, length_slice])]
    rfl

theorem acceptFrame_fields : (p.acceptFrame F).1.content = p.content ∧
    (p.acceptFrame F).1.position = p.position ∧ (p.acceptFrame F).1.synced = p.synced := by
  unfold Parser.acceptFrame
  split
  · split <;> exact ⟨rfl, rfl, rfl⟩
  · exact ⟨rfl, rfl, rfl⟩

/-- A frame that can be parsed: its length fits, and if it has channels its checksum is right. -/
structure WellFormed (F : Format α) (f : List UInt8) : Prop where
  min : 4 ≤ f.length
  max : f.length ≤ F.size
  length : (f.getD 1 0).toNat + 2 = f.length
  crc : F.isRc (f.getD 1 0) (f.getD 2 0) = true → f.getD (f.length - 1) 0 = checksum f

theorem frame_eq_getD {f : List UInt8} {rest : List UInt8} {n i : ℕ}
    (hcontent : p.content = (f ++ rest).take n) (hposition : p.position = n) (hi : i < n)
    (hi' : i < f.length) : p.frame i = f.getD i 0 := by
  have hget : p.content.getD i 0 = p.frame i := getD_slice p.frame (by omega)
  rw [← hget, hcontent, List.getD_eq_getElem?_getD, List.getElem?_take_of_lt hi,
    List.getElem?_append_left hi', List.getD_eq_getElem?_getD]

theorem acceptFrame_decoded {f rest : List UInt8} {n : ℕ} (hf : WellFormed F f)
    (hcontent : p.content = (f ++ rest).take n) (hposition : p.position = n)
    (hle : f.length ≤ n) :
    (p.acceptFrame F).2.2 = if F.isRc (f.getD 1 0) (f.getD 2 0) then some f else none := by
  have hmin := hf.min
  have hbyte : ∀ i < f.length, p.frame i = f.getD i 0 := fun i hi =>
    frame_eq_getD hcontent hposition (by omega) hi
  have hlength : p.frameLength = f.length := by
    rw [Parser.frameLength, hbyte 1 (by omega), hf.length]
  have hslice : slice p.frame 0 p.frameLength = f := by
    rw [hlength, ← slice_take p.frame 0 (hposition.symm ▸ hle)]
    change p.content.take f.length = f
    rw [hcontent, List.take_take, Nat.min_eq_left hle, List.take_left]
  have htwo : (p.frame 1).toNat + 2 = f.length := hlength
  rw [Parser.acceptFrame, hbyte 2 (by omega), ← hbyte 1 (by omega), hslice]
  split
  next hrc =>
    rw [hbyte 1 (by omega)] at hrc
    have hlast : 3 + ((p.frame 1).toNat - 2) = f.length - 1 := by omega
    have hcrc : p.frame (3 + ((p.frame 1).toNat - 2)) = p.frameCRC := by
      rw [hlast, hbyte _ (by omega), hf.crc hrc, ← checksum_slice (by omega), hslice]
    rw [if_pos hcrc]
  next => rfl

theorem handleFrame_content {f rest : List UInt8} {n : ℕ} (hf : WellFormed F f)
    (hcontent : p.content = (f ++ rest).take n) (hposition : p.position = n)
    (hsynced : p.synced = true) :
    (p.handleFrame F).1.synced = true ∧
    (n < f.length → (p.handleFrame F).2.2 = none ∧ (p.handleFrame F).1.position = n ∧
      (p.handleFrame F).1.content = (f ++ rest).take n) ∧
    (f.length ≤ n →
      (p.handleFrame F).2.2 = (if F.isRc (f.getD 1 0) (f.getD 2 0) then some f else none) ∧
      (p.handleFrame F).1.position = n - f.length ∧
      (p.handleFrame F).1.content = rest.take (n - f.length)) := by
  have hmin := hf.min
  have hmax := hf.max
  unfold Parser.handleFrame
  split
  next hshort =>
    refine ⟨hsynced, fun _ => ⟨rfl, hposition, hcontent⟩, fun hle => ?_⟩
    omega
  next hheader =>
    have hlength : p.frameLength = f.length := by
      rw [Parser.frameLength, frame_eq_getD hcontent hposition (by omega) (by omega), hf.length]
    rw [hlength, if_neg (by omega)]
    split
    next hmore => exact ⟨hsynced, fun _ => ⟨rfl, hposition, hcontent⟩, fun hle => by omega⟩
    next hfull =>
      obtain ⟨hcontent', hposition', hsynced'⟩ := @acceptFrame_fields α F p
      obtain ⟨hcontent'', hposition'', hsynced''⟩ :=
        content_removeFrame (p := (p.acceptFrame F).1) (hposition'.symm ▸ Nat.le_of_not_lt hfull)
      refine ⟨hsynced''.trans (hsynced'.trans hsynced), fun hlt => by omega,
        fun hle => ⟨?_, ?_, ?_⟩⟩
      · exact acceptFrame_decoded hf hcontent hposition hle
      · rw [hposition'', hposition', hposition]
      · rw [hcontent'', hcontent', hcontent, List.drop_take, List.drop_left]

theorem parseBuffer_synced (h : p.synced = true) : p.parseBuffer F = p.handleFrame F := by
  have hsync : p.synchronize F = (p, []) := by rw [Parser.synchronize, if_pos h]
  rw [Parser.parseBuffer, hsync]
  dsimp only
  rw [h]
  rfl

/-- In sync, the buffer holds the beginning of the frames that have not been handled. -/
structure Linked (F : Format α) (p : Parser α) (fs : List (List UInt8)) (n : ℕ) : Prop where
  synced : p.synced = true
  position : p.position = n
  lt : n < F.size
  content : p.content = fs.flatten.take n
  le : n ≤ fs.flatten.length

theorem Linked.turn {f : List UInt8} {fs : List (List UInt8)} {n : ℕ} (hF : F.Ok)
    (h : Linked F p (f :: fs) n) (hf : WellFormed F f) {bytes : List UInt8}
    (hbytes : bytes <+: (f :: fs).flatten.drop n) :
    (n + p.currentLen F bytes.length < f.length →
      (p.turn F bytes).decoded = none ∧
        Linked F (p.next F bytes) (f :: fs) (n + p.currentLen F bytes.length)) ∧
    (f.length ≤ n + p.currentLen F bytes.length →
      (p.turn F bytes).decoded = (if F.isRc (f.getD 1 0) (f.getD 2 0) then some f else none) ∧
        Linked F (p.next F bytes) fs (n + p.currentLen F bytes.length - f.length)) := by
  have hmin := hf.min
  have hmax := hf.max
  have hlt := h.lt
  have hle := h.le
  have hlen := currentLen_eq hF (h.position.symm ▸ h.lt) bytes.length
  rw [h.position] at hlen
  obtain ⟨later, hlater⟩ := hbytes
  have htotal : n + bytes.length ≤ (f :: fs).flatten.length := by
    have := congrArg List.length hlater
    rw [List.length_append, List.length_drop] at this
    omega
  have hcontent : (p.fill F bytes).content =
      (f ++ fs.flatten).take (n + p.currentLen F bytes.length) := by
    rw [content_fill, h.content, List.take_add]
    congr 1
    rw [← List.flatten_cons, ← hlater, List.take_append_of_le_length (by omega)]
  have hposition : (p.fill F bytes).position = n + p.currentLen F bytes.length := by
    rw [← h.position]
    rfl
  have hflatten : (f :: fs).flatten.length = f.length + fs.flatten.length := by
    rw [List.flatten_cons, List.length_append]
  have hsynced : (p.fill F bytes).synced = true := h.synced
  obtain ⟨hsynced', hmore, hfull⟩ := handleFrame_content hf hcontent hposition hsynced
  rw [Parser.turn, Parser.next, parseBuffer_synced hsynced]
  refine ⟨fun hlt' => ?_, fun hle' => ?_⟩
  · obtain ⟨hdecoded, hposition', hcontent'⟩ := hmore hlt'
    exact ⟨hdecoded, hsynced', hposition', by omega, hcontent', by omega⟩
  · obtain ⟨hdecoded, hposition', hcontent'⟩ := hfull hle'
    exact ⟨hdecoded, hsynced', hposition', by omega, hcontent', by omega⟩

end FrameParser
