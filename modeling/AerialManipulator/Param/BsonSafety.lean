/-
The decoder on bytes that nobody has checked.

What `bson_decoder_next` and `bson_decoder_copy_data` do to memory, when they read from a buffer:
which bytes of the buffer they read, and which bytes of the name of the node they write.  A
callback is a program that copies the data of a node or does not, so a run is any order of calls.

* `Step` — what a part of the decoder does: it moves on in the buffer, and is dead if it fails;
* **`safeRun`** — whatever the bytes are, as many as the decoder has been told of, no call leaves
  the buffer or the name, and the calls come to an end.
-/
import AerialManipulator.Lib.Mealy
import AerialManipulator.Lib.Trace
import AerialManipulator.Param.TinyBson

open ByteStream

namespace Bson

/-- Bytes of the buffer that are read, or a byte of the name that is written. -/
inductive Access
  | read (a n : ℕ)
  | name (i : ℕ)

def Access.Inside (length : ℕ) : Access → Prop
  | read a n => a + n ≤ length
  | name i => i < maxName

namespace Decoder

/-! ### Accesses -/

def readXAccesses (d : Decoder) (s : ℕ) : List Access :=
  if d.dead then []
  else
    match d.source with
    | .file _ => []
    | .buffer _ bufsize bufpos =>
      if s ≥ bufsize then []
      else if bufsize - s < bufpos then []
      else [.read bufpos s]

def readOrAccesses (d : Decoder) (s : ℕ) (k : Decoder → List UInt8 → List Access) : List Access :=
  d.readXAccesses s ++
    match d.readX s with
    | (_, none) => []
    | (d, some data) => k d data

/-- A size of zero is taken from the first bytes of the buffer. -/
def initBufAccesses (buf : List UInt8) (bufsize : ℕ) : List Access :=
  (if bufsize = 0 then [.read 0 4] else []) ++
    let bufsize := if bufsize = 0 then ofLittleEndian (buf.take 4) else bufsize
    readXAccesses ⟨.buffer buf bufsize 0, false, 1, .UNDEFINED, 0⟩ 4

def discardAccesses : ℕ → Decoder → List Access
  | 0, _ => []
  | n + 1, d => d.readOrAccesses 1 fun d _ => discardAccesses n d

def readNameAccesses : Decoder → ℕ → List UInt8 → List Access
  | _, 0, _ => []
  | d, n + 1, name =>
    d.readOrAccesses 1 fun d data =>
      .name name.length :: if data = [0] then [] else readNameAccesses d n (name ++ data)

def readValueAccesses (d : Decoder) : Kind → List Access
  | .BOOL => d.readXAccesses 1
  | .INT32 => d.readXAccesses 4
  | .INT64 => d.readXAccesses 8
  | .DOUBLE => d.readXAccesses 8
  | .STRING => d.readXAccesses 4
  | .BINDATA => d.readOrAccesses 4 fun d data => { d with pending := toInt32 data }.readXAccesses 1

def nextNodeAccesses (d : Decoder) (tbyte : UInt8) : List Access :=
  d.readNameAccesses maxName [] ++
    match d.readName maxName [] with
    | (_, none) => []
    | (d, some _) =>
      match Kind.ofCode tbyte with
      | none => []
      | some kind => { d with type := .node kind }.readValueAccesses kind

def nextAccesses (d : Decoder) : List Access :=
  if d.dead then []
  else if d.type = .EOO ∧ d.nesting - 1 = 0 then []
  else
    let d := if d.type = .EOO then { d with nesting := d.nesting - 1 } else d
    discardAccesses d.pending.toInt.toNat d ++
      match discard d.pending.toInt.toNat d with
      | (_, none) => []
      | (d, some ()) =>
        d.readOrAccesses 1 fun d data =>
          if data.headD 0 = EOO then [.name 0]
          else { d with pending := 0 }.nextNodeAccesses (data.headD 0)

def copyDataAccesses (d : Decoder) : List Access :=
  if d.dead then [] else d.readXAccesses (d.pending.toInt % 2 ^ 64).toNat

/-! ### What a part of the decoder does -/

/-- From this place in the buffer it has moved on, and if it has failed it is dead. -/
structure Step (buf : List UInt8) (bufsize pos nesting : ℕ) (failed : Prop) (accesses : List Access)
    (d : Decoder) : Prop where
  inside : ∀ a ∈ accesses, a.Inside bufsize
  source : ∃ pos', d.source = .buffer buf bufsize pos' ∧ pos ≤ pos' ∧ pos' ≤ bufsize
  nesting : d.nesting = nesting
  dead : failed → d.dead = true

variable {α : Type} {buf : List UInt8} {bufsize pos : ℕ} {d : Decoder} {s : ℕ}

theorem readX_buffer (hsource : d.source = .buffer buf bufsize pos) (s : ℕ) :
    (d.readXAccesses s = [] ∧ ∃ d', d.readX s = (d', none) ∧ d'.source = d.source ∧
      d'.nesting = d.nesting) ∨
    (pos + s ≤ bufsize ∧ d.readXAccesses s = [.read pos s] ∧
      d.readX s = ({ d with source := .buffer buf bufsize (pos + s) },
        some ((buf.drop pos).take s))) := by
  rw [readXAccesses, readX, hsource]
  dsimp only
  split_ifs with hdead hsize hroom
  · exact .inl ⟨rfl, d, rfl, hsource, rfl⟩
  · exact .inl ⟨rfl, _, rfl, rfl, rfl⟩
  · exact .inl ⟨rfl, _, rfl, rfl, rfl⟩
  · exact .inr ⟨by omega, rfl, rfl⟩

theorem readOr_step {k : Decoder → List UInt8 → Decoder × Option α}
    (accesses : Decoder → List UInt8 → List Access) (hsource : d.source = .buffer buf bufsize pos)
    (hpos : pos ≤ bufsize)
    (hk : ∀ d' data, d'.source = .buffer buf bufsize (pos + s) → pos + s ≤ bufsize →
      d'.nesting = d.nesting → data.length ≤ s →
      Step buf bufsize (pos + s) d.nesting ((k d' data).2 = none) (accesses d' data)
        (k d' data).1) :
    Step buf bufsize pos d.nesting ((d.readOr s k).2 = none) (d.readOrAccesses s accesses)
      (d.readOr s k).1 := by
  rw [readOr, readOrAccesses]
  obtain ⟨hnone, d', hread, hsource', hnesting⟩ | ⟨hroom, hsome, hread⟩ := readX_buffer hsource s
  · rw [hnone, hread]
    exact ⟨fun a ha => absurd ha List.not_mem_nil,
      ⟨pos, hsource'.trans hsource, Nat.le_refl pos, hpos⟩, hnesting, fun _ => rfl⟩
  · rw [hsome, hread]
    obtain ⟨hinside, ⟨pos', hpos', hle, hle'⟩, hnesting, hdead⟩ :=
      hk { d with source := .buffer buf bufsize (pos + s) } ((buf.drop pos).take s) rfl hroom rfl
        (List.length_take_le _ _)
    refine ⟨?_, ⟨pos', hpos', by omega, hle'⟩, hnesting, hdead⟩
    intro a ha
    rcases List.mem_cons.mp ha with rfl | ha
    · exact hroom
    · exact hinside a ha

theorem readOr_step_last {k : Decoder → List UInt8 → Decoder × Option α}
    (hsource : d.source = .buffer buf bufsize pos) (hpos : pos ≤ bufsize)
    (hk : ∀ d' data, (k d' data).1.source = d'.source ∧ (k d' data).1.nesting = d'.nesting ∧
      (k d' data).2 ≠ none) :
    Step buf bufsize pos d.nesting ((d.readOr s k).2 = none) (d.readXAccesses s)
      (d.readOr s k).1 := by
  have hstep := readOr_step (s := s) (k := k) (fun _ _ => []) hsource hpos
    fun d' data hsource' hpos' hnesting _ => by
      obtain ⟨hsame, hsame', hsome⟩ := hk d' data
      exact ⟨fun a ha => absurd ha List.not_mem_nil,
        ⟨pos + s, hsame.trans hsource', Nat.le_refl _, hpos'⟩, hsame'.trans hnesting,
        fun hnone => absurd hnone hsome⟩
  rw [readOrAccesses] at hstep
  exact ⟨fun a ha => hstep.inside a (List.mem_append_left _ ha), hstep.source, hstep.nesting,
    hstep.dead⟩

theorem discard_step (n : ℕ) (hsource : d.source = .buffer buf bufsize pos) (hpos : pos ≤ bufsize) :
    Step buf bufsize pos d.nesting ((discard n d).2 = none) (discardAccesses n d)
      (discard n d).1 := by
  induction n generalizing d pos with
  | zero =>
    exact ⟨fun a ha => absurd ha List.not_mem_nil, ⟨pos, hsource, Nat.le_refl _, hpos⟩, rfl,
      fun h => absurd h (Option.some_ne_none ())⟩
  | succ n ih =>
    refine readOr_step _ hsource hpos fun d' data hsource' hpos' hnesting _ => ?_
    rw [← hnesting]
    exact ih hsource' hpos'

theorem readName_step (n : ℕ) (name : List UInt8) (hname : name.length + n ≤ maxName)
    (hsource : d.source = .buffer buf bufsize pos) (hpos : pos ≤ bufsize) :
    Step buf bufsize pos d.nesting ((d.readName n name).2 = none) (d.readNameAccesses n name)
      (d.readName n name).1 := by
  induction n generalizing d pos name with
  | zero =>
    exact ⟨fun a ha => absurd ha List.not_mem_nil, ⟨pos, hsource, Nat.le_refl _, hpos⟩, rfl,
      fun _ => rfl⟩
  | succ n ih =>
    refine readOr_step _ hsource hpos fun d' data hsource' hpos' hnesting hdata => ?_
    have hroom : name.length < maxName := by omega
    by_cases hend : data = [0]
    · rw [if_pos hend, if_pos hend]
      refine ⟨?_, ⟨pos + 1, hsource', Nat.le_refl _, hpos'⟩, hnesting, fun h => nomatch h⟩
      intro a ha
      rw [List.mem_singleton.mp ha]
      exact hroom
    · rw [if_neg hend, if_neg hend, ← hnesting]
      have hstep := ih (name ++ data) (by rw [List.length_append]; omega) hsource' hpos'
      refine ⟨?_, hstep.source, hstep.nesting, hstep.dead⟩
      intro a ha
      rcases List.mem_cons.mp ha with rfl | ha
      · exact hroom
      · exact hstep.inside a ha

theorem readValue_step (short_enums : Bool) (kind : Kind)
    (hsource : d.source = .buffer buf bufsize pos) (hpos : pos ≤ bufsize) :
    Step buf bufsize pos d.nesting ((d.readValue short_enums kind).2 = none)
      (d.readValueAccesses kind) (d.readValue short_enums kind).1 := by
  cases kind with
  | BINDATA =>
    refine readOr_step _ hsource hpos fun d' data hsource' hpos' hnesting _ => ?_
    rw [← hnesting]
    exact readOr_step_last (d := { d' with pending := toInt32 data }) hsource' hpos'
      fun d' data => ⟨rfl, rfl, Option.some_ne_none _⟩
  | _ => exact readOr_step_last hsource hpos fun d' data => ⟨rfl, rfl, Option.some_ne_none _⟩

theorem Step.trans {nesting pos' : ℕ} {failed failed' : Prop} {d' : Decoder}
    {accesses accesses' : List Access}
    (h : Step buf bufsize pos nesting failed accesses d)
    (hpos : d.source = .buffer buf bufsize pos')
    (h' : Step buf bufsize pos' nesting failed' accesses' d') :
    Step buf bufsize pos nesting failed' (accesses ++ accesses') d' := by
  obtain ⟨q, hq, hle, -⟩ := h.source
  obtain ⟨q', hq', hle', hend⟩ := h'.source
  have heq : q = pos' := by
    rw [hpos] at hq
    exact (Source.buffer.inj hq).2.2.symm
  refine ⟨?_, ⟨q', hq', by omega, hend⟩, h'.nesting, h'.dead⟩
  intro a ha
  rcases List.mem_append.mp ha with ha | ha
  · exact h.inside a ha
  · exact h'.inside a ha

theorem nextNode_step (short_enums : Bool) (tbyte : UInt8)
    (hsource : d.source = .buffer buf bufsize pos) (hpos : pos ≤ bufsize) :
    Step buf bufsize pos d.nesting ((d.nextNode short_enums tbyte).2 = .error)
      (d.nextNodeAccesses tbyte) (d.nextNode short_enums tbyte).1 := by
  have hname := readName_step maxName [] (by rw [List.length_nil, Nat.zero_add]) hsource hpos
  rw [nextNode, nextNodeAccesses]
  rcases hread : d.readName maxName [] with ⟨d₁, _ | name⟩
  · rw [hread] at hname
    dsimp only
    rw [List.append_nil]
    exact ⟨hname.inside, hname.source, hname.nesting, fun _ => hname.dead rfl⟩
  · rw [hread] at hname
    obtain ⟨pos₁, hsource₁, hle₁, hpos₁⟩ := hname.source
    refine hname.trans hsource₁ ?_
    have hnesting : d₁.nesting = d.nesting := hname.nesting
    dsimp only
    cases hkind : Kind.ofCode tbyte with
    | none =>
      exact ⟨fun a ha => absurd ha List.not_mem_nil, ⟨pos₁, hsource₁, Nat.le_refl _, hpos₁⟩,
        hnesting, fun _ => rfl⟩
    | some kind =>
      have hvalue := readValue_step (d := { d₁ with type := .node kind }) short_enums kind hsource₁
        hpos₁
      rw [← hnesting]
      dsimp only at hvalue ⊢
      rcases hread' : { d₁ with type := .node kind }.readValue short_enums kind with ⟨d₂, _ | value⟩
      · rw [hread'] at hvalue ⊢
        exact ⟨hvalue.inside, hvalue.source, hvalue.nesting, fun _ => hvalue.dead rfl⟩
      · rw [hread'] at hvalue ⊢
        exact ⟨hvalue.inside, hvalue.source, hvalue.nesting, fun h => absurd h (by rintro ⟨⟩)⟩

/-! ### Calls -/

/-- What a call reports: an error, the end, that something has been passed to the callback, or that
data has been copied. -/
inductive Report
  | error
  | done
  | more
  | copied
  deriving DecidableEq

theorem Report.error_ne_more : Report.error ≠ .more := by decide

def report : Result → Report
  | .error => .error
  | .done => .done
  | .eoo => .more
  | .node _ => .more

/-- What a call does: it moves on in the buffer, beyond at least one byte if something has been
passed to the callback. -/
structure CallStep (buf : List UInt8) (bufsize pos : ℕ) (r : Report) (accesses : List Access)
    (d : Decoder) : Prop where
  inside : ∀ a ∈ accesses, a.Inside bufsize
  source : ∃ pos', d.source = .buffer buf bufsize pos' ∧ pos ≤ pos' ∧ pos' ≤ bufsize ∧
    (r = .more → pos < pos')
  nesting : d.nesting ≤ 1
  dead : r = .error → d.dead = true

theorem Step.callStep {nesting : ℕ} {failed : Prop} {accesses : List Access} {r : Report}
    (h : Step buf bufsize pos nesting failed accesses d) (hnesting : nesting ≤ 1)
    (hmore : r = .more → ∃ pos', d.source = .buffer buf bufsize pos' ∧ pos < pos')
    (hfailed : r = .error → failed) : CallStep buf bufsize pos r accesses d := by
  obtain ⟨pos', hsource, hle, hend⟩ := h.source
  refine ⟨h.inside, ⟨pos', hsource, hle, hend, ?_⟩, h.nesting ▸ hnesting,
    fun hr => h.dead (hfailed hr)⟩
  intro hr
  obtain ⟨q, hq, hlt⟩ := hmore hr
  rw [hsource] at hq
  rwa [(Source.buffer.inj hq).2.2]

theorem report_eq_error {r : Result} (h : report r = .error) : r = .error := by
  cases r with
  | error => rfl
  | done => exact nomatch h
  | eoo => exact absurd h.symm Report.error_ne_more
  | node _ => exact absurd h.symm Report.error_ne_more

theorem next_callStep (short_enums : Bool) (hsource : d.source = .buffer buf bufsize pos)
    (hpos : pos ≤ bufsize) (hnesting : d.nesting ≤ 1) :
    CallStep buf bufsize pos (report (d.next short_enums).2) d.nextAccesses
      (d.next short_enums).1 := by
  rw [next, nextAccesses]
  by_cases hdead : d.dead = true
  · rw [if_pos hdead, if_pos hdead]
    exact ⟨fun a ha => absurd ha List.not_mem_nil,
      ⟨pos, hsource, Nat.le_refl _, hpos, fun h => absurd h Report.error_ne_more⟩, hnesting,
      fun _ => hdead⟩
  rw [if_neg hdead, if_neg hdead]
  by_cases hdone : d.type = .EOO ∧ d.nesting - 1 = 0
  · rw [if_pos hdone, if_pos hdone]
    have hmore : Report.done ≠ .more := by decide
    have herror : Report.done ≠ .error := by decide
    exact ⟨fun a ha => absurd ha List.not_mem_nil,
      ⟨pos, hsource, Nat.le_refl _, hpos, fun h => absurd h hmore⟩,
      Nat.le_trans (Nat.sub_le _ _) hnesting, fun h => absurd h herror⟩
  rw [if_neg hdone, if_neg hdone]
  dsimp only
  -- the decoder that has left the nesting level
  have hpop : ∃ e, (if d.type = .EOO then { d with nesting := d.nesting - 1 } else d) = e ∧
      e.source = .buffer buf bufsize pos ∧ e.nesting ≤ 1 := by
    split_ifs
    · exact ⟨_, rfl, hsource, Nat.le_trans (Nat.sub_le _ _) hnesting⟩
    · exact ⟨_, rfl, hsource, hnesting⟩
  obtain ⟨e, he, hsource, hnesting⟩ := hpop
  rw [he]
  have hdiscard := discard_step e.pending.toInt.toNat hsource hpos
  rcases hread : discard e.pending.toInt.toNat e with ⟨d₁, _ | _⟩
  · rw [hread] at hdiscard
    dsimp only
    rw [List.append_nil]
    exact hdiscard.callStep hnesting (fun h => absurd h Report.error_ne_more) fun _ => rfl
  rw [hread] at hdiscard
  obtain ⟨pos₁, hsource₁, hle₁, hpos₁⟩ := hdiscard.source
  have hnesting₁ : d₁.nesting = e.nesting := hdiscard.nesting
  dsimp only
  rw [readOr, readOrAccesses]
  obtain ⟨hnone, d₂, hread₂, hsource₂, hnesting₂⟩ | ⟨hroom, hsome, hread₂⟩ :=
    readX_buffer hsource₁ 1
  · rw [hnone, hread₂]
    dsimp only
    refine Step.callStep (hdiscard.trans hsource₁ (?_ : Step buf bufsize pos₁ _ True _ _)) hnesting
      (fun h => absurd h Report.error_ne_more) fun _ => trivial
    exact ⟨fun a ha => absurd ha List.not_mem_nil,
      ⟨pos₁, hsource₂.trans hsource₁, Nat.le_refl _, hpos₁⟩, hnesting₂.trans hnesting₁,
        fun _ => rfl⟩
  rw [hsome, hread₂]
  dsimp only
  generalize (((buf.drop pos₁).take 1).headD 0) = tbyte
  by_cases heoo : tbyte = EOO
  · rw [if_pos heoo, if_pos heoo]
    refine Step.callStep (hdiscard.trans hsource₁ (?_ : Step buf bufsize pos₁ _ False _ _)) hnesting
      (fun _ => ⟨pos₁ + 1, rfl, by omega⟩) (fun h => absurd h.symm Report.error_ne_more)
    refine ⟨?_, ⟨pos₁ + 1, rfl, Nat.le_add_right _ _, hroom⟩, hnesting₁, fun h => h.elim⟩
    intro a ha
    rcases List.mem_cons.mp ha with rfl | ha
    · exact hroom
    · rw [List.mem_singleton.mp ha]
      exact Nat.succ_pos 31
  · rw [if_neg heoo, if_neg heoo]
    have hnode := nextNode_step
        (d := { d₁ with source := .buffer buf bufsize (pos₁ + 1), pending := 0 })
      short_enums tbyte rfl hroom
    obtain ⟨pos₂, hsource₂, hle₂, hpos₂⟩ := hnode.source
    refine Step.callStep (hdiscard.trans hsource₁ ?_) hnesting (fun _ => ⟨pos₂, hsource₂, by omega⟩)
      report_eq_error
    refine ⟨?_, ⟨pos₂, hsource₂, by omega, hpos₂⟩, hnode.nesting.trans hnesting₁, hnode.dead⟩
    intro a ha
    rcases List.mem_cons.mp ha with rfl | ha
    · exact hroom
    · exact hnode.inside a ha

/-- The calls, of the program and of its callback. -/
inductive Op
  | next
  | copyData
  deriving DecidableEq

def op (short_enums : Bool) (d : Decoder) : Op → Decoder × Report
  | .next => ((d.next short_enums).1, report (d.next short_enums).2)
  | .copyData => (d.copyData.1, if d.copyData.2 = none then .error else .copied)

def opAccesses (d : Decoder) : Op → List Access
  | .next => d.nextAccesses
  | .copyData => d.copyDataAccesses

theorem op_callStep (short_enums : Bool) (o : Op) (hsource : d.source = .buffer buf bufsize pos)
    (hpos : pos ≤ bufsize) (hnesting : d.nesting ≤ 1) :
    CallStep buf bufsize pos (d.op short_enums o).2 (d.opAccesses o) (d.op short_enums o).1 := by
  cases o with
  | next => exact next_callStep short_enums hsource hpos hnesting
  | copyData =>
    rw [op, opAccesses, copyData, copyDataAccesses]
    by_cases hdead : d.dead = true
    · rw [if_pos hdead, if_pos hdead, if_pos rfl]
      exact ⟨fun a ha => absurd ha List.not_mem_nil,
        ⟨pos, hsource, Nat.le_refl _, hpos, fun h => absurd h Report.error_ne_more⟩, hnesting,
        fun _ => hdead⟩
    · rw [if_neg hdead, if_neg hdead]
      refine (readOr_step_last hsource hpos fun d' data =>
        ⟨rfl, rfl, Option.some_ne_none _⟩).callStep hnesting ?_ ?_
      · intro h
        split_ifs at h
      · intro h
        split_ifs at h with hnone
        exact hnone

theorem op_dead (short_enums : Bool) (hdead : d.dead = true) (o : Op) :
    d.op short_enums o = (d, .error) := by
  cases o with
  | next => rw [op, next, if_pos hdead]; rfl
  | copyData => rw [op, copyData, if_pos hdead]; rfl

/-! ### Runs -/

theorem feed_dead (short_enums : Bool) (hdead : d.dead = true) (ops : List Op) :
    ∀ r ∈ (Mealy.feed (op short_enums) d ops).2, r = .error := by
  induction ops with
  | nil => exact fun r hr => nomatch hr
  | cons o ops ih =>
    rw [Mealy.feed_cons, op_dead short_enums hdead]
    exact List.forall_mem_cons.mpr ⟨rfl, ih⟩

/-- The decoder reads from this buffer. -/
def Reads (buf : List UInt8) (bufsize : ℕ) (d : Decoder) : Prop :=
  (∃ pos ≤ bufsize, d.source = .buffer buf bufsize pos) ∧ d.nesting ≤ 1

theorem Reads.op (h : Reads buf bufsize d) (short_enums : Bool) (o : Op) :
    Reads buf bufsize (d.op short_enums o).1 ∧ ∀ a ∈ d.opAccesses o, a.Inside bufsize := by
  obtain ⟨⟨pos, hpos, hsource⟩, hnesting⟩ := h
  have hstep := op_callStep short_enums o hsource hpos hnesting
  obtain ⟨pos', hsource', -, hpos', -⟩ := hstep.source
  exact ⟨⟨⟨pos', hpos', hsource'⟩, hstep.nesting⟩, hstep.inside⟩

/-- Every call that passes something to the callback has read a byte of the buffer. -/
theorem count_more_le (short_enums : Bool) (ops : List Op)
    (hsource : d.source = .buffer buf bufsize pos) (hpos : pos ≤ bufsize)
    (hnesting : d.nesting ≤ 1) :
    (Mealy.feed (op short_enums) d ops).2.count .more + pos ≤ bufsize := by
  induction ops generalizing d pos with
  | nil => rwa [Mealy.feed_nil, List.count_nil, Nat.zero_add]
  | cons o ops ih =>
    have hstep := op_callStep short_enums o hsource hpos hnesting
    obtain ⟨pos', hsource', hle, hpos', hmore⟩ := hstep.source
    have hrest := ih hsource' hpos' hstep.nesting
    rw [Mealy.feed_cons]
    by_cases hr : (d.op short_enums o).2 = .more
    · have hlt := hmore hr
      rw [hr, List.count_cons_self]
      omega
    · rw [List.count_cons_of_ne hr]
      omega

theorem sticky (short_enums : Bool) (ops : List Op) (h : Reads buf bufsize d)
    {before after : List Report}
    (heq : (Mealy.feed (op short_enums) d ops).2 = before ++ .error :: after) :
    ∀ r ∈ after, r = .error := by
  induction ops generalizing d before with
  | nil => exact absurd heq (by simp)
  | cons o ops ih =>
    rw [Mealy.feed_cons] at heq
    cases before with
    | nil =>
      obtain ⟨hr, rfl⟩ := List.cons.inj heq
      obtain ⟨⟨pos, hpos, hsource⟩, hnesting⟩ := h
      exact feed_dead short_enums ((op_callStep short_enums o hsource hpos hnesting).dead hr) ops
    | cons r before => exact ih (h.op short_enums o).1 (List.cons.inj heq).2

def bufsizeOf (buf : List UInt8) (bufsize : ℕ) : ℕ :=
  if bufsize = 0 then ofLittleEndian (buf.take 4) else bufsize

theorem initBuf_step (buf : List UInt8) (bufsize : ℕ) :
    Reads buf (bufsizeOf buf bufsize) (initBuf buf bufsize).1 ∧
      ((initBuf buf bufsize).2 = none → (initBuf buf bufsize).1.dead = true) ∧
      ∀ a ∈ readXAccesses ⟨.buffer buf (bufsizeOf buf bufsize) 0, false, 1, .UNDEFINED, 0⟩ 4,
        a.Inside (bufsizeOf buf bufsize) := by
  have hstep := readOr_step (s := 4)
    (d := ⟨.buffer buf (bufsizeOf buf bufsize) 0, false, 1, .UNDEFINED, 0⟩)
    (k := fun d data =>
      let total_document_size := (toInt32 data).toInt
      if total_document_size > 0 ∧
          total_document_size > (Int32.ofInt (bufsizeOf buf bufsize)).toInt then d.kill
      else (d, some ()))
    (fun _ _ => []) rfl (Nat.zero_le _) fun d' data hsource hpos hnesting _ => by
      dsimp only
      split_ifs
      · exact ⟨fun a ha => absurd ha List.not_mem_nil, ⟨_, hsource, Nat.le_refl _, hpos⟩, hnesting,
          fun _ => rfl⟩
      · exact ⟨fun a ha => absurd ha List.not_mem_nil, ⟨_, hsource, Nat.le_refl _, hpos⟩, hnesting,
          fun h => h.elim⟩
  obtain ⟨pos, hsource, -, hpos⟩ := hstep.source
  exact ⟨⟨⟨pos, hpos, hsource⟩, Nat.le_of_eq hstep.nesting⟩, hstep.dead,
    fun a ha => hstep.inside a (List.mem_append_left _ ha)⟩

end Decoder

open Decoder

/-- The size that is given, or the one in the document if there is none, is not more than there are
bytes. -/
def Supplied (buf : List UInt8) (bufsize : ℕ) : Prop :=
  (bufsize = 0 → 4 ≤ buf.length) ∧ bufsizeOf buf bufsize ≤ buf.length

instance (buf : List UInt8) (bufsize : ℕ) : Decidable (Supplied buf bufsize) :=
  inferInstanceAs (Decidable (_ ∧ _))

/-- A run of the decoder: no call reads outside of the buffer or writes outside of the name or gets
out of the nesting levels, all calls but as many as there are bytes report the end or an error, and
after an error there are only errors. -/
structure SafeRun (short_enums : Bool) (buf : List UInt8) (bufsize : ℕ) (ops : List Op) : Prop where
  init_inside : ∀ a ∈ initBufAccesses buf bufsize, a.Inside buf.length
  inside : Trace.Always (fun d o => (d.op short_enums o).1)
    (fun d o => ∀ a ∈ d.opAccesses o, a.Inside buf.length) (initBuf buf bufsize).1 ops
  nesting : Trace.Always (fun d o => (d.op short_enums o).1)
    (fun d o => (d.op short_enums o).1.nesting ≤ 1) (initBuf buf bufsize).1 ops
  ends : (Mealy.feed (op short_enums) (initBuf buf bufsize).1 ops).2.count .more ≤ buf.length
  init_error : (initBuf buf bufsize).2 = none →
    ∀ r ∈ (Mealy.feed (op short_enums) (initBuf buf bufsize).1 ops).2, r = .error
  error : ∀ before after,
    (Mealy.feed (op short_enums) (initBuf buf bufsize).1 ops).2 = before ++ .error :: after →
      ∀ r ∈ after, r = .error

theorem Access.Inside.mono {a : Access} {m n : ℕ} (h : a.Inside m) (hle : m ≤ n) : a.Inside n := by
  cases a with
  | read b k => exact Nat.le_trans h hle
  | name i => exact h

/-- **Whatever the bytes are**, as many as the decoder has been told of, every run is safe. -/
theorem safeRun (short_enums : Bool) {buf : List UInt8} {bufsize : ℕ} (h : Supplied buf bufsize)
    (ops : List Op) : SafeRun short_enums buf bufsize ops := by
  obtain ⟨hauto, hle⟩ := h
  obtain ⟨hreads, hdead, hinit⟩ := initBuf_step buf bufsize
  refine ⟨?_, ?_, ?_, ?_, fun hnone => feed_dead short_enums (hdead hnone) ops,
    fun before after heq => sticky short_enums ops hreads heq⟩
  · intro a ha
    rcases List.mem_append.mp ha with ha | ha
    · split_ifs at ha with hzero
      · rw [List.mem_singleton.mp ha]
        exact hauto hzero
      · exact nomatch ha
    · exact (hinit a ha).mono hle
  · refine Trace.always_of_invariant (I := Reads buf (bufsizeOf buf bufsize))
      (C := fun _ _ => True) (fun d o hd _ => ?_) hreads (Trace.always_true _ _)
    exact ⟨fun a ha => ((hd.op short_enums o).2 a ha).mono hle, (hd.op short_enums o).1⟩
  · refine Trace.always_of_invariant (I := Reads buf (bufsizeOf buf bufsize))
      (C := fun _ _ => True) (fun d o hd _ => ?_) hreads (Trace.always_true _ _)
    exact ⟨(hd.op short_enums o).1.2, (hd.op short_enums o).1⟩
  · obtain ⟨⟨pos, hpos, hsource⟩, hnesting⟩ := hreads
    have hcount := count_more_le short_enums ops hsource hpos hnesting
    omega

theorem safeRun_unterminated :
    SafeRun false [9, 0, 0, 0, 8, 97, 0, 1, 2] 9 [.next, .copyData, .next, .next] :=
  safeRun false (by decide) _

/-- The size of an empty string of bytes is taken from bytes that are not there. -/
theorem not_safeRun_nil : ¬ SafeRun false [] 0 [] := by
  intro h
  have hinside : 0 + 4 ≤ 0 := h.init_inside (.read 0 4) List.mem_cons_self
  exact nomatch hinside

end Bson
