/-
The log as a stream of chunks.

`writeMessage` puts messages into a buffer, and publishes it whenever it is full.  A chunk says
where the first message begins in it.  When reliable transfer ends, what is in the buffer is
published first; when an acknowledgement does not come, the log is stopped.

* `Item` — the messages as a stream of bytes, in which one can see where a message begins;
* **`framing`** — for every sequence of messages and changes of the transfer;
* **`ack_timeout_loses`** — the message behind which the log is stopped.
-/
import AerialManipulator.Mavlink.UlogStream

open MavlinkULog

namespace LogWriterMavlink

/-- When something is published, and whether an acknowledgement comes for it. -/
structure Env where
  now : ℕ → UInt64
  acked : ℕ → Bool

/-- A chunk, and whether it was published by `setNeedReliableTransfer`. -/
structure Published where
  chunk : Chunk
  flushed : Bool
  deriving DecidableEq

/-- `LogWriterMavlink`, and what was published since the start. -/
structure Writer where
  ulog_stream_data : Chunk
  need_reliable_transfer : Bool
  is_started : Bool
  published : List Published

/-- `sizeof(_ulog_stream_data.data)`. -/
def dataLen : ℕ := 249

/-- `memcpy` to a position of an array. -/
def memcpy (data : List UInt8) (pos : ℕ) (src : List UInt8) : List UInt8 :=
  data.take pos ++ (src ++ data.drop (pos + src.length))

namespace Writer

def startLog (w : Writer) : Writer where
  ulog_stream_data :=
    { w.ulog_stream_data with msg_sequence := 0, length := 0, first_message_offset := 0 }
  need_reliable_transfer := w.need_reliable_transfer
  is_started := true
  published := []

def stopLog (w : Writer) : Writer :=
  { w with ulog_stream_data := { w.ulog_stream_data with length := 0 }, is_started := false }

def stamp (env : Env) (w : Writer) : Chunk :=
  { w.ulog_stream_data with
    timestamp := env.now w.published.length
    flags := if w.need_reliable_transfer then FLAGS_NEED_ACK else 0 }

def publishMessage (env : Env) (flushed : Bool) (w : Writer) : Writer × ℤ :=
  let chunk := w.stamp env
  let w' : Writer :=
    { w with ulog_stream_data := chunk, published := w.published ++ [⟨chunk, flushed⟩] }
  -- "Ack timeout. Stopping mavlink log"
  if w.need_reliable_transfer && !env.acked w.published.length then (w'.stopLog, -2)
  else
    ({ w' with
      ulog_stream_data := { chunk with
        msg_sequence := chunk.msg_sequence + 1
        length := 0
        first_message_offset := 255 } }, 0)

def put (w : Writer) (src : List UInt8) : Writer :=
  { w with
    ulog_stream_data := { w.ulog_stream_data with
      data := memcpy w.ulog_stream_data.data w.ulog_stream_data.length.toNat src
      length := w.ulog_stream_data.length + UInt8.ofNat src.length } }

/-- The loop of `writeMessage`; `none` if it does not end within so many turns. -/
def writeLoop (env : Env) : ℕ → Writer → List UInt8 → Option (Writer × ℤ)
  | _, w, [] => some (w, 0)
  | 0, _, _ :: _ => none
  | n + 1, w, b :: bs =>
    let send_len := min (dataLen - w.ulog_stream_data.length.toNat) (b :: bs).length
    let w := w.put ((b :: bs).take send_len)
    let rest := (b :: bs).drop send_len
    if dataLen ≤ w.ulog_stream_data.length.toNat then
      let r := w.publishMessage env false
      if r.2 ≠ 0 then some (r.1, -2) else writeLoop env n r.1 rest
    else writeLoop env n w rest

def mark (w : Writer) : Writer :=
  if w.ulog_stream_data.first_message_offset = 255 then
    { w with ulog_stream_data :=
      { w.ulog_stream_data with first_message_offset := w.ulog_stream_data.length } }
  else w

def writeMessage (env : Env) (w : Writer) (message : List UInt8) : Writer × ℤ :=
  if w.is_started then
    -- the loop always ends: `writeLoop_spec`
    (writeLoop env message.length w.mark message).getD (w.mark, 0)
  else (w, 0)

def setNeedReliableTransfer (env : Env) (w : Writer) (need_reliable : Bool) : Writer :=
  let w :=
    if !need_reliable && w.need_reliable_transfer then
      -- make sure to send previous data using reliable transfer
      if 0 < w.ulog_stream_data.length then (w.publishMessage env true).1 else w
    else w
  { w with need_reliable_transfer := need_reliable }

end Writer

inductive Event
  | write (message : List UInt8)
  | reliable (need_reliable : Bool)

def step (env : Env) (w : Writer) : Event → Writer
  | .write message => (w.writeMessage env message).1
  | .reliable need_reliable => w.setNeedReliableTransfer env need_reliable

def messages (es : List Event) : List (List UInt8) :=
  es.filterMap fun
    | .write message => some message
    | .reliable _ => none

/-! ### The stream -/

/-- A byte of a message, or a message without bytes. -/
inductive Item
  | first (b : UInt8)
  | next (b : UInt8)
  | empty
  deriving DecidableEq

def Item.byte : Item → Option UInt8
  | .first b => some b
  | .next b => some b
  | .empty => none

def Item.starts : Item → Bool
  | .first _ => true
  | .next _ => false
  | .empty => true

def itemsOf : List UInt8 → List Item
  | [] => [.empty]
  | b :: bs => .first b :: bs.map .next

def bytes (items : List Item) : List UInt8 := items.filterMap Item.byte

def offsetOf (items : List Item) : UInt8 :=
  if items.any Item.starts then UInt8.ofNat (items.takeWhile fun i => !i.starts).length else 255

def dataOf (chunk : Chunk) : List UInt8 := chunk.data.take chunk.length.toNat

/-- A chunk is a piece of the stream. -/
structure FrameOf (frame : List Item) (p : Published) : Prop where
  data : dataOf p.chunk = bytes frame
  offset : p.chunk.first_message_offset = offsetOf frame
  none : p.chunk.first_message_offset = 255 ↔ ∀ i ∈ frame, i.starts = false
  full : p.flushed = false → (bytes frame).length = dataLen

/-- The chunks that were published are these pieces of the stream, with their numbers. -/
structure Chunks (published : List Published) (frames : List (List Item)) : Prop where
  frames : List.Forall₂ FrameOf frames published
  sequence : ∀ k p, published[k]? = some p → p.chunk.msg_sequence = UInt16.ofNat k

/-- The piece of the stream that is in the buffer. -/
structure Buffered (w : Writer) (rest : List Item) : Prop where
  sequence : w.ulog_stream_data.msg_sequence = UInt16.ofNat w.published.length
  size : w.ulog_stream_data.data.length = dataLen
  room : w.ulog_stream_data.length.toNat < dataLen
  data : dataOf w.ulog_stream_data = bytes rest

/-- The last chunk needed an acknowledgement, and it did not come. -/
def Missed (env : Env) (w : Writer) : Prop :=
  ∃ k p, w.published.length = k + 1 ∧ w.published[k]? = some p ∧ p.chunk.needAck = true ∧
    env.acked k = false

/-- The stream is what was published, and what is in the buffer while the log is started. -/
structure Framed (env : Env) (w : Writer) (frames : List (List Item)) (rest : List Item) :
    Prop where
  chunks : Chunks w.published frames
  buffered : w.is_started = true → Buffered w rest
  offset : w.is_started = true → w.ulog_stream_data.first_message_offset = offsetOf rest ∨
    rest = [] ∧ w.ulog_stream_data.first_message_offset = 0
  stopped : w.is_started = false → w.ulog_stream_data.length = 0 ∧ Missed env w

/-! ### Items -/

theorem bytes_append (a b : List Item) : bytes (a ++ b) = bytes a ++ bytes b :=
  List.filterMap_append

/-- Items that have a byte. -/
def Solid (items : List Item) : Prop := ∀ i ∈ items, i ≠ .empty

theorem bytes_length {items : List Item} (h : Solid items) :
    (bytes items).length = items.length := by
  induction items with
  | nil => rfl
  | cons i items ih =>
    have htail := ih fun j hj => h j (List.mem_cons_of_mem i hj)
    cases i with
    | first b => exact congrArg (· + 1) htail
    | next b => exact congrArg (· + 1) htail
    | empty => exact absurd rfl (h .empty List.mem_cons_self)

theorem bytes_take {items : List Item} (h : Solid items) (k : ℕ) :
    bytes (items.take k) = (bytes items).take k := by
  have hsplit : bytes items = bytes (items.take k) ++ bytes (items.drop k) := by
    rw [← bytes_append, List.take_append_drop]
  have hlength : (bytes (items.take k)).length = min k items.length := by
    rw [bytes_length fun i hi => h i (List.mem_of_mem_take hi), List.length_take]
  rcases le_total k items.length with hk | hk
  · rw [hsplit, List.take_left' (hlength.trans (min_eq_left hk))]
  · rw [List.take_of_length_le hk, List.take_of_length_le ((bytes_length h).trans_le hk)]

theorem bytes_drop {items : List Item} (h : Solid items) (k : ℕ) :
    bytes (items.drop k) = (bytes items).drop k := by
  have hsplit : (bytes items).take k ++ (bytes items).drop k = bytes (items.take k) ++
      bytes (items.drop k) := by
    rw [← bytes_append, List.take_append_drop, List.take_append_drop]
  rw [bytes_take h] at hsplit
  exact (List.append_cancel_left hsplit).symm

theorem bytes_itemsOf (message : List UInt8) : bytes (itemsOf message) = message := by
  cases message with
  | nil => rfl
  | cons b bs =>
    refine congrArg (b :: ·) ?_
    induction bs with
    | nil => rfl
    | cons c bs ih => exact congrArg (c :: ·) ih

/-- No message begins. -/
def Quiet (items : List Item) : Prop := ∀ i ∈ items, i.starts = false

theorem Quiet.any {items : List Item} (h : Quiet items) : items.any Item.starts = false :=
  List.any_eq_false.mpr fun i hi => by rw [h i hi]; exact Bool.false_ne_true

theorem Quiet.solid {items : List Item} (h : Quiet items) : Solid items := by
  rintro i hi rfl
  exact Bool.false_ne_true (h .empty hi).symm

theorem quiet_itemsOf_tail (message : List UInt8) : Quiet (itemsOf message).tail := by
  cases message with
  | nil => exact fun i hi => nomatch hi
  | cons b bs =>
    intro i hi
    obtain ⟨c, -, rfl⟩ := List.mem_map.mp hi
    rfl

theorem offsetOf_quiet {items : List Item} (h : Quiet items) : offsetOf items = 255 := by
  rw [offsetOf, h.any, if_neg Bool.false_ne_true]

theorem offsetOf_append {items more : List Item} (h : Quiet more) :
    offsetOf (items ++ more) = offsetOf items := by
  rw [offsetOf, offsetOf, List.any_append, h.any, Bool.or_false]
  split_ifs with hany
  · obtain ⟨i, hi, hstarts⟩ := List.any_eq_true.mp hany
    have htake : (items ++ more).takeWhile (fun i => !i.starts) = items.takeWhile fun i =>
        !i.starts := by
      rw [List.takeWhile_append, if_neg]
      intro heq
      have hall := List.takeWhile_eq_self_iff.mp ((List.takeWhile_prefix _).eq_of_length heq) i hi
      rw [hstarts] at hall
      exact Bool.false_ne_true hall
    rw [htake]
  · rfl

theorem offsetOf_starts {items more : List Item} (h : Quiet items) {i : Item}
    (hi : i.starts = true) :
    offsetOf (items ++ i :: more) = UInt8.ofNat items.length := by
  have hany : (items ++ i :: more).any Item.starts = true :=
    List.any_eq_true.mpr ⟨i, List.mem_append_right _ List.mem_cons_self, hi⟩
  have htake : (items ++ i :: more).takeWhile (fun i => !i.starts) = items := by
    rw [List.takeWhile_append_of_pos fun j hj => by rw [h j hj]; rfl,
      List.takeWhile_cons_of_neg (by rw [hi]; exact Bool.false_ne_true), List.append_nil]
  rw [offsetOf, if_pos hany, htake]

theorem exists_start {items : List Item} (h : items.any Item.starts = true) :
    ∃ q i t, items = q ++ i :: t ∧ Quiet q ∧ i.starts = true := by
  induction items with
  | nil => exact nomatch h
  | cons i items ih =>
    cases hi : i.starts with
    | true => exact ⟨[], i, items, rfl, fun j hj => absurd hj List.not_mem_nil, hi⟩
    | false =>
      rw [List.any_cons, hi, Bool.false_or] at h
      obtain ⟨q, j, t, rfl, hq, hj⟩ := ih h
      exact ⟨i :: q, j, t, rfl, List.forall_mem_cons.mpr ⟨hi, hq⟩, hj⟩

theorem offsetOf_begun {items : List Item} (h : items.any Item.starts = true)
    (hroom : (bytes items).length ≤ dataLen) (more : List Item) :
    offsetOf (items ++ more) = offsetOf items ∧ offsetOf items ≠ 255 := by
  obtain ⟨q, i, t, rfl, hq, hi⟩ := exists_start h
  rw [bytes_append, List.length_append, bytes_length hq.solid] at hroom
  rw [List.append_assoc, List.cons_append, offsetOf_starts hq hi, offsetOf_starts hq hi]
  refine ⟨rfl, fun heq => ?_⟩
  have hle : q.length ≤ 249 := (Nat.le_add_right _ _).trans hroom
  have hnat := congrArg UInt8.toNat heq
  rw [UInt8.toNat_ofNat', Nat.mod_eq_of_lt (by omega)] at hnat
  have : q.length = 255 := hnat
  omega

theorem offsetOf_eq_iff {items : List Item} (hroom : (bytes items).length ≤ dataLen) :
    offsetOf items = 255 ↔ Quiet items := by
  refine ⟨fun heq => ?_, offsetOf_quiet⟩
  cases hany : items.any Item.starts with
  | true => exact absurd heq (offsetOf_begun hany hroom []).2
  | false =>
    intro i hi
    rw [← Bool.not_eq_true]
    exact List.any_eq_false.mp hany i hi

/-! ### The buffer -/

variable {env : Env} {w : Writer} {rest : List Item}

theorem Buffered.length (h : Buffered w rest) :
    w.ulog_stream_data.length.toNat = (bytes rest).length := by
  rw [← h.data, dataOf, List.length_take, h.size, min_eq_left h.room.le]

/-- The position of the message that begins now, unless one has begun in this chunk. -/
theorem mark_offset (h : Buffered w rest)
    (hoffset : w.ulog_stream_data.first_message_offset = offsetOf rest ∨
      rest = [] ∧ w.ulog_stream_data.first_message_offset = 0) (message : List UInt8) :
    w.mark.ulog_stream_data.first_message_offset = offsetOf (rest ++ itemsOf message) := by
  obtain ⟨i, t, hitems, hi⟩ : ∃ i t, itemsOf message = i :: t ∧ i.starts = true := by
    cases message with
    | nil => exact ⟨_, _, rfl, rfl⟩
    | cons b bs => exact ⟨_, _, rfl, rfl⟩
  rw [Writer.mark]
  cases hany : rest.any Item.starts with
  | true =>
    have hbegun := offsetOf_begun hany (h.length ▸ h.room.le) (itemsOf message)
    rcases hoffset with hoffset | ⟨rfl, -⟩
    · rw [hoffset, if_neg hbegun.2, hbegun.1, hoffset]
    · exact nomatch hany
  | false =>
    have hquiet : Quiet rest := by
      intro j hj
      rw [← Bool.not_eq_true]
      exact List.any_eq_false.mp hany j hj
    rw [hitems, offsetOf_starts hquiet hi]
    rcases hoffset with hoffset | ⟨rfl, hoffset⟩
    · rw [hoffset, offsetOf_quiet hquiet, if_pos rfl]
      rw [← bytes_length hquiet.solid, ← h.length, UInt8.ofNat_toNat]
    · rw [hoffset, if_neg (by decide), hoffset]
      rfl

theorem mark_buffered (h : Buffered w rest) : Buffered w.mark rest := by
  rw [Writer.mark]
  split_ifs
  · exact ⟨h.sequence, h.size, h.room, h.data⟩
  · exact h

theorem put_data (h : Buffered w rest) {src : List UInt8}
    (hfits : (bytes rest).length + src.length ≤ dataLen) :
    (w.put src).ulog_stream_data.length.toNat = (bytes rest).length + src.length ∧
      (w.put src).ulog_stream_data.data.length = dataLen ∧
      dataOf (w.put src).ulog_stream_data = bytes rest ++ src := by
  have hlen := h.length
  have hroom := h.room
  have hnat : (w.put src).ulog_stream_data.length.toNat = (bytes rest).length + src.length := by
    have hfits' : (bytes rest).length + src.length ≤ 249 := hfits
    rw [Writer.put, UInt8.toNat_add, UInt8.toNat_ofNat', hlen]
    omega
  have htake : (w.ulog_stream_data.data.take w.ulog_stream_data.length.toNat).length =
      (bytes rest).length := by
    rw [List.length_take, h.size, min_eq_left hroom.le, hlen]
  refine ⟨hnat, ?_, ?_⟩
  · rw [Writer.put, memcpy, List.length_append, List.length_append, List.length_drop, htake, h.size,
      hlen]
    omega
  · rw [dataOf, hnat, Writer.put, memcpy, ← List.append_assoc,
      List.take_left' (by rw [List.length_append, htake])]
    exact congrArg (· ++ src) h.data

theorem publish_published (env : Env) (flushed : Bool) (w : Writer) :
    (w.publishMessage env flushed).1.published = w.published ++ [⟨w.stamp env, flushed⟩] := by
  rw [Writer.publishMessage]
  split_ifs
  · rfl
  · rfl

theorem publish_spec (env : Env) (flushed : Bool) {frames : List (List Item)}
    (hchunks : Chunks w.published frames) (hstarted : w.is_started = true)
    (hsequence : w.ulog_stream_data.msg_sequence = UInt16.ofNat w.published.length)
    (hsize : w.ulog_stream_data.data.length = dataLen)
    (hdata : dataOf w.ulog_stream_data = bytes rest)
    (hoffset : w.ulog_stream_data.first_message_offset = offsetOf rest)
    (hroom : (bytes rest).length ≤ dataLen)
    (hfull : flushed = false → (bytes rest).length = dataLen) :
    Chunks (w.publishMessage env flushed).1.published (frames ++ [rest]) ∧
      ((w.publishMessage env flushed).2 = 0 ∧ Buffered (w.publishMessage env flushed).1 [] ∧
          (w.publishMessage env flushed).1.is_started = true ∧
          (w.publishMessage env flushed).1.ulog_stream_data.first_message_offset = 255 ∨
        (w.publishMessage env flushed).2 = -2 ∧ (w.publishMessage env flushed).1.is_started =
          false ∧
          (w.publishMessage env flushed).1.ulog_stream_data.length = 0 ∧
          Missed env (w.publishMessage env flushed).1) := by
  have hnone : w.ulog_stream_data.first_message_offset = 255 ↔ Quiet rest := by
    rw [hoffset, offsetOf_eq_iff hroom]
  constructor
  · rw [publish_published]
    refine ⟨List.rel_append hchunks.frames (.cons ⟨hdata, hoffset, hnone, hfull⟩ .nil),
      fun k p hk => ?_⟩
    rcases lt_or_ge k w.published.length with hlt | hge
    · rw [List.getElem?_append_left hlt] at hk
      exact hchunks.sequence k p hk
    · rw [List.getElem?_append_right hge, List.getElem?_singleton] at hk
      split_ifs at hk with hzero
      rw [← Option.some.inj hk, show k = w.published.length by omega]
      exact hsequence
  · cases hlost : w.need_reliable_transfer && !env.acked w.published.length with
    | true =>
      obtain ⟨hneed, hack⟩ := Bool.and_eq_true_iff.mp hlost
      rw [Bool.not_eq_true'] at hack
      have hmissed : Missed env (w.publishMessage env flushed).1 := by
        refine ⟨w.published.length, ⟨w.stamp env, flushed⟩, ?_, ?_, ?_, hack⟩
        · rw [publish_published, List.length_append, List.length_singleton]
        · rw [publish_published, List.getElem?_concat_length]
        · rw [Writer.stamp, Chunk.needAck, hneed, if_pos rfl]
          exact decide_eq_true (show FLAGS_NEED_ACK &&& FLAGS_NEED_ACK ≠ 0 by decide)
      rw [Writer.publishMessage, if_pos hlost] at hmissed ⊢
      exact .inr ⟨rfl, rfl, rfl, hmissed⟩
    | false =>
      rw [Writer.publishMessage, if_neg (by rw [hlost]; exact Bool.false_ne_true)]
      refine .inl ⟨rfl, ⟨?_, hsize, show (0 : UInt8).toNat < dataLen by decide, rfl⟩, hstarted, rfl⟩
      rw [List.length_append, List.length_singleton, UInt16.ofNat_add, ← hsequence]
      rfl

theorem writeLoop_nil (env : Env) (n : ℕ) (w : Writer) :
    Writer.writeLoop env n w [] = some (w, 0) := by
  cases n with
  | zero => rfl
  | succ n => rfl

theorem writeLoop_done (env : Env) (n : ℕ) {frames : List (List Item)}
    (hchunks : Chunks w.published frames) (hstarted : w.is_started = true) (hbuf : Buffered w rest)
    (hoffset : w.ulog_stream_data.first_message_offset = offsetOf (rest ++ [])) :
    ∃ r frames' rest', Writer.writeLoop env n w (bytes []) = some r ∧
      frames'.flatten ++ rest' = frames.flatten ++ (rest ++ []) ∧ Framed env r.1 frames' rest' := by
  have hno : ¬ w.is_started = false := by
    rw [hstarted]
    exact Bool.false_ne_true.symm
  rw [List.append_nil] at hoffset ⊢
  exact ⟨(w, 0), frames, rest, writeLoop_nil env n w, rfl,
    ⟨hchunks, fun _ => hbuf, fun _ => .inl hoffset, fun hstop => absurd hstop hno⟩⟩

theorem writeLoop_spec (env : Env) {n : ℕ} {its : List Item} {frames : List (List Item)}
    (hn : (bytes its).length ≤ n) (hsolid : Solid its) (hquiet : Quiet its.tail)
    (hchunks : Chunks w.published frames) (hstarted : w.is_started = true) (hbuf : Buffered w rest)
    (hoffset : w.ulog_stream_data.first_message_offset = offsetOf (rest ++ its)) :
    ∃ r frames' rest', Writer.writeLoop env n w (bytes its) = some r ∧
      frames'.flatten ++ rest' = frames.flatten ++ (rest ++ its) ∧
        Framed env r.1 frames' rest' := by
  induction n generalizing w rest its frames with
  | zero =>
    rw [Nat.le_zero, List.length_eq_zero_iff] at hn
    have hits : its = [] := by
      rw [← List.length_eq_zero_iff, ← bytes_length hsolid, hn, List.length_nil]
    subst hits
    exact writeLoop_done env 0 hchunks hstarted hbuf hoffset
  | succ n ih =>
    rcases its.eq_nil_or_concat' with rfl | ⟨_, _, hits⟩
    · exact writeLoop_done env _ hchunks hstarted hbuf hoffset
    · have hpos : 0 < its.length := by
        rw [hits, List.length_append, List.length_singleton]
        exact Nat.succ_pos _
      have hlen := hbuf.length
      have hroom := hbuf.room
      have hbytes := bytes_length hsolid
      -- the bytes that fit into the chunk
      obtain ⟨k, hk⟩ : ∃ k, k = min (dataLen - (bytes rest).length) its.length := ⟨_, rfl⟩
      have hkpos : 0 < k := by omega
      have hfits : (bytes rest).length + ((bytes its).take k).length ≤ dataLen := by
        rw [List.length_take, hbytes]
        omega
      have hput := put_data hbuf hfits
      have hquiet' : Quiet (its.drop k) := by
        obtain ⟨m, rfl⟩ := Nat.exists_eq_succ_of_ne_zero hkpos.ne'
        rw [Nat.succ_eq_add_one, ← List.drop_tail]
        exact fun i hi => hquiet i (List.mem_of_mem_drop hi)
      have hdata : dataOf (w.put ((bytes its).take k)).ulog_stream_data =
          bytes (rest ++ its.take k) := by
        rw [hput.2.2, bytes_append, bytes_take hsolid]
      have hoffset' : (w.put ((bytes its).take k)).ulog_stream_data.first_message_offset =
          offsetOf (rest ++ its.take k) := by
        rw [← offsetOf_append hquiet', List.append_assoc, List.take_append_drop]
        exact hoffset
      have hturn : Writer.writeLoop env (n + 1) w (bytes its) =
          if dataLen ≤ (w.put ((bytes its).take k)).ulog_stream_data.length.toNat then
            if ((w.put ((bytes its).take k)).publishMessage env false).2 ≠ 0 then
              some (((w.put ((bytes its).take k)).publishMessage env false).1, -2)
            else Writer.writeLoop env n ((w.put ((bytes its).take k)).publishMessage env false).1
              (bytes (its.drop k))
          else Writer.writeLoop env n (w.put ((bytes its).take k)) (bytes (its.drop k)) := by
        rw [bytes_drop hsolid]
        obtain ⟨b, bs, hb⟩ := List.exists_cons_of_ne_nil (List.length_pos_iff.mp (hbytes ▸ hpos))
        rw [hb, Writer.writeLoop, ← hb, hbytes, hlen, ← hk]
      have hrest : (bytes (its.drop k)).length ≤ n := by
        rw [bytes_drop hsolid, List.length_drop]
        omega
      have hsolid' : Solid (its.drop k) := hquiet'.solid
      have hquiet'' : Quiet (its.drop k).tail := fun i hi => hquiet' i (List.mem_of_mem_tail hi)
      have hitems : frames.flatten ++ (rest ++ its) =
          (frames ++ [rest ++ its.take k]).flatten ++ its.drop k := by
        rw [List.flatten_append, List.flatten_singleton, List.append_assoc, List.append_assoc,
          List.take_append_drop]
      obtain ⟨w₁, hw₁⟩ : ∃ w₁, w₁ = w.put ((bytes its).take k) := ⟨_, rfl⟩
      have hchunks₁ : Chunks w₁.published frames := hw₁ ▸ hchunks
      have hstarted₁ : w₁.is_started = true := hw₁ ▸ hstarted
      have hsequence₁ : w₁.ulog_stream_data.msg_sequence = UInt16.ofNat w₁.published.length :=
        hw₁ ▸ hbuf.sequence
      rw [hturn, ← hw₁]
      rw [← hw₁] at hput hdata hoffset'
      by_cases hfull : dataLen ≤ w₁.ulog_stream_data.length.toNat
      · have hframe : (bytes (rest ++ its.take k)).length = dataLen := by
          rw [bytes_append, List.length_append, bytes_take hsolid]
          rw [hput.1] at hfull
          exact le_antisymm hfits hfull
        obtain ⟨hchunks₂, hresult⟩ := publish_spec env false hchunks₁ hstarted₁ hsequence₁
          hput.2.1 hdata hoffset' hframe.le fun _ => hframe
        rw [if_pos hfull, hitems]
        rcases hresult with ⟨hok, hbuf₂, hstarted₂, hoffset₂⟩ | ⟨hfail, hstopped, hzero, hmissed⟩
        · rw [if_neg (not_not.mpr hok)]
          have hoffset₃ : (w₁.publishMessage env false).1.ulog_stream_data.first_message_offset =
              offsetOf ([] ++ its.drop k) := by
            rw [hoffset₂, List.nil_append, offsetOf_quiet hquiet']
          obtain ⟨r, frames', rest', hr, hstream, hframed⟩ :=
            ih hrest hsolid' hquiet'' hchunks₂ hstarted₂ hbuf₂ hoffset₃
          rw [List.nil_append] at hstream
          exact ⟨r, frames', rest', hr, hstream, hframed⟩
        · rw [if_pos (by rw [hfail]; decide)]
          refine ⟨_, frames ++ [rest ++ its.take k], its.drop k, rfl, rfl, ⟨hchunks₂, fun h => ?_,
            fun h => ?_, fun _ => ⟨hzero, hmissed⟩⟩⟩
          · exact absurd (hstopped.symm.trans h) Bool.false_ne_true
          · exact absurd (hstopped.symm.trans h) Bool.false_ne_true
      · have hbuf₁ : Buffered w₁ (rest ++ its.take k) :=
          ⟨hsequence₁, hput.2.1, not_le.mp hfull, hdata⟩
        have hoffset₁ : w₁.ulog_stream_data.first_message_offset =
            offsetOf (rest ++ its.take k ++ its.drop k) := by
          rw [hoffset', offsetOf_append hquiet']
        obtain ⟨r, frames', rest', hr, hstream, hframed⟩ :=
          ih hrest hsolid' hquiet'' hchunks₁ hstarted₁ hbuf₁ hoffset₁
        rw [List.append_assoc, List.take_append_drop] at hstream
        rw [if_neg hfull]
        exact ⟨r, frames', rest', hr, hstream, hframed⟩

/-! ### Sequences of messages -/

def Event.items : Event → List Item
  | .write message => itemsOf message
  | .reliable _ => []

theorem framed_write {frames : List (List Item)} (h : Framed env w frames rest)
    (message : List UInt8) :
    ∃ frames' rest', frames'.flatten ++ rest' = frames.flatten ++ (rest ++ itemsOf message) ∧
      Framed env (w.writeMessage env message).1 frames' rest' := by
  cases hstarted : w.is_started with
  | false =>
    have hstop : ¬ w.is_started = true := by
      rw [hstarted]
      exact Bool.false_ne_true
    rw [Writer.writeMessage, if_neg hstop]
    exact ⟨frames, rest ++ itemsOf message, rfl, h.chunks, fun hs => absurd hs hstop,
      fun hs => absurd hs hstop, h.stopped⟩
  | true =>
    have hbuf := h.buffered hstarted
    have hmark := mark_offset hbuf (h.offset hstarted) message
    have hpublished : w.mark.published = w.published ∧ w.mark.is_started = w.is_started := by
      rw [Writer.mark]
      split_ifs
      · exact ⟨rfl, rfl⟩
      · exact ⟨rfl, rfl⟩
    rw [Writer.writeMessage, if_pos hstarted]
    cases message with
    | nil =>
      rw [writeLoop_nil, Option.getD_some]
      have hbytes : bytes (rest ++ itemsOf []) = bytes rest := by
        rw [bytes_append]
        exact List.append_nil _
      obtain ⟨hsequence, hsize, hroom, hdata⟩ := mark_buffered hbuf
      refine ⟨frames, rest ++ itemsOf [], rfl, hpublished.1 ▸ h.chunks,
        fun _ => ⟨hsequence, hsize, hroom, hdata.trans hbytes.symm⟩, fun _ => .inl hmark,
          fun hs => ?_⟩
      rw [hpublished.2, hstarted] at hs
      exact nomatch hs
    | cons b bs =>
      have hsolid : Solid (itemsOf (b :: bs)) :=
        List.forall_mem_cons.mpr ⟨Item.noConfusion, (quiet_itemsOf_tail (b :: bs)).solid⟩
      have hn : (bytes (itemsOf (b :: bs))).length ≤ (b :: bs).length := by
        rw [bytes_itemsOf]
      obtain ⟨r, frames', rest', hr, hstream, hframed⟩ := writeLoop_spec env hn hsolid
        (quiet_itemsOf_tail (b :: bs)) (hpublished.1 ▸ h.chunks) (hpublished.2.trans hstarted)
        (mark_buffered hbuf) hmark
      rw [bytes_itemsOf] at hr
      rw [hr, Option.getD_some]
      exact ⟨frames', rest', hstream, hframed⟩

theorem framed_reliable {frames : List (List Item)} (h : Framed env w frames rest)
    (need_reliable : Bool) :
    ∃ frames' rest', frames'.flatten ++ rest' = frames.flatten ++ rest ∧
      Framed env (w.setNeedReliableTransfer env need_reliable) frames' rest' := by
  have hset : ∀ {w' : Writer} {frames' rest'}, Framed env w' frames' rest' →
      Framed env { w' with need_reliable_transfer := need_reliable } frames' rest' := fun h' =>
    ⟨h'.chunks, fun hs => ⟨(h'.buffered hs).sequence, (h'.buffered hs).size, (h'.buffered hs).room,
      (h'.buffered hs).data⟩, h'.offset, h'.stopped⟩
  rw [Writer.setNeedReliableTransfer]
  split_ifs with hend hpos
  · have hstarted : w.is_started = true := by
      by_contra hstop
      rw [(h.stopped (Bool.not_eq_true _ ▸ hstop)).1] at hpos
      exact nomatch hpos
    have hbuf := h.buffered hstarted
    have hlen := hbuf.length
    have hne : rest ≠ [] := by
      rintro rfl
      rw [UInt8.lt_iff_toNat_lt, hlen] at hpos
      exact nomatch hpos
    have hoffset := (h.offset hstarted).resolve_right fun hnil => hne hnil.1
    obtain ⟨hchunks, hresult⟩ := publish_spec env true h.chunks hstarted hbuf.sequence
      hbuf.size hbuf.data hoffset (hlen ▸ hbuf.room.le) fun hfull =>
        nomatch hfull
    refine ⟨frames ++ [rest], [], ?_, hset ⟨hchunks, fun hs => ?_, fun hs => ?_, fun hs => ?_⟩⟩
    · rw [List.flatten_append, List.flatten_singleton, List.append_nil]
    · rcases hresult with ⟨-, hbuf', -, -⟩ | ⟨-, hstop, -, -⟩
      · exact hbuf'
      · exact absurd (hstop.symm.trans hs) Bool.false_ne_true
    · rcases hresult with ⟨-, -, -, hoffset'⟩ | ⟨-, hstop, -, -⟩
      · exact .inl hoffset'
      · exact absurd (hstop.symm.trans hs) Bool.false_ne_true
    · rcases hresult with ⟨-, -, hstart, -⟩ | ⟨-, -, hzero, hmissed⟩
      · exact absurd (hstart.symm.trans hs) Bool.false_ne_true.symm
      · exact ⟨hzero, hmissed⟩
  · exact ⟨frames, rest, rfl, hset h⟩
  · exact ⟨frames, rest, rfl, hset h⟩

theorem framed_step {frames : List (List Item)} (h : Framed env w frames rest) (e : Event) :
    ∃ frames' rest', frames'.flatten ++ rest' = frames.flatten ++ (rest ++ e.items) ∧
      Framed env (step env w e) frames' rest' := by
  cases e with
  | write message => exact framed_write h message
  | reliable need_reliable =>
    rw [Event.items, List.append_nil]
    exact framed_reliable h need_reliable

theorem framed_run {frames : List (List Item)} (h : Framed env w frames rest) (es : List Event) :
    ∃ frames' rest', frames'.flatten ++ rest' = frames.flatten ++ (rest ++ es.flatMap Event.items) ∧
      Framed env (Trace.run (step env) w es) frames' rest' := by
  induction es generalizing w frames rest with
  | nil => exact ⟨frames, rest, by rw [List.flatMap_nil, List.append_nil], h⟩
  | cons e es ih =>
    obtain ⟨frames₁, rest₁, hstream₁, h₁⟩ := framed_step h e
    obtain ⟨frames₂, rest₂, hstream₂, h₂⟩ := ih h₁
    refine ⟨frames₂, rest₂, ?_, h₂⟩
    rw [hstream₂, ← List.append_assoc, hstream₁, List.flatMap_cons, List.append_assoc,
      List.append_assoc]

variable (env) in
theorem dropped_step (hstop : w.is_started = false) (hlength : w.ulog_stream_data.length = 0)
    (e : Event) : (step env w e).published = w.published ∧ (step env w e).is_started = false ∧
      (step env w e).ulog_stream_data.length = 0 := by
  cases e with
  | write message =>
    have hwrite : w.writeMessage env message = (w, 0) :=
      if_neg (by rw [hstop]; exact Bool.false_ne_true)
    rw [step, hwrite]
    exact ⟨rfl, hstop, hlength⟩
  | reliable need_reliable =>
    rw [step, Writer.setNeedReliableTransfer, hlength]
    split_ifs with hend hpos
    · exact nomatch hpos
    · exact ⟨rfl, hstop, hlength⟩
    · exact ⟨rfl, hstop, hlength⟩

theorem dropped_run (hstop : w.is_started = false) (hlength : w.ulog_stream_data.length = 0)
    (es : List Event) : (Trace.run (step env) w es).published = w.published := by
  induction es generalizing w with
  | nil => rfl
  | cons e es ih =>
    obtain ⟨hpublished, hstop', hlength'⟩ := dropped_step env hstop hlength e
    rw [Trace.run_cons, ih hstop' hlength', hpublished]

/-- What is required of the chunks: `w` is the log after the start and these events. -/
structure Framing (env : Env) (w : Writer) (es : List Event) : Prop where
  /-- The chunks are pieces of the stream, with the offsets and the numbers they should have; while
  the log is started, the buffer is the next piece. -/
  stream : ∃ frames rest, frames.flatten ++ rest = (messages es).flatMap itemsOf ∧
    Chunks w.published frames ∧ (w.is_started = true → dataOf w.ulog_stream_data = bytes rest)
  data : w.is_started = true → (w.published.flatMap fun p => dataOf p.chunk) ++
    dataOf w.ulog_stream_data = (messages es).flatten
  /-- The log is stopped only when an acknowledgement does not come, and nothing is sent then. -/
  stopped : w.is_started = false → Missed env w ∧
    ∀ later, (Trace.run (step env) w later).published = w.published

theorem flatMap_items (es : List Event) : es.flatMap Event.items =
    (messages es).flatMap itemsOf := by
  induction es with
  | nil => rfl
  | cons e es ih =>
    rw [List.flatMap_cons, ih]
    cases e with
    | write message => rfl
    | reliable need_reliable => rfl

theorem bytes_flatMap (ms : List (List UInt8)) : bytes (ms.flatMap itemsOf) = ms.flatten := by
  induction ms with
  | nil => rfl
  | cons m ms ih => rw [List.flatMap_cons, bytes_append, bytes_itemsOf, ih, List.flatten_cons]

theorem bytes_frames {frames : List (List Item)} {published : List Published}
    (h : List.Forall₂ FrameOf frames published) :
    bytes frames.flatten = published.flatMap fun p => dataOf p.chunk := by
  induction h with
  | nil => rfl
  | cons hframe _ ih => rw [List.flatten_cons, bytes_append, ih, List.flatMap_cons, hframe.data]

/-- **The chunks are the messages**, for every sequence of messages and changes of the transfer. -/
theorem framing (env : Env) (w₀ : Writer) (hsize : w₀.ulog_stream_data.data.length = dataLen)
    (es : List Event) : Framing env (Trace.run (step env) w₀.startLog es) es := by
  have hstart : Framed env w₀.startLog [] [] := by
    refine ⟨⟨.nil, fun k p hk => nomatch hk⟩,
      fun _ => ⟨rfl, hsize, ?_, rfl⟩, fun _ => .inr ⟨rfl, rfl⟩, fun hs => nomatch hs⟩
    exact show (0 : UInt8).toNat < dataLen by decide
  obtain ⟨frames, rest, hstream, hframed⟩ := framed_run hstart es
  rw [List.flatten_nil, List.nil_append, List.nil_append, flatMap_items] at hstream
  refine ⟨⟨frames, rest, hstream, hframed.chunks, fun hs => (hframed.buffered hs).data⟩,
    fun hs => ?_, fun hs => ⟨(hframed.stopped hs).2, dropped_run hs (hframed.stopped hs).1⟩⟩
  rw [(hframed.buffered hs).data, ← bytes_frames hframed.chunks.frames, ← bytes_append, hstream,
    bytes_flatMap]

def fresh : Writer := ⟨⟨0, 0, 0, 0, 0, List.replicate dataLen 0⟩, false, false, []⟩

/-- A message that fills a chunk, and the next one. -/
theorem framing_fresh : Framing ⟨fun _ => 0, fun _ => true⟩
    (Trace.run (step ⟨fun _ => 0, fun _ => true⟩) fresh.startLog
      [.write (List.replicate 249 1), .write [2]])
    [.write (List.replicate 249 1), .write [2]] :=
  framing _ fresh List.length_replicate _

/-- The acknowledgement of the first chunk does not come, and the rest of the message is lost. -/
theorem ack_timeout_loses : ¬ ∀ (env : Env) (w₀ : Writer) (es : List Event),
    w₀.ulog_stream_data.data.length = dataLen →
      ((Trace.run (step env) w₀.startLog es).published.flatMap fun p => dataOf p.chunk) ++
        dataOf (Trace.run (step env) w₀.startLog es).ulog_stream_data = (messages es).flatten := by
  intro h
  have hlost := h ⟨fun _ => 0, fun _ => false⟩ fresh
    [.reliable true, .write (List.replicate 250 1)] List.length_replicate
  have hlength := congrArg List.length hlost
  exact absurd hlength (by decide +kernel)

end LogWriterMavlink
