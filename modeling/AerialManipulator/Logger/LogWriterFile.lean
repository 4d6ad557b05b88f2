/-
The log writer.

The logger writes messages into a ring buffer, and a thread of its own writes the buffer to the
file.  The buffer is locked while the thread looks for data and while it marks them as read, but
not while it writes them to the file: in between there can be more messages, and the log can be
stopped.

* `Stores` — the buffer holds the last bytes of everything that was written to it;
* `Stores.write` — a message that fits is stored as a whole;
* `Stores.getReadPtr` — the oldest bytes are offered, up to the end of the buffer.
-/
import AerialManipulator.Lib.ByteStore
import AerialManipulator.Lib.ByteStream
import AerialManipulator.Lib.Ring

open ByteStore ByteStream

namespace Logger

structure LogFileBuffer where
  buffer_size : ℕ
  /-- the file is open -/
  fd : Bool
  buffer : Mem
  head : ℕ
  count : ℕ
  total_written : ℕ
  should_run : Bool

/-- What `get_read_ptr` returns. -/
structure Offer where
  read_ptr : ℕ
  available : ℕ
  is_part : Bool

/-- The conversion to `int`. -/
def toInt (x : ℤ) : ℤ := Int.bmod x (2 ^ 32)

namespace LogFileBuffer

variable (b : LogFileBuffer)

/-- `start_log`, where the file can be opened. -/
def startLog : LogFileBuffer :=
  { b with fd := true, head := 0, count := 0, total_written := 0, should_run := true }

def available : ℕ := b.buffer_size - b.count

def writeNoCheck (data : List UInt8) : LogFileBuffer :=
  let n := b.buffer_size - b.head
  if data.length > n then
    -- the message goes over the end of the buffer
    let p := data.length - n
    { b with
      buffer := put (put b.buffer b.head (data.take n)) 0 (data.drop n)
      head := (0 + p) % b.buffer_size
      count := b.count + data.length }
  else
    { b with
      buffer := put b.buffer b.head data
      head := (b.head + data.length) % b.buffer_size
      count := b.count + data.length }

def getReadPtr : Offer :=
  let read_ptr := toInt (b.head - b.count)
  if read_ptr < 0 then
    let read_ptr := toInt (read_ptr + b.buffer_size)
    ⟨read_ptr.toNat, (b.buffer_size - read_ptr).toNat, true⟩
  else ⟨read_ptr.toNat, b.count, false⟩

def markRead (n : ℕ) : LogFileBuffer :=
  { b with count := b.count - n, total_written := b.total_written + n }

def closeFile : LogFileBuffer := { b with fd := false, head := 0, count := 0 }

/-- `ulog_message_dropout_s`, with the duration in ms. -/
def dropoutMsg (duration : UInt16) : List UInt8 :=
  littleEndian 2 2 ++ [0x4f] ++ littleEndian 2 duration.toNat

def messageBytes (msg : List UInt8) : Option UInt16 → List UInt8
  | none => msg
  | some duration => dropoutMsg duration ++ msg

def write (msg : List UInt8) (dropout : Option UInt16) : LogFileBuffer × ℤ :=
  if ! b.should_run then (b, 0)
  else if msg.length + (dropout.map fun d => (dropoutMsg d).length).getD 0 > b.available then
    (b, -1)
  else
    match dropout with
    | none => (b.writeNoCheck msg, 0)
    | some duration => ((b.writeNoCheck (dropoutMsg duration)).writeNoCheck msg, 0)

end LogFileBuffer

/-- Where the thread is: between `get_read_ptr` and `write_to_file`, and between `write_to_file`
and `mark_read`, with what was in the region when it was handed out. -/
inductive Writer
  | idle
  | offered (o : Offer) (snapshot : List UInt8)
  | written (o : Offer) (snapshot : List UInt8) (n : ℕ)

/-- The buffer, the thread, the bytes in the file, and the messages for which `write` has returned
0. -/
structure Log where
  buf : LogFileBuffer
  writer : Writer
  file : List UInt8
  accepted : List (List UInt8)

inductive Event
  | write (msg : List UInt8) (dropout : Option UInt16)
  /-- `stop_log`, at any moment -/
  | stop
  /-- the thread looks for data -/
  | poll (call_fsync : Bool)
  /-- `write_to_file`, which writes `n` bytes -/
  | writeToFile (n : ℕ)
  /-- the thread has the lock again -/
  | mark

namespace Log

variable (min_available : ℕ) (s : Log)

def handleWrite (msg : List UInt8) (dropout : Option UInt16) : Log :=
  let r := s.buf.write msg dropout
  { s with
    buf := r.1
    accepted := if r.2 = 0 then s.accepted ++ [LogFileBuffer.messageBytes msg dropout]
      else s.accepted }

/-- The part of `run` before the lock is released. -/
def handlePoll (call_fsync : Bool) : Log :=
  let o := s.buf.getReadPtr
  if o.available ≥ min_available ∨ o.is_part ∨ !s.buf.should_run ∧ o.available > 0 then
    { s with writer := .offered o (slice s.buf.buffer o.read_ptr o.available) }
  else if call_fsync && s.buf.should_run then s
  else if o.available = 0 ∧ !s.buf.should_run then { s with buf := s.buf.closeFile }
  else s

/-- The part of `run` after `write_to_file`. -/
def handleMark (o : Offer) (written : ℤ) : Log :=
  if written ≥ 0 then
    let b := s.buf.markRead written.toNat
    -- "Stop only when all data written"
    let b := if !b.should_run ∧ written = o.available ∧ !o.is_part then b.closeFile else b
    { s with buf := b, writer := .idle }
  else { s with buf := { s.buf with should_run := false }.closeFile, writer := .idle }

def step (s : Log) (e : Event) : Log :=
  if ! s.buf.fd then s
  else
    match e, s.writer with
    | .write msg dropout, _ => s.handleWrite msg dropout
    | .stop, _ => { s with buf := { s.buf with should_run := false } }
    | .poll call_fsync, .idle => s.handlePoll min_available call_fsync
    | .writeToFile n, .offered o snapshot =>
      if n ≤ o.available then
        { s with
          writer := .written o snapshot n
          file := s.file ++ (slice s.buf.buffer o.read_ptr o.available).take n }
      else s
    | .mark, .written o _ n => s.handleMark o n
    | _, _ => s

end Log

/-! ### The ring buffer -/

namespace LogFileBuffer

def buffered (b : LogFileBuffer) : List UInt8 :=
  (List.range b.count).map fun k =>
    b.buffer ((b.head + b.buffer_size - b.count + k) % b.buffer_size)

/-- The buffer holds the last `count` bytes of everything that was written to it. -/
structure Stores (b : LogFileBuffer) (hist : List UInt8) : Prop where
  size_pos : 0 < b.buffer_size
  size_lt : b.buffer_size < 2 ^ 31
  holds : Ring.Holds b.buffer_size b.buffer hist
  head : b.head = hist.length % b.buffer_size
  count_le : b.count ≤ b.buffer_size
  count_le_hist : b.count ≤ hist.length

variable {b : LogFileBuffer} {hist data : List UInt8}

theorem Stores.head_lt (h : b.Stores hist) : b.head < b.buffer_size := by
  rw [h.head]
  exact Nat.mod_lt _ h.size_pos

theorem Stores.buffered_eq (h : b.Stores hist) :
    b.buffered = hist.drop (hist.length - b.count) := by
  have hle := h.count_le_hist
  apply List.ext_getElem
  · rw [buffered, List.length_map, List.length_range, List.length_drop]
    omega
  · intro k hk hk'
    rw [List.length_drop] at hk'
    simp only [buffered, List.getElem_map, List.getElem_range, List.getElem_drop]
    rw [h.head, Ring.mod_back h.count_le hle]
    exact h.holds _ (by omega) (by have := h.count_le; omega)

theorem add_mod_of_head {n q j : ℕ} (hj : j < q) :
    (n + j) % q = if n % q + j < q then n % q + j else n % q + j - q := by
  have hlt : n % q < q := Nat.mod_lt _ (by omega)
  rw [Nat.add_mod, Nat.mod_eq_of_lt hj]
  split
  · next hsum => exact Nat.mod_eq_of_lt hsum
  · next hsum =>
    rw [Nat.mod_eq_sub_mod (by omega), Nat.mod_eq_of_lt (by omega)]

theorem holds_put {m : Mem} {q head : ℕ} (h : Ring.Holds q m hist) (hhead : head = hist.length % q)
    (hfits : head + data.length ≤ q) : Ring.Holds q (put m head data) (hist ++ data) := by
  have hslot : ∀ j < data.length, (hist.length + j) % q = head + j := by
    intro j hj
    rw [add_mod_of_head (by omega), ← hhead, if_pos (by omega)]
  refine h.extend (fun j hj => ?_) (fun a ha => ?_)
  · rw [hslot j hj, put_add hj]
  · rcases Nat.lt_or_ge a head with hlt | hge
    · exact put_of_lt hlt
    · refine put_of_ge ?_
      by_contra hlt
      refine ha (a - head) (by omega) ?_
      rw [hslot _ (by omega)]
      omega

theorem holds_put_wrap {m : Mem} {q head : ℕ} (h : Ring.Holds q m hist)
    (hhead : head = hist.length % q) (hlt : head < q) (hover : q - head < data.length)
    (hfits : data.length ≤ q) :
    Ring.Holds q (put (put m head (data.take (q - head))) 0 (data.drop (q - head)))
      (hist ++ data) := by
  have hslot : ∀ j < data.length, (hist.length + j) % q =
      if head + j < q then head + j else head + j - q := by
    intro j hj
    rw [add_mod_of_head (by omega), ← hhead]
  have htake : (data.take (q - head)).length = q - head := by
    rw [List.length_take]
    omega
  have hdrop : (data.drop (q - head)).length = data.length - (q - head) := List.length_drop
  refine h.extend (fun j hj => ?_) (fun a ha => ?_)
  · rw [hslot j hj]
    split
    · next hj' =>
      rw [put_of_ge (by rw [hdrop]; omega), put_add (by rw [htake]; omega), List.getElem_take]
    · next hj' =>
      have hsplit : head + j - q = 0 + (j - (q - head)) := by omega
      rw [hsplit, put_add (by rw [hdrop]; omega), List.getElem_drop]
      congr 1
      omega
  · -- no slot of the data: neither at the start of the buffer nor at its end
    have hstart : ¬ a < data.length - (q - head) := by
      intro ha'
      refine ha (a + (q - head)) (by omega) ?_
      rw [hslot _ (by omega), if_neg (by omega)]
      omega
    have hend : ¬ (head ≤ a ∧ a < q) := by
      intro ha'
      refine ha (a - head) (by omega) ?_
      rw [hslot _ (by omega), if_pos (by omega)]
      omega
    rw [put_of_ge (by rw [hdrop]; omega)]
    rcases Nat.lt_or_ge a head with ha' | ha'
    · exact put_of_lt ha'
    · exact put_of_ge (by rw [htake]; omega)

theorem Stores.writeNoCheck (h : b.Stores hist) (hfits : b.count + data.length ≤ b.buffer_size) :
    (b.writeNoCheck data).Stores (hist ++ data) ∧
      (b.writeNoCheck data).count = b.count + data.length ∧
      (b.writeNoCheck data).buffer_size = b.buffer_size := by
  have hlt := h.head_lt
  have hcount : b.count + data.length ≤ (hist ++ data).length := by
    rw [List.length_append]
    exact Nat.add_le_add_right h.count_le_hist _
  have hnext : (hist ++ data).length % b.buffer_size = (b.head + data.length) % b.buffer_size := by
    rw [List.length_append, h.head, Nat.mod_add_mod]
  unfold LogFileBuffer.writeNoCheck
  dsimp only
  split
  · next hover =>
    have hhead : (0 + (data.length - (b.buffer_size - b.head))) % b.buffer_size =
        (hist ++ data).length % b.buffer_size := by
      have hsum : b.head + data.length =
          0 + (data.length - (b.buffer_size - b.head)) + b.buffer_size := by omega
      rw [hnext, hsum, Nat.add_mod_right]
    have hdata : data.length ≤ b.buffer_size := by omega
    exact ⟨⟨h.size_pos, h.size_lt, holds_put_wrap h.holds h.head hlt hover hdata, hhead, hfits,
      hcount⟩, rfl, rfl⟩
  · next hover =>
    have hdata : b.head + data.length ≤ b.buffer_size := by omega
    exact ⟨⟨h.size_pos, h.size_lt, holds_put h.holds h.head hdata, hnext.symm, hfits, hcount⟩,
      rfl, rfl⟩

theorem toInt_of_small {x : ℤ} (hlow : -2 ^ 31 ≤ x) (hhigh : x < 2 ^ 31) : toInt x = x :=
  Int.bmod_eq_of_le_mul_two (by omega) (by omega)

theorem Stores.getReadPtr (h : b.Stores hist) :
    b.getReadPtr.read_ptr = (hist.length - b.count) % b.buffer_size ∧
      b.getReadPtr.read_ptr + b.getReadPtr.available ≤ b.buffer_size ∧
      b.getReadPtr.available ≤ b.count ∧
      (b.getReadPtr.is_part = false → b.getReadPtr.available = b.count) ∧
      (b.getReadPtr.is_part = true → 0 < b.getReadPtr.available) := by
  have hlt := h.head_lt
  have hsize := h.size_lt
  have hcount := h.count_le
  have hback := Ring.mod_back hcount h.count_le_hist 0
  rw [Nat.add_zero, Nat.add_zero, ← h.head] at hback
  unfold LogFileBuffer.getReadPtr
  dsimp only
  rw [toInt_of_small (by omega) (by omega)]
  split
  · next hneg =>
    rw [toInt_of_small (by omega) (by omega)]
    dsimp only
    have hptr : ((b.head : ℤ) - b.count + b.buffer_size).toNat =
        b.head + b.buffer_size - b.count := by
      omega
    rw [← hback, hptr, Nat.mod_eq_of_lt (by omega)]
    refine ⟨rfl, by omega, by omega, fun hpart => absurd hpart Bool.true_eq_false.mp, fun _ => ?_⟩
    omega
  · next hneg =>
    dsimp only
    have hptr : ((b.head : ℤ) - b.count).toNat = b.head - b.count := by omega
    rw [← hback, hptr]
    have hsub : b.head + b.buffer_size - b.count = b.head - b.count + b.buffer_size := by omega
    rw [hsub, Nat.add_mod_right, Nat.mod_eq_of_lt (by omega)]
    exact ⟨rfl, by omega, le_rfl, fun _ => rfl, fun hpart => nomatch hpart⟩

theorem length_messageBytes (msg : List UInt8) (dropout : Option UInt16) :
    (messageBytes msg dropout).length =
      msg.length + (dropout.map fun d => (dropoutMsg d).length).getD 0 := by
  cases dropout with
  | none => rfl
  | some duration => exact (List.length_append).trans (Nat.add_comm _ _)

theorem write_of_stopped (msg : List UInt8) (dropout : Option UInt16)
    (hrun : b.should_run = false) : b.write msg dropout = (b, 0) := by
  unfold LogFileBuffer.write
  rw [hrun]
  rfl

theorem write_of_overflow {msg : List UInt8} {dropout : Option UInt16} (hrun : b.should_run = true)
    (hover : b.available < (messageBytes msg dropout).length) : b.write msg dropout = (b, -1) := by
  rw [length_messageBytes] at hover
  unfold LogFileBuffer.write
  rw [hrun, if_neg (by decide), if_pos hover]

theorem writeNoCheck_same (data : List UInt8) : (b.writeNoCheck data).fd = b.fd ∧
    (b.writeNoCheck data).should_run = b.should_run := by
  unfold LogFileBuffer.writeNoCheck
  dsimp only
  split
  · exact ⟨rfl, rfl⟩
  · exact ⟨rfl, rfl⟩

theorem Stores.write {msg : List UInt8} {dropout : Option UInt16} (h : b.Stores hist)
    (hrun : b.should_run = true) (hfits : (messageBytes msg dropout).length ≤ b.available) :
    ∃ b', b.write msg dropout = (b', 0) ∧ b'.Stores (hist ++ messageBytes msg dropout) ∧
      b'.count = b.count + (messageBytes msg dropout).length ∧ b'.buffer_size = b.buffer_size ∧
      b'.fd = b.fd := by
  have hcount := h.count_le
  unfold available at hfits
  have hnot : ¬ msg.length + (dropout.map fun d => (dropoutMsg d).length).getD 0 >
      b.buffer_size - b.count := by
    rw [← length_messageBytes]
    omega
  unfold LogFileBuffer.write available
  rw [hrun, if_neg (by decide), if_neg hnot]
  cases dropout with
  | none =>
    change msg.length ≤ _ at hfits
    obtain ⟨hstores, hcount', hsize⟩ := @Stores.writeNoCheck b hist msg h (by omega)
    exact ⟨_, rfl, hstores, hcount', hsize, (writeNoCheck_same msg).1⟩
  | some duration =>
    rw [messageBytes, List.length_append] at hfits
    obtain ⟨hstores, hcount', hsize⟩ :=
      @Stores.writeNoCheck b hist (dropoutMsg duration) h (by omega)
    obtain ⟨hstores', hcount'', hsize'⟩ :=
      @Stores.writeNoCheck _ _ msg hstores (by omega)
    rw [List.append_assoc] at hstores'
    refine ⟨_, rfl, hstores', ?_, hsize'.trans hsize, ?_⟩
    · rw [hcount'', hcount', messageBytes, List.length_append, Nat.add_assoc]
    · rw [(writeNoCheck_same msg).1, (writeNoCheck_same _).1]

end LogFileBuffer

end Logger
