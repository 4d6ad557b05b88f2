/-
Runs of the log writer.

The logger, the thread and a stop of the log at any moment: every order of their steps.

* `Log.Open`, `Log.Inv` — what holds of the buffer, the file and the thread;
* `Open.contents`, `Open.region` — nothing is lost or repeated, and what was handed out to the file
  is still there;
* **`log_correct_iff`** — a run is correct exactly if nothing is written after the log is stopped,
  and if no bytes came in while the last part was written to the file.
-/
import AerialManipulator.Logger.LogWriterFile
import AerialManipulator.Lib.Trace

open ByteStore

namespace Logger

/-! ### The state between the steps -/

def Writer.pending : Writer → ℕ
  | .idle => 0
  | .offered _ _ => 0
  | .written _ _ n => n

/-- The region that was handed out: where it is in everything that was written, and what was in
it. -/
structure Offered (hist : List UInt8) (q tail : ℕ) (o : Offer) (snapshot : List UInt8) : Prop where
  read_ptr : o.read_ptr = tail % q
  fits : o.read_ptr + o.available ≤ q
  le : tail + o.available ≤ hist.length
  snapshot : snapshot = (hist.drop tail).take o.available

def Writer.Ok (hist : List UInt8) (q tail : ℕ) : Writer → Prop
  | .idle => True
  | .offered o snapshot => Offered hist q tail o snapshot
  | .written o snapshot n => Offered hist q tail o snapshot ∧ n ≤ o.available

theorem Offered.append {hist data snapshot : List UInt8} {q tail : ℕ} {o : Offer}
    (h : Offered hist q tail o snapshot) : Offered (hist ++ data) q tail o snapshot := by
  have hle := h.le
  refine ⟨h.read_ptr, h.fits, by rw [List.length_append]; omega, ?_⟩
  rw [h.snapshot, List.drop_append_of_le_length (by omega),
    List.take_append_of_le_length (by rw [List.length_drop]; omega)]

theorem Writer.Ok.append {hist data : List UInt8} {q tail : ℕ} {w : Writer}
    (h : w.Ok hist q tail) : w.Ok (hist ++ data) q tail := by
  cases w with
  | idle => trivial
  | offered o snapshot => exact Offered.append h
  | written o snapshot n => exact ⟨Offered.append h.1, h.2⟩

namespace Log

variable {s : Log} {min_available : ℕ}

def hist (s : Log) : List UInt8 := s.accepted.flatten

def tail (s : Log) : ℕ := s.hist.length - s.buf.count

/-- The bytes that are in the buffer and not yet in the file. -/
def stillBuffered (s : Log) : List UInt8 := s.buf.buffered.drop s.writer.pending

/-- The log is open. -/
structure Open (s : Log) : Prop where
  fd : s.buf.fd = true
  stores : s.buf.Stores s.hist
  file : s.file = s.hist.take (s.tail + s.writer.pending)
  writer : s.writer.Ok s.hist s.buf.buffer_size s.tail

/-- The log has been closed. -/
structure Closed (s : Log) : Prop where
  fd : s.buf.fd = false
  count : s.buf.count = 0
  writer : s.writer = .idle
  file : s.file = s.hist

/-- The invariant of the log. -/
def Inv (s : Log) : Prop := s.Open ∨ s.Closed

theorem Open.tail_add (h : s.Open) : s.tail + s.buf.count = s.hist.length := by
  have := h.stores.count_le_hist
  unfold tail
  omega

theorem Open.pending_le (h : s.Open) : s.writer.pending ≤ s.buf.count := by
  have htail := h.tail_add
  have hwriter := h.writer
  cases hw : s.writer with
  | idle => exact Nat.zero_le _
  | offered o snapshot => exact Nat.zero_le _
  | written o snapshot n =>
    rw [hw] at hwriter
    have hle := hwriter.1.le
    have hn := hwriter.2
    change n ≤ s.buf.count
    omega

theorem Open.stillBuffered_eq (h : s.Open) :
    s.stillBuffered = s.hist.drop (s.tail + s.writer.pending) := by
  rw [stillBuffered, h.stores.buffered_eq, List.drop_drop]
  rfl

theorem Open.contents (h : s.Open) : s.file ++ s.stillBuffered = s.hist := by
  rw [h.stillBuffered_eq, h.file, List.take_append_drop]

theorem Open.region {o : Offer} {snapshot : List UInt8} (h : s.Open)
    (ho : Offered s.hist s.buf.buffer_size s.tail o snapshot) :
    slice s.buf.buffer o.read_ptr o.available = snapshot := by
  have htail := h.tail_add
  have hcount := h.stores.count_le
  have hle := ho.le
  have hfits := ho.fits
  apply List.ext_getElem
  · rw [length_slice, ho.snapshot, List.length_take, List.length_drop]
    omega
  · intro i hi _
    rw [length_slice] at hi
    simp only [slice, List.getElem_map, List.getElem_range, ho.snapshot, List.getElem_take,
      List.getElem_drop]
    rw [ho.read_ptr] at hfits ⊢
    exact h.stores.holds.window (by omega) (by omega) (by omega)

/-! ### The steps -/

theorem Open.write {msg : List UInt8} {dropout : Option UInt16} (h : s.Open)
    (hrun : s.buf.should_run = true)
    (hfits : (LogFileBuffer.messageBytes msg dropout).length ≤ s.buf.available) :
    (s.buf.write msg dropout).2 = 0 ∧ (s.handleWrite msg dropout).Open := by
  obtain ⟨b, heq, hstores, hcount, hsize, hfd⟩ := h.stores.write hrun hfits
  have hnew : s.handleWrite msg dropout =
      { s with
        buf := b
        accepted := s.accepted ++ [LogFileBuffer.messageBytes msg dropout] } := by
    rw [handleWrite, heq]
    rfl
  have hhist : (s.handleWrite msg dropout).hist =
      s.hist ++ LogFileBuffer.messageBytes msg dropout := by
    rw [hnew]
    simp [hist]
  have htail : (s.handleWrite msg dropout).tail = s.tail := by
    have := h.tail_add
    rw [tail, hhist, hnew, List.length_append]
    dsimp only
    omega
  refine ⟨by rw [heq], ?_, ?_, ?_, ?_⟩
  · rw [hnew]
    exact hfd.trans h.fd
  · rw [hhist, hnew]
    exact hstores
  · have hle := h.tail_add
    have hpending := h.pending_le
    rw [htail, hhist, hnew]
    dsimp only
    rw [List.take_append_of_le_length (by omega)]
    exact h.file
  · rw [htail, hhist, hnew]
    dsimp only
    rw [hsize]
    exact h.writer.append

theorem handleWrite_of_overflow {msg : List UInt8} {dropout : Option UInt16}
    (hrun : s.buf.should_run = true)
    (hover : s.buf.available < (LogFileBuffer.messageBytes msg dropout).length) :
    s.handleWrite msg dropout = s := by
  rw [handleWrite, LogFileBuffer.write_of_overflow hrun hover]
  rfl

theorem Open.stop (h : s.Open) :
    ({ s with buf := { s.buf with should_run := false } } : Log).Open :=
  ⟨h.fd, ⟨h.stores.size_pos, h.stores.size_lt, h.stores.holds, h.stores.head, h.stores.count_le,
    h.stores.count_le_hist⟩, h.file, h.writer⟩

theorem Open.poll (h : s.Open) (hidle : s.writer = .idle) (call_fsync : Bool) :
    (s.handlePoll min_available call_fsync).Inv := by
  obtain ⟨hptr, hfits, hle, hall, hpart⟩ := h.stores.getReadPtr
  have htail := h.tail_add
  have hfile : s.file = s.hist.take s.tail := by
    have := h.file
    rw [hidle] at this
    exact this
  unfold handlePoll
  dsimp only
  split
  · left
    have ho : Offered s.hist s.buf.buffer_size s.tail s.buf.getReadPtr
        ((s.hist.drop s.tail).take s.buf.getReadPtr.available) :=
      ⟨hptr, hfits, by omega, rfl⟩
    rw [h.region ho]
    exact ⟨h.fd, h.stores, hfile, ho⟩
  · split
    · exact .inl h
    · split
      · next hno _ hclose =>
        -- there is nothing left
        right
        have hnot : s.buf.getReadPtr.is_part = false := by
          by_contra htrue
          have := hpart (Bool.eq_true_of_not_eq_false htrue)
          omega
        have hcount := (hall hnot).symm.trans hclose.1
        refine ⟨rfl, rfl, hidle, ?_⟩
        have hlen : s.tail = s.hist.length := by omega
        change s.file = s.hist
        rw [hfile, hlen, List.take_length]
      · exact .inl h

theorem Open.writeToFile {o : Offer} {snapshot : List UInt8} (h : s.Open)
    (hwriter : s.writer = .offered o snapshot) {n : ℕ} (hn : n ≤ o.available) :
    ({ s with
      writer := .written o snapshot n
      file := s.file ++ (slice s.buf.buffer o.read_ptr o.available).take n } : Log).Open := by
  have ho : Offered s.hist s.buf.buffer_size s.tail o snapshot := by
    have := h.writer
    rw [hwriter] at this
    exact this
  have hfile : s.file = s.hist.take s.tail := by
    have := h.file
    rw [hwriter] at this
    exact this
  refine ⟨h.fd, h.stores, ?_, ho, hn⟩
  change s.file ++ _ = s.hist.take (s.tail + n)
  rw [h.region ho, ho.snapshot, List.take_take, Nat.min_eq_left hn, hfile, List.take_add]

/-- The file is closed when the bytes have been marked. -/
def Closes (s : Log) (o : Offer) (n : ℕ) : Prop :=
  s.buf.should_run = false ∧ n = o.available ∧ o.is_part = false

instance (s : Log) (o : Offer) (n : ℕ) : Decidable (Closes s o n) :=
  inferInstanceAs (Decidable (_ ∧ _ ∧ _))

theorem handleMark_eq (s : Log) (o : Offer) (n : ℕ) :
    s.handleMark o n =
      { s with
        buf := if Closes s o n then (s.buf.markRead n).closeFile else s.buf.markRead n
        writer := .idle } := by
  have hiff : (!(s.buf.markRead n).should_run ∧ (n : ℤ) = o.available ∧ !o.is_part) ↔
      Closes s o n := by
    unfold Closes
    rw [Bool.not_eq_true', Bool.not_eq_true', Int.natCast_inj]
    rfl
  rw [handleMark, if_pos (Int.natCast_nonneg n)]
  simp only [Int.toNat_natCast, hiff]

theorem Open.mark {o : Offer} {snapshot : List UInt8} {n : ℕ} (h : s.Open)
    (hwriter : s.writer = .written o snapshot n) :
    ({ s with buf := s.buf.markRead n, writer := .idle } : Log).Open := by
  have hpending := h.pending_le
  have htail := h.tail_add
  rw [hwriter] at hpending
  change n ≤ s.buf.count at hpending
  have hfile : s.file = s.hist.take (s.tail + n) := by
    have := h.file
    rw [hwriter] at this
    exact this
  have hcount := h.stores.count_le
  have hcount' := h.stores.count_le_hist
  refine ⟨h.fd, ⟨h.stores.size_pos, h.stores.size_lt, h.stores.holds, h.stores.head, ?_, ?_⟩, ?_,
    trivial⟩
  · exact (Nat.sub_le _ _).trans hcount
  · exact (Nat.sub_le _ _).trans hcount'
  · change s.file = s.hist.take (s.hist.length - (s.buf.count - n) + 0)
    rw [hfile]
    congr 1
    omega

/-- The file is closed: what it holds is everything exactly if no bytes came in meanwhile. -/
theorem Open.close {o : Offer} {snapshot : List UInt8} (h : s.Open)
    (hwriter : s.writer = .written o snapshot o.available) :
    s.file = s.hist ↔ s.buf.count = o.available := by
  have htail := h.tail_add
  have hpending := h.pending_le
  rw [hwriter] at hpending
  change o.available ≤ s.buf.count at hpending
  have hfile : s.file = s.hist.take (s.tail + o.available) := by
    have := h.file
    rw [hwriter] at this
    exact this
  constructor
  · intro heq
    have hlen := congrArg List.length (hfile.symm.trans heq)
    rw [List.length_take] at hlen
    omega
  · intro heq
    rw [hfile, ← heq, htail, List.take_length]

/-! ### Runs -/

/-- What holds of a step: nothing is lost or repeated; a message is refused exactly if it does not
fit, and then nothing changes; what was handed out is not touched; and the file is closed only when
everything is in it. -/
structure Correct (min_available : ℕ) (s : Log) (e : Event) : Prop where
  contents : (s.step min_available e).file ++ (s.step min_available e).stillBuffered =
    (s.step min_available e).accepted.flatten
  refused : ∀ msg dropout, e = .write msg dropout → s.buf.fd = true →
    ((s.buf.write msg dropout).2 = -1 ↔
      s.buf.available < (LogFileBuffer.messageBytes msg dropout).length) ∧
    ((s.buf.write msg dropout).2 = -1 → s.step min_available e = s)
  region : ∀ o snapshot, (s.step min_available e).writer = .offered o snapshot ∨
      (∃ n, (s.step min_available e).writer = .written o snapshot n) →
    slice (s.step min_available e).buf.buffer o.read_ptr o.available = snapshot
  closed : (s.step min_available e).buf.fd = false →
    (s.step min_available e).file = (s.step min_available e).accepted.flatten

/-- Nothing is written after the log is stopped, and when the thread closes the file, no bytes have
come in since it looked for data. -/
def Orderly (s : Log) : Event → Prop
  | .write msg dropout =>
    s.buf.fd = true → s.buf.should_run = true ∨ LogFileBuffer.messageBytes msg dropout = []
  | .mark => ∀ o snapshot n, s.buf.fd = true → s.writer = .written o snapshot n → Closes s o n →
    s.buf.count = o.available
  | _ => True

theorem Inv.correct {e : Event} (h : (s.step min_available e).Inv)
    (hrefused : ∀ msg dropout, e = .write msg dropout → s.buf.fd = true →
      ((s.buf.write msg dropout).2 = -1 ↔
        s.buf.available < (LogFileBuffer.messageBytes msg dropout).length) ∧
      ((s.buf.write msg dropout).2 = -1 → s.step min_available e = s)) :
    Correct min_available s e := by
  rcases h with h | h
  · refine ⟨h.contents, hrefused, fun o snapshot hwriter => ?_, fun hfd => ?_⟩
    · have hok := h.writer
      rcases hwriter with hwriter | ⟨n, hwriter⟩
      · rw [hwriter] at hok
        exact h.region hok
      · rw [hwriter] at hok
        exact h.region hok.1
    · exact absurd (h.fd.symm.trans hfd) Bool.true_eq_false.mp
  · refine ⟨?_, hrefused, fun o snapshot hwriter => ?_, fun _ => h.file⟩
    · have hnil : (s.step min_available e).stillBuffered = [] := by
        rw [stillBuffered, LogFileBuffer.buffered, h.count]
        exact List.drop_nil
      rw [hnil, List.append_nil]
      exact h.file
    · rw [h.writer] at hwriter
      rcases hwriter with hwriter | ⟨n, hwriter⟩
      · exact Writer.noConfusion hwriter
      · exact Writer.noConfusion hwriter

theorem step_of_closed (h : s.buf.fd = false) (e : Event) : s.step min_available e = s := by
  unfold step
  rw [h]
  rfl

theorem step_of_open (h : s.buf.fd = true) (e : Event) : s.step min_available e =
    match e, s.writer with
    | .write msg dropout, _ => s.handleWrite msg dropout
    | .stop, _ => { s with buf := { s.buf with should_run := false } }
    | .poll call_fsync, .idle => s.handlePoll min_available call_fsync
    | .writeToFile n, .offered o snapshot =>
      if n ≤ o.available then
        { s with
          writer := .written o snapshot n
          file := s.file ++ (slice s.buf.buffer o.read_ptr o.available).take n }
      else s
    | .mark, .written o _ n => s.handleMark o n
    | _, _ => s := by
  unfold step
  rw [h]
  rfl

theorem Open.write_step {msg : List UInt8} {dropout : Option UInt16} (h : s.Open)
    (ho : s.Orderly (.write msg dropout)) :
    (s.step min_available (.write msg dropout)).Inv ∧
      (((s.buf.write msg dropout).2 = -1 ↔
        s.buf.available < (LogFileBuffer.messageBytes msg dropout).length) ∧
      ((s.buf.write msg dropout).2 = -1 → s.step min_available (.write msg dropout) = s)) := by
  have hstep : s.step min_available (.write msg dropout) = s.handleWrite msg dropout :=
    step_of_open h.fd _
  rw [hstep]
  cases hrun : s.buf.should_run with
  | false =>
    -- the log is stopped: there is nothing in the message
    have hnil := (ho h.fd).resolve_left (by rw [hrun]; exact Bool.false_ne_true)
    have heq := LogFileBuffer.write_of_stopped msg dropout hrun
    have hhist : (s.handleWrite msg dropout).hist = s.hist := by
      rw [handleWrite, heq]
      simp [hist, hnil]
    have hopen : (s.handleWrite msg dropout).Open := by
      have htail : (s.handleWrite msg dropout).tail = s.tail := by
        rw [tail, hhist, handleWrite, heq]
        rfl
      refine ⟨?_, ?_, ?_, ?_⟩
      · rw [handleWrite, heq]
        exact h.fd
      · rw [hhist, handleWrite, heq]
        exact h.stores
      · rw [htail, hhist, handleWrite, heq]
        exact h.file
      · rw [htail, hhist, handleWrite, heq]
        exact h.writer
    refine ⟨.inl hopen, ?_, fun hret => ?_⟩
    · rw [heq, hnil]
      exact iff_of_false (show ¬ (0 : ℤ) = -1 by decide) (Nat.not_lt_zero _)
    · rw [heq] at hret
      exact absurd hret (show ¬ (0 : ℤ) = -1 by decide)
  | true =>
    rcases Nat.lt_or_ge s.buf.available (LogFileBuffer.messageBytes msg dropout).length with
      hover | hfits
    · rw [handleWrite_of_overflow hrun hover, LogFileBuffer.write_of_overflow hrun hover]
      exact ⟨.inl h, iff_of_true rfl hover, fun _ => rfl⟩
    · obtain ⟨hret, hopen⟩ := h.write hrun hfits
      rw [hret]
      exact ⟨.inl hopen, iff_of_false (by decide) (Nat.not_lt.mpr hfits),
        fun hret' => nomatch hret'⟩

theorem Inv.step {e : Event} (h : s.Inv) (ho : s.Orderly e) : (s.step min_available e).Inv := by
  rcases h with h | h
  · cases e with
    | write msg dropout => exact (h.write_step ho).1
    | stop =>
      rw [step_of_open h.fd]
      exact .inl h.stop
    | poll call_fsync =>
      rw [step_of_open h.fd]
      cases hw : s.writer with
      | idle => exact h.poll hw call_fsync
      | offered o snapshot => exact .inl h
      | written o snapshot n => exact .inl h
    | writeToFile n =>
      rw [step_of_open h.fd]
      cases hw : s.writer with
      | idle => exact .inl h
      | offered o snapshot =>
        dsimp only
        split
        · next hn => exact .inl (h.writeToFile hw hn)
        · exact .inl h
      | written o snapshot n => exact .inl h
    | mark =>
      rw [step_of_open h.fd]
      cases hw : s.writer with
      | idle => exact .inl h
      | offered o snapshot => exact .inl h
      | written o snapshot n =>
        dsimp only
        rw [handleMark_eq]
        split
        · next hcloses =>
          obtain rfl := hcloses.2.1
          refine .inr ⟨rfl, rfl, rfl, ?_⟩
          exact (h.close hw).mpr (ho o snapshot _ h.fd hw hcloses)
        · exact .inl (h.mark hw)
  · rw [step_of_closed h.fd]
    exact .inr h

theorem Open.nil_of_stopped {msg : List UInt8} {dropout : Option UInt16} (h : s.Open)
    (hrun : s.buf.should_run = false) (hc : Correct min_available s (.write msg dropout)) :
    LogFileBuffer.messageBytes msg dropout = [] := by
  have hcontents := hc.contents
  rw [step_of_open h.fd] at hcontents
  dsimp only at hcontents
  rw [handleWrite, LogFileBuffer.write_of_stopped msg dropout hrun] at hcontents
  change s.file ++ s.stillBuffered =
    (s.accepted ++ [LogFileBuffer.messageBytes msg dropout]).flatten at hcontents
  rw [h.contents, List.flatten_concat] at hcontents
  exact List.self_eq_append_right.mp hcontents

theorem Inv.correct_iff {e : Event} (h : s.Inv) : Correct min_available s e ↔ s.Orderly e := by
  constructor
  · intro hc
    rcases h with h | h
    · cases e with
      | write msg dropout =>
        intro _
        cases hrun : s.buf.should_run with
        | true => exact .inl rfl
        | false => exact .inr (h.nil_of_stopped hrun hc)
      | stop => trivial
      | poll call_fsync => trivial
      | writeToFile n => trivial
      | mark =>
        intro o snapshot n _ hw hcloses
        have hclosed := hc.closed
        rw [step_of_open h.fd, hw] at hclosed
        dsimp only at hclosed
        rw [handleMark_eq, if_pos hcloses] at hclosed
        obtain rfl := hcloses.2.1
        exact (h.close hw).mp (hclosed rfl)
    · cases e with
      | write msg dropout =>
        intro hfd
        exact absurd (hfd.symm.trans h.fd) Bool.true_eq_false.mp
      | mark =>
        intro o snapshot n hfd
        exact absurd (hfd.symm.trans h.fd) Bool.true_eq_false.mp
      | stop => trivial
      | poll call_fsync => trivial
      | writeToFile n => trivial
  · intro ho
    refine Inv.correct (h.step ho) ?_
    rintro msg dropout rfl hfd
    rcases h with h | h
    · exact (h.write_step ho).2
    · exact absurd (hfd.symm.trans h.fd) Bool.true_eq_false.mp

/-- The log after `start_log`. -/
def start (b : LogFileBuffer) : Log := ⟨b.startLog, .idle, [], []⟩

theorem start_inv {b : LogFileBuffer} (hpos : 0 < b.buffer_size) (hlt : b.buffer_size < 2 ^ 31) :
    (start b).Inv :=
  .inl ⟨rfl, ⟨hpos, hlt, Ring.holds_nil _ _, (Nat.zero_mod _).symm, Nat.zero_le _, Nat.zero_le _⟩,
    rfl, trivial⟩

/-- Every run of the logger and the thread is correct exactly if it is orderly. -/
theorem log_correct_iff (min_available : ℕ) (b : LogFileBuffer) (hpos : 0 < b.buffer_size)
    (hlt : b.buffer_size < 2 ^ 31) (es : List Event) :
    Trace.Always (step min_available) (Correct min_available) (start b) es ↔
      Trace.Always (step min_available) Orderly (start b) es :=
  Trace.always_iff_of_invariant (fun _ _ h => h.correct_iff) (fun _ _ h ho => h.step ho)
    (start_inv hpos hlt)

def missionBuffer : LogFileBuffer := ⟨300, false, fun _ => 0, 0, 0, 0, false⟩

/-- A message is written to the file in two parts, and the log is stopped. -/
def missionRun : List Event :=
  [.write [1, 2, 3] none, .poll false, .writeToFile 2, .mark, .stop, .poll false, .writeToFile 1,
    .mark]

/-- Another message comes while the first one is written, and then the log is stopped. -/
def lateRun : List Event :=
  [.write [1, 2, 3] none, .poll false, .write [4] none, .stop, .writeToFile 3, .mark]

/-- The file is closed with the message in it. -/
theorem log_correct_mission :
    Trace.Always (step 1) (Correct 1) (start missionBuffer) missionRun ∧
      (Trace.run (step 1) (start missionBuffer) missionRun).buf.fd = false ∧
      (Trace.run (step 1) (start missionBuffer) missionRun).file = [1, 2, 3] := by
  refine ⟨(log_correct_iff 1 missionBuffer (by decide) (by decide) missionRun).mpr ?_, ?_, ?_⟩
  · refine ⟨fun _ => .inl rfl, trivial, trivial, fun _ _ _ _ _ h => ?_, trivial, trivial, trivial,
      fun o snapshot n _ hw _ => ?_, trivial⟩
    · exact absurd h.1 (by decide +kernel)
    · obtain ⟨rfl, -, -⟩ := Writer.written.inj hw
      decide +kernel
  · decide +kernel
  · decide +kernel

/-- The second message is accepted, and is neither in the file nor in the buffer. -/
theorem late_message_lost :
    (Trace.run (step 1) (start missionBuffer) lateRun).accepted = [[1, 2, 3], [4]] ∧
      (Trace.run (step 1) (start missionBuffer) lateRun).buf.fd = false ∧
      (Trace.run (step 1) (start missionBuffer) lateRun).file = [1, 2, 3] ∧
      ¬ Trace.Always (step 1) (Correct 1) (start missionBuffer) lateRun := by
  have haccepted : (Trace.run (step 1) (start missionBuffer) lateRun).accepted =
      [[1, 2, 3], [4]] := by decide +kernel
  have hfd : (Trace.run (step 1) (start missionBuffer) lateRun).buf.fd = false := by decide +kernel
  have hfile : (Trace.run (step 1) (start missionBuffer) lateRun).file = [1, 2, 3] := by
    decide +kernel
  refine ⟨haccepted, hfd, hfile, fun h => ?_⟩
  have hclosed : (Trace.run (step 1) (start missionBuffer) lateRun).file =
      (Trace.run (step 1) (start missionBuffer) lateRun).accepted.flatten :=
    h.2.2.2.2.2.1.closed hfd
  rw [hfile, haccepted] at hclosed
  exact nomatch hclosed

end Log

end Logger
