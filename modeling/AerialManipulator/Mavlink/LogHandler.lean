/-
The handler of the MAVLink log messages (`mavlink_log_handler.cpp`).

A ground station asks for the list of the logs (`requestList`) or for a part of one of them
(`requestData`), erases all of them (`requestErase`) or says that it is done (`requestEnd`).
Nothing is answered there; the answers go out in the calls of `send`, as long as there is room
in the transmit buffer.

A request for the list scans the logs into a list file, one line a log, unless the handler takes
it for one that repeats an earlier request: then the list file is the earlier one.  A request for
data looks its line up, opens the log and keeps it open, for the next request for the same log.

`Disk` is what the file system answers during a call.  The width of a `long` is a parameter: the
position in an open file is one.
-/
import Mathlib.Algebra.Order.Ring.Int
import AerialManipulator.Lib.Trace

namespace LogHandler

structure LogEntry (P : Type*) where
  time_utc : UInt32
  size : UInt32
  filename : P
deriving DecidableEq

/-- A log that is open, and the position in it. -/
structure OpenFile (P : Type*) where
  path : P
  pos : ℕ
deriving DecidableEq

/-- The file system during a call: if the list file can be opened, the files that can be, each
with its content, and the positions that can be sought.  A position in a file fits a `long`. -/
structure Disk (long : ℕ) (P : Type*) where
  list_readable : Bool
  content : P → Option (List UInt8)
  seekable : P → ℕ → Bool
  content_fits : ∀ path bytes, content path = some bytes → bytes.length < 2 ^ (long - 1)

inductive LogHandlerState
  | Inactive
  | Idle
  | Listing
  | SendingData
deriving DecidableEq

/-- The handler.  The empty file name is `none`; `log_data` is the content of the list file, which
is empty when there is no such file. -/
structure Handler (P : Type*) where
  current_status : LogHandlerState
  next_entry : ℤ
  last_entry : ℤ
  log_count : ℤ
  current_log_index : UInt16
  current_log_size : UInt32
  current_log_data_offset : UInt32
  current_log_data_remaining : UInt32
  current_log_filep : Option (OpenFile P)
  current_log_filename : Option P
  log_data : List (LogEntry P)
deriving DecidableEq

structure LogEntryMsg where
  id : UInt16
  num_logs : UInt16
  last_log_num : UInt16
  time_utc : UInt32
  size : UInt32
deriving DecidableEq

/-- LOG_DATA; the bytes after the first `count` are zero. -/
structure LogDataMsg where
  id : UInt16
  ofs : UInt32
  data : List UInt8
deriving DecidableEq

def LogEntryMsg.LEN : ℕ := 14

def LogDataMsg.LEN : ℕ := 97

def DATA_LEN : ℕ := 90

def MAX_BYTES_SEND : ℕ := 256 * 1024

/-! ### The file system -/

section Disk

variable {long : ℕ} {P : Type*} (d : Disk long P)

/-- A file system without a file. -/
instance : Inhabited (Disk long P) := ⟨⟨false, fun _ => none, fun _ _ => false, nofun⟩⟩

/-- `_current_log_data_offset - ftell(_current_log_filep)`, an unsigned difference that is put
into a `long`. -/
def seekOffset (long : ℕ) (offset : UInt32) (pos : ℕ) : ℤ :=
  ((offset.toNat : ℤ) - pos).bmod (2 ^ long)

/-- `fseek` with `SEEK_CUR`. -/
def Disk.fseek (file : OpenFile P) (offset : ℤ) : Option (OpenFile P) :=
  let pos := file.pos + offset
  if 0 ≤ pos ∧ pos < 2 ^ (long - 1) ∧ d.seekable file.path pos.toNat then
    some { file with pos := pos.toNat }
  else none

/-- The bytes at the position, as many as there are, and the file after them. -/
def Disk.fread (file : OpenFile P) (len : ℕ) : List UInt8 × OpenFile P :=
  let data := (((d.content file.path).getD []).drop file.pos).take len
  (data, { file with pos := file.pos + data.length })

end Disk

/-! ### The requests -/

namespace Handler

variable {long : ℕ} {P : Type*} (s : Handler P) (d : Disk long P)

/-- The handler at the start.  The file name is the only member without an initial value. -/
def powerOn (filename : Option P) : Handler P where
  current_status := .Inactive
  next_entry := 0
  last_entry := 0
  log_count := 0
  current_log_index := 65535
  current_log_size := 0
  current_log_data_offset := 0
  current_log_data_remaining := 0
  current_log_filep := none
  current_log_filename := filename
  log_data := []

def resetListHelper : Handler P :=
  { s with
    next_entry := 0
    last_entry := 0
    log_count := 0
    current_log_index := 65535
    current_log_size := 0
    current_log_data_offset := 0
    current_log_data_remaining := 0
    current_log_filep := none }

/-- The logs are scanned into the list file; `logs` are those that are found, or none if the list
file cannot be made. -/
def initListHelper (logs : List (LogEntry P)) : Handler P :=
  { s with
    current_log_filename := none
    log_count := s.log_count + logs.length
    log_data := logs }

def closeAndUnlinkFiles : Handler P :=
  let s := if s.current_log_filep.isSome then s.resetListHelper else s
  { s with log_data := [] }

def getEntry (idx : ℤ) : Option (LogEntry P) :=
  if d.list_readable ∧ 0 ≤ idx then s.log_data[idx.toNat]? else none

/-- A request that is active is repeated, or there is a new one. -/
def checkRequest (start end_ : UInt16) : Handler P :=
  if s.current_status ≠ .Inactive then
    if (end_.toNat : ℤ) - start.toNat > s.log_count then
      { s with current_status := .Inactive }.closeAndUnlinkFiles
    else { s with current_status := .Idle }
  else s

def prepareRequest (logs : List (LogEntry P)) : Handler P :=
  if s.current_status = .Inactive then
    { s.resetListHelper.initListHelper logs with current_status := .Idle }
  else s

def clampRange (start end_ : UInt16) : Handler P :=
  if s.log_count ≠ 0 then
    { s with
      next_entry := if (start.toNat : ℤ) < s.log_count then start.toNat else s.log_count - 1
      last_entry := if (end_.toNat : ℤ) < s.log_count then end_.toNat else s.log_count - 1 }
  else s

def requestList (start end_ : UInt16) (logs : List (LogEntry P)) : Handler P :=
  { ((s.checkRequest start end_).prepareRequest logs).clampRange start end_ with
    current_status := .Listing }

def openForTransmit : Handler P :=
  { s with
    current_log_filep := s.current_log_filename.bind fun path =>
      (d.content path).map fun _ => ⟨path, 0⟩ }

/-- The part of the log that is asked for is set, and streaming enabled. -/
def startSending (ofs count : UInt32) : Handler P :=
  let remaining := if ofs ≥ s.current_log_size then 0 else s.current_log_size - ofs
  { s with
    current_log_data_offset := ofs
    current_log_data_remaining := if remaining > count then count else remaining
    current_status := .SendingData }

def initDataset (id : UInt16) : Handler P :=
  { s with
    current_status := .Idle
    current_log_filename := none
    current_log_index := id }

def setEntry (entry : LogEntry P) : Handler P :=
  { s with
    current_log_size := entry.size
    current_log_filename := some entry.filename }

def requestData (id : UInt16) (ofs count : UInt32) : Handler P :=
  if s.current_status = .Inactive then s
  else if (id.toNat : ℤ) ≥ s.log_count then s
  else if s.current_log_index ≠ id then
    let s := s.initDataset id
    match s.getEntry d id.toNat with
    | none => { s with current_log_size := 0 }
    | some entry => ((s.setEntry entry).openForTransmit d).startSending ofs count
  else { s with current_status := .Idle }.startSending ofs count

def requestErase : Handler P :=
  { s with current_status := .Inactive }.closeAndUnlinkFiles

def requestEnd : Handler P :=
  { s with current_status := .Inactive }.closeAndUnlinkFiles

/-! ### The answers -/

/-- One LOG_ENTRY, for the line the cursor is at.  A line that cannot be read has no size. -/
def sendListing : LogEntryMsg × Handler P :=
  let entry := s.getEntry d s.next_entry
  let response : LogEntryMsg :=
    { id := UInt16.ofInt s.next_entry
      num_logs := UInt16.ofInt s.log_count
      last_log_num := UInt16.ofInt s.last_entry
      time_utc := (entry.map LogEntry.time_utc).getD 0
      size := (entry.map LogEntry.size).getD 0 }
  (response,
    if s.next_entry = s.last_entry then { s with current_status := .Idle }
    else { s with next_entry := s.next_entry + 1 })

def getLogData (len : ℕ) : List UInt8 × Handler P :=
  match s.current_log_filename, s.current_log_filep with
  | some _, some file =>
    let offset := seekOffset long s.current_log_data_offset file.pos
    match if offset ≠ 0 then d.fseek file offset else some file with
    | none => ([], { s with current_log_filep := none })
    | some file =>
      let (data, file) := d.fread file len
      (data, { s with current_log_filep := some file })
  | _, _ => ([], s)

def len : ℕ :=
  if s.current_log_data_remaining.toNat > DATA_LEN then DATA_LEN
  else s.current_log_data_remaining.toNat

def sendData : LogDataMsg × Handler P :=
  let (data, s) := s.getLogData d s.len
  let response : LogDataMsg :=
    { id := s.current_log_index, ofs := s.current_log_data_offset, data := data }
  let read_size := UInt32.ofNat data.length
  let s := { s with
    current_log_data_offset := s.current_log_data_offset + read_size
    current_log_data_remaining := s.current_log_data_remaining - read_size }
  (response,
    if data.length < DATA_LEN ∨ s.current_log_data_remaining = 0 then
      { s with current_status := .Idle }
    else s)

/-- Entries as long as there is room for one; `room` is the number of times that there is. -/
def sendEntries (d : Disk long P) : ℕ → ℕ → Handler P → List LogEntryMsg × ℕ × Handler P
  | 0, sent, s => ([], sent, s)
  | room + 1, sent, s =>
    if s.current_status = .Listing ∧ sent < MAX_BYTES_SEND then
      let (response, s) := s.sendListing d
      let (responses, sent, s) := sendEntries d room (sent + LogEntryMsg.LEN) s
      (response :: responses, sent, s)
    else ([], sent, s)

def sendDatas (d : Disk long P) : ℕ → ℕ → Handler P → List LogDataMsg × Handler P
  | 0, _, s => ([], s)
  | room + 1, sent, s =>
    if s.current_status = .SendingData ∧ sent < MAX_BYTES_SEND then
      let (response, s) := s.sendData d
      let (responses, s) := sendDatas d room (sent + LogDataMsg.LEN) s
      (response :: responses, s)
    else ([], s)

end Handler

/-- A call of `send`: the file system, and the room there is for entries and for data. -/
structure Send (long : ℕ) (P : Type*) where
  disk : Disk long P
  entry_room : ℕ
  data_room : ℕ

/-- What some calls of `send` have sent, and the handler after them. -/
structure Sent (P : Type*) where
  entries : List LogEntryMsg
  datas : List LogDataMsg
  handler : Handler P

namespace Handler

variable {long : ℕ} {P : Type*}

def send (s : Handler P) (call : Send long P) : Sent P :=
  let (entries, sent, s) := sendEntries call.disk call.entry_room 0 s
  let (datas, s) := sendDatas call.disk call.data_room sent s
  ⟨entries, datas, s⟩

/-- The calls of `send` while no request arrives. -/
def sends (s : Handler P) : List (Send long P) → Sent P
  | [] => ⟨[], [], s⟩
  | call :: calls =>
    let first := s.send call
    let rest := first.handler.sends calls
    ⟨first.entries ++ rest.entries, first.datas ++ rest.datas, rest.handler⟩

end Handler

/-! ### Histories -/

/-- A message of the ground station or a call of `send`, with what the file system answers to
it. -/
inductive Event (long : ℕ) (P : Type*)
  | requestList (start end_ : UInt16) (logs : List (LogEntry P))
  | requestData (disk : Disk long P) (id : UInt16) (ofs count : UInt32)
  | requestErase
  | requestEnd
  | send (call : Send long P)

variable {long : ℕ} {P : Type*}

def Handler.step (s : Handler P) : Event long P → Handler P
  | .requestList start end_ logs => s.requestList start end_ logs
  | .requestData disk id ofs count => s.requestData disk id ofs count
  | .requestErase => s.requestErase
  | .requestEnd => s.requestEnd
  | .send call => (s.send call).handler

def after (filename : Option P) (events : List (Event long P)) : Handler P :=
  Trace.run Handler.step (Handler.powerOn filename) events

/-! ### The invariant -/

/-- What the members say of each other, while there is a list: how many logs are in it, that
the cursor is at the start of an empty one, and that the name and the size of the current log are
those of its line.  The open file is the one with that name. -/
structure Handler.Inv (long : ℕ) (s : Handler P) : Prop where
  count : s.current_status ≠ .Inactive → s.log_count = s.log_data.length
  cursor : s.current_status ≠ .Inactive → s.log_count = 0 → s.next_entry = 0 ∧ s.last_entry = 0
  entry : s.current_status ≠ .Inactive → ∀ path, s.current_log_filename = some path →
    ∃ entry, s.log_data[s.current_log_index.toNat]? = some entry ∧ entry.filename = path ∧
      entry.size = s.current_log_size
  file : ∀ path file, s.current_log_filename = some path → s.current_log_filep = some file →
    file.path = path
  pos : ∀ file, s.current_log_filep = some file → file.pos < 2 ^ (long - 1)

namespace Handler

variable {s : Handler P} {d : Disk long P}

theorem powerOn_inv (filename : Option P) : (powerOn filename).Inv long where
  count h := absurd rfl h
  cursor h := absurd rfl h
  entry h := absurd rfl h
  file _ _ _ h := absurd h nofun
  pos _ h := absurd h nofun

theorem inv_of_inactive (hstatus : s.current_status = .Inactive)
    (hfile : s.current_log_filep = none) : s.Inv long where
  count h := absurd hstatus h
  cursor h := absurd hstatus h
  entry h := absurd hstatus h
  file _ _ _ h := absurd (hfile ▸ h) nofun
  pos _ h := absurd (hfile ▸ h) nofun

theorem closeAndUnlinkFiles_status : s.closeAndUnlinkFiles.current_status = s.current_status := by
  unfold closeAndUnlinkFiles
  split_ifs <;> rfl

theorem closeAndUnlinkFiles_filep : s.closeAndUnlinkFiles.current_log_filep = none := by
  unfold closeAndUnlinkFiles
  split_ifs with hopen
  · rfl
  · exact Option.not_isSome_iff_eq_none.mp hopen

theorem close_inv : ({ s with current_status := .Inactive }.closeAndUnlinkFiles).Inv long :=
  inv_of_inactive closeAndUnlinkFiles_status closeAndUnlinkFiles_filep

theorem Inv.withStatus (h : s.Inv long) (hstatus : s.current_status ≠ .Inactive)
    (status : LogHandlerState) : Inv long { s with current_status := status } where
  count _ := h.count hstatus
  cursor _ := h.cursor hstatus
  entry _ := h.entry hstatus
  file := h.file
  pos := h.pos

theorem Inv.checkRequest (h : s.Inv long) (start end_ : UInt16) :
    (s.checkRequest start end_).Inv long := by
  unfold Handler.checkRequest
  split_ifs with hactive hnew
  · exact close_inv
  · exact h.withStatus hactive .Idle
  · exact h

theorem Inv.prepareRequest (h : s.Inv long) (logs : List (LogEntry P)) :
    (s.prepareRequest logs).Inv long ∧ (s.prepareRequest logs).current_status ≠ .Inactive := by
  unfold Handler.prepareRequest
  split_ifs with hinactive
  · refine ⟨⟨fun _ => Int.zero_add _, fun _ _ => ⟨rfl, rfl⟩, fun _ _ h => absurd h nofun,
      fun _ _ _ h => absurd h nofun, fun _ h => absurd h nofun⟩, nofun⟩
  · exact ⟨h, hinactive⟩

theorem Inv.clampRange (h : s.Inv long) (start end_ : UInt16) :
    (s.clampRange start end_).Inv long := by
  unfold Handler.clampRange
  by_cases hcount : s.log_count ≠ 0
  · rw [if_pos hcount]
    exact ⟨h.count, fun _ hzero => absurd hzero hcount, h.entry, h.file, h.pos⟩
  · rw [if_neg hcount]
    exact h

theorem clampRange_status (start end_ : UInt16) :
    (s.clampRange start end_).current_status = s.current_status := by
  unfold clampRange
  split_ifs <;> rfl

theorem Inv.requestList (h : s.Inv long) (start end_ : UInt16) (logs : List (LogEntry P)) :
    (s.requestList start end_ logs).Inv long := by
  obtain ⟨hprepare, hstatus⟩ := (h.checkRequest start end_).prepareRequest logs
  refine (hprepare.clampRange start end_).withStatus ?_ .Listing
  rw [clampRange_status]
  exact hstatus

/-! #### Requests for data -/

theorem getEntry_eq_some {idx : ℕ} {entry : LogEntry P} (h : s.getEntry d idx = some entry) :
    s.log_data[idx]? = some entry := by
  unfold getEntry at h
  split_ifs at h with hreadable
  exact h

theorem requestData_of_ne {id : UInt16} {ofs count : UInt32}
    (hstatus : s.current_status ≠ .Inactive) (hid : (id.toNat : ℤ) < s.log_count)
    (hindex : s.current_log_index ≠ id) :
    s.requestData d id ofs count =
      match s.getEntry d id.toNat with
      | none => { s.initDataset id with current_log_size := 0 }
      | some entry =>
        (((s.initDataset id).setEntry entry).openForTransmit d).startSending ofs count := by
  unfold requestData
  rw [if_neg hstatus, if_neg (not_le.mpr hid), if_pos hindex]
  rfl

theorem requestData_of_eq {id : UInt16} {ofs count : UInt32}
    (hstatus : s.current_status ≠ .Inactive) (hid : (id.toNat : ℤ) < s.log_count)
    (hindex : s.current_log_index = id) :
    s.requestData d id ofs count = { s with current_status := .Idle }.startSending ofs count := by
  unfold requestData
  rw [if_neg hstatus, if_neg (not_le.mpr hid), if_neg (not_not.mpr hindex)]

theorem openForTransmit_filep {file : OpenFile P}
    (h : (s.openForTransmit d).current_log_filep = some file) :
    s.current_log_filename = some file.path ∧ file.pos = 0 := by
  obtain ⟨path, hpath, hopen⟩ := Option.bind_eq_some_iff.mp h
  obtain ⟨_, -, rfl⟩ := Option.map_eq_some_iff.mp hopen
  exact ⟨hpath, rfl⟩

theorem Inv.startSending (h : s.Inv long) (hstatus : s.current_status ≠ .Inactive)
    (ofs count : UInt32) : (s.startSending ofs count).Inv long where
  count _ := h.count hstatus
  cursor _ := h.cursor hstatus
  entry _ := h.entry hstatus
  file := h.file
  pos := h.pos

theorem Inv.open (h : s.Inv long) (hstatus : s.current_status ≠ .Inactive) {id : UInt16}
    {entry : LogEntry P} (hentry : s.getEntry d id.toNat = some entry) :
    (((s.initDataset id).setEntry entry).openForTransmit d).Inv long where
  count _ := h.count hstatus
  cursor _ := h.cursor hstatus
  entry _ _ hpath := ⟨entry, getEntry_eq_some hentry, Option.some.inj hpath, rfl⟩
  file _ _ hpath hfile := Option.some.inj ((openForTransmit_filep hfile).1.symm.trans hpath)
  pos _ hfile := (openForTransmit_filep hfile).2 ▸ Nat.two_pow_pos _

theorem Inv.requestData (h : s.Inv long) (d : Disk long P) (id : UInt16) (ofs count : UInt32) :
    (s.requestData d id ofs count).Inv long := by
  by_cases hstatus : s.current_status = .Inactive
  · unfold Handler.requestData
    rwa [if_pos hstatus]
  by_cases hid : (id.toNat : ℤ) ≥ s.log_count
  · unfold Handler.requestData
    rwa [if_neg hstatus, if_pos hid]
  by_cases hindex : s.current_log_index = id
  · rw [requestData_of_eq hstatus (not_le.mp hid) hindex]
    exact (h.withStatus hstatus .Idle).startSending nofun ofs count
  · rw [requestData_of_ne hstatus (not_le.mp hid) hindex]
    cases hentry : s.getEntry d id.toNat with
    | none =>
      exact ⟨fun _ => h.count hstatus, fun _ => h.cursor hstatus, fun _ _ h => absurd h nofun,
        fun _ _ h => absurd h nofun, h.pos⟩
    | some entry => exact (h.open hstatus hentry).startSending nofun ofs count

/-! #### Calls of `send` -/

theorem sendListing_eq : ∃ next status, (s.sendListing d).2 =
    { s with next_entry := next, current_status := status } ∧
    (status = .Idle ∧ next = s.next_entry ∨
      s.next_entry ≠ s.last_entry ∧ status = s.current_status) := by
  unfold sendListing
  dsimp only
  split_ifs with hlast
  · exact ⟨s.next_entry, .Idle, rfl, .inl ⟨rfl, rfl⟩⟩
  · exact ⟨s.next_entry + 1, s.current_status, rfl, .inr ⟨hlast, rfl⟩⟩

theorem Inv.sendListing (h : s.Inv long) (d : Disk long P)
    (hstatus : s.current_status ≠ .Inactive) : (s.sendListing d).2.Inv long := by
  obtain ⟨next, status, heq, hcases⟩ := @sendListing_eq _ _ s d
  rw [heq]
  refine ⟨fun _ => h.count hstatus, fun _ hzero => ?_, fun _ => h.entry hstatus, h.file, h.pos⟩
  obtain ⟨hnext, hlast⟩ := h.cursor hstatus hzero
  rcases hcases with ⟨-, rfl⟩ | ⟨hne, -⟩
  · exact ⟨hnext, hlast⟩
  · exact absurd (hnext.trans hlast.symm) hne

theorem fread_pos {file : OpenFile P} (hpos : file.pos < 2 ^ (long - 1)) (len : ℕ) :
    (d.fread file len).2.pos < 2 ^ (long - 1) := by
  unfold Disk.fread
  dsimp only
  rw [List.length_take, List.length_drop]
  cases hcontent : d.content file.path with
  | none => simpa using hpos
  | some bytes =>
    have hfits := d.content_fits file.path bytes hcontent
    rw [Option.getD_some]
    omega

theorem fseek_pos {file file' : OpenFile P} {offset : ℤ} (h : d.fseek file offset = some file') :
    file'.path = file.path ∧ file'.pos < 2 ^ (long - 1) := by
  unfold Disk.fseek at h
  dsimp only at h
  split_ifs at h with hpos
  cases h
  refine ⟨rfl, ?_⟩
  have hlt := (Int.toNat_lt hpos.1).mpr (by exact_mod_cast hpos.2.1)
  exact hlt

theorem getLogData_eq (len : ℕ) : ∃ filep, (s.getLogData d len).2 =
    { s with current_log_filep := filep } ∧ ∀ file, filep = some file →
      ∃ file', s.current_log_filep = some file' ∧ file.path = file'.path ∧
        (file'.pos < 2 ^ (long - 1) → file.pos < 2 ^ (long - 1)) := by
  have hkeep : ∀ file, s.current_log_filep = some file →
      ∃ file', s.current_log_filep = some file' ∧ file.path = file'.path ∧
        (file'.pos < 2 ^ (long - 1) → file.pos < 2 ^ (long - 1)) :=
    fun file hfile => ⟨file, hfile, rfl, id⟩
  unfold getLogData
  split
  · rename_i path file hname hfile
    dsimp only
    split
    · exact ⟨none, rfl, nofun⟩
    · rename_i file' hseek
      have hpos : file'.path = file.path ∧
          (file.pos < 2 ^ (long - 1) → file'.pos < 2 ^ (long - 1)) := by
        split_ifs at hseek with hoffset
        · exact ⟨(fseek_pos hseek).1, fun _ => (fseek_pos hseek).2⟩
        · cases hseek
          exact ⟨rfl, id⟩
      refine ⟨some (d.fread file' len).2, rfl, fun file'' hread => ⟨file, hfile, ?_⟩⟩
      cases hread
      exact ⟨hpos.1, fun hlt => fread_pos (hpos.2 hlt) len⟩
  · exact ⟨s.current_log_filep, rfl, hkeep⟩

theorem sendData_eq : ∃ filep offset remaining status, (s.sendData d).2 =
    { s with
      current_status := status
      current_log_data_offset := offset
      current_log_data_remaining := remaining
      current_log_filep := filep } ∧
    (status = .Idle ∨ status = s.current_status) ∧ ∀ file, filep = some file →
      ∃ file', s.current_log_filep = some file' ∧ file.path = file'.path ∧
        (file'.pos < 2 ^ (long - 1) → file.pos < 2 ^ (long - 1)) := by
  unfold sendData
  dsimp only
  obtain ⟨filep, heq, hfile⟩ := @getLogData_eq _ _ s d s.len
  rw [heq]
  split_ifs
  · exact ⟨filep, _, _, .Idle, rfl, .inl rfl, hfile⟩
  · exact ⟨filep, _, _, s.current_status, rfl, .inr rfl, hfile⟩

theorem Inv.sendData (h : s.Inv long) (d : Disk long P)
    (hstatus : s.current_status ≠ .Inactive) : (s.sendData d).2.Inv long := by
  obtain ⟨filep, offset, remaining, status, heq, -, hfile⟩ := @sendData_eq _ _ s d
  rw [heq]
  refine ⟨fun _ => h.count hstatus, fun _ => h.cursor hstatus, fun _ => h.entry hstatus,
    fun path file hpath hopen => ?_, fun file hopen => ?_⟩
  · obtain ⟨file', hopen', hsame, -⟩ := hfile file hopen
    rw [hsame]
    exact h.file path file' hpath hopen'
  · obtain ⟨file', hopen', -, hpos⟩ := hfile file hopen
    exact hpos (h.pos file' hopen')

theorem Inv.sendEntries (d : Disk long P) (room : ℕ) : ∀ {s : Handler P} {sent : ℕ}, s.Inv long →
    (sendEntries d room sent s).2.2.Inv long := by
  induction room with
  | zero => exact id
  | succ room ih =>
    intro s sent h
    unfold Handler.sendEntries
    split_ifs with hlisting
    · exact ih (h.sendListing d (hlisting.1 ▸ nofun))
    · exact h

theorem Inv.sendDatas (d : Disk long P) (room : ℕ) : ∀ {s : Handler P} {sent : ℕ}, s.Inv long →
    (sendDatas d room sent s).2.Inv long := by
  induction room with
  | zero => exact id
  | succ room ih =>
    intro s sent h
    unfold Handler.sendDatas
    split_ifs with hsending
    · exact ih (h.sendData d (hsending.1 ▸ nofun))
    · exact h

theorem Inv.step (h : s.Inv long) (e : Event long P) : (s.step e).Inv long := by
  cases e with
  | requestList start end_ logs => exact h.requestList start end_ logs
  | requestData disk id ofs count => exact h.requestData disk id ofs count
  | requestErase => exact close_inv
  | requestEnd => exact close_inv
  | send call => exact (h.sendEntries call.disk call.entry_room).sendDatas call.disk call.data_room

end Handler

theorem after_inv (filename : Option P) (events : List (Event long P)) :
    (after filename events).Inv long :=
  Trace.run_of_invariant (I := Handler.Inv long) (fun _ e h _ => h.step e)
    (Handler.powerOn_inv filename) (Trace.always_true _ events)

end LogHandler
