/-
The file server on MAVLink: `MavlinkFTP`.

A ground station sends requests with a number, an operation code and up to 239 bytes of data;
the server answers each of them with an acknowledgement (`Ack`) or a refusal (`Nak`), whose
number is the next one.  There is one session, which is a file that is open.  A burst is sent
by the periodic `send`, many packets for one request.

The file system is a parameter, and so is what a line of the log does to `errno`.  `Io` is what
comes from outside otherwise: the time, whether memory can be allocated, what `errno` is when the
server is called, how much can be sent, and what is found in memory that is not initialised.
-/
import AerialManipulator.Lib.CString
import AerialManipulator.Lib.FileSystem
import AerialManipulator.Lib.Trace
import Mathlib.Data.Nat.Digits.Defs

open FileSystem

namespace Ftp

structure Peer where
  sysid : UInt8
  compid : UInt8
  deriving DecidableEq

inductive Opcode
  | CmdNone
  | CmdTerminateSession
  | CmdResetSessions
  | CmdListDirectory
  | CmdOpenFileRO
  | CmdReadFile
  | CmdCreateFile
  | CmdWriteFile
  | CmdRemoveFile
  | CmdCreateDirectory
  | CmdRemoveDirectory
  | CmdOpenFileWO
  | CmdTruncateFile
  | CmdRename
  | CmdCalcFileCRC32
  | CmdBurstReadFile
  | RspAck
  | RspNak
  | other (opcode : UInt8)
  deriving DecidableEq

/-- `ErrorCode`, but for `kErrNone`. -/
inductive ErrorCode
  | Fail
  | FailErrno
  | InvalidDataSize
  | InvalidSession
  | NoSessionsAvailable
  | EOF
  | UnknownCommand
  | FailFileExists
  | FailFileProtected
  | FileNotFound
  deriving DecidableEq

def ErrorCode.code : ErrorCode → UInt8
  | Fail => 1
  | FailErrno => 2
  | InvalidDataSize => 3
  | InvalidSession => 4
  | NoSessionsAvailable => 5
  | EOF => 6
  | UnknownCommand => 7
  | FailFileExists => 8
  | FailFileProtected => 9
  | FileNotFound => 10

/-- `kMaxDataLength`: a message has 251 bytes, 12 of which are the header. -/
def kMaxDataLength : ℕ := 239

def workBuffer1Len : ℕ := kMaxDataLength

def workBuffer2Len : ℕ := 256

/-- `PayloadHeader` of a request; `size` may be more than there is room for, and behind the data
`data` is what else the memory holds. -/
structure Request where
  seq_number : UInt16
  session : UInt8
  opcode : Opcode
  size : UInt8
  burst_complete : UInt8
  offset : UInt32
  data : ℕ → UInt8

def Request.bytes (r : Request) (n : ℕ) : List UInt8 := (List.range n).map r.data

/-- A message of the server; `data` are the first `size` bytes, what is behind them does not
count. -/
structure Reply where
  target : Peer
  seq_number : UInt16
  session : UInt8
  opcode : Opcode
  req_opcode : Opcode
  burst_complete : UInt8
  offset : UInt32
  data : List UInt8
  deriving DecidableEq

structure SessionInfo where
  fd : ℤ
  file_size : UInt32
  stream_download : Bool
  stream_offset : UInt32
  stream_seq_number : UInt16
  stream_target : Peer
  stream_chunk_transmitted : UInt32

/-- The server; `last_reply` is there if `_last_reply_valid` says so. -/
structure Server (φ : Type) where
  disk : Disk φ
  session_info : SessionInfo
  work_buffer1 : Bool
  work_buffer2 : Bool
  last_work_buffer_access : UInt64
  last_reply : Option Reply

/-- What a call of the server gets from outside. -/
structure Io where
  now : UInt64
  alloc1 : Bool
  alloc2 : Bool
  errno : Errno
  free_tx_buf : ℕ
  junk : UInt16 → UInt8

/-- The system that the server runs on: whether it is `__PX4_NUTTX`, the address, the directory
that is put before every path, the calls, and the memory behind the first work buffer up to a zero
byte. -/
structure Host (φ : Type) where
  nuttx : Bool
  own : Peer
  root_dir : Path
  root_lt : root_dir.length < workBuffer1Len
  sys : Posix φ
  behind : Path
  crc32part : List UInt8 → UInt32 → UInt32
  /-- How many blocks `_workCalcFileCRC32` may read until it counts as not coming to an end. -/
  blocks : ℕ

/-- The answer of a handler: the session and the data of the acknowledgement. -/
structure Ack where
  session : UInt8
  data : List UInt8

/-- Where `_data_as_cstring` puts a zero byte. -/
def Request.terminator (r : Request) : ℕ :=
  if r.size.toNat < kMaxDataLength then r.size.toNat else kMaxDataLength - 1

/-- The memory at the data after `_data_as_cstring`. -/
def Request.cstring (r : Request) (i : ℕ) : UInt8 := if i = r.terminator then 0 else r.data i

/-- The string that `_data_as_cstring` gives. -/
def Request.dataAsCstring (r : Request) : List UInt8 :=
  (r.bytes (min r.size.toNat (kMaxDataLength - 1))).takeWhile (· ≠ 0)

/-- The bytes of a number of 32 bits, in the order of the memory. -/
def bytes32 (x : UInt32) : List UInt8 :=
  [x.toUInt8, (x >>> 8).toUInt8, (x >>> 16).toUInt8, (x >>> 24).toUInt8]

/-! ### Handlers that do without the session -/

section Handlers

variable {φ : Type} (h : Host φ)

/-- What such a handler does: calls of the file system, and the data of the answer. -/
abbrev Work (φ α : Type) := ExceptT ErrorCode (StateM (Disk φ)) α

/-- `return kErrFailErrno` if a call fails. -/
def orFail {α : Type} (x : StateM (Disk φ) (Option α)) : Work φ α := do
  match ← x with
  | some a => return a
  | none => throw .FailErrno

def failWith {α : Type} (e : Errno) : Work φ α := do
  (setErrno e : StateM (Disk φ) Unit)
  throw .FailErrno

def Host.path (len : ℕ) (text : List UInt8) : Path := (h.root_dir ++ text).take (len - 1)

/-- The path that a request is about, for the handlers that see to its termination. -/
def Host.requestPath (r : Request) : Path := h.path workBuffer1Len r.dataAsCstring

/-- The path in `_workOpen`, which does not: one that fills the work buffer goes on behind it. -/
def Host.openPath (r : Request) : Path :=
  if h.root_dir.length + r.dataAsCstring.length < workBuffer1Len then h.root_dir ++ r.dataAsCstring
  else (h.root_dir ++ r.dataAsCstring).take workBuffer1Len ++ h.behind

def workRemoveFile (r : Request) : Work φ (List UInt8) := do
  let path := h.requestPath r
  orFail (perform (.unlink path) (h.sys.unlink path))
  return []

def workRemoveDirectory (r : Request) : Work φ (List UInt8) := do
  let path := h.requestPath r
  orFail (perform (.rmdir path) (h.sys.rmdir path))
  return []

def workCreateDirectory (r : Request) : Work φ (List UInt8) := do
  let path := h.requestPath r
  orFail (perform (.mkdir path) (h.sys.mkdir path))
  return []

def Host.newPathText (r : Request) : List UInt8 :=
  CString.strncpy r.cstring (r.dataAsCstring.length + 1) (workBuffer2Len - h.root_dir.length)

/-- `_workRename`: two paths, one behind the other. -/
def workRename (r : Request) : Work φ (List UInt8) := do
  let old := r.dataAsCstring
  if old.length = r.size.toNat then failWith EINVAL
  let path := h.path workBuffer1Len old
  let newPath := h.path workBuffer2Len (h.newPathText r)
  orFail (perform (.rename path newPath) (h.sys.rename path newPath))
  return []

/-- The loop of `_copy_file`: what is left to copy and the error, which is looked at after the line
of the log. -/
def copyLoop (src dst : ℤ) : ℕ → ℕ → StateM (Disk φ) (ℕ × Errno)
  | 0, length => return (length, 0)
  | fuel + 1, length => do
    if length = 0 then return (0, 0)
    let blen := min length workBuffer2Len
    match ← perform (.read src blen) (h.sys.read src blen) with
    | none =>
      logLine h.sys
      return (length, (← get).errno)
    | some data =>
      if data.length = 0 then return (length, 0)
      match ← perform (.write dst data) (h.sys.write dst data) with
      | none =>
        logLine h.sys
        return (length, (← get).errno)
      | some n =>
        if n ≠ data.length then
          logLine h.sys
          return (length, (← get).errno)
        copyLoop src dst fuel (length - n)

/-- `_copy_file`: whether it is successful. -/
def copyFile (src_path dst_path : Path) (length : ℕ) : StateM (Disk φ) Bool := do
  match ← perform (.openFile src_path ⟨true, false, false⟩)
      (h.sys.openFile src_path ⟨true, false, false⟩) with
  | none => return false
  | some src =>
    match ← perform (.openFile dst_path ⟨false, true, true⟩)
        (h.sys.openFile dst_path ⟨false, true, true⟩) with
    | none =>
      let op_errno := (← get).errno
      let _ ← perform (.close src) (h.sys.close src)
      setErrno op_errno
      return false
    | some dst =>
      let (left, op_errno) ← copyLoop h src dst length length
      let _ ← perform (.close src) (h.sys.close src)
      let _ ← perform (.close dst) (h.sys.close dst)
      setErrno op_errno
      return left = 0

/-- `PX4_STORAGEDIR"/.trunc.tmp"`. -/
def tempFile : Path := "/fs/microsd/.trunc.tmp".toUTF8.toList

def openForWriting (path : Path) (trunc : Bool) : Work φ ℕ :=
  orFail (perform (.openFile path ⟨false, false, trunc⟩)
    (h.sys.openFile path ⟨false, false, trunc⟩))

/-- `_workTruncateFile` where there is no `truncate`. -/
def truncateByCopy (path : Path) (length : ℕ) : Work φ Unit := do
  let st ← orFail (perform (.stat path) (h.sys.stat path))
  if st.regular = false then failWith EISDIR
  if st.writable = false then failWith EROFS
  if length = st.size then return
  else if length = 0 then
    let fd ← openForWriting h path true
    let _ ← perform (.close fd) (h.sys.close fd)
  else if length > st.size then
    let fd ← openForWriting h path false
    match ← perform (.lseek fd (length - 1)) (h.sys.lseek fd (length - 1)) with
    | none =>
      let _ ← perform (.close fd) (h.sys.close fd)
      throw .FailErrno
    | some () =>
      let written ← perform (.write fd [0]) (h.sys.write fd [0])
      let _ ← perform (.close fd) (h.sys.close fd)
      if written ≠ some 1 then throw .FailErrno
  else
    if ! (← copyFile h path tempFile length) then throw .FailErrno
    if ! (← copyFile h tempFile path length) then throw .FailErrno
    orFail (perform (.unlink tempFile) (h.sys.unlink tempFile))

def workTruncateFile (r : Request) : Work φ (List UInt8) := do
  let path := h.requestPath r
  if h.nuttx then truncateByCopy h path r.offset.toNat
  else orFail (perform (.truncate path r.offset.toNat) (h.sys.truncate path r.offset.toNat))
  return []

/-- The loop of `_workCalcFileCRC32`. -/
def crcLoop (fd : ℤ) : ℕ → UInt32 → Work φ UInt32
  | 0, checksum => return checksum
  | fuel + 1, checksum => do
    match ← perform (.read fd workBuffer2Len) (h.sys.read fd workBuffer2Len) with
    | none =>
      let r_errno := (← get).errno
      let _ ← perform (.close fd) (h.sys.close fd)
      failWith r_errno
    | some data =>
      let checksum := h.crc32part data checksum
      if data.length = workBuffer2Len then crcLoop fd fuel checksum else return checksum

def workCalcFileCRC32 (r : Request) : Work φ (List UInt8) := do
  let path := h.path workBuffer2Len r.dataAsCstring
  let fd ← orFail (perform (.openFile path ⟨true, false, false⟩)
    (h.sys.openFile path ⟨true, false, false⟩))
  let checksum ← crcLoop h fd h.blocks 0
  let _ ← perform (.close fd) (h.sys.close fd)
  return bytes32 checksum

/-! ### Directories -/

/-- `kDirentFile`, `kDirentDir` and `kDirentSkip`. -/
inductive Dirent
  | file
  | dir
  | skip
  deriving DecidableEq

def Dirent.char : Dirent → UInt8
  | file => 'F'.toUInt8
  | dir => 'D'.toUInt8
  | skip => 'S'.toUInt8

/-- The type of an entry; `.` and `..` are not sent. -/
def direntType (e : Entry) : Dirent :=
  match e.type with
  | .file => .file
  | .directory =>
    if e.name = ['.'.toUInt8] ∨ e.name = ['.'.toUInt8, '.'.toUInt8] then .skip else .dir
  | .other => .skip

def decimal (n : ℕ) : List UInt8 := (Nat.toDigits 10 n).map Char.toUInt8

/-- The text of an entry in `_work_buffer2`. -/
def direntText (e : Entry) (fileSize : UInt32) : List UInt8 :=
  match direntType e with
  | .skip => []
  | .file => (e.name ++ '\t'.toUInt8 :: decimal fileSize.toNat).take (workBuffer2Len - 1)
  | .dir => e.name.take (workBuffer2Len - 1)

def fileSize (dir : Path) (e : Entry) : StateM (Disk φ) UInt32 := do
  let path := dir ++ '/'.toUInt8 :: e.name
  if e.type = .file ∧ path.length < workBuffer2Len then
    match ← perform (.stat path) (h.sys.stat path) with
    | some st => return UInt32.ofNat st.size
    | none => return 0
  else return 0

/-- The loop of `_workList`: the data, and whether the end of the directory has been
reached. -/
def listLoop (dir : Path) : List Entry → List UInt8 → StateM (Disk φ) (List UInt8 × Bool)
  | [], data => do
    setErrno 0
    return (data, true)
  | e :: es, data => do
    setErrno 0
    let text := direntText e (← fileSize h dir e)
    if data.length + text.length + 2 > kMaxDataLength then return (data, false)
    else listLoop dir es (data ++ (direntType e).char :: text ++ [0])

/-- `_workList`.  The offset is an `int`. -/
def workList (r : Request) : Work φ (List UInt8) := do
  let path := h.requestPath r
  match ← perform (.readdir path) (h.sys.readdir path) with
  | none =>
    (logLine h.sys : StateM (Disk φ) Unit)
    throw .FileNotFound
  | some (entries, error) =>
    match ← listLoop h path (entries.drop r.offset.toInt32.toInt.toNat) [] with
    | (data, false) => return data
    | (data, true) =>
      match error with
      | some e =>
        (setErrno e : StateM (Disk φ) Unit)
        (logLine h.sys : StateM (Disk φ) Unit)
        return data ++ [Dirent.skip.char, 0]
      | none => if r.offset ≠ 0 ∧ data.length = 0 then throw .EOF else return data

/-! ### The session -/

def Server.call {α : Type} (s : Server φ) (x : StateM (Disk φ) α) : α × Server φ :=
  match x s.disk with
  | (a, d) => (a, { s with disk := d })

def Server.log (s : Server φ) : Server φ := (s.call (logLine h.sys)).2

def Server.work {α : Type} (s : Server φ) (x : Work φ α) : Except ErrorCode α × Server φ :=
  s.call (ExceptT.run x)

/-- `_workOpen`.  `O_RDONLY` is zero but on NuttX, so that the failure of `stat` counts only
there. -/
def Server.workOpen (s : Server φ) (r : Request) (flags : OpenFlags) :
    Except ErrorCode Ack × Server φ :=
  if s.session_info.fd ≥ 0 then (.error .NoSessionsAvailable, s.log h)
  else
    let path := h.openPath r
    match s.call (perform (.stat path) (h.sys.stat path)) with
    | (st, s) =>
      if st.isNone ∧ flags.rdonly ∧ h.nuttx then (.error .FailErrno, s)
      else
        let size : UInt32 := match st with
          | some st => UInt32.ofNat st.size
          | none => 0
        match s.call (perform (.openFile path flags) (h.sys.openFile path flags)) with
        | (none, s) => (.error .FailErrno, s)
        | (some fd, s) =>
          (.ok ⟨0, bytes32 size⟩,
            { s with
              session_info.fd := fd
              session_info.file_size := size
              session_info.stream_download := false })

def Server.workRead (s : Server φ) (r : Request) : Except ErrorCode Ack × Server φ :=
  if r.session ≠ 0 ∨ s.session_info.fd < 0 then (.error .InvalidSession, s)
  else if r.offset ≥ s.session_info.file_size then (.error .EOF, s.log h)
  else
    let fd := s.session_info.fd
    match s.call (perform (.lseek fd r.offset.toNat) (h.sys.lseek fd r.offset.toNat)) with
    | (none, s) => (.error .FailErrno, s.log h)
    | (some (), s) =>
      match s.call (perform (.read fd kMaxDataLength) (h.sys.read fd kMaxDataLength)) with
      | (none, s) => (.error .FailErrno, s.log h)
      | (some data, s) => (.ok ⟨r.session, data⟩, s)

def Server.workBurst (s : Server φ) (r : Request) (target : Peer) :
    Except ErrorCode Ack × Server φ :=
  if r.session ≠ 0 ∧ s.session_info.fd < 0 then (.error .InvalidSession, s)
  else
    (.ok ⟨r.session, r.bytes r.size.toNat⟩,
      { s with
        session_info.stream_download := true
        session_info.stream_offset := r.offset
        session_info.stream_chunk_transmitted := 0
        session_info.stream_seq_number := r.seq_number + 1
        session_info.stream_target := target })

def Server.workWrite (s : Server φ) (r : Request) : Except ErrorCode Ack × Server φ :=
  if r.session ≠ 0 ∧ s.session_info.fd < 0 then (.error .InvalidSession, s)
  else
    let fd := s.session_info.fd
    match s.call (perform (.lseek fd r.offset.toNat) (h.sys.lseek fd r.offset.toNat)) with
    | (none, s) => (.error .FailErrno, s.log h)
    | (some (), s) =>
      let data := r.bytes r.size.toNat
      match s.call (perform (.write fd data) (h.sys.write fd data)) with
      | (none, s) => (.error .FailErrno, s.log h)
      | (some n, s) => (.ok ⟨r.session, bytes32 (UInt32.ofNat n)⟩, s)

def Server.closeSession (s : Server φ) : Server φ :=
  let fd := s.session_info.fd
  { (s.call (perform (.close fd) (h.sys.close fd))).2 with
    session_info.fd := -1
    session_info.stream_download := false }

def Server.workTerminate (s : Server φ) (r : Request) : Except ErrorCode Ack × Server φ :=
  if r.session ≠ 0 ∨ s.session_info.fd < 0 then (.error .InvalidSession, s)
  else (.ok ⟨r.session, []⟩, s.closeSession h)

def Server.workReset (s : Server φ) (r : Request) : Except ErrorCode Ack × Server φ :=
  (.ok ⟨r.session, []⟩, if s.session_info.fd ≠ -1 then s.closeSession h else s)

/-! ### Requests -/

/-- A handler that does without the session, whose answer keeps its number. -/
def Server.workFile (s : Server φ) (r : Request) (x : Work φ (List UInt8)) :
    Except ErrorCode Ack × Server φ :=
  match s.work x with
  | (.ok data, s) => (.ok ⟨r.session, data⟩, s)
  | (.error e, s) => (.error e, s)

def Server.execute (s : Server φ) (r : Request) (sender : Peer) : Except ErrorCode Ack × Server φ :=
  match r.opcode with
  | .CmdNone => (.ok ⟨r.session, r.bytes r.size.toNat⟩, s)
  | .CmdTerminateSession => s.workTerminate h r
  | .CmdResetSessions => s.workReset h r
  | .CmdListDirectory => s.workFile r (workList h r)
  | .CmdOpenFileRO => s.workOpen h r ⟨true, false, false⟩
  | .CmdCreateFile => s.workOpen h r ⟨false, true, true⟩
  | .CmdOpenFileWO => s.workOpen h r ⟨false, true, false⟩
  | .CmdReadFile => s.workRead h r
  | .CmdBurstReadFile => s.workBurst r sender
  | .CmdWriteFile => s.workWrite h r
  | .CmdRemoveFile => s.workFile r (workRemoveFile h r)
  | .CmdRename => s.workFile r (workRename h r)
  | .CmdTruncateFile => s.workFile r (workTruncateFile h r)
  | .CmdCreateDirectory => s.workFile r (workCreateDirectory h r)
  | .CmdRemoveDirectory => s.workFile r (workRemoveDirectory h r)
  | .CmdCalcFileCRC32 => s.workFile r (workCalcFileCRC32 h r)
  | .RspAck | .RspNak | .other _ => (.error .UnknownCommand, s)

/-- The error that is sent, by what `errno` says. -/
def translate (e : ErrorCode) (errno : Errno) : ErrorCode :=
  if errno = EEXIST then .FailFileExists
  else if errno = ENOENT ∧ e = .FailErrno then .FileNotFound
  else e

def nakData (e : ErrorCode) (errno : Errno) : List UInt8 :=
  if e = .FailErrno then [e.code, UInt8.ofNat errno] else [e.code]

def answer (r : Request) (sender : Peer) (errno : Errno) : Except ErrorCode Ack → Reply
  | .ok a =>
    { target := sender, seq_number := r.seq_number + 1, session := a.session, opcode := .RspAck
      req_opcode := r.opcode, burst_complete := r.burst_complete, offset := r.offset
      data := a.data }
  | .error e =>
    { target := sender, seq_number := r.seq_number + 1, session := r.session, opcode := .RspNak
      req_opcode := r.opcode, burst_complete := r.burst_complete, offset := r.offset
      data := nakData (translate e errno) errno }

/-- `_reply`: small answers are kept. -/
def Server.reply (s : Server φ) (p : Reply) : Server φ :=
  if p.data.length ≤ 4 then { s with last_reply := some p } else s

/-- The end of `_process_request`. -/
def Server.finish (s : Server φ) (r : Request) (sender : Peer) (stream_send : Bool)
    (result : Except ErrorCode Ack) : Server φ × List Reply :=
  let p := answer r sender s.disk.errno result
  let s := { s with last_reply := none }
  match result, stream_send with
  | .ok _, true => (s, [])
  | _, _ => (s.reply p, [p])

def Server.ensureBuffersExist (s : Server φ) (io : Io) : Server φ :=
  { s with
    last_work_buffer_access := io.now
    work_buffer1 := s.work_buffer1 || io.alloc1
    work_buffer2 := s.work_buffer2 || io.alloc2 }

/-- The last answer has the number after that of the request, as an `int`. -/
def Server.resent (s : Server φ) (r : Request) : Option Reply :=
  s.last_reply.filter fun p => r.seq_number.toNat + 1 = p.seq_number.toNat

def Server.processRequest (s : Server φ) (io : Io) (sender : Peer) (r : Request) :
    Server φ × List Reply :=
  let s := { s with disk.errno := io.errno }.ensureBuffersExist io
  if ! (s.work_buffer1 && s.work_buffer2) then
    { s.log h with disk.errno := ENOMEM }.finish r sender false (.error .FailErrno)
  else if r.size.toNat > kMaxDataLength then s.finish r sender false (.error .InvalidDataSize)
  else
    match s.resent r with
    | some p => (s, [p])
    | none =>
      match s.execute h r sender with
      | (result, s) => s.finish r sender (r.opcode = .CmdBurstReadFile) result

def Host.takes (target : Peer) : Bool :=
  (target.sysid = h.own.sysid || target.sysid = 0) &&
    (target.compid = h.own.compid || target.compid = 0)

def Server.handleMessage (s : Server φ) (io : Io) (target sender : Peer) (r : Request) :
    Server φ × List Reply :=
  if h.takes target then s.processRequest h io sender r else (s, [])

/-! ### Periodic work -/

/-- `get_size` during a burst. -/
def packetSize : ℕ := 254 + 12

/-- The buffers are freed after two seconds, and the session is closed after ten. -/
def Server.expire (s : Server φ) (io : Io) : Server φ :=
  let elapsed := io.now - s.last_work_buffer_access
  if s.work_buffer1 || s.work_buffer2 then
    if elapsed > 2000000 then { s with work_buffer1 := false, work_buffer2 := false } else s
  else if s.session_info.fd ≠ -1 ∧ elapsed > 10000000 then
    { s.closeSession h with last_reply := none }.log h
  else s

def Server.streamRead (s : Server φ) : Except ErrorCode (List UInt8) × Server φ :=
  let fd := s.session_info.fd
  let offset := s.session_info.stream_offset.toNat
  if s.session_info.stream_offset ≥ s.session_info.file_size then (.error .EOF, s)
  else
    match s.call (perform (.lseek fd offset) (h.sys.lseek fd offset)) with
    | (none, s) => (.error .FailErrno, s)
    | (some (), s) =>
      match s.call (perform (.read fd kMaxDataLength) (h.sys.read fd kMaxDataLength)) with
      | (none, s) => (.error .FailErrno, s)
      | (some data, s) => (.ok data, s)

/-- One turn of the loop of `send`, which says whether there is another one. -/
def Server.streamOnce (s : Server φ) (io : Io) (max_bytes_to_send : ℕ) : Server φ × Reply × Bool :=
  let p : Reply :=
    { target := s.session_info.stream_target, seq_number := s.session_info.stream_seq_number
      session := 0, opcode := .RspAck, req_opcode := .CmdBurstReadFile
      burst_complete := io.junk s.session_info.stream_seq_number
      offset := s.session_info.stream_offset, data := [] }
  let s := { s with session_info.stream_seq_number := s.session_info.stream_seq_number + 1 }
  match s.streamRead h with
  | (.error e, s) =>
    let p := { p with opcode := .RspNak, data := nakData e s.disk.errno }
    ({ s with session_info.stream_download := false }.reply p, p, false)
  | (.ok data, s) =>
    let n := UInt32.ofNat data.length
    let s := { s with
      session_info.stream_offset := s.session_info.stream_offset + n
      session_info.stream_chunk_transmitted := s.session_info.stream_chunk_transmitted + n }
    let p := { p with data := data }
    if max_bytes_to_send < packetSize * 2 then
      if s.session_info.stream_chunk_transmitted > 35000 then
        let p := { p with burst_complete := 1 }
        ({ s with
            session_info.stream_download := false
            session_info.stream_chunk_transmitted := 0 }.reply p, p, false)
      else (s.reply p, p, false)
    else
      let p := { p with burst_complete := 0 }
      (s.reply p, p, true)

/-- The loop of `send`. -/
def Server.streamLoop (io : Io) : ℕ → Server φ → ℕ → Server φ × List Reply
  | 0, s, _ => (s, [])
  | fuel + 1, s, max_bytes_to_send =>
    match s.streamOnce h io max_bytes_to_send with
    | (s, p, false) => (s, [p])
    | (s, p, true) =>
      match streamLoop io fuel s (max_bytes_to_send - packetSize) with
      | (s, ps) => (s, p :: ps)

def Server.send (s : Server φ) (io : Io) : Server φ × List Reply :=
  let s := { s with disk.errno := io.errno }.expire h io
  if s.session_info.stream_download = false then (s, [])
  else if io.free_tx_buf < packetSize then (s, [])
  else s.streamLoop h io (io.free_tx_buf / packetSize) io.free_tx_buf

inductive Event
  | message (io : Io) (target sender : Peer) (r : Request)
  | send (io : Io)

def Server.react (s : Server φ) : Event → Server φ × List Reply
  | .message io target sender r => s.handleMessage h io target sender r
  | .send io => s.send h io

end Handlers

def Server.init {φ : Type} (fs : φ) : Server φ where
  disk := ⟨fs, 0, []⟩
  session_info := ⟨-1, 0, false, 0, 0, ⟨0, 0⟩, 0⟩
  work_buffer1 := false
  work_buffer2 := false
  last_work_buffer_access := 0
  last_reply := none

theorem nil_lt : ([] : Path).length < workBuffer1Len := Nat.zero_lt_succ 238

def ramHost : Host Ram where
  nuttx := true
  own := ⟨1, 1⟩
  root_dir := []
  root_lt := nil_lt
  sys := Ram.sys
  behind := []
  crc32part _ checksum := checksum
  blocks := 1

def Io.ok (now : UInt64) : Io := ⟨now, true, true, 0, 0, fun _ => 0⟩

/-- A request about the file or the directory `a`. -/
def Request.about (seq_number : UInt16) (session : UInt8) (opcode : Opcode) : Request where
  seq_number := seq_number
  session := session
  opcode := opcode
  size := 1
  burst_complete := 0
  offset := 0
  data _ := 'a'.toUInt8

end Ftp
