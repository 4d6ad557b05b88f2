/-
System calls on files.

A file system is a state and what each call does to it; which calls succeed, and what they
read, is up to the file system.  `Disk` adds what a program sees of it: `errno`, and for the
reader of its proofs the list of the calls it has made.

A call that fails sets `errno`; one that succeeds leaves it alone.

`Ram.sys` is a small file system that can be run: files and directories in memory, of which
one file can be open at a time.
-/
import Mathlib.Data.List.Basic
import Mathlib.Data.Int.Notation

namespace FileSystem

/-- A value of `errno`. -/
abbrev Errno := ℕ

def ENOENT : Errno := 2

def EBADF : Errno := 9

def ENOMEM : Errno := 12

def EEXIST : Errno := 17

def EISDIR : Errno := 21

def EINVAL : Errno := 22

def EMFILE : Errno := 24

def EROFS : Errno := 30

/-- The bytes of a path, without the terminator. -/
abbrev Path := List UInt8

/-- The flags of `open`. -/
structure OpenFlags where
  rdonly : Bool
  creat : Bool
  trunc : Bool
  deriving DecidableEq

/-- What is used of `struct stat`. -/
structure Stat where
  size : ℕ
  regular : Bool
  writable : Bool

inductive EntryType
  | file
  | directory
  | other
  deriving DecidableEq

structure Entry where
  name : Path
  type : EntryType

/-- The system calls on a file system with states `φ`.  `readdir` gives all entries of a
directory and, if reading them ends with an error, that error; `log` is what a line of the log
leaves in `errno`, unless it leaves that alone. -/
structure Posix (φ : Type) where
  stat : Path → φ → φ × Except Errno Stat
  openFile : Path → OpenFlags → φ → φ × Except Errno ℕ
  close : ℤ → φ → φ × Except Errno Unit
  lseek : ℤ → ℕ → φ → φ × Except Errno Unit
  read : ℤ → ℕ → φ → φ × Except Errno (List UInt8)
  write : ℤ → List UInt8 → φ → φ × Except Errno ℕ
  unlink : Path → φ → φ × Except Errno Unit
  mkdir : Path → φ → φ × Except Errno Unit
  rmdir : Path → φ → φ × Except Errno Unit
  rename : Path → Path → φ → φ × Except Errno Unit
  truncate : Path → ℕ → φ → φ × Except Errno Unit
  readdir : Path → φ → φ × Except Errno (List Entry × Option Errno)
  log : φ → Option Errno

/-- A call that a program has made, or a line that it has written to the log. -/
inductive Call
  | stat (path : Path)
  | openFile (path : Path) (flags : OpenFlags)
  | close (fd : ℤ)
  | lseek (fd : ℤ) (offset : ℕ)
  | read (fd : ℤ) (length : ℕ)
  | write (fd : ℤ) (data : List UInt8)
  | unlink (path : Path)
  | mkdir (path : Path)
  | rmdir (path : Path)
  | rename (path newPath : Path)
  | truncate (path : Path) (length : ℕ)
  | readdir (path : Path)
  | logLine
  deriving DecidableEq

/-- The descriptor that a call seeks in, reads from or writes to. -/
def Call.touches : Call → Option ℤ
  | lseek fd _ => some fd
  | read fd _ => some fd
  | write fd _ => some fd
  | _ => none

structure Disk (φ : Type) where
  fs : φ
  errno : Errno
  calls : List Call

variable {φ α : Type}

def perform (c : Call) (f : φ → φ × Except Errno α) : StateM (Disk φ) (Option α) := fun d =>
  match f d.fs with
  | (fs, .ok a) => (some a, ⟨fs, d.errno, d.calls ++ [c]⟩)
  | (fs, .error e) => (none, ⟨fs, e, d.calls ++ [c]⟩)

/-- The program sets `errno` itself. -/
def setErrno (e : Errno) : StateM (Disk φ) Unit := modify fun d => { d with errno := e }

def logLine (sys : Posix φ) : StateM (Disk φ) Unit :=
  modify fun d => ⟨d.fs, (sys.log d.fs).getD d.errno, d.calls ++ [.logLine]⟩

theorem calls_perform (c : Call) (f : φ → φ × Except Errno α) (d : Disk φ) :
    (perform c f d).2.calls = d.calls ++ [c] := by
  unfold perform
  split
  · rfl
  · rfl

/-! ### A file system in memory -/

/-- The files with their content, the directories, and the file that is open with the position
in it. -/
structure Ram where
  files : List (Path × List UInt8)
  dirs : List Path
  opened : Option (Path × ℕ)

namespace Ram

def fd : ℕ := 3

def find (s : Ram) (p : Path) : Option (List UInt8) := s.files.lookup p

def remove (s : Ram) (p : Path) : Ram := { s with files := s.files.filter fun f => f.1 ≠ p }

def put (s : Ram) (p : Path) (data : List UInt8) : Ram :=
  { s with files := (s.remove p).files ++ [(p, data)] }

def file (s : Ram) (n : ℤ) : Option (Path × ℕ) := if n = fd then s.opened else none

/-- Data written at a position; a gap before it is filled with zeros. -/
def overwrite (content : List UInt8) (pos : ℕ) (data : List UInt8) : List UInt8 :=
  content.take pos ++ List.replicate (pos - content.length) 0 ++ data ++
    content.drop (pos + data.length)

def nameIn (dir p : Path) : Option Path :=
  if dir ++ ['/'.toUInt8] <+: p then
    let name := p.drop (dir.length + 1)
    if name ≠ [] ∧ '/'.toUInt8 ∉ name then some name else none
  else none

def sys : Posix Ram where
  stat p s := (s, match s.find p with
    | some data => .ok ⟨data.length, true, true⟩
    | none => if p ∈ s.dirs then .ok ⟨0, false, true⟩ else .error ENOENT)
  openFile p flags s :=
    match s.opened, s.find p with
    | some _, _ => (s, .error EMFILE)
    | none, some _ =>
      ({ (if flags.trunc then s.put p [] else s) with opened := some (p, 0) }, .ok fd)
    | none, none =>
      if flags.creat then ({ s.put p [] with opened := some (p, 0) }, .ok fd)
      else (s, .error ENOENT)
  close n s := if (s.file n).isSome then ({ s with opened := none }, .ok ()) else (s, .error EBADF)
  lseek n pos s :=
    match s.file n with
    | some (p, _) => ({ s with opened := some (p, pos) }, .ok ())
    | none => (s, .error EBADF)
  read n len s :=
    match s.file n with
    | some (p, pos) =>
      let data := (((s.find p).getD []).drop pos).take len
      ({ s with opened := some (p, pos + data.length) }, .ok data)
    | none => (s, .error EBADF)
  write n data s :=
    match s.file n with
    | some (p, pos) =>
      ({ s.put p (overwrite ((s.find p).getD []) pos data) with
          opened := some (p, pos + data.length) }, .ok data.length)
    | none => (s, .error EBADF)
  unlink p s := if (s.find p).isSome then (s.remove p, .ok ()) else (s, .error ENOENT)
  mkdir p s :=
    if p ∈ s.dirs ∨ (s.find p).isSome then (s, .error EEXIST)
    else ({ s with dirs := s.dirs ++ [p] }, .ok ())
  rmdir p s :=
    if p ∈ s.dirs then ({ s with dirs := s.dirs.filter (· ≠ p) }, .ok ()) else (s, .error ENOENT)
  rename p q s :=
    match s.find p with
    | some data => ((s.remove p).put q data, .ok ())
    | none => (s, .error ENOENT)
  truncate p n s :=
    match s.find p with
    | some data => (s.put p ((data ++ List.replicate (n - data.length) 0).take n), .ok ())
    | none => (s, .error ENOENT)
  readdir p s := (s,
    if p ∈ s.dirs then
      .ok ((s.files.filterMap fun f => (nameIn p f.1).map (⟨·, .file⟩)) ++
        s.dirs.filterMap fun d => (nameIn p d).map (⟨·, .directory⟩), none)
    else .error ENOENT)
  log _ := none

end Ram

end FileSystem
