/-
Listing a directory.

A reply has as many entries as there is room for, from the offset of the request on, and the
client asks again with the offset behind them until it is told that there are no more.  Every
request reads the directory from its beginning and skips what the client has.

A directory without entries is no end of file: the request with the offset zero is answered
with an acknowledgement that has no entries.

`Lists` is what is expected of the file system: the directory does not change while it is
listed.

* **`directory_listed`** — for every directory with entries, each of which has room in a reply:
  the client comes to an end, and has received all of them, each one once and in the order of
  the directory;
* **`empty_directory_listed`** — the client that asks again and again for a directory without
  entries.
-/
import Mathlib.Data.List.Chain
import AerialManipulator.Lib.ByteStream
import AerialManipulator.Ftp.Session

open FileSystem

namespace Ftp

variable {φ : Type}

/-- The entries in the data of a reply, each with a terminator; `cur` is what has been read of
the next one. -/
def entriesOf : List UInt8 → List UInt8 → List (List UInt8)
  | _, [] => []
  | cur, b :: bs => if b = 0 then cur :: entriesOf [] bs else entriesOf (cur ++ [b]) bs

def Reply.entries (p : Reply) : List (List UInt8) := entriesOf [] p.data

theorem entriesOf_append {t : List UInt8} (ht : 0 ∉ t) (cur rest : List UInt8) :
    entriesOf cur (t ++ 0 :: rest) = (cur ++ t) :: entriesOf [] rest := by
  induction t generalizing cur with
  | nil => simp [entriesOf]
  | cons b t ih =>
    obtain ⟨hb, ht⟩ := not_or.mp (List.mem_cons.not.mp ht)
    rw [List.cons_append, entriesOf, if_neg (Ne.symm hb), ih ht, List.append_assoc]
    rfl

theorem entriesOf_flatMap {ts : List (List UInt8)} (hts : ∀ t ∈ ts, 0 ∉ t) :
    entriesOf [] (ts.flatMap (· ++ [0])) = ts := by
  induction ts with
  | nil => rfl
  | cons t ts ih =>
    obtain ⟨ht, hts⟩ := List.forall_mem_cons.mp hts
    rw [List.flatMap_cons, List.append_assoc, List.singleton_append, entriesOf_append ht, ih hts,
      List.nil_append]

/-! ### What is sent of an entry -/

section Entries

variable (dir : Path) (size : Entry → UInt32)

/-- The size that is sent: it is looked up for files whose path is short enough. -/
def sentSize (e : Entry) : UInt32 :=
  if e.type = .file ∧ (dir ++ '/'.toUInt8 :: e.name).length < workBuffer2Len then size e else 0

def listed (e : Entry) : List UInt8 :=
  (direntType e).char :: direntText e (sentSize dir size e)

theorem zero_notMem_decimal (n : ℕ) : 0 ∉ decimal n := by
  intro hmem
  obtain ⟨c, hc, hzero⟩ := List.mem_map.mp hmem
  have hdigit := Nat.isDigit_of_mem_toDigits (by decide) (by decide) hc
  simp only [Char.isDigit, Bool.and_eq_true, decide_eq_true_eq, ge_iff_le,
    UInt32.le_iff_toNat_le] at hdigit
  have hcode : c.val.toNat % 2 ^ 8 = 0 := by
    rw [← UInt32.toNat_toUInt8]
    exact congrArg UInt8.toNat hzero
  have hlow : '0'.val.toNat = 48 := rfl
  have hhigh : '9'.val.toNat = 57 := rfl
  omega

theorem zero_notMem_listed {e : Entry} (hname : 0 ∉ e.name) : 0 ∉ listed dir size e := by
  have htext : 0 ∉ direntText e (sentSize dir size e) := by
    unfold direntText
    split
    · exact List.not_mem_nil
    · intro hmem
      rcases List.mem_append.mp (List.mem_of_mem_take hmem) with hmem | hmem
      · exact hname hmem
      · rcases List.mem_cons.mp hmem with hmem | hmem
        · exact nomatch hmem
        · exact zero_notMem_decimal _ hmem
    · exact fun hmem => hname (List.mem_of_mem_take hmem)
  have hchar : 0 ≠ (direntType e).char := by
    cases direntType e <;> decide
  exact fun hmem => (List.mem_cons.mp hmem).elim hchar htext

end Entries

/-- A directory with these entries and file sizes that does not change while it is listed;
`Good` are the states of the file system in which that is so.  Names have no terminators in
them. -/
structure Lists (sys : Posix φ) (dir : Path) (entries : List Entry) (size : Entry → UInt32)
    (Good : φ → Prop) : Prop where
  readdir : ∀ fs, Good fs → ∃ fs', sys.readdir dir fs = (fs', .ok (entries, none)) ∧ Good fs'
  stat : ∀ fs e, Good fs → e ∈ entries →
    ∃ fs' st, sys.stat (dir ++ '/'.toUInt8 :: e.name) fs = (fs', st) ∧ Good fs' ∧
      (∀ x, st = .ok x → size e = UInt32.ofNat x.size) ∧ (∀ x, st = .error x → size e = 0)
  name : ∀ e ∈ entries, 0 ∉ e.name

variable {h : Host φ} {dir : Path} {entries : List Entry} {size : Entry → UInt32} {Good : φ → Prop}

theorem skip_eq {x : UInt32} (hlt : x.toNat < 2 ^ 31) : x.toInt32.toInt.toNat = x.toNat := by
  rw [ByteStream.toInt_toInt32 hlt, Int.toNat_natCast]

theorem Server.finish_answer (s : Server φ) (r : Request) (sender : Peer)
    (result : Except ErrorCode Ack) :
    (s.finish r sender false result).2 = [answer r sender s.disk.errno result] ∧
      (s.finish r sender false result).1.disk = s.disk ∧
      ∀ q, (s.finish r sender false result).1.last_reply = some q →
        q.seq_number = r.seq_number + 1 := by
  have hseq : (answer r sender s.disk.errno result).seq_number = r.seq_number + 1 := by
    cases result with
    | ok a => rfl
    | error e => rfl
  have hout : (s.finish r sender false result).2 = [answer r sender s.disk.errno result] := by
    cases result with
    | ok a => rfl
    | error e => rfl
  obtain ⟨hdisk, -, ⟨-, hlast⟩ | ⟨-, hlast | hlast⟩⟩ := s.finish_spec r sender false result
  · exact ⟨hout, hdisk, fun q hq => absurd (hlast.symm.trans hq) (by simp)⟩
  · exact ⟨hout, hdisk, fun q hq => absurd (hlast.symm.trans hq) (by simp)⟩
  · exact ⟨hout, hdisk, fun q hq => Option.some.inj (hlast.symm.trans hq) ▸ hseq⟩

section Directory

variable (hdir : Lists h.sys dir entries size Good)
include hdir

theorem fileSize_spec {e : Entry} (he : e ∈ entries) {d : Disk φ} (hd : Good d.fs) :
    ∃ d', fileSize h dir e d = (sentSize dir size e, d') ∧ Good d'.fs := by
  unfold fileSize sentSize
  by_cases hfile : e.type = .file ∧ (dir ++ '/'.toUInt8 :: e.name).length < workBuffer2Len
  · rw [if_pos hfile, if_pos hfile]
    obtain ⟨fs', st, hst, hgood, hok, herror⟩ := hdir.stat d.fs e hd he
    cases st with
    | ok x =>
      refine ⟨⟨fs', d.errno, d.calls ++ [.stat (dir ++ '/'.toUInt8 :: e.name)]⟩, ?_, hgood⟩
      rw [hok x rfl]
      simp only [bind, StateT.bind, perform, hst]
      rfl
    | error x =>
      refine ⟨⟨fs', x, d.calls ++ [.stat (dir ++ '/'.toUInt8 :: e.name)]⟩, ?_, hgood⟩
      rw [herror x rfl]
      simp only [bind, StateT.bind, perform, hst]
      rfl
  · rw [if_neg hfile, if_neg hfile]
    exact ⟨d, rfl, hd⟩

theorem listLoop_spec {es : List Entry} (hes : ∀ e ∈ es, e ∈ entries) (data : List UInt8)
    {d : Disk φ} (hd : Good d.fs) :
    ∃ k d', listLoop h dir es data d =
        ((data ++ ((es.take k).map (listed dir size)).flatMap (· ++ [0]), decide (k = es.length)),
          d') ∧
      Good d'.fs ∧ k ≤ es.length ∧ (k = es.length → d'.errno = 0) ∧
      (∀ e ∈ es.head?, data.length + (listed dir size e).length + 1 ≤ kMaxDataLength → 0 < k) := by
  induction es generalizing data d with
  | nil =>
    refine ⟨0, { d with errno := 0 }, ?_, hd, le_rfl, fun _ => rfl, by simp⟩
    have hnil : listLoop h dir [] data d = ((data, true), { d with errno := 0 }) := rfl
    rw [hnil]
    simp
  | cons e es ih =>
    obtain ⟨he, hes⟩ := List.forall_mem_cons.mp hes
    have hd₀ : Good ({ d with errno := 0 } : Disk φ).fs := hd
    obtain ⟨d₁, hsize, hd₁⟩ := fileSize_spec hdir he hd₀
    have hstep : listLoop h dir (e :: es) data d =
        if data.length + (direntText e (sentSize dir size e)).length + 2 > kMaxDataLength then
          ((data, false), d₁)
        else listLoop h dir es (data ++ (direntType e).char ::
          direntText e (sentSize dir size e) ++ [0]) d₁ := by
      rw [listLoop]
      simp only [setErrno, bind, StateT.bind, modify, modifyGet, MonadStateOf.modifyGet,
        StateT.modifyGet, pure, hsize]
      split
      · rfl
      · rfl
    rw [hstep]
    have hlength : (listed dir size e).length =
        (direntText e (sentSize dir size e)).length + 1 := rfl
    split
    · next hfull =>
      refine ⟨0, d₁, by simp, hd₁, Nat.zero_le _, by simp, ?_⟩
      rintro x hx hroom
      obtain rfl : e = x := by simpa using hx
      omega
    · obtain ⟨k, d₂, hloop, hd₂, hk, herrno, -⟩ := ih hes
        (data ++ (direntType e).char :: direntText e (sentSize dir size e) ++ [0]) hd₁
      refine ⟨k + 1, d₂, ?_, hd₂, by simpa using hk, ?_, fun _ _ _ => Nat.succ_pos k⟩
      · rw [hloop]
        simp [listed]
      · intro hall
        exact herrno (by simpa using hall)

/-! ### One request -/

/-- `_workList` at an offset up to the end of the directory: a part of it that has entries if
there are any left, or the end. -/
theorem workList_spec {r : Request} (hpath : h.requestPath r = dir)
    (hfits : ∀ e ∈ entries, (listed dir size e).length + 1 ≤ kMaxDataLength)
    (hcount : entries.length < 2 ^ 31) (hoff : r.offset.toNat ≤ entries.length) {d : Disk φ}
    (hd : Good d.fs) :
    ∃ d', Good d'.fs ∧
      ((r.offset.toNat = entries.length ∧ entries ≠ [] ∧ d'.errno = 0 ∧
          (workList h r).run d = (.error .EOF, d')) ∨
        ∃ k, (workList h r).run d = (.ok ((((entries.drop r.offset.toNat).take k).map
            (listed dir size)).flatMap (· ++ [0])), d') ∧ k ≤ entries.length - r.offset.toNat ∧
          (entries ≠ [] → 0 < k)) := by
  obtain ⟨fs₁, hread, hgood⟩ := hdir.readdir d.fs hd
  set d₁ : Disk φ := ⟨fs₁, d.errno, d.calls ++ [.readdir dir]⟩ with hd₁
  have hskip : r.offset.toInt32.toInt.toNat = r.offset.toNat := skip_eq (hoff.trans_lt hcount)
  have hmem : ∀ e ∈ entries.drop r.offset.toNat, e ∈ entries := fun e => List.mem_of_mem_drop
  obtain ⟨k, d₂, hloop, hd₂, hk, herrno, hpos⟩ := listLoop_spec hdir hmem [] (d := d₁) hgood
  rw [List.nil_append] at hloop
  set data := (((entries.drop r.offset.toNat).take k).map (listed dir size)).flatMap (· ++ [0])
    with hdata
  have hrun : (workList h r).run d =
      if k = (entries.drop r.offset.toNat).length ∧ r.offset ≠ 0 ∧ data.length = 0
      then (.error .EOF, d₂) else (.ok data, d₂) := by
    unfold workList
    simp only [ExceptT.run, bind, ExceptT.bind, ExceptT.mk, StateT.bind, liftM, monadLift,
      MonadLift.monadLift, ExceptT.lift, Functor.map, StateT.map, perform, hpath, hread, pure,
      ExceptT.bindCont, hskip]
    rw [← hd₁, hloop]
    by_cases hall : k = (entries.drop r.offset.toNat).length
    · rw [decide_eq_true hall]
      dsimp only
      by_cases heof : r.offset ≠ 0 ∧ data.length = 0
      · rw [if_pos heof, if_pos ⟨hall, heof⟩]
        rfl
      · rw [if_neg heof, if_neg fun hboth => heof hboth.2]
        rfl
    · rw [decide_eq_false hall, if_neg fun hboth => hall hboth.1]
      rfl
  refine ⟨d₂, hd₂, ?_⟩
  rw [List.length_drop] at hk
  rcases hoff.eq_or_lt with hend | hlt
  · have hnil : entries.drop r.offset.toNat = [] := by rw [hend, List.drop_length]
    have hnone : data = [] := by rw [hdata, hnil, List.take_nil, List.map_nil, List.flatMap_nil]
    have hzero : k = 0 := by omega
    by_cases hempty : entries = []
    · have hoffset : ¬ r.offset ≠ 0 := by
        rw [not_not, ← UInt32.toNat_inj, hend, hempty]
        rfl
      rw [if_neg fun hboth => hoffset hboth.2.1] at hrun
      exact .inr ⟨k, hrun, hk, fun hne => absurd hempty hne⟩
    · have hoffset : r.offset ≠ 0 := by
        intro hoffset
        rw [hoffset] at hend
        exact hempty (List.length_eq_zero_iff.mp hend.symm)
      have hall : k = (entries.drop r.offset.toNat).length := by rw [hnil, hzero, List.length_nil]
      rw [if_pos ⟨hall, hoffset, by rw [hnone, List.length_nil]⟩] at hrun
      exact .inl ⟨hend, hempty, herrno hall, hrun⟩
  · have hhead : entries[r.offset.toNat] ∈ (entries.drop r.offset.toNat).head? := by
      rw [List.head?_drop, List.getElem?_eq_getElem hlt]
      rfl
    have hfirst : 0 < k := by
      refine hpos _ hhead ?_
      rw [List.length_nil, Nat.zero_add]
      exact hfits _ (List.getElem_mem hlt)
    have hdata_ne : data.length ≠ 0 := by
      obtain ⟨n, hn⟩ := Nat.exists_eq_succ_of_ne_zero hfirst.ne'
      rw [hdata, ← List.getElem_cons_drop hlt, hn, List.take_succ_cons, List.map_cons,
        List.flatMap_cons]
      simp
    rw [if_neg fun hboth => hdata_ne hboth.2.2] at hrun
    exact .inr ⟨k, hrun, hk, fun _ => hfirst⟩

theorem list_spec {r : Request} (hopcode : r.opcode = .CmdListDirectory)
    (hpath : h.requestPath r = dir)
    (hfits : ∀ e ∈ entries, (listed dir size e).length + 1 ≤ kMaxDataLength)
    (hcount : entries.length < 2 ^ 31) (hoff : r.offset.toNat ≤ entries.length)
    {s : Server φ} {io : Io} (hexec : s.Executes io r) (hs : Good s.disk.fs) (sender : Peer) :
    ∃ p, (s.processRequest h io sender r).2 = [p] ∧
      Good (s.processRequest h io sender r).1.disk.fs ∧
      (∀ q, (s.processRequest h io sender r).1.last_reply = some q →
        q.seq_number = r.seq_number + 1) ∧
      ((r.offset.toNat = entries.length ∧ entries ≠ [] ∧ p.opcode = .RspNak ∧
          p.data = [ErrorCode.EOF.code]) ∨
        ∃ k, p.opcode = .RspAck ∧
          p.entries = ((entries.drop r.offset.toNat).take k).map (listed dir size) ∧
          k ≤ entries.length - r.offset.toNat ∧ (entries ≠ [] → 0 < k)) := by
  have hserved := s.processRequest_served h io sender r
  generalize s.processRequest h io sender r = out at hserved ⊢
  cases hserved with
  | refused _ _ hnot => exact absurd ⟨hexec.1, hexec.2.1⟩ hnot
  | again hp => exact absurd (hp.symm.trans hexec.2.2) (by simp)
  | executed =>
    obtain ⟨d, hd, hwork⟩ := workList_spec hdir hpath hfits hcount hoff
      (d := (s.prepare io).disk) hs
    have hexecute : (s.prepare io).execute h r sender =
        (s.prepare io).workFile r (workList h r) := by
      unfold Server.execute
      rw [hopcode]
    rw [hexecute, decide_eq_false (by rw [hopcode]; decide)]
    rcases hwork with ⟨hend, hne, herrno, hrun⟩ | ⟨k, hrun, hk, hpos⟩
    · have hfile : (s.prepare io).workFile r (workList h r) =
          (.error .EOF, { s.prepare io with disk := d }) := by
        simp only [Server.workFile, Server.work, Server.call, hrun]
      rw [hfile]
      obtain ⟨hout, hdisk, hlast⟩ := Server.finish_answer { s.prepare io with disk := d } r sender
        (.error .EOF)
      refine ⟨_, hout, by rw [hdisk]; exact hd, hlast, .inl ⟨hend, hne, rfl, ?_⟩⟩
      simp only [answer, herrno]
      rfl
    · set es := ((entries.drop r.offset.toNat).take k).map (listed dir size) with hes
      have hfile : (s.prepare io).workFile r (workList h r) =
          (.ok ⟨r.session, es.flatMap (· ++ [0])⟩, { s.prepare io with disk := d }) := by
        simp only [Server.workFile, Server.work, Server.call, hrun]
      rw [hfile]
      obtain ⟨hout, hdisk, hlast⟩ := Server.finish_answer { s.prepare io with disk := d } r sender
        (.ok ⟨r.session, es.flatMap (· ++ [0])⟩)
      refine ⟨_, hout, by rw [hdisk]; exact hd, hlast, .inr ⟨k, rfl, ?_, hk, hpos⟩⟩
      refine entriesOf_flatMap fun t ht => ?_
      obtain ⟨e, he, rfl⟩ := List.mem_map.mp ht
      exact zero_notMem_listed dir size
        (hdir.name e (List.mem_of_mem_drop (List.mem_of_mem_take he)))

end Directory

/-! ### The client -/

/-- A turn of the client: the number of its request, and what the server gets from outside. -/
structure Turn where
  seq_number : UInt16
  io : Io

def Turn.request (t : Turn) (r : Request) (off : ℕ) : Request :=
  { r with seq_number := t.seq_number, offset := UInt32.ofNat off }

variable (h) in
/-- The client: it asks for the entries from an offset on, advances the offset by what it gets,
and ends when it is refused.  The replies that it receives. -/
def listClient (sender : Peer) (r : Request) : Server φ → ℕ → List Turn → List Reply
  | _, _, [] => []
  | s, off, t :: ts =>
    match s.processRequest h t.io sender (t.request r off) with
    | (s, ps) =>
      if ∃ p ∈ ps, p.opcode = .RspNak then ps
      else ps ++ listClient sender r s (off + (ps.flatMap Reply.entries).length) ts

/-- The number of the next request is not the one whose answer is kept. -/
def Server.Fresh (s : Server φ) (ts : List Turn) : Prop :=
  ∀ t ∈ ts.head?, ∀ p, s.last_reply = some p → p.seq_number ≠ t.seq_number + 1

theorem Server.Fresh.resent {s : Server φ} {t : Turn} {ts : List Turn}
    (hfresh : s.Fresh (t :: ts)) (r : Request) (off : ℕ) : s.resent (t.request r off) = none := by
  unfold Server.resent
  rw [Option.filter_eq_none_iff]
  intro p hp
  have hne := hfresh t rfl p hp
  rw [decide_eq_true_eq]
  intro hnum
  refine hne (UInt16.toNat_inj.mp ?_)
  have hlt := p.seq_number.toNat_lt
  rw [UInt16.toNat_add, ← hnum]
  exact (Nat.mod_eq_of_lt (by rw [hnum]; exact hlt)).symm

theorem Server.Fresh.next {s : Server φ} {t : Turn} {ts : List Turn}
    (hchain : ((t :: ts).map Turn.seq_number).IsChain (· ≠ ·))
    (hlast : ∀ q, s.last_reply = some q → q.seq_number = t.seq_number + 1) : s.Fresh ts := by
  intro t' ht' q hq heq
  obtain ⟨ts', rfl⟩ : ∃ ts', ts = t' :: ts' := List.head?_eq_some_iff.mp ht'
  refine (List.isChain_cons_cons.mp hchain).1 ?_
  exact (UInt16.add_left_inj 1).mp ((hlast q hq).symm.trans heq)

/-- The replies of a listing that comes to an end with these entries: acknowledgements with at
least one entry each, and the end of the directory. -/
def Received (es : List (List UInt8)) (ps : List Reply) : Prop :=
  ∃ acks nak, ps = acks ++ [nak] ∧ nak.opcode = .RspNak ∧ nak.data = [ErrorCode.EOF.code] ∧
    (∀ p ∈ acks, p.opcode = .RspAck ∧ p.entries ≠ []) ∧ acks.flatMap Reply.entries = es

/-- The client at an offset: it gets the rest of the entries and the end of the directory. -/
theorem listClient_spec (hdir : Lists h.sys dir entries size Good) {r : Request}
    (hopcode : r.opcode = .CmdListDirectory) (hpath : h.requestPath r = dir)
    (hsize : r.size.toNat ≤ kMaxDataLength)
    (hfits : ∀ e ∈ entries, (listed dir size e).length + 1 ≤ kMaxDataLength)
    (hcount : entries.length < 2 ^ 31) (hne : entries ≠ []) (sender : Peer) {ts : List Turn}
    (hmem : ∀ t ∈ ts, t.io.alloc1 ∧ t.io.alloc2)
    (hchain : (ts.map Turn.seq_number).IsChain (· ≠ ·)) {s : Server φ} (hs : Good s.disk.fs)
    (hfresh : s.Fresh ts) {off : ℕ} (hoff : off ≤ entries.length)
    (henough : entries.length - off < ts.length) :
    Received ((entries.drop off).map (listed dir size)) (listClient h sender r s off ts) := by
  induction ts generalizing s off with
  | nil => exact absurd henough (by simp)
  | cons t ts ih =>
    obtain ⟨⟨h₁, h₂⟩, hmem⟩ := List.forall_mem_cons.mp hmem
    have hoffset : (t.request r off).offset.toNat = off :=
      UInt32.toNat_ofNat_of_lt' (by unfold UInt32.size; omega)
    have hexec : s.Executes t.io (t.request r off) :=
      ⟨⟨by rw [h₁, Bool.or_true], by rw [h₂, Bool.or_true]⟩, hsize, hfresh.resent r off⟩
    obtain ⟨p, hout, hgood, hlast, hcases⟩ := list_spec hdir (r := t.request r off) hopcode hpath
      hfits hcount (hoffset.symm ▸ hoff) hexec hs sender
    rw [listClient]
    generalize s.processRequest h t.io sender (t.request r off) = out at hout hgood hlast ⊢
    obtain ⟨s₁, ps₁⟩ := out
    dsimp only at hout hgood hlast ⊢
    subst hout
    rw [hoffset] at hcases
    rcases hcases with ⟨hend, -, hnak, hdata⟩ | ⟨k, hack, hentries, hk, hpos⟩
    · rw [if_pos ⟨p, List.mem_singleton_self p, hnak⟩]
      refine ⟨[], p, rfl, hnak, hdata, by simp, ?_⟩
      rw [hend, List.drop_length]
      rfl
    · have hnot : ¬ ∃ q ∈ [p], q.opcode = .RspNak := by
        rintro ⟨q, hq, hnak⟩
        rw [List.mem_singleton.mp hq] at hnak
        exact absurd (hack.symm.trans hnak) (by decide)
      rw [if_neg hnot]
      have hgot : ([p].flatMap Reply.entries).length = k := by
        rw [List.flatMap_singleton, hentries, List.length_map, List.length_take, List.length_drop]
        omega
      rw [hgot]
      have hfirst := hpos hne
      have hnext : off + k ≤ entries.length := by omega
      obtain ⟨ps, nak, hrest, hnak, hdata, hacks, hall⟩ :=
        ih hmem (List.isChain_of_isChain_cons hchain)
        hgood (Server.Fresh.next hchain hlast) hnext (by rw [List.length_cons] at henough; omega)
      refine ⟨p :: ps, nak, by rw [hrest]; rfl, hnak, hdata, ?_, ?_⟩
      · refine List.forall_mem_cons.mpr ⟨⟨hack, ?_⟩, hacks⟩
        rw [List.flatMap_singleton] at hgot
        exact List.length_pos_iff.mp (by omega)
      · rw [List.flatMap_cons, hall, hentries, ← List.map_append, ← List.drop_drop,
          List.take_append_drop]

theorem Lists.empty (hdir : Lists h.sys dir [] size Good) {r : Request}
    (hopcode : r.opcode = .CmdListDirectory) (hpath : h.requestPath r = dir)
    (hsize : r.size.toNat ≤ kMaxDataLength) (sender : Peer) {s : Server φ}
    (hs : Good s.disk.fs) {t : Turn} {ts : List Turn}
    (hmem : ∀ x ∈ t :: ts, x.io.alloc1 ∧ x.io.alloc2) (hfresh : s.Fresh (t :: ts)) :
    ∃ p, (s.processRequest h t.io sender (t.request r 0)).2 = [p] ∧ p.opcode = .RspAck ∧
      p.entries = [] ∧ Good (s.processRequest h t.io sender (t.request r 0)).1.disk.fs ∧
      ∀ q, (s.processRequest h t.io sender (t.request r 0)).1.last_reply = some q →
        q.seq_number = t.seq_number + 1 := by
  obtain ⟨h₁, h₂⟩ := hmem t List.mem_cons_self
  have hexec : s.Executes t.io (t.request r 0) :=
    ⟨⟨by rw [h₁, Bool.or_true], by rw [h₂, Bool.or_true]⟩, hsize, hfresh.resent r 0⟩
  obtain ⟨p, hout, hgood, hlast, ⟨-, hne, -⟩ | ⟨k, hack, hentries, -, -⟩⟩ :=
    list_spec hdir (r := t.request r 0) hopcode hpath (by simp) (by simp) (Nat.zero_le _) hexec hs
      sender
  · exact absurd rfl hne
  · refine ⟨p, hout, hack, ?_, hgood, hlast⟩
    rw [hentries, List.drop_nil, List.take_nil]
    rfl

/-- However often the client asks for a directory without entries, it is not refused. -/
theorem listClient_empty (hdir : Lists h.sys dir [] size Good) {r : Request}
    (hopcode : r.opcode = .CmdListDirectory) (hpath : h.requestPath r = dir)
    (hsize : r.size.toNat ≤ kMaxDataLength) (sender : Peer) {ts : List Turn}
    (hmem : ∀ t ∈ ts, t.io.alloc1 ∧ t.io.alloc2)
    (hchain : (ts.map Turn.seq_number).IsChain (· ≠ ·)) {s : Server φ} (hs : Good s.disk.fs)
    (hfresh : s.Fresh ts) : ∀ p ∈ listClient h sender r s 0 ts, p.opcode = .RspAck := by
  induction ts generalizing s with
  | nil => simp [listClient]
  | cons t ts ih =>
    obtain ⟨p, hout, hack, hentries, hgood, hlast⟩ := hdir.empty hopcode hpath hsize sender hs hmem
      hfresh
    rw [listClient]
    generalize s.processRequest h t.io sender (t.request r 0) = out at hout hgood hlast ⊢
    obtain ⟨s₁, ps₁⟩ := out
    dsimp only at hout hgood hlast ⊢
    subst hout
    have hrest := ih (List.forall_mem_cons.mp hmem).2 (List.isChain_of_isChain_cons hchain) hgood
      (Server.Fresh.next hchain hlast)
    have hzero : 0 + ([p].flatMap Reply.entries).length = 0 := by
      rw [List.flatMap_singleton, hentries]
      rfl
    rw [hzero]
    split
    · exact fun q hq => List.mem_singleton.mp hq ▸ hack
    · exact List.forall_mem_cons.mpr ⟨hack, hrest⟩

/-- The turns of a client that has the server for itself: there is memory, and the numbers of
the requests are new ones. -/
structure Server.Turns (s : Server φ) (ts : List Turn) : Prop where
  memory : ∀ t ∈ ts, t.io.alloc1 ∧ t.io.alloc2
  numbers : (ts.map Turn.seq_number).IsChain (· ≠ ·)
  fresh : s.Fresh ts

/-- For every directory whose entries each have room in a reply: a request for a directory
without entries is acknowledged, without entries; and of a directory with entries the client
receives all of them, once and in their order, with at least one in every acknowledgement, and
then the end of the directory. -/
theorem directory_listed (hdir : Lists h.sys dir entries size Good) {r : Request}
    (hopcode : r.opcode = .CmdListDirectory) (hpath : h.requestPath r = dir)
    (hsize : r.size.toNat ≤ kMaxDataLength)
    (hfits : ∀ e ∈ entries, (listed dir size e).length + 1 ≤ kMaxDataLength)
    (hcount : entries.length < 2 ^ 31) (sender : Peer) {s : Server φ} (hs : Good s.disk.fs)
    {ts : List Turn} (hts : s.Turns ts) :
    (entries = [] → ∀ t ∈ ts.head?, ∃ p,
      (s.processRequest h t.io sender (t.request r 0)).2 = [p] ∧ p.opcode = .RspAck ∧
        p.entries = []) ∧
      (entries ≠ [] → entries.length < ts.length →
        Received (entries.map (listed dir size)) (listClient h sender r s 0 ts)) := by
  constructor
  · rintro hempty t ht
    obtain ⟨ts', rfl⟩ := List.head?_eq_some_iff.mp ht
    subst hempty
    obtain ⟨p, hout, hack, hentries, -⟩ := hdir.empty hopcode hpath hsize sender hs
      hts.memory hts.fresh
    exact ⟨p, hout, hack, hentries⟩
  · intro hne hmany
    exact listClient_spec hdir hopcode hpath hsize hfits hcount hne sender hts.memory hts.numbers hs
      hts.fresh (Nat.zero_le _) hmany

/-- The turns of a client that numbers its requests downwards. -/
def turns : ℕ → List Turn
  | 0 => []
  | n + 1 => ⟨UInt16.ofNat n, .ok 1⟩ :: turns n

theorem turns_init {φ : Type} (fs : φ) (n : ℕ) : (Server.init fs).Turns (turns n) := by
  refine ⟨?_, ?_, fun _ _ p hp => absurd hp (by simp [Server.init])⟩
  · induction n with
    | zero => simp [turns]
    | succ n ih => exact List.forall_mem_cons.mpr ⟨⟨rfl, rfl⟩, ih⟩
  · induction n with
    | zero => exact .nil
    | succ n ih =>
      cases n with
      | zero => exact .singleton _
      | succ n =>
        refine .cons_cons ?_ ih
        change UInt16.ofNat (n + 1) ≠ UInt16.ofNat n
        rw [UInt16.ofNat_add, ne_eq, UInt16.add_eq_left]
        decide

theorem length_turns (n : ℕ) : (turns n).length = n := by
  induction n with
  | zero => rfl
  | succ n ih => rw [turns, List.length_cons, ih]

/-- A file system in which `a` is a directory with the given files. -/
def ramDirectory (files : List (Path × List UInt8)) : Ram := ⟨files, [['a'.toUInt8]], none⟩

/-- A file in `a` with a long name and two bytes. -/
def longFile (c : Char) : Path × List UInt8 :=
  ('a'.toUInt8 :: '/'.toUInt8 :: List.replicate 110 c.toUInt8, [7, 7])

def longEntry (c : Char) : Entry := ⟨List.replicate 110 c.toUInt8, .file⟩

def threeFiles : Ram := ramDirectory (['b', 'c', 'd'].map longFile)

/-- The names of the three files are too long for one reply. -/
theorem files_listed :
    Received ((['b', 'c', 'd'].map longEntry).map (listed ['a'.toUInt8] fun _ => 2))
      (listClient ramHost ⟨255, 1⟩ (.about 0 0 .CmdListDirectory) (Server.init threeFiles) 0
        (turns 4)) := by
  have hdir : Lists ramHost.sys ['a'.toUInt8] (['b', 'c', 'd'].map longEntry) (fun _ => 2)
      (· = threeFiles) := by
    refine ⟨?_, ?_, ?_⟩
    · rintro _ rfl
      exact ⟨_, by rfl, rfl⟩
    · rintro _ e rfl he
      refine ⟨_, .ok ⟨2, true, true⟩, ?_, rfl, ?_, ?_⟩
      · simp only [List.map_cons, List.map_nil, List.mem_cons, List.not_mem_nil, or_false] at he
        obtain rfl | rfl | rfl := he <;> rfl
      · rintro x ⟨⟩
        rfl
      · rintro x ⟨⟩
    · decide
  exact (directory_listed hdir rfl rfl (by decide) (by decide +kernel) (by decide) ⟨255, 1⟩ rfl
    (turns_init threeFiles 4)).2 (List.cons_ne_nil _ _) (by decide)

/-- The client never gets to the end of a directory without entries. -/
theorem empty_directory_listed :
    ¬ ∃ n, ∀ ts, (Server.init (ramDirectory [])).Turns ts → n ≤ ts.length →
      Received [] (listClient ramHost ⟨255, 1⟩ (.about 0 0 .CmdListDirectory)
        (Server.init (ramDirectory [])) 0 ts) := by
  rintro ⟨n, hn⟩
  have hdir : Lists ramHost.sys ['a'.toUInt8] [] (fun _ => 0) (· = ramDirectory []) := by
    refine ⟨?_, by simp, by simp⟩
    rintro _ rfl
    exact ⟨_, rfl, rfl⟩
  have hts := turns_init (ramDirectory []) n
  obtain ⟨acks, nak, hout, hnak, -⟩ := hn (turns n) hts (length_turns n).ge
  have hack := listClient_empty hdir (r := .about 0 0 .CmdListDirectory) rfl rfl (by decide)
    ⟨255, 1⟩ hts.memory hts.numbers (s := Server.init (ramDirectory [])) rfl hts.fresh nak
    (by rw [hout]; exact List.mem_append_right acks List.mem_cons_self)
  exact absurd (hack.symm.trans hnak) (by decide)

end Ftp
