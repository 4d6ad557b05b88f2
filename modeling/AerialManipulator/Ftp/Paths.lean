/-
Paths in requests.

The paths that a request is about are strings in its data.  `_data_as_cstring` ends the first of
them with a zero byte; `_workRename` looks for a second one behind it, unless the first one fills
the whole data.  Where the data is as long as it can be, the zero byte takes the place of the last
one, so that the first string is not as long as the data and a second one is looked for all the
same.

A handler puts the root directory and the string into a work buffer, which it hands to the file
system.  All of them see to it that it ends with a zero byte, but for `_workOpen`: there a string
that fills the buffer is read on behind it.

* `dataAsCstring_eq` — the string is that of the memory;
* **`pathReads_iff`** — nothing is read behind the data or a work buffer but in these two cases.
-/
import AerialManipulator.Ftp.MavlinkFtp

open CString FileSystem

namespace Ftp

variable {φ : Type} (h : Host φ) (s : Server φ) (r : Request)

/-- The paths that a handler hands to the file system, each with the length of its buffer. -/
def Server.paths : List (ℕ × Path) :=
  match r.opcode with
  | .CmdListDirectory | .CmdRemoveFile | .CmdTruncateFile | .CmdCreateDirectory
  | .CmdRemoveDirectory => [(workBuffer1Len, h.requestPath r)]
  | .CmdOpenFileRO | .CmdCreateFile | .CmdOpenFileWO =>
    if s.session_info.fd ≥ 0 then [] else [(workBuffer1Len, h.openPath r)]
  | .CmdCalcFileCRC32 => [(workBuffer2Len, h.path workBuffer2Len r.dataAsCstring)]
  | .CmdRename =>
    if r.dataAsCstring.length = r.size.toNat then []
    else
      [(workBuffer1Len, h.path workBuffer1Len r.dataAsCstring),
        (workBuffer2Len, h.path workBuffer2Len (h.newPathText r))]
  | _ => []

/-- The bytes of the data that a handler reads for its paths.  `strlen` stops at the zero byte that
has been put into the data. -/
def Server.pathReads : List ℕ :=
  match r.opcode with
  | .CmdListDirectory | .CmdRemoveFile | .CmdTruncateFile | .CmdCreateDirectory
  | .CmdRemoveDirectory => strncpyReads r.cstring 0 (workBuffer1Len - h.root_dir.length)
  | .CmdOpenFileRO | .CmdCreateFile | .CmdOpenFileWO =>
    if s.session_info.fd ≥ 0 then []
    else strncpyReads r.cstring 0 (workBuffer1Len - h.root_dir.length)
  | .CmdCalcFileCRC32 => strncpyReads r.cstring 0 (workBuffer2Len - h.root_dir.length)
  | .CmdRename =>
    strncpyReads r.cstring 0 kMaxDataLength ++
      if r.dataAsCstring.length = r.size.toNat then []
      else
        strncpyReads r.cstring 0 (workBuffer1Len - h.root_dir.length) ++
          strncpyReads r.cstring (r.dataAsCstring.length + 1) (workBuffer2Len - h.root_dir.length)
  | _ => []

/-- A rename whose first path leaves no room for a second one, in data of the greatest length. -/
def Request.RenamesOver : Prop :=
  r.opcode = .CmdRename ∧ r.size.toNat = kMaxDataLength ∧ ∀ i < kMaxDataLength - 1, r.data i ≠ 0

/-- A file is opened whose path leaves no room for a zero byte in the work buffer. -/
def Server.OpensOver : Prop :=
  (r.opcode = .CmdOpenFileRO ∨ r.opcode = .CmdCreateFile ∨ r.opcode = .CmdOpenFileWO) ∧
    s.session_info.fd < 0 ∧
    workBuffer1Len - h.root_dir.length ≤ min r.size.toNat (kMaxDataLength - 1) ∧
    ∀ i < workBuffer1Len - h.root_dir.length, r.data i ≠ 0

variable {h s r}

theorem terminator_lt : r.terminator < kMaxDataLength := by
  unfold Request.terminator
  split
  · assumption
  · decide

theorem cstring_terminator : r.cstring r.terminator = 0 := if_pos rfl

theorem cstring_of_lt {i : ℕ} (hi : i < r.terminator) : r.cstring i = r.data i :=
  if_neg (Nat.ne_of_lt hi)

theorem terminator_eq : r.terminator = min r.size.toNat (kMaxDataLength - 1) := by
  unfold Request.terminator
  split <;> omega

/-! ### The first string -/

theorem dataAsCstring_prefix : r.dataAsCstring <+: r.bytes r.terminator := by
  rw [terminator_eq]
  exact List.takeWhile_prefix _

theorem dataAsCstring_eq_strncpy : r.dataAsCstring = strncpy r.data 0 r.terminator := by
  unfold Request.dataAsCstring strncpy Request.bytes
  rw [terminator_eq]
  simp only [Nat.zero_add]

theorem length_dataAsCstring_le : r.dataAsCstring.length ≤ r.terminator := by
  rw [dataAsCstring_eq_strncpy]
  exact length_strncpy_le_bound

theorem length_dataAsCstring_eq_iff :
    r.dataAsCstring.length = r.terminator ↔ ∀ i < r.terminator, r.data i ≠ 0 := by
  rw [dataAsCstring_eq_strncpy]
  constructor
  · intro hlen i hi
    have hne : r.data (0 + i) ≠ 0 := mem_ne_zero (n := r.terminator) (hlen.symm ▸ hi)
    rwa [Nat.zero_add] at hne
  · intro hne
    rw [strncpy_eq (le_refl _) (fun i hi => ?_) (.inl rfl), List.length_map, List.length_range]
    rw [Nat.zero_add]
    exact hne i hi

theorem first_reads (n : ℕ) : ∀ i ∈ strncpyReads r.cstring 0 n, i < kMaxDataLength := by
  rcases Nat.eq_zero_or_pos n with rfl | hn
  · intro i hi
    unfold strncpyReads at hi
    rw [Nat.zero_min] at hi
    exact nomatch hi
  · have hend : r.cstring (0 + r.terminator) = 0 := by rw [Nat.zero_add]; exact cstring_terminator
    have hlen := length_strncpy_le (n := n) hend
    have hlt := terminator_lt (r := r)
    exact (reads_lt_iff hn).mpr (by omega)

theorem terminator_le_size : r.terminator ≤ r.size.toNat := by
  rw [terminator_eq]
  exact min_le_left _ _

theorem bytes_take {m n : ℕ} (hle : m ≤ n) : (r.bytes n).take m = r.bytes m := by
  unfold Request.bytes
  rw [← List.map_take, List.take_range, min_eq_left hle]

theorem dataAsCstring_prefix_bytes : r.dataAsCstring <+: r.bytes r.size.toNat := by
  refine dataAsCstring_prefix.trans ?_
  rw [← bytes_take terminator_le_size]
  exact List.take_prefix _ _

/-! ### The second string -/

theorem length_second_le (hlt : r.dataAsCstring.length < r.terminator) (n : ℕ) :
    (strncpy r.cstring (r.dataAsCstring.length + 1) n).length ≤
      r.terminator - (r.dataAsCstring.length + 1) := by
  refine length_strncpy_le ?_
  rw [Nat.add_sub_cancel' hlt]
  exact cstring_terminator

theorem second_reads (hlt : r.dataAsCstring.length < r.terminator) (n : ℕ) :
    ∀ i ∈ strncpyReads r.cstring (r.dataAsCstring.length + 1) n, i < kMaxDataLength := by
  rcases Nat.eq_zero_or_pos n with rfl | hn
  · intro i hi
    unfold strncpyReads at hi
    rw [Nat.zero_min] at hi
    exact nomatch hi
  · have hlen := length_second_le hlt n
    have hmax := terminator_lt (r := r)
    exact (reads_lt_iff hn).mpr (by omega)

theorem prefix_newPathText (hlt : r.dataAsCstring.length < r.terminator) :
    h.newPathText r <+: (r.bytes r.size.toNat).drop (r.dataAsCstring.length + 1) := by
  unfold Host.newPathText
  have hlen := length_second_le hlt (workBuffer2Len - h.root_dir.length)
  have hsize := terminator_le_size (r := r)
  generalize hn : workBuffer2Len - h.root_dir.length = n at hlen ⊢
  rw [List.prefix_iff_eq_take]
  refine List.ext_getElem ?_ fun i hi hi' => ?_
  · rw [List.length_take, List.length_drop, Request.bytes, List.length_map, List.length_range]
    omega
  · rw [strncpy_getElem hi, List.getElem_take, List.getElem_drop]
    unfold Request.bytes
    rw [List.getElem_map, List.getElem_range]
    exact cstring_of_lt (by omega)

/-! ### Work buffers -/

theorem path_eq {len : ℕ} (hroot : h.root_dir.length < len) (text : List UInt8) :
    h.path len text = h.root_dir ++ text.take (len - 1 - h.root_dir.length) := by
  unfold Host.path
  rw [List.take_append, List.take_of_length_le (by omega)]

theorem length_path_lt {len : ℕ} (hlen : 0 < len) (text : List UInt8) :
    (h.path len text).length < len := by
  unfold Host.path
  rw [List.length_take]
  omega

theorem root_lt₂ (h : Host φ) : h.root_dir.length < workBuffer2Len :=
  h.root_lt.trans (by decide)

variable (h r) in
/-- A path is in its buffer, and is a part of the data behind the root directory. -/
def Within (p : ℕ × Path) : Prop :=
  p.2.length < p.1 ∧ ∃ t, p.2 = h.root_dir ++ t ∧
    (t <+: r.bytes r.size.toNat ∨ t <+: (r.bytes r.size.toNat).drop (r.dataAsCstring.length + 1))

theorem within_path {len : ℕ} {text : List UInt8} (hroot : h.root_dir.length < len)
    (htext : text <+: r.bytes r.size.toNat ∨
      text <+: (r.bytes r.size.toNat).drop (r.dataAsCstring.length + 1)) :
    Within h r (len, h.path len text) := by
  refine ⟨length_path_lt (by omega) text, _, path_eq hroot text, ?_⟩
  exact htext.imp (List.take_prefix _ _).trans (List.take_prefix _ _).trans

theorem openPath_fits_iff : h.root_dir.length + r.dataAsCstring.length < workBuffer1Len ↔
    ¬ (workBuffer1Len - h.root_dir.length ≤ min r.size.toNat (kMaxDataLength - 1) ∧
      ∀ i < workBuffer1Len - h.root_dir.length, r.data i ≠ 0) := by
  have hroot := h.root_lt
  rw [← terminator_eq, dataAsCstring_eq_strncpy]
  constructor
  · rintro hlt ⟨hle, hne⟩
    have hlen : _ ≤ (strncpy r.data 0 r.terminator).length := le_length_strncpy hle fun i hi => by
      rw [Nat.zero_add]
      exact hne i hi
    omega
  · intro hnot
    by_contra hfull
    refine hnot ⟨?_, fun i hi => ?_⟩
    · have hle : (strncpy r.data 0 r.terminator).length ≤ _ := length_strncpy_le_bound
      omega
    · have hi' : i < (strncpy r.data 0 r.terminator).length := by omega
      have hne := mem_ne_zero hi'
      rwa [Nat.zero_add] at hne

theorem within_openPath_iff : Within h r (workBuffer1Len, h.openPath r) ↔
    ¬ (workBuffer1Len - h.root_dir.length ≤ min r.size.toNat (kMaxDataLength - 1) ∧
      ∀ i < workBuffer1Len - h.root_dir.length, r.data i ≠ 0) := by
  rw [← openPath_fits_iff]
  unfold Within Host.openPath
  dsimp only
  split
  · next hfits =>
    refine iff_of_true ⟨?_, _, rfl, .inl dataAsCstring_prefix_bytes⟩ hfits
    rwa [List.length_append]
  · next hfull =>
    refine iff_of_false (fun hwithin => ?_) hfull
    have hlt := hwithin.1
    rw [List.length_append, List.length_take, List.length_append] at hlt
    omega

/-! ### Requests -/

/-- Where a rename runs over: the first string ends where the zero byte has been put, and is not as
long as the data. -/
theorem renamesOver_iff (hsize : r.size.toNat ≤ kMaxDataLength) (hop : r.opcode = .CmdRename) :
    r.RenamesOver ↔
      r.dataAsCstring.length = r.terminator ∧ r.dataAsCstring.length ≠ r.size.toNat := by
  rw [length_dataAsCstring_eq_iff]
  constructor
  · rintro ⟨-, hmax, hne⟩
    have hterm : r.terminator = kMaxDataLength - 1 := by
      rw [terminator_eq, hmax]
      decide
    refine ⟨fun i hi => hne i (hterm ▸ hi), ?_⟩
    have hle := length_dataAsCstring_le (r := r)
    have hpos : 0 < kMaxDataLength := by decide
    omega
  · rintro ⟨hne, hshort⟩
    have hlen := length_dataAsCstring_eq_iff.mpr hne
    have hmax : r.size.toNat = kMaxDataLength := by
      rw [hlen] at hshort
      unfold Request.terminator at hshort
      split at hshort
      · exact absurd rfl hshort
      · omega
    have hterm : r.terminator = kMaxDataLength - 1 := by
      rw [terminator_eq, hmax]
      decide
    exact ⟨hop, hmax, hterm ▸ hne⟩

theorem reads_of_renamesOver (hover : r.RenamesOver) : kMaxDataLength ∈ s.pathReads h r := by
  have hmax := hover.2.1
  have hterm : r.terminator = kMaxDataLength - 1 := by
    rw [terminator_eq, hmax]
    decide
  have hlen : r.dataAsCstring.length = kMaxDataLength - 1 := by
    rw [← hterm]
    exact length_dataAsCstring_eq_iff.mpr (hterm ▸ hover.2.2)
  have hroot := root_lt₂ h
  unfold Server.pathReads
  rw [hover.1]
  dsimp only
  rw [if_neg (by rw [hlen, hmax]; decide)]
  refine List.mem_append_right _ (List.mem_append_right _ ?_)
  unfold strncpyReads
  refine List.mem_map.mpr ⟨0, List.mem_range.mpr (by omega), ?_⟩
  rw [hlen]
  decide

theorem rename_within (hover : ¬ r.RenamesOver) (hsize : r.size.toNat ≤ kMaxDataLength)
    (hop : r.opcode = .CmdRename) :
    (∀ i ∈ s.pathReads h r, i < kMaxDataLength) ∧ ∀ p ∈ s.paths h r, Within h r p := by
  unfold Server.pathReads Server.paths
  rw [hop]
  dsimp only
  by_cases hshort : r.dataAsCstring.length = r.size.toNat
  · rw [if_pos hshort, if_pos hshort, List.append_nil]
    exact ⟨first_reads _, fun t ht => nomatch ht⟩
  rw [if_neg hshort, if_neg hshort]
  have hlt : r.dataAsCstring.length < r.terminator :=
    lt_of_le_of_ne length_dataAsCstring_le fun hend =>
      hover ((renamesOver_iff hsize hop).mpr ⟨hend, hshort⟩)
  refine ⟨fun i hi => ?_, fun p hp => ?_⟩
  · rcases List.mem_append.mp hi with hi | hi
    · exact first_reads _ i hi
    · exact (List.mem_append.mp hi).elim (first_reads _ i) (second_reads hlt _ i)
  · rcases List.mem_cons.mp hp with rfl | hp
    · exact within_path h.root_lt (.inl dataAsCstring_prefix_bytes)
    · rw [List.mem_singleton.mp hp]
      exact within_path (root_lt₂ h) (.inr (prefix_newPathText hlt))

theorem open_within_iff (hop : r.opcode = .CmdOpenFileRO ∨ r.opcode = .CmdCreateFile ∨
    r.opcode = .CmdOpenFileWO) :
    ((∀ i ∈ s.pathReads h r, i < kMaxDataLength) ∧ ∀ p ∈ s.paths h r, Within h r p) ↔
      ¬ s.OpensOver h r := by
  have hreads : s.pathReads h r = if s.session_info.fd ≥ 0 then []
      else strncpyReads r.cstring 0 (workBuffer1Len - h.root_dir.length) := by
    unfold Server.pathReads
    rcases hop with hop | hop | hop <;> rw [hop]
  have hpaths : s.paths h r = if s.session_info.fd ≥ 0 then []
      else [(workBuffer1Len, h.openPath r)] := by
    unfold Server.paths
    rcases hop with hop | hop | hop <;> rw [hop]
  rw [hreads, hpaths]
  by_cases hfd : s.session_info.fd ≥ 0
  · rw [if_pos hfd, if_pos hfd]
    exact iff_of_true ⟨fun i hi => (nomatch hi), fun p hp => nomatch hp⟩
      fun hover => absurd hfd (not_le.mpr hover.2.1)
  · rw [if_neg hfd, if_neg hfd, and_iff_right (first_reads _), List.forall_mem_singleton,
      within_openPath_iff]
    exact not_congr ⟨fun hover => ⟨hop, not_le.mp hfd, hover⟩, fun hover => hover.2.2⟩

/-- **Nothing is read behind the data or a work buffer, and the paths are parts of the data**,
unless a rename runs over or a file is opened whose path fills the work buffer. -/
theorem pathReads_iff (h : Host φ) (s : Server φ) (r : Request)
    (hsize : r.size.toNat ≤ kMaxDataLength) :
    ((∀ i ∈ s.pathReads h r, i < kMaxDataLength) ∧ ∀ p ∈ s.paths h r, Within h r p) ↔
      ¬ r.RenamesOver ∧ ¬ s.OpensOver h r := by
  have hrename : r.opcode ≠ .CmdRename → ¬ r.RenamesOver := fun hne hover => hne hover.1
  have hopen : ¬ (r.opcode = .CmdOpenFileRO ∨ r.opcode = .CmdCreateFile ∨
      r.opcode = .CmdOpenFileWO) → ¬ s.OpensOver h r := fun hnot hover => hnot hover.1
  have hfirst : ∀ {len : ℕ}, h.root_dir.length < len →
      ∀ p ∈ [(len, h.path len r.dataAsCstring)], Within h r p := fun hroot p hp =>
    List.mem_singleton.mp hp ▸ within_path hroot (.inl dataAsCstring_prefix_bytes)
  cases hop : r.opcode with
  | CmdOpenFileRO | CmdCreateFile | CmdOpenFileWO =>
    rw [open_within_iff (by simp [hop]), and_iff_right (hrename (by simp [hop]))]
  | CmdRename =>
    rw [and_iff_left (hopen (by simp [hop]))]
    refine ⟨fun hread hover => ?_, fun hover => rename_within hover hsize hop⟩
    exact absurd (hread.1 _ (reads_of_renamesOver hover)) (Nat.lt_irrefl _)
  | CmdListDirectory | CmdRemoveFile | CmdTruncateFile | CmdCreateDirectory
  | CmdRemoveDirectory =>
    refine iff_of_true ?_ ⟨hrename (by simp [hop]), hopen (by simp [hop])⟩
    unfold Server.pathReads Server.paths
    rw [hop]
    exact ⟨first_reads _, hfirst h.root_lt⟩
  | CmdCalcFileCRC32 =>
    refine iff_of_true ?_ ⟨hrename (by simp [hop]), hopen (by simp [hop])⟩
    unfold Server.pathReads Server.paths
    rw [hop]
    exact ⟨first_reads _, hfirst (root_lt₂ h)⟩
  | _ =>
    refine iff_of_true ?_ ⟨hrename (by simp [hop]), hopen (by simp [hop])⟩
    unfold Server.pathReads Server.paths
    rw [hop]
    exact ⟨fun i hi => (nomatch hi), fun t ht => nomatch ht⟩

/-- A rename with two paths. -/
theorem pathReads_two :
    let r := { Request.about 1 0 .CmdRename with
      size := 3, data := fun i => if i = 1 then 0 else 97 }
    0 ∈ (Server.init ⟨[], [], none⟩).pathReads ramHost r ∧
      ∀ i ∈ (Server.init ⟨[], [], none⟩).pathReads ramHost r, i < kMaxDataLength := by
  intro r
  refine ⟨by decide, ((pathReads_iff ramHost _ r (by decide)).mpr ⟨fun hover => ?_, ?_⟩).1⟩
  · exact nomatch hover.2.1
  · exact fun hover => nomatch hover.1

/-- A rename with one path of the greatest length: the byte behind the data is read. -/
theorem pathReads_full :
    ¬ ∀ i ∈ (Server.init ⟨[], [], none⟩).pathReads ramHost
      { Request.about 1 0 .CmdRename with size := 239, data := fun _ => 97 }, i < kMaxDataLength :=
  fun hread => Nat.lt_irrefl _ (hread kMaxDataLength (by decide +kernel))

end Ftp
