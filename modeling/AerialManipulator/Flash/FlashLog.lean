/-
The entries in flash memory, as a log.

A sector holds a list of entries one after the other, and is blank behind them; entries that have
been replaced are marked as erased.  At most one entry, the last one of its sector, is not.

* `findEntry_live` — from the first sector on, `find_entry` comes to that entry, over the erased
  ones and over what is blank;
* `Holds.erase`, `Holds.append` — what the writes do to the list;
* `length_validEntries` — the entries that are valid are those that have not been erased.
-/
import AerialManipulator.Flash.FlashFs

open ByteStore ByteStream NorFlash

namespace FlashFs

/-- The data of an entry, and whether it has not been erased. -/
structure Entry where
  data : List UInt8
  live : Bool

theorem le_totalSize (data : List UInt8) : data.length + headerSize ≤ totalSize data := by
  unfold totalSize
  omega

theorem totalSize_dvd (data : List UInt8) : 4 ∣ totalSize data := Nat.dvd_mul_left _ _

theorem sizeAdjust_lt (data : List UInt8) : sizeAdjust data < 4 := by
  unfold sizeAdjust totalSize
  omega

section Image

variable (crc32 : List UInt8 → UInt32) (token : UInt32)

def Entry.image (e : Entry) : List UInt8 :=
  littleEndian 4 MagicSig ++
    littleEndian 2 (if e.live then ValidEntry + sizeAdjust e.data else ErasedEntry) ++
    littleEndian 4 (crc32 (entryTail token e.data)).toNat ++ entryTail token e.data

theorem length_entryTail (data : List UInt8) :
    (entryTail token data).length + 10 = totalSize data := by
  have hle := le_totalSize data
  unfold headerSize at hle
  simp only [entryTail, sizeAdjust, headerSize, List.length_append, length_littleEndian,
    List.length_replicate]
  omega

@[simp] theorem Entry.length_image (e : Entry) :
    (e.image crc32 token).length = totalSize e.data := by
  rw [← length_entryTail token]
  simp only [Entry.image, List.length_append, length_littleEndian]
  omega

theorem entryBytes_eq {data : List UInt8} (hsize : totalSize data < 2 ^ 16) :
    (entryBytes crc32 token data).take (totalSize data % 2 ^ 16) =
      Entry.image crc32 token ⟨data, true⟩ := by
  have hle := le_totalSize data
  have htail := length_entryTail token data
  have hcrc : (totalSize data % 2 ^ 16 + 2 ^ 16 - 10) % 2 ^ 16 = (entryTail token data).length := by
    unfold headerSize at hle
    omega
  have himage : entryBytes crc32 token data = Entry.image crc32 token ⟨data, true⟩ := by
    rw [entryBytes, hcrc, List.take_length]
    rfl
  rw [himage, Nat.mod_eq_of_lt hsize]
  exact List.take_of_length_le (Entry.length_image _ _ _).le

end Image

/-! ### Reading one entry -/

section Read

variable {crc32 : List UInt8 → UInt32} {token : UInt32} {m : Mem} {p : ℕ} {e : Entry}
  (hat : At m p (e.image crc32 token)) (hsize : totalSize e.data < 2 ^ 16)
include hat

theorem magic_image : magic m p = MagicSig := by
  unfold Entry.image at hat
  rw [List.append_assoc, List.append_assoc, at_append] at hat
  exact hat.1.word rfl (by decide)

theorem flag_image : flag m p = if e.live then ValidEntry + sizeAdjust e.data else ErasedEntry := by
  have hadj := sizeAdjust_lt e.data
  unfold Entry.image at hat
  rw [List.append_assoc, List.append_assoc, at_append, at_append, length_littleEndian] at hat
  refine hat.2.1.half rfl ?_
  split
  · unfold ValidEntry
    omega
  · decide

theorem crc_image : crc m p = (crc32 (entryTail token e.data)).toNat := by
  unfold Entry.image at hat
  rw [List.append_assoc, List.append_assoc, at_append, at_append, at_append, length_littleEndian,
    length_littleEndian] at hat
  exact hat.2.2.1.word rfl (UInt32.toNat_lt _)

theorem at_entryTail : At m (p + 10) (entryTail token e.data) := by
  unfold Entry.image at hat
  rw [List.append_assoc, List.append_assoc, at_append, at_append, at_append, length_littleEndian,
    length_littleEndian, length_littleEndian] at hat
  exact hat.2.2.2

theorem fileToken_image : fileToken m p = token.toNat := by
  have htail := at_entryTail hat
  unfold entryTail at htail
  rw [List.append_assoc, List.append_assoc, at_append, at_append, length_littleEndian] at htail
  exact htail.2.1.word rfl (UInt32.toNat_lt _)

theorem at_data : At m (entryData p) e.data := by
  have htail := at_entryTail hat
  unfold entryTail at htail
  rw [List.append_assoc, List.append_assoc, at_append, at_append, at_append, length_littleEndian,
    length_littleEndian] at htail
  exact htail.2.2.1

include hsize

theorem size_image : size m p = totalSize e.data := by
  have htail := at_entryTail hat
  unfold entryTail at htail
  rw [List.append_assoc, List.append_assoc, at_append] at htail
  exact htail.1.half rfl hsize

theorem crcOk_image : crcOk crc32 m p = true := by
  have hle := le_totalSize e.data
  have hlen := length_entryTail token e.data
  have hcrc : entryCrcLength m p = (entryTail token e.data).length := by
    unfold headerSize at hle
    rw [entryCrcLength, size_image hat hsize]
    omega
  have hslice : slice m (p + 10) (entryTail token e.data).length = entryTail token e.data :=
    at_entryTail hat
  rw [crcOk, hcrc, hslice, crc_image hat]
  exact decide_eq_true rfl

theorem nextEntry_image : nextEntry m p = p + totalSize e.data := by
  rw [nextEntry, size_image hat hsize]

end Read

section Flag

variable {crc32 : List UInt8 → UInt32} {token : UInt32} {m : Mem} {p : ℕ} {data : List UInt8}

theorem validEntry_live (hat : At m p (Entry.image crc32 token ⟨data, true⟩)) :
    validEntry m p = true ∧ entrySizeAdjust m p = sizeAdjust data := by
  have hflag : flag m p = ValidEntry + sizeAdjust data := flag_image hat
  have hadj := sizeAdjust_lt data
  rw [validEntry, entrySizeAdjust, hflag]
  generalize sizeAdjust data = adj at hadj
  obtain rfl | rfl | rfl | rfl : adj = 0 ∨ adj = 1 ∨ adj = 2 ∨ adj = 3 := by omega
  all_goals decide

theorem validEntry_erased (hat : At m p (Entry.image crc32 token ⟨data, false⟩)) :
    validEntry m p = false := by
  have hflag : flag m p = ErasedEntry := flag_image hat
  rw [validEntry, hflag]
  decide

theorem slice_data (hat : At m p (Entry.image crc32 token ⟨data, true⟩))
    (hsize : totalSize data < 2 ^ 16) : slice m (entryData p) (entryDataLength m p) = data := by
  have hle := le_totalSize data
  have hlen : entryDataLength m p = data.length := by
    rw [entryDataLength, size_image hat hsize, (validEntry_live hat).2]
    dsimp only
    unfold sizeAdjust
    omega
  rw [hlen]
  exact at_data hat

end Flag

/-! ### Searching -/

section Search

variable (crc32 : List UInt8 → UInt32) (token : UInt32) (m : Mem) (live : ℕ)

/-- From an address on there are only erased entries and blank words up to the live entry. -/
inductive Path : ℕ → Prop
  | here : Path live
  | entry {p : ℕ} (data : List UInt8) (hat : At m p (Entry.image crc32 token ⟨data, false⟩))
      (hsize : totalSize data < 2 ^ 16) (next : Path (p + totalSize data)) : Path p
  | blank {p : ℕ} (hword : word m p = BlankSig) (next : Path (p + 4)) : Path p

variable {crc32 token m live}

theorem Path.le {p : ℕ} (h : Path crc32 token m live p) : p ≤ live := by
  induction h with
  | here => exact le_rfl
  | entry data hat hsize next ih => omega
  | blank hword next ih => omega

theorem findIn_of_live {data : List UInt8} {p pe : ℕ}
    (hat : At m p (Entry.image crc32 token ⟨data, true⟩)) (hsize : totalSize data < 2 ^ 16)
    (hpe : p ≠ pe) (fuel : ℕ) : findIn crc32 m token pe (fuel + 1) p = some (some p) := by
  have hmagic : validMagic m p = true := decide_eq_true (magic_image hat)
  rw [findIn, if_neg hpe, hmagic, if_neg (by decide), if_pos (crcOk_image hat hsize),
    if_pos ⟨(validEntry_live hat).1, fileToken_image hat⟩]

theorem findIn_of_erased {data : List UInt8} {p pe : ℕ}
    (hat : At m p (Entry.image crc32 token ⟨data, false⟩)) (hsize : totalSize data < 2 ^ 16)
    (hpe : p ≠ pe) (fuel : ℕ) :
    findIn crc32 m token pe (fuel + 1) p =
      if blankEntry m (p + totalSize data) then some none
      else findIn crc32 m token pe fuel (p + totalSize data) := by
  have hmagic : validMagic m p = true := decide_eq_true (magic_image hat)
  have hvalid : ¬ (validEntry m p = true ∧ fileToken m p = token.toNat) := by
    rw [validEntry_erased hat]
    simp
  rw [findIn, if_neg hpe, hmagic, if_neg (by decide), if_pos (crcOk_image hat hsize),
    if_neg hvalid, nextEntry_image hat hsize]

/-- On the way to the live entry, the hunt ends at the end of the sector or at that entry. -/
theorem Path.findIn {p : ℕ} (h : Path crc32 token m live p) {data : List UInt8}
    (hlive : At m live (Entry.image crc32 token ⟨data, true⟩)) (hsize : totalSize data < 2 ^ 16)
    (pe : ℕ) {fuel : ℕ} (hfuel : live < p + 4 * fuel) :
    findIn crc32 m token pe fuel p = some none ∨
      findIn crc32 m token pe fuel p = some (some live) := by
  induction h generalizing fuel with
  | here =>
    obtain ⟨fuel, rfl⟩ : ∃ n, fuel = n + 1 := Nat.exists_eq_succ_of_ne_zero (by omega)
    by_cases hpe : live = pe
    · exact .inl (by rw [FlashFs.findIn, if_pos hpe])
    · exact .inr (findIn_of_live hlive hsize hpe fuel)
  | @entry p erased hat hsize' next ih =>
    have hle := le_totalSize erased
    have hnext := next.le
    unfold headerSize at hle
    obtain ⟨fuel, rfl⟩ : ∃ n, fuel = n + 1 := Nat.exists_eq_succ_of_ne_zero (by omega)
    by_cases hpe : p = pe
    · exact .inl (by rw [FlashFs.findIn, if_pos hpe])
    · rw [findIn_of_erased hat hsize' hpe]
      split
      · exact .inl rfl
      · exact ih (by omega)
  | @blank p hword next ih =>
    have hnext := next.le
    obtain ⟨fuel, rfl⟩ : ∃ n, fuel = n + 1 := Nat.exists_eq_succ_of_ne_zero (by omega)
    have hmagic : validMagic m p = false := by
      rw [validMagic, magic, hword]
      decide
    rw [FlashFs.findIn, hmagic]
    split
    · exact .inl rfl
    · exact ih (by omega)

theorem Path.of_blank {p q : ℕ} (h : Path crc32 token m live q) (hblank : Blank m p q)
    (hdvd : 4 ∣ q - p) (hle : p ≤ q) : Path crc32 token m live p := by
  obtain ⟨n, hn⟩ := hdvd
  induction n generalizing p with
  | zero =>
    obtain rfl : p = q := by omega
    exact h
  | succ n ih =>
    refine .blank (hblank.word_eq (by omega)) (ih (hblank.mono (by omega) le_rfl) ?_ ?_)
    · omega
    · omega

theorem Path.of_erased {p : ℕ} {es : List Entry}
    (hat : At m p (es.flatMap (Entry.image crc32 token)))
    (herased : ∀ e ∈ es, e.live = false ∧ totalSize e.data < 2 ^ 16)
    (h : Path crc32 token m live (p + (es.flatMap (Entry.image crc32 token)).length)) :
    Path crc32 token m live p := by
  induction es generalizing p with
  | nil => exact h
  | cons e es ih =>
    rw [List.flatMap_cons, at_append, Entry.length_image] at hat
    rw [List.flatMap_cons, List.length_append, Entry.length_image, ← Nat.add_assoc] at h
    obtain ⟨he, hes⟩ := List.forall_mem_cons.mp herased
    obtain ⟨data, isLive⟩ := e
    obtain ⟨rfl, hsize⟩ : isLive = false ∧ totalSize data < 2 ^ 16 := he
    exact .entry data hat.1 hsize (ih hat.2 hes h)

theorem findIn_log {p pe : ℕ} {es : List Entry} {data : List UInt8}
    (hat : At m p (es.flatMap (Entry.image crc32 token) ++ Entry.image crc32 token ⟨data, true⟩))
    (herased : ∀ e ∈ es, e.live = false ∧ totalSize e.data < 2 ^ 16)
    (hsize : totalSize data < 2 ^ 16)
    (hlive : live = p + (es.flatMap (Entry.image crc32 token)).length) (hpe : live < pe)
    {fuel : ℕ} (hfuel : live < p + 4 * fuel) :
    findIn crc32 m token pe fuel p = some (some live) := by
  induction es generalizing p fuel with
  | nil =>
    obtain rfl : live = p := hlive
    rw [List.flatMap_nil, List.nil_append] at hat
    obtain ⟨fuel, rfl⟩ : ∃ n, fuel = n + 1 := Nat.exists_eq_succ_of_ne_zero (by omega)
    exact findIn_of_live hat hsize hpe.ne fuel
  | cons e es ih =>
    rw [List.flatMap_cons, List.append_assoc, at_append, Entry.length_image] at hat
    rw [List.flatMap_cons, List.length_append, Entry.length_image] at hlive
    obtain ⟨he, hes⟩ := List.forall_mem_cons.mp herased
    obtain ⟨erased, isLive⟩ := e
    obtain ⟨rfl, hsize'⟩ : isLive = false ∧ totalSize erased < 2 ^ 16 := he
    have hle := le_totalSize erased
    unfold headerSize at hle
    dsimp only at hat hlive
    obtain ⟨fuel, rfl⟩ : ∃ n, fuel = n + 1 := Nat.exists_eq_succ_of_ne_zero (by omega)
    -- what follows is an entry, so it is not blank
    have hmagic : magic m (p + totalSize erased) = MagicSig := by
      cases es with
      | nil =>
        rw [List.flatMap_nil, List.nil_append] at hat
        exact magic_image hat.2
      | cons e' es' =>
        rw [List.flatMap_cons, List.append_assoc, at_append] at hat
        exact magic_image hat.2.1
    have hblank : blankEntry m (p + totalSize erased) = false := by
      rw [blankEntry, hmagic]
      rfl
    rw [findIn_of_erased hat.1 hsize' (by omega), hblank, if_neg (by decide)]
    exact ih hat.2 hes (by omega) (by omega)

end Search

/-! ### Sectors -/

/-- What the sectors of a board are like: they follow one another in memory and consist of whole
words, an entry that fits into one of them has a size of 16 bits, and they are blocks of the
device. -/
structure SectorMapOk (dev : Progmem) (sector_map : List SectorDescriptor) : Prop where
  contiguous : sector_map.IsChain fun s t => t.address = s.address + s.size
  address_dvd : ∀ s ∈ sector_map, 4 ∣ s.address
  size_dvd : ∀ s ∈ sector_map, 4 ∣ s.size
  size_pos : ∀ s ∈ sector_map, 0 < s.size
  size_lt : ∀ s ∈ sector_map, s.size < 2 ^ 16
  page_pos : ∀ s ∈ sector_map, 0 < s.page
  block : ∀ s ∈ sector_map, dev.HasBlock s.page s.address s.size

section Holds

variable (crc32 : List UInt8 → UInt32) (token : UInt32)

def images (es : List Entry) : List UInt8 := es.flatMap (Entry.image crc32 token)

/-- A sector holds some entries, and is blank behind them. -/
structure Holds (m : Mem) (s : SectorDescriptor) (es : List Entry) : Prop where
  size : ∀ e ∈ es, totalSize e.data < 2 ^ 16
  laid : At m s.address (images crc32 token es)
  room : (images crc32 token es).length ≤ s.size
  rest : Blank m (s.address + (images crc32 token es).length) (s.address + s.size)

/-- All entries of a sector have been erased. -/
def Dead (m : Mem) (s : SectorDescriptor) : Prop :=
  ∃ es, Holds crc32 token m s es ∧ ∀ e ∈ es, e.live = false

variable {crc32 token} {m m' : Mem} {s t : SectorDescriptor} {es : List Entry}

theorem images_append (es fs : List Entry) :
    images crc32 token (es ++ fs) = images crc32 token es ++ images crc32 token fs :=
  List.flatMap_append

theorem images_single (e : Entry) : images crc32 token [e] = e.image crc32 token :=
  List.flatMap_singleton _ _

theorem length_images_dvd (es : List Entry) : 4 ∣ (images crc32 token es).length := by
  induction es with
  | nil => exact Nat.dvd_zero 4
  | cons e es ih =>
    rw [images, List.flatMap_cons, List.length_append, Entry.length_image]
    exact Nat.dvd_add (totalSize_dvd _) ih

theorem Holds.congr (h : Holds crc32 token m s es)
    (heq : ∀ x, s.address ≤ x → x < s.address + s.size → m' x = m x) :
    Holds crc32 token m' s es := by
  have hroom := h.room
  exact ⟨h.size, h.laid.congr fun x h₁ h₂ => heq x h₁ (by omega), h.room,
    h.rest.congr fun x h₁ h₂ => heq x (by omega) h₂⟩

theorem Dead.congr (h : Dead crc32 token m s)
    (heq : ∀ x, s.address ≤ x → x < s.address + s.size → m' x = m x) : Dead crc32 token m' s := by
  obtain ⟨es, hes, herased⟩ := h
  exact ⟨es, hes.congr heq, herased⟩

theorem holds_nil (h : Blank m s.address (s.address + s.size)) : Holds crc32 token m s [] :=
  ⟨by simp, rfl, Nat.zero_le _, h⟩

/-- From the beginning of a sector on, over all of its entries and what is blank behind them. -/
theorem Dead.path (h : Dead crc32 token m s) (hsize : 4 ∣ s.size) {live : ℕ}
    (hnext : Path crc32 token m live (s.address + s.size)) :
    Path crc32 token m live s.address := by
  obtain ⟨es, ⟨hsizes, hlaid, hroom, hrest⟩, herased⟩ := h
  have hdvd : 4 ∣ (images crc32 token es).length := length_images_dvd es
  refine Path.of_erased hlaid (fun e he => ⟨herased e he, hsizes e he⟩) ?_
  refine Path.of_blank hnext hrest ?_ (Nat.add_le_add_left hroom _)
  change 4 ∣ s.address + s.size - (s.address + (images crc32 token es).length)
  omega

end Holds

section Find

variable {dev : Progmem} {crc32 : List UInt8 → UInt32} {token : UInt32} {m : Mem}

theorem SectorMapOk.disjoint {pre post : List SectorDescriptor} {s : SectorDescriptor}
    (hmap : SectorMapOk dev (pre ++ s :: post)) :
    (∀ t ∈ pre, t.address + t.size ≤ s.address) ∧ ∀ t ∈ post, s.address + s.size ≤ t.address := by
  have hchain := hmap.contiguous.imp fun s t h => h.ge
  have : IsTrans SectorDescriptor fun s t => s.address + s.size ≤ t.address :=
    ⟨fun a b c hab hbc => by omega⟩
  have hpair := List.pairwise_append.mp hchain.pairwise
  refine ⟨fun t ht => hpair.2.2 t ht s List.mem_cons_self, fun t ht => ?_⟩
  exact (List.pairwise_cons.mp hpair.2.1).1 t ht

theorem path_of_pre {pre post : List SectorDescriptor} {s : SectorDescriptor} {live : ℕ}
    (hmap : SectorMapOk dev (pre ++ s :: post)) (hpre : ∀ t ∈ pre, Dead crc32 token m t)
    (hs : Path crc32 token m live s.address) : ∀ t ∈ pre, Path crc32 token m live t.address := by
  induction pre with
  | nil => exact fun t ht => absurd ht (by simp)
  | cons t pre ih =>
    obtain ⟨hdead, hpre⟩ := List.forall_mem_cons.mp hpre
    have hmap' : SectorMapOk dev (pre ++ s :: post) := by
      obtain ⟨h₁, h₂, h₃, h₄, h₅, h₆, h₇⟩ := hmap
      have htail : ∀ x ∈ pre ++ s :: post, x ∈ (t :: pre) ++ s :: post := fun x hx =>
        List.mem_cons_of_mem _ hx
      exact ⟨(List.isChain_cons.mp h₁).2, fun x hx => h₂ x (htail x hx),
        fun x hx => h₃ x (htail x hx), fun x hx => h₄ x (htail x hx),
        fun x hx => h₅ x (htail x hx), fun x hx => h₆ x (htail x hx),
        fun x hx => h₇ x (htail x hx)⟩
    have hrest := ih hmap' hpre
    refine List.forall_mem_cons.mpr ⟨?_, hrest⟩
    refine hdead.path (hmap.size_dvd t List.mem_cons_self) ?_
    -- the next sector begins where this one ends
    cases pre with
    | nil =>
      have hnext : s.address = t.address + t.size := (List.isChain_cons_cons.mp hmap.contiguous).1
      rw [← hnext]
      exact hs
    | cons u pre =>
      have hnext : u.address = t.address + t.size := (List.isChain_cons_cons.mp hmap.contiguous).1
      rw [← hnext]
      exact hrest u List.mem_cons_self

/-- The live entry is the last one of its sector. -/
structure Live (crc32 : List UInt8 → UInt32) (token : UInt32) (m : Mem)
    (sector_map : List SectorDescriptor) (data : List UInt8) (pre post : List SectorDescriptor)
    (s : SectorDescriptor) (old : List Entry) : Prop where
  split : sector_map = pre ++ s :: post
  pre : ∀ t ∈ pre, Dead crc32 token m t
  post : ∀ t ∈ post, Dead crc32 token m t
  holds : Holds crc32 token m s (old ++ [⟨data, true⟩])
  old : ∀ e ∈ old, e.live = false

/-- Enough turns for the way over all sectors. -/
def Enough (sector_map : List SectorDescriptor) (fuel : ℕ) : Prop :=
  ∀ s ∈ sector_map, ∀ t ∈ sector_map, t.address + t.size ≤ s.address + 4 * fuel

variable {sector_map pre post : List SectorDescriptor} {data : List UInt8} {s : SectorDescriptor}
  {old : List Entry} {fuel : ℕ}

theorem Live.at_entry (h : Live crc32 token m sector_map data pre post s old) :
    At m (s.address + (images crc32 token old).length) (Entry.image crc32 token ⟨data, true⟩) ∧
      totalSize data < 2 ^ 16 ∧
      s.address + (images crc32 token old).length + totalSize data ≤ s.address + s.size := by
  have hlaid := h.holds.laid
  have hroom := h.holds.room
  rw [images_append, images_single] at hlaid hroom
  rw [at_append] at hlaid
  rw [List.length_append, Entry.length_image] at hroom
  refine ⟨hlaid.2, h.holds.size _ (List.mem_append_right _ List.mem_cons_self), ?_⟩
  change _ + totalSize data ≤ _ at hroom
  omega

theorem findEntry_append {live : ℕ}
    (hpre : ∀ t ∈ pre, findIn crc32 m token t.pe fuel t.address = some none ∨
      findIn crc32 m token t.pe fuel t.address = some (some live))
    (hs : findIn crc32 m token s.pe fuel s.address = some (some live)) :
    findEntry crc32 m token fuel (pre ++ s :: post) = some (some live) := by
  induction pre with
  | nil => rw [List.nil_append, findEntry, hs]
  | cons t pre ih =>
    obtain ⟨ht, hpre⟩ := List.forall_mem_cons.mp hpre
    rw [List.cons_append, findEntry]
    rcases ht with ht | ht
    · rw [ht]
      exact ih hpre
    · rw [ht]

theorem findEntry_live (hmap : SectorMapOk dev sector_map) (hfuel : Enough sector_map fuel)
    (h : Live crc32 token m sector_map data pre post s old) :
    findEntry crc32 m token fuel sector_map =
      some (some (s.address + (images crc32 token old).length)) := by
  obtain ⟨hat, hsize, hend⟩ := h.at_entry
  have hle := le_totalSize data
  unfold headerSize at hle
  have hold : ∀ e ∈ old, e.live = false ∧ totalSize e.data < 2 ^ 16 := fun e he =>
    ⟨h.old e he, h.holds.size e (List.mem_append_left _ he)⟩
  have hlaid := h.holds.laid
  rw [images_append, images_single] at hlaid
  have hpath : Path crc32 token m (s.address + (images crc32 token old).length) s.address :=
    Path.of_erased (at_append.mp hlaid).1 hold .here
  obtain rfl := h.split
  have hmem : s ∈ pre ++ s :: post := List.mem_append_right _ List.mem_cons_self
  have hnear : ∀ t ∈ pre ++ s :: post,
      s.address + (images crc32 token old).length < t.address + 4 * fuel := by
    intro t ht
    have hturns := hfuel t ht s hmem
    omega
  refine findEntry_append (fun t ht => ?_) ?_
  · exact (path_of_pre hmap h.pre hpath t ht).findIn hat hsize _
      (hnear t (List.mem_append_left _ ht))
  · have hpe : s.address + (images crc32 token old).length < s.pe := by
      have hdvd := hmap.size_dvd s hmem
      unfold SectorDescriptor.pe
      omega
    exact findIn_log hlaid hold hsize rfl hpe (hnear s hmem)

end Find

/-! ### Erasing and appending -/

section Write

variable {crc32 : List UInt8 → UInt32} {token : UInt32} {m : Mem} {s : SectorDescriptor}
  {es old : List Entry} {data : List UInt8}

theorem at_erased {p : ℕ} (hat : At m p (Entry.image crc32 token ⟨data, true⟩)) :
    At (put m (p + 4) (littleEndian 2 ErasedEntry)) p (Entry.image crc32 token ⟨data, false⟩) := by
  unfold Entry.image at hat ⊢
  rw [List.append_assoc, List.append_assoc, at_append, at_append, length_littleEndian,
    length_littleEndian] at hat ⊢
  obtain ⟨hmagic, -, hrest⟩ := hat
  refine ⟨hmagic.put_of_disjoint (.inl ?_), At.put _ _ _, hrest.put_of_disjoint (.inr ?_)⟩
  · rw [length_littleEndian]
  · rw [length_littleEndian]

theorem length_images_flag (old : List Entry) (data : List UInt8) (b : Bool) :
    (images crc32 token (old ++ [⟨data, b⟩])).length =
      (images crc32 token old).length + totalSize data := by
  rw [images_append, images_single, List.length_append, Entry.length_image]

theorem Holds.erase (h : Holds crc32 token m s (old ++ [⟨data, true⟩])) :
    Holds crc32 token
      (put m (s.address + (images crc32 token old).length + 4) (littleEndian 2 ErasedEntry)) s
      (old ++ [⟨data, false⟩]) := by
  obtain ⟨hsize, hlaid, hroom, hrest⟩ := h
  have hle := le_totalSize data
  unfold headerSize at hle
  rw [length_images_flag] at hroom hrest
  rw [images_append, images_single, at_append] at hlaid
  refine ⟨?_, ?_, ?_, ?_⟩
  · intro e he
    rcases List.mem_append.mp he with he | he
    · exact hsize e (List.mem_append_left _ he)
    · rw [List.mem_singleton.mp he]
      exact hsize ⟨data, true⟩ (List.mem_append_right _ List.mem_cons_self)
  · rw [images_append, images_single, at_append]
    exact ⟨hlaid.1.put_of_disjoint (.inl (by omega)), at_erased hlaid.2⟩
  · rwa [length_images_flag]
  · rw [length_images_flag]
    exact hrest.put_of_disjoint (.inr (by rw [length_littleEndian]; omega))

theorem Holds.append (h : Holds crc32 token m s es) (hsize : totalSize data < 2 ^ 16)
    (hroom : (images crc32 token es).length + totalSize data ≤ s.size) (b : Bool) :
    Holds crc32 token
      (put m (s.address + (images crc32 token es).length) (Entry.image crc32 token ⟨data, b⟩)) s
      (es ++ [⟨data, b⟩]) := by
  refine ⟨?_, ?_, ?_, ?_⟩
  · intro e he
    rcases List.mem_append.mp he with he | he
    · exact h.size e he
    · rwa [List.mem_singleton.mp he]
  · rw [images_append, images_single, at_append]
    exact ⟨h.laid.put_of_disjoint (.inl le_rfl), At.put _ _ _⟩
  · rwa [length_images_flag]
  · rw [length_images_flag]
    refine (h.rest.mono (by omega) le_rfl).put_of_disjoint (.inr ?_)
    rw [Entry.length_image]
    dsimp only
    omega

end Write

/-! ### Valid entries -/

section Count

variable (crc32 : List UInt8 → UInt32) (m : Mem) (token : UInt32)

/-- The entries of a sector, one after the other, up to its end. -/
def entriesIn (last : ℕ) : ℕ → ℕ → List ℕ
  | 0, _ => []
  | fuel + 1, p =>
    if p < last ∧ validMagic m p ∧ crcOk crc32 m p then p :: entriesIn last fuel (nextEntry m p)
    else []

def validEntries (sector_map : List SectorDescriptor) : List ℕ :=
  sector_map.flatMap fun s =>
    (entriesIn crc32 m (s.address + s.size) s.size s.address).filter fun p =>
      validEntry m p && fileToken m p = token.toNat

variable {crc32 m token}

theorem length_entriesIn {last p : ℕ} {es : List Entry} (hat : At m p (images crc32 token es))
    (hsize : ∀ e ∈ es, totalSize e.data < 2 ^ 16)
    (hlast : p + (images crc32 token es).length ≤ last)
    (hrest : Blank m (p + (images crc32 token es).length) last) (hdvd : 4 ∣ last - p) {fuel : ℕ}
    (hfuel : last ≤ p + fuel) :
    ((entriesIn crc32 m last fuel p).filter fun p =>
      validEntry m p && fileToken m p = token.toNat).length = es.countP (·.live) := by
  induction es generalizing p fuel with
  | nil =>
    -- behind the entries the flash is blank, or the sector ends
    have hstop : entriesIn crc32 m last fuel p = [] := by
      cases fuel with
      | zero => rfl
      | succ fuel =>
        rw [entriesIn, if_neg]
        rintro ⟨hlt, hmagic, -⟩
        have hblank : magic m p = BlankSig := hrest.word_eq (by simp [images]; omega)
        rw [validMagic, hblank] at hmagic
        exact nomatch hmagic
    rw [hstop]
    rfl
  | cons e es ih =>
    have hle := le_totalSize e.data
    unfold headerSize at hle
    have hlen : (images crc32 token (e :: es)).length =
        totalSize e.data + (images crc32 token es).length := by
      rw [images, List.flatMap_cons, List.length_append, Entry.length_image, images]
    rw [images, List.flatMap_cons, at_append, Entry.length_image] at hat
    rw [hlen] at hlast hrest
    obtain ⟨he, hes⟩ := List.forall_mem_cons.mp hsize
    obtain ⟨fuel, rfl⟩ : ∃ n, fuel = n + 1 := Nat.exists_eq_succ_of_ne_zero (by omega)
    have hdvd' := totalSize_dvd e.data
    rw [← Nat.add_assoc] at hlast hrest
    have hturns : last ≤ p + totalSize e.data + fuel := by omega
    have hnext := ih hat.2 hes hlast hrest (by omega) hturns
    rw [entriesIn, if_pos ⟨by omega, decide_eq_true (magic_image hat.1), crcOk_image hat.1 he⟩,
      nextEntry_image hat.1 he, List.filter_cons, fileToken_image hat.1, List.countP_cons]
    obtain ⟨data, isLive⟩ := e
    cases isLive with
    | true =>
      rw [(validEntry_live hat.1).1]
      simpa using hnext
    | false =>
      rw [validEntry_erased hat.1]
      simpa using hnext

variable {dev : Progmem} {sector_map pre post : List SectorDescriptor} {s : SectorDescriptor}
  {data : List UInt8} {old es : List Entry}

theorem Holds.length_entries (h : Holds crc32 token m s es) (hdvd : 4 ∣ s.size) :
    ((entriesIn crc32 m (s.address + s.size) s.size s.address).filter fun p =>
      validEntry m p && fileToken m p = token.toNat).length = es.countP (·.live) :=
  length_entriesIn h.laid h.size (Nat.add_le_add_left h.room _) h.rest (by omega) le_rfl

theorem validEntries_dead (hdvd : ∀ s ∈ sector_map, 4 ∣ s.size)
    (h : ∀ s ∈ sector_map, Dead crc32 token m s) : validEntries crc32 m token sector_map = [] := by
  rw [validEntries, List.flatMap_eq_nil_iff]
  intro s hs
  obtain ⟨es, hes, herased⟩ := h s hs
  rw [← List.length_eq_zero_iff, hes.length_entries (hdvd s hs), List.countP_eq_zero]
  intro e he
  rw [herased e he]
  decide

theorem length_validEntries (hdvd : ∀ s ∈ sector_map, 4 ∣ s.size)
    (h : Live crc32 token m sector_map data pre post s old) :
    (validEntries crc32 m token sector_map).length = 1 := by
  obtain ⟨rfl, hpre, hpost, hholds, hold⟩ := h
  have hs := hdvd s (List.mem_append_right _ List.mem_cons_self)
  have hcount : (old ++ [⟨data, true⟩] : List Entry).countP (·.live) = 1 := by
    rw [List.countP_append, List.countP_eq_zero.mpr]
    · rfl
    · intro e he
      rw [hold e he]
      decide
  have hbefore := validEntries_dead (fun t ht => hdvd t (List.mem_append_left _ ht)) hpre
  have hbehind := validEntries_dead
    (fun t ht => hdvd t (List.mem_append_right _ (List.mem_cons_of_mem _ ht))) hpost
  unfold validEntries at hbefore hbehind ⊢
  rw [List.flatMap_append, List.flatMap_cons, hbefore, hbehind, List.nil_append, List.append_nil,
    hholds.length_entries hs, hcount]

end Count

end FlashFs
