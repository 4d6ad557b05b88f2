/-
The store of parameters in flash memory.

Every entry has a header with a signature, a flag, a checksum, its size and a token, and is padded
to whole words; the checksum starts behind the flag, so that an entry can be marked as erased.
Entries are appended one after the other.  When a sector is full, the next one is erased and
becomes the first to be used.  The driver of the flash and `crc32` are parameters.

Pointers are addresses.  The loops that hunt for an entry stop at the last word of a sector and
nowhere else, so they get the number of turns as an argument; `none` is a loop that goes on, or
a null pointer that is read through.
-/
import AerialManipulator.Lib.NorFlash

open ByteStore ByteStream NorFlash

namespace FlashFs

def MagicSig : ℕ := 0xaa553cc3
def BlankSig : ℕ := 0xffffffff

def SizeMask : ℕ := 0x0003
/-- `~SizeMask`, as far as it is used. -/
def MaskEntry : ℕ := 0xfffc
def BlankEntry : ℕ := 0xffff
/-- `0xa5ac & ~SizeMask`. -/
def ValidEntry : ℕ := 0xa5ac
def ErasedEntry : ℕ := 0x0000

def ENOENT : ℤ := 2
def ENOSPC : ℤ := 28

structure SectorDescriptor where
  page : ℕ
  size : ℕ
  address : ℕ
  deriving DecidableEq

/-- The size of `flash_entry_header_t`. -/
def headerSize : ℕ := 16

/-! ### Entries -/

section Entry

variable (crc32 : List UInt8 → UInt32) (m : Mem) (pf : ℕ)

/-! The fields of the header. -/

def magic : ℕ := word m pf
def flag : ℕ := half m (pf + 4)
def crc : ℕ := word m (pf + 6)
def size : ℕ := half m (pf + 10)
def fileToken : ℕ := word m (pf + 12)

def validMagic : Bool := magic m pf = MagicSig

def blankMagic : Bool := magic m pf = BlankSig

def blankCheck (new_size : ℕ) : Bool :=
  (List.range (new_size / 4)).all fun i => word m (pf + 4 * i) = BlankSig

def blankEntry : Bool := magic m pf = BlankSig && flag m pf = BlankEntry

def validEntry : Bool := flag m pf &&& MaskEntry = ValidEntry

def entrySizeAdjust : ℕ := flag m pf &&& SizeMask

def nextEntry : ℕ := pf + size m pf

def entryData : ℕ := pf + headerSize

def entryDataLength : ℕ := (size m pf + 2 ^ 16 - (headerSize + entrySizeAdjust m pf)) % 2 ^ 16

def entryCrcLength : ℕ := (size m pf + 2 ^ 16 - 10) % 2 ^ 16

def crcOk : Bool := crc m pf = (crc32 (slice m (pf + 10) (entryCrcLength m pf))).toNat

end Entry

/-! ### Searching -/

section Search

variable (crc32 : List UInt8 → UInt32) (m : Mem) (token : UInt32)

def SectorDescriptor.pe (s : SectorDescriptor) : ℕ := s.address + 4 * (s.size / 4) - 4

/-- The hunt of `find_entry` in one sector, from `pmagic` on: an entry, or the next sector has to
be tried. -/
def findIn (pe : ℕ) : ℕ → ℕ → Option (Option ℕ)
  | 0, _ => none
  | fuel + 1, pmagic =>
    if pmagic = pe then some none
    else if ! validMagic m pmagic then findIn pe fuel (pmagic + 4)
    else if crcOk crc32 m pmagic then
      if validEntry m pmagic ∧ fileToken m pmagic = token.toNat then some (some pmagic)
      else if blankEntry m (nextEntry m pmagic) then some none
      else findIn pe fuel (nextEntry m pmagic)
    else some none

def findEntry (fuel : ℕ) : List SectorDescriptor → Option (Option ℕ)
  | [] => some none
  | s :: ss =>
    match findIn crc32 m token s.pe fuel s.address with
    | none => none
    | some (some pf) => some (some pf)
    | some none => findEntry fuel ss

/-- The hunt of `find_free` in one sector. -/
def freeIn (required pe : ℕ) : ℕ → ℕ → Option (Option ℕ)
  | 0, _ => none
  | fuel + 1, pmagic =>
    let pmagic :=
      if validMagic m pmagic then
        if crcOk crc32 m pmagic then nextEntry m pmagic else pmagic + 4
      else pmagic
    if blankMagic m pmagic && blankEntry m pmagic && blankCheck m pmagic required then
      some (some pmagic)
    else if pmagic + 4 = pe then some none
    else freeIn required pe fuel (pmagic + 4)

/-- `find_free`; `required` is a number of 16 bits. -/
def findFree (required fuel : ℕ) : List SectorDescriptor → Option (Option ℕ)
  | [] => some none
  | s :: ss =>
    match freeIn crc32 m (required % 2 ^ 16) s.pe fuel s.address with
    | none => none
    | some (some pf) => some (some pf)
    | some none => findFree required fuel ss

/-- `get_sector_info`: the sector that an address is in. -/
def getSectorInfo (sector_map : List SectorDescriptor) (current : ℕ) : Option SectorDescriptor :=
  sector_map.find? fun s => s.address ≤ current && current ≤ s.address + s.size - 1

/-- `get_next_sector_descriptor`: the next sector, or the first one. -/
def getNextSectorDescriptor (sector_map : List SectorDescriptor) (current : SectorDescriptor) :
    Option SectorDescriptor :=
  match sector_map.dropWhile fun s => s ≠ current with
  | [] => none
  | [_] => sector_map.head?
  | _ :: next :: _ => some next

/-- `check_free_space_in_sector`: the sector that has to be left, if there is not enough space in
it.  The outer `none` is a null pointer. -/
def checkFreeSpaceInSector (sector_map : List SectorDescriptor) (pf new_size : ℕ) :
    Option (Option SectorDescriptor) :=
  (getSectorInfo sector_map pf).map fun sm =>
    let pnext_end := (if validMagic m pf then nextEntry m pf else pf) + new_size
    if sm.address ≤ pnext_end ∧ pnext_end ≤ sm.address + sm.size - 1 then none else some sm

end Search

/-! ### Reading and writing -/

section Access

variable (dev : Progmem) (crc32 : List UInt8 → UInt32) (sector_map : List SectorDescriptor)
  (token : UInt32)

/-- `parameter_flashfs_read`: the bytes that it points to, or `-ENOENT`. -/
def parameterFlashfsRead (fuel : ℕ) (m : Mem) : Option (Except ℤ (List UInt8)) :=
  (findEntry crc32 m token fuel sector_map).map fun
    | none => .error (-ENOENT)
    | some pf => .ok (slice m (entryData pf) (entryDataLength m pf))

def eraseSector (m : Mem) (sm : SectorDescriptor) (pf : ℕ) : Mem :=
  let block := dev.getpage pf
  if block > 0 ∧ block = sm.page then (dev.eraseblock m block).1 else m

def eraseEntry (m : Mem) (pf : ℕ) : Mem × ℤ := dev.write m (pf + 4) (littleEndian 2 ErasedEntry)

/-- What a call does: the contents of the flash after each operation of the driver, and the value
that is returned. -/
structure Written where
  moments : List Mem
  rv : ℤ

def Written.final (m : Mem) (w : Written) : Mem := w.moments.getLastD m

/-- The size of an entry with these data, with the header and in whole words. -/
def totalSize (data : List UInt8) : ℕ := (data.length + headerSize + 3) / 4 * 4

def sizeAdjust (data : List UInt8) : ℕ := totalSize data - (data.length + headerSize)

def entryTail (data : List UInt8) : List UInt8 :=
  littleEndian 2 (totalSize data) ++ littleEndian 4 token.toNat ++ data ++
    List.replicate (sizeAdjust data) 255

def entryBytes (data : List UInt8) : List UInt8 :=
  littleEndian 4 MagicSig ++ littleEndian 2 (ValidEntry + sizeAdjust data) ++
    littleEndian 4
      (crc32 ((entryTail token data).take
        ((totalSize data % 2 ^ 16 + 2 ^ 16 - 10) % 2 ^ 16))).toNat ++
    entryTail token data

/-- The last part of `parameter_flashfs_write`, after the operations that were necessary before. -/
def writeEntry (data : List UInt8) (moments : List Mem) (m : Mem) (pf : ℕ) : Written :=
  match dev.write m pf ((entryBytes crc32 token data).take (totalSize data % 2 ^ 16)) with
  | (m, rv) =>
    let system_bytes : ℤ := (headerSize + sizeAdjust data : ℕ)
    ⟨moments ++ [m], if rv ≥ system_bytes then rv - system_bytes else rv⟩

def parameterFlashfsWrite (fuel : ℕ) (m : Mem) (data : List UInt8) : Option Written :=
  let total_size := totalSize data
  match findEntry crc32 m token fuel sector_map with
  | none => none
  -- no entry for this token yet
  | some none =>
    match findFree crc32 m total_size fuel sector_map with
    | none => none
    | some none => some ⟨[], -ENOSPC⟩
    | some (some pf) => some (writeEntry dev crc32 token data [] m pf)
  | some (some pf) =>
    match checkFreeSpaceInSector m sector_map pf total_size with
    | none => none
    -- there is room in the sector of the entry
    | some none =>
      match eraseEntry dev m pf with
      | (m₁, rv) =>
        if rv < 0 then some ⟨[m₁], rv⟩
        else some (writeEntry dev crc32 token data [m₁] m₁ (nextEntry m₁ pf))
    -- the sector is full: the entry goes to the start of the next one
    | some (some current_sector) =>
      match getNextSectorDescriptor sector_map current_sector with
      | none => none
      | some current_sector =>
        if current_sector.size < total_size then some ⟨[], -ENOSPC⟩
        else
          match eraseEntry dev m pf with
          | (m₁, rv) =>
            if rv < 0 then some ⟨[m₁], rv⟩
            else
              let pf := current_sector.address
              if ! blankCheck m₁ pf total_size then
                let m₂ := eraseSector dev m₁ current_sector pf
                some (writeEntry dev crc32 token data [m₁, m₂] m₂ pf)
              else some (writeEntry dev crc32 token data [m₁] m₁ pf)

end Access

end FlashFs
