/-
Searching a flash whose contents can be anything.

`find_entry` and `find_free` follow sizes that they read from the flash.  Each is a sweep over the
sectors: `findTurn` and `freeTurn` are what happens at one place, `findReads` and `freeReads` what
is read there.

* **`searches_iff`** — when both searches end and read nothing outside of the sectors, and an entry
  is found that has only well-formed entries before it, be their checksums right or wrong.

They do so if at every place that they come to the ranges that the header gives are inside of the
sectors and the size of an entry is not 0, and if no entry of the token is out of sight behind a
wrong checksum: there `find_entry` gives up the sector.
-/
import AerialManipulator.Flash.FlashStore
import AerialManipulator.Lib.Hunt

open ByteStore ByteStream NorFlash Hunt

namespace FlashFs

variable (crc32 : List UInt8 → UInt32) (m : Mem) (token : UInt32)

/-! ### One place -/

/-- The entry that is looked for. -/
def Wanted (p : ℕ) : Prop := validEntry m p ∧ fileToken m p = token.toNat

instance (p : ℕ) : Decidable (Wanted m token p) := inferInstanceAs (Decidable (_ ∧ _))

/-- One place of `find_entry`. -/
def findTurn (s : SectorDescriptor) (p : ℕ) : Turn (Option ℕ) :=
  if p = s.pe then .stop none
  else if ! validMagic m p then .go (p + 4)
  else if crcOk crc32 m p then
    if Wanted m token p then .stop (some p)
    else if blankEntry m (nextEntry m p) then .stop none
    else .go (nextEntry m p)
  else .stop none

/-- Where `find_free` looks for blank words. -/
def freePlace (p : ℕ) : ℕ :=
  if validMagic m p then
    if crcOk crc32 m p then nextEntry m p else p + 4
  else p

/-- One place of `find_free`. -/
def freeTurn (required : ℕ) (s : SectorDescriptor) (p : ℕ) : Turn (Option ℕ) :=
  let p := freePlace crc32 m p
  if blankMagic m p && blankEntry m p && blankCheck m p required then .stop (some p)
  else if p + 4 = s.pe then .stop none
  else .go (p + 4)

variable {crc32 m token} {s : SectorDescriptor} {p : ℕ}

theorem findTurn_pe (h : p = s.pe) : findTurn crc32 m token s p = .stop none := by
  rw [findTurn, if_pos h]

theorem findTurn_word (hpe : p ≠ s.pe) (hmagic : validMagic m p = false) :
    findTurn crc32 m token s p = .go (p + 4) := by
  rw [findTurn, if_neg hpe, if_pos (by rw [hmagic]; rfl)]

theorem findTurn_bad (hpe : p ≠ s.pe) (hmagic : validMagic m p = true)
    (hcrc : crcOk crc32 m p = false) : findTurn crc32 m token s p = .stop none := by
  rw [findTurn, if_neg hpe, if_neg (by rw [hmagic]; decide), if_neg (by rw [hcrc]; decide)]

theorem findTurn_wanted (hpe : p ≠ s.pe) (hmagic : validMagic m p = true)
    (hcrc : crcOk crc32 m p = true) (hwanted : Wanted m token p) :
    findTurn crc32 m token s p = .stop (some p) := by
  rw [findTurn, if_neg hpe, if_neg (by rw [hmagic]; decide), if_pos hcrc, if_pos hwanted]

theorem findTurn_other (hpe : p ≠ s.pe) (hmagic : validMagic m p = true)
    (hcrc : crcOk crc32 m p = true) (hwanted : ¬ Wanted m token p) :
    findTurn crc32 m token s p =
      if blankEntry m (nextEntry m p) then .stop none else .go (nextEntry m p) := by
  rw [findTurn, if_neg hpe, if_neg (by rw [hmagic]; decide), if_pos hcrc, if_neg hwanted]

theorem findIn_eq (s : SectorDescriptor) (fuel p : ℕ) :
    findIn crc32 m token s.pe fuel p = run (findTurn crc32 m token s) fuel p := by
  induction fuel generalizing p with
  | zero => rfl
  | succ fuel ih =>
    rw [findIn]
    by_cases hpe : p = s.pe
    · rw [if_pos hpe, run_stop (findTurn_pe hpe)]
    rw [if_neg hpe]
    cases hmagic : validMagic m p with
    | false => rw [if_pos (by rfl), run_go (findTurn_word hpe hmagic), ih]
    | true =>
      rw [if_neg (by decide)]
      cases hcrc : crcOk crc32 m p with
      | false => rw [if_neg (by decide), run_stop (findTurn_bad hpe hmagic hcrc)]
      | true =>
        rw [if_pos rfl]
        by_cases hwanted : Wanted m token p
        · have hboth : validEntry m p ∧ fileToken m p = token.toNat := hwanted
          rw [if_pos hboth, run_stop (findTurn_wanted hpe hmagic hcrc hwanted)]
        · have hboth : ¬ (validEntry m p ∧ fileToken m p = token.toNat) := hwanted
          have hturn := findTurn_other hpe hmagic hcrc hwanted
          rw [if_neg hboth]
          by_cases hblank : blankEntry m (nextEntry m p) = true
          · rw [if_pos hblank] at hturn ⊢
            rw [run_stop hturn]
          · rw [if_neg hblank] at hturn ⊢
            rw [run_go hturn, ih]

theorem freeIn_eq (required : ℕ) (s : SectorDescriptor) (fuel p : ℕ) :
    freeIn crc32 m required s.pe fuel p = run (freeTurn crc32 m required s) fuel p := by
  induction fuel generalizing p with
  | zero => rfl
  | succ fuel ih =>
    have hin : freeIn crc32 m required s.pe (fuel + 1) p =
        let p := freePlace crc32 m p
        if blankMagic m p && blankEntry m p && blankCheck m p required then some (some p)
        else if p + 4 = s.pe then some none
        else freeIn crc32 m required s.pe fuel (p + 4) := rfl
    rw [hin, run, freeTurn]
    dsimp only
    split_ifs
    · rfl
    · rfl
    · exact ih _

/-- **`find_entry` is a sweep**. -/
theorem findEntry_eq (fuel : ℕ) (sector_map : List SectorDescriptor) :
    findEntry crc32 m token fuel sector_map =
      sweep (findTurn crc32 m token) SectorDescriptor.address fuel sector_map := by
  induction sector_map with
  | nil => rfl
  | cons s ss ih =>
    rw [findEntry, sweep, findIn_eq, ih]
    cases run (findTurn crc32 m token s) fuel s.address with
    | none => rfl
    | some found => cases found <;> rfl

/-- **`find_free` is a sweep**. -/
theorem findFree_eq (required fuel : ℕ) (sector_map : List SectorDescriptor) :
    findFree crc32 m required fuel sector_map =
      sweep (freeTurn crc32 m (required % 2 ^ 16)) SectorDescriptor.address fuel sector_map := by
  induction sector_map with
  | nil => rfl
  | cons s ss ih =>
    rw [findFree, sweep, freeIn_eq, ih]
    cases run (freeTurn crc32 m (required % 2 ^ 16) s) fuel s.address with
    | none => rfl
    | some found => cases found <;> rfl

/-! ### What is read

An address, and how many bytes. -/

variable (crc32 m token)

def crcReads (p : ℕ) : List (ℕ × ℕ) := [(p + 6, 4), (p + 10, 2), (p + 10, entryCrcLength m p)]

def blankEntryReads (p : ℕ) : List (ℕ × ℕ) := (p, 4) :: if blankMagic m p then [(p + 4, 2)] else []

def blankCheckReads (p new_size : ℕ) : List (ℕ × ℕ) :=
  ((List.range (new_size / 4)).filter fun i => blankCheck m p (4 * i)).map fun i => (p + 4 * i, 4)

def findReads (s : SectorDescriptor) (p : ℕ) : List (ℕ × ℕ) :=
  if p = s.pe then []
  else (p, 4) ::
    if validMagic m p then
      crcReads m p ++
        if crcOk crc32 m p then
          (p + 4, 2) :: (if validEntry m p then [(p + 12, 4)] else []) ++
            if Wanted m token p then [] else (p + 10, 2) :: blankEntryReads m (nextEntry m p)
        else []
    else []

def freeReads (required : ℕ) (_ : SectorDescriptor) (p : ℕ) : List (ℕ × ℕ) :=
  (p, 4) ::
    (if validMagic m p then
      crcReads m p ++ if crcOk crc32 m p then [(p + 10, 2)] else []
    else []) ++
    let p := freePlace crc32 m p
    (p, 4) ::
      if blankMagic m p then
        blankEntryReads m p ++ if blankEntry m p then blankCheckReads m p required else []
      else []

/-! ### What has to be inside of the sectors -/

/-- All of these bytes are inside of sectors. -/
def Inside (sector_map : List SectorDescriptor) (r : ℕ × ℕ) : Prop :=
  ∀ i < r.2, ∃ s ∈ sector_map, s.address ≤ r.1 + i ∧ r.1 + i < s.address + s.size

def lastEnd (sector_map : List SectorDescriptor) : ℕ :=
  (sector_map.map fun s => s.address + s.size).foldr max 0

theorem Inside.lt_lastEnd {sector_map : List SectorDescriptor} {n : ℕ}
    (h : Inside sector_map (p, n + 1)) : p < lastEnd sector_map := by
  obtain ⟨s, hs, -, hlt⟩ := h 0 (Nat.succ_pos n)
  refine Nat.lt_of_lt_of_le hlt ?_
  clear h hlt
  induction sector_map with
  | nil => exact nomatch hs
  | cons t ts ih =>
    rcases List.mem_cons.mp hs with rfl | hs
    · exact Nat.le_max_left _ _
    · exact Nat.le_trans (ih hs) (Nat.le_max_right _ _)

section Fits

variable (sector_map : List SectorDescriptor)

/-- The checksum, the size and the bytes that the checksum is taken of. -/
def ChecksumFits (p : ℕ) : Prop :=
  Inside sector_map (p + 6, 4) ∧ Inside sector_map (p + 10, 2) ∧
    Inside sector_map (p + 10, entryCrcLength m p)

/-- The signature, and behind a blank one the flag. -/
def BlankFits (p : ℕ) : Prop :=
  Inside sector_map (p, 4) ∧ (blankMagic m p → Inside sector_map (p + 4, 2))

/-- One place of `find_entry`: the size of another entry is not 0, and leads to a place inside of a
sector. -/
def FindFits (s : SectorDescriptor) (p : ℕ) : Prop :=
  p ≠ s.pe → Inside sector_map (p, 4) ∧
    (validMagic m p → ChecksumFits m sector_map p ∧
      (crcOk crc32 m p → Inside sector_map (p + 4, 2) ∧
        (validEntry m p → Inside sector_map (p + 12, 4)) ∧
        (¬ Wanted m token p → size m p ≠ 0 ∧ BlankFits m sector_map (nextEntry m p))))

/-- One place of `find_free`: also the words that are checked for being blank are inside of a
sector. -/
def FreeFits (required : ℕ) (_ : SectorDescriptor) (p : ℕ) : Prop :=
  Inside sector_map (p, 4) ∧ (validMagic m p → ChecksumFits m sector_map p) ∧
    BlankFits m sector_map (freePlace crc32 m p) ∧
    (blankEntry m (freePlace crc32 m p) → ∀ i < required / 4,
      blankCheck m (freePlace crc32 m p) (4 * i) →
        Inside sector_map (freePlace crc32 m p + 4 * i, 4))

end Fits

variable {crc32 m token} {sector_map : List SectorDescriptor} {required : ℕ}

theorem forall_mem_ite_singleton {α : Type} {P : α → Prop} {b : Bool} {a : α} :
    (∀ x ∈ if b then [a] else [], P x) ↔ (b → P a) := by
  cases b <;> simp

theorem forall_mem_crcReads :
    (∀ r ∈ crcReads m p, Inside sector_map r) ↔ ChecksumFits m sector_map p := by
  simp only [crcReads, ChecksumFits, List.forall_mem_cons, List.not_mem_nil, false_implies,
    implies_true, and_true]

theorem forall_mem_blankEntryReads :
    (∀ r ∈ blankEntryReads m p, Inside sector_map r) ↔ BlankFits m sector_map p := by
  rw [blankEntryReads, BlankFits, List.forall_mem_cons, forall_mem_ite_singleton]

theorem forall_mem_blankCheckReads :
    (∀ r ∈ blankCheckReads m p required, Inside sector_map r) ↔
      ∀ i < required / 4, blankCheck m p (4 * i) → Inside sector_map (p + 4 * i, 4) := by
  simp only [blankCheckReads, List.forall_mem_map, List.mem_filter, List.mem_range, and_imp]

theorem blankEntry_of_validMagic (h : validMagic m p = true) : blankEntry m p = false := by
  have hmagic : magic m p = MagicSig := of_decide_eq_true h
  rw [blankEntry, hmagic]
  rfl

theorem findFits_iff (s : SectorDescriptor) (p : ℕ) :
    FindFits crc32 m token sector_map s p ↔
      (∀ r ∈ findReads crc32 m token s p, Inside sector_map r) ∧
        findTurn crc32 m token s p ≠ .go p := by
  by_cases hpe : p = s.pe
  · rw [findTurn_pe hpe, findReads, if_pos hpe]
    exact iff_of_true (fun h => absurd hpe h)
      ⟨fun r hr => absurd hr List.not_mem_nil, Turn.stop_ne_go none p⟩
  rw [FindFits, findReads, if_neg hpe, List.forall_mem_cons]
  cases hmagic : validMagic m p with
  | false =>
    rw [findTurn_word hpe hmagic]
    simp [hpe]
  | true =>
    rw [if_pos rfl, List.forall_mem_append, forall_mem_crcReads]
    cases hcrc : crcOk crc32 m p with
    | false =>
      rw [findTurn_bad hpe hmagic hcrc]
      simp [hpe]
    | true =>
      by_cases hwanted : Wanted m token p
      · rw [findTurn_wanted hpe hmagic hcrc hwanted]
        cases validEntry m p <;> simp [hpe, hwanted]
      · -- the entry stands still exactly if it has no size
        have hstill : findTurn crc32 m token s p ≠ .go p ↔ size m p ≠ 0 := by
          rw [findTurn_other hpe hmagic hcrc hwanted, not_iff_not]
          constructor
          · intro h
            by_cases hblank : blankEntry m (nextEntry m p) = true
            · rw [if_pos hblank] at h
              exact absurd h (Turn.stop_ne_go none p)
            · rw [if_neg hblank] at h
              have hnext : p + size m p = p := Turn.go.inj h
              omega
          · intro h
            have hnext : nextEntry m p = p := by rw [nextEntry, h, Nat.add_zero]
            rw [hnext, blankEntry_of_validMagic hmagic]
            rfl
        rw [hstill, if_pos rfl, if_neg hwanted, List.forall_mem_append, List.forall_mem_cons,
          List.forall_mem_cons, forall_mem_blankEntryReads, forall_mem_ite_singleton]
        constructor
        · intro h
          obtain ⟨hword, hall⟩ := h hpe
          obtain ⟨hsum, hrest⟩ := hall rfl
          obtain ⟨hflag, htoken, hother⟩ := hrest rfl
          obtain ⟨hsize, hblank⟩ := hother hwanted
          exact ⟨⟨hword, hsum, ⟨hflag, htoken⟩, hsum.2.1, hblank⟩, hsize⟩
        · rintro ⟨⟨hword, hsum, ⟨hflag, htoken⟩, -, hblank⟩, hsize⟩ -
          exact ⟨hword, fun _ => ⟨hsum, fun _ => ⟨hflag, htoken, fun _ => ⟨hsize, hblank⟩⟩⟩⟩

theorem freeTurn_ge {q : ℕ} (h : freeTurn crc32 m required s p = .go q) : p < q := by
  have hplace : p ≤ freePlace crc32 m p := by
    rw [freePlace, nextEntry]
    split_ifs <;> omega
  rw [freeTurn] at h
  split_ifs at h with hfree hpe
  have hq : freePlace crc32 m p + 4 = q := Turn.go.inj h
  omega

theorem freeFits_iff (s : SectorDescriptor) (p : ℕ) :
    FreeFits crc32 m sector_map required s p ↔
      (∀ r ∈ freeReads crc32 m required s p, Inside sector_map r) ∧
        freeTurn crc32 m required s p ≠ .go p := by
  rw [and_iff_left fun h => Nat.lt_irrefl p (freeTurn_ge h), FreeFits, freeReads]
  dsimp only
  rw [List.cons_append, List.forall_mem_cons, List.forall_mem_append, List.forall_mem_cons]
  refine and_congr_right' (and_congr ?_ ?_)
  · cases validMagic m p with
    | false => simp
    | true =>
      rw [if_pos rfl, List.forall_mem_append, forall_mem_crcReads, forall_mem_ite_singleton]
      exact ⟨fun h => ⟨h rfl, fun _ => (h rfl).2.1⟩, fun h _ => h.1⟩
  · cases hmagic : blankMagic m (freePlace crc32 m p) with
    | false =>
      have hentry : blankEntry m (freePlace crc32 m p) = false := by
        rw [blankEntry]
        rw [blankMagic] at hmagic
        rw [hmagic, Bool.false_and]
      rw [BlankFits, hmagic, hentry]
      simp
    | true =>
      rw [if_pos rfl, List.forall_mem_append, forall_mem_blankEntryReads, BlankFits]
      cases blankEntry m (freePlace crc32 m p) with
      | false => simp
      | true =>
        rw [if_pos rfl, forall_mem_blankCheckReads]
        tauto

theorem findTurn_ge {q : ℕ} (h : findTurn crc32 m token s p = .go q) : p ≤ q := by
  rw [findTurn, nextEntry] at h
  split_ifs at h
  · rw [← Turn.go.inj h]
    exact Nat.le_add_right p 4
  · rw [← Turn.go.inj h]
    exact Nat.le_add_right p (size m p)

theorem findTurn_lt {q : ℕ} (hinside : ∀ r ∈ findReads crc32 m token s p, Inside sector_map r)
    (h : findTurn crc32 m token s p = .go q) : p < lastEnd sector_map := by
  have hpe : p ≠ s.pe := fun hpe => Turn.stop_ne_go none q ((findTurn_pe hpe).symm.trans h)
  rw [findReads, if_neg hpe, List.forall_mem_cons] at hinside
  exact hinside.1.lt_lastEnd

/-! ### Entries that ought to be found -/

/-- A valid entry of the token, with the right checksum. -/
structure IsEntry (crc32 : List UInt8 → UInt32) (m : Mem) (token : UInt32) (p : ℕ) : Prop where
  magic : validMagic m p = true
  crc : crcOk crc32 m p = true
  wanted : Wanted m token p

/-- The header is well-formed: the entry is some whole words inside of the sector. -/
structure WellFormed (m : Mem) (s : SectorDescriptor) (p : ℕ) : Prop where
  magic : validMagic m p = true
  header : headerSize ≤ size m p
  words : 4 ∣ size m p
  inside : p + size m p ≤ s.address + s.size

/-- There are only entries with well-formed headers in between. -/
inductive Chain (m : Mem) (s : SectorDescriptor) (start : ℕ) : ℕ → Prop
  | start : Chain m s start start
  | next {p : ℕ} (hp : Chain m s start p) (hform : WellFormed m s p) :
      Chain m s start (nextEntry m p)

/-- There is an entry of the token in this sector. -/
def HasEntry (crc32 : List UInt8 → UInt32) (m : Mem) (token : UInt32) (s : SectorDescriptor) :
    Prop :=
  ∃ p, Chain m s s.address p ∧ WellFormed m s p ∧ IsEntry crc32 m token p

/-- There is one behind an entry with a wrong checksum. -/
def HasHiddenEntry (crc32 : List UInt8 → UInt32) (m : Mem) (token : UInt32) (s : SectorDescriptor) :
    Prop :=
  ∃ bad p, Chain m s s.address bad ∧ WellFormed m s bad ∧ crcOk crc32 m bad = false ∧
    Chain m s (nextEntry m bad) p ∧ WellFormed m s p ∧ IsEntry crc32 m token p

/-- There is one that `find_entry` comes to. -/
def HasVisibleEntry (crc32 : List UInt8 → UInt32) (m : Mem) (token : UInt32)
    (s : SectorDescriptor) :
    Prop :=
  ∃ p, Met (findTurn crc32 m token s) s.address p ∧ p ≠ s.pe ∧ IsEntry crc32 m token p

theorem Chain.trans {a b : ℕ} (hab : Chain m s a b) (hbp : Chain m s b p) : Chain m s a p := by
  induction hbp with
  | start => exact hab
  | next _ hform ih => exact ih.next hform

theorem HasHiddenEntry.hasEntry (h : HasHiddenEntry crc32 m token s) :
    HasEntry crc32 m token s := by
  obtain ⟨bad, p, hbad, hform, -, hchain, hp⟩ := h
  exact ⟨p, (hbad.next hform).trans hchain, hp⟩

theorem WellFormed.ne_pe (h : WellFormed m s p) : p ≠ s.pe := by
  have hheader : 16 ≤ size m p := h.header
  have hinside := h.inside
  rw [SectorDescriptor.pe]
  omega

theorem findTurn_eq_stop_some {b : ℕ} (h : findTurn crc32 m token s p = .stop (some b)) :
    b = p ∧ p ≠ s.pe ∧ IsEntry crc32 m token p := by
  have hnone : findTurn crc32 m token s p ≠ .stop none := fun hnone =>
    Option.some_ne_none b (Turn.stop.inj (h.symm.trans hnone))
  have hpe : p ≠ s.pe := fun hpe => hnone (findTurn_pe hpe)
  cases hmagic : validMagic m p with
  | false => exact absurd (h.symm.trans (findTurn_word hpe hmagic)) (Turn.stop_ne_go _ _)
  | true =>
    cases hcrc : crcOk crc32 m p with
    | false => exact absurd (findTurn_bad hpe hmagic hcrc) hnone
    | true =>
      by_cases hwanted : Wanted m token p
      · have hstop := h.symm.trans (findTurn_wanted hpe hmagic hcrc hwanted)
        exact ⟨Option.some.inj (Turn.stop.inj hstop), hpe, hmagic, hcrc, hwanted⟩
      · rw [findTurn_other hpe hmagic hcrc hwanted] at h hnone
        split_ifs at h hnone
        exact absurd rfl hnone

theorem finds_iff :
    (∃ b, Finds (findTurn crc32 m token) SectorDescriptor.address s b) ↔
      HasVisibleEntry crc32 m token s := by
  constructor
  · rintro ⟨b, p, hp, hstop⟩
    obtain ⟨-, hentry⟩ := findTurn_eq_stop_some hstop
    exact ⟨p, hp, hentry⟩
  · rintro ⟨p, hp, hpe, hentry⟩
    exact ⟨p, p, hp, findTurn_wanted hpe hentry.magic hentry.crc hentry.wanted⟩

/-- Along well-formed entries the search comes to every entry, unless it has found one before or one
of them has a wrong checksum. -/
theorem Chain.met (hp : Chain m s s.address p) (hform : WellFormed m s p) :
    HasVisibleEntry crc32 m token s ∨ Met (findTurn crc32 m token s) s.address p ∨
      ∃ bad, Chain m s s.address bad ∧ WellFormed m s bad ∧ crcOk crc32 m bad = false ∧
        Chain m s (nextEntry m bad) p := by
  induction hp with
  | start => exact .inr (.inl Met.start)
  | @next p hp hbefore ih =>
    rcases ih hbefore with hvisible | hmet | ⟨bad, hbad, hbadform, hcrc, hchain⟩
    · exact .inl hvisible
    · cases hcrc : crcOk crc32 m p with
      | false => exact .inr (.inr ⟨p, hp, hbefore, hcrc, Chain.start⟩)
      | true =>
        by_cases hwanted : Wanted m token p
        · exact .inl ⟨p, hmet, hbefore.ne_pe, hbefore.magic, hcrc, hwanted⟩
        · have hturn := findTurn_other hbefore.ne_pe hbefore.magic hcrc hwanted
          rw [blankEntry_of_validMagic hform.magic, if_neg Bool.false_ne_true] at hturn
          exact .inr (.inl (hmet.next hturn))
    · exact .inr (.inr ⟨bad, hbad, hbadform, hcrc, hchain.next hbefore⟩)

theorem HasEntry.visible_or_hidden (h : HasEntry crc32 m token s) :
    HasVisibleEntry crc32 m token s ∨ HasHiddenEntry crc32 m token s := by
  obtain ⟨p, hp, hform, hentry⟩ := h
  rcases hp.met hform with hvisible | hmet | ⟨bad, hbad, hbadform, hcrc, hchain⟩
  · exact .inl hvisible
  · exact .inl ⟨p, hmet, hform.ne_pe, hentry⟩
  · exact .inr ⟨bad, p, hbad, hbadform, hcrc, hchain, hform, hentry⟩

/-! ### Both searches -/

section Searches

variable (crc32 : List UInt8 → UInt32) (m : Mem) (token : UInt32) (required fuel : ℕ)
  (sector_map : List SectorDescriptor)

/-- What `find_entry` reads. -/
def findEntryReads : List (ℕ × ℕ) :=
  sweepReads (findTurn crc32 m token) SectorDescriptor.address (findReads crc32 m token) fuel
    sector_map

/-- What `find_free` reads. -/
def findFreeReads : List (ℕ × ℕ) :=
  sweepReads (freeTurn crc32 m (required % 2 ^ 16)) SectorDescriptor.address
    (freeReads crc32 m (required % 2 ^ 16)) fuel sector_map

/-- Both searches end and read only inside of the sectors, and an entry of the token is found. -/
structure Searches : Prop where
  find_ends : ∃ fuel, (findEntry crc32 m token fuel sector_map).isSome
  find_inside : ∀ fuel, ∀ r ∈ findEntryReads crc32 m token fuel sector_map, Inside sector_map r
  free_ends : ∃ fuel, (findFree crc32 m required fuel sector_map).isSome
  free_inside : ∀ fuel, ∀ r ∈ findFreeReads crc32 m required fuel sector_map, Inside sector_map r
  finds : (∃ s ∈ sector_map, HasEntry crc32 m token s) →
    ∃ fuel p, findEntry crc32 m token fuel sector_map = some (some p) ∧ IsEntry crc32 m token p

/-- Everywhere on its way `find_entry` has what it reads inside of the sectors, and a size that is
not 0. -/
def FindSweeps : Prop :=
  Sweeps (findTurn crc32 m token) SectorDescriptor.address (FindFits crc32 m token sector_map)
    sector_map

/-- Everywhere on its way `find_free` has what it reads inside of the sectors. -/
def FreeSweeps : Prop :=
  Sweeps (freeTurn crc32 m (required % 2 ^ 16)) SectorDescriptor.address
    (FreeFits crc32 m sector_map (required % 2 ^ 16)) sector_map

end Searches

theorem findSweeps_iff :
    ((∃ fuel, (findEntry crc32 m token fuel sector_map).isSome) ∧
      ∀ fuel, ∀ r ∈ findEntryReads crc32 m token fuel sector_map, Inside sector_map r) ↔
    FindSweeps crc32 m token sector_map := by
  simp only [findEntry_eq]
  exact sweep_iff findFits_iff (fun _ _ _ => findTurn_ge) (fun _ _ _ => findTurn_lt) sector_map

theorem freeSweeps_iff :
    ((∃ fuel, (findFree crc32 m required fuel sector_map).isSome) ∧
      ∀ fuel, ∀ r ∈ findFreeReads crc32 m required fuel sector_map, Inside sector_map r) ↔
    FreeSweeps crc32 m required sector_map := by
  simp only [findFree_eq]
  refine sweep_iff (M := lastEnd sector_map) freeFits_iff
    (fun _ _ _ h => Nat.le_of_lt (freeTurn_ge h)) ?_ sector_map
  intro s p q hinside _
  exact (hinside (p, 4) List.mem_cons_self).lt_lastEnd

theorem findEntry_finds_iff (hends : ∃ fuel, (findEntry crc32 m token fuel sector_map).isSome) :
    (∃ fuel p, findEntry crc32 m token fuel sector_map = some (some p) ∧ IsEntry crc32 m token p) ↔
      ∃ s ∈ sector_map, HasVisibleEntry crc32 m token s := by
  constructor
  · rintro ⟨fuel, p, hfind, -⟩
    rw [findEntry_eq] at hfind
    obtain ⟨s, hs, hfinds⟩ := finds_of_sweep hfind
    exact ⟨s, hs, finds_iff.mp ⟨p, hfinds⟩⟩
  · rintro ⟨s, hs, hvisible⟩
    obtain ⟨fuel, hfuel⟩ := hends
    obtain ⟨result, hresult⟩ := Option.isSome_iff_exists.mp hfuel
    cases result with
    | none =>
      rw [findEntry_eq] at hresult
      obtain ⟨b, hb⟩ := finds_iff.mpr hvisible
      exact absurd hb (not_finds_of_sweep hresult s hs b)
    | some b =>
      refine ⟨fuel, b, hresult, ?_⟩
      rw [findEntry_eq] at hresult
      obtain ⟨t, -, p, -, hstop⟩ := finds_of_sweep hresult
      obtain ⟨rfl, -, hentry⟩ := findTurn_eq_stop_some hstop
      exact hentry

/-- **When both searches do what they should**: what the headers on their way say has to be inside
of the sectors, and no entry of the token hidden behind a wrong checksum unless another one is
visible. -/
theorem searches_iff (crc32 : List UInt8 → UInt32) (m : Mem) (token : UInt32) (required : ℕ)
    (sector_map : List SectorDescriptor) :
    Searches crc32 m token required sector_map ↔
      FindSweeps crc32 m token sector_map ∧ FreeSweeps crc32 m required sector_map ∧
        ((∃ s ∈ sector_map, HasHiddenEntry crc32 m token s) →
          ∃ s ∈ sector_map, HasVisibleEntry crc32 m token s) := by
  constructor
  · intro h
    refine ⟨findSweeps_iff.mp ⟨h.find_ends, h.find_inside⟩,
      freeSweeps_iff.mp ⟨h.free_ends, h.free_inside⟩, ?_⟩
    rintro ⟨s, hs, hhidden⟩
    exact (findEntry_finds_iff h.find_ends).mp (h.finds ⟨s, hs, hhidden.hasEntry⟩)
  · rintro ⟨hfind, hfree, hhidden⟩
    obtain ⟨hends, hinside⟩ := findSweeps_iff.mpr hfind
    obtain ⟨hends', hinside'⟩ := freeSweeps_iff.mpr hfree
    refine ⟨hends, hinside, hends', hinside', ?_⟩
    rintro ⟨s, hs, hentry⟩
    refine (findEntry_finds_iff hends).mpr ?_
    rcases hentry.visible_or_hidden with hvisible | hbehind
    · exact ⟨s, hs, hvisible⟩
    · exact hhidden ⟨s, hs, hbehind⟩

/-- A sector with two entries of the token, of which the first one has a wrong checksum. -/
def torn : Mem :=
  put (fun _ => 255) 64 (entryBytes (fun _ => 0) 7 [] ++ entryBytes nuttxCrc32 7 [1, 2, 3, 4])

/-- `find_entry` gives up the sector at the first one. -/
theorem not_searches_torn : ¬ Searches nuttxCrc32 torn 7 16 [⟨1, 64, 64⟩] := by
  intro h
  have hentry : HasEntry nuttxCrc32 torn 7 ⟨1, 64, 64⟩ := by
    refine ⟨80, Chain.start.next ⟨?_, ?_, ?_, ?_⟩, ⟨?_, ?_, ?_, ?_⟩, ⟨?_, ?_, ?_, ?_⟩⟩ <;>
      decide +kernel
  obtain ⟨fuel, p, hfind, -⟩ := h.finds ⟨_, List.mem_singleton_self _, hentry⟩
  have hstop : findTurn nuttxCrc32 torn 7 ⟨1, 64, 64⟩ 64 = .stop none :=
    findTurn_bad (by decide) (by decide +kernel) (by decide +kernel)
  rw [findEntry_eq] at hfind
  obtain ⟨s, hs, q, hq, hfound⟩ := finds_of_sweep hfind
  rw [List.mem_singleton.mp hs] at hq hfound
  exact absurd (hq.eq_of_stop hfound (run_stop hstop 0)) (Option.some_ne_none p).symm

end FlashFs
