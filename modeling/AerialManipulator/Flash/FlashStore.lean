/-
Writing and reading parameters in flash memory.

The first write goes to the beginning of the first sector.  After that every write marks the entry
that is there as erased, and appends the new one, or goes on at the beginning of the next sector.

* `write_blank`, `write_live` — what one write does to the log;
* **`flash_store`** — in every sequence of writes of one token to a blank flash, of data that fit
  into a sector, every write is successful, what is read after it is what has been written last,
  and after no operation of the driver there is more than one valid entry.
-/
import AerialManipulator.Flash.FlashLog
import AerialManipulator.Lib.Trace

open ByteStore ByteStream NorFlash

namespace FlashFs

variable {dev : Progmem} {crc32 : List UInt8 → UInt32} {token : UInt32}
  {sector_map pre post : List SectorDescriptor} {s : SectorDescriptor} {m : Mem}
  {data new : List UInt8} {old : List Entry} {fuel : ℕ}

/-! ### The operations of the driver -/

theorem writeEntry_eq (hdev : dev.Works) (hsize : totalSize new < 2 ^ 16) {pf : ℕ} (hpf : 4 ∣ pf)
    (hblank : Blank m pf (pf + totalSize new)) (moments : List Mem) :
    writeEntry dev crc32 token new moments m pf =
      ⟨moments ++ [put m pf (Entry.image crc32 token ⟨new, true⟩)], (new.length : ℤ)⟩ := by
  have hle := le_totalSize new
  have hlen := Entry.length_image crc32 token ⟨new, true⟩
  dsimp only at hlen
  have hdvd : 2 ∣ (Entry.image crc32 token ⟨new, true⟩).length := by
    rw [hlen]
    exact Dvd.dvd.trans (by decide) (totalSize_dvd new)
  have hwrite := hdev m pf (Entry.image crc32 token ⟨new, true⟩)
    (Dvd.dvd.trans (by decide) hpf) hdvd (hblank.clears (by rw [hlen]))
  rw [writeEntry, entryBytes_eq crc32 token hsize, hwrite, hlen]
  dsimp only
  have hge : ((totalSize new : ℕ) : ℤ) ≥ ((headerSize + sizeAdjust new : ℕ) : ℤ) := by
    unfold sizeAdjust
    omega
  have hrv : ((totalSize new : ℕ) : ℤ) - ((headerSize + sizeAdjust new : ℕ) : ℤ) = new.length := by
    unfold sizeAdjust
    omega
  rw [if_pos hge, hrv]

theorem eraseEntry_eq (hdev : dev.Works) {pf : ℕ} (hpf : 4 ∣ pf) :
    eraseEntry dev m pf = (put m (pf + 4) (littleEndian 2 ErasedEntry), 2) := by
  refine hdev m (pf + 4) (littleEndian 2 ErasedEntry) ?_ ?_ ?_
  · exact Nat.dvd_add (Dvd.dvd.trans (by decide) hpf) (by decide)
  · rw [length_littleEndian]
  · intro i hi
    have hzero : ∀ j (hj : j < (littleEndian 2 ErasedEntry).length),
        (littleEndian 2 ErasedEntry)[j] = 0 := by decide
    rw [hzero i hi]
    exact UInt8.toBitVec_inj.mp BitVec.and_zero

theorem eraseSector_eq (hmap : SectorMapOk dev sector_map) (hs : s ∈ sector_map) :
    eraseSector dev m s s.address = put m s.address (List.replicate s.size 255) := by
  have hblock := hmap.block s hs
  have hpage := hmap.page_pos s hs
  rw [eraseSector, hblock.getpage, if_pos ⟨by omega, rfl⟩, hblock.erase]

/-! ### Searching the sectors -/

theorem getSectorInfo_eq (hmap : SectorMapOk dev (pre ++ s :: post)) {pf : ℕ}
    (hge : s.address ≤ pf) (hlt : pf < s.address + s.size) :
    getSectorInfo (pre ++ s :: post) pf = some s := by
  have hpre : ∀ t ∈ pre, (t.address ≤ pf && pf ≤ t.address + t.size - 1) = false := by
    intro t ht
    have hdisj := hmap.disjoint.1 t ht
    have hpos := hmap.size_pos t (List.mem_append_left _ ht)
    rw [Bool.and_eq_false_iff]
    exact .inr (decide_eq_false (by omega))
  rw [getSectorInfo, List.find?_append, List.find?_eq_none.mpr (by simpa using hpre),
    Option.none_or, List.find?_cons_of_pos]
  simp only [Bool.and_eq_true, decide_eq_true_eq]
  omega

theorem getNextSectorDescriptor_eq (hmap : SectorMapOk dev (pre ++ s :: post)) :
    getNextSectorDescriptor (pre ++ s :: post) s = post.head?.or (pre ++ s :: post).head? := by
  have hpre : ∀ t ∈ pre, decide (t ≠ s) = true := by
    intro t ht
    have hdisj := hmap.disjoint.1 t ht
    have hpos := hmap.size_pos t (List.mem_append_left _ ht)
    refine decide_eq_true ?_
    rintro rfl
    omega
  have hdrop : (pre ++ s :: post).dropWhile (fun t => decide (t ≠ s)) = s :: post := by
    rw [List.dropWhile_append_of_pos hpre, List.dropWhile_cons_of_neg (by simp)]
  rw [getNextSectorDescriptor, hdrop]
  cases post with
  | nil => rfl
  | cons next post => rfl

theorem blankCheck_blank {pf n : ℕ} (h : Blank m pf (pf + n)) : blankCheck m pf n = true := by
  rw [blankCheck, List.all_eq_true]
  intro i hi
  have hi' := List.mem_range.mp hi
  exact decide_eq_true ((h.mono (by omega) le_rfl).word_eq (by omega))

theorem Holds.eq_nil_of_blankCheck {es : List Entry} (h : Holds crc32 token m s es) {n : ℕ}
    (hn : 4 ≤ n) (hcheck : blankCheck m s.address n = true) : es = [] := by
  cases es with
  | nil => rfl
  | cons e es =>
    have hlaid := h.laid
    rw [images, List.flatMap_cons, at_append] at hlaid
    have hmagic : word m s.address = MagicSig := magic_image hlaid.1
    rw [blankCheck, List.all_eq_true] at hcheck
    have hfirst := hcheck 0 (List.mem_range.mpr (by omega))
    rw [Nat.mul_zero, Nat.add_zero, hmagic] at hfirst
    exact absurd hfirst (by decide)

/-! ### One write -/

theorem Dead.of_put {t : SectorDescriptor} (hmap : SectorMapOk dev (pre ++ s :: post))
    (ht : t ∈ pre ++ post) (h : Dead crc32 token m t) {a : ℕ} {bytes : List UInt8}
    (hge : s.address ≤ a) (hle : a + bytes.length ≤ s.address + s.size) :
    Dead crc32 token (put m a bytes) t := by
  refine h.congr fun x hx₁ hx₂ => ?_
  rcases List.mem_append.mp ht with ht | ht
  · have hdisj := hmap.disjoint.1 t ht
    exact put_of_lt (by omega)
  · have hdisj := hmap.disjoint.2 t ht
    exact put_of_ge (by omega)

theorem Live.erase (hmap : SectorMapOk dev sector_map)
    (h : Live crc32 token m sector_map data pre post s old) :
    ∀ t ∈ sector_map, Dead crc32 token
      (put m (s.address + (images crc32 token old).length + 4) (littleEndian 2 ErasedEntry)) t := by
  obtain ⟨hat, hsize, hend⟩ := h.at_entry
  have hle := le_totalSize data
  unfold headerSize at hle
  obtain ⟨rfl, hpre, hpost, hholds, hold⟩ := h
  have hother : ∀ t ∈ pre ++ post, Dead crc32 token
      (put m (s.address + (images crc32 token old).length + 4) (littleEndian 2 ErasedEntry)) t := by
    intro t ht
    refine Dead.of_put hmap ht ?_ (by omega) (by rw [length_littleEndian]; omega)
    exact (List.mem_append.mp ht).elim (hpre t) (hpost t)
  intro t ht
  rcases List.mem_append.mp ht with ht | ht
  · exact hother t (List.mem_append_left _ ht)
  · rcases List.mem_cons.mp ht with rfl | ht
    · refine ⟨_, hholds.erase, ?_⟩
      intro e he
      rcases List.mem_append.mp he with he | he
      · exact hold e he
      · rw [List.mem_singleton.mp he]
    · exact hother t (List.mem_append_right _ ht)

theorem live_append (hmap : SectorMapOk dev sector_map)
    (hdead : ∀ t ∈ sector_map, Dead crc32 token m t) (hsplit : sector_map = pre ++ s :: post)
    (hholds : Holds crc32 token m s old) (hold : ∀ e ∈ old, e.live = false)
    (hsize : totalSize new < 2 ^ 16)
    (hroom : (images crc32 token old).length + totalSize new ≤ s.size) :
    Live crc32 token
      (put m (s.address + (images crc32 token old).length)
        (Entry.image crc32 token ⟨new, true⟩)) sector_map new pre post s old := by
  subst hsplit
  have hother : ∀ t ∈ pre ++ post, Dead crc32 token
      (put m (s.address + (images crc32 token old).length)
        (Entry.image crc32 token ⟨new, true⟩)) t := by
    intro t ht
    refine Dead.of_put hmap ht (hdead t ?_) (by omega) ?_
    · rcases List.mem_append.mp ht with ht | ht
      · exact List.mem_append_left _ ht
      · exact List.mem_append_right _ (List.mem_cons_of_mem _ ht)
    · rw [Entry.length_image]
      dsimp only
      omega
  exact ⟨rfl, fun t ht => hother t (List.mem_append_left _ ht),
    fun t ht => hother t (List.mem_append_right _ ht), hholds.append hsize hroom true, hold⟩

/-- What a write leaves: the new entry is the live one, and at no moment there were two. -/
structure Wrote (crc32 : List UInt8 → UInt32) (token : UInt32)
    (sector_map : List SectorDescriptor) (m : Mem) (new : List UInt8) (w : Written) : Prop where
  rv : w.rv = new.length
  live : ∃ pre post s old, Live crc32 token (w.final m) sector_map new pre post s old
  moments : ∀ m' ∈ w.moments, (validEntries crc32 m' token sector_map).length ≤ 1

theorem wrote_of_dead (hdev : dev.Works) (hmap : SectorMapOk dev sector_map)
    (hdead : ∀ t ∈ sector_map, Dead crc32 token m t) (hsplit : sector_map = pre ++ s :: post)
    (hholds : Holds crc32 token m s old) (hold : ∀ e ∈ old, e.live = false)
    (hsize : totalSize new < 2 ^ 16)
    (hroom : (images crc32 token old).length + totalSize new ≤ s.size) {moments : List Mem}
    (hmoments : ∀ m' ∈ moments, ∀ t ∈ sector_map, Dead crc32 token m' t) (m₀ : Mem) :
    Wrote crc32 token sector_map m₀ new
      (writeEntry dev crc32 token new moments m (s.address + (images crc32 token old).length)) := by
  have hmem : s ∈ sector_map := hsplit ▸ List.mem_append_right _ List.mem_cons_self
  have hlive := live_append hmap hdead hsplit hholds hold hsize hroom
  have hpf : 4 ∣ s.address + (images crc32 token old).length :=
    Nat.dvd_add (hmap.address_dvd s hmem) (length_images_dvd old)
  rw [writeEntry_eq hdev hsize hpf (hholds.rest.mono le_rfl (by omega))]
  refine ⟨rfl, ⟨pre, post, s, old, ?_⟩, ?_⟩
  · rw [Written.final, List.getLastD_concat]
    exact hlive
  · intro m' hm'
    rcases List.mem_append.mp hm' with hm' | hm'
    · rw [validEntries_dead hmap.size_dvd (hmoments m' hm')]
      exact Nat.zero_le 1
    · rw [List.mem_singleton.mp hm', length_validEntries hmap.size_dvd hlive]

/-! ### The first write -/

theorem findIn_blank {p pe : ℕ} (hblank : Blank m p pe) (hdvd : 4 ∣ pe - p) (hle : p ≤ pe)
    (hfuel : pe < p + 4 * fuel) : findIn crc32 m token pe fuel p = some none := by
  induction fuel generalizing p with
  | zero => omega
  | succ fuel ih =>
    rw [findIn]
    by_cases hpe : p = pe
    · rw [if_pos hpe]
    · have hmagic : validMagic m p = false := by
        have hword : magic m p = BlankSig := hblank.word_eq (by omega)
        rw [validMagic, hword]
        decide
      rw [if_neg hpe, hmagic]
      exact ih (hblank.mono (by omega) le_rfl) (by omega) (by omega) (by omega)

theorem findEntry_blank (hmap : SectorMapOk dev sector_map) (hfuel : Enough sector_map fuel)
    (hblank : ∀ t ∈ sector_map, Blank m t.address (t.address + t.size)) :
    findEntry crc32 m token fuel sector_map = some none := by
  have hsectors : ∀ ss, (∀ t ∈ ss, t ∈ sector_map) →
      findEntry crc32 m token fuel ss = some none := by
    intro ss hss
    induction ss with
    | nil => rfl
    | cons t ss ih =>
      have ht := hss t List.mem_cons_self
      have hdvd := hmap.size_dvd t ht
      have hpos := hmap.size_pos t ht
      have hturns := hfuel t ht t ht
      have hfind : findIn crc32 m token t.pe fuel t.address = some none := by
        unfold SectorDescriptor.pe
        exact findIn_blank ((hblank t ht).mono le_rfl (by omega)) (by omega) (by omega) (by omega)
      rw [findEntry, hfind]
      exact ih fun u hu => hss u (List.mem_cons_of_mem _ hu)
  exact hsectors sector_map fun t ht => ht

theorem findFree_blank {required : ℕ} (hrequired : required < 2 ^ 16) (hpos : 6 ≤ required)
    (hroom : required ≤ s.size) (hblank : Blank m s.address (s.address + s.size))
    (hfuel : 0 < fuel) :
    findFree crc32 m required fuel (s :: post) = some (some s.address) := by
  obtain ⟨fuel, rfl⟩ : ∃ n, fuel = n + 1 := Nat.exists_eq_succ_of_ne_zero hfuel.ne'
  have hmagic : magic m s.address = BlankSig := hblank.word_eq (by omega)
  have hflag : flag m s.address = BlankEntry :=
    (hblank.mono (by omega) le_rfl).half_eq (by omega)
  have hvalid : validMagic m s.address = false := by
    rw [validMagic, hmagic]
    decide
  have hfree : (blankMagic m s.address && blankEntry m s.address &&
      blankCheck m s.address required) = true := by
    rw [blankMagic, blankEntry, hmagic, hflag, blankCheck_blank (hblank.mono le_rfl (by omega))]
    decide
  rw [findFree, freeIn, Nat.mod_eq_of_lt hrequired, hvalid, if_neg Bool.false_ne_true, if_pos hfree]

theorem write_blank (hdev : dev.Works) (hmap : SectorMapOk dev sector_map)
    (hne : sector_map ≠ []) (hfuel : Enough sector_map fuel)
    (hblank : ∀ t ∈ sector_map, Blank m t.address (t.address + t.size))
    (hfits : ∀ t ∈ sector_map, totalSize new ≤ t.size) :
    ∃ w, parameterFlashfsWrite dev crc32 sector_map token fuel m new = some w ∧
      Wrote crc32 token sector_map m new w := by
  obtain ⟨s, post, rfl⟩ := List.exists_cons_of_ne_nil hne
  have hs : s ∈ s :: post := List.mem_cons_self
  have hle := le_totalSize new
  unfold headerSize at hle
  have hroom := hfits s hs
  have hsize : totalSize new < 2 ^ 16 := hroom.trans_lt (hmap.size_lt s hs)
  have hturns := hfuel s hs s hs
  refine ⟨_, by rw [parameterFlashfsWrite, findEntry_blank hmap hfuel hblank,
    findFree_blank hsize (by omega) hroom (hblank s hs) (by omega)], ?_⟩
  have hsplit : s :: post = [] ++ s :: post := rfl
  have hwrote : Wrote crc32 token (s :: post) m new
      (writeEntry dev crc32 token new [] m (s.address + (images crc32 token []).length)) :=
    wrote_of_dead hdev hmap (fun t ht => ⟨[], holds_nil (hblank t ht), by simp⟩) hsplit
      (holds_nil (hblank s hs)) (by simp) hsize (by simpa [images] using hroom) (by simp) m
  exact hwrote

/-! ### The writes after it -/

section Live

variable (hdev : dev.Works) (hmap : SectorMapOk dev sector_map)
  (h : Live crc32 token m sector_map data pre post s old)
include hmap h

theorem checkFreeSpaceInSector_eq (n : ℕ) :
    checkFreeSpaceInSector m sector_map (s.address + (images crc32 token old).length) n =
      some (if (images crc32 token old).length + totalSize data + n < s.size then none
        else some s) := by
  obtain ⟨hat, hsize, hend⟩ := h.at_entry
  have hle := le_totalSize data
  unfold headerSize at hle
  have hmagic : validMagic m (s.address + (images crc32 token old).length) = true :=
    decide_eq_true (magic_image hat)
  have hinfo : getSectorInfo sector_map (s.address + (images crc32 token old).length) = some s := by
    obtain rfl := h.split
    exact getSectorInfo_eq hmap (by omega) (by omega)
  rw [checkFreeSpaceInSector, hinfo, Option.map_some, hmagic, if_pos rfl, nextEntry_image hat hsize]
  congr 1
  refine if_congr ?_ rfl rfl
  dsimp only
  omega

theorem getNextSectorDescriptor_mem :
    ∃ next ∈ sector_map, getNextSectorDescriptor sector_map s = some next := by
  obtain rfl := h.split
  rw [getNextSectorDescriptor_eq hmap]
  cases post with
  | nil =>
    cases pre with
    | nil => exact ⟨s, List.mem_cons_self, rfl⟩
    | cons t pre => exact ⟨t, List.mem_cons_self, rfl⟩
  | cons t post =>
    exact ⟨t, List.mem_append_right _ (List.mem_cons_of_mem _ List.mem_cons_self), rfl⟩

include hdev

theorem wrote_same (hsize : totalSize new < 2 ^ 16)
    (hroom : (images crc32 token old).length + totalSize data + totalSize new ≤ s.size) {m₁ : Mem}
    (hm₁ : m₁ = put m (s.address + (images crc32 token old).length + 4)
      (littleEndian 2 ErasedEntry)) :
    Wrote crc32 token sector_map m new
      (writeEntry dev crc32 token new [m₁] m₁
        (nextEntry m₁ (s.address + (images crc32 token old).length))) := by
  subst hm₁
  have hdead := h.erase hmap
  have hholds := h.holds.erase
  obtain ⟨hat, hsize', hend⟩ := h.at_entry
  have hold : ∀ e ∈ old ++ [⟨data, false⟩], e.live = false := by
    intro e he
    rcases List.mem_append.mp he with he | he
    · exact h.old e he
    · rw [List.mem_singleton.mp he]
  have hnext : s.address + (images crc32 token old).length + totalSize data =
      s.address + (images crc32 token (old ++ [⟨data, false⟩])).length := by
    rw [length_images_flag, Nat.add_assoc]
  rw [nextEntry_image (at_erased hat) hsize', hnext]
  refine wrote_of_dead hdev hmap hdead h.split hholds hold hsize ?_ ?_ m
  · rwa [length_images_flag]
  · intro m' hm'
    rw [List.mem_singleton.mp hm']
    exact hdead

end Live

theorem wrote_next (hdev : dev.Works) (hmap : SectorMapOk dev sector_map)
    (hs : s ∈ sector_map) (hroom : totalSize new ≤ s.size) {moments : List Mem}
    (hdead : ∀ t ∈ sector_map, Dead crc32 token m t)
    (hmoments : ∀ m' ∈ moments, ∀ t ∈ sector_map, Dead crc32 token m' t)
    (hblank : Blank m s.address (s.address + s.size)) (m₀ : Mem) :
    Wrote crc32 token sector_map m₀ new (writeEntry dev crc32 token new moments m s.address) := by
  obtain ⟨pre, post, hsplit⟩ := List.append_of_mem hs
  have hwrote : Wrote crc32 token sector_map m₀ new
      (writeEntry dev crc32 token new moments m (s.address + (images crc32 token []).length)) :=
    wrote_of_dead hdev hmap hdead hsplit (holds_nil hblank) (by simp)
      (hroom.trans_lt (hmap.size_lt s hs)) (by simpa [images] using hroom) hmoments m₀
  exact hwrote

theorem dead_eraseSector (hmap : SectorMapOk dev sector_map) (hs : s ∈ sector_map)
    (hdead : ∀ t ∈ sector_map, Dead crc32 token m t) :
    ∀ t ∈ sector_map, Dead crc32 token (eraseSector dev m s s.address) t := by
  rw [eraseSector_eq hmap hs]
  obtain ⟨pre, post, rfl⟩ := List.append_of_mem hs
  have hother : ∀ t ∈ pre ++ post,
      Dead crc32 token (put m s.address (List.replicate s.size 255)) t := by
    intro t ht
    refine Dead.of_put hmap ht (hdead t ?_) le_rfl (by rw [List.length_replicate])
    rcases List.mem_append.mp ht with ht | ht
    · exact List.mem_append_left _ ht
    · exact List.mem_append_right _ (List.mem_cons_of_mem _ ht)
  intro t ht
  rcases List.mem_append.mp ht with ht | ht
  · exact hother t (List.mem_append_left _ ht)
  · rcases List.mem_cons.mp ht with rfl | ht
    · exact ⟨[], holds_nil (blank_erased m _ _), by simp⟩
    · exact hother t (List.mem_append_right _ ht)

theorem write_live (hdev : dev.Works) (hmap : SectorMapOk dev sector_map)
    (hfuel : Enough sector_map fuel) (hfits : ∀ t ∈ sector_map, totalSize new ≤ t.size)
    (h : Live crc32 token m sector_map data pre post s old) :
    ∃ w, parameterFlashfsWrite dev crc32 sector_map token fuel m new = some w ∧
      Wrote crc32 token sector_map m new w := by
  have hs : s ∈ sector_map := h.split ▸ List.mem_append_right _ List.mem_cons_self
  have hpf : 4 ∣ s.address + (images crc32 token old).length :=
    Nat.dvd_add (hmap.address_dvd s hs) (length_images_dvd old)
  simp only [parameterFlashfsWrite, findEntry_live hmap hfuel h, checkFreeSpaceInSector_eq hmap h]
  by_cases hroom : (images crc32 token old).length + totalSize data + totalSize new < s.size
  · simp only [if_pos hroom]
    rw [eraseEntry_eq hdev hpf]
    exact ⟨_, rfl, wrote_same hdev hmap h ((hfits s hs).trans_lt (hmap.size_lt s hs)) hroom.le rfl⟩
  · obtain ⟨next, hnext, heq⟩ := getNextSectorDescriptor_mem hmap h
    -- once the old entry is erased there is no valid one in any sector, whatever is done next
    have hdead := h.erase hmap
    have hle := le_totalSize new
    unfold headerSize at hle
    simp only [if_neg hroom, heq, if_neg (Nat.not_lt.mpr (hfits next hnext))]
    rw [eraseEntry_eq hdev hpf]
    cases hcheck : blankCheck
        (put m (s.address + (images crc32 token old).length + 4) (littleEndian 2 ErasedEntry))
        next.address (totalSize new) with
    | true =>
      obtain ⟨es, hes, -⟩ := hdead next hnext
      obtain rfl := hes.eq_nil_of_blankCheck (by omega) hcheck
      refine ⟨_, rfl, wrote_next hdev hmap hnext (hfits next hnext) hdead ?_ hes.rest m⟩
      intro m' hm'
      rw [List.mem_singleton.mp hm']
      exact hdead
    | false =>
      have hdead' := dead_eraseSector hmap hnext hdead
      refine ⟨_, rfl, wrote_next hdev hmap hnext (hfits next hnext) hdead' ?_ ?_ m⟩
      · intro m' hm'
        rcases List.mem_cons.mp hm' with rfl | hm'
        · exact hdead
        · rw [List.mem_singleton.mp hm']
          exact hdead'
      · rw [eraseSector_eq hmap hnext]
        exact blank_erased _ _ _

theorem read_live (hmap : SectorMapOk dev sector_map) (hfuel : Enough sector_map fuel)
    (h : Live crc32 token m sector_map data pre post s old) :
    parameterFlashfsRead crc32 sector_map token fuel m = some (.ok data) := by
  obtain ⟨hat, hsize, -⟩ := h.at_entry
  simp only [parameterFlashfsRead, findEntry_live hmap hfuel h, Option.map_some,
    slice_data hat hsize]

/-! ### Sequences of writes -/

section Store

variable (dev : Progmem) (crc32 : List UInt8 → UInt32) (sector_map : List SectorDescriptor)
  (token : UInt32) (fuel : ℕ)

def store (m : Mem) (data : List UInt8) : Mem :=
  ((parameterFlashfsWrite dev crc32 sector_map token fuel m data).map (Written.final m)).getD m

/-- The write is successful, the data is what is read after it, and after each operation of the
driver at most one entry is valid. -/
def Stored (m : Mem) (data : List UInt8) : Prop :=
  ∃ w, parameterFlashfsWrite dev crc32 sector_map token fuel m data = some w ∧
    w.rv = data.length ∧
    parameterFlashfsRead crc32 sector_map token fuel (w.final m) = some (.ok data) ∧
    ∀ m' ∈ w.moments, (validEntries crc32 m' token sector_map).length ≤ 1

/-- All sectors are blank, or one entry is live. -/
def Consistent (m : Mem) : Prop :=
  (∀ t ∈ sector_map, Blank m t.address (t.address + t.size)) ∨
    ∃ data pre post s old, Live crc32 token m sector_map data pre post s old

end Store

theorem stored_of_consistent (hdev : dev.Works) (hmap : SectorMapOk dev sector_map)
    (hne : sector_map ≠ []) (hfuel : Enough sector_map fuel)
    (h : Consistent crc32 sector_map token m) (hfits : ∀ t ∈ sector_map, totalSize data ≤ t.size) :
    Stored dev crc32 sector_map token fuel m data ∧
      Consistent crc32 sector_map token (store dev crc32 sector_map token fuel m data) := by
  have hwrite : ∃ w, parameterFlashfsWrite dev crc32 sector_map token fuel m data = some w ∧
      Wrote crc32 token sector_map m data w := by
    rcases h with hblank | ⟨last, pre, post, s, old, hlive⟩
    · exact write_blank hdev hmap hne hfuel hblank hfits
    · exact write_live hdev hmap hfuel hfits hlive
  obtain ⟨w, hw, hrv, ⟨pre, post, s, old, hlive⟩, hmoments⟩ := hwrite
  refine ⟨⟨w, hw, hrv, read_live hmap hfuel hlive, hmoments⟩, .inr ⟨data, pre, post, s, old, ?_⟩⟩
  rw [store, hw]
  exact hlive

theorem exists_enough (sector_map : List SectorDescriptor) :
    ∃ turns, ∀ fuel ≥ turns, Enough sector_map fuel := by
  refine ⟨(sector_map.map fun t => t.address + t.size).max?.getD 0, fun fuel hfuel s _ t ht => ?_⟩
  have hmem : t.address + t.size ∈ sector_map.map fun t => t.address + t.size :=
    List.mem_map.mpr ⟨t, ht, rfl⟩
  have hle := (List.le_max?_getD_of_mem hmem).trans hfuel
  omega

/-- **The store of parameters.**  In every sequence of writes to a blank flash, of data that fit
into the sectors, every write is successful, what is read after it is what has been written, and
at every moment at most one entry is valid. -/
theorem flash_store (hdev : dev.Works) (hmap : SectorMapOk dev sector_map) (hne : sector_map ≠ [])
    (hblank : ∀ t ∈ sector_map, Blank m t.address (t.address + t.size)) {writes : List (List UInt8)}
    (hfits : ∀ data ∈ writes, ∀ t ∈ sector_map, totalSize data ≤ t.size) :
    ∃ turns, ∀ fuel ≥ turns,
      Trace.Always (store dev crc32 sector_map token fuel)
        (Stored dev crc32 sector_map token fuel) m writes := by
  obtain ⟨turns, hturns⟩ := exists_enough sector_map
  refine ⟨turns, fun fuel hfuel => ?_⟩
  refine Trace.always_of_invariant (I := Consistent crc32 sector_map token)
    (C := fun _ data => ∀ t ∈ sector_map, totalSize data ≤ t.size)
    (fun m data h hdata => stored_of_consistent hdev hmap hne (hturns fuel hfuel) h hdata)
    (.inl hblank) ?_
  exact Trace.always_of_forall hfits

def nuttxCrc32 (bytes : List UInt8) : UInt32 :=
  bytes.foldl (fun crc b => (List.range 8).foldl
    (fun c _ => if c &&& 1 = 1 then (c >>> 1) ^^^ 0xedb88320 else c >>> 1) (crc ^^^ b.toUInt32)) 0

theorem flash_store_two_sectors :
    ∃ turns, ∀ fuel ≥ turns,
      Trace.Always (store (Progmem.uniform 32) nuttxCrc32 [⟨1, 32, 32⟩, ⟨2, 32, 64⟩] 7 fuel)
        (Stored (Progmem.uniform 32) nuttxCrc32 [⟨1, 32, 32⟩, ⟨2, 32, 64⟩] 7 fuel)
        (fun _ => 255) [[1, 2, 3], [4], [5, 6, 7, 8, 9]] := by
  refine flash_store (Progmem.uniform_works 32) ?_ (List.cons_ne_nil _ _) (fun _ _ _ _ _ => rfl)
    (by decide)
  refine ⟨by simp, by simp, by simp, by simp, by simp, by simp, ?_⟩
  intro s hs
  rcases List.mem_cons.mp hs with rfl | hs
  · exact Progmem.uniform_hasBlock (by decide) 1
  · rw [List.mem_singleton.mp hs]
    exact Progmem.uniform_hasBlock (by decide) 2

end FlashFs
