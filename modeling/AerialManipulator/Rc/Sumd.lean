/-
The decoder for SUMD and SUMH.

It gets one byte at a time.  A packet has a header, a status, the number of channels, two bytes for
each of them, and a checksum: one of 16 bits for SUMD; for SUMH, two bytes that are not used, a
telemetry request and one of 8 bits.

The packet is a packed record: behind the data there are the bytes of the checksum.  The count of
the bytes of data starts at one, so that the data are stored from the second place on, and the last
byte of 32 channels where the checksum will be.

* `sumdDecode` — one call; with its value it returns which bytes of `sumd_data` it has accessed;
* `feed_data` — the calls for the data;
* **`decodes_iff`** — a frame of SUMD is decoded as it should be if it has 3 to 31 channels, and
  only then.
-/
import AerialManipulator.Lib.ByteStore
import AerialManipulator.Lib.Mealy

open ByteStore

namespace Sumd

def maxChannels : ℕ := 32
def headerId : UInt8 := 0xa8
def idSumh : UInt8 := 0x00
def idSumd : UInt8 := 0x01
def idFailsafe : UInt8 := 0x81

inductive DecodeState
  | unsynced
  | gotHeader
  | gotState
  | gotLen
  | gotData
  | gotCrc
  | gotCrc16Byte1
  | gotCrc16Byte2
  deriving DecidableEq

/-! The places of the fields in `ReceiverFcPacketHoTT`. -/

def header : ℕ := 0
def status : ℕ := 1
def length : ℕ := 2
def sumdData (i : ℕ) : ℕ := 3 + i
def crc16High : ℕ := 67
def crc16Low : ℕ := 68
def telemetry : ℕ := 69
def crc8Field : ℕ := 70

def crc16 (crc : UInt16) (value : UInt8) : UInt16 :=
  (List.range 8).foldl
    (fun crc _ => if crc &&& 0x8000 ≠ 0 then (crc <<< 1) ^^^ 0x1021 else crc <<< 1)
    (crc ^^^ (value.toUInt16 <<< 8))

def crc8 (crc value : UInt8) : UInt8 := crc + value

/-- The variables of the decoder, and what the pointers of the caller point to. -/
structure Decoder where
  state : DecodeState
  rxlen : UInt8
  crc16 : UInt16
  crc8 : UInt8
  sumd : Bool
  crcOK : Bool
  rxpacket : Mem
  rssi : UInt8
  rx_count : UInt8
  channel_count : UInt16
  channels : ℕ → UInt16
  failsafe : Bool

/-- The value that is returned, and the indices of `sumd_data` that were read or written. -/
structure Result where
  ret : ℕ
  accesses : List ℕ

namespace Decoder

def addCrc (d : Decoder) (byte : UInt8) : Decoder :=
  if d.sumd then { d with crc16 := Sumd.crc16 d.crc16 byte }
  else { d with crc8 := Sumd.crc8 d.crc8 byte }

def store (d : Decoder) (field : ℕ) (byte : UInt8) : Decoder :=
  { d with rxpacket := put d.rxpacket field [byte] }

/-- The value of a channel in `sumd_data`. -/
def channel (d : Decoder) (i : ℕ) : UInt16 :=
  (((d.rxpacket (sumdData (i * 2 + 1))).toUInt16 <<< 8) |||
    (d.rxpacket (sumdData (i * 2 + 2))).toUInt16) >>> 3

/-- The bytes of `sumd_data` that are read for some channels. -/
def reads (is : List ℕ) : List ℕ := is.flatMap fun i => [i * 2 + 1, i * 2 + 2]

def others (d : Decoder) : List ℕ := List.range' 4 ((d.rxpacket length).toNat - 4)

def decodePacket (d : Decoder) (max_chan_count : UInt16) : Decoder × Result :=
  let d := { d with
    rx_count := d.rx_count + 1
    rssi := 100
    failsafe := d.rxpacket status = idFailsafe }
  let d :=
    if (d.rxpacket length).toNat > max_chan_count.toNat then d.store length max_chan_count.toUInt8
    else d
  let d := { d with channel_count := (d.rxpacket length).toUInt16 }
  let channels := Function.update d.channels 0 (d.channel 1)
  let channels := Function.update channels 1 (d.channel 2)
  let channels := Function.update channels 2 (d.channel 0)
  let channels := Function.update channels 3 (d.channel 3)
  let channels := d.others.foldl (fun c i => Function.update c i (d.channel i)) channels
  ({ d with channels := channels }, ⟨0, reads ([1, 2, 0, 3] ++ d.others)⟩)

end Decoder

def sumdDecode (max_chan_count : UInt16) (d : Decoder) (byte : UInt8) : Decoder × Result :=
  match d.state with
  | .unsynced =>
    if byte = headerId then
      ({ d.store header byte with
        sumd := true
        rxlen := 0
        crcOK := false
        crc16 := crc16 0 byte
        crc8 := crc8 0 byte
        state := .gotHeader }, ⟨1, []⟩)
    else (d, ⟨3, []⟩)
  | .gotHeader =>
    if byte = idSumd ∨ byte = idFailsafe ∨ byte = idSumh then
      let d := d.store status byte
      let d := if byte = idSumh then { d with sumd := false } else d
      ({ d.addCrc byte with state := .gotState }, ⟨1, []⟩)
    else ({ d with state := .unsynced }, ⟨1, []⟩)
  | .gotState =>
    if 2 ≤ byte.toNat ∧ byte.toNat ≤ maxChannels then
      let d := (d.store length byte).addCrc byte
      ({ d with rxlen := d.rxlen + 1, state := .gotLen }, ⟨1, []⟩)
    else ({ d with state := .unsynced }, ⟨1, []⟩)
  | .gotLen =>
    let i := d.rxlen.toNat
    let d := (d.store (sumdData i) byte).addCrc byte
    let d := { d with rxlen := d.rxlen + 1 }
    if d.rxlen.toNat ≤ (d.rxpacket length).toNat * 2 then (d, ⟨1, [i]⟩)
    else ({ d with state := .gotData }, ⟨1, [i]⟩)
  | .gotData =>
    ({ d.store crc16High byte with state := if d.sumd then .gotCrc else .gotCrc16Byte1 }, ⟨1, []⟩)
  | .gotCrc16Byte1 => ({ d.store crc16Low byte with state := .gotCrc16Byte2 }, ⟨1, []⟩)
  | .gotCrc16Byte2 => ({ d.store telemetry byte with state := .gotCrc }, ⟨1, []⟩)
  | .gotCrc =>
    let d :=
      if d.sumd then
        let d := d.store crc16Low byte
        if d.crc16.toNat = (d.rxpacket crc16High).toNat * 256 + (d.rxpacket crc16Low).toNat then
          { d with crcOK := true }
        else d
      else
        let d := d.store crc8Field byte
        if d.crc8 = d.rxpacket crc8Field then { d with crcOK := true } else d
    if d.crcOK then
      match d.decodePacket max_chan_count with
      | (d, r) => ({ d with state := .unsynced }, r)
    else ({ d with state := .unsynced }, ⟨4, []⟩)

/-! ### Frames -/

def bigEndian (w : UInt16) : List UInt8 := [(w >>> 8).toUInt8, w.toUInt8]

def data (words : List UInt16) : List UInt8 := words.flatMap bigEndian

def body (st : UInt8) (words : List UInt16) : List UInt8 :=
  [headerId, st, UInt8.ofNat words.length] ++ data words

def frame (st : UInt8) (words : List UInt16) : List UInt8 :=
  body st words ++ bigEndian ((body st words).foldl crc16 0)

/-- The channels are the words, of which the first three have another order. -/
def source : ℕ → ℕ
  | 0 => 1
  | 1 => 2
  | 2 => 0
  | i => i

/-- A frame is decoded as it should be: the last call returns 0, and no other one; the channels are
the words; and no call leaves `sumd_data`. -/
structure Decodes (max_chan_count : UInt16) (d : Decoder) (st : UInt8) (words : List UInt16) :
    Prop where
  rets : ∃ rs : List ℕ, (∀ r ∈ rs, r ≠ 0) ∧
    (Mealy.feed (sumdDecode max_chan_count) d (frame st words)).2.map Result.ret = rs ++ [0]
  channel_count :
    (Mealy.feed (sumdDecode max_chan_count) d (frame st words)).1.channel_count.toNat = words.length
  failsafe : (Mealy.feed (sumdDecode max_chan_count) d (frame st words)).1.failsafe = true ↔
    st = idFailsafe
  channels : ∀ i < words.length, ∃ w, words[source i]? = some w ∧
    (Mealy.feed (sumdDecode max_chan_count) d (frame st words)).1.channels i = w >>> 3
  inside : ∀ r ∈ (Mealy.feed (sumdDecode max_chan_count) d (frame st words)).2,
    ∀ i ∈ r.accesses, i < maxChannels * 2

/-! ### The data -/

/-- What the decoder has after a part of the data. -/
structure Collecting (d : Decoder) (st n : UInt8) (done : List UInt8) : Prop where
  sumd : d.sumd = true
  crcOK : d.crcOK = false
  crc16 : d.crc16 = ([headerId, st, n] ++ done).foldl crc16 0
  status : d.rxpacket status = st
  length : d.rxpacket length = n
  rxlen : d.rxlen.toNat = 1 + done.length
  data : ∀ i (hi : i < done.length), d.rxpacket (sumdData (1 + i)) = done[i]

variable {max_chan_count : UInt16} {d : Decoder} {st n : UInt8} {done : List UInt8}

theorem rxpacket_store (field : ℕ) (b : UInt8) : (d.store field b).rxpacket field = b := by
  change put d.rxpacket field [b] field = b
  rw [put_singleton, Function.update_self]

theorem rxpacket_store_of_ne {field a : ℕ} (ha : a ≠ field) (b : UInt8) :
    (d.store field b).rxpacket a = d.rxpacket a := by
  change put d.rxpacket field [b] a = _
  rw [put_singleton, Function.update_of_ne ha]

theorem collecting_header (hd : d.state = .unsynced) (hst : st = idSumd ∨ st = idFailsafe)
    (hn : 2 ≤ n.toNat) (hn' : n.toNat ≤ maxChannels) :
    ∃ d', Mealy.feed (sumdDecode max_chan_count) d [headerId, st, n] =
        (d', [⟨1, []⟩, ⟨1, []⟩, ⟨1, []⟩]) ∧
      d'.state = .gotLen ∧ Collecting d' st n [] := by
  have hsumh : st ≠ idSumh := by
    rintro rfl
    exact nomatch hst
  have hst' : st = idSumd ∨ st = idFailsafe ∨ st = idSumh := hst.imp_right .inl
  refine ⟨{ ((d.store header headerId).store status st).store length n with
    sumd := true
    rxlen := 1
    crcOK := false
    crc16 := crc16 (crc16 (crc16 0 headerId) st) n
    crc8 := crc8 0 headerId
    state := .gotLen }, ?_, rfl, ?_⟩
  · simp only [Mealy.feed_cons, Mealy.feed_nil, sumdDecode, hd, if_pos hst', if_neg hsumh,
      if_pos (And.intro hn hn')]
    rfl
  · exact ⟨rfl, rfl, rfl, rfl, rfl, rfl, fun i hi => nomatch hi⟩

theorem Collecting.byte (h : Collecting d st n done) (hd : d.state = .gotLen)
    (hn : n.toNat ≤ maxChannels) (hdone : done.length < n.toNat * 2) (b : UInt8) :
    ∃ d', sumdDecode max_chan_count d b = (d', ⟨1, [1 + done.length]⟩) ∧
      d'.state = (if done.length + 1 < n.toNat * 2 then .gotLen else .gotData) ∧
      Collecting d' st n (done ++ [b]) := by
  unfold maxChannels at hn
  have hrxlen := h.rxlen
  have hlen : (d.rxlen + 1).toNat = 1 + (done.length + 1) := by
    rw [UInt8.toNat_add, hrxlen, UInt8.toNat_one]
    omega
  have hstored : ∀ a ≠ sumdData (1 + done.length),
      (d.store (sumdData (1 + done.length)) b).rxpacket a = d.rxpacket a :=
    fun a ha => rxpacket_store_of_ne ha b
  have hnext : Collecting { (d.store (sumdData (1 + done.length)) b).addCrc b with
      rxlen := d.rxlen + 1 } st n (done ++ [b]) := by
    have hsumd : (d.store (sumdData (1 + done.length)) b).sumd = true := h.sumd
    rw [Decoder.addCrc, if_pos hsumd]
    refine ⟨h.sumd, h.crcOK, ?_, ?_, ?_, ?_, ?_⟩
    · rw [← List.append_assoc, List.foldl_append, ← h.crc16]
      rfl
    · exact (hstored _ (by unfold sumdData Sumd.status; omega)).trans h.status
    · exact (hstored _ (by unfold sumdData Sumd.length; omega)).trans h.length
    · rw [List.length_append, List.length_singleton]
      exact hlen
    · intro i hi
      rw [List.length_append, List.length_singleton] at hi
      rcases Nat.lt_or_ge i done.length with hlt | hge
      · rw [List.getElem_append_left hlt]
        exact (hstored _ (by unfold sumdData; omega)).trans (h.data i hlt)
      · obtain rfl : i = done.length := by omega
        rw [List.getElem_concat_length rfl]
        exact rxpacket_store _ b
  have hlength := hnext.length
  dsimp only at hlength
  simp only [sumdDecode, hd, hrxlen]
  have hrxlen' : ((d.store (sumdData (1 + done.length)) b).addCrc b).rxlen = d.rxlen := by
    rw [Decoder.addCrc]
    split <;> rfl
  have hlt : 1 + (done.length + 1) ≤ n.toNat * 2 ↔ done.length + 1 < n.toNat * 2 := by omega
  rw [hrxlen', hlen, hlength]
  by_cases hmore : done.length + 1 < n.toNat * 2
  · rw [if_pos (hlt.mpr hmore), if_pos hmore]
    refine ⟨_, rfl, ?_, hnext⟩
    rw [Decoder.addCrc]
    split <;> exact hd
  · rw [if_neg (mt hlt.mp hmore), if_neg hmore]
    exact ⟨_, rfl, rfl, ⟨hnext.sumd, hnext.crcOK, hnext.crc16, hnext.status, hnext.length,
      hnext.rxlen, hnext.data⟩⟩

theorem feed_data (h : Collecting d st n done) (hd : d.state = .gotLen)
    (hn : n.toNat ≤ maxChannels) {bytes : List UInt8} (hne : bytes ≠ [])
    (hlen : done.length + bytes.length = n.toNat * 2) :
    ∃ d', Mealy.feed (sumdDecode max_chan_count) d bytes =
        (d', (List.range' (1 + done.length) bytes.length).map fun i => ⟨1, [i]⟩) ∧
      d'.state = .gotData ∧ Collecting d' st n (done ++ bytes) := by
  induction bytes generalizing d done with
  | nil => exact absurd rfl hne
  | cons b bytes ih =>
    rw [List.length_cons] at hlen
    obtain ⟨d₁, hstep, hstate, h₁⟩ := h.byte hd hn (by omega) b
    rw [Mealy.feed_cons, hstep]
    cases bytes with
    | nil =>
      rw [if_neg (by rw [List.length_nil] at hlen; omega)] at hstate
      exact ⟨d₁, rfl, hstate, h₁⟩
    | cons c bytes =>
      rw [if_pos (by rw [List.length_cons] at hlen; omega)] at hstate
      obtain ⟨d', hfeed, hstate', h'⟩ := ih h₁ hstate (List.cons_ne_nil _ _)
        (by rw [List.length_append, List.length_singleton]; omega)
      refine ⟨d', ?_, hstate', by simpa using h'⟩
      rw [hfeed, List.length_append, List.length_singleton, List.length_cons, List.range'_succ,
        List.map_cons]
      rfl

/-! ### The channels -/

theorem length_data (words : List UInt16) : (data words).length = words.length * 2 := by
  induction words with
  | nil => rfl
  | cons w words ih =>
    rw [data, List.flatMap_cons, List.length_append, List.length_cons]
    change 2 + (data words).length = _
    omega

theorem getElem?_data {words : List UInt16} {i : ℕ} {w : UInt16} (h : words[i]? = some w) :
    (data words)[i * 2]? = some (w >>> 8).toUInt8 ∧ (data words)[i * 2 + 1]? = some w.toUInt8 := by
  induction words generalizing i with
  | nil => exact absurd h (by simp)
  | cons v words ih =>
    cases i with
    | zero =>
      obtain rfl : v = w := by simpa using h
      exact ⟨rfl, rfl⟩
    | succ i =>
      rw [List.getElem?_cons_succ] at h
      rw [Nat.succ_mul]
      exact ih h

theorem bytes_eq (w : UInt16) : ((w >>> 8).toUInt8.toUInt16 <<< 8) ||| w.toUInt8.toUInt16 = w := by
  have hw := w.toNat_lt
  have hlow : w.toNat % 2 ^ 8 < 2 ^ 8 := Nat.mod_lt _ (by decide)
  have hhigh : ((w.toNat >>> 8) % 2 ^ 8) <<< 8 % 2 ^ 16 = ((w.toNat >>> 8) % 2 ^ 8) <<< 8 := by
    rw [Nat.shiftLeft_eq]
    omega
  apply UInt16.toNat_inj.mp
  rw [UInt16.toNat_or, UInt16.toNat_shiftLeft, UInt8.toNat_toUInt16, UInt8.toNat_toUInt16,
    UInt16.toNat_toUInt8, UInt16.toNat_toUInt8, UInt16.toNat_shiftRight]
  change ((w.toNat >>> 8) % 2 ^ 8) <<< 8 % 2 ^ 16 ||| w.toNat % 2 ^ 8 = w.toNat
  rw [hhigh, ← Nat.shiftLeft_add_eq_or_of_lt hlow, Nat.shiftLeft_eq, Nat.shiftRight_eq_div_pow]
  omega

theorem bigEndian_toNat (w : UInt16) :
    w.toNat = (w >>> 8).toUInt8.toNat * 256 + w.toUInt8.toNat := by
  have hw := w.toNat_lt
  rw [UInt16.toNat_toUInt8, UInt16.toNat_toUInt8, UInt16.toNat_shiftRight]
  change w.toNat = (w.toNat >>> 8) % 2 ^ 8 * 256 + w.toNat % 2 ^ 8
  rw [Nat.shiftRight_eq_div_pow]
  omega

theorem Collecting.channel {words : List UInt16} (h : Collecting d st n (Sumd.data words))
    {d' : Decoder} (hsame : ∀ i < words.length * 2,
      d'.rxpacket (sumdData (1 + i)) = d.rxpacket (sumdData (1 + i)))
    {i : ℕ} {w : UInt16} (hw : words[i]? = some w) : d'.channel i = w >>> 3 := by
  have hi : i < words.length := (List.getElem?_eq_some_iff.mp hw).1
  obtain ⟨hhigh, hlow⟩ := getElem?_data hw
  have hlen := length_data words
  have hbyte : ∀ j b, (Sumd.data words)[j]? = some b → d'.rxpacket (sumdData (j + 1)) = b := by
    intro j b hj
    obtain ⟨hlt, hget⟩ := List.getElem?_eq_some_iff.mp hj
    rw [Nat.add_comm j 1, hsame j (by omega), h.data j hlt, hget]
  rw [Decoder.channel, hbyte _ _ hhigh, hbyte _ _ hlow, bytes_eq]

theorem decodePacket_spec (hmax : (d.rxpacket length).toNat ≤ max_chan_count.toNat) :
    ((d.decodePacket max_chan_count).1.channel_count = (d.rxpacket length).toUInt16 ∧
      (d.decodePacket max_chan_count).1.failsafe = decide (d.rxpacket status = idFailsafe)) ∧
    (d.decodePacket max_chan_count).2 = ⟨0, Decoder.reads ([1, 2, 0, 3] ++ d.others)⟩ ∧
    ∀ i, i < 4 ∨ i < (d.rxpacket length).toNat →
      (d.decodePacket max_chan_count).1.channels i = d.channel (source i) := by
  have hnot : ¬ (d.rxpacket length).toNat > max_chan_count.toNat := Nat.not_lt.mpr hmax
  simp only [Decoder.decodePacket, if_neg hnot]
  refine ⟨⟨trivial, trivial⟩, rfl, fun i hi => ?_⟩
  obtain ⟨hmem, hnmem⟩ := foldl_update d.channel d.others (Function.update (Function.update
    (Function.update (Function.update d.channels 0 (d.channel 1)) 1 (d.channel 2)) 2
      (d.channel 0)) 3 (d.channel 3)) i
  rcases Nat.lt_or_ge i 4 with hlt | hge
  · have hfirst : i ∉ d.others := fun h => by
      have := List.mem_range'_1.mp h
      omega
    refine (hnmem hfirst).trans ?_
    obtain rfl | rfl | rfl | rfl : i = 0 ∨ i = 1 ∨ i = 2 ∨ i = 3 := by omega
    all_goals rfl
  · have hother : i ∈ d.others := List.mem_range'_1.mpr (by omega)
    refine (hmem hother).trans ?_
    obtain ⟨j, rfl⟩ := Nat.exists_eq_add_of_le' hge
    rfl

theorem getElem?_source {words : List UInt16} (hwords : 3 ≤ words.length) {i : ℕ}
    (hi : i < words.length) : ∃ w, words[source i]? = some w := by
  have hsource : source i < words.length := by
    unfold source
    split <;> omega
  exact ⟨_, List.getElem?_eq_getElem hsource⟩

theorem sumdDecode_gotCrc (hd : d.state = .gotCrc) (hsumd : d.sumd = true) {b : UInt8}
    (hcrc : d.crc16.toNat = (d.rxpacket crc16High).toNat * 256 + b.toNat) :
    sumdDecode max_chan_count d b =
      ({ (({ d.store crc16Low b with crcOK := true } : Decoder).decodePacket max_chan_count).1 with
          state := .unsynced },
        (({ d.store crc16Low b with crcOK := true } : Decoder).decodePacket max_chan_count).2) := by
  have hstored : (d.store crc16Low b).crc16.toNat =
      ((d.store crc16Low b).rxpacket crc16High).toNat * 256 +
        ((d.store crc16Low b).rxpacket crc16Low).toNat := by
    rw [rxpacket_store, rxpacket_store_of_ne (by decide)]
    exact hcrc
  simp only [sumdDecode, hd, hsumd, if_true, if_pos hstored]

theorem mem_reads {is : List ℕ} {j m : ℕ} (hj : j ∈ Decoder.reads is) (hm : ∀ i ∈ is, i < m) :
    j < m * 2 + 1 := by
  obtain ⟨i, hi, hj⟩ := List.mem_flatMap.mp hj
  have hlt := hm i hi
  simp only [List.mem_cons, List.not_mem_nil, or_false] at hj
  omega

theorem feed_bigEndian (h : Collecting d st n done) (hd : d.state = .gotData) :
    ∃ d' : Decoder, (∀ a < crc16High, d'.rxpacket a = d.rxpacket a) ∧
      Mealy.feed (sumdDecode max_chan_count) d (bigEndian d.crc16) =
        ({ (d'.decodePacket max_chan_count).1 with state := .unsynced },
          [⟨1, []⟩, (d'.decodePacket max_chan_count).2]) := by
  obtain ⟨d₁, hd₁⟩ : ∃ d₁ : Decoder,
      d₁ = { d.store crc16High (d.crc16 >>> 8).toUInt8 with state := .gotCrc } := ⟨_, rfl⟩
  have hbyte₁ : sumdDecode max_chan_count d (d.crc16 >>> 8).toUInt8 = (d₁, ⟨1, []⟩) := by
    simp only [sumdDecode, hd, h.sumd, if_true, hd₁]
  have hstored : d₁.rxpacket crc16High = (d.crc16 >>> 8).toUInt8 := by
    rw [hd₁]
    exact @rxpacket_store d crc16High (d.crc16 >>> 8).toUInt8
  have hcrc : d₁.crc16.toNat = (d₁.rxpacket crc16High).toNat * 256 + d.crc16.toUInt8.toNat := by
    rw [hstored, hd₁]
    exact bigEndian_toNat d.crc16
  have hbyte₂ := @sumdDecode_gotCrc max_chan_count d₁ (by rw [hd₁]) (by rw [hd₁]; exact h.sumd)
    d.crc16.toUInt8 hcrc
  refine ⟨{ d₁.store crc16Low d.crc16.toUInt8 with crcOK := true }, fun a ha => ?_, ?_⟩
  · -- the checksum is behind the data
    have hne : a ≠ crc16Low := by
      unfold crc16High at ha
      unfold crc16Low
      omega
    rw [hd₁]
    exact (rxpacket_store_of_ne hne _).trans (rxpacket_store_of_ne ha.ne _)
  · rw [bigEndian, Mealy.feed_cons, hbyte₁, Mealy.feed_cons, hbyte₂]
    rfl

theorem feed_crc {words : List UInt16} (h : Collecting d st n (data words))
    (hd : d.state = .gotData) (hn : words.length = n.toNat) (hlow : 3 ≤ n.toNat)
    (hhigh : n.toNat ≤ 31) (hmax : n.toNat ≤ max_chan_count.toNat) :
    ∃ d' accesses, Mealy.feed (sumdDecode max_chan_count) d (bigEndian d.crc16) =
        (d', [⟨1, []⟩, ⟨0, accesses⟩]) ∧
      (∀ i ∈ accesses, i < maxChannels * 2) ∧ d'.channel_count.toNat = n.toNat ∧
      (d'.failsafe = true ↔ st = idFailsafe) ∧
      ∀ i < words.length, ∃ w, words[source i]? = some w ∧ d'.channels i = w >>> 3 := by
  obtain ⟨d₂, hfields, hfeed⟩ := @feed_bigEndian max_chan_count _ _ _ _ h hd
  have hlength : d₂.rxpacket length = n := (hfields _ (by decide)).trans h.length
  have hstatus : d₂.rxpacket status = st := (hfields _ (by decide)).trans h.status
  have hothers : d₂.others = List.range' 4 (n.toNat - 4) := by
    rw [Decoder.others, hlength]
  have hroom : (d₂.rxpacket length).toNat ≤ max_chan_count.toNat := by rwa [hlength]
  obtain ⟨⟨hcount, hfailsafe⟩, hresult, hchannels⟩ := decodePacket_spec hroom
  refine ⟨{ (d₂.decodePacket max_chan_count).1 with state := .unsynced },
    Decoder.reads ([1, 2, 0, 3] ++ d₂.others), ?_, ?_, ?_, ?_, ?_⟩
  · rw [hfeed, hresult]
  · intro j hj
    rw [hothers] at hj
    have hlt := mem_reads (m := 31) hj fun i hi => by
      rcases List.mem_append.mp hi with hi | hi
      · simp only [List.mem_cons, List.not_mem_nil, or_false] at hi
        omega
      · have := List.mem_range'_1.mp hi
        omega
    unfold maxChannels
    omega
  · dsimp only
    rw [hcount, hlength, UInt8.toNat_toUInt16]
  · dsimp only
    rw [hfailsafe, hstatus, decide_eq_true_eq]
  · intro i hi
    obtain ⟨w, hw⟩ := getElem?_source (by omega) hi
    refine ⟨w, hw, ?_⟩
    dsimp only
    rw [hchannels i (.inr (by rw [hlength]; omega))]
    refine h.channel (fun j hj => hfields _ ?_) hw
    unfold sumdData crc16High
    omega

/-! ### Whole frames -/

variable (max_chan_count) in
theorem feed_body {words : List UInt16} (hd : d.state = .unsynced)
    (hst : st = idSumd ∨ st = idFailsafe) (hlow : 2 ≤ words.length)
    (hhigh : words.length ≤ maxChannels) :
    ∃ d', Mealy.feed (sumdDecode max_chan_count) d (body st words) =
        (d', [⟨1, []⟩, ⟨1, []⟩, ⟨1, []⟩] ++
          (List.range' 1 (words.length * 2)).map fun i => ⟨1, [i]⟩) ∧
      d'.state = .gotData ∧ Collecting d' st (UInt8.ofNat words.length) (data words) := by
  have hn : (UInt8.ofNat words.length).toNat = words.length := by
    unfold maxChannels at hhigh
    rw [UInt8.toNat_ofNat']
    omega
  have hlen := length_data words
  obtain ⟨d₁, hfeed₁, hstate₁, h₁⟩ := collecting_header hd hst (hn.symm ▸ hlow) (hn.symm ▸ hhigh)
  have hne : data words ≠ [] := by
    intro h
    rw [h, List.length_nil] at hlen
    omega
  obtain ⟨d₂, hfeed₂, hstate₂, h₂⟩ := feed_data h₁ hstate₁ (hn.symm ▸ hhigh) hne
    (by rw [hn, List.length_nil, hlen, Nat.zero_add])
  refine ⟨d₂, ?_, hstate₂, h₂⟩
  rw [body, Mealy.feed_append, hfeed₁, hfeed₂, hlen]
  rfl

theorem decodes_of_le {words : List UInt16} (hd : d.state = .unsynced)
    (hst : st = idSumd ∨ st = idFailsafe) (hlow : 3 ≤ words.length) (hhigh : words.length ≤ 31)
    (hmax : max words.length 4 ≤ max_chan_count.toNat) : Decodes max_chan_count d st words := by
  have hn : (UInt8.ofNat words.length).toNat = words.length := by
    rw [UInt8.toNat_ofNat']
    omega
  have hchannels : words.length ≤ maxChannels := hhigh.trans (by decide)
  have hroom : (UInt8.ofNat words.length).toNat ≤ max_chan_count.toNat := by omega
  obtain ⟨d₁, hfeed₁, hstate₁, h₁⟩ :=
    feed_body max_chan_count hd hst (Nat.le_of_succ_le hlow) hchannels
  obtain ⟨d₂, accesses, hfeed₂, hinside, hcount, hfailsafe, hchannels⟩ :=
    feed_crc h₁ hstate₁ hn.symm (by omega) (by omega) hroom
  have hcrc : (body st words).foldl crc16 0 = d₁.crc16 := h₁.crc16.symm
  have hfeed : Mealy.feed (sumdDecode max_chan_count) d (frame st words) =
      (d₂, ([⟨1, []⟩, ⟨1, []⟩, ⟨1, []⟩] ++
        (List.range' 1 (words.length * 2)).map fun i => ⟨1, [i]⟩) ++ [⟨1, []⟩, ⟨0, accesses⟩]) := by
    rw [frame, hcrc, Mealy.feed_append, hfeed₁, hfeed₂]
  refine ⟨?_, ?_, ?_, ?_, ?_⟩
  · rw [hfeed]
    refine ⟨[1, 1, 1] ++ List.replicate (words.length * 2) 1 ++ [1], ?_, ?_⟩
    · intro r hr
      obtain rfl : r = 1 := by
        simp only [List.mem_append, List.mem_cons, List.not_mem_nil, or_false, or_self,
          List.mem_replicate] at hr
        tauto
      decide
    · simp [Function.comp_def]
  · rw [hfeed, hcount, hn]
  · rw [hfeed]
    exact hfailsafe
  · rw [hfeed]
    exact hchannels
  · rw [hfeed]
    intro r hr i hi
    rcases List.mem_append.mp hr with hr | hr
    · rcases List.mem_append.mp hr with hr | hr
      · have hnone : ∀ r ∈ ([⟨1, []⟩, ⟨1, []⟩, ⟨1, []⟩] : List Result), r.accesses = [] := by simp
        rw [hnone r hr] at hi
        exact nomatch hi
      · obtain ⟨j, hj, rfl⟩ := List.mem_map.mp hr
        have hj' := List.mem_range'_1.mp hj
        rw [List.mem_singleton.mp hi]
        unfold maxChannels
        omega
    · rcases List.mem_cons.mp hr with rfl | hr
      · exact nomatch hi
      · rw [List.mem_singleton.mp hr] at hi
        exact hinside i hi

theorem not_decodes_of_full {words : List UInt16} (hd : d.state = .unsynced)
    (hst : st = idSumd ∨ st = idFailsafe) (hlen : words.length = maxChannels) :
    ¬ Decodes max_chan_count d st words := by
  intro h
  obtain ⟨d₁, hfeed₁, -, -⟩ := feed_body max_chan_count hd hst (by rw [hlen]; decide) hlen.le
  have hmem : (⟨1, [64]⟩ : Result) ∈
      (Mealy.feed (sumdDecode max_chan_count) d (frame st words)).2 := by
    rw [frame, Mealy.feed_append, hfeed₁, hlen]
    refine List.mem_append_left _ (List.mem_append_right _ ?_)
    exact List.mem_map.mpr ⟨64, List.mem_range'_1.mpr (by decide), rfl⟩
  exact absurd (h.inside _ hmem 64 (List.mem_singleton_self 64)) (by decide)

theorem not_decodes_of_two {words : List UInt16} (hlen : words.length = 2) :
    ¬ Decodes max_chan_count d st words := by
  intro h
  obtain ⟨w, hw, -⟩ := h.channels 1 (by omega)
  have hnone : words[source 1]? = none := List.getElem?_eq_none (by rw [hlen]; decide)
  exact absurd (hnone.symm.trans hw) (by simp)

/-- A frame of SUMD with 2 to 32 channels is decoded as it should be if and only if it has 3 to 31
of them. -/
theorem decodes_iff {words : List UInt16} (hd : d.state = .unsynced)
    (hst : st = idSumd ∨ st = idFailsafe) (hlow : 2 ≤ words.length)
    (hhigh : words.length ≤ maxChannels) (hmax : max words.length 4 ≤ max_chan_count.toNat) :
    Decodes max_chan_count d st words ↔ 3 ≤ words.length ∧ words.length ≤ 31 := by
  refine ⟨fun h => ?_, fun h => decodes_of_le hd hst h.1 h.2 hmax⟩
  unfold maxChannels at hhigh
  refine ⟨?_, ?_⟩
  · by_contra hlt
    exact not_decodes_of_two (by omega) h
  · by_contra hgt
    exact not_decodes_of_full hd hst (by unfold maxChannels; omega) h

def Decoder.initial : Decoder :=
  ⟨.unsynced, 0, 0, 0, true, false, fun _ => 0, 0, 0, 0, fun _ => 0, false⟩

theorem decodes_three : Decodes 18 .initial idFailsafe [0x1f40, 0x2ee0, 0x3e80] :=
  (decodes_iff rfl (.inr rfl) (by decide) (by decide) (by decide)).mpr ⟨by decide, by decide⟩

theorem not_decodes_thirtyTwo : ¬ Decodes 32 .initial idSumd (List.replicate 32 0x2ee0) :=
  not_decodes_of_full rfl (.inl rfl) rfl

end Sumd
