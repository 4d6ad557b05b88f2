/-
The decoder for ST24.

It gets one byte at a time.  A packet has two header bytes, a length, a type, data and a checksum;
the length counts the type, the data and the checksum.  The end of the data is found when a counter
of eight bits is equal to one less than the length: with a length of less than three it runs past
the data.  The channels are written two at a time, and a packet is decoded without a look at its
length.

* `st24Decode` — one call; with its value it returns which bytes of `st24_data` and which channels
  it has written;
* `Inv` — the counter, if every length is at least three;
* **`safe_run`** — a run whose packets have such lengths writes only where it should, decodes only
  what has come, and is unsynced again soon.

The packet is a packed record, which starts with the headers; `st24_data[-1]` is its type.
-/
import AerialManipulator.Lib.Binary32
import AerialManipulator.Lib.ByteStore
import AerialManipulator.Lib.Trace

open ByteStore

namespace St24

def ST24_DATA_LEN_MAX : ℕ := 64
def ST24_STX1 : UInt8 := 0x55
def ST24_STX2 : UInt8 := 0x55

def ST24_PACKET_TYPE_CHANNELDATA12 : UInt8 := 0
def ST24_PACKET_TYPE_CHANNELDATA24 : UInt8 := 1
def ST24_PACKET_TYPE_TRANSMITTERGPSDATA : UInt8 := 2

inductive DecodeState
  | unsynced
  | gotStx1
  | gotStx2
  | gotLen
  | gotType
  | gotData
deriving DecidableEq

/-! The places of the fields in `ReceiverFcPacket`, and of those of `ChannelData12` and
`ChannelData24`, which only differ in the number of channels, in its data. -/

def length : ℕ := 2
def type : ℕ := 3
def st24Data : ℕ := 4
def crc8 : ℕ := 68
def rssiField : ℕ := st24Data + 2
def lostCountField : ℕ := st24Data + 3
def channelField (i : ℕ) : ℕ := st24Data + 4 + i

def st24CommonCrc8 (bytes : List UInt8) : UInt8 :=
  bytes.foldl (fun crc b =>
    ([0x80, 0x40, 0x20, 0x10, 0x08, 0x04, 0x02, 0x01] : List UInt8).foldl (fun crc i =>
      let crc := if crc &&& 0x80 ≠ 0 then (crc <<< 1) ^^^ 0x07 else crc <<< 1
      if b &&& i ≠ 0 then crc ^^^ 0x07 else crc) crc) 0

def fl (x : ℚ) : ℚ := Rounding.binary32.round x

def scaleFactor : ℚ := fl ((2000 - 1000) / (3500 - 500))

def scaleOffset : ℤ := Rounding.trunc (fl (1000 - fl (fl (scaleFactor * 500) + 1 / 2)))

def scaled (value : UInt16) : UInt16 :=
  UInt16.ofInt (Rounding.trunc (fl (fl (value.toNat * scaleFactor) + 1 / 2)) + scaleOffset)

/-- The variables of the decoder, and what the pointers of the caller point to. -/
structure Decoder where
  state : DecodeState
  rxlen : UInt8
  rxpacket : Mem
  rssi : UInt8
  lost_count : UInt8
  channel_count : UInt16
  channels : ℕ → UInt16

/-- The value that is returned, and the indices of `st24_data` and of `channels` that were
written. -/
structure Result where
  ret : ℕ
  data : List ℤ
  channels : List ℕ

namespace Decoder

variable (d : Decoder)

/-- The byte at an index of `st24_data`. -/
def store (i : ℤ) (byte : UInt8) : Decoder :=
  { d with rxpacket := put d.rxpacket (st24Data + i).toNat [byte] }

/-- The first one of the two channels in three bytes, from the index `i` on. -/
def evenChannel (i : ℕ) : UInt16 :=
  ((d.rxpacket (channelField i)).toUInt16 <<< 4) |||
    ((0xf0 &&& d.rxpacket (channelField (i + 1))).toUInt16 >>> 4)

def oddChannel (i : ℕ) : UInt16 :=
  (d.rxpacket (channelField (i + 2))).toUInt16 |||
    ((0x0f &&& d.rxpacket (channelField (i + 1))).toUInt16 <<< 8)

/-- The steps of the loop `for (i = 0; i < stride_count; i += 3)`. -/
def strides (stride_count : ℕ) : List ℕ := List.range ((stride_count + 2) / 3)

def decodeChannels (count : ℕ) (max_chan_count : UInt16) : Decoder × Result :=
  let channel_count := if max_chan_count.toNat < count then max_chan_count.toNat else count
  let js := strides (channel_count * 3 / 2)
  ({ d with
      rssi := UInt8.ofInt (Rounding.trunc (fl ((d.rxpacket rssiField).toNat * fl (100 / 255))))
      lost_count := d.rxpacket lostCountField
      channel_count := UInt16.ofNat channel_count
      channels := js.foldl (fun c j =>
        Function.update (Function.update c (2 * j) (scaled (d.evenChannel (3 * j)))) (2 * j + 1)
          (scaled (d.oddChannel (3 * j)))) d.channels },
    ⟨0, [], js.flatMap fun j => [2 * j, 2 * j + 1]⟩)

def decodePacket (max_chan_count : UInt16) : Decoder × Result :=
  if d.rxpacket type = ST24_PACKET_TYPE_CHANNELDATA12 then d.decodeChannels 12 max_chan_count
  else if d.rxpacket type = ST24_PACKET_TYPE_CHANNELDATA24 then d.decodeChannels 24 max_chan_count
  else if d.rxpacket type = ST24_PACKET_TYPE_TRANSMITTERGPSDATA then (d, ⟨5, [], []⟩)
  else (d, ⟨2, [], []⟩)

def complete (byte : UInt8) : Decoder :=
  { d with rxpacket := put d.rxpacket crc8 [byte], rxlen := d.rxlen + 1 }

def checksum : UInt8 := st24CommonCrc8 (slice d.rxpacket length d.rxlen.toNat)

end Decoder

def st24Decode (max_chan_count : UInt16) (d : Decoder) (byte : UInt8) : Decoder × Result :=
  match d.state with
  | .unsynced =>
    if byte = ST24_STX1 then ({ d with state := .gotStx1 }, ⟨1, [], []⟩) else (d, ⟨3, [], []⟩)
  | .gotStx1 =>
    ({ d with state := if byte = ST24_STX2 then .gotStx2 else .unsynced }, ⟨1, [], []⟩)
  | .gotStx2 =>
    -- the sizes of the length, of the type and of the data
    if byte.toNat ≤ 1 + 1 + ST24_DATA_LEN_MAX then
      ({ d with
        rxpacket := put d.rxpacket length [byte]
        rxlen := 0
        state := .gotLen }, ⟨1, [], []⟩)
    else ({ d with state := .unsynced }, ⟨1, [], []⟩)
  | .gotLen =>
    ({ d with
      rxpacket := put d.rxpacket type [byte]
      rxlen := d.rxlen + 1
      state := .gotType }, ⟨1, [], []⟩)
  | .gotType =>
    let i : ℤ := d.rxlen.toNat - 1
    let d := { d.store i byte with rxlen := d.rxlen + 1 }
    ({ d with state :=
        if (d.rxlen.toNat : ℤ) = (d.rxpacket length).toNat - 1 then .gotData else .gotType },
      ⟨1, [i], []⟩)
  | .gotData =>
    let d := d.complete byte
    let (d, r) := if d.checksum = d.rxpacket crc8 then d.decodePacket max_chan_count
      else (d, ⟨4, [], []⟩)
    ({ d with state := .unsynced }, r)

/-! ### What is promised, and when -/

def channelsOf (t : UInt8) : Option ℕ :=
  if t = ST24_PACKET_TYPE_CHANNELDATA12 then some 12
  else if t = ST24_PACKET_TYPE_CHANNELDATA24 then some 24
  else none

/-- The data of so many channels have come, between the type and the checksum. -/
def Covers (d : Decoder) (count : ℕ) : Prop := 1 + (4 + count * 3 / 2) + 1 ≤
    (d.rxpacket length).toNat

/-- A call writes only where it should, and returns 0 only for the channels of a packet. -/
structure Safe (max_chan_count : UInt16) (d : Decoder) (byte : UInt8) : Prop where
  data : ∀ i ∈ (st24Decode max_chan_count d byte).2.data, 0 ≤ i ∧ i < ST24_DATA_LEN_MAX
  channels : ∀ i ∈ (st24Decode max_chan_count d byte).2.channels, i < max_chan_count.toNat
  decoded : (st24Decode max_chan_count d byte).2.ret = 0 → d.state = .gotData ∧
    (d.complete byte).checksum = byte ∧
    ∃ count, channelsOf (d.rxpacket type) = some count ∧ Covers d count

/-- The length leaves room for a byte of data, and the channels that are decoded have come; there
is room for an even number of them. -/
def Proper (max_chan_count : UInt16) (d : Decoder) (byte : UInt8) : Prop :=
  (d.state = .gotStx2 → byte.toNat ≤ 1 + 1 + ST24_DATA_LEN_MAX → 3 ≤ byte.toNat) ∧
    (d.state = .gotData → (d.complete byte).checksum = byte →
      ∀ count, channelsOf (d.rxpacket type) = some count →
        Covers d count ∧ (count ≤ max_chan_count.toNat ∨ max_chan_count.toNat % 2 = 0))

instance decidableProper (max_chan_count : UInt16) (d : Decoder) (byte : UInt8) :
    Decidable (Proper max_chan_count d byte) :=
  have (count : ℕ) : Decidable (Covers d count) := inferInstanceAs (Decidable (_ ≤ _))
  inferInstanceAs (Decidable ((_ → _ → _) ∧ (_ → _ → ∀ count ∈ channelsOf (d.rxpacket type), _)))

/-- What is known of the counter. -/
def Inv (d : Decoder) : Prop :=
  match d.state with
  | .unsynced | .gotStx1 | .gotStx2 => True
  | .gotLen => d.rxlen = 0 ∧ 3 ≤ (d.rxpacket length).toNat ∧ (d.rxpacket length).toNat ≤ 66
  | .gotType => 1 ≤ d.rxlen.toNat ∧ d.rxlen.toNat + 1 < (d.rxpacket length).toNat ∧
      (d.rxpacket length).toNat ≤ 66
  | .gotData => d.rxlen.toNat + 1 = (d.rxpacket length).toNat ∧ 3 ≤ (d.rxpacket length).toNat ∧
      (d.rxpacket length).toNat ≤ 66

/-- The bytes that are still to come until the decoder is unsynced again, at most. -/
def left (d : Decoder) : ℕ :=
  match d.state with
  | .unsynced => 0
  | .gotStx1 => 68
  | .gotStx2 => 67
  | .gotLen => (d.rxpacket length).toNat
  | .gotType => (d.rxpacket length).toNat - d.rxlen.toNat
  | .gotData => 1

/-! ### One call -/

section Step

variable {max_chan_count : UInt16} {d : Decoder} {byte : UInt8}

theorem decodePacket_frame (d : Decoder) (max_chan_count : UInt16) :
    (d.decodePacket max_chan_count).2.data = [] := by
  unfold Decoder.decodePacket
  split_ifs <;> rfl

theorem mem_strides {count i : ℕ} (heven : count % 2 = 0)
    (h : i ∈ (Decoder.strides (count * 3 / 2)).flatMap fun j => [2 * j, 2 * j + 1]) :
    i < count := by
  obtain ⟨j, hj, hi⟩ := List.mem_flatMap.mp h
  have hj' := List.mem_range.mp hj
  rw [List.mem_pair] at hi
  omega

theorem channels_lt {count : ℕ} (heven : count % 2 = 0)
    (hmax : count ≤ max_chan_count.toNat ∨ max_chan_count.toNat % 2 = 0) :
    ∀ i ∈ (d.decodeChannels count max_chan_count).2.channels, i < max_chan_count.toNat := by
  intro i hi
  unfold Decoder.decodeChannels at hi
  dsimp only at hi
  split_ifs at hi with hlt
  · exact mem_strides (hmax.resolve_left (by omega)) hi
  · exact (mem_strides heven hi).trans_le (not_lt.mp hlt)

variable (max_chan_count) in
theorem decodePacket_of_channels {count : ℕ} (h : channelsOf (d.rxpacket type) = some count) :
    count % 2 = 0 ∧ d.decodePacket max_chan_count = d.decodeChannels count max_chan_count := by
  unfold channelsOf at h
  unfold Decoder.decodePacket
  split_ifs at h with h12 h24
  · rw [if_pos h12, Option.some.inj h]
    exact ⟨Option.some.inj h ▸ rfl, rfl⟩
  · rw [if_neg h12, if_pos h24, Option.some.inj h]
    exact ⟨Option.some.inj h ▸ rfl, rfl⟩

variable (max_chan_count) in
theorem decodePacket_of_none (h : channelsOf (d.rxpacket type) = none) :
    (d.decodePacket max_chan_count).2.ret ≠ 0 ∧
      (d.decodePacket max_chan_count).2.channels = [] := by
  unfold channelsOf at h
  unfold Decoder.decodePacket
  split_ifs at h with h12 h24
  rw [if_neg h12, if_neg h24]
  split_ifs <;> exact ⟨Nat.succ_ne_zero _, rfl⟩

theorem complete_frame : (d.complete byte).rxpacket type = d.rxpacket type ∧
    (d.complete byte).rxpacket length = d.rxpacket length ∧
    (d.complete byte).rxpacket crc8 = byte := by
  unfold Decoder.complete
  dsimp only
  rw [put_singleton]
  exact ⟨rfl, rfl, Function.update_self ..⟩

variable (max_chan_count byte) in
theorem st24Decode_gotData (hd : d.state = .gotData) :
    (st24Decode max_chan_count d byte).1.state = .unsynced ∧
      (st24Decode max_chan_count d byte).2 =
        if (d.complete byte).checksum = byte then
          ((d.complete byte).decodePacket max_chan_count).2
        else ⟨4, [], []⟩ := by
  unfold st24Decode
  rw [hd]
  dsimp only
  rw [complete_frame.2.2]
  split_ifs <;> exact ⟨rfl, rfl⟩

variable (max_chan_count byte) in
theorem st24Decode_ret (hd : d.state ≠ .gotData) :
    (st24Decode max_chan_count d byte).2.channels = [] ∧
      (st24Decode max_chan_count d byte).2.ret ≠ 0 := by
  unfold st24Decode
  cases hstate : d.state with
  | gotData => exact absurd hstate hd
  | unsynced =>
    dsimp only
    split_ifs <;> exact ⟨rfl, Nat.succ_ne_zero _⟩
  | gotStx2 =>
    dsimp only
    split_ifs <;> exact ⟨rfl, Nat.succ_ne_zero _⟩
  | _ => exact ⟨rfl, Nat.succ_ne_zero _⟩

theorem safe_of_data (hd : d.state ≠ .gotData)
    (hdata : ∀ i ∈ (st24Decode max_chan_count d byte).2.data, 0 ≤ i ∧ i < ST24_DATA_LEN_MAX) :
    Safe max_chan_count d byte := by
  obtain ⟨hchannels, hret⟩ := st24Decode_ret max_chan_count byte hd
  exact ⟨hdata, hchannels ▸ nofun, fun hzero => absurd hzero hret⟩

theorem safe_gotData (hd : d.state = .gotData) (hproper : Proper max_chan_count d byte) :
    Safe max_chan_count d byte := by
  obtain ⟨-, hresult⟩ := st24Decode_gotData max_chan_count byte hd
  by_cases hcrc : (d.complete byte).checksum = byte
  · rw [if_pos hcrc] at hresult
    have htype : (d.complete byte).rxpacket type = d.rxpacket type := complete_frame.1
    refine ⟨?_, ?_, ?_⟩
    · rw [hresult, decodePacket_frame]
      exact nofun
    · rw [hresult]
      cases hcount : channelsOf (d.rxpacket type) with
      | none =>
        rw [(decodePacket_of_none (d := d.complete byte) max_chan_count (htype ▸ hcount)).2]
        exact nofun
      | some count =>
        obtain ⟨heven, hdecode⟩ :=
          decodePacket_of_channels (d := d.complete byte) max_chan_count (htype ▸ hcount)
        rw [hdecode]
        exact channels_lt heven (hproper.2 hd hcrc count hcount).2
    · rw [hresult]
      intro hret
      cases hcount : channelsOf (d.rxpacket type) with
      | none => exact absurd hret (decodePacket_of_none (d := d.complete byte) max_chan_count
        (htype ▸ hcount)).1
      | some count => exact ⟨hd, hcrc, count, rfl, (hproper.2 hd hcrc count hcount).1⟩
  · rw [if_neg hcrc] at hresult
    refine ⟨?_, ?_, ?_⟩ <;> rw [hresult] <;> exact nofun

/-- The data are stored inside, the counter goes on, and the end of the packet comes nearer. -/
theorem Inv.step (h : Inv d) (hproper : Proper max_chan_count d byte) :
    Safe max_chan_count d byte ∧ Inv (st24Decode max_chan_count d byte).1 ∧
      (d.state ≠ .unsynced → (st24Decode max_chan_count d byte).1.state = .unsynced ∨
        left (st24Decode max_chan_count d byte).1 < left d) := by
  unfold Inv at h
  cases hd : d.state with
  | unsynced =>
    refine ⟨safe_of_data (hd ▸ nofun) ?_, ?_, fun hne => absurd rfl hne⟩
    · unfold st24Decode
      rw [hd]
      dsimp only
      split_ifs <;> exact nofun
    · unfold st24Decode Inv
      rw [hd]
      dsimp only
      split_ifs
      · trivial
      · rw [hd]
        trivial
  | gotStx1 =>
    have hstep : st24Decode max_chan_count d byte =
        ({ d with state := if byte = ST24_STX2 then .gotStx2 else .unsynced }, ⟨1, [], []⟩) := by
      unfold st24Decode
      rw [hd]
    refine ⟨safe_of_data (hd ▸ nofun) (hstep ▸ nofun), ?_, fun _ => ?_⟩
    · rw [hstep]
      unfold Inv
      dsimp only
      split_ifs <;> trivial
    · rw [hstep]
      unfold left
      rw [hd]
      dsimp only
      split_ifs
      · exact .inr (Nat.lt_succ_self 67)
      · exact .inl rfl
  | gotStx2 =>
    by_cases hbyte : byte.toNat ≤ 1 + 1 + ST24_DATA_LEN_MAX
    · have hstep : st24Decode max_chan_count d byte =
          ({ d with
            rxpacket := put d.rxpacket length [byte]
            rxlen := 0
            state := .gotLen }, ⟨1, [], []⟩) := by
        unfold st24Decode
        rw [hd]
        exact if_pos hbyte
      have hlength : put d.rxpacket length [byte] length = byte := by
        rw [put_singleton, Function.update_self]
      have hthree := hproper.1 hd hbyte
      refine ⟨safe_of_data (hd ▸ nofun) (hstep ▸ nofun), ?_, fun _ => .inr ?_⟩
      · rw [hstep]
        unfold Inv
        dsimp only
        rw [hlength]
        exact ⟨rfl, hthree, hbyte⟩
      · rw [hstep]
        unfold left
        rw [hd]
        dsimp only
        rw [hlength]
        exact Nat.lt_succ_of_le hbyte
    · have hstep : st24Decode max_chan_count d byte =
          ({ d with state := .unsynced }, ⟨1, [], []⟩) := by
        unfold st24Decode
        rw [hd]
        exact if_neg hbyte
      exact ⟨safe_of_data (hd ▸ nofun) (hstep ▸ nofun), by rw [hstep]; trivial,
        fun _ => .inl (by rw [hstep])⟩
  | gotLen =>
    rw [hd] at h
    obtain ⟨hrxlen, hthree, hmax⟩ := h
    have hstep : st24Decode max_chan_count d byte =
        ({ d with
          rxpacket := put d.rxpacket type [byte]
          rxlen := d.rxlen + 1
          state := .gotType }, ⟨1, [], []⟩) := by
      unfold st24Decode
      rw [hd]
    have hlength : put d.rxpacket type [byte] length = d.rxpacket length :=
      put_of_lt (by decide)
    have hone : (d.rxlen + 1).toNat = 1 := by rw [hrxlen]; rfl
    refine ⟨safe_of_data (hd ▸ nofun) (hstep ▸ nofun), ?_, fun _ => .inr ?_⟩
    · rw [hstep]
      unfold Inv
      dsimp only
      rw [hlength, hone]
      omega
    · rw [hstep]
      unfold left
      rw [hd]
      dsimp only
      rw [hlength, hone]
      omega
  | gotType =>
    rw [hd] at h
    obtain ⟨hone, hlt, hmax⟩ := h
    have hrxlen : (d.rxlen + 1).toNat = d.rxlen.toNat + 1 := by
      rw [UInt8.toNat_add, UInt8.toNat_one]
      omega
    have hstep : st24Decode max_chan_count d byte =
        ({ d.store (d.rxlen.toNat - 1) byte with
          rxlen := d.rxlen + 1
          state := if ((d.rxlen + 1).toNat : ℤ) =
              ((d.store (d.rxlen.toNat - 1) byte).rxpacket length).toNat - 1 then .gotData
            else .gotType }, ⟨1, [d.rxlen.toNat - 1], []⟩) := by
      unfold st24Decode
      rw [hd]
    have hlength : (d.store (d.rxlen.toNat - 1) byte).rxpacket length = d.rxpacket length :=
      put_of_lt (by unfold length st24Data; omega)
    refine ⟨safe_of_data (hd ▸ nofun) ?_, ?_, fun _ => .inr ?_⟩
    · rw [hstep]
      intro i hi
      obtain rfl := List.mem_singleton.mp hi
      unfold ST24_DATA_LEN_MAX
      omega
    · rw [hstep, hlength, hrxlen]
      unfold Inv
      by_cases hend : ((d.rxlen.toNat + 1 : ℕ) : ℤ) = (d.rxpacket length).toNat - 1
      · rw [if_pos hend]
        dsimp only
        rw [hlength, hrxlen]
        omega
      · rw [if_neg hend]
        dsimp only
        rw [hlength, hrxlen]
        omega
    · rw [hstep, hlength, hrxlen]
      unfold left
      rw [hd]
      by_cases hend : ((d.rxlen.toNat + 1 : ℕ) : ℤ) = (d.rxpacket length).toNat - 1
      · rw [if_pos hend]
        dsimp only
        omega
      · rw [if_neg hend]
        dsimp only
        rw [hlength, hrxlen]
        omega
  | gotData =>
    obtain ⟨hstate, -⟩ := st24Decode_gotData max_chan_count byte hd
    refine ⟨safe_gotData hd hproper, ?_, fun _ => .inl hstate⟩
    unfold Inv
    rw [hstate]
    trivial

end Step

/-! ### Runs -/

variable {max_chan_count : UInt16} {d : Decoder}

def next (max_chan_count : UInt16) (d : Decoder) (byte : UInt8) : Decoder :=
  (st24Decode max_chan_count d byte).1

theorem Inv.run (h : Inv d) {bytes : List UInt8}
    (hproper : Trace.Always (next max_chan_count) (Proper max_chan_count) d bytes) :
    Inv (Trace.run (next max_chan_count) d bytes) :=
  Trace.run_of_invariant (fun d _ hd hp => (Inv.step (d := d) hd hp).2.1) h hproper

theorem left_le (h : Inv d) : left d ≤ 68 := by
  unfold Inv at h
  unfold left
  cases hd : d.state with
  | gotLen =>
    rw [hd] at h
    exact h.2.2.trans (by decide)
  | gotType =>
    rw [hd] at h
    exact (Nat.sub_le ..).trans (h.2.2.trans (by decide))
  | _ => exact Nat.le_of_ble_eq_true rfl

theorem Inv.left_pos (h : Inv d) (hd : d.state ≠ .unsynced) : 0 < left d := by
  unfold Inv at h
  unfold left
  cases hstate : d.state with
  | unsynced => exact absurd hstate hd
  | gotLen =>
    rw [hstate] at h
    exact Nat.lt_of_lt_of_le (by decide) h.2.1
  | gotType =>
    rw [hstate] at h
    dsimp only at h ⊢
    omega
  | _ => exact Nat.succ_pos _

theorem Inv.returns {bytes : List UInt8} : ∀ {d : Decoder}, Inv d →
    Trace.Always (next max_chan_count) (Proper max_chan_count) d bytes →
    left d ≤ bytes.length →
    ∃ n ≤ left d, (Trace.run (next max_chan_count) d (bytes.take n)).state = .unsynced := by
  induction bytes with
  | nil =>
    intro d h _ hleft
    refine ⟨0, Nat.zero_le _, ?_⟩
    by_contra hd
    exact absurd (h.left_pos hd) (Nat.not_lt.mpr hleft)
  | cons byte bytes ih =>
    intro d h hproper hleft
    by_cases hd : d.state = .unsynced
    · exact ⟨0, Nat.zero_le _, hd⟩
    · obtain ⟨-, hinv, hcases⟩ := Inv.step h hproper.1
      rcases hcases hd with hstate | hlt
      · exact ⟨1, h.left_pos hd, hstate⟩
      · obtain ⟨n, hn, hstate⟩ := ih hinv hproper.2 (by rw [List.length_cons] at hleft; omega)
        exact ⟨n + 1, by omega, hstate⟩

/-- In a run whose packets have proper lengths, every call is safe, and from any point on the
decoder is unsynced again after 68 bytes at most. -/
theorem safe_run (max_chan_count : UInt16) (d : Decoder) (bytes : List UInt8)
    (hd : d.state = .unsynced)
    (hproper : Trace.Always (next max_chan_count) (Proper max_chan_count) d bytes) :
    Trace.Always (next max_chan_count) (Safe max_chan_count) d bytes ∧
      ∀ pre post, bytes = pre ++ post → 68 ≤ post.length →
        ∃ n ≤ 68, (Trace.run (next max_chan_count) d (pre ++ post.take n)).state = .unsynced := by
  have hinv : Inv d := by
    unfold Inv
    rw [hd]
    trivial
  refine ⟨Trace.always_of_invariant (fun _ _ hd hp => ?_) hinv hproper, ?_⟩
  · obtain ⟨hsafe, hnext, -⟩ := Inv.step hd hp
    exact ⟨hsafe, hnext⟩
  · rintro pre post rfl hlength
    rw [Trace.always_append] at hproper
    have hpre := hinv.run hproper.1
    obtain ⟨n, hn, hstate⟩ := hpre.returns hproper.2 ((left_le hpre).trans hlength)
    refine ⟨n, hn.trans (left_le hpre), ?_⟩
    rw [Trace.run_append]
    exact hstate

def idle : Decoder := ⟨.unsynced, 0, fun _ => 0, 0, 0, 0, fun _ => 0⟩

/-- A packet with twelve channels, and 68 bytes more. -/
def channelStream : List UInt8 :=
  [0x55, 0x55, 24, 0] ++ List.replicate 22 0 ++ [89] ++ List.replicate 68 0

/-- The channels are decoded with the last byte of the packet. -/
theorem safe_run_channels :
    (st24Decode 16 (Trace.run (next 16) idle (channelStream.take 26)) 89).2.ret = 0 ∧
      Trace.Always (next 16) (Safe 16) idle channelStream ∧
      ∀ pre post, channelStream = pre ++ post → 68 ≤ post.length →
        ∃ n ≤ 68, (Trace.run (next 16) idle (pre ++ post.take n)).state = .unsynced :=
  ⟨by decide +kernel, safe_run 16 idle channelStream rfl (by decide +kernel)⟩

/-- With a length of zero the data run over their end; the second channel is written where there is
room for one; and channels are decoded from a packet with one byte of data. -/
theorem overruns :
    ¬ Safe 16 (Trace.run (next 16) idle ([0x55, 0x55, 0, 0] ++ List.replicate 64 0)) 0 ∧
      ¬ Safe 1 (Trace.run (next 1) idle ([0x55, 0x55, 24, 0] ++ List.replicate 22 0)) 89 ∧
      ¬ Safe 16 (Trace.run (next 16) idle [0x55, 0x55, 3, 0, 7]) 168 := by
  refine ⟨fun h => ?_, fun h => ?_, fun h => ?_⟩
  · exact absurd (h.data 64 (by decide +kernel)).2 (by decide)
  · exact absurd (h.channels 1 (by decide +kernel)) (by decide)
  · obtain ⟨-, -, count, hcount, hcovers⟩ := h.decoded (by decide +kernel)
    have hcovers' : 1 + (4 + count * 3 / 2) + 1 ≤ 3 := hcovers
    omega

end St24
