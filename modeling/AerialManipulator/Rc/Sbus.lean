/-
The S.BUS protocol.

A frame has 25 bytes: a start symbol, sixteen channels of 11 bits each, a byte of flags, and a last
byte, which is zero for S.BUS 1.  `sbus1Output` packs the channels with a running position of byte
and bit; `sbusDecode` takes them out with a table of at most three pieces of bytes for each one.

The numbers of type `float` are rational numbers.

* `sbusParse` — the state machine, which gets the bytes in chunks;
* `Packed.place` — the bits of the frame are those of the values packed so far;
* **`sbus_round_trip`** — what is packed is decoded, in whatever chunks it comes, and packing and
  table are inverse to each other.
-/
import AerialManipulator.Lib.ByteStore
import AerialManipulator.Lib.Mealy
import AerialManipulator.Lib.WordStream
import AerialManipulator.Lib.Literals

open ByteStore WordStream

namespace Sbus

def startSymbol : UInt8 := 0x0f
def inputChannels : ℕ := 16
def flagsByte : ℕ := 23
def failsafeBit : ℕ := 3
def framelostBit : ℕ := 2
def frameSize : ℕ := 25
def bufferSize : ℕ := frameSize + frameSize / 2
def frameSizeRxVoltage : ℕ := 3

/-! The range mapping, −100 % to +100 % → 1000 to 2000. -/

def rangeMin : ℚ := 200
def rangeMax : ℚ := 1800
def targetMin : ℚ := 1000
def targetMax : ℚ := 2000

def scaleFactor : ℚ := (targetMax - targetMin) / (rangeMax - rangeMin)
def scaleOffset : ℤ := ⌊targetMin - (scaleFactor * rangeMin + 1 / 2)⌋

/-- The conversion of a `float` to `uint16_t`, which C defines between 0 and 65536. -/
def toUint16 (q : ℚ) : ℕ := ⌊q⌋.toNat % 2 ^ 16

/-! ### The output -/

def encode (value : UInt16) : ℕ :=
  let raw := toUint16 (((value.toNat : ℤ) - scaleOffset : ℤ) / scaleFactor + 1 / 2)
  -- "protect from out of bounds values and limit to 11 bits"
  if raw > 0x07ff then 0x07ff else raw

/-- The variables of the loop that packs the values. -/
structure Packer where
  byteindex : ℕ
  offset : ℕ
  oframe : List UInt8

/-- `while (offset >= 8)`. -/
def advance (byteindex offset : ℕ) : ℕ × ℕ :=
  if 8 ≤ offset then advance (byteindex + 1) (offset - 8) else (byteindex, offset)
termination_by offset

/-- `oframe[i] |= value & 0xff`. -/
def orByte (oframe : List UInt8) (i value : ℕ) : List UInt8 :=
  oframe.modify i fun b => b ||| UInt8.ofNat (value &&& 0xff)

def orBytes (oframe : List UInt8) (byteindex offset value : ℕ) : List UInt8 :=
  let oframe := orByte oframe byteindex (value <<< offset)
  let oframe := orByte oframe (byteindex + 1) (value >>> (8 - offset))
  orByte oframe (byteindex + 2) (value >>> (16 - offset))

def Packer.place (p : Packer) (value : ℕ) : Packer :=
  match advance p.byteindex p.offset with
  | (byteindex, offset) => ⟨byteindex, offset + 11, orBytes p.oframe byteindex offset value⟩

def Packer.init : Packer := ⟨1, 0, 0x0f :: List.replicate (frameSize - 1) 0⟩

def pack (raw : List ℕ) : List UInt8 := (raw.foldl Packer.place Packer.init).oframe

structure Output where
  last_txframe_time : UInt64
  sbus1_frame_delay : UInt32

/-- `sbus1_output`; returns what is written, if the last frame is long enough ago. -/
def sbus1Output (o : Output) (now : UInt64) (values : List UInt16) : Output × Option (List UInt8) :=
  if now - o.last_txframe_time > o.sbus1_frame_delay.toUInt64 then
    ({ o with last_txframe_time := now }, some (pack ((values.take 16).map encode)))
  else (o, none)

/-! ### The decoder matrix -/

structure BitPick where
  byte : ℕ
  rshift : ℕ
  mask : ℕ
  lshift : ℕ

def sbusDecoder : ℕ → List BitPick
  | 0 => [⟨0, 0, 0xff, 0⟩, ⟨1, 0, 0x07, 8⟩, ⟨0, 0, 0x00, 0⟩]
  | 1 => [⟨1, 3, 0x1f, 0⟩, ⟨2, 0, 0x3f, 5⟩, ⟨0, 0, 0x00, 0⟩]
  | 2 => [⟨2, 6, 0x03, 0⟩, ⟨3, 0, 0xff, 2⟩, ⟨4, 0, 0x01, 10⟩]
  | 3 => [⟨4, 1, 0x7f, 0⟩, ⟨5, 0, 0x0f, 7⟩, ⟨0, 0, 0x00, 0⟩]
  | 4 => [⟨5, 4, 0x0f, 0⟩, ⟨6, 0, 0x7f, 4⟩, ⟨0, 0, 0x00, 0⟩]
  | 5 => [⟨6, 7, 0x01, 0⟩, ⟨7, 0, 0xff, 1⟩, ⟨8, 0, 0x03, 9⟩]
  | 6 => [⟨8, 2, 0x3f, 0⟩, ⟨9, 0, 0x1f, 6⟩, ⟨0, 0, 0x00, 0⟩]
  | 7 => [⟨9, 5, 0x07, 0⟩, ⟨10, 0, 0xff, 3⟩, ⟨0, 0, 0x00, 0⟩]
  | 8 => [⟨11, 0, 0xff, 0⟩, ⟨12, 0, 0x07, 8⟩, ⟨0, 0, 0x00, 0⟩]
  | 9 => [⟨12, 3, 0x1f, 0⟩, ⟨13, 0, 0x3f, 5⟩, ⟨0, 0, 0x00, 0⟩]
  | 10 => [⟨13, 6, 0x03, 0⟩, ⟨14, 0, 0xff, 2⟩, ⟨15, 0, 0x01, 10⟩]
  | 11 => [⟨15, 1, 0x7f, 0⟩, ⟨16, 0, 0x0f, 7⟩, ⟨0, 0, 0x00, 0⟩]
  | 12 => [⟨16, 4, 0x0f, 0⟩, ⟨17, 0, 0x7f, 4⟩, ⟨0, 0, 0x00, 0⟩]
  | 13 => [⟨17, 7, 0x01, 0⟩, ⟨18, 0, 0xff, 1⟩, ⟨19, 0, 0x03, 9⟩]
  | 14 => [⟨19, 2, 0x3f, 0⟩, ⟨20, 0, 0x1f, 6⟩, ⟨0, 0, 0x00, 0⟩]
  | 15 => [⟨20, 5, 0x07, 0⟩, ⟨21, 0, 0xff, 3⟩, ⟨0, 0, 0x00, 0⟩]
  | _ => []

def BitPick.piece (d : BitPick) (frame : Mem) : ℕ :=
  (((frame (1 + d.byte)).toNat >>> d.rshift) &&& d.mask) <<< d.lshift

def rawChannel (frame : Mem) (channel : ℕ) : ℕ :=
  (sbusDecoder channel).foldl
    (fun value d => if d.mask ≠ 0 then value ||| d.piece frame else value) 0

/-- 0 to 2048 → 1000 to 2000 "in a not too sloppy fashion". -/
def scaleChannel (value : ℕ) : UInt16 :=
  UInt16.ofInt (toUint16 (value * scaleFactor + 1 / 2) + scaleOffset)

/-! ### The parser -/

inductive DecodeState
  | desync
  | sbusStart
  | sbus1Sync
  | sbus2Sync
  | sbus2RxVoltage
  | sbus2Gps
  | sbus2Data1
  | sbus2Data2
  deriving DecidableEq

/-- The variables of the parser, and what the pointers of the caller point to. -/
structure Parser where
  last_rx_time : UInt64
  state : DecodeState
  sbus_frame : Mem
  partial_frame_count : ℕ
  sbus_frame_drops : UInt32
  values : ℕ → UInt16
  num_values : ℕ
  sbus_failsafe : Bool
  sbus_frame_drop : Bool
  frame_drops : UInt32

namespace Parser

def flag (p : Parser) (bit : ℕ) : Bool := (p.sbus_frame flagsByte).toNat.testBit bit

def channels (p : Parser) (max_values : ℕ) : ℕ → UInt16 :=
  (List.range (min max_values inputChannels)).foldl
    (fun values channel =>
      Function.update values channel (scaleChannel (rawChannel p.sbus_frame channel)))
    p.values

/-- The part of `sbus_decode` behind the check of the markers. -/
def store (p : Parser) (max_values : ℕ) : Parser :=
  let chancount := min max_values inputChannels
  let values := p.channels max_values
  -- "decode switch channels if data fields are wide enough"
  let wide := max_values > 17 ∧ chancount > 15
  let values :=
    if wide then
      Function.update (Function.update values 16 ((if p.flag 0 then 1000 else 0) + 998))
        17 ((if p.flag 1 then 1000 else 0) + 998)
    else values
  { p with
    values := values
    num_values := if wide then 18 else chancount
    sbus_failsafe := p.flag failsafeBit
    sbus_frame_drop := p.flag failsafeBit || p.flag framelostBit }

def followUp (last : UInt8) : Option DecodeState :=
  if last = 0x00 then some .sbus1Sync
  else if last = 0x04 then some .sbus2RxVoltage
  else if last = 0x14 then some .sbus2Gps
  else if last = 0x24 then some .sbus2Sync
  else if last = 0x34 then some .sbus2Sync
  else none

def sbusDecode (p : Parser) (max_values : ℕ) : Parser × Bool :=
  -- "check frame boundary markers to avoid out-of-sync cases"
  if p.sbus_frame 0 ≠ startSymbol then
    ({ p with sbus_frame_drops := p.sbus_frame_drops + 1, state := .desync }, false)
  else
    match followUp (p.sbus_frame 24) with
    | some state => ({ p with state := state }.store max_values, true)
    | none => ({ p with state := .desync }, false)

def push (p : Parser) (byte : UInt8) : Parser :=
  { p with
    sbus_frame := Function.update p.sbus_frame p.partial_frame_count byte
    partial_frame_count := p.partial_frame_count + 1 }

def limit (p : Parser) : Parser :=
  let p :=
    if p.partial_frame_count = bufferSize then
      { p with partial_frame_count := 0, state := .desync }
    else p
  if p.partial_frame_count = frameSize then { p with partial_frame_count := 0, state := .desync }
  else p

def startIndex (p : Parser) : ℕ :=
  ((List.range' 1 (p.partial_frame_count - 1)).find? fun i =>
    p.sbus_frame i = startSymbol).getD 0

def shift (p : Parser) (start_index : ℕ) : Parser :=
  { p with
    sbus_frame := (List.range (p.partial_frame_count - start_index)).foldl
      (fun frame i => Function.update frame i (frame (i + start_index))) p.sbus_frame
    partial_frame_count := p.partial_frame_count - start_index
    state := .sbusStart }

def complete (p : Parser) (max_channels : ℕ) : Parser × Bool :=
  let r := p.sbusDecode max_channels
  -- offset recovery: another frame may begin inside of one that could not be decoded
  let start_index := if r.2 = false ∧ r.1.state = .desync then r.1.startIndex else 0
  (if start_index ≠ 0 then r.1.shift start_index else { r.1 with partial_frame_count := 0 }, r.2)

/-- The slots of S.BUS 2, of which each has its size and its marker. -/
def slot (p : Parser) (byte : UInt8) (size : ℕ) (marker : UInt8) : Parser :=
  let p := p.push byte
  -- "this slot is unused and in fact S.BUS2 sync"
  let p :=
    if p.partial_frame_count = 1 ∧ p.sbus_frame 0 = startSymbol then { p with state := .sbus2Sync }
    else p
  if p.partial_frame_count < size then p
  else if p.sbus_frame 0 = marker then { p with partial_frame_count := 0 }
  else { p with state := .desync, sbus_frame_drops := p.sbus_frame_drops + 1 }

/-- One round of the loop; the second component is `decode_ret`. -/
def parseByte (max_channels : ℕ) (s : Parser × Bool) (byte : UInt8) : Parser × Bool :=
  let p := s.1.limit
  match p.state with
  | .desync =>
    if byte = startSymbol then
      ({ p with state := .sbusStart, partial_frame_count := 0 }.push byte, s.2)
    else (p, s.2)
  | .sbusStart | .sbus1Sync | .sbus2Sync =>
    if (p.push byte).partial_frame_count < frameSize then (p.push byte, s.2)
    else (p.push byte).complete max_channels
  | .sbus2RxVoltage => (p.slot byte frameSizeRxVoltage 0x03, s.2)
  | .sbus2Gps => (p.slot byte 24 0x13, s.2)
  | .sbus2Data1 | .sbus2Data2 => (p, false)

def sbusParse (max_channels : ℕ) (p : Parser) (now : UInt64) (frame : List UInt8) : Parser × Bool :=
  let r := frame.foldl (parseByte max_channels) ({ p with last_rx_time := now }, false)
  ({ r.1 with frame_drops := r.1.sbus_frame_drops }, r.2)

end Parser

/-! ### Scaling -/

theorem scaleFactor_eq : scaleFactor = 5 / 8 := by
  norm_num [scaleFactor, targetMax, targetMin, rangeMax, rangeMin]

theorem scaleOffset_eq : scaleOffset = 874 := by
  rw [scaleOffset, scaleFactor_eq, Int.floor_eq_iff]
  norm_num [targetMin, rangeMin]

theorem toUint16_div {a b : ℕ} (h : a / b < 2 ^ 16) : toUint16 ((a : ℚ) / b) = a / b := by
  rw [toUint16, Rat.floor_natCast_div_natCast, ← Int.natCast_div, Int.toNat_natCast,
    Nat.mod_eq_of_lt h]

theorem encode_eq {value : UInt16} (h : 874 ≤ value.toNat) (h' : value.toNat ≤ 2153) :
    encode value = (16 * (value.toNat - 874) + 5) / 10 := by
  have hq : (((value.toNat : ℤ) - scaleOffset : ℤ) : ℚ) / scaleFactor + 1 / 2 =
      ((16 * (value.toNat - 874) + 5 : ℕ) : ℚ) / (10 : ℕ) := by
    rw [scaleFactor_eq, scaleOffset_eq]
    push_cast [Nat.cast_sub h]
    ring
  unfold encode
  dsimp only
  rw [hq, toUint16_div (by omega), if_neg (by omega)]

theorem scaleChannel_eq {raw : ℕ} (h : raw < 2 ^ 11) :
    scaleChannel raw = UInt16.ofNat ((10 * raw + 8) / 16 + 874) := by
  have hq : (raw : ℚ) * scaleFactor + 1 / 2 = ((10 * raw + 8 : ℕ) : ℚ) / (16 : ℕ) := by
    rw [scaleFactor_eq]
    push_cast
    ring
  have hsum : (((10 * raw + 8) / 16 : ℕ) : ℤ) + 874 = (((10 * raw + 8) / 16 + 874 : ℕ) : ℤ) := by
    omega
  rw [scaleChannel, hq, toUint16_div (by omega), scaleOffset_eq, hsum, UInt16.ofInt,
    Int.emod_eq_of_lt (by omega) (by omega), Int.toNat_natCast]

theorem encode_lt {value : UInt16} : encode value < 2 ^ 11 := by
  unfold encode
  dsimp only
  split <;> omega

theorem scaleChannel_encode {value : UInt16} (h : 874 ≤ value.toNat) (h' : value.toNat ≤ 2153) :
    scaleChannel (encode value) = value := by
  have hback : (10 * ((16 * (value.toNat - 874) + 5) / 10) + 8) / 16 + 874 = value.toNat := by omega
  rw [scaleChannel_eq encode_lt, encode_eq h h', hback, UInt16.ofNat_toNat]

/-! ### Packing -/

def dataOf (frame : Mem) (j : ℕ) : ℕ := (frame (1 + j)).toNat

def asMem (bytes : List UInt8) : Mem := fun i => bytes.getD i 0

theorem advance_eq (byteindex offset : ℕ) :
    advance byteindex offset = (byteindex + offset / 8, offset % 8) := by
  fun_induction advance byteindex offset with
  | case1 byteindex offset h ih =>
    rw [ih]
    congr 1 <;> omega
  | case2 byteindex offset h =>
    rw [Nat.div_eq_of_lt (by omega), Nat.mod_eq_of_lt (by omega), Nat.add_zero]

theorem length_orByte (oframe : List UInt8) (i value : ℕ) :
    (orByte oframe i value).length = oframe.length := List.length_modify ..

theorem asMem_orByte_of_ne {oframe : List UInt8} {i a : ℕ} (ha : a ≠ i) (value : ℕ) :
    asMem (orByte oframe i value) a = asMem oframe a := by
  unfold asMem orByte
  rw [List.getD_eq_getElem?_getD, List.getElem?_modify]
  simp only [if_neg ha.symm, id_map']
  rw [List.getD_eq_getElem?_getD]

theorem testBit_orByte {oframe : List UInt8} {i : ℕ} (hi : i < oframe.length) (value a : ℕ) {b : ℕ}
    (hb : b < 8) :
    (asMem (orByte oframe i value) a).toNat.testBit b =
      ((asMem oframe a).toNat.testBit b || (decide (a = i) && value.testBit b)) := by
  by_cases ha : a = i
  · subst ha
    have hmask : (value &&& 0xff).testBit b = value.testBit b := by
      rw [Nat.testBit_and, show 0xff = 2 ^ 8 - 1 from rfl, Nat.testBit_two_pow_sub_one,
        decide_eq_true hb, Bool.and_true]
    have hlt : value &&& 0xff < 2 ^ 8 := Nat.lt_succ_of_le Nat.and_le_right
    have hor : asMem (orByte oframe a value) a =
        asMem oframe a ||| UInt8.ofNat (value &&& 0xff) := by
      unfold asMem orByte
      rw [List.getD_eq_getElem _ _ (by rwa [List.length_modify]), List.getD_eq_getElem _ _ hi,
        List.getElem_modify, if_pos rfl]
    rw [hor, UInt8.toNat_or, Nat.testBit_or, UInt8.toNat_ofNat_of_lt' hlt, hmask,
      decide_eq_true rfl, Bool.true_and]
  · rw [asMem_orByte_of_ne ha, decide_eq_false ha, Bool.false_and, Bool.or_false]

theorem testBit_three {value q o : ℕ} (hv : value < 2 ^ 11) (ho : o < 8) (j : ℕ) {b : ℕ}
    (hb : b < 8) :
    ((decide (j = q) && (value <<< o).testBit b) ||
        (decide (j = q + 1) && (value >>> (8 - o)).testBit b) ||
        (decide (j = q + 2) && (value >>> (16 - o)).testBit b)) =
      (decide (8 * q + o ≤ 8 * j + b) && value.testBit (8 * j + b - (8 * q + o))) := by
  have hhigh : ∀ m, 11 ≤ m → value.testBit m = false := fun m hm =>
    Nat.testBit_lt_two_pow (lt_of_lt_of_le hv (Nat.pow_le_pow_right (by omega) hm))
  rw [Nat.testBit_shiftLeft, Nat.testBit_shiftRight, Nat.testBit_shiftRight]
  rcases Nat.lt_or_ge j q with hlt | hge
  · rw [decide_eq_false (by omega : ¬j = q), decide_eq_false (by omega : ¬j = q + 1),
      decide_eq_false (by omega : ¬j = q + 2), decide_eq_false (by omega : ¬8 * q + o ≤ 8 * j + b)]
    rfl
  · obtain ⟨e, rfl⟩ := Nat.exists_eq_add_of_le hge
    match e with
    | 0 =>
      have hle : (8 * q + o ≤ 8 * (q + 0) + b) ↔ b ≥ o := by omega
      simp only [hle, show 8 * (q + 0) + b - (8 * q + o) = b - o by omega]
      simp
    | 1 =>
      simp [show 8 * q + o ≤ 8 * (q + 1) + b by omega,
        show 8 * (q + 1) + b - (8 * q + o) = 8 - o + b by omega]
    | 2 =>
      simp [show 8 * q + o ≤ 8 * (q + 2) + b by omega,
        show 8 * (q + 2) + b - (8 * q + o) = 16 - o + b by omega]
    | e + 3 =>
      rw [hhigh (8 * (q + (e + 3)) + b - (8 * q + o)) (by omega)]
      simp

theorem length_orBytes (oframe : List UInt8) (i o value : ℕ) :
    (orBytes oframe i o value).length = oframe.length := by
  unfold orBytes
  rw [length_orByte, length_orByte, length_orByte]

theorem asMem_orBytes_of_lt {oframe : List UInt8} {i a : ℕ} (ha : a < i) (o value : ℕ) :
    asMem (orBytes oframe i o value) a = asMem oframe a := by
  unfold orBytes
  rw [asMem_orByte_of_ne (by omega), asMem_orByte_of_ne (by omega), asMem_orByte_of_ne (by omega)]

theorem bitAt_orBytes {oframe : List UInt8} {q o value : ℕ} (hq : q + 3 < oframe.length)
    (ho : o < 8) (hv : value < 2 ^ 11) (k : ℕ) :
    bitAt 8 (dataOf (asMem (orBytes oframe (1 + q) o value))) k =
      (bitAt 8 (dataOf (asMem oframe)) k ||
        (decide (8 * q + o ≤ k) && value.testBit (k - (8 * q + o)))) := by
  obtain ⟨j, b, hb, rfl⟩ : ∃ j b, b < 8 ∧ k = 8 * j + b :=
    ⟨k / 8, k % 8, Nat.mod_lt k (by decide), (Nat.div_add_mod k 8).symm⟩
  have hj : ∀ i, decide (1 + j = 1 + q + i) = decide (j = q + i) := fun i => by
    rw [decide_eq_decide]
    omega
  rw [← testBit_three hv ho j hb, bitAt_mul_add hb, bitAt_mul_add hb]
  unfold dataOf orBytes
  rw [testBit_orByte (by rw [length_orByte, length_orByte]; omega) _ _ hb,
    testBit_orByte (by rw [length_orByte]; omega) _ _ hb, testBit_orByte (by omega) _ _ hb,
    hj 1, hj 2, show decide (1 + j = 1 + q) = decide (j = q) from hj 0, Bool.or_assoc,
    Bool.or_assoc, Bool.or_assoc]

/-- The loop has packed some values. -/
structure Packed (p : Packer) (raw : List ℕ) : Prop where
  length : p.oframe.length = frameSize
  start : asMem p.oframe 0 = startSymbol
  index : 1 ≤ p.byteindex
  position : 8 * p.byteindex + p.offset = 8 + 11 * raw.length
  bits : ∀ k, bitAt 8 (dataOf (asMem p.oframe)) k = bitAt 11 (raw.getD · 0) k

theorem packed_init : Packed Packer.init [] := by
  refine ⟨rfl, rfl, Nat.le_refl 1, rfl, fun k => ?_⟩
  have hzero : dataOf (asMem Packer.init.oframe) (k / 8) = 0 := by
    unfold dataOf asMem Packer.init
    rw [Nat.add_comm, List.getD_cons_succ, List.getD_eq_getElem?_getD, List.getElem?_replicate]
    split <;> rfl
  rw [bitAt, bitAt, hzero, Nat.zero_testBit]
  exact (Nat.zero_testBit _).symm

theorem Packed.place {p : Packer} {raw : List ℕ} (h : Packed p raw) (hraw : raw.length < 16)
    {value : ℕ} (hv : value < 2 ^ 11) : Packed (p.place value) (raw ++ [value]) := by
  obtain ⟨hlength, hstart, hindex, hposition, hbits⟩ := h
  -- the value begins `11 * raw.length` bits behind the start symbol
  have hplace : p.place value = ⟨1 + 11 * raw.length / 8, 11 * raw.length % 8 + 11,
      orBytes p.oframe (1 + 11 * raw.length / 8) (11 * raw.length % 8) value⟩ := by
    have hq : p.byteindex + p.offset / 8 = 1 + 11 * raw.length / 8 := by omega
    have ho : p.offset % 8 = 11 * raw.length % 8 := by omega
    rw [Packer.place, advance_eq, hq, ho]
  rw [hplace]
  constructor
  · exact (length_orBytes _ _ _ _).trans hlength
  · exact (asMem_orBytes_of_lt (by omega) _ _).trans hstart
  · exact Nat.le_add_right 1 _
  · rw [List.length_append, List.length_singleton]
    dsimp only
    omega
  · intro k
    have hroom : 11 * raw.length / 8 + 3 < p.oframe.length := by
      rw [hlength, frameSize]
      omega
    rw [bitAt_orBytes hroom (Nat.mod_lt _ (by decide)) hv, Nat.div_add_mod, hbits,
      bitAt_concat raw hv (by decide)]

theorem packed_foldl {p : Packer} {raw raw' : List ℕ} (h : Packed p raw)
    (hlen : raw.length + raw'.length ≤ 16) (hv : ∀ v ∈ raw', v < 2 ^ 11) :
    Packed (raw'.foldl Packer.place p) (raw ++ raw') := by
  induction raw' generalizing p raw with
  | nil => simpa using h
  | cons v raw' ih =>
    rw [List.length_cons] at hlen
    have hnext := h.place (by omega) (hv v List.mem_cons_self)
    rw [List.foldl_cons, List.append_cons]
    exact ih hnext (by simp; omega) fun v' hv' => hv v' (List.mem_cons_of_mem v hv')

/-- The bits of a frame are those of its values; behind these there are only zeros. -/
theorem packed_pack {raw : List ℕ} (hlen : raw.length ≤ 16) (hv : ∀ v ∈ raw, v < 2 ^ 11) :
    Packed (raw.foldl Packer.place Packer.init) raw := by
  have h := @packed_foldl _ _ raw packed_init (by simpa using hlen) hv
  rwa [List.nil_append] at h

/-! ### The decoder matrix -/

/-- A pick gives bit `b` of the channel. -/
def BitPick.gives (d : BitPick) (b : ℕ) : Bool :=
  decide (d.lshift ≤ b) && d.mask.testBit (b - d.lshift)

/-- Which bit of the byte a pick gives as bit `b` of the channel. -/
def BitPick.bit (d : BitPick) (b : ℕ) : ℕ := d.rshift + (b - d.lshift)

theorem BitPick.testBit_piece (d : BitPick) (frame : Mem) (b : ℕ) :
    (d.piece frame).testBit b = (d.gives b && (dataOf frame d.byte).testBit (d.bit b)) := by
  unfold piece gives bit dataOf
  rw [Nat.testBit_shiftLeft, Nat.testBit_and, Nat.testBit_shiftRight, Bool.and_assoc]
  congr 1
  rw [Bool.and_comm]

theorem testBit_foldl_piece (ds : List BitPick) (frame : Mem) (value b : ℕ) :
    (ds.foldl (fun value d => if d.mask ≠ 0 then value ||| d.piece frame else value)
        value).testBit b =
      (value.testBit b ||
        ds.any fun d => d.gives b && (dataOf frame d.byte).testBit (d.bit b)) := by
  induction ds generalizing value with
  | nil => rw [List.foldl_nil, List.any_nil, Bool.or_false]
  | cons d ds ih =>
    rw [List.foldl_cons, ih, List.any_cons, ← Bool.or_assoc, ← d.testBit_piece]
    congr 1
    split
    · rw [Nat.testBit_or]
    · next hmask =>
      rw [BitPick.piece, not_not.mp hmask, Nat.and_zero, Nat.zero_shiftLeft, Nat.zero_testBit,
        Bool.or_false]

theorem sbusDecoder_gives : ∀ channel < 16, ∀ b < 11, (∃ d ∈ sbusDecoder channel, d.gives b) ∧
    ∀ d ∈ sbusDecoder channel, d.gives b →
      d.bit b < 8 ∧ 8 * d.byte + d.bit b = 11 * channel + b := by
  decide

theorem sbusDecoder_mask : ∀ channel < 16, ∀ d ∈ sbusDecoder channel,
    d.lshift ≤ 11 ∧ d.mask < 2 ^ (11 - d.lshift) := by
  decide

theorem rawChannel_lt (frame : Mem) {channel : ℕ} (hc : channel < 16) :
    rawChannel frame channel < 2 ^ 11 := by
  apply Nat.lt_pow_two_of_testBit
  intro b hb
  rw [rawChannel, testBit_foldl_piece, Nat.zero_testBit, Bool.false_or, List.any_eq_false]
  intro d hd
  obtain ⟨hshift, hmask⟩ := sbusDecoder_mask channel hc d hd
  have hhigh : d.mask.testBit (b - d.lshift) = false :=
    Nat.testBit_lt_two_pow (lt_of_lt_of_le hmask (Nat.pow_le_pow_right (by omega) (by omega)))
  rw [BitPick.gives, hhigh, Bool.and_false, Bool.false_and]
  exact Bool.false_ne_true

theorem sameBits_rawChannel (frame : Mem) :
    SameBits 8 (dataOf frame) 11 (rawChannel frame) (11 * 16) := by
  intro k hk
  obtain ⟨channel, b, hb, rfl⟩ : ∃ channel b, b < 11 ∧ k = 11 * channel + b :=
    ⟨k / 11, k % 11, Nat.mod_lt k (by decide), (Nat.div_add_mod k 11).symm⟩
  obtain ⟨⟨d₀, hd₀, hgives₀⟩, hall⟩ := sbusDecoder_gives channel (by omega) b hb
  -- whichever pick gives the bit, it is the same one of the frame
  have hbit : ∀ d ∈ sbusDecoder channel, d.gives b = true →
      (dataOf frame d.byte).testBit (d.bit b) = bitAt 8 (dataOf frame) (11 * channel + b) := by
    intro d hd hgives
    obtain ⟨hlt, hplace⟩ := hall d hd hgives
    rw [← hplace, bitAt_mul_add hlt]
  rw [bitAt_mul_add hb, rawChannel, testBit_foldl_piece, Nat.zero_testBit, Bool.false_or, eq_comm,
    Bool.eq_iff_iff, List.any_eq_true]
  constructor
  · rintro ⟨d, hd, h⟩
    rw [Bool.and_eq_true] at h
    rw [← hbit d hd h.1]
    exact h.2
  · intro h
    exact ⟨d₀, hd₀, by rw [hgives₀, hbit d₀ hd₀ hgives₀, h, Bool.and_true]⟩

/-- The channels of a packed frame are the values, and zero where no value is given. -/
theorem rawChannel_pack {raw : List ℕ} (hlen : raw.length ≤ 16) (hv : ∀ v ∈ raw, v < 2 ^ 11)
    {channel : ℕ} (hc : channel < 16) :
    rawChannel (asMem (pack raw)) channel = raw.getD channel 0 := by
  have hlt : raw.getD channel 0 < 2 ^ 11 := by
    rcases Nat.lt_or_ge channel raw.length with h | h
    · rw [List.getD_eq_getElem _ _ h]
      exact hv _ (List.getElem_mem h)
    · rw [List.getD_eq_default _ _ h]
      exact Nat.two_pow_pos 11
  have hbits : SameBits 11 (raw.getD · 0) 8 (dataOf (asMem (pack raw))) (11 * 16) :=
    fun k _ => ((packed_pack hlen hv).bits k).symm
  exact (hbits.repack (sameBits_rawChannel _) (by omega) hlt (rawChannel_lt _ hc)).symm

theorem dataOf_pack_rawChannel (frame : Mem) {j : ℕ} (hj : j < 22) :
    dataOf (asMem (pack ((List.range 16).map (rawChannel frame)))) j = dataOf frame j := by
  have hpacked : Packed _ ((List.range 16).map (rawChannel frame)) := packed_pack (by simp) (by
    intro v hv
    obtain ⟨channel, hc, rfl⟩ := List.mem_map.mp hv
    exact rawChannel_lt frame (List.mem_range.mp hc))
  have hbits : SameBits 11 (rawChannel frame) 8
      (dataOf (asMem (pack ((List.range 16).map (rawChannel frame))))) (11 * 16) := by
    intro k hk
    have hget : ((List.range 16).map (rawChannel frame)).getD (k / 11) 0 =
        rawChannel frame (k / 11) := by
      rw [List.getD_eq_getElem _ _ (by simp; omega), List.getElem_map, List.getElem_range]
    exact (congrArg (Nat.testBit · (k % 11)) hget.symm).trans (hpacked.bits k).symm
  exact ((sameBits_rawChannel frame).repack hbits (by omega) (UInt8.toNat_lt _)
    (UInt8.toNat_lt _)).symm

/-! ### Parsing a frame -/

/-- The parser has the bytes of a frame that have come so far. -/
structure Collecting (p : Parser) (done : List UInt8) : Prop where
  state : p.state = if done = [] then .desync else .sbusStart
  count : done ≠ [] → p.partial_frame_count = done.length
  data : ∀ i (hi : i < done.length), p.sbus_frame i = done[i]

variable {max_channels : ℕ} {p : Parser} {done : List UInt8}

theorem Parser.limit_of_lt (h : p.partial_frame_count < frameSize) : p.limit = p := by
  have hsize : frameSize ≤ bufferSize := Nat.le_add_right _ _
  have hbuffer : p.partial_frame_count ≠ bufferSize := by omega
  unfold limit
  dsimp only
  rw [if_neg hbuffer, if_neg (by omega)]

theorem Parser.limit_desync (h : p.state = .desync) :
    p.limit.state = .desync ∧ p.limit.sbus_frame = p.sbus_frame := by
  unfold limit
  dsimp only
  split <;> split <;> first | exact ⟨rfl, rfl⟩ | exact ⟨h, rfl⟩

theorem push_data (hcount : p.partial_frame_count = done.length)
    (hdata : ∀ i (hi : i < done.length), p.sbus_frame i = done[i]) (b : UInt8) (i : ℕ)
    (hi : i < (done ++ [b]).length) : (p.push b).sbus_frame i = (done ++ [b])[i] := by
  change Function.update p.sbus_frame p.partial_frame_count b i = _
  rw [List.length_append, List.length_singleton] at hi
  rcases Nat.lt_or_ge i done.length with hlt | hge
  · rw [List.getElem_append_left hlt, Function.update_of_ne (by omega)]
    exact hdata i hlt
  · obtain rfl : i = done.length := by omega
    rw [List.getElem_concat_length rfl, hcount, Function.update_self]

theorem Collecting.byte (h : Collecting p done) {b : UInt8} (hb : done = [] → b = startSymbol)
    (hlen : done.length + 1 < frameSize) (ret : Bool) :
    ∃ p', Parser.parseByte max_channels (p, ret) b = (p', ret) ∧ Collecting p' (done ++ [b]) := by
  have hne : done ++ [b] ≠ [] := List.append_ne_nil_of_right_ne_nil _ (List.cons_ne_nil _ _)
  by_cases hdone : done = []
  · -- the start symbol, from whatever was in the buffer
    subst hdone
    have hstate := (Parser.limit_desync h.state).1
    refine ⟨{ p.limit with state := .sbusStart, partial_frame_count := 0 }.push b, ?_, ?_, ?_, ?_⟩
    · simp only [Parser.parseByte, hstate, if_pos (hb rfl)]
    · rw [if_neg hne]
      rfl
    · exact fun _ => rfl
    · exact @push_data _ [] rfl (fun i hi => nomatch hi) b
  · have hcount := h.count hdone
    have hstate : p.state = .sbusStart := h.state.trans (if_neg hdone)
    have hpush : (p.push b).partial_frame_count = done.length + 1 := congrArg (· + 1) hcount
    refine ⟨p.push b, ?_, ?_, ?_, ?_⟩
    · have hlimit : p.limit = p := Parser.limit_of_lt (by omega)
      simp only [Parser.parseByte, hlimit, hstate, hpush, if_pos hlen]
    · rw [if_neg hne]
      exact hstate
    · intro _
      rw [hpush, List.length_append, List.length_singleton]
    · exact push_data hcount h.data b

theorem Collecting.bytes {bytes : List UInt8} (h : Collecting p done)
    (hstart : (done ++ bytes).head? = some startSymbol ∨ bytes = [])
    (hlen : done.length + bytes.length < frameSize) (ret : Bool) :
    ∃ p', bytes.foldl (Parser.parseByte max_channels) (p, ret) = (p', ret) ∧
      Collecting p' (done ++ bytes) := by
  induction bytes generalizing p done with
  | nil => exact ⟨p, rfl, by simpa using h⟩
  | cons b bytes ih =>
    rw [List.length_cons] at hlen
    have hhead : (done ++ b :: bytes).head? = some startSymbol :=
      hstart.resolve_right (List.cons_ne_nil _ _)
    have hb : done = [] → b = startSymbol := by
      rintro rfl
      exact Option.some.inj hhead
    obtain ⟨p₁, hstep, h₁⟩ := h.byte hb (by omega) ret
    rw [List.foldl_cons, hstep]
    rw [List.append_cons] at hhead ⊢
    exact ih h₁ (.inl hhead) (by rw [List.length_append, List.length_singleton]; omega)

theorem Collecting.last (h : Collecting p done) (hlen : done.length = 24)
    (hstart : done.head? = some startSymbol) (ret : Bool) :
    ∃ p' : Parser, Parser.parseByte max_channels (p, ret) 0 =
        ({ p'.store max_channels with partial_frame_count := 0 }, true) ∧
      ∀ i (hi : i < (done ++ [0]).length), p'.sbus_frame i = (done ++ [0])[i] := by
  have hdone : done ≠ [] := by
    rintro rfl
    exact nomatch hlen
  have hcount := h.count hdone
  have hstate : p.state = .sbusStart := h.state.trans (if_neg hdone)
  have hpush : (p.push 0).partial_frame_count = frameSize := congrArg (· + 1) (hcount.trans hlen)
  have hdata := push_data hcount h.data 0
  have hfirst : (p.push 0).sbus_frame 0 = startSymbol := by
    rw [hdata 0 (by simp), List.getElem_append_left (by omega)]
    rwa [List.head?_eq_getElem?, List.getElem?_eq_getElem (by omega), Option.some_inj] at hstart
  have hlast : (p.push 0).sbus_frame 24 = 0 := by
    rw [hdata 24 (by simp; omega), List.getElem_concat_length hlen.symm]
  have hdecode : (p.push 0).sbusDecode max_channels =
      ({ p.push 0 with state := .sbus1Sync }.store max_channels, true) := by
    unfold Parser.sbusDecode
    rw [if_neg (not_not.mpr hfirst), hlast]
    rfl
  refine ⟨{ p.push 0 with state := .sbus1Sync }, ?_, hdata⟩
  have hlimit : p.limit = p := Parser.limit_of_lt (by rw [hcount, hlen]; decide)
  simp only [Parser.parseByte, hlimit, hstate, hpush, if_neg (Nat.lt_irrefl frameSize),
    Parser.complete, hdecode]
  rfl

def calls (max_channels : ℕ) (p : Parser) (chunks : List (UInt64 × List UInt8)) :
    Parser × List Bool :=
  Mealy.feed (fun p chunk => Parser.sbusParse max_channels p chunk.1 chunk.2) p chunks

theorem Collecting.parse (h : Collecting p done) {bytes : List UInt8}
    (hstart : (done ++ bytes).head? = some startSymbol ∨ bytes = [])
    (hlen : done.length + bytes.length < frameSize) (now : UInt64) :
    ∃ p', Parser.sbusParse max_channels p now bytes = (p', false) ∧
      Collecting p' (done ++ bytes) := by
  have h₀ : Collecting { p with last_rx_time := now } done := ⟨h.state, h.count, h.data⟩
  obtain ⟨p₁, hparse, h₁⟩ := h₀.bytes hstart hlen false
  refine ⟨{ p₁ with frame_drops := p₁.sbus_frame_drops }, ?_, ⟨h₁.state, h₁.count, h₁.data⟩⟩
  rw [Parser.sbusParse, hparse]

theorem Collecting.calls {chunks : List (UInt64 × List UInt8)} (h : Collecting p done)
    {rest : List UInt8}
    (hstart : (done ++ chunks.flatMap Prod.snd ++ rest).head? = some startSymbol)
    (hlen : done.length + (chunks.flatMap Prod.snd).length < frameSize) :
    (∀ ret ∈ (Sbus.calls max_channels p chunks).2, ret = false) ∧
      Collecting (Sbus.calls max_channels p chunks).1 (done ++ chunks.flatMap Prod.snd) := by
  induction chunks generalizing p done with
  | nil =>
    refine ⟨fun ret hret => absurd hret List.not_mem_nil, ?_⟩
    rw [List.flatMap_nil, List.append_nil]
    exact h
  | cons chunk chunks ih =>
    rw [List.flatMap_cons] at hlen hstart ⊢
    rw [List.length_append] at hlen
    rw [← List.append_assoc] at hstart ⊢
    have hhead : (done ++ chunk.2).head? = some startSymbol ∨ chunk.2 = [] := by
      by_cases hnil : done ++ chunk.2 = []
      · exact .inr (List.append_eq_nil_iff.mp hnil).2
      · left
        rwa [List.append_assoc, List.head?_append_of_ne_nil _ hnil] at hstart
    obtain ⟨p₁, hparse, h₁⟩ := h.parse hhead (by omega) chunk.1
    obtain ⟨hrets, hcollect⟩ := ih h₁ hstart (by rw [List.length_append]; omega)
    unfold Sbus.calls
    rw [Mealy.feed_cons, hparse]
    refine ⟨fun ret hret => ?_, hcollect⟩
    rcases List.mem_cons.mp hret with rfl | hret
    · rfl
    · exact hrets ret hret

/-- A frame for S.BUS 1 in chunks: the call with the last byte stores what it has, and only this
call returns true. -/
theorem parse_frame {chunks : List (UInt64 × List UInt8)} {last bytes : List UInt8}
    (hp : p.state = .desync) (hlen : bytes.length = 24) (hstart : bytes.head? = some startSymbol)
    (hbytes : chunks.flatMap Prod.snd ++ last = bytes ++ [0]) (hne : last ≠ []) (time : UInt64) :
    (∀ ret ∈ (calls max_channels p chunks).2, ret = false) ∧
      ∃ q : Parser, (∀ i < frameSize, q.sbus_frame i = asMem (bytes ++ [0]) i) ∧
        Parser.sbusParse max_channels (calls max_channels p chunks).1 time last =
          ({ q.store max_channels with
              partial_frame_count := 0
              frame_drops := q.sbus_frame_drops }, true) := by
  obtain ⟨rest, b, rfl⟩ : ∃ rest b, last = rest ++ [b] :=
    ⟨last.dropLast, last.getLast hne, (List.dropLast_append_getLast hne).symm⟩
  rw [← List.append_assoc] at hbytes
  obtain ⟨rfl, hb⟩ := List.append_inj' hbytes rfl
  obtain rfl : b = 0 := List.singleton_inj.mp hb
  rw [List.length_append] at hlen
  have hinit : Collecting p [] :=
    ⟨hp, fun h => absurd rfl h, fun i hi => nomatch hi⟩
  obtain ⟨hrets, hcollect⟩ := @Collecting.calls max_channels _ _ _ hinit rest
    (by rwa [List.nil_append]) (by rw [List.length_nil, frameSize]; omega)
  rw [List.nil_append] at hcollect
  refine ⟨hrets, ?_⟩
  -- the last chunk: the bytes before the last one, and the last one
  have h₀ : Collecting { (calls max_channels p chunks).1 with last_rx_time := time }
      (chunks.flatMap Prod.snd) := ⟨hcollect.state, hcollect.count, hcollect.data⟩
  obtain ⟨p₁, hparse, h₁⟩ := h₀.bytes (.inl hstart) (by rw [frameSize]; omega) false
  obtain ⟨q, hlast, hdata⟩ := @Collecting.last max_channels _ _ h₁
    (by rw [List.length_append]; omega) hstart false
  refine ⟨q, fun i hi => ?_, ?_⟩
  · have hi' : i < (chunks.flatMap Prod.snd ++ rest ++ [0]).length := by
      rw [List.length_append, List.length_append, List.length_singleton]
      unfold frameSize at hi
      omega
    rw [hdata i hi', asMem, List.getD_eq_getElem _ _ hi']
  · rw [Parser.sbusParse, List.foldl_append, hparse, List.foldl_cons, hlast]
    rfl

/-! ### Round trip -/

/-- What the caller has when a frame with some channels is decoded. -/
structure Decoded (q : Parser) (max_channels : ℕ) (given : List UInt16) : Prop where
  num_values : q.num_values = if max_channels > 17 then 18 else 16
  values : ∀ i < 16, q.values i = given.getD i 874
  switches : max_channels > 17 → q.values 16 = 998 ∧ q.values 17 = 998
  failsafe : q.sbus_failsafe = false
  frame_drop : q.sbus_frame_drop = false

theorem rawChannel_congr {frame frame' : Mem} (h : ∀ j < 22, frame (1 + j) = frame' (1 + j))
    {channel : ℕ} (hc : channel < 16) : rawChannel frame channel = rawChannel frame' channel := by
  refine eq_of_bitAt (rawChannel_lt frame hc) (rawChannel_lt frame' hc) fun b hb => ?_
  rw [← sameBits_rawChannel frame _ (by omega), ← sameBits_rawChannel frame' _ (by omega), bitAt,
    bitAt, dataOf, dataOf, h _ (by omega)]

theorem asMem_pack_of_le {raw : List ℕ} (hlen : raw.length ≤ 16) (hv : ∀ v ∈ raw, v < 2 ^ 11)
    {j : ℕ} (hj : 23 ≤ j) : asMem (pack raw) j = 0 := by
  obtain ⟨i, rfl⟩ := Nat.exists_eq_add_of_le (show 1 ≤ j by omega)
  apply UInt8.toNat_inj.mp
  apply Nat.eq_of_testBit_eq
  intro b
  rw [UInt8.toNat_zero, Nat.zero_testBit]
  rcases Nat.lt_or_ge b 8 with hb | hb
  · have hbit := (packed_pack hlen hv).bits (8 * i + b)
    rw [bitAt_mul_add hb, bitAt, List.getD_eq_default _ _ (by omega), Nat.zero_testBit] at hbit
    exact hbit
  · have hpow : 2 ^ 8 ≤ 2 ^ b := Nat.pow_le_pow_right (by omega) hb
    exact Nat.testBit_lt_two_pow (lt_of_lt_of_le (UInt8.toNat_lt _) hpow)

theorem Parser.store_values (p : Parser) {i : ℕ} (hi : i < 16) (hmax : 16 ≤ max_channels) :
    (p.store max_channels).values i = scaleChannel (rawChannel p.sbus_frame i) := by
  have hchannels : p.channels max_channels i = scaleChannel (rawChannel p.sbus_frame i) := by
    have hmem : i ∈ List.range (min max_channels inputChannels) := by
      rw [List.mem_range, inputChannels]
      omega
    exact (foldl_update _ _ _ i).1 hmem
  unfold store
  dsimp only
  split
  · rw [Function.update_of_ne (by omega), Function.update_of_ne (by omega), hchannels]
  · exact hchannels

theorem Parser.decoded_store {given : List UInt16} (hlen : given.length ≤ 16)
    (hgiven : ∀ v ∈ given, 874 ≤ v.toNat ∧ v.toNat ≤ 2153) (hmax : 16 ≤ max_channels)
    (hframe : ∀ i < frameSize, p.sbus_frame i = asMem (pack (given.map encode)) i) :
    Decoded (p.store max_channels) max_channels given := by
  have hlen' : (given.map encode).length ≤ 16 := by rwa [List.length_map]
  have hraw : ∀ v ∈ given.map encode, v < 2 ^ 11 := List.forall_mem_map.mpr fun _ _ => encode_lt
  have hflag : ∀ bit, p.flag bit = false := by
    intro bit
    have hzero : asMem (pack (given.map encode)) flagsByte = 0 :=
      asMem_pack_of_le hlen' hraw (Nat.le_refl 23)
    rw [Parser.flag, hframe flagsByte (by decide), hzero, UInt8.toNat_zero, Nat.zero_testBit]
  have hcount : min max_channels inputChannels = 16 := Nat.min_eq_right hmax
  have hwide : (max_channels > 17 ∧ 16 > 15) ↔ max_channels > 17 := by omega
  constructor
  · unfold store
    simp only [hcount, hwide]
  · intro i hi
    rw [store_values p hi hmax, rawChannel_congr (fun j hj => hframe (1 + j) (by
      unfold frameSize; omega)) hi, rawChannel_pack hlen' hraw hi]
    rcases Nat.lt_or_ge i given.length with hlt | hge
    · obtain ⟨hmin, hmax'⟩ := hgiven _ (List.getElem_mem hlt)
      rw [List.getD_eq_getElem _ _ (by rwa [List.length_map]), List.getElem_map,
        scaleChannel_encode hmin hmax', List.getD_eq_getElem _ _ hlt]
    · rw [List.getD_eq_default _ _ (by rwa [List.length_map]), List.getD_eq_default _ _ hge,
        scaleChannel_eq (Nat.two_pow_pos 11)]
      rfl
  · intro h
    unfold store
    simp only [hcount, hwide, if_pos h, hflag]
    exact ⟨rfl, rfl⟩
  · exact hflag _
  · unfold store
    dsimp only
    rw [hflag, hflag]
    rfl

theorem frame_of_sbus1Output {o o' : Output} {now : UInt64} {given : List UInt16}
    {frame : List UInt8} (hlen : given.length ≤ 16)
    (h : sbus1Output o now given = (o', some frame)) : pack (given.map encode) = frame := by
  unfold sbus1Output at h
  split at h
  · have hframe := (Prod.mk.inj h).2
    rwa [List.take_of_length_le hlen, Option.some_inj] at hframe
  · exact absurd (Prod.mk.inj h).2 (by simp)

theorem pack_eq_append {given : List UInt16} (hlen : given.length ≤ 16) :
    ∃ bytes, pack (given.map encode) = bytes ++ [0] ∧ bytes.length = 24 ∧
      bytes.head? = some startSymbol := by
  have hraw : ∀ v ∈ given.map encode, v < 2 ^ 11 := List.forall_mem_map.mpr fun _ _ => encode_lt
  have hlen' : (given.map encode).length ≤ 16 := by rwa [List.length_map]
  have hpacked := packed_pack hlen' hraw
  have hlength : (pack (given.map encode)).length = 25 := hpacked.length
  have hlast : (pack (given.map encode))[24] = 0 := by
    rw [← List.getD_eq_getElem _ 0]
    exact asMem_pack_of_le hlen' hraw (by decide)
  have hfirst : (pack (given.map encode))[0] = startSymbol := by
    rw [← List.getD_eq_getElem _ 0]
    exact hpacked.start
  refine ⟨(pack (given.map encode)).take 24, ?_, ?_, ?_⟩
  · rw [← hlast, List.take_append_getElem, List.take_of_length_le (by omega)]
  · rw [List.length_take]
    omega
  · rw [List.head?_take, if_neg (by decide), List.head?_eq_getElem?,
      List.getElem?_eq_getElem (by omega), hfirst]

/-- A frame that `sbus1_output` has written, in whatever chunks it comes, is decoded by the call
with its last byte into the values that were given.  The packing and the decoder matrix are inverse
to each other. -/
theorem sbus_round_trip :
    (∀ (o o' : Output) (now : UInt64) (given : List UInt16) (frame : List UInt8) (p : Parser)
        (max_channels : ℕ) (chunks : List (UInt64 × List UInt8)) (time : UInt64)
        (last : List UInt8),
      given.length ≤ 16 → (∀ v ∈ given, 874 ≤ v.toNat ∧ v.toNat ≤ 2153) →
      sbus1Output o now given = (o', some frame) → p.state = .desync → 16 ≤ max_channels →
      chunks.flatMap Prod.snd ++ last = frame → last ≠ [] →
      (∀ ret ∈ (calls max_channels p chunks).2, ret = false) ∧
        (Parser.sbusParse max_channels (calls max_channels p chunks).1 time last).2 = true ∧
        Decoded (Parser.sbusParse max_channels (calls max_channels p chunks).1 time last).1
          max_channels given) ∧
      (∀ raw : List ℕ, raw.length = 16 → (∀ v ∈ raw, v < 2 ^ 11) →
        (List.range 16).map (rawChannel (asMem (pack raw))) = raw) ∧
      ∀ (frame : Mem) (j : ℕ), j < 22 →
        asMem (pack ((List.range 16).map (rawChannel frame))) (1 + j) = frame (1 + j) := by
  refine ⟨?_, ?_, ?_⟩
  · intro o o' now given frame p max_channels chunks time last hlen hgiven hout hp hmax hbytes hne
    obtain rfl : pack (given.map encode) = frame := frame_of_sbus1Output hlen hout
    obtain ⟨bytes, hbytes', hlen', hstart⟩ := pack_eq_append hlen
    rw [hbytes'] at hbytes
    obtain ⟨hrets, q, hframe, hparse⟩ := parse_frame hp hlen' hstart hbytes hne time
    rw [← hbytes'] at hframe
    have hdecoded := Parser.decoded_store hlen hgiven hmax hframe
    rw [hparse]
    exact ⟨hrets, rfl, ⟨hdecoded.num_values, hdecoded.values, hdecoded.switches, hdecoded.failsafe,
      hdecoded.frame_drop⟩⟩
  · intro raw hlen hraw
    apply List.ext_getElem
    · rw [List.length_map, List.length_range, hlen]
    · intro i hi hi'
      rw [List.getElem_map, List.getElem_range, rawChannel_pack (le_of_eq hlen) hraw (by omega),
        List.getD_eq_getElem _ _ hi']
  · intro frame j hj
    exact UInt8.toNat_inj.mp (dataOf_pack_rawChannel frame hj)

/-- Three values in a frame that comes in two chunks. -/
theorem sbus_round_trip_three_values :
    ∃ (frame : List UInt8) (p : Parser),
      sbus1Output ⟨0, 13888⟩ 20000 [874, 1500, 2153] = (⟨20000, 13888⟩, some frame) ∧
        Decoded (Parser.sbusParse 18 (calls 18 p [(1, frame.take 10)]).1 2 (frame.drop 10)).1 18
          [874, 1500, 2153] := by
  have hout : sbus1Output ⟨0, 13888⟩ 20000 [874, 1500, 2153] =
      (⟨20000, 13888⟩, some (pack (([874, 1500, 2153] : List UInt16).map encode))) :=
    if_pos (by decide)
  have hne : (pack (([874, 1500, 2153] : List UInt16).map encode)).drop 10 ≠ [] := by
    obtain ⟨bytes, hbytes, hlen, -⟩ := @pack_eq_append [874, 1500, 2153] (by decide)
    rw [Ne, List.drop_eq_nil_iff, hbytes, List.length_append, hlen]
    decide
  refine ⟨_, ⟨0, .desync, fun _ => 0, 0, 0, fun _ => 0, 0, false, false, 0⟩, hout, ?_⟩
  have hrange : ∀ v ∈ ([874, 1500, 2153] : List UInt16), 874 ≤ v.toNat ∧ v.toNat ≤ 2153 := by simp
  exact (sbus_round_trip.1 _ _ _ _ _ _ 18 _ 2 _ (by decide) hrange hout rfl (by decide)
    (by simp) hne).2.2

end Sbus
