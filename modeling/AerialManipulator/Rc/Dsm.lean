/-
The decoder for Spektrum receivers.

A frame has 16 bytes and no marker: a pause of more than five milliseconds is where one begins.
Its seven words have a channel and a position, of 10 or of 11 bits; which of the two is guessed
from the channels that appear.  The values go into a buffer that is kept from frame to frame, while
the frame is still being checked.

* `dsmDecodeChannel` — one word;
* `dsmDecode` — one frame; with the verdict it returns what has been stored;
* `dsmParse` — some bytes that have arrived.

Numbers of 32 bits that cannot get large are natural numbers.
-/
import AerialManipulator.Lib.Mealy
import AerialManipulator.Rc.CommonRc

open ByteStore CommonRc

namespace Dsm

def frameSize : ℕ := 16
def frameChannels : ℕ := 7
def maxChannelCount : ℕ := 18
def bufferSize : ℕ := frameSize + frameSize / 2

/-! ### One word -/

/-- `roundf(servo_position * scale)`, where the digits of `scale` are those of `1.166f` and of
`0.583f`, and it has `e` of them behind the point. -/
def scaled (servo_position e : ℕ) : ℕ :=
  (roundToFloat (servo_position * 9781117) + 2 ^ (e - 1)) / 2 ^ e

def offset : ℕ := 903

/-- The range of the values. -/
def InRange (value : ℕ) : Prop := 903 ≤ value ∧ value ≤ 2097

instance (value : ℕ) : Decidable (InRange value) := inferInstanceAs (Decidable (_ ∧ _))

/-- `dsm_decode_channel`: the channel and the value. -/
def dsmDecodeChannel (raw shift : ℕ) : Option (ℕ × ℕ) :=
  if raw = 0 ∨ raw = 0xffff then none
  else if shift = 10 then
    let channel := (raw &&& 0xfc00) >>> 10
    let servo_position := raw &&& 0x03ff
    if channel > maxChannelCount then none
    else
      let value := scaled servo_position 23 + offset
      if InRange value then some (channel, value) else none
  else if shift = 11 then
    -- the shift goes the wrong way, so that this bit is never set
    let phase := raw &&& (2 >>> 15) ≠ 0
    let chan := (raw >>> 11) &&& 0x0f
    let found : Option (ℕ × ℕ) :=
      if chan < 12 then some (chan, raw &&& 0x07ff)
      else if chan = 12 then
        let chan := chan + ((raw >>> 9) &&& 0x03) + (if phase then 4 else 0)
        if chan > maxChannelCount then none else some (chan, (raw &&& 0x01ff) <<< 2)
      else none
    match found with
    | none => none
    | some (channel, servo_position) =>
      let value := scaled servo_position 24 + offset
      if InRange value then some (channel, value) else none
  else none

/-! ### The state -/

inductive DecodeState
  | desync
  | sync
  deriving DecidableEq

/-- The variables of the decoder, with those of `dsm_guess_format` (`cs10`, `cs11`, `samples`) and
what two pointers of the caller point to.  `rssi_percent` may be a null pointer. -/
structure Decoder where
  decode_state : DecodeState
  last_rx_time : UInt64
  last_frame_time : UInt64
  frame : Mem
  chan_buf : ℕ → ℕ
  partial_frame_count : ℕ
  channel_shift : ℕ
  frame_drops : ℕ
  chan_count : ℕ
  chan_count_prev : ℕ
  cs10 : ℕ
  cs11 : ℕ
  samples : ℕ
  dsm_11_bit : Bool
  rssi_percent : Option ℤ

def raw (frame : Mem) (i : ℕ) : ℕ :=
  (frame (2 + 2 * i)).toNat * 256 + (frame (2 + 2 * i + 1)).toNat

def words (frame : Mem) : List ℕ := (List.range frameChannels).map (raw frame)

namespace Decoder

variable (s : Decoder)

/-! ### The format -/

/-- `dsm_guess_format(true)`. -/
def resetFormat : Decoder := { s with cs10 := 0, cs11 := 0, samples := 0, channel_shift := 0 }

/-- The channels that are found with one of the formats, as bits, and whether no channel appears
twice. -/
def channelsFound (shift : ℕ) (words : List ℕ) : ℕ × Bool :=
  words.foldl (fun (found, valid) raw =>
    match dsmDecodeChannel raw shift with
    | none => (found, valid)
    | some (channel, _) =>
      if found.testBit channel then (found, false)
      else (found ||| (1 <<< channel), valid)) (0, true)

/-- The channels that are added to those seen before: only the first seven are looked at. -/
def addFound (cs : ℕ) (found : ℕ × Bool) : ℕ :=
  if found.2 then cs ||| (found.1 &&& (2 ^ frameChannels - 1)) else cs

def masks : List ℕ := [0x3f, 0x7f, 0xff, 0x1ff, 0x3ff, 0x1fff, 0xffff, 0x3ffff]

/-- `dsm_guess_format(false)`. -/
def guessFormat : Decoder × Bool :=
  let s := { s with
    cs10 := addFound s.cs10 (channelsFound 10 (words s.frame))
    cs11 := addFound s.cs11 (channelsFound 11 (words s.frame))
    samples := s.samples + 1 }
  if s.samples < 10 then (s, false)
  else
    let votes10 := masks.countP (s.cs10 = ·)
    let votes11 := masks.countP (s.cs11 = ·)
    if votes11 = 1 ∧ votes10 = 0 then ({ s with channel_shift := 11 }, true)
    else if votes10 = 1 ∧ votes11 = 0 then ({ s with channel_shift := 10 }, true)
    else (s.resetFormat, false)

/-- The first part of `dsm_decode`: after a second without a frame the format is unknown; whether
it is known at the end. -/
def updateFormat (frame_time : UInt64) : Decoder × Bool :=
  let s :=
    if frame_time - s.last_frame_time > 1000000 ∧ s.channel_shift ≠ 0 then s.resetFormat else s
  if s.channel_shift = 0 then s.guessFormat else (s, true)

/-- The signal strength is the first byte, if it is negative. -/
def updateRssi : Decoder :=
  let dbm := (s.frame 0).toInt8
  { s with rssi_percent := s.rssi_percent.map fun _ =>
      if dbm.toInt < 0 then if dbm.toInt = -128 then 0 else spekDbmToPercent dbm
      else 127 }

end Decoder

/-! ### One frame -/

/-- The channels of the input are in another order than those of the receiver. -/
def assign : ℕ → ℕ
  | 0 => 2
  | 1 => 0
  | 2 => 1
  | c => c

/-- The variables of the loop over the words, with the stores that have been made, the last one
first. -/
structure Loop where
  values : ℕ → ℕ
  num_values : ℕ
  failures : ℕ
  found : ℕ
  stores : List (ℕ × ℕ)

/-- Whether the loop gets to its end; the last two reset the format. -/
inductive Verdict
  | done
  | halfFailed
  | duplicate
  | outOfBounds
  deriving DecidableEq

def Loop.store (l : Loop) (channel value : ℕ) : Loop :=
  { l with
    num_values := if channel ≥ l.num_values then channel + 1 else l.num_values
    values := Function.update l.values (assign channel) value
    stores := (assign channel, value) :: l.stores }

/-- The loop of `dsm_decode`. -/
def decodeLoop (shift max_values : ℕ) : List ℕ → Loop → Loop × Verdict
  | [], l => (l, .done)
  | raw :: words, l =>
    -- words that the receiver leaves empty
    if raw = 0 ∨ raw = 0xffff then decodeLoop shift max_values words l
    else
      match dsmDecodeChannel raw shift with
      | none => decodeLoop shift max_values words { l with failures := l.failures + 1 }
      | some (channel, value) =>
        -- half of the frame has failed; only asked when a later word can be decoded
        if l.failures ≥ 4 then (l, .halfFailed)
        else if l.found.testBit channel then (l, .duplicate)
        else
          let l := { l with found := l.found ||| (1 <<< channel) }
          if channel > maxChannelCount then (l, .outOfBounds)
          else if channel ≥ max_values then decodeLoop shift max_values words l
          else decodeLoop shift max_values words (l.store channel value)

/-- A frame that has been given to `dsm_decode`: its words, the format, what was stored (the last
one first) and whether the frame was accepted. -/
structure Decoded where
  words : List ℕ
  shift : ℕ
  stores : List (ℕ × ℕ)
  accepted : Bool

/-- The rest of `dsm_decode`, when the format is known. -/
def Decoder.decodeFrame (s : Decoder) (frame_time : UInt64) (max_values : ℕ) : Decoder × Decoded :=
  let s := s.updateRssi
  let shift := s.channel_shift
  match decodeLoop shift max_values (words s.frame) ⟨s.chan_buf, s.chan_count, 0, 0, []⟩ with
  | (l, verdict) =>
    let s := { s with chan_buf := l.values, chan_count := l.num_values }
    let rejected : Decoded := ⟨words s.frame, shift, l.stores, false⟩
    match verdict with
    | .halfFailed => (s, rejected)
    | .duplicate => (s.resetFormat, rejected)
    | .outOfBounds => (s.resetFormat, rejected)
    | .done =>
      let s := { s with dsm_11_bit := shift = 11, last_frame_time := frame_time }
      if (List.range s.chan_count).all fun i => InRange (s.chan_buf i) then
        (s, ⟨words s.frame, shift, l.stores, true⟩)
      else ({ s with chan_count := 0 }, rejected)

def Decoder.dsmDecode (s : Decoder) (frame_time : UInt64) (max_values : ℕ) : Decoder × Decoded :=
  match s.updateFormat frame_time with
  | (s, false) => (s, ⟨words s.frame, s.channel_shift, [], false⟩)
  | (s, true) => s.decodeFrame frame_time max_values

/-! ### Bytes -/

namespace Decoder

/-- `dsm_frame[dsm_partial_frame_count++] = byte`. -/
def push (s : Decoder) (byte : UInt8) : Decoder :=
  { s with
    frame := put s.frame s.partial_frame_count [byte]
    partial_frame_count := s.partial_frame_count + 1 }

def desynced (s : Decoder) : Decoder := { s with partial_frame_count := 0, decode_state := .desync }

def limit (s : Decoder) : Decoder :=
  let s := if s.partial_frame_count = bufferSize then s.desynced else s
  if s.partial_frame_count = frameSize then s.desynced else s

/-- One turn of the loop of `dsm_parse`, with the frame that has been decoded in it. -/
def parseByte (now : UInt64) (max_channels : ℕ) (s : Decoder) (byte : UInt8) :
    Decoder × Option Decoded :=
  let s := s.limit
  match s.decode_state with
  | .desync =>
    -- a pause of more than 5 ms is the gap between two frames
    if now - s.last_rx_time > 5000 then
      (push { s with decode_state := .sync, partial_frame_count := 0, chan_count := 0 } byte, none)
    else (s, none)
  | .sync =>
    let s := s.push byte
    if s.partial_frame_count < frameSize then (s, none)
    else
      match s.dsmDecode now max_channels with
      | (s, d) =>
        let s := { s with partial_frame_count := 0 }
        if d.accepted then (s, some d)
        else ({ s with decode_state := .desync, frame_drops := s.frame_drops + 1 }, some d)

/-- The number of channels that `dsm_parse` asks for. -/
def clampChannels (max_channels : ℕ) : ℕ :=
  if max_channels > maxChannelCount then maxChannelCount else max_channels

/-- `dsm_parse`: the frames that have been decoded, and the values, if it returns true. -/
def dsmParse (s : Decoder) (now : UInt64) (bytes : List UInt8) (max_channels : ℕ) :
    Decoder × List Decoded × Option (List ℕ) :=
  match Mealy.feed (parseByte now (clampChannels max_channels)) s bytes with
  | (s, ds) =>
    let decoded := ds.filterMap id
    let decode_ret := (decoded.getLast?.map Decoded.accepted).getD false
    let out : Option (List ℕ) :=
      if decode_ret ∧ 0 < s.chan_count ∧ s.chan_count ≤ maxChannelCount ∧
          s.chan_count = s.chan_count_prev then
        some ((List.range s.chan_count).map s.chan_buf)
      else none
    let s := if decode_ret then { s with chan_count_prev := s.chan_count } else s
    ({ s with last_rx_time := now }, decoded, out)

def dsmProtoInit (s : Decoder) : Decoder :=
  { s with
    channel_shift := 0
    frame_drops := 0
    chan_count := 0
    decode_state := .desync
    chan_buf := fun _ => 0 }

/-- What `dsm_config` does to the decoder. -/
def dsmConfig (s : Decoder) (now : UInt64) : Decoder :=
  resetFormat { s with partial_frame_count := 0, last_rx_time := now }

end Decoder

end Dsm
