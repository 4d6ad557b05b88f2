/-
The protocol splitter (`protocol_splitter.cpp`).

Two devices, one for MAVLink and one for RTPS, share a serial line.  What is written to a device
goes out behind a header of four bytes: the magic `S`, the type and the length of what follows, and
a checksum.  What comes in is collected in one buffer for both; a read of a device searches the
buffer for a header of its type, and takes the packet behind it out of the buffer.

* `Sender` and `Sender.write` — the end that writes; a device that is in the middle of a message
  holds the lock;
* `Receiver` and `Receiver.read` — the end that reads;
* `System` — a line with its two ends, and what has been sent, read and not read so far.
-/
import Mathlib.Algebra.Order.Ring.Int
import AerialManipulator.Lib.Trace

namespace ProtocolSplitter

inductive MessageType
  | Mavlink
  | Rtps
deriving DecidableEq

def MessageType.bit : MessageType → ℕ
  | .Mavlink => 0
  | .Rtps => 1

/-- `'S'` -/
def Sp2HeaderMagic : UInt8 := 83

def Sp2HeaderSize : ℕ := 4

/-- The header of a packet.  It has room for fifteen bits of the length. -/
def header (type : MessageType) (len : ℕ) : List UInt8 :=
  let len_h := UInt8.ofNat (len / 256 % 128 + 128 * type.bit)
  let len_l := UInt8.ofNat (len % 256)
  [Sp2HeaderMagic, len_h, len_l, Sp2HeaderMagic ^^^ len_h ^^^ len_l]

/-! ### Writing -/

inductive ParserState
  | Idle
  | GotLength
deriving DecidableEq

/-- Where a device is in the message it writes. -/
structure Parser where
  parser_state : ParserState
  packet_len : UInt16
deriving DecidableEq

structure Sender where
  parser : MessageType → Parser
  w_lock : Option MessageType

/-- The length of the message that starts with these bytes, as the message says it. -/
def announced (type : MessageType) (buffer : List UInt8) : Option UInt16 :=
  match type with
  | .Mavlink =>
    if buffer.getD 0 0 = 253 then
      let packet_len := (buffer.getD 1 0).toUInt16 + 12
      some (if buffer.getD 2 0 &&& 1 ≠ 0 then packet_len + 13 else packet_len)
    else if buffer.getD 0 0 = 254 then some ((buffer.getD 1 0).toUInt16 + 8)
    else none
  | .Rtps =>
    if buffer.take 3 = [62, 62, 62] then
      some (((buffer.getD 5 0).toUInt16 <<< 8 ||| (buffer.getD 6 0).toUInt16) + 9)
    else none

/-- The device waits for the lock before it begins with a message. -/
def Sender.blocked (s : Sender) (type : MessageType) : Bool :=
  (s.parser type).parser_state = .Idle ∧ s.w_lock ≠ none ∧ s.w_lock ≠ some type

/-- The part of `write` after the length is known: what is returned, and what goes out. -/
def Sender.writePart (s : Sender) (type : MessageType) (packet_len : UInt16) (buffer : List UInt8)
    (buf_free : ℕ) : ℤ × List UInt8 × Sender :=
  let packet_len := packet_len - UInt16.ofNat buffer.length
  let out := if buf_free < buffer.length then (-1, [])
    else ((buffer.length : ℤ), header type buffer.length ++ buffer)
  let s := if packet_len = 0 then
      { s with
        parser := Function.update s.parser type ⟨.Idle, packet_len⟩
        w_lock := none }
    else { s with parser := Function.update s.parser type ⟨.GotLength, packet_len⟩ }
  (out.1, out.2, s)

/-- `Mavlink2Dev::write` and `RtpsDev::write`. -/
def Sender.write (s : Sender) (type : MessageType) (buffer : List UInt8) (buf_free : ℕ) :
    ℤ × List UInt8 × Sender :=
  match (s.parser type).parser_state with
  | .Idle =>
    match announced type buffer with
    | none => (0, [], s)
    | some packet_len => { s with w_lock := some type }.writePart type packet_len buffer buf_free
  | .GotLength => s.writePart type (s.parser type).packet_len buffer buf_free

/-! ### Reading -/

def BUFFER_SIZE : ℕ := 512

/-- `sizeof(buffer) * 0.8` -/
def BUFFER_THRESHOLD : ℕ := 409

/-- What looks like a header of a type, at a position of the buffer. -/
def isHeader (type : MessageType) (buffer : List UInt8) (i : ℕ) : Bool :=
  buffer.getD i 0 = Sp2HeaderMagic ∧ (buffer.getD (i + 1) 0).toNat / 128 = type.bit ∧
    buffer.getD (i + 3) 0 = buffer.getD i 0 ^^^ buffer.getD (i + 1) 0 ^^^ buffer.getD (i + 2) 0

/-- The search for a header, from a position on, for so many positions. -/
def searchLoop (type : MessageType) (buffer : List UInt8) : ℕ → ℕ → ℕ
  | 0, i => i
  | n + 1, i => if isHeader type buffer i then i else searchLoop type buffer n (i + 1)

def search (type : MessageType) (buffer : List UInt8) : ℕ :=
  searchLoop type buffer (buffer.length - Sp2HeaderSize) 0

def payloadLen (buffer : List UInt8) (i : ℕ) : ℕ :=
  (buffer.getD (i + 1) 0).toNat % 128 * 256 + (buffer.getD (i + 2) 0).toNat

/-- The position of the first packet of a type, and the length of its payload, if it is complete. -/
def findPacket (type : MessageType) (buffer : List UInt8) : Option (ℕ × ℕ) :=
  if buffer.length < Sp2HeaderSize then none
  else
    let i := search type buffer
    if i ≥ buffer.length - Sp2HeaderSize then none
    else
      let packet_len := payloadLen buffer i + Sp2HeaderSize
      if i + packet_len > buffer.length then none else some (i, payloadLen buffer i)

def copy (buffer : List UInt8) (pos n : ℕ) : List UInt8 := (buffer.drop pos).take n

def remove (buffer : List UInt8) (pos n : ℕ) : List UInt8 :=
  buffer.take pos ++ buffer.drop (pos + n)

/-- The end that reads: the buffer, what `poll` has said to each device, and the bytes that the
last read of the MAVLink device had no room for. -/
structure Receiver where
  buffer : List UInt8
  had_data : MessageType → Bool
  partial_buffer : List UInt8

inductive ReadError
  | serial
  | EMSGSIZE
deriving DecidableEq

/-- What a read does: what it returns, the packet it takes out of the buffer, if any, and what is
left. -/
structure ReadOutcome where
  ret : Except ReadError (List UInt8)
  packet : Option (List UInt8)
  receiver : Receiver
  line : List UInt8

def ReadOutcome.mavlinkBytes (o : ReadOutcome) (type : MessageType) : List UInt8 :=
  match type, o.ret with
  | .Mavlink, .ok bytes => bytes
  | _, _ => []

def ReadOutcome.rtpsPackets (o : ReadOutcome) (type : MessageType) : List (List UInt8) :=
  match type, o.ret with
  | .Rtps, .ok bytes => if o.packet.isSome then [bytes] else []
  | _, _ => []

/-- A buffer that is filled beyond the threshold is discarded. -/
def discard (buffer : List UInt8) : List UInt8 :=
  if buffer.length > BUFFER_THRESHOLD then [] else buffer

/-- `ReadBuffer::read`, for a serial read that returns `n` bytes, if there are as many on the line
and there is room for them. -/
def fill (buffer line : List UInt8) (n : ℕ) : List UInt8 :=
  discard buffer ++ line.take (n ⊓ (BUFFER_SIZE - (discard buffer).length))

def rest (buffer line : List UInt8) (n : ℕ) : List UInt8 :=
  line.drop (n ⊓ (BUFFER_SIZE - (discard buffer).length))

namespace Receiver

variable (s : Receiver) (line : List UInt8)

/-- The part of `Mavlink2Dev::read` after the serial read.  What the caller has no room for is
kept. -/
def mavlinkTake (buflen : ℕ) : ReadOutcome :=
  match findPacket .Mavlink s.buffer with
  | none => ⟨.ok [], none, s, line⟩
  | some (i, payload_len) =>
    let payload := copy s.buffer (i + Sp2HeaderSize) payload_len
    let buffer := remove s.buffer i (payload_len + Sp2HeaderSize)
    if payload_len > buflen then
      let partial_buffer := copy s.buffer (i + Sp2HeaderSize + buflen) (payload_len - buflen)
      ⟨.ok (copy s.buffer (i + Sp2HeaderSize) buflen), some payload,
        { s with buffer := buffer, partial_buffer := partial_buffer }, line⟩
    else ⟨.ok payload, some payload, { s with buffer := buffer }, line⟩

/-- The part of `RtpsDev::read` after the serial read. -/
def rtpsTake (buflen : ℕ) : ReadOutcome :=
  match findPacket .Rtps s.buffer with
  | none => ⟨.ok [], none, s, line⟩
  | some (i, payload_len) =>
    let packet_len := payload_len + Sp2HeaderSize
    if packet_len > buflen then ⟨.error .EMSGSIZE, none, s, line⟩
    else
      let payload := copy s.buffer (i + Sp2HeaderSize) payload_len
      ⟨.ok payload, some payload, { s with buffer := remove s.buffer i packet_len }, line⟩

/-- The serial read, which fails or returns so many bytes, and then a packet. -/
def readPacket (type : MessageType) (chunk : Option ℕ) (buflen : ℕ) : ReadOutcome :=
  match chunk with
  | none => ⟨.error .serial, none, { s with buffer := discard s.buffer }, line⟩
  | some n =>
    let s' := { s with buffer := fill s.buffer line n }
    match type with
    | .Mavlink => s'.mavlinkTake (rest s.buffer line n) buflen
    | .Rtps => s'.rtpsTake (rest s.buffer line n) buflen

/-- `Mavlink2Dev::read` and `RtpsDev::read`.  The MAVLink device first returns what its caller had
no room for. -/
def read (type : MessageType) (chunk : Option ℕ) (buflen : ℕ) : ReadOutcome :=
  if type = .Mavlink ∧ s.partial_buffer ≠ [] then
    ⟨.ok (s.partial_buffer.take buflen), none,
      { s with partial_buffer := s.partial_buffer.drop buflen }, line⟩
  else if s.had_data type then s.readPacket line type chunk buflen
  else ⟨.ok [], none, s, line⟩

end Receiver

/-! ### The system -/

/-- A packet: the bytes of one call of `write`. -/
structure Packet where
  type : MessageType
  payload : List UInt8
deriving DecidableEq

def Packet.frame (p : Packet) : List UInt8 := header p.type p.payload.length ++ p.payload

/-- A line with its ends.  Besides them there are the packets that have been sent, those of them
that no device has taken yet, and what the devices have returned. -/
structure System where
  sender : Sender
  line : List UInt8
  receiver : Receiver
  sent : List Packet
  unread : List Packet
  mavlink_bytes : List UInt8
  rtps_packets : List (List UInt8)

/-- A call of `write` with so much room in the transmit buffer, of `poll` with its answer, or of
`read`, with the serial read and the size of the caller's buffer. -/
inductive Event
  | write (type : MessageType) (buffer : List UInt8) (buf_free : ℕ)
  | poll (type : MessageType) (had_data : Bool)
  | read (type : MessageType) (chunk : Option ℕ) (buflen : ℕ)

namespace System

def powerOn : System where
  sender := ⟨fun _ => ⟨.Idle, 0⟩, none⟩
  line := []
  receiver := ⟨[], fun _ => false, []⟩
  sent := []
  unread := []
  mavlink_bytes := []
  rtps_packets := []

variable (s : System)

/-- The packets that a call of `write` sends: one, or none if it is not a message or there is no
room. -/
def written (type : MessageType) (buffer : List UInt8) (buf_free : ℕ) : List Packet :=
  if (s.sender.write type buffer buf_free).2.1 = [] then [] else [⟨type, buffer⟩]

def step : Event → System
  | .write type buffer buf_free =>
    if s.sender.blocked type then s
    else
      let (_, out, sender) := s.sender.write type buffer buf_free
      let packets := s.written type buffer buf_free
      { s with
        sender := sender
        line := s.line ++ out
        sent := s.sent ++ packets
        unread := s.unread ++ packets }
  | .poll type had_data =>
    { s with receiver := { s.receiver with
        had_data := Function.update s.receiver.had_data type had_data } }
  | .read type chunk buflen =>
    let o := s.receiver.read s.line type chunk buflen
    { s with
      line := o.line
      receiver := o.receiver
      unread := if o.packet.isSome then s.unread.eraseP (·.type = type) else s.unread
      mavlink_bytes := s.mavlink_bytes ++ o.mavlinkBytes type
      rtps_packets := s.rtps_packets ++ o.rtpsPackets type }

end System

end ProtocolSplitter
