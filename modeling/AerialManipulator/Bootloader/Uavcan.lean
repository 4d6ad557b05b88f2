/-
UAVCAN transfers of the CAN bootloader (`canbootloader/protocol/uavcan.c`).

A transfer goes out in CAN frames of at most eight bytes: seven of the payload and a tail byte,
which says if the frame is the first and if it is the last, a bit that toggles from frame to frame,
and the id of the transfer.  The payload of a transfer of more than one frame starts with a CRC.

* `uavcanTxDsdl` — the frames of a transfer;
* `RxLoop` — the loop of `uavcan_rx_dsdl` between two looks at the fifo: a frame that passes the
  filter is copied, and the loop ends with the last frame of a transfer or at the timeout.

The tail byte is the structure of its fields, and a mask for it the set of the fields that count.
-/
import Mathlib.Algebra.Order.Ring.Nat
import AerialManipulator.Lib.Trace

namespace Bootloader

/-! ### CAN ids and tail bytes -/

/-- `BITFEILD_MASK` -/
def bitfieldMask (lsb_pos length : ℕ) : UInt32 := UInt32.ofNat ((2 ^ length - 1) * 2 ^ lsb_pos)

def MaskUavCanMessageTypeID : UInt32 := bitfieldMask 8 16
def MaskUavCanMessageServiceNotMessage : UInt32 := bitfieldMask 7 1
def MaskUavCanMessageSourceNodeID : UInt32 := bitfieldMask 0 7
def MaskUavCanServicePriority : UInt32 := bitfieldMask 24 5
def MaskUavCanServiceTypeID : UInt32 := bitfieldMask 16 8
def MaskUavCanServiceRequestNotResponse : UInt32 := bitfieldMask 15 1
def MaskUavCanServiceDestinationNodeID : UInt32 := bitfieldMask 8 7

def setField (id mask value : UInt32) : UInt32 := (id &&& ~~~mask) ||| (value &&& mask)

structure Tail where
  transfer_id : Fin 32
  toggle : Bool
  eot : Bool
  sot : Bool
deriving DecidableEq

def Tail.toByte (t : Tail) : UInt8 :=
  UInt8.ofNat (t.transfer_id + 32 * t.toggle.toNat + 64 * t.eot.toNat + 128 * t.sot.toNat)

def Tail.ofByte (b : UInt8) : Tail where
  transfer_id := ⟨b.toNat % 32, Nat.mod_lt _ (by decide)⟩
  toggle := b.toNat.testBit 5
  eot := b.toNat.testBit 6
  sot := b.toNat.testBit 7

/-- The fields of a tail byte that are compared. -/
structure TailMask where
  transfer_id : Bool
  toggle : Bool
  eot : Bool
  sot : Bool
deriving DecidableEq

/-- `(a ^ b) & mask` is not zero. -/
def TailMask.differ (m : TailMask) (a b : Tail) : Bool :=
  m.transfer_id && a.transfer_id != b.transfer_id || m.toggle && a.toggle != b.toggle ||
    m.eot && a.eot != b.eot || m.sot && a.sot != b.sot

def ANY_NODE_ID : UInt32 := 0

structure Protocol where
  id : UInt32
  tail : Tail
deriving DecidableEq

def Protocol.sourceNodeId (p : Protocol) : UInt32 := p.id &&& MaskUavCanMessageSourceNodeID

def Protocol.serviceNotMessage (p : Protocol) : Bool :=
  p.id &&& MaskUavCanMessageServiceNotMessage ≠ 0

structure Masks where
  id : UInt32
  tail : TailMask
deriving DecidableEq

/-! ### The data types -/

inductive Dsdl
  | MsgAllocation
  | MsgNodeStatus
  | ReqGetNodeInfo
  | RspGetNodeInfo
  | ReqBeginFirmwareUpdate
  | RspBeginFirmwareUpdate
  | ReqGetInfo
  | RspGetInfo
  | ReqRead
  | RspRead
  | MsgLogMessage
deriving DecidableEq

/-- An entry of `dsdl_table`: the id without its nodes and its priority, the start value of the
CRC, and the first and the last frame bit of the first tail byte in each direction. -/
structure DsdlEntry where
  prototype : UInt32
  signature_crc16 : UInt16
  intail : Bool × Bool
  outtail : Bool × Bool

def SingleFrameTailInit : Bool × Bool := (true, true)
def MultiFrameTailInit : Bool × Bool := (true, false)
def NA : Bool × Bool := (false, false)

def message (dtid : ℕ) : UInt32 := UInt32.ofNat (dtid * 2 ^ 8)

def service (dtid : ℕ) (request_not_response : Bool) : UInt32 :=
  UInt32.ofNat (dtid * 2 ^ 16 + request_not_response.toNat * 2 ^ 15 + 2 ^ 7)

def dsdlTable : Dsdl → DsdlEntry
  | .MsgAllocation => ⟨message 1, 0xf258, MultiFrameTailInit, SingleFrameTailInit⟩
  | .MsgNodeStatus => ⟨message 341, 0xbe5f, SingleFrameTailInit, SingleFrameTailInit⟩
  | .ReqGetNodeInfo => ⟨service 1 true, 0xd9a7, SingleFrameTailInit, MultiFrameTailInit⟩
  | .RspGetNodeInfo => ⟨service 1 false, 0xd9a7, SingleFrameTailInit, MultiFrameTailInit⟩
  | .ReqBeginFirmwareUpdate => ⟨service 40 true, 0x729e, MultiFrameTailInit, SingleFrameTailInit⟩
  | .RspBeginFirmwareUpdate => ⟨service 40 false, 0x729e, MultiFrameTailInit, SingleFrameTailInit⟩
  | .ReqGetInfo => ⟨service 45 true, 0x14b9, SingleFrameTailInit, MultiFrameTailInit⟩
  | .RspGetInfo => ⟨service 45 false, 0x14b9, SingleFrameTailInit, MultiFrameTailInit⟩
  | .ReqRead => ⟨service 48 true, 0x2f12, SingleFrameTailInit, MultiFrameTailInit⟩
  | .RspRead => ⟨service 48 false, 0x2f12, SingleFrameTailInit, MultiFrameTailInit⟩
  | .MsgLogMessage => ⟨message 16383, 0x4570, NA, SingleFrameTailInit⟩

structure Node where
  g_uavcan_priority : UInt32
  g_this_node_id : UInt32

/-- `load_dsdl_protocol`.  Of the tail byte the transfer id is kept. -/
def loadDsdlProtocol (node : Node) (dsdl : Dsdl) (rx_not_tx : Bool) (protocol : Protocol)
    (that_node_id : UInt32) : Protocol :=
  let pdsdl := dsdlTable dsdl
  let id := setField pdsdl.prototype MaskUavCanServicePriority (node.g_uavcan_priority <<< 24)
  let is_service := pdsdl.prototype &&& MaskUavCanMessageServiceNotMessage ≠ 0
  if rx_not_tx then
    { id := if is_service then
        setField (setField id MaskUavCanServiceDestinationNodeID (node.g_this_node_id <<< 8))
          MaskUavCanMessageSourceNodeID that_node_id
      else id
      tail := ⟨protocol.tail.transfer_id, false, pdsdl.intail.2, pdsdl.intail.1⟩ }
  else
    let id := setField id MaskUavCanMessageSourceNodeID node.g_this_node_id
    { id := if is_service then
        setField id MaskUavCanServiceDestinationNodeID (that_node_id <<< 8)
      else id
      tail := ⟨protocol.tail.transfer_id, false, pdsdl.outtail.2, pdsdl.outtail.1⟩ }

/-! ### The CRC -/

/-- One round of the loop of `crc16_add`. -/
def crc16Round (crc : UInt16) : UInt16 :=
  if crc &&& 0x8000 ≠ 0 then (crc <<< 1) ^^^ 0x1021 else crc <<< 1

def crc16Add (crc : UInt16) (value : UInt8) : UInt16 :=
  crc16Round^[8] (crc ^^^ (value.toUInt16 <<< 8))

def CRC16_OUTPUT_XOR : UInt16 := 0x0000

def crc16Signature (initial : UInt16) (bytes : List UInt8) : UInt16 :=
  bytes.foldl crc16Add initial ^^^ CRC16_OUTPUT_XOR

def makeUint16 (d0 d1 : UInt8) : UInt16 := (d1.toUInt16 <<< 8) ||| d0.toUInt16

/-! ### Sending -/

inductive UavcanErrorT
  | UavcanOk
  | UavcanBootTimeout
  | UavcanError
deriving DecidableEq

/-- A frame as it is given to the CAN transmitter, the tail byte included. -/
structure TxFrame where
  message_id : UInt32
  data : List UInt8
deriving DecidableEq

def MaxUserPayloadLength : ℕ := 7

/-- The loop of `uavcan_tx_dsdl` over what is left of the transfer; `payload` is what is collected
for the next frame, and `can_tx` the result for each frame from here on. -/
def txLoop (can_tx : ℕ → UavcanErrorT) :
    List UInt8 → ℕ → Protocol → List UInt8 → List TxFrame × UavcanErrorT × Protocol
  | [], _, protocol, _ => ([], .UavcanOk, protocol)
  | b :: transfer, sent, protocol, payload =>
    let payload := payload ++ [b]
    let protocol := { protocol with tail := { protocol.tail with eot := transfer.isEmpty } }
    if payload.length = MaxUserPayloadLength ∨ protocol.tail.eot then
      let frame : TxFrame := ⟨protocol.id, payload ++ [protocol.tail.toByte]⟩
      if can_tx sent ≠ .UavcanOk then ([frame], can_tx sent, protocol)
      else
        let tail := { protocol.tail with toggle := !protocol.tail.toggle, sot := false }
        let (frames, rv, protocol) := txLoop can_tx transfer (sent + 1) { protocol with tail } []
        (frame :: frames, rv, protocol)
    else txLoop can_tx transfer sent protocol payload

def uavcanTxDsdl (node : Node) (dsdl : Dsdl) (protocol : Protocol) (transfer : List UInt8)
    (can_tx : ℕ → UavcanErrorT) : List TxFrame × UavcanErrorT × Protocol :=
  let protocol := loadDsdlProtocol node dsdl false protocol protocol.sourceNodeId
  let crc := crc16Signature (dsdlTable dsdl).signature_crc16 transfer
  let payload := if transfer.length > MaxUserPayloadLength then
      [crc.toUInt8, (crc >>> 8).toUInt8]
    else []
  txLoop can_tx transfer 0 protocol payload

/-! ### Receiving -/

/-- What is in the fifo: the id, the length, and eight bytes, of which so many as the length says
are the frame's.  `outside` is the byte that is taken for the tail if the length is not one of 1 to
8. -/
structure CanFrame where
  message_id : UInt32
  length : ℕ
  message : List UInt8
  outside : UInt8
  message_length : message.length = 8
deriving DecidableEq

def CanFrame.tail (f : CanFrame) : Tail :=
  Tail.ofByte (f.message.getD ((f.length + 2 ^ 32 - 1) % 2 ^ 32) f.outside)

def initialMasks (protocol : Protocol) : Masks where
  id :=
    if protocol.serviceNotMessage then
      let id := MaskUavCanServiceTypeID ||| MaskUavCanServiceRequestNotResponse |||
        MaskUavCanServiceDestinationNodeID ||| MaskUavCanMessageServiceNotMessage
      if protocol.sourceNodeId ≠ ANY_NODE_ID then id ||| MaskUavCanMessageSourceNodeID else id
    else if protocol.sourceNodeId = ANY_NODE_ID then
      MaskUavCanMessageTypeID ||| MaskUavCanMessageServiceNotMessage
    else
      MaskUavCanMessageTypeID ||| MaskUavCanMessageServiceNotMessage |||
        MaskUavCanMessageSourceNodeID
  tail := ⟨false, true, false, true⟩

def Masks.onStartOfTransfer (m : Masks) : Masks where
  id := m.id ||| MaskUavCanMessageSourceNodeID
  tail := { m.tail with transfer_id := true }

/-- The variables of `uavcan_rx_dsdl`; `transfer` is what has been written to the buffer. -/
structure Rx where
  protocol : Protocol
  masks : Masks
  transfer_crc : UInt16
  total_rx : ℕ
  transfer : List UInt8
deriving DecidableEq

/-- What `uavcan_rx_dsdl` returns: the length and the bytes are meant for `UavcanOk`. -/
structure Received where
  status : UavcanErrorT
  bytes : List UInt8
deriving DecidableEq

namespace Rx

variable (s : Rx) (f : CanFrame)

def accepts : Bool :=
  !(f.tail.sot && f.tail.toggle) &&
    (f.message_id ^^^ s.protocol.id) &&& s.masks.id = 0 &&
    !s.masks.tail.differ f.tail s.protocol.tail

/-- The first frame of a transfer: what was received before is discarded, and the source and the id
of the transfer are taken from it. -/
def startOfTransfer : Rx :=
  { protocol :=
      { id := setField s.protocol.id MaskUavCanMessageSourceNodeID f.message_id
        tail := { s.protocol.tail with sot := false, transfer_id := f.tail.transfer_id } }
    masks := s.masks.onStartOfTransfer
    transfer_crc := if f.tail.eot then s.transfer_crc
      else makeUint16 (f.message.getD 0 0) (f.message.getD 1 0)
    total_rx := 0
    transfer := s.transfer }

/-- The state in which a frame that passes the filter is looked at. -/
def atFrame : Rx := if f.tail.sot then s.startOfTransfer f else s

def payloadIndex : ℕ := if f.tail.sot && !f.tail.eot then 2 else 0

/-- The number of bytes of the payload in the frame, a `size_t`. -/
def rxLength : ℕ := (f.length + 2 ^ 32 - 1 + 2 ^ 32 - payloadIndex f) % 2 ^ 32

def restart : Rx :=
  { s with
    protocol := { s.protocol with tail := { s.protocol.tail with sot := true, toggle := false } }
    masks := initialMasks s.protocol }

/-- The bytes of the frame are copied if there is room for them, and the toggle bit changes. -/
def copyFrame (in_out_transfer_length : UInt32) : Rx :=
  let s := if (s.total_rx + rxLength f) % 2 ^ 32 ≤ in_out_transfer_length.toNat then
      { s with
        transfer := s.transfer.take s.total_rx ++
          (f.message.drop (payloadIndex f)).take (rxLength f)
        total_rx := (s.total_rx + rxLength f) % 2 ^ 32 }
    else s
  { s with protocol := { s.protocol with
      tail := { s.protocol.tail with toggle := !s.protocol.tail.toggle } } }

def finish (signature_crc16 : UInt16) : Received :=
  let bytes := s.transfer.take s.total_rx
  { status := if f.tail.sot || s.transfer_crc = crc16Signature signature_crc16 bytes then .UavcanOk
      else .UavcanError
    bytes := bytes }

end Rx

inductive RxLoop
  | running (s : Rx)
  | returned (r : Received)
deriving DecidableEq

/-- A look at the fifo, and if the timer has expired after it. -/
structure Poll where
  frame : Option CanFrame
  expired : Bool

def Rx.again (s : Rx) (expired : Bool) : RxLoop :=
  if expired then .returned ⟨.UavcanError, s.transfer.take s.total_rx⟩ else .running s

def Rx.receive (s : Rx) (signature_crc16 : UInt16) (in_out_transfer_length : UInt32) (f : CanFrame)
    (expired : Bool) : RxLoop :=
  let s := s.atFrame f
  if f.tail.transfer_id > s.protocol.tail.transfer_id ∨
      s.total_rx ≥ in_out_transfer_length.toNat then
    let s := s.restart.copyFrame f in_out_transfer_length
    if f.tail.eot then .returned (s.finish f signature_crc16) else s.again expired
  else if f.tail.transfer_id < s.protocol.tail.transfer_id then s.again expired
  else
    let s := s.copyFrame f in_out_transfer_length
    if f.tail.eot then .returned (s.finish f signature_crc16) else s.again expired

def RxLoop.step (signature_crc16 : UInt16) (in_out_transfer_length : UInt32) :
    RxLoop → Poll → RxLoop
  | .returned r, _ => .returned r
  | .running s, poll =>
    match poll.frame with
    | none => s.again poll.expired
    | some f =>
      if s.accepts f then s.receive signature_crc16 in_out_transfer_length f poll.expired
      else s.again poll.expired

def rxStart (node : Node) (dsdl : Dsdl) (protocol : Protocol) : Rx :=
  let protocol := loadDsdlProtocol node dsdl true protocol protocol.sourceNodeId
  { protocol := protocol
    masks := initialMasks protocol
    transfer_crc := 0
    total_rx := 0
    transfer := [] }

/-- `uavcan_rx_dsdl`, for what the fifo and the timer say. -/
def uavcanRxDsdl (node : Node) (dsdl : Dsdl) (protocol : Protocol)
    (in_out_transfer_length : UInt32) (polls : List Poll) : RxLoop :=
  Trace.run (RxLoop.step (dsdlTable dsdl).signature_crc16 in_out_transfer_length)
    (.running (rxStart node dsdl protocol)) polls

end Bootloader
