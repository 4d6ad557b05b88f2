/-
Streaming of the log over MAVLink.

The logger publishes chunks; behind a chunk that needs an acknowledgement it waits for one.
`MavlinkULog::handleUpdate` copies the chunks, sends them and sends the last one again until it is
acknowledged.  `MavlinkULog::handle_ack` runs in the thread of the receiver; it shares the awaited
sequence and a flag with `handleUpdate`, and tells the logger.

* `System` — the logger, the two topics, the two threads of MAVLink, and the link;
* `step` — one of them does the next thing that another one can see.
-/
import AerialManipulator.Lib.Literals
import AerialManipulator.Lib.Trace

namespace MavlinkULog

/-- `ulog_stream_s`. -/
structure Chunk where
  timestamp : UInt64
  length : UInt8
  first_message_offset : UInt8
  msg_sequence : UInt16
  flags : UInt8
  data : List UInt8
  deriving DecidableEq

def FLAGS_NEED_ACK : UInt8 := 1

/-- The queue of `ulog_stream`. -/
def ORB_QUEUE_LENGTH : ℕ := 16

def ACK_TIMEOUT : UInt64 := 50

def ACK_MAX_TRIES : UInt8 := 50

def Chunk.needAck (chunk : Chunk) : Bool := chunk.flags &&& FLAGS_NEED_ACK ≠ 0

/-- `mavlink_logging_data_acked_t`, or `mavlink_logging_data_t` if it is not `acked`. -/
structure Packet where
  acked : Bool
  sequence : UInt16
  length : UInt8
  first_message_offset : UInt8
  target_system : UInt8
  target_component : UInt8
  data : List UInt8
  deriving DecidableEq

/-- What an instance is made with; `next_check t` is `t + _rate_calculation_delta_t * 1.e6f`. -/
structure Config where
  target_system : UInt8
  target_component : UInt8
  max_num_messages : ℕ
  next_check : UInt64 → UInt64

def packetOf (c : Config) (acked : Bool) (chunk : Chunk) : Packet where
  acked := acked
  sequence := chunk.msg_sequence
  length := chunk.length
  first_message_offset := chunk.first_message_offset
  target_system := c.target_system
  target_component := c.target_component
  data := chunk.data

/-! ### The parties -/

/-- `LogWriterMavlink`; `waiting` is when `publishMessage` began to wait. -/
structure Logger where
  ulog_stream_data : Chunk
  is_started : Bool
  waiting : Option UInt64

/-- Where `handleUpdate` is. -/
inductive Pc
  | idle
  | resend
  | loop
  /-- in front of the lock -/
  | arm
  | send
  | rate
  /-- `-ETIMEDOUT` was returned -/
  | failed
  | stopped
  deriving DecidableEq

/-- `MavlinkULog`, after the first acknowledgement.  `next` is the generation of the subscription to
`ulog_stream`, if the topic was there, and `ulog_data` the message that was copied last. -/
structure ULog where
  pc : Pc
  next : Option ℕ
  ulog_data : Chunk
  wait_for_ack_sequence : UInt16
  sent_tries : UInt8
  ack_received : Bool
  last_sent_time : UInt64
  current_num_msgs : ℕ
  next_rate_check : UInt64

/-- A packet that was sent, whether it was sent `again`, and what was waited for then. -/
structure Transmission where
  packet : Packet
  again : Bool
  wait_for_ack_sequence : UInt16

/-- `published` is what was published on `ulog_stream`, `gone` the chunks after which the logger
went on, `publishing` the sequence of the acknowledgement for which `handle_ack` holds the lock.
The link keeps what was sent on it: it may come in at any time, more than once, or not at all. -/
structure System where
  logger : Logger
  published : List Chunk
  gone : List Chunk
  ulog : ULog
  publishing : Option UInt16
  /-- `ulog_stream_ack` -/
  ulog_stream_ack : UInt16
  updated : Bool
  sent : List Transmission
  received : List Packet
  acks : List UInt16

/-! ### The logger -/

/-- The buffer `ulog_stream_data` as it is published. -/
def Logger.fill (l : Logger) (need_reliable : Bool) (now : UInt64)
    (length first_message_offset : UInt8) (data : List UInt8) : Logger where
  ulog_stream_data := {
    timestamp := now
    length := length
    first_message_offset := first_message_offset
    msg_sequence := l.ulog_stream_data.msg_sequence
    flags := if need_reliable then FLAGS_NEED_ACK else 0
    data := data }
  is_started := l.is_started
  waiting := l.waiting

/-- The end of `publishMessage`. -/
def Logger.goOn (l : Logger) : Logger where
  ulog_stream_data := { l.ulog_stream_data with
    msg_sequence := l.ulog_stream_data.msg_sequence + 1
    length := 0
    first_message_offset := 255 }
  is_started := l.is_started
  waiting := none

def Logger.stopLog (l : Logger) : Logger where
  ulog_stream_data := { l.ulog_stream_data with length := 0 }
  is_started := false
  waiting := none

/-- `publishMessage`, until it waits. -/
def System.publish (s : System) (need_reliable : Bool) (now started : UInt64)
    (length first_message_offset : UInt8) (data : List UInt8) : System :=
  let l := s.logger.fill need_reliable now length first_message_offset data
  if need_reliable then
    { s with
      logger := { l with waiting := some started }
      published := s.published ++ [l.ulog_stream_data] }
  else
    { s with
      logger := l.goOn
      published := s.published ++ [l.ulog_stream_data]
      gone := s.gone ++ [l.ulog_stream_data] }

/-- `px4_poll` says that there is an acknowledgement. -/
def System.poll (s : System) (started now : UInt64) : System :=
  if s.ulog_stream_ack = s.logger.ulog_stream_data.msg_sequence then
    { s with
      logger := s.logger.goOn
      gone := s.gone ++ [s.logger.ulog_stream_data]
      updated := false }
  else if (now - started) / 1000 < ACK_TIMEOUT * ACK_MAX_TRIES.toUInt64
    then { s with updated := false }
  else { s with logger := s.logger.stopLog, updated := false }

/-! ### `handleUpdate` -/

/-- `Subscription::update`: the message, and the generation behind it. -/
def update (published : List Chunk) (next : Option ℕ) : Option (Chunk × ℕ) :=
  -- who subscribes later can still read the message before
  let generation := next.getD (published.length - 1)
  if generation = published.length then none
  else
    let generation := max generation (published.length - ORB_QUEUE_LENGTH)
    published[generation]?.map fun chunk => (chunk, generation + 1)

def ULog.copied (u : ULog) (now : UInt64) (chunk : Chunk) (next : ℕ) : ULog :=
  let u := { u with ulog_data := chunk, next := some next }
  if 0 < chunk.timestamp then
    if chunk.needAck then { u with sent_tries := 1, last_sent_time := now, pc := .arm }
    else { u with pc := .send }
  else { u with current_num_msgs := u.current_num_msgs + 1 }

def ULog.start (u : ULog) (t t' : UInt64) : ULog :=
  if u.last_sent_time ≠ 0 then
    if u.ack_received then { u with last_sent_time := 0, pc := .loop }
    else if ACK_TIMEOUT * 1000 < t - u.last_sent_time then
      if ACK_MAX_TRIES < u.sent_tries + 1 then { u with sent_tries := u.sent_tries + 1, pc :=
        .failed }
      else { u with sent_tries := u.sent_tries + 1, last_sent_time := t', pc := .resend }
    else u
  else { u with pc := .loop }

def System.transmit (c : Config) (s : System) (acked again : Bool) : List Transmission :=
  s.sent ++ [⟨packetOf c acked s.ulog.ulog_data, again, s.ulog.wait_for_ack_sequence⟩]

/-- The next part of `handleUpdate`, at the times that it reads. -/
def handleUpdate (c : Config) (s : System) (t t' : UInt64) : System :=
  match s.ulog.pc with
  | .idle => { s with ulog := s.ulog.start t t' }
  | .resend => { s with sent := s.transmit c true true, ulog := { s.ulog with pc := .idle } }
  | .loop =>
    if s.ulog.current_num_msgs < c.max_num_messages then
      match update s.published s.ulog.next with
      | some (chunk, next) => { s with ulog := s.ulog.copied t chunk next }
      | none => { s with ulog := { s.ulog with pc := .rate } }
    else { s with ulog := { s.ulog with pc := .rate } }
  | .arm =>
    if s.publishing = none then
      { s with ulog := { s.ulog with
          wait_for_ack_sequence := s.ulog.ulog_data.msg_sequence
          ack_received := false
          pc := .send } }
    else s
  | .send =>
    { s with
      sent := s.transmit c s.ulog.ulog_data.needAck false
      ulog := { s.ulog with current_num_msgs := s.ulog.current_num_msgs + 1, pc := .loop } }
  | .rate =>
    if s.ulog.next_rate_check < t then
      { s with ulog := { s.ulog with
          current_num_msgs := 0
          next_rate_check := c.next_check t
          pc := .idle } }
    else { s with ulog := { s.ulog with pc := .idle } }
  | .failed => s
  | .stopped => s

/-! ### The steps -/

inductive Event
  /-- the logger publishes what is in its buffer -/
  | publish (need_reliable : Bool) (now started : UInt64) (length first_message_offset : UInt8)
      (data : List UInt8)
  | poll (now : UInt64)
  /-- the logger does not wait any longer, or the log is stopped -/
  | stopLog
  | handleUpdate (t t' : UInt64)
  /-- after an error, or when a stop is requested -/
  | stop
  /-- a packet comes in at the ground station -/
  | deliver (packet : Packet)
  /-- the ground station acknowledges a packet -/
  | acknowledge (packet : Packet)
  /-- an acknowledgement comes in -/
  | handle_ack (sequence : UInt16)
  /-- the end of `handle_ack` -/
  | publish_ack

def step (c : Config) (s : System) : Event → System
  | .publish need_reliable now started length first_message_offset data =>
    if s.logger.is_started ∧ s.logger.waiting = none then
      s.publish need_reliable now started length first_message_offset data
    else s
  | .poll now =>
    match s.logger.waiting with
    | some started => if s.updated then s.poll started now else s
    | none => s
  | .stopLog => { s with logger := s.logger.stopLog }
  | .handleUpdate t t' => handleUpdate c s t t'
  | .stop =>
    if s.publishing = none ∧ (s.ulog.pc = .idle ∨ s.ulog.pc = .failed) then
      { s with ulog := { s.ulog with pc := .stopped } }
    else s
  | .deliver packet =>
    if packet ∈ s.sent.map Transmission.packet then { s with received := s.received ++ [packet] }
      else s
  | .acknowledge packet =>
    if packet ∈ s.received then { s with acks := s.acks ++ [packet.sequence] } else s
  | .handle_ack sequence =>
    if sequence ∈ s.acks ∧ s.publishing = none ∧ s.ulog.pc ≠ .stopped ∧
        s.ulog.wait_for_ack_sequence = sequence then
      { s with ulog := { s.ulog with ack_received := true }, publishing := some sequence }
    else s
  | .publish_ack =>
    match s.publishing with
    | some sequence => { s with ulog_stream_ack := sequence, updated := true, publishing := none }
    | none => s

/-- The beginning of a session: the logger has started the log, and the first acknowledgement has
come. -/
structure Initial (s : System) : Prop where
  sequence : s.logger.ulog_stream_data.msg_sequence = 0
  is_started : s.logger.is_started = true
  waiting : s.logger.waiting = none
  published : s.published = []
  gone : s.gone = []
  pc : s.ulog.pc = .idle
  next : s.ulog.next = none ∨ s.ulog.next = some 0
  last_sent_time : s.ulog.last_sent_time = 0
  publishing : s.publishing = none
  updated : s.updated = false
  sent : s.sent = []
  received : s.received = []
  acks : s.acks = []

end MavlinkULog
