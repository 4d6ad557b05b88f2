/-
Separation of the two protocols.

The packets on the line are read in order by each device if the search for a header finds the
first packet of the device.  It does not if the bytes before that packet, which are packets of the
other device, contain something that looks like a header: the magic, the bit of the type and the
checksum are all that is looked at, and a packet of the other type is not skipped as a whole.

* **`separated`** — in every run in which no read meets such bytes, what each device has returned
  is what was sent, in order, and what has not been read is still there, unchanged.
-/
import Mathlib.Tactic.NormNum
import AerialManipulator.Splitter.ProtocolSplitter

namespace ProtocolSplitter

def wire (ps : List Packet) : List UInt8 := ps.flatMap Packet.frame

def payloads (type : MessageType) (ps : List Packet) : List (List UInt8) :=
  (ps.filter (·.type = type)).map Packet.payload

namespace System

variable (s : System)

/-- The bytes that are not read are the packets that are not; what the MAVLink device has returned
is what was sent to it, up to those, and each packet that the RTPS device has returned is one that
was sent to it. -/
structure Separated : Prop where
  line : s.receiver.buffer ++ s.line = wire s.unread
  mavlink : s.mavlink_bytes ++ s.receiver.partial_buffer ++ (payloads .Mavlink s.unread).flatten =
    (payloads .Mavlink s.sent).flatten
  rtps : s.rtps_packets ++ payloads .Rtps s.unread = payloads .Rtps s.sent

/-- The read searches the buffer. -/
def searches (type : MessageType) : Prop :=
  ¬ (type = .Mavlink ∧ s.receiver.partial_buffer ≠ []) ∧ s.receiver.had_data type = true

/-- Where the first packet of a type is, or the end of the line. -/
def start (type : MessageType) : ℕ := (wire (s.unread.takeWhile (·.type ≠ type))).length

/-- A read that has a packet of its type in the buffer, and room for it, returns it. -/
def Delivers : Event → Prop
  | .read type (some n) buflen => s.searches type →
    ∀ p, s.unread.find? (·.type = type) = some p → p.payload ≠ [] →
      s.start type + p.frame.length ≤ (fill s.receiver.buffer s.line n).length →
      (type = .Rtps → p.frame.length ≤ buflen) →
      (s.receiver.read s.line type (some n) buflen).ret = .ok (p.payload.take buflen) ∧
        (s.receiver.read s.line type (some n) buflen).packet = some p.payload
  | _ => True

/-- The header has room for the length of a packet, and no read finds the buffer filled beyond the
threshold. -/
def Calm : Event → Prop
  | .write _ buffer _ => buffer.length < 2 ^ 15
  | .read _ _ _ => s.receiver.buffer.length ≤ BUFFER_THRESHOLD
  | .poll _ _ => True

/-- Nothing before the first packet of the type that is read looks like a header of it. -/
def NoLookalike : Event → Prop
  | .read type (some n) _ => s.searches type →
    ∀ i < s.start type, i + Sp2HeaderSize < (fill s.receiver.buffer s.line n).length →
      isHeader type (fill s.receiver.buffer s.line n) i = false
  | _ => True

instance (type : MessageType) : Decidable (s.searches type) := inferInstanceAs (Decidable (_ ∧ _))

instance (e : Event) : Decidable (s.Calm e) :=
  match e with
  | .write _ buffer _ => inferInstanceAs (Decidable (buffer.length < 2 ^ 15))
  | .read _ _ _ => inferInstanceAs (Decidable (s.receiver.buffer.length ≤ BUFFER_THRESHOLD))
  | .poll _ _ => isTrue trivial

instance (e : Event) : Decidable (s.NoLookalike e) :=
  match e with
  | .read type (some n) _ => inferInstanceAs (Decidable (s.searches type → ∀ i < s.start type,
      i + Sp2HeaderSize < (fill s.receiver.buffer s.line n).length →
        isHeader type (fill s.receiver.buffer s.line n) i = false))
  | .read _ none _ | .write _ _ _ | .poll _ _ => isTrue trivial

end System

/-! ### Headers -/

theorem header_length (type : MessageType) (len : ℕ) : (header type len).length = 4 := rfl

theorem frame_length (p : Packet) : p.frame.length = p.payload.length + Sp2HeaderSize := by
  rw [Packet.frame, List.length_append, header_length, Nat.add_comm]
  rfl

theorem len_h_toNat (type : MessageType) (len : ℕ) :
    (UInt8.ofNat (len / 256 % 128 + 128 * type.bit)).toNat = len / 256 % 128 + 128 * type.bit := by
  apply UInt8.toNat_ofNat_of_lt'
  have hlt := Nat.mod_lt (len / 256) (by decide : 0 < 128)
  cases type with
  | Mavlink =>
    rw [MessageType.bit, UInt8.size]
    omega
  | Rtps =>
    rw [MessageType.bit, UInt8.size]
    omega

theorem isHeader_header (type : MessageType) (len : ℕ) (tail : List UInt8) :
    isHeader type (header type len ++ tail) 0 = true := by
  have hbit : (len / 256 % 128 + 128 * type.bit) / 128 = type.bit := by
    have hlt := Nat.mod_lt (len / 256) (by decide : 0 < 128)
    omega
  refine decide_eq_true ⟨rfl, ?_, rfl⟩
  exact (congrArg (· / 128) (len_h_toNat type len)).trans hbit

theorem payloadLen_header {type : MessageType} {len : ℕ} (hlen : len < 2 ^ 15)
    (tail : List UInt8) : payloadLen (header type len ++ tail) 0 = len := by
  have hlow : (UInt8.ofNat (len % 256)).toNat = len % 256 :=
    UInt8.toNat_ofNat_of_lt' (Nat.mod_lt len (by decide))
  have hbytes : payloadLen (header type len ++ tail) 0 =
      (UInt8.ofNat (len / 256 % 128 + 128 * type.bit)).toNat % 128 * 256 +
        (UInt8.ofNat (len % 256)).toNat := rfl
  rw [hbytes, len_h_toNat, hlow]
  omega

/-- The bytes at a position of a buffer are those at the start of what comes from there on. -/
theorem getD_drop (buffer : List UInt8) (i j : ℕ) :
    buffer.getD (i + j) 0 = (buffer.drop i).getD j 0 := by
  rw [List.getD_eq_getElem?_getD, List.getD_eq_getElem?_getD, List.getElem?_drop]

theorem isHeader_drop (type : MessageType) (buffer : List UInt8) (i : ℕ) :
    isHeader type buffer i = isHeader type (buffer.drop i) 0 := by
  unfold isHeader
  rw [getD_drop buffer i 1, getD_drop buffer i 2, getD_drop buffer i 3]
  have hzero : buffer.getD i 0 = (buffer.drop i).getD 0 0 := getD_drop buffer i 0
  rw [hzero]

theorem payloadLen_drop (buffer : List UInt8) (i : ℕ) :
    payloadLen buffer i = payloadLen (buffer.drop i) 0 := by
  unfold payloadLen
  rw [getD_drop buffer i 1, getD_drop buffer i 2]

/-! ### The search -/

theorem searchLoop_eq {type : MessageType} {buffer : List UInt8} (n : ℕ) : ∀ {i k : ℕ}, i ≤ k →
    k ≤ i + n → (∀ j < k, i ≤ j → isHeader type buffer j = false) →
    (k < i + n → isHeader type buffer k = true) → searchLoop type buffer n i = k := by
  induction n with
  | zero => exact fun hle hk _ _ => Nat.le_antisymm hle hk
  | succ n ih =>
    intro i k hle hk hbefore hat
    unfold searchLoop
    rcases Nat.eq_or_lt_of_le hle with rfl | hlt
    · rw [if_pos (hat (by omega))]
    · rw [if_neg (by rw [hbefore i hlt le_rfl]; exact Bool.false_ne_true)]
      exact ih hlt (by omega) (fun j hj hij => hbefore j hj (by omega)) fun hlt' => hat (by omega)

/-- The first header is found where the first packet is, if nothing before it looks like one. -/
theorem search_eq {type : MessageType} {buffer : List UInt8} {start : ℕ}
    (hclean : ∀ i < start, i + Sp2HeaderSize < buffer.length → isHeader type buffer i = false)
    (hat : start + Sp2HeaderSize < buffer.length → isHeader type buffer start = true) :
    search type buffer = start ⊓ (buffer.length - Sp2HeaderSize) := by
  refine searchLoop_eq _ (Nat.zero_le _) (by omega) (fun j hj _ => hclean j (by omega) (by omega))
    fun hlt => ?_
  have hstart : start ⊓ (buffer.length - Sp2HeaderSize) = start := by omega
  rw [hstart]
  exact hat (by omega)

theorem findPacket_none {type : MessageType} {buffer : List UInt8} {start : ℕ}
    (hclean : ∀ i < start, i + Sp2HeaderSize < buffer.length → isHeader type buffer i = false)
    (hend : buffer.length ≤ start + Sp2HeaderSize) : findPacket type buffer = none := by
  unfold findPacket
  by_cases hsize : buffer.length < Sp2HeaderSize
  · rw [if_pos hsize]
  · rw [if_neg hsize]
    have hsearch := search_eq hclean fun hlt => absurd hlt (not_lt.mpr hend)
    exact if_pos (by rw [hsearch]; omega)

theorem findPacket_start {type : MessageType} {buffer : List UInt8} {start len : ℕ}
    (hclean : ∀ i < start, i + Sp2HeaderSize < buffer.length → isHeader type buffer i = false)
    (hlt : start + Sp2HeaderSize < buffer.length) (hat : isHeader type buffer start = true)
    (hlen : payloadLen buffer start = len) :
    findPacket type buffer =
      if start + (len + Sp2HeaderSize) > buffer.length then none else some (start, len) := by
  have hsearch := search_eq hclean fun _ => hat
  have hstart : start ⊓ (buffer.length - Sp2HeaderSize) = start := by omega
  unfold findPacket
  rw [if_neg (by omega)]
  dsimp only
  rw [hsearch, hstart, if_neg (by omega), hlen]

/-! ### Packets in the buffer -/

theorem wire_append (ps qs : List Packet) : wire (ps ++ qs) = wire ps ++ wire qs :=
  List.flatMap_append

theorem payloads_append (type : MessageType) (ps qs : List Packet) :
    payloads type (ps ++ qs) = payloads type ps ++ payloads type qs := by
  rw [payloads, List.filter_append, List.map_append]
  rfl

theorem payloads_others {type : MessageType} {others : List Packet}
    (h : ∀ q ∈ others, q.type ≠ type) : payloads type others = [] := by
  rw [payloads, List.filter_eq_nil_iff.mpr fun q hq => by simpa using h q hq]
  rfl

theorem payloads_cons (type : MessageType) (p : Packet) (ps : List Packet) :
    payloads type (p :: ps) =
      if p.type = type then p.payload :: payloads type ps else payloads type ps := by
  unfold payloads
  rw [List.filter_cons]
  by_cases htype : p.type = type
  · rw [if_pos (decide_eq_true htype), if_pos htype]
    rfl
  · rw [if_neg (by simpa using htype), if_neg htype]

theorem copy_frame (p : Packet) (before after : List UInt8) (n m : ℕ) :
    copy (before ++ (p.frame ++ after)) (before.length + Sp2HeaderSize + n) m =
      ((p.payload ++ after).drop n).take m := by
  have hheader : Sp2HeaderSize + n = (header p.type p.payload.length).length + n := rfl
  rw [copy, Nat.add_assoc, List.drop_length_add_append, Packet.frame, List.append_assoc, hheader,
    List.drop_length_add_append]

theorem copy_payload (p : Packet) (before after : List UInt8) :
    copy (before ++ (p.frame ++ after)) (before.length + Sp2HeaderSize) p.payload.length =
      p.payload :=
  (copy_frame p before after 0 _).trans List.take_left

theorem copy_first (p : Packet) (before after : List UInt8) {n : ℕ} (hn : n < p.payload.length) :
    copy (before ++ (p.frame ++ after)) (before.length + Sp2HeaderSize) n = p.payload.take n :=
  (copy_frame p before after 0 n).trans (List.take_append_of_le_length hn.le)

theorem copy_remaining (p : Packet) (before after : List UInt8) {n : ℕ}
    (hn : n < p.payload.length) :
    copy (before ++ (p.frame ++ after)) (before.length + Sp2HeaderSize + n)
      (p.payload.length - n) = p.payload.drop n := by
  rw [copy_frame, List.drop_append_of_le_length hn.le, ← List.length_drop, List.take_left]

theorem remove_frame (p : Packet) (before after : List UInt8) :
    remove (before ++ (p.frame ++ after)) before.length (p.payload.length + Sp2HeaderSize) =
      before ++ after := by
  rw [remove, List.take_left, ← frame_length, List.drop_length_add_append, List.drop_left]

/-! ### One read -/

/-- What a read that takes no packet does: the bytes move from the line to the buffer, and from
what the caller had no room for to the caller. -/
structure Untouched (s : Receiver) (line : List UInt8) (type : MessageType) (o : ReadOutcome) :
    Prop where
  packet : o.packet = none
  bytes : o.receiver.buffer ++ o.line = s.buffer ++ line
  mavlink : o.mavlinkBytes type ++ o.receiver.partial_buffer = s.partial_buffer

/-- What a read does that takes the first packet of its type. -/
structure Takes (s : Receiver) (type : MessageType) (before : List Packet) (p : Packet)
    (after : List Packet) (o : ReadOutcome) : Prop where
  packet : o.packet = some p.payload
  bytes : o.receiver.buffer ++ o.line = wire (before ++ after)
  mavlink : o.mavlinkBytes type ++ o.receiver.partial_buffer =
    if type = .Mavlink then p.payload else s.partial_buffer
  rtps : o.rtpsPackets type = if type = .Rtps then [p.payload] else []

/-- A packet that is found is returned, as far as there is room, by the MAVLink device. -/
theorem mavlinkTake_found {s : Receiver} {line : List UInt8} {buflen : ℕ} {p : Packet}
    {before after : List UInt8} (hpart : s.partial_buffer = [])
    (hbuffer : s.buffer = before ++ (p.frame ++ after))
    (hfound : findPacket .Mavlink s.buffer = some (before.length, p.payload.length)) :
    s.mavlinkTake line buflen =
      ⟨.ok (p.payload.take buflen), some p.payload,
        { s with buffer := before ++ after, partial_buffer := p.payload.drop buflen }, line⟩ := by
  unfold Receiver.mavlinkTake
  rw [hfound]
  dsimp only
  rw [hbuffer, copy_payload, remove_frame]
  by_cases hroom : p.payload.length > buflen
  · rw [if_pos hroom, copy_first p before after hroom, copy_remaining p before after hroom]
  · rw [if_neg hroom, List.take_of_length_le (not_lt.mp hroom),
      List.drop_eq_nil_of_le (not_lt.mp hroom), ← hpart]

theorem rtpsTake_found {s : Receiver} {line : List UInt8} {buflen : ℕ} {p : Packet}
    {before after : List UInt8} (hbuffer : s.buffer = before ++ (p.frame ++ after))
    (hfound : findPacket .Rtps s.buffer = some (before.length, p.payload.length)) :
    s.rtpsTake line buflen =
      if p.frame.length > buflen then ⟨.error .EMSGSIZE, none, s, line⟩
      else ⟨.ok p.payload, some p.payload, { s with buffer := before ++ after }, line⟩ := by
  unfold Receiver.rtpsTake
  rw [hfound]
  dsimp only
  rw [hbuffer, copy_payload, remove_frame, frame_length]

section Buffer

variable {type : MessageType} {buffer line : List UInt8} {before after : List Packet} {p : Packet}

theorem buffer_header (hline : buffer ++ line = wire (before ++ p :: after)) (htype : p.type = type)
    (hlen : p.payload.length < 2 ^ 15)
    (hlt : (wire before).length + Sp2HeaderSize < buffer.length) :
    isHeader type buffer (wire before).length = true ∧
      payloadLen buffer (wire before).length = p.payload.length := by
  have hdrop : buffer.drop (wire before).length ++ line =
      header type p.payload.length ++ (p.payload ++ wire after) := by
    rw [← List.drop_append_of_le_length (by omega), hline, wire_append, List.drop_left, ← htype,
      ← List.append_assoc]
    rfl
  have hprefix : header type p.payload.length <+: buffer.drop (wire before).length := by
    refine List.prefix_of_prefix_length_le ⟨_, rfl⟩ (hdrop ▸ List.prefix_append _ _) ?_
    rw [header_length, List.length_drop]
    change _ + 4 < _ at hlt
    omega
  obtain ⟨tail, htail⟩ := hprefix
  rw [isHeader_drop, payloadLen_drop, ← htail]
  exact ⟨isHeader_header _ _ _, payloadLen_header hlen _⟩

theorem buffer_complete (hline : buffer ++ line = wire (before ++ p :: after))
    (hle : (wire before).length + p.frame.length ≤ buffer.length) :
    ∃ tail, buffer = wire before ++ (p.frame ++ tail) ∧ tail ++ line = wire after := by
  have hwire : wire (before ++ p :: after) = wire before ++ p.frame ++ wire after := by
    rw [wire_append, List.append_assoc]
    rfl
  rw [hwire] at hline
  have hprefix : wire before ++ p.frame <+: buffer := by
    refine List.prefix_of_prefix_length_le ⟨_, rfl⟩ (hline ▸ List.prefix_append _ _) ?_
    rwa [List.length_append]
  obtain ⟨tail, rfl⟩ := hprefix
  rw [List.append_assoc] at hline
  exact ⟨tail, List.append_assoc .., List.append_cancel_left hline⟩

theorem findPacket_first (hline : buffer ++ line = wire (before ++ p :: after))
    (htype : p.type = type) (hlen : p.payload.length < 2 ^ 15)
    (hclean : ∀ i < (wire before).length, i + Sp2HeaderSize < buffer.length →
      isHeader type buffer i = false) :
    findPacket type buffer =
      if (wire before).length + Sp2HeaderSize < buffer.length ∧
        (wire before).length + p.frame.length ≤ buffer.length then
        some ((wire before).length, p.payload.length)
      else none := by
  by_cases hlt : (wire before).length + Sp2HeaderSize < buffer.length
  · obtain ⟨hat, hpayload⟩ := buffer_header hline htype hlen hlt
    rw [findPacket_start hclean hlt hat hpayload, ← frame_length]
    by_cases hcomplete : (wire before).length + p.frame.length ≤ buffer.length
    · rw [if_neg (not_lt.mpr hcomplete), if_pos ⟨hlt, hcomplete⟩]
    · rw [if_pos (not_le.mp hcomplete), if_neg fun h => hcomplete h.2]
  · rw [findPacket_none hclean (not_lt.mp hlt), if_neg fun h => hlt h.1]

end Buffer

theorem fill_append_rest {buffer : List UInt8} (h : buffer.length ≤ BUFFER_THRESHOLD)
    (line : List UInt8) (n : ℕ) : fill buffer line n ++ rest buffer line n = buffer ++ line := by
  have hdiscard : discard buffer = buffer := if_neg (not_lt.mpr h)
  rw [fill, rest, hdiscard, List.append_assoc, List.take_append_drop]

theorem first_cases (type : MessageType) (ps : List Packet) :
    (∃ before p after, ps = before ++ p :: after ∧ (∀ q ∈ before, q.type ≠ type) ∧ p.type = type) ∨
      ∀ q ∈ ps, q.type ≠ type := by
  by_cases h : ∃ q ∈ ps, q.type = type
  · obtain ⟨q, hq, htype⟩ := h
    obtain ⟨p, before, after, hbefore, hp, heq, -⟩ :=
      List.exists_of_eraseP (p := (·.type = type)) hq (decide_eq_true htype)
    exact .inl ⟨before, p, after, heq, fun q hq => by simpa using hbefore q hq, by simpa using hp⟩
  · exact .inr fun q hq htype => h ⟨q, hq, htype⟩

namespace System

variable {s : System} {type : MessageType} {before after : List Packet} {p : Packet}

theorem takeWhile_others (h : ∀ q ∈ before, q.type ≠ type) (after : List Packet) :
    (before ++ after).takeWhile (·.type ≠ type) = before ++ after.takeWhile (·.type ≠ type) :=
  List.takeWhile_append_of_pos fun q hq => decide_eq_true (h q hq)

theorem start_first (hunread : s.unread = before ++ p :: after)
    (hbefore : ∀ q ∈ before, q.type ≠ type) (htype : p.type = type) :
    s.start type = (wire before).length := by
  rw [start, hunread, takeWhile_others hbefore,
    List.takeWhile_cons_of_neg (by simpa using htype), List.append_nil]

theorem start_none (h : ∀ q ∈ s.unread, q.type ≠ type) : s.start type = (wire s.unread).length := by
  have hall := takeWhile_others h []
  rw [List.append_nil, List.takeWhile_nil, List.append_nil] at hall
  rw [start, hall]

theorem find_first (hbefore : ∀ q ∈ before, q.type ≠ type) (htype : p.type = type) :
    (before ++ p :: after).find? (·.type = type) = some p := by
  rw [List.find?_append, List.find?_eq_none.mpr fun q hq => by simpa using hbefore q hq,
    Option.none_or]
  exact List.find?_cons_of_pos (decide_eq_true htype)

theorem eraseP_first (hbefore : ∀ q ∈ before, q.type ≠ type) (htype : p.type = type) :
    (before ++ p :: after).eraseP (·.type = type) = before ++ after := by
  rw [List.eraseP_append_right _ fun q hq => by simpa using hbefore q hq]
  exact congrArg (before ++ ·) (List.eraseP_cons_of_pos (decide_eq_true htype))

/-- A packet that is found is taken, unless it is one for RTPS and there is no room for it. -/
theorem readPacket_found {n buflen : ℕ} {r : Receiver} {line tail : List UInt8}
    (hcalm : r.buffer.length ≤ BUFFER_THRESHOLD)
    (hpart : ¬ (type = .Mavlink ∧ r.partial_buffer ≠ [])) (htype : p.type = type)
    (hparts : fill r.buffer line n = wire before ++ (p.frame ++ tail))
    (htail : tail ++ ProtocolSplitter.rest r.buffer line n = wire after)
    (hfound : findPacket type (fill r.buffer line n) =
      some ((wire before).length, p.payload.length)) :
    let o := r.readPacket line type (some n) buflen
    Untouched r line type o ∧ type = .Rtps ∧ buflen < p.frame.length ∨
      Takes r type before p after o ∧ o.ret = .ok (p.payload.take buflen) := by
  intro o
  have hbytes : wire before ++ tail ++ ProtocolSplitter.rest r.buffer line n =
      wire (before ++ after) := by
    rw [List.append_assoc, htail, wire_append]
  cases type with
  | Mavlink =>
    have hempty : r.partial_buffer = [] := not_not.mp fun hne => hpart ⟨rfl, hne⟩
    have ho : o = _ := @mavlinkTake_found { r with buffer := fill r.buffer line n } _ buflen p
      (wire before) tail hempty hparts hfound
    rw [ho]
    exact .inr ⟨⟨rfl, hbytes, List.take_append_drop _ _, rfl⟩, rfl⟩
  | Rtps =>
    have ho : o = _ := @rtpsTake_found { r with buffer := fill r.buffer line n } _ buflen p
      (wire before) tail hparts hfound
    by_cases hroom : p.frame.length > buflen
    · rw [if_pos hroom] at ho
      rw [ho]
      exact .inl ⟨⟨rfl, fill_append_rest hcalm line n, rfl⟩, rfl, hroom⟩
    · rw [if_neg hroom] at ho
      rw [ho]
      have hle : p.payload.length ≤ buflen := by
        rw [frame_length] at hroom
        omega
      exact .inr ⟨⟨rfl, hbytes, rfl, rfl⟩, by rw [List.take_of_length_le hle]⟩

theorem readPacket_nothing {n buflen : ℕ} {r : Receiver} {line : List UInt8}
    (hcalm : r.buffer.length ≤ BUFFER_THRESHOLD)
    (hnone : findPacket type (fill r.buffer line n) = none) :
    Untouched r line type (r.readPacket line type (some n) buflen) := by
  have ho : r.readPacket line type (some n) buflen = ⟨.ok [], none,
      { r with buffer := fill r.buffer line n }, ProtocolSplitter.rest r.buffer line n⟩ := by
    cases type with
    | Mavlink => simp only [Receiver.readPacket, Receiver.mavlinkTake, hnone]
    | Rtps => simp only [Receiver.readPacket, Receiver.rtpsTake, hnone]
  rw [ho]
  refine ⟨rfl, fill_append_rest hcalm line n, ?_⟩
  cases type with
  | Mavlink => rfl
  | Rtps => rfl

/-- The packets that are not read, each short enough for its header, and a read that finds nothing
that looks like a header before its packet. -/
structure Reading (s : System) (type : MessageType) (n : ℕ) : Prop where
  line : s.receiver.buffer ++ s.line = wire s.unread
  short : ∀ q ∈ s.unread, q.payload.length < 2 ^ 15
  calm : s.receiver.buffer.length ≤ BUFFER_THRESHOLD
  clean : ∀ i < s.start type, i + Sp2HeaderSize < (fill s.receiver.buffer s.line n).length →
    isHeader type (fill s.receiver.buffer s.line n) i = false
  searches : s.searches type

/-- What is found is the first packet, if it is complete and there are bytes behind its header. -/
theorem Reading.find {n : ℕ} (h : s.Reading type n) (hunread : s.unread = before ++ p :: after)
    (hbefore : ∀ q ∈ before, q.type ≠ type) (htype : p.type = type) :
    findPacket type (fill s.receiver.buffer s.line n) =
      if (wire before).length + Sp2HeaderSize < (fill s.receiver.buffer s.line n).length ∧
        (wire before).length + p.frame.length ≤ (fill s.receiver.buffer s.line n).length then
        some ((wire before).length, p.payload.length)
      else none :=
  findPacket_first (hunread ▸ (fill_append_rest h.calm s.line n).trans h.line) htype
    (h.short p (hunread ▸ List.mem_append_right _ List.mem_cons_self))
    (start_first hunread hbefore htype ▸ h.clean)

theorem Reading.cases {n buflen : ℕ} (h : s.Reading type n) :
    Untouched s.receiver s.line type (s.receiver.readPacket s.line type (some n) buflen) ∨
      ∃ before p after, s.unread = before ++ p :: after ∧ (∀ q ∈ before, q.type ≠ type) ∧
        p.type = type ∧
        Takes s.receiver type before p after
          (s.receiver.readPacket s.line type (some n) buflen) := by
  have hline := (fill_append_rest h.calm s.line n).trans h.line
  rcases first_cases type s.unread with ⟨before, p, after, hunread, hbefore, htype⟩ | hnone
  · have hfind := h.find hunread hbefore htype
    by_cases hcomplete :
        (wire before).length + Sp2HeaderSize < (fill s.receiver.buffer s.line n).length ∧
        (wire before).length + p.frame.length ≤ (fill s.receiver.buffer s.line n).length
    · rw [if_pos hcomplete] at hfind
      rw [hunread] at hline
      obtain ⟨tail, hparts, htail⟩ := buffer_complete hline hcomplete.2
      refine (readPacket_found h.calm h.searches.1 htype hparts htail hfind).imp And.left
        fun htakes => ⟨before, p, after, hunread, hbefore, htype, htakes.1⟩
    · rw [if_neg hcomplete] at hfind
      exact .inl (readPacket_nothing h.calm hfind)
  · refine .inl (readPacket_nothing h.calm (findPacket_none h.clean ?_))
    rw [start_none hnone, ← hline, List.length_append]
    omega

theorem Reading.delivers {n buflen : ℕ} (h : s.Reading type n) (hunread : s.unread.find?
    (·.type = type) = some p) (hpayload : p.payload ≠ [])
    (hcomplete : s.start type + p.frame.length ≤ (fill s.receiver.buffer s.line n).length)
    (hroom : type = .Rtps → p.frame.length ≤ buflen) :
    (s.receiver.readPacket s.line type (some n) buflen).ret = .ok (p.payload.take buflen) ∧
      (s.receiver.readPacket s.line type (some n) buflen).packet = some p.payload := by
  have hline := (fill_append_rest h.calm s.line n).trans h.line
  rcases first_cases type s.unread with ⟨before, q, after, hsplit, hbefore, htype⟩ | hnone
  · rw [hsplit, find_first hbefore htype, Option.some.injEq] at hunread
    subst hunread
    rw [start_first hsplit hbefore htype] at hcomplete
    have hpos := List.length_pos_iff.mpr hpayload
    have hlt : (wire before).length + Sp2HeaderSize < (fill s.receiver.buffer s.line n).length := by
      rw [frame_length] at hcomplete
      omega
    have hfind := h.find hsplit hbefore htype
    rw [if_pos ⟨hlt, hcomplete⟩] at hfind
    rw [hsplit] at hline
    obtain ⟨tail, hparts, htail⟩ := buffer_complete hline hcomplete
    rcases readPacket_found h.calm h.searches.1 htype hparts htail hfind with
      ⟨-, hrtps, hsmall⟩ | ⟨htakes, hret⟩
    · exact absurd (hroom hrtps) (not_le.mpr hsmall)
    · exact ⟨hret, htakes.packet⟩
  · rw [List.find?_eq_none.mpr fun q hq => by simpa using hnone q hq] at hunread
    exact absurd hunread nofun

/-! ### One step -/

theorem payloads_first (hbefore : ∀ q ∈ before, q.type ≠ type) (htype : p.type = type) :
    payloads type (before ++ p :: after) = p.payload :: payloads type (before ++ after) := by
  rw [payloads_append, payloads_append, payloads_others hbefore, payloads_cons, if_pos htype]
  rfl

theorem payloads_other {other : MessageType} (htype : p.type ≠ other) :
    payloads other (before ++ p :: after) = payloads other (before ++ after) := by
  rw [payloads_append, payloads_append, payloads_cons, if_neg htype]

/-- The invariant: the protocols are separated, and the packets that are not read are short enough
for their headers. -/
structure Inv (s : System) : Prop where
  separated : s.Separated
  short : ∀ q ∈ s.unread, q.payload.length < 2 ^ 15

theorem powerOn_inv : powerOn.Inv where
  separated := ⟨rfl, rfl, rfl⟩
  short _ hq := nomatch hq

theorem write_out (sender : Sender) (type : MessageType) (buffer : List UInt8) (buf_free : ℕ) :
    (sender.write type buffer buf_free).2.1 = [] ∨
      (sender.write type buffer buf_free).2.1 = header type buffer.length ++ buffer := by
  have hpart : ∀ (sender : Sender) (packet_len : UInt16),
      (sender.writePart type packet_len buffer buf_free).2.1 = [] ∨
        (sender.writePart type packet_len buffer buf_free).2.1 =
          header type buffer.length ++ buffer := by
    intro sender packet_len
    unfold Sender.writePart
    dsimp only
    split_ifs
    · exact .inl rfl
    · exact .inr rfl
  unfold Sender.write
  split
  · split
    · exact .inl rfl
    · exact hpart _ _
  · exact hpart _ _

theorem written_cases (s : System) (type : MessageType) (buffer : List UInt8) (buf_free : ℕ) :
    (s.sender.write type buffer buf_free).2.1 = [] ∧ s.written type buffer buf_free = [] ∨
      (s.sender.write type buffer buf_free).2.1 = (⟨type, buffer⟩ : Packet).frame ∧
        s.written type buffer buf_free = [⟨type, buffer⟩] := by
  unfold written
  rcases write_out s.sender type buffer buf_free with hnone | hframe
  · rw [hnone]
    exact .inl ⟨rfl, if_pos rfl⟩
  · rw [hframe]
    exact .inr ⟨rfl, if_neg (List.cons_ne_nil _ _)⟩

theorem Inv.write (h : s.Inv) {buffer : List UInt8} (buf_free : ℕ)
    (hshort : buffer.length < 2 ^ 15) : (s.step (.write type buffer buf_free)).Inv := by
  unfold step
  dsimp only
  split_ifs with hblocked
  · exact h
  obtain ⟨⟨hline, hmavlink, hrtps⟩, hunread⟩ := h
  rcases written_cases s type buffer buf_free with ⟨hout, hwritten⟩ | ⟨hout, hwritten⟩
  · rw [hout, hwritten]
    refine ⟨⟨?_, ?_, ?_⟩, ?_⟩
    · simpa using hline
    · simpa using hmavlink
    · simpa using hrtps
    · simpa using hunread
  · rw [hout, hwritten]
    refine ⟨⟨?_, ?_, ?_⟩, fun q hq => ?_⟩
    · rw [← List.append_assoc, hline, wire_append]
      exact congrArg _ (List.append_nil _).symm
    · rw [payloads_append, payloads_append, List.flatten_append, List.flatten_append,
        ← List.append_assoc, hmavlink]
    · rw [payloads_append, payloads_append, ← List.append_assoc, hrtps]
    · rcases List.mem_append.mp hq with hq | hq
      · exact hunread q hq
      · rw [List.mem_singleton.mp hq]
        exact hshort

theorem Inv.untouched (h : s.Inv) {chunk : Option ℕ} {buflen : ℕ}
    (ho : Untouched s.receiver s.line type (s.receiver.read s.line type chunk buflen)) :
    (s.step (.read type chunk buflen)).Inv := by
  obtain ⟨hpacket, hbytes, hreturned⟩ := ho
  obtain ⟨⟨hline, hmavlink, hrtps⟩, hunread⟩ := h
  have hnone : (s.receiver.read s.line type chunk buflen).rtpsPackets type = [] := by
    unfold ReadOutcome.rtpsPackets
    split
    · rw [hpacket]
      rfl
    · rfl
  unfold step
  dsimp only
  rw [hpacket, hnone]
  refine ⟨⟨hbytes.trans hline, ?_, ?_⟩, hunread⟩
  · dsimp only
    rw [List.append_assoc s.mavlink_bytes, hreturned]
    exact hmavlink
  · dsimp only
    rw [List.append_nil]
    exact hrtps

theorem Inv.takes (h : s.Inv) {chunk : Option ℕ} {buflen : ℕ}
    (hunread : s.unread = before ++ p :: after) (hbefore : ∀ q ∈ before, q.type ≠ type)
    (htype : p.type = type) (hpart : ¬ (type = .Mavlink ∧ s.receiver.partial_buffer ≠ []))
    (ho : Takes s.receiver type before p after (s.receiver.read s.line type chunk buflen)) :
    (s.step (.read type chunk buflen)).Inv := by
  obtain ⟨hpacket, hbytes, hreturned, hpackets⟩ := ho
  obtain ⟨⟨hline, hmavlink, hrtps⟩, hshort⟩ := h
  unfold step
  dsimp only
  rw [hpacket, hunread, Option.isSome_some, if_pos rfl, eraseP_first hbefore htype]
  rw [hunread] at hmavlink hrtps hshort
  refine ⟨⟨hbytes, ?_, ?_⟩, fun q hq => hshort q ?_⟩
  · dsimp only
    rw [List.append_assoc s.mavlink_bytes, hreturned]
    cases type with
    | Mavlink =>
      have hempty : s.receiver.partial_buffer = [] := not_not.mp fun hne => hpart ⟨rfl, hne⟩
      rw [hempty, List.append_nil, payloads_first hbefore htype, List.flatten_cons] at hmavlink
      rw [if_pos rfl, List.append_assoc]
      exact hmavlink
    | Rtps =>
      rw [payloads_other (htype ▸ nofun)] at hmavlink
      exact hmavlink
  · dsimp only
    rw [hpackets]
    cases type with
    | Mavlink =>
      rw [payloads_other (htype ▸ nofun)] at hrtps
      rw [if_neg nofun, List.append_nil]
      exact hrtps
    | Rtps =>
      rw [payloads_first hbefore htype] at hrtps
      rw [if_pos rfl, List.append_assoc]
      exact hrtps
  · rcases List.mem_append.mp hq with hq | hq
    · exact List.mem_append_left _ hq
    · exact List.mem_append_right _ (List.mem_cons_of_mem _ hq)

theorem read_idle {chunk : Option ℕ} {buflen : ℕ} (h : ¬ s.searches type) :
    Untouched s.receiver s.line type (s.receiver.read s.line type chunk buflen) := by
  unfold Receiver.read
  by_cases hpart : type = .Mavlink ∧ s.receiver.partial_buffer ≠ []
  · rw [if_pos hpart]
    obtain ⟨rfl, -⟩ := hpart
    exact ⟨rfl, rfl, List.take_append_drop _ _⟩
  · have hdata : ¬ s.receiver.had_data type = true := fun hdata => h ⟨hpart, hdata⟩
    rw [if_neg hpart, if_neg hdata]
    refine ⟨rfl, rfl, ?_⟩
    cases type with
    | Mavlink => rfl
    | Rtps => rfl

theorem read_searching {chunk : Option ℕ} {buflen : ℕ} (h : s.searches type) :
    s.receiver.read s.line type chunk buflen = s.receiver.readPacket s.line type chunk buflen := by
  unfold Receiver.read
  rw [if_neg h.1, if_pos h.2]

theorem readPacket_failed {r : Receiver} {line : List UInt8} {buflen : ℕ}
    (hcalm : r.buffer.length ≤ BUFFER_THRESHOLD) :
    Untouched r line type (r.readPacket line type none buflen) := by
  have hdiscard : discard r.buffer = r.buffer := if_neg (not_lt.mpr hcalm)
  refine ⟨rfl, congrArg (· ++ line) hdiscard, ?_⟩
  cases type with
  | Mavlink => rfl
  | Rtps => rfl

theorem Inv.step (h : s.Inv) (e : Event) (hcalm : s.Calm e) (hclean : s.NoLookalike e) :
    s.Delivers e ∧ (s.step e).Inv := by
  cases e with
  | write type buffer buf_free => exact ⟨trivial, h.write buf_free hcalm⟩
  | poll type had_data => exact ⟨trivial, ⟨h.separated.line, h.separated.mavlink,
      h.separated.rtps⟩, h.short⟩
  | read type chunk buflen =>
    by_cases hsearches : s.searches type
    · have hread := @read_searching _ _ chunk buflen hsearches
      cases chunk with
      | none => exact ⟨trivial, h.untouched (hread ▸ readPacket_failed hcalm)⟩
      | some n =>
        have hreading : s.Reading type n :=
          ⟨h.separated.line, h.short, hcalm, hclean hsearches, hsearches⟩
        refine ⟨fun _ p hp hpayload hcomplete hroom => ?_, ?_⟩
        · rw [hread]
          exact hreading.delivers hp hpayload hcomplete hroom
        · rcases @Reading.cases _ _ n buflen hreading with
            huntouched | ⟨before, p, after, hunread, hbefore, htype, htakes⟩
          · exact h.untouched (hread ▸ huntouched)
          · exact h.takes hunread hbefore htype hsearches.1 (hread ▸ htakes)
    · refine ⟨?_, h.untouched (read_idle hsearches)⟩
      cases chunk with
      | none => trivial
      | some n => exact fun hcon => absurd hcon hsearches

end System

/-- In every run in which the buffer stays below the threshold and no read meets bytes that look
like a header of its type before its first packet, each device has returned what was sent to it, in
order, and what is not read is there as it was sent; and each read that can returns its packet. -/
theorem separated (es : List Event) (hcalm : Trace.Always System.step System.Calm .powerOn es)
    (hclean : Trace.Always System.step System.NoLookalike .powerOn es) :
    (Trace.run System.step .powerOn es).Separated ∧
      Trace.Always System.step System.Delivers .powerOn es := by
  have hboth := Trace.always_and.mpr ⟨hcalm, hclean⟩
  exact ⟨(Trace.run_of_invariant (fun _ e h hC => (h.step e hC.1 hC.2).2) System.powerOn_inv
    hboth).separated,
    Trace.always_of_invariant (fun _ e h hC => h.step e hC.1 hC.2) System.powerOn_inv hboth⟩

/-- Two packets, each read by its device. -/
theorem separated_two :
    let es : List Event := [.write .Rtps [62, 62, 62, 0, 0, 0, 0, 0, 83] 100,
      .write .Mavlink [254, 0, 1, 2, 3, 4, 5, 6] 100, .poll .Mavlink true, .poll .Rtps true,
      .read .Mavlink (some 30) 512, .read .Rtps (some 0) 512]
    (Trace.run System.step .powerOn es).Separated ∧
      Trace.Always System.step System.Delivers .powerOn es :=
  separated _ (by decide) (by decide)

/-- The payload of an RTPS packet contains a header for one byte of MAVLink: that byte is returned,
and taken out of the packet. -/
theorem lookalike_taken :
    let es : List Event := [.write .Rtps [62, 62, 62, 0, 0, 0, 5, 0, 0, 83, 0, 1, 82, 7] 100,
      .poll .Mavlink true, .read .Mavlink (some 18) 512]
    let s := Trace.run System.step .powerOn es
    Trace.Always System.step System.Calm .powerOn es ∧ payloads .Mavlink s.sent = [] ∧
      s.mavlink_bytes = [7] ∧ s.receiver.buffer.length = 13 ∧ ¬ s.Separated := by
  refine ⟨by decide, by decide, by decide, by decide, fun h => ?_⟩
  have hmavlink := h.mavlink
  revert hmavlink
  decide

end ProtocolSplitter
