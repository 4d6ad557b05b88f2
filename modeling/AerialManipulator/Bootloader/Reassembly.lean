/-
What `uavcan_rx_dsdl` returns is one transfer.

The frames that are copied come from one source and carry one transfer id, the toggle bit alternates
and the CRC is checked at the end.  A frame for which there is no room is not copied, and nothing
says so: what is returned then is not what was sent.  `Fits` says that there is room for a frame
that passes the filter, and that it is long enough for its tail byte and its CRC.

* `Rx.inv_step` — what is known of the loop between two frames.
-/
import Mathlib.Data.List.Induction
import AerialManipulator.Bootloader.Uavcan
import AerialManipulator.Lib.Masks

namespace Bootloader

/-! ### Transfers -/

def CanFrame.payload (f : CanFrame) : List UInt8 := f.message.take (f.length - 1)

/-- The id but for the priority: the source, the type and, for a service, the destination. -/
def CanFrame.address (f : CanFrame) : UInt32 := f.message_id &&& 0xffffff

def CanFrame.crc (f : CanFrame) : UInt16 := makeUint16 (f.payload.getD 0 0) (f.payload.getD 1 0)

/-- The first frames of a transfer, the toggle bit of the next one, and the bytes so far. -/
inductive Chain (first : CanFrame) : List CanFrame → Bool → List UInt8 → Prop
  | start : first.tail.sot = true → first.tail.eot = false → first.tail.toggle = false →
      2 ≤ first.payload.length → Chain first [first] true (first.payload.drop 2)
  | next {fs : List CanFrame} {toggle : Bool} {bytes : List UInt8} {f : CanFrame} :
      Chain first fs toggle bytes → f.tail.sot = false → f.tail.eot = false →
      f.tail.toggle = toggle → f.tail.transfer_id = first.tail.transfer_id →
      f.address = first.address → Chain first (fs ++ [f]) (!toggle) (bytes ++ f.payload)

/-- The frames of a transfer, and its bytes: there is one frame, or several, from one address and
with one transfer id, whose toggle bit alternates and whose CRC is that of the bytes. -/
inductive IsTransfer (signature_crc16 : UInt16) : List CanFrame → List UInt8 → Prop
  | single (f : CanFrame) : f.tail.sot = true → f.tail.eot = true →
      IsTransfer signature_crc16 [f] f.payload
  | multi {first : CanFrame} {fs : List CanFrame} {toggle : Bool} {bytes : List UInt8}
      {f : CanFrame} : Chain first fs toggle bytes → f.tail.sot = false → f.tail.eot = true →
      f.tail.toggle = toggle → f.tail.transfer_id = first.tail.transfer_id →
      f.address = first.address →
      first.crc = crc16Signature signature_crc16 (bytes ++ f.payload) →
      IsTransfer signature_crc16 (fs ++ [f]) (bytes ++ f.payload)

/-- The frame is for the receiver: its type, and its destination and source where they matter. -/
def Rx.addressed (s : Rx) (f : CanFrame) : Prop :=
  (f.message_id ^^^ s.protocol.id) &&& s.masks.id = 0

/-- A frame that passes the filter has a tail byte and, if it needs one, a CRC, and there is room
for it. -/
def Fits (in_out_transfer_length : UInt32) : RxLoop → Poll → Prop
  | .running s, ⟨some f, _⟩ => s.accepts f = true →
    Rx.payloadIndex f < f.length ∧ f.length ≤ 8 ∧
      (if f.tail.sot then 0 else s.total_rx) + (f.length - 1 - Rx.payloadIndex f) ≤
        in_out_transfer_length.toNat
  | _, _ => True

/-! ### Ids -/

theorem masks_onStartOfTransfer (protocol : Protocol) :
    (initialMasks protocol).onStartOfTransfer = ⟨0xffffff, ⟨true, true, false, true⟩⟩ := by
  unfold initialMasks Masks.onStartOfTransfer
  dsimp only
  split_ifs <;> rfl

theorem agree_iff {a b m : UInt32} : (a ^^^ b) &&& m = 0 ↔ a &&& m = b &&& m := by
  rw [← UInt32.toBitVec_inj, ← UInt32.toBitVec_inj]
  exact Masks.agree_iff

/-- After the source has been taken from a frame that passed the filter, the filter is its
address. -/
theorem address_startOfTransfer {s : Rx} {f : CanFrame} (hid : s.addressed f)
    (hmask : s.masks.id ||| MaskUavCanMessageSourceNodeID = 0xffffff) :
    (s.startOfTransfer f).protocol.id &&& 0xffffff = f.address := by
  have hagree := (agree_iff.mp hid).symm
  rw [← UInt32.toBitVec_inj] at hagree ⊢
  have hinsert := @Masks.agree_insert _ _ _ _ MaskUavCanMessageSourceNodeID.toBitVec hagree
  have hmask' := congrArg UInt32.toBitVec hmask
  rw [UInt32.toBitVec_or] at hmask'
  rw [hmask'] at hinsert
  exact hinsert

/-! ### One frame -/

section Frame

variable {s : Rx} {f : CanFrame} {in_out : UInt32}

theorem rxLength_of_fits (hlength : Rx.payloadIndex f < f.length) (hle : f.length ≤ 8) :
    Rx.rxLength f = f.length - 1 - Rx.payloadIndex f := by
  unfold Rx.rxLength
  omega

theorem copied_eq (hlength : Rx.payloadIndex f < f.length) (hle : f.length ≤ 8) :
    (f.message.drop (Rx.payloadIndex f)).take (Rx.rxLength f) =
      f.payload.drop (Rx.payloadIndex f) := by
  rw [rxLength_of_fits hlength hle, CanFrame.payload, List.drop_take]

theorem payload_length (hle : f.length ≤ 8) : f.payload.length = f.length - 1 := by
  rw [CanFrame.payload, List.length_take, f.message_length]
  omega

theorem copyFrame_of_fits (h : (s.total_rx + Rx.rxLength f) % 2 ^ 32 ≤ in_out.toNat) :
    s.copyFrame f in_out =
      { s with
        protocol := { s.protocol with
          tail := { s.protocol.tail with toggle := !s.protocol.tail.toggle } }
        transfer := s.transfer.take s.total_rx ++
          (f.message.drop (Rx.payloadIndex f)).take (Rx.rxLength f)
        total_rx := (s.total_rx + Rx.rxLength f) % 2 ^ 32 } := by
  unfold Rx.copyFrame
  rw [if_pos h]

/-- What has been received: these bytes, and there was room for them. -/
structure Holds (in_out : UInt32) (s : Rx) (bytes : List UInt8) : Prop where
  total : s.total_rx = bytes.length
  read : s.transfer.take s.total_rx = bytes
  le : bytes.length ≤ in_out.toNat

theorem Holds.copyFrame {bytes : List UInt8} (h : Holds in_out s bytes)
    (hlength : Rx.payloadIndex f < f.length) (hle : f.length ≤ 8)
    (hfits : s.total_rx + (f.length - 1 - Rx.payloadIndex f) ≤ in_out.toNat) :
    Holds in_out (s.copyFrame f in_out) (bytes ++ f.payload.drop (Rx.payloadIndex f)) := by
  have hlt := in_out.toNat_lt
  have hrx := rxLength_of_fits hlength hle
  have hmod : (s.total_rx + Rx.rxLength f) % 2 ^ 32 = s.total_rx + Rx.rxLength f :=
    Nat.mod_eq_of_lt (by omega)
  have hcount : s.total_rx + Rx.rxLength f =
      (bytes ++ f.payload.drop (Rx.payloadIndex f)).length := by
    rw [hrx, List.length_append, List.length_drop, payload_length hle, h.total]
  rw [copyFrame_of_fits (by omega), hmod, copied_eq hlength hle, h.read, hcount]
  exact ⟨rfl, List.take_length, by omega⟩

theorem accepts_iff : s.accepts f = true ↔
    ¬ (f.tail.sot = true ∧ f.tail.toggle = true) ∧ s.addressed f ∧
      s.masks.tail.differ f.tail s.protocol.tail = false := by
  unfold Rx.accepts Rx.addressed
  rw [Bool.and_eq_true, Bool.and_eq_true, decide_eq_true_iff, Bool.not_eq_true', Bool.not_eq_true',
    Bool.and_eq_false_iff, and_assoc, not_and_or, Bool.not_eq_true, Bool.not_eq_true]

theorem differ_eq_false {m : TailMask} {a b : Tail} (h : m.differ a b = false) :
    (m.transfer_id = true → a.transfer_id = b.transfer_id) ∧
      (m.toggle = true → a.toggle = b.toggle) ∧ (m.sot = true → a.sot = b.sot) := by
  unfold TailMask.differ at h
  simp only [Bool.or_eq_false_iff, Bool.and_eq_false_iff, bne_eq_false_iff_eq] at h
  obtain ⟨⟨⟨htid, htoggle⟩, -⟩, hsot⟩ := h
  exact ⟨fun hm => htid.resolve_left (hm ▸ nofun), fun hm => htoggle.resolve_left (hm ▸ nofun),
    fun hm => hsot.resolve_left (hm ▸ nofun)⟩

/-- The state in which a frame is copied: if the buffer is full, the filter is set up again. -/
def Rx.ready (s : Rx) (in_out_transfer_length : UInt32) : Rx :=
  if s.total_rx ≥ in_out_transfer_length.toNat then s.restart else s

theorem receive_eq {sig : UInt16} {expired : Bool}
    (htid : (s.atFrame f).protocol.tail.transfer_id = f.tail.transfer_id) :
    s.receive sig in_out f expired =
      let s' := ((s.atFrame f).ready in_out).copyFrame f in_out
      if f.tail.eot then .returned (s'.finish f sig) else s'.again expired := by
  unfold Rx.receive Rx.ready
  dsimp only
  rw [htid]
  have hself : ¬ f.tail.transfer_id < f.tail.transfer_id := Nat.lt_irrefl _
  by_cases hfull : (s.atFrame f).total_rx ≥ in_out.toNat
  · rw [if_pos (.inr hfull), if_pos hfull]
  · rw [if_neg (not_or.mpr ⟨hself, hfull⟩), if_neg hself, if_neg hfull]

theorem Holds.ready {bytes : List UInt8} (h : Holds in_out s bytes) :
    Holds in_out (s.ready in_out) bytes := by
  unfold Rx.ready
  split_ifs
  · exact ⟨h.total, h.read, h.le⟩
  · exact h

theorem ready_crc : (s.ready in_out).transfer_crc = s.transfer_crc := by
  unfold Rx.ready
  split_ifs <;> rfl

/-- Between two frames of a transfer: what the chain so far has put into the variables. -/
structure Started (in_out : UInt32) (first : CanFrame) (toggle : Bool) (bytes : List UInt8)
    (s : Rx) : Prop where
  holds : Holds in_out s bytes
  sot : s.protocol.tail.sot = false
  toggle : s.protocol.tail.toggle = toggle
  transfer_id : s.protocol.tail.transfer_id = first.tail.transfer_id
  masks : s.masks = ⟨0xffffff, ⟨true, true, false, true⟩⟩
  address : s.protocol.id &&& 0xffffff = first.address
  crc : s.transfer_crc = first.crc

/-- After a frame that came when the buffer was full: no frame passes the filter any more. -/
def Stuck (s : Rx) : Prop :=
  s.protocol.tail.sot = true ∧ s.protocol.tail.toggle = true ∧
    s.masks.tail = ⟨false, true, false, true⟩

theorem Stuck.not_accepts (h : Stuck s) (f : CanFrame) : s.accepts f = false := by
  obtain ⟨hsot, htoggle, hmasks⟩ := h
  by_contra haccepts
  obtain ⟨hbad, -, hdiffer⟩ := accepts_iff.mp (Bool.not_eq_false _ ▸ haccepts)
  obtain ⟨-, htoggle', hsot'⟩ := differ_eq_false hdiffer
  rw [hmasks] at htoggle' hsot'
  exact hbad ⟨(hsot' rfl).trans hsot, (htoggle' rfl).trans htoggle⟩

theorem Started.accepts {first : CanFrame} {toggle : Bool} {bytes : List UInt8}
    (h : Started in_out first toggle bytes s) (haccepts : s.accepts f = true) :
    f.tail.sot = false ∧ f.tail.toggle = toggle ∧
      f.tail.transfer_id = first.tail.transfer_id ∧ f.address = first.address := by
  obtain ⟨-, hid, hdiffer⟩ := accepts_iff.mp haccepts
  obtain ⟨htid, htoggle, hsot⟩ := differ_eq_false hdiffer
  have haddress := agree_iff.mp hid
  rw [h.masks] at htid htoggle hsot haddress
  exact ⟨(hsot rfl).trans h.sot, (htoggle rfl).trans h.toggle, (htid rfl).trans h.transfer_id,
    haddress.trans h.address⟩

theorem copyFrame_frame : (s.copyFrame f in_out).protocol = { s.protocol with
      tail := { s.protocol.tail with toggle := !s.protocol.tail.toggle } } ∧
    (s.copyFrame f in_out).masks = s.masks ∧
    (s.copyFrame f in_out).transfer_crc = s.transfer_crc := by
  unfold Rx.copyFrame
  split_ifs <;> exact ⟨rfl, rfl, rfl⟩

/-- After another frame that is not the last one the chain is longer, if there is room left. -/
theorem Started.next_of_room {first : CanFrame} {toggle : Bool} {bytes bytes' : List UInt8}
    (h : Started in_out first toggle bytes s) (hroom : s.total_rx < in_out.toNat)
    (hholds : Holds in_out ((s.ready in_out).copyFrame f in_out) bytes') :
    Started in_out first (!toggle) bytes' ((s.ready in_out).copyFrame f in_out) := by
  obtain ⟨hprotocol, hmasks, hcrc⟩ := @copyFrame_frame (s.ready in_out) f in_out
  have hready : s.ready in_out = s := if_neg (Nat.not_le.mpr hroom)
  rw [hready] at hholds hprotocol hmasks hcrc ⊢
  refine ⟨hholds, ?_, ?_, ?_, hmasks.trans h.masks, ?_, hcrc.trans h.crc⟩
  · rw [hprotocol]
    exact h.sot
  · rw [hprotocol]
    exact congrArg (! ·) h.toggle
  · rw [hprotocol]
    exact h.transfer_id
  · rw [hprotocol]
    exact h.address

theorem Started.next {first : CanFrame} {toggle : Bool} {bytes bytes' : List UInt8}
    (h : Started in_out first toggle bytes s)
    (hholds : Holds in_out ((s.ready in_out).copyFrame f in_out) bytes') :
    Stuck ((s.ready in_out).copyFrame f in_out) ∨
      Started in_out first (!toggle) bytes' ((s.ready in_out).copyFrame f in_out) := by
  by_cases hroom : s.total_rx < in_out.toNat
  · exact .inr (h.next_of_room hroom hholds)
  · obtain ⟨hprotocol, hmasks, -⟩ := @copyFrame_frame (s.ready in_out) f in_out
    have hready : s.ready in_out = s.restart := if_pos (Nat.not_lt.mp hroom)
    rw [hready] at hprotocol hmasks ⊢
    exact .inl ⟨by rw [hprotocol]; rfl, by rw [hprotocol]; rfl, by rw [hmasks]; rfl⟩

/-! ### The loop -/

/-- What is known of the loop, after these frames: no frame has been taken, or the first ones of a
transfer, or none will be taken any more; or it has returned, and what it has returned is a
transfer. -/
inductive Inv (sig : UInt16) (in_out : UInt32) (start : Rx) (seen : List CanFrame) : RxLoop → Prop
  | waiting : Inv sig in_out start seen (.running start)
  | started {s : Rx} {first : CanFrame} {fs : List CanFrame} {toggle : Bool}
      {bytes : List UInt8} : fs.Sublist seen → start.addressed first →
      Chain first fs toggle bytes → Started in_out first toggle bytes s →
      Inv sig in_out start seen (.running s)
  | stuck {s : Rx} : Stuck s → Inv sig in_out start seen (.running s)
  | failed {r : Received} : r.status = .UavcanError → Inv sig in_out start seen (.returned r)
  | returned {r : Received} {first : CanFrame} {fs : List CanFrame} :
      (first :: fs).Sublist seen → start.addressed first →
      IsTransfer sig (first :: fs) r.bytes → r.bytes.length ≤ in_out.toNat →
      Inv sig in_out start seen (.returned r)

variable {sig : UInt16} {start : Rx} {seen : List CanFrame}

theorem Inv.mono {l : RxLoop} (h : Inv sig in_out start seen l) (more : List CanFrame) :
    Inv sig in_out start (seen ++ more) l := by
  have happend := List.sublist_append_left seen more
  cases h with
  | waiting => exact .waiting
  | started hfs haddressed hchain hstarted =>
    exact .started (hfs.trans happend) haddressed hchain hstarted
  | stuck hstuck => exact .stuck hstuck
  | failed hfailed => exact .failed hfailed
  | returned hfs haddressed htransfer hle =>
    exact .returned (hfs.trans happend) haddressed htransfer hle

theorem Inv.again (h : Inv sig in_out start seen (.running s)) (expired : Bool) :
    Inv sig in_out start seen (s.again expired) := by
  unfold Rx.again
  split_ifs
  · exact .failed rfl
  · exact h

/-- At the start a first frame is expected. -/
structure Expects (start : Rx) : Prop where
  sot : start.protocol.tail.sot = true
  toggle : start.protocol.tail.toggle = false
  masks : start.masks = initialMasks start.protocol

theorem Expects.accepts (h : Expects start) (haccepts : start.accepts f = true) :
    f.tail.sot = true ∧ f.tail.toggle = false ∧ start.addressed f := by
  obtain ⟨-, hid, hdiffer⟩ := accepts_iff.mp haccepts
  obtain ⟨-, htoggle, hsot⟩ := differ_eq_false hdiffer
  rw [h.masks] at htoggle hsot
  exact ⟨(hsot rfl).trans h.sot, (htoggle rfl).trans h.toggle, hid⟩

theorem crc_eq (hlength : 2 < f.length) (hle : f.length ≤ 8) :
    makeUint16 (f.message.getD 0 0) (f.message.getD 1 0) = f.crc := by
  have hget : ∀ i < 2, f.payload.getD i 0 = f.message.getD i 0 := by
    intro i hi
    rw [CanFrame.payload, List.getD_eq_getElem?_getD, List.getD_eq_getElem?_getD,
      List.getElem?_take_of_lt (by omega)]
  rw [CanFrame.crc, hget 0 (by decide), hget 1 (by decide)]

theorem Expects.started (h : Expects start) (hid : start.addressed f) (heot : f.tail.eot = false)
    (hlength : 2 < f.length) (hle : f.length ≤ 8) :
    Started in_out f false [] (start.startOfTransfer f) where
  holds := ⟨rfl, rfl, Nat.zero_le _⟩
  sot := rfl
  toggle := h.toggle
  transfer_id := rfl
  masks := (congrArg Masks.onStartOfTransfer h.masks).trans (masks_onStartOfTransfer _)
  address := address_startOfTransfer hid
    (congrArg Masks.id ((congrArg Masks.onStartOfTransfer h.masks).trans
      (masks_onStartOfTransfer _)))
  crc := by
    unfold Rx.startOfTransfer
    dsimp only
    rw [heot, if_neg Bool.false_ne_true]
    exact crc_eq hlength hle

variable (sig) in
theorem Expects.receive_eq (h : Expects start) (haccepts : start.accepts f = true)
    (expired : Bool) (hlength : Rx.payloadIndex f < f.length) (hle : f.length ≤ 8)
    (hfits : f.length - 1 - Rx.payloadIndex f ≤ in_out.toNat) :
    (start.receive sig in_out f expired =
      let s' := ((start.startOfTransfer f).ready in_out).copyFrame f in_out
      if f.tail.eot then .returned (s'.finish f sig) else s'.again expired) ∧
      Holds in_out (((start.startOfTransfer f).ready in_out).copyFrame f in_out)
        (f.payload.drop (Rx.payloadIndex f)) := by
  have hat : start.atFrame f = start.startOfTransfer f := if_pos (h.accepts haccepts).1
  have hholds : Holds in_out (start.startOfTransfer f) [] := ⟨rfl, rfl, Nat.zero_le _⟩
  have hzero : ((start.startOfTransfer f).ready in_out).total_rx = 0 := hholds.ready.total
  refine ⟨?_, hholds.ready.copyFrame hlength hle (by rw [hzero]; omega)⟩
  rw [Bootloader.receive_eq (hat ▸ rfl), hat]

theorem finish_single (hsot : f.tail.sot = true) {bytes : List UInt8}
    (hholds : Holds in_out s bytes) : s.finish f sig = ⟨.UavcanOk, bytes⟩ := by
  unfold Rx.finish
  dsimp only
  rw [hsot, hholds.read, Bool.true_or, if_pos rfl]

theorem Expects.receive (h : Expects start) (haccepts : start.accepts f = true) (expired : Bool)
    (hlength : Rx.payloadIndex f < f.length) (hle : f.length ≤ 8)
    (hfits : f.length - 1 - Rx.payloadIndex f ≤ in_out.toNat) :
    Inv sig in_out start (seen ++ [f]) (start.receive sig in_out f expired) := by
  obtain ⟨hsot, htoggle, hid⟩ := h.accepts haccepts
  have hseen : [f].Sublist (seen ++ [f]) := List.sublist_append_right seen [f]
  obtain ⟨hreceive, hcopied⟩ := h.receive_eq sig haccepts expired hlength hle hfits
  rw [hreceive]
  dsimp only
  cases heot : f.tail.eot with
  | true =>
    have hindex : Rx.payloadIndex f = 0 := by rw [Rx.payloadIndex, hsot, heot]; rfl
    rw [hindex, List.drop_zero] at hcopied
    rw [if_pos rfl, finish_single hsot hcopied]
    exact .returned hseen hid (.single f hsot heot) hcopied.le
  | false =>
    have hindex : Rx.payloadIndex f = 2 := by rw [Rx.payloadIndex, hsot, heot]; rfl
    rw [hindex] at hcopied hlength
    have hchain : Chain f [f] true (f.payload.drop 2) := by
      refine .start hsot heot htoggle ?_
      rw [payload_length hle]
      omega
    rw [if_neg Bool.false_ne_true]
    rcases (h.started hid heot hlength hle).next hcopied with hstuck | hstarted
    · exact (Inv.stuck hstuck).again expired
    · exact (Inv.started hseen hid hchain hstarted).again expired

theorem Chain.eq_cons {first : CanFrame} {fs : List CanFrame} {toggle : Bool} {bytes : List UInt8}
    (h : Chain first fs toggle bytes) : ∃ rest, fs = first :: rest := by
  induction h with
  | start => exact ⟨[], rfl⟩
  | next _ _ _ _ _ _ ih =>
    obtain ⟨rest, rfl⟩ := ih
    exact ⟨rest ++ [_], rfl⟩

variable (sig) in
theorem Started.receive_eq {first : CanFrame} {toggle : Bool} {bytes : List UInt8}
    (h : Started in_out first toggle bytes s) (haccepts : s.accepts f = true) (expired : Bool)
    (hlength : Rx.payloadIndex f < f.length) (hle : f.length ≤ 8)
    (hfits : s.total_rx + (f.length - 1 - Rx.payloadIndex f) ≤ in_out.toNat) :
    (s.receive sig in_out f expired =
      let s' := (s.ready in_out).copyFrame f in_out
      if f.tail.eot then .returned (s'.finish f sig) else s'.again expired) ∧
      Holds in_out ((s.ready in_out).copyFrame f in_out) (bytes ++ f.payload) := by
  obtain ⟨hsot, -, htid, -⟩ := h.accepts haccepts
  have hat : s.atFrame f = s := if_neg (hsot ▸ Bool.false_ne_true)
  have hindex : Rx.payloadIndex f = 0 := by rw [Rx.payloadIndex, hsot]; rfl
  have htotal : (s.ready in_out).total_rx = s.total_rx := by
    rw [h.holds.ready.total, h.holds.total]
  have hcopied := h.holds.ready.copyFrame hlength hle (htotal ▸ hfits)
  rw [hindex, List.drop_zero] at hcopied
  refine ⟨?_, hcopied⟩
  rw [Bootloader.receive_eq (by rw [hat, h.transfer_id, htid]), hat]

theorem Started.finish {first : CanFrame} {toggle : Bool} {bytes bytes' : List UInt8}
    (h : Started in_out first toggle bytes s) (hsot : f.tail.sot = false)
    (hcopied : Holds in_out ((s.ready in_out).copyFrame f in_out) bytes') :
    ((s.ready in_out).copyFrame f in_out).finish f sig =
      ⟨if first.crc = crc16Signature sig bytes' then .UavcanOk else .UavcanError, bytes'⟩ := by
  have hcrc : ((s.ready in_out).copyFrame f in_out).transfer_crc = first.crc := by
    rw [copyFrame_frame.2.2, ready_crc, h.crc]
  unfold Rx.finish
  dsimp only
  rw [hsot, hcopied.read, hcrc, Bool.false_or]
  simp only [decide_eq_true_eq]

theorem Started.receive {first : CanFrame} {fs : List CanFrame} {toggle : Bool}
    {bytes : List UInt8} (h : Started in_out first toggle bytes s) (hfs : fs.Sublist seen)
    (haddressed : start.addressed first) (hchain : Chain first fs toggle bytes)
    (haccepts : s.accepts f = true) (expired : Bool)
    (hlength : Rx.payloadIndex f < f.length) (hle : f.length ≤ 8)
    (hfits : s.total_rx + (f.length - 1 - Rx.payloadIndex f) ≤ in_out.toNat) :
    Inv sig in_out start (seen ++ [f]) (s.receive sig in_out f expired) := by
  obtain ⟨hsot, htoggle, htid, haddress⟩ := h.accepts haccepts
  have hseen : (fs ++ [f]).Sublist (seen ++ [f]) := hfs.append (List.Sublist.refl _)
  obtain ⟨hreceive, hcopied⟩ := h.receive_eq sig haccepts expired hlength hle hfits
  rw [hreceive]
  dsimp only
  cases heot : f.tail.eot with
  | true =>
    rw [if_pos rfl, h.finish hsot hcopied]
    by_cases hcrc : first.crc = crc16Signature sig (bytes ++ f.payload)
    · obtain ⟨rest, rfl⟩ := hchain.eq_cons
      exact .returned hseen haddressed (.multi hchain hsot heot htoggle htid haddress hcrc)
        hcopied.le
    · exact .failed (if_neg hcrc)
  | false =>
    rw [if_neg Bool.false_ne_true]
    rcases h.next hcopied with hstuck | hstarted
    · exact (Inv.stuck hstuck).again expired
    · exact (Inv.started hseen haddressed (hchain.next hsot heot htoggle htid haddress)
        hstarted).again expired

end Frame

variable {sig : UInt16} {in_out : UInt32} {start : Rx} {seen : List CanFrame}

theorem Inv.step {l : RxLoop} (hstart : Expects start) (h : Inv sig in_out start seen l) (p : Poll)
    (hfits : Fits in_out l p) :
    Inv sig in_out start (seen ++ p.frame.toList) (l.step sig in_out p) := by
  obtain ⟨frame, expired⟩ := p
  cases l with
  | returned r => exact h.mono _
  | running s =>
    cases frame with
    | none => exact (h.mono []).again expired
    | some f =>
      unfold RxLoop.step
      dsimp only [Option.toList]
      by_cases haccepts : s.accepts f = true
      · obtain ⟨hlength, hle, hroom⟩ := hfits haccepts
        rw [if_pos haccepts]
        cases h with
        | waiting =>
          rw [if_pos (hstart.accepts haccepts).1, Nat.zero_add] at hroom
          exact hstart.receive haccepts expired hlength hle hroom
        | started hfs haddressed hchain hstarted =>
          rw [if_neg ((hstarted.accepts haccepts).1 ▸ Bool.false_ne_true)] at hroom
          exact hstarted.receive hfs haddressed hchain haccepts expired hlength hle hroom
        | stuck hstuck => exact absurd haccepts (hstuck.not_accepts f ▸ Bool.false_ne_true)
      · rw [if_neg haccepts]
        exact (h.mono [f]).again expired

def frames (polls : List Poll) : List CanFrame := polls.flatMap fun p => p.frame.toList

theorem run_inv (hstart : Expects start) (polls : List Poll)
    (hfits : Trace.Always (RxLoop.step sig in_out) (Fits in_out) (.running start) polls) :
    Inv sig in_out start (frames polls)
      (Trace.run (RxLoop.step sig in_out) (.running start) polls) := by
  induction polls using List.reverseRecOn with
  | nil => exact .waiting
  | append_singleton polls p ih =>
    rw [Trace.always_append] at hfits
    rw [Trace.run_append, frames, List.flatMap_append, List.flatMap_singleton]
    exact (ih hfits.1).step hstart p hfits.2.1

end Bootloader
