/-
Transfers from one end to the other.

`segments` cuts a stream of bytes into frames; the frames of a transfer are those of its bytes, with
the CRC before them if there are more than fit into one frame.  The receiver puts them together
again, whatever frames of other addresses and transfers come between them.

* **`transfers_iff`** — a transfer is delivered, and nothing is returned that is not a transfer
  whose frames all fit, for every data type but the one that is never received.
-/
import AerialManipulator.Bootloader.Reassembly

namespace Bootloader

/-! ### The frames of a transfer -/

def segments (id : UInt32) (transfer_id : Fin 32) (toggle sot : Bool) (stream : List UInt8) :
    List TxFrame :=
  if MaxUserPayloadLength < stream.length then
    ⟨id, stream.take MaxUserPayloadLength ++ [Tail.toByte ⟨transfer_id, toggle, false, sot⟩]⟩ ::
      segments id transfer_id (!toggle) false (stream.drop MaxUserPayloadLength)
  else [⟨id, stream ++ [Tail.toByte ⟨transfer_id, toggle, true, sot⟩]⟩]
termination_by stream.length
decreasing_by
  rw [List.length_drop]
  have hpos : 0 < MaxUserPayloadLength := by decide
  omega

def canTxOk : ℕ → UavcanErrorT := fun _ => .UavcanOk

theorem txLoop_segments {id : UInt32} {transfer_id : Fin 32} (transfer : List UInt8) :
    ∀ {sent : ℕ} {toggle eot sot : Bool} {payload : List UInt8}, transfer ≠ [] →
      payload.length < MaxUserPayloadLength →
      (txLoop canTxOk transfer sent ⟨id, ⟨transfer_id, toggle, eot, sot⟩⟩ payload).1 =
        segments id transfer_id toggle sot (payload ++ transfer) := by
  induction transfer with
  | nil => exact fun h => absurd rfl h
  | cons b transfer ih =>
    intro sent toggle eot sot payload _ hlt
    unfold txLoop
    dsimp only
    have hlength : (payload ++ [b]).length = payload.length + 1 := List.length_append
    have hok : ¬ canTxOk sent ≠ .UavcanOk := not_not.mpr rfl
    cases htransfer : transfer with
    | nil =>
      have hshort : ¬ MaxUserPayloadLength < (payload ++ [b]).length := by omega
      rw [List.isEmpty_nil, if_pos (.inr rfl), if_neg hok, segments, if_neg hshort]
      rfl
    | cons c rest =>
      rw [← htransfer]
      have hne : transfer ≠ [] := htransfer ▸ List.cons_ne_nil c rest
      have hempty : transfer.isEmpty = false := by rw [htransfer]; rfl
      have hsplit : payload ++ b :: transfer = (payload ++ [b]) ++ transfer := by simp
      rw [hempty, hsplit]
      by_cases hfull : (payload ++ [b]).length = MaxUserPayloadLength
      · have hmore : MaxUserPayloadLength < (payload ++ [b] ++ transfer).length := by
          have hpos := List.length_pos_iff.mpr hne
          rw [List.length_append]
          omega
        rw [if_pos (.inl hfull), if_neg hok, segments, if_pos hmore, ← hfull, List.take_left,
          List.drop_left]
        dsimp only
        rw [ih hne (by decide)]
        rfl
      · rw [if_neg (not_or.mpr ⟨hfull, Bool.false_ne_true⟩), ih hne (by omega)]

def stream (signature_crc16 : UInt16) (transfer : List UInt8) : List UInt8 :=
  let crc := crc16Signature signature_crc16 transfer
  if transfer.length > MaxUserPayloadLength then
    crc.toUInt8 :: (crc >>> 8).toUInt8 :: transfer
  else transfer

theorem outtail_fst (dsdl : Dsdl) : (dsdlTable dsdl).outtail.1 = true := by
  cases dsdl <;> rfl

theorem uavcanTxDsdl_eq {node : Node} {dsdl : Dsdl} {protocol : Protocol} {transfer : List UInt8}
    (hne : transfer ≠ []) :
    (uavcanTxDsdl node dsdl protocol transfer canTxOk).1 =
      segments (loadDsdlProtocol node dsdl false protocol protocol.sourceNodeId).id
        protocol.tail.transfer_id false true
          (stream (dsdlTable dsdl).signature_crc16 transfer) := by
  have htail : (loadDsdlProtocol node dsdl false protocol protocol.sourceNodeId).tail =
      ⟨protocol.tail.transfer_id, false, (dsdlTable dsdl).outtail.2, true⟩ := by
    rw [← outtail_fst dsdl]
    rfl
  unfold uavcanTxDsdl stream
  dsimp only
  generalize loadDsdlProtocol node dsdl false protocol protocol.sourceNodeId = p at htail ⊢
  obtain ⟨id, tail⟩ := p
  obtain rfl : tail = _ := htail
  by_cases hlong : transfer.length > MaxUserPayloadLength
  · rw [if_pos hlong, if_pos hlong, txLoop_segments transfer hne (by simp [MaxUserPayloadLength])]
    rfl
  · rw [if_neg hlong, if_neg hlong, txLoop_segments transfer hne (by decide)]
    rfl

/-! ### The frames in the fifo -/

theorem Tail.ofByte_toByte (t : Tail) : Tail.ofByte t.toByte = t := by
  have hall : ∀ (i : Fin 32) (a b c : Bool),
      Tail.ofByte (Tail.toByte ⟨i, a, b, c⟩) = ⟨i, a, b, c⟩ := by decide
  exact hall _ _ _ _

/-- A frame that was sent is in the fifo. -/
structure Carries (tx : TxFrame) (f : CanFrame) : Prop where
  message_id : f.message_id = tx.message_id
  length : f.length = tx.data.length
  message : f.message.take f.length = tx.data

section Carries

variable {id : UInt32} {data : List UInt8} {t : Tail} {f : CanFrame}

theorem Carries.length_eq (h : Carries ⟨id, data ++ [t.toByte]⟩ f) :
    f.length = data.length + 1 := by
  rw [h.length, List.length_append, List.length_singleton]

theorem Carries.tail (h : Carries ⟨id, data ++ [t.toByte]⟩ f) (hle : data.length ≤ 7) :
    f.tail = t := by
  have hlength := h.length_eq
  have hlast : (f.length + 2 ^ 32 - 1) % 2 ^ 32 = data.length := by omega
  have hget : f.message[data.length]? = some t.toByte := by
    rw [← List.getElem?_take_of_lt (by omega : data.length < f.length), h.message,
      List.getElem?_concat_length]
  rw [CanFrame.tail, hlast, List.getD_eq_getElem?_getD, hget]
  exact t.ofByte_toByte

theorem Carries.payload (h : Carries ⟨id, data ++ [t.toByte]⟩ f) : f.payload = data := by
  have hlength := h.length_eq
  have htake : f.message.take (f.length - 1) = (f.message.take f.length).take data.length := by
    rw [List.take_take, Nat.min_eq_left (by omega)]
    congr 1
    omega
  rw [CanFrame.payload, htake, h.message, List.take_left]

end Carries

/-- The looks at the fifo while these frames come in, one after the other: in between there may be
none, or others. -/
inductive Interleaved (other : CanFrame → Prop) : List TxFrame → List Poll → Prop
  | done (polls : List Poll) : Interleaved other [] polls
  | own {tx : TxFrame} {txs : List TxFrame} {f : CanFrame} {polls : List Poll} :
      Carries tx f → Interleaved other txs polls →
      Interleaved other (tx :: txs) (⟨some f, false⟩ :: polls)
  | none {txs : List TxFrame} {polls : List Poll} :
      Interleaved other txs polls → Interleaved other txs (⟨none, false⟩ :: polls)
  | other {txs : List TxFrame} {g : CanFrame} {polls : List Poll} :
      other g → Interleaved other txs polls → Interleaved other txs (⟨some g, false⟩ :: polls)

/-- A frame of another source or type, or of another transfer. -/
def Foreign (first g : CanFrame) : Prop :=
  g.address ≠ first.address ∨ g.tail.transfer_id ≠ first.tail.transfer_id

/-! ### The way through the receiver -/

theorem run_returned {sig : UInt16} {in_out : UInt32} {r : Received} (polls : List Poll) :
    Trace.run (RxLoop.step sig in_out) (.returned r) polls = .returned r :=
  List.foldl_fixed' (fun _ => rfl) polls

section Receive

variable {sig : UInt16} {in_out : UInt32} {s : Rx} {first f : CanFrame} {toggle : Bool}
  {bytes : List UInt8}

theorem Started.accepts_of (h : Started in_out first toggle bytes s) (hsot : f.tail.sot = false)
    (htoggle : f.tail.toggle = toggle) (htid : f.tail.transfer_id = first.tail.transfer_id)
    (haddress : f.address = first.address) : s.accepts f = true := by
  rw [accepts_iff]
  refine ⟨fun hbad => absurd (hsot.symm.trans hbad.1) Bool.false_ne_true, agree_iff.mpr ?_, ?_⟩
  · rw [h.masks]
    exact haddress.trans h.address.symm
  · rw [h.masks]
    simp [TailMask.differ, hsot, h.sot, htoggle, h.toggle, htid, h.transfer_id]

theorem Started.not_accepts (h : Started in_out first toggle bytes s) (hf : Foreign first f) :
    s.accepts f = false := by
  by_contra haccepts
  obtain ⟨-, -, htid, haddress⟩ := h.accepts (Bool.not_eq_false _ ▸ haccepts)
  exact hf.elim (absurd haddress) (absurd htid)

variable (sig) in
theorem Started.step {id : UInt32} (hid : id &&& 0xffffff = first.address) {data : List UInt8}
    {eot : Bool} (h : Started in_out first toggle bytes s)
    (hcarries : Carries ⟨id, data ++ [Tail.toByte ⟨first.tail.transfer_id, toggle, eot, false⟩]⟩ f)
    (hle : data.length ≤ 7) (hroom : bytes.length + data.length ≤ in_out.toNat) :
    ((RxLoop.running s).step sig in_out ⟨some f, false⟩ =
      let s' := (s.ready in_out).copyFrame f in_out
      if eot then .returned (s'.finish f sig) else .running s') ∧
      Holds in_out ((s.ready in_out).copyFrame f in_out) (bytes ++ data) ∧
      f.tail.sot = false := by
  have htail := hcarries.tail hle
  have hlength := hcarries.length_eq
  have hindex : Rx.payloadIndex f = 0 := by rw [Rx.payloadIndex, htail]; rfl
  have haccepts : s.accepts f = true := by
    refine h.accepts_of ?_ ?_ ?_ ((congrArg (· &&& 0xffffff) hcarries.message_id).trans hid)
    all_goals rw [htail]
  obtain ⟨hreceive, hholds⟩ := h.receive_eq sig haccepts false (by omega) (by omega) (by
    rw [h.holds.total, hindex, hlength]
    exact hroom)
  rw [hcarries.payload] at hholds
  refine ⟨?_, hholds, by rw [htail]⟩
  unfold RxLoop.step
  dsimp only
  rw [if_pos haccepts, hreceive, htail]
  rfl

theorem Started.run {id : UInt32} (hid : id &&& 0xffffff = first.address) {txs : List TxFrame}
    {polls : List Poll} (hpolls : Interleaved (Foreign first) txs polls) :
    ∀ {s : Rx} {toggle : Bool} {bytes rest : List UInt8}, Started in_out first toggle bytes s →
      rest ≠ [] → txs = segments id first.tail.transfer_id toggle false rest →
      bytes.length + rest.length ≤ in_out.toNat →
      first.crc = crc16Signature sig (bytes ++ rest) →
      Trace.run (RxLoop.step sig in_out) (.running s) polls =
        .returned ⟨.UavcanOk, bytes ++ rest⟩ := by
  induction hpolls with
  | done =>
    intro s toggle bytes rest _ _ htxs
    rw [segments] at htxs
    split_ifs at htxs
  | none _ ih => exact fun hs => ih hs
  | @other _ g polls hg _ ih =>
    intro s toggle bytes rest hs
    rw [Trace.run_cons]
    unfold RxLoop.step
    dsimp only
    rw [hs.not_accepts hg, if_neg Bool.false_ne_true]
    exact ih hs
  | @own tx txs f polls hcarries _ ih =>
    intro s toggle bytes rest hs hne htxs hroom hcrc
    rw [Trace.run_cons]
    by_cases hlong : MaxUserPayloadLength < rest.length
    · rw [segments, if_pos hlong] at htxs
      obtain ⟨htx, hrest⟩ := List.cons.inj htxs
      subst htx
      have hlength : (rest.take MaxUserPayloadLength).length = MaxUserPayloadLength :=
        List.length_take_of_le (Nat.le_of_lt hlong)
      have hdrop : (rest.drop MaxUserPayloadLength).length = rest.length - MaxUserPayloadLength :=
        List.length_drop
      have hpayload : MaxUserPayloadLength = 7 := rfl
      obtain ⟨hstep, hholds, -⟩ := hs.step sig hid hcarries (by omega) (by omega)
      have hs' := hs.next_of_room (by rw [hs.holds.total]; omega) hholds
      have hne' : rest.drop MaxUserPayloadLength ≠ [] :=
        List.ne_nil_of_length_pos (by omega)
      rw [hstep]
      dsimp only
      rw [if_neg Bool.false_ne_true, ih hs' hne' hrest ?_ ?_, List.append_assoc,
        List.take_append_drop]
      · rw [List.length_append]
        omega
      · rw [List.append_assoc, List.take_append_drop]
        exact hcrc
    · rw [segments, if_neg hlong] at htxs
      obtain ⟨rfl, -⟩ := List.cons.inj htxs
      obtain ⟨hstep, hholds, hsot⟩ := hs.step sig hid hcarries (Nat.not_lt.mp hlong) hroom
      rw [hstep, if_pos rfl, hs.finish hsot hholds, if_pos hcrc]
      exact run_returned polls

theorem Expects.accepts_of {start : Rx} (h : Expects start) (hsot : f.tail.sot = true)
    (htoggle : f.tail.toggle = false) (hid : start.addressed f) : start.accepts f = true := by
  rw [accepts_iff]
  refine ⟨fun hbad => absurd (htoggle.symm.trans hbad.2) Bool.false_ne_true, hid, ?_⟩
  rw [h.masks]
  simp [initialMasks, TailMask.differ, hsot, h.sot, htoggle, h.toggle]

theorem makeUint16_toUInt8 (c : UInt16) : makeUint16 c.toUInt8 (c >>> 8).toUInt8 = c := by
  have hlt := c.toNat_lt
  have hor := Nat.shiftLeft_add_eq_or_of_lt (Nat.mod_lt c.toNat (by decide : 2 ^ 8 > 0))
    (c.toNat / 2 ^ 8)
  have height : UInt16.toNat 8 % 16 = 8 := rfl
  have hhigh : (c.toNat / 2 ^ 8) <<< 8 < 2 ^ 16 := by
    rw [Nat.shiftLeft_eq]
    omega
  rw [← UInt16.toNat_inj]
  unfold makeUint16
  rw [UInt16.toNat_or, UInt16.toNat_shiftLeft, UInt8.toNat_toUInt16, UInt16.toNat_toUInt8,
    UInt16.toNat_shiftRight, UInt8.toNat_toUInt16, UInt16.toNat_toUInt8, height,
    Nat.shiftRight_eq_div_pow, Nat.mod_eq_of_lt (by omega : c.toNat / 2 ^ 8 < 2 ^ 8),
    Nat.mod_eq_of_lt hhigh, ← hor, Nat.shiftLeft_eq]
  omega

variable (sig in_out) in
theorem Expects.step {start : Rx} (h : Expects start) {id : UInt32} {tid : Fin 32}
    {data : List UInt8} {eot : Bool}
    (hcarries : Carries ⟨id, data ++ [Tail.toByte ⟨tid, false, eot, true⟩]⟩ f)
    (hid : start.addressed f) (hle : data.length ≤ 7) (hne : data ≠ [])
    (hcrc : eot = false → 2 < data.length)
    (hroom : (if eot then data else data.drop 2).length ≤ in_out.toNat) :
    ((RxLoop.running start).step sig in_out ⟨some f, false⟩ =
      let s' := ((start.startOfTransfer f).ready in_out).copyFrame f in_out
      if eot then .returned (s'.finish f sig) else .running s') ∧
      Holds in_out (((start.startOfTransfer f).ready in_out).copyFrame f in_out)
        (if eot then data else data.drop 2) := by
  have htail := hcarries.tail hle
  have hlength := hcarries.length_eq
  have hpos := List.length_pos_iff.mpr hne
  have haccepts : start.accepts f = true := h.accepts_of (by rw [htail]) (by rw [htail]) hid
  have hindex : Rx.payloadIndex f = if eot then 0 else 2 := by
    rw [Rx.payloadIndex, htail]
    cases eot <;> rfl
  have hlt : Rx.payloadIndex f < f.length := by
    rw [hindex]
    cases eot with
    | true => exact Nat.lt_of_lt_of_eq (Nat.succ_pos _) hlength.symm
    | false =>
      have hcrc := hcrc rfl
      exact show 2 < f.length by omega
  have hdata : f.payload.drop (Rx.payloadIndex f) = if eot then data else data.drop 2 := by
    rw [hcarries.payload, hindex]
    cases eot <;> rfl
  have hcount := congrArg List.length hdata
  rw [List.length_drop, hcarries.payload] at hcount
  obtain ⟨hreceive, hholds⟩ := h.receive_eq sig haccepts false hlt (by omega)
    (by omega : f.length - 1 - Rx.payloadIndex f ≤ in_out.toNat)
  rw [hdata] at hholds
  refine ⟨?_, hholds⟩
  unfold RxLoop.step
  dsimp only
  rw [if_pos haccepts, hreceive, htail]
  rfl

theorem Expects.run {start : Rx} (h : Expects start) {id : UInt32} {tid : Fin 32}
    {transfer : List UInt8} (hne : transfer ≠ []) (hroom : transfer.length ≤ in_out.toNat)
    {tx : TxFrame} {txs : List TxFrame} {polls : List Poll}
    (htxs : segments id tid false true (stream sig transfer) = tx :: txs) (hcarries : Carries tx f)
    (hid : start.addressed f) (hpolls : Interleaved (Foreign f) txs polls) :
    Trace.run (RxLoop.step sig in_out) (.running start) (⟨some f, false⟩ :: polls) =
      .returned ⟨.UavcanOk, transfer⟩ := by
  have hseven : MaxUserPayloadLength = 7 := rfl
  rw [Trace.run_cons]
  by_cases hlong : transfer.length > MaxUserPayloadLength
  · have hcut : stream sig transfer = (crc16Signature sig transfer).toUInt8 ::
        (crc16Signature sig transfer >>> 8).toUInt8 :: transfer := if_pos hlong
    have hmore : MaxUserPayloadLength < (stream sig transfer).length := by
      rw [hcut, List.length_cons, List.length_cons]
      omega
    rw [segments, if_pos hmore] at htxs
    obtain ⟨htx, hrest⟩ := List.cons.inj htxs
    subst htx
    have hlength : ((stream sig transfer).take MaxUserPayloadLength).length = 7 :=
      List.length_take_of_le (Nat.le_of_lt hmore)
    have hdata : ((stream sig transfer).take MaxUserPayloadLength).drop 2 = transfer.take 5 := by
      rw [hcut]
      rfl
    have htake : (transfer.take 5).length = 5 := List.length_take_of_le (by omega)
    obtain ⟨hstep, hholds⟩ := h.step sig in_out hcarries hid (by omega)
      (List.ne_nil_of_length_pos (by omega)) (by omega) (by
        rw [if_neg Bool.false_ne_true, hdata, htake]
        omega)
    have htail := hcarries.tail (by omega)
    have hflength := hcarries.length_eq
    have hs := (h.started hid (by rw [htail]) (by omega) (by omega)).next_of_room
      (Nat.lt_of_lt_of_le (List.length_pos_iff.mpr hne) hroom) hholds
    have hcrc : f.crc = crc16Signature sig transfer := by
      rw [CanFrame.crc, hcarries.payload, hcut]
      exact makeUint16_toUInt8 _
    have hrest' : (stream sig transfer).drop MaxUserPayloadLength = transfer.drop 5 := by
      rw [hcut]
      rfl
    have hdrop : (transfer.drop 5).length = transfer.length - 5 := List.length_drop
    rw [if_neg Bool.false_ne_true, hdata] at hs
    rw [hrest'] at hrest
    have hsum : (transfer.take 5).length + (transfer.drop 5).length ≤ in_out.toNat := by omega
    have hne' : transfer.drop 5 ≠ [] := List.ne_nil_of_length_pos (by omega)
    have hid' : id &&& 0xffffff = f.address :=
      (congrArg (· &&& 0xffffff) hcarries.message_id).symm
    rw [hstep]
    dsimp only
    rw [if_neg Bool.false_ne_true, hs.run hid' hpolls hne' (by rw [htail]; exact hrest.symm) hsum
      (by rw [List.take_append_drop, hcrc]), List.take_append_drop]
  · have hcut : stream sig transfer = transfer := if_neg hlong
    rw [hcut, segments, if_neg hlong] at htxs
    obtain ⟨htx, -⟩ := List.cons.inj htxs
    subst htx
    obtain ⟨hstep, hholds⟩ := h.step sig in_out hcarries hid (by omega) hne (by simp) hroom
    have htail := hcarries.tail (by omega)
    rw [hstep, if_pos rfl, finish_single (by rw [htail]) hholds, if_pos rfl]
    exact run_returned polls

end Receive

theorem expects_rxStart {node : Node} {dsdl : Dsdl} {protocol : Protocol}
    (h : dsdl ≠ .MsgLogMessage) : Expects (rxStart node dsdl protocol) where
  sot := by
    cases dsdl with
    | MsgLogMessage => exact absurd rfl h
    | _ => rfl
  toggle := rfl
  masks := rfl

theorem run_waits {sig : UInt16} {in_out : UInt32} {s : Rx} (waits : ℕ) :
    Trace.run (RxLoop.step sig in_out) (.running s) (List.replicate waits ⟨none, false⟩) =
      .running s := by
  induction waits with
  | zero => rfl
  | succ waits ih => exact ih

/-! ### Both ends -/

/-- A transfer for which there is room comes through, whoever sends it, when its first frame passes
the filter: between its frames there may be any others. -/
def Delivers (node : Node) (dsdl : Dsdl) : Prop :=
  ∀ (sender : Node) (sent protocol : Protocol) (transfer : List UInt8) (in_out : UInt32)
    (tx : TxFrame) (txs : List TxFrame) (f : CanFrame) (waits : ℕ) (polls : List Poll),
    transfer ≠ [] → transfer.length ≤ in_out.toNat →
    (uavcanTxDsdl sender dsdl sent transfer canTxOk).1 = tx :: txs → Carries tx f →
    (rxStart node dsdl protocol).addressed f → Interleaved (Foreign f) txs polls →
    uavcanRxDsdl node dsdl protocol in_out
      (List.replicate waits ⟨none, false⟩ ++ ⟨some f, false⟩ :: polls) =
        .returned ⟨.UavcanOk, transfer⟩

/-- What is returned as a transfer is one, made of frames that were looked at. -/
def Sound (node : Node) (dsdl : Dsdl) : Prop :=
  ∀ (protocol : Protocol) (in_out : UInt32) (polls : List Poll) (r : Received),
    Trace.Always (RxLoop.step (dsdlTable dsdl).signature_crc16 in_out) (Fits in_out)
      (.running (rxStart node dsdl protocol)) polls →
    uavcanRxDsdl node dsdl protocol in_out polls = .returned r → r.status = .UavcanOk →
    r.bytes.length ≤ in_out.toNat ∧ ∃ f fs, (f :: fs).Sublist (frames polls) ∧
      (rxStart node dsdl protocol).addressed f ∧
      IsTransfer (dsdlTable dsdl).signature_crc16 (f :: fs) r.bytes

theorem delivers {node : Node} {dsdl : Dsdl} (h : dsdl ≠ .MsgLogMessage) : Delivers node dsdl := by
  intro sender sent protocol transfer in_out tx txs f waits polls hne hroom htxs hcarries hid hpolls
  rw [uavcanTxDsdl_eq hne] at htxs
  unfold uavcanRxDsdl
  rw [Trace.run_append, run_waits]
  exact (expects_rxStart h).run hne hroom htxs hcarries hid hpolls

theorem sound {node : Node} {dsdl : Dsdl} (h : dsdl ≠ .MsgLogMessage) : Sound node dsdl := by
  intro protocol in_out polls r hfits hrun hok
  have hinv := run_inv (expects_rxStart h) polls hfits
  rw [uavcanRxDsdl] at hrun
  rw [hrun] at hinv
  cases hinv with
  | failed herror => exact absurd (hok.symm.trans herror) (by decide)
  | returned hsub hid htransfer hle => exact ⟨hle, _, _, hsub, hid, htransfer⟩

theorem not_delivers : ¬ Delivers ⟨0, 0⟩ .MsgLogMessage := by
  intro h
  let id := message 16383
  let t : Tail := ⟨0, false, true, true⟩
  have hlost := h ⟨0, 0⟩ ⟨0, ⟨0, false, false, false⟩⟩ ⟨0, ⟨0, false, false, false⟩⟩ [0] 1
    ⟨id, [0, t.toByte]⟩ [] ⟨id, 2, [0, t.toByte, 0, 0, 0, 0, 0, 0], 0, rfl⟩ 0 [] (by decide)
    (by decide) (by decide) ⟨rfl, rfl, rfl⟩ (by unfold Rx.addressed; decide) (.done [])
  exact absurd hlost (by decide)

/-- Every transfer that fits is delivered, and what is delivered is one, for all the data types that
are meant to be received. -/
theorem transfers_iff (dsdl : Dsdl) :
    (∀ node, Delivers node dsdl ∧ Sound node dsdl) ↔ dsdl ≠ .MsgLogMessage := by
  constructor
  · rintro h rfl
    exact not_delivers (h ⟨0, 0⟩).1
  · exact fun h node => ⟨delivers h, sound h⟩

def idleProtocol : Protocol := ⟨0, ⟨0, false, false, false⟩⟩

def frameOf (tx : TxFrame) : CanFrame :=
  ⟨tx.message_id, tx.data.length, (tx.data ++ List.replicate 8 0).take 8, 0, by simp⟩

def statusFrames : List TxFrame :=
  (uavcanTxDsdl ⟨0, 0⟩ .MsgNodeStatus idleProtocol [1, 2, 3, 4, 5, 6, 7, 8, 9] canTxOk).1

/-- A transfer in two frames, with a frame of another transfer between them. -/
theorem status_received : ∃ first second, statusFrames = [first, second] ∧
    uavcanRxDsdl ⟨0, 0⟩ .MsgNodeStatus idleProtocol 9
      [⟨none, false⟩, ⟨some (frameOf first), false⟩,
        ⟨some (frameOf ⟨first.message_id, [0, 1]⟩), false⟩, ⟨none, false⟩,
        ⟨some (frameOf second), false⟩] =
      .returned ⟨.UavcanOk, [1, 2, 3, 4, 5, 6, 7, 8, 9]⟩ := by
  obtain ⟨hdelivers, -⟩ := (transfers_iff .MsgNodeStatus).mpr (by decide) ⟨0, 0⟩
  refine ⟨_, _, rfl, ?_⟩
  refine hdelivers ⟨0, 0⟩ idleProtocol idleProtocol _ 9 _ _ _ 1 _ (by decide) (by decide) rfl
    ⟨rfl, rfl, rfl⟩
    (by unfold Rx.addressed; decide)
    (.other (.inr (by decide)) (.none (.own ⟨rfl, rfl, rfl⟩ (.done []))))

theorem IsTransfer.eq_single {sig : UInt16} {f : CanFrame} {bytes : List UInt8}
    (h : IsTransfer sig [f] bytes) : bytes = f.payload := by
  generalize hfs : [f] = fs at h
  cases h with
  | single f' => rw [(List.cons.inj hfs).1]
  | multi hchain =>
    obtain ⟨rest, rfl⟩ := hchain.eq_cons
    simp at hfs

/-- A log message is not delivered; and a frame that does not fit is reported as a transfer of no
bytes. -/
theorem log_message_lost :
    ¬ Delivers ⟨0, 0⟩ .MsgLogMessage ∧
      ∃ f : CanFrame, f.payload.length = 7 ∧
        uavcanRxDsdl ⟨0, 0⟩ .MsgNodeStatus ⟨0, ⟨0, false, false, false⟩⟩ 3 [⟨some f, false⟩] =
          .returned ⟨.UavcanOk, []⟩ ∧
        ¬ IsTransfer (dsdlTable .MsgNodeStatus).signature_crc16 [f] [] := by
  refine ⟨not_delivers, ⟨message 341, 8, [1, 2, 3, 4, 5, 6, 7, Tail.toByte ⟨0, false, true, true⟩],
    0, rfl⟩, rfl, by decide, fun htransfer => ?_⟩
  exact nomatch htransfer.eq_single

end Bootloader
