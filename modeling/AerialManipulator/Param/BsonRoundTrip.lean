/-
The round trip of the BSON coder.

Whatever is written to, a document that has been finished without an error consists of its
length, the bytes of the nodes one after the other, and the terminator.  The encoder takes names
of up to 32 bytes; the decoder has room for 32 bytes with the terminator.  The subtype of binary
data is read as a signed `char`.

* **`roundtrip_iff`** — the decoder, from memory or from a file, visits exactly the nodes that
  have been written, and ends without an error, exactly if no name has 32 bytes and, unless
  enumerations are short, no binary data is of the subtype `BSON_BIN_USER`;
* **`long_name_refused`** — the name that the encoder accepts and the decoder does not.
-/
import AerialManipulator.Param.TinyBson

open ByteStream

namespace Bson

/-! ### Documents -/

def Call.pieces : Call → List (List UInt8)
  | bool _ value => [[if value then 1 else 0]]
  | int _ value =>
    if value = value.toInt32.toInt64 then [int32Bytes value.toInt32.toUInt32.toNat]
    else [littleEndian 8 value.toUInt64.toNat]
  | double _ value => [littleEndian 8 value.toNat]
  | string _ value => [int32Bytes (value.1.length + 1), value.1 ++ [0]]
  | binary _ subtype data => [int32Bytes data.length, [subtype.code], data]

def Call.kind : Call → Kind
  | bool _ _ => .BOOL
  | int _ value => if value = value.toInt32.toInt64 then .INT32 else .INT64
  | double _ _ => .DOUBLE
  | string _ _ => .STRING
  | binary _ _ _ => .BINDATA

def Call.bytes (c : Call) : List UInt8 := c.kind.code :: (c.name.1 ++ 0 :: c.pieces.flatten)

def body (calls : List Call) : List UInt8 := calls.flatMap Call.bytes ++ [EOO]

def document (calls : List Call) : List UInt8 :=
  int32Bytes (4 + (body calls).length) ++ body calls

theorem Encoder.call_eq (e : Encoder) (c : Call) : e.call c = e.append c.kind c.name c.pieces := by
  cases c with
  | int name value =>
    unfold call appendInt Call.kind Call.pieces
    dsimp only
    split
    · rfl
    · rfl
  | _ => rfl

/-! ### Encoding -/

namespace Encoder

/-- What has been written: in the file, in the file and the buffer, or in the buffer. -/
def Holds (e : Encoder) (doc : List UInt8) : Prop :=
  (∃ f, e.file = some f ∧ e.buf = none ∧ f.Wrote doc ∧ e.total_document_size = doc.length) ∨
    (∃ f b sent, e.file = some f ∧ e.buf = some b ∧ f.Wrote sent ∧
      e.total_document_size = sent.length ∧ doc = sent ++ b) ∨
    (e.file = none ∧ e.buf.getD [] = doc)

/-- What a successful `write_x` does: the piece goes to the file, or to the buffer, which may have
to be written to the file first, or to memory. -/
theorem writeX_cases {e : Encoder} {p : List UInt8} (hok : (e.writeX p).2 = true) :
    e.dead = false ∧
      ((∃ f, e.file = some f ∧ e.buf = none ∧ (f.write p).2 = p.length ∧
        (e.writeX p).1 = { e with
          file := some (f.write p).1, total_document_size := e.total_document_size + p.length }) ∨
      (∃ f b, e.file = some f ∧ e.buf = some b ∧ (f.write b).2 = b.length ∧
        p.length ≤ e.bufsize ∧
        (e.writeX p).1 = { e with
          file := some (f.write b).1, buf := some p
          total_document_size := e.total_document_size + b.length }) ∨
      (∃ f b, e.file = some f ∧ e.buf = some b ∧ b.length + p.length ≤ e.bufsize ∧
        (e.writeX p).1 = { e with buf := some (b ++ p) }) ∨
      (e.file = none ∧ ∃ bufsize,
        (e.writeX p).1 = { e with buf := some (e.buf.getD [] ++ p), bufsize := bufsize })) := by
  unfold Encoder.writeX at hok ⊢
  split at hok
  · exact absurd hok (by simp)
  · next hdead =>
    refine ⟨by simpa using hdead, ?_⟩
    rw [if_neg hdead]
    split at hok
    · next f hfile hbuf =>
      dsimp only at hok ⊢
      split at hok
      · next hall =>
        rw [hfile, hbuf]
        rw [if_pos hall]
        exact .inl ⟨f, rfl, rfl, hall, by rw [hall]⟩
      · exact absurd hok (by simp)
    · next f b hfile hbuf =>
      rw [hfile, hbuf]
      dsimp only at hok ⊢
      split at hok
      · next hfull =>
        rw [if_pos hfull]
        split at hok
        · next hall =>
          rw [if_pos hall]
          split at hok
          · exact absurd hok (by simp [kill])
          · next hroom =>
            rw [if_neg hroom]
            exact .inr (.inl ⟨f, b, rfl, rfl, hall, Nat.not_lt.mp hroom, by rw [hall]⟩)
        · exact absurd hok (by simp [kill])
      · next hroom =>
        rw [if_neg hroom]
        exact .inr (.inr (.inl ⟨f, b, rfl, rfl, Nat.not_lt.mp hroom, rfl⟩))
    · next hfile =>
      rw [hfile]
      refine .inr (.inr (.inr ⟨rfl, ?_⟩))
      dsimp only at hok ⊢
      split at hok
      · next hfull =>
        rw [if_pos hfull]
        split at hok
        · next hrealloc =>
          rw [if_pos hrealloc]
          split at hok
          · exact ⟨_, rfl⟩
          · exact absurd hok (by simp [kill])
        · exact absurd hok (by simp [kill])
      · next hroom =>
        rw [if_neg hroom]
        exact ⟨e.bufsize, rfl⟩

theorem Holds.writeX {e : Encoder} {doc : List UInt8} (he : e.Holds doc) {p : List UInt8}
    (hok : (e.writeX p).2 = true) : (e.writeX p).1.Holds (doc ++ p) := by
  obtain ⟨-, ⟨f, hfile, hbuf, hall, h⟩ | ⟨f, b, hfile, hbuf, hall, -, h⟩ |
    ⟨f, b, hfile, hbuf, -, h⟩ | ⟨hfile, bufsize, h⟩⟩ := writeX_cases hok
  all_goals
    rw [h]
    unfold Holds at he ⊢
    rw [hfile] at he
    dsimp only at he ⊢
  · obtain ⟨f', hf, -, hwrote, htotal⟩ | ⟨f', b, sent, -, hb, -⟩ | ⟨hf, -⟩ := he
    · obtain rfl := Option.some.inj hf
      refine .inl ⟨_, rfl, hbuf, hwrote.write hall, ?_⟩
      rw [List.length_append, htotal]
    · exact absurd (hbuf.symm.trans hb) (by simp)
    · exact absurd hf (by simp)
  · obtain ⟨f', -, hb, -⟩ | ⟨f', b', sent, hf, hb, hwrote, htotal, rfl⟩ | ⟨hf, -⟩ := he
    · exact absurd (hbuf.symm.trans hb) (by simp)
    · obtain rfl := Option.some.inj hf
      obtain rfl := Option.some.inj (hbuf.symm.trans hb)
      refine .inr (.inl ⟨_, p, sent ++ b, rfl, rfl, hwrote.write hall, ?_, rfl⟩)
      rw [List.length_append, htotal]
    · exact absurd hf (by simp)
  · obtain ⟨f', -, hb, -⟩ | ⟨f', b', sent, hf, hb, hwrote, htotal, rfl⟩ | ⟨hf, -⟩ := he
    · exact absurd (hbuf.symm.trans hb) (by simp)
    · obtain rfl := Option.some.inj hf
      obtain rfl := Option.some.inj (hbuf.symm.trans hb)
      exact .inr (.inl ⟨f, b ++ p, sent, hfile, rfl, hwrote, htotal, List.append_assoc _ _ _⟩)
    · exact absurd hf (by simp)
  · obtain ⟨f', hf, -⟩ | ⟨f', b, sent, hf, -⟩ | ⟨-, hb⟩ := he
    · exact absurd hf (by simp)
    · exact absurd hf (by simp)
    · exact .inr (.inr ⟨hfile, by rw [Option.getD_some, hb]⟩)

def callAll : Encoder → List Call → Encoder × Bool
  | e, [] => (e, true)
  | e, c :: cs =>
    match e.call c with
    | (e, false) => (e, false)
    | (e, true) => callAll e cs

/-! What holds of an encoder and the bytes that it has been given, and is kept by `write_x`, is
kept by all calls that are successful. -/

section Rule

variable {R : Encoder → List UInt8 → Prop}
  (hR : ∀ {e : Encoder} {doc : List UInt8}, R e doc → ∀ {p : List UInt8},
    (e.writeX p).2 = true → R (e.writeX p).1 (doc ++ p))
include hR

theorem writeAll_rule {e : Encoder} {doc : List UInt8} (he : R e doc) (ps : List (List UInt8))
    (hok : (e.writeAll ps).2 = true) : R (e.writeAll ps).1 (doc ++ ps.flatten) := by
  induction ps generalizing e doc with
  | nil => simpa [Encoder.writeAll] using he
  | cons p ps ih =>
    rw [Encoder.writeAll] at hok ⊢
    have hstep := hR he (p := p)
    rcases hw : e.writeX p with ⟨e₁, ok⟩
    rw [hw] at hok hstep
    cases ok with
    | false => exact absurd hok (by simp)
    | true =>
      rw [List.flatten_cons, ← List.append_assoc]
      exact ih (hstep rfl) hok

theorem call_rule {e : Encoder} {doc : List UInt8} (he : R e doc) {c : Call}
    (hok : (e.call c).2 = true) :
    R (e.call c).1 (doc ++ c.bytes) ∧ c.name.1.length ≤ maxName := by
  rw [call_eq] at hok ⊢
  unfold append at hok ⊢
  split at hok
  · exact absurd hok (by simp)
  · next hdead =>
    rw [if_neg hdead]
    have htype := hR he (p := [c.kind.code])
    rcases hw : e.writeX [c.kind.code] with ⟨e₁, ok⟩
    rw [hw] at hok htype
    cases ok with
    | false => exact absurd hok (by simp [kill])
    | true =>
      have he₁ := htype rfl
      dsimp only at hok he₁ ⊢
      split at hok
      · exact absurd hok (by simp [kill])
      · next hname =>
        rw [if_neg hname]
        have hrest := writeAll_rule hR he₁ ((c.name.1 ++ [0]) :: c.pieces)
        rcases hw : e₁.writeAll ((c.name.1 ++ [0]) :: c.pieces) with ⟨e₂, ok⟩
        rw [hw] at hok hrest
        cases ok with
        | false => exact absurd hok (by simp [kill])
        | true =>
          refine ⟨?_, Nat.not_lt.mp hname⟩
          simpa [Call.bytes, List.append_assoc] using hrest rfl

theorem callAll_rule {e : Encoder} {doc : List UInt8} (he : R e doc) (cs : List Call)
    (hok : (e.callAll cs).2 = true) :
    R (e.callAll cs).1 (doc ++ cs.flatMap Call.bytes) ∧ ∀ c ∈ cs, c.name.1.length ≤ maxName := by
  induction cs generalizing e doc with
  | nil => exact ⟨by simpa [Encoder.callAll] using he, by simp⟩
  | cons c cs ih =>
    rw [Encoder.callAll] at hok ⊢
    have hstep := call_rule hR (c := c) he
    rcases hw : e.call c with ⟨e₁, ok⟩
    rw [hw] at hok hstep
    cases ok with
    | false => exact absurd hok (by simp)
    | true =>
      obtain ⟨he₁, hname⟩ := hstep rfl
      obtain ⟨he₂, hnames⟩ := ih he₁ hok
      rw [List.flatMap_cons, ← List.append_assoc]
      exact ⟨he₂, List.forall_mem_cons.mpr ⟨hname, hnames⟩⟩

end Rule

theorem Holds.flush {e : Encoder} {doc : List UInt8} (he : e.Holds doc) {f : File}
    (hfile : e.file = some f) (hok : (e.flush f).2 = true) :
    ∃ f', (e.flush f).1.file = some f' ∧ f'.Wrote doc ∧
      (e.flush f).1.total_document_size = doc.length := by
  unfold Encoder.flush at hok ⊢
  rcases he with ⟨f', hf', hbuf, hwrote, htotal⟩ | ⟨f', b, sent, hf', hbuf, hwrote, htotal, rfl⟩ |
    ⟨hnone, -⟩
  · rw [hbuf]
    exact ⟨f', hf', hwrote, htotal⟩
  · obtain rfl := Option.some.inj (hfile.symm.trans hf')
    rw [hbuf] at hok ⊢
    dsimp only at hok ⊢
    split at hok
    · next hne =>
      rw [if_pos hne]
      split at hok
      · next hall =>
        rw [if_pos hall]
        refine ⟨_, rfl, hwrote.write hall, ?_⟩
        rw [List.length_append, htotal]
        exact congrArg _ hall
      · exact absurd hok (by simp [kill])
    · next hnil =>
      rw [if_neg hnil]
      rw [not_not.mp hnil, List.append_nil]
      exact ⟨f, hfile, hwrote, htotal⟩
  · exact absurd (hnone.symm.trans hfile) (by simp)

/-- A document that has been finished: the length is put before what has been written.  In a
file, what was behind it is still there. -/
theorem Holds.fini {e : Encoder} {doc : List UInt8} (he : e.Holds doc) (hlen : 4 ≤ doc.length)
    (hok : e.fini.2 = true) :
    ∃ rest, e.fini.1.output = int32Bytes (doc.length + 1) ++ doc.drop 4 ++ [EOO] ++ rest ∧
      (e.fini.1.file = none → rest = []) := by
  unfold Encoder.fini at hok ⊢
  split at hok
  · exact absurd hok (by simp)
  · next hdead =>
    rw [if_neg hdead]
    have hstep := he.writeX (p := [EOO])
    rcases hw : e.writeX [EOO] with ⟨e₁, ok⟩
    rw [hw] at hok hstep
    cases ok with
    | false => exact absurd hok (by simp [kill])
    | true =>
      have he₁ := hstep rfl
      dsimp only at hok he₁ ⊢
      have hdrop : (doc ++ [EOO]).drop 4 = doc.drop 4 ++ [EOO] :=
        List.drop_append_of_le_length hlen
      cases hf : e₁.file with
      | none =>
        obtain ⟨f, hf', -⟩ | ⟨f, b, sent, hf', -⟩ | ⟨-, hbuf⟩ := he₁
        · exact absurd (hf.symm.trans hf') (by simp)
        · exact absurd (hf.symm.trans hf') (by simp)
        · refine ⟨[], ?_, fun _ => rfl⟩
          unfold output
          dsimp only
          rw [Option.getD_some, hbuf, hdrop, List.length_append, List.append_nil, List.append_assoc]
          rfl
      | some f =>
        have hflush := he₁.flush hf
        rw [hf] at hok
        dsimp only at hok ⊢
        rcases hw : e₁.flush f with ⟨e₂, ok⟩
        rw [hw] at hok hflush
        cases ok with
        | false => exact absurd hok (by simp)
        | true =>
          obtain ⟨f', hf', hwrote, htotal⟩ := hflush rfl
          dsimp only at hok hf' htotal ⊢
          rw [hf', Option.getD_some, htotal] at hok ⊢
          split at hok
          · next hall =>
            rw [if_pos hall]
            refine ⟨f'.content.drop (doc ++ [EOO]).length, ?_, fun hf => absurd hf (by simp)⟩
            have hle : (int32Bytes (doc ++ [EOO]).length).length ≤ (doc ++ [EOO]).length := by
              simp only [int32Bytes, length_littleEndian, List.length_append]
              omega
            have hcontent := File.content_overwrite hwrote hle
              (hall.trans (length_littleEndian 4 _).symm)
            unfold output
            dsimp only
            rw [hcontent, int32Bytes, length_littleEndian, hdrop, List.length_append,
              ← List.append_assoc]
            rfl
          · exact absurd hok (by simp [kill])

/-! What `write_x` keeps, and what is kept when the encoder dies, is kept by all calls. -/

section Invariant

variable {P : Encoder → Prop} (hwrite : ∀ e p, P e → P (e.writeX p).1)

include hwrite in
theorem writeAll_invariant {e : Encoder} (he : P e) (ps : List (List UInt8)) :
    P (e.writeAll ps).1 := by
  induction ps generalizing e with
  | nil => exact he
  | cons p ps ih =>
    rw [writeAll]
    have hstep := hwrite e p he
    generalize e.writeX p = out at hstep ⊢
    obtain ⟨e₁, ok⟩ := out
    cases ok with
    | false => exact hstep
    | true => exact ih hstep

variable (hkill : ∀ e, P e → P e.kill.1)
include hwrite hkill

theorem call_invariant {e : Encoder} (he : P e) (c : Call) : P (e.call c).1 := by
  rw [call_eq]
  unfold append
  split
  · exact he
  · have htype := hwrite e [c.kind.code] he
    generalize e.writeX [c.kind.code] = out at htype ⊢
    obtain ⟨e₁, ok⟩ := out
    cases ok with
    | false => exact hkill _ htype
    | true =>
      dsimp only
      split
      · exact hkill _ htype
      · have hrest := writeAll_invariant hwrite htype ((c.name.1 ++ [0]) :: c.pieces)
        generalize Encoder.writeAll _ _ = out at hrest ⊢
        obtain ⟨e₂, ok⟩ := out
        cases ok with
        | false => exact hkill _ hrest
        | true => exact hrest

theorem callAll_invariant {e : Encoder} (he : P e) (cs : List Call) : P (e.callAll cs).1 := by
  induction cs generalizing e with
  | nil => exact he
  | cons c cs ih =>
    rw [callAll]
    have hstep := call_invariant hwrite hkill he c
    generalize e.call c = out at hstep ⊢
    obtain ⟨e₁, ok⟩ := out
    cases ok with
    | false => exact hstep
    | true => exact ih hstep

end Invariant

/-! An encoder that writes to a file goes on writing to it. -/

theorem isSome_file_writeX (e : Encoder) (p : List UInt8) :
    (e.writeX p).1.file.isSome = e.file.isSome := by
  unfold writeX kill
  dsimp only
  repeat' split
  all_goals simp_all

theorem isSome_file_callAll (e : Encoder) (cs : List Call) :
    (e.callAll cs).1.file.isSome = e.file.isSome :=
  callAll_invariant (P := fun e' => e'.file.isSome = e.file.isSome)
    (fun e' p he' => (e'.isSome_file_writeX p).trans he') (fun _ he' => he') rfl cs

theorem isSome_file_flush {e : Encoder} {f : File} (hfile : e.file = some f) :
    (e.flush f).1.file.isSome := by
  unfold flush kill
  dsimp only
  repeat' split
  all_goals simp [hfile]

theorem isSome_file_fini (e : Encoder) : e.fini.1.file.isSome = e.file.isSome := by
  unfold fini kill
  split
  · rfl
  · have hstep := e.isSome_file_writeX [EOO]
    generalize e.writeX [EOO] = out at hstep ⊢
    obtain ⟨e₁, ok⟩ := out
    cases ok with
    | false => exact hstep
    | true =>
      rw [← hstep]
      dsimp only
      cases hfile : e₁.file with
      | none => rfl
      | some f =>
        have hflush := isSome_file_flush hfile
        dsimp only
        generalize e₁.flush f = out at hflush ⊢
        obtain ⟨e₂, ok⟩ := out
        cases ok with
        | false => exact hflush
        | true =>
          dsimp only
          split
          · rfl
          · rfl

end Encoder

/-- What a document is written to: a file, with a buffer or without, or a buffer in memory,
of some size or one that grows. -/
inductive Sink
  | file (content : List UInt8) (limits : List ℕ)
  | bufFile (content : List UInt8) (limits : List ℕ) (bufsize : ℕ)
  | buf (heap : ℕ) (bufsize : Option ℕ)

def Sink.init : Sink → Encoder × Bool
  | file content limits => Encoder.initFile ⟨content, 0, limits⟩
  | bufFile content limits bufsize => Encoder.initBufFile ⟨content, 0, limits⟩ bufsize
  | buf heap bufsize => Encoder.initBuf heap bufsize

def encode (sink : Sink) (calls : List Call) : Option (List UInt8) :=
  match sink.init with
  | (_, false) => none
  | (e, true) =>
    match e.callAll calls with
    | (_, false) => none
    | (e, true) =>
      match e.fini with
      | (_, false) => none
      | (e, true) => some e.output

theorem Encoder.Holds.start {e : Encoder} (he : e.Holds []) (hok : e.start.2 = true) :
    e.start.1.Holds (int32Bytes 0) := by
  unfold Encoder.start at hok ⊢
  have hstep := he.writeX (p := int32Bytes 0)
  rcases hw : e.writeX (int32Bytes 0) with ⟨e₁, ok⟩
  rw [hw] at hok hstep
  cases ok with
  | false => exact absurd hok (by simp [kill])
  | true => exact hstep rfl

theorem Sink.holds_init (sink : Sink) (hok : sink.init.2 = true) :
    sink.init.1.Holds (int32Bytes 0) := by
  cases sink with
  | file content limits =>
    exact Encoder.Holds.start (.inl ⟨_, rfl, rfl, File.wrote_nil rfl, rfl⟩) hok
  | bufFile content limits bufsize =>
    exact Encoder.Holds.start (.inr (.inl ⟨_, [], [], rfl, rfl, File.wrote_nil rfl, rfl, rfl⟩)) hok
  | buf heap bufsize =>
    cases bufsize with
    | none => exact Encoder.Holds.start (.inr (.inr ⟨rfl, rfl⟩)) hok
    | some n => exact Encoder.Holds.start (.inr (.inr ⟨rfl, rfl⟩)) hok

theorem document_eq (calls : List Call) :
    int32Bytes ((int32Bytes 0 ++ calls.flatMap Call.bytes).length + 1) ++
      (int32Bytes 0 ++ calls.flatMap Call.bytes).drop 4 ++ [EOO] = document calls := by
  rw [document, body, List.drop_append_of_le_length (by simp [int32Bytes])]
  simp only [int32Bytes, List.length_append, length_littleEndian, List.append_assoc,
    List.length_singleton, Nat.add_assoc]
  rfl

/-- What has been produced without an error is a document; no name is longer than 32 bytes. -/
theorem encode_spec {sink : Sink} {calls : List Call} {out : List UInt8}
    (hout : encode sink calls = some out) :
    (∃ rest, out = document calls ++ rest) ∧ ∀ c ∈ calls, c.name.1.length ≤ maxName := by
  unfold encode at hout
  have hinit := sink.holds_init
  rcases hi : sink.init with ⟨e, ok⟩
  rw [hi] at hout hinit
  cases ok with
  | false => exact absurd hout (by simp)
  | true =>
    have hcalls := Encoder.callAll_rule Encoder.Holds.writeX (hinit rfl) calls
    dsimp only at hout hcalls
    rcases hc : e.callAll calls with ⟨e₁, ok⟩
    rw [hc] at hout hcalls
    cases ok with
    | false => exact absurd hout (by simp)
    | true =>
      obtain ⟨he₁, hnames⟩ := hcalls rfl
      have hlen : 4 ≤ (int32Bytes 0 ++ calls.flatMap Call.bytes).length := by
        rw [List.length_append, int32Bytes, length_littleEndian]
        omega
      have hfini := he₁.fini hlen
      dsimp only at hout hfini
      rcases hf : e₁.fini with ⟨e₂, ok⟩
      rw [hf] at hout hfini
      cases ok with
      | false => exact absurd hout (by simp)
      | true =>
        obtain ⟨rest, houtput, -⟩ := hfini rfl
        obtain rfl := Option.some.inj hout
        refine ⟨⟨rest, ?_⟩, hnames⟩
        rw [houtput, document_eq]

/-! ### Decoding -/

namespace Decoder

/-- The bytes that a decoder has before it. -/
def At (d : Decoder) (rest : List UInt8) : Prop :=
  d.dead = false ∧
    match d.source with
    | .file f => f.content.drop f.pos = rest
    | .buffer buf bufsize bufpos =>
      (buf.take bufsize).drop bufpos = rest ∧ bufsize ≤ buf.length ∧ 0 < bufpos ∧ bufpos ≤ bufsize

variable {d : Decoder} {xs rest : List UInt8}

theorem At.readX (hd : d.At (xs ++ rest)) :
    ∃ source, d.readX xs.length = ({ d with source := source }, some xs) ∧
      At { d with source := source } rest := by
  obtain ⟨hdead, hsource⟩ := hd
  unfold Decoder.readX
  rw [if_neg (by rw [hdead]; simp)]
  cases hs : d.source with
  | file f =>
    rw [hs] at hsource
    have hread : f.read xs.length = ({ f with pos := f.pos + xs.length }, xs) := by
      unfold File.read
      rw [hsource, List.take_left]
    dsimp only at hsource ⊢
    rw [hread]
    refine ⟨.file { f with pos := f.pos + xs.length }, ?_, hdead, ?_⟩
    · rw [if_pos rfl]
    · dsimp only
      rw [← List.drop_drop, hsource, List.drop_left]
  | buffer buf bufsize bufpos =>
    rw [hs] at hsource
    obtain ⟨hdrop, hsize, hpos, hle⟩ := hsource
    have hlen : bufpos + (xs.length + rest.length) = bufsize := by
      have := congrArg List.length hdrop
      rw [List.length_drop, List.length_take, Nat.min_eq_left hsize, List.length_append] at this
      omega
    have hdata : (buf.drop bufpos).take xs.length = xs := by
      rw [List.drop_take] at hdrop
      have htake := congrArg (List.take xs.length) hdrop
      rwa [List.take_take, Nat.min_eq_left (by omega), List.take_left] at htake
    dsimp only
    rw [if_neg (by omega), if_neg (by omega), hdata]
    refine ⟨_, rfl, hdead, ?_, hsize, by omega, by omega⟩
    rw [← List.drop_drop, hdrop, List.drop_left]

theorem At.readOr {α : Type} (xs rest : List UInt8) (hd : d.At (xs ++ rest)) {s : ℕ}
    (hs : xs.length = s) (k : Decoder → List UInt8 → Decoder × Option α) :
    ∃ source, d.readOr s k = k { d with source := source } xs ∧
      At { d with source := source } rest := by
  obtain ⟨source, hread, hat⟩ := hd.readX
  refine ⟨source, ?_, hat⟩
  unfold Decoder.readOr
  rw [← hs, hread]

theorem At.readName {name : List UInt8} (hname : 0 ∉ name) {n : ℕ} (hlen : name.length < n)
    (acc : List UInt8) (hd : d.At (name ++ 0 :: rest)) :
    ∃ source, d.readName n acc = ({ d with source := source }, some (acc ++ name)) ∧
      At { d with source := source } rest := by
  induction name generalizing n acc d with
  | nil =>
    obtain ⟨n, rfl⟩ := Nat.exists_eq_succ_of_ne_zero (Nat.ne_of_gt hlen)
    obtain ⟨source, hread, hat⟩ := At.readOr [0] rest (s := 1) hd rfl fun d data =>
      if data = [0] then (d, some acc) else Decoder.readName d n (acc ++ data)
    refine ⟨source, ?_, hat⟩
    rw [Decoder.readName, hread, if_pos rfl, List.append_nil]
  | cons b name ih =>
    obtain ⟨hb, hname⟩ := not_or.mp (List.mem_cons.not.mp hname)
    obtain ⟨n, rfl⟩ := Nat.exists_eq_succ_of_ne_zero (Nat.ne_of_gt ((Nat.zero_le _).trans_lt hlen))
    obtain ⟨source, hread, hat⟩ := At.readOr [b] _ (s := 1) hd rfl fun d data =>
      if data = [0] then (d, some acc) else Decoder.readName d n (acc ++ data)
    obtain ⟨source', hread', hat'⟩ := ih hname (Nat.lt_of_succ_lt_succ hlen) (acc ++ [b]) hat
    refine ⟨source', ?_, hat'⟩
    have hne : ¬ [b] = [0] := fun h => hb (List.singleton_inj.mp h).symm
    rw [Decoder.readName, hread, if_neg hne, hread', List.append_assoc]
    rfl

theorem At.readName_long {name : List UInt8} (hname : 0 ∉ name) {n : ℕ} (hlen : n ≤ name.length)
    (acc : List UInt8) (hd : d.At (name ++ rest)) : (d.readName n acc).2 = none := by
  induction n generalizing name acc d with
  | zero => rfl
  | succ n ih =>
    cases name with
    | nil => exact absurd hlen (by simp)
    | cons b name =>
      obtain ⟨hb, hname⟩ := not_or.mp (List.mem_cons.not.mp hname)
      obtain ⟨source, hread, hat⟩ := At.readOr [b] _ (s := 1) hd rfl fun d data =>
        if data = [0] then (d, some acc) else Decoder.readName d n (acc ++ data)
      have hne : ¬ [b] = [0] := fun h => hb (List.singleton_inj.mp h).symm
      rw [Decoder.readName, hread, if_neg hne]
      exact ih hname (Nat.le_of_succ_le_succ hlen) (acc ++ [b]) hat

end Decoder

def Call.data : Call → List UInt8
  | string _ value => value.1 ++ [0]
  | binary _ _ data => data
  | _ => []

/-- The value that the callback gets; subtypes as the platform has them. -/
def Call.value (short_enums : Bool) : Call → Value
  | bool _ value => .bool value
  | int _ value => .int value
  | double _ value => .double value
  | string _ _ => .string
  | binary _ subtype _ => .bindata (Decoder.toSubtype short_enums subtype.code)

theorem ofLittleEndian_int32Bytes (x : UInt32) :
    UInt32.ofNat (ofLittleEndian (int32Bytes x.toNat)) = x := by
  rw [int32Bytes, ofLittleEndian_littleEndian x.toNat_lt, UInt32.ofNat_toNat]

theorem ofLittleEndian_int64Bytes (x : UInt64) :
    UInt64.ofNat (ofLittleEndian (littleEndian 8 x.toNat)) = x := by
  rw [ofLittleEndian_littleEndian x.toNat_lt, UInt64.ofNat_toNat]

theorem toInt32_int32Bytes {n : ℕ} (hn : n < 2 ^ 31) :
    (Decoder.toInt32 (int32Bytes n)).toInt = n := by
  have hnat : (UInt32.ofNat n).toNat = n := UInt32.toNat_ofNat_of_lt' (by unfold UInt32.size; omega)
  have hbytes := ofLittleEndian_int32Bytes (UInt32.ofNat n)
  rw [hnat] at hbytes
  rw [Decoder.toInt32, hbytes, toInt_toInt32 (by omega), hnat]

namespace Decoder

variable {d : Decoder} {rest : List UInt8}

theorem At.readValue (short_enums : Bool) (c : Call) (hd : d.At (c.pieces.flatten ++ rest))
    (hpending : d.pending = 0) (hlen : c.data.length < 2 ^ 31) :
    ∃ source pending, d.readValue short_enums c.kind =
        ({ d with source := source, pending := pending }, some (c.value short_enums)) ∧
      At { d with source := source, pending := pending } (c.data ++ rest) ∧
      pending.toInt = c.data.length := by
  cases c with
  | bool name value =>
    obtain ⟨source, hread, hat⟩ := At.readOr [if value then 1 else 0] rest (s := 1) hd rfl
      fun d data => (d, some (Value.bool (data ≠ [0])))
    refine ⟨source, 0, ?_, hat, rfl⟩
    rw [← hpending]
    refine hread.trans ?_
    cases value <;> rfl
  | int name value =>
    unfold Call.kind Call.pieces Call.value at *
    dsimp only at hd ⊢
    by_cases hint : value = value.toInt32.toInt64
    · rw [if_pos hint, List.flatten_singleton] at hd
      rw [if_pos hint]
      obtain ⟨source, hread, hat⟩ := hd.readOr _ rest (length_littleEndian 4 _)
        fun d data => (d, some (Value.int (toInt32 data).toInt64))
      refine ⟨source, 0, ?_, hat, rfl⟩
      rw [← hpending]
      refine hread.trans ?_
      rw [toInt32, ofLittleEndian_int32Bytes]
      exact congrArg (fun i => (_, some (Value.int i))) hint.symm
    · rw [if_neg hint, List.flatten_singleton] at hd
      rw [if_neg hint]
      obtain ⟨source, hread, hat⟩ := hd.readOr _ rest (length_littleEndian 8 _)
        fun d data => (d, some (Value.int (UInt64.ofNat (ofLittleEndian data)).toInt64))
      refine ⟨source, 0, ?_, hat, rfl⟩
      rw [← hpending]
      refine hread.trans ?_
      rw [ofLittleEndian_int64Bytes]
      rfl
  | double name value =>
    obtain ⟨source, hread, hat⟩ := At.readOr (littleEndian 8 value.toNat) rest
      (by simpa [Call.pieces] using hd) (length_littleEndian 8 _)
      fun d data => (d, some (Value.double (UInt64.ofNat (ofLittleEndian data))))
    refine ⟨source, 0, ?_, hat, rfl⟩
    rw [← hpending]
    refine hread.trans ?_
    rw [ofLittleEndian_int64Bytes]
    rfl
  | string name value =>
    obtain ⟨source, hread, hat⟩ := At.readOr (int32Bytes (value.1.length + 1))
      ((value.1 ++ [0]) ++ rest) (by simpa [Call.pieces] using hd) (length_littleEndian 4 _)
      fun d data => ({ d with pending := toInt32 data }, some Value.string)
    have hlen' : value.1.length + 1 < 2 ^ 31 := by simpa [Call.data] using hlen
    refine ⟨source, toInt32 (int32Bytes (value.1.length + 1)), hread, hat, ?_⟩
    rw [toInt32_int32Bytes hlen', Call.data, List.length_append]
    rfl
  | binary name subtype data =>
    obtain ⟨source, hread, hat⟩ := At.readOr (int32Bytes data.length)
      ([subtype.code] ++ (data ++ rest)) (by simpa [Call.pieces] using hd) (length_littleEndian 4 _)
      fun d data => { d with pending := toInt32 data }.readOr 1 fun d data =>
        (d, some (Value.bindata (toSubtype short_enums (data.headD 0))))
    have hat' : At { d with source := source, pending := toInt32 (int32Bytes data.length) }
        ([subtype.code] ++ (data ++ rest)) := hat
    obtain ⟨source', hread', hat''⟩ := hat'.readOr _ _ (s := 1) rfl
      fun d data => (d, some (Value.bindata (toSubtype short_enums (data.headD 0))))
    refine ⟨source', toInt32 (int32Bytes data.length), hread.trans hread', hat'', ?_⟩
    exact toInt32_int32Bytes hlen

theorem At.next_eq (short_enums : Bool) {b : UInt8} (hd : d.At (b :: rest))
    (htype : d.type ≠ .EOO) (hpending : d.pending = 0) :
    ∃ source, At { d with source := source } rest ∧ d.next short_enums =
      if b = EOO then ({ d with source := source, type := .EOO }, .eoo)
      else { d with source := source }.nextNode short_enums b := by
  have hdiscard : discard (0 : Int32).toInt.toNat d = (d, some ()) := by
    change ({ d with pending := 0 }, some ()) = (d, some ())
    rw [← hpending]
  obtain ⟨source, hread, hat⟩ := At.readOr [b] rest (s := 1) hd rfl
    fun d data => (d, some (data.headD 0))
  refine ⟨source, hat, ?_⟩
  unfold Decoder.next
  rw [if_neg (by rw [hd.1]; simp), if_neg (fun h => htype h.1)]
  dsimp only
  rw [if_neg htype, hpending, hdiscard]
  dsimp only
  rw [hread]
  dsimp only
  rw [List.headD_cons]

theorem At.next_node (short_enums : Bool) (c : Call) (hd : d.At (c.bytes ++ rest))
    (htype : d.type ≠ .EOO) (hpending : d.pending = 0) (hname : c.name.1.length < maxName)
    (hlen : c.data.length < 2 ^ 31) :
    ∃ source pending, d.next short_enums =
        ({ d with source := source, type := .node c.kind, pending := pending },
          .node ⟨c.name.1, c.kind, c.value short_enums⟩) ∧
      At { d with source := source, type := .node c.kind, pending := pending } (c.data ++ rest) ∧
      pending.toInt = c.data.length := by
  have hbytes : c.bytes ++ rest = c.kind.code :: (c.name.1 ++ 0 :: (c.pieces.flatten ++ rest)) := by
    simp [Call.bytes]
  rw [hbytes] at hd
  obtain ⟨source₁, hat₁, hnext⟩ := hd.next_eq short_enums htype hpending
  obtain ⟨source₂, hread₂, hat₂⟩ := hat₁.readName c.name.2 hname []
  have hat₂' : At { d with source := source₂, type := .node c.kind }
      (c.pieces.flatten ++ rest) := hat₂
  obtain ⟨source₃, pending, hread₃, hat₃, hdata⟩ := hat₂'.readValue short_enums c hpending hlen
  refine ⟨source₃, pending, ?_, hat₃, hdata⟩
  have hkind : Kind.ofCode c.kind.code = some c.kind := by
    cases c.kind <;> rfl
  rw [hnext, if_neg (by cases c.kind <;> decide), Decoder.nextNode, hread₂, hkind]
  dsimp only
  rw [hread₃]
  rfl

theorem At.next_long (short_enums : Bool) (c : Call) (hd : d.At (c.bytes ++ rest))
    (htype : d.type ≠ .EOO) (hpending : d.pending = 0) (hname : maxName ≤ c.name.1.length) :
    (d.next short_enums).2 = .error := by
  have hbytes : c.bytes ++ rest = c.kind.code :: (c.name.1 ++ 0 :: (c.pieces.flatten ++ rest)) := by
    simp [Call.bytes]
  rw [hbytes] at hd
  obtain ⟨source₁, hat₁, hnext⟩ := hd.next_eq short_enums htype hpending
  have hnone := hat₁.readName_long c.name.2 hname []
  rw [hnext, if_neg (by cases c.kind <;> decide), Decoder.nextNode]
  generalize Decoder.readName _ maxName [] = out at hnone ⊢
  obtain ⟨d₁, name⟩ := out
  dsimp only at hnone
  subst hnone
  rfl

theorem At.next_eoo (short_enums : Bool) (hd : d.At (EOO :: rest)) (htype : d.type ≠ .EOO)
    (hpending : d.pending = 0) (hnesting : d.nesting = 1) :
    ∃ d', d.next short_enums = (d', .eoo) ∧ (d'.next short_enums).2 = .done := by
  obtain ⟨source₁, hat₁, hnext⟩ := hd.next_eq short_enums htype hpending
  rw [if_pos rfl] at hnext
  refine ⟨_, hnext, ?_⟩
  unfold Decoder.next
  rw [if_neg (by rw [hd.1]; simp), if_pos ⟨rfl, by rw [hnesting]⟩]

theorem At.copyData (xs rest : List UInt8) (hd : d.At (xs ++ rest))
    (hpending : d.pending.toInt = xs.length) (hlen : xs.length < 2 ^ 31) :
    ∃ source, d.copyData = ({ d with source := source, pending := 0 }, some xs) ∧
      At { d with source := source, pending := 0 } rest := by
  have hsize : xs.length = (d.pending.toInt % 2 ^ 64).toNat := by
    rw [hpending]
    omega
  obtain ⟨source, hread, hat⟩ := hd.readOr _ _ hsize
    fun d data => ({ d with pending := 0 }, some data)
  refine ⟨source, ?_, hat⟩
  unfold Decoder.copyData
  rw [if_neg (by rw [hd.1]; simp), hread]

end Decoder

/-! ### The whole document -/

def Call.decoded (short_enums : Bool) (c : Call) : Visit :=
  ⟨⟨c.name.1, c.kind, c.value short_enums⟩, c.data⟩

def Call.visit : Call → Visit
  | binary name subtype data => ⟨⟨name.1, .BINDATA, .bindata subtype.code.toNat⟩, data⟩
  | c => c.decoded false

/-- The subtype is read as it has been written. -/
def Call.SubtypeKept (short_enums : Bool) : Call → Prop
  | binary _ subtype _ => subtype = .USER → short_enums = true
  | _ => True

theorem Call.decoded_eq_visit {short_enums : Bool} {c : Call} :
    c.decoded short_enums = c.visit ↔ c.SubtypeKept short_enums := by
  cases c with
  | binary name subtype data =>
    cases subtype <;> cases short_enums <;>
      simp [decoded, visit, SubtypeKept, kind, value, Call.name, Call.data] <;> decide
  | _ => exact iff_of_true rfl trivial

theorem Call.hasData_or (c : Call) :
    c.kind.hasData = true ∨ c.kind.hasData = false ∧ c.data = [] := by
  cases c with
  | bool name value => exact .inr ⟨rfl, rfl⟩
  | int name value =>
    refine .inr ⟨?_, rfl⟩
    unfold Call.kind
    dsimp only
    split
    · rfl
    · rfl
  | double name value => exact .inr ⟨rfl, rfl⟩
  | string name value => exact .inl rfl
  | binary name subtype data => exact .inl rfl

theorem visitAll_node {short_enums : Bool} {d : Decoder} {c : Call} {rest : List UInt8}
    (hd : d.At (c.bytes ++ rest)) (htype : d.type ≠ .EOO) (hpending : d.pending = 0)
    (hlen : c.data.length < 2 ^ 31) (hname : c.name.1.length < maxName) :
    ∃ d' : Decoder, d'.At rest ∧ d'.type ≠ .EOO ∧ d'.pending = 0 ∧ d'.nesting = d.nesting ∧
      ∀ fuel, visitAll short_enums (fuel + 1) d =
        (visitAll short_enums fuel d').map (c.decoded short_enums :: ·) := by
  obtain ⟨source, pending, hnext, hat, hdata⟩ :=
    hd.next_node short_enums c htype hpending hname hlen
  rcases c.hasData_or with hhas | ⟨hhas, hnil⟩
  · obtain ⟨source', hcopy, hat'⟩ := hat.copyData _ _ hdata hlen
    refine ⟨_, hat', by simp, rfl, rfl, fun fuel => ?_⟩
    rw [visitAll, hnext]
    dsimp only
    rw [if_pos hhas, hcopy]
    rfl
  · rw [hnil] at hat hdata
    have hzero : pending = 0 := Int32.toInt_inj.mp hdata
    refine ⟨_, hat, by simp, hzero, rfl, fun fuel => ?_⟩
    rw [visitAll, hnext]
    dsimp only
    rw [if_neg (by rw [hhas]; simp), Call.decoded, hnil]

theorem visitAll_eoo (short_enums : Bool) {d : Decoder} {rest : List UInt8}
    (hd : d.At (EOO :: rest)) (htype : d.type ≠ .EOO) (hpending : d.pending = 0)
    (hnesting : d.nesting = 1) :
    ∃ d' : Decoder, ∀ fuel, visitAll short_enums (fuel + 1) d = visitAll short_enums fuel d' ∧
      visitAll short_enums (fuel + 1) d' = some [] := by
  obtain ⟨d', hnext, hdone⟩ := hd.next_eoo short_enums htype hpending hnesting
  refine ⟨d', fun fuel => ⟨?_, ?_⟩⟩
  · rw [visitAll, hnext]
  · rw [visitAll]
    generalize d'.next short_enums = out at hdone ⊢
    obtain ⟨d₁, r⟩ := out
    dsimp only at hdone
    subst hdone
    rfl

theorem visitAll_complete {short_enums : Bool} {d : Decoder} {calls : List Call} {rest : List UInt8}
    (hd : d.At (body calls ++ rest)) (htype : d.type ≠ .EOO) (hpending : d.pending = 0)
    (hnesting : d.nesting = 1) (hlen : ∀ c ∈ calls, c.data.length < 2 ^ 31)
    (hnames : ∀ c ∈ calls, c.name.1.length < maxName) {fuel : ℕ} (hfuel : calls.length + 2 ≤ fuel) :
    visitAll short_enums fuel d = some (calls.map (Call.decoded short_enums)) := by
  induction calls generalizing d fuel with
  | nil =>
    obtain ⟨fuel, rfl⟩ := Nat.exists_eq_add_of_le' hfuel
    obtain ⟨d', hd'⟩ := visitAll_eoo short_enums hd htype hpending hnesting
    exact (hd' (fuel + 1)).1.trans (hd' fuel).2
  | cons c calls ih =>
    obtain ⟨hc, hlen⟩ := List.forall_mem_cons.mp hlen
    obtain ⟨hname, hnames⟩ := List.forall_mem_cons.mp hnames
    rw [body, List.flatMap_cons, List.append_assoc, List.append_assoc, ← List.append_assoc _ [EOO]]
      at hd
    obtain ⟨d', hat, htype', hpending', hnesting', hvisit⟩ :=
      visitAll_node hd htype hpending hc hname
    obtain ⟨fuel, rfl⟩ := Nat.exists_eq_succ_of_ne_zero
      (Nat.ne_of_gt ((Nat.zero_lt_succ _).trans_le hfuel))
    rw [hvisit, ih hat htype' hpending' (hnesting'.trans hnesting) hlen hnames
      (by rw [List.length_cons] at hfuel; omega)]
    rfl

/-- What is visited without an error are the nodes, and there was room for their names. -/
theorem visitAll_sound {short_enums : Bool} {d : Decoder} {calls : List Call} {rest : List UInt8}
    (hd : d.At (body calls ++ rest)) (htype : d.type ≠ .EOO) (hpending : d.pending = 0)
    (hnesting : d.nesting = 1) (hlen : ∀ c ∈ calls, c.data.length < 2 ^ 31) {fuel : ℕ}
    {vs : List Visit} (hvs : visitAll short_enums fuel d = some vs) :
    (∀ c ∈ calls, c.name.1.length < maxName) ∧ vs = calls.map (Call.decoded short_enums) := by
  induction calls generalizing d fuel vs with
  | nil =>
    refine ⟨by simp, ?_⟩
    obtain ⟨d', hd'⟩ := visitAll_eoo short_enums hd htype hpending hnesting
    cases fuel with
    | zero => exact absurd hvs (by simp [visitAll])
    | succ fuel =>
      rw [(hd' fuel).1] at hvs
      cases fuel with
      | zero => exact absurd hvs (by simp [visitAll])
      | succ fuel => exact Option.some.inj (hvs.symm.trans (hd' fuel).2)
  | cons c calls ih =>
    obtain ⟨hc, hlen⟩ := List.forall_mem_cons.mp hlen
    rw [body, List.flatMap_cons, List.append_assoc, List.append_assoc, ← List.append_assoc _ [EOO]]
      at hd
    cases fuel with
    | zero => exact absurd hvs (by simp [visitAll])
    | succ fuel =>
      by_cases hname : c.name.1.length < maxName
      · obtain ⟨d', hat, htype', hpending', hnesting', hvisit⟩ :=
          visitAll_node hd htype hpending hc hname
        rw [hvisit, Option.map_eq_some_iff] at hvs
        obtain ⟨vs', hvs', rfl⟩ := hvs
        obtain ⟨hnames, rfl⟩ := ih hat htype' hpending' (hnesting'.trans hnesting) hlen hvs'
        exact ⟨List.forall_mem_cons.mpr ⟨hname, hnames⟩, rfl⟩
      · have herror := hd.next_long short_enums c htype hpending (Nat.not_lt.mp hname)
        rw [visitAll] at hvs
        generalize d.next short_enums = out at herror hvs
        obtain ⟨d₁, r⟩ := out
        dsimp only at herror
        subst herror
        exact absurd hvs (by simp)

theorem length_data_le (c : Call) : c.data.length ≤ c.bytes.length := by
  have hpieces : c.data.length ≤ c.pieces.flatten.length := by
    cases c with
    | bool name value => exact Nat.zero_le _
    | int name value => exact Nat.zero_le _
    | double name value => exact Nat.zero_le _
    | string name value => simp [Call.data, Call.pieces]
    | binary name subtype data =>
      simp only [Call.data, Call.pieces, List.flatten_cons, List.length_append]
      omega
  rw [Call.bytes, List.length_cons, List.length_append, List.length_cons]
  omega

theorem length_data_lt {calls : List Call} {n : ℕ} (hlen : (body calls).length < n) :
    ∀ c ∈ calls, c.data.length < n := by
  intro c hc
  have hbytes : c.bytes.length ≤ (calls.flatMap Call.bytes).length :=
    (List.sublist_flatten_of_mem (List.mem_map_of_mem hc)).length_le
  have hdata := length_data_le c
  rw [body, List.length_append] at hlen
  omega

theorem take_document (calls : List Call) (rest : List UInt8) :
    (document calls ++ rest).take 4 = int32Bytes (4 + (body calls).length) := by
  rw [document, List.append_assoc]
  exact List.take_left' (length_littleEndian 4 _)

theorem length_document (calls : List Call) :
    (document calls).length = 4 + (body calls).length := by
  rw [document, List.length_append, int32Bytes, length_littleEndian]

theorem initBuf_spec (calls : List Call) (rest : List UInt8) (bufsize : ℕ) (hne : bufsize ≠ 0)
    (hdoc : (document calls).length ≤ bufsize) (hbuf : bufsize ≤ (document calls ++ rest).length)
    (hsize : bufsize < 2 ^ 31) :
    ∃ d, Decoder.initBuf (document calls ++ rest) bufsize = (d, some ()) ∧
      d.At (body calls ++ rest.take (bufsize - (document calls).length)) ∧
      d.type = .UNDEFINED ∧ d.pending = 0 ∧ d.nesting = 1 := by
  have hlen := length_document calls
  have hbody : 0 < (body calls).length := by
    rw [body, List.length_append]
    exact Nat.lt_add_left _ Nat.zero_lt_one
  refine ⟨⟨.buffer (document calls ++ rest) bufsize 4, false, 1, .UNDEFINED, 0⟩, ?_, ?_,
    rfl, rfl, rfl⟩
  · unfold Decoder.initBuf Decoder.readOr Decoder.readX
    dsimp only
    rw [if_neg hne, if_neg (by simp), if_neg (by omega), if_neg (by omega)]
    dsimp only
    rw [List.drop_zero, take_document, toInt32_int32Bytes (by omega),
      Int32.toInt_ofInt_of_le (by omega) (by omega), if_neg (by omega)]
  · refine ⟨rfl, ?_, hbuf, by decide, by omega⟩
    rw [List.take_append, List.take_of_length_le hdoc, document, List.append_assoc]
    exact List.drop_left' (length_littleEndian 4 _)

theorem initFile_spec (calls : List Call) (rest : List UInt8) (limits : List ℕ) :
    ∃ d, Decoder.initFile ⟨document calls ++ rest, 0, limits⟩ = (d, some ()) ∧
      d.At (body calls ++ rest) ∧ d.type = .UNDEFINED ∧ d.pending = 0 ∧ d.nesting = 1 := by
  have hat : Decoder.At ⟨.file ⟨document calls ++ rest, 0, limits⟩, false, 1, .UNDEFINED, 0⟩
      (int32Bytes (4 + (body calls).length) ++ (body calls ++ rest)) := by
    refine ⟨rfl, ?_⟩
    rw [document, List.append_assoc]
    rfl
  obtain ⟨source, hread, hat'⟩ := hat.readOr _ _ (length_littleEndian 4 _) fun d _ => (d, some ())
  exact ⟨_, hread, hat', rfl, rfl, rfl⟩

theorem Reader.init_spec (reader : Reader) {calls : List Call} {rest : List UInt8}
    (hsize : (document calls ++ rest).length < 2 ^ 31) :
    ∃ d rest', reader.init (document calls ++ rest) = (d, some ()) ∧ d.At (body calls ++ rest') ∧
      d.type = .UNDEFINED ∧ d.pending = 0 ∧ d.nesting = 1 := by
  have hlen := length_document calls
  rw [List.length_append] at hsize
  cases reader with
  | file =>
    obtain ⟨d, hinit, hd⟩ := initFile_spec calls rest []
    exact ⟨d, rest, hinit, hd⟩
  | buf auto =>
    cases auto with
    | false =>
      obtain ⟨d, hinit, hd⟩ := initBuf_spec calls rest
        (document calls ++ rest).length (by rw [List.length_append]; omega)
        (by rw [List.length_append]; omega) le_rfl (by rw [List.length_append]; omega)
      exact ⟨d, _, hinit, hd⟩
    | true =>
      obtain ⟨d, hinit, hd⟩ := initBuf_spec calls rest
        (document calls).length (by omega) le_rfl
        (by rw [List.length_append]; omega) (by omega)
      refine ⟨d, _, ?_, hd⟩
      have hauto : ofLittleEndian ((document calls ++ rest).take 4) = (document calls).length := by
        rw [take_document, int32Bytes, ofLittleEndian_littleEndian (by omega), hlen]
      rw [← hinit]
      unfold Reader.init Decoder.initBuf
      dsimp only
      rw [if_pos rfl, if_pos rfl, hauto, if_neg (by omega)]

section Whole

variable {sink : Sink} {calls : List Call} {bytes : List UInt8}
  (hbytes : encode sink calls = some bytes) (hsize : bytes.length < 2 ^ 31) (short_enums : Bool)
  (reader : Reader)
include hbytes hsize

theorem decode_eq : ∃ (d : Decoder) (rest : List UInt8),
    (∀ fuel, decode short_enums reader bytes fuel = visitAll short_enums fuel d) ∧
      d.At (body calls ++ rest) ∧ d.type ≠ .EOO ∧ d.pending = 0 ∧ d.nesting = 1 ∧
      ∀ c ∈ calls, c.data.length < 2 ^ 31 := by
  obtain ⟨⟨rest, rfl⟩, -⟩ := encode_spec hbytes
  obtain ⟨d, rest', hinit, hat, htype, hpending, hnesting⟩ := reader.init_spec hsize
  refine ⟨d, rest', fun fuel => ?_, hat, ?_, hpending, hnesting, ?_⟩
  · rw [decode, hinit]
  · rw [htype]
    decide
  · refine length_data_lt (lt_of_le_of_lt ?_ hsize)
    rw [document, List.append_assoc, List.length_append, List.length_append]
    omega

theorem decode_sound {fuel : ℕ} {vs : List Visit}
    (hvs : decode short_enums reader bytes fuel = some vs) :
    (∀ c ∈ calls, c.name.1.length < maxName) ∧ vs = calls.map (Call.decoded short_enums) := by
  obtain ⟨d, rest, hdecode, hat, htype, hpending, hnesting, hlen⟩ :=
    decode_eq hbytes hsize short_enums reader
  rw [hdecode] at hvs
  exact visitAll_sound hat htype hpending hnesting hlen hvs

theorem decode_complete (hnames : ∀ c ∈ calls, c.name.1.length < maxName) :
    decode short_enums reader bytes (calls.length + 2) =
      some (calls.map (Call.decoded short_enums)) := by
  obtain ⟨d, rest, hdecode, hat, htype, hpending, hnesting, hlen⟩ :=
    decode_eq hbytes hsize short_enums reader
  rw [hdecode]
  exact visitAll_complete hat htype hpending hnesting hlen hnames le_rfl

/-- For every sequence of calls that are all successful, wherever the document is written to and
wherever it is read from, as long as it is shorter than 2³¹ bytes: exactly the nodes that have
been written are visited, and then the stream ends without an error, exactly if all names have
less than 32 bytes and the subtypes of binary data are read as they were written. -/
theorem roundtrip_iff :
    (∃ fuel, decode short_enums reader bytes fuel = some (calls.map Call.visit)) ↔
      ∀ c ∈ calls, c.name.1.length < maxName ∧ c.SubtypeKept short_enums := by
  constructor
  · rintro ⟨fuel, hvisit⟩
    obtain ⟨hnames, hmap⟩ := decode_sound hbytes hsize short_enums reader hvisit
    intro c hc
    exact ⟨hnames c hc, Call.decoded_eq_visit.mp (List.map_inj_left.mp hmap.symm c hc)⟩
  · intro hcalls
    refine ⟨calls.length + 2, ?_⟩
    rw [decode_complete hbytes hsize short_enums reader fun c hc => (hcalls c hc).1,
      Option.some.injEq]
    exact List.map_inj_left.mpr fun c hc => Call.decoded_eq_visit.mpr (hcalls c hc).2

end Whole

def nameOf (n : ℕ) : CString := ⟨List.replicate n 97, by simp⟩

def severalCalls : List Call :=
  [.bool (nameOf 1) true, .int (nameOf 2) 5, .double (nameOf 0) 7, .string (nameOf 31) (nameOf 3),
    .binary (nameOf 3) .BINARY [0, 255]]

/-- A document with nodes of all types. -/
theorem nodes_visited : ∃ bytes, encode (.buf 256 none) severalCalls = some bytes ∧
    ∃ fuel, decode false .file bytes fuel = some (severalCalls.map Call.visit) := by
  have hsize : ∀ bytes ∈ encode (.buf 256 none) severalCalls, bytes.length < 2 ^ 31 := by
    decide +kernel
  obtain ⟨bytes, hbytes⟩ := Option.isSome_iff_exists.mp
    (show (encode (.buf 256 none) severalCalls).isSome from rfl)
  refine ⟨bytes, hbytes, (roundtrip_iff hbytes (hsize bytes hbytes) false .file).mpr ?_⟩
  simp [severalCalls, Call.SubtypeKept, Call.name, nameOf, maxName]

/-- A node with a name of 32 letters can be written to a buffer, but not read. -/
theorem long_name_refused :
    ¬ ∀ (sink : Sink) (calls : List Call) (bytes : List UInt8), encode sink calls = some bytes →
      bytes.length < 2 ^ 31 → ∀ (short_enums : Bool) (reader : Reader),
        ∃ fuel, decode short_enums reader bytes fuel = some (calls.map Call.visit) := by
  intro h
  have hbytes : encode (.buf 256 none) [.bool (nameOf 32) true] =
      some ([40, 0, 0, 0, 8] ++ List.replicate 32 97 ++ [0, 1, 0]) := by rfl
  have hsize : ([40, 0, 0, 0, 8] ++ List.replicate 32 97 ++ [0, 1, 0] : List UInt8).length <
      2 ^ 31 := by decide
  obtain ⟨fuel, hvisit⟩ := h _ _ _ hbytes hsize false .file
  have hname := (decode_sound hbytes hsize false .file hvisit).1 _ (List.mem_singleton_self _)
  exact nomatch hname

end Bson
