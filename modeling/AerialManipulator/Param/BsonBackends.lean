/-
The back ends of the BSON encoder agree.

The encoder writes to a file, to a file through a buffer, or to memory that grows.  The buffer is
written to the file when the next piece does not fit, so where a document is cut depends on the
sizes of all pieces before; memory grows by 128 bytes at a time.  The length, which stands first,
is written when the document is finished.

* **`encoders_agree`** — whatever calls are successful, and whatever the size of the buffer, all
  three end with the same bytes if no write falls short and the memory can grow; the length is
  the number of these bytes.
-/
import AerialManipulator.Param.BsonRoundTrip

open ByteStream

namespace Bson

/-- The encoder after the calls, and whether all of them were successful. -/
def Sink.appendAll (sink : Sink) (calls : List Call) : Encoder × Bool :=
  match sink.init with
  | (e, false) => (e, false)
  | (e, true) => e.callAll calls

theorem encode_eq (sink : Sink) (calls : List Call) :
    encode sink calls =
      match sink.appendAll calls with
      | (_, false) => none
      | (e, true) => if e.fini.2 then some e.fini.1.output else none := by
  unfold encode Sink.appendAll
  rcases sink.init with ⟨e, ok⟩
  cases ok with
  | false => rfl
  | true =>
    dsimp only
    rcases e.callAll calls with ⟨e₁, ok⟩
    cases ok with
    | false => rfl
    | true =>
      dsimp only
      rcases e₁.fini with ⟨e₂, ok⟩
      cases ok <;> rfl

namespace Encoder

theorem grow_isSome {heap need : ℕ} (hheap : need + bufIncrement ≤ heap) {fuel bufsize : ℕ}
    (hfuel : need ≤ bufsize + fuel) : (grow heap need (fuel + 1) bufsize).isSome := by
  induction fuel generalizing bufsize with
  | zero =>
    rw [grow, if_neg (by omega)]
    rfl
  | succ fuel ih =>
    rw [grow]
    split
    · rw [if_neg (by omega)]
      exact ih (by unfold bufIncrement; omega)
    · rfl

/-- An encoder that is not dead, with the bytes that it has been given.  No write to its file
falls short, and the file is as it was from the position on; a buffer before a file is not empty;
memory grows. -/
structure Smooth (old : List UInt8) (heap : ℕ) (e : Encoder) (doc : List UInt8) : Prop where
  holds : e.Holds doc
  dead : e.dead = false
  file : ∀ f, e.file = some f → f.limits = [] ∧ f.Behind old f.pos
  bufsize : ∀ f b, e.file = some f → e.buf = some b → 1 ≤ e.bufsize
  memory : e.file = none → e.realloc_ok = true ∧ e.heap = heap

variable {old : List UInt8} {heap : ℕ} {e : Encoder} {doc : List UInt8}

theorem Smooth.writeX (he : e.Smooth old heap doc) {p : List UInt8} (hok : (e.writeX p).2 = true) :
    (e.writeX p).1.Smooth old heap (doc ++ p) := by
  have hholds := he.holds.writeX hok
  obtain ⟨-, hdead, hkept, hsize, hmemory⟩ := he
  obtain ⟨-, ⟨f, hfile, hbuf, -, h⟩ | ⟨f, b, hfile, hbuf, -, hle, h⟩ |
    ⟨f, b, hfile, hbuf, -, h⟩ | ⟨hfile, bufsize, h⟩⟩ := writeX_cases hok
  all_goals
    rw [h] at hholds ⊢
    refine ⟨hholds, hdead, ?_, ?_, ?_⟩
  · rintro _ ⟨⟩
    obtain ⟨hlimits, hbehind⟩ := hkept f hfile
    exact ⟨(File.write_of_limits_nil hlimits p).2, hbehind.write p⟩
  · exact fun f b hf hb => hsize _ b hfile hb
  · exact fun hf => absurd hf (by simp)
  · rintro _ ⟨⟩
    obtain ⟨hlimits, hbehind⟩ := hkept f hfile
    exact ⟨(File.write_of_limits_nil hlimits b).2, hbehind.write b⟩
  · exact fun f b' hf hb => hsize _ b hfile hbuf
  · exact fun hf => absurd hf (by simp)
  · exact hkept
  · exact fun f b' hf hb => hsize _ b hfile hbuf
  · exact hmemory
  · exact hkept
  · exact fun f b hf hb => absurd (hfile.symm.trans hf) (by simp)
  · exact hmemory

theorem Smooth.writeX_ok (he : e.Smooth old heap doc) (hheap : doc.length + 1 + bufIncrement ≤ heap)
    (b : UInt8) : (e.writeX [b]).2 = true := by
  obtain ⟨hholds, hdead, hkept, hsize, hmemory⟩ := he
  unfold Encoder.writeX
  rw [if_neg (by rw [hdead]; simp)]
  cases hfile : e.file with
  | some f =>
    obtain ⟨hlimits, -⟩ := hkept f hfile
    cases hbuf : e.buf with
    | none =>
      dsimp only
      rw [if_pos (File.write_of_limits_nil hlimits [b]).1]
    | some c =>
      dsimp only
      split
      · have hroom : ¬ [b].length > e.bufsize := Nat.not_lt.mpr (hsize f c hfile hbuf)
        rw [if_pos (File.write_of_limits_nil hlimits c).1, if_neg hroom]
      · rfl
  | none =>
    obtain ⟨hrealloc, rfl⟩ := hmemory hfile
    have hdoc : e.buf.getD [] = doc := by
      obtain ⟨f, hf, -⟩ | ⟨f, c, sent, hf, -⟩ | ⟨-, hbuf⟩ := hholds
      · exact absurd (hfile.symm.trans hf) (by simp)
      · exact absurd (hfile.symm.trans hf) (by simp)
      · exact hbuf
    dsimp only
    rw [hdoc]
    split
    · have hgrow := grow_isSome hheap (Nat.le_add_left _ e.bufsize)
      obtain ⟨bufsize, hbufsize⟩ := Option.isSome_iff_exists.mp hgrow
      rw [List.length_singleton, hbufsize]
    · rfl

theorem Smooth.flush_ok (he : e.Smooth old heap doc) {f : File} (hfile : e.file = some f) :
    (e.flush f).2 = true ∧ ∃ f', (e.flush f).1.file = some f' ∧ f'.limits = [] ∧
      f'.Behind old f'.pos := by
  obtain ⟨hlimits, hbehind⟩ := he.file f hfile
  unfold Encoder.flush
  cases hbuf : e.buf with
  | none => exact ⟨rfl, f, hfile, hlimits, hbehind⟩
  | some b =>
    dsimp only
    split
    · obtain ⟨hall, hlimits⟩ := File.write_of_limits_nil hlimits b
      rw [if_pos hall]
      exact ⟨rfl, _, rfl, hlimits, hbehind.write b⟩
    · exact ⟨rfl, f, hfile, hlimits, hbehind⟩

theorem Smooth.fini_ok (he : e.Smooth old heap doc) (hlen : 4 ≤ doc.length)
    (hheap : doc.length + 1 + bufIncrement ≤ heap) :
    e.fini.2 = true ∧
      ∀ f, e.fini.1.file = some f →
        f.content.drop (doc.length + 1) = old.drop (doc.length + 1) := by
  have hok := he.writeX_ok hheap EOO
  have he₁ := he.writeX hok
  unfold Encoder.fini
  rw [if_neg (by rw [he.dead]; simp)]
  rcases hw : e.writeX [EOO] with ⟨e₁, ok⟩
  rw [hw] at hok he₁
  obtain rfl : ok = true := hok
  dsimp only at he₁ ⊢
  cases hfile : e₁.file with
  | none =>
    refine ⟨rfl, fun f hf => ?_⟩
    exact absurd hf (by simp)
  | some f =>
    obtain ⟨hflush, f', hf', hlimits, hbehind⟩ := he₁.flush_ok hfile
    obtain ⟨f'', hf'', hwrote, htotal⟩ := he₁.holds.flush hfile hflush
    obtain rfl := Option.some.inj (hf'.symm.trans hf'')
    dsimp only
    rcases hfl : e₁.flush f with ⟨e₂, ok⟩
    rw [hfl] at hflush hf' htotal
    obtain rfl : ok = true := hflush
    dsimp only at hf' htotal ⊢
    rw [hf', Option.getD_some]
    have hall := (File.write_of_limits_nil (f := f'.rewind) hlimits
      (int32Bytes e₂.total_document_size)).1
    rw [int32Bytes, length_littleEndian] at hall
    rw [int32Bytes, if_pos hall]
    refine ⟨rfl, ?_⟩
    rintro _ ⟨⟩
    -- the length is written over the first bytes of the document
    have hpos : f'.pos = doc.length + 1 := by
      rw [hwrote.2, List.length_append, List.length_singleton]
    rw [hpos] at hbehind
    refine (File.Behind.write_before (f := f'.rewind) hbehind ?_).2
    rw [length_littleEndian]
    change 0 + 4 ≤ doc.length + 1
    omega

theorem isSome_file_start (e : Encoder) : e.start.1.file.isSome = e.file.isSome := by
  unfold Encoder.start
  have hstep := e.isSome_file_writeX (int32Bytes 0)
  generalize e.writeX (int32Bytes 0) = out at hstep ⊢
  obtain ⟨e₁, ok⟩ := out
  cases ok <;> exact hstep

theorem Smooth.start (he : e.Smooth old heap []) (hok : e.start.2 = true) :
    e.start.1.Smooth old heap (int32Bytes 0) := by
  unfold Encoder.start at hok ⊢
  have hstep := he.writeX (p := int32Bytes 0)
  rcases hw : e.writeX (int32Bytes 0) with ⟨e₁, ok⟩
  rw [hw] at hok hstep
  cases ok with
  | false => exact absurd hok (by simp [kill])
  | true => exact hstep rfl

end Encoder

section Whole

variable {sink : Sink} {old : List UInt8} {heap : ℕ} {calls : List Call}

theorem length_document_eq (calls : List Call) :
    (document calls).length = (int32Bytes 0 ++ calls.flatMap Call.bytes).length + 1 := by
  rw [← document_eq]
  simp only [int32Bytes, List.length_append, List.length_drop, length_littleEndian,
    List.length_singleton]
  omega

theorem encode_of_smooth (hinit : sink.init.2 = true → sink.init.1.Smooth old heap (int32Bytes 0))
    (hok : (sink.appendAll calls).2 = true)
    (hheap : (document calls).length + bufIncrement ≤ heap) :
    ∃ rest, encode sink calls = some (document calls ++ rest) ∧
      (sink.init.1.file.isSome → rest = old.drop (document calls).length) ∧
      (sink.init.1.file = none → rest = []) := by
  rw [encode_eq]
  unfold Sink.appendAll at hok ⊢
  rcases hi : sink.init with ⟨e, ok⟩
  rw [hi] at hok hinit
  cases ok with
  | false => exact absurd hok (by simp)
  | true =>
    dsimp only at hok ⊢
    have hsome := e.isSome_file_callAll calls
    obtain ⟨he, -⟩ := Encoder.callAll_rule Encoder.Smooth.writeX (hinit rfl) calls hok
    rcases hc : e.callAll calls with ⟨e₁, ok⟩
    rw [hc] at hok hsome he
    obtain rfl : ok = true := hok
    dsimp only at he hsome ⊢
    rw [length_document_eq] at hheap
    have hlen : 4 ≤ (int32Bytes 0 ++ calls.flatMap Call.bytes).length := by
      rw [List.length_append, int32Bytes, length_littleEndian]
      omega
    obtain ⟨hfini, hbehind⟩ := he.fini_ok hlen hheap
    obtain ⟨rest, houtput, hnone⟩ := he.holds.fini hlen hfini
    have hfile := e₁.isSome_file_fini
    rw [hsome] at hfile
    rw [if_pos hfini, houtput, document_eq]
    refine ⟨rest, rfl, ?_, ?_⟩
    · intro hf
      obtain ⟨f, hf⟩ := Option.isSome_iff_exists.mp (hfile.trans hf)
      have hdrop := hbehind f hf
      rw [← length_document_eq] at hdrop
      rw [Encoder.output, hf] at houtput
      dsimp only at houtput
      rw [← hdrop, houtput, document_eq, List.drop_left]
    · intro hf
      rw [hf] at hfile
      exact hnone (Option.isNone_iff_eq_none.mp (by simpa using hfile))

theorem header_document (calls : List Call) :
    ofLittleEndian ((document calls).take 4) = (document calls).length % 2 ^ 32 := by
  have htake : (document calls).take 4 = int32Bytes (4 + (body calls).length) :=
    List.take_left' (length_littleEndian 4 _)
  rw [htake, int32Bytes, ofLittleEndian_littleEndian_mod, length_document]
  rfl

end Whole

section Start

variable (old : List UInt8) (bufsize heap : ℕ)

theorem smooth_file (hok : (Sink.file old []).init.2 = true) :
    (Sink.file old []).init.1.Smooth old heap (int32Bytes 0) := by
  refine Encoder.Smooth.start ⟨.inl ⟨_, rfl, rfl, File.wrote_nil rfl, rfl⟩, rfl, ?_, ?_, ?_⟩ hok
  · rintro _ ⟨⟩
    exact ⟨rfl, Nat.zero_le _, rfl⟩
  · exact fun f b _ hb => absurd hb (by simp)
  · exact fun hf => absurd hf (by simp)

theorem smooth_bufFile (hok : (Sink.bufFile old [] bufsize).init.2 = true) :
    (Sink.bufFile old [] bufsize).init.1.Smooth old heap (int32Bytes 0) := by
  refine Encoder.Smooth.start ⟨.inr (.inl ⟨_, [], [], rfl, rfl, File.wrote_nil rfl, rfl, rfl⟩),
    rfl, ?_, ?_, ?_⟩ hok
  · rintro _ ⟨⟩
    exact ⟨rfl, Nat.zero_le _, rfl⟩
  · -- the length does not fit into a buffer that is too small
    intro f b _ _
    change 1 ≤ bufsize
    by_contra hsize
    obtain rfl : bufsize = 0 := by omega
    exact Bool.false_ne_true hok
  · exact fun hf => absurd hf (by simp)

theorem smooth_buf (hok : (Sink.buf heap none).init.2 = true) :
    (Sink.buf heap none).init.1.Smooth [] heap (int32Bytes 0) := by
  refine Encoder.Smooth.start ⟨.inr (.inr ⟨rfl, rfl⟩), rfl, ?_, ?_, ?_⟩ hok
  · exact fun f hf => absurd hf (by simp)
  · exact fun f b hf => absurd hf (by simp)
  · exact fun _ => ⟨rfl, rfl⟩

end Start

/-- For every sequence of calls that append nodes and are successful with all three back ends,
whatever the size of the buffer and whatever was in the files before: if the files take what they
are given and the memory can grow to the size of the document, all three can be finished.  They
have produced the same bytes; a file that was longer keeps what is behind them.  The first four
bytes are their number. -/
theorem encoders_agree {calls : List Call} {old oldBuf : List UInt8} {bufsize heap : ℕ}
    (hfile : ((Sink.file old []).appendAll calls).2 = true)
    (hbufFile : ((Sink.bufFile oldBuf [] bufsize).appendAll calls).2 = true)
    (hbuf : ((Sink.buf heap none).appendAll calls).2 = true)
    (hheap : (document calls).length + bufIncrement ≤ heap) :
    ∃ bytes : List UInt8,
      encode (.file old []) calls = some (bytes ++ old.drop bytes.length) ∧
      encode (.bufFile oldBuf [] bufsize) calls = some (bytes ++ oldBuf.drop bytes.length) ∧
      encode (.buf heap none) calls = some bytes ∧
      ofLittleEndian (bytes.take 4) = bytes.length % 2 ^ 32 := by
  refine ⟨document calls, ?_, ?_, ?_, header_document calls⟩
  · obtain ⟨rest, hencode, hrest, -⟩ := encode_of_smooth (smooth_file old heap) hfile hheap
    rw [hencode, hrest rfl]
  · obtain ⟨rest, hencode, hrest, -⟩ :=
      encode_of_smooth (smooth_bufFile oldBuf bufsize heap) hbufFile hheap
    rw [hencode, hrest (Encoder.isSome_file_start _)]
  · obtain ⟨rest, hencode, -, hrest⟩ := encode_of_smooth (smooth_buf heap) hbuf hheap
    have hnone := Encoder.isSome_file_start ⟨none, none, 0, true, false, 0, heap⟩
    rw [hencode, hrest (Option.isSome_eq_false_iff.mp hnone |> Option.isNone_iff_eq_none.mp),
      List.append_nil]

/-- One node, through a buffer of four bytes and over an older and longer file. -/
theorem encoders_agree_bool :
    ∃ bytes : List UInt8,
      encode (.file [] []) [.bool (nameOf 1) true] = some (bytes ++ List.drop bytes.length []) ∧
      encode (.bufFile (List.replicate 12 7) [] 4) [.bool (nameOf 1) true] =
        some (bytes ++ (List.replicate 12 7).drop bytes.length) ∧
      encode (.buf 256 none) [.bool (nameOf 1) true] = some bytes ∧
      ofLittleEndian (bytes.take 4) = bytes.length % 2 ^ 32 :=
  encoders_agree rfl rfl rfl (by decide)

end Bson
