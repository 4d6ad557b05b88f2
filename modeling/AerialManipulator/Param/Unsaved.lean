/-
Which parameters are unsaved.

A parameter that is set is marked as unsaved.  The loop of `param_export` takes the mark of an
entry away before it is appended to the document, and the document is written to the file in
pieces, whenever the buffer is full.  If a write falls short then, the marks are gone all the
same.

* **`unsaved_iff`** — in every run of sets, exports and queries, parameters that have been changed
  since the last successful export are unsaved and failed exports leave all marks as they were,
  exactly if in no failed export the loop comes to an unsaved value that is to be written;
* **`mark_lost`** — a change that has not been saved and is not marked.
-/
import AerialManipulator.Param.Persistence

open ByteStream Bson SortedArray

/-! ### A buffer before a file -/

namespace Bson

/-- The size of the buffer of `param_export`. -/
def bufferSize : ℕ := 256

/-- Pieces of some sizes are put into the buffer, which is written to the file when there is no
room; the limits of the file that are left, and how full the buffer is then, unless a write falls
short. -/
def fillBuffer : List ℕ → ℕ → List ℕ → Option (List ℕ × ℕ)
  | limits, fill, [] => some (limits, fill)
  | limits, fill, n :: sizes =>
    if fill + n > bufferSize then
      if fill ≤ limits.headD fill then fillBuffer limits.tail n sizes else none
    else fillBuffer limits (fill + n) sizes

def Call.sizes (c : Call) : List ℕ := 1 :: (c.name.1.length + 1) :: c.pieces.map List.length

/-- A node without large data, with a name that is not too long. -/
structure Call.Small (c : Call) : Prop where
  name : c.name.1.length ≤ maxName
  pieces : ∀ p ∈ c.pieces, p.length ≤ bufferSize

theorem fillBuffer_append (limits : List ℕ) (fill : ℕ) (xs ys : List ℕ) :
    fillBuffer limits fill (xs ++ ys) =
      (fillBuffer limits fill xs).bind fun r => fillBuffer r.1 r.2 ys := by
  induction xs generalizing limits fill with
  | nil => rfl
  | cons n xs ih =>
    rw [List.cons_append, fillBuffer, fillBuffer]
    split
    · split
      · exact ih _ _
      · rfl
    · exact ih _ _

theorem fillBuffer_cons (limits : List ℕ) (fill n : ℕ) (sizes : List ℕ) :
    fillBuffer limits fill (n :: sizes) =
      (fillBuffer limits fill [n]).bind fun r => fillBuffer r.1 r.2 sizes :=
  fillBuffer_append limits fill [n] sizes

namespace Encoder

/-- The encoder writes to a file through a buffer of that size. -/
structure Buffered (e : Encoder) (limits : List ℕ) (fill : ℕ) : Prop where
  file : ∃ f, e.file = some f ∧ f.limits = limits
  buf : ∃ b, e.buf = some b ∧ b.length = fill
  bufsize : e.bufsize = bufferSize
  dead : e.dead = false

/-- What an operation of the encoder gives is what the sizes give. -/
def Outcome (r : Encoder × Bool) : Option (List ℕ × ℕ) → Prop
  | none => r.2 = false
  | some (limits, fill) => r.2 = true ∧ r.1.Buffered limits fill

variable {e : Encoder} {limits : List ℕ} {fill : ℕ}

theorem write_eq_length {f : File} {data : List UInt8} :
    (f.write data).2 = data.length ↔ data.length ≤ f.limits.headD data.length :=
  min_eq_left_iff

theorem Buffered.writeX (he : e.Buffered limits fill) {p : List UInt8}
    (hp : p.length ≤ bufferSize) :
    Outcome (e.writeX p) (fillBuffer limits fill [p.length]) := by
  obtain ⟨⟨f, hf, rfl⟩, ⟨b, hb, rfl⟩, hsize, hdead⟩ := he
  unfold Encoder.writeX
  rw [if_neg (by rw [hdead]; simp), hf, hb, hsize, fillBuffer]
  dsimp only
  split
  · next hfull =>
    by_cases hall : b.length ≤ f.limits.headD b.length
    · rw [if_pos (write_eq_length.mpr hall), if_pos hall, if_neg (Nat.not_lt.mpr hp)]
      exact ⟨rfl, ⟨_, rfl, rfl⟩, ⟨p, rfl, rfl⟩, rfl, hdead⟩
    · rw [if_neg (write_eq_length.not.mpr hall), if_neg hall]
      rfl
  · next hroom =>
    exact ⟨rfl, ⟨f, rfl, rfl⟩, ⟨b ++ p, rfl, List.length_append⟩, rfl, hdead⟩

theorem Buffered.writeAll (he : e.Buffered limits fill) (ps : List (List UInt8))
    (hps : ∀ p ∈ ps, p.length ≤ bufferSize) :
    Outcome (e.writeAll ps) (fillBuffer limits fill (ps.map List.length)) := by
  induction ps generalizing e limits fill with
  | nil => exact ⟨rfl, he⟩
  | cons p ps ih =>
    obtain ⟨hp, hps⟩ := List.forall_mem_cons.mp hps
    have hstep := he.writeX hp
    rw [List.map_cons, fillBuffer_cons, Encoder.writeAll]
    generalize e.writeX p = r at hstep ⊢
    generalize fillBuffer limits fill [p.length] = o at hstep ⊢
    obtain ⟨e₁, ok⟩ := r
    cases o with
    | none =>
      obtain rfl : ok = false := hstep
      rfl
    | some r =>
      obtain ⟨rfl, he₁⟩ : ok = true ∧ e₁.Buffered r.1 r.2 := hstep
      exact ih he₁ hps

theorem Buffered.call (he : e.Buffered limits fill) {c : Call} (hc : c.Small) :
    Outcome (e.call c) (fillBuffer limits fill c.sizes) := by
  have htype := he.writeX (p := [c.kind.code]) (Nat.le_of_ble_eq_true rfl)
  rw [call_eq, Call.sizes, fillBuffer_cons]
  unfold append
  rw [if_neg (by rw [he.dead]; simp)]
  generalize e.writeX [c.kind.code] = r at htype ⊢
  change Outcome r (fillBuffer limits fill [1]) at htype
  generalize fillBuffer limits fill [1] = o at htype ⊢
  obtain ⟨e₁, ok⟩ := r
  cases o with
  | none =>
    obtain rfl : ok = false := htype
    rfl
  | some r =>
    obtain ⟨rfl, he₁⟩ : ok = true ∧ e₁.Buffered r.1 r.2 := htype
    have hrest := he₁.writeAll ((c.name.1 ++ [0]) :: c.pieces) (by
      refine List.forall_mem_cons.mpr ⟨?_, hc.pieces⟩
      rw [List.length_append]
      exact (Nat.add_le_add_right hc.name 1).trans (by decide))
    dsimp only [Option.bind_some]
    rw [if_neg (Nat.not_lt.mpr hc.name)]
    rw [List.map_cons, List.length_append] at hrest
    change Outcome _ (fillBuffer r.1 r.2 ((c.name.1.length + 1) :: c.pieces.map List.length))
      at hrest
    generalize e₁.writeAll ((c.name.1 ++ [0]) :: c.pieces) = r₂ at hrest ⊢
    generalize fillBuffer r.1 r.2 ((c.name.1.length + 1) :: c.pieces.map List.length) = o
      at hrest ⊢
    obtain ⟨e₂, ok⟩ := r₂
    cases o with
    | none =>
      obtain rfl : ok = false := hrest
      rfl
    | some r =>
      obtain ⟨rfl, he₂⟩ : ok = true ∧ e₂.Buffered r.1 r.2 := hrest
      exact ⟨rfl, he₂⟩

theorem Buffered.callAll (he : e.Buffered limits fill) {cs : List Call} (hcs : ∀ c ∈ cs, c.Small) :
    Outcome (e.callAll cs) (fillBuffer limits fill (cs.flatMap Call.sizes)) := by
  induction cs generalizing e limits fill with
  | nil => exact ⟨rfl, he⟩
  | cons c cs ih =>
    obtain ⟨hc, hcs⟩ := List.forall_mem_cons.mp hcs
    have hstep := he.call hc
    rw [List.flatMap_cons, fillBuffer_append, Encoder.callAll]
    generalize e.call c = r at hstep ⊢
    generalize fillBuffer limits fill c.sizes = o at hstep ⊢
    obtain ⟨e₁, ok⟩ := r
    cases o with
    | none =>
      obtain rfl : ok = false := hstep
      rfl
    | some r =>
      obtain ⟨rfl, he₁⟩ : ok = true ∧ e₁.Buffered r.1 r.2 := hstep
      exact ih he₁ hcs

/-- At the end the rest of the buffer is written, and then the length of the document. -/
theorem Buffered.fini (he : e.Buffered limits fill) :
    e.fini.2 = (fillBuffer limits fill [1]).any fun r =>
      r.2 ≤ r.1.headD r.2 && 4 ≤ r.1.tail.headD 4 := by
  have hstep := he.writeX (p := [EOO]) (by decide)
  change Outcome _ (fillBuffer limits fill [1]) at hstep
  have hpos : ∀ r, fillBuffer limits fill [1] = some r → r.2 ≠ 0 := by
    intro r hr
    rw [fillBuffer] at hr
    split at hr
    · split at hr
      · obtain rfl := Option.some.inj hr
        exact Nat.one_ne_zero
      · exact absurd hr (by simp)
    · obtain rfl := Option.some.inj hr
      exact Nat.succ_ne_zero _
  unfold Encoder.fini
  rw [if_neg (by rw [he.dead]; simp)]
  generalize e.writeX [EOO] = r at hstep ⊢
  generalize fillBuffer limits fill [1] = o at hstep hpos ⊢
  obtain ⟨e₁, ok⟩ := r
  cases o with
  | none =>
    obtain rfl : ok = false := hstep
    rfl
  | some r =>
    obtain ⟨rfl, ⟨f, hf, hlimits⟩, ⟨b, hb, hlen⟩, -, -⟩ : ok = true ∧ e₁.Buffered r.1 r.2 := hstep
    have hne : b ≠ [] := by
      rintro rfl
      exact hpos r rfl hlen.symm
    have hlast : ∀ n, ((f.write b).1.rewind.write (int32Bytes n)).2 = 4 ↔
        4 ≤ f.limits.tail.headD 4 := by
      intro n
      have hwrite := @write_eq_length (f.write b).1.rewind (int32Bytes n)
      rw [int32Bytes, length_littleEndian] at hwrite
      exact hwrite
    rw [Option.any_some, ← hlimits, ← hlen]
    dsimp only
    rw [hf]
    dsimp only
    unfold Encoder.flush
    rw [hb]
    dsimp only
    rw [if_pos hne]
    by_cases hall : b.length ≤ f.limits.headD b.length
    · rw [if_pos (write_eq_length.mpr hall), decide_eq_true hall, Bool.true_and]
      dsimp only [Option.getD_some]
      by_cases hsize : 4 ≤ f.limits.tail.headD 4
      · rw [if_pos ((hlast _).mpr hsize), decide_eq_true hsize]
      · rw [if_neg ((hlast _).not.mpr hsize), decide_eq_false hsize]
        rfl
    · rw [if_neg (write_eq_length.not.mpr hall), decide_eq_false hall]
      rfl

end Encoder

end Bson

namespace Param

variable {F : Type} [Doubles F] {t : Table F}

/-! ### One export -/

/-- The sizes of the pieces that are put into the buffer for some entries. -/
def exportSizes (t : Table F) (skip : WBuf F → Bool) (bs : List (WBuf F)) : List ℕ :=
  (exportCalls t skip bs).flatMap Call.sizes

/-- The file takes all writes for pieces of some sizes: those of full buffers, that of the rest,
and that of the length. -/
def fileTakes (limits sizes : List ℕ) : Bool :=
  (fillBuffer limits 4 (sizes ++ [1])).any fun r => r.2 ≤ r.1.headD r.2 && 4 ≤ r.1.tail.headD 4

theorem small_of_mem_exportCalls (ht : t.Compiled) {skip : WBuf F → Bool} {bs : List (WBuf F)} :
    ∀ c ∈ exportCalls t skip bs, c.Small := by
  intro c hc
  obtain ⟨b, -, hb⟩ := List.mem_filterMap.mp hc
  unfold Store.exportCall at hb
  cases hname : t.paramName b.param with
  | none =>
    rw [hname] at hb
    exact absurd hb (by simp)
  | some name =>
    have hlen : (cString name).1.length ≤ maxName :=
      (List.takeWhile_prefix _).length_le.trans ((ht.short _ _ hname).trans (by decide))
    rw [hname] at hb
    cases hv : b.val with
    | int32 i =>
      rw [hv] at hb
      obtain rfl := Option.some.inj hb
      refine ⟨hlen, fun p hp => ?_⟩
      unfold Call.pieces at hp
      dsimp only at hp
      split at hp
      · rw [List.mem_singleton.mp hp, int32Bytes, length_littleEndian]
        decide
      · rw [List.mem_singleton.mp hp, length_littleEndian]
        decide
    | float x =>
      rw [hv] at hb
      obtain rfl := Option.some.inj hb
      refine ⟨hlen, fun p hp => ?_⟩
      rw [List.mem_singleton.mp hp, length_littleEndian]
      decide

theorem buffered_initBufFile (f : File) : (Encoder.initBufFile f 256).1.Buffered f.limits 4 :=
  ⟨⟨f, rfl, rfl⟩, ⟨_, rfl, rfl⟩, rfl, rfl⟩

theorem callAll_ok (f : File) {cs : List Call} (hcs : ∀ c ∈ cs, c.Small) :
    ((Encoder.initBufFile f 256).1.callAll cs).2 =
      (fillBuffer f.limits 4 (cs.flatMap Call.sizes)).isSome := by
  have hout := (buffered_initBufFile f).callAll hcs
  generalize fillBuffer f.limits 4 _ = o at hout ⊢
  cases o with
  | none => exact hout
  | some r => exact hout.1

theorem writeDocument_ok (f : File) {cs : List Call} (hcs : ∀ c ∈ cs, c.Small) :
    (writeDocument f cs).2 = fileTakes f.limits (cs.flatMap Call.sizes) := by
  have hout := (buffered_initBufFile f).callAll hcs
  unfold writeDocument fileTakes
  rw [fillBuffer_append]
  generalize (Encoder.initBufFile f 256).1.callAll cs = r at hout ⊢
  generalize fillBuffer f.limits 4 _ = o at hout ⊢
  obtain ⟨e, ok⟩ := r
  cases o with
  | none =>
    obtain rfl : ok = false := hout
    rfl
  | some r =>
    obtain ⟨rfl, he⟩ : ok = true ∧ e.Buffered r.1 r.2 := hout
    exact he.fini

theorem exportLoop_getElem (skip : WBuf F → Bool) (pre : List (WBuf F)) (b : WBuf F)
    (post : List (WBuf F)) (e : Encoder) :
    (Store.exportLoop t skip (pre ++ b :: post) e).1[pre.length]? =
      some (if skip b = false ∧ (e.callAll (exportCalls t skip pre)).2 = true then
        { b with unsaved := false } else b) := by
  induction pre generalizing e with
  | nil =>
    rw [List.nil_append, Store.exportLoop]
    cases hskip : skip b with
    | true => rfl
    | false =>
      rw [if_neg (by simp), if_pos ⟨rfl, rfl⟩]
      rcases Store.exportEntry t e b with ⟨e₁, ok⟩
      cases ok with
      | false => rfl
      | true => rfl
  | cons a pre ih =>
    rw [List.cons_append, Store.exportLoop]
    cases hskip : skip a with
    | true =>
      rw [if_pos rfl, exportCalls_skip hskip]
      exact ih e
    | false =>
      rw [if_neg (by simp), exportCalls_cons hskip, callAll_exportEntry]
      rcases Store.exportEntry t e a with ⟨e₁, ok⟩
      cases ok with
      | false =>
        rw [if_neg (c := skip b = false ∧ _) (by simp)]
        change (pre ++ b :: post)[pre.length]? = some b
        rw [List.getElem?_append_right le_rfl, Nat.sub_self]
        rfl
      | true => exact ih e₁

variable {s : Store F} {f : File} {only_unsaved : Bool} {filter : Option (Handle → Bool)}

omit [Doubles F] in
theorem valueUnsaved_eq (hs : s.changed.Ok) (p : Handle) :
    s.valueUnsaved p = ((s.changed.entry p).map WBuf.unsaved).getD false := by
  rw [Store.valueUnsaved, hs.find]

theorem values_paramExport : (s.paramExport t f only_unsaved filter).1.changed.values.getD [] =
    (Store.exportLoop t (s.skips t only_unsaved filter) (s.changed.values.getD [])
      (Encoder.initBufFile f 256).1).1 := by
  rw [paramExport_store]
  cases s.changed.values <;> rfl

theorem valueUnsaved_paramExport (ht : t.Compiled) (hs : s.changed.Ok) {pre post : List (WBuf F)}
    {b : WBuf F} (hbs : s.changed.values.getD [] = pre ++ b :: post) :
    (s.paramExport t f only_unsaved filter).1.valueUnsaved b.param =
      (b.unsaved && (s.skips t only_unsaved filter b || (fillBuffer f.limits 4
        (exportSizes t (s.skips t only_unsaved filter) pre)).isNone)) := by
  obtain ⟨hok, -⟩ :=
    paramExport_spec (t := t) f only_unsaved filter hs
  have hget := exportLoop_getElem (t := t) (s.skips t only_unsaved filter) pre b post
    (Encoder.initBufFile f 256).1
  rw [← hbs, ← values_paramExport, callAll_ok f (small_of_mem_exportCalls ht)] at hget
  have hentry := (lookup_eq_some hok.sorted).mpr ⟨List.mem_of_getElem? hget, rfl⟩
  have hparam : ∀ c : Prop, [Decidable c] →
      (if c then { b with unsaved := false } else b).param = b.param := by
    intro c _
    split
    · rfl
    · rfl
  rw [hparam] at hentry
  rw [valueUnsaved_eq hok, Layer.entry, hentry, exportSizes]
  generalize fillBuffer f.limits 4 _ = o
  cases s.skips t only_unsaved filter b <;> cases o <;> simp

/-- The export does no harm: the file takes all of it, or a write falls short before the loop
comes to an unsaved value that is to be written. -/
def Harmless (t : Table F) (s : Store F) (f : File) (only_unsaved : Bool)
    (filter : Option (Handle → Bool)) : Prop :=
  let bs := s.changed.values.getD []
  let skip := s.skips t only_unsaved filter
  fileTakes f.limits (exportSizes t skip bs) = true ∨
    ∀ pre b post, bs = pre ++ b :: post → b.unsaved = true → skip b = false →
      fillBuffer f.limits 4 (exportSizes t skip pre) = none

theorem failed_export_iff (ht : t.Compiled) (hs : s.changed.Ok) :
    ((s.paramExport t f only_unsaved filter).2.2 = false →
      ∀ p, (s.paramExport t f only_unsaved filter).1.valueUnsaved p = s.valueUnsaved p) ↔
    Harmless t s f only_unsaved filter := by
  have hresult : (s.paramExport t f only_unsaved filter).2.2 = fileTakes f.limits
      (exportSizes t (s.skips t only_unsaved filter) (s.changed.values.getD [])) := by
    rw [paramExport_file, writeDocument_ok f (small_of_mem_exportCalls ht)]
    rfl
  have hbefore : ∀ {pre b post}, s.changed.values.getD [] = pre ++ b :: post →
      s.valueUnsaved b.param = b.unsaved := by
    intro pre b post hbs
    have hentry : s.changed.entry b.param = some b :=
      (lookup_eq_some hs.sorted).mpr ⟨by rw [hbs]; simp, rfl⟩
    rw [valueUnsaved_eq hs, hentry]
    rfl
  rw [hresult]
  constructor
  · intro hkeeps
    cases hok : fileTakes f.limits _ with
    | true => exact .inl hok
    | false =>
      refine .inr fun pre b post hbs hunsaved hskip => ?_
      have hmark := hkeeps hok b.param
      rw [valueUnsaved_paramExport ht hs hbs, hbefore hbs, hunsaved, hskip] at hmark
      simpa using hmark
  · rintro (hok | hreach) hfail p
    · exact absurd (hok.symm.trans hfail) (by simp)
    · obtain ⟨hs', hrel⟩ :=
        paramExport_spec (t := t) f only_unsaved filter hs
      cases hentry : s.changed.entry p with
      | none =>
        have hnone := hrel p
        rw [hentry] at hnone
        rw [valueUnsaved_eq hs, valueUnsaved_eq hs', hentry]
        generalize Layer.entry _ p = b at hnone ⊢
        cases hnone with
        | none => rfl
      | some b =>
        obtain ⟨hmem, rfl⟩ := (lookup_eq_some hs.sorted).mp hentry
        obtain ⟨pre, post, hbs⟩ := List.append_of_mem hmem
        rw [valueUnsaved_paramExport ht hs hbs, hbefore hbs]
        cases hunsaved : b.unsaved with
        | false => rfl
        | true =>
          cases hskip : s.skips t only_unsaved filter b with
          | true => rfl
          | false =>
            rw [hreach pre b post hbs hunsaved hskip]
            rfl

/-! ### Runs -/

/-- What a program does: parameters are set, exported, and asked whether they are unsaved. -/
inductive Event (F : Type)
  | set (now : UInt64) (p : Handle) (val : Option (Word F))
  | save (f : File) (only_unsaved : Bool) (filter : Option (Handle → Bool))
  | valueUnsaved (p : Handle)

/-- The store, and which parameters have been changed since the last successful export. -/
structure Tracked (F : Type) where
  store : Store F
  changed : Handle → Bool

namespace Tracked

def step (t : Table F) (x : Tracked F) : Event F → Tracked F
  | .set now p val =>
    let r := x.store.setInternal t now p val false
    ⟨r.1, if r.2 then Function.update x.changed p true else x.changed⟩
  | .save f only_unsaved filter =>
    let r := x.store.paramExport t f only_unsaved filter
    ⟨r.1, if r.2.2 then fun _ => false else x.changed⟩
  | .valueUnsaved _ => x

/-- The parameters that have been changed are unsaved. -/
def AllUnsaved (x : Tracked F) : Prop :=
  ∀ p, x.changed p = true → x.store.valueUnsaved p = true

/-- The marks are as they were if an export fails. -/
def KeepsMarks (t : Table F) (x : Tracked F) : Event F → Prop
  | .save f only_unsaved filter =>
    (x.store.paramExport t f only_unsaved filter).2.2 = false → ∀ p,
      (x.store.paramExport t f only_unsaved filter).1.valueUnsaved p = x.store.valueUnsaved p
  | _ => True

/-- An export does no harm. -/
def Harmless (t : Table F) (x : Tracked F) : Event F → Prop
  | .save f only_unsaved filter => Param.Harmless t x.store f only_unsaved filter
  | _ => True

theorem keepsMarks_iff (ht : t.Compiled) {x : Tracked F} (hx : Valid t x.store) (e : Event F) :
    x.KeepsMarks t e ↔ x.Harmless t e := by
  cases e with
  | save f only_unsaved filter => exact failed_export_iff ht hx.changed
  | set now p val => exact Iff.rfl
  | valueUnsaved p => exact Iff.rfl

theorem valid_step {x : Tracked F} (hx : Valid t x.store) (e : Event F) :
    Valid t (x.step t e).store := by
  cases e with
  | set now p val => exact hx.setInternal now p val false
  | save f only_unsaved filter => exact hx.paramExport f only_unsaved filter
  | valueUnsaved p => exact hx

theorem AllUnsaved.set {x : Tracked F} (h : x.AllUnsaved) (hx : Valid t x.store) (now : UInt64)
    (p : Handle) (val : Option (Word F)) : (x.step t (.set now p val)).AllUnsaved := by
  unfold Tracked.step
  dsimp only
  cases htype : t.paramType p with
  | none =>
    rw [Store.setInternal_fail now false (.inl htype)]
    exact h
  | some type =>
    cases val with
    | none =>
      rw [Store.setInternal_fail now false (.inr rfl)]
      exact h
    | some w =>
      obtain ⟨hok, hs', hentry, -, -⟩ := Store.setInternal_spec hx.changed htype now w false
      intro q hq
      dsimp only at hq ⊢
      rw [valueUnsaved_eq hs', hentry]
      rw [hok, if_pos rfl, Function.update_apply] at hq
      split
      · rfl
      · next hne =>
        rw [if_neg hne] at hq
        rw [← valueUnsaved_eq hx.changed]
        exact h q hq

theorem AllUnsaved.step {x : Tracked F} (h : x.AllUnsaved) (hx : Valid t x.store) {e : Event F}
    (he : x.KeepsMarks t e) : (x.step t e).AllUnsaved := by
  cases e with
  | set now p val => exact h.set hx now p val
  | save f only_unsaved filter =>
    intro p hp
    unfold Tracked.step at hp ⊢
    dsimp only at hp ⊢
    cases hok : (x.store.paramExport t f only_unsaved filter).2.2 with
    | true =>
      rw [hok, if_pos rfl] at hp
      exact absurd hp (by simp)
    | false =>
      rw [hok, if_neg (by simp)] at hp
      rw [he hok p]
      exact h p hp
  | valueUnsaved p => exact h

end Tracked

/-- In every run, from every store that can be reached: after each step the parameters that have
been changed since the last successful export are unsaved, and exports that fail leave all marks
as they were, exactly if no export does harm. -/
theorem unsaved_iff (ht : t.Compiled) (platform : Platform) (acts : List (Action F))
    (es : List (Event F)) :
    Trace.Always (Tracked.step t) (fun x e => (x.step t e).AllUnsaved ∧ x.KeepsMarks t e)
        ⟨reached t platform acts, fun _ => false⟩ es ↔
      Trace.Always (Tracked.step t) (Tracked.Harmless t)
        ⟨reached t platform acts, fun _ => false⟩ es := by
  refine Trace.always_iff_of_invariant (I := fun x => Valid t x.store ∧ x.AllUnsaved)
    (fun x e hx => ?_) (fun x e hx he => ?_)
    ⟨valid_reached t platform acts, by simp [Tracked.AllUnsaved]⟩
  · rw [Tracked.keepsMarks_iff ht hx.1]
    refine and_iff_right_of_imp fun he => ?_
    exact hx.2.step hx.1 ((Tracked.keepsMarks_iff ht hx.1 e).mpr he)
  · exact ⟨Tracked.valid_step hx.1 e, hx.2.step hx.1 ((Tracked.keepsMarks_iff ht hx.1 e).mpr he)⟩

namespace Sample

/-- A file that takes everything. -/
theorem mark_kept :
    Trace.Always (Tracked.step table)
      (fun x e => (x.step table e).AllUnsaved ∧ x.KeepsMarks table e)
      ⟨reached table ⟨true, true⟩ [], fun _ => false⟩
      [.set 0 1 (some (.ofFloat one)), .save ⟨[], 0, []⟩ false none, .valueUnsaved 1] := by
  refine (unsaved_iff compiled_table ⟨true, true⟩ [] _).mpr ⟨trivial, .inl ?_, trivial, trivial⟩
  decide +kernel

/-- A parameter is set, and the export fails because the file is full: the change is not marked
any more. -/
theorem mark_lost :
    ¬ ∀ es : List (Event Sample), Trace.Always (Tracked.step table)
      (fun x e => (x.step table e).AllUnsaved ∧ x.KeepsMarks table e)
      ⟨reached table ⟨true, true⟩ [], fun _ => false⟩ es := by
  intro h
  have hrun := h [.set 0 1 (some (.ofFloat one)), .save ⟨[], 0, [0]⟩ false none]
  have hunsaved := hrun.2.1.1 1 (by decide +kernel)
  revert hunsaved
  decide +kernel

end Sample

end Param
