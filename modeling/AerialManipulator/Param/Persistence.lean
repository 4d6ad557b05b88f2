/-
Parameters survive saving and loading.

A value that is written comes back through `double` and the name of its parameter as it was; a
value that is not written is the default.  Two things are not kept by design: a `float` that
differs from the default by no more than `FLT_EPSILON` is not written, and the identifier of a
sensor is brought to its present form when it is read.

* **`paramLoad_paramExport`** — after a successful export of a reachable store, the file can be
  loaded, and every parameter has the value it had, up to these two;
* **`not_every_value_reloaded`** — a parameter of each kind that does not come back.
-/
import Mathlib.Data.Ordering.Lemmas
import AerialManipulator.Param.BsonRoundTrip
import AerialManipulator.Param.Export
import AerialManipulator.Param.Refinement

open ByteStream Bson SortedArray

namespace Param

variable {F : Type}

/-! ### Finding a parameter by its name -/

section Find

variable {t : Table F} {p : Handle} {name : Name}

theorem Table.paramName_lt (hname : t.paramName p = some name) : p < t.paramInfoCount := by
  obtain ⟨i, hi, -⟩ := Option.map_eq_some_iff.mp hname
  exact (List.getElem?_eq_some_iff.mp hi).1

theorem Table.codes_lt_iff {q : Handle} {name' : Name} (hp : t.paramName p = some name)
    (hq : t.paramName q = some name') : codes name < codes name' ↔ p < q := by
  obtain ⟨i, hi, rfl⟩ := Option.map_eq_some_iff.mp hp
  obtain ⟨j, hj, rfl⟩ := Option.map_eq_some_iff.mp hq
  exact t.sorted.lt_iff hi hj

theorem Table.findLoop_eq_some {p : ℕ} (hname : t.paramName p = some name) {fuel front last : ℕ}
    (hfront : front ≤ p) (hlast : p < last) (hbound : last ≤ t.paramInfoCount)
    (hfuel : last - front ≤ fuel) : t.findLoop name fuel front last = some p := by
  induction fuel generalizing front last with
  | zero => exact absurd hfuel (by omega)
  | succ fuel ih =>
    unfold Table.findLoop
    dsimp only
    obtain ⟨middle, hmiddle⟩ : ∃ middle : ℕ, middle = front + (last - front) / 2 := ⟨_, rfl⟩
    rw [← hmiddle]
    have hlt : middle < t.paramInfoCount := by omega
    obtain ⟨n, hn⟩ : ∃ n, t.paramName middle = some n := by
      unfold Table.paramName
      rw [List.getElem?_eq_getElem hlt]
      exact ⟨_, rfl⟩
    rw [hn]
    dsimp only
    -- the loop gives up when the middle is the first position; the name is not there then
    cases hcmp : cmp (codes name) (codes n) with
    | lt =>
      have hp : p < middle := (Table.codes_lt_iff hname hn).mp ((cmpUsing_eq_lt _ _).mp hcmp)
      have hne : middle ≠ front := by omega
      dsimp only
      rw [if_neg hne]
      exact ih hfront hp (by omega) (by omega)
    | gt =>
      have hp : middle < p := (Table.codes_lt_iff hn hname).mp ((cmpUsing_eq_gt _ _).mp hcmp)
      have hne : middle ≠ front := by omega
      dsimp only
      rw [if_neg hne]
      exact ih hp.le hlast hbound (by omega)
    | eq =>
      have hcodes := (cmpUsing_eq_eq _ _).mp hcmp
      have hle : ¬ p < middle := (Table.codes_lt_iff hname hn).not.mp hcodes.1
      have hge : ¬ middle < p := (Table.codes_lt_iff hn hname).not.mp hcodes.2
      have heq : middle = p := by omega
      rw [heq]

theorem Table.find_eq_some (hname : t.paramName p = some name) : t.find name = some p :=
  Table.findLoop_eq_some hname (Nat.zero_le p) (Table.paramName_lt hname) le_rfl (Nat.le_succ _)

end Find

/-- The names that `param_modify_on_import` replaces. -/
def removedNames : List Name :=
  bytes "COM_ARM_AUTH" :: bytes "MC_DTERM_CUTOFF" :: velocityGains.map bytes ++
    enabledSensors.map (fun sensor => bytes sensor ++ bytes "_EN") ++
    renamed.map fun names => bytes names.1

/-- What the generator of the table and the definitions of the parameters guarantee: names are
strings of at most 16 characters, and those that have been removed are not used again. -/
structure Table.Compiled (t : Table F) : Prop where
  cstring : ∀ p name, t.paramName p = some name → 0 ∉ name
  short : ∀ p name, t.paramName p = some name → name.length ≤ 16
  current : ∀ p name, t.paramName p = some name → name ∉ removedNames

/-! ### Saving -/

section Export

variable [Doubles F] {t : Table F}

def exportCalls (t : Table F) (skip : WBuf F → Bool) (bs : List (WBuf F)) : List Call :=
  (bs.filter fun b => ! skip b).filterMap (Store.exportCall t)

theorem exportCalls_skip {skip : WBuf F → Bool} {b : WBuf F} (hb : skip b = true)
    (bs : List (WBuf F)) : exportCalls t skip (b :: bs) = exportCalls t skip bs := by
  rw [exportCalls, List.filter_cons_of_neg (by simp [hb])]
  rfl

theorem exportCalls_cons {skip : WBuf F → Bool} {b : WBuf F} (hb : skip b = false)
    (bs : List (WBuf F)) :
    exportCalls t skip (b :: bs) = (Store.exportCall t b).toList ++ exportCalls t skip bs := by
  rw [exportCalls, List.filter_cons_of_pos (by simp [hb]), List.filterMap_cons]
  cases Store.exportCall t b <;> rfl

theorem callAll_exportEntry (e : Encoder) (b : WBuf F) (cs : List Call) :
    e.callAll ((Store.exportCall t b).toList ++ cs) =
      if (Store.exportEntry t e b).2 then (Store.exportEntry t e b).1.callAll cs
      else Store.exportEntry t e b := by
  unfold Store.exportEntry
  cases Store.exportCall t b with
  | none => rfl
  | some c =>
    change e.callAll (c :: cs) = if (e.call c).2 then (e.call c).1.callAll cs else e.call c
    rw [Encoder.callAll]
    rcases e.call c with ⟨e₁, ok⟩
    cases ok with
    | false => rfl
    | true => rfl

theorem exportLoop_encoder (skip : WBuf F → Bool) (bs : List (WBuf F)) (e : Encoder) :
    (Store.exportLoop t skip bs e).2 = e.callAll (exportCalls t skip bs) := by
  induction bs generalizing e with
  | nil => rfl
  | cons b bs ih =>
    rw [Store.exportLoop]
    cases hskip : skip b with
    | true =>
      rw [if_pos rfl, exportCalls_skip hskip]
      exact ih e
    | false =>
      rw [if_neg (by simp), exportCalls_cons hskip, callAll_exportEntry]
      rcases Store.exportEntry t e b with ⟨e₁, ok⟩
      cases ok with
      | false => rfl
      | true => exact ih e₁

/-- What the loop does to an entry: at most it is marked as saved. -/
def Marked (b b' : WBuf F) : Prop := b' = b ∨ b' = { b with unsaved := false }

omit [Doubles F] in
theorem Layer.Ok.of_marked {x y : Layer F} (hx : x.Ok) (hbits : y.bits = x.bits)
    (hmarked : List.Forall₂ Marked (x.values.getD []) (y.values.getD [])) :
    y.Ok ∧ ∀ q, Option.Rel Marked (x.entry q) (y.entry q) := by
  have hkey : ∀ b b' : WBuf F, Marked b b' → b'.param = b.param := by
    rintro b b' (rfl | rfl)
    · rfl
    · rfl
  have hentry : ∀ q, Option.Rel Marked (x.entry q) (y.entry q) :=
    fun q => lookup_forall₂ hkey hx.sorted hmarked q
  refine ⟨⟨hx.sorted.forall₂ hkey hmarked, fun q => ?_⟩, hentry⟩
  have hrel := hentry q
  rw [hbits, hx.bits]
  generalize x.entry q = b at hrel ⊢
  generalize y.entry q = b' at hrel ⊢
  cases hrel with
  | none => rfl
  | some _ => rfl

theorem exportLoop_marked (skip : WBuf F → Bool) (bs : List (WBuf F)) (e : Encoder) :
    List.Forall₂ Marked bs (Store.exportLoop t skip bs e).1 := by
  induction bs generalizing e with
  | nil => exact .nil
  | cons b bs ih =>
    have hsame : ∀ bs : List (WBuf F), List.Forall₂ Marked bs bs :=
      fun bs => List.forall₂_same.mpr fun b _ => .inl rfl
    unfold Store.exportLoop
    split
    · exact .cons (.inl rfl) (ih e)
    · rcases Store.exportEntry t e b with ⟨e₁, ok⟩
      cases ok with
      | false => exact .cons (.inr rfl) (hsame bs)
      | true => exact .cons (.inr rfl) (ih e₁)

/-- The file after a document has been written to it through the buffer of `param_export`, and
whether that was successful. -/
def writeDocument (f : File) (calls : List Call) : File × Bool :=
  match (Encoder.initBufFile f 256).1.callAll calls with
  | (e, false) => (e.file.getD f, false)
  | (e, true) =>
    match e.fini with
    | (e, ok) => (e.file.getD f, ok)

theorem writeDocument_content {content : List UInt8} {limits : List ℕ} {calls : List Call}
    (hok : (writeDocument ⟨content, 0, limits⟩ calls).2 = true) :
    ∃ rest, (writeDocument ⟨content, 0, limits⟩ calls).1.content = document calls ++ rest := by
  have hsome : ((Encoder.initBufFile ⟨content, 0, limits⟩ 256).1.callAll
      calls).1.fini.1.file.isSome = true := by
    rw [Encoder.isSome_file_fini, Encoder.isSome_file_callAll]
    rfl
  have hspec := fun out =>
    @encode_spec (.bufFile content limits 256) calls out
  have hinit : Sink.init (.bufFile content limits 256) =
      ((Encoder.initBufFile ⟨content, 0, limits⟩ 256).1, true) := rfl
  unfold encode at hspec
  rw [hinit] at hspec
  unfold writeDocument at hok ⊢
  dsimp only at hspec
  rcases hc : (Encoder.initBufFile ⟨content, 0, limits⟩ 256).1.callAll calls with ⟨e₁, ok⟩
  rw [hc] at hok hsome hspec
  cases ok with
  | false => exact absurd hok (by simp)
  | true =>
    dsimp only at hok hsome hspec ⊢
    rcases hf : e₁.fini with ⟨e₂, ok⟩
    rw [hf] at hok hsome hspec
    obtain rfl : ok = true := hok
    obtain ⟨f, hfile⟩ := Option.isSome_iff_exists.mp hsome
    obtain ⟨hdoc, -⟩ := hspec _ rfl
    dsimp only at hfile
    rw [Encoder.output, hfile] at hdoc
    rw [hfile]
    exact hdoc

variable {s : Store F} (f : File) (only_unsaved : Bool) (filter : Option (Handle → Bool))

theorem paramExport_file : (s.paramExport t f only_unsaved filter).2 =
    writeDocument f (exportCalls t (s.skips t only_unsaved filter) (s.changed.values.getD [])) := by
  unfold Store.paramExport writeDocument
  cases s.changed.values with
  | none => rfl
  | some bs =>
    have hloop := exportLoop_encoder (t := t) (s.skips t only_unsaved filter) bs
      (Encoder.initBufFile f 256).1
    dsimp only [Option.getD_some]
    generalize Store.exportLoop t _ bs _ = out at hloop ⊢
    obtain ⟨bs', r⟩ := out
    rw [← hloop]
    obtain ⟨e, ok⟩ := r
    cases ok with
    | false => rfl
    | true => rfl

theorem paramExport_store : (s.paramExport t f only_unsaved filter).1 =
    { s with changed.values := s.changed.values.map fun bs => (Store.exportLoop t
      (s.skips t only_unsaved filter) bs (Encoder.initBufFile f 256).1).1 } := by
  unfold Store.paramExport
  cases hv : s.changed.values with
  | none =>
    obtain ⟨⟨values, bits⟩, custom, params_active, autosave⟩ := s
    dsimp only at hv
    subst hv
    rfl
  | some bs =>
    rw [Option.map_some]
    dsimp only
    generalize Store.exportLoop t _ bs _ = out
    obtain ⟨bs', e, ok⟩ := out
    cases ok with
    | false => rfl
    | true => rfl

theorem paramExport_marked : List.Forall₂ Marked (s.changed.values.getD [])
    ((s.paramExport t f only_unsaved filter).1.changed.values.getD []) := by
  rw [paramExport_store]
  cases s.changed.values with
  | none => exact .nil
  | some bs => exact exportLoop_marked _ bs _

theorem paramExport_spec (hs : s.changed.Ok) :
    (s.paramExport t f only_unsaved filter).1.changed.Ok ∧
      ∀ q, Option.Rel Marked (s.changed.entry q)
        ((s.paramExport t f only_unsaved filter).1.changed.entry q) := by
  refine hs.of_marked ?_ (paramExport_marked f only_unsaved filter)
  rw [paramExport_store]

end Export

/-! ### Nodes that are up to date -/

section Modify

variable [Doubles F] {t : Table F}

theorem foldl_eq_self {α β : Type} {f : α → β → α} {a : α} {l : List β} (h : ∀ b ∈ l, f a b = a) :
    l.foldl f a = a := by
  induction l with
  | nil => rfl
  | cons b l ih =>
    obtain ⟨hb, hl⟩ := List.forall_mem_cons.mp h
    rw [List.foldl_cons, hb]
    exact ih hl

theorem paramModifyOnImport_eq (platform : Platform) (now : UInt64) (s : Store F) {n : Node}
    (hn : n.name ∉ removedNames) :
    s.paramModifyOnImport t platform now n = (s, translateId platform.nuttx n) := by
  simp only [removedNames, List.cons_append, List.mem_cons, List.mem_append, List.mem_map,
    not_or, not_exists, not_and] at hn
  obtain ⟨harm, hcutoff, ⟨hgains, henabled⟩, hrenamed⟩ := hn
  have harm' : s.migrateArmAuth t now n = (s, n) := by
    unfold Store.migrateArmAuth
    split
    · rw [if_neg harm]
    · rfl
  have hgains' : velocityGains.foldl (migrateVelocityGain F) n = n := by
    refine foldl_eq_self fun name hname => ?_
    unfold migrateVelocityGain
    split
    · rw [if_neg (Ne.symm (hgains name hname))]
    · rfl
  have henabled' : enabledSensors.foldl migrateEnabled n = n := by
    refine foldl_eq_self fun sensor hsensor => ?_
    unfold migrateEnabled
    split
    · rw [if_neg (Ne.symm (henabled sensor hsensor))]
    · rfl
  have hrenamed' : renamed.foldl rename n = n := by
    refine foldl_eq_self fun names hnames => ?_
    unfold rename
    rw [if_neg (Ne.symm (hrenamed names hnames))]
  unfold Store.paramModifyOnImport
  rw [harm']
  dsimp only
  rw [hgains', if_neg (fun h => hcutoff h.2), henabled', hrenamed']

end Modify

/-! ### Loading -/

def Value.imported (nuttx : Bool) (name : Name) : Value F → Value F
  | int32 i => int32 (if isCalId name then (DeviceId.current nuttx i.toUInt32).toInt32 else i)
  | float f => float f

theorem translateId_int (nuttx : Bool) (name : Name) (i : Int32) :
    ∃ j : Int32, translateId nuttx ⟨name, .INT32, .int i.toInt64⟩ = ⟨name, .INT32, .int j.toInt64⟩ ∧
      (Value.int32 i : Value F).imported nuttx name = .int32 j := by
  unfold translateId Value.imported
  dsimp only
  split
  · refine ⟨_, ?_, rfl⟩
    rw [Int32.toInt32_toInt64]
  · exact ⟨i, rfl, rfl⟩

section Import

variable [Doubles F] {t : Table F} (platform : Platform) (now : UInt64)

theorem cString_eq {name : Name} (hname : 0 ∉ name) : (cString name).1 = name := by
  refine List.takeWhile_eq_self_iff.mpr fun b hb => ?_
  rw [decide_eq_true_eq]
  rintro rfl
  exact hname hb

theorem paramImportCallback_eq (ht : t.Compiled) (s : Store F) (mark_saved : Bool) {b : WBuf F}
    {name : Name} (hname : t.paramName b.param = some name)
    (htype : t.paramType b.param = some b.val.type) :
    ∃ c w, Store.exportCall t b = some c ∧ c.name.1 = name ∧ c.data = [] ∧
      w.read b.val.type = b.val.imported platform.nuttx name ∧
      s.paramImportCallback t platform now mark_saved ⟨name, c.kind, c.value platform.short_enums⟩ =
        s.setInternal t now b.param (some w) mark_saved := by
  have hcstring := cString_eq (ht.cstring _ _ hname)
  have hmodify : ∀ kind value, s.paramModifyOnImport t platform now ⟨name, kind, value⟩ =
      (s, translateId platform.nuttx ⟨name, kind, value⟩) :=
    fun _ _ => paramModifyOnImport_eq platform now s (ht.current _ _ hname)
  unfold Store.exportCall Store.paramImportCallback
  rw [hname]
  cases hv : b.val with
  | int32 i =>
    have hint : t.paramType b.param = some .INT32 := by rw [htype, hv]; rfl
    obtain ⟨j, htranslate, himported⟩ := translateId_int (F := F) platform.nuttx name i
    refine ⟨.int (cString name) i.toInt64, .ofInt j, rfl, hcstring, rfl, himported.symm, ?_⟩
    have hkind : Call.kind (.int (cString name) i.toInt64) = .INT32 :=
      if_pos (by rw [Int32.toInt32_toInt64])
    rw [hkind, hmodify, Call.value, htranslate]
    dsimp only
    rw [Table.find_eq_some hname]
    dsimp only
    rw [if_pos hint, Int32.toInt32_toInt64]
  | float f =>
    have hfloat : t.paramType b.param = some .FLOAT := by rw [htype, hv]; rfl
    refine ⟨.double (cString name) (Doubles.toDouble f), .ofFloat f, rfl, hcstring, rfl, rfl, ?_⟩
    have htranslate : translateId platform.nuttx ⟨name, .DOUBLE, .double (Doubles.toDouble f)⟩ =
        ⟨name, .DOUBLE, .double (Doubles.toDouble f)⟩ := rfl
    rw [hmodify, Call.kind, Call.value, htranslate]
    dsimp only
    rw [Table.find_eq_some hname]
    dsimp only
    rw [if_pos hfloat, Doubles.ofDouble_toDouble]

omit [Doubles F] in
theorem Table.exists_paramName {p : Handle} {type : ParamType} (htype : t.paramType p = some type) :
    ∃ name, t.paramName p = some name := by
  obtain ⟨v, hv, -⟩ := Option.map_eq_some_iff.mp htype
  obtain ⟨i, hi, -⟩ := Option.map_eq_some_iff.mp hv
  exact ⟨i.name, Option.map_eq_some_iff.mpr ⟨i, hi, rfl⟩⟩

/-- The document with some entries is read to its end; they are set, and the others are left
alone. -/
theorem importLoop_spec (ht : t.Compiled) {bs : List (WBuf F)}
    (htypes : ∀ b ∈ bs, t.paramType b.param = some b.val.type)
    (hdistinct : bs.Pairwise fun a b => a.param ≠ b.param) {d : Decoder} {rest : List UInt8}
    (hd : d.At (body (bs.filterMap (Store.exportCall t)) ++ rest)) (htype : d.type ≠ .EOO)
    (hpending : d.pending = 0) (hnesting : d.nesting = 1) {s : Store F} (hs : s.changed.Ok)
    {fuel : ℕ} (hfuel : (bs.filterMap (Store.exportCall t)).length < fuel) :
    ∃ out, Store.importLoop t platform now true fuel d s = (out, true) ∧ out.changed.Ok ∧
      out.custom = s.custom ∧
      (∀ b ∈ bs, ∀ name, t.paramName b.param = some name →
        (out.changed.entry b.param).map WBuf.val = some (b.val.imported platform.nuttx name)) ∧
      ∀ q, (∀ b ∈ bs, b.param ≠ q) → out.changed.entry q = s.changed.entry q := by
  induction bs generalizing d s fuel with
  | nil =>
    obtain ⟨fuel, rfl⟩ := Nat.exists_eq_succ_of_ne_zero (Nat.ne_of_gt hfuel)
    obtain ⟨d', hnext, -⟩ := hd.next_eoo platform.short_enums htype hpending hnesting
    refine ⟨s, ?_, hs, rfl, by simp, fun _ _ => rfl⟩
    rw [Store.importLoop, hnext]
  | cons b bs ih =>
    obtain ⟨hb, htypes⟩ := List.forall_mem_cons.mp htypes
    obtain ⟨hne, hdistinct⟩ := List.pairwise_cons.mp hdistinct
    obtain ⟨fuel, rfl⟩ := Nat.exists_eq_succ_of_ne_zero
      (Nat.ne_of_gt ((Nat.zero_le _).trans_lt hfuel))
    obtain ⟨name, hname⟩ := Table.exists_paramName hb
    obtain ⟨c, w, hc, hcname, hdata, hread, hcallback⟩ :=
      paramImportCallback_eq platform now ht s true hname hb
    obtain ⟨hok, hs', hentry, hcustom, -⟩ := Store.setInternal_spec hs hb now w true
    rw [List.filterMap_cons_some hc] at hd hfuel
    rw [body, List.flatMap_cons, List.append_assoc, List.append_assoc, ← List.append_assoc _ [EOO]]
      at hd
    have hlen : c.name.1.length < maxName := by
      rw [hcname]
      exact (ht.short _ _ hname).trans_lt (by decide)
    obtain ⟨source, pending, hnext, hat, hpending'⟩ :=
      hd.next_node platform.short_enums c htype hpending hlen (by rw [hdata]; decide)
    rw [hdata] at hat hpending'
    have hzero : pending = 0 := Int32.toInt_inj.mp hpending'
    generalize hout : s.setInternal t now b.param (some w) true = out at *
    obtain ⟨s₁, ok⟩ := out
    obtain rfl : ok = true := hok
    obtain ⟨out, hloop, hout', hcustom', hset, hframe⟩ :=
      ih htypes hdistinct hat (by simp) hzero hnesting hs' (Nat.lt_of_succ_lt_succ hfuel)
    refine ⟨out, ?_, hout', hcustom'.trans hcustom, ?_, ?_⟩
    · rw [Store.importLoop, hnext]
      dsimp only
      rw [hcname, hcallback]
      exact hloop
    · refine List.forall_mem_cons.mpr ⟨fun name' hname' => ?_, hset⟩
      obtain rfl := Option.some.inj (hname.symm.trans hname')
      rw [hframe _ fun b' hb' => (hne b' hb').symm, hentry, if_pos rfl, Option.map_some, hread]
    · intro q hq
      obtain ⟨hbq, hq⟩ := List.forall_mem_cons.mp hq
      rw [hframe q hq, hentry, if_neg hbq.symm]

end Import

/-! ### Reachable stores -/

section Reach

variable {t : Table F} {s : Store F}

/-- Both layers are maps, and every value is of the type of its parameter. -/
structure Valid (t : Table F) (s : Store F) : Prop where
  changed : s.changed.Ok
  custom : s.custom.Ok
  typed : ∀ p b, s.changed.entry p = some b → t.paramType p = some b.val.type

theorem valid_init (t : Table F) : Valid t (Store.init F) :=
  ⟨⟨sorted_nil, fun _ => rfl⟩, ⟨sorted_nil, fun _ => rfl⟩,
    fun _ _ h => absurd h (by simp [Store.init, Layer.entry])⟩

theorem Valid.of_removed (h : Valid t s) {s' : Store F} (hok : s'.changed.Ok)
    (hcustom : s'.custom = s.custom)
    (hentry : ∀ q, s'.changed.entry q = none ∨ s'.changed.entry q = s.changed.entry q) :
    Valid t s' := by
  refine ⟨hok, hcustom ▸ h.custom, fun p b hb => ?_⟩
  rcases hentry p with hnone | hsame
  · exact absurd (hb.symm.trans hnone) (by simp)
  · exact h.typed p b (hsame ▸ hb)

theorem Valid.find (h : Valid t s) (name : Name) : Valid t (s.find t name).1 := by
  unfold Store.find Store.setUsed
  split
  · split
    · exact ⟨h.changed, h.custom, h.typed⟩
    · exact h
  · exact h

theorem Valid.reset (h : Valid t s) (now : UInt64) (p : Handle) :
    Valid t (s.resetInternal t now p).1 := by
  by_cases hp : t.handleInRange p
  · obtain ⟨hok, hentry, hcustom⟩ := Store.resetInternal_spec h.changed now hp
    refine h.of_removed hok hcustom fun q => ?_
    rw [hentry]
    split
    · exact .inl rfl
    · exact .inr rfl
  · rw [Store.resetInternal_fail now hp]
    exact ⟨h.changed, h.custom, h.typed⟩

theorem Valid.resetAll (h : Valid t s) (now : UInt64) (auto_save : Bool) :
    Valid t (s.resetAllInternal now auto_save) := by
  obtain ⟨hok, hentry⟩ := Store.resetAllInternal_spec h.changed now auto_save
  exact h.of_removed hok rfl fun q => .inl (hentry q)

theorem Valid.resetWhere (h : Valid t s) (now : UInt64) (test : Name → Bool) :
    Valid t (s.resetWhere t now test) := by
  obtain ⟨hok, hentry, hcustom⟩ := Store.resetWhere_spec (t := t) h.changed now test
  refine h.of_removed hok hcustom fun q => ?_
  rw [hentry]
  split
  · exact .inl rfl
  · exact .inr rfl

theorem Valid.of_marked (h : Valid t s) {s' : Store F} (hbits : s'.changed.bits = s.changed.bits)
    (hmarked : List.Forall₂ Marked (s.changed.values.getD []) (s'.changed.values.getD []))
    (hcustom : s'.custom = s.custom) : Valid t s' := by
  obtain ⟨hok, hentry⟩ := h.changed.of_marked hbits hmarked
  refine ⟨hok, hcustom ▸ h.custom, fun p b hb => ?_⟩
  have hrel := hentry p
  rw [hb] at hrel
  generalize ha : s.changed.entry p = a at hrel
  cases hrel with
  | some hab =>
    rw [h.typed p _ ha]
    rcases hab with rfl | rfl
    · rfl
    · rfl

variable [Doubles F]

theorem Valid.setInternal (h : Valid t s) (now : UInt64) (p : Handle) (val : Option (Word F))
    (mark_saved : Bool) : Valid t (s.setInternal t now p val mark_saved).1 := by
  cases htype : t.paramType p with
  | none =>
    rw [Store.setInternal_fail now mark_saved (.inl htype)]
    exact h
  | some type =>
    cases val with
    | none =>
      rw [Store.setInternal_fail now mark_saved (.inr rfl)]
      exact h
    | some w =>
      obtain ⟨-, hok, hentry, hcustom, -⟩ := Store.setInternal_spec h.changed htype now w mark_saved
      refine ⟨hok, hcustom ▸ h.custom, fun q b hb => ?_⟩
      rw [hentry] at hb
      split at hb
      · next hq =>
        obtain rfl := Option.some.inj hb
        rw [hq, htype, Word.type_read]
      · exact h.typed q b hb

theorem custom_setInternal (hs : s.changed.Ok) (now : UInt64) (p : Handle) (val : Option (Word F))
    (mark_saved : Bool) : (s.setInternal t now p val mark_saved).1.custom = s.custom := by
  cases htype : t.paramType p with
  | none => rw [Store.setInternal_fail now mark_saved (.inl htype)]
  | some type =>
    cases val with
    | none => rw [Store.setInternal_fail now mark_saved (.inr rfl)]
    | some w => exact (Store.setInternal_spec hs htype now w mark_saved).2.2.2.1

theorem Valid.setDefaultValue (h : Valid t s) (p : Handle) (val : Option (Word F)) :
    Valid t (s.setDefaultValue t p val).1 := by
  cases hstatic : t.static p with
  | none =>
    rw [Store.setDefaultValue_fail (.inl hstatic)]
    exact h
  | some static =>
    cases val with
    | none =>
      rw [Store.setDefaultValue_fail (.inr rfl)]
      exact h
    | some w =>
      obtain ⟨hok, -, hchanged⟩ := Store.setDefaultValue_spec h.custom hstatic w
      exact ⟨hchanged ▸ h.changed, hok, hchanged ▸ h.typed⟩

theorem Valid.step (h : Valid t s) (op : Op F) : Valid t (s.step t op) := by
  cases op with
  | set now p val => exact h.setInternal now p val false
  | setDefaultValue p val => exact h.setDefaultValue p val
  | reset now p => exact h.reset now p
  | resetAll now => exact h.resetAll now true
  | resetExcludes now excludes => exact h.resetWhere now _
  | resetSpecific now resets => exact h.resetWhere now _
  | find name => exact h.find name
  | get p => exact h

theorem Valid.paramExport (h : Valid t s) (f : File) (only_unsaved : Bool)
    (filter : Option (Handle → Bool)) : Valid t (s.paramExport t f only_unsaved filter).1 := by
  refine h.of_marked ?_ (paramExport_marked f only_unsaved filter) ?_
  · rw [paramExport_store]
  · rw [paramExport_store]

/-! Whatever is in a file, importing it sets values. -/

section File

variable (platform : Platform) (now : UInt64) (mark_saved : Bool)

theorem Valid.setNoNotification (h : Valid t s) (name : String) (w : Word F) :
    Valid t (s.setNoNotification t now name w) := by
  have hfind := h.find (bytes name)
  unfold Store.setNoNotification
  generalize s.find t (bytes name) = out at hfind ⊢
  obtain ⟨s₁, found⟩ := out
  cases found with
  | none => exact hfind
  | some p => exact hfind.setInternal now p (some w) false

theorem Valid.paramModifyOnImport (h : Valid t s) (n : Node) :
    Valid t (s.paramModifyOnImport t platform now n).1 := by
  have harm : Valid t (s.migrateArmAuth t now n).1 := by
    unfold Store.migrateArmAuth
    split
    · split
      · exact (h.setNoNotification now _ _).setNoNotification now _ _
      · exact h
    · exact h
  unfold Store.paramModifyOnImport
  generalize s.migrateArmAuth t now n = out at harm ⊢
  obtain ⟨s₁, n₁⟩ := out
  dsimp only
  split
  · exact harm
  · exact harm

theorem Valid.paramImportCallback (h : Valid t s) (n : Node) :
    Valid t (s.paramImportCallback t platform now mark_saved n).1 := by
  have hmodify := h.paramModifyOnImport platform now n
  unfold Store.paramImportCallback
  generalize s.paramModifyOnImport t platform now n = out at hmodify ⊢
  obtain ⟨s₁, n₁⟩ := out
  dsimp only
  split
  · exact hmodify
  · split
    · split
      · exact hmodify.setInternal now _ _ mark_saved
      · exact hmodify
    · split
      · exact hmodify.setInternal now _ _ mark_saved
      · exact hmodify
    · exact hmodify

theorem Valid.importLoop (h : Valid t s) (fuel : ℕ) (d : Decoder) :
    Valid t (Store.importLoop t platform now mark_saved fuel d s).1 := by
  induction fuel generalizing d s with
  | zero => exact h
  | succ fuel ih =>
    rw [Store.importLoop]
    rcases d.next platform.short_enums with ⟨d₁, r⟩
    cases r with
    | error => exact h
    | done => exact h
    | eoo => exact h
    | node n =>
      have hcallback :=
        h.paramImportCallback platform now mark_saved n
      dsimp only
      generalize s.paramImportCallback t platform now mark_saved n = out at hcallback ⊢
      obtain ⟨s₁, ok⟩ := out
      cases ok with
      | false => exact hcallback
      | true => exact ih hcallback d₁

theorem Valid.importAttempts (h : Valid t s) (attempts : ℕ) (f : File) :
    Valid t (Store.importAttempts t platform now mark_saved attempts f s).1 := by
  induction attempts generalizing f s with
  | zero => exact h
  | succ attempts ih =>
    rw [Store.importAttempts]
    rcases Decoder.initFile f with ⟨d, init⟩
    cases init with
    | none => exact ih h f.rewind
    | some u =>
      have hloop := h.importLoop platform now mark_saved (f.content.length + 1) d
      dsimp only
      generalize Store.importLoop t platform now mark_saved _ d s = out at hloop ⊢
      obtain ⟨s₁, ok⟩ := out
      cases ok with
      | false => exact ih hloop f.rewind
      | true => exact hloop

end File

/-- What a program can do with the store: the operations, saving, and the two ways of loading. -/
inductive Action (F : Type)
  | op (op : Op F)
  | save (f : File) (only_unsaved : Bool) (filter : Option (Handle → Bool))
  | restore (now : UInt64) (f : File) (mark_saved : Bool)
  | load (now : UInt64) (f : File)

def Store.act (t : Table F) (platform : Platform) (s : Store F) : Action F → Store F
  | .op op => s.step t op
  | .save f only_unsaved filter => (s.paramExport t f only_unsaved filter).1
  | .restore now f mark_saved => (s.paramImportInternal t platform now f mark_saved).1
  | .load now f => (s.paramLoad t platform now f).1

theorem Valid.act (h : Valid t s) (platform : Platform) (a : Action F) :
    Valid t (s.act t platform a) := by
  cases a with
  | op op => exact h.step op
  | save f only_unsaved filter => exact h.paramExport f only_unsaved filter
  | restore now f mark_saved => exact h.importAttempts platform now mark_saved 4 f
  | load now f => exact (h.resetAll now false).importAttempts platform now true 4 f

def reached (t : Table F) (platform : Platform) (acts : List (Action F)) : Store F :=
  Trace.run (Store.act t platform) (Store.init F) acts

theorem valid_reached (t : Table F) (platform : Platform) (acts : List (Action F)) :
    Valid t (reached t platform acts) :=
  Trace.run_of_invariant (C := fun _ _ => True) (fun _ a h _ => h.act platform a) (valid_init t)
    (Trace.always_true _ acts)

end Reach

/-! ### The round trip -/

section Whole

variable [Doubles F] (t : Table F) (platform : Platform)

/-- The value that a parameter with some value has after saving and loading. -/
def Store.reloaded (s : Store F) (p : Handle) (v : Value F) : Value F :=
  match s.getDefaultValue t p with
  | none => v
  | some d =>
    if isDefaultValue v d then d else v.imported platform.nuttx ((t.paramName p).getD [])

variable {t} {s s₀ : Store F}

theorem length_le_document (calls : List Call) : calls.length ≤ (document calls).length := by
  have hbytes : calls.length ≤ (calls.flatMap Call.bytes).length := by
    induction calls with
    | nil => exact le_rfl
    | cons c calls ih =>
      have hpos : 0 < c.bytes.length := Nat.succ_pos _
      rw [List.flatMap_cons, List.length_append, List.length_cons]
      omega
  rw [length_document, body, List.length_append]
  omega

/-- A file that begins with the document of some entries is loaded: these are the entries. -/
theorem paramLoad_document (ht : t.Compiled) {bs : List (WBuf F)}
    (htypes : ∀ b ∈ bs, t.paramType b.param = some b.val.type)
    (hdistinct : bs.Pairwise fun a b => a.param ≠ b.param) {f : File} {rest : List UInt8}
    (hcontent : f.content = document (bs.filterMap (Store.exportCall t)) ++ rest)
    (hs₀ : s₀.changed.Ok) (now : UInt64) :
    ∃ out, s₀.paramLoad t platform now f.rewind = (out, true) ∧ out.changed.Ok ∧
      out.custom = s₀.custom ∧
      (∀ b ∈ bs, ∀ name, t.paramName b.param = some name →
        (out.changed.entry b.param).map WBuf.val = some (b.val.imported platform.nuttx name)) ∧
      ∀ q, (∀ b ∈ bs, b.param ≠ q) → out.changed.entry q = none := by
  obtain ⟨d, hinit, hat, htype, hpending, hnesting⟩ :=
    initFile_spec (bs.filterMap (Store.exportCall t)) rest f.limits
  have hinit' : Decoder.initFile f.rewind = (d, some ()) := by
    rw [← hcontent] at hinit
    exact hinit
  have hfuel : (bs.filterMap (Store.exportCall t)).length < f.rewind.content.length + 1 := by
    have hdoc := length_le_document (bs.filterMap (Store.exportCall t))
    change _ < f.content.length + 1
    rw [hcontent, List.length_append]
    omega
  obtain ⟨hok₀, hentry₀⟩ := Store.resetAllInternal_spec hs₀ now false
  obtain ⟨out, hloop, hok, hcustom, hset, hframe⟩ := importLoop_spec platform now
    ht htypes hdistinct hat (by rw [htype]; decide) hpending hnesting hok₀ hfuel
  refine ⟨out, ?_, hok, hcustom, hset, fun q hq => (hframe q hq).trans (hentry₀ q)⟩
  unfold Store.paramLoad Store.paramImportInternal Store.importAttempts
  rw [hinit']
  dsimp only
  rw [hloop]

def exported (t : Table F) (s : Store F) : List (WBuf F) :=
  (s.changed.values.getD []).filter fun b => ! s.skips t false none b

theorem mem_exported (hs : Valid t s) {b : WBuf F} :
    b ∈ exported t s ↔ s.changed.entry b.param = some b ∧ s.skips t false none b = false := by
  rw [exported, List.mem_filter, Layer.entry, lookup_eq_some hs.changed.sorted]
  simp

theorem paramLoad_spec (ht : t.Compiled) (hs : Valid t s) (hs₀ : Valid t s₀)
    {content : List UInt8} {limits : List ℕ}
    (hexport : (s.paramExport t ⟨content, 0, limits⟩ false none).2.2 = true) (now : UInt64) :
    ∃ out, s₀.paramLoad t platform now
        (s.paramExport t ⟨content, 0, limits⟩ false none).2.1.rewind = (out, true) ∧
      out.changed.Ok ∧ out.custom = s₀.custom ∧
      ∀ p, (out.changed.entry p).map WBuf.val =
        ((s.changed.entry p).filter fun b => ! s.skips t false none b).map fun b =>
          b.val.imported platform.nuttx ((t.paramName p).getD []) := by
  have htypes : ∀ b ∈ exported t s, t.paramType b.param = some b.val.type :=
    fun b hb => hs.typed b.param b ((mem_exported hs).mp hb).1
  have hdistinct : (exported t s).Pairwise fun a b => a.param ≠ b.param :=
    (hs.changed.sorted.filter _).imp fun h => h.ne
  have hfile := paramExport_file (t := t) (s := s) ⟨content, 0, limits⟩ false none
  rw [hfile] at hexport
  obtain ⟨rest, hcontent⟩ := writeDocument_content hexport
  rw [← hfile] at hcontent
  obtain ⟨out, hload, hok, hcustom, hset, hframe⟩ :=
    paramLoad_document platform ht htypes hdistinct hcontent hs₀.changed now
  refine ⟨out, hload, hok, hcustom, fun p => ?_⟩
  -- another entry that has been written is not that of the parameter
  have hnot : (∀ b, s.changed.entry p = some b → s.skips t false none b = true) →
      out.changed.entry p = none := by
    intro hp
    refine hframe p fun b hb hbp => ?_
    obtain ⟨hentry, hskip⟩ := (mem_exported hs).mp hb
    exact absurd (hskip.symm.trans (hp b (hbp ▸ hentry))) (by simp)
  cases hentry : s.changed.entry p with
  | none =>
    rw [hnot (fun b hb => absurd (hentry.symm.trans hb) (by simp))]
    rfl
  | some b =>
    have hparam : b.param = p := Layer.param_of_entry hs.changed.sorted hentry
    cases hb : s.skips t false none b with
    | true =>
      rw [hnot (fun b' hb' => Option.some.inj (hentry.symm.trans hb') ▸ hb),
        Option.filter_some_neg (by simp [hb])]
      rfl
    | false =>
      obtain ⟨name, hname⟩ := Table.exists_paramName (hs.typed _ _ hentry)
      rw [← hparam] at hentry hname ⊢
      rw [hset b ((mem_exported hs).mpr ⟨hentry, hb⟩) name hname,
        Option.filter_some_pos (by simp [hb]), hname]
      rfl

omit [Doubles F] in
theorem exists_default (s : Store F) {p : Handle} (hp : t.handleInRange p) :
    ∃ d, s.getDefaultValue t p = some d := by
  obtain ⟨static, hstatic⟩ :=
    Option.ne_none_iff_exists'.mp (static_eq_none.not.mpr (not_not.mpr hp))
  rw [Store.getDefaultValue, if_pos hp, hstatic]
  cases s.custom.find p with
  | none => exact ⟨static, rfl⟩
  | some b => exact ⟨b.val, rfl⟩

omit [Doubles F] in
theorem get_eq (hs : Valid t s) {p : Handle} (hp : t.handleInRange p) :
    s.get t p = ((s.changed.entry p).map WBuf.val).or (s.getDefaultValue t p) := by
  rw [Store.get, Store.getDefaultValue, if_pos hp, if_pos hp, hs.changed.find]

theorem reloaded_default {p : Handle} {d : Value F} (hd : s.getDefaultValue t p = some d) :
    s.reloaded t platform p d = d := by
  unfold Store.reloaded
  rw [hd]
  cases d with
  | int32 i => exact if_pos (by simp [Store.isDefaultValue])
  | float f =>
    dsimp only
    split
    · rfl
    · rfl

theorem reloaded_eq {b : WBuf F} {d : Value F} (hd : s.getDefaultValue t b.param = some d) :
    s.reloaded t platform b.param b.val = if s.skips t false none b then d
      else b.val.imported platform.nuttx ((t.paramName b.param).getD []) := by
  have hskip : s.skips t false none b = Store.isDefaultValue b.val d := by
    rw [Store.skips, hd]
    rfl
  rw [Store.reloaded, hd, hskip]

/-- In every reachable store, an export that succeeds can be loaded by every store with the same
defaults, and each parameter then has the value it had, but for `float` values that are as good
as the default and for the identifiers of sensors in an old form. -/
theorem paramLoad_paramExport (ht : t.Compiled) (acts acts₀ : List (Action F))
    (content : List UInt8) (limits : List ℕ) (now : UInt64)
    (hdefaults : ∀ p, (reached t platform acts₀).getDefaultValue t p =
      (reached t platform acts).getDefaultValue t p)
    (hexport : ((reached t platform acts).paramExport t ⟨content, 0, limits⟩ false none).2.2 =
      true) :
    let s := reached t platform acts
    let file := (s.paramExport t ⟨content, 0, limits⟩ false none).2.1
    let loaded := (reached t platform acts₀).paramLoad t platform now file.rewind
    loaded.2 = true ∧ ∀ p, loaded.1.get t p = (s.get t p).map (s.reloaded t platform p) := by
  have hs := valid_reached t platform acts
  have hs₀ := valid_reached t platform acts₀
  generalize reached t platform acts = s at *
  generalize reached t platform acts₀ = s₀ at *
  obtain ⟨out, hload, hok, hcustom, hentry⟩ :=
    paramLoad_spec platform ht hs hs₀ hexport now
  dsimp only
  have hout : Valid t out := by
    have hvalid : Valid t (s₀.paramLoad t platform now
      (s.paramExport t ⟨content, 0, limits⟩ false none).2.1.rewind).1 :=
    hs₀.act platform (.load now _)
    rwa [hload] at hvalid
  rw [hload]
  refine ⟨rfl, fun p => ?_⟩
  by_cases hp : t.handleInRange p
  · have hdefault : out.getDefaultValue t p = s.getDefaultValue t p := by
      rw [← hdefaults, Store.getDefaultValue, Store.getDefaultValue, hcustom]
    obtain ⟨d, hd⟩ := exists_default s hp
    rw [get_eq hs hp, get_eq hout hp, hentry, hdefault, hd]
    cases hb : s.changed.entry p with
    | none => exact congrArg some (reloaded_default platform hd).symm
    | some b =>
      have hparam := Layer.param_of_entry hs.changed.sorted hb
      rw [← hparam] at hd ⊢
      rw [Option.map_some, Option.some_or, Option.map_some, reloaded_eq platform hd]
      cases hskip : s.skips t false none b with
      | true =>
        rw [Option.filter_some_neg (by simp [hskip])]
        rfl
      | false =>
        rw [Option.filter_some_pos (by simp [hskip])]
        rfl
  · rw [Store.get, Store.get, if_neg hp, if_neg hp]
    rfl

end Whole

/-! ### Examples -/

/-- Three numbers: 0, 2⁻²⁴ and 1; `FLT_EPSILON` is 2⁻²³. -/
inductive Sample
  | zero
  | tiny
  | one
  deriving DecidableEq

namespace Sample

def isOne (x : Sample) : Bool := x = one

/-- Products with 20 are right for zero and for powers of two. -/
instance : Doubles Sample where
  zero := zero
  near x y := isOne x = isOne y
  close x y := isOne x = isOne y
  ofBits b := if b = 0x3F800000 then one else if b = 0x33800000 then tiny else zero
  toBits
    | zero => 0
    | tiny => 0x33800000
    | one => 0x3F800000
  toDouble
    | zero => 0
    | tiny => 0x3E70000000000000
    | one => 0x3FF0000000000000
  ofDouble d :=
    if d = 0x3FF0000000000000 then one else if d = 0x3E70000000000000 then tiny else zero
  seconds msec := if msec = 1000 then one else zero
  times20 d := if d = 0 then 0 else d + 0x0044000000000000
  ofDouble_toDouble x := by cases x <;> rfl

def table : Table Sample where
  parameters := [⟨bytes "CAL_ACC0_ID", .int32 0⟩, ⟨bytes "SENS_BOARD_X_OFF", .float zero⟩]
  sorted := by unfold SortedArray.Sorted; decide

theorem compiled_table : table.Compiled := by
  have hall : ∀ i ∈ table.parameters, 0 ∉ i.name ∧ i.name.length ≤ 16 ∧ i.name ∉ removedNames := by
    decide
  have hname : ∀ p name, table.paramName p = some name → ∃ i ∈ table.parameters, i.name = name := by
    intro p name h
    obtain ⟨i, hi, rfl⟩ := Option.map_eq_some_iff.mp h
    exact ⟨i, List.mem_of_getElem? hi, rfl⟩
  refine ⟨?_, ?_, ?_⟩
  · intro p name h
    obtain ⟨i, hi, rfl⟩ := hname p name h
    exact (hall i hi).1
  · intro p name h
    obtain ⟨i, hi, rfl⟩ := hname p name h
    exact (hall i hi).2.1
  · intro p name h
    obtain ⟨i, hi, rfl⟩ := hname p name h
    exact (hall i hi).2.2

def setOne : List (Action Sample) := [.op (.set 0 1 (some (.ofFloat one)))]

def setTiny : List (Action Sample) := [.op (.set 0 1 (some (.ofFloat tiny)))]

def setId : List (Action Sample) := [.op (.set 0 0 (some (.ofInt 0x130000)))]

theorem getDefaultValue_set (acts : List (Action Sample))
    (hsets : ∀ a ∈ acts, ∃ now p val, a = .op (.set now p val)) (q : Handle) :
    (Store.init Sample).getDefaultValue table q =
      (reached table ⟨true, true⟩ acts).getDefaultValue table q := by
  have hcustom : ∀ (s : Store Sample), Valid table s →
      (Trace.run (Store.act table ⟨true, true⟩) s acts).custom = s.custom := by
    induction acts with
    | nil => exact fun s _ => rfl
    | cons a acts ih =>
      intro s hs
      obtain ⟨⟨now, p, val, rfl⟩, htail⟩ := List.forall_mem_cons.mp hsets
      rw [Trace.run_cons, ih htail _ (hs.act _ _)]
      exact custom_setInternal hs.changed now p val false
  rw [Store.getDefaultValue, Store.getDefaultValue, reached, hcustom _ (valid_init table)]

/-- The number comes back. -/
theorem one_reloaded :
    let s := reached table ⟨true, true⟩ setOne
    let file := (s.paramExport table ⟨[], 0, []⟩ false none).2.1
    let loaded := (Store.init Sample).paramLoad table ⟨true, true⟩ 0 file.rewind
    loaded.2 = true ∧ loaded.1.get table 1 = some (.float one) := by
  have hload := paramLoad_paramExport ⟨true, true⟩ compiled_table setOne [] [] [] 0
    (getDefaultValue_set setOne (by simp [setOne])) (by decide +kernel)
  exact ⟨hload.1, (hload.2 1).trans (by decide +kernel)⟩

/-- A store is exported to a new file and loaded after a restart: whether both were successful,
and the value of a parameter before and after. -/
def saveAndLoad (acts : List (Action Sample)) (p : Handle) :
    Bool × Bool × Option (Value Sample) × Option (Value Sample) :=
  let s := reached table ⟨true, true⟩ acts
  let out := s.paramExport table ⟨[], 0, []⟩ false none
  let loaded := (Store.init Sample).paramLoad table ⟨true, true⟩ 0 out.2.1.rewind
  (out.2.2, loaded.2, s.get table p, loaded.1.get table p)

/-- The number becomes the default, and the identifier gets its present type, though the defaults
are the same. -/
theorem not_every_value_reloaded :
    (∀ acts ∈ [setTiny, setId], ∀ p, (Store.init Sample).getDefaultValue table p =
      (reached table ⟨true, true⟩ acts).getDefaultValue table p) ∧
    saveAndLoad setTiny 1 = (true, true, some (.float tiny), some (.float zero)) ∧
    saveAndLoad setId 0 = (true, true, some (.int32 0x130000), some (.int32 0x210000)) := by
  refine ⟨fun acts hacts => getDefaultValue_set acts ?_, by decide +kernel, by decide +kernel⟩
  rcases List.mem_pair.mp hacts with rfl | rfl
  · simp [setTiny]
  · simp [setId]

end Sample

end Param
