/-
The parameter store is a map.

`Spec` is what the store is for: for each parameter the value that has been set last and the
default that has been set last, if there are any.  `param_get` gives the first of the value, the
default and the compiled default that is there.  The store keeps a default only if it is not the
compiled one, up to `FLT_EPSILON` for a `float`.

* **`store_refines`** — after every sequence of operations the store gives what the map gives,
  both arrays are sorted without duplicates, the bits say which entries there are, and an
  operation on one parameter leaves the others alone.
-/
import AerialManipulator.Lib.Trace
import AerialManipulator.Param.Parameters

open SortedArray

namespace Param

variable {F : Type}

/-! ### A layer is a map -/

namespace Layer

def entry (x : Layer F) (p : Handle) : Option (WBuf F) := lookup WBuf.param p (x.values.getD [])

/-- The array is sorted without duplicates, and the bits say which entries there are. -/
structure Ok (x : Layer F) : Prop where
  sorted : Sorted WBuf.param (x.values.getD [])
  bits : ∀ p, x.bits p = (x.entry p).isSome

variable {x : Layer F}

theorem search_bind (x : Layer F) (p : Handle) :
    ((x.search p).bind fun i => (x.values.getD [])[i]?) = x.entry p := by
  unfold search entry lookup
  cases x.values with
  | none => rfl
  | some l => rfl

theorem Ok.find (hx : x.Ok) (p : Handle) : x.find p = x.entry p := by
  unfold Layer.find
  rw [search_bind]
  split
  · rfl
  · next hbit =>
    rw [hx.bits, Bool.not_eq_true, Option.isSome_eq_false_iff, Option.isNone_iff_eq_none] at hbit
    exact hbit.symm

theorem param_of_entry (hx : Sorted WBuf.param (x.values.getD [])) {p : Handle} {b : WBuf F}
    (hb : x.entry p = some b) : b.param = p := ((lookup_eq_some hx).mp hb).2

theorem search_eq_none (hx : Sorted WBuf.param (x.values.getD [])) {p : Handle} :
    x.search p = none ↔ x.entry p = none := by
  unfold search entry
  cases hv : x.values with
  | none => simp
  | some l =>
    rw [hv] at hx
    exact bsearch_eq_none hx

theorem Ok.create (hx : x.Ok) : x.create.Ok ∧ (∀ p, x.create.entry p = x.entry p) ∧
    x.create.values.isSome := by
  unfold Layer.create
  split
  · next hnone =>
    have hentry : ∀ p, x.entry p = none := by
      intro p
      rw [entry, Option.isNone_iff_eq_none.mp hnone]
      rfl
    exact ⟨⟨sorted_nil, fun _ => rfl⟩, fun p => (hentry p).symm, rfl⟩
  · next hsome => exact ⟨hx, fun _ => rfl, Option.isSome_iff_ne_none.mpr (by simpa using hsome)⟩

theorem entry_push (hx : Sorted WBuf.param (x.values.getD [])) (hsome : x.values.isSome)
    {b : WBuf F} (hnew : x.entry b.param = none) :
    Sorted WBuf.param ((x.push b).values.getD []) ∧ (x.push b).values.isSome ∧
      ∀ q, (x.push b).entry q = if q = b.param then some b else x.entry q := by
  obtain ⟨l, hl⟩ := Option.isSome_iff_exists.mp hsome
  unfold push entry at *
  dsimp only
  rw [hl] at hx hnew ⊢
  exact ⟨hx.insert hnew, rfl, lookup_insert hx hnew⟩

theorem entry_provide (hx : Sorted WBuf.param (x.values.getD [])) (hsome : x.values.isSome)
    (b : WBuf F) {y : Layer F}
    (hy : y.values = if x.entry b.param = none then (x.push b).values else x.values) :
    Sorted WBuf.param (y.values.getD []) ∧ (∀ q, q ≠ b.param → y.entry q = x.entry q) ∧
      y.entry b.param ≠ none := by
  unfold entry
  rw [hy]
  by_cases hnone : x.entry b.param = none
  · obtain ⟨hsorted, -, hpush⟩ := entry_push hx hsome hnone
    rw [if_pos hnone]
    refine ⟨hsorted, fun q hq => (hpush q).trans (if_neg hq), ?_⟩
    exact ne_of_eq_of_ne ((hpush b.param).trans (if_pos rfl)) (by simp)
  · rw [if_neg hnone]
    exact ⟨hx, fun _ _ => rfl, hnone⟩

theorem entry_write (hx : Sorted WBuf.param (x.values.getD [])) {p : Handle} {i : ℕ}
    (hi : x.search p = some i) {b : WBuf F} (hb : b.param = p) :
    Sorted WBuf.param ((x.write i b).values.getD []) ∧
      ∀ q, (x.write i b).entry q = if q = p then some b else x.entry q := by
  unfold search at hi
  unfold write entry
  dsimp only
  cases hv : x.values with
  | none => exact absurd hi (by simp [hv])
  | some l =>
    rw [hv] at hx hi
    obtain ⟨a, ha, hka⟩ := (bsearch_eq_some hx).mp hi
    exact ⟨hx.set ha (hb.trans hka.symm), lookup_set hx hi hb⟩

theorem entry_erase (hx : Sorted WBuf.param (x.values.getD [])) {p : Handle} {i : ℕ}
    (hi : x.search p = some i) :
    Sorted WBuf.param ((x.erase i).values.getD []) ∧
      ∀ q, (x.erase i).entry q = if q = p then none else x.entry q := by
  unfold search at hi
  unfold erase entry
  dsimp only
  cases hv : x.values with
  | none => exact absurd hi (by simp [hv])
  | some l =>
    rw [hv] at hx hi
    exact ⟨hx.eraseIdx i, lookup_eraseIdx hx hi⟩

@[simp] theorem entry_setBit (p : Handle) (b : Bool) (q : Handle) :
    (x.setBit p b).entry q = x.entry q := rfl

theorem ok_setBit {y : Layer F} (hx : ∀ q, x.bits q = (x.entry q).isSome)
    (hsorted : Sorted WBuf.param (y.values.getD [])) {p : Handle}
    (hbits : ∀ q, q ≠ p → y.bits q = x.bits q) {b : Option (WBuf F)}
    (hentry : ∀ q, y.entry q = if q = p then b else x.entry q) :
    (y.setBit p b.isSome).Ok ∧
      ∀ q, (y.setBit p b.isSome).entry q = if q = p then b else x.entry q := by
  refine ⟨⟨hsorted, fun q => ?_⟩, hentry⟩
  rw [entry_setBit, hentry, setBit]
  dsimp only
  rw [Function.update_apply]
  split
  · rfl
  · next hq => exact (hbits q hq).trans (hx q)

theorem ok_remove (hx : x.Ok) (p : Handle) :
    ((x.eraseFound (x.search p)).setBit p false).Ok ∧
      ∀ q, ((x.eraseFound (x.search p)).setBit p false).entry q =
        if q = p then none else x.entry q := by
  unfold eraseFound
  cases hi : x.search p with
  | none =>
    have hnone := (search_eq_none hx.sorted).mp hi
    refine ok_setBit (b := none) hx.bits hx.sorted (fun _ _ => rfl) fun q => ?_
    split
    · next hq => rw [hq, hnone]
    · rfl
  | some i =>
    obtain ⟨hsorted, herase⟩ := entry_erase hx.sorted hi
    exact ok_setBit (b := none) hx.bits hsorted (fun _ _ => rfl) herase

end Layer

/-! ### The operations -/

namespace Store

variable {t : Table F} {s : Store F} {p : Handle}

section Set

variable [Floats F]

theorem setInternal_fail (now : UInt64) {val : Option (Word F)} (mark_saved : Bool)
    (hfail : t.paramType p = none ∨ val = none) :
    s.setInternal t now p val mark_saved = (s, false) := by
  unfold setInternal
  rcases hfail with htype | rfl
  · rw [htype]
  · cases t.paramType p <;> rfl

theorem setInternal_spec (hs : s.changed.Ok) {type : ParamType} (htype : t.paramType p = some type)
    (now : UInt64) (w : Word F) (mark_saved : Bool) :
    (s.setInternal t now p (some w) mark_saved).2 = true ∧
      (s.setInternal t now p (some w) mark_saved).1.changed.Ok ∧
      (∀ q, (s.setInternal t now p (some w) mark_saved).1.changed.entry q =
        if q = p then some ⟨w.read type, p, !mark_saved⟩ else s.changed.entry q) ∧
      (s.setInternal t now p (some w) mark_saved).1.custom = s.custom ∧
      (s.setInternal t now p (some w) mark_saved).1.autosave =
        if mark_saved then s.autosave else s.autosave.autosave now := by
  obtain ⟨hcreate, hsame, hsome⟩ := hs.create
  set x := s.changed.create with hx
  obtain ⟨y, hy⟩ : ∃ y, y = if (x.find p).isNone then
    (x.push ⟨zeroValue type, p, false⟩).setBit p true else x := ⟨_, rfl⟩
  have hvalues : y.values =
      if x.entry p = none then (x.push ⟨zeroValue type, p, false⟩).values else x.values := by
    rw [hy, hcreate.find]
    simp only [Option.isNone_iff_eq_none]
    split <;> rfl
  have hbits : ∀ q, q ≠ p → y.bits q = s.changed.bits q := by
    intro q hq
    have hsame' : x.bits q = s.changed.bits q := by rw [hcreate.bits, hs.bits, hsame]
    rw [hy, ← hsame']
    split
    · exact Function.update_of_ne hq _ _
    · rfl
  obtain ⟨hsorted, hentry, hp⟩ := Layer.entry_provide hcreate.sorted hsome
    ⟨zeroValue type, p, false⟩ hvalues
  obtain ⟨i, hi⟩ := Option.ne_none_iff_exists'.mp ((Layer.search_eq_none hsorted).not.mpr hp)
  obtain ⟨hwritten, hwrite⟩ := Layer.entry_write hsorted hi (b := ⟨w.read type, p, !mark_saved⟩) rfl
  have hset : s.setInternal t now p (some w) mark_saved = ({ s with
      changed := (y.write i ⟨w.read type, p, !mark_saved⟩).setBit p true
      autosave := if mark_saved then s.autosave else s.autosave.autosave now }, true) := by
    unfold setInternal
    rw [htype]
    dsimp only
    rw [← hx, ← hy, hi]
  have hall : ∀ q, (y.write i ⟨w.read type, p, !mark_saved⟩).entry q =
      if q = p then some ⟨w.read type, p, !mark_saved⟩ else s.changed.entry q := by
    intro q
    rw [hwrite]
    split
    · rfl
    · next hq => rw [hentry q hq, hsame]
  obtain ⟨hok, hfinal⟩ := Layer.ok_setBit hs.bits hwritten hbits hall
  rw [hset]
  exact ⟨rfl, hok, hfinal, rfl, rfl⟩

def keeps (t : Table F) (p : Handle) (d : Value F) : Bool :=
  ! (t.static p).any (settingToStaticDefault · d)

theorem setDefaultValue_fail {val : Option (Word F)} (hfail : t.static p = none ∨ val = none) :
    s.setDefaultValue t p val = (s, false) := by
  unfold setDefaultValue
  rcases hfail with hstatic | rfl
  · rw [hstatic]
  · cases t.static p <;> rfl

theorem setDefaultValue_spec (hs : s.custom.Ok) {static : Value F}
    (hstatic : t.static p = some static) (w : Word F) :
    (s.setDefaultValue t p (some w)).1.custom.Ok ∧
      (∀ q, (s.setDefaultValue t p (some w)).1.custom.entry q =
        if q = p then
          if keeps t p (w.read static.type) then some ⟨w.read static.type, p, false⟩ else none
        else s.custom.entry q) ∧
      (s.setDefaultValue t p (some w)).1.changed = s.changed := by
  obtain ⟨hcreate, hsame, hsome⟩ := hs.create
  have hkeeps : keeps t p (w.read static.type) =
      ! settingToStaticDefault static (w.read static.type) := by
    unfold keeps
    rw [hstatic]
    rfl
  unfold setDefaultValue
  rw [hstatic, hkeeps]
  dsimp only
  set x := s.custom.create with hx
  have hsame' : ∀ q, x.bits q = s.custom.bits q := by
    intro q
    rw [hcreate.bits, hs.bits, hsame]
  by_cases hdefault : settingToStaticDefault static (w.read static.type) = true
  · rw [if_pos hdefault, hdefault]
    obtain ⟨hok, hfinal⟩ := Layer.ok_remove hcreate p
    refine ⟨hok, fun q => (hfinal q).trans ?_, rfl⟩
    rw [hsame]
    rfl
  · rw [if_neg hdefault, (Bool.not_eq_true _).mp hdefault]
    obtain ⟨y, hy⟩ : ∃ y, y = if (x.search p).isNone then
      x.push ⟨zeroValue static.type, p, false⟩ else x := ⟨_, rfl⟩
    have hvalues : y.values =
        if x.entry p = none then (x.push ⟨zeroValue static.type, p, false⟩).values
        else x.values := by
      rw [hy]
      simp only [Option.isNone_iff_eq_none, Layer.search_eq_none hcreate.sorted]
      split <;> rfl
    have hbits : ∀ q, q ≠ p → y.bits q = s.custom.bits q := by
      intro q _
      rw [hy, ← hsame']
      split <;> rfl
    obtain ⟨hsorted, hentry, hp⟩ := Layer.entry_provide hcreate.sorted hsome
      ⟨zeroValue static.type, p, false⟩ hvalues
    obtain ⟨i, hi⟩ := Option.ne_none_iff_exists'.mp ((Layer.search_eq_none hsorted).not.mpr hp)
    obtain ⟨hwritten, hwrite⟩ := Layer.entry_write hsorted hi
      (b := ⟨w.read static.type, p, false⟩) rfl
    have hall : ∀ q, (y.write i ⟨w.read static.type, p, false⟩).entry q =
        if q = p then some ⟨w.read static.type, p, false⟩ else s.custom.entry q := by
      intro q
      rw [hwrite]
      split
      · rfl
      · next hq => rw [hentry q hq, hsame]
    obtain ⟨hok, hfinal⟩ := Layer.ok_setBit hs.bits hwritten hbits hall
    rw [← hy, hi]
    exact ⟨hok, hfinal, rfl⟩

end Set

theorem resetInternal_fail (now : UInt64) (hp : ¬ t.handleInRange p) :
    (s.resetInternal t now p).1 = { s with autosave := s.autosave.autosave now } := by
  unfold resetInternal
  rw [if_neg hp]

theorem resetInternal_spec (hs : s.changed.Ok) (now : UInt64) (hp : t.handleInRange p) :
    (s.resetInternal t now p).1.changed.Ok ∧
      (∀ q, (s.resetInternal t now p).1.changed.entry q =
        if q = p then none else s.changed.entry q) ∧
      (s.resetInternal t now p).1.custom = s.custom := by
  have hsearch : (if s.changed.bits p then s.changed.search p else none) = s.changed.search p := by
    split
    · rfl
    · next hbit =>
      rw [hs.bits, Bool.not_eq_true, Option.isSome_eq_false_iff, Option.isNone_iff_eq_none] at hbit
      exact ((Layer.search_eq_none hs.sorted).mpr hbit).symm
  obtain ⟨hok, hentry⟩ := Layer.ok_remove hs p
  unfold resetInternal
  rw [if_pos hp]
  dsimp only
  rw [hsearch]
  exact ⟨hok, hentry, rfl⟩

theorem resetAllInternal_spec (hs : s.changed.Ok) (now : UInt64) (auto_save : Bool) :
    (s.resetAllInternal now auto_save).changed.Ok ∧
      ∀ q, (s.resetAllInternal now auto_save).changed.entry q = none := by
  refine ⟨⟨sorted_nil, fun q => ?_⟩, fun _ => rfl⟩
  unfold resetAllInternal
  dsimp only
  split
  · next hnone =>
    rw [hs.bits, Layer.entry, Option.isNone_iff_eq_none.mp hnone]
    rfl
  · rfl

theorem resetWhere_spec (hs : s.changed.Ok) (now : UInt64) (test : Name → Bool) :
    (s.resetWhere t now test).changed.Ok ∧
      (∀ q, (s.resetWhere t now test).changed.entry q =
        if (t.paramName q).any test then none else s.changed.entry q) ∧
      (s.resetWhere t now test).custom = s.custom := by
  -- the parameters of a part of the list
  have hlist : ∀ (ps : List Handle) (s : Store F), s.changed.Ok → (∀ p ∈ ps, t.handleInRange p) →
      let out := ps.foldl
        (fun s p => if (t.paramName p).any test then (s.resetInternal t now p).1 else s) s
      out.changed.Ok ∧ (∀ q, out.changed.entry q =
        if q ∈ ps ∧ (t.paramName q).any test then none else s.changed.entry q) ∧
        out.custom = s.custom := by
    intro ps
    induction ps with
    | nil => exact fun s hs _ => ⟨hs, fun q => by simp, rfl⟩
    | cons p ps ih =>
      intro s hs hps
      obtain ⟨hp, hps⟩ := List.forall_mem_cons.mp hps
      rw [List.foldl_cons]
      by_cases htest : (t.paramName p).any test = true
      · obtain ⟨hok, hentry, hcustom⟩ := resetInternal_spec hs now hp
        rw [if_pos htest]
        obtain ⟨hok', hentry', hcustom'⟩ := ih _ hok hps
        refine ⟨hok', fun q => ?_, hcustom'.trans hcustom⟩
        rw [hentry', hentry]
        by_cases hq : q = p
        · simp [hq, htest]
        · simp [hq]
      · rw [if_neg htest]
        obtain ⟨hok', hentry', hcustom'⟩ := ih s hs hps
        refine ⟨hok', fun q => ?_, hcustom'⟩
        rw [hentry']
        by_cases hq : q = p
        · simp [hq, htest]
        · simp [hq]
  obtain ⟨hok, hentry, hcustom⟩ := hlist (List.range t.paramInfoCount) s hs
    fun p hp => List.mem_range.mp hp
  refine ⟨hok, fun q => (hentry q).trans ?_, hcustom⟩
  by_cases hq : t.handleInRange q
  · simp only [List.mem_range, show q < t.paramInfoCount from hq, true_and]
  · have hname : t.paramName q = none := by
      unfold Table.paramName
      rw [List.getElem?_eq_none (not_lt.mp hq)]
      rfl
    simp [hname]

end Store

/-! ### The map -/

inductive Op (F : Type)
  | set (now : UInt64) (p : Handle) (val : Option (Word F))
  | setDefaultValue (p : Handle) (val : Option (Word F))
  | reset (now : UInt64) (p : Handle)
  | resetAll (now : UInt64)
  | resetExcludes (now : UInt64) (excludes : List Name)
  | resetSpecific (now : UInt64) (resets : List Name)
  | find (name : Name)
  | get (p : Handle)

/-- The parameters that an operation is about. -/
def Op.Targets (t : Table F) (q : Handle) : Op F → Prop
  | set _ p _ => q = p
  | setDefaultValue p _ => q = p
  | reset _ p => q = p
  | resetAll _ => True
  | resetExcludes _ excludes => (t.paramName q).any (fun n => ! Store.matchesAny excludes n) = true
  | resetSpecific _ resets => (t.paramName q).any (Store.matchesAny resets) = true
  | find _ => False
  | get _ => False

/-- For each parameter the value and the default that have been set last. -/
structure Spec (F : Type) where
  value : Handle → Option (Value F)
  dflt : Handle → Option (Value F)

def Spec.init (F : Type) : Spec F := ⟨fun _ => none, fun _ => none⟩

def Spec.setValue (t : Table F) (m : Spec F) (p : Handle) (val : Option (Word F)) : Spec F :=
  match t.paramType p, val with
  | some type, some w => { m with value := Function.update m.value p (some (w.read type)) }
  | _, _ => m

def Spec.setDefault (t : Table F) (m : Spec F) (p : Handle) (val : Option (Word F)) : Spec F :=
  match t.paramType p, val with
  | some type, some w => { m with dflt := Function.update m.dflt p (some (w.read type)) }
  | _, _ => m

/-- The values of the parameters with such a name are forgotten. -/
def Spec.forget (t : Table F) (m : Spec F) (test : Name → Bool) : Spec F :=
  { m with value := fun q => if (t.paramName q).any test then none else m.value q }

def Spec.step (t : Table F) (m : Spec F) : Op F → Spec F
  | .set _ p val => m.setValue t p val
  | .setDefaultValue p val => m.setDefault t p val
  | .reset _ p => { m with value := Function.update m.value p none }
  | .resetAll _ => { m with value := fun _ => none }
  | .resetExcludes _ excludes => m.forget t fun name => ! Store.matchesAny excludes name
  | .resetSpecific _ resets => m.forget t (Store.matchesAny resets)
  | .find _ => m
  | .get _ => m

theorem paramType_eq_none {t : Table F} {p : Handle} :
    t.paramType p = none ↔ ¬ t.handleInRange p := by
  unfold Table.paramType Table.static Table.handleInRange Table.paramInfoCount
  rw [Option.map_eq_none_iff, Option.map_eq_none_iff, List.getElem?_eq_none_iff, not_lt]

theorem static_eq_none {t : Table F} {p : Handle} : t.static p = none ↔ ¬ t.handleInRange p := by
  rw [← paramType_eq_none, Table.paramType, Option.map_eq_none_iff]

variable [Floats F]

def Store.step (t : Table F) (s : Store F) : Op F → Store F
  | .set now p val => (s.setInternal t now p val false).1
  | .setDefaultValue p val => (s.setDefaultValue t p val).1
  | .reset now p => (s.resetInternal t now p).1
  | .resetAll now => s.resetAllInternal now true
  | .resetExcludes now excludes => s.resetExcludes t now excludes
  | .resetSpecific now resets => s.resetSpecific t now resets
  | .find name => (s.find t name).1
  | .get _ => s

/-- The store stands for the map. -/
structure Refines (t : Table F) (s : Store F) (m : Spec F) : Prop where
  changed : s.changed.Ok
  custom : s.custom.Ok
  value : ∀ p, (s.changed.entry p).map WBuf.val = m.value p
  dflt : ∀ p, (s.custom.entry p).map WBuf.val = (m.dflt p).filter (Store.keeps t p)
  inRange : ∀ p, m.value p ≠ none → t.handleInRange p

variable {t : Table F} {s : Store F} {m : Spec F}

theorem refines_init (t : Table F) : Refines t (Store.init F) (Spec.init F) where
  changed := ⟨sorted_nil, fun _ => rfl⟩
  custom := ⟨sorted_nil, fun _ => rfl⟩
  value _ := rfl
  dflt _ := rfl
  inRange _ hp := absurd rfl hp

theorem Refines.of_changed (h : Refines t s m) {s' : Store F} {value : Handle → Option (Value F)}
    (hok : s'.changed.Ok) (hcustom : s'.custom = s.custom)
    (hvalue : ∀ p, (s'.changed.entry p).map WBuf.val = value p)
    (hrange : ∀ p, value p ≠ none → t.handleInRange p) :
    Refines t s' { m with value := value } where
  changed := hok
  custom := by rw [hcustom]; exact h.custom
  value := hvalue
  dflt := by rw [hcustom]; exact h.dflt
  inRange := hrange

theorem Refines.resetWhere (h : Refines t s m) (now : UInt64) (test : Name → Bool) :
    Refines t (s.resetWhere t now test) (m.forget t test) := by
  obtain ⟨hok, hentry, hcustom⟩ := Store.resetWhere_spec (t := t) h.changed now test
  refine h.of_changed hok hcustom (fun q => ?_) fun q hq => ?_
  · rw [hentry, ← h.value]
    split
    · rfl
    · rfl
  · split at hq
    · exact absurd rfl hq
    · exact h.inRange q hq

theorem Refines.set (h : Refines t s m) (now : UInt64) (p : Handle) (val : Option (Word F))
    (mark_saved : Bool) :
    Refines t (s.setInternal t now p val mark_saved).1 (m.setValue t p val) := by
  unfold Spec.setValue
  cases htype : t.paramType p with
  | none =>
    rw [Store.setInternal_fail now mark_saved (.inl htype)]
    exact h
  | some type =>
    cases val with
    | none =>
      rw [Store.setInternal_fail now mark_saved (.inr rfl)]
      exact h
    | some w =>
      obtain ⟨-, hok, hentry, hcustom, -⟩ :=
        Store.setInternal_spec h.changed htype now w mark_saved
      refine h.of_changed hok hcustom (fun q => ?_) fun q hq => ?_
      · rw [hentry, Function.update_apply, ← h.value]
        split
        · rfl
        · rfl
      · rw [Function.update_apply] at hq
        split at hq
        · next hqp =>
          by_contra hrange
          rw [hqp, ← paramType_eq_none, htype] at hrange
          exact absurd hrange (by simp)
        · exact h.inRange q hq

theorem Refines.setDefaultValue (h : Refines t s m) (p : Handle) (val : Option (Word F)) :
    Refines t (s.setDefaultValue t p val).1 (m.setDefault t p val) := by
  unfold Spec.setDefault
  cases hstatic : t.static p with
  | none =>
    have htype : t.paramType p = none := by rw [Table.paramType, hstatic]; rfl
    rw [Store.setDefaultValue_fail (.inl hstatic), htype]
    exact h
  | some static =>
    have htype : t.paramType p = some static.type := by rw [Table.paramType, hstatic]; rfl
    rw [htype]
    cases val with
    | none =>
      rw [Store.setDefaultValue_fail (.inr rfl)]
      exact h
    | some w =>
      obtain ⟨hok, hentry, hchanged⟩ := Store.setDefaultValue_spec h.custom hstatic w
      refine ⟨hchanged ▸ h.changed, hok, hchanged ▸ h.value, fun q => ?_, h.inRange⟩
      dsimp only
      rw [hentry, Function.update_apply]
      by_cases hq : q = p
      · subst hq
        rw [if_pos rfl, if_pos rfl]
        by_cases hkeeps : Store.keeps t q (w.read static.type) = true
        · rw [if_pos hkeeps, Option.filter_some_pos hkeeps]
          rfl
        · rw [if_neg hkeeps, Option.filter_some_neg (Bool.not_eq_true _ ▸ hkeeps)]
          rfl
      · rw [if_neg hq, if_neg hq]
        exact h.dflt q

theorem Refines.reset (h : Refines t s m) (now : UInt64) (p : Handle) :
    Refines t (s.resetInternal t now p).1 { m with value := Function.update m.value p none } := by
  by_cases hp : t.handleInRange p
  · obtain ⟨hok, hentry, hcustom⟩ := Store.resetInternal_spec h.changed now hp
    refine h.of_changed hok hcustom (fun q => ?_) fun q hq => ?_
    · rw [hentry, Function.update_apply, ← h.value]
      split
      · rfl
      · rfl
    · rw [Function.update_apply] at hq
      split at hq
      · exact absurd rfl hq
      · exact h.inRange q hq
  · have hnone : m.value p = none := by
      by_contra hne
      exact hp (h.inRange p hne)
    have hsame : Function.update m.value p none = m.value := by
      rw [← hnone, Function.update_eq_self]
    rw [Store.resetInternal_fail now hp, hsame]
    exact ⟨h.changed, h.custom, h.value, h.dflt, h.inRange⟩

theorem Refines.resetAll (h : Refines t s m) (now : UInt64) (auto_save : Bool) :
    Refines t (s.resetAllInternal now auto_save) { m with value := fun _ => none } := by
  obtain ⟨hok, hentry⟩ := Store.resetAllInternal_spec h.changed now auto_save
  refine h.of_changed hok rfl (fun q => ?_) fun q hq => absurd rfl hq
  rw [hentry]
  rfl

theorem Refines.find (h : Refines t s m) (name : Name) : Refines t (s.find t name).1 m := by
  have hfind : (s.find t name).1.changed = s.changed ∧ (s.find t name).1.custom = s.custom := by
    unfold Store.find Store.setUsed
    split
    · split
      · exact ⟨rfl, rfl⟩
      · exact ⟨rfl, rfl⟩
    · exact ⟨rfl, rfl⟩
  refine ⟨?_, ?_, ?_, ?_, h.inRange⟩
  · exact hfind.1 ▸ h.changed
  · exact hfind.2 ▸ h.custom
  · exact hfind.1 ▸ h.value
  · exact hfind.2 ▸ h.dflt

theorem Refines.step (h : Refines t s m) (op : Op F) : Refines t (s.step t op) (m.step t op) := by
  cases op with
  | set now p val => exact h.set now p val false
  | setDefaultValue p val => exact h.setDefaultValue p val
  | reset now p => exact h.reset now p
  | resetAll now => exact h.resetAll now true
  | resetExcludes now excludes => exact h.resetWhere now _
  | resetSpecific now resets => exact h.resetWhere now _
  | find name => exact h.find name
  | get p => exact h

/-! ### What a program sees -/

/-- A default as the store gives it: the one that has been set or, for a `float` that is nearer
than `FLT_EPSILON` to it, the compiled one. -/
def UpToEpsilon (static dflt v : Value F) : Prop :=
  v = dflt ∨ v = static ∧ ∃ f g, static = .float f ∧ dflt = .float g ∧ Floats.near f g

/-- What the store says is what the map says, and its arrays are as they should be. -/
structure Agrees (t : Table F) (s : Store F) (m : Spec F) : Prop where
  value : ∀ p v, m.value p = some v → s.get t p = some v
  dflt : ∀ p static, m.value p = none → t.static p = some static →
    ∃ v, s.get t p = some v ∧ UpToEpsilon static ((m.dflt p).getD static) v
  getDefault : ∀ p static, t.static p = some static →
    ∃ v, s.getDefaultValue t p = some v ∧ UpToEpsilon static ((m.dflt p).getD static) v
  changed_sorted : Sorted WBuf.param (s.changed.values.getD [])
  custom_sorted : Sorted WBuf.param (s.custom.values.getD [])
  changed_bits : ∀ p, s.changed.bits p ↔ ∃ b ∈ s.changed.values.getD [], b.param = p
  custom_bits : ∀ p, s.custom.bits p ↔ ∃ b ∈ s.custom.values.getD [], b.param = p

theorem Layer.Ok.bits_iff {F : Type} {x : Layer F} (hx : x.Ok) (p : Handle) :
    x.bits p ↔ ∃ b ∈ x.values.getD [], b.param = p := by
  rw [hx.bits, Option.isSome_iff_exists]
  exact exists_congr fun b => lookup_eq_some hx.sorted

theorem Refines.default_eq (h : Refines t s m) {p : Handle} {static : Value F}
    (hstatic : t.static p = some static) :
    ∃ v, ((s.custom.find p).map WBuf.val).or (t.static p) = some v ∧
      UpToEpsilon static ((m.dflt p).getD static) v := by
  rw [h.custom.find, h.dflt, hstatic]
  cases hd : m.dflt p with
  | none => exact ⟨static, rfl, .inl rfl⟩
  | some d =>
    by_cases hkeeps : Store.keeps t p d = true
    · rw [Option.filter_some_pos hkeeps]
      exact ⟨d, rfl, .inl rfl⟩
    · rw [Option.filter_some_neg (Bool.not_eq_true _ ▸ hkeeps)]
      refine ⟨static, rfl, ?_⟩
      have hnear : Store.settingToStaticDefault static d = true := by
        simpa [Store.keeps, hstatic] using hkeeps
      rcases static with i | f
      · rcases d with j | g
        · exact .inl (by simpa [Store.settingToStaticDefault] using hnear)
        · exact absurd hnear (by simp [Store.settingToStaticDefault])
      · rcases d with j | g
        · exact absurd hnear (by simp [Store.settingToStaticDefault])
        · exact .inr ⟨rfl, f, g, rfl, rfl, hnear⟩

theorem Refines.agrees (h : Refines t s m) : Agrees t s m where
  value p v hv := by
    rw [Store.get, if_pos (h.inRange p (by rw [hv]; simp)), h.changed.find, h.value, hv]
    rfl
  dflt p static hv hstatic := by
    obtain ⟨v, hdefault, hupto⟩ := h.default_eq hstatic
    have hrange : t.handleInRange p := by
      by_contra hp
      rw [static_eq_none.mpr hp] at hstatic
      exact absurd hstatic (by simp)
    refine ⟨v, ?_, hupto⟩
    rw [Store.get, if_pos hrange, h.changed.find, h.value, hv, hdefault]
    rfl
  getDefault p static hstatic := by
    obtain ⟨v, hdefault, hupto⟩ := h.default_eq hstatic
    have hrange : t.handleInRange p := by
      by_contra hp
      rw [static_eq_none.mpr hp] at hstatic
      exact absurd hstatic (by simp)
    refine ⟨v, ?_, hupto⟩
    rw [Store.getDefaultValue, if_pos hrange, hdefault]
  changed_sorted := h.changed.sorted
  custom_sorted := h.custom.sorted
  changed_bits := h.changed.bits_iff
  custom_bits := h.custom.bits_iff

theorem Refines.get_congr {s' : Store F} {m' : Spec F} (h : Refines t s m) (h' : Refines t s' m')
    {q : Handle} (hvalue : m'.value q = m.value q) (hdflt : m'.dflt q = m.dflt q) :
    s'.get t q = s.get t q ∧ s'.getDefaultValue t q = s.getDefaultValue t q := by
  unfold Store.get Store.getDefaultValue
  rw [h.changed.find, h'.changed.find, h.custom.find, h'.custom.find, h.value, h'.value, h.dflt,
    h'.dflt, hvalue, hdflt]
  exact ⟨rfl, rfl⟩

omit [Floats F] in
theorem Spec.step_of_not_targets (m : Spec F) (op : Op F) {q : Handle} (hq : ¬ op.Targets t q) :
    (m.step t op).value q = m.value q ∧ (m.step t op).dflt q = m.dflt q := by
  cases op with
  | set now p val =>
    unfold Spec.step Spec.setValue
    dsimp only
    split
    · exact ⟨Function.update_of_ne hq _ _, rfl⟩
    · exact ⟨rfl, rfl⟩
  | setDefaultValue p val =>
    unfold Spec.step Spec.setDefault
    dsimp only
    split
    · exact ⟨rfl, Function.update_of_ne hq _ _⟩
    · exact ⟨rfl, rfl⟩
  | reset now p => exact ⟨Function.update_of_ne hq _ _, rfl⟩
  | resetAll now => exact absurd trivial hq
  | resetExcludes now excludes => exact ⟨if_neg hq, rfl⟩
  | resetSpecific now resets => exact ⟨if_neg hq, rfl⟩
  | find name => exact ⟨rfl, rfl⟩
  | get p => exact ⟨rfl, rfl⟩

/-- For every compiled table and every sequence of operations: the store gives what the map
gives, its arrays are sorted and the bits are right; and whatever operation comes next, the
parameters that it is not about keep their values and defaults. -/
theorem store_refines (t : Table F) (ops : List (Op F)) :
    Agrees t (Trace.run (Store.step t) (Store.init F) ops)
        (Trace.run (Spec.step t) (Spec.init F) ops) ∧
      ∀ op q, ¬ op.Targets t q →
        let s := Trace.run (Store.step t) (Store.init F) ops
        (s.step t op).get t q = s.get t q ∧
          (s.step t op).getDefaultValue t q = s.getDefaultValue t q := by
  have h : Refines t (Trace.run (Store.step t) (Store.init F) ops)
      (Trace.run (Spec.step t) (Spec.init F) ops) :=
    Trace.run_simulation (fun _ _ op h => h.step op) (refines_init t) ops
  refine ⟨h.agrees, fun op q hq => ?_⟩
  obtain ⟨hvalue, hdflt⟩ := Spec.step_of_not_targets
    (Trace.run (Spec.step t) (Spec.init F) ops) op hq
  exact h.get_congr (h.step op) hvalue hdflt

end Param
