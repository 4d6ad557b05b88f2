/-
The parameter store.

The compiled table gives every parameter a name, a type and a default.  Values that have been
set, and defaults that have been set at run time, are kept in two arrays that are sorted by the
number of the parameter.  A bit set for each of the two says which parameters have an entry, and
an entry is searched for only if its bit is set.

`float` is a parameter of the model: of its arithmetic only the comparisons with `FLT_EPSILON`
count.  The pointer to a value is a `Word`, which can be read as a number of either type.
Memory is always there.
-/
import AerialManipulator.Lib.SortedArray

namespace Param

/-- What is used of `float`: zero, and whether two numbers differ by less than `FLT_EPSILON`, or
by at most that. -/
class Floats (F : Type) where
  zero : F
  /-- `fabsf(x - y) < FLT_EPSILON` -/
  near : F → F → Bool
  /-- `fabsf(x - y) <= FLT_EPSILON` -/
  close : F → F → Bool

inductive ParamType
  | INT32
  | FLOAT
  deriving DecidableEq

/-- `union param_value_u`, with the type of the parameter. -/
inductive Value (F : Type)
  | int32 (i : Int32)
  | float (f : F)
  deriving DecidableEq

/-- The memory behind a `const void *val`, read as `*(int32_t *)val` and as `*(float *)val`. -/
structure Word (F : Type) where
  i : Int32
  f : F

variable {F : Type}

def Value.type : Value F → ParamType
  | int32 _ => .INT32
  | float _ => .FLOAT

def Word.read (w : Word F) : ParamType → Value F
  | .INT32 => .int32 w.i
  | .FLOAT => .float w.f

theorem Word.type_read (w : Word F) (type : ParamType) : (w.read type).type = type := by
  cases type <;> rfl

/-- The bytes of a name, without the terminator. -/
abbrev Name := List UInt8

/-- The codes of the characters, in whose order `strcmp` compares. -/
def codes (n : Name) : List ℕ := n.map UInt8.toNat

/-- `param_info_s` and the type. -/
structure ParamInfo (F : Type) where
  name : Name
  val : Value F

/-- `px4::parameters`, in the order of the names. -/
structure Table (F : Type) where
  parameters : List (ParamInfo F)
  sorted : SortedArray.Sorted (fun i => codes i.name) parameters

/-- The number of a parameter, `param_t`. -/
abbrev Handle := ℕ

namespace Table

variable (t : Table F)

def paramInfoCount : ℕ := t.parameters.length

def handleInRange (p : Handle) : Prop := p < t.paramInfoCount

instance (p : Handle) : Decidable (t.handleInRange p) := Nat.decLt _ _

def paramName (p : Handle) : Option Name := t.parameters[p]?.map ParamInfo.name

def static (p : Handle) : Option (Value F) := t.parameters[p]?.map ParamInfo.val

def paramType (p : Handle) : Option ParamType := (t.static p).map Value.type

/-- The loop of `param_find_internal`, with enough turns. -/
def findLoop (name : Name) : ℕ → Handle → Handle → Option Handle
  | 0, _, _ => none
  | fuel + 1, front, last =>
    let middle := front + (last - front) / 2
    match t.paramName middle with
    | none => none
    | some n =>
      match cmp (codes name) (codes n) with
      | .eq => some middle
      | .lt => if middle = front then none else findLoop name fuel front middle
      | .gt => if middle = front then none else findLoop name fuel middle last

/-- `param_find_internal`; `none` is `PARAM_INVALID`. -/
def find (name : Name) : Option Handle := t.findLoop name (t.paramInfoCount + 1) 0 t.paramInfoCount

end Table

/-- `param_wbuf_s`. -/
structure WBuf (F : Type) where
  val : Value F
  param : Handle
  unsaved : Bool

/-- An array of values and the bit set of the parameters that it has values for:
`param_values` with `params_changed`, and `param_custom_default_values` with
`params_custom_default`. -/
structure Layer (F : Type) where
  values : Option (List (WBuf F))
  bits : Handle → Bool

namespace Layer

variable (x : Layer F)

/-- `utarray_find`. -/
def search (p : Handle) : Option ℕ := x.values.bind (SortedArray.bsearch WBuf.param p)

/-- The entry of a parameter, which is searched for if the bit is set; `param_find_changed`. -/
def find (p : Handle) : Option (WBuf F) :=
  if x.bits p then (x.search p).bind fun i => (x.values.getD [])[i]? else none

/-- The array is made if it is not there, with all bits cleared. -/
def create : Layer F := if x.values.isNone then ⟨some [], fun _ => false⟩ else x

/-- `utarray_push_back` and `utarray_sort`. -/
def push (b : WBuf F) : Layer F :=
  { x with values := x.values.map (SortedArray.insert WBuf.param b) }

def write (i : ℕ) (b : WBuf F) : Layer F := { x with values := x.values.map (List.set · i b) }

def erase (i : ℕ) : Layer F := { x with values := x.values.map (List.eraseIdx · i) }

def eraseFound (found : Option ℕ) : Layer F := found.elim x x.erase

def setBit (p : Handle) (b : Bool) : Layer F := { x with bits := Function.update x.bits p b }

end Layer

/-- The variables of the automatic saving; `work` is the delay with which the worker has been
queued. -/
structure Autosave where
  last_autosave_timestamp : UInt64
  work : Option UInt64
  scheduled : Bool
  disabled : Bool

def Autosave.autosave (a : Autosave) (now : UInt64) : Autosave :=
  if a.scheduled || a.disabled then a
  else
    let delay : UInt64 := 300000
    let rate_limit : UInt64 := 2000000
    let last_save_elapsed := now - a.last_autosave_timestamp
    let delay := if last_save_elapsed < rate_limit ∧ rate_limit > last_save_elapsed + delay
      then rate_limit - last_save_elapsed else delay
    { a with scheduled := true, work := some delay }

/-- The state of the store: the values, the defaults that have been set, and the parameters that
are in use. -/
structure Store (F : Type) where
  changed : Layer F
  custom : Layer F
  params_active : Handle → Bool
  autosave : Autosave

def Store.init (F : Type) : Store F :=
  ⟨⟨none, fun _ => false⟩, ⟨none, fun _ => false⟩, fun _ => false, ⟨0, none, false, false⟩⟩

namespace Store

variable (t : Table F) (s : Store F)

/-! ### Reading -/

/-- `param_get_default_value_internal`. -/
def getDefaultValue (p : Handle) : Option (Value F) :=
  if t.handleInRange p then ((s.custom.find p).map WBuf.val).or (t.static p) else none

/-- `param_get_value_ptr`, which is what `param_get` copies. -/
def get (p : Handle) : Option (Value F) :=
  if t.handleInRange p then
    ((s.changed.find p).map WBuf.val).or (((s.custom.find p).map WBuf.val).or (t.static p))
  else none

def valueUnsaved (p : Handle) : Bool := ((s.changed.find p).map WBuf.unsaved).getD false

/-! ### Changing -/

section Change

variable [Floats F]

def zeroValue : ParamType → Value F
  | .INT32 => .int32 0
  | .FLOAT => .float Floats.zero

/-- `param_set_internal`, and whether it was successful; a missing value is a null pointer. -/
def setInternal (now : UInt64) (p : Handle) (val : Option (Word F)) (mark_saved : Bool) :
    Store F × Bool :=
  match t.paramType p, val with
  | none, _ => (s, false)
  | some _, none => (s, false)
  | some type, some w =>
    let x := s.changed.create
    let x := if (x.find p).isNone then (x.push ⟨zeroValue type, p, false⟩).setBit p true else x
    match x.search p with
    | none => ({ s with changed := x }, false)
    | some i =>
      let x := (x.write i ⟨w.read type, p, !mark_saved⟩).setBit p true
      ({ s with
        changed := x
        autosave := if mark_saved then s.autosave else s.autosave.autosave now }, true)

def settingToStaticDefault : Value F → Value F → Bool
  | .int32 i, .int32 j => i = j
  | .float f, .float g => Floats.near f g
  | _, _ => false

def setDefaultValue (p : Handle) (val : Option (Word F)) : Store F × Bool :=
  match t.static p, val with
  | none, _ => (s, false)
  | some _, none => (s, false)
  | some static, some w =>
    let x := s.custom.create
    if settingToStaticDefault static (w.read static.type) then
      ({ s with custom := (x.eraseFound (x.search p)).setBit p false }, true)
    else
      let x := if (x.search p).isNone then x.push ⟨zeroValue static.type, p, false⟩ else x
      match x.search p with
      | none => ({ s with custom := x }, false)
      | some i =>
        ({ s with custom := (x.write i ⟨w.read static.type, p, false⟩).setBit p true }, true)

end Change

def resetInternal (now : UInt64) (p : Handle) : Store F × Bool :=
  let autosave := s.autosave.autosave now
  if t.handleInRange p then
    let found := if s.changed.bits p then s.changed.search p else none
    ({ s with changed := (s.changed.eraseFound found).setBit p false, autosave := autosave }, true)
  else ({ s with autosave := autosave }, false)

def resetAllInternal (now : UInt64) (auto_save : Bool) : Store F :=
  { s with
    changed := ⟨none, if s.changed.values.isNone then s.changed.bits else fun _ => false⟩
    autosave := if auto_save then s.autosave.autosave now else s.autosave }

/-- The test of `param_reset_excludes` and `param_reset_specific`: a pattern is a name, or the
beginning of names with an asterisk behind it.  (With an empty pattern the byte before it is
looked at, which makes no difference.) -/
def matchesPattern (name pattern : Name) : Bool :=
  (pattern.getLast? = some '*'.toUInt8 && pattern.dropLast.isPrefixOf name) || name = pattern

def matchesAny (patterns : List Name) (name : Name) : Bool := patterns.any (matchesPattern name)

/-- `param_reset` for all parameters whose name meets a condition. -/
def resetWhere (now : UInt64) (test : Name → Bool) : Store F :=
  (List.range t.paramInfoCount).foldl
    (fun s p => if (t.paramName p).any test then (s.resetInternal t now p).1 else s) s

def resetExcludes (now : UInt64) (excludes : List Name) : Store F :=
  s.resetWhere t now fun name => ! matchesAny excludes name

def resetSpecific (now : UInt64) (resets : List Name) : Store F :=
  s.resetWhere t now (matchesAny resets)

def setUsed (p : Handle) : Store F :=
  if t.handleInRange p then { s with params_active := Function.update s.params_active p true }
  else s

def find (name : Name) : Store F × Option Handle :=
  match t.find name with
  | some p => (s.setUsed t p, some p)
  | none => (s, none)

end Store

end Param
