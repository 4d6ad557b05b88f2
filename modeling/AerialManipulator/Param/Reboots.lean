/-
Restarts, one after the other.

The parameters are saved, and loaded again by a store that has just started.  What
`param_modify_on_import` does to the identifiers of sensors it does only once:

* `DeviceId.current_current` — an identifier in its present form stays as it is;
* `Store.reloaded_reloaded` — so does a value that has been saved and loaded;
* **`reboots`** — whatever the number of restarts, only the first one changes values.
-/
import AerialManipulator.Param.Persistence
import Mathlib.Tactic.FinCases

open ByteStream Bson SortedArray

namespace Param

/-! ### Identifiers -/

namespace DeviceId

theorem eq_of_bits {a b : UInt32} (h : ∀ i : Fin 32, a.toBitVec[i] = b.toBitVec[i]) : a = b :=
  UInt32.toBitVec_inj.mp (BitVec.eq_of_getLsbD_eq fun i hi => by
    simpa [BitVec.getLsbD_eq_getElem hi] using h ⟨i, hi⟩)

variable (d n : UInt32)

theorem devtype_setDevtype (hn : n &&& 0xFF = n) : devtype (setDevtype d n) = n := by
  rw [← hn]
  refine eq_of_bits fun i => ?_
  fin_cases i <;> simp [devtype, setDevtype]

theorem busType_setDevtype : busType (setDevtype d n) = busType d := by
  refine eq_of_bits fun i => ?_
  fin_cases i <;> simp [busType, setDevtype]

theorem clearAddress_setDevtype : clearAddress (setDevtype d n) = setDevtype
    (clearAddress d) n := by
  refine eq_of_bits fun i => ?_
  fin_cases i <;> simp [clearAddress, setDevtype]

theorem clearAddress_fields : clearAddress (clearAddress d) = clearAddress d ∧
    busType (clearAddress d) = busType d ∧ devtype (clearAddress d) = devtype d := by
  refine ⟨eq_of_bits fun i => ?_, eq_of_bits fun i => ?_, eq_of_bits fun i => ?_⟩
  · fin_cases i <;> simp [clearAddress]
  · fin_cases i <;> simp [clearAddress, busType]
  · fin_cases i <;> simp [clearAddress, devtype]

/-- The types that `current` replaces, with the present ones. -/
def replacements : List (UInt32 × UInt32) :=
  [(0x13, 0x21), (0x34, 0x36), (0x16, 0x24), (0x37, 0x38), (0x39, 0x3A), (0x3B, 0x3C), (0x02, 0x11)]

def translateAll (rs : List (UInt32 × UInt32)) (d : DeviceId) : DeviceId :=
  rs.foldl (fun d r => translate r.1 r.2 d) d

/-- What `translateAll` does to the type. -/
def replaceAll (rs : List (UInt32 × UInt32)) (type : UInt32) : UInt32 :=
  rs.foldl (fun x r => if x = r.1 then r.2 else x) type

def dropAddress (nuttx : Bool) (d : DeviceId) : DeviceId :=
  if nuttx && d.busType = 2 then d.clearAddress else d

theorem current_eq (nuttx : Bool) :
    current nuttx d = translateAll replacements (dropAddress nuttx d) := rfl

theorem devtype_translateAll {rs : List (UInt32 × UInt32)} (hrs : ∀ r ∈ rs, r.2 &&& 0xFF = r.2) :
    devtype (translateAll rs d) = replaceAll rs (devtype d) := by
  induction rs generalizing d with
  | nil => rfl
  | cons r rs ih =>
    obtain ⟨hr, hrs⟩ := List.forall_mem_cons.mp hrs
    rw [translateAll, List.foldl_cons, ← translateAll, ih _ hrs, replaceAll, replaceAll,
      List.foldl_cons, translate]
    by_cases htype : devtype d = r.1
    · rw [if_pos htype, if_pos htype, devtype_setDevtype d _ hr]
    · rw [if_neg htype, if_neg htype]

theorem translateAll_eq_self {rs : List (UInt32 × UInt32)} (hrs : ∀ r ∈ rs, devtype d ≠ r.1) :
    translateAll rs d = d := by
  refine foldl_eq_self fun r hr => ?_
  rw [translate, if_neg (hrs r hr)]

theorem replacements_masked : ∀ r ∈ replacements, r.2 &&& 0xFF = r.2 := by
  simp [replacements]
  decide

theorem replaceAll_ne :
    ∀ r ∈ replacements, ∀ r' ∈ replacements, replaceAll replacements r.1 ≠ r'.1 := by
  simp [replacements, replaceAll]

theorem translateAll_translateAll : translateAll replacements (translateAll replacements d) =
    translateAll replacements d := by
  by_cases hold : ∃ r ∈ replacements, devtype d = r.1
  · obtain ⟨r, hr, htype⟩ := hold
    refine translateAll_eq_self _ ?_
    rw [devtype_translateAll d replacements_masked, htype]
    exact replaceAll_ne r hr
  · have hself := translateAll_eq_self d fun r hr htype => hold ⟨r, hr, htype⟩
    rw [hself, hself]

theorem dropAddress_translateAll (nuttx : Bool) (rs : List (UInt32 × UInt32)) :
    dropAddress nuttx (translateAll rs d) = translateAll rs (dropAddress nuttx d) := by
  induction rs generalizing d with
  | nil => rfl
  | cons r rs ih =>
    rw [translateAll, translateAll, List.foldl_cons, List.foldl_cons, ← translateAll,
      ← translateAll, ih]
    congr 1
    obtain ⟨-, -, htype⟩ := clearAddress_fields d
    rw [dropAddress, dropAddress, translate, translate]
    split_ifs <;> simp_all [busType_setDevtype, clearAddress_setDevtype]

theorem current_current (nuttx : Bool) : current nuttx (current nuttx d) = current nuttx d := by
  have hdrop : dropAddress nuttx (dropAddress nuttx d) = dropAddress nuttx d := by
    obtain ⟨hclear, hbus, -⟩ := clearAddress_fields d
    rw [dropAddress, dropAddress]
    split_ifs <;> simp_all
  rw [current_eq, current_eq, dropAddress_translateAll, hdrop, translateAll_translateAll]

end DeviceId

/-! ### Values -/

section Reboots

variable {F : Type} [Doubles F] {t : Table F} (platform : Platform) {s s₀ : Store F} {p : Handle}

omit [Doubles F] in
theorem Value.imported_imported (nuttx : Bool) (name : Name) (v : Value F) :
    (v.imported nuttx name).imported nuttx name = v.imported nuttx name := by
  cases v with
  | int32 i =>
    simp only [Value.imported]
    split
    · rw [UInt32.toUInt32_toInt32, DeviceId.current_current]
    · rfl
  | float f => rfl

theorem Store.reloaded_reloaded (v : Value F) :
    s.reloaded t platform p (s.reloaded t platform p v) = s.reloaded t platform p v := by
  cases hd : s.getDefaultValue t p with
  | none => simp only [Store.reloaded, hd]
  | some d =>
    have hdefault := reloaded_default platform hd
    have hvalue : ∀ v, s.reloaded t platform p v = if Store.isDefaultValue v d then d
        else v.imported platform.nuttx ((t.paramName p).getD []) := fun v => by
      rw [Store.reloaded, hd]
    rw [hvalue v]
    split_ifs with hv
    · exact hdefault
    · rw [hvalue, Value.imported_imported]
      split_ifs with hw
      · -- only a whole number changes, and it is the default if it is as good as that
        cases v with
        | int32 i =>
          cases d with
          | int32 j => exact congrArg Value.int32 (of_decide_eq_true hw).symm
          | float g => exact absurd hw Bool.false_ne_true
        | float f => exact absurd hw hv
      · rfl

/-! ### Restarts -/

/-- The file that is written to, and the time of the start. -/
structure Reboot where
  content : List UInt8
  limits : List ℕ
  now : UInt64

def Store.saved (t : Table F) (s : Store F) (r : Reboot) : File × Bool :=
  (s.paramExport t ⟨r.content, 0, r.limits⟩ false none).2

/-- A store that has just started loads the parameters that are saved. -/
def Store.reboot (t : Table F) (platform : Platform) (boot s : Store F) (r : Reboot) : Store F :=
  (boot.paramLoad t platform r.now (s.saved t r).1.rewind).1

theorem reboot_spec (ht : t.Compiled) (hs : Valid t s) (hs₀ : Valid t s₀)
    (hdefaults : ∀ p, s₀.getDefaultValue t p = s.getDefaultValue t p) {r : Reboot}
    (hsaved : (s.saved t r).2 = true) :
    Valid t (s₀.reboot t platform s r) ∧
      (∀ p, s₀.getDefaultValue t p = (s₀.reboot t platform s r).getDefaultValue t p) ∧
      ∀ p, (s₀.reboot t platform s r).get t p = (s.get t p).map (s.reloaded t platform p) := by
  have hvalid : Valid t (s₀.reboot t platform s r) := hs₀.act platform (.load r.now _)
  obtain ⟨out, hload, -, hcustom, hentry⟩ := paramLoad_spec platform ht hs hs₀ hsaved r.now
  have hout : s₀.reboot t platform s r = out := congrArg Prod.fst hload
  rw [hout] at hvalid ⊢
  have hsame : ∀ p, s₀.getDefaultValue t p = out.getDefaultValue t p := fun p => by
    rw [Store.getDefaultValue, Store.getDefaultValue, hcustom]
  refine ⟨hvalid, hsame, fun p => ?_⟩
  by_cases hp : t.handleInRange p
  · obtain ⟨d, hd⟩ := exists_default s hp
    rw [get_eq hs hp, get_eq hvalid hp, hentry, ← hsame, hdefaults, hd]
    cases hb : s.changed.entry p with
    | none => exact congrArg some (reloaded_default platform hd).symm
    | some b =>
      have hparam := Layer.param_of_entry hs.changed.sorted hb
      rw [← hparam] at hd ⊢
      rw [Option.map_some, Option.some_or, Option.map_some, reloaded_eq platform hd]
      cases hskip : s.skips t false none b with
      | true => rw [Option.filter_some_neg (by simp [hskip]), if_pos rfl]; rfl
      | false => rw [Option.filter_some_pos (by simp [hskip])]; rfl
  · rw [Store.get, Store.get, if_neg hp, if_neg hp]
    rfl

/-- **Restarts change values only once.**  After any number of restarts in a row, each with a
successful save before it, a parameter has the value that it has after the first one. -/
theorem reboots (ht : t.Compiled) (acts acts₀ : List (Action F))
    (hdefaults : ∀ p, (reached t platform acts₀).getDefaultValue t p =
      (reached t platform acts).getDefaultValue t p) (r : Reboot) (rs : List Reboot)
    (hsaved : Trace.Always ((reached t platform acts₀).reboot t platform)
      (fun s r => (s.saved t r).2 = true) (reached t platform acts) (r :: rs)) (p : Handle) :
    (Trace.run ((reached t platform acts₀).reboot t platform) (reached t platform acts)
      (r :: rs)).get t p =
    ((reached t platform acts).get t p).map ((reached t platform acts).reloaded t platform p) := by
  have hs := valid_reached t platform acts
  have hs₀ := valid_reached t platform acts₀
  generalize reached t platform acts = s at *
  generalize reached t platform acts₀ = s₀ at *
  obtain ⟨hvalid, hsame, hget⟩ := reboot_spec platform ht hs hs₀ hdefaults hsaved.1
  rw [← hget p, Trace.run_cons]
  -- what later restarts keep: the defaults, and the values after the first
  suffices hrun : Trace.Always (s₀.reboot t platform) (fun s r => (s.saved t r).2 = true)
      (s₀.reboot t platform s r) rs → (Trace.run (s₀.reboot t platform) (s₀.reboot t platform s r)
        rs).get t p = (s₀.reboot t platform s r).get t p from hrun hsaved.2
  intro hrest
  refine (Trace.run_of_invariant (I := fun x => Valid t x ∧
    (∀ p, s₀.getDefaultValue t p = x.getDefaultValue t p) ∧
    x.get t p = (s₀.reboot t platform s r).get t p) ?_ ⟨hvalid, hsame, rfl⟩ hrest).2.2
  rintro x r' ⟨hx, hxd, hxp⟩ hsaved'
  obtain ⟨hvalid', hsame', hget'⟩ := reboot_spec platform ht hx hs₀ hxd hsaved'
  refine ⟨hvalid', hsame', ?_⟩
  have hreloaded : ∀ v, x.reloaded t platform p v = s.reloaded t platform p v := fun v => by
    rw [Store.reloaded, Store.reloaded, ← hxd, hdefaults]
  rw [hget', hxp, hget, Option.map_map]
  congr 1
  funext v
  rw [Function.comp_apply, hreloaded, Store.reloaded_reloaded]

end Reboots

/-! ### An example -/

namespace Sample

/-- The identifier of a sensor is migrated by the first of two restarts. -/
theorem reboots_setId :
    (Trace.run ((reached table ⟨true, true⟩ []).reboot table ⟨true, true⟩)
      (reached table ⟨true, true⟩ setId) [⟨[], [], 0⟩, ⟨[], [], 0⟩]).get table 0 =
    some (.int32 0x210000) :=
  (reboots ⟨true, true⟩ compiled_table setId [] (getDefaultValue_set setId (by simp [setId]))
    ⟨[], [], 0⟩ [⟨[], [], 0⟩] (by decide +kernel) 0).trans (by decide +kernel)

end Sample

end Param
