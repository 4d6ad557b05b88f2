/-
Saving the parameters to a file, and loading them.

`param_export` writes a document with a node for every value that is not the default, an integer
or a `double`.  `param_load` forgets all values and sets those that the nodes of a document give.
On the way `param_modify_on_import` brings a node up to date: parameters that have been renamed
since get their new name, and the identifiers of sensors their present form.

Of `float` the conversions are a parameter of the model, like the comparisons.  Saving to flash
without a file is not part of it.
-/
import Mathlib.Data.List.TakeWhile
import AerialManipulator.Param.Parameters
import AerialManipulator.Param.TinyBson

open ByteStream Bson

namespace Param

/-- What is used of `float` besides the comparisons.  A `double` is the number with its bits.
Every `float` is a `double`; not-a-numbers are not told apart. -/
class Doubles (F : Type) extends Floats F where
  ofBits : UInt32 → F
  toBits : F → UInt32
  toDouble : F → UInt64
  ofDouble : UInt64 → F
  /-- `msec / 1000.f` -/
  seconds : UInt16 → F
  /-- `d * 20.0` -/
  times20 : UInt64 → UInt64
  ofDouble_toDouble : ∀ x, ofDouble (toDouble x) = x

/-- What depends on the platform: whether it is NuttX, and how wide enumerations are. -/
structure Platform where
  nuttx : Bool
  short_enums : Bool

variable {F : Type}

def bytes (s : String) : Name := s.toList.map Char.toUInt8

def cString (n : Name) : CString :=
  ⟨n.takeWhile (· ≠ 0), fun h => by simpa using List.mem_takeWhile_imp h⟩

/-- A pointer to an `int32_t`. -/
def Word.ofInt [Doubles F] (i : Int32) : Word F := ⟨i, Doubles.ofBits i.toUInt32⟩

/-- A pointer to a `float`. -/
def Word.ofFloat [Doubles F] (f : F) : Word F := ⟨(Doubles.toBits f).toInt32, f⟩

/-! ### Saving -/

namespace Store

section Export

variable [Doubles F] (t : Table F) (s : Store F)

def isDefaultValue : Value F → Value F → Bool
  | .int32 i, .int32 j => i = j
  | .float f, .float g => Floats.close f g
  | _, _ => false

/-- The entries that the loop of `param_export` passes over. -/
def skips (only_unsaved : Bool) (filter : Option (Handle → Bool)) (b : WBuf F) : Bool :=
  (only_unsaved && !b.unsaved) || filter.any (fun f => !f b.param) ||
    (s.getDefaultValue t b.param).any (isDefaultValue b.val)

/-- The node for an entry; there is none for a parameter of no type. -/
def exportCall (b : WBuf F) : Option Call :=
  match t.paramName b.param, b.val with
  | none, _ => none
  | some name, .int32 i => some (.int (cString name) i.toInt64)
  | some name, .float f => some (.double (cString name) (Doubles.toDouble f))

/-- `param_export` appends an entry. -/
def exportEntry (e : Encoder) (b : WBuf F) : Encoder × Bool :=
  match exportCall t b with
  | none => (e, true)
  | some c => e.call c

/-- The loop of `param_export`: the entries, the encoder, and whether it came to the end. -/
def exportLoop (skip : WBuf F → Bool) : List (WBuf F) → Encoder → List (WBuf F) × Encoder × Bool
  | [], e => ([], e, true)
  | b :: bs, e =>
    if skip b then
      match exportLoop skip bs e with
      | (bs, r) => (b :: bs, r)
    else
      match exportEntry t e b with
      | (e, false) => ({ b with unsaved := false } :: bs, e, false)
      | (e, true) =>
        match exportLoop skip bs e with
        | (bs, r) => ({ b with unsaved := false } :: bs, r)

/-- `param_export` to a file: the store, the file, and whether it was successful. -/
def paramExport (f : File) (only_unsaved : Bool) (filter : Option (Handle → Bool)) :
    Store F × File × Bool :=
  let e := (Encoder.initBufFile f 256).1
  match s.changed.values with
  | none =>
    match e.fini with
    | (e, ok) => (s, e.file.getD f, ok)
  | some bs =>
    match exportLoop t (s.skips t only_unsaved filter) bs e with
    | (bs, e, false) => ({ s with changed.values := some bs }, e.file.getD f, false)
    | (bs, e, true) =>
      match e.fini with
      | (e, ok) => ({ s with changed.values := some bs }, e.file.getD f, ok)

end Export

end Store

/-! ### Bringing nodes up to date -/

/-- `strcpy` of a new name to a node that has the old one. -/
def rename (n : Node) (names : String × String) : Node :=
  if n.name = bytes names.1 then { n with name := bytes names.2 } else n

def migrateVelocityGain (F : Type) [Doubles F] (n : Node) (parameter_name : String) : Node :=
  match n.type, n.value with
  | .DOUBLE, .double d =>
    if n.name = bytes parameter_name then
      { n with name := n.name ++ bytes "_ACC", value := .double (Doubles.times20 F d) }
    else n
  | _, _ => n

/-- `CAL_ACC0_EN` and the like; a sensor that was not disabled gets a priority later. -/
def migrateEnabled (n : Node) (sensor : String) : Node :=
  match n.type, n.value with
  | .INT32, .int i =>
    if n.name = bytes sensor ++ bytes "_EN" then
      { n with name := bytes sensor ++ bytes "_PRIO", value := .int (if i ≠ 0 then -1 else i) }
    else n
  | _, _ => n

/-- The parameters with the identifier of a sensor, `cal_id_params`. -/
def calIdParams : List Name :=
  ["CAL_ACC0_ID", "CAL_GYRO0_ID", "CAL_MAG0_ID", "TC_A0_ID", "TC_B0_ID", "TC_G0_ID",
    "CAL_ACC1_ID", "CAL_GYRO1_ID", "CAL_MAG1_ID", "TC_A1_ID", "TC_B1_ID", "TC_G1_ID",
    "CAL_ACC2_ID", "CAL_GYRO2_ID", "CAL_MAG2_ID", "TC_A2_ID", "TC_B2_ID", "TC_G2_ID"].map bytes

def isCalId (name : Name) : Bool := calIdParams.any (· = name)

/-- `device::Device::DeviceId`: from the low end three bits for the type of the bus, five for the
bus, a byte for the address and one for the type of the device. -/
abbrev DeviceId := UInt32

namespace DeviceId

def busType (d : DeviceId) : UInt32 := d &&& 7

def clearAddress (d : DeviceId) : DeviceId := d &&& 0xFFFF00FF

def devtype (d : DeviceId) : UInt32 := (d >>> 16) &&& 0xFF

def setDevtype (d : DeviceId) (devtype : UInt32) : DeviceId :=
  (d &&& (0xFF00FFFF : UInt32)) ||| (devtype <<< 16)

def translate (legacy devtype : UInt32) (d : DeviceId) : DeviceId :=
  if d.devtype = legacy then d.setDevtype devtype else d

/-- The present form of an identifier: devices on an SPI bus have no address on NuttX, and the
old types of devices are replaced. -/
def current (nuttx : Bool) (d : DeviceId) : DeviceId :=
  let d := if nuttx && d.busType = 2 then d.clearAddress else d
  let d := translate 0x13 0x21 d -- MPU6000
  let d := translate 0x34 0x36 d -- MPU6500
  let d := translate 0x16 0x24 d -- MPU9250
  let d := translate 0x37 0x38 d -- ICM20602
  let d := translate 0x39 0x3A d -- ICM20608G
  let d := translate 0x3B 0x3C d -- ICM20689
  translate 0x02 0x11 d -- LSM303D

end DeviceId

/-- The end of `param_modify_on_import`. -/
def translateId (nuttx : Bool) (n : Node) : Node :=
  match n.type, n.value with
  | .INT32, .int i =>
    if isCalId n.name then
      { n with value := .int (DeviceId.current nuttx i.toInt32.toUInt32).toInt32.toInt64 }
    else n
  | _, _ => n

def velocityGains : List String :=
  ["MPC_XY_VEL_P", "MPC_XY_VEL_I", "MPC_XY_VEL_D", "MPC_Z_VEL_P", "MPC_Z_VEL_I", "MPC_Z_VEL_D"]

/-- The sensors of `cal_sensor_en_params`. -/
def enabledSensors : List String :=
  ["CAL_ACC0", "CAL_ACC1", "CAL_ACC2", "CAL_GYRO0", "CAL_GYRO1", "CAL_GYRO2",
    "CAL_MAG0", "CAL_MAG1", "CAL_MAG2", "CAL_MAG3"]

def renamed : List (String × String) :=
  [("EKF2_GPS_MASK", "SENS_GPS_MASK"), ("EKF2_GPS_TAU", "SENS_GPS_TAU"),
    ("PWM_MIN", "PWM_MAIN_MIN"), ("PWM_MAX", "PWM_MAIN_MAX"), ("PWM_RATE", "PWM_MAIN_RATE"),
    ("PWM_DISARMED", "PWM_MAIN_DISARM"), ("ASPD_STALL", "FW_AIRSPD_STALL")]

namespace Store

section Import

variable [Doubles F] (t : Table F) (platform : Platform) (now : UInt64)

/-- `param_set_no_notification(param_find(name), …)`. -/
def setNoNotification (s : Store F) (name : String) (w : Word F) : Store F :=
  match s.find t (bytes name) with
  | (s, none) => s
  | (s, some p) => (s.setInternal t now p (some w) false).1

/-- `COM_ARM_AUTH` was three parameters in one: a byte, two bytes, and a byte. -/
def migrateArmAuth (s : Store F) (n : Node) : Store F × Node :=
  match n.type, n.value with
  | .INT32, .int i =>
    if n.name = bytes "COM_ARM_AUTH" then
      let old_param := i.toInt32.toUInt32
      let method := (old_param >>> 24).toInt32
      let timeout := Doubles.seconds (old_param >>> 8).toUInt16
      let s := s.setNoNotification t now "COM_ARM_AUTH_MET" (.ofInt method)
      let s := s.setNoNotification t now "COM_ARM_AUTH_TO" (.ofFloat timeout)
      (s, { n with
        name := bytes "COM_ARM_AUTH_ID", value := .int (old_param &&& 0xFF).toInt32.toInt64 })
    else (s, n)
  | _, _ => (s, n)

/-- `param_modify_on_import`, with the node as it is afterwards. -/
def paramModifyOnImport (s : Store F) (n : Node) : Store F × Node :=
  match s.migrateArmAuth t now n with
  | (s, n) =>
    let n := velocityGains.foldl (migrateVelocityGain F) n
    if n.type = .DOUBLE ∧ n.name = bytes "MC_DTERM_CUTOFF" then
      (s, { n with name := bytes "IMU_DGYRO_CUTOFF" })
    else
      let n := enabledSensors.foldl migrateEnabled n
      (s, translateId platform.nuttx (renamed.foldl rename n))

/-! ### Loading -/

/-- `param_import_callback` for a node, and whether there is no error. -/
def paramImportCallback (mark_saved : Bool) (s : Store F) (n : Node) : Store F × Bool :=
  match s.paramModifyOnImport t platform now n with
  | (s, n) =>
    match t.find n.name with
    | none => (s, true)
    | some p =>
      match n.type, n.value with
      | .INT32, .int i =>
        if t.paramType p = some .INT32 then
          s.setInternal t now p (some (.ofInt i.toInt32)) mark_saved
        else (s, true)
      | .DOUBLE, .double d =>
        if t.paramType p = some .FLOAT then
          s.setInternal t now p (some (.ofFloat (Doubles.ofDouble d))) mark_saved
        else (s, true)
      | _, _ => (s, false)

/-- The nodes of a document up to its end, with enough turns. -/
def importLoop (mark_saved : Bool) : ℕ → Decoder → Store F → Store F × Bool
  | 0, _, s => (s, false)
  | fuel + 1, d, s =>
    match d.next platform.short_enums with
    | (_, .error) => (s, false)
    | (_, .done) => (s, true)
    | (_, .eoo) => (s, true)
    | (d, .node n) =>
      match s.paramImportCallback t platform now mark_saved n with
      | (s, false) => (s, false)
      | (s, true) => importLoop mark_saved fuel d s

/-- The attempts of `param_import_internal`; after one that has failed the next one starts at the
beginning of the file. -/
def importAttempts (mark_saved : Bool) : ℕ → File → Store F → Store F × Bool
  | 0, _, s => (s, false)
  | attempts + 1, f, s =>
    match Decoder.initFile f with
    | (_, none) => importAttempts mark_saved attempts f.rewind s
    | (d, some ()) =>
      match importLoop t platform now mark_saved (f.content.length + 1) d s with
      | (s, true) => (s, true)
      | (s, false) => importAttempts mark_saved attempts f.rewind s

/-- `param_import_internal`, which is `param_import` from a file. -/
def paramImportInternal (s : Store F) (f : File) (mark_saved : Bool) : Store F × Bool :=
  importAttempts t platform now mark_saved 4 f s

def paramLoad (s : Store F) (f : File) : Store F × Bool :=
  (s.resetAllInternal now false).paramImportInternal t platform now f true

end Import

end Store

end Param
