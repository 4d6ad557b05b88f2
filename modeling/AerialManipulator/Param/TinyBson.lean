/-
The BSON encoder and decoder.

A document is its length, the nodes and a terminator.  A node is a type, a name with a
terminator, and a value; the data of strings and of binary nodes follows its length.

The encoder writes to a buffer in memory, which may be of a fixed size or grow, to a file, or to
a file through a buffer.  The decoder reads from memory or from a file.  What goes wrong once
makes the coder dead.
-/
import AerialManipulator.Lib.ByteStream

open ByteStream

namespace Bson

inductive Kind
  | DOUBLE
  | STRING
  | BINDATA
  | BOOL
  | INT32
  | INT64
  deriving DecidableEq

def Kind.code : Kind → UInt8
  | DOUBLE => 1
  | STRING => 2
  | BINDATA => 5
  | BOOL => 8
  | INT32 => 16
  | INT64 => 18

def Kind.ofCode (b : UInt8) : Option Kind :=
  [DOUBLE, STRING, BINDATA, BOOL, INT32, INT64].find? fun k => k.code = b

def EOO : UInt8 := 0

/-- `bson_binary_subtype_t`. -/
inductive BinarySubtype
  | BINARY
  | USER
  deriving DecidableEq

def BinarySubtype.code : BinarySubtype → UInt8
  | BINARY => 0
  | USER => 128

def maxName : ℕ := 32

def bufIncrement : ℕ := 128

def CString := { s : List UInt8 // 0 ∉ s }

def int32Bytes (n : ℕ) : List UInt8 := littleEndian 4 n

/-! ### The encoder -/

/-- The state of an encoder; `buf` are the bytes of the buffer up to `bufpos`, and `heap` is how
large a buffer can grow. -/
structure Encoder where
  file : Option File
  buf : Option (List UInt8)
  bufsize : ℕ
  realloc_ok : Bool
  dead : Bool
  total_document_size : ℕ
  heap : ℕ

namespace Encoder

def kill (e : Encoder) : Encoder × Bool := ({ e with dead := true }, false)

def grow (heap need : ℕ) : ℕ → ℕ → Option ℕ
  | 0, _ => none
  | fuel + 1, bufsize =>
    if need > bufsize then
      if bufsize + bufIncrement > heap then none else grow heap need fuel (bufsize + bufIncrement)
    else some bufsize

/-- `write_x`, and whether it was successful. -/
def writeX (e : Encoder) (p : List UInt8) : Encoder × Bool :=
  if e.dead then (e, false)
  else
    match e.file, e.buf with
    | some f, none =>
      match f.write p with
      | (f, ret) =>
        if ret = p.length then
          ({ e with file := some f, total_document_size := e.total_document_size + ret }, true)
        else ({ e with file := some f }, false)
    | some f, some b =>
      if b.length + p.length > e.bufsize then
        match f.write b with
        | (f, ret) =>
          if ret = b.length then
            let e := { e with
              file := some f, buf := some []
              total_document_size := e.total_document_size + ret }
            if p.length > e.bufsize then e.kill else ({ e with buf := some p }, true)
          else kill { e with file := some f }
      else ({ e with buf := some (b ++ p) }, true)
    | none, b =>
      let b := b.getD []
      if b.length + p.length > e.bufsize then
        if e.realloc_ok then
          match grow e.heap (b.length + p.length) (b.length + p.length + 1) e.bufsize with
          | some bufsize => ({ e with buf := some (b ++ p), bufsize := bufsize }, true)
          | none => e.kill
        else e.kill
      else ({ e with buf := some (b ++ p) }, true)

/-- Pieces that are written one after the other, as long as that goes well. -/
def writeAll : Encoder → List (List UInt8) → Encoder × Bool
  | e, [] => (e, true)
  | e, p :: ps =>
    match e.writeX p with
    | (e, false) => (e, false)
    | (e, true) => writeAll e ps

/-- `bson_encoder_init_file`, `bson_encoder_init_buf_file` and `bson_encoder_init_buf` write the
length, which is not known yet. -/
def start (e : Encoder) : Encoder × Bool :=
  match e.writeX (int32Bytes 0) with
  | (e, true) => (e, true)
  | (e, false) => e.kill

def initFile (f : File) : Encoder × Bool := start ⟨some f, none, 0, false, false, 0, 0⟩

def initBufFile (f : File) (bufsize : ℕ) : Encoder × Bool :=
  start ⟨some f, some [], bufsize, false, false, 0, 0⟩

def initBuf (heap : ℕ) : Option ℕ → Encoder × Bool
  | some bufsize => start ⟨none, some [], bufsize, false, false, 0, heap⟩
  | none => start ⟨none, none, 0, true, false, 0, heap⟩

/-- What the functions that append a node have in common: the type, `write_name`, and the pieces
of the value. -/
def append (e : Encoder) (type : Kind) (name : CString) (value : List (List UInt8)) :
    Encoder × Bool :=
  if e.dead then (e, false)
  else
    match e.writeX [type.code] with
    | (e, false) => e.kill
    | (e, true) =>
      if name.1.length > maxName then e.kill
      else
        match e.writeAll ((name.1 ++ [0]) :: value) with
        | (e, false) => e.kill
        | (e, true) => (e, true)

def appendBool (e : Encoder) (name : CString) (value : Bool) : Encoder × Bool :=
  e.append .BOOL name [[if value then 1 else 0]]

def appendInt (e : Encoder) (name : CString) (value : Int64) : Encoder × Bool :=
  if value = value.toInt32.toInt64 then
    e.append .INT32 name [int32Bytes value.toInt32.toUInt32.toNat]
  else e.append .INT64 name [littleEndian 8 value.toUInt64.toNat]

/-- A `double` is the number with the bits of it. -/
def appendDouble (e : Encoder) (name : CString) (value : UInt64) : Encoder × Bool :=
  e.append .DOUBLE name [littleEndian 8 value.toNat]

def appendString (e : Encoder) (name string : CString) : Encoder × Bool :=
  e.append .STRING name [int32Bytes (string.1.length + 1), string.1 ++ [0]]

def appendBinary (e : Encoder) (name : CString) (subtype : BinarySubtype) (data : List UInt8) :
    Encoder × Bool :=
  e.append .BINDATA name [int32Bytes data.length, [subtype.code], data]

def flush (e : Encoder) (f : File) : Encoder × Bool :=
  match e.buf with
  | some b =>
    if b ≠ [] then
      match f.write b with
      | (f, ret) =>
        if ret = b.length then
          ({ e with file := some f, total_document_size := e.total_document_size + ret }, true)
        else kill { e with file := some f }
    else (e, true)
  | none => (e, true)

def fini (e : Encoder) : Encoder × Bool :=
  if e.dead then (e, false)
  else
    match e.writeX [EOO] with
    | (e, false) => e.kill
    | (e, true) =>
      match e.file with
      | some f =>
        match e.flush f with
        | (e, false) => (e, false)
        | (e, true) =>
          match (e.file.getD f).rewind.write (int32Bytes e.total_document_size) with
          | (f, ret) =>
            if ret = 4 then ({ e with file := some f }, true) else kill { e with file := some f }
      | none =>
        let b := e.buf.getD []
        ({ e with buf := some (int32Bytes b.length ++ b.drop 4) }, true)

def output (e : Encoder) : List UInt8 :=
  match e.file with
  | some f => f.content
  | none => e.buf.getD []

end Encoder

inductive Call
  | bool (name : CString) (value : Bool)
  | int (name : CString) (value : Int64)
  | double (name : CString) (value : UInt64)
  | string (name : CString) (value : CString)
  | binary (name : CString) (subtype : BinarySubtype) (data : List UInt8)

def Call.name : Call → CString
  | bool name _ | int name _ | double name _ | string name _ | binary name _ _ => name

def Encoder.call (e : Encoder) : Call → Encoder × Bool
  | .bool name value => e.appendBool name value
  | .int name value => e.appendInt name value
  | .double name value => e.appendDouble name value
  | .string name value => e.appendString name value
  | .binary name subtype data => e.appendBinary name subtype data

/-! ### The decoder -/

inductive Source
  | file (f : File)
  | buffer (buf : List UInt8) (bufsize bufpos : ℕ)

/-- The type of the last node: none yet, the end, or a node. -/
inductive NodeType
  | UNDEFINED
  | EOO
  | node (kind : Kind)
  deriving DecidableEq

structure Decoder where
  source : Source
  dead : Bool
  nesting : ℕ
  type : NodeType
  pending : Int32

/-- What the decoder passes to the callback, without the data that is pending. -/
inductive Value
  | bool (b : Bool)
  | int (i : Int64)
  | double (d : UInt64)
  | string
  | bindata (subtype : ℤ)
  deriving DecidableEq

structure Node where
  name : List UInt8
  type : Kind
  value : Value
  deriving DecidableEq

namespace Decoder

def readX (d : Decoder) (s : ℕ) : Decoder × Option (List UInt8) :=
  if d.dead then (d, none)
  else
    match d.source with
    | .file f =>
      match f.read s with
      | (f, data) => ({ d with source := .file f }, if data.length = s then some data else none)
    | .buffer buf bufsize bufpos =>
      if s ≥ bufsize then ({ d with dead := true }, none)
      else if bufsize - s < bufpos then ({ d with dead := true }, none)
      else
        ({ d with source := .buffer buf bufsize (bufpos + s) }, some ((buf.drop bufpos).take s))

def kill {α : Type} (d : Decoder) : Decoder × Option α := ({ d with dead := true }, none)

def readOr {α : Type} (d : Decoder) (s : ℕ) (k : Decoder → List UInt8 → Decoder × Option α) :
    Decoder × Option α :=
  match d.readX s with
  | (d, none) => d.kill
  | (d, some data) => k d data

/-- `read_int32`. -/
def toInt32 (data : List UInt8) : Int32 := (UInt32.ofNat (ofLittleEndian data)).toInt32

def initFile (f : File) : Decoder × Option Unit :=
  readOr ⟨.file f, false, 1, .UNDEFINED, 0⟩ 4 fun d _ => (d, some ())

/-- `bson_decoder_init_buf`; a size of zero is taken from the document. -/
def initBuf (buf : List UInt8) (bufsize : ℕ) : Decoder × Option Unit :=
  let bufsize := if bufsize = 0 then ofLittleEndian (buf.take 4) else bufsize
  readOr ⟨.buffer buf bufsize 0, false, 1, .UNDEFINED, 0⟩ 4 fun d data =>
    let total_document_size := (toInt32 data).toInt
    if total_document_size > 0 ∧ total_document_size > (Int32.ofInt bufsize).toInt then d.kill
    else (d, some ())

def discard : ℕ → Decoder → Decoder × Option Unit
  | 0, d => ({ d with pending := 0 }, some ())
  | n + 1, d => d.readOr 1 fun d _ => discard n d

/-- The name, up to its terminator; `name` is what has been read. -/
def readName : Decoder → ℕ → List UInt8 → Decoder × Option (List UInt8)
  | d, 0, _ => d.kill
  | d, n + 1, name =>
    d.readOr 1 fun d data =>
      if data = [0] then (d, some name) else readName d n (name ++ data)

/-- A `char` as a `bson_binary_subtype_t`, which is unsigned, and as wide as an `int` unless
enumerations are as short as they can be. -/
def toSubtype (short_enums : Bool) (b : UInt8) : ℤ :=
  b.toInt8.toInt % if short_enums then 2 ^ 8 else 2 ^ 32

def readValue (short_enums : Bool) (d : Decoder) : Kind → Decoder × Option Value
  | .BOOL => d.readOr 1 fun d data => (d, some (.bool (data ≠ [0])))
  | .INT32 => d.readOr 4 fun d data => (d, some (.int (toInt32 data).toInt64))
  | .INT64 => d.readOr 8 fun d data => (d, some (.int (UInt64.ofNat (ofLittleEndian data)).toInt64))
  | .DOUBLE => d.readOr 8 fun d data => (d, some (.double (UInt64.ofNat (ofLittleEndian data))))
  | .STRING => d.readOr 4 fun d data => ({ d with pending := toInt32 data }, some .string)
  | .BINDATA =>
    d.readOr 4 fun d data =>
      { d with pending := toInt32 data }.readOr 1 fun d data =>
        (d, some (.bindata (toSubtype short_enums (data.headD 0))))

/-- What `bson_decoder_next` gives: an error, the end of the stream, or a call of the callback,
with a node or with the end of the document. -/
inductive Result
  | error
  | done
  | eoo
  | node (n : Node)

/-- The part of `bson_decoder_next` after the type byte of a node. -/
def nextNode (short_enums : Bool) (d : Decoder) (tbyte : UInt8) : Decoder × Result :=
  match d.readName maxName [] with
  | (d, none) => (d, .error)
  | (d, some name) =>
    match Kind.ofCode tbyte with
    | none => ({ d with dead := true }, .error)
    | some kind =>
      match { d with type := .node kind }.readValue short_enums kind with
      | (d, none) => (d, .error)
      | (d, some value) => (d, .node ⟨name, kind, value⟩)

/-- `bson_decoder_next` up to the callback. -/
def next (short_enums : Bool) (d : Decoder) : Decoder × Result :=
  if d.dead then (d, .error)
  else if d.type = .EOO ∧ d.nesting - 1 = 0 then ({ d with nesting := d.nesting - 1 }, .done)
  else
    let d := if d.type = .EOO then { d with nesting := d.nesting - 1 } else d
    match discard d.pending.toInt.toNat d with
    | (d, none) => (d, .error)
    | (d, some ()) =>
      match d.readOr 1 fun d data => (d, some (data.headD 0)) with
      | (d, none) => (d, .error)
      | (d, some tbyte) =>
        if tbyte = EOO then ({ d with type := .EOO, pending := 0 }, .eoo)
        else { d with pending := 0 }.nextNode short_enums tbyte

def copyData (d : Decoder) : Decoder × Option (List UInt8) :=
  if d.dead then (d, none)
  else
    d.readOr (d.pending.toInt % 2 ^ 64).toNat fun d data => ({ d with pending := 0 }, some data)

end Decoder

/-- A node with the data that the callback has copied. -/
structure Visit where
  node : Node
  data : List UInt8
  deriving DecidableEq

def Kind.hasData : Kind → Bool
  | STRING => true
  | BINDATA => true
  | _ => false

/-- A program that reads a document: it calls `bson_decoder_next` until the end of the stream,
with a callback that copies the data of every node.  The nodes that it sees, unless there is an
error. -/
def visitAll (short_enums : Bool) : ℕ → Decoder → Option (List Visit)
  | 0, _ => none
  | fuel + 1, d =>
    match d.next short_enums with
    | (_, .error) => none
    | (_, .done) => some []
    | (d, .eoo) => visitAll short_enums fuel d
    | (d, .node n) =>
      if n.type.hasData then
        match d.copyData with
        | (_, none) => none
        | (d, some data) => (visitAll short_enums fuel d).map (⟨n, data⟩ :: ·)
      else (visitAll short_enums fuel d).map (⟨n, []⟩ :: ·)

/-- What a document is read from: a file, or memory, with the size of it given or not. -/
inductive Reader
  | file
  | buf (auto : Bool)

def Reader.init (bytes : List UInt8) : Reader → Decoder × Option Unit
  | file => Decoder.initFile ⟨bytes, 0, []⟩
  | buf auto => Decoder.initBuf bytes (if auto then 0 else bytes.length)

def decode (short_enums : Bool) (reader : Reader) (bytes : List UInt8) (fuel : ℕ) :
    Option (List Visit) :=
  match reader.init bytes with
  | (_, none) => none
  | (d, some ()) => visitAll short_enums fuel d

end Bson
