import Mowgli.Foxglove.Schema
import Mowgli.Lib.Binary
import Mowgli.Lib.Endian

/-!
# Cdr — messages out of their bytes, and into bytes

The reader of `cdr.go`: a walk over the schema that takes every field from the bytes behind the
encapsulation header. What Go would panic over is a fault here: a byte or a slice outside the
buffer, and a `make` of a length below zero or beyond what the runtime can give.
-/

namespace Mowgli
namespace Foxglove
namespace Cdr

/-- What a message is read into. -/
inductive Value
  | bool (b : Bool)
  | int (n : Int)
  | float (x : Binary64.Bits)
  | str (s : List UInt8)
  | arr (elements : List Value)
  | obj (entries : List (Str × Value))

/-- A `map[string]interface{}`. -/
abbrev Object := List (Str × Value)

/-- `out[name] = value`. -/
def Object.assign (name : Str) (value : Value) : Object → Object
  | [] => [(name, value)]
  | entry :: entries =>
    if entry.1 = name then (name, value) :: entries else entry :: assign name value entries

/-- An error of the reader; each constructor is a text of `fmt.Errorf`. -/
inductive CdrError
  /-- `cdr: data too short (%d bytes)` -/
  | tooShort (length : Nat)
  /-- `cdr: unexpected end of data` -/
  | endOfData
  /-- `cdr: dynamic array length %d exceeds %d remaining bytes` -/
  | lengthExceeds (length : Nat) (remaining : Int)
  /-- `cdr: string overflows data (need %d, have %d)` -/
  | stringOverflows (need have' : Nat)
  /-- `cdr: unknown primitive %q` -/
  | unknownPrimitive (typ : Str)
  /-- `field %s: %w` -/
  | field (name : Str) (err : CdrError)

/-- What a `make` for a dynamic array asked for, and how many bytes there were behind the length
it was read from. -/
structure Made where
  count : Int
  remaining : Int

/-- Where a reader stands, and which dynamic arrays it made. -/
structure Cursor where
  offset : Nat
  made : List Made

abbrev Read (α : Type) := Program CdrError Cursor α

/-- The rest of a `cdrReader`. -/
structure Buffer where
  data : List UInt8
  le : Bool
  maxAlign : Nat

/-- The next multiple of `n` behind the header. -/
def aligned (maxAlign n offset : Nat) : Nat :=
  if n ≤ 1 then offset
  else
    let n := if maxAlign < n then maxAlign else n
    let rem := (offset - 4) % n
    if rem ≠ 0 then offset + (n - rem) else offset

namespace Buffer

variable (b : Buffer)

def align (n : Nat) : Read Unit :=
  Program.modify fun s => { s with offset := aligned b.maxAlign n s.offset }

/-- `data[offset:offset+n]`. -/
def fetch (n : Nat) : Read (List UInt8) := do
  let s ← Program.get
  if b.data.length < s.offset + n then Program.crash
  else pure ((b.data.drop s.offset).take n)

/-- The next `n` bytes, if there are so many. -/
def next (n : Nat) : Read (List UInt8) := do
  let s ← Program.get
  if b.data.length < s.offset + n then Program.fail .endOfData
  else
    let bytes ← b.fetch n
    Program.modify fun s => { s with offset := s.offset + n }
    pure bytes

/-- `binary.LittleEndian` or `binary.BigEndian`. -/
def number (bytes : List UInt8) : Nat :=
  if b.le then Endian.ofLittle bytes else Endian.ofBig bytes

def readUint32 : Read Nat := do
  let bytes ← b.next 4
  pure (b.number bytes)

end Buffer

def primitiveSize : Primitive → Nat
  | .bool | .byte | .char | .int8 | .uint8 => 1
  | .int16 | .uint16 => 2
  | .int32 | .uint32 | .float32 => 4
  | .int64 | .uint64 | .float64 => 8

/-- The value of the bytes of a primitive, as the number they are. -/
def primitiveValue (p : Primitive) (n : Nat) : Value :=
  match p with
  | .bool => .bool (decide (n ≠ 0))
  | .byte | .uint8 | .uint16 | .uint32 | .uint64 => .int n
  | .char | .int8 => .int (Endian.signed 8 n)
  | .int16 => .int (Endian.signed 16 n)
  | .int32 => .int (Endian.signed 32 n)
  | .int64 => .int (Endian.signed 64 n)
  | .float32 => .float (Binary64.widen (BitVec.ofNat 32 n))
  | .float64 => .float (BitVec.ofNat 64 n)

namespace Buffer

variable (b : Buffer)

/-- An element of an array, which is not aligned by itself. -/
def readElement (p : Primitive) : Read Value := do
  let bytes ← b.next (primitiveSize p)
  pure (primitiveValue p (b.number bytes))

def readPrimitive (p : Primitive) : Read Value := do
  b.align (primitiveSize p)
  b.readElement p

def readString : Read (List UInt8) := do
  b.align 4
  let length ← b.readUint32
  if length = 0 then pure []
  else
    let s ← Program.get
    if b.data.length < s.offset + length then
      Program.fail (.stringOverflows (s.offset + length) b.data.length)
    else
      -- the terminator is in the length
      let text ← b.fetch (length - 1)
      Program.modify fun s => { s with offset := s.offset + length }
      pure text

variable (limit : Nat)

/-- `make`. A dynamic array is told from a fixed one by the offset `behind` its length. -/
def make (count : Int) (behind : Option Nat) : Read Unit :=
  if count < 0 ∨ (limit : Int) < count then Program.crash
  else
    Program.modify fun s =>
      { s with
        made := s.made ++
          (behind.map fun (o : Nat) =>
            ({ count := count, remaining := (b.data.length : Int) - o } : Made)).toList }

def readPrimitiveArray (p : Primitive) (count : Int) (behind : Option Nat) : Read Value := do
  b.align (primitiveSize p)
  b.make limit count behind
  let elements ← (b.readElement p).times count.toNat
  pure (.arr elements)

/-- `readArray`, with the reader of the messages it may be of. -/
def readArray (f : Field) (readSub : Read Value) (count : Int) (behind : Option Nat) :
    Read Value :=
  if isString f.primitive then do
    b.make limit count behind
    let elements ← b.readString.times count.toNat
    pure (.arr (elements.map .str))
  else
    match primitiveOf f.primitive with
    | some p => b.readPrimitiveArray limit p count behind
    | none => do
      b.make limit count behind
      let elements ← readSub.times count.toNat
      pure (.arr elements)

def readField (f : Field) (readSub : Read Value) : Read Value :=
  match f.kind with
  | .primitive =>
    match primitiveOf f.primitive with
    | some p => b.readPrimitive p
    | none => Program.fail (.unknownPrimitive f.primitive)
  | .string => do
    let s ← b.readString
    pure (.str s)
  | .message => readSub
  | .fixedArray => b.readArray limit f readSub f.arrayLen none
  | .dynArray => do
    b.align 4
    let length ← b.readUint32
    let s ← Program.get
    -- every element is taken to need a byte
    if (b.data.length : Int) - s.offset < length then
      Program.fail (.lengthExceeds length ((b.data.length : Int) - s.offset))
    else b.readArray limit f readSub length (some s.offset)

/-- `readMessage`, over what the map has so far. -/
def readMessage : Fields → Object → Read Object
  | .nil, out => pure out
  | .cons f subFields rest, out => do
    let value ← (b.readField limit f do
      let object ← readMessage subFields []
      pure (.obj object)).wrap (.field f.name)
    readMessage rest (out.assign f.name value)

end Buffer

/-- The reader for the data behind a header: the low bit of its second byte is the byte order,
and the two encodings of XCDR2 align to four bytes at most. -/
def Buffer.ofData (data : List UInt8) : Buffer :=
  let enc := data.getD 1 0
  { data := data
    le := enc &&& 1 != 0
    maxAlign := if enc = 6 ∨ enc = 7 then 4 else 8 }

/-- `DeserializeCDR`, and the dynamic arrays it made. -/
def deserializeCDR (limit : Nat) (data : List UInt8) (schema : Fields) :
    Outcome CdrError Object × List Made :=
  if data.length < 4 then (.error (.tooShort data.length), [])
  else
    let run := (Buffer.ofData data).readMessage limit schema [] { offset := 4, made := [] }
    (run.1, run.2.made)

/-!
## Messages into bytes

The writer of `cdr_write.go`, over what `json.Unmarshal` made of the message: a walk over the
schema that appends to a buffer. It always writes the little-endian XCDR1, aligned to eight bytes
at most.
-/

/-- What `json.Unmarshal` gives. -/
inductive Json
  | null
  | bool (b : Bool)
  | number (x : Binary64.Bits)
  | str (s : List UInt8)
  | arr (elements : List Json)
  | obj (entries : List (Str × Json))

/-- A `map[string]interface{}` of `json.Unmarshal`. -/
abbrev JsonObject := List (Str × Json)

/-- `msg[name]`; a name that is not there is null. -/
def JsonObject.get (msg : JsonObject) (name : Str) : Json :=
  ((msg.find? fun entry => entry.1 == name).map (·.2)).getD .null

/-- An error of the writer; each constructor is a text of `fmt.Errorf`. -/
inductive WriteError
  /-- `cdr write: unknown primitive %q` -/
  | unknownPrimitive (typ : Str)
  /-- `field %s: %w` -/
  | field (name : Str) (err : WriteError)

/-- A write to the buffer of a `cdrWriter`. -/
abbrev Write := Program WriteError (List UInt8) Unit

/-! ## Values as bytes -/

/-- `toFloat64`. -/
def toFloat64 : Json → Binary64.Bits
  | .number x => x
  | .bool true => 0x3FF0000000000000#64
  | _ => 0

def boolByte : Json → Nat
  | .bool b => if b then 1 else 0
  -- the two zeros are equal
  | .number x => if Binary64.exponent x = 0 ∧ Binary64.fraction x = 0 then 0 else 1
  | _ => 0

/-- A float as an integer of `w` bits. For one that does not fit, Go leaves the result open. -/
def toBits (w : Nat) (x : Binary64.Bits) : Nat := (Binary64.truncate x % (1 <<< w : Nat)).toNat

/-- The bits `writePrimitive` writes. -/
def primitiveBits (p : Primitive) (val : Json) : Nat :=
  match p with
  | .bool => boolByte val
  | .float32 => (Binary64.narrow (toFloat64 val)).toNat
  | .float64 => (toFloat64 val).toNat
  | p => toBits (8 * primitiveSize p) (toFloat64 val)

def stringOf : Json → List UInt8
  | .str s => s
  | _ => []

def objectOf : Json → JsonObject
  | .obj entries => entries
  | _ => []

/-- `toSlice`. -/
def toSlice : Json → List Json
  | .arr elements => elements
  | _ => []

/-! ## The writer -/

def append (bytes : List UInt8) : Write := Program.modify fun buf => buf ++ bytes

def writeAlign (n : Nat) : Write :=
  Program.modify fun buf => buf ++ List.replicate (aligned 8 n buf.length - buf.length) 0

def writeUint32 (n : Nat) : Write := append (Endian.toLittle 4 n)

def writePrimitive (val : Json) (p : Primitive) : Write := do
  writeAlign (primitiveSize p)
  append (Endian.toLittle (primitiveSize p) (primitiveBits p val))

def writeString (s : List UInt8) : Write := do
  writeAlign 4
  -- with the terminator
  writeUint32 (s.length + 1)
  append s
  append [0]

/-- One write for each value. -/
def writeAll (write : Json → Write) : List Json → Write
  | [] => pure ()
  | v :: vs => do
    write v
    writeAll write vs

def writeArraySlice (arr : List Json) (f : Field) (writeSub : Json → Write) : Write :=
  if isString f.primitive then writeAll (fun v => writeString (stringOf v)) arr
  else
    match primitiveOf f.primitive with
    | some p => do
      writeAlign (primitiveSize p)
      writeAll (fun v => writePrimitive v p) arr
    | none => writeAll writeSub arr

/-- Nulls up to `count`. -/
def padded (arr : List Json) (count : Int) : List Json :=
  arr ++ List.replicate (count.toNat - arr.length) .null

def writeArray (val : Json) (f : Field) (count : Int) (writeSub : Json → Write) : Write :=
  -- the slice would end before it starts
  if count < 0 then Program.crash
  else writeArraySlice ((padded (toSlice val) count).take count.toNat) f writeSub

def writeField (val : Json) (f : Field) (writeSub : Json → Write) : Write :=
  match f.kind with
  | .primitive =>
    match primitiveOf f.primitive with
    | some p => writePrimitive val p
    | none => Program.fail (.unknownPrimitive f.primitive)
  | .string => writeString (stringOf val)
  | .message => writeSub val
  | .fixedArray => writeArray val f f.arrayLen writeSub
  | .dynArray => do
    writeAlign 4
    writeUint32 (toSlice val).length
    writeArraySlice (toSlice val) f writeSub

def writeMessage (msg : JsonObject) : Fields → Write
  | .nil => pure ()
  | .cons f subFields rest => do
    (writeField (msg.get f.name) f fun val => writeMessage (objectOf val) subFields).wrap
      (.field f.name)
    writeMessage msg rest

/-- `SerializeCDR`, behind `json.Unmarshal`. A message without a body gets a pad byte. -/
def serializeCDR (msg : JsonObject) (schema : Fields) : Outcome WriteError (List UInt8) :=
  let run := writeMessage msg schema [0, 1, 0, 0]
  run.1.map fun _ => if run.2.length = 4 then run.2 ++ [0] else run.2

end Cdr
end Foxglove
end Mowgli
