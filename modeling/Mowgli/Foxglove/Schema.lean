import Mathlib.Data.List.AList
import Mowgli.Lib.Fault
import Mowgli.Lib.Text

/-!
# Schema — ROS 2 message definitions

`ParseSchema` of `cdr.go`: a text of blocks, one for a message, becomes the fields of the first
with the fields of every nested message in their place. The blocks are parsed over and over
until no reference resolves to more.
-/

namespace Mowgli
namespace Foxglove
namespace Cdr

abbrev Str := List Char

inductive FieldKind
  | primitive
  | string
  | message
  | fixedArray
  | dynArray
  deriving DecidableEq

/-- A `schemaField` without its `SubFields`. -/
structure Field where
  name : Str
  kind : FieldKind
  /-- The name of the type, or of what an array is of. -/
  primitive : Str
  arrayLen : Int
  deriving DecidableEq

/-- A list of fields, the `SubFields` beside each. -/
inductive Fields
  | nil
  | cons (f : Field) (subFields rest : Fields)
  deriving DecidableEq

def Fields.length : Fields → Nat
  | nil => 0
  | cons _ _ rest => rest.length + 1

/-! ## Strings of Go -/

/-- `unicode.IsSpace`. -/
def isSpace (c : Char) : Bool :=
  c == '\t' || c == '\n' || c == '\x0b' || c == '\x0c' || c == '\r' || c == ' ' ||
    c == '\u0085' || c == '\u00a0' || c == '\u1680' ||
    (decide ('\u2000' ≤ c) && decide (c ≤ '\u200a')) ||
    c == '\u2028' || c == '\u2029' || c == '\u202f' || c == '\u205f' || c == '\u3000'

/-- `strings.TrimSpace`. -/
def trimSpace (s : Str) : Str :=
  ((s.dropWhile isSpace).reverse.dropWhile isSpace).reverse

/-- `strings.Fields`. -/
def fieldsOf (s : Str) : List Str := (s.splitOnP isSpace).filter fun part => !part.isEmpty

/-- `fmt.Sscanf` with `%d`: a sign, digits, and no look at what follows. -/
def sscanfInt (s : Str) : Option Int :=
  let number (negative : Bool) (rest : Str) : Option Int :=
    (Text.digits rest).bind fun r =>
      let n : Int := if negative then -r.1 else r.1
      if -9223372036854775808 ≤ n ∧ n ≤ 9223372036854775807 then some n else none
  match s with
  | '-' :: rest => number true rest
  | '+' :: rest => number false rest
  | rest => number false rest

/-- `s[:len(s)-1]`. A last character of several bytes loses one, and is no character then. -/
def cutByte (s : Str) : Str :=
  match s.getLast? with
  | none => []
  | some c => if c.utf8Size = 1 then s.dropLast else s.dropLast ++ ['\ufffd']

/-! ## Types -/

inductive Primitive
  | bool | byte | char
  | int8 | int16 | int32 | int64
  | uint8 | uint16 | uint32 | uint64
  | float32 | float64
  deriving DecidableEq

def primitiveTypes : List (String × Primitive) :=
  [("bool", .bool), ("byte", .byte), ("char", .char),
    ("int8", .int8), ("int16", .int16), ("int32", .int32), ("int64", .int64),
    ("uint8", .uint8), ("uint16", .uint16), ("uint32", .uint32), ("uint64", .uint64),
    ("float32", .float32), ("float64", .float64)]

def primitiveOf (t : Str) : Option Primitive :=
  (primitiveTypes.find? fun entry => entry.1.toList == t).map (·.2)

def isPrimitive (t : Str) : Bool := (primitiveOf t).isSome

def isString (t : Str) : Bool := t == "string".toList

/-- The fields of the messages by name. -/
abbrev SubTypes := AList fun _ : Str => Fields

def lookupSubType (typStr : Str) (subTypes : SubTypes) : Fields :=
  match subTypes.lookup typStr with
  | some fields => fields
  | none =>
    if typStr.any (· == '/') then
      (subTypes.lookup (typStr.reverse.takeWhile (· != '/')).reverse).getD .nil
    else .nil

/-- What stands in an error; each constructor is a text of `fmt.Errorf`. -/
inductive SchemaError
  /-- `bad array size %q` -/
  | badArraySize (sizeStr : Str)
  /-- `field %s: %w` -/
  | field (name : Str) (err : SchemaError)
  /-- `parse sub-message %q: %w` -/
  | subMessage (typeName : Str) (err : SchemaError)
  /-- `parse root message: %w` -/
  | root (err : SchemaError)

/-- The type of what is not an array. -/
def plainField (typStr name : Str) (subTypes : SubTypes) : Field × Fields :=
  if isString typStr then
    ({ name := name, kind := .string, primitive := [], arrayLen := 0 }, .nil)
  else if isPrimitive typStr then
    ({ name := name, kind := .primitive, primitive := typStr, arrayLen := 0 }, .nil)
  else
    ({ name := name, kind := .message, primitive := typStr, arrayLen := 0 },
      lookupSubType typStr subTypes)

def arrayField (name : Str) (kind : FieldKind) (baseType : Str) (size : Int)
    (subTypes : SubTypes) : Field × Fields :=
  ({ name := name, kind := kind, primitive := baseType, arrayLen := size },
    if isPrimitive baseType || isString baseType then .nil else lookupSubType baseType subTypes)

/-- `parseFieldType`: the field and its `SubFields`. -/
def parseFieldType (typStr name : Str) (subTypes : SubTypes) :
    Outcome SchemaError (Field × Fields) :=
  match typStr.dropWhile (· != '[') with
  | [] => .ok (plainField typStr name subTypes)
  -- the slice would end before it starts
  | [_] => .fault
  | _ :: rest =>
    let baseType := typStr.takeWhile (· != '[')
    let sizeStr := cutByte rest
    if sizeStr.isEmpty then .ok (arrayField name .dynArray baseType 0 subTypes)
    else
      match sscanfInt sizeStr with
      | none => .error (.badArraySize sizeStr)
      | some size => .ok (arrayField name .fixedArray baseType size subTypes)

/-! ## Blocks -/

/-- The type and the name on a line, if it declares a field. -/
def fieldLine (line : Str) : Option (Str × Str) :=
  let line := trimSpace line
  if line.isEmpty || line.head? == some '#' then none
  else
    let line := if line.any (· == '#') then trimSpace (line.takeWhile (· != '#')) else line
    if line.isEmpty then none
    -- taken for a constant
    else if line.any (· == '=') then none
    else
      match fieldsOf line with
      | typStr :: name :: _ => some (typStr, name)
      | _ => none

def declarations (body : Str) : List (Str × Str) := (body.splitOn '\n').filterMap fieldLine

def parseDeclarations (subTypes : SubTypes) : List (Str × Str) → Outcome SchemaError Fields
  | [] => .ok .nil
  | (typStr, name) :: rest =>
    ((parseFieldType typStr name subTypes).mapError (.field name)).bind fun f =>
      (parseDeclarations subTypes rest).map fun fields => .cons f.1 f.2 fields

/-- `parseMsgBlock`. -/
def parseMsgBlock (body : Str) (subTypes : SubTypes) : Outcome SchemaError Fields :=
  parseDeclarations subTypes (declarations body)

structure MsgBlock where
  typeName : Str
  body : Str
  deriving DecidableEq

def isSeparator (line : Str) : Bool :=
  let trimmed := trimSpace line
  decide (3 ≤ trimmed.length) && trimmed.all (· == '=')

def splitParts : List Str → Str → List Str
  | [], current => if current.isEmpty then [] else [current]
  | line :: lines, current =>
    if isSeparator line then current :: splitParts lines []
    else splitParts lines (current ++ line ++ ['\n'])

def msgPrefix : Str := "MSG: ".toList

/-- A part behind a separator. -/
def headedBlock (part : Str) : MsgBlock :=
  let first := part.takeWhile (· != '\n')
  if msgPrefix.isPrefixOf first then
    { typeName := trimSpace (first.drop msgPrefix.length)
      body := (part.dropWhile (· != '\n')).drop 1 }
  else { typeName := [], body := part }

def splitMsgBlocks (text : Str) : List MsgBlock :=
  match splitParts (text.splitOn '\n') [] with
  | [] => []
  | part :: parts =>
    let first := trimSpace part
    let root := if first.isEmpty then [] else [{ typeName := [], body := first }]
    root ++ ((parts.map trimSpace).filter fun part => !part.isEmpty).map headedBlock

/-! ## Resolution -/

/-- The nested fields below a list of fields. -/
def Fields.countResolved : Fields → Nat
  | nil => 0
  | cons _ subFields rest => subFields.length + subFields.countResolved + rest.countResolved

def countResolvedSubFields (subTypes : SubTypes) : Nat :=
  subTypes.entries.foldr (fun entry total => entry.2.countResolved + total) 0

/-- `store`: under the name, and under the part behind the first slash. -/
def store (subTypes : SubTypes) (typeName : Str) (fields : Fields) : SubTypes :=
  let subTypes := subTypes.insert typeName fields
  match typeName.dropWhile (· != '/') with
  | [] => subTypes
  | _ :: short => subTypes.insert short fields

/-- One pass over the blocks behind the root. -/
def parsePass : List MsgBlock → SubTypes → Outcome SchemaError SubTypes
  | [], subTypes => .ok subTypes
  | block :: blocks, subTypes =>
    ((parseMsgBlock block.body subTypes).mapError (.subMessage block.typeName)).bind fun fields =>
      parsePass blocks (store subTypes block.typeName fields)

/-- At most `n` passes from the `pass`-th on. -/
def resolve (blocks : List MsgBlock) : Nat → Nat → SubTypes → Outcome SchemaError SubTypes
  | 0, _, subTypes => .ok subTypes
  | n + 1, pass, subTypes =>
    (parsePass blocks subTypes).bind fun after =>
      if countResolvedSubFields after = countResolvedSubFields subTypes ∧ 0 < pass then .ok after
      else resolve blocks n (pass + 1) after

def parseSchema (schemaText : Str) : Outcome SchemaError Fields :=
  match splitMsgBlocks schemaText with
  | [] => .ok .nil
  | root :: blocks =>
    (resolve blocks (blocks.length + 1) 0 ∅).bind fun subTypes =>
      (parseMsgBlock root.body subTypes).mapError .root

end Cdr
end Foxglove
end Mowgli
