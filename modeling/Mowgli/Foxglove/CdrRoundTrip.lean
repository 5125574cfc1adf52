import Mowgli.Foxglove.CdrLayout
import Mowgli.Foxglove.SchemaSafe

/-!
# CdrRoundTrip — what was written is read back

The layout of a message, which the writer writes and the reader reads. The reader takes the length
of a dynamic array for hostile when there are fewer bytes behind it than elements, as if every
element took one: an array of messages without a body is refused that way.
-/

namespace Mowgli
namespace Foxglove
namespace Cdr

open Program

/-! ## Messages of a schema -/

/-- The integers of a type. -/
def intRange : Primitive → Int × Int
  | .char | .int8 => (-128, 127)
  | .int16 => (-32768, 32767)
  | .int32 => (-2147483648, 2147483647)
  | .int64 => (-9223372036854775808, 9223372036854775807)
  | .byte | .uint8 => (0, 255)
  | .uint16 => (0, 65535)
  | .uint32 => (0, 4294967295)
  | .uint64 => (0, 18446744073709551615)
  | .bool | .float32 | .float64 => (0, 0)

/-- A double whose value is an integer. -/
def IsInteger (x : Binary64.Bits) (n : Int) : Prop :=
  Binary64.magnitude x = n.natAbs * 2 ^ 1074 ∧ (n = 0 ∨ x.msb = decide (n < 0))

/-- A value of a primitive type, or null. -/
def PrimitiveConforms (p : Primitive) (v : Json) : Prop :=
  v = .null ∨
    match p with
    | .bool => ∃ c, v = .bool c
    | .float32 => ∃ s, Binary32.isFinite s = true ∧ v = .number (Binary64.widen s)
    | .float64 => ∃ x, Binary64.isFinite x = true ∧ v = .number x
    | p => ∃ x n, v = .number x ∧ IsInteger x n ∧ (intRange p).1 ≤ n ∧ n ≤ (intRange p).2 ∧
        n.natAbs ≤ 9007199254740992

/-- A string whose length, the terminator with it, has 32 bits. -/
def StringConforms (v : Json) : Prop :=
  v = .null ∨ ∃ s, v = .str s ∧ s.length + 1 < 4294967296

section Shape

variable (f : Field) (SubConforms : Json → Prop) (subItems : Json → List Item)
  (subValue : Json → Value)

def ElementConforms (v : Json) : Prop :=
  if isString f.primitive then StringConforms v
  else
    match primitiveOf f.primitive with
    | some p => PrimitiveConforms p v
    | none => SubConforms v

/-- The elements of a fixed array, with the nulls that fill it up. -/
def fixedElements (v : Json) : List Json := padded (toSlice v) f.arrayLen

/-- An array, or null. -/
def IsArray (v : Json) : Prop := v = .null ∨ ∃ vs, v = .arr vs

def FieldConforms (v : Json) : Prop :=
  match f.kind with
  | .primitive => ∀ p, primitiveOf f.primitive = some p → PrimitiveConforms p v
  | .string => StringConforms v
  | .message => SubConforms v
  | .fixedArray =>
    IsArray v ∧ (toSlice v).length ≤ f.arrayLen ∧
      ∀ e ∈ fixedElements f v, ElementConforms f SubConforms e
  | .dynArray =>
    IsArray v ∧ (toSlice v).length < 4294967296 ∧
      ∀ e ∈ toSlice v, ElementConforms f SubConforms e

/-! ## Completed messages -/

def numberOf : Json → Binary64.Bits
  | .number x => x
  | _ => 0

/-- A primitive, or the zero of its type. -/
def completedPrimitive (p : Primitive) (v : Json) : Value :=
  match p with
  | .bool =>
    match v with
    | .bool c => .bool c
    | _ => .bool false
  | .float32 | .float64 => .float (numberOf v)
  | _ => .int (Binary64.truncate (numberOf v))

def completedElement (v : Json) : Value :=
  if isString f.primitive then .str (stringOf v)
  else
    match primitiveOf f.primitive with
    | some p => completedPrimitive p v
    | none => subValue v

def completedField (v : Json) : Value :=
  match f.kind with
  | .primitive =>
    match primitiveOf f.primitive with
    | some p => completedPrimitive p v
    | none => .bool false
  | .string => .str (stringOf v)
  | .message => subValue v
  | .fixedArray => .arr ((fixedElements f v).map (completedElement f subValue))
  | .dynArray => .arr ((toSlice v).map (completedElement f subValue))

/-! ## The layout -/

def primitiveItems (p : Primitive) (v : Json) : List Item :=
  [.align (primitiveSize p), .raw (Endian.toLittle (primitiveSize p) (primitiveBits p v))]

/-- Elements of a primitive type are aligned together. -/
def arrayItems (vs : List Json) : List Item :=
  if isString f.primitive then .made vs.length :: vs.flatMap fun v => stringItems (stringOf v)
  else
    match primitiveOf f.primitive with
    | some p =>
      .align (primitiveSize p) :: .made vs.length ::
        vs.flatMap fun v => [.raw (Endian.toLittle (primitiveSize p) (primitiveBits p v))]
    | none => .made vs.length :: vs.flatMap subItems

def fieldItems (v : Json) : List Item :=
  match f.kind with
  | .primitive =>
    match primitiveOf f.primitive with
    | some p => primitiveItems p v
    | none => []
  | .string => stringItems (stringOf v)
  | .message => subItems v
  | .fixedArray => arrayItems f subItems (fixedElements f v)
  | .dynArray =>
    [.align 4, .raw (Endian.toLittle 4 (toSlice v).length), .count (toSlice v).length] ++
      arrayItems f subItems (toSlice v)

end Shape

/-- A JSON object with a value for some of the fields. What the schema has no field for is not
looked at. -/
def Conforms : Fields → JsonObject → Prop
  | .nil, _ => True
  | .cons f sub rest, msg =>
    FieldConforms f
        (fun v => (v = .null ∨ ∃ entries, v = .obj entries) ∧ Conforms sub (objectOf v))
        (msg.get f.name) ∧
      Conforms rest msg

/-- The message with zeros for what is missing, over what the map has so far. -/
def completedOver : Fields → JsonObject → Object → Object
  | .nil, _, out => out
  | .cons f sub rest, msg, out =>
    completedOver rest msg
      (out.assign f.name
        (completedField f (fun v => .obj (completedOver sub (objectOf v) [])) (msg.get f.name)))

def completed (schema : Fields) (msg : JsonObject) : Object := completedOver schema msg []

def layout : Fields → JsonObject → List Item
  | .nil, _ => []
  | .cons f sub rest, msg =>
    fieldItems f (fun v => layout sub (objectOf v)) (msg.get f.name) ++ layout rest msg

/-! ## The writer writes the layout -/

/-- Once aligned, rows of the same width need no further pads. -/
theorem emit_rows {n o : Nat} (hn : 0 < n ∧ n ≤ 8) (h4 : 4 ≤ o) (haligned : n ∣ o - 4)
    (rows : List (List UInt8)) (hrows : ∀ row ∈ rows, row.length = n) :
    emit o (rows.flatMap fun row => [.align n, .raw row]) =
      emit o (rows.flatMap fun row => [.raw row]) := by
  induction rows generalizing o with
  | nil => rfl
  | cons row rows ih =>
    have hwidth := hrows row List.mem_cons_self
    have hnext : n ∣ o + n - 4 := by
      rw [Nat.sub_add_comm h4]
      exact Nat.dvd_add haligned (Nat.dvd_refl n)
    have hrest := ih (by omega) hnext fun row hrow => hrows row (List.mem_cons_of_mem _ hrow)
    simp only [List.flatMap_cons, List.cons_append, List.nil_append, emit,
      aligned_of_dvd hn haligned, hwidth, hrest, Nat.sub_self, List.replicate_zero]

theorem primitiveSize_pos (p : Primitive) : 0 < primitiveSize p := by cases p <;> decide

theorem Writes.of_emit {w : Write} {x y : List Item} (hw : Writes w x)
    (h : ∀ o, 4 ≤ o → emit o x = emit o y) : Writes w y := by
  intro buf h4
  rw [← h buf.length h4]
  exact hw buf h4

theorem writePrimitive_writes (v : Json) (p : Primitive) :
    Writes (writePrimitive v p) (primitiveItems p v) :=
  (writeAlign_writes _).bind (append_writes _)

theorem writeString_writes (s : List UInt8) : Writes (writeString s) (stringItems s) :=
  (writeAlign_writes 4).bind ((append_writes _).bind ((append_writes s).bind (append_writes [0])))

section Arrays

variable {f : Field} {SubConforms : Json → Prop} {subItems : Json → List Item}
  {writeSub : Json → Write}

theorem writeArraySlice_writes (hsub : ∀ v, SubConforms v → Writes (writeSub v) (subItems v))
    {vs : List Json} (hvs : ∀ v ∈ vs, ElementConforms f SubConforms v) :
    Writes (writeArraySlice vs f writeSub) (arrayItems f subItems vs) := by
  unfold writeArraySlice arrayItems
  unfold ElementConforms at hvs
  by_cases hstring : isString f.primitive = true
  · rw [if_pos hstring, if_pos hstring]
    exact writeAll_writes (fun v _ => writeString_writes (stringOf v))
  · rw [if_neg hstring, if_neg hstring]
    simp only [if_neg hstring] at hvs
    cases hprimitive : primitiveOf f.primitive with
    | some p =>
      dsimp only
      refine Writes.of_emit ((writeAlign_writes (primitiveSize p)).bind
        (writeAll_writes fun v _ => writePrimitive_writes v p)) fun o h4 => ?_
      have hn : 0 < primitiveSize p ∧ primitiveSize p ≤ 8 :=
        ⟨primitiveSize_pos p, primitiveSize_le p⟩
      have hrows := emit_rows hn (Nat.le_trans h4 (aligned_bounds 8 _ o).1) (dvd_aligned hn h4)
        (vs.map fun v => Endian.toLittle (primitiveSize p) (primitiveBits p v)) (by
          intro row hrow
          obtain ⟨v, _, rfl⟩ := List.mem_map.1 hrow
          exact Endian.toLittle_length _ _)
      rw [List.flatMap_map, List.flatMap_map] at hrows
      exact congrArg (List.replicate _ 0 ++ ·) hrows
    | none =>
      rw [hprimitive] at hvs
      exact writeAll_writes fun v hv => hsub v (hvs v hv)

/-- The array is as long as it was declared. -/
theorem fixedElements_length {v : Json} (h : ((toSlice v).length : Int) ≤ f.arrayLen) :
    ((fixedElements f v).length : Int) = f.arrayLen := by
  unfold fixedElements padded
  rw [List.length_append, List.length_replicate]
  omega

theorem writeField_writes (hknown : f.kind = .primitive → (primitiveOf f.primitive).isSome)
    (hsub : ∀ v, SubConforms v → Writes (writeSub v) (subItems v)) {v : Json}
    (hv : FieldConforms f SubConforms v) :
    Writes (writeField v f writeSub) (fieldItems f subItems v) := by
  unfold writeField fieldItems
  unfold FieldConforms at hv
  cases hkind : f.kind with
  | primitive =>
    obtain ⟨p, hp⟩ := Option.isSome_iff_exists.1 (hknown hkind)
    rw [hp]
    exact writePrimitive_writes v p
  | string => exact writeString_writes (stringOf v)
  | message =>
    rw [hkind] at hv
    exact hsub v hv
  | fixedArray =>
    rw [hkind] at hv
    obtain ⟨_, hlength, helements⟩ := hv
    have hcount := fixedElements_length hlength
    unfold writeArray
    dsimp only
    rw [if_neg (by omega), List.take_of_length_le (by unfold fixedElements at hcount; omega)]
    exact writeArraySlice_writes hsub helements
  | dynArray =>
    rw [hkind] at hv
    obtain ⟨_, _, helements⟩ := hv
    exact (writeAlign_writes 4).bind ((append_writes _).bind
      (writeArraySlice_writes hsub helements))

end Arrays

variable {msg : JsonObject} {schema : Fields} {p : Primitive}

theorem writeMessage_writes (hknown : Known schema) (hmsg : Conforms schema msg) :
    Writes (writeMessage msg schema) (layout schema msg) := by
  induction schema generalizing msg with
  | nil => exact Writes.nothing
  | cons f sub rest ihsub ihrest =>
    obtain ⟨hprimitive, hsub, hrest⟩ := hknown
    have hfield : Writes
        (writeField (msg.get f.name) f fun v => writeMessage (objectOf v) sub)
        (fieldItems f (fun v => layout sub (objectOf v)) (msg.get f.name)) :=
      writeField_writes hprimitive (fun v hv => ihsub hsub hv.2) hmsg.1
    exact (hfield.wrap _).bind (ihrest hrest hmsg.2)

/-! ## Primitives are read back -/

theorem toBits_unsigned {w : Nat} {x : Binary64.Bits} {n : Int} (hx : IsInteger x n)
    (hlow : 0 ≤ n) (hhigh : n < (1 <<< w : Nat)) : ((toBits w x : Nat) : Int) = n := by
  unfold toBits
  rw [Binary64.truncate_eq hx.1 hx.2, Int.emod_eq_of_lt hlow hhigh]
  omega

theorem toBits_signed {w : Nat} {x : Binary64.Bits} {n : Int} (hx : IsInteger x n)
    (hlow : -(1 <<< w : Nat) ≤ 2 * n) (hhigh : 2 * n < (1 <<< w : Nat)) :
    Endian.signed w (toBits w x) = n := by
  unfold toBits
  rw [Binary64.truncate_eq hx.1 hx.2]
  exact Endian.signed_emod hlow hhigh

theorem toBits_lt (w : Nat) (x : Binary64.Bits) : toBits w x < 1 <<< w := by
  have hpos : 0 < 1 <<< w := by
    rw [Nat.one_shiftLeft]
    exact Nat.two_pow_pos w
  have hlt := Int.emod_lt_of_pos (Binary64.truncate x) (show (0 : Int) < (1 <<< w : Nat) by omega)
  unfold toBits
  omega

theorem zero_isInteger : IsInteger 0 0 := ⟨by rw [Int.natAbs_zero, Nat.zero_mul]; rfl, Or.inl rfl⟩

variable {v : Json}

/-- A conforming value of an integer type is one integer, as the writer and as the completed
message have it. -/
theorem PrimitiveConforms.integer (hv : PrimitiveConforms p v)
    (hp : p ≠ .bool ∧ p ≠ .float32 ∧ p ≠ .float64) (hrange : (intRange p).1 ≤ 0 ∧
      0 ≤ (intRange p).2) :
    ∃ n, IsInteger (toFloat64 v) n ∧ (intRange p).1 ≤ n ∧ n ≤ (intRange p).2 ∧
      Binary64.truncate (numberOf v) = n := by
  obtain rfl | hv := hv
  · exact ⟨0, zero_isInteger, hrange.1, hrange.2,
      Binary64.truncate_eq zero_isInteger.1 zero_isInteger.2⟩
  · obtain ⟨hbool, hsingle, hdouble⟩ := hp
    cases p with
    | bool => exact absurd rfl hbool
    | float32 => exact absurd rfl hsingle
    | float64 => exact absurd rfl hdouble
    | _ =>
      obtain ⟨x, n, rfl, hx, hlow, hhigh, _⟩ := hv
      exact ⟨n, hx, hlow, hhigh, Binary64.truncate_eq hx.1 hx.2⟩

theorem boolByte_le (v : Json) : boolByte v ≤ 1 := by
  cases v with
  | bool c => cases c <;> decide
  | number x =>
    show (if _ then 0 else 1) ≤ 1
    split <;> decide
  | _ => exact Nat.zero_le 1

/-- The bits of a primitive fit into its bytes. -/
theorem primitiveBits_lt (p : Primitive) (v : Json) : primitiveBits p v < 256 ^ primitiveSize p := by
  cases p with
  | bool => exact Nat.lt_of_le_of_lt (boolByte_le v) (by decide)
  | float32 => exact (Binary64.narrow (toFloat64 v)).isLt
  | float64 => exact (toFloat64 v).isLt
  | _ => exact toBits_lt _ _

theorem widen_zero : Binary64.widen 0#32 = 0#64 := by decide

theorem primitive_round_trip (hv : PrimitiveConforms p v) :
    primitiveValue p (primitiveBits p v % 256 ^ primitiveSize p) = completedPrimitive p v := by
  rw [Nat.mod_eq_of_lt (primitiveBits_lt p v)]
  cases p with
  | bool =>
    obtain rfl | ⟨c, rfl⟩ := hv
    · rfl
    · cases c <;> rfl
  | float32 =>
    have hsingle : ∃ s, Binary32.isFinite s = true ∧ toFloat64 v = Binary64.widen s ∧
        numberOf v = Binary64.widen s := by
      obtain rfl | ⟨s, hs, rfl⟩ := hv
      · exact ⟨0#32, by decide, widen_zero.symm, widen_zero.symm⟩
      · exact ⟨s, hs, rfl, rfl⟩
    obtain ⟨s, hs, hwritten, hnumber⟩ := hsingle
    show Value.float (Binary64.widen (BitVec.ofNat 32 (Binary64.narrow (toFloat64 v)).toNat)) =
      Value.float (numberOf v)
    rw [hwritten, hnumber, Binary64.narrow_widen hs, BitVec.ofNat_toNat, BitVec.setWidth_eq]
  | float64 =>
    show Value.float (BitVec.ofNat 64 (toFloat64 v).toNat) = Value.float (numberOf v)
    rw [BitVec.ofNat_toNat, BitVec.setWidth_eq]
    obtain rfl | ⟨x, _, rfl⟩ := hv
    · rfl
    · rfl
  | byte | uint8 | uint16 | uint32 | uint64 =>
    obtain ⟨n, hx, hlow, hhigh, hn⟩ := hv.integer (by decide) (by decide)
    refine congrArg Value.int ?_
    rw [hn]
    exact toBits_unsigned hx hlow (Int.lt_of_le_of_lt hhigh (by decide))
  | char | int8 | int16 | int32 | int64 =>
    obtain ⟨n, hx, hlow, hhigh, hn⟩ := hv.integer (by decide) (by decide)
    refine congrArg Value.int ?_
    rw [hn]
    refine toBits_signed hx (Int.le_trans (by decide) (Int.mul_le_mul_of_nonneg_left hlow
      (by decide))) (Int.lt_of_le_of_lt (Int.mul_le_mul_of_nonneg_left hhigh (by decide))
        (by decide))

/-! ## The reader reads the layout -/

section Reader

variable {limit : Nat} {b : Buffer} (hb : Little b)

/-- The check of a length against the bytes that are left. -/
theorem Reads.checked {α : Type} {m : Nat → Read α} {items : List Item} {a : α} (n : Nat)
    (e : Cursor → CdrError) (hm : ∀ o, Reads limit b (m o) items a) :
    Reads limit b
      (do
        let s ← Program.get
        if (b.data.length : Int) - s.offset < n then Program.fail (e s) else m s.offset)
      (.count n :: items) a := by
  intro s h4 hat
  obtain ⟨hruns, hstops⟩ := hm s.offset s h4 hat
  rw [get_bind]
  by_cases hroom : s.offset + n ≤ b.data.length
  · rw [if_neg (by omega)]
    exact ⟨fun h => hruns h.2, fun h => hstops fun hitems => h ⟨hroom, hitems⟩⟩
  · rw [if_pos (by omega)]
    exact ⟨fun h => absurd h.1 hroom, fun _ => nofun⟩

include hb

theorem string_reads (hv : StringConforms v) :
    Reads limit b b.readString (stringItems (stringOf v)) (stringOf v) := by
  apply readString_reads hb
  obtain rfl | ⟨s, rfl, hs⟩ := hv
  · decide
  · exact hs

theorem element_reads (hv : PrimitiveConforms p v) :
    Reads limit b (b.readElement p)
      [.raw (Endian.toLittle (primitiveSize p) (primitiveBits p v))] (completedPrimitive p v) := by
  rw [← primitive_round_trip hv]
  exact readElement_reads hb p _

variable {f : Field} {SubConforms : Json → Prop} {subItems : Json → List Item}
  {subValue : Json → Value} {readSub : Read Value}

theorem readArray_reads
    (hsub : ∀ v, SubConforms v → Reads limit b readSub (subItems v) (subValue v))
    {vs : List Json} (hvs : ∀ v ∈ vs, ElementConforms f SubConforms v) (behind : Option Nat) :
    Reads limit b (b.readArray limit f readSub vs.length behind) (arrayItems f subItems vs)
      (.arr (vs.map (completedElement f subValue))) := by
  unfold Buffer.readArray arrayItems completedElement
  unfold ElementConforms at hvs
  by_cases hstring : isString f.primitive = true
  · simp only [if_pos hstring] at hvs ⊢
    have helements : Reads limit b (b.readString.times vs.length)
        (vs.flatMap fun v => stringItems (stringOf v)) (vs.map stringOf) :=
      Reads.times fun v hv => string_reads hb (hvs v hv)
    have hvalue : (vs.map fun v => Value.str (stringOf v)) = (vs.map stringOf).map .str := by
      rw [List.map_map]
      rfl
    rw [hvalue]
    exact make_reads.bind (helements.map fun elements => Value.arr (elements.map .str))
  · simp only [if_neg hstring] at hvs ⊢
    cases hprimitive : primitiveOf f.primitive with
    | some p =>
      simp only [hprimitive] at hvs
      have helements : Reads limit b ((b.readElement p).times vs.length)
          (vs.flatMap fun v => [.raw (Endian.toLittle (primitiveSize p) (primitiveBits p v))])
          (vs.map (completedPrimitive p)) :=
        Reads.times fun v hv => element_reads hb (hvs v hv)
      exact (align_reads hb.maxAlign (primitiveSize p)).bind
        (make_reads.bind (helements.map Value.arr))
    | none =>
      simp only [hprimitive] at hvs
      have helements : Reads limit b (readSub.times vs.length) (vs.flatMap subItems)
          (vs.map subValue) := Reads.times fun v hv => hsub v (hvs v hv)
      exact make_reads.bind (helements.map Value.arr)

theorem readField_reads (hknown : f.kind = .primitive → (primitiveOf f.primitive).isSome)
    (hsub : ∀ v, SubConforms v → Reads limit b readSub (subItems v) (subValue v))
    (hv : FieldConforms f SubConforms v) :
    Reads limit b (b.readField limit f readSub) (fieldItems f subItems v)
      (completedField f subValue v) := by
  unfold Buffer.readField fieldItems completedField
  unfold FieldConforms at hv
  cases hkind : f.kind with
  | primitive =>
    obtain ⟨p, hp⟩ := Option.isSome_iff_exists.1 (hknown hkind)
    rw [hkind] at hv
    simp only [hp]
    exact (align_reads hb.maxAlign (primitiveSize p)).bind (element_reads hb (hv p hp))
  | string =>
    rw [hkind] at hv
    exact (string_reads hb hv).map Value.str
  | message =>
    rw [hkind] at hv
    exact hsub v hv
  | fixedArray =>
    rw [hkind] at hv
    obtain ⟨_, hlength, helements⟩ := hv
    dsimp only
    rw [← fixedElements_length hlength]
    exact readArray_reads hb hsub helements none
  | dynArray =>
    rw [hkind] at hv
    obtain ⟨_, hlength, helements⟩ := hv
    exact (align_reads hb.maxAlign 4).bind ((readUint32_reads hb hlength).bind
      (Reads.checked _ _ fun o => readArray_reads hb hsub helements (some o)))

theorem readMessage_reads (hknown : Known schema) (hmsg : Conforms schema msg) (out : Object) :
    Reads limit b (b.readMessage limit schema out) (layout schema msg)
      (completedOver schema msg out) := by
  induction schema generalizing msg out with
  | nil => exact Reads.pure out
  | cons f sub rest ihsub ihrest =>
    obtain ⟨hprimitive, hsub, hrest⟩ := hknown
    have hfield : Reads limit b
        (b.readField limit f do
          let object ← b.readMessage limit sub []
          pure (.obj object))
        (fieldItems f (fun v => layout sub (objectOf v)) (msg.get f.name))
        (completedField f (fun v => .obj (completedOver sub (objectOf v) [])) (msg.get f.name)) :=
      readField_reads hb hprimitive (fun v hv => (ihsub hsub hv.2 []).map Value.obj) hmsg.1
    exact (hfield.wrap _).bind (ihrest hrest hmsg.2 _)

end Reader

/-! ## There and back -/

/-- The message is written, and read back with zeros for what was missing. -/
def RoundTrips (limit : Nat) (schema : Fields) (msg : JsonObject) : Prop :=
  ∃ data, serializeCDR msg schema = .ok data ∧
    (deserializeCDR limit data schema).1 = .ok (completed schema msg)

/-- The bytes of a message on the wire, the header and the pad of an empty body with them. -/
def wireLength (schema : Fields) (msg : JsonObject) : Nat :=
  if endOf 4 (layout schema msg) = 4 then 5 else endOf 4 (layout schema msg)

/-- No dynamic array has more elements than there are bytes behind its length, and every array
can be made. -/
def Counted (limit : Nat) (schema : Fields) (msg : JsonObject) : Prop :=
  Guarded limit (wireLength schema msg) 4 (layout schema msg)

theorem serializeCDR_eq (hknown : Known schema) (hmsg : Conforms schema msg) :
    ∃ data post, serializeCDR msg schema = .ok data ∧
      data = [0, 1, 0, 0] ++ (emit 4 (layout schema msg) ++ post) ∧
      data.length = wireLength schema msg := by
  have hrun : writeMessage msg schema [0, 1, 0, 0] =
      (.ok (), [0, 1, 0, 0] ++ emit 4 (layout schema msg)) :=
    writeMessage_writes hknown hmsg [0, 1, 0, 0] (Nat.le_refl 4)
  have hlength := emit_length 4 (layout schema msg)
  have hbuf : ([0, 1, 0, 0] ++ emit 4 (layout schema msg) : List UInt8).length =
      endOf 4 (layout schema msg) := by
    rw [List.length_append]
    exact hlength
  unfold serializeCDR wireLength
  dsimp only
  rw [hrun]
  show ∃ data post, Outcome.ok (if ([0, 1, 0, 0] ++ emit 4 (layout schema msg) :
    List UInt8).length = 4 then _ else _) = .ok data ∧ _
  rw [hbuf]
  by_cases hempty : endOf 4 (layout schema msg) = 4
  · rw [if_pos hempty, if_pos hempty]
    refine ⟨[0, 1, 0, 0] ++ emit 4 (layout schema msg) ++ [0], [0], rfl,
      List.append_assoc _ _ _, ?_⟩
    rw [List.length_append, hbuf, hempty]
    rfl
  · rw [if_neg hempty, if_neg hempty]
    exact ⟨[0, 1, 0, 0] ++ emit 4 (layout schema msg), [], rfl, by rw [List.append_nil], hbuf⟩

/-- A conforming message survives the way there and back exactly if every dynamic array is
counted. -/
theorem cdr_round_trip (limit : Nat) {schemaText : Str} {schema : Fields}
    (hparsed : parseSchema schemaText = .ok schema) {msg : JsonObject}
    (hmsg : Conforms schema msg) :
    RoundTrips limit schema msg ↔ Counted limit schema msg := by
  have hknown := parseSchema_known hparsed
  obtain ⟨data, post, hwritten, hdata, hlength⟩ := serializeCDR_eq hknown hmsg
  have hlong : ¬data.length < 4 := by
    rw [hdata]
    simp
  have hlittle : Little (Buffer.ofData data) := by
    rw [hdata]
    exact ⟨by simp [Buffer.ofData], by simp [Buffer.ofData]⟩
  have hat : At (Buffer.ofData data).data 4 (emit 4 (layout schema msg)) :=
    ⟨post, by rw [show (Buffer.ofData data).data = data from rfl, hdata]; rfl⟩
  have hreads : Reads limit (Buffer.ofData data) _ _ _ :=
    readMessage_reads hlittle hknown hmsg []
  obtain ⟨hruns, hstops⟩ := hreads { offset := 4, made := [] } (Nat.le_refl 4) hat
  unfold Counted
  rw [← hlength]
  constructor
  · rintro ⟨data', hwritten', hread⟩
    rw [hwritten] at hwritten'
    cases hwritten'
    unfold deserializeCDR at hread
    rw [if_neg hlong] at hread
    by_contra hnot
    exact hstops hnot _ hread
  · intro hguarded
    obtain ⟨made, hrun⟩ := hruns hguarded
    refine ⟨data, hwritten, ?_⟩
    unfold deserializeCDR
    rw [if_neg hlong]
    exact congrArg Prod.fst hrun

/-- A float and a list of integers. -/
def readings : Fields :=
  .cons ⟨['x'], .primitive, "float64".toList, 0⟩ .nil
    (.cons ⟨['a'], .dynArray, "int32".toList, 0⟩ .nil .nil)

/-- One and a half, and the integers 3 and -2. -/
def threeReadings : JsonObject :=
  [(['x'], .number 0x3FF8000000000000),
    (['a'], .arr [.number 0x4008000000000000, .number 0xC000000000000000])]

theorem readings_conform : Conforms readings threeReadings := by
  refine ⟨fun p hp => ?_, ⟨.inr ⟨_, rfl⟩, by decide, fun e he => ?_⟩, trivial⟩
  · cases hp
    exact .inr ⟨_, by decide, rfl⟩
  · rcases List.mem_cons.1 he with rfl | he
    · exact .inr ⟨_, 3, rfl, ⟨by decide +kernel, by decide⟩, by decide, by decide, by decide⟩
    · cases List.mem_singleton.1 he
      exact .inr ⟨_, -2, rfl, ⟨by decide +kernel, by decide⟩, by decide, by decide, by decide⟩

theorem readings_round_trip : RoundTrips 281474976710656 readings threeReadings :=
  (cdr_round_trip 281474976710656
    (show parseSchema "float64 x\nint32[] a".toList = .ok readings from rfl)
    readings_conform).2 ⟨by decide, by decide, trivial⟩

/-- An array of messages that have no fields is written, and refused by the reader. -/
theorem empty_messages_refused :
    ∃ schema, parseSchema "p/E[] a\n===\nMSG: p/E".toList = .ok schema ∧
      Conforms schema [(['a'], .arr [.obj []])] ∧
      ¬RoundTrips 281474976710656 schema [(['a'], .arr [.obj []])] := by
  refine ⟨.cons ⟨['a'], .dynArray, "p/E".toList, 0⟩ .nil .nil, by rfl, ⟨⟨Or.inr ⟨_, rfl⟩,
    by decide, ?_⟩, trivial⟩, ?_⟩
  · intro e he
    cases List.mem_singleton.1 he
    exact ⟨Or.inr ⟨_, rfl⟩, trivial⟩
  · rintro ⟨data, hwritten, hread⟩
    cases hwritten
    cases hread

end Cdr
end Foxglove
end Mowgli
