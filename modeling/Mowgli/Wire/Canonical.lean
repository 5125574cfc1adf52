import Mowgli.Lib.Groups
import Mowgli.Wire.Comms

/-!
# Canonical — what the two codecs compute, and what they accept

The decoders of `cobs.c` and `cobs.cpp` by index, as each is written. They differ in where they
step past the overhead byte and in how they ask for room.
-/

namespace Mowgli
namespace Wire

open Stuffing (Byte unstuff ZeroFree)

/-! ## The decoders, by index -/

/-- The loop of `cobs_decode` in `cobs.c`; `none` is the 0 of malformed input. -/
def Firmware.decodeFrom (input : List Byte) (read : Nat) (output : List Byte) :
    Option (List Byte) :=
  if read < input.length then
    let code := input.getD read 0#8
    let read := read + 1
    if code = 0#8 then none
    else
      let copyCount := code.toNat - 1
      if read + copyCount > input.length then none
      else
        let output := output ++ (input.drop read).take copyCount
        let read := read + copyCount
        Firmware.decodeFrom input read
          (if code ≠ 0xFF#8 ∧ read < input.length then output ++ [0#8] else output)
  else some output
  termination_by input.length - read

/-- The loop of `cobs_decode` in `cobs.cpp`. -/
def Bridge.decodeFrom (input : List Byte) (inIdx : Nat) (output : List Byte) :
    Option (List Byte) :=
  if inIdx < input.length then
    let code := input.getD inIdx 0#8
    if code = 0#8 then none
    -- The run claims code-1 more bytes exist.
    else if inIdx + code.toNat > input.length then none
    else
      let inIdx := inIdx + 1
      let output := output ++ (input.drop inIdx).take (code.toNat - 1)
      let inIdx := inIdx + (code.toNat - 1)
      Bridge.decodeFrom input inIdx
        (if code < 0xFF#8 ∧ inIdx < input.length then output ++ [0#8] else output)
  else some output
  termination_by input.length - inIdx

/-- The bytes that the returned size counts. -/
def returned (decoded : Option (List Byte)) : List Byte := decoded.getD []

section Decoders

variable {input output : List Byte} {read : Nat}

theorem drop_getD (h : read < input.length) :
    input.drop read = input.getD read 0#8 :: input.drop (read + 1) := by
  rw [List.drop_eq_getElem_cons h, List.getD_eq_getElem?_getD, List.getElem?_eq_getElem h]
  rfl

/-- What one round of either loop leaves to the next. -/
theorem unstuff_drop (h : read < input.length) (hcode : input.getD read 0#8 ≠ 0#8)
    (hroom : read + (input.getD read 0#8).toNat ≤ input.length) :
    let code := input.getD read 0#8
    let next := read + 1 + (code.toNat - 1)
    (unstuff (input.drop read)).map (output ++ ·) =
      (unstuff (input.drop next)).map
        ((if code ≠ 0xFF#8 ∧ next < input.length then
          output ++ (input.drop (read + 1)).take (code.toNat - 1) ++ [0#8]
        else output ++ (input.drop (read + 1)).take (code.toNat - 1)) ++ ·) := by
  intro code next
  have hpos : code.toNat ≠ 0 := fun h0 => hcode (BitVec.eq_of_toNat_eq h0)
  have hrest : ¬(input.drop (read + 1)).length < code.toNat - 1 := by
    rw [List.length_drop]
    show ¬input.length - (read + 1) < code.toNat - 1
    have : read + code.toNat ≤ input.length := hroom
    omega
  have hdrop : (input.drop (read + 1)).drop (code.toNat - 1) = input.drop next := List.drop_drop
  have hne : input.drop next ≠ [] ↔ next < input.length := by
    rw [ne_eq, List.drop_eq_nil_iff, Nat.not_le]
  rw [drop_getD h, Stuffing.unstuff_cons hcode, if_neg hrest, hdrop, Option.map_map]
  refine congrArg (fun f => (unstuff (input.drop next)).map f) (funext fun p => ?_)
  show output ++ (_ ++ ((if code ≠ 0xFF#8 ∧ input.drop next ≠ [] then [0#8] else []) ++ p)) = _
  by_cases howed : code ≠ 0xFF#8 ∧ next < input.length
  · rw [if_pos howed, if_pos ⟨howed.1, hne.2 howed.2⟩]
    simp only [List.append_assoc]
    rfl
  · rw [if_neg howed, if_neg fun h => howed ⟨h.1, hne.1 h.2⟩, List.append_assoc]
    rfl

theorem unstuff_drop_none (h : read < input.length)
    (hbad : input.getD read 0#8 = 0#8 ∨ input.length < read + (input.getD read 0#8).toNat) :
    unstuff (input.drop read) = none := by
  rw [drop_getD h]
  by_cases hcode : input.getD read 0#8 = 0#8
  · unfold unstuff Stuffing.unstuffFrom
    rw [if_pos hcode]
  · have hshort : (input.drop (read + 1)).length < (input.getD read 0#8).toNat - 1 := by
      have := hbad.resolve_left hcode
      rw [List.length_drop]
      omega
    rw [Stuffing.unstuff_cons hcode, if_pos hshort]

theorem Firmware.decodeFrom_eq :
    Firmware.decodeFrom input read output = (unstuff (input.drop read)).map (output ++ ·) := by
  fun_induction Firmware.decodeFrom input read output with
  | case1 read output h code hcode =>
    rw [unstuff_drop_none h (.inl hcode)]
    rfl
  | case2 read output h code next hcode copyCount hroom =>
    have hpos : code.toNat ≠ 0 := fun h0 => hcode (BitVec.eq_of_toNat_eq h0)
    have hlong : input.length < read + code.toNat := by omega
    rw [unstuff_drop_none h (.inr hlong)]
    rfl
  | case3 read output h code next hcode copyCount hroom copied after ih =>
    have hpos : code.toNat ≠ 0 := fun h0 => hcode (BitVec.eq_of_toNat_eq h0)
    have hfits : read + code.toNat ≤ input.length := by omega
    rw [unstuff_drop h hcode hfits]
    exact ih
  | case4 read output h =>
    rw [List.drop_eq_nil_of_le (Nat.le_of_not_lt h)]
    show _ = some (output ++ [])
    rw [List.append_nil]

theorem lt_full_iff (code : Byte) : code < 0xFF#8 ↔ code ≠ 0xFF#8 := by
  have hlt := code.isLt
  rw [BitVec.lt_def, ne_eq, ← BitVec.toNat_inj]
  have : (0xFF#8).toNat = 255 := rfl
  omega

theorem Bridge.decodeFrom_eq :
    Bridge.decodeFrom input read output = (unstuff (input.drop read)).map (output ++ ·) := by
  fun_induction Bridge.decodeFrom input read output with
  | case1 read output h code hcode =>
    rw [unstuff_drop_none h (.inl hcode)]
    rfl
  | case2 read output h code hcode hroom =>
    rw [unstuff_drop_none h (.inr hroom)]
    rfl
  | case3 read output h code hcode hroom next copied after ih =>
    rw [unstuff_drop h hcode (Nat.le_of_not_lt hroom)]
    simp only [lt_full_iff] at ih ⊢
    exact ih
  | case4 read output h =>
    rw [List.drop_eq_nil_of_le (Nat.le_of_not_lt h)]
    show _ = some (output ++ [])
    rw [List.append_nil]

end Decoders

/-- `cobs_decode` of `cobs.c`. -/
def Firmware.decoded (input : List Byte) : Option (List Byte) := Firmware.decodeFrom input 0 []

/-- `cobs_decode` of `cobs.cpp`, which looks at an empty input first. -/
def Bridge.decoded (input : List Byte) : Option (List Byte) :=
  if input.length = 0 then none else Bridge.decodeFrom input 0 []

theorem Firmware.decoded_eq (input : List Byte) : Firmware.decoded input = unstuff input := by
  unfold Firmware.decoded
  rw [Firmware.decodeFrom_eq, List.drop_zero]
  exact congrFun Option.map_id_fun _

theorem Bridge.decoded_eq {input : List Byte} (h : input ≠ []) :
    Bridge.decoded input = unstuff input := by
  unfold Bridge.decoded
  rw [if_neg fun h0 => h (List.length_eq_zero_iff.1 h0), Bridge.decodeFrom_eq, List.drop_zero]
  exact congrFun Option.map_id_fun _

/-! ## Canonical up to the last group -/

/-- A row of groups with a full one last. -/
def EndsFull (input : List Byte) : Prop :=
  ∃ blocks, Stuffing.Fits blocks ∧ Stuffing.EndsFull blocks ∧ input = Stuffing.row blocks

theorem unstuff_zeroFree_iff {input output : List Byte} (hne : input ≠ [])
    (hfree : ZeroFree input) :
    unstuff input = some output ↔
      input = Stuffing.stuff output ∨
        Stuffing.stuff output = input ++ [1#8] ∧ EndsFull input := by
  constructor
  · intro h
    obtain ⟨blocks, hfits, rfl, rfl⟩ := Stuffing.unstuff_eq_some_iff.1 h
    have hblocks : blocks ≠ [] := by
      rintro rfl
      exact hne rfl
    have hblocksFree : ∀ block ∈ blocks, ZeroFree block := by
      intro block hblock b hb
      exact hfree b (List.mem_flatMap.2 ⟨block, hblock, List.mem_cons_of_mem _ hb⟩)
    rcases Stuffing.stuff_joinBlocks hblocks hfits hblocksFree with ⟨h, -⟩ | ⟨h, hfull⟩
    · exact .inl h.symm
    · exact .inr ⟨h, blocks, hfits, hfull, rfl⟩
  · rintro (h | ⟨h, blocks, hfits, ⟨front, block, rfl, hblock⟩, rfl⟩)
    · rw [h]
      exact Stuffing.unstuff_stuff
    · have hrow : Stuffing.row (front ++ [block]) ++ [1#8] =
          Stuffing.row (front ++ [block] ++ [[]]) :=
        (List.flatMap_append : List.flatMap Stuffing.group (front ++ [block] ++ [[]]) = _).symm
      have hlong : Stuffing.Fits (front ++ [block] ++ [[]]) := by
        intro b hb
        rcases List.mem_append.1 hb with hb | hb
        · exact hfits b hb
        · rw [List.mem_singleton.1 hb]
          exact Nat.zero_le 254
      have houtput := Stuffing.unstuff_row hlong
      rw [← hrow, ← h, Stuffing.unstuff_stuff, Stuffing.joinBlocks_append_nil hblock] at houtput
      rw [Stuffing.unstuff_row hfits, houtput]

/-- **Lossless, free of zeros, tight and almost canonical**, and on both sides the same. -/
theorem cobs_codec :
    (∀ x : List Byte, ZeroFree (Bridge.cobsEncode x) ∧
      (Bridge.cobsEncode x).length ≤ cobsMaxEncodedSize x.length ∧
      (ZeroFree x → (Bridge.cobsEncode x).length = cobsMaxEncodedSize x.length) ∧
      Bridge.decoded (Bridge.cobsEncode x) = some x) ∧
    (∀ y x : List Byte, y ≠ [] → ZeroFree y →
      (Bridge.decoded y = some x ↔
        y = Bridge.cobsEncode x ∨ Bridge.cobsEncode x = y ++ [1#8] ∧ EndsFull y)) ∧
    (∀ x : List Byte, Firmware.cobsEncode x = Bridge.cobsEncode x) ∧
    (∀ y : List Byte, y ≠ [] → Firmware.decoded y = Bridge.decoded y) ∧
    returned (Firmware.decoded []) = returned (Bridge.decoded []) := by
  have hencode : ∀ x : List Byte, Bridge.cobsEncode x = Stuffing.stuff x := encode_eq 0#8
  refine ⟨?_, ?_, ?_, ?_, ?_⟩
  · intro x
    rw [hencode, Bridge.decoded_eq Stuffing.stuff_ne_nil]
    exact ⟨Stuffing.stuff_ne_zero, Stuffing.length_stuff_le, Stuffing.length_stuff_zeroFree,
      Stuffing.unstuff_stuff⟩
  · intro y x hne hfree
    rw [Bridge.decoded_eq hne, hencode]
    exact unstuff_zeroFree_iff hne hfree
  · intro x
    rw [hencode]
    exact encode_eq 1#8 x
  · intro y hne
    rw [Firmware.decoded_eq, Bridge.decoded_eq hne]
  · rw [Firmware.decoded_eq]
    rfl

end Wire
end Mowgli
