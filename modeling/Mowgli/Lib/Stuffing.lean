import Mathlib.Data.BitVec

/-!
# Stuffing — byte stuffing with overhead bytes

A payload is cut into blocks, each ended by a zero that is left out or by its length: 254
bytes. In front of a block stands its length plus one, so **no byte of the stuffed form is
zero** and a zero can end it.

`stuff` and `unstuff` say what an encoder and a decoder compute, one block after the other;
`unstuff_stuff` is the round trip, `length_stuff_le` and `length_unstuff_lt` are the bounds
a buffer is sized by.
-/

namespace Mowgli
namespace Stuffing

abbrev Byte := BitVec 8

/-- The overhead byte of a block. -/
def code (block : List Byte) : Byte := BitVec.ofNat 8 (block.length + 1)

/-- The stuffed form of what follows the unfinished block `block`. -/
def stuffFrom (block : List Byte) : List Byte → List Byte
  | [] => code block :: block
  | b :: rest =>
    if b = 0#8 then code block :: (block ++ stuffFrom [] rest)
    else if block.length = 253 then 0xFF#8 :: (block ++ b :: stuffFrom [] rest)
    else stuffFrom (block ++ [b]) rest

def stuff (payload : List Byte) : List Byte := stuffFrom [] payload

/-- The payload of what follows, when `left` bytes of a block are still to come, and `zero`
    says whether the block was ended by one. -/
def unstuffFrom : Nat → Bool → List Byte → Option (List Byte)
  | 0, _, [] => some []
  | _ + 1, _, [] => none
  | 0, zero, c :: rest =>
    if c = 0#8 then none
    else (unstuffFrom (c.toNat - 1) (c != 0xFF#8) rest).map ((if zero then [0#8] else []) ++ ·)
  | left + 1, zero, b :: rest => (unstuffFrom left zero rest).map (b :: ·)

def unstuff (stuffed : List Byte) : Option (List Byte) := unstuffFrom 0 false stuffed

/-! ## The overhead byte -/

variable {block payload stuffed : List Byte}

theorem length_nil_le : ([] : List Byte).length ≤ 253 := Nat.zero_le _

theorem code_toNat (h : block.length ≤ 253) : (code block).toNat = block.length + 1 := by
  unfold code
  rw [BitVec.toNat_ofNat]
  exact Nat.mod_eq_of_lt (by omega)

theorem code_ne_zero (h : block.length ≤ 253) : code block ≠ 0#8 := by
  intro hc
  have := code_toNat h
  rw [hc] at this
  exact absurd this (by simp)

theorem code_ne_full (h : block.length ≤ 253) : code block ≠ 0xFF#8 := by
  intro hc
  have := code_toNat h
  rw [hc] at this
  have hfull : (0xFF#8).toNat = 255 := rfl
  omega

/-! ## No zero -/

theorem stuffFrom_ne_zero (h : block.length ≤ 253) (hb : ∀ b ∈ block, b ≠ 0#8) :
    ∀ b ∈ stuffFrom block payload, b ≠ 0#8 := by
  induction payload generalizing block with
  | nil =>
    intro b hm
    rcases List.mem_cons.1 hm with rfl | hm
    · exact code_ne_zero h
    · exact hb b hm
  | cons x rest ih =>
    have hfresh : ∀ b ∈ stuffFrom [] rest, b ≠ 0#8 := ih length_nil_le (by simp)
    unfold stuffFrom
    split
    · intro b hm
      rcases List.mem_cons.1 hm with rfl | hm
      · exact code_ne_zero h
      · rcases List.mem_append.1 hm with hm | hm
        · exact hb b hm
        · exact hfresh b hm
    · rename_i hx
      split
      · intro b hm
        rcases List.mem_cons.1 hm with rfl | hm
        · decide
        · rcases List.mem_append.1 hm with hm | hm
          · exact hb b hm
          · rcases List.mem_cons.1 hm with rfl | hm
            · exact hx
            · exact hfresh b hm
      · rename_i hfull
        refine ih (by simp; omega) fun b hm => ?_
        rcases List.mem_append.1 hm with hm | hm
        · exact hb b hm
        · rw [List.mem_singleton.1 hm]; exact hx

/-- **No byte of the stuffed form is zero.** -/
theorem stuff_ne_zero : ∀ b ∈ stuff payload, b ≠ 0#8 :=
  stuffFrom_ne_zero length_nil_le (by simp)

theorem stuffFrom_ne_nil : stuffFrom block payload ≠ [] := by
  induction payload generalizing block with
  | nil => simp [stuffFrom]
  | cons x rest ih =>
    unfold stuffFrom
    split
    · simp
    · split
      · simp
      · exact ih

theorem stuff_ne_nil : stuff payload ≠ [] := stuffFrom_ne_nil

/-! ## The round trip -/

/-- The bytes of a block are copied. -/
theorem unstuffFrom_block (zero : Bool) (rest : List Byte) :
    unstuffFrom block.length zero (block ++ rest) =
      (unstuffFrom 0 zero rest).map (block ++ ·) := by
  induction block with
  | nil => simp
  | cons b block ih =>
    rw [List.length_cons, List.cons_append]
    show (unstuffFrom block.length zero (block ++ rest)).map (b :: ·) = _
    rw [ih, Option.map_map]
    rfl

/-- A block that is cut short. -/
theorem unstuffFrom_short {left : Nat} {zero : Bool} (h : stuffed.length < left) :
    unstuffFrom left zero stuffed = none := by
  induction stuffed generalizing left with
  | nil =>
    cases left with
    | zero => exact absurd h (by simp)
    | succ left => rfl
  | cons b stuffed ih =>
    cases left with
    | zero => exact absurd h (by simp)
    | succ left =>
      have hshort : stuffed.length < left := by simpa using h
      rw [unstuffFrom, ih hshort]
      rfl

/-- A zero that is owed is written as soon as something follows. -/
theorem unstuffFrom_zero (h : stuffed ≠ []) (zero : Bool) :
    unstuffFrom 0 zero stuffed =
      (unstuffFrom 0 false stuffed).map ((if zero then [0#8] else []) ++ ·) := by
  cases stuffed with
  | nil => exact absurd rfl h
  | cons c rest =>
    unfold unstuffFrom
    split
    · rfl
    · simp

/-- An overhead byte, and its block. -/
theorem unstuff_block {c : Byte} (hc : c.toNat = block.length + 1) (rest : List Byte) :
    unstuff (c :: (block ++ rest)) =
      (unstuffFrom 0 (c != 0xFF#8) rest).map (block ++ ·) := by
  have hne : c ≠ 0#8 := by
    rintro rfl
    exact absurd hc (by simp)
  unfold unstuff
  rw [unstuffFrom, if_neg hne, hc, Nat.add_sub_cancel, unstuffFrom_block, Option.map_map]
  rfl

theorem unstuff_stuffFrom (h : block.length ≤ 253) :
    unstuff (stuffFrom block payload) = some (block ++ payload) := by
  induction payload generalizing block with
  | nil =>
    have := unstuff_block (code_toNat h) []
    rw [List.append_nil] at this
    rw [stuffFrom, this]
    simp [unstuffFrom]
  | cons x rest ih =>
    have hfresh : unstuffFrom 0 false (stuffFrom [] rest) = some rest := ih length_nil_le
    by_cases hx : x = 0#8
    · rw [stuffFrom, if_pos hx, unstuff_block (code_toNat h), unstuffFrom_zero stuffFrom_ne_nil,
        hfresh]
      simp [code_ne_full h, hx]
    · by_cases hfull : block.length = 253
      · have hc : (0xFF#8).toNat = (block ++ [x]).length + 1 := by simp [hfull]
        have hblock := unstuff_block hc (stuffFrom [] rest)
        rw [List.append_assoc, List.singleton_append] at hblock
        rw [stuffFrom, if_neg hx, if_pos hfull, hblock]
        simp [hfresh]
      · rw [stuffFrom, if_neg hx, if_neg hfull, ih (by simp; omega)]
        simp

/-- **The round trip.** -/
theorem unstuff_stuff : unstuff (stuff payload) = some payload :=
  unstuff_stuffFrom  (by simp)

/-! ## Lengths -/

theorem length_stuffFrom_le (h : block.length ≤ 253) :
    (stuffFrom block payload).length ≤
      (block.length + payload.length) + (block.length + payload.length) / 254 + 1 := by
  induction payload generalizing block with
  | nil => simp [stuffFrom]
  | cons x rest ih =>
    have hfresh : (stuffFrom [] rest).length ≤ rest.length + rest.length / 254 + 1 := by
      simpa using ih length_nil_le
    unfold stuffFrom
    split
    · simp only [List.length_cons, List.length_append]
      have : rest.length / 254 ≤ (block.length + (rest.length + 1)) / 254 :=
        Nat.div_le_div_right (by omega)
      omega
    · split
      · simp only [List.length_cons, List.length_append]
        omega
      · have := ih (show (block ++ [x]).length ≤ 253 by simp; omega)
        simp only [List.length_cons, List.length_append] at this ⊢
        rw [show block.length + (rest.length + 1) = block.length + ([] : List Byte).length + 1 +
          rest.length by simp; omega]
        simpa using this

/-- **The stuffed form is longer by one byte, and one for each 254.** -/
theorem length_stuff_le : (stuff payload).length ≤ payload.length + payload.length / 254 + 1 := by
  have h : (stuffFrom [] payload).length ≤ _ := length_stuffFrom_le length_nil_le
  rwa [List.length_nil, Nat.zero_add] at h

theorem length_unstuffFrom_le {left : Nat} {zero : Bool}
    (h : unstuffFrom left zero stuffed = some payload) : payload.length ≤ stuffed.length := by
  induction stuffed generalizing left zero payload with
  | nil =>
    cases left with
    | zero => simp [unstuffFrom] at h; simp [h]
    | succ left => simp [unstuffFrom] at h
  | cons c rest ih =>
    cases left with
    | zero =>
      unfold unstuffFrom at h
      split at h
      · exact absurd h (by simp)
      · obtain ⟨p, hp, rfl⟩ := Option.map_eq_some_iff.1 h
        have := ih hp
        cases zero with
        | true => simpa using this
        | false => simp; omega
    | succ left =>
      obtain ⟨p, hp, rfl⟩ := Option.map_eq_some_iff.1 h
      simpa using ih hp

/-- **A payload is shorter than its stuffed form.** -/
theorem length_unstuff_lt (h : unstuff stuffed = some payload) (hne : stuffed ≠ []) :
    payload.length < stuffed.length := by
  cases stuffed with
  | nil => exact absurd rfl hne
  | cons c rest =>
    unfold unstuff unstuffFrom at h
    split at h
    · exact absurd h (by simp)
    · obtain ⟨p, hp, rfl⟩ := Option.map_eq_some_iff.1 h
      exact Nat.lt_succ_of_le (length_unstuffFrom_le hp)

end Stuffing
end Mowgli
