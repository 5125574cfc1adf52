import Mowgli.Lib.Stuffing

/-!
# Groups — which byte strings can be unstuffed

A byte string is accepted iff it is a row of groups, each an overhead byte and as many bytes as
it says. Without zeros it is what its payload is stuffed to, except that stuffing puts an empty
group behind a full one.
-/

namespace Mowgli
namespace Stuffing

/-- A block behind its overhead byte. -/
def group (block : List Byte) : List Byte := code block :: block

def row (blocks : List (List Byte)) : List Byte := blocks.flatMap group

/-- The payload: the zero behind every block that is neither full nor the last. -/
def joinBlocks : List (List Byte) → List Byte
  | [] => []
  | [block] => block
  | block :: blocks => block ++ ((if block.length = 254 then [] else [0#8]) ++ joinBlocks blocks)

def Fits (blocks : List (List Byte)) : Prop := ∀ block ∈ blocks, block.length ≤ 254

variable {block payload stuffed : List Byte} {blocks : List (List Byte)}

theorem code_toNat_full (h : block.length ≤ 254) : (code block).toNat = block.length + 1 := by
  unfold code
  rw [BitVec.toNat_ofNat]
  exact Nat.mod_eq_of_lt (by omega)

theorem code_full_iff (h : block.length ≤ 254) : code block = 0xFF#8 ↔ block.length = 254 := by
  have hcode := code_toNat_full h
  constructor
  · intro hfull
    rw [hfull] at hcode
    have : (0xFF#8).toNat = 255 := rfl
    omega
  · intro hlength
    refine BitVec.eq_of_toNat_eq ?_
    rw [hcode, hlength]
    rfl

theorem code_eq {c : Byte} (h : c.toNat = block.length + 1) : code block = c := by
  refine BitVec.eq_of_toNat_eq ?_
  have hlt := c.isLt
  rw [code_toNat_full (by omega), h]

theorem row_ne_nil (h : blocks ≠ []) : row blocks ≠ [] := by
  cases blocks with
  | nil => exact absurd rfl h
  | cons block blocks => exact List.cons_ne_nil _ _

/-- The zero that a group owes when something follows. -/
theorem owed (h : block.length ≤ 254) :
    (if (code block != 0xFF#8) = true then [0#8] else []) =
      if block.length = 254 then [] else [0#8] := by
  by_cases hfull : block.length = 254
  · rw [(code_full_iff h).2 hfull, if_pos hfull]
    rfl
  · rw [if_neg hfull, if_pos (bne_iff_ne.2 fun hc => hfull ((code_full_iff h).1 hc))]

theorem unstuff_group (h : block.length ≤ 254) (hne : stuffed ≠ []) :
    unstuff (group block ++ stuffed) =
      (unstuff stuffed).map fun rest =>
        block ++ ((if block.length = 254 then [] else [0#8]) ++ rest) := by
  unfold group
  rw [List.cons_append, unstuff_block (code_toNat_full h), unstuffFrom_zero hne, owed h,
    Option.map_map]
  rfl

/-- A row of groups is accepted. -/
theorem unstuff_row (hfits : Fits blocks) : unstuff (row blocks) = some (joinBlocks blocks) := by
  induction blocks with
  | nil => rfl
  | cons block blocks ih =>
    have hblock := hfits block List.mem_cons_self
    cases blocks with
    | nil =>
      have hlast := unstuff_block (code_toNat_full hblock) []
      rw [List.append_nil] at hlast
      unfold row group
      rw [List.flatMap_singleton, hlast]
      simp [unstuffFrom, joinBlocks]
    | cons next blocks =>
      have hrest := ih fun b hb => hfits b (List.mem_cons_of_mem block hb)
      rw [row, List.flatMap_cons]
      show unstuff (group block ++ row (next :: blocks)) = _
      rw [unstuff_group hblock (row_ne_nil (List.cons_ne_nil next blocks)), hrest]
      rfl

/-- What is left of a block is there, and then come groups. -/
theorem exists_rest {left : Nat} {zero : Bool} (h : unstuffFrom left zero stuffed = some payload) :
    ∃ block blocks, block.length = left ∧ Fits blocks ∧ stuffed = block ++ row blocks := by
  induction stuffed generalizing left zero payload with
  | nil =>
    cases left with
    | zero => exact ⟨[], [], rfl, fun _ hb => absurd hb List.not_mem_nil, rfl⟩
    | succ left => cases h
  | cons c rest ih =>
    cases left with
    | zero =>
      unfold unstuffFrom at h
      by_cases hzero : c = 0#8
      · rw [if_pos hzero] at h
        cases h
      · rw [if_neg hzero] at h
        obtain ⟨p, hp, -⟩ := Option.map_eq_some_iff.1 h
        obtain ⟨block, blocks, hlength, hfits, rfl⟩ := ih hp
        have hpos : c.toNat ≠ 0 := fun h0 => hzero (BitVec.eq_of_toNat_eq (by simpa using h0))
        have hlt := c.isLt
        refine ⟨[], block :: blocks, rfl, ?_, ?_⟩
        · intro b hb
          rcases List.mem_cons.1 hb with rfl | hb
          · omega
          · exact hfits b hb
        · have hcode : code block = c := code_eq (by omega)
          show _ = code block :: (block ++ row blocks)
          rw [hcode]
    | succ left =>
      obtain ⟨p, hp, -⟩ := Option.map_eq_some_iff.1 h
      obtain ⟨block, blocks, hlength, hfits, rfl⟩ := ih hp
      exact ⟨c :: block, blocks, congrArg (· + 1) hlength, hfits, rfl⟩

/-- **What is accepted is a row of groups.** -/
theorem unstuff_eq_some_iff :
    unstuff stuffed = some payload ↔
      ∃ blocks, Fits blocks ∧ stuffed = row blocks ∧ payload = joinBlocks blocks := by
  constructor
  · intro h
    obtain ⟨block, blocks, hlength, hfits, rfl⟩ := exists_rest h
    cases List.length_eq_zero_iff.1 hlength
    rw [List.nil_append, unstuff_row hfits] at h
    exact ⟨blocks, hfits, rfl, (Option.some.inj h).symm⟩
  · rintro ⟨blocks, hfits, rfl, rfl⟩
    exact unstuff_row hfits

/-- One turn of a decoder. -/
theorem unstuff_cons {c : Byte} (hc : c ≠ 0#8) (rest : List Byte) :
    unstuff (c :: rest) =
      if rest.length < c.toNat - 1 then none
      else
        (unstuff (rest.drop (c.toNat - 1))).map fun p =>
          rest.take (c.toNat - 1) ++
            ((if c ≠ 0xFF#8 ∧ rest.drop (c.toNat - 1) ≠ [] then [0#8] else []) ++ p) := by
  have hpos : c.toNat ≠ 0 := fun h0 => hc (BitVec.eq_of_toNat_eq (by simpa using h0))
  by_cases hshort : rest.length < c.toNat - 1
  · rw [if_pos hshort]
    unfold unstuff unstuffFrom
    rw [if_neg hc, unstuffFrom_short hshort]
    rfl
  · rw [if_neg hshort]
    have hlength : c.toNat = (rest.take (c.toNat - 1)).length + 1 := by
      rw [List.length_take]
      omega
    have hblock := unstuff_block hlength (rest.drop (c.toNat - 1))
    rw [List.take_append_drop] at hblock
    rw [hblock]
    by_cases htail : rest.drop (c.toNat - 1) = []
    · rw [htail, if_neg fun h => h.2 rfl]
      rfl
    · have howed : (if (c != 0xFF#8) = true then [0#8] else []) =
          if c ≠ 0xFF#8 ∧ rest.drop (c.toNat - 1) ≠ [] then [0#8] else [] := by
        by_cases hfull : c = 0xFF#8
        · rw [if_neg (fun h => bne_iff_ne.1 h hfull), if_neg fun h => h.1 hfull]
        · rw [if_pos (bne_iff_ne.2 hfull), if_pos ⟨hfull, htail⟩]
      rw [unstuffFrom_zero htail, howed, Option.map_map]
      rfl

theorem joinBlocks_append_nil {front : List (List Byte)} (h : block.length = 254) :
    joinBlocks (front ++ [block] ++ [[]]) = joinBlocks (front ++ [block]) := by
  induction front with
  | nil =>
    show block ++ ((if block.length = 254 then [] else [0#8]) ++ []) = block
    rw [if_pos h, List.append_nil, List.append_nil]
  | cons first front ih =>
    rw [List.cons_append, List.cons_append]
    cases hrest : front ++ [block] with
    | nil => exact absurd hrest (List.append_ne_nil_of_right_ne_nil front (List.cons_ne_nil _ _))
    | cons next rest =>
      rw [hrest] at ih
      show first ++ (_ ++ joinBlocks (next :: rest ++ [[]])) = first ++ (_ ++ joinBlocks (next :: rest))
      rw [ih]

/-! ## What stuffing makes of a payload -/

def ZeroFree (bytes : List Byte) : Prop := ∀ b ∈ bytes, b ≠ 0#8

theorem ZeroFree.left {front back : List Byte} (h : ZeroFree (front ++ back)) : ZeroFree front :=
  fun b hb => h b (List.mem_append_left back hb)

theorem ZeroFree.right {front back : List Byte} (h : ZeroFree (front ++ back)) : ZeroFree back :=
  fun b hb => h b (List.mem_append_right front hb)

theorem stuffFrom_short {more : List Byte} (hfree : ZeroFree more)
    (hshort : block.length + more.length ≤ 253) (rest : List Byte) :
    stuffFrom block (more ++ rest) = stuffFrom (block ++ more) rest := by
  induction more generalizing block with
  | nil => rw [List.nil_append, List.append_nil]
  | cons b more ih =>
    rw [List.length_cons] at hshort
    have hb : b ≠ 0#8 := hfree b List.mem_cons_self
    have hmore : ZeroFree more := fun c hc => hfree c (List.mem_cons_of_mem b hc)
    have hlength : (block ++ [b]).length + more.length ≤ 253 := by
      rw [List.length_append, List.length_singleton]
      omega
    rw [List.cons_append, stuffFrom, if_neg hb, if_neg (by omega), ih hmore hlength,
      List.append_assoc]
    rfl

/-- A full block closes itself. -/
theorem stuff_full (hfree : ZeroFree block) (hfull : block.length = 254) (rest : List Byte) :
    stuff (block ++ rest) = group block ++ stuff rest := by
  obtain ⟨front, b, rfl⟩ : ∃ front b, block = front ++ [b] := by
    rcases List.eq_nil_or_concat block with rfl | ⟨front, b, rfl⟩
    · cases hfull
    · exact ⟨front, b, List.concat_eq_append⟩
  rw [List.length_append, List.length_singleton] at hfull
  have hb : b ≠ 0#8 := hfree b (List.mem_append_right front List.mem_cons_self)
  have hcode : code (front ++ [b]) = 0xFF#8 := by
    rw [code_full_iff (by rw [List.length_append, List.length_singleton]; omega)]
    rw [List.length_append, List.length_singleton]
    exact hfull
  unfold stuff group
  rw [List.append_assoc, stuffFrom_short hfree.left (by rw [List.length_nil]; omega),
    List.nil_append, List.singleton_append, stuffFrom, if_neg hb, if_pos (by omega), hcode,
    List.cons_append, List.append_assoc]
  rfl

/-- A shorter one is closed by the zero after it. -/
theorem stuff_zero (hfree : ZeroFree block) (hshort : block.length ≤ 253) (rest : List Byte) :
    stuff (block ++ 0#8 :: rest) = group block ++ stuff rest := by
  unfold stuff group
  rw [stuffFrom_short hfree (by rw [List.length_nil]; omega), List.nil_append, stuffFrom,
    if_pos rfl, List.cons_append]

theorem stuff_last (hfree : ZeroFree block) (hshort : block.length ≤ 253) :
    stuff block = group block := by
  have h : stuffFrom [] (block ++ []) = stuffFrom ([] ++ block) [] :=
    stuffFrom_short hfree (by rw [List.length_nil]; omega) []
  rw [List.append_nil, List.nil_append] at h
  exact h

def EndsFull (blocks : List (List Byte)) : Prop :=
  ∃ front block, blocks = front ++ [block] ∧ block.length = 254

/-- **A row of zero-free groups is stuffed anew to itself**, with an empty group behind a full
    last one. -/
theorem stuff_joinBlocks (hne : blocks ≠ []) (hfits : Fits blocks)
    (hfree : ∀ block ∈ blocks, ZeroFree block) :
    stuff (joinBlocks blocks) = row blocks ∧ ¬EndsFull blocks ∨
      stuff (joinBlocks blocks) = row blocks ++ [1#8] ∧ EndsFull blocks := by
  induction blocks with
  | nil => exact absurd rfl hne
  | cons block blocks ih =>
    have hblock := hfits block List.mem_cons_self
    have hblockFree := hfree block List.mem_cons_self
    cases blocks with
    | nil =>
      have hrow : row [block] = group block := List.flatMap_singleton group block
      rw [hrow]
      by_cases hfull : block.length = 254
      · refine Or.inr ⟨?_, [], block, rfl, hfull⟩
        have h := stuff_full hblockFree hfull []
        rw [List.append_nil] at h
        exact h
      · have hshort : block.length ≤ 253 := by omega
        refine Or.inl ⟨stuff_last hblockFree hshort, ?_⟩
        rintro ⟨front, last, heq, hlast⟩
        cases front with
        | nil =>
          cases heq
          exact hfull hlast
        | cons first front =>
          rw [List.cons_append] at heq
          have hnil := (List.cons.inj heq).2
          exact absurd hnil.symm (List.append_ne_nil_of_right_ne_nil front (List.cons_ne_nil last []))
    | cons next blocks =>
      have hrest := ih (List.cons_ne_nil next blocks)
        (fun b hb => hfits b (List.mem_cons_of_mem block hb))
        fun b hb => hfree b (List.mem_cons_of_mem block hb)
      have hends : EndsFull (block :: next :: blocks) ↔ EndsFull (next :: blocks) := by
        constructor
        · rintro ⟨front, last, heq, hlast⟩
          cases front with
          | nil => cases heq
          | cons first front =>
            rw [List.cons_append] at heq
            exact ⟨front, last, (List.cons.inj heq).2, hlast⟩
        · rintro ⟨front, last, heq, hlast⟩
          exact ⟨block :: front, last, by rw [heq]; rfl, hlast⟩
      have hstuff : stuff (joinBlocks (block :: next :: blocks)) =
          group block ++ stuff (joinBlocks (next :: blocks)) := by
        show stuff (block ++ ((if block.length = 254 then [] else [0#8]) ++
          joinBlocks (next :: blocks))) = _
        by_cases hfull : block.length = 254
        · rw [if_pos hfull, List.nil_append, stuff_full hblockFree hfull]
        · rw [if_neg hfull, List.singleton_append, stuff_zero hblockFree (by omega)]
      have hrow : row (block :: next :: blocks) = group block ++ row (next :: blocks) :=
        List.flatMap_cons
      rw [hstuff, hends, hrow, List.append_assoc]
      rcases hrest with ⟨h, hnot⟩ | ⟨h, hfull⟩
      · exact Or.inl ⟨by rw [h], hnot⟩
      · exact Or.inr ⟨by rw [h], hfull⟩

/-- Without a zero, one byte more for each 254 and one for the last. -/
theorem length_stuff_zeroFree {payload : List Byte} (h : ZeroFree payload) :
    (stuff payload).length = payload.length + payload.length / 254 + 1 := by
  by_cases hshort : payload.length ≤ 253
  · rw [stuff_last h hshort, Nat.div_eq_of_lt (by omega)]
    rfl
  · obtain ⟨block, rest, hpayload, hblock⟩ : ∃ block rest, payload = block ++ rest ∧
        block.length = 254 :=
      ⟨_, _, (List.take_append_drop 254 payload).symm, by rw [List.length_take]; omega⟩
    have hlength : payload.length = block.length + rest.length := by
      rw [hpayload, List.length_append]
    rw [hpayload] at h
    have hrest := length_stuff_zeroFree h.right
    rw [hlength, hpayload, stuff_full h.left hblock, List.length_append, hrest]
    unfold group
    rw [List.length_cons]
    omega
  termination_by payload.length

end Stuffing
end Mowgli
