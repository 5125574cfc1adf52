import Mathlib.Data.List.Basic
import Mathlib.Data.List.TakeWhile

/-!
# Text — lines and decimal numbers

What the text files of the programs are made of: the lines of `std::getline`, and decimal
numbers as `operator<<` writes them and as `operator>>`, `strtoull` and their kin read them,
with their leading space and sign.

A number that was written is read back, whatever follows it that is no digit.
-/

namespace Mowgli
namespace Text

/-- `isspace` of the C locale. -/
def isSpace (c : Char) : Bool :=
  c == ' ' || c == '\t' || c == '\n' || c == '\x0b' || c == '\x0c' || c == '\r'

def skipSpace (s : List Char) : List Char := s.dropWhile isSpace

/-- Up to the next newline, which is taken and left out. There is no line at the end. -/
def getline (s : List Char) : Option (List Char × List Char) :=
  if s.isEmpty then none
  else some (s.takeWhile (· != '\n'), (s.dropWhile (· != '\n')).drop 1)

/-- All the lines. What follows the last newline is one if there is anything. -/
def lines : List Char → List (List Char)
  | [] => []
  | c :: s =>
    if c = '\n' then [] :: lines s
    else
      match lines s with
      | [] => [[c]]
      | line :: rest => (c :: line) :: rest

/-- The pieces `std::getline` finds with another delimiter. -/
def pieces (sep : Char) : List Char → List (List Char)
  | [] => []
  | c :: s =>
    if c = sep then [] :: pieces sep s
    else
      match pieces sep s with
      | [] => [[c]]
      | piece :: rest => (c :: piece) :: rest

/-- The number of a row of digits. -/
def digits (s : List Char) : Option (Nat × List Char) :=
  let front := s.takeWhile Char.isDigit
  if front.isEmpty then none else some (Nat.ofDigitChars 10 front 0, s.dropWhile Char.isDigit)

/-- An unsigned number below `bound`. A minus sign wraps it. -/
def unsigned (bound : Nat) (s : List Char) : Option (Nat × List Char) :=
  match skipSpace s with
  | '-' :: rest =>
    (digits rest).bind fun r => if bound ≤ r.1 then none else some ((bound - r.1) % bound, r.2)
  | '+' :: rest => (digits rest).bind fun r => if bound ≤ r.1 then none else some r
  | rest => (digits rest).bind fun r => if bound ≤ r.1 then none else some r

/-- `operator<<` of an unsigned number. -/
def decimal (n : Nat) : List Char := Nat.toDigits 10 n

/-! ## What is written is read back -/

variable {rest : List Char} {c : Char} {s : List Char} {sep : Char}

theorem takeWhile_ne (h : c ∉ s) : (s ++ c :: rest).takeWhile (· != c) = s := by
  rw [List.takeWhile_append_of_pos fun d hd => by
    rw [bne_iff_ne]
    rintro rfl
    exact h hd]
  simp

theorem dropWhile_ne (h : c ∉ s) : (s ++ c :: rest).dropWhile (· != c) = c :: rest := by
  rw [List.dropWhile_append_of_pos fun d hd => by
    rw [bne_iff_ne]
    rintro rfl
    exact h hd]
  simp

theorem getline_append {line : List Char} (h : '\n' ∉ line) :
    getline (line ++ '\n' :: rest) = some (line, rest) := by
  unfold getline
  rw [if_neg (by simp), takeWhile_ne h, dropWhile_ne h]
  rfl

theorem decimal_ne_nil (n : Nat) : decimal n ≠ [] := Nat.toDigits_ne_nil

theorem isDigit_of_mem_decimal {n : Nat} (h : c ∈ decimal n) : c.isDigit = true :=
  Nat.isDigit_of_mem_toDigits (by decide) (by decide) h

/-- A character that is no digit is in no number. -/
theorem not_mem_decimal {n : Nat} (h : c.isDigit = false) : c ∉ decimal n := by
  intro hc
  rw [isDigit_of_mem_decimal hc] at h
  cases h

/-- The text goes on with no digit. -/
def Ends (rest : List Char) : Prop := ∀ c, rest.head? = some c → c.isDigit = false

theorem digits_decimal (n : Nat) {rest : List Char} (h : Ends rest) :
    digits (decimal n ++ rest) = some (n, rest) := by
  have htake : (decimal n ++ rest).takeWhile Char.isDigit = decimal n := by
    rw [List.takeWhile_append_of_pos fun c hc => isDigit_of_mem_decimal hc]
    cases rest with
    | nil => simp
    | cons c rest => simp [h c rfl]
  have hdrop : (decimal n ++ rest).dropWhile Char.isDigit = rest := by
    rw [List.dropWhile_append_of_pos fun c hc => isDigit_of_mem_decimal hc]
    cases rest with
    | nil => simp
    | cons c rest => simp [h c rfl]
  unfold digits
  dsimp only
  rw [htake, hdrop, if_neg (by simpa using decimal_ne_nil n)]
  rw [decimal, Nat.ofDigitChars_ten_toDigits]

/-- No number starts with a space or a sign. -/
theorem decimal_cons (n : Nat) : ∃ c rest, decimal n = c :: rest ∧ c.isDigit = true := by
  cases hd : decimal n with
  | nil => exact absurd hd (decimal_ne_nil n)
  | cons c rest =>
    exact ⟨c, rest, rfl, isDigit_of_mem_decimal (hd ▸ List.mem_cons_self)⟩

theorem isSpace_of_isDigit (h : c.isDigit = true) : isSpace c = false := by
  unfold isSpace
  simp only [Bool.or_eq_false_iff, beq_eq_false_iff_ne]
  refine ⟨⟨⟨⟨⟨?_, ?_⟩, ?_⟩, ?_⟩, ?_⟩, ?_⟩ <;> rintro rfl <;> exact absurd h (by decide)

theorem skipSpace_of_isDigit (h : c.isDigit = true) : skipSpace (c :: rest) = c :: rest := by
  unfold skipSpace
  rw [List.dropWhile_cons_of_neg (by rw [isSpace_of_isDigit h]; exact Bool.false_ne_true)]

theorem unsigned_decimal {bound n : Nat} (hn : n < bound) {rest : List Char} (h : Ends rest) :
    unsigned bound (decimal n ++ rest) = some (n, rest) := by
  obtain ⟨c, tail, hd, hc⟩ := decimal_cons n
  have hdigits := digits_decimal n h
  rw [hd, List.cons_append] at hdigits ⊢
  unfold unsigned
  rw [skipSpace_of_isDigit hc]
  split
  · rename_i heq
    cases heq
    exact absurd hc (by decide)
  · rename_i heq
    cases heq
    exact absurd hc (by decide)
  · rw [hdigits]
    simp [Nat.not_le.2 hn]

/-- One space before a number is skipped. -/
theorem unsigned_space {bound : Nat} : unsigned bound (' ' :: s) = unsigned bound s := by
  have hskip : skipSpace (' ' :: s) = skipSpace s := by
    unfold skipSpace
    rw [List.dropWhile_cons_of_pos (by decide)]
  unfold unsigned
  rw [hskip]

/-! ## Lines and pieces put together -/

theorem lines_append {line : List Char} (h : '\n' ∉ line) :
    lines (line ++ '\n' :: rest) = line :: lines rest := by
  induction line with
  | nil => simp [lines]
  | cons c line ih =>
    have hc : c ≠ '\n' := fun heq => h (heq ▸ List.mem_cons_self)
    have htail := ih fun hmem => h (List.mem_cons_of_mem c hmem)
    rw [List.cons_append, lines, if_neg hc, htail]

theorem lines_unlines {ls : List (List Char)} (h : ∀ line ∈ ls, '\n' ∉ line) :
    lines (ls.flatMap (· ++ ['\n'])) = ls := by
  induction ls with
  | nil => rfl
  | cons line ls ih =>
    obtain ⟨hline, hrest⟩ := List.forall_mem_cons.1 h
    rw [List.flatMap_cons, List.append_assoc, List.singleton_append, lines_append hline, ih hrest]

/-- Pieces with a separator between each two. -/
def joined (sep : Char) : List (List Char) → List Char
  | [] => []
  | [s] => s
  | s :: rest => s ++ sep :: joined sep rest

theorem pieces_append {piece : List Char} (h : sep ∉ piece) :
    pieces sep (piece ++ sep :: rest) = piece :: pieces sep rest := by
  induction piece with
  | nil => simp [pieces]
  | cons c piece ih =>
    have hc : c ≠ sep := fun heq => h (heq ▸ List.mem_cons_self)
    have htail := ih fun hmem => h (List.mem_cons_of_mem c hmem)
    rw [List.cons_append, pieces, if_neg hc, htail]

theorem pieces_single {piece : List Char} (h : sep ∉ piece) (hne : piece ≠ []) :
    pieces sep piece = [piece] := by
  induction piece with
  | nil => exact absurd rfl hne
  | cons c piece ih =>
    have hc : c ≠ sep := fun heq => h (heq ▸ List.mem_cons_self)
    rw [pieces, if_neg hc]
    cases piece with
    | nil => rfl
    | cons d piece =>
      rw [ih (fun hmem => h (List.mem_cons_of_mem c hmem)) (List.cons_ne_nil d piece)]

theorem pieces_joined {pieces' : List (List Char)} (h : ∀ piece ∈ pieces', sep ∉ piece ∧ piece ≠ [])
    : pieces sep (joined sep pieces') = pieces' := by
  induction pieces' with
  | nil => rfl
  | cons piece rest ih =>
    obtain ⟨hsep, hne⟩ := h piece List.mem_cons_self
    cases rest with
    | nil => exact pieces_single hsep hne
    | cons next rest =>
      show pieces sep (piece ++ sep :: joined sep (next :: rest)) = _
      rw [pieces_append hsep, ih fun p hp => h p (List.mem_cons_of_mem piece hp)]

end Text
end Mowgli
