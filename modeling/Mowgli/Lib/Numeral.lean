import Mathlib.Algebra.Order.Archimedean.Basic
import Mathlib.Data.Int.Log
import Mathlib.Tactic.Positivity
import Mowgli.Lib.Text

/-!
# Numeral — numbers with a point and an exponent

What `operator<<` writes of a floating-point number, under `std::fixed` and without, and what
`strtod` reads: decimal and hexadecimal numerals, infinities and NaNs.

A numeral that was written is read back as the number it was rounded to, which lies within half
a unit of the last digit written.
-/

namespace Mowgli
namespace Text

/-! ## Writing -/

/-- The last digits of a number, zeros first. -/
def padded : Nat → Nat → List Char
  | 0, _ => []
  | k + 1, n => padded k (n / 10) ++ [Nat.digitChar (n % 10)]

/-- Without the zeros at the end. -/
def stripped : List Char → List Char
  | [] => []
  | c :: s =>
    match stripped s with
    | [] => if c = '0' then [] else [c]
    | d :: t => c :: d :: t

/-- To nearest, ties to even. -/
def roundEven (q : ℚ) : Nat :=
  let n := ⌊q⌋₊
  if q - n < 1 / 2 then n else if 1 / 2 < q - n then n + 1 else n + n % 2

/-- There is no point when nothing follows it. -/
def pointed (whole : Nat) (places : List Char) : List Char :=
  decimal whole ++ if places.isEmpty then [] else '.' :: places

/-- `%f` of a number that is not negative. -/
def fixed (places : Nat) (q : ℚ) : List Char :=
  let n := roundEven (q * 10 ^ places)
  pointed (n / 10 ^ places) (padded places n)

/-- The significant digits of a number as one integer, and the exponent of the last. -/
def significant (digits : Nat) (q : ℚ) : Nat × Int :=
  let e := Int.log 10 q - digits
  let m := roundEven (q / 10 ^ e)
  if m = 10 ^ (digits + 1) then (10 ^ digits, e + 1) else (m, e)

/-- At least two digits of an exponent. -/
def exponentText (x : Int) : List Char :=
  'e' :: (if x < 0 then '-' else '+') ::
    ((if x.natAbs < 10 then ['0'] else []) ++ decimal x.natAbs)

/-- `%g` of a number that is not negative, with one digit and `digits` more. -/
def general (digits : Nat) (q : ℚ) : List Char :=
  if q = 0 then ['0']
  else
    let m := (significant digits q).1
    let e := (significant digits q).2
    if -4 ≤ e + digits ∧ e ≤ 0 then
      let places := e.natAbs
      pointed (m / 10 ^ places) (stripped (padded places m))
    else
      pointed (m / 10 ^ digits) (stripped (padded digits m)) ++ exponentText (e + digits)

/-! ## Reading -/

inductive Numeral where
  | nan (negative : Bool)
  | infinity (negative : Bool)
  | number (negative : Bool) (magnitude : ℚ)
deriving DecidableEq

def digitValue (base : Nat) (c : Char) : Option Nat :=
  let v :=
    if c.isDigit then c.toNat - '0'.toNat
    else if 'a' ≤ c ∧ c ≤ 'f' then c.toNat - 'a'.toNat + 10
    else if 'A' ≤ c ∧ c ≤ 'F' then c.toNat - 'A'.toNat + 10
    else base
  if v < base then some v else none

/-- The digits in front, onto a number of so many digits. -/
def scan (base : Nat) : Nat → Nat → List Char → Nat × Nat × List Char
  | n, count, [] => (n, count, [])
  | n, count, c :: s =>
    match digitValue base c with
    | some v => scan base (base * n + v) (count + 1) s
    | none => (n, count, c :: s)

/-- Digits with a point among them or not. -/
def mantissa (base : Nat) (s : List Char) : Option (ℚ × List Char) :=
  let whole := scan base 0 0 s
  let all :=
    match whole.2.2 with
    | '.' :: rest => scan base whole.1 0 rest
    | rest => (whole.1, 0, rest)
  if whole.2.1 + all.2.1 = 0 then none else some (all.1 / base ^ all.2.1, all.2.2)

def signedDigits : List Char → Int
  | '-' :: s => -((scan 10 0 0 s).1 : Int)
  | '+' :: s => (scan 10 0 0 s).1
  | s => (scan 10 0 0 s).1

/-- A marker that no digit follows is no exponent, and then it is read as `0`. -/
def exponentAfter (marker : Char) : List Char → Int
  | [] => 0
  | c :: s => if c.toLower = marker then signedDigits s else 0

def startsWith (word s : List Char) : Bool := word.isPrefixOf (s.map Char.toLower)

/-- What follows `0x`. -/
def afterHex : List Char → Option (List Char)
  | '0' :: 'x' :: s => some s
  | '0' :: 'X' :: s => some s
  | _ => none

def magnitudeOf (negative : Bool) (s : List Char) : Option Numeral :=
  if startsWith ['i', 'n', 'f'] s then some (.infinity negative)
  else if startsWith ['n', 'a', 'n'] s then some (.nan negative)
  else
    match (afterHex s).bind (mantissa 16) with
    | some r => some (.number negative (r.1 * 2 ^ exponentAfter 'p' r.2))
    | none =>
      (mantissa 10 s).map fun r => .number negative (r.1 * 10 ^ exponentAfter 'e' r.2)

def strtod (s : List Char) : Option Numeral :=
  match skipSpace s with
  | '-' :: rest => magnitudeOf true rest
  | '+' :: rest => magnitudeOf false rest
  | rest => magnitudeOf false rest

/-! ## Digits -/

theorem digitChar_isDigit {n : Nat} (h : n < 10) : (Nat.digitChar n).isDigit = true := by
  rw [Nat.isDigit_digitChar]
  exact decide_eq_true h

theorem padded_isDigit (k n : Nat) : ∀ c ∈ padded k n, c.isDigit = true := by
  induction k generalizing n with
  | zero =>
    intro c hc
    cases hc
  | succ k ih =>
    intro c hc
    rcases List.mem_append.1 hc with hc | hc
    · exact ih (n / 10) c hc
    · rw [List.mem_singleton.1 hc]
      exact digitChar_isDigit (Nat.mod_lt n (by decide))

theorem length_padded (k n : Nat) : (padded k n).length = k := by
  induction k generalizing n with
  | zero => rfl
  | succ k ih =>
    rw [padded, List.length_append, ih]
    rfl

theorem ofDigitChars_padded (k n i : Nat) :
    Nat.ofDigitChars 10 (padded k n) i = i * 10 ^ k + n % 10 ^ k := by
  induction k generalizing n with
  | zero => simp [padded, Nat.mod_one]
  | succ k ih =>
    rw [padded, Nat.ofDigitChars_append, ih,
      Nat.ofDigitChars_cons_digitChar_of_lt_ten (Nat.mod_lt n (by decide)), Nat.ofDigitChars_nil]
    have hmod : n % 10 ^ (k + 1) = 10 * (n / 10 % 10 ^ k) + n % 10 := by
      rw [pow_succ', Nat.mod_mul]
      ring
    rw [hmod]
    ring

theorem stripped_zeros (s : List Char) : ∃ m, s = stripped s ++ List.replicate m '0' := by
  induction s with
  | nil => exact ⟨0, rfl⟩
  | cons c s ih =>
    obtain ⟨m, hm⟩ := ih
    unfold stripped
    cases hs : stripped s with
    | nil =>
      rw [hs, List.nil_append] at hm
      by_cases hc : c = '0'
      · refine ⟨m + 1, ?_⟩
        simp only [if_pos hc, List.nil_append, List.replicate_succ]
        rw [hc, hm]
      · refine ⟨m, ?_⟩
        simp only [if_neg hc, List.singleton_append]
        rw [hm]
    | cons d t =>
      refine ⟨m, ?_⟩
      rw [hs] at hm
      simp only [List.cons_append]
      rw [← List.cons_append, ← hm]

variable {s : List Char}

theorem stripped_isDigit (h : ∀ c ∈ s, c.isDigit = true) : ∀ c ∈ stripped s, c.isDigit = true := by
  obtain ⟨m, hm⟩ := stripped_zeros s
  intro c hc
  apply h
  rw [hm]
  exact List.mem_append_left _ hc

/-- Zeros at the end of the places change no number. -/
theorem stripped_value (i : Nat) (s : List Char) :
    (Nat.ofDigitChars 10 (stripped s) i : ℚ) / 10 ^ (stripped s).length =
      Nat.ofDigitChars 10 s i / 10 ^ s.length := by
  obtain ⟨m, hm⟩ := stripped_zeros s
  conv_rhs => rw [hm]
  rw [Nat.ofDigitChars_append, Nat.ofDigitChars_replicate_zero, List.length_append,
    List.length_replicate, pow_add]
  push_cast
  field_simp

variable {c : Char} {rest ds : List Char}

theorem digitValue_isDigit (h : c.isDigit = true) :
    digitValue 10 c = some (c.toNat - '0'.toNat) := by
  have hlt : c.toNat - '0'.toNat < 10 := by
    simp only [Char.isDigit, Bool.and_eq_true, decide_eq_true_eq] at h
    have hle : c.val.toNat ≤ 57 := UInt32.le_iff_toNat_le.1 h.2
    show c.val.toNat - 48 < 10
    omega
  unfold digitValue
  rw [if_pos h, if_pos hlt]

/-- A character no decimal digit is read from. -/
theorem digitValue_none (h : c.isDigit = false) : digitValue 10 c = none := by
  unfold digitValue
  simp only [h, Bool.false_eq_true, if_false]
  split_ifs with h₁ h₂ h₃ h₄ h₅ <;> first | rfl | (exfalso; omega)

theorem scan_digits (hds : ∀ c ∈ ds, c.isDigit = true) (h : Ends rest) (n count : Nat) :
    scan 10 n count (ds ++ rest) = (Nat.ofDigitChars 10 ds n, count + ds.length, rest) := by
  induction ds generalizing n count with
  | nil =>
    cases rest with
    | nil => rfl
    | cons c rest =>
      show scan 10 n count (c :: rest) = _
      rw [scan, digitValue_none (h c rfl)]
      rfl
  | cons d ds ih =>
    rw [List.cons_append, scan, digitValue_isDigit (hds d List.mem_cons_self)]
    show scan 10 _ _ (ds ++ rest) = _
    rw [ih fun c hc => hds c (List.mem_cons_of_mem d hc), Nat.ofDigitChars_cons,
      List.length_cons]
    congr 2
    omega

theorem decimal_isDigit (n : Nat) : ∀ c ∈ decimal n, c.isDigit = true :=
  fun _ => isDigit_of_mem_decimal

theorem scan_decimal (n : Nat) (h : Ends rest) :
    scan 10 0 0 (decimal n ++ rest) = (n, (decimal n).length, rest) := by
  rw [scan_digits (decimal_isDigit n) h, decimal, Nat.ofDigitChars_ten_toDigits, Nat.zero_add]

/-- Nothing more of a mantissa follows. -/
def Past (rest : List Char) : Prop := ∀ c, rest.head? = some c → c.isDigit = false ∧ c ≠ '.'

theorem ends_nil : Ends [] := fun _ hc => nomatch hc

theorem past_nil : Past [] := fun _ hc => nomatch hc

theorem mantissa_pointed (i : Nat) (hds : ∀ c ∈ ds, c.isDigit = true) (h : Past rest) :
    mantissa 10 (pointed i ds ++ rest) =
      some ((Nat.ofDigitChars 10 ds i : ℚ) / 10 ^ ds.length, rest) := by
  have hsome : (decimal i).length ≠ 0 := by
    simpa using decimal_ne_nil i
  have hends : Ends rest := fun c hc => (h c hc).1
  unfold pointed
  cases ds with
  | nil =>
    simp only [List.isEmpty_nil, if_true, List.append_nil]
    unfold mantissa
    dsimp only
    rw [scan_decimal i hends]
    cases rest with
    | nil => simp [hsome]
    | cons c rest =>
      have hc := (h c rfl).2
      simp [hsome, hc]
  | cons d ds =>
    simp only [List.isEmpty_cons, Bool.false_eq_true, if_false, List.append_assoc,
      List.cons_append]
    unfold mantissa
    dsimp only
    rw [scan_decimal i (fun c hc => by cases hc; decide)]
    have hplaces := scan_digits hds hends i 0
    rw [List.cons_append] at hplaces
    simp [hplaces]

/-- The places of a number that was split at its point. -/
theorem split_value (k n : Nat) :
    (Nat.ofDigitChars 10 (padded k n) (n / 10 ^ k) : ℚ) / 10 ^ (padded k n).length =
      n / 10 ^ k := by
  rw [ofDigitChars_padded, length_padded, Nat.div_add_mod']

theorem split_stripped (k n : Nat) :
    (Nat.ofDigitChars 10 (stripped (padded k n)) (n / 10 ^ k) : ℚ) /
      10 ^ (stripped (padded k n)).length = n / 10 ^ k := by
  rw [stripped_value, split_value]

/-! ## Rounding -/

theorem roundEven_near {q : ℚ} (hq : 0 ≤ q) : |(roundEven q : ℚ) - q| ≤ 1 / 2 := by
  have hle : (⌊q⌋₊ : ℚ) ≤ q := Nat.floor_le hq
  have hlt : q < ⌊q⌋₊ + 1 := Nat.lt_floor_add_one q
  unfold roundEven
  dsimp only
  split_ifs with hlow hhigh
  · rw [abs_le]
    constructor <;> linarith
  · rw [abs_le]
    push_cast
    constructor <;> linarith
  · have hhalf : q - ⌊q⌋₊ = 1 / 2 := le_antisymm (not_lt.1 hhigh) (not_lt.1 hlow)
    rw [abs_le]
    rcases Nat.mod_two_eq_zero_or_one ⌊q⌋₊ with h | h
    · rw [h]
      push_cast
      constructor <;> linarith
    · rw [h]
      push_cast
      constructor <;> linarith

def fixedValue (places : Nat) (q : ℚ) : ℚ := roundEven (q * 10 ^ places) / 10 ^ places

def generalValue (digits : Nat) (q : ℚ) : ℚ :=
  if q = 0 then 0 else (significant digits q).1 * 10 ^ (significant digits q).2

theorem fixedValue_near (places : Nat) {q : ℚ} (hq : 0 ≤ q) :
    |fixedValue places q - q| ≤ 1 / 2 / 10 ^ places := by
  have hpos : (0 : ℚ) < 10 ^ places := by positivity
  have hnear := roundEven_near (mul_nonneg hq hpos.le)
  have hsplit : fixedValue places q - q =
      ((roundEven (q * 10 ^ places) : ℚ) - q * 10 ^ places) / 10 ^ places := by
    unfold fixedValue
    field_simp
  rw [hsplit, abs_div, abs_of_pos hpos]
  exact div_le_div_of_nonneg_right hnear hpos.le

theorem significant_value (digits : Nat) (q : ℚ) :
    ((significant digits q).1 : ℚ) * 10 ^ (significant digits q).2 =
      roundEven (q / 10 ^ (Int.log 10 q - digits)) * 10 ^ (Int.log 10 q - digits) := by
  unfold significant
  dsimp only
  split_ifs with hcarry
  · rw [hcarry, zpow_add₀ (by norm_num)]
    push_cast
    ring
  · rfl

theorem generalValue_near (digits : Nat) {q : ℚ} (hq : 0 ≤ q) :
    |generalValue digits q - q| ≤ q / 2 / 10 ^ digits := by
  unfold generalValue
  split_ifs with hzero
  · rw [hzero]
    simp
  · have hpos : 0 < q := lt_of_le_of_ne hq (Ne.symm hzero)
    rw [significant_value]
    have hlog : (10 : ℚ) ^ Int.log 10 q ≤ q := Int.zpow_log_le_self (by decide) hpos
    have hunit : (10 : ℚ) ^ (Int.log 10 q - digits) = 10 ^ Int.log 10 q / 10 ^ digits := by
      rw [zpow_sub₀ (by norm_num), zpow_natCast]
    generalize Int.log 10 q - digits = e at hunit
    have he : (0 : ℚ) < 10 ^ e := zpow_pos (by norm_num) e
    have hnear := roundEven_near (div_nonneg hq he.le)
    have hsplit : (roundEven (q / 10 ^ e) : ℚ) * 10 ^ e - q =
        ((roundEven (q / 10 ^ e) : ℚ) - q / 10 ^ e) * 10 ^ e := by
      field_simp
    have hten : (0 : ℚ) < 10 ^ digits := by positivity
    calc |(roundEven (q / 10 ^ e) : ℚ) * 10 ^ e - q|
        = |(roundEven (q / 10 ^ e) : ℚ) - q / 10 ^ e| * 10 ^ e := by
          rw [hsplit, abs_mul, abs_of_pos he]
      _ ≤ 1 / 2 * 10 ^ e := mul_le_mul_of_nonneg_right hnear he.le
      _ ≤ q / 2 / 10 ^ digits := by
          rw [hunit, ← mul_div_assoc]
          apply div_le_div_of_nonneg_right _ hten.le
          linarith

/-! ## What is written is read back -/

/-- What numerals are made of. -/
def isNumeralChar (c : Char) : Bool :=
  c.isDigit || c == '.' || c == 'e' || c == '+' || c == '-'

/-- A numeral without its sign. -/
structure Unsigned (s : List Char) : Prop where
  head : ∃ c rest, s = c :: rest ∧ c.isDigit = true
  chars : ∀ c ∈ s, isNumeralChar c = true

theorem isNumeralChar_digit (h : c.isDigit = true) : isNumeralChar c = true := by
  unfold isNumeralChar
  rw [h]
  rfl

theorem pointed_unsigned (i : Nat) (hds : ∀ c ∈ ds, c.isDigit = true) :
    Unsigned (pointed i ds) := by
  obtain ⟨c, rest, hd, hc⟩ := decimal_cons i
  refine ⟨⟨c, _, by unfold pointed; rw [hd, List.cons_append], hc⟩, ?_⟩
  intro c hc
  rcases List.mem_append.1 hc with hc | hc
  · exact isNumeralChar_digit (isDigit_of_mem_decimal hc)
  · split at hc
    · cases hc
    · rcases List.mem_cons.1 hc with rfl | hc
      · rfl
      · exact isNumeralChar_digit (hds c hc)

theorem exponentText_chars (x : Int) : ∀ c ∈ exponentText x, isNumeralChar c = true := by
  intro c hc
  unfold exponentText at hc
  rcases List.mem_cons.1 hc with rfl | hc
  · rfl
  rcases List.mem_cons.1 hc with rfl | hc
  · split <;> rfl
  rcases List.mem_append.1 hc with hc | hc
  · split at hc
    · rw [List.mem_singleton.1 hc]
      rfl
    · cases hc
  · exact isNumeralChar_digit (isDigit_of_mem_decimal hc)

theorem Unsigned.append {t : List Char} (h : Unsigned s) (ht : ∀ c ∈ t, isNumeralChar c = true) :
    Unsigned (s ++ t) := by
  obtain ⟨⟨c, rest, hs, hc⟩, hchars⟩ := h
  refine ⟨⟨c, rest ++ t, by rw [hs, List.cons_append], hc⟩, ?_⟩
  intro c hc
  rcases List.mem_append.1 hc with hc | hc
  · exact hchars c hc
  · exact ht c hc

theorem fixed_unsigned (places : Nat) (q : ℚ) : Unsigned (fixed places q) :=
  pointed_unsigned _ (padded_isDigit _ _)

theorem general_unsigned (digits : Nat) (q : ℚ) : Unsigned (general digits q) := by
  unfold general
  dsimp only
  split_ifs
  · refine ⟨⟨'0', [], rfl, rfl⟩, ?_⟩
    intro c hc
    rw [List.mem_singleton.1 hc]
    rfl
  · exact pointed_unsigned _ (stripped_isDigit (padded_isDigit _ _))
  · exact (pointed_unsigned _ (stripped_isDigit (padded_isDigit _ _))).append
      (exponentText_chars _)

theorem toLower_digit (h : c.isDigit = true) : c.toLower = c := by
  have hle : c.val.toNat ≤ 57 := by
    simp only [Char.isDigit, Bool.and_eq_true, decide_eq_true_eq] at h
    exact UInt32.le_iff_toNat_le.1 h.2
  unfold Char.toLower
  rw [dif_neg]
  rintro ⟨hA, -⟩
  have hA' : 65 ≤ c.val.toNat := UInt32.le_iff_toNat_le.1 hA
  omega

/-- Neither a word nor a hexadecimal numeral. -/
theorem Unsigned.magnitudeOf (h : Unsigned s) (negative : Bool) :
    magnitudeOf negative s =
      (mantissa 10 s).map fun r => .number negative (r.1 * 10 ^ exponentAfter 'e' r.2) := by
  obtain ⟨⟨c, rest, rfl, hc⟩, hchars⟩ := h
  have hword : ∀ w ws, w.isDigit = false → startsWith (w :: ws) (c :: rest) = false := by
    intro w ws hw
    have hne : w ≠ c := by
      rintro rfl
      rw [hc] at hw
      cases hw
    simp [startsWith, List.isPrefixOf, toLower_digit hc, hne]
  have hhex : afterHex (c :: rest) = none := by
    unfold afterHex
    split
    · rename_i heq
      cases heq
      cases hchars 'x' (List.mem_cons_of_mem _ List.mem_cons_self)
    · rename_i heq
      cases heq
      cases hchars 'X' (List.mem_cons_of_mem _ List.mem_cons_self)
    · rfl
  unfold Text.magnitudeOf
  rw [hword 'i' _ rfl, hword 'n' _ rfl, hhex]
  rfl

theorem Unsigned.strtod (h : Unsigned s) (negative : Bool) :
    strtod (if negative then '-' :: s else s) = Text.magnitudeOf negative s := by
  cases negative with
  | true => rfl
  | false =>
    obtain ⟨⟨c, rest, rfl, hc⟩, -⟩ := h
    unfold Text.strtod
    simp only [Bool.false_eq_true, if_false]
    rw [skipSpace_of_isDigit hc]
    split
    · rename_i heq
      cases heq
      cases hc
    · rename_i heq
      cases heq
      cases hc
    · rfl

theorem strtod_fixed (negative : Bool) (places : Nat) (q : ℚ) :
    strtod (if negative then '-' :: fixed places q else fixed places q) =
      some (.number negative (fixedValue places q)) := by
  rw [(fixed_unsigned places q).strtod, (fixed_unsigned places q).magnitudeOf]
  have hread := mantissa_pointed (roundEven (q * 10 ^ places) / 10 ^ places)
    (padded_isDigit places (roundEven (q * 10 ^ places))) past_nil
  rw [List.append_nil, split_value] at hread
  unfold fixed
  dsimp only
  rw [hread]
  simp [exponentAfter, fixedValue]

theorem exponentAfter_text (x : Int) : exponentAfter 'e' (exponentText x) = x := by
  have hdigits : ∀ c ∈ (if x.natAbs < 10 then ['0'] else []) ++ decimal x.natAbs,
      c.isDigit = true := by
    intro c hc
    rcases List.mem_append.1 hc with hc | hc
    · split at hc
      · rw [List.mem_singleton.1 hc]
        rfl
      · cases hc
    · exact isDigit_of_mem_decimal hc
  have hscan := scan_digits hdigits ends_nil 0 0
  have hvalue : Nat.ofDigitChars 10 ((if x.natAbs < 10 then ['0'] else []) ++ decimal x.natAbs) 0 =
      x.natAbs := by
    rw [Nat.ofDigitChars_append]
    split <;> simp [decimal, Nat.ofDigitChars_ten_toDigits, Nat.ofDigitChars_cons]
  rw [List.append_nil, hvalue] at hscan
  unfold exponentText
  show signedDigits _ = x
  split_ifs at hscan ⊢ with hneg hsmall hsmall <;> simp only [signedDigits, hscan] <;> omega

theorem past_exponent (x : Int) : Past (exponentText x) := by
  intro c hc
  cases hc
  decide

theorem strtod_general (negative : Bool) (digits : Nat) (q : ℚ) :
    strtod (if negative then '-' :: general digits q else general digits q) =
      some (.number negative (generalValue digits q)) := by
  rw [(general_unsigned digits q).strtod, (general_unsigned digits q).magnitudeOf]
  unfold general generalValue
  dsimp only
  generalize (significant digits q).1 = m
  generalize (significant digits q).2 = e
  split_ifs with hzero hplain
  · have hread := mantissa_pointed 0 (fun c (hc : c ∈ []) => by cases hc) past_nil
    rw [List.append_nil] at hread
    show (mantissa 10 (pointed 0 [])).map _ = _
    rw [hread]
    simp [exponentAfter]
  · have hread := mantissa_pointed (m / 10 ^ e.natAbs)
      (stripped_isDigit (padded_isDigit e.natAbs m)) past_nil
    rw [List.append_nil, split_stripped] at hread
    have hpow : (m : ℚ) / 10 ^ e.natAbs = m * 10 ^ e := by
      have he : e = -(e.natAbs : Int) := by omega
      rw [he, zpow_neg, zpow_natCast, Int.natAbs_neg, Int.natAbs_natCast, div_eq_mul_inv]
    rw [hread, hpow]
    simp [exponentAfter]
  · have hread := mantissa_pointed (m / 10 ^ digits)
      (stripped_isDigit (padded_isDigit digits m)) (past_exponent (e + digits))
    rw [split_stripped] at hread
    have hpow : (m : ℚ) / 10 ^ digits * 10 ^ (e + digits : Int) = m * 10 ^ e := by
      rw [zpow_add₀ (by norm_num), zpow_natCast]
      field_simp
    rw [hread]
    simp only [Option.map_some, exponentAfter_text, hpow]

end Text
end Mowgli
