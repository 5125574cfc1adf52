import Mowgli.Foxglove.Cdr

/-!
# CdrSafe — what hostile bytes can do

A fixed array of a negative or boundless size is made as it is declared. Nothing else faults: no
byte outside the buffer is read, and a dynamic array has no more elements than there were bytes
behind its length.
-/

namespace Mowgli
namespace Foxglove
namespace Cdr

open Program

/-- Read without a schema of its own. -/
def isScalar (t : Str) : Bool := isString t || isPrimitive t

theorem not_isScalar {t : Str} (hstring : ¬isString t = true) (hprimitive : primitiveOf t = none) :
    ¬isScalar t = true := by
  unfold isScalar isPrimitive
  rw [hprimitive]
  simp [hstring]

theorem isScalar_of_string {t : Str} (hstring : isString t = true) : isScalar t = true := by
  unfold isScalar
  rw [hstring]
  rfl

theorem isScalar_of_primitive {t : Str} {p : Primitive} (hprimitive : primitiveOf t = some p) :
    isScalar t = true := by
  unfold isScalar isPrimitive
  rw [hprimitive]
  simp

/-- The primitives of a schema have a type there is. -/
def Known : Fields → Prop
  | .nil => True
  | .cons f sub rest =>
    (f.kind = .primitive → (primitiveOf f.primitive).isSome) ∧ Known sub ∧ Known rest

/-- A fixed array that is read has a length that can be made; `fits` is what holds of the
nested fields. -/
def FieldFits (limit : Nat) (f : Field) (fits : Prop) : Prop :=
  match f.kind with
  | .primitive => True
  | .string => True
  | .message => fits
  | .fixedArray =>
    (0 ≤ f.arrayLen ∧ f.arrayLen ≤ limit) ∧
      (isScalar f.primitive = true ∨ f.arrayLen = 0 ∨ fits)
  | .dynArray => isScalar f.primitive = true ∨ fits

/-- Every fixed array that can be reached has a length that can be made. -/
def Fits (limit : Nat) : Fields → Prop
  | .nil => True
  | .cons f sub rest => FieldFits limit f (Fits limit sub) ∧ Fits limit rest

/-- No dynamic array was made longer than what was left behind its length. -/
def Bounded (made : List Made) : Prop := ∀ m ∈ made, m.count ≤ m.remaining

/-! ## Reading never leaves the buffer -/

section Reader

variable (b : Buffer)

theorem next_apply (n : Nat) (s : Cursor) :
    b.next n s =
      if b.data.length < s.offset + n then (.error .endOfData, s)
      else (.ok ((b.data.drop s.offset).take n), { s with offset := s.offset + n }) := by
  unfold Buffer.next Buffer.fetch
  split
  · rename_i h
    simp only [bind_apply, Program.bind, Program.get, if_pos h]
    rfl
  · rename_i h
    simp only [bind_apply, Program.bind, Program.get, if_neg h]
    rfl

theorem ofLittle_lt (bytes : List UInt8) : Endian.ofLittle bytes < 256 ^ bytes.length := by
  induction bytes with
  | nil => exact Nat.one_pos
  | cons byte bytes ih =>
    have hbyte := byte.toNat_lt
    rw [List.length_cons, Nat.pow_succ]
    show byte.toNat + 256 * Endian.ofLittle bytes < 256 ^ bytes.length * 256
    omega

theorem number_lt (bytes : List UInt8) : b.number bytes < 256 ^ bytes.length := by
  unfold Buffer.number Endian.ofBig
  split
  · exact ofLittle_lt bytes
  · have h := ofLittle_lt bytes.reverse
    rwa [List.length_reverse] at h

/-- What the state of a reader keeps. -/
def Tidy (s : Cursor) : Prop := Bounded s.made

theorem align_safe (n : Nat) : Safe Tidy (b.align n) fun _ => True :=
  Safe.modify fun _ hs => hs

theorem next_safe (n : Nat) : Safe Tidy (b.next n) fun bytes => bytes.length ≤ n := by
  intro s hs
  rw [next_apply]
  split
  · exact ⟨trivial, hs⟩
  · refine ⟨?_, hs⟩
    show ((b.data.drop s.offset).take n).length ≤ n
    rw [List.length_take]
    exact Nat.min_le_left _ _

theorem readUint32_safe : Safe Tidy b.readUint32 fun n => n ≤ 4294967295 := by
  refine (next_safe b 4).bind fun bytes hlength => Safe.pure ?_
  have hlt := number_lt b bytes
  have hpow : 256 ^ bytes.length ≤ 256 ^ 4 := Nat.pow_le_pow_right (by decide) hlength
  omega

theorem readElement_safe (p : Primitive) : Safe Tidy (b.readElement p) fun _ => True :=
  (next_safe b (primitiveSize p)).bind fun _ _ => Safe.pure trivial

theorem readPrimitive_safe (p : Primitive) : Safe Tidy (b.readPrimitive p) fun _ => True :=
  (align_safe b (primitiveSize p)).bind fun _ _ => readElement_safe b p

theorem readString_safe : Safe Tidy b.readString fun _ => True := by
  refine (align_safe b 4).bind fun _ _ => (readUint32_safe b).bind fun length _ => ?_
  split
  · exact Safe.pure trivial
  · intro s hs
    simp only [bind_apply, Program.bind, Program.get]
    split
    · exact ⟨trivial, hs⟩
    · rename_i hlength hfits
      -- the slice ends where the check looked, less the terminator
      have hfetch : ¬b.data.length < s.offset + (length - 1) := by omega
      unfold Buffer.fetch
      simp only [bind_apply, Program.bind, Program.get, if_neg hfetch]
      exact ⟨trivial, hs⟩

variable (limit : Nat)

theorem make_safe {count : Int} {behind : Option Nat} (hcount : 0 ≤ count)
    (hlimit : count ≤ limit) (hbehind : ∀ o, behind = some o → count ≤ (b.data.length : Int) - o) :
    Safe Tidy (b.make limit count behind) fun _ => True := by
  unfold Buffer.make
  rw [if_neg (by omega)]
  refine Safe.modify fun s hs => ?_
  intro m hm
  obtain hm | hm := List.mem_append.1 hm
  · exact hs m hm
  · cases behind with
    | none => exact nomatch hm
    | some o =>
      cases List.mem_singleton.1 hm
      exact hbehind o rfl

theorem readArray_safe {f : Field} {readSub : Read Value} {count : Int} {behind : Option Nat}
    (hcount : 0 ≤ count) (hlimit : count ≤ limit)
    (hbehind : ∀ o, behind = some o → count ≤ (b.data.length : Int) - o)
    (hsub : isScalar f.primitive = true ∨ count = 0 ∨ Safe Tidy readSub fun _ => True) :
    Safe Tidy (b.readArray limit f readSub count behind) fun _ => True := by
  have hmake := make_safe b limit hcount hlimit hbehind
  unfold Buffer.readArray
  split
  · exact hmake.bind fun _ _ =>
      (Safe.times (readString_safe b) count.toNat).bind fun _ _ => Safe.pure trivial
  · rename_i hstring
    split
    · rename_i p _
      exact (align_safe b (primitiveSize p)).bind fun _ _ => hmake.bind fun _ _ =>
        (Safe.times (readElement_safe b p) count.toNat).bind fun _ _ => Safe.pure trivial
    · rename_i hprimitive
      refine hmake.bind fun _ _ => ?_
      obtain hscalar | hzero | hsafe := hsub
      · exact absurd hscalar (not_isScalar hstring hprimitive)
      · rw [hzero]
        exact Safe.bind (Q := fun _ => True) (Safe.pure trivial) fun _ _ => Safe.pure trivial
      · exact (Safe.times hsafe count.toNat).bind fun _ _ => Safe.pure trivial

theorem readField_safe (hlimit : 4294967295 ≤ limit) {f : Field} {readSub : Read Value}
    {fits : Prop} (hf : FieldFits limit f fits)
    (hsub : fits → Safe Tidy readSub fun _ => True) :
    Safe Tidy (b.readField limit f readSub) fun _ => True := by
  unfold FieldFits at hf
  unfold Buffer.readField
  cases hkind : f.kind with
  | primitive =>
    dsimp only
    cases primitiveOf f.primitive with
    | none => exact Safe.fail _
    | some p => exact readPrimitive_safe b p
  | string => exact (readString_safe b).bind fun _ _ => Safe.pure trivial
  | message =>
    rw [hkind] at hf
    exact hsub hf
  | fixedArray =>
    rw [hkind] at hf
    obtain ⟨⟨hcount, hmade⟩, hread⟩ := hf
    exact readArray_safe b limit hcount hmade nofun
      (hread.imp_right fun h => h.imp_right hsub)
  | dynArray =>
    rw [hkind] at hf
    refine (align_safe b 4).bind fun _ _ => (readUint32_safe b).bind fun length hlength =>
      Safe.get.bind fun s _ => ?_
    split
    · exact Safe.fail _
    · rename_i hguard
      refine readArray_safe b limit (Int.natCast_nonneg length) (by omega) ?_
        (hf.imp_right fun h => Or.inr (hsub h))
      intro o ho
      cases ho
      exact Int.not_lt.1 hguard

theorem readMessage_safe (hlimit : 4294967295 ≤ limit) {fields : Fields}
    (hfits : Fits limit fields) (out : Object) :
    Safe Tidy (b.readMessage limit fields out) fun _ => True := by
  induction fields generalizing out with
  | nil => exact Safe.pure trivial
  | cons f sub rest ihsub ihrest =>
    obtain ⟨hfield, hrest⟩ := hfits
    have hread : Safe Tidy (b.readField limit f do
        let object ← b.readMessage limit sub []
        pure (.obj object)) fun _ => True :=
      readField_safe b limit hlimit hfield fun hsub =>
        (ihsub hsub []).bind fun _ _ => Safe.pure trivial
    exact (hread.wrap _).bind fun value _ => ihrest hrest (out.assign f.name value)

end Reader

/-! ## Data that reaches every field

In little endian, `01 00 00 00` over and over is a one wherever a length is read: every string
is empty and every dynamic array has one element.
-/

def onesData (K : Nat) : List UInt8 := [0, 1, 0, 0] ++ (List.replicate K [1, 0, 0, 0]).flatten

def ones (K : Nat) : Buffer := Buffer.ofData (onesData K)

@[simp] theorem ones_data (K : Nat) : (ones K).data = onesData K := rfl
@[simp] theorem ones_maxAlign (K : Nat) : (ones K).maxAlign = 8 := rfl
@[simp] theorem ones_le (K : Nat) : (ones K).le = true := by
  simp [ones, onesData, Buffer.ofData]

@[simp] theorem onesData_length (K : Nat) : (onesData K).length = 4 + 4 * K := by
  simp [onesData]
  omega

theorem onesData_drop {K j : Nat} (h : j ≤ K) :
    (onesData K).drop (4 + 4 * j) = (List.replicate (K - j) [1, 0, 0, 0]).flatten := by
  unfold onesData
  rw [List.drop_append, List.drop_of_length_le (by simp), List.nil_append]
  induction j generalizing K with
  | zero => rfl
  | succ j ih =>
    cases K with
    | zero => exact absurd h (Nat.not_succ_le_zero j)
    | succ K =>
      have hstep := ih (Nat.le_of_succ_le_succ h)
      rw [Nat.succ_sub_succ, ← hstep]
      simp [List.replicate_succ, Nat.mul_succ]

theorem readUint32_ones {K : Nat} {s : Cursor} (h4 : 4 ≤ s.offset)
    (haligned : (s.offset - 4) % 4 = 0) (hroom : s.offset + 4 ≤ 4 + 4 * K) :
    (ones K).readUint32 s = (.ok 1, { s with offset := s.offset + 4 }) := by
  obtain ⟨j, hj⟩ := Nat.dvd_of_mod_eq_zero haligned
  have hoffset : s.offset = 4 + 4 * j := by omega
  have hbytes : ((onesData K).drop s.offset).take 4 = [1, 0, 0, 0] := by
    rw [hoffset, onesData_drop (by omega)]
    obtain ⟨n, hn⟩ := Nat.exists_eq_add_one_of_ne_zero (n := K - j) (by omega)
    rw [hn, List.replicate_succ]
    rfl
  have hnext : (ones K).next 4 s = (.ok [1, 0, 0, 0], { s with offset := s.offset + 4 }) := by
    rw [next_apply, if_neg (by simp only [ones_data, onesData_length]; omega), ones_data, hbytes]
  unfold Buffer.readUint32
  rw [bind_of_ok hnext]
  unfold Buffer.number
  rw [ones_le, if_pos rfl]
  rfl

/-- With `n` bytes to go, it returns and takes no more than these. -/
def Passes {α : Type} (m : Buffer → Read α) (n : Nat) : Prop :=
  ∀ K s, 4 ≤ s.offset → s.offset + n ≤ 4 + 4 * K →
    ∃ a t, m (ones K) s = (.ok a, t) ∧ s.offset ≤ t.offset ∧ t.offset ≤ s.offset + n

/-- With `n` bytes to go, it faults. -/
def Breaks {α : Type} (m : Buffer → Read α) (n : Nat) : Prop :=
  ∀ K s, 4 ≤ s.offset → s.offset + n ≤ 4 + 4 * K → (m (ones K) s).1 = .fault

section Ones

variable {α β : Type} {m : Buffer → Read α} {n : Nat}

variable {n' : Nat}

theorem Passes.mono (hm : Passes m n) (h : n ≤ n') : Passes m n' := by
  intro K s h4 hroom
  obtain ⟨a, t, hrun, hle, hge⟩ := hm K s h4 (by omega)
  exact ⟨a, t, hrun, hle, by omega⟩

theorem Breaks.mono (hm : Breaks m n) (h : n ≤ n') :
    Breaks m n' := fun K s h4 hroom => hm K s h4 (by omega)

theorem Passes.pure (a : Buffer → α) : Passes (fun b => pure (a b)) 0 := fun K s _ _ =>
  ⟨a (ones K), s, rfl, Nat.le_refl _, Nat.le_refl _⟩

theorem Passes.bind {f : α → Buffer → Read β} (hm : Passes m n) (hf : ∀ a, Passes (f a) n') :
    Passes (fun b => m b >>= fun a => f a b) (n + n') := by
  intro K s h4 hroom
  obtain ⟨a, t, hrun, hle, hge⟩ := hm K s h4 (by omega)
  obtain ⟨c, u, hrun', hle', hge'⟩ := hf a K t (by omega) (by omega)
  exact ⟨c, u, (bind_of_ok hrun _).trans hrun', by omega, by omega⟩

theorem Passes.bind_breaks {f : α → Buffer → Read β} (hm : Passes m n) (hf : ∀ a, Breaks (f a) n') :
    Breaks (fun b => m b >>= fun a => f a b) (n + n') := by
  intro K s h4 hroom
  obtain ⟨a, t, hrun, hle, hge⟩ := hm K s h4 (by omega)
  show ((m (ones K) >>= fun a => f a (ones K)) s).1 = .fault
  rw [bind_of_ok hrun]
  exact hf a K t (by omega) (by omega)

theorem Breaks.bind (hm : Breaks m n) (f : α → Buffer → Read β) :
    Breaks (fun b => m b >>= fun a => f a b) n :=
  fun K s h4 hroom => bind_of_fault (hm K s h4 hroom) _

theorem Passes.wrap (hm : Passes m n) (f : CdrError → CdrError) :
    Passes (fun b => (m b).wrap f) n := by
  intro K s h4 hroom
  obtain ⟨a, t, hrun, hle, hge⟩ := hm K s h4 hroom
  exact ⟨a, t, wrap_of_ok hrun f, hle, hge⟩

theorem Breaks.wrap (hm : Breaks m n) (f : CdrError → CdrError) :
    Breaks (fun b => (m b).wrap f) n :=
  fun K s h4 hroom => wrap_of_fault (hm K s h4 hroom) f

theorem Passes.times (hm : Passes m n) (count : Nat) :
    Passes (fun b => (m b).times count) (count * n) := by
  induction count with
  | zero => exact (Passes.pure fun _ => []).mono (Nat.zero_le _)
  | succ count ih =>
    refine Passes.mono (hm.bind fun a => ih.bind fun rest => Passes.pure fun _ => a :: rest) ?_
    rw [Nat.succ_mul]
    omega

theorem Breaks.times (hm : Breaks m n) {count : Nat} (hcount : 0 < count) :
    Breaks (fun b => (m b).times count) n := by
  cases count with
  | zero => exact absurd hcount (Nat.lt_irrefl 0)
  | succ count => exact hm.bind _

end Ones

theorem aligned_bounds (maxAlign n offset : Nat) :
    offset ≤ aligned maxAlign n offset ∧ aligned maxAlign n offset ≤ offset + n := by
  unfold aligned
  split
  · exact ⟨Nat.le_refl _, Nat.le_add_right _ _⟩
  · dsimp only
    have hcap : (if maxAlign < n then maxAlign else n) ≤ n := by
      split
      · omega
      · exact Nat.le_refl n
    generalize (if maxAlign < n then maxAlign else n) = step at hcap
    split
    · omega
    · omega

theorem aligned_four {offset : Nat} (h4 : 4 ≤ offset) : (aligned 8 4 offset - 4) % 4 = 0 := by
  show ((if (offset - 4) % 4 ≠ 0 then offset + (4 - (offset - 4) % 4) else offset) - 4) % 4 = 0
  split
  · omega
  · omega

theorem align_passes (n : Nat) : Passes (fun b => b.align n) n := fun _ s _ _ =>
  ⟨(), { s with offset := aligned _ n s.offset }, rfl, (aligned_bounds _ n s.offset).1,
    (aligned_bounds _ n s.offset).2⟩

theorem next_passes (n : Nat) : Passes (fun b => b.next n) n := by
  intro K s h4 hroom
  dsimp only
  rw [next_apply, if_neg (by simp only [ones_data, onesData_length]; omega)]
  exact ⟨_, _, rfl, Nat.le_add_right _ _, Nat.le_refl _⟩

theorem primitiveSize_le (p : Primitive) : primitiveSize p ≤ 8 := by
  cases p <;> decide

theorem readElement_passes (p : Primitive) : Passes (fun b => b.readElement p) 8 :=
  ((next_passes (primitiveSize p)).bind fun bytes => Passes.pure fun b =>
    primitiveValue p (b.number bytes)).mono (primitiveSize_le p)

theorem readPrimitive_passes (p : Primitive) : Passes (fun b => b.readPrimitive p) 16 :=
  ((align_passes (primitiveSize p)).bind fun _ => readElement_passes p).mono
    (Nat.add_le_add_right (primitiveSize_le p) 8)

theorem readString_passes : Passes (fun b => b.readString) 12 := by
  intro K s h4 hroom
  have hbounds := aligned_bounds 8 4 s.offset
  have hone := readUint32_ones (K := K) (s := { s with offset := aligned 8 4 s.offset })
    (Nat.le_trans h4 hbounds.1) (aligned_four h4) (by dsimp only; omega)
  dsimp only
  unfold Buffer.readString
  rw [bind_of_ok (show (ones K).align 4 s =
    (.ok (), { s with offset := aligned 8 4 s.offset }) from rfl), bind_of_ok hone]
  rw [if_neg Nat.one_ne_zero]
  simp only [bind_apply, Program.bind, Program.get]
  rw [if_neg (by simp only [ones_data, onesData_length]; omega)]
  unfold Buffer.fetch
  simp only [bind_apply, Program.bind, Program.get]
  rw [if_neg (by simp only [ones_data, onesData_length]; omega)]
  refine ⟨_, _, rfl, ?_, ?_⟩
  · dsimp only
    omega
  · dsimp only
    omega

section Walk

variable (limit : Nat)

theorem make_passes {count : Int} {behind : Buffer → Option Nat} (h : 0 ≤ count ∧ count ≤ limit) :
    Passes (fun b => b.make limit count (behind b)) 0 := by
  intro K s _ _
  have hmake : (ones K).make limit count (behind (ones K)) = Program.modify _ :=
    if_neg (by omega)
  dsimp only
  rw [hmake]
  exact ⟨(), _, rfl, Nat.le_refl _, Nat.le_refl _⟩

theorem make_breaks {count : Int} {behind : Buffer → Option Nat}
    (h : ¬(0 ≤ count ∧ count ≤ limit)) :
    Breaks (fun b => b.make limit count (behind b)) 0 := by
  intro K s _ _
  have hmake : (ones K).make limit count (behind (ones K)) = Program.crash :=
    if_pos (by omega)
  dsimp only
  rw [hmake]
  rfl

/-- An array is read when its length can be made and its elements, if there are any, can be
read. -/
theorem readArray_walk (f : Field) (readSub : Buffer → Read Value) (count : Int)
    (behind : Buffer → Option Nat) {fits : Prop} {n : Nat}
    (hpasses : fits → Passes readSub n) (hbreaks : ¬fits → Breaks readSub n) :
    ((0 ≤ count ∧ count ≤ limit) ∧ (isScalar f.primitive = true ∨ count = 0 ∨ fits) →
        Passes (fun b => b.readArray limit f (readSub b) count (behind b))
          (8 + count.toNat * (12 + n))) ∧
      (¬((0 ≤ count ∧ count ≤ limit) ∧ (isScalar f.primitive = true ∨ count = 0 ∨ fits)) →
        Breaks (fun b => b.readArray limit f (readSub b) count (behind b))
          (8 + count.toNat * (12 + n))) := by
  unfold Buffer.readArray
  by_cases hstring : isString f.primitive = true
  · simp only [if_pos hstring]
    constructor
    · rintro ⟨hcount, _⟩
      refine Passes.mono ((make_passes limit hcount).bind fun _ =>
        (readString_passes.times count.toNat).bind fun elements =>
          Passes.pure fun _ => Value.arr (elements.map .str)) ?_
      rw [Nat.mul_add]
      omega
    · intro hcount
      have hbad : ¬(0 ≤ count ∧ count ≤ limit) := fun h =>
        hcount ⟨h, Or.inl (isScalar_of_string hstring)⟩
      exact ((make_breaks limit hbad).bind _).mono (Nat.zero_le _)
  · simp only [if_neg hstring]
    cases hprimitive : primitiveOf f.primitive with
    | some p =>
      have hscalar := isScalar_of_primitive hprimitive
      unfold Buffer.readPrimitiveArray
      constructor
      · rintro ⟨hcount, _⟩
        refine Passes.mono ((align_passes (primitiveSize p)).bind fun _ =>
          (make_passes limit hcount).bind fun _ =>
            ((readElement_passes p).times count.toNat).bind fun elements =>
              Passes.pure fun _ => Value.arr elements) ?_
        have hsize := primitiveSize_le p
        have hmul := Nat.mul_le_mul_left count.toNat (show 8 ≤ 12 + n by omega)
        omega
      · intro hcount
        have hbad : ¬(0 ≤ count ∧ count ≤ limit) := fun h => hcount ⟨h, Or.inl hscalar⟩
        exact ((align_passes (primitiveSize p)).bind_breaks fun _ =>
          (make_breaks limit hbad).bind _).mono
            (Nat.le_trans (primitiveSize_le p) (Nat.le_add_right _ _))
    | none =>
      have hscalar := not_isScalar hstring hprimitive
      have hroom := Nat.mul_le_mul_left count.toNat (Nat.le_add_left n 12)
      constructor
      · rintro ⟨hcount, hread⟩
        have helements : Passes (fun b => (readSub b).times count.toNat) (count.toNat * n) := by
          obtain hread | hzero | hfits := hread
          · exact absurd hread hscalar
          · rw [hzero]
            exact (Passes.pure fun _ => []).mono (Nat.zero_le _)
          · exact (hpasses hfits).times count.toNat
        exact Passes.mono ((make_passes limit hcount).bind fun _ => helements.bind fun elements =>
          Passes.pure fun _ => Value.arr elements) (by omega)
      · intro hcount
        by_cases hmade : 0 ≤ count ∧ count ≤ limit
        · have hpos : 0 < count.toNat := by
            by_contra hzero
            exact hcount ⟨hmade, Or.inr (Or.inl (by omega))⟩
          have hunfit : ¬fits := fun h => hcount ⟨hmade, Or.inr (Or.inr h)⟩
          have hone := Nat.mul_le_mul_right n hpos
          exact Breaks.mono ((make_passes limit hmade).bind_breaks fun _ =>
            ((hbreaks hunfit).times hpos).bind _) (by omega)
        · exact ((make_breaks limit hmade).bind _).mono (Nat.zero_le _)

/-- The length of a dynamic array is one. -/
theorem dynArray_ones (f : Field) (readSub : Buffer → Read Value) {K : Nat} {s : Cursor}
    (hkind : f.kind = .dynArray) (h4 : 4 ≤ s.offset) (hroom : s.offset + 9 ≤ 4 + 4 * K) :
    (ones K).readField limit f (readSub (ones K)) s =
      (ones K).readArray limit f (readSub (ones K)) 1 (some (aligned 8 4 s.offset + 4))
        { s with offset := aligned 8 4 s.offset + 4 } := by
  have hbounds := aligned_bounds 8 4 s.offset
  have hone := readUint32_ones (K := K) (s := { s with offset := aligned 8 4 s.offset })
    (Nat.le_trans h4 hbounds.1) (aligned_four h4) (by dsimp only; omega)
  unfold Buffer.readField
  rw [hkind]
  dsimp only
  rw [bind_of_ok (show (ones K).align 4 s =
    (.ok (), { s with offset := aligned 8 4 s.offset }) from rfl), bind_of_ok hone]
  simp only [bind_apply, Program.bind, Program.get]
  rw [if_neg (by simp only [ones_data, onesData_length]; omega)]
  rfl

theorem readField_walk (hlimit : 1 ≤ limit) (f : Field) (readSub : Buffer → Read Value)
    (hknown : f.kind = .primitive → (primitiveOf f.primitive).isSome) {fits : Prop} {n : Nat}
    (hpasses : fits → Passes readSub n) (hbreaks : ¬fits → Breaks readSub n) :
    ∃ n', ((FieldFits limit f fits →
        Passes (fun b => b.readField limit f (readSub b)) n') ∧
      (¬FieldFits limit f fits →
        Breaks (fun b => b.readField limit f (readSub b)) n')) := by
  unfold FieldFits
  cases hkind : f.kind with
  | primitive =>
    obtain ⟨p, hp⟩ := Option.isSome_iff_exists.1 (hknown hkind)
    refine ⟨16, fun _ => ?_, fun h => absurd trivial h⟩
    unfold Buffer.readField
    simp only [hkind, hp]
    exact readPrimitive_passes p
  | string =>
    refine ⟨12, fun _ => ?_, fun h => absurd trivial h⟩
    unfold Buffer.readField
    simp only [hkind]
    exact readString_passes.bind fun s => Passes.pure fun _ => Value.str s
  | message =>
    refine ⟨n, fun h => ?_, fun h => ?_⟩
    · unfold Buffer.readField
      simp only [hkind]
      exact hpasses h
    · unfold Buffer.readField
      simp only [hkind]
      exact hbreaks h
  | fixedArray =>
    unfold Buffer.readField
    simp only [hkind]
    exact ⟨_, readArray_walk limit f readSub f.arrayLen (fun _ => none) hpasses hbreaks⟩
  | dynArray =>
    refine ⟨12 + (8 + 1 * (12 + n)), fun h K s h4 hroom => ?_, fun h K s h4 hroom => ?_⟩
    · have hbounds := aligned_bounds 8 4 s.offset
      obtain ⟨a, t, hrun, hle, hge⟩ := (readArray_walk limit f readSub 1
        (fun _ => some (aligned 8 4 s.offset + 4)) hpasses hbreaks).1
          ⟨⟨by decide, by omega⟩, h.imp_right Or.inr⟩ K
          { s with offset := aligned 8 4 s.offset + 4 } (by dsimp only; omega)
          (by dsimp only [Int.toNat_one]; omega)
      dsimp only [Int.toNat_one] at hle hge
      exact ⟨a, t, (dynArray_ones limit f readSub hkind h4 (by omega)).trans hrun, by omega,
        by omega⟩
    · have hbounds := aligned_bounds 8 4 s.offset
      dsimp only
      rw [dynArray_ones limit f readSub hkind h4 (by omega)]
      refine (readArray_walk limit f readSub 1
        (fun _ => some (aligned 8 4 s.offset + 4)) hpasses hbreaks).2 ?_ K
          { s with offset := aligned 8 4 s.offset + 4 } (by dsimp only; omega)
          (by dsimp only [Int.toNat_one]; omega)
      rintro ⟨_, hread⟩
      obtain hscalar | hone | hfits := hread
      · exact h (Or.inl hscalar)
      · exact absurd hone (by decide)
      · exact h (Or.inr hfits)

/-- Fields that fit are read from the ones, and fields that do not fit fault. -/
theorem readMessage_walk (hlimit : 1 ≤ limit) {fields : Fields} (hknown : Known fields) :
    ∃ n, ∀ out, (Fits limit fields → Passes (fun b => b.readMessage limit fields out) n) ∧
      (¬Fits limit fields → Breaks (fun b => b.readMessage limit fields out) n) := by
  induction fields with
  | nil =>
    exact ⟨0, fun out => ⟨fun _ => Passes.pure fun _ => out, fun h => absurd trivial h⟩⟩
  | cons f sub rest ihsub ihrest =>
    obtain ⟨hprimitive, hsub, hrest⟩ := hknown
    obtain ⟨n, hwalk⟩ := ihsub hsub
    obtain ⟨m, hwalkRest⟩ := ihrest hrest
    obtain ⟨k, hpasses, hbreaks⟩ := readField_walk limit hlimit f
      (fun b => do
        let object ← b.readMessage limit sub []
        pure (.obj object)) hprimitive
      (fun h => ((hwalk []).1 h).bind fun object => Passes.pure fun _ => Value.obj object)
      (fun h => (((hwalk []).2 h).bind _).mono (Nat.le_add_right n 0))
    refine ⟨k + m, fun out => ⟨fun h => ?_, fun h => ?_⟩⟩
    · exact ((hpasses h.1).wrap (.field f.name)).bind fun value =>
        (hwalkRest (out.assign f.name value)).1 h.2
    · by_cases hfield : FieldFits limit f (Fits limit sub)
      · exact ((hpasses hfield).wrap (.field f.name)).bind_breaks fun value =>
          (hwalkRest (out.assign f.name value)).2 fun hfits => h ⟨hfield, hfits⟩
      · exact (((hbreaks hfield).wrap (.field f.name)).bind _).mono (Nat.le_add_right k m)

end Walk

/-- A decode ends with a value or an error, with no dynamic array longer than what was left. -/
def Clean (run : Outcome CdrError Object × List Made) : Prop :=
  run.1 ≠ .fault ∧ Bounded run.2

theorem deserializeCDR_clean {limit : Nat} (hlimit : 4294967295 ≤ limit) {schema : Fields}
    (hfits : Fits limit schema) (data : List UInt8) : Clean (deserializeCDR limit data schema) := by
  unfold deserializeCDR
  split
  · exact ⟨nofun, fun m hm => nomatch hm⟩
  · have hsafe := readMessage_safe (Buffer.ofData data) limit hlimit hfits []
      { offset := 4, made := [] } fun m hm => nomatch hm
    refine ⟨fun hfault => ?_, hsafe.2⟩
    have hends := hsafe.1
    rw [hfault] at hends
    exact hends

/-- The ones run into an array that cannot be made. -/
theorem deserializeCDR_faults {limit : Nat} (hlimit : 4294967295 ≤ limit) {schema : Fields}
    (hknown : Known schema) (hfits : ¬Fits limit schema) :
    ∃ data, (deserializeCDR limit data schema).1 = .fault := by
  obtain ⟨n, hwalk⟩ := readMessage_walk limit (Nat.le_trans (by decide) hlimit) hknown
  refine ⟨onesData n, ?_⟩
  unfold deserializeCDR
  rw [if_neg (by simp)]
  exact (hwalk []).2 hfits n { offset := 4, made := [] } (Nat.le_refl 4) (by dsimp only; omega)

end Cdr
end Foxglove
end Mowgli
