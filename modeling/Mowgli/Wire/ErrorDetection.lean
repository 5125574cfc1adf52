import Mathlib.Tactic.NormNum.Prime
import Mowgli.Lib.Crc
import Mowgli.Wire.RoundTrip

/-!
# ErrorDetection — which changes of a packet the checksum sees

The checksum is the remainder of the payload, most significant bit first, by
x¹⁶ + x¹² + x⁵ + 1. The generator has four terms and a constant one, and x has the order 32767
modulo it.
-/

namespace Mowgli
namespace Wire

open Stuffing (Byte)
open Crc (feed shift bitsOf parity)

/-- `0x1021`, the generator without its leading term. -/
def GENERATOR : BitVec 16 := 0x1021#16

/-- The bits in the order they are sent. -/
def bits (data : List Byte) : List Bool := data.flatMap bitsOf

/-- The bytes with some of their bits changed. -/
def flip (data e : List Byte) : List Byte := List.zipWith (· ^^^ ·) data e

/-! ## The bit loop -/

theorem crcBit_eq (crc : BitVec 16) : crcBit crc = shift GENERATOR crc := by
  have htop : crc &&& 0x8000#16 = if crc.getLsbD 15 then 0x8000#16 else 0#16 :=
    BitVec.and_twoPow crc 15
  unfold crcBit shift
  rw [htop, BitVec.msb_eq_getLsbD_last]
  cases crc.getLsbD 15 with
  | true => rfl
  | false => rfl

theorem length_bitsOf (b : Byte) : (bitsOf b).length = 8 := rfl

theorem word_bitsOf : ∀ b : Byte, Crc.word 16 (bitsOf b) = b.setWidth 16 <<< 8 := by
  decide +kernel

/-- A byte at once is its eight bits. -/
theorem crcByte_eq (crc : BitVec 16) (b : Byte) : crcByte crc b = feed GENERATOR crc (bitsOf b) := by
  have hbit : crcBit = shift GENERATOR := funext crcBit_eq
  unfold crcByte
  rw [Crc.feed_word GENERATOR crc (by rw [length_bitsOf]; decide), word_bitsOf, hbit]
  rfl

theorem crc16Ccitt_eq (data : List Byte) :
    crc16Ccitt data = feed GENERATOR 0xFFFF#16 (bits data) := by
  unfold crc16Ccitt
  generalize 0xFFFF#16 = crc
  induction data generalizing crc with
  | nil => rfl
  | cons b data ih =>
    rw [List.foldl_cons, ih, crcByte_eq]
    unfold bits
    rw [List.flatMap_cons, Crc.feed_append]

theorem bitsOf_xor (b d : Byte) : bitsOf (b ^^^ d) = Crc.xorBits (bitsOf b) (bitsOf d) := by
  unfold bitsOf Crc.xorBits
  rw [List.zipWith_map, List.zipWith_self]
  simp only [BitVec.getLsbD_xor]

theorem length_bits (data : List Byte) : (bits data).length = 8 * data.length := by
  induction data with
  | nil => rfl
  | cons b data ih =>
    unfold bits at ih ⊢
    rw [List.flatMap_cons, List.length_append, length_bitsOf, ih, List.length_cons]
    omega

variable {data : List Byte}

theorem bits_flip {e : List Byte} (h : data.length = e.length) :
    bits (flip data e) = Crc.xorBits (bits data) (bits e) := by
  induction data generalizing e with
  | nil => rfl
  | cons b data ih =>
    cases e with
    | nil => cases h
    | cons d e =>
      have htail := ih (Nat.succ.inj h)
      unfold bits flip at htail ⊢
      rw [List.zipWith_cons_cons, List.flatMap_cons, List.flatMap_cons, List.flatMap_cons, htail,
        bitsOf_xor]
      unfold Crc.xorBits
      rw [List.zipWith_append (by rw [length_bitsOf, length_bitsOf])]

/-- **What a change does to the checksum** depends on the change alone. -/
theorem crc16Ccitt_flip {e : List Byte} (h : data.length = e.length) :
    crc16Ccitt (flip data e) = crc16Ccitt data ^^^ feed GENERATOR 0#16 (bits e) := by
  rw [crc16Ccitt_eq, crc16Ccitt_eq, bits_flip h]
  exact Crc.feed_changed GENERATOR _ (by rw [length_bits, length_bits, h])

/-! ## The stored checksum -/

/-- The last two bytes, low byte first. -/
def received (x y : Byte) : BitVec 16 := x.setWidth 16 ||| (y.setWidth 16 <<< 8)

theorem received_eq (x y : Byte) : received x y = x.setWidth 16 ^^^ (y.setWidth 16 <<< 8) := by
  refine BitVec.eq_of_getLsbD_eq fun i hi => ?_
  unfold received
  rw [BitVec.getLsbD_or, BitVec.getLsbD_xor]
  by_cases h : i < 8
  · simp [h]
  · have hx : x.getLsbD i = false := BitVec.getLsbD_of_ge x i (by omega)
    simp [h, hx]

theorem received_flip (x y ex ey : Byte) :
    received (x ^^^ ex) (y ^^^ ey) = received x y ^^^ received ex ey := by
  rw [received_eq, received_eq, received_eq, Crc.xor_xor_xor_comm, BitVec.setWidth_xor,
    BitVec.setWidth_xor, BitVec.shiftLeft_xor_distrib]

theorem parity_low : ∀ b : Byte, parity (b.setWidth 16) = ((bitsOf b).count true : ZMod 2) := by
  decide +kernel

theorem parity_high :
    ∀ b : Byte, parity (b.setWidth 16 <<< 8) = ((bitsOf b).count true : ZMod 2) := by
  decide +kernel

theorem parity_received (x y : Byte) :
    parity (received x y) = ((bits [x, y]).count true : ZMod 2) := by
  have hbits : bits [x, y] = bitsOf x ++ bitsOf y := by
    unfold bits
    rw [List.flatMap_cons, List.flatMap_singleton]
  rw [received_eq, Crc.parity_xor, parity_low, parity_high, hbits, List.count_append, Nat.cast_add]

theorem crcMatches_append (payload : List Byte) (x y : Byte) :
    crcMatches (payload ++ [x, y]) = true ↔ crc16Ccitt payload = received x y := by
  simp [crcMatches, received]

/-! ## The order of x -/

theorem constant_term : GENERATOR.getLsbD 0 = true := rfl

theorem parity_generator : parity GENERATOR = 1 := by
  decide +kernel

/-- `x` to a power. -/
def Power (n : Nat) (c : BitVec 16) : Prop := (shift GENERATOR)^[n] 1#16 = c

theorem Power.add {m n k : Nat} {a c r : BitVec 16} (hm : Power m a) (hn : Power n c)
    (hk : m + n = k) (hc : Crc.times GENERATOR 1#16 (bitsOf c) = c)
    (hr : Crc.times GENERATOR a (bitsOf c) = r) : Power k r := by
  subst hk
  exact (Crc.iterate_add GENERATOR hm hn hc).trans hr

theorem order_of_x :
    Power 32767 1#16 ∧ Power 4681 0x2c42#16 ∧ Power 1057 0xf2af#16 ∧ Power 217 0x48e3#16 := by
  have h1 : Power 1 0x2#16 := rfl
  have h2 : Power 2 0x4#16 := h1.add h1 rfl (by decide +kernel) (by decide +kernel)
  have h4 : Power 4 0x10#16 := h2.add h2 rfl (by decide +kernel) (by decide +kernel)
  have h8 : Power 8 0x100#16 := h4.add h4 rfl (by decide +kernel) (by decide +kernel)
  have h16 : Power 16 0x1021#16 := h8.add h8 rfl (by decide +kernel) (by decide +kernel)
  have h32 : Power 32 0x3730#16 := h16.add h16 rfl (by decide +kernel) (by decide +kernel)
  have h64 : Power 64 0xb861#16 := h32.add h32 rfl (by decide +kernel) (by decide +kernel)
  have h128 : Power 128 0xaefc#16 := h64.add h64 rfl (by decide +kernel) (by decide +kernel)
  have h256 : Power 256 0x8e29#16 := h128.add h128 rfl (by decide +kernel) (by decide +kernel)
  have h512 : Power 512 0x13fc#16 := h256.add h256 rfl (by decide +kernel) (by decide +kernel)
  have h1024 : Power 1024 0x36c4#16 := h512.add h512 rfl (by decide +kernel) (by decide +kernel)
  have h2048 : Power 2048 0xfd50#16 := h1024.add h1024 rfl (by decide +kernel) (by decide +kernel)
  have h4096 : Power 4096 0xaa9e#16 := h2048.add h2048 rfl (by decide +kernel) (by decide +kernel)
  have h8192 : Power 8192 0x881c#16 := h4096.add h4096 rfl (by decide +kernel) (by decide +kernel)
  have h16384 : Power 16384 0x4458#16 := h8192.add h8192 rfl (by decide +kernel) (by decide +kernel)
  have h32768 : Power 32768 0x2#16 := h16384.add h16384 rfl (by decide +kernel) (by decide +kernel)
  have h32767 : Power 32767 1#16 := by
    refine Crc.iterate_injective constant_term 1 ?_
    rw [← Function.iterate_add_apply]
    exact h32768
  have h192 : Power 192 0x650b#16 := h128.add h64 rfl (by decide +kernel) (by decide +kernel)
  have h208 : Power 208 0x45b4#16 := h192.add h16 rfl (by decide +kernel) (by decide +kernel)
  have h216 : Power 216 0xac61#16 := h208.add h8 rfl (by decide +kernel) (by decide +kernel)
  have h217 : Power 217 0x48e3#16 := h216.add h1 rfl (by decide +kernel) (by decide +kernel)
  have h1056 : Power 1056 0xf147#16 := h1024.add h32 rfl (by decide +kernel) (by decide +kernel)
  have h1057 : Power 1057 0xf2af#16 := h1056.add h1 rfl (by decide +kernel) (by decide +kernel)
  have h4608 : Power 4608 0x54a0#16 := h4096.add h512 rfl (by decide +kernel) (by decide +kernel)
  have h4672 : Power 4672 0x106#16 := h4608.add h64 rfl (by decide +kernel) (by decide +kernel)
  have h4680 : Power 4680 0x1621#16 := h4672.add h8 rfl (by decide +kernel) (by decide +kernel)
  have h4681 : Power 4681 0x2c42#16 := h4680.add h1 rfl (by decide +kernel) (by decide +kernel)
  exact ⟨h32767, h4681, h1057, h217⟩

theorem iterate_ne {d : Nat} (hd : 0 < d) (hlt : d < 32767) :
    (shift GENERATOR)^[d] 1#16 ≠ 1#16 := by
  obtain ⟨hperiod, h4681, h1057, h217⟩ := order_of_x
  refine Crc.least_period hperiod ?_ hd hlt
  intro p hp hdvd
  rw [show 32767 = 7 * (31 * 151) by rfl, hp.dvd_mul, hp.dvd_mul,
    Nat.prime_dvd_prime_iff_eq hp (by norm_num), Nat.prime_dvd_prime_iff_eq hp (by norm_num),
    Nat.prime_dvd_prime_iff_eq hp (by norm_num)] at hdvd
  rcases hdvd with rfl | rfl | rfl
  · exact fun h => absurd (h4681.symm.trans h) (by decide)
  · exact fun h => absurd (h1057.symm.trans h) (by decide)
  · exact fun h => absurd (h217.symm.trans h) (by decide)

theorem iterate_intMin_ne {d : Nat} (hd : 0 < d) (hlt : d < 32767) :
    (shift GENERATOR)^[d] (BitVec.intMin 16) ≠ BitVec.intMin 16 := by
  have htop : BitVec.intMin 16 = (shift GENERATOR)^[15] 1#16 := by
    decide +kernel
  rw [htop, ← Function.iterate_add_apply, Nat.add_comm, Function.iterate_add_apply]
  exact fun h => iterate_ne hd hlt (Crc.iterate_injective constant_term 15 h)

/-! ## Shapes of errors -/

variable {b : List Bool}

theorem eq_replicate_of_count (h : b.count true = 0) : b = List.replicate b.length false := by
  refine List.eq_replicate_iff.2 ⟨rfl, fun x hx => ?_⟩
  cases x with
  | false => rfl
  | true => exact absurd hx (List.count_eq_zero.1 h)

theorem first_set (h : 0 < b.count true) :
    ∃ m rest, b = List.replicate m false ++ true :: rest ∧ rest.count true + 1 = b.count true := by
  induction b with
  | nil => cases h
  | cons x b ih =>
    cases x with
    | true => exact ⟨0, b, rfl, List.count_cons_self.symm⟩
    | false =>
      rw [List.count_cons_of_ne Bool.false_ne_true] at h
      obtain ⟨m, rest, rfl, hcount⟩ := ih h
      exact ⟨m + 1, rest, rfl, by rw [hcount, List.count_cons_of_ne Bool.false_ne_true]⟩

theorem feed_two_set (h : b.count true = 2) (hlength : b.length < 32767) :
    feed GENERATOR 0#16 b ≠ 0#16 := by
  obtain ⟨m, rest, rfl, hrest⟩ := first_set (show 0 < b.count true by omega)
  obtain ⟨d, tail, rfl, htail⟩ := first_set (show 0 < rest.count true by omega)
  rw [eq_replicate_of_count (show tail.count true = 0 by omega)]
  refine Crc.feed_two constant_term (iterate_intMin_ne (Nat.succ_pos d) ?_) m tail.length
  rw [List.length_append, List.length_cons, List.length_append, List.length_cons,
    List.length_replicate, List.length_replicate] at hlength
  omega

theorem feed_burst_set {start : Nat} (hset : true ∈ b)
    (h : ∀ k, b[k]? = some true → start ≤ k ∧ k < start + 16) : feed GENERATOR 0#16 b ≠ 0#16 := by
  have hsplit : b = b.take start ++ (b.drop start).take 16 ++ (b.drop start).drop 16 := by
    rw [List.append_assoc, List.take_append_drop, List.take_append_drop]
  have hfront : (b.take start).count true = 0 := by
    refine List.count_eq_zero.2 fun hmem => ?_
    obtain ⟨k, hk⟩ := List.mem_iff_getElem?.1 hmem
    rw [List.getElem?_take] at hk
    split at hk
    · have := (h k hk).1
      omega
    · cases hk
  have hback : ((b.drop start).drop 16).count true = 0 := by
    refine List.count_eq_zero.2 fun hmem => ?_
    obtain ⟨k, hk⟩ := List.mem_iff_getElem?.1 hmem
    rw [List.getElem?_drop, List.getElem?_drop] at hk
    have := (h _ hk).2
    omega
  have hmid : true ∈ (b.drop start).take 16 := by
    rw [hsplit, List.mem_append, List.mem_append] at hset
    rcases hset with (hmem | hmem) | hmem
    · exact absurd hmem (List.count_eq_zero.1 hfront)
    · exact hmem
    · exact absurd hmem (List.count_eq_zero.1 hback)
  rw [hsplit, eq_replicate_of_count hfront, eq_replicate_of_count hback]
  exact Crc.feed_burst constant_term (by rw [List.length_take]; omega) hmid _ _

/-! ## What is rejected -/

/-- Only bits of the payload are changed. -/
def InPayload (e : List Byte) : Prop :=
  ∀ k, (bits e)[k]? = some true → k < 8 * (e.length - 2)

/-- The changes that the checksum promises to see. -/
inductive Seen (e : List Byte) : Prop
  | odd (h : Odd ((bits e).count true))
  | burst (start : Nat) (hpayload : InPayload e) (hset : true ∈ bits e)
    (h : ∀ k, (bits e)[k]? = some true → start ≤ k ∧ k < start + 16)
  | two (hpayload : InPayload e) (h : (bits e).count true = 2) (hlength : e.length - 2 ≤ 4095)

theorem bits_append (front back : List Byte) : bits (front ++ back) = bits front ++ bits back :=
  List.flatMap_append

/-- Bytes without a set bit behind the payload. -/
theorem InPayload.rest {payload : List Byte} {x y : Byte} (h : InPayload (payload ++ [x, y])) :
    (bits [x, y]).count true = 0 := by
  refine List.count_eq_zero.2 fun hmem => ?_
  obtain ⟨k, hk⟩ := List.mem_iff_getElem?.1 hmem
  have hlt := h ((bits payload).length + k) (by
    rw [bits_append, List.getElem?_append_right (Nat.le_add_right _ _), Nat.add_sub_cancel_left]
    exact hk)
  rw [length_bits, List.length_append] at hlt
  have : [x, y].length = 2 := rfl
  omega

theorem eq_zero_of_unset : ∀ b : Byte, (bitsOf b).count true = 0 → b = 0#8 := by
  decide +kernel

theorem received_zero {x y : Byte} (h : (bits [x, y]).count true = 0) : received x y = 0#16 := by
  have hbits : bits [x, y] = bitsOf x ++ bitsOf y := by
    unfold bits
    rw [List.flatMap_cons, List.flatMap_singleton]
  rw [hbits, List.count_append] at h
  rw [eq_zero_of_unset x (by omega), eq_zero_of_unset y (by omega)]
  rfl

/-- **The register of a change that is seen is not what the stored checksum was changed by.** -/
theorem Seen.feed_ne {payload : List Byte} {x y : Byte} (h : Seen (payload ++ [x, y])) :
    feed GENERATOR 0#16 (bits payload) ≠ received x y := by
  have hlength : (payload ++ [x, y]).length - 2 = payload.length := by
    rw [List.length_append]
    rfl
  cases h with
  | odd h =>
    intro heq
    have hparity := congrArg parity heq
    rw [Crc.parity_feed GENERATOR (by decide) parity_generator, Crc.parity_zero, zero_add,
      parity_received] at hparity
    rw [bits_append, List.count_append, ← Nat.not_even_iff_odd] at h
    refine h ((ZMod.natCast_eq_zero_iff_even).1 ?_)
    rw [Nat.cast_add, hparity]
    exact CharTwo.add_self_eq_zero _
  | burst start hpayload hset h =>
    rw [received_zero hpayload.rest]
    have hset : true ∈ bits payload := by
      rw [bits_append, List.mem_append] at hset
      exact hset.resolve_right (List.count_eq_zero.1 hpayload.rest)
    refine feed_burst_set hset fun k hk => h k ?_
    rw [bits_append, List.getElem?_append_left (List.getElem?_eq_some_iff.1 hk).1]
    exact hk
  | two hpayload h hbytes =>
    rw [received_zero hpayload.rest]
    rw [bits_append, List.count_append, hpayload.rest] at h
    refine feed_two_set h ?_
    rw [length_bits]
    omega

theorem exists_append_two (h : 2 ≤ data.length) : ∃ payload x y, data = payload ++ [x, y] := by
  obtain ⟨payload, crc, rfl, hcrc⟩ : ∃ payload crc, data = payload ++ crc ∧ crc.length = 2 :=
    ⟨_, _, (List.take_append_drop (data.length - 2) data).symm, by rw [List.length_drop]; omega⟩
  obtain ⟨x, y, rfl⟩ := List.length_eq_two.1 hcrc
  exact ⟨payload, x, y, rfl⟩

/-- **Odd errors, bursts of 16 bits and two bits are rejected**, and what was appended is
accepted. -/
theorem crc_detects_errors :
    (∀ p e : List Byte, PacketHandler.verifyCrc p = true → e.length = p.length → Seen e →
      PacketHandler.verifyCrc (flip p e) = false) ∧
    ∀ data : List Byte, 3 ≤ data.length →
      PacketHandler.verifyCrc (PacketHandler.appendCrc data) = true := by
  constructor
  · intro p e hp hlength hseen
    unfold PacketHandler.verifyCrc at hp ⊢
    by_cases hshort : p.length < 3
    · rw [if_pos hshort] at hp
      cases hp
    rw [if_neg hshort] at hp
    obtain ⟨payload, x, y, rfl⟩ := exists_append_two (show 2 ≤ p.length by omega)
    obtain ⟨change, ex, ey, rfl⟩ := exists_append_two (show 2 ≤ e.length by omega)
    rw [crcMatches_append] at hp
    have hpayload : payload.length = change.length := by
      rw [List.length_append, List.length_append] at hlength
      exact (Nat.add_right_cancel hlength).symm
    have hflip : flip (payload ++ [x, y]) (change ++ [ex, ey]) =
        flip payload change ++ [x ^^^ ex, y ^^^ ey] := List.zipWith_append hpayload
    have hmatches : crcMatches (flip payload change ++ [x ^^^ ex, y ^^^ ey]) = false := by
      refine Bool.eq_false_iff.2 fun h => hseen.feed_ne ?_
      rw [crcMatches_append, crc16Ccitt_flip hpayload, received_flip, hp] at h
      exact (BitVec.xor_right_inj _).1 h
    rw [hflip, hmatches]
    split
    · rfl
    · rfl
  · intro data hlength
    obtain ⟨payload, x, y, rfl⟩ := exists_append_two (show 2 ≤ data.length by omega)
    unfold PacketHandler.verifyCrc PacketHandler.appendCrc
    rw [if_neg (show ¬(payload ++ [x, y]).length < 2 by omega), storeCrc_eq]
    rw [length_withCrc, if_neg]
    · exact crcMatches_withCrc payload
    · rw [List.length_append] at hlength
      exact Nat.not_lt.2 hlength

end Wire
end Mowgli
