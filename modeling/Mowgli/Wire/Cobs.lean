import Mowgli.Lib.Stuffing

/-!
# Cobs — the two encoders, the two decoders, the checksum

`cobs.c` and `cobs.cpp` were written apart, and so were `crc16.c` and `crc16.cpp`. The
encoders patch an overhead byte that has been reserved; they differ in what they reserve it
with. The decoders read and write by index; they differ in the room they have to write in.

Memory is checked here: a read behind the input or a write behind the output is a `Fault`.
`decodeLoop_eq` says there is none **if the output has room for all but one byte of the
input**, whatever the input is, and that what is decoded is `Stuffing.unstuff`.
-/

namespace Mowgli
namespace Wire

open Stuffing (Byte stuffFrom unstuff unstuffFrom)

/-! ## The encoders -/

/-- The locals of `cobs_encode`, and what it has written. -/
structure Encoder where
  output : List Byte
  codePos : Nat
  code : Byte

/-- One byte of the input. -/
def Encoder.put (placeholder : Byte) (e : Encoder) (b : Byte) : Encoder :=
  if b = 0#8 then
    { output := e.output.set e.codePos e.code ++ [placeholder]
      codePos := e.output.length, code := 1#8 }
  else
    let output := e.output ++ [b]
    let code := e.code + 1#8
    if code = 0xFF#8 then
      { output := output.set e.codePos code ++ [placeholder]
        codePos := output.length, code := 1#8 }
    else { e with output := output, code := code }

/-- The last block is closed. -/
def Encoder.finish (e : Encoder) : List Byte := e.output.set e.codePos e.code

def encode (placeholder : Byte) (input : List Byte) : List Byte :=
  (input.foldl (Encoder.put placeholder)
    { output := [placeholder], codePos := 0, code := 1#8 }).finish

/-- `cobs_encode` of `cobs.c`. -/
def Firmware.cobsEncode : List Byte → List Byte := encode 1#8

/-- `cobs_encode` of `cobs.cpp`, into a vector of zeros. -/
def Bridge.cobsEncode : List Byte → List Byte := encode 0#8

/-- The encoder, when what is done is followed by an unfinished block. -/
structure Encoder.At (e : Encoder) (done block : List Byte) : Prop where
  output : ∃ x, e.output = done ++ x :: block
  codePos : e.codePos = done.length
  code : e.code = Stuffing.code block
  short : block.length ≤ 253

namespace Encoder.At

variable {e : Encoder} {done block : List Byte}

/-- The overhead byte is patched. -/
theorem patched (h : e.At done block) :
    e.output.set e.codePos e.code = done ++ Stuffing.code block :: block := by
  obtain ⟨x, hx⟩ := h.output
  rw [hx, h.codePos, h.code]
  simp

theorem fold (h : e.At done block) (placeholder : Byte) (input : List Byte) :
    (input.foldl (Encoder.put placeholder) e).finish = done ++ stuffFrom block input := by
  induction input generalizing e done block with
  | nil => exact h.patched
  | cons b input ih =>
    obtain ⟨x, hx⟩ := h.output
    have hlength : e.output.length = (done ++ Stuffing.code block :: block).length := by
      rw [← h.patched, List.length_set]
    rw [List.foldl_cons]
    by_cases hb : b = 0#8
    · have hput : (e.put placeholder b).At (done ++ Stuffing.code block :: block) [] := by
        unfold Encoder.put
        rw [if_pos hb]
        exact ⟨⟨placeholder, by rw [h.patched]⟩, hlength, rfl, Nat.zero_le _⟩
      rw [ih hput, stuffFrom, if_pos hb]
      simp
    · have hcode : e.code + 1#8 = Stuffing.code (block ++ [b]) := by
        rw [h.code]
        simp [Stuffing.code, BitVec.ofNat_add]
      have hset : (e.output ++ [b]).set e.codePos (e.code + 1#8) =
          done ++ Stuffing.code (block ++ [b]) :: (block ++ [b]) := by
        rw [hx, h.codePos, hcode]
        simp
      by_cases hfull : block.length = 253
      · have hff : e.code + 1#8 = 0xFF#8 := by
          rw [hcode]
          simp [Stuffing.code, hfull]
        have hput : (e.put placeholder b).At
            (done ++ Stuffing.code (block ++ [b]) :: (block ++ [b])) [] := by
          unfold Encoder.put
          rw [if_neg hb]
          dsimp only
          rw [if_pos hff]
          refine ⟨⟨placeholder, by rw [hset]⟩, ?_, rfl, Nat.zero_le _⟩
          show (e.output ++ [b]).length = _
          rw [← hset, List.length_set]
        rw [ih hput, stuffFrom, if_neg hb, if_pos hfull, ← hcode, hff]
        simp
      · have hnot : e.code + 1#8 ≠ 0xFF#8 := by
          rw [hcode]
          exact Stuffing.code_ne_full (by simp; have := h.short; omega)
        have hput : (e.put placeholder b).At done (block ++ [b]) := by
          unfold Encoder.put
          rw [if_neg hb]
          dsimp only
          rw [if_neg hnot]
          refine ⟨⟨x, by rw [hx]; simp⟩, h.codePos, hcode, ?_⟩
          have := h.short
          simp
          omega
        rw [ih hput, stuffFrom, if_neg hb, if_neg hfull]

end Encoder.At

/-- **Both encoders stuff.** -/
theorem encode_eq (placeholder : Byte) (input : List Byte) :
    encode placeholder input = Stuffing.stuff input := by
  have h : ({ output := [placeholder], codePos := 0, code := 1#8 } : Encoder).At [] [] :=
    ⟨⟨placeholder, rfl⟩, rfl, rfl, Nat.zero_le _⟩
  exact h.fold placeholder input

/-! ## The decoders -/

inductive Fault where
  | readOverrun
  | writeOverrun
deriving DecidableEq

/-- `output[write++] = b`, into `room` bytes. -/
def write (room : Nat) (output : List Byte) (b : Byte) : Except Fault (List Byte) :=
  if output.length < room then .ok (output ++ [b]) else .error .writeOverrun

/-- The copy of `count` bytes: what is left to read, and what is written. -/
def copy (room : Nat) : Nat → List Byte → List Byte → Except Fault (List Byte × List Byte)
  | 0, input, output => .ok (input, output)
  | _ + 1, [], _ => .error .readOverrun
  | count + 1, b :: input, output => do copy room count input (← write room output b)

/-- The zero that ends a block, unless it is a full one or the last. -/
def endBlock (room : Nat) (code : Byte) (input output : List Byte) : Except Fault (List Byte) :=
  if code ≠ 0xFF#8 ∧ input ≠ [] then write room output 0#8 else .ok output

/-- The loop, over what is left to read; `none` is the 0 that is returned for malformed
    input. Each turn reads an overhead byte, so the length of the input is fuel enough. -/
def decodeLoop (room : Nat) : Nat → List Byte → List Byte → Except Fault (Option (List Byte))
  | _, [], output => .ok (some output)
  | 0, _ :: _, _ => .ok none
  | fuel + 1, code :: input, output =>
    if code = 0#8 then .ok none
    else if input.length < code.toNat - 1 then .ok none
    else do
      let copied ← copy room (code.toNat - 1) input output
      let output ← endBlock room code copied.1 copied.2
      decodeLoop room fuel copied.1 output

def decode (room : Nat) (input : List Byte) : Except Fault (Option (List Byte)) :=
  decodeLoop room input.length input []

/-- `cobs_decode` of `cobs.c`, into `room` bytes. -/
def Firmware.cobsDecode (room : Nat) (input : List Byte) : Except Fault (Option (List Byte)) :=
  decode room input

/-- `cobs_decode` of `cobs.cpp`, into `room` bytes. -/
def Bridge.cobsDecode (room : Nat) (input : List Byte) : Except Fault (Option (List Byte)) :=
  if input.length = 0 then .ok none else decode room input

variable {output : List Byte} {room : Nat} {input : List Byte}

theorem write_ok {b : Byte} (h : output.length < room) :
    write room output b = .ok (output ++ [b]) := if_pos h

theorem copy_ok {count : Nat} (hr : count ≤ input.length) (hw : output.length + count ≤ room) :
    copy room count input output = .ok (input.drop count, output ++ input.take count) := by
  induction count generalizing input output with
  | zero => simp [copy]
  | succ count ih =>
    cases input with
    | nil => exact absurd hr (by simp)
    | cons b input =>
      have hlt : output.length < room := by omega
      rw [copy, write_ok hlt]
      show copy room count input (output ++ [b]) = _
      rw [ih (by simpa using hr) (by simp; omega)]
      simp

/-- **A decoder with room for all but one byte of its input makes no fault**, and decodes
    what is stuffed. -/
theorem decodeLoop_eq {fuel : Nat} (hf : input.length ≤ fuel)
    (hw : output.length + input.length ≤ room + 1) :
    decodeLoop room fuel input output = .ok ((unstuff input).map (output ++ ·)) := by
  induction fuel generalizing input output with
  | zero =>
    obtain rfl : input = [] := List.length_eq_zero_iff.1 (by omega)
    simp [decodeLoop, unstuff, unstuffFrom]
  | succ fuel ih =>
    cases input with
    | nil => simp [decodeLoop, unstuff, unstuffFrom]
    | cons code input =>
      rw [List.length_cons] at hf hw
      unfold decodeLoop
      by_cases hzero : code = 0#8
      · rw [if_pos hzero]
        simp [unstuff, unstuffFrom, hzero]
      · have hpos : 0 < code.toNat := by
          rcases Nat.eq_zero_or_pos code.toNat with h | h
          · exact absurd (BitVec.eq_of_toNat_eq (by simpa using h)) hzero
          · exact h
        rw [if_neg hzero]
        by_cases hshort : input.length < code.toNat - 1
        · rw [if_pos hshort]
          simp [unstuff, unstuffFrom, hzero, Stuffing.unstuffFrom_short hshort]
        · rw [if_neg hshort]
          -- The block is there: what is copied is the block, and `tail` is left.
          obtain ⟨block, tail, rfl, hblock⟩ : ∃ block tail, input = block ++ tail ∧
              block.length = code.toNat - 1 :=
            ⟨_, _, (List.take_append_drop (code.toNat - 1) input).symm, by simp; omega⟩
          rw [List.length_append] at hf hw
          have hcopy : copy room (code.toNat - 1) (block ++ tail) output =
              .ok (tail, output ++ block) := by
            rw [copy_ok (by simp; omega) (by omega)]
            simp [← hblock]
          have hcode : code.toNat = block.length + 1 := by omega
          rw [hcopy, Stuffing.unstuff_block hcode]
          show (do
            let output ← endBlock room code tail (output ++ block)
            decodeLoop room fuel tail output) = _
          by_cases htail : tail = []
          · have hend : endBlock room code tail (output ++ block) = .ok (output ++ block) :=
              if_neg fun h => h.2 htail
            rw [hend]
            subst htail
            show decodeLoop room fuel [] (output ++ block) = _
            simp [decodeLoop, unstuffFrom]
          · rw [Stuffing.unstuffFrom_zero htail]
            have hpos : 0 < tail.length := List.length_pos_iff.2 htail
            by_cases hfull : code = 0xFF#8
            · have hend : endBlock room code tail (output ++ block) = .ok (output ++ block) :=
                if_neg fun h => h.1 hfull
              rw [hend]
              show decodeLoop room fuel tail (output ++ block) = _
              rw [ih (by omega) (by simp; omega), unstuff]
              simp [hfull, Function.comp_def]
            · have hend : endBlock room code tail (output ++ block) =
                  .ok (output ++ block ++ [0#8]) := by
                unfold endBlock
                rw [if_pos ⟨hfull, htail⟩]
                exact write_ok (by simp; omega)
              rw [hend]
              show decodeLoop room fuel tail (output ++ block ++ [0#8]) = _
              rw [ih (by omega) (by simp; omega), unstuff]
              simp [hfull, Function.comp_def]

theorem decode_eq (h : input.length ≤ room + 1) : decode room input = .ok (unstuff input) := by
  unfold decode
  rw [decodeLoop_eq (Nat.le_refl _) (by simpa using h)]
  simp

/-! ## The checksum -/

/-- One bit of `crc16_ccitt`. -/
def crcBit (crc : BitVec 16) : BitVec 16 :=
  if crc &&& 0x8000#16 ≠ 0#16 then (crc <<< 1) ^^^ 0x1021#16 else crc <<< 1

def crcByte (crc : BitVec 16) (b : Byte) : BitVec 16 :=
  crcBit^[8] (crc ^^^ (b.setWidth 16 <<< 8))

/-- `crc16_ccitt`, the same loop in `crc16.c` and in `crc16.cpp`. -/
def crc16Ccitt (data : List Byte) : BitVec 16 := data.foldl crcByte 0xFFFF#16

def lowByte (crc : BitVec 16) : Byte := (crc &&& 0xFF#16).setWidth 8

def highByte (crc : BitVec 16) : Byte := ((crc >>> 8) &&& 0xFF#16).setWidth 8

/-- The checksum of all bytes but the last two is stored in these, low byte first. -/
def storeCrc (data : List Byte) : List Byte :=
  let payloadLen := data.length - 2
  let crc := crc16Ccitt (data.take payloadLen)
  (data.set payloadLen (lowByte crc)).set (payloadLen + 1) (highByte crc)

/-- The last two bytes are the checksum of the others. -/
def crcMatches (data : List Byte) : Bool :=
  let payloadLen := data.length - 2
  let received := (data.getD payloadLen 0#8).setWidth 16 |||
    ((data.getD (payloadLen + 1) 0#8).setWidth 16 <<< 8)
  crc16Ccitt (data.take payloadLen) == received

/-- A payload, and its checksum. -/
def withCrc (payload : List Byte) : List Byte :=
  payload ++ [lowByte (crc16Ccitt payload), highByte (crc16Ccitt payload)]

theorem getLsbD_low (i : Nat) (h : i < 8) : (0xFF#16).getLsbD i = true := by
  revert i
  decide

theorem getElem_full (i : Nat) (h : i < 8) : (0xFF#8)[i] = true := by
  revert i
  decide

theorem word_of_bytes (crc : BitVec 16) :
    (lowByte crc).setWidth 16 ||| ((highByte crc).setWidth 16 <<< 8) = crc := by
  apply BitVec.eq_of_getLsbD_eq
  intro i hi
  by_cases h : i < 8
  · have hmask := getLsbD_low i h
    simp [lowByte, highByte, h, hi, hmask]
  · have hk : i - 8 < 8 := by omega
    have hadd : 8 + (i - 8) = i := by omega
    have hmask := getLsbD_low (i - 8) hk
    simp [lowByte, highByte, h, hi, hk, hadd, hmask]

theorem lowByte_word (x y : Byte) : lowByte (x.setWidth 16 ||| (y.setWidth 16 <<< 8)) = x := by
  apply BitVec.eq_of_getLsbD_eq
  intro i hi
  simp [lowByte, hi, getElem_full i hi]

theorem highByte_word (x y : Byte) : highByte (x.setWidth 16 ||| (y.setWidth 16 <<< 8)) = y := by
  apply BitVec.eq_of_getLsbD_eq
  intro i hi
  have h16 : 8 + i < 16 := by omega
  have h8 : ¬8 + i < 8 := by omega
  have hi16 : i < 16 := by omega
  simp [highByte, h16, h8, hi16, hi, getElem_full i hi]

theorem length_withCrc (payload : List Byte) : (withCrc payload).length = payload.length + 2 := by
  simp [withCrc]

theorem storeCrc_eq (payload : List Byte) (x y : Byte) :
    storeCrc (payload ++ [x, y]) = withCrc payload := by
  simp [storeCrc, withCrc]

theorem crcMatches_withCrc (payload : List Byte) : crcMatches (withCrc payload) = true := by
  simp [crcMatches, withCrc, word_of_bytes]

/-- What matches is a payload and its checksum. -/
theorem eq_withCrc {data : List Byte} (h : crcMatches data = true) (hl : 2 ≤ data.length) :
    data = withCrc (data.take (data.length - 2)) := by
  obtain ⟨payload, crc, rfl, hcrc⟩ : ∃ payload crc, data = payload ++ crc ∧ crc.length = 2 :=
    ⟨_, _, (List.take_append_drop (data.length - 2) data).symm, by simp; omega⟩
  obtain ⟨x, y, rfl⟩ := List.length_eq_two.1 hcrc
  have hword : crc16Ccitt payload = x.setWidth 16 ||| (y.setWidth 16 <<< 8) := by
    simpa [crcMatches] using h
  simp [withCrc, hword, lowByte_word, highByte_word]

end Wire
end Mowgli
