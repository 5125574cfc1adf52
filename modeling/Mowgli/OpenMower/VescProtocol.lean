import Mathlib.Data.List.GetD
import Mowgli.Wire.Cobs

/-!
# Vesc protocol — frames in a byte stream

`BuildFrame`, `InspectAt` and the `Deframer` of `vesc_protocol.cpp`. A frame is a start byte, the
length in one byte or two, the payload, its checksum and a stop byte. Nothing is escaped: any byte
may be a start byte, and a place in the stream is a candidate until the bytes say otherwise.
-/

namespace Mowgli
namespace OpenMower
namespace Vesc

open Stuffing (Byte)
open Wire (crcByte lowByte highByte)

def kSofSmallFrame : Byte := 2#8
def kSofLargeFrame : Byte := 3#8
def kEof : Byte := 3#8
def kMaxPayloadSize : Nat := 1024
def kSmallHeaderSize : Nat := 2
def kLargeHeaderSize : Nat := 3
def kTrailerSize : Nat := 3
def kMinFrameSize : Nat := kSmallHeaderSize + kTrailerSize
def kMaxBufferedBytes : Nat := 4096

/-- The shift register is that of the other links, from zero. -/
def crc16Xmodem (data : List Byte) : BitVec 16 := data.foldl crcByte 0#16

def trailer (payload : List Byte) : List Byte :=
  [highByte (crc16Xmodem payload), lowByte (crc16Xmodem payload), kEof]

def smallFrame (payload : List Byte) : List Byte :=
  kSofSmallFrame :: BitVec.ofNat 8 payload.length :: (payload ++ trailer payload)

def largeFrame (payload : List Byte) : List Byte :=
  kSofLargeFrame :: BitVec.ofNat 8 (payload.length / 256) :: BitVec.ofNat 8 payload.length ::
    (payload ++ trailer payload)

def buildFrame (payload : List Byte) : List Byte :=
  if payload.length < 256 then smallFrame payload else largeFrame payload

/-! ## A candidate -/

inductive Candidate
  | invalid
  | incomplete
  | badCrc
  | valid
deriving DecidableEq

/-- The offset counts from the start of the candidate. -/
structure FrameView where
  state : Candidate
  payloadOffset : Nat
  payloadLen : Nat
  frameLen : Nat

def FrameView.ofState (state : Candidate) : FrameView :=
  { state := state, payloadOffset := 0, payloadLen := 0, frameLen := 0 }

/-- `InspectAt` behind the header. -/
def inspectBody (rest : List Byte) (header payloadLen : Nat) : FrameView :=
  if payloadLen = 0 ∨ kMaxPayloadSize < payloadLen then .ofState .invalid
  else
    let frameLen := header + payloadLen + kTrailerSize
    let view (state : Candidate) : FrameView :=
      { state := state, payloadOffset := header, payloadLen := payloadLen, frameLen := frameLen }
    if rest.length < frameLen then view .incomplete
    else
      let crcAt := header + payloadLen
      let crcWire := ((rest.getD crcAt 0#8).setWidth 16 <<< 8) |||
        (rest.getD (crcAt + 1) 0#8).setWidth 16
      if rest.getD (crcAt + 2) 0#8 ≠ kEof ∨
          crcWire ≠ crc16Xmodem ((rest.drop header).take payloadLen) then view .badCrc
      else view .valid

/-- `InspectAt`, of the buffer from the place on. -/
def inspect (rest : List Byte) : FrameView :=
  let sof := rest.getD 0 0#8
  if rest.length < kMinFrameSize then
    if sof = kSofSmallFrame ∨ sof = kSofLargeFrame then .ofState .incomplete
    else .ofState .invalid
  else if sof = kSofSmallFrame then inspectBody rest kSmallHeaderSize (rest.getD 1 0#8).toNat
  else if sof = kSofLargeFrame then
    if rest.length < kLargeHeaderSize + kTrailerSize then .ofState .incomplete
    else
      inspectBody rest kLargeHeaderSize
        ((rest.getD 1 0#8).toNat * 256 + (rest.getD 2 0#8).toNat)
  else .ofState .invalid

/-! ## The deframer -/

structure Deframer where
  buffer : List Byte
  crcErrors : Nat
  resyncDrops : Nat
  capped : buffer.length ≤ kMaxBufferedBytes

namespace Deframer

def new : Deframer :=
  { buffer := [], crcErrors := 0, resyncDrops := 0, capped := Nat.zero_le _ }

/-- How many bytes do not fit. -/
def excess (d : Deframer) (data : List Byte) : Nat :=
  if kMaxBufferedBytes < (d.buffer ++ data).length then
    (d.buffer ++ data).length - kMaxBufferedBytes
  else 0

theorem length_drop_excess (d : Deframer) (data : List Byte) :
    ((d.buffer ++ data).drop (d.excess data)).length ≤ kMaxBufferedBytes := by
  rw [List.length_drop, excess]
  split <;> omega

/-- `Feed`: what does not fit is dropped from the front. -/
def feed (d : Deframer) (data : List Byte) : Deframer :=
  { d with
    buffer := (d.buffer ++ data).drop (d.excess data)
    resyncDrops := d.resyncDrops + d.excess data
    capped := d.length_drop_excess data }

end Deframer

/-- What the loop over the buffer ends with: the first frame, or the first candidate that is
    incomplete. -/
inductive Found
  | frame (place : Nat) (v : FrameView)
  | nothing (firstIncomplete : Option Nat)

/-- The loop of `NextPayload` from a place on, and the bad candidates it counted. -/
def scan (place : Nat) (firstIncomplete : Option Nat) (crcErrors : Nat) : List Byte → Found × Nat
  | [] => (.nothing firstIncomplete, crcErrors)
  | b :: rest =>
    let v := inspect (b :: rest)
    match v.state with
    | .valid => (.frame place v, crcErrors)
    | .incomplete => scan (place + 1) (some (firstIncomplete.getD place)) crcErrors rest
    | .badCrc => scan (place + 1) firstIncomplete (crcErrors + 1) rest
    | .invalid => scan (place + 1) firstIncomplete crcErrors rest

namespace Deframer

theorem drop_capped (d : Deframer) (n : Nat) : (d.buffer.drop n).length ≤ kMaxBufferedBytes := by
  have h := d.capped
  rw [List.length_drop]
  omega

def nextPayload (d : Deframer) : Option (List Byte) × Deframer :=
  match scan 0 none 0 d.buffer with
  | (.frame place v, bad) =>
    (some ((d.buffer.drop (place + v.payloadOffset)).take v.payloadLen),
      { buffer := d.buffer.drop (place + v.frameLen), crcErrors := d.crcErrors + bad
        resyncDrops := d.resyncDrops + place, capped := d.drop_capped _ })
  | (.nothing firstIncomplete, bad) =>
    let keepFrom := firstIncomplete.getD d.buffer.length
    (none,
      { buffer := d.buffer.drop keepFrom, crcErrors := d.crcErrors + bad
        resyncDrops := d.resyncDrops + keepFrom, capped := d.drop_capped _ })

/-- `while (auto payload = NextPayload())`, with at most so many rounds. -/
def drain (d : Deframer) : Nat → List (List Byte) × Deframer
  | 0 => ([], d)
  | rounds + 1 =>
    match d.nextPayload with
    | (none, d') => ([], d')
    | (some payload, d') =>
      let r := d'.drain rounds
      (payload :: r.1, r.2)

/-- A call of `Feed`, and what is taken out after it. -/
def take (d : Deframer) (chunk : List Byte) : List (List Byte) × Deframer :=
  (d.feed chunk).drain ((d.feed chunk).buffer.length + 1)

/-- Chunk after chunk. -/
def run (d : Deframer) : List (List Byte) → List (List Byte) × Deframer
  | [] => ([], d)
  | chunk :: chunks =>
    let r := d.take chunk
    let r' := r.2.run chunks
    (r.1 ++ r'.1, r'.2)

end Deframer

/-! ## Frames -/

/-- A well-formed frame and its payload; the long header is accepted for any length. -/
inductive IsFrame : List Byte → List Byte → Prop
  | small (payload : List Byte) (hpos : 0 < payload.length) (hlen : payload.length < 256) :
    IsFrame (smallFrame payload) payload
  | large (payload : List Byte) (hpos : 0 < payload.length)
    (hlen : payload.length ≤ kMaxPayloadSize) : IsFrame (largeFrame payload) payload

variable {payload rest : List Byte}

theorem isFrame_buildFrame (hpos : 0 < payload.length) (hlen : payload.length ≤ kMaxPayloadSize) :
    IsFrame (buildFrame payload) payload := by
  unfold buildFrame
  split
  · next h => exact .small payload hpos h
  · exact .large payload hpos hlen

theorem length_trailer (payload : List Byte) : (trailer payload).length = 3 := rfl

theorem length_smallFrame (payload : List Byte) :
    (smallFrame payload).length = kSmallHeaderSize + payload.length + kTrailerSize := by
  simp only [smallFrame, List.length_cons, List.length_append, length_trailer, kSmallHeaderSize,
    kTrailerSize]
  omega

theorem length_largeFrame (payload : List Byte) :
    (largeFrame payload).length = kLargeHeaderSize + payload.length + kTrailerSize := by
  simp only [largeFrame, List.length_cons, List.length_append, length_trailer, kLargeHeaderSize,
    kTrailerSize]
  omega

/-- Behind a header stands a payload with its checksum. -/
theorem getD_trailer (header payload tail : List Byte) (i : Nat) :
    (header ++ (payload ++ trailer payload ++ tail)).getD (header.length + payload.length + i) 0#8 =
      (trailer payload ++ tail).getD i 0#8 := by
  rw [List.getD_append_right _ _ _ _ (by omega), List.append_assoc,
    List.getD_append_right _ _ _ _ (by omega)]
  congr 1
  omega

theorem inspectBody_frame (header payload tail : List Byte) (hpos : 0 < payload.length)
    (hlen : payload.length ≤ kMaxPayloadSize) :
    inspectBody (header ++ (payload ++ trailer payload ++ tail)) header.length payload.length =
      { state := .valid, payloadOffset := header.length, payloadLen := payload.length
        frameLen := header.length + payload.length + kTrailerSize } := by
  have h0 := getD_trailer header payload tail 0
  have h1 := getD_trailer header payload tail 1
  have h2 := getD_trailer header payload tail 2
  have hlong : ¬(header ++ (payload ++ trailer payload ++ tail)).length <
      header.length + payload.length + kTrailerSize := by
    simp only [List.length_append, length_trailer, kTrailerSize]
    omega
  unfold inspectBody
  rw [if_neg (by omega), if_neg hlong]
  dsimp only
  rw [Nat.add_zero] at h0
  rw [h0, h1, h2, List.drop_left, List.append_assoc, List.take_left, if_neg]
  rintro (heof | hcrc)
  · exact heof rfl
  · refine hcrc ?_
    rw [BitVec.or_comm]
    exact Wire.word_of_bytes (crc16Xmodem payload)

theorem inspect_small (hlong : kMinFrameSize ≤ rest.length)
    (hsof : rest.getD 0 0#8 = kSofSmallFrame) :
    inspect rest = inspectBody rest kSmallHeaderSize (rest.getD 1 0#8).toNat := by
  unfold inspect
  dsimp only
  rw [if_neg (Nat.not_lt_of_le hlong), if_pos hsof]

theorem inspect_large (hlong : kLargeHeaderSize + kTrailerSize ≤ rest.length)
    (hsof : rest.getD 0 0#8 = kSofLargeFrame) :
    inspect rest = inspectBody rest kLargeHeaderSize
      ((rest.getD 1 0#8).toNat * 256 + (rest.getD 2 0#8).toNat) := by
  have hne : ¬rest.getD 0 0#8 = kSofSmallFrame := by
    rw [hsof]
    decide
  have hmin : ¬rest.length < kMinFrameSize := by
    simp only [kMinFrameSize, kSmallHeaderSize, kLargeHeaderSize] at hlong ⊢
    omega
  unfold inspect
  dsimp only
  rw [if_neg hmin, if_neg hne, if_pos hsof, if_neg (Nat.not_lt_of_le hlong)]

/-- Before the header is complete a start byte is all there is. -/
theorem inspect_header (h : rest.getD 0 0#8 = kSofSmallFrame ∧ rest.length < kMinFrameSize ∨
      rest.getD 0 0#8 = kSofLargeFrame ∧ rest.length < kLargeHeaderSize + kTrailerSize) :
    (inspect rest).state = .incomplete := by
  unfold inspect
  dsimp only
  rcases h with ⟨hsof, hshort⟩ | ⟨hsof, hshort⟩
  · rw [if_pos hshort, if_pos (.inl hsof)]
    rfl
  · by_cases hmin : rest.length < kMinFrameSize
    · rw [if_pos hmin, if_pos (.inr hsof)]
      rfl
    · have hne : ¬rest.getD 0 0#8 = kSofSmallFrame := by
        rw [hsof]
        decide
      rw [if_neg hmin, if_neg hne, if_pos hsof, if_pos hshort]
      rfl

variable {n : Nat} {f : List Byte}

theorem ofNat_length_small (h : n < 256) : (BitVec.ofNat 8 n).toNat = n := by
  rw [BitVec.toNat_ofNat]
  exact Nat.mod_eq_of_lt h

theorem ofNat_length_large (h : n ≤ kMaxPayloadSize) :
    (BitVec.ofNat 8 (n / 256)).toNat * 256 + (BitVec.ofNat 8 n).toNat = n := by
  rw [BitVec.toNat_ofNat, BitVec.toNat_ofNat]
  simp only [kMaxPayloadSize] at h
  omega

/-- A frame is seen for one, whatever follows. -/
theorem inspect_frame (h : IsFrame f payload) (tail : List Byte) :
    (inspect (f ++ tail)).state = .valid ∧ (inspect (f ++ tail)).frameLen = f.length ∧
      ((f ++ tail).drop (inspect (f ++ tail)).payloadOffset).take
        (inspect (f ++ tail)).payloadLen = payload := by
  have hpayload : (payload ++ trailer payload ++ tail).take payload.length = payload := by
    rw [List.append_assoc, List.take_left]
  cases h with
  | small _ hpos hlen =>
    have hview : inspect (smallFrame payload ++ tail) = _ :=
      inspect_small (by
        rw [List.length_append, length_smallFrame]
        simp only [kMinFrameSize]
        omega) rfl
    have hbody : inspectBody (smallFrame payload ++ tail) kSmallHeaderSize payload.length =
        { state := .valid, payloadOffset := kSmallHeaderSize, payloadLen := payload.length
          frameLen := kSmallHeaderSize + payload.length + kTrailerSize } :=
      inspectBody_frame [kSofSmallFrame, BitVec.ofNat 8 payload.length] payload tail hpos
        (by simp only [kMaxPayloadSize]; omega)
    have hlength : ((smallFrame payload ++ tail).getD 1 0#8).toNat = payload.length :=
      ofNat_length_small hlen
    rw [hview, hlength, hbody, length_smallFrame]
    exact ⟨rfl, rfl, hpayload⟩
  | large _ hpos hlen =>
    have hview : inspect (largeFrame payload ++ tail) = _ :=
      inspect_large (by
        rw [List.length_append, length_largeFrame]
        omega) rfl
    have hbody : inspectBody (largeFrame payload ++ tail) kLargeHeaderSize payload.length =
        { state := .valid, payloadOffset := kLargeHeaderSize, payloadLen := payload.length
          frameLen := kLargeHeaderSize + payload.length + kTrailerSize } :=
      inspectBody_frame [kSofLargeFrame, BitVec.ofNat 8 (payload.length / 256),
        BitVec.ofNat 8 payload.length] payload tail hpos hlen
    have hlength : ((largeFrame payload ++ tail).getD 1 0#8).toNat * 256 +
        ((largeFrame payload ++ tail).getD 2 0#8).toNat = payload.length :=
      ofNat_length_large hlen
    rw [hview, hlength, hbody, length_largeFrame]
    exact ⟨rfl, rfl, hpayload⟩

theorem getD_prefix {q : List Byte} (h : q <+: f) {i : Nat} (hi : i < q.length) :
    q.getD i 0#8 = f.getD i 0#8 := by
  obtain ⟨r, rfl⟩ := h
  exact (List.getD_append _ _ _ _ hi).symm

theorem inspectBody_short {header : Nat} (hpos : 0 < n) (hlen : n ≤ kMaxPayloadSize)
    (h : rest.length < header + n + kTrailerSize) :
    (inspectBody rest header n).state = .incomplete := by
  unfold inspectBody
  rw [if_neg (by omega), if_pos h]

/-- The start of a frame is seen for one that is incomplete. -/
theorem inspect_prefix {q : List Byte} (h : IsFrame f payload) (hq : q <+: f) (hpos : 0 < q.length)
    (hlt : q.length < f.length) : (inspect q).state = .incomplete := by
  have hfirst := getD_prefix hq hpos
  cases h with
  | small _ hp hlen =>
    by_cases hshort : q.length < kMinFrameSize
    · exact inspect_header (.inl ⟨hfirst, hshort⟩)
    · have hlong := Nat.le_of_not_lt hshort
      have hsecond := getD_prefix hq (i := 1) (Nat.lt_of_lt_of_le (by decide) hlong)
      have hlength : (q.getD 1 0#8).toNat = payload.length := by
        rw [hsecond]
        exact ofNat_length_small hlen
      rw [inspect_small hlong hfirst, hlength]
      refine inspectBody_short hp (by simp only [kMaxPayloadSize]; omega) ?_
      rw [← length_smallFrame]
      exact hlt
  | large _ hp hlen =>
    by_cases hshort : q.length < kLargeHeaderSize + kTrailerSize
    · exact inspect_header (.inr ⟨hfirst, hshort⟩)
    · have hlong := Nat.le_of_not_lt hshort
      have hsecond := getD_prefix hq (i := 1) (Nat.lt_of_lt_of_le (by decide) hlong)
      have hthird := getD_prefix hq (i := 2) (Nat.lt_of_lt_of_le (by decide) hlong)
      have hlength : (q.getD 1 0#8).toNat * 256 + (q.getD 2 0#8).toNat = payload.length := by
        rw [hsecond, hthird]
        exact ofNat_length_large hlen
      rw [inspect_large hlong hfirst, hlength]
      refine inspectBody_short hp hlen ?_
      rw [← length_largeFrame]
      exact hlt

theorem drop_three {l : List Byte} {k : Nat} (h : k + 3 ≤ l.length) :
    l.drop k = [l.getD k 0#8, l.getD (k + 1) 0#8, l.getD (k + 2) 0#8] ++ l.drop (k + 3) := by
  rw [List.drop_eq_getElem_cons (show k < l.length by omega),
    List.drop_eq_getElem_cons (show k + 1 < l.length by omega),
    List.drop_eq_getElem_cons (show k + 1 + 1 < l.length by omega),
    List.getD_eq_getElem _ _ (show k < l.length by omega),
    List.getD_eq_getElem _ _ (show k + 1 < l.length by omega),
    List.getD_eq_getElem _ _ (show k + 2 < l.length by omega)]
  rfl

/-- What is valid behind a header is a payload with its checksum. -/
theorem inspectBody_valid {header : Nat} (h : (inspectBody rest header n).state = .valid) :
    0 < n ∧ n ≤ kMaxPayloadSize ∧ ∃ payload tail, payload.length = n ∧
      rest.drop header = payload ++ trailer payload ++ tail := by
  unfold inspectBody at h
  by_cases hrange : n = 0 ∨ kMaxPayloadSize < n
  · rw [if_pos hrange] at h
    cases h
  · rw [if_neg hrange] at h
    by_cases hshort : rest.length < header + n + kTrailerSize
    · rw [if_pos hshort] at h
      cases h
    · rw [if_neg hshort] at h
      dsimp only at h
      by_cases hbad : rest.getD (header + n + 2) 0#8 ≠ kEof ∨
          ((rest.getD (header + n) 0#8).setWidth 16 <<< 8) |||
            (rest.getD (header + n + 1) 0#8).setWidth 16 ≠
          crc16Xmodem ((rest.drop header).take n)
      · rw [if_pos hbad] at h
        cases h
      · simp only [kTrailerSize] at hshort
        refine ⟨by omega, by omega, (rest.drop header).take n, rest.drop (header + n + 3), ?_, ?_⟩
        · rw [List.length_take, List.length_drop]
          omega
        · obtain ⟨heof, hcrc⟩ := not_or.1 hbad
          rw [not_not] at heof hcrc
          rw [BitVec.or_comm] at hcrc
          have htrailer : trailer ((rest.drop header).take n) =
              [rest.getD (header + n) 0#8, rest.getD (header + n + 1) 0#8,
                rest.getD (header + n + 2) 0#8] := by
            rw [trailer, ← hcrc, Wire.highByte_word, Wire.lowByte_word, heof]
          rw [htrailer, List.append_assoc, ← drop_three (by omega), ← List.drop_drop,
            List.take_append_drop]

theorem eq_header_small {l : List Byte} (h : 2 ≤ l.length) :
    l = [l.getD 0 0#8, l.getD 1 0#8] ++ l.drop 2 := by
  cases l with
  | nil => cases h
  | cons a l =>
    cases l with
    | nil => exact absurd h (by simp)
    | cons b l => rfl

/-- What is seen for a frame is one. -/
theorem inspect_valid (h : (inspect rest).state = .valid) :
    ∃ f payload tail, IsFrame f payload ∧ rest = f ++ tail := by
  unfold inspect at h
  dsimp only at h
  by_cases hmin : rest.length < kMinFrameSize
  · rw [if_pos hmin] at h
    split at h <;> cases h
  · rw [if_neg hmin] at h
    simp only [kMinFrameSize, kSmallHeaderSize, kTrailerSize] at hmin
    by_cases hsmall : rest.getD 0 0#8 = kSofSmallFrame
    · rw [if_pos hsmall] at h
      obtain ⟨hpos, -, payload, tail, hlen, hbody⟩ := inspectBody_valid h
      have hbyte : BitVec.ofNat 8 payload.length = rest.getD 1 0#8 := by
        rw [hlen]
        exact BitVec.eq_of_toNat_eq (ofNat_length_small (rest.getD 1 0#8).isLt)
      refine ⟨smallFrame payload, payload, tail, .small payload (by omega) ?_, ?_⟩
      · rw [hlen]
        exact (rest.getD 1 0#8).isLt
      · rw [smallFrame, hbyte, ← hsmall]
        show rest = [rest.getD 0 0#8, rest.getD 1 0#8] ++ (payload ++ trailer payload ++ tail)
        rw [← hbody]
        exact eq_header_small (by omega)
    · rw [if_neg hsmall] at h
      by_cases hlarge : rest.getD 0 0#8 = kSofLargeFrame
      · rw [if_pos hlarge] at h
        split at h
        · cases h
        · obtain ⟨hpos, hmax, payload, tail, hlen, hbody⟩ := inspectBody_valid h
          have hhigh : BitVec.ofNat 8 (payload.length / 256) = rest.getD 1 0#8 := by
            have hlt := (rest.getD 2 0#8).isLt
            rw [hlen]
            refine BitVec.eq_of_toNat_eq ?_
            rw [BitVec.toNat_ofNat]
            have hlt' := (rest.getD 1 0#8).isLt
            omega
          have hlow : BitVec.ofNat 8 payload.length = rest.getD 2 0#8 := by
            have hlt := (rest.getD 2 0#8).isLt
            rw [hlen]
            refine BitVec.eq_of_toNat_eq ?_
            rw [BitVec.toNat_ofNat]
            omega
          refine ⟨largeFrame payload, payload, tail, .large payload (by omega) (by omega), ?_⟩
          rw [largeFrame, hhigh, hlow, ← hlarge]
          show rest = [rest.getD 0 0#8, rest.getD 1 0#8, rest.getD 2 0#8] ++
            (payload ++ trailer payload ++ tail)
          rw [← hbody]
          exact drop_three (k := 0) (by omega)
      · rw [if_neg hlarge] at h
        cases h

end Vesc
end OpenMower
end Mowgli
