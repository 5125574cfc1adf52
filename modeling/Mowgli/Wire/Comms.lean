import Mathlib.Data.List.GetD
import Mowgli.Lib.Receiver
import Mowgli.Wire.Cobs

/-!
# Comms — the packet layer of the firmware

The receiver collects bytes up to a zero, decodes what it has collected into a scratch
buffer of 64 bytes, and calls the handler of the packet. It is fed by the USB interrupt,
with whatever is on the wire.

What it does to the scratch buffer and to the handlers is an `Effect`. `Holds` says what
the receive buffer holds after any run: **the first 512 bytes since the last delimiter**. A
frame that was too long for it is therefore still too long for the decoder when it ends.
-/

namespace Mowgli
namespace Wire

open Stuffing (Byte)

def MOWGLI_COMMS_RX_BUF_SIZE : Nat := 512
def MOWGLI_COMMS_MAX_HANDLERS : Nat := 16
def MAX_RAW_PKT_SIZE : Nat := 64
def MIN_RAW_PKT_SIZE : Nat := 3

/-- `COBS_MAX_ENCODED_SIZE`. -/
def cobsMaxEncodedSize (rawLen : Nat) : Nat := rawLen + rawLen / 254 + 1

def MAX_ENC_PKT_SIZE : Nat := cobsMaxEncodedSize MAX_RAW_PKT_SIZE

/-- The statics of `mowgli_comms.c`; a handler is a `κ`. -/
structure Comms (κ : Type) where
  /-- `s_rx_buf`, up to `s_rx_write`. -/
  rxBuf : List Byte
  handlers : List (Byte × Option κ)
  rxOverflowCount : BitVec 32
  crcErrorCount : BitVec 32

inductive Effect (κ : Type) where
  /-- `cobs_decode` is entered with these bytes. -/
  | decode (input : List Byte)
  | fault (f : Fault)
  /-- A handler is called with the first `len` bytes of the scratch buffer. -/
  | call (handler : κ) (scratch : List Byte) (len : Nat)

namespace Comms

variable {κ : Type}

/-- `mowgli_comms_init`, and the statics at startup. -/
def init : Comms κ := { rxBuf := [], handlers := [], rxOverflowCount := 0#32, crcErrorCount := 0#32 }

/-- `mowgli_comms_register_handler`. -/
def registerHandler (packetId : Byte) (handler : Option κ) (s : Comms κ) : Comms κ :=
  if s.handlers.any (·.1 == packetId) then
    -- The first entry of the id is updated in place.
    { s with handlers := s.handlers.modify (s.handlers.findIdx (·.1 == packetId)) fun e =>
        (e.1, handler) }
  else if s.handlers.length < MOWGLI_COMMS_MAX_HANDLERS then
    { s with handlers := s.handlers ++ [(packetId, handler)] }
  else s

/-- The handler that gets a packet of this type. -/
def handlerOf (s : Comms κ) (pktType : Byte) : Option κ :=
  s.handlers.findSome? fun e => if e.1 = pktType then e.2 else none

def countCrcError (s : Comms κ) : Comms κ := { s with crcErrorCount := s.crcErrorCount + 1#32 }

/-- `process_frame`, from the decoded packet on. -/
def dispatch (decoded : List Byte) (s : Comms κ) : Comms κ × List (Effect κ) :=
  if decoded.length = 0 then (s.countCrcError, [])
  else if decoded.length < MIN_RAW_PKT_SIZE then (s.countCrcError, [])
  else if !crcMatches decoded then (s.countCrcError, [])
  else
    match s.handlerOf (decoded.getD 0 0#8) with
    | some handler => (s, [.call handler decoded (decoded.length - 2)])
    | none => (s, [])

/-- `process_frame`. -/
def processFrame (frame : List Byte) (s : Comms κ) : Comms κ × List (Effect κ) :=
  if frame.length = 0 then (s, [])
  else if MAX_ENC_PKT_SIZE < frame.length then (s.countCrcError, [])
  else
    match Firmware.cobsDecode MAX_RAW_PKT_SIZE frame with
    | .error f => (s, [.decode frame, .fault f])
    | .ok decoded =>
      let r := dispatch (decoded.getD []) s
      (r.1, .decode frame :: r.2)

/-- One byte of `mowgli_comms_process_rx`. -/
def rxByte (s : Comms κ) (byte : Byte) : Comms κ × List (Effect κ) :=
  if byte = 0#8 then
    let r := processFrame s.rxBuf s
    ({ r.1 with rxBuf := [] }, r.2)
  else if s.rxBuf.length < MOWGLI_COMMS_RX_BUF_SIZE then
    ({ s with rxBuf := s.rxBuf ++ [byte] }, [])
  else ({ s with rxOverflowCount := s.rxOverflowCount + 1#32 }, [])

/-- `mowgli_comms_process_rx` feeds it. -/
def receiver (κ : Type) : Receiver Byte (Comms κ) (Effect κ) := ⟨rxByte⟩

/-- `mowgli_comms_reset_rx`. -/
def resetRx (s : Comms κ) : Comms κ := { s with rxBuf := [] }

/-- `mowgli_comms_send`: the frame that is handed to USB, if the length is one of a packet. -/
def send (packet : List Byte) : Option (List Byte) :=
  if packet.length < MIN_RAW_PKT_SIZE ∨ MAX_RAW_PKT_SIZE < packet.length then none
  else some (0#8 :: (Firmware.cobsEncode (storeCrc packet) ++ [0#8]))

/-! ## The handlers -/

/-! ## A frame -/

variable {s : Comms κ} {frame : List Byte}

theorem processFrame_long (h : 65 < frame.length) :
    processFrame frame s = (s.countCrcError, []) := by
  unfold processFrame
  rw [if_neg (by omega), if_pos (by exact h)]

/-- The decoder is given what it has room for. -/
theorem processFrame_short (h : frame.length ≤ 65) (hne : frame ≠ []) :
    processFrame frame s = ((dispatch ((Stuffing.unstuff frame).getD []) s).1,
      .decode frame :: (dispatch ((Stuffing.unstuff frame).getD []) s).2) := by
  have hlength : frame.length ≠ 0 := fun he => hne (List.length_eq_zero_iff.1 he)
  have hmax : ¬MAX_ENC_PKT_SIZE < frame.length := by
    show ¬65 < frame.length
    omega
  unfold processFrame Firmware.cobsDecode
  rw [if_neg hlength, if_neg hmax, decode_eq (show frame.length ≤ MAX_RAW_PKT_SIZE + 1 from h)]

theorem processFrame_nil : processFrame [] s = (s, []) := rfl

theorem dispatch_handlers {decoded : List Byte} : (dispatch decoded s).1.handlers = s.handlers := by
  unfold dispatch
  split
  · rfl
  · split
    · rfl
    · split
      · rfl
      · split
        · rfl
        · rfl

theorem processFrame_handlers : (processFrame frame s).1.handlers = s.handlers := by
  by_cases hne : frame = []
  · rw [hne, processFrame_nil]
  · by_cases hlong : 65 < frame.length
    · rw [processFrame_long hlong]; rfl
    · rw [processFrame_short (by omega) hne]
      exact dispatch_handlers

theorem rxByte_handlers {byte : Byte} : (rxByte s byte).1.handlers = s.handlers := by
  unfold rxByte
  split
  · exact processFrame_handlers
  · split
    · rfl
    · rfl

/-! ## A packet -/

/-- The handler of a packet is called with it, if there is one. -/
def called (s : Comms κ) (payload : List Byte) : List (Effect κ) :=
  ((s.handlerOf (payload.getD 0 0#8)).map fun handler =>
    .call handler (withCrc payload) payload.length).toList

theorem dispatch_withCrc {payload : List Byte} (hne : payload ≠ []) :
    dispatch (withCrc payload) s = (s, s.called payload) := by
  have hpos : 0 < payload.length := List.length_pos_iff.2 hne
  have hlength : (withCrc payload).length = payload.length + 2 := length_withCrc payload
  have hmin : ¬(withCrc payload).length < MIN_RAW_PKT_SIZE := by
    show ¬(withCrc payload).length < 3
    omega
  have hcrc : ¬(!crcMatches (withCrc payload)) = true := by
    rw [crcMatches_withCrc]
    decide
  have hfirst : (withCrc payload).getD 0 0#8 = payload.getD 0 0#8 := by
    unfold withCrc
    rw [List.getD_append _ _ _ _ hpos]
  unfold dispatch called
  rw [if_neg (by omega), if_neg hmin, if_neg hcrc, hfirst, hlength, Nat.add_sub_cancel]
  cases s.handlerOf (payload.getD 0 0#8) with
  | none => rfl
  | some handler => rfl

/-- Bytes that fit are collected. -/
theorem collect {w : List Byte} (hw : ∀ b ∈ w, b ≠ 0#8)
    (hl : s.rxBuf.length + w.length ≤ MOWGLI_COMMS_RX_BUF_SIZE) :
    (receiver κ).state s w = { s with rxBuf := s.rxBuf ++ w } ∧
      (receiver κ).delivered s w = [] := by
  induction w generalizing s with
  | nil => simp
  | cons b w ih =>
    rw [List.length_cons] at hl
    have hb : b ≠ 0#8 := hw b (by simp)
    have htake : (receiver κ).take s b = ({ s with rxBuf := s.rxBuf ++ [b] }, []) := by
      show rxByte s b = _
      unfold rxByte
      rw [if_neg hb, if_pos (by omega)]
    have hroom : (s.rxBuf ++ [b]).length + w.length ≤ MOWGLI_COMMS_RX_BUF_SIZE := by simp; omega
    have hcollect := ih (fun x hx => hw x (by simp [hx]))
      (show ({ s with rxBuf := s.rxBuf ++ [b] } : Comms κ).rxBuf.length + w.length ≤ _ from hroom)
    rw [Receiver.state_cons, Receiver.delivered_cons, htake, hcollect.1, hcollect.2]
    simp

/-- With an empty buffer, the stuffed packet and its delimiter are the call of its handler. -/
theorem deliver (hi : s.rxBuf = []) {payload : List Byte} (hne : payload ≠ [])
    (hl : payload.length ≤ 62) :
    (receiver κ).state s (Stuffing.stuff (withCrc payload) ++ [0#8]) = s ∧
      (receiver κ).delivered s (Stuffing.stuff (withCrc payload) ++ [0#8]) =
        .decode (Stuffing.stuff (withCrc payload)) :: s.called payload := by
  have hstuffed : (Stuffing.stuff (withCrc payload)).length ≤ 65 := by
    have := @Stuffing.length_stuff_le (withCrc payload)
    rw [length_withCrc] at this
    omega
  obtain ⟨hs, hd⟩ := collect Stuffing.stuff_ne_zero
    (show s.rxBuf.length + (Stuffing.stuff (withCrc payload)).length ≤ MOWGLI_COMMS_RX_BUF_SIZE by
      rw [hi]
      show 0 + _ ≤ 512
      omega)
  rw [hi, List.nil_append] at hs
  have hframe : ∀ s' : Comms κ, processFrame (Stuffing.stuff (withCrc payload)) s' =
      (s', .decode (Stuffing.stuff (withCrc payload)) :: s'.called payload) := by
    intro s'
    rw [processFrame_short hstuffed Stuffing.stuff_ne_nil, Stuffing.unstuff_stuff, Option.getD_some,
      dispatch_withCrc hne]
  have hdelimiter : rxByte { s with rxBuf := Stuffing.stuff (withCrc payload) } 0#8 =
      (s, .decode (Stuffing.stuff (withCrc payload)) :: s.called payload) := by
    unfold rxByte
    rw [if_pos rfl, hframe]
    cases s
    cases hi
    rfl
  rw [Receiver.state_append, Receiver.delivered_append, hs, hd]
  constructor
  · show (rxByte _ 0#8).1 = s
    rw [hdelimiter]
  · show [] ++ ((rxByte _ 0#8).2 ++ []) = _
    rw [hdelimiter]
    simp

/-! ## Any run -/

/-- What is done to the receiver. -/
inductive Op (κ : Type) where
  | processRx (data : List Byte)
  | resetRx
  | registerHandler (packetId : Byte) (handler : Option κ)

def exec (s : Comms κ) : Op κ → Comms κ × List (Effect κ)
  | .processRx data => ((receiver κ).state s data, (receiver κ).delivered s data)
  | .resetRx => (s.resetRx, [])
  | .registerHandler packetId handler => (s.registerHandler packetId handler, [])

/-- The operations one after the other. -/
def machine (κ : Type) : Receiver (Op κ) (Comms κ) (Effect κ) := ⟨exec⟩

/-- The bytes of the frame that is not ended yet. -/
def pendingBytes (pending : List Byte) : List Byte → List Byte
  | [] => pending
  | b :: data => pendingBytes (if b = 0#8 then [] else pending ++ [b]) data

def pendingFrom (pending : List Byte) : List (Op κ) → List Byte
  | [] => pending
  | .processRx data :: ops => pendingFrom (pendingBytes pending data) ops
  | .resetRx :: ops => pendingFrom [] ops
  | .registerHandler _ _ :: ops => pendingFrom pending ops

/-- The bytes that came since the last delimiter or reset. -/
def pending (ops : List (Op κ)) : List Byte := pendingFrom [] ops

/-- The receive buffer holds what there is room for of the unfinished frame. -/
structure Holds (s : Comms κ) (frame : List Byte) : Prop where
  buffer : s.rxBuf = frame.take MOWGLI_COMMS_RX_BUF_SIZE
  ne_zero : ∀ b ∈ frame, b ≠ 0#8

namespace Holds

variable {s : Comms κ} {frame : List Byte}

theorem rxByte (h : s.Holds frame) (b : Byte) :
    (s.rxByte b).1.Holds (if b = 0#8 then [] else frame ++ [b]) := by
  unfold Comms.rxByte
  by_cases hb : b = 0#8
  · rw [if_pos hb, if_pos hb]
    exact ⟨rfl, by simp⟩
  · rw [if_neg hb, if_neg hb]
    have hne : ∀ x ∈ frame ++ [b], x ≠ 0#8 := by
      intro x hx
      rcases List.mem_append.1 hx with hx | hx
      · exact h.ne_zero x hx
      · rw [List.mem_singleton.1 hx]; exact hb
    by_cases hroom : s.rxBuf.length < MOWGLI_COMMS_RX_BUF_SIZE
    · rw [if_pos hroom]
      refine ⟨?_, hne⟩
      have hshort : frame.length < MOWGLI_COMMS_RX_BUF_SIZE := by
        rw [h.buffer, List.length_take] at hroom
        omega
      show s.rxBuf ++ [b] = _
      rw [h.buffer, List.take_of_length_le (by omega), List.take_of_length_le (by simp; omega)]
    · rw [if_neg hroom]
      refine ⟨?_, hne⟩
      have hlong : MOWGLI_COMMS_RX_BUF_SIZE ≤ frame.length := by
        rw [h.buffer, List.length_take] at hroom
        omega
      show s.rxBuf = _
      rw [h.buffer, List.take_append_of_le_length hlong]

theorem state (h : s.Holds frame) (data : List Byte) :
    ((receiver κ).state s data).Holds (pendingBytes frame data) := by
  induction data generalizing s frame with
  | nil => exact h
  | cons b data ih => exact ih (h.rxByte b)

theorem registerHandler (h : s.Holds frame) (packetId : Byte) (handler : Option κ) :
    (s.registerHandler packetId handler).Holds frame := by
  unfold Comms.registerHandler
  split
  · exact ⟨h.buffer, h.ne_zero⟩
  · split
    · exact ⟨h.buffer, h.ne_zero⟩
    · exact h

theorem run (h : s.Holds frame) (ops : List (Op κ)) :
    ((machine κ).state s ops).Holds (pendingFrom frame ops) := by
  induction ops generalizing s frame with
  | nil => exact h
  | cons op ops ih =>
    cases op with
    | processRx data => exact ih (h.state data)
    | resetRx => exact ih (⟨rfl, by simp⟩ : s.resetRx.Holds [])
    | registerHandler packetId handler => exact ih (h.registerHandler packetId handler)

theorem short (h : s.Holds frame) : s.rxBuf.length ≤ MOWGLI_COMMS_RX_BUF_SIZE := by
  rw [h.buffer, List.length_take]
  exact Nat.min_le_left _ _

theorem rxBuf_ne_zero (h : s.Holds frame) : ∀ b ∈ s.rxBuf, b ≠ 0#8 := by
  intro b hb
  rw [h.buffer] at hb
  exact h.ne_zero b (List.mem_of_mem_take hb)

end Holds

theorem holds_init : (init : Comms κ).Holds [] := ⟨rfl, by simp⟩

theorem holds_run (ops : List (Op κ)) :
    ((machine κ).state init ops).Holds (pending ops) :=
  holds_init.run ops

/-! ## What the decoder and the handlers are given -/

/-- The decoder is entered with 1 to 65 bytes, none zero, and stays within its buffers; a
    handler is called with 1 to 62 bytes that their checksum follows. -/
def Effect.Bounded : Effect κ → Prop
  | .decode input => 1 ≤ input.length ∧ input.length ≤ 65 ∧ ∀ b ∈ input, b ≠ 0#8
  | .fault _ => False
  | .call _ scratch len => 1 ≤ len ∧ len ≤ 62 ∧ scratch = withCrc (scratch.take len)

theorem dispatch_bounded {decoded : List Byte} (h : decoded.length ≤ 64) :
    ∀ e ∈ (dispatch decoded s).2, Effect.Bounded e := by
  intro e he
  unfold dispatch at he
  split at he
  · exact absurd he (by simp)
  · split at he
    · exact absurd he (by simp)
    · rename_i hmin
      split at he
      · exact absurd he (by simp)
      · rename_i hcrc
        have hlength : 3 ≤ decoded.length := Nat.le_of_not_lt hmin
        have hmatch : crcMatches decoded = true := by simpa using hcrc
        split at he
        · rw [List.mem_singleton.1 he]
          exact ⟨by omega, by omega, eq_withCrc hmatch (by omega)⟩
        · exact absurd he (by simp)

theorem processFrame_bounded (h : ∀ b ∈ frame, b ≠ 0#8) :
    ∀ e ∈ (processFrame frame s).2, Effect.Bounded e := by
  by_cases hne : frame = []
  · rw [hne, processFrame_nil]
    simp
  · by_cases hlong : 65 < frame.length
    · rw [processFrame_long hlong]
      simp
    · have hpos : 0 < frame.length := List.length_pos_iff.2 hne
      have hdecoded : ((Stuffing.unstuff frame).getD []).length ≤ 64 := by
        cases hu : Stuffing.unstuff frame with
        | none => simp
        | some payload =>
          have := Stuffing.length_unstuff_lt hu hne
          simp
          omega
      rw [processFrame_short (by omega) hne]
      intro e he
      rcases List.mem_cons.1 he with rfl | he
      · exact ⟨hpos, by omega, h⟩
      · exact dispatch_bounded hdecoded e he

theorem rxByte_bounded (h : s.Holds frame) (b : Byte) : ∀ e ∈ (s.rxByte b).2, Effect.Bounded e := by
  unfold rxByte
  split
  · exact processFrame_bounded h.rxBuf_ne_zero
  · split
    · simp
    · simp

theorem delivered_bounded (h : s.Holds frame) (data : List Byte) :
    ∀ e ∈ (receiver κ).delivered s data, Effect.Bounded e := by
  have hkeeps : ∀ (s : Comms κ) b, (∃ frame, s.Holds frame) →
      ∃ frame, ((receiver κ).take s b).1.Holds frame :=
    fun s b ⟨_, hs⟩ => ⟨_, hs.rxByte b⟩
  exact Receiver.delivered_all hkeeps (fun s b ⟨_, hs⟩ => rxByte_bounded hs b) ⟨frame, h⟩ data

theorem run_bounded (h : s.Holds frame) (ops : List (Op κ)) :
    ∀ e ∈ (machine κ).delivered s ops, Effect.Bounded e := by
  have hkeeps : ∀ (s : Comms κ) op, (∃ frame, s.Holds frame) →
      ∃ frame, ((machine κ).take s op).1.Holds frame :=
    fun s op ⟨_, hs⟩ => ⟨_, hs.run [op]⟩
  refine Receiver.delivered_all hkeeps ?_ ⟨frame, h⟩ ops
  rintro s op ⟨frame, hs⟩
  cases op with
  | processRx data => exact delivered_bounded hs data
  | resetRx => intro e he; exact absurd he (by simp [machine, exec])
  | registerHandler packetId handler => intro e he; exact absurd he (by simp [machine, exec])

/-- **The receiver is bounded on hostile input.** After any operations the write index is in
    the buffer, and all that has been done is `Bounded`; a frame of more than 65 bytes does
    nothing when it ends, however much of it has been dropped. -/
theorem receiver_bounded (ops : List (Op κ)) :
    ((machine κ).state init ops).rxBuf.length ≤ MOWGLI_COMMS_RX_BUF_SIZE ∧
      (∀ e ∈ (machine κ).delivered init ops, Effect.Bounded e) ∧
      (65 < (pending ops).length →
        ((machine κ).state init ops).rxByte 0#8 =
          ((((machine κ).state init ops).countCrcError).resetRx, [])) := by
  have h := holds_run ops
  refine ⟨h.short, run_bounded holds_init ops, fun hlong => ?_⟩
  have hbuffer : 65 < ((machine κ).state init ops).rxBuf.length := by
    rw [h.buffer, List.length_take]
    show 65 < min 512 _
    omega
  unfold rxByte
  rw [if_pos rfl, processFrame_long hbuffer]
  rfl

end Comms
end Wire
end Mowgli
