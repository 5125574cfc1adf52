import Mowgli.Wire.Comms

/-!
# RoundTrip — the packet layer of the bridge, and the wire to it

The bridge drops a frame that outgrows its buffer as soon as it does, and waits for the next
delimiter; the firmware keeps the beginning and refuses it at the end. The bridge hands on a
packet with its checksum, the firmware without.

`deliver` is all the wire needs to know of it: at rest, the stuffed form of a packet and a
delimiter are the packet, and it is at rest again.
-/

namespace Mowgli
namespace Wire

section

open Stuffing (Byte)

/-- `PacketHandler`; the callback is told apart from none only. -/
structure PacketHandler where
  rxBuf : List Byte
  overflowed : Bool
  callback : Bool
  rxOk : BitVec 64
  rxCrcErrors : BitVec 64
  rxCobsErrors : BitVec 64
  rxOverflow : BitVec 64

namespace PacketHandler

def kMaxPacketBytes : Nat := 512

/-- `verify_crc`. -/
def verifyCrc (data : List Byte) : Bool := if data.length < 3 then false else crcMatches data

/-- `append_crc`. -/
def appendCrc (data : List Byte) : List Byte := if data.length < 2 then data else storeCrc data

/-- `dispatch_frame`, and what the callback is given. The decoder writes into as many bytes as
    it reads, so it makes no fault (`dispatchFrame_eq`). -/
def dispatchFrame (h : PacketHandler) : PacketHandler × List (List Byte) :=
  match Bridge.cobsDecode h.rxBuf.length h.rxBuf with
  | .error _ => (h, [])
  | .ok result =>
    let decoded := result.getD []
    if decoded.length = 0 then ({ h with rxCobsErrors := h.rxCobsErrors + 1#64 }, [])
    else if decoded.length < 3 then ({ h with rxCrcErrors := h.rxCrcErrors + 1#64 }, [])
    else if !verifyCrc decoded then ({ h with rxCrcErrors := h.rxCrcErrors + 1#64 }, [])
    else ({ h with rxOk := h.rxOk + 1#64 }, if h.callback then [decoded] else [])

/-- One byte of `feed`. -/
def feedByte (h : PacketHandler) (byte : Byte) : PacketHandler × List (List Byte) :=
  if byte = 0#8 then
    let r := if h.rxBuf ≠ [] then h.dispatchFrame else (h, [])
    ({ r.1 with rxBuf := [], overflowed := false }, r.2)
  else if h.overflowed then (h, [])
  else if kMaxPacketBytes ≤ h.rxBuf.length then
    ({ h with rxOverflow := h.rxOverflow + 1#64, overflowed := true, rxBuf := [] }, [])
  else ({ h with rxBuf := h.rxBuf ++ [byte] }, [])

/-- `feed` feeds it. -/
def receiver : Receiver Byte PacketHandler (List Byte) := ⟨feedByte⟩

/-- `SIZE_MAX` of the host. -/
def SIZE_MAX : Nat := 2 ^ 64 - 1

/-- `encode_packet`, or the text of what it throws. -/
def encodePacket (data : List Byte) : Except String (List Byte) :=
  if SIZE_MAX - 2 < data.length then .error "encode_packet: payload size overflow"
  else
    let encoded := Bridge.cobsEncode (appendCrc (data ++ [0#8, 0#8]))
    if SIZE_MAX - 2 < encoded.length then .error "encode_packet: frame size overflow"
    else .ok (0#8 :: (encoded ++ [0#8]))

/-! ## A frame -/

variable {h : PacketHandler}

theorem dispatchFrame_eq (hne : h.rxBuf ≠ []) :
    Bridge.cobsDecode h.rxBuf.length h.rxBuf = .ok (Stuffing.unstuff h.rxBuf) := by
  unfold Bridge.cobsDecode
  rw [if_neg fun he => hne (List.length_eq_zero_iff.1 he), decode_eq (Nat.le_succ _)]

/-- The frame of a packet is dispatched. -/
theorem dispatchFrame_stuff {payload : List Byte} (hne : payload ≠ [])
    (hbuf : h.rxBuf = Stuffing.stuff (withCrc payload)) :
    h.dispatchFrame =
      ({ h with rxOk := h.rxOk + 1#64 }, if h.callback then [withCrc payload] else []) := by
  have hnil : h.rxBuf ≠ [] := by
    rw [hbuf]
    exact Stuffing.stuff_ne_nil
  have hpos : 0 < payload.length := List.length_pos_iff.2 hne
  have hlength : (withCrc payload).length = payload.length + 2 := length_withCrc payload
  have hverify : verifyCrc (withCrc payload) = true := by
    unfold verifyCrc
    rw [if_neg (by omega)]
    exact crcMatches_withCrc payload
  unfold dispatchFrame
  rw [dispatchFrame_eq hnil, hbuf, Stuffing.unstuff_stuff]
  dsimp only [Option.getD_some]
  have hfails : ¬(!verifyCrc (withCrc payload)) = true := by
    rw [hverify]
    decide
  rw [if_neg (by omega), if_neg (by omega), if_neg hfails]

theorem dispatchFrame_callback : h.dispatchFrame.1.callback = h.callback := by
  unfold dispatchFrame
  split
  · rfl
  · dsimp only
    split
    · rfl
    · split
      · rfl
      · split
        · rfl
        · rfl

theorem feedByte_callback {b : Byte} : (h.feedByte b).1.callback = h.callback := by
  unfold feedByte
  split
  · dsimp only
    split
    · exact dispatchFrame_callback
    · rfl
  · split
    · rfl
    · split
      · rfl
      · rfl

/-- The buffer is empty, and no frame is being dropped. -/
structure Idle (h : PacketHandler) : Prop where
  rxBuf : h.rxBuf = []
  overflowed : h.overflowed = false
  callback : h.callback = true

/-- Bytes that fit are collected. -/
theorem collect {w : List Byte} (hw : ∀ b ∈ w, b ≠ 0#8) (ho : h.overflowed = false)
    (hl : h.rxBuf.length + w.length ≤ kMaxPacketBytes) :
    receiver.state h w = { h with rxBuf := h.rxBuf ++ w } ∧ receiver.delivered h w = [] := by
  induction w generalizing h with
  | nil => simp
  | cons b w ih =>
    rw [List.length_cons] at hl
    have hb : b ≠ 0#8 := hw b (by simp)
    have htake : receiver.take h b = ({ h with rxBuf := h.rxBuf ++ [b] }, []) := by
      show feedByte h b = _
      unfold feedByte
      rw [if_neg hb, ho, if_neg Bool.false_ne_true, if_neg (by omega)]
    rw [Receiver.state_cons, Receiver.delivered_cons, htake]
    have hroom : (h.rxBuf ++ [b]).length + w.length ≤ kMaxPacketBytes := by simp; omega
    have hcollect := ih (fun x hx => hw x (by simp [hx]))
      (show ({ h with rxBuf := h.rxBuf ++ [b] } : PacketHandler).overflowed = false from ho) hroom
    rw [hcollect.1, hcollect.2]
    simp

/-- At rest, the stuffed packet and its delimiter are delivered as the packet. -/
theorem deliver (hi : h.Idle) {payload : List Byte} (hne : payload ≠ []) (hl : payload.length ≤ 62)
    :
    (receiver.state h (Stuffing.stuff (withCrc payload) ++ [0#8])).Idle ∧
      receiver.delivered h (Stuffing.stuff (withCrc payload) ++ [0#8]) = [withCrc payload] := by
  have hstuffed : (Stuffing.stuff (withCrc payload)).length ≤ 65 := by
    have := @Stuffing.length_stuff_le (withCrc payload)
    rw [length_withCrc] at this
    omega
  obtain ⟨hs, hd⟩ := collect Stuffing.stuff_ne_zero hi.overflowed
    (show h.rxBuf.length + (Stuffing.stuff (withCrc payload)).length ≤ kMaxPacketBytes by
      rw [hi.rxBuf]
      show 0 + _ ≤ 512
      omega)
  rw [hi.rxBuf, List.nil_append] at hs
  rw [Receiver.state_append, Receiver.delivered_append, hs, hd]
  generalize hbuf : ({ h with rxBuf := Stuffing.stuff (withCrc payload) } : PacketHandler) = h'
  have hrx : h'.rxBuf = Stuffing.stuff (withCrc payload) := by rw [← hbuf]
  have hcallback : h'.callback = true := by rw [← hbuf]; exact hi.callback
  have hdelimiter : receiver.take h' 0#8 =
      ({ h' with rxOk := h'.rxOk + 1#64, rxBuf := [], overflowed := false },
        [withCrc payload]) := by
    show feedByte h' 0#8 = _
    unfold feedByte
    rw [if_pos rfl, if_pos (by rw [hrx]; exact Stuffing.stuff_ne_nil),
      dispatchFrame_stuff hne hrx, hcallback]
    rfl
  rw [Receiver.state_cons, Receiver.delivered_cons, hdelimiter]
  exact ⟨⟨rfl, rfl, hcallback⟩, rfl⟩

end PacketHandler

end

/-!
## The wire between the firmware and the bridge

Either side's encoder in front of the other side's receiver. Both encoders give a zero, the
stuffed packet and a zero; the first zero brings either receiver to rest, and there `deliver`
says what the rest of the frame does. So **whatever the receiver has been fed, and in
whatever chunks the frames arrive, every packet is delivered, once and in order**.
-/

open Stuffing (Byte)

/-- What `mowgli_comms_send` takes: a packet with room for its checksum at the end. -/
abbrev Packet := { packet : List Byte // 3 ≤ packet.length ∧ packet.length ≤ 64 }

/-- What fits in a packet beside the checksum. -/
abbrev Payload := { payload : List Byte // 1 ≤ payload.length ∧ payload.length ≤ 62 }

theorem Payload.ne_nil (p : Payload) : p.1 ≠ [] := List.length_pos_iff.1 p.2.1

/-- The bytes of a packet that are not its checksum. -/
def Packet.payload (p : Packet) : Payload :=
  ⟨p.1.take (p.1.length - 2), by
    have := p.2
    rw [List.length_take]
    omega⟩

/-- A payload on the wire, after the first delimiter. -/
def body (p : Payload) : List Byte := Stuffing.stuff (withCrc p.1) ++ [0#8]

/-- A payload on the wire. -/
def frame (p : Payload) : List Byte := 0#8 :: body p

/-! ## The encoders -/

theorem send_eq (p : Packet) : Comms.send p.1 = some (frame p.payload) := by
  obtain ⟨packet, hmin, hmax⟩ := p
  obtain ⟨payload, crc, rfl, hcrc⟩ : ∃ payload crc, packet = payload ++ crc ∧ crc.length = 2 :=
    ⟨_, _, (List.take_append_drop (packet.length - 2) packet).symm, by simp; omega⟩
  obtain ⟨x, y, rfl⟩ := List.length_eq_two.1 hcrc
  have hpayload : (payload ++ [x, y]).take ((payload ++ [x, y]).length - 2) = payload := by simp
  unfold Comms.send
  rw [if_neg, Firmware.cobsEncode, encode_eq, storeCrc_eq]
  · show _ = some (0#8 :: (Stuffing.stuff (withCrc ((payload ++ [x, y]).take _)) ++ [0#8]))
    rw [hpayload]
  · show ¬((payload ++ [x, y]).length < 3 ∨ 64 < (payload ++ [x, y]).length)
    omega

theorem encodePacket_eq (p : Payload) : PacketHandler.encodePacket p.1 = .ok (frame p) := by
  obtain ⟨payload, hmin, hmax⟩ := p
  have happend : PacketHandler.appendCrc (payload ++ [0#8, 0#8]) = withCrc payload := by
    unfold PacketHandler.appendCrc
    rw [if_neg (by simp), storeCrc_eq]
  have hlength : (Stuffing.stuff (withCrc payload)).length ≤ 65 := by
    have := @Stuffing.length_stuff_le (withCrc payload)
    rw [length_withCrc] at this
    omega
  have hsize : 65 < PacketHandler.SIZE_MAX - 2 := by decide
  unfold PacketHandler.encodePacket
  dsimp only
  rw [if_neg (by omega), happend, Bridge.cobsEncode, encode_eq, if_neg (by omega)]
  rfl

/-! ## The receivers -/

/-- The frames of the firmware, as the bridge takes them. -/
def bridgeFraming : PacketHandler.receiver.Framing Payload where
  first := 0#8
  body := body
  item p := [withCrc p.1]
  open' h := h.callback = true
  idle := PacketHandler.Idle
  idle_open _ hi := hi.callback
  keeps _ _ ho := PacketHandler.feedByte_callback.trans ho
  opens h ho := by
    refine ⟨rfl, rfl, ?_⟩
    exact PacketHandler.feedByte_callback.trans ho
  quiet h hi := by
    show (PacketHandler.feedByte h 0#8).2 = []
    unfold PacketHandler.feedByte
    rw [if_pos rfl]
    simp [hi.rxBuf]
  closes _ p hi := (PacketHandler.deliver hi p.ne_nil p.2.2).1
  delivers _ p hi := (PacketHandler.deliver hi p.ne_nil p.2.2).2

/-- The frames of the bridge, as the firmware takes them: each calls the handler of its
    packet in the table `handlers`. -/
def firmwareFraming {κ : Type} (handlers : Comms κ) : (Comms.receiver κ).Framing Payload where
  first := 0#8
  body := body
  item p := .decode (Stuffing.stuff (withCrc p.1)) :: handlers.called p.1
  open' s := s.handlers = handlers.handlers
  idle s := s.rxBuf = [] ∧ s.handlers = handlers.handlers
  idle_open _ hi := hi.2
  keeps _ _ ho := Comms.rxByte_handlers.trans ho
  opens _ ho := ⟨rfl, Comms.rxByte_handlers.trans ho⟩
  quiet s hi := by
    show (Comms.rxByte s 0#8).2 = []
    unfold Comms.rxByte
    rw [if_pos rfl, hi.1, Comms.processFrame_nil]
  closes s p hi := by
    have hstate : (Comms.receiver κ).state s (body p) = s :=
      (Comms.deliver hi.1 p.ne_nil p.2.2).1
    rw [hstate]
    exact hi
  delivers s p hi := by
    have hcalled : handlers.called p.1 = s.called p.1 := by
      unfold Comms.called Comms.handlerOf
      rw [hi.2]
    rw [hcalled]
    exact (Comms.deliver hi.1 p.ne_nil p.2.2).2

/-- The call of a handler, with the bytes it is given. -/
def Comms.Effect.call? {κ : Type} : Effect κ → Option (κ × List Byte)
  | .call handler scratch len => some (handler, scratch.take len)
  | _ => none

/-- The calls among the effects. -/
def calls {κ : Type} (effects : List (Effect κ)) : List (κ × List Byte) :=
  effects.filterMap Comms.Effect.call?

variable {κ : Type}

theorem calls_append (e e' : List (Effect κ)) : calls (e ++ e') = calls e ++ calls e' :=
  List.filterMap_append

theorem calls_called (s : Comms κ) (p : Payload) :
    calls (s.called p.1) = ((s.handlerOf (p.1.getD 0 0#8)).map fun k => (k, p.1)).toList := by
  unfold Comms.called
  cases s.handlerOf (p.1.getD 0 0#8) with
  | none => rfl
  | some handler => simp [calls, Comms.Effect.call?, withCrc]

/-- What the firmware sends is what the bridge delivers. -/
theorem bridge_delivers {h : PacketHandler} (hc : h.callback = true) (garbage : List Byte)
    (p : Packet) (ps : List Packet) {chunks : List (List Byte)}
    (hchunks : chunks.flatten = garbage ++ (p :: ps).flatMap fun p => frame p.payload) :
    PacketHandler.receiver.deliveredChunks h chunks =
        PacketHandler.receiver.delivered h (garbage ++ [0#8]) ++
          (p :: ps).map (fun p => withCrc p.payload.1) ∧
      (PacketHandler.receiver.stateChunks h chunks).Idle := by
  have hframes : chunks.flatten =
      garbage ++ (p.payload :: ps.map Packet.payload).flatMap bridgeFraming.frame := by
    rw [hchunks, ← List.map_cons, List.flatMap_map]
    rfl
  have hitems : (p.payload :: ps.map Packet.payload).flatMap bridgeFraming.item =
      (p :: ps).map fun p => withCrc p.payload.1 := by
    rw [← List.map_cons, List.flatMap_map]
    exact List.map_eq_flatMap.symm
  rw [Receiver.delivered_chunks, Receiver.state_chunks, hframes,
    bridgeFraming.delivered hc garbage p.payload (ps.map Packet.payload), hitems]
  exact ⟨rfl, bridgeFraming.idle_after hc garbage p.payload (ps.map Packet.payload)⟩

/-- What the bridge sends is what the firmware calls its handlers with. -/
theorem firmware_delivers (s : Comms κ) (garbage : List Byte) (p : Payload) (ps : List Payload)
    {chunks : List (List Byte)} (hchunks : chunks.flatten = garbage ++ (p :: ps).flatMap frame) :
    calls ((Comms.receiver κ).deliveredChunks s chunks) =
        calls ((Comms.receiver κ).delivered s (garbage ++ [0#8])) ++
          (p :: ps).flatMap (fun p =>
            ((s.handlerOf (p.1.getD 0 0#8)).map fun k => (k, p.1)).toList) ∧
      ((Comms.receiver κ).stateChunks s chunks).rxBuf = [] := by
  have hitems : ∀ ps : List Payload, calls (ps.flatMap (firmwareFraming s).item) =
      ps.flatMap fun p => ((s.handlerOf (p.1.getD 0 0#8)).map fun k => (k, p.1)).toList := by
    intro ps
    induction ps with
    | nil => rfl
    | cons p ps ih =>
      rw [List.flatMap_cons, List.flatMap_cons, calls_append, ih, ← calls_called]
      rfl
  rw [Receiver.delivered_chunks, Receiver.state_chunks, hchunks]
  constructor
  · rw [← hitems, ← calls_append]
    exact congrArg calls ((firmwareFraming s).delivered rfl garbage p ps)
  · exact ((firmwareFraming s).idle_after rfl garbage p ps).1

/-- **The wire round trip**, from any state of the receiver, over any garbage and any chunks. -/
theorem wire_round_trip :
    (∃ sent : Packet → List Byte, (∀ p, Comms.send p.1 = some (sent p)) ∧
      ∀ (h : PacketHandler) (garbage : List Byte) (p : Packet) (ps : List Packet)
        (chunks : List (List Byte)), h.callback = true →
        chunks.flatten = garbage ++ (p :: ps).flatMap sent →
        PacketHandler.receiver.deliveredChunks h chunks =
            PacketHandler.receiver.delivered h (garbage ++ [0#8]) ++
              (p :: ps).map (fun p => withCrc p.payload.1) ∧
          (PacketHandler.receiver.stateChunks h chunks).rxBuf = [] ∧
          (PacketHandler.receiver.stateChunks h chunks).overflowed = false) ∧
    (∃ sent : Payload → List Byte, (∀ p, PacketHandler.encodePacket p.1 = .ok (sent p)) ∧
      ∀ (κ : Type) (s : Comms κ) (garbage : List Byte) (p : Payload) (ps : List Payload)
        (chunks : List (List Byte)), chunks.flatten = garbage ++ (p :: ps).flatMap sent →
        calls ((Comms.receiver κ).deliveredChunks s chunks) =
            calls ((Comms.receiver κ).delivered s (garbage ++ [0#8])) ++
              (p :: ps).flatMap (fun p =>
                ((s.handlerOf (p.1.getD 0 0#8)).map fun k => (k, p.1)).toList) ∧
          ((Comms.receiver κ).stateChunks s chunks).rxBuf = []) := by
  refine ⟨⟨fun p => frame p.payload, send_eq, ?_⟩, ⟨frame, encodePacket_eq, ?_⟩⟩
  · intro h garbage p ps chunks hc hchunks
    obtain ⟨hdelivered, hidle⟩ := bridge_delivers hc garbage p ps hchunks
    exact ⟨hdelivered, hidle.rxBuf, hidle.overflowed⟩
  · intro κ s garbage p ps chunks hchunks
    exact firmware_delivers s garbage p ps hchunks

end Wire
end Mowgli
