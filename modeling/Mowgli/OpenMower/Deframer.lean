import Mowgli.OpenMower.VescProtocol

/-!
# Deframer — what comes out of a stream

Only the front of the buffer is ever dropped, so the buffer is always the end of the stream, and
what was taken out lies before it, in order. A place in the buffer is a frame, bad, incomplete or
nothing, and it is the same in the stream; a frame that is incomplete holds its bytes.
-/

namespace Mowgli
namespace OpenMower
namespace Vesc

open Stuffing (Byte)

/-- What the candidate at a place looks like. -/
def state (l : List Byte) (i : Nat) : Candidate := (inspect (l.drop i)).state

/-! ## One scan -/

/-- The places that a scan counts for bad. -/
def counted (place : Nat) : List Byte → List Nat
  | [] => []
  | b :: rest =>
    match (inspect (b :: rest)).state with
    | .valid => []
    | .badCrc => place :: counted (place + 1) rest
    | .incomplete => counted (place + 1) rest
    | .invalid => counted (place + 1) rest

/-- A scan finds the first frame. -/
structure ScanFrame (rest : List Byte) (i : Nat) : Prop where
  within : i < rest.length
  valid : state rest i = .valid
  first : ∀ j < i, state rest j ≠ .valid

/-- Or there is none, and it finds the first candidate that is incomplete. -/
structure ScanNothing (rest : List Byte) (keep : Option Nat) : Prop where
  none_valid : ∀ j < rest.length, state rest j ≠ .valid
  incomplete : ∀ i, keep = some i → i < rest.length ∧ state rest i = .incomplete
  first : ∀ j, state rest j = .incomplete → j < rest.length → ∃ i, keep = some i ∧ i ≤ j

theorem ScanFrame.cons {b : Byte} {rest : List Byte} {i : Nat}
    (hb : (inspect (b :: rest)).state ≠ .valid) (h : ScanFrame rest i) :
    ScanFrame (b :: rest) (i + 1) := by
  refine ⟨Nat.succ_lt_succ h.within, h.valid, fun j hj => ?_⟩
  cases j with
  | zero => exact hb
  | succ j => exact h.first j (Nat.lt_of_succ_lt_succ hj)

theorem ScanNothing.cons {b : Byte} {rest : List Byte} {keep : Option Nat}
    (hvalid : (inspect (b :: rest)).state ≠ .valid)
    (hcomplete : (inspect (b :: rest)).state ≠ .incomplete) (h : ScanNothing rest keep) :
    ScanNothing (b :: rest) (keep.map (· + 1)) := by
  refine ⟨fun j hj => ?_, fun i hi => ?_, fun j hj hlt => ?_⟩
  · cases j with
    | zero => exact hvalid
    | succ j => exact h.none_valid j (Nat.lt_of_succ_lt_succ hj)
  · obtain ⟨i', hi', rfl⟩ := Option.map_eq_some_iff.1 hi
    obtain ⟨hlt, hstate⟩ := h.incomplete i' hi'
    exact ⟨Nat.succ_lt_succ hlt, hstate⟩
  · cases j with
    | zero => exact absurd hj hcomplete
    | succ j =>
      obtain ⟨i, hi, hle⟩ := h.first j hj (Nat.lt_of_succ_lt_succ hlt)
      exact ⟨i + 1, by rw [hi]; rfl, Nat.succ_le_succ hle⟩

/-- A candidate that is incomplete at the front is the first. -/
theorem ScanNothing.cons_incomplete {b : Byte} {rest : List Byte} {keep : Option Nat}
    (hb : (inspect (b :: rest)).state = .incomplete) (h : ScanNothing rest keep) :
    ScanNothing (b :: rest) (some 0) := by
  refine ⟨fun j hj => ?_, fun i hi => ?_, fun j _ _ => ⟨0, rfl, Nat.zero_le j⟩⟩
  · cases j with
    | zero =>
      intro hvalid
      exact Candidate.noConfusion (hb.symm.trans hvalid)
    | succ j => exact h.none_valid j (Nat.lt_of_succ_lt_succ hj)
  · cases hi
    exact ⟨Nat.succ_pos _, hb⟩

variable (place : Nat)

theorem map_shift (keep : Option Nat) :
    (keep.map (· + 1)).map (place + ·) = keep.map (place + 1 + ·) := by
  cases keep with
  | none => rfl
  | some i => exact congrArg some (Nat.add_right_comm place i 1)

/-- What `scan` ends with. -/
theorem scan_cases (fi : Option Nat) (bad : Nat) (rest : List Byte) :
    (∃ i, ScanFrame rest i ∧ scan place fi bad rest =
      (.frame (place + i) (inspect (rest.drop i)),
        bad + (counted place rest).length)) ∨
    ∃ keep, ScanNothing rest keep ∧ scan place fi bad rest =
      (.nothing (fi.orElse fun _ => keep.map (place + ·)),
        bad + (counted place rest).length) := by
  induction rest generalizing place fi bad with
  | nil =>
    refine .inr ⟨none, ⟨fun j hj => absurd hj (Nat.not_lt_zero j), nofun,
      fun j _ hj => absurd hj (Nat.not_lt_zero j)⟩, ?_⟩
    cases fi <;> rfl
  | cons b rest ih =>
    unfold scan counted
    dsimp only
    cases hb : (inspect (b :: rest)).state with
    | valid =>
      exact .inl ⟨0, ⟨Nat.succ_pos _, hb, fun j hj => absurd hj (Nat.not_lt_zero j)⟩, rfl⟩
    | incomplete =>
      dsimp only
      rcases ih (place + 1) (some (fi.getD place)) bad with
        ⟨i, hframe, hscan⟩ | ⟨keep, hnothing, hscan⟩
      · refine .inl ⟨i + 1, hframe.cons (by rw [hb]; nofun), ?_⟩
        rw [hscan, Nat.add_right_comm]
        rfl
      · refine .inr ⟨some 0, hnothing.cons_incomplete hb, ?_⟩
        rw [hscan]
        cases fi <;> rfl
    | badCrc =>
      dsimp only
      rcases ih (place + 1) fi (bad + 1) with ⟨i, hframe, hscan⟩ | ⟨keep, hnothing, hscan⟩
      · refine .inl ⟨i + 1, hframe.cons (by rw [hb]; nofun), ?_⟩
        rw [hscan, Nat.add_right_comm place, List.length_cons, Nat.add_right_comm bad]
        rfl
      · refine .inr ⟨keep.map (· + 1), hnothing.cons (by rw [hb]; nofun) (by rw [hb]; nofun), ?_⟩
        rw [hscan, List.length_cons, Nat.add_right_comm bad, map_shift]
        rfl
    | invalid =>
      dsimp only
      rcases ih (place + 1) fi bad with ⟨i, hframe, hscan⟩ | ⟨keep, hnothing, hscan⟩
      · refine .inl ⟨i + 1, hframe.cons (by rw [hb]; nofun), ?_⟩
        rw [hscan, Nat.add_right_comm place]
        rfl
      · refine .inr ⟨keep.map (· + 1), hnothing.cons (by rw [hb]; nofun) (by rw [hb]; nofun), ?_⟩
        rw [hscan, map_shift]

/-- A place that is counted is bad, and no frame is before it. -/
structure CountedAt (rest : List Byte) (i : Nat) : Prop where
  within : i < rest.length
  bad : state rest i = .badCrc
  before : ∀ j ≤ i, state rest j ≠ .valid

theorem CountedAt.cons {b : Byte} {rest : List Byte} {i : Nat}
    (hvalid : (inspect (b :: rest)).state ≠ .valid) (h : CountedAt rest i) :
    CountedAt (b :: rest) (i + 1) := by
  refine ⟨Nat.succ_lt_succ h.within, h.bad, fun j hj => ?_⟩
  cases j with
  | zero => exact hvalid
  | succ j => exact h.before j (Nat.le_of_succ_le_succ hj)

theorem counted_spec (rest : List Byte) :
    ∀ p ∈ counted place rest, ∃ i, p = place + i ∧ CountedAt rest i := by
  induction rest generalizing place with
  | nil => nofun
  | cons b rest ih =>
    intro p hp
    unfold counted at hp
    have hlater : (inspect (b :: rest)).state ≠ .valid → p ∈ counted (place + 1) rest →
        ∃ i, p = place + i ∧ CountedAt (b :: rest) i := by
      intro hvalid hp
      obtain ⟨i, rfl, hat⟩ := ih _ p hp
      exact ⟨i + 1, Nat.add_right_comm place 1 i, hat.cons hvalid⟩
    cases hb : (inspect (b :: rest)).state with
    | valid =>
      rw [hb] at hp
      cases hp
    | badCrc =>
      rw [hb] at hp
      rcases List.mem_cons.1 hp with rfl | hp
      · refine ⟨0, rfl, Nat.succ_pos _, hb, fun j hj => ?_⟩
        rw [Nat.le_zero.1 hj]
        intro hvalid
        exact Candidate.noConfusion (hb.symm.trans hvalid)
      · exact hlater (by rw [hb]; nofun) hp
    | incomplete =>
      rw [hb] at hp
      exact hlater (by rw [hb]; nofun) hp
    | invalid =>
      rw [hb] at hp
      exact hlater (by rw [hb]; nofun) hp

theorem counted_increasing (rest : List Byte) : (counted place rest).Pairwise (· < ·) := by
  induction rest generalizing place with
  | nil => exact List.Pairwise.nil
  | cons b rest ih =>
    unfold counted
    cases (inspect (b :: rest)).state with
    | valid => exact List.Pairwise.nil
    | incomplete => exact ih _
    | invalid => exact ih _
    | badCrc =>
      refine List.pairwise_cons.2 ⟨fun p hp => ?_, ih _⟩
      obtain ⟨i, rfl, -⟩ := counted_spec _ _ p hp
      omega

theorem length_counted (rest : List Byte) :
    (counted place rest).length = (counted 0 rest).length := by
  have hany : ∀ (rest : List Byte) (place place' : Nat),
      (counted place rest).length = (counted place' rest).length := by
    intro rest
    induction rest with
    | nil => exact fun _ _ => rfl
    | cons b rest ih =>
      intro place place'
      unfold counted
      cases (inspect (b :: rest)).state with
      | valid => rfl
      | badCrc => exact congrArg (· + 1) (ih _ _)
      | incomplete => exact ih _ _
      | invalid => exact ih _ _
  exact hany rest place 0

/-! ## One call -/

namespace Deframer

variable (d : Deframer)

theorem feed_buffer (data : List Byte) :
    (d.feed data).buffer = (d.buffer ++ data).drop (d.excess data) := rfl

theorem feed_drops (data : List Byte) :
    (d.feed data).resyncDrops = d.resyncDrops + d.excess data := rfl

theorem excess_le (data : List Byte) : d.excess data ≤ (d.buffer ++ data).length := by
  unfold excess
  split
  · exact Nat.sub_le _ _
  · exact Nat.zero_le _

/-- `NextPayload` takes the first frame out, with all that lies before it. -/
structure Takes (payload : List Byte) (d' : Deframer) (i : Nat) (f : List Byte) : Prop where
  first : ScanFrame d.buffer i
  frame : IsFrame f payload
  buffer : d.buffer.drop i = f ++ d'.buffer
  drops : d'.resyncDrops = d.resyncDrops + i

/-- Or keeps what may still become one. -/
structure Keeps (d' : Deframer) (keep : Option Nat) : Prop where
  nothing : ScanNothing d.buffer keep
  buffer : d'.buffer = d.buffer.drop (keep.getD d.buffer.length)
  drops : d'.resyncDrops = d.resyncDrops + keep.getD d.buffer.length

theorem nextPayload_cases :
    (∃ payload i f, d.nextPayload.1 = some payload ∧ d.Takes payload d.nextPayload.2 i f) ∨
      ∃ keep, d.nextPayload.1 = none ∧ d.Keeps d.nextPayload.2 keep := by
  rcases scan_cases 0 none 0 d.buffer with ⟨i, hframe, hscan⟩ | ⟨keep, hnothing, hscan⟩
  · obtain ⟨f, payload, tail, hf, hdrop⟩ := inspect_valid hframe.valid
    obtain ⟨-, hlen, hpayload⟩ := inspect_frame hf tail
    rw [← hdrop] at hlen hpayload
    rw [Nat.zero_add] at hscan
    refine .inl ⟨payload, i, f, ?_, hframe, hf, ?_, ?_⟩
    · unfold nextPayload
      rw [hscan]
      dsimp only
      rw [← List.drop_drop, hpayload]
    · unfold nextPayload
      rw [hscan]
      dsimp only
      rw [← List.drop_drop, hlen, hdrop, List.drop_left]
    · unfold nextPayload
      rw [hscan]
  · have hkeep : (none : Option Nat).orElse (fun _ => keep.map (0 + ·)) = keep := by
      cases keep with
      | none => rfl
      | some i => exact congrArg some (Nat.zero_add i)
    rw [hkeep] at hscan
    refine .inr ⟨keep, ?_, hnothing, ?_, ?_⟩ <;>
    · unfold nextPayload
      rw [hscan]

theorem nextPayload_crcErrors :
    d.nextPayload.2.crcErrors = d.crcErrors + (counted 0 d.buffer).length := by
  rcases scan_cases 0 none 0 d.buffer with ⟨i, -, hscan⟩ | ⟨keep, -, hscan⟩ <;>
  · unfold nextPayload
    rw [hscan]
    exact congrArg (d.crcErrors + ·) (Nat.zero_add _)

/-- What a call takes away from the front. -/
theorem nextPayload_suffix : d.nextPayload.2.buffer <:+ d.buffer := by
  rcases d.nextPayload_cases with ⟨payload, i, f, -, htakes⟩ | ⟨keep, -, hkeeps⟩
  · exact (List.suffix_append f _).trans (htakes.buffer ▸ List.drop_suffix i d.buffer)
  · rw [hkeeps.buffer]
    exact List.drop_suffix _ _

/-- A place that was counted is gone after the call, or an incomplete candidate before it holds
    it. -/
theorem counted_gone {i : Nat} (h : CountedAt d.buffer i) :
    i + d.nextPayload.2.buffer.length < d.buffer.length ∨
      ∃ j < i, state d.buffer j = .incomplete := by
  rcases d.nextPayload_cases with ⟨payload, k, f, -, htakes⟩ | ⟨keep, -, hkeeps⟩
  · have hlt : i < k := by
      by_contra hle
      exact h.before k (Nat.le_of_not_lt hle) htakes.first.valid
    have hlen := congrArg List.length htakes.buffer
    have hk := htakes.first.within
    rw [List.length_drop, List.length_append] at hlen
    omega
  · rw [hkeeps.buffer, List.length_drop]
    have hi := h.within
    cases keep with
    | none =>
      rw [Option.getD_none]
      omega
    | some k =>
      obtain ⟨hk, hstate⟩ := hkeeps.nothing.incomplete k rfl
      rw [Option.getD_some]
      rcases Nat.lt_trichotomy k i with hlt | rfl | hgt
      · exact .inr ⟨k, hlt, hstate⟩
      · exact Candidate.noConfusion (h.bad.symm.trans hstate)
      · omega

end Deframer

/-! ## Any calls -/

inductive Call
  | feed (data : List Byte)
  | nextPayload

/-- What the calls feed. -/
def fed : List Call → List Byte
  | [] => []
  | .feed data :: calls => data ++ fed calls
  | .nextPayload :: calls => fed calls

namespace Deframer

/-- One call, and what it delivers. -/
def perform (d : Deframer) : Call → List (List Byte) × Deframer
  | .feed data => ([], d.feed data)
  | .nextPayload => (d.nextPayload.1.toList, d.nextPayload.2)

def performAll (d : Deframer) : List Call → List (List Byte) × Deframer
  | [] => ([], d)
  | call :: calls =>
    let r := d.perform call
    let r' := r.2.performAll calls
    (r.1 ++ r'.1, r'.2)

theorem performAll_append (d : Deframer) (calls calls' : List Call) :
    d.performAll (calls ++ calls') =
      ((d.performAll calls).1 ++ ((d.performAll calls).2.performAll calls').1,
        ((d.performAll calls).2.performAll calls').2) := by
  induction calls generalizing d with
  | nil => rfl
  | cons call calls ih =>
    rw [List.cons_append, performAll, ih]
    simp only [performAll, List.append_assoc]

theorem drain_none {d : Deframer} (h : d.nextPayload.1 = none) (rounds : Nat) :
    d.drain (rounds + 1) = ([], d.nextPayload.2) := by
  rw [drain]
  cases hnext : d.nextPayload with
  | mk out d' =>
    rw [hnext] at h
    cases h
    rfl

theorem drain_some {d : Deframer} {payload : List Byte} (h : d.nextPayload.1 = some payload)
    (rounds : Nat) :
    d.drain (rounds + 1) =
      (payload :: (d.nextPayload.2.drain rounds).1, (d.nextPayload.2.drain rounds).2) := by
  rw [drain]
  cases hnext : d.nextPayload with
  | mk out d' =>
    rw [hnext] at h
    cases h
    rfl

/-- Draining is a number of calls. -/
theorem drain_calls (d : Deframer) (rounds : Nat) :
    ∃ n, d.performAll (List.replicate n .nextPayload) = d.drain rounds := by
  induction rounds generalizing d with
  | zero => exact ⟨0, rfl⟩
  | succ rounds ih =>
    cases hnext : d.nextPayload with
    | mk out d' =>
      cases out with
      | none =>
        refine ⟨1, ?_⟩
        simp only [List.replicate, performAll, perform, drain, hnext, Option.toList_none,
          List.append_nil]
      | some payload =>
        obtain ⟨n, hn⟩ := ih d'
        refine ⟨n + 1, ?_⟩
        simp only [List.replicate, performAll, perform, drain, hnext, hn, Option.toList_some,
          List.singleton_append]

theorem fed_append (calls calls' : List Call) :
    fed (calls ++ calls') = fed calls ++ fed calls' := by
  induction calls with
  | nil => rfl
  | cons call calls ih =>
    cases call with
    | feed data => rw [List.cons_append, fed, ih, fed, List.append_assoc]
    | nextPayload => exact ih

theorem fed_replicate (n : Nat) : fed (List.replicate n .nextPayload) = [] := by
  induction n with
  | zero => rfl
  | succ n ih => exact ih

/-- So is a run over chunks. -/
theorem run_calls (d : Deframer) (chunks : List (List Byte)) :
    ∃ calls, fed calls = chunks.flatten ∧ d.performAll calls = d.run chunks := by
  induction chunks generalizing d with
  | nil => exact ⟨[], rfl, rfl⟩
  | cons chunk chunks ih =>
    obtain ⟨n, hn⟩ := (d.feed chunk).drain_calls ((d.feed chunk).buffer.length + 1)
    obtain ⟨calls, hfed, hcalls⟩ :=
      ih ((d.feed chunk).drain ((d.feed chunk).buffer.length + 1)).2
    refine ⟨.feed chunk :: (List.replicate n .nextPayload ++ calls), ?_, ?_⟩
    · rw [fed, fed_append, fed_replicate, hfed, List.nil_append, List.flatten_cons]
    · simp only [performAll, perform, performAll_append, hn, hcalls, run, take, List.nil_append]

end Deframer

/-! ## What becomes of every byte -/

/-- A frame that was taken out, with what was dropped before it. -/
structure Piece where
  noise : List Byte
  frame : List Byte
  payload : List Byte
  isFrame : IsFrame frame payload

def Piece.bytes (p : Piece) : List Byte := p.noise ++ p.frame

/-- The stream is what was taken out, what was dropped and what is buffered. -/
def Accounted (stream : List Byte) (delivered : List (List Byte)) (d : Deframer) : Prop :=
  ∃ (pieces : List Piece) (lost : List Byte),
    stream = pieces.flatMap Piece.bytes ++ (lost ++ d.buffer) ∧
    delivered = pieces.map Piece.payload ∧
    d.resyncDrops = (pieces.flatMap Piece.noise).length + lost.length

theorem Accounted.new : Accounted [] [] .new := ⟨[], [], rfl, rfl, rfl⟩

variable {stream : List Byte} {delivered : List (List Byte)} {d : Deframer}

theorem Accounted.feed (h : Accounted stream delivered d) (data : List Byte) :
    Accounted (stream ++ data) delivered (d.feed data) := by
  obtain ⟨pieces, lost, rfl, hdelivered, hdrops⟩ := h
  refine ⟨pieces, lost ++ (d.buffer ++ data).take (d.excess data), ?_, hdelivered, ?_⟩
  · rw [Deframer.feed_buffer, List.append_assoc lost, List.take_append_drop]
    simp only [List.append_assoc]
  · have hle := d.excess_le data
    rw [Deframer.feed_drops, hdrops, List.length_append, List.length_take]
    omega

theorem Accounted.nextPayload (h : Accounted stream delivered d) :
    Accounted stream (delivered ++ d.nextPayload.1.toList) d.nextPayload.2 := by
  obtain ⟨pieces, lost, rfl, hdelivered, hdrops⟩ := h
  rcases d.nextPayload_cases with ⟨payload, i, f, hout, htakes⟩ | ⟨keep, hout, hkeeps⟩
  · refine ⟨pieces ++ [⟨lost ++ d.buffer.take i, f, payload, htakes.frame⟩], [], ?_, ?_, ?_⟩
    · have hbuffer : d.buffer = d.buffer.take i ++ (f ++ d.nextPayload.2.buffer) := by
        rw [← htakes.buffer, List.take_append_drop]
      rw [List.flatMap_append, List.flatMap_singleton, Piece.bytes]
      conv => lhs; rw [hbuffer]
      simp only [List.append_assoc, List.nil_append]
    · rw [hout, hdelivered, List.map_append]
      rfl
    · have hlt := htakes.first.within
      rw [htakes.drops, hdrops, List.flatMap_append, List.flatMap_singleton, List.length_append,
        List.length_append, List.length_take]
      simp only [List.length_nil]
      omega
  · refine ⟨pieces, lost ++ d.buffer.take (keep.getD d.buffer.length), ?_, ?_, ?_⟩
    · rw [hkeeps.buffer, List.append_assoc lost, List.take_append_drop]
    · rw [hout, hdelivered]
      exact List.append_nil _
    · have hle : keep.getD d.buffer.length ≤ d.buffer.length := by
        cases keep with
        | none => exact Nat.le_refl _
        | some i => exact Nat.le_of_lt (hkeeps.nothing.incomplete i rfl).1
      rw [hkeeps.drops, hdrops, List.length_append, List.length_take]
      omega

theorem Accounted.performAll (h : Accounted stream delivered d) (calls : List Call) :
    Accounted (stream ++ fed calls) (delivered ++ (d.performAll calls).1)
      (d.performAll calls).2 := by
  induction calls generalizing stream delivered d with
  | nil =>
    rw [fed, Deframer.performAll, List.append_nil, List.append_nil]
    exact h
  | cons call calls ih =>
    cases call with
    | feed data =>
      have hnext := ih (h.feed data)
      rw [List.append_assoc] at hnext
      exact hnext
    | nextPayload =>
      have hnext := ih h.nextPayload
      rw [List.append_assoc] at hnext
      exact hnext

/-- The bytes of the frames, those dropped and those buffered are all. -/
theorem Accounted.length (h : Accounted stream delivered d) :
    ∃ frames : List (List Byte), List.Forall₂ IsFrame frames delivered ∧
      frames.flatten.length + d.resyncDrops + d.buffer.length = stream.length := by
  obtain ⟨pieces, lost, rfl, rfl, hdrops⟩ := h
  refine ⟨pieces.map Piece.frame, ?_, ?_⟩
  · clear hdrops
    induction pieces with
    | nil => exact .nil
    | cons p pieces ih => exact .cons p.isFrame ih
  · have hbytes : (pieces.flatMap Piece.bytes).length =
        (pieces.map Piece.frame).flatten.length + (pieces.flatMap Piece.noise).length := by
      clear hdrops
      induction pieces with
      | nil => rfl
      | cons p pieces ih =>
        simp only [List.flatMap_cons, List.map_cons, List.flatten_cons, List.length_append, ih,
          Piece.bytes]
        omega
    rw [hdrops, List.length_append, List.length_append, hbytes]
    omega

/-! ## What is counted -/

/-- A place of the stream that was counted for bad, and what was buffered then. -/
structure Count where
  place : Nat
  start : Nat
  stop : Nat

/-- Where the buffer starts in the stream. -/
def base (stream : List Byte) (d : Deframer) : Nat := stream.length - d.buffer.length

/-- The places that the calls count. -/
def counts (stream : List Byte) (d : Deframer) : List Call → List Count
  | [] => []
  | .feed data :: calls => counts (stream ++ data) (d.feed data) calls
  | .nextPayload :: calls =>
    (counted (base stream d) d.buffer).map
      (fun p => { place := p, start := base stream d, stop := stream.length }) ++
    counts stream d.nextPayload.2 calls

/-- Every place counted is bad, and it is counted again only where an incomplete candidate stood
    before it. -/
structure CountsSpec (stream : List Byte) (start : Nat) (l : List Count) : Prop where
  from_start : ∀ e ∈ l, start ≤ e.place
  bad : ∀ e ∈ l, state (stream.take e.stop) e.place = .badCrc
  again : l.Pairwise fun e e' => e.place < e'.place ∨
    ∃ j, e.start ≤ j ∧ j < e.place ∧ state (stream.take e.stop) j = .incomplete

theorem state_suffix (h : d.buffer <:+ stream) (i : Nat) :
    state stream (base stream d + i) = state d.buffer i := by
  obtain ⟨pre, rfl⟩ := h
  have hbase : base (pre ++ d.buffer) d = pre.length := by
    rw [base, List.length_append]
    omega
  unfold state
  rw [hbase, ← List.drop_drop, List.drop_left]

theorem feed_suffix (h : d.buffer <:+ stream) (data : List Byte) :
    (d.feed data).buffer <:+ stream ++ data := by
  obtain ⟨pre, rfl⟩ := h
  rw [Deframer.feed_buffer]
  exact (List.drop_suffix _ _).trans (List.append_assoc pre _ _ ▸ List.suffix_append pre _)

theorem base_feed (stream : List Byte) (d : Deframer) (data : List Byte) :
    base stream d ≤ base (stream ++ data) (d.feed data) := by
  rw [base, base, Deframer.feed_buffer, List.length_drop, List.length_append, List.length_append]
  omega

theorem base_nextPayload (stream : List Byte) (d : Deframer) :
    base stream d ≤ base stream d.nextPayload.2 := by
  have h := d.nextPayload_suffix.length_le
  rw [base, base]
  omega

theorem counts_spec (calls : List Call) (h : d.buffer <:+ stream) :
    (d.performAll calls).2.crcErrors = d.crcErrors + (counts stream d calls).length ∧
      CountsSpec (stream ++ fed calls) (base stream d) (counts stream d calls) := by
  induction calls generalizing stream d with
  | nil => exact ⟨rfl, nofun, nofun, List.Pairwise.nil⟩
  | cons call calls ih =>
    cases call with
    | feed data =>
      obtain ⟨herrors, hspec⟩ := ih (feed_suffix h data)
      rw [List.append_assoc] at hspec
      refine ⟨herrors, ?_, hspec.bad, hspec.again⟩
      intro e he
      exact (base_feed stream d data).trans (hspec.from_start e he)
    | nextPayload =>
      obtain ⟨herrors, hspec⟩ := ih (d.nextPayload_suffix.trans h)
      have hnow : (stream ++ fed calls).take stream.length = stream := List.take_left
      have hlen := h.length_le
      refine ⟨?_, ?_, ?_, ?_⟩
      · show (d.nextPayload.2.performAll calls).2.crcErrors = _
        rw [herrors, d.nextPayload_crcErrors, counts, List.length_append, List.length_map,
          length_counted (base stream d), Nat.add_assoc]
      · intro e he
        rcases List.mem_append.1 he with he | he
        · obtain ⟨p, hp, rfl⟩ := List.mem_map.1 he
          obtain ⟨i, rfl, -⟩ := counted_spec _ _ p hp
          exact Nat.le_add_right _ _
        · exact (base_nextPayload stream d).trans (hspec.from_start e he)
      · intro e he
        rcases List.mem_append.1 he with he | he
        · obtain ⟨p, hp, rfl⟩ := List.mem_map.1 he
          obtain ⟨i, rfl, hat⟩ := counted_spec _ _ p hp
          show state ((stream ++ fed calls).take stream.length) (base stream d + i) = _
          rw [hnow, state_suffix h]
          exact hat.bad
        · exact hspec.bad e he
      · refine List.pairwise_append.2 ⟨?_, hspec.again, ?_⟩
        · exact List.pairwise_map.2 ((counted_increasing _ _).imp fun hlt => .inl hlt)
        · intro e he e' he'
          obtain ⟨p, hp, rfl⟩ := List.mem_map.1 he
          obtain ⟨i, rfl, hat⟩ := counted_spec _ _ p hp
          rcases d.counted_gone hat with hgone | ⟨j, hj, hstate⟩
          · have hlater := hspec.from_start e' he'
            left
            show base stream d + i < e'.place
            rw [base] at hlater ⊢
            omega
          · right
            refine ⟨base stream d + j, Nat.le_add_right _ _, Nat.add_lt_add_left hj _, ?_⟩
            show state ((stream ++ fed calls).take stream.length) (base stream d + j) = _
            rw [hnow, state_suffix h]
            exact hstate

end Vesc
end OpenMower
end Mowgli
