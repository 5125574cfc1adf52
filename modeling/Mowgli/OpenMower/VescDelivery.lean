import Mowgli.OpenMower.Deframer

/-!
# Vesc delivery — which payloads are delivered

A scan prefers a complete frame to one that is incomplete before it, so that a header in garbage
holds nothing up. The price is paid where a frame is cut while its payload holds a complete
candidate: the candidate wins, or is counted for bad. Frames that are not cut so are delivered,
whatever they hold.
-/

namespace Mowgli
namespace OpenMower
namespace Vesc

open Stuffing (Byte)

variable {payload f later : List Byte} {d : Deframer}

/-- Where a frame starts there is one frame. -/
theorem IsFrame.unique {f' payload' tail tail' : List Byte} (h : IsFrame f payload)
    (h' : IsFrame f' payload') (heq : f ++ tail = f' ++ tail') :
    f = f' ∧ payload = payload' ∧ tail = tail' := by
  obtain ⟨-, hlen, hpayload⟩ := inspect_frame h tail
  obtain ⟨-, hlen', hpayload'⟩ := inspect_frame h' tail'
  rw [heq] at hlen hpayload
  obtain ⟨hf, htail⟩ := List.append_inj heq (hlen.symm.trans hlen')
  exact ⟨hf, hpayload.symm.trans hpayload', htail⟩

theorem IsFrame.length_pos (h : IsFrame f payload) : 0 < f.length := by
  cases h with
  | small => exact Nat.succ_pos _
  | large => exact Nat.succ_pos _

theorem IsFrame.length_le (h : IsFrame f payload) : f.length ≤ kMaxBufferedBytes := by
  cases h with
  | small _ hpos hlen =>
    rw [length_smallFrame]
    simp only [kSmallHeaderSize, kTrailerSize, kMaxBufferedBytes]
    omega
  | large _ hpos hlen =>
    rw [length_largeFrame]
    simp only [kMaxPayloadSize] at hlen
    simp only [kLargeHeaderSize, kTrailerSize, kMaxBufferedBytes]
    omega

theorem state_frame (h : IsFrame f payload) (tail : List Byte) :
    state (f ++ tail) 0 = .valid := (inspect_frame h tail).1

/-! ## Whole frames -/

/-- Behind the first byte there is no complete candidate, good or bad. -/
def Quiet (q : List Byte) : Prop :=
  ∀ i, 0 < i → i < q.length → state q i ≠ .valid ∧ state q i ≠ .badCrc

/-- What was received of the first of the frames to come. -/
def Pending (q : List Byte) : List (List Byte) → Prop
  | [] => q = []
  | payload :: _ => q <+: buildFrame payload ∧ q.length < (buildFrame payload).length

def Sized (payload : List Byte) : Prop :=
  0 < payload.length ∧ payload.length ≤ kMaxPayloadSize

/-- Only the buffer differs. -/
structure Same (d d' : Deframer) (buffer : List Byte) : Prop where
  buffer : d'.buffer = buffer
  crcErrors : d'.crcErrors = d.crcErrors
  drops : d'.resyncDrops = d.resyncDrops

theorem Deframer.nextPayload_frame {tail : List Byte} (h : IsFrame f payload)
    (hbuffer : d.buffer = f ++ tail) :
    d.nextPayload.1 = some payload ∧ Same d d.nextPayload.2 tail := by
  have hvalid : state d.buffer 0 = .valid := by
    rw [hbuffer]
    exact state_frame h tail
  have hcounted : counted 0 d.buffer = [] := by
    refine List.eq_nil_iff_forall_not_mem.2 fun p hp => ?_
    obtain ⟨i, -, hat⟩ := counted_spec _ _ p hp
    exact hat.before 0 (Nat.zero_le i) hvalid
  have herrors := d.nextPayload_crcErrors
  rw [hcounted] at herrors
  rcases d.nextPayload_cases with ⟨payload', i, f', hout, htakes⟩ | ⟨keep, -, hkeeps⟩
  · have hi : i = 0 := by
      by_contra hpos
      exact htakes.first.first 0 (Nat.pos_of_ne_zero hpos) hvalid
    have hframe := htakes.buffer
    rw [hi, List.drop_zero, hbuffer] at hframe
    obtain ⟨-, hpayload, htail⟩ := h.unique htakes.frame hframe
    rw [hpayload]
    refine ⟨hout, htail.symm, herrors, ?_⟩
    rw [htakes.drops, hi]
    rfl
  · refine absurd hvalid (hkeeps.nothing.none_valid 0 ?_)
    rw [hbuffer, List.length_append]
    have hpos := h.length_pos
    omega

theorem Deframer.nextPayload_quiet {ps : List (List Byte)} (hsized : ∀ p ∈ ps, Sized p)
    (hpending : Pending d.buffer ps) (hquiet : Quiet d.buffer) :
    d.nextPayload.1 = none ∧ Same d d.nextPayload.2 d.buffer := by
  have hfirst : 0 < d.buffer.length → state d.buffer 0 = .incomplete := by
    intro hpos
    cases ps with
    | nil =>
      rw [show d.buffer = [] from hpending] at hpos
      cases hpos
    | cons p ps =>
      obtain ⟨hlen, hmax⟩ := hsized p List.mem_cons_self
      exact inspect_prefix (isFrame_buildFrame hlen hmax) hpending.1 hpos hpending.2
  have hstate : ∀ i < d.buffer.length,
      state d.buffer i ≠ .valid ∧ state d.buffer i ≠ .badCrc := by
    intro i hi
    cases i with
    | zero =>
      rw [hfirst hi]
      exact ⟨nofun, nofun⟩
    | succ i => exact hquiet (i + 1) (Nat.succ_pos i) hi
  have hcounted : counted 0 d.buffer = [] := by
    refine List.eq_nil_iff_forall_not_mem.2 fun p hp => ?_
    obtain ⟨i, -, hat⟩ := counted_spec _ _ p hp
    exact (hstate i hat.within).2 hat.bad
  have herrors := d.nextPayload_crcErrors
  rw [hcounted] at herrors
  rcases d.nextPayload_cases with ⟨payload', i, f', -, htakes⟩ | ⟨keep, hout, hkeeps⟩
  · exact absurd htakes.first.valid (hstate i htakes.first.within).1
  · have hkeep : keep.getD d.buffer.length = 0 := by
      rcases Nat.eq_zero_or_pos d.buffer.length with hzero | hpos
      · cases keep with
        | none => exact hzero
        | some k =>
          have hk := (hkeeps.nothing.incomplete k rfl).1
          omega
      · obtain ⟨k, rfl, hk⟩ := hkeeps.nothing.first 0 (hfirst hpos) hpos
        exact Nat.le_zero.1 hk
    refine ⟨hout, ?_, herrors, ?_⟩
    · rw [hkeeps.buffer, hkeep, List.drop_zero]
    · rw [hkeeps.drops, hkeep]
      rfl

/-- Whole frames come out, and the rest stays. -/
theorem Deframer.drain_frames {ready ps : List (List Byte)} {q : List Byte}
    (hready : ∀ p ∈ ready, Sized p) (hsized : ∀ p ∈ ps, Sized p) (hpending : Pending q ps)
    (hquiet : Quiet q) :
    ∀ (d : Deframer) (rounds : Nat), d.buffer = ready.flatMap buildFrame ++ q →
      ready.length < rounds → (d.drain rounds).1 = ready ∧ Same d (d.drain rounds).2 q := by
  induction ready with
  | nil =>
    intro d rounds hbuffer hrounds
    rw [List.flatMap_nil, List.nil_append] at hbuffer
    subst hbuffer
    obtain ⟨hout, hsame⟩ := d.nextPayload_quiet hsized hpending hquiet
    cases rounds with
    | zero => cases hrounds
    | succ rounds =>
      rw [drain_none hout]
      exact ⟨rfl, hsame⟩
  | cons p ready ih =>
    intro d rounds hbuffer hrounds
    obtain ⟨hlen, hmax⟩ := hready p List.mem_cons_self
    rw [List.flatMap_cons, List.append_assoc] at hbuffer
    obtain ⟨hout, hsame⟩ := d.nextPayload_frame (isFrame_buildFrame hlen hmax) hbuffer
    cases rounds with
    | zero => cases hrounds
    | succ rounds =>
      obtain ⟨hrest, hsame'⟩ := ih (fun p' hp' => hready p' (List.mem_cons_of_mem _ hp'))
        d.nextPayload.2 rounds hsame.buffer (Nat.lt_of_succ_lt_succ hrounds)
      rw [drain_some hout]
      exact ⟨congrArg (p :: ·) hrest, hsame'.buffer, hsame'.crcErrors.trans hsame.crcErrors,
        hsame'.drops.trans hsame.drops⟩

/-- What was received of a row of frames is whole frames and the start of the next. -/
theorem split_frames {l : List Byte} :
    ∀ {ps : List (List Byte)}, l ++ later = ps.flatMap buildFrame →
      ∃ ready rest q, ps = ready ++ rest ∧ l = ready.flatMap buildFrame ++ q ∧ Pending q rest
  | [], h => ⟨[], [], [], rfl, (List.append_eq_nil_iff.1 h).1, rfl⟩
  | p :: ps, h => by
    rw [List.flatMap_cons] at h
    by_cases hshort : l.length < (buildFrame p).length
    · refine ⟨[], p :: ps, l, rfl, rfl, ?_, hshort⟩
      exact List.prefix_of_prefix_length_le ⟨later, h⟩ (List.prefix_append _ _)
        (Nat.le_of_lt hshort)
    · obtain ⟨l', rfl⟩ := List.prefix_of_prefix_length_le (List.prefix_append _ _) ⟨later, h⟩
        (Nat.le_of_not_lt hshort)
      rw [List.append_assoc] at h
      obtain ⟨ready, rest, q, rfl, rfl, hpending⟩ := split_frames (List.append_cancel_left h)
      refine ⟨p :: ready, rest, q, rfl, ?_, hpending⟩
      rw [List.flatMap_cons, List.append_assoc]

/-- Wherever a `Feed` ends inside a frame, what came of the frame is quiet, and the next `Feed`
    has room behind it. -/
def CleanCuts (payloads chunks : List (List Byte)) : Prop :=
  ∀ before after, chunks = before ++ after → ∀ ready rest q, payloads = ready ++ rest →
    before.flatten = ready.flatMap buildFrame ++ q → Pending q rest →
    Quiet q ∧ ∀ chunk later, after = chunk :: later →
      q.length + chunk.length ≤ kMaxBufferedBytes

theorem Deframer.run_append (d : Deframer) (chunks chunks' : List (List Byte)) :
    d.run (chunks ++ chunks') =
      ((d.run chunks).1 ++ ((d.run chunks).2.run chunks').1,
        ((d.run chunks).2.run chunks').2) := by
  induction chunks generalizing d with
  | nil => rfl
  | cons chunk chunks ih =>
    rw [List.cons_append, run, ih]
    simp only [run, List.append_assoc]

theorem Deframer.run_snoc (d : Deframer) (chunks : List (List Byte)) (chunk : List Byte) :
    d.run (chunks ++ [chunk]) =
      ((d.run chunks).1 ++ ((d.run chunks).2.take chunk).1, ((d.run chunks).2.take chunk).2) := by
  rw [run_append]
  simp only [run, List.append_nil]

theorem Deframer.feed_room (d : Deframer) (data : List Byte)
    (h : d.buffer.length + data.length ≤ kMaxBufferedBytes) :
    Same d (d.feed data) (d.buffer ++ data) := by
  have hexcess : d.excess data = 0 := by
    unfold excess
    rw [if_neg]
    rw [List.length_append]
    omega
  refine ⟨?_, rfl, ?_⟩
  · rw [feed_buffer, hexcess, List.drop_zero]
  · rw [feed_drops, hexcess]
    rfl

theorem length_le_flatMap (ready : List (List Byte)) :
    ready.length ≤ (ready.flatMap buildFrame).length := by
  induction ready with
  | nil => exact Nat.le_refl _
  | cons p ready ih =>
    have hpos : 0 < (buildFrame p).length := by
      unfold buildFrame
      split
      · exact Nat.succ_pos _
      · exact Nat.succ_pos _
    rw [List.flatMap_cons, List.length_cons, List.length_append]
    omega

/-- After every `Feed` the whole frames are out and the rest is buffered. -/
theorem run_frames {payloads chunks : List (List Byte)} (hsized : ∀ p ∈ payloads, Sized p)
    (hstream : chunks.flatten = payloads.flatMap buildFrame) (hcuts : CleanCuts payloads chunks)
    (before : List (List Byte)) :
    ∀ after, chunks = before ++ after → ∃ ready rest q, payloads = ready ++ rest ∧
      before.flatten = ready.flatMap buildFrame ++ q ∧ Pending q rest ∧
      (Deframer.new.run before).1 = ready ∧ Same .new (Deframer.new.run before).2 q := by
  induction before using List.reverseRecOn with
  | nil =>
    intro after _
    refine ⟨[], payloads, [], rfl, rfl, ?_, rfl, rfl, rfl, rfl⟩
    cases payloads with
    | nil => rfl
    | cons p ps =>
      obtain ⟨hpos, hmax⟩ := hsized p List.mem_cons_self
      exact ⟨List.nil_prefix, (isFrame_buildFrame hpos hmax).length_pos⟩
  | append_singleton before chunk ih =>
    intro after hchunks
    rw [List.append_assoc, List.singleton_append] at hchunks
    obtain ⟨ready, rest, q, hpayloads, hbefore, hpending, hout, hsame⟩ := ih _ hchunks
    obtain ⟨-, hroom⟩ := hcuts before (chunk :: after) hchunks ready rest q hpayloads hbefore
      hpending
    have hlater : (q ++ chunk) ++ after.flatten = rest.flatMap buildFrame := by
      rw [hchunks, List.flatten_append, List.flatten_cons, hbefore, hpayloads,
        List.flatMap_append, List.append_assoc] at hstream
      rw [List.append_assoc]
      exact List.append_cancel_left hstream
    obtain ⟨ready', rest', q', rfl, hq, hpending'⟩ := split_frames hlater
    have hflat : (before ++ [chunk]).flatten = (ready ++ ready').flatMap buildFrame ++ q' := by
      rw [List.flatten_append, hbefore, List.flatten_singleton, List.flatMap_append,
        List.append_assoc, hq, List.append_assoc]
    have hall : payloads = (ready ++ ready') ++ rest' := by rw [hpayloads, List.append_assoc]
    obtain ⟨hquiet, -⟩ := hcuts (before ++ [chunk]) after (by rw [hchunks]; simp) _ _ _ hall hflat
      hpending'
    have hfeed := (Deframer.new.run before).2.feed_room chunk (by
      rw [hsame.buffer]
      exact hroom chunk after rfl)
    rw [hsame.buffer, hq] at hfeed
    obtain ⟨hnew, hsame'⟩ := Deframer.drain_frames
      (fun p hp => hsized p (by rw [hall]; simp [hp]))
      (fun p hp => hsized p (by rw [hall]; simp [hp])) hpending' hquiet _
      (((Deframer.new.run before).2.feed chunk).buffer.length + 1) hfeed.buffer (by
        have hle := length_le_flatMap ready'
        rw [hfeed.buffer, List.length_append]
        omega)
    refine ⟨ready ++ ready', rest', q', hall, hflat, hpending', ?_, ?_⟩
    · rw [Deframer.run_snoc, hout]
      exact congrArg (ready ++ ·) hnew
    · rw [Deframer.run_snoc]
      exact ⟨hsame'.buffer, hsame'.crcErrors.trans (hfeed.crcErrors.trans hsame.crcErrors),
        hsame'.drops.trans (hfeed.drops.trans hsame.drops)⟩

/-- Frames that are not cut at a bad place are all delivered, and nothing else happens. -/
theorem run_frames_all {payloads chunks : List (List Byte)} (hsized : ∀ p ∈ payloads, Sized p)
    (hstream : chunks.flatten = payloads.flatMap buildFrame)
    (hcuts : CleanCuts payloads chunks) :
    (Deframer.new.run chunks).1 = payloads ∧ Same .new (Deframer.new.run chunks).2 [] := by
  obtain ⟨ready, rest, q, rfl, hflat, hpending, hout, hsame⟩ :=
    run_frames hsized hstream hcuts chunks [] (List.append_nil chunks).symm
  rw [hstream, List.flatMap_append] at hflat
  have hq := List.append_cancel_left hflat
  cases rest with
  | nil =>
    rw [show q = [] from hpending] at hsame
    exact ⟨hout.trans (List.append_nil ready).symm, hsame⟩
  | cons p rest =>
    have hlt := hpending.2
    rw [← hq, List.flatMap_cons, List.length_append] at hlt
    omega

/-! ## A frame behind garbage -/

/-- A frame of the stream that no other frame of the stream overlaps. -/
structure Alone (pre f post payload : List Byte) : Prop where
  isFrame : IsFrame f payload
  alone : ∀ pre' f' payload' post', pre ++ (f ++ post) = pre' ++ (f' ++ post') →
    IsFrame f' payload' → pre'.length < pre.length + f.length →
    pre.length < pre'.length + f'.length → pre'.length = pre.length

section Alone

variable {pre f post payload : List Byte}

/-- The frame is not gone: the buffer starts at it or before. -/
structure Waits (pre stream : List Byte) (d : Deframer) : Prop where
  suffix : d.buffer <:+ stream
  start : base stream d ≤ pre.length

variable {stream : List Byte}

theorem base_add_length (h : d.buffer <:+ stream) :
    base stream d + d.buffer.length = stream.length := by
  have hle := h.length_le
  rw [base]
  omega

/-- A frame that is taken out is one of the stream: it is the one that waits, or ends before it. -/
theorem Alone.takes (h : Alone pre f post payload) {stream later : List Byte}
    (hstream : stream ++ later = pre ++ (f ++ post)) {d : Deframer} (hwaits : Waits pre stream d)
    {payload' f' : List Byte} {i : Nat} {d' : Deframer} (htakes : d.Takes payload' d' i f')
    (hi : base stream d + i < pre.length + f.length) :
    base stream d + i = pre.length ∧ payload' = payload ∧
      pre.length + f.length ≤ stream.length ∨
    base stream d + i + f'.length ≤ pre.length := by
  obtain ⟨front, hfront⟩ := hwaits.suffix
  have hbase : front.length = base stream d := by
    rw [base, ← hfront, List.length_append]
    omega
  have hplace : pre ++ (f ++ post) =
      (front ++ d.buffer.take i) ++ (f' ++ (d'.buffer ++ later)) := by
    rw [← hstream, ← hfront]
    conv => lhs; rw [← List.take_append_drop i d.buffer, htakes.buffer]
    simp only [List.append_assoc]
  have hlen : (front ++ d.buffer.take i).length = base stream d + i := by
    have hle := htakes.first.within
    rw [List.length_append, List.length_take, hbase]
    omega
  by_cases hover : pre.length < base stream d + i + f'.length
  · have hsame := h.alone _ f' payload' _ hplace htakes.frame (by rw [hlen]; exact hi)
      (by rw [hlen]; exact hover)
    rw [hlen] at hsame
    obtain ⟨-, htail⟩ := List.append_inj hplace (hsame.symm.trans hlen.symm)
    obtain ⟨hf, hpayload, -⟩ := h.isFrame.unique htakes.frame htail
    have hend := congrArg List.length htakes.buffer
    have htotal := base_add_length hwaits.suffix
    rw [List.length_drop, List.length_append, ← hf] at hend
    have hpos := h.isFrame.length_pos
    exact .inl ⟨hsame, hpayload.symm, by omega⟩
  · exact .inr (Nat.le_of_not_lt hover)

/-- What has arrived of the waiting frame is buffered at its place. -/
theorem Waits.drop (h : Waits pre stream d) (hstream : stream ++ later = pre ++ (f ++ post))
    (hlong : pre.length ≤ stream.length) :
    d.buffer.drop (pre.length - base stream d) ++ later = f ++ post := by
  obtain ⟨front, hfront⟩ := h.suffix
  have hbase : front.length = base stream d := by
    rw [base, ← hfront, List.length_append]
    omega
  have hstart := h.start
  have hdrop : stream.drop pre.length = d.buffer.drop (pre.length - base stream d) := by
    rw [← hbase, ← hfront, List.drop_append, List.drop_eq_nil_of_le (by omega), List.nil_append]
  rw [← hdrop, ← List.drop_append_of_le_length hlong, hstream, List.drop_left]

/-- As long as the frame has not arrived whole, it waits. -/
theorem Alone.nextPayload_waits (h : Alone pre f post payload)
    (hstream : stream ++ later = pre ++ (f ++ post)) (hwaits : Waits pre stream d)
    (hshort : stream.length < pre.length + f.length) : Waits pre stream d.nextPayload.2 := by
  refine ⟨d.nextPayload_suffix.trans hwaits.suffix, ?_⟩
  have htotal := base_add_length hwaits.suffix
  have hstart := hwaits.start
  rcases d.nextPayload_cases with ⟨payload', i, f', -, htakes⟩ | ⟨keep, -, hkeeps⟩
  · have hend := congrArg List.length htakes.buffer
    have hi := htakes.first.within
    rw [List.length_drop, List.length_append] at hend
    rcases h.takes hstream hwaits htakes (by omega) with ⟨-, -, hlong⟩ | hbefore
    · omega
    · rw [base]
      omega
  · rw [base, hkeeps.buffer, List.length_drop]
    by_cases hlong : pre.length < stream.length
    · have hdrop := hwaits.drop hstream (Nat.le_of_lt hlong)
      have hprefix : d.buffer.drop (pre.length - base stream d) <+: f := by
        refine List.prefix_of_prefix_length_le ⟨later, hdrop⟩ (List.prefix_append f post) ?_
        rw [List.length_drop]
        omega
      have hstate := inspect_prefix h.isFrame hprefix (by rw [List.length_drop]; omega)
        (by rw [List.length_drop]; omega)
      obtain ⟨k, rfl, hk⟩ := hkeeps.nothing.first (pre.length - base stream d) hstate (by omega)
      rw [Option.getD_some]
      omega
    · have hle : keep.getD d.buffer.length ≤ d.buffer.length := by
        cases keep with
        | none => exact Nat.le_refl _
        | some k => exact Nat.le_of_lt (hkeeps.nothing.incomplete k rfl).1
      omega

theorem Alone.drain_waits (h : Alone pre f post payload)
    (hstream : stream ++ later = pre ++ (f ++ post))
    (hshort : stream.length < pre.length + f.length) (rounds : Nat) (hwaits : Waits pre stream d) :
    Waits pre stream (d.drain rounds).2 := by
  induction rounds generalizing d with
  | zero => exact hwaits
  | succ rounds ih =>
    have hnext := h.nextPayload_waits hstream hwaits hshort
    cases hout : d.nextPayload.1 with
    | none =>
      rw [Deframer.drain_none hout]
      exact hnext
    | some p =>
      rw [Deframer.drain_some hout]
      exact ih hnext

/-- Once it has, it is taken out, or what is before it is. -/
theorem Alone.drain_delivers (h : Alone pre f post payload)
    (hstream : stream ++ later = pre ++ (f ++ post)) (hlong : pre.length + f.length ≤ stream.length)
    (rounds : Nat) (hwaits : Waits pre stream d) (hrounds : d.buffer.length < rounds) :
    payload ∈ (d.drain rounds).1 := by
  induction rounds generalizing d with
  | zero => cases hrounds
  | succ rounds ih =>
    have htotal := base_add_length hwaits.suffix
    have hstart := hwaits.start
    have hpos := h.isFrame.length_pos
    have hdrop := hwaits.drop hstream (by omega)
    have hvalid : state d.buffer (pre.length - base stream d) = .valid := by
      obtain ⟨rest, hrest⟩ : ∃ rest, d.buffer.drop (pre.length - base stream d) = f ++ rest := by
        obtain ⟨rest, hrest⟩ := List.prefix_of_prefix_length_le (List.prefix_append f post)
          ⟨later, hdrop⟩ (by rw [List.length_drop]; omega)
        exact ⟨rest, hrest.symm⟩
      unfold state
      rw [hrest]
      exact (inspect_frame h.isFrame rest).1
    rcases d.nextPayload_cases with ⟨payload', i, f', hout, htakes⟩ | ⟨keep, -, hkeeps⟩
    · have hi : i ≤ pre.length - base stream d := by
        by_contra hlate
        exact htakes.first.first _ (Nat.lt_of_not_le hlate) hvalid
      rw [Deframer.drain_some hout]
      rcases h.takes hstream hwaits htakes (by omega) with ⟨-, rfl, -⟩ | hbefore
      · exact List.mem_cons_self
      · have hend := congrArg List.length htakes.buffer
        have hpos' := htakes.frame.length_pos
        have hwithin := htakes.first.within
        rw [List.length_drop, List.length_append] at hend
        refine List.mem_cons_of_mem _ (ih ⟨d.nextPayload_suffix.trans hwaits.suffix, ?_⟩ ?_)
        · rw [base]
          omega
        · omega
    · exact absurd hvalid (hkeeps.nothing.none_valid _ (by omega))

theorem Waits.feed (h : Waits pre stream d) (data : List Byte)
    (hroom : (stream ++ data).length ≤ pre.length + kMaxBufferedBytes) :
    Waits pre (stream ++ data) (d.feed data) := by
  refine ⟨feed_suffix h.suffix data, ?_⟩
  have htotal := base_add_length h.suffix
  have hstart := h.start
  rw [List.length_append] at hroom
  rw [base, Deframer.feed_buffer, List.length_drop, List.length_append, List.length_append,
    Deframer.excess, List.length_append]
  split <;> omega

theorem Alone.run_waits (h : Alone pre f post payload) (chunks : List (List Byte)) :
    ∀ later, chunks.flatten ++ later = pre ++ (f ++ post) →
      chunks.flatten.length < pre.length + f.length →
      Waits pre chunks.flatten (Deframer.new.run chunks).2 := by
  induction chunks using List.reverseRecOn with
  | nil =>
    intro later _ _
    exact ⟨List.nil_suffix, Nat.zero_le _⟩
  | append_singleton chunks chunk ih =>
    intro later hstream hshort
    rw [List.flatten_append, List.flatten_singleton] at hstream hshort ⊢
    have hlen := h.isFrame.length_le
    rw [List.append_assoc] at hstream
    have hwaits := ih _ hstream (by rw [List.length_append] at hshort; omega)
    rw [← List.append_assoc] at hstream
    rw [Deframer.run_snoc]
    exact h.drain_waits hstream hshort _ (hwaits.feed chunk (by omega))

/-- A frame comes out after the `Feed` that completes it. -/
theorem Alone.delivered (h : Alone pre f post payload) {before after : List (List Byte)}
    {chunk : List Byte} (hstream : (before ++ chunk :: after).flatten = pre ++ (f ++ post))
    (hshort : before.flatten.length < pre.length + f.length)
    (hlong : pre.length + f.length ≤ (before.flatten ++ chunk).length)
    (hroom : (before.flatten ++ chunk).length ≤ pre.length + kMaxBufferedBytes) :
    payload ∈ ((Deframer.new.run before).2.take chunk).1 := by
  rw [List.flatten_append, List.flatten_cons] at hstream
  have hwaits := h.run_waits before _ hstream hshort
  rw [← List.append_assoc] at hstream
  exact h.drain_delivers hstream hlong _ (hwaits.feed chunk hroom) (Nat.lt_succ_self _)

end Alone

/-! ## The deframer -/

/-- Every byte is accounted for, every bad candidate is counted; frames that are cut nowhere bad
    are delivered as they were built, and so is a frame alone behind garbage. -/
theorem vesc_deframing :
    (∀ calls, let r := Deframer.new.performAll calls
      Accounted (fed calls) r.1 r.2 ∧ r.2.buffer.length ≤ kMaxBufferedBytes ∧
      (∃ frames : List (List Byte), List.Forall₂ IsFrame frames r.1 ∧
        frames.flatten.length + r.2.resyncDrops + r.2.buffer.length = (fed calls).length) ∧
      r.2.crcErrors = (counts [] .new calls).length ∧
      CountsSpec (fed calls) 0 (counts [] .new calls)) ∧
    (∀ chunks, ∃ calls, fed calls = chunks.flatten ∧
      Deframer.new.performAll calls = Deframer.new.run chunks) ∧
    (∀ payloads chunks, (∀ p ∈ payloads, Sized p) → chunks.flatten = payloads.flatMap buildFrame →
      CleanCuts payloads chunks → (Deframer.new.run chunks).1 = payloads ∧
        Same .new (Deframer.new.run chunks).2 []) ∧
    ∀ pre f post payload before chunk after, Alone pre f post payload →
      (before ++ chunk :: after).flatten = pre ++ (f ++ post) →
      before.flatten.length < pre.length + f.length →
      pre.length + f.length ≤ (before.flatten ++ chunk).length →
      (before.flatten ++ chunk).length ≤ pre.length + kMaxBufferedBytes →
      payload ∈ ((Deframer.new.run before).2.take chunk).1 := by
  refine ⟨?_, Deframer.new.run_calls, ?_, ?_⟩
  · intro calls
    have haccounted := Accounted.new.performAll calls
    rw [List.nil_append, List.nil_append] at haccounted
    obtain ⟨herrors, hspec⟩ := counts_spec calls
      (show Deframer.new.buffer <:+ [] from List.suffix_rfl)
    rw [List.nil_append] at hspec
    exact ⟨haccounted, Deframer.capped _, haccounted.length,
      herrors.trans (Nat.zero_add _), hspec⟩
  · intro payloads chunks hsized hstream hcuts
    exact run_frames_all hsized hstream hcuts
  · intro pre f post payload before chunk after halone hstream hshort hlong hroom
    exact halone.delivered hstream hshort hlong hroom

theorem Deframer.drops_le_nextPayload (d : Deframer) :
    d.resyncDrops ≤ d.nextPayload.2.resyncDrops := by
  rcases d.nextPayload_cases with ⟨payload, i, f, -, htakes⟩ | ⟨keep, -, hkeeps⟩
  · rw [htakes.drops]
    exact Nat.le_add_right _ _
  · rw [hkeeps.drops]
    exact Nat.le_add_right _ _

theorem Deframer.drops_le_drain (d : Deframer) (rounds : Nat) :
    d.resyncDrops ≤ (d.drain rounds).2.resyncDrops := by
  induction rounds generalizing d with
  | zero => exact Nat.le_refl _
  | succ rounds ih =>
    cases hout : d.nextPayload.1 with
    | none =>
      rw [drain_none hout]
      exact d.drops_le_nextPayload
    | some p =>
      rw [drain_some hout]
      exact d.drops_le_nextPayload.trans (ih _)

theorem Deframer.overflow_drops {chunk : List Byte} (h : kMaxBufferedBytes < chunk.length) :
    (Deframer.new.run [chunk]).2.resyncDrops ≠ 0 := by
  have hexcess : Deframer.new.excess chunk = chunk.length - kMaxBufferedBytes := by
    unfold excess
    rw [show Deframer.new.buffer = [] from rfl, List.nil_append, if_pos h]
  have hfeed := Deframer.new.feed_drops chunk
  have hdrain := (Deframer.new.feed chunk).drops_le_drain
    ((Deframer.new.feed chunk).buffer.length + 1)
  simp only [run, take]
  omega

/-- A frame that is cut behind a frame in its payload is lost, a candidate that is held is counted
    by every call, and a `Feed` drops what it has no room for. -/
theorem cut_frame_lost :
    (¬∀ payloads chunks : List (List Byte), (∀ p ∈ payloads, Sized p) →
      chunks.flatten = payloads.flatMap buildFrame →
      (∀ chunk ∈ chunks, chunk.length ≤ kMaxBufferedBytes) →
      (Deframer.new.run chunks).1 = payloads) ∧
    (¬∀ calls, ((counts [] .new calls).map Count.place).Nodup) ∧
    ¬∀ payloads : List (List Byte), (∀ p ∈ payloads, Sized p) →
      (Deframer.new.run [payloads.flatMap buildFrame]).2.resyncDrops = 0 := by
  refine ⟨fun h => ?_, fun h => ?_, fun h => ?_⟩
  · have hlost := h [buildFrame [7#8]]
      [(buildFrame (buildFrame [7#8])).take 9, (buildFrame (buildFrame [7#8])).drop 9]
      (fun p hp => by
        rw [List.mem_singleton.1 hp]
        exact ⟨by decide +kernel, by decide +kernel⟩)
      (by decide +kernel) (by decide +kernel)
    revert hlost
    decide +kernel
  · have htwice := h [.feed [2#8, 200#8, 2#8, 1#8, 7#8, 0#8, 0#8, 3#8], .nextPayload, .nextPayload]
    revert htwice
    decide +kernel
  · have hfull := h (List.replicate 700 [7#8]) (fun p hp => by
      rw [List.eq_of_mem_replicate hp]
      exact ⟨by decide, by decide⟩)
    have hlen : ((List.replicate 700 [7#8]).flatMap buildFrame).length = 4200 := by
      decide +kernel
    exact Deframer.overflow_drops (by rw [hlen]; decide) hfull

/-- A frame whose payload is a frame. -/
def nested : List Byte := buildFrame (buildFrame [7#8])

/-- It comes out whole, though it is cut within the inner frame. -/
theorem vesc_deframing_nested :
    (Deframer.new.run [nested.take 5, nested.drop 5]).1 = [buildFrame [7#8]] := by
  refine (vesc_deframing.2.2.1 [buildFrame [7#8]] [nested.take 5, nested.drop 5] ?_ ?_ ?_).1
  · intro p hp
    rw [List.mem_singleton.1 hp]
    exact ⟨by decide +kernel, by decide +kernel⟩
  · decide +kernel
  · intro before after hchunks ready rest q hpayloads hbefore hpending
    have hq : q = [] ∨ q = nested.take 5 := by
      cases ready with
      | cons p ready =>
        -- The frame is out already.
        obtain ⟨-, hready⟩ := List.cons.inj hpayloads
        obtain ⟨-, rfl⟩ := List.append_eq_nil_iff.1 hready.symm
        exact .inl hpending
      | nil =>
        obtain rfl : rest = [buildFrame [7#8]] := hpayloads.symm
        obtain rfl : q = before.flatten := hbefore.symm
        cases before with
        | nil => exact .inl rfl
        | cons chunk before =>
          obtain ⟨rfl, hrest⟩ := List.cons.inj hchunks
          cases before with
          | nil => exact .inr (List.append_nil _)
          | cons chunk before =>
            obtain ⟨rfl, hnone⟩ := List.cons.inj hrest
            obtain ⟨rfl, -⟩ := List.append_eq_nil_iff.1 hnone.symm
            exact absurd hpending.2 (by decide +kernel)
    have hroom : ∀ chunk later, after = chunk :: later → chunk.length ≤ 6 := by
      intro chunk later hafter
      have hmem : chunk ∈ [nested.take 5, nested.drop 5] := by
        rw [hchunks, hafter]
        simp
      have hall : ∀ chunk ∈ [nested.take 5, nested.drop 5], chunk.length ≤ 6 := by decide +kernel
      exact hall chunk hmem
    have hcap : 5 + 6 ≤ kMaxBufferedBytes := by decide
    rcases hq with rfl | rfl
    · exact ⟨fun i _ hi => absurd hi (Nat.not_lt_zero i), fun chunk later hafter =>
        (Nat.add_le_add (Nat.zero_le 5) (hroom chunk later hafter)).trans hcap⟩
    · have hquiet : ∀ i < 5, 0 < i →
          state (nested.take 5) i ≠ .valid ∧ state (nested.take 5) i ≠ .badCrc := by decide +kernel
      exact ⟨fun i hpos hi => hquiet i (hi.trans_le (List.length_take_le 5 _)) hpos,
        fun chunk later hafter =>
          (Nat.add_le_add (List.length_take_le 5 _) (hroom chunk later hafter)).trans hcap⟩

end Vesc
end OpenMower
end Mowgli
