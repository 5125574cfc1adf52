import Mathlib.Data.List.Chain
import Mowgli.Actuation.Steps

/-!
# BladeReversal — a change of direction waits for a stop

The blade driver alone, under anything the rest of the firmware may do to it: requests of
any kind, controller frames of any content, an environment that changes at will. A frame of
14 bytes and more at 115200 baud takes over a millisecond, so **two frames never end in one
tick**.

What the foreground knows of a stop is spread over the driver: when the stop frame went
out, the first reply it took as zero, and a count the receive interrupt moves on whenever a
reply breaks the stillness. `ReversalInv` says which entries of the log these stand for;
the count is the `generation` of the log by its breaking replies.
-/

namespace Mowgli
namespace Actuation

open Trace

/-! ## What the log says -/

/-- A controller frame has arrived. -/
def Mark.isReply (m : Mark) : Bool :=
  match m.obs with
  | .bladeReply _ _ _ _ => true
  | _ => false

/-- Valid, inactive, without error and at speed zero. -/
def Mark.Standing (m : Mark) : Prop := m.obs = .bladeReply true false 0#8 0#16

/-- The reply is not of a standing blade, or comes too late after the one before. -/
def Mark.breaksZero (m : Mark) : Bool :=
  match m.obs with
  | .bladeReply valid activated error speed =>
    !(valid && !activated && error == 0#8 && speed == 0#16) ||
      decide (Blade.FEEDBACK_MAX_AGE_MS < m.core.tick - m.core.blade.feedback.tick)
  | _ => false

variable (B : Board)

/-- The UART has taken a frame that turns the blade. -/
def Mark.Runs (m : Mark) (command : Byte) : Prop :=
  m.obs = .bladeFrame command true ∧ command ≠ B.stopCommand

def Mark.IsRun (m : Mark) : Prop := ∃ command, m.Runs B command

def Mark.IsStop (m : Mark) : Prop := m.obs = .bladeFrame B.stopCommand true

def replies (log : List Mark) : List Mark := log.filter Mark.isReply

/-- The newest of these replies confirm a stop at the time `now`. -/
def Confirmed (now : Nat) (rs : List Mark) : Prop :=
  ∃ confirmed earlier last first, rs = confirmed ++ earlier ∧
    (∀ r ∈ confirmed, r.Standing) ∧
    confirmed.IsChain (fun later earlier => later.core.now ≤ earlier.core.now + 300) ∧
    confirmed.head? = some last ∧ confirmed.getLast? = some first ∧
    first.core.now + 300 ≤ last.core.now ∧ now ≤ last.core.now + 300

/-- A frame in another direction than the last one: a stop frame went out between them, a
    second ago or more, and what the controller has answered since confirms it. -/
def ReversalLaw (m : Mark) (past : List Mark) : Prop :=
  ∀ command, m.Runs B command →
    Since (fun e => ¬e.IsRun B) (fun e _ => ∃ before, e.Runs B before ∧ before ≠ command ∧
      m.core.now < e.core.now + 2 ^ 31) past →
    ∃ newer k older, past = newer ++ k :: older ∧ (∀ a ∈ newer, ¬a.IsRun B) ∧ k.IsStop B ∧
      k.core.now + 1000 ≤ m.core.now ∧ Confirmed m.core.now (replies newer)

/-! ## The machine -/

namespace Blade

/-- What can happen to the driver between two of its statements. -/
inductive Irq where
  | tick (milliseconds : Nat)
  | set (on : Bool) (direction : Byte) (epoch : Epoch)
  /-- Everything that is not the driver's becomes what it is in `c`. -/
  | outside (c : Core)
  | dma (bytes : List Byte)
  /-- A frame ends, `milliseconds` and its own time on the wire later. -/
  | frame (milliseconds : Nat) (bytes : List Byte)

def outside (c : Core) (s : Firmware) : Firmware :=
  { s with
    world := c.world, authorization := c.authorization, emergency := c.emergency
    inhibited := c.inhibited, status := c.status, host := c.host, drive := c.drive
    timers := c.timers }

def wait (milliseconds : Nat) (s : Firmware) : Firmware := { s with now := s.now + milliseconds }

def take (bytes : List Byte) (s : Firmware) : Firmware :=
  s.setBlade fun b => { b with received := bytes }

variable (B : Board)

def irq (i : Irq) (s : Firmware) : Firmware :=
  match i with
  | .tick n => wait n s
  | .set on direction epoch => set on direction epoch s
  | .outside c => outside c s
  | .dma bytes => take bytes s
  | .frame n bytes => receiveIT B (take bytes (wait (n + 1) s))

/-- The driver and its surroundings. -/
def machine : Machine Irq Unit Empty Answer Firmware where
  irq := irq B
  body _ := app B
  cut := fun k => k.elim
  boot := fun k => k.elim

abbrev DriverEvent := Event Irq Unit Empty Answer

end Blade

/-! ## The invariant -/

/-- The stop frame of the reversal that is pending. -/
def StoppedAt (since : Tick) (log : List Mark) : Prop :=
  Since (fun m => ¬m.IsRun B) (fun k _ => k.IsStop B ∧ k.core.tick = since) log

/-- The clocks of a log and of its replies. -/
structure Timed (s : Firmware) : Prop where
  clock : ∀ a ∈ s.log, a.core.now ≤ s.now
  ordered : Always (fun m past => ∀ a ∈ past, a.core.now ≤ m.core.now) s.log
  paced : Always (fun m past => m.isReply = true →
    ∀ a ∈ past, a.isReply = true → a.core.now < m.core.now) s.log

/-- What `feedback` stands for. -/
structure Heard (s : Firmware) : Prop where
  count : s.blade.feedback.zeroEpoch = BitVec.ofNat 32 (generation Mark.breaksZero s.log)
  newest : ∀ r ∈ (replies s.log).head?, s.blade.feedback.tick = r.core.tick
  linked : Always (fun m past => m.isReply = true →
    ∀ r ∈ (replies past).head?, m.core.blade.feedback.tick = r.core.tick) s.log

structure ReversalBase (s : Firmware) : Prop extends Timed s, Heard s where
  run : ∀ command, Since (fun m => ¬m.IsRun B) (fun m _ => m.Runs B command) s.log →
    command = B.runCommand s.blade.runDirection
  stopped : s.blade.reversePending = true → s.blade.offSent = true →
    StoppedAt B s.blade.stopSince s.log
  fresh : s.blade.reversePending = true → s.blade.offSent = true →
    s.blade.feedback.seq ≠ s.blade.lastFeedbackSeq →
    Since (fun m => ¬m.IsRun B ∧ m.isReply = false)
      (fun r past => r.isReply = true ∧ StoppedAt B s.blade.stopSince past) s.log
  zero : s.blade.reversePending = true → s.blade.offSent = true → s.blade.zeroSeen = true →
    Since (fun m => ¬m.IsRun B)
      (fun z past => z.isReply = true ∧ z.Standing ∧ z.core.tick = s.blade.zeroSince ∧
        s.blade.zeroEpoch = BitVec.ofNat 32 (generation Mark.breaksZero (z :: past)) ∧
        StoppedAt B s.blade.stopSince past) s.log
  law : Always (ReversalLaw B) s.log

/-- Between two receive interrupts `feedback` is the newest reply. -/
structure ReversalInv (s : Firmware) : Prop extends ReversalBase B s where
  standing : s.blade.feedback.standing = true → ∀ r ∈ (replies s.log).head?, r.Standing

/-- Nothing about a reversal is set, or it is given up. -/
structure Blade.SameReversal (b b' : Blade) : Prop where
  runDirection : b'.runDirection = b.runDirection
  seq : b'.feedback.seq = b.feedback.seq
  tick : b'.feedback.tick = b.feedback.tick
  count : b'.feedback.zeroEpoch = b.feedback.zeroEpoch
  pending : b'.reversePending = true → b.reversePending = true ∧ b'.offSent = b.offSent ∧
    b'.zeroSeen = b.zeroSeen ∧ b'.stopSince = b.stopSince ∧ b'.zeroSince = b.zeroSince ∧
    b'.lastFeedbackSeq = b.lastFeedbackSeq ∧ b'.zeroEpoch = b.zeroEpoch

variable {b' b : Blade} {later past : List Mark}

theorem Blade.Kept.sameReversal (h : Blade.Kept b b') : Blade.SameReversal b b' where
  runDirection := h.runDirection
  seq := by rw [h.feedback]
  tick := by rw [h.feedback]
  count := by rw [h.feedback]
  pending hp := ⟨h.reversePending.symm.trans hp, h.offSent, h.zeroSeen, h.stopSince, h.zeroSince,
    h.lastFeedbackSeq, h.zeroEpoch⟩

theorem Blade.SameReversal.of_eq (h : b' = b) : Blade.SameReversal b b' := by
  subst h
  exact ⟨rfl, rfl, rfl, rfl, fun hp => ⟨hp, rfl, rfl, rfl, rfl, rfl, rfl⟩⟩

theorem Blade.SameReversal.given_up (hrun : b'.runDirection = b.runDirection)
    (hfeedback : b'.feedback = b.feedback) (hp : b'.reversePending = false) :
    Blade.SameReversal b b' :=
  ⟨hrun, by rw [hfeedback], by rw [hfeedback], by rw [hfeedback], fun e =>
    absurd (hp.symm.trans e) Bool.false_ne_true⟩

/-! ## Logs of replies -/

variable {B} {s s' : Firmware} {log : List Mark} {m : Mark}

theorem replies_append : replies (later ++ log) = replies later ++ replies log :=
  List.filter_append _ _

theorem replies_cons_of_reply (h : m.isReply = true) : replies (m :: log) = m :: replies log := by
  simp [replies, h]

theorem replies_cons_of_not (h : m.isReply = false) : replies (m :: log) = replies log := by
  simp [replies, h]

theorem isReply_false {c : Core} {o : Obs} (h : ∀ v a e sp, o ≠ .bladeReply v a e sp) :
    (⟨c, o⟩ : Mark).isReply = false := by
  unfold Mark.isReply
  split
  · exact absurd (by assumption) (h _ _ _ _)
  · rfl

theorem breaksZero_false (h : m.isReply = false) : m.breaksZero = false := by
  obtain ⟨c, o⟩ := m
  cases o with
  | bladeReply valid activated error speed => exact absurd h (by simp [Mark.isReply])
  | _ => rfl

/-- What a reply that breaks nothing says. -/
theorem standing_of_calm (hr : m.isReply = true) (h : m.breaksZero = false) :
    m.Standing ∧ m.core.tick - m.core.blade.feedback.tick ≤ Blade.FEEDBACK_MAX_AGE_MS := by
  obtain ⟨c, o⟩ := m
  cases o with
  | bladeReply valid activated error speed =>
    simp only [Mark.breaksZero, Bool.or_eq_false_iff, Bool.not_eq_false', Bool.and_eq_true,
      Bool.not_eq_true', beq_iff_eq, decide_eq_false_iff_not, BitVec.not_lt] at h
    obtain ⟨⟨⟨⟨rfl, rfl⟩, rfl⟩, rfl⟩, hgap⟩ := h
    exact ⟨rfl, hgap⟩
  | _ => exact absurd hr (by simp [Mark.isReply])

/-- Entries of different ticks, all of one stretch of time, are no more than its ticks. -/
theorem length_le_of_paced {low high : Nat}
    (hpaced : log.Pairwise fun a b => b.core.now < a.core.now) (hlow : ∀ a ∈ log, low ≤ a.core.now)
    (hhigh : ∀ a ∈ log, a.core.now < high) : log.length ≤ high - low := by
  induction log generalizing high with
  | nil => exact Nat.zero_le _
  | cons a log ih =>
    have hlen : log.length ≤ a.core.now - low :=
      ih hpaced.of_cons (fun b hb => hlow b (by simp [hb])) fun b hb =>
        List.rel_of_pairwise_cons hpaced hb
    have ha := hlow a (by simp)
    have hb := hhigh a (by simp)
    rw [List.length_cons]
    omega

/-! ## What keeps the invariant -/

namespace ReversalBase

/-- The clock, and what is not of the reversal. -/
theorem set (h : ReversalBase B s) (hlog : s'.log = s.log) (hnow : s.now ≤ s'.now)
    (hsame : Blade.SameReversal s.blade s'.blade) : ReversalBase B s' where
  clock a ha := Nat.le_trans (h.clock a (hlog ▸ ha)) hnow
  ordered := by rw [hlog]; exact h.ordered
  paced := by rw [hlog]; exact h.paced
  count := by rw [hlog, hsame.count]; exact h.count
  newest := by rw [hlog, hsame.tick]; exact h.newest
  linked := by rw [hlog]; exact h.linked
  run := by rw [hlog, hsame.runDirection]; exact h.run
  stopped hp hoff := by
    obtain ⟨hp', hoff', _, hstop, _⟩ := hsame.pending hp
    rw [hlog, hstop]
    exact h.stopped hp' (hoff' ▸ hoff)
  fresh hp hoff hseq := by
    obtain ⟨hp', hoff', _, hstop, _, hlast, _⟩ := hsame.pending hp
    rw [hlog, hstop]
    rw [hsame.seq, hlast] at hseq
    exact h.fresh hp' (hoff' ▸ hoff) hseq
  zero hp hoff hzero := by
    obtain ⟨hp', hoff', hzero', hstop, hsince, _, hepoch⟩ := hsame.pending hp
    rw [hlog, hstop, hsince, hepoch]
    exact h.zero hp' (hoff' ▸ hoff) (hzero' ▸ hzero)
  law := by rw [hlog]; exact h.law

/-- An entry that is no reply, and no frame that turns the blade. -/
theorem note {o : Obs} (h : ReversalBase B s) (hr : ∀ v a e sp, o ≠ .bladeReply v a e sp)
    (hruns : ∀ command, ¬(⟨s.toCore, o⟩ : Mark).Runs B command) : ReversalBase B (s.note o) := by
  have hreply : (⟨s.toCore, o⟩ : Mark).isReply = false := isReply_false hr
  have hrun : ¬(⟨s.toCore, o⟩ : Mark).IsRun B := fun ⟨_, he⟩ => hruns _ he
  refine { clock := ?_, ordered := ⟨h.clock, h.ordered⟩
           paced := ⟨fun he => absurd (hreply.symm.trans he) Bool.false_ne_true, h.paced⟩
           count := ?_, newest := ?_
           linked := ⟨fun he => absurd (hreply.symm.trans he) Bool.false_ne_true, h.linked⟩
           run := fun command hs => ?_
           stopped := fun hp hoff => .inr ⟨hrun, h.stopped hp hoff⟩
           fresh := fun hp hoff hseq => .inr ⟨⟨hrun, hreply⟩, h.fresh hp hoff hseq⟩
           zero := fun hp hoff hzero => .inr ⟨hrun, h.zero hp hoff hzero⟩
           law := ⟨fun command he => absurd he (hruns command), h.law⟩ }
  · rintro a (_ | ⟨_, ha⟩)
    · exact Nat.le_refl _
    · exact h.clock a ha
  · show s.blade.feedback.zeroEpoch = BitVec.ofNat 32 (generation _ (_ :: s.log))
    rw [generation_cons_of_calm (breaksZero_false hreply)]
    exact h.count
  · show ∀ r ∈ (replies (_ :: s.log)).head?, _
    rw [replies_cons_of_not hreply]
    exact h.newest
  · rcases hs with hs | ⟨_, hs⟩
    · exact absurd hs (hruns command)
    · exact h.run command hs

theorem invalidate (h : ReversalBase B s) : ReversalBase B s.invalidate :=
  (h.note (o := .invalidated) (by simp) fun _ he => absurd he.1 (by simp)).set rfl (Nat.le_refl _) (.of_eq rfl)

theorem forceInhibit (h : ReversalBase B s) : ReversalBase B s.forceInhibit := by
  unfold Firmware.forceInhibit
  split
  · exact h
  · exact h.invalidate.set rfl (Nat.le_refl _) (.of_eq rfl)

/-- The reply, and what the receive interrupt makes of it. -/
theorem reply (h : ReversalBase B s) {f : Feedback} (hf : s.blade.feedback = f)
    (hpace : ∀ a ∈ s.log, a.isReply = true → a.core.now < s.now) :
    ReversalInv B ((s.note (.bladeReply f.valid f.activated f.error f.reportedSpeed)).setBlade
      fun b => { b with feedback := Blade.arrived s.tick b.feedback }) := by
  have hreply : (⟨s.toCore, .bladeReply f.valid f.activated f.error f.reportedSpeed⟩ : Mark).isReply =
      true := rfl
  have hruns : ∀ command, ¬(⟨s.toCore, .bladeReply f.valid f.activated f.error
      f.reportedSpeed⟩ : Mark).Runs B command := fun command he => absurd he.1 (by simp)
  have hrun : ¬(⟨s.toCore, .bladeReply f.valid f.activated f.error f.reportedSpeed⟩ : Mark).IsRun B :=
    fun ⟨_, he⟩ => hruns _ he
  subst hf
  refine { clock := ?_, ordered := ⟨h.clock, h.ordered⟩, paced := ⟨fun _ => hpace, h.paced⟩
           count := ?_, newest := ?_, linked := ⟨fun _ => h.newest, h.linked⟩
           run := fun command hs => ?_
           stopped := fun hp hoff => .inr ⟨hrun, h.stopped hp hoff⟩
           fresh := fun hp hoff _ => .inl ⟨hreply, h.stopped hp hoff⟩
           zero := fun hp hoff hzero => .inr ⟨hrun, h.zero hp hoff hzero⟩
           law := ⟨fun command he => absurd he (hruns command), h.law⟩
           standing := ?_ }
  · rintro a (_ | ⟨_, ha⟩)
    · exact Nat.le_refl _
    · exact h.clock a ha
  · show (Blade.arrived s.tick s.blade.feedback).zeroEpoch = BitVec.ofNat 32 (generation _ (_ :: s.log))
    have hcount := h.count
    unfold Blade.arrived
    dsimp only
    split
    · rename_i hbreak
      have hm : Mark.breaksZero ⟨s.toCore, .bladeReply _ _ _ _⟩ = true := hbreak
      rw [generation_cons_of_break hm, hcount, ← BitVec.ofNat_add]
    · rename_i hcalm
      have hm : Mark.breaksZero ⟨s.toCore, .bladeReply _ _ _ _⟩ = false := Bool.eq_false_iff.2 hcalm
      rw [generation_cons_of_calm hm, hcount]
  · show ∀ r ∈ (replies (_ :: s.log)).head?, s.tick = r.core.tick
    rw [replies_cons_of_reply hreply]
    rintro r ⟨rfl⟩
    rfl
  · rcases hs with hs | ⟨_, hs⟩
    · exact absurd hs (hruns command)
    · exact h.run command hs
  · show s.blade.feedback.standing = true → ∀ r ∈ (replies (_ :: s.log)).head?, r.Standing
    rw [replies_cons_of_reply hreply]
    rintro hs r ⟨rfl⟩
    simp only [Feedback.standing, Bool.and_eq_true, Bool.not_eq_true', beq_iff_eq] at hs
    show Obs.bladeReply _ _ _ _ = _
    rw [hs.1.1.1, hs.1.1.2, hs.1.2, hs.2]

end ReversalBase

/-! ## The receive interrupt -/

/-- While a frame is received: the clock is past all replies before it. -/
structure Receiving (B : Board) (s : Firmware) : Prop extends ReversalBase B s where
  pace : ∀ a ∈ s.log, a.isReply = true → a.core.now < s.now

namespace Receiving

theorem set (h : Receiving B s) (hlog : s'.log = s.log) (hnow : s'.now = s.now)
    (hsame : Blade.SameReversal s.blade s'.blade) : Receiving B s' where
  toReversalBase := h.toReversalBase.set hlog (Nat.le_of_eq hnow.symm) hsame
  pace := by rw [hlog, hnow]; exact h.pace

theorem forceInhibit (h : Receiving B s) : Receiving B s.forceInhibit where
  toReversalBase := h.toReversalBase.forceInhibit
  pace := by
    unfold Firmware.forceInhibit
    split
    · exact h.pace
    · rintro a (_ | ⟨_, ha⟩) hr
      · exact absurd hr (by simp [Mark.isReply])
      · exact h.pace a ha hr

theorem fault (h : Receiving B s) : Receiving B (Blade.fault s) := by
  have hset : Receiving B (s.setBlade fun b => { b with faultSequence := b.faultSequence + 1#32 }) :=
    h.set rfl rfl ⟨rfl, rfl, rfl, rfl, fun hp => ⟨hp, rfl, rfl, rfl, rfl, rfl, rfl⟩⟩
  exact hset.forceInhibit

theorem acceptStatus (h : Receiving B s) : Receiving B (Blade.acceptStatus s) := by
  have hdecoded : Receiving B (s.setBlade fun b =>
      { b with feedback := Blade.decode b.received b.feedback }) :=
    h.set rfl rfl ⟨rfl, rfl, rfl, rfl, fun hp => ⟨hp, rfl, rfl, rfl, rfl, rfl, rfl⟩⟩
  have hseen : ∀ s₁ : Firmware, Receiving B s₁ → Receiving B (s₁.setBlade fun b => { b with
      seenValid := true, lastValid := s.tick, lastError := b.feedback.error != 0#8 }) :=
    fun s₁ h₁ => h₁.set rfl rfl ⟨rfl, rfl, rfl, rfl, fun hp => ⟨hp, rfl, rfl, rfl, rfl, rfl, rfl⟩⟩
  have herror : ∀ s₁ : Firmware, Receiving B s₁ →
      Receiving B (if s₁.blade.lastError then Blade.fault s₁ else s₁) := by
    intro s₁ h₁
    split
    · exact h₁.fault
    · exact h₁
  unfold Blade.acceptStatus
  refine herror _ (hseen _ ?_)
  split
  · exact hdecoded.fault
  · exact hdecoded

theorem receiveStatus (h : Receiving B s) : ReversalInv B (Blade.receiveStatus B s) := by
  have hread : Receiving B (if Blade.statusValid B s.blade.received then Blade.acceptStatus s
      else Blade.fault (s.setBlade fun b =>
        { b with feedback := { b.feedback with valid := false } })) := by
    have hinvalid : Receiving B (s.setBlade fun b =>
        { b with feedback := { b.feedback with valid := false } }) :=
      h.set rfl rfl ⟨rfl, rfl, rfl, rfl, fun hp => ⟨hp, rfl, rfl, rfl, rfl, rfl, rfl⟩⟩
    split
    · exact h.acceptStatus
    · exact hinvalid.fault
  exact hread.toReversalBase.reply rfl hread.pace

end Receiving

/-- As long as its count is the same, no reply has broken the stillness: there are not enough
    ticks for the count to come round. -/
theorem ReversalBase.calm (h : ReversalBase B s) (low : Nat) (hlog : s.log = later ++ past)
    (hcount : BitVec.ofNat 32 (generation Mark.breaksZero past) = s.blade.feedback.zeroEpoch)
    (hlow : ∀ a ∈ later, low ≤ a.core.now) (hwindow : s.now < low + 2 ^ 31) :
    ∀ a ∈ later, a.breaksZero = false := by
  have hpaced : (replies later).Pairwise fun a b => b.core.now < a.core.now := by
    have hall : s.log.Pairwise fun a b => a.isReply = true → b.isReply = true →
        b.core.now < a.core.now :=
      Always.pairwise (h.paced.mono fun a past ha b hb hra hrb => ha hra b hb hrb)
    rw [hlog] at hall
    exact List.pairwise_filter.2 (List.pairwise_append.1 hall).1
  have hlen : (replies later).length ≤ s.now + 1 - low := by
    refine length_le_of_paced hpaced (fun a ha => hlow a (List.mem_of_mem_filter ha)) fun a ha => ?_
    have hmem : a ∈ s.log := hlog ▸ List.mem_append_left _ (List.mem_of_mem_filter ha)
    exact Nat.lt_succ_of_le (h.clock a hmem)
  have hle : generation Mark.breaksZero later ≤ (replies later).length := by
    rw [replies, ← List.countP_eq_length_filter]
    refine List.countP_mono_left fun a _ ha => ?_
    by_contra hr
    rw [breaksZero_false (Bool.not_eq_true _ ▸ hr)] at ha
    exact Bool.false_ne_true ha
  have hzero : generation Mark.breaksZero later = 0 := by
    have heq := congrArg BitVec.toNat (hcount.trans h.count)
    rw [hlog, generation_append] at heq
    simp only [BitVec.toNat_ofNat] at heq
    omega
  intro a ha
  exact Bool.eq_false_iff.2 (List.countP_eq_zero.1 hzero a ha)

namespace ReversalInv

/-- The replies are the same, and so is what is known of the newest. -/
theorem of_base (h : ReversalInv B s) (hbase : ReversalBase B s')
    (hfeedback : s'.blade.feedback = s.blade.feedback) (hreplies : replies s'.log = replies s.log) :
    ReversalInv B s' where
  toReversalBase := hbase
  standing := by rw [hfeedback, hreplies]; exact h.standing

theorem set (h : ReversalInv B s) (hlog : s'.log = s.log) (hnow : s.now ≤ s'.now)
    (hsame : Blade.SameReversal s.blade s'.blade)
    (hfeedback : s'.blade.feedback = s.blade.feedback) : ReversalInv B s' :=
  h.of_base (h.toReversalBase.set hlog hnow hsame) hfeedback (by rw [hlog])

theorem kept (h : ReversalInv B s) {f : Blade → Blade} (hf : Blade.Kept s.blade (f s.blade)) :
    ReversalInv B (s.setBlade f) := h.set rfl (Nat.le_refl _) hf.sameReversal hf.feedback

/-- The reversal is given up. -/
theorem give_up (h : ReversalInv B s) {f : Blade → Blade}
    (hrun : (f s.blade).runDirection = s.blade.runDirection)
    (hfeedback : (f s.blade).feedback = s.blade.feedback)
    (hp : (f s.blade).reversePending = false) : ReversalInv B (s.setBlade f) :=
  h.set rfl (Nat.le_refl _) (.given_up hrun hfeedback hp) hfeedback

theorem forceInhibit (h : ReversalInv B s) : ReversalInv B s.forceInhibit := by
  refine h.of_base h.toReversalBase.forceInhibit ?_ ?_
  · unfold Firmware.forceInhibit
    split <;> rfl
  · unfold Firmware.forceInhibit
    split
    · rfl
    · exact replies_cons_of_not rfl

theorem fault (h : ReversalInv B s) : ReversalInv B (Blade.fault s) := by
  have hset : ReversalInv B (s.setBlade fun b => { b with faultSequence := b.faultSequence + 1#32 }) :=
    h.kept ⟨rfl, rfl, rfl, rfl, rfl, rfl, rfl, rfl, rfl, rfl, rfl, rfl⟩
  exact hset.forceInhibit

theorem receiveVersion (h : ReversalInv B s) : ReversalInv B (Blade.receiveVersion s) := by
  have hset : ReversalInv B (s.setBlade fun b => { b with
      versionRxArmed := false, versionResponseValid := Blade.versionValid s.blade.received
      versionResponseComplete := true }) :=
    h.kept ⟨rfl, rfl, rfl, rfl, rfl, rfl, rfl, rfl, rfl, rfl, rfl, rfl⟩
  unfold Blade.receiveVersion
  dsimp only
  split
  · exact hset
  · exact hset.fault

/-- A frame ends at a later tick than all before it. -/
theorem frame (h : ReversalInv B s) {n : Nat} {bytes : List Byte} :
    ReversalInv B (Blade.irq B (.frame n bytes) s) := by
  have hwait : ReversalInv B ((Blade.take bytes (Blade.wait (n + 1) s)).setBlade fun b =>
      { b with rxArmed := false }) :=
    h.set rfl (Nat.le_add_right _ _)
      ⟨rfl, rfl, rfl, rfl, fun hp => ⟨hp, rfl, rfl, rfl, rfl, rfl, rfl⟩⟩ rfl
  have hpace : Receiving B ((Blade.take bytes (Blade.wait (n + 1) s)).setBlade fun b =>
      { b with rxArmed := false }) :=
    { toReversalBase := hwait.toReversalBase
      pace := fun a ha _ => Nat.lt_of_le_of_lt (h.clock a ha) (Nat.lt_add_of_pos_right n.succ_pos) }
  show ReversalInv B (Blade.receiveIT B (Blade.take bytes (Blade.wait (n + 1) s)))
  unfold Blade.receiveIT
  dsimp only
  split
  · exact hwait.receiveVersion
  · split
    · exact hwait
    · exact hpace.receiveStatus

theorem irq (h : ReversalInv B s) (i : Blade.Irq) : ReversalInv B (Blade.irq B i s) := by
  cases i with
  | tick n =>
    exact h.set rfl (Nat.le_add_right _ _) (.of_eq rfl) rfl
  | set on direction epoch =>
    show ReversalInv B (Blade.set on direction epoch s)
    have hdirection : ReversalInv B (s.setBlade fun b => { b with direction := direction != 0#8 }) :=
      h.set rfl (Nat.le_refl _)
        ⟨rfl, rfl, rfl, rfl, fun hp => ⟨hp, rfl, rfl, rfl, rfl, rfl, rfl⟩⟩ rfl
    unfold Blade.set
    dsimp only
    split
    · exact hdirection.set rfl (Nat.le_refl _)
        ⟨rfl, rfl, rfl, rfl, fun hp => ⟨hp, rfl, rfl, rfl, rfl, rfl, rfl⟩⟩ rfl
    · exact hdirection.give_up rfl rfl rfl
  | outside c => exact h.set rfl (Nat.le_refl _) (.of_eq rfl) rfl
  | dma bytes =>
    exact h.set rfl (Nat.le_refl _)
      ⟨rfl, rfl, rfl, rfl, fun hp => ⟨hp, rfl, rfl, rfl, rfl, rfl, rfl⟩⟩ rfl
  | frame n bytes => exact h.frame

end ReversalInv

/-! ## The frame -/

namespace Blade

/-- **What a look at the newest reply can do** to a reversal that is pending: nothing new is
    known, or what was known is void, or the reply is counted. -/
inductive Look (now : Tick) (b : Blade) : Bool × Blade → Prop
  | void (b' : Blade) (hseen : b'.zeroSeen = false) (hseq : b'.lastFeedbackSeq = b.feedback.seq) :
    Look now b (false, b')
  | old (b' : Blade) (hoff : b.offSent = true) (hseq : b'.lastFeedbackSeq = b.lastFeedbackSeq)
    (hseen : b'.zeroSeen = true → b.zeroSeen = true ∧ b'.zeroSince = b.zeroSince ∧
      b'.zeroEpoch = b.zeroEpoch) : Look now b (false, b')
  | counted (released : Bool) (b' : Blade) (hoff : b.offSent = true)
    (hstanding : b.feedback.standing = true)
    (hage : now - b.feedback.tick ≤ FEEDBACK_MAX_AGE_MS)
    (hnew : b.feedback.seq ≠ b.lastFeedbackSeq) (hseq : b'.lastFeedbackSeq = b.feedback.seq)
    (hepoch : b'.zeroEpoch = b.feedback.zeroEpoch)
    (hsince : b.zeroSeen = true ∧ b.zeroEpoch = b.feedback.zeroEpoch ∧ b'.zeroSince = b.zeroSince ∨
      b'.zeroSince = b.feedback.tick)
    (hreleased : released = true → ZERO_CONFIRM_MS ≤ b.feedback.tick - b'.zeroSince ∧
      REVERSE_OFF_MS ≤ now - b.stopSince) : Look now b (released, b')

theorem syncZero_cases (b : Blade) : (b.feedback.zeroEpoch = b.zeroEpoch ∧ syncZero b = b) ∨
    syncZero b = { b with zeroSeen := false, zeroEpoch := b.feedback.zeroEpoch } := by
  unfold syncZero
  by_cases h : b.feedback.zeroEpoch = b.zeroEpoch
  · exact .inl ⟨h, if_pos h⟩
  · exact .inr (if_neg h)

theorem countZero_cases (b : Blade) :
    (b.zeroSeen = true ∧ countZero b = { b with lastFeedbackSeq := b.feedback.seq }) ∨
      countZero b = { b with
        lastFeedbackSeq := b.feedback.seq, zeroSince := b.feedback.tick, zeroSeen := true } := by
  unfold countZero
  by_cases h : b.zeroSeen = true
  · exact .inl ⟨h, if_pos h⟩
  · exact .inr (if_neg h)

theorem qualifiedForReverse_look (now : Tick) (b : Blade) :
    Look now b (qualifiedForReverse now b) := by
  unfold qualifiedForReverse
  dsimp only
  have hsync := syncZero_cases b
  split
  · exact Look.void _ rfl rfl
  · rename_i hgood
    simp only [Bool.or_eq_true, Bool.not_eq_true', bne_iff_ne, ne_eq, decide_eq_true_eq, not_or,
      Bool.not_eq_false, Bool.not_eq_true, Decidable.not_not, BitVec.not_lt] at hgood
    obtain ⟨⟨⟨⟨⟨hoff, hvalid⟩, hactive⟩, herror⟩, hspeed⟩, hage⟩ := hgood
    have hstanding : b.feedback.standing = true := by
      simp [Feedback.standing, hvalid, hactive, herror, hspeed]
    rcases hsync with ⟨hsame, hb⟩ | hb
    · rw [hb] at hoff ⊢
      split
      · exact Look.old _ hoff rfl fun hz => ⟨hz, rfl, rfl⟩
      · rename_i hnew
        rcases countZero_cases b with ⟨hz, hc⟩ | hc
        · rw [hc]
          refine Look.counted _ _ hoff hstanding hage hnew rfl hsame.symm
            (.inl ⟨hz, hsame.symm, rfl⟩) fun hr => ?_
          simpa using hr
        · rw [hc]
          refine Look.counted _ _ hoff hstanding hage hnew rfl hsame.symm (.inr rfl) fun hr => ?_
          simpa using hr
    · rw [hb] at hoff ⊢
      dsimp only at hoff ⊢
      split
      · exact Look.old _ hoff rfl fun hz => absurd hz Bool.false_ne_true
      · rename_i hnew
        refine Look.counted _ _ hoff hstanding hage hnew rfl rfl (.inr rfl) fun hr => ?_
        simpa [countZero] using hr

/-- The rest of the driver. -/
structure SameStop (b b' : Blade) : Prop where
  reversePending : b'.reversePending = b.reversePending
  offSent : b'.offSent = b.offSent
  stopSince : b'.stopSince = b.stopSince
  direction : b'.direction = b.direction
  runDirection : b'.runDirection = b.runDirection
  feedback : b'.feedback = b.feedback

theorem qualifiedForReverse_stop (now : Tick) (b : Blade) :
    SameStop b (qualifiedForReverse now b).2 := by
  unfold qualifiedForReverse countZero syncZero
  constructor <;> (dsimp only; repeat' split) <;> rfl

end Blade

namespace ReversalInv

/-- A pending reversal, with what is known of it now. -/
theorem pending (h : ReversalInv B s) {f : Blade → Blade}
    (hrun : (f s.blade).runDirection = s.blade.runDirection)
    (hfeedback : (f s.blade).feedback = s.blade.feedback)
    (hstopped : (f s.blade).offSent = true → StoppedAt B (f s.blade).stopSince s.log)
    (hfresh : (f s.blade).offSent = true →
      s.blade.feedback.seq ≠ (f s.blade).lastFeedbackSeq →
      Since (fun m => ¬m.IsRun B ∧ m.isReply = false)
        (fun r past => r.isReply = true ∧ StoppedAt B (f s.blade).stopSince past) s.log)
    (hzero : (f s.blade).offSent = true → (f s.blade).zeroSeen = true →
      Since (fun m => ¬m.IsRun B)
        (fun z past => z.isReply = true ∧ z.Standing ∧ z.core.tick = (f s.blade).zeroSince ∧
          (f s.blade).zeroEpoch = BitVec.ofNat 32 (generation Mark.breaksZero (z :: past)) ∧
          StoppedAt B (f s.blade).stopSince past) s.log) : ReversalInv B (s.setBlade f) where
  clock := h.clock
  ordered := h.ordered
  paced := h.paced
  count := by
    show (f s.blade).feedback.zeroEpoch = _
    rw [hfeedback]
    exact h.count
  newest := by
    show ∀ r ∈ (replies s.log).head?, (f s.blade).feedback.tick = _
    rw [hfeedback]
    exact h.newest
  linked := h.linked
  run := by
    show ∀ command, _ → command = B.runCommand (f s.blade).runDirection
    rw [hrun]
    exact h.run
  stopped _ hoff := hstopped hoff
  fresh _ hoff hseq := hfresh hoff (by rw [← hfeedback]; exact hseq)
  zero _ hoff hz := hzero hoff hz
  law := h.law
  standing := by
    show (f s.blade).feedback.standing = true → _
    rw [hfeedback]
    exact h.standing

/-- The newest reply, of a reversal that is pending and has seen one. -/
theorem newestReply (h : ReversalInv B s) (hs : s.blade.feedback.standing = true)
    (hf : Since (fun m => ¬m.IsRun B ∧ m.isReply = false)
      (fun r past => r.isReply = true ∧ StoppedAt B s.blade.stopSince past) s.log) :
    ∃ later r past, s.log = later ++ r :: past ∧ (∀ a ∈ later, ¬a.IsRun B ∧ a.isReply = false) ∧
      r.isReply = true ∧ r.Standing ∧ r.core.tick = s.blade.feedback.tick ∧
      (replies s.log).head? = some r ∧ StoppedAt B s.blade.stopSince past := by
  obtain ⟨later, r, past, hlog, hlater, hr, hstop⟩ := Since.iff_split.1 hf
  have hhead : (replies s.log).head? = some r := by
    have hnone : replies later = [] := List.filter_eq_nil_iff.2 fun a ha => by
      rw [(hlater a ha).2]
      exact Bool.false_ne_true
    rw [hlog, replies_append, hnone, replies_cons_of_reply hr]
    rfl
  refine ⟨later, r, past, hlog, hlater, hr, h.standing hs r hhead, (h.newest r hhead).symm,
    hhead, hstop⟩

/-- The look keeps the invariant. -/
theorem look (h : ReversalInv B s) (hp : s.blade.reversePending = true) :
    ReversalInv B (s.setBlade fun b => (Blade.qualifiedForReverse s.tick b).2) := by
  have hstop := Blade.qualifiedForReverse_stop s.tick s.blade
  have hlook := Blade.qualifiedForReverse_look s.tick s.blade
  generalize hq : Blade.qualifiedForReverse s.tick s.blade = q at hlook hstop
  refine h.pending (f := fun b => (Blade.qualifiedForReverse s.tick b).2)
    (by rw [hq]; exact hstop.runDirection) (by rw [hq]; exact hstop.feedback) ?_ ?_ ?_
  · rw [hq, hstop.offSent, hstop.stopSince]
    exact h.stopped hp
  · rw [hq, hstop.offSent, hstop.stopSince]
    intro hoff hseq
    cases hlook with
    | void b' hseen hseq' => exact absurd hseq'.symm hseq
    | old b' _ hseq' hseen => exact h.fresh hp hoff (hseq' ▸ hseq)
    | counted released b' _ hs hage hnew hseq' => exact absurd hseq'.symm hseq
  · rw [hq, hstop.offSent, hstop.stopSince]
    intro hoff hz
    cases hlook with
    | void b' hseen hseq' => exact absurd (hseen.symm.trans hz) Bool.false_ne_true
    | old b' _ hseq' hseen =>
      obtain ⟨hz', hsince, hepoch⟩ := hseen hz
      dsimp only
      rw [hsince, hepoch]
      exact h.zero hp hoff hz'
    | counted released b' _ hs hage hnew hseq' hepoch hsince hreleased =>
      dsimp only
      rw [hepoch]
      rcases hsince with ⟨hz', hsame, hsince⟩ | hsince
      · rw [hsince, ← hsame]
        exact h.zero hp hoff hz'
      · -- The newest reply begins the stillness.
        obtain ⟨later, r, past, hlog, hlater, hr, hst, htick, -, hstopped⟩ :=
          h.newestReply hs (h.fresh hp hoff hnew)
        rw [hsince]
        refine Since.iff_split.2 ⟨later, r, past, hlog, fun a ha => (hlater a ha).1, hr, hst, htick,
          ?_, hstopped⟩
        have hcalm : generation Mark.breaksZero later = 0 := by
          refine List.countP_eq_zero.2 fun a ha => ?_
          rw [breaksZero_false (hlater a ha).2]
          exact Bool.false_ne_true
        rw [h.count, hlog, generation_append, hcalm, Nat.zero_add]

/-! ### The release -/

/-- A stretch of calm replies is a chain without gaps. -/
theorem calm_chain {z : Mark} (hz : z.isReply = true)
    (hlinked : Always (fun m past => m.isReply = true →
      ∀ r ∈ (replies past).head?, m.core.blade.feedback.tick = r.core.tick) (later ++ z :: past))
    (hcalm : ∀ a ∈ later, a.breaksZero = false) :
    (replies later ++ [z]).IsChain
      (fun a b => a.core.tick - b.core.tick ≤ Blade.FEEDBACK_MAX_AGE_MS) := by
  induction later with
  | nil => exact .singleton z
  | cons m later ih =>
    have ih := ih hlinked.2 fun a ha => hcalm a (List.mem_cons_of_mem _ ha)
    cases hm : m.isReply with
    | false =>
      rw [replies_cons_of_not hm]
      exact ih
    | true =>
      rw [replies_cons_of_reply hm]
      refine List.isChain_cons.2 ⟨fun r hr => ?_, ih⟩
      have hhead : r ∈ (replies (later ++ z :: past)).head? := by
        rw [replies_append, replies_cons_of_reply hz]
        cases hl : replies later with
        | nil => rw [hl] at hr; exact hr
        | cons b rest => rw [hl] at hr; exact hr
      have hgap := (standing_of_calm hm (hcalm m (by simp))).2
      rw [hlinked.1 hm r hhead] at hgap
      exact hgap

/-- **What a release rests on.** -/
theorem released (h : ReversalInv B s) (hp : s.blade.reversePending = true)
    (hr : (Blade.qualifiedForReverse s.tick s.blade).1 = true)
    (hprev : Since (fun e => ¬e.IsRun B) (fun e _ => e.IsRun B ∧ s.now < e.core.now + 2 ^ 31) s.log) :
    ∃ newer k older, s.log = newer ++ k :: older ∧ (∀ a ∈ newer, ¬a.IsRun B) ∧ k.IsStop B ∧
      k.core.now + 1000 ≤ s.now ∧ Confirmed s.now (replies newer) := by
  have hlook := Blade.qualifiedForReverse_look s.tick s.blade
  generalize Blade.qualifiedForReverse s.tick s.blade = q at hr hlook
  cases hlook with
  | void b' hseen hseq => exact absurd hr Bool.false_ne_true
  | old b' _ hseq hseen => exact absurd hr Bool.false_ne_true
  | counted released b' hoff hstanding hage hnew hseq hepoch hsince hreleased =>
    obtain ⟨hconfirm, hstop⟩ := hreleased hr
    rcases hsince with ⟨hz, hsame, hsince⟩ | hsince
    · obtain ⟨later, z, past, hlog, hlater, hzreply, hzstanding, hztick, hcount, hstopped⟩ :=
        Since.iff_split.1 (h.zero hp hoff hz)
      obtain ⟨mid, k, older, rfl, hmid, hk, hktick⟩ := Since.iff_split.1 hstopped
      obtain ⟨-, r, -, -, -, hrreply, -, hrtick, hnewest, -⟩ :=
        h.newestReply hstanding (h.fresh hp hoff hnew)
      have hzrun : ¬z.IsRun B := by
        rintro ⟨command, ho, -⟩
        rw [Mark.isReply, ho] at hzreply
        exact Bool.false_ne_true hzreply
      have hnewer : ∀ a ∈ later ++ z :: mid, ¬a.IsRun B := by
        intro a ha
        rcases List.mem_append.1 ha with ha | ha
        · exact hlater a ha
        · rcases List.mem_cons.1 ha with rfl | ha
          · exact hzrun
          · exact hmid a ha
      have hsplit : s.log = (later ++ z :: mid) ++ k :: older := by rw [hlog]; simp
      -- All that counts lies between the last frame that turned the blade and now.
      obtain ⟨after, e, before, hloge, hafter, herun, hwindow⟩ := Since.iff_split.1 hprev
      have he : e ∈ older := by
        have hmem : e ∈ (later ++ z :: mid) ++ k :: older := by rw [← hsplit, hloge]; simp
        rcases List.mem_append.1 hmem with hmem | hmem
        · exact absurd herun (hnewer e hmem)
        · rcases List.mem_cons.1 hmem with rfl | hmem
          · obtain ⟨command, ho, hne⟩ := herun
            exact absurd (Obs.bladeFrame.inj (hk.symm.trans ho)).1.symm hne
          · exact hmem
      have hordered := List.pairwise_append.1 (hsplit ▸ h.ordered.pairwise)
      have hclock : ∀ a ∈ (later ++ z :: mid) ++ k :: older, a.core.now ≤ s.now :=
        fun a ha => h.clock a (hsplit ▸ ha)
      have hsince_e : ∀ a ∈ later ++ z :: mid, e.core.now ≤ a.core.now := fun a ha =>
        hordered.2.2 a ha e (by simp [he])
      have hk_e : e.core.now ≤ k.core.now := List.rel_of_pairwise_cons hordered.2.1 he
      have hcalm : ∀ a ∈ later, a.breaksZero = false := by
        refine h.toReversalBase.calm e.core.now hlog (by rw [← hcount, hsame]) ?_ ?_
        · exact fun a ha => hsince_e a (by simp [ha])
        · exact hwindow
      have hhead : (replies later ++ [z]).head? = some r := by
        have hsame : replies s.log = (replies later ++ [z]) ++ replies (mid ++ k :: older) := by
          rw [hlog, replies_append, replies_cons_of_reply hzreply]
          simp
        rw [hsame, List.head?_append_of_ne_nil _ (by simp)] at hnewest
        exact hnewest
      have hmem : ∀ a ∈ replies later ++ [z], a ∈ later ++ z :: mid := by
        intro a ha
        rcases List.mem_append.1 ha with ha | ha
        · exact List.mem_append_left _ (List.mem_of_mem_filter ha)
        · rw [List.mem_singleton.1 ha]; simp
      have hr_in := hmem r (List.mem_of_mem_head? hhead)
      -- Ages by the clock are true ages in this stretch.
      have hage_of : ∀ a ∈ later ++ z :: mid, (s.tick - a.core.tick).toNat = s.now - a.core.now :=
        fun a ha => Core.tick_sub (hclock a (List.mem_append_left _ ha))
          (by have := hsince_e a ha; omega)
      refine ⟨later ++ z :: mid, k, older, hsplit, hnewer, hk, ?_,
        replies later ++ [z], replies mid, r, z, ?_, ?_, ?_, hhead, by simp, ?_, ?_⟩
      · have hk_s := hclock k (by simp)
        rw [← hktick] at hstop
        have hage := BitVec.le_def.1 hstop
        have hsub : (s.tick - k.core.tick).toNat = s.now - k.core.now :=
          Core.tick_sub hk_s (by omega)
        rw [hsub] at hage
        have : Blade.REVERSE_OFF_MS.toNat = 1000 := rfl
        omega
      · rw [replies_append, replies_cons_of_reply hzreply]
        simp
      · intro a ha
        rcases List.mem_append.1 ha with ha | ha
        · have hreply : a.isReply = true := (List.mem_filter.1 ha).2
          exact (standing_of_calm hreply (hcalm a (List.mem_of_mem_filter ha))).1
        · rw [List.mem_singleton.1 ha]; exact hzstanding
      · have hlinked := h.linked
        rw [hlog] at hlinked
        refine (calm_chain hzreply hlinked hcalm).imp_of_mem_imp fun a b ha hb hgap => ?_
        have ha_e := hsince_e a (hmem a ha)
        have hb_e := hsince_e b (hmem b hb)
        have ha_s := hclock a (List.mem_append_left _ (hmem a ha))
        rcases Nat.le_total a.core.now b.core.now with hle | hle
        · omega
        · have hgap' := BitVec.le_def.1 hgap
          rw [Core.tick_sub hle (by omega)] at hgap'
          have : Blade.FEEDBACK_MAX_AGE_MS.toNat = 300 := rfl
          omega
      · have hz_r : z.core.now ≤ r.core.now := by
          rcases List.mem_append.1 (List.mem_of_mem_head? hhead) with hin | hin
          · exact (List.pairwise_append.1 hordered.1).2.2 r (List.mem_of_mem_filter hin) z (by simp)
          · rw [List.mem_singleton.1 hin]
        rw [hsince, ← hztick, ← hrtick] at hconfirm
        have hgap := BitVec.le_def.1 hconfirm
        have hz_e := hsince_e z (by simp)
        have hr_s := hclock r (List.mem_append_left _ hr_in)
        rw [Core.tick_sub hz_r (by omega)] at hgap
        have : Blade.ZERO_CONFIRM_MS.toNat = 300 := rfl
        omega
      · have hr_s := hage_of r hr_in
        rw [← hrtick] at hage
        have hage' := BitVec.le_def.1 hage
        rw [hr_s] at hage'
        have : Blade.FEEDBACK_MAX_AGE_MS.toNat = 300 := rfl
        omega
    · -- A stillness that has just begun is not long enough.
      rw [hsince, BitVec.sub_self] at hconfirm
      exact absurd hconfirm (by decide)

/-- What the choice of a command leaves behind, and what a command that turns the blade in
    another direction rests on. -/
structure Chosen (B : Board) (s : Firmware) (b : Blade) : Prop where
  inv : ReversalInv B (s.setBlade fun _ => b)
  command : b.command = B.stopCommand ∨ b.command = B.runCommand b.direction
  fresh : b.reversePending = true → b.offSent = false → b.zeroSeen = false
  law : ∀ m : Mark, m.core.now = s.now → m.obs = .bladeFrame b.command true →
    ReversalLaw B m s.log

theorem law_of_stop (hm : m.obs = .bladeFrame B.stopCommand true) : ReversalLaw B m past := by
  intro command hruns
  exact absurd (Obs.bladeFrame.inj (hm.symm.trans hruns.1)).1.symm hruns.2

theorem law_of_same (h : ReversalInv B s)
    (hm : m.obs = .bladeFrame (B.runCommand s.blade.runDirection) true) :
    ReversalLaw B m s.log := by
  intro command hruns hprev
  have hcommand : B.runCommand s.blade.runDirection = command :=
    (Obs.bladeFrame.inj (hm.symm.trans hruns.1)).1
  obtain ⟨later, e, past, hlog, hlater, before, he, hne, _⟩ := Since.iff_split.1 hprev
  have hbefore := h.run before (Since.iff_split.2 ⟨later, e, past, hlog, hlater, he⟩)
  exact absurd (hbefore.trans hcommand) hne

theorem startReversal (h : ReversalInv B s) :
    ReversalInv B (s.setBlade Blade.startReversal) ∧
      (Blade.startReversal s.blade).runDirection = s.blade.runDirection ∧
      ((Blade.startReversal s.blade).reversePending = false →
        (Blade.startReversal s.blade).direction = s.blade.runDirection) := by
  unfold Blade.startReversal
  cases hp : (!s.blade.reversePending && s.blade.direction != s.blade.runDirection) with
  | true =>
    refine ⟨?_, rfl, fun e => absurd (show true = false from e) (by simp)⟩
    refine h.pending (f := fun b => if (!b.reversePending && b.direction != b.runDirection) = true then
      { b with reversePending := true, offSent := false, zeroSeen := false } else b) ?_ ?_ ?_ ?_ ?_
    all_goals simp [hp]
  | false =>
    have hid : s.setBlade (fun b => if (!b.reversePending && b.direction != b.runDirection) = true
        then { b with reversePending := true, offSent := false, zeroSeen := false } else b) = s := by
      simp [Firmware.setBlade, hp]
    refine ⟨by rw [hid]; exact h, rfl, fun e => ?_⟩
    have he : s.blade.reversePending = false := e
    simpa [he] using hp

theorem chooseCommand (h : ReversalInv B s) : Chosen B s (Blade.chooseCommand B s.tick s.blade) := by
  obtain ⟨h₁, hrun, hdirection⟩ := h.startReversal
  have hrun₁ : (s.setBlade Blade.startReversal).blade.runDirection = s.blade.runDirection := hrun
  unfold Blade.chooseCommand
  dsimp only
  by_cases hp : (Blade.startReversal s.blade).reversePending = true
  · rw [if_pos hp]
    have h₂ := h₁.look hp
    have hlook := Blade.qualifiedForReverse_look s.tick (Blade.startReversal s.blade)
    have hstop := Blade.qualifiedForReverse_stop s.tick (Blade.startReversal s.blade)
    refine { inv := ?_, command := ?_, fresh := ?_, law := ?_ }
    · exact h₂.set rfl (Nat.le_refl _) ⟨rfl, rfl, rfl, rfl, fun hp => ⟨hp, rfl, rfl, rfl, rfl, rfl, rfl⟩⟩ rfl
    · dsimp only
      rw [hstop.direction]
      split
      · exact .inr rfl
      · exact .inl rfl
    · dsimp only
      intro _ hoff
      rw [hstop.offSent] at hoff
      generalize Blade.qualifiedForReverse s.tick (Blade.startReversal s.blade) = q at hlook ⊢
      cases hlook with
      | void b' hseen hseq => exact hseen
      | old b' hon hseq hseen => exact absurd (hoff.symm.trans hon) Bool.false_ne_true
      | counted released b' hon => exact absurd (hoff.symm.trans hon) Bool.false_ne_true
    · intro m hnow hm
      dsimp only at hm
      cases hq : (Blade.qualifiedForReverse s.tick (Blade.startReversal s.blade)).1 with
      | false =>
        rw [hq] at hm
        exact law_of_stop hm
      | true =>
        intro command hruns hprev
        rw [hnow] at hprev ⊢
        have hreleased := released h₁ hp hq
        refine hreleased (hprev.mono (fun _ he => he) ?_)
        rintro e _ ⟨before, he, _, hwindow⟩
        exact ⟨⟨before, he⟩, hwindow⟩
  · rw [if_neg hp]
    have hp' : (Blade.startReversal s.blade).reversePending = false := Bool.eq_false_iff.2 hp
    refine { inv := ?_, command := .inr rfl, fresh := fun e => absurd e hp, law := ?_ }
    · exact h₁.set rfl (Nat.le_refl _) ⟨rfl, rfl, rfl, rfl, fun hp => ⟨hp, rfl, rfl, rfl, rfl, rfl, rfl⟩⟩ rfl
    · intro m _ hm
      dsimp only at hm
      rw [hdirection hp'] at hm
      exact h.law_of_same hm

/-- A frame that does not turn the blade, or was not taken. -/
theorem noteFrame (h : ReversalInv B s) {command : Byte} {transmitted : Bool}
    (hruns : ∀ c, ¬(⟨s.toCore, .bladeFrame command transmitted⟩ : Mark).Runs B c) :
    ReversalInv B (s.note (.bladeFrame command transmitted)) :=
  h.of_base (h.toReversalBase.note (by simp) hruns) rfl (replies_cons_of_not rfl)

/-- A stop frame starts the clock of the stop. -/
theorem sentStop (h : ReversalInv B s) (hcommand : s.blade.command = B.stopCommand)
    (hfresh : s.blade.reversePending = true → s.blade.offSent = false → s.blade.zeroSeen = false) :
    ReversalInv B ((s.note (.bladeFrame s.blade.command true)).setBlade (Blade.sent s.tick)) := by
  have hmark : (⟨s.toCore, .bladeFrame s.blade.command true⟩ : Mark).IsStop B := by
    show Obs.bladeFrame s.blade.command true = _
    rw [hcommand]
  have hn : ReversalInv B (s.note (.bladeFrame s.blade.command true)) :=
    h.noteFrame fun c hc => hc.2 (by rw [← hcommand]; exact (Obs.bladeFrame.inj hc.1).1.symm)
  have hbit : s.blade.command &&& 0x80#8 = 0#8 := by rw [hcommand]; exact B.stop_bit
  cases hp : (s.blade.reversePending && !s.blade.offSent) with
  | true =>
    simp only [Bool.and_eq_true, Bool.not_eq_true'] at hp
    have hzero := hfresh hp.1 hp.2
    have hsent : Blade.sent s.tick s.blade = { s.blade with
        stopSince := s.tick, lastFeedbackSeq := s.blade.feedback.seq, offSent := true } := by
      simp [Blade.sent, hbit, hp]
    refine hn.pending (f := Blade.sent s.tick) ?_ ?_ ?_ ?_ ?_
    · show (Blade.sent s.tick s.blade).runDirection = _
      rw [hsent]
      rfl
    · show (Blade.sent s.tick s.blade).feedback = _
      rw [hsent]
      rfl
    · show (Blade.sent s.tick s.blade).offSent = true →
        StoppedAt B (Blade.sent s.tick s.blade).stopSince _
      rw [hsent]
      exact fun _ => .inl ⟨hmark, rfl⟩
    · show (Blade.sent s.tick s.blade).offSent = true →
        s.blade.feedback.seq ≠ (Blade.sent s.tick s.blade).lastFeedbackSeq → _
      rw [hsent]
      exact fun _ hne => absurd rfl hne
    · show (Blade.sent s.tick s.blade).offSent = true → (Blade.sent s.tick s.blade).zeroSeen = true → _
      rw [hsent]
      exact fun _ hz => absurd (hzero.symm.trans hz) Bool.false_ne_true
  | false =>
    have hsent : Blade.sent s.tick s.blade = s.blade := by
      simp only [Blade.sent, hbit, ne_eq, not_true_eq_false, if_false, hp, Bool.false_eq_true]
    exact hn.set rfl (Nat.le_refl _) (.of_eq hsent) (congrArg Blade.feedback hsent)

/-- A frame that turns the blade ends the reversal. -/
theorem sentRun (h : ReversalInv B s) (hcommand : s.blade.command = B.runCommand s.blade.direction)
    (hlaw : ReversalLaw B ⟨s.toCore, .bladeFrame s.blade.command true⟩ s.log) :
    ReversalInv B ((s.note (.bladeFrame s.blade.command true)).setBlade (Blade.sent s.tick)) := by
  have hbit : s.blade.command &&& 0x80#8 ≠ 0#8 := by
    rw [hcommand, Board.runCommand]
    split
    · exact B.reverse_bit
    · exact B.forward_bit
  have hsent : Blade.sent s.tick s.blade =
      { s.blade with runDirection := s.blade.direction, reversePending := false } := by
    simp [Blade.sent, hbit]
  have hne : s.blade.command ≠ B.stopCommand := fun he => hbit (he ▸ B.stop_bit)
  have hruns : (⟨s.toCore, .bladeFrame s.blade.command true⟩ : Mark).Runs B s.blade.command :=
    ⟨rfl, hne⟩
  have hpending : (Blade.sent s.tick s.blade).reversePending = false := by rw [hsent]
  have hfeedback : (Blade.sent s.tick s.blade).feedback = s.blade.feedback := by rw [hsent]
  have hreply : (⟨s.toCore, .bladeFrame s.blade.command true⟩ : Mark).isReply = false := rfl
  refine { clock := ?_, ordered := ⟨h.clock, h.ordered⟩
           paced := ⟨fun he => absurd (hreply.symm.trans he) Bool.false_ne_true, h.paced⟩
           count := ?_, newest := ?_
           linked := ⟨fun he => absurd (hreply.symm.trans he) Bool.false_ne_true, h.linked⟩
           run := fun command hs => ?_
           stopped := fun hp => absurd (hpending.symm.trans hp) Bool.false_ne_true
           fresh := fun hp => absurd (hpending.symm.trans hp) Bool.false_ne_true
           zero := fun hp => absurd (hpending.symm.trans hp) Bool.false_ne_true
           law := ⟨hlaw, h.law⟩, standing := ?_ }
  · rintro a (_ | ⟨_, ha⟩)
    · exact Nat.le_refl _
    · exact h.clock a ha
  · show (Blade.sent s.tick s.blade).feedback.zeroEpoch = BitVec.ofNat 32 (generation _ (_ :: s.log))
    rw [hfeedback, generation_cons_of_calm (breaksZero_false hreply)]
    exact h.count
  · show ∀ r ∈ (replies (_ :: s.log)).head?, (Blade.sent s.tick s.blade).feedback.tick = _
    rw [hfeedback, replies_cons_of_not hreply]
    exact h.newest
  · show command = B.runCommand (Blade.sent s.tick s.blade).runDirection
    rcases hs with hs | ⟨hnot, _⟩
    · rw [hsent]
      exact (Obs.bladeFrame.inj hs.1).1.symm.trans hcommand
    · exact absurd ⟨_, hruns⟩ hnot
  · show (Blade.sent s.tick s.blade).feedback.standing = true → ∀ r ∈ (replies (_ :: s.log)).head?, _
    rw [hfeedback, replies_cons_of_not hreply]
    exact h.standing

theorem handOver (h : ReversalInv B s) {transmitted : Bool} :
    ReversalInv B (Blade.handOver B transmitted s) := by
  obtain ⟨s₁, hs₁, hcase⟩ := Blade.prepareMsg_cases B s
  have h₁ : ReversalInv B s₁ := by
    rcases hs₁ with rfl | rfl
    · exact h
    · exact h.forceInhibit
  have hchosen : ∃ b, Chosen B s₁ b ∧ Blade.prepareMsg B s = s₁.setBlade fun _ => b := by
    rcases hcase with ⟨f, hf, hstop⟩ | ⟨_, hf⟩
    · refine ⟨f s₁.blade, ⟨?_, .inl hstop.command, fun hp => ?_, fun m _ hm => ?_⟩, hf⟩
      · exact h₁.give_up (f := fun _ => f s₁.blade) hstop.runDirection hstop.feedback
          hstop.reversePending
      · exact absurd (hstop.reversePending.symm.trans hp) Bool.false_ne_true
      · rw [hstop.command] at hm
        exact law_of_stop hm
    · exact ⟨_, h₁.chooseCommand, hf⟩
  obtain ⟨b, hb, hprepared⟩ := hchosen
  unfold Blade.handOver
  rw [hprepared]
  cases transmitted with
  | false => exact hb.inv.noteFrame fun c hc => absurd (Obs.bladeFrame.inj hc.1).2 Bool.false_ne_true
  | true =>
    rcases hb.command with hcommand | hcommand
    · exact hb.inv.sentStop hcommand hb.fresh
    · exact hb.inv.sentRun hcommand (hb.law _ rfl rfl)

theorem bladeStep (h : ReversalInv B s) (hs : BladeStep B s s') : ReversalInv B s' := by
  cases hs with
  | rest => exact h
  | inhibit => exact h.forceInhibit
  | update f hf => exact h.kept hf
  | drop => exact h.give_up rfl rfl rfl
  | handOver transmitted => exact h.handOver

theorem powerUp {now : Nat} {w : World} : ReversalInv B (.powerUp B now w) where
  clock a ha := absurd ha List.not_mem_nil
  ordered := trivial
  paced := trivial
  count := rfl
  newest r hr := absurd hr (by simp [replies, Firmware.powerUp])
  linked := trivial
  run _ hs := hs.elim
  stopped hp := absurd (show false = true from hp) Bool.false_ne_true
  fresh hp := absurd (show false = true from hp) Bool.false_ne_true
  zero hp := absurd (show false = true from hp) Bool.false_ne_true
  law := trivial
  standing hs := absurd (show false = true from hs) Bool.false_ne_true

theorem machine_run {now : Nat} {w : World} {es : List Blade.DriverEvent} :
    ReversalInv B ((Blade.machine B).run (start B now w) es).st := by
  have hrest : Machine.Preserves (ReversalInv B) (start B now w).fg := Routine.Does.ret
  exact Machine.invariant (M := Blade.machine B) (fun i _ h => h.irq i)
    (fun _ => Blade.does_app.mono fun _ _ hs h => h.bladeStep hs) (fun k => k.elim)
    (fun k => k.elim) powerUp hrest es

end ReversalInv

/-- **A blade turns the other way only after a confirmed stop.** -/
theorem reversal_after_stop (B : Board) (now : Nat) (w : World) (es : List Blade.DriverEvent) :
    Always (ReversalLaw B) ((Blade.machine B).run (start B now w) es).st.log :=
  ReversalInv.machine_run.law

end Actuation
end Mowgli
