import Mowgli.Blackbox.Collector
import Mowgli.Lib.Account
import Mowgli.Lib.History

/-!
# Window — no message of an incident goes missing unseen

What comes to the collector while an incident is open is copied, or counted as dropped: by the
capture itself where it is full, by the recorder everywhere else. **The count is read when the
incident is closed, and a message that waits in the queue then is in neither**; `Prompt` is the
condition that none does.
-/

namespace Mowgli
namespace Blackbox
namespace Recording

variable (out : Outside)

/-- Received between the trigger and the deadline. What was received at the very time of the
    trigger and handled before it is history. -/
def Capture.covers (c : Capture) (o : Observation) : Prop :=
  (c.trigger < o.stamp ∨ (c.trigger = o.stamp ∧ c.opened ≤ o.seq)) ∧ o.stamp ≤ c.deadline

instance (c : Capture) (o : Observation) : Decidable (c.covers o) :=
  inferInstanceAs (Decidable (_ ∧ _))

/-- A valid message of the incident. -/
def Capture.due (c : Capture) (o : Observation) : Bool := out.Valid o.data && decide (c.covers o)

/-! ## What an open capture has accounted for -/

structure Capture.Accounts (c : Capture) (handled : List Observation) (dropped : Nat) : Prop where
  kept : c.observations.Sublist handled
  start_le : c.startDrops ≤ dropped
  counted :
    Account.missing (c.due out) c.observations handled + c.startDrops ≤ c.drops + dropped

variable {out} {c : Capture} {o : Observation} {handled : List Observation} {lost : Nat}

/-- The window is not what `appendCapture` changes. -/
theorem Capture.append_fixed (out : Outside) (c : Capture) (o : Observation) :
    (c.append o).due out = c.due out ∧ (c.append o).startDrops = c.startDrops ∧
      (c.append o).observations.Sublist (c.observations ++ [o]) := by
  unfold Capture.append
  split
  · exact ⟨rfl, rfl, List.sublist_append_left _ _⟩
  · exact ⟨rfl, rfl, List.Sublist.refl _⟩

theorem Capture.Accounts.mono (h : c.Accounts out handled lost) {lost' : Nat}
    (hd : lost ≤ lost') : c.Accounts out handled lost' :=
  ⟨h.kept, Nat.le_trans h.start_le hd, Nat.le_trans h.counted (Nat.add_le_add_left hd _)⟩

/-- A message that was counted as dropped. -/
theorem Capture.Accounts.dropped (h : c.Accounts out handled lost) (o : Observation) :
    c.Accounts out (handled ++ [o]) (lost + 1) := by
  refine ⟨h.kept.trans (List.sublist_append_left _ _), Nat.le_succ_of_le h.start_le, ?_⟩
  have hone := Account.missing_snoc_le (c.due out) c.observations handled o
  have := h.counted
  omega

/-- A message that does not belong to the incident. -/
theorem Capture.Accounts.late (h : c.Accounts out handled lost) (ho : c.due out o = false) :
    c.Accounts out (handled ++ [o]) lost := by
  refine ⟨h.kept.trans (List.sublist_append_left _ _), h.start_le, ?_⟩
  rw [Account.missing_snoc handled fun hdue => absurd hdue (by simp [ho])]
  exact h.counted

theorem Capture.Accounts.append (h : c.Accounts out handled lost) (o : Observation) :
    (c.append o).Accounts out (handled ++ [o]) lost := by
  obtain ⟨hdue, hstart, hsub⟩ := c.append_fixed out o
  refine ⟨hsub.trans (h.kept.append (List.Sublist.refl _)), by rw [hstart]; exact h.start_le, ?_⟩
  rw [hdue, hstart]
  have hcounted := h.counted
  unfold Capture.append
  split
  · have hone :=
      Account.missing_snoc_le (c.due out) c.observations handled o
    simp only
    omega
  · simp only
    rw [Account.missing_snoc handled fun _ => by simp]
    have hkept : ∀ x ∈ c.observations, x ∈ c.observations ++ [o] := fun _ => List.mem_append_left _
    have hmono := Account.missing_mono (c.due out) hkept handled
    omega

/-- History is copied before the first message of the incident. -/
theorem Capture.foldl_append_fixed (out : Outside) (os : List Observation) (c : Capture) :
    (os.foldl Capture.append c).due out = c.due out ∧
      (os.foldl Capture.append c).startDrops = c.startDrops ∧
      (os.foldl Capture.append c).observations.Sublist (c.observations ++ os) := by
  induction os generalizing c with
  | nil => exact ⟨rfl, rfl, by simp⟩
  | cons o os ih =>
    obtain ⟨hdue, hstart, hsub⟩ := c.append_fixed out o
    obtain ⟨hdue', hstart', hsub'⟩ := ih (c.append o)
    refine ⟨hdue'.trans hdue, hstart'.trans hstart, hsub'.trans ?_⟩
    have := hsub.append (List.Sublist.refl os)
    rwa [List.append_assoc, List.singleton_append] at this

/-! ## What the recorder keeps true -/

structure Recorder.Kept (out : Outside) (r : Recorder) : Prop where
  sound : r.buffer.Sound
  limit : r.buffer.bytes ≤ r.historyLimit
  history : r.buffer.entries.Sublist r.handled
  active : ∀ c, r.active = some c →
    r.cfg.Enabled = true ∧ c.Accounts out r.handled r.dropped
  snapshots : ∀ w ∈ r.snapshots, w.observations.Sublist r.handled

/-- What has been handled came in order, and not after now. -/
def Recorder.Past (r : Recorder) (now : Int) : Prop :=
  ∀ o ∈ r.handled, o.seq < r.handled.length ∧ o.stamp ≤ now

/-- History may have been lost and messages counted, and nothing else that matters here. -/
structure Recorder.Alike (r r' : Recorder) : Prop where
  buffer : r.buffer.Shed r'.buffer
  memory : r'.effectiveMemory = r.effectiveMemory
  enabled : r'.cfg.Enabled = r.cfg.Enabled
  active : r'.active = r.active
  dropped : r.dropped ≤ r'.dropped
  handled : r'.handled = r.handled
  snapshots : r'.snapshots = r.snapshots

namespace Recorder

variable {r r' : Recorder} {now : Int}

theorem Kept.same_buffer (h : r.Kept out) : r.buffer.Shed r.buffer :=
  ⟨h.sound, rfl, List.suffix_refl _⟩

theorem Alike.kept (ha : r.Alike r') (h : r.Kept out) : r'.Kept out := by
  have hlimit : r'.historyLimit = r.historyLimit := by simp [historyLimit, ha.memory]
  refine ⟨ha.buffer.sound, ?_, ?_, ?_, ?_⟩
  · rw [hlimit]
    exact Int.le_trans (ha.buffer.bytes_le h.sound) h.limit
  · rw [ha.handled]
    exact ha.buffer.suffix.sublist.trans h.history
  · intro c hc
    rw [ha.active] at hc
    obtain ⟨hen, hacc⟩ := h.active c hc
    rw [ha.enabled, ha.handled]
    exact ⟨hen, hacc.mono ha.dropped⟩
  · intro w hw
    rw [ha.snapshots] at hw
    rw [ha.handled]
    exact h.snapshots w hw

theorem Kept.expire (h : r.Kept out) (now : Int) : (r.expire now).Kept out :=
  Alike.kept ⟨Ring.popWhile_shed h.sound _, rfl, rfl, rfl, Nat.le_refl _, rfl, rfl⟩ h

/-! ## Triggers -/

/-- What a trigger can come to. -/
theorem trigger_cases {P : Recorder → Prop} {reason : Bytes} (hsame : P r)
    (hcoalesce : ∀ c reason, r.active = some c → P (r.coalesce c reason))
    (hcount : P { r with coalesced := r.coalesced + 1 })
    (hfail : ∀ e, P { r with draws := r.draws + 1, lastError := e })
    (hpin : r.closed = false → r.cfg.Enabled = true → r.active = none →
      ∀ reason id, P ({ r with draws := r.draws + 1 }.pin reason now id)) :
    P (r.trigger out reason now).1 := by
  unfold trigger
  split
  · exact hsame
  · rename_i hopen
    have hclosed : r.closed = false := Bool.eq_false_iff.2 fun h => hopen (.inl h)
    have hen : r.cfg.Enabled = true := by
      cases he : r.cfg.Enabled with
      | false => exact absurd (.inr he) hopen
      | true => rfl
    simp only
    generalize (if reason.take 256 = [] then text "manual" else reason.take 256) = cut
    split
    · rename_i c hc
      exact hcoalesce c cut hc
    · rename_i hnone
      split
      · exact hcount
      · split
        · rename_i e _
          exact hfail e
        · exact hpin hclosed hen hnone cut _

/-- What a trigger leaves alone. -/
structure Fixed (r r' : Recorder) : Prop where
  cfg : r'.cfg = r.cfg
  writing : r'.writing = r.writing
  workers : r'.workers = r.workers
  closed : r'.closed = r.closed
  handled : r'.handled = r.handled
  snapshots : r'.snapshots = r.snapshots

theorem Fixed.refl (r : Recorder) : r.Fixed r := ⟨rfl, rfl, rfl, rfl, rfl, rfl⟩

theorem Fixed.trans {r'' : Recorder} (h : r.Fixed r') (h' : r'.Fixed r'') : r.Fixed r'' :=
  ⟨h'.cfg.trans h.cfg, h'.writing.trans h.writing, h'.workers.trans h.workers,
    h'.closed.trans h.closed, h'.handled.trans h.handled, h'.snapshots.trans h.snapshots⟩

theorem trigger_fixed (out : Outside) (r : Recorder) (reason : Bytes) (now : Int) :
    r.Fixed (r.trigger out reason now).1 := by
  apply trigger_cases
  · exact Fixed.refl r
  · intro c reason _
    exact ⟨rfl, rfl, rfl, rfl, rfl, rfl⟩
  · exact ⟨rfl, rfl, rfl, rfl, rfl, rfl⟩
  · intro e
    exact ⟨rfl, rfl, rfl, rfl, rfl, rfl⟩
  · intro _ _ _ reason id
    exact ⟨rfl, rfl, rfl, rfl, rfl, rfl⟩

/-- A new incident has all of its messages before it. -/
theorem Kept.pin (h : r.Kept out) (hpast : r.Past now) (hen : r.cfg.Enabled = true)
    (reason : Bytes) (id : String) : (r.pin reason now id).Kept out := by
  have he := h.expire now
  refine ⟨he.sound, he.limit, he.history, ?_, he.snapshots⟩
  intro c hc
  obtain rfl : _ = c := Option.some.inj hc
  obtain ⟨hdue, hstart, hsub⟩ := Capture.foldl_append_fixed out
    (r.expire now).buffer.entries ((r.expire now).newCapture reason now id)
  refine ⟨hen, hsub.trans ?_, ?_, ?_⟩
  · exact he.history
  · rw [hstart]
    exact Nat.le_refl _
  · rw [hdue, hstart, Account.missing_eq_zero]
    · show 0 + r.dropped ≤ _ + r.dropped
      omega
    · intro o ho hd
      obtain ⟨hseq, hstamp⟩ := hpast o ho
      have hcov : ((r.expire now).newCapture reason now id).covers o :=
        of_decide_eq_true (Bool.and_eq_true_iff.1 hd).2
      rcases hcov.1 with hlt | ⟨-, hle⟩
      · exact absurd hstamp (Int.not_le.2 hlt)
      · exact absurd hseq (Nat.not_lt.2 hle)

theorem Kept.coalesce (h : r.Kept out) (hc : r.active = some c) (reason : Bytes) :
    (r.coalesce c reason).Kept out := by
  refine ⟨h.sound, h.limit, h.history, ?_, h.snapshots⟩
  intro c' hc'
  obtain rfl := Option.some.inj hc'
  obtain ⟨hen, hacc⟩ := h.active c hc
  exact ⟨hen, hacc.kept, hacc.start_le, hacc.counted⟩

theorem Kept.trigger (h : r.Kept out) (hpast : r.Past now) (reason : Bytes) :
    (r.trigger out reason now).1.Kept out := by
  apply trigger_cases
  · exact h
  · intro c reason hc
    exact h.coalesce hc reason
  · exact ⟨h.sound, h.limit, h.history, h.active, h.snapshots⟩
  · intro e
    exact ⟨h.sound, h.limit, h.history, h.active, h.snapshots⟩
  · intro _ hen _ reason id
    exact Kept.pin (r := { r with draws := r.draws + 1 })
      ⟨h.sound, h.limit, h.history, h.active, h.snapshots⟩ hpast hen reason id

/-! ## Messages that trigger -/

/-- What triggers keep true, and changes of what is known of the senders. -/
theorem detect_keeps {P : Recorder → Prop}
    (htrigger : ∀ r reason, P r → P (r.trigger out reason now).1)
    (hemergency : ∀ r b, P r → P { r with emergency := b })
    (herrors : ∀ r m, P r → P { r with diagnosticErrors := m })
    (hskipped : ∀ r n, P r → P { r with skippedTriggerSources := n })
    (h : P r) (o : Observation) : P (r.detect out o now) := by
  have hstatus : ∀ r s, P r → P (detectStatus out o.topic now r s) := by
    intro r s hr
    unfold detectStatus
    simp only
    split
    · exact hskipped r _ hr
    · split
      · exact hr
      · apply herrors
        split
        · exact htrigger r _ hr
        · exact hr
  have hall : ∀ (status : List DiagnosticStatus) r, P r → P (status.foldl (detectStatus out o.topic now) r) := by
    intro status
    induction status with
    | nil => exact fun _ hr => hr
    | cons s status ih => exact fun r hr => ih _ (hstatus r s hr)
  have hem : P (if isEmergency o.topic then r.detectEmergency out o now else r) := by
    split
    · unfold detectEmergency
      split
      · exact h
      · apply hemergency
        split
        · exact htrigger r _ h
        · exact h
    · exact h
  unfold detect
  simp only
  split
  · unfold detectDiagnostics
    split
    · exact hem
    · exact hall _ _ hem
  · exact hem

theorem detect_fixed (r : Recorder) (o : Observation) (now : Int) :
    r.Fixed (r.detect out o now) := by
  apply detect_keeps
  · intro r' reason h
    exact h.trans (trigger_fixed out r' reason now)
  · intro r' b h
    exact h.trans ⟨rfl, rfl, rfl, rfl, rfl, rfl⟩
  · intro r' m h
    exact h.trans ⟨rfl, rfl, rfl, rfl, rfl, rfl⟩
  · intro r' n h
    exact h.trans ⟨rfl, rfl, rfl, rfl, rfl, rfl⟩
  · exact Fixed.refl r

theorem Kept.detect (h : r.Kept out) (hpast : r.Past now) (o : Observation) :
    (r.detect out o now).Kept out := by
  suffices hboth : (r.detect out o now).Kept out ∧ (r.detect out o now).Past now from hboth.1
  apply detect_keeps (P := fun r => r.Kept out ∧ r.Past now)
  · intro r' reason hr
    have hfixed := trigger_fixed out r' reason now
    refine ⟨hr.1.trigger hr.2 reason, ?_⟩
    unfold Past
    rw [hfixed.handled]
    exact hr.2
  · intro r' b hr
    exact ⟨⟨hr.1.sound, hr.1.limit, hr.1.history, hr.1.active, hr.1.snapshots⟩, hr.2⟩
  · intro r' m hr
    exact ⟨⟨hr.1.sound, hr.1.limit, hr.1.history, hr.1.active, hr.1.snapshots⟩, hr.2⟩
  · intro r' n hr
    exact ⟨⟨hr.1.sound, hr.1.limit, hr.1.history, hr.1.active, hr.1.snapshots⟩, hr.2⟩
  · exact ⟨h, hpast⟩

/-! ## A message from the queue -/

theorem Past.handling (h : r.Past now) (hseq : o.seq = r.handled.length) (hstamp : o.stamp ≤ now) :
    (r.handling o).Past now := by
  intro p hp
  show p.seq < (r.handled ++ [o]).length ∧ p.stamp ≤ now
  rw [List.length_append, List.length_singleton]
  rcases List.mem_append.1 hp with hold | hnew
  · obtain ⟨hlt, hle⟩ := h p hold
    exact ⟨Nat.lt_succ_of_lt hlt, hle⟩
  · obtain rfl := List.mem_singleton.1 hnew
    exact ⟨by omega, hstamp⟩

/-- A message that was counted as dropped. -/
theorem Kept.handling_drop (h : r.Kept out) (o : Observation) : (r.handling o).drop.Kept out := by
  refine ⟨h.sound, h.limit, h.history.trans (List.sublist_append_left _ _), ?_, ?_⟩
  · intro c hc
    obtain ⟨hen, hacc⟩ := h.active c hc
    exact ⟨hen, hacc.dropped o⟩
  · intro w hw
    exact (h.snapshots w hw).trans (List.sublist_append_left _ _)

/-- A message that has been handled but not yet shown to the capture. -/
structure Taken (r : Recorder) (o : Observation) (k : Recorder) : Prop where
  sound : k.buffer.Sound
  limit : k.buffer.bytes ≤ k.historyLimit
  history : k.buffer.entries.Sublist k.handled
  cfg : k.cfg = r.cfg
  active : k.active = r.active
  dropped : r.dropped ≤ k.dropped
  handled : k.handled = r.handled ++ [o]
  snapshots : k.snapshots = r.snapshots

theorem Kept.keep (h : r.Kept out) (o : Observation) (now : Int) :
    r.Taken o ((r.handling o).keep o now) := by
  have hsub := h.history.trans (List.sublist_append_left r.handled [o])
  unfold Recorder.keep
  split
  · exact ⟨h.sound, h.limit, hsub, rfl, rfl, Nat.le_succ _, rfl, rfl⟩
  · split
    · exact ⟨h.sound, h.limit, hsub, rfl, rfl, Nat.le_succ _, rfl, rfl⟩
    · rename_i b hb
      obtain ⟨hsound, -, hlimit, kept, hkept, hentries⟩ := Ring.append_spec h.sound hb
      refine ⟨hsound, hlimit, ?_, rfl, rfl, Nat.le_refl _, rfl, rfl⟩
      show b.entries.Sublist (r.handled ++ [o])
      rw [hentries]
      exact (hkept.sublist.trans h.history).append (List.Sublist.refl _)

theorem Kept.record (h : r.Kept out) {k : Recorder} (hk : r.Taken o k) :
    (k.record o).Kept out := by
  have hsnap : ∀ w ∈ k.snapshots, w.observations.Sublist k.handled := by
    intro w hw
    rw [hk.snapshots] at hw
    rw [hk.handled]
    exact (h.snapshots w hw).trans (List.sublist_append_left _ _)
  unfold Recorder.record
  split
  · rename_i c hc
    obtain ⟨hen, hacc⟩ := h.active c (hk.active.symm.trans hc)
    rw [← hk.cfg] at hen
    split
    · refine ⟨hk.sound, hk.limit, hk.history, ?_, hsnap⟩
      intro c' hc'
      obtain rfl := Option.some.inj hc'
      rw [hk.handled]
      exact ⟨hen, (hacc.mono hk.dropped).append o⟩
    · rename_i hlate
      refine ⟨hk.sound, hk.limit, hk.history, ?_, hsnap⟩
      intro c' hc'
      obtain rfl := Option.some.inj (hc.symm.trans hc')
      rw [hk.handled]
      have hdue : c.due out o = false := by simp [Capture.due, Capture.covers, hlate]
      exact ⟨hen, (hacc.mono hk.dropped).late hdue⟩
  · rename_i hnone
    refine ⟨hk.sound, hk.limit, hk.history, ?_, hsnap⟩
    intro c hc
    rw [hnone] at hc
    cases hc

theorem keep_fixed (r : Recorder) (o : Observation) (now : Int) : r.Fixed (r.keep o now) := by
  unfold Recorder.keep
  split
  · exact ⟨rfl, rfl, rfl, rfl, rfl, rfl⟩
  · split
    · exact ⟨rfl, rfl, rfl, rfl, rfl, rfl⟩
    · exact ⟨rfl, rfl, rfl, rfl, rfl, rfl⟩

theorem record_fixed (r : Recorder) (o : Observation) : r.Fixed (r.record o) := by
  unfold Recorder.record
  split
  · split
    · exact ⟨rfl, rfl, rfl, rfl, rfl, rfl⟩
    · exact Fixed.refl r
  · exact Fixed.refl r

theorem process_fixed (out : Outside) (r : Recorder) (o : Observation) (now : Int) :
    (r.handling o).Fixed (r.process out o now) := by
  have hexp : (r.handling o).Fixed ((r.handling o).expire now) := ⟨rfl, rfl, rfl, rfl, rfl, rfl⟩
  unfold Recorder.process Recorder.take
  simp only
  split
  · exact ⟨rfl, rfl, rfl, rfl, rfl, rfl⟩
  · split
    · split
      · exact ⟨rfl, rfl, rfl, rfl, rfl, rfl⟩
      · exact ((hexp.trans (keep_fixed _ o now)).trans (record_fixed _ o)).trans
          (detect_fixed _ o now)
    · split
      · have hdrop : (r.handling o).Fixed (r.handling o).drop := ⟨rfl, rfl, rfl, rfl, rfl, rfl⟩
        exact hdrop.trans (detect_fixed _ o now)
      · exact Fixed.refl _

/-- **Whatever becomes of a message, an open capture accounts for it.** -/
theorem Kept.process (h : r.Kept out) (hpast : r.Past now) (hseq : o.seq = r.handled.length)
    (hstamp : o.stamp ≤ now) : (r.process out o now).Kept out := by
  have hpast' := hpast.handling hseq hstamp
  unfold Recorder.process Recorder.take
  simp only
  split
  · exact h.handling_drop o
  · split
    · split
      · exact (h.expire now).handling_drop o
      · have hkeep := (h.expire now).keep o now
        have hrecord := (h.expire now).record hkeep
        refine hrecord.detect ?_ o
        unfold Past
        rw [(record_fixed _ o).handled, hkeep.handled]
        exact hpast'
    · split
      · exact (h.handling_drop o).detect hpast' o
      · rename_i hoff
        -- a capture is open only while the recorder is enabled
        refine ⟨h.sound, h.limit, h.history.trans (List.sublist_append_left _ _), ?_, ?_⟩
        · intro c hc
          exact absurd (h.active c hc).1 hoff
        · intro w hw
          exact (h.snapshots w hw).trans (List.sublist_append_left _ _)

/-! ## The end of an incident -/

theorem Kept.finish (h : r.Kept out) (hc : r.active = some c) (interrupted : Bool) :
    (r.finish c interrupted).Kept out := by
  refine ⟨h.sound, h.limit, h.history, ?_, ?_⟩
  · intro c' hc'
    cases hc'
  · intro w hw
    rcases List.mem_append.1 hw with hold | hnew
    · exact h.snapshots w hold
    · obtain rfl := List.mem_singleton.1 hnew
      exact (h.active c hc).2.kept

/-- **What is missing when an incident ends has been counted.** -/
theorem Kept.finished (h : r.Kept out) (hc : r.active = some c) (interrupted : Bool) :
    Account.missing ((r.finished c interrupted).due out) (r.finished c interrupted).observations
      r.handled ≤ (r.finished c interrupted).metadata.CaptureDroppedMessages := by
  have hcounted := (h.active c hc).2.counted
  show Account.missing (c.due out) c.observations r.handled ≤ c.drops + r.dropped - c.startDrops
  omega

theorem Kept.finishDue (h : r.Kept out) (now : Int) : (r.finishDue now).Kept out := by
  unfold Recorder.finishDue
  split
  · rename_i c hc
    split
    · exact h.finish hc false
    · exact h
  · exact h

theorem Kept.tick (h : r.Kept out) (now : Int) : (r.tick now).Kept out := by
  unfold Recorder.tick
  simp only
  split
  · exact h.expire now
  · exact (h.expire now).finishDue now

theorem Kept.finishInterrupted (h : r.Kept out) : r.finishInterrupted.Kept out := by
  unfold Recorder.finishInterrupted
  split
  · rename_i c hc
    exact h.finish hc true
  · exact h

theorem Kept.applyWriteResult (h : r.Kept out) (res : WriteResult) :
    (r.applyWriteResult res).Kept out :=
  ⟨h.sound, h.limit, h.history, h.active, h.snapshots⟩

theorem Kept.applyPressure (h : r.Kept out) (s : ResourceSample) : (r.applyPressure s).Kept out := by
  have hshed : r.buffer.Shed (r.applyPressure s).buffer := by
    unfold Recorder.applyPressure
    simp only
    split
    · exact Ring.popWhile_shed h.sound _
    · exact h.same_buffer
  exact Alike.kept ⟨hshed, rfl, rfl, rfl, Nat.le_refl _, rfl, rfl⟩ h

theorem Kept.forget (h : r.Kept out) : r.forget.Kept out :=
  Alike.kept ⟨Ring.popWhile_shed h.sound _, rfl, rfl, rfl, Nat.le_refl _, rfl, rfl⟩ h

theorem Kept.startPrune (h : r.Kept out) : r.startPrune.Kept out := by
  unfold Recorder.startPrune
  split
  · exact h
  · exact ⟨h.sound, h.limit, h.history, h.active, h.snapshots⟩

theorem Kept.discard (h : r.Kept out) (o : Observation) : (r.discard o).Kept out :=
  h.handling_drop o

/-! ## Settings -/

theorem historyLimit_nonneg {memory : Int} (h : mebi 4 ≤ memory) : 0 ≤ historyLimitOf memory := by
  have h4 : 4194304 ≤ memory := h
  have hreserve : ((queueCapacity * (maxPayload + 256 + recordOverhead) : Nat) : Int) = 1081344 := by
    decide
  have hquarter : memory.tdiv 4 = memory / 4 := Int.tdiv_eq_ediv_of_nonneg (by omega)
  unfold historyLimitOf
  rw [hreserve, hquarter]
  apply Int.tdiv_nonneg
  · omega
  · decide

theorem allocateBuffer_sound (memory : Int) : (allocateBuffer memory).Sound := by
  have hroom : 0 < (allocateBuffer memory).size := by
    unfold allocateBuffer
    simp only
    split
    · decide
    · split <;> omega
  exact ⟨hroom, hroom, Nat.zero_le _, rfl⟩

/-- What is carried over is some of what there was. -/
theorem carry_all (cfg : Config) {limit : Int} (os : List Observation) :
    ∀ {b : Ring}, b.Sound → b.bytes ≤ limit →
      (os.foldl (carry cfg limit) b).Sound ∧ (os.foldl (carry cfg limit) b).bytes ≤ limit ∧
        (os.foldl (carry cfg limit) b).entries.Sublist (b.entries ++ os) := by
  induction os with
  | nil =>
    intro b hs hb
    exact ⟨hs, hb, by simp⟩
  | cons o os ih =>
    intro b hs hb
    have hone : (carry cfg limit b o).Sound ∧ (carry cfg limit b o).bytes ≤ limit ∧
        (carry cfg limit b o).entries.Sublist (b.entries ++ [o]) := by
      have hsame : b.Sound ∧ b.bytes ≤ limit ∧ b.entries.Sublist (b.entries ++ [o]) :=
        ⟨hs, hb, List.sublist_append_left _ _⟩
      unfold carry
      split
      · cases ha : b.append o limit with
        | none => exact hsame
        | some b' =>
          obtain ⟨hsound, -, hlimit, kept, hkept, hentries⟩ := Ring.append_spec hs ha
          refine ⟨hsound, hlimit, ?_⟩
          show b'.entries.Sublist _
          rw [hentries]
          exact hkept.sublist.append (List.Sublist.refl _)
      · exact hsame
    obtain ⟨hsound, hlimit, hsub⟩ := hone
    obtain ⟨hsound', hlimit', hsub'⟩ := ih hsound hlimit
    refine ⟨hsound', hlimit', hsub'.trans ?_⟩
    have := hsub.append (List.Sublist.refl os)
    rwa [List.append_assoc, List.singleton_append] at this

theorem Kept.configure (h : r.Kept out) (hactive : r.active = none) {cfg : Config}
    (hcfg : cfg.Validate = none) (s : ResourceSample) (now : Int) :
    (r.configure cfg s now).Kept out := by
  have hfree : ∀ c, r.active = some c → False := by
    intro c hc
    rw [hactive] at hc
    cases hc
  have hresize : ({ r with cfg := cfg }.resize cfg r.cfg s).Kept out := by
    unfold Recorder.resize
    split
    · have hmem := le_initialMemoryBudget (s := s) (Config.memory_of_validate hcfg)
      obtain ⟨hsound, hlimit, hsub⟩ := carry_all cfg r.buffer.entries
        (allocateBuffer_sound (initialMemoryBudget cfg.MemoryBytes s))
        (historyLimit_nonneg hmem)
      refine ⟨hsound, hlimit, ?_, fun c hc => (hfree c hc).elim, h.snapshots⟩
      exact hsub.trans h.history
    · exact ⟨h.sound, h.limit, h.history, fun c hc => (hfree c hc).elim, h.snapshots⟩
  have hexp := hresize.expire now
  unfold Recorder.configure
  simp only
  generalize ({ r with cfg := cfg }.resize cfg r.cfg s).expire now = r₁ at hexp
  have hforget : (if cfg.Enabled then r₁ else r₁.forget).Kept out := by
    split
    · exact hexp
    · exact hexp.forget
  generalize (if cfg.Enabled then r₁ else r₁.forget) = r₂ at hforget
  split
  · exact hforget.startPrune
  · exact hforget

theorem Kept.start {cfg : Config} (hcfg : cfg.Validate = none) (s : ResourceSample)
    (hasCompleted : Bool) : (Recorder.start cfg s hasCompleted).Kept out := by
  have hmem := le_initialMemoryBudget (s := s) (Config.memory_of_validate hcfg)
  have hnew : Recorder.Kept out
      { cfg := cfg
        buffer := allocateBuffer (initialMemoryBudget cfg.MemoryBytes s)
        effectiveMemory := initialMemoryBudget cfg.MemoryBytes s
        pressure := s.scarce } := by
    refine ⟨allocateBuffer_sound _, historyLimit_nonneg hmem, List.nil_sublist _, ?_, ?_⟩
    · intro c hc
      cases hc
    · intro w hw
      cases hw
  unfold Recorder.start
  simp only
  split
  · exact hnew.startPrune
  · exact hnew

end Recorder

end Recording
end Blackbox
end Mowgli
