import Mathlib.Data.Nat.ModEq
import Mowgli.Actuation.Policy
import Mowgli.Lib.Trace

/-!
# LinkRearm — a motor-link fault inhibits until a fresh zero/off phase

`update_link_rearm` over whole traces of calls. Between two calls the motor loop may also
raise the requirement itself, when the last check before the output finds a link gone
(`LinkEvent.raise`); power-up counts as the first such raise.

The state keeps the fault counters of the last call and the zero-phase counter of the last
step that **rebased** it. `Based` says exactly that of a log, and is the invariant the
sentences about a trace follow from.

The sentences are about ideal counters, in `Nat`. The code's counters have 32 bits:
`truncated` compares the two runs, and they differ only after a counter has advanced by a
positive multiple of 2^32 between two calls.
-/

namespace Mowgli
namespace Actuation

open Trace

/-! ## Traces -/

inductive LinkEvent (C : Type) where
  | update (i : LinkInputs C)
  /-- `required = true; zero_phase_baseline = host_zero_phase_sequence`. -/
  | raise (zeroPhase : C)

structure LinkMark (C : Type) where
  event : LinkEvent C
  before : LinkRearmState C
  after : LinkRearmState C

variable {C : Type}

def LinkRearmState.faults (s : LinkRearmState C) : C × C :=
  (s.driveFaultSequence, s.bladeFaultSequence)

def LinkInputs.faults (i : LinkInputs C) : C × C := (i.driveFaultSequence, i.bladeFaultSequence)

/-- What the motor loop writes when it inhibits by itself. -/
def LinkRearmState.raised (s : LinkRearmState C) (zeroPhase : C) : LinkRearmState C :=
  { s with required := true, zeroPhaseBaseline := zeroPhase }

variable [DecidableEq C]

def LinkEvent.apply (s : LinkRearmState C) : LinkEvent C → LinkRearmState C
  | .update i => updateLinkRearm s i
  | .raise zeroPhase => s.raised zeroPhase

/-- The log of a trace, newest first, from the log so far. -/
def linkLog (s : LinkRearmState C) (log : List (LinkMark C)) :
    List (LinkEvent C) → List (LinkMark C)
  | [] => log
  | e :: es => linkLog (e.apply s) (⟨e, s, e.apply s⟩ :: log) es

/-- The log of a trace from power-up. -/
def linkTrace (zero : C) (es : List (LinkEvent C)) : List (LinkMark C) :=
  linkLog (.powerUp zero) [⟨.raise zero, .powerUp zero, .powerUp zero⟩] es

/-- The step set the baseline: it found a fault, or raised the requirement. -/
def LinkMark.Rebases (m : LinkMark C) : Prop :=
  ∀ i, m.event = .update i → i.linksHealthy = false ∨ m.before.newFault i = true

/-! ## One call -/

variable {s : LinkRearmState C} {i : LinkInputs C} {log : List (LinkMark C)}

/-- **What one call can do**: a fault rebases, a fresh zero/off phase re-arms, and anything
    else changes neither the requirement nor the baseline. -/
theorem updateLinkRearm_cases (s : LinkRearmState C) (i : LinkInputs C) :
    (updateLinkRearm s i).faults = i.faults ∧
    ((i.linksHealthy = false ∨ s.newFault i = true) ∧
        (updateLinkRearm s i).required = true ∧
        (updateLinkRearm s i).zeroPhaseBaseline = i.zeroPhaseSequence ∧
        (updateLinkRearm s i).rearmCompleted = false ∨
      (i.linksHealthy = true ∧ s.newFault i = false) ∧
        (updateLinkRearm s i).zeroPhaseBaseline = s.zeroPhaseBaseline ∧
        ((s.required = true ∧ i.hostZeroIntent = true ∧ i.bladeOff = true ∧
            i.zeroPhaseSequence ≠ s.zeroPhaseBaseline) ∧
            (updateLinkRearm s i).required = false ∧
            (updateLinkRearm s i).rearmCompleted = true ∨
          (updateLinkRearm s i).required = s.required ∧
            (updateLinkRearm s i).rearmCompleted = false)) := by
  unfold updateLinkRearm
  cases hh : i.linksHealthy with
  | false => simp [LinkRearmState.faults, LinkInputs.faults]
  | true =>
    cases hf : s.newFault i with
    | true => simp [LinkRearmState.faults, LinkInputs.faults]
    | false =>
      by_cases hc : (s.required && i.hostZeroIntent && i.bladeOff &&
          i.zeroPhaseSequence != s.zeroPhaseBaseline) = true
      · simp only [hc]
        simp only [Bool.and_eq_true, bne_iff_ne, ne_eq] at hc
        obtain ⟨⟨⟨hr, hz⟩, ho⟩, hne⟩ := hc
        simp [LinkRearmState.faults, LinkInputs.faults, hr, hz, ho, hne]
      · simp only [hc]
        simp [LinkRearmState.faults, LinkInputs.faults]

theorem newFault_faults (h : s.newFault i = false) : i.faults = s.faults := by
  unfold LinkRearmState.newFault at h
  simp only [Bool.or_eq_false_iff, bne_eq_false_iff_eq] at h
  exact Prod.ext h.1.1 h.1.2

/-! ## The invariant -/

/-- The step that set the baseline, and no fault since. -/
def Based (s : LinkRearmState C) (log : List (LinkMark C)) : Prop :=
  Since (fun m => ¬m.Rebases ∧ m.after.faults = s.faults)
    (fun m _ => m.Rebases ∧ m.after.faults = s.faults ∧
      m.after.zeroPhaseBaseline = s.zeroPhaseBaseline) log

/-- The last call was made with the counters the state has. -/
def LastCall (s : LinkRearmState C) (log : List (LinkMark C)) : Prop :=
  ∀ j, Since (fun m => ∀ k, m.event ≠ .update k) (fun m _ => m.event = .update j) log →
    j.faults = s.faults

theorem Based.step {e : LinkEvent C} (h : Based s log) :
    Based (e.apply s) (⟨e, s, e.apply s⟩ :: log) := by
  cases e with
  | raise z => exact .inl ⟨fun i hi => absurd hi (by simp), rfl, rfl⟩
  | update i =>
    obtain ⟨_, hc | ⟨⟨hh, hf⟩, hbase, _⟩⟩ := updateLinkRearm_cases s i
    · refine .inl ⟨fun j hj => ?_, rfl, rfl⟩
      obtain rfl := LinkEvent.update.inj hj
      exact hc.1
    · have hfaults : (updateLinkRearm s i).faults = s.faults :=
        (updateLinkRearm_cases s i).1.trans (newFault_faults hf)
      refine .inr ⟨⟨fun hr => ?_, rfl⟩, ?_⟩
      · have := hr i rfl
        simp [hh, hf] at this
      · show Since _ _ log
        rw [LinkEvent.apply, hfaults, hbase]
        exact h

theorem LastCall.step {e : LinkEvent C} (h : LastCall s log) :
    LastCall (e.apply s) (⟨e, s, e.apply s⟩ :: log) := by
  intro j hj
  cases e with
  | raise z =>
    rcases hj with hj | ⟨_, hj⟩
    · exact absurd hj (by simp)
    · exact h j hj
  | update i =>
    rcases hj with hj | ⟨hno, _⟩
    · obtain rfl := LinkEvent.update.inj hj
      exact (updateLinkRearm_cases s i).1.symm
    · exact absurd rfl (hno i)

/-! ## Sentences about a trace -/

/-- The requirement went from true to false by this call. -/
def LinkMark.Rearms (m : LinkMark C) : Prop := m.before.required = true ∧ m.after.required = false

/-- A fault that only its counter shows forces the requirement at the next call. -/
def HiddenFault (m : LinkMark C) (past : List (LinkMark C)) : Prop :=
  ∀ i j, m.event = .update i →
    Since (fun b => ∀ k, b.event ≠ .update k) (fun b _ => b.event = .update j) past →
    j.faults ≠ i.faults → m.after.required = true

/-- `rearm_completed` is the event of re-arming. -/
def Completes (m : LinkMark C) (_ : List (LinkMark C)) : Prop :=
  ∀ i, m.event = .update i → (m.after.rearmCompleted = true ↔ m.Rearms)

/-- A call that re-arms has both links healthy, host zero intent and the blade off; no
    fault counter has moved since the step that set the baseline, and the zero phase has
    advanced since. -/
def RearmedFresh (m : LinkMark Nat) (past : List (LinkMark Nat)) : Prop :=
  m.Rearms → ∃ i, m.event = .update i ∧
    i.linksHealthy = true ∧ i.hostZeroIntent = true ∧ i.bladeOff = true ∧
    Since (fun b => ¬b.Rebases ∧ b.after.faults = i.faults)
      (fun b _ => b.Rebases ∧ b.after.faults = i.faults ∧
        b.after.zeroPhaseBaseline < i.zeroPhaseSequence) past

theorem LastCall.hiddenFault {e : LinkEvent C} (h : LastCall s log) :
    HiddenFault ⟨e, s, e.apply s⟩ log := by
  intro i j he hj hne
  obtain rfl : e = .update i := he
  obtain ⟨_, hc | ⟨⟨_, hf⟩, _⟩⟩ := updateLinkRearm_cases s i
  · exact hc.2.1
  · exact absurd ((h j hj).trans (newFault_faults hf).symm) hne

theorem completes {e : LinkEvent C} : Completes ⟨e, s, e.apply s⟩ log := by
  intro i he
  obtain rfl : e = .update i := he
  unfold LinkMark.Rearms
  obtain ⟨_, ⟨_, hreq, _, hdone⟩ | ⟨_, _, ⟨hs, hreq, hdone⟩ | ⟨hreq, hdone⟩⟩⟩ :=
    updateLinkRearm_cases s i
  · simp [LinkEvent.apply, hreq, hdone]
  · simp [LinkEvent.apply, hreq, hdone, hs.1]
  · simp only [LinkEvent.apply, hreq, hdone]
    cases s.required <;> simp

theorem Based.rearmedFresh {s : LinkRearmState Nat} {log : List (LinkMark Nat)}
    {e : LinkEvent Nat} (h : Based s log)
    (hle : ∀ i, e = .update i → s.zeroPhaseBaseline ≤ i.zeroPhaseSequence) :
    RearmedFresh ⟨e, s, e.apply s⟩ log := by
  intro ⟨hbefore, hafter⟩
  cases e with
  | raise z => exact absurd hafter (by simp [LinkEvent.apply, LinkRearmState.raised])
  | update i =>
    obtain ⟨_, ⟨_, hreq, _⟩ | ⟨⟨hh, hf⟩, _, ⟨hs, _⟩ | ⟨hreq, _⟩⟩⟩ := updateLinkRearm_cases s i
    · exact absurd (hreq.symm.trans hafter) (by simp)
    · refine ⟨i, rfl, hh, hs.2.1, hs.2.2.1, h.mono (fun b hb => ⟨hb.1, ?_⟩)
        fun b _ hb => ⟨hb.1, ?_, ?_⟩⟩
      · rw [newFault_faults hf]; exact hb.2
      · rw [newFault_faults hf]; exact hb.2.1
      · rw [hb.2.2]
        exact lt_of_le_of_ne (hle i rfl) (Ne.symm hs.2.2.2)
    · exact absurd (hbefore.symm.trans (hreq.symm.trans hafter)) (by simp)

/-! ## Non-decreasing counters -/

/-- The zero phase an event was given. -/
def LinkEvent.zeroPhase : LinkEvent C → C
  | .update i => i.zeroPhaseSequence
  | .raise z => z

theorem baseline_le {s : LinkRearmState Nat} {e : LinkEvent Nat} {n : Nat}
    (hs : s.zeroPhaseBaseline ≤ n) (he : e.zeroPhase ≤ n) :
    (e.apply s).zeroPhaseBaseline ≤ n := by
  cases e with
  | raise z => exact he
  | update i =>
    obtain ⟨_, ⟨_, _, hb, _⟩ | ⟨_, hb, _⟩⟩ := updateLinkRearm_cases s i
    · exact hb ▸ he
    · exact hb ▸ hs

variable {es : List (LinkEvent Nat)}

theorem linkLog_holds {s : LinkRearmState Nat} {log : List (LinkMark Nat)} (hb : Based s log)
    (hc : LastCall s log)
    (hlog : Always (fun m past => RearmedFresh m past ∧ HiddenFault m past ∧ Completes m past) log)
    (hmono : (es.map LinkEvent.zeroPhase).Pairwise (· ≤ ·))
    (hbase : ∀ e ∈ es, s.zeroPhaseBaseline ≤ e.zeroPhase) :
    Always (fun m past => RearmedFresh m past ∧ HiddenFault m past ∧ Completes m past)
      (linkLog s log es) := by
  induction es generalizing s log with
  | nil => exact hlog
  | cons e es ih =>
    rw [List.map_cons, List.pairwise_cons] at hmono
    have hhead := hbase e (by simp)
    refine ih hb.step hc.step ⟨⟨?_, hc.hiddenFault, completes⟩, hlog⟩ hmono.2 fun e' he' => ?_
    · refine hb.rearmedFresh fun i hi => ?_
      subst hi
      exact hhead
    · exact baseline_le (hbase e' (by simp [he'])) (hmono.1 _ (List.mem_map_of_mem he'))

/-! ## 32-bit counters -/

def LinkInputs.map {D : Type} (f : C → D) (i : LinkInputs C) : LinkInputs D :=
  { linksHealthy := i.linksHealthy, zeroPhaseSequence := f i.zeroPhaseSequence
    hostZeroIntent := i.hostZeroIntent, bladeOff := i.bladeOff
    driveFaultSequence := f i.driveFaultSequence, bladeFaultSequence := f i.bladeFaultSequence
    linkInhibited := i.linkInhibited }

def LinkEvent.map {D : Type} (f : C → D) : LinkEvent C → LinkEvent D
  | .update i => .update (i.map f)
  | .raise z => .raise (f z)

/-- The requirement and the re-arm event of every step, newest first. -/
def outcomes (log : List (LinkMark C)) : List (Bool × Bool) :=
  log.map fun m => (m.after.required, m.after.rearmCompleted)

/-- The three counters of a link. -/
inductive LinkCounter where
  | zeroPhase
  | driveFault
  | bladeFault

/-- What an event read of a counter; a raise reads the zero phase alone. -/
def LinkCounter.reading : LinkCounter → LinkEvent Nat → Option Nat
  | .zeroPhase, e => some e.zeroPhase
  | .driveFault, .update i => some i.driveFaultSequence
  | .bladeFault, .update i => some i.bladeFaultSequence
  | _, .raise _ => none

/-- The counter was read as `n`, at power-up or by an event. -/
def LinkCounter.Read (c : LinkCounter) (es : List (LinkEvent Nat)) (n : Nat) : Prop :=
  n = 0 ∨ ∃ e ∈ es, c.reading e = some n

/-- Between two readings the counter has advanced by a positive multiple of 2^32. -/
def LinkCounter.Overtaken (c : LinkCounter) (es : List (LinkEvent Nat)) : Prop :=
  ∃ a b, c.Read es a ∧ c.Read es b ∧ a < b ∧ 2 ^ 32 ∣ b - a

abbrev low32 (n : Nat) : BitVec 32 := BitVec.ofNat 32 n

/-- The 32-bit state has the low bits of the ideal one. -/
def Truncates (s : LinkRearmState (BitVec 32)) (t : LinkRearmState Nat) : Prop :=
  s.required = t.required ∧ s.zeroPhaseBaseline = low32 t.zeroPhaseBaseline ∧
    s.driveFaultSequence = low32 t.driveFaultSequence ∧
    s.bladeFaultSequence = low32 t.bladeFaultSequence ∧ s.rearmCompleted = t.rearmCompleted

/-- Counters that were not overtaken compare as their low bits do. -/
theorem LinkCounter.compares {c : LinkCounter} {a b : Nat} (h : ¬c.Overtaken es) (ha : c.Read es a)
    (hb : c.Read es b) : (low32 a != low32 b) = (a != b) := by
  by_cases heq : a = b
  · simp [heq]
  have hne : low32 a ≠ low32 b := by
    intro hlow
    have hmod : a % 2 ^ 32 = b % 2 ^ 32 := by
      simpa [low32] using congrArg BitVec.toNat hlow
    rcases Nat.lt_or_gt_of_ne heq with hlt | hlt
    · exact h ⟨a, b, ha, hb, hlt, (Nat.modEq_iff_dvd' (Nat.le_of_lt hlt)).1 hmod⟩
    · exact h ⟨b, a, hb, ha, hlt, (Nat.modEq_iff_dvd' (Nat.le_of_lt hlt)).1 hmod.symm⟩
  rw [bne_iff_ne.2 hne, bne_iff_ne.2 heq]

theorem Truncates.step {s : LinkRearmState (BitVec 32)} {t : LinkRearmState Nat}
    {e : LinkEvent Nat} (h : Truncates s t)
    (hz : ∀ i, e = .update i → (low32 i.zeroPhaseSequence != low32 t.zeroPhaseBaseline) =
      (i.zeroPhaseSequence != t.zeroPhaseBaseline))
    (hd : ∀ i, e = .update i → (low32 i.driveFaultSequence != low32 t.driveFaultSequence) =
      (i.driveFaultSequence != t.driveFaultSequence))
    (hb : ∀ i, e = .update i → (low32 i.bladeFaultSequence != low32 t.bladeFaultSequence) =
      (i.bladeFaultSequence != t.bladeFaultSequence)) :
    Truncates ((e.map low32).apply s) (e.apply t) := by
  obtain ⟨hr, hbase, hdrive, hblade, hdone⟩ := h
  cases e with
  | raise z => exact ⟨rfl, rfl, hdrive, hblade, hdone⟩
  | update i =>
    have hfault : s.newFault (i.map low32) = t.newFault i := by
      simp only [LinkRearmState.newFault, LinkInputs.map, hdrive, hblade, hr, hd i rfl, hb i rfl]
    simp only [LinkEvent.map, LinkEvent.apply, updateLinkRearm, hfault]
    simp only [LinkInputs.map, hr, hbase, hz i rfl]
    by_cases hc : (!i.linksHealthy || t.newFault i) = true
    · simp [hc, Truncates]
    · by_cases ha : (t.required && i.hostZeroIntent && i.bladeOff &&
          i.zeroPhaseSequence != t.zeroPhaseBaseline) = true
      · simp [hc, ha, Truncates]
      · simp [hc, ha, Truncates]

/-- The state keeps readings of its three counters. -/
structure Keeps (all : List (LinkEvent Nat)) (t : LinkRearmState Nat) : Prop where
  zeroPhase : LinkCounter.zeroPhase.Read all t.zeroPhaseBaseline
  driveFault : LinkCounter.driveFault.Read all t.driveFaultSequence
  bladeFault : LinkCounter.bladeFault.Read all t.bladeFaultSequence

theorem Keeps.step {all : List (LinkEvent Nat)} {t : LinkRearmState Nat} {e : LinkEvent Nat}
    (h : Keeps all t) (he : e ∈ all) : Keeps all (e.apply t) := by
  cases e with
  | raise z => exact ⟨.inr ⟨_, he, rfl⟩, h.driveFault, h.bladeFault⟩
  | update i =>
    obtain ⟨hfaults, hc⟩ := updateLinkRearm_cases t i
    refine ⟨?_, ?_, ?_⟩
    · rcases hc with ⟨_, _, hb, _⟩ | ⟨_, hb, _⟩
      · exact .inr ⟨_, he, congrArg some hb.symm⟩
      · exact hb.symm ▸ h.zeroPhase
    · exact .inr ⟨_, he, congrArg some (congrArg Prod.fst hfaults).symm⟩
    · exact .inr ⟨_, he, congrArg some (congrArg Prod.snd hfaults).symm⟩

theorem linkLog_truncated {all : List (LinkEvent Nat)} {s : LinkRearmState (BitVec 32)}
    {t : LinkRearmState Nat} {log : List (LinkMark (BitVec 32))} {log' : List (LinkMark Nat)}
    (hno : ∀ c : LinkCounter, ¬c.Overtaken all) (hsub : ∀ e ∈ es, e ∈ all) (hk : Keeps all t)
    (ht : Truncates s t) (ho : outcomes log = outcomes log') :
    outcomes (linkLog s log (es.map (.map low32))) = outcomes (linkLog t log' es) := by
  induction es generalizing s t log log' with
  | nil => exact ho
  | cons e es ih =>
    have he := hsub e (by simp)
    have hstep : Truncates ((e.map low32).apply s) (e.apply t) := by
      refine ht.step (fun i hi => ?_) (fun i hi => ?_) fun i hi => ?_
      · subst hi
        exact LinkCounter.compares (hno .zeroPhase) (.inr ⟨_, he, rfl⟩) hk.zeroPhase
      · subst hi
        exact LinkCounter.compares (hno .driveFault) (.inr ⟨_, he, rfl⟩) hk.driveFault
      · subst hi
        exact LinkCounter.compares (hno .bladeFault) (.inr ⟨_, he, rfl⟩) hk.bladeFault
    refine ih (fun e' he' => hsub e' (by simp [he'])) (hk.step he) hstep ?_
    show (_, _) :: outcomes log = (_, _) :: outcomes log'
    rw [ho, hstep.1, hstep.2.2.2.2]

/-- **A motor-link fault stays inhibiting until a fresh zero/off phase**, in every trace of
    calls whose zero-phase counter does not decrease; and the 32-bit code takes the same
    decisions unless a counter is overtaken. -/
theorem fault_needs_fresh_zero (es : List (LinkEvent Nat))
    (hmono : (es.map LinkEvent.zeroPhase).Pairwise (· ≤ ·)) :
    Always (fun m past => RearmedFresh m past ∧ HiddenFault m past ∧ Completes m past)
        (linkTrace 0 es) ∧
      (outcomes (linkTrace (low32 0) (es.map (.map low32))) = outcomes (linkTrace 0 es) ∨
        ∃ c : LinkCounter, c.Overtaken es) := by
  constructor
  · refine linkLog_holds (.inl ⟨fun i hi => absurd hi (by simp), rfl, rfl⟩) (fun j hj => ?_)
      ⟨⟨?_, ?_, ?_⟩, trivial⟩ hmono fun e _ => Nat.zero_le _
    · simp at hj
    · exact fun hr => absurd hr.2 (by simp [LinkRearmState.powerUp])
    · exact fun i j hi => absurd hi (by simp)
    · exact fun i hi => absurd hi (by simp)
  · by_cases hno : ∃ c : LinkCounter, c.Overtaken es
    · exact .inr hno
    · exact .inl (linkLog_truncated (fun c hc => hno ⟨c, hc⟩) (fun e he => he)
        ⟨.inl rfl, .inl rfl, .inl rfl⟩ ⟨rfl, rfl, rfl, rfl, rfl⟩ rfl)

/-- A fault on the drive link, and the zero/off phase after it. -/
def faultAndZero : List (LinkEvent Nat) :=
  [.update ⟨true, 4, true, true, 1, 0, true⟩, .update ⟨true, 5, true, true, 1, 0, true⟩]

theorem fault_needs_fresh_zero_once :
    Always (fun m past => RearmedFresh m past ∧ HiddenFault m past ∧ Completes m past)
        (linkTrace 0 faultAndZero) ∧
      (outcomes (linkTrace (low32 0) (faultAndZero.map (.map low32))) =
          outcomes (linkTrace 0 faultAndZero) ∨ ∃ c : LinkCounter, c.Overtaken faultAndZero) :=
  fault_needs_fresh_zero faultAndZero (by decide)

/-- The zero phase of the fault's own step does not re-arm; the next one does. -/
example : outcomes (linkTrace 0 faultAndZero) = [(false, true), (true, false), (true, false)] := by
  decide

end Actuation
end Mowgli
