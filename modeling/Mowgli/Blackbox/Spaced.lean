import Mowgli.Blackbox.Recorded

/-!
# Spaced — one incident after the other

An incident is open from its trigger to its deadline, and no other begins meanwhile. One that a
message begins also waits for the cool-down of the one before; one that is asked for does not.
**The collector stops only once the recorder is closed**, so an incident that is cut short is the
last one.
-/

namespace Mowgli
namespace Blackbox
namespace Recording

/-! ## Incidents -/

/-- What an incident was opened with. -/
structure Incident where
  trigger : Int
  deadline : Int
  Config : Recording.Config
  reason : Option Bytes

def Capture.incident (c : Capture) : Incident :=
  ⟨c.trigger, c.deadline, c.metadata.Config, c.metadata.Reasons.head?⟩

/-- Nobody asked for it. -/
def Incident.Automatic (i : Incident) : Prop :=
  ∀ reason ∈ i.reason, (text "manual").isPrefixOf reason = false

structure Incident.Before (i j : Incident) : Prop where
  ended : i.deadline ≤ j.trigger
  cooled : j.Automatic → i.trigger + seconds j.Config.CooldownSeconds ≤ j.trigger

structure Incident.Sound (i : Incident) : Prop where
  valid : i.Config.Validate = none
  window : i.deadline = i.trigger + seconds i.Config.PostSeconds
  named : i.reason ≠ none

theorem Config.post_of_validate {c : Config} (h : c.Validate = none) : 0 ≤ seconds c.PostSeconds := by
  unfold Config.Validate at h
  split at h
  · cases h
  · rename_i hwindow
    have hpost : ¬c.PostSeconds < 1 := fun hlt => hwindow (.inr (.inr (.inl hlt)))
    unfold seconds
    omega

theorem Incident.Sound.le {i : Incident} (h : i.Sound) : i.trigger ≤ i.deadline := by
  have hpost := Config.post_of_validate h.valid
  rw [h.window]
  omega

namespace Recorder

variable {out : Outside} {r r' r'' : Recorder} {c : Capture} {reason : Bytes} {now : Int}

/-- Oldest first; the last one may still be open. -/
def incidents (r : Recorder) : List Incident :=
  r.snapshots.map Capture.incident ++ (r.active.map Capture.incident).toList

theorem incidents_eq (r : Recorder) :
    r.incidents = (r.snapshots ++ r.active.toList).map Capture.incident := by
  unfold Recorder.incidents
  rw [List.map_append]
  cases r.active with
  | none => rfl
  | some c => rfl

structure Spaced (r : Recorder) (now : Int) : Prop where
  valid : r.cfg.Validate = none
  sound : ∀ i ∈ r.incidents, i.Sound
  apart : r.incidents.Pairwise Incident.Before
  newest : ∀ i ∈ r.incidents, ∃ t, r.lastTrigger = some t ∧ i.trigger ≤ t
  ended : r.closed = false → r.active = none → ∀ i ∈ r.incidents, i.deadline ≤ now

theorem Spaced.later (h : r.Spaced now) {now' : Int} (hle : now ≤ now') : r.Spaced now' :=
  ⟨h.valid, h.sound, h.apart, h.newest,
    fun hclosed hnone i hi => Int.le_trans (h.ended hclosed hnone i hi) hle⟩

/-- No incident begins or ends. -/
structure Steady (r r' : Recorder) : Prop where
  cfg : r'.cfg = r.cfg
  closed : r'.closed = r.closed
  lastTrigger : r'.lastTrigger = r.lastTrigger
  snapshots : r'.snapshots = r.snapshots
  active : r'.active.map Capture.incident = r.active.map Capture.incident

theorem Steady.refl (r : Recorder) : r.Steady r := ⟨rfl, rfl, rfl, rfl, rfl⟩

theorem Steady.trans (h : r.Steady r') (h' : r'.Steady r'') : r.Steady r'' :=
  ⟨h'.cfg.trans h.cfg, h'.closed.trans h.closed, h'.lastTrigger.trans h.lastTrigger,
    h'.snapshots.trans h.snapshots, h'.active.trans h.active⟩

theorem Steady.incidents (h : r.Steady r') : r'.incidents = r.incidents := by
  unfold Recorder.incidents
  rw [h.snapshots, h.active]

theorem Steady.none (h : r.Steady r') (hnone : r'.active = none) : r.active = none := by
  have hactive := h.active
  rw [hnone] at hactive
  exact Option.map_eq_none_iff.1 hactive.symm

theorem Steady.spaced (ha : r.Steady r') (h : r.Spaced now) : r'.Spaced now := by
  refine ⟨?_, ?_, ?_, ?_, ?_⟩
  · rw [ha.cfg]
    exact h.valid
  · rw [ha.incidents]
    exact h.sound
  · rw [ha.incidents]
    exact h.apart
  · rw [ha.incidents, ha.lastTrigger]
    exact h.newest
  · intro hclosed hnone
    rw [ha.incidents]
    exact h.ended (ha.closed.symm.trans hclosed) (ha.none hnone)

/-! ## What changes no incident -/

theorem append_incident (c : Capture) (o : Observation) : (c.append o).incident = c.incident := by
  unfold Capture.append
  split
  · rfl
  · rfl

theorem foldl_append_incident (os : List Observation) (c : Capture) :
    (os.foldl Capture.append c).incident = c.incident := by
  induction os generalizing c with
  | nil => rfl
  | cons o os ih => exact (ih (c.append o)).trans (append_incident c o)

theorem steady_keep (r : Recorder) (o : Observation) (now : Int) : r.Steady (r.keep o now) := by
  unfold Recorder.keep
  split
  · exact ⟨rfl, rfl, rfl, rfl, rfl⟩
  · split
    · exact ⟨rfl, rfl, rfl, rfl, rfl⟩
    · exact ⟨rfl, rfl, rfl, rfl, rfl⟩

theorem steady_record (r : Recorder) (o : Observation) : r.Steady (r.record o) := by
  unfold Recorder.record
  split
  · rename_i c hc
    split
    · refine ⟨rfl, rfl, rfl, rfl, ?_⟩
      rw [hc]
      exact congrArg some (append_incident c o)
    · exact Steady.refl r
  · exact Steady.refl r

/-- The first reason stays the first. -/
theorem steady_coalesce (hc : r.active = some c) (hnamed : c.incident.reason ≠ none)
    (reason : Bytes) : r.Steady (r.coalesce c reason) := by
  refine ⟨rfl, rfl, rfl, rfl, ?_⟩
  rw [hc]
  refine congrArg some ?_
  unfold Capture.incident
  simp only
  split
  · obtain ⟨first, rest, hreasons⟩ : ∃ first rest, c.metadata.Reasons = first :: rest := by
      refine List.exists_cons_of_ne_nil fun hnil => hnamed ?_
      show c.metadata.Reasons.head? = none
      rw [hnil]
      rfl
    simp [hreasons]
  · rfl

theorem steady_startPrune (r : Recorder) : r.Steady r.startPrune := by
  unfold Recorder.startPrune
  split
  · exact Steady.refl r
  · exact ⟨rfl, rfl, rfl, rfl, rfl⟩

theorem steady_configure (r : Recorder) (cfg : Config) (s : ResourceSample) (now : Int) :
    { r with cfg := cfg }.Steady (r.configure cfg s now) := by
  obtain ⟨r', hfixed, hlast, hactive, hways⟩ := Node.configure_ways r cfg s now
  have hsame : { r with cfg := cfg }.Steady r' :=
    ⟨hfixed.cfg, hfixed.closed, hlast, hfixed.snapshots, congrArg _ hactive⟩
  rcases hways with heq | heq
  · rw [heq]
    exact hsame
  · rw [heq]
    exact hsame.trans (steady_startPrune r')

theorem steady_discards (q : List Observation) (r : Recorder) :
    r.Steady (q.foldl Recorder.discard r) := by
  induction q generalizing r with
  | nil => exact Steady.refl r
  | cons o q ih =>
    have hone : r.Steady (r.discard o) := ⟨rfl, rfl, rfl, rfl, rfl⟩
    exact hone.trans (ih _)

/-! ## What begins one -/

theorem not_cooling (h : ¬r.occupied reason now) {t : Int} (ht : r.lastTrigger = some t)
    (hauto : (text "manual").isPrefixOf reason = false) :
    t + seconds r.cfg.CooldownSeconds ≤ now := by
  by_contra hlt
  refine h (.inr ⟨hauto, ?_⟩)
  rw [ht]
  simp only [Option.any_some, decide_eq_true_eq]
  omega

/-- **A new incident comes after the others.** -/
theorem Spaced.pin (h : r.Spaced now) (hclosed : r.closed = false) (hnone : r.active = none)
    (hfree : ¬r.occupied reason now) (id : String) : (r.pin reason now id).Spaced now := by
  have hincidents : (r.pin reason now id).incidents =
      r.incidents ++ [⟨now, now + seconds r.cfg.PostSeconds, r.cfg, some reason⟩] := by
    unfold Recorder.incidents
    rw [hnone, Option.map_none, Option.toList_none, List.append_nil]
    refine congrArg (_ ++ ·) ?_
    exact congrArg (fun i => [i]) (foldl_append_incident _ _)
  have hover := h.ended hclosed hnone
  refine ⟨h.valid, ?_, ?_, ?_, ?_⟩
  · rw [hincidents]
    intro i hi
    rcases List.mem_append.1 hi with hold | hnew
    · exact h.sound i hold
    · obtain rfl := List.mem_singleton.1 hnew
      exact ⟨h.valid, rfl, fun heq => by cases heq⟩
  · rw [hincidents]
    refine List.pairwise_append.2 ⟨h.apart, List.pairwise_singleton _ _, ?_⟩
    intro i hi j hj
    obtain rfl := List.mem_singleton.1 hj
    refine ⟨hover i hi, fun hauto => ?_⟩
    obtain ⟨t, ht, hle⟩ := h.newest i hi
    have hcooled := not_cooling hfree ht (hauto reason rfl)
    show i.trigger + seconds r.cfg.CooldownSeconds ≤ now
    omega
  · rw [hincidents]
    intro i hi
    refine ⟨now, rfl, ?_⟩
    rcases List.mem_append.1 hi with hold | hnew
    · exact Int.le_trans (h.sound i hold).le (hover i hold)
    · obtain rfl := List.mem_singleton.1 hnew
      exact Int.le_refl _
  · intro _ hactive
    cases hactive

theorem Spaced.trigger (h : r.Spaced now) (reason : Bytes) : (r.trigger out reason now).1.Spaced now := by
  unfold Recorder.trigger
  split
  · exact h
  · rename_i hopen
    have hclosed : r.closed = false := Bool.eq_false_iff.2 fun hc => hopen (.inl hc)
    simp only
    generalize (if reason.take 256 = [] then text "manual" else reason.take 256) = cut
    split
    · rename_i c hc
      have hnamed : c.incident ∈ r.incidents := by
        unfold Recorder.incidents
        rw [hc]
        exact List.mem_append_right _ (List.mem_singleton_self _)
      exact (steady_coalesce hc (h.sound _ hnamed).named cut).spaced h
    · rename_i hnone
      split
      · have hcount : r.Steady { r with coalesced := r.coalesced + 1 } := ⟨rfl, rfl, rfl, rfl, rfl⟩
        exact hcount.spaced h
      · rename_i hfree
        have hdraw : r.Steady { r with draws := r.draws + 1 } := ⟨rfl, rfl, rfl, rfl, rfl⟩
        split
        · rename_i e _
          have hfail : r.Steady { r with draws := r.draws + 1, lastError := e } :=
            ⟨rfl, rfl, rfl, rfl, rfl⟩
          exact hfail.spaced h
        · exact (hdraw.spaced h).pin hclosed hnone hfree _

/-- What holds wherever no incident begins or ends, and of a trigger, holds of a message. -/
theorem process_keeps {P : Recorder → Prop} (hsteady : ∀ r r', r.Steady r' → P r → P r')
    (htrigger : ∀ r reason, P r → P (r.trigger out reason now).1) (h : P r) (o : Observation) :
    P (r.process out o now) := by
  have hdetect : ∀ r', P r' → P (r'.detect out o now) := by
    intro r' hr
    apply detect_keeps
    · exact htrigger
    · exact fun r b => hsteady r _ ⟨rfl, rfl, rfl, rfl, rfl⟩
    · exact fun r m => hsteady r _ ⟨rfl, rfl, rfl, rfl, rfl⟩
    · exact fun r n => hsteady r _ ⟨rfl, rfl, rfl, rfl, rfl⟩
    · exact hr
  have hdrop : ∀ r', P r' → P r'.drop := fun r' => hsteady r' _ ⟨rfl, rfl, rfl, rfl, rfl⟩
  have hs : P (r.handling o) := hsteady r _ ⟨rfl, rfl, rfl, rfl, rfl⟩ h
  have hexpire : P ((r.handling o).expire now) := hsteady (r.handling o) _ ⟨rfl, rfl, rfl, rfl, rfl⟩ hs
  unfold Recorder.process Recorder.take
  simp only
  split
  · exact hdrop _ hs
  · split
    · split
      · exact hdrop _ hexpire
      · exact hdetect _ (hsteady _ _ ((steady_keep _ o now).trans (steady_record _ o)) hexpire)
    · split
      · exact hdetect _ (hdrop _ hs)
      · exact hs

theorem Spaced.process (h : r.Spaced now) (o : Observation) : (r.process out o now).Spaced now :=
  process_keeps (P := fun r => r.Spaced now) (fun _ _ hr h => hr.spaced h)
    (fun _ reason h => h.trigger reason) h o

/-- A closed recorder is not triggered. -/
theorem trigger_closed (hclosed : r.closed = true) (reason : Bytes) (now : Int) :
    (r.trigger out reason now).1 = r := by
  unfold Recorder.trigger
  rw [if_pos (.inl hclosed)]

theorem process_closed (hclosed : r.closed = true) (o : Observation) :
    (r.process out o now).incidents = r.incidents := by
  have hboth : (r.process out o now).closed = true ∧
      (r.process out o now).incidents = r.incidents := by
    refine process_keeps (P := fun r' => r'.closed = true ∧ r'.incidents = r.incidents)
      (fun r' r'' hsteady h => ?_) (fun r' reason h => ?_) ⟨hclosed, rfl⟩ o
    · exact ⟨hsteady.closed.trans h.1, hsteady.incidents.trans h.2⟩
    · rw [trigger_closed h.1]
      exact h
  exact hboth.2

/-! ## What ends one -/

theorem finish_incidents (hc : r.active = some c) (interrupted : Bool) :
    (r.finish c interrupted).incidents = r.incidents := by
  unfold Recorder.incidents
  rw [hc]
  show (r.snapshots ++ [r.finished c interrupted]).map Capture.incident ++ [] = _
  rw [List.append_nil, List.map_append]
  rfl

/-- At its deadline, or with the recorder. -/
theorem Spaced.finish (h : r.Spaced now) (hc : r.active = some c) {interrupted : Bool}
    (hends : r.closed = true ∨ c.deadline ≤ now) : (r.finish c interrupted).Spaced now := by
  have hincidents := finish_incidents hc interrupted
  refine ⟨h.valid, ?_, ?_, ?_, ?_⟩
  · rw [hincidents]
    exact h.sound
  · rw [hincidents]
    exact h.apart
  · rw [hincidents]
    exact h.newest
  · intro hclosed _
    rw [hincidents]
    rcases hends with hshut | hdue
    · have hclosed : r.closed = false := hclosed
      rw [hclosed] at hshut
      cases hshut
    · have hlast := h.apart
      have hsound := h.sound
      unfold Recorder.incidents at hlast hsound ⊢
      rw [hc] at hlast hsound ⊢
      intro i hi
      rcases List.mem_append.1 hi with hold | hnew
      · have hbefore := (List.pairwise_append.1 hlast).2.2 i hold c.incident
          (List.mem_singleton_self _)
        have hwindow := (hsound c.incident
          (List.mem_append_right _ (List.mem_singleton_self _))).le
        exact Int.le_trans hbefore.ended (Int.le_trans hwindow hdue)
      · obtain rfl := List.mem_singleton.1 hnew
        exact hdue

theorem finishDue_incidents (r : Recorder) (now : Int) :
    (r.finishDue now).incidents = r.incidents := by
  rcases Node.finishDue_cases r now with heq | ⟨c, hc, -, -, heq⟩
  · rw [heq]
  · rw [heq]
    exact finish_incidents hc false

theorem finishInterrupted_incidents (r : Recorder) :
    r.finishInterrupted.incidents = r.incidents := by
  rcases Node.finishInterrupted_cases r with ⟨heq, -⟩ | ⟨c, hc, heq⟩
  · rw [heq]
  · rw [heq]
    exact finish_incidents hc true

theorem Spaced.finishDue (h : r.Spaced now) : (r.finishDue now).Spaced now := by
  rcases Node.finishDue_cases r now with heq | ⟨c, hc, -, hdue, heq⟩
  · rw [heq]
    exact h
  · rw [heq]
    exact h.finish hc (.inr hdue)

theorem Spaced.finishInterrupted (h : r.Spaced now) (hclosed : r.closed = true) :
    r.finishInterrupted.Spaced now := by
  rcases Node.finishInterrupted_cases r with ⟨heq, -⟩ | ⟨c, hc, heq⟩
  · rw [heq]
    exact h
  · rw [heq]
    exact h.finish hc (.inl hclosed)

theorem Spaced.tick (h : r.Spaced now) : (r.tick now).Spaced now := by
  have hexpire : r.Steady (r.expire now) := ⟨rfl, rfl, rfl, rfl, rfl⟩
  unfold Recorder.tick
  simp only
  split
  · exact hexpire.spaced h
  · exact (hexpire.spaced h).finishDue

theorem Spaced.configure (h : r.Spaced now) {cfg : Config} (hcfg : cfg.Validate = none)
    (s : ResourceSample) : (r.configure cfg s now).Spaced now :=
  (steady_configure r cfg s now).spaced ⟨hcfg, h.sound, h.apart, h.newest, h.ended⟩

end Recorder

/-! ## The collector at its end -/

/-- `case <-r.stop`, and what is behind it. -/
def Phase.stops : Phase → Bool
  | .stopping | .waiting _ | .took .last _ | .took .interrupted _ | .done => true
  | _ => false

/-- It waits for a result. -/
def Phase.waits : Phase → Bool
  | .waiting _ => true
  | _ => false

/-- An incident that was open has been given to the worker. -/
def Phase.delivered : Phase → Bool
  | .waiting .interrupted | .took .interrupted _ | .done => true
  | _ => false

namespace Node

open Recorder (Spaced Steady)

variable {out : Outside} {s s' : Node} {i : Nat} {call : Call}

structure Ending (s : Node) : Prop where
  closed : s.collector.stops = true → s.r.closed = true
  waits : s.collector.waits = true → s.r.writing = true
  delivered : s.collector.delivered = true → s.r.active = none
  idle : s.collector = .done → s.r.writing = false

theorem Phase.stops_of_waits {p : Phase} (h : p.waits = true) : p.stops = true := by
  cases p with
  | waiting k => rfl
  | _ => cases h

theorem Phase.stops_of_delivered {p : Phase} (h : p.delivered = true) : p.stops = true := by
  cases p with
  | waiting k => rfl
  | took k res =>
    cases k with
    | interrupted => rfl
    | _ => cases h
  | done => rfl
  | _ => cases h

/-- The collector stays where it is, and a closed recorder goes on as it was. -/
theorem Ending.aside (h : s.Ending) (hcol : s'.collector = s.collector)
    (hsame : s.r.closed = true → s'.r.closed = true ∧ s'.r.writing = s.r.writing ∧
      (s.r.active = none → s'.r.active = none)) : s'.Ending := by
  refine ⟨?_, ?_, ?_, ?_⟩
  · rw [hcol]
    exact fun hstops => (hsame (h.closed hstops)).1
  · rw [hcol]
    intro hwaits
    exact (hsame (h.closed (Phase.stops_of_waits hwaits))).2.1.trans (h.waits hwaits)
  · rw [hcol]
    intro hdelivered
    exact (hsame (h.closed (Phase.stops_of_delivered hdelivered))).2.2 (h.delivered hdelivered)
  · rw [hcol]
    intro hdone
    exact (hsame (h.closed (by rw [hdone]; rfl))).2.1.trans (h.idle hdone)

theorem Ending.same (h : s.Ending) (hcol : s'.collector = s.collector)
    (hclosed : s'.r.closed = s.r.closed) (hwriting : s'.r.writing = s.r.writing)
    (hactive : s'.r.active = s.r.active) : s'.Ending :=
  h.aside hcol fun hc => ⟨hclosed.trans hc, hwriting, fun hnone => hactive.trans hnone⟩

/-- It is not at its end yet. -/
theorem Ending.early (hstops : s.collector.stops = false) : s.Ending := by
  refine ⟨?_, ?_, ?_, ?_⟩
  · rw [hstops]
    exact fun h => by cases h
  · intro hwaits
    rw [Phase.stops_of_waits hwaits] at hstops
    cases hstops
  · intro hdelivered
    rw [Phase.stops_of_delivered hdelivered] at hstops
    cases hstops
  · intro hdone
    rw [hdone] at hstops
    cases hstops

theorem Ending.interrupt (hclosed : s.r.closed = true) (hwriting : s.r.writing = false) :
    s.interrupt.Ending := by
  unfold Node.interrupt
  split
  · rename_i hactive
    obtain ⟨c, hc⟩ := Option.isSome_iff_exists.1 hactive
    rcases finishInterrupted_cases s.r with ⟨-, hnone⟩ | ⟨c, -, heq⟩
    · rw [hc] at hnone
      cases hnone
    · rw [heq]
      exact ⟨fun _ => hclosed, fun _ => rfl, fun _ => rfl, nofun⟩
  · rename_i hnone
    exact ⟨fun _ => hclosed, nofun,
      fun _ => Option.not_isSome_iff_eq_none.1 hnone, fun _ => hwriting⟩

theorem Ending.collect (h : s.Ending) {choice : Choice} {sample : ResourceSample}
    (hs : s.collect out choice sample = some s') : s'.Ending := by
  have hshut : s.collector.stops = true → s.emptied.r.closed = true := fun hstops =>
    (Recorder.steady_discards s.queue s.r).closed.trans (h.closed hstops)
  have hsame : s.emptied.r.writing = s.r.writing := (discards s.queue s.r).2.2.1
  cases collect_ways hs with
  | stops hcol hclosed =>
    exact ⟨fun _ => hclosed, fun hw => (by cases hw), fun hd => (by cases hd),
      fun hd => (by cases hd)⟩
  | @takes k res rest hcol =>
    rcases hcol with ⟨-, rfl⟩ | hcol
    · exact .early rfl
    refine ⟨fun _ => h.closed (by rw [hcol]; rfl), fun hw => (by cases hw), ?_,
      fun hd => (by cases hd)⟩
    intro hdelivered
    refine h.delivered ?_
    rw [hcol]
    cases k with
    | interrupted => rfl
    | _ => cases hdelivered
  | looks =>
    unfold lookAround
    split
    · exact .early rfl
    · exact .early rfl
  | drains hcol hfree hwriting =>
    exact ⟨fun _ => hshut (by rw [hcol]; rfl), fun _ => hsame.trans hwriting,
      fun hd => (by cases hd), fun hd => (by cases hd)⟩
  | interrupts hcol hfree hwriting =>
    exact .interrupt (hshut (by rw [hcol]; rfl)) (hsame.trans hwriting)
  | @applies k res hcol =>
    cases k with
    | loop => exact .early rfl
    | last => exact .interrupt (h.closed (by rw [hcol]; rfl)) rfl
    | interrupted =>
      exact ⟨fun _ => h.closed (by rw [hcol]; rfl), fun hw => (by cases hw),
        fun _ => h.delivered (by rw [hcol]; rfl), fun _ => rfl⟩
  | _ => exact .early rfl

/-- A closed recorder does not start to prune. -/
theorem configure_closed (r : Recorder) (cfg : Config) (sample : ResourceSample) (now : Int)
    (hclosed : r.closed = true) : (r.configure cfg sample now).writing = r.writing := by
  obtain ⟨r', hfixed, -, -, hways⟩ := configure_ways r cfg sample now
  rcases hways with heq | heq
  · rw [heq]
    exact hfixed.writing
  · rw [heq]
    unfold Recorder.startPrune
    rw [if_pos (.inr (.inr (hfixed.closed.trans hclosed)))]
    exact hfixed.writing

theorem Ending.step (h : s.Ending) {e : Event} (hs : s.step out e = some s') : s'.Ending := by
  cases e with
  | wait d =>
    cases hs
    exact h.same rfl rfl rfl rfl
  | Ingest topic data =>
    cases hs
    exact h.same rfl rfl rfl rfl
  | ingest i =>
    obtain ⟨call, -, hcall⟩ := Option.bind_eq_some_iff.1 hs
    obtain ⟨hr, hcol, -, -, -⟩ := ingest_fixed hcall
    rcases hr with hr | hr
    · exact h.same hcol (by rw [hr]) (by rw [hr]) (by rw [hr])
    · exact h.same hcol (by rw [hr]; rfl) (by rw [hr]; rfl) (by rw [hr]; rfl)
  | Trigger reason =>
    simp only [Node.step] at hs
    split at hs
    · cases hs
      refine h.aside rfl fun hclosed => ?_
      show (s.r.trigger out reason s.now).1.closed = true ∧ _
      rw [Recorder.trigger_closed hclosed]
      exact ⟨hclosed, rfl, id⟩
    · cases hs
  | ConfigurePersist cfg =>
    simp only [Node.step] at hs
    split at hs
    · cases hs
      unfold Node.configurePersist
      split
      · exact h
      · exact h.same rfl rfl rfl rfl
    · cases hs
  | saved works sample =>
    obtain ⟨cfg, -, rfl⟩ := Option.map_eq_some_iff.1 hs
    unfold Node.saved
    split
    · refine h.aside rfl fun hclosed => ?_
      have hsteady := Recorder.steady_configure s.r cfg sample s.now
      refine ⟨hsteady.closed.trans hclosed, configure_closed s.r cfg sample s.now hclosed, ?_⟩
      intro hnone
      have hactive := hsteady.active
      rw [show ({ s.r with cfg := cfg } : Recorder).active = none from hnone] at hactive
      exact Option.map_eq_none_iff.1 hactive
    · exact h.same rfl rfl rfl rfl
  | Close =>
    cases hs
    exact h.aside rfl fun _ => ⟨rfl, rfl, id⟩
  | worker i err =>
    simp only [Node.step, Node.send] at hs
    split at hs
    · cases hs
    · split at hs
      · cases hs
      · cases hs
        exact h.same rfl rfl rfl rfl
  | collect choice sample => exact h.collect hs

/-! ## Every step -/

theorem spaced_interrupt (h : s.r.Spaced s.now) (hclosed : s.r.closed = true) :
    s.interrupt.r.Spaced s.interrupt.now := by
  unfold Node.interrupt
  split
  · exact h.finishInterrupted hclosed
  · exact h

theorem spaced_collect (h : s.r.Spaced s.now) (hend : s.Ending) {choice : Choice}
    {sample : ResourceSample} (hs : s.collect out choice sample = some s') :
    s'.r.Spaced s'.now := by
  have hdiscards := Recorder.steady_discards s.queue s.r
  have hdrained := hdiscards.spaced h
  cases collect_ways hs with
  | processes => exact h.process _
  | looks sample =>
    have htick := h.tick
    unfold lookAround
    split
    · have hpressure : (s.r.tick s.now).Steady ((s.r.tick s.now).applyPressure sample) :=
        ⟨rfl, rfl, rfl, rfl, rfl⟩
      exact hpressure.spaced htick
    · exact htick
  | drains => exact hdrained
  | interrupts hcol =>
    exact spaced_interrupt (s := s.emptied) hdrained
      (hdiscards.closed.trans (hend.closed (by rw [hcol]; rfl)))
  | @applies k res hcol =>
    have happlied : s.r.Steady (s.r.applyWriteResult res) := ⟨rfl, rfl, rfl, rfl, rfl⟩
    cases k with
    | loop => exact (happlied.spaced h).finishDue
    | last =>
      exact spaced_interrupt (s := { s with r := s.r.applyWriteResult res })
        (happlied.spaced h) (hend.closed (by rw [hcol]; rfl))
    | interrupted => exact happlied.spaced h
  | _ => exact h

theorem spaced_step (h : s.r.Spaced s.now) (hinv : s.Inv out) (hend : s.Ending) {e : Event}
    (hs : s.step out e = some s') : s'.r.Spaced s'.now := by
  cases e with
  | wait d =>
    cases hs
    exact h.later (by simp)
  | Ingest topic data =>
    cases hs
    exact h
  | ingest i =>
    obtain ⟨call, -, hcall⟩ := Option.bind_eq_some_iff.1 hs
    have hsame : s.r.Steady s'.r := by
      rcases (ingest_fixed hcall).1 with hr | hr
      · rw [hr]
        exact Steady.refl s.r
      · rw [hr]
        exact ⟨rfl, rfl, rfl, rfl, rfl⟩
    obtain ⟨-, -, -, -, hnow⟩ := ingest_fixed hcall
    rw [hnow]
    exact hsame.spaced h
  | Trigger reason =>
    simp only [Node.step] at hs
    split at hs
    · cases hs
      exact h.trigger reason
    · cases hs
  | ConfigurePersist cfg =>
    simp only [Node.step] at hs
    split at hs
    · cases hs
      unfold Node.configurePersist
      split
      · exact h
      · exact h
    · cases hs
  | saved works sample =>
    obtain ⟨cfg, hcfg, rfl⟩ := Option.map_eq_some_iff.1 hs
    unfold Node.saved
    split
    · exact h.configure (hinv.saving cfg hcfg).1 sample
    · exact h
  | Close =>
    cases hs
    refine ⟨h.valid, h.sound, h.apart, h.newest, fun hclosed => ?_⟩
    cases hclosed
  | worker i err =>
    simp only [Node.step, Node.send] at hs
    split at hs
    · cases hs
    · split at hs
      · cases hs
      · cases hs
        have hsent : s.r.Steady { s.r with workers := s.r.workers.eraseIdx i } :=
          ⟨rfl, rfl, rfl, rfl, rfl⟩
        exact hsent.spaced h
  | collect choice sample => exact spaced_collect h hend hs

/-- What holds of every node there is a run to. -/
structure Orderly (out : Outside) (s : Node) : Prop where
  inv : s.Inv out
  ending : s.Ending
  spaced : s.r.Spaced s.now

theorem Orderly.step (h : s.Orderly out) {e : Event} (hs : s.step out e = some s') :
    s'.Orderly out :=
  ⟨h.inv.step hs, h.ending.step hs, spaced_step h.spaced h.inv h.ending hs⟩

theorem Orderly.start {cfg : Config} (hcfg : cfg.Validate = none) (sample : ResourceSample)
    (hasCompleted : Bool) (now : Int) : (Node.start cfg sample hasCompleted now).Orderly out := by
  refine ⟨Inv.start hcfg sample hasCompleted now, .early rfl, ?_⟩
  have hnew : (Recorder.start cfg sample hasCompleted).cfg = cfg ∧
      (Recorder.start cfg sample hasCompleted).incidents = [] := by
    cases hasCompleted with
    | false => exact ⟨rfl, rfl⟩
    | true => exact ⟨rfl, rfl⟩
  refine ⟨?_, ?_, ?_, ?_, ?_⟩
  · show (Recorder.start cfg sample hasCompleted).cfg.Validate = none
    rw [hnew.1]
    exact hcfg
  all_goals
    rw [show (Node.start cfg sample hasCompleted now).r.incidents = [] from hnew.2]
    simp

theorem Orderly.run {cfg : Config} (hcfg : cfg.Validate = none) {sample : ResourceSample}
    {hasCompleted : Bool} {now : Int} {es : List Event}
    (hrun : History.advance (Node.step out) (Node.start cfg sample hasCompleted now) es = some s) :
    s.Orderly out :=
  History.advance_keeps (fun _ _ _ h hs => h.step hs) (Orderly.start hcfg sample hasCompleted now)
    hrun

end Node

/-- **No incident begins before the one before it is over**, and one that nobody asked for not
before the cool-down of the settings it was opened with. -/
theorem captures_spaced (out : Outside) (cfg : Config) (hcfg : cfg.Validate = none)
    (sample : ResourceSample) (hasCompleted : Bool) (now : Int) (es : List Event) (s : Node)
    (hrun : History.advance (Node.step out) (Node.start cfg sample hasCompleted now) es = some s) :
    (s.r.snapshots ++ s.r.active.toList).Pairwise fun c d =>
      c.deadline = c.trigger + seconds c.metadata.Config.PostSeconds ∧ c.deadline ≤ d.trigger ∧
        ((∀ reason ∈ d.metadata.Reasons.head?, (text "manual").isPrefixOf reason = false) →
          c.trigger + seconds d.metadata.Config.CooldownSeconds ≤ d.trigger) := by
  have hspaced := (Node.Orderly.run hcfg hrun).spaced
  have hapart := hspaced.apart
  have hsound := hspaced.sound
  rw [Recorder.incidents_eq] at hapart hsound
  rw [List.pairwise_map] at hapart
  refine hapart.imp_of_mem fun {c d} hc _ hbefore => ?_
  exact ⟨(hsound _ (List.mem_map_of_mem hc)).window, hbefore.ended, hbefore.cooled⟩

/-- An incident comes to its end and is written; the next message that would begin one comes too
    early, and the one after it does not. -/
def twice : List Event :=
  [.Trigger (text "emergency"), .wait 15000000001, .collect .ticker unknown,
    .collect .ticker unknown, .worker 0 none, .collect .result unknown, .collect .result unknown,
    .Trigger (text "emergency"), .wait 45000000000, .Trigger (text "emergency")]

theorem captures_spaced_twice :
    ∃ s, outcome twice = some s ∧ (s.r.snapshots ++ s.r.active.toList).length = 2 ∧
      s.r.coalesced = 1 ∧ (s.r.snapshots ++ s.r.active.toList).Pairwise fun c d =>
        c.deadline = c.trigger + seconds c.metadata.Config.PostSeconds ∧ c.deadline ≤ d.trigger ∧
          ((∀ reason ∈ d.metadata.Reasons.head?, (text "manual").isPrefixOf reason = false) →
            c.trigger + seconds d.metadata.Config.CooldownSeconds ≤ d.trigger) := by
  have hsome : ((outcome twice).map fun s =>
      ((s.r.snapshots ++ s.r.active.toList).length, s.r.coalesced)) = some (2, 1) := by
    decide +kernel
  obtain ⟨s, hs, hboth⟩ := Option.map_eq_some_iff.1 hsome
  obtain ⟨htwo, hcoalesced⟩ := Prod.mk.inj hboth
  exact ⟨s, hs, htwo, hcoalesced,
    captures_spaced plain DefaultConfig (by decide) unknown false 0 twice s hs⟩

end Recording
end Blackbox
end Mowgli
