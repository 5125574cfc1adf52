import Mowgli.Blackbox.Spaced

/-!
# Closing — nothing waits for ever, and the recorder can always be closed

The collector waits for the disk worker and for settings that are being saved, and the worker waits
for nobody. From wherever `Close` finds them the collector and the worker get to their end, and
**every incident there was has been given to the worker by then**, written or not.
-/

namespace Mowgli
namespace Blackbox
namespace Recording

/-! ## Messages -/

/-- `case <-r.stop` has been through the queue. -/
def Receive.drained : Receive → Bool
  | .loop => false
  | .last | .interrupted => true

def Phase.drained : Phase → Bool
  | .waiting k => k.drained
  | .took k _ => k.drained
  | .done => true
  | _ => false

namespace Node

/-- What the collector will have handled at its end. -/
def due (s : Node) : List Observation :=
  if s.collector.drained then s.r.handled else s.accepted

variable {out : Outside} {s s' : Node} {works : Bool} {err : Option WriteError}

theorem due_of_drained (h : s.collector.drained = true) : s.due = s.r.handled := if_pos h

theorem due_of_not_drained (h : s.collector.drained = false) : s.due = s.accepted := by
  unfold Node.due
  rw [h]
  rfl

/-! ## The end -/

/-- A step that nobody outside asks for: the collector's, the worker's, or the end of a save. -/
def Settles (works : Bool) (err : Option WriteError) (e : Event) : Prop :=
  (∃ choice sample, e = .collect choice sample) ∨ (∃ i, e = .worker i err) ∨
    ∃ sample, e = .saved works sample

/-- A run of such steps ends with the collector and the worker done. -/
def Ends (out : Outside) (works : Bool) (err : Option WriteError) (s : Node) : Prop :=
  ∃ es s', (∀ e ∈ es, Settles works err e) ∧ History.advance (Node.step out) s es = some s' ∧
    s'.collector = .done ∧ s'.r.active = none ∧ s'.r.workers = [] ∧
    s'.r.incidents = s.r.incidents ∧ s'.r.handled = s.due

theorem Ends.after (h : s'.Ends out works err) {e : Event} (he : Settles works err e)
    (hs : s.step out e = some s') (hincidents : s'.r.incidents = s.r.incidents)
    (hdue : s'.due = s.due) : s.Ends out works err := by
  obtain ⟨es, t, hes, hrun, hdone, hactive, hworkers, hsame, hhandled⟩ := h
  refine ⟨e :: es, t, ?_, ?_, hdone, hactive, hworkers, hsame.trans hincidents,
    hhandled.trans hdue⟩
  · intro e' he'
    rcases List.mem_cons.1 he' with rfl | hmem
    · exact he
    · exact hes e' hmem
  · exact Option.bind_eq_some_iff.2 ⟨s', hs, hrun⟩

/-- A closed recorder, with nothing being saved. -/
structure Shut (out : Outside) (s : Node) : Prop where
  orderly : s.Orderly out
  closed : s.r.closed = true
  saving : s.saving = none

theorem Shut.free (h : s.Shut out) : s.free = true := by
  unfold Node.free
  rw [h.saving]
  rfl

theorem Shut.next (h : s.Shut out) {e : Event} (hs : s.step out e = some s')
    (hclosed : s'.r.closed = s.r.closed) (hsaving : s'.saving = s.saving) : s'.Shut out :=
  ⟨h.orderly.step hs, hclosed.trans h.closed, hsaving.trans h.saving⟩

theorem settles_collect {choice : Choice} {sample : ResourceSample} :
    Settles works err (.collect choice sample) := .inl ⟨choice, sample, rfl⟩

/-! ## From place to place -/

theorem Shut.ends_done (h : s.Shut out) (hcol : s.collector = .done) : s.Ends out works err := by
  have hend := h.orderly.ending
  obtain ⟨hworkers, -, -⟩ := h.orderly.inv.staffed.idle (hend.idle hcol)
  refine ⟨[], s, by simp, rfl, hcol, hend.delivered (by rw [hcol]; rfl),
    List.eq_nil_of_length_eq_zero hworkers, rfl, ?_⟩
  exact (due_of_drained (by rw [hcol]; rfl)).symm

/-- The result of the one worker there is comes and is taken. -/
theorem Shut.ends_waiting (h : s.Shut out) {k : Receive} (hcol : s.collector = .waiting k)
    (hthen : ∀ (s' : Node) (res : WriteResult), s'.Shut out → s'.collector = .took k res →
      s'.Ends out works err) : s.Ends out works err := by
  have htake : ∀ {s : Node}, s.Shut out → s.collector = .waiting k → ∀ {res rest},
      s.result = res :: rest → s.Ends out works err := by
    intro s h hcol res rest hres
    have hs : s.step out (.collect .result unknown) =
        some { s with result := rest, collector := .took k res } := by
      simp only [Node.step, Node.collect, hcol, hres]
    refine (hthen _ res (h.next hs rfl rfl) rfl).after settles_collect hs rfl ?_
    simp only [Node.due, hcol, Phase.drained]
    rfl
  cases hres : s.result with
  | cons res rest => exact htake h hcol hres
  | nil =>
    -- somebody is at work on it
    have hone := h.orderly.inv.staffed
    unfold Staffed at hone
    rw [hcol, hres, h.orderly.ending.waits (by rw [hcol]; rfl)] at hone
    obtain ⟨w, hw⟩ : ∃ w, s.r.workers = [w] := List.length_eq_one_iff.1 hone
    have hs : s.step out (.worker 0 err) = some { s with
        r := { s.r with workers := s.r.workers.eraseIdx 0 }
        result := s.result ++ [⟨err, decide (w = .maintain)⟩] } := by
      simp only [Node.step, Node.send, hw, hres]
      rfl
    refine (htake (h.next hs rfl rfl) hcol (by rw [hres]; rfl)).after (.inr (.inl ⟨0, rfl⟩)) hs rfl rfl

variable {res : WriteResult}

theorem Shut.ends_took_interrupted (h : s.Shut out) (hcol : s.collector = .took .interrupted res) :
    s.Ends out works err := by
  have hs : s.step out (.collect .stop unknown) =
      some { s with r := s.r.applyWriteResult res, collector := .done } := by
    simp only [Node.step, Node.collect, hcol, h.free, if_true, Node.receive]
  have hdone : Ends out works err _ := (h.next hs rfl rfl).ends_done rfl
  refine hdone.after settles_collect hs rfl ?_
  simp only [Node.due, hcol, Phase.drained, Receive.drained]
  rfl

theorem interrupt_same (s : Node) : s.interrupt.r.incidents = s.r.incidents ∧
    s.interrupt.r.handled = s.r.handled ∧ s.interrupt.r.closed = s.r.closed ∧
    s.interrupt.saving = s.saving ∧ s.interrupt.collector.drained = true := by
  unfold Node.interrupt
  split
  · obtain ⟨hhandled, hclosed, -⟩ := finishInterrupted_same s.r
    exact ⟨Recorder.finishInterrupted_incidents s.r, hhandled, hclosed, rfl, rfl⟩
  · exact ⟨rfl, rfl, rfl, rfl, rfl⟩

theorem ends_interrupt (h : s.interrupt.Shut out) : s.interrupt.Ends out works err := by
  have hcol : s.interrupt.collector = .waiting .interrupted ∨ s.interrupt.collector = .done := by
    unfold Node.interrupt
    split
    · exact .inl rfl
    · exact .inr rfl
  rcases hcol with hcol | hcol
  · exact h.ends_waiting hcol fun s' res h' hcol' => h'.ends_took_interrupted hcol'
  · exact h.ends_done hcol

theorem Shut.ends_took_last (h : s.Shut out) (hcol : s.collector = .took .last res) :
    s.Ends out works err := by
  have hs : s.step out (.collect .stop unknown) =
      some { s with r := s.r.applyWriteResult res }.interrupt := by
    simp only [Node.step, Node.collect, hcol, h.free, if_true, Node.receive]
  obtain ⟨hincidents, hhandled, hclosed, hsaving, hdrained⟩ :=
    interrupt_same { s with r := s.r.applyWriteResult res }
  refine (ends_interrupt (h.next hs hclosed hsaving)).after settles_collect hs hincidents ?_
  rw [due_of_drained hdrained, due_of_drained (by rw [hcol]; rfl), hhandled]
  rfl

theorem Shut.ends_stopping (h : s.Shut out) (hcol : s.collector = .stopping) :
    s.Ends out works err := by
  have hpermits := h.orderly.inv.queued.permits
  have horder := h.orderly.inv.queued.order
  rw [hcol] at horder
  have hdiscards := Recorder.steady_discards s.queue s.r
  obtain ⟨hhandled, -, -, -⟩ := discards s.queue s.r
  have hdue : s.due = (s.queue.foldl Recorder.discard s.r).handled := by
    rw [due_of_not_drained (by rw [hcol]; rfl), hhandled, horder]
    simp [Phase.held]
  have hdrain : s.step out (.collect .stop unknown) = s.drain := by
    simp only [Node.step, Node.collect, hcol, h.free, if_true]
  unfold Node.drain at hdrain
  simp only at hdrain
  rw [if_neg (by omega)] at hdrain
  split at hdrain
  · refine Ends.after (Shut.ends_waiting (h.next hdrain hdiscards.closed rfl) rfl ?_)
      settles_collect hdrain hdiscards.incidents ?_
    · exact fun s' res h' hcol' => h'.ends_took_last hcol'
    · exact (due_of_drained rfl).trans hdue.symm
  · obtain ⟨hincidents, hsame, hclosed, hsaving, hdrained⟩ :=
      interrupt_same { s with
        r := s.queue.foldl Recorder.discard s.r
        permits := s.permits - s.queue.length
        queue := [] }
    refine (ends_interrupt (h.next hdrain (hclosed.trans hdiscards.closed) hsaving)).after
      settles_collect hdrain (hincidents.trans hdiscards.incidents) ?_
    rw [due_of_drained hdrained, hsame, hdue]

theorem Shut.ends_selecting (h : s.Shut out) (hcol : s.collector = .selecting) :
    s.Ends out works err := by
  have hs : s.step out (.collect .stop unknown) = some { s with collector := .stopping } := by
    simp only [Node.step, Node.collect, hcol, Node.select, h.closed, if_true]
  have hstopping : Ends out works err _ := (h.next hs rfl rfl).ends_stopping rfl
  refine hstopping.after settles_collect hs rfl ?_
  rw [due_of_not_drained rfl, due_of_not_drained (by rw [hcol]; rfl)]

/-- Whatever the collector is about to do, it is selecting again after it. -/
theorem Shut.ends_selected (h : s.Shut out) (hcol : s.collector.drained = false)
    (hs : s.step out (.collect .stop unknown) = some s') (hnext : s'.collector = .selecting)
    (hclosed : s'.r.closed = s.r.closed) (hsaving : s'.saving = s.saving)
    (hincidents : s'.r.incidents = s.r.incidents) (haccepted : s'.accepted = s.accepted) :
    s.Ends out works err := by
  have hselecting : s'.Ends out works err := (h.next hs hclosed hsaving).ends_selecting hnext
  refine hselecting.after settles_collect hs hincidents ?_
  rw [due_of_not_drained hcol, due_of_not_drained (by rw [hnext]; rfl), haccepted]

theorem Shut.ends_processed (h : s.Shut out) (hcol : s.collector = .processed) :
    s.Ends out works err := by
  have hpermits := h.orderly.inv.queued.permits
  rw [hcol] at hpermits
  simp only [Phase.permit] at hpermits
  have hs : s.step out (.collect .stop unknown) =
      some { s with permits := s.permits - 1, collector := .selecting } := by
    simp only [Node.step, Node.collect, hcol]
    rw [if_neg (by omega)]
  exact h.ends_selected (by rw [hcol]; rfl) hs rfl rfl rfl rfl rfl

theorem Shut.ends_received (h : s.Shut out) {o : Observation} (hcol : s.collector = .received o) :
    s.Ends out works err := by
  have hs : s.step out (.collect .stop unknown) =
      some { s with r := s.r.process out o s.now, collector := .processed } := by
    simp only [Node.step, Node.collect, hcol, h.free, if_true]
  have hclosed : (s.r.process out o s.now).closed = s.r.closed :=
    (Recorder.process_fixed out s.r o s.now).closed
  have hprocessed : Ends out works err _ := (h.next hs hclosed rfl).ends_processed rfl
  refine hprocessed.after settles_collect hs (Recorder.process_closed h.closed o) ?_
  rw [due_of_not_drained rfl, due_of_not_drained (by rw [hcol]; rfl)]

theorem Shut.ends_ticked (h : s.Shut out) (hcol : s.collector = .ticked) :
    s.Ends out works err := by
  have hs : s.step out (.collect .stop unknown) =
      some ({ s with r := s.r.tick s.now, collector := .selecting }.lookAround unknown) := by
    simp only [Node.step, Node.collect, hcol, h.free, if_true]
  have htick : (s.r.tick s.now).incidents = s.r.incidents ∧
      (s.r.tick s.now).closed = s.r.closed := by
    unfold Recorder.tick
    simp only
    split
    · exact ⟨rfl, rfl⟩
    · exact ⟨Recorder.finishDue_incidents _ s.now, (finishDue_same (s.r.expire s.now) s.now).2.1⟩
  refine h.ends_selected (by rw [hcol]; rfl) hs ?_ ?_ ?_ ?_ ?_
  all_goals
    unfold lookAround
    split
  · rfl
  · rfl
  · exact htick.2
  · exact htick.2
  · rfl
  · rfl
  · exact htick.1
  · exact htick.1
  · rfl
  · rfl

theorem Shut.ends_took_loop (h : s.Shut out) (hcol : s.collector = .took .loop res) :
    s.Ends out works err := by
  have hs : s.step out (.collect .stop unknown) = some (s.receive res .loop) := by
    simp only [Node.step, Node.collect, hcol, h.free, if_true]
  exact h.ends_selected (by rw [hcol]; rfl) hs rfl
    (finishDue_same (s.r.applyWriteResult res) s.now).2.1 rfl
    (Recorder.finishDue_incidents (s.r.applyWriteResult res) s.now) rfl

theorem Shut.ends (h : s.Shut out) : s.Ends out works err := by
  cases hcol : s.collector with
  | selecting => exact h.ends_selecting hcol
  | received o => exact h.ends_received hcol
  | processed => exact h.ends_processed hcol
  | ticked => exact h.ends_ticked hcol
  | stopping => exact h.ends_stopping hcol
  | waiting k =>
    refine h.ends_waiting hcol fun s' res h' hcol' => ?_
    cases k with
    | loop => exact h'.ends_took_loop hcol'
    | last => exact h'.ends_took_last hcol'
    | interrupted => exact h'.ends_took_interrupted hcol'
  | took k res =>
    cases k with
    | loop => exact h.ends_took_loop hcol
    | last => exact h.ends_took_last hcol
    | interrupted => exact h.ends_took_interrupted hcol
  | done => exact h.ends_done hcol

/-- Settings that are being saved when `Close` comes are saved first. -/
theorem Orderly.ends (h : s.Orderly out) (hclosed : s.r.closed = true) : s.Ends out works err := by
  cases hsaving : s.saving with
  | none => exact Shut.ends ⟨h, hclosed, hsaving⟩
  | some cfg =>
    have hs : s.step out (.saved works unknown) = some (s.saved cfg works unknown) := by
      simp only [Node.step, hsaving, Option.map_some]
    have hafter : (s.saved cfg works unknown).r.closed = s.r.closed ∧
        (s.saved cfg works unknown).saving = none ∧
        (s.saved cfg works unknown).r.incidents = s.r.incidents ∧
        (s.saved cfg works unknown).r.handled = s.r.handled ∧
        (s.saved cfg works unknown).due = s.due := by
      have hsteady := Recorder.steady_configure s.r cfg unknown s.now
      have hhandled := (configure_cases s.r cfg unknown s.now).1
      unfold Node.saved
      split
      · refine ⟨hsteady.closed, rfl, hsteady.incidents, hhandled, ?_⟩
        unfold Node.due
        rw [hhandled]
      · exact ⟨rfl, rfl, rfl, rfl, rfl⟩
    obtain ⟨hsame, hsaved, hincidents, -, hdue⟩ := hafter
    have hshut : (s.saved cfg works unknown).Shut out := ⟨h.step hs, hsame.trans hclosed, hsaved⟩
    exact hshut.ends.after (.inr (.inr ⟨unknown, rfl⟩)) hs hincidents hdue

/-! ## Nothing waits -/

/-- Where the collector cannot go on, it waits for a result, and the worker is there to send one. -/
theorem Orderly.goes_on (h : s.Orderly out) (hfree : s.free = true) (hcol : s.collector ≠ .done)
    (sample : ResourceSample) :
    (∃ choice, (s.step out (.collect choice sample)).isSome = true) ∨
      s.collector.waits = true ∧ s.r.workers ≠ [] := by
  have hpermits := h.inv.queued.permits
  cases hphase : s.collector with
  | selecting => exact .inl ⟨.ticker, by simp [Node.step, Node.collect, hphase, Node.select]⟩
  | received o => exact .inl ⟨.queue, by simp [Node.step, Node.collect, hphase, hfree]⟩
  | processed =>
    rw [hphase] at hpermits
    simp only [Phase.permit] at hpermits
    have hsome : s.permits ≠ 0 := by omega
    exact .inl ⟨.queue, by simp [Node.step, Node.collect, hphase, hsome]⟩
  | ticked => exact .inl ⟨.ticker, by simp [Node.step, Node.collect, hphase, hfree]⟩
  | stopping =>
    have hroom : ¬s.permits < s.queue.length := by omega
    refine .inl ⟨.stop, ?_⟩
    simp only [Node.step, Node.collect, hphase, hfree, if_true, Node.drain]
    rw [if_neg hroom]
    split
    · rfl
    · rfl
  | waiting k =>
    cases hres : s.result with
    | cons res rest => exact .inl ⟨.result, by simp [Node.step, Node.collect, hphase, hres]⟩
    | nil =>
      refine .inr ⟨rfl, fun hnone => ?_⟩
      have hone := h.inv.staffed
      unfold Staffed at hone
      rw [hphase, hres, hnone, h.ending.waits (by rw [hphase]; rfl)] at hone
      cases hone
  | took k res => exact .inl ⟨.result, by simp [Node.step, Node.collect, hphase, hfree]⟩
  | done => exact absurd hphase hcol

/-- The place for a result is empty while the worker is at work. -/
theorem Orderly.worker_sends (h : s.Orderly out) {i : Nat} (hi : i < s.r.workers.length)
    (err : Option WriteError) : (s.step out (.worker i err)).isSome = true := by
  have hone := h.inv.staffed
  unfold Staffed at hone
  have hempty : s.result.length = 0 := by
    split at hone
    · omega
    · omega
  have hw : s.r.workers[i]? = some s.r.workers[i] := List.getElem?_eq_getElem hi
  simp only [Node.step, Node.send, hw]
  rw [if_neg (by omega)]
  rfl

/-- A message with a permit has a place in the queue. -/
theorem Orderly.room (h : s.Orderly out) {i : Nat} {o : Observation}
    (hi : s.calls[i]? = some (.sending o)) : s.queue.length < queueCapacity := by
  obtain ⟨hlt, hget⟩ := List.getElem?_eq_some_iff.1 hi
  have hle := List.boole_getElem_le_countP (p := Call.holds) hlt
  rw [hget] at hle
  simp only [Call.holds, if_true] at hle
  have hpermits := h.inv.queued.permits
  have hroom := h.inv.queued.room
  omega

end Node

open Node in
/-- **No channel of the recorder is ever full where something is sent on it**: a message that has a
permit finds a place in the queue, and the worker sends its result at once. The collector waits for
the worker and for the mutex and for nothing else. -/
theorem nothing_waits (out : Outside) (cfg : Config) (hcfg : cfg.Validate = none)
    (sample : ResourceSample) (hasCompleted : Bool) (now : Int) (es : List Event) (s : Node)
    (hrun : History.advance (Node.step out) (Node.start cfg sample hasCompleted now) es = some s) :
    (∀ (i : Nat) (o : Observation), s.calls[i]? = some (.sending o) →
        s.queue.length < queueCapacity) ∧
      (∀ i < s.r.workers.length, ∀ err, (s.step out (.worker i err)).isSome = true) ∧
      (s.free = true → s.collector ≠ .done → ∀ sample,
        (∃ choice, (s.step out (.collect choice sample)).isSome = true) ∨
          s.collector.waits = true ∧ s.r.workers ≠ []) := by
  have horderly := Orderly.run hcfg hrun
  exact ⟨fun i o hi => horderly.room hi, fun i hi err => horderly.worker_sends hi err,
    fun hfree hcol sample => horderly.goes_on hfree hcol sample⟩

/-- A message is about to be sent while an incident is being written. -/
def sending : List Event := incident.take 7 ++ [.wait 14000000000, .collect .ticker unknown,
  .collect .ticker unknown]

theorem nothing_waits_sending :
    ∃ s, outcome sending = some s ∧ s.calls.length = 1 ∧ s.r.workers.length = 1 ∧
      s.queue.length < queueCapacity ∧ ∀ err, (s.step plain (.worker 0 err)).isSome = true := by
  have hsome : ((outcome sending).map fun s =>
      (s.calls.length, s.r.workers.length, s.calls[0]?)) =
        some (1, 1, some (.sending ⟨1000000000, text "odom", text "{}", 0⟩)) := by decide +kernel
  obtain ⟨s, hs, hall⟩ := Option.map_eq_some_iff.1 hsome
  obtain ⟨hcalls, hrest⟩ := Prod.mk.inj hall
  obtain ⟨hworkers, hcall⟩ := Prod.mk.inj hrest
  obtain ⟨hroom, hsend, -⟩ := nothing_waits plain DefaultConfig (by decide) unknown false 0 sending s hs
  exact ⟨s, hs, hcalls, hworkers, hroom 0 _ hcall, hsend 0 (by omega)⟩

open Node in
/-- **The recorder can always be closed.** From wherever `Close` finds the collector, it and the
worker alone come to their end, whether the snapshots can be written or not. By then every incident
has been given to the worker, and every message `Ingest` took has been handled unless it was put
into the queue after the collector had been through it. -/
theorem closing_completes (out : Outside) (cfg : Config) (hcfg : cfg.Validate = none)
    (sample : ResourceSample) (hasCompleted : Bool) (now : Int) (es : List Event) (s : Node)
    (hrun : History.advance (Node.step out) (Node.start cfg sample hasCompleted now) es = some s)
    (hclosed : s.r.closed = true) (works : Bool) (err : Option WriteError) :
    ∃ es' s', (∀ e ∈ es', Settles works err e) ∧
      History.advance (Node.step out) s es' = some s' ∧ s'.collector = .done ∧
      s'.r.active = none ∧ s'.r.workers = [] ∧
      s'.r.snapshots.map Capture.incident =
        (s.r.snapshots ++ s.r.active.toList).map Capture.incident ∧
      (s.collector.drained = false → s'.r.handled = s.accepted) := by
  have hends : s.Ends out works err := (Orderly.run hcfg hrun).ends hclosed
  obtain ⟨es', s', hsettles, hrest, hdone, hactive, hworkers, hincidents, hhandled⟩ := hends
  refine ⟨es', s', hsettles, hrest, hdone, hactive, hworkers, ?_, ?_⟩
  · rw [Recorder.incidents_eq, Recorder.incidents_eq, hactive] at hincidents
    simpa using hincidents
  · intro hqueue
    exact hhandled.trans (due_of_not_drained hqueue)

/-- `Close`, with an incident open and a message of it in the queue. -/
def shutting : List Event := incident ++ [.Close]

theorem closing_completes_shutting :
    ∃ s, outcome shutting = some s ∧ s.r.snapshots = [] ∧ s.r.active.isSome = true ∧
      ∃ es' s', (∀ e ∈ es', Node.Settles true none e) ∧
        History.advance (Node.step plain) s es' = some s' ∧ s'.collector = .done ∧
        s'.r.handled = s.accepted := by
  have hsome : ((outcome shutting).map fun s =>
      (s.r.closed, s.r.snapshots.length, s.r.active.isSome, s.collector.drained)) =
        some (true, 0, true, false) := by decide +kernel
  obtain ⟨s, hs, hall⟩ := Option.map_eq_some_iff.1 hsome
  obtain ⟨hclosed, hrest⟩ := Prod.mk.inj hall
  obtain ⟨hnone, hrest⟩ := Prod.mk.inj hrest
  obtain ⟨hactive, hqueue⟩ := Prod.mk.inj hrest
  obtain ⟨es', s', hsettles, hrun, hdone, -, -, -, hhandled⟩ := closing_completes plain DefaultConfig
    (by decide) unknown false 0 shutting s hs hclosed true none
  exact ⟨s, hs, List.eq_nil_of_length_eq_zero hnone, hactive, es', s', hsettles, hrun, hdone,
    hhandled hqueue⟩

end Recording
end Blackbox
end Mowgli
