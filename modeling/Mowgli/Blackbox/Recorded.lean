import Mathlib.Data.List.Perm.Basic
import Mowgli.Blackbox.Window

/-!
# Recorded — every run of the recorder

The permits are held by the calls of `Ingest` that have one, by the messages in the queue and by
the collector, so a call that gives one back never waits and a queue of the same size is never
full. The flag `writing` is one worker, or the result it sent. What `Ingest` accepted is what has
been handled, what the collector holds, and the queue, **in this order**.
-/

namespace Mowgli
namespace Blackbox
namespace Recording

/-! ## What each place holds -/

def Call.holds : Call → Bool
  | .permitted _ _ => true
  | .stamped _ => true
  | .sending _ => true
  | .returning => true
  | _ => false

def Call.time : Call → Option Int
  | .stamped o => some o.stamp
  | .sending o => some o.stamp
  | _ => none

def Phase.held : Phase → List Observation
  | .received o => [o]
  | _ => []

def Phase.permit : Phase → Nat
  | .received _ => 1
  | .processed => 1
  | _ => 0

def Phase.carried : Phase → Nat
  | .took _ _ => 1
  | _ => 0

namespace Node

variable {out : Outside} {s s' : Node} {i : Nat} {call : Call}

structure Queued (s : Node) : Prop where
  order : s.accepted = s.r.handled ++ s.collector.held ++ s.queue
  numbered : s.accepted.map Observation.seq = List.range s.accepted.length
  past : ∀ o ∈ s.accepted, o.stamp ≤ s.now
  stamps : ∀ c ∈ s.calls, ∀ t ∈ c.time, t ≤ s.now
  permits : s.permits = s.calls.countP Call.holds + s.queue.length + s.collector.permit
  room : s.permits ≤ queueCapacity

/-- One worker, or its result, and no other. -/
def Staffed (s : Node) : Prop :=
  s.r.workers.length + s.result.length + s.collector.carried = if s.r.writing then 1 else 0

/-- While settings are being saved there is no incident, and no worker. -/
def Saving (s : Node) : Prop :=
  ∀ cfg, s.saving = some cfg →
    cfg.Validate = none ∧ s.r.active = none ∧ s.r.writing = false

structure Inv (out : Outside) (s : Node) : Prop where
  kept : s.r.Kept out
  queued : s.Queued
  staffed : s.Staffed
  saving : s.Saving

/-! ## The calls of Ingest -/

theorem countP_moved (hi : s.calls[i]? = some call) (call' : Call) :
    (s.calls.set i call').countP Call.holds + (if call.holds then 1 else 0) =
      s.calls.countP Call.holds + if call'.holds then 1 else 0 := by
  obtain ⟨hlt, hget⟩ := List.getElem?_eq_some_iff.1 hi
  have hle := List.boole_getElem_le_countP (p := Call.holds) hlt
  rw [List.countP_set hlt, hget] at *
  omega

theorem countP_returned (hi : s.calls[i]? = some call) :
    (s.calls.eraseIdx i).countP Call.holds + (if call.holds then 1 else 0) =
      s.calls.countP Call.holds := by
  obtain ⟨hlt, hget⟩ := List.getElem?_eq_some_iff.1 hi
  have hperm := (List.getElem_cons_eraseIdx_perm hlt).countP_eq Call.holds
  rw [List.countP_cons, hget] at hperm
  exact hperm

theorem Queued.stamps_moved (h : s.Queued) {call' : Call} (hcall : ∀ t ∈ call'.time, t ≤ s.now) :
    ∀ c ∈ s.calls.set i call', ∀ t ∈ c.time, t ≤ s.now := by
  intro c hc
  rcases List.mem_or_eq_of_mem_set hc with hold | rfl
  · exact h.stamps c hold
  · exact hcall

theorem Queued.stamps_returned (h : s.Queued) :
    ∀ c ∈ s.calls.eraseIdx i, ∀ t ∈ c.time, t ≤ s.now := fun c hc =>
  h.stamps c ((List.eraseIdx_sublist s.calls i).subset hc)

theorem Queued.called (h : s.Queued) {calls : List Call} {permits : Nat}
    (hstamps : ∀ c ∈ calls, ∀ t ∈ c.time, t ≤ s.now)
    (hcount : permits + s.calls.countP Call.holds = s.permits + calls.countP Call.holds)
    (hroom : permits ≤ queueCapacity) : { s with calls := calls, permits := permits }.Queued := by
  refine ⟨h.order, h.numbered, h.past, hstamps, ?_, hroom⟩
  have := h.permits
  show permits = calls.countP Call.holds + s.queue.length + s.collector.permit
  omega

/-- A call that holds no permit returns. -/
theorem Queued.returned (h : s.Queued) (hi : s.calls[i]? = some call)
    (hholds : call.holds = false) : (s.returned i).Queued := by
  have hcount := countP_returned hi
  rw [hholds, if_neg Bool.false_ne_true, Nat.add_zero] at hcount
  exact h.called h.stamps_returned (by rw [hcount]) h.room

/-- The ways a call goes on. -/
inductive Ingests (s : Node) (i : Nat) (call : Call) : Node → Prop
  | moves (call' : Call) (hholds : call'.holds = call.holds)
      (htime : ∀ t ∈ call'.time, t ∈ call.time ∨ t = s.now) : Ingests s i call (s.moved i call')
  | returns (hholds : call.holds = false) : Ingests s i call (s.returned i)
  | enters (call' : Call) (hholds : call.holds = false) (hholds' : call'.holds = true)
      (htime : call'.time = none) (hroom : s.permits < queueCapacity) :
    Ingests s i call ({ s with permits := s.permits + 1 }.moved i call')
  | leaves (hholds : call.holds = true) (hsome : s.permits ≠ 0) :
    Ingests s i call ({ s with permits := s.permits - 1 }.moved i .dropping)
  | drops (hholds : call.holds = false) : Ingests s i call ({ s with r := s.r.drop }.returned i)
  | sends (o : Observation) (hcall : call = .sending o) :
    Ingests s i call
      ({ s with
        queue := s.queue ++ [s.numbered o]
        accepted := s.accepted ++ [s.numbered o] }.returned i)

theorem ingest_ways (hs : s.ingest i call = some s') : s.Ingests i call s' := by
  cases call with
  | loaded cfg topic data =>
    simp only [Node.ingest] at hs
    split at hs
    · cases hs
      exact .returns rfl
    · split at hs
      · cases hs
        exact .moves _ rfl fun t ht => by cases ht
      · cases hs
        exact .moves _ rfl fun t ht => by cases ht
  | checked topic data =>
    simp only [Node.ingest] at hs
    split at hs
    · rename_i hroom
      cases hs
      exact .enters _ rfl rfl rfl hroom
    · cases hs
      exact .moves _ rfl fun t ht => by cases ht
  | permitted topic data =>
    cases hs
    exact .moves _ rfl fun t ht => .inr (Option.some.inj ht).symm
  | stamped o =>
    cases hs
    split
    · exact .moves _ rfl fun t ht => by cases ht
    · exact .moves _ rfl fun t ht => .inl ht
  | sending o =>
    simp only [Node.ingest] at hs
    split at hs
    · cases hs
      exact .sends o rfl
    · cases hs
      exact .moves _ rfl fun t ht => by cases ht
  | returning =>
    simp only [Node.ingest] at hs
    split at hs
    · cases hs
    · rename_i hsome
      cases hs
      exact .leaves rfl hsome
  | dropping =>
    cases hs
    exact .drops rfl

theorem Queued.ingest (h : s.Queued) (hi : s.calls[i]? = some call)
    (hs : s.ingest i call = some s') : s'.Queued := by
  have htime := h.stamps call (List.mem_of_getElem? hi)
  have hroom := h.room
  cases ingest_ways hs with
  | moves call' hholds hnow =>
    refine h.called (h.stamps_moved fun t ht => ?_) ?_ hroom
    · rcases hnow t ht with hold | rfl
      · exact htime t hold
      · exact Int.le_refl _
    · have hcount := countP_moved hi call'
      rw [hholds] at hcount
      omega
  | returns hholds => exact h.returned hi hholds
  | enters call' hholds hholds' hnone hfits =>
    have hcount := countP_moved hi call'
    rw [hholds, hholds', if_neg Bool.false_ne_true, if_pos rfl] at hcount
    have hsame : s.permits + 1 + s.calls.countP Call.holds =
        s.permits + (s.calls.set i call').countP Call.holds := by omega
    refine h.called (h.stamps_moved ?_) hsame hfits
    rw [hnone]
    exact fun t ht => by cases ht
  | leaves hholds hsome =>
    have hcount := countP_moved hi .dropping
    rw [hholds, if_pos rfl] at hcount
    have hsame : s.permits - 1 + s.calls.countP Call.holds =
        s.permits + (s.calls.set i .dropping).countP Call.holds := by
      simp only [Call.holds, Bool.false_eq_true, if_false] at hcount
      omega
    exact h.called (h.stamps_moved fun t ht => by cases ht) hsame (Nat.le_trans (Nat.sub_le _ 1) hroom)
  | drops hholds =>
    exact Queued.returned (s := { s with r := s.r.drop })
      ⟨h.order, h.numbered, h.past, h.stamps, h.permits, h.room⟩ hi hholds
  | sends o hcall =>
    subst hcall
    have hcount := countP_returned hi
    have hpermits := h.permits
    simp only [Call.holds, if_true] at hcount
    refine ⟨?_, ?_, ?_, h.stamps_returned, ?_, h.room⟩
    · show s.accepted ++ [s.numbered o] = s.r.handled ++ s.collector.held ++ (s.queue ++ [_])
      rw [h.order, List.append_assoc]
    · show (s.accepted ++ [s.numbered o]).map Observation.seq = List.range (s.accepted ++ [_]).length
      rw [List.map_append, h.numbered, List.length_append, List.length_singleton, List.range_succ]
      rfl
    · intro p hp
      rcases List.mem_append.1 hp with hold | hnew
      · exact h.past p hold
      · obtain rfl := List.mem_singleton.1 hnew
        exact htime o.stamp rfl
    · show s.permits = (s.calls.eraseIdx i).countP Call.holds +
        (s.queue ++ [s.numbered o]).length + s.collector.permit
      rw [List.length_append, List.length_singleton]
      omega

/-- What a call of `Ingest` leaves alone. -/
theorem ingest_fixed (hs : s.ingest i call = some s') :
    (s'.r = s.r ∨ s'.r = s.r.drop) ∧ s'.collector = s.collector ∧ s'.result = s.result ∧
      s'.saving = s.saving ∧ s'.now = s.now := by
  cases ingest_ways hs with
  | drops => exact ⟨.inr rfl, rfl, rfl, rfl, rfl⟩
  | _ => exact ⟨.inl rfl, rfl, rfl, rfl, rfl⟩

theorem Inv.ingest (h : s.Inv out) (hi : s.calls[i]? = some call)
    (hs : s.ingest i call = some s') : s'.Inv out := by
  obtain ⟨hr, hcol, hres, hsav, -⟩ := ingest_fixed hs
  have hfields : s'.r.workers = s.r.workers ∧ s'.r.writing = s.r.writing ∧
      s'.r.active = s.r.active := by
    rcases hr with hr | hr
    · rw [hr]
      exact ⟨rfl, rfl, rfl⟩
    · rw [hr]
      exact ⟨rfl, rfl, rfl⟩
  obtain ⟨hworkers, hwriting, hactive⟩ := hfields
  refine ⟨?_, h.queued.ingest hi hs, ?_, ?_⟩
  · rcases hr with hr | hr
    · rw [hr]
      exact h.kept
    · rw [hr]
      exact Recorder.Alike.kept
        ⟨h.kept.same_buffer, rfl, rfl, rfl, Nat.le_succ _, rfl, rfl⟩ h.kept
  · unfold Staffed
    rw [hworkers, hwriting, hcol, hres]
    exact h.staffed
  · intro cfg hcfg
    rw [hactive, hwriting]
    exact h.saving cfg (hsav.symm.trans hcfg)

/-! ## The order of acceptance -/

/-- Nothing moves between what has been handled, what the collector holds, and the queue. -/
theorem Queued.same (h : s.Queued) (hhandled : s'.r.handled = s.r.handled)
    (hheld : s'.collector.held = s.collector.held)
    (hpermit : s'.collector.permit = s.collector.permit) (hqueue : s'.queue = s.queue)
    (hpermits : s'.permits = s.permits) (hcalls : s'.calls = s.calls)
    (haccepted : s'.accepted = s.accepted) (hnow : s.now ≤ s'.now) : s'.Queued := by
  refine ⟨?_, ?_, ?_, ?_, ?_, ?_⟩
  · rw [haccepted, hhandled, hheld, hqueue]
    exact h.order
  · rw [haccepted]
    exact h.numbered
  · intro o ho
    rw [haccepted] at ho
    exact Int.le_trans (h.past o ho) hnow
  · intro c hc t ht
    rw [hcalls] at hc
    exact Int.le_trans (h.stamps c hc t ht) hnow
  · rw [hpermits, hcalls, hqueue, hpermit]
    exact h.permits
  · rw [hpermits]
    exact h.room

theorem Queued.seqs (h : s.Queued) :
    s.r.handled.map Observation.seq = List.range s.r.handled.length ∧
      (s.collector.held ++ s.queue).map Observation.seq =
        (List.range (s.collector.held ++ s.queue).length).map (s.r.handled.length + ·) := by
  have hnum := h.numbered
  rw [h.order, List.append_assoc, List.map_append, List.length_append, List.range_add] at hnum
  exact List.append_inj hnum (by simp)

theorem Queued.past_handled (h : s.Queued) : s.r.Past s.now := by
  intro o ho
  constructor
  · have hmem : o.seq ∈ s.r.handled.map Observation.seq := List.mem_map_of_mem ho
    rw [h.seqs.1] at hmem
    exact List.mem_range.1 hmem
  · refine h.past o ?_
    rw [h.order, List.append_assoc]
    exact List.mem_append_left _ ho

theorem Queued.next (h : s.Queued) {o : Observation} (hheld : s.collector.held = [o]) :
    o.seq = s.r.handled.length ∧ o.stamp ≤ s.now := by
  constructor
  · have hseqs := h.seqs.2
    rw [hheld, List.singleton_append, List.map_cons, List.length_cons, List.range_succ_eq_map,
      List.map_cons] at hseqs
    exact (List.cons.inj hseqs).1
  · refine h.past o ?_
    rw [h.order, hheld]
    simp

theorem Queued.nodup (h : s.Queued) : s.accepted.Nodup := by
  have hrange : (s.accepted.map Observation.seq).Nodup := by
    rw [h.numbered]
    exact List.nodup_range
  exact List.Nodup.of_map _ hrange

/-! ## The collector -/

theorem finishDue_cases (r : Recorder) (now : Int) :
    r.finishDue now = r ∨ ∃ c, r.active = some c ∧ r.closed = false ∧ c.deadline ≤ now ∧
      r.finishDue now = r.finish c false := by
  unfold Recorder.finishDue
  split
  · rename_i c hc
    split
    · rename_i hdue
      exact .inr ⟨c, hc, hdue.1, hdue.2, rfl⟩
    · exact .inl rfl
  · exact .inl rfl

theorem finishInterrupted_cases (r : Recorder) :
    r.finishInterrupted = r ∧ r.active = none ∨ ∃ c, r.active = some c ∧
      r.finishInterrupted = r.finish c true := by
  unfold Recorder.finishInterrupted
  split
  · rename_i c hc
    exact .inr ⟨c, hc, rfl⟩
  · rename_i hc
    exact .inl ⟨rfl, hc⟩

theorem finishDue_same (r : Recorder) (now : Int) :
    (r.finishDue now).handled = r.handled ∧ (r.finishDue now).closed = r.closed ∧
      (r.finishDue now = r ∨ ∃ c b, r.finishDue now = r.finish c b) := by
  rcases finishDue_cases r now with heq | ⟨c, -, -, -, heq⟩
  · rw [heq]
    exact ⟨rfl, rfl, .inl rfl⟩
  · rw [heq]
    exact ⟨rfl, rfl, .inr ⟨c, false, rfl⟩⟩

theorem finishInterrupted_same (r : Recorder) :
    r.finishInterrupted.handled = r.handled ∧ r.finishInterrupted.closed = r.closed ∧
      (r.finishInterrupted = r ∨ ∃ c b, r.finishInterrupted = r.finish c b) := by
  rcases finishInterrupted_cases r with ⟨heq, -⟩ | ⟨c, -, heq⟩
  · rw [heq]
    exact ⟨rfl, rfl, .inl rfl⟩
  · rw [heq]
    exact ⟨rfl, rfl, .inr ⟨c, true, rfl⟩⟩

/-- What is thrown away when the recorder is closed counts as handled. -/
theorem discards (q : List Observation) (r : Recorder) :
    (q.foldl Recorder.discard r).handled = r.handled ++ q ∧
      (q.foldl Recorder.discard r).workers = r.workers ∧
      (q.foldl Recorder.discard r).writing = r.writing ∧
      (q.foldl Recorder.discard r).snapshots = r.snapshots := by
  induction q generalizing r with
  | nil => simp
  | cons o q ih =>
    obtain ⟨hh, hw, hwr, hs⟩ := ih (r.discard o)
    refine ⟨?_, hw, hwr, hs⟩
    rw [List.foldl_cons, hh]
    simp [Recorder.discard]

variable {r : Recorder} {phase : Phase}

theorem discards_kept (q : List Observation) (h : r.Kept out) :
    (q.foldl Recorder.discard r).Kept out := by
  induction q generalizing r with
  | nil => exact h
  | cons o q ih => exact ih (h.discard o)

theorem Inv.lookAround (h : s.Inv out) (sample : ResourceSample) :
    (s.lookAround sample).Inv out := by
  unfold Node.lookAround
  split
  · refine ⟨h.kept.applyPressure sample, ?_, h.staffed, h.saving⟩
    exact h.queued.same rfl rfl rfl rfl rfl rfl rfl (Int.le_refl _)
  · exact ⟨h.kept, h.queued.same rfl rfl rfl rfl rfl rfl rfl (Int.le_refl _), h.staffed, h.saving⟩

theorem not_saving (hfree : s.free = true) : s.saving = none := Option.isNone_iff_eq_none.1 hfree

theorem Saving.of_none (h : s.saving = none) : s.Saving := by
  intro cfg hcfg
  rw [h] at hcfg
  cases hcfg

/-- The queue is empty, and its permits are given back. -/
def emptied (s : Node) : Node :=
  { s with
    r := s.queue.foldl Recorder.discard s.r
    permits := s.permits - s.queue.length
    queue := [] }

/-- The ways the collector goes on. -/
inductive Collects (out : Outside) (s : Node) : Node → Prop
  | receives {o : Observation} {rest : List Observation} (hcol : s.collector = .selecting)
      (hqueue : s.queue = o :: rest) :
    Collects out s { s with queue := rest, collector := .received o }
  | ticks (hcol : s.collector = .selecting) : Collects out s { s with collector := .ticked }
  | stops (hcol : s.collector = .selecting) (hclosed : s.r.closed = true) :
    Collects out s { s with collector := .stopping }
  | takes {k : Receive} {res : WriteResult} {rest : List WriteResult}
      (hcol : s.collector = .selecting ∧ k = .loop ∨ s.collector = .waiting k)
      (hres : s.result = res :: rest) :
    Collects out s { s with result := rest, collector := .took k res }
  | processes {o : Observation} (hcol : s.collector = .received o) (hfree : s.free = true) :
    Collects out s { s with r := s.r.process out o s.now, collector := .processed }
  | releases (hcol : s.collector = .processed) (hsome : s.permits ≠ 0) :
    Collects out s { s with permits := s.permits - 1, collector := .selecting }
  | looks (sample : ResourceSample) (hcol : s.collector = .ticked) (hfree : s.free = true) :
    Collects out s ({ s with r := s.r.tick s.now, collector := .selecting }.lookAround sample)
  | drains (hcol : s.collector = .stopping) (hfree : s.free = true) (hwriting : s.r.writing = true) :
    Collects out s { s.emptied with collector := .waiting .last }
  | interrupts (hcol : s.collector = .stopping) (hfree : s.free = true)
      (hwriting : s.r.writing = false) : Collects out s s.emptied.interrupt
  | applies {k : Receive} {res : WriteResult} (hcol : s.collector = .took k res)
      (hfree : s.free = true) : Collects out s (s.receive res k)

theorem collect_ways {choice : Choice} {sample : ResourceSample}
    (hs : s.collect out choice sample = some s') : s.Collects out s' := by
  unfold Node.collect at hs
  split at hs
  · rename_i hcol
    cases choice with
    | queue =>
      simp only [Node.select] at hs
      split at hs
      · cases hs
      · rename_i hqueue
        cases hs
        exact .receives hcol hqueue
    | ticker =>
      cases hs
      exact .ticks hcol
    | result =>
      simp only [Node.select] at hs
      split at hs
      · cases hs
      · rename_i hres
        cases hs
        exact .takes (.inl ⟨hcol, rfl⟩) hres
    | stop =>
      simp only [Node.select] at hs
      split at hs
      · rename_i hclosed
        cases hs
        exact .stops hcol hclosed
      · cases hs
  · rename_i hcol
    split at hs
    · rename_i hfree
      cases hs
      exact .processes hcol hfree
    · cases hs
  · rename_i hcol
    split at hs
    · cases hs
    · rename_i hsome
      cases hs
      exact .releases hcol hsome
  · rename_i hcol
    split at hs
    · rename_i hfree
      cases hs
      exact .looks sample hcol hfree
    · cases hs
  · rename_i hcol
    split at hs
    · rename_i hfree
      have hsame := (discards s.queue s.r).2.2.1
      unfold Node.drain at hs
      simp only at hs
      split at hs
      · cases hs
      · split at hs
        · rename_i hwriting
          cases hs
          exact .drains hcol hfree (hsame.symm.trans hwriting)
        · rename_i hidle
          cases hs
          exact .interrupts hcol hfree (hsame.symm.trans (Bool.eq_false_iff.2 hidle))
    · cases hs
  · rename_i hcol
    split at hs
    · cases hs
    · rename_i hres
      cases hs
      exact .takes (.inr hcol) hres
  · rename_i hcol
    split at hs
    · rename_i hfree
      cases hs
      exact .applies hcol hfree
    · cases hs
  · cases hs

/-- The collector goes to another place with a recorder that has handled the same. -/
theorem Queued.goes (h : s.Queued) (hhandled : r.handled = s.r.handled)
    (hheld : phase.held = s.collector.held) (hpermit : phase.permit = s.collector.permit) :
    { s with r := r, collector := phase }.Queued :=
  h.same hhandled hheld hpermit rfl rfl rfl rfl (Int.le_refl _)

/-- The flag is down, so nobody is at work and no result is under way. -/
theorem Staffed.idle (h : s.Staffed) (hwriting : s.r.writing = false) :
    s.r.workers.length = 0 ∧ s.result.length = 0 ∧ s.collector.carried = 0 := by
  unfold Staffed at h
  rw [hwriting] at h
  simp only [Bool.false_eq_true, if_false] at h
  omega

/-- The collector holds the result of the one worker there was. -/
theorem Staffed.alone (h : s.Staffed) (hcarried : s.collector.carried = 1) :
    s.r.workers.length = 0 ∧ s.result.length = 0 := by
  unfold Staffed at h
  rw [hcarried] at h
  split at h
  · omega
  · omega

/-- Nobody is at work, and a snapshot may have been started. -/
theorem staffed_finish (hworkers : r.workers.length = 0) (hresult : s.result.length = 0)
    (hwriting : r.writing = false) (hphase : phase.carried = 0) {r' : Recorder}
    (hr : r' = r ∨ ∃ c b, r' = r.finish c b) : { s with r := r', collector := phase }.Staffed := by
  unfold Staffed
  rcases hr with rfl | ⟨c, b, rfl⟩
  · simp only [hwriting, hphase, hresult, hworkers]
    rfl
  · simp only [Recorder.finish, List.length_append, List.length_singleton, hphase, hresult, hworkers]
    rfl

theorem Inv.ticked (h : s.Inv out) (hcol : s.collector = .ticked) (hfree : s.free = true) :
    { s with r := s.r.tick s.now, collector := .selecting }.Inv out := by
  have hheld : Phase.selecting.held = s.collector.held := by rw [hcol]; rfl
  have hpermit : Phase.selecting.permit = s.collector.permit := by rw [hcol]; rfl
  refine ⟨h.kept.tick s.now, ?_, ?_, Saving.of_none (not_saving hfree)⟩
  · refine h.queued.goes ?_ hheld hpermit
    unfold Recorder.tick
    simp only
    split
    · rfl
    · exact (finishDue_same (s.r.expire s.now) s.now).1
  · unfold Recorder.tick
    simp only
    split
    · have hone := h.staffed
      unfold Staffed at hone
      rw [hcol] at hone
      exact hone
    · rename_i hwriting
      have hwriting : s.r.writing = false := Bool.eq_false_iff.2 hwriting
      obtain ⟨hworkers, hresult, -⟩ := h.staffed.idle hwriting
      exact staffed_finish (r := s.r.expire s.now) hworkers hresult hwriting rfl
        (finishDue_same (s.r.expire s.now) s.now).2.2

theorem Inv.interrupt (h : s.Inv out) (hsaving : s.saving = none)
    (hheld : s.collector.held = []) (hpermit : s.collector.permit = 0)
    (hwriting : s.r.writing = false) :
    s.interrupt.Inv out := by
  obtain ⟨hworkers, hresult, -⟩ := h.staffed.idle hwriting
  unfold Node.interrupt
  split
  · obtain ⟨hhandled, -, hfinish⟩ := finishInterrupted_same s.r
    exact ⟨h.kept.finishInterrupted, h.queued.goes hhandled hheld.symm hpermit.symm,
      staffed_finish hworkers hresult hwriting rfl hfinish, Saving.of_none hsaving⟩
  · exact ⟨h.kept, h.queued.goes rfl hheld.symm hpermit.symm,
      staffed_finish hworkers hresult hwriting rfl (.inl rfl), Saving.of_none hsaving⟩

theorem Inv.receive (h : s.Inv out) {k : Receive} {res : WriteResult}
    (hcol : s.collector = .took k res) (hfree : s.free = true) : (s.receive res k).Inv out := by
  have hsaving := not_saving hfree
  have hheld : s.collector.held = [] := by rw [hcol]; rfl
  have hpermit : s.collector.permit = 0 := by rw [hcol]; rfl
  obtain ⟨hworkers, hresult⟩ := h.staffed.alone (by rw [hcol]; rfl)
  have happlied := h.kept.applyWriteResult res
  cases k with
  | loop =>
    obtain ⟨hhandled, -, hfinish⟩ := finishDue_same (s.r.applyWriteResult res) s.now
    exact ⟨happlied.finishDue s.now, h.queued.goes hhandled hheld.symm hpermit.symm,
      staffed_finish (r := s.r.applyWriteResult res) hworkers hresult rfl rfl hfinish,
      Saving.of_none hsaving⟩
  | last =>
    -- for the rest the collector is as good as done
    have hinv : { s with r := s.r.applyWriteResult res, collector := .done }.Inv out :=
      ⟨happlied, h.queued.goes rfl hheld.symm hpermit.symm,
        staffed_finish (r := s.r.applyWriteResult res) hworkers hresult rfl rfl (.inl rfl),
        Saving.of_none hsaving⟩
    have hint := hinv.interrupt hsaving rfl rfl rfl
    unfold Node.interrupt at hint
    show ({ s with r := s.r.applyWriteResult res }.interrupt).Inv out
    unfold Node.interrupt
    exact hint
  | interrupted =>
    exact ⟨happlied, h.queued.goes rfl hheld.symm hpermit.symm,
      staffed_finish (r := s.r.applyWriteResult res) hworkers hresult rfl rfl (.inl rfl),
      Saving.of_none hsaving⟩

theorem Inv.emptied (h : s.Inv out) (hcol : s.collector = .stopping) (hsaving : s.saving = none) :
    s.emptied.Inv out := by
  obtain ⟨hhandled, hworkers, hwriting, -⟩ := discards s.queue s.r
  have horder := h.queued.order
  have hpermits := h.queued.permits
  have hroom := h.queued.room
  have hone := h.staffed
  unfold Staffed at hone
  rw [hcol] at horder hpermits
  refine ⟨discards_kept s.queue h.kept, ⟨?_, h.queued.numbered, h.queued.past, h.queued.stamps,
    ?_, ?_⟩, ?_, Saving.of_none hsaving⟩
  · show s.accepted = (s.queue.foldl Recorder.discard s.r).handled ++ s.collector.held ++ []
    rw [hhandled, hcol]
    simpa [Phase.held] using horder
  · show s.permits - s.queue.length = s.calls.countP Call.holds + 0 + s.collector.permit
    rw [hcol]
    simp only [Phase.permit, Nat.add_zero] at hpermits ⊢
    omega
  · show s.permits - s.queue.length ≤ queueCapacity
    omega
  · show (s.queue.foldl Recorder.discard s.r).workers.length + s.result.length +
      s.collector.carried = if (s.queue.foldl Recorder.discard s.r).writing then 1 else 0
    rw [hworkers, hwriting]
    exact hone

theorem Inv.goes (h : s.Inv out) (hheld : phase.held = s.collector.held)
    (hpermit : phase.permit = s.collector.permit) (hcarried : phase.carried = s.collector.carried) :
    { s with collector := phase }.Inv out := by
  refine ⟨h.kept, h.queued.goes rfl hheld hpermit, ?_, h.saving⟩
  have hone := h.staffed
  unfold Staffed at hone
  rw [← hcarried] at hone
  exact hone

theorem Inv.takes (h : s.Inv out) {k : Receive} {res : WriteResult} {rest : List WriteResult}
    (hcol : s.collector = .selecting ∨ s.collector = .waiting k) (hres : s.result = res :: rest) :
    { s with result := rest, collector := .took k res }.Inv out := by
  have hnothing : s.collector.held = [] ∧ s.collector.permit = 0 ∧ s.collector.carried = 0 := by
    rcases hcol with hcol | hcol
    · rw [hcol]
      exact ⟨rfl, rfl, rfl⟩
    · rw [hcol]
      exact ⟨rfl, rfl, rfl⟩
  obtain ⟨hheld, hpermit, hcarried⟩ := hnothing
  refine ⟨h.kept, h.queued.same rfl hheld.symm hpermit.symm rfl rfl rfl rfl (Int.le_refl _), ?_,
    h.saving⟩
  have hone := h.staffed
  unfold Staffed at hone
  rw [hres, hcarried, List.length_cons] at hone
  show s.r.workers.length + rest.length + 1 = _
  rw [← hone]
  omega

theorem Inv.collect (h : s.Inv out) {choice : Choice} {sample : ResourceSample}
    (hs : s.collect out choice sample = some s') : s'.Inv out := by
  have hone := h.staffed
  have horder := h.queued.order
  have hpermits := h.queued.permits
  have hroom := h.queued.room
  unfold Staffed at hone
  cases collect_ways hs with
  | receives hcol hqueue =>
    rw [hcol] at hone horder hpermits
    rw [hqueue] at horder hpermits
    refine ⟨h.kept, ⟨?_, h.queued.numbered, h.queued.past, h.queued.stamps, ?_, hroom⟩, hone,
      h.saving⟩
    · rw [horder]
      simp [Phase.held]
    · rw [hpermits]
      simp [Phase.permit]
      omega
  | ticks hcol => exact h.goes (by rw [hcol]; rfl) (by rw [hcol]; rfl) (by rw [hcol]; rfl)
  | stops hcol hclosed => exact h.goes (by rw [hcol]; rfl) (by rw [hcol]; rfl) (by rw [hcol]; rfl)
  | takes hcol hres => exact h.takes (hcol.imp And.left id) hres
  | @processes o hcol hfree =>
    obtain ⟨hseq, hstamp⟩ := h.queued.next (o := o) (by rw [hcol]; rfl)
    have hfixed := Recorder.process_fixed out s.r o s.now
    rw [hcol] at hone horder hpermits
    refine ⟨h.kept.process h.queued.past_handled hseq hstamp, ⟨?_, h.queued.numbered,
      h.queued.past, h.queued.stamps, hpermits, hroom⟩, ?_, Saving.of_none (not_saving hfree)⟩
    · show s.accepted = (s.r.process out o s.now).handled ++ [] ++ s.queue
      rw [hfixed.handled, horder]
      simp [Phase.held, Recorder.handling]
    · show (s.r.process out o s.now).workers.length + s.result.length + 0 = _
      rw [hfixed.workers, hfixed.writing]
      exact hone
  | releases hcol hsome =>
    rw [hcol] at hone horder hpermits
    refine ⟨h.kept, ⟨horder, h.queued.numbered, h.queued.past, h.queued.stamps, ?_, ?_⟩, hone,
      h.saving⟩
    · show s.permits - 1 = s.calls.countP Call.holds + s.queue.length + 0
      simp only [Phase.permit] at hpermits
      omega
    · show s.permits - 1 ≤ queueCapacity
      omega
  | looks sample hcol hfree => exact (h.ticked hcol hfree).lookAround sample
  | drains hcol hfree hwriting =>
    have hphase : s.emptied.collector = .stopping := hcol
    exact (h.emptied hcol (not_saving hfree)).goes (by rw [hphase]; rfl) (by rw [hphase]; rfl)
      (by rw [hphase]; rfl)
  | interrupts hcol hfree hwriting =>
    have hphase : s.emptied.collector = .stopping := hcol
    exact (h.emptied hcol (not_saving hfree)).interrupt (not_saving hfree) (by rw [hphase]; rfl)
      (by rw [hphase]; rfl) ((discards s.queue s.r).2.2.1.trans hwriting)
  | applies hcol hfree => exact h.receive hcol hfree

/-! ## The others -/

theorem Inv.send (h : s.Inv out) {err : Option WriteError} (hs : s.send i err = some s') :
    s'.Inv out := by
  unfold Node.send at hs
  split at hs
  · cases hs
  · rename_i w hw
    split at hs
    · cases hs
    · cases hs
      refine ⟨⟨h.kept.sound, h.kept.limit, h.kept.history, h.kept.active, h.kept.snapshots⟩,
        h.queued.same rfl rfl rfl rfl rfl rfl rfl (Int.le_refl _), ?_, h.saving⟩
      have hlt : i < s.r.workers.length := (List.getElem?_eq_some_iff.1 hw).1
      have hone := h.staffed
      unfold Staffed at hone
      show (s.r.workers.eraseIdx i).length + (s.result ++ [_]).length + s.collector.carried = _
      rw [List.length_eraseIdx_of_lt hlt, List.length_append, List.length_singleton, ← hone]
      omega

theorem startPrune_cases (r : Recorder) :
    r.startPrune = r ∨ (r.writing = false ∧ r.startPrune =
      { r with writing := true, pruning := true, workers := r.workers ++ [.maintain] }) := by
  unfold Recorder.startPrune
  split
  · exact .inl rfl
  · rename_i hidle
    exact .inr ⟨Bool.eq_false_iff.2 fun h => hidle (.inr (.inl h)), rfl⟩

/-- The new settings, and a worker that prunes where there is none. -/
theorem configure_ways (r : Recorder) (cfg : Config) (sample : ResourceSample) (now : Int) :
    ∃ r', { r with cfg := cfg }.Fixed r' ∧ r'.lastTrigger = r.lastTrigger ∧ r'.active = r.active ∧
      (r.configure cfg sample now = r' ∨ r.configure cfg sample now = r'.startPrune) := by
  have hresize : { r with cfg := cfg }.Fixed ({ r with cfg := cfg }.resize cfg r.cfg sample) ∧
      ({ r with cfg := cfg }.resize cfg r.cfg sample).lastTrigger = r.lastTrigger ∧
      ({ r with cfg := cfg }.resize cfg r.cfg sample).active = r.active := by
    unfold Recorder.resize
    split
    · exact ⟨⟨rfl, rfl, rfl, rfl, rfl, rfl⟩, rfl, rfl⟩
    · exact ⟨Recorder.Fixed.refl _, rfl, rfl⟩
  unfold Recorder.configure
  simp only
  generalize { r with cfg := cfg }.resize cfg r.cfg sample = r₁ at hresize
  have hforget : r₁.Fixed (if cfg.Enabled then r₁.expire now else (r₁.expire now).forget) ∧
      (if cfg.Enabled then r₁.expire now else (r₁.expire now).forget).lastTrigger =
        r₁.lastTrigger ∧
      (if cfg.Enabled then r₁.expire now else (r₁.expire now).forget).active = r₁.active := by
    split
    · exact ⟨⟨rfl, rfl, rfl, rfl, rfl, rfl⟩, rfl, rfl⟩
    · exact ⟨⟨rfl, rfl, rfl, rfl, rfl, rfl⟩, rfl, rfl⟩
  generalize (if cfg.Enabled then r₁.expire now else (r₁.expire now).forget) = r₂ at hforget ⊢
  refine ⟨r₂, hresize.1.trans hforget.1, hforget.2.1.trans hresize.2.1,
    hforget.2.2.trans hresize.2.2, ?_⟩
  split
  · exact .inr rfl
  · exact .inl rfl

/-- New settings start one worker at most, and only where there is none. -/
theorem configure_cases (r : Recorder) (cfg : Config) (sample : ResourceSample) (now : Int) :
    (r.configure cfg sample now).handled = r.handled ∧
      (r.configure cfg sample now).snapshots = r.snapshots ∧
      (((r.configure cfg sample now).writing = r.writing ∧
          (r.configure cfg sample now).workers = r.workers) ∨
        (r.writing = false ∧ (r.configure cfg sample now).writing = true ∧
          (r.configure cfg sample now).workers = r.workers ++ [.maintain])) := by
  obtain ⟨r', hfixed, -, -, hways⟩ := configure_ways r cfg sample now
  have hsame := And.intro hfixed.writing hfixed.workers
  rcases hways with heq | heq
  · rw [heq]
    exact ⟨hfixed.handled, hfixed.snapshots, .inl hsame⟩
  · rcases startPrune_cases r' with hnone | ⟨hidle, hprune⟩
    · rw [heq, hnone]
      exact ⟨hfixed.handled, hfixed.snapshots, .inl hsame⟩
    · rw [heq, hprune]
      refine ⟨hfixed.handled, hfixed.snapshots, .inr ⟨hfixed.writing.symm.trans hidle, rfl, ?_⟩⟩
      exact congrArg (· ++ [_]) hfixed.workers

theorem Inv.saved (h : s.Inv out) {cfg : Config} (hcfg : s.saving = some cfg) (works : Bool)
    (sample : ResourceSample) : (s.saved cfg works sample).Inv out := by
  obtain ⟨hvalid, hactive, hwriting⟩ := h.saving cfg hcfg
  unfold Node.saved
  split
  · obtain ⟨hhandled, -, hstaff⟩ := configure_cases s.r cfg sample s.now
    refine ⟨h.kept.configure hactive hvalid sample s.now,
      h.queued.same hhandled rfl rfl rfl rfl rfl rfl (Int.le_refl _), ?_, Saving.of_none rfl⟩
    have hone := h.staffed
    unfold Staffed at hone ⊢
    rcases hstaff with ⟨hw, hworkers⟩ | ⟨hidle, hw, hworkers⟩
    · rw [hw, hworkers]
      exact hone
    · rw [hw, hworkers, List.length_append, List.length_singleton]
      rw [hidle] at hone
      simp only [Bool.false_eq_true, if_false, if_true] at hone ⊢
      omega
  · exact ⟨h.kept, h.queued.same rfl rfl rfl rfl rfl rfl rfl (Int.le_refl _), h.staffed,
      Saving.of_none rfl⟩

theorem Inv.configurePersist (h : s.Inv out) (cfg : Config) : (s.configurePersist cfg).Inv out := by
  unfold Node.configurePersist
  split
  · exact h
  · rename_i hallowed
    refine ⟨h.kept, h.queued.same rfl rfl rfl rfl rfl rfl rfl (Int.le_refl _), h.staffed, ?_⟩
    intro cfg' hcfg'
    obtain rfl := Option.some.inj hcfg'
    unfold Recorder.refusal at hallowed
    cases hvalid : cfg.Validate with
    | some e => simp [hvalid] at hallowed
    | none =>
      rw [hvalid] at hallowed
      simp only at hallowed
      split at hallowed
      · exact absurd rfl hallowed
      · split at hallowed
        · exact absurd rfl hallowed
        · rename_i hidle
          refine ⟨rfl, ?_, Bool.eq_false_iff.2 fun hw => hidle (.inr hw)⟩
          cases ha : s.r.active with
          | none => rfl
          | some c => exact absurd (.inl (by rw [ha]; rfl)) hidle

theorem Inv.trigger (h : s.Inv out) (hfree : s.free = true) (reason : Bytes) :
    { s with r := (s.r.trigger out reason s.now).1 }.Inv out := by
  have hfixed := Recorder.trigger_fixed out s.r reason s.now
  refine ⟨h.kept.trigger h.queued.past_handled reason,
    h.queued.same hfixed.handled rfl rfl rfl rfl rfl rfl (Int.le_refl _), ?_,
    Saving.of_none (not_saving hfree)⟩
  have hone := h.staffed
  unfold Staffed at hone ⊢
  rw [hfixed.workers, hfixed.writing]
  exact hone

theorem Inv.step (h : s.Inv out) {e : Event} (hs : s.step out e = some s') : s'.Inv out := by
  cases e with
  | wait d =>
    cases hs
    exact ⟨h.kept, h.queued.same rfl rfl rfl rfl rfl rfl rfl (by simp), h.staffed, h.saving⟩
  | Ingest topic data =>
    cases hs
    refine ⟨h.kept, ⟨h.queued.order, h.queued.numbered, h.queued.past, ?_, ?_, h.queued.room⟩,
      h.staffed, h.saving⟩
    · intro c hc t ht
      rcases List.mem_append.1 hc with hold | hnew
      · exact h.queued.stamps c hold t ht
      · obtain rfl := List.mem_singleton.1 hnew
        cases ht
    · show s.permits = (s.calls ++ [_]).countP Call.holds + _ + _
      rw [List.countP_append]
      exact h.queued.permits
  | ingest i =>
    obtain ⟨call, hi, hcall⟩ := Option.bind_eq_some_iff.1 hs
    exact h.ingest hi hcall
  | Trigger reason =>
    simp only [Node.step] at hs
    split at hs
    · rename_i hfree
      cases hs
      exact h.trigger hfree reason
    · cases hs
  | ConfigurePersist cfg =>
    simp only [Node.step] at hs
    split at hs
    · cases hs
      exact h.configurePersist cfg
    · cases hs
  | saved works sample =>
    obtain ⟨cfg, hcfg, rfl⟩ := Option.map_eq_some_iff.1 hs
    exact h.saved hcfg works sample
  | Close =>
    cases hs
    exact ⟨⟨h.kept.sound, h.kept.limit, h.kept.history, h.kept.active, h.kept.snapshots⟩,
      h.queued.same rfl rfl rfl rfl rfl rfl rfl (Int.le_refl _), h.staffed, h.saving⟩
  | worker i err => exact h.send hs
  | collect choice sample => exact h.collect hs

theorem Inv.start {cfg : Config} (hcfg : cfg.Validate = none) (sample : ResourceSample)
    (hasCompleted : Bool) (now : Int) : (Node.start cfg sample hasCompleted now).Inv out := by
  have hnew : ∀ b, (Recorder.start cfg sample b).handled = [] ∧
      (Recorder.start cfg sample b).workers.length =
        if (Recorder.start cfg sample b).writing then 1 else 0 := by
    intro b
    cases b with
    | false => exact ⟨rfl, rfl⟩
    | true => exact ⟨rfl, rfl⟩
  obtain ⟨hhandled, hworkers⟩ := hnew hasCompleted
  refine ⟨Recorder.Kept.start hcfg sample hasCompleted, ⟨?_, rfl, ?_, ?_, rfl, Nat.zero_le _⟩,
    hworkers, Saving.of_none rfl⟩
  · show [] = (Recorder.start cfg sample hasCompleted).handled ++ [] ++ []
    rw [hhandled]
    rfl
  · intro o ho
    cases ho
  · intro c hc
    cases hc

end Node

/-! ## The end of an incident, and what is still on its way -/

/-- The collector is about to look whether the incident is over. -/
def Phase.looks (writing : Bool) : Phase → Bool
  | .ticked => !writing
  | .took .loop _ => true
  | _ => false

/-- The message a call is about to send. -/
def Call.outgoing : Call → Option Observation
  | .sending o => some o
  | _ => none

namespace Node

/-- The next step of the collector closes the capture, and not because of `Close`. -/
def closes (s : Node) (c : Capture) : Prop :=
  s.collector.looks s.r.writing = true ∧ s.r.closed = false ∧ c.deadline ≤ s.now

instance (s : Node) (c : Capture) : Decidable (s.closes c) := inferInstanceAs (Decidable (_ ∧ _))

/-- No incident is closed while a message of it is in the queue, and no message is sent that
    belongs to an incident closed already. -/
def Prompt (out : Outside) (s : Node) : Event → Prop
  | .collect _ _ => ∀ c ∈ s.r.active, s.closes c → ∀ o ∈ s.queue, c.due out o = false
  | .ingest i => ∀ o ∈ s.calls[i]?.bind Call.outgoing, ∀ w ∈ s.r.snapshots,
      w.metadata.Interrupted = false → w.due out (s.numbered o) = false
  | _ => True

instance (out : Outside) (s : Node) : ∀ e, Decidable (Prompt out s e)
  | .collect _ _ =>
    inferInstanceAs
      (Decidable (∀ c ∈ s.r.active, s.closes c → ∀ o ∈ s.queue, c.due out o = false))
  | .ingest i =>
    inferInstanceAs
      (Decidable (∀ o ∈ s.calls[i]?.bind Call.outgoing, ∀ w ∈ s.r.snapshots,
        w.metadata.Interrupted = false → w.due out (s.numbered o) = false))
  | .wait _ | .Ingest _ _ | .Trigger _ | .ConfigurePersist _ | .saved _ _ | .Close | .worker _ _ =>
    isTrue trivial

variable {out : Outside} {s s' : Node} {i : Nat} {call : Call}

/-- Every message of the window of a snapshot is in it, or has been counted. -/
def Told (out : Outside) (s : Node) : Prop :=
  ∀ w ∈ s.r.snapshots, w.metadata.Interrupted = false →
    Account.missing (w.due out) w.observations s.accepted ≤ w.metadata.CaptureDroppedMessages

theorem Told.same (h : s.Told out) (hsnapshots : s'.r.snapshots = s.r.snapshots)
    (haccepted : s'.accepted = s.accepted) : s'.Told out := by
  intro w hw hint
  rw [hsnapshots] at hw
  rw [haccepted]
  exact h w hw hint

/-- One snapshot more. -/
theorem Told.more (h : s.Told out) {w : Capture} (hsnapshots : s'.r.snapshots = s.r.snapshots ++ [w])
    (haccepted : s'.accepted = s.accepted)
    (hw : w.metadata.Interrupted = false →
      Account.missing (w.due out) w.observations s.accepted ≤ w.metadata.CaptureDroppedMessages) :
    s'.Told out := by
  intro v hv hint
  rw [hsnapshots] at hv
  rw [haccepted]
  rcases List.mem_append.1 hv with hold | hnew
  · exact h v hold hint
  · obtain rfl := List.mem_singleton.1 hnew
    exact hw hint

theorem Told.ingest (h : s.Told out) (hi : s.calls[i]? = some call)
    (hprompt : s.Prompt out (.ingest i)) (hs : s.ingest i call = some s') : s'.Told out := by
  cases ingest_ways hs with
  | sends o hcall =>
    subst hcall
    intro w hw hint
    show Account.missing _ _ (s.accepted ++ [s.numbered o]) ≤ _
    have hlate : w.due out (s.numbered o) = false := by
      simp only [Prompt, hi] at hprompt
      exact hprompt o rfl w hw hint
    rw [Account.missing_snoc _ fun hdue => absurd hdue (by simp [hlate])]
    exact h w hw hint
  | _ => exact h.same rfl rfl

/-- **What is closed with nothing of it in the queue has told of everything.** -/
theorem Told.finish (h : s.Told out) (hinv : s.Inv out) {r : Recorder} {c : Capture}
    (hkept : r.Kept out) (hc : r.active = some c) (hhandled : r.handled = s.r.handled)
    (hsnapshots : r.snapshots = s.r.snapshots) (hheld : s.collector.held = [])
    (hqueue : ∀ o ∈ s.queue, c.due out o = false) (hs : s'.r = r.finish c false)
    (haccepted : s'.accepted = s.accepted) : s'.Told out := by
  refine h.more (w := r.finished c false) ?_ haccepted fun _ => ?_
  · rw [hs]
    show r.snapshots ++ [_] = _
    rw [hsnapshots]
  · have hcounted := hkept.finished hc false
    have hnone : Account.missing ((r.finished c false).due out) (r.finished c false).observations
        s.queue = 0 := by
      refine Account.missing_eq_zero fun o ho hdue => ?_
      rw [show (r.finished c false).due out o = c.due out o from rfl, hqueue o ho] at hdue
      cases hdue
    rw [hinv.queued.order, hheld, List.append_nil, Account.missing_append, hnone, Nat.add_zero,
      ← hhandled]
    exact hcounted

theorem Told.interrupt (h : s.Told out) : s.interrupt.Told out := by
  unfold Node.interrupt
  split
  · rcases finishInterrupted_cases s.r with ⟨heq, -⟩ | ⟨c, -, heq⟩
    · exact h.same (by rw [heq]) rfl
    · refine h.more (w := s.r.finished c true) ?_ rfl fun hint => by cases hint
      rw [heq]
      rfl
  · exact h.same rfl rfl

theorem lookAround_same (s : Node) (sample : ResourceSample) :
    (s.lookAround sample).r.snapshots = s.r.snapshots ∧
      (s.lookAround sample).accepted = s.accepted := by
  unfold lookAround
  split
  · exact ⟨rfl, rfl⟩
  · exact ⟨rfl, rfl⟩

theorem Told.collect (h : s.Told out) (hinv : s.Inv out) {choice : Choice}
    {sample : ResourceSample} (hprompt : s.Prompt out (.collect choice sample))
    (hs : s.collect out choice sample = some s') : s'.Told out := by
  have hdrained : s.emptied.Told out := h.same (discards s.queue s.r).2.2.2 rfl
  cases collect_ways hs with
  | @processes o => exact h.same (Recorder.process_fixed out s.r o s.now).snapshots rfl
  | looks sample hcol =>
    obtain ⟨hsnap, hacc⟩ :=
      lookAround_same { s with r := s.r.tick s.now, collector := .selecting } sample
    suffices htick : { s with r := s.r.tick s.now, collector := .selecting }.Told out from
      htick.same hsnap hacc
    unfold Recorder.tick
    simp only
    split
    · exact h.same rfl rfl
    · rename_i hwriting
      rcases finishDue_cases (s.r.expire s.now) s.now with heq | ⟨c, hc, hopen, hdue, heq⟩
      · rw [heq]
        exact h.same rfl rfl
      · refine h.finish hinv (hinv.kept.expire s.now) hc rfl rfl (by rw [hcol]; rfl) ?_ heq rfl
        refine hprompt c hc ⟨?_, hopen, hdue⟩
        rw [hcol]
        simpa [Phase.looks, Recorder.expire] using hwriting
  | drains => exact hdrained.same rfl rfl
  | interrupts => exact hdrained.interrupt
  | @applies k res hcol =>
    cases k with
    | loop =>
      rcases finishDue_cases (s.r.applyWriteResult res) s.now with heq | ⟨c, hc, hopen, hdue, heq⟩
      · refine h.same ?_ rfl
        show ((s.r.applyWriteResult res).finishDue s.now).snapshots = _
        rw [heq]
        rfl
      · refine h.finish hinv (hinv.kept.applyWriteResult res) hc rfl rfl (by rw [hcol]; rfl) ?_
          heq rfl
        refine hprompt c hc ⟨?_, hopen, hdue⟩
        rw [hcol]
        rfl
    | last =>
      have happlied : { s with r := s.r.applyWriteResult res }.Told out := h.same rfl rfl
      exact happlied.interrupt
    | interrupted => exact h.same rfl rfl
  | _ => exact h.same rfl rfl

theorem Told.step (h : s.Told out) (hinv : s.Inv out) {e : Event} (hprompt : s.Prompt out e)
    (hs : s.step out e = some s') : s'.Told out := by
  cases e with
  | wait d =>
    cases hs
    exact h.same rfl rfl
  | Ingest topic data =>
    cases hs
    exact h.same rfl rfl
  | ingest i =>
    obtain ⟨call, hi, hcall⟩ := Option.bind_eq_some_iff.1 hs
    exact h.ingest hi hprompt hcall
  | Trigger reason =>
    simp only [Node.step] at hs
    split at hs
    · cases hs
      exact h.same (Recorder.trigger_fixed out s.r reason s.now).snapshots rfl
    · cases hs
  | ConfigurePersist cfg =>
    simp only [Node.step] at hs
    split at hs
    · cases hs
      unfold Node.configurePersist
      split
      · exact h
      · exact h.same rfl rfl
    · cases hs
  | saved works sample =>
    obtain ⟨cfg, -, rfl⟩ := Option.map_eq_some_iff.1 hs
    unfold Node.saved
    split
    · exact h.same (configure_cases s.r cfg sample s.now).2.1 rfl
    · exact h.same rfl rfl
  | Close =>
    cases hs
    exact h.same rfl rfl
  | worker i err =>
    simp only [Node.step, Node.send] at hs
    split at hs
    · cases hs
    · split at hs
      · cases hs
      · cases hs
        exact h.same rfl rfl
  | collect choice sample => exact h.collect hinv hprompt hs

/-- A call of `Ingest` has what it needs to go on, whoever holds the mutex. -/
theorem Queued.goes_on (h : s.Queued) (hi : i < s.calls.length) :
    (s.step out (.ingest i)).isSome = true := by
  have hcall : s.calls[i]? = some s.calls[i] := List.getElem?_eq_getElem hi
  show (s.calls[i]?.bind (s.ingest i)).isSome = true
  rw [hcall, Option.bind_some]
  have hpermits := h.permits
  have hle := List.boole_getElem_le_countP (p := Call.holds) hi
  cases hc : s.calls[i] with
  | loaded cfg topic data =>
    simp only [Node.ingest]
    split
    · rfl
    · split <;> rfl
  | checked topic data =>
    simp only [Node.ingest]
    split <;> rfl
  | permitted topic data => rfl
  | stamped o => rfl
  | sending o =>
    simp only [Node.ingest]
    split <;> rfl
  | returning =>
    rw [hc] at hle
    simp only [Call.holds, if_true] at hle
    simp only [Node.ingest]
    split
    · omega
    · rfl
  | dropping => rfl

theorem Staffed.one (h : s.Staffed) : s.r.workers.length ≤ 1 := by
  unfold Staffed at h
  split at h
  · omega
  · omega

end Node

open Node in
/-- A run from `New` on, in any order. -/
theorem window_accounted (out : Outside) (cfg : Config) (hcfg : cfg.Validate = none)
    (sample : ResourceSample) (hasCompleted : Bool) (now : Int) (es : List Event) (s : Node)
    (hrun : History.advance (Node.step out) (Node.start cfg sample hasCompleted now) es = some s) :
    s.r.workers.length ≤ 1 ∧
      (∀ i < s.calls.length, (s.step out (.ingest i)).isSome = true) ∧
      s.r.buffer.bytes = total s.r.buffer.entries ∧ s.r.buffer.bytes ≤ s.r.historyLimit ∧
      (∀ w ∈ s.r.snapshots, w.observations.Sublist s.accepted ∧ w.observations.Nodup) ∧
      (History.Meets (Node.step out) (Prompt out) (Node.start cfg sample hasCompleted now) es →
        ∀ w ∈ s.r.snapshots, w.metadata.Interrupted = false →
          Account.missing (w.due out) w.observations s.accepted ≤
            w.metadata.CaptureDroppedMessages) := by
  have hstart : (Node.start cfg sample hasCompleted now).Inv out :=
    Inv.start hcfg sample hasCompleted now
  have hinv : s.Inv out := History.advance_keeps (fun _ _ _ h hs => h.step hs) hstart hrun
  refine ⟨hinv.staffed.one, fun i hi => hinv.queued.goes_on hi, hinv.kept.sound.bytes_eq,
    hinv.kept.limit, ?_, ?_⟩
  · intro w hw
    have hsub : w.observations.Sublist s.accepted := by
      rw [hinv.queued.order, List.append_assoc]
      exact (hinv.kept.snapshots w hw).trans (List.sublist_append_left _ _)
    exact ⟨hsub, hsub.nodup hinv.queued.nodup⟩
  · intro hmeets
    have htold : (Node.start cfg sample hasCompleted now).Told out := by
      intro w hw
      have hnone : (Recorder.start cfg sample hasCompleted).snapshots = [] := by
        cases hasCompleted <;> rfl
      rw [show (Node.start cfg sample hasCompleted now).r.snapshots = [] from hnone] at hw
      cases hw
    exact History.advance_keeps_meeting (fun _ _ _ h hs => h.step hs)
      (fun s _ _ h (ht : s.Told out) hp hs => ht.step h hp hs) hstart htold hmeets hrun

/-! ## One incident, one message -/

/-- The packages, as far as `{}` goes. -/
def plain : Outside where
  Valid data := decide (data = text "{}")
  emergency data := if data = text "{}" then some ⟨false, false, []⟩ else none
  diagnostics data := if data = text "{}" then some [] else none
  Read _ := .ok 0
  captureID _ _ := "blackbox-19700101T000000.000000000Z-0000000000000000"

def unknown : ResourceSample := ⟨0, 0, false⟩

/-- An incident, and one call of `Ingest` a second into it. -/
def incident : List Event :=
  [.Trigger (text "manual"), .wait 1000000000, .Ingest (text "odom") (text "{}"), .ingest 0,
    .ingest 0, .ingest 0, .ingest 0, .ingest 0]

/-- The collector takes what is in the queue. -/
def collected : List Event :=
  [.collect .queue unknown, .collect .queue unknown, .collect .queue unknown]

/-- The deadline passes and the ticker is looked at. -/
def elapsed : List Event :=
  [.wait 14000000001, .collect .ticker unknown, .collect .ticker unknown]

def outcome (es : List Event) : Option Node :=
  History.advance (Node.step plain) (Node.start DefaultConfig unknown false 0) es

theorem window_accounted_one :
    ∃ s, outcome (incident ++ collected ++ elapsed) = some s ∧ s.r.snapshots.length = 1 ∧
      ∀ w ∈ s.r.snapshots, w.metadata.Interrupted = false →
        Account.missing (w.due plain) w.observations s.accepted ≤
          w.metadata.CaptureDroppedMessages := by
  have hsome : ((outcome (incident ++ collected ++ elapsed)).map fun s => s.r.snapshots.length) =
      some 1 := by decide +kernel
  obtain ⟨s, hs, hone⟩ := Option.map_eq_some_iff.1 hsome
  have hall := window_accounted plain DefaultConfig (by decide) unknown false 0
    (incident ++ collected ++ elapsed) s hs
  exact ⟨s, hs, hone, hall.2.2.2.2.2 (by decide +kernel)⟩

/-- The ticker comes first, and the message in the queue is in neither. -/
theorem window_loses_queued :
    ¬∀ (out : Outside) (cfg : Config), cfg.Validate = none →
      ∀ (sample : ResourceSample) (hasCompleted : Bool) (now : Int) (es : List Event) (s : Node),
        History.advance (Node.step out) (Node.start cfg sample hasCompleted now) es = some s →
          ∀ w ∈ s.r.snapshots, w.metadata.Interrupted = false →
            Account.missing (w.due out) w.observations s.accepted ≤
              w.metadata.CaptureDroppedMessages := by
  intro hall
  have hsome : ((outcome (incident ++ elapsed)).map fun s => s.r.snapshots.map fun w =>
      (w.metadata.Interrupted, Account.missing (w.due plain) w.observations s.accepted,
        w.metadata.CaptureDroppedMessages)) = some [(false, 1, 0)] := by decide +kernel
  obtain ⟨s, hs, hone⟩ := Option.map_eq_some_iff.1 hsome
  obtain ⟨w, hw, heq⟩ : ∃ w ∈ s.r.snapshots, (w.metadata.Interrupted,
      Account.missing (w.due plain) w.observations s.accepted,
      w.metadata.CaptureDroppedMessages) = (false, 1, 0) := by
    refine List.mem_map.1 ?_
    rw [hone]
    exact List.mem_singleton.2 rfl
  simp only [Prod.mk.injEq] at heq
  have := hall plain DefaultConfig (by decide) unknown false 0 _ s hs w hw heq.1
  omega

end Recording
end Blackbox
end Mowgli
