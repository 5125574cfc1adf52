import Mowgli.Lib.Ticket
import Mowgli.Fusion.Graph

/-!
# Rebase — a tree that is rebuilt while the graph goes on

Any number of workers in the three parts of `RebaseISAM2`, ticks, anchors, resets and rigid
transforms, in any order; each locked section is a step. `rebase_in_progress_` and the pending
buffers are a ticket without a name on it: **they stand for the latest snapshot**, and a worker
that comes back takes any raised flag for its own.

So an install is `Right` when the latest snapshot is the worker's own, and the worker whose
snapshot was taken before a reset installs all the same once another one has raised the flag
again.
-/

namespace Mowgli
namespace Fusion

open Ticket (Mark Held Follows Told Fair holder puts)

variable {W Pose F : Type}

inductive Worker (Pose F : Type)
  | idle
  | building (s : Snapshot Pose)
  | built (fresh : Tree Pose F)

structure Node (W Pose F : Type) where
  graph : GraphManager Pose F
  workers : W → Worker Pose F
  log : List (Mark W (Snapshot Pose) (Tree Pose F))

inductive Event (W Pose F : Type)
  | snapshot (w : W) (maxGraphNodes : Nat)
  | build (w : W) (ok : Bool)
  | install (w : W) (ok : Bool)
  | tick (b : Tree Pose F) (ok : Bool)
  | anchor (index : Nat) (pose : Pose) (ok : Bool)
  | reset
  | rigid (correction : Pose → Pose) (ok : Bool)
  | start (x0 : Pose)
  | load (values : List (Key × Pose)) (nextIdx maxGraphNodes : Nat)

namespace Node

/-- What an update leaves in the log. One that fails resets the graph. -/
def applied (b : Tree Pose F) (ok : Bool) : Mark W (Snapshot Pose) (Tree Pose F) :=
  if ok then .put b else .broken

def init : Node W Pose F :=
  { graph := .init, workers := fun _ => .idle, log := [] }

def step [DecidableEq W] (σ : Node W Pose F) : Event W Pose F → Node W Pose F
  | .snapshot w maxGraphNodes =>
    match σ.workers w, σ.graph.rebaseSnapshot maxGraphNodes with
    | .idle, some (s, graph) =>
      { graph := graph, workers := Function.update σ.workers w (.building s),
        log := .taken w s :: σ.log }
    | _, _ => σ
  | .build w ok =>
    match σ.workers w with
    | .building s =>
      if ok then
        { σ with workers := Function.update σ.workers w (.built (GraphManager.rebaseBuild s)) }
      else
        { graph := σ.graph.lower, workers := Function.update σ.workers w .idle,
          log := .closed w :: σ.log }
    | _ => σ
  | .install w ok =>
    match σ.workers w with
    | .built fresh =>
      { graph := σ.graph.rebaseInstall fresh ok
        workers := Function.update σ.workers w .idle
        log := if σ.graph.rebaseInProgress then .closed w :: σ.log else σ.log }
    | _ => σ
  | .tick b ok =>
    { σ with
      graph := σ.graph.createNodeLocked b ok
      log := if !σ.graph.initialized || σ.graph.nextIndex == 0 then σ.log
        else applied b ok :: σ.log }
  | .anchor index pose ok =>
    { σ with
      graph := σ.graph.forceAnchor index pose ok
      log := if !σ.graph.hasPoseAt index then σ.log
        else applied { factors := [.prior (poseKey index) pose .tight], values := [] } ok :: σ.log }
  | .reset => { σ with graph := σ.graph.resetLocked, log := .broken :: σ.log }
  | .rigid correction ok =>
    { σ with graph := σ.graph.rigidTransformAll correction ok, log := .broken :: σ.log }
  | .start x0 => { σ with graph := σ.graph.initializeGraph x0 }
  | .load values nextIdx maxGraphNodes =>
    { σ with graph := σ.graph.load values nextIdx maxGraphNodes }

def run [DecidableEq W] (σ : Node W Pose F) (events : List (Event W Pose F)) : Node W Pose F :=
  events.foldl step σ

end Node

/-- What an install should put in place: nothing was reset or moved since the worker's own
    snapshot, and the tree is the rebuilt one with each update that was accepted since, once. -/
def Right (w : W) (log : List (Mark W (Snapshot Pose) (Tree Pose F))) (installed : Tree Pose F) :
    Prop :=
  ∃ s later, Held w s later log ∧ .broken ∉ later ∧
    installed = (GraphManager.rebaseBuild s).updates (puts later)

/-! ## What holds in every run -/

/-- A worker that is not idle has a snapshot out, and what it builds is from there. -/
def Worker.From (w : W) (log : List (Mark W (Snapshot Pose) (Tree Pose F))) :
    Worker Pose F → Prop
  | .idle => True
  | .building s => ∃ later, Held w s later log
  | .built fresh => ∃ s later, Held w s later log ∧ fresh = GraphManager.rebaseBuild s

structure Sound (σ : Node W Pose F) : Prop where
  follows : ∃ buffer, Follows σ.graph.rebaseInProgress buffer σ.log ∧
    σ.graph.rebasePending = Tree.empty.updates buffer
  /-- A tree that is being rebased is not empty. -/
  live : σ.graph.rebaseInProgress = true → σ.graph.isam.values ≠ []
  worker : ∀ w, (σ.workers w).From w σ.log
  told : Fair σ.log → Told σ.graph.rebaseInProgress σ.log

/-- What others do leaves a worker with its snapshot. -/
theorem Worker.From.push {w : W} {e : Mark W (Snapshot Pose) (Tree Pose F)}
    {log : List (Mark W (Snapshot Pose) (Tree Pose F))} {k : Worker Pose F} (h : k.From w log)
    (hclosed : e ≠ .closed w) (htaken : ∀ s', e ≠ .taken w s') : k.From w (e :: log) := by
  cases k with
  | idle => trivial
  | building s =>
    obtain ⟨later, hheld⟩ := h
    exact ⟨e :: later, hheld.push hclosed htaken⟩
  | built fresh =>
    obtain ⟨s, later, hheld, hfresh⟩ := h
    exact ⟨s, e :: later, hheld.push hclosed htaken, hfresh⟩

theorem Worker.From.update [DecidableEq W] {workers : W → Worker Pose F} {w : W}
    {k : Worker Pose F} {log : List (Mark W (Snapshot Pose) (Tree Pose F))} (hw : k.From w log)
    (hothers : ∀ v, v ≠ w → (workers v).From v log) (v : W) :
    (Function.update workers w k v).From v log := by
  by_cases hv : v = w
  · subst hv
    rw [Function.update_self]
    exact hw
  · rw [Function.update_of_ne hv]
    exact hothers v hv

namespace Sound

variable {σ : Node W Pose F}

theorem init : Sound (Node.init : Node W Pose F) :=
  ⟨⟨[], Follows.lowered, rfl⟩, nofun, fun _ => trivial, fun _ => Told.nil⟩

variable {g : GraphManager Pose F}

/-- A step that touches neither the ticket nor the workers, and takes no value away. -/
theorem grow (h : Sound σ) (hflag : g.rebaseInProgress = σ.graph.rebaseInProgress)
    (hpending : g.rebasePending = σ.graph.rebasePending)
    (hvalues : σ.graph.isam.values ≠ [] → g.isam.values ≠ []) : Sound { σ with graph := g } := by
  refine ⟨?_, fun hup => ?_, h.worker, fun hfair => ?_⟩
  · show ∃ buffer, Follows g.rebaseInProgress buffer σ.log ∧ g.rebasePending = _
    rw [hflag, hpending]
    exact h.follows
  · exact hvalues (h.live (hflag ▸ hup))
  · show Told g.rebaseInProgress σ.log
    rw [hflag]
    exact h.told hfair

/-- A reset, or what is like one: the flag is down, and the log says so. -/
theorem brake (h : Sound σ) (hflag : g.rebaseInProgress = false)
    (hpending : g.rebasePending = .empty) :
    Sound { σ with graph := g, log := .broken :: σ.log } := by
  refine ⟨⟨[], ?_, hpending⟩, fun hup => ?_, fun w => (h.worker w).push nofun nofun,
    fun _ => Told.broken _⟩
  · show Follows g.rebaseInProgress _ _
    rw [hflag]
    exact Follows.lowered
  · rw [show g.rebaseInProgress = true from hup] at hflag
    cases hflag

theorem applied (h : Sound σ) (b : Tree Pose F) (ok : Bool)
    (hflag : g.rebaseInProgress = (σ.graph.applyIsamUpdateLocked b ok).1.rebaseInProgress)
    (hpending : g.rebasePending = (σ.graph.applyIsamUpdateLocked b ok).1.rebasePending)
    (hisam : g.isam = (σ.graph.applyIsamUpdateLocked b ok).1.isam) :
    Sound { σ with graph := g, log := Node.applied b ok :: σ.log } := by
  cases ok with
  | false => exact h.brake hflag hpending
  | true =>
    obtain ⟨buffer, hfollows, hbuffer⟩ := h.follows
    have hflag' : g.rebaseInProgress = σ.graph.rebaseInProgress := hflag
    have hpending' : g.rebasePending = if σ.graph.rebaseInProgress then
      σ.graph.rebasePending.update b else σ.graph.rebasePending := hpending
    have hisam' : g.isam = σ.graph.isam.update b := hisam
    refine ⟨⟨if σ.graph.rebaseInProgress then buffer ++ [b] else buffer, ?_, ?_⟩, fun hup => ?_,
      fun w => (h.worker w).push nofun nofun, fun hfair => ?_⟩
    · show Follows g.rebaseInProgress _ (.put b :: σ.log)
      rw [hflag']
      exact hfollows.put b
    · show g.rebasePending = _
      rw [hpending']
      split
      · rw [Tree.updates_concat, hbuffer]
      · exact hbuffer
    · have hlive := h.live (hflag' ▸ hup)
      rw [hisam']
      simp [Tree.update, hlive]
    · show Told g.rebaseInProgress (.put b :: σ.log)
      rw [hflag']
      exact (h.told hfair.2).put b

/-- A worker that came back. -/
theorem close [DecidableEq W] (h : Sound σ) (w : W) (hflag : g.rebaseInProgress = false)
    (hpending : g.rebasePending = .empty) :
    Sound { graph := g, workers := Function.update σ.workers w .idle,
            log := .closed w :: σ.log } := by
  refine ⟨⟨[], ?_, hpending⟩, fun hup => ?_, Worker.From.update trivial fun v hv => ?_,
    fun hfair => ?_⟩
  · show Follows g.rebaseInProgress _ _
    rw [hflag]
    exact Follows.lowered
  · rw [show g.rebaseInProgress = true from hup] at hflag
    cases hflag
  · refine (h.worker v).push (fun heq => ?_) nofun
    cases heq
    exact hv rfl
  · show Told g.rebaseInProgress _
    rw [hflag]
    exact (h.told hfair.2).closed (hfair.1 w rfl)

/-- A transform of an empty tree does nothing, and then no rebase is in progress. -/
theorem rigid (h : Sound σ) (correction : Pose → Pose) (ok : Bool) :
    (σ.graph.rigidTransformAll correction ok).rebaseInProgress = false ∧
      (σ.graph.rigidTransformAll correction ok).rebasePending = .empty := by
  unfold GraphManager.rigidTransformAll
  split
  · rename_i hempty
    have hdown : σ.graph.rebaseInProgress = false := by
      by_contra hup
      exact h.live (by simpa using hup) (List.isEmpty_iff.1 hempty)
    obtain ⟨buffer, hfollows, hbuffer⟩ := h.follows
    rw [hfollows.down hdown] at hbuffer
    exact ⟨hdown, hbuffer⟩
  · dsimp only
    split
    · exact ⟨rfl, rfl⟩
    · exact ⟨rfl, rfl⟩

variable [DecidableEq W]

theorem snapshot (h : Sound σ) (w : W) (maxGraphNodes : Nat) :
    Sound (σ.step (.snapshot w maxGraphNodes)) := by
  unfold Node.step
  dsimp only
  split
  · rename_i s graph hidle hsnapshot
    unfold GraphManager.rebaseSnapshot at hsnapshot
    split at hsnapshot
    · cases hsnapshot
    rename_i hdown
    split at hsnapshot
    · cases hsnapshot
    rename_i hempty
    cases hsnapshot
    refine ⟨⟨[], Follows.taken w _, rfl⟩, fun _ hnil => ?_,
      Worker.From.update ⟨[], ⟨_, rfl⟩, nofun⟩ fun v hv => ?_, fun hfair => ?_⟩
    · exact hempty (List.isEmpty_iff.2 hnil)
    · refine (h.worker v).push nofun fun s' heq => ?_
      cases heq
      exact hv rfl
    · have htold := h.told hfair.2
      rw [Bool.eq_false_iff.2 hdown] at htold
      exact htold.taken w _
  · exact h

theorem build (h : Sound σ) (w : W) (ok : Bool) : Sound (σ.step (.build w ok)) := by
  unfold Node.step
  dsimp only
  split
  · rename_i s hbuilding
    split
    · have hfrom := h.worker w
      rw [hbuilding] at hfrom
      obtain ⟨later, hheld⟩ := hfrom
      exact ⟨h.follows, h.live,
        Worker.From.update ⟨s, later, hheld, rfl⟩ fun v _ => h.worker v, h.told⟩
    · exact h.close w rfl rfl
  · exact h

theorem install (h : Sound σ) (w : W) (ok : Bool) : Sound (σ.step (.install w ok)) := by
  unfold Node.step
  dsimp only
  split
  · rename_i fresh hbuilt
    cases hflag : σ.graph.rebaseInProgress with
    | true =>
      rw [if_pos rfl]
      refine h.close w ?_ ?_
      · unfold GraphManager.rebaseInstall
        rw [hflag]
        split
        · contradiction
        · split
          · rfl
          · rfl
      · unfold GraphManager.rebaseInstall
        rw [hflag]
        split
        · contradiction
        · split
          · rfl
          · rfl
    | false =>
      have hsame : σ.graph.rebaseInstall fresh ok = σ.graph := by
        simp [GraphManager.rebaseInstall, hflag]
      rw [hsame]
      exact ⟨h.follows, h.live, Worker.From.update trivial fun v _ => h.worker v, h.told⟩
  · exact h

theorem step (h : Sound σ) (e : Event W Pose F) : Sound (σ.step e) := by
  cases e with
  | snapshot w maxGraphNodes => exact h.snapshot w maxGraphNodes
  | build w ok => exact h.build w ok
  | install w ok => exact h.install w ok
  | tick b ok =>
    unfold Node.step GraphManager.createNodeLocked
    dsimp only
    split
    · exact h
    · cases ok with
      | false => exact h.applied b false rfl rfl rfl
      | true => exact h.applied b true rfl rfl rfl
  | anchor index pose ok =>
    unfold Node.step GraphManager.forceAnchor
    dsimp only
    split
    · exact h
    · exact h.applied _ ok rfl rfl rfl
  | reset => exact h.brake rfl rfl
  | rigid correction ok =>
    obtain ⟨hflag, hpending⟩ := h.rigid correction ok
    exact h.brake hflag hpending
  | start x0 =>
    refine h.grow ?_ ?_ ?_
    all_goals unfold GraphManager.initializeGraph; split
    · rfl
    · rfl
    · rfl
    · rfl
    · exact id
    · exact fun hvalues => by simp [Tree.update, hvalues]
  | load values nextIdx maxGraphNodes =>
    refine h.grow ?_ ?_ ?_
    all_goals unfold GraphManager.load; split
    · rfl
    · rfl
    · rfl
    · rfl
    · exact id
    · exact fun hvalues => by simp [Tree.update, hvalues]

theorem run (h : Sound σ) (events : List (Event W Pose F)) : Sound (σ.run events) := by
  induction events generalizing σ with
  | nil => exact h
  | cons e events ih => exact ih (h.step e)

omit [DecidableEq W] in
/-- The tree that goes in is the worker's, with all that the pending buffers hold. -/
theorem right_of_holder (h : Sound σ) {w : W} {fresh : Tree Pose F} {ok : Bool}
    (hbuilt : σ.workers w = .built fresh) (hinstalls : σ.graph.installs ok = true)
    (hholder : holder σ.log = some w) :
    Right w σ.log (σ.graph.rebaseInstall fresh ok).isam := by
  have hfrom := h.worker w
  rw [hbuilt] at hfrom
  obtain ⟨s, later, hheld, rfl⟩ := hfrom
  obtain ⟨hflag, hok⟩ := Bool.and_eq_true_iff.1 hinstalls
  obtain ⟨buffer, hfollows, hbuffer⟩ := h.follows
  obtain ⟨hcalm, rfl⟩ := hfollows.held hflag hheld hholder
  refine ⟨s, later, hheld, hcalm, ?_⟩
  have hthrows : ¬ (!(σ.graph.rebasePending.factors.isEmpty &&
      σ.graph.rebasePending.values.isEmpty) && !ok) = true := by
    rcases Bool.or_eq_true_iff.1 hok with hempty | hok
    · simp [hempty]
    · simp [hok]
  unfold GraphManager.rebaseInstall
  rw [hflag, if_neg (by simp), if_neg hthrows]
  show (GraphManager.rebaseBuild s).update σ.graph.rebasePending = _
  rw [hbuffer, Tree.update_updates]

end Sound

/-- In every run, an install by the worker of the latest snapshot is right; and where so far
    nobody lowered the flag for another one's snapshot, no other install is. -/
theorem rebase_installs [DecidableEq W] (events : List (Event W Pose F)) (w : W)
    (fresh : Tree Pose F) (ok : Bool) :
    let σ := Node.init.run events
    σ.workers w = .built fresh → σ.graph.installs ok = true →
      (holder σ.log = some w → Right w σ.log (σ.step (.install w ok)).graph.isam) ∧
        (Fair σ.log → (Right w σ.log (σ.step (.install w ok)).graph.isam ↔
          holder σ.log = some w)) := by
  intro σ hbuilt hinstalls
  have hsound : Sound σ := Sound.init.run events
  have hstep : (σ.step (.install w ok)).graph = σ.graph.rebaseInstall fresh ok := by
    unfold Node.step
    dsimp only
    rw [hbuilt]
  rw [hstep]
  refine ⟨hsound.right_of_holder hbuilt hinstalls, fun hfair => ⟨?_,
    hsound.right_of_holder hbuilt hinstalls⟩⟩
  rintro ⟨s, later, hheld, hcalm, -⟩
  rcases hsound.told hfair w s later hheld with hbroken | ⟨-, hholder⟩
  · exact absurd hbroken hcalm
  · exact hholder

/-- A graph that was rebased once. -/
def rebased : List (Event Nat Nat Nat) :=
  [.start 7, .snapshot 0 0, .build 0 true,
    .tick { factors := [.measured 5], values := [(poseKey 1, 8)] } true]

theorem rebase_installs_rebased :
    Right 0 (Node.init.run rebased).log
      ((Node.init.run rebased).step (.install 0 true)).graph.isam :=
  (rebase_installs rebased 0 _ true rfl rfl).1 rfl

/-- A reset and a second snapshot, while the first worker builds. -/
def overtaken : List (Event Nat Nat Nat) :=
  [.start 7, .snapshot 0 0, .build 0 true, .reset, .start 9, .snapshot 1 0]

/-- The tree from before the reset takes the place of the one after it. -/
theorem rebase_undoes_reset :
    (Node.init.run overtaken).workers 0 =
        .built { factors := [.prior (poseKey 0) 7 .rebase], values := [(poseKey 0, 7)] } ∧
      (Node.init.run overtaken).graph.installs true = true ∧
      (Node.init.run overtaken).graph.isam.values = [(poseKey 0, 9)] ∧
      ((Node.init.run overtaken).step (.install 0 true)).graph.isam.values = [(poseKey 0, 7)] ∧
      ¬ Right 0 (Node.init.run overtaken).log
        ((Node.init.run overtaken).step (.install 0 true)).graph.isam := by
  refine ⟨rfl, rfl, rfl, rfl, ?_⟩
  rintro ⟨s, later, hheld, hcalm, -⟩
  have hfair : Fair (Node.init.run overtaken).log := ⟨nofun, nofun, nofun, trivial⟩
  rcases (Sound.init.run overtaken).told hfair 0 s later hheld with hbroken | ⟨-, hholder⟩
  · exact hcalm hbroken
  · exact absurd hholder (by decide)

/-! ## One worker at a time -/

end Fusion
end Mowgli
