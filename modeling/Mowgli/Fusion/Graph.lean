import Mathlib.Data.List.Induction

/-!
# Graph — the fusion graph and what replaces its tree

`GraphManager`: the iSAM2 tree, and the operations that extend it, clear it or put another one
in its place. The tree is its factors and its values, and an update adds to both; whether the
solver accepts an update is told from outside, with each call. What the solver makes of the
numbers is left out, so the estimate of a tree is its values.

A rebase runs in three parts, of which the middle one is without the lock.
-/

namespace Mowgli
namespace Fusion

/-- `gtsam::Symbol`. -/
structure Key where
  chr : Char
  index : Nat
deriving DecidableEq

def poseKey (index : Nat) : Key := { chr := 'x', index := index }

/-- The priors that a rebuilt tree pins its values with, by their noise. -/
inductive Noise
  | initial
  | pin
  | rebase
  | loose
  | tight
deriving DecidableEq

inductive Factor (Pose F : Type)
  | prior (key : Key) (pose : Pose) (noise : Noise)
  | measured (f : F)
deriving DecidableEq

structure Tree (Pose F : Type) where
  factors : List (Factor Pose F)
  values : List (Key × Pose)
deriving DecidableEq

namespace Tree

variable {Pose F : Type}

def empty : Tree Pose F := { factors := [], values := [] }

/-- `update`, when it does not throw. -/
def update (t b : Tree Pose F) : Tree Pose F :=
  { factors := t.factors ++ b.factors, values := t.values ++ b.values }

/-- One after the other. -/
def updates (t : Tree Pose F) (bs : List (Tree Pose F)) : Tree Pose F := bs.foldl update t

theorem update_assoc (t b c : Tree Pose F) : (t.update b).update c = t.update (b.update c) := by
  simp [update, List.append_assoc]

theorem updates_concat (t b : Tree Pose F) (bs : List (Tree Pose F)) :
    t.updates (bs ++ [b]) = (t.updates bs).update b := List.foldl_append

/-- What is collected in a buffer is added at once. -/
theorem update_updates (t : Tree Pose F) (bs : List (Tree Pose F)) :
    t.update (empty.updates bs) = t.updates bs := by
  induction bs using List.reverseRecOn with
  | nil => simp [updates, update, empty]
  | append_singleton bs b ih => rw [updates_concat, updates_concat, ← update_assoc, ih]

/-- A tree with a prior at each of its values. -/
def pinned (noise : Key → Noise) (values : List (Key × Pose)) : Tree Pose F :=
  { factors := values.map fun kv => .prior kv.1 kv.2 (noise kv.1), values := values }

end Tree

structure GraphManager (Pose F : Type) where
  isam : Tree Pose F
  nextIndex : Nat
  initialized : Bool
  rebaseInProgress : Bool
  rebasePending : Tree Pose F
deriving DecidableEq

/-- The first index of the sliding window; 0 keeps every node. -/
def window (maxGraphNodes nextIndex : Nat) : Nat :=
  if 0 < maxGraphNodes ∧ maxGraphNodes < nextIndex then nextIndex - maxGraphNodes else 0

/-- What the first part of a rebase takes with it. -/
structure Snapshot (Pose : Type) where
  estimate : List (Key × Pose)
  cutoff : Nat
deriving DecidableEq

namespace GraphManager

variable {Pose F : Type}

def init : GraphManager Pose F :=
  { isam := .empty, nextIndex := 0, initialized := false, rebaseInProgress := false,
    rebasePending := .empty }

/-- The end of a rebase, or of the hope for one. -/
def lower (g : GraphManager Pose F) : GraphManager Pose F :=
  { g with rebaseInProgress := false, rebasePending := .empty }

def resetLocked (g : GraphManager Pose F) : GraphManager Pose F :=
  { g with isam := .empty, nextIndex := 0, initialized := false }.lower

/-- What is added while a rebase is in progress is kept for its last part. -/
def applyIsamUpdateLocked (g : GraphManager Pose F) (b : Tree Pose F) (ok : Bool) :
    GraphManager Pose F × Bool :=
  if !ok then (g.resetLocked, false)
  else
    ({ g with
        isam := g.isam.update b
        rebasePending := if g.rebaseInProgress then g.rebasePending.update b else g.rebasePending },
      true)

def initializeGraph (g : GraphManager Pose F) (x0 : Pose) : GraphManager Pose F :=
  if g.initialized then g
  else
    { g with
      isam := g.isam.update (.pinned (fun _ => .initial) [(poseKey 0, x0)])
      nextIndex := 1
      initialized := true }

/-- `Load` of these poses. -/
def load (g : GraphManager Pose F) (values : List (Key × Pose)) (nextIdx maxGraphNodes : Nat) :
    GraphManager Pose F :=
  if g.initialized || nextIdx == 0 || values.isEmpty then g
  else
    let cutoff := window maxGraphNodes nextIdx
    let kept := values.filter fun kv =>
      kv.1.chr == 'x' && !(decide (0 < cutoff) && decide (kv.1.index < cutoff))
    { g with
      isam := g.isam.update (.pinned (fun _ => .pin) kept)
      nextIndex := nextIdx
      initialized := true }

/-- `Tick`, when it makes a node: what it adds, and whether the solver takes it. -/
def createNodeLocked (g : GraphManager Pose F) (b : Tree Pose F) (ok : Bool) :
    GraphManager Pose F :=
  if !g.initialized || g.nextIndex == 0 then g
  else
    let r := g.applyIsamUpdateLocked b ok
    if r.2 then { r.1 with nextIndex := r.1.nextIndex + 1 } else r.1

def hasPoseAt (g : GraphManager Pose F) (index : Nat) : Bool :=
  g.isam.values.any fun kv => kv.1 == poseKey index

def forceAnchor (g : GraphManager Pose F) (index : Nat) (pose : Pose) (ok : Bool) :
    GraphManager Pose F :=
  if !g.hasPoseAt index then g
  else (g.applyIsamUpdateLocked
    { factors := [.prior (poseKey index) pose .tight], values := [] } ok).1

/-- `RigidTransformAll`. Only the poses are carried over. -/
def rigidTransformAll (g : GraphManager Pose F) (correction : Pose → Pose) (ok : Bool) :
    GraphManager Pose F :=
  if g.isam.values.isEmpty then g
  else
    let latest := poseKey (g.nextIndex - 1)
    let poses := (g.isam.values.filter fun kv => kv.1.chr == 'x').map
      fun kv => (kv.1, correction kv.2)
    if !ok then g.resetLocked
    else
      { g with
        isam := Tree.pinned (fun k => if k = latest then .tight else .loose) poses }.lower

/-- The first part of `RebaseISAM2`. -/
def rebaseSnapshot (g : GraphManager Pose F) (maxGraphNodes : Nat) :
    Option (Snapshot Pose × GraphManager Pose F) :=
  if g.rebaseInProgress then none
  else if g.isam.values.isEmpty then none
  else
    some ({ estimate := g.isam.values, cutoff := window maxGraphNodes g.nextIndex },
      { g with rebaseInProgress := true, rebasePending := .empty })

/-- The tree of the second part. -/
def rebaseBuild (s : Snapshot Pose) : Tree Pose F :=
  .pinned (fun _ => .rebase) (s.estimate.filter fun kv =>
    !(decide (0 < s.cutoff) && kv.1.chr == 'x' && decide (kv.1.index < s.cutoff)))

/-- The last part. A lowered flag is taken for a reset, and the tree is thrown away. -/
def rebaseInstall (g : GraphManager Pose F) (fresh : Tree Pose F) (ok : Bool) :
    GraphManager Pose F :=
  if !g.rebaseInProgress then g
  else if !(g.rebasePending.factors.isEmpty && g.rebasePending.values.isEmpty) && !ok then g.lower
  else { g with isam := fresh.update g.rebasePending }.lower

/-- The last part puts its tree in the place of the live one. -/
def installs (g : GraphManager Pose F) (ok : Bool) : Bool :=
  g.rebaseInProgress && ((g.rebasePending.factors.isEmpty && g.rebasePending.values.isEmpty) || ok)

end GraphManager

end Fusion
end Mowgli
