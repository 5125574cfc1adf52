import Mowgli.Lib.Trace
import Mathlib.Algebra.Order.Ring.Rat

/-!
# PersistentLatch — hysteresis with an enter and an exit persistence

`bad` and `good` are judged against different thresholds, so inside the dead band both are
false. A stamp of a pending condition is the time it was first seen; below zero it is unset.

What a latch is told over a run is a log of `Evidence`, newest first. A latch that is told
nothing keeps its stamp, so a window of `HeldSince` may have silence inside: what it cannot
have is evidence of another kind.
-/

namespace Mowgli
namespace Behavior

open Trace

structure PersistentLatch where
  latched : Bool
  badSince : ℚ
  goodSince : ℚ
deriving DecidableEq, Repr

namespace PersistentLatch

/-- A latch as it is constructed. -/
def fresh : PersistentLatch := { latched := false, badSince := -1, goodSince := -1 }

/-- The stamp of a condition that holds now. -/
def stamp (since now : ℚ) : ℚ := if since < 0 then now else since

def update (l : PersistentLatch) (now : ℚ) (bad good : Bool) (badPersist goodPersist : ℚ) :
    PersistentLatch :=
  if l.latched = false then
    if bad = false then { latched := false, badSince := -1, goodSince := -1 }
    else if badPersist ≤ now - stamp l.badSince now then
      { latched := true, badSince := -1, goodSince := -1 }
    else { latched := false, badSince := stamp l.badSince now, goodSince := -1 }
  else if good = false then { latched := true, badSince := -1, goodSince := -1 }
  else if goodPersist ≤ now - stamp l.goodSince now then
    { latched := false, badSince := -1, goodSince := -1 }
  else { latched := true, badSince := -1, goodSince := stamp l.goodSince now }

def forceLatched (_ : PersistentLatch) : PersistentLatch :=
  { latched := true, badSince := -1, goodSince := -1 }

end PersistentLatch

/-! ## What one observation says to one latch -/

inductive Evidence
  /-- The observation says nothing, and the latch is left alone. -/
  | absent
  | sample (bad good : Bool)
  /-- The latch is closed at once. -/
  | force
  /-- The latch is replaced by a fresh one. -/
  | reset
deriving DecidableEq, Repr

def Evidence.IsBad (e : Evidence) : Prop := ∃ good, e = .sample true good
def Evidence.IsGood (e : Evidence) : Prop := ∃ bad, e = .sample bad true

/-- The persistence a latch is run with. -/
structure Persistence where
  pause : ℚ
  resume : ℚ

def PersistentLatch.take (l : PersistentLatch) (p : Persistence) (now : ℚ) :
    Evidence → PersistentLatch
  | .absent => l
  | .sample bad good => l.update now bad good p.pause p.resume
  | .force => l.forceLatched
  | .reset => .fresh

/-- The latch after a run. -/
def latchAfter (p : Persistence) : List (ℚ × Evidence) → PersistentLatch
  | [] => .fresh
  | (now, e) :: past => (latchAfter p past).take p now e

/-- Evidence of one kind at `since`, and at every later entry that says anything. -/
def HeldSince (is : Evidence → Prop) (since : ℚ) (log : List (ℚ × Evidence)) : Prop :=
  Since (fun x => x.2 = .absent ∨ is x.2) (fun x _ => x.1 = since ∧ is x.2) log

/-! ## The stamps mean what their names say -/

/-- A stamp that is set is the start of a window that is still open. -/
structure Stamped (log : List (ℚ × Evidence)) (l : PersistentLatch) : Prop where
  bad : l.latched = false → 0 ≤ l.badSince → HeldSince Evidence.IsBad l.badSince log
  good : l.latched = true → 0 ≤ l.goodSince → HeldSince Evidence.IsGood l.goodSince log

variable {log : List (ℚ × Evidence)} {is : Evidence → Prop} {l : PersistentLatch}

/-- A latch whose stamps are unset. -/
theorem Stamped.unset {latched : Bool} :
    Stamped log { latched := latched, badSince := -1, goodSince := -1 } := by
  constructor
  · intro _ h
    exact absurd h (by decide : ¬ (0 : ℚ) ≤ -1)
  · intro _ h
    exact absurd h (by decide : ¬ (0 : ℚ) ≤ -1)

variable {since : ℚ}

/-- One more entry of the kind, and the window that ends with it. -/
theorem heldSince_stamp {e : Evidence} (he : is e) (h : 0 ≤ since → HeldSince is since log)
    (now : ℚ) : HeldSince is (PersistentLatch.stamp since now) ((now, e) :: log) := by
  show _ ∨ _
  unfold PersistentLatch.stamp
  split
  · exact Or.inl ⟨rfl, he⟩
  · rename_i hset
    exact Or.inr ⟨Or.inr he, h (not_lt.1 hset)⟩

/-- Everything one sample can do to an open latch. -/
theorem update_open (hopen : l.latched = false) (now : ℚ) (bad good : Bool) (pause resume : ℚ) :
    (bad = false ∧ l.update now bad good pause resume = ⟨false, -1, -1⟩) ∨
    (bad = true ∧ pause ≤ now - PersistentLatch.stamp l.badSince now ∧
      l.update now bad good pause resume = ⟨true, -1, -1⟩) ∨
    (bad = true ∧ now - PersistentLatch.stamp l.badSince now < pause ∧
      l.update now bad good pause resume =
        ⟨false, PersistentLatch.stamp l.badSince now, -1⟩) := by
  unfold PersistentLatch.update
  rw [if_pos hopen]
  cases bad with
  | false => exact Or.inl ⟨rfl, rfl⟩
  | true =>
    right
    rw [if_neg (by simp)]
    split
    · rename_i hlong
      exact Or.inl ⟨rfl, hlong, rfl⟩
    · rename_i hshort
      exact Or.inr ⟨rfl, not_le.1 hshort, rfl⟩

/-- Everything one sample can do to a closed latch. -/
theorem update_closed (hclosed : l.latched = true) (now : ℚ) (bad good : Bool) (pause resume : ℚ) :
    (good = false ∧ l.update now bad good pause resume = ⟨true, -1, -1⟩) ∨
    (good = true ∧ resume ≤ now - PersistentLatch.stamp l.goodSince now ∧
      l.update now bad good pause resume = ⟨false, -1, -1⟩) ∨
    (good = true ∧ now - PersistentLatch.stamp l.goodSince now < resume ∧
      l.update now bad good pause resume =
        ⟨true, -1, PersistentLatch.stamp l.goodSince now⟩) := by
  unfold PersistentLatch.update
  rw [if_neg (by simp [hclosed])]
  cases good with
  | false => exact Or.inl ⟨rfl, rfl⟩
  | true =>
    right
    rw [if_neg (by simp)]
    split
    · rename_i hlong
      exact Or.inl ⟨rfl, hlong, rfl⟩
    · rename_i hshort
      exact Or.inr ⟨rfl, not_le.1 hshort, rfl⟩

theorem Stamped.sample (h : Stamped log l) (p : Persistence) (now : ℚ) (bad good : Bool) :
    Stamped ((now, .sample bad good) :: log) (l.take p now (.sample bad good)) := by
  show Stamped _ (l.update now bad good p.pause p.resume)
  cases hl : l.latched with
  | false =>
    obtain ⟨_, hup⟩ | ⟨_, _, hup⟩ | ⟨rfl, _, hup⟩ :=
      update_open hl now bad good p.pause p.resume
    · rw [hup]
      exact .unset
    · rw [hup]
      exact .unset
    · rw [hup]
      constructor
      · intro _ _
        exact heldSince_stamp ⟨good, rfl⟩ (h.bad hl) now
      · intro hfalse
        cases hfalse
  | true =>
    obtain ⟨_, hup⟩ | ⟨_, _, hup⟩ | ⟨rfl, _, hup⟩ :=
      update_closed hl now bad good p.pause p.resume
    · rw [hup]
      exact .unset
    · rw [hup]
      exact .unset
    · rw [hup]
      constructor
      · intro hfalse
        cases hfalse
      · intro _ _
        exact heldSince_stamp ⟨bad, rfl⟩ (h.good hl) now

theorem Stamped.take {log : List (ℚ × Evidence)} {l : PersistentLatch} (h : Stamped log l)
    (p : Persistence) (now : ℚ) (e : Evidence) : Stamped ((now, e) :: log) (l.take p now e) := by
  cases e with
  | absent =>
    constructor
    · intro hl hset
      exact Or.inr ⟨Or.inl rfl, h.bad hl hset⟩
    · intro hl hset
      exact Or.inr ⟨Or.inl rfl, h.good hl hset⟩
  | sample bad good => exact h.sample p now bad good
  | force => exact .unset
  | reset => exact .unset

theorem latchAfter_stamped (p : Persistence) (log : List (ℚ × Evidence)) :
    Stamped log (latchAfter p log) := by
  induction log with
  | nil => exact .unset
  | cons x past ih => exact ih.take p x.1 x.2

/-! ## What a latch that changes tells about the past -/

/-- A latch closes by force, or at the end of a window of bad evidence. -/
theorem latch_closes (p : Persistence) (now : ℚ) (e : Evidence) (log : List (ℚ × Evidence))
    (hopen : (latchAfter p log).latched = false)
    (hclosed : (latchAfter p ((now, e) :: log)).latched = true) :
    e = .force ∨ ∃ since, p.pause ≤ now - since ∧ HeldSince Evidence.IsBad since ((now, e) :: log) := by
  have hstamped := latchAfter_stamped p log
  cases e with
  | absent =>
    rw [show latchAfter p ((now, .absent) :: log) = latchAfter p log from rfl, hopen] at hclosed
    cases hclosed
  | force => exact Or.inl rfl
  | reset => cases hclosed
  | sample bad good =>
    right
    change ((latchAfter p log).update now bad good p.pause p.resume).latched = true at hclosed
    obtain ⟨_, hup⟩ | ⟨rfl, hlong, _⟩ | ⟨_, _, hup⟩ :=
      update_open hopen now bad good p.pause p.resume
    · rw [hup] at hclosed
      cases hclosed
    · exact ⟨_, hlong, heldSince_stamp ⟨good, rfl⟩ (hstamped.bad hopen) now⟩
    · rw [hup] at hclosed
      cases hclosed

/-- A latch opens when it is replaced, or at the end of a window of good evidence. -/
theorem latch_opens (p : Persistence) (now : ℚ) (e : Evidence) (log : List (ℚ × Evidence))
    (hclosed : (latchAfter p log).latched = true)
    (hopen : (latchAfter p ((now, e) :: log)).latched = false) :
    e = .reset ∨ ∃ since, p.resume ≤ now - since ∧ HeldSince Evidence.IsGood since ((now, e) :: log) := by
  have hstamped := latchAfter_stamped p log
  cases e with
  | absent =>
    rw [show latchAfter p ((now, .absent) :: log) = latchAfter p log from rfl, hclosed] at hopen
    cases hopen
  | force => cases hopen
  | reset => exact Or.inl rfl
  | sample bad good =>
    right
    change ((latchAfter p log).update now bad good p.pause p.resume).latched = false at hopen
    obtain ⟨_, hup⟩ | ⟨rfl, hlong, _⟩ | ⟨_, _, hup⟩ :=
      update_closed hclosed now bad good p.pause p.resume
    · rw [hup] at hopen
      cases hopen
    · exact ⟨_, hlong, heldSince_stamp ⟨bad, rfl⟩ (hstamped.good hclosed) now⟩
    · rw [hup] at hopen
      cases hopen

theorem HeldSince.mem (h : HeldSince is since log) : ∃ x ∈ log, x.1 = since := by
  obtain ⟨later, x, past, rfl, _, hx⟩ := Since.iff_split.1 h
  exact ⟨x, by simp, hx.1⟩

/-- A window reaches back over every entry that is not before its start. -/
theorem HeldSince.covers (h : HeldSince is since log)
    (hsorted : log.Pairwise (fun x y => y.1 ≤ x.1)) {x : ℚ × Evidence} (hx : x ∈ log)
    (hlate : since < x.1) : x.2 = .absent ∨ is x.2 := by
  obtain ⟨later, start, past, rfl, hlater, hstart, hbad⟩ := Since.iff_split.1 h
  rcases List.mem_append.1 hx with hx | hx
  · exact hlater x hx
  · rcases List.mem_cons.1 hx with rfl | hx
    · exact Or.inr hbad
    · have hle : x.1 ≤ start.1 :=
        (List.pairwise_cons.1 (List.pairwise_append.1 hsorted).2.1).1 x hx
      exact absurd hlate (not_lt.2 (hstart ▸ hle))

end Behavior
end Mowgli
