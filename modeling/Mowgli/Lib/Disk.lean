import Mathlib.Data.List.Basic

/-!
# Disk — a directory of files that a crash may shorten

The names of one directory stand for files, by their numbers. What is written to a name is seen
at once and is durable once the directory is synced, and the bytes of a file are durable once
the file is. Of what is not durable a crash keeps **any part, in any mixture**: each name goes
back to its durable file or to any of those it has had since, and a file that was not synced
holds anything.

So a fact about a name that outlasts a crash is one about all its `candidates`.
-/

namespace Mowgli
namespace Disk

variable {Name B : Type}

/-- What a name stands for. -/
structure Entry where
  durable : Option Nat
  /-- Since the directory was synced, the latest first. -/
  pending : List (Option Nat)
deriving DecidableEq

namespace Entry

def visible (e : Entry) : Option Nat := e.pending.head?.getD e.durable

/-- What a crash may leave of it. -/
def candidates (e : Entry) : List (Option Nat) := e.durable :: e.pending

def set (e : Entry) (file : Option Nat) : Entry := { e with pending := file :: e.pending }

def settle (e : Entry) : Entry := { durable := e.visible, pending := [] }

/-- A crash leaves the `n`-th candidate. -/
def crash (e : Entry) (n : Nat) : Entry :=
  { durable := (e.candidates[n]?).getD e.durable, pending := [] }

theorem visible_mem (e : Entry) : e.visible ∈ e.candidates := by
  unfold visible candidates
  cases e.pending with
  | nil => exact List.mem_cons_self
  | cons file rest => exact List.mem_cons_of_mem _ List.mem_cons_self

@[simp] theorem visible_set (e : Entry) (file : Option Nat) : (e.set file).visible = file := rfl

variable {c : Option Nat} {e : Entry}

theorem mem_set {file : Option Nat} :
    c ∈ (e.set file).candidates ↔ c = file ∨ c ∈ e.candidates := by
  unfold set candidates
  simp only [List.mem_cons]
  tauto

@[simp] theorem mem_settle : c ∈ e.settle.candidates ↔ c = e.visible := by
  simp [settle, candidates]

@[simp] theorem visible_settle (e : Entry) : e.settle.visible = e.visible := rfl

theorem crash_candidates {n : Nat} (h : c ∈ (e.crash n).candidates) : c ∈ e.candidates := by
  have hc : c = (e.candidates[n]?).getD e.durable := by simpa [crash, candidates] using h
  rw [hc]
  cases hn : e.candidates[n]? with
  | none => exact List.mem_cons_self
  | some file => exact List.mem_of_getElem? hn

end Entry

/-- The bytes of a file, and whether they are durable. -/
structure File (B : Type) where
  bytes : List B
  synced : Bool

end Disk

structure Disk (Name B : Type) where
  entry : Name → Disk.Entry
  file : Nat → Disk.File B
  /-- The number of the next file. -/
  next : Nat

namespace Disk

variable {Name B : Type} [DecidableEq Name]

def visible (d : Disk Name B) (name : Name) : Option Nat := (d.entry name).visible

def candidates (d : Disk Name B) (name : Name) : List (Option Nat) := (d.entry name).candidates

/-- The bytes that are read under a name. -/
def read (d : Disk Name B) (name : Name) : Option (List B) :=
  (d.visible name).map fun i => (d.file i).bytes

def set (d : Disk Name B) (name : Name) (file : Option Nat) : Disk Name B :=
  { d with entry := Function.update d.entry name ((d.entry name).set file) }

def write (d : Disk Name B) (i : Nat) (f : File B) : Disk Name B :=
  { d with file := Function.update d.file i f }

/-- An empty file of its own. -/
def create (d : Disk Name B) (name : Name) : Disk Name B :=
  { (d.set name (some d.next)).write d.next { bytes := [], synced := false } with
    next := d.next + 1 }

def append (d : Disk Name B) (i : Nat) (data : List B) : Disk Name B :=
  d.write i { bytes := (d.file i).bytes ++ data, synced := false }

def fsync (d : Disk Name B) (i : Nat) : Disk Name B := d.write i { d.file i with synced := true }

/-- A name that stands for no file cannot be removed. -/
def unlink (d : Disk Name B) (name : Name) : Disk Name B :=
  if (d.visible name).isNone then d else d.set name none

def link (d : Disk Name B) (src dst : Name) : Option (Disk Name B) :=
  match d.visible src, d.visible dst with
  | some i, none => some (d.set dst (some i))
  | _, _ => none

/-- Two names of one file are left alone. -/
def rename (d : Disk Name B) (src dst : Name) : Option (Disk Name B) :=
  match d.visible src with
  | none => none
  | some i => if d.visible dst = some i then some d else some ((d.set dst (some i)).set src none)

def fsyncDir (d : Disk Name B) : Disk Name B := { d with entry := fun name => (d.entry name).settle }

/-- A crash, with what it leaves of each name and of each file that was not synced. -/
def crash (d : Disk Name B) (kept : Name → Nat) (junk : Nat → List B) : Disk Name B :=
  { d with
    entry := fun name => (d.entry name).crash (kept name)
    file := fun i => if (d.file i).synced then d.file i else { bytes := junk i, synced := true } }

/-! ## What the operations leave alone -/

section
variable {d : Disk Name B}

@[simp] theorem entry_set_self (name : Name) (file : Option Nat) :
    (d.set name file).entry name = (d.entry name).set file := Function.update_self ..

variable {name : Name} {d' : Disk Name B} {src dst : Name}

theorem entry_set_other {name' : Name} (h : name' ≠ name) (file : Option Nat) :
    (d.set name file).entry name' = d.entry name' := Function.update_of_ne h ..

@[simp] theorem file_set (name : Name) (file : Option Nat) : (d.set name file).file = d.file := rfl

omit [DecidableEq Name] in
@[simp] theorem entry_write (i : Nat) (f : File B) : (d.write i f).entry = d.entry := rfl

omit [DecidableEq Name] in
@[simp] theorem file_write_self (i : Nat) (f : File B) : (d.write i f).file i = f :=
  Function.update_self ..

omit [DecidableEq Name] in
theorem file_write_other {i j : Nat} (h : j ≠ i) (f : File B) : (d.write i f).file j = d.file j :=
  Function.update_of_ne h ..

theorem entry_unlink_other {name' : Name} (h : name' ≠ name) :
    (d.unlink name).entry name' = d.entry name' := by
  unfold unlink
  split
  · rfl
  · exact entry_set_other h none

@[simp] theorem file_unlink (name : Name) : (d.unlink name).file = d.file := by
  unfold unlink
  split
  · rfl
  · rfl

@[simp] theorem next_unlink (name : Name) : (d.unlink name).next = d.next := by
  unfold unlink
  split
  · rfl
  · rfl

@[simp] theorem visible_unlink (name : Name) : (d.unlink name).visible name = none := by
  unfold unlink
  split
  · rename_i h
    exact Option.isNone_iff_eq_none.1 h
  · unfold visible
    rw [entry_set_self]
    rfl

theorem mem_unlink {c : Option Nat} (h : c ∈ (d.unlink name).candidates name) :
    c = none ∨ c ∈ d.candidates name := by
  unfold unlink at h
  split at h
  · exact .inr h
  · unfold candidates at h
    rw [entry_set_self] at h
    exact Entry.mem_set.1 h

/-- A renamed name stands for the file, whether or not it did already. -/
theorem rename_some (h : d.rename src dst = some d') :
    ∃ i, d.visible src = some i ∧ d'.visible dst = some i ∧ d'.file = d.file ∧ d'.next = d.next ∧
      (∀ c ∈ d'.candidates dst, c = some i ∨ c ∈ d.candidates dst) ∧
      ∀ name, name ≠ src → name ≠ dst → d'.entry name = d.entry name := by
  unfold rename at h
  split at h
  · cases h
  rename_i i hi
  refine ⟨i, hi, ?_⟩
  split at h
  · rename_i hsame
    cases h
    exact ⟨hsame, rfl, rfl, fun c hc => .inr hc, fun name _ _ => rfl⟩
  · rename_i hother
    cases h
    have hne : dst ≠ src := by
      rintro rfl
      exact hother hi
    have hentry : ((d.set dst (some i)).set src none).entry dst = (d.entry dst).set (some i) := by
      rw [entry_set_other hne, entry_set_self]
    refine ⟨?_, rfl, rfl, fun c hc => ?_, fun name hsrc hdst => ?_⟩
    · unfold visible
      rw [hentry]
      rfl
    · unfold candidates at hc
      rw [hentry] at hc
      exact Entry.mem_set.1 hc
    · rw [entry_set_other hsrc, entry_set_other hdst]

/-- A rename brings no file into the directory. -/
theorem mem_rename (h : d.rename src dst = some d') {j : Nat} (hj : some j ∈ d'.candidates name) :
    ∃ name', some j ∈ d.candidates name' := by
  unfold rename at h
  split at h
  · cases h
  rename_i i hi
  split at h
  · cases h
    exact ⟨name, hj⟩
  · cases h
    by_cases hsrc : name = src
    · subst hsrc
      unfold candidates at hj
      rw [entry_set_self, Entry.mem_set] at hj
      rcases hj with hj | hj
      · cases hj
      · by_cases hdst : name = dst
        · subst hdst
          rw [entry_set_self, Entry.mem_set] at hj
          rcases hj with hj | hj
          · cases hj
            exact ⟨name, hi ▸ (d.entry name).visible_mem⟩
          · exact ⟨name, hj⟩
        · rw [entry_set_other hdst] at hj
          exact ⟨name, hj⟩
    · unfold candidates at hj
      rw [entry_set_other hsrc] at hj
      by_cases hdst : name = dst
      · subst hdst
        rw [entry_set_self, Entry.mem_set] at hj
        rcases hj with hj | hj
        · cases hj
          exact ⟨src, hi ▸ (d.entry src).visible_mem⟩
        · exact ⟨name, hj⟩
      · rw [entry_set_other hdst] at hj
        exact ⟨name, hj⟩

/-- A new link to a file. -/
theorem link_some (h : d.link src dst = some d') :
    ∃ i, d.visible src = some i ∧ d' = d.set dst (some i) := by
  unfold link at h
  split at h
  · rename_i i hi _
    cases h
    exact ⟨i, hi, rfl⟩
  · cases h

end

end Disk
end Mowgli
