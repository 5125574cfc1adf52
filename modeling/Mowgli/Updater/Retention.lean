import Mathlib.Data.List.Dedup
import Mathlib.Data.String.Basic

/-!
# Retention — what pruning leaves to go back to

`retention.go` of the host updater, and of `manager.go` the job `Rollback` takes. The journal forgets
the backups no rollback is promised for (`State.forget`), then the directories of the others are
removed (`pruneBackups`). **The jobs that are kept are the ones `Rollback` would take, one after the
other.**

Of the journal stands what these functions read.
-/

namespace Mowgli
namespace Updater

/-! ## The journal -/

structure Deployment where
  ID : String
  deriving DecidableEq

/-- `map[string]string`: the reference of the image of every service. -/
abbrev Images := List (String × String)

structure Plan where
  Target : Deployment
  Images : Updater.Images
  Previous : Updater.Images
  deriving DecidableEq

inductive Phase where
  | planned
  | downloading
  | quiescing
  | backing_up
  | applying
  | verifying
  | rolling_back
  | recovery_required
  | failed
  | succeeded
  | rolled_back
  deriving DecidableEq

structure Job where
  ID : String
  Phase : Phase
  Plan : Plan
  Backup : String := ""
  PreviousImages : Images
  PreviousJobID : String
  deriving DecidableEq

structure State where
  Active : Option Deployment := none
  InstalledImages : Images := []
  ActiveJobID : String := ""
  History : List Job := []
  deriving DecidableEq

/-! ## Retention -/

def RetainedRollbacks : Nat := 2

/-- `filepath.Base`. -/
def Base (path : String) : String :=
  match path.toList.reverse.dropWhile (· == '/') with
  | [] => if path = "" then "." else "/"
  | cs => String.ofList (cs.takeWhile (· != '/')).reverse

/-- A job a rollback can be made of. -/
def Job.recoverable (j : Job) : Bool := j.Phase = .succeeded && j.Backup != ""

/-- `committed[id]`: a later entry of the history replaces an earlier one. -/
def State.committed (s : State) (id : String) : Option Job :=
  (s.History.filter Job.recoverable).reverse.find? (·.ID = id)

/-- The active job and the jobs it replaced, at most `n`. -/
def State.chain (s : State) : Nat → String → List Job
  | 0, _ => []
  | n + 1, id =>
    if id = "" then []
    else
      match s.committed id with
      | none => []
      | some job => job :: s.chain n job.PreviousJobID

def retainedJobs (s : State) : List Job :=
  if s.ActiveJobID ≠ "" then s.chain RetainedRollbacks s.ActiveJobID
  else (s.History.reverse.filterMap fun job => s.committed job.ID).take RetainedRollbacks

def jobImages (job : Job) : List String :=
  (job.Plan.Images ++ job.Plan.Previous ++ job.PreviousImages).map Prod.snd

def sortedKeys (keys : List String) : List String := keys.dedup.mergeSort fun a b => decide (a ≤ b)

structure Retention where
  Jobs : List String
  Images : List String
  Stale : List String

def needed (s : State) : List String :=
  s.InstalledImages.map Prod.snd ++ (retainedJobs s).flatMap jobImages

def retention (s : State) : Retention where
  Jobs := (retainedJobs s).map fun job => Base job.Backup
  Images := sortedKeys (needed s)
  Stale := sortedKeys ((s.History.flatMap jobImages).filter fun image =>
    image != "" && decide (image ∉ needed s))

/-- The journal forgets what is not kept. -/
def Job.forget (keep : Retention) (j : Job) : Job :=
  if j.Backup ≠ "" ∧ Base j.Backup ∉ keep.Jobs then { j with Backup := "" } else j

def State.forget (s : State) (keep : Retention) : State :=
  { s with History := s.History.map (Job.forget keep) }

/-! ## The job a rollback takes -/

/-- The entry of the history `Rollback` takes. -/
def State.recoverable (s : State) (old : Job) : Bool :=
  if s.ActiveJobID ≠ "" ∧ old.ID ≠ s.ActiveJobID then false
  else if old.Phase ≠ .succeeded ∨ old.Backup = "" ∨ (s.ActiveJobID = "" ∧
      (s.Active.all fun a => decide (old.Plan.Target.ID ≠ a.ID)) = true) then false
  else true

/-- The newest of them. -/
def State.rollbackOf (s : State) : Option Job := s.History.reverse.find? s.recoverable

open State (rollbackOf recoverable)

/-! ## The directories -/

/-- `[a-zA-Z0-9]`. -/
def isAlnum (c : Char) : Bool := c.isAlphanum

/-- `^[a-zA-Z0-9][a-zA-Z0-9_.-]{0,127}$`. -/
def idPattern (name : String) : Bool :=
  match name.toList with
  | [] => false
  | c :: cs =>
    isAlnum c && decide (cs.length ≤ 127) &&
      cs.all fun c => isAlnum c || c == '_' || c == '.' || c == '-'

structure Entry where
  Name : String
  IsDir : Bool
  deriving DecidableEq

/-- What `pruneBackups` leaves, if every `RemoveAll` works. -/
def pruneBackups (entries : List Entry) (keep : List String) : List Entry :=
  entries.filter fun e => !e.IsDir || decide (e.Name ∈ keep) || !idPattern e.Name

/-! ## What is forgotten -/

theorem forget_id (keep : Retention) (j : Job) : (j.forget keep).ID = j.ID := by
  unfold Job.forget
  split
  · rfl
  · rfl

variable {keep : Retention} {j : Job} {s : State}

theorem forget_kept (h : Base j.Backup ∈ keep.Jobs) : j.forget keep = j := by
  unfold Job.forget
  rw [if_neg]
  rintro ⟨_, hnot⟩
  exact hnot h

/-- A job that keeps its backup is left as it was. -/
theorem forget_named (h : (j.forget keep).Backup ≠ "") :
    j.forget keep = j ∧ Base j.Backup ∈ keep.Jobs := by
  unfold Job.forget at h ⊢
  split at h
  · exact absurd rfl h
  · rename_i hnot
    rw [if_neg hnot]
    refine ⟨rfl, ?_⟩
    by_contra hmem
    exact hnot ⟨h, hmem⟩

theorem recoverable_named (h : j.recoverable = true) : j.Backup ≠ "" := by
  unfold Job.recoverable at h
  rw [Bool.and_eq_true] at h
  exact bne_iff_ne.1 h.2

theorem recoverable_forget (h : (j.forget keep).recoverable = true) : j.recoverable = true := by
  rw [(forget_named (recoverable_named h)).1] at h
  exact h

/-- What is found in a list is found behind a map that leaves it alone and lets nothing else in. -/
theorem find_map {α : Type} {p : α → Bool} {f : α → α} {l : List α}
    (hp : ∀ a, p (f a) = true → p a = true) (hf : ∀ a, l.find? p = some a → f a = a) :
    (l.map f).find? p = l.find? p := by
  induction l with
  | nil => rfl
  | cons a l ih =>
    rw [List.map_cons, List.find?_cons, List.find?_cons]
    cases ha : p a with
    | true =>
      have hfa : f a = a := hf a (by rw [List.find?_cons, ha])
      rw [hfa, ha]
    | false =>
      have hfa : p (f a) = false := by
        rw [← Bool.not_eq_true]
        intro h
        rw [hp a h] at ha
        cases ha
      rw [hfa]
      exact ih fun b hb => hf b (by rw [List.find?_cons, ha]; exact hb)

/-! ## What a rollback takes -/

/-- The last entry of a job that can be taken back. -/
def named (id : String) (j : Job) : Bool := j.recoverable && decide (j.ID = id)

theorem committed_eq (s : State) (id : String) :
    s.committed id = s.History.reverse.find? (named id) := by
  unfold State.committed
  rw [← List.filter_reverse, List.find?_filter]
  congr 1
  funext j
  unfold named
  rw [Bool.decide_and, Bool.decide_coe, Bool.decide_coe]

theorem recoverable_eq (h : s.ActiveJobID ≠ "") (j : Job) :
    recoverable s j = named s.ActiveJobID j := by
  unfold recoverable named Job.recoverable
  by_cases hid : j.ID = s.ActiveJobID
  · rw [if_neg fun hnot => hnot.2 hid]
    by_cases hphase : j.Phase = .succeeded
    · by_cases hbackup : j.Backup = ""
      · rw [if_pos (.inr (.inl hbackup)), hbackup]
        simp
      · rw [if_neg]
        · simp [hid, hphase, hbackup]
        · rintro (hnot | hnot | hnot)
          · exact hnot hphase
          · exact hbackup hnot
          · exact h hnot.1
    · rw [if_pos (.inl hphase)]
      simp [hphase]
  · rw [if_pos ⟨h, hid⟩]
    simp [hid]

/-- **What `Rollback` takes is the job retention begins with.** -/
theorem rollbackOf_eq (h : s.ActiveJobID ≠ "") : rollbackOf s = s.committed s.ActiveJobID := by
  rw [committed_eq]
  unfold rollbackOf
  congr 1
  funext j
  exact recoverable_eq h j

variable {id : String}

theorem head_chain (s : State) (n : Nat) (h : id ≠ "") :
    (s.chain (n + 1) id).head? = s.committed id := by
  rw [State.chain, if_neg h]
  cases s.committed id with
  | none => rfl
  | some j => rfl

theorem committed_forget (h : ∀ j, s.committed id = some j → Base j.Backup ∈ keep.Jobs) :
    (s.forget keep).committed id = s.committed id := by
  rw [committed_eq] at h
  rw [committed_eq, committed_eq]
  show (s.History.map (Job.forget keep)).reverse.find? (named id) = _
  rw [← List.map_reverse]
  refine find_map (fun j hj => ?_) fun j hj => forget_kept (h j hj)
  unfold named at hj ⊢
  rw [Bool.and_eq_true] at hj ⊢
  rw [forget_id] at hj
  exact ⟨recoverable_forget hj.1, hj.2⟩

/-- **Where all of a chain is kept, the chain is the same afterwards.** -/
theorem chain_forget {n : Nat} (h : ∀ j ∈ s.chain n id, Base j.Backup ∈ keep.Jobs) :
    (s.forget keep).chain n id = s.chain n id := by
  induction n generalizing id with
  | zero => rfl
  | succ n ih =>
    rw [State.chain, State.chain]
    split
    · rfl
    · rename_i hid
      rw [State.chain, if_neg hid] at h
      cases hcommitted : s.committed id with
      | none =>
        have hsame : (s.forget keep).committed id = s.committed id := by
          refine committed_forget fun j hj => ?_
          rw [hcommitted] at hj
          cases hj
        rw [hsame, hcommitted]
      | some j =>
        rw [hcommitted] at h
        have hsame : (s.forget keep).committed id = s.committed id := by
          refine committed_forget fun j' hj' => ?_
          obtain rfl := Option.some.inj (hcommitted.symm.trans hj')
          exact h j (List.mem_cons_self ..)
        rw [hsame, hcommitted]
        exact congrArg (j :: ·) (ih fun j' hj' => h j' (List.mem_cons_of_mem _ hj'))

/-- No image of the running stack or of a job that is kept is called stale. -/
theorem needed_kept {image : String} (h : image ∈ needed s) :
    image ∈ (retention s).Images ∧ image ∉ (retention s).Stale := by
  have hsorted : ∀ keys : List String, image ∈ sortedKeys keys ↔ image ∈ keys := by
    intro keys
    unfold sortedKeys
    rw [List.mem_mergeSort, List.mem_dedup]
  refine ⟨(hsorted _).2 h, fun hstale => ?_⟩
  have hunneeded := (List.mem_filter.1 ((hsorted _).1 hstale)).2
  rw [Bool.and_eq_true, decide_eq_true_eq] at hunneeded
  exact hunneeded.2 h

theorem mem_retention (h : j ∈ retainedJobs s) :
    Base j.Backup ∈ (retention s).Jobs := List.mem_map_of_mem h

/-- **What `Rollback` takes after pruning has its directory**, whichever job is the active one by
then. -/
theorem rollback_kept {active : Option Deployment}
    (h : rollbackOf { s.forget keep with ActiveJobID := id, Active := active } = some j) :
    Base j.Backup ∈ keep.Jobs := by
  have hmem : j ∈ s.History.map (Job.forget keep) := List.mem_reverse.1 (List.mem_of_find?_eq_some h)
  have hrec := List.find?_some h
  obtain ⟨old, _, rfl⟩ := List.mem_map.1 hmem
  have hnamed : (old.forget keep).Backup ≠ "" := by
    intro hempty
    unfold recoverable at hrec
    split at hrec
    · cases hrec
    · rw [if_pos (.inr (.inl hempty))] at hrec
      cases hrec
  obtain ⟨heq, hkept⟩ := forget_named hnamed
  rw [heq]
  exact hkept

/-- A job that installed a release of the GUI over the one before. -/
def installed (id previous : String) (phase : Phase) : Job where
  ID := id
  Phase := phase
  Plan := ⟨⟨id⟩, [("gui", id)], [("gui", previous)]⟩
  Backup := "/var/lib/mowgli/backups/" ++ id
  PreviousImages := [("gui", previous)]
  PreviousJobID := previous

/-- Four installations, of which the third failed. -/
def four : State where
  ActiveJobID := "d"
  History := [installed "a" "" .succeeded, installed "b" "a" .succeeded,
    installed "c" "b" .failed, installed "d" "b" .succeeded]

end Updater
end Mowgli
