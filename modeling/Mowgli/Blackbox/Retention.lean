import Mathlib.Data.List.Sort
import Mathlib.Tactic.Linarith
import Mowgli.Blackbox.Storage
import Mowgli.Lib.Trace
import Mowgli.Lib.Weight

/-!
# Retention — the directory stays bounded

A capture is published only into a directory within its limits and is no larger than one of them,
and everything else takes away (`Shrunk`) or leaves the completed snapshots alone (`Untouched`).
So the directory is never more than one capture over, whatever fails and however often.
-/

namespace Mowgli
namespace Blackbox

open Trace Weight

/-! ## What counts -/

def completed (name : String) (e : Entry) : Bool := snapshotName name && e.regular

def count (d : Directory) : Nat := weight (fun name e => if completed name e then 1 else 0) d

def total (d : Directory) : Nat :=
  weight (fun name e => if completed name e then e.bytes.length else 0) d

structure Within (cfg : Config) (d : Directory) : Prop where
  count : (count d : Int) ≤ cfg.MaxSnapshots
  total : (total d : Int) ≤ cfg.MaxDiskBytes

/-- One snapshot more, and twice the bytes. -/
structure OneMore (cfg : Config) (d : Directory) : Prop where
  count : (count d : Int) ≤ cfg.MaxSnapshots + 1
  total : (total d : Int) ≤ 2 * cfg.MaxDiskBytes

/-- The whole snapshot of a capture. -/
def Holds {M : Type} (enc : Encoder M) (c : Capture M) (bytes : Bytes) : Prop :=
  ∃ lines : List Bytes, enc.lines c = lines.map some ∧ bytes = lines.flatten

/-- Nothing was added. -/
structure Shrunk (d m : Directory) : Prop where
  count : count m ≤ count d
  total : total m ≤ total d
  lookup : ∀ name e, m.lookup name = some e → d.lookup name = some e

/-- The completed names stand for what they stood for. -/
structure Untouched (d m : Directory) : Prop where
  count : count m = count d
  total : total m = total d
  lookup : ∀ name, snapshotName name = true → m.lookup name = d.lookup name

variable {cfg : Config} {d m : Directory}

theorem Shrunk.refl (d : Directory) : Shrunk d d := ⟨le_refl _, le_refl _, fun _ _ h => h⟩

variable {l : Directory} {t : Int} {o : Outcome} {start : Directory}

theorem Shrunk.trans (h : Shrunk d m) (h' : Shrunk m l) : Shrunk d l :=
  ⟨h'.count.trans h.count, h'.total.trans h.total,
    fun name e hl => h.lookup name e (h'.lookup name e hl)⟩

theorem shrunk_erase (d : Directory) (name : String) : Shrunk d (d.erase name) := by
  refine ⟨weight_erase_le name, weight_erase_le name, fun other e h => ?_⟩
  by_cases hname : other = name
  · subst hname
    rw [AList.lookup_erase] at h
    exact absurd h (by simp)
  · rwa [AList.lookup_erase_ne hname] at h

theorem Shrunk.oneMore (h : Shrunk d m) (hd : OneMore cfg d) : OneMore cfg m := by
  have hcount := h.count
  have htotal := h.total
  have hdc := hd.count
  have hdt := hd.total
  exact ⟨by omega, by omega⟩

theorem Within.oneMore (h : Within cfg d) : OneMore cfg d := by
  have hc := h.count
  have ht := h.total
  exact ⟨by omega, by omega⟩

theorem Untouched.refl (d : Directory) : Untouched d d := ⟨rfl, rfl, fun _ _ => rfl⟩

theorem Untouched.trans (h : Untouched d m) (h' : Untouched m l) : Untouched d l :=
  ⟨h'.count.trans h.count, h'.total.trans h.total,
    fun name hname => (h'.lookup name hname).trans (h.lookup name hname)⟩

section OtherNames

variable {name : String} (hname : snapshotName name = false)

include hname

theorem weightless (e : Entry) (n : Nat) : (if completed name e then n else 0) = 0 := by
  simp [completed, hname]

theorem untouched_erase (d : Directory) : Untouched d (d.erase name) := by
  refine ⟨weight_erase_of_zero fun e => weightless hname e _,
    weight_erase_of_zero fun e => weightless hname e _, fun other hother => ?_⟩
  refine AList.lookup_erase_ne fun h => ?_
  rw [h, hname] at hother
  exact absurd hother (by simp)

theorem untouched_insert (d : Directory) (e : Entry) : Untouched d (d.insert name e) := by
  have hcount : count (d.insert name e) = count d := by
    rw [count, weight_insert_of_zero fun e => weightless hname e 1]
    rfl
  have htotal : total (d.insert name e) = total d := by
    rw [total, weight_insert_of_zero fun e => weightless hname e e.bytes.length]
    rfl
  refine ⟨hcount, htotal, fun other hother => ?_⟩
  refine AList.lookup_insert_ne fun h => ?_
  rw [h, hname] at hother
  exact absurd hother (by simp)

end OtherNames

/-! ## Names -/

theorem length_of_matches {pattern : List (Char → Bool)} {s : List Char}
    (h : matchesPattern pattern s = true) : s.length = pattern.length := by
  induction pattern generalizing s with
  | nil =>
    cases s with
    | nil => rfl
    | cons c s => exact absurd h (by simp [matchesPattern])
  | cons p pattern ih =>
    cases s with
    | nil => exact absurd h (by simp [matchesPattern])
    | cons c s =>
      simp only [matchesPattern, Bool.and_eq_true] at h
      rw [List.length_cons, List.length_cons, ih h.2]

/-- A temporary name is longer than any completed one. -/
theorem temp_not_completed {M : Type} (c : Capture M) : snapshotName c.temp = false := by
  refine Bool.eq_false_iff.2 fun h => ?_
  have hname := length_of_matches c.named
  have htemp := length_of_matches h
  rw [← hname] at htemp
  simp only [Capture.temp, Capture.name, String.toList_append, List.length_append] at htemp
  have : (".partial".toList).length = 8 := by decide
  omega

/-! ## The scan -/

def entryOf (e : Sigma fun _ : String => Entry) : StorageEntry := ⟨e.1, e.2.bytes.length⟩

/-- What a scan lists. -/
def completedFiles (entries : List (Sigma fun _ : String => Entry)) : List StorageEntry :=
  (entries.filter fun e => completed e.1 e.2).map entryOf

variable {files : List StorageEntry} {candidates : List String}

theorem scanFrom_eq {entries : List (Sigma fun _ : String => Entry)} {r : List StorageEntry}
    {t' : Int} (h : scanFrom entries files t = some (r, t')) :
    r = files ++ completedFiles entries ∧
      t' = t + ((entries.map fun e =>
        if completed e.1 e.2 then e.2.bytes.length else 0).sum : Nat) := by
  induction entries generalizing files t with
  | nil =>
    obtain ⟨rfl, rfl⟩ : files = r ∧ t = t' := by simpa [scanFrom] using h
    simp [completedFiles]
  | cons e rest ih =>
    rw [scanFrom] at h
    by_cases hskip : snapshotName e.1 = false ∨ e.2.regular = false
    · rw [if_pos hskip] at h
      have hnot : completed e.1 e.2 = false := by
        rcases hskip with h | h <;> simp [completed, h]
      obtain ⟨hr, ht⟩ := ih h
      refine ⟨by rw [hr]; simp [completedFiles, hnot], by rw [ht]; simp [hnot]⟩
    · rw [if_neg hskip] at h
      have hcompleted : completed e.1 e.2 = true := by
        rw [not_or] at hskip
        simpa [completed] using hskip
      split at h
      · exact absurd h (by simp)
      · obtain ⟨hr, ht⟩ := ih h
        refine ⟨by rw [hr]; simp [completedFiles, hcompleted, entryOf], ?_⟩
        rw [ht]
        simp only [List.map_cons, List.sum_cons, hcompleted, if_true]
        omega

theorem count_eq (d : Directory) : count d = (completedFiles d.entries).length := by
  rw [count, weight, completedFiles, List.length_map]
  induction d.entries with
  | nil => rfl
  | cons e rest ih =>
    rw [List.map_cons, List.sum_cons, ih]
    cases h : completed e.1 e.2 with
    | true => simp [h]; omega
    | false => simp [h]

theorem scanCompleted_eq {works : Bool} (h : scanCompleted d works = some (files, t)) :
    files = completedFiles d.entries ∧ (files.length : Int) = count d ∧ t = total d := by
  unfold scanCompleted at h
  split at h
  · exact absurd h (by simp)
  · obtain ⟨hfiles, ht⟩ := scanFrom_eq h
    rw [List.nil_append] at hfiles
    refine ⟨hfiles, by rw [count_eq, hfiles], ?_⟩
    rw [ht, total, weight]
    omega

/-- What is scanned stands in the directory. -/
structure Listed (d : Directory) (file : StorageEntry) (e : Entry) : Prop where
  lookup : d.lookup file.name = some e
  completed : completed file.name e = true
  size : file.size = e.bytes.length

theorem mem_completedFiles {file : StorageEntry} :
    file ∈ completedFiles d.entries ↔ ∃ e, Listed d file e := by
  simp only [completedFiles, List.mem_map, List.mem_filter]
  constructor
  · rintro ⟨e, ⟨he, hcompleted⟩, rfl⟩
    exact ⟨e.2, AList.mem_lookup_iff.2 he, hcompleted, rfl⟩
  · rintro ⟨e, hlookup, hcompleted, hsize⟩
    refine ⟨⟨file.name, e⟩, ⟨AList.mem_lookup_iff.1 hlookup, hcompleted⟩, ?_⟩
    cases file
    simp only [entryOf] at hsize ⊢
    rw [hsize]

theorem completedFiles_nodup (d : Directory) :
    ((completedFiles d.entries).map StorageEntry.name).Nodup := by
  have hkeys : (d.entries.map Sigma.fst).Nodup := d.keys_nodup
  refine List.Nodup.sublist ?_ hkeys
  rw [completedFiles, List.map_map]
  exact (List.filter_sublist).map _

/-! ## prune -/

/-- One name after the other. -/
def eraseAll : List String → Directory → Directory
  | [], d => d
  | name :: rest, d => eraseAll rest (d.erase name)

def eraseEach : List String → Directory → List Directory
  | [], _ => []
  | name :: rest, d => d.erase name :: eraseEach rest (d.erase name)

theorem shrunk_eraseAll (names : List String) (d : Directory) : Shrunk d (eraseAll names d) := by
  induction names generalizing d with
  | nil => exact .refl d
  | cons name rest ih => exact (shrunk_erase d name).trans (ih _)

theorem shrunk_eraseEach {names : List String} (h : m ∈ eraseEach names d) : Shrunk d m := by
  induction names generalizing d with
  | nil => exact absurd h (by simp [eraseEach])
  | cons name rest ih =>
    rcases List.mem_cons.1 h with rfl | h
    · exact shrunk_erase d name
    · exact (shrunk_erase d name).trans (ih h)

theorem lookup_eraseAll {names : List String} {name : String} (h : name ∉ names) (d : Directory) :
    (eraseAll names d).lookup name = d.lookup name := by
  induction names generalizing d with
  | nil => rfl
  | cons other rest ih =>
    rw [List.mem_cons, not_or] at h
    rw [eraseAll, ih h.2, AList.lookup_erase_ne h.1]

/-- The candidates go in their order, each while a limit is exceeded. -/
structure Prunes (cfg : Config) (candidates : List String) (d : Directory) (o : Outcome)
    (removed : List String) : Prop where
  inOrder : removed <+: candidates
  dir : o.dir = eraseAll removed d
  moments : o.moments = eraseEach removed d
  needed : ∀ before name, before ++ [name] <+: removed → ¬Within cfg (eraseAll before d)
  within : o.error = none → Within cfg o.dir

theorem Prunes.none {e : Option StorageError} (h : e = Option.none → Within cfg d) :
    Prunes cfg candidates d { dir := d, error := e } [] :=
  ⟨List.nil_prefix, rfl, rfl, fun before name hp => absurd (List.prefix_nil.1 hp) (by simp), h⟩

theorem Prunes.cons {candidates removed : List String} {name : String} {o : Outcome}
    (hexceeded : ¬Within cfg d) (h : Prunes cfg candidates (d.erase name) o removed) :
    Prunes cfg (name :: candidates) d (o.after [d.erase name]) (name :: removed) := by
  refine ⟨(List.prefix_cons_inj name).2 h.inOrder, h.dir, ?_, fun before last hp => ?_, h.within⟩
  · simp only [Outcome.after, h.moments]
    rfl
  · cases before with
    | nil => exact hexceeded
    | cons other before =>
      rw [List.cons_append] at hp
      obtain ⟨hsame, hrest⟩ := List.cons_prefix_cons.1 hp
      rw [hsame]
      exact h.needed before last hrest

theorem within_iff {n : Int} (hn : n = count d) (ht : t = total d) :
    n ≤ cfg.MaxSnapshots ∧ t ≤ cfg.MaxDiskBytes ↔ Within cfg d := by
  subst hn ht
  exact ⟨fun h => ⟨h.1, h.2⟩, fun h => ⟨h.1, h.2⟩⟩

theorem pruneFrom_prunes (cfg : Config) (keep : String) (removeCompleted : String → Removal)
    (hnodup : (files.map StorageEntry.name).Nodup) (hlisted : ∀ file ∈ files, ∃ e, Listed d file e)
    {n : Int} (hn : n = count d) (ht : t = total d) :
    ∃ removed, Prunes cfg ((files.map StorageEntry.name).filter fun name => name ≠ keep) d
      (pruneFrom cfg keep removeCompleted files n t d) removed := by
  induction files generalizing d n t with
  | nil =>
    refine ⟨[], .none fun hnone => ?_⟩
    refine (within_iff hn ht).1 ?_
    by_contra hexceeded
    rw [if_pos (by omega)] at hnone
    exact absurd hnone (by simp)
  | cons file rest ih =>
    rw [pruneFrom]
    rw [List.map_cons, List.nodup_cons] at hnodup
    obtain ⟨hfile, hrest⟩ := List.forall_mem_cons.1 hlisted
    by_cases hwithin : n ≤ cfg.MaxSnapshots ∧ t ≤ cfg.MaxDiskBytes
    · rw [if_pos hwithin]
      exact ⟨[], .none fun _ => (within_iff hn ht).1 hwithin⟩
    · rw [if_neg hwithin]
      have hexceeded : ¬Within cfg d := fun h => hwithin ((within_iff hn ht).2 h)
      by_cases hkeep : file.name = keep
      · rw [if_pos hkeep, List.map_cons, List.filter_cons_of_neg (by simpa using hkeep)]
        exact ih hnodup.2 hrest hn ht
      · rw [if_neg hkeep, List.map_cons, List.filter_cons_of_pos (by simpa using hkeep)]
        obtain ⟨e, he⟩ := hfile
        have hcount := weight_erase (f := fun name e => if completed name e then 1 else 0)
          he.lookup
        have htotal := weight_erase
          (f := fun name e => if completed name e then e.bytes.length else 0) he.lookup
        simp only [he.completed, if_true] at hcount htotal
        have hsize := he.size
        have hlater : ∃ removed, Prunes cfg
            ((rest.map StorageEntry.name).filter fun name => name ≠ keep) (d.erase file.name)
            (pruneFrom cfg keep removeCompleted rest (n - 1) (t - file.size) (d.erase file.name))
            removed := by
          refine ih hnodup.2 (fun other hother => ?_) ?_ ?_
          · obtain ⟨e', he'⟩ := hrest other hother
            have hne : other.name ≠ file.name := fun h =>
              hnodup.1 (h ▸ List.mem_map_of_mem hother)
            exact ⟨e', (AList.lookup_erase_ne hne).trans he'.lookup, he'.completed, he'.size⟩
          · unfold count at hn ⊢
            omega
          · unfold total at ht ⊢
            omega
        obtain ⟨removed, hremoved⟩ := hlater
        cases removeCompleted file.name with
        | failed => exact ⟨[], .none fun h => absurd h (by simp)⟩
        | removed => exact ⟨_, hremoved.cons hexceeded⟩
        | vanished => exact ⟨_, hremoved.cons hexceeded⟩

/-- The completed names but one, in their order. -/
structure Candidates (d : Directory) (keep : String) (names : List String) : Prop where
  ascending : names.Pairwise (· < ·)
  mem : ∀ name, name ∈ names ↔
    name ≠ keep ∧ ∃ e, d.lookup name = some e ∧ completed name e = true

theorem sorted_names (hnodup : (files.map StorageEntry.name).Nodup) :
    ((sorted files).map StorageEntry.name).Pairwise (· < ·) := by
  have hperm : (sorted files).Perm files := List.mergeSort_perm files _
  have hle : (sorted files).Pairwise fun a b => decide (a.name ≤ b.name) = true :=
    List.pairwise_mergeSort
      (fun a b c hab hbc => by
        simp only [decide_eq_true_eq] at hab hbc ⊢
        exact hab.trans hbc)
      (fun a b => by
        simp only [Bool.or_eq_true, decide_eq_true_eq]
        exact le_total a.name b.name) files
  have hnodup' : ((sorted files).map StorageEntry.name).Nodup :=
    (hperm.map StorageEntry.name).nodup_iff.2 hnodup
  rw [List.pairwise_map]
  have hne : (sorted files).Pairwise fun a b => a.name ≠ b.name := List.pairwise_map.1 hnodup'
  refine (hle.and hne).imp fun h => ?_
  exact lt_of_le_of_ne (by simpa using h.1) h.2

theorem candidates_sorted (d : Directory) (keep : String) :
    Candidates d keep (((sorted (completedFiles d.entries)).map StorageEntry.name).filter
      fun name => name ≠ keep) := by
  refine ⟨(sorted_names (completedFiles_nodup d)).filter _, fun name => ?_⟩
  have hperm : (sorted (completedFiles d.entries)).Perm (completedFiles d.entries) :=
    List.mergeSort_perm _ _
  simp only [List.mem_filter, List.mem_map, decide_eq_true_eq, ne_eq]
  constructor
  · rintro ⟨⟨file, hfile, rfl⟩, hkeep⟩
    obtain ⟨e, he⟩ := mem_completedFiles.1 (hperm.mem_iff.1 hfile)
    exact ⟨hkeep, e, he.lookup, he.completed⟩
  · rintro ⟨hkeep, e, hlookup, hcompleted⟩
    refine ⟨⟨⟨name, e.bytes.length⟩, ?_, rfl⟩, hkeep⟩
    exact hperm.mem_iff.2 (mem_completedFiles.2 ⟨e, hlookup, hcompleted, rfl⟩)

theorem prune_prunes (cfg : Config) (keep : String) (finds : PruneFinds) (d : Directory) :
    ∃ candidates removed, Candidates d keep candidates ∧
      Prunes cfg candidates d (prune cfg keep finds d) removed := by
  unfold prune
  split
  · exact ⟨_, [], candidates_sorted d keep, .none fun h => absurd h (by simp)⟩
  · cases hscan : scanCompleted d finds.scan with
    | none => exact ⟨_, [], candidates_sorted d keep, .none fun h => absurd h (by simp)⟩
    | some r =>
      obtain ⟨files, t⟩ := r
      obtain ⟨rfl, hn, ht⟩ := scanCompleted_eq hscan
      have hperm : (sorted (completedFiles d.entries)).Perm (completedFiles d.entries) :=
        List.mergeSort_perm _ _
      obtain ⟨removed, h⟩ := pruneFrom_prunes cfg keep finds.removeCompleted
        ((hperm.map StorageEntry.name).nodup_iff.2 (completedFiles_nodup d))
        (fun file hfile => mem_completedFiles.1 (hperm.mem_iff.1 hfile)) hn ht
      exact ⟨_, removed, candidates_sorted d keep, h⟩

/-! ## Writing -/

/-- What went through a writer is what the pieces were, and it was not more than remained. -/
theorem writeAll_eq {io : Bytes → Option Nat} {ps : List Bytes} {w : LimitWriter}
    (h : (writeAll io ps w).2 = true) (hroom : 0 ≤ w.remaining) :
    (((writeAll io ps w).1.getLast?.map LimitWriter.written).getD w.written) =
        w.written ++ ps.flatten ∧ (ps.flatten.length : Int) ≤ w.remaining := by
  induction ps generalizing w with
  | nil => simpa [writeAll] using hroom
  | cons p rest ih =>
    rw [writeAll] at h ⊢
    simp only at h ⊢
    by_cases hfits : w.remaining < p.length
    · simp [LimitWriter.Write, if_pos hfits] at h
    · cases hio : io w.written with
      | some n => simp [LimitWriter.Write, hfits, hio] at h
      | none =>
        have hwrite : w.Write p none = (⟨w.written ++ p, w.remaining - p.length⟩, true) := by
          simp [LimitWriter.Write, hfits]
        rw [hio] at h
        rw [hwrite] at h ⊢
        simp only [if_true] at h ⊢
        obtain ⟨hwritten, hlength⟩ := ih h (by simp only; omega)
        simp only at hwritten hlength
        constructor
        · rw [List.flatten_cons, ← List.append_assoc, ← hwritten, List.getLast?_cons]
          cases (writeAll io rest _).1.getLast? with
          | none => rfl
          | some last => rfl
        · rw [List.flatten_cons, List.length_append]
          omega

theorem bufferWrite_flatten (buffer p : Bytes) :
    (bufferWrite buffer p).1.flatten ++ (bufferWrite buffer p).2 = buffer ++ p := by
  unfold bufferWrite
  simp only
  split
  · simp
  · split
    · rename_i hempty
      simp [List.isEmpty_iff.1 hempty]
    · split <;> simp [List.append_assoc, List.take_append_drop]

/-- The buffer keeps the order and drops nothing. -/
theorem pieces_flatten {buffer : Bytes} {lines : List (Option Bytes)}
    (h : (pieces buffer lines).2 = true) :
    ∃ encoded : List Bytes, lines = encoded.map some ∧
      (pieces buffer lines).1.flatten = buffer ++ encoded.flatten := by
  induction lines generalizing buffer with
  | nil =>
    refine ⟨[], rfl, ?_⟩
    rw [pieces]
    cases buffer with
    | nil => rfl
    | cons b buffer => simp
  | cons line lines ih =>
    cases line with
    | none => exact absurd h (by simp [pieces])
    | some line =>
      obtain ⟨encoded, hlines, hflatten⟩ := ih h
      refine ⟨line :: encoded, by rw [hlines]; rfl, ?_⟩
      simp only [pieces]
      rw [List.flatten_append, hflatten, ← List.append_assoc, bufferWrite_flatten,
        List.flatten_cons, List.append_assoc]

/-! ## persist -/

variable {M : Type} {enc : Encoder M} {c : Capture M}

/-- The capture is there beside what was there before. -/
structure Published (cfg : Config) (enc : Encoder M) (c : Capture M) (d m : Directory) : Prop where
  oneMore : OneMore cfg m
  own : ∃ bytes, m.lookup c.name = some ⟨true, bytes⟩ ∧ Holds enc c bytes
  others : ∀ name, snapshotName name = true → name ≠ c.name → m.lookup name = d.lookup name

/-- Nothing was published, and the completed snapshots are what they were. -/
structure Refused (d : Directory) (o : Outcome) : Prop where
  error : ∃ e, o.error = some e ∧ ∀ e', e ≠ .published e'
  moments : ∀ m ∈ o.moments, Untouched d m
  dir : Untouched d o.dir

theorem Refused.at_once {e : StorageError} (h : ∀ e', e ≠ .published e') :
    Refused d { dir := d, error := some e } :=
  ⟨⟨e, rfl, h⟩, fun _ hm => absurd hm (by simp), .refl d⟩

theorem last_written (c : Capture M) (d : Directory) (writers : List LimitWriter) :
    (d.insert c.temp ⟨true, []⟩ :: c.written d writers).getLastD d =
      d.insert c.temp ⟨true, (writers.getLast?.map LimitWriter.written).getD []⟩ := by
  rw [List.getLastD_cons, List.getLastD_eq_getLast?, Capture.written, List.getLast?_map]
  cases writers.getLast? with
  | none => rfl
  | some w => rfl

theorem untouched_written {writers : List LimitWriter}
    (h : m ∈ d.insert c.temp ⟨true, []⟩ :: c.written d writers) : Untouched d m := by
  rcases List.mem_cons.1 h with rfl | h
  · exact untouched_insert (temp_not_completed c) d _
  · obtain ⟨w, _, rfl⟩ := List.mem_map.1 h
    exact untouched_insert (temp_not_completed c) d _

theorem published_rename (hwithin : Within cfg d) {bytes : Bytes} (hholds : Holds enc c bytes)
    (hsize : (bytes.length : Int) ≤ cfg.MaxDiskBytes) :
    Published cfg enc c d (Rename (d.insert c.temp ⟨true, bytes⟩) c.temp c.name) := by
  have hopen := (untouched_insert (temp_not_completed c) d ⟨true, bytes⟩).trans
    (untouched_erase (temp_not_completed c) _)
  have hrename : Rename (d.insert c.temp ⟨true, bytes⟩) c.temp c.name =
      ((d.insert c.temp ⟨true, bytes⟩).erase c.temp).insert c.name ⟨true, bytes⟩ := by
    simp only [Rename, AList.lookup_insert]
  rw [hrename]
  generalize (d.insert c.temp ⟨true, bytes⟩).erase c.temp = closed at hopen ⊢
  have hcompleted : completed c.name ⟨true, bytes⟩ = true := by
    simp [completed, Capture.name, c.named]
  have hshrunk := shrunk_erase closed c.name
  have hcount : count (closed.insert c.name ⟨true, bytes⟩) = 1 + count (closed.erase c.name) := by
    rw [count, weight_insert, if_pos hcompleted]
    rfl
  have htotal : total (closed.insert c.name ⟨true, bytes⟩) =
      bytes.length + total (closed.erase c.name) := by
    rw [total, weight_insert, if_pos hcompleted]
    rfl
  refine ⟨⟨?_, ?_⟩, ⟨bytes, AList.lookup_insert _, hholds⟩, fun name hname hne => ?_⟩
  · have := hwithin.count
    have := hshrunk.count
    have := hopen.count
    omega
  · have := hwithin.total
    have := hshrunk.total
    have := hopen.total
    omega
  · rw [AList.lookup_insert_ne hne, hopen.lookup name hname]

theorem publish_cases (finds : PersistFinds) (hwithin : Within cfg d) :
    Refused d (publish cfg enc c finds d) ∨
      ∃ before m, Published cfg enc c d m ∧ (∀ l ∈ before, Untouched d l) ∧
        publish cfg enc c finds d =
          { prune cfg c.name finds.prune m with
            error := (prune cfg c.name finds.prune m).error.map .published }.after
              (before ++ [m]) := by
  simp only [publish]
  split
  · refine .inl ⟨⟨.system, rfl, by simp⟩, ?_, ?_⟩
    · intro l hl
      rcases List.mem_append.1 hl with hl | hl
      · exact untouched_written hl
      · rw [List.mem_singleton.1 hl, last_written]
        split
        · exact (untouched_insert (temp_not_completed c) d _).trans
            (untouched_erase (temp_not_completed c) _)
        · exact untouched_insert (temp_not_completed c) d _
    · rw [last_written]
      split
      · exact (untouched_insert (temp_not_completed c) d _).trans
          (untouched_erase (temp_not_completed c) _)
      · exact untouched_insert (temp_not_completed c) d _
  · rename_i hworks
    rw [not_or, not_or] at hworks
    obtain ⟨hcut, hdone, _⟩ := hworks
    obtain ⟨encoded, hlines, hflatten⟩ := pieces_flatten (by simpa using hcut)
    have hroom : 0 ≤ cfg.MaxDiskBytes := by
      have := hwithin.total
      omega
    obtain ⟨hwritten, hsize⟩ := writeAll_eq (by simpa using hdone) hroom
    rw [List.nil_append, hflatten, List.nil_append] at hwritten
    rw [hflatten, List.nil_append] at hsize
    refine .inr ⟨_, _, ?_, fun l hl => untouched_written hl, rfl⟩
    rw [last_written, hwritten]
    exact published_rename hwithin ⟨encoded, hlines, rfl⟩ hsize

theorem persist_cases (cfg : Config) (enc : Encoder M) (c : Capture M) (finds : PersistFinds)
    (d : Directory) :
    Refused d (persist cfg enc c finds d) ∨
      ∃ before m, Published cfg enc c d m ∧ (∀ l ∈ before, Untouched d l) ∧
        persist cfg enc c finds d =
          { prune cfg c.name finds.prune m with
            error := (prune cfg c.name finds.prune m).error.map .published }.after
              (before ++ [m]) := by
  unfold persist
  split
  · exact .inl (.at_once (by simp))
  · split
    · exact .inl (.at_once (by simp))
    · split
      · exact .inl (.at_once (by simp))
      · cases hscan : scanCompleted d finds.scan with
        | none => exact .inl (.at_once (by simp))
        | some r =>
          obtain ⟨files, t⟩ := r
          obtain ⟨_, hn, ht⟩ := scanCompleted_eq hscan
          simp only
          split
          · exact .inl (.at_once (by simp))
          · rename_i hlimits
            split
            · exact .inl (.at_once (by simp))
            · refine publish_cases finds ((within_iff hn ht).1 ?_)
              rw [not_or, not_lt, not_lt] at hlimits
              exact hlimits

/-! ## Every call -/

theorem Prunes.shrunk {removed : List String} (h : Prunes cfg candidates d o removed)
    (hm : m ∈ o.dir :: o.moments) : Shrunk d m := by
  rw [h.dir, h.moments] at hm
  rcases List.mem_cons.1 hm with rfl | hm
  · exact shrunk_eraseAll removed d
  · exact shrunk_eraseEach hm

theorem Delete_shrunk (name : String) (finds : DeleteFinds)
    (hm : m ∈ (Delete name finds d).dir :: (Delete name finds d).moments) : Shrunk d m := by
  have hnothing : ∀ e : Option StorageError,
      m ∈ ({ dir := d, error := e } : Outcome).dir :: ({ dir := d, error := e } : Outcome).moments →
        Shrunk d m := fun e hm => by
    obtain rfl : m = d := by simpa using hm
    exact .refl m
  unfold Delete at hm
  split at hm
  · exact hnothing _ hm
  · split at hm
    · exact hnothing _ hm
    · split at hm
      · exact hnothing _ hm
      · split at hm
        · exact hnothing _ hm
        · split at hm
          · exact hnothing _ hm
          · obtain rfl : m = d.erase name := by simpa using hm
            exact shrunk_erase d name

/-- What a directory of a call holds of the completed names. -/
structure Comes (cfg : Config) (enc : Encoder M) (call : Call M) (d m : Directory) : Prop where
  oneMore : OneMore cfg d → OneMore cfg m
  lookup : ∀ name e, snapshotName name = true → m.lookup name = some e →
    d.lookup name = some e ∨
      ∃ c finds, call = .persist c finds ∧ name = c.name ∧ Holds enc c e.bytes

variable {call : Call M}

theorem Shrunk.comes (h : Shrunk d m) : Comes cfg enc call d m :=
  ⟨h.oneMore, fun name e _ hl => .inl (h.lookup name e hl)⟩

theorem Untouched.comes (h : Untouched d m) : Comes cfg enc call d m := by
  refine ⟨fun hd => ⟨?_, ?_⟩, fun name e hname hl => .inl ?_⟩
  · rw [h.count]
    exact hd.count
  · rw [h.total]
    exact hd.total
  · rwa [h.lookup name hname] at hl

theorem Published.comes {finds : PersistFinds} (h : Published cfg enc c d m) :
    Comes cfg enc (.persist c finds) d m := by
  refine ⟨fun _ => h.oneMore, fun name e hname hl => ?_⟩
  by_cases hown : name = c.name
  · subst hown
    obtain ⟨bytes, hlookup, hholds⟩ := h.own
    obtain rfl : (⟨true, bytes⟩ : Entry) = e := Option.some.inj (hlookup.symm.trans hl)
    exact .inr ⟨c, finds, rfl, rfl, hholds⟩
  · rw [h.others name hname hown] at hl
    exact .inl hl

theorem Comes.shrunk (h : Comes cfg enc call d m) (hl : Shrunk m l) : Comes cfg enc call d l :=
  ⟨fun hd => hl.oneMore (h.oneMore hd), fun name e hname hlookup =>
    h.lookup name e hname (hl.lookup name e hlookup)⟩

theorem perform_comes (cfg : Config) (enc : Encoder M) (call : Call M)
    (hm : m ∈ (perform cfg enc d call).dir :: (perform cfg enc d call).moments) :
    Comes cfg enc call d m := by
  cases call with
  | persist c finds =>
    rw [perform] at hm
    rcases persist_cases cfg enc c finds d with h | ⟨before, p, hpublished, hbefore, heq⟩
    · rcases List.mem_cons.1 hm with rfl | hm
      · exact h.dir.comes
      · exact (h.moments m hm).comes
    · obtain ⟨candidates, removed, _, hprunes⟩ := prune_prunes cfg c.name finds.prune p
      rw [heq] at hm
      simp only [Outcome.after, List.append_assoc, List.mem_cons, List.mem_append,
        List.not_mem_nil, or_false] at hm
      rcases hm with hm | hm | hm | hm
      · exact hpublished.comes.shrunk (hprunes.shrunk (List.mem_cons.2 (.inl hm)))
      · exact (hbefore m hm).comes
      · subst hm
        exact hpublished.comes
      · exact hpublished.comes.shrunk (hprunes.shrunk (List.mem_cons.2 (.inr hm)))
  | prune keep finds =>
    obtain ⟨candidates, removed, _, hprunes⟩ := prune_prunes cfg keep finds d
    exact (hprunes.shrunk hm).comes
  | Delete name finds => exact (Delete_shrunk name finds hm).comes

/-! ## Whole runs -/

structure Performed (M : Type) where
  call : Call M
  before : Directory
  outcome : Outcome

/-- The calls, the last one first. -/
def record (cfg : Config) (enc : Encoder M) (start : Directory) :
    List (Call M) → List (Performed M)
  | [] => []
  | call :: past =>
    { call
      before := directoryAfter cfg enc start past
      outcome := perform cfg enc (directoryAfter cfg enc start past) call } ::
        record cfg enc start past

def Performed.directories (e : Performed M) : List Directory :=
  e.before :: e.outcome.dir :: e.outcome.moments

/-- What one call of a run does and leaves. -/
structure Retained (cfg : Config) (enc : Encoder M) (start : Directory) (e : Performed M)
    (past : List (Performed M)) : Prop where
  bounded : ∀ m ∈ e.directories, OneMore cfg m
  whole : ∀ m ∈ e.directories, ∀ name entry, snapshotName name = true →
    m.lookup name = some entry → start.lookup name = some entry ∨
      ∃ e' ∈ e :: past, ∃ c finds, e'.call = .persist c finds ∧ name = c.name ∧
        Holds enc c entry.bytes
  persisted : ∀ c finds, e.call = .persist c finds → e.outcome.error = none →
    Within cfg e.outcome.dir ∧
      ∃ bytes, e.outcome.dir.lookup c.name = some ⟨true, bytes⟩ ∧ Holds enc c bytes
  /-- Before it publishes, a failing `persist` leaves every completed name alone. -/
  refused : ∀ c finds err, e.call = .persist c finds → e.outcome.error = some err →
    (∀ err', err ≠ .published err') → ∀ m ∈ e.directories, ∀ name, snapshotName name = true →
      m.lookup name = e.before.lookup name
  pruned : ∀ keep finds, e.call = .prune keep finds → ∃ candidates removed,
    Candidates e.before keep candidates ∧ Prunes cfg candidates e.before e.outcome removed
  /-- The same behind a publication. -/
  cleaned : ∀ c finds, e.call = .persist c finds →
    (e.outcome.error = none ∨ ∃ err, e.outcome.error = some (.published err)) →
      ∃ (before : List Directory) (m : Directory) (o : Outcome) (candidates removed : List String),
        e.outcome.dir = o.dir ∧ e.outcome.moments = before ++ m :: o.moments ∧
          Candidates m c.name candidates ∧ Prunes cfg candidates m o removed

/-- Where what stands under a completed name comes from. -/
def Whole (enc : Encoder M) (start : Directory) (past : List (Performed M)) (m : Directory) :
    Prop :=
  ∀ name entry, snapshotName name = true → m.lookup name = some entry →
    start.lookup name = some entry ∨
      ∃ e' ∈ past, ∃ c finds, e'.call = .persist c finds ∧ name = c.name ∧
        Holds enc c entry.bytes

theorem Comes.whole {past : List (Performed M)} (h : Comes cfg enc call d m)
    (hd : Whole enc start past d) : Whole enc start (⟨call, d, o⟩ :: past) m := by
  intro name entry hname hlookup
  rcases h.lookup name entry hname hlookup with hlookup | ⟨c, finds, hcall, hown, hholds⟩
  · rcases hd name entry hname hlookup with hstart | ⟨e', he', h'⟩
    · exact .inl hstart
    · exact .inr ⟨e', List.mem_cons_of_mem _ he', h'⟩
  · exact .inr ⟨_, List.mem_cons_self, c, finds, hcall, hown, hholds⟩

theorem directoryAfter_kept (enc : Encoder M) (hstart : OneMore cfg start) (calls : List (Call M)) :
    OneMore cfg (directoryAfter cfg enc start calls) ∧
      Whole enc start (record cfg enc start calls) (directoryAfter cfg enc start calls) := by
  induction calls with
  | nil => exact ⟨hstart, fun name entry _ h => .inl h⟩
  | cons call past ih =>
    have hcomes := perform_comes cfg enc (d := directoryAfter cfg enc start past) call
      List.mem_cons_self
    exact ⟨hcomes.oneMore ih.1, hcomes.whole ih.2⟩

theorem lookup_kept {keep : String} {removed : List String}
    (hcandidates : Candidates d keep candidates) (h : Prunes cfg candidates d o removed) :
    o.dir.lookup keep = d.lookup keep := by
  rw [h.dir]
  refine lookup_eraseAll (fun hmem => ?_) d
  exact ((hcandidates.mem keep).1 (h.inOrder.subset hmem)).1 rfl

theorem retained (cfg : Config) (enc : Encoder M) {before : Directory} {past : List (Performed M)}
    (hbefore : OneMore cfg before) (hwhole : Whole enc start past before) (call : Call M) :
    Retained cfg enc start ⟨call, before, perform cfg enc before call⟩ past where
  bounded m hm := by
    rcases List.mem_cons.1 hm with rfl | hm
    · exact hbefore
    · exact (perform_comes cfg enc call hm).oneMore hbefore
  whole m hm := by
    rcases List.mem_cons.1 hm with rfl | hm
    · have hself : Comes cfg enc call m m := (Untouched.refl m).comes
      exact hself.whole hwhole
    · exact (perform_comes cfg enc call hm).whole hwhole
  persisted c finds hcall hnone := by
    subst hcall
    rcases persist_cases cfg enc c finds before with h | ⟨earlier, m, hpublished, _, heq⟩
    · obtain ⟨e, herror, _⟩ := h.error
      exact absurd (herror.symm.trans hnone) (by simp)
    · obtain ⟨candidates, removed, hcandidates, hprunes⟩ :=
        prune_prunes cfg c.name finds.prune m
      simp only [perform, heq, Outcome.after, Option.map_eq_none_iff] at hnone ⊢
      exact ⟨hprunes.within hnone, by rw [lookup_kept hcandidates hprunes]; exact hpublished.own⟩
  refused c finds err hcall herr hnot m hm name hname := by
    subst hcall
    rcases persist_cases cfg enc c finds before with h | ⟨earlier, m', hpublished, _, heq⟩
    · rcases List.mem_cons.1 hm with rfl | hm
      · rfl
      · rcases List.mem_cons.1 hm with rfl | hm
        · exact h.dir.lookup name hname
        · exact (h.moments m hm).lookup name hname
    · simp only [perform, heq, Outcome.after, Option.map_eq_some_iff] at herr
      obtain ⟨e, _, rfl⟩ := herr
      exact absurd rfl (hnot e)
  pruned keep finds hcall := by
    subst hcall
    exact prune_prunes cfg keep finds before
  cleaned c finds hcall herror := by
    subst hcall
    rcases persist_cases cfg enc c finds before with h | ⟨earlier, m, hpublished, _, heq⟩
    · obtain ⟨e, he, hnot⟩ := h.error
      rcases herror with hnone | ⟨err, hsome⟩
      · exact absurd (he.symm.trans hnone) (by simp)
      · exact absurd (Option.some.inj (he.symm.trans hsome)) (hnot err)
    · obtain ⟨candidates, removed, hcandidates, hprunes⟩ :=
        prune_prunes cfg c.name finds.prune m
      refine ⟨earlier, m, _, candidates, removed, ?_, ?_, hcandidates, hprunes⟩
      · simp only [perform, heq, Outcome.after]
      · simp only [perform, heq, Outcome.after]
        rw [List.append_assoc]
        rfl

/-- Each value is a line with nothing on it. -/
def blankLines : Encoder Unit where
  metadata _ := some [10]
  observation _ _ := some [10]
  summary _ := some [10]

def incident : Capture Unit where
  CaptureID := "blackbox-20261016T120000.000000000Z-0123456789abcdef"
  metadata := ()
  trigger := 0
  observations := [⟨-1, "odom", []⟩]
  bytes := 260
  named := by decide

/-- Nothing fails but the cleanup. -/
def onlyCleanupFails : PersistFinds where
  free := none
  openRoot := true
  scan := true
  openFile := true
  io _ := none
  sync := true
  close := true
  rename := true
  removeTemp := true
  prune := { openRoot := true, scan := true, removeCompleted := fun _ => .failed }

end Blackbox
end Mowgli
