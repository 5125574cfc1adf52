import Mowgli.Fusion.Checkpoint

/-!
# CrashSafe — what a crash leaves of the checkpoints

`Save` and `Clear` in any order, each system call of which may fail, and which a crash may cut
between any two. `Intact` is what every one of these points keeps, **said of every file a name
may go back to**: what is under the current and the previous name is a whole generation,
nothing from before the last completed `Clear`; under the current name is nothing older than
the generation that is `secured`, and where that does not load, the previous one does.
-/

namespace Mowgli
namespace Fusion
namespace Checkpoint

variable {Pose : Type} {A : Archive Pose}

/-! ## A generation reads as what was written -/

theorem readSizes_decimal {m g c : Nat} (hm : m < 2 ^ 64) (hg : g < 2 ^ 64) (hc : c < 2 ^ 32) :
    readSizes (Text.decimal m ++ ' ' :: (Text.decimal g ++ ' ' :: Text.decimal c)) =
      some (m, g, c) := by
  have hspace (rest : List Char) : Text.Ends (' ' :: rest) := by
    intro d hd
    cases hd
    decide
  have hlast := @Text.unsigned_decimal _ _ hc [] nofun
  rw [List.append_nil] at hlast
  unfold readSizes
  rw [Text.unsigned_decimal hm (hspace _)]
  dsimp only
  rw [Text.unsigned_space, Text.unsigned_decimal hg (hspace _)]
  dsimp only
  rw [Text.unsigned_space, hlast]
  rfl

theorem read_frame (p : Payload) : read A (frame A p) = some p := by
  obtain ⟨graph, metadata, hgraph, hmetadata⟩ := p
  have hframe : frame A ⟨graph, metadata, hgraph, hmetadata⟩ = kMagic ++ '\n' ::
      ((Text.decimal metadata.length ++ ' ' :: (Text.decimal graph.length ++ ' ' ::
        Text.decimal (checksum A metadata graph).toNat)) ++ '\n' :: (metadata ++ graph)) := by
    simp [frame, framing]
  have hmagic : '\n' ∉ kMagic := by decide
  have hsizes : '\n' ∉ Text.decimal metadata.length ++ ' ' :: (Text.decimal graph.length ++ ' ' ::
      Text.decimal (checksum A metadata graph).toNat) := by
    simp [Text.not_mem_decimal (show Char.isDigit '\n' = false by decide)]
  rw [hframe]
  unfold read
  rw [Text.getline_append hmagic]
  dsimp only
  rw [if_neg (by simp), Text.getline_append hsizes]
  dsimp only
  rw [readSizes_decimal hmetadata hgraph (checksum A metadata graph).toNat_lt]
  have hgraph64 : graph.length < 18446744073709551616 := hgraph
  have hmetadata64 : metadata.length < 18446744073709551616 := hmetadata
  simp [hgraph64, hmetadata64]

/-! ## What the log says -/

/-- The generations, by their numbers. -/
def gens : List Mark → List Payload
  | [] => []
  | .saving p :: past => gens past ++ [p]
  | _ :: past => gens past

/-- How many there were at the last completed `Clear`. -/
def cleared : List Mark → Option Nat
  | [] => none
  | .cleared :: past => some (gens past).length
  | _ :: past => cleared past

/-- The last generation that was saved with success and that `Load` can decode, if no `Clear`
    was begun since. A save of one it cannot decode gives that up only where it could not read
    the current file, which is then published over without a backup. -/
def secured (A : Archive Pose) : List Mark → Option Nat
  | [] => none
  | .saving _ :: past => secured A past
  | .unread :: past => if (gens past).getLast?.any (decodes A) then secured A past else none
  | .saved :: past =>
    if (gens past).getLast?.any (decodes A) then some ((gens past).length - 1) else secured A past
  | .clearing :: _ => none
  | .cleared :: past => secured A past

/-- What is being saved. -/
def asked : List Mark → Option Payload
  | .saving p :: _ => some p
  | .unread :: past => asked past
  | _ => none

/-- The payload is the one of a generation from number `n` on. -/
def From (log : List Mark) (n : Nat) (p : Payload) : Prop := ∃ m, n ≤ m ∧ (gens log)[m]? = some p

variable {log : List Mark} {n : Nat} {p : Payload}

theorem cleared_le (h : cleared log = some n) : n ≤ (gens log).length := by
  induction log with
  | nil => cases h
  | cons mark past ih =>
    cases mark with
    | saving p =>
      have hpast := ih h
      rw [gens, List.length_append]
      omega
    | unread => exact ih h
    | saved => exact ih h
    | clearing => exact ih h
    | cleared =>
      cases h
      exact Nat.le_refl _

theorem secured_lt (h : secured A log = some n) : n < (gens log).length := by
  induction log generalizing n with
  | nil => cases h
  | cons mark past ih =>
    cases mark with
    | saving p =>
      have hpast := ih h
      rw [gens, List.length_append]
      omega
    | unread =>
      rw [secured] at h
      split at h
      · exact ih h
      · cases h
    | saved =>
      rw [secured] at h
      split at h
      · rename_i hany
        cases h
        have hne : gens past ≠ [] := by
          intro hnil
          rw [hnil] at hany
          cases hany
        have hlength := List.length_pos_iff.2 hne
        show (gens past).length - 1 < (gens past).length
        omega
      · exact ih h
    | clearing => cases h
    | cleared => exact ih h

/-- It is the last generation, and nothing was cleared since it was asked for. -/
theorem asked_last (h : asked log = some p) :
    (gens log).getLast? = some p ∧ (cleared log).getD 0 < (gens log).length := by
  induction log with
  | nil => cases h
  | cons mark past ih =>
    cases mark with
    | saving q =>
      cases h
      refine ⟨by simp [gens], ?_⟩
      rw [gens, List.length_append]
      show (cleared past).getD 0 < (gens past).length + 1
      cases hcleared : cleared past with
      | none => exact Nat.succ_pos _
      | some n => exact Nat.lt_succ_of_le (cleared_le hcleared)
    | unread => exact ih h
    | saved => cases h
    | clearing => cases h
    | cleared => cases h

/-- What is still secured when the current file could not be read. -/
theorem secured_unread (hp : asked log = some p) (h : secured A (.unread :: log) = some n) :
    decodes A p = true ∧ secured A log = some n := by
  rw [secured, (asked_last hp).1] at h
  split at h
  · rename_i hany
    exact ⟨hany, h⟩
  · cases h

theorem From.mono {n' : Nat} (h : From log n p) (hle : n' ≤ n) : From log n' p := by
  obtain ⟨m, hm, hp⟩ := h
  exact ⟨m, Nat.le_trans hle hm, hp⟩

/-- The generations of a log stay what they are. -/
theorem From.push (h : From log n p) (mark : Mark) : From (mark :: log) n p := by
  obtain ⟨m, hm, hp⟩ := h
  refine ⟨m, hm, ?_⟩
  cases mark with
  | saving q =>
    obtain ⟨hlt, -⟩ := List.getElem?_eq_some_iff.1 hp
    rw [gens, List.getElem?_append_left hlt]
    exact hp
  | unread => exact hp
  | saved => exact hp
  | clearing => exact hp
  | cleared => exact hp

theorem From.last (h : (gens log).getLast? = some p) : From log ((gens log).length - 1) p :=
  ⟨_, Nat.le_refl _, by rw [← h, List.getLast?_eq_getElem?]⟩

/-! ## What a crash may find -/

variable (start : Disk Name Char)

/-- Nothing is on its way to the disk. -/
structure Quiet (d : Disk Name Char) : Prop where
  settled : ∀ name, (d.entry name).pending = []
  synced : ∀ i, i < d.next → (d.file i).synced = true
  numbered : ∀ name i, d.visible name = some i → i < d.next

def Name.isTmp : Name → Bool
  | .tmp _ => true
  | _ => false

/-- A file is worth its place: it was there at the start and nothing was cleared since, or it
    is a generation from after the last completed `Clear`. -/
def Worth (A : Archive Pose) (s : Host) (i : Nat) : Prop :=
  (cleared s.log = none ∧ (start.visible .current = some i ∨ start.visible .previous = some i)) ∨
    ∃ p, (s.disk.file i).bytes = frame A p ∧ From s.log ((cleared s.log).getD 0) p

/-- A name may stand for this file, which is a generation from number `n` on of which `P`. -/
def Stands (P : Payload → Prop) (A : Archive Pose) (s : Host) (n : Nat) (c : Option Nat) : Prop :=
  ∃ i p, c = some i ∧ (s.disk.file i).bytes = frame A p ∧ From s.log n p ∧ P p

/-- And it loads. -/
abbrev Good (A : Archive Pose) : Host → Nat → Option Nat → Prop :=
  Stands (fun p => decodes A p = true) A

/-- A generation from number `n` on is loaded, whatever a crash leaves. -/
structure Survives (A : Archive Pose) (s : Host) (n : Nat) : Prop where
  current : ∀ c ∈ s.disk.candidates .current, Stands (fun _ => True) A s n c
  loads : (∀ c ∈ s.disk.candidates .current, Good A s n c) ∨
    ∀ c ∈ s.disk.candidates .previous, Good A s n c

variable {s : Host}

theorem Stands.push {P : Payload → Prop} {c : Option Nat} (h : Stands P A s n c) (mark : Mark) :
    Stands P A { s with log := mark :: s.log } n c := by
  obtain ⟨i, p, hc, hbytes, hfrom, hp⟩ := h
  exact ⟨i, p, hc, hbytes, hfrom.push mark, hp⟩

variable {d : Disk Name Char}

theorem Stands.keep {P : Payload → Prop} {c : Option Nat} (h : Stands P A s n c)
    (hd : ∀ i, c = some i → d.file i = s.disk.file i) : Stands P A { s with disk := d } n c := by
  obtain ⟨i, p, hc, hbytes, hrest⟩ := h
  exact ⟨i, p, hc, (congrArg Disk.File.bytes (hd i hc)).trans hbytes, hrest⟩

theorem Survives.push (h : Survives A s n) (mark : Mark) :
    Survives A { s with log := mark :: s.log } n :=
  ⟨fun c hc => (h.current c hc).push mark, h.loads.imp (fun hall c hc => (hall c hc).push mark)
    fun hall c hc => (hall c hc).push mark⟩

/-- Names that go back, with their files as they are. -/
theorem Survives.sub (h : Survives A s n)
    (hcand : ∀ name, name.isTmp = false → ∀ c ∈ d.candidates name, c ∈ s.disk.candidates name)
    (hfile : ∀ name, name.isTmp = false → ∀ i, some i ∈ s.disk.candidates name →
      d.file i = s.disk.file i) : Survives A { s with disk := d } n := by
  have hkeep {P : Payload → Prop} (name : Name) (hname : name.isTmp = false)
      (hall : ∀ c ∈ s.disk.candidates name, Stands P A s n c) :
      ∀ c ∈ d.candidates name, Stands P A { s with disk := d } n c := by
    intro c hc
    have hc := hcand name hname c hc
    refine (hall c hc).keep fun i hi => ?_
    subst hi
    exact hfile name hname i hc
  exact ⟨hkeep .current rfl h.current, h.loads.imp (hkeep .current rfl) (hkeep .previous rfl)⟩

structure Intact (A : Archive Pose) (s : Host) : Prop where
  old : ∀ i, i < start.next → s.disk.file i = start.file i
  grown : start.next ≤ s.disk.next
  numbered : ∀ name i, some i ∈ s.disk.candidates name → i < s.disk.next
  synced : ∀ name i, name.isTmp = false → some i ∈ s.disk.candidates name →
    (s.disk.file i).synced = true
  worth : ∀ name i, name = .current ∨ name = .previous → some i ∈ s.disk.candidates name →
    Worth start A s i
  legacy : ∀ name i, name = .graph ∨ name = .metadata → some i ∈ s.disk.candidates name →
    cleared s.log = none ∧ start.visible name = some i
  /-- What came to the second name could be loaded. -/
  previous : ∀ i, some i ∈ s.disk.candidates .previous →
    start.visible .previous = some i ∨ (loadable A (some (s.disk.file i).bytes)).isSome = true
  newest : ∀ n, secured A s.log = some n → Survives A s n

/-! ## One step -/

namespace Intact

variable {start} {s : Host}

/-- Work on temporary names and on files that have no other name. -/
theorem beside (h : Intact start A s)
    (hentry : ∀ name, name.isTmp = false → d.entry name = s.disk.entry name)
    (hfile : ∀ i, (i < start.next ∨ ∃ name, name.isTmp = false ∧ some i ∈ s.disk.candidates name) →
      d.file i = s.disk.file i) (hnext : s.disk.next ≤ d.next)
    (hnumbered : ∀ n i, some i ∈ d.candidates (.tmp n) → i < d.next) :
    Intact start A { s with disk := d } := by
  have hcand (name : Name) (hname : name.isTmp = false) :
      d.candidates name = s.disk.candidates name := by
    unfold Disk.candidates
    rw [hentry name hname]
  have hsame (name : Name) (hname : name.isTmp = false) (i : Nat)
      (hi : some i ∈ s.disk.candidates name) : d.file i = s.disk.file i :=
    hfile i (.inr ⟨name, hname, hi⟩)
  refine ⟨fun i hi => (hfile i (.inl hi)).trans (h.old i hi), Nat.le_trans h.grown hnext,
    fun name i hi => ?_, fun name i hname hi => ?_, fun name i hname hi => ?_,
    fun name i hname hi => ?_, fun i hi => ?_, fun n hn => (h.newest n hn).sub
      (fun name hname c hc => hcand name hname ▸ hc) hsame⟩
  · cases hname : name.isTmp with
    | true =>
      cases name with
      | tmp n => exact hnumbered n i hi
      | _ => cases hname
    | false => exact Nat.lt_of_lt_of_le (h.numbered name i (hcand name hname ▸ hi)) hnext
  · show (d.file i).synced = true
    have hi : some i ∈ s.disk.candidates name := hcand name hname ▸ hi
    rw [hsame name hname i hi]
    exact h.synced name i hname hi
  · have htmp : name.isTmp = false := by rcases hname with rfl | rfl <;> rfl
    have hi : some i ∈ s.disk.candidates name := hcand name htmp ▸ hi
    unfold Worth
    rw [hsame name htmp i hi]
    exact h.worth name i hname hi
  · have htmp : name.isTmp = false := by rcases hname with rfl | rfl <;> rfl
    exact h.legacy name i hname (hcand name htmp ▸ hi)
  · have hi : some i ∈ s.disk.candidates .previous := hcand .previous rfl ▸ hi
    show _ ∨ (loadable A (some (d.file i).bytes)).isSome = true
    rw [hsame .previous rfl i hi]
    exact h.previous i hi

/-- Names that go back, or away: what is left is what there was. -/
theorem shrink (h : Intact start A s)
    (hcand : ∀ name c, c ∈ d.candidates name → c ∈ s.disk.candidates name ∨
      (c = none ∧ (name.isTmp = false → secured A s.log = none)))
    (hfile : ∀ i, (s.disk.file i).synced = true → d.file i = s.disk.file i) (hstart : Quiet start)
    (hnext : d.next = s.disk.next) : Intact start A { s with disk := d } := by
  have hsome (name : Name) (i : Nat) (hi : some i ∈ d.candidates name) :
      some i ∈ s.disk.candidates name := by
    rcases hcand name _ hi with hi | ⟨hnone, -⟩
    · exact hi
    · cases hnone
  have hsame (name : Name) (hname : name.isTmp = false) (i : Nat)
      (hi : some i ∈ s.disk.candidates name) : d.file i = s.disk.file i :=
    hfile i (h.synced name i hname hi)
  refine ⟨fun i hi => ?_, hnext ▸ h.grown, fun name i hi => ?_, fun name i hname hi => ?_,
    fun name i hname hi => ?_, fun name i hname hi => h.legacy name i hname (hsome name i hi),
    fun i hi => ?_, fun n hn => (h.newest n hn).sub (fun name hname c hc => ?_) hsame⟩
  · have hold := h.old i hi
    exact (hfile i (by rw [hold]; exact hstart.synced i hi)).trans hold
  · show i < d.next
    rw [hnext]
    exact h.numbered name i (hsome name i hi)
  · show (d.file i).synced = true
    rw [hsame name hname i (hsome name i hi)]
    exact h.synced name i hname (hsome name i hi)
  · have htmp : name.isTmp = false := by rcases hname with rfl | rfl <;> rfl
    unfold Worth
    rw [hsame name htmp i (hsome name i hi)]
    exact h.worth name i hname (hsome name i hi)
  · show _ ∨ (loadable A (some (d.file i).bytes)).isSome = true
    rw [hsame .previous rfl i (hsome _ i hi)]
    exact h.previous i (hsome _ i hi)
  · rcases hcand name c hc with hc | ⟨-, hnone⟩
    · exact hc
    · rw [hnone hname] at hn
      cases hn

theorem fsyncDir (h : Intact start A s) (hstart : Quiet start) :
    Intact start A { s with disk := s.disk.fsyncDir } := by
  refine h.shrink (fun name c hc => .inl ?_) (fun _ _ => rfl) hstart rfl
  rw [Disk.Entry.mem_settle.1 hc]
  exact (s.disk.entry name).visible_mem

theorem crash (h : Intact start A s) (hstart : Quiet start) (kept : Name → Nat)
    (junk : Nat → List Char) : Intact start A { s with disk := s.disk.crash kept junk } :=
  h.shrink (fun _ _ hc => .inl (Disk.Entry.crash_candidates hc)) (fun _ hi => if_pos hi) hstart rfl

/-- Removing a name of `Clear`, or a temporary one. -/
theorem unlink (h : Intact start A s) (hstart : Quiet start) {name : Name}
    (hname : name.isTmp = false → secured A s.log = none) :
    Intact start A { s with disk := s.disk.unlink name } := by
  refine h.shrink (fun name' c hc => ?_) (fun i _ => by rw [Disk.file_unlink]) hstart
    (Disk.next_unlink name)
  by_cases hsame : name' = name
  · subst hsame
    rcases Disk.mem_unlink hc with rfl | hc
    · exact .inr ⟨rfl, hname⟩
    · exact .inl hc
  · unfold Disk.candidates at hc
    rw [Disk.entry_unlink_other hsame] at hc
    exact .inl hc

/-- A file takes one of the two names. -/
theorem place (h : Intact start A s) {dst : Name} {i : Nat} (hfile : d.file = s.disk.file)
    (hnext : d.next = s.disk.next) (hdst : dst = .current ∨ dst = .previous)
    (hcand : ∀ c ∈ d.candidates dst, c = some i ∨ c ∈ s.disk.candidates dst)
    (hothers : ∀ name, name ≠ dst → name.isTmp = false → d.entry name = s.disk.entry name)
    (hnumbered : ∀ name j, some j ∈ d.candidates name → j < s.disk.next)
    (hsynced : (s.disk.file i).synced = true) (hworth : Worth start A s i)
    (hprevious : dst = .previous → (loadable A (some (s.disk.file i).bytes)).isSome = true ∧
      ∀ n, secured A s.log = some n → Good A s n (some i))
    (hcurrent : dst = .current → ∀ n, secured A s.log = some n →
      Good A s n (some i) ∨ (Stands (fun _ => True) A s n (some i) ∧
        ∀ c ∈ s.disk.candidates .previous, Good A s n c)) :
    Intact start A { s with disk := d } := by
  have hsome (name : Name) (hname : name.isTmp = false) (j : Nat) (hj : some j ∈ d.candidates name) :
      (name = dst ∧ j = i) ∨ some j ∈ s.disk.candidates name := by
    by_cases hsame : name = dst
    · subst hsame
      rcases hcand _ hj with heq | hj
      · cases heq
        exact .inl ⟨rfl, rfl⟩
      · exact .inr hj
    · unfold Disk.candidates at hj
      rw [hothers name hsame hname] at hj
      exact .inr hj
  refine ⟨fun j hj => ?_, hnext ▸ h.grown, fun name j hj => ?_, fun name j hname hj => ?_,
    fun name j hname hj => ?_, fun name j hname hj => ?_, fun j hj => ?_, fun n hn => ?_⟩
  · show d.file j = _
    rw [hfile]
    exact h.old j hj
  · show j < d.next
    rw [hnext]
    exact hnumbered name j hj
  · show (d.file j).synced = true
    rw [hfile]
    rcases hsome name hname j hj with ⟨-, rfl⟩ | hj
    · exact hsynced
    · exact h.synced name j hname hj
  · have htmp : name.isTmp = false := by rcases hname with rfl | rfl <;> rfl
    unfold Worth
    rw [hfile]
    rcases hsome name htmp j hj with ⟨-, rfl⟩ | hj
    · exact hworth
    · exact h.worth name j hname hj
  · have htmp : name.isTmp = false := by rcases hname with rfl | rfl <;> rfl
    rcases hsome name htmp j hj with ⟨rfl, -⟩ | hj
    · rcases hname with rfl | rfl <;> rcases hdst with hdst | hdst <;> cases hdst
    · exact h.legacy name j hname hj
  · show _ ∨ (loadable A (some (d.file j).bytes)).isSome = true
    rw [hfile]
    rcases hsome .previous rfl j hj with ⟨hname, rfl⟩ | hj
    · exact .inr (hprevious hname.symm).1
    · exact h.previous j hj
  · obtain ⟨hnew, hloads⟩ := h.newest n hn
    have hkeep {P : Payload → Prop} {c : Option Nat} (hc : Stands P A s n c) :
        Stands P A { s with disk := d } n c := hc.keep fun j _ => congrFun hfile j
    have hother (name : Name) (hname : name ≠ dst) (htmp : name.isTmp = false) {c : Option Nat}
        (hc : c ∈ d.candidates name) : c ∈ s.disk.candidates name := by
      unfold Disk.candidates at hc
      rwa [hothers name hname htmp] at hc
    rcases hdst with rfl | rfl
    · have hprev {c : Option Nat} := @hother .previous nofun rfl c
      refine ⟨fun c hc => hkeep ?_, ?_⟩
      · rcases hcand c hc with rfl | hc
        · rcases hcurrent rfl n hn with ⟨j, p, hj, hbytes, hfrom, -⟩ | ⟨hstands, -⟩
          · exact ⟨j, p, hj, hbytes, hfrom, trivial⟩
          · exact hstands
        · exact hnew c hc
      · rcases hcurrent rfl n hn with hgood | ⟨-, hall⟩
        · refine hloads.imp (fun hall c hc => hkeep ?_) fun hall c hc => hkeep (hall c (hprev hc))
          rcases hcand c hc with rfl | hc
          · exact hgood
          · exact hall c hc
        · exact .inr fun c hc => hkeep (hall c (hprev hc))
    · have hcur {c : Option Nat} := @hother .current nofun rfl c
      refine ⟨fun c hc => hkeep (hnew c (hcur hc)), hloads.imp
        (fun hall c hc => hkeep (hall c (hcur hc))) fun hall c hc => hkeep ?_⟩
      rcases hcand c hc with rfl | hc
      · exact (hprevious rfl).2 n hn
      · exact hall c hc

/-! ### Marks -/

/-- Something is noted that completes no `Clear`. -/
theorem mark (h : Intact start A s) {mark : Mark} (hcleared : cleared (mark :: s.log) = cleared s.log)
    (hnewest : ∀ n, secured A (mark :: s.log) = some n →
      Survives A { s with log := mark :: s.log } n) :
    Intact start A { s with log := mark :: s.log } := by
  refine ⟨h.old, h.grown, h.numbered, h.synced, fun name i hname hi => ?_, fun name i hname hi => ?_,
    h.previous, hnewest⟩
  · unfold Worth
    rw [hcleared]
    refine (h.worth name i hname hi).imp id fun hgen => ?_
    obtain ⟨q, hbytes, hfrom⟩ := hgen
    exact ⟨q, hbytes, hfrom.push _⟩
  · obtain ⟨hnone, hvisible⟩ := h.legacy name i hname hi
    exact ⟨hcleared.trans hnone, hvisible⟩

theorem saving (h : Intact start A s) (p : Payload) :
    Intact start A { s with log := .saving p :: s.log } :=
  h.mark rfl fun n hn => (h.newest n hn).push _

theorem unread (h : Intact start A s) : Intact start A { s with log := .unread :: s.log } := by
  refine h.mark rfl fun n hn => ?_
  rw [secured] at hn
  split at hn
  · exact (h.newest n hn).push _
  · cases hn

theorem clearing (h : Intact start A s) : Intact start A { s with log := .clearing :: s.log } :=
  h.mark rfl nofun

/-- `Clear` is done when none of its names can come back. -/
theorem done (h : Intact start A s)
    (hgone : ∀ name, name.isTmp = false → name ≠ .scans → ∀ c ∈ s.disk.candidates name, c = none)
    (hsecured : secured A s.log = none) : Intact start A { s with log := .cleared :: s.log } := by
  have hnothing (name : Name) (i : Nat) (hname : name.isTmp = false) (hscans : name ≠ .scans)
      (hi : some i ∈ s.disk.candidates name) : False := by
    have hnone := hgone name hname hscans _ hi
    cases hnone
  refine ⟨h.old, h.grown, h.numbered, h.synced, fun name i hname hi => ?_, fun name i hname hi => ?_,
    fun i hi => (hnothing .previous i rfl nofun hi).elim, fun n hn => ?_⟩
  · rcases hname with rfl | rfl
    · exact (hnothing .current i rfl nofun hi).elim
    · exact (hnothing .previous i rfl nofun hi).elim
  · rcases hname with rfl | rfl
    · exact (hnothing .graph i rfl nofun hi).elim
    · exact (hnothing .metadata i rfl nofun hi).elim
  · rw [secured, hsecured] at hn
    cases hn

/-- `Save` is done when its generation is all that the current name can stand for. -/
theorem saved (h : Intact start A s) (htop : asked s.log = some p)
    (hcurrent : ∀ c ∈ s.disk.candidates .current, ∃ i, c = some i ∧
      (s.disk.file i).bytes = frame A p) : Intact start A { s with log := .saved :: s.log } := by
  obtain ⟨hlast, -⟩ := asked_last htop
  refine h.mark rfl fun n hn => ?_
  rw [secured, hlast] at hn
  split at hn
  · rename_i hdecodes
    cases hn
    have hgood : ∀ c ∈ s.disk.candidates .current,
        Good A { s with log := .saved :: s.log } ((gens s.log).length - 1) c := by
      intro c hc
      obtain ⟨i, rfl, hbytes⟩ := hcurrent c hc
      exact ⟨i, p, rfl, hbytes, (From.last hlast).push _, hdecodes⟩
    refine ⟨fun c hc => ?_, .inl hgood⟩
    obtain ⟨i, q, hc, hbytes, hfrom, -⟩ := hgood c hc
    exact ⟨i, q, hc, hbytes, hfrom, trivial⟩
  · exact (h.newest n hn).push _

end Intact

end Checkpoint
end Fusion
end Mowgli
