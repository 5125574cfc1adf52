import Mowgli.Fusion.CrashSafe

/-!
# Generations — every run of saves and clears

Each system call of `Save` and `Clear` keeps what `Intact` says, under what the calls before it
have established: the temporary file is the routine's own until it is published, it is written
and synced by then, and what goes to the second name was read and decoded before.
-/

namespace Mowgli
namespace Fusion
namespace Checkpoint

variable {Pose : Type} {A : Archive Pose} {start : Disk Name Char}

/-- Nothing runs between the system calls of the one writer. -/
abbrev writer (start : Disk Name Char) (A : Archive Pose) : Guard Answer Host :=
  Guard.alone Answer (Intact start A)

/-- A call, from what it does. -/
theorem call {α : Type} {P : Host → Prop} {Q : α → Host → Prop} {f : Answer → Host → α × Host}
    (h : ∀ a s, Intact start A s → P s → Intact start A (f a s).2 ∧ Q (f a s).1 (f a s).2) :
    (writer start A).Triple P (.call f) Q :=
  .call Guard.alone_stable fun a s _ hi hp => h a s hi hp

variable {P : Host → Prop} {p : Payload}

theorem andThen_triple {Q : Bool → Host → Prop} {ok : Bool} {m : Sys Bool}
    (hm : ok = true → (writer start A).Triple P m Q) (hfalse : ok = false → ∀ s, P s → Q false s) :
    (writer start A).Triple P (andThen ok m) Q :=
  .ite hm fun hok => .ret fun s _ hp => hfalse (by simpa using hok) s hp

theorem plain_triple : (writer start A).Triple P plain fun _ => P :=
  call fun _ _ hi hp => ⟨hi, hp⟩

theorem loadable_frame (p : Payload) :
    loadable A (some (frame A p)) = if decodes A p then some p else none := by
  simp [loadable, read_frame, Option.filter]

variable {s : Host} {d : Disk Name Char} {file name : Nat}

/-- Where the current file does not load, the previous one does. -/
theorem Survives.undecodable {n : Nat} (h : Survives A s n)
    (hcurrent : ((s.disk.read .current).bind (read A)).any (decodes A) = false) :
    Good A s n (s.disk.visible .previous) := by
  rcases h.loads with hall | hall
  · obtain ⟨i, p, hi, hbytes, -, hp⟩ := hall _ (s.disk.entry .current).visible_mem
    have hi : s.disk.visible .current = some i := hi
    unfold Disk.read at hcurrent
    rw [hi, Option.map_some, hbytes, Option.bind_some, read_frame, Option.any_some, hp] at hcurrent
    cases hcurrent
  · exact hall _ (s.disk.entry .previous).visible_mem

/-! ## Temporary files -/

/-- The current file may be published over: what is secured is safe without it. -/
def Backed (A : Archive Pose) (p : Payload) (s : Host) : Prop :=
  ∀ n, secured A s.log = some n → decodes A p = true ∨ Good A s n (s.disk.visible .previous)

/-- The last thing asked was to save `p`, and the current file is one to back up if that was
    found. -/
structure Saving (A : Archive Pose) (p : Payload) (backup : Bool) (s : Host) : Prop where
  top : asked s.log = some p
  good : backup = true → (loadable A (s.disk.read .current)).isSome = true
  backed : backup = false → Backed A p s

/-- A file that has one temporary name and no other. -/
structure Own (start : Disk Name Char) (name file : Nat) (s : Host) : Prop where
  seen : s.disk.visible (.tmp name) = some file
  fresh : start.next ≤ file
  only : ∀ name', name'.isTmp = false → some file ∉ s.disk.candidates name'

/-- The draft holds these bytes. -/
structure Draft (start : Disk Name Char) (A : Archive Pose) (p : Payload) (backup : Bool)
    (name file : Nat) (data : List Char) (s : Host) : Prop where
  saving : Saving A p backup s
  own : Own start name file s
  bytes : (s.disk.file file).bytes = data

/-- The draft is the generation, and durable. -/
structure Ready (start : Disk Name Char) (A : Archive Pose) (p : Payload) (backup : Bool)
    (name file : Nat) (s : Host) : Prop where
  draft : Draft start A p backup name file (frame A p) s
  synced : (s.disk.file file).synced = true

/-- Nothing changed for the names that are not temporary, and for their files. -/
structure Beside (start : Disk Name Char) (s : Host) (d : Disk Name Char) : Prop where
  entry : ∀ name, name.isTmp = false → d.entry name = s.disk.entry name
  file : ∀ i, (i < start.next ∨ ∃ name, name.isTmp = false ∧ some i ∈ s.disk.candidates name) →
    d.file i = s.disk.file i

theorem Beside.backed (h : Beside start s d) (hs : Backed A p s) :
    Backed A p { s with disk := d } := by
  intro n hn
  have hvisible : d.visible .previous = s.disk.visible .previous := by
    unfold Disk.visible
    rw [h.entry .previous rfl]
  refine (hs n hn).imp id fun hgood => ?_
  show Good A { s with disk := d } n (d.visible .previous)
  rw [hvisible]
  refine hgood.keep fun i hi => h.file i (.inr ⟨.previous, rfl, ?_⟩)
  rw [← hi]
  exact (s.disk.entry .previous).visible_mem

theorem Beside.saving (h : Beside start s d) {backup : Bool} (hs : Saving A p backup s) :
    Saving A p backup { s with disk := d } := by
  refine ⟨hs.top, fun hbackup => ?_, fun hbackup => h.backed (hs.backed hbackup)⟩
  have hvisible : d.visible .current = s.disk.visible .current := by
    unfold Disk.visible
    rw [h.entry .current rfl]
  have hread : d.read .current = s.disk.read .current := by
    unfold Disk.read
    rw [hvisible]
    cases hcurrent : s.disk.visible .current with
    | none => rfl
    | some i =>
      have hi : some i ∈ s.disk.candidates .current := by
        rw [← hcurrent]
        exact (s.disk.entry .current).visible_mem
      rw [Option.map_some, Option.map_some, h.file i (.inr ⟨_, rfl, hi⟩)]
  show (loadable A (d.read .current)).isSome = true
  rw [hread]
  exact hs.good hbackup

theorem Beside.only (h : Beside start s d)
    (hs : ∀ name', name'.isTmp = false → some file ∉ s.disk.candidates name') :
    ∀ name', name'.isTmp = false → some file ∉ d.candidates name' := by
  intro name' hname' hfile
  unfold Disk.candidates at hfile
  rw [h.entry name' hname'] at hfile
  exact hs name' hname' hfile

/-- Creating a temporary file. -/
theorem create_beside (hi : Intact start A s) (name : Nat) :
    Beside start s (s.disk.create (.tmp name)) := by
  refine ⟨fun name' hname' => ?_, fun i hmem => ?_⟩
  · refine Disk.entry_set_other ?_ _
    rintro rfl
    cases hname'
  · refine Disk.file_write_other ?_ _
    rintro rfl
    rcases hmem with hlt | ⟨name', -, hmem⟩
    · exact absurd hi.grown (Nat.not_le.2 hlt)
    · exact Nat.lt_irrefl _ (hi.numbered name' _ hmem)

theorem create_intact (hi : Intact start A s) (name : Nat) :
    Intact start A { s with disk := s.disk.create (.tmp name) } := by
  have hbeside := create_beside hi name
  refine hi.beside hbeside.entry hbeside.file (Nat.le_succ _) fun n i hmem => ?_
  show i < s.disk.next + 1
  unfold Disk.candidates at hmem
  by_cases hn : n = name
  · subst hn
    rw [show (s.disk.create (.tmp n)).entry (.tmp n) = _ from Disk.entry_set_self _ _,
      Disk.Entry.mem_set] at hmem
    rcases hmem with heq | hmem
    · cases heq
      exact Nat.lt_succ_self _
    · exact Nat.lt_succ_of_lt (hi.numbered _ _ hmem)
  · rw [show (s.disk.create (.tmp name)).entry (.tmp n) = _ from
      Disk.entry_set_other (by rintro ⟨⟩; exact hn rfl) _] at hmem
    exact Nat.lt_succ_of_lt (hi.numbered _ _ hmem)

theorem create_own (hi : Intact start A s) (name : Nat) :
    Own start name s.disk.next { s with disk := s.disk.create (.tmp name) } := by
  refine ⟨?_, hi.grown, (create_beside hi name).only fun name' _ hmem =>
    Nat.lt_irrefl _ (hi.numbered name' _ hmem)⟩
  show (Disk.Entry.visible _) = _
  rw [show (s.disk.create (.tmp name)).entry (.tmp name) = _ from Disk.entry_set_self _ _]
  rfl

/-- A temporary file's own bytes. -/
theorem write_beside (h : Own start name file s) (f : Disk.File Char) :
    Beside start s (s.disk.write file f) := by
  refine ⟨fun _ _ => rfl, fun i hmem => Disk.file_write_other ?_ _⟩
  rintro rfl
  rcases hmem with hlt | ⟨name', hname', hmem⟩
  · exact absurd h.fresh (Nat.not_le.2 hlt)
  · exact h.only name' hname' hmem

theorem write_intact (hi : Intact start A s) (h : Own start name file s) (f : Disk.File Char) :
    Intact start A { s with disk := s.disk.write file f } :=
  hi.beside (write_beside h f).entry (write_beside h f).file (Nat.le_refl _)
    fun n i hmem => hi.numbered (.tmp n) i hmem

theorem write_own (h : Own start name file s) (f : Disk.File Char) :
    Own start name file { s with disk := s.disk.write file f } :=
  ⟨h.seen, h.fresh, h.only⟩

/-! ## The draft is written -/

section
variable {p : Payload} {backup : Bool} (hstart : Quiet start)

theorem mkstemp_triple : (writer start A).Triple (Saving A p backup) mkstemp fun r s =>
    Saving A p backup s ∧ ∀ name file, r = some (name, file) →
      Draft start A p backup name file [] s := by
  refine call fun a s hi hp => ?_
  split
  · have hsaving := (create_beside hi a.n).saving hp
    refine ⟨create_intact hi a.n, hsaving, fun name file hr => ?_⟩
    cases hr
    refine ⟨hsaving, create_own hi a.n, ?_⟩
    rw [show (s.disk.create (.tmp a.n)).file s.disk.next = _ from Disk.file_write_self _ _]
  · exact ⟨hi, hp, nofun⟩

theorem fwrite_triple {data more : List Char} :
    (writer start A).Triple (Draft start A p backup name file data) (fwrite file more) fun ok s =>
      ∃ data', Draft start A p backup name file data' s ∧ (ok = true → data' = data ++ more) := by
  refine call fun a s hi hp => ?_
  refine ⟨write_intact hi hp.own _, _, ⟨(write_beside hp.own _).saving hp.saving,
    write_own hp.own _, rfl⟩, fun hok => ?_⟩
  have hok : a.ok = true := hok
  show ((s.disk.append file _).file file).bytes = _
  rw [Disk.append, Disk.file_write_self, if_pos hok, hp.bytes]

theorem fsync_triple {data : List Char} :
    (writer start A).Triple (Draft start A p backup name file data) (fsync file) fun ok s =>
      Draft start A p backup name file data s ∧ (ok = true → (s.disk.file file).synced = true) := by
  refine call fun a s hi hp => ?_
  dsimp only
  split
  · refine ⟨write_intact hi hp.own _, ⟨(write_beside hp.own _).saving hp.saving,
      write_own hp.own _, ?_⟩, fun _ => ?_⟩
    · show ((s.disk.fsync file).file file).bytes = _
      rw [Disk.fsync, Disk.file_write_self]
      exact hp.bytes
    · show ((s.disk.fsync file).file file).synced = true
      rw [Disk.fsync, Disk.file_write_self]
  · rename_i hok
    exact ⟨hi, hp, fun h => absurd h hok⟩

include hstart in
/-- A temporary name is removed. -/
theorem unlink_tmp (hP : ∀ s, P s → P { s with disk := s.disk.unlink (.tmp name) }) :
    (writer start A).Triple P (unlink (.tmp name)) fun _ => P := by
  refine call fun a s hi hp => ?_
  dsimp only
  split
  · exact ⟨hi.unlink hstart fun htmp => (Bool.noConfusion htmp), hP s hp⟩
  · exact ⟨hi, hp⟩

theorem unlink_beside (start : Disk Name Char) (s : Host) (name : Nat) :
    Beside start s (s.disk.unlink (.tmp name)) := by
  refine ⟨fun name' hname' => Disk.entry_unlink_other ?_, fun i _ => by rw [Disk.file_unlink]⟩
  rintro rfl
  cases hname'

include hstart in
theorem writeTemporary_triple : (writer start A).Triple (Saving A p backup) (writeTemporary A p)
    fun r s => Saving A p backup s ∧ ∀ name file, r = some (name, file) →
      Ready start A p backup name file s := by
  refine .bind mkstemp_triple fun r => ?_
  cases r with
  | none => exact .ret fun s _ hp => ⟨hp.1, nofun⟩
  | some tmp =>
    obtain ⟨name, file⟩ := tmp
    refine .conseq ?_
      (fun s _ hp => show Draft start A p backup name file [] s from hp.2 name file rfl)
      fun _ _ _ hq => hq
    -- each call writes one part more, or the draft is whatever it is
    let Part (ok : Bool) (whole : List Char) (s : Host) : Prop :=
      ∃ data, Draft start A p backup name file data s ∧ (ok = true → data = whole)
    have hwrite (ok : Bool) (data more : List Char) : (writer start A).Triple (Part ok data)
        (andThen ok (fwrite file more)) fun ok s => Part ok (data ++ more) s := by
      refine andThen_triple (fun hok s hi hp => ?_) fun _ s hp => ?_
      · obtain ⟨data', hdraft, hdata⟩ := hp
        cases hdata hok
        exact fwrite_triple s hi hdraft
      · obtain ⟨data', hdraft, -⟩ := hp
        exact ⟨data', hdraft, nofun⟩
    refine .bind plain_triple fun opened => ?_
    refine .bind (.conseq (hwrite opened [] (framing A p)) (fun s _ hp => ⟨_, hp, fun _ => rfl⟩)
      fun _ _ _ hq => hq) fun ok => ?_
    refine .bind (hwrite ok _ p.metadata) fun ok => ?_
    refine .bind (hwrite ok _ p.graph) fun ok => ?_
    refine .bind (andThen_triple (fun _ => plain_triple) fun _ _ hp => hp) fun flushed => ?_
    refine .bind (Q := fun ok s => (∃ data, Draft start A p backup name file data s) ∧
      (ok = true → Ready start A p backup name file s)) (andThen_triple (fun hok s hi hp => ?_)
        fun _ s hp => ?_) fun ok => ?_
    · obtain ⟨data, hdraft, hdata⟩ := hp
      have hok : ok = true := (Bool.and_eq_true_iff.1 hok).1
      have hframe : data = frame A p := by
        rw [hdata hok]
        simp [frame]
      subst hframe
      refine (fsync_triple s hi hdraft).mono hi fun ok s' _ hq => ⟨⟨_, hq.1⟩, fun hok => ?_⟩
      exact ⟨hq.1, hq.2 hok⟩
    · obtain ⟨data, hdraft, -⟩ := hp
      exact ⟨⟨data, hdraft⟩, nofun⟩
    refine .bind (andThen_triple (fun _ => plain_triple) fun _ _ hp => hp) fun closed => ?_
    refine .ite (fun hok => .ret fun s _ hp => ?_) fun _ => ?_
    · have hready := hp.2 (Bool.and_eq_true_iff.1 hok).1
      refine ⟨hready.draft.saving, fun name' file' hr => ?_⟩
      cases hr
      exact hready
    · refine .bind (.conseq (unlink_tmp hstart (P := Saving A p backup)
        fun s hp => (unlink_beside start s name).saving hp) (fun s _ hp => ?_) fun _ _ _ hq => hq)
          fun _ => .ret fun s _ hp => ⟨hp, nofun⟩
      obtain ⟨⟨data, hdraft⟩, -⟩ := hp
      exact hdraft.saving

/-! ## The two names -/

theorem Ready.beside (h : Ready start A p backup name file s) (hd : Beside start s d)
    (hname : d.entry (.tmp name) = s.disk.entry (.tmp name))
    (hfile : d.file file = s.disk.file file) :
    Ready start A p backup name file { s with disk := d } := by
  refine ⟨⟨hd.saving h.draft.saving, ⟨?_, h.draft.own.fresh, hd.only h.draft.own.only⟩, ?_⟩, ?_⟩
  · show (d.entry _).visible = _
    rw [hname]
    exact h.draft.own.seen
  · show (d.file file).bytes = _
    rw [hfile]
    exact h.draft.bytes
  · show (d.file file).synced = true
    rw [hfile]
    exact h.synced

/-- The current file could not be read. -/
theorem Saving.unread (h : Saving A p backup s) :
    Saving A p backup { s with log := .unread :: s.log } :=
  ⟨h.top, h.good, fun _ _ hn => .inl (secured_unread h.top hn).1⟩

/-- A file that the current name stands for and that was read and decoded. -/
structure Linked (A : Archive Pose) (name : Nat) (s : Host) : Prop where
  linked : ∃ i, s.disk.visible (.tmp name) = some i ∧ s.disk.visible .current = some i ∧
    (loadable A (some (s.disk.file i).bytes)).isSome = true

include hstart in
theorem backupCurrent_triple :
    (writer start A).Triple (Ready start A p true name file) backupCurrent
      fun ok s => Ready start A p true name file s ∧ (ok = true → Backed A p s) := by
  have hunlink {n : Nat} (hn : n ≠ name) {s : Host} (hp : Ready start A p true name file s) :
      Ready start A p true name file { s with disk := s.disk.unlink (.tmp n) } :=
    hp.beside (unlink_beside start s n)
      (Disk.entry_unlink_other (by rintro ⟨⟩; exact hn rfl)) (by rw [Disk.file_unlink])
  refine .bind (Q := fun r s => Ready start A p true name file s ∧
    ∀ n f, r = some (n, f) → n ≠ name) (call fun a s hi hp => ?_) fun r => ?_
  · split
    · rename_i hok
      have hnone : (s.disk.visible (.tmp a.n)).isNone = true := (Bool.and_eq_true_iff.1 hok).2
      have hne : a.n ≠ name := by
        rintro hn
        rw [hn, hp.draft.own.seen] at hnone
        cases hnone
      refine ⟨create_intact hi a.n, hp.beside (create_beside hi a.n)
        (Disk.entry_set_other (by rintro ⟨⟩; exact hne rfl) _) (Disk.file_write_other ?_ _),
        fun n f hr => ?_⟩
      · rintro hfile
        have hlt := hi.numbered (.tmp name) file (by
          have hseen := hp.draft.own.seen
          rw [← hseen]
          exact (s.disk.entry (.tmp name)).visible_mem)
        omega
      · cases hr
        exact hne
    · exact ⟨hi, hp, nofun⟩
  cases r with
  | none => exact .ret fun s _ hp => ⟨hp.1, nofun⟩
  | some tmp =>
    obtain ⟨n, f⟩ := tmp
    refine .conseq ?_
      (fun s _ hp => show Ready start A p true name file s ∧ n ≠ name from ⟨hp.1, hp.2 n f rfl⟩)
      fun _ _ _ hq => hq
    refine .bind plain_triple fun ok => ?_
    refine .bind (Q := fun _ s => Ready start A p true name file s ∧ n ≠ name)
      (andThen_triple (fun _ s hi hp => ?_) fun _ s hp => hp) fun ok => ?_
    · exact unlink_tmp hstart (P := fun s => Ready start A p true name file s ∧ n ≠ name)
        (fun s hp => ⟨hunlink hp.2 hp.1, hp.2⟩) s hi hp
    refine .bind (Q := fun ok s => (Ready start A p true name file s ∧ n ≠ name) ∧
      (ok = true → Linked A n s)) (andThen_triple (fun _ => call fun a s hi hp => ?_)
        fun _ s hp => ⟨hp, nofun⟩) fun ok => ?_
    · cases hlink : s.disk.link .current (.tmp n) with
      | none => exact ⟨hi, hp, nofun⟩
      | some d =>
        dsimp only
        split
        · obtain ⟨i, hi', rfl⟩ := Disk.link_some hlink
          have hbeside : Beside start s (s.disk.set (.tmp n) (some i)) := by
            refine ⟨fun name' hname' => Disk.entry_set_other ?_ _, fun _ _ => rfl⟩
            rintro rfl
            cases hname'
          have hmem : some i ∈ s.disk.candidates .current := by
            rw [← hi']
            exact (s.disk.entry .current).visible_mem
          refine ⟨hi.beside hbeside.entry hbeside.file (Nat.le_refl _) fun m j hj => ?_,
            ⟨hp.1.beside hbeside (Disk.entry_set_other (by rintro ⟨⟩; exact hp.2 rfl) _) rfl, hp.2⟩,
            fun _ => ⟨i, ?_, ?_, ?_⟩⟩
          · unfold Disk.candidates at hj
            by_cases hm : m = n
            · subst hm
              rw [Disk.entry_set_self, Disk.Entry.mem_set] at hj
              rcases hj with heq | hj
              · cases heq
                exact hi.numbered _ _ hmem
              · exact hi.numbered _ _ hj
            · rw [Disk.entry_set_other (by rintro ⟨⟩; exact hm rfl)] at hj
              exact hi.numbered _ _ hj
          · show (Disk.Entry.visible _) = _
            rw [Disk.entry_set_self]
            rfl
          · have hentry : (s.disk.set (.tmp n) (some i)).entry .current = s.disk.entry .current :=
              Disk.entry_set_other (by simp) _
            show (Disk.Entry.visible _) = _
            rw [hentry]
            exact hi'
          · have hgood := hp.1.draft.saving.good rfl
            unfold Disk.read at hgood
            rw [hi'] at hgood
            exact hgood
        · rename_i hok
          exact ⟨hi, hp, fun h => absurd h hok⟩
    refine .bind (Q := fun ok s => (Ready start A p true name file s ∧ n ≠ name) ∧
      (ok = true → Backed A p s)) (andThen_triple (fun hok => call fun a s hi hp => ?_)
        fun _ s hp => ⟨hp.1, nofun⟩) fun ok => ?_
    · obtain ⟨⟨hready, hne⟩, hlinked⟩ := hp
      obtain ⟨i, htmp, hcurrent, hgood⟩ := (hlinked hok).linked
      cases hrename : s.disk.rename (.tmp n) .previous with
      | none => exact ⟨hi, ⟨hready, hne⟩, nofun⟩
      | some d =>
        dsimp only
        split
        · obtain ⟨i', hi', hseen, hfile, hnext, hcand, hothers⟩ := Disk.rename_some hrename
          rw [htmp] at hi'
          cases hi'
          have hmem : some i ∈ s.disk.candidates .current := by
            rw [← hcurrent]
            exact (s.disk.entry .current).visible_mem
          have hentry (name' : Name) (hprevious : name' ≠ .previous) (htmp' : name' ≠ .tmp n) :
              d.entry name' = s.disk.entry name' := hothers name' htmp' hprevious
          have hsecured (n : Nat) (hn : secured A s.log = some n) : Good A s n (some i) := by
            obtain ⟨j, q, hj, hbytes, hfrom, -⟩ := (hi.newest n hn).current _ hmem
            cases hj
            refine ⟨i, q, rfl, hbytes, hfrom, ?_⟩
            rw [hbytes, loadable_frame] at hgood
            by_cases hq : decodes A q = true
            · exact hq
            · rw [if_neg hq] at hgood
              cases hgood
          have hintact : Intact start A { s with disk := d } := hi.place hfile hnext (.inr rfl) hcand
            (fun name' hdst hname' => hentry name' hdst (by rintro rfl; cases hname'))
            (fun name' j hj => by
              obtain ⟨name'', hj⟩ := Disk.mem_rename hrename hj
              exact hi.numbered name'' j hj)
            (hi.synced .current i rfl hmem) (hi.worth .current i (.inl rfl) hmem)
            (fun _ => ⟨hgood, hsecured⟩) nofun
          refine ⟨hintact, ⟨⟨⟨⟨hready.draft.saving.top, fun _ => ?_, nofun⟩, ⟨?_,
            hready.draft.own.fresh, fun name' hname' hmem' => ?_⟩, ?_⟩, ?_⟩, hne⟩, fun _ n hn => ?_⟩
          · show (loadable A (d.read .current)).isSome = true
            unfold Disk.read Disk.visible
            rw [hentry .current nofun nofun, hfile]
            exact hready.draft.saving.good rfl
          · show (d.entry _).visible = _
            rw [hentry (.tmp name) nofun (by rintro ⟨⟩; exact hne rfl)]
            exact hready.draft.own.seen
          · by_cases hprevious : name' = .previous
            · subst hprevious
              rcases hcand _ hmem' with heq | hmem'
              · cases heq
                exact hready.draft.own.only .current rfl hmem
              · exact hready.draft.own.only .previous rfl hmem'
            · refine hready.draft.own.only name' hname' ?_
              unfold Disk.candidates at hmem' ⊢
              rw [← hentry name' hprevious (by rintro rfl; cases hname')]
              exact hmem'
          · show (d.file file).bytes = _
            rw [hfile]
            exact hready.draft.bytes
          · show (d.file file).synced = true
            rw [hfile]
            exact hready.synced
          · refine .inr ?_
            show Good A { s with disk := d } n (d.visible .previous)
            rw [hseen]
            exact (hsecured n hn).keep fun j _ => congrFun hfile j
        · exact ⟨hi, ⟨hready, hne⟩, fun h => absurd h ‹_›⟩
    refine .bind (unlink_tmp hstart (P := fun s => (Ready start A p true name file s ∧ n ≠ name) ∧
      (ok = true → Backed A p s)) fun s hp => ⟨⟨hunlink hp.1.2 hp.1.1, hp.1.2⟩,
        fun hok => (unlink_beside start s n).backed (hp.2 hok)⟩) fun _ =>
          .ret fun s _ hp => ⟨hp.1.1, hp.2⟩

/-- The newest generation is worth any place. -/
theorem worth_last {s : Host} {i : Nat} (h : asked s.log = some p)
    (hbytes : (s.disk.file i).bytes = frame A p) : Worth start A s i ∧
      ∀ n, secured A s.log = some n → Stands (· = p) A s n (some i) := by
  obtain ⟨hlast, hcleared⟩ := asked_last h
  refine ⟨.inr ⟨p, hbytes, (From.last hlast).mono (Nat.le_sub_one_of_lt hcleared)⟩, fun n hn => ?_⟩
  exact ⟨i, p, rfl, hbytes, (From.last hlast).mono (Nat.le_sub_one_of_lt (secured_lt hn)), rfl⟩

/-- The previous name cannot go back to a file from before the backup. -/
def Covered (A : Archive Pose) (p : Payload) (s : Host) : Prop :=
  ∀ n, secured A s.log = some n →
    decodes A p = true ∨ ∀ c ∈ s.disk.candidates .previous, Good A s n c

/-- The current name stands for the generation. -/
structure Published (A : Archive Pose) (p : Payload) (s : Host) : Prop where
  top : asked s.log = some p
  current : ∃ i, s.disk.visible .current = some i ∧ (s.disk.file i).bytes = frame A p

/-- And cannot go back. -/
structure Fixed (A : Archive Pose) (p : Payload) (s : Host) : Prop where
  top : asked s.log = some p
  current : ∀ c ∈ s.disk.candidates .current, ∃ i, c = some i ∧
    (s.disk.file i).bytes = frame A p

include hstart in
theorem publish_triple {ok : Bool} :
    (writer start A).Triple (fun s => Ready start A p backup name file s ∧
      (ok = true → Backed A p s)) (publish ok name)
      fun ok s => asked s.log = some p ∧ (ok = true → Fixed A p s) := by
  refine .bind (Q := fun ok s => Ready start A p backup name file s ∧ (ok = true → Covered A p s))
    (andThen_triple (fun hok => call fun a s hi hp => ?_) fun _ _ hp => ⟨hp.1, nofun⟩) fun ok => ?_
  · obtain ⟨hp, hbacked⟩ := hp
    dsimp only
    split
    · refine ⟨hi.fsyncDir hstart, ⟨⟨⟨hp.draft.saving.top, hp.draft.saving.good,
        hp.draft.saving.backed⟩, ⟨hp.draft.own.seen, hp.draft.own.fresh,
          fun name' hname' hmem => ?_⟩, hp.draft.bytes⟩, hp.synced⟩, fun _ n hn => ?_⟩
      · refine hp.draft.own.only name' hname' ?_
        rw [Disk.Entry.mem_settle.1 hmem]
        exact (s.disk.entry name').visible_mem
      · refine (hbacked hok n hn).imp id fun hgood c hc => ?_
        rw [Disk.Entry.mem_settle.1 hc]
        exact hgood
    · exact ⟨hi, hp, fun h => absurd h ‹_›⟩
  refine .bind (Q := fun ok s => asked s.log = some p ∧ (ok = true → Published A p s))
    (andThen_triple (fun hok => call fun a s hi hp => ?_)
      fun _ s hp => ⟨hp.1.draft.saving.top, nofun⟩) fun ok => ?_
  · obtain ⟨hp, hcovered⟩ := hp
    have htop := hp.draft.saving.top
    cases hrename : s.disk.rename (.tmp name) .current with
    | none => exact ⟨hi, htop, nofun⟩
    | some d =>
      dsimp only
      split
      · obtain ⟨i, hi', hseen, hfile, hnext, hcand, hothers⟩ := Disk.rename_some hrename
        rw [hp.draft.own.seen] at hi'
        cases hi'
        obtain ⟨hworth, hsecured⟩ := @worth_last Pose A start p s file htop hp.draft.bytes
        have hplace (n : Nat) (hn : secured A s.log = some n) : Good A s n (some file) ∨
            (Stands (fun _ => True) A s n (some file) ∧
              ∀ c ∈ s.disk.candidates .previous, Good A s n c) := by
          obtain ⟨j, q, hj, hbytes, hfrom, rfl⟩ := hsecured n hn
          exact (hcovered hok n hn).imp (fun hq => ⟨j, q, hj, hbytes, hfrom, hq⟩)
            fun hall => ⟨⟨j, q, hj, hbytes, hfrom, trivial⟩, hall⟩
        refine ⟨hi.place hfile hnext (.inl rfl) hcand
          (fun name' hdst hname' => hothers name' (by rintro rfl; cases hname') hdst)
          (fun name' j hj => ?_) hp.synced hworth nofun fun _ => hplace,
          htop, fun _ => ⟨htop, file, hseen, ?_⟩⟩
        · obtain ⟨name'', hj⟩ := Disk.mem_rename hrename hj
          exact hi.numbered name'' j hj
        · show (d.file file).bytes = _
          rw [hfile]
          exact hp.draft.bytes
      · rename_i hok
        exact ⟨hi, htop, fun h => absurd h hok⟩
  refine .bind (Q := fun ok s => asked s.log = some p ∧ (ok = true → Fixed A p s))
    (andThen_triple (fun hok => call fun a s hi hp => ?_) fun _ s hp => ⟨hp.1, nofun⟩) fun ok => ?_
  · dsimp only
    split
    · refine ⟨hi.fsyncDir hstart, hp.1, fun _ => ⟨hp.1, fun c hc => ?_⟩⟩
      obtain ⟨i, hi', hbytes⟩ := (hp.2 hok).current
      rw [Disk.Entry.mem_settle.1 hc]
      exact ⟨i, hi', hbytes⟩
    · rename_i hanswer
      exact ⟨hi, hp.1, fun h => absurd h hanswer⟩
  refine .bind plain_triple fun closed => .ret fun s _ hp => ⟨hp.1, fun hok => ?_⟩
  exact hp.2 (Bool.and_eq_true_iff.1 hok).1

include hstart in
theorem save_triple : (writer start A).Triple (Saving A p backup) (save A p backup)
    fun ok s => asked s.log = some p ∧ (ok = true → Fixed A p s) := by
  have htop {name : Nat} : (writer start A).Triple (fun s => asked s.log = some p)
      (unlink (.tmp name)) fun _ s => asked s.log = some p :=
    unlink_tmp hstart fun s hp => hp
  refine .bind (writeTemporary_triple hstart) fun r => ?_
  cases r with
  | none => exact .ret fun s _ hp => ⟨hp.1.top, nofun⟩
  | some tmp =>
    obtain ⟨name, file⟩ := tmp
    refine .conseq ?_
      (fun s _ hp => show Ready start A p backup name file s from hp.2 name file rfl)
      fun _ _ _ hq => hq
    refine .bind plain_triple fun opened => .ite (fun _ => ?_) fun _ => ?_
    · refine .bind (Q := fun (old : Option Payload) s => Ready start A p backup name file s ∧
        (old.isSome = true → backup = true) ∧ (¬old.isSome = true → Backed A p s))
          (.ite (fun hbackup => call fun a s hi hp => ?_) fun hbackup => .ret fun s _ hp =>
            ⟨hp, nofun, fun _ => hp.draft.saving.backed (by simpa using hbackup)⟩) fun old => ?_
      · split
        · refine ⟨hi, hp, fun _ => hbackup, fun hnone => ?_⟩
          have hgood := hp.draft.saving.good hbackup
          have hnone : (s.disk.read .current).bind (read A) = none :=
            Option.not_isSome_iff_eq_none.1 hnone
          unfold loadable at hgood
          rw [hnone] at hgood
          cases hgood
        · have hunread := hp.draft.saving.unread
          exact ⟨hi.unread, ⟨⟨hunread, ⟨hp.draft.own.seen, hp.draft.own.fresh, hp.draft.own.only⟩,
            hp.draft.bytes⟩, hp.synced⟩, nofun, fun _ _ hn =>
              .inl (secured_unread hp.draft.saving.top hn).1⟩
      refine .bind (Q := fun ok s => Ready start A p backup name file s ∧
        (ok = true → Backed A p s)) (.ite (fun hold s hi hp => ?_)
          fun hold => .ret fun s _ hp => ⟨hp.1, fun _ => hp.2.2 hold⟩) fun ok => ?_
      · have hbackup : backup = true := hp.2.1 hold
        subst hbackup
        exact backupCurrent_triple hstart s hi hp.1
      refine .bind (publish_triple hstart) fun ok => ?_
      refine .bind (unlink_tmp hstart (P := fun s => asked s.log = some p ∧
        (ok = true → Fixed A p s)) fun s hp => ⟨hp.1, fun hok => ?_⟩) fun _ =>
          .ret fun s _ hp => hp
      refine ⟨hp.1, fun c hc => ?_⟩
      unfold Disk.candidates at hc
      rw [(unlink_beside start s name).entry .current rfl] at hc
      rw [Disk.file_unlink]
      exact (hp.2 hok).current c hc
    · exact .bind (.conseq htop (fun s _ hp => hp.draft.saving.top) fun _ _ _ hq => hq) fun _ =>
        .ret fun s _ hp => ⟨hp, nofun⟩

include hstart in
theorem managerSave_triple : (writer start A).Triple (fun _ => True) (managerSave A p)
    fun _ _ => True := by
  refine .bind (Q := fun _ s => asked s.log = some p)
    (.modify Guard.alone_stable fun s hi _ => ⟨hi.saving p, rfl⟩) fun _ => ?_
  refine .bind (Q := fun old s => Saving A p (old.any (decodes A)) s) (call fun a s hi hp => ?_)
    fun old => ?_
  · split
    · refine ⟨hi, hp, fun hany => ?_, fun hany n hn => .inr ((hi.newest n hn).undecodable ?_)⟩
      · unfold loadable
        cases hread : (s.disk.read .current).bind (read A) with
        | none =>
          rw [hread] at hany
          cases hany
        | some q =>
          rw [hread] at hany
          simpa using hany
      · exact hany
    · exact ⟨hi.unread, hp, nofun, fun _ n hn => .inl (secured_unread hp hn).1⟩
  refine .bind (save_triple hstart) fun ok => ?_
  refine .ite (fun hok => .modify Guard.alone_stable fun s hi hp => ⟨?_, trivial⟩)
    fun _ => .ret fun _ _ _ => trivial
  exact hi.saved hp.1 (hp.2 hok).current

/-! ## Clear -/

/-- The names that are removed so far cannot be seen. -/
structure Removed (gone : List Name) (s : Host) : Prop where
  top : secured A s.log = none
  hidden : ∀ name ∈ gone, s.disk.visible name = none

include hstart in
theorem unlink_triple {gone : List Name} {name : Name} :
    (writer start A).Triple (Removed (A := A) gone) (unlink name) fun ok s =>
      Removed (A := A) gone s ∧ (ok = true → Removed (A := A) (name :: gone) s) := by
  have hstep {s : Host} (hp : Removed (A := A) gone s) :
      Removed (A := A) (name :: gone) { s with disk := s.disk.unlink name } := by
    refine ⟨hp.top, fun name' hname' => ?_⟩
    by_cases hsame : name' = name
    · rw [hsame]
      exact Disk.visible_unlink name
    · show ((s.disk.unlink name).entry name').visible = none
      rw [Disk.entry_unlink_other hsame]
      exact hp.hidden name' ((List.mem_cons.1 hname').resolve_left hsame)
  refine call fun a s hi hp => ?_
  dsimp only
  split
  · have hp' := hstep hp
    exact ⟨hi.unlink hstart fun _ => hp.top, ⟨hp.top, fun name' hname' =>
      hp'.hidden name' (List.mem_cons_of_mem _ hname')⟩, fun _ => hp'⟩
  · rename_i hok
    exact ⟨hi, hp, fun h => absurd h hok⟩

include hstart in
theorem clear_triple : (writer start A).Triple (fun _ => True) clear fun _ _ => True := by
  let Sofar (ok : Bool) (gone : List Name) (s : Host) : Prop :=
    secured A s.log = none ∧ (ok = true → Removed (A := A) gone s)
  have hunlink (ok : Bool) (gone : List Name) (name : Name) : (writer start A).Triple
      (Sofar ok gone) (andThen ok (unlink name)) fun ok s => Sofar ok (name :: gone) s := by
    refine andThen_triple (fun hok s hi hp => ?_) fun _ s hp => ⟨hp.1, nofun⟩
    exact (unlink_triple hstart s hi (hp.2 hok)).mono hi fun ok s' _ hq => ⟨hq.1.top, hq.2⟩
  refine .bind (Q := fun _ s => secured A s.log = none)
    (.modify Guard.alone_stable fun s hi _ => ⟨hi.clearing, rfl⟩) fun _ => ?_
  refine .bind plain_triple fun opened => .ite (fun _ => ?_) fun _ => .ret fun _ _ _ => trivial
  refine .bind (Q := fun ok s => Sofar ok [.graph] s) (fun s hi hp => ?_) fun ok => ?_
  · exact (@unlink_triple Pose A start hstart [] .graph s hi ⟨hp, nofun⟩).mono hi
      fun ok s' _ hq => ⟨hq.1.top, hq.2⟩
  refine .bind (hunlink ok _ .metadata) fun ok => ?_
  refine .bind (hunlink ok _ .scans) fun ok => ?_
  refine .bind (Q := fun ok s => Sofar ok [.scans, .metadata, .graph] s)
    (andThen_triple (fun hok => call fun a s hi hp => ?_) fun _ s hp => ⟨hp.1, nofun⟩) fun ok => ?_
  · dsimp only
    split
    · exact ⟨hi.fsyncDir hstart, hp.1, fun _ => ⟨hp.1, (hp.2 hok).hidden⟩⟩
    · rename_i hanswer
      exact ⟨hi, hp.1, fun h => absurd h hanswer⟩
  refine .bind (hunlink ok _ .previous) fun ok => ?_
  refine .bind (hunlink ok _ .current) fun ok => ?_
  -- from here on, the names are gone for good if all went well
  refine .bind (Q := fun synced s => secured A s.log = none ∧ (ok = true → synced = true →
    ∀ name, name.isTmp = false → name ≠ .scans → ∀ c ∈ s.disk.candidates name, c = none))
      (call fun a s hi hp => ?_) fun synced => ?_
  · dsimp only
    split
    · refine ⟨hi.fsyncDir hstart, hp.1, fun hok _ name hname hscans c hc => ?_⟩
      rw [Disk.Entry.mem_settle.1 hc]
      refine (hp.2 hok).hidden name ?_
      cases name with
      | tmp n => cases hname
      | scans => exact absurd rfl hscans
      | _ => simp
    · rename_i hanswer
      exact ⟨hi, hp.1, fun _ h => absurd h hanswer⟩
  refine .bind plain_triple fun closed => ?_
  refine .ite (fun hok => .modify Guard.alone_stable fun s hi hp => ⟨?_, trivial⟩)
    fun _ => .ret fun _ _ _ => trivial
  obtain ⟨hok, -⟩ := Bool.and_eq_true_iff.1 hok
  obtain ⟨hok, hsynced⟩ := Bool.and_eq_true_iff.1 hok
  exact hi.done (hp.2 hok hsynced) hp.1

end

/-! ## Every run -/

theorem keeps (hstart : Quiet start) :
    (machine A).Keeps (writer start A) fun _ => True where
  stable := Guard.alone_stable
  irq := nofun
  body
    | .save _ => managerSave_triple hstart
    | .clear => clear_triple hstart
  cut
    | .killed, _, hi => hi
    | .power kept junk, _, hi => hi.crash hstart kept junk
  boot _ _ _ := trivial

/-- A payload that could be loaded when all began. -/
def AtStart (A : Archive Pose) (start : Disk Name Char) (p : Payload) : Prop :=
  loadable A (start.read .current) = some p ∨ loadable A (start.read .previous) = some p ∨
    (start.read .graph = some p.graph ∧ start.read .metadata = some p.metadata)

/-- What is read under a name that stands for a file. -/
theorem read_visible {name : Name} {bytes : List Char} (h : d.read name = some bytes) :
    ∃ i, some i ∈ d.candidates name ∧ d.visible name = some i ∧
      (d.file i).bytes = bytes := by
  unfold Disk.read at h
  obtain ⟨i, hi, hbytes⟩ := Option.map_eq_some_iff.1 h
  exact ⟨i, hi ▸ (d.entry name).visible_mem, hi, hbytes⟩

/-- At the start, a name stands for the file whose bytes it still has. -/
theorem read_start (h : Intact start A s) (hstart : Quiet start) {name : Name} {i : Nat}
    (hi : start.visible name = some i) : start.read name = some (s.disk.file i).bytes := by
  unfold Disk.read
  rw [hi, h.old i (hstart.numbered name i hi)]
  rfl

/-- What a modern name gives. -/
theorem Intact.loads (h : Intact start A s) (hstart : Quiet start) {name : Name}
    (hname : name = .current ∨ name = .previous) (hp : loadable A (s.disk.read name) = some p) :
    From s.log ((cleared s.log).getD 0) p ∨ (cleared s.log = none ∧ AtStart A start p) := by
  cases hread : s.disk.read name with
  | none =>
    rw [hread] at hp
    cases hp
  | some bytes =>
    obtain ⟨i, hmem, -, rfl⟩ := read_visible hread
    rw [hread] at hp
    rcases h.worth name i hname hmem with ⟨hcleared, hi⟩ | ⟨q, hbytes, hfrom⟩
    · refine .inr ⟨hcleared, ?_⟩
      rcases hi with hi | hi
      · exact .inl (by rw [read_start h hstart hi]; exact hp)
      · exact .inr (.inl (by rw [read_start h hstart hi]; exact hp))
    · rw [hbytes, loadable_frame] at hp
      split at hp
      · cases hp
        exact .inl hfrom
      · cases hp

/-- **Every run of saves and clears**, whatever fails and wherever it is cut: `Load` selects
    nothing, or one whole generation from after the last completed `Clear`, or, where none was
    completed, what was there at the start; it selects nothing older than the last generation
    that was saved with success and can be decoded, if nothing was published after it over a
    current file that could not be read; and what came under the second name can be loaded. -/
theorem checkpoints (hstart : Quiet start) (es : List (Event Empty Op Cut Answer)) :
    let s := ((machine A).run { st := { disk := start, log := [] }, fg := .ret () } es).st
    (∀ p, load A s.disk = some p →
        From s.log ((cleared s.log).getD 0) p ∨ (cleared s.log = none ∧ AtStart A start p)) ∧
      (∀ n, secured A s.log = some n → ∃ p, load A s.disk = some p ∧ From s.log n p) ∧
      ∀ bytes, s.disk.read .previous = some bytes →
        start.read .previous = some bytes ∨ (loadable A (some bytes)).isSome = true := by
  intro s
  have hvisible (name : Name) : start.candidates name = [start.visible name] := by
    unfold Disk.candidates Disk.visible Disk.Entry.candidates Disk.Entry.visible
    rw [hstart.settled name]
    rfl
  have hfirst (name : Name) (i : Nat) (hi : some i ∈ start.candidates name) :
      start.visible name = some i := by
    rw [hvisible] at hi
    exact (List.mem_singleton.1 hi).symm
  have hinit : Intact start A { disk := start, log := [] } := by
    refine ⟨fun _ _ => rfl, Nat.le_refl _, fun name i hi => hstart.numbered name i (hfirst name i hi),
      fun name i _ hi => hstart.synced i (hstart.numbered name i (hfirst name i hi)),
      fun name i hname hi => .inl ⟨rfl, ?_⟩, fun name i _ hi => ⟨rfl, hfirst name i hi⟩,
      fun i hi => .inl (hfirst .previous i hi), nofun⟩
    rcases hname with rfl | rfl
    · exact .inl (hfirst .current i hi)
    · exact .inr (hfirst .previous i hi)
  have hintact : Intact start A s :=
    ((keeps hstart).run (c := { st := { disk := start, log := [] }, fg := .ret () })
      ⟨hinit, trivial⟩ fun e (_ : e ∈ es) => by cases e <;> trivial).1
  refine ⟨fun p hp => ?_, fun n hn => ?_, fun bytes hbytes => ?_⟩
  · unfold load at hp
    split at hp
    · cases hcurrent : loadable A (s.disk.read .current) with
      | some q =>
        rw [hcurrent] at hp
        cases hp
        exact hintact.loads hstart (.inl rfl) hcurrent
      | none =>
        rw [hcurrent] at hp
        exact hintact.loads hstart (.inr rfl) hp
    · split at hp
      · rename_i graph metadata hgraph hmetadata
        split at hp
        · obtain ⟨i, hi, -, rfl⟩ := read_visible hgraph
          obtain ⟨j, hj, -, rfl⟩ := read_visible hmetadata
          obtain ⟨hcleared, hi⟩ := hintact.legacy .graph i (.inl rfl) hi
          obtain ⟨-, hj⟩ := hintact.legacy .metadata j (.inr rfl) hj
          obtain ⟨rfl, -⟩ := Option.filter_eq_some_iff.1 hp |>.imp_left Option.some.inj
          exact .inr ⟨hcleared, .inr (.inr ⟨read_start hintact hstart hi,
            read_start hintact hstart hj⟩)⟩
        · cases hp
      · cases hp
  · have hsurvives := hintact.newest n hn
    obtain ⟨i, p, hi, hbytes, hfrom, -⟩ := hsurvives.current _ (s.disk.entry .current).visible_mem
    have hi : s.disk.visible .current = some i := hi
    have hread : s.disk.read .current = some (frame A p) := by
      unfold Disk.read
      rw [hi, ← hbytes]
      rfl
    unfold load
    rw [hi, hread, loadable_frame]
    cases hdecodes : decodes A p with
    | true => exact ⟨p, rfl, hfrom⟩
    | false =>
      -- the newest one is published and does not load
      obtain ⟨j, q, hj, hbytes, hfrom, hq⟩ :=
        hsurvives.undecodable (by rw [hread, Option.bind_some, read_frame]; exact hdecodes)
      refine ⟨q, ?_, hfrom⟩
      unfold Disk.read
      rw [hj]
      show (loadable A (some (s.disk.file j).bytes)) = _
      rw [hbytes, loadable_frame, hq]
      rfl
  · obtain ⟨i, hi, -, rfl⟩ := read_visible hbytes
    exact (hintact.previous i hi).imp_left (read_start hintact hstart)

/-! ### A graph that does not load -/

/-- `boost::crc_32_type`, byte by byte. -/
def crc32 (bytes : List Char) : UInt32 :=
  let bit (crc : UInt32) : UInt32 :=
    if crc &&& 1 = 1 then (crc >>> 1) ^^^ 0xEDB88320 else crc >>> 1
  bytes.foldl (fun crc c => bit (bit (bit (bit (bit (bit (bit (bit
    (crc ^^^ UInt32.ofNat c.toNat))))))))) 0xFFFFFFFF ^^^ 0xFFFFFFFF

/-- A reader of graphs of one pose, which may be no number. -/
def onePose : Archive (Option Nat) :=
  { deserializeXML := fun text =>
      if text = "nan".toList then some [(poseKey 0, none)] else some [(poseKey 0, some 0)]
    isfinite := Option.isSome
    number := fun text => text.all fun c => c.isDigit || c == '.'
    crc := crc32 }

def onePayload (graph : String) (h : graph.toList.length < 2 ^ 64) : Payload :=
  { graph := graph.toList, metadata := "next_index=1\nlast_node_time_s=7.5\n".toList,
    sized := ⟨h, by decide⟩ }

def finite : Payload := onePayload "zero" (by decide)
def notFinite : Payload := onePayload "nan" (by decide)

def blank : Disk Name Char :=
  { entry := fun _ => { durable := none, pending := [] }
    file := fun _ => { bytes := [], synced := true }, next := 0 }

theorem blank_quiet : Quiet blank := ⟨fun _ => rfl, fun _ _ => rfl, nofun⟩

/-- A save in which nothing fails. -/
def saving (p : Payload) : List (Event Empty Op Cut Answer) :=
  .start (.save p) :: (List.range 30).map fun n => .step { ok := true, n := n }

theorem checkpoints_finite : ∃ p,
    load onePose ((machine onePose).run { st := { disk := blank, log := [] }, fg := .ret () }
      (saving finite ++ saving notFinite)).st.disk = some p ∧
    From ((machine onePose).run { st := { disk := blank, log := [] }, fg := .ret () }
      (saving finite ++ saving notFinite)).st.log 0 p :=
  (checkpoints (A := onePose) blank_quiet (saving finite ++ saving notFinite)).2.1 0
    (by decide +kernel)

/-- Both saves succeed, and the first one is loaded. -/
theorem older_than_saved :
    ((machine onePose).run { st := { disk := blank, log := [] }, fg := .ret () }
        (saving finite ++ saving notFinite)).st.log =
      [.saved, .saving notFinite, .saved, .saving finite] ∧
    load onePose ((machine onePose).run { st := { disk := blank, log := [] }, fg := .ret () }
        (saving finite ++ saving notFinite)).st.disk = some finite := by
  decide +kernel

end Checkpoint
end Fusion
end Mowgli
