import Mowgli.Lib.Routine
import Mowgli.Params.Log

/-!
# ResetMarker — the request that survives a reboot

`src/fw_param_reset.c` over the backup registers DR7 to DR10: a marker, its complement,
and the two halves of a request id. A reset is pending when the marker pair is complete
and the id is not zero.

`arm` and `clear` are routines of single register accesses, because **a power cut may
fall between any two of them**. The environment's answer to a write is whether the
register took it: a dropped write leaves the register as it was, which is what the
read-backs are there to find. The registers also keep the list of the writes issued, for
the statements only.

What arming relies on is the order. The complement goes to zero first and to its magic
last, so at every point in between the pair does not match, whatever an earlier partial
arm or clear has left (`arm_marks`). Clearing never touches the id (`clear_keeps`), so a
cleared request is refused from then on as a retained duplicate (`cleared_stays`).
-/

namespace Mowgli
namespace Reset

def MARKER_MAGIC : Word := 0xA55A#32
def MARKER_COMPLEMENT : Word := 0x5AA5#32

inductive Reg where
  | marker
  | complement
  | idLow
  | idHigh
deriving DecidableEq

/-- The four backup registers, and the writes issued to them, newest first. -/
structure Backup where
  marker : Word
  complement : Word
  idLow : Word
  idHigh : Word
  writes : List (Reg × Word)

namespace Backup

def blank : Backup :=
  { marker := 0#32, complement := 0#32, idLow := 0#32, idHigh := 0#32, writes := [] }

def set (b : Backup) (value : Word) : Reg → Backup
  | .marker => { b with marker := value }
  | .complement => { b with complement := value }
  | .idLow => { b with idLow := value }
  | .idHigh => { b with idHigh := value }

/-- `HAL_RTCEx_BKUPWrite`, taken or dropped. -/
def write (b : Backup) (reg : Reg) (value : Word) (taken : Bool) : Backup :=
  let b' := if taken then b.set value reg else b
  { b' with writes := (reg, value) :: b.writes }

def markerPairMatches (b : Backup) : Bool :=
  b.marker = MARKER_MAGIC ∧ b.complement = MARKER_COMPLEMENT

def lastRequestId (b : Backup) : Word :=
  ((b.idHigh &&& 0xFFFF#32) <<< 16) ||| (b.idLow &&& 0xFFFF#32)

def isPending (b : Backup) : Bool :=
  b.markerPairMatches && b.lastRequestId != 0#32

end Backup

/-! ## The routines -/

/-- A routine over the backup registers. -/
abbrev Access (α : Type) := Routine Bool Backup α

def write (reg : Reg) (value : Word) : Access Unit :=
  .call fun taken b => ((), b.write reg value taken)

def read {α : Type} (r : Backup → α) : Access α := .get r

def idLow (id : Word) : Word := id &&& 0xFFFF#32
def idHigh (id : Word) : Word := (id >>> 16) &&& 0xFFFF#32

/-- The writes of `arm`, each with the read-back that lets the next one happen. -/
def armWrites (id : Word) : Access Bool := do
  write .complement 0#32
  if ← read fun b => b.complement == 0#32 then
    write .idLow (idLow id)
    if ← read fun b => b.idLow == idLow id then
      write .idHigh (idHigh id)
      if ← read fun b => b.idHigh == idHigh id && b.lastRequestId == id then
        write .marker MARKER_MAGIC
        if ← read fun b => b.marker == MARKER_MAGIC && b.complement == 0#32 then
          write .complement MARKER_COMPLEMENT
          read fun b => b.markerPairMatches && b.lastRequestId == id
        else pure false
      else pure false
    else pure false
  else pure false

/-- `fw_param_reset_arm`. -/
def arm (id : Word) : Access Bool := do
  if id = 0#32 then pure false
  else
    let storedId ← read Backup.lastRequestId
    if ← read Backup.isPending then
      -- The pending marker owns one request: a duplicate is idempotent, another id fails.
      pure (storedId == id)
    else if storedId = id then pure false
    else armWrites id

/-- `fw_param_reset_clear`. -/
def clear (id : Word) : Access Bool := do
  if id = 0#32 then pure false
  else if ← read fun b => b.isPending && b.lastRequestId == id then
    write .marker 0#32
    if ← read fun b => b.marker == 0#32 && !b.isPending then
      write .complement 0#32
      read fun b => b.marker == 0#32 && b.complement == 0#32 && b.lastRequestId == id &&
        !b.isPending
    else pure false
  else pure false

/-! ## The registers -/

namespace Backup

variable {b : Backup} {reg : Reg} {value : Word} {taken : Bool}

theorem isPending_iff : b.isPending = true ↔
    b.marker = MARKER_MAGIC ∧ b.complement = MARKER_COMPLEMENT ∧ b.lastRequestId ≠ 0#32 := by
  simp [isPending, markerPairMatches, and_assoc]

theorem not_pending_of_complement (h : b.complement = 0#32) : b.isPending = false := by
  rw [Bool.eq_false_iff, ne_eq, isPending_iff]
  rintro ⟨_, hc, _⟩
  rw [h] at hc
  exact absurd hc (by decide)

@[simp] theorem write_writes : (b.write reg value taken).writes = (reg, value) :: b.writes := rfl

theorem write_complement (h : reg ≠ .complement) :
    (b.write reg value taken).complement = b.complement := by
  cases taken with
  | false => rfl
  | true =>
    cases reg with
    | complement => exact absurd rfl h
    | marker => rfl
    | idLow => rfl
    | idHigh => rfl

theorem write_lastRequestId (h : reg = .marker ∨ reg = .complement) :
    (b.write reg value taken).lastRequestId = b.lastRequestId := by
  rcases h with rfl | rfl
  · cases taken <;> rfl
  · cases taken <;> rfl

end Backup

/-! ## Arming -/

/-- The writes of a complete arm, newest first. -/
def armed (id : Word) : List (Reg × Word) :=
  [(.complement, MARKER_COMPLEMENT), (.marker, MARKER_MAGIC), (.idHigh, idHigh id),
    (.idLow, idLow id), (.complement, 0#32)]

/-- While `id` is being armed, from `b₀` on: what is pending is untouched, or it is `id`
    with every write issued. -/
def Arming (id : Word) (b₀ b : Backup) : Prop :=
  b.isPending = true → b = b₀ ∨ (b.writes = armed id ++ b₀.writes ∧ b.lastRequestId = id)

/-- The complement is zero, after the writes `done`. -/
def Open (done : List (Reg × Word)) (b : Backup) : Prop :=
  b.complement = 0#32 ∧ b.writes = done

variable {id : Word} {b₀ : Backup} {b : Backup} {ws : List Bool}

theorem Open.arming {done : List (Reg × Word)} (h : Open done b) : Arming id b₀ b :=
  fun hp => absurd hp (by rw [Backup.not_pending_of_complement h.1]; simp)

/-- A write elsewhere leaves the complement at zero. -/
theorem write_open {done : List (Reg × Word)} {reg : Reg} {value : Word}
    (h : reg ≠ .complement) :
    (Guard.alone Bool (Arming id b₀)).Triple (Open done) (write reg value)
      (fun _ => Open ((reg, value) :: done)) := by
  refine .call Guard.alone_stable fun taken b _ _ ho => ?_
  have hopen : Open ((reg, value) :: done) (b.write reg value taken) :=
    ⟨(Backup.write_complement h).trans ho.1, by rw [Backup.write_writes, ho.2]⟩
  exact ⟨hopen.arming, hopen⟩

theorem give_triple {inv P : Backup → Prop} {R : Backup → Prop} :
    (Guard.alone Bool inv).Triple P (.ret false) (fun ok b => ok = true → R b) :=
  .ret fun _ _ _ h => absurd h (by simp)

/-- **The order of the writes**: in between the pair does not match, and at the end it
    stands for `id`. -/
theorem armWrites_triple (hb₀ : b₀.isPending = false) :
    (Guard.alone Bool (Arming id b₀)).Triple (fun b => b = b₀) (armWrites id)
      (fun ok b => ok = true → b.lastRequestId = id) := by
  unfold armWrites
  refine .bind (Q := fun _ b => b.isPending = false ∧ b.writes = (.complement, 0#32) :: b₀.writes ∨
    Open ((.complement, 0#32) :: b₀.writes) b) ?_ fun _ => ?_
  · refine .call Guard.alone_stable fun taken b _ _ hb => ?_
    subst hb
    cases taken with
    | true =>
      have ho : Open ((.complement, 0#32) :: b.writes) (b.write .complement 0#32 true) :=
        ⟨rfl, rfl⟩
      exact ⟨ho.arming, .inr ho⟩
    | false =>
      refine ⟨fun hp => ?_, .inl ⟨hb₀, rfl⟩⟩
      exact absurd (show b.isPending = true from hp) (by simp [hb₀])
  refine .bind (.get Guard.alone_stable) fun ok => .ite (fun hok => ?_) (fun _ => give_triple)
  subst hok
  refine .bind (Q := fun _ => Open ((.idLow, idLow id) :: (.complement, 0#32) :: b₀.writes)) ?_
    fun _ => ?_
  · refine (write_open (by simp)).conseq (fun b _ hb => ?_) (fun _ _ _ hq => hq)
    obtain ⟨h | h, hz⟩ := hb
    · exact ⟨by simpa using hz, h.2⟩
    · exact h
  refine .bind (.get Guard.alone_stable) fun ok => .ite (fun _ => ?_) (fun _ => give_triple)
  refine .bind ((write_open (by simp)).conseq (fun _ _ hb => hb.1) (fun _ _ _ hq => hq)) fun _ => ?_
  refine .bind (.get Guard.alone_stable) fun ok => .ite (fun hok => ?_) (fun _ => give_triple)
  subst hok
  -- From here on the id is the requested one, and only the marker pair is written.
  refine .bind (Q := fun _ b => b.lastRequestId = id ∧ Open ((.marker, MARKER_MAGIC) ::
    (.idHigh, idHigh id) :: (.idLow, idLow id) :: (.complement, 0#32) :: b₀.writes) b) ?_
    fun _ => ?_
  · refine .call Guard.alone_stable fun taken b _ _ hb => ?_
    obtain ⟨ho, hid⟩ := hb
    have hopen : Open _ (b.write .marker MARKER_MAGIC taken) :=
      ⟨(Backup.write_complement (by simp)).trans ho.1, by rw [Backup.write_writes, ho.2]⟩
    refine ⟨hopen.arming, ?_, hopen⟩
    rw [Backup.write_lastRequestId (.inl rfl)]
    simpa using (Bool.and_eq_true_iff.1 hid).2
  refine .bind (.get Guard.alone_stable) fun ok => .ite (fun _ => ?_) (fun _ => give_triple)
  refine .bind (Q := fun _ _ => True) ?_ fun _ => ?_
  · refine .call Guard.alone_stable fun taken b _ _ hb => ⟨fun _ => .inr ⟨?_, ?_⟩, trivial⟩
    · rw [Backup.write_writes, hb.1.2.2]; rfl
    · rw [Backup.write_lastRequestId (.inr rfl)]; exact hb.1.1
  · refine .conseq (.get Guard.alone_stable) (fun _ _ h => h) fun ok b _ hb hok => ?_
    rw [← hb.2] at hok
    simpa using (Bool.and_eq_true_iff.1 hok).2

theorem arm_triple :
    (Guard.alone Bool (Arming id b₀)).Triple (fun b => b = b₀) (arm id)
      (fun ok b => ok = true → b.lastRequestId = id) := by
  unfold arm
  refine .ite (fun _ => give_triple) fun _ => ?_
  refine .bind (.get Guard.alone_stable) fun storedId => ?_
  refine .bind (.get Guard.alone_stable) fun pending => .ite (fun _ => ?_) fun hpend => ?_
  · refine .ret fun b _ hb hok => ?_
    rw [hb.1.2]
    simpa using hok
  · refine .ite (fun _ => give_triple) fun _ => ?_
    intro b hi hb
    obtain ⟨⟨rfl, _⟩, hp⟩ := hb
    exact armWrites_triple (by rw [hp]; simpa using hpend) b hi rfl

/-- An id that is refused before the first write leaves the registers as they are. -/
theorem arm_refused (hp : b.isPending = false) (h : b.lastRequestId = id) :
    ((arm id).run ws b).2 = b := by
  have key : (Guard.alone Bool (· = b)).Triple (fun b' => b' = b) (arm id) (fun _ _ => True) := by
    unfold arm
    refine .ite (fun _ => .ret fun _ _ _ => trivial) fun _ => ?_
    refine .bind (.get Guard.alone_stable) fun storedId => ?_
    refine .bind (.get Guard.alone_stable) fun pending => .ite (fun _ => .ret fun _ _ _ => trivial)
      fun _ => ?_
    intro b' hi hb
    obtain ⟨⟨rfl, hid⟩, _⟩ := hb
    rw [if_pos (hid.symm.trans h)]
    trivial
  exact ((key b rfl rfl).run rfl).1

/-! ## Clearing -/

/-- While a request is being cleared, from `b₀` on: the id stays, and nothing becomes
    pending that was not. -/
def Clearing (b₀ b : Backup) : Prop :=
  b.lastRequestId = b₀.lastRequestId ∧ (b₀.isPending = false → b = b₀)

theorem clear_triple :
    (Guard.alone Bool (Clearing b₀)).Triple (fun b => b = b₀) (clear id)
      (fun ok b => ok = true → b.isPending = false ∧ b.lastRequestId = id) := by
  unfold clear
  refine .ite (fun _ => give_triple) fun _ => ?_
  refine .bind (.get Guard.alone_stable) fun ok => .ite (fun hok => ?_) fun _ => give_triple
  subst hok
  have hwrite : ∀ {reg : Reg}, reg = .marker ∨ reg = .complement →
      (Guard.alone Bool (Clearing b₀)).Triple (fun _ => b₀.isPending = true)
        (write reg 0#32) (fun _ _ => b₀.isPending = true) := by
    intro reg hreg
    refine .call Guard.alone_stable fun taken b _ hi hp => ⟨⟨?_, fun h => ?_⟩, hp⟩
    · rw [Backup.write_lastRequestId hreg]; exact hi.1
    · exact absurd hp (by simp [h])
  refine .bind ((hwrite (.inl rfl)).conseq (fun b _ hb => ?_) fun _ _ _ h => h) fun _ => ?_
  · obtain ⟨rfl, hb⟩ := hb
    exact (Bool.and_eq_true_iff.1 hb).1
  refine .bind (.get Guard.alone_stable) fun ok => .ite (fun _ => ?_) fun _ => give_triple
  refine .bind ((hwrite (.inr rfl)).conseq (fun b _ hb => hb.1) fun _ _ _ h => h) fun _ => ?_
  refine .conseq (.get Guard.alone_stable) (fun _ _ h => h) fun ok b _ hb hok => ?_
  rw [← hb.2] at hok
  simp only [Bool.and_eq_true, beq_iff_eq, Bool.not_eq_true'] at hok
  exact ⟨hok.2, hok.1.2⟩

/-! ## Cuts, reboots and retries -/

/-- One attempt at the registers, cut after as many accesses as it has answers. What is
    cut is rebooted, which leaves the registers as they are. -/
inductive Attempt where
  | arm (id : Word) (taken : List Bool)
  | clear (id : Word) (taken : List Bool)

def Attempt.requestId : Attempt → Word
  | .arm id _ => id
  | .clear id _ => id

def Attempt.run (b : Backup) : Attempt → Backup
  | .arm id taken => ((Reset.arm id).run taken b).2
  | .clear id taken => ((Reset.clear id).run taken b).2

def Attempt.runAll (b : Backup) (attempts : List Attempt) : Backup :=
  attempts.foldl Attempt.run b

/-- **A cut arm** is pending with every write issued, or not pending. -/
theorem arm_marks (hb : b.isPending = false) (hp : ((arm id).run ws b).2.isPending = true) :
    ((arm id).run ws b).2.writes = armed id ++ b.writes ∧
      ((arm id).run ws b).2.lastRequestId = id := by
  have hi : Arming id b b := fun _ => .inl rfl
  have hsafe : (Guard.alone Bool (Arming id b)).Safe
      (fun ok b' => ok = true → b'.lastRequestId = id) (arm id) b := arm_triple b hi rfl
  rcases (hsafe.run hi).1 hp with h | h
  · rw [h, hb] at hp; exact absurd hp (by simp)
  · exact h

/-- **A cut clear** has not touched the id, nor made anything pending. -/
theorem clear_keeps : Clearing b ((clear id).run ws b).2 :=
  ((clear_triple b ⟨rfl, fun _ => rfl⟩ rfl).run ⟨rfl, fun _ => rfl⟩).1

theorem clear_succeeds (h : ((clear id).run ws b).1 = .ret true) :
    ((clear id).run ws b).2.isPending = false ∧ ((clear id).run ws b).2.lastRequestId = id := by
  have hi : Clearing b b := ⟨rfl, fun _ => rfl⟩
  have hs : (Guard.alone Bool (Clearing b)).Safe
      (fun ok b' => ok = true → b'.isPending = false ∧ b'.lastRequestId = id)
      ((clear id).run ws b).1 ((clear id).run ws b).2 := ((clear_triple b hi rfl).run hi).2
  rw [h] at hs
  exact hs rfl

/-- One attempt on a cleared request: as long as the stored id is still the one that was
    cleared, nothing is pending. -/
theorem attempt_unmarked {a : Attempt} (hp : b.isPending = false) (hid : b.lastRequestId = id)
    (hid' : (a.run b).lastRequestId = id) : (a.run b).isPending = false := by
  cases a with
  | arm id' ws =>
    by_cases hsame : id' = id
    · subst hsame
      exact (congrArg Backup.isPending (arm_refused hp hid)).trans hp
    · rw [Bool.eq_false_iff]
      exact fun hmark => hsame ((arm_marks hp hmark).2.symm.trans hid')
  | clear id' ws =>
    have h : ((clear id').run ws b).2 = b := clear_keeps.2 hp
    exact (congrArg Backup.isPending h).trans hp

/-- One attempt with the id that was cleared changes nothing. -/
theorem attempt_refused {a : Attempt} (hp : b.isPending = false)
    (hid : b.lastRequestId = a.requestId) : a.run b = b := by
  cases a with
  | arm id' ws => exact arm_refused hp hid
  | clear id' ws => exact clear_keeps.2 hp

theorem runAll_unmarked {later : List Attempt} (hp : b.isPending = false)
    (h : ∀ k, (Attempt.runAll b (later.take k)).lastRequestId = id) :
    (Attempt.runAll b later).isPending = false := by
  induction later generalizing b with
  | nil => exact hp
  | cons a later ih =>
    exact ih (attempt_unmarked hp (h 0) (h 1)) fun k => h (k + 1)

theorem runAll_refused {later : List Attempt} (hp : b.isPending = false)
    (hid : b.lastRequestId = id) (h : ∀ a ∈ later, a.requestId = id) :
    Attempt.runAll b later = b := by
  induction later with
  | nil => rfl
  | cons a later ih =>
    have hrun : a.run b = b := attempt_refused hp (hid.trans (h a (by simp)).symm)
    show Attempt.runAll (a.run b) later = b
    rw [hrun]
    exact ih fun a' ha' => h a' (by simp [ha'])

/-- **The reset marker is atomic.** A cut arm is pending only with every write issued and
    with its own id; a cut clear leaves the id alone and makes nothing pending; and once a
    clear of `id` has succeeded, no attempts make `id` pending again while the stored id is
    still `id`, which attempts with that id alone never change. -/
theorem marker_atomic :
    (∀ (b : Backup) (id : Word) (ws : List Bool),
      b.isPending = false → id ≠ 0#32 → b.lastRequestId ≠ id →
      ((arm id).run ws b).2.isPending = true →
        ((arm id).run ws b).2.writes = armed id ++ b.writes ∧
          ((arm id).run ws b).2.lastRequestId = id) ∧
    (∀ (b : Backup) (id : Word) (ws : List Bool), b.isPending = true →
      (((clear id).run ws b).2.isPending = true ∧
          ((clear id).run ws b).2.lastRequestId = b.lastRequestId ∨
        ((clear id).run ws b).2.isPending = false) ∧
      ((clear id).run ws b).2.lastRequestId = b.lastRequestId) ∧
    ∀ (b : Backup) (id : Word) (ws : List Bool) (later : List Attempt),
      ((clear id).run ws b).1 = .ret true →
      ((∀ k, (Attempt.runAll ((clear id).run ws b).2 (later.take k)).lastRequestId = id) →
        (Attempt.runAll ((clear id).run ws b).2 later).isPending = false) ∧
      ((∀ a ∈ later, a.requestId = id) →
        (Attempt.runAll ((clear id).run ws b).2 later).lastRequestId = id ∧
          (Attempt.runAll ((clear id).run ws b).2 later).isPending = false) := by
  refine ⟨fun b id ws hb _ _ hp => arm_marks hb hp, fun b id ws _ => ?_,
    fun b id ws later hok => ?_⟩
  · have hid : ((clear id).run ws b).2.lastRequestId = b.lastRequestId := clear_keeps.1
    refine ⟨?_, hid⟩
    cases hp : ((clear id).run ws b).2.isPending with
    | true => exact .inl ⟨rfl, hid⟩
    | false => exact .inr rfl
  · obtain ⟨hp, hid⟩ := clear_succeeds hok
    refine ⟨runAll_unmarked hp, fun h => ?_⟩
    rw [runAll_refused hp hid h]
    exact ⟨hid, hp⟩

/-- Both sides of it happen: a whole arm on blank registers is pending with its id, and
    after a whole clear another arm with that id leaves it not pending. -/
theorem marker_atomic_blank :
    ((arm 7#32).run (List.replicate 12 true) .blank).2.lastRequestId = 7#32 ∧
      (Attempt.runAll ((clear 7#32).run (List.replicate 5 true)
        ((arm 7#32).run (List.replicate 12 true) .blank).2).2
        [.arm 7#32 (List.replicate 12 true)]).isPending = false := by
  have hcleared : ((clear 7#32).run (List.replicate 5 true)
      ((arm 7#32).run (List.replicate 12 true) .blank).2).1 = .ret true := by rfl
  exact ⟨(marker_atomic.1 .blank 7#32 _ rfl (by decide) (by decide) rfl).2,
    ((marker_atomic.2.2 _ 7#32 _ [.arm 7#32 (List.replicate 12 true)] hcleared).2
      (by simp [Attempt.requestId])).2⟩

end Reset
end Mowgli
