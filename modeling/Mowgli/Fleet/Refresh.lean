import Mathlib.Data.List.Induction
import Mowgli.Fleet.Completed

/-!
# Refresh — a replay adds nothing

The log of a run holds, newest first, the receipts that were accepted and the resets. Which
receipts those are is said by the log alone: a receipt is accepted when its member qualifies
and it is newer than the last one of that robot in the log.

A receipt is a `Completion` of an area when it reports it and the one accepted before it, from
the same robot, did not. **The memory is made of completions**, and no other receipt moves a
time in it; that is `Kept`, which a tick carries from member to member as `During`.
-/

namespace Mowgli
namespace Fleet
namespace Completed

inductive Mark
  /-- A receipt, the areas it reports, and what was remembered when its tick began. -/
  | took (id : String) (receipt : CoverageObservation) (areas : List UInt32) (memory : Areas)
  | reset

def lastTaken (id : String) : List Mark → Option (CoverageObservation × List UInt32)
  | [] => none
  | .took id' receipt areas _ :: past => if id' = id then some (receipt, areas) else lastTaken id past
  | .reset :: past => lastTaken id past

/-- Later, or in the same instant and further on. -/
def Newer (receipt old : CoverageObservation) : Prop :=
  receipt.pointer ≠ old.pointer ∧ (old.receivedAt < receipt.receivedAt ∨
    old.receivedAt = receipt.receivedAt ∧ old.sequence < receipt.sequence)

instance (receipt old : CoverageObservation) : Decidable (Newer receipt old) :=
  inferInstanceAs (Decidable (_ ∧ _))

def hear (now : Time) (memory : Areas) (log : List Mark) (m : Member) : List Mark :=
  match qualified now m with
  | none => log
  | some receipt =>
    if ∀ old ∈ lastTaken m.id log, Newer receipt old.1 then
      .took m.id receipt m.completed memory :: log
    else log

inductive Event
  | tick (enabled : Bool) (rows : Option (List FleetRobot)) (now : Time)
  | reset

def Event.time? : Event → Option Time
  | .tick _ _ now => some now
  | .reset => none

structure Session where
  c : Coordinator
  log : List Mark

namespace Session

def boot (saved : Areas) : Session := { c := .new saved, log := [] }

def step (ttl : Time) (σ : Session) : Event → Session
  | .tick true (some rows) now =>
    { c := σ.c.tick ttl true (some rows) now
      log := (rows.map memberFromRobotAt).foldl (hear now σ.c.memory) σ.log }
  | .tick enabled rows now => { σ with c := σ.c.tick ttl enabled rows now }
  | .reset => { c := σ.c.reset, log := .reset :: σ.log }

def run (ttl : Time) (saved : Areas) (es : List Event) : Session :=
  es.foldl (step ttl) (boot saved)

end Session

/-- A receipt reports an area that the robot's one before did not. -/
def Completes (id : String) (areas : List UInt32) (past : List Mark) (area : UInt32) : Prop :=
  area ∈ areas ∧ ∀ old ∈ lastTaken id past, area ∉ old.2

/-- What a completion counts from: its receipt, or an older time that was remembered when the
robot was first heard. -/
def stamp (id : String) (receipt : CoverageObservation) (memory : Areas) (past : List Mark)
    (area : UInt32) : Time :=
  match lastTaken id past, memory area with
  | none, some saved => min saved receipt.receivedAt
  | _, _ => receipt.receivedAt

/-- Since the last reset, a receipt completed the area, and counts from `seen`. -/
def Completion (log : List Mark) (area : UInt32) (seen : Time) : Prop :=
  ∃ later id receipt areas memory past,
    log = later ++ .took id receipt areas memory :: past ∧ Mark.reset ∉ later ∧
      Completes id areas past area ∧ stamp id receipt memory past area = seen

/-- A completion that `before` does not hold yet. -/
def Completion.Since (before log : List Mark) (area : UInt32) (seen : Time) : Prop :=
  ∃ later id receipt areas memory past,
    log = later ++ .took id receipt areas memory :: (past ++ before) ∧ Mark.reset ∉ later ∧
      Completes id areas (past ++ before) area ∧ stamp id receipt memory (past ++ before) area = seen

/-- A completion since the last reset, or what was loaded at the start, before any reset. -/
def Source (saved : Areas) (log : List Mark) (area : UInt32) (seen : Time) : Prop :=
  Mark.reset ∉ log ∧ saved area = some seen ∨ Completion log area seen

section Marks

variable {saved : Areas} {log : List Mark} {area : UInt32} {seen : Time} {mark : Mark}

theorem Completion.push (hmark : mark ≠ .reset) (h : Completion log area seen) :
    Completion (mark :: log) area seen := by
  obtain ⟨later, id, receipt, areas, memory, past, rfl, hreset, h⟩ := h
  refine ⟨mark :: later, id, receipt, areas, memory, past, rfl, ?_, h⟩
  intro hmem
  rcases List.mem_cons.1 hmem with h | h
  · exact hmark h.symm
  · exact hreset h

theorem Source.push (hmark : mark ≠ .reset) (h : Source saved log area seen) :
    Source saved (mark :: log) area seen := by
  rcases h with ⟨hreset, hsaved⟩ | h
  · refine .inl ⟨?_, hsaved⟩
    intro hmem
    rcases List.mem_cons.1 hmem with h | h
    · exact hmark h.symm
    · exact hreset h
  · exact .inr (h.push hmark)

theorem Completion.Since.push {before : List Mark} (hmark : mark ≠ .reset)
    (h : Completion.Since before log area seen) :
    Completion.Since before (mark :: log) area seen := by
  obtain ⟨later, id, receipt, areas, memory, past, rfl, hreset, h⟩ := h
  refine ⟨mark :: later, id, receipt, areas, memory, past, rfl, ?_, h⟩
  intro hmem
  rcases List.mem_cons.1 hmem with h | h
  · exact hmark h.symm
  · exact hreset h

/-- A completion in a longer log is the newest mark's, or was there before. -/
theorem Completion.cons {id : String} {receipt : CoverageObservation} {areas : List UInt32}
    {memory : Areas} (h : Completion (.took id receipt areas memory :: log) area seen) :
    Completes id areas log area ∧ stamp id receipt memory log area = seen ∨
      Completion log area seen := by
  obtain ⟨later, id', receipt', areas', memory', past, heq, hreset, h⟩ := h
  cases later with
  | nil =>
    cases heq
    exact .inl h
  | cons mark later =>
    cases heq
    exact .inr ⟨later, id', receipt', areas', memory', past, rfl,
      fun hmem => hreset (List.mem_cons_of_mem _ hmem), h⟩

theorem not_completion_reset : ¬ Completion (.reset :: log) area seen := by
  rintro ⟨later, id, receipt, areas, memory, past, heq, hreset, -⟩
  cases later with
  | nil => cases heq
  | cons mark later =>
    cases heq
    exact hreset (List.mem_cons_self ..)

end Marks

/-! ## What one receipt does -/

variable {area : UInt32} {memory : Areas}

theorem accept_areas {previous : CompletionObservation} {receipt : CoverageObservation}
    {completed : List UInt32} :
    (accept memory previous receipt completed).areas area =
      if area ∈ completed then some (seenAt memory previous receipt area) else none := by
  suffices h : ∀ areas : Areas, completed.foldl (fun areas area => Function.update areas area
      (some (seenAt memory previous receipt area))) areas area =
        if area ∈ completed then some (seenAt memory previous receipt area) else areas area by
    exact h _
  induction completed with
  | nil => intro areas; rfl
  | cons a completed ih =>
    intro areas
    rw [List.foldl_cons, ih]
    by_cases h : area ∈ completed
    · rw [if_pos h, if_pos (List.mem_cons_of_mem _ h)]
    · by_cases ha : area = a
      · subst ha
        rw [if_neg h, if_pos (List.mem_cons_self ..), Function.update_self]
      · rw [if_neg h, if_neg (by simp [h, ha]), Function.update_of_ne ha]

/-- A merge only moves a time forward, and only to a time of the areas it merges. -/
theorem merge_cases (ttl now : Time) (out areas : Areas) (area : UInt32) :
    merge ttl now out areas area = out area ∨
      ∃ seen, areas area = some seen ∧ seen ≠ 0 ∧ Lives ttl now seen ∧
        (out area).getD 0 < seen ∧ merge ttl now out areas area = some seen := by
  unfold merge
  cases h : areas area with
  | none => exact .inl rfl
  | some seen =>
    by_cases hc : (!seen.isZero && decide (Lives ttl now seen) && decide ((out area).getD 0 < seen))
        = true
    · simp only [Bool.and_eq_true, decide_eq_true_eq, Time.isZero, Bool.not_eq_true',
        beq_eq_false_iff_ne] at hc
      refine .inr ⟨seen, rfl, hc.1.1, hc.1.2, hc.2, ?_⟩
      simp [Time.isZero, hc.1.1, hc.1.2, hc.2]
    · exact .inl (if_neg hc)

theorem le_merge (ttl now : Time) (out areas : Areas) (area : UInt32) :
    (out area).getD 0 ≤ (merge ttl now out areas area).getD 0 := by
  rcases merge_cases ttl now out areas area with h | ⟨seen, -, -, -, hlt, h⟩
  · rw [h]
  · rw [h]
    exact hlt.le

variable {seen : Time}

/-- What is merged and lives is remembered, or something newer is. -/
theorem merge_covers {ttl now : Time} {out areas : Areas} (h : areas area = some seen)
    (hne : seen ≠ 0) (hlives : Lives ttl now seen) :
    seen ≤ (merge ttl now out areas area).getD 0 := by
  unfold merge
  rw [h]
  by_cases hlt : (out area).getD 0 < seen
  · simp [Time.isZero, hne, hlives, hlt]
  · have hle : seen ≤ (out area).getD 0 := not_lt.1 hlt
    simpa [Time.isZero, hne, hlives, hlt] using hle

theorem merge_self {ttl now : Time} {out areas : Areas}
    (h : ∀ area seen, areas area = some seen → seen ≠ 0 → Lives ttl now seen →
      seen ≤ (out area).getD 0) : merge ttl now out areas = out := by
  funext area
  rcases merge_cases ttl now out areas area with h' | ⟨seen, hs, hne, hlives, hlt, -⟩
  · exact h'
  · exact absurd (h area seen hs hne hlives) (not_le_of_gt hlt)

/-! ## A tick, member by member -/

/-- A completion, or a time that is kept for a robot. -/
def Known (log : List Mark) (observations : Observations) (area : UInt32) (seen : Time) : Prop :=
  Completion log area seen ∨ ∃ id, (observations id).areas area = some seen

/-- The observations are the last receipts of the log, with times that have a source. -/
structure Follows (saved : Areas) (observations : Observations) (log : List Mark) : Prop where
  receipt : ∀ id, (observations id).receipt = (lastTaken id log).map Prod.fst
  members : ∀ id area, ((observations id).areas area).isSome = true ↔
    ∃ old ∈ lastTaken id log, area ∈ old.2
  source : ∀ id area seen, (observations id).areas area = some seen → seen ≠ 0 →
    Source saved log area seen

/-- After some of the members of a tick at `now` that began in `before`. -/
structure During (ttl : Time) (saved : Areas) (before : Session) (now : Time)
    (st : Areas × Observations) (log : List Mark) : Prop where
  grown : ∃ fresh, log = fresh ++ before.log ∧ Mark.reset ∉ fresh
  follows : Follows saved st.2 log
  remembered : ∀ area seen, st.1 area = some seen →
    Source saved log area seen ∧ Lives ttl now seen
  covers : ∀ area seen, Known log st.2 area seen → seen ≠ 0 →
    seen ≤ now ∧ (Clock.sub now seen ≤ ttl → seen ≤ (st.1 area).getD 0)
  news : ∀ area seen, st.1 area = some seen →
    before.c.memory area = some seen ∨ Completion.Since before.log log area seen

section Tick

variable {ttl now : Time} {saved : Areas} {before : Session} {st : Areas × Observations}
  {log : List Mark} {m : Member} {receipt : CoverageObservation}

theorem qualified_le (h : qualified now m = some receipt) : receipt.receivedAt ≤ now := by
  unfold qualified at h
  cases hobs : m.sessionObservation with
  | none => simp [hobs] at h
  | some r =>
    rw [hobs] at h
    dsimp only at h
    split at h
    · cases h
    · rename_i hc
      cases h
      simp only [Bool.or_eq_true, decide_eq_true_eq, not_or] at hc
      exact not_lt.1 hc.1.2

theorem stamp_le {id : String} {past : List Mark} :
    stamp id receipt memory past area ≤ receipt.receivedAt := by
  unfold stamp
  split
  · exact min_le_right _ _
  · exact le_rfl

theorem not_newer_of_outOfOrder {old : CoverageObservation} (h : outOfOrder receipt old = true) :
    ¬ Newer receipt old := by
  rintro ⟨-, hlt | ⟨heq, hseq⟩⟩
  · simp only [outOfOrder, Bool.and_eq_true, Bool.or_eq_true, decide_eq_true_eq,
      beq_iff_eq] at h
    rcases h.2 with h | ⟨h, -⟩
    · exact absurd h (not_lt.2 hlt.le)
    · exact absurd hlt (by rw [h]; exact lt_irrefl _)
  · simp only [outOfOrder, Bool.and_eq_true, Bool.or_eq_true, decide_eq_true_eq,
      beq_iff_eq] at h
    rcases h.2 with h | ⟨-, h⟩
    · exact absurd heq (ne_of_gt h)
    · exact UInt64.not_lt.2 h hseq

theorem newer_of_inOrder {old : CoverageObservation} (h : outOfOrder receipt old = false)
    (hpointer : receipt.pointer ≠ old.pointer) : Newer receipt old := by
  refine ⟨hpointer, ?_⟩
  have hne : (receipt.pointer != old.pointer) = true := by simpa using hpointer
  rw [outOfOrder, hne, Bool.true_and, Bool.or_eq_false_iff, decide_eq_false_iff_not,
    Bool.and_eq_false_iff, decide_eq_false_iff_not, beq_eq_false_iff_ne] at h
  rcases lt_or_eq_of_le (not_lt.1 h.1) with hlt | heq
  · exact .inl hlt
  · refine .inr ⟨heq, ?_⟩
    rcases h.2 with hne | hseq
    · exact absurd heq.symm hne
    · exact UInt64.not_le.1 hseq

/-- A member changes nothing, or its receipt is taken. -/
theorem During.cases (h : During ttl saved before now st log) (memory : Areas) (m : Member) :
    consume ttl now memory st m = st ∧ hear now memory log m = log ∨
      ∃ receipt, qualified now m = some receipt ∧
        (∀ old ∈ lastTaken m.id log, Newer receipt old.1) ∧
        consume ttl now memory st m =
          (merge ttl now st.1 (accept memory (st.2 m.id) receipt m.completed).areas,
            Function.update st.2 m.id (accept memory (st.2 m.id) receipt m.completed)) ∧
        hear now memory log m = .took m.id receipt m.completed memory :: log := by
  unfold consume hear
  cases hq : qualified now m with
  | none => exact .inl ⟨rfl, rfl⟩
  | some receipt =>
    dsimp only
    rw [h.follows.receipt m.id]
    cases hlast : lastTaken m.id log with
    | none =>
      refine .inr ⟨receipt, rfl, nofun, rfl, if_pos nofun⟩
    | some old =>
      dsimp only [Option.map_some, Option.any_some]
      by_cases hout : outOfOrder receipt old.1 = true
      · refine .inl ⟨if_pos hout, if_neg fun hall => ?_⟩
        exact not_newer_of_outOfOrder hout (hall old rfl)
      · by_cases hpointer : receipt.pointer = old.1.pointer
        · refine .inl ⟨?_, if_neg fun hall => (hall old rfl).1 hpointer⟩
          rw [if_neg hout, if_pos (by simpa using hpointer)]
          -- the times of a robot are remembered already
          rw [merge_self fun area seen hseen hne hlives =>
            (h.covers area seen (.inr ⟨m.id, hseen⟩) hne).2 hlives.2]
        · have hnewer : ∀ o ∈ some old, Newer receipt o.1 := by
            rintro o ⟨⟩
            exact newer_of_inOrder (Bool.not_eq_true _ ▸ hout) hpointer
          refine .inr ⟨receipt, rfl, hnewer, ?_, if_pos hnewer⟩
          rw [if_neg hout, if_neg (by simpa using hpointer)]

/-- The times of a receipt: what was kept for the robot, and the completions. -/
theorem Follows.accepted (h : Follows saved st.2 log)
    (hseen : (accept memory (st.2 m.id) receipt m.completed).areas area = some seen) :
    (st.2 m.id).areas area = some seen ∨
      Completes m.id m.completed log area ∧ stamp m.id receipt memory log area = seen := by
  rw [accept_areas] at hseen
  split at hseen
  · rename_i hmem
    unfold seenAt at hseen
    cases hknown : (st.2 m.id).areas area with
    | some kept =>
      rw [hknown] at hseen
      exact .inl hseen
    | none =>
      rw [hknown] at hseen
      refine .inr ⟨⟨hmem, fun old hold harea => ?_⟩, ?_⟩
      · have := (h.members m.id area).2 ⟨old, hold, harea⟩
        rw [hknown] at this
        cases this
      · rw [Option.some.injEq] at hseen
        subst hseen
        unfold stamp
        rw [h.receipt m.id]
        cases hlast : lastTaken m.id log with
        | some old =>
          cases memory area <;> rfl
        | none =>
          cases memory area with
          | none => rfl
          | some s =>
            by_cases hlt : s < receipt.receivedAt
            · simp [hlt, min_eq_left hlt.le]
            · simp [hlt, min_eq_right (not_lt.1 hlt)]
  · cases hseen

theorem Follows.completed (h : Follows saved st.2 log) (hc : Completes m.id m.completed log area) :
    (accept memory (st.2 m.id) receipt m.completed).areas area =
      some (stamp m.id receipt memory log area) := by
  have hnone : (st.2 m.id).areas area = none := by
    rw [Option.eq_none_iff_forall_ne_some]
    intro seen hseen
    obtain ⟨old, hold, harea⟩ := (h.members m.id area).1 (by rw [hseen]; rfl)
    exact hc.2 old hold harea
  obtain ⟨seen, hseen⟩ : ∃ seen,
      (accept memory (st.2 m.id) receipt m.completed).areas area = some seen :=
    ⟨_, by rw [accept_areas, if_pos hc.1]⟩
  rcases h.accepted hseen with h' | ⟨-, hstamp⟩
  · rw [hnone] at h'
    cases h'
  · rw [hseen, hstamp]

theorem Follows.take (h : Follows saved st.2 log) (memory : Areas) :
    Follows saved (Function.update st.2 m.id (accept memory (st.2 m.id) receipt m.completed))
      (.took m.id receipt m.completed memory :: log) := by
  refine ⟨fun id => ?_, fun id area => ?_, fun id area seen hseen hne => ?_⟩
  · by_cases hid : id = m.id
    · subst hid
      simp [lastTaken, accept]
    · simp [lastTaken, hid, Ne.symm hid, h.receipt id]
  · by_cases hid : id = m.id
    · subst hid
      simp only [Function.update_self, accept_areas, lastTaken, if_true]
      by_cases hmem : area ∈ m.completed <;> simp [hmem]
    · simp [lastTaken, hid, Ne.symm hid, h.members id area]
  · by_cases hid : id = m.id
    · subst hid
      rw [Function.update_self] at hseen
      rcases h.accepted hseen with hkept | ⟨hc, hstamp⟩
      · exact (h.source _ area seen hkept hne).push nofun
      · exact .inr ⟨[], _, _, _, _, log, rfl, nofun, hc, hstamp⟩
    · rw [Function.update_of_ne hid] at hseen
      exact (h.source id area seen hseen hne).push nofun

theorem During.take (h : During ttl saved before now st log)
    (hq : qualified now m = some receipt) (memory : Areas) :
    During ttl saved before now
      (merge ttl now st.1 (accept memory (st.2 m.id) receipt m.completed).areas,
        Function.update st.2 m.id (accept memory (st.2 m.id) receipt m.completed))
      (.took m.id receipt m.completed memory :: log) := by
  have hle (area : UInt32) : stamp m.id receipt memory log area ≤ now :=
    stamp_le.trans (qualified_le hq)
  have hkept {area : UInt32} {seen : Time} (hknown : Known log st.2 area seen) (hne : seen ≠ 0) :
      seen ≤ now ∧ (Clock.sub now seen ≤ ttl → seen ≤ (merge ttl now st.1
        (accept memory (st.2 m.id) receipt m.completed).areas area).getD 0) :=
    ⟨(h.covers area seen hknown hne).1, fun hold =>
      ((h.covers area seen hknown hne).2 hold).trans (le_merge ..)⟩
  have hnew {area : UInt32} {seen : Time} (hc : Completes m.id m.completed log area)
      (hstamp : stamp m.id receipt memory log area = seen) (hne : seen ≠ 0) :
      seen ≤ now ∧ (Clock.sub now seen ≤ ttl → seen ≤ (merge ttl now st.1
        (accept memory (st.2 m.id) receipt m.completed).areas area).getD 0) := by
    subst hstamp
    exact ⟨hle area, fun hold => merge_covers (h.follows.completed hc) hne ⟨hle area, hold⟩⟩
  refine ⟨?_, h.follows.take memory, ?_, ?_, ?_⟩
  · obtain ⟨fresh, rfl, hreset⟩ := h.grown
    refine ⟨.took m.id receipt m.completed memory :: fresh, rfl, ?_⟩
    simpa using hreset
  · intro area seen hseen
    dsimp only at hseen
    rcases merge_cases ttl now st.1 (accept memory (st.2 m.id) receipt m.completed).areas area with
      heq | ⟨s, hs, hne, hlives, -, heq⟩
    · rw [heq] at hseen
      exact ⟨(h.remembered area seen hseen).1.push nofun, (h.remembered area seen hseen).2⟩
    · rw [heq] at hseen
      cases hseen
      refine ⟨(h.follows.take memory).source m.id area seen ?_ hne, hlives⟩
      rwa [Function.update_self]
  · intro area seen hknown hne
    rcases hknown with hc | ⟨id, hid⟩
    · rcases hc.cons with ⟨hc, hstamp⟩ | hc
      · exact hnew hc hstamp hne
      · exact hkept (.inl hc) hne
    · dsimp only at hid
      by_cases hm : id = m.id
      · subst hm
        rw [Function.update_self] at hid
        rcases h.follows.accepted hid with hold | ⟨hc, hstamp⟩
        · exact hkept (.inr ⟨_, hold⟩) hne
        · exact hnew hc hstamp hne
      · rw [Function.update_of_ne hm] at hid
        exact hkept (.inr ⟨id, hid⟩) hne
  · intro area seen hseen
    dsimp only at hseen
    rcases merge_cases ttl now st.1 (accept memory (st.2 m.id) receipt m.completed).areas area with
      heq | ⟨s, hs, hne, hlives, hlt, heq⟩
    · rw [heq] at hseen
      exact (h.news area seen hseen).imp_right fun h' => h'.push nofun
    · rw [heq] at hseen
      cases hseen
      rcases h.follows.accepted hs with hold | ⟨hc, hstamp⟩
      · exact absurd ((h.covers area _ (.inr ⟨_, hold⟩) hne).2 hlives.2) (not_le_of_gt hlt)
      · obtain ⟨fresh, rfl, -⟩ := h.grown
        exact .inr ⟨[], _, _, _, _, fresh, rfl, nofun, hc, hstamp⟩

theorem During.fold (h : During ttl saved before now st log) (memory : Areas)
    (members : List Member) :
    During ttl saved before now (members.foldl (consume ttl now memory) st)
      (members.foldl (hear now memory) log) := by
  induction members generalizing st log with
  | nil => exact h
  | cons m members ih =>
    rw [List.foldl_cons, List.foldl_cons]
    refine ih ?_
    rcases h.cases memory m with ⟨hc, hl⟩ | ⟨receipt, hq, -, hc, hl⟩
    · rw [hc, hl]
      exact h
    · rw [hc, hl]
      exact h.take hq memory

end Tick

/-! ## Ticks and resets -/

/-- Between two events, when no tick so far was later than `t`. -/
structure Kept (ttl : Time) (saved : Areas) (σ : Session) (t : Time) : Prop where
  follows : Follows saved σ.c.completionObservations σ.log
  remembered : ∀ area seen, σ.c.memory area = some seen → Source saved σ.log area seen
  covers : ∀ area seen, Known σ.log σ.c.completionObservations area seen → seen ≠ 0 →
    seen ≤ t ∧ (Clock.sub t seen ≤ ttl →
      seen ≤ (σ.c.memory area).getD 0 ∧ ∀ s ∈ σ.c.memory area, s ≤ t)

section Runs

variable {ttl t now : Time} {saved : Areas} {σ : Session}

theorem prune_eq_some :
    prune ttl now memory area = some seen ↔ memory area = some seen ∧ Lives ttl now seen := by
  unfold prune
  simp [Option.filter_eq_some_iff]

theorem Kept.boot : Kept ttl saved (.boot saved) t := by
  refine ⟨⟨fun id => rfl, fun id area => ?_, nofun⟩, fun area seen h => .inl ⟨nofun, h⟩, ?_⟩
  · exact ⟨nofun, fun ⟨_, h, _⟩ => nomatch h⟩
  · rintro area seen (⟨later, _, _, _, _, _, heq, -⟩ | ⟨id, hid⟩) -
    · cases later <;> cases heq
    · cases hid

theorem Kept.later (h : Kept ttl saved σ t) (ht : t ≤ now) : Kept ttl saved σ now := by
  refine ⟨h.follows, h.remembered, fun area seen hknown hne => ?_⟩
  obtain ⟨hle, hcover⟩ := h.covers area seen hknown hne
  refine ⟨hle.trans ht, fun hold => ?_⟩
  obtain ⟨hseen, hall⟩ := hcover ((Clock.sub_mono ht).trans hold)
  exact ⟨hseen, fun s hs => (hall s hs).trans ht⟩

theorem Kept.begins (h : Kept ttl saved σ now) :
    During ttl saved σ now (prune ttl now σ.c.memory, σ.c.completionObservations) σ.log := by
  refine ⟨⟨[], rfl, nofun⟩, h.follows, fun area seen hseen => ?_, fun area seen hknown hne => ?_,
    fun area seen hseen => .inl (prune_eq_some.1 hseen).1⟩
  · obtain ⟨hmem, hlives⟩ := prune_eq_some.1 hseen
    exact ⟨h.remembered area seen hmem, hlives⟩
  · obtain ⟨hle, hcover⟩ := h.covers area seen hknown hne
    refine ⟨hle, fun hold => ?_⟩
    obtain ⟨hseen, hall⟩ := hcover hold
    dsimp only
    cases hmem : σ.c.memory area with
    | none =>
      rw [hmem] at hseen
      simpa [prune, hmem] using hseen
    | some s =>
      rw [hmem, Option.getD_some] at hseen
      have hlives : Lives ttl now s :=
        ⟨hall s hmem, (Clock.sub_anti hseen).trans hold⟩
      rw [prune_eq_some.2 ⟨hmem, hlives⟩]
      exact hseen

theorem During.ends {st : Areas × Observations} {log : List Mark} {before : Session}
    (h : During ttl saved before now st log) :
    Kept ttl saved ⟨⟨st.1, st.2⟩, log⟩ now := by
  refine ⟨h.follows, fun area seen hseen => (h.remembered area seen hseen).1, ?_⟩
  intro area seen hknown hne
  obtain ⟨hle, hcover⟩ := h.covers area seen hknown hne
  exact ⟨hle, fun hold => ⟨hcover hold, fun s hs => (h.remembered area s hs).2.1⟩⟩

theorem Kept.tick (h : Kept ttl saved σ now) (rows : List FleetRobot) :
    During ttl saved σ now
      ((σ.step ttl (.tick true (some rows) now)).c.memory,
        (σ.step ttl (.tick true (some rows) now)).c.completionObservations)
      (σ.step ttl (.tick true (some rows) now)).log :=
  h.begins.fold σ.c.memory (rows.map memberFromRobotAt)

theorem Kept.reset (h : Kept ttl saved σ t) : Kept ttl saved (σ.step ttl .reset) t := by
  refine ⟨⟨fun id => h.follows.receipt id, fun id area => ?_, fun id area seen hseen hne => ?_⟩,
    nofun, fun area seen hknown hne => ?_⟩
  · refine Iff.trans ?_ (h.follows.members id area)
    show (((σ.c.completionObservations id).areas area).map fun _ => (0 : Time)).isSome = true ↔ _
    rw [Option.isSome_map]
  · obtain ⟨_, -, hzero⟩ := Option.map_eq_some_iff.1 hseen
    exact absurd hzero.symm hne
  · rcases hknown with hc | ⟨id, hid⟩
    · exact absurd hc not_completion_reset
    · obtain ⟨_, -, hzero⟩ := Option.map_eq_some_iff.1 hid
      exact absurd hzero.symm hne

theorem Kept.run (es : List Event) : ∀ now, (es.filterMap Event.time? ++ [now]).Pairwise (· ≤ ·) →
    Kept ttl saved (.run ttl saved es) now := by
  induction es using List.reverseRecOn with
  | nil => exact fun now _ => .boot
  | append_singleton es e ih =>
    intro now hclock
    have hstep : Session.run ttl saved (es ++ [e]) = (Session.run ttl saved es).step ttl e := by
      simp [Session.run]
    rw [hstep]
    cases e with
    | reset =>
      have htimes : (es ++ [Event.reset]).filterMap Event.time? = es.filterMap Event.time? := by
        rw [List.filterMap_append]
        exact List.append_nil _
      rw [htimes] at hclock
      exact (ih now hclock).reset
    | tick enabled rows u =>
      have htimes : (es ++ [Event.tick enabled rows u]).filterMap Event.time? =
          es.filterMap Event.time? ++ [u] := by simp [Event.time?]
      rw [htimes] at hclock
      obtain ⟨hbefore, -, hle⟩ := List.pairwise_append.1 hclock
      have hkept := ih u hbefore
      have hu : u ≤ now := hle u (by simp) now (by simp)
      refine Kept.later ?_ hu
      match enabled, rows with
      | true, some rows => exact (hkept.tick rows).ends
      | true, none => exact hkept
      | false, rows => exact hkept

end Runs

/-- After every tick the memory holds only completions since the last reset (or what was loaded
before any), none older than the time to live; of each area it holds the latest; and a tick
moves a time only to a completion that it accepted. -/
theorem completed_memory (ttl : Time) (saved : Areas) (es : List Event) (rows : List FleetRobot)
    (now : Time) (hclock : (es.filterMap Event.time? ++ [now]).Pairwise (· ≤ ·)) (area : UInt32) :
    let before := Session.run ttl saved es
    let after := before.step ttl (.tick true (some rows) now)
    (∀ seen, after.c.memory area = some seen →
      (seen ≤ now ∧ Clock.sub now seen ≤ ttl) ∧
        (Mark.reset ∉ after.log ∧ saved area = some seen ∨ Completion after.log area seen) ∧
        (before.c.memory area = some seen ∨ Completion.Since before.log after.log area seen)) ∧
    ∀ seen, Completion after.log area seen → 0 < seen → Clock.sub now seen ≤ ttl →
      ∃ latest, after.c.memory area = some latest ∧ seen ≤ latest := by
  intro before after
  have htick := (@Kept.run ttl saved es now hclock).tick rows
  refine ⟨fun seen hseen => ⟨(htick.remembered area seen hseen).2,
    (htick.remembered area seen hseen).1, htick.news area seen hseen⟩, ?_⟩
  intro seen hc hpos hold
  have hle := (htick.covers area seen (.inl hc) (ne_of_gt hpos)).2 hold
  dsimp only at hle
  cases hmem : after.c.memory area with
  | none =>
    rw [hmem] at hle
    exact absurd hpos (not_lt.2 hle)
  | some latest =>
    rw [hmem] at hle
    exact ⟨latest, rfl, hle⟩

/-- A robot that reports area 5 as completed, received at `now`. -/
def reporting (now : Time) : FleetRobot :=
  { id := "peer", self := false, online := true, highLevelStatus := none
    highLevelStatusAge := none
    coverageSession := some (some ⟨some true, some 5, some [5]⟩)
    coverageSessionAge := some (.seconds 1)
    coverageObservation := some { pointer := 0, receivedAt := now, sequence := 1 } }

/-- A completion, its time to live, and the reset that ends it. -/
theorem completed_memory_reported :
    let before := Session.run 43200000000000 (fun _ => none)
      [.tick true (some []) 1000000000, .reset, .tick false none 2000000000]
    let after := before.step 43200000000000 (.tick true (some [reporting 2000000000]) 3000000000)
    (∀ seen, after.c.memory 5 = some seen →
      (seen ≤ 3000000000 ∧ Clock.sub 3000000000 seen ≤ 43200000000000) ∧
        (Mark.reset ∉ after.log ∧ none = some seen ∨ Completion after.log 5 seen) ∧
        (before.c.memory 5 = some seen ∨ Completion.Since before.log after.log 5 seen)) ∧
    ∀ seen, Completion after.log 5 seen → 0 < seen →
      Clock.sub 3000000000 seen ≤ 43200000000000 →
        ∃ latest, after.c.memory 5 = some latest ∧ seen ≤ latest :=
  completed_memory 43200000000000 (fun _ => none)
    [.tick true (some []) 1000000000, .reset, .tick false none 2000000000]
    [reporting 2000000000] 3000000000 (by decide) 5

/-- A robot that is heard for the first time after a reset brings its areas back, although no
receipt of it without them was ever accepted. -/
theorem first_heard_after_reset :
    let σ := Session.run 43200000000000 (fun _ => none)
      [.tick true (some []) 1000000000, .reset,
        .tick true (some [reporting 2000000000]) 3000000000]
    σ.c.memory 5 = some 2000000000 ∧
      ¬ ∃ later id receipt areas memory past, σ.log = later ++ .took id receipt areas memory :: past ∧
        Mark.reset ∉ later ∧ 5 ∈ areas ∧ ∃ old ∈ lastTaken id past, 5 ∉ old.2 := by
  refine ⟨by decide +kernel, ?_⟩
  rintro ⟨later, id, receipt, areas, memory, past, hlog, hreset, -, old, hold, -⟩
  have heq : (Session.run 43200000000000 (fun _ => none)
      [.tick true (some []) 1000000000, .reset,
        .tick true (some [reporting 2000000000]) 3000000000]).log =
      [.took "peer" { pointer := 0, receivedAt := 2000000000, sequence := 1 } [5]
        (fun _ => none), .reset] := by rfl
  rw [heq] at hlog
  cases later with
  | nil =>
    cases hlog
    cases hold
  | cons mark later =>
    have hrest := (List.cons.inj hlog).2
    cases later with
    | nil => cases hrest
    | cons mark' later =>
      have hmark := (List.cons.inj hrest).1
      exact hreset (by simp [← hmark])

end Completed
end Fleet
end Mowgli
