import Mathlib.Data.List.Nodup
import Mowgli.Map.Corridors

/-!
# Transaction — an edit of the corridors goes through whole or not at all

The safety result of the LiDAR-ignore list: nothing new is suppressed before areas.dat says so,
and a removal does not wait for the disk. The ids stay apart because the counter is past every
one that was ever in the list.
-/

namespace Mowgli
namespace Map

section Model

variable {F D : Type} (fl : Floats F D)

/-! ## What a commit can do -/

variable {σ : MapServer F D} {next : Nat} {c : LidarIgnoreCorridor F D}
  {cs corridors : List (LidarIgnoreCorridor F D)} {candidate : List (LidarIgnoreCorridorEntry F D)}
  {carried : List UInt32} {disk : Disk} {id : UInt32} {operation : Str} {n : Nat}

theorem writeAreasCandidate_error {allow : Bool} {corridors : List (LidarIgnoreCorridorEntry F D)}
    {what : Str} (h : writeAreasCandidate fl σ allow corridors next disk = .error what) :
    what ≠ [] := by
  unfold writeAreasCandidate at h
  cases disk with
  | cannotOpen =>
    cases h
    simp
  | full =>
    cases h
    simp
  | cannotFlush reason =>
    dsimp only at h
    split at h <;> cases h <;> simp
  | cannotRename reason =>
    dsimp only at h
    split at h <;> cases h <;> simp
  | replaced synced =>
    dsimp only at h
    split at h
    · cases h
      simp
    · cases h

theorem writeAreasCandidate_ok {allow : Bool} {corridors : List (LidarIgnoreCorridorEntry F D)}
    {r : Str × Bool} (h : writeAreasCandidate fl σ allow corridors next disk = .ok r) :
    disk = .replaced r.2 ∧ r.1 = areasText fl σ corridors next := by
  unfold writeAreasCandidate at h
  cases disk with
  | cannotOpen => cases h
  | full => cases h
  | cannotFlush reason =>
    dsimp only at h
    split at h <;> cases h
  | cannotRename reason =>
    dsimp only at h
    split at h <;> cases h
  | replaced synced =>
    dsimp only at h
    split at h
    · cases h
    · cases h
      exact ⟨rfl, rfl⟩

/-- The file of a state is the one with this list. -/
def Recorded (σ : MapServer F D) : Prop :=
  σ.file = some (areasText fl σ σ.lidarIgnoreCorridors σ.nextLidarCorridorId)

/-- A commit with a file either leaves everything alone or installs its candidate, with the
file replaced or with nothing added. -/
theorem commitCorridors_cases (hpath : σ.settings.areasFilePath ≠ [])
    (candidate : List (LidarIgnoreCorridorEntry F D)) (next : Nat) (result : ReplaceResponse F D)
    (persist : Bool) (disk : Disk) (publishes : Bool) (hresult : result.committed = false) :
    let r := commitCorridors fl σ candidate next result persist disk publishes
    (r.1 = σ ∧ r.2.committed = false ∧
        onlyRemovesSuppression fl candidate σ.lidarIgnoreCorridors = false) ∨
      (r.2.committed = true ∧ (∃ synced, disk = .replaced synced) ∧
        r.1 = install { σ with file := some (areasText fl σ candidate next) } candidate next
          publishes) ∨
      (r.2.committed = true ∧ onlyRemovesSuppression fl candidate σ.lidarIgnoreCorridors = true ∧
        r.1 = install σ candidate next publishes) := by
  have hconf : σ.settings.areasFilePath.isEmpty = false := by
    cases hp : σ.settings.areasFilePath with
    | nil => exact absurd hp hpath
    | cons c s => rfl
  intro r
  show _ ∨ _
  cases hw : writeAreasCandidate fl σ false candidate next disk with
  | ok written =>
    obtain ⟨hdisk, htext⟩ := writeAreasCandidate_ok fl hw
    refine Or.inr (Or.inl ⟨?_, ⟨written.2, hdisk⟩, ?_⟩)
    · simp [r, commitCorridors, hconf, hw]
    · simp [r, commitCorridors, hconf, hw, htext]
  | error what =>
    have hwhat : what.isEmpty = false := by
      cases what with
      | nil => exact absurd rfl (writeAreasCandidate_error fl hw)
      | cons c s => rfl
    cases honly : onlyRemovesSuppression fl candidate σ.lidarIgnoreCorridors with
    | true =>
      refine Or.inr (Or.inr ⟨?_, rfl, ?_⟩)
      · simp [r, commitCorridors, hconf, hw, honly]
      · simp [r, commitCorridors, hconf, hw, honly]
    | false =>
      refine Or.inl ⟨?_, ?_, rfl⟩
      · simp [r, commitCorridors, hconf, hw, honly, hwhat]
      · simp [r, commitCorridors, hconf, hw, honly, hwhat, hresult]

/-! ## The edits -/

inductive Edit (F D : Type)
  | add (corridor : LidarIgnoreCorridor F D)
  | replace (clientOperationId : Str) (corridors : List (LidarIgnoreCorridor F D))
  | clear

/-- The validated candidate of an edit and its counter. -/
def Edit.staged (σ : MapServer F D) :
    Edit F D → Option (List (LidarIgnoreCorridorEntry F D) × Nat)
  | .add corridor => (stageAdd fl σ corridor).map fun r => (r.1, r.2.1)
  | .replace operation corridors => (stageReplace fl σ operation corridors).toOption
  | .clear => some ([], σ.nextLidarCorridorId)

/-- The state after an edit and the result of its commit. -/
def Edit.perform (σ : MapServer F D) (disk : Disk) (publishes : Bool) :
    Edit F D → MapServer F D × ReplaceResponse F D
  | .add corridor =>
    let r := onAddLidarIgnoreCorridor fl σ corridor disk publishes
    (r.state, r.result)
  | .replace operation corridors =>
    let r := onReplaceLidarIgnoreCorridors fl σ operation corridors disk publishes
    (r.state, r.result)
  | .clear =>
    let r := onClearLidarIgnoreCorridors fl σ disk publishes
    (r.state, r.result)

/-- The ids of a candidate that its request did not bring. -/
def Edit.minted (σ : MapServer F D) (candidate : List (LidarIgnoreCorridorEntry F D)) :
    Edit F D → List UInt32
  | .add corridor =>
    if corridor.id == 0 || σ.lidarIgnoreCorridors.any fun e => e.id == corridor.id then
      (candidate.drop σ.lidarIgnoreCorridors.length).map (·.id)
    else []
  | .replace _ corridors =>
    ((corridors.zip candidate).filter fun r => r.1.id == 0).map fun r => r.2.id
  | .clear => []

/-- An edit without a candidate changes nothing; any other is one commit of it. -/
theorem Edit.perform_cases (σ : MapServer F D) (disk : Disk) (publishes : Bool) (e : Edit F D) :
    (e.staged fl σ = none ∧ (e.perform fl σ disk publishes).1 = σ ∧
        (e.perform fl σ disk publishes).2.committed = false) ∨
      ∃ candidate next result persist, e.staged fl σ = some (candidate, next) ∧
        ReplaceResponse.committed result = false ∧
        e.perform fl σ disk publishes =
          commitCorridors fl σ candidate next result persist disk publishes := by
  cases e with
  | add corridor =>
    cases hs : stageAdd fl σ corridor with
    | none =>
      refine Or.inl ⟨?_, ?_, ?_⟩ <;>
        simp [Edit.staged, Edit.perform, onAddLidarIgnoreCorridor, hs, ReplaceResponse.zero]
    | some staged =>
      refine Or.inr ⟨staged.1, staged.2.1, .zero, false, ?_, rfl, ?_⟩ <;>
        simp [Edit.staged, Edit.perform, onAddLidarIgnoreCorridor, hs]
  | replace operation corridors =>
    cases hs : stageReplace fl σ operation corridors with
    | error message =>
      refine Or.inl ⟨?_, ?_, ?_⟩ <;>
        simp [Edit.staged, Edit.perform, onReplaceLidarIgnoreCorridors, hs, Except.toOption,
          validationRejected, ReplaceResponse.zero]
    | ok staged =>
      refine Or.inr ⟨staged.1, staged.2, validationRejected σ operation stagingMessage, true, ?_,
        rfl, ?_⟩ <;> simp [Edit.staged, Edit.perform, onReplaceLidarIgnoreCorridors, hs,
          Except.toOption]
  | clear =>
    exact Or.inr ⟨[], σ.nextLidarCorridorId, .zero, false, rfl, rfl, rfl⟩

/-! ## What a candidate keeps -/

/-- The width is within the limits. -/
def withinLimits (w : D) : Bool :=
  fl.double.le (kMinLidarIgnoreCorridorWidthM fl) w &&
    fl.double.le w (kMaxLidarIgnoreCorridorWidthM fl)

def idsOf (corridors : List (LidarIgnoreCorridorEntry F D)) : List Nat :=
  corridors.map fun c => c.id.toNat

theorem idsOf_cons (c : LidarIgnoreCorridorEntry F D) (cs : List (LidarIgnoreCorridorEntry F D)) :
    idsOf (c :: cs) = c.id.toNat :: idsOf cs := rfl

/-- A list of corridors as it may be live, with the counter behind it. -/
structure Sound (corridors : List (LidarIgnoreCorridorEntry F D)) (next : Nat) : Prop where
  distinct : (idsOf corridors).Nodup
  nonzero : ∀ c ∈ corridors, c.id ≠ 0
  below : Fresh.Below (idsOf corridors) next
  pos : 0 < next
  bound : next ≤ 4294967296
  width : ∀ c ∈ corridors, withinLimits fl c.widthM = true
  segment : ∀ c ∈ corridors, hasSegment fl c.polyline = true

/-- What the checks of one corridor leave. -/
theorem stored_of_valid (hd : fl.double.Lawful) (h : corridorRejection fl (normalised c) = none)
    (id : Nat) :
    withinLimits fl (storedCorridor fl c id).widthM = true ∧
      hasSegment fl (storedCorridor fl c id).polyline = true := by
  unfold corridorRejection at h
  split_ifs at h with _ hfin _ _ hseg
  have hfinite : fl.double.isFinite c.widthM = true := by
    simpa [normalised] using hfin
  have hclamp := hd.clamp_le (p := 1 / 20) (q := 6 / 5) hfinite (by norm_num) (by norm_num)
    (by norm_num)
  refine ⟨?_, hseg⟩
  unfold withinLimits
  rw [Bool.and_eq_true]
  exact hclamp

theorem storedCorridor_id {id : Nat} (h : id < 4294967296) :
    (storedCorridor fl c id).id.toNat = id := by
  show (UInt32.ofNat id).toNat = id
  rw [UInt32.toNat_ofNat']
  exact Nat.mod_eq_of_lt h

theorem UInt32.ne_zero_of_toNat_pos {n : UInt32} (h : 0 < n.toNat) : n ≠ 0 := by
  rintro rfl
  exact Nat.lt_irrefl 0 h

/-- The ids a request brings along. -/
def explicitIds (corridors : List (LidarIgnoreCorridor F D)) : List UInt32 :=
  (corridors.map (·.id)).filter (· != 0)

theorem explicitIds_zero (h : c.id = 0) : explicitIds (c :: cs) = explicitIds cs := by
  simp [explicitIds, h]

theorem explicitIds_ne (h : c.id ≠ 0) : explicitIds (c :: cs) = c.id :: explicitIds cs := by
  simp [explicitIds, h]

/-- One corridor of the first pass. -/
theorem reserveIds_cons {remaining : Nat} {ids ids' : List UInt32}
    (h : reserveIds fl remaining ids (c :: cs) = .ok ids') :
    corridorRejection fl (normalised c) = none ∧ ∃ rest,
      (c.id = 0 ∧ reserveIds fl rest ids cs = .ok ids') ∨
        c.id ≠ 0 ∧ c.id ∉ ids ∧ reserveIds fl rest (c.id :: ids) cs = .ok ids' := by
  rw [reserveIds] at h
  by_cases hentry : remaining < sizeofEntry
  · rw [if_pos hentry] at h
    cases h
  rw [if_neg hentry] at h
  dsimp only at h
  by_cases hname : remaining - sizeofEntry < size c.name
  · rw [if_pos hname] at h
    cases h
  rw [if_neg hname] at h
  by_cases hpoints :
      (remaining - sizeofEntry - size c.name) / sizeofPoint32 < c.polyline.length
  · rw [if_pos hpoints] at h
    cases h
  rw [if_neg hpoints] at h
  cases hvalid : corridorRejection fl (normalised c) with
  | some reason =>
    rw [hvalid] at h
    cases h
  | none =>
    rw [hvalid] at h
    refine ⟨rfl, remaining - sizeofEntry - size c.name - c.polyline.length * sizeofPoint32, ?_⟩
    by_cases hzero : c.id = 0
    · exact Or.inl ⟨hzero, by simpa [hzero] using h⟩
    · have hbeq : (c.id == 0) = false := by simpa using hzero
      dsimp only at h
      rw [hbeq, if_neg Bool.false_ne_true] at h
      by_cases hdup : c.id ∈ ids
      · rw [if_pos hdup] at h
        cases h
      · rw [if_neg hdup] at h
        exact Or.inr ⟨hzero, hdup, h⟩

/-- The first pass takes every explicit id once, and every corridor is valid. -/
theorem reserveIds_ok {remaining : Nat} {ids ids' : List UInt32}
    (h : reserveIds fl remaining ids corridors = .ok ids') :
    ids' = (explicitIds corridors).reverse ++ ids ∧ (ids.Nodup → ids'.Nodup) ∧
      ∀ c ∈ corridors, corridorRejection fl (normalised c) = none := by
  induction corridors generalizing remaining ids with
  | nil =>
    cases h
    exact ⟨rfl, id, nofun⟩
  | cons c cs ih =>
    obtain ⟨hvalid, rest, hcase⟩ := reserveIds_cons fl h
    rcases hcase with ⟨hzero, h⟩ | ⟨hne, hdup, h⟩
    · obtain ⟨hids, hnodup, hall⟩ := ih h
      refine ⟨by rw [explicitIds_zero hzero]; exact hids, hnodup, ?_⟩
      intro d hd
      rcases List.mem_cons.1 hd with rfl | hd
      · exact hvalid
      · exact hall d hd
    · obtain ⟨hids, hnodup, hall⟩ := ih h
      refine ⟨?_, fun hn => hnodup (List.nodup_cons.2 ⟨hdup, hn⟩), ?_⟩
      · rw [explicitIds_ne hne, hids]
        simp
      · intro d hd
        rcases List.mem_cons.1 hd with rfl | hd
        · exact hvalid
        · exact hall d hd

/-- What the second pass gives out: an explicit id, or one the counter just passed. -/
structure Minted (next : Nat) (corridors : List (LidarIgnoreCorridor F D))
    (candidate : List (LidarIgnoreCorridorEntry F D)) (next' : Nat) : Prop where
  le : next ≤ next'
  bound : next' ≤ 4294967296
  source : ∀ n ∈ idsOf candidate,
    n ∈ (explicitIds corridors).map UInt32.toNat ∨ next ≤ n ∧ n < next'
  distinct : (idsOf candidate).Nodup
  stored : ∀ e ∈ candidate, ∃ c ∈ corridors, ∃ id, e = storedCorridor fl c id
  fresh : ∀ r ∈ corridors.zip candidate, r.1.id = 0 → next ≤ r.2.id.toNat

theorem mintIds_some {next' : Nat} (h : mintIds fl next corridors = some (candidate, next'))
    (hbelow : Fresh.Below ((explicitIds corridors).map UInt32.toNat) next)
    (hnodup : (explicitIds corridors).Nodup) (hbound : next ≤ 4294967296) :
    Minted fl next corridors candidate next' := by
  induction corridors generalizing next candidate with
  | nil =>
    cases h
    refine ⟨Nat.le_refl _, hbound, ?_, List.nodup_nil, ?_, ?_⟩
    · intro n hn
      cases hn
    · intro e he
      cases he
    · intro r hr
      cases hr
  | cons c cs ih =>
    rw [mintIds] at h
    split_ifs at h with hzero hused
    · have hzero : c.id = 0 := by simpa using hzero
      obtain ⟨⟨tail, last⟩, htail, heq⟩ := Option.map_eq_some_iff.1 h
      cases heq
      have hlt : next < 4294967296 := by
        have := Nat.not_lt.1 hused
        unfold UINT32_MAX at this
        omega
      rw [explicitIds_zero hzero] at hbelow hnodup
      have m := ih htail (hbelow.mono (Nat.le_succ next)) hnodup hlt
      have hid := storedCorridor_id fl (c := c) hlt
      refine ⟨Nat.le_of_succ_le m.le, m.bound, ?_, ?_, ?_, ?_⟩
      · intro n hn
        rw [explicitIds_zero hzero]
        rw [idsOf_cons, hid] at hn
        rcases List.mem_cons.1 hn with heq | hn
        · rw [heq]
          exact Or.inr ⟨Nat.le_refl next, m.le⟩
        · rcases m.source n hn with hexp | ⟨hge, hlt'⟩
          · exact Or.inl hexp
          · exact Or.inr ⟨Nat.le_of_succ_le hge, hlt'⟩
      · rw [idsOf_cons, hid]
        refine List.nodup_cons.2 ⟨?_, m.distinct⟩
        -- an id of the rest is explicit, so below the counter, or after it
        intro hmem
        rcases m.source next hmem with hexp | ⟨hge, -⟩
        · exact hbelow.not_mem hexp
        · exact Nat.lt_irrefl next hge
      · intro e he
        rcases List.mem_cons.1 he with rfl | he
        · exact ⟨c, List.mem_cons_self, next, rfl⟩
        · obtain ⟨d, hd, id, rfl⟩ := m.stored e he
          exact ⟨d, List.mem_cons_of_mem c hd, id, rfl⟩
      · intro r hr h0
        rcases List.mem_cons.1 hr with rfl | hr
        · exact Nat.le_of_eq hid.symm
        · exact Nat.le_of_succ_le (m.fresh r hr h0)
    · have hne : c.id ≠ 0 := by simpa using hzero
      obtain ⟨⟨tail, last⟩, htail, heq⟩ := Option.map_eq_some_iff.1 h
      cases heq
      rw [explicitIds_ne hne] at hbelow hnodup
      obtain ⟨hnotin, hnodup'⟩ := List.nodup_cons.1 hnodup
      have hc : c.id.toNat < next := hbelow c.id.toNat List.mem_cons_self
      have m := ih htail (fun n hn => hbelow n (List.mem_cons_of_mem _ hn)) hnodup' hbound
      have hid := storedCorridor_id fl (c := c) c.id.toNat_lt
      refine ⟨m.le, m.bound, ?_, ?_, ?_, ?_⟩
      · intro n hn
        rw [explicitIds_ne hne]
        rw [idsOf_cons, hid] at hn
        rcases List.mem_cons.1 hn with rfl | hn
        · exact Or.inl List.mem_cons_self
        · exact (m.source n hn).imp_left (List.mem_cons_of_mem _)
      · rw [idsOf_cons, hid]
        refine List.nodup_cons.2 ⟨?_, m.distinct⟩
        intro hmem
        rcases m.source _ hmem with hexp | ⟨hge, -⟩
        · obtain ⟨d, hd, heq⟩ := List.mem_map.1 hexp
          exact hnotin (UInt32.toNat_inj.1 heq ▸ hd)
        · exact Nat.lt_irrefl _ (Nat.lt_of_lt_of_le hc hge)
      · intro e he
        rcases List.mem_cons.1 he with rfl | he
        · exact ⟨c, List.mem_cons_self, c.id.toNat, rfl⟩
        · obtain ⟨d, hd, id, rfl⟩ := m.stored e he
          exact ⟨d, List.mem_cons_of_mem c hd, id, rfl⟩
      · intro r hr h0
        rcases List.mem_cons.1 hr with rfl | hr
        · exact absurd h0 hne
        · exact m.fresh r hr h0

theorem explicitIds_nonzero (h : id ∈ explicitIds corridors) : id ≠ 0 := by
  have h' := (List.mem_filter.1 h).2
  simpa using h'

theorem UInt32.below_bound (ids : List UInt32) :
    Fresh.Below (ids.map UInt32.toNat) 4294967296 := by
  intro n hn
  obtain ⟨id, -, rfl⟩ := List.mem_map.1 hn
  exact id.toNat_lt

/-- A candidate is as good as the live list; what it minted was never below the counter. -/
structure Staged (σ : MapServer F D) (candidate : List (LidarIgnoreCorridorEntry F D)) (next : Nat)
    (e : Edit F D) : Prop where
  sound : Sound fl candidate next
  le : σ.nextLidarCorridorId ≤ next
  fresh : ∀ id ∈ e.minted σ candidate, σ.nextLidarCorridorId ≤ id.toNat

/-- A replacement is minted behind the ids it asks for, and past the counter. -/
theorem stageReplace_ok (hbound : σ.nextLidarCorridorId ≤ 4294967296)
    (h : stageReplace fl σ operation corridors = .ok (candidate, next)) :
    (∃ past, σ.nextLidarCorridorId ≤ past ∧ Minted fl past corridors candidate next) ∧
      Fresh.Below (idsOf candidate) next ∧
      ∀ c ∈ corridors, corridorRejection fl (normalised c) = none := by
  unfold stageReplace at h
  split at h
  · cases h
  split at h
  · cases h
  rename_i ids hids
  split at h
  · cases h
  rename_i staged hmint
  cases h
  obtain ⟨hreserved, hnodup, hvalid⟩ := reserveIds_ok fl hids
  rw [List.append_nil] at hreserved
  have hdistinct : (explicitIds corridors).Nodup := by
    have h := hnodup List.nodup_nil
    rwa [hreserved, List.nodup_reverse] at h
  have hexplicit : Fresh.Below ((explicitIds corridors).map UInt32.toNat)
      (Fresh.past σ.nextLidarCorridorId (ids.map UInt32.toNat)) := by
    refine (Fresh.below_past σ.nextLidarCorridorId (ids.map UInt32.toNat)).subset ?_
    intro n hn
    rw [hreserved, List.map_reverse, List.mem_reverse]
    exact hn
  have m := mintIds_some fl hmint hexplicit hdistinct
    (Fresh.past_le hbound (UInt32.below_bound ids))
  refine ⟨⟨_, Fresh.le_past σ.nextLidarCorridorId (ids.map UInt32.toNat), m⟩, ?_, hvalid⟩
  intro n hn
  rcases m.source n hn with hexp | ⟨-, hlt⟩
  · exact Nat.lt_of_lt_of_le (hexplicit n hexp) m.le
  · exact hlt

theorem stageReplace_staged (hd : fl.double.Lawful)
    (hσ : Sound fl σ.lidarIgnoreCorridors σ.nextLidarCorridorId)
    (h : stageReplace fl σ operation corridors = .ok (candidate, next)) :
    Staged fl σ candidate next (.replace operation corridors) := by
  obtain ⟨⟨past, hle, m⟩, hbelow, hvalid⟩ := stageReplace_ok fl hσ.bound h
  have hstored : ∀ e ∈ candidate, withinLimits fl e.widthM = true ∧
      hasSegment fl e.polyline = true := by
    intro e he
    obtain ⟨c, hc, id, rfl⟩ := m.stored e he
    exact stored_of_valid fl hd (hvalid c hc) id
  have hpos : 0 < past := Nat.lt_of_lt_of_le hσ.pos hle
  refine ⟨⟨m.distinct, ?_, hbelow, Nat.lt_of_lt_of_le hpos m.le, m.bound,
    fun e he => (hstored e he).1, fun e he => (hstored e he).2⟩, Nat.le_trans hle m.le, ?_⟩
  · intro c hc
    rcases m.source c.id.toNat (List.mem_map_of_mem hc) with hexp | ⟨hge, -⟩
    · obtain ⟨id, hid, heq⟩ := List.mem_map.1 hexp
      exact UInt32.toNat_inj.1 heq ▸ explicitIds_nonzero hid
    · exact UInt32.ne_zero_of_toNat_pos (Nat.lt_of_lt_of_le hpos hge)
  · intro id hid
    obtain ⟨r, hr, rfl⟩ := List.mem_map.1 hid
    obtain ⟨hzip, hzero⟩ := List.mem_filter.1 hr
    exact Nat.le_trans hle (m.fresh r hzip (by simpa using hzero))

theorem assignCorridorId_bounds (hbound : σ.nextLidarCorridorId ≤ 4294967296)
    (h : assignCorridorId σ id = some (n, next)) :
    n < next ∧ next ≤ 4294967296 ∧ σ.nextLidarCorridorId ≤ next := by
  unfold assignCorridorId at h
  obtain ⟨⟨m, m'⟩, hassigned, heq⟩ := Option.map_eq_some_iff.1 h
  cases heq
  have hlt : id.toNat < 4294967296 := id.toNat_lt
  split at hassigned
  · split at hassigned
    · cases hassigned
    · rename_i hused
      cases hassigned
      unfold UINT32_MAX at hused
      omega
  · cases hassigned
    omega

/-- An added corridor gets an id of no live one. -/
theorem assignCorridorId_some (hσ : Sound fl σ.lidarIgnoreCorridors σ.nextLidarCorridorId)
    (h : assignCorridorId σ id = some (n, next)) :
    0 < n ∧ n ∉ idsOf σ.lidarIgnoreCorridors ∧
      ((id == 0 || σ.lidarIgnoreCorridors.any fun e => e.id == id) = true →
        σ.nextLidarCorridorId ≤ n) := by
  unfold assignCorridorId at h
  dsimp only at h
  obtain ⟨⟨n', next'⟩, hassigned, heq⟩ := Option.map_eq_some_iff.1 h
  cases heq
  dsimp only
  cases hmint : (id == 0 || σ.lidarIgnoreCorridors.any fun e => e.id == id) with
  | true =>
    rw [hmint, if_pos rfl] at hassigned
    split at hassigned
    · cases hassigned
    rename_i hused
    cases hassigned
    exact ⟨hσ.pos, hσ.below.not_mem, fun _ => Nat.le_refl _⟩
  | false =>
    rw [hmint, if_neg Bool.false_ne_true] at hassigned
    cases hassigned
    rw [Bool.or_eq_false_iff] at hmint
    have hne : id.toNat ≠ 0 := by
      intro h0
      have : id = 0 := UInt32.toNat_inj.1 h0
      rw [this] at hmint
      exact absurd hmint.1 (by decide)
    refine ⟨Nat.pos_of_ne_zero hne, ?_, nofun⟩
    intro hmem
    obtain ⟨c, hc, heq⟩ := List.mem_map.1 hmem
    have hany := List.any_eq_false.1 hmint.2 c hc
    exact hany (by rw [UInt32.toNat_inj.1 heq]; exact beq_self_eq_true id)

/-- An added corridor is valid, and is stored behind the others. -/
theorem stageAdd_some {corridor : LidarIgnoreCorridor F D}
    (hbound : σ.nextLidarCorridorId ≤ 4294967296)
    (h : stageAdd fl σ corridor = some (candidate, next, n)) :
    corridorRejection fl (normalised corridor) = none ∧
      assignCorridorId σ corridor.id = some (n, next) ∧
      candidate = σ.lidarIgnoreCorridors ++ [storedCorridor fl corridor n] ∧
      (storedCorridor fl corridor n).id.toNat = n ∧
      idsOf candidate = idsOf σ.lidarIgnoreCorridors ++ [n] := by
  unfold stageAdd at h
  split at h
  · cases h
  rename_i hvalid
  obtain ⟨r, hassign, heq⟩ := Option.map_eq_some_iff.1 h
  cases heq
  obtain ⟨hlt, hle, -⟩ := assignCorridorId_bounds hbound hassign
  have hid := storedCorridor_id fl (c := corridor) (Nat.lt_of_lt_of_le hlt hle)
  refine ⟨hvalid, hassign, rfl, hid, ?_⟩
  unfold idsOf
  rw [List.map_append, List.map_singleton, hid]

theorem stageAdd_staged (hd : fl.double.Lawful) {corridor : LidarIgnoreCorridor F D}
    (hσ : Sound fl σ.lidarIgnoreCorridors σ.nextLidarCorridorId)
    (h : stageAdd fl σ corridor = some (candidate, next, n)) :
    Staged fl σ candidate next (.add corridor) := by
  obtain ⟨hvalid, hassign, rfl, hid, hids⟩ := stageAdd_some fl hσ.bound h
  obtain ⟨hlt, hbound, hle⟩ := assignCorridorId_bounds hσ.bound hassign
  obtain ⟨hpos, hnew, hmint⟩ := assignCorridorId_some fl hσ hassign
  obtain ⟨hwidth, hsegment⟩ := stored_of_valid fl hd hvalid n
  have hall : ∀ {p : LidarIgnoreCorridorEntry F D → Prop},
      (∀ c ∈ σ.lidarIgnoreCorridors, p c) → p (storedCorridor fl corridor n) →
      ∀ c ∈ σ.lidarIgnoreCorridors ++ [storedCorridor fl corridor n], p c := fun hold hnew =>
    List.forall_mem_append.2 ⟨hold, List.forall_mem_singleton.2 hnew⟩
  refine ⟨⟨?_, hall hσ.nonzero ?_, ?_, Nat.lt_of_lt_of_le hσ.pos hle, hbound,
    hall hσ.width hwidth, hall hσ.segment hsegment⟩, hle, ?_⟩
  · rw [hids]
    refine hσ.distinct.append (List.nodup_singleton n) ?_
    intro m hm hm'
    rw [List.mem_singleton.1 hm'] at hm
    exact hnew hm
  · exact UInt32.ne_zero_of_toNat_pos (by rw [hid]; exact hpos)
  · rw [hids]
    exact (hσ.below.mono hle).append (Fresh.Below.cons hlt (Fresh.Below.nil _))
  · intro m hm
    unfold Edit.minted at hm
    dsimp only at hm
    split at hm
    · rename_i hminted
      rw [List.drop_left, List.map_singleton, List.mem_singleton] at hm
      rw [hm, hid]
      exact hmint hminted
    · cases hm

variable {e : Edit F D}

/-- What an edit stages is staged by one of the services. -/
theorem Edit.staged_ways {P : Edit F D → Prop}
    (hadd : ∀ corridor n, stageAdd fl σ corridor = some (candidate, next, n) → P (.add corridor))
    (hreplace : ∀ operation corridors, stageReplace fl σ operation corridors =
      .ok (candidate, next) → P (.replace operation corridors))
    (hclear : candidate = [] → next = σ.nextLidarCorridorId → P .clear)
    (h : e.staged fl σ = some (candidate, next)) : P e := by
  cases e with
  | add corridor =>
    obtain ⟨⟨candidate', next', n⟩, hstage, heq⟩ := Option.map_eq_some_iff.1 h
    cases heq
    exact hadd corridor n hstage
  | replace operation corridors =>
    have h : (stageReplace fl σ operation corridors).toOption = some (candidate, next) := h
    cases hstage : stageReplace fl σ operation corridors with
    | error message =>
      rw [hstage] at h
      cases h
    | ok staged =>
      rw [hstage] at h
      cases h
      exact hreplace operation corridors hstage
  | clear =>
    cases h
    exact hclear rfl rfl

theorem Edit.staged_staged (hd : fl.double.Lawful)
    (hσ : Sound fl σ.lidarIgnoreCorridors σ.nextLidarCorridorId)
    (h : e.staged fl σ = some (candidate, next)) : Staged fl σ candidate next e := by
  refine Edit.staged_ways fl (fun corridor n h => stageAdd_staged fl hd hσ h)
    (fun operation corridors h => stageReplace_staged fl hd hσ h) ?_ h
  rintro rfl rfl
  refine ⟨⟨List.nodup_nil, ?_, Fresh.Below.nil _, hσ.pos, hσ.bound, ?_, ?_⟩, Nat.le_refl _, ?_⟩
  all_goals
    intro x hx
    cases hx

/-! ## The lines of a corridor in the file -/

theorem indexedLines_infix {α : Type} (lines : Nat → α → List Line) {as : List α} {i k : Nat}
    {a : α} (h : as[k]? = some a) : lines (i + k) a <:+: indexedLines lines i as := by
  induction as generalizing i k with
  | nil => cases h
  | cons b bs ih =>
    cases k with
    | zero =>
      cases h
      exact (List.prefix_append _ _).isInfix
    | succ k =>
      have := ih (i := i + 1) h
      rw [Nat.add_right_comm] at this
      exact this.trans (List.suffix_append _ _).isInfix

theorem render_infix {xs ys : List Line} (h : xs <:+: ys) : render xs <:+: render ys := by
  obtain ⟨s, t, rfl⟩ := h
  unfold render
  rw [List.flatMap_append, List.flatMap_append]
  exact ⟨_, _, rfl⟩

/-- Every corridor of the list stands in the text, with its number. -/
theorem corridorLines_infix (σ : MapServer F D) {corridors : List (LidarIgnoreCorridorEntry F D)}
    (next : Nat) {k : Nat} {c : LidarIgnoreCorridorEntry F D} (h : corridors[k]? = some c) :
    render (corridorLines fl k c) <:+: areasText fl σ corridors next := by
  refine render_infix ?_
  have := indexedLines_infix (corridorLines fl) (i := 0) h
  rw [Nat.zero_add] at this
  unfold fileLines
  refine this.trans ?_
  rw [List.append_assoc]
  exact ((List.prefix_append _ _).isInfix).trans (List.suffix_append _ _).isInfix

/-! ## Runs of edits -/

/-- What is kept between edits: a sound list, and a counter past every id it ever had. -/
structure Kept (σ : MapServer F D) (carried : List UInt32) : Prop where
  path : σ.settings.areasFilePath ≠ []
  sound : Sound fl σ.lidarIgnoreCorridors σ.nextLidarCorridorId
  below : Fresh.Below (carried.map UInt32.toNat) σ.nextLidarCorridorId

def liveIds (σ : MapServer F D) : List UInt32 := σ.lidarIgnoreCorridors.map (·.id)

/-- A state that edits lead to, with every id that was ever in the list. -/
inductive Edited : MapServer F D → List UInt32 → Prop
  | start {σ : MapServer F D} {carried : List UInt32} (h : Kept fl σ carried) :
      Edited σ (carried ++ liveIds σ)
  | edit {σ : MapServer F D} {carried : List UInt32} (h : Edited σ carried) (e : Edit F D)
      (disk : Disk) (publishes : Bool) :
      Edited (e.perform fl σ disk publishes).1
        (carried ++ liveIds (e.perform fl σ disk publishes).1)

/-- What one edit is: all or nothing, on record before it suppresses, not held up when it only
removes. -/
structure Transaction (σ : MapServer F D) (carried : List UInt32) (e : Edit F D) (disk : Disk)
    (publishes : Bool) (after : MapServer F D) (result : ReplaceResponse F D) : Prop where
  untouched : result.committed = false → after = σ
  installed : result.committed = true →
    e.staged fl σ = some (after.lidarIgnoreCorridors, after.nextLidarCorridorId) ∧
      after.corridorRevision = σ.corridorRevision + 1
  recorded : ∀ c ∈ after.lidarIgnoreCorridors,
    c ∈ σ.lidarIgnoreCorridors ∨
    (∃ now ∈ σ.lidarIgnoreCorridors, suppressesNoMore fl c now = true) ∨
    (∃ synced, disk = .replaced synced) ∧ Recorded fl after ∧
      ∃ text k, after.file = some text ∧ render (corridorLines fl k c) <:+: text
  removal : ∀ candidate next, e.staged fl σ = some (candidate, next) →
    onlyRemovesSuppression fl candidate σ.lidarIgnoreCorridors = true → result.committed = true
  sound : Sound fl after.lidarIgnoreCorridors after.nextLidarCorridorId
  fresh : result.committed = true →
    ∀ id ∈ e.minted σ after.lidarIgnoreCorridors, id ∉ carried

theorem Kept.live (h : Kept fl σ carried) : Kept fl σ (carried ++ liveIds σ) := by
  refine ⟨h.path, h.sound, ?_⟩
  rw [List.map_append]
  refine h.below.append (h.sound.below.subset ?_)
  intro n hn
  unfold liveIds at hn
  rw [List.map_map] at hn
  exact hn

/-- A committed candidate, wherever its file went. -/
theorem Kept.install (h : Kept fl σ carried) (hs : Staged fl σ candidate next e) (file : Option Str)
    (publishes : Bool) :
    Kept fl (install { σ with file := file } candidate next publishes) carried :=
  ⟨h.path, hs.sound, h.below.mono hs.le⟩

theorem Staged.not_carried (h : Kept fl σ carried) (hs : Staged fl σ candidate next e) :
    ∀ id ∈ e.minted σ candidate, id ∉ carried := by
  intro id hid hmem
  have hlt := h.below id.toNat (List.mem_map_of_mem hmem)
  exact Nat.lt_irrefl _ (Nat.lt_of_lt_of_le hlt (hs.fresh id hid))

theorem exists_suppressesNoMore {c : LidarIgnoreCorridorEntry F D}
    {current : List (LidarIgnoreCorridorEntry F D)}
    (h : onlyRemovesSuppression fl candidate current = true) (hc : c ∈ candidate) :
    ∃ now ∈ current, suppressesNoMore fl c now = true :=
  List.any_eq_true.1 (List.all_eq_true.1 h c hc)

/-- One edit. -/
theorem Kept.edit (hd : fl.double.Lawful) {σ : MapServer F D} {carried : List UInt32}
    (h : Kept fl σ carried) (e : Edit F D) (disk : Disk) (publishes : Bool) :
    Transaction fl σ carried e disk publishes (e.perform fl σ disk publishes).1
        (e.perform fl σ disk publishes).2 ∧
      Kept fl (e.perform fl σ disk publishes).1 carried := by
  rcases Edit.perform_cases fl σ disk publishes e with ⟨hnone, hsame, hnot⟩ |
    ⟨candidate, next, result, persist, hstaged, hresult, hperform⟩
  · rw [hsame]
    refine ⟨⟨fun _ => rfl, ?_, fun c hc => Or.inl hc, ?_, h.sound, ?_⟩, h⟩
    · intro hcommitted
      rw [hnot] at hcommitted
      cases hcommitted
    · intro candidate next hstaged
      rw [hnone] at hstaged
      cases hstaged
    · intro hcommitted
      rw [hnot] at hcommitted
      cases hcommitted
  rw [hperform]
  have hs := Edit.staged_staged fl hd h.sound hstaged
  rcases commitCorridors_cases fl h.path candidate next result persist disk publishes hresult with
    ⟨hsame, hnot, hmore⟩ | ⟨hyes, hdisk, hafter⟩ | ⟨hyes, hless, hafter⟩
  · rw [hsame]
    refine ⟨⟨fun _ => rfl, ?_, fun c hc => Or.inl hc, ?_, h.sound, ?_⟩, h⟩
    · intro hcommitted
      rw [hnot] at hcommitted
      cases hcommitted
    · intro candidate' next' hstaged' hless
      rw [hstaged] at hstaged'
      cases hstaged'
      rw [hmore] at hless
      cases hless
    · intro hcommitted
      rw [hnot] at hcommitted
      cases hcommitted
  · rw [hafter]
    refine ⟨⟨?_, fun _ => ⟨hstaged, rfl⟩, ?_, fun _ _ _ _ => hyes, hs.sound,
      fun _ => hs.not_carried fl h⟩, h.install fl hs _ publishes⟩
    · intro hnot
      rw [hyes] at hnot
      cases hnot
    · intro c hc
      obtain ⟨k, hk⟩ := List.mem_iff_getElem?.1 hc
      exact Or.inr (Or.inr ⟨hdisk, rfl, _, k, rfl, corridorLines_infix fl σ next hk⟩)
  · rw [hafter]
    refine ⟨⟨?_, fun _ => ⟨hstaged, rfl⟩, ?_, fun _ _ _ _ => hyes, hs.sound,
      fun _ => hs.not_carried fl h⟩, h.install fl hs σ.file publishes⟩
    · intro hnot
      rw [hyes] at hnot
      cases hnot
    · intro c hc
      exact Or.inr (Or.inl (exists_suppressesNoMore fl hless hc))

theorem Edited.kept (hd : fl.double.Lawful) {σ : MapServer F D} {carried : List UInt32}
    (h : Edited fl σ carried) : Kept fl σ carried := by
  induction h with
  | start h => exact h.live
  | @edit σ carried _ e disk publishes ih =>
    have hafter := (ih.edit fl hd e disk publishes).2
    exact hafter.live

/-- After any edits, each further one is a transaction, and so is its list. -/
theorem corridor_edits (hd : fl.double.Lawful) {σ : MapServer F D} {carried : List UInt32}
    (h : Edited fl σ carried) (e : Edit F D) (disk : Disk) (publishes : Bool) :
    Transaction fl σ carried e disk publishes (e.perform fl σ disk publishes).1
      (e.perform fl σ disk publishes).2 :=
  ((h.kept fl hd).edit fl hd e disk publishes).1

/-- A name that leaves no room for its entry. -/
theorem stageReplace_long (σ : MapServer F D) (cs : List (LidarIgnoreCorridor F D))
    (h : MAX_PAYLOAD_BYTES < size c.name) :
    stageReplace fl σ [] (c :: cs) = .error stagingMessage := by
  unfold stageReplace
  split
  · rfl
  · have hreserve : reserveIds fl (MAX_PAYLOAD_BYTES - size []) [] (c :: cs) =
        .error stagingMessage := by
      unfold MAX_PAYLOAD_BYTES at h
      rw [reserveIds, if_neg (by decide)]
      dsimp only
      rw [if_pos (Nat.lt_of_le_of_lt (by decide) h)]
    rw [hreserve]

theorem Edit.replace_refused {message : Str} {publishes : Bool}
    (h : stageReplace fl σ operation corridors = .error message) :
    ((Edit.replace operation corridors).perform fl σ disk publishes).2.committed = false := by
  simp [Edit.perform, onReplaceLidarIgnoreCorridors, h, validationRejected, ReplaceResponse.zero]

theorem Sound.boot : Sound fl [] 1 :=
  ⟨List.nodup_nil, nofun, Fresh.Below.nil 1, Nat.one_pos, by decide, nofun, nofun⟩

end Model

/-- A line of one metre along the first axis. -/
def hedge (name : Str) (id : UInt32) : LidarIgnoreCorridor ℚ ℚ :=
  { name := name, polyline := [⟨0, 0, 0⟩, ⟨1, 0, 0⟩], widthM := 1, id := id }

def bootOn (file : Option Str) : MapServer ℚ ℚ :=
  MapServer.boot exactSettings (emptyGrid 10 10) none [] file

theorem boot_kept (file : Option Str) : Kept exact (bootOn file) [] :=
  ⟨(by decide : "areas.dat".toList ≠ []), Sound.boot exact, Fresh.Below.nil 1⟩

/-- A second corridor, while the disk is full. -/
theorem corridor_edits_full :
    let first := Edit.add (hedge "hedge".toList 0)
    let second := Edit.add (hedge "fence".toList 0)
    let σ := (first.perform exact (bootOn none) (.replaced true) true).1
    let r := second.perform exact σ .full true
    Transaction exact σ ([] ++ liveIds (bootOn none) ++ liveIds σ) second .full true r.1 r.2 ∧
      r.2.committed = false ∧ σ.lidarIgnoreCorridors.length = 1 := by
  refine ⟨?_, by decide +kernel, by decide +kernel⟩
  exact corridor_edits exact exactArith_lawful
    (.edit (.start (boot_kept none)) _ _ _) _ _ _

/-! ## A removal that is not taken -/

theorem size_replicate (n : Nat) : size (List.replicate n 'a') = n := by
  induction n with
  | zero => rfl
  | succ n ih =>
    show Char.utf8Size 'a' + size (List.replicate n 'a') = n + 1
    rw [ih, Nat.add_comm]
    rfl

/-- An added name has no limit; that of a replacement has. -/
def wordy (id : UInt32) : LidarIgnoreCorridor ℚ ℚ := hedge (List.replicate 70000 'a') id

def crowded : MapServer ℚ ℚ :=
  { bootOn none with
    lidarIgnoreCorridors := [wordy 1, hedge [] 2]
    nextLidarCorridorId := 3 }

theorem crowded_kept : Kept exact crowded [] := by
  refine ⟨by decide, ⟨?_, ?_, ?_, by decide, by decide, ?_, ?_⟩, Fresh.Below.nil 3⟩
  · show [(1 : Nat), 2].Nodup
    decide
  · intro c hc
    rcases List.mem_cons.1 hc with rfl | hc
    · show (1 : UInt32) ≠ 0
      decide
    · rw [List.mem_singleton.1 hc]
      show (2 : UInt32) ≠ 0
      decide
  · show ∀ n ∈ [(1 : Nat), 2], n < 3
    decide
  · intro c hc
    rcases List.mem_cons.1 hc with rfl | hc
    · show withinLimits exact 1 = true
      decide +kernel
    · rw [List.mem_singleton.1 hc]
      decide +kernel
  · intro c hc
    rcases List.mem_cons.1 hc with rfl | hc
    · show hasSegment exact [⟨0, 0, 0⟩, ⟨1, 0, 0⟩] = true
      decide +kernel
    · rw [List.mem_singleton.1 hc]
      decide +kernel

/-- Leaving the second corridor out is refused on any disk: what stays is beyond the budget. -/
theorem wordy_removal_refused :
    Edited exact crowded ([] ++ liveIds crowded) ∧
      (∀ c ∈ [wordy 1], ∃ now ∈ crowded.lidarIgnoreCorridors,
        suppressesNoMore exact c now = true) ∧
      ∀ disk publishes,
        ((Edit.replace [] [wordy 1]).perform exact crowded disk publishes).2.committed = false := by
  refine ⟨.start crowded_kept, ?_, ?_⟩
  · intro c hc
    rw [List.mem_singleton.1 hc]
    refine ⟨wordy 1, List.mem_cons_self, ?_⟩
    show ((1 : UInt32) == 1 && samePolyline exact [⟨0, 0, 0⟩, ⟨1, 0, 0⟩] [⟨0, 0, 0⟩, ⟨1, 0, 0⟩] &&
      decide ((1 : ℚ) ≤ 1)) = true
    decide +kernel
  · intro disk publishes
    exact Edit.replace_refused exact (stageReplace_long exact crowded []
      (by rw [show size (wordy 1).name = 70000 from size_replicate 70000]; decide))

end Map
end Mowgli
