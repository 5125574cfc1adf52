import Mowgli.Map.Runs

/-!
# LoadAtomic — what a load that throws leaves behind

The corridors of a file are read before anything live is touched, so that a number that
cannot be read there changes nothing. The areas are read into the live list itself, after the
clear: a number that cannot be read there, in `next_area_id` or in the datum, costs the areas
and the keepouts that were there.
-/

namespace Mowgli
namespace Map

/-- What a load replaces: the lists and the counters behind their ids. -/
structure Lists (F D : Type) where
  areas : List (AreaEntry F D)
  obstaclePolygons : List (Polygon F)
  lidarIgnoreCorridors : List (LidarIgnoreCorridorEntry F D)
  nextAreaId : UInt32
  nextLidarCorridorId : Nat

section LoadAtomic

variable {F D : Type} (fl : Floats F D)

def MapServer.lists (σ : MapServer F D) : Lists F D :=
  { areas := σ.areas
    obstaclePolygons := σ.obstaclePolygons
    lidarIgnoreCorridors := σ.lidarIgnoreCorridors
    nextAreaId := σ.nextAreaId
    nextLidarCorridorId := σ.nextLidarCorridorId }

def MapServer.withLists (σ : MapServer F D) (lists : Lists F D) : MapServer F D :=
  { σ with
    areas := lists.areas
    obstaclePolygons := lists.obstaclePolygons
    lidarIgnoreCorridors := lists.lidarIgnoreCorridors
    nextAreaId := lists.nextAreaId
    nextLidarCorridorId := lists.nextLidarCorridorId }

@[simp] theorem MapServer.withLists_file (σ : MapServer F D) (lists : Lists F D) :
    (σ.withLists lists).file = σ.file := rfl

@[simp] theorem MapServer.withLists_lists (σ : MapServer F D) : σ.withLists σ.lists = σ := rfl

@[simp] theorem MapServer.lists_withLists (σ : MapServer F D) (lists : Lists F D) :
    (σ.withLists lists).lists = lists := rfl

variable {σ : MapServer F D} {kv : KeyValues}

theorem areas_of_lists {τ : MapServer F D} (h : σ.lists = τ.lists) : σ.areas = τ.areas :=
  congrArg Lists.areas h

@[simp] theorem MapServer.withLists_withLists (σ : MapServer F D) (lists others : Lists F D) :
    (σ.withLists lists).withLists others = σ.withLists others := rfl

/-- A load that completes takes everything from the file: it ends the same whatever the lists
were. One that throws leaves them as they were. -/
def AllOrNothing (σ : MapServer F D) (idDisk datumDisk : Disk) : Prop :=
  ((loadAreasFromFile fl σ idDisk datumDisk).2 = true ∧
    ∀ lists, loadAreasFromFile fl (σ.withLists lists) idDisk datumDisk =
      loadAreasFromFile fl σ idDisk datumDisk) ∨
  ((loadAreasFromFile fl σ idDisk datumDisk).2 = false ∧
    (loadAreasFromFile fl σ idDisk datumDisk).1.lists = σ.lists)

/-! ## Which files are read to the end -/

/-- Every number of the `i`-th area and of its obstacles can be read. -/
def AreaReadable (kv : KeyValues) (i : Nat) : Prop :=
  ∃ entry count, kvArea fl kv i = some (entry, count) ∧
    ∀ j < count, (kvObstacle fl kv (indexed "area_" i "" ++ indexed "_obstacle_" j "")).isSome

/-- Every number that is read after the clear can be read. -/
structure Readable (kv : KeyValues) : Prop where
  areas : ∃ count, getInt kv "area_count".toList 0 = some count ∧
    ∀ i < count.toNat, AreaReadable fl kv i
  nextAreaId : (getInt kv "next_area_id".toList 0).isSome
  datum : (datumStamp fl kv).isSome

/-- The file cannot be opened, or the load throws over the corridors, or everything after
them can be read. -/
def LoadsCleanly (file : Option Str) : Prop :=
  ∀ text, file = some text →
    kvCorridors fl (keyValues text) = none ∨ Readable fl (keyValues text)

/-- A family over what is below `n + 1`, the first apart. -/
theorem forall_below_succ {p : Nat → Prop} (n i : Nat) :
    (∀ k < n + 1, p (i + k)) ↔ p i ∧ ∀ k < n, p (i + 1 + k) := by
  constructor
  · intro h
    refine ⟨h 0 (Nat.zero_lt_succ n), fun k hk => ?_⟩
    have hnext := h (k + 1) (Nat.succ_lt_succ hk)
    rwa [show i + (k + 1) = i + 1 + k by omega] at hnext
  · rintro ⟨hfirst, hrest⟩ k hk
    cases k with
    | zero => exact hfirst
    | succ k =>
      rw [show i + (k + 1) = i + 1 + k by omega]
      exact hrest k (Nat.lt_of_succ_lt_succ hk)

theorem loadObstacles_isSome (kv : KeyValues) (pre : Str) (n j : Nat) (σ : MapServer F D)
    (entries : List (ObstacleEntry F)) :
    (loadObstacles fl kv pre n j σ entries).2.isSome ↔
      ∀ k < n, (kvObstacle fl kv (pre ++ indexed "_obstacle_" (j + k) "")).isSome := by
  induction n generalizing j σ entries with
  | zero => simp [loadObstacles]
  | succ n ih =>
    rw [forall_below_succ (p := fun k =>
      (kvObstacle fl kv (pre ++ indexed "_obstacle_" k "")).isSome)]
    unfold loadObstacles
    cases hobs : kvObstacle fl kv (pre ++ indexed "_obstacle_" j "") with
    | none => simp
    | some obstacle =>
      obtain ⟨polygon, name, source⟩ := obstacle
      dsimp only
      split
      · rw [ih]
        simp
      · rw [ih]
        simp

theorem loadAreas_completes (kv : KeyValues) (n i : Nat) (σ : MapServer F D) :
    (loadAreas fl kv n i σ).2 = true ↔ ∀ k < n, AreaReadable fl kv (i + k) := by
  induction n generalizing i σ with
  | zero => simp [loadAreas]
  | succ n ih =>
    rw [forall_below_succ]
    unfold loadAreas
    cases harea : kvArea fl kv i with
    | none => simp [AreaReadable, harea]
    | some area =>
      obtain ⟨entry, count⟩ := area
      have hread : AreaReadable fl kv i ↔
          (loadObstacles fl kv (indexed "area_" i "") count 0 σ []).2.isSome := by
        rw [loadObstacles_isSome]
        simp [AreaReadable, harea]
      rw [hread]
      dsimp only
      cases hload : loadObstacles fl kv (indexed "area_" i "") count 0 σ [] with
      | mk τ obstacles =>
        cases obstacles with
        | none => simp
        | some obstacles =>
          dsimp only
          split
          · rw [ih]
            simp
          · rw [ih]
            simp

theorem finishLoad_completes (kv : KeyValues) (σ : MapServer F D) (idDisk datumDisk : Disk) :
    (finishLoad fl kv σ idDisk datumDisk).2 = true ↔
      (getInt kv "next_area_id".toList 0).isSome ∧ (datumStamp fl kv).isSome := by
  unfold finishLoad migrateAreaIds
  cases getInt kv "next_area_id".toList 0 with
  | none => simp
  | some next =>
    cases datumStamp fl kv with
    | none => simp
    | some stamp => simp

theorem loadKeyValues_completes {corridors : List (LidarIgnoreCorridorEntry F D) × Nat}
    (hcorridors : kvCorridors fl kv = some corridors) (σ : MapServer F D) (idDisk datumDisk : Disk)
    : (loadKeyValues fl kv σ idDisk datumDisk).2 = true ↔ Readable fl kv := by
  unfold loadKeyValues
  rw [hcorridors]
  dsimp only
  cases hcount : getInt kv "area_count".toList 0 with
  | none =>
    constructor
    · intro h
      cases h
    · rintro ⟨⟨count, hread, _⟩, _, _⟩
      rw [hcount] at hread
      cases hread
  | some count =>
    have hareas := loadAreas_completes fl kv count.toNat 0
      { σ with areas := [], obstaclePolygons := [] }
    dsimp only
    cases hload : loadAreas fl kv count.toNat 0 { σ with areas := [], obstaclePolygons := [] } with
    | mk τ done =>
      rw [hload] at hareas
      cases done with
      | false =>
        constructor
        · intro h
          cases h
        · rintro ⟨⟨count', hread, hall⟩, _, _⟩
          rw [hcount] at hread
          cases hread
          exact hareas.2 fun k hk => by simpa using hall k hk
      | true =>
        dsimp only
        rw [finishLoad_completes]
        constructor
        · rintro ⟨hnext, hdatum⟩
          exact ⟨⟨count, hcount, fun i hi => by simpa using hareas.1 rfl i hi⟩, hnext, hdatum⟩
        · rintro ⟨_, hnext, hdatum⟩
          exact ⟨hnext, hdatum⟩

/-! ## What came before makes no difference -/

/-- The corridors and the counters, which the areas are read beside. -/
def MapServer.beside (σ : MapServer F D) (lists : Lists F D) : MapServer F D :=
  { σ with
    lidarIgnoreCorridors := lists.lidarIgnoreCorridors
    nextAreaId := lists.nextAreaId
    nextLidarCorridorId := lists.nextLidarCorridorId }

theorem loadObstacles_beside (kv : KeyValues) (pre : Str) (lists : Lists F D) (n j : Nat)
    (σ : MapServer F D) (entries : List (ObstacleEntry F)) :
    loadObstacles fl kv pre n j (σ.beside lists) entries =
      ((loadObstacles fl kv pre n j σ entries).1.beside lists,
        (loadObstacles fl kv pre n j σ entries).2) := by
  induction n generalizing j σ entries with
  | zero => rfl
  | succ n ih =>
    unfold loadObstacles
    split
    · rfl
    · rename_i polygon name source _
      split
      · exact ih (j + 1) (makeObstacleEntry σ polygon name source false).2
          (entries ++ [(makeObstacleEntry σ polygon name source false).1])
      · exact ih (j + 1) σ entries

theorem loadAreas_beside (kv : KeyValues) (lists : Lists F D) (n i : Nat) (σ : MapServer F D) :
    loadAreas fl kv n i (σ.beside lists) =
      ((loadAreas fl kv n i σ).1.beside lists, (loadAreas fl kv n i σ).2) := by
  induction n generalizing i σ with
  | zero => rfl
  | succ n ih =>
    unfold loadAreas
    cases kvArea fl kv i with
    | none => rfl
    | some area =>
      obtain ⟨entry, count⟩ := area
      dsimp only
      rw [loadObstacles_beside]
      cases loadObstacles fl kv (indexed "area_" i "") count 0 σ [] with
      | mk τ obstacles =>
        cases obstacles with
        | none => rfl
        | some obstacles =>
          dsimp only
          split
          · exact ih (i + 1) { τ with areas := τ.areas ++ [{ entry with obstacles := obstacles }] }
          · exact ih (i + 1) τ

/-- The counter is taken from the file and from the areas read. -/
theorem migrateAreaIds_nextAreaId (kv : KeyValues) (σ : MapServer F D) (next : UInt32)
    (disk : Disk) :
    migrateAreaIds fl kv { σ with nextAreaId := next } disk = migrateAreaIds fl kv σ disk := rfl

theorem loadKeyValues_fromFile {idDisk datumDisk : Disk}
    (hdone : (loadKeyValues fl kv σ idDisk datumDisk).2 = true) (lists : Lists F D) :
    loadKeyValues fl kv (σ.withLists lists) idDisk datumDisk =
      loadKeyValues fl kv σ idDisk datumDisk := by
  revert hdone
  unfold loadKeyValues
  cases kvCorridors fl kv with
  | none =>
    intro hdone
    cases hdone
  | some corridors =>
    dsimp only
    cases getInt kv "area_count".toList 0 with
    | none =>
      intro hdone
      cases hdone
    | some count =>
      dsimp only
      have hbeside := loadAreas_beside fl kv lists count.toNat 0
        { σ with areas := [], obstaclePolygons := [] }
      rw [show ({ σ.withLists lists with areas := [], obstaclePolygons := [] } : MapServer F D) =
        MapServer.beside { σ with areas := [], obstaclePolygons := [] } lists from rfl, hbeside]
      cases loadAreas fl kv count.toNat 0 { σ with areas := [], obstaclePolygons := [] } with
      | mk τ done =>
        cases done with
        | false =>
          intro hdone
          cases hdone
        | true =>
          intro hdone
          dsimp only at hdone ⊢
          -- only the counter of the areas is still the old one, and the migration sets it
          have hmigrate := migrateAreaIds_nextAreaId fl kv
            { τ with
              lidarIgnoreCorridors := corridors.1
              nextLidarCorridorId := corridors.2 } lists.nextAreaId idDisk
          unfold finishLoad at hdone ⊢
          rw [show ({ τ.beside lists with
              lidarIgnoreCorridors := corridors.1
              nextLidarCorridorId := corridors.2 } : MapServer F D) =
            { ({ τ with
                lidarIgnoreCorridors := corridors.1
                nextLidarCorridorId := corridors.2 } : MapServer F D) with
              nextAreaId := lists.nextAreaId } from rfl, hmigrate]
          cases hids : migrateAreaIds fl kv
              { τ with
                lidarIgnoreCorridors := corridors.1
                nextLidarCorridorId := corridors.2 } idDisk with
          | none =>
            rw [hids] at hdone
            cases hdone
          | some σ' => rfl

/-! ## What a throw costs -/

theorem loadAreas_obstaclePolygons (kv : KeyValues) (n i : Nat) (σ : MapServer F D) :
    (loadAreas fl kv n i σ).1.obstaclePolygons = σ.obstaclePolygons := by
  induction n generalizing i σ with
  | zero => rfl
  | succ n ih =>
    unfold loadAreas
    cases kvArea fl kv i with
    | none => rfl
    | some area =>
      obtain ⟨entry, count⟩ := area
      obtain ⟨m, hm⟩ := loadObstacles_frame fl kv (indexed "area_" i "") count 0 σ []
      dsimp only
      cases hload : loadObstacles fl kv (indexed "area_" i "") count 0 σ [] with
      | mk τ obstacles =>
        rw [hload] at hm
        have hτ : τ.obstaclePolygons = σ.obstaclePolygons := by rw [show τ = _ from hm]
        cases obstacles with
        | none => exact hτ
        | some obstacles =>
          dsimp only
          split
          · rw [ih]
            exact hτ
          · rw [ih]
            exact hτ

theorem saveBestEffort_obstaclePolygons (σ : MapServer F D) (disk : Disk) :
    (saveBestEffort fl σ disk).obstaclePolygons = σ.obstaclePolygons := by
  obtain ⟨file, hfile⟩ := saveBestEffort_frame fl σ disk
  rw [hfile]

theorem migrateAreaIds_obstaclePolygons {τ : MapServer F D} {disk : Disk}
    (h : migrateAreaIds fl kv σ disk = some τ) : τ.obstaclePolygons = σ.obstaclePolygons := by
  unfold migrateAreaIds at h
  obtain ⟨next, _, rfl⟩ := Option.map_eq_some_iff.1 h
  dsimp only
  split
  · exact saveBestEffort_obstaclePolygons fl _ disk
  · rfl

/-- A throw after the corridors were read comes after the clear. -/
theorem loadKeyValues_throws {corridors : List (LidarIgnoreCorridorEntry F D) × Nat}
    (hcorridors : kvCorridors fl kv = some corridors) {idDisk datumDisk : Disk}
    (hthrown : (loadKeyValues fl kv σ idDisk datumDisk).2 = false) :
    (loadKeyValues fl kv σ idDisk datumDisk).1.obstaclePolygons = [] := by
  revert hthrown
  unfold loadKeyValues
  rw [hcorridors]
  dsimp only
  cases getInt kv "area_count".toList 0 with
  | none =>
    intro _
    rfl
  | some count =>
    have hcleared := loadAreas_obstaclePolygons fl kv count.toNat 0
      { σ with areas := [], obstaclePolygons := [] }
    dsimp only
    cases hload : loadAreas fl kv count.toNat 0 { σ with areas := [], obstaclePolygons := [] } with
    | mk τ done =>
      rw [hload] at hcleared
      cases done with
      | false =>
        intro _
        exact hcleared
      | true =>
        dsimp only
        unfold finishLoad
        split
        · intro _
          exact hcleared
        · rename_i σ' hmigrate
          split
          · intro _
            exact (migrateAreaIds_obstaclePolygons fl hmigrate).trans hcleared
          · intro hthrown
            cases hthrown

/-- A load is all or nothing over whatever was there exactly when its file cannot be opened,
fails over the corridors, or can be read to the end. -/
theorem load_all_or_nothing (σ : MapServer F D) (idDisk datumDisk : Disk) :
    (∀ lists, AllOrNothing fl (σ.withLists lists) idDisk datumDisk) ↔
      LoadsCleanly fl σ.file := by
  constructor
  · intro h text hfile
    cases hcorridors : kvCorridors fl (keyValues text) with
    | none => exact Or.inl rfl
    | some corridors =>
      refine Or.inr ((loadKeyValues_completes fl hcorridors
        (σ.withLists { σ.lists with obstaclePolygons := [[]] }) idDisk datumDisk).1 ?_)
      -- a keepout is there before, and a throw would have cleared it
      have hall := h { σ.lists with obstaclePolygons := [[]] }
      unfold AllOrNothing loadAreasFromFile at hall
      simp only [MapServer.withLists_file, hfile] at hall
      obtain ⟨hdone, _⟩ | ⟨hthrown, hkept⟩ := hall
      · exact hdone
      · have hempty := loadKeyValues_throws fl hcorridors hthrown
        have hprior := congrArg Lists.obstaclePolygons hkept
        rw [show Lists.obstaclePolygons (MapServer.lists _) = _ from hempty] at hprior
        cases hprior
  · intro hclean lists
    unfold AllOrNothing loadAreasFromFile
    simp only [MapServer.withLists_file, MapServer.withLists_withLists]
    cases hfile : σ.file with
    | none => exact Or.inr ⟨rfl, rfl⟩
    | some text =>
      cases hcorridors : kvCorridors fl (keyValues text) with
      | none =>
        right
        dsimp only
        unfold loadKeyValues
        rw [hcorridors]
        exact ⟨rfl, rfl⟩
      | some corridors =>
        have hread : Readable fl (keyValues text) := by
          obtain hnone | hread := hclean text hfile
          · rw [hcorridors] at hnone
            cases hnone
          · exact hread
        have hdone := (loadKeyValues_completes fl hcorridors (σ.withLists lists) idDisk
          datumDisk).2 hread
        exact Or.inl ⟨hdone, fun others => loadKeyValues_fromFile fl hdone others⟩

/-- A file of two areas whose second has a coordinate that is no number. -/
def halfFile : Str :=
  ("area_count: 2\narea_0_name: front\narea_0_polygon: 0,0;4,0;0,4\narea_0_id: 1\n" ++
    "area_1_name: back\narea_1_polygon: 0,0;4,0;0,x\narea_1_id: 2\n").toList

/-- The load throws over the second area, with the first in place of what was there. -/
theorem half_loaded_map :
    let σ := MapServer.boot exactSettings (emptyGrid 10 10) none [] (some halfFile)
    (loadAreasFromFile exact σ (.replaced true) (.replaced true)).2 = false ∧
      (loadAreasFromFile exact σ (.replaced true) (.replaced true)).1.areas.length = 1 ∧
      ¬AllOrNothing exact σ (.replaced true) (.replaced true) := by
  intro σ
  have hthrown : (loadAreasFromFile exact σ (.replaced true) (.replaced true)).2 = false := by
    decide +kernel
  have hone :
      (loadAreasFromFile exact σ (.replaced true) (.replaced true)).1.areas.length = 1 := by
    decide +kernel
  refine ⟨hthrown, hone, ?_⟩
  rintro (⟨hdone, _⟩ | ⟨_, hkept⟩)
  · rw [hthrown] at hdone
    cases hdone
  · -- nothing was there before
    rw [areas_of_lists hkept] at hone
    cases hone

end LoadAtomic

end Map
end Mowgli
