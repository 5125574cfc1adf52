import Mowgli.Map.Proposals
import Mowgli.Map.Shape

/-!
# Identity — the ids of the areas

The resume cursor, the schedules and the progress know an area by its id. No two areas share
one, and what the counter gives out was never carried before, as long as the counter stays
within its 32 bits and what was saved is read back.
-/

namespace Mowgli
namespace Map

section Identity

variable {F D : Type} (fl : Floats F D)

def areaIds (σ : MapServer F D) : List UInt32 := σ.areas.map (·.id)

/-! ## One entry -/

def isTaken (areas : List (AreaEntry F D)) (id : UInt32) : Bool :=
  areas.any fun existing => existing.id == id

/-- No counter goes past its largest value. -/
def FitsCounter (areas : List (AreaEntry F D)) (next id : UInt32) : Prop :=
  id ≠ 4294967295 ∧ ((id == 0 || isTaken areas id) = true → next ≠ 4294967295)

theorem UInt32.toNat_succ {n : UInt32} (h : n ≠ 4294967295) : (n + 1).toNat = n.toNat + 1 := by
  have hne : n.toNat ≠ 4294967295 := fun heq => h (UInt32.toNat_inj.1 heq)
  have hlt : n.toNat < 4294967296 := n.toNat_lt
  rw [UInt32.toNat_add]
  have h1 : (1 : UInt32).toNat = 1 := rfl
  omega

/-- The id is new, not 0, and the counter past it. -/
theorem assignAreaId_new {areas : List (AreaEntry F D)} {next id : UInt32}
    (hfits : FitsCounter areas next id) (hpos : 0 < next.toNat)
    (hbelow : ∀ area ∈ areas, area.id.toNat < next.toNat) :
    let r := assignAreaId areas next id
    r.1 ≠ 0 ∧ r.1.toNat < r.2.toNat ∧ next.toNat ≤ r.2.toNat ∧
      (∀ area ∈ areas, area.id ≠ r.1) ∧ (r.1 ≠ id → r.1 = next) := by
  obtain ⟨hid, hnext⟩ := hfits
  have hminted : next ≠ 4294967295 → next ≠ 0 ∧ ¬next + 1 ≤ next ∧ next.toNat < (next + 1).toNat ∧
      ∀ area ∈ areas, area.id ≠ next := by
    intro h
    have hsucc := UInt32.toNat_succ h
    refine ⟨UInt32.ne_zero_of_toNat_pos hpos, ?_, by omega, ?_⟩
    · rw [UInt32.le_iff_toNat_le]
      omega
    · intro area harea heq
      have := hbelow area harea
      rw [heq] at this
      exact Nat.lt_irrefl _ this
  intro r
  show _ ∧ _ ∧ _ ∧ _ ∧ _
  cases hmint : (id == 0 || isTaken areas id) with
  | true =>
    obtain ⟨hzero, hle, hlt, hnew⟩ := hminted (hnext hmint)
    have hr : r = (next, next + 1) := by
      unfold r assignAreaId
      rw [Bool.or_eq_true] at hmint
      dsimp only
      cases h0 : id == 0 with
      | true => rw [if_pos rfl, if_neg hle]
      | false =>
        rw [h0] at hmint
        have htaken : (areas.any fun existing => existing.id == id) = true := by
          rcases hmint with h | h
          · cases h
          · exact h
        rw [if_neg Bool.false_ne_true, htaken, if_pos rfl, if_neg hle]
    rw [hr]
    exact ⟨hzero, hlt, Nat.le_of_lt hlt, hnew, fun _ => rfl⟩
  | false =>
    rw [Bool.or_eq_false_iff] at hmint
    have hne : id ≠ 0 := by
      intro h0
      rw [h0] at hmint
      exact absurd hmint.1 (by decide)
    have hsucc := UInt32.toNat_succ hid
    have hr : r = (id, if next ≤ id then id + 1 else next) := by
      unfold r assignAreaId
      rw [hmint.1, if_neg Bool.false_ne_true,
        show (areas.any fun existing => existing.id == id) = false from hmint.2,
        if_neg Bool.false_ne_true]
    have hnew : ∀ area ∈ areas, area.id ≠ id := by
      intro area harea heq
      have hno := List.any_eq_false.1 hmint.2 area harea
      exact hno (beq_iff_eq.2 heq)
    rw [hr]
    refine ⟨hne, ?_, ?_, hnew, fun h => absurd rfl h⟩
    · show id.toNat < (if next ≤ id then id + 1 else next).toNat
      split
      · omega
      · rename_i hle
        rw [UInt32.le_iff_toNat_le] at hle
        omega
    · show next.toNat ≤ (if next ≤ id then id + 1 else next).toNat
      split
      · rename_i hle
        rw [UInt32.le_iff_toNat_le] at hle
        omega
      · exact Nat.le_refl _

theorem storeArea_areas (σ : MapServer F D) (req : MapArea F D) (isNavigationArea : Bool) :
    ∃ area, area.id = (assignAreaId σ.areas σ.nextAreaId req.id).1 ∧
      (storeArea fl σ req isNavigationArea).areas = σ.areas ++ [area] ∧
      (storeArea fl σ req isNavigationArea).nextAreaId =
        (assignAreaId σ.areas σ.nextAreaId req.id).2 := by
  obtain ⟨n, hn⟩ := addObstacles_frame
    { σ with nextAreaId := (assignAreaId σ.areas σ.nextAreaId req.id).2 } req.obstacleInfo
    req.obstacles
  unfold storeArea
  dsimp only
  rw [hn]
  exact ⟨_, rfl, rfl, rfl⟩

/-! ## The saved file, read back -/

/-- Every change is in the file, or there was none. -/
def Saved (σ : MapServer F D) (carried : List UInt32) : Prop :=
  (σ.settings.areasFilePath ≠ [] ∧ Recorded fl σ) ∨ (σ.file = none ∧ carried = [])

/-- What areas.dat can carry, beside the shape and the ids. -/
structure Printable (σ : MapServer F D) : Prop where
  named : ∀ area ∈ σ.areas, area.Named
  polygons : ∀ area ∈ σ.areas, ReadsPolygon fl 6 area.polygon
  lines : ∀ area ∈ σ.areas, ReadsLines fl area.coverageLines
  obstacles : ∀ area ∈ σ.areas, ∀ obs ∈ applied area.obstacles, ReadsPolygon fl 6 obs.polygon
  obstacleCount : ∀ area ∈ σ.areas, (applied area.obstacles).length < 2147483648
  areaCount : σ.areas.length < 2147483648
  nextAreaId : σ.nextAreaId.toNat < 2147483648
  corridors : ∀ c ∈ σ.lidarIgnoreCorridors,
    ReadsPolygon fl 9 c.polyline ∧ ReadsDouble fl 17 c.widthM
  corridorCount : σ.lidarIgnoreCorridors.length < 2147483648
  datum : isDatumSet fl σ.settings.datumLat σ.settings.datumLon = true → σ.settings.DatumReads fl

variable {σ τ : MapServer F D} {kv : KeyValues} {carried : List UInt32}

theorem Shape.writable (h : Shape fl σ) (hp : Printable fl σ)
    (hids : ∀ area ∈ σ.areas, area.id ≠ 0 ∧ area.id.toNat < σ.nextAreaId.toNat) :
    σ.Writable fl := by
  refine ⟨?_, hids, hp.areaCount, hp.nextAreaId, ?_, h.corridors.below, hp.corridorCount,
    h.corridors.bound, hp.datum⟩
  · intro area harea
    have hshaped := h.areas area harea
    refine ⟨hp.named area harea, hshaped.points, hp.polygons area harea,
      Nat.lt_trans (hids area harea).2 hp.nextAreaId, hshaped.lines, hp.lines area harea, ?_,
      hp.obstacleCount area harea⟩
    intro obs hobs
    exact ⟨hshaped.obstacles obs (List.mem_of_mem_filter hobs), hp.obstacles area harea obs hobs⟩
  · intro c hc
    have hshaped := h.corridors.shaped c hc
    exact ⟨hshaped.name, hshaped.points, (hp.corridors c hc).1, (hp.corridors c hc).2⟩

theorem restored_ids (τ σ : MapServer F D) :
    areaIds (restored fl τ σ) = areaIds σ ∧ (restored fl τ σ).nextAreaId = σ.nextAreaId := by
  obtain ⟨n, after, hafter, hall⟩ := restoreAreas_areas fl
    { τ with areas := [], obstaclePolygons := [] } σ.areas
  refine ⟨?_, rfl⟩
  show (restoreAreas fl { τ with areas := [], obstaclePolygons := [] } σ.areas).areas.map (·.id) = _
  rw [hafter]
  exact forall₂_restored_ids fl hall

/-- The ids and the counter after a load of the file of this very state. -/
theorem loadAreasFromFile_ids (hp : fl.Prints) (hw : σ.Writable fl) (hpos : 0 < σ.nextAreaId.toNat)
    (hsettings : τ.settings = σ.settings) (hfile : τ.file = σ.file) (hrecorded : Recorded fl σ)
    (idDisk datumDisk : Disk) :
    areaIds (loadAreasFromFile fl τ idDisk datumDisk).1 = areaIds σ ∧
      (loadAreasFromFile fl τ idDisk datumDisk).1.nextAreaId = σ.nextAreaId := by
  rw [loadAreasFromFile_areasText fl hp hw hpos hsettings (hfile.trans hrecorded),
    resizeMapToAreas_frame]
  exact restored_ids fl τ σ

/-! ## A file from before the ids -/

/-- No key of the file gives an area an id. -/
def LacksIds (kv : KeyValues) : Prop :=
  kv.find "next_area_id".toList = none ∧ ∀ i, kv.find (indexed "area_" i "_id") = none

/-- Every value of the file that is read can be read. -/
structure Parses (kv : KeyValues) : Prop where
  corridors : (kvCorridors fl kv).isSome = true
  areas : ∃ count, getInt kv "area_count".toList 0 = some count ∧
    ∀ i, i < count.toNat → ∃ r, kvArea fl kv i = some r ∧
      ∀ j, j < r.2 →
        (kvObstacle fl kv (indexed "area_" i "" ++ indexed "_obstacle_" j "")).isSome = true
  datum : (datumStamp fl kv).isSome = true

theorem stoi_le {s : Str} {n : Int} (h : stoi s = some n) : n ≤ 2147483647 := by
  have hbound : ∀ m : Int, (if -2147483648 ≤ m ∧ m ≤ 2147483647 then some m else none) = some n →
      n ≤ 2147483647 := by
    intro m hm
    by_cases hle : -2147483648 ≤ m ∧ m ≤ 2147483647
    · rw [if_pos hle] at hm
      cases hm
      exact hle.2
    · rw [if_neg hle] at hm
      cases hm
  unfold stoi at h
  dsimp only at h
  split at h
  · obtain ⟨r, -, h⟩ := Option.bind_eq_some_iff.1 h
    exact hbound _ h
  · obtain ⟨r, -, h⟩ := Option.bind_eq_some_iff.1 h
    exact hbound _ h
  · obtain ⟨r, -, h⟩ := Option.bind_eq_some_iff.1 h
    exact hbound _ h

theorem getInt_le {key : Str} {n : Int} (h : getInt kv key 0 = some n) : n ≤ 2147483647 := by
  unfold getInt at h
  split at h
  · cases h
    decide
  · exact stoi_le h

theorem kvArea_id (hold : LacksIds kv) {i : Nat} {r : AreaEntry F D × Nat}
    (h : kvArea fl kv i = some r) : r.1.id = 0 := by
  unfold kvArea at h
  obtain ⟨polygon, -, h⟩ := Option.bind_eq_some_iff.1 h
  obtain ⟨navigation, -, h⟩ := Option.bind_eq_some_iff.1 h
  obtain ⟨id, hid, h⟩ := Option.bind_eq_some_iff.1 h
  obtain ⟨lines, -, h⟩ := Option.bind_eq_some_iff.1 h
  obtain ⟨count, -, rfl⟩ := Option.map_eq_some_iff.1 h
  rw [getInt_none (hold.2 i)] at hid
  cases hid
  rfl

theorem loadObstacles_parses {pre : Str} {n j : Nat} (σ : MapServer F D)
    (entries : List (ObstacleEntry F))
    (h : ∀ k, k < n → (kvObstacle fl kv (pre ++ indexed "_obstacle_" (j + k) "")).isSome = true) :
    ∃ obstacles, (loadObstacles fl kv pre n j σ entries).2 = some obstacles := by
  induction n generalizing j σ entries with
  | zero => exact ⟨entries, rfl⟩
  | succ n ih =>
    have hfirst := h 0 (Nat.succ_pos n)
    rw [Nat.add_zero] at hfirst
    obtain ⟨r, hr⟩ := Option.isSome_iff_exists.1 hfirst
    have hrest : ∀ k, k < n →
        (kvObstacle fl kv (pre ++ indexed "_obstacle_" (j + 1 + k) "")).isSome = true := by
      intro k hk
      have := h (k + 1) (Nat.succ_lt_succ hk)
      rwa [Nat.add_comm k 1, ← Nat.add_assoc] at this
    unfold loadObstacles
    rw [hr]
    dsimp only
    split
    · exact ih _ _ hrest
    · exact ih _ _ hrest

theorem loadAreas_parses (hold : LacksIds kv) {n i : Nat} (σ : MapServer F D)
    (h : ∀ k, k < n → ∃ r, kvArea fl kv (i + k) = some r ∧ ∀ j, j < r.2 →
      (kvObstacle fl kv (indexed "area_" (i + k) "" ++ indexed "_obstacle_" j "")).isSome = true) :
    ∃ m areas, loadAreas fl kv n i σ =
        ({ σ with nextObstacleId := m, areas := σ.areas ++ areas }, true) ∧
      (∀ area ∈ areas, area.id = 0) ∧ areas.length ≤ n := by
  induction n generalizing i σ with
  | zero =>
    refine ⟨σ.nextObstacleId, [], ?_, fun area harea => absurd harea List.not_mem_nil,
      Nat.le_refl 0⟩
    rw [List.append_nil]
    rfl
  | succ n ih =>
    obtain ⟨r, hr, hobs⟩ := h 0 (Nat.succ_pos n)
    rw [Nat.add_zero] at hr hobs
    have hrest : ∀ k, k < n → ∃ r, kvArea fl kv (i + 1 + k) = some r ∧ ∀ j, j < r.2 →
        (kvObstacle fl kv
          (indexed "area_" (i + 1 + k) "" ++ indexed "_obstacle_" j "")).isSome = true := by
      intro k hk
      have := h (k + 1) (Nat.succ_lt_succ hk)
      rwa [Nat.add_comm k 1, ← Nat.add_assoc] at this
    obtain ⟨obstacles, hobstacles⟩ := loadObstacles_parses fl (j := 0) σ [] fun k hk => by
      rw [Nat.zero_add]
      exact hobs k hk
    obtain ⟨m, hm⟩ := loadObstacles_frame fl kv (indexed "area_" i "") r.2 0 σ []
    have hload : loadObstacles fl kv (indexed "area_" i "") r.2 0 σ [] =
        ({ σ with nextObstacleId := m }, some obstacles) := Prod.ext hm hobstacles
    unfold loadAreas
    rw [hr]
    dsimp only
    rw [hload]
    dsimp only
    split
    · obtain ⟨k, areas, hareas, hzero, hlength⟩ := ih
        { σ with
          nextObstacleId := m
          areas := σ.areas ++ [{ r.1 with obstacles := obstacles }] } hrest
      refine ⟨k, { r.1 with obstacles := obstacles } :: areas, ?_, ?_, ?_⟩
      · rw [hareas, List.append_assoc]
        rfl
      · intro area harea
        rcases List.mem_cons.1 harea with rfl | harea
        · exact kvArea_id fl hold hr
        · exact hzero area harea
      · exact Nat.succ_le_succ hlength
    · obtain ⟨k, areas, hareas, hzero, hlength⟩ := ih { σ with nextObstacleId := m } hrest
      exact ⟨k, areas, hareas, hzero, Nat.le_succ_of_le hlength⟩

/-- Areas without an id get one after the other. -/
theorem mintAreaIds_zero {areas : List (AreaEntry F D)} {next : UInt32}
    (hzero : ∀ area ∈ areas, area.id = 0) (hfits : next.toNat + areas.length ≤ 4294967295) :
    let r := mintAreaIds next areas
    r.2.toNat = next.toNat + areas.length ∧ (r.1.map (·.id)).Nodup ∧
      ∀ id ∈ r.1.map (·.id), next.toNat ≤ id.toNat ∧ id.toNat < r.2.toNat := by
  induction areas generalizing next with
  | nil => exact ⟨rfl, List.nodup_nil, fun id hid => absurd hid List.not_mem_nil⟩
  | cons area areas ih =>
    have hlength : (area :: areas).length = areas.length + 1 := rfl
    rw [hlength] at hfits
    have hne : next ≠ 4294967295 := by
      rintro rfl
      have h : (4294967295 : UInt32).toNat = 4294967295 := rfl
      omega
    have hsucc := UInt32.toNat_succ hne
    obtain ⟨hnext, hnodup, hrange⟩ := @ih (next + 1)
      (fun a ha => hzero a (List.mem_cons_of_mem area ha)) (by omega)
    have hr : mintAreaIds next (area :: areas) =
        ({ area with id := next } :: (mintAreaIds (next + 1) areas).1,
          (mintAreaIds (next + 1) areas).2) := by
      rw [mintAreaIds, hzero area List.mem_cons_self]
      rfl
    intro r
    show _ ∧ _ ∧ _
    unfold r
    rw [hr]
    dsimp only
    refine ⟨by omega, ?_, ?_⟩
    · rw [List.map_cons]
      refine List.nodup_cons.2 ⟨?_, hnodup⟩
      intro hmem
      have := (hrange next hmem).1
      omega
    · intro id hid
      rw [List.map_cons] at hid
      rcases List.mem_cons.1 hid with rfl | hid
      · omega
      · have := hrange id hid
        omega

theorem maxAreaId_zero {areas : List (AreaEntry F D)} (h : ∀ area ∈ areas, area.id = 0) :
    maxAreaId areas = 0 := by
  unfold maxAreaId
  induction areas with
  | nil => rfl
  | cons area areas ih =>
    rw [List.foldl_cons, h area List.mem_cons_self]
    exact ih fun a ha => h a (List.mem_cons_of_mem area ha)

theorem migrateAreasDatum_ids (stamp : Option (D × D)) (σ : MapServer F D) (disk : Disk) :
    areaIds (migrateAreasDatum fl stamp σ disk) = areaIds σ ∧
      (migrateAreasDatum fl stamp σ disk).nextAreaId = σ.nextAreaId := by
  have hsave : ∀ τ : MapServer F D, areaIds (saveBestEffort fl τ disk) = areaIds τ ∧
      (saveBestEffort fl τ disk).nextAreaId = τ.nextAreaId := by
    intro τ
    obtain ⟨file, hfile⟩ := saveBestEffort_frame fl τ disk
    rw [hfile]
    exact ⟨rfl, rfl⟩
  unfold migrateAreasDatum
  dsimp only
  split
  · exact ⟨rfl, rfl⟩
  · split
    · exact hsave σ
    · rename_i there
      split
      · exact hsave σ
      split
      · exact ⟨rfl, rfl⟩
      · have h := hsave (reproject fl there (σ.settings.datumLat, σ.settings.datumLon) σ)
        refine ⟨h.1.trans ?_, h.2⟩
        unfold areaIds reproject
        dsimp only
        rw [List.map_map]
        rfl

/-- An old file gives ids from 1 on. -/
theorem loadAreasFromFile_old {file : Str} (hfile : τ.file = some file)
    (hold : LacksIds (keyValues file)) (hparses : Parses fl (keyValues file))
    (idDisk datumDisk : Disk) : let σ := (loadAreasFromFile fl τ idDisk datumDisk).1
    (areaIds σ).Nodup ∧ (∀ id ∈ areaIds σ, 0 < id.toNat ∧ id.toNat < σ.nextAreaId.toNat) ∧
      0 < σ.nextAreaId.toNat := by
  obtain ⟨corridors, hcorridors⟩ := Option.isSome_iff_exists.1 hparses.corridors
  obtain ⟨count, hcount, hareas⟩ := hparses.areas
  obtain ⟨stamp, hstamp⟩ := Option.isSome_iff_exists.1 hparses.datum
  obtain ⟨m, areas, hload, hzero, hlength⟩ := loadAreas_parses fl hold (i := 0)
    { τ with areas := [], obstaclePolygons := [] } fun k hk => by
      rw [Nat.zero_add]
      exact hareas k hk
  have hbound := getInt_le hcount
  have hmint := @mintAreaIds_zero _ _ areas 1 hzero (by
    have h1 : (1 : UInt32).toNat = 1 := rfl
    omega)
  have hmigrate : ∃ ρ, migrateAreaIds fl (keyValues file)
      { τ with
        obstaclePolygons := []
        nextObstacleId := m
        areas := [] ++ areas
        lidarIgnoreCorridors := corridors.1
        nextLidarCorridorId := corridors.2 } idDisk = some ρ ∧
      (areaIds ρ).Nodup ∧ (∀ id ∈ areaIds ρ, 0 < id.toNat ∧ id.toNat < ρ.nextAreaId.toNat) ∧
      0 < ρ.nextAreaId.toNat := by
    have h1 : (1 : UInt32).toNat = 1 := rfl
    unfold migrateAreaIds
    rw [getInt_none hold.1, Option.map_some]
    dsimp only
    rw [List.nil_append, maxAreaId_zero hzero,
      show (if UInt32.ofInt 0 < (0 : UInt32) + 1 then (0 : UInt32) + 1 else UInt32.ofInt 0) = 1
        from rfl]
    cases hany : areas.any fun area => area.id == 0 with
    | true =>
      obtain ⟨saved, hsaved⟩ := saveBestEffort_frame fl
        { τ with
          obstaclePolygons := []
          nextObstacleId := m
          areas := (mintAreaIds 1 areas).1
          nextAreaId := (mintAreaIds 1 areas).2
          lidarIgnoreCorridors := corridors.1
          nextLidarCorridorId := corridors.2 } idDisk
      refine ⟨_, rfl, ?_⟩
      rw [if_pos rfl, hsaved]
      refine ⟨hmint.2.1, ?_, ?_⟩
      · intro id hid
        have := hmint.2.2 id hid
        exact ⟨by omega, this.2⟩
      · show 0 < (mintAreaIds 1 areas).2.toNat
        rw [hmint.1]
        omega
    | false =>
      have hnil : areas = [] := by
        cases areas with
        | nil => rfl
        | cons area rest =>
          rw [List.any_cons, hzero area List.mem_cons_self] at hany
          cases hany
      subst hnil
      exact ⟨_, rfl, List.nodup_nil, fun id hid => absurd hid List.not_mem_nil, Nat.one_pos⟩
  obtain ⟨ρ, hρ, hids⟩ := hmigrate
  have hdatum := migrateAreasDatum_ids fl stamp ρ datumDisk
  intro σ
  show _ ∧ _ ∧ _
  have hσ : σ = publishLidarIgnoreCorridors
      (resizeMapToAreas fl (migrateAreasDatum fl stamp ρ datumDisk)) := by
    unfold σ loadAreasFromFile
    rw [hfile]
    dsimp only
    unfold loadKeyValues
    rw [hcorridors]
    dsimp only
    rw [hcount]
    dsimp only
    rw [hload]
    dsimp only
    unfold finishLoad
    rw [hρ]
    dsimp only
    rw [hstamp]
  have hareaIds : areaIds σ = areaIds ρ := by
    rw [hσ, resizeMapToAreas_frame]
    exact hdatum.1
  have hnext : σ.nextAreaId = ρ.nextAreaId := by
    rw [hσ, resizeMapToAreas_frame]
    exact hdatum.2
  rw [hareaIds, hnext]
  exact hids

/-! ## Histories -/

/-- What is loaded is the last save. -/
def Follows (σ : MapServer F D) (carried : List UInt32) : Op F D → Prop
  | .loadAreas .. => Saved fl σ carried
  | .restart .. => Saved fl σ carried
  | _ => True

/-- The counter has room for a new area, and a file that is read back can carry the map. -/
def Fits (σ : MapServer F D) : Op F D → Prop
  | .addArea req .. => 3 ≤ req.area.length → FitsCounter σ.areas σ.nextAreaId req.id
  | .loadAreas .. => σ.file ≠ none → Printable fl σ
  | .restart .. => σ.file ≠ none → Printable fl σ
  | _ => True

/-- A history with every id that an area ever carried in it. The first start finds nothing or a
file without ids. `ok` and `okFile` restrict the operations and that file. -/
inductive History (ok : MapServer F D → Op F D → Prop) (okFile : Str → Prop) :
    MapServer F D → List UInt32 → Prop
  | first (settings : Settings D) (grid : GridMap D) (dock : Option (DockGeometry F))
      (corridorServerInstanceId : Str) (file : Option Str) (idDisk datumDisk : Disk)
      (hold : ∀ text, file = some text → LacksIds (keyValues text))
      (hok : ∀ text, file = some text → okFile text) :
    History ok okFile
      (start fl settings grid dock corridorServerInstanceId file idDisk datumDisk)
      (areaIds (start fl settings grid dock corridorServerInstanceId file idDisk datumDisk))
  | step {σ : MapServer F D} {carried : List UInt32} (h : History ok okFile σ carried)
      (op : Op F D) (hfollows : Follows fl σ carried op) (hok : ok σ op) :
    History ok okFile (perform fl σ op).1 (carried ++ areaIds (perform fl σ op).1)

/-- The ids of an operation that its caller did not bring along. -/
def Op.minted (σ : MapServer F D) : Op F D → List UInt32
  | .addArea req isNavigationArea disk =>
    ((areaIds (onAddArea fl σ req isNavigationArea disk).1).drop σ.areas.length).filter
      (· != req.id)
  | _ => []

/-- The invariant: the counter is past every id that was ever carried. -/
structure Identified (σ : MapServer F D) (carried : List UInt32) : Prop where
  shape : Shape fl σ
  distinct : (areaIds σ).Nodup
  nonzero : ∀ id ∈ areaIds σ, id ≠ 0
  live : ∀ id ∈ areaIds σ, id ∈ carried
  below : ∀ id ∈ carried, id.toNat < σ.nextAreaId.toNat
  pos : 0 < σ.nextAreaId.toNat

section Identified

variable {fl} {σ : MapServer F D} {carried : List UInt32}

theorem Identified.areas (h : Identified fl σ carried) :
    ∀ area ∈ σ.areas, area.id ≠ 0 ∧ area.id.toNat < σ.nextAreaId.toNat := by
  intro area harea
  have hmem : area.id ∈ areaIds σ := List.mem_map_of_mem harea
  exact ⟨h.nonzero _ hmem, h.below _ (h.live _ hmem)⟩

theorem Identified.keep (h : Identified fl σ carried) (hshape : Shape fl τ)
    (hids : areaIds τ = areaIds σ) (hnext : τ.nextAreaId = σ.nextAreaId) :
    Identified fl τ (carried ++ areaIds τ) := by
  refine ⟨hshape, ?_, ?_, fun id hid => List.mem_append_right carried hid, ?_, ?_⟩
  · rw [hids]
    exact h.distinct
  · rw [hids]
    exact h.nonzero
  · rw [hids, hnext]
    intro id hid
    rcases List.mem_append.1 hid with hid | hid
    · exact h.below id hid
    · exact h.below id (h.live id hid)
  · rw [hnext]
    exact h.pos

theorem Identified.clear (h : Identified fl σ carried) (hshape : Shape fl τ) (hareas : τ.areas = [])
    (hnext : τ.nextAreaId = σ.nextAreaId) : Identified fl τ (carried ++ areaIds τ) := by
  have hids : areaIds τ = [] := by
    unfold areaIds
    rw [hareas]
    rfl
  rw [hids, List.append_nil]
  refine ⟨hshape, ?_, ?_, ?_, ?_, ?_⟩
  · rw [hids]
    exact List.nodup_nil
  · rw [hids]
    intro id hid
    cases hid
  · rw [hids]
    intro id hid
    cases hid
  · rw [hnext]
    exact h.below
  · rw [hnext]
    exact h.pos

theorem Identified.add (h : Identified fl σ carried) (hshape : Shape fl τ) {req : MapArea F D}
    {isNavigationArea : Bool} (hfits : FitsCounter σ.areas σ.nextAreaId req.id)
    (hareas : τ.areas = (storeArea fl σ req isNavigationArea).areas)
    (hnext : τ.nextAreaId = (storeArea fl σ req isNavigationArea).nextAreaId) :
    Identified fl τ (carried ++ areaIds τ) := by
  obtain ⟨area, hid, hstore, hcounter⟩ := storeArea_areas fl σ req isNavigationArea
  obtain ⟨hne, hlt, hle, hnew, -⟩ := assignAreaId_new hfits h.pos fun a ha => (h.areas a ha).2
  have hids : areaIds τ = areaIds σ ++ [area.id] := by
    unfold areaIds
    rw [hareas, hstore, List.map_append]
    rfl
  rw [← hid] at hne hlt hnew
  rw [hcounter] at hnext
  refine ⟨hshape, ?_, ?_, fun id hmem => List.mem_append_right carried hmem, ?_, ?_⟩
  · rw [hids]
    refine h.distinct.append (List.nodup_singleton _) ?_
    intro id hmem hmem'
    rw [List.mem_singleton.1 hmem'] at hmem
    obtain ⟨a, ha, heq⟩ := List.mem_map.1 hmem
    exact hnew a ha heq
  · rw [hids]
    intro id hmem
    rcases List.mem_append.1 hmem with hmem | hmem
    · exact h.nonzero id hmem
    · rw [List.mem_singleton.1 hmem]
      exact hne
  · rw [hids, hnext]
    intro id hmem
    rcases List.mem_append.1 hmem with hmem | hmem
    · exact Nat.lt_of_lt_of_le (h.below id hmem) hle
    · rcases List.mem_append.1 hmem with hmem | hmem
      · exact Nat.lt_of_lt_of_le (h.below id (h.live id hmem)) hle
      · rw [List.mem_singleton.1 hmem]
        exact hlt
  · rw [hnext]
    exact Nat.lt_of_lt_of_le h.pos hle

end Identified

theorem onLoadAreas_ids (σ : MapServer F D) (idDisk datumDisk : Disk)
    (hpath : σ.settings.areasFilePath ≠ []) :
    areaIds (onLoadAreas fl σ idDisk datumDisk).1 =
        areaIds (loadAreasFromFile fl σ idDisk datumDisk).1 ∧
      (onLoadAreas fl σ idDisk datumDisk).1.nextAreaId =
        (loadAreasFromFile fl σ idDisk datumDisk).1.nextAreaId := by
  unfold onLoadAreas
  rw [List.isEmpty_eq_false_iff.2 hpath, if_neg Bool.false_ne_true]
  cases loadAreasFromFile fl σ idDisk datumDisk with
  | mk τ loaded =>
    cases loaded with
    | false => exact ⟨rfl, rfl⟩
    | true => exact ⟨rfl, rfl⟩

theorem Identified.boot (settings : Settings D) (grid : GridMap D) (dock : Option (DockGeometry F))
    (corridorServerInstanceId : Str) (file : Option Str) :
    Identified fl (MapServer.boot settings grid dock corridorServerInstanceId file) [] :=
  ⟨Shape.boot fl settings grid dock corridorServerInstanceId file, List.nodup_nil,
    fun _ hid => absurd hid List.not_mem_nil, fun _ hid => absurd hid List.not_mem_nil,
    fun _ hid => absurd hid List.not_mem_nil, Nat.one_pos⟩

theorem start_ids (settings : Settings D) (grid : GridMap D) (dock : Option (DockGeometry F))
    (corridorServerInstanceId : Str) (file : Option Str) (idDisk datumDisk : Disk) :
    let booted : MapServer F D :=
      MapServer.boot settings grid dock corridorServerInstanceId file
    let started := start fl settings grid dock corridorServerInstanceId file idDisk datumDisk
    let read :=
      if settings.areasFilePath.isEmpty then booted
      else (loadAreasFromFile fl booted idDisk datumDisk).1
    areaIds started = areaIds read ∧ started.nextAreaId = read.nextAreaId := by
  intro booted started read
  have hstarted : started = { read with grid := (resizeMapToAreas fl read).grid } :=
    resizeMapToAreas_frame fl read
  rw [hstarted]
  exact ⟨rfl, rfl⟩

theorem Identified.perform (hp : fl.Prints) (h : Identified fl σ carried) {op : Op F D}
    (hfollows : Follows fl σ carried op) (hfits : Fits fl σ op) :
    Identified fl (perform fl σ op).1 (carried ++ areaIds (perform fl σ op).1) := by
  have hshape := h.shape.perform fl op
  cases hreads : op.reads with
  | false =>
    have hc := perform_change fl σ hreads
    generalize hareas : (Map.perform fl σ op).1.areas = areas at hc
    generalize hnext : (Map.perform fl σ op).1.nextAreaId = next at hc
    have hsame : areas.map (·.id) = σ.areas.map (·.id) → next = σ.nextAreaId →
        Identified fl (Map.perform fl σ op).1 (carried ++ areaIds (Map.perform fl σ op).1) := by
      intro hids hcounter
      refine h.keep hshape ?_ (hnext.trans hcounter)
      unfold areaIds
      rw [hareas]
      exact hids
    cases hc with
    | same => exact hsame rfl rfl
    | added req isNavigationArea hop hpoints =>
      subst hop
      exact h.add hshape (hfits hpoints) hareas hnext
    | cleared => exact h.clear hshape hareas hnext
    | lines id hr =>
      refine hsame (map_modifyFirst_same ?_ σ.areas) rfl
      intro area
      rfl
    | promoted i hpoints happlied =>
      refine hsame (map_modify_same ?_ σ.areas i) rfl
      intro area
      rfl
    | proposed i hpoints hpending hreport =>
      refine hsame (map_modify_same ?_ σ.areas i) rfl
      intro area
      rfl
    | accepted id name hany =>
      refine hsame (map_modifyFirst_same ?_ σ.areas) rfl
      intro area
      rfl
    | discarded id hany =>
      refine hsame (map_modifyFirst_same ?_ σ.areas) rfl
      intro area
      rfl
  | true =>
    have hwritable : Recorded fl σ → (σ.file ≠ none → Printable fl σ) → σ.Writable fl := by
      intro hrecorded hprintable
      refine h.shape.writable fl (hprintable ?_) h.areas
      rw [show σ.file = some _ from hrecorded]
      exact Option.some_ne_none _
    cases op with
    | loadAreas idDisk datumDisk =>
      rcases hfollows with ⟨hpath, hrecorded⟩ | ⟨hfile, hnone⟩
      · have hload := loadAreasFromFile_ids fl hp (hwritable hrecorded hfits) h.pos rfl rfl
          hrecorded idDisk datumDisk
        have hids := onLoadAreas_ids fl σ idDisk datumDisk hpath
        exact h.keep hshape (hids.1.trans hload.1) (hids.2.trans hload.2)
      · have hsame : (onLoadAreas fl σ idDisk datumDisk).1 = σ := by
          unfold onLoadAreas loadAreasFromFile
          rw [hfile]
          split <;> rfl
        exact h.keep hshape (congrArg areaIds hsame) (congrArg MapServer.nextAreaId hsame)
    | restart grid dock corridorServerInstanceId idDisk datumDisk =>
      have hstart := start_ids fl σ.settings grid dock corridorServerInstanceId σ.file idDisk
        datumDisk
      dsimp only at hstart
      rcases hfollows with ⟨hpath, hrecorded⟩ | ⟨hfile, hnone⟩
      · rw [List.isEmpty_eq_false_iff.2 hpath, if_neg Bool.false_ne_true] at hstart
        have hload := loadAreasFromFile_ids fl hp (τ := MapServer.boot σ.settings grid dock
          corridorServerInstanceId σ.file) (hwritable hrecorded hfits) h.pos rfl rfl hrecorded
          idDisk datumDisk
        exact h.keep hshape (hstart.1.trans hload.1) (hstart.2.trans hload.2)
      · have hread : (if σ.settings.areasFilePath.isEmpty then
              MapServer.boot σ.settings grid dock corridorServerInstanceId σ.file
            else (loadAreasFromFile fl
              (MapServer.boot σ.settings grid dock corridorServerInstanceId σ.file) idDisk
              datumDisk).1) =
            MapServer.boot σ.settings grid dock corridorServerInstanceId σ.file := by
          split
          · rfl
          · unfold loadAreasFromFile
            rw [show (MapServer.boot σ.settings grid dock corridorServerInstanceId
              σ.file : MapServer F D).file = none from hfile]
        rw [hread] at hstart
        subst hnone
        exact (Identified.boot fl σ.settings grid dock corridorServerInstanceId σ.file).keep hshape
          hstart.1 hstart.2
    | _ => cases hreads

theorem Identified.start (settings : Settings D) (grid : GridMap D) (dock : Option (DockGeometry F))
    (corridorServerInstanceId : Str) {file : Option Str} (idDisk datumDisk : Disk)
    (hold : ∀ text, file = some text → LacksIds (keyValues text))
    (hparses : ∀ text, file = some text → Parses fl (keyValues text)) :
    Identified fl (start fl settings grid dock corridorServerInstanceId file idDisk datumDisk)
      (areaIds (start fl settings grid dock corridorServerInstanceId file idDisk datumDisk)) := by
  have hshape : Shape fl (Map.start fl settings grid dock corridorServerInstanceId file idDisk
      datumDisk) :=
    (Shape.boot fl settings grid dock corridorServerInstanceId file).perform fl
      (.restart grid dock corridorServerInstanceId idDisk datumDisk)
  have hstart := start_ids fl settings grid dock corridorServerInstanceId file idDisk datumDisk
  dsimp only at hstart
  have hboot := Identified.boot fl settings grid dock corridorServerInstanceId file
  cases hpath : settings.areasFilePath.isEmpty with
  | true =>
    rw [hpath, if_pos rfl] at hstart
    have h := hboot.keep hshape hstart.1 hstart.2
    rwa [List.nil_append] at h
  | false =>
    rw [hpath, if_neg Bool.false_ne_true] at hstart
    cases file with
    | none =>
      have h := hboot.keep hshape hstart.1 hstart.2
      rwa [List.nil_append] at h
    | some text =>
      have hload := loadAreasFromFile_old fl (τ := MapServer.boot settings grid dock
        corridorServerInstanceId (some text)) rfl (hold text rfl) (hparses text rfl) idDisk datumDisk
      dsimp only at hload
      rw [← hstart.1, ← hstart.2] at hload
      exact ⟨hshape, hload.1, fun id hid => UInt32.ne_zero_of_toNat_pos (hload.2.1 id hid).1,
        fun id hid => hid, fun id hid => (hload.2.1 id hid).2, hload.2.2⟩

theorem History.identified (hp : fl.Prints)
    (h : History fl (Fits fl) (fun text => Parses fl (keyValues text)) σ carried) :
    Identified fl σ carried := by
  induction h with
  | first settings grid dock corridorServerInstanceId file idDisk datumDisk hold hok =>
    exact Identified.start fl settings grid dock corridorServerInstanceId idDisk datumDisk hold hok
  | step h op hfollows hok ih => exact ih.perform fl hp hfollows hok

/-- What an addition mints is the counter, which no area ever carried. -/
theorem Identified.minted (h : Identified fl σ carried) {op : Op F D} (hfits : Fits fl σ op) :
    ∀ id ∈ op.minted fl σ, id ∉ carried := by
  cases op with
  | addArea req isNavigationArea disk =>
    intro id hid hmem
    obtain ⟨hnew, hother⟩ := List.mem_filter.1 hid
    have hc := onAddArea_change fl σ req isNavigationArea disk
    unfold areaIds at hnew
    by_cases hpoints : req.area.length < 3
    · have hsame : (onAddArea fl σ req isNavigationArea disk).1 = σ := by
        unfold onAddArea
        rw [if_pos hpoints]
      rw [hsame, List.drop_eq_nil_of_le (Nat.le_of_eq (List.length_map _))] at hnew
      cases hnew
    · have hareas : (onAddArea fl σ req isNavigationArea disk).1.areas =
          (storeArea fl σ req isNavigationArea).areas := by
        unfold onAddArea
        rw [if_neg hpoints]
        dsimp only
        rw [resizeMapToAreas_frame]
        obtain ⟨file, hfile⟩ := persistAreasBestEffort_frame fl
          { storeArea fl σ req isNavigationArea with
            grid := { (resizeMapToAreas fl (storeArea fl σ req isNavigationArea)).grid with
              classificationDirty := true } } disk
        rw [hfile]
        rfl
      obtain ⟨area, hassigned, hstore, -⟩ := storeArea_areas fl σ req isNavigationArea
      obtain ⟨-, -, -, -, hminted⟩ := assignAreaId_new (hfits (Nat.le_of_not_lt hpoints)) h.pos
        fun a ha => (h.areas a ha).2
      rw [hareas, hstore, List.map_append, List.drop_left' (List.length_map _)] at hnew
      rw [List.map_singleton, List.mem_singleton] at hnew
      rw [hnew] at hmem hother
      have hne : area.id ≠ req.id := bne_iff_ne.1 hother
      rw [hassigned] at hne hmem
      rw [hminted hne] at hmem
      exact Nat.lt_irrefl _ (h.below _ hmem)
  | _ =>
    intro id hid
    cases hid

/-- Unique ids, and none of the counter's was ever carried before. -/
theorem area_ids_unique (hp : fl.Prints) {σ : MapServer F D} {carried : List UInt32}
    (h : History fl (Fits fl) (fun text => Parses fl (keyValues text)) σ carried) :
    (areaIds σ).Nodup ∧ (∀ id ∈ areaIds σ, id ≠ 0) ∧
      ∀ op, Follows fl σ carried op → Fits fl σ op → ∀ id ∈ op.minted fl σ, id ∉ carried := by
  have hi := h.identified fl hp
  exact ⟨hi.distinct, hi.nonzero, fun op _ hfits => hi.minted fl hfits⟩

end Identity

/-! ## Three lives of a map -/

theorem isNumeral_showRational (x : ℚ) : isNumeral (showRational x) = true := by
  have hdigit : ∀ (n : Nat) (c : Char), c ∈ Text.decimal n →
      (!"\n\r\t ,;".toList.contains c) = true := by
    intro n c hc
    have hd := Text.isDigit_of_mem_decimal hc
    cases hsep : "\n\r\t ,;".toList.contains c with
    | false => rfl
    | true =>
      have hmem := List.contains_iff_mem.1 hsep
      have hnone : ("\n\r\t ,;".toList.all fun c => !c.isDigit) = true := by decide
      have hc := List.all_eq_true.1 hnone c hmem
      rw [hd] at hc
      cases hc
  have hall : ∀ c ∈ showRational x, (!"\n\r\t ,;".toList.contains c) = true := by
    intro c hc
    unfold showRational at hc
    rcases List.mem_append.1 hc with hc | hc
    · cases hnum : x.num with
      | ofNat n =>
        rw [hnum] at hc
        exact hdigit n c hc
      | negSucc n =>
        rw [hnum] at hc
        rcases List.mem_cons.1 hc with rfl | hc
        · decide
        · exact hdigit (n + 1) c hc
    · split at hc
      · cases hc
      · rcases List.mem_cons.1 hc with rfl | hc
        · decide
        · exact hdigit x.den c hc
  have hne : showRational x ≠ [] := by
    unfold showRational
    cases x.num with
    | ofNat n =>
      intro h
      exact Text.decimal_ne_nil n (List.append_eq_nil_iff.1 h).1
    | negSucc n =>
      intro h
      cases (List.append_eq_nil_iff.1 h).1
  unfold isNumeral
  rw [Bool.and_eq_true]
  refine ⟨?_, List.all_eq_true.2 hall⟩
  rw [List.isEmpty_eq_false_iff.2 hne]
  rfl

theorem exact_prints : exact.Prints :=
  ⟨fun _ x => isNumeral_showRational x, fun _ x => isNumeral_showRational x,
    fun _ x => isNumeral_showRational x⟩

theorem readFraction_text (sign : Int) (n d : Nat) :
    readFraction sign (Text.decimal n ++ if d = 1 then [] else '/' :: Text.decimal d) =
      some (mkRat (sign * n) d) := by
  have hends : Text.Ends (if d = 1 then [] else '/' :: Text.decimal d) := by
    intro c hc
    split at hc
    · cases hc
    · cases hc
      rfl
  unfold readFraction
  rw [Text.digits_decimal n hends, Option.bind_some]
  by_cases hd : d = 1
  · rw [if_pos hd, hd]
    dsimp only
    rw [Rat.mkRat_one]
  · have hdigits : Text.digits (Text.decimal d ++ []) = some (d, []) :=
      Text.digits_decimal d fun c hc => by cases hc
    rw [List.append_nil] at hdigits
    rw [if_neg hd]
    show (Text.digits (Text.decimal d)).map _ = _
    rw [hdigits]
    rfl

theorem readRational_showRational (x : ℚ) : readRational (showRational x) = some x := by
  unfold showRational
  cases hnum : x.num with
  | ofNat n =>
    obtain ⟨c, rest, hcons, hc⟩ := Text.decimal_cons n
    have hread := readFraction_text 1 n x.den
    rw [show showInteger (.ofNat n) = Text.decimal n from rfl]
    rw [hcons, List.cons_append] at hread ⊢
    unfold readRational
    rw [Text.skipSpace_of_isDigit hc]
    split
    · rename_i heq
      cases heq
      exact absurd hc (by decide)
    · rw [hread, one_mul]
      have := Rat.mkRat_self x
      rw [hnum] at this
      exact congrArg some this
  | negSucc n =>
    have hskip : Text.skipSpace ('-' :: (Text.decimal (n + 1) ++
        if x.den = 1 then [] else '/' :: Text.decimal x.den)) =
        '-' :: (Text.decimal (n + 1) ++ if x.den = 1 then [] else '/' :: Text.decimal x.den) := by
      unfold Text.skipSpace
      rw [List.dropWhile_cons_of_neg (by decide)]
    unfold readRational
    rw [show showInteger (.negSucc n) = '-' :: Text.decimal (n + 1) from rfl, List.cons_append,
      hskip]
    show readFraction (-1) _ = _
    rw [readFraction_text]
    have := Rat.mkRat_self x
    rw [hnum] at this
    rw [show (-1 : Int) * ((n + 1 : Nat) : Int) = .negSucc n by omega]
    exact congrArg some this

theorem exact_readsPolygon (precision : Nat) (poly : Polygon ℚ) :
    ReadsPolygon exact precision poly :=
  fun p _ => ⟨⟨p.x, readRational_showRational p.x, rfl⟩, p.y, readRational_showRational p.y, rfl⟩

theorem exact_readsLines (lines : AreaCoverageLines ℚ) : ReadsLines exact lines :=
  ⟨fun _ => ⟨_, readRational_showRational _, rfl⟩,
    fun _ => ⟨⟨_, readRational_showRational _, rfl⟩, _, readRational_showRational _, rfl⟩⟩

def firstStart (file : Option Str) : MapServer ℚ ℚ :=
  start exact exactSettings (emptyGrid 10 10) none [] file .full .full

def drawn (id : UInt32) : Op ℚ ℚ := .addArea (lawn "lawn".toList id) false (.replaced true)

/-- The map of one lawn, as it is saved and read back. -/
def oneLawn : MapServer ℚ ℚ := (perform exact (firstStart none) (drawn 0)).1

theorem oneLawn_printable : Printable exact oneLawn := by
  refine ⟨?_, fun area _ => exact_readsPolygon 6 area.polygon,
    fun area _ => exact_readsLines area.coverageLines,
    fun area _ obs _ => exact_readsPolygon 6 obs.polygon, ?_, ?_, ?_, ?_, ?_, ?_⟩
  · show ∀ area ∈ oneLawn.areas,
      '\n' ∉ area.name ∧ ∀ obs ∈ applied area.obstacles, '\n' ∉ obs.name
    decide +kernel
  · decide +kernel
  · decide +kernel
  · decide +kernel
  · exact fun c _ => ⟨exact_readsPolygon 9 c.polyline, c.widthM, readRational_showRational c.widthM,
      rfl⟩
  · decide +kernel
  · intro _
    have hread : ∀ x : ℚ, ReadsFixed exact 9 x ∧ rereadFixed exact 9 x = x := by
      intro x
      have hx := readRational_showRational x
      refine ⟨⟨x, hx, rfl⟩, ?_⟩
      show (readRational (showRational x)).getD x = x
      rw [hx]
      rfl
    refine ⟨(hread _).1, (hread _).1, ⟨rfl, rfl⟩, ?_, ?_⟩
    · rw [(hread _).2, (hread _).2]
      decide +kernel
    · rw [(hread _).2, (hread _).2]
      decide +kernel

/-- Drawn, restarted, and drawn again. -/
theorem area_ids_unique_oneLawn :
    (areaIds (perform exact oneLawn (.restart (emptyGrid 10 10) none [] .full .full)).1).Nodup ∧
      ∀ id ∈ (drawn 0).minted exact
        (perform exact oneLawn (.restart (emptyGrid 10 10) none [] .full .full)).1,
        id ∉ [] ++ areaIds oneLawn ++ areaIds
          (perform exact oneLawn (.restart (emptyGrid 10 10) none [] .full .full)).1 := by
  have hfirst : History exact (Fits exact) (fun text => Parses exact (keyValues text))
      (firstStart none) [] :=
    .first exactSettings (emptyGrid 10 10) none [] none .full .full (fun _ h => by cases h)
      fun _ h => by cases h
  have hdrawn : FitsCounter (firstStart none).areas (firstStart none).nextAreaId 0 := by
    refine ⟨by decide, ?_⟩
    decide +kernel
  have hsaved : Saved exact oneLawn ([] ++ areaIds oneLawn) := by
    refine Or.inl ⟨by decide +kernel, ?_⟩
    show oneLawn.file = some (areasText exact oneLawn oneLawn.lidarIgnoreCorridors
      oneLawn.nextLidarCorridorId)
    decide +kernel
  have hlawn := hfirst.step (drawn 0) trivial fun _ => hdrawn
  have hagain := History.step (σ := oneLawn) hlawn
    (.restart (emptyGrid 10 10) none [] .full .full) hsaved fun _ => oneLawn_printable
  have h := area_ids_unique exact exact_prints hagain
  refine ⟨h.1, h.2.2 (drawn 0) trivial fun _ => ⟨by decide, ?_⟩⟩
  decide +kernel

/-- The largest id makes the counter wrap, and the next area gets no id. -/
theorem largest_id_wraps_counter :
    ¬∀ (σ : MapServer ℚ ℚ) (carried : List UInt32),
      History exact (fun _ _ => True) (fun _ => True) σ carried →
        (areaIds σ).Nodup ∧ (∀ id ∈ areaIds σ, id ≠ 0) ∧
          ∀ op, Follows exact σ carried op → ∀ id ∈ op.minted exact σ, id ∉ carried := by
  intro h
  have hfirst : History exact (fun _ _ => True) (fun _ => True) (firstStart none) [] :=
    .first exactSettings (emptyGrid 10 10) none [] none .full .full (fun _ h => by cases h)
      fun _ _ => trivial
  have hlargest := hfirst.step (drawn 4294967295) trivial trivial
  have hnonzero := (h _ _ (hlargest.step (drawn 0) trivial trivial)).2.1
  have hzero : 0 ∈ areaIds (perform exact (perform exact (firstStart none)
      (drawn 4294967295)).1 (drawn 0)).1 := by
    decide +kernel
  exact hnonzero 0 hzero rfl

end Map
end Mowgli
