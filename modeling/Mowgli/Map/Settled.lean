import Mowgli.Map.Runs

/-!
# Settled — a map without its proposals

What is left of a state without the pending entries and without the handles of the obstacles.
Every reader of the map gives the same answer on it, and every operation leads to the same one.
-/

namespace Mowgli
namespace Map

section Settled

variable {F D : Type} (fl : Floats F D)

def ObstacleEntry.unnumbered (obs : ObstacleEntry F) : ObstacleEntry F := { obs with id := 0 }

/-- An area without its proposals, and without the handles of its keepouts. -/
def AreaEntry.settled (area : AreaEntry F D) : AreaEntry F D :=
  { area with obstacles := (applied area.obstacles).map (·.unnumbered) }

def MapServer.settled (σ : MapServer F D) : MapServer F D :=
  { σ with areas := σ.areas.map (·.settled), nextObstacleId := 0 }

theorem applied_unnumbered (obstacles : List (ObstacleEntry F)) :
    applied ((applied obstacles).map (·.unnumbered)) = (applied obstacles).map (·.unnumbered) := by
  unfold applied
  refine List.filter_eq_self.2 ?_
  intro obs hobs
  obtain ⟨before, hbefore, rfl⟩ := List.mem_map.1 hobs
  exact (List.mem_filter.1 hbefore).2

theorem applied_settled (area : AreaEntry F D) :
    applied area.settled.obstacles = (applied area.obstacles).map (·.unnumbered) :=
  applied_unnumbered area.obstacles

theorem AreaEntry.settled_settled (area : AreaEntry F D) : area.settled.settled = area.settled := by
  have h : (applied area.settled.obstacles).map (·.unnumbered) = area.settled.obstacles := by
    rw [applied_settled, List.map_map]
    rfl
  unfold AreaEntry.settled at h ⊢
  dsimp only
  rw [h]

theorem MapServer.settled_settled (σ : MapServer F D) : σ.settled.settled = σ.settled := by
  have h : σ.settled.areas.map (·.settled) = σ.areas.map (·.settled) := by
    show (σ.areas.map (·.settled)).map (·.settled) = _
    rw [List.map_map]
    exact List.map_congr_left fun area _ => area.settled_settled
  unfold MapServer.settled at h ⊢
  dsimp only
  rw [h]

/-! ## The grid -/

theorem gridPoints_settled (areas : List (AreaEntry F D)) (dock : Option (DockGeometry F)) :
    gridPoints (areas.map (·.settled)) dock = gridPoints areas dock := by
  unfold gridPoints
  rw [List.flatMap_map]
  rfl

variable {σ τ : MapServer F D}

theorem resizeMapToAreas_grid (hempty : σ.areas.isEmpty = τ.areas.isEmpty)
    (hpoints : gridPoints σ.areas σ.dock = gridPoints τ.areas τ.dock) (hgrid : σ.grid = τ.grid)
    (hsettings : σ.settings = τ.settings) :
    (resizeMapToAreas fl σ).grid = (resizeMapToAreas fl τ).grid := by
  unfold resizeMapToAreas
  dsimp only
  rw [hempty, hpoints, hgrid, hsettings]
  split
  · rfl
  split
  · rfl
  split
  · split
    · rfl
    split
    · rfl
    · rfl
  · rfl

theorem resizeMapToAreas_settled (σ : MapServer F D) :
    resizeMapToAreas fl σ.settled = (resizeMapToAreas fl σ).settled := by
  have hgrid : (resizeMapToAreas fl σ.settled).grid = (resizeMapToAreas fl σ).grid :=
    resizeMapToAreas_grid fl List.isEmpty_map (gridPoints_settled σ.areas σ.dock) rfl rfl
  rw [resizeMapToAreas_frame fl σ.settled, resizeMapToAreas_frame fl σ, hgrid]
  rfl

theorem classifyArea_settled (axes : CellAxes D) (cls : Layer) (area : AreaEntry F D) :
    classifyArea fl axes cls area.settled = classifyArea fl axes cls area := by
  unfold classifyArea
  rw [applied_settled, List.foldl_map]
  rfl

theorem applyAreaClassifications_settled (σ : MapServer F D) :
    applyAreaClassifications fl σ.settled = (applyAreaClassifications fl σ).settled := by
  have h : σ.settled.areas.foldl (classifyArea fl (gridAxes fl σ)) σ.grid.classification =
      σ.areas.foldl (classifyArea fl (gridAxes fl σ)) σ.grid.classification := by
    show (σ.areas.map (·.settled)).foldl _ _ = _
    rw [List.foldl_map]
    simp only [classifyArea_settled]
  unfold applyAreaClassifications
  dsimp only
  rw [show σ.settled.areas.foldl (classifyArea fl (gridAxes fl σ.settled)) σ.settled.grid.classification =
    _ from h]
  rfl

/-! ## The file -/

theorem obstacleLines_unnumbered (pre : Str) (j : Nat) (obs : ObstacleEntry F) :
    obstacleLines fl pre j obs.unnumbered = obstacleLines fl pre j obs := rfl

theorem indexedLines_map {α : Type} {lines : Nat → α → List Line} {f : α → α}
    (h : ∀ i a, lines i (f a) = lines i a) (i : Nat) (as : List α) :
    indexedLines lines i (as.map f) = indexedLines lines i as := by
  induction as generalizing i with
  | nil => rfl
  | cons a as ih => rw [List.map_cons, indexedLines, indexedLines, h, ih]

theorem areaLines_settled (i : Nat) (area : AreaEntry F D) :
    areaLines fl i area.settled = areaLines fl i area := by
  unfold areaLines
  dsimp only
  rw [applied_settled, List.length_map,
    indexedLines_map fun j obs => obstacleLines_unnumbered fl _ j obs]
  rfl

theorem areasText_settled (σ : MapServer F D) (corridors : List (LidarIgnoreCorridorEntry F D))
    (next : Nat) : areasText fl σ.settled corridors next = areasText fl σ corridors next := by
  have hlines : indexedLines (areaLines fl) 0 σ.settled.areas =
      indexedLines (areaLines fl) 0 σ.areas := indexedLines_map (areaLines_settled fl) 0 σ.areas
  have hlength : σ.settled.areas.length = σ.areas.length := List.length_map _
  unfold areasText fileLines
  rw [hlines, hlength]
  rfl

theorem writeAreasCandidate_settled (σ : MapServer F D) (allow : Bool)
    (corridors : List (LidarIgnoreCorridorEntry F D)) (next : Nat) (disk : Disk) :
    writeAreasCandidate fl σ.settled allow corridors next disk =
      writeAreasCandidate fl σ allow corridors next disk := by
  have hempty : σ.settled.areas.isEmpty = σ.areas.isEmpty := List.isEmpty_map
  unfold writeAreasCandidate
  rw [areasText_settled, hempty]
  rfl

theorem saveAreasToFile_settled (σ : MapServer F D) (allow : Bool) (disk : Disk) :
    saveAreasToFile fl σ.settled allow disk =
      (saveAreasToFile fl σ allow disk).map (·.settled) := by
  unfold saveAreasToFile
  have hcorridors : σ.settled.lidarIgnoreCorridors = σ.lidarIgnoreCorridors := rfl
  have hnext : σ.settled.nextLidarCorridorId = σ.nextLidarCorridorId := rfl
  rw [writeAreasCandidate_settled, hcorridors, hnext]
  cases writeAreasCandidate fl σ allow σ.lidarIgnoreCorridors σ.nextLidarCorridorId disk with
  | ok r => rfl
  | error what => rfl

theorem saveBestEffort_settled (σ : MapServer F D) (disk : Disk) :
    saveBestEffort fl σ.settled disk = (saveBestEffort fl σ disk).settled := by
  unfold saveBestEffort
  rw [saveAreasToFile_settled]
  cases saveAreasToFile fl σ false disk with
  | none => rfl
  | some τ => rfl

theorem persistAreasBestEffort_settled (σ : MapServer F D) (disk : Disk) :
    persistAreasBestEffort fl σ.settled disk = (persistAreasBestEffort fl σ disk).settled := by
  unfold persistAreasBestEffort
  rw [saveBestEffort_settled, apply_ite MapServer.settled]
  rfl

/-! ## The list -/

theorem applied_map_unnumbered (obstacles : List (ObstacleEntry F)) :
    applied (obstacles.map (·.unnumbered)) = (applied obstacles).map (·.unnumbered) := by
  unfold applied
  rw [List.filter_map]
  rfl

theorem applied_congr {xs ys : List (ObstacleEntry F)}
    (h : xs.map (·.unnumbered) = ys.map (·.unnumbered)) :
    (applied xs).map (·.unnumbered) = (applied ys).map (·.unnumbered) := by
  rw [← applied_map_unnumbered, ← applied_map_unnumbered, h]

theorem MapServer.settled_append (σ : MapServer F D) (area : AreaEntry F D) :
    { σ with areas := σ.areas ++ [area] }.settled =
      { σ.settled with areas := σ.settled.areas ++ [area.settled] } := by
  unfold MapServer.settled
  dsimp only
  rw [List.map_append]
  rfl

variable {a b : AreaEntry F D}

theorem MapServer.settled_push (h : σ.settled = τ.settled) (hab : a.settled = b.settled) :
    { σ with areas := σ.areas ++ [a] }.settled = { τ with areas := τ.areas ++ [b] }.settled := by
  rw [settled_append, settled_append, h, hab]

theorem AreaEntry.settled_of (hrest : { a with obstacles := [] } = { b with obstacles := [] })
    (h : (applied a.obstacles).map (·.unnumbered) = (applied b.obstacles).map (·.unnumbered)) :
    a.settled = b.settled := by
  show { ({ a with obstacles := [] } : AreaEntry F D) with
      obstacles := (applied a.obstacles).map ObstacleEntry.unnumbered } =
    { ({ b with obstacles := [] } : AreaEntry F D) with
      obstacles := (applied b.obstacles).map ObstacleEntry.unnumbered }
  rw [hrest, h]

theorem AreaEntry.settled_congr (hrest : { a with obstacles := [] } = { b with obstacles := [] })
    (h : a.obstacles.map (·.unnumbered) = b.obstacles.map (·.unnumbered)) : a.settled = b.settled :=
  AreaEntry.settled_of hrest (applied_congr h)

theorem applied_append (xs ys : List (ObstacleEntry F)) :
    applied (xs ++ ys) = applied xs ++ applied ys := List.filter_append _ _

theorem hasDuplicateObstacleEntry_unnumbered (entries : List (ObstacleEntry F))
    (candidate : Polygon F) (eps : D) (includePending : Bool) :
    hasDuplicateObstacleEntry fl (entries.map (·.unnumbered)) candidate eps includePending =
      hasDuplicateObstacleEntry fl entries candidate eps includePending := by
  unfold hasDuplicateObstacleEntry
  rw [List.filter_map, List.map_map]
  rfl

/-- Proposals do not count among the keepouts. -/
theorem hasDuplicateObstacleEntry_settled (area : AreaEntry F D) (candidate : Polygon F) (eps : D) :
    hasDuplicateObstacleEntry fl area.settled.obstacles candidate eps false =
      hasDuplicateObstacleEntry fl area.obstacles candidate eps false := by
  show hasDuplicateObstacleEntry fl ((applied area.obstacles).map (·.unnumbered)) candidate eps
    false = _
  rw [hasDuplicateObstacleEntry_unnumbered]
  unfold hasDuplicateObstacleEntry applied
  simp [List.filter_filter]

theorem modifyFirst_map {α : Type} {p : α → Bool} {f g : α → α} (hp : ∀ a, p (g a) = p a)
    (hf : ∀ a, f (g a) = g (f a)) (as : List α) :
    modifyFirst p f (as.map g) = (modifyFirst p f as).map g := by
  induction as with
  | nil => rfl
  | cons a as ih =>
    rw [List.map_cons, modifyFirst, modifyFirst, hp]
    cases p a with
    | true =>
      rw [if_pos rfl, if_pos rfl, List.map_cons, hf]
    | false =>
      rw [if_neg Bool.false_ne_true, if_neg Bool.false_ne_true, List.map_cons, ih]

/-- A place of a list changed, seen through a view that `g` does not change. -/
theorem map_modify {α β : Type} {view : α → β} {f f' g : α → α} (hg : ∀ a, view (g a) = view a)
    (hf : ∀ a, view (f (g a)) = view (f' a)) (as : List α) (i : Nat) :
    ((as.map g).modify i f).map view = (as.modify i f').map view := by
  have hrest : ∀ as : List α, (as.map g).map view = as.map view := by
    intro as
    rw [List.map_map]
    exact List.map_congr_left fun a _ => hg a
  induction as generalizing i with
  | nil => rw [List.map_nil, List.modify_nil, List.modify_nil]
  | cons a as ih =>
    cases i with
    | zero => simp [hf, hg]
    | succ i =>
      rw [List.map_cons, List.modify_succ_cons, List.modify_succ_cons, List.map_cons,
        List.map_cons, hg, ih]

/-! ## Adding -/

theorem addObstacles_unnumbered (σ τ : MapServer F D) (info : List MapObstacleInfo)
    (obstacles : List (Polygon F)) :
    (addObstacles σ info obstacles).1.map (·.unnumbered) =
      (addObstacles τ info obstacles).1.map (·.unnumbered) := by
  induction obstacles generalizing σ τ info with
  | nil => rfl
  | cons obstacle obstacles ih =>
    unfold addObstacles
    split
    · dsimp only
      rw [List.map_cons, List.map_cons, ih]
      rfl
    · exact ih σ τ info.tail

theorem assignAreaId_settled (areas : List (AreaEntry F D)) (next id : UInt32) :
    assignAreaId (areas.map (·.settled)) next id = assignAreaId areas next id := by
  have h : ((areas.map (·.settled)).any fun existing => existing.id == id) =
      areas.any fun existing => existing.id == id := List.any_map
  unfold assignAreaId
  rw [h]

theorem storeArea_settled (σ : MapServer F D) (req : MapArea F D) (isNavigationArea : Bool) :
    (storeArea fl σ.settled req isNavigationArea).settled =
      (storeArea fl σ req isNavigationArea).settled := by
  have hid : assignAreaId σ.settled.areas σ.settled.nextAreaId req.id =
      assignAreaId σ.areas σ.nextAreaId req.id := assignAreaId_settled σ.areas σ.nextAreaId req.id
  unfold storeArea
  dsimp only
  rw [hid]
  obtain ⟨m, hm⟩ := addObstacles_frame
    { σ.settled with nextAreaId := (assignAreaId σ.areas σ.nextAreaId req.id).2 }
    req.obstacleInfo req.obstacles
  obtain ⟨n, hn⟩ := addObstacles_frame
    { σ with nextAreaId := (assignAreaId σ.areas σ.nextAreaId req.id).2 }
    req.obstacleInfo req.obstacles
  rw [hm, hn]
  dsimp only
  refine MapServer.settled_push
    (σ := { σ.settled with nextAreaId := (assignAreaId σ.areas σ.nextAreaId req.id).2,
                           nextObstacleId := m })
    (τ := { σ with nextAreaId := (assignAreaId σ.areas σ.nextAreaId req.id).2,
                   nextObstacleId := n }) ?_ ?_
  · exact congrArg (fun τ : MapServer F D =>
      { τ with nextAreaId := (assignAreaId σ.areas σ.nextAreaId req.id).2 }) σ.settled_settled
  · exact AreaEntry.settled_congr rfl (addObstacles_unnumbered _ _ _ _)

theorem onAddArea_settled (σ : MapServer F D) (req : MapArea F D) (isNavigationArea : Bool)
    (disk : Disk) :
    (onAddArea fl σ.settled req isNavigationArea disk).1.settled =
        (onAddArea fl σ req isNavigationArea disk).1.settled ∧
      (onAddArea fl σ.settled req isNavigationArea disk).2 =
        (onAddArea fl σ req isNavigationArea disk).2 := by
  unfold onAddArea
  split
  · exact ⟨σ.settled_settled, rfl⟩
  · refine ⟨?_, rfl⟩
    dsimp only
    have hstore := storeArea_settled fl σ req isNavigationArea
    have hfit := congrArg (resizeMapToAreas fl) hstore
    rw [resizeMapToAreas_settled, resizeMapToAreas_settled] at hfit
    have hrest : ∀ τ : MapServer F D,
        bumpAreaListGeneration (persistAreasBestEffort fl
          { τ.settled with grid := { τ.settled.grid with classificationDirty := true } } disk) =
        (bumpAreaListGeneration (persistAreasBestEffort fl
          { τ with grid := { τ.grid with classificationDirty := true } } disk)).settled := by
      intro τ
      have h := persistAreasBestEffort_settled fl
        { τ with grid := { τ.grid with classificationDirty := true } } disk
      exact congrArg bumpAreaListGeneration h
    rw [← hrest, ← hrest, hfit]

/-! ## The other services -/

theorem onSetAreaCoverageLines_settled (σ : MapServer F D) (id : UInt32)
    (lines : AreaCoverageLines D) (disk : Disk) :
    (onSetAreaCoverageLines fl σ.settled id lines disk).1 =
        (onSetAreaCoverageLines fl σ id lines disk).1.settled ∧
      (onSetAreaCoverageLines fl σ.settled id lines disk).2 =
        (onSetAreaCoverageLines fl σ id lines disk).2 := by
  have hfind : σ.settled.areas.find? (fun entry => entry.id == id && id != 0) =
      (σ.areas.find? fun entry => entry.id == id && id != 0).map (·.settled) := List.find?_map
  unfold onSetAreaCoverageLines
  split
  · exact ⟨rfl, rfl⟩
  · rename_i stored _
    dsimp only
    rw [hfind]
    cases σ.areas.find? fun entry => entry.id == id && id != 0 with
    | none => exact ⟨rfl, rfl⟩
    | some entry =>
      dsimp only [Option.map_some]
      rw [show entry.settled.isNavigationArea = entry.isNavigationArea from rfl,
        show entry.settled.polygon = entry.polygon from rfl]
      cases entry.isNavigationArea with
      | true => exact ⟨rfl, rfl⟩
      | false =>
        rw [if_neg Bool.false_ne_true, if_neg Bool.false_ne_true]
        split
        · exact ⟨rfl, rfl⟩
        · have hareas : modifyFirst (fun entry : AreaEntry F D => entry.id == id && id != 0)
              (fun entry => { entry with coverageLines := stored }) σ.settled.areas =
              (modifyFirst (fun entry => entry.id == id && id != 0)
                (fun entry => { entry with coverageLines := stored }) σ.areas).map (·.settled) := by
            refine modifyFirst_map ?_ ?_ σ.areas
            · intro entry
              rfl
            · intro entry
              rfl
          rw [hareas]
          have hwrite := writeAreasCandidate_settled fl
            { σ with
              areas := modifyFirst (fun entry : AreaEntry F D => entry.id == id && id != 0)
                (fun entry => { entry with coverageLines := stored }) σ.areas }
            false σ.lidarIgnoreCorridors σ.nextLidarCorridorId disk
          unfold MapServer.settled at hwrite ⊢
          dsimp only at hwrite ⊢
          rw [hwrite]
          split
          · exact ⟨rfl, rfl⟩
          · split <;> exact ⟨rfl, rfl⟩

theorem onSaveAreas_settled (σ : MapServer F D) (disk : Disk) :
    (onSaveAreas fl σ.settled disk).1 = (onSaveAreas fl σ disk).1.settled ∧
      (onSaveAreas fl σ.settled disk).2 = (onSaveAreas fl σ disk).2 := by
  have hwrite := writeAreasCandidate_settled fl σ true σ.lidarIgnoreCorridors
    σ.nextLidarCorridorId disk
  unfold onSaveAreas
  rw [show writeAreasCandidate fl σ.settled true σ.settled.lidarIgnoreCorridors
    σ.settled.nextLidarCorridorId disk = _ from hwrite,
    show σ.settled.settings = σ.settings from rfl]
  split
  · exact ⟨rfl, rfl⟩
  · split <;> exact ⟨rfl, rfl⟩

theorem commitCorridors_settled (σ : MapServer F D)
    (candidate : List (LidarIgnoreCorridorEntry F D)) (next : Nat) (result : ReplaceResponse F D)
    (persist : Bool) (disk : Disk) (publishes : Bool) :
    (commitCorridors fl σ.settled candidate next result persist disk publishes).1 =
        (commitCorridors fl σ candidate next result persist disk publishes).1.settled ∧
      (commitCorridors fl σ.settled candidate next result persist disk publishes).2 =
        (commitCorridors fl σ candidate next result persist disk publishes).2 := by
  have hwrite := writeAreasCandidate_settled fl σ false candidate next disk
  unfold commitCorridors
  dsimp only
  rw [hwrite, show σ.settled.settings = σ.settings from rfl,
    show σ.settled.lidarIgnoreCorridors = σ.lidarIgnoreCorridors from rfl]
  split
  · exact ⟨rfl, rfl⟩
  · cases hconf : !σ.settings.areasFilePath.isEmpty with
    | false =>
      simp only [Bool.false_eq_true, if_false]
      split <;> exact ⟨rfl, rfl⟩
    | true =>
      simp only [if_true]
      cases writeAreasCandidate fl σ false candidate next disk with
      | ok written =>
        dsimp only
        split <;> exact ⟨rfl, rfl⟩
      | error what =>
        dsimp only
        split <;> exact ⟨rfl, rfl⟩

theorem Edit.perform_settled (σ : MapServer F D) (disk : Disk) (publishes : Bool) (e : Edit F D) :
    (e.perform fl σ.settled disk publishes).1 = (e.perform fl σ disk publishes).1.settled ∧
      e.success fl σ.settled disk publishes = e.success fl σ disk publishes := by
  cases e with
  | add corridor =>
    show (onAddLidarIgnoreCorridor fl σ.settled corridor disk publishes).state =
        (onAddLidarIgnoreCorridor fl σ corridor disk publishes).state.settled ∧
      (onAddLidarIgnoreCorridor fl σ.settled corridor disk publishes).response.success =
        (onAddLidarIgnoreCorridor fl σ corridor disk publishes).response.success
    unfold onAddLidarIgnoreCorridor
    rw [show stageAdd fl σ.settled corridor = stageAdd fl σ corridor from rfl]
    cases stageAdd fl σ corridor with
    | none => exact ⟨rfl, rfl⟩
    | some staged =>
      have h := commitCorridors_settled fl σ staged.1 staged.2.1 .zero false disk publishes
      exact ⟨h.1, congrArg (·.success) h.2⟩
  | replace operation corridors =>
    show (onReplaceLidarIgnoreCorridors fl σ.settled operation corridors disk publishes).state =
        (onReplaceLidarIgnoreCorridors fl σ operation corridors disk publishes).state.settled ∧
      (onReplaceLidarIgnoreCorridors fl σ.settled operation corridors disk
          publishes).response.success =
        (onReplaceLidarIgnoreCorridors fl σ operation corridors disk publishes).response.success
    unfold onReplaceLidarIgnoreCorridors
    rw [show stageReplace fl σ.settled operation corridors =
      stageReplace fl σ operation corridors from rfl]
    cases stageReplace fl σ operation corridors with
    | error message => exact ⟨rfl, rfl⟩
    | ok staged =>
      have h := commitCorridors_settled fl σ staged.1 staged.2
        (validationRejected σ operation stagingMessage) true disk publishes
      exact ⟨h.1, congrArg (·.success) h.2⟩
  | clear =>
    have h := commitCorridors_settled fl σ [] σ.nextLidarCorridorId .zero false disk publishes
    exact ⟨h.1, congrArg (fun r : ReplaceResponse F D => r.committed && r.published) h.2⟩

theorem onPublishTimer_settled (σ : MapServer F D) (publishes : Bool) :
    onPublishTimer fl σ.settled publishes = (onPublishTimer fl σ publishes).settled := by
  have hensure : ∀ τ : MapServer F D, ensureClassificationCurrent fl τ.settled =
      (ensureClassificationCurrent fl τ).settled := by
    intro τ
    unfold ensureClassificationCurrent
    rw [applyAreaClassifications_settled, apply_ite MapServer.settled]
    rfl
  unfold onPublishTimer
  rw [← hensure, apply_ite MapServer.settled]
  rfl

theorem applyPromotedObstacle_settled (σ : MapServer F D) (areaIndex : Nat) (polygon : Polygon F)
    (name : Str) (source : UInt8) :
    (applyPromotedObstacle fl σ.settled areaIndex polygon name source).1.settled =
        (applyPromotedObstacle fl σ areaIndex polygon name source).1.settled ∧
      (applyPromotedObstacle fl σ.settled areaIndex polygon name source).2 =
        (applyPromotedObstacle fl σ areaIndex polygon name source).2 := by
  have hget : σ.settled.areas[areaIndex]? = σ.areas[areaIndex]?.map (·.settled) :=
    List.getElem?_map
  unfold applyPromotedObstacle
  rw [hget]
  cases σ.areas[areaIndex]? with
  | none => exact ⟨σ.settled_settled, rfl⟩
  | some area =>
    dsimp only [Option.map_some]
    rw [hasDuplicateObstacleEntry_settled,
      show area.settled.isNavigationArea = area.isNavigationArea from rfl,
      show σ.settled.obstaclePolygons = σ.obstaclePolygons from rfl]
    split
    · exact ⟨σ.settled_settled, rfl⟩
    split
    · exact ⟨σ.settled_settled, rfl⟩
    split
    · exact ⟨σ.settled_settled, rfl⟩
    · refine ⟨?_, rfl⟩
      rw [← applyAreaClassifications_settled, ← applyAreaClassifications_settled]
      refine congrArg (applyAreaClassifications fl) ?_
      have hmodify : ((σ.areas.map AreaEntry.settled).modify areaIndex fun area =>
            { area with obstacles := area.obstacles ++
              [(makeObstacleEntry σ.settled polygon name source false).1] }).map AreaEntry.settled =
          (σ.areas.modify areaIndex fun area =>
            { area with obstacles := area.obstacles ++
              [(makeObstacleEntry σ polygon name source false).1] }).map AreaEntry.settled := by
        refine map_modify AreaEntry.settled_settled ?_ σ.areas areaIndex
        intro area
        refine AreaEntry.settled_of rfl ?_
        dsimp only
        rw [applied_append, applied_append, List.map_append, List.map_append, applied_settled,
          List.map_map]
        rfl
      exact congrArg (fun areas => ({ σ with
        areas := areas
        obstaclePolygons := σ.obstaclePolygons ++ [polygon]
        nextObstacleId := 0 } : MapServer F D)) hmodify

/-! ## Loading -/

variable (kv : KeyValues)

theorem loadObstacles_unnumbered (pre : Str) (n j : Nat) (σ τ : MapServer F D)
    (xs ys : List (ObstacleEntry F)) (h : xs.map (·.unnumbered) = ys.map (·.unnumbered)) :
    ((loadObstacles fl kv pre n j σ xs).2.map fun obs => obs.map (·.unnumbered)) =
      (loadObstacles fl kv pre n j τ ys).2.map fun obs => obs.map (·.unnumbered) := by
  induction n generalizing j σ τ xs ys with
  | zero => exact congrArg some h
  | succ n ih =>
    unfold loadObstacles
    cases kvObstacle fl kv (pre ++ indexed "_obstacle_" j "") with
    | none => rfl
    | some r =>
      dsimp only
      rw [← hasDuplicateObstacleEntry_unnumbered fl xs, h, hasDuplicateObstacleEntry_unnumbered]
      split
      · refine ih (j + 1) _ _ _ _ ?_
        rw [List.map_append, List.map_append, h]
        rfl
      · exact ih (j + 1) σ τ xs ys h

theorem loadAreas_settled (n i : Nat) (h : σ.settled = τ.settled) :
    (loadAreas fl kv n i σ).1.settled = (loadAreas fl kv n i τ).1.settled ∧
      (loadAreas fl kv n i σ).2 = (loadAreas fl kv n i τ).2 := by
  induction n generalizing i σ τ with
  | zero => exact ⟨h, rfl⟩
  | succ n ih =>
    unfold loadAreas
    cases kvArea fl kv i with
    | none => exact ⟨h, rfl⟩
    | some r =>
      obtain ⟨entry, count⟩ := r
      dsimp only
      obtain ⟨m, hm⟩ := loadObstacles_frame fl kv (indexed "area_" i "") count 0 σ []
      obtain ⟨m', hm'⟩ := loadObstacles_frame fl kv (indexed "area_" i "") count 0 τ []
      have hobs := loadObstacles_unnumbered fl kv (indexed "area_" i "") count 0 σ τ [] [] rfl
      have hstate : (loadObstacles fl kv (indexed "area_" i "") count 0 σ []).1.settled =
          (loadObstacles fl kv (indexed "area_" i "") count 0 τ []).1.settled := by
        rw [hm, hm']
        exact h
      cases hσ : loadObstacles fl kv (indexed "area_" i "") count 0 σ [] with
      | mk σ' obstacles =>
        cases hτ : loadObstacles fl kv (indexed "area_" i "") count 0 τ [] with
        | mk τ' obstacles' =>
          rw [hσ, hτ] at hobs hstate
          dsimp only at hobs hstate
          cases obstacles with
          | none =>
            cases obstacles' with
            | none => exact ⟨hstate, rfl⟩
            | some ys => cases hobs
          | some xs =>
            cases obstacles' with
            | none => cases hobs
            | some ys =>
              dsimp only
              split
              · exact ih (i + 1) (MapServer.settled_push hstate
                  (AreaEntry.settled_congr rfl (Option.some.inj hobs)))
              · exact ih (i + 1) hstate

theorem maxAreaId_settled (areas : List (AreaEntry F D)) :
    maxAreaId (areas.map (·.settled)) = maxAreaId areas := by
  unfold maxAreaId
  rw [List.foldl_map]
  rfl

theorem mintAreaIds_settled (next : UInt32) (areas : List (AreaEntry F D)) :
    mintAreaIds next (areas.map (·.settled)) =
      ((mintAreaIds next areas).1.map (·.settled), (mintAreaIds next areas).2) := by
  induction areas generalizing next with
  | nil => rfl
  | cons area areas ih =>
    rw [List.map_cons, mintAreaIds, mintAreaIds, show area.settled.id = area.id from rfl]
    dsimp only
    rw [ih, ih]
    cases area.id == 0 with
    | true => rfl
    | false => rfl

theorem migrateAreaIds_settled (σ : MapServer F D) (disk : Disk) :
    migrateAreaIds fl kv σ.settled disk = (migrateAreaIds fl kv σ disk).map (·.settled) := by
  have hmax : maxAreaId σ.settled.areas = maxAreaId σ.areas := maxAreaId_settled σ.areas
  have hany : (σ.settled.areas.any fun area => area.id == 0) =
      σ.areas.any fun area => area.id == 0 := List.any_map
  unfold migrateAreaIds
  rw [hmax, hany]
  cases getInt kv "next_area_id".toList 0 with
  | none => rfl
  | some next =>
    dsimp only [Option.map_some]
    split
    · rw [show σ.settled.areas = σ.areas.map (·.settled) from rfl, mintAreaIds_settled,
        ← saveBestEffort_settled]
      rfl
    · rfl

theorem reproject_settled (here there : D × D) (σ : MapServer F D) :
    reproject fl here there σ.settled = (reproject fl here there σ).settled := by
  have harea : ∀ area : AreaEntry F D,
      { area.settled with
        polygon := reprojectPolygon fl here there area.settled.polygon
        obstacles := area.settled.obstacles.map fun obs =>
          { obs with polygon := reprojectPolygon fl here there obs.polygon }
        coverageLines := reprojectLines fl here there area.settled.coverageLines } =
      AreaEntry.settled { area with
        polygon := reprojectPolygon fl here there area.polygon
        obstacles := area.obstacles.map fun obs =>
          { obs with polygon := reprojectPolygon fl here there obs.polygon }
        coverageLines := reprojectLines fl here there area.coverageLines } := by
    intro area
    unfold AreaEntry.settled applied
    dsimp only
    rw [List.filter_map, List.map_map, List.map_map]
    rfl
  unfold reproject MapServer.settled
  dsimp only
  rw [List.map_map, List.map_map]
  exact congrArg (fun areas => ({ σ with
    areas := areas
    lidarIgnoreCorridors := σ.lidarIgnoreCorridors.map fun corridor =>
      { corridor with polyline := reprojectPolygon fl here there corridor.polyline }
    nextObstacleId := 0 } : MapServer F D)) (List.map_congr_left fun area _ => harea area)

theorem migrateAreasDatum_settled (stamp : Option (D × D)) (σ : MapServer F D) (disk : Disk) :
    migrateAreasDatum fl stamp σ.settled disk = (migrateAreasDatum fl stamp σ disk).settled := by
  unfold migrateAreasDatum
  rw [show σ.settled.settings = σ.settings from rfl]
  dsimp only
  split
  · rfl
  · cases stamp with
    | none => exact saveBestEffort_settled fl σ disk
    | some there =>
      dsimp only
      split
      · exact saveBestEffort_settled fl σ disk
      split
      · rfl
      · rw [reproject_settled, saveBestEffort_settled]

theorem finishLoad_settled (σ : MapServer F D) (idDisk datumDisk : Disk) :
    (finishLoad fl kv σ.settled idDisk datumDisk).1 =
        (finishLoad fl kv σ idDisk datumDisk).1.settled ∧
      (finishLoad fl kv σ.settled idDisk datumDisk).2 =
        (finishLoad fl kv σ idDisk datumDisk).2 := by
  unfold finishLoad
  rw [migrateAreaIds_settled]
  cases migrateAreaIds fl kv σ idDisk with
  | none => exact ⟨rfl, rfl⟩
  | some τ =>
    dsimp only [Option.map_some]
    cases datumStamp fl kv with
    | none => exact ⟨rfl, rfl⟩
    | some stamp =>
      dsimp only
      rw [migrateAreasDatum_settled, resizeMapToAreas_settled]
      exact ⟨rfl, rfl⟩

theorem loadAreasFromFile_settled (h : σ.settled = τ.settled) (idDisk datumDisk : Disk) :
    (loadAreasFromFile fl σ idDisk datumDisk).1.settled =
        (loadAreasFromFile fl τ idDisk datumDisk).1.settled ∧
      (loadAreasFromFile fl σ idDisk datumDisk).2 =
        (loadAreasFromFile fl τ idDisk datumDisk).2 := by
  have hfile := congrArg MapServer.file h
  unfold loadAreasFromFile
  rw [show σ.file = τ.file from hfile]
  cases τ.file with
  | none => exact ⟨h, rfl⟩
  | some file =>
    dsimp only
    unfold loadKeyValues
    cases kvCorridors fl (keyValues file) with
    | none => exact ⟨h, rfl⟩
    | some corridors =>
      dsimp only
      have hcleared : { σ with areas := [], obstaclePolygons := [] }.settled =
          { τ with areas := [], obstaclePolygons := [] }.settled :=
        congrArg (fun ρ : MapServer F D => { ρ with areas := [], obstaclePolygons := [] }) h
      cases getInt (keyValues file) "area_count".toList 0 with
      | none => exact ⟨hcleared, rfl⟩
      | some count =>
        dsimp only
        have hareas := loadAreas_settled fl (keyValues file) count.toNat 0 hcleared
        cases hσ : loadAreas fl (keyValues file) count.toNat 0
          { σ with areas := [], obstaclePolygons := [] } with
        | mk σ' a =>
          cases hτ : loadAreas fl (keyValues file) count.toNat 0
            { τ with areas := [], obstaclePolygons := [] } with
          | mk τ' b =>
            rw [hσ, hτ] at hareas
            obtain ⟨hstate, hab⟩ := hareas
            dsimp only at hstate hab
            subst hab
            cases a with
            | false => exact ⟨hstate, rfl⟩
            | true =>
              dsimp only
              have hwith : { σ' with lidarIgnoreCorridors := corridors.1
                                     nextLidarCorridorId := corridors.2 }.settled =
                  { τ' with lidarIgnoreCorridors := corridors.1
                            nextLidarCorridorId := corridors.2 }.settled :=
                congrArg (fun ρ : MapServer F D =>
                  { ρ with lidarIgnoreCorridors := corridors.1
                           nextLidarCorridorId := corridors.2 }) hstate
              have h1 := finishLoad_settled fl (keyValues file)
                { σ' with lidarIgnoreCorridors := corridors.1
                          nextLidarCorridorId := corridors.2 } idDisk datumDisk
              have h2 := finishLoad_settled fl (keyValues file)
                { τ' with lidarIgnoreCorridors := corridors.1
                          nextLidarCorridorId := corridors.2 } idDisk datumDisk
              rw [← h1.1, ← h1.2, ← h2.1, ← h2.2, hwith]
              exact ⟨rfl, rfl⟩

theorem onLoadAreas_settled (h : σ.settled = τ.settled) (idDisk datumDisk : Disk) :
    (onLoadAreas fl σ idDisk datumDisk).1.settled =
        (onLoadAreas fl τ idDisk datumDisk).1.settled ∧
      (onLoadAreas fl σ idDisk datumDisk).2 = (onLoadAreas fl τ idDisk datumDisk).2 := by
  have hload := loadAreasFromFile_settled fl h idDisk datumDisk
  have hsettings := congrArg MapServer.settings h
  unfold onLoadAreas
  rw [show σ.settings = τ.settings from hsettings]
  split
  · exact ⟨h, rfl⟩
  · cases hσ : loadAreasFromFile fl σ idDisk datumDisk with
    | mk σ' a =>
      cases hτ : loadAreasFromFile fl τ idDisk datumDisk with
      | mk τ' b =>
        rw [hσ, hτ] at hload
        obtain ⟨hstate, hab⟩ := hload
        dsimp only at hstate hab
        subst hab
        cases a with
        | false => exact ⟨hstate, rfl⟩
        | true =>
          have hfull : (applyAreaClassifications fl σ').settled =
              (applyAreaClassifications fl τ').settled := by
            rw [← applyAreaClassifications_settled, ← applyAreaClassifications_settled, hstate]
          have hgrid := congrArg MapServer.grid hfull
          exact ⟨hfull, congrArg (fun grid => grid.planningGridError.isEmpty) hgrid⟩

end Settled

end Map
end Mowgli
