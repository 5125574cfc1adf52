import Mowgli.Lib.Unwinding
import Mowgli.Map.Services
import Mowgli.Map.Transaction

/-!
# Runs — the map server, one operation after the other

Everything that reaches the areas of `map_server_node`: the services, the dig reports, what it
hears of the robot and of tracked obstacles, its timer, and a restart.
-/

namespace Mowgli
namespace Map

inductive Op (F D : Type)
  | addArea (req : MapArea F D) (isNavigationArea : Bool) (disk : Disk)
  | clearMap
  | setAreaCoverageLines (id : UInt32) (lines : AreaCoverageLines D) (disk : Disk)
  | promoteObstacle (req : PromoteRequest F) (disk : Disk)
  | discardObstacle (obstacleId : UInt32)
  | corridors (e : Edit F D) (disk : Disk) (publishes : Bool)
  | saveAreas (disk : Disk)
  | loadAreas (idDisk datumDisk : Disk)
  | digEvent (msg : DigEvent D)
  | trackerSnapshot (obstacles : List (UInt32 × Polygon F))
  | robotPose (pose : Option (D × D))
  /-- The timer, as far as it classifies cells and publishes corridors late. -/
  | publishTimer (publishes : Bool)
  | restart (grid : GridMap D) (dock : Option (DockGeometry F)) (corridorServerInstanceId : Str)
      (idDisk datumDisk : Disk)

section Runs

variable {F D : Type} (fl : Floats F D)

/-- The `success` of the response to an edit. -/
def Edit.success (σ : MapServer F D) (disk : Disk) (publishes : Bool) : Edit F D → Bool
  | .add corridor => (onAddLidarIgnoreCorridor fl σ corridor disk publishes).response.success
  | .replace operation corridors =>
    (onReplaceLidarIgnoreCorridors fl σ operation corridors disk publishes).response.success
  | .clear => (onClearLidarIgnoreCorridors fl σ disk publishes).response

/-- The constructor of the node, over what stands on the disk. -/
def start (settings : Settings D) (grid : GridMap D) (dock : Option (DockGeometry F))
    (corridorServerInstanceId : Str) (file : Option Str) (idDisk datumDisk : Disk) :
    MapServer F D :=
  let booted := MapServer.boot settings grid dock corridorServerInstanceId file
  resizeMapToAreas fl
    (if settings.areasFilePath.isEmpty then booted
    else (loadAreasFromFile fl booted idDisk datumDisk).1)

def onPublishTimer (σ : MapServer F D) (publishes : Bool) : MapServer F D :=
  ensureClassificationCurrent fl
    (if σ.corridorPublicationPending && publishes then publishLidarIgnoreCorridors σ else σ)

/-- One operation, and whether it answers with success. -/
def perform (σ : MapServer F D) : Op F D → MapServer F D × Bool
  | .addArea req isNavigationArea disk => onAddArea fl σ req isNavigationArea disk
  | .clearMap => (onClearMap σ, true)
  | .setAreaCoverageLines id lines disk =>
    let r := onSetAreaCoverageLines fl σ id lines disk
    (r.1, r.2.success)
  | .promoteObstacle req disk =>
    let r := onPromoteObstacle fl σ req disk
    (r.1, r.2.success)
  | .discardObstacle obstacleId =>
    let r := onDiscardObstacle σ obstacleId
    (r.1, r.2.success)
  | .corridors e disk publishes =>
    ((e.perform fl σ disk publishes).1, e.success fl σ disk publishes)
  | .saveAreas disk =>
    let r := onSaveAreas fl σ disk
    (r.1, r.2.success)
  | .loadAreas idDisk datumDisk => onLoadAreas fl σ idDisk datumDisk
  | .digEvent msg => (onDigEvent fl σ msg, true)
  | .trackerSnapshot obstacles => ({ σ with lastTrackerSnapshot := obstacles }, true)
  | .robotPose pose => ({ σ with robotPose := pose }, true)
  | .publishTimer publishes => (onPublishTimer fl σ publishes, true)
  | .restart grid dock corridorServerInstanceId idDisk datumDisk =>
    (start fl σ.settings grid dock corridorServerInstanceId σ.file idDisk datumDisk, true)

/-! ## What an operation leaves alone -/

variable (σ : MapServer F D)

/-- Only the grid is fitted. -/
theorem resizeMapToAreas_frame :
    resizeMapToAreas fl σ = { σ with grid := (resizeMapToAreas fl σ).grid } := by
  unfold resizeMapToAreas
  dsimp only
  split
  · rfl
  split
  · rfl
  split
  · split
    · rfl
    split
    · rfl
    · rfl
  · rfl

theorem addObstacles_frame (info : List MapObstacleInfo) (obstacles : List (Polygon F)) :
    ∃ n, (addObstacles σ info obstacles).2 = { σ with nextObstacleId := n } := by
  induction obstacles generalizing σ info with
  | nil => exact ⟨σ.nextObstacleId, rfl⟩
  | cons obstacle obstacles ih =>
    unfold addObstacles
    split
    · obtain ⟨n, hn⟩ := ih (makeObstacleEntry σ obstacle ((info.head?.map (·.name)).getD [])
        ((info.head?.map (·.source)).getD SOURCE_USER) false).2 info.tail
      exact ⟨n, hn⟩
    · exact ih σ info.tail

theorem loadObstacles_frame (kv : KeyValues) (pre : Str) (n j : Nat) (σ : MapServer F D)
    (entries : List (ObstacleEntry F)) :
    ∃ m, (loadObstacles fl kv pre n j σ entries).1 = { σ with nextObstacleId := m } := by
  induction n generalizing j σ entries with
  | zero => exact ⟨σ.nextObstacleId, rfl⟩
  | succ n ih =>
    unfold loadObstacles
    split
    · exact ⟨σ.nextObstacleId, rfl⟩
    · rename_i polygon name source _
      split
      · obtain ⟨m, hm⟩ := ih (j + 1) (makeObstacleEntry σ polygon name source false).2
          (entries ++ [(makeObstacleEntry σ polygon name source false).1])
        exact ⟨m, hm⟩
      · exact ih (j + 1) σ entries

theorem saveBestEffort_frame (disk : Disk) :
    ∃ file, saveBestEffort fl σ disk = { σ with file := file } := by
  unfold saveBestEffort saveAreasToFile
  split
  · exact ⟨_, rfl⟩
  · exact ⟨σ.file, rfl⟩

theorem persistAreasBestEffort_frame (disk : Disk) :
    ∃ file, persistAreasBestEffort fl σ disk = { σ with file := file } := by
  unfold persistAreasBestEffort
  split
  · exact ⟨σ.file, rfl⟩
  · exact saveBestEffort_frame fl σ disk

/-- A commit leaves the state alone or installs its candidate. -/
theorem commitCorridors_state (candidate : List (LidarIgnoreCorridorEntry F D)) (next : Nat)
    (result : ReplaceResponse F D) (persist : Bool) (disk : Disk) (publishes : Bool) :
    (commitCorridors fl σ candidate next result persist disk publishes).1 = σ ∨
      ∃ file, (commitCorridors fl σ candidate next result persist disk publishes).1 =
        install { σ with file := file } candidate next publishes := by
  unfold commitCorridors
  dsimp only
  split
  · exact Or.inl rfl
  · cases hconf : !σ.settings.areasFilePath.isEmpty with
    | false =>
      simp only [Bool.false_eq_true, if_false]
      split
      · exact Or.inl rfl
      · exact Or.inr ⟨σ.file, rfl⟩
    | true =>
      simp only [if_true]
      cases writeAreasCandidate fl σ false candidate next disk with
      | ok written =>
        dsimp only
        split
        · exact Or.inl rfl
        · exact Or.inr ⟨some written.1, rfl⟩
      | error what =>
        dsimp only
        split
        · exact Or.inl rfl
        · exact Or.inr ⟨σ.file, rfl⟩

/-- So does an edit, with what it staged. -/
theorem Edit.perform_state (disk : Disk) (publishes : Bool) (e : Edit F D) :
    (e.perform fl σ disk publishes).1 = σ ∨
      ∃ candidate next file, e.staged fl σ = some (candidate, next) ∧
        (e.perform fl σ disk publishes).1 =
          install { σ with file := file } candidate next publishes := by
  rcases e.perform_cases fl σ disk publishes with
    ⟨-, h, -⟩ | ⟨candidate, next, result, persist, hstaged, -, hcommit⟩
  · exact Or.inl h
  · rw [hcommit]
    rcases commitCorridors_state fl σ candidate next result persist disk publishes with h | ⟨file, h⟩
    · exact Or.inl h
    · exact Or.inr ⟨candidate, next, file, hstaged, h⟩

/-! ## What an operation does to the areas -/

/-- A change of one place that a view does not show. -/
theorem map_modify_same {α β : Type} {view : α → β} {f : α → α} (hf : ∀ a, view (f a) = view a)
    (as : List α) (i : Nat) : (as.modify i f).map view = as.map view := by
  induction as generalizing i with
  | nil => rw [List.modify_nil]
  | cons a as ih =>
    cases i with
    | zero => rw [List.modify_zero_cons, List.map_cons, List.map_cons, hf]
    | succ i => rw [List.modify_succ_cons, List.map_cons, List.map_cons, ih]

theorem map_modifyFirst_same {α β : Type} {p : α → Bool} {view : α → β} {f : α → α}
    (hf : ∀ a, view (f a) = view a) (as : List α) :
    (modifyFirst p f as).map view = as.map view := by
  induction as with
  | nil => rfl
  | cons a as ih =>
    unfold modifyFirst
    split
    · rw [List.map_cons, List.map_cons, hf]
    · rw [List.map_cons, List.map_cons, ih]

/-- A list changed in its first entry with a property. -/
theorem mem_modifyFirst_find {α : Type} {p : α → Bool} {f : α → α} {as : List α} {b : α}
    (h : b ∈ modifyFirst p f as) : b ∈ as ∨ ∃ a, as.find? p = some a ∧ b = f a := by
  induction as with
  | nil => cases h
  | cons a as ih =>
    rw [modifyFirst] at h
    cases hp : p a with
    | true =>
      rw [hp, if_pos rfl] at h
      rcases List.mem_cons.1 h with rfl | hmem
      · exact Or.inr ⟨a, List.find?_cons_of_pos hp, rfl⟩
      · exact Or.inl (List.mem_cons_of_mem a hmem)
    | false =>
      rw [hp, if_neg Bool.false_ne_true] at h
      rcases List.mem_cons.1 h with rfl | hmem
      · exact Or.inl List.mem_cons_self
      · rcases ih hmem with hmem | ⟨c, hfind, rfl⟩
        · exact Or.inl (List.mem_cons_of_mem a hmem)
        · refine Or.inr ⟨c, ?_, rfl⟩
          rw [List.find?_cons_of_neg (by rw [hp]; exact Bool.false_ne_true), hfind]

theorem mem_modifyFirst {α : Type} {p : α → Bool} {f : α → α} {as : List α} {b : α}
    (h : b ∈ modifyFirst p f as) : b ∈ as ∨ ∃ a ∈ as, b = f a :=
  (mem_modifyFirst_find h).imp_right fun ⟨a, hfind, hb⟩ => ⟨a, List.mem_of_find?_eq_some hfind, hb⟩

theorem mem_modify {α : Type} {f : α → α} {as : List α} {i : Nat} {b : α}
    (h : b ∈ as.modify i f) : b ∈ as ∨ ∃ a ∈ as, b = f a := by
  induction as generalizing i with
  | nil =>
    rw [List.modify_nil] at h
    cases h
  | cons a as ih =>
    cases i with
    | zero =>
      rw [List.modify_zero_cons] at h
      rcases List.mem_cons.1 h with rfl | h
      · exact Or.inr ⟨a, List.mem_cons_self, rfl⟩
      · exact Or.inl (List.mem_cons_of_mem a h)
    | succ i =>
      rw [List.modify_succ_cons] at h
      rcases List.mem_cons.1 h with rfl | h
      · exact Or.inl List.mem_cons_self
      · rcases ih h with hmem | ⟨c, hc, rfl⟩
        · exact Or.inl (List.mem_cons_of_mem a hmem)
        · exact Or.inr ⟨c, List.mem_cons_of_mem a hc, rfl⟩

def Op.isReport : Op F D → Bool
  | .digEvent _ => true
  | _ => false

/-- The list and its counter after an operation that loads nothing; only a dig report leaves
proposals. -/
inductive Change (op : Op F D) (σ : MapServer F D) : List (AreaEntry F D) → UInt32 → Prop
  | same : Change op σ σ.areas σ.nextAreaId
  | added (req : MapArea F D) (isNavigationArea : Bool) {disk : Disk}
      (hop : op = .addArea req isNavigationArea disk) (hpoints : 3 ≤ req.area.length) :
    Change op σ (storeArea fl σ req isNavigationArea).areas
      (storeArea fl σ req isNavigationArea).nextAreaId
  | cleared : Change op σ [] σ.nextAreaId
  | lines (id : UInt32) {r stored : AreaCoverageLines D}
      (hr : checkCoverageLines fl.double r = .ok stored) :
    Change op σ (modifyFirst (fun entry => entry.id == id && id != 0)
      (fun entry => { entry with coverageLines := stored }) σ.areas) σ.nextAreaId
  | promoted (i : Nat) {obs : ObstacleEntry F} (hpoints : 3 ≤ obs.polygon.length)
      (happlied : obs.pending = false) :
    Change op σ (σ.areas.modify i fun area => { area with obstacles := area.obstacles ++ [obs] })
      σ.nextAreaId
  | proposed (i : Nat) {obs : ObstacleEntry F} (hpoints : 3 ≤ obs.polygon.length)
      (hpending : obs.pending = true) (hreport : op.isReport = true) :
    Change op σ (σ.areas.modify i fun area => { area with obstacles := area.obstacles ++ [obs] })
      σ.nextAreaId
  | accepted (id : UInt32) (name : Str) (h : σ.areas.any (hasProposal id) = true) :
    Change op σ (modifyFirst (hasProposal id) (fun area =>
      { area with obstacles := modifyFirst (isProposal id) (accept name) area.obstacles }) σ.areas)
      σ.nextAreaId
  | discarded (id : UInt32) (h : σ.areas.any (hasProposal id) = true) :
    Change op σ (modifyFirst (hasProposal id) (fun area =>
      { area with obstacles := eraseFirst (isProposal id) area.obstacles }) σ.areas) σ.nextAreaId

theorem onAddArea_change (req : MapArea F D) (isNavigationArea : Bool) (disk : Disk) :
    Change fl (.addArea req isNavigationArea disk) σ
      (onAddArea fl σ req isNavigationArea disk).1.areas
      (onAddArea fl σ req isNavigationArea disk).1.nextAreaId := by
  unfold onAddArea
  split
  · exact .same
  · rename_i hpoints
    dsimp only
    rw [resizeMapToAreas_frame]
    obtain ⟨file, hfile⟩ := persistAreasBestEffort_frame fl
      { storeArea fl σ req isNavigationArea with
        grid := { (resizeMapToAreas fl (storeArea fl σ req isNavigationArea)).grid with
          classificationDirty := true } } disk
    rw [hfile]
    exact .added req isNavigationArea rfl (Nat.le_of_not_lt hpoints)

variable {op : Op F D}

theorem onSetAreaCoverageLines_change (id : UInt32) (lines : AreaCoverageLines D) (disk : Disk) :
    Change fl op σ (onSetAreaCoverageLines fl σ id lines disk).1.areas
      (onSetAreaCoverageLines fl σ id lines disk).1.nextAreaId := by
  unfold onSetAreaCoverageLines
  split
  · exact .same
  · rename_i stored hr
    dsimp only
    split
    · exact .same
    · split
      · exact .same
      split
      · exact .same
      split
      · exact .lines id hr
      · split
        · exact .lines id hr
        · exact .lines id hr

theorem applyPromotedObstacle_change {op : Op F D} (σ : MapServer F D) (areaIndex : Nat) (polygon : Polygon F)
    (name : Str) (source : UInt8) :
    Change fl op σ (applyPromotedObstacle fl σ areaIndex polygon name source).1.areas
      (applyPromotedObstacle fl σ areaIndex polygon name source).1.nextAreaId := by
  unfold applyPromotedObstacle
  split
  · exact .same
  · split
    · exact .same
    split
    · exact .same
    · rename_i hpoints
      dsimp only
      split
      · exact .same
      · exact @Change.promoted _ _ _ _ _ areaIndex (makeObstacleEntry σ polygon name source false).1
          (Nat.le_of_not_lt hpoints) rfl

theorem acceptPendingObstacle_change {op : Op F D} (σ : MapServer F D) (pendingId : UInt32) (name : Str) :
    Change fl op σ (acceptPendingObstacle fl σ pendingId name).1.areas
      (acceptPendingObstacle fl σ pendingId name).1.nextAreaId := by
  unfold acceptPendingObstacle
  split
  · exact .same
  · split
    · exact .same
    · rename_i obs hfind
      refine .accepted pendingId name ?_
      have hmem := List.mem_of_find?_eq_some hfind
      obtain ⟨area, harea, hobs⟩ := List.mem_flatMap.1 hmem
      refine List.any_eq_true.2 ⟨area, harea, ?_⟩
      exact List.any_eq_true.2 ⟨obs, hobs, List.find?_some hfind⟩

theorem onPromoteObstacle_change (req : PromoteRequest F) (disk : Disk) :
    Change fl op σ (onPromoteObstacle fl σ req disk).1.areas
      (onPromoteObstacle fl σ req disk).1.nextAreaId := by
  have hpersist : ∀ τ : MapServer F D, Change fl op σ τ.areas τ.nextAreaId →
      Change fl op σ (persistAreasBestEffort fl τ disk).areas
        (persistAreasBestEffort fl τ disk).nextAreaId := by
    intro τ h
    obtain ⟨file, hfile⟩ := persistAreasBestEffort_frame fl τ disk
    rw [hfile]
    exact h
  unfold onPromoteObstacle
  split
  · unfold promotePending
    split
    · exact .same
    · have h := @acceptPendingObstacle_change F D fl op σ req.pendingId req.name
      split
      · exact .same
      · rename_i τ i hτ
        rw [hτ] at h
        exact hpersist τ h
  · split
    · exact .same
    · rename_i polygon source _
      have h := @applyPromotedObstacle_change F D fl op σ req.areaIndex.toNat polygon req.name
        source
      split
      · exact .same
      · rename_i τ hτ
        rw [hτ] at h
        exact hpersist τ h

theorem discardPendingObstacle_change (pendingId : UInt32) :
    Change fl op σ (discardPendingObstacle σ pendingId).1.areas
      (discardPendingObstacle σ pendingId).1.nextAreaId := by
  unfold discardPendingObstacle
  split
  · exact .same
  · split
    · rename_i h
      exact .discarded pendingId h
    · exact .same

theorem addObstacleProposal_change (hop : op.isReport = true) (areaIndex : Nat)
    (polygon : Polygon F) (name : Str) (source : UInt8) :
    Change fl op σ (addObstacleProposal fl σ areaIndex polygon name source).1.areas
      (addObstacleProposal fl σ areaIndex polygon name source).1.nextAreaId := by
  unfold addObstacleProposal
  split
  · exact .same
  · split
    · exact .same
    · rename_i hno
      split
      · exact .same
      · rw [Bool.or_eq_true, not_or, decide_eq_true_eq] at hno
        exact @Change.proposed _ _ _ _ _ areaIndex (makeObstacleEntry σ polygon name source true).1
          (Nat.le_of_not_lt hno.2) rfl hop

theorem onDigEvent_change (msg : DigEvent D) :
    Change fl (.digEvent msg) σ (onDigEvent fl σ msg).areas (onDigEvent fl σ msg).nextAreaId := by
  unfold onDigEvent
  split
  · exact .same
  · dsimp only
    split
    · exact .same
    · exact addObstacleProposal_change fl σ rfl _ _ _ _

theorem onSaveAreas_change (disk : Disk) :
    Change fl op σ (onSaveAreas fl σ disk).1.areas (onSaveAreas fl σ disk).1.nextAreaId := by
  unfold onSaveAreas
  split
  · exact .same
  · split <;> exact .same

theorem onPublishTimer_change (publishes : Bool) :
    Change fl op σ (onPublishTimer fl σ publishes).areas (onPublishTimer fl σ publishes).nextAreaId := by
  unfold onPublishTimer ensureClassificationCurrent
  split <;> split <;> exact .same

/-- The operation takes the areas from the file. -/
def Op.reads : Op F D → Bool
  | .loadAreas .. => true
  | .restart .. => true
  | _ => false

theorem perform_change (hop : op.reads = false) :
    Change fl op σ (perform fl σ op).1.areas (perform fl σ op).1.nextAreaId := by
  cases op with
  | addArea req isNavigationArea disk => exact onAddArea_change fl σ req isNavigationArea disk
  | clearMap => exact .cleared
  | setAreaCoverageLines id lines disk => exact onSetAreaCoverageLines_change fl σ id lines disk
  | promoteObstacle req disk => exact onPromoteObstacle_change fl σ req disk
  | discardObstacle obstacleId => exact discardPendingObstacle_change fl σ obstacleId
  | corridors e disk publishes =>
    show Change fl _ σ (e.perform fl σ disk publishes).1.areas
      (e.perform fl σ disk publishes).1.nextAreaId
    rcases e.perform_state fl σ disk publishes with h | ⟨candidate, next, file, -, h⟩
    · rw [h]
      exact .same
    · rw [h]
      exact .same
  | saveAreas disk => exact onSaveAreas_change fl σ disk
  | loadAreas idDisk datumDisk => cases hop
  | digEvent msg => exact onDigEvent_change fl σ msg
  | trackerSnapshot obstacles => exact .same
  | robotPose pose => exact .same
  | publishTimer publishes => exact onPublishTimer_change fl σ publishes
  | restart grid dock corridorServerInstanceId idDisk datumDisk => cases hop

end Runs

end Map
end Mowgli
