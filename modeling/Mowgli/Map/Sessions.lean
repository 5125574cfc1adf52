import Mowgli.Map.Identity

/-!
# Sessions — what stays true of a map from start to stop

A session is everything between two loads. What a map holds then would pass every check again
that a load makes: ids are below the counter, coverage lines are folded, corridors are within
their widths.
-/

namespace Mowgli

/-- What folding an angle relies on: `fmod` and small whole numbers are exact. -/
structure Arith.Folds {A : Type} (a : Arith A) : Prop where
  lit_lt : ∀ m n : ℤ, -1000 ≤ m → m < n → n ≤ 1000 → a.lt (a.lit m) (a.lit n) = true
  fmod_finite : ∀ x y, a.isFinite x = true → a.lt (a.lit 0) y = true →
    a.isFinite (a.fmod x y) = true
  fmod_nonneg : ∀ x y, a.lt x (a.lit 0) = false → a.lt (a.lit 0) y = true →
    a.lt (a.fmod x y) (a.lit 0) = false
  fmod_of_lt : ∀ x y, a.lt x (a.lit 0) = false → a.lt x y = true → a.fmod x y = x

namespace Map

section Lines

variable {D : Type} {d : Arith D}

/-- An angle that is folded: not negative, and short of half a turn. -/
structure Folded (d : Arith D) (deg : D) : Prop where
  finite : d.isFinite deg = true
  nonneg : d.lt deg (d.lit 0) = false
  small : d.lt deg (d.lit 180) = true

theorem lt_zero_zero (hl : d.Lawful) : d.lt (d.lit 0) (d.lit 0) = false :=
  hl.not_lt_of_le _ _ (hl.lit_le 0 0 (le_refl 0))

theorem lt_zero_180 (hf : d.Folds) : d.lt (d.lit 0) (d.lit 180) = true := by
  have h := hf.lit_lt 0 180 (by decide) (by decide) (by decide)
  simpa using h

theorem foldMowAngleDeg_folded (hl : d.Lawful) (hf : d.Folds) {deg : D}
    (hfinite : d.isFinite deg = true) (hnonneg : d.lt deg (d.lit 0) = false) :
    Folded d (foldMowAngleDeg d deg) := by
  have hzero := lt_zero_180 hf
  have hfin := hf.fmod_finite deg (d.lit 180) hfinite hzero
  have hsign := hf.fmod_nonneg deg (d.lit 180) hnonneg hzero
  unfold foldMowAngleDeg
  dsimp only
  rw [hsign, if_neg Bool.false_ne_true]
  cases hle : d.le (d.lit 180) (d.fmod deg (d.lit 180)) with
  | true =>
    rw [if_pos rfl]
    exact ⟨hl.lit_finite 0 (by norm_num) (by norm_num), lt_zero_zero hl, hzero⟩
  | false =>
    rw [if_neg Bool.false_ne_true]
    refine ⟨hfin, hsign, ?_⟩
    cases hlt : d.lt (d.fmod deg (d.lit 180)) (d.lit 180) with
    | true => rfl
    | false =>
      have h180 := hl.lit_finite 180 (by norm_num) (by norm_num)
      rw [hl.le_of_not_lt _ _ hfin h180 hlt] at hle
      cases hle

theorem foldMowAngleDeg_of_folded (hl : d.Lawful) (hf : d.Folds) {deg : D} (h : Folded d deg) :
    foldMowAngleDeg d deg = deg := by
  have hmod := hf.fmod_of_lt deg (d.lit 180) h.nonneg h.small
  have hle : d.le (d.lit 180) deg = false := by
    cases hle : d.le (d.lit 180) deg with
    | false => rfl
    | true =>
      have := h.small
      rw [hl.not_lt_of_le _ _ hle] at this
      cases this
  unfold foldMowAngleDeg
  dsimp only
  rw [hmod, h.nonneg, if_neg Bool.false_ne_true, hle, if_neg Bool.false_ne_true]

/-- A stored angle is finite, and stored as it is. -/
theorem mowAngle_again (hl : d.Lawful) (hf : d.Folds) {deg : D} (hfinite : d.isFinite deg = true) :
    let stored := if d.lt deg (d.lit 0) then kMowAngleAutoDeg d else foldMowAngleDeg d deg
    d.isFinite stored = true ∧
      (if d.lt stored (d.lit 0) then kMowAngleAutoDeg d else foldMowAngleDeg d stored) = stored := by
  cases hneg : d.lt deg (d.lit 0) with
  | true =>
    have hauto := hf.lit_lt (-1) 0 (by decide) (by decide) (by decide)
    have hauto : d.lt (kMowAngleAutoDeg d) (d.lit 0) = true := by
      unfold kMowAngleAutoDeg
      simpa using hauto
    intro stored
    show d.isFinite (kMowAngleAutoDeg d) = true ∧ (if d.lt (kMowAngleAutoDeg d) (d.lit 0) then
      kMowAngleAutoDeg d else _) = kMowAngleAutoDeg d
    exact ⟨hl.lit_finite (-1) (by norm_num) (by norm_num), if_pos hauto⟩
  | false =>
    have hfolded := foldMowAngleDeg_folded hl hf hfinite hneg
    intro stored
    show d.isFinite (foldMowAngleDeg d deg) = true ∧
      (if d.lt (foldMowAngleDeg d deg) (d.lit 0) then _ else
        foldMowAngleDeg d (foldMowAngleDeg d deg)) = foldMowAngleDeg d deg
    rw [hfolded.nonneg, if_neg Bool.false_ne_true]
    exact ⟨hfolded.finite, foldMowAngleDeg_of_folded hl hf hfolded⟩

/-- Lines that were checked pass the check again, and as they are. -/
theorem checkCoverageLines_again (hl : d.Lawful) (hf : d.Folds) {r lines : AreaCoverageLines D}
    (h : checkCoverageLines d r = .ok lines) : checkCoverageLines d lines = .ok lines := by
  unfold checkCoverageLines at h
  split at h
  · cases h
  rename_i hangle
  split at h
  · cases h
  rename_i hring
  split at h
  · cases h
  rename_i hstart
  cases h
  unfold checkCoverageLines
  dsimp only
  have hring' : ¬(r.hasRingDirection && decide (kMaxRingDirection <
      if r.hasRingDirection then r.ringDirection else 0)) = true := by
    cases hr : r.hasRingDirection with
    | true =>
      rw [hr] at hring
      simpa using hring
    | false => exact Bool.false_ne_true
  have hstart' : ¬(r.hasStartPoint && !(d.isFinite (if r.hasStartPoint then r.startX else d.lit 0) &&
      d.isFinite (if r.hasStartPoint then r.startY else d.lit 0))) = true := by
    cases hs : r.hasStartPoint with
    | true =>
      rw [hs] at hstart
      simpa using hstart
    | false => exact Bool.false_ne_true
  cases ha : r.hasMowAngle with
  | true =>
    have hfinite : d.isFinite r.mowAngleDeg = true := by
      rw [ha] at hangle
      simpa using hangle
    obtain ⟨hagain, heq⟩ := mowAngle_again hl hf hfinite
    rw [if_neg hring', if_neg hstart']
    simp only [if_true, hagain, heq]
    cases r.hasRingDirection <;> cases r.hasStartPoint <;> rfl
  | false =>
    rw [if_neg hring', if_neg hstart']
    cases r.hasRingDirection <;> cases r.hasStartPoint <;> rfl

/-- So do they without their start point. -/
theorem checkCoverageLines_unstarted {r lines : AreaCoverageLines D}
    (h : checkCoverageLines d r = .ok lines) :
    checkCoverageLines d { r with hasStartPoint := false } =
      .ok { lines with hasStartPoint := false, startX := d.lit 0, startY := d.lit 0 } := by
  unfold checkCoverageLines at h ⊢
  split at h
  · cases h
  rename_i hangle
  split at h
  · cases h
  rename_i hring
  split at h
  · cases h
  cases h
  dsimp only
  rw [if_neg hangle, if_neg hring]
  rfl

end Lines

section Sessions

variable {F D : Type} (fl : Floats F D)

/-! ## Coverage lines -/

/-- The lines of an area are what a check of them stores. -/
def AreaEntry.Checked (area : AreaEntry F D) : Prop :=
  storedLines fl area.polygon area.coverageLines = area.coverageLines

theorem storedLines_of_ok {polygon : Polygon F} {lines : AreaCoverageLines D}
    (hok : checkCoverageLines fl.double lines = .ok lines)
    (hnear : ¬(lines.hasStartPoint && !startPointNearPolygon fl (polygonPairs fl polygon)
      lines.startX lines.startY) = true) : storedLines fl polygon lines = lines := by
  unfold storedLines
  rw [hok]
  exact if_neg hnear

theorem storedLines_again (hl : fl.double.Lawful) (hf : fl.double.Folds) (polygon : Polygon F)
    (r : AreaCoverageLines D) :
    storedLines fl polygon (storedLines fl polygon r) = storedLines fl polygon r := by
  generalize hlines : storedLines fl polygon r = lines
  unfold storedLines at hlines
  cases hcheck : checkCoverageLines fl.double r with
  | error message =>
    rw [hcheck] at hlines
    subst hlines
    exact storedLines_of_ok fl rfl Bool.false_ne_true
  | ok checked =>
    rw [hcheck] at hlines
    dsimp only at hlines
    split at hlines
    · subst hlines
      exact storedLines_of_ok fl
        (checkCoverageLines_again hl hf (checkCoverageLines_unstarted hcheck)) Bool.false_ne_true
    · rename_i hnear
      subst hlines
      exact storedLines_of_ok fl (checkCoverageLines_again hl hf hcheck) hnear

variable {σ : MapServer F D}

theorem onSetAreaCoverageLines_checked (hl : fl.double.Lawful) (hf : fl.double.Folds)
    (h : ∀ area ∈ σ.areas, area.Checked fl) (id : UInt32) (lines : AreaCoverageLines D)
    (disk : Disk) :
    ∀ area ∈ (onSetAreaCoverageLines fl σ id lines disk).1.areas, area.Checked fl := by
  unfold onSetAreaCoverageLines
  split
  · exact h
  rename_i stored hcheck
  dsimp only
  split
  · exact h
  rename_i entry hfind
  split
  · exact h
  split
  · exact h
  rename_i hnear
  have hset : ∀ area ∈ modifyFirst (fun entry => entry.id == id && id != 0)
      (fun entry => { entry with coverageLines := stored }) σ.areas, area.Checked fl := by
    intro area harea
    rcases mem_modifyFirst_find harea with hmem | ⟨a, ha, rfl⟩
    · exact h area hmem
    · rw [hfind] at ha
      cases ha
      exact storedLines_of_ok fl (checkCoverageLines_again hl hf hcheck) hnear
  split
  · exact hset
  · split
    · exact hset
    · exact hset

/-! ## The outlines -/

/-- What the lines of an area are checked against. -/
def AreaEntry.outline (area : AreaEntry F D) : Polygon F × AreaCoverageLines D :=
  (area.polygon, area.coverageLines)

theorem checked_of_outlines {before after : List (AreaEntry F D)}
    (h : ∀ area ∈ before, area.Checked fl)
    (houtlines : after.map (·.outline) = before.map (·.outline)) :
    ∀ area ∈ after, area.Checked fl := by
  intro area harea
  have hmem : area.outline ∈ before.map (·.outline) := by
    rw [← houtlines]
    exact List.mem_map_of_mem harea
  obtain ⟨old, hold, heq⟩ := List.mem_map.1 hmem
  obtain ⟨hpolygon, hlines⟩ := Prod.mk.inj heq
  have hchecked := h old hold
  unfold AreaEntry.Checked at hchecked ⊢
  rw [← hpolygon, ← hlines]
  exact hchecked

theorem applyPromotedObstacle_outlines (σ : MapServer F D) (areaIndex : Nat) (polygon : Polygon F)
    (name : Str) (source : UInt8) :
    (applyPromotedObstacle fl σ areaIndex polygon name source).1.areas.map (·.outline) =
      σ.areas.map (·.outline) := by
  unfold applyPromotedObstacle
  split
  · rfl
  split
  · rfl
  split
  · rfl
  dsimp only
  split
  · rfl
  · refine map_modify_same ?_ σ.areas areaIndex
    intro area
    rfl

theorem acceptPendingObstacle_outlines (σ : MapServer F D) (pendingId : UInt32) (name : Str) :
    (acceptPendingObstacle fl σ pendingId name).1.areas.map (·.outline) =
      σ.areas.map (·.outline) := by
  unfold acceptPendingObstacle
  split
  · rfl
  split
  · rfl
  · refine map_modifyFirst_same ?_ σ.areas
    intro area
    rfl

theorem onPromoteObstacle_outlines (σ : MapServer F D) (req : PromoteRequest F) (disk : Disk) :
    (onPromoteObstacle fl σ req disk).1.areas.map (·.outline) = σ.areas.map (·.outline) := by
  have hpersist : ∀ τ : MapServer F D,
      (persistAreasBestEffort fl τ disk).areas.map (·.outline) = τ.areas.map (·.outline) := by
    intro τ
    obtain ⟨file, hfile⟩ := persistAreasBestEffort_frame fl τ disk
    rw [hfile]
  unfold onPromoteObstacle
  split
  · unfold promotePending
    split
    · rfl
    · have h := acceptPendingObstacle_outlines fl σ req.pendingId req.name
      split
      · rfl
      · rename_i τ i hτ
        rw [hτ] at h
        exact (hpersist τ).trans h
  · split
    · rfl
    · rename_i polygon source _
      have h := applyPromotedObstacle_outlines fl σ req.areaIndex.toNat polygon req.name source
      split
      · rfl
      · rename_i τ hτ
        rw [hτ] at h
        exact (hpersist τ).trans h

theorem discardPendingObstacle_outlines (σ : MapServer F D) (pendingId : UInt32) :
    (discardPendingObstacle σ pendingId).1.areas.map (·.outline) = σ.areas.map (·.outline) := by
  unfold discardPendingObstacle
  split
  · rfl
  split
  · refine map_modifyFirst_same ?_ σ.areas
    intro area
    rfl
  · rfl

theorem onDigEvent_outlines (σ : MapServer F D) (msg : DigEvent D) :
    (onDigEvent fl σ msg).areas.map (·.outline) = σ.areas.map (·.outline) := by
  unfold onDigEvent
  split
  · rfl
  dsimp only
  split
  · rfl
  unfold addObstacleProposal
  split
  · rfl
  split
  · rfl
  split
  · rfl
  · refine map_modify_same ?_ σ.areas _
    intro area
    rfl

theorem onAddArea_checked (hl : fl.double.Lawful) (hf : fl.double.Folds)
    (h : ∀ area ∈ σ.areas, area.Checked fl) (req : MapArea F D) (isNavigationArea : Bool)
    (disk : Disk) :
    ∀ area ∈ (onAddArea fl σ req isNavigationArea disk).1.areas, area.Checked fl := by
  unfold onAddArea
  split
  · exact h
  dsimp only
  rw [resizeMapToAreas_frame]
  obtain ⟨file, hfile⟩ := persistAreasBestEffort_frame fl
    { storeArea fl σ req isNavigationArea with
      grid := { (resizeMapToAreas fl (storeArea fl σ req isNavigationArea)).grid with
        classificationDirty := true } } disk
  rw [hfile]
  show ∀ area ∈ (storeArea fl σ req isNavigationArea).areas, area.Checked fl
  obtain ⟨n, hn⟩ := addObstacles_frame
    { σ with nextAreaId := (assignAreaId σ.areas σ.nextAreaId req.id).2 } req.obstacleInfo
    req.obstacles
  unfold storeArea
  dsimp only
  rw [hn]
  intro area harea
  rcases List.mem_append.1 harea with harea | harea
  · exact h area harea
  · rw [List.mem_singleton.1 harea]
    exact storedLines_again fl hl hf req.area req.lines

theorem perform_checked (hl : fl.double.Lawful) (hf : fl.double.Folds)
    (h : ∀ area ∈ σ.areas, area.Checked fl) {op : Op F D} (hreads : op.reads = false) :
    ∀ area ∈ (perform fl σ op).1.areas, area.Checked fl := by
  cases op with
  | addArea req isNavigationArea disk =>
    exact onAddArea_checked fl hl hf h req isNavigationArea disk
  | clearMap => exact fun area harea => absurd harea List.not_mem_nil
  | setAreaCoverageLines id lines disk =>
    exact onSetAreaCoverageLines_checked fl hl hf h id lines disk
  | promoteObstacle req disk =>
    exact checked_of_outlines fl h (onPromoteObstacle_outlines fl σ req disk)
  | discardObstacle obstacleId =>
    exact checked_of_outlines fl h (discardPendingObstacle_outlines σ obstacleId)
  | corridors e disk publishes =>
    show ∀ area ∈ (e.perform fl σ disk publishes).1.areas, area.Checked fl
    rcases e.perform_state fl σ disk publishes with heq | ⟨candidate, next, file, -, heq⟩
    · rw [heq]
      exact h
    · rw [heq]
      exact h
  | saveAreas disk =>
    show ∀ area ∈ (onSaveAreas fl σ disk).1.areas, area.Checked fl
    unfold onSaveAreas
    split
    · exact h
    · split
      · exact h
      · exact h
  | loadAreas idDisk datumDisk => cases hreads
  | digEvent msg => exact checked_of_outlines fl h (onDigEvent_outlines fl σ msg)
  | trackerSnapshot obstacles => exact h
  | robotPose pose => exact h
  | publishTimer publishes =>
    show ∀ area ∈ (onPublishTimer fl σ publishes).areas, area.Checked fl
    unfold onPublishTimer ensureClassificationCurrent
    split <;> split <;> exact h
  | restart grid dock corridorServerInstanceId idDisk datumDisk => cases hreads

/-! ## A session -/

/-- Everything from an empty map on that loads nothing, with room for every id. -/
inductive Session : MapServer F D → Prop
  | boot (settings : Settings D) (grid : GridMap D) (dock : Option (DockGeometry F))
      (corridorServerInstanceId : Str) (file : Option Str) :
    Session (MapServer.boot settings grid dock corridorServerInstanceId file)
  | step {σ : MapServer F D} (h : Session σ) (op : Op F D) (hreads : op.reads = false)
      (hfits : Fits fl σ op) : Session (perform fl σ op).1

/-- The invariant of a session. -/
structure Stored (σ : MapServer F D) : Prop where
  identified : ∃ carried, Identified fl σ carried
  checked : ∀ area ∈ σ.areas, area.Checked fl
  corridors : Sound fl σ.lidarIgnoreCorridors σ.nextLidarCorridorId

theorem perform_sound (hl : fl.double.Lawful)
    (h : Sound fl σ.lidarIgnoreCorridors σ.nextLidarCorridorId) {op : Op F D}
    (hreads : op.reads = false) :
    Sound fl (perform fl σ op).1.lidarIgnoreCorridors (perform fl σ op).1.nextLidarCorridorId := by
  cases hedits : op.edits with
  | false =>
    obtain ⟨hlist, hnext⟩ := perform_corridors fl σ hreads hedits
    rw [hlist, hnext]
    exact h
  | true =>
    cases op with
    | corridors e disk publishes =>
      show Sound fl (e.perform fl σ disk publishes).1.lidarIgnoreCorridors
        (e.perform fl σ disk publishes).1.nextLidarCorridorId
      rcases e.perform_state fl σ disk publishes with heq | ⟨candidate, next, file, hstaged, heq⟩
      · rw [heq]
        exact h
      · rw [heq]
        exact (e.staged_staged fl hl h hstaged).sound
    | _ => cases hedits

theorem Session.stored (hp : fl.Prints) (hl : fl.double.Lawful) (hf : fl.double.Folds)
    (h : Session fl σ) : Stored fl σ := by
  induction h with
  | boot settings grid dock corridorServerInstanceId file =>
    exact ⟨⟨[], Identified.boot fl settings grid dock corridorServerInstanceId file⟩,
      fun area harea => absurd harea List.not_mem_nil, Sound.boot fl⟩
  | step h op hreads hfits ih =>
    obtain ⟨carried, hidentified⟩ := ih.identified
    refine ⟨⟨_, hidentified.perform fl hp ?_ hfits⟩, perform_checked fl hl hf ih.checked hreads,
      perform_sound fl hl ih.corridors hreads⟩
    cases op with
    | loadAreas idDisk datumDisk => cases hreads
    | restart grid dock corridorServerInstanceId idDisk datumDisk => cases hreads
    | _ => trivial

end Sessions

end Map
end Mowgli
