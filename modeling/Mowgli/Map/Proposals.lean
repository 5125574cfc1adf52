import Mowgli.Map.Settled

/-!
# Proposals — a dig report changes nothing until it is accepted

The run of a map with dig reports beside the same run without them, and what accepting one of
their proposals does.
-/

namespace Mowgli
namespace Map

section Proposals

variable {F D : Type} (fl : Floats F D)

/-! ## A list without proposals -/

def NoProposals (areas : List (AreaEntry F D)) : Prop :=
  ∀ area ∈ areas, ∀ obs ∈ area.obstacles, obs.pending = false

section NoProposals

variable {areas : List (AreaEntry F D)}

theorem NoProposals.push (h : NoProposals areas) {area : AreaEntry F D}
    (ha : ∀ obs ∈ area.obstacles, obs.pending = false) : NoProposals (areas ++ [area]) := by
  intro a hmem
  rcases List.mem_append.1 hmem with hmem | hmem
  · exact h a hmem
  · rw [List.mem_singleton] at hmem
    subst hmem
    exact ha

theorem NoProposals.hasProposal (h : NoProposals areas) (id : UInt32) :
    areas.any (hasProposal id) = false := by
  refine List.any_eq_false.2 ?_
  intro area harea hany
  obtain ⟨obs, hobs, hid⟩ := List.any_eq_true.1 hany
  unfold isProposal at hid
  rw [h area harea obs hobs, Bool.and_false] at hid
  cases hid

theorem NoProposals.find (h : NoProposals areas) (id : UInt32) :
    (areas.flatMap (·.obstacles)).find? (isProposal id) = none := by
  refine List.find?_eq_none.2 ?_
  intro obs hobs
  obtain ⟨area, harea, hmem⟩ := List.mem_flatMap.1 hobs
  unfold isProposal
  rw [h area harea obs hmem, Bool.and_false]
  exact Bool.false_ne_true

/-- A change of single areas that leaves no proposal in them. -/
theorem NoProposals.of_forall₂ {areas' : List (AreaEntry F D)} (h : NoProposals areas)
    (hall : ∀ a' ∈ areas', ∃ a ∈ areas, ∀ obs ∈ a'.obstacles, obs ∈ a.obstacles ∨
      obs.pending = false) : NoProposals areas' := by
  intro a' ha' obs hobs
  obtain ⟨a, ha, hsub⟩ := hall a' ha'
  rcases hsub obs hobs with hmem | hpending
  · exact h a ha obs hmem
  · exact hpending

end NoProposals

theorem addObstacles_applied (σ : MapServer F D) (info : List MapObstacleInfo)
    (obstacles : List (Polygon F)) :
    ∀ obs ∈ (addObstacles σ info obstacles).1, obs.pending = false := by
  induction obstacles generalizing σ info with
  | nil =>
    intro obs hobs
    cases hobs
  | cons obstacle obstacles ih =>
    unfold addObstacles
    split
    · intro obs hobs
      rcases List.mem_cons.1 hobs with rfl | hobs
      · rfl
      · exact ih _ info.tail obs hobs
    · exact ih σ info.tail

variable {σ : MapServer F D} {areas after : List (AreaEntry F D)} {req : PromoteRequest F}
  {axes : CellAxes D} {post pre : List (ObstacleEntry F)} {obs : ObstacleEntry F}
  {op : Op F D} {cls : Layer} {r c : Nat}

theorem Change.noProposals (hop : op.isReport = false) {next : UInt32}
    (hc : Change fl op σ areas next) (h : NoProposals σ.areas) : NoProposals areas := by
  cases hc with
  | same => exact h
  | added req isNavigationArea hadd hpoints =>
    obtain ⟨n, hn⟩ := addObstacles_frame
      { σ with nextAreaId := (assignAreaId σ.areas σ.nextAreaId req.id).2 } req.obstacleInfo
      req.obstacles
    unfold storeArea
    dsimp only
    rw [hn]
    exact h.push (addObstacles_applied _ req.obstacleInfo req.obstacles)
  | cleared =>
    intro area ha
    cases ha
  | lines id hr =>
    refine h.of_forall₂ ?_
    intro a' ha'
    rcases mem_modifyFirst ha' with hmem | ⟨a, ha, rfl⟩
    · exact ⟨a', hmem, fun obs hobs => Or.inl hobs⟩
    · exact ⟨a, ha, fun obs hobs => Or.inl hobs⟩
  | promoted i hpoints happlied =>
    refine h.of_forall₂ ?_
    intro a' ha'
    rcases mem_modify ha' with hmem | ⟨a, ha, rfl⟩
    · exact ⟨a', hmem, fun obs hobs => Or.inl hobs⟩
    · refine ⟨a, ha, ?_⟩
      intro obs hobs
      rcases List.mem_append.1 hobs with hobs | hobs
      · exact Or.inl hobs
      · rw [List.mem_singleton.1 hobs]
        exact Or.inr happlied
  | proposed i hpoints hpending hreport =>
    rw [hop] at hreport
    cases hreport
  | accepted id name hany =>
    rw [h.hasProposal id] at hany
    cases hany
  | discarded id hany =>
    rw [h.hasProposal id] at hany
    cases hany

/-! ### What a load leaves -/

theorem loadObstacles_applied (kv : KeyValues) (pre : Str) (n j : Nat) (σ : MapServer F D)
    {entries : List (ObstacleEntry F)} (h : ∀ obs ∈ entries, obs.pending = false)
    {obstacles : List (ObstacleEntry F)}
    (hload : (loadObstacles fl kv pre n j σ entries).2 = some obstacles) :
    ∀ obs ∈ obstacles, obs.pending = false := by
  induction n generalizing j σ entries with
  | zero =>
    cases hload
    exact h
  | succ n ih =>
    unfold loadObstacles at hload
    split at hload
    · cases hload
    · split at hload
      · refine ih (j + 1) _ ?_ hload
        intro obs hobs
        rcases List.mem_append.1 hobs with hobs | hobs
        · exact h obs hobs
        · rw [List.mem_singleton.1 hobs]
          rfl
      · exact ih (j + 1) σ h hload

theorem loadAreas_noProposals (kv : KeyValues) (n i : Nat) (h : NoProposals σ.areas) :
    NoProposals (loadAreas fl kv n i σ).1.areas := by
  induction n generalizing i σ with
  | zero => exact h
  | succ n ih =>
    unfold loadAreas
    split
    · exact h
    · rename_i entry count _
      obtain ⟨m, hm⟩ := loadObstacles_frame fl kv (indexed "area_" i "") count 0 σ []
      split
      · rename_i τ hτ
        rw [hτ] at hm
        rw [hm]
        exact h
      · rename_i τ obstacles hτ
        have happlied := loadObstacles_applied fl kv (indexed "area_" i "") count 0 σ
          (fun obs hobs => absurd hobs List.not_mem_nil) (by rw [hτ])
        rw [hτ] at hm
        dsimp only at hm
        have hstate : NoProposals τ.areas := by
          rw [hm]
          exact h
        split
        · exact ih (i + 1) (hstate.push happlied)
        · exact ih (i + 1) hstate

theorem mintAreaIds_obstacles (next : UInt32) (areas : List (AreaEntry F D)) :
    (mintAreaIds next areas).1.map (·.obstacles) = areas.map (·.obstacles) := by
  induction areas generalizing next with
  | nil => rfl
  | cons area areas ih =>
    unfold mintAreaIds
    split
    · exact congrArg (List.cons area.obstacles) (ih (next + 1))
    · exact congrArg (List.cons area.obstacles) (ih next)

theorem NoProposals.of_obstacles {areas' : List (AreaEntry F D)} (h : NoProposals areas)
    (heq : areas'.map (·.obstacles) = areas.map (·.obstacles)) : NoProposals areas' := by
  intro area harea
  have hmem : area.obstacles ∈ areas.map (·.obstacles) := by
    rw [← heq]
    exact List.mem_map_of_mem harea
  obtain ⟨a, ha, hobs⟩ := List.mem_map.1 hmem
  rw [← hobs]
  exact h a ha

theorem NoProposals.reproject (h : NoProposals σ.areas) (here there : D × D) :
    NoProposals (reproject fl here there σ).areas := by
  intro area harea
  obtain ⟨a, ha, rfl⟩ := List.mem_map.1 harea
  intro obs hobs
  obtain ⟨o, ho, rfl⟩ := List.mem_map.1 hobs
  exact h a ha o ho

theorem migrateAreaIds_noProposals (kv : KeyValues) {τ : MapServer F D} (disk : Disk)
    (h : NoProposals σ.areas) (hτ : migrateAreaIds fl kv σ disk = some τ) :
    NoProposals τ.areas := by
  unfold migrateAreaIds at hτ
  obtain ⟨next, -, rfl⟩ := Option.map_eq_some_iff.1 hτ
  dsimp only
  split
  · obtain ⟨file, hfile⟩ := saveBestEffort_frame fl
      { σ with
        areas := (mintAreaIds (if UInt32.ofInt next < maxAreaId σ.areas + 1 then
          maxAreaId σ.areas + 1 else UInt32.ofInt next) σ.areas).1
        nextAreaId := (mintAreaIds (if UInt32.ofInt next < maxAreaId σ.areas + 1 then
          maxAreaId σ.areas + 1 else UInt32.ofInt next) σ.areas).2 } disk
    rw [hfile]
    exact h.of_obstacles (mintAreaIds_obstacles _ σ.areas)
  · exact h

theorem migrateAreasDatum_noProposals (stamp : Option (D × D)) (disk : Disk)
    (h : NoProposals σ.areas) : NoProposals (migrateAreasDatum fl stamp σ disk).areas := by
  have hsave : ∀ τ : MapServer F D, NoProposals τ.areas →
      NoProposals (saveBestEffort fl τ disk).areas := by
    intro τ hτ
    obtain ⟨file, hfile⟩ := saveBestEffort_frame fl τ disk
    rw [hfile]
    exact hτ
  unfold migrateAreasDatum
  dsimp only
  split
  · exact h
  · split
    · exact hsave σ h
    · split
      · exact hsave σ h
      split
      · exact h
      · exact hsave _ (h.reproject fl _ _)

theorem loadAreasFromFile_noProposals (h : NoProposals σ.areas) (idDisk datumDisk : Disk) :
    NoProposals (loadAreasFromFile fl σ idDisk datumDisk).1.areas := by
  have hnil : NoProposals ([] : List (AreaEntry F D)) := fun area ha => absurd ha List.not_mem_nil
  unfold loadAreasFromFile
  split
  · exact h
  · rename_i file _
    unfold loadKeyValues
    split
    · exact h
    · dsimp only
      split
      · exact hnil
      · rename_i count _
        have hareas := loadAreas_noProposals fl (keyValues file) count.toNat 0
          (σ := { σ with areas := [], obstaclePolygons := [] }) hnil
        split
        · rename_i τ hτ
          rw [hτ] at hareas
          exact hareas
        · rename_i τ hτ
          rw [hτ] at hareas
          dsimp only at hareas
          unfold finishLoad
          split
          · exact hareas
          · rename_i ρ hρ
            have hmigrated := migrateAreaIds_noProposals fl (keyValues file) idDisk
              (by exact hareas) hρ
            split
            · exact hmigrated
            · show NoProposals (resizeMapToAreas fl _).areas
              rw [resizeMapToAreas_frame]
              exact migrateAreasDatum_noProposals fl _ datumDisk hmigrated

/-! ## The run without the reports -/

/-- What the reports leave behind is invisible. -/
structure Shadow (quiet noisy : MapServer F D) : Prop where
  settled : quiet.settled = noisy.settled
  noProposals : NoProposals quiet.areas

theorem perform_noProposals (hop : op.isReport = false) (h : NoProposals σ.areas) :
    NoProposals (perform fl σ op).1.areas := by
  have hnil : NoProposals ([] : List (AreaEntry F D)) := fun area ha => absurd ha List.not_mem_nil
  cases hreads : op.reads with
  | false =>
    exact (perform_change fl σ hreads).noProposals fl hop h
  | true =>
    cases op with
    | loadAreas idDisk datumDisk =>
      have hload := loadAreasFromFile_noProposals fl h idDisk datumDisk
      show NoProposals (onLoadAreas fl σ idDisk datumDisk).1.areas
      unfold onLoadAreas
      split
      · exact h
      · split
        · rename_i τ hτ
          rw [hτ] at hload
          exact hload
        · rename_i τ hτ
          rw [hτ] at hload
          exact hload
    | restart grid dock corridorServerInstanceId idDisk datumDisk =>
      show NoProposals (resizeMapToAreas fl _).areas
      rw [resizeMapToAreas_frame]
      dsimp only
      split
      · exact hnil
      · exact loadAreasFromFile_noProposals fl hnil idDisk datumDisk
    | _ => cases hreads

theorem MapServer.settled_areas (σ : MapServer F D)
    (h : areas.map (·.settled) = σ.areas.map (·.settled)) (n : UInt32) :
    { σ with areas := areas, nextObstacleId := n }.settled = σ.settled :=
  congrArg (fun areas => ({ σ with areas := areas, nextObstacleId := 0 } : MapServer F D)) h

/-- A dig report leaves nothing but a proposal. -/
theorem onDigEvent_settled (σ : MapServer F D) (msg : DigEvent D) :
    (onDigEvent fl σ msg).settled = σ.settled := by
  unfold onDigEvent
  split
  · rfl
  · dsimp only
    split
    · rfl
    · unfold addObstacleProposal
      split
      · rfl
      · split
        · rfl
        split
        · rfl
        · refine MapServer.settled_areas σ ?_ _
          refine map_modify_same ?_ σ.areas _
          intro area
          refine AreaEntry.settled_of rfl ?_
          rw [applied_append]
          show (applied area.obstacles ++ []).map _ = _
          rw [List.append_nil]

theorem applied_eraseFirst (id : UInt32) (obstacles : List (ObstacleEntry F)) :
    applied (eraseFirst (isProposal id) obstacles) = applied obstacles := by
  unfold applied
  induction obstacles with
  | nil => rfl
  | cons obs obstacles ih =>
    unfold eraseFirst
    split
    · rename_i hid
      unfold isProposal at hid
      rw [Bool.and_eq_true] at hid
      rw [List.filter_cons_of_neg]
      rw [hid.2]
      exact Bool.false_ne_true
    · rw [List.filter_cons, List.filter_cons, ih]

theorem discardPendingObstacle_settled (σ : MapServer F D) (pendingId : UInt32) :
    (discardPendingObstacle σ pendingId).1.settled = σ.settled := by
  unfold discardPendingObstacle
  split
  · rfl
  · split
    · refine MapServer.settled_areas σ ?_ σ.nextObstacleId
      refine map_modifyFirst_same ?_ σ.areas
      intro area
      refine AreaEntry.settled_of rfl ?_
      rw [applied_eraseFirst]
    · rfl

/-- An operator who finds nothing waiting is refused. -/
theorem promotePending_refused {disk : Disk} (h : (promotePending fl σ req disk).2.success = false)
    : (promotePending fl σ req disk).1 = σ := by
  unfold promotePending at h ⊢
  split
  · rfl
  · rename_i hband
    rw [hband] at h
    dsimp only at h
    split
    · rfl
    · rename_i τ i hτ
      rw [hτ] at h
      cases h

theorem promotePending_none (hσ : NoProposals σ.areas) (req : PromoteRequest F) (disk : Disk) :
    (promotePending fl σ req disk).2.success = false := by
  have hband : robotInsideAcceptedBand fl σ req.pendingId = none := by
    unfold robotInsideAcceptedBand
    rw [hσ.find]
    split <;> rfl
  have haccept : acceptPendingObstacle fl σ req.pendingId req.name = (σ, none) := by
    unfold acceptPendingObstacle
    rw [hσ.find]
    split <;> rfl
  unfold promotePending
  rw [hband, haccept]

/-- A promotion of something drawn or tracked does not look at the proposals. -/
theorem onPromoteObstacle_settled (σ : MapServer F D) (disk : Disk) (hreq : req.pendingId = 0) :
    (onPromoteObstacle fl σ.settled req disk).1.settled =
        (onPromoteObstacle fl σ req disk).1.settled ∧
      (onPromoteObstacle fl σ.settled req disk).2 = (onPromoteObstacle fl σ req disk).2 := by
  have hno : ¬(req.pendingId != 0) = true := by
    rw [hreq]
    decide
  unfold onPromoteObstacle
  rw [if_neg hno, if_neg hno, show promoted σ.settled req = promoted σ req from rfl]
  cases promoted σ req with
  | none => exact ⟨σ.settled_settled, rfl⟩
  | some r =>
    obtain ⟨polygon, source⟩ := r
    dsimp only
    have h := applyPromotedObstacle_settled fl σ req.areaIndex.toNat polygon req.name source
    cases hleft : applyPromotedObstacle fl σ.settled req.areaIndex.toNat polygon req.name source with
    | mk τ a =>
      cases hright : applyPromotedObstacle fl σ req.areaIndex.toNat polygon req.name source with
      | mk ρ b =>
        rw [hleft, hright] at h
        obtain ⟨hstate, hab⟩ := h
        dsimp only at hstate hab
        subst hab
        cases a with
        | false => exact ⟨σ.settled_settled, rfl⟩
        | true =>
          refine ⟨?_, rfl⟩
          show (persistAreasBestEffort fl τ disk).settled = (persistAreasBestEffort fl ρ disk).settled
          rw [← persistAreasBestEffort_settled, ← persistAreasBestEffort_settled, hstate]

/-- No promotion of a proposal succeeds. -/
def NeverAccepts (σ : MapServer F D) : Op F D → Prop
  | .promoteObstacle req disk =>
    req.pendingId ≠ 0 → (onPromoteObstacle fl σ req disk).2.success = false
  | _ => True

/-- The part of a response that is in force. -/
def MapArea.inForce (r : MapArea F D) : MapArea F D :=
  { r with
    obstacleInfo := r.obstacleInfo.map fun info => { info with id := 0 }
    proposedObstacles := []
    proposedObstacleInfo := [] }

/-- Two states nobody can tell apart by what is in force. -/
structure SameView (quiet noisy : MapServer F D) : Prop where
  mowingArea : ∀ i, (onGetMowingArea quiet i).map (·.inForce) =
    (onGetMowingArea noisy i).map (·.inForce)
  obstaclePolygons : quiet.obstaclePolygons = noisy.obstaclePolygons
  grid : quiet.grid = noisy.grid
  /-- A reader of the cells has them classified first. -/
  cells : (ensureClassificationCurrent fl quiet).grid = (ensureClassificationCurrent fl noisy).grid
  file : quiet.file = noisy.file

/-- The two runs at one operation: only a proposal can be discarded. -/
structure SameAnswer (quiet noisy : Unwinding.Entry (MapServer F D) (Op F D) Bool) : Prop where
  op : quiet.op = noisy.op
  view : SameView fl quiet.before noisy.before
  answer : quiet.answer = noisy.answer ∨
    ∃ id, noisy.op = .discardObstacle id ∧ noisy.before.areas.any (hasProposal id) = true ∧
      quiet.answer = false ∧ noisy.answer = true

theorem AreaEntry.response_settled (area : AreaEntry F D) :
    area.settled.response.inForce = area.response.inForce := by
  have happlied : (area.settled.obstacles.filter fun obs => !obs.pending) =
      (applied area.obstacles).map (·.unnumbered) := applied_settled area
  unfold AreaEntry.response MapArea.inForce
  dsimp only
  rw [happlied, List.map_map, List.map_map, List.map_map, List.map_map]
  rfl

theorem Shadow.view {quiet noisy : MapServer F D} (h : Shadow quiet noisy) :
    SameView fl quiet noisy := by
  have hsettled := h.settled
  have hgrid := congrArg MapServer.grid hsettled
  have hpolygons := congrArg MapServer.obstaclePolygons hsettled
  have hfile := congrArg MapServer.file hsettled
  have hensure : ∀ σ : MapServer F D, (ensureClassificationCurrent fl σ.settled).grid =
      (ensureClassificationCurrent fl σ).grid := by
    intro σ
    unfold ensureClassificationCurrent
    rw [applyAreaClassifications_settled, apply_ite MapServer.grid, apply_ite MapServer.grid]
    rfl
  refine ⟨?_, hpolygons, hgrid, ?_, hfile⟩
  · intro i
    have hone : ∀ σ : MapServer F D, (onGetMowingArea σ i).map (·.inForce) =
        σ.settled.areas[i]?.map fun area => area.response.inForce := by
      intro σ
      show (σ.areas[i]?.map (·.response)).map (·.inForce) =
        (σ.areas.map (·.settled))[i]?.map fun area => area.response.inForce
      rw [List.getElem?_map, Option.map_map, Option.map_map]
      refine Option.map_congr ?_
      intro area _
      exact area.response_settled.symm
    rw [hone, hone, hsettled]
  · exact (hensure quiet).symm.trans ((congrArg (fun σ => (ensureClassificationCurrent fl σ).grid)
      hsettled).trans (hensure noisy))

theorem perform_settled {quiet noisy : MapServer F D} (hop : op.isReport = false)
    (hok : NeverAccepts fl noisy op) (h : Shadow quiet noisy) :
    (perform fl quiet op).1.settled = (perform fl noisy op).1.settled ∧
      ((perform fl quiet op).2 = (perform fl noisy op).2 ∨
        ∃ id, op = .discardObstacle id ∧ noisy.areas.any (hasProposal id) = true ∧
          (perform fl quiet op).2 = false ∧ (perform fl noisy op).2 = true) := by
  have hs := h.settled
  -- an operation that gives the same on a settled state gives the same on both
  have hboth : ∀ f : MapServer F D → MapServer F D × Bool,
      (∀ σ, (f σ.settled).1.settled = (f σ).1.settled ∧ (f σ.settled).2 = (f σ).2) →
      (f quiet).1.settled = (f noisy).1.settled ∧ ((f quiet).2 = (f noisy).2 ∨
        ∃ id, op = .discardObstacle id ∧ noisy.areas.any (hasProposal id) = true ∧
          (f quiet).2 = false ∧ (f noisy).2 = true) := by
    intro f hf
    have hq := hf quiet
    have hn := hf noisy
    rw [hs] at hq
    exact ⟨hq.1.symm.trans hn.1, Or.inl (hq.2.symm.trans hn.2)⟩
  cases op with
  | addArea req isNavigationArea disk =>
    exact hboth (fun σ => onAddArea fl σ req isNavigationArea disk) fun σ =>
      onAddArea_settled fl σ req isNavigationArea disk
  | clearMap => exact hboth (fun σ => (onClearMap σ, true)) fun σ => ⟨rfl, rfl⟩
  | setAreaCoverageLines id lines disk =>
    refine hboth (fun σ => ((onSetAreaCoverageLines fl σ id lines disk).1,
      (onSetAreaCoverageLines fl σ id lines disk).2.success)) fun σ => ?_
    have hσ := onSetAreaCoverageLines_settled fl σ id lines disk
    dsimp only
    rw [hσ.1, hσ.2, MapServer.settled_settled]
    exact ⟨rfl, rfl⟩
  | promoteObstacle req disk =>
    cases hreq : decide (req.pendingId = 0) with
    | true =>
      refine hboth (fun σ => ((onPromoteObstacle fl σ req disk).1,
        (onPromoteObstacle fl σ req disk).2.success)) fun σ => ?_
      have hσ := onPromoteObstacle_settled fl σ disk (of_decide_eq_true hreq)
      exact ⟨hσ.1, congrArg Reply.success hσ.2⟩
    | false =>
      have hne := of_decide_eq_false hreq
      have hpath : ∀ σ : MapServer F D,
          onPromoteObstacle fl σ req disk = promotePending fl σ req disk := by
        intro σ
        unfold onPromoteObstacle
        rw [if_pos]
        exact bne_iff_ne.2 hne
      have hnoisy := hok hne
      have hquiet := promotePending_none fl h.noProposals req disk
      show (onPromoteObstacle fl quiet req disk).1.settled =
          (onPromoteObstacle fl noisy req disk).1.settled ∧
        ((onPromoteObstacle fl quiet req disk).2.success =
          (onPromoteObstacle fl noisy req disk).2.success ∨ _)
      rw [hpath] at hnoisy
      rw [hpath, hpath, promotePending_refused fl hquiet, promotePending_refused fl hnoisy]
      exact ⟨hs, Or.inl (hquiet.trans hnoisy.symm)⟩
  | discardObstacle obstacleId =>
    refine ⟨?_, ?_⟩
    · show (discardPendingObstacle quiet obstacleId).1.settled =
        (discardPendingObstacle noisy obstacleId).1.settled
      rw [discardPendingObstacle_settled, discardPendingObstacle_settled, hs]
    · have hquiet : (discardPendingObstacle quiet obstacleId).2 = false := by
        unfold discardPendingObstacle
        rw [h.noProposals.hasProposal]
        split <;> rfl
      show (discardPendingObstacle quiet obstacleId).2 =
        (discardPendingObstacle noisy obstacleId).2 ∨ _
      rw [hquiet]
      cases hnoisy : (discardPendingObstacle noisy obstacleId).2 with
      | false => exact Or.inl rfl
      | true =>
        refine Or.inr ⟨obstacleId, rfl, ?_, hquiet, hnoisy⟩
        unfold discardPendingObstacle at hnoisy
        split at hnoisy
        · cases hnoisy
        · split at hnoisy
          · rename_i hany
            exact hany
          · cases hnoisy
  | corridors e disk publishes =>
    refine hboth (fun σ => ((e.perform fl σ disk publishes).1, e.success fl σ disk publishes))
      fun σ => ?_
    have hσ := e.perform_settled fl σ disk publishes
    dsimp only
    rw [hσ.1, hσ.2, MapServer.settled_settled]
    exact ⟨rfl, rfl⟩
  | saveAreas disk =>
    refine hboth (fun σ => ((onSaveAreas fl σ disk).1, (onSaveAreas fl σ disk).2.success))
      fun σ => ?_
    have hσ := onSaveAreas_settled fl σ disk
    dsimp only
    rw [hσ.1, hσ.2, MapServer.settled_settled]
    exact ⟨rfl, rfl⟩
  | loadAreas idDisk datumDisk =>
    exact hboth (fun σ => onLoadAreas fl σ idDisk datumDisk) fun σ =>
      onLoadAreas_settled fl σ.settled_settled idDisk datumDisk
  | digEvent msg => cases hop
  | trackerSnapshot obstacles =>
    exact hboth (fun σ => ({ σ with lastTrackerSnapshot := obstacles }, true)) fun σ =>
      ⟨congrArg (fun τ : MapServer F D => { τ with lastTrackerSnapshot := obstacles })
        σ.settled_settled, rfl⟩
  | robotPose pose =>
    exact hboth (fun σ => ({ σ with robotPose := pose }, true)) fun σ =>
      ⟨congrArg (fun τ : MapServer F D => { τ with robotPose := pose }) σ.settled_settled, rfl⟩
  | publishTimer publishes =>
    refine hboth (fun σ => (onPublishTimer fl σ publishes, true)) fun σ => ?_
    dsimp only
    rw [onPublishTimer_settled, MapServer.settled_settled]
    exact ⟨rfl, rfl⟩
  | restart grid dock corridorServerInstanceId idDisk datumDisk =>
    exact hboth (fun σ => (start fl σ.settings grid dock corridorServerInstanceId σ.file idDisk
      datumDisk, true)) fun σ => ⟨rfl, rfl⟩

theorem unwinds : Unwinding.Unwinds (perform fl) Op.isReport (NeverAccepts fl) Shadow
    (SameAnswer fl) := by
  refine ⟨?_, ?_, ?_⟩
  · intro quiet noisy op hop h
    cases op with
    | digEvent msg => exact ⟨h.settled.trans (onDigEvent_settled fl noisy msg).symm, h.noProposals⟩
    | _ => cases hop
  · intro quiet noisy op hop hok h
    exact ⟨(perform_settled fl hop hok h).1, perform_noProposals fl hop h.noProposals⟩
  · intro quiet noisy op hop hok h
    refine ⟨rfl, h.view fl, ?_⟩
    rcases (perform_settled fl hop hok h).2 with heq | ⟨id, hid, hany, hquiet, hnoisy⟩
    · exact Or.inl heq
    · exact Or.inr ⟨id, hid, hany, hquiet, hnoisy⟩

/-! ## Accepting -/

/-- The first entry with a property, and what stands before it. -/
theorem modifyFirst_split {α : Type} {p : α → Bool} {as : List α} (h : as.any p = true) :
    ∃ pre a post, as = pre ++ a :: post ∧ p a = true ∧ (∀ b ∈ pre, p b = false) ∧
      ∀ f, modifyFirst p f as = pre ++ f a :: post := by
  induction as with
  | nil => cases h
  | cons a as ih =>
    cases ha : p a with
    | true =>
      refine ⟨[], a, as, rfl, ha, fun b hb => absurd hb List.not_mem_nil, ?_⟩
      intro f
      rw [modifyFirst, ha, if_pos rfl]
      rfl
    | false =>
      rw [List.any_cons, ha, Bool.false_or] at h
      obtain ⟨pre, b, post, rfl, hb, hpre, hf⟩ := ih h
      refine ⟨a :: pre, b, post, rfl, hb, ?_, ?_⟩
      · intro c hc
        rcases List.mem_cons.1 hc with rfl | hc
        · exact ha
        · exact hpre c hc
      · intro f
        rw [modifyFirst, ha, if_neg Bool.false_ne_true, hf]
        rfl

theorem fill_inside {polygon : Polygon F} {value : CellType}
    (h : cellInside fl polygon axes r c = true) :
    fill fl axes polygon value cls r c = value := if_pos h

theorem fill_outside {polygon : Polygon F} {value : CellType}
    (h : cellInside fl polygon axes r c = false) :
    fill fl axes polygon value cls r c = cls r c := by
  unfold fill
  rw [h]
  rfl

/-- Keepouts leave a cell that is one already. -/
theorem fillObstacles_keep (obstacles : List (ObstacleEntry F)) (h : cls r c = .NO_GO_ZONE) :
    obstacles.foldl (fun cls obstacle => fill fl axes obstacle.polygon .NO_GO_ZONE cls) cls r c =
      .NO_GO_ZONE := by
  induction obstacles generalizing cls with
  | nil => exact h
  | cons obs obstacles ih =>
    refine ih ?_
    cases hin : cellInside fl obs.polygon axes r c with
    | true => exact fill_inside fl hin
    | false => exact (fill_outside fl hin).trans h

theorem classifyAreas_keep (areas : List (AreaEntry F D))
    (hareas : ∀ area ∈ areas, cellInside fl area.polygon axes r c = false)
    (h : cls r c = .NO_GO_ZONE) : areas.foldl (classifyArea fl axes) cls r c = .NO_GO_ZONE := by
  induction areas generalizing cls with
  | nil => exact h
  | cons area areas ih =>
    refine ih (fun a ha => hareas a (List.mem_cons_of_mem area ha)) ?_
    refine fillObstacles_keep fl (applied area.obstacles) ?_
    rw [fill_outside fl (hareas area List.mem_cons_self), h]

/-- A cell of a keepout, unless a later area or the dock takes it. -/
theorem classify_noGo (before : List (AreaEntry F D)) (area : AreaEntry F D)
    (hobs : applied area.obstacles = pre ++ obs :: post)
    (hin : cellInside fl obs.polygon axes r c = true)
    (hafter : ∀ a ∈ after, cellInside fl a.polygon axes r c = false)
    {dock : Option (DockGeometry F)}
    (hdock : ∀ d, dock = some d → cellInside fl d.bodyPolygon axes r c = false ∧
      cellInside fl d.corridorPolygon axes r c = false) (cls : Layer) :
    classifyDock fl axes dock ((before ++ area :: after).foldl (classifyArea fl axes) cls) r c =
      .NO_GO_ZONE := by
  have hareas : (before ++ area :: after).foldl (classifyArea fl axes) cls r c = .NO_GO_ZONE := by
    rw [List.foldl_append, List.foldl_cons]
    refine classifyAreas_keep fl after hafter ?_
    unfold classifyArea
    rw [hobs, List.foldl_append, List.foldl_cons]
    exact fillObstacles_keep fl post (fill_inside fl hin)
  unfold classifyDock
  cases dock with
  | none => exact hareas
  | some d =>
    obtain ⟨hbody, hcorridor⟩ := hdock d rfl
    dsimp only
    rw [hcorridor, fill_outside fl hbody, hareas]
    rfl

/-- A proposal taken over: the entry, the cache, the response, the cells and the file. -/
structure Accepted (σ τ : MapServer F D) (req : PromoteRequest F) (disk : Disk)
    (before : List (AreaEntry F D)) (area : AreaEntry F D) (after : List (AreaEntry F D))
    (pre : List (ObstacleEntry F)) (obs : ObstacleEntry F) (post : List (ObstacleEntry F)) :
    Prop where
  areas : σ.areas = before ++ area :: after
  obstacles : area.obstacles = pre ++ obs :: post
  proposal : obs.id = req.pendingId ∧ obs.pending = true
  accepted : τ.areas =
    before ++ { area with obstacles := pre ++ accept req.name obs :: post } :: after
  obstaclePolygons : τ.obstaclePolygons = σ.obstaclePolygons ++ [obs.polygon]
  mowingArea : (onGetMowingArea τ before.length).map (·.obstacles) =
    some ((applied pre).map (·.polygon) ++ obs.polygon :: (applied post).map (·.polygon))
  cells : ∀ r c, cellInside fl obs.polygon (gridAxes fl τ) r c = true →
    (∀ a ∈ after, cellInside fl a.polygon (gridAxes fl τ) r c = false) →
    (∀ d, τ.dock = some d → cellInside fl d.bodyPolygon (gridAxes fl τ) r c = false ∧
      cellInside fl d.corridorPolygon (gridAxes fl τ) r c = false) →
    τ.grid.classification r c = .NO_GO_ZONE
  file : ∀ synced, disk = .replaced synced → σ.settings.areasFilePath ≠ [] →
    ∃ text, τ.file = some text ∧
      render (obstacleLines fl (indexed "area_" before.length "") (applied pre).length
        (accept req.name obs)) <:+: text
  once : (τ.areas.flatMap (·.obstacles)).countP (isProposal req.pendingId) + 1 =
    (σ.areas.flatMap (·.obstacles)).countP (isProposal req.pendingId)

theorem isProposal_accept (id : UInt32) (name : Str) (obs : ObstacleEntry F) :
    isProposal id (accept name obs) = false := Bool.and_false _

theorem applied_accept (name : Str) (pre : List (ObstacleEntry F)) (obs : ObstacleEntry F)
    (post : List (ObstacleEntry F)) :
    applied (pre ++ accept name obs :: post) = applied pre ++ accept name obs :: applied post := by
  rw [applied_append]
  rfl

/-- Every applied obstacle stands in the text, with its two numbers. -/
theorem obstacleLines_infix (σ : MapServer F D) {before : List (AreaEntry F D)}
    {area : AreaEntry F D} (hareas : σ.areas = before ++ area :: after)
    (hobs : applied area.obstacles = pre ++ obs :: post) :
    render (obstacleLines fl (indexed "area_" before.length "") pre.length obs) <:+:
      areasText fl σ σ.lidarIgnoreCorridors σ.nextLidarCorridorId := by
  have hget : (applied area.obstacles)[pre.length]? = some obs := by
    rw [hobs, List.getElem?_append_right (Nat.le_refl _), Nat.sub_self]
    rfl
  have hgetArea : σ.areas[before.length]? = some area := by
    rw [hareas, List.getElem?_append_right (Nat.le_refl _), Nat.sub_self]
    rfl
  have hinner := indexedLines_infix (obstacleLines fl (indexed "area_" before.length ""))
    (i := 0) hget
  rw [Nat.zero_add] at hinner
  have houter := indexedLines_infix (areaLines fl) (i := 0) hgetArea
  rw [Nat.zero_add] at houter
  have harea : indexedLines (obstacleLines fl (indexed "area_" before.length "")) 0
      (applied area.obstacles) <:+: areaLines fl before.length area := by
    unfold areaLines
    exact ((List.suffix_append _ _).isInfix).trans (List.prefix_append _ _).isInfix
  refine render_infix ((hinner.trans harea).trans (houter.trans ?_))
  unfold fileLines
  rw [List.append_assoc, List.append_assoc]
  exact ((List.suffix_append _ _).isInfix).trans (List.prefix_append _ _).isInfix

theorem persistAreasBestEffort_replaced (hpath : σ.settings.areasFilePath ≠ [])
    (hareas : σ.areas ≠ []) (synced : Bool) :
    (persistAreasBestEffort fl σ (.replaced synced)).file =
      some (areasText fl σ σ.lidarIgnoreCorridors σ.nextLidarCorridorId) := by
  have hconf : σ.settings.areasFilePath.isEmpty = false := List.isEmpty_eq_false_iff.2 hpath
  have hempty : σ.areas.isEmpty = false := List.isEmpty_eq_false_iff.2 hareas
  unfold persistAreasBestEffort saveBestEffort saveAreasToFile writeAreasCandidate
  rw [hconf, hempty]
  rfl

/-- The first proposal of the first area that has one. -/
theorem find_proposal {id : UInt32} {before : List (AreaEntry F D)} {area : AreaEntry F D}
    (hbefore : ∀ a ∈ before, hasProposal id a = false) (hobs : area.obstacles = pre ++ obs :: post)
    (hpre : ∀ o ∈ pre, isProposal id o = false) (hprop : isProposal id obs = true) :
    ((before ++ area :: after).flatMap (·.obstacles)).find? (isProposal id) = some obs := by
  have hnone : (before.flatMap (·.obstacles)).find? (isProposal id) = none := by
    refine List.find?_eq_none.2 ?_
    intro o ho
    obtain ⟨a, ha, hmem⟩ := List.mem_flatMap.1 ho
    have hno := List.any_eq_false.1 (hbefore a ha) o hmem
    exact hno
  have hpreNone : pre.find? (isProposal id) = none := by
    refine List.find?_eq_none.2 ?_
    intro o ho
    rw [hpre o ho]
    exact Bool.false_ne_true
  rw [List.flatMap_append, List.flatMap_cons, List.find?_append, hnone, hobs, List.append_assoc,
    List.find?_append, hpreNone, List.cons_append, List.find?_cons_of_pos hprop]
  rfl

theorem promotePending_accepted {disk : Disk} (h : (promotePending fl σ req disk).2.success = true)
    :
    ∃ before area after pre obs post,
      Accepted fl σ (promotePending fl σ req disk).1 req disk before area after pre obs post := by
  unfold promotePending at h ⊢
  split at h
  · cases h
  cases hpending : acceptPendingObstacle fl σ req.pendingId req.name with
  | mk τ index =>
    rw [hpending] at h
    cases index with
    | none => cases h
    | some i =>
      dsimp only
      unfold acceptPendingObstacle at hpending
      split at hpending
      · cases hpending
      split at hpending
      · cases hpending
      rename_i found hfind
      obtain ⟨hτ, -⟩ := Prod.mk.inj hpending
      have hany : σ.areas.any (hasProposal req.pendingId) = true := by
        obtain ⟨area, harea, hobs⟩ := List.mem_flatMap.1 (List.mem_of_find?_eq_some hfind)
        refine List.any_eq_true.2 ⟨area, harea, ?_⟩
        exact List.any_eq_true.2 ⟨found, hobs, List.find?_some hfind⟩
      obtain ⟨before, area, after, hareas, hhas, hbefore, hmodify⟩ := modifyFirst_split hany
      obtain ⟨pre, obs, post, hobs, hprop, hpre, haccept⟩ := modifyFirst_split hhas
      have hfound : found = obs := by
        rw [hareas, find_proposal hbefore hobs hpre hprop] at hfind
        exact (Option.some.inj hfind).symm
      rw [hmodify, haccept, hfound] at hτ
      obtain ⟨file, hfile⟩ := persistAreasBestEffort_frame fl τ disk
      have hτareas : τ.areas =
          before ++ { area with obstacles := pre ++ accept req.name obs :: post } :: after := by
        rw [← hτ]
        rfl
      have happlied : applied (pre ++ accept req.name obs :: post) =
          applied pre ++ accept req.name obs :: applied post := applied_accept req.name pre obs post
      have hid : obs.id = req.pendingId ∧ obs.pending = true := by
        unfold isProposal at hprop
        rw [Bool.and_eq_true, beq_iff_eq] at hprop
        exact hprop
      refine ⟨before, area, after, pre, obs, post, hareas, hobs, hid, ?_, ?_, ?_, ?_, ?_, ?_⟩
      · rw [hfile]
        exact hτareas
      · rw [hfile, ← hτ]
        rfl
      · rw [hfile]
        unfold onGetMowingArea
        dsimp only
        rw [hτareas, List.getElem?_append_right (Nat.le_refl _), Nat.sub_self]
        show some ((applied (pre ++ accept req.name obs :: post)).map (·.polygon)) = _
        rw [happlied, List.map_append]
        rfl
      · intro r c hin hafter hdock
        rw [hfile] at hin hafter hdock ⊢
        have hcells := classify_noGo fl before
          { area with obstacles := pre ++ accept req.name obs :: post } happlied hin hafter hdock
          σ.grid.classification
        rw [← hτareas] at hcells
        rw [← hτ] at hcells ⊢
        exact hcells
      · rintro synced rfl hpath
        have hsettings : τ.settings = σ.settings := by
          rw [← hτ]
          rfl
        have hne : τ.areas ≠ [] := by
          rw [hτareas]
          simp
        refine ⟨_, persistAreasBestEffort_replaced fl (by rwa [hsettings]) hne synced, ?_⟩
        exact obstacleLines_infix fl τ hτareas happlied
      · rw [hfile]
        dsimp only
        rw [hτareas, hareas]
        simp only [List.flatMap_append, List.flatMap_cons, List.countP_append, List.countP_cons, hobs,
          isProposal_accept, hprop]
        simp
        omega

/-- A run with dig reports and the same run without them, and what accepting a proposal does. -/
theorem dig_reports_inert {settings : Settings D} {grid : GridMap D}
    {dock : Option (DockGeometry F)} {corridorServerInstanceId : Str} {file : Option Str}
    {ops : List (Op F D)}
    (hnever : Unwinding.Meets (perform fl) (NeverAccepts fl)
      (MapServer.boot settings grid dock corridorServerInstanceId file) ops)
    {σ : MapServer F D} {req : PromoteRequest F} {disk : Disk} (hreq : req.pendingId ≠ 0)
    (hsuccess : (onPromoteObstacle fl σ req disk).2.success = true) :
    let booted : MapServer F D :=
      MapServer.boot settings grid dock corridorServerInstanceId file
    let withoutReports := ops.filter fun op => !op.isReport
    SameView fl (Unwinding.run (perform fl) booted withoutReports)
        (Unwinding.run (perform fl) booted ops) ∧
      List.Forall₂ (SameAnswer fl) (Unwinding.log (perform fl) booted withoutReports)
        ((Unwinding.log (perform fl) booted ops).filter fun entry => !entry.op.isReport) ∧
      ∃ before area after pre obs post,
        Accepted fl σ (onPromoteObstacle fl σ req disk).1 req disk before area after pre obs post := by
  intro booted withoutReports
  have hboot : Shadow booted booted := ⟨rfl, fun area ha => absurd ha List.not_mem_nil⟩
  have hpath : onPromoteObstacle fl σ req disk = promotePending fl σ req disk :=
    if_pos (bne_iff_ne.2 hreq)
  refine ⟨((unwinds fl).run hnever hboot).view fl, (unwinds fl).log hnever hboot, ?_⟩
  rw [hpath] at hsuccess ⊢
  exact promotePending_accepted fl hsuccess

end Proposals

/-! ## A lawn with a dig in it -/

def lawn (name : Str) (id : UInt32) : MapArea ℚ ℚ :=
  { name := name
    area := [⟨0, 0, 0⟩, ⟨6, 0, 0⟩, ⟨6, 6, 0⟩, ⟨0, 6, 0⟩]
    obstacles := []
    isNavigationArea := false
    obstacleInfo := []
    proposedObstacles := []
    proposedObstacleInfo := []
    id := id
    lines := .zero exactArith }

def dig : DigEvent ℚ :=
  { x := 3, y := 3, wheelDistance := 1, mapDistance := 0, positionSigma := 0 }

def reported : List (Op ℚ ℚ) :=
  [.addArea (lawn "lawn".toList 0) false (.replaced true), .digEvent dig]

def takeOver : PromoteRequest ℚ :=
  { areaIndex := 0, obstacleId := 0, polygon := [], pendingId := 1, name := [] }

theorem reported_never : Unwinding.Meets (perform exact) (NeverAccepts exact) (bootOn none)
    (reported ++ [.discardObstacle 1]) := by
  show _ ∧ _ ∧ _ ∧ _
  exact ⟨trivial, trivial, trivial, trivial⟩

theorem dig_reports_inert_lawn :
    SameView exact (Unwinding.run (perform exact) (bootOn none)
        [.addArea (lawn "lawn".toList 0) false (.replaced true), .discardObstacle 1])
      (Unwinding.run (perform exact) (bootOn none) (reported ++ [.discardObstacle 1])) ∧
    ∃ before area after pre obs post,
      Accepted exact (Unwinding.run (perform exact) (bootOn none) reported)
        (onPromoteObstacle exact (Unwinding.run (perform exact) (bootOn none) reported) takeOver
          (.replaced true)).1 takeOver (.replaced true) before area after pre obs post := by
  have hsuccess : (onPromoteObstacle exact (Unwinding.run (perform exact) (bootOn none) reported)
      takeOver (.replaced true)).2.success = true := by
    decide +kernel
  have h := dig_reports_inert exact reported_never (by decide) hsuccess
  exact ⟨h.1, h.2.2⟩

/-- Discarding is refused where nothing was reported. -/
theorem discard_tells_runs_apart :
    ¬∀ ops : List (Op ℚ ℚ), Unwinding.Meets (perform exact) (NeverAccepts exact) (bootOn none) ops →
      (Unwinding.log (perform exact) (bootOn none) (ops.filter fun op => !op.isReport)).map
          (·.answer) =
        ((Unwinding.log (perform exact) (bootOn none) ops).filter
          fun entry => !entry.op.isReport).map (·.answer) := by
  intro h
  have hanswers := h (reported ++ [.discardObstacle 1]) reported_never
  revert hanswers
  decide +kernel

end Map
end Mowgli
