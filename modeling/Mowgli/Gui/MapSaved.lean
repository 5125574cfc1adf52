import Mowgli.Gui.MapReplace
import Mowgli.Map.Sessions

/-!
# MapSaved — what a replacement reports is so

Only proposals and handles may differ between what the operator drew and what the map server holds.
The proof follows the calls: an answer leaves nothing behind it, so after each one the areas added so
far are exactly the areas there are.
-/

namespace Mowgli
namespace Gui
namespace MapReplace

open Map Errand

variable {F D : Type} (fl : Floats F D)

/-! ## The map that was drawn -/

/-- The keepouts of a request, without handles. -/
def keepouts : List MapObstacleInfo → List (Polygon F) → List (ObstacleEntry F)
  | _, [] => []
  | info, obstacle :: obstacles =>
    if 3 ≤ obstacle.length then
      { polygon := obstacle
        name := (info.head?.map (·.name)).getD []
        source := (info.head?.map (·.source)).getD SOURCE_USER
        pending := false
        id := 0 } :: keepouts info.tail obstacles
    else keepouts info.tail obstacles

/-- An area as it is held after a replacement, with its id. -/
def ReplaceMapArea.stored (w : ReplaceMapArea F D) (id : UInt32) : AreaEntry F D :=
  { name := w.area.name
    polygon := w.area.area
    obstacles := keepouts w.area.obstacleInfo w.area.obstacles
    isNavigationArea := w.isNavigationArea
    id := id
    coverageLines := storedLines fl w.area.area w.area.lines }

def requestIds (areas : List (ReplaceMapArea F D)) : List UInt32 := areas.map (·.area.id)

/-- The map server holds what was asked for, in its order; the ids are those asked for where no two
    are equal and none is open. -/
structure Live (σ : MapServer F D) (areas : List (ReplaceMapArea F D)) : Prop where
  content : List.Forall₂ (fun w area => area.settled = w.stored fl area.id) areas σ.areas
  ids : (0 :: requestIds areas).Nodup → areaIds σ = requestIds areas

def settledAreas (σ : MapServer F D) : List (AreaEntry F D) := σ.areas.map (·.settled)

theorem areaIds_settled (σ : MapServer F D) : (settledAreas σ).map (·.id) = areaIds σ := by
  unfold settledAreas areaIds
  rw [List.map_map]
  rfl

/-- It is about the map without its proposals. -/
theorem content_settled (σ : MapServer F D) (areas : List (ReplaceMapArea F D)) :
    List.Forall₂ (fun w area => area = w.stored fl area.id) areas (settledAreas σ) ↔
      List.Forall₂ (fun w area => area.settled = w.stored fl area.id) areas σ.areas := by
  unfold settledAreas
  rw [List.forall₂_map_right_iff]
  rfl

variable {areas snapshot previous : List (ReplaceMapArea F D)} {σ τ : MapServer F D}
  {P : MapServer F D → Prop} {i : Nat} {l : Link F D} {res : MapResponse F D}
  {r : Link F D × Option MapReplacementError}

theorem Live.congr (h : Live fl σ areas) (heq : settledAreas τ = settledAreas σ) :
    Live fl τ areas := by
  refine ⟨(content_settled fl τ areas).1 ?_, ?_⟩
  · rw [heq]
    exact (content_settled fl σ areas).2 h.content
  · rw [← areaIds_settled τ, heq, areaIds_settled]
    exact h.ids

theorem addObstacles_keepouts (σ : MapServer F D) (info : List MapObstacleInfo)
    (obstacles : List (Polygon F)) :
    (applied (addObstacles σ info obstacles).1).map (·.unnumbered) = keepouts info obstacles := by
  induction obstacles generalizing σ info with
  | nil => rfl
  | cons obstacle obstacles ih =>
    unfold addObstacles keepouts
    split
    · have hrest := ih (makeObstacleEntry σ obstacle ((info.head?.map (·.name)).getD [])
        ((info.head?.map (·.source)).getD SOURCE_USER) false).2 info.tail
      rw [← hrest]
      rfl
    · exact ih σ info.tail

theorem storeArea_stored (σ : MapServer F D) (w : ReplaceMapArea F D) :
    settledAreas (storeArea fl σ (normalizedArea w.area) w.isNavigationArea) =
      settledAreas σ ++ [w.stored fl (assignAreaId σ.areas σ.nextAreaId w.area.id).1] := by
  have hkeepouts := addObstacles_keepouts
    { σ with nextAreaId := (assignAreaId σ.areas σ.nextAreaId w.area.id).2 } w.area.obstacleInfo
    w.area.obstacles
  obtain ⟨n, hn⟩ := addObstacles_frame
    { σ with nextAreaId := (assignAreaId σ.areas σ.nextAreaId w.area.id).2 } w.area.obstacleInfo
    w.area.obstacles
  unfold storeArea settledAreas normalizedArea
  dsimp only
  rw [hn, List.map_append, List.map_singleton]
  unfold AreaEntry.settled ReplaceMapArea.stored
  dsimp only
  rw [hkeepouts]

theorem assignAreaId_asked {areas : List (AreaEntry F D)} {next id : UInt32} (hne : id ≠ 0)
    (hnew : ∀ area ∈ areas, area.id ≠ id) : (assignAreaId areas next id).1 = id := by
  have hany : (areas.any fun existing => existing.id == id) = false := by
    refine List.any_eq_false.2 ?_
    intro area harea heq
    exact hnew area harea (eq_of_beq heq)
  unfold assignAreaId
  rw [if_neg (by simpa using hne), hany, if_neg Bool.false_ne_true]

/-! ## What a request does -/

/-- All of a map that its file shows. -/
def shown (σ : MapServer F D) :
    List (AreaEntry F D) × Settings D × UInt32 × List (LidarIgnoreCorridorEntry F D) × Nat :=
  (settledAreas σ, σ.settings, σ.nextAreaId, σ.lidarIgnoreCorridors, σ.nextLidarCorridorId)

theorem areasText_shown (h : shown τ = shown σ) :
    areasText fl τ τ.lidarIgnoreCorridors τ.nextLidarCorridorId =
      areasText fl σ σ.lidarIgnoreCorridors σ.nextLidarCorridorId := by
  obtain ⟨hareas, hrest⟩ := Prod.mk.inj h
  obtain ⟨hsettings, hrest⟩ := Prod.mk.inj hrest
  obtain ⟨hnext, hrest⟩ := Prod.mk.inj hrest
  obtain ⟨hcorridors, hcount⟩ := Prod.mk.inj hrest
  have hareas : τ.settled.areas = σ.settled.areas := hareas
  have hsettings : τ.settled.settings = σ.settled.settings := hsettings
  have hnext : τ.settled.nextAreaId = σ.settled.nextAreaId := hnext
  rw [hcorridors, hcount, ← areasText_settled fl τ, ← areasText_settled fl σ]
  unfold areasText fileLines
  rw [hareas, hsettings, hnext]

theorem Recorded.congr (h : Recorded fl σ) (hshown : shown τ = shown σ) (hfile : τ.file = σ.file) :
    Recorded fl τ := by
  unfold Recorded at h ⊢
  rw [hfile, areasText_shown fl hshown, h]

theorem hear_shown (σ : MapServer F D) (report : Report F D) :
    shown (hear fl σ report) = shown σ ∧ (hear fl σ report).file = σ.file := by
  cases report with
  | digEvent msg =>
    have h : (hear fl σ (.digEvent msg)).settled = σ.settled := onDigEvent_settled fl σ msg
    have hfile : (hear fl σ (.digEvent msg)).settled.file = σ.settled.file :=
      congrArg (fun τ => τ.file) h
    have hshown : shown (hear fl σ (.digEvent msg)) =
        (σ.settled.areas, σ.settled.settings, σ.settled.nextAreaId,
          σ.settled.lidarIgnoreCorridors, σ.settled.nextLidarCorridorId) := by
      rw [← h]
      rfl
    exact ⟨hshown, hfile⟩
  | trackerSnapshot obstacles => exact ⟨rfl, rfl⟩
  | robotPose pose => exact ⟨rfl, rfl⟩
  | publishTimer publishes =>
    show shown (onPublishTimer fl σ publishes) = shown σ ∧
      (onPublishTimer fl σ publishes).file = σ.file
    unfold onPublishTimer ensureClassificationCurrent
    split <;> split <;> exact ⟨rfl, rfl⟩

theorem onSaveAreas_shown (σ : MapServer F D) (disk : Map.Disk) :
    shown (onSaveAreas fl σ disk).1 = shown σ := by
  unfold onSaveAreas
  split
  · rfl
  · split
    · rfl
    · rfl

variable {disk : Map.Disk}

/-- A save that succeeds has written the map. -/
theorem onSaveAreas_recorded (h : (onSaveAreas fl σ disk).2.success = true) :
    Recorded fl (onSaveAreas fl σ disk).1 := by
  unfold onSaveAreas at h ⊢
  split at h
  · cases h
  · rename_i hpath
    rw [if_neg hpath]
    cases hwrite : writeAreasCandidate fl σ true σ.lidarIgnoreCorridors σ.nextLidarCorridorId
        disk with
    | error what =>
      rw [hwrite] at h
      cases h
    | ok written => exact congrArg some (writeAreasCandidate_ok fl hwrite).2

/-- Whatever the map shows is left alone by a read. -/
def MapRequest.reads : MapRequest F D → Prop
  | .getMowingArea _ => True
  | _ => False

def MapRequest.keeps : MapRequest F D → Prop
  | .getMowingArea _ => True
  | .saveAreas => True
  | _ => False

theorem stable_reads (hP : ∀ σ τ, shown τ = shown σ → τ.file = σ.file → P σ → P τ) :
    Stable (serve fl) (hear fl) P MapRequest.reads := by
  refine ⟨fun σ report h => ?_, fun σ disk r hr h => ?_⟩
  · obtain ⟨hshown, hfile⟩ := hear_shown fl σ report
    exact hP σ _ hshown hfile h
  · cases r with
    | getMowingArea index => exact h
    | _ => cases hr

theorem stable_keeps (hP : ∀ σ τ, shown τ = shown σ → P σ → P τ) :
    Stable (serve fl) (hear fl) P MapRequest.keeps := by
  refine ⟨fun σ report h => hP σ _ (hear_shown fl σ report).1 h, fun σ disk r hr h => ?_⟩
  cases r with
  | getMowingArea index => exact h
  | saveAreas => exact hP σ _ (onSaveAreas_shown fl σ disk) h
  | _ => cases hr

theorem Live.shown (heq : MapReplace.shown τ = MapReplace.shown σ) (h : Live fl σ areas) :
    Live fl τ areas :=
  h.congr fl (Prod.mk.inj heq).1

/-! ## Reading the map back -/

theorem toNat_index (hi : i < maxSnapshotAreas) : (UInt32.ofNat i).toNat = i := by
  rw [UInt32.toNat_ofNat']
  unfold maxSnapshotAreas at hi
  omega

/-- One answered read. -/
theorem serve_get {σ τ : MapServer F D} {disk : Map.Disk} {i : Nat} {res : MapResponse F D}
    (hi : i < maxSnapshotAreas)
    (h : serve fl σ disk (.getMowingArea (UInt32.ofNat i)) = (τ, res)) :
    τ = σ ∧ res.area = σ.areas[i]?.map (·.response) := by
  cases h
  refine ⟨rfl, ?_⟩
  show onGetMowingArea σ (UInt32.ofNat i).toNat = _
  rw [toNat_index hi]
  rfl

/-- An answered call: the request was served last. -/
theorem callMapService_answered {kind : MapRequest F D → Prop} {after : Link F D}
    {r : MapRequest F D} (hstable : Stable (serve fl) (hear fl) P kind) (h : Still P kind l)
    (hcall : callMapService fl l r = (after, some res)) :
    after.waiting = [] ∧ ∃ σ disk, P σ ∧ serve fl σ disk r = (after.server, res) := by
  have hanswered := h.answered hstable (congrArg Prod.snd hcall)
  unfold callMapService at hcall
  rw [hcall] at hanswered
  exact hanswered

/-! ## Writing a map -/

theorem onAddArea_stored {w : ReplaceMapArea F D}
    (h : serve fl σ disk (.addArea (normalizedArea w.area) w.isNavigationArea) = (τ, res))
    (hsuccess : res.success = true) :
    settledAreas τ = settledAreas σ ++
      [w.stored fl (assignAreaId σ.areas σ.nextAreaId w.area.id).1] := by
  cases h
  rw [← storeArea_stored]
  unfold onAddArea at hsuccess ⊢
  split at hsuccess
  · cases hsuccess
  · rename_i hpoints
    rw [if_neg hpoints]
    dsimp only
    rw [resizeMapToAreas_frame]
    obtain ⟨file, hfile⟩ := persistAreasBestEffort_frame fl
      { storeArea fl σ (normalizedArea w.area) w.isNavigationArea with
        grid := { (resizeMapToAreas fl
          (storeArea fl σ (normalizedArea w.area) w.isNavigationArea)).grid with
          classificationDirty := true } } disk
    rw [hfile]
    rfl

theorem Live.add (h : Live fl σ areas) {w : ReplaceMapArea F D}
    (hserve : serve fl σ disk (.addArea (normalizedArea w.area) w.isNavigationArea) = (τ, res))
    (hsuccess : res.success = true) : Live fl τ (areas ++ [w]) := by
  have hstored := onAddArea_stored fl hserve hsuccess
  have hids : areaIds τ = areaIds σ ++ [(assignAreaId σ.areas σ.nextAreaId w.area.id).1] := by
    rw [← areaIds_settled τ, hstored, List.map_append, areaIds_settled]
    rfl
  refine ⟨?_, ?_⟩
  · have hbefore := (content_settled fl σ areas).2 h.content
    refine (content_settled fl τ (areas ++ [w])).1 ?_
    rw [hstored]
    exact List.rel_append hbefore (.cons rfl .nil)
  · intro hdistinct
    have hlist : requestIds (areas ++ [w]) = requestIds areas ++ [w.area.id] :=
      List.map_append
    rw [hlist, ← List.cons_append] at hdistinct
    obtain ⟨hbefore, -, hnew⟩ := List.nodup_append.1 hdistinct
    have hkept := h.ids hbefore
    have hasked : (assignAreaId σ.areas σ.nextAreaId w.area.id).1 = w.area.id := by
      refine assignAreaId_asked ?_ ?_
      · exact fun heq => hnew 0 List.mem_cons_self w.area.id List.mem_cons_self heq.symm
      · intro area harea heq
        have hmem : area.id ∈ requestIds areas := by
          rw [← hkept]
          exact List.mem_map_of_mem harea
        exact hnew area.id (List.mem_cons_of_mem 0 hmem) w.area.id List.mem_cons_self heq
    rw [hids, hkept, hasked, hlist]

theorem live_stable (areas : List (ReplaceMapArea F D)) :
    Stable (serve fl) (hear fl) (fun σ => Live fl σ areas) MapRequest.keeps :=
  stable_keeps fl fun _ _ hshown h => h.shown fl hshown

/-- After each answer the map is what was added so far. -/
theorem addAreas_live (total : Nat) {added rest : List (ReplaceMapArea F D)}
    (hwaiting : l.waiting = []) (hlive : Live fl l.server added)
    (h : (addAreas fl total l i rest).2 = none) :
    (addAreas fl total l i rest).1.waiting = [] ∧
      Live fl (addAreas fl total l i rest).1.server (added ++ rest) := by
  induction rest generalizing l i added with
  | nil =>
    rw [List.append_nil]
    exact ⟨hwaiting, hlive⟩
  | cons w rest ih =>
    unfold addAreas at h ⊢
    split at h
    · cases h
    rename_i after res hcall
    obtain ⟨hafter, σ, disk, hσ, hserve⟩ := callMapService_answered fl (live_stable fl added)
      (Still.of_nothing hwaiting hlive) hcall
    split at h
    · rename_i hsuccess
      rw [if_pos hsuccess, List.append_cons]
      exact ih hafter (hσ.add fl hserve hsuccess) h
    · cases h

theorem writeAreas_live {l : Link F D} {areas : List (ReplaceMapArea F D)}
    (h : (writeAreas fl l areas).2 = none) :
    (writeAreas fl l areas).1.waiting = [] ∧ Live fl (writeAreas fl l areas).1.server areas := by
  unfold writeAreas at h ⊢
  split at h
  · cases h
  rename_i after res hcall
  obtain ⟨hafter, σ, disk, -, hserve⟩ :=
    callMapService_answered fl anything_stable (anything_still l) hcall
  split at h
  · rename_i hsuccess
    have hserver : after.server = onClearMap σ := (congrArg Prod.fst hserve).symm
    have hempty : Live fl after.server [] := by
      rw [hserver]
      exact ⟨.nil, fun _ => rfl⟩
    rw [if_pos hsuccess]
    exact addAreas_live fl areas.length hafter hempty h
  · cases h

theorem persistAreas_saved (hwaiting : l.waiting = []) (hlive : Live fl l.server areas)
    (h : (persistAreas fl l).2 = none) :
    (persistAreas fl l).1.waiting = [] ∧ Live fl (persistAreas fl l).1.server areas ∧
      Recorded fl (persistAreas fl l).1.server := by
  unfold persistAreas at h ⊢
  split at h
  · cases h
  rename_i after res hcall
  obtain ⟨hafter, σ, disk, hσ, hserve⟩ := callMapService_answered fl (live_stable fl areas)
    (Still.of_nothing hwaiting hlive) hcall
  split at h
  · rename_i hsuccess
    have hsaved : (onSaveAreas fl σ disk).2.success = true := by
      rw [← hsuccess]
      exact congrArg (fun r => r.2.success) hserve
    have hserver : after.server = (onSaveAreas fl σ disk).1 := (congrArg Prod.fst hserve).symm
    rw [if_pos hsuccess, hserver]
    exact ⟨hafter, hσ.shown fl (onSaveAreas_shown fl σ disk), onSaveAreas_recorded fl hsaved⟩
  · cases h

/-- A save, whatever becomes of it, leaves the map as it is. -/
theorem persistAreas_still {kind : MapRequest F D → Prop} (hP : Stable (serve fl) (hear fl) P kind)
    (hsave : kind .saveAreas) (h : Still P kind l) : Still P kind (persistAreas fl l).1 := by
  have hcall := h.call hP hsave
  unfold persistAreas callMapService
  split
  · rename_i heq
    rw [heq] at hcall
    exact hcall
  · rename_i heq
    rw [heq] at hcall
    split
    · exact hcall
    · exact hcall

theorem restorePreviousMap_restored {l : Link F D} {previous : List (ReplaceMapArea F D)}
    (h : (restorePreviousMap fl l previous).2 = .restored) :
    (restorePreviousMap fl l previous).1.waiting = [] ∧
      Live fl (restorePreviousMap fl l previous).1.server previous ∧
        Recorded fl (restorePreviousMap fl l previous).1.server := by
  unfold restorePreviousMap at h ⊢
  have hwrite := @writeAreas_live F D fl l previous
  generalize writeAreas fl l previous = w at h hwrite ⊢
  obtain ⟨after, _ | err⟩ := w
  · obtain ⟨hwaiting, hlive⟩ := hwrite rfl
    have hsave := persistAreas_saved fl hwaiting hlive
    dsimp only at h ⊢
    generalize persistAreas fl after = s at h hsave ⊢
    obtain ⟨saved, _ | err⟩ := s
    · exact hsave rfl
    · cases h
  · cases h

/-! ## One replacement -/

/-- The ways through `replaceMapLocked`. -/
inductive Course (l : Link F D) (areas : List (ReplaceMapArea F D)) :
    Link F D × Option MapReplacementError → Prop
  | untouched (err : ReplaceFailure) :
    Course l areas ((snapshotMap fl l).1, some { status := .unchanged, err := err })
  | putBack {previous : List (ReplaceMapArea F D)} {err : WriteFailure}
      (hread : (snapshotMap fl l).2 = .ok previous) :
    Course l areas
      ((restorePreviousMap fl (writeAreas fl (snapshotMap fl l).1 areas).1 previous).1,
        some
          { status :=
              (restorePreviousMap fl (writeAreas fl (snapshotMap fl l).1 areas).1 previous).2
            err := .writing err })
  | unsaved {err : CallFailure} (hwrite : (writeAreas fl (snapshotMap fl l).1 areas).2 = none) :
    Course l areas
      ((persistAreas fl (writeAreas fl (snapshotMap fl l).1 areas).1).1,
        some { status := .activePersistenceUnconfirmed, err := .persisting err })
  | saved (hwrite : (writeAreas fl (snapshotMap fl l).1 areas).2 = none)
      (hsave : (persistAreas fl (writeAreas fl (snapshotMap fl l).1 areas).1).2 = none) :
    Course l areas ((persistAreas fl (writeAreas fl (snapshotMap fl l).1 areas).1).1, none)

theorem replaceMapLocked_course (l : Link F D) (areas : List (ReplaceMapArea F D))
    (canceled : Bool) : Course fl l areas (replaceMapLocked fl l areas canceled) := by
  unfold replaceMapLocked
  split
  · rename_i after err hread
    have h : Course fl l areas
        ((snapshotMap fl l).1, some { status := .unchanged, err := err }) := .untouched err
    rw [hread] at h
    exact h
  rename_i after previous hread
  have hafter : (snapshotMap fl l).1 = after := congrArg Prod.fst hread
  have hprevious : (snapshotMap fl l).2 = .ok previous := congrArg Prod.snd hread
  split
  · rw [← hafter]
    exact .untouched .canceled
  split
  · rename_i written err hwrite
    have h := @Course.putBack F D fl l areas previous err hprevious
    rw [hafter, hwrite] at h
    exact h
  · rename_i written hwrite
    have hwritten : (writeAreas fl (snapshotMap fl l).1 areas).2 = none := by
      rw [hafter, hwrite]
    split
    · rename_i saved err hsave
      have h := @Course.unsaved F D fl l areas err hwritten
      rw [hafter, hwrite, hsave] at h
      exact h
    · rename_i saved hsave
      have h := Course.saved hwritten (by rw [hafter, hwrite, hsave])
      rw [hafter, hwrite, hsave] at h
      exact h

theorem restorePreviousMap_status (l : Link F D) (previous : List (ReplaceMapArea F D)) :
    (restorePreviousMap fl l previous).2 = .restored ∨
      (restorePreviousMap fl l previous).2 = .unconfirmed := by
  unfold restorePreviousMap
  split
  · exact Or.inr rfl
  · split
    · exact Or.inr rfl
    · exact Or.inl rfl

theorem snapshotFrom_still {kind : MapRequest F D → Prop} (hP : Stable (serve fl) (hear fl) P kind)
    (hkind : ∀ r : MapRequest F D, r.reads → kind r) (reads : Nat) (h : Still P kind l) (i : Nat)
    (snapshot : List (ReplaceMapArea F D)) :
    Still P kind (snapshotFrom fl l i snapshot reads).1 := by
  induction reads generalizing l i snapshot with
  | zero => exact h
  | succ reads ih =>
    have hcall := h.call hP (hkind (.getMowingArea (UInt32.ofNat i)) trivial)
    unfold snapshotFrom callMapService
    split
    · rename_i heq
      rw [heq] at hcall
      exact hcall
    · rename_i heq
      rw [heq] at hcall
      split
      · exact hcall
      · exact ih hcall _ _

theorem snapshotFrom_sent (reads : Nat) (l : Link F D) (i : Nat)
    (snapshot : List (ReplaceMapArea F D)) :
    ∃ gets : List (MapRequest F D), (∀ r ∈ gets, r.reads) ∧
      (snapshotFrom fl l i snapshot reads).1.sent = l.sent ++ gets := by
  induction reads generalizing l i snapshot with
  | zero => exact ⟨[], fun r hr => absurd hr List.not_mem_nil, (List.append_nil _).symm⟩
  | succ reads ih =>
    have hone : ∃ gets : List (MapRequest F D), (∀ r ∈ gets, r.reads) ∧
        (callMapService fl l (.getMowingArea (UInt32.ofNat i))).1.sent = l.sent ++ gets := by
      have hcall := @call_sent _ _ _ _ _ (serve fl) (hear fl) l
        (.getMowingArea (UInt32.ofNat i))
      rcases hcall with h | h
      · exact ⟨[], fun r hr => absurd hr List.not_mem_nil, h.trans (List.append_nil _).symm⟩
      · refine ⟨[.getMowingArea (UInt32.ofNat i)], ?_, h⟩
        intro r hr
        rw [List.mem_singleton.1 hr]
        trivial
    obtain ⟨first, hfirst, hsent⟩ := hone
    unfold snapshotFrom
    split
    · rename_i heq
      rw [heq] at hsent
      exact ⟨first, hfirst, hsent⟩
    · rename_i after res heq
      rw [heq] at hsent
      split
      · exact ⟨first, hfirst, hsent⟩
      · rename_i area _
        obtain ⟨rest, hrest, hafter⟩ := ih after (i + 1) (snapshot ++
          [{ area := normalizedArea area, isNavigationArea := area.isNavigationArea }])
        refine ⟨first ++ rest, ?_, ?_⟩
        · intro r hr
          rcases List.mem_append.1 hr with hr | hr
          · exact hfirst r hr
          · exact hrest r hr
        · rw [hafter, hsent, List.append_assoc]

/-- The list that was read back. -/
def readBack (l : Link F D) : List (ReplaceMapArea F D) :=
  match (snapshotMap fl l).2 with
  | .ok previous => previous
  | .error _ => []

/-- What a status tells of a replacement and its outcome `r`. -/
structure Told (l : Link F D) (areas : List (ReplaceMapArea F D))
    (r : Link F D × Option MapReplacementError) : Prop where
  unchanged : statusOf r.2 = .unchanged →
    ∃ gets : List (MapRequest F D), (∀ q ∈ gets, q.reads) ∧ r.1.sent = l.sent ++ gets
  persisted : statusOf r.2 = .persisted →
    r.1.waiting = [] ∧ Live fl r.1.server areas ∧ Recorded fl r.1.server
  restored : statusOf r.2 = .restored →
    r.1.waiting = [] ∧ Live fl r.1.server (readBack fl l) ∧ Recorded fl r.1.server
  active : statusOf r.2 = .activePersistenceUnconfirmed →
    (∀ w ∈ r.1.waiting, w.1 = .saveAreas) ∧ Live fl r.1.server areas

theorem Course.told (h : Course fl l areas r) : Told fl l areas r := by
  cases h with
  | untouched err =>
    exact ⟨fun _ => snapshotFrom_sent fl maxSnapshotAreas l 0 [], nofun, nofun, nofun⟩
  | @putBack previous err hread =>
    have hrestored := @restorePreviousMap_restored F D fl
      (writeAreas fl (snapshotMap fl l).1 areas).1 previous
    rcases restorePreviousMap_status fl (writeAreas fl (snapshotMap fl l).1 areas).1 previous
      with hstatus | hstatus
    · refine ⟨fun h => ?_, fun h => ?_, fun _ => ?_, fun h => ?_⟩
      · cases hstatus.symm.trans h
      · cases hstatus.symm.trans h
      · have hback : readBack fl l = previous := by
          unfold readBack
          rw [hread]
        rw [hback]
        exact hrestored hstatus
      · cases hstatus.symm.trans h
    · refine ⟨fun h => ?_, fun h => ?_, fun h => ?_, fun h => ?_⟩
      all_goals cases hstatus.symm.trans h
  | unsaved hwrite =>
    refine ⟨nofun, nofun, nofun, fun _ => ?_⟩
    obtain ⟨hwaiting, hlive⟩ := writeAreas_live fl hwrite
    have hstable : Stable (serve fl) (hear fl) (fun σ => Live fl σ areas)
        fun q : MapRequest F D => q = .saveAreas := by
      refine (live_stable fl areas).of_kind fun q hq => ?_
      rw [hq]
      trivial
    have h := persistAreas_still fl hstable rfl (Still.of_nothing hwaiting hlive)
    exact ⟨h.waits, h.holds⟩
  | saved hwrite hsave =>
    refine ⟨nofun, fun _ => ?_, nofun, nofun⟩
    obtain ⟨hwaiting, hlive⟩ := writeAreas_live fl hwrite
    exact persistAreas_saved fl hwaiting hlive hsave

theorem Course.unchanged (h : Course fl l areas r) (hstatus : statusOf r.2 = .unchanged) :
    r.1 = (snapshotMap fl l).1 := by
  cases h with
  | untouched err => rfl
  | @putBack previous err hread =>
    rcases restorePreviousMap_status fl (writeAreas fl (snapshotMap fl l).1 areas).1 previous
      with h | h
    · cases h.symm.trans hstatus
    · cases h.symm.trans hstatus
  | unsaved hwrite => cases hstatus
  | saved hwrite hsave => cases hstatus

/-- The last word on the map: the list it is said to hold. -/
structure Word (F D : Type) where
  areas : List (ReplaceMapArea F D)
  status : MapWriteStatus

def Word.holds (w : Word F D) (σ : MapServer F D) : Prop :=
  match w.status with
  | .persisted => Live fl σ w.areas ∧ Recorded fl σ
  | .restored => Live fl σ w.areas ∧ Recorded fl σ
  | .activePersistenceUnconfirmed => Live fl σ w.areas
  | _ => True

/-- What may be served later without touching it. -/
def Word.kind (w : Word F D) : MapRequest F D → Prop :=
  match w.status with
  | .persisted => MapRequest.reads
  | .restored => MapRequest.reads
  | .activePersistenceUnconfirmed => MapRequest.keeps
  | _ => fun _ => True

theorem Word.stable (w : Word F D) : Stable (serve fl) (hear fl) (w.holds fl) w.kind := by
  obtain ⟨areas, status⟩ := w
  have hsaved : Stable (serve fl) (hear fl) (fun σ => Live fl σ areas ∧ Recorded fl σ)
      MapRequest.reads :=
    stable_reads fl fun σ τ hshown hfile h =>
      ⟨h.1.shown fl hshown, Recorded.congr fl h.2 hshown hfile⟩
  cases status with
  | persisted => exact hsaved
  | restored => exact hsaved
  | activePersistenceUnconfirmed => exact live_stable fl areas
  | unchanged => exact anything_stable
  | unconfirmed => exact anything_stable

theorem Word.reads_kind (w : Word F D) (r : MapRequest F D) (hr : r.reads) : w.kind r := by
  obtain ⟨areas, status⟩ := w
  cases status with
  | persisted => exact hr
  | restored => exact hr
  | activePersistenceUnconfirmed =>
    cases r with
    | getMowingArea index => trivial
    | _ => cases hr
  | unchanged => trivial
  | unconfirmed => trivial

/-- What a replacement says. -/
def wordOf (l : Link F D) (areas : List (ReplaceMapArea F D)) (status : MapWriteStatus) :
    Word F D :=
  { areas := if status = .restored then readBack fl l else areas
    status := status }

theorem Told.word (h : Told fl l areas r) :
    Still ((wordOf fl l areas (statusOf r.2)).holds fl) (wordOf fl l areas (statusOf r.2)).kind
      r.1 := by
  obtain ⟨-, hpersisted, hrestored, hactive⟩ := h
  generalize statusOf r.2 = status at hpersisted hrestored hactive
  cases status with
  | persisted =>
    obtain ⟨hwaiting, hsaid⟩ := hpersisted rfl
    exact Still.of_nothing hwaiting hsaid
  | restored =>
    obtain ⟨hwaiting, hsaid⟩ := hrestored rfl
    exact Still.of_nothing hwaiting hsaid
  | activePersistenceUnconfirmed =>
    obtain ⟨hwaits, hlive⟩ := hactive rfl
    refine ⟨hlive, fun w hw => ?_⟩
    rw [hwaits w hw]
    trivial
  | unchanged => exact anything_still r.1
  | unconfirmed => exact anything_still r.1

/-- What happens at a desk with one lock: replacements, one after the other, and what the map
    server does in between. -/
inductive Event (F D : Type)
  | happens (e : Happening (Report F D))
  | replaces (fates : List (Fate Map.Disk (Report F D))) (areas : List (ReplaceMapArea F D))
      (canceled : Bool)

structure Desk (F D : Type) where
  link : Link F D
  /-- Of the last replacement that was not without effect. -/
  word : Option (Word F D)

def Desk.step (d : Desk F D) : Event F D → Desk F D
  | .happens e => { d with link := happen (serve fl) (hear fl) d.link e }
  | .replaces fates areas canceled =>
    let l := { d.link with fates := fates }
    let r := replaceMapLocked fl l areas canceled
    { link := r.1
      word :=
        bif statusOf r.2 == .unchanged then d.word else some (wordOf fl l areas (statusOf r.2)) }

def Desk.run (d : Desk F D) (events : List (Event F D)) : Desk F D :=
  events.foldl (Desk.step fl) d

/-- The last word is true, and stays so under all that is on its way. -/
def Desk.Sound (d : Desk F D) : Prop := ∀ w, d.word = some w → Still (w.holds fl) w.kind d.link

theorem Desk.Sound.step {d : Desk F D} (h : d.Sound fl) (event : Event F D) :
    (d.step fl event).Sound fl := by
  intro w hw
  cases event with
  | happens e => exact (h w hw).happen (w.stable fl) e
  | replaces fates areas canceled =>
    have hcourse := replaceMapLocked_course fl { d.link with fates := fates } areas canceled
    unfold Desk.step at hw ⊢
    dsimp only at hw ⊢
    cases hstatus : statusOf (replaceMapLocked fl { d.link with fates := fates } areas canceled).2
        == MapWriteStatus.unchanged with
    | true =>
      rw [hstatus, cond_true] at hw
      rw [hcourse.unchanged fl (eq_of_beq hstatus)]
      exact snapshotFrom_still fl (w.stable fl) w.reads_kind maxSnapshotAreas
        ((h w hw).fates fates) 0 []
    | false =>
      rw [hstatus, cond_false] at hw
      cases hw
      exact (hcourse.told fl).word fl

/-- The last word is true. -/
def Desk.Honest (d : Desk F D) : Prop := ∀ w, d.word = some w → w.holds fl d.link.server

/-- The file is replaced. -/
def Writes (disk : Map.Disk) : Prop := ∃ synced, disk = .replaced synced

theorem shown_stable (σ : MapServer F D) :
    Stable (serve fl) (hear fl) (fun τ => shown τ = shown σ) MapRequest.reads :=
  stable_reads fl fun _ _ hshown _ h => hshown.trans h

/-- Nothing that is served or heard moves the file. -/
theorem settings_stable (settings : Settings D) :
    Stable (serve fl) (hear fl) (fun σ => σ.settings = settings) fun _ => True := by
  refine ⟨fun σ report h => ?_, fun σ disk r _ h => ?_⟩
  · exact (congrArg (fun v => v.2.1) (hear_shown fl σ report).1).trans h
  · cases r with
    | getMowingArea index => exact h
    | clearMap => exact h
    | saveAreas => exact (congrArg (fun v => v.2.1) (onSaveAreas_shown fl σ disk)).trans h
    | addArea area isNavigationArea =>
      show (onAddArea fl σ area isNavigationArea disk).1.settings = settings
      unfold onAddArea
      split
      · exact h
      · dsimp only
        rw [resizeMapToAreas_frame]
        obtain ⟨file, hfile⟩ := persistAreasBestEffort_frame fl
          { storeArea fl σ area isNavigationArea with
            grid := { (resizeMapToAreas fl (storeArea fl σ area isNavigationArea)).grid with
              classificationDirty := true } } disk
        rw [hfile]
        show (storeArea fl σ area isNavigationArea).settings = settings
        obtain ⟨n, hn⟩ := addObstacles_frame
          { σ with nextAreaId := (assignAreaId σ.areas σ.nextAreaId area.id).2 }
          area.obstacleInfo area.obstacles
        unfold storeArea
        dsimp only
        rw [hn]
        exact h

/-- A map with too many areas is never read to its end. -/
theorem snapshotFrom_answered {n : Nat} (reads : Nat) (snapshot : List (ReplaceMapArea F D))
    (hreads : i + reads = maxSnapshotAreas) (hi : i ≤ σ.areas.length)
    (hstill : Still (fun τ => shown τ = shown σ) MapRequest.reads l)
    (hwilling : Willing Writes (n + 1 + (σ.areas.length - i)) l) :
    if σ.areas.length < maxSnapshotAreas then
      (∃ previous, (snapshotFrom fl l i snapshot reads).2 = .ok previous) ∧
        Willing Writes n (snapshotFrom fl l i snapshot reads).1
    else ∃ err, (snapshotFrom fl l i snapshot reads).2 = .error err := by
  induction reads generalizing l i snapshot with
  | zero =>
    rw [if_neg (by omega)]
    exact ⟨.tooManyAreas, rfl⟩
  | succ reads ih =>
    have hstable := shown_stable fl σ
    obtain ⟨τ, disk, hτ, -, hanswer, hserver, hwaiting, hrest⟩ :=
      Willing.call (n := n + (σ.areas.length - i))
        ⟨by have := hwilling.many; omega, hwilling.all⟩ hstable hstill
        (.getMowingArea (UInt32.ofNat i))
    have hnext := hstill.call hstable (r := .getMowingArea (UInt32.ofNat i)) trivial
    have hlength : τ.areas.length = σ.areas.length := by
      have h := congrArg List.length (Prod.mk.inj hτ).1
      unfold settledAreas at h
      rwa [List.length_map, List.length_map] at h
    have harea : (serve fl τ disk (.getMowingArea (UInt32.ofNat i))).2.area =
        τ.areas[i]?.map (·.response) := (@serve_get F D fl τ τ disk i _ (by omega) rfl).2
    unfold snapshotFrom callMapService
    generalize Errand.call (serve fl) (hear fl) l (.getMowingArea (UInt32.ofNat i)) = r
      at hanswer hrest hnext
    obtain ⟨after, response⟩ := r
    dsimp only at hanswer hrest hnext ⊢
    rw [hanswer]
    dsimp only
    rw [harea]
    by_cases hend : i < σ.areas.length
    · rw [List.getElem?_eq_getElem (by omega), Option.map_some]
      refine ih _ (by omega) (by omega) hnext ⟨?_, hrest.all⟩
      have := hrest.many
      omega
    · rw [List.getElem?_eq_none (by omega), Option.map_none, if_pos (by omega)]
      have hmany : n ≤ after.fates.length := by
        have := hrest.many
        omega
      exact ⟨⟨snapshot, rfl⟩, hmany, hrest.all⟩

theorem onAddArea_success (σ : MapServer F D) (req : MapArea F D) (isNavigationArea : Bool)
    (disk : Map.Disk) : (onAddArea fl σ req isNavigationArea disk).2 = decide (3 ≤ req.area.length) := by
  unfold onAddArea
  split
  · rename_i h
    exact (decide_eq_false (Nat.not_le.2 h)).symm
  · rename_i h
    exact (decide_eq_true (Nat.not_lt.1 h)).symm

theorem writeAreasCandidate_replaced (σ : MapServer F D)
    (corridors : List (LidarIgnoreCorridorEntry F D)) (next : Nat) (synced : Bool) :
    writeAreasCandidate fl σ true corridors next (.replaced synced) =
      .ok (areasText fl σ corridors next, synced) := by
  unfold writeAreasCandidate
  dsimp only
  rw [Bool.not_true, Bool.and_false, if_neg Bool.false_ne_true]

theorem onSaveAreas_success {σ : MapServer F D} {disk : Map.Disk} (hwrites : Writes disk) :
    (onSaveAreas fl σ disk).2.success = true ↔ σ.settings.areasFilePath ≠ [] := by
  obtain ⟨synced, rfl⟩ := hwrites
  unfold onSaveAreas
  rw [writeAreasCandidate_replaced]
  cases hpath : σ.settings.areasFilePath with
  | nil => exact ⟨nofun, fun h => absurd rfl h⟩
  | cons c path =>
    rw [List.isEmpty_cons, if_neg Bool.false_ne_true]
    exact ⟨fun _ => nofun, fun _ => rfl⟩

section Answered

variable {settings : Settings D}

theorem addAreas_answered {n : Nat} (total : Nat) {l : Link F D} {i : Nat}
    {rest : List (ReplaceMapArea F D)}
    (hstill : Still (fun σ => σ.settings = settings) (fun _ => True) l)
    (hwilling : Willing Writes (n + rest.length) l) :
    Still (fun σ => σ.settings = settings) (fun _ => True) (addAreas fl total l i rest).1 ∧
      ((addAreas fl total l i rest).2 = none ↔ ∀ w ∈ rest, 3 ≤ w.area.area.length) ∧
        ((addAreas fl total l i rest).2 = none →
          Willing Writes n (addAreas fl total l i rest).1) := by
  induction rest generalizing l i with
  | nil => exact ⟨hstill, ⟨fun _ w hw => absurd hw List.not_mem_nil, fun _ => rfl⟩, fun _ => hwilling⟩
  | cons w rest ih =>
    have hstable := settings_stable fl settings
    obtain ⟨τ, disk, -, -, hanswer, -, -, hrest⟩ :=
      Willing.call (n := n + rest.length) hwilling hstable hstill
        (.addArea (normalizedArea w.area) w.isNavigationArea)
    have hnext := hstill.call hstable
      (r := .addArea (normalizedArea w.area) w.isNavigationArea) trivial
    unfold addAreas callMapService
    generalize Errand.call (serve fl) (hear fl) l
      (.addArea (normalizedArea w.area) w.isNavigationArea) = r at hanswer hrest hnext
    obtain ⟨after, response⟩ := r
    dsimp only at hanswer hrest hnext ⊢
    rw [hanswer]
    have hsuccess : (serve fl τ disk (.addArea (normalizedArea w.area) w.isNavigationArea)).2.success
        = decide (3 ≤ w.area.area.length) :=
      onAddArea_success fl τ (normalizedArea w.area) w.isNavigationArea disk
    dsimp only
    rw [hsuccess]
    by_cases hpoints : 3 ≤ w.area.area.length
    · rw [decide_eq_true hpoints, if_pos rfl]
      obtain ⟨hstill, hiff, hleft⟩ := @ih after (i + 1) hnext hrest
      refine ⟨hstill, hiff.trans ?_, hleft⟩
      rw [List.forall_mem_cons]
      exact ⟨fun h => ⟨hpoints, h⟩, fun h => h.2⟩
    · rw [decide_eq_false hpoints, if_neg Bool.false_ne_true]
      exact ⟨hnext, ⟨nofun, fun h => absurd (h w List.mem_cons_self) hpoints⟩, nofun⟩

theorem writeAreas_answered {n : Nat}
    (hstill : Still (fun σ => σ.settings = settings) (fun _ => True) l)
    (hwilling : Willing Writes (n + areas.length + 1) l) :
    Still (fun σ => σ.settings = settings) (fun _ => True) (writeAreas fl l areas).1 ∧
      ((writeAreas fl l areas).2 = none ↔ ∀ w ∈ areas, 3 ≤ w.area.area.length) ∧
        ((writeAreas fl l areas).2 = none → Willing Writes n (writeAreas fl l areas).1) := by
  have hstable := settings_stable fl settings
  obtain ⟨τ, disk, -, -, hanswer, -, -, hrest⟩ := hwilling.call hstable hstill .clearMap
  have hnext := hstill.call hstable (r := .clearMap) trivial
  unfold writeAreas callMapService
  generalize Errand.call (serve fl) (hear fl) l .clearMap = r at hanswer hrest hnext
  obtain ⟨after, response⟩ := r
  dsimp only at hanswer hrest hnext ⊢
  rw [hanswer]
  exact addAreas_answered fl areas.length hnext hrest

theorem persistAreas_answered {n : Nat}
    (hstill : Still (fun σ => σ.settings = settings) (fun _ => True) l)
    (hwilling : Willing Writes (n + 1) l) :
    (persistAreas fl l).2 = none ↔ settings.areasFilePath ≠ [] := by
  obtain ⟨τ, disk, hτ, hwrites, hanswer, -, -, -⟩ :=
    hwilling.call (settings_stable fl settings) hstill .saveAreas
  unfold persistAreas callMapService
  generalize Errand.call (serve fl) (hear fl) l .saveAreas = r at hanswer
  obtain ⟨after, response⟩ := r
  dsimp only at hanswer ⊢
  rw [hanswer]
  have hsuccess := @onSaveAreas_success F D fl τ disk hwrites
  rw [hτ] at hsuccess
  dsimp only
  split
  · rename_i h
    exact ⟨fun _ => hsuccess.1 h, fun _ => rfl⟩
  · rename_i h
    exact ⟨nofun, fun hpath => absurd (hsuccess.2 hpath) h⟩

end Answered

/-- When every call is answered and the disk writes, a replacement comes through exactly where the
    map there is can be read to its end and each new area is one. -/
theorem replacement_comes_through (l : Link F D) (areas : List (ReplaceMapArea F D))
    (hwaiting : l.waiting = [])
    (hwilling : Willing Writes (l.server.areas.length + areas.length + 3) l) :
    statusOf (replaceMapLocked fl l areas false).2 = .persisted ↔
      l.server.areas.length < maxSnapshotAreas ∧ l.server.settings.areasFilePath ≠ [] ∧
        ∀ w ∈ areas, 3 ≤ w.area.area.length := by
  have hstill : Still (fun τ => shown τ = shown l.server) MapRequest.reads l :=
    Still.of_nothing hwaiting rfl
  have hsettings : Still (fun σ => σ.settings = l.server.settings) (fun _ => True)
      (snapshotMap fl l).1 :=
    snapshotFrom_still fl (settings_stable fl _) (fun _ _ => trivial) maxSnapshotAreas
      (Still.of_nothing hwaiting rfl) 0 []
  have hread := snapshotFrom_answered fl (n := areas.length + 2) maxSnapshotAreas [] rfl
    (Nat.zero_le _) hstill ⟨by have := hwilling.many; omega, hwilling.all⟩
  unfold replaceMapLocked
  have hsnapshot : snapshotFrom fl l 0 [] maxSnapshotAreas = snapshotMap fl l := rfl
  rw [hsnapshot] at hread
  generalize snapshotMap fl l = r at hread hsettings ⊢
  obtain ⟨after, result⟩ := r
  by_cases hfew : l.server.areas.length < maxSnapshotAreas
  · rw [if_pos hfew] at hread
    obtain ⟨⟨previous, hprevious⟩, hleft⟩ := hread
    dsimp only at hprevious hleft hsettings
    subst hprevious
    have hready : Willing Writes (1 + areas.length + 1) after := by
      refine ⟨?_, hleft.all⟩
      have := hleft.many
      omega
    have hwritten := writeAreas_answered fl hsettings hready
    dsimp only
    rw [if_neg Bool.false_ne_true]
    generalize writeAreas fl after areas = r at hwritten ⊢
    obtain ⟨written, _ | err⟩ := r
    · obtain ⟨hsettings, hpoints, hone⟩ := hwritten
      have hsaved := persistAreas_answered fl hsettings (hone rfl)
      dsimp only
      generalize persistAreas fl written = r at hsaved ⊢
      obtain ⟨saved, _ | err⟩ := r
      · exact ⟨fun _ => ⟨hfew, hsaved.1 rfl, hpoints.1 rfl⟩, fun _ => rfl⟩
      · exact ⟨nofun, fun h => absurd (hsaved.2 h.2.1) nofun⟩
    · dsimp only
      refine ⟨fun h => ?_, fun h => absurd (hwritten.2.1.2 h.2.2) nofun⟩
      rcases restorePreviousMap_status fl written previous with hstatus | hstatus
      · cases hstatus.symm.trans h
      · cases hstatus.symm.trans h
  · rw [if_neg hfew] at hread
    obtain ⟨err, herr⟩ := hread
    dsimp only at herr
    subst herr
    exact ⟨nofun, fun h => absurd h.1 hfew⟩

def onlyLawn : List (ReplaceMapArea ℚ ℚ) :=
  [{ area := lawn "lawn".toList 0, isNavigationArea := false }]

/-- A map of one area, and what becomes of the calls. -/
def meadow (reaches : List Reach) : Link ℚ ℚ :=
  { server := (onAddArea exact (firstStart none) (lawn "meadow".toList 7) false (.replaced true)).1
    waiting := []
    fates := reaches.map fun reach =>
      { before := [], circumstance := .replaced true, reach := reach }
    sent := [] }

theorem replacement_comes_through_onlyLawn :
    statusOf (replaceMapLocked exact (meadow (List.replicate 5 .answered)) onlyLawn false).2 =
      .persisted := by
  refine (replacement_comes_through exact (meadow (List.replicate 5 .answered)) onlyLawn rfl
    ⟨by decide +kernel, ?_⟩).2 ⟨by decide +kernel, by decide +kernel, by decide +kernel⟩
  intro fate hfate
  obtain ⟨reach, hreach, rfl⟩ := List.mem_map.1 hfate
  exact ⟨List.eq_of_mem_replicate hreach, true, rfl⟩

/-- The new area is served late, before the map is cleared again. -/
def lateReaches : List Reach :=
  [.answered, .answered, .answered, .unanswered, .answered, .answered, .answered]

end MapReplace
end Gui
end Mowgli
