import Mowgli.Map.Sessions

/-!
# RoundTrip — a map, its file, and the map of that file

`reloaded` is what a load leaves of an area: its name as it is read, and of keepouts that are
stacked only the first. Nothing else is lost, coordinates being decimals of the file.
-/

namespace Mowgli
namespace Map

section RoundTrip

variable {F D : Type} (fl : Floats F D)

/-! ## Decimals -/

/-- The coordinates are the ones their text is read as. -/
def DecimalPolygon (precision : Nat) (poly : Polygon F) : Prop :=
  ∀ p ∈ poly, fl.stof (fl.showSingle precision p.x) = some p.x ∧
    fl.stof (fl.showSingle precision p.y) = some p.y

structure AreaCoverageLines.Decimal (lines : AreaCoverageLines D) : Prop where
  mowAngleDeg : lines.hasMowAngle = true →
    fl.stod (fl.showDouble 6 lines.mowAngleDeg) = some lines.mowAngleDeg
  start : lines.hasStartPoint = true →
    fl.stod (fl.showFixed 3 lines.startX) = some lines.startX ∧
    fl.stod (fl.showFixed 3 lines.startY) = some lines.startY

/-- A map of decimals, in lines, with counts that a signed number holds. -/
structure Decimals (σ : MapServer F D) : Prop where
  named : ∀ area ∈ σ.areas, area.Named
  polygons : ∀ area ∈ σ.areas, DecimalPolygon fl 6 area.polygon
  lines : ∀ area ∈ σ.areas, area.coverageLines.Decimal fl
  obstacles : ∀ area ∈ σ.areas, ∀ obs ∈ applied area.obstacles, DecimalPolygon fl 6 obs.polygon
  obstacleCount : ∀ area ∈ σ.areas, (applied area.obstacles).length < 2147483648
  areaCount : σ.areas.length < 2147483648
  nextAreaId : σ.nextAreaId.toNat < 2147483648
  corridors : ∀ c ∈ σ.lidarIgnoreCorridors, DecimalPolygon fl 9 c.polyline ∧
    fl.stod (fl.showDouble 17 c.widthM) = some c.widthM
  corridorCount : σ.lidarIgnoreCorridors.length < 2147483648
  datum : isDatumSet fl σ.settings.datumLat σ.settings.datumLon = true → σ.settings.DatumReads fl

/-- A polygon as it is read: the file has no heights. -/
def flat (poly : Polygon F) : Polygon F := poly.map fun p => { p with z := fl.single.lit 0 }

section Decimals

variable {fl}

theorem DecimalPolygon.reads {precision : Nat} {poly : Polygon F}
    (h : DecimalPolygon fl precision poly) : ReadsPolygon fl precision poly := by
  intro p hp
  obtain ⟨hx, hy⟩ := h p hp
  exact ⟨⟨p.x, hx, rfl⟩, p.y, hy, rfl⟩

theorem DecimalPolygon.reread {precision : Nat} {poly : Polygon F}
    (h : DecimalPolygon fl precision poly) : rereadPolygon fl precision poly = flat fl poly := by
  unfold rereadPolygon flat
  refine List.map_congr_left ?_
  intro p hp
  obtain ⟨hx, hy⟩ := h p hp
  unfold rereadSingle
  rw [hx, hy]
  rfl

theorem AreaCoverageLines.Decimal.reads {lines : AreaCoverageLines D} (h : lines.Decimal fl) :
    ReadsLines fl lines :=
  ⟨fun ha => ⟨lines.mowAngleDeg, h.mowAngleDeg ha, rfl⟩,
    fun hs => ⟨⟨lines.startX, (h.start hs).1, rfl⟩, lines.startY, (h.start hs).2, rfl⟩⟩

theorem AreaCoverageLines.Decimal.reread {lines : AreaCoverageLines D} (h : lines.Decimal fl) :
    rereadLines fl lines = lines := by
  have hangle : (if lines.hasMowAngle then rereadDouble fl 6 lines.mowAngleDeg
      else lines.mowAngleDeg) = lines.mowAngleDeg := by
    split
    · rename_i ha
      unfold rereadDouble
      rw [h.mowAngleDeg ha]
      rfl
    · rfl
  have hstart : (if lines.hasStartPoint then rereadFixed fl 3 lines.startX else lines.startX) =
        lines.startX ∧
      (if lines.hasStartPoint then rereadFixed fl 3 lines.startY else lines.startY) =
        lines.startY := by
    split
    · rename_i hs
      unfold rereadFixed
      rw [(h.start hs).1, (h.start hs).2]
      exact ⟨rfl, rfl⟩
    · exact ⟨rfl, rfl⟩
  unfold rereadLines
  rw [hangle, hstart.1, hstart.2]

theorem Decimals.printable {σ : MapServer F D} (h : Decimals fl σ) : Printable fl σ where
  named := h.named
  polygons := fun area harea => (h.polygons area harea).reads
  lines := fun area harea => (h.lines area harea).reads
  obstacles := fun area harea obs hobs => (h.obstacles area harea obs hobs).reads
  obstacleCount := h.obstacleCount
  areaCount := h.areaCount
  nextAreaId := h.nextAreaId
  corridors := fun c hc => ⟨(h.corridors c hc).1.reads, c.widthM, (h.corridors c hc).2, rfl⟩
  corridorCount := h.corridorCount
  datum := h.datum

end Decimals

/-! ## Without heights -/

theorem polygonCentroid_flat (poly : Polygon F) :
    polygonCentroid fl (flat fl poly) = polygonCentroid fl poly := by
  unfold polygonCentroid flat
  dsimp only
  rw [List.isEmpty_map, List.length_map, List.foldl_map, List.foldl_map]

theorem near_flat (p q : Polygon F) (eps : D) :
    near fl (flat fl p) (flat fl q) eps = near fl p q eps := by
  unfold near
  rw [polygonCentroid_flat, polygonCentroid_flat]

theorem storedLines_flat (polygon : Polygon F) (lines : AreaCoverageLines D) :
    storedLines fl (flat fl polygon) lines = storedLines fl polygon lines := by
  have hpairs : polygonPairs fl (flat fl polygon) = polygonPairs fl polygon := by
    unfold polygonPairs flat
    rw [List.map_map]
    rfl
  unfold storedLines
  rw [hpairs]

theorem polygonToString_flat (poly : Polygon F) (precision : Nat) :
    polygonToString fl (flat fl poly) precision = polygonToString fl poly precision := by
  unfold polygonToString flat
  rw [List.map_map]
  rfl

/-! ## An area after a load -/

def ObstacleEntry.reloaded (obs : ObstacleEntry F) : ObstacleEntry F :=
  { obs with polygon := flat fl obs.polygon, name := asRead obs.name, id := 0 }

/-- Each only if none before it is near. -/
def collapse (entries : List (ObstacleEntry F)) :
    List (ObstacleEntry F) → List (ObstacleEntry F)
  | [] => entries
  | obs :: rest =>
    if hasDuplicateObstacleEntry fl entries obs.polygon (kObstacleDedupEpsilonM fl) true then
      collapse entries rest
    else collapse (entries ++ [obs]) rest

/-- The handles of the keepouts are those of a session. -/
def AreaEntry.unnumbered (area : AreaEntry F D) : AreaEntry F D :=
  { area with obstacles := area.obstacles.map (·.unnumbered) }

def AreaEntry.reloaded (area : AreaEntry F D) : AreaEntry F D :=
  { area with
    name := asRead area.name
    polygon := flat fl area.polygon
    obstacles := collapse fl [] ((applied area.obstacles).map (·.reloaded fl)) }

def LidarIgnoreCorridorEntry.reloaded (c : LidarIgnoreCorridorEntry F D) :
    LidarIgnoreCorridorEntry F D :=
  { c with polyline := flat fl c.polyline }

theorem restoreObstacles_applied (τ : MapServer F D) {entries : List (ObstacleEntry F)}
    (hentries : ∀ obs ∈ entries, obs.pending = false) (obstacles : List (ObstacleEntry F)) :
    ∀ obs ∈ (restoreObstacles fl τ entries obstacles).2, obs.pending = false := by
  induction obstacles generalizing τ entries with
  | nil => exact hentries
  | cons obs rest ih =>
    unfold restoreObstacles
    dsimp only
    split
    · exact ih τ hentries
    · refine ih _ ?_
      intro o ho
      rcases List.mem_append.1 ho with ho | ho
      · exact hentries o ho
      · rw [List.mem_singleton.1 ho]
        rfl

theorem restoreObstacles_collapse (τ : MapServer F D) (entries : List (ObstacleEntry F))
    {obstacles : List (ObstacleEntry F)}
    (hdecimal : ∀ obs ∈ obstacles, DecimalPolygon fl 6 obs.polygon)
    (happlied : ∀ obs ∈ obstacles, obs.pending = false) :
    (restoreObstacles fl τ entries obstacles).2.map (·.unnumbered) =
      collapse fl (entries.map (·.unnumbered)) (obstacles.map (·.reloaded fl)) := by
  induction obstacles generalizing τ entries with
  | nil => rfl
  | cons obs rest ih =>
    have hpolygon := (hdecimal obs List.mem_cons_self).reread
    have hd := fun o ho => hdecimal o (List.mem_cons_of_mem obs ho)
    have ha := fun o ho => happlied o (List.mem_cons_of_mem obs ho)
    have hmade : (makeObstacleEntry τ (flat fl obs.polygon) (asRead obs.name) obs.source
        false).1.unnumbered = obs.reloaded fl := by
      unfold ObstacleEntry.reloaded
      rw [happlied obs List.mem_cons_self]
      rfl
    rw [List.map_cons, collapse, hasDuplicateObstacleEntry_unnumbered, restoreObstacles]
    dsimp only
    rw [hpolygon]
    show List.map _ (if hasDuplicateObstacleEntry fl entries (flat fl obs.polygon) _ true = true
      then _ else _ : MapServer F D × List (ObstacleEntry F)).2 =
      if hasDuplicateObstacleEntry fl entries (flat fl obs.polygon) _ true = true then _ else _
    split
    · exact ih τ entries hd ha
    · rw [ih _ _ hd ha, List.map_append, List.map_singleton, hmade]

theorem Restored.reloaded {before after : AreaEntry F D} (h : Restored fl before after)
    (hpolygon : DecimalPolygon fl 6 before.polygon) (hlines : before.coverageLines.Decimal fl)
    (hchecked : before.Checked fl)
    (hobstacles : ∀ obs ∈ applied before.obstacles, DecimalPolygon fl 6 obs.polygon) :
    after.unnumbered = before.reloaded fl ∧ ∀ obs ∈ after.obstacles, obs.pending = false := by
  obtain ⟨τ, hτ⟩ := h.obstacles
  have happlied : ∀ obs ∈ applied before.obstacles, obs.pending = false := by
    intro obs hobs
    simpa using (List.mem_filter.1 hobs).2
  have hstored : storedLines fl (rereadPolygon fl 6 before.polygon)
      (rereadLines fl before.coverageLines) = before.coverageLines := by
    rw [hpolygon.reread, hlines.reread, storedLines_flat]
    exact hchecked
  have hhead := h.head
  unfold restoredArea at hhead
  rw [hpolygon.reread] at hhead hstored
  rw [hstored] at hhead
  refine ⟨?_, ?_⟩
  · show { ({ after with obstacles := [] } : AreaEntry F D) with
      obstacles := after.obstacles.map ObstacleEntry.unnumbered } = _
    rw [hhead, hτ, restoreObstacles_collapse fl τ [] hobstacles happlied]
    rfl
  · rw [hτ]
    exact restoreObstacles_applied fl τ (fun obs hobs => absurd hobs List.not_mem_nil) _

theorem forall₂_reloaded {before after : List (AreaEntry F D)}
    (h : List.Forall₂ (Restored fl) before after)
    (hpolygons : ∀ area ∈ before, DecimalPolygon fl 6 area.polygon)
    (hlines : ∀ area ∈ before, area.coverageLines.Decimal fl)
    (hchecked : ∀ area ∈ before, area.Checked fl)
    (hobstacles : ∀ area ∈ before, ∀ obs ∈ applied area.obstacles,
      DecimalPolygon fl 6 obs.polygon) :
    after.map (·.unnumbered) = before.map (·.reloaded fl) ∧ NoProposals after := by
  induction h with
  | nil => exact ⟨rfl, fun area harea => absurd harea List.not_mem_nil⟩
  | @cons b a before after hd _ ih =>
    obtain ⟨hmap, hnone⟩ := ih (fun area ha => hpolygons area (List.mem_cons_of_mem b ha))
      (fun area ha => hlines area (List.mem_cons_of_mem b ha))
      (fun area ha => hchecked area (List.mem_cons_of_mem b ha))
      (fun area ha => hobstacles area (List.mem_cons_of_mem b ha))
    obtain ⟨hfirst, happlied⟩ := hd.reloaded fl (hpolygons b List.mem_cons_self)
      (hlines b List.mem_cons_self) (hchecked b List.mem_cons_self)
      (hobstacles b List.mem_cons_self)
    refine ⟨by rw [List.map_cons, List.map_cons, hfirst, hmap], ?_⟩
    intro area harea
    rcases List.mem_cons.1 harea with rfl | harea
    · exact happlied
    · exact hnone area harea

theorem asRead_trimmed {s : Str} (h : trimAsciiWhitespace s = s) : asRead s = s := by
  have hends := trimAsciiWhitespace_ends s
  rw [h] at hends
  have hlast : (s.getLast? == some '\r') = false := by
    rw [beq_eq_false_iff_ne]
    intro hcr
    exact absurd (hends.2 '\r' hcr) (by decide)
  unfold asRead
  rw [hlast, if_neg Bool.false_ne_true]
  refine dropWhile_of_head ?_
  intro c hc
  cases hblank : isBlank c with
  | false => rfl
  | true =>
    unfold isBlank at hblank
    rw [Bool.or_eq_true, beq_iff_eq, beq_iff_eq] at hblank
    rcases hblank with rfl | rfl
    · exact absurd (hends.1 ' ' hc) (by decide)
    · exact absurd (hends.1 '\t' hc) (by decide)

/-- A corridor is checked again as it was. -/
theorem restoredCorridor_reloaded (hl : fl.double.Lawful) {c : LidarIgnoreCorridorEntry F D}
    (hshaped : c.Shaped) (hwidth : withinLimits fl c.widthM = true)
    (hpolyline : DecimalPolygon fl 9 c.polyline)
    (hdecimal : fl.stod (fl.showDouble 17 c.widthM) = some c.widthM) :
    restoredCorridor fl c = c.reloaded fl := by
  have hname : trimAsciiWhitespace (asRead c.name) = c.name := by
    rw [asRead_trimmed hshaped.trimmed, hshaped.trimmed]
  have hclamp : fl.double.clamp (rereadDouble fl 17 c.widthM) (kMinLidarIgnoreCorridorWidthM fl)
      (kMaxLidarIgnoreCorridorWidthM fl) = c.widthM := by
    unfold withinLimits at hwidth
    rw [Bool.and_eq_true] at hwidth
    unfold rereadDouble
    rw [hdecimal]
    exact hl.clamp_eq hwidth.1 hwidth.2
  unfold restoredCorridor LidarIgnoreCorridorEntry.reloaded
  rw [hname, hclamp, hpolyline.reread]

/-! ## The text of the file -/

theorem saveAreasToFile_file {σ saved : MapServer F D} {allow : Bool} {disk : Disk}
    (h : saveAreasToFile fl σ allow disk = some saved) :
    saved = { σ with
      file := some (areasText fl σ σ.lidarIgnoreCorridors σ.nextLidarCorridorId) } := by
  unfold saveAreasToFile at h
  cases hwrite : writeAreasCandidate fl σ allow σ.lidarIgnoreCorridors σ.nextLidarCorridorId
    disk with
  | error what =>
    rw [hwrite] at h
    cases h
  | ok written =>
    rw [hwrite] at h
    cases h
    rw [(writeAreasCandidate_ok fl hwrite).2]

/-- No name starts with a blank or ends a line, and no keepout is stacked on another. -/
structure AreaEntry.Plain (area : AreaEntry F D) : Prop where
  name : asRead area.name = area.name
  names : ∀ obs ∈ applied area.obstacles, asRead obs.name = obs.name
  apart : (applied area.obstacles).Pairwise fun a b =>
    near fl a.polygon b.polygon (kObstacleDedupEpsilonM fl) = false

theorem collapse_apart {entries obstacles : List (ObstacleEntry F)}
    (h : (entries ++ obstacles).Pairwise fun a b =>
      near fl a.polygon b.polygon (kObstacleDedupEpsilonM fl) = false) :
    collapse fl entries obstacles = entries ++ obstacles := by
  induction obstacles generalizing entries with
  | nil =>
    rw [List.append_nil]
    rfl
  | cons obs rest ih =>
    have hnone : hasDuplicateObstacleEntry fl entries obs.polygon (kObstacleDedupEpsilonM fl) true =
        false := by
      refine List.any_eq_false.2 ?_
      intro polygon hmem
      obtain ⟨before, hbefore, rfl⟩ := List.mem_map.1 hmem
      have hnear := (List.pairwise_append.1 h).2.2 before (List.mem_of_mem_filter hbefore) obs
        List.mem_cons_self
      rw [hnear]
      exact Bool.false_ne_true
    rw [List.append_cons] at h
    rw [collapse, hnone, if_neg Bool.false_ne_true, ih h, ← List.append_cons]

/-- A plain area comes back whole. -/
theorem AreaEntry.Plain.reloaded {area : AreaEntry F D} (h : area.Plain fl) :
    area.reloaded fl = { area with
      polygon := flat fl area.polygon
      obstacles := (applied area.obstacles).map (·.reloaded fl) } := by
  have hcollapse : collapse fl [] ((applied area.obstacles).map (·.reloaded fl)) =
      (applied area.obstacles).map (·.reloaded fl) := by
    refine collapse_apart fl ?_
    rw [List.nil_append, List.pairwise_map]
    refine h.apart.imp ?_
    intro a b hab
    exact (near_flat fl a.polygon b.polygon _).trans hab
  unfold AreaEntry.reloaded
  rw [hcollapse, h.name]

theorem indexedLines_map_of_mem {α : Type} {lines : Nat → α → List Line} {f : α → α} {as : List α}
    (h : ∀ i, ∀ a ∈ as, lines i (f a) = lines i a) (i : Nat) :
    indexedLines lines i (as.map f) = indexedLines lines i as := by
  induction as generalizing i with
  | nil => rfl
  | cons a as ih =>
    rw [List.map_cons, indexedLines, indexedLines, h i a List.mem_cons_self,
      ih fun i a ha => h i a (List.mem_cons_of_mem _ ha)]

theorem areaLines_unnumbered (i : Nat) (area : AreaEntry F D) :
    areaLines fl i area.unnumbered = areaLines fl i area := by
  unfold areaLines AreaEntry.unnumbered
  dsimp only
  rw [applied_map_unnumbered, List.length_map,
    indexedLines_map fun j obs => obstacleLines_unnumbered fl _ j obs]

theorem areaLines_reloaded (i : Nat) {area : AreaEntry F D} (h : area.Plain fl) :
    areaLines fl i (area.reloaded fl) = areaLines fl i area := by
  have happlied : applied ((applied area.obstacles).map (·.reloaded fl)) =
      (applied area.obstacles).map (·.reloaded fl) := by
    unfold applied
    refine List.filter_eq_self.2 ?_
    intro obs hobs
    obtain ⟨before, hbefore, rfl⟩ := List.mem_map.1 hobs
    exact (List.mem_filter.1 hbefore).2
  have hobstacles : ∀ pre : Str, indexedLines (obstacleLines fl pre) 0
      ((applied area.obstacles).map (·.reloaded fl)) =
      indexedLines (obstacleLines fl pre) 0 (applied area.obstacles) := by
    intro pre
    refine indexedLines_map_of_mem ?_ 0
    intro j obs hobs
    unfold obstacleLines ObstacleEntry.reloaded
    dsimp only
    rw [polygonToString_flat, h.names obs hobs]
  rw [h.reloaded]
  unfold areaLines
  dsimp only
  rw [happlied, hobstacles, List.length_map, polygonToString_flat]

theorem corridorLines_reloaded (i : Nat) (c : LidarIgnoreCorridorEntry F D) :
    corridorLines fl i (c.reloaded fl) = corridorLines fl i c := by
  unfold corridorLines LidarIgnoreCorridorEntry.reloaded
  dsimp only
  rw [polygonToString_flat]

theorem areasText_reloaded {σ loaded : MapServer F D} (hsettings : loaded.settings = σ.settings)
    (hareas : loaded.areas.map (·.unnumbered) = σ.areas.map (·.reloaded fl))
    (hcorridors : loaded.lidarIgnoreCorridors = σ.lidarIgnoreCorridors.map (·.reloaded fl))
    (hnext : loaded.nextAreaId = σ.nextAreaId)
    (hplain : ∀ area ∈ σ.areas, area.Plain fl) (next : Nat) :
    areasText fl loaded loaded.lidarIgnoreCorridors next =
      areasText fl σ σ.lidarIgnoreCorridors next := by
  have hlength : loaded.areas.length = σ.areas.length := by
    have h := congrArg List.length hareas
    rwa [List.length_map, List.length_map] at h
  have hlines : indexedLines (areaLines fl) 0 loaded.areas =
      indexedLines (areaLines fl) 0 σ.areas := by
    rw [← indexedLines_map (areaLines_unnumbered fl) 0 loaded.areas, hareas]
    exact indexedLines_map_of_mem (fun i area harea => areaLines_reloaded fl i (hplain area harea)) 0
  unfold areasText fileLines
  rw [hsettings, hlength, hlines, hnext, hcorridors, List.isEmpty_map, List.length_map,
    indexedLines_map (corridorLines_reloaded fl)]

/-! ## The round trip -/

/-- What a load brings back of a state. -/
structure ComesBack (σ loaded : MapServer F D) : Prop where
  areas : loaded.areas.map (·.unnumbered) = σ.areas.map (·.reloaded fl)
  noProposals : NoProposals loaded.areas
  corridors : loaded.lidarIgnoreCorridors = σ.lidarIgnoreCorridors.map (·.reloaded fl)
  nextAreaId : loaded.nextAreaId = σ.nextAreaId
  nextLidarCorridorId : loaded.nextLidarCorridorId = σ.nextLidarCorridorId
  settings : loaded.settings = σ.settings

theorem restored_comesBack (hl : fl.double.Lawful) {σ τ : MapServer F D} (h : Stored fl σ)
    (hshape : Shape fl σ) (hd : Decimals fl σ) (hsettings : τ.settings = σ.settings) :
    ComesBack fl σ (publishLidarIgnoreCorridors (resizeMapToAreas fl (restored fl τ σ))) := by
  obtain ⟨n, after, hafter, hall⟩ := restoreAreas_areas fl
    { τ with areas := [], obstaclePolygons := [] } σ.areas
  obtain ⟨hareas, hnone⟩ := forall₂_reloaded fl hall hd.polygons hd.lines h.checked hd.obstacles
  have hstate : restored fl τ σ = { τ with
      areas := [] ++ after
      obstaclePolygons := []
      nextObstacleId := n
      lidarIgnoreCorridors := σ.lidarIgnoreCorridors.map (restoredCorridor fl)
      nextLidarCorridorId := σ.nextLidarCorridorId
      nextAreaId := σ.nextAreaId } := by
    unfold restored
    rw [hafter]
  have hcorridors : σ.lidarIgnoreCorridors.map (restoredCorridor fl) =
      σ.lidarIgnoreCorridors.map (·.reloaded fl) := by
    refine List.map_congr_left ?_
    intro c hc
    exact restoredCorridor_reloaded fl hl (hshape.corridors.shaped c hc) (h.corridors.width c hc)
      (hd.corridors c hc).1 (hd.corridors c hc).2
  rw [resizeMapToAreas_frame, hstate]
  exact ⟨hareas, hnone, hcorridors, rfl, rfl, hsettings⟩

/-- A saved map comes back, and a plain one to the same file. -/
theorem areas_round_trip (hp : fl.Prints) (hl : fl.double.Lawful) (hf : fl.double.Folds)
    {σ τ saved : MapServer F D} (h : Session fl σ) (hd : Decimals fl σ) {allow : Bool} {disk : Disk}
    (hsave : saveAreasToFile fl σ allow disk = some saved) (hfile : τ.file = saved.file)
    (hsettings : τ.settings = σ.settings) (idDisk datumDisk : Disk) :
    saved.file =
      some (areasText fl σ.settled σ.lidarIgnoreCorridors σ.nextLidarCorridorId) ∧
    ∃ loaded, loadAreasFromFile fl τ idDisk datumDisk = (loaded, true) ∧ ComesBack fl σ loaded ∧
      ((∀ area ∈ σ.areas, area.Plain fl) → ∀ allow' disk' again,
        saveAreasToFile fl loaded allow' disk' = some again → again.file = saved.file) := by
  have hstored := h.stored fl hp hl hf
  obtain ⟨carried, hidentified⟩ := hstored.identified
  have hwritable := hidentified.shape.writable fl hd.printable hidentified.areas
  have hsaved := saveAreasToFile_file fl hsave
  rw [hsaved] at hfile ⊢
  refine ⟨by rw [areasText_settled], _,
    loadAreasFromFile_areasText fl hp hwritable hidentified.pos hsettings hfile idDisk datumDisk,
    restored_comesBack fl hl hstored hidentified.shape hd hsettings, ?_⟩
  intro hplain allow' disk' again hagain
  have hback := restored_comesBack fl hl hstored hidentified.shape hd hsettings
  rw [saveAreasToFile_file fl hagain]
  show some _ = some _
  rw [areasText_reloaded fl hback.settings hback.areas hback.corridors hback.nextAreaId hplain,
    hback.nextLidarCorridorId]

end RoundTrip

/-! ## Two keepouts in one place -/

theorem exactArith_folds : exactArith.Folds := by
  refine ⟨?_, fun _ _ _ _ => rfl, ?_, ?_⟩
  · intro m n _ hmn _
    exact decide_eq_true (Int.cast_lt.2 hmn)
  · intro x y hx hy
    have hx : (0 : ℚ) ≤ x := not_lt.1 (of_decide_eq_false hx)
    have hy : (0 : ℚ) < y := of_decide_eq_true hy
    have hfloor : y * ⌊x / y⌋ ≤ x := by
      have h := mul_le_mul_of_nonneg_left (Int.floor_le (x / y)) hy.le
      rwa [mul_div_cancel₀ x hy.ne'] at h
    refine decide_eq_false (not_lt.2 ?_)
    show (0 : ℚ) ≤ if 0 ≤ x then x - y * ⌊x / y⌋ else x + y * ⌊-x / y⌋
    rw [if_pos hx]
    exact sub_nonneg.2 hfloor
  · intro x y hx hxy
    have hx : (0 : ℚ) ≤ x := not_lt.1 (of_decide_eq_false hx)
    have hxy : x < y := of_decide_eq_true hxy
    have hfloor : ⌊x / y⌋ = 0 := by
      have hy := lt_of_le_of_lt hx hxy
      rw [Int.floor_eq_zero_iff]
      exact ⟨div_nonneg hx hy.le, (div_lt_one hy).2 hxy⟩
    show (if 0 ≤ x then x - y * ⌊x / y⌋ else x + y * ⌊-x / y⌋) = x
    rw [if_pos hx, hfloor, Int.cast_zero, mul_zero, sub_zero]

theorem exact_decimalPolygon (precision : Nat) (poly : Polygon ℚ) :
    DecimalPolygon exact precision poly :=
  fun p _ => ⟨readRational_showRational p.x, readRational_showRational p.y⟩

/-- A lawn with keepouts, each a name and where its square starts. -/
def kept (keepouts : List (Str × ℚ)) : Op ℚ ℚ :=
  .addArea
    { lawn "lawn".toList 0 with
      obstacles := keepouts.map fun k => [⟨k.2, 1, 0⟩, ⟨k.2 + 1, 1, 0⟩, ⟨k.2 + 1, 2, 0⟩]
      obstacleInfo := keepouts.map fun k => ⟨k.1, SOURCE_USER, false, 0⟩ }
    false (.replaced true)

def keptLawn (keepouts : List (Str × ℚ)) : MapServer ℚ ℚ :=
  (perform exact (bootOn none) (kept keepouts)).1

theorem keptLawn_session (keepouts : List (Str × ℚ)) : Session exact (keptLawn keepouts) := by
  refine .step (.boot exactSettings _ none _ none) _ rfl ?_
  intro _
  show (0 : UInt32) ≠ 4294967295 ∧ (_ → (1 : UInt32) ≠ 4294967295)
  exact ⟨by decide, fun _ => by decide⟩

theorem exact_datumReads {settings : Settings ℚ}
    (h : isDatumSet exact settings.datumLat settings.datumLon = true) :
    settings.DatumReads exact := by
  have hread : ∀ x : ℚ, ReadsFixed exact 9 x ∧ rereadFixed exact 9 x = x := by
    intro x
    have hx := readRational_showRational x
    refine ⟨⟨x, hx, rfl⟩, ?_⟩
    show (readRational (showRational x)).getD x = x
    rw [hx]
    rfl
  have hsame : ∀ x : ℚ, exactArith.lt (exactArith.abs (exactArith.sub x x))
      (kDatumMatchEpsilonDeg exact) = true := by
    intro x
    show exactArith.lt (exactArith.abs (x - x)) (kDatumMatchEpsilonDeg exact) = true
    rw [sub_self]
    decide +kernel
  refine ⟨(hread _).1, (hread _).1, ⟨rfl, rfl⟩, ?_, ?_⟩
  · rw [(hread _).2, (hread _).2]
    exact h
  · rw [(hread _).2, (hread _).2]
    exact ⟨hsame _, hsame _⟩

theorem keptLawn_decimals {keepouts : List (Str × ℚ)}
    (hnamed : ∀ area ∈ (keptLawn keepouts).areas,
      '\n' ∉ area.name ∧ ∀ obs ∈ applied area.obstacles, '\n' ∉ obs.name)
    (hcount : ∀ area ∈ (keptLawn keepouts).areas, (applied area.obstacles).length < 2147483648)
    (hareas : (keptLawn keepouts).areas.length < 2147483648)
    (hnext : (keptLawn keepouts).nextAreaId.toNat < 2147483648)
    (hcorridors : (keptLawn keepouts).lidarIgnoreCorridors.length < 2147483648) :
    Decimals exact (keptLawn keepouts) where
  named := hnamed
  polygons := fun area _ => exact_decimalPolygon 6 area.polygon
  lines := fun _ _ => ⟨fun _ => readRational_showRational _,
    fun _ => ⟨readRational_showRational _, readRational_showRational _⟩⟩
  obstacles := fun _ _ obs _ => exact_decimalPolygon 6 obs.polygon
  obstacleCount := hcount
  areaCount := hareas
  nextAreaId := hnext
  corridors := fun c _ => ⟨exact_decimalPolygon 9 c.polyline, readRational_showRational c.widthM⟩
  corridorCount := hcorridors
  datum := exact_datumReads

def twoTrees : List (Str × ℚ) := [("tree".toList, 1), ("old tree".toList, 4)]

theorem areas_round_trip_two_trees :
    ∃ saved loaded,
      saveAreasToFile exact (keptLawn twoTrees) false (.replaced true) = some saved ∧
      loadAreasFromFile exact saved .full .full = (loaded, true) ∧
      ComesBack exact (keptLawn twoTrees) loaded := by
  have hdecimals : Decimals exact (keptLawn twoTrees) :=
    keptLawn_decimals (by decide +kernel) (by decide +kernel) (by decide +kernel)
      (by decide +kernel) (by decide +kernel)
  have hsome : (saveAreasToFile exact (keptLawn twoTrees) false (.replaced true)).isSome = true := by
    decide +kernel
  obtain ⟨saved, hsaved⟩ := Option.isSome_iff_exists.1 hsome
  have hsettings : saved.settings = (keptLawn twoTrees).settings := by
    rw [saveAreasToFile_file exact hsaved]
  obtain ⟨-, loaded, hload, hback, -⟩ := areas_round_trip exact exact_prints exactArith_lawful
    exactArith_folds (keptLawn_session twoTrees) hdecimals hsaved rfl hsettings .full .full
  exact ⟨saved, loaded, hsaved, hload, hback⟩

def stacked : List (Str × ℚ) := [("tree".toList, 1), ("old tree".toList, 1)]

def keptNames (σ : MapServer ℚ ℚ) : List (List Str) :=
  σ.areas.map fun area => (applied area.obstacles).map (·.name)

/-- Two keepouts drawn in one place are one after a load. -/
theorem stacked_keepouts_collapse :
    ¬∀ σ saved : MapServer ℚ ℚ, Session exact σ → Decimals exact σ →
      saveAreasToFile exact σ false (.replaced true) = some saved →
      ∃ loaded, loadAreasFromFile exact saved .full .full = (loaded, true) ∧
        keptNames loaded = keptNames σ := by
  intro h
  have hdecimals : Decimals exact (keptLawn stacked) :=
    keptLawn_decimals (by decide +kernel) (by decide +kernel) (by decide +kernel)
      (by decide +kernel) (by decide +kernel)
  have hlost : ((saveAreasToFile exact (keptLawn stacked) false (.replaced true)).map fun saved =>
      keptNames (loadAreasFromFile exact saved .full .full).1) = some [["tree".toList]] := by
    decide +kernel
  obtain ⟨saved, hsaved, hnames⟩ := Option.map_eq_some_iff.1 hlost
  obtain ⟨loaded, hload, hsame⟩ := h _ saved (keptLawn_session stacked) hdecimals hsaved
  rw [hload] at hnames
  rw [hnames] at hsame
  revert hsame
  decide +kernel

end Map
end Mowgli
