import Mowgli.Map.Reread
import Mowgli.Map.Runs

/-!
# Shape — what every map has that the server holds

Polygons have their points, coverage lines are normalised and corridors keep to one line. Every
operation keeps this, a load of any file too.
-/

namespace Mowgli
namespace Map

section Shape

variable {F D : Type} (fl : Floats F D)

structure AreaEntry.Shaped (area : AreaEntry F D) : Prop where
  points : 3 ≤ area.polygon.length
  lines : area.coverageLines.Kept fl
  obstacles : ∀ obs ∈ area.obstacles, 3 ≤ obs.polygon.length

structure LidarIgnoreCorridorEntry.Shaped (c : LidarIgnoreCorridorEntry F D) : Prop where
  name : '\n' ∉ c.name
  trimmed : trimAsciiWhitespace c.name = c.name
  points : 2 ≤ c.polyline.length

/-- A list of corridors and its counter. -/
structure CorridorShape (corridors : List (LidarIgnoreCorridorEntry F D)) (next : Nat) : Prop where
  shaped : ∀ c ∈ corridors, c.Shaped
  below : Fresh.Below (idsOf corridors) next
  bound : next ≤ 4294967296

structure Shape (σ : MapServer F D) : Prop where
  areas : ∀ area ∈ σ.areas, area.Shaped fl
  corridors : CorridorShape σ.lidarIgnoreCorridors σ.nextLidarCorridorId

/-! ## Coverage lines -/

theorem zero_kept : (AreaCoverageLines.zero fl.double).Kept fl :=
  ⟨fun _ => rfl, fun _ => rfl, fun _ => ⟨rfl, rfl⟩⟩

theorem checkCoverageLines_kept {r stored : AreaCoverageLines D}
    (h : checkCoverageLines fl.double r = .ok stored) : stored.Kept fl := by
  unfold checkCoverageLines at h
  split at h
  · cases h
  split at h
  · cases h
  split at h
  · cases h
  · cases h
    refine ⟨?_, ?_, ?_⟩
    · intro hno
      exact if_neg (by rw [show r.hasMowAngle = false from hno]; exact Bool.false_ne_true)
    · intro hno
      exact if_neg (by rw [show r.hasRingDirection = false from hno]; exact Bool.false_ne_true)
    · intro hno
      have hno : r.hasStartPoint = false := hno
      exact ⟨if_neg (by rw [hno]; exact Bool.false_ne_true),
        if_neg (by rw [hno]; exact Bool.false_ne_true)⟩

theorem storedLines_kept (polygon : Polygon F) (r : AreaCoverageLines D) :
    (storedLines fl polygon r).Kept fl := by
  unfold storedLines
  split
  · exact zero_kept fl
  · rename_i lines hlines
    have hkept := checkCoverageLines_kept fl hlines
    split
    · exact ⟨hkept.mowAngleDeg, hkept.ringDirection, fun _ => ⟨rfl, rfl⟩⟩
    · exact hkept

/-! ## The areas -/

theorem addObstacles_points (σ : MapServer F D) (info : List MapObstacleInfo)
    (obstacles : List (Polygon F)) :
    ∀ obs ∈ (addObstacles σ info obstacles).1, 3 ≤ obs.polygon.length := by
  induction obstacles generalizing σ info with
  | nil =>
    intro obs hobs
    cases hobs
  | cons obstacle obstacles ih =>
    unfold addObstacles
    split
    · rename_i hthree
      intro obs hobs
      rcases List.mem_cons.1 hobs with rfl | hobs
      · exact hthree
      · exact ih _ info.tail obs hobs
    · exact ih σ info.tail

theorem mem_eraseFirst {α : Type} {p : α → Bool} {as : List α} {b : α}
    (h : b ∈ eraseFirst p as) : b ∈ as := by
  induction as with
  | nil => cases h
  | cons a as ih =>
    rw [eraseFirst] at h
    split at h
    · exact List.mem_cons_of_mem a h
    · rcases List.mem_cons.1 h with rfl | h
      · exact List.mem_cons_self
      · exact List.mem_cons_of_mem a (ih h)

variable {σ : MapServer F D} {candidate : List (LidarIgnoreCorridorEntry F D)} {kv : KeyValues}

theorem Change.shaped {op : Op F D} {areas : List (AreaEntry F D)} {next : UInt32}
    (hc : Change fl op σ areas next) (h : ∀ area ∈ σ.areas, area.Shaped fl) :
    ∀ area ∈ areas, area.Shaped fl := by
  cases hc with
  | same => exact h
  | added req isNavigationArea hadd hpoints =>
    obtain ⟨n, hn⟩ := addObstacles_frame
      { σ with nextAreaId := (assignAreaId σ.areas σ.nextAreaId req.id).2 } req.obstacleInfo
      req.obstacles
    unfold storeArea
    dsimp only
    rw [hn]
    intro area harea
    rcases List.mem_append.1 harea with harea | harea
    · exact h area harea
    · rw [List.mem_singleton.1 harea]
      exact ⟨hpoints, storedLines_kept fl req.area req.lines,
        addObstacles_points _ req.obstacleInfo req.obstacles⟩
  | cleared =>
    intro area harea
    cases harea
  | lines id hr =>
    intro area harea
    rcases mem_modifyFirst harea with hmem | ⟨a, ha, rfl⟩
    · exact h area hmem
    · exact ⟨(h a ha).points, checkCoverageLines_kept fl hr, (h a ha).obstacles⟩
  | promoted i hpoints happlied =>
    intro area harea
    rcases mem_modify harea with hmem | ⟨a, ha, rfl⟩
    · exact h area hmem
    · refine ⟨(h a ha).points, (h a ha).lines, ?_⟩
      intro obs hobs
      rcases List.mem_append.1 hobs with hobs | hobs
      · exact (h a ha).obstacles obs hobs
      · rw [List.mem_singleton.1 hobs]
        exact hpoints
  | proposed i hpoints hpending hreport =>
    intro area harea
    rcases mem_modify harea with hmem | ⟨a, ha, rfl⟩
    · exact h area hmem
    · refine ⟨(h a ha).points, (h a ha).lines, ?_⟩
      intro obs hobs
      rcases List.mem_append.1 hobs with hobs | hobs
      · exact (h a ha).obstacles obs hobs
      · rw [List.mem_singleton.1 hobs]
        exact hpoints
  | accepted id name hany =>
    intro area harea
    rcases mem_modifyFirst harea with hmem | ⟨a, ha, rfl⟩
    · exact h area hmem
    · refine ⟨(h a ha).points, (h a ha).lines, ?_⟩
      intro obs hobs
      rcases mem_modifyFirst hobs with hobs | ⟨o, ho, rfl⟩
      · exact (h a ha).obstacles obs hobs
      · exact (h a ha).obstacles o ho
  | discarded id hany =>
    intro area harea
    rcases mem_modifyFirst harea with hmem | ⟨a, ha, rfl⟩
    · exact h area hmem
    · refine ⟨(h a ha).points, (h a ha).lines, ?_⟩
      intro obs hobs
      exact (h a ha).obstacles obs (mem_eraseFirst hobs)

/-! ## The corridors -/

variable {s : Str} {next n : Nat} {file : Str}

theorem trimAsciiWhitespace_notMem {c : Char} (h : c ∉ s) : c ∉ trimAsciiWhitespace s := by
  intro hmem
  unfold trimAsciiWhitespace at hmem
  rw [List.mem_reverse] at hmem
  have h1 := (List.dropWhile_suffix _).subset hmem
  rw [List.mem_reverse] at h1
  exact h ((List.dropWhile_suffix _).subset h1)

theorem dropWhile_of_head {p : Char → Bool} (h : ∀ c, s.head? = some c → p c = false) :
    s.dropWhile p = s := by
  cases s with
  | nil => rfl
  | cons c s => exact List.dropWhile_cons_of_neg (by rw [h c rfl]; exact Bool.false_ne_true)

theorem head_dropWhile {p : Char → Bool} {c : Char} (h : (s.dropWhile p).head? = some c) :
    p c = false := by
  induction s with
  | nil => cases h
  | cons a s ih =>
    rw [List.dropWhile_cons] at h
    split at h
    · exact ih h
    · rename_i hp
      cases h
      exact Bool.eq_false_iff.2 hp

/-- Neither end of a trimmed name is a blank. -/
theorem trimAsciiWhitespace_ends (s : Str) :
    (∀ c, (trimAsciiWhitespace s).head? = some c → isAsciiWhitespace c = false) ∧
      ∀ c, (trimAsciiWhitespace s).getLast? = some c → isAsciiWhitespace c = false := by
  unfold trimAsciiWhitespace
  refine ⟨?_, ?_⟩
  · intro c hc
    have hprefix : ((s.dropWhile isAsciiWhitespace).reverse.dropWhile isAsciiWhitespace).reverse <+:
        s.dropWhile isAsciiWhitespace := by
      rw [← List.reverse_suffix, List.reverse_reverse]
      exact List.dropWhile_suffix _
    obtain ⟨rest, hrest⟩ := hprefix
    refine head_dropWhile (s := s) ?_
    rw [← hrest, List.head?_append, hc]
    rfl
  · intro c hc
    rw [List.getLast?_reverse] at hc
    exact head_dropWhile hc

theorem trimAsciiWhitespace_of_ends (hhead : ∀ c, s.head? = some c → isAsciiWhitespace c = false)
    (hlast : ∀ c, s.getLast? = some c → isAsciiWhitespace c = false) :
    trimAsciiWhitespace s = s := by
  unfold trimAsciiWhitespace
  rw [dropWhile_of_head hhead, dropWhile_of_head, List.reverse_reverse]
  intro c hc
  rw [List.head?_reverse] at hc
  exact hlast c hc

theorem trimAsciiWhitespace_trim (s : Str) :
    trimAsciiWhitespace (trimAsciiWhitespace s) = trimAsciiWhitespace s :=
  trimAsciiWhitespace_of_ends (trimAsciiWhitespace_ends s).1 (trimAsciiWhitespace_ends s).2

theorem storedCorridor_shaped {c : LidarIgnoreCorridor F D}
    (h : corridorRejection fl (normalised c) = none) (id : Nat) :
    (storedCorridor fl c id).Shaped := by
  unfold corridorRejection at h
  split_ifs at h with hpoints _ hname _ _
  refine ⟨?_, trimAsciiWhitespace_trim c.name, Nat.le_of_not_lt hpoints⟩
  intro hmem
  refine hname (List.any_eq_true.2 ⟨'\n', hmem, ?_⟩)
  decide

theorem stageReplace_shaped {operation : Str} {corridors : List (LidarIgnoreCorridor F D)}
    (hbound : σ.nextLidarCorridorId ≤ 4294967296)
    (h : stageReplace fl σ operation corridors = .ok (candidate, next)) :
    CorridorShape candidate next := by
  obtain ⟨⟨past, -, m⟩, hbelow, hvalid⟩ := stageReplace_ok fl hbound h
  refine ⟨?_, hbelow, m.bound⟩
  intro e he
  obtain ⟨c, hc, id, rfl⟩ := m.stored e he
  exact storedCorridor_shaped fl (hvalid c hc) id

theorem stageAdd_shaped {corridor : LidarIgnoreCorridor F D}
    (hσ : CorridorShape σ.lidarIgnoreCorridors σ.nextLidarCorridorId)
    (h : stageAdd fl σ corridor = some (candidate, next, n)) : CorridorShape candidate next := by
  obtain ⟨hvalid, hassign, rfl, -, hids⟩ := stageAdd_some fl hσ.bound h
  obtain ⟨hlt, hbound, hle⟩ := assignCorridorId_bounds hσ.bound hassign
  refine ⟨List.forall_mem_append.2 ⟨hσ.shaped, List.forall_mem_singleton.2
    (storedCorridor_shaped fl hvalid n)⟩, ?_, hbound⟩
  rw [hids]
  exact (hσ.below.mono hle).append (Fresh.Below.cons hlt (Fresh.Below.nil _))

theorem Edit.staged_shaped {e : Edit F D}
    (hσ : CorridorShape σ.lidarIgnoreCorridors σ.nextLidarCorridorId)
    (h : e.staged fl σ = some (candidate, next)) : CorridorShape candidate next := by
  refine Edit.staged_ways fl (P := fun _ => CorridorShape candidate next)
    (fun corridor n h => stageAdd_shaped fl hσ h)
    (fun operation corridors h => stageReplace_shaped fl hσ.bound h) ?_ h
  rintro rfl rfl
  exact ⟨fun c hc => absurd hc List.not_mem_nil, Fresh.Below.nil _, hσ.bound⟩

/-! ## A load of any file -/

theorem newline_notMem_lines (s : Str) : ∀ line ∈ Text.lines s, '\n' ∉ line := by
  induction s with
  | nil =>
    intro line hline
    cases hline
  | cons c s ih =>
    intro line hline
    unfold Text.lines at hline
    split at hline
    · rcases List.mem_cons.1 hline with rfl | hline
      · exact List.not_mem_nil
      · exact ih line hline
    · rename_i hc
      split at hline
      · rw [List.mem_singleton.1 hline]
        intro hmem
        exact hc (List.mem_singleton.1 hmem).symm
      · rename_i first rest hlines
        rcases List.mem_cons.1 hline with rfl | hline
        · intro hmem
          rcases List.mem_cons.1 hmem with heq | hmem
          · exact hc heq.symm
          · exact ih first (by rw [hlines]; exact List.mem_cons_self) hmem
        · exact ih line (by rw [hlines]; exact List.mem_cons_of_mem first hline)

theorem parseLine_value {line : Str} {entry : Str × Str} (h : parseLine line = some entry)
    (hline : '\n' ∉ line) : '\n' ∉ entry.2 := by
  unfold parseLine at h
  dsimp only at h
  have hstrip : '\n' ∉ (if line.getLast? == some '\r' then line.dropLast else line) := by
    split
    · exact fun hmem => hline ((List.dropLast_sublist line).subset hmem)
    · exact hline
  generalize (if line.getLast? == some '\r' then line.dropLast else line) = stripped at h hstrip
  split at h
  · cases h
  split at h
  · cases h
    intro hmem
    have h1 := (List.dropWhile_suffix _).subset hmem
    have h2 := List.mem_of_mem_drop h1
    exact hstrip ((List.dropWhile_suffix _).subset h2)
  · cases h

theorem last_mem {K V : Type} [DecidableEq K] {k : K} {xs : List (K × V)} {v : V}
    (h : Lookup.last k xs = some v) : (k, v) ∈ xs := by
  induction xs with
  | nil => cases h
  | cons x xs ih =>
    rw [Lookup.last_cons] at h
    cases hlast : Lookup.last k xs with
    | some w =>
      rw [hlast] at h
      cases h
      exact List.mem_cons_of_mem x (ih hlast)
    | none =>
      rw [hlast, Option.none_or] at h
      split at h
      · rename_i hx
        cases h
        rw [← hx]
        exact List.mem_cons_self
      · cases h

theorem newline_notMem_getStr (file key : Str) : '\n' ∉ getStr (keyValues file) key := by
  unfold getStr
  cases hfind : (keyValues file).find key with
  | none => exact List.not_mem_nil
  | some value =>
    obtain ⟨line, hline, hparse⟩ := List.mem_filterMap.1 (last_mem hfind)
    exact parseLine_value hparse (newline_notMem_lines file line hline)

theorem loadCorridor_shaped {i : Nat} {c : LidarIgnoreCorridorEntry F D}
    (h : loadCorridor fl (keyValues file) i = some (some c)) : c.Shaped := by
  unfold loadCorridor at h
  obtain ⟨polyline, -, h⟩ := Option.bind_eq_some_iff.1 h
  split at h
  · cases h
  · rename_i hpoints
    obtain ⟨width, -, h⟩ := Option.bind_eq_some_iff.1 h
    obtain ⟨id, -, h⟩ := Option.map_eq_some_iff.1 h
    cases h
    exact ⟨trimAsciiWhitespace_notMem (newline_notMem_getStr file _), trimAsciiWhitespace_trim _,
      Nat.le_of_not_lt hpoints⟩

theorem loadCorridors_shaped {i : Nat} {corridors : List (LidarIgnoreCorridorEntry F D)}
    (h : loadCorridors fl (keyValues file) n i = some corridors) : ∀ c ∈ corridors, c.Shaped := by
  induction n generalizing i corridors with
  | zero =>
    cases h
    intro c hc
    cases hc
  | succ n ih =>
    unfold loadCorridors at h
    obtain ⟨entry, hentry, h⟩ := Option.bind_eq_some_iff.1 h
    obtain ⟨rest, hrest, rfl⟩ := Option.map_eq_some_iff.1 h
    intro c hc
    rcases List.mem_append.1 hc with hc | hc
    · rw [Option.mem_toList] at hc
      rw [hc] at hentry
      exact loadCorridor_shaped fl hentry
    · exact ih hrest c hc

theorem getUnsigned_le {key : Str} {dflt maximum : Nat}
    (h : getUnsigned kv key dflt maximum = some n) (hdflt : dflt ≤ maximum) : n ≤ maximum := by
  unfold getUnsigned at h
  split at h
  · cases h
    exact hdflt
  · dsimp only at h
    split at h
    · cases h
    · rename_i hno
      cases h
      simp only [Bool.or_eq_true, decide_eq_true_eq, not_or] at hno
      exact Nat.le_of_not_lt hno.2

theorem kvCorridors_shape {r : List (LidarIgnoreCorridorEntry F D) × Nat}
    (h : kvCorridors fl (keyValues file) = some r) : CorridorShape r.1 r.2 := by
  unfold kvCorridors at h
  obtain ⟨count, -, h⟩ := Option.bind_eq_some_iff.1 h
  obtain ⟨corridors, hcorridors, h⟩ := Option.bind_eq_some_iff.1 h
  obtain ⟨next, hnext, rfl⟩ := Option.map_eq_some_iff.1 h
  refine ⟨loadCorridors_shaped fl hcorridors, Fresh.below_past next _, ?_⟩
  refine Fresh.past_le (getUnsigned_le hnext (by decide)) ?_
  intro n hn
  obtain ⟨c, -, rfl⟩ := List.mem_map.1 hn
  exact c.id.toNat_lt

theorem loadObstacles_points {pre : Str} {j : Nat} {entries : List (ObstacleEntry F)}
    (h : ∀ obs ∈ entries, 3 ≤ obs.polygon.length) {obstacles : List (ObstacleEntry F)}
    (hload : (loadObstacles fl kv pre n j σ entries).2 = some obstacles) :
    ∀ obs ∈ obstacles, 3 ≤ obs.polygon.length := by
  induction n generalizing j σ entries with
  | zero =>
    cases hload
    exact h
  | succ n ih =>
    unfold loadObstacles at hload
    split at hload
    · cases hload
    · split at hload
      · rename_i hnew
        refine ih ?_ hload
        intro obs hobs
        rcases List.mem_append.1 hobs with hobs | hobs
        · exact h obs hobs
        · rw [List.mem_singleton.1 hobs]
          rw [Bool.and_eq_true, decide_eq_true_eq] at hnew
          exact hnew.1
      · exact ih h hload

theorem kvArea_lines {i : Nat} {r : AreaEntry F D × Nat} (h : kvArea fl kv i = some r) :
    r.1.coverageLines.Kept fl := by
  unfold kvArea at h
  obtain ⟨polygon, -, h⟩ := Option.bind_eq_some_iff.1 h
  obtain ⟨navigation, -, h⟩ := Option.bind_eq_some_iff.1 h
  obtain ⟨id, -, h⟩ := Option.bind_eq_some_iff.1 h
  obtain ⟨lines, -, h⟩ := Option.bind_eq_some_iff.1 h
  obtain ⟨count, -, rfl⟩ := Option.map_eq_some_iff.1 h
  exact storedLines_kept fl polygon lines

/-- A load goes on with the areas; the rest of the state only gets other obstacle ids. -/
theorem loadAreas_frame (kv : KeyValues) (n i : Nat) (σ : MapServer F D) :
    ∃ m areas, (loadAreas fl kv n i σ).1 =
      { σ with nextObstacleId := m, areas := σ.areas ++ areas } ∧ ∀ area ∈ areas, area.Shaped fl := by
  have hstop : ∀ (σ : MapServer F D) (m : UInt32), ∃ m' areas, { σ with nextObstacleId := m } =
      { σ with nextObstacleId := m', areas := σ.areas ++ areas } ∧
        ∀ area ∈ areas, area.Shaped fl := by
    intro σ m
    exact ⟨m, [], by rw [List.append_nil], fun area harea => absurd harea List.not_mem_nil⟩
  induction n generalizing i σ with
  | zero => exact hstop σ σ.nextObstacleId
  | succ n ih =>
    unfold loadAreas
    split
    · exact hstop σ σ.nextObstacleId
    · rename_i entry count hentry
      obtain ⟨m, hm⟩ := loadObstacles_frame fl kv (indexed "area_" i "") count 0 σ []
      split
      · rename_i τ hτ
        rw [hτ] at hm
        dsimp only at hm
        subst hm
        exact hstop σ m
      · rename_i τ obstacles hτ
        have hpoints := loadObstacles_points fl
          (fun obs hobs => absurd hobs List.not_mem_nil) (by rw [hτ])
        rw [hτ] at hm
        dsimp only at hm
        subst hm
        split
        · rename_i hthree
          obtain ⟨k, areas, hareas, hshaped⟩ := ih (i + 1)
            { σ with
              nextObstacleId := m
              areas := σ.areas ++ [{ entry with obstacles := obstacles }] }
          refine ⟨k, { entry with obstacles := obstacles } :: areas, ?_, ?_⟩
          · rw [hareas, List.append_assoc]
            rfl
          · intro area harea
            rcases List.mem_cons.1 harea with rfl | harea
            · exact ⟨hthree, kvArea_lines fl hentry, hpoints⟩
            · exact hshaped area harea
        · exact ih (i + 1) { σ with nextObstacleId := m }

theorem mintAreaIds_shaped {areas : List (AreaEntry F D)} (h : ∀ area ∈ areas, area.Shaped fl)
    (next : UInt32) : ∀ area ∈ (mintAreaIds next areas).1, area.Shaped fl := by
  induction areas generalizing next with
  | nil =>
    intro area harea
    cases harea
  | cons first areas ih =>
    have hfirst := h first List.mem_cons_self
    have hrest := fun next => ih (fun area ha => h area (List.mem_cons_of_mem first ha)) next
    unfold mintAreaIds
    split
    · intro area harea
      rcases List.mem_cons.1 harea with rfl | harea
      · exact ⟨hfirst.points, hfirst.lines, hfirst.obstacles⟩
      · exact hrest (next + 1) area harea
    · intro area harea
      rcases List.mem_cons.1 harea with rfl | harea
      · exact hfirst
      · exact hrest next area harea

theorem Shape.reproject (h : Shape fl σ) (here there : D × D) :
    Shape fl (reproject fl here there σ) := by
  have hpoly : ∀ polygon : Polygon F,
      (reprojectPolygon fl here there polygon).length = polygon.length := fun _ => List.length_map _
  refine ⟨?_, ?_, ?_, h.corridors.bound⟩
  · intro area harea
    obtain ⟨a, ha, rfl⟩ := List.mem_map.1 harea
    have hshaped := h.areas a ha
    refine ⟨?_, ?_, ?_⟩
    · show 3 ≤ (reprojectPolygon fl here there a.polygon).length
      rw [hpoly]
      exact hshaped.points
    · show (reprojectLines fl here there a.coverageLines).Kept fl
      unfold reprojectLines
      split
      · rename_i hstart
        refine ⟨hshaped.lines.mowAngleDeg, hshaped.lines.ringDirection, ?_⟩
        intro hno
        exact absurd (hstart.symm.trans hno) (by decide)
      · exact hshaped.lines
    · intro obs hobs
      obtain ⟨o, ho, rfl⟩ := List.mem_map.1 hobs
      show 3 ≤ (reprojectPolygon fl here there o.polygon).length
      rw [hpoly]
      exact hshaped.obstacles o ho
  · intro c hc
    obtain ⟨c', hc', rfl⟩ := List.mem_map.1 hc
    have hshaped := h.corridors.shaped c' hc'
    refine ⟨hshaped.name, hshaped.trimmed, ?_⟩
    show 2 ≤ (reprojectPolygon fl here there c'.polyline).length
    rw [hpoly]
    exact hshaped.points
  · show Fresh.Below (idsOf (σ.lidarIgnoreCorridors.map _)) σ.nextLidarCorridorId
    unfold idsOf
    rw [List.map_map]
    exact h.corridors.below

theorem Shape.saveBestEffort (h : Shape fl σ) (disk : Disk) :
    Shape fl (saveBestEffort fl σ disk) := by
  obtain ⟨file, hfile⟩ := saveBestEffort_frame fl σ disk
  rw [hfile]
  exact ⟨h.areas, h.corridors⟩

theorem Shape.migrateAreaIds {τ : MapServer F D} (h : Shape fl σ) {disk : Disk}
    (hτ : migrateAreaIds fl kv σ disk = some τ) : Shape fl τ := by
  unfold Map.migrateAreaIds at hτ
  obtain ⟨next, -, rfl⟩ := Option.map_eq_some_iff.1 hτ
  dsimp only
  split
  · refine Shape.saveBestEffort fl ?_ disk
    exact ⟨mintAreaIds_shaped fl h.areas _, h.corridors⟩
  · exact ⟨h.areas, h.corridors⟩

theorem Shape.migrateAreasDatum (h : Shape fl σ) (stamp : Option (D × D)) (disk : Disk) :
    Shape fl (migrateAreasDatum fl stamp σ disk) := by
  unfold Map.migrateAreasDatum
  dsimp only
  split
  · exact h
  · split
    · exact h.saveBestEffort fl disk
    · split
      · exact h.saveBestEffort fl disk
      split
      · exact h
      · exact (h.reproject fl _ _).saveBestEffort fl disk

theorem Shape.resizeMapToAreas (h : Shape fl σ) : Shape fl (resizeMapToAreas fl σ) := by
  rw [resizeMapToAreas_frame]
  exact ⟨h.areas, h.corridors⟩

theorem Shape.loadAreasFromFile (h : Shape fl σ) (idDisk datumDisk : Disk) :
    Shape fl (loadAreasFromFile fl σ idDisk datumDisk).1 := by
  have hnil : ∀ area ∈ ([] : List (AreaEntry F D)), area.Shaped fl :=
    fun area harea => absurd harea List.not_mem_nil
  unfold Map.loadAreasFromFile
  split
  · exact h
  · rename_i file _
    unfold loadKeyValues
    split
    · exact h
    · rename_i corridors hcorridors
      dsimp only
      split
      · exact ⟨hnil, h.corridors⟩
      · rename_i count _
        obtain ⟨m, areas, hareas, hshaped⟩ := loadAreas_frame fl (keyValues file) count.toNat 0
          { σ with areas := [], obstaclePolygons := [] }
        split
        · rename_i τ hτ
          rw [hτ] at hareas
          dsimp only at hareas
          subst hareas
          exact ⟨hshaped, h.corridors⟩
        · rename_i τ hτ
          rw [hτ] at hareas
          dsimp only at hareas
          subst hareas
          have hread : Shape fl
              { σ with
                obstaclePolygons := []
                nextObstacleId := m
                areas := [] ++ areas
                lidarIgnoreCorridors := corridors.1
                nextLidarCorridorId := corridors.2 } :=
            ⟨hshaped, kvCorridors_shape fl hcorridors⟩
          unfold finishLoad
          split
          · exact hread
          · rename_i ρ hρ
            have hmigrated := hread.migrateAreaIds fl hρ
            split
            · exact hmigrated
            · rename_i stamp _
              have hfit := (hmigrated.migrateAreasDatum fl stamp datumDisk).resizeMapToAreas fl
              exact ⟨hfit.areas, hfit.corridors⟩

/-! ## Every operation -/

def Op.edits : Op F D → Bool
  | .corridors .. => true
  | _ => false

theorem perform_corridors (σ : MapServer F D) {op : Op F D} (hreads : op.reads = false)
    (hedits : op.edits = false) :
    (perform fl σ op).1.lidarIgnoreCorridors = σ.lidarIgnoreCorridors ∧
      (perform fl σ op).1.nextLidarCorridorId = σ.nextLidarCorridorId := by
  have hpersist : ∀ (τ : MapServer F D) (disk : Disk),
      (persistAreasBestEffort fl τ disk).lidarIgnoreCorridors = τ.lidarIgnoreCorridors ∧
        (persistAreasBestEffort fl τ disk).nextLidarCorridorId = τ.nextLidarCorridorId := by
    intro τ disk
    obtain ⟨file, hfile⟩ := persistAreasBestEffort_frame fl τ disk
    rw [hfile]
    exact ⟨rfl, rfl⟩
  cases op with
  | addArea req isNavigationArea disk =>
    show (onAddArea fl σ req isNavigationArea disk).1.lidarIgnoreCorridors = _ ∧
      (onAddArea fl σ req isNavigationArea disk).1.nextLidarCorridorId = _
    unfold onAddArea
    split
    · exact ⟨rfl, rfl⟩
    · obtain ⟨n, hn⟩ := addObstacles_frame
        { σ with nextAreaId := (assignAreaId σ.areas σ.nextAreaId req.id).2 } req.obstacleInfo
        req.obstacles
      dsimp only
      rw [resizeMapToAreas_frame]
      have h := hpersist { storeArea fl σ req isNavigationArea with
        grid := { (resizeMapToAreas fl (storeArea fl σ req isNavigationArea)).grid with
          classificationDirty := true } } disk
      refine ⟨h.1.trans ?_, h.2.trans ?_⟩
      · show (storeArea fl σ req isNavigationArea).lidarIgnoreCorridors = _
        unfold storeArea
        dsimp only
        rw [hn]
      · show (storeArea fl σ req isNavigationArea).nextLidarCorridorId = _
        unfold storeArea
        dsimp only
        rw [hn]
  | clearMap => exact ⟨rfl, rfl⟩
  | setAreaCoverageLines id lines disk =>
    show (onSetAreaCoverageLines fl σ id lines disk).1.lidarIgnoreCorridors = _ ∧
      (onSetAreaCoverageLines fl σ id lines disk).1.nextLidarCorridorId = _
    unfold onSetAreaCoverageLines
    split
    · exact ⟨rfl, rfl⟩
    · dsimp only
      split
      · exact ⟨rfl, rfl⟩
      · split
        · exact ⟨rfl, rfl⟩
        split
        · exact ⟨rfl, rfl⟩
        split
        · exact ⟨rfl, rfl⟩
        · split <;> exact ⟨rfl, rfl⟩
  | promoteObstacle req disk =>
    show (onPromoteObstacle fl σ req disk).1.lidarIgnoreCorridors = _ ∧
      (onPromoteObstacle fl σ req disk).1.nextLidarCorridorId = _
    unfold onPromoteObstacle
    split
    · unfold promotePending
      split
      · exact ⟨rfl, rfl⟩
      · have h : (acceptPendingObstacle fl σ req.pendingId req.name).1.lidarIgnoreCorridors =
              σ.lidarIgnoreCorridors ∧
            (acceptPendingObstacle fl σ req.pendingId req.name).1.nextLidarCorridorId =
              σ.nextLidarCorridorId := by
          unfold acceptPendingObstacle
          split
          · exact ⟨rfl, rfl⟩
          · split <;> exact ⟨rfl, rfl⟩
        split
        · exact ⟨rfl, rfl⟩
        · rename_i τ i hτ
          rw [hτ] at h
          exact ⟨(hpersist τ disk).1.trans h.1, (hpersist τ disk).2.trans h.2⟩
    · split
      · exact ⟨rfl, rfl⟩
      · rename_i polygon source _
        have h : (applyPromotedObstacle fl σ req.areaIndex.toNat polygon req.name
              source).1.lidarIgnoreCorridors = σ.lidarIgnoreCorridors ∧
            (applyPromotedObstacle fl σ req.areaIndex.toNat polygon req.name
              source).1.nextLidarCorridorId = σ.nextLidarCorridorId := by
          unfold applyPromotedObstacle
          split
          · exact ⟨rfl, rfl⟩
          · split
            · exact ⟨rfl, rfl⟩
            split
            · exact ⟨rfl, rfl⟩
            · dsimp only
              split <;> exact ⟨rfl, rfl⟩
        split
        · exact ⟨rfl, rfl⟩
        · rename_i τ hτ
          rw [hτ] at h
          exact ⟨(hpersist τ disk).1.trans h.1, (hpersist τ disk).2.trans h.2⟩
  | discardObstacle obstacleId =>
    show (discardPendingObstacle σ obstacleId).1.lidarIgnoreCorridors = _ ∧
      (discardPendingObstacle σ obstacleId).1.nextLidarCorridorId = _
    unfold discardPendingObstacle
    split
    · exact ⟨rfl, rfl⟩
    · split <;> exact ⟨rfl, rfl⟩
  | corridors e disk publishes => cases hedits
  | saveAreas disk =>
    show (onSaveAreas fl σ disk).1.lidarIgnoreCorridors = _ ∧
      (onSaveAreas fl σ disk).1.nextLidarCorridorId = _
    unfold onSaveAreas
    split
    · exact ⟨rfl, rfl⟩
    · split <;> exact ⟨rfl, rfl⟩
  | loadAreas idDisk datumDisk => cases hreads
  | digEvent msg =>
    show (onDigEvent fl σ msg).lidarIgnoreCorridors = _ ∧
      (onDigEvent fl σ msg).nextLidarCorridorId = _
    unfold onDigEvent
    split
    · exact ⟨rfl, rfl⟩
    · dsimp only
      split
      · exact ⟨rfl, rfl⟩
      · unfold addObstacleProposal
        split
        · exact ⟨rfl, rfl⟩
        · split
          · exact ⟨rfl, rfl⟩
          · split <;> exact ⟨rfl, rfl⟩
  | trackerSnapshot obstacles => exact ⟨rfl, rfl⟩
  | robotPose pose => exact ⟨rfl, rfl⟩
  | publishTimer publishes =>
    show (onPublishTimer fl σ publishes).lidarIgnoreCorridors = _ ∧
      (onPublishTimer fl σ publishes).nextLidarCorridorId = _
    unfold onPublishTimer ensureClassificationCurrent
    split <;> split <;> exact ⟨rfl, rfl⟩
  | restart grid dock corridorServerInstanceId idDisk datumDisk => cases hreads

theorem Shape.boot (settings : Settings D) (grid : GridMap D) (dock : Option (DockGeometry F))
    (corridorServerInstanceId : Str) (file : Option Str) :
    Shape fl (MapServer.boot settings grid dock corridorServerInstanceId file) :=
  ⟨fun area harea => absurd harea List.not_mem_nil,
    fun c hc => absurd hc List.not_mem_nil, Fresh.Below.nil 1, (by decide : 1 ≤ 4294967296)⟩

theorem Shape.perform (h : Shape fl σ) (op : Op F D) : Shape fl (perform fl σ op).1 := by
  cases hreads : op.reads with
  | true =>
    cases op with
    | loadAreas idDisk datumDisk =>
      have hload := h.loadAreasFromFile fl idDisk datumDisk
      show Shape fl (onLoadAreas fl σ idDisk datumDisk).1
      unfold onLoadAreas
      split
      · exact h
      · split
        · rename_i τ hτ
          rw [hτ] at hload
          exact hload
        · rename_i τ hτ
          rw [hτ] at hload
          exact ⟨hload.areas, hload.corridors⟩
    | restart grid dock corridorServerInstanceId idDisk datumDisk =>
      have hboot := Shape.boot fl σ.settings grid dock corridorServerInstanceId σ.file
      show Shape fl (Map.resizeMapToAreas fl _)
      refine Shape.resizeMapToAreas fl ?_
      split
      · exact hboot
      · exact hboot.loadAreasFromFile fl idDisk datumDisk
    | _ => cases hreads
  | false =>
    refine ⟨(perform_change fl σ hreads).shaped fl h.areas, ?_⟩
    cases hedits : op.edits with
    | true =>
      cases op with
      | corridors e disk publishes =>
        show CorridorShape (e.perform fl σ disk publishes).1.lidarIgnoreCorridors
          (e.perform fl σ disk publishes).1.nextLidarCorridorId
        rcases e.perform_state fl σ disk publishes with heq | ⟨candidate, next, file, hstaged, heq⟩
        · rw [heq]
          exact h.corridors
        · rw [heq]
          exact e.staged_shaped fl h.corridors hstaged
      | _ => cases hedits
    | false =>
      obtain ⟨hlist, hnext⟩ := perform_corridors fl σ hreads hedits
      rw [hlist, hnext]
      exact h.corridors

end Shape

end Map
end Mowgli
