import Mowgli.Map.Keys

/-!
# Entries — the values areas.dat holds

The entries behind the lines of a whole map, and what the last value of each key is.
-/

namespace Mowgli
namespace Map

section Entries

variable {F D : Type} (fl : Floats F D)

def obstacleEntries (i j : Nat) (obs : ObstacleEntry F) : List (Key × Str) :=
  [(.obstacle i j .polygon, polygonToString fl obs.polygon 6)] ++
    (if obs.name.isEmpty then [] else [(.obstacle i j .name, obs.name)]) ++
    if obs.source == SOURCE_USER then []
    else [(.obstacle i j .source, Text.decimal obs.source.toNat)]

def lineEntries (i : Nat) (lines : AreaCoverageLines D) : List (Key × Str) :=
  (if lines.hasMowAngle then [(.area i .mowAngleDeg, fl.showDouble 6 lines.mowAngleDeg)] else []) ++
  (if lines.hasRingDirection then
    [(.area i .ringDirection, Text.decimal lines.ringDirection.toNat)] else []) ++
  if lines.hasStartPoint then
    [(.area i .startX, fl.showFixed 3 lines.startX), (.area i .startY, fl.showFixed 3 lines.startY)]
  else []

def areaEntries (i : Nat) (area : AreaEntry F D) : List (Key × Str) :=
  [(.area i .name, area.name), (.area i .polygon, polygonToString fl area.polygon 6),
    (.area i .isNavigation, if area.isNavigationArea then ['1'] else ['0']),
    (.area i .id, Text.decimal area.id.toNat)] ++
  lineEntries fl i area.coverageLines ++
  [(.area i .obstacleCount, Text.decimal (applied area.obstacles).length)] ++
  Lookup.indexed (obstacleEntries fl i) 0 (applied area.obstacles)

def corridorEntries (i : Nat) (corridor : LidarIgnoreCorridorEntry F D) : List (Key × Str) :=
  [(.corridor i .name, corridor.name),
    (.corridor i .polyline, polygonToString fl corridor.polyline 9),
    (.corridor i .widthM, fl.showDouble 17 corridor.widthM),
    (.corridor i .id, Text.decimal corridor.id.toNat)]

def datumEntries (lat lon : D) : List (Key × Str) :=
  if isDatumSet fl lat lon then
    [(.datumLat, fl.showFixed 9 lat), (.datumLon, fl.showFixed 9 lon)]
  else []

def fileEntries (σ : MapServer F D) (corridors : List (LidarIgnoreCorridorEntry F D))
    (nextCorridorId : Nat) : List (Key × Str) :=
  datumEntries fl σ.settings.datumLat σ.settings.datumLon ++
  [(.areaCount, Text.decimal σ.areas.length), (.nextAreaId, Text.decimal σ.nextAreaId.toNat)] ++
  Lookup.indexed (areaEntries fl) 0 σ.areas ++
  [(.corridorCount, Text.decimal corridors.length),
    (.nextCorridorId, Text.decimal nextCorridorId)] ++
  Lookup.indexed (corridorEntries fl) 0 corridors

/-! ## The lines stand for the entries -/

/-- The text of a number: something, and nothing that separates. -/
def isNumeral (s : Str) : Bool :=
  !s.isEmpty && s.all fun c => !("\n\r\t ,;".toList.contains c)

/-- How `operator<<` prints numbers. -/
structure Floats.Prints (fl : Floats F D) : Prop where
  single : ∀ p x, isNumeral (fl.showSingle p x) = true
  double : ∀ p x, isNumeral (fl.showDouble p x) = true
  fixed : ∀ p x, isNumeral (fl.showFixed p x) = true

theorem isNumeral_notMem {s : Str} (h : isNumeral s = true) {c : Char}
    (hc : c ∈ "\n\r\t ,;".toList) : c ∉ s := by
  intro hmem
  unfold isNumeral at h
  rw [Bool.and_eq_true] at h
  have h' := List.all_eq_true.1 h.2 c hmem
  rw [List.contains_iff_mem.2 hc] at h'
  cases h'

theorem isNumeral_ne_nil {s : Str} (h : isNumeral s = true) : s ≠ [] := by
  rintro rfl
  cases h

theorem newline_notMem_decimal (n : Nat) : '\n' ∉ Text.decimal n :=
  Text.not_mem_decimal (by decide)

theorem notMem_joined {sep c : Char} {ss : List Str} (hsep : c ≠ sep)
    (h : ∀ s ∈ ss, c ∉ s) : c ∉ Text.joined sep ss := by
  induction ss with
  | nil => exact List.not_mem_nil
  | cons s rest ih =>
    have hs := h s List.mem_cons_self
    have hrest := ih fun t ht => h t (List.mem_cons_of_mem s ht)
    cases rest with
    | nil => exact hs
    | cons t rest =>
      show c ∉ s ++ sep :: Text.joined sep (t :: rest)
      simp [hs, hsep, hrest]

theorem notMem_polygonToString (hp : fl.Prints) (poly : Polygon F) (precision : Nat) {c : Char}
    (hc : c ∈ "\n\r\t ".toList) : c ∉ polygonToString fl poly precision := by
  have hmem : c ∈ "\n\r\t ,;".toList := List.mem_append_left ",;".toList hc
  refine notMem_joined ?_ ?_
  · rintro rfl
    exact absurd hc (by decide)
  · intro s hs
    obtain ⟨p, -, rfl⟩ := List.mem_map.1 hs
    have hx := isNumeral_notMem (hp.single precision p.x) hmem
    have hy := isNumeral_notMem (hp.single precision p.y) hmem
    have hcomma : c ≠ ',' := by
      rintro rfl
      exact absurd hc (by decide)
    simp [hx, hy, hcomma]

/-- No name of an area breaks a line. -/
def AreaEntry.Named (area : AreaEntry F D) : Prop :=
  '\n' ∉ area.name ∧ ∀ obs ∈ applied area.obstacles, '\n' ∉ obs.name

theorem stands_obstacle (hp : fl.Prints) (i j : Nat) {obs : ObstacleEntry F}
    (h : '\n' ∉ obs.name) :
    Stands (obstacleLines fl (indexed "area_" i "") j obs) (obstacleEntries fl i j obs) := by
  have hkey : indexed "area_" i "" ++ indexed "_obstacle_" j "" =
      (Key.obstacle i j .polygon).text := (List.append_nil _).symm
  unfold obstacleLines obstacleEntries
  dsimp only
  refine Stands.append (Stands.append ?_ ?_) ?_
  · rw [hkey]
    exact .pair (notMem_polygonToString fl hp obs.polygon 6 (by decide)) .nil
  · refine .ite (fun _ => .nil) fun _ => ?_
    exact .pair (k := .obstacle i j .name) h .nil
  · refine .ite (fun _ => .nil) fun _ => ?_
    exact .pair (k := .obstacle i j .source) (newline_notMem_decimal _) .nil

theorem stands_lines (hp : fl.Prints) (i : Nat) (lines : AreaCoverageLines D) :
    Stands (coverageLines fl (indexed "area_" i) lines) (lineEntries fl i lines) := by
  have hn : '\n' ∈ "\n\r\t ,;".toList := by decide
  unfold coverageLines lineEntries
  refine Stands.append (Stands.append ?_ ?_) ?_
  · refine .ite (fun _ => ?_) fun _ => .nil
    exact .pair (k := .area i .mowAngleDeg) (isNumeral_notMem (hp.double 6 _) hn) .nil
  · refine .ite (fun _ => ?_) fun _ => .nil
    exact .pair (k := .area i .ringDirection) (newline_notMem_decimal _) .nil
  · refine .ite (fun _ => ?_) fun _ => .nil
    refine .pair (k := .area i .startX) (isNumeral_notMem (hp.fixed 3 _) hn) ?_
    exact .pair (k := .area i .startY) (isNumeral_notMem (hp.fixed 3 _) hn) .nil

theorem stands_area (hp : fl.Prints) (i : Nat) {area : AreaEntry F D} (h : area.Named) :
    Stands (areaLines fl i area) (areaEntries fl i area) := by
  unfold areaLines areaEntries
  dsimp only
  refine Stands.append_none (Stands.append (Stands.append (Stands.append ?_ ?_) ?_) ?_) ?_
  · refine .pair (k := .area i .name) h.1 ?_
    refine .pair (k := .area i .polygon) (notMem_polygonToString fl hp _ 6 (by decide)) ?_
    refine .pair (k := .area i .isNavigation) ?_ ?_
    · split <;> decide
    exact .pair (k := .area i .id) (newline_notMem_decimal _) .nil
  · exact stands_lines fl hp i area.coverageLines
  · exact .pair (k := .area i .obstacleCount) (newline_notMem_decimal _) .nil
  · exact .indexed (fun j obs hobs => stands_obstacle fl hp i j (h.2 obs hobs)) 0
  · exact .blank .nil

theorem stands_corridor (hp : fl.Prints) (i : Nat) {corridor : LidarIgnoreCorridorEntry F D}
    (h : '\n' ∉ corridor.name) :
    Stands (corridorLines fl i corridor) (corridorEntries fl i corridor) := by
  refine .pair (k := .corridor i .name) h ?_
  refine .pair (k := .corridor i .polyline) (notMem_polygonToString fl hp _ 9 (by decide)) ?_
  refine .pair (k := .corridor i .widthM) (isNumeral_notMem (hp.double 17 _) (by decide)) ?_
  exact .pair (k := .corridor i .id) (newline_notMem_decimal _) .nil

theorem stands_datum (hp : fl.Prints) (lat lon : D) :
    Stands (datumLines fl lat lon) (datumEntries fl lat lon) := by
  refine .ite (fun _ => ?_) fun _ => .nil
  refine .pair (k := .datumLat) (isNumeral_notMem (hp.fixed 9 _) (by decide)) ?_
  refine .pair (k := .datumLon) (isNumeral_notMem (hp.fixed 9 _) (by decide)) ?_
  exact .blank .nil

theorem stands_file (hp : fl.Prints) {σ : MapServer F D}
    {corridors : List (LidarIgnoreCorridorEntry F D)} (next : Nat)
    (hareas : ∀ area ∈ σ.areas, area.Named) (hcorridors : ∀ c ∈ corridors, '\n' ∉ c.name) :
    Stands (fileLines fl σ corridors next) (fileEntries fl σ corridors next) := by
  unfold fileLines fileEntries
  refine Stands.append_none (Stands.append (Stands.append (Stands.append (Stands.append
    (Stands.none_append ?_ ?_) ?_) ?_) ?_) ?_) ?_
  · exact .text (by decide) (by decide) (.text (by decide) (by decide) (.blank .nil))
  · exact stands_datum fl hp _ _
  · refine .pair (k := .areaCount) (newline_notMem_decimal _) ?_
    exact .pair (k := .nextAreaId) (newline_notMem_decimal _) (.blank .nil)
  · exact .indexed (fun i area ha => stands_area fl hp i (hareas area ha)) 0
  · refine .pair (k := .corridorCount) (newline_notMem_decimal _) ?_
    exact .pair (k := .nextCorridorId) (newline_notMem_decimal _) (.blank .nil)
  · exact .indexed (fun i c hc => stands_corridor fl hp i (hcorridors c hc)) 0
  · cases corridors with
    | nil => exact .nil
    | cons c cs => exact .blank .nil

/-! ## The value of each key -/

def Key.areaOwner : Key → Option Nat
  | .area i _ => some i
  | .obstacle i _ _ => some i
  | _ => none

def Key.obstacleOwner : Key → Option Nat
  | .obstacle _ j _ => some j
  | _ => none

def Key.corridorOwner : Key → Option Nat
  | .corridor i _ => some i
  | _ => none

variable {entry : Key × Str} {k : Key}

theorem obstacleEntries_key {i j : Nat} {obs : ObstacleEntry F}
    (h : entry ∈ obstacleEntries fl i j obs) : ∃ field, entry.1 = .obstacle i j field := by
  unfold obstacleEntries at h
  rcases List.mem_append.1 h with h | h
  · rcases List.mem_append.1 h with h | h
    · rw [List.mem_singleton.1 h]
      exact ⟨_, rfl⟩
    · split at h
      · cases h
      · rw [List.mem_singleton.1 h]
        exact ⟨_, rfl⟩
  · split at h
    · cases h
    · rw [List.mem_singleton.1 h]
      exact ⟨_, rfl⟩

theorem lineEntries_key {i : Nat} {lines : AreaCoverageLines D} (h : entry ∈ lineEntries fl i lines)
    : ∃ field, entry.1 = .area i field := by
  unfold lineEntries at h
  rcases List.mem_append.1 h with h | h
  · rcases List.mem_append.1 h with h | h
    · split at h
      · rw [List.mem_singleton.1 h]
        exact ⟨_, rfl⟩
      · cases h
    · split at h
      · rw [List.mem_singleton.1 h]
        exact ⟨_, rfl⟩
      · cases h
  · split at h
    · rcases List.mem_cons.1 h with rfl | h
      · exact ⟨_, rfl⟩
      · rw [List.mem_singleton.1 h]
        exact ⟨_, rfl⟩
    · cases h

variable (i : Nat)

theorem areaEntries_owner (area : AreaEntry F D) :
    ∀ entry ∈ areaEntries fl i area, entry.1.areaOwner = some i := by
  intro entry h
  unfold areaEntries at h
  rcases List.mem_append.1 h with h | h
  · rcases List.mem_append.1 h with h | h
    · rcases List.mem_append.1 h with h | h
      · simp only [List.mem_cons, List.not_mem_nil, or_false] at h
        rcases h with rfl | rfl | rfl | rfl <;> rfl
      · obtain ⟨field, hfield⟩ := lineEntries_key fl h
        rw [hfield]
        rfl
    · rw [List.mem_singleton.1 h]
      rfl
  · obtain ⟨j, obs, -, -, h⟩ := Lookup.mem_indexed h
    obtain ⟨field, hfield⟩ := obstacleEntries_key fl h
    rw [hfield]
    rfl

theorem corridorEntries_owner (corridor : LidarIgnoreCorridorEntry F D) :
    ∀ entry ∈ corridorEntries fl i corridor, entry.1.corridorOwner = some i := by
  intro entry h
  simp only [corridorEntries, List.mem_cons, List.not_mem_nil, or_false] at h
  rcases h with rfl | rfl | rfl | rfl <;> rfl

theorem datumEntries_key {lat lon : D} (h : entry ∈ datumEntries fl lat lon) :
    entry.1 = .datumLat ∨ entry.1 = .datumLon := by
  unfold datumEntries at h
  split at h
  · rcases List.mem_cons.1 h with rfl | h
    · exact Or.inl rfl
    · rw [List.mem_singleton.1 h]
      exact Or.inr rfl
  · cases h

theorem last_areas_none (hk : k.areaOwner = none) (i : Nat) (areas : List (AreaEntry F D)) :
    Lookup.last k (Lookup.indexed (areaEntries fl) i areas) = none := by
  refine Lookup.last_indexed_none ?_ i areas
  intro n a entry he heq
  have h := areaEntries_owner fl n a entry he
  rw [heq, hk] at h
  cases h

theorem last_corridors_none (hk : k.corridorOwner = none) (i : Nat)
    (corridors : List (LidarIgnoreCorridorEntry F D)) :
    Lookup.last k (Lookup.indexed (corridorEntries fl) i corridors) = none := by
  refine Lookup.last_indexed_none ?_ i corridors
  intro n a entry he heq
  have h := corridorEntries_owner fl n a entry he
  rw [heq, hk] at h
  cases h

theorem last_datum_none (hlat : k ≠ .datumLat) (hlon : k ≠ .datumLon) (lat lon : D) :
    Lookup.last k (datumEntries fl lat lon) = none := by
  refine Lookup.last_eq_none ?_
  rintro entry he rfl
  rcases datumEntries_key fl he with h | h
  · exact hlat h
  · exact hlon h

section File

variable (σ : MapServer F D) (corridors : List (LidarIgnoreCorridorEntry F D)) (next : Nat)

/-- A key of an area. -/
theorem last_area {n : Nat} (hk : k.areaOwner = some n) :
    Lookup.last k (fileEntries fl σ corridors next) =
      (σ.areas[n]?).bind fun area => Lookup.last k (areaEntries fl n area) := by
  have hcorridor : k.corridorOwner = none := by
    cases k <;> first | rfl | cases hk
  have hlat : k ≠ .datumLat := by
    rintro rfl
    cases hk
  have hlon : k ≠ .datumLon := by
    rintro rfl
    cases hk
  have hcount : Lookup.last k [(Key.areaCount, Text.decimal σ.areas.length),
      (Key.nextAreaId, Text.decimal σ.nextAreaId.toNat)] = none := by
    refine Lookup.last_eq_none ?_
    intro entry he heq
    rw [← heq] at hk
    simp only [List.mem_cons, List.not_mem_nil, or_false] at he
    rcases he with rfl | rfl <;> cases hk
  have hcount' : Lookup.last k [(Key.corridorCount, Text.decimal corridors.length),
      (Key.nextCorridorId, Text.decimal next)] = none := by
    refine Lookup.last_eq_none ?_
    intro entry he heq
    rw [← heq] at hk
    simp only [List.mem_cons, List.not_mem_nil, or_false] at he
    rcases he with rfl | rfl <;> cases hk
  unfold fileEntries
  rw [Lookup.last_append, Lookup.last_append, Lookup.last_append, Lookup.last_append,
    last_corridors_none fl hcorridor, hcount', hcount, last_datum_none fl hlat hlon,
    Lookup.last_indexed (areaEntries_owner fl) hk 0 σ.areas (Nat.zero_le n)]
  simp

/-- A key of a corridor. -/
theorem last_corridor (n : Nat) (field : CorridorField) :
    Lookup.last (.corridor n field) (fileEntries fl σ corridors next) =
      (corridors[n]?).bind fun c => Lookup.last (.corridor n field) (corridorEntries fl n c) := by
  have hdatum : Lookup.last (Key.corridor n field)
      (datumEntries fl σ.settings.datumLat σ.settings.datumLon) = none :=
    last_datum_none fl (by simp) (by simp) _ _
  unfold fileEntries
  rw [Lookup.last_append, Lookup.last_append, Lookup.last_append, Lookup.last_append, hdatum,
    last_areas_none fl rfl,
    Lookup.last_indexed (corridorEntries_owner fl) (k := .corridor n field) rfl 0 corridors
      (Nat.zero_le n)]
  simp

theorem last_areaCount :
    Lookup.last .areaCount (fileEntries fl σ corridors next) =
      some (Text.decimal σ.areas.length) := by
  simp [fileEntries, last_areas_none fl (k := .areaCount) rfl,
    last_corridors_none fl (k := .areaCount) rfl]

theorem last_nextAreaId :
    Lookup.last .nextAreaId (fileEntries fl σ corridors next) =
      some (Text.decimal σ.nextAreaId.toNat) := by
  simp [fileEntries, last_areas_none fl (k := .nextAreaId) rfl,
    last_corridors_none fl (k := .nextAreaId) rfl]

theorem last_corridorCount :
    Lookup.last .corridorCount (fileEntries fl σ corridors next) =
      some (Text.decimal corridors.length) := by
  simp [fileEntries, last_areas_none fl (k := .corridorCount) rfl,
    last_corridors_none fl (k := .corridorCount) rfl]

theorem last_nextCorridorId :
    Lookup.last .nextCorridorId (fileEntries fl σ corridors next) = some (Text.decimal next) := by
  simp [fileEntries, last_areas_none fl (k := .nextCorridorId) rfl,
    last_corridors_none fl (k := .nextCorridorId) rfl]

theorem last_datum (hk : k = .datumLat ∨ k = .datumLon) :
    Lookup.last k (fileEntries fl σ corridors next) =
      Lookup.last k (datumEntries fl σ.settings.datumLat σ.settings.datumLon) := by
  have hareas : k.areaOwner = none := by rcases hk with rfl | rfl <;> rfl
  have hcorridors : k.corridorOwner = none := by rcases hk with rfl | rfl <;> rfl
  rcases hk with rfl | rfl <;> simp [fileEntries, last_areas_none, last_corridors_none, *]

end File

theorem last_areaEntries_obstacle (i j : Nat) (field : ObstacleField) (area : AreaEntry F D) :
    Lookup.last (.obstacle i j field) (areaEntries fl i area) =
      ((applied area.obstacles)[j]?).bind fun obs =>
        Lookup.last (.obstacle i j field) (obstacleEntries fl i j obs) := by
  have howner : ∀ n a, ∀ entry ∈ obstacleEntries fl i n a, entry.1.obstacleOwner = some n := by
    intro n a entry he
    obtain ⟨field, hfield⟩ := obstacleEntries_key fl he
    rw [hfield]
    rfl
  have hlines : Lookup.last (.obstacle i j field) (lineEntries fl i area.coverageLines) = none := by
    refine Lookup.last_eq_none ?_
    intro entry he heq
    obtain ⟨field', hfield⟩ := lineEntries_key fl he
    rw [heq] at hfield
    cases hfield
  unfold areaEntries
  rw [Lookup.last_append, Lookup.last_append, Lookup.last_append, hlines,
    Lookup.last_indexed howner (k := .obstacle i j field) rfl 0 _ (Nat.zero_le j)]
  simp

theorem last_obstacles_none (field : AreaField) (obstacles : List (ObstacleEntry F)) :
    Lookup.last (.area i field) (Lookup.indexed (obstacleEntries fl i) 0 obstacles) = none := by
  refine Lookup.last_indexed_none ?_ 0 obstacles
  intro n obs entry he heq
  obtain ⟨field', hfield⟩ := obstacleEntries_key fl he
  rw [heq] at hfield
  cases hfield

/-- What the entries of an area write for one of its own fields. -/
def areaValue (area : AreaEntry F D) : AreaField → Option Str
  | .name => some area.name
  | .polygon => some (polygonToString fl area.polygon 6)
  | .isNavigation => some (if area.isNavigationArea then ['1'] else ['0'])
  | .id => some (Text.decimal area.id.toNat)
  | .obstacleCount => some (Text.decimal (applied area.obstacles).length)
  | .mowAngleDeg => if area.coverageLines.hasMowAngle then
      some (fl.showDouble 6 area.coverageLines.mowAngleDeg) else none
  | .ringDirection => if area.coverageLines.hasRingDirection then
      some (Text.decimal area.coverageLines.ringDirection.toNat) else none
  | .startX => if area.coverageLines.hasStartPoint then
      some (fl.showFixed 3 area.coverageLines.startX) else none
  | .startY => if area.coverageLines.hasStartPoint then
      some (fl.showFixed 3 area.coverageLines.startY) else none

theorem last_areaEntries (area : AreaEntry F D) (field : AreaField) :
    Lookup.last (.area i field) (areaEntries fl i area) = areaValue fl area field := by
  unfold areaEntries lineEntries
  cases field <;> cases hangle : area.coverageLines.hasMowAngle <;>
    cases hring : area.coverageLines.hasRingDirection <;>
    cases hstart : area.coverageLines.hasStartPoint <;>
    simp [last_obstacles_none, areaValue, hangle, hring, hstart]

end Entries

end Map
end Mowgli
