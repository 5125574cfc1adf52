import Mowgli.Map.Entries
import Mowgli.Map.Transaction

/-!
# Reread — a map and what a load of its file gives

Every value of areas.dat read back on its own, then an area, then the whole file. Coordinates
come back as their printed decimals; an obstacle near an earlier one of its area does not come
back at all.
-/

namespace Mowgli
namespace Map

/-! ## Values -/

/-- A value without blanks and carriage returns is read as it stands. -/
theorem asRead_of_notMem {s : Str} (hspace : ' ' ∉ s) (htab : '\t' ∉ s) (hcr : '\r' ∉ s) :
    asRead s = s := by
  have hlast : (s.getLast? == some '\r') = false := by
    rw [beq_eq_false_iff_ne]
    intro h
    exact hcr (List.mem_of_getLast? h)
  unfold asRead
  rw [hlast, if_neg Bool.false_ne_true]
  cases s with
  | nil => rfl
  | cons c s =>
    refine List.dropWhile_cons_of_neg ?_
    intro hc
    unfold isBlank at hc
    rw [Bool.or_eq_true, beq_iff_eq, beq_iff_eq] at hc
    rcases hc with rfl | rfl
    · exact hspace List.mem_cons_self
    · exact htab List.mem_cons_self

theorem asRead_decimal (n : Nat) : asRead (Text.decimal n) = Text.decimal n :=
  asRead_of_notMem (Text.not_mem_decimal (by decide)) (Text.not_mem_decimal (by decide))
    (Text.not_mem_decimal (by decide))

theorem asRead_numeral {s : Str} (h : isNumeral s = true) : asRead s = s :=
  asRead_of_notMem (isNumeral_notMem h (by decide)) (isNumeral_notMem h (by decide))
    (isNumeral_notMem h (by decide))

theorem stoi_decimal {n : Nat} (h : n < 2147483648) : stoi (Text.decimal n) = some (n : Int) := by
  obtain ⟨c, tail, hd, hc⟩ := Text.decimal_cons n
  have hdigits := @Text.digits_decimal n [] (fun c hc => by cases hc)
  rw [List.append_nil, hd] at hdigits
  unfold stoi
  rw [hd]
  dsimp only
  rw [Text.skipSpace_of_isDigit hc]
  split
  · rename_i heq
    cases heq
    exact absurd hc (by decide)
  · rename_i heq
    cases heq
    exact absurd hc (by decide)
  · rw [hdigits]
    simp
    omega

theorem trimAsciiWhitespace_of_notMem {s : Str} (h : ∀ c ∈ s, isAsciiWhitespace c = false) :
    trimAsciiWhitespace s = s := by
  have hfront : ∀ t : Str, (∀ c ∈ t, isAsciiWhitespace c = false) →
      t.dropWhile isAsciiWhitespace = t := by
    intro t ht
    cases t with
    | nil => rfl
    | cons c t =>
      exact List.dropWhile_cons_of_neg (by rw [ht c List.mem_cons_self]; exact Bool.false_ne_true)
  unfold trimAsciiWhitespace
  rw [hfront s h, hfront s.reverse fun c hc => h c (List.mem_reverse.1 hc), List.reverse_reverse]

theorem trimAsciiWhitespace_decimal (n : Nat) :
    trimAsciiWhitespace (Text.decimal n) = Text.decimal n :=
  trimAsciiWhitespace_of_notMem fun _ hc =>
    Text.isSpace_of_isDigit (Text.isDigit_of_mem_decimal hc)

section Readers

variable {kv : KeyValues} {key : Str}

theorem getInt_decimal {n : Nat} (h : kv.find key = some (Text.decimal n)) (hn : n < 2147483648)
    (dflt : Int) : getInt kv key dflt = some (n : Int) := by
  unfold getInt
  rw [h]
  exact stoi_decimal hn

theorem getInt_none (h : kv.find key = none) (dflt : Int) : getInt kv key dflt = some dflt := by
  unfold getInt
  rw [h]

theorem getUnsigned_decimal {n : Nat} (h : kv.find key = some (Text.decimal n)) {maximum : Nat}
    (hn : n ≤ maximum) (dflt : Nat) : getUnsigned kv key dflt maximum = some n := by
  have hempty : (Text.decimal n).isEmpty = false := by
    obtain ⟨c, s, hd, -⟩ := Text.decimal_cons n
    rw [hd]
    rfl
  have hall : (Text.decimal n).all Char.isDigit = true :=
    List.all_eq_true.2 fun _ hc => Text.isDigit_of_mem_decimal hc
  have hvalue : Nat.ofDigitChars 10 (Text.decimal n) 0 = n := by
    rw [Text.decimal, Nat.ofDigitChars_ten_toDigits]
  unfold getUnsigned
  rw [h]
  dsimp only
  rw [trimAsciiWhitespace_decimal, hempty, hall, hvalue]
  simp [Nat.not_lt.2 hn]

end Readers

section Reread

variable {F D : Type} (fl : Floats F D)

/-! ## Numbers and polygons -/

/-- The number is read from its text as one of the same text. -/
def ReadsSingle (precision : Nat) (x : F) : Prop :=
  ∃ y, fl.stof (fl.showSingle precision x) = some y ∧
    fl.showSingle precision y = fl.showSingle precision x

def ReadsDouble (precision : Nat) (x : D) : Prop :=
  ∃ y, fl.stod (fl.showDouble precision x) = some y ∧
    fl.showDouble precision y = fl.showDouble precision x

def ReadsFixed (precision : Nat) (x : D) : Prop :=
  ∃ y, fl.stod (fl.showFixed precision x) = some y ∧
    fl.showFixed precision y = fl.showFixed precision x

def rereadSingle (precision : Nat) (x : F) : F := (fl.stof (fl.showSingle precision x)).getD x
def rereadDouble (precision : Nat) (x : D) : D := (fl.stod (fl.showDouble precision x)).getD x
def rereadFixed (precision : Nat) (x : D) : D := (fl.stod (fl.showFixed precision x)).getD x

variable {precision : Nat} {kv : KeyValues}

theorem ReadsSingle.stof {x : F} (h : ReadsSingle fl precision x) :
    fl.stof (fl.showSingle precision x) = some (rereadSingle fl precision x) := by
  obtain ⟨y, hy, -⟩ := h
  unfold rereadSingle
  rw [hy]
  rfl

theorem ReadsDouble.stod {x : D} (h : ReadsDouble fl precision x) :
    fl.stod (fl.showDouble precision x) = some (rereadDouble fl precision x) := by
  obtain ⟨y, hy, -⟩ := h
  unfold rereadDouble
  rw [hy]
  rfl

theorem ReadsFixed.stod {x : D} (h : ReadsFixed fl precision x) :
    fl.stod (fl.showFixed precision x) = some (rereadFixed fl precision x) := by
  obtain ⟨y, hy, -⟩ := h
  unfold rereadFixed
  rw [hy]
  rfl

def ReadsPolygon (precision : Nat) (poly : Polygon F) : Prop :=
  ∀ p ∈ poly, ReadsSingle fl precision p.x ∧ ReadsSingle fl precision p.y

def rereadPolygon (precision : Nat) (poly : Polygon F) : Polygon F :=
  poly.map fun p =>
    { x := rereadSingle fl precision p.x
      y := rereadSingle fl precision p.y
      z := fl.single.lit 0 }

theorem length_rereadPolygon (precision : Nat) (poly : Polygon F) :
    (rereadPolygon fl precision poly).length = poly.length := List.length_map _

/-- The text of a point. -/
def pointText (precision : Nat) (p : Point32 F) : Str :=
  fl.showSingle precision p.x ++ ',' :: fl.showSingle precision p.y

theorem pieces_pointText (hp : fl.Prints) (precision : Nat) (p : Point32 F) :
    Text.pieces ',' (pointText fl precision p) =
      [fl.showSingle precision p.x, fl.showSingle precision p.y] := by
  have hx := isNumeral_notMem (hp.single precision p.x) (c := ',') (by decide)
  have hy := isNumeral_notMem (hp.single precision p.y) (c := ',') (by decide)
  unfold pointText
  rw [Text.pieces_append hx, Text.pieces_single hy (isNumeral_ne_nil (hp.single precision p.y))]

theorem parsePoints_map (hp : fl.Prints) {poly : Polygon F} (h : ReadsPolygon fl precision poly) :
    parsePoints fl (poly.map (pointText fl precision)) = some (rereadPolygon fl precision poly) := by
  induction poly with
  | nil => rfl
  | cons p poly ih =>
    obtain ⟨hx, hy⟩ := h p List.mem_cons_self
    have htail := ih fun q hq => h q (List.mem_cons_of_mem p hq)
    rw [List.map_cons, parsePoints, pieces_pointText fl hp]
    dsimp only
    rw [hx.stof, hy.stof, htail]
    rfl

theorem parsePolygonString_text (hp : fl.Prints) {poly : Polygon F}
    (h : ReadsPolygon fl precision poly) :
    parsePolygonString fl (polygonToString fl poly precision) =
      some (rereadPolygon fl precision poly) := by
  unfold parsePolygonString polygonToString
  rw [Text.pieces_joined]
  · exact parsePoints_map fl hp h
  · intro piece hpiece
    obtain ⟨p, -, rfl⟩ := List.mem_map.1 hpiece
    have hx := isNumeral_notMem (hp.single precision p.x) (c := ';') (by decide)
    have hy := isNumeral_notMem (hp.single precision p.y) (c := ';') (by decide)
    refine ⟨by simp [hx, hy], ?_⟩
    simp

theorem asRead_polygon (hp : fl.Prints) (poly : Polygon F) (precision : Nat) :
    asRead (polygonToString fl poly precision) = polygonToString fl poly precision :=
  asRead_of_notMem (notMem_polygonToString fl hp poly precision (by decide))
    (notMem_polygonToString fl hp poly precision (by decide))
    (notMem_polygonToString fl hp poly precision (by decide))

/-! ## One area -/

/-- What the keys of an obstacle hold. -/
structure ObstacleFound (kv : KeyValues) (key : Str) (obs : ObstacleEntry F) : Prop where
  polygon : kv.find key = some (polygonToString fl obs.polygon 6)
  name : getStr kv (key ++ "_name".toList) = asRead obs.name
  source : kv.find (key ++ "_source".toList) =
    if obs.source == SOURCE_USER then none else some (Text.decimal obs.source.toNat)

/-- What the keys of an area hold. -/
structure AreaFound (kv : KeyValues) (i : Nat) (area : AreaEntry F D) : Prop where
  name : kv.find (indexed "area_" i "_name") = some (asRead area.name)
  polygon : kv.find (indexed "area_" i "_polygon") = some (polygonToString fl area.polygon 6)
  isNavigation : kv.find (indexed "area_" i "_is_navigation") =
    some (if area.isNavigationArea then ['1'] else ['0'])
  id : kv.find (indexed "area_" i "_id") = some (Text.decimal area.id.toNat)
  mowAngleDeg : kv.find (indexed "area_" i "_mow_angle_deg") =
    if area.coverageLines.hasMowAngle then some (fl.showDouble 6 area.coverageLines.mowAngleDeg)
    else none
  ringDirection : kv.find (indexed "area_" i "_ring_direction") =
    if area.coverageLines.hasRingDirection then
      some (Text.decimal area.coverageLines.ringDirection.toNat)
    else none
  startX : kv.find (indexed "area_" i "_start_x") =
    if area.coverageLines.hasStartPoint then some (fl.showFixed 3 area.coverageLines.startX)
    else none
  startY : kv.find (indexed "area_" i "_start_y") =
    if area.coverageLines.hasStartPoint then some (fl.showFixed 3 area.coverageLines.startY)
    else none
  obstacleCount : kv.find (indexed "area_" i "_obstacle_count") =
    some (Text.decimal (applied area.obstacles).length)
  obstacle : ∀ j obs, (applied area.obstacles)[j]? = some obs →
    ObstacleFound fl kv (indexed "area_" i "" ++ indexed "_obstacle_" j "") obs

/-- The keys of the file hold what was written. -/
def Found (kv : KeyValues) (σ : MapServer F D) (corridors : List (LidarIgnoreCorridorEntry F D))
    (next : Nat) : Prop :=
  ∀ k : Key, kv.find k.text = (Lookup.last k (fileEntries fl σ corridors next)).map asRead

section Found

variable {fl} {kv : KeyValues} {σ : MapServer F D}
  {corridors : List (LidarIgnoreCorridorEntry F D)} {next : Nat}

theorem Found.obstacle (hp : fl.Prints) (hf : Found fl kv σ corridors next) {i j : Nat}
    {area : AreaEntry F D} {obs : ObstacleEntry F} (ha : σ.areas[i]? = some area)
    (ho : (applied area.obstacles)[j]? = some obs) :
    ObstacleFound fl kv (indexed "area_" i "" ++ indexed "_obstacle_" j "") obs := by
  have hlast : ∀ field, kv.find (Key.obstacle i j field).text =
      (Lookup.last (.obstacle i j field) (obstacleEntries fl i j obs)).map asRead := by
    intro field
    rw [hf, last_area fl σ corridors next (n := i) rfl, ha, Option.bind_some,
      last_areaEntries_obstacle, ho]
    rfl
  refine ⟨?_, ?_, ?_⟩
  · have h := hlast .polygon
    rw [show (Key.obstacle i j .polygon).text = indexed "area_" i "" ++ indexed "_obstacle_" j "" from
      List.append_nil _] at h
    rw [h]
    unfold obstacleEntries
    cases obs.name.isEmpty <;> cases obs.source == SOURCE_USER <;>
      simp [asRead_polygon fl hp]
  · have h := hlast .name
    show (kv.find (Key.obstacle i j .name).text).getD [] = _
    rw [h]
    unfold obstacleEntries
    cases hname : obs.name.isEmpty with
    | true =>
      rw [List.isEmpty_iff.1 hname]
      cases obs.source == SOURCE_USER <;> simp [asRead]
    | false => cases obs.source == SOURCE_USER <;> simp
  · have h := hlast .source
    show kv.find (Key.obstacle i j .source).text = _
    rw [h]
    unfold obstacleEntries
    cases obs.name.isEmpty <;> cases obs.source == SOURCE_USER <;> simp [asRead_decimal]

theorem Found.area (hp : fl.Prints) (hf : Found fl kv σ corridors next) {i : Nat}
    {area : AreaEntry F D} (ha : σ.areas[i]? = some area) : AreaFound fl kv i area := by
  have hlast : ∀ field, kv.find (Key.area i field).text =
      (areaValue fl area field).map asRead := by
    intro field
    rw [hf, last_area fl σ corridors next (n := i) rfl, ha, Option.bind_some, last_areaEntries]
  refine ⟨?_, ?_, ?_, ?_, ?_, ?_, ?_, ?_, ?_, fun j obs ho => hf.obstacle hp ha ho⟩
  · exact hlast .name
  · exact (hlast .polygon).trans (congrArg some (asRead_polygon fl hp _ _))
  · refine (hlast .isNavigation).trans ?_
    rw [areaValue]
    cases area.isNavigationArea <;> rfl
  · exact (hlast .id).trans (congrArg some (asRead_decimal _))
  · refine (hlast .mowAngleDeg).trans ?_
    rw [areaValue]
    cases area.coverageLines.hasMowAngle <;> simp [asRead_numeral (hp.double 6 _)]
  · refine (hlast .ringDirection).trans ?_
    rw [areaValue]
    cases area.coverageLines.hasRingDirection <;> simp [asRead_decimal]
  · refine (hlast .startX).trans ?_
    rw [areaValue]
    cases area.coverageLines.hasStartPoint <;> simp [asRead_numeral (hp.fixed 3 _)]
  · refine (hlast .startY).trans ?_
    rw [areaValue]
    cases area.coverageLines.hasStartPoint <;> simp [asRead_numeral (hp.fixed 3 _)]
  · exact (hlast .obstacleCount).trans (congrArg some (asRead_decimal _))

end Found

theorem UInt8.ofInt_toNat (n : UInt8) : UInt8.ofInt (n.toNat : Int) = n := by
  have hn : n.toNat < 256 := n.toNat_lt
  have h : ((n.toNat : Int) % 2 ^ 8).toNat = n.toNat := by omega
  rw [UInt8.ofInt, h, UInt8.ofNat_toNat]

theorem UInt32.ofInt_toNat (n : UInt32) : UInt32.ofInt (n.toNat : Int) = n := by
  have hn : n.toNat < 4294967296 := n.toNat_lt
  have h : ((n.toNat : Int) % 2 ^ 32).toNat = n.toNat := by omega
  rw [UInt32.ofInt, h, UInt32.ofNat_toNat]

/-- Lines as they are kept: what is not set is zero. -/
structure AreaCoverageLines.Kept (lines : AreaCoverageLines D) : Prop where
  mowAngleDeg : lines.hasMowAngle = false → lines.mowAngleDeg = fl.double.lit 0
  ringDirection : lines.hasRingDirection = false → lines.ringDirection = 0
  start : lines.hasStartPoint = false →
    lines.startX = fl.double.lit 0 ∧ lines.startY = fl.double.lit 0

structure ReadsLines (lines : AreaCoverageLines D) : Prop where
  mowAngleDeg : lines.hasMowAngle = true → ReadsDouble fl 6 lines.mowAngleDeg
  start : lines.hasStartPoint = true →
    ReadsFixed fl 3 lines.startX ∧ ReadsFixed fl 3 lines.startY

def rereadLines (lines : AreaCoverageLines D) : AreaCoverageLines D :=
  { lines with
    mowAngleDeg :=
      if lines.hasMowAngle then rereadDouble fl 6 lines.mowAngleDeg else lines.mowAngleDeg
    startX := if lines.hasStartPoint then rereadFixed fl 3 lines.startX else lines.startX
    startY := if lines.hasStartPoint then rereadFixed fl 3 lines.startY else lines.startY }

theorem ring_clamp (r : UInt8) :
    UInt8.ofNat (if (r.toNat : Int) < 0 then 0 else if 255 < (r.toNat : Int) then 255
      else (r.toNat : Int).toNat) = r := by
  have h : r.toNat < 256 := r.toNat_lt
  rw [if_neg (by omega), if_neg (by omega), Int.toNat_natCast]
  exact UInt8.ofNat_toNat

theorem kvLines_found {i : Nat} {area : AreaEntry F D} (hf : AreaFound fl kv i area)
    (hk : area.coverageLines.Kept fl) (hr : ReadsLines fl area.coverageLines) :
    kvLines fl kv (indexed "area_" i) = some (rereadLines fl area.coverageLines) := by
  have hring : ∃ ring : Int, getInt kv (indexed "area_" i "_ring_direction") 0 = some ring ∧
      UInt8.ofNat (if ring < 0 then 0 else if 255 < ring then 255 else ring.toNat) =
        area.coverageLines.ringDirection := by
    cases h : area.coverageLines.hasRingDirection with
    | true =>
      have hfind := hf.ringDirection
      rw [h, if_pos rfl] at hfind
      have hlt : area.coverageLines.ringDirection.toNat < 256 :=
        area.coverageLines.ringDirection.toNat_lt
      exact ⟨_, getInt_decimal hfind (by omega) 0, ring_clamp _⟩
    | false =>
      have hfind := hf.ringDirection
      rw [h, if_neg Bool.false_ne_true] at hfind
      exact ⟨0, getInt_none hfind 0, by rw [hk.ringDirection h]; rfl⟩
  obtain ⟨ring, hget, hringEq⟩ := hring
  have hringHas : kv.has (indexed "area_" i "_ring_direction") =
      area.coverageLines.hasRingDirection := by
    unfold KeyValues.has
    rw [hf.ringDirection]
    cases area.coverageLines.hasRingDirection <;> rfl
  unfold kvLines
  dsimp only
  rw [hget, hringHas]
  unfold KeyValues.has getDouble
  rw [hf.mowAngleDeg, hf.startX, hf.startY]
  unfold rereadLines
  cases ha : area.coverageLines.hasMowAngle with
  | true =>
    have hangle := (hr.mowAngleDeg ha).stod
    cases hs : area.coverageLines.hasStartPoint with
    | true =>
      have hx := (hr.start hs).1.stod
      have hy := (hr.start hs).2.stod
      simp [hangle, hx, hy, hringEq]
    | false =>
      obtain ⟨hx, hy⟩ := hk.start hs
      simp [hangle, hx, hy, hringEq]
  | false =>
    have hangle := hk.mowAngleDeg ha
    cases hs : area.coverageLines.hasStartPoint with
    | true =>
      have hx := (hr.start hs).1.stod
      have hy := (hr.start hs).2.stod
      simp [hangle, hx, hy, hringEq]
    | false =>
      obtain ⟨hx, hy⟩ := hk.start hs
      simp [hangle, hx, hy, hringEq]

/-- What the file can hold of an area. -/
structure AreaEntry.Writable (area : AreaEntry F D) : Prop where
  named : area.Named
  points : 3 ≤ area.polygon.length
  polygon : ReadsPolygon fl 6 area.polygon
  id : area.id.toNat < 2147483648
  lines : area.coverageLines.Kept fl
  readsLines : ReadsLines fl area.coverageLines
  obstacles : ∀ obs ∈ applied area.obstacles,
    3 ≤ obs.polygon.length ∧ ReadsPolygon fl 6 obs.polygon
  count : (applied area.obstacles).length < 2147483648

/-- An area as it is read, before its obstacles. -/
def restoredArea (area : AreaEntry F D) : AreaEntry F D :=
  { name := asRead area.name
    polygon := rereadPolygon fl 6 area.polygon
    obstacles := []
    isNavigationArea := area.isNavigationArea
    id := area.id
    coverageLines :=
      storedLines fl (rereadPolygon fl 6 area.polygon) (rereadLines fl area.coverageLines) }

theorem kvArea_found (hp : fl.Prints) {i : Nat} {area : AreaEntry F D} (hf : AreaFound fl kv i area)
    (hw : area.Writable fl) :
    kvArea fl kv i = some (restoredArea fl area, (applied area.obstacles).length) := by
  have hpolygon : parsePolygonString fl (getStr kv (indexed "area_" i "_polygon")) =
      some (rereadPolygon fl 6 area.polygon) := by
    unfold getStr
    rw [hf.polygon]
    exact parsePolygonString_text fl hp hw.polygon
  have hnavigation : ∃ n : Int, getInt kv (indexed "area_" i "_is_navigation") 0 = some n ∧
      decide (n ≠ 0) = area.isNavigationArea := by
    unfold getInt
    rw [hf.isNavigation]
    cases area.isNavigationArea with
    | true => exact ⟨1, by decide, rfl⟩
    | false => exact ⟨0, by decide, rfl⟩
  obtain ⟨n, hn, hnav⟩ := hnavigation
  have hid := getInt_decimal hf.id hw.id 0
  have hlines := kvLines_found fl hf hw.lines hw.readsLines
  have hcount := getInt_decimal hf.obstacleCount hw.count 0
  have hname : getStr kv (indexed "area_" i "_name") = asRead area.name := by
    unfold getStr
    rw [hf.name]
    rfl
  unfold kvArea
  dsimp only
  rw [hpolygon, Option.bind_some, hn, Option.bind_some, hid, Option.bind_some, hlines,
    Option.bind_some, hcount, Option.map_some, hname, hnav]
  unfold restoredArea
  rw [UInt32.ofInt_toNat]
  rfl

/-! ## Obstacles and areas, one after the other -/

/-- The obstacles of an area taken over, each only if none before it is near. -/
def restoreObstacles (τ : MapServer F D) (entries : List (ObstacleEntry F)) :
    List (ObstacleEntry F) → MapServer F D × List (ObstacleEntry F)
  | [] => (τ, entries)
  | obs :: rest =>
    let polygon := rereadPolygon fl 6 obs.polygon
    if hasDuplicateObstacleEntry fl entries polygon (kObstacleDedupEpsilonM fl) true then
      restoreObstacles τ entries rest
    else
      let made := makeObstacleEntry τ polygon (asRead obs.name) obs.source false
      restoreObstacles made.2 (entries ++ [made.1]) rest

def restoreAreas (τ : MapServer F D) : List (AreaEntry F D) → MapServer F D
  | [] => τ
  | area :: rest =>
    let r := restoreObstacles fl τ [] (applied area.obstacles)
    restoreAreas
      { r.1 with areas := r.1.areas ++ [{ restoredArea fl area with obstacles := r.2 }] } rest

theorem kvObstacle_found (hp : fl.Prints) {key : Str} {obs : ObstacleEntry F}
    (hf : ObstacleFound fl kv key obs) (h : ReadsPolygon fl 6 obs.polygon) :
    kvObstacle fl kv key = some (rereadPolygon fl 6 obs.polygon, asRead obs.name, obs.source) := by
  have hpolygon : parsePolygonString fl (getStr kv key) = some (rereadPolygon fl 6 obs.polygon) := by
    unfold getStr
    rw [hf.polygon]
    exact parsePolygonString_text fl hp h
  have hlt : obs.source.toNat < 256 := obs.source.toNat_lt
  have hsource : ∃ n : Int, getInt kv (key ++ "_source".toList) SOURCE_USER.toNat = some n ∧
      UInt8.ofInt n = obs.source := by
    have hfind := hf.source
    cases hu : obs.source == SOURCE_USER with
    | true =>
      rw [hu, if_pos rfl] at hfind
      exact ⟨_, getInt_none hfind _, (beq_iff_eq.1 hu).symm⟩
    | false =>
      rw [hu, if_neg Bool.false_ne_true] at hfind
      exact ⟨_, getInt_decimal hfind (by omega) _, UInt8.ofInt_toNat obs.source⟩
  obtain ⟨n, hn, hs⟩ := hsource
  unfold kvObstacle
  rw [hpolygon, Option.bind_some, hn, Option.map_some, hf.name, hs]

theorem loadObstacles_found (hp : fl.Prints) (pre : Str) {obstacles : List (ObstacleEntry F)}
    (j : Nat) (τ : MapServer F D) (entries : List (ObstacleEntry F))
    (hf : ∀ k obs, obstacles[k]? = some obs →
      ObstacleFound fl kv (pre ++ indexed "_obstacle_" (j + k) "") obs)
    (hw : ∀ obs ∈ obstacles, 3 ≤ obs.polygon.length ∧ ReadsPolygon fl 6 obs.polygon) :
    loadObstacles fl kv pre obstacles.length j τ entries =
      ((restoreObstacles fl τ entries obstacles).1,
        some (restoreObstacles fl τ entries obstacles).2) := by
  induction obstacles generalizing j τ entries with
  | nil => rfl
  | cons obs rest ih =>
    obtain ⟨hlength, hreads⟩ := hw obs List.mem_cons_self
    have hkv := kvObstacle_found fl hp (hf 0 obs rfl) hreads
    rw [Nat.add_zero] at hkv
    have hrest : ∀ k obs', rest[k]? = some obs' →
        ObstacleFound fl kv (pre ++ indexed "_obstacle_" (j + 1 + k) "") obs' := by
      intro k obs' hk
      have := hf (k + 1) obs' hk
      rwa [Nat.add_comm k 1, ← Nat.add_assoc] at this
    have hwrest := fun obs' ho => hw obs' (List.mem_cons_of_mem obs ho)
    have hthree : decide (3 ≤ (rereadPolygon fl 6 obs.polygon).length) = true := by
      rw [length_rereadPolygon]
      exact decide_eq_true hlength
    rw [List.length_cons, loadObstacles, hkv, restoreObstacles]
    dsimp only
    rw [hthree, Bool.true_and]
    cases hdup : hasDuplicateObstacleEntry fl entries (rereadPolygon fl 6 obs.polygon)
      (kObstacleDedupEpsilonM fl) true with
    | true => exact ih (j + 1) τ entries hrest hwrest
    | false => exact ih (j + 1) _ _ hrest hwrest

theorem loadAreas_found (hp : fl.Prints) (areas : List (AreaEntry F D)) (i : Nat)
    (τ : MapServer F D) (hf : ∀ k area, areas[k]? = some area → AreaFound fl kv (i + k) area)
    (hw : ∀ area ∈ areas, area.Writable fl) :
    loadAreas fl kv areas.length i τ = (restoreAreas fl τ areas, true) := by
  induction areas generalizing i τ with
  | nil => rfl
  | cons area rest ih =>
    have hwritable := hw area List.mem_cons_self
    have hfound := hf 0 area rfl
    rw [Nat.add_zero] at hfound
    have hkv := kvArea_found fl hp hfound hwritable
    have hobstacles := loadObstacles_found fl hp (indexed "area_" i "") 0 τ []
      (fun k obs hk => by rw [Nat.zero_add]; exact hfound.obstacle k obs hk) hwritable.obstacles
    have hrest : ∀ k area', rest[k]? = some area' → AreaFound fl kv (i + 1 + k) area' := by
      intro k area' hk
      have := hf (k + 1) area' hk
      rwa [Nat.add_comm k 1, ← Nat.add_assoc] at this
    have hthree : 3 ≤ (restoredArea fl area).polygon.length := by
      show 3 ≤ (rereadPolygon fl 6 area.polygon).length
      rw [length_rereadPolygon]
      exact hwritable.points
    rw [List.length_cons, loadAreas, hkv]
    dsimp only
    rw [hobstacles]
    dsimp only
    rw [if_pos hthree, restoreAreas]
    exact ih (i + 1) _ hrest fun area' ha => hw area' (List.mem_cons_of_mem area ha)

/-! ## The corridors -/

structure LidarIgnoreCorridorEntry.Writable (c : LidarIgnoreCorridorEntry F D) : Prop where
  name : '\n' ∉ c.name
  points : 2 ≤ c.polyline.length
  polyline : ReadsPolygon fl 9 c.polyline
  width : ReadsDouble fl 17 c.widthM

def restoredCorridor (c : LidarIgnoreCorridorEntry F D) : LidarIgnoreCorridorEntry F D :=
  { name := trimAsciiWhitespace (asRead c.name)
    polyline := rereadPolygon fl 9 c.polyline
    widthM :=
      fl.double.clamp (rereadDouble fl 17 c.widthM) (kMinLidarIgnoreCorridorWidthM fl)
        (kMaxLidarIgnoreCorridorWidthM fl)
    id := c.id }

variable {corridors : List (LidarIgnoreCorridorEntry F D)} {σ : MapServer F D}

variable {next : Nat}

theorem loadCorridor_found (hp : fl.Prints) (hf : Found fl kv σ corridors next) {i : Nat}
    {c : LidarIgnoreCorridorEntry F D} (hc : corridors[i]? = some c) (hw : c.Writable fl) :
    loadCorridor fl kv i = some (some (restoredCorridor fl c)) := by
  have hlast : ∀ field, kv.find (indexed "lidar_corridor_" i field.suffix) =
      (Lookup.last (.corridor i field) (corridorEntries fl i c)).map asRead := by
    intro field
    have h := hf (.corridor i field)
    rw [last_corridor, hc] at h
    exact h
  have hname : getStr kv (indexed "lidar_corridor_" i "_name") = asRead c.name := by
    have h := hlast .name
    unfold getStr
    rw [show kv.find (indexed "lidar_corridor_" i "_name") = _ from h]
    simp [corridorEntries]
  have hpolyline : parsePolygonString fl (getStr kv (indexed "lidar_corridor_" i "_polyline")) =
      some (rereadPolygon fl 9 c.polyline) := by
    have h := hlast .polyline
    unfold getStr
    rw [show kv.find (indexed "lidar_corridor_" i "_polyline") = _ from h]
    simp [corridorEntries, asRead_polygon fl hp, parsePolygonString_text fl hp hw.polyline]
  have hwidth : getDouble fl kv (indexed "lidar_corridor_" i "_width_m") (fl.double.lit (2 / 5)) =
      some (rereadDouble fl 17 c.widthM) := by
    have h := hlast .widthM
    unfold getDouble
    rw [show kv.find (indexed "lidar_corridor_" i "_width_m") = _ from h]
    simp [corridorEntries, asRead_numeral (hp.double 17 _), hw.width.stod]
  have hid : getUnsigned kv (indexed "lidar_corridor_" i "_id") 0 UINT32_MAX = some c.id.toNat := by
    have h := hlast .id
    refine getUnsigned_decimal ?_ (Nat.le_of_lt_succ c.id.toNat_lt) 0
    rw [show kv.find (indexed "lidar_corridor_" i "_id") = _ from h]
    simp [corridorEntries, asRead_decimal]
  unfold loadCorridor
  dsimp only
  rw [hpolyline, Option.bind_some, length_rereadPolygon, if_neg (Nat.not_lt.2 hw.points), hwidth,
    Option.bind_some, hid, Option.map_some, hname, UInt32.ofNat_toNat]
  rfl

theorem loadCorridors_found (hp : fl.Prints) (hf : Found fl kv σ corridors next)
    (rest : List (LidarIgnoreCorridorEntry F D)) (i : Nat)
    (hrest : ∀ k c, rest[k]? = some c → corridors[i + k]? = some c) (hw : ∀ c ∈ rest, c.Writable fl)
    : loadCorridors fl kv rest.length i = some (rest.map (restoredCorridor fl)) := by
  induction rest generalizing i with
  | nil => rfl
  | cons c rest ih =>
    have hfirst := loadCorridor_found fl hp hf (hrest 0 c rfl) (hw c List.mem_cons_self)
    rw [Nat.add_zero] at hfirst
    have htail := ih (i + 1) (fun k c' hk => by
      have := hrest (k + 1) c' hk
      rwa [Nat.add_comm k 1, ← Nat.add_assoc] at this) fun c' hc => hw c' (List.mem_cons_of_mem c hc)
    rw [List.length_cons, loadCorridors, hfirst, Option.bind_some, htail]
    rfl

/-! ## The whole file -/

/-- The datum, printed, is still a datum and the same. -/
structure Settings.DatumReads (settings : Settings D) : Prop where
  lat : ReadsFixed fl 9 settings.datumLat
  lon : ReadsFixed fl 9 settings.datumLon
  finite : fl.double.isFinite (rereadFixed fl 9 settings.datumLat) = true ∧
    fl.double.isFinite (rereadFixed fl 9 settings.datumLon) = true
  set : isDatumSet fl (rereadFixed fl 9 settings.datumLat) (rereadFixed fl 9 settings.datumLon) =
    true
  same :
    fl.double.lt (fl.double.abs (fl.double.sub settings.datumLat
      (rereadFixed fl 9 settings.datumLat))) (kDatumMatchEpsilonDeg fl) = true ∧
    fl.double.lt (fl.double.abs (fl.double.sub settings.datumLon
      (rereadFixed fl 9 settings.datumLon))) (kDatumMatchEpsilonDeg fl) = true

/-- What the file can hold of a map. -/
structure MapServer.Writable (σ : MapServer F D) : Prop where
  areas : ∀ area ∈ σ.areas, area.Writable fl
  areaIds : ∀ area ∈ σ.areas, area.id ≠ 0 ∧ area.id.toNat < σ.nextAreaId.toNat
  areaCount : σ.areas.length < 2147483648
  nextAreaId : σ.nextAreaId.toNat < 2147483648
  corridors : ∀ c ∈ σ.lidarIgnoreCorridors, c.Writable fl
  corridorIds : Fresh.Below (idsOf σ.lidarIgnoreCorridors) σ.nextLidarCorridorId
  corridorCount : σ.lidarIgnoreCorridors.length < 2147483648
  nextCorridorId : σ.nextLidarCorridorId ≤ 4294967296
  datum : isDatumSet fl σ.settings.datumLat σ.settings.datumLon = true → σ.settings.DatumReads fl

/-- The state after everything of the file was taken over. -/
def restored (τ σ : MapServer F D) : MapServer F D :=
  { restoreAreas fl { τ with areas := [], obstaclePolygons := [] } σ.areas with
    lidarIgnoreCorridors := σ.lidarIgnoreCorridors.map (restoredCorridor fl)
    nextLidarCorridorId := σ.nextLidarCorridorId
    nextAreaId := σ.nextAreaId }

theorem restoreObstacles_frame (τ : MapServer F D) (entries obstacles : List (ObstacleEntry F)) :
    ∃ n, (restoreObstacles fl τ entries obstacles).1 = { τ with nextObstacleId := n } := by
  induction obstacles generalizing τ entries with
  | nil => exact ⟨τ.nextObstacleId, rfl⟩
  | cons obs rest ih =>
    unfold restoreObstacles
    dsimp only
    split
    · exact ih τ entries
    · obtain ⟨n, hn⟩ := ih (makeObstacleEntry τ (rereadPolygon fl 6 obs.polygon) (asRead obs.name)
        obs.source false).2 (entries ++ [(makeObstacleEntry τ (rereadPolygon fl 6 obs.polygon)
        (asRead obs.name) obs.source false).1])
      exact ⟨n, hn⟩

/-- An area as it is restored, whatever the ids of its obstacles. -/
structure Restored (before after : AreaEntry F D) : Prop where
  head : { after with obstacles := [] } = restoredArea fl before
  obstacles : ∃ τ, after.obstacles = (restoreObstacles fl τ [] (applied before.obstacles)).2

theorem restoreAreas_areas (τ : MapServer F D) (areas : List (AreaEntry F D)) :
    ∃ n after, restoreAreas fl τ areas = { τ with nextObstacleId := n, areas := τ.areas ++ after } ∧
      List.Forall₂ (Restored fl) areas after := by
  induction areas generalizing τ with
  | nil => exact ⟨τ.nextObstacleId, [], by rw [List.append_nil]; rfl, .nil⟩
  | cons area rest ih =>
    obtain ⟨m, hm⟩ := restoreObstacles_frame fl τ [] (applied area.obstacles)
    have hstep : restoreAreas fl τ (area :: rest) = restoreAreas fl
        { τ with
          nextObstacleId := m
          areas := τ.areas ++ [{ restoredArea fl area with
            obstacles := (restoreObstacles fl τ [] (applied area.obstacles)).2 }] } rest := by
      rw [restoreAreas]
      dsimp only
      rw [hm]
    obtain ⟨n, after, hafter, hall⟩ := ih
      { τ with
        nextObstacleId := m
        areas := τ.areas ++ [{ restoredArea fl area with
          obstacles := (restoreObstacles fl τ [] (applied area.obstacles)).2 }] }
    refine ⟨n, { restoredArea fl area with
      obstacles := (restoreObstacles fl τ [] (applied area.obstacles)).2 } :: after, ?_,
      .cons ⟨rfl, τ, rfl⟩ hall⟩
    rw [hstep, hafter, List.append_assoc]
    rfl

theorem Restored.id {before after : AreaEntry F D} (h : Restored fl before after) :
    after.id = before.id := by
  have hid := congrArg (fun area => area.id) h.head
  exact hid

theorem forall₂_restored_ids {before after : List (AreaEntry F D)}
    (h : List.Forall₂ (Restored fl) before after) :
    after.map (·.id) = before.map (·.id) := by
  induction h with
  | nil => rfl
  | cons hd _ ih => rw [List.map_cons, List.map_cons, hd.id, ih]

theorem maxAreaId_lt {areas : List (AreaEntry F D)} {bound : Nat} (m : UInt32)
    (hm : m.toNat < bound) (h : ∀ area ∈ areas, area.id.toNat < bound) :
    (areas.foldl (fun m area => if m < area.id then area.id else m) m).toNat < bound := by
  induction areas generalizing m with
  | nil => exact hm
  | cons area rest ih =>
    refine ih _ ?_ fun a ha => h a (List.mem_cons_of_mem area ha)
    show (if m < area.id then area.id else m).toNat < bound
    split
    · exact h area List.mem_cons_self
    · exact hm

variable {τ : MapServer F D}

/-- A counter past every id stays, and no id is missing. -/
theorem migrateAreaIds_found {next : UInt32} (disk : Disk)
    (hkv : kv.find "next_area_id".toList = some (Text.decimal next.toNat))
    (hnext : next.toNat < 2147483648)
    (hids : ∀ area ∈ τ.areas, area.id ≠ 0 ∧ area.id.toNat < next.toNat) (hpos : 0 < next.toNat) :
    migrateAreaIds fl kv τ disk = some { τ with nextAreaId := next } := by
  have hmax : (maxAreaId τ.areas).toNat < next.toNat :=
    maxAreaId_lt 0 hpos fun area ha => (hids area ha).2
  have hnotlt : ¬next < maxAreaId τ.areas + 1 := by
    rw [UInt32.lt_iff_toNat_lt, UInt32.toNat_add]
    have h1 : (1 : UInt32).toNat = 1 := rfl
    omega
  have hany : (τ.areas.any fun area => area.id == 0) = false := by
    refine List.any_eq_false.2 ?_
    intro area ha
    have := (hids area ha).1
    simpa using this
  unfold migrateAreaIds
  rw [getInt_decimal hkv hnext, Option.map_some]
  dsimp only
  rw [UInt32.ofInt_toNat, if_neg hnotlt, hany, if_neg Bool.false_ne_true]

theorem migrateAreasDatum_found (hp : fl.Prints) (hf : Found fl kv σ corridors next)
    (hd : isDatumSet fl σ.settings.datumLat σ.settings.datumLon = true → σ.settings.DatumReads fl)
    (hτ : τ.settings = σ.settings) (disk : Disk) :
    ∃ stamp, datumStamp fl kv = some stamp ∧ migrateAreasDatum fl stamp τ disk = τ := by
  have hlat : kv.find "datum_lat".toList = _ := hf .datumLat
  have hlon : kv.find "datum_lon".toList = _ := hf .datumLon
  rw [last_datum fl σ corridors next (Or.inl rfl)] at hlat
  rw [last_datum fl σ corridors next (Or.inr rfl)] at hlon
  unfold datumEntries at hlat hlon
  cases hset : isDatumSet fl σ.settings.datumLat σ.settings.datumLon with
  | true =>
    have h := hd hset
    rw [hset] at hlat hlon
    have hlat : kv.find "datum_lat".toList = some (fl.showFixed 9 σ.settings.datumLat) := by
      rw [hlat]
      simp [asRead_numeral (hp.fixed 9 _)]
    have hlon : kv.find "datum_lon".toList = some (fl.showFixed 9 σ.settings.datumLon) := by
      rw [hlon]
      simp [asRead_numeral (hp.fixed 9 _)]
    refine ⟨some (rereadFixed fl 9 σ.settings.datumLat, rereadFixed fl 9 σ.settings.datumLon),
      ?_, ?_⟩
    · unfold datumStamp
      rw [hlat, hlon]
      dsimp only
      rw [h.lat.stod, h.lon.stod]
      rfl
    · unfold migrateAreasDatum
      dsimp only
      rw [hτ, hset, h.finite.1, h.finite.2, h.set, h.same.1, h.same.2]
      rfl
  | false =>
    rw [hset] at hlat hlon
    refine ⟨none, ?_, ?_⟩
    · unfold datumStamp
      rw [hlat, hlon]
      rfl
    · unfold migrateAreasDatum
      dsimp only
      rw [hτ, hset]
      rfl

theorem Fresh.past_eq {ids : List Nat} (h : Fresh.Below ids next) : Fresh.past next ids = next :=
  Nat.le_antisymm (Fresh.past_le (Nat.le_refl next) h) (Fresh.le_past next ids)

theorem found_areasText (hp : fl.Prints) (hw : σ.Writable fl) :
    Found fl (keyValues (areasText fl σ σ.lidarIgnoreCorridors σ.nextLidarCorridorId)) σ
      σ.lidarIgnoreCorridors σ.nextLidarCorridorId := fun k =>
  (stands_file fl hp σ.nextLidarCorridorId (fun area ha => (hw.areas area ha).named)
    fun c hc => (hw.corridors c hc).name).find k

/-- A load of the file of a state, in a node with the same settings. -/
theorem loadAreasFromFile_areasText (hp : fl.Prints) (hw : σ.Writable fl)
    (hpos : 0 < σ.nextAreaId.toNat) (hsettings : τ.settings = σ.settings)
    (hfile : τ.file = some (areasText fl σ σ.lidarIgnoreCorridors σ.nextLidarCorridorId))
    (idDisk datumDisk : Disk) :
    loadAreasFromFile fl τ idDisk datumDisk =
      (publishLidarIgnoreCorridors (resizeMapToAreas fl (restored fl τ σ)), true) := by
  have hf := found_areasText fl hp hw
  have hcorridors : kvCorridors fl
      (keyValues (areasText fl σ σ.lidarIgnoreCorridors σ.nextLidarCorridorId)) =
      some (σ.lidarIgnoreCorridors.map (restoredCorridor fl), σ.nextLidarCorridorId) := by
    have hcount : KeyValues.find _ "lidar_corridor_count".toList = _ := hf .corridorCount
    rw [last_corridorCount, Option.map_some, asRead_decimal] at hcount
    have hnext : KeyValues.find _ "next_lidar_corridor_id".toList = _ := hf .nextCorridorId
    rw [last_nextCorridorId, Option.map_some, asRead_decimal] at hnext
    have hlist := loadCorridors_found fl hp hf σ.lidarIgnoreCorridors 0
      (fun k c hk => by rwa [Nat.zero_add]) hw.corridors
    have hids : (σ.lidarIgnoreCorridors.map (restoredCorridor fl)).map (fun c => c.id.toNat) =
        idsOf σ.lidarIgnoreCorridors := by
      rw [List.map_map]
      rfl
    unfold kvCorridors
    rw [getInt_decimal hcount hw.corridorCount, Option.bind_some, Int.toNat_natCast, hlist,
      Option.bind_some, getUnsigned_decimal hnext (Nat.le_trans hw.nextCorridorId (by decide)),
      Option.map_some, hids, Fresh.past_eq hw.corridorIds]
  have hcount : KeyValues.find _ "area_count".toList = _ := hf .areaCount
  rw [last_areaCount, Option.map_some, asRead_decimal] at hcount
  have hareas := loadAreas_found fl hp σ.areas 0
    { τ with areas := [], obstaclePolygons := [] }
    (fun k area hk => by rw [Nat.zero_add]; exact hf.area hp hk) hw.areas
  have hnext : KeyValues.find _ "next_area_id".toList = _ := hf .nextAreaId
  rw [last_nextAreaId, Option.map_some, asRead_decimal] at hnext
  obtain ⟨n, after, hafter, hall⟩ := restoreAreas_areas fl
    { τ with areas := [], obstaclePolygons := [] } σ.areas
  have hids : ∀ area ∈ after, area.id ≠ 0 ∧ area.id.toNat < σ.nextAreaId.toNat := by
    intro area ha
    have hmem : area.id ∈ σ.areas.map (·.id) := by
      rw [← forall₂_restored_ids fl hall]
      exact List.mem_map_of_mem ha
    obtain ⟨before, hbefore, heq⟩ := List.mem_map.1 hmem
    rw [← heq]
    exact hw.areaIds before hbefore
  unfold loadAreasFromFile
  rw [hfile]
  dsimp only
  unfold loadKeyValues
  rw [hcorridors]
  dsimp only
  rw [getInt_decimal hcount hw.areaCount]
  dsimp only
  rw [Int.toNat_natCast, hareas]
  dsimp only
  unfold finishLoad restored
  rw [hafter]
  rw [migrateAreaIds_found fl idDisk hnext hw.nextAreaId (by simpa using hids) hpos]
  dsimp only
  obtain ⟨stamp, hstamp, hmigrate⟩ := migrateAreasDatum_found fl hp hf hw.datum
    (τ := { τ with
      areas := [] ++ after
      obstaclePolygons := []
      nextObstacleId := n
      lidarIgnoreCorridors := σ.lidarIgnoreCorridors.map (restoredCorridor fl)
      nextLidarCorridorId := σ.nextLidarCorridorId
      nextAreaId := σ.nextAreaId }) hsettings datumDisk
  rw [hstamp]
  dsimp only
  rw [hmigrate]

end Reread

end Map
end Mowgli
