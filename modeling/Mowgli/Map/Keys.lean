import Mowgli.Map.Load

/-!
# Keys — areas.dat as a list of keys and values

No two things of a map are written under one key, and a line that is written is read as its key
and its value. So the loader finds every value the writer left.
-/

namespace Mowgli
namespace Map

inductive AreaField
  | name | polygon | isNavigation | id | mowAngleDeg | ringDirection | startX | startY
  | obstacleCount
deriving DecidableEq

inductive ObstacleField
  | polygon | name | source
deriving DecidableEq

inductive CorridorField
  | name | polyline | widthM | id
deriving DecidableEq

/-- What a line of the file is about. -/
inductive Key
  | datumLat | datumLon | areaCount | nextAreaId | corridorCount | nextCorridorId
  | area (i : Nat) (field : AreaField)
  | obstacle (i j : Nat) (field : ObstacleField)
  | corridor (i : Nat) (field : CorridorField)
deriving DecidableEq

def AreaField.suffix : AreaField → String
  | .name => "_name"
  | .polygon => "_polygon"
  | .isNavigation => "_is_navigation"
  | .id => "_id"
  | .mowAngleDeg => "_mow_angle_deg"
  | .ringDirection => "_ring_direction"
  | .startX => "_start_x"
  | .startY => "_start_y"
  | .obstacleCount => "_obstacle_count"

def ObstacleField.suffix : ObstacleField → String
  | .polygon => ""
  | .name => "_name"
  | .source => "_source"

def CorridorField.suffix : CorridorField → String
  | .name => "_name"
  | .polyline => "_polyline"
  | .widthM => "_width_m"
  | .id => "_id"

/-- A key as it is written. -/
def Key.text : Key → Str
  | .datumLat => "datum_lat".toList
  | .datumLon => "datum_lon".toList
  | .areaCount => "area_count".toList
  | .nextAreaId => "next_area_id".toList
  | .corridorCount => "lidar_corridor_count".toList
  | .nextCorridorId => "next_lidar_corridor_id".toList
  | .area i field => indexed "area_" i field.suffix
  | .obstacle i j field => indexed "area_" i "" ++ indexed "_obstacle_" j "" ++ field.suffix.toList
  | .corridor i field => indexed "lidar_corridor_" i field.suffix

/-! ## A key is known by its text -/

def stripPrefix (stem : String) (s : Str) : Option Str :=
  if stem.toList.isPrefixOf s then some (s.drop stem.toList.length) else none

/-- A stem and a number before something. -/
def afterIndex (stem : String) (s : Str) : Option (Nat × Str) :=
  (stripPrefix stem s).bind Text.digits

def areaKey (i : Nat) (s : Str) : Option Key :=
  ((afterIndex "_obstacle_" s).bind fun r =>
    ([.polygon, .name, .source].find? fun field => field.suffix.toList == r.2).map
      (Key.obstacle i r.1)).or
  (([.name, .polygon, .isNavigation, .id, .mowAngleDeg, .ringDirection, .startX, .startY,
    .obstacleCount].find? fun field => field.suffix.toList == s).map (Key.area i))

/-- The key of a text. -/
def keyOf (s : Str) : Option Key :=
  ((afterIndex "area_" s).bind fun r => areaKey r.1 r.2).or <|
  ((afterIndex "lidar_corridor_" s).bind fun r =>
    ([.name, .polyline, .widthM, .id].find? fun field => field.suffix.toList == r.2).map
      (Key.corridor r.1)).or <|
  [.datumLat, .datumLon, .areaCount, .nextAreaId, .corridorCount, .nextCorridorId].find?
    fun k => k.text == s

theorem afterIndex_indexed (stem : String) (i : Nat) {rest : Str} (h : Text.Ends rest) :
    afterIndex stem (stem.toList ++ Text.decimal i ++ rest) = some (i, rest) := by
  have hprefix : stem.toList.isPrefixOf (stem.toList ++ (Text.decimal i ++ rest)) = true :=
    List.isPrefixOf_iff_prefix.2 (List.prefix_append _ _)
  unfold afterIndex stripPrefix
  rw [List.append_assoc, if_pos hprefix, List.drop_left]
  exact Text.digits_decimal i h

theorem ends_of_head {c : Char} {s : Str} (h : c.isDigit = false) : Text.Ends (c :: s) := by
  intro d hd
  cases hd
  exact h

theorem AreaField.ends (field : AreaField) : Text.Ends field.suffix.toList := by
  cases field <;> exact ends_of_head (by decide)

theorem CorridorField.ends (field : CorridorField) : Text.Ends field.suffix.toList := by
  cases field <;> exact ends_of_head (by decide)

theorem ObstacleField.ends (field : ObstacleField) : Text.Ends field.suffix.toList := by
  cases field with
  | polygon =>
    intro d hd
    cases hd
  | name => exact ends_of_head (by decide)
  | source => exact ends_of_head (by decide)

theorem areaKey_suffix (i : Nat) (field : AreaField) :
    areaKey i field.suffix.toList = some (.area i field) := by
  cases field <;> rfl

theorem areaKey_obstacle (i j : Nat) (field : ObstacleField) :
    areaKey i (indexed "_obstacle_" j "" ++ field.suffix.toList) = some (.obstacle i j field) := by
  have hafter : afterIndex "_obstacle_" (indexed "_obstacle_" j "" ++ field.suffix.toList) =
      some (j, field.suffix.toList) := by
    have h := afterIndex_indexed "_obstacle_" j field.ends
    simpa [indexed] using h
  unfold areaKey
  rw [hafter]
  cases field <;> rfl

theorem obstacle_text (i j : Nat) (field : ObstacleField) :
    (Key.obstacle i j field).text =
      "area_".toList ++ Text.decimal i ++
        (indexed "_obstacle_" j "" ++ field.suffix.toList) := by
  show indexed "area_" i "" ++ indexed "_obstacle_" j "" ++ field.suffix.toList = _
  rw [List.append_assoc, show indexed "area_" i "" = "area_".toList ++ Text.decimal i from
    List.append_nil _]

theorem afterIndex_obstacle (i j : Nat) (field : ObstacleField) :
    afterIndex "area_" (Key.obstacle i j field).text =
      some (i, indexed "_obstacle_" j "" ++ field.suffix.toList) := by
  rw [obstacle_text]
  refine afterIndex_indexed "area_" i ?_
  intro c hc
  cases hc
  decide

variable (k : Key)

theorem keyOf_text : keyOf k.text = some k := by
  cases k with
  | datumLat => rfl
  | datumLon => rfl
  | areaCount => rfl
  | nextAreaId => rfl
  | corridorCount => rfl
  | nextCorridorId => rfl
  | area i field =>
    unfold keyOf Key.text indexed
    rw [afterIndex_indexed "area_" i field.ends, Option.bind_some, areaKey_suffix]
    rfl
  | obstacle i j field =>
    have hafter := afterIndex_obstacle i j field
    unfold keyOf
    rw [hafter, Option.bind_some, areaKey_obstacle]
    rfl
  | corridor i field =>
    have hfirst : afterIndex "area_" (Key.corridor i field).text = none := by
      have htext : (Key.corridor i field).text =
          'l' :: ("idar_corridor_".toList ++ Text.decimal i ++ field.suffix.toList) := rfl
      rw [htext]
      rfl
    unfold keyOf
    rw [hfirst, Option.bind_none, Option.none_or]
    unfold Key.text indexed
    rw [afterIndex_indexed "lidar_corridor_" i field.ends, Option.bind_some]
    cases field <;> rfl

theorem Key.text_injective : Function.Injective Key.text := by
  intro k k' h
  have hk := keyOf_text k
  rw [h, keyOf_text k'] at hk
  cases hk
  rfl

/-! ## A line is read as its key and its value -/

def isBlank (c : Char) : Bool := c == ' ' || c == '\t'

/-- What is left of a value. -/
def asRead (value : Str) : Str :=
  (if value.getLast? == some '\r' then value.dropLast else value).dropWhile isBlank

/-- A line without its end. -/
def Line.body : Line → Str
  | .pair key value => key ++ ':' :: ' ' :: value
  | .text s => s

theorem Line.render_eq (l : Line) : l.render = l.body ++ ['\n'] := by
  cases l with
  | pair key value => simp [Line.render, Line.body]
  | text s => rfl

variable {ls ms : List Line} {es : List (Key × Str)}

theorem lines_render (h : ∀ l ∈ ls, '\n' ∉ l.body) : Text.lines (render ls) = ls.map Line.body := by
  induction ls with
  | nil => rfl
  | cons l ls ih =>
    have hrest := ih fun m hm => h m (List.mem_cons_of_mem l hm)
    show Text.lines (l.render ++ render ls) = _
    rw [Line.render_eq, List.append_assoc, List.singleton_append,
      Text.lines_append (h l List.mem_cons_self), hrest, List.map_cons]

/-- A key has neither a colon nor a line end in it. -/
def isPlain (s : Str) : Bool := s.all fun c => c != ':' && c != '\n'

theorem isPlain_append {s t : Str} (hs : isPlain s = true) (ht : isPlain t = true) :
    isPlain (s ++ t) = true := by
  unfold isPlain
  rw [List.all_append, Bool.and_eq_true]
  exact ⟨hs, ht⟩

theorem isPlain_decimal (n : Nat) : isPlain (Text.decimal n) = true := by
  refine List.all_eq_true.2 ?_
  intro c hc
  have hdigit := Text.isDigit_of_mem_decimal hc
  rw [Bool.and_eq_true, bne_iff_ne, bne_iff_ne]
  constructor <;> rintro rfl <;> exact absurd hdigit (by decide)

theorem isPlain_indexed {stem field : String} (hstem : isPlain stem.toList = true) (i : Nat)
    (hfield : isPlain field.toList = true) : isPlain (indexed stem i field) = true :=
  isPlain_append (isPlain_append hstem (isPlain_decimal i)) hfield

theorem AreaField.isPlain_suffix (field : AreaField) : isPlain field.suffix.toList = true := by
  cases field <;> decide

theorem ObstacleField.isPlain_suffix (field : ObstacleField) :
    isPlain field.suffix.toList = true := by
  cases field <;> decide

theorem CorridorField.isPlain_suffix (field : CorridorField) :
    isPlain field.suffix.toList = true := by
  cases field <;> decide

theorem Key.isPlain_text : isPlain k.text = true := by
  cases k with
  | datumLat => decide
  | datumLon => decide
  | areaCount => decide
  | nextAreaId => decide
  | corridorCount => decide
  | nextCorridorId => decide
  | area i field => exact isPlain_indexed (by decide) i field.isPlain_suffix
  | obstacle i j field =>
    exact isPlain_append (isPlain_append (isPlain_indexed (by decide) i (by decide))
      (isPlain_indexed (by decide) j (by decide))) field.isPlain_suffix
  | corridor i field => exact isPlain_indexed (by decide) i field.isPlain_suffix

theorem Key.colon_notMem_text : ∀ c ∈ k.text, (c != ':') = true := by
  intro c hc
  have h := List.all_eq_true.1 k.isPlain_text c hc
  rw [Bool.and_eq_true] at h
  exact h.1

theorem Key.newline_notMem_text : '\n' ∉ k.text := by
  intro hc
  have h := List.all_eq_true.1 k.isPlain_text '\n' hc
  exact absurd h (by decide)

/-- No key is a comment. -/
theorem Key.head_text : ∃ c s, k.text = c :: s ∧ c ≠ '#' := by
  cases k with
  | datumLat => exact ⟨_, _, rfl, by decide⟩
  | datumLon => exact ⟨_, _, rfl, by decide⟩
  | areaCount => exact ⟨_, _, rfl, by decide⟩
  | nextAreaId => exact ⟨_, _, rfl, by decide⟩
  | corridorCount => exact ⟨_, _, rfl, by decide⟩
  | nextCorridorId => exact ⟨_, _, rfl, by decide⟩
  | area i field =>
    exact ⟨'a', "rea_".toList ++ Text.decimal i ++ field.suffix.toList, rfl, by decide⟩
  | obstacle i j field =>
    rw [obstacle_text]
    exact ⟨'a', "rea_".toList ++ Text.decimal i ++
      (indexed "_obstacle_" j "" ++ field.suffix.toList), rfl, by decide⟩
  | corridor i field =>
    exact ⟨'l', "idar_corridor_".toList ++ Text.decimal i ++ field.suffix.toList, rfl, by decide⟩

/-- The end of a value is the end of its line. -/
theorem strip_pair (key value : Str) :
    (if (key ++ ':' :: ' ' :: value).getLast? == some '\r' then
        (key ++ ':' :: ' ' :: value).dropLast
      else key ++ ':' :: ' ' :: value) =
      key ++ ':' :: ' ' :: if value.getLast? == some '\r' then value.dropLast else value := by
  cases value with
  | nil => simp
  | cons c value =>
    have hlast : (key ++ ':' :: ' ' :: c :: value).getLast? = (c :: value).getLast? := by
      simp [List.getLast?_cons]
    rw [hlast]
    split
    · rw [List.dropLast_append_of_ne_nil (List.cons_ne_nil _ _), List.dropLast_cons_of_ne_nil
        (List.cons_ne_nil _ _), List.dropLast_cons_of_ne_nil (List.cons_ne_nil _ _)]
    · rfl

theorem parseLine_pair (value : Str) :
    parseLine (Line.pair k.text value).body = some (k.text, asRead value) := by
  obtain ⟨c, s, hk, hc⟩ := k.head_text
  have hcolon := k.colon_notMem_text
  unfold parseLine Line.body
  rw [strip_pair]
  dsimp only
  generalize hv : (if value.getLast? == some '\r' then value.dropLast else value) = v
  have htake : (k.text ++ ':' :: ' ' :: v).takeWhile (· != ':') = k.text := by
    rw [List.takeWhile_append_of_pos hcolon]
    simp
  have hdrop : (k.text ++ ':' :: ' ' :: v).dropWhile (· != ':') = ':' :: ' ' :: v := by
    rw [List.dropWhile_append_of_pos hcolon]
    simp
  have hfirst : ((k.text ++ ':' :: ' ' :: v).isEmpty ||
      (k.text ++ ':' :: ' ' :: v).head? == some '#') = false := by
    rw [hk]
    simpa using hc
  have hany : ((k.text ++ ':' :: ' ' :: v).any (· == ':')) = true := by simp
  rw [hfirst, if_neg Bool.false_ne_true, hany, if_pos rfl, htake, hdrop]
  unfold asRead
  rw [hv]
  rfl

/-- These lines are read as these entries. -/
structure Stands (ls : List Line) (entries : List (Key × Str)) : Prop where
  plain : ∀ l ∈ ls, '\n' ∉ l.body
  reads : ls.filterMap (fun l => parseLine l.body) =
    entries.map fun entry => (entry.1.text, asRead entry.2)

theorem Stands.nil : Stands [] [] := ⟨fun _ hl => absurd hl List.not_mem_nil, rfl⟩

theorem Stands.append {fs : List (Key × Str)} (h : Stands ls es) (h' : Stands ms fs) :
    Stands (ls ++ ms) (es ++ fs) := by
  refine ⟨?_, ?_⟩
  · intro l hl
    rcases List.mem_append.1 hl with hl | hl
    · exact h.plain l hl
    · exact h'.plain l hl
  · rw [List.filterMap_append, h.reads, h'.reads, List.map_append]

/-- Lines without entries, after some or before. -/
theorem Stands.append_none (h : Stands ls es) (h' : Stands ms []) : Stands (ls ++ ms) es := by
  have := h.append h'
  rwa [List.append_nil] at this

theorem Stands.none_append (h : Stands ls []) (h' : Stands ms es) : Stands (ls ++ ms) es := by
  have := h.append h'
  rwa [List.nil_append] at this

theorem Stands.pair {k : Key} {value : Str} (hv : '\n' ∉ value) (h : Stands ls es) :
    Stands (.pair k.text value :: ls) ((k, value) :: es) := by
  refine ⟨?_, ?_⟩
  · intro l hl
    rcases List.mem_cons.1 hl with rfl | hl
    · intro hmem
      have hk := k.newline_notMem_text
      have hn : '\n' ∈ k.text ++ ':' :: ' ' :: value := hmem
      simp [hk, hv] at hn
    · exact h.plain l hl
  · rw [List.filterMap_cons, parseLine_pair, h.reads, List.map_cons]

/-- An empty line or a comment is no entry. -/
theorem Stands.text {s : Str} (hs : '\n' ∉ s) (hnone : parseLine s = none) (h : Stands ls es) :
    Stands (.text s :: ls) es := by
  refine ⟨?_, ?_⟩
  · intro l hl
    rcases List.mem_cons.1 hl with rfl | hl
    · exact hs
    · exact h.plain l hl
  · rw [List.filterMap_cons, show parseLine (Line.text s).body = none from hnone, h.reads]

theorem Stands.blank (h : Stands ls es) : Stands (.text [] :: ls) es :=
  h.text List.not_mem_nil rfl

theorem Stands.ite {c : Prop} [Decidable c] {fs : List (Key × Str)} (h : c → Stands ls es)
    (h' : ¬c → Stands ms fs) : Stands (if c then ls else ms) (if c then es else fs) := by
  by_cases hc : c
  · rw [if_pos hc, if_pos hc]
    exact h hc
  · rw [if_neg hc, if_neg hc]
    exact h' hc

theorem Stands.indexed {α : Type} {lines : Nat → α → List Line}
    {entries : Nat → α → List (Key × Str)} {as : List α}
    (h : ∀ n, ∀ a ∈ as, Stands (lines n a) (entries n a)) (i : Nat) :
    Stands (indexedLines lines i as) (Lookup.indexed entries i as) := by
  induction as generalizing i with
  | nil => exact .nil
  | cons a as ih =>
    exact (h i a List.mem_cons_self).append
      (ih (fun n b hb => h n b (List.mem_cons_of_mem a hb)) (i + 1))

/-- The loader finds the last value of a key. -/
theorem Stands.find (h : Stands ls es) (k : Key) :
    (keyValues (render ls)).find k.text = (Lookup.last k es).map asRead := by
  unfold keyValues KeyValues.find
  rw [lines_render h.plain, List.filterMap_map]
  show Lookup.last k.text (ls.filterMap fun l => parseLine l.body) = _
  rw [h.reads]
  exact Lookup.last_map Key.text_injective asRead k es

end Map
end Mowgli
