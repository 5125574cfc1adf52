import Mowgli.Obstacles.Tracked

/-!
# PersistenceFile — what a load takes from a file

The reader goes through the file line by line and fills the tracked list as it goes. When every
number it comes to converts, the list holds the obstacles of the file and nothing else. A file
that was saved gives back what was saved.
-/

namespace Mowgli
namespace Obstacles

section Files

variable {D : Type} (fl : Doubles D)

/-! ## The numbers of a file -/

/-- Whether the reader is in an obstacle, and in its hull. -/
abbrev Place := Bool × Bool

def FieldConverts (field : Str) : Prop :=
  (∀ key ∈ ["cx", "cy", "radius", "first_seen_sec"], ∀ text ∈ valueOf key field,
    (stod fl text).isSome) ∧
  (∀ text ∈ valueOf "first_seen_sec" field, ∀ x ∈ stod fl text, isfinite fl x = true →
    (loadedTime fl x).isSome) ∧
  ∀ text ∈ valueOf "observation_count" field, (stoul text).isSome

/-- The numbers that are read from a line convert. -/
def LineConverts (place : Place) (line : Str) : Prop :=
  if (trim line).isEmpty || (trim line).head? == some '#' then True
  else if "- id:".toList.isPrefixOf (trim line) then
    (stoul ((trim line).drop 5)).isSome = true
  else if !place.1 then True
  else if "hull_points:".toList.isPrefixOf (trim line) then True
  else if place.2 && "- [".toList.isPrefixOf (trim line) then
    ∀ texts ∈ hullTexts (trim line),
      (stod fl texts.1).isSome = true ∧ (stod fl texts.2).isSome = true
  else FieldConverts fl (trim line)

def nextPlace (place : Place) (line : Str) : Place :=
  if (trim line).isEmpty || (trim line).head? == some '#' then place
  else if "- id:".toList.isPrefixOf (trim line) then (true, false)
  else if !place.1 then place
  else if "hull_points:".toList.isPrefixOf (trim line) then (place.1, true)
  else if place.2 && "- [".toList.isPrefixOf (trim line) then place
  else if (trim line).contains ':' && !"- [".toList.isPrefixOf (trim line) then
    (place.1, false)
  else place

def Converts : Place → List Str → Prop
  | _, [] => True
  | place, line :: rest => LineConverts fl place line ∧ Converts (nextPlace place line) rest

/-- What the id of a line becomes. -/
def idOf (line : Str) : Option UInt32 :=
  if "- id:".toList.isPrefixOf (trim line) then stoul ((trim line).drop 5) else none

/-- The ids a file gives. -/
def fileIds (lines : List Str) : List UInt32 := lines.filterMap idOf

/-- The numbers of a file convert, and no id is there twice or is the last one there is. -/
structure Sound (text : Str) : Prop where
  converts : Converts fl (false, false) (Text.lines text)
  nodup : (fileIds (Text.lines text)).Nodup
  room : ∀ id ∈ fileIds (Text.lines text), id.toNat + 1 < 2 ^ 32

end Files

section Reading

variable {D : Type} {fl : Doubles D} {l : Loading D}

/-! ## Reading -/

variable {field line : Str}

theorem parse_double_ok {key : String} (h : ∀ text ∈ valueOf key field, (stod fl text).isSome) :
    ∃ r, parse_double fl key field = .ok r ∧
      ∀ x, r = some x →
        ∃ text ∈ valueOf key field, stod fl text = some x ∧ isfinite fl x = true := by
  unfold parse_double
  cases hvalue : valueOf key field with
  | none => exact ⟨none, rfl, fun x hx => nomatch hx⟩
  | some text =>
    obtain ⟨x, hx⟩ := Option.isSome_iff_exists.1 (h text hvalue)
    simp only [hx]
    refine ⟨_, rfl, ?_⟩
    intro y hy
    split_ifs at hy with hfinite
    cases hy
    exact ⟨text, rfl, hx, hfinite⟩

theorem parse_uint_ok {key : String} (h : ∀ text ∈ valueOf key field, (stoul text).isSome) :
    ∃ r, parse_uint key field = .ok r := by
  unfold parse_uint
  cases hvalue : valueOf key field with
  | none => exact ⟨none, rfl⟩
  | some text =>
    obtain ⟨n, hn⟩ := Option.isSome_iff_exists.1 (h text hvalue)
    simp only [hn]
    exact ⟨_, rfl⟩

variable (now : Time)

theorem readField_ok (o : TrackedObstacle D) (h : FieldConverts fl field) :
    ∃ o', readField fl now o field = .ok o' ∧ o'.id = o.id := by
  obtain ⟨hdouble, htime, hcount⟩ := h
  obtain ⟨cx, hcx, -⟩ := parse_double_ok (hdouble "cx" (by simp))
  obtain ⟨cy, hcy, -⟩ := parse_double_ok (hdouble "cy" (by simp))
  obtain ⟨rad, hrad, -⟩ := parse_double_ok (hdouble "radius" (by simp))
  obtain ⟨fss, hfss, hfrom⟩ := parse_double_ok (hdouble "first_seen_sec" (by simp))
  obtain ⟨count, hcount⟩ := parse_uint_ok hcount
  unfold readField
  rw [hcx, hcy, hrad, hfss, hcount]
  cases cx with
  | some x => exact ⟨_, rfl, rfl⟩
  | none =>
  cases cy with
  | some x => exact ⟨_, rfl, rfl⟩
  | none =>
  cases rad with
  | some x => exact ⟨_, rfl, rfl⟩
  | none =>
  cases fss with
  | some x =>
    obtain ⟨text, htext, hx, hfinite⟩ := hfrom x rfl
    obtain ⟨t, ht⟩ := Option.isSome_iff_exists.1 (htime text htext x hx hfinite)
    refine ⟨{ o with first_seen := t, last_seen := now }, ?_, rfl⟩
    simp [ht, bind, Except.bind, pure, Except.pure]
  | none =>
  cases count with
  | some n => exact ⟨_, rfl, rfl⟩
  | none => exact ⟨_, rfl, rfl⟩

/-- The greatest id so far is one of those on the list. -/
structure Loading.Greatest (l : Loading D) : Prop where
  le : ∀ id ∈ ids l.tracked, id ≤ l.max_id
  mem : l.max_id = 0 ∨ l.max_id ∈ ids l.tracked

theorem push_ids (l : Loading D) :
    ids l.push.tracked = ids l.tracked ++ if l.in_obstacle then [l.current.id] else [] := by
  unfold Loading.push ids
  split_ifs <;> simp

theorem Loading.Greatest.push (h : l.Greatest) : l.push.Greatest := by
  have hids := push_ids l
  cases hin : l.in_obstacle with
  | false =>
    have heq : l.push = l := by
      unfold Loading.push
      rw [hin]
      rfl
    rw [heq]
    exact h
  | true =>
    rw [if_pos hin] at hids
    have hmax : l.push.max_id = if l.max_id < l.current.id then l.current.id else l.max_id := by
      unfold Loading.push
      rw [if_pos hin]
    by_cases hlt : l.max_id < l.current.id
    · rw [if_pos hlt] at hmax
      constructor
      · intro id hid
        rw [hids] at hid
        rw [hmax]
        rcases List.mem_append.1 hid with hid | hid
        · exact UInt32.le_of_lt (UInt32.lt_of_le_of_lt (h.le id hid) hlt)
        · rw [List.mem_singleton.1 hid]
          exact UInt32.le_refl _
      · rw [hids, hmax]
        exact .inr (List.mem_append_right _ List.mem_cons_self)
    · rw [if_neg hlt] at hmax
      constructor
      · intro id hid
        rw [hids] at hid
        rw [hmax]
        rcases List.mem_append.1 hid with hid | hid
        · exact h.le id hid
        · rw [List.mem_singleton.1 hid]
          exact UInt32.not_lt.1 hlt
      · rw [hids, hmax]
        exact h.mem.imp_right fun hmem => List.mem_append_left _ hmem

/-- What one line does when its numbers convert. -/
structure Loading.Takes (l l' : Loading D) (line : Str) : Prop where
  place : (l'.in_obstacle, l'.in_hull) = nextPlace (l.in_obstacle, l.in_hull) line
  ids : ids l'.push.tracked = ids l.push.tracked ++ (idOf line).toList
  greatest : l.Greatest → l'.Greatest

theorem idOf_none (h : "- id:".toList.isPrefixOf (trim line) = false) : idOf line = none := by
  unfold idOf
  rw [h]
  rfl

/-- A line that leaves the list and the id alone. -/
theorem Loading.Takes.aside {l l' : Loading D} (htracked : l'.tracked = l.tracked)
    (hin : l'.in_obstacle = l.in_obstacle) (hid : l'.current.id = l.current.id)
    (hmax : l'.max_id = l.max_id)
    (hplace : (l'.in_obstacle, l'.in_hull) = nextPlace (l.in_obstacle, l.in_hull) line)
    (hnone : idOf line = none) : l.Takes l' line where
  place := hplace
  ids := by
    rw [push_ids, push_ids, htracked, hin, hid, hnone, Option.toList_none, List.append_nil]
  greatest := fun h => ⟨by rw [htracked, hmax]; exact h.le, by rw [htracked, hmax]; exact h.mem⟩

theorem readLine_ok (h : LineConverts fl (l.in_obstacle, l.in_hull) line) :
    ∃ l', readLine fl now l line = .ok l' ∧ l.Takes l' line := by
  have hplace : nextPlace (l.in_obstacle, l.in_hull) line =
    nextPlace (l.in_obstacle, l.in_hull) line := rfl
  conv_rhs at hplace => unfold nextPlace
  unfold LineConverts at h
  unfold readLine
  dsimp only at h hplace ⊢
  cases hskip : (trim line).isEmpty || (trim line).head? == some '#' with
  | true =>
    simp only [hskip, if_true] at hplace ⊢
    refine ⟨l, rfl, .aside rfl rfl rfl rfl hplace.symm (idOf_none ?_)⟩
    cases hline : trim line with
    | nil => rfl
    | cons c rest =>
      rw [hline] at hskip
      have hc : c = '#' := by simpa using hskip
      rw [hc]
      rfl
  | false =>
  simp only [hskip, Bool.false_eq_true, if_false] at h hplace ⊢
  cases hentry : "- id:".toList.isPrefixOf (trim line) with
  | true =>
    simp only [hentry, if_true] at h hplace ⊢
    obtain ⟨id, hid⟩ := Option.isSome_iff_exists.1 h
    simp only [hid]
    refine ⟨_, rfl, hplace.symm, ?_, fun hgreatest => ?_⟩
    · rw [push_ids]
      unfold idOf
      rw [if_pos hentry, hid]
      rfl
    · exact ⟨hgreatest.push.le, hgreatest.push.mem⟩
  | false =>
  have hnone : idOf line = none := idOf_none hentry
  simp only [hentry, Bool.false_eq_true, if_false] at h hplace ⊢
  cases hin : l.in_obstacle with
  | false =>
    simp only [hin, Bool.not_false, if_true] at hplace ⊢
    exact ⟨l, rfl, .aside rfl rfl rfl rfl (by rw [hin, hplace]) hnone⟩
  | true =>
  simp only [hin, Bool.not_true, Bool.false_eq_true, if_false] at h hplace ⊢
  cases hhull : "hull_points:".toList.isPrefixOf (trim line) with
  | true =>
    simp only [hhull, if_true] at hplace ⊢
    exact ⟨_, rfl, .aside rfl hin.symm rfl rfl (by rw [hin, hplace]) hnone⟩
  | false =>
  simp only [hhull, Bool.false_eq_true, if_false] at h hplace ⊢
  cases hpoint : l.in_hull && "- [".toList.isPrefixOf (trim line) with
  | true =>
    simp only [hpoint, if_true] at h hplace ⊢
    cases htexts : hullTexts (trim line) with
    | none => exact ⟨l, rfl, .aside rfl rfl rfl rfl (by rw [hin, hplace]) hnone⟩
    | some texts =>
      obtain ⟨hx, hy⟩ := h texts htexts
      obtain ⟨x, hx⟩ := Option.isSome_iff_exists.1 hx
      obtain ⟨y, hy⟩ := Option.isSome_iff_exists.1 hy
      simp only [hx, hy]
      exact ⟨_, rfl, .aside rfl hin.symm rfl rfl (by rw [hin, hplace]) hnone⟩
  | false =>
    simp only [hpoint, Bool.false_eq_true, if_false] at h hplace ⊢
    obtain ⟨o', ho', hid⟩ := readField_ok now l.current h
    cases hkey : (trim line).contains ':' && !"- [".toList.isPrefixOf (trim line) with
    | true =>
      simp only [hkey, if_true, ho'] at hplace ⊢
      exact ⟨_, rfl, .aside rfl hin.symm hid rfl (by rw [hin, hplace]) hnone⟩
    | false =>
      simp only [hkey, Bool.false_eq_true, if_false, ho'] at hplace ⊢
      exact ⟨_, rfl, .aside rfl rfl hid rfl (by rw [hin, hplace]) hnone⟩

theorem readLines_cons {now : Time} {l₁ : Loading D} {rest : List Str}
    (h : readLine fl now l line = .ok l₁) :
    readLines fl now l (line :: rest) = readLines fl now l₁ rest := by
  unfold readLines
  rw [List.foldlM_cons, h]
  rfl

theorem readLines_ok {lines : List Str} (h : Converts fl (l.in_obstacle, l.in_hull) lines) :
    ∃ l', readLines fl now l lines = .ok l' ∧
      ids l'.push.tracked = ids l.push.tracked ++ fileIds lines ∧ (l.Greatest → l'.Greatest) := by
  induction lines generalizing l with
  | nil => exact ⟨l, rfl, by simp [fileIds], id⟩
  | cons line lines ih =>
    obtain ⟨hline, hrest⟩ := h
    obtain ⟨l₁, hread, htakes⟩ := readLine_ok now hline
    rw [← htakes.place] at hrest
    obtain ⟨l', hlines, hids, hgreatest⟩ := ih hrest
    refine ⟨l', (readLines_cons hread).trans hlines, ?_, fun hg => hgreatest (htakes.greatest hg)⟩
    · rw [hids, htakes.ids, List.append_assoc]
      unfold fileIds
      cases hid : idOf line with
      | none => rw [List.filterMap_cons_none hid, Option.toList_none, List.nil_append]
      | some id => rw [List.filterMap_cons_some hid, Option.toList_some, List.singleton_append]

theorem load_sound {s : Node D} {text : Str} (hfile : s.file = some text) (h : Sound fl text) :
    (load_from_file fl now s).2 = none ∧
      Counted (load_from_file fl now s).1.tracked (load_from_file fl now s).1.next_id := by
  let start : Loading D :=
    { tracked := [], current := TrackedObstacle.blank fl, in_obstacle := false, in_hull := false
      max_id := 0 }
  have hconverts : Converts fl (start.in_obstacle, start.in_hull) (Text.lines text) := h.converts
  obtain ⟨l, hread, hids, hgreatest⟩ := readLines_ok now hconverts
  have hids : ids l.push.tracked = fileIds (Text.lines text) := hids
  have hstart : start.Greatest := ⟨fun _ hid => (nomatch hid), .inl rfl⟩
  have hlast := (hgreatest hstart).push
  have hload : load_from_file fl now s =
      ({ s with tracked := l.push.tracked, next_id := l.push.max_id + 1 }, none) := by
    have hread : readLines fl now
        { tracked := [], current := TrackedObstacle.blank fl, in_obstacle := false
          in_hull := false, max_id := 0 } (Text.lines text) = .ok l := hread
    simp only [load_from_file, hfile, hread]
  have hroom : l.push.max_id.toNat + 1 < 2 ^ 32 := by
    rcases hlast.mem with hzero | hmem
    · rw [hzero]
      decide
    · rw [hids] at hmem
      exact h.room _ hmem
  rw [hload]
  refine ⟨rfl, hids ▸ h.nodup, ?_⟩
  intro n hn
  obtain ⟨id, hid, rfl⟩ := List.mem_map.1 hn
  rw [toNat_succ hroom]
  exact Nat.lt_succ_of_le (UInt32.le_iff_toNat_le.1 (hlast.le id hid))

end Reading

/-! ## What was saved -/

section Saved

variable {D : Type} (fl : Doubles D)

/-- The decimal that is printed of a number. -/
def decimalOf (fixed : Bool) (q : ℚ) : ℚ :=
  if fixed then Text.fixedValue 6 q else Text.generalValue 5 q

/-- Half a unit of the last place that is printed. -/
def printedPrecision (fixed : Bool) (q : ℚ) : ℚ :=
  if fixed then 1 / 2 / 10 ^ 6 else q / 2 / 10 ^ 5

/-- The number `y` is `x` up to the precision it was printed with. -/
def Restored (fixed : Bool) (x y : D) : Prop :=
  match fl.value x with
  | some q =>
    ∃ r, abs (r - |q|) ≤ printedPrecision fixed |q| ∧ fl.nearest (fl.negative x) r = some y
  | none => y = if fl.isNan x then fl.nan (fl.negative x) else fl.infinity (fl.negative x)

/-- What is printed of the number is in the range of the doubles. -/
def InRange (fixed : Bool) (x : D) : Prop :=
  ∀ q ∈ fl.value x, (fl.nearest (fl.negative x) (decimalOf fixed |q|)).isSome = true

/-- And it is finite. -/
def Finite (fixed : Bool) (x : D) : Prop :=
  ∃ q ∈ fl.value x, ∃ y ∈ fl.nearest (fl.negative x) (decimalOf fixed |q|), isfinite fl y = true

/-- An obstacle whose numbers have a text that gives them back. -/
structure Printable (fixed : Bool) (o : TrackedObstacle D) : Prop where
  cx : Finite fl fixed o.cx
  cy : Finite fl fixed o.cy
  radius : Finite fl fixed o.radius
  first_seen : ∃ q ∈ fl.value (seconds fl o.first_seen),
    ∃ y ∈ fl.nearest (fl.negative (seconds fl o.first_seen)) (decimalOf true |q|),
      isfinite fl y = true ∧ (loadedTime fl y).isSome = true
  hull : ∀ p ∈ o.hull_points, InRange fl true p.1 ∧ InRange fl true p.2

def Printables : Bool → List (TrackedObstacle D) → Prop
  | _, [] => True
  | fixed, o :: rest => Printable fl fixed o ∧ Printables true rest

/-- The obstacle `o'` is what was saved of `o`. -/
structure Restores (fixed : Bool) (o o' : TrackedObstacle D) : Prop where
  id : o'.id = o.id
  observation_count : o'.observation_count = o.observation_count
  persistent : o'.persistent = true
  cx : Restored fl fixed o.cx o'.cx
  cy : Restored fl fixed o.cy o'.cy
  radius : Restored fl fixed o.radius o'.radius
  first_seen : ∃ fss, Restored fl true (seconds fl o.first_seen) fss ∧
    loadedTime fl fss = some o'.first_seen
  hull_points : List.Forall₂ (fun p p' => Restored fl true p.1 p'.1 ∧ Restored fl true p.2 p'.2)
    o.hull_points o'.hull_points

/-- One for one, and nothing else. The first is printed before `std::fixed`. -/
def RestoresAll : Bool → List (TrackedObstacle D) → List (TrackedObstacle D) → Prop
  | _, [], [] => True
  | fixed, o :: rest, o' :: rest' => Restores fl fixed o o' ∧ RestoresAll true rest rest'
  | _, _, _ => False

variable {fl}

theorem decimalOf_near (fixed : Bool) {q : ℚ} (hq : 0 ≤ q) :
    |decimalOf fixed q - q| ≤ printedPrecision fixed q := by
  cases fixed with
  | true => exact Text.fixedValue_near 6 hq
  | false => exact Text.generalValue_near 5 hq

/-- What a number is read back as. -/
theorem stod_shown (fixed : Bool) (x : D) :
    stod fl (shown fl fixed x) =
      match fl.value x with
      | some q => fl.nearest (fl.negative x) (decimalOf fixed |q|)
      | none =>
        some (if fl.isNan x then fl.nan (fl.negative x) else fl.infinity (fl.negative x)) := by
  unfold stod shown signedText
  cases hvalue : fl.value x with
  | some q =>
    cases fixed with
    | true =>
      have hread := Text.strtod_fixed (fl.negative x) 6 |q|
      simp only [if_true, hread]
      rfl
    | false =>
      have hread := Text.strtod_general (fl.negative x) 5 |q|
      simp only [Bool.false_eq_true, if_false, hread]
      rfl
  | none => cases fl.isNan x <;> cases fl.negative x <;> rfl

variable {fixed : Bool} {x : D} {field : Str}

theorem stod_restored {y : D} (h : stod fl (shown fl fixed x) = some y) :
    Restored fl fixed x y := by
  rw [stod_shown] at h
  unfold Restored
  cases hvalue : fl.value x with
  | some q =>
    simp only [hvalue] at h ⊢
    exact ⟨decimalOf fixed |q|, decimalOf_near fixed (abs_nonneg q), h⟩
  | none =>
    simp only [hvalue, Option.some.injEq] at h ⊢
    exact h.symm

theorem InRange.stod (h : InRange fl true x) : ∃ y, stod fl (shown fl true x) = some y := by
  rw [stod_shown]
  cases hvalue : fl.value x with
  | some q => exact Option.isSome_iff_exists.1 (h q hvalue)
  | none => exact ⟨_, rfl⟩

theorem Finite.stod (h : Finite fl fixed x) :
    ∃ y, stod fl (shown fl fixed x) = some y ∧ isfinite fl y = true := by
  obtain ⟨q, hq, y, hy, hfinite⟩ := h
  have hvalue : fl.value x = some q := hq
  refine ⟨y, ?_, hfinite⟩
  rw [stod_shown, hvalue]
  exact hy

/-- A space in front of a number is skipped. -/
theorem stod_space (s : Str) : stod fl (' ' :: s) = stod fl s := rfl

/-- Neither a separator nor the end of a line is in a number. -/
theorem not_mem_shown {c : Char} (hc : c = ',' ∨ c = ']' ∨ c = '\n') (fixed : Bool) (x : D) :
    c ∉ shown fl fixed x := by
  have hnumeral : ∀ s, Text.Unsigned s → c ∉ s := by
    intro s hs hmem
    have := hs.chars c hmem
    rcases hc with rfl | rfl | rfl <;> cases this
  have hword : c ∉ ['n', 'a', 'n'] ∧ c ∉ ['i', 'n', 'f'] ∧ c ≠ '-' := by
    rcases hc with rfl | rfl | rfl <;> decide
  have htext : c ∉ (match fl.value x with
      | some q => (if fixed then Text.fixed 6 else Text.general 5) |q|
      | none => if fl.isNan x then ['n', 'a', 'n'] else ['i', 'n', 'f'] : Str) := by
    cases fl.value x with
    | some q =>
      cases fixed with
      | true => exact hnumeral _ (Text.fixed_unsigned 6 |q|)
      | false => exact hnumeral _ (Text.general_unsigned 5 |q|)
    | none =>
      cases fl.isNan x with
      | true => exact hword.1
      | false => exact hword.2.1
  unfold shown signedText
  cases fl.negative x with
  | true =>
    intro hmem
    rcases List.mem_cons.1 hmem with heq | hmem
    · exact hword.2.2 heq
    · exact htext hmem
  | false => exact htext

/-! ## Reading it back -/

variable {now : Time} {l : Loading D} {o : TrackedObstacle D}

theorem stoul_decimal (n : UInt32) : stoul (Text.decimal n.toNat) = some n := by
  have hlt : n.toNat < 2 ^ 64 := Nat.lt_of_lt_of_le n.toNat_lt (by decide)
  have hread := Text.unsigned_decimal hlt Text.ends_nil
  rw [List.append_nil] at hread
  unfold stoul
  rw [hread]
  exact congrArg some (UInt32.ofNat_toNat)

theorem parse_double_here {key : String} {text : Str} (hvalue : valueOf key field = some text)
    (hx : stod fl text = some x) (hfinite : isfinite fl x = true) :
    parse_double fl key field = .ok (some x) := by
  unfold parse_double
  simp only [hvalue, hx, hfinite, if_true]

theorem parse_double_elsewhere {key : String} (hvalue : valueOf key field = none) :
    parse_double fl key field = .ok none := by
  unfold parse_double
  simp only [hvalue]

theorem read_id (id : UInt32) :
    readLine fl now l ("  - id: ".toList ++ Text.decimal id.toNat) =
      .ok { l.push with
        current := { TrackedObstacle.blank fl with id := id }
        in_obstacle := true
        in_hull := false } := by
  have hread : stoul (' ' :: Text.decimal id.toNat) = some id := by
    rw [← stoul_decimal id]
    unfold stoul
    rw [Text.unsigned_space]
  have htrim : trim ("  - id: ".toList ++ Text.decimal id.toNat) =
      "- id: ".toList ++ Text.decimal id.toNat := rfl
  have hstart : (("- id: ".toList ++ Text.decimal id.toNat).isEmpty ||
      ("- id: ".toList ++ Text.decimal id.toNat).head? == some '#') = false := rfl
  have hentry : "- id:".toList.isPrefixOf ("- id: ".toList ++ Text.decimal id.toNat) = true := rfl
  have hdrop : ("- id: ".toList ++ Text.decimal id.toNat).drop 5 =
      ' ' :: Text.decimal id.toNat := rfl
  unfold readLine
  dsimp only
  rw [htrim, hstart, hentry, hdrop, hread]
  rfl

/-- A line of a key and a value. -/
structure IsField (line field : Str) : Prop where
  trim : trim line = field
  start : (field.isEmpty || field.head? == some '#') = false
  entry : "- id:".toList.isPrefixOf field = false
  hull : "hull_points:".toList.isPrefixOf field = false
  point : "- [".toList.isPrefixOf field = false
  colon : field.contains ':' = true

theorem IsField.read {line : Str} {o' : TrackedObstacle D} (h : IsField line field)
    (hin : l.in_obstacle = true) (ho' : readField fl now l.current field = .ok o') :
    readLine fl now l line = .ok { l with current := o', in_hull := false } := by
  unfold readLine
  dsimp only
  simp only [h.trim, h.start, h.entry, h.hull, h.point, h.colon, hin, ho', Bool.false_eq_true,
    Bool.not_true, Bool.not_false, Bool.and_false, Bool.and_true, if_false, if_true]

section Fields

variable {x : D} {text : Str} (hx : stod fl text = some x) (hfinite : isfinite fl x = true)

include hx hfinite

theorem readField_cx : readField fl now o ("cx: ".toList ++ text) = .ok { o with cx := x } := by
  unfold readField
  rw [parse_double_here rfl hx hfinite]
  rfl

theorem readField_cy : readField fl now o ("cy: ".toList ++ text) = .ok { o with cy := x } := by
  unfold readField
  rw [parse_double_elsewhere rfl, parse_double_here rfl hx hfinite]
  rfl

theorem readField_radius :
    readField fl now o ("radius: ".toList ++ text) = .ok { o with radius := x } := by
  unfold readField
  rw [parse_double_elsewhere rfl, parse_double_elsewhere rfl, parse_double_here rfl hx hfinite]
  rfl

theorem readField_first_seen {t : Time} (ht : loadedTime fl x = some t) :
    readField fl now o ("first_seen_sec: ".toList ++ text) =
      .ok { o with first_seen := t, last_seen := now } := by
  unfold readField
  rw [parse_double_elsewhere rfl, parse_double_elsewhere rfl, parse_double_elsewhere rfl,
    parse_double_here rfl hx hfinite]
  simp only [bind, Except.bind, ht, pure, Except.pure]

end Fields

theorem readField_count (hzero : o.observation_count = 0) (n : UInt32) :
    readField fl now o ("observation_count: ".toList ++ Text.decimal n.toNat) =
      .ok { o with observation_count := n } := by
  have hcount : parse_uint "observation_count" ("observation_count: ".toList ++
      Text.decimal n.toNat) = .ok (if 0 < n then some n else none) := by
    have hvalue : valueOf "observation_count" ("observation_count: ".toList ++
        Text.decimal n.toNat) = some (Text.decimal n.toNat) := rfl
    simp only [parse_uint, hvalue, stoul_decimal]
  unfold readField
  rw [parse_double_elsewhere rfl, parse_double_elsewhere rfl, parse_double_elsewhere rfl,
    parse_double_elsewhere rfl, hcount]
  split_ifs with hn
  · rfl
  · have hnone : n = 0 := UInt32.le_antisymm (UInt32.not_lt.1 hn) UInt32.zero_le
    rw [hnone, ← hzero]
    rfl

theorem read_hull_key (hin : l.in_obstacle = true) :
    readLine fl now l "    hull_points:".toList = .ok { l with in_hull := true } := by
  show (if !l.in_obstacle then Except.ok l else Except.ok { l with in_hull := true }) = _
  rw [hin]
  rfl

theorem hullTexts_pair {a b : Str} (ha : ',' ∉ a) (hb : ']' ∉ b) :
    hullTexts ("- [".toList ++ a ++ ", ".toList ++ b ++ "]".toList) = some (a, ' ' :: b) := by
  have hdrop : ("- [".toList ++ a ++ ", ".toList ++ b ++ "]".toList).drop 3 =
      a ++ ',' :: (' ' :: (b ++ [']'])) := by
    show a ++ [',', ' '] ++ b ++ [']'] = _
    simp
  have hb' : ']' ∉ ' ' :: b := by
    intro hmem
    rcases List.mem_cons.1 hmem with heq | hmem
    · cases heq
    · exact hb hmem
  have hsecond : (' ' :: b ++ [']']).takeWhile (· != ']') = ' ' :: b := Text.takeWhile_ne hb'
  unfold hullTexts
  rw [hdrop, Text.takeWhile_ne ha, Text.dropWhile_ne ha]
  show (if !(',' :: ' ' :: (b ++ [']'])).contains ']' then none
    else some (a, (' ' :: (b ++ [']'])).takeWhile (· != ']'))) = _
  rw [if_neg (by simp)]
  exact congrArg (fun s => some (a, s)) hsecond

theorem read_point (now : Time) {p p' : D × D} (hin : l.in_obstacle = true)
    (hhull : l.in_hull = true)
    (hx : stod fl (shown fl true p.1) = some p'.1) (hy : stod fl (shown fl true p.2) = some p'.2) :
    readLine fl now l ("      - [".toList ++ shown fl true p.1 ++ ", ".toList ++
      shown fl true p.2 ++ "]".toList) =
      .ok { l with
        current := { l.current with hull_points := l.current.hull_points ++ [p'] } } := by
  have hcomma : ',' ∉ shown fl true p.1 := not_mem_shown (.inl rfl) true p.1
  have hbracket : ']' ∉ shown fl true p.2 := not_mem_shown (.inr (.inl rfl)) true p.2
  have htexts := hullTexts_pair hcomma hbracket
  generalize hfield : "- [".toList ++ shown fl true p.1 ++ ", ".toList ++ shown fl true p.2 ++
    "]".toList = field at htexts
  have htrim : trim ("      - [".toList ++ shown fl true p.1 ++ ", ".toList ++
      shown fl true p.2 ++ "]".toList) = field := hfield
  have hstart : (field.isEmpty || field.head? == some '#') = false := by
    rw [← hfield]
    rfl
  have hentry : "- id:".toList.isPrefixOf field = false := by
    rw [← hfield]
    rfl
  have hkey : "hull_points:".toList.isPrefixOf field = false := by
    rw [← hfield]
    rfl
  have hpoint : "- [".toList.isPrefixOf field = true := by
    rw [← hfield]
    rfl
  unfold readLine
  dsimp only
  simp only [htrim, hstart, hentry, hkey, hpoint, hin, hhull, htexts, hx, stod_space, hy,
    Bool.false_eq_true, Bool.not_true, Bool.and_true, if_false, if_true]

/-- What a hull gives back. -/
theorem read_points (now : Time) {points : List (D × D)} (hin : l.in_obstacle = true)
    (hhull : l.in_hull = true) (h : ∀ p ∈ points, InRange fl true p.1 ∧ InRange fl true p.2) :
    ∃ points', readLines fl now l (points.map fun p =>
        "      - [".toList ++ shown fl true p.1 ++ ", ".toList ++ shown fl true p.2 ++
          "]".toList) =
        .ok { l with
          current := { l.current with hull_points := l.current.hull_points ++ points' } } ∧
      List.Forall₂ (fun p p' => Restored fl true p.1 p'.1 ∧ Restored fl true p.2 p'.2)
        points points' := by
  induction points generalizing l with
  | nil =>
    refine ⟨[], ?_, .nil⟩
    show Except.ok l = _
    rw [List.append_nil]
  | cons p points ih =>
    obtain ⟨hrange, hrest⟩ := List.forall_mem_cons.1 h
    obtain ⟨x, hx⟩ := hrange.1.stod
    obtain ⟨y, hy⟩ := hrange.2.stod
    let l' := { l with
      current := { l.current with hull_points := l.current.hull_points ++ [(x, y)] } }
    have hpoint : readLine fl now l _ = .ok l' := read_point now hin hhull hx hy
    have hin' : l'.in_obstacle = true := hin
    obtain ⟨points', hread, hall⟩ := ih hin' hhull hrest
    refine ⟨(x, y) :: points', ?_, .cons ⟨stod_restored hx, stod_restored hy⟩ hall⟩
    rw [List.map_cons, readLines_cons hpoint, hread]
    show Except.ok { l with
      current := { l.current with
        hull_points := l.current.hull_points ++ [(x, y)] ++ points' } } = _
    rw [List.append_assoc]
    rfl

/-- An obstacle goes onto the list when the next one starts. -/
theorem read_entry (now : Time) (l : Loading D) (h : Printable fl fixed o) :
    ∃ l', readLines fl now l (entry fl fixed o) = .ok l' ∧ l'.tracked = l.push.tracked ∧
      l'.in_obstacle = true ∧ Restores fl fixed o { l'.current with persistent := true } := by
  obtain ⟨cx, hcx, hcxfin⟩ := h.cx.stod
  obtain ⟨cy, hcy, hcyfin⟩ := h.cy.stod
  obtain ⟨rad, hrad, hradfin⟩ := h.radius.stod
  obtain ⟨q, hq, fss, hnearest, hfssfin, htime⟩ := h.first_seen
  obtain ⟨t, ht⟩ := Option.isSome_iff_exists.1 htime
  have hvalue : fl.value (seconds fl o.first_seen) = some q := hq
  have hfss : stod fl (shown fl true (seconds fl o.first_seen)) = some fss := by
    rw [stod_shown, hvalue]
    exact hnearest
  let blank : TrackedObstacle D := { TrackedObstacle.blank fl with id := o.id }
  let l₁ : Loading D := { l.push with current := blank, in_obstacle := true, in_hull := false }
  let l₂ : Loading D := { l₁ with current := { blank with cx := cx } }
  let l₃ : Loading D := { l₁ with current := { blank with cx := cx, cy := cy } }
  let l₄ : Loading D := { l₁ with current := { blank with cx := cx, cy := cy, radius := rad } }
  let l₅ : Loading D := { l₁ with
    current := { blank with
      cx := cx, cy := cy, radius := rad, first_seen := t, last_seen := now } }
  let l₆ : Loading D := { l₁ with
    current := { blank with
      cx := cx, cy := cy, radius := rad, first_seen := t, last_seen := now
      observation_count := o.observation_count } }
  let l₇ : Loading D := { l₆ with in_hull := true }
  have hid : readLine fl now l _ = .ok l₁ := read_id o.id
  have h₂ : readLine fl now l₁ ("    cx: ".toList ++ shown fl fixed o.cx) = .ok l₂ :=
    IsField.read ⟨rfl, rfl, rfl, rfl, rfl, rfl⟩ rfl (readField_cx hcx hcxfin)
  have h₃ : readLine fl now l₂ ("    cy: ".toList ++ shown fl fixed o.cy) = .ok l₃ :=
    IsField.read ⟨rfl, rfl, rfl, rfl, rfl, rfl⟩ rfl (readField_cy hcy hcyfin)
  have h₄ : readLine fl now l₃ ("    radius: ".toList ++ shown fl fixed o.radius) = .ok l₄ :=
    IsField.read ⟨rfl, rfl, rfl, rfl, rfl, rfl⟩ rfl (readField_radius hrad hradfin)
  have h₅ : readLine fl now l₄ ("    first_seen_sec: ".toList ++
      shown fl true (seconds fl o.first_seen)) = .ok l₅ :=
    IsField.read ⟨rfl, rfl, rfl, rfl, rfl, rfl⟩ rfl (readField_first_seen hfss hfssfin ht)
  have h₆ : readLine fl now l₅ ("    observation_count: ".toList ++
      Text.decimal o.observation_count.toNat) = .ok l₆ :=
    IsField.read ⟨rfl, rfl, rfl, rfl, rfl, rfl⟩ rfl (readField_count rfl o.observation_count)
  have h₇ : readLine fl now l₆ "    hull_points:".toList = .ok l₇ := read_hull_key rfl
  have hin₇ : l₇.in_obstacle = true := rfl
  obtain ⟨points, hpoints, hall⟩ := read_points now hin₇ rfl h.hull
  refine ⟨{ l₇ with current := { l₇.current with hull_points := points } }, ?_, rfl, rfl, ?_⟩
  · unfold entry
    rw [List.cons_append, readLines_cons hid, List.cons_append, readLines_cons h₂,
      List.cons_append, readLines_cons h₃, List.cons_append, readLines_cons h₄,
      List.cons_append, readLines_cons h₅, List.cons_append, readLines_cons h₆,
      List.cons_append, readLines_cons h₇]
    exact hpoints
  · exact {
      id := rfl
      observation_count := rfl
      persistent := rfl
      cx := stod_restored hcx
      cy := stod_restored hcy
      radius := stod_restored hrad
      first_seen := ⟨fss, stod_restored hfss, ht⟩
      hull_points := hall }

theorem readLines_append {l₁ : Loading D} {lines rest : List Str}
    (h : readLines fl now l lines = .ok l₁) :
    readLines fl now l (lines ++ rest) = readLines fl now l₁ rest := by
  unfold readLines at h ⊢
  rw [List.foldlM_append, h]
  rfl

theorem read_entries (now : Time) (l : Loading D) {tracked : List (TrackedObstacle D)}
    (h : Printables fl fixed (tracked.filter (·.persistent))) :
    ∃ l' rest, readLines fl now l (entries fl fixed tracked) = .ok l' ∧
      l'.push.tracked = l.push.tracked ++ rest ∧
      RestoresAll fl fixed (tracked.filter (·.persistent)) rest := by
  induction tracked generalizing fixed l with
  | nil => exact ⟨l, [], rfl, (List.append_nil _).symm, trivial⟩
  | cons o tracked ih =>
    unfold entries
    cases hpersistent : o.persistent with
    | false =>
      rw [List.filter_cons_of_neg (by rw [hpersistent]; exact Bool.false_ne_true)] at h ⊢
      exact ih l h
    | true =>
      rw [List.filter_cons_of_pos hpersistent] at h ⊢
      obtain ⟨hprintable, hrest⟩ := h
      obtain ⟨l₁, hread, htracked, hin, hrestores⟩ := read_entry now l hprintable
      obtain ⟨l', rest, hentries, hpush, hall⟩ := ih l₁ hrest
      refine ⟨l', { l₁.current with persistent := true } :: rest,
        (readLines_append hread).trans hentries, ?_, hrestores, hall⟩
      have hpushed : l₁.push.tracked =
          l.push.tracked ++ [{ l₁.current with persistent := true }] := by
        rw [← htracked]
        unfold Loading.push
        rw [if_pos hin]
      rw [hpush, hpushed, List.append_assoc, List.singleton_append]

/-- No text of an obstacle goes over the end of its line. -/
theorem not_newline_entry (fixed : Bool) (o : TrackedObstacle D) :
    ∀ line ∈ entry fl fixed o, '\n' ∉ line := by
  have hshown : ∀ (fixed : Bool) (x : D), '\n' ∉ shown fl fixed x :=
    not_mem_shown (.inr (.inr rfl))
  have hdecimal : ∀ n, '\n' ∉ Text.decimal n := fun n => Text.not_mem_decimal rfl
  have happend : ∀ {a b : Str}, '\n' ∉ a → '\n' ∉ b → '\n' ∉ a ++ b := by
    intro a b ha hb hmem
    rcases List.mem_append.1 hmem with hmem | hmem
    · exact ha hmem
    · exact hb hmem
  intro line hline
  unfold entry at hline
  rcases List.mem_append.1 hline with hline | hline
  · simp only [List.mem_cons, List.not_mem_nil, or_false] at hline
    rcases hline with rfl | rfl | rfl | rfl | rfl | rfl | rfl
    · exact happend (by decide) (hdecimal _)
    · exact happend (by decide) (hshown _ _)
    · exact happend (by decide) (hshown _ _)
    · exact happend (by decide) (hshown _ _)
    · exact happend (by decide) (hshown _ _)
    · exact happend (by decide) (hdecimal _)
    · decide
  · obtain ⟨p, -, rfl⟩ := List.mem_map.1 hline
    exact happend (happend (happend (happend (by decide) (hshown _ _)) (by decide))
      (hshown _ _)) (by decide)

theorem not_newline_entries (fixed : Bool) (tracked : List (TrackedObstacle D)) :
    ∀ line ∈ entries fl fixed tracked, '\n' ∉ line := by
  induction tracked generalizing fixed with
  | nil =>
    intro line hline
    cases hline
  | cons o tracked ih =>
    intro line hline
    unfold entries at hline
    split_ifs at hline
    · rcases List.mem_append.1 hline with hline | hline
      · exact not_newline_entry fixed o line hline
      · exact ih true line hline
    · exact ih fixed line hline

/-- A load gives back what was saved, and nothing else. -/
theorem load_saved (now : Time) {s : Node D} {tracked : List (TrackedObstacle D)}
    (hfile : s.file = some (saveText fl tracked))
    (h : Printables fl false (tracked.filter (·.persistent))) :
    (load_from_file fl now s).2 = none ∧
      RestoresAll fl false (tracked.filter (·.persistent)) (load_from_file fl now s).1.tracked := by
  let start : Loading D :=
    { tracked := [], current := TrackedObstacle.blank fl, in_obstacle := false, in_hull := false
      max_id := 0 }
  obtain ⟨l, rest, hread, hpush, hall⟩ := read_entries now start h
  have hlines : Text.lines (saveText fl tracked) =
      "# mowgli obstacle tracker — persistent obstacles".toList :: "obstacles:".toList ::
        entries fl false tracked := by
    unfold saveText
    apply Text.lines_unlines
    intro line hline
    rcases List.mem_append.1 hline with hline | hline
    · simp only [List.mem_cons, List.not_mem_nil, or_false] at hline
      rcases hline with rfl | rfl <;> decide
    · exact not_newline_entries false tracked line hline
  have hheader : readLine fl now start
      "# mowgli obstacle tracker — persistent obstacles".toList = .ok start := rfl
  have hkey : readLine fl now start "obstacles:".toList = .ok start := rfl
  have hload : load_from_file fl now s =
      ({ s with tracked := l.push.tracked, next_id := l.push.max_id + 1 }, none) := by
    have hread : readLines fl now
        { tracked := [], current := TrackedObstacle.blank fl, in_obstacle := false
          in_hull := false, max_id := 0 } (Text.lines (saveText fl tracked)) = .ok l := by
      rw [hlines]
      exact (readLines_cons hheader).trans ((readLines_cons hkey).trans hread)
    simp only [load_from_file, hfile, hread]
  rw [hload]
  refine ⟨rfl, ?_⟩
  rw [hpush]
  exact hall

end Saved

end Obstacles
end Mowgli
