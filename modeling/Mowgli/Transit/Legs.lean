import Mowgli.Transit.Planner

/-!
# Legs — what a returned path was checked for

A returned path is the start, the kept path and the goal. The legs of the kept path were accepted
against the map with the search cells made lethal, which is lethal wherever the copied costmap is.
The two legs at the ends are accepted where they are the legs of the anchors. **Nothing compares
the ends of the kept path with the anchors** but the last raw pose with the goal anchor, so it is
up to the search and the smoother to keep them (`EndsKept`).
-/

namespace Mowgli
namespace Transit

variable {D : Type} (d : Format D)

theorem bind_eq_ok {α β : Type} {x : Planning α} {f : α → Planning β} {r : β} :
    (x >>= f) = .ok r ↔ ∃ a, x = .ok a ∧ f a = .ok r := by
  cases x with
  | error e => exact ⟨nofun, fun ⟨_, h, _⟩ => nomatch h⟩
  | ok a => exact ⟨fun h => ⟨a, rfl, h⟩, fun ⟨_, h, hf⟩ => by cases h; exact hf⟩

theorem refuse_eq_ok {condition : Bool} {e : PlannerException} {u : Unit} :
    refuse condition e = .ok u ↔ condition = false := by
  cases condition with
  | true => exact ⟨nofun, nofun⟩
  | false => exact ⟨fun _ => rfl, fun _ => rfl⟩

/-! ## Costs -/

namespace Costmap

variable {d} {m m' : Costmap D}

/-- The same grid, lethal wherever `m` is. -/
structure Hardens (m m' : Costmap D) : Prop where
  grid : m'.grid = m.grid
  lethal : ∀ x y, m.lethal x y = true → m'.lethal x y = true

theorem Hardens.clear (h : Hardens m m') {x y : Nat} (hc : m'.lethal x y = false) :
    m.lethal x y = false := by
  cases hm : m.lethal x y with
  | false => rfl
  | true =>
    rw [h.lethal x y hm] at hc
    cases hc

theorem Hardens.across (h : Hardens m m') {side : Bool} {x y : Nat}
    (hc : (side && m'.lethal x y) = false) : (side && m.lethal x y) = false := by
  cases side with
  | false => rfl
  | true => exact h.clear hc

theorem Hardens.pointClear (h : Hardens m m') {p : Point D} (hp : m'.pointClear d p = true) :
    m.pointClear d p = true := by
  have hgrid := h.grid
  injection hgrid with hx hy hres hox hoy
  unfold Costmap.pointClear Costmap.worldToMap at hp ⊢
  rw [hx, hy, hres, hox, hoy] at hp
  split at hp
  · cases hp
  · simp only [Bool.and_eq_true, Bool.not_eq_true'] at hp ⊢
    obtain ⟨⟨⟨hcell, hleft⟩, hbelow⟩, hcorner⟩ := hp
    exact ⟨⟨⟨h.clear hcell, h.across hleft⟩, h.across hbelow⟩, h.across hcorner⟩

theorem Hardens.costSegmentClear (h : Hardens m m') {a b : Point D}
    (hs : m'.costSegmentClear d a b = true) : m.costSegmentClear d a b = true := by
  have hcuts : ∀ start stop origin : D,
      m'.gridCuts d start stop origin = m.gridCuts d start stop origin := by
    intro start stop origin
    have hgrid := h.grid
    injection hgrid with _ _ hres
    unfold Costmap.gridCuts
    rw [hres]
  have hgrid := h.grid
  injection hgrid with _ _ _ hox hoy
  unfold Costmap.costSegmentClear at hs ⊢
  rw [hcuts, hcuts, hox, hoy] at hs
  rw [List.all_eq_true] at hs ⊢
  exact fun t ht => h.pointClear (hs t ht)

end Costmap

variable {d} {m m' : Costmap D} {g : Geometry D} {p : Point D}

theorem Costmap.Hardens.legAccepted (h : Costmap.Hardens m m') {a b : Point D}
    (hl : legAccepted d m' g a b = true) : legAccepted d m g a b = true := by
  unfold Transit.legAccepted at hl ⊢
  rw [Bool.and_eq_true] at hl ⊢
  exact ⟨hl.1, h.costSegmentClear hl.2⟩

theorem authorizedMap_hardens (m : Costmap D) (g : Geometry D) :
    Costmap.Hardens m (authorizedMap d m g) := by
  refine ⟨rfl, fun x y hm => ?_⟩
  unfold Costmap.lethal authorizedMap
  dsimp only
  split
  · rfl
  · exact hm

/-! ## Anchors -/

/-! ## The path -/

/-- The legs of a kept path between two ends. -/
theorem leg_cases {α : Type} {first last a b : α} {kept : List α} {i : Nat}
    (ha : (first :: kept ++ [last])[i]? = some a)
    (hb : (first :: kept ++ [last])[i + 1]? = some b) :
    (i = 0 ∧ a = first ∧ (kept ++ [last]).head? = some b) ∨
      (∃ j, kept[j]? = some a ∧ kept[j + 1]? = some b) ∨
      (i = kept.length ∧ kept.getLast? = some a ∧ b = last) := by
  rw [List.cons_append, List.getElem?_cons_succ] at hb
  cases i with
  | zero =>
    rw [List.cons_append, List.getElem?_cons_zero, Option.some.injEq] at ha
    exact .inl ⟨rfl, ha.symm, by rw [List.head?_eq_getElem?]; exact hb⟩
  | succ j =>
    rw [List.cons_append, List.getElem?_cons_succ] at ha
    rcases Nat.lt_or_ge (j + 1) kept.length with hlt | hge
    · rw [List.getElem?_append_left (by omega)] at ha
      rw [List.getElem?_append_left hlt] at hb
      exact .inr (.inl ⟨j, ha, hb⟩)
    · have hlast : j + 1 = kept.length := by
        by_contra hne
        rw [List.getElem?_eq_none (by simp; omega)] at hb
        cases hb
      rw [List.getElem?_append_left (by omega)] at ha
      rw [hlast, List.getElem?_concat_length, Option.some.injEq] at hb
      refine .inr (.inr ⟨hlast, ?_, hb.symm⟩)
      rw [List.getLast?_eq_getElem?, ← hlast]
      exact ha

theorem pathValid_legs {path : Path D} (h : pathValid d m path g = true) :
    path ≠ [] ∧ ∀ (i : Nat) (a b : PoseStamped D), path[i]? = some a → path[i + 1]? = some b →
      legAccepted d m g a.point b.point = true := by
  cases path with
  | nil => cases h
  | cons pose poses =>
    refine ⟨nofun, fun i a b ha hb => ?_⟩
    have hall := List.all_eq_true.mp h (a, b) ?_
    · exact hall
    · refine List.mem_iff_getElem?.mpr ⟨i + 1, ?_⟩
      rw [List.getElem?_zip_eq_some]
      exact ⟨ha, hb⟩

/-! ## The geometry meanwhile -/

section Meanwhile

variable {globalFrame : Str} {σ : GeometryStore D}

theorem updates_revision (updates : List (GeometryStore.Update D)) :
    (updates.foldl (GeometryStore.update d globalFrame) σ).geometryRevision =
      σ.geometryRevision + UInt64.ofNat updates.length := by
  induction updates generalizing σ with
  | nil => exact (UInt64.add_zero _).symm
  | cons u updates ih =>
    have hone : (σ.update d globalFrame u).geometryRevision = σ.geometryRevision + 1 := by
      cases u with
      | onGeometry markers => rfl
      | cleanup => rfl
    rw [List.foldl_cons, ih, hone, List.length_cons, Nat.add_comm, UInt64.ofNat_add,
      UInt64.add_assoc]
    rfl

/-- A revision that is the same belongs to the same geometry, unless the counter went round. -/
theorem updates_same {updates : List (GeometryStore.Update D)}
    (h : (updates.foldl (GeometryStore.update d globalFrame) σ).geometryRevision =
      σ.geometryRevision) (hlen : updates.length < UInt64.size) :
    updates.foldl (GeometryStore.update d globalFrame) σ = σ := by
  rw [updates_revision] at h
  have hzero : UInt64.ofNat updates.length = 0 := by
    have hsub := congrArg (· - σ.geometryRevision) h
    rwa [UInt64.add_comm, UInt64.add_sub_cancel, UInt64.sub_self] at hsub
  have hnat := congrArg UInt64.toNat hzero
  rw [UInt64.toNat_ofNat_of_lt' hlen] at hnat
  rw [List.length_eq_zero_iff.mp hnat]
  rfl

end Meanwhile

/-! ## The plan -/

variable (d) (globalFrame : Str) (o : Outside D) (σ : GeometryStore D)

/-- The geometry when a plan looks at its revision for the last time. -/
def Outside.geometryAtReturn : GeometryStore D :=
  o.updates.foldl (GeometryStore.update d globalFrame) σ

/-- A path over authorized ground: every leg was accepted against the whole geometry and the
    copied costs, or is the leg of an anchor, and the geometry is still the one it was checked
    against. -/
structure Authorized (start goal : PoseStamped D) (path : Path D) : Prop where
  legs : ∀ (i : Nat) (a b : PoseStamped D), path[i]? = some a → path[i + 1]? = some b →
    legAccepted d o.sharedMap σ.geometry a.point b.point = true ∨
      (i = 0 ∧ a = start ∧ ∃ q, startAnchor d o σ start = .ok q ∧ b.point = q.point) ∨
      (i + 2 = path.length ∧ b = goal ∧ ∃ q, goalAnchor d o σ goal = .ok q ∧ a.point = q.point)
  revision : (o.geometryAtReturn d globalFrame σ).geometryRevision = σ.geometryRevision
  geometry : o.updates.length < UInt64.size → o.geometryAtReturn d globalFrame σ = σ

/-- The kept path begins where the start may go, and ends where the goal may be reached from: at
    the anchors, or over legs that are accepted themselves. -/
def EndsMeet (start goal : PoseStamped D) : Prop :=
  ∀ startCell goalCell raw kept, startAnchor d o σ start = .ok startCell →
    goalAnchor d o σ goal = .ok goalCell → rawPath d o σ startCell goalCell = .ok raw →
    keptPath d o σ raw = .ok kept →
    (∀ first, kept.head? = some first → first.point = startCell.point ∨
      legAccepted d o.sharedMap σ.geometry start.point first.point = true) ∧
    ∀ last, kept.getLast? = some last → last.point = goalCell.point ∨
      legAccepted d o.sharedMap σ.geometry last.point goal.point = true

variable {d globalFrame o σ} {start goal : PoseStamped D} {viapoints path raw kept : Path D}

theorem keptPath_valid {startCell goalCell : PoseStamped D}
    (hraw : rawPath d o σ startCell goalCell = .ok raw) (hkept : keptPath d o σ raw = .ok kept) :
    pathValid d (authorizedMap d o.sharedMap σ.geometry) kept σ.geometry = true := by
  obtain ⟨smoothed, -, hreturn⟩ := bind_eq_ok.mp hkept
  cases hreturn
  split
  · assumption
  · unfold rawPath at hraw
    obtain ⟨found, -, hraw⟩ := bind_eq_ok.mp hraw
    obtain ⟨restored, -, hraw⟩ := bind_eq_ok.mp hraw
    obtain ⟨_, hvalid, hraw⟩ := bind_eq_ok.mp hraw
    obtain ⟨_, -, hraw⟩ := bind_eq_ok.mp hraw
    cases hraw
    rw [refuse_eq_ok, Bool.not_eq_false'] at hvalid
    exact hvalid

/-- What a plan that returns has gone through. -/
theorem createPlan_ok (h : createPlan d globalFrame o σ start goal viapoints = .ok path) :
    ∃ startCell goalCell raw kept, startAnchor d o σ start = .ok startCell ∧
      goalAnchor d o σ goal = .ok goalCell ∧ rawPath d o σ startCell goalCell = .ok raw ∧
      keptPath d o σ raw = .ok kept ∧
      (o.geometryAtReturn d globalFrame σ).geometryRevision = σ.geometryRevision ∧
      path = start :: kept ++ [goal] := by
  unfold createPlan at h
  obtain ⟨_, -, h⟩ := bind_eq_ok.mp h
  obtain ⟨_, -, h⟩ := bind_eq_ok.mp h
  obtain ⟨_, -, h⟩ := bind_eq_ok.mp h
  obtain ⟨_, -, h⟩ := bind_eq_ok.mp h
  obtain ⟨_, -, h⟩ := bind_eq_ok.mp h
  obtain ⟨_, -, h⟩ := bind_eq_ok.mp h
  obtain ⟨startCell, hstart, h⟩ := bind_eq_ok.mp h
  obtain ⟨goalCell, hgoal, h⟩ := bind_eq_ok.mp h
  obtain ⟨_, -, h⟩ := bind_eq_ok.mp h
  obtain ⟨_, -, h⟩ := bind_eq_ok.mp h
  obtain ⟨_, -, h⟩ := bind_eq_ok.mp h
  obtain ⟨raw, hraw, h⟩ := bind_eq_ok.mp h
  obtain ⟨_, -, h⟩ := bind_eq_ok.mp h
  obtain ⟨kept, hkept, h⟩ := bind_eq_ok.mp h
  obtain ⟨_, hrevision, h⟩ := bind_eq_ok.mp h
  obtain ⟨_, -, h⟩ := bind_eq_ok.mp h
  cases h
  rw [refuse_eq_ok, Bool.or_eq_false_iff, decide_eq_false_iff_not, not_not] at hrevision
  exact ⟨startCell, goalCell, raw, kept, hstart, hgoal, hraw, hkept, hrevision.2.symm, rfl⟩

/-- Every leg of a returned path is over authorized ground exactly when the ends meet. -/
theorem authorized_iff (h : createPlan d globalFrame o σ start goal viapoints = .ok path) :
    Authorized d globalFrame o σ start goal path ↔ EndsMeet d o σ start goal := by
  obtain ⟨startCell, goalCell, raw, kept, hstart, hgoal, hraw, hkept, hrevision, rfl⟩ :=
    createPlan_ok h
  obtain ⟨hne, hlegs⟩ := pathValid_legs (keptPath_valid hraw hkept)
  have hhead : ∀ last : PoseStamped D, (kept ++ [last]).head? = kept.head? := by
    intro last
    cases kept with
    | nil => exact absurd rfl hne
    | cons pose poses => rfl
  have hlen : 0 < kept.length := List.length_pos_iff.mpr hne
  constructor
  · intro hauth startCell' goalCell' raw' kept' hstart' hgoal' hraw' hkept'
    cases hstart.symm.trans hstart'
    cases hgoal.symm.trans hgoal'
    cases hraw.symm.trans hraw'
    cases hkept.symm.trans hkept'
    refine ⟨fun first hf => ?_, fun last hl => ?_⟩
    · have hget : (start :: kept ++ [goal])[0 + 1]? = some first := by
        rw [List.cons_append, List.getElem?_cons_succ, ← List.head?_eq_getElem?, hhead]
        exact hf
      rcases hauth.legs 0 start first rfl hget with hacc | ⟨-, -, q, hq, hpoint⟩ | ⟨hend, -⟩
      · exact .inr hacc
      · cases hstart.symm.trans hq
        exact .inl hpoint
      · simp only [List.length_append, List.length_cons, List.length_nil] at hend
        omega
    · have hget : (start :: kept ++ [goal])[kept.length]? = some last := by
        rw [List.getLast?_eq_getElem?] at hl
        obtain ⟨j, hj⟩ : ∃ j, kept.length = j + 1 := ⟨kept.length - 1, by omega⟩
        rw [hj, Nat.add_sub_cancel] at hl
        rw [List.cons_append, hj, List.getElem?_cons_succ, List.getElem?_append_left (by omega)]
        exact hl
      have hgoal' : (start :: kept ++ [goal])[kept.length + 1]? = some goal := by
        rw [List.cons_append, List.getElem?_cons_succ, List.getElem?_concat_length]
      rcases hauth.legs kept.length last goal hget hgoal' with
        hacc | ⟨hzero, -⟩ | ⟨-, -, q, hq, hpoint⟩
      · exact .inr hacc
      · omega
      · cases hgoal.symm.trans hq
        exact .inl hpoint
  · intro hmeet
    obtain ⟨hfirst, hlast⟩ := hmeet startCell goalCell raw kept hstart hgoal hraw hkept
    refine ⟨fun i a b ha hb => ?_, hrevision, updates_same hrevision⟩
    rcases leg_cases ha hb with ⟨rfl, rfl, hb'⟩ | ⟨j, ha', hb'⟩ | ⟨rfl, ha', rfl⟩
    · rw [hhead] at hb'
      rcases hfirst b hb' with hcell | haccepted
      · exact .inr (.inl ⟨rfl, rfl, startCell, hstart, hcell⟩)
      · exact .inl haccepted
    · exact .inl ((authorizedMap_hardens _ _).legAccepted (hlegs j a b ha' hb'))
    · rcases hlast a ha' with hcell | haccepted
      · exact .inr (.inr ⟨by simp, rfl, goalCell, hgoal, hcell⟩)
      · exact .inl haccepted

/-! ## What the search and the smoother have to keep -/

/-- The pose lies in the cell whose centre is the point of `q`; all but the last pose of a search
    are moved off the `float` origin first. -/
def InCellOf (d : Format D) (m : Costmap D) (isLast : Bool) (pose q : PoseStamped D) : Prop :=
  ∃ back, restoreCentre d m isLast pose = .ok back ∧ back.point = q.point

/-- The search begins and ends in the cells of the two anchors it is to connect, and the smoothed
    path, if it is valid, begins and ends where the one did that was to be smoothed. -/
structure EndsKept (d : Format D) (o : Outside D) (m : Costmap D) (g : Geometry D)
    (startCell goalCell : PoseStamped D) : Prop where
  first : ∀ pose rest, o.search m startCell goalCell = .ok (pose :: rest) →
    InCellOf d m rest.isEmpty pose startCell
  last : ∀ found pose, o.search m startCell goalCell = .ok found → found.getLast? = some pose →
    InCellOf d m true pose goalCell
  smooth : ∀ found raw smoothed, o.search m startCell goalCell = .ok found →
    restoreCentres d m found = .ok raw → o.smooth m raw = .ok smoothed →
    pathValid d m smoothed g = true →
    smoothed.head?.map (·.point) = raw.head?.map (·.point) ∧
      smoothed.getLast?.map (·.point) = raw.getLast?.map (·.point)

theorem restoreCentres_head {found : Path D} (h : restoreCentres d m found = .ok raw)
    {back : PoseStamped D} (hback : raw.head? = some back) :
    ∃ pose rest, found = pose :: rest ∧ restoreCentre d m rest.isEmpty pose = .ok back := by
  cases found with
  | nil =>
    cases h
    cases hback
  | cons pose rest =>
    obtain ⟨restored, hpose, h⟩ := bind_eq_ok.mp h
    obtain ⟨_, -, h⟩ := bind_eq_ok.mp h
    cases h
    cases hback
    exact ⟨pose, rest, rfl, hpose⟩

theorem restoreCentres_last {found : Path D} (h : restoreCentres d m found = .ok raw)
    {back : PoseStamped D} (hback : raw.getLast? = some back) :
    ∃ pose, found.getLast? = some pose ∧ restoreCentre d m true pose = .ok back := by
  induction found generalizing raw with
  | nil =>
    cases h
    cases hback
  | cons pose rest ih =>
    obtain ⟨restored, hpose, h⟩ := bind_eq_ok.mp h
    obtain ⟨poses, hposes, h⟩ := bind_eq_ok.mp h
    cases h
    cases rest with
    | nil =>
      cases hposes
      cases hback
      exact ⟨pose, rfl, hpose⟩
    | cons next rest =>
      obtain ⟨_, tail, rfl⟩ : ∃ p tail, poses = p :: tail := by
        obtain ⟨p, -, h⟩ := bind_eq_ok.mp hposes
        obtain ⟨tail, -, h⟩ := bind_eq_ok.mp h
        cases h
        exact ⟨p, tail, rfl⟩
      rw [List.getLast?_cons_cons] at hback ⊢
      exact ih hposes hback

/-- Kept ends meet. -/
theorem EndsKept.meet (h : ∀ startCell goalCell, startAnchor d o σ start = .ok startCell →
      goalAnchor d o σ goal = .ok goalCell →
      EndsKept d o (authorizedMap d o.sharedMap σ.geometry) σ.geometry startCell goalCell) :
    EndsMeet d o σ start goal := by
  intro startCell goalCell raw kept hstart hgoal hraw hkept
  obtain ⟨hfirst, hlast, hsmooth⟩ := h startCell goalCell hstart hgoal
  unfold rawPath at hraw
  obtain ⟨found, hfound, hraw⟩ := bind_eq_ok.mp hraw
  obtain ⟨restored, hrestored, hraw⟩ := bind_eq_ok.mp hraw
  obtain ⟨_, -, hraw⟩ := bind_eq_ok.mp hraw
  obtain ⟨_, -, hraw⟩ := bind_eq_ok.mp hraw
  cases hraw
  have hrawFirst (back : PoseStamped D) (hback : raw.head? = some back) :
      back.point = startCell.point := by
    obtain ⟨pose, rest, rfl, hpose⟩ := restoreCentres_head hrestored hback
    obtain ⟨back', hpose', hpoint⟩ := hfirst pose rest hfound
    cases hpose.symm.trans hpose'
    exact hpoint
  have hrawLast (back : PoseStamped D) (hback : raw.getLast? = some back) :
      back.point = goalCell.point := by
    obtain ⟨pose, hpose, hcentre⟩ := restoreCentres_last hrestored hback
    obtain ⟨back', hcentre', hpoint⟩ := hlast found pose hfound hpose
    cases hcentre.symm.trans hcentre'
    exact hpoint
  obtain ⟨smoothed, hsmoothed, hreturn⟩ := bind_eq_ok.mp hkept
  cases hreturn
  split
  · rename_i hvalid
    obtain ⟨hheads, hlasts⟩ := hsmooth _ _ _ hfound hrestored hsmoothed hvalid
    refine ⟨fun first hf => .inl ?_, fun last hl => .inl ?_⟩
    · rw [hf] at hheads
      obtain ⟨back, hback, hsame⟩ := Option.map_eq_some_iff.mp hheads.symm
      exact hsame.symm.trans (hrawFirst back hback)
    · rw [hl] at hlasts
      obtain ⟨back, hback, hsame⟩ := Option.map_eq_some_iff.mp hlasts.symm
      exact hsame.symm.trans (hrawLast back hback)
  · exact ⟨fun first hf => .inl (hrawFirst first hf), fun last hl => .inl (hrawLast last hl)⟩

/-- **Every leg of a returned path is over authorized ground**, where the search and the smoother
    keep the ends. -/
theorem transit_authorized (h : createPlan d globalFrame o σ start goal viapoints = .ok path)
    (hkept : ∀ startCell goalCell, startAnchor d o σ start = .ok startCell →
      goalAnchor d o σ goal = .ok goalCell →
      EndsKept d o (authorizedMap d o.sharedMap σ.geometry) σ.geometry startCell goalCell) :
    Authorized d globalFrame o σ start goal path :=
  (authorized_iff h).mpr (EndsKept.meet hkept)

/-! ## A garden of four cells -/

/-- Rational numbers as a format. -/
def exactFormat : Format ℚ :=
  { exactArith with
    infinity := 1000000000
    floor := fun x => ⌊x⌋
    round := fun x => if 0 ≤ x then ⌊x + 1 / 2⌋ else -⌊-x + 1 / 2⌋
    next := fun x => x + 1 / 1000000000
    toInt := fun x => if 0 ≤ x then ⌊x⌋ else -⌊-x⌋
    throughFloat := id
    isFinite := fun x => decide (-1000000000 < x) && decide (x < 1000000000) }

def garden : GeometryStore ℚ :=
  { geometry := { allowed := [[⟨0, 0⟩, ⟨4, 0⟩, ⟨4, 1⟩, ⟨0, 1⟩]], obstacleMargin := 0 }
    geometryValid := true
    geometryRevision := 1 }

def pose (x : ℚ) : PoseStamped ℚ := ⟨['m', 'a', 'p'], ⟨x, 1 / 2⟩⟩

/-- A row of cells with these costs, and a smoother that changes nothing. -/
def row (cost : Nat → Nat → UInt8) (search : PoseStamped ℚ → PoseStamped ℚ → Path ℚ) : Outside ℚ :=
  { robot := ⟨[], 1 / 5⟩
    sharedMap := ⟨4, 1, 1, 0, 0, cost⟩
    check := fun _ => .ok ()
    search := fun _ start goal => .ok (search start goal)
    smooth := fun _ path => .ok path
    updates := [] }

/-- With an obstacle in between, a search that returns its goal alone takes the robot through. -/
theorem search_skips_start :
    ¬∀ (o : Outside ℚ) (σ : GeometryStore ℚ) (start goal : PoseStamped ℚ) (path : Path ℚ),
      createPlan exactFormat ['m', 'a', 'p'] o σ start goal [] = .ok path →
      Authorized exactFormat ['m', 'a', 'p'] o σ start goal path := by
  intro h
  let o := row (fun x _ => if x = 1 then 254 else 0) fun _ goal => [goal]
  have hplan := h o garden (pose (1 / 2)) (pose (7 / 2))
    [pose (1 / 2), pose (7 / 2), pose (7 / 2)] (by decide +kernel)
  rcases hplan.legs 0 (pose (1 / 2)) (pose (7 / 2)) rfl rfl with hleg | ⟨-, -, q, hq, hpoint⟩ | hend
  · revert hleg
    decide +kernel
  · have hcell : startAnchor exactFormat o garden (pose (1 / 2)) = .ok (pose (1 / 2)) := by
      decide +kernel
    cases hcell.symm.trans hq
    revert hpoint
    decide +kernel
  · exact absurd hend.1 (by decide)

/-- A search from anchor to anchor. -/
def direct : Outside ℚ := row (fun _ _ => 0) fun start goal => [start, goal]

theorem transit_direct : Authorized exactFormat ['m', 'a', 'p'] direct garden (pose (1 / 2))
    (pose (7 / 2)) [pose (1 / 2), pose (1 / 2), pose (7 / 2), pose (7 / 2)] := by
  have hplan : createPlan exactFormat ['m', 'a', 'p'] direct garden (pose (1 / 2)) (pose (7 / 2))
      [] = .ok [pose (1 / 2), pose (1 / 2), pose (7 / 2), pose (7 / 2)] := by decide +kernel
  refine transit_authorized hplan fun startCell goalCell hstart hgoal => ?_
  have hs : startAnchor exactFormat direct garden (pose (1 / 2)) = .ok (pose (1 / 2)) := by
    decide +kernel
  have hg : goalAnchor exactFormat direct garden (pose (7 / 2)) = .ok (pose (7 / 2)) := by
    decide +kernel
  cases hs.symm.trans hstart
  cases hg.symm.trans hgoal
  refine ⟨fun first rest hfound => ?_, fun found last hfound hlast => ?_, fun found raw smoothed _ _ hraw _ =>
    ?_⟩
  · cases hfound
    exact ⟨pose (1 / 2), by decide +kernel, rfl⟩
  · cases hfound
    cases hlast
    exact ⟨pose (7 / 2), by decide +kernel, rfl⟩
  · cases hraw
    exact ⟨rfl, rfl⟩

end Transit
end Mowgli
