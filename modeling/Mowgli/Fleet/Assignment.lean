import Mathlib.Data.String.Basic
import Mathlib.Data.List.Dedup
import Mowgli.Fleet.Completed
import Mowgli.Lib.Ranks

/-!
# Assignment — which areas a robot leaves alone

`computeAssignment` of `fleet_coordinator_logic.go`. Nobody leads: every robot decides for
itself from a snapshot in which it is the one marked as itself.
-/

namespace Mowgli
namespace Fleet
namespace Assignment

open Completed (Member)

structure FleetAssignment where
  excluded : List UInt32
  preferredStart : Int32

/-- `fleetMember{}`. -/
def memberZero : Member :=
  { id := "", self := false, online := false, autonomous := false, stopHold := false
    stateName := "", currentArea := 0, completed := [], sessionActive := false
    sessionState := .absent, sessionObservation := none }

/-- The local robot and the peers that are online. -/
def splitMembers : List Member → Member × List Member
  | [] => (memberZero, [])
  | m :: members =>
    let r := splitMembers members
    if m.self then
      -- The loop keeps the last one.
      (if members.any (·.self) then r.1 else m, r.2)
    else if m.online then (r.1, m :: r.2)
    else r

def hasPriorityOver (a b : String) : Bool := a < b

/-- The area of a peer that a robot leaves to it. -/
def yielded (self p : Member) : Option UInt32 :=
  if !p.autonomous || decide (p.currentArea < 0) then none
  else if self.autonomous && decide (self.currentArea = p.currentArea) &&
      hasPriorityOver self.id p.id then none
  else some (UInt32.ofInt p.currentArea)

/-- The keys of a map come in any order and each once, and are sorted. -/
def keys (areas : List UInt32) : List UInt32 :=
  areas.dedup.mergeSort fun a b => decide (a ≤ b)

def computeAssignment (self : Member) (peers : List Member) (completedMemory : List UInt32) :
    FleetAssignment :=
  { excluded := keys (completedMemory ++ peers.filterMap (yielded self))
    preferredStart :=
      Int32.ofNat (Ranks.rank self.id (Ranks.sorted (self.id :: peers.map (·.id)))) }

/-! ## A fleet -/

/-- The snapshot as one robot sees it. -/
def view (robots : List Member) (r : Member) : List Member :=
  robots.map fun m => { m with self := decide (m.id = r.id) }

/-- What a robot of a fleet decides. -/
def decided (robots : List Member) (completed : List UInt32) (r : Member) : FleetAssignment :=
  let split := splitMembers (view robots r)
  computeAssignment split.1 split.2 completed

/-- A robot mows an area on its own. -/
def Mows (m : Member) (area : Nat) : Prop := m.autonomous = true ∧ m.currentArea = area

/-- What the decisions of a fleet come to. -/
structure Consistent (robots : List Member) (completed : List UInt32) : Prop where
  /-- The smallest id that mows an area is the only one not to leave it. -/
  one : ∀ area : UInt32, area ∉ completed → (∃ m ∈ robots, Mows m area.toNat) →
    ∃ m ∈ robots, Mows m area.toNat ∧ (∀ m' ∈ robots, Mows m' area.toNat → m.id ≤ m'.id) ∧
      ∀ r ∈ robots, area ∉ (decided robots completed r).excluded ↔ r = m
  finished : ∀ area ∈ completed, ∀ r ∈ robots, area ∈ (decided robots completed r).excluded
  free : ∀ area : UInt32, area ∉ completed → (∀ m ∈ robots, ¬Mows m area.toNat) →
    ∀ r ∈ robots, area ∉ (decided robots completed r).excluded
  increasing : ∀ r ∈ robots, (decided robots completed r).excluded.Pairwise (· < ·)
  starts : (robots.map fun r => (decided robots completed r).preferredStart).Perm
    ((List.range robots.length).map Int32.ofNat)

variable {robots : List Member} {completed : List UInt32} {r : Member}

/-! ## The split -/

theorem splitMembers_peers {members : List Member} (h : ∀ m ∈ members, m.online = true) :
    (splitMembers members).2 = members.filter fun m => !m.self := by
  induction members with
  | nil => rfl
  | cons m members ih =>
    have hrest := ih fun m' hm' => h m' (List.mem_cons_of_mem m hm')
    unfold splitMembers
    cases hself : m.self with
    | true => simp [hself, hrest]
    | false => simp [hself, h m List.mem_cons_self, hrest]

variable {m : Member} {area : UInt32}

theorem splitMembers_self {members : List Member} (hm : m ∈ members) (hself : m.self = true)
    (hsole : ∀ m' ∈ members, m'.self = true → m' = m) : (splitMembers members).1 = m := by
  induction members with
  | nil => cases hm
  | cons first members ih =>
    have hrest := fun hmem => ih hmem fun m' hm' => hsole m' (List.mem_cons_of_mem first hm')
    unfold splitMembers
    dsimp only
    split
    · rename_i hfirst
      split
      · rename_i hany
        obtain ⟨m', hm', hself'⟩ := List.any_eq_true.1 hany
        have heq := hsole m' (List.mem_cons_of_mem first hm') hself'
        exact hrest (heq ▸ hm')
      · exact hsole first List.mem_cons_self hfirst
    · rename_i hfirst
      have hmem : m ∈ members := by
        rcases List.mem_cons.1 hm with rfl | hmem
        · exact absurd hself hfirst
        · exact hmem
      split
      · exact hrest hmem
      · exact hrest hmem

/-- With distinct ids a robot is told from the others by its id. -/
theorem eq_of_id (hids : (robots.map (·.id)).Nodup) (hm : m ∈ robots) (hr : r ∈ robots)
    (h : m.id = r.id) : m = r :=
  List.inj_on_of_nodup_map hids hm hr h

theorem split_view (hids : (robots.map (·.id)).Nodup) (honline : ∀ m ∈ robots, m.online = true)
    (hr : r ∈ robots) :
    splitMembers (view robots r) = ({ r with self := true },
      (robots.filter fun m => m.id ≠ r.id).map fun m => { m with self := false }) := by
  refine Prod.ext ?_ ?_
  · refine splitMembers_self (List.mem_map.2 ⟨r, hr, ?_⟩) rfl ?_
    · rw [decide_eq_true rfl]
    · intro m' hm' hself
      obtain ⟨m, hm, rfl⟩ := List.mem_map.1 hm'
      have heq := eq_of_id hids hm hr (of_decide_eq_true hself)
      rw [heq, decide_eq_true rfl]
  · rw [splitMembers_peers]
    · unfold view
      rw [List.filter_map]
      refine (List.map_congr_left ?_).trans (congrArg _ (List.filter_congr ?_))
      · intro m hm
        have hne := (List.mem_filter.1 hm).2
        have hfalse : decide (m.id = r.id) = false := by simpa using hne
        rw [hfalse]
      · intro m _
        simp
    · intro m' hm'
      obtain ⟨m, hm, rfl⟩ := List.mem_map.1 hm'
      exact honline m hm

/-! ## The areas -/

theorem mem_keys {areas : List UInt32} : area ∈ keys areas ↔ area ∈ areas := by
  unfold keys
  rw [List.mem_mergeSort, List.mem_dedup]

theorem pairwise_keys (areas : List UInt32) : (keys areas).Pairwise (· < ·) := by
  have hle : (keys areas).Pairwise fun a b => decide (a ≤ b) = true := by
    refine List.pairwise_mergeSort ?_ ?_ areas.dedup
    · intro a b c hab hbc
      exact decide_eq_true (UInt32.le_trans (of_decide_eq_true hab) (of_decide_eq_true hbc))
    · intro a b
      rw [Bool.or_eq_true, decide_eq_true_eq, decide_eq_true_eq]
      exact UInt32.le_total a b
  have hnodup : (keys areas).Pairwise (· ≠ ·) :=
    (List.mergeSort_perm areas.dedup _).nodup_iff.2 (List.nodup_dedup areas)
  exact (hle.and hnodup).imp fun hab => UInt32.lt_of_le_of_ne (of_decide_eq_true hab.1) hab.2

/-- A robot leaves the areas of the others, but for one that it mows with the smaller id. -/
theorem yielded_eq_some (hbound : m.currentArea < 4294967296) :
    yielded r m = some area ↔ Mows m area.toNat ∧ ¬(Mows r area.toNat ∧ r.id < m.id) := by
  have hindex : 0 ≤ m.currentArea →
      (UInt32.ofInt m.currentArea = area ↔ m.currentArea = area.toNat) := by
    intro hpos
    obtain ⟨n, hn⟩ := Int.eq_ofNat_of_zero_le hpos
    rw [hn] at hbound ⊢
    have hof : UInt32.ofInt (n : Int) = UInt32.ofNat n := by
      unfold UInt32.ofInt
      congr 1
      omega
    rw [hof, ← UInt32.toNat_inj, UInt32.toNat_ofNat', Nat.mod_eq_of_lt (by omega)]
    exact Int.ofNat_inj.symm
  unfold yielded Mows hasPriorityOver
  by_cases ha : m.autonomous = true
  · by_cases hneg : m.currentArea < 0
    · have hne : m.currentArea ≠ area.toNat := by omega
      simp [ha, hneg, hne]
    · have h := hindex (Int.not_lt.1 hneg)
      by_cases hwin : (r.autonomous && decide (r.currentArea = m.currentArea) &&
          decide (r.id < m.id)) = true
      · simp only [Bool.and_eq_true, decide_eq_true_eq] at hwin
        obtain ⟨⟨hauto, hsame⟩, hlt⟩ := hwin
        simp [ha, hneg, hauto, hsame, hlt]
      · rw [if_neg (by simp [ha, hneg]), if_neg hwin, Option.some_inj, h]
        simp only [Bool.and_eq_true, decide_eq_true_eq] at hwin
        constructor
        · intro hm
          refine ⟨⟨ha, hm⟩, fun hr => hwin ⟨⟨hr.1.1, hr.1.2.trans hm.symm⟩, hr.2⟩⟩
        · exact fun hm => hm.1.2
  · simp [ha]

theorem mem_excluded (hids : (robots.map (·.id)).Nodup) (honline : ∀ m ∈ robots, m.online = true)
    (hareas : ∀ m ∈ robots, m.currentArea < 4294967296) (hr : r ∈ robots) :
    area ∈ (decided robots completed r).excluded ↔
      area ∈ completed ∨
        ∃ m ∈ robots, m.id ≠ r.id ∧ Mows m area.toNat ∧ ¬(Mows r area.toNat ∧ r.id < m.id) := by
  unfold decided computeAssignment
  dsimp only
  rw [split_view hids honline hr, mem_keys, List.mem_append, List.mem_filterMap]
  refine or_congr Iff.rfl ⟨?_, ?_⟩
  · rintro ⟨p, hp, hyield⟩
    obtain ⟨m, hm, rfl⟩ := List.mem_map.1 hp
    obtain ⟨hm, hne⟩ := List.mem_filter.1 hm
    exact ⟨m, hm, of_decide_eq_true hne, (yielded_eq_some (hareas m hm)).1 hyield⟩
  · rintro ⟨m, hm, hne, hyield⟩
    refine ⟨{ m with self := false }, List.mem_map_of_mem (List.mem_filter.2
      ⟨hm, decide_eq_true hne⟩), ?_⟩
    exact (yielded_eq_some (r := { r with self := true }) (m := { m with self := false })
      (hareas m hm)).2 hyield

/-! ## The starts -/

theorem preferredStart_eq (hids : (robots.map (·.id)).Nodup)
    (honline : ∀ m ∈ robots, m.online = true) (hr : r ∈ robots) :
    (decided robots completed r).preferredStart =
      Int32.ofNat (Ranks.rank r.id (Ranks.sorted (robots.map (·.id)))) := by
  unfold decided computeAssignment
  dsimp only
  rw [split_view hids honline hr, List.map_map]
  have hperm : (r.id :: (robots.filter fun m => m.id ≠ r.id).map (·.id)).Perm
      (robots.map (·.id)) := by
    refine (List.perm_ext_iff_of_nodup ?_ hids).2 ?_
    · refine List.nodup_cons.2 ⟨?_, hids.sublist (List.filter_sublist.map _)⟩
      intro hmem
      obtain ⟨m, hm, heq⟩ := List.mem_map.1 hmem
      exact of_decide_eq_true (List.mem_filter.1 hm).2 heq
    · intro id
      rw [List.mem_cons, List.mem_map, List.mem_map]
      constructor
      · rintro (rfl | ⟨m, hm, rfl⟩)
        · exact ⟨r, hr, rfl⟩
        · exact ⟨m, (List.mem_filter.1 hm).1, rfl⟩
      · rintro ⟨m, hm, rfl⟩
        by_cases heq : m.id = r.id
        · exact .inl heq
        · exact .inr ⟨m, List.mem_filter.2 ⟨hm, decide_eq_true heq⟩, rfl⟩
  show Int32.ofNat (Ranks.rank r.id (Ranks.sorted (r.id ::
    (robots.filter fun m => m.id ≠ r.id).map (·.id)))) = _
  rw [Ranks.sorted_congr hperm]

/-! ## Consistency -/

/-- Whatever the flags, the areas and what is completed, as long as an area fits its index. -/
theorem assignment_consistent (completed : List UInt32) (hids : (robots.map (·.id)).Nodup)
    (honline : ∀ m ∈ robots, m.online = true)
    (hareas : ∀ m ∈ robots, m.currentArea < 4294967296) : Consistent robots completed := by
  have hexcluded : ∀ {r} (_ : r ∈ robots) (area : UInt32),
      area ∈ (decided robots completed r).excluded ↔ area ∈ completed ∨
        ∃ m ∈ robots, m.id ≠ r.id ∧ Mows m area.toNat ∧ ¬(Mows r area.toNat ∧ r.id < m.id) :=
    fun hr _ => mem_excluded hids honline hareas hr
  refine ⟨?_, ?_, ?_, ?_, ?_⟩
  · intro area hopen hmowed
    obtain ⟨m, hm, hmows, hleast⟩ := Ranks.exists_least (·.id) hmowed
    refine ⟨m, hm, hmows, hleast, fun r hr => ?_⟩
    rw [hexcluded hr, or_iff_right hopen]
    constructor
    · intro hkept
      by_contra hne
      refine hkept ⟨m, hm, fun heq => hne (eq_of_id hids hm hr heq).symm, hmows, ?_⟩
      rintro ⟨hrows, hlt⟩
      exact not_le_of_gt hlt (hleast r hr hrows)
    · rintro rfl ⟨p, hp, hne, hpmows, hyield⟩
      exact hyield ⟨hmows, lt_of_le_of_ne (hleast p hp hpmows) fun heq => hne heq.symm⟩
  · intro area hmem r hr
    exact (hexcluded hr area).2 (.inl hmem)
  · intro area hopen hfree r hr hmem
    rcases (hexcluded hr area).1 hmem with hmem | ⟨m, hm, -, hmows, -⟩
    · exact hopen hmem
    · exact hfree m hm hmows
  · intro r _
    exact pairwise_keys _
  · have hranks := (Ranks.ranks_perm hids).map Int32.ofNat
    rw [List.length_map, List.map_map, List.map_map] at hranks
    refine (List.Perm.of_eq (List.map_congr_left fun r hr => ?_)).trans hranks
    exact preferredStart_eq hids honline hr

def robot (id : String) (area : Int) : Member :=
  { memberZero with id := id, online := true, autonomous := true, currentArea := area }

/-- An area past 32 bits passes for another one. -/
theorem wide_area_aliases :
    ¬∀ (robots : List Member) (completed : List UInt32), (robots.map (·.id)).Nodup →
      (∀ m ∈ robots, m.online = true) → Consistent robots completed := by
  intro h
  have hc := h [robot "a" 0, robot "b" 4294967296] [] (by decide) (by decide +kernel)
  obtain ⟨m, hm, -, -, hone⟩ := hc.one 0 (by decide) ⟨robot "a" 0, by simp, rfl, rfl⟩
  have hkept := (hone m hm).2 rfl
  revert hkept
  rcases List.mem_cons.1 hm with rfl | hm
  · decide +kernel
  · rw [List.mem_singleton.1 hm]
    decide +kernel

/-- Two robots in one area and a third in another. -/
theorem assignment_consistent_three :
    Consistent [robot "c" 4, robot "a" 4, robot "b" 7] [2] :=
  assignment_consistent [2] (by decide) (by decide +kernel) (by decide +kernel)

end Assignment
end Fleet
end Mowgli
