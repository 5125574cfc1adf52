import Mowgli.Obstacles.PersistenceFile

/-!
# Faithful — runs of the tracker between saves and loads

**A load clears the list before it reads the first line**, and a number that does not convert
ends it where it stands; a save never looks whether its text reached the disk. In a run where
neither happens, and where the ids do not run out, nothing is lost that should not be.
-/

namespace Mowgli
namespace Obstacles

section Runs

variable {D : Type} (fl : Doubles D) (cfg : Cfg D)

/-- The disk takes what is saved and every number converts on its way there and back. -/
def Meets (s : Node D) : Event D → Prop
  | .clusters clusters _ => s.next_id.toNat + clusters.length < 2 ^ 32
  | .on_save opened taken => cfg.persistence_file ≠ [] → opened = true →
    (saveText fl s.tracked).length ≤ taken ∧ Printables fl false (s.tracked.filter (·.persistent))
  | .on_load _ => cfg.persistence_file ≠ [] → ∀ text, s.file = some text → Sound fl text
  | _ => True

/-- All the steps of a run do. -/
def Meeting : Node D → List (Event D) → Prop
  | _, [] => True
  | s, e :: events => Meets fl cfg s e ∧ ∀ r, step fl cfg s e = some r → Meeting r.1 events

/-- What has become of a persistent obstacle after a step. -/
inductive Accounted (s : Node D) (e : Event D) (s' : Node D) (r : Option Response)
    (o : TrackedObstacle D) : Prop
  | kept (o' : TrackedObstacle D) (ho' : o' ∈ s'.tracked) (hid : o'.id = o.id)
      (hpersistent : o'.persistent = true)
  | merged (now : Nat) (he : e = .on_publish_timer now) (heir : TrackedObstacle D)
      (hheir : heir ∈ s'.tracked) (hpersistent : heir.persistent = true)
      (hlives : Heir fl (promote_persistent fl cfg ⟨now, .ros⟩ s.tracked) s'.tracked o heir)
  | cleared (he : e = .on_clear_obstacle o.id)
  | cleared_all (he : e = .on_clear_all)
  | loaded (now : Nat) (he : e = .on_load now) (answer : Response) (hr : r = some answer)
      (hsuccess : answer.success = true)
  | purged (success : Bool) (points : List (D × D)) (he : e = .boundary success points)
      (hout : point_in_polygon fl (o.cx, o.cy) s'.boundary_inset = false)

/-- The ids of the list are distinct and the next one is none of them. -/
def Distinct (s : Node D) : Prop := (ids s.tracked).Nodup ∧ s.next_id ∉ ids s.tracked

/-- One step keeps the ids apart, a failed load changes nothing, and no persistent obstacle is
gone without a reason. -/
structure Faithful (s : Node D) (e : Event D) (s' : Node D) (r : Option Response) : Prop where
  distinct : Distinct s'
  failed : ∀ now answer, e = .on_load now → r = some answer → answer.success = false →
    s'.tracked = s.tracked ∧ s'.next_id = s.next_id
  accounted : ∀ o ∈ s.tracked, o.persistent = true → Accounted fl cfg s e s' r o

/-- An event that leaves the file alone. -/
def Apart : Event D → Prop
  | .on_save _ _ => False
  | .edited _ => False
  | _ => True

/-- A save that reports success, and the load after it. -/
def RoundTrips (s : Node D) (opened : Bool) (taken : Nat) : Prop :=
  ∀ s₁ saved between s₂ now s₃ loaded,
    step fl cfg s (.on_save opened taken) = some (s₁, some saved) → saved.success = true →
    (∀ e ∈ between, Apart e) → run fl cfg s₁ between = some s₂ →
    step fl cfg s₂ (.on_load now) = some (s₃, some loaded) →
    loaded.success = true ∧ RestoresAll fl false (s.tracked.filter (·.persistent)) s₃.tracked

end Runs

section Steps

variable {D : Type} {fl : Doubles D} {cfg : Cfg D} {s s' : Node D} {e : Event D}
variable {r : Option Response}

theorem Counted.distinct (h : Counted s.tracked s.next_id) : Distinct s := ⟨h.nodup, h.unused⟩

/-! ## Loading -/

theorem on_load_unset (h : cfg.persistence_file = []) (now : Nat) :
    s.on_load fl cfg now = (s, unset) := by
  unfold Node.on_load
  rw [h]
  rfl

theorem on_load_set (h : cfg.persistence_file ≠ []) (now : Nat)
    (hok : (load_from_file fl ⟨now, .ros⟩ s).2 = none) :
    (s.on_load fl cfg now).1 = (load_from_file fl ⟨now, .ros⟩ s).1 ∧
      (s.on_load fl cfg now).2.success = true := by
  unfold Node.on_load
  rw [if_neg (by simpa using h)]
  dsimp only
  rw [hok]
  exact ⟨rfl, rfl⟩

/-- A load whose file is sound, or is not there. -/
theorem load_ok (now : Time) (hsound : ∀ text, s.file = some text → Sound fl text) :
    (load_from_file fl now s).2 = none := by
  cases hfile : s.file with
  | none =>
    unfold load_from_file
    rw [hfile]
  | some text => exact (load_sound now hfile (hsound text hfile)).1

theorem load_counted (now : Time) (h : Counted s.tracked s.next_id)
    (hsound : ∀ text, s.file = some text → Sound fl text) :
    Counted (load_from_file fl now s).1.tracked (load_from_file fl now s).1.next_id := by
  cases hfile : s.file with
  | none =>
    unfold load_from_file
    rw [hfile]
    exact h
  | some text => exact (load_sound now hfile (hsound text hfile)).2

/-! ## One step -/

theorem on_clear_obstacle_tracked (id : UInt32) :
    (s.on_clear_obstacle id).1 = { s with tracked := s.tracked.filter fun o => o.id != id } := by
  unfold Node.on_clear_obstacle
  dsimp only
  split_ifs <;> rfl

theorem on_save_tracked (opened : Bool) (taken : Nat) :
    (s.on_save fl cfg opened taken).1.tracked = s.tracked ∧
      (s.on_save fl cfg opened taken).1.next_id = s.next_id := by
  unfold Node.on_save
  split_ifs <;> exact ⟨rfl, rfl⟩

theorem filter_ids (p : TrackedObstacle D → Bool) (tracked : List (TrackedObstacle D)) :
    (ids (tracked.filter p)).Sublist (ids tracked) :=
  List.filter_sublist.map _

theorem step_counted (h : Counted s.tracked s.next_id) (hmeets : Meets fl cfg s e)
    (hstep : step fl cfg s e = some (s', r)) : Counted s'.tracked s'.next_id := by
  cases e with
  | clusters clusters stamp =>
    cases hstep
    exact associate_clusters_counted _ h hmeets
  | on_keepout_mask mask =>
    cases hstep
    exact h
  | boundary success points =>
    cases hstep
    unfold Node.on_boundary
    split_ifs
    · exact h
    · exact h.sublist (filter_ids _ _)
  | on_publish_timer now =>
    obtain ⟨tracked, hmerge, heq⟩ := Option.map_eq_some_iff.1 hstep
    cases heq
    exact h.sublist ((merges_ids hmerge).trans (promote_ids _))
  | on_clear_obstacle id =>
    cases hstep
    rw [on_clear_obstacle_tracked]
    exact h.sublist (filter_ids _ _)
  | on_clear_all =>
    cases hstep
    exact Counted.nil 1
  | on_save opened taken =>
    cases hstep
    rw [(on_save_tracked opened taken).1, (on_save_tracked opened taken).2]
    exact h
  | on_load now =>
    cases hstep
    by_cases hset : cfg.persistence_file = []
    · rw [on_load_unset hset]
      exact h
    · rw [(on_load_set hset now (load_ok _ (hmeets hset))).1]
      exact load_counted _ h (hmeets hset)
  | edited file =>
    cases hstep
    exact h

theorem Keeps.accounted (h : Keeps s.tracked s'.tracked) {o : TrackedObstacle D}
    (ho : o ∈ s.tracked) (hpersistent : o.persistent = true) : Accounted fl cfg s e s' r o := by
  obtain ⟨o', ho', hid, hp⟩ := h o ho hpersistent
  exact .kept o' ho' hid hp

theorem step_accounted (hmeets : Meets fl cfg s e) (hstep : step fl cfg s e = some (s', r))
    {o : TrackedObstacle D} (ho : o ∈ s.tracked) (hpersistent : o.persistent = true) :
    Accounted fl cfg s e s' r o := by
  cases e with
  | clusters clusters stamp =>
    cases hstep
    exact (associate_clusters_keeps _ clusters).accounted ho hpersistent
  | on_keepout_mask mask =>
    cases hstep
    exact .kept o ho rfl hpersistent
  | boundary success points =>
    cases hstep
    unfold Node.on_boundary
    split_ifs
    · exact .kept o ho rfl hpersistent
    · cases hin : point_in_polygon fl (o.cx, o.cy) (inset fl cfg.boundary_margin points) with
      | true => exact .kept o (List.mem_filter.2 ⟨ho, hin⟩) rfl hpersistent
      | false => exact .purged success points rfl hin
  | on_publish_timer now =>
    obtain ⟨tracked, hmerge, heq⟩ := Option.map_eq_some_iff.1 hstep
    cases heq
    obtain ⟨heir, hmem, hp, hlives⟩ :=
      merges_heir hmerge (promote_mem ⟨now, .ros⟩ ho hpersistent) hpersistent
    exact .merged now rfl heir hmem hp hlives
  | on_clear_obstacle id =>
    cases hstep
    by_cases hid : o.id = id
    · exact .cleared (by rw [hid])
    · rw [on_clear_obstacle_tracked]
      exact .kept o (List.mem_filter.2 ⟨ho, by simpa using hid⟩) rfl hpersistent
  | on_clear_all => exact .cleared_all rfl
  | on_save opened taken =>
    cases hstep
    refine .kept o ?_ rfl hpersistent
    rw [(on_save_tracked opened taken).1]
    exact ho
  | on_load now =>
    cases hstep
    by_cases hset : cfg.persistence_file = []
    · rw [on_load_unset hset]
      exact .kept o ho rfl hpersistent
    · exact .loaded now rfl _ rfl (on_load_set hset now (load_ok _ (hmeets hset))).2
  | edited file =>
    cases hstep
    exact .kept o ho rfl hpersistent

theorem step_failed (hmeets : Meets fl cfg s e) (hstep : step fl cfg s e = some (s', r))
    (now : Nat) (answer : Response) (he : e = .on_load now) (hr : r = some answer)
    (hfailed : answer.success = false) : s'.tracked = s.tracked ∧ s'.next_id = s.next_id := by
  subst he
  cases hstep
  cases hr
  by_cases hset : cfg.persistence_file = []
  · rw [on_load_unset hset]
    exact ⟨rfl, rfl⟩
  · rw [(on_load_set hset now (load_ok _ (hmeets hset))).2] at hfailed
    cases hfailed

theorem step_faithful (h : Counted s.tracked s.next_id) (hmeets : Meets fl cfg s e)
    (hstep : step fl cfg s e = some (s', r)) : Faithful fl cfg s e s' r where
  distinct := (step_counted h hmeets hstep).distinct
  failed := step_failed hmeets hstep
  accounted := fun _ ho hpersistent => step_accounted hmeets hstep ho hpersistent

/-! ## Saving and loading -/

theorem load_file (now : Time) : (load_from_file fl now s).1.file = s.file := by
  unfold load_from_file
  split
  · rfl
  · dsimp only
    split <;> rfl

theorem on_load_file (now : Nat) : (s.on_load fl cfg now).1.file = s.file := by
  have hfile : (load_from_file fl ⟨now, .ros⟩ s).1.file = s.file := load_file _
  unfold Node.on_load
  split_ifs
  · rfl
  · dsimp only
    split <;> exact hfile

theorem step_file (he : Apart e) (hstep : step fl cfg s e = some (s', r)) : s'.file = s.file := by
  cases e with
  | clusters clusters stamp =>
    cases hstep
    exact associate_clusters_file _ clusters
  | on_keepout_mask mask =>
    cases hstep
    rfl
  | boundary success points =>
    cases hstep
    unfold Node.on_boundary
    split_ifs <;> rfl
  | on_publish_timer now =>
    obtain ⟨tracked, -, heq⟩ := Option.map_eq_some_iff.1 hstep
    cases heq
    rfl
  | on_clear_obstacle id =>
    cases hstep
    rw [on_clear_obstacle_tracked]
  | on_clear_all =>
    cases hstep
    rfl
  | on_save opened taken => cases he
  | on_load now =>
    cases hstep
    exact on_load_file now
  | edited file => cases he

theorem run_file {events : List (Event D)} (h : ∀ e ∈ events, Apart e)
    (hrun : run fl cfg s events = some s') : s'.file = s.file := by
  induction events generalizing s with
  | nil =>
    cases hrun
    rfl
  | cons e events ih =>
    obtain ⟨he, hrest⟩ := List.forall_mem_cons.1 h
    obtain ⟨⟨s₁, answer⟩, hstep, hrun⟩ := Option.bind_eq_some_iff.1 hrun
    rw [ih hrest hrun, step_file he hstep]

theorem save_round_trips (opened : Bool) (taken : Nat)
    (hmeets : Meets fl cfg s (.on_save opened taken)) : RoundTrips fl cfg s opened taken := by
  intro s₁ saved between s₂ now s₃ loaded hsave hsaved hbetween hrun hload
  cases hsave
  cases hload
  have hset : cfg.persistence_file ≠ [] := by
    intro hset
    unfold Node.on_save at hsaved
    rw [if_pos (by rw [hset]; rfl)] at hsaved
    cases hsaved
  have hopened : opened = true := by
    cases opened with
    | true => rfl
    | false =>
      unfold Node.on_save at hsaved
      rw [if_neg (by simpa using hset)] at hsaved
      cases hsaved
  obtain ⟨htaken, hprintables⟩ := hmeets hset hopened
  have hfile : (s.on_save fl cfg opened taken).1.file = some (saveText fl s.tracked) := by
    unfold Node.on_save
    rw [if_neg (by simpa using hset), hopened]
    exact congrArg some (List.take_of_length_le htaken)
  have hfile₂ : s₂.file = some (saveText fl s.tracked) := (run_file hbetween hrun).trans hfile
  obtain ⟨hok, hall⟩ := load_saved ⟨now, .ros⟩ hfile₂ hprintables
  obtain ⟨hstate, hsuccess⟩ := on_load_set hset now hok
  rw [hstate]
  exact ⟨hsuccess, hall⟩

/-! ## Runs -/

theorem boot_counted {file : Option Str} {now : Nat} (hboot : boot fl cfg file now = some s)
    (hfile : cfg.persistence_file ≠ [] → ∀ text, file = some text → Sound fl text) :
    Counted s.tracked s.next_id := by
  unfold boot at hboot
  dsimp only at hboot
  split_ifs at hboot with hset hfailed
  · cases hboot
    exact Counted.nil 1
  · cases hboot
    exact load_counted _ (Counted.nil 1) (hfile (by simpa using hset))

theorem run_counted {events : List (Event D)} (h : Counted s.tracked s.next_id)
    (hmeeting : Meeting fl cfg s events) (hrun : run fl cfg s events = some s') :
    Counted s'.tracked s'.next_id := by
  induction events generalizing s with
  | nil =>
    cases hrun
    exact h
  | cons e events ih =>
    obtain ⟨hmeets, hrest⟩ := hmeeting
    obtain ⟨⟨s₁, answer⟩, hstep, hrun⟩ := Option.bind_eq_some_iff.1 hrun
    exact ih (step_counted h hmeets hstep) (hrest _ hstep) hrun

/-- In a run whose files are sound and whose saves reach the disk, every state has distinct ids,
every step accounts for the persistent obstacles, and what was saved comes back. -/
theorem persistence_faithful {file : Option Str} {now : Nat} {s₀ : Node D}
    (hboot : boot fl cfg file now = some s₀)
    (hfile : cfg.persistence_file ≠ [] → ∀ text, file = some text → Sound fl text)
    {events : List (Event D)} (hmeeting : Meeting fl cfg s₀ events)
    (hrun : run fl cfg s₀ events = some s) :
    Distinct s ∧
    (∀ e s' r, Meets fl cfg s e → step fl cfg s e = some (s', r) → Faithful fl cfg s e s' r) ∧
    ∀ opened taken, Meets fl cfg s (.on_save opened taken) → RoundTrips fl cfg s opened taken := by
  have hcounted := run_counted (boot_counted hboot hfile) hmeeting hrun
  refine ⟨hcounted.distinct, ?_, ?_⟩
  · intro e s' r hmeets hstep
    exact step_faithful hcounted hmeets hstep
  · intro opened taken hmeets
    exact save_round_trips opened taken hmeets

end Steps

/-! ## A node -/

/-- Doubles that do not round. No run here asks for an angle. -/
def exactDoubles : Doubles ℚ :=
  { arith := exactArith
    value := some
    negative := fun x => decide (x < 0)
    isNan := fun _ => false
    nan := fun _ => 0
    infinity := fun _ => 0
    nearest := fun negative q => some (if negative then -q else q)
    maximum := 10 ^ 308
    atan2 := fun y _ => y
    floor := fun x => ⌊x⌋
    toInt32 := fun x => if 0 ≤ x then ⌊x⌋ else -⌊-x⌋
    toUInt32 := fun x => ⌊x⌋.toNat }

def trackerCfg : Cfg ℚ :=
  { persistence_threshold := 30, transient_timeout := 5, min_obstacle_radius := 1 / 20
    max_obstacle_radius := 5, publish_rate := 1, boundary_margin := 3 / 10
    keepout_lethal_threshold := 100, persistence_file := "obstacles.yaml".toList }

/-- The node that found one obstacle in its file. -/
def oneObstacle : Node ℚ :=
  { tracked := [{ TrackedObstacle.blank exactDoubles with id := 3, persistent := true }]
    next_id := 4, boundary_loaded := false, boundary_inset := [], keepout_mask := none
    file := some "  - id: 3\n".toList }

theorem one_obstacle_boot :
    boot exactDoubles trackerCfg (some "  - id: 3\n".toList) 0 = some oneObstacle := by rfl

theorem one_obstacle_sound : Sound exactDoubles "  - id: 3\n".toList := by
  have hids : fileIds (Text.lines "  - id: 3\n".toList) = [3] := rfl
  refine ⟨⟨rfl, trivial⟩, ?_, ?_⟩
  · rw [hids]
    exact List.nodup_singleton 3
  · intro id hid
    rw [hids] at hid
    rw [List.mem_singleton.1 hid]
    decide

theorem persistence_faithful_one :
    Distinct oneObstacle ∧
    (∀ e s' r, Meets exactDoubles trackerCfg oneObstacle e →
      step exactDoubles trackerCfg oneObstacle e = some (s', r) →
      Faithful exactDoubles trackerCfg oneObstacle e s' r) ∧
    ∀ opened taken, Meets exactDoubles trackerCfg oneObstacle (.on_save opened taken) →
      RoundTrips exactDoubles trackerCfg oneObstacle opened taken := by
  have hsound : ∀ text, some "  - id: 3\n".toList = some text → Sound exactDoubles text := by
    intro text htext
    cases htext
    exact one_obstacle_sound
  have hmeeting : Meeting exactDoubles trackerCfg oneObstacle [.on_load 0] :=
    ⟨fun _ => hsound, fun _ _ => trivial⟩
  exact persistence_faithful one_obstacle_boot (fun _ => hsound) hmeeting rfl

/-- **A file that breaks off at its second id.** The load reports that it failed, and the list is
what was read before: the obstacle that was there is gone, and the next id is taken. A disk that
takes nothing does not keep a save from reporting success. -/
theorem load_breaks_off :
    (∃ s s' answer, run exactDoubles trackerCfg oneObstacle
        [.edited (some "  - id: 4\n  - id: x\n".toList)] = some s ∧
      step exactDoubles trackerCfg s (.on_load 0) = some (s', some answer) ∧
      answer.success = false ∧ ids s.tracked = [3] ∧ ids s'.tracked = [4] ∧ s'.next_id = 4 ∧
      ¬Faithful exactDoubles trackerCfg s (.on_load 0) s' (some answer)) ∧
    ¬RoundTrips exactDoubles trackerCfg oneObstacle true 0 := by
  constructor
  · refine ⟨_, _, _, rfl, rfl, rfl, rfl, rfl, rfl, ?_⟩
    intro h
    exact h.distinct.2 (by decide)
  · intro h
    let full : Node ℚ := { oneObstacle with file := some [] }
    let empty : Node ℚ := { full with tracked := [], next_id := 1 }
    have hsave : step exactDoubles trackerCfg oneObstacle (.on_save true 0) =
        some (full, some { success := true, message := "Saved obstacles to obstacles.yaml".toList }) :=
      rfl
    have hload : step exactDoubles trackerCfg full (.on_load 0) = some (empty, some
        { success := true, message := "Loaded obstacles from obstacles.yaml".toList }) := rfl
    obtain ⟨-, hall⟩ := h full _ [] full 0 empty _ hsave rfl (fun _ he => nomatch he) rfl hload
    exact hall

end Obstacles
end Mowgli
