import Mowgli.Behavior.PersistentLatch

/-!
# LocalizationHealth — is the absolute position trustworthy right now?

One monitor folds observations into three latches: the solution quality of the primary source
(the receiver, or the LiDAR localizer in its place), a generous backstop on the fused σ, and
the freshness of the position payload. `Update` returns whether any of them is closed.

Which latch an observation speaks to, and what it says, is `evidence`; `update_latch` connects
it with the code, branch by branch, so that what holds of one latch over a run holds of each.
-/

namespace Mowgli
namespace Behavior

/-- RTK solution mode, mirroring `GnssStatus` `RTK_MODE_*`. -/
inductive RtkMode
  | unknown
  | none
  | float
  | fixed
deriving DecidableEq, Repr

/-- Why the guard latched. -/
inductive LocalizationFault
  | none
  | gnssAccuracy
  | gnssFixLost
  | gnssStale
  | sigmaBackstop
  | lidarLost
  | positionStale
deriving DecidableEq, Repr

structure LocalizationHealthCfg where
  gnssAccPause : ℚ := 30 / 100
  gnssAccResume : ℚ := 15 / 100
  gnssPausePersist : ℚ := 3
  gnssResumePersist : ℚ := 2
  /-- Not above zero disables the backstop. -/
  sigmaBackstopPause : ℚ := 5
  sigmaBackstopResume : ℚ := 2
  sigmaBackstopPersist : ℚ := 10

/-- A reading the receiver or the filter may not have. A negative one stands for none, and so
does what is not finite, which here is `none`. -/
abbrev Reading := Option ℚ

def Reading.available (r : Reading) : Bool := r.any (fun x => decide (0 ≤ x))
def Reading.above (r : Reading) (limit : ℚ) : Bool := r.any (fun x => decide (limit < x))
def Reading.below (r : Reading) (limit : ℚ) : Bool := r.any (fun x => decide (x < limit))

structure LocalizationObservation where
  /-- Some `/gps/status` has been received. -/
  gnssSeen : Bool := false
  gnssFresh : Bool := false
  rtkMode : RtkMode := .unknown
  gnssAccuracy : Reading := some (-1)
  fusedSigmaXY : Reading := some (-1)
  lidarPrimary : Bool := false
  lidarOk : Bool := false
  positionModeSeen : Bool := false
  positionDeadReckoning : Bool := false

/-- No `/gps/status` was ever received, and the receiver is the primary source. -/
def LocalizationObservation.Inert (obs : LocalizationObservation) : Prop :=
  obs.gnssSeen = false ∧ obs.lidarPrimary = false

instance (obs : LocalizationObservation) : Decidable obs.Inert :=
  inferInstanceAs (Decidable (_ ∧ _))

structure LocalizationHealthMonitor where
  gnssLatch : PersistentLatch
  sigmaLatch : PersistentLatch
  positionLatch : PersistentLatch
  sigmaWas : Bool
  fault : LocalizationFault

namespace LocalizationHealthMonitor

/-- A monitor as it is constructed. -/
def fresh : LocalizationHealthMonitor where
  gnssLatch := .fresh
  sigmaLatch := .fresh
  positionLatch := .fresh
  sigmaWas := false
  fault := .none

variable (cfg : LocalizationHealthCfg)

/-- The divergence backstop, skipped where σ is unavailable. -/
def updateSigmaBackstop (m : LocalizationHealthMonitor) (now : ℚ)
    (obs : LocalizationObservation) : LocalizationHealthMonitor × Bool :=
  let wasSigma := m.sigmaLatch.latched
  if decide (0 < cfg.sigmaBackstopPause) && obs.fusedSigmaXY.available then
    let latch := m.sigmaLatch.update now (obs.fusedSigmaXY.above cfg.sigmaBackstopPause)
      (obs.fusedSigmaXY.below cfg.sigmaBackstopResume) cfg.sigmaBackstopPersist
      cfg.gnssResumePersist
    ({ m with sigmaLatch := latch, sigmaWas := wasSigma }, latch.latched)
  else ({ m with sigmaWas := wasSigma }, wasSigma)

/-- The fault goes to whichever latch just closed, and stays where it is while one is closed. -/
def attributeFault (m : LocalizationHealthMonitor) (primaryDegraded wasPrimary sigmaDegraded : Bool)
    (pending : LocalizationFault) (positionDegraded wasPosition : Bool) :
    LocalizationHealthMonitor × Bool :=
  ({ m with
      fault :=
        if primaryDegraded && !wasPrimary then pending
        else if sigmaDegraded && !m.sigmaWas then .sigmaBackstop
        else if positionDegraded && !wasPosition then .positionStale
        else if !primaryDegraded && !sigmaDegraded && !positionDegraded then .none
        else m.fault },
    primaryDegraded || sigmaDegraded || positionDegraded)

def updateWithLidar (m : LocalizationHealthMonitor) (now : ℚ) (obs : LocalizationObservation) :
    LocalizationHealthMonitor × Bool :=
  -- the position latch judges the receiver only, and is dropped with it
  let m := { m with positionLatch := .fresh }
  let wasPrimary := m.gnssLatch.latched
  let latch := m.gnssLatch.update now (!obs.lidarOk) obs.lidarOk cfg.gnssPausePersist
    cfg.gnssResumePersist
  let m := { m with gnssLatch := latch }
  let sigma := updateSigmaBackstop cfg m now obs
  attributeFault sigma.1 latch.latched wasPrimary sigma.2
    (if obs.lidarOk then .none else .lidarLost) false false

/-- What the receiver's solution says: bad, good, and the fault a latch would report. -/
def gnssQuality (obs : LocalizationObservation) : Bool × Bool × LocalizationFault :=
  let noRtkSolution := decide (obs.rtkMode = .none) || decide (obs.rtkMode = .unknown)
  if obs.gnssFresh = false then (true, false, .gnssStale)
  else if obs.gnssAccuracy.available then
    let bad := obs.gnssAccuracy.above cfg.gnssAccPause
    (bad, obs.gnssAccuracy.below cfg.gnssAccResume, if bad then .gnssAccuracy else .none)
  else (noRtkSolution, !noRtkSolution, if noRtkSolution then .gnssFixLost else .none)

def update (m : LocalizationHealthMonitor) (now : ℚ) (obs : LocalizationObservation) :
    LocalizationHealthMonitor × Bool :=
  -- a guard that cannot observe its input must not block a bladed robot from operating
  if obs.Inert then ({ m with fault := .none }, false)
  else if obs.lidarPrimary then updateWithLidar cfg m now obs
  else
    let quality := gnssQuality cfg obs
    let wasGnss := m.gnssLatch.latched
    let latch :=
      -- observation freshness is an authorization boundary: no debounce
      if obs.gnssFresh = false then m.gnssLatch.forceLatched
      else m.gnssLatch.update now quality.1 quality.2.1 cfg.gnssPausePersist
        cfg.gnssResumePersist
    let sigma := updateSigmaBackstop cfg { m with gnssLatch := latch } now obs
    let wasPosition := m.positionLatch.latched
    let position :=
      if obs.positionModeSeen then
        m.positionLatch.update now obs.positionDeadReckoning (!obs.positionDeadReckoning) 0
          cfg.gnssResumePersist
      else m.positionLatch
    attributeFault { sigma.1 with positionLatch := position } latch.latched wasGnss sigma.2
      quality.2.2 position.latched wasPosition

end LocalizationHealthMonitor

/-! ## The three latches, and what an observation says to each -/

inductive Source
  | primary
  | sigma
  | position
deriving DecidableEq, Repr

def LocalizationHealthMonitor.latch (m : LocalizationHealthMonitor) : Source → PersistentLatch
  | .primary => m.gnssLatch
  | .sigma => m.sigmaLatch
  | .position => m.positionLatch

/-- GPS is the primary source, and its last genuine observation is too old. -/
def LocalizationObservation.Stale (obs : LocalizationObservation) : Prop :=
  obs.gnssSeen = true ∧ obs.lidarPrimary = false ∧ obs.gnssFresh = false

/-- GPS is the primary source, and the position it feeds is dead reckoning. -/
def LocalizationObservation.DeadReckoning (obs : LocalizationObservation) : Prop :=
  obs.gnssSeen = true ∧ obs.lidarPrimary = false ∧ obs.positionModeSeen = true ∧
    obs.positionDeadReckoning = true

variable (cfg : LocalizationHealthCfg)

def evidence (obs : LocalizationObservation) : Source → Evidence
  | .primary =>
    if obs.Inert then .absent
    else if obs.lidarPrimary then .sample (!obs.lidarOk) obs.lidarOk
    else if obs.gnssFresh = false then .force
    else .sample (LocalizationHealthMonitor.gnssQuality cfg obs).1
      (LocalizationHealthMonitor.gnssQuality cfg obs).2.1
  | .sigma =>
    if obs.Inert then .absent
    else if decide (0 < cfg.sigmaBackstopPause) && obs.fusedSigmaXY.available then
      .sample (obs.fusedSigmaXY.above cfg.sigmaBackstopPause)
        (obs.fusedSigmaXY.below cfg.sigmaBackstopResume)
    else .absent
  | .position =>
    if obs.Inert then .absent
    else if obs.lidarPrimary then .reset
    else if obs.positionModeSeen then
      .sample obs.positionDeadReckoning (!obs.positionDeadReckoning)
    else .absent

def persistence : Source → Persistence
  | .primary => { pause := cfg.gnssPausePersist, resume := cfg.gnssResumePersist }
  | .sigma => { pause := cfg.sigmaBackstopPersist, resume := cfg.gnssResumePersist }
  | .position => { pause := 0, resume := cfg.gnssResumePersist }

open LocalizationHealthMonitor

variable {obs : LocalizationObservation} {run : List (ℚ × LocalizationObservation)}

variable (m : LocalizationHealthMonitor)

/-- The backstop touches its own latch only, and reports it. -/
theorem updateSigmaBackstop_eq (now : ℚ) (hobs : ¬ obs.Inert) :
    updateSigmaBackstop cfg m now obs =
      ({ m with
          sigmaLatch := m.sigmaLatch.take (persistence cfg .sigma) now (evidence cfg obs .sigma)
          sigmaWas := m.sigmaLatch.latched },
        (m.sigmaLatch.take (persistence cfg .sigma) now (evidence cfg obs .sigma)).latched) := by
  unfold updateSigmaBackstop
  simp only [evidence, if_neg hobs]
  split
  · rfl
  · rfl

/-- The code runs each latch on the evidence the observation has for it. -/
theorem update_latch (now : ℚ) (obs : LocalizationObservation) (src : Source) :
    (update cfg m now obs).1.latch src =
      (m.latch src).take (persistence cfg src) now (evidence cfg obs src) := by
  unfold update
  by_cases hinert : obs.Inert
  · rw [if_pos hinert]
    cases src with
    | primary => simp only [evidence, if_pos hinert]; rfl
    | sigma => simp only [evidence, if_pos hinert]; rfl
    | position => simp only [evidence, if_pos hinert]; rfl
  · rw [if_neg hinert]
    cases hlidar : obs.lidarPrimary with
    | true =>
      simp only [if_true, updateWithLidar, attributeFault, updateSigmaBackstop_eq cfg _ now hinert]
      cases src with
      | primary => simp only [evidence, if_neg hinert, hlidar]; rfl
      | sigma => rfl
      | position => simp only [evidence, if_neg hinert, hlidar]; rfl
    | false =>
      simp only [attributeFault, updateSigmaBackstop_eq cfg _ now hinert]
      cases src with
      | primary =>
        simp only [evidence, if_neg hinert, hlidar]
        cases hfresh : obs.gnssFresh with
        | false => rfl
        | true => rfl
      | sigma => rfl
      | position =>
        simp only [evidence, if_neg hinert, hlidar]
        cases hseen : obs.positionModeSeen with
        | false => rfl
        | true => rfl

/-- `degraded()`. -/
theorem exists_latched :
    (∃ src, (m.latch src).latched = true) ↔
      (m.gnssLatch.latched || m.sigmaLatch.latched || m.positionLatch.latched) = true := by
  simp only [Bool.or_eq_true]
  constructor
  · intro h
    obtain ⟨src, h⟩ := h
    cases src with
    | primary => exact Or.inl (Or.inl h)
    | sigma => exact Or.inl (Or.inr h)
    | position => exact Or.inr h
  · intro h
    rcases h with (h | h) | h
    · exact ⟨.primary, h⟩
    · exact ⟨.sigma, h⟩
    · exact ⟨.position, h⟩

/-- What `Update` returns: some latch is closed, unless the observation is inert. -/
theorem update_verdict (now : ℚ) (obs : LocalizationObservation) :
    (update cfg m now obs).2 = true ↔
      ¬ obs.Inert ∧ ∃ src, ((update cfg m now obs).1.latch src).latched = true := by
  rw [exists_latched]
  unfold update
  by_cases hinert : obs.Inert
  · rw [if_pos hinert]
    constructor
    · intro h
      cases h
    · intro h
      exact absurd hinert h.1
  · rw [if_neg hinert]
    simp only [hinert, not_false_eq_true, true_and]
    cases hlidar : obs.lidarPrimary with
    | true =>
      rw [if_pos rfl, updateWithLidar, updateSigmaBackstop_eq cfg _ now hinert]
      exact Iff.rfl
    | false =>
      rw [if_neg (by simp)]
      simp only [updateSigmaBackstop_eq cfg _ now hinert]
      exact Iff.rfl

/-! ## Runs -/

/-- The monitor after a run, newest observation first. -/
def monitorAfter : List (ℚ × LocalizationObservation) → LocalizationHealthMonitor
  | [] => .fresh
  | (now, obs) :: past => (update cfg (monitorAfter past) now obs).1

/-- What the last `Update` of a run returned. -/
def verdict : List (ℚ × LocalizationObservation) → Bool
  | [] => false
  | (now, obs) :: past => (update cfg (monitorAfter cfg past) now obs).2

/-- What a run says to one latch. -/
def told (src : Source) (run : List (ℚ × LocalizationObservation)) : List (ℚ × Evidence) :=
  run.map (fun x => (x.1, evidence cfg x.2 src))

theorem monitorAfter_latch (run : List (ℚ × LocalizationObservation)) (src : Source) :
    (monitorAfter cfg run).latch src = latchAfter (persistence cfg src) (told cfg src run) := by
  induction run with
  | nil =>
    cases src with
    | primary => rfl
    | sigma => rfl
    | position => rfl
  | cons x past ih =>
    show (update cfg (monitorAfter cfg past) x.1 x.2).1.latch src = _
    rw [update_latch, ih]
    rfl

/-- Times do not decrease over a run. -/
def Timed {α : Type} (run : List (ℚ × α)) : Prop := run.Pairwise (fun x y => y.1 ≤ x.1)

theorem told_timed (h : Timed run) (src : Source) :
    Timed (told cfg src run) := List.pairwise_map.2 h

/-- For as long as `persist`, one kind of evidence: at an observation at `since`, and at all
those after it that say anything to the latch. -/
def HeldFor (is : Evidence → Prop) (src : Source) (persist : ℚ)
    (run : List (ℚ × LocalizationObservation)) (now : ℚ) : Prop :=
  ∃ since, persist ≤ now - since ∧ HeldSince is since (told cfg src run) ∧
    ∀ x ∈ run, since < x.1 → evidence cfg x.2 src = .absent ∨ is (evidence cfg x.2 src)

variable {src : Source}

theorem HeldFor.of_told {is : Evidence → Prop} {persist now since : ℚ} (htimed : Timed run)
    (hlong : persist ≤ now - since) (h : HeldSince is since (told cfg src run)) :
    HeldFor cfg is src persist run now := by
  refine ⟨since, hlong, h, ?_⟩
  intro x hx hlate
  exact h.covers (told_timed cfg htimed src) (List.mem_map.2 ⟨x, hx, rfl⟩) hlate

/-- Only a stale fix forces a latch, and only the primary one. -/
theorem stale_of_force (h : evidence cfg obs src = .force) : src = .primary ∧ obs.Stale := by
  cases src with
  | primary =>
    refine ⟨rfl, ?_⟩
    simp only [evidence] at h
    split at h
    · cases h
    rename_i hinert
    split at h
    · cases h
    rename_i hlidar
    split at h
    · rename_i hfresh
      cases hseen : obs.gnssSeen with
      | true => exact ⟨hseen, by simpa using hlidar, hfresh⟩
      | false => exact absurd ⟨hseen, by simpa using hlidar⟩ hinert
    · cases h
  | sigma =>
    simp only [evidence] at h
    split at h <;> (try split at h) <;> cases h
  | position =>
    simp only [evidence] at h
    split at h <;> (try split at h) <;> (try split at h) <;> cases h

/-- Only a LiDAR session replaces a latch, and only the position one. -/
theorem lidar_of_reset (h : evidence cfg obs src = .reset) :
    src = .position ∧ obs.lidarPrimary = true := by
  cases src with
  | position =>
    refine ⟨rfl, ?_⟩
    simp only [evidence] at h
    split at h
    · cases h
    split at h
    · rename_i hlidar
      exact hlidar
    · split at h
      · cases h
      · cases h
  | primary =>
    simp only [evidence] at h
    split at h <;> (try split at h) <;> (try split at h) <;> cases h
  | sigma =>
    simp only [evidence] at h
    split at h <;> (try split at h) <;> cases h

theorem Stale.not_inert (h : obs.Stale) : ¬ obs.Inert := by
  intro hinert
  exact absurd (h.1.symm.trans hinert.1) (by simp)

theorem DeadReckoning.not_inert (h : obs.DeadReckoning) : ¬ obs.Inert := by
  intro hinert
  exact absurd (h.1.symm.trans hinert.1) (by simp)

theorem stale_closes (now : ℚ) (h : obs.Stale) : (update cfg m now obs).2 = true := by
  rw [update_verdict]
  refine ⟨Stale.not_inert h, .primary, ?_⟩
  rw [update_latch]
  simp [evidence, Stale.not_inert h, h.2.1, h.2.2, PersistentLatch.take,
    PersistentLatch.forceLatched]

/-- Dead reckoning closes the position latch at once: its pause persistence is zero, and the
stamp of a pending condition is not ahead of the clock. -/
theorem deadReckoning_closes {now : ℚ} (htimed : Timed ((now, obs) :: run)) (h : obs.DeadReckoning)
    : verdict cfg ((now, obs) :: run) = true := by
  have hsays : evidence cfg obs .position = .sample true false := by
    simp [evidence, DeadReckoning.not_inert h, h.2.1, h.2.2.1, h.2.2.2]
  show (update cfg (monitorAfter cfg run) now obs).2 = true
  rw [update_verdict]
  refine ⟨DeadReckoning.not_inert h, .position, ?_⟩
  rw [update_latch, hsays, monitorAfter_latch]
  have hstamped := latchAfter_stamped (persistence cfg .position) (told cfg .position run)
  generalize latchAfter (persistence cfg .position) (told cfg .position run) = l at hstamped
  show (l.update now true false 0 cfg.gnssResumePersist).latched = true
  cases hl : l.latched with
  | true =>
    obtain ⟨_, hup⟩ | ⟨hgood, _⟩ | ⟨hgood, _⟩ :=
      update_closed hl now true false 0 cfg.gnssResumePersist
    · rw [hup]
    · cases hgood
    · cases hgood
  | false =>
    obtain ⟨hbad, _⟩ | ⟨_, _, hup⟩ | ⟨_, hshort, _⟩ :=
      update_open hl now true false 0 cfg.gnssResumePersist
    · cases hbad
    · rw [hup]
    · have hstamp : HeldSince Evidence.IsBad (PersistentLatch.stamp l.badSince now)
          ((now, .sample true false) :: told cfg .position run) :=
        heldSince_stamp ⟨false, rfl⟩ (hstamped.bad hl) now
      obtain ⟨x, hx, hxs⟩ := hstamp.mem
      have hle : x.1 ≤ now := by
        rcases List.mem_cons.1 hx with rfl | hx
        · exact le_refl now
        · exact (List.pairwise_cons.1 (told_timed cfg htimed .position)).1 x hx
      rw [← hxs] at hshort
      exact absurd hshort (not_lt.2 (sub_nonneg.2 hle))

/-- The latches over time. A stale fix and dead reckoning degrade at that observation; any
other way a latch closes or opens is the end of a window of one kind of evidence. -/
theorem degradation_over_time (run : List (ℚ × LocalizationObservation)) (now : ℚ)
    (obs : LocalizationObservation) (htimed : Timed ((now, obs) :: run)) :
    (obs.Stale ∨ obs.DeadReckoning → verdict cfg ((now, obs) :: run) = true) ∧
    (∀ src, ((monitorAfter cfg run).latch src).latched = false →
      ((monitorAfter cfg ((now, obs) :: run)).latch src).latched = true →
        (src = .primary ∧ obs.Stale) ∨
          HeldFor cfg Evidence.IsBad src (persistence cfg src).pause ((now, obs) :: run) now) ∧
    (verdict cfg ((now, obs) :: run) = true ↔
      ¬ obs.Inert ∧ ∃ src, ((monitorAfter cfg ((now, obs) :: run)).latch src).latched = true) ∧
    (verdict cfg run = true → verdict cfg ((now, obs) :: run) = false →
      obs.Inert ∨ ∀ src, ((monitorAfter cfg run).latch src).latched = true →
        (src = .position ∧ obs.lidarPrimary = true) ∨
          HeldFor cfg Evidence.IsGood src cfg.gnssResumePersist ((now, obs) :: run) now) := by
  refine ⟨?_, ?_, update_verdict cfg _ now obs, ?_⟩
  · intro h
    rcases h with h | h
    · exact stale_closes cfg _ now h
    · exact deadReckoning_closes cfg htimed h
  · intro src hopen hclosed
    rw [monitorAfter_latch] at hopen hclosed
    rcases latch_closes _ now _ _ hopen hclosed with h | ⟨since, hlong, hheld⟩
    · exact Or.inl (stale_of_force cfg h)
    · exact Or.inr (.of_told cfg htimed hlong hheld)
  · intro _ hclear
    by_cases hinert : obs.Inert
    · exact Or.inl hinert
    · right
      intro src hclosed
      have hopen : ((monitorAfter cfg ((now, obs) :: run)).latch src).latched = false := by
        cases hl : ((monitorAfter cfg ((now, obs) :: run)).latch src).latched with
        | false => rfl
        | true =>
          have hverdict := (update_verdict cfg _ now obs).2 ⟨hinert, src, hl⟩
          exact absurd (hverdict.symm.trans hclear) (by simp)
      rw [monitorAfter_latch] at hopen hclosed
      have hresume : (persistence cfg src).resume = cfg.gnssResumePersist := by
        cases src with
        | primary => rfl
        | sigma => rfl
        | position => rfl
      rcases latch_opens _ now _ _ hclosed hopen with h | ⟨since, hlong, hheld⟩
      · exact Or.inl (lidar_of_reset cfg h)
      · exact Or.inr (.of_told cfg htimed (hresume ▸ hlong) hheld)

/-- An RTK fix as the robot reports it, and the σ that comes with it. -/
def healthyFix (sigma : Reading) : LocalizationObservation :=
  { gnssSeen := true, gnssFresh := true, rtkMode := .fixed, gnssAccuracy := some (14 / 1000),
    fusedSigmaXY := sigma }

/-- The same receiver, while the position it feeds has frozen. -/
def frozenPosition : LocalizationObservation :=
  { healthyFix (some 0) with positionModeSeen := true, positionDeadReckoning := true }

/-- A fix that goes stale a second after a good one. -/
theorem degradation_over_time_stale :
    verdict {} [(1, { gnssSeen := true }), (0, healthyFix (some 0))] = true :=
  (degradation_over_time {} [(0, healthyFix (some 0))] 1 { gnssSeen := true }
    (by simp [Timed])).1 (Or.inl ⟨rfl, rfl, rfl⟩)

/-- A σ that is missing half way does not restart the backstop's window: two observations ten
seconds apart close it. A switch to the LiDAR drops a position latch that is one second old,
and a monitor that no longer observes anything returns at once. -/
theorem silence_and_switch_clear :
    verdict {} [(0, healthyFix (some 6))] = false ∧
    verdict {} [(5, healthyFix none), (0, healthyFix (some 6))] = false ∧
    evidence {} (healthyFix none) .sigma = .absent ∧
    verdict {} [(10, healthyFix (some 6)), (5, healthyFix none), (0, healthyFix (some 6))] =
      true ∧
    verdict {} [(0, frozenPosition)] = true ∧
    verdict {} [(1, { frozenPosition with lidarPrimary := true, lidarOk := true }),
      (0, frozenPosition)] = false ∧
    verdict {} [(4, { lidarPrimary := true }), (1, { lidarPrimary := true })] = true ∧
    verdict {} [(5, {}), (4, { lidarPrimary := true }), (1, { lidarPrimary := true })] = false := by
  decide +kernel

end Behavior
end Mowgli
