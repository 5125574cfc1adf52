import Mowgli.Gui.NotifyDetector

/-!
# SessionsAgree — when the statistics and the notifications count the same sessions

Both observers are reduced to what they keep of the past: the last name, whether it counted, and
whether a session is open. They keep the same, except in one place: on `MOWING_COMPLETE` right after
a mowing status the detector's session is over and the tracker's has one status more (`Lagging`).
If that status is mowing again, **the detector starts a session that the tracker does not**.
-/

namespace Mowgli
namespace Gui
namespace Sessions

variable {st : HighLevelStatus} {now : Int} {wantsKind : NotifyKind → Bool}

/-! ## The detector, reduced -/

/-- What the detector keeps of the past for its sessions. -/
def NotifyDetector.session (d : NotifyDetector) : String × Bool × Bool :=
  (d.prevState, d.prevMowing, d.inSession)

@[simp] theorem emit_session (kind : NotifyKind) (message : NotifyMsg) (priority : Nat)
    (params : Params) (t : Tick) :
    (emit st now kind message priority params t).d.session = t.d.session := by
  dsimp only [emit]
  split <;> rfl

/-- Both branches leave the same. -/
theorem ite_session {c : Prop} [Decidable c] {t t' : Tick} {x : String × Bool × Bool}
    (ht : t.d.session = x) (ht' : t'.d.session = x) : (if c then t else t').d.session = x := by
  split
  · exact ht
  · exact ht'

theorem raiseEmergency_session (t : Tick) : (raiseEmergency st now t).d.session = t.d.session :=
  ite_session (c := st.emergency ∧ t.d.emergency = false) (emit_session _ _ _ _ t) rfl

theorem onAreaChanged_session (next : Int) (t : Tick) :
    (onAreaChanged st now wantsKind next t).d.session = t.d.session := by
  dsimp only [onAreaChanged]
  refine ite_session (emit_session _ _ _ _ _) (ite_session (emit_session _ _ _ _ _) ?_)
  exact (emit_session _ _ _ _ _).trans (emit_session _ _ _ _ _)

theorem beginSession_session (t : Tick) :
    (beginSession st now t).d.session = (t.d.prevState, t.d.prevMowing, true) := by
  unfold beginSession
  split
  · exact emit_session _ _ _ _ _
  · have hin : t.d.session = (t.d.prevState, t.d.prevMowing, true) := by
      simpa [NotifyDetector.session] using ‹¬t.d.inSession = false›
    exact ite_session ((emit_session _ _ _ _ _).trans hin) hin

theorem onMowingTick_session (t : Tick) :
    (onMowingTick st now wantsKind t).d.session = (t.d.prevState, t.d.prevMowing, true) := by
  have harea : ∀ t : Tick, (if 0 ≤ st.current_area ∧ st.current_area ≠ t.d.currentArea then
      onAreaChanged st now wantsKind st.current_area t else t).d.session = t.d.session :=
    fun t => ite_session (onAreaChanged_session _ t) rfl
  have hpeak : ∀ t : Tick, (if st.current_area = t.d.currentArea ∧
      t.d.areaPeak < st.coverage_percent then
        { t with d := { t.d with areaPeak := st.coverage_percent } } else t).d.session =
      t.d.session :=
    fun t => ite_session rfl rfl
  exact (hpeak _).trans ((harea _).trans (beginSession_session t))

variable (st now) in
theorem trackRtkDwell_session (entered : Bool) (t : Tick) :
    (trackRtkDwell st now entered t).d.session = t.d.session := by
  have hsince : ∀ t : Tick, (if entered = true ∨ t.d.rtkSince = none then
      { t with d := { t.d with rtkSince := some now, rtkNotified := false } } else t).d.session =
      t.d.session :=
    fun t => ite_session rfl rfl
  have hback : ∀ t : Tick, (if t.d.rtkNotified = true ∧ entered = true then
      emit st now .waitingForRtk .rtkRecovered notifyPriorityLow noParams t else t).d.session =
      t.d.session :=
    fun t => ite_session (emit_session _ _ _ _ t) rfl
  dsimp only [trackRtkDwell]
  refine ite_session (ite_session ?_ (hsince t)) (hback t)
  exact (emit_session _ _ _ _ _).trans (hsince t)

theorem onStateEntered_session (prev : String) (t : Tick) :
    (onStateEntered st now prev t).d.session =
      (t.d.prevState, t.d.prevMowing, t.d.inSession && st.state_name ≠ "MOWING_COMPLETE") := by
  have hmark : ∀ t : Tick, (if t.d.inSession = true ∧ isRechargeMowingPause st.state_name = true ∧
      prev ≠ "MOWING_COMPLETE" then { t with d := { t.d with rechargePaused := true } }
      else t).d.session = t.d.session :=
    fun t => ite_session rfl rfl
  dsimp only [onStateEntered]
  refine (hmark _).trans ?_
  by_cases hcomplete : st.state_name = "MOWING_COMPLETE"
  · rw [if_pos hcomplete]
    refine (emit_session _ _ _ _ _).trans ?_
    simp [NotifyDetector.session, NotifyDetector.endSession, hcomplete]
  · rw [if_neg hcomplete]
    have hsame : t.d.session = (t.d.prevState, t.d.prevMowing,
        t.d.inSession && st.state_name ≠ "MOWING_COMPLETE") := by
      simp [NotifyDetector.session, hcomplete]
    have hemit : ∀ kind message priority params, (emit st now kind message priority params t).d.session
        = _ := fun _ _ _ _ => (emit_session _ _ _ _ t).trans hsame
    have hfailed : ∀ d : NotifyDetector, d.session = t.d.session → (emit st now .blocked .navFailed
        notifyPriorityHigh noParams { t with d := d }).d.session = _ :=
      fun _ hd => (emit_session _ _ _ _ _).trans (hd.trans hsame)
    exact ite_session (hemit _ _ _ _) (ite_session (hemit _ _ _ _)
      (ite_session (ite_session hsame (hfailed _ rfl)) (ite_session (hemit _ _ _ _)
        (ite_session (hemit _ _ _ _) (ite_session (hemit _ _ _ _)
          (ite_session (hemit _ _ _ _) hsame))))))

variable (st now) in
theorem stopSession_session (isMowing wasMowing : Bool) (t : Tick) :
    (stopSession st now isMowing wasMowing t).d.session =
      (t.d.prevState, t.d.prevMowing, t.d.inSession && (isMowing || wasMowing ||
        isResumableMowingPause st.state_name || st.state_name = "MOWING_COMPLETE")) := by
  have hquiet : ∀ (quiet : Bool) (t : Tick), (if quiet = true then
      emit st now .mowStopped .mowStopped notifyPriorityDefault noParams t else t).d.session =
        t.d.session :=
    fun _ t => ite_session (emit_session _ _ _ _ t) rfl
  dsimp only [stopSession]
  split
  · rename_i h
    refine (hquiet _ _).trans ?_
    simp_all [NotifyDetector.session, NotifyDetector.endSession, NotifyDetector.isResumablePause]
  · rename_i h
    cases hin : t.d.inSession with
    | false => simp [NotifyDetector.session, hin]
    | true =>
      simp only [NotifyDetector.isResumablePause, hin] at h
      simp only [NotifyDetector.session, hin]
      grind

theorem session_eq {d : NotifyDetector} {name : String} {mowing inSession : Bool}
    (h : d.session = (name, mowing, inSession)) :
    d.prevState = name ∧ d.prevMowing = mowing ∧ d.inSession = inSession := by
  simpa [NotifyDetector.session] using h

/-- One status, as far as the sessions go. -/
theorem detector_session (d : NotifyDetector) :
    (d.OnStatus st now wantsKind).1.session =
      (st.state_name, st.isMowing, (st.isMowing || d.inSession) &&
        !(st.state_name ≠ d.prevState && st.state_name = "MOWING_COMPLETE") &&
          (st.isMowing || d.prevMowing || isResumableMowingPause st.state_name ||
            st.state_name = "MOWING_COMPLETE")) := by
  obtain ⟨t₁, ht₁⟩ : ∃ t, raiseEmergency st now
      { d := { d with prevState := st.state_name }.clearFailures st } = t := ⟨_, rfl⟩
  have h₁ : t₁.d.session = (st.state_name, d.prevMowing, d.inSession) := by
    rw [← ht₁, raiseEmergency_session]
    rfl
  have hwas := (session_eq h₁).2.1
  obtain ⟨t₂, ht₂⟩ : ∃ t, (if st.isMowing = true then onMowingTick st now wantsKind
      { t₁ with d := { t₁.d with prevMowing := st.isMowing } } else
      { t₁ with d := { t₁.d with prevMowing := st.isMowing } }) = t := ⟨_, rfl⟩
  have h₂ : t₂.d.session = (st.state_name, st.isMowing, st.isMowing || d.inSession) := by
    obtain ⟨hname, -, hin⟩ := session_eq h₁
    rw [← ht₂]
    cases hm : st.isMowing with
    | true =>
      rw [if_pos rfl, onMowingTick_session]
      simp [hname]
    | false =>
      rw [if_neg (by simp)]
      simp [NotifyDetector.session, hname, hin]
  obtain ⟨t₃, ht₃⟩ : ∃ t, (if decide (st.state_name ≠ d.prevState) = true then
      onStateEntered st now d.prevState t₂ else t₂) = t := ⟨_, rfl⟩
  have h₃ : t₃.d.session = (st.state_name, st.isMowing, (st.isMowing || d.inSession) &&
      !(st.state_name ≠ d.prevState && st.state_name = "MOWING_COMPLETE")) := by
    obtain ⟨hname, hmow, hin⟩ := session_eq h₂
    rw [← ht₃]
    by_cases hentered : st.state_name = d.prevState
    · rw [if_neg (by simpa using hentered), h₂]
      simp [hentered]
    · rw [if_pos (by simpa using hentered), onStateEntered_session, hname, hmow, hin]
      simp [hentered]
  have h₄ := (trackRtkDwell_session st now (decide (st.state_name ≠ d.prevState)) t₃).trans h₃
  obtain ⟨hname, hmow, hin⟩ := session_eq h₄
  have h₅ := stopSession_session st now st.isMowing d.prevMowing
    (trackRtkDwell st now (decide (st.state_name ≠ d.prevState)) t₃)
  rw [hname, hmow, hin] at h₅
  rw [← h₅, ← ht₃, ← ht₂, ← hwas, ← ht₁]
  rfl

/-! ## Streams -/

/-- A status on its way to both, each with a clock of its own, and the settings of the time. -/
structure Fed where
  status : HighLevelStatus
  trackedAt : Int := 0
  notifiedAt : Int := 0
  wantsKind : NotifyKind → Bool := fun _ => true

def SessionTracker.feed (s : SessionTracker) (fed : Fed) : SessionTracker :=
  (s.OnHighLevelStatus fed.status fed.trackedAt).1

def NotifyDetector.feed (d : NotifyDetector) (fed : Fed) : NotifyDetector :=
  (d.OnStatus fed.status fed.notifiedAt fed.wantsKind).1

/-- At which statuses of a stream a session starts. -/
def starts {σ : Type} (step : σ → Fed → σ) (inSession : σ → Bool) : σ → List Fed → List Bool
  | _, [] => []
  | s, fed :: rest => (!inSession s && inSession (step s fed)) :: starts step inSession (step s fed) rest

def SessionTracker.starts (s : SessionTracker) (stream : List Fed) : List Bool :=
  Sessions.starts feed inSession s stream

def NotifyDetector.starts (d : NotifyDetector) (stream : List Fed) : List Bool :=
  Sessions.starts feed inSession d stream

/-- A status that mows, `MOWING_COMPLETE`, and a status that mows. -/
def MowsOn (a b c : HighLevelStatus) : Prop :=
  a.isMowing = true ∧ b.state_name = "MOWING_COMPLETE" ∧ c.isMowing = true

theorem starts_append {σ : Type} (step : σ → Fed → σ) (inSession : σ → Bool) (s : σ)
    (before after : List Fed) :
    starts step inSession s (before ++ after) =
      starts step inSession s before ++ starts step inSession (before.foldl step s) after := by
  induction before generalizing s with
  | nil => rfl
  | cons fed rest ih => exact congrArg _ (ih _)

theorem length_starts {σ : Type} (step : σ → Fed → σ) (inSession : σ → Bool) (s : σ)
    (stream : List Fed) : (starts step inSession s stream).length = stream.length := by
  induction stream generalizing s with
  | nil => rfl
  | cons fed rest ih => exact congrArg (· + 1) (ih _)

/-! ## One status in both -/

variable {s : SessionTracker} {d : NotifyDetector} {fed : Fed}

theorem not_mowing_of_complete {st : HighLevelStatus} (h : st.state_name = "MOWING_COMPLETE") :
    st.isMowing = false := by
  simp [HighLevelStatus.isMowing, isActiveMowingSessionStatus, h]

theorem complete_not_resumable : isResumableMowingPause "MOWING_COMPLETE" = false := by
  decide

/-- The same of the past, and the same session. -/
structure Same (s : SessionTracker) (d : NotifyDetector) : Prop where
  state : s.currentState = d.prevState
  mowing : s.currentMowing = d.prevMowing
  session : s.inSession = d.inSession
  opened : s.currentMowing = true → s.inSession = true
  running : s.inSession = true → s.currentState ≠ "MOWING_COMPLETE"

/-- The mow is complete, and the tracker waits for one status more. -/
structure Lagging (s : SessionTracker) (d : NotifyDetector) : Prop where
  state : s.currentState = "MOWING_COMPLETE"
  state' : d.prevState = "MOWING_COMPLETE"
  mowing : s.currentMowing = false
  mowing' : d.prevMowing = false
  session : s.inSession = true
  session' : d.inSession = false

theorem Same.start : Same {} {} where
  state := rfl
  mowing := rfl
  session := rfl
  opened := by simp
  running := by simp

theorem feed_detector (d : NotifyDetector) (fed : Fed) :
    (d.feed fed).prevState = fed.status.state_name ∧ (d.feed fed).prevMowing = fed.status.isMowing ∧
      (d.feed fed).inSession = ((fed.status.isMowing || d.inSession) &&
        !(fed.status.state_name ≠ d.prevState && fed.status.state_name = "MOWING_COMPLETE") &&
          (fed.status.isMowing || d.prevMowing || isResumableMowingPause fed.status.state_name ||
            fed.status.state_name = "MOWING_COMPLETE")) :=
  session_eq (detector_session d)

theorem Same.feed (h : Same s d) (fed : Fed) :
    Same (s.feed fed) (d.feed fed) ∨ Lagging (s.feed fed) (d.feed fed) ∧
      s.inSession = true ∧ s.currentMowing = true ∧ fed.status.state_name = "MOWING_COMPLETE" := by
  obtain ⟨hstate, hmowing, hsession, hopened, hrunning⟩ := h
  obtain ⟨hname', hmow', hin'⟩ := feed_detector d fed
  have hname := tracker_state s fed.status fed.trackedAt
  have hmow := tracker_mowing s fed.status fed.trackedAt
  have hin := tracker_session s fed.status fed.trackedAt
  change (s.feed fed).currentState = _ at hname
  change (s.feed fed).currentMowing = _ at hmow
  change (s.feed fed).inSession = _ at hin
  rw [← hmowing, ← hsession, ← hstate] at hin'
  by_cases hc : fed.status.state_name = "MOWING_COMPLETE"
  · have hstill := not_mowing_of_complete hc
    simp only [hstill, hc, complete_not_resumable, Bool.false_or, Bool.false_and, Bool.or_false, decide_true,
      Bool.and_true] at hin hin'
    have hdet : (d.feed fed).inSession = false := by
      rw [hin']
      cases hs : s.inSession with
      | false => rfl
      | true => simp [Ne.symm (hrunning hs)]
    cases hs : s.inSession with
    | false =>
      left
      rw [hs, Bool.false_and] at hin
      refine ⟨hname.trans hname'.symm, hmow.trans hmow'.symm, hin.trans hdet.symm, ?_, ?_⟩
      · rw [hmow, hstill]; simp
      · rw [hin]; simp
    | true =>
      cases hw : s.currentMowing with
      | false =>
        left
        rw [hs, hw, Bool.true_and] at hin
        refine ⟨hname.trans hname'.symm, hmow.trans hmow'.symm, hin.trans hdet.symm, ?_, ?_⟩
        · rw [hmow, hstill]; simp
        · rw [hin]; simp
      | true =>
        right
        rw [hs, hw, Bool.true_and] at hin
        exact ⟨⟨hname.trans hc, hname'.trans hc, hmow.trans hstill, hmow'.trans hstill, hin, hdet⟩,
          rfl, rfl, hc⟩
  · left
    have hsame : (s.feed fed).inSession = (d.feed fed).inSession := by
      rw [hin, hin']
      cases hs : s.inSession with
      | false => cases hm : fed.status.isMowing <;> simp [hc]
      | true => cases hm : fed.status.isMowing <;> simp [hc, hrunning hs]
    refine ⟨hname.trans hname'.symm, hmow.trans hmow'.symm, hsame, ?_, ?_⟩
    · rw [hmow, hin]
      intro hm
      simp [hm]
    · rw [hname]
      exact fun _ => hc

theorem Lagging.feed (h : Lagging s d) (hm : fed.status.isMowing = false) :
    Same (s.feed fed) (d.feed fed) ∧ (d.feed fed).inSession = false := by
  obtain ⟨hname', hmow', hin'⟩ := feed_detector d fed
  have hname := tracker_state s fed.status fed.trackedAt
  have hmow := tracker_mowing s fed.status fed.trackedAt
  have hin := tracker_session s fed.status fed.trackedAt
  change (s.feed fed).currentState = _ at hname
  change (s.feed fed).currentMowing = _ at hmow
  change (s.feed fed).inSession = _ at hin
  rw [hm, h.state, h.mowing] at hin
  rw [hm, h.session'] at hin'
  have hclosed : (s.feed fed).inSession = false := by simpa using hin
  have hclosed' : (d.feed fed).inSession = false := by simpa using hin'
  refine ⟨⟨hname.trans hname'.symm, hmow.trans hmow'.symm, hclosed.trans hclosed'.symm, ?_, ?_⟩,
    hclosed'⟩
  · rw [hmow, hm]; simp
  · rw [hclosed]; simp

/-! ## Whole streams -/

/-- No `MOWING_COMPLETE` stands alone between two statuses that mow. -/
def Settled (stream : List HighLevelStatus) : Prop :=
  ∀ a b c, [a, b, c] <:+: stream → ¬MowsOn a b c

theorem Settled.tail {a : HighLevelStatus} {rest : List HighLevelStatus} (h : Settled (a :: rest)) :
    Settled rest :=
  fun _ _ _ hin => h _ _ _ (hin.trans (List.suffix_cons a rest).isInfix)

/-- After a status that mows, what follows does not complete and mow on. -/
theorem Settled.head {a : HighLevelStatus} {rest : List HighLevelStatus} (h : Settled (a :: rest))
    (ha : a.isMowing = true) (b c : HighLevelStatus) (hpre : [b, c] <+: rest) :
    ¬(b.state_name = "MOWING_COMPLETE" ∧ c.isMowing = true) := by
  intro hbc
  obtain ⟨after, rfl⟩ := hpre
  exact h a b c ⟨[], after, rfl⟩ ⟨ha, hbc.1, hbc.2⟩

theorem starts_cons_eq {fed : Fed} {rest : List Fed} (hs : s.inSession = d.inSession)
    (hs' : (s.feed fed).inSession = (d.feed fed).inSession)
    (h : (s.feed fed).starts rest = (d.feed fed).starts rest) :
    s.starts (fed :: rest) = d.starts (fed :: rest) := by
  show (!s.inSession && (s.feed fed).inSession) :: (s.feed fed).starts rest =
    (!d.inSession && (d.feed fed).inSession) :: (d.feed fed).starts rest
  rw [hs, hs', h]

/-- The two are the same but for the moment after a completion, where the next status must not mow. -/
theorem starts_eq (stream : List Fed) (hsettled : Settled (stream.map Fed.status))
    (h : Same s d ∧ (s.currentMowing = true → ∀ b c, [b, c] <+: stream.map Fed.status →
        ¬(b.state_name = "MOWING_COMPLETE" ∧ c.isMowing = true)) ∨
      Lagging s d ∧ ∀ c, [c] <+: stream.map Fed.status → c.isMowing = false) :
    s.starts stream = d.starts stream := by
  induction stream generalizing s d with
  | nil => rfl
  | cons fed rest ih =>
    have hrest : Settled (rest.map Fed.status) := Settled.tail hsettled
    have hnext : (s.feed fed).currentMowing = true → ∀ b c, [b, c] <+: rest.map Fed.status →
        ¬(b.state_name = "MOWING_COMPLETE" ∧ c.isMowing = true) := by
      intro hmow
      refine Settled.head hsettled ?_
      rw [← hmow]
      exact (tracker_mowing s fed.status fed.trackedAt).symm
    rcases h with ⟨hsame, hclean⟩ | ⟨hlag, hstill⟩
    · rcases hsame.feed fed with hsame' | ⟨hlag', hin, hmow, hcomplete⟩
      · exact starts_cons_eq hsame.session hsame'.session (ih hrest (.inl ⟨hsame', hnext⟩))
      · have hstill : ∀ c, [c] <+: rest.map Fed.status → c.isMowing = false := by
          rintro c ⟨after, hafter⟩
          have := hclean hmow fed.status c ⟨after, by rw [List.map_cons, ← hafter]; rfl⟩
          simpa [hcomplete] using this
        have hin' : d.inSession = true := hsame.session.symm.trans hin
        show (!s.inSession && _) :: (s.feed fed).starts rest =
          (!d.inSession && _) :: (d.feed fed).starts rest
        rw [hin, hin', ih hrest (.inr ⟨hlag', hstill⟩)]
        rfl
    · have hm : fed.status.isMowing = false := hstill fed.status ⟨rest.map Fed.status, rfl⟩
      obtain ⟨hsame', hclosed'⟩ := hlag.feed hm
      show (!s.inSession && _) :: (s.feed fed).starts rest =
        (!d.inSession && (d.feed fed).inSession) :: (d.feed fed).starts rest
      rw [hlag.session, hclosed', ih hrest (.inl ⟨hsame', hnext⟩)]
      simp

/-- Whatever was before: a completion that is mowed on from is a start in the detector alone. -/
theorem starts_ne (a b c : Fed) (after : List Fed) (h : MowsOn a.status b.status c.status) :
    s.starts (a :: b :: c :: after) ≠ d.starts (a :: b :: c :: after) := by
  obtain ⟨ha, hb, hc⟩ := h
  have hstill := not_mowing_of_complete hb
  have hin₁ := tracker_session s a.status a.trackedAt
  have hmow₁ := tracker_mowing s a.status a.trackedAt
  have hin₂ := tracker_session (s.feed a) b.status b.trackedAt
  change (s.feed a).inSession = _ at hin₁
  change (s.feed a).currentMowing = _ at hmow₁
  change ((s.feed a).feed b).inSession = _ at hin₂
  rw [ha, Bool.true_or] at hin₁
  rw [hmow₁, ha, hin₁, Bool.true_or, Bool.true_and, Bool.or_true] at hin₂
  obtain ⟨hname₁, -, -⟩ := feed_detector d a
  obtain ⟨-, -, hdet₂⟩ := feed_detector (d.feed a) b
  obtain ⟨-, -, hdet₃⟩ := feed_detector ((d.feed a).feed b) c
  have hne : "MOWING_COMPLETE" ≠ a.status.state_name := by
    intro he
    rw [not_mowing_of_complete he.symm] at ha
    exact absurd ha (by simp)
  have hclosed : ((d.feed a).feed b).inSession = false := by
    rw [hdet₂, hb, hname₁]
    simp [hne]
  have hopened : (((d.feed a).feed b).feed c).inSession = true := by
    have hne' : c.status.state_name ≠ "MOWING_COMPLETE" := by
      intro he
      rw [not_mowing_of_complete he] at hc
      exact absurd hc (by simp)
    rw [hdet₃, hc]
    simp [hne']
  intro he
  have hthird := congrArg (·[2]?) he
  simp only [SessionTracker.starts, NotifyDetector.starts, starts, List.getElem?_cons_succ,
    List.getElem?_cons_zero, Option.some.injEq] at hthird
  rw [hin₂, hclosed, hopened] at hthird
  exact absurd hthird (by simp)

/-- The statistics and the notifications start their sessions at the same statuses of exactly the
    streams in which nothing mows on from a completion of one status. -/
theorem sessions_agree_iff (stream : List Fed) :
    SessionTracker.starts {} stream = NotifyDetector.starts {} stream ↔
      ∀ a b c, [a, b, c] <:+: stream.map Fed.status → ¬MowsOn a b c := by
  constructor
  · intro he a b c hin hmows
    obtain ⟨before, after, hsplit⟩ := hin
    rw [List.append_assoc] at hsplit
    obtain ⟨fedsBefore, feds, rfl, -, hfeds⟩ := List.map_eq_append_iff.1 hsplit.symm
    match feds, hfeds with
    | fa :: fb :: fc :: fedsAfter, hfeds =>
      simp only [List.map_cons, List.cons_append, List.nil_append, List.cons.injEq] at hfeds
      obtain ⟨rfl, rfl, rfl, -⟩ := hfeds
      rw [SessionTracker.starts, NotifyDetector.starts, starts_append, starts_append] at he
      have hlater := (List.append_inj he (by rw [length_starts, length_starts])).2
      exact starts_ne fa fb fc fedsAfter hmows hlater
  · intro hsettled
    exact starts_eq stream hsettled (.inl ⟨Same.start, by simp⟩)

/-- One mow, completed, and another one: the detector counts two, the tracker one. -/
theorem mowed_on :
    let mow : Fed := { status := { state := 2, state_name := "MOWING" } }
    let complete : Fed := { status := { state := 2, state_name := "MOWING_COMPLETE" } }
    SessionTracker.starts {} [mow, complete, mow] = [true, false, false] ∧
      NotifyDetector.starts {} [mow, complete, mow] = [true, false, true] := by
  decide

end Sessions
end Gui
end Mowgli
