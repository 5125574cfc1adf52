import Mowgli.Bridge.LatchRelease

/-!
# BladeIntent — the blade across an emergency

Two paths of the node switch the blade on without a request: the tick that repeats a request
the board dropped, and the resume after a lift. Both carry an old request, so each has to know
that the request still **stands**: that it was accepted outside an emergency and nothing has
withdrawn it since.

The tick asks `bladeIntentAuthorized`, which every emergency clears. The resume asks what the node
remembered when the lift began, and that is `mowEnabled`, which a STOP leaves set. So the resume
is right as long as no lift begins on a request that was withdrawn (`Prudent`).
-/

namespace Mowgli
namespace Bridge

open Trace

/-! ## What the history says -/

/-- The last `EmergencyStop` request stopped. -/
def hostEmergency : List Entry → Bool
  | [] => false
  | e :: past =>
    match e.event with
    | .emergencyStop emergency _ => emergency != 0
    | _ => hostEmergency past

/-- The last status reported a lift. -/
def lastLift : List Entry → Bool
  | [] => false
  | e :: past =>
    match e.event with
    | .status bits _ => liftActive bits
    | _ => lastLift past

variable (p : Params)

namespace Entry

/-- A `MowerControl` ON, accepted while `mowing_enabled` held and outside every emergency. -/
def authorizes (e : Entry) (past : List Entry) : Bool :=
  match e.event with
  | .mowerControl on _ _ =>
    on != 0 && p.mowingEnabled && !hostEmergency past && !e.before.fwLatchedEmergency
  | _ => false

/-- A `MowerControl` OFF, a host emergency, a STOP, or without lift recovery a lift or a latch. -/
def withdraws (e : Entry) : Bool :=
  match e.event with
  | .mowerControl on _ _ => on == 0
  | .emergencyStop emergency _ => emergency != 0
  | .status bits _ =>
    stopActive bits || (!p.liftRecoveryMode && (liftActive bits || latchActive bits))
  | _ => false

def reportsLift (e : Entry) : Bool :=
  match e.event with
  | .status bits _ => liftActive bits
  | _ => false

/-- A status that sees a lift clear, by the clock it reads there. -/
def clearsLift (e : Entry) (past : List Entry) (time : Int) : Prop :=
  match e.event with
  | .status bits f => liftActive bits = false ∧ lastLift past = true ∧ f.clearTime = time
  | _ => False

/-- The clock when the delay after a lift is looked at. -/
def resumeTime (e : Entry) : Int :=
  match e.event with
  | .status _ f => f.resumeTime
  | _ => 0

end Entry

/-- A request stands: it was accepted outside an emergency, and nothing has withdrawn it. -/
def Stands (log : List Entry) : Prop :=
  Since (fun e => e.withdraws p = false) (fun e past => e.authorizes p past = true) log

/-- The lift was last seen to clear at `time`. -/
def Cleared (time : Int) (log : List Entry) : Prop :=
  Since (fun e => e.reportsLift = false) (fun e past => e.clearsLift past time) log

/-- What the node may switch on by itself. -/
structure Lawful (e : Entry) (past : List Entry) : Prop where
  reassert : ∀ on dir, .cmdBlade .reassert on dir ∈ e.sent → on ≠ 0 →
    Stands p (e :: past) ∧ lastLift (e :: past) = false
  resume : ∀ on dir, .cmdBlade .resume on dir ∈ e.sent → on ≠ 0 →
    Stands p (e :: past) ∧ lastLift (e :: past) = false ∧
      ∃ time, Cleared time (e :: past) ∧ p.liftBladeResumeDelaySec ≤ seconds e.resumeTime time

/-- Lift recovery remembers only requests that stand, and no request is accepted under a lift it
    does not look after. -/
def Prudent (e : Entry) (past : List Entry) : Prop :=
  match e.event with
  | .status bits _ =>
    -- A lift begins.
    p.liftRecoveryMode = true ∧ liftActive bits = true ∧ stopActive bits = false ∧
      e.before.liftDetected = false ∧ e.before.mowEnabled = true → Stands p past
  | .mowerControl on _ _ =>
    on ≠ 0 ∧ p.mowingEnabled = true →
      -- During the lift, in an emergency.
      ((e.before.emergencyActive = true ∨ e.before.fwLatchedEmergency = true) ∧
        e.before.liftDetected = true → Stands p past) ∧
      -- Outside an emergency, while the last status reports a lift.
      (e.before.emergencyActive = false ∧ e.before.fwLatchedEmergency = false ∧
        e.before.liftDetected = false → lastLift past = false)
  | _ => True

/-! ## What the flags promise -/

structure Promises (s : Node) (log : List Entry) : Prop where
  emergency : s.emergencyActive = hostEmergency log
  mowing : s.mowEnabled = true → p.mowingEnabled = true
  intent : s.bladeIntentAuthorized = true → Stands p log
  unlifted : s.bladeIntentAuthorized = true → s.liftDetected = false → lastLift log = false
  before : s.bladeWasEnabledBeforeLift = true → Stands p log
  waiting : s.waitingBladeResume = true →
    s.bladeWasEnabledBeforeLift = true ∧ s.liftDetected = false ∧ Cleared s.liftClearedTime log
  lifted : s.liftDetected = true → lastLift log = true

variable {p} {s t : Node} {e : Entry} {past log : List Entry}

/-- Sends break no promise. -/
theorem Promises.lessens (h : Promises p s log) (hl : Lessens s t) : Promises p t log where
  emergency := hl.emergency.trans h.emergency
  mowing ht := h.mowing (hl.mow ht)
  intent ht := h.intent (hl.intent ht).1
  unlifted ht hlift := by
    obtain ⟨hs, hsame⟩ := hl.intent ht
    exact h.unlifted hs (hsame ▸ hlift)
  before ht := h.before (hl.before ht)
  waiting ht := by
    obtain ⟨hs, hbefore⟩ := hl.waiting ht
    obtain ⟨hwas, hlift, hcleared⟩ := h.waiting hs
    refine ⟨hbefore.trans hwas, ?_, hl.clearedTime ▸ hcleared⟩
    cases ht' : t.liftDetected with
    | false => rfl
    | true =>
      have := hl.lifted ht'
      rw [hlift] at this
      cases this
  lifted ht := h.lifted (hl.lifted ht)

/-! ## Longer histories -/

theorem Stands.cons (h : Stands p log) (he : e.withdraws p = false) : Stands p (e :: log) :=
  .inr ⟨he, h⟩

theorem Cleared.cons {time : Int} (h : Cleared time log) (he : e.reportsLift = false) :
    Cleared time (e :: log) := .inr ⟨he, h⟩

theorem hostEmergency_cons : hostEmergency (e :: past) =
    match e.event with
    | .emergencyStop emergency _ => emergency != 0
    | _ => hostEmergency past := rfl

theorem lastLift_cons : lastLift (e :: past) =
    match e.event with
    | .status bits _ => liftActive bits
    | _ => lastLift past := rfl

/-- An event that none of the sentences is about. -/
def Event.isQuiet : Event → Bool
  | .status _ _ => false
  | .mowerControl _ _ _ => false
  | .emergencyStop _ _ => false
  | _ => true

theorem lastLift_quiet (he : e.event.isQuiet = true) : lastLift (e :: past) = lastLift past := by
  rw [lastLift_cons]
  cases hev : e.event with
  | status bits f => rw [hev] at he; cases he
  | _ => rfl

theorem Promises.quiet (h : Promises p s past) (he : e.event.isQuiet = true) :
    Promises p s (e :: past) := by
  have hcalm : hostEmergency (e :: past) = hostEmergency past ∧ e.withdraws p = false ∧
      e.reportsLift = false := by
    rw [hostEmergency_cons]
    unfold Entry.withdraws Entry.reportsLift
    cases hev : e.event with
    | status bits f => rw [hev] at he; cases he
    | mowerControl on dir f => rw [hev] at he; cases he
    | emergencyStop emergency beat => rw [hev] at he; cases he
    | _ => exact ⟨rfl, rfl, rfl⟩
  obtain ⟨hemergency, hwithdraws, hreports⟩ := hcalm
  have hlift : lastLift (e :: past) = lastLift past := lastLift_quiet he
  refine ⟨hemergency ▸ h.emergency, h.mowing, fun hi => (h.intent hi).cons hwithdraws,
    fun hi hl => hlift.trans (h.unlifted hi hl), fun hb => (h.before hb).cons hwithdraws, ?_,
    fun hl => hlift.trans (h.lifted hl)⟩
  intro hw
  obtain ⟨hwas, hl, hcleared⟩ := h.waiting hw
  exact ⟨hwas, hl, hcleared.cons hreports⟩

/-! ## Status packets -/

section Status

variable {bits : UInt8} {f : StatusFinds}

theorem Promises.warning (h : Promises p s past) (hprudent : Prudent p e past)
    (hevent : e.event = .status bits f) (hbefore : e.before.liftDetected = s.liftDetected)
    (hmow : e.before.mowEnabled = s.mowEnabled)
    (hw : (p.liftRecoveryMode && liftActive bits && !stopActive bits) = true) :
    Promises p (s.liftWarning bits f) (e :: past) := by
  simp only [Bool.and_eq_true, Bool.not_eq_true'] at hw
  obtain ⟨⟨hmode, hlift⟩, hstop⟩ := hw
  have hemergency : hostEmergency (e :: past) = hostEmergency past := by
    rw [hostEmergency_cons, hevent]
  have hlast : lastLift (e :: past) = true := by
    rw [lastLift_cons, hevent]
    exact hlift
  have hkept : e.withdraws p = false := by
    unfold Entry.withdraws
    rw [hevent]
    simp [hmode, hstop]
  unfold Prudent at hprudent
  rw [hevent, hbefore, hmow] at hprudent
  have hpend (t : Node) (ht : Promises p t (e :: past)) :
      Promises p (if latchActive bits then { t with emergencyReleasePending := true } else t)
        (e :: past) := by
    split
    · exact ⟨ht.emergency, ht.mowing, ht.intent, ht.unlifted, ht.before, ht.waiting, ht.lifted⟩
    · exact ht
  unfold Node.liftWarning
  refine hpend _ ?_
  dsimp only
  by_cases hdetected : s.liftDetected = true
  · rw [if_pos hdetected]
    refine ⟨hemergency ▸ h.emergency, h.mowing, fun hi => (h.intent hi).cons hkept, ?_,
      fun hb => (h.before hb).cons hkept, ?_, fun _ => hlast⟩
    · intro _ hl
      exact absurd hdetected (Bool.eq_false_iff.1 hl)
    · intro hwaiting
      exact absurd hdetected (Bool.eq_false_iff.1 (h.waiting hwaiting).2.1)
  · rw [if_neg hdetected]
    -- What the lift interrupts is remembered, and it stands.
    have hbegun : Promises p { s with
        fwLatchedEmergency := false
        waitingBladeResume := false
        liftDetected := true
        bladeWasEnabledBeforeLift := s.mowEnabled } (e :: past) := by
      refine ⟨hemergency ▸ h.emergency, h.mowing, fun hi => (h.intent hi).cons hkept, nofun, ?_,
        nofun, fun _ => hlast⟩
      intro hb
      exact (hprudent ⟨hmode, hlift, hstop, Bool.eq_false_iff.2 hdetected, hb⟩).cons hkept
    split
    · exact hbegun.lessens (Node.sendBladeCommand_lessens _ f.off .lift 0 0)
    · exact hbegun

/-- Up to the resume. -/
theorem Promises.emergencyStatus (h : Promises p s past) (hevent : e.event = .status bits f)
    (hw : (p.liftRecoveryMode && liftActive bits && !stopActive bits) = false) :
    Promises p (((s.fullEmergency bits).cancelOnEmergency p bits).liftCleared bits f)
      (e :: past) := by
  have hemergency : hostEmergency (e :: past) = hostEmergency past := by
    rw [hostEmergency_cons, hevent]
  have hlast : lastLift (e :: past) = liftActive bits := by
    rw [lastLift_cons, hevent]
  have hreports : e.reportsLift = liftActive bits := by
    unfold Entry.reportsLift
    rw [hevent]
  have hwithdraws : e.withdraws p =
      (stopActive bits || (!p.liftRecoveryMode && (liftActive bits || latchActive bits))) := by
    unfold Entry.withdraws
    rw [hevent]
  -- After the flags of the emergency and before the lift is looked at.
  obtain ⟨t, ht, hintent, hbefore, hwaiting, hlifted, hmow, htime, hactive⟩ : ∃ t : Node,
      (s.fullEmergency bits).cancelOnEmergency p bits = t ∧
      (t.bladeIntentAuthorized = true → s.bladeIntentAuthorized = true ∧
        stopActive bits = false ∧ liftActive bits = false ∧ latchActive bits = false) ∧
      (t.bladeWasEnabledBeforeLift = true →
        s.bladeWasEnabledBeforeLift = true ∧ e.withdraws p = false) ∧
      (t.waitingBladeResume = true → s.waitingBladeResume = true ∧ e.withdraws p = false ∧
        t.bladeWasEnabledBeforeLift = s.bladeWasEnabledBeforeLift) ∧
      t.liftDetected = s.liftDetected ∧ t.mowEnabled = s.mowEnabled ∧
      t.liftClearedTime = s.liftClearedTime ∧ t.emergencyActive = s.emergencyActive := by
    refine ⟨_, rfl, ?_⟩
    have hflags : (s.bladeIntentAuthorized &&
        !(stopActive bits || liftActive bits || latchActive bits)) = true →
        s.bladeIntentAuthorized = true ∧ stopActive bits = false ∧ liftActive bits = false ∧
          latchActive bits = false := by
      intro hi
      simp only [Bool.and_eq_true, Bool.not_eq_true', Bool.or_eq_false_iff] at hi
      exact ⟨hi.1, hi.2.1.1, hi.2.1.2, hi.2.2⟩
    unfold Node.cancelOnEmergency
    rw [hwithdraws]
    split
    · exact ⟨hflags, nofun, nofun, rfl, rfl, rfl, rfl⟩
    · rename_i hkept
      have hkept' := Bool.eq_false_iff.2 hkept
      exact ⟨hflags, fun hb => ⟨hb, hkept'⟩, fun hb => ⟨hb, hkept', rfl⟩, rfl, rfl, rfl, rfl⟩
  rw [ht]
  have hstands : t.bladeWasEnabledBeforeLift = true → Stands p (e :: past) := by
    intro hb
    obtain ⟨hwas, hkept⟩ := hbefore hb
    exact (h.before hwas).cons hkept
  have hcalm : t.bladeIntentAuthorized = true →
      Stands p (e :: past) ∧ lastLift (e :: past) = false := by
    intro hi
    obtain ⟨hi, hstop, hlift, hlatch⟩ := hintent hi
    refine ⟨(h.intent hi).cons ?_, hlast.trans hlift⟩
    rw [hwithdraws, hstop, hlift, hlatch]
    cases p.liftRecoveryMode <;> rfl
  -- A resume that was pending has seen no lift since.
  have hpending : t.waitingBladeResume = true →
      t.bladeWasEnabledBeforeLift = true ∧ t.liftDetected = false ∧
        Cleared t.liftClearedTime (e :: past) := by
    intro hp
    obtain ⟨hs, hkept, hsame⟩ := hwaiting hp
    obtain ⟨hwas, hl, hcleared⟩ := h.waiting hs
    refine ⟨hsame.trans hwas, hlifted.trans hl, htime ▸ hcleared.cons ?_⟩
    rw [hreports]
    rw [hwithdraws] at hkept
    revert hkept hw
    cases p.liftRecoveryMode <;> cases stopActive bits <;> cases liftActive bits <;>
      cases latchActive bits <;> decide
  unfold Node.liftCleared
  dsimp only
  split
  · rename_i hclear
    simp only [Bool.and_eq_true, Bool.not_eq_true'] at hclear
    obtain ⟨hdetected, hlift⟩ := hclear
    have hclears : e.clearsLift past f.clearTime := by
      unfold Entry.clearsLift
      rw [hevent]
      exact ⟨hlift, h.lifted (hlifted ▸ hdetected), rfl⟩
    have hcleared : Cleared f.clearTime (e :: past) := .inl hclears
    split
    · rename_i hresume
      simp only [Bool.and_eq_true] at hresume
      exact ⟨hactive.trans (h.emergency.trans hemergency.symm), fun hm => h.mowing (hmow ▸ hm),
        fun hi => (hcalm hi).1, fun hi _ => (hcalm hi).2, hstands,
        fun _ => ⟨hresume.1.1, rfl, hcleared⟩, nofun⟩
    · exact ⟨hactive.trans (h.emergency.trans hemergency.symm), fun hm => h.mowing (hmow ▸ hm),
        fun hi => (hcalm hi).1, fun hi _ => (hcalm hi).2, hstands,
        fun hp => ⟨(hpending hp).1, rfl, (hpending hp).2.2⟩, nofun⟩
  · rename_i hclear
    refine ⟨hactive.trans (h.emergency.trans hemergency.symm), fun hm => h.mowing (hmow ▸ hm),
      fun hi => (hcalm hi).1, fun hi _ => (hcalm hi).2, hstands, hpending, ?_⟩
    intro hl
    rw [hl] at hclear
    rw [hlast]
    simpa using hclear

theorem Promises.status (h : Promises p s past) (hs : s.sent = []) (hprudent : Prudent p e past)
    (hevent : e.event = .status bits f) (hbefore : e.before.liftDetected = s.liftDetected)
    (hmow : e.before.mowEnabled = s.mowEnabled) (hsent : e.sent = (s.handleStatus p bits f).sent) :
    Promises p (s.handleStatus p bits f) (e :: past) ∧ Lawful p e past := by
  have hresumeTime : e.resumeTime = f.resumeTime := by
    unfold Entry.resumeTime
    rw [hevent]
  cases hw : p.liftRecoveryMode && liftActive bits && !stopActive bits with
  | true =>
    rw [s.handleStatus_warning p hw] at hsent ⊢
    have honly : ∀ path on dir, .cmdBlade path on dir ∈ e.sent → path = .lift := by
      intro path on dir hq
      rw [hsent] at hq
      rcases s.liftWarning_sent hq with hq | hq
      · rw [hs] at hq
        cases hq
      · injection hq
    refine ⟨h.warning hprudent hevent hbefore hmow hw, ?_, ?_⟩
    · intro on dir hq
      cases honly _ on dir hq
    · intro on dir hq
      cases honly _ on dir hq
  | false =>
    rw [s.handleStatus_emergency p hw] at hsent ⊢
    have hpromises := h.emergencyStatus hevent hw
    have hempty : (((s.fullEmergency bits).cancelOnEmergency p bits).liftCleared bits f).sent =
        [] := by
      rw [Node.liftCleared_sent, Node.cancelOnEmergency_sent]
      exact hs
    refine ⟨hpromises.lessens (Node.resumeBlade_lessens p _ bits f), ?_, ?_⟩
    · intro on dir hq
      rw [hsent] at hq
      rcases Node.resumeBlade_sent p _ hq with hq | ⟨⟨on', dir', hq⟩, -⟩
      · rw [hempty] at hq
        cases hq
      · cases hq
    · intro on dir hq _
      rw [hsent] at hq
      rcases Node.resumeBlade_sent p _ hq with hq | ⟨-, hwaiting, hlift, -, -, hdelay⟩
      · rw [hempty] at hq
        cases hq
      · obtain ⟨hwas, -, hcleared⟩ := hpromises.waiting hwaiting
        refine ⟨hpromises.before hwas, ?_, _, hcleared, hresumeTime ▸ hdelay⟩
        rw [lastLift_cons, hevent]
        exact hlift

end Status

/-! ## The services -/

theorem Promises.request (h : Promises p s past) (hprudent : Prudent p e past) {on dir : UInt8}
    {f : ControlFinds} (hevent : e.event = .mowerControl on dir f)
    (hbefore : e.before.liftDetected = s.liftDetected)
    (hemergency : e.before.emergencyActive = s.emergencyActive)
    (hlatched : e.before.fwLatchedEmergency = s.fwLatchedEmergency) :
    Promises p (s.takeRequest p on dir) (e :: past) := by
  have hactive : hostEmergency (e :: past) = hostEmergency past := by
    rw [hostEmergency_cons, hevent]
  have hlast : lastLift (e :: past) = lastLift past := by
    rw [lastLift_cons, hevent]
  have hreports : e.reportsLift = false := by
    unfold Entry.reportsLift
    rw [hevent]
  unfold Node.takeRequest
  dsimp only
  by_cases henabled : bladeEnableAllowed (on != 0) p.mowingEnabled = true
  · rw [if_pos henabled]
    have hon : on ≠ 0 ∧ p.mowingEnabled = true := by simpa [bladeEnableAllowed] using henabled
    have hkept : e.withdraws p = false := by
      unfold Entry.withdraws
      rw [hevent]
      simpa using hon.1
    have hauthorizes : s.emergencyActive = false → s.fwLatchedEmergency = false →
        Stands p (e :: past) := by
      intro hem hl
      have hauthorizes : e.authorizes p past = true := by
        unfold Entry.authorizes
        rw [hevent, ← h.emergency, hlatched, hem, hl]
        simpa using hon
      exact .inl hauthorizes
    unfold Prudent at hprudent
    rw [hevent, hbefore, hemergency, hlatched] at hprudent
    have hprudent := hprudent hon
    refine ⟨h.emergency.trans hactive.symm, fun _ => hon.2, ?_, ?_, ?_, ?_,
      fun hl => hlast.trans (h.lifted hl)⟩
    · intro hi
      simp only [Bool.and_eq_true, Bool.not_eq_true'] at hi
      exact hauthorizes hi.1.2 hi.2
    · intro hi hl
      simp only [Bool.and_eq_true, Bool.not_eq_true'] at hi
      exact hlast.trans (hprudent.2 ⟨hi.1.2, hi.2, hl⟩)
    · intro hb
      rcases (Bool.or_eq_true _ _).mp hb with hwas | hl
      · exact (h.before hwas).cons hkept
      · -- An ON during the lift is remembered.
        by_cases hem : s.emergencyActive = true ∨ s.fwLatchedEmergency = true
        · exact (hprudent.1 ⟨hem, hl⟩).cons hkept
        · simp only [not_or, Bool.not_eq_true] at hem
          exact hauthorizes hem.1 hem.2
    · intro hw
      obtain ⟨hwas, hl, hcleared⟩ := h.waiting hw
      exact ⟨by simp [hwas], hl, hcleared.cons hreports⟩
  · rw [if_neg henabled]
    have hoff := Bool.eq_false_iff.2 henabled
    rw [hoff]
    exact ⟨h.emergency.trans hactive.symm, nofun, nofun, nofun, nofun, nofun,
      fun hl => hlast.trans (h.lifted hl)⟩

theorem Promises.stop (h : Promises p s past) {emergency : UInt8} {beat : Sending}
    (hevent : e.event = .emergencyStop emergency beat) :
    Promises p (s.onEmergencyStop emergency beat) (e :: past) := by
  have hactive : hostEmergency (e :: past) = (emergency != 0) := by
    rw [hostEmergency_cons, hevent]
  have hlast : lastLift (e :: past) = lastLift past := by
    rw [lastLift_cons, hevent]
  have hkept : e.withdraws p = (emergency != 0) := by
    unfold Entry.withdraws
    rw [hevent]
  have hreports : e.reportsLift = false := by
    unfold Entry.reportsLift
    rw [hevent]
  unfold Node.onEmergencyStop
  dsimp only
  refine Promises.lessens ?_ (Node.sendHeartbeat_lessens _ beat)
  split
  · rename_i hstop
    exact ⟨hstop.symm.trans hactive.symm, h.mowing, nofun, nofun, nofun, nofun,
      fun hl => hlast.trans (h.lifted hl)⟩
  · rename_i hstop
    have hzero := Bool.eq_false_iff.2 hstop
    rw [hzero] at hactive hkept
    refine ⟨hactive.symm, h.mowing, fun hi => (h.intent hi).cons hkept,
      fun hi hl => hlast.trans (h.unlifted hi hl), fun hb => (h.before hb).cons hkept, ?_,
      fun hl => hlast.trans (h.lifted hl)⟩
    intro hw
    obtain ⟨hwas, hl, hcleared⟩ := h.waiting hw
    exact ⟨hwas, hl, hcleared.cons hreports⟩

/-! ## The heartbeat timer -/

theorem Promises.tick (h : Promises p s past) (hs : s.sent = []) {beat blade : Sending} {nowNs : Int}
    (hevent : e.event = .heartbeatTick beat nowNs blade)
    (hsent : e.sent = (s.heartbeatTick p beat nowNs blade).sent) :
    Promises p (s.heartbeatTick p beat nowNs blade) (e :: past) ∧ Lawful p e past := by
  have hquiet : e.event.isQuiet = true := by rw [hevent]; rfl
  obtain ⟨t, ht, hpromises, hempty⟩ : ∃ t : Node,
      s.heartbeatTick p beat nowNs blade = (t.sendHeartbeat beat).bladeReassertTick p nowNs blade ∧
        Promises p t past ∧ t.sent = [] := by
    unfold Node.heartbeatTick
    refine ⟨_, rfl, ?_, ?_⟩
    · split
      · exact ⟨h.emergency, h.mowing, h.intent, h.unlifted, h.before, h.waiting, h.lifted⟩
      · exact h
    · split <;> exact hs
  rw [ht] at hsent ⊢
  have hused : Promises p { t with emergencyReleasePending := false } past :=
    ⟨hpromises.emergency, hpromises.mowing, hpromises.intent, hpromises.unlifted,
      hpromises.before, hpromises.waiting, hpromises.lifted⟩
  have hbeat := (hused.lessens (t.sendHeartbeat_lessens beat)).quiet hquiet
  refine ⟨hbeat.lessens (Node.bladeReassertTick_lessens p _ nowNs blade), ?_, ?_⟩
  · intro on dir hq _
    rw [hsent] at hq
    rcases Node.bladeReassertTick_sent p _ hq with hq | ⟨-, hintent, hlift⟩
    · rcases t.sendHeartbeat_sent beat hq with hq | hq
      · rw [hempty] at hq
        cases hq
      · cases hq
    · exact ⟨hbeat.intent hintent, hbeat.unlifted hintent hlift⟩
  · intro on dir hq
    rw [hsent] at hq
    rcases Node.bladeReassertTick_sent p _ hq with hq | ⟨⟨_, _, hq⟩, -⟩
    · rcases t.sendHeartbeat_sent beat hq with hq | hq
      · rw [hempty] at hq
        cases hq
      · cases hq
    · cases hq

/-! ## Runs -/

/-- A handler that sends no blade command by itself. -/
theorem Lawful.of_sent
    (h : ∀ path on dir, .cmdBlade path on dir ∈ e.sent → path = .request) : Lawful p e past where
  reassert on dir hq := by cases h _ on dir hq
  resume on dir hq := by cases h _ on dir hq

/-- Any one handler. -/
theorem Promises.step (h : Promises p s past) (ev : Event)
    (hprudent : Prudent p ⟨ev, s, (s.step p ev).sent⟩ past) :
    Promises p (s.step p ev) (⟨ev, s, (s.step p ev).sent⟩ :: past) ∧
      Lawful p ⟨ev, s, (s.step p ev).sent⟩ past := by
  have h' : Promises p { s with sent := [] } past := h.lessens (.of_flags rfl)
  cases ev with
  | status bits f => exact h'.status rfl hprudent rfl rfl rfl rfl
  | bladeStatus isActive receiptNs =>
    have hless : Lessens { s with sent := [] } (s.step p (.bladeStatus isActive receiptNs)) :=
      .of_flags rfl
    exact ⟨(h'.lessens hless).quiet rfl, .of_sent nofun⟩
  | mowerControl on dir f =>
    refine ⟨(h'.request hprudent rfl rfl rfl rfl).lessens
      (Node.onMowerControl_lessens p _ on dir f), .of_sent fun path on' dir' hq => ?_⟩
    rcases Node.onMowerControl_sent p _ hq with hq | hq | ⟨_, _, hq⟩
    · cases hq
    · cases hq
    · injection hq
  | emergencyStop emergency beat =>
    refine ⟨h'.stop rfl, .of_sent fun path on' dir' hq => ?_⟩
    rcases Node.sendHeartbeat_sent _ beat hq with hq | hq
    · revert hq
      split <;> exact nofun
    · cases hq
  | heartbeatTick beat nowNs blade => exact h'.tick rfl rfl rfl
  | cmdVel representable w =>
    refine ⟨(h'.lessens (Node.sendCmdVelPacket_lessens _ w representable)).quiet rfl,
      .of_sent fun path on' dir' hq => ?_⟩
    rcases Node.sendCmdVelPacket_sent _ w representable hq with hq | hq
    · cases hq
    · cases hq
  | sendOther w =>
    refine ⟨(h'.lessens (Node.sendRawPacket_lessens _ .other w)).quiet rfl,
      .of_sent fun path on' dir' hq => ?_⟩
    rcases Node.sendRawPacket_sent _ .other w hq with hq | hq
    · cases hq
    · cases hq
  | reopen =>
    have hless : Lessens { s with sent := [] } (s.step p .reopen) := by
      unfold Node.step Node.apply
      dsimp only
      split
      · exact .refl _
      · exact (Lessens.reset _).trans (.of_flags rfl)
    refine ⟨(h'.lessens hless).quiet rfl, .of_sent fun path on' dir' hq => ?_⟩
    revert hq
    unfold Node.step Node.apply
    dsimp only
    split <;> exact nofun
  | linkLost =>
    have hless : Lessens { s with sent := [] } (s.step p .linkLost) := by
      unfold Node.step Node.apply
      dsimp only
      split
      · exact .close _
      · exact .refl _
    refine ⟨(h'.lessens hless).quiet rfl, .of_sent fun path on' dir' hq => ?_⟩
    revert hq
    unfold Node.step Node.apply
    dsimp only
    split <;> exact nofun

/-- Where lift recovery is prudent, the blade is never switched on across an emergency. -/
theorem blade_intent_stands (p : Params) (serialOpen : Bool) (es : List Event)
    (hprudent : Always (Prudent p) (history p serialOpen es)) :
    Always (Lawful p) (history p serialOpen es) := by
  have hstart : Promises p { serialOpen := serialOpen } [] :=
    ⟨rfl, nofun, nofun, nofun, nofun, nofun, nofun⟩
  exact History.run_lawful (fun _ _ ev h hok => h.step ev hok) hstart es hprudent

/-! ## A lift after a STOP -/

instance (log : List Entry) : Decidable (Stands p log) := inferInstanceAs (Decidable (Since _ _ log))

instance : ∀ (e : Entry) (past : List Entry), Decidable (Prudent p e past)
  | ⟨.status _ _, _, _⟩, past => inferInstanceAs (Decidable (_ ∧ _ → Stands p past))
  | ⟨.mowerControl _ _ _, _, _⟩, past =>
    inferInstanceAs (Decidable (_ ∧ _ → (_ ∧ _ → Stands p past) ∧
      (_ ∧ _ ∧ _ → lastLift past = false)))
  | ⟨.bladeStatus _ _, _, _⟩, _ => isTrue trivial
  | ⟨.emergencyStop _ _, _, _⟩, _ => isTrue trivial
  | ⟨.heartbeatTick _ _ _, _, _⟩, _ => isTrue trivial
  | ⟨.cmdVel _ _, _, _⟩, _ => isTrue trivial
  | ⟨.sendOther _, _, _⟩, _ => isTrue trivial
  | ⟨.reopen, _, _⟩, _ => isTrue trivial
  | ⟨.linkLost, _, _⟩, _ => isTrue trivial

/-- Switched on, lifted for a second and put down: the blade comes back after the delay. -/
def liftAndResume : List Event :=
  [.cmdVel true { sentNs := 1 }, .mowerControl 1 0 { beforeNs := 2, afterNs := 2 }, .status 4 {},
    .status 0 { clearTime := 1000000000, resumeTime := 1000000000 },
    .status 0 { resumeTime := 2000000000 }]

theorem blade_intent_stands_lifted : Always (Lawful recovering) (history recovering true liftAndResume) :=
  blade_intent_stands recovering true liftAndResume (by decide +kernel)

/-- Switched on, stopped, released, and then lifted. -/
def stopAndLift : List Event :=
  [.cmdVel true { sentNs := 1 }, .mowerControl 1 0 { beforeNs := 2, afterNs := 2 }, .status 3 {},
    .status 0 {}, .status 4 {}, .status 0 { clearTime := 1000000000, resumeTime := 1000000000 },
    .status 0 { resumeTime := 2000000000 }]

/-- The blade comes back although STOP withdrew the request. -/
theorem lift_revives_stopped_blade :
    ¬∀ (p : Params) (serialOpen : Bool) (es : List Event),
      Always (Lawful p) (history p serialOpen es) := by
  intro h
  have hlast := (h recovering true stopAndLift).1.resume 1 0 (by decide +kernel) (by decide)
  have hstands := hlast.1
  revert hstands
  decide +kernel

end Bridge
end Mowgli
