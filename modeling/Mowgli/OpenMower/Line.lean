import Mowgli.OpenMower.Gates

/-!
# Line — when a motor may turn

The motor controllers do not refuse a duty, so the node holds **the line**: a duty that is not
zero leaves it only in a control tick, outside every emergency, with a board, a command and a mode
that are current; a blade turns after an emergency only on a request that came since it began; and
a release lingers for three heartbeats at most.

Everything is said over the history, not over what the node remembers. The node forgets neither
the request when an emergency begins nor that a mode was reported when it assumes one, and the
line holds where neither matters (`Prudent`).
-/

namespace Mowgli
namespace OpenMower

open Trace

variable {D : Type} (d : Arith D) (p : Params D)

/-! ## What the history says -/

/-- A host request that no release followed. -/
def hostEmergency : List (Entry D) → Bool
  | [] => false
  | e :: past =>
    match e.event with
    | .emergencyStop emergency _ => emergency != 0
    | _ => hostEmergency past

/-- The last status of the board has a bit set. -/
def boardEmergency : List (Entry D) → Bool
  | [] => false
  | e :: past =>
    match e.event with
    | .llStatus emergencyBitmask _ => emergencyBitmask != 0
    | _ => boardEmergency past

def inForce (log : List (Entry D)) : Bool := hostEmergency log || boardEmergency log

/-- When the last status of the board came, or 0. -/
def llStamp : List (Entry D) → Int
  | [] => 0
  | e :: past =>
    match e.event with
    | .llStatus _ stamp => stamp
    | _ => llStamp past

/-- When the last finite velocity command came, or 0. -/
def cmdVelStamp : List (Entry D) → Int
  | [] => 0
  | e :: past =>
    match e.event with
    | .cmdVel vx wz stamp _ => if d.isFinite vx && d.isFinite wz then stamp else cmdVelStamp past
    | _ => cmdVelStamp past

/-- The state of the last high-level status, and when it came. -/
def highLevel : List (Entry D) → UInt8 × Int
  | [] => (HL_MODE_NULL, 0)
  | e :: past =>
    match e.event with
    | .highLevelStatus state stamp => (state, stamp)
    | _ => highLevel past

/-- The last `MowerControl` request switched the blade on. -/
def requested : List (Entry D) → Bool
  | [] => false
  | e :: past =>
    match e.event with
    | .mowerControl mowEnabled _ => mowEnabled != 0 && p.mowingEnabled
    | _ => requested past

namespace Entry

variable (e : Entry D)

def isOn : Bool :=
  match e.event with
  | .mowerControl mowEnabled _ => mowEnabled != 0 && p.mowingEnabled
  | _ => false

def raises : Bool :=
  match e.event with
  | .emergencyStop emergency _ => emergency != 0
  | .llStatus emergencyBitmask _ => emergencyBitmask != 0
  | _ => false

/-- An emergency begins here. -/
def begins : Bool := !e.before.emergency.isEmergency && e.raises

def isRelease : Bool :=
  match e.event with
  | .emergencyStop emergency _ => emergency == 0
  | _ => false

/-- The host wants an emergency, or the board is clear or refuses the release. -/
def cancels : Bool :=
  match e.event with
  | .emergencyStop emergency _ => emergency != 0
  | .llStatus emergencyBitmask _ =>
    emergencyBitmask == 0 || EmergencyTracker.triggerActive emergencyBitmask
  | _ => false

/-- A finite velocity command that is not a stop. -/
def drives : Bool :=
  match e.event with
  | .cmdVel vx wz _ _ =>
    d.isFinite vx && d.isFinite wz && (!d.eq vx (d.lit 0) || !d.eq wz (d.lit 0))
  | _ => false

end Entry

def heartbeats (log : List (Entry D)) : Nat := (log.flatMap (·.sent)).countP Sent.isHeartbeat

/-- The blade was asked for, and no emergency has begun since. -/
def Asked (log : List (Entry D)) : Prop :=
  Since (fun e => e.begins = false) (fun e _ => e.isOn p = true) log

/-- A release was requested, nothing has cancelled it, and since then no more than `n` heartbeats
    were sent. -/
def Released (n : Nat) (log : List (Entry D)) : Prop :=
  ∃ later a past, log = later ++ a :: past ∧ a.isRelease = true ∧
    (∀ e ∈ later, e.cancels = false) ∧ heartbeats (later ++ [a]) ≤ n

/-- A control tick outside every emergency, with a board that is alive. -/
structure Calm (e : Entry D) (past : List (Entry D)) (f : TickFinds D) : Prop where
  tick : e.event = .controlTick f
  calm : inForce past = false
  llOpen : e.before.llOpen = true
  llFresh : fresh d f.llNow (llStamp past) p.llStatusTimeoutS = true

structure Lawful (e : Entry D) (past : List (Entry D)) : Prop where
  wheels : ∀ motor duty, .duty motor duty ∈ e.sent → motor ≠ .mow → d.eq duty (d.lit 0) = false →
    ∃ f, Calm d p e past f ∧ (highLevel past).1 ≠ HL_MODE_IDLE ∧
      fresh d f.cmdNow (cmdVelStamp d past) p.cmdVelTimeoutS = true
  blade : ∀ duty, .duty .mow duty ∈ e.sent → d.eq duty (d.lit 0) = false →
    ∃ f, Calm d p e past f ∧ f.updateMaintenance = false ∧ requested p past = true ∧
      fresh d f.hlNow (highLevel past).2 p.highLevelStatusTimeoutS = true ∧
      ((highLevel past).1 = HL_MODE_AUTONOMOUS ∨ (highLevel past).1 = HL_MODE_MANUAL_MOWING)
  again : ∀ duty, .duty .mow duty ∈ e.sent → d.eq duty (d.lit 0) = false → Asked p past
  oneBit : ∀ release, .heartbeat true release ∈ e.sent → release = false
  release : ∀ request, .heartbeat request true ∈ e.sent →
    Released EmergencyTracker.kReleaseHeartbeats (e :: past)

structure Prudent (e : Entry D) (past : List (Entry D)) : Prop where
  /-- An emergency ends with the blade off, or with a request that came since it began. -/
  ends : requested p past = true → inForce past = true → inForce (e :: past) = false →
    Asked p past
  /-- No one drives while the last high-level status says that there is no mode. -/
  assumes : e.drives d = true → inForce past = false → (highLevel past).1 = HL_MODE_NULL →
    (highLevel past).2 = 0

/-! ## What the node remembers -/

structure Promises (s : Node D) (log : List (Entry D)) : Prop where
  host : s.emergency.hostEmergency = hostEmergency log
  board : s.emergency.boardEmergency = boardEmergency log
  llStatus : s.llLastStatus = llStamp log
  cmdVel : s.cmdVelStamp = cmdVelStamp d log
  hlStatus : s.hlStatusStamp = (highLevel log).2
  mode : s.currentMode = (highLevel log).1 ∨
    (s.currentMode = HL_MODE_AUTONOMOUS ∧ (highLevel log).1 = HL_MODE_NULL ∧
      (highLevel log).2 = 0)
  request : s.mowRequested = requested p log
  asked : requested p log = true → inForce log = false → Asked p log
  wanted : s.emergency.hostEmergency = true → s.emergency.releaseHeartbeatsLeft = 0
  left : 0 < s.emergency.releaseHeartbeatsLeft → ∃ n,
    n + s.emergency.releaseHeartbeatsLeft ≤ EmergencyTracker.kReleaseHeartbeats ∧ Released n log

variable {d p} {s t : Node D} {e : Entry D} {past log : List (Entry D)} {n : Nat}

theorem Promises.isEmergency (h : Promises d p s log) : s.emergency.isEmergency = inForce log := by
  unfold EmergencyTracker.isEmergency inForce
  rw [h.host, h.board]

/-! ## Longer histories -/

theorem Released.begin (he : e.isRelease = true) (hn : e.sent.countP Sent.isHeartbeat ≤ n) :
    Released n (e :: log) := by
  refine ⟨[], e, log, rfl, he, by simp, ?_⟩
  unfold heartbeats
  rw [List.nil_append, List.flatMap_singleton]
  exact hn

theorem Released.cons (h : Released n log) (he : e.cancels = false) :
    Released (n + e.sent.countP Sent.isHeartbeat) (e :: log) := by
  obtain ⟨later, a, past, rfl, ha, hlater, hn⟩ := h
  refine ⟨e :: later, a, past, rfl, ha, ?_, ?_⟩
  · intro x hx
    rcases List.mem_cons.mp hx with rfl | hx
    · exact he
    · exact hlater x hx
  · unfold heartbeats at hn ⊢
    rw [List.cons_append, List.flatMap_cons, List.countP_append]
    omega

theorem Released.mono {m : Nat} (h : Released n log) (hnm : n ≤ m) : Released m log := by
  obtain ⟨later, a, past, hlog, ha, hlater, hn⟩ := h
  exact ⟨later, a, past, hlog, ha, hlater, Nat.le_trans hn hnm⟩

theorem inForce_raises (he : e.raises = true) : inForce (e :: past) = true := by
  obtain ⟨ev, before, sent⟩ := e
  cases ev with
  | emergencyStop emergency written => exact (Bool.or_eq_true _ _).mpr (.inl he)
  | llStatus bits stamp => exact (Bool.or_eq_true _ _).mpr (.inr he)
  | _ => cases he

theorem requested_cons (h : requested p (e :: past) = true) :
    e.isOn p = true ∨ requested p past = true := by
  obtain ⟨ev, before, sent⟩ := e
  cases ev with
  | mowerControl on dir => exact .inl h
  | _ => exact .inr h

/-- What was asked for before an entry is still asked for after it, or the emergency it leaves
    was asked away. -/
theorem asked_cons (h : requested p past = true → inForce past = false → Asked p past)
    (hp : Prudent d p e past) (hrequested : requested p (e :: past) = true)
    (hcalm : inForce (e :: past) = false) : Asked p (e :: past) := by
  have hbegins : e.begins = false := by
    unfold Entry.begins
    cases hr : e.raises with
    | true =>
      rw [inForce_raises hr] at hcalm
      cases hcalm
    | false => exact Bool.and_false _
  rcases requested_cons hrequested with hon | hpast
  · exact .inl hon
  · refine .inr ⟨hbegins, ?_⟩
    cases hbefore : inForce past with
    | false => exact h hpast hbefore
    | true => exact hp.ends hpast hbefore hcalm

/-- Fewer slots are left after more heartbeats. -/
theorem Promises.left_cons (h : Promises d p s past) (he : e.cancels = false)
    (hn : e.sent.countP Sent.isHeartbeat = n) (hpos : 0 < s.emergency.releaseHeartbeatsLeft - n) :
    ∃ m, m + (s.emergency.releaseHeartbeatsLeft - n) ≤ EmergencyTracker.kReleaseHeartbeats ∧
      Released m (e :: past) := by
  obtain ⟨m, hm, hreleased⟩ := h.left (by omega)
  exact ⟨m + n, by omega, hn ▸ hreleased.cons he⟩

theorem Promises.left_silent (h : Promises d p s past) (e : Entry D) (he : e.cancels = false)
    (hsent : e.sent = []) (hpos : 0 < s.emergency.releaseHeartbeatsLeft) :
    ∃ m, m + s.emergency.releaseHeartbeatsLeft ≤ EmergencyTracker.kReleaseHeartbeats ∧
      Released m (e :: past) :=
  h.left_cons (n := 0) he (by rw [hsent]; rfl) hpos

/-- A handler that sends nothing. -/
theorem Lawful.silent (h : e.sent = []) : Lawful d p e past where
  wheels motor duty hq := by rw [h] at hq; cases hq
  blade duty hq := by rw [h] at hq; cases hq
  again duty hq := by rw [h] at hq; cases hq
  oneBit release hq := by rw [h] at hq; cases hq
  release request hq := by rw [h] at hq; cases hq

/-! ## One handler -/

/-- An event that no sentence is about. -/
def Event.isQuiet : Event D → Bool
  | .llOpened => true
  | .llClosed => true
  | .llSend _ => true
  | .controlTick _ => true
  | _ => false

theorem Promises.quiet (h : Promises d p s past) (hb : Beats s t n) (hp : Prudent d p e past)
    (he : e.event.isQuiet = true) (hn : e.sent.countP Sent.isHeartbeat = n) :
    Promises d p t (e :: past) := by
  have hsame : hostEmergency (e :: past) = hostEmergency past ∧
      boardEmergency (e :: past) = boardEmergency past ∧ llStamp (e :: past) = llStamp past ∧
      cmdVelStamp d (e :: past) = cmdVelStamp d past ∧ highLevel (e :: past) = highLevel past ∧
      requested p (e :: past) = requested p past ∧ e.cancels = false := by
    obtain ⟨ev, before, sent⟩ := e
    cases ev with
    | llOpened => exact ⟨rfl, rfl, rfl, rfl, rfl, rfl, rfl⟩
    | llClosed => exact ⟨rfl, rfl, rfl, rfl, rfl, rfl, rfl⟩
    | llSend written => exact ⟨rfl, rfl, rfl, rfl, rfl, rfl, rfl⟩
    | controlTick f => exact ⟨rfl, rfl, rfl, rfl, rfl, rfl, rfl⟩
    | _ => cases he
  obtain ⟨hhost, hboard, hll, hcmd, hhl, hrequest, hcancels⟩ := hsame
  exact
    { host := by rw [hb.host, hhost, h.host]
      board := by rw [hb.board, hboard, h.board]
      llStatus := by rw [hb.llStatus, hll, h.llStatus]
      cmdVel := by rw [hb.cmdVel, hcmd, h.cmdVel]
      hlStatus := by rw [hb.hlStatus, hhl, h.hlStatus]
      mode := by rw [hb.mode, hhl]; exact h.mode
      request := by rw [hb.request, hrequest, h.request]
      asked := asked_cons h.asked hp
      wanted := by
        intro hhost'
        rw [hb.host] at hhost'
        rw [hb.left, h.wanted hhost', Nat.zero_sub]
      left := by
        intro hpos
        rw [hb.left] at hpos ⊢
        exact h.left_cons hcancels hn hpos }

section Tick

variable {f : TickFinds D}

/-- An open gate, in the words of the history. -/
theorem Promises.calm (h : Promises d p s past) (hev : e.event = .controlTick f)
    (hbefore : e.before.llOpen = s.llOpen) (hcalm : s.emergency.isEmergency = false)
    (halive : s.lowlevelAlive d p f.llNow = true) : Calm d p e past f := by
  unfold Node.lowlevelAlive at halive
  rw [Bool.and_eq_true, h.llStatus] at halive
  exact ⟨hev, h.isEmergency ▸ hcalm, hbefore ▸ halive.1, halive.2⟩

theorem Promises.wheels (h : Promises d p s past) (hev : e.event = .controlTick f)
    (hbefore : e.before.llOpen = s.llOpen) (hopen : s.wheelsAllowed d p f = true) :
    Calm d p e past f ∧ (highLevel past).1 ≠ HL_MODE_IDLE ∧
      fresh d f.cmdNow (cmdVelStamp d past) p.cmdVelTimeoutS = true := by
  obtain ⟨hcalm, halive, hmode, hcmd⟩ := wheelsMayRun_eq_true.mp hopen
  rw [h.cmdVel] at hcmd
  refine ⟨h.calm hev hbefore hcalm halive, ?_, hcmd⟩
  rcases h.mode with hsame | ⟨-, hnull, -⟩
  · exact hsame ▸ hmode
  · rw [hnull]
    decide

theorem Promises.blade (h : Promises d p s past) (hev : e.event = .controlTick f)
    (hbefore : e.before.llOpen = s.llOpen) (hopen : s.bladeAllowed d p f = true) :
    Calm d p e past f ∧ f.updateMaintenance = false ∧ requested p past = true ∧
      fresh d f.hlNow (highLevel past).2 p.highLevelStatusTimeoutS = true ∧
      ((highLevel past).1 = HL_MODE_AUTONOMOUS ∨ (highLevel past).1 = HL_MODE_MANUAL_MOWING) := by
  obtain ⟨hrequest, -, hcalm, halive, hfresh, hmaintenance, hmode⟩ := bladeMayRun_eq_true.mp hopen
  dsimp only at hrequest hcalm halive hfresh hmaintenance hmode
  rw [h.request] at hrequest
  rw [h.hlStatus] at hfresh
  refine ⟨h.calm hev hbefore hcalm halive, hmaintenance, hrequest, hfresh, ?_⟩
  rcases h.mode with hsame | ⟨-, -, hzero⟩
  · exact hsame ▸ hmode
  · -- The mode was assumed before any status, and none is fresh.
    unfold fresh at hfresh
    rw [hzero] at hfresh
    cases hfresh

theorem Promises.tick (hz : Zeros d) (h : Promises d p s past) (hs : s.sent = [])
    (hev : e.event = .controlTick f) (hbefore : e.before.llOpen = s.llOpen)
    (hsent : e.sent = (s.controlTick d p f).sent) (hp : Prudent d p e past) :
    Promises d p (s.controlTick d p f) (e :: past) ∧ Lawful d p e past := by
  obtain ⟨n, hn, hb⟩ := s.controlTick_beats (d := d) (p := p) (f := f)
  have hcount : e.sent.countP Sent.isHeartbeat = n := by
    rw [hsent, hb.sent, hs]
    exact Nat.zero_add n
  have hcases {q : Sent D} (hq : q ∈ e.sent) := by
    rw [hsent] at hq
    have hcases := s.controlTick_sent hz hq
    rw [hs] at hcases
    exact hcases.resolve_left (List.not_mem_nil)
  have hblade {duty : D} (hq : .duty .mow duty ∈ e.sent) (hduty : d.eq duty (d.lit 0) = false) :
      s.bladeAllowed d p f = true := by
    rcases hcases hq with ⟨motor, duty', heq, hmotor, -⟩ | ⟨duty', heq, hclosed⟩ | heq
    · injection heq with hm hd
      exact absurd hm.symm hmotor
    · injection heq with hm hd
      subst hd
      cases hopen : s.bladeAllowed d p f with
      | true => rfl
      | false =>
        rw [hclosed hopen, hz.zero] at hduty
        cases hduty
    · cases heq
  have hbits {request release : Bool} (hq : .heartbeat request release ∈ e.sent) :
      request = s.emergency.hostEmergency ∧
        release = decide (0 < s.emergency.releaseHeartbeatsLeft) := by
    rcases hcases hq with ⟨motor, duty, heq, -⟩ | ⟨duty, heq, -⟩ | heq
    · cases heq
    · cases heq
    · injection heq with hrequest hrelease
      exact ⟨hrequest, hrelease⟩
  refine ⟨h.quiet hb hp (by rw [hev]; rfl) hcount, ?_⟩
  constructor
  case wheels =>
    intro motor duty hq hmotor hduty
    rcases hcases hq with ⟨motor', duty', heq, -, hclosed⟩ | ⟨duty', heq, -⟩ | heq
    · injection heq with hm hd
      subst hd
      cases hopen : s.wheelsAllowed d p f with
      | true => exact ⟨f, h.wheels hev hbefore hopen⟩
      | false =>
        rw [hclosed hopen] at hduty
        cases hduty
    · injection heq with hm
      exact absurd hm hmotor
    · cases heq
  case blade =>
    intro duty hq hduty
    exact ⟨f, h.blade hev hbefore (hblade hq hduty)⟩
  case again =>
    intro duty hq hduty
    obtain ⟨hcalm, -, hrequested, -⟩ := h.blade hev hbefore (hblade hq hduty)
    exact h.asked hrequested hcalm.calm
  case oneBit =>
    intro release hq
    obtain ⟨hrequest, hrelease⟩ := hbits hq
    rw [hrelease, h.wanted hrequest.symm]
    rfl
  case release =>
    intro request hq
    obtain ⟨-, hrelease⟩ := hbits hq
    have hpos := of_decide_eq_true hrelease.symm
    obtain ⟨m, hm, hreleased⟩ := h.left hpos
    have hcancels : e.cancels = false := by
      unfold Entry.cancels
      rw [hev]
    exact (hreleased.cons hcancels).mono (by omega)

end Tick

theorem Promises.stop (hz : Zeros d) (h : Promises d p s past) (hs : s.sent = [])
    {emergency : UInt8} {written : Bool} (hev : e.event = .emergencyStop emergency written)
    (hsent : e.sent = (s.onEmergencyStop d p emergency written).sent)
    (hp : Prudent d p e past) :
    Promises d p (s.onEmergencyStop d p emergency written) (e :: past) ∧ Lawful d p e past := by
  have hb := s.onEmergencyStop_beats (d := d) (p := p) emergency written
  have hcount : e.sent.countP Sent.isHeartbeat = 1 := by
    rw [hsent, hb.sent]
    dsimp only
    rw [hs]
    rfl
  have hcases {q : Sent D} (hq : q ∈ e.sent) : (∃ motor, q = .duty motor (d.lit 0)) ∨
      q = .heartbeat (emergency != 0) (emergency == 0) := by
    rw [hsent] at hq
    have hcases := s.onEmergencyStop_sent hq
    rw [hs] at hcases
    exact hcases.resolve_left (List.not_mem_nil)
  have hzero {motor : Motor} {duty : D} (hq : .duty motor duty ∈ e.sent) :
      d.eq duty (d.lit 0) = true := by
    rcases hcases hq with ⟨motor', heq⟩ | heq
    · injection heq with hm hd
      rw [hd, hz.zero]
    · cases heq
  have hreleased (hreq : (emergency == 0) = true) : Released 1 (e :: past) := by
    refine Released.begin ?_ (Nat.le_of_eq hcount)
    unfold Entry.isRelease
    rw [hev]
    exact hreq
  have hasked := asked_cons h.asked hp
  refine ⟨?_, ?_⟩
  · obtain ⟨ev, before, sent⟩ := e
    cases hev
    have htracker := hb.left
    have hhost := hb.host
    refine
      { host := ?_
        board := ?_
        llStatus := by rw [hb.llStatus]; exact h.llStatus
        cmdVel := by rw [hb.cmdVel]; exact h.cmdVel
        hlStatus := by rw [hb.hlStatus]; exact h.hlStatus
        mode := by rw [hb.mode]; exact h.mode
        request := by rw [hb.request]; exact h.request
        asked := hasked
        wanted := ?_
        left := ?_ }
    · rw [hhost]
      show _ = (emergency != 0)
      cases emergency != 0 <;> rfl
    · rw [hb.board]
      show _ = boardEmergency past
      rw [← h.board]
      cases emergency != 0 <;> rfl
    · intro hwant
      rw [hhost] at hwant
      rw [htracker]
      revert hwant
      cases emergency != 0 with
      | true => exact fun _ => rfl
      | false => exact fun hwant => nomatch hwant
    · intro hpos
      rw [htracker] at hpos ⊢
      cases hreq : emergency == 0 with
      | true =>
        have hne : (emergency != 0) = false := by simp [bne, hreq]
        rw [hne]
        exact ⟨1, Nat.le_refl 3, hreleased hreq⟩
      | false =>
        have hne : (emergency != 0) = true := by simp [bne, hreq]
        rw [hne] at hpos
        cases hpos
  · constructor
    case wheels =>
      intro motor duty hq _ hduty
      rw [hzero hq] at hduty
      cases hduty
    case blade =>
      intro duty hq hduty
      rw [hzero hq] at hduty
      cases hduty
    case again =>
      intro duty hq hduty
      rw [hzero hq] at hduty
      cases hduty
    case oneBit =>
      intro release hq
      rcases hcases hq with ⟨motor, heq⟩ | heq
      · cases heq
      · injection heq with hrequest hrelease
        rw [hrelease]
        simpa [bne] using hrequest.symm
    case release =>
      intro request hq
      rcases hcases hq with ⟨motor, heq⟩ | heq
      · cases heq
      · injection heq with hrequest hrelease
        exact (hreleased hrelease.symm).mono (by decide)

/-- Any one handler. -/
theorem Promises.step (hz : Zeros d) (h : Promises d p s past) (ev : Event D)
    (hp : Prudent d p (Entry.mark ev s (s.step d p ev)) past) :
    Promises d p (s.step d p ev) (Entry.mark ev s (s.step d p ev) :: past) ∧
      Lawful d p (Entry.mark ev s (s.step d p ev)) past := by
  have h' : Promises d p { s with sent := [] } past :=
    ⟨h.host, h.board, h.llStatus, h.cmdVel, h.hlStatus, h.mode, h.request, h.asked, h.wanted,
      h.left⟩
  have hasked := asked_cons h.asked hp
  cases ev with
  | llStatus bits stamp =>
    refine ⟨⟨h.host, rfl, rfl, h.cmdVel, h.hlStatus, h.mode, h.request, hasked, ?_, ?_⟩,
      .silent rfl⟩
    · intro hwant
      show (if !(bits != 0) || EmergencyTracker.triggerActive bits then 0
        else s.emergency.releaseHeartbeatsLeft) = 0
      rw [h.wanted hwant]
      exact ite_self 0
    · show 0 < (if !(bits != 0) || EmergencyTracker.triggerActive bits then 0
        else s.emergency.releaseHeartbeatsLeft) → ∃ m, m + (if !(bits != 0) ||
          EmergencyTracker.triggerActive bits then 0 else s.emergency.releaseHeartbeatsLeft) ≤ _ ∧ _
      split
      · exact fun hpos => absurd hpos (Nat.lt_irrefl 0)
      · rename_i hlive
        refine h.left_silent (Entry.mark (.llStatus bits stamp) s _) ?_ rfl
        show (bits == 0 || EmergencyTracker.triggerActive bits) = false
        simpa [bne] using hlive
  | llOpened =>
    exact ⟨h'.quiet (by constructor <;> rfl) hp rfl rfl, .silent rfl⟩
  | llClosed =>
    exact ⟨h'.quiet (by constructor <;> rfl) hp rfl rfl, .silent rfl⟩
  | llSend written =>
    exact ⟨h'.quiet (Node.lowlevelSend_beats _ written) hp rfl rfl, .silent rfl⟩
  | cmdVel vx wz stamp written =>
    obtain ⟨hemergency, hll, hsent, hhl, hrequest, hcmd, hmode⟩ :=
      Node.onCmdVel_keeps (d := d) (p := p) { s with sent := [] } vx wz stamp written
    have hsame : (s.step d p (.cmdVel vx wz stamp written)).emergency = s.emergency := hemergency
    have hleft := h.left_silent (Entry.mark (.cmdVel vx wz stamp written) s
      (s.step d p (.cmdVel vx wz stamp written))) rfl hsent
    refine ⟨⟨?_, ?_, hll.trans h.llStatus, ?_, hhl.trans h.hlStatus, ?_, hrequest.trans h.request,
      hasked, ?_, ?_⟩, .silent hsent⟩
    · rw [hsame, h.host]
      rfl
    · rw [hsame, h.board]
      rfl
    · refine hcmd.trans ?_
      show (if _ then stamp else s.cmdVelStamp) = if _ then stamp else cmdVelStamp d past
      rw [h.cmdVel]
    · rcases hmode with hkept | ⟨hauto, hnull, hcalm, hdrives⟩
      · rcases h.mode with hmode | ⟨hassumed, hrest⟩
        · exact .inl (hkept.trans hmode)
        · exact .inr ⟨hkept.trans hassumed, hrest⟩
      · have hstate : (highLevel past).1 = HL_MODE_NULL := by
          rcases h.mode with hmode | ⟨-, hnull, -⟩
          · exact hmode.symm.trans hnull
          · exact hnull
        exact .inr ⟨hauto, hstate, hp.assumes hdrives (h.isEmergency.symm.trans hcalm) hstate⟩
    · intro hwant
      rw [hsame] at hwant ⊢
      exact h.wanted hwant
    · rw [hsame]
      exact hleft
  | highLevelStatus state stamp =>
    exact ⟨⟨h.host, h.board, h.llStatus, h.cmdVel, rfl, .inl rfl, h.request, hasked, h.wanted,
      h.left_silent (Entry.mark _ s _) rfl rfl⟩, .silent rfl⟩
  | mowerControl on dir =>
    exact ⟨⟨h.host, h.board, h.llStatus, h.cmdVel, h.hlStatus, h.mode, rfl, hasked, h.wanted,
      h.left_silent (Entry.mark _ s _) rfl rfl⟩, .silent rfl⟩
  | emergencyStop emergency written => exact h'.stop hz rfl rfl rfl hp
  | controlTick f => exact h'.tick hz rfl rfl rfl rfl hp

/-- The line holds in every run whose handlers are prudent. -/
theorem line_holds (hz : Zeros d) (es : List (Event D))
    (hp : Always (Prudent d p) (history d p es)) : Always (Lawful d p) (history d p es) := by
  have hstart : Promises d p (boot d) [] :=
    ⟨rfl, rfl, rfl, rfl, rfl, .inl rfl, rfl, nofun, fun _ => rfl, nofun⟩
  exact History.run_lawful (fun _ _ ev h hp => h.step hz ev hp) hstart es hp

/-! ## Where it does not -/

instance (log : List (Entry D)) : Decidable (Asked p log) :=
  inferInstanceAs (Decidable (Since _ _ log))

instance (e : Entry D) (past : List (Entry D)) : Decidable (Prudent d p e past) :=
  decidable_of_iff
    ((requested p past = true → inForce past = true → inForce (e :: past) = false →
        Asked p past) ∧
      (e.drives d = true → inForce past = false → (highLevel past).1 = HL_MODE_NULL →
        (highLevel past).2 = 0))
    ⟨fun h => ⟨h.1, h.2⟩, fun h => ⟨h.ends, h.assumes⟩⟩

theorem exactArith_zeros : Zeros exactArith := by
  refine ⟨by decide +kernel, by decide +kernel, ?_, ?_⟩
  · intro x _
    exact decide_eq_true (by show 0 - x * 0 = (0 : ℚ); rw [mul_zero, sub_zero])
  · intro x _
    exact decide_eq_true (by show 0 + x * 0 = (0 : ℚ); rw [mul_zero, add_zero])

def openMower : Params ℚ :=
  { llStatusTimeoutS := 1, cmdVelTimeoutS := 1 / 2, highLevelStatusTimeoutS := 2
    controlRateHz := 50, ticksPerHeartbeat := 5, mowXescEnabled := true
    leftMotorInverted := true, rightMotorInverted := false
    wheelTrack := 1 / 2, maxMps := 1 / 2, maxRadps := 1, minLinearVel := 1 / 20
    linAccelLimit := 1, linDecelLimit := 2, angAccelLimit := 3, angDecelLimit := 6
    wheelGains := { dutyPerMps := 1, kp := 1 / 2, ki := 2, integralLimit := 3 / 10, maxDuty := 1,
                    closedLoop := true }
    bladeDuty := 1, mowingEnabled := true }

/-- A tick at a time, with everything it reads from outside in order. -/
def tickAt (now_ : Int) : Event ℚ :=
  .controlTick
    { steadyNow := now_, drivesOk := true, loopsReset := false, measured := (0, 0), llNow := now_,
      cmdNow := now_, hlNow := now_, updateMaintenance := false, written := true }

/-- The operator mows, someone presses the stop button, and the stop is released. -/
def stopAndRelease : List (Event ℚ) :=
  [.llOpened, .highLevelStatus HL_MODE_AUTONOMOUS 1, .mowerControl 1 1, .llStatus 0 2, tickAt 3,
    .llStatus 3 4, tickAt 5, .emergencyStop 0 true, .llStatus 0 6]

/-- The blade runs again after a stop, on the request from before it. -/
theorem blade_restarts_unasked :
    ¬∀ (d : Arith ℚ) (p : Params ℚ) (es : List (Event ℚ)), Zeros d →
      Always (Lawful d p) (history d p es) := by
  intro h
  have hlast := (h exactArith openMower (stopAndRelease ++ [tickAt 7]) exactArith_zeros).1.again 1
    (by decide +kernel) rfl
  revert hlast
  decide +kernel

/-- A drive while the last high-level status says that there is no mode opens the blade's gate. -/
example : ¬Always (Lawful exactArith openMower) (history exactArith openMower
    [.llOpened, .highLevelStatus HL_MODE_NULL 1, .mowerControl 1 1, .llStatus 0 2,
      .cmdVel (1 / 5) 0 3 true, tickAt 4]) := by
  intro h
  obtain ⟨f, -, -, -, -, hmode⟩ := h.1.blade 1 (by decide +kernel) rfl
  revert hmode
  decide +kernel

/-- Asked for again, it runs again. -/
theorem line_holds_asked : Always (Lawful exactArith openMower) (history exactArith openMower
    (stopAndRelease.insertIdx 8 (.mowerControl 1 1) ++ [tickAt 7])) :=
  line_holds exactArith_zeros _ (by decide +kernel)

end OpenMower
end Mowgli
