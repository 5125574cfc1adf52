import Mowgli.Fleet.Tree
import Mowgli.Lib.Clock

/-!
# Coordinator — who asks for the stop

`stepYield` of `fleet_yield.go`, cut at its two service calls: `stepYield` up to the first of
them, `queried` and `answered` behind one. What a call brings back is a response, or nothing
when the call failed; **a failed call may have been applied, or may still be**.

A time is the nanoseconds since the zero time.
-/

namespace Mowgli
namespace Fleet

abbrev Time := Int

namespace Time

/-- `time.Time.IsZero`. -/
def isZero (t : Time) : Bool := t == 0

/-- `time.Duration(x * float64(time.Second))`. -/
def seconds (x : Float) : Int := (x * 1e9).toInt64.toInt

end Time

structure CoordinatorSettings where
  enabled : Bool
  yieldDistanceM : Float
  resumeDistanceM : Float
  yieldMaxHoldS : Float
  yieldCooldownS : Float

structure XY where
  x : Float
  y : Float

structure FleetMember where
  id : String
  self : Bool
  online : Bool
  autonomous : Bool
  stopHold : Bool
  stateName : String
  pos : Option XY

namespace FleetMember

/-- `fleetMember{}`. -/
def zero : FleetMember :=
  { id := "", self := false, online := false, autonomous := false, stopHold := false,
    stateName := "", pos := none }

end FleetMember

def coordinatorTick : Int := 1000000000
def yieldResumeHold : Int := 3000000000

structure YieldState where
  yielded : Bool
  epoch : String
  requestID : String
  operation : UInt8
  pending : Bool
  /-- A RESUME whose transport failed may have been applied. -/
  mayHaveResumed : Bool
  stopHoldObserved : Bool
  holdSince : Time
  clearSince : Time
  resumedAt : Time
  nextAttempt : Time
  blocked : Bool
  sawInactive : Bool

namespace YieldState

/-- `yieldState{}`. -/
def zero : YieldState :=
  { yielded := false, epoch := "", requestID := "", operation := QUERY, pending := false,
    mayHaveResumed := false, stopHoldObserved := false, holdSince := 0, clearSince := 0,
    resumedAt := 0, nextAttempt := 0, blocked := false, sawInactive := false }

def tuple (st : YieldState) : Identity := { epoch := st.epoch, id := st.requestID }

end YieldState

def yieldEligible (self : FleetMember) : Bool :=
  if !self.online || !self.autonomous then false
  else self.stateName == "MOWING" || self.stateName == "PLANNING" || self.stateName == "TRANSIT"

/-- `math.Min`. -/
def mathMin (x y : Float) : Float := if x.isNaN || y.isNaN then 0 / 0 else min x y

/-- `math.Hypot`. -/
def hypot (x y : Float) : Float := (x * x + y * y).sqrt

def nearestPriorityPeer (self : FleetMember) (peers : List FleetMember) : Float :=
  match self.pos with
  | none => 1 / 0
  | some here =>
    peers.foldl (fun nearest p =>
      match p.pos with
      | some there =>
        if p.online && p.autonomous && p.id < self.id then
          mathMin nearest (hypot (there.x - here.x) (there.y - here.y))
        else nearest
      | none => nearest) (1 / 0)

/-- `resumeDue`, which may also note since when the way is clear. -/
def resumeDue (st : YieldState) (self : FleetMember) (peers : List FleetMember)
    (s : CoordinatorSettings) (now : Time) : Bool × YieldState :=
  if self.pos.isNone then (false, st)
  else if !st.holdSince.isZero && Time.seconds s.yieldMaxHoldS ≤ Clock.sub now st.holdSince then
    (true, st)
  else if nearestPriorityPeer self peers < s.resumeDistanceM then
    (false, { st with clearSince := 0 })
  else
    let st := if st.clearSince.isZero then { st with clearSince := now } else st
    (decide (yieldResumeHold ≤ Clock.sub now st.clearSince), st)

/-- Where a step goes on. -/
inductive Next
  /-- The step is over. -/
  | done (st : YieldState)
  /-- A QUERY was sent. -/
  | query (st : YieldState)
  /-- The state was stored, and its operation sent. -/
  | call (st : YieldState)

/-- The end of `stepYield`, before its call. -/
def attempt (st : YieldState) (now : Time) : Next :=
  if now < st.nextAttempt then .done st
  else .call { st with nextAttempt := now + coordinatorTick }

/-- A yielded step notes the stop hold, and cancels a stop that is no longer wanted. -/
def watch (st : YieldState) (self : FleetMember) (s : CoordinatorSettings) : YieldState :=
  let debouncingStop :=
    !st.stopHoldObserved && self.online && self.autonomous && self.stateName == "IDLE"
  let st := if self.stopHold then { st with stopHoldObserved := true } else st
  if !s.enabled || (!self.stopHold && !yieldEligible self && !debouncingStop) then
    { st with operation := CANCEL, pending := true }
  else st

/-- A new event lifts the block of a terminal result. -/
def unblock (st : YieldState) : YieldState :=
  if st.blocked then { st with blocked := false, sawInactive := false } else st

/-- `stepYield`, up to its first call. -/
def stepYield (st : YieldState) (self : FleetMember) (peers : List FleetMember)
    (s : CoordinatorSettings) (now : Time) : Next :=
  if st.yielded then
    let st := watch st self s
    if st.operation ≠ CANCEL ∧ ¬(st.pending = true ∧ st.operation = PAUSE) then
      let due := resumeDue st self peers s now
      if !due.1 then .done due.2
      else attempt { due.2 with operation := RESUME, pending := true } now
    else attempt st now
  else if !s.enabled then .done st
  else
    let eligible := yieldEligible self
    let nearest := nearestPriorityPeer self peers
    let inactive := self.online && self.stateName != "" && !eligible
    let sawInactive := st.sawInactive || (st.blocked && inactive)
    let released := (eligible && sawInactive) || (self.pos.isSome && s.resumeDistanceM ≤ nearest)
    if st.blocked && !released then .done { st with sawInactive := sawInactive }
    else
      let st := unblock st
      if !eligible || self.pos.isNone || s.yieldDistanceM ≤ nearest ||
          (!st.resumedAt.isZero && Clock.sub now st.resumedAt < Time.seconds s.yieldCooldownS) then
        .done st
      else .query st

/-- Behind the QUERY. A fresh tuple is paused at once. -/
def queried (st : YieldState) (now : Time) (uuid : String) (res : Option Response) : Next :=
  match res with
  | none => .done st
  | some res =>
    if res.result ≠ .AVAILABLE ∨ res.held = true ∨ res.epoch = "" then
      .done { st with blocked := true }
    else
      attempt { YieldState.zero with
        yielded := true, epoch := res.epoch, requestID := uuid, operation := PAUSE,
        pending := true, holdSince := now, resumedAt := st.resumedAt } now

/-- Behind the call of the state's operation. -/
def answered (st : YieldState) (now : Time) (res : Option Response) : YieldState :=
  match res with
  | none => if st.operation = RESUME then { st with mayHaveResumed := true } else st
  | some res =>
    if st.operation = PAUSE ∧ res.result = .HELD then { st with pending := false }
    else if st.operation = RESUME ∧ (res.result = .RESUMED ∨ res.result = .ALREADY_RESUMED) then
      { YieldState.zero with resumedAt := now }
    else if st.operation = RESUME ∧ res.result = .NOT_READY then
      { st with mayHaveResumed := false }
    else
      { YieldState.zero with
        resumedAt := if st.mayHaveResumed then now else st.resumedAt, blocked := true }

/-- `splitMembers`. The last row of this robot counts. -/
def splitMembers (members : List FleetMember) : FleetMember × List FleetMember :=
  (((members.filter (·.self)).getLast?).getD .zero,
    members.filter fun m => !m.self && m.online)

/-- The call of `stepYield` in `tick`, if there is one. The snapshot of the fleet can fail. -/
def tick (st : YieldState) (s : CoordinatorSettings) (rows : Option (List FleetMember))
    (now : Time) : Option Next :=
  if !s.enabled then some (stepYield st .zero [] s now)
  else
    match rows with
    | none =>
      if st.yielded && st.operation == CANCEL then some (stepYield st .zero [] s now) else none
    | some members => some (stepYield st (splitMembers members).1 (splitMembers members).2 s now)

end Fleet
end Mowgli
