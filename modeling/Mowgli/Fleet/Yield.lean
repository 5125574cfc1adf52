import Mathlib.Data.Option.Basic
import Mathlib.Tactic.SplitIfs
import Mathlib.Tactic.ByContra

/-!
# Yield — who owns the stop

`FleetYieldState` of `fleet_yield.hpp`: one tuple of an epoch and a request id may own a
fleet stop, and one completed tuple is remembered. Motion restarts only under the epoch the
stop was taken in, so **whatever intervenes draws a new epoch**.

`freshEpoch` reads the entropy source. Its answers are a sequence `draw` here, and the state
counts how many were drawn.

`apply` is the long function, and `Applied` is its inversion: everything a request can do.
-/

namespace Mowgli
namespace Fleet

def QUERY : UInt8 := 0
def PAUSE : UInt8 := 1
def RESUME : UInt8 := 2
def CANCEL : UInt8 := 3

inductive Result
  | AVAILABLE
  | HELD
  | RESUMED
  | ALREADY_RESUMED
  | CANCELLED
  | NOT_READY
  | INELIGIBLE
  | BUSY
  | REVOKED
  | INVALID
deriving DecidableEq

structure Identity where
  epoch : String
  id : String
deriving DecidableEq

/-- `apply` takes no such request but a QUERY. -/
def Identity.Malformed (t : Identity) : Prop :=
  t.epoch.utf8ByteSize = 0 ∨ t.epoch.utf8ByteSize > 128 ∨ t.id.utf8ByteSize = 0 ∨
    t.id.utf8ByteSize > 128

instance (t : Identity) : Decidable t.Malformed := inferInstanceAs (Decidable (_ ∨ _))

structure FleetYieldState where
  epoch : String
  owner : Option Identity
  completed : Option Identity
  ready : Bool
  blocked : Bool
  statusEligible : Bool
  /-- How many epochs were drawn so far. -/
  drawn : Nat
deriving DecidableEq

def autonomous (state : UInt8) (name : String) : Bool :=
  state == 2 && (name == "MOWING" || name == "PLANNING" || name == "TRANSIT")

/-- The status of the stop hold: the mower stands. -/
def stopHold (state : UInt8) (name : String) : Bool := state == 1 && name == "IDLE"

/-- `PublishHighLevelStatus` debounces IDLE for two ticks, under the number of the state
    before. -/
def debouncedIdle (state : UInt8) (name : String) : Bool := state == 2 && name == "IDLE"

namespace FleetYieldState

def held (s : FleetYieldState) : Bool := s.owner.isSome

variable (draw : Nat → String)

/-- A new state draws its first epoch. -/
def new : FleetYieldState :=
  { epoch := draw 0, owner := none, completed := none, ready := false, blocked := false,
    statusEligible := false, drawn := 1 }

def freshEpoch (s : FleetYieldState) : FleetYieldState :=
  { s with epoch := draw s.drawn, drawn := s.drawn + 1 }

def revoke (s : FleetYieldState) : FleetYieldState :=
  freshEpoch draw { s with owner := none, completed := none, ready := false }

def observeInterlock (blocked : Bool) (s : FleetYieldState) : FleetYieldState :=
  if blocked != s.blocked then revoke draw { s with blocked := blocked } else s

def safetyHold (s : FleetYieldState) : FleetYieldState :=
  if s.owner.isSome || s.completed.isSome || s.statusEligible then
    { revoke draw s with statusEligible := false }
  else { s with statusEligible := false }

/-- The end of `observeStatus`, on the way of a status that is no answer to the owner. -/
def observeEligible (eligible : Bool) (s : FleetYieldState) : FleetYieldState :=
  if eligible != s.statusEligible then
    if !eligible then { revoke draw s with statusEligible := eligible }
    else { freshEpoch draw s with statusEligible := eligible }
  else s

def observeStatus (state : UInt8) (name : String) (s : FleetYieldState) : FleetYieldState :=
  let eligible := autonomous state name
  if s.owner.isSome then
    if stopHold state name then { s with ready := true, statusEligible := false }
    else if !s.ready && (eligible || debouncedIdle state name) then s
    else observeEligible draw eligible (revoke draw s)
  else observeEligible draw eligible s

/-- `apply`: the result, the command and the state it leaves. -/
def apply (operation : UInt8) (t : Identity) (command : UInt8) (s : FleetYieldState) :
    Result × UInt8 × FleetYieldState :=
  if operation = RESUME ∧ s.completed = some t then (.ALREADY_RESUMED, command, s)
  else if operation > CANCEL then (.INVALID, command, s)
  else if operation = QUERY then (.AVAILABLE, command, s)
  else if t.Malformed then (.INVALID, command, s)
  else if s.blocked then (.INELIGIBLE, command, s)
  else if t.epoch ≠ s.epoch then (.REVOKED, command, s)
  else if s.owner.isSome ∧ s.owner ≠ some t then (.BUSY, command, s)
  else if operation = CANCEL then (.CANCELLED, command, revoke draw s)
  else if operation = PAUSE then
    if s.owner.isSome then
      if command = 8 then (.HELD, command, s) else (.REVOKED, command, revoke draw s)
    else if command ≠ 1 ∨ s.statusEligible = false then (.INELIGIBLE, command, s)
    else (.HELD, 8, { s with owner := some t, ready := false })
  else if s.owner = none then (.REVOKED, command, s)
  else if command ≠ 8 then (.REVOKED, command, revoke draw s)
  else if s.ready = false then (.NOT_READY, command, s)
  else (.RESUMED, 1, freshEpoch draw { s with completed := s.owner, owner := none, ready := false })

/-! ## What a request can do -/

/-- The reasons to leave everything as it is, each with its result. -/
inductive Refusal (operation : UInt8) (t : Identity) (command : UInt8) (s : FleetYieldState) :
    Result → Prop
  | replayed : operation = RESUME → s.completed = some t →
      Refusal operation t command s .ALREADY_RESUMED
  | queried : operation = QUERY → Refusal operation t command s .AVAILABLE
  | invalid : operation > CANCEL ∨ t.Malformed → Refusal operation t command s .INVALID
  | blocked : s.blocked = true → Refusal operation t command s .INELIGIBLE
  | stale : t.epoch ≠ s.epoch → Refusal operation t command s .REVOKED
  | busy : s.owner.isSome → s.owner ≠ some t → Refusal operation t command s .BUSY
  | heldAlready : operation = PAUSE → s.owner = some t → command = 8 →
      Refusal operation t command s .HELD
  | notMowing : operation = PAUSE → s.owner = none → command ≠ 1 ∨ s.statusEligible = false →
      Refusal operation t command s .INELIGIBLE
  | notOwned : operation = RESUME → t.epoch = s.epoch → s.owner = none →
      Refusal operation t command s .REVOKED
  | notReady : operation = RESUME → s.owner = some t → s.ready = false →
      Refusal operation t command s .NOT_READY

/-- Everything `apply` can do. -/
inductive Applied (operation : UInt8) (t : Identity) (command : UInt8) (s : FleetYieldState) :
    Result × UInt8 × FleetYieldState → Prop
  | refused {r : Result} : Refusal operation t command s r →
      Applied operation t command s (r, command, s)
  | cancelled : operation = CANCEL → t.epoch = s.epoch →
      Applied operation t command s (.CANCELLED, command, revoke draw s)
  | lost : s.owner = some t → t.epoch = s.epoch → command ≠ 8 →
      Applied operation t command s (.REVOKED, command, revoke draw s)
  | paused : operation = PAUSE → ¬t.Malformed → s.blocked = false → t.epoch = s.epoch →
      s.owner = none → command = 1 → s.statusEligible = true →
      Applied operation t command s (.HELD, 8, { s with owner := some t, ready := false })
  | resumed : operation = RESUME → s.blocked = false → t.epoch = s.epoch → s.owner = some t →
      command = 8 → s.ready = true →
      Applied operation t command s
        (.RESUMED, 1, freshEpoch draw { s with completed := some t, owner := none, ready := false })

theorem eq_resume {operation : UInt8} (hcancel : ¬operation > CANCEL) (hquery : operation ≠ QUERY)
    (hnot : operation ≠ CANCEL) (hpause : operation ≠ PAUSE) : operation = RESUME := by
  have hle : operation.toNat ≤ 3 := by
    rw [← UInt8.toNat_ofNat_of_lt (n := 3) (by decide)]
    exact UInt8.not_lt.1 hcancel
  have ne (n : UInt8) (h : operation ≠ n) : operation.toNat ≠ n.toNat :=
    fun he => h (UInt8.toNat_inj.1 he)
  have hquery : operation.toNat ≠ 0 := ne QUERY hquery
  have hnot : operation.toNat ≠ 3 := ne CANCEL hnot
  have hpause : operation.toNat ≠ 1 := ne PAUSE hpause
  have htwo : operation.toNat = 2 := by omega
  exact UInt8.toNat_inj.1 htwo

theorem apply_applied (operation : UInt8) (t : Identity) (command : UInt8) (s : FleetYieldState) :
    Applied draw operation t command s (apply draw operation t command s) := by
  unfold apply
  by_cases hreplay : operation = RESUME ∧ s.completed = some t
  · rw [if_pos hreplay]
    exact .refused (.replayed hreplay.1 hreplay.2)
  by_cases hcancel : operation > CANCEL
  · rw [if_neg hreplay, if_pos hcancel]
    exact .refused (.invalid (.inl hcancel))
  by_cases hquery : operation = QUERY
  · rw [if_neg hreplay, if_neg hcancel, if_pos hquery]
    exact .refused (.queried hquery)
  rw [if_neg hreplay, if_neg hcancel, if_neg hquery]
  by_cases hmalformed : t.Malformed
  · rw [if_pos hmalformed]
    exact .refused (.invalid (.inr hmalformed))
  rw [if_neg hmalformed]
  by_cases hblocked : s.blocked = true
  · rw [if_pos hblocked]
    exact .refused (.blocked hblocked)
  rw [if_neg hblocked]
  have hblocked : s.blocked = false := eq_false_of_ne_true hblocked
  by_cases hepoch : t.epoch = s.epoch
  swap
  · rw [if_pos hepoch]
    exact .refused (.stale hepoch)
  rw [if_neg (not_not.2 hepoch)]
  by_cases hbusy : s.owner.isSome ∧ s.owner ≠ some t
  · rw [if_pos hbusy]
    exact .refused (.busy hbusy.1 hbusy.2)
  rw [if_neg hbusy]
  by_cases hcan : operation = CANCEL
  · rw [if_pos hcan]
    exact .cancelled hcan hepoch
  rw [if_neg hcan]
  rcases ho : s.owner with _ | o
  · -- nobody owns the stop
    simp only [Option.isSome_none, Bool.false_eq_true, if_false, if_true]
    by_cases hpause : operation = PAUSE
    · rw [if_pos hpause]
      by_cases hmow : command ≠ 1 ∨ s.statusEligible = false
      · rw [if_pos hmow]
        exact .refused (.notMowing hpause ho hmow)
      · rw [if_neg hmow]
        rw [not_or, not_not, Bool.not_eq_false] at hmow
        exact .paused hpause hmalformed hblocked hepoch ho hmow.1 hmow.2
    · rw [if_neg hpause]
      exact .refused (.notOwned (eq_resume hcancel hquery hcan hpause) hepoch ho)
  · -- `t` does
    have howner : s.owner = some t := by
      by_contra hne
      exact hbusy ⟨by rw [ho]; rfl, hne⟩
    simp only [Option.isSome_some, if_true, reduceCtorEq, if_false]
    by_cases hpause : operation = PAUSE
    · rw [if_pos hpause]
      by_cases hheld : command = 8
      · rw [if_pos hheld]
        exact .refused (.heldAlready hpause howner hheld)
      · rw [if_neg hheld]
        exact .lost howner hepoch hheld
    · rw [if_neg hpause]
      have hresume : operation = RESUME := eq_resume hcancel hquery hcan hpause
      by_cases hstop : command = 8
      swap
      · rw [if_pos hstop]
        exact .lost howner hepoch hstop
      rw [if_neg (not_not.2 hstop)]
      by_cases hready : s.ready = false
      · rw [if_pos hready]
        exact .refused (.notReady hresume howner hready)
      · rw [if_neg hready, ho.symm.trans howner]
        exact .resumed hresume hblocked hepoch howner hstop (eq_true_of_ne_false hready)

end FleetYieldState
end Fleet
end Mowgli
