import Mowgli.Foxglove.CallSteps

/-!
# Answers — every service call gets its own answer, once

What a call is given was told for its id, or is the failure of a lost connection. While a call
waits with an empty channel, the connection it was written on is the present one, so what its
pump hears later was heard there. **A response heard before the request is written may be of an
earlier connection**: nothing ties a call to a connection but the cleanup.
-/

namespace Mowgli
namespace Foxglove
namespace Calls

open Trace

variable {a : Api} {s s' : ServiceClient a} {past : List (Entry a)}

/-! ## What can be said of a run -/

/-- The pump of a connection receives a response that bears the id. -/
def Heard (k : Nat) (id : UInt32) (data : List UInt8) (e : Entry a) : Prop :=
  ∃ i frame, e.event = .pump i (.binary frame) ∧ e.before.pumps[i]? = some (.reading k) ∧
    dispatchBinary frame = some (id, data)

/-- A response, or a `serviceCallFailure`. -/
def Told (k : Nat) (id : UInt32) : Result → Entry a → Prop
  | .success data, e => Heard k id data e
  | .failure message, e =>
    ∃ i, e.event = .pump i (.text (.serviceCallFailure id message)) ∧
      e.before.pumps[i]? = some (.reading k)

def Registers (n k : Nat) (e : Entry a) : Prop :=
  ∃ svc cdrData id, e.before.phases[n]? = some (.numbered svc cdrData id) ∧
    e.after.phases[n]? = some (.registered svc cdrData id) ∧ e.before.conn = some k

/-- The request of a call is written on a connection. -/
def Wrote (n k : Nat) (e : Entry a) : Prop :=
  ∃ svc cdrData id, e.before.phases[n]? = some (.registered svc cdrData id) ∧
    e.after.phases[n]? = some (.waiting svc id) ∧ e.before.conn = some k

/-- A call reads from its channel. -/
def Takes (n : Nat) (r : Result) (e : Entry a) : Prop :=
  e.event = .call n .take ∧
    ∃ c svc id, e.before.calls[n]? = some c ∧ c.phase = .waiting svc id ∧ c.respCh = some r

def Returns (n : Nat) (out : Except String a.Json) (e : Entry a) : Prop :=
  (∀ id out', e.before.phases[n]? ≠ some (.returned id out')) ∧
    ∃ id, e.after.phases[n]? = some (.returned id out)

/-- The cleanup of a connection fails a call. -/
def Fails (k n : Nat) (e : Entry a) : Prop :=
  ∃ i left, e.event = .pump i (.fail n) ∧ e.before.pumps[i]? = some (.failing k left) ∧
    left.contains n = true

/-- The call is registered while the pump of a lost connection takes its locks. -/
def Caught (k n : Nat) (e : Entry a) : Prop :=
  (∃ i left, e.event = .pump i .lose ∧ e.after.pumps[i]? = some (.failing k left)) ∧
    ∃ phase id, e.before.phases[n]? = some phase ∧ phase.pendingID = some id

def Ever (p : Entry a → Prop) (past : List (Entry a)) : Prop := Once (fun e _ => p e) past

/-- What a call is given: its own answer, or the failure of a lost connection. -/
def Own (n : Nat) (id : UInt32) (r : Result) (past : List (Entry a)) : Prop :=
  (∃ k, Ever (Told k id r) past) ∨ (r = .failure lostReason ∧ ∃ k, Ever (Fails k n) past)

/-- A response with the id, heard on the connection of the request or before it was written. -/
def Paired (n j : Nat) (id : UInt32) (data : List UInt8) (past : List (Entry a)) : Prop :=
  ∃ k, Ever (Heard k id data) past ∧
    (k = j ∨ Once (fun e before => Wrote n j e ∧ Ever (Heard k id data) before) past)

/-- Not yet returned, nor about to. -/
def Phase.IsOpen (phase : Phase a) (id : UInt32) : Prop :=
  (∃ svc cdrData, phase = .registered svc cdrData id) ∨ ∃ svc, phase = .waiting svc id

structure Answered (e : Entry a) (past : List (Entry a)) : Prop where
  paired : ∀ n value, Returns n (.ok value) e → ∃ id data service svc j,
    e.after.phases[n]? = some (.returned (some id) (.ok value)) ∧ Ever (Wrote n j) past ∧
      Paired n j id data past ∧
      ServiceClient.outcome service svc (.success data) = .ok value
  once : ∀ n out, Returns n out e → ¬ Ever (fun r => ∃ out', Returns n out' r) past
  own : ∀ n r, Takes n r e → ∃ phase id, e.before.phases[n]? = some phase ∧
    phase.callID = some id ∧ Own n id r past ∧
      ∀ m phase', e.before.phases[m]? = some phase' → phase'.callID = some id → m = n
  failed : ∀ k, e.before.conn = some k → e.before.connected = true → e.after.connected = false →
    ∀ n c id, e.before.calls[n]? = some c → c.phase.IsOpen id →
      Ever (Wrote n k) past ∨ Ever (Caught k n) past → ∃ r, c.respCh = some r ∧ Own n id r past
  spared : ∀ k n, Fails k n e → ∀ m, Ever (Registers n m) past → m ≤ k

/-! ## The invariant -/

/-- Before the registration. -/
def Phase.early : Phase a → Bool
  | .entered => true
  | .ready _ _ => true
  | .numbered _ _ _ => true
  | _ => false

/-- Of a pump, what it has in hand. -/
def Routed (s : ServiceClient a) (past : List (Entry a)) : Pump → Prop
  | .routing k id r => Ever (Told k id r) past
  | .answering k n r => ∃ phase id, s.phases[n]? = some phase ∧ phase.callID = some id ∧
      Ever (Told k id r) past
  | .failing _ left => ∀ n ∈ left, ∃ phase id, s.phases[n]? = some phase ∧ phase.callID = some id
  | _ => True

/-- Of a call that waits, where its request went. -/
structure Sent (s : ServiceClient a) (past : List (Entry a)) (n : Nat) (c : Call a) (id : UInt32)
    (j : Nat) : Prop where
  wrote : Ever (Wrote n j) past
  only : ∀ j', Ever (Wrote n j') past → j' = j
  empty : c.respCh = none → s.conn = some j ∧ ∀ k, Pump.closing k ∉ s.pumps
  full : ∀ data, c.respCh = some (.success data) → Paired n j id data past

structure Inv (s : ServiceClient a) (past : List (Entry a)) : Prop where
  linked : Linked s
  numbers : Numbers s
  listed : Listed s
  given : ∀ n c r, s.calls[n]? = some c → c.respCh = some r →
    ∃ id, c.phase.callID = some id ∧ Own n id r past
  routed : ∀ p ∈ s.pumps, Routed s past p
  /-- A call that is not registered was never. -/
  early : ∀ n, (∀ phase, s.phases[n]? = some phase → phase.early = true) →
    ∀ k, ¬ Ever (Caught k n) past ∧ ¬ Ever (Wrote n k) past
  unsent : ∀ n svc cdrData id, s.phases[n]? = some (.registered svc cdrData id) →
    ∀ j, ¬ Ever (Wrote n j) past
  sent : ∀ n c svc id, s.calls[n]? = some c → c.phase = .waiting svc id →
    ∃ j, Sent s past n c id j
  leaving : ∀ n c id value, s.calls[n]? = some c → c.phase = .leaving id (.ok value) →
    ∃ data service svc j, Ever (Wrote n j) past ∧ Paired n j id data past ∧
      ServiceClient.outcome service svc (.success data) = .ok value
  swept : ∀ k left, Pump.failing k left ∈ s.pumps → ∀ n c id, s.calls[n]? = some c →
    c.phase.IsOpen id → c.respCh = none → n ∈ left
  closed : ∀ k, Pump.closing k ∈ s.pumps → ∀ n c id, s.calls[n]? = some c →
    c.phase.IsOpen id → c.respCh = none → ¬ Ever (Caught k n) past
  done : ∀ n, Ever (fun e => ∃ out, Returns n out e) past →
    ∃ id out, s.phases[n]? = some (.returned id out)
  dated : ∀ n m, Ever (Registers n m) past → m < s.dialed

/-! ## What stays -/

variable {e : Entry a} {r : Result} {k : Nat}

theorem Ever.later {p : Entry a → Prop} (h : Ever p past) : Ever p (e :: past) :=
  Or.inr h

variable {id : UInt32} {n : Nat} {c : Call a} {svc : ServiceDef}

theorem Own.later (h : Own n id r past) : Own n id r (e :: past) := by
  rcases h with ⟨k, h⟩ | ⟨hr, k, h⟩
  · exact .inl ⟨k, h.later⟩
  · exact .inr ⟨hr, k, h.later⟩

theorem Paired.later {j : Nat} {data : List UInt8} (h : Paired n j id data past) :
    Paired n j id data (e :: past) := by
  obtain ⟨k, hheard, hwhere⟩ := h
  refine ⟨k, hheard.later, ?_⟩
  rcases hwhere with hk | hbefore
  · exact .inl hk
  · exact .inr (Or.inr hbefore)

section Step

variable {e : Event a} (hs : Step s e s') {n : Nat} {phase : Phase a}

include hs

/-- The phase of a call goes on as `Move` says. -/
theorem Step.phase_next (h : s.phases[n]? = some phase) :
    s'.phases[n]? = some phase ∨ ∃ c e' phase' respCh pending counter, c.phase = phase ∧
      Move s n c e' phase' respCh pending counter ∧ s'.phases[n]? = some phase' := by
  have hlt : n < s.phases.length := (List.getElem?_eq_some_iff.1 h).1
  cases hs.rephased with
  | same hphases _ _ =>
    rw [hphases]
    exact .inl h
  | entered _ _ hphases _ _ =>
    rw [hphases, List.getElem?_append_left hlt]
    exact .inl h
  | @moved m c e' phase' respCh _ hget hmove hphases =>
    rw [hphases]
    by_cases hm : m = n
    · subst hm
      rw [phases_get.2 ⟨c, hget, rfl⟩] at h
      exact .inr ⟨c, e', phase', respCh, _, _, Option.some.inj h, hmove,
        List.getElem?_set_self hlt⟩
    · rw [List.getElem?_set_ne hm]
      exact .inl h

theorem Step.early_back (h : ∀ phase, s'.phases[n]? = some phase → phase.early = true) :
    ∀ phase, s.phases[n]? = some phase → phase.early = true := by
  intro phase hget
  rcases hs.phase_next hget with hsame | ⟨c, e', phase', _, _, _, hc, hmove, hnext⟩
  · exact h phase hsame
  · have hearly := h phase' hnext
    rw [← hc]
    cases hmove with
    | prepared hphase =>
      rw [hphase]
      rfl
    | number hphase =>
      rw [hphase]
      rfl
    | _ => cases hearly

theorem Step.returned_stays {id : Option UInt32} {out : Except String a.Json}
    (h : s.phases[n]? = some (.returned id out)) : s'.phases[n]? = some (.returned id out) := by
  rcases hs.phase_next h with hsame | ⟨c, e', phase', _, _, _, hc, hmove, -⟩
  · exact hsame
  · -- no move starts at a return
    cases hmove with
    | prepared hphase =>
      rw [hphase] at hc
      cases hc
    | refused hphase =>
      rw [hphase] at hc
      cases hc
    | number hphase =>
      rw [hphase] at hc
      cases hc
    | register hphase _ =>
      rw [hphase] at hc
      cases hc
    | unsent hphase =>
      rw [hphase] at hc
      cases hc
    | sent hphase _ _ =>
      rw [hphase] at hc
      cases hc
    | expire hphase =>
      rw [hphase] at hc
      cases hc
    | take hphase _ =>
      rw [hphase] at hc
      cases hc
    | leave hphase _ =>
      rw [hphase] at hc
      cases hc

theorem Step.callID_stays (h : s.phases[n]? = some phase) (hid : phase.callID = some id) :
    ∃ phase', s'.phases[n]? = some phase' ∧ phase'.callID = some id := by
  rcases hs.phase_next h with hsame | ⟨c, e', phase', _, _, _, hc, hmove, hnext⟩
  · exact ⟨phase, hsame, hid⟩
  · refine ⟨phase', hnext, ?_⟩
    rcases hmove.callID with ⟨hkeeps, -⟩ | ⟨hnone, -, -⟩
    · rw [hkeeps, hc]
      exact hid
    · rw [hc, hid] at hnone
      cases hnone

/-- Connections are only added. -/
theorem Step.dialed_le : s.dialed ≤ s'.dialed := by
  cases hs with
  | install _ => exact Nat.le_succ _
  | offer _ _ =>
    next m _ _ _ r _ _ =>
    obtain ⟨calls, hcalls⟩ := offer_eq (s := s) m r
    rw [hcalls]
    exact Nat.le_refl _
  | _ => exact Nat.le_refl _

end Step

/-! ## What one step keeps -/

theorem Linked.of_mem (h : Linked s) {p : Pump} (hp : p ∈ s.pumps) :
    s.pumps = [p] ∧ ∃ k, Up s k ∧ p.On k := by
  obtain ⟨i, hi⟩ := List.mem_iff_getElem?.1 hp
  obtain ⟨-, -, -, hpumps, hup⟩ := h.alive hi
  exact ⟨hpumps, hup⟩

theorem Linked.last (h : Linked s) (hconn : s.conn = some k) : k + 1 = s.dialed := by
  have hup : ∀ j, Up s j → k + 1 = s.dialed := by
    intro j hup
    rw [hup.1] at hconn
    rw [← Option.some.inj hconn]
    exact hup.2
  have hdown : ¬ Down s := by
    intro hdown
    rw [hdown.1] at hconn
    cases hconn
  unfold Linked at h
  split at h
  · exact absurd h hdown
  · rcases h with h | ⟨j, p, h, -⟩
    · exact absurd h hdown
    · exact hup j h
  · exact absurd h hdown
  · obtain ⟨j, h, -⟩ := h
    exact hup j h
  · obtain ⟨j, h, -⟩ := h
    exact hup j h
  · obtain ⟨j, h, -⟩ := h
    exact hup j h

theorem Phase.IsOpen.pendingID {phase : Phase a} (h : phase.IsOpen id) :
    phase.pendingID = some id := by
  rcases h with ⟨svc, cdrData, rfl⟩ | ⟨svc, rfl⟩
  · rfl
  · rfl

theorem not_open {phase : Phase a}
    (h : phase = .entered ∨ ∃ err, phase = .returned none (.error err)) : ¬ phase.IsOpen id := by
  rcases h with rfl | ⟨err, rfl⟩
  · rintro (⟨svc, cdrData, hopen⟩ | ⟨svc, hopen⟩)
    · cases hopen
    · cases hopen
  · rintro (⟨svc, cdrData, hopen⟩ | ⟨svc, hopen⟩)
    · cases hopen
    · cases hopen

section Moves

variable {n : Nat} {c : Call a} {e : CallEvent} {phase : Phase a} {respCh : Option Result}
  {pending : AList fun _ : UInt32 => Nat} {counter : UInt32}
  (hmove : Move s n c e phase respCh pending counter)

include hmove

/-- A call puts nothing in its own channel. -/
theorem Move.respCh_of (h : respCh = some r) : c.respCh = some r := by
  cases hmove with
  | take _ _ => cases h
  | _ => exact h

/-- A call is open after its registration, with the mutex free, or after its write. -/
theorem Move.open_cases (h : phase.IsOpen id) :
    respCh = c.respCh ∧
      ((∃ svc cdrData, c.phase = .numbered svc cdrData id ∧ s.svcMuHeld = false) ∨
        ∃ svc cdrData, c.phase = .registered svc cdrData id) := by
  rcases h with ⟨svc, cdrData, rfl⟩ | ⟨svc, rfl⟩
  · cases hmove with
    | register hphase hfree => exact ⟨rfl, .inl ⟨svc, cdrData, hphase, hfree⟩⟩
  · cases hmove with
    | @sent _ cdrData _ _ hphase _ _ => exact ⟨rfl, .inr ⟨svc, cdrData, hphase⟩⟩

end Moves

/-- A step that finds a call waiting writes nothing for it. -/
theorem not_wrote {e : Event a} (hget : s.calls[n]? = some c) (hphase : c.phase = .waiting svc id)
    (j : Nat) : ¬ Wrote n j (Entry.mark e s s') := by
  rintro ⟨svc', cdrData, id', hbefore, -⟩
  rw [show (Entry.mark e s s').before.phases[n]? = _ from
    phases_get.2 ⟨c, hget, hphase⟩] at hbefore
  cases hbefore

/-- `CallService` leaves connection and pumps alone. -/
theorem Step.call_link {e : CallEvent} (hs : Step s (.call n e) s') :
    s'.conn = s.conn ∧ s'.pumps = s.pumps := by
  cases hs with
  | idle => exact ⟨rfl, rfl⟩
  | call _ _ => exact ⟨rfl, rfl⟩

section Keeps

variable {e : Event a} (h : Inv s past) (hs : Step s e s')

include h hs

theorem Inv.given_step (hget : s'.calls[n]? = some c) (hr : c.respCh = some r) :
    ∃ id, c.phase.callID = some id ∧ Own n id r (Entry.mark e s s' :: past) := by
  cases hs.became hget with
  | entered _ hempty _ =>
    rw [hempty] at hr
    cases hr
  | @moved e' c₀ pending counter hold hmove =>
    obtain ⟨id, hid, hown⟩ := h.given n c₀ r hold (hmove.respCh_of hr)
    rcases hmove.callID with ⟨hkeeps, -⟩ | ⟨hnone, -, -⟩
    · exact ⟨id, by rw [hkeeps, hid], hown.later⟩
    · rw [hid] at hnone
      cases hnone
  | kept hold =>
    obtain ⟨id, hid, hown⟩ := h.given n c r hold hr
    exact ⟨id, hid, hown.later⟩
  | @offered i e' p p' c₀ r' hold hp hoffer _ hphase hr' =>
    rw [hr'] at hr
    cases hr
    have hrouted := h.routed p (List.mem_of_getElem? hp)
    cases hoffer with
    | @answer k =>
      obtain ⟨phase, id, hget', hid, htold⟩ := hrouted
      rw [phases_get.2 ⟨c₀, hold, rfl⟩] at hget'
      cases hget'
      exact ⟨id, by rw [hphase, hid], .inl ⟨k, htold.later⟩⟩
    | @fail k _ left hleft =>
      obtain ⟨phase, id, hget', hid⟩ := hrouted n (List.contains_iff_mem.1 hleft)
      rw [phases_get.2 ⟨c₀, hold, rfl⟩] at hget'
      cases hget'
      exact ⟨id, by rw [hphase, hid], .inr ⟨rfl, k, .inl ⟨i, left, rfl, hp, hleft⟩⟩⟩

theorem Inv.routed_step {p : Pump} (hp : p ∈ s'.pumps) :
    Routed s' (Entry.mark e s s' :: past) p := by
  have hstays : ∀ {n : Nat}, (∃ phase id, s.phases[n]? = some phase ∧ phase.callID = some id) →
      ∃ phase id, s'.phases[n]? = some phase ∧ phase.callID = some id := by
    rintro n ⟨phase, id, hget, hid⟩
    obtain ⟨phase', hget', hid'⟩ := hs.callID_stays hget hid
    exact ⟨phase', id, hget', hid'⟩
  have hlisted : ∀ {n : Nat} {id : UInt32}, s.pendingSvc.lookup id = some n →
      ∃ phase, s.phases[n]? = some phase ∧ phase.callID = some id := by
    intro n id hlookup
    obtain ⟨phase, hget, hid⟩ := (h.listed id n).1 hlookup
    exact ⟨phase, hget, callID_of_pending hid⟩
  cases hs.turned hp with
  | spawned heq =>
    rw [heq]
    trivial
  | kept hold =>
    have hrouted := h.routed p hold
    cases p with
    | routing k id r => exact hrouted.later
    | answering k n r =>
      obtain ⟨phase, id, hget, hid, htold⟩ := hrouted
      obtain ⟨phase', hget', hid'⟩ := hs.callID_stays hget hid
      exact ⟨phase', id, hget', hid', htold.later⟩
    | failing k left => exact fun n hn => hstays (hrouted n hn)
    | _ => trivial
  | @turned i e' q hq hturn =>
    have hrouted := h.routed q (List.mem_of_getElem? hq)
    cases hturn with
    | start _ => trivial
    | @hear k frame id data hframe => exact .inl ⟨i, frame, rfl, hq, hframe⟩
    | refusal => exact .inl ⟨i, rfl, hq⟩
    | unknown => trivial
    | found hlookup =>
      obtain ⟨phase, hget, hid⟩ := hlisted hlookup
      obtain ⟨phase', hget', hid'⟩ := hs.callID_stays hget hid
      exact ⟨phase', _, hget', hid', hrouted.later⟩
    | lose _ =>
      intro n hn
      obtain ⟨⟨id, n'⟩, hmem, rfl⟩ := List.mem_map.1 hn
      obtain ⟨phase, hget, hid⟩ := hlisted (AList.mem_lookup_iff.2 hmem)
      exact hstays ⟨phase, id, hget, hid⟩
    | release => trivial
  | offered hq hoffer _ =>
    have hrouted := h.routed _ (List.mem_of_getElem? hq)
    cases hoffer with
    | answer => trivial
    | fail _ => exact fun n hn => hstays (hrouted n (List.mem_of_mem_erase hn))

theorem Inv.early_step (hearly : ∀ phase, s'.phases[n]? = some phase → phase.early = true) (k : Nat)
    :
    ¬ Ever (Caught k n) (Entry.mark e s s' :: past) ∧
      ¬ Ever (Wrote n k) (Entry.mark e s s' :: past) := by
  have hbefore := hs.early_back hearly
  obtain ⟨hcaught, hwrote⟩ := h.early n hbefore k
  refine ⟨?_, ?_⟩
  · rintro (⟨-, phase, id, hget, hid⟩ | hpast)
    · have hphase := hbefore phase hget
      cases phase with
      | registered _ _ _ => cases hphase
      | waiting _ _ => cases hphase
      | leaving _ _ => cases hphase
      | _ => cases hid
    · exact hcaught hpast
  · rintro (⟨svc, cdrData, id, hget, -⟩ | hpast)
    · exact absurd (hbefore _ hget) Bool.false_ne_true
    · exact hwrote hpast

theorem Inv.unsent_step {cdrData : List UInt8}
    (hget : s'.phases[n]? = some (.registered svc cdrData id)) (j : Nat) :
    ¬ Ever (Wrote n j) (Entry.mark e s s' :: past) := by
  have hpast : ¬ Ever (Wrote n j) past := by
    obtain ⟨c, hc, hphase⟩ := phases_get.1 hget
    cases hs.became hc with
    | entered hnew _ _ =>
      rw [hphase] at hnew
      rcases hnew with hnew | ⟨err, hnew⟩
      · cases hnew
      · cases hnew
    | @moved e' c₀ pending counter hold hmove =>
      -- it was registered by this step
      rw [hphase] at hmove
      generalize c.respCh = respCh at hmove
      cases hmove with
      | register hnumbered _ =>
        refine (h.early n ?_ j).2
        intro phase hget'
        rw [phases_get.2 ⟨c₀, hold, hnumbered⟩] at hget'
        cases hget'
        rfl
    | kept hold => exact h.unsent n svc cdrData id (phases_get.2 ⟨c, hold, hphase⟩) j
    | @offered i e' p p' c₀ r hold _ _ _ hsame _ =>
      exact h.unsent n svc cdrData id (phases_get.2 ⟨c₀, hold, hsame ▸ hphase⟩) j
  rintro (⟨svc', cdrData', id', -, hafter, -⟩ | hwrote)
  · rw [show (Entry.mark e s s').after.phases[n]? = _ from hget] at hafter
    cases hafter
  · exact hpast hwrote

/-- While a call waits with an empty channel, its connection is neither lost nor replaced. -/
theorem Inv.sent_conn {j : Nat} (hget : s.calls[n]? = some c) (hphase : c.phase = .waiting svc id)
    (hempty : c.respCh = none) (hsent : Sent s past n c id j) :
    s'.conn = some j ∧ ∀ k, Pump.closing k ∉ s'.pumps := by
  obtain ⟨hconn, hopen⟩ := hsent.empty hempty
  refine ⟨?_, ?_⟩
  · cases hs with
    | close hp => exact absurd (List.mem_of_getElem? hp) (hopen _)
    | install hloop =>
      rw [(h.linked.down hloop).1] at hconn
      cases hconn
    | @offer i m _ _ _ r _ _ =>
      obtain ⟨calls, hcalls⟩ := offer_eq (s := s) m r
      rw [hcalls]
      exact hconn
    | _ => exact hconn
  · intro k hk
    cases hs.turned hk with
    | spawned heq => cases heq
    | kept hold => exact hopen k hold
    | turned hq hturn =>
      cases hturn with
      | release =>
        have hleft := h.swept k [] (List.mem_of_getElem? hq) n c id hget (.inr ⟨svc, hphase⟩) hempty
        cases hleft
    | offered _ hoffer _ => cases hoffer

theorem Inv.sent_step (hget : s'.calls[n]? = some c) (hphase : c.phase = .waiting svc id) :
    ∃ j, Sent s' (Entry.mark e s s' :: past) n c id j := by
  cases hs.became hget with
  | entered hnew _ _ =>
    rw [hphase] at hnew
    rcases hnew with hnew | ⟨err, hnew⟩
    · cases hnew
    · cases hnew
  | @moved e' c₀ pending counter hold hmove =>
    -- the write has just been done, on the present connection
    have hafter : (Entry.mark (.call n e') s s').after.phases[n]? = some (.waiting svc id) :=
      phases_get.2 ⟨c, hget, hphase⟩
    rw [hphase] at hmove
    generalize hch : c.respCh = respCh at hmove
    cases hmove with
    | @sent _ cdrData _ k hregistered hfree hconn =>
      have hbefore : s.phases[n]? = some (.registered svc cdrData id) :=
        phases_get.2 ⟨c₀, hold, hregistered⟩
      have hwrote : Wrote n k (Entry.mark (.call n (.write none)) s s') :=
        ⟨svc, cdrData, id, hbefore, hafter, hconn⟩
      obtain ⟨hconn', hpumps⟩ := hs.call_link
      refine ⟨k, .inl hwrote, ?_, ?_, ?_⟩
      · rintro j' (⟨-, -, -, -, -, hconn''⟩ | hpast)
        · rw [show (Entry.mark (.call n (.write none)) s s').before.conn = _ from hconn] at hconn''
          exact (Option.some.inj hconn'').symm
        · exact absurd hpast (h.unsent n svc cdrData id hbefore j')
      · intro _
        refine ⟨by rw [hconn', hconn], ?_⟩
        intro k' hk'
        rw [hpumps] at hk'
        exact absurd (List.any_eq_true.2 ⟨_, hk', rfl⟩) (Bool.eq_false_iff.1 hfree)
      · intro data hdata
        rw [hch] at hdata
        obtain ⟨id', hid, hown⟩ := h.given n c₀ _ hold hdata
        rw [hregistered] at hid
        cases hid
        rcases hown with ⟨k', hheard⟩ | ⟨hlost, -⟩
        · exact ⟨k', hheard.later, .inr (.inl ⟨hwrote, hheard⟩)⟩
        · cases hlost
  | kept hold =>
    obtain ⟨j, hsent⟩ := h.sent n c svc id hold hphase
    refine ⟨j, hsent.wrote.later, ?_, ?_, fun data hr => (hsent.full data hr).later⟩
    · rintro j' (hmark | hpast)
      · exact absurd hmark (not_wrote hold hphase j')
      · exact hsent.only j' hpast
    · intro hempty
      exact h.sent_conn hs hold hphase hempty hsent
  | @offered i e' p p' c₀ r hold hp hoffer hempty hsame hr =>
    have hwaits : c₀.phase = .waiting svc id := by rw [← hsame, hphase]
    obtain ⟨j, hsent⟩ := h.sent n c₀ svc id hold hwaits
    refine ⟨j, hsent.wrote.later, ?_, ?_, ?_⟩
    · rintro j' (hmark | hpast)
      · exact absurd hmark (not_wrote hold hwaits j')
      · exact hsent.only j' hpast
    · intro hnone
      rw [hr] at hnone
      cases hnone
    · intro data hdata
      rw [hr] at hdata
      cases hdata
      cases hoffer with
      | @answer k =>
        -- the pump that answers reads from the present connection, where the call was sent
        obtain ⟨phase, id', hget', hid, htold⟩ := h.routed _ (List.mem_of_getElem? hp)
        rw [phases_get.2 ⟨c₀, hold, hwaits⟩] at hget'
        cases hget'
        cases hid
        obtain ⟨-, -, -, -, k', hup, hon⟩ := h.linked.alive hp
        cases hon
        have hconn := (hsent.empty hempty).1
        rw [hup.1] at hconn
        exact ⟨k, htold.later, .inl (Option.some.inj hconn)⟩

theorem Inv.leaving_step {value : a.Json} (hget : s'.calls[n]? = some c)
    (hphase : c.phase = .leaving id (.ok value)) :
    ∃ data service svc j, Ever (Wrote n j) (Entry.mark e s s' :: past) ∧
      Paired n j id data (Entry.mark e s s' :: past) ∧
      ServiceClient.outcome service svc (.success data) = .ok value := by
  have hold : ∀ {c₀ : Call a}, s.calls[n]? = some c₀ → c₀.phase = .leaving id (.ok value) →
      ∃ data service svc j, Ever (Wrote n j) (Entry.mark e s s' :: past) ∧
        Paired n j id data (Entry.mark e s s' :: past) ∧
        ServiceClient.outcome service svc (.success data) = .ok value := by
    intro c₀ hget' hphase'
    obtain ⟨data, service, svc, j, hwrote, hpaired, hvalue⟩ := h.leaving n c₀ id value hget' hphase'
    exact ⟨data, service, svc, j, hwrote.later, hpaired.later, hvalue⟩
  cases hs.became hget with
  | entered hnew _ _ =>
    rw [hphase] at hnew
    rcases hnew with hnew | ⟨err, hnew⟩
    · cases hnew
    · cases hnew
  | @moved e' c₀ pending counter hold' hmove =>
    rw [hphase] at hmove
    generalize c.respCh = respCh at hmove
    generalize hout : (Except.ok value : Except String a.Json) = out at hmove
    cases hmove with
    | unsent _ => cases hout
    | expire _ => cases hout
    | @take svc _ r hwaits hr =>
      obtain ⟨j, hsent⟩ := h.sent n c₀ svc id hold' hwaits
      cases r with
      | failure message => cases hout
      | success data =>
        exact ⟨data, c₀.service, svc, j, hsent.wrote.later, (hsent.full data hr).later, rfl⟩
  | kept hold' => exact hold hold' hphase
  | offered hold' _ _ _ hsame _ => exact hold hold' (by rw [← hsame, hphase])

theorem Inv.swept_step {left : List Nat} (hp : Pump.failing k left ∈ s'.pumps)
    (hget : s'.calls[n]? = some c) (hopen : c.phase.IsOpen id) (hempty : c.respCh = none) :
    n ∈ left := by
  -- a call that is open with an empty channel was there, unless the mutex is free
  have hwas : (∃ c₀, s.calls[n]? = some c₀ ∧ c₀.phase.IsOpen id ∧ c₀.respCh = none) ∨
      s.svcMuHeld = false ∧ ∃ e', e = .call n e' := by
    cases hs.became hget with
    | entered hnew _ _ => exact absurd hopen (not_open hnew)
    | @moved e' c₀ pending counter hold hmove =>
      obtain ⟨hch, ⟨svc, cdrData, -, hfree⟩ | ⟨svc, cdrData, hphase⟩⟩ := hmove.open_cases hopen
      · exact .inr ⟨hfree, e', rfl⟩
      · exact .inl ⟨c₀, hold, .inl ⟨svc, cdrData, hphase⟩, by rw [← hch, hempty]⟩
    | kept hold => exact .inl ⟨c, hold, hopen, hempty⟩
    | offered _ _ _ _ _ hr =>
      rw [hempty] at hr
      cases hr
  cases hs.turned hp with
  | spawned heq => cases heq
  | kept hold =>
    rcases hwas with ⟨c₀, hold', hopen', hempty'⟩ | ⟨hfree, -⟩
    · exact h.swept k left hold n c₀ id hold' hopen' hempty'
    · exact absurd (List.any_eq_true.2 ⟨_, hold, rfl⟩) (Bool.eq_false_iff.1 hfree)
  | turned hq hturn =>
    rcases hwas with ⟨c₀, hold', hopen', hempty'⟩ | ⟨-, e', heq⟩
    · cases hturn with
      | lose _ =>
        have hlookup := (h.listed id n).2 ⟨_, phases_get.2 ⟨c₀, hold', rfl⟩, hopen'.pendingID⟩
        exact List.mem_map.2 ⟨⟨id, n⟩, AList.mem_lookup_iff.1 hlookup, rfl⟩
    · cases heq
  | @offered i m e' q r hq hoffer hfull =>
    rcases hwas with ⟨c₀, hold', hopen', hempty'⟩ | ⟨-, e'', heq⟩
    · cases hoffer with
      | @fail k _ left₀ _ =>
        have hleft := h.swept k left₀ (List.mem_of_getElem? hq) n c₀ id hold' hopen' hempty'
        refine (List.mem_erase_of_ne ?_).2 hleft
        rintro rfl
        exact hfull c hget hempty
    · cases heq

theorem Inv.closed_step (hp : Pump.closing k ∈ s'.pumps) (hget : s'.calls[n]? = some c)
    (hopen : c.phase.IsOpen id) (hempty : c.respCh = none) :
    ¬ Ever (Caught k n) (Entry.mark e s s' :: past) := by
  rintro (⟨⟨i, left, -, hfailing⟩, -⟩ | hpast)
  · -- the pump is closing, not failing
    obtain ⟨hpumps, -⟩ := (h.linked.step hs).of_mem hp
    obtain ⟨-, -, -, hpumps', -⟩ := (h.linked.step hs).alive hfailing
    rw [hpumps] at hpumps'
    cases hpumps'
  · cases hs.turned hp with
    | spawned heq => cases heq
    | kept hold =>
      cases hs.became hget with
      | entered hnew _ _ => exact not_open hnew hopen
      | @moved e' c₀ pending counter hold' hmove =>
        obtain ⟨hch, ⟨svc, cdrData, hphase, -⟩ | ⟨svc, cdrData, hphase⟩⟩ := hmove.open_cases hopen
        · refine (h.early n ?_ k).1 hpast
          intro phase hget'
          rw [phases_get.2 ⟨c₀, hold', hphase⟩] at hget'
          cases hget'
          rfl
        · exact h.closed k hold n c₀ id hold' (.inl ⟨svc, cdrData, hphase⟩) (by rw [← hch, hempty])
            hpast
      | kept hold' => exact h.closed k hold n c id hold' hopen hempty hpast
      | offered _ _ _ _ _ hr =>
        rw [hempty] at hr
        cases hr
    | turned hq hturn =>
      cases hturn with
      | release =>
        -- every open call has been seen to
        cases hs.became hget with
        | kept hold' =>
          have hleft := h.swept k [] (List.mem_of_getElem? hq) n c id hold' hopen hempty
          cases hleft
        | offered _ _ _ _ _ hr =>
          rw [hempty] at hr
          cases hr
    | offered _ hoffer _ => cases hoffer

theorem Inv.done_step (hdone : Ever (fun e => ∃ out, Returns n out e) (Entry.mark e s s' :: past)) :
    ∃ id out, s'.phases[n]? = some (.returned id out) := by
  rcases hdone with ⟨out, -, id, hafter⟩ | hpast
  · exact ⟨id, out, hafter⟩
  · obtain ⟨id, out, hget⟩ := h.done n hpast
    exact ⟨id, out, hs.returned_stays hget⟩

theorem Inv.dated_step {m : Nat} (hdated : Ever (Registers n m) (Entry.mark e s s' :: past)) :
    m < s'.dialed := by
  have hle := hs.dialed_le
  rcases hdated with ⟨-, -, -, -, -, hconn⟩ | hpast
  · have hlast := h.linked.last hconn
    omega
  · have hlt := h.dated n m hpast
    omega

theorem Inv.step (hfew : s.calls.length < 4294967296) : Inv s' (Entry.mark e s s' :: past) where
  linked := h.linked.step hs
  numbers := h.numbers.step hs hfew
  listed := h.listed.step h.numbers hs
  given _ _ _ hget hr := h.given_step hs hget hr
  routed _ hp := h.routed_step hs hp
  early _ hearly k := h.early_step hs hearly k
  unsent _ _ _ _ hget j := h.unsent_step hs hget j
  sent _ _ _ _ hget hphase := h.sent_step hs hget hphase
  leaving _ _ _ _ hget hphase := h.leaving_step hs hget hphase
  swept _ _ hp _ _ _ hget hopen hempty := h.swept_step hs hp hget hopen hempty
  closed _ hp _ _ _ hget hopen hempty := h.closed_step hs hp hget hopen hempty
  done _ hdone := h.done_step hs hdone
  dated _ _ hdated := h.dated_step hs hdated

/-! ## What the invariant says of a step -/

theorem Inv.paired {value : a.Json} (hreturns : Returns n (.ok value) (Entry.mark e s s')) :
    ∃ id data service svc j, s'.phases[n]? = some (.returned (some id) (.ok value)) ∧
      Ever (Wrote n j) past ∧ Paired n j id data past ∧
      ServiceClient.outcome service svc (.success data) = .ok value := by
  obtain ⟨hbefore, id, hafter⟩ := hreturns
  have hafter' : s'.phases[n]? = some (.returned id (.ok value)) := hafter
  obtain ⟨c, hget, hphase⟩ := phases_get.1 hafter'
  have hnot : ∀ {c₀ : Call a}, s.calls[n]? = some c₀ → c₀.phase ≠ .returned id (.ok value) := by
    intro c₀ hold hreturned
    exact hbefore id _ (phases_get.2 ⟨c₀, hold, hreturned⟩)
  cases hs.became hget with
  | entered hnew _ _ =>
    rw [hphase] at hnew
    rcases hnew with hnew | ⟨err, hnew⟩
    · cases hnew
    · cases hnew
  | @moved e' c₀ pending counter hold hmove =>
    rw [hphase] at hmove
    generalize c.respCh = respCh at hmove
    cases hmove with
    | @leave id _ hleaving _ =>
      obtain ⟨data, service, svc, j, hwrote, hpaired, hvalue⟩ :=
        h.leaving n c₀ id value hold hleaving
      exact ⟨id, data, service, svc, j, hafter', hwrote, hpaired, hvalue⟩
  | kept hold => exact absurd hphase (hnot hold)
  | offered hold _ _ _ hsame _ =>
    rw [hsame] at hphase
    exact absurd hphase (hnot hold)

theorem Inv.failed (hconn : s.conn = some k) (hbefore : s.connected = true)
    (hafter : s'.connected = false) (hget : s.calls[n]? = some c) (hopen : c.phase.IsOpen id)
    (hhere : Ever (Wrote n k) past ∨ Ever (Caught k n) past) :
    ∃ r, c.respCh = some r ∧ Own n id r past := by
  have hclosing : Pump.closing k ∈ s.pumps := by
    have hsame : s'.connected = s.connected → False := by
      intro heq
      rw [heq, hbefore] at hafter
      cases hafter
    cases hs with
    | close hp =>
      obtain ⟨-, -, -, -, j, hup, hon⟩ := h.linked.alive hp
      cases hon
      rw [hup.1] at hconn
      cases hconn
      exact List.mem_of_getElem? hp
    | mark _ => cases hafter
    | @offer i m _ _ _ r _ _ =>
      obtain ⟨calls, hcalls⟩ := offer_eq (s := s) m r
      refine absurd ?_ hsame
      rw [hcalls]
      rfl
    | _ => exact absurd rfl hsame
  have hfull : c.respCh ≠ none := by
    intro hempty
    rcases hhere with hwrote | hcaught
    · rcases hopen with ⟨svc, cdrData, hphase⟩ | ⟨svc, hphase⟩
      · exact h.unsent n svc cdrData id (phases_get.2 ⟨c, hget, hphase⟩) k hwrote
      · obtain ⟨j, hsent⟩ := h.sent n c svc id hget hphase
        exact (hsent.empty hempty).2 k hclosing
    · exact h.closed k hclosing n c id hget hopen hempty hcaught
  obtain ⟨r, hr⟩ := Option.ne_none_iff_exists'.1 hfull
  obtain ⟨id', hid, hown⟩ := h.given n c r hget hr
  rw [callID_of_pending hopen.pendingID] at hid
  cases hid
  exact ⟨r, hr, hown⟩

theorem Inv.answered : Answered (Entry.mark e s s') past where
  paired _ _ hreturns := h.paired hs hreturns
  once n out hreturns hpast := by
    obtain ⟨id, out', hget⟩ := h.done n hpast
    exact hreturns.1 id out' hget
  own n r htakes := by
    obtain ⟨-, c, svc, id, hget, hphase, hr⟩ := htakes
    obtain ⟨id', hid, hown⟩ := h.given n c r hget hr
    have hat : s.phases[n]? = some c.phase := phases_get.2 ⟨c, hget, rfl⟩
    refine ⟨c.phase, id', hat, hid, hown, ?_⟩
    intro m phase' hget' hid'
    exact h.numbers.apart m n phase' c.phase id' hget' hat hid' hid
  failed _ hconn hbefore hafter _ _ _ hget hopen hhere :=
    h.failed hs hconn hbefore hafter hget hopen hhere
  spared k n hfails m hregisters := by
    obtain ⟨i, left, -, hp, -⟩ := hfails
    obtain ⟨-, -, -, -, j, hup, hon⟩ := h.linked.alive hp
    cases hon
    have hlt := h.dated n m hregisters
    have hlast := hup.2
    omega

end Keeps

/-! ## Every run -/

theorem Inv.start : Inv ({} : ServiceClient a) [] where
  linked := ⟨rfl, rfl, rfl⟩
  numbers :=
    { counted := rfl
      low := fun _ _ _ hget => by cases hget
      apart := fun _ _ _ _ _ hget => by cases hget }
  listed _ _ :=
    { mp := fun hnone => by cases hnone
      mpr := fun ⟨_, hget, _⟩ => by cases hget }
  given _ _ _ hget := by cases hget
  routed _ hp := by cases hp
  early _ _ _ := ⟨fun h => h, fun h => h⟩
  unsent _ _ _ _ hget := by cases hget
  sent _ _ _ _ hget := by cases hget
  leaving _ _ _ _ hget := by cases hget
  swept _ _ hp := by cases hp
  closed _ hp := by cases hp
  done _ hdone := False.elim hdone
  dated _ _ hdated := False.elim hdated

theorem Step.calls_le {e : Event a} (hs : Step s e s') : s.calls.length ≤ s'.calls.length := by
  have hlength : ∀ s : ServiceClient a, s.phases.length = s.calls.length := by
    intro s
    exact List.length_map _
  rw [← hlength, ← hlength]
  cases hs.rephased with
  | same hphases _ _ => rw [hphases]
  | entered _ _ hphases _ _ =>
    rw [hphases, List.length_append]
    exact Nat.le_add_right _ _
  | moved _ _ _ hphases => rw [hphases, List.length_set]

/-- No step of a run has seen more calls than there are at its end. -/
theorem history_few {es : List (Event a)} (hfew : (after es).calls.length < 4294967296) :
    Always (fun e _ => e.before.calls.length < 4294967296) (history es) := by
  have hle : Always (fun e _ => e.before.calls.length ≤ (after es).calls.length) (history es) := by
    refine @History.run_keeps (ServiceClient a) (Event a) (Entry a) ServiceClient.step Entry.mark
      {} [] (fun s past => Always (fun e _ => e.before.calls.length ≤ s.calls.length) past)
      ?_ trivial es
    intro s past e h
    have hstep := (step_spec s e).calls_le
    exact ⟨hstep, h.mono fun e' _ hle => Nat.le_trans hle hstep⟩
  exact hle.mono fun e _ h => Nat.lt_of_le_of_lt h hfew

/-- In every run with ids enough, every call is answered as it should be. -/
theorem calls_answered (a : Api) (es : List (Event a))
    (hfew : (after es).calls.length < 4294967296) : Always Answered (history es) :=
  History.run_lawful
    (fun s _ e h hok => ⟨h.step (step_spec s e) hok, h.answered (step_spec s e)⟩)
    Inv.start es (history_few hfew)

/-! ## An answer to a request that is not yet written -/

theorem Ever.any {p : Entry a → Prop} {f : Entry a → Bool} (h : Ever p past)
    (hf : ∀ e, p e → f e = true) : past.any f = true := by
  induction past with
  | nil => exact False.elim h
  | cons e past ih =>
    rw [List.any_cons, Bool.or_eq_true]
    rcases h with h | h
    · exact .inl (hf e h)
    · exact .inr (ih h)

/-- A frame is read from the second connection. -/
def hearsSecond (e : Entry a) : Bool :=
  match e.event with
  | .pump i (.binary _) => e.before.pumps[i]? = some (.reading 1)
  | _ => false

def Phase.waits : Phase a → Bool
  | .waiting _ _ => true
  | _ => false

/-- The first call waits while the connection is not the second. -/
def writesFirst (e : Entry a) : Bool :=
  e.after.phases[0]?.any Phase.waits && e.before.conn ≠ some 1

/-- No schemas. -/
abbrev bare : Api where
  Args := Unit
  Schema := Unit
  Json := List UInt8
  parseSchema _ := .ok ()
  serialize _ _ := .ok []
  deserialize data _ := .ok data
  raw data := data

/-- The first connection answers id 1 before the request is written, on the second one. -/
def hasty : List (Event bare) :=
  [.loop (.dial true), .loop .proceed, .loop .proceed, .pump 0 .start,
    .pump 0 (.text (.advertiseServices [⟨7, "/add_area", "", ""⟩])),
    .callService "/add_area" (), .call 0 .prepare, .call 0 .number, .call 0 .register,
    .pump 0 (.binary [3, 7, 0, 0, 0, 1, 0, 0, 0, 0, 0, 0, 0]), .pump 0 .lookup, .pump 0 .send,
    .pump 0 .lose, .pump 0 (.fail 0), .pump 0 .release, .pump 0 .close,
    .loop .poll, .loop (.dial true), .loop .proceed,
    .call 0 (.write none), .call 0 .take, .call 0 .leave]

theorem hasty_answer_paired :
    (after hasty).calls.length < 4294967296 ∧ Always Answered (history hasty) :=
  ⟨by decide, calls_answered bare hasty (by decide)⟩

/-- The call returns what the first connection said, though it was sent on the second. -/
theorem hasty_answer_accepted :
    ¬ ∀ (a : Api) (es : List (Event a)), (after es).calls.length < 4294967296 →
      Always (fun e past => ∀ n value, Returns n (.ok value) e → ∃ id data k,
        e.after.phases[n]? = some (.returned (some id) (.ok value)) ∧ Ever (Wrote n k) past ∧
          Ever (Heard k id data) past) (history es) := by
  intro h
  have hlast := (h bare hasty (by decide)).1
  have hreturns : Returns 0 (.ok []) (Entry.mark (.call 0 .leave)
      (after (hasty.take 21)) (after hasty)) := by
    refine ⟨?_, some 1, rfl⟩
    intro id out hget
    cases hget
  obtain ⟨id, data, k, -, hwrote, hheard⟩ := hlast 0 [] hreturns
  have hsecond : k = 1 := by
    by_contra hne
    have hany := hwrote.any (f := writesFirst) fun e hwrote => by
      obtain ⟨svc, cdrData, id, -, hafter, hconn⟩ := hwrote
      unfold writesFirst
      rw [hafter, hconn]
      simpa [Phase.waits] using hne
    revert hany
    decide
  subst hsecond
  have hany := hheard.any (f := hearsSecond) fun e hheard => by
    obtain ⟨i, frame, hevent, hpump, -⟩ := hheard
    unfold hearsSecond
    rw [hevent]
    exact decide_eq_true hpump
  revert hany
  decide

end Calls
end Foxglove
end Mowgli
