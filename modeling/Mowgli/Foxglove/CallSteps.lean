import Mowgli.Foxglove.Calls

/-!
# CallSteps — what one step of a service client can do

`step_spec` lists it once. From it: a connection has one pump at most, which is done with it
before the next one is dialed (`Linked`); no two calls have one id (`Numbers`); and `pendingSvc`
is the table of the calls that stand between their registration and their return (`Listed`).
-/

namespace Mowgli
namespace Foxglove
namespace Calls

variable {a : Api} {s s' : ServiceClient a} {e : Event a}

def Phase.callID : Phase a → Option UInt32
  | .entered => none
  | .ready _ _ => none
  | .numbered _ _ id => some id
  | .registered _ _ id => some id
  | .waiting _ id => some id
  | .leaving id _ => some id
  | .returned id _ => id

/-- Registered, and not yet deleted. -/
def Phase.pendingID : Phase a → Option UInt32
  | .registered _ _ id => some id
  | .waiting _ id => some id
  | .leaving id _ => some id
  | _ => none

/-! ## The steps -/

/-- What `CallService` can do on its own, to its call, the table and the counter. -/
inductive Move (s : ServiceClient a) (n : Nat) (c : Call a) :
    CallEvent → Phase a → Option Result → AList (fun _ : UInt32 => Nat) → UInt32 → Prop where
  | prepared {svc : ServiceDef} {cdrData : List UInt8} (h : c.phase = .entered) :
      Move s n c .prepare (.ready svc cdrData) c.respCh s.pendingSvc s.callIDCounter
  | refused {err : String} (h : c.phase = .entered) :
      Move s n c .prepare (.returned none (.error err)) c.respCh s.pendingSvc s.callIDCounter
  | number {svc : ServiceDef} {cdrData : List UInt8} (h : c.phase = .ready svc cdrData) :
      Move s n c .number (.numbered svc cdrData (s.callIDCounter + 1)) c.respCh s.pendingSvc
        (s.callIDCounter + 1)
  | register {svc : ServiceDef} {cdrData : List UInt8} {id : UInt32}
      (h : c.phase = .numbered svc cdrData id) (hfree : s.svcMuHeld = false) :
      Move s n c .register (.registered svc cdrData id) c.respCh (s.pendingSvc.insert id n)
        s.callIDCounter
  | unsent {svc : ServiceDef} {cdrData : List UInt8} {id : UInt32} {err : Option String}
      {text : String} (h : c.phase = .registered svc cdrData id) :
      Move s n c (.write err) (.leaving id (.error text)) c.respCh s.pendingSvc s.callIDCounter
  | sent {svc : ServiceDef} {cdrData : List UInt8} {id : UInt32} {k : Nat}
      (h : c.phase = .registered svc cdrData id) (hfree : s.connMuHeld = false)
      (hconn : s.conn = some k) :
      Move s n c (.write none) (.waiting svc id) c.respCh s.pendingSvc s.callIDCounter
  | expire {svc : ServiceDef} {id : UInt32} {err text : String} (h : c.phase = .waiting svc id) :
      Move s n c (.expire err) (.leaving id (.error text)) c.respCh s.pendingSvc s.callIDCounter
  | take {svc : ServiceDef} {id : UInt32} {r : Result} (h : c.phase = .waiting svc id)
      (hr : c.respCh = some r) :
      Move s n c .take (.leaving id (ServiceClient.outcome c.service svc r)) none s.pendingSvc
        s.callIDCounter
  | leave {id : UInt32} {out : Except String a.Json} (h : c.phase = .leaving id out)
      (hfree : s.svcMuHeld = false) :
      Move s n c .leave (.returned (some id) out) c.respCh (s.pendingSvc.erase id) s.callIDCounter

/-- What a pump does to itself alone. -/
inductive Turn (s : ServiceClient a) : PumpEvent → Pump → Pump → Prop where
  | start {k : Nat} (hconn : s.conn = some k) : Turn s .start .starting (.reading k)
  | hear {k : Nat} {frame : List UInt8} {id : UInt32} {data : List UInt8}
      (h : dispatchBinary frame = some (id, data)) :
      Turn s (.binary frame) (.reading k) (.routing k id (.success data))
  | refusal {k : Nat} {id : UInt32} {message : String} :
      Turn s (.text (.serviceCallFailure id message)) (.reading k)
        (.routing k id (.failure message))
  | unknown {k : Nat} {id : UInt32} {r : Result} :
      Turn s .lookup (.routing k id r) (.reading k)
  | found {k n : Nat} {id : UInt32} {r : Result} (h : s.pendingSvc.lookup id = some n) :
      Turn s .lookup (.routing k id r) (.answering k n r)
  | lose {k : Nat} (hconn : s.conn = some k) :
      Turn s .lose (.reading k) (.failing k (s.pendingSvc.entries.map Sigma.snd))
  | release {k : Nat} : Turn s .release (.failing k []) (.closing k)

/-- What a pump sends to a call. -/
inductive Offer : PumpEvent → Pump → Pump → Nat → Result → Prop where
  | answer {k n : Nat} {r : Result} : Offer .send (.answering k n r) (.reading k) n r
  | fail {k n : Nat} {left : List Nat} (h : left.contains n = true) :
      Offer (.fail n) (.failing k left) (.failing k (left.erase n)) n (.failure lostReason)

inductive Step (s : ServiceClient a) : Event a → ServiceClient a → Prop where
  | idle {e : Event a} : Step s e s
  | enter {service : String} {args : a.Args} {c : Call a}
      (h : c.phase = .entered ∨ ∃ err, c.phase = .returned none (.error err))
      (hch : c.respCh = none) :
      Step s (.callService service args) { s with calls := s.calls ++ [c] }
  | call {n : Nat} {e : CallEvent} {c : Call a} {phase : Phase a} {respCh : Option Result}
      {pending : AList fun _ : UInt32 => Nat} {counter : UInt32} (h : s.calls[n]? = some c)
      (hmove : Move s n c e phase respCh pending counter) :
      Step s (.call n e)
        { s with
          calls := s.calls.set n { c with phase := phase, respCh := respCh }
          pendingSvc := pending
          callIDCounter := counter }
  | services {i : Nat} {msg : Text} {k : Nat} {services : String → Option ServiceDef}
      {servicesByID : UInt32 → Option ServiceDef} (h : s.pumps[i]? = some (.reading k)) :
      Step s (.pump i (.text msg)) { s with services := services, servicesByID := servicesByID }
  | pump {i : Nat} {e : PumpEvent} {p p' : Pump} (h : s.pumps[i]? = some p)
      (hturn : Turn s e p p') : Step s (.pump i e) (s.setPump i p')
  | offer {i n : Nat} {e : PumpEvent} {p p' : Pump} {r : Result} (h : s.pumps[i]? = some p)
      (hoffer : Offer e p p' n r) : Step s (.pump i e) ((s.offer n r).setPump i p')
  | stop {i : Nat} {e : PumpEvent} {p : Pump} (h : s.pumps[i]? = some p)
      (hconn : p = .starting ∧ s.conn = none ∨ ∃ k, p = .reading k ∧ s.conn ≠ some k) :
      Step s (.pump i e) (s.endPump i)
  | close {i k : Nat} (h : s.pumps[i]? = some (.closing k)) :
      Step s (.pump i .close) ({ s with conn := none, connected := false }.endPump i)
  | install {e : LoopEvent} {first : Bool} (h : s.loop = .connecting ∨ s.loop = .dialing) :
      Step s (.loop e)
        { s with conn := some s.dialed, dialed := s.dialed + 1, loop := .installed first }
  | undialed {e : LoopEvent} (h : s.loop = .connecting ∨ s.loop = .dialing) :
      Step s (.loop e) { s with loop := .waiting }
  | poll {e : LoopEvent} (h : s.loop = .waiting) (hlost : s.connected = false) :
      Step s (.loop e) { s with loop := .dialing }
  | mark {e : LoopEvent} {first : Bool} (h : s.loop = .installed first) :
      Step s (.loop e) { s with connected := true, loop := .marked first }
  | clear {e : LoopEvent} (h : s.loop = .marked false) :
      Step s (.loop e)
        { s with services := fun _ => none, servicesByID := fun _ => none, loop := .cleared }
  | spawn {e : LoopEvent} (h : s.loop = .marked true ∨ s.loop = .cleared) :
      Step s (.loop e) { s with pumps := s.pumps ++ [.starting], loop := .waiting }

theorem stepCall_spec (n : Nat) (e : CallEvent) : Step s (.call n e) (s.stepCall n e) := by
  unfold ServiceClient.stepCall
  split
  · exact .idle
  · next c hget =>
    split
    · next hphase =>
      unfold ServiceClient.prepare
      split
      · exact .call hget (.refused hphase)
      · split
        · exact .call hget (.refused hphase)
        · split
          · exact .call hget (.refused hphase)
          · exact .call hget (.prepared hphase)
    · next hphase => exact .call hget (.number hphase)
    · next hphase =>
      split
      · exact .idle
      · next hfree => exact .call hget (.register hphase (Bool.eq_false_iff.2 hfree))
    · next hphase =>
      split
      · exact .idle
      · next hfree =>
        unfold ServiceClient.writeMessage
        split
        · exact .call hget (.unsent hphase)
        · exact .call hget (.unsent hphase)
        · next hconn =>
          exact .call hget (.sent hphase (Bool.eq_false_iff.2 hfree) hconn)
    · next hphase => exact .call hget (.expire hphase)
    · next hphase =>
      split
      · exact .idle
      · next r hr => exact .call hget (.take hphase hr)
    · next hphase =>
      split
      · exact .idle
      · next hfree => exact .call hget (.leave hphase (Bool.eq_false_iff.2 hfree))
    · exact .idle

/-- Advertisements change nothing but the services. -/
theorem handleAdvertiseServices_eq (services : List ServiceDef) :
    ∃ byName byID, s.handleAdvertiseServices services =
      { s with services := byName, servicesByID := byID } := by
  unfold ServiceClient.handleAdvertiseServices
  induction services generalizing s with
  | nil => exact ⟨_, _, rfl⟩
  | cons svc services ih => exact ih

theorem handleUnadvertiseServices_eq (ids : List UInt32) :
    ∃ byName byID, s.handleUnadvertiseServices ids =
      { s with services := byName, servicesByID := byID } := by
  unfold ServiceClient.handleUnadvertiseServices
  induction ids generalizing s with
  | nil => exact ⟨_, _, rfl⟩
  | cons id ids ih =>
    rw [List.foldl_cons]
    split
    · exact ih
    · exact ih

theorem stepPump_spec (i : Nat) (e : PumpEvent) : Step s (.pump i e) (s.stepPump i e) := by
  unfold ServiceClient.stepPump
  split
  · exact .idle
  · next p hget =>
    split
    · split
      · exact .idle
      · split
        · next hconn => exact .stop hget (.inl ⟨rfl, hconn⟩)
        · next hconn => exact .pump hget (.start hconn)
    · split
      · exact .idle
      · next hheard => exact .pump hget (.hear hheard)
    · next services =>
      obtain ⟨byName, byID, h⟩ := handleAdvertiseServices_eq (s := s) services
      rw [h]
      exact .services hget
    · next ids =>
      obtain ⟨byName, byID, h⟩ := handleUnadvertiseServices_eq (s := s) ids
      rw [h]
      exact .services hget
    · exact .pump hget .refusal
    · split
      · exact .idle
      · split
        · exact .pump hget .unknown
        · next hfound => exact .pump hget (.found hfound)
    · exact .offer hget .answer
    · next k =>
      split
      · exact .idle
      · split
        · next hconn => exact .pump hget (.lose hconn)
        · next hconn => exact .stop hget (.inr ⟨k, rfl, hconn⟩)
    · split
      · next hleft => exact .offer hget (.fail hleft)
      · exact .idle
    · exact .pump hget .release
    · exact .close hget
    · exact .idle

theorem stepLoop_spec (e : LoopEvent) : Step s (.loop e) (s.stepLoop e) := by
  have hinstall : ∀ first, s.loop = .connecting ∨ s.loop = .dialing →
      Step s (.loop e) (s.install first) := by
    intro first h
    unfold ServiceClient.install
    split
    · exact .idle
    · exact .install h
  unfold ServiceClient.stepLoop
  split
  · next h => exact hinstall true (.inl h)
  · next h => exact .undialed (.inl h)
  · next h =>
    split
    · exact .idle
    · next hlost => exact .poll h (Bool.eq_false_iff.2 hlost)
  · next h => exact hinstall false (.inr h)
  · next h => exact .undialed (.inr h)
  · next h => exact .mark h
  · next h => exact .spawn (.inl h)
  · next h => exact .clear h
  · next h => exact .spawn (.inr h)
  · exact .idle

theorem step_spec (s : ServiceClient a) (e : Event a) : Step s e (s.step e) := by
  cases e with
  | callService service args =>
    refine .enter ?_ rfl
    by_cases hconnected : s.connected = true
    · exact .inl (if_pos hconnected)
    · exact .inr ⟨_, if_neg hconnected⟩
  | call n e => exact stepCall_spec n e
  | pump i e => exact stepPump_spec i e
  | loop e => exact stepLoop_spec e

/-! ## One connection after the other -/

def Pump.On (k : Nat) : Pump → Prop
  | .starting => True
  | .reading j => j = k
  | .routing j _ _ => j = k
  | .answering j _ _ => j = k
  | .failing j _ => j = k
  | .closing j => j = k

def Up (s : ServiceClient a) (k : Nat) : Prop := s.conn = some k ∧ k + 1 = s.dialed

def Down (s : ServiceClient a) : Prop := s.conn = none ∧ s.connected = false ∧ s.pumps = []

/-- The connection, its only pump, and the loop that waits for it. -/
def Linked (s : ServiceClient a) : Prop :=
  match s.loop with
  | .connecting => Down s
  | .waiting => Down s ∨ ∃ k p, Up s k ∧ s.connected = true ∧ s.pumps = [p] ∧ p.On k
  | .dialing => Down s
  | .installed _ => ∃ k, Up s k ∧ s.pumps = []
  | .marked _ => ∃ k, Up s k ∧ s.connected = true ∧ s.pumps = []
  | .cleared => ∃ k, Up s k ∧ s.connected = true ∧ s.pumps = []

theorem Linked.down (h : Linked s) (hloop : s.loop = .connecting ∨ s.loop = .dialing) :
    Down s := by
  unfold Linked at h
  rcases hloop with hloop | hloop
  · rw [hloop] at h
    exact h
  · rw [hloop] at h
    exact h

theorem Linked.alive (h : Linked s) {i : Nat} {p : Pump} (hp : s.pumps[i]? = some p) :
    i = 0 ∧ s.loop = .waiting ∧ s.connected = true ∧ s.pumps = [p] ∧ ∃ k, Up s k ∧ p.On k := by
  have hsome : s.pumps ≠ [] := by
    intro hnil
    rw [hnil] at hp
    cases hp
  unfold Linked at h
  split at h
  · exact absurd h.2.2 hsome
  · next hloop =>
    rcases h with h | ⟨k, q, hup, hconnected, hpumps, hon⟩
    · exact absurd h.2.2 hsome
    · rw [hpumps] at hp
      cases i with
      | zero =>
        cases hp
        exact ⟨rfl, hloop, hconnected, hpumps, k, hup, hon⟩
      | succ i => cases hp
  · exact absurd h.2.2 hsome
  · exact absurd h.choose_spec.2 hsome
  · exact absurd h.choose_spec.2.2 hsome
  · exact absurd h.choose_spec.2.2 hsome

/-- A send touches nothing but the calls. -/
theorem offer_eq (n : Nat) (r : Result) :
    ∃ calls, s.offer n r = { s with calls := calls } := by
  unfold ServiceClient.offer
  split
  · exact ⟨_, rfl⟩
  · split
    · exact ⟨_, rfl⟩
    · exact ⟨_, rfl⟩

theorem Turn.on {k : Nat} {e : PumpEvent} {p p' : Pump} (hturn : Turn s e p p')
    (hconn : s.conn = some k) (hon : p.On k) : p'.On k := by
  cases hturn with
  | start hk =>
    rw [hconn] at hk
    exact (Option.some.inj hk).symm
  | hear _ => exact hon
  | refusal => exact hon
  | unknown => exact hon
  | found _ => exact hon
  | lose _ => exact hon
  | release => exact hon

variable {n : Nat} {phase : Phase a} {r : Result} {c : Call a}

theorem Offer.on {k : Nat} {e : PumpEvent} {p p' : Pump} (hoffer : Offer e p p' n r) (hon : p.On k)
    : p'.On k := by
  cases hoffer with
  | answer => exact hon
  | fail _ => exact hon

theorem Linked.step (h : Linked s) (hs : Step s e s') : Linked s' := by
  -- a pump that goes on is the pump of the connection
  have hgo : ∀ {i : Nat} {p p' : Pump} {calls : List (Call a)}, s.pumps[i]? = some p →
      (∀ k, s.conn = some k → p.On k → p'.On k) →
      Linked (({ s with calls := calls } : ServiceClient a).setPump i p') := by
    intro i p p' calls hp hon
    obtain ⟨rfl, hloop, hconnected, hpumps, k, hup, hk⟩ := h.alive hp
    unfold Linked
    simp only [ServiceClient.setPump, hloop]
    refine .inr ⟨k, p', hup, hconnected, ?_, hon k hup.1 hk⟩
    rw [hpumps]
    rfl
  cases hs with
  | idle => exact h
  | enter _ _ => exact h
  | call _ _ => exact h
  | services _ => exact h
  | pump hp hturn => exact hgo hp fun k hconn hon => hturn.on hconn hon
  | @offer _ n _ _ _ r hp hoffer =>
    obtain ⟨calls, hcalls⟩ := offer_eq (s := s) n r
    rw [hcalls]
    exact hgo hp fun k _ hon => hoffer.on hon
  | stop hp hconn =>
    obtain ⟨-, -, -, -, k, hup, hon⟩ := h.alive hp
    rcases hconn with ⟨-, hnone⟩ | ⟨j, rfl, hne⟩
    · rw [hup.1] at hnone
      cases hnone
    · cases hon
      exact absurd hup.1 hne
  | close hp =>
    obtain ⟨rfl, hloop, -, hpumps, -⟩ := h.alive hp
    unfold Linked
    simp only [ServiceClient.endPump, hloop, hpumps]
    exact .inl ⟨rfl, rfl, rfl⟩
  | install hloop =>
    exact ⟨s.dialed, ⟨rfl, rfl⟩, (h.down hloop).2.2⟩
  | undialed hloop => exact Or.inl (h.down hloop)
  | poll hloop hlost =>
    unfold Linked at h
    rw [hloop] at h
    rcases h with hdown | ⟨k, p, -, hconnected, -⟩
    · exact hdown
    · rw [hlost] at hconnected
      cases hconnected
  | mark hloop =>
    unfold Linked at h
    rw [hloop] at h
    obtain ⟨k, hup, hpumps⟩ := h
    exact ⟨k, hup, rfl, hpumps⟩
  | clear hloop =>
    unfold Linked at h
    rw [hloop] at h
    obtain ⟨k, hup, hconnected, hpumps⟩ := h
    exact ⟨k, hup, hconnected, hpumps⟩
  | spawn hloop =>
    have hmarked : ∃ k, Up s k ∧ s.connected = true ∧ s.pumps = [] := by
      unfold Linked at h
      rcases hloop with hloop | hloop
      · rw [hloop] at h
        exact h
      · rw [hloop] at h
        exact h
    obtain ⟨k, hup, hconnected, hpumps⟩ := hmarked
    refine Or.inr ⟨k, .starting, hup, hconnected, ?_, trivial⟩
    show s.pumps ++ [.starting] = [.starting]
    rw [hpumps]
    rfl

/-! ## The calls after a step -/

def ServiceClient.phases (s : ServiceClient a) : List (Phase a) := s.calls.map Call.phase

theorem phases_get : s.phases[n]? = some phase ↔ ∃ c, s.calls[n]? = some c ∧ c.phase = phase := by
  unfold ServiceClient.phases
  rw [List.getElem?_map, Option.map_eq_some_iff]

theorem offer_phases (n : Nat) (r : Result) : (s.offer n r).phases = s.phases := by
  unfold ServiceClient.offer
  split
  · rfl
  · next c hget =>
    split
    · show (s.calls.set n _).map Call.phase = s.calls.map Call.phase
      refine List.ext_getElem? ?_
      intro m
      rw [List.getElem?_map, List.getElem?_map, List.getElem?_set]
      split
      · next heq =>
        subst heq
        rw [hget, if_pos (List.getElem?_eq_some_iff.1 hget).1]
        rfl
      · rfl
    · rfl

/-- The three things that can happen to phases, table and counter. -/
inductive Rephased (s : ServiceClient a) (e : Event a) (s' : ServiceClient a) : Prop where
  | same (hphases : s'.phases = s.phases) (hpending : s'.pendingSvc = s.pendingSvc)
      (hcounter : s'.callIDCounter = s.callIDCounter)
  | entered (phase : Phase a)
      (h : phase = .entered ∨ ∃ err, phase = .returned none (.error err))
      (hphases : s'.phases = s.phases ++ [phase]) (hpending : s'.pendingSvc = s.pendingSvc)
      (hcounter : s'.callIDCounter = s.callIDCounter)
  | moved {n : Nat} {c : Call a} {e' : CallEvent} {phase : Phase a} {respCh : Option Result}
      (he : e = .call n e') (h : s.calls[n]? = some c)
      (hmove : Move s n c e' phase respCh s'.pendingSvc s'.callIDCounter)
      (hphases : s'.phases = s.phases.set n phase)

theorem Step.rephased (hs : Step s e s') : Rephased s e s' := by
  cases hs with
  | @enter _ _ c h _ =>
    exact .entered c.phase h (by simp [ServiceClient.phases]) rfl rfl
  | call hget hmove =>
    exact .moved rfl hget hmove (by simp [ServiceClient.phases])
  | @offer _ n _ _ _ r _ _ =>
    obtain ⟨calls, hcalls⟩ := offer_eq (s := s) n r
    refine .same (offer_phases n r) ?_ ?_
    · rw [hcalls]
      rfl
    · rw [hcalls]
      rfl
  | _ => exact .same rfl rfl rfl

/-! ## Ids -/

/-- Every call has an id of its own, and the counter is at the last. -/
structure Numbers (s : ServiceClient a) : Prop where
  counted : s.callIDCounter.toNat = s.phases.countP fun phase => phase.callID.isSome
  low : ∀ (n : Nat) (phase : Phase a) (id : UInt32), s.phases[n]? = some phase →
    phase.callID = some id → id.toNat ≤ s.callIDCounter.toNat
  apart : ∀ (n m : Nat) (phase phase' : Phase a) (id : UInt32), s.phases[n]? = some phase →
    s.phases[m]? = some phase' → phase.callID = some id → phase'.callID = some id → n = m

theorem set_get {phases : List (Phase a)} {m : Nat} {phase' : Phase a}
    (h : (phases.set n phase')[m]? = some phase) :
    (m = n ∧ phase = phase') ∨ (m ≠ n ∧ phases[m]? = some phase) := by
  rw [List.getElem?_set] at h
  split at h
  · next heq =>
    split at h
    · exact .inl ⟨heq.symm, (Option.some.inj h).symm⟩
    · cases h
  · next hne => exact .inr ⟨fun heq => hne heq.symm, h⟩

theorem append_get {phases : List (Phase a)} {m : Nat} {phase' : Phase a}
    (h : (phases ++ [phase'])[m]? = some phase) :
    (m = phases.length ∧ phase = phase') ∨ phases[m]? = some phase := by
  rw [List.getElem?_append] at h
  split at h
  · exact .inr h
  · next hle =>
    rw [List.getElem?_singleton] at h
    split at h
    · next hzero => exact .inl ⟨by omega, (Option.some.inj h).symm⟩
    · cases h

/-- A call keeps its id, or has the next one. -/
theorem Move.callID {e' : CallEvent} {respCh : Option Result}
    {pending : AList fun _ : UInt32 => Nat} {counter : UInt32}
    (hmove : Move s n c e' phase respCh pending counter) :
    (phase.callID = c.phase.callID ∧ counter = s.callIDCounter) ∨
      (c.phase.callID = none ∧ phase.callID = some (s.callIDCounter + 1) ∧
        counter = s.callIDCounter + 1) := by
  cases hmove with
  | number h =>
    rw [h]
    exact .inr ⟨rfl, rfl, rfl⟩
  | prepared h =>
    rw [h]
    exact .inl ⟨rfl, rfl⟩
  | refused h =>
    rw [h]
    exact .inl ⟨rfl, rfl⟩
  | register h _ =>
    rw [h]
    exact .inl ⟨rfl, rfl⟩
  | unsent h =>
    rw [h]
    exact .inl ⟨rfl, rfl⟩
  | sent h _ _ =>
    rw [h]
    exact .inl ⟨rfl, rfl⟩
  | expire h =>
    rw [h]
    exact .inl ⟨rfl, rfl⟩
  | take h _ =>
    rw [h]
    exact .inl ⟨rfl, rfl⟩
  | leave h _ =>
    rw [h]
    exact .inl ⟨rfl, rfl⟩

theorem Numbers.step (h : Numbers s) (hs : Step s e s') (hfew : s.calls.length < 4294967296) :
    Numbers s' := by
  cases hs.rephased with
  | same hphases _ hcounter =>
    refine ⟨?_, ?_, ?_⟩
    · rw [hphases, hcounter]
      exact h.counted
    · rw [hphases, hcounter]
      exact h.low
    · rw [hphases]
      exact h.apart
  | entered phase hnew hphases _ hcounter =>
    have hnone : phase.callID = none := by
      rcases hnew with rfl | ⟨err, rfl⟩
      · rfl
      · rfl
    have hold : ∀ {n : Nat} {phase' : Phase a} {id : UInt32},
        (s.phases ++ [phase])[n]? = some phase' →
          phase'.callID = some id → s.phases[n]? = some phase' := by
      intro n phase' id hget hid
      rcases append_get hget with ⟨-, rfl⟩ | hget
      · rw [hnone] at hid
        cases hid
      · exact hget
    refine ⟨?_, ?_, ?_⟩
    · rw [hphases, hcounter, h.counted, List.countP_append]
      simp [hnone]
    · rw [hphases, hcounter]
      intro n phase' id hget hid
      exact h.low n phase' id (hold hget hid) hid
    · rw [hphases]
      intro n m phase' phase'' id hget hget' hid hid'
      exact h.apart n m phase' phase'' id (hold hget hid) (hold hget' hid') hid hid'
  | @moved n c e' phase respCh _ hget hmove hphases =>
    have hphase : s.phases[n]? = some c.phase := phases_get.2 ⟨c, hget, rfl⟩
    have hlt : n < s.phases.length := (List.getElem?_eq_some_iff.1 hphase).1
    have hat : s.phases[n] = c.phase := (List.getElem?_eq_some_iff.1 hphase).2
    have hcount := List.countP_set (p := fun phase : Phase a => phase.callID.isSome)
      (l := s.phases) (a := phase) hlt
    rw [hat] at hcount
    rcases hmove.callID with ⟨hsame, hcounter⟩ | ⟨hnone, hnew, hcounter⟩
    · -- ids and places stay as they are
      have hold : ∀ {m : Nat} {phase' : Phase a} {id : UInt32},
          (s.phases.set n phase)[m]? = some phase' → phase'.callID = some id →
            ∃ phase'', s.phases[m]? = some phase'' ∧ phase''.callID = some id := by
        intro m phase' id hm hid
        rcases set_get hm with ⟨rfl, rfl⟩ | ⟨-, hm⟩
        · exact ⟨c.phase, hphase, hsame ▸ hid⟩
        · exact ⟨phase', hm, hid⟩
      refine ⟨?_, ?_, ?_⟩
      · rw [hphases, hcounter, h.counted, hcount, hsame]
        split
        · next hsome =>
          have hpos : 0 < s.phases.countP fun phase => phase.callID.isSome :=
            List.countP_pos_iff.2 ⟨c.phase, List.mem_of_getElem? hphase, hsome⟩
          omega
        · rfl
      · rw [hphases, hcounter]
        intro m phase' id hm hid
        obtain ⟨phase'', hm, hid⟩ := hold hm hid
        exact h.low m phase'' id hm hid
      · rw [hphases]
        intro m m' phase' phase'' id hm hm' hid hid'
        obtain ⟨p, hm, hid⟩ := hold hm hid
        obtain ⟨p', hm', hid'⟩ := hold hm' hid'
        exact h.apart m m' p p' id hm hm' hid hid'
    · -- the counter does not wrap
      rw [hnone, hnew] at hcount
      have hle : (s.phases.set n phase).countP (fun phase => phase.callID.isSome) ≤
          s.calls.length := by
        have hlength : (s.phases.set n phase).length = s.calls.length := by
          rw [List.length_set]
          exact List.length_map _
        rw [← hlength]
        exact List.countP_le_length
      have hone : s'.callIDCounter.toNat = s.callIDCounter.toNat + 1 := by
        rw [hcounter, UInt32.toNat_add, h.counted]
        refine Nat.mod_eq_of_lt ?_
        simp at hcount
        show _ + 1 < 4294967296
        omega
      have hlow : ∀ {m : Nat} {phase' : Phase a} {id : UInt32}, s.phases[m]? = some phase' →
          phase'.callID = some id → id ≠ s.callIDCounter + 1 := by
        intro m phase' id hm hid heq
        have hm := h.low m phase' id hm hid
        rw [heq, ← hcounter] at hm
        omega
      refine ⟨?_, ?_, ?_⟩
      · rw [hphases, hone, h.counted, hcount]
        rfl
      · rw [hphases]
        intro m phase' id hm hid
        rcases set_get hm with ⟨-, rfl⟩ | ⟨-, hm⟩
        · rw [hnew] at hid
          rw [← Option.some.inj hid, hcounter]
        · have := h.low m phase' id hm hid
          omega
      · rw [hphases]
        intro m m' phase' phase'' id hm hm' hid hid'
        rcases set_get hm with ⟨heq, rfl⟩ | ⟨-, hold⟩
        · rcases set_get hm' with ⟨heq', -⟩ | ⟨-, hold'⟩
          · rw [heq, heq']
          · rw [hnew] at hid
            exact absurd (Option.some.inj hid).symm (hlow hold' hid')
        · rcases set_get hm' with ⟨-, rfl⟩ | ⟨-, hold'⟩
          · rw [hnew] at hid'
            exact absurd (Option.some.inj hid').symm (hlow hold hid)
          · exact h.apart m m' phase' phase'' id hold hold' hid hid'

/-! ## The table -/

/-- `pendingSvc` has the calls between their registration and their return. -/
def Listed (s : ServiceClient a) : Prop :=
  ∀ (id : UInt32) (n : Nat), s.pendingSvc.lookup id = some n ↔
    ∃ phase, s.phases[n]? = some phase ∧ phase.pendingID = some id

theorem callID_of_pending {id : UInt32} (h : phase.pendingID = some id) :
    phase.callID = some id := by
  cases phase with
  | registered _ _ _ => exact h
  | waiting _ _ => exact h
  | leaving _ _ => exact h
  | _ => cases h

theorem Listed.set (h : Listed s) (hget : s.calls[n]? = some c)
    (hphases : s'.phases = s.phases.set n phase) (hpending : s'.pendingSvc = s.pendingSvc)
    (hsame : phase.pendingID = c.phase.pendingID) : Listed s' := by
  have hphase : s.phases[n]? = some c.phase := phases_get.2 ⟨c, hget, rfl⟩
  have hlt : n < s.phases.length := (List.getElem?_eq_some_iff.1 hphase).1
  intro id m
  rw [hpending, h id m, hphases]
  by_cases hm : m = n
  · subst hm
    rw [hphase, List.getElem?_set_self hlt]
    simp [hsame]
  · rw [List.getElem?_set_ne fun heq => hm heq.symm]

theorem Listed.step (h : Listed s) (hnumbers : Numbers s) (hs : Step s e s') : Listed s' := by
  cases hs.rephased with
  | same hphases hpending _ =>
    intro id n
    rw [hphases, hpending]
    exact h id n
  | entered phase hnew hphases hpending _ =>
    have hnone : phase.pendingID = none := by
      rcases hnew with rfl | ⟨err, rfl⟩
      · rfl
      · rfl
    intro id n
    rw [hphases, hpending, h id n]
    constructor
    · rintro ⟨phase', hget, hid⟩
      exact ⟨phase', by rw [List.getElem?_append_left (List.getElem?_eq_some_iff.1 hget).1, hget],
        hid⟩
    · rintro ⟨phase', hget, hid⟩
      rcases append_get hget with ⟨-, rfl⟩ | hget
      · rw [hnone] at hid
        cases hid
      · exact ⟨phase', hget, hid⟩
  | @moved n c e' phase respCh _ hget hmove hphases =>
    have hphase : s.phases[n]? = some c.phase := phases_get.2 ⟨c, hget, rfl⟩
    have hlt : n < s.phases.length := (List.getElem?_eq_some_iff.1 hphase).1
    have hat : s'.phases[n]? = some phase := by
      rw [hphases, List.getElem?_set_self hlt]
    have hother : ∀ {m : Nat}, m ≠ n → s'.phases[m]? = s.phases[m]? := by
      intro m hm
      rw [hphases, List.getElem?_set_ne fun heq => hm heq.symm]
    generalize hpending : s'.pendingSvc = pending at hmove
    generalize s'.callIDCounter = counter at hmove
    cases hmove with
    | prepared hc => exact h.set hget hphases hpending (by rw [hc]; rfl)
    | refused hc => exact h.set hget hphases hpending (by rw [hc]; rfl)
    | number hc => exact h.set hget hphases hpending (by rw [hc]; rfl)
    | unsent hc => exact h.set hget hphases hpending (by rw [hc]; rfl)
    | sent hc _ _ => exact h.set hget hphases hpending (by rw [hc]; rfl)
    | expire hc => exact h.set hget hphases hpending (by rw [hc]; rfl)
    | take hc _ => exact h.set hget hphases hpending (by rw [hc]; rfl)
    | @register svc cdrData id hc _ =>
      -- the id is the call's own, so it takes no other's place
      intro id' m
      rw [hpending]
      by_cases hm : m = n
      · subst hm
        rw [hat]
        by_cases hid : id' = id
        · subst hid
          rw [AList.lookup_insert]
          simp [Phase.pendingID]
        · rw [AList.lookup_insert_ne hid, h id' m, hphase, hc]
          simp [Phase.pendingID, Ne.symm hid]
      · rw [hother hm]
        by_cases hid : id' = id
        · subst hid
          rw [AList.lookup_insert]
          constructor
          · intro heq
            exact absurd (Option.some.inj heq).symm hm
          · rintro ⟨phase', hget', hid⟩
            exact absurd (hnumbers.apart m n phase' c.phase id' hget' hphase
              (callID_of_pending hid) (by rw [hc]; rfl)) hm
        · rw [AList.lookup_insert_ne hid]
          exact h id' m
    | @leave id out hc _ =>
      intro id' m
      rw [hpending]
      by_cases hid : id' = id
      · subst hid
        rw [AList.lookup_erase]
        constructor
        · intro hnone
          cases hnone
        · rintro ⟨phase', hget', hid⟩
          by_cases hm : m = n
          · subst hm
            rw [hat] at hget'
            cases hget'
            cases hid
          · rw [hother hm] at hget'
            exact absurd (hnumbers.apart m n phase' c.phase id' hget' hphase
              (callID_of_pending hid) (by rw [hc]; rfl)) hm
      · rw [AList.lookup_erase_ne hid, h id' m]
        by_cases hm : m = n
        · subst hm
          rw [hat, hphase, hc]
          simp [Phase.pendingID, Ne.symm hid]
        · rw [hother hm]

/-! ## One call, one pump -/

/-- How a call came to be as it is after a step. -/
inductive Became (s : ServiceClient a) (n : Nat) (c' : Call a) : Event a → Prop where
  | entered {service : String} {args : a.Args}
      (h : c'.phase = .entered ∨ ∃ err, c'.phase = .returned none (.error err))
      (hch : c'.respCh = none) (hnew : s.calls[n]? = none) :
      Became s n c' (.callService service args)
  | moved {e : CallEvent} {c : Call a} {pending : AList fun _ : UInt32 => Nat}
      {counter : UInt32} (h : s.calls[n]? = some c)
      (hmove : Move s n c e c'.phase c'.respCh pending counter) : Became s n c' (.call n e)
  | kept {e : Event a} (h : s.calls[n]? = some c') : Became s n c' e
  | offered {i : Nat} {e : PumpEvent} {p p' : Pump} {c : Call a} {r : Result}
      (h : s.calls[n]? = some c) (hp : s.pumps[i]? = some p) (hoffer : Offer e p p' n r)
      (hempty : c.respCh = none) (hphase : c'.phase = c.phase) (hr : c'.respCh = some r) :
      Became s n c' (.pump i e)

theorem offer_get {m : Nat} {c' : Call a} (h : (s.offer n r).calls[m]? = some c') :
    s.calls[m]? = some c' ∨ (m = n ∧ ∃ c, s.calls[n]? = some c ∧ c.respCh = none ∧
      c' = { c with respCh := some r }) := by
  unfold ServiceClient.offer at h
  split at h
  · exact .inl h
  · next c hget =>
    split at h
    · next hempty =>
      have hset : (s.calls.set n { c with respCh := some r })[m]? = some c' := h
      rw [List.getElem?_set] at hset
      split at hset
      · next heq =>
        subst heq
        split at hset
        · exact .inr ⟨rfl, c, hget, hempty, (Option.some.inj hset).symm⟩
        · cases hset
      · exact .inl hset
    · exact .inl h

/-- After a send the channel is full. -/
theorem offer_full (h : (s.offer n r).calls[n]? = some c) : c.respCh ≠ none := by
  intro hempty
  rcases offer_get h with hget | ⟨-, c', -, -, rfl⟩
  · unfold ServiceClient.offer at h
    rw [hget] at h
    simp only [hempty, ServiceClient.setCall] at h
    rw [List.getElem?_set_self (List.getElem?_eq_some_iff.1 hget).1] at h
    have hfull : some r = c.respCh := congrArg Call.respCh (Option.some.inj h)
    rw [hempty] at hfull
    cases hfull
  · cases hempty

theorem Step.became (hs : Step s e s') {c' : Call a} (h : s'.calls[n]? = some c') :
    Became s n c' e := by
  cases hs with
  | @enter service args c hphase hch =>
    have hget : (s.calls ++ [c])[n]? = some c' := h
    rw [List.getElem?_append] at hget
    split at hget
    · exact .kept hget
    · next hle =>
      rw [List.getElem?_singleton] at hget
      split at hget
      · cases hget
        exact .entered hphase hch (List.getElem?_eq_none (Nat.le_of_not_lt hle))
      · cases hget
  | @call m e c phase respCh pending counter hget hmove =>
    have hset : (s.calls.set m { c with phase := phase, respCh := respCh })[n]? = some c' := h
    rw [List.getElem?_set] at hset
    split at hset
    · next heq =>
      subst heq
      split at hset
      · cases hset
        exact .moved hget hmove
      · cases hset
    · exact .kept hset
  | @offer i m e p p' r hp hoffer =>
    have hget : (s.offer m r).calls[n]? = some c' := h
    rcases offer_get hget with hold | ⟨rfl, c, hold, hempty, rfl⟩
    · exact .kept hold
    · exact .offered hold hp hoffer hempty rfl rfl
  | _ => exact .kept h

/-- How a pump came to be as it is after a step. -/
inductive Turned (s s' : ServiceClient a) (p' : Pump) : Event a → Prop where
  | spawned {e : Event a} (h : p' = .starting) : Turned s s' p' e
  | kept {e : Event a} (h : p' ∈ s.pumps) : Turned s s' p' e
  | turned {i : Nat} {e : PumpEvent} {p : Pump} (h : s.pumps[i]? = some p)
      (hturn : Turn s e p p') : Turned s s' p' (.pump i e)
  | offered {i n : Nat} {e : PumpEvent} {p : Pump} {r : Result} (h : s.pumps[i]? = some p)
      (hoffer : Offer e p p' n r)
      (hfull : ∀ c, s'.calls[n]? = some c → c.respCh ≠ none) : Turned s s' p' (.pump i e)

theorem Step.turned (hs : Step s e s') {p' : Pump} (h : p' ∈ s'.pumps) : Turned s s' p' e := by
  cases hs with
  | @pump i e p q hp hturn =>
    rcases List.mem_or_eq_of_mem_set (show p' ∈ s.pumps.set i q from h) with hmem | rfl
    · exact .kept hmem
    · exact .turned hp hturn
  | @offer i n e p q r hp hoffer =>
    obtain ⟨calls, hcalls⟩ := offer_eq (s := s) n r
    have hset : p' ∈ s.pumps.set i q := by
      have hmem : p' ∈ (s.offer n r).pumps.set i q := h
      rw [hcalls] at hmem
      exact hmem
    rcases List.mem_or_eq_of_mem_set hset with hmem | rfl
    · exact .kept hmem
    · exact .offered hp hoffer fun c hc => offer_full hc
  | stop _ _ => exact .kept (List.mem_of_mem_eraseIdx h)
  | close _ => exact .kept (List.mem_of_mem_eraseIdx h)
  | spawn _ =>
    rcases List.mem_append.1 h with hmem | hnew
    · exact .kept hmem
    · exact .spawned (List.mem_singleton.1 hnew)
  | _ => exact .kept h

end Calls
end Foxglove
end Mowgli
