import Mowgli.Fleet.Coordinator
import Mowgli.Fleet.Gone

/-!
# Agreement — a coordinator and the tree of its mower

One coordinator calls `fleet_yield` over a channel that may lose a call before or after it
was applied, or bring it when the coordinator no longer waits for it.

A tuple is `Gone` when no request can hold or resume it any more. **Every answer that ends a
yield leaves its tuple gone**, so a call that is still on its way finds nothing to do; that
is the theorem the invariant `Together` is for.
-/

namespace Mowgli
namespace Fleet

section

open Trace FleetYieldState

structure Call where
  operation : UInt8
  t : Identity

def Call.query : Call := { operation := QUERY, t := { epoch := "", id := "" } }

/-- The call the coordinator waits for, with what it will be told once it was applied. -/
inductive Phase
  | idle
  | querying (st : YieldState) (now : Time) (response : Option Response)
  | calling (now : Time) (response : Option Response)

structure System where
  tree : Tree
  yield : YieldState
  /-- How many request ids were made. -/
  minted : Nat
  phase : Phase
  /-- Calls that were given up and can still arrive. -/
  late : List Call

inductive Happening
  /-- The operator, the interlocks, the statuses. -/
  | callback (c : Callback)
  /-- A tick of the coordinator, with the settings and the fleet of that moment. -/
  | tick (s : CoordinatorSettings) (rows : Option (List FleetMember)) (now : Time)
  /-- The tree takes the call the coordinator waits for. -/
  | deliver (now : Interlocks) (saved : Bool)
  /-- Its response reaches the coordinator. -/
  | answer
  /-- The coordinator waits no longer. A call that was not applied is lost, or will be late. -/
  | fail (lost : Bool)
  | deliverLate (i : Nat) (now : Interlocks) (saved : Bool)
  | loseLate (i : Nat)

namespace System

variable (draw mint : Nat → String)

def boot (command : UInt8) : System :=
  { tree := .boot draw command, yield := .zero, minted := 0, phase := .idle, late := [] }

/-- The call of the coordinator's state. -/
def call (σ : System) : Call := { operation := σ.yield.operation, t := σ.yield.tuple }

def goOn (σ : System) (now : Time) : Next → System
  | .done st => { σ with yield := st, phase := .idle }
  | .query st => { σ with phase := .querying st now none }
  | .call st => { σ with yield := st, phase := .calling now none }

/-- The tree takes a call. -/
def apply (call : Call) (now : Interlocks) (saved : Bool) (σ : System) : System × Response :=
  let r := σ.tree.fleetYield draw call.operation call.t now saved
  ({ σ with tree := r.1 }, r.2)

def step (σ : System) : Happening → System
  | .callback c => { σ with tree := σ.tree.call draw c }
  | .tick s rows now =>
    match σ.phase, Fleet.tick σ.yield s rows now with
    | .idle, some next => σ.goOn now next
    | _, _ => σ
  | .deliver now saved =>
    match σ.phase with
    | .querying st t none =>
      let r := σ.apply draw .query now saved
      { r.1 with phase := .querying st t (some r.2) }
    | .calling t none =>
      let r := σ.apply draw σ.call now saved
      { r.1 with phase := .calling t (some r.2) }
    | _ => σ
  | .answer =>
    match σ.phase with
    | .querying st now (some response) =>
      { σ with minted := σ.minted + 1 }.goOn now (queried st now (mint σ.minted) (some response))
    | .calling now (some response) =>
      { σ with yield := answered σ.yield now (some response), phase := .idle }
    | _ => σ
  | .fail lost =>
    match σ.phase with
    | .querying st now response =>
      { σ with late := if lost || response.isSome then σ.late else .query :: σ.late }.goOn now
        (queried st now (mint σ.minted) none)
    | .calling now response =>
      { σ with
        late := if lost || response.isSome then σ.late else σ.call :: σ.late
        yield := answered σ.yield now none
        phase := .idle }
    | .idle => σ
  | .deliverLate i now saved =>
    match σ.late[i]? with
    | some call => ({ σ with late := σ.late.eraseIdx i }.apply draw call now saved).1
    | none => σ
  | .loseLate i => { σ with late := σ.late.eraseIdx i }

def run (σ : System) (happenings : List Happening) : System := happenings.foldl (step draw mint) σ

end System

end

/-!
## No hold that nobody owns, no restart behind the operator's back

What a step of the coordinator does to its state is `Continues`, unless it ends the yield or
begins one. `Together` ties the two sides: the tree's owner is the coordinator's tuple, and a
pause that is on its way late is that tuple's or gone.
-/

open Trace FleetYieldState

variable {draw mint : Nat → String}

/-! ## The coordinator's steps -/

namespace YieldState

variable {st st' st'' : YieldState}

/-- The pause of the tuple was answered. -/
def Confirmed (st : YieldState) : Prop := st.operation = RESUME ∨ st.pending = false

def Operates (st : YieldState) : Prop :=
  st.operation = PAUSE ∨ st.operation = RESUME ∨ st.operation = CANCEL

/-- A step that stays with its tuple. -/
structure Continues (st st' : YieldState) : Prop where
  yielded : st'.yielded = st.yielded
  tuple : st'.tuple = st.tuple
  operates : st.Operates → st'.Operates
  confirmed : st.Operates → st'.Confirmed → st.Confirmed

theorem Continues.trans (h : Continues st st') (h' : Continues st' st'') : Continues st st'' where
  yielded := h'.yielded.trans h.yielded
  tuple := h'.tuple.trans h.tuple
  operates ho := h'.operates (h.operates ho)
  confirmed ho hc := h.confirmed ho (h'.confirmed (h.operates ho) hc)

/-- The operation, its outcome and the tuple are as they were. -/
theorem Continues.of_eq (hyielded : st'.yielded = st.yielded) (htuple : st'.tuple = st.tuple)
    (hoperation : st'.operation = st.operation) (hpending : st'.pending = st.pending) :
    Continues st st' where
  yielded := hyielded
  tuple := htuple
  operates ho := by rw [Operates, hoperation]; exact ho
  confirmed _ hc := by rw [Confirmed, hoperation, hpending] at hc; exact hc

theorem watch_continues (self : FleetMember) (s : CoordinatorSettings) :
    Continues st (watch st self s) := by
  unfold watch
  dsimp only
  split
  · exact {
      yielded := by split <;> rfl
      tuple := by split <;> rfl
      operates := fun _ => .inr (.inr rfl)
      confirmed := fun _ hc => by
        rcases hc with hresume | hpending
        · exact absurd hresume (show CANCEL ≠ RESUME by decide)
        · cases hpending }
  · split
    · exact .of_eq rfl rfl rfl rfl
    · exact .of_eq rfl rfl rfl rfl

theorem resumeDue_continues (self : FleetMember) (peers : List FleetMember)
    (s : CoordinatorSettings) (now : Time) :
    Continues st (resumeDue st self peers s now).2 := by
  unfold resumeDue
  split
  · exact .of_eq rfl rfl rfl rfl
  split
  · exact .of_eq rfl rfl rfl rfl
  split
  · exact .of_eq rfl rfl rfl rfl
  · dsimp only
    split
    · exact .of_eq rfl rfl rfl rfl
    · exact .of_eq rfl rfl rfl rfl

end YieldState

open YieldState

variable {st : YieldState}

theorem attempt_continues (now : Time) :
    ∃ st', Continues st st' ∧ (attempt st now = .done st' ∨ attempt st now = .call st') := by
  unfold attempt
  split
  · exact ⟨st, .of_eq rfl rfl rfl rfl, .inl rfl⟩
  · refine ⟨_, ?_, .inr rfl⟩
    exact .of_eq rfl rfl rfl rfl

/-- A yielded step waits, or calls for its tuple. -/
theorem stepYield_yielded (hyielded : st.yielded = true) (hoperates : st.Operates)
    (self : FleetMember) (peers : List FleetMember) (s : CoordinatorSettings) (now : Time) :
    ∃ st', Continues st st' ∧ (stepYield st self peers s now = .done st' ∨
      stepYield st self peers s now = .call st') := by
  unfold stepYield
  rw [if_pos hyielded]
  have hwatch : Continues st (watch st self s) := watch_continues self s
  dsimp only
  split
  · rename_i hresumable
    have hdue := @resumeDue_continues (watch st self s) self peers s now
    have hwatched := hwatch.trans hdue
    split
    · exact ⟨_, hwatched, .inl rfl⟩
    · obtain ⟨st', hst', hnext⟩ := @attempt_continues
        { (resumeDue (watch st self s) self peers s now).2 with operation := RESUME, pending := true }
        now
      have hconfirmed : st.Confirmed := by
        apply hwatch.confirmed hoperates
        rcases hwatch.operates hoperates with hpause | hresume | hcancel
        · refine .inr ?_
          by_contra hpending
          exact hresumable.2 ⟨eq_true_of_ne_false hpending, hpause⟩
        · exact .inl hresume
        · exact absurd hcancel hresumable.1
      refine ⟨st', ?_, hnext⟩
      refine Continues.trans ?_ hst'
      exact {
        yielded := hwatched.yielded
        tuple := hwatched.tuple
        operates := fun _ => .inr (.inl rfl)
        confirmed := fun _ _ => hconfirmed }
  · obtain ⟨st', hst', hnext⟩ := @attempt_continues (watch st self s) now
    exact ⟨st', hwatch.trans hst', hnext⟩

/-- A step that is not yielded asks at most for the epoch. -/
theorem stepYield_idle (hidle : st.yielded = false) (self : FleetMember)
    (peers : List FleetMember) (s : CoordinatorSettings) (now : Time) :
    ∃ st', st'.yielded = false ∧ (stepYield st self peers s now = .done st' ∨
      stepYield st self peers s now = .query st') := by
  unfold stepYield
  rw [if_neg (by simp [hidle])]
  split
  · exact ⟨st, hidle, .inl rfl⟩
  dsimp only
  split
  · refine ⟨_, ?_, .inl rfl⟩
    exact hidle
  have hunblocked : (unblock st).yielded = false := by
    unfold unblock
    split
    · exact hidle
    · exact hidle
  split
  · exact ⟨_, hunblocked, .inl rfl⟩
  · exact ⟨_, hunblocked, .inr rfl⟩

/-- The tuple that a QUERY begins. -/
structure Begins (uuid : String) (res : Response) (st' : YieldState) : Prop where
  yielded : st'.yielded = true
  tuple : st'.tuple = { epoch := res.epoch, id := uuid }
  operation : st'.operation = PAUSE
  pending : st'.pending = true

theorem queried_begins (hidle : st.yielded = false) (now : Time) (uuid : String) (res : Response) :
    (∃ st', st'.yielded = false ∧ queried st now uuid (some res) = .done st') ∨
      ∃ st', Begins uuid res st' ∧ (queried st now uuid (some res) = .done st' ∨
        queried st now uuid (some res) = .call st') := by
  unfold queried
  dsimp only
  split
  · exact .inl ⟨{ st with blocked := true }, hidle, rfl⟩
  · unfold attempt
    split
    · exact .inr ⟨_, ⟨rfl, rfl, rfl, rfl⟩, .inl rfl⟩
    · exact .inr ⟨_, ⟨rfl, rfl, rfl, rfl⟩, .inr rfl⟩

theorem failed_continues (now : Time) : Continues st (answered st now none) := by
  unfold answered
  dsimp only
  split
  · exact .of_eq rfl rfl rfl rfl
  · exact .of_eq rfl rfl rfl rfl

/-- A yielded state goes on behind its call, or the answer ends the yield. -/
theorem answered_continues (hyielded : st.yielded = true) (now : Time) (res : Response) :
    (¬Ends st.operation res.result ∧ (answered st now (some res)).yielded = true ∧
      (answered st now (some res)).tuple = st.tuple ∧
      (answered st now (some res)).operation = st.operation) ∨
      (Ends st.operation res.result ∧ (answered st now (some res)).yielded = false) := by
  unfold answered
  dsimp only
  split
  · rename_i hheld
    exact .inl ⟨fun h => h.1 hheld, hyielded, rfl, rfl⟩
  rename_i hheld
  split
  · rename_i hresumed
    refine .inr ⟨⟨hheld, fun h => ?_⟩, rfl⟩
    rcases hresumed.2 with hr | hr
    · rw [hr] at h
      exact absurd h.2 (by decide)
    · rw [hr] at h
      exact absurd h.2 (by decide)
  split
  · rename_i hnotReady
    exact .inl ⟨fun h => h.2 hnotReady, hyielded, rfl, rfl⟩
  · rename_i hnotReady
    exact .inr ⟨⟨hheld, hnotReady⟩, rfl⟩

/-! ## The two sides together -/

/-- The call that waits for its response, and a response that waits. -/
def Phase.Agrees (draw : Nat → String) (σ : System) : Phase → Prop
  | .idle => True
  | .querying st _ response => σ.yield.yielded = false ∧ st.yielded = false ∧
      ∀ r, response = some r → Drawn draw r.epoch σ.tree.context.fleetYield
  | .calling _ response => σ.yield.yielded = true ∧ ∀ r, response = some r →
      (Ends σ.yield.operation r.result → Gone draw σ.yield.tuple σ.tree.context) ∧
        (σ.yield.operation = PAUSE → r.result = .HELD →
          Settled draw σ.yield.tuple σ.tree.context)

/-- A late pause is one of the tuple, or finds nothing. -/
def Call.Agrees (draw : Nat → String) (σ : System) (call : Call) : Prop :=
  call.operation = PAUSE →
    (σ.yield.yielded = true ∧ call.t = σ.yield.tuple) ∨ Gone draw call.t σ.tree.context

structure Together (draw : Nat → String) (σ : System) : Prop where
  sound : Sound draw σ.tree.context
  drawn : σ.yield.yielded = true → Drawn draw σ.yield.epoch σ.tree.context.fleetYield
  operates : σ.yield.yielded = true → σ.yield.Operates
  settled : σ.yield.yielded = true → σ.yield.Confirmed → Settled draw σ.yield.tuple σ.tree.context
  owner : ∀ t, σ.tree.context.fleetYield.owner = some t → σ.yield.yielded = true ∧ t = σ.yield.tuple
  late : ∀ call ∈ σ.late, call.Agrees draw σ
  phase : σ.phase.Agrees draw σ

namespace Together

variable {σ : System}

theorem boot (command : UInt8) : Together draw (.boot draw command) where
  sound := {
    current := ⟨Nat.one_pos, rfl⟩
    epoch := fun _ ht => nomatch ht
    formed := fun _ ht => nomatch ht
    unblocked := fun ho => nomatch ho
    stopped := fun ho => nomatch ho
    completed := fun _ ht => nomatch ht }
  drawn hy := nomatch hy
  operates hy := nomatch hy
  settled hy := nomatch hy
  owner _ ht := nomatch ht
  late _ hcall := nomatch hcall
  phase := trivial

/-- Another phase, and other calls on their way. -/
theorem reset (h : Together draw σ) {σ' : System} (htree : σ'.tree = σ.tree)
    (hyield : σ'.yield = σ.yield) (hlate : ∀ call ∈ σ'.late, call.Agrees draw σ')
    (hphase : σ'.phase.Agrees draw σ') : Together draw σ' where
  sound := by rw [htree]; exact h.sound
  drawn := by rw [htree, hyield]; exact h.drawn
  operates := by rw [hyield]; exact h.operates
  settled := by rw [htree, hyield]; exact h.settled
  owner := by rw [htree, hyield]; exact h.owner
  late := hlate
  phase := hphase

/-- The tree goes on by itself, and nobody new comes to own the stop. -/
theorem evolve (h : Together draw σ) {m : Tree} (he : Evolves draw σ.tree.context m.context)
    (howner : ∀ t, m.context.fleetYield.owner = some t →
      σ.tree.context.fleetYield.owner = some t ∨ (σ.yield.yielded = true ∧ t = σ.yield.tuple)) :
    Together draw { σ with tree := m } where
  sound := he.sound
  drawn hy := (h.drawn hy).mono he.drawn
  operates := h.operates
  settled hy hc := he.keeps (h.settled hy hc)
  owner t ht := by
    rcases howner t ht with hbefore | htuple
    · exact h.owner t hbefore
    · exact htuple
  late call hcall hpause := by
    rcases h.late call hcall hpause with htuple | hgone
    · exact .inl htuple
    · exact .inr (he.gone _ hgone)
  phase := by
    have hphase := h.phase
    show σ.phase.Agrees draw _
    cases hp : σ.phase with
    | idle => trivial
    | querying st now response =>
      rw [hp] at hphase
      exact ⟨hphase.1, hphase.2.1, fun r hr => (hphase.2.2 r hr).mono he.drawn⟩
    | calling now response =>
      rw [hp] at hphase
      refine ⟨hphase.1, fun r hr => ?_⟩
      obtain ⟨hends, hheld⟩ := hphase.2 r hr
      exact ⟨fun he' => he.gone _ (hends he'), fun hop hr' => he.keeps (hheld hop hr')⟩

variable {phase : Phase} {res : Response}

/-- The coordinator stays with its tuple. -/
theorem stay (h : Together draw σ) {st : YieldState} (hyielded : σ.yield.yielded = true)
    (hst : st.yielded = true) (htuple : st.tuple = σ.yield.tuple) (hoperates : st.Operates)
    (hsettled : st.Confirmed → Settled draw σ.yield.tuple σ.tree.context)
    (hphase : phase.Agrees draw { σ with yield := st, phase := phase }) :
    Together draw { σ with yield := st, phase := phase } where
  sound := h.sound
  drawn _ := by
    have hepoch : st.epoch = σ.yield.epoch := congrArg Identity.epoch htuple
    show Drawn draw st.epoch _
    rw [hepoch]
    exact h.drawn hyielded
  operates _ := hoperates
  settled _ hc := by
    show Settled draw st.tuple _
    rw [htuple]
    exact hsettled hc
  owner t ht := ⟨hst, (h.owner t ht).2.trans htuple.symm⟩
  late call hcall hpause := by
    rcases h.late call hcall hpause with ⟨_, hcalled⟩ | hgone
    · exact .inl ⟨hst, hcalled.trans htuple.symm⟩
    · exact .inr hgone
  phase := hphase

theorem carryOn (h : Together draw σ) {st : YieldState} (hyielded : σ.yield.yielded = true)
    (hst : Continues σ.yield st) (hphase : phase.Agrees draw { σ with yield := st, phase := phase })
    : Together draw { σ with yield := st, phase := phase } :=
  h.stay hyielded (hst.yielded.trans hyielded) hst.tuple (hst.operates (h.operates hyielded))
    (fun hc => h.settled hyielded (hst.confirmed (h.operates hyielded) hc)) hphase

theorem nobody (h : Together draw σ) (hidle : σ.yield.yielded = false) :
    σ.tree.context.fleetYield.owner = none := by
  cases ho : σ.tree.context.fleetYield.owner with
  | none => rfl
  | some t =>
    have hy := (h.owner t ho).1
    rw [hidle] at hy
    cases hy

/-- The yield is over, and its tuple is gone. -/
theorem leave (distinct : Function.Injective draw) (h : Together draw σ) {st : YieldState}
    (hidle : st.yielded = false) (hgone : σ.yield.yielded = true → Gone draw σ.yield.tuple σ.tree.context)
    {phase : Phase} (hphase : phase.Agrees draw { σ with yield := st, phase := phase }) :
    Together draw { σ with yield := st, phase := phase } where
  sound := h.sound
  drawn hy := by rw [hidle] at hy; cases hy
  operates hy := by rw [hidle] at hy; cases hy
  settled hy := by rw [hidle] at hy; cases hy
  owner t ht := by
    obtain ⟨hy, rfl⟩ := h.owner t ht
    exact absurd ht ((hgone hy).owner_ne distinct h.sound)
  late call hcall hpause := by
    rcases h.late call hcall hpause with ⟨hy, htuple⟩ | hgone'
    · exact .inr (htuple ▸ hgone hy)
    · exact .inr hgone'
  phase := hphase

/-- A yield begins, with an epoch of the tree. -/
theorem begin (h : Together draw σ) (hidle : σ.yield.yielded = false) {st : YieldState}
    {uuid : String} (hst : Begins uuid res st)
    (hdrawn : Drawn draw res.epoch σ.tree.context.fleetYield)
    (hphase : phase.Agrees draw { σ with yield := st, phase := phase }) :
    Together draw { σ with yield := st, phase := phase } where
  sound := h.sound
  drawn _ := by
    have hepoch : st.epoch = res.epoch := congrArg Identity.epoch hst.tuple
    show Drawn draw st.epoch _
    rw [hepoch]
    exact hdrawn
  operates _ := .inl hst.operation
  settled _ hc := by
    rcases hc with hresume | hpending
    · exact absurd (hst.operation.symm.trans hresume) (by decide)
    · exact absurd (hst.pending.symm.trans hpending) (by decide)
  owner t ht := by
    rw [h.nobody hidle] at ht
    cases ht
  late call hcall hpause := by
    rcases h.late call hcall hpause with ⟨hy, _⟩ | hgone
    · rw [hidle] at hy
      cases hy
    · exact .inr hgone
  phase := hphase

/-! ### The happenings -/

theorem tick_stepYield {st : YieldState} {s : CoordinatorSettings}
    {rows : Option (List FleetMember)} {now : Time} {next : Next}
    (h : Fleet.tick st s rows now = some next) :
    ∃ self peers, next = stepYield st self peers s now := by
  unfold Fleet.tick at h
  split at h
  · cases h
    exact ⟨_, _, rfl⟩
  cases rows with
  | none =>
    dsimp only at h
    split at h
    · cases h
      exact ⟨_, _, rfl⟩
    · cases h
  | some members =>
    cases h
    exact ⟨_, _, rfl⟩

theorem ticked (distinct : Function.Injective draw) (h : Together draw σ) (self : FleetMember)
    (peers : List FleetMember) (s : CoordinatorSettings) (now : Time) :
    Together draw (σ.goOn now (stepYield σ.yield self peers s now)) := by
  by_cases hyielded : σ.yield.yielded = true
  · obtain ⟨st, hst, hnext⟩ := stepYield_yielded hyielded (h.operates hyielded) self peers s now
    rcases hnext with hdone | hcall
    · rw [hdone]
      exact h.carryOn hyielded hst trivial
    · rw [hcall]
      exact h.carryOn hyielded hst ⟨hst.yielded.trans hyielded, nofun⟩
  · have hidle : σ.yield.yielded = false := eq_false_of_ne_true hyielded
    obtain ⟨st, hst, hnext⟩ := stepYield_idle hidle self peers s now
    rcases hnext with hdone | hquery
    · rw [hdone]
      exact h.leave distinct hst (fun hy => absurd hy hyielded) trivial
    · rw [hquery]
      exact h.reset rfl rfl h.late ⟨hidle, hst, nofun⟩

theorem began (distinct : Function.Injective draw) (h : Together draw σ) {st : YieldState}
    (hidle : σ.yield.yielded = false) (hst : st.yielded = false)
    (hdrawn : Drawn draw res.epoch σ.tree.context.fleetYield) (now : Time) (uuid : String) :
    Together draw (σ.goOn now (queried st now uuid (some res))) := by
  have hnot : σ.yield.yielded = true → Gone draw σ.yield.tuple σ.tree.context := fun hy => by
    rw [hidle] at hy
    cases hy
  rcases queried_begins hst now uuid res with ⟨st', hst', hdone⟩ | ⟨st', hbegins, hdone | hcall⟩
  · rw [hdone]
    exact h.leave distinct hst' hnot trivial
  · rw [hdone]
    exact h.begin hidle hbegins hdrawn trivial
  · rw [hcall]
    exact h.begin hidle hbegins hdrawn ⟨hbegins.yielded, nofun⟩

theorem told (distinct : Function.Injective draw) (h : Together draw σ) {now : Time}
    (hphase : σ.phase = .calling now (some res)) :
    Together draw { σ with yield := answered σ.yield now (some res), phase := .idle } := by
  have hagrees := h.phase
  rw [hphase] at hagrees
  obtain ⟨hyielded, hres⟩ := hagrees
  obtain ⟨hends, hheld⟩ := hres res rfl
  rcases answered_continues hyielded now res with ⟨hnot, hst, htuple, hoperation⟩ | ⟨hend, hst⟩
  · refine h.stay hyielded hst htuple ?_ (fun _ => ?_) trivial
    · rw [Operates, hoperation]
      exact h.operates hyielded
    · rcases not_and_or.1 hnot with hpause | hresume
      · exact hheld (not_not.1 hpause).1 (not_not.1 hpause).2
      · exact h.settled hyielded (.inl (not_not.1 hresume).1)
  · exact h.leave distinct hst (fun _ => hends hend) trivial

theorem delivered (distinct : Function.Injective draw) (h : Together draw σ) {call : Call}
    (hcall : call.Agrees draw σ) (now : Interlocks) (saved : Bool) :
    Together draw { σ with tree := (σ.tree.fleetYield draw call.operation call.t now saved).1 } := by
  have he := Tree.fleetYield_evolves call.operation call.t now saved h.sound
  refine h.evolve he fun t ht => ?_
  rcases Tree.fleetYield_owner ht with hbefore | ⟨hop, rfl⟩
  · exact .inl hbefore
  · rcases hcall hop with htuple | hgone
    · exact .inr htuple
    · exact absurd ht ((he.gone _ hgone).owner_ne distinct he.sound)

/-- A call that is given up may be late. -/
theorem givenUp (h : Together draw σ) {call : Call} (hcall : call.Agrees draw σ) (lost : Bool) :
    Together draw { σ with late := if lost then σ.late else call :: σ.late } := by
  refine h.reset rfl rfl (fun c hc => ?_) h.phase
  cases lost with
  | true => exact h.late c hc
  | false =>
    rcases List.mem_cons.1 hc with rfl | hc
    · exact hcall
    · exact h.late c hc

theorem step (distinct : Function.Injective draw) (h : Together draw σ) (happening : Happening) :
    Together draw (σ.step draw mint happening) := by
  unfold System.step
  cases happening with
  | callback c =>
    exact h.evolve (Tree.call_evolves c h.sound) fun t ht => .inl (Tree.call_owner ht)
  | tick s rows now =>
    dsimp only
    split
    · rename_i htick
      obtain ⟨self, peers, rfl⟩ := tick_stepYield htick
      exact h.ticked distinct self peers s now
    · exact h
  | deliver now saved =>
    dsimp only
    split
    · rename_i st t hphase
      have hagrees := h.phase
      rw [hphase] at hagrees
      have hquery : Call.query.Agrees draw σ := fun hop => absurd hop (by decide)
      have hdelivered := h.delivered distinct hquery now saved
      refine hdelivered.reset rfl rfl hdelivered.late ⟨hagrees.1, hagrees.2.1, fun r hr => ?_⟩
      cases hr
      show Drawn draw (Tree.fleetYield draw _ _ _ _ _).2.epoch _
      rw [Tree.fleetYield_epoch]
      exact hdelivered.sound.current.drawn
    · rename_i t hphase
      have hagrees := h.phase
      rw [hphase] at hagrees
      have hyielded : σ.yield.yielded = true := hagrees.1
      have hcall : σ.call.Agrees draw σ := fun _ => .inl ⟨hyielded, rfl⟩
      have hdelivered := h.delivered distinct hcall now saved
      refine hdelivered.reset rfl rfl hdelivered.late ⟨hyielded, fun r hr => ?_⟩
      cases hr
      exact Tree.fleetYield_ends h.sound (h.operates hyielded) (h.drawn hyielded)
        fun hop => h.settled hyielded (.inl hop)
    · exact h
  | answer =>
    dsimp only
    split
    · rename_i st now response hphase
      have hagrees := h.phase
      rw [hphase] at hagrees
      have hminted : Together draw { σ with minted := σ.minted + 1 } :=
        h.reset rfl rfl h.late h.phase
      exact hminted.began distinct hagrees.1 hagrees.2.1 (hagrees.2.2 response rfl) now _
    · rename_i now response hphase
      exact h.told distinct hphase
    · exact h
  | fail lost =>
    dsimp only
    split
    · rename_i st now response hphase
      have hagrees := h.phase
      rw [hphase] at hagrees
      have hquery : Call.query.Agrees draw σ := fun hop => absurd hop (by decide)
      refine (h.givenUp hquery (lost || response.isSome)).leave distinct hagrees.2.1 (fun hy => ?_)
        trivial
      exact absurd (hagrees.1.symm.trans hy) (by decide)
    · rename_i now response hphase
      have hagrees := h.phase
      rw [hphase] at hagrees
      have hcall : σ.call.Agrees draw σ := fun _ => .inl ⟨hagrees.1, rfl⟩
      exact (h.givenUp hcall (lost || response.isSome)).carryOn hagrees.1
        (failed_continues now) trivial
    · exact h
  | deliverLate i now saved =>
    dsimp only
    split
    · rename_i call hcall
      have hmem : call ∈ σ.late := List.mem_of_getElem? hcall
      have herased : Together draw { σ with late := σ.late.eraseIdx i } :=
        h.reset rfl rfl (fun call hc => h.late call (List.mem_of_mem_eraseIdx hc)) h.phase
      exact herased.delivered distinct (h.late call hmem) now saved
    · exact h
  | loseLate i =>
    exact h.reset rfl rfl (fun call hc => h.late call (List.mem_of_mem_eraseIdx hc)) h.phase

theorem run (distinct : Function.Injective draw) (h : Together draw σ)
    (happenings : List Happening) : Together draw (σ.run draw mint happenings) := by
  induction happenings generalizing σ with
  | nil => exact h
  | cons happening happenings ih => exact ih (h.step distinct happening)

end Together

end Fleet
end Mowgli
