import Mowgli.Fleet.Tree

/-!
# Ownership — motion restarts only for the one who stopped it

`Turn` is what one operation can do to a mower's fleet stop. Everything that **draws an epoch
leaves nobody an owner**, and every change of the command that `apply` makes is under the
epoch of the moment; so a request from before a revoke finds nothing to change.

What the log must say of an owner is `Holding`: its pause is in the log, and since then there
was nothing but the statuses on the way to the stop hold. It is the invariant a run keeps.
-/

namespace Mowgli
namespace Fleet

open Trace

variable {draw : Nat → String}

namespace FleetYieldState

variable {s s' s'' : FleetYieldState}

/-! ## Drawing an epoch -/

/-- The epoch is the last one drawn. -/
def Current (draw : Nat → String) (s : FleetYieldState) : Prop :=
  0 < s.drawn ∧ s.epoch = draw (s.drawn - 1)

/-- An epoch was drawn, and nobody owns the stop. -/
structure Drew (draw : Nat → String) (s s' : FleetYieldState) : Prop where
  later : s.drawn < s'.drawn
  current : s'.Current draw
  nobody : s'.owner = none
  completed : ∀ t, s'.completed = some t → s.completed = some t

theorem freshEpoch_current : (freshEpoch draw s).Current draw :=
  ⟨Nat.succ_pos _, rfl⟩

theorem revoke_drew : Drew draw s (revoke draw s) where
  later := Nat.lt_succ_self _
  current := freshEpoch_current
  nobody := rfl
  completed _ h := nomatch h

theorem Drew.trans (h : Drew draw s s') (h' : Drew draw s' s'') : Drew draw s s'' where
  later := Nat.lt_trans h.later h'.later
  current := h'.current
  nobody := h'.nobody
  completed t ht := h.completed t (h'.completed t ht)

/-- The fields that an epoch is not about. -/
theorem Drew.set (h : Drew draw s s') (hdrawn : s''.drawn = s'.drawn) (hepoch : s''.epoch = s'.epoch)
    (howner : s''.owner = s'.owner) (hcompleted : s''.completed = s'.completed) :
    Drew draw s s'' where
  later := by rw [hdrawn]; exact h.later
  current := by rw [Current, hdrawn, hepoch]; exact h.current
  nobody := howner.trans h.nobody
  completed t ht := h.completed t (hcompleted ▸ ht)

theorem observeInterlock_turn (blocked : Bool) :
    observeInterlock draw blocked s = s ∨ Drew draw s (observeInterlock draw blocked s) := by
  unfold observeInterlock
  split
  · exact .inr (revoke_drew.set rfl rfl rfl rfl)
  · exact .inl rfl

theorem safetyHold_turn : safetyHold draw s = s ∨ Drew draw s (safetyHold draw s) := by
  unfold safetyHold
  split
  · exact .inr (revoke_drew.set rfl rfl rfl rfl)
  · rename_i h
    simp only [Bool.or_eq_true, not_or, Bool.not_eq_true] at h
    left
    rw [← h.2]

theorem observeEligible_turn (hnobody : s.owner = none) (eligible : Bool) :
    observeEligible draw eligible s = s ∨ Drew draw s (observeEligible draw eligible s) := by
  unfold observeEligible
  split
  · right
    split
    · exact revoke_drew.set rfl rfl rfl rfl
    · exact {
        later := Nat.lt_succ_self _
        current := freshEpoch_current
        nobody := hnobody
        completed := fun _ h => h }
  · exact .inl rfl

end FleetYieldState

/-! ## What one operation can do -/

open FleetYieldState

/-- The three ways to leave the yield state: a write of the command, the STOP of the
    maintenance gate, and nothing at all. -/
def Op.Leaves (op : Op) (before after : UInt8) : Prop :=
  op = .setCommand after ∨ (after = 8 ∧ ∃ now, op = .refresh now) ∨ after = before

variable {operation : UInt8} {t : Identity}

theorem Op.Leaves.apply {op : Op} {before after : UInt8} (h : op.Leaves before after)
    (hop : op = .apply operation t) : after = before := by
  subst hop
  rcases h with h | ⟨_, _, h⟩ | h
  · cases h
  · cases h
  · exact h

/-- Everything an operation can do to the context. -/
inductive Turn (draw : Nat → String) (op : Op) (c : Context) : Context → Prop
  | drew {c' : Context} : Drew draw c.fleetYield c'.fleetYield →
      (∀ operation t, op = .apply operation t →
        t.epoch = c.fleetYield.epoch ∧ c'.currentCommand = c.currentCommand) →
      Turn draw op c c'
  | kept {command : UInt8} :
      op.Leaves c.currentCommand command →
      (∀ state name, op = .observeStatus state name → c.fleetYield.owner.isSome →
        c.fleetYield.ready = false ∧ (autonomous state name || debouncedIdle state name)) →
      Turn draw op c { currentCommand := command, fleetYield := c.fleetYield }
  | stood {state : UInt8} {name : String} : op = .observeStatus state name → stopHold state name →
      Turn draw op c { c with fleetYield :=
        { c.fleetYield with ready := true, statusEligible := false } }
  | paused {t : Identity} : op = .apply PAUSE t → ¬t.Malformed → c.fleetYield.blocked = false →
      t.epoch = c.fleetYield.epoch → c.fleetYield.owner = none → c.currentCommand = 1 →
      c.fleetYield.statusEligible = true →
      Turn draw op c { currentCommand := 8, fleetYield :=
        { c.fleetYield with owner := some t, ready := false } }
  | resumed {t : Identity} : op = .apply RESUME t → c.fleetYield.blocked = false →
      t.epoch = c.fleetYield.epoch → c.fleetYield.owner = some t → c.currentCommand = 8 →
      c.fleetYield.ready = true →
      Turn draw op c (Context.mk 1
        (freshEpoch draw { c.fleetYield with completed := some t, owner := none, ready := false }))

/-- An operation that is no request and no status, and leaves the yield state or draws. -/
theorem Turn.of_drew {op : Op} {c c' : Context}
    (h : c'.fleetYield = c.fleetYield ∨ Drew draw c.fleetYield c'.fleetYield)
    (hcommand : op.Leaves c.currentCommand c'.currentCommand)
    (hstatus : ∀ state name, op = .observeStatus state name → c.fleetYield.owner.isSome = false)
    (happly : ∀ operation t, op ≠ .apply operation t) : Turn draw op c c' := by
  rcases h with hkept | hdrew
  · obtain ⟨command, s⟩ := c'
    subst hkept
    refine .kept hcommand fun state name h howner => ?_
    rw [hstatus state name h] at howner
    exact absurd howner (by simp)
  · exact .drew hdrew fun operation t h => absurd h (happly operation t)

theorem Turn.status (c : Context) (state : UInt8) (name : String) :
    Turn draw (.observeStatus state name) c (Op.run draw c (.observeStatus state name)) := by
  unfold Op.run observeStatus
  dsimp only
  by_cases howner : c.fleetYield.owner.isSome = true
  · rw [if_pos howner]
    by_cases hstood : stopHold state name = true
    · rw [if_pos hstood]
      exact .stood rfl hstood
    rw [if_neg hstood]
    by_cases hwait : (!c.fleetYield.ready &&
        (autonomous state name || debouncedIdle state name)) = true
    · rw [if_pos hwait]
      refine .kept (.inr (.inr rfl)) fun state' name' h _ => ?_
      cases h
      simpa using hwait
    · rw [if_neg hwait]
      refine .drew ?_ fun _ _ h => nomatch h
      have hnobody : (revoke draw c.fleetYield).owner = none := rfl
      rcases @observeEligible_turn draw _ hnobody (autonomous state name) with h | h
      · show Drew draw c.fleetYield (observeEligible draw _ _)
        rw [h]
        exact revoke_drew
      · exact revoke_drew.trans h
  · rw [if_neg howner]
    refine .of_drew (observeEligible_turn ?_ _) (.inr (.inr rfl)) (fun _ _ _ => ?_)
      fun _ _ h => nomatch h
    · simpa using howner
    · simpa using howner

theorem Turn.apply (c : Context) (operation : UInt8) (t : Identity) :
    Turn draw (.apply operation t) c (Op.run draw c (.apply operation t)) := by
  have happlied := apply_applied draw operation t c.currentCommand c.fleetYield
  unfold Op.run
  dsimp only
  generalize FleetYieldState.apply draw operation t c.currentCommand c.fleetYield = r at happlied
  cases happlied with
  | refused _ => exact .kept (.inr (.inr rfl)) fun _ _ h => nomatch h
  | cancelled _ hepoch =>
    refine .drew revoke_drew fun _ t' h => ?_
    cases h
    exact ⟨hepoch, rfl⟩
  | lost _ hepoch _ =>
    refine .drew revoke_drew fun _ t' h => ?_
    cases h
    exact ⟨hepoch, rfl⟩
  | paused hop hformed hblocked hepoch howner hcommand heligible =>
    subst hop
    exact .paused rfl hformed hblocked hepoch howner hcommand heligible
  | resumed hop hblocked hepoch howner hcommand hready =>
    subst hop
    exact .resumed rfl hblocked hepoch howner hcommand hready

theorem Op.turn (op : Op) (c : Context) : Turn draw op c (op.run draw c) := by
  cases op with
  | revoke =>
    exact .of_drew (.inr revoke_drew) (.inr (.inr rfl)) (fun _ _ h => nomatch h)
      fun _ _ h => nomatch h
  | refresh now =>
    refine .of_drew (observeInterlock_turn now.any) ?_ (fun _ _ h => nomatch h)
      fun _ _ h => nomatch h
    by_cases hmaintenance : now.maintenance = true
    · exact .inr (.inl ⟨if_pos hmaintenance, now, rfl⟩)
    · exact .inr (.inr (if_neg hmaintenance))
  | safetyHold =>
    exact .of_drew safetyHold_turn (.inr (.inr rfl)) (fun _ _ h => nomatch h)
      fun _ _ h => nomatch h
  | observeStatus state name => exact .status c state name
  | apply operation t => exact .apply c operation t
  | setCommand command =>
    exact .of_drew (.inl rfl) (.inl rfl) (fun _ _ h => nomatch h) fun _ _ h => nomatch h

/-! ## What the log says -/

/-- The entry's operation is no status other than one of these. -/
def Op.Shows (these : UInt8 → String → Bool) : Op → Prop
  | .observeStatus state name => these state name
  | _ => True

instance {these : UInt8 → String → Bool} (op : Op) : Decidable (op.Shows these) := by
  unfold Op.Shows
  split <;> infer_instance

theorem Op.Shows.of {these : UInt8 → String → Bool} {op : Op}
    (h : ∀ state name, op = .observeStatus state name → these state name) : op.Shows these := by
  cases op with
  | observeStatus state name => exact h state name rfl
  | _ => trivial

namespace Entry

/-- `apply` stopped the mower for `t`. -/
def Pauses (t : Identity) (i : Entry) : Prop :=
  i.op = .apply PAUSE t ∧ i.before.currentCommand = 1 ∧ i.after.currentCommand = 8

/-- `apply` set the mower going again for `t`. -/
def Resumes (t : Identity) (i : Entry) : Prop :=
  i.op = .apply RESUME t ∧ i.before.currentCommand = 8 ∧ i.after.currentCommand = 1

/-- `revoke` was called, or another epoch was drawn. -/
def Revokes (i : Entry) : Prop := i.before.fleetYield.drawn < i.after.fleetYield.drawn

/-- No epoch was drawn, the interlock is as it was, and a status is one of these. -/
def Undisturbed (these : UInt8 → String → Bool) (i : Entry) : Prop :=
  ¬i.Revokes ∧ i.after.fleetYield.blocked = i.before.fleetYield.blocked ∧ i.op.Shows these

/-- The status of the stop hold was observed. -/
def Stands (i : Entry) : Prop :=
  match i.op with
  | .observeStatus state name => stopHold state name
  | _ => False

/-- The epoch was drawn before the entry. -/
def Issued (draw : Nat → String) (epoch : String) (i : Entry) : Prop :=
  ∃ k < i.before.fleetYield.drawn, draw k = epoch

end Entry

/-- The pause of `t` is in the log, and nothing since but `these` statuses. -/
def Paused (these : UInt8 → String → Bool) (t : Identity) (log : List Entry) : Prop :=
  Since (Entry.Undisturbed these) (fun i _ => i.Pauses t) log

/-- The stop hold of `t` was observed after that, and since then nothing else. -/
def Stood (these : UInt8 → String → Bool) (t : Identity) (log : List Entry) : Prop :=
  Since (Entry.Undisturbed stopHold)
    (fun i past => i.Stands ∧ i.Undisturbed stopHold ∧ Paused these t past) log

/-- `apply` restarts the mower only on the RESUME of the tuple that stopped it. -/
def RestartsRightly (these : UInt8 → String → Bool) (i : Entry) (past : List Entry) : Prop :=
  ∀ operation t, i.op = .apply operation t → i.before.currentCommand ≠ 1 →
    i.after.currentCommand = 1 → operation = RESUME ∧ i.before.currentCommand = 8 ∧
      i.before.fleetYield.blocked = false ∧ Stood these t past

/-- `t` paused, and since then nobody else intervened. -/
def Kept (t : Identity) (log : List Entry) : Prop := Paused (fun _ _ => true) t log

theorem Entry.Undisturbed.mono {these those : UInt8 → String → Bool} {i : Entry}
    (h : i.Undisturbed these) (hle : ∀ state name, these state name → those state name) :
    i.Undisturbed those :=
  ⟨h.1, h.2.1, Op.Shows.of fun state name hop => by
    have hshows := h.2.2
    rw [hop] at hshows
    exact hle state name hshows⟩

theorem Stood.kept {these : UInt8 → String → Bool} {t : Identity} {log : List Entry}
    (h : Stood these t log) : Kept t log :=
  h.flatten (fun _ hi => hi.mono fun _ _ _ => rfl) fun _ _ hi =>
    ⟨hi.2.1.mono fun _ _ _ => rfl, hi.2.2.mono (fun _ hj => hj.mono fun _ _ _ => rfl) fun _ _ h => h⟩

/-- A request changes nothing under an epoch from before a revoke. -/
def Fenced (draw : Nat → String) (i : Entry) (past : List Entry) : Prop :=
  ∀ operation t, i.op = .apply operation t →
    (∃ j ∈ past, j.Revokes ∧ j.Issued draw t.epoch) → i.after = i.before

/-- What the server tolerates on the way to the stop hold. -/
def onTheWay (state : UInt8) (name : String) : Bool :=
  autonomous state name || debouncedIdle state name

/-! ## The invariant -/

/-- What the log says of an owner. -/
structure Holding (t : Identity) (s : FleetYieldState) (log : List Entry) : Prop where
  epoch : t.epoch = s.epoch
  unblocked : s.blocked = false
  log : if s.ready then Stood onTheWay t log else Paused onTheWay t log

/-- What is known of an entry that was just written. -/
structure Written (draw : Nat → String) (i : Entry) (past : List Entry) : Prop where
  current : i.before.fleetYield.Current draw
  turn : Turn draw i.op i.before i.after
  grows : i.before.fleetYield.drawn ≤ i.after.fleetYield.drawn
  after : ∀ j ∈ past, j.after.fleetYield.drawn ≤ i.before.fleetYield.drawn
  holding : ∀ t, i.before.fleetYield.owner = some t → Holding t i.before.fleetYield past

structure Owned (draw : Nat → String) (m : Tree) : Prop where
  current : m.context.fleetYield.Current draw
  drawn : ∀ i ∈ m.log, i.after.fleetYield.drawn ≤ m.context.fleetYield.drawn
  holding : ∀ t, m.context.fleetYield.owner = some t → Holding t m.context.fleetYield m.log
  log : Always (Written draw) m.log

namespace Turn

variable {op : Op} {c c' : Context}

theorem grows (h : Turn draw op c c') : c.fleetYield.drawn ≤ c'.fleetYield.drawn := by
  cases h with
  | drew hdrew _ => exact Nat.le_of_lt hdrew.later
  | kept _ _ => exact Nat.le_refl _
  | stood _ _ => exact Nat.le_refl _
  | paused _ _ _ _ _ _ _ => exact Nat.le_refl _
  | resumed _ _ _ _ _ _ => exact Nat.le_succ _

theorem current (h : Turn draw op c c') (hc : c.fleetYield.Current draw) :
    c'.fleetYield.Current draw := by
  cases h with
  | drew hdrew _ => exact hdrew.current
  | kept _ _ => exact hc
  | stood _ _ => exact hc
  | paused _ _ _ _ _ _ _ => exact hc
  | resumed _ _ _ _ _ _ => exact freshEpoch_current

/-- A request under another epoch finds nothing to change. -/
theorem stale (h : Turn draw op c c') (hop : op = .apply operation t)
    (hne : t.epoch ≠ c.fleetYield.epoch) : c' = c := by
  cases h with
  | drew _ happly => exact absurd (happly operation t hop).1 hne
  | kept hcommand _ => rw [hcommand.apply hop]
  | stood hstatus _ => cases hstatus.symm.trans hop
  | paused happly _ _ hepoch _ _ _ =>
    cases happly.symm.trans hop
    exact absurd hepoch hne
  | resumed happly _ hepoch _ _ _ =>
    cases happly.symm.trans hop
    exact absurd hepoch hne

/-- A request that restarts the mower is the owner's. -/
theorem restarted (h : Turn draw op c c') (hop : op = .apply operation t)
    (hstop : c.currentCommand ≠ 1) (hstart : c'.currentCommand = 1) :
    operation = RESUME ∧ c.currentCommand = 8 ∧ c.fleetYield.blocked = false ∧
      t.epoch = c.fleetYield.epoch ∧ c.fleetYield.owner = some t ∧ c.fleetYield.ready = true ∧
      c.fleetYield.drawn < c'.fleetYield.drawn := by
  cases h with
  | drew _ happly => exact absurd ((happly operation t hop).2.symm.trans hstart) hstop
  | kept hcommand _ => exact absurd ((hcommand.apply hop).symm.trans hstart) hstop
  | stood _ _ => exact absurd hstart hstop
  | paused _ _ _ _ _ hcommand _ => exact absurd hcommand hstop
  | resumed happly hblocked hepoch howner hcommand hready =>
    cases happly.symm.trans hop
    exact ⟨rfl, hcommand, hblocked, hepoch, howner, hready, Nat.lt_succ_self _⟩

/-- The owner of the stop, after the operation. -/
theorem holding (h : Turn draw op c c') {past : List Entry}
    (hpast : ∀ t, c.fleetYield.owner = some t → Holding t c.fleetYield past) (t : Identity)
    (ht : c'.fleetYield.owner = some t) :
    Holding t c'.fleetYield ({ before := c, op := op, after := c' } :: past) := by
  cases h with
  | drew hdrew _ =>
    rw [hdrew.nobody] at ht
    cases ht
  | @kept command _ hshows =>
    have hbefore := hpast t ht
    have howner : c.fleetYield.owner.isSome := Option.isSome_iff_exists.2 ⟨t, ht⟩
    refine ⟨hbefore.epoch, hbefore.unblocked, ?_⟩
    have hlog := hbefore.log
    dsimp only
    by_cases hready : c.fleetYield.ready = true
    · rw [if_pos hready] at hlog ⊢
      refine .inr ⟨⟨Nat.lt_irrefl _, rfl, Op.Shows.of fun state name hop => ?_⟩, hlog⟩
      rw [(hshows state name hop howner).1] at hready
      cases hready
    · rw [if_neg hready] at hlog ⊢
      exact .inr ⟨⟨Nat.lt_irrefl _, rfl,
        Op.Shows.of fun state name hop => (hshows state name hop howner).2⟩, hlog⟩
  | @stood state name hop hstood =>
    have hbefore := hpast t ht
    refine ⟨hbefore.epoch, hbefore.unblocked, ?_⟩
    have hlog := hbefore.log
    show Stood onTheWay t _
    by_cases hready : c.fleetYield.ready = true
    · rw [if_pos hready] at hlog
      refine .inr ⟨⟨Nat.lt_irrefl _, rfl, Op.Shows.of fun state' name' hop' => ?_⟩, hlog⟩
      cases hop.symm.trans hop'
      exact hstood
    · rw [if_neg hready] at hlog
      refine .inl ⟨by rw [Entry.Stands, hop]; exact hstood, ?_, hlog⟩
      refine ⟨Nat.lt_irrefl _, rfl, Op.Shows.of fun state' name' hop' => ?_⟩
      cases hop.symm.trans hop'
      exact hstood
  | @paused t' hop _ hblocked hepoch howner hcommand heligible =>
    cases ht
    exact ⟨hepoch, hblocked, .inl ⟨hop, hcommand, rfl⟩⟩
  | resumed _ _ _ _ _ _ => cases ht

end Turn

theorem Owned.boot (command : UInt8) : Owned draw (Tree.boot draw command) where
  current := ⟨Nat.one_pos, rfl⟩
  drawn i hi := absurd hi (by simp [Tree.boot])
  holding t ht := nomatch ht
  log := trivial

theorem Owned.perform (op : Op) (m : Tree) (h : Owned draw m) : Owned draw (m.perform draw op) where
  current := (Op.turn op m.context).current h.current
  drawn i hi := by
    have hgrows := (@Op.turn draw op m.context).grows
    rcases List.mem_cons.1 hi with rfl | hi
    · exact Nat.le_refl _
    · exact Nat.le_trans (h.drawn i hi) hgrows
  holding t ht := (Op.turn op m.context).holding h.holding t ht
  log := ⟨{
    current := h.current
    turn := Op.turn op m.context
    grows := (Op.turn op m.context).grows
    after := h.drawn
    holding := h.holding }, h.log⟩

theorem Owned.run (command : UInt8) (events : List Event) :
    Owned draw ((Tree.boot draw command).run draw events) :=
  Tree.run_keeps Owned.perform (.boot command) events

/-! ## What an entry that was written shows -/

namespace Written

variable {i j : Entry} {past : List Entry}

theorem restartsRightly (h : Written draw i past) : RestartsRightly onTheWay i past := by
  intro operation t hop hstop hstart
  obtain ⟨hresume, height, hblocked, _, howner, hready, _⟩ := h.turn.restarted hop hstop hstart
  have hlog := (h.holding t howner).log
  rw [if_pos hready] at hlog
  exact ⟨hresume, height, hblocked, hlog⟩

/-- An epoch that was not the last before some entry is not the epoch now. -/
theorem epoch_ne (distinct : Function.Injective draw) (h : Written draw i past) (hj : j ∈ past)
    {k : Nat} (hk : k + 1 < j.after.fleetYield.drawn) : draw k ≠ i.before.fleetYield.epoch := by
  intro he
  rw [h.current.2] at he
  have hlast := distinct he
  have hafter := h.after j hj
  omega

theorem fenced (distinct : Function.Injective draw) (h : Written draw i past) :
    Fenced draw i past := by
  rintro operation t hop ⟨j, hj, hrevokes, k, hk, hepoch⟩
  refine h.turn.stale hop ?_
  rw [← hepoch]
  exact h.epoch_ne distinct hj (Nat.lt_of_le_of_lt hk hrevokes)

/-- A tuple that was resumed is gone with the epoch of that moment. -/
theorem replayed (distinct : Function.Injective draw) (h : Written draw i past)
    (hpast : Always (Written draw) past) (hop : i.op = .apply operation t) (hj : j ∈ past)
    (hresumes : j.Resumes t) : i.after = i.before := by
  obtain ⟨later, earlier, rfl⟩ := List.append_of_mem hj
  have hwritten : Written draw j earlier := Always.iff_split.1 hpast later j earlier rfl
  obtain ⟨hresume, hstop, hstart⟩ := hresumes
  have hstopped : j.before.currentCommand ≠ 1 := by
    rw [hstop]
    decide
  obtain ⟨_, _, _, hepoch, _, _, hdrew⟩ := hwritten.turn.restarted hresume hstopped hstart
  refine h.turn.stale hop ?_
  rw [hepoch, hwritten.current.2]
  have hpos := hwritten.current.1
  exact h.epoch_ne distinct hj (by omega)

end Written

/-! ## The requests of a run -/

/-- The claim of a tuple that was resumed is over: no request for it changes anything. -/
def Over (i : Entry) (past : List Entry) : Prop :=
  ∀ operation t, i.op = .apply operation t → (∃ j ∈ past, j.Resumes t) → i.after = i.before

variable {m : Tree}

theorem Owned.over (distinct : Function.Injective draw) (h : Owned draw m) : Always Over m.log :=
  h.log.withPast.mono fun _ _ hi _ _ hop ⟨_, hj, hresumes⟩ =>
    hi.1.replayed distinct hi.2 hop hj hresumes

theorem Owned.fenced (distinct : Function.Injective draw) (h : Owned draw m) :
    Always (Fenced draw) m.log :=
  h.log.mono fun _ _ hi => hi.fenced distinct

/-- A request that `apply` makes nothing of leaves the command to the maintenance gate. -/
theorem Tree.fleetYield_command {now : Interlocks} (saved : Bool)
    (hsame : ((m.perform draw (.refresh now)).perform draw (.apply operation t)).context.currentCommand =
      (m.perform draw (.refresh now)).context.currentCommand) :
    (m.fleetYield draw operation t now saved).1.context.currentCommand = m.context.currentCommand ∨
      (now.maintenance = true ∧
        (m.fleetYield draw operation t now saved).1.context.currentCommand = 8) := by
  have hgate : (m.perform draw (.refresh now)).context.currentCommand =
      if now.maintenance = true then 8 else m.context.currentCommand := rfl
  have happlied : (m.fleetYield draw operation t now saved).1.context.currentCommand =
      m.context.currentCommand ∨ (m.fleetYield draw operation t now saved).1.context.currentCommand =
        (m.perform draw (.refresh now)).context.currentCommand := by
    unfold Tree.fleetYield
    split
    · exact .inl rfl
    · dsimp only
      split
      · exact .inr hsame
      · exact .inr hsame
  rcases happlied with hkept | hgated
  · exact .inl hkept
  · rw [hgated, hgate]
    by_cases hmaintenance : now.maintenance = true
    · exact .inr ⟨hmaintenance, if_pos hmaintenance⟩
    · exact .inl (if_neg hmaintenance)

theorem Owned.request (distinct : Function.Injective draw) (h : Owned draw m)
    (hold : ∃ j ∈ m.log, j.Revokes ∧ j.Issued draw t.epoch) (operation : UInt8) (now : Interlocks)
    (saved : Bool) :
    (m.fleetYield draw operation t now saved).1.context.currentCommand = m.context.currentCommand ∨
      (now.maintenance = true ∧
        (m.fleetYield draw operation t now saved).1.context.currentCommand = 8) := by
  obtain ⟨j, hj, hrevokes⟩ := hold
  have hrefreshed : Owned draw ((m.perform draw (.refresh now)).perform draw (.apply operation t)) :=
    .perform _ _ (.perform _ _ h)
  have hsame : ((m.perform draw (.refresh now)).perform draw (.apply operation t)).context =
      (m.perform draw (.refresh now)).context :=
    (hrefreshed.fenced distinct).1 operation t rfl ⟨j, by simp [Tree.perform, hj], hrevokes⟩
  exact Tree.fleetYield_command saved (congrArg Context.currentCommand hsame)

/-- Whatever the clients, the operator, the interlocks and the tree do: `apply` restarts the
    mower only for the tuple that stopped it, and only if nobody else intervened. -/
theorem fleet_yield_ownership (draw : Nat → String) (distinct : Function.Injective draw)
    (command : UInt8) (events : List Event) :
    let m := (Tree.boot draw command).run draw events
    Always (RestartsRightly onTheWay) m.log ∧
      (∀ t, m.log.Pairwise fun i j => ¬(i.Resumes t ∧ j.Resumes t)) ∧
      (∀ t now saved, m.context.fleetYield.completed = some t →
        m.handle draw (.fleetYield RESUME t now saved) = m) ∧
      Always Over m.log ∧ Always (Fenced draw) m.log ∧
      ∀ operation t now saved, (∃ j ∈ m.log, j.Revokes ∧ j.Issued draw t.epoch) →
        let m' := m.handle draw (.fleetYield operation t now saved)
        m'.context.currentCommand = m.context.currentCommand ∨
          (now.maintenance = true ∧ m'.context.currentCommand = 8) := by
  intro m
  have howned : Owned draw m := .run command events
  have hover := howned.over distinct
  refine ⟨howned.log.mono fun _ _ hi => hi.restartsRightly, fun t => ?_,
    fun t now saved hcompleted => ?_, hover, howned.fenced distinct,
    fun operation t now saved hold => howned.request distinct hold operation now saved⟩
  · refine Always.pairwise (hover.mono fun i past hi j hj => ?_)
    rintro ⟨⟨hop, hstop, hstart⟩, hresumed⟩
    rw [hi RESUME t hop ⟨j, hj, hresumed⟩, hstop] at hstart
    exact absurd hstart (by decide)
  · show (m.fleetYield draw RESUME t now saved).1 = m
    unfold Tree.fleetYield
    rw [if_pos ⟨rfl, hcompleted⟩]

/-! ## The same at one run -/

/-- Distinct epochs, one for each length. -/
def longer (n : Nat) : String := String.ofList (List.replicate (n + 1) 'e')

theorem longer_injective : Function.Injective longer := by
  intro n k h
  have hlength := congrArg List.length (String.ofList_injective h)
  simpa using hlength

/-- The mower mows, is stopped, stands and is set going again. -/
def yielding : List Event :=
  [.callback (.publishStatus 2 "MOWING"), .fleetYield PAUSE ⟨longer 1, "a"⟩ .clear true,
    .callback (.publishStatus 2 "IDLE"), .callback (.publishStatus 1 "IDLE"),
    .fleetYield RESUME ⟨longer 1, "a"⟩ .clear true]

def yielded : Tree := (Tree.boot longer 1).run longer yielding

instance (t : Identity) (i : Entry) : Decidable (i.Pauses t) :=
  inferInstanceAs (Decidable (_ ∧ _))

instance (t : Identity) (i : Entry) : Decidable (i.Resumes t) :=
  inferInstanceAs (Decidable (_ ∧ _))

instance (i : Entry) : Decidable i.Revokes := inferInstanceAs (Decidable (_ < _))

instance (these : UInt8 → String → Bool) (i : Entry) : Decidable (i.Undisturbed these) :=
  inferInstanceAs (Decidable (_ ∧ _))

instance (i : Entry) : Decidable i.Stands := by
  unfold Entry.Stands
  split <;> infer_instance

instance (these : UInt8 → String → Bool) (t : Identity) (log : List Entry) :
    Decidable (Paused these t log) := inferInstanceAs (Decidable (Since _ _ _))

instance (these : UInt8 → String → Bool) (t : Identity) (log : List Entry) :
    Decidable (Stood these t log) := inferInstanceAs (Decidable (Since _ _ _))

theorem fleet_yield_ownership_yielding :
    (∃ i ∈ yielded.log, i.Resumes ⟨longer 1, "a"⟩) ∧ Always (RestartsRightly onTheWay) yielded.log :=
  ⟨by decide +kernel, (fleet_yield_ownership longer longer_injective 1 yielding).1⟩

/-- A debounced IDLE on the way to the stop hold does not take the resume away; and a request
    from before a revoke finds the mower stopped, where the maintenance gate stops it. -/
theorem fleet_yield_tolerates :
    ¬Always (RestartsRightly autonomous) yielded.log ∧
      let m := (Tree.boot longer 1).run longer
        [.callback (.publishStatus 2 "MOWING"), .callback .clearCoverageResume]
      let gate := { Interlocks.clear with maintenance := true }
      (∃ j ∈ m.log, j.op = .revoke ∧ j.Issued longer (longer 1)) ∧ m.context.currentCommand = 1 ∧
        (m.handle longer (.fleetYield PAUSE ⟨longer 1, "a"⟩ gate true)).context.currentCommand = 8 := by
  refine ⟨fun h => ?_, ?_⟩
  · have hstood : Stood autonomous ⟨longer 1, "a"⟩ yielded.log.tail :=
      (h.1 RESUME _ rfl (by decide +kernel) rfl).2.2.2
    exact absurd hstood (by decide +kernel)
  · exact ⟨⟨_, .head _, rfl, 1, by decide, rfl⟩, by decide +kernel, by decide +kernel⟩

end Fleet
end Mowgli
