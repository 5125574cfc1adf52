import Mowgli.Fleet.Agreement

/-!
# Composition — the coordinator and the tree, over any run

What the whole system does follows from `Together`, from the log that `Owned` is about, and
from a tuple that is gone staying `Quiet`.

A coordinator has given a tuple up when it left the yield. Until then a cancellation is only
an intent, and the pause it is about may still be applied.
-/

namespace Mowgli
namespace Fleet

open Trace FleetYieldState

variable {draw mint : Nat → String}

/-! ## What the tree keeps, the system keeps -/

namespace System

variable {σ : System} {P : Tree → Prop}

theorem goOn_tree (now : Time) (next : Next) : (σ.goOn now next).tree = σ.tree := by
  cases next with
  | done st => rfl
  | query st => rfl
  | call st => rfl

theorem step_keeps (h : ∀ op m, op.Plain → P m → P (m.perform draw op))
    (hset : ∀ command m, P m → P ((m.perform draw .revoke).perform draw (.setCommand command)))
    (hσ : P σ.tree) (happening : Happening) : P (σ.step draw mint happening).tree := by
  have hcall (call : Call) (now : Interlocks) (saved : Bool) :
      P (σ.tree.fleetYield draw call.operation call.t now saved).1 :=
    Tree.fleetYield_keeps h hσ call.operation call.t now saved
  unfold step
  cases happening with
  | callback c => exact Tree.call_keeps (fun op m hop _ => h op m hop) hset hσ c
  | tick s rows now =>
    dsimp only
    split
    · rw [goOn_tree]
      exact hσ
    · exact hσ
  | deliver now saved =>
    dsimp only
    split
    · exact hcall .query now saved
    · exact hcall σ.call now saved
    · exact hσ
  | answer =>
    dsimp only
    split
    · rw [goOn_tree]
      exact hσ
    · exact hσ
    · exact hσ
  | fail lost =>
    dsimp only
    split
    · rw [goOn_tree]
      exact hσ
    · exact hσ
    · exact hσ
  | deliverLate i now saved =>
    dsimp only
    split
    · exact hcall _ now saved
    · exact hσ
  | loseLate i => exact hσ

theorem run_keeps (h : ∀ op m, op.Plain → P m → P (m.perform draw op))
    (hset : ∀ command m, P m → P ((m.perform draw .revoke).perform draw (.setCommand command)))
    (hσ : P σ.tree) (happenings : List Happening) : P (σ.run draw mint happenings).tree := by
  induction happenings generalizing σ with
  | nil => exact hσ
  | cons happening happenings ih => exact ih (step_keeps h hset hσ happening)

theorem owned (command : UInt8) (happenings : List Happening) :
    Owned draw ((boot draw command).run draw mint happenings).tree :=
  run_keeps (fun op m _ => Owned.perform op m) (fun _ _ h => .perform _ _ (.perform _ _ h))
    (.boot command) happenings

end System

/-! ## A tuple that is gone stays quiet -/

/-- Since the log was `base`, no request paused or resumed for `t`. -/
structure Quiet (draw : Nat → String) (t : Identity) (base : List Entry) (m : Tree) : Prop where
  sound : Sound draw m.context
  gone : Gone draw t m.context
  log : ∃ later, m.log = later ++ base ∧ ∀ i ∈ later, ¬i.Pauses t ∧ ¬i.Resumes t

namespace Quiet

variable {t : Identity} {base : List Entry} {m : Tree}

theorem perform (distinct : Function.Injective draw) (h : Quiet draw t base m) {op : Op}
    (hplain : op.Plain) : Quiet draw t base (m.perform draw op) := by
  have he := @Tree.perform_evolves draw m op hplain h.sound
  obtain ⟨later, hlog, hquiet⟩ := h.log
  refine ⟨he.sound, he.gone t h.gone, _ :: later, by rw [Tree.perform, hlog]; rfl, fun i hi => ?_⟩
  rcases List.mem_cons.1 hi with rfl | hi
  · have hsilent (operation : UInt8) (hop : op = .apply operation t) :
        (op.run draw m.context).currentCommand = m.context.currentCommand :=
      (Op.turn op m.context).silent distinct h.sound h.gone hop
    constructor
    · rintro ⟨hop, hbefore, hafter⟩
      have hsame := (hafter.symm.trans (hsilent PAUSE hop)).trans hbefore
      exact absurd hsame (by decide)
    · rintro ⟨hop, hbefore, hafter⟩
      have hsame := (hafter.symm.trans (hsilent RESUME hop)).trans hbefore
      exact absurd hsame (by decide)
  · exact hquiet i hi

theorem commanded (distinct : Function.Injective draw) (h : Quiet draw t base m)
    (command : UInt8) :
    Quiet draw t base ((m.perform draw .revoke).perform draw (.setCommand command)) := by
  have hrevoked : Quiet draw t base (m.perform draw .revoke) := h.perform distinct nofun
  have he : Evolves draw m.context _ := .commanded h.sound command
  obtain ⟨later, hlog, hquiet⟩ := hrevoked.log
  refine ⟨he.sound, he.gone t h.gone, _ :: later, by rw [Tree.perform, hlog]; rfl, fun i hi => ?_⟩
  rcases List.mem_cons.1 hi with rfl | hi
  · constructor
    · rintro ⟨hop, _⟩
      cases hop
    · rintro ⟨hop, _⟩
      cases hop
  · exact hquiet i hi

end Quiet

theorem System.quiet (distinct : Function.Injective draw) {σ : System}
    (hs : Sound draw σ.tree.context) {t : Identity} (ht : Gone draw t σ.tree.context)
    (happenings : List Happening) :
    Quiet draw t σ.tree.log (σ.run draw mint happenings).tree :=
  @System.run_keeps draw mint σ (Quiet draw t σ.tree.log)
    (fun _ _ hplain hm => hm.perform distinct hplain)
    (fun command _ hm => hm.commanded distinct command) ⟨hs, ht, [], rfl, fun _ hi => absurd hi List.not_mem_nil⟩
    happenings

/-! ## Leaving a yield -/

/-- A yield ends with an answer to its own tuple, and the tuple is gone. -/
theorem Together.left {σ : System} (h : Together draw σ) {happening : Happening}
    (hyielded : σ.yield.yielded = true)
    (hleft : (σ.step draw mint happening).yield.yielded = false) :
    happening = .answer ∧ (∃ now res, σ.phase = .calling now (some res) ∧
      Ends σ.yield.operation res.result) ∧ Gone draw σ.yield.tuple σ.tree.context ∧
        (σ.step draw mint happening).tree = σ.tree := by
  have hstays (hsame : (σ.step draw mint happening).yield.yielded = σ.yield.yielded) : False := by
    rw [hleft, hyielded] at hsame
    cases hsame
  have hphase := h.phase
  cases happening with
  | callback c => exact (hstays rfl).elim
  | loseLate i => exact (hstays rfl).elim
  | tick s rows now =>
    refine (hstays ?_).elim
    unfold System.step
    dsimp only
    split
    · rename_i htick
      obtain ⟨self, peers, rfl⟩ := Together.tick_stepYield htick
      obtain ⟨st, hst, hdone | hcall⟩ :=
        stepYield_yielded hyielded (h.operates hyielded) self peers s now
      · rw [hdone]
        exact hst.yielded
      · rw [hcall]
        exact hst.yielded
    · rfl
  | deliver now saved =>
    refine (hstays ?_).elim
    unfold System.step
    dsimp only
    split
    · rfl
    · rfl
    · rfl
  | deliverLate i now saved =>
    refine (hstays ?_).elim
    unfold System.step
    dsimp only
    split
    · rfl
    · rfl
  | fail lost =>
    refine (hstays ?_).elim
    unfold System.step
    dsimp only
    split
    · rename_i hquerying
      rw [hquerying] at hphase
      exact absurd (hphase.1.symm.trans hyielded) (by decide)
    · rename_i now _ _
      exact (@failed_continues σ.yield now).yielded
    · rfl
  | answer =>
    refine ⟨rfl, ?_⟩
    unfold System.step at hleft ⊢
    dsimp only at hleft ⊢
    split at hleft
    · rename_i hquerying
      rw [hquerying] at hphase
      exact absurd (hphase.1.symm.trans hyielded) (by decide)
    · rename_i now res hcalling
      rw [hcalling] at hphase
      rcases answered_continues hyielded now res with ⟨_, hst, _, _⟩ | ⟨hend, _⟩
      · exact absurd (hst.symm.trans hleft) (by decide)
      · exact ⟨⟨now, res, hcalling, hend⟩, (hphase.2 res rfl).1 hend, rfl⟩
    · exact absurd (hyielded.symm.trans hleft) (by decide)

/-! ## The composition -/

/-- Nothing was held or resumed for `t` on the way from one tree to the other, and it is not
    held. -/
def Forgotten (t : Identity) (m m' : Tree) : Prop :=
  m'.context.fleetYield.owner ≠ some t ∧
    ∃ later, m'.log = later ++ m.log ∧ ∀ i ∈ later, ¬i.Pauses t ∧ ¬i.Resumes t

/-- A request restarts the mower only for the tuple that stopped it, if no command of the
    operator and no interlock came between. -/
def RestartsKept (i : Entry) (past : List Entry) : Prop :=
  ∀ operation t, i.op = .apply operation t → i.before.currentCommand ≠ 1 →
    i.after.currentCommand = 1 → operation = RESUME ∧ Kept t past

/-- Whatever is lost, late, commanded, observed or set: no hold that the coordinator does not
    know of, no yield that ends without an answer which settles it, no late pause that stops
    the mower, and no restart behind the operator's back. -/
theorem fleet_yield_agreement (draw mint : Nat → String) (distinct : Function.Injective draw)
    (command : UInt8) (happenings : List Happening) :
    let σ := (System.boot draw command).run draw mint happenings
    (σ.yield.yielded = false → σ.tree.context.fleetYield.owner = none) ∧
      (∀ t, σ.tree.context.fleetYield.owner = some t → t = σ.yield.tuple) ∧
      (∀ happening, σ.yield.yielded = true → (σ.step draw mint happening).yield.yielded = false →
        happening = .answer ∧
          (∃ now res, σ.phase = .calling now (some res) ∧ Ends σ.yield.operation res.result) ∧
          ∀ further, Forgotten σ.yield.tuple σ.tree
            ((σ.step draw mint happening).run draw mint further).tree) ∧
      (∀ call ∈ σ.late, call.operation = PAUSE →
        ¬(σ.yield.yielded = true ∧ call.t = σ.yield.tuple) → ∀ now saved,
          let m := (σ.tree.fleetYield draw PAUSE call.t now saved).1
          m.context.fleetYield.owner ≠ some call.t ∧
            (m.context.currentCommand = σ.tree.context.currentCommand ∨
              (now.maintenance = true ∧ m.context.currentCommand = 8))) ∧
      Always RestartsKept σ.tree.log := by
  intro σ
  have htogether : Together draw σ := Together.run distinct (.boot command) happenings
  have howned : Owned draw σ.tree := System.owned command happenings
  refine ⟨htogether.nobody, fun t ht => (htogether.owner t ht).2,
    fun happening hyielded hleft => ?_, fun call hcall hpause hnot now saved => ?_,
    howned.log.mono fun i past hi operation t hop hstop hstart => ?_⟩
  · obtain ⟨hanswer, hres, hgone, htree⟩ := htogether.left hyielded hleft
    refine ⟨hanswer, hres, fun further => ?_⟩
    have hquiet := @System.quiet draw mint distinct (σ.step draw mint happening)
      (htree ▸ htogether.sound) σ.yield.tuple (htree ▸ hgone) further
    rw [htree] at hquiet
    exact ⟨hquiet.gone.owner_ne distinct hquiet.sound, hquiet.log⟩
  · have hgone : Gone draw call.t σ.tree.context :=
      (htogether.late call hcall hpause).resolve_left hnot
    have he := Tree.fleetYield_evolves PAUSE call.t now saved htogether.sound
    refine ⟨(he.gone _ hgone).owner_ne distinct he.sound, Tree.fleetYield_command saved ?_⟩
    have hrefreshed := @Tree.perform_evolves draw σ.tree (.refresh now) nofun htogether.sound
    exact (Op.turn (.apply PAUSE call.t) _).silent distinct hrefreshed.sound
      (hrefreshed.gone _ hgone) rfl
  · obtain ⟨hresume, _, _, hstood⟩ := hi.restartsRightly operation t hop hstop hstart
    exact ⟨hresume, hstood.kept⟩

def fleetOn : CoordinatorSettings :=
  { enabled := true, yieldDistanceM := 3, resumeDistanceM := 5, yieldMaxHoldS := 60,
    yieldCooldownS := 30 }

def mower (id : String) (self : Bool) (x : Float) : FleetMember :=
  { id := id, self := self, online := true, autonomous := true, stopHold := false,
    stateName := "MOWING", pos := some { x := x, y := 0 } }

/-- A mower starts to mow a metre from one that goes first; what its coordinator asks for is taken
    and answered. -/
@[irreducible] def encounter : List Happening :=
  [.callback (.publishStatus 2 "MOWING"), .callback (.refresh .clear),
    .tick fleetOn (some [mower "b" true 0, mower "a" false 1]) 5,
    .deliver .clear true, .answer, .deliver .clear true, .answer]

@[irreducible] def met : System := (System.boot longer 1).run longer longer encounter

theorem tick_encounter
    (hnear : ¬fleetOn.yieldDistanceM ≤ nearestPriorityPeer (mower "b" true 0) [mower "a" false 1]) :
    Fleet.tick .zero fleetOn (some [mower "b" true 0, mower "a" false 1]) 5 =
      some (.query .zero) := by
  have hfar : decide (fleetOn.yieldDistanceM ≤
      nearestPriorityPeer (mower "b" true 0) [mower "a" false 1]) = false := decide_eq_false hnear
  change some (stepYield .zero (mower "b" true 0) [mower "a" false 1] fleetOn 5) = _
  unfold stepYield
  simp only [YieldState.zero, Bool.false_eq_true, if_false]
  simp [unblock, yieldEligible, mower, fleetOn, Time.isZero]
  exact hfar

theorem step_encounter {mowing : System} (hphase : mowing.phase = .idle)
    (hyield : mowing.yield = .zero)
    (hnear : ¬fleetOn.yieldDistanceM ≤ nearestPriorityPeer (mower "b" true 0) [mower "a" false 1]) :
    mowing.step longer longer (.tick fleetOn (some [mower "b" true 0, mower "a" false 1]) 5) =
      { mowing with phase := .querying .zero 5 none } := by
  unfold System.step
  dsimp only
  rw [hphase, hyield, tick_encounter hnear]
  change mowing.goOn 5 (.query .zero) = _
  rw [System.goOn, ← hyield]

theorem met_held
    (hnear : ¬fleetOn.yieldDistanceM ≤ nearestPriorityPeer (mower "b" true 0) [mower "a" false 1]) :
    met.tree.context.currentCommand = 8 ∧ met.tree.context.fleetYield.owner.isSome = true := by
  have hstep := @step_encounter ((System.boot longer 1).run longer longer (encounter.take 2))
    (by unfold encounter; rfl) (by unfold encounter; rfl) hnear
  have hrun : met = ({ (System.boot longer 1).run longer longer (encounter.take 2) with
      phase := .querying .zero 5 none } : System).run longer longer (encounter.drop 3) := by
    rw [← hstep, met, encounter]
    simp only [System.run, List.take_succ_cons, List.take_zero, List.drop_succ_cons,
      List.drop_zero, List.foldl_cons, List.foldl_nil]
  rw [hrun]
  unfold encounter
  exact ⟨rfl, rfl⟩

/-- Where a metre is less than three, which is a comparison of floats, it stops. -/
theorem fleet_yield_agreement_encounter :
    (¬fleetOn.yieldDistanceM ≤ nearestPriorityPeer (mower "b" true 0) [mower "a" false 1] →
        met.tree.context.currentCommand = 8 ∧
          met.tree.context.fleetYield.owner = some met.yield.tuple) ∧
      Always RestartsKept met.tree.log := by
  have hmet : met = (System.boot longer 1).run longer longer encounter := by rw [met]
  obtain ⟨-, howner, -, -, hlog⟩ := fleet_yield_agreement longer longer longer_injective 1 encounter
  rw [← hmet] at howner hlog
  refine ⟨fun hnear => ?_, hlog⟩
  obtain ⟨hcommand, hsome⟩ := met_held hnear
  obtain ⟨t, ht⟩ := Option.isSome_iff_exists.1 hsome
  exact ⟨hcommand, ht.trans (congrArg some (howner t ht))⟩

end Fleet
end Mowgli
