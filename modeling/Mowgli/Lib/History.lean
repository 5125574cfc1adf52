import Mowgli.Lib.Trace

/-!
# History — what a run of a state machine leaves behind

A machine handles one event after another, and every handler that ran leaves a mark: its event,
the state it found, the state it left. The marks are a log, newest first, so the operators of
`Trace` speak about the run. A claim about every step of every run is an `Always` over the log,
and `run_lawful` proves one from what a single handler preserves.

A step that may have to wait is a partial function, and `advance` is a run of steps none of which
had to. What is asked of each step of such a run is `Meets`.
-/

namespace Mowgli
namespace History

open Trace

variable {σ ε μ : Type} (step : σ → ε → σ) (mark : ε → σ → σ → μ)

/-- The state after a run, and the marks it leaves on top of `past`. -/
def run (s : σ) (past : List μ) : List ε → σ × List μ
  | [] => (s, past)
  | e :: es => run (step s e) (mark e s (step s e) :: past) es

variable {step mark} {s : σ} {past : List μ} {Inv : σ → List μ → Prop} {Ok Law : μ → List μ → Prop}

theorem run_append (es es' : List ε) :
    run step mark s past (es ++ es') =
      run step mark (run step mark s past es).1 (run step mark s past es).2 es' := by
  induction es generalizing s past with
  | nil => rfl
  | cons e es ih => exact ih

/-- What one handler preserves, a run preserves. -/
theorem run_keeps (hstep : ∀ s past e, Inv s past → Inv (step s e) (mark e s (step s e) :: past))
    (h : Inv s past) (es : List ε) : Inv (run step mark s past es).1 (run step mark s past es).2 := by
  induction es generalizing s past with
  | nil => exact h
  | cons e es ih => exact ih (hstep s past e h)

/-- Where every handler of a run is `Ok`, and the invariant makes the `Ok` ones lawful. -/
theorem run_lawful
    (hstep : ∀ s past e, Inv s past → Ok (mark e s (step s e)) past →
      Inv (step s e) (mark e s (step s e) :: past) ∧ Law (mark e s (step s e)) past)
    (h : Inv s []) (es : List ε) (hok : Always Ok (run step mark s [] es).2) :
    Always Law (run step mark s [] es).2 := by
  have hboth : ∀ s past e, (Always Ok past → Inv s past ∧ Always Law past) →
      Always Ok (mark e s (step s e) :: past) →
        Inv (step s e) (mark e s (step s e) :: past) ∧ Always Law (mark e s (step s e) :: past) := by
    intro s past e hinv hall
    obtain ⟨hs, hlaw⟩ := hinv hall.2
    obtain ⟨hs', hlaw'⟩ := hstep s past e hs hall.1
    exact ⟨hs', hlaw', hlaw⟩
  exact (run_keeps hboth (fun _ => ⟨h, trivial⟩) es hok).2

/-- The same, where nothing is asked of a handler. -/
theorem run_always
    (hstep : ∀ s past e, Inv s past →
      Inv (step s e) (mark e s (step s e) :: past) ∧ Law (mark e s (step s e)) past)
    (h : Inv s []) (es : List ε) : Always Law (run step mark s [] es).2 := by
  have hall : ∀ log : List μ, Always (fun _ _ => True) log := by
    intro log
    induction log with
    | nil => trivial
    | cons m log ih => exact ⟨trivial, ih⟩
  exact run_lawful (fun s past e hinv _ => hstep s past e hinv) h es (hall _)

/-! ## What a log says -/

/-- What the marks of a log say, the oldest first. -/
def gathered {β : Type} (f : μ → List β) (log : List μ) : List β := log.reverse.flatMap f

variable {β : Type}

@[simp] theorem gathered_nil (f : μ → List β) : gathered f [] = [] := rfl

@[simp] theorem gathered_cons (f : μ → List β) (m : μ) (past : List μ) :
    gathered f (m :: past) = gathered f past ++ f m := by
  simp [gathered]

theorem gathered_sublist {f g : μ → List β} (h : ∀ m, (f m).Sublist (g m)) (log : List μ) :
    (gathered f log).Sublist (gathered g log) := by
  induction log with
  | nil => exact .slnil
  | cons m past ih =>
    rw [gathered_cons, gathered_cons]
    exact ih.append (h m)

/-! ## Steps that may have to wait -/

section Waiting

variable (step : σ → ε → Option σ)

def advance (s : σ) : List ε → Option σ
  | [] => some s
  | e :: es => (step s e).bind fun s' => advance s' es

/-- Every step of the run is taken where `Ok` is true of it. -/
def Meets (Ok : σ → ε → Prop) (s : σ) : List ε → Prop
  | [] => True
  | e :: es => Ok s e ∧ ∀ s' ∈ step s e, Meets Ok s' es

instance Meets.decide {Ok : σ → ε → Prop} [∀ s e, Decidable (Ok s e)] :
    ∀ s es, Decidable (Meets step Ok s es)
  | _, [] => isTrue trivial
  | _, _ :: es =>
    have : ∀ s', Decidable (Meets step Ok s' es) := fun s' => Meets.decide s' es
    inferInstanceAs (Decidable (_ ∧ _))

variable {step} {Inv More : σ → Prop} {Ok : σ → ε → Prop}

/-- What one step preserves, a run preserves. -/
theorem advance_keeps (hstep : ∀ s e s', Inv s → step s e = some s' → Inv s') {s s' : σ}
    {es : List ε} (h : Inv s) (hrun : advance step s es = some s') : Inv s' := by
  induction es generalizing s with
  | nil =>
    cases hrun
    exact h
  | cons e es ih =>
    obtain ⟨mid, hmid, hrest⟩ := Option.bind_eq_some_iff.1 hrun
    exact ih (hstep s e mid h hmid) hrest

/-- The same for what is preserved only by the steps that meet a condition. -/
theorem advance_keeps_meeting (hstep : ∀ s e s', Inv s → step s e = some s' → Inv s')
    (hmore : ∀ s e s', Inv s → More s → Ok s e → step s e = some s' → More s') {s s' : σ}
    {es : List ε} (h : Inv s) (hs : More s) (hok : Meets step Ok s es)
    (hrun : advance step s es = some s') : More s' := by
  induction es generalizing s with
  | nil =>
    cases hrun
    exact hs
  | cons e es ih =>
    obtain ⟨mid, hmid, hrest⟩ := Option.bind_eq_some_iff.1 hrun
    exact ih (hstep s e mid h hmid) (hmore s e mid h hs hok.1 hmid) (hok.2 mid hmid) hrest

end Waiting

end History
end Mowgli
