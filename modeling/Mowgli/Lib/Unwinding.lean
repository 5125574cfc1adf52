import Mathlib.Data.List.Forall2

/-!
# Unwinding — two runs, one of them with more in it

A run takes operations one after the other and logs what each answered. Some operations are
silent. Where a relation survives a silent operation on one side and any other on both sides, it
holds between a run and the same run without the silent ones.
-/

namespace Mowgli
namespace Unwinding

variable {S Op R : Type}

/-- What is logged of one operation. -/
structure Entry (S Op R : Type) where
  before : S
  op : Op
  answer : R

section Run

variable (perform : S → Op → S × R)

def run (s : S) : List Op → S
  | [] => s
  | op :: ops => run (perform s op).1 ops

def log (s : S) : List Op → List (Entry S Op R)
  | [] => []
  | op :: ops =>
    { before := s, op := op, answer := (perform s op).2 } :: log (perform s op).1 ops

/-- Every operation meets a condition on the state it happens in. -/
def Meets (ok : S → Op → Prop) (s : S) : List Op → Prop
  | [] => True
  | op :: ops => ok s op ∧ Meets ok (perform s op).1 ops

end Run

variable {perform : S → Op → S × R}

/-- The unwinding conditions: `rel` for the states of the two runs, `same` for their log. -/
structure Unwinds (perform : S → Op → S × R) (silent : Op → Bool) (ok : S → Op → Prop)
    (rel : S → S → Prop) (same : Entry S Op R → Entry S Op R → Prop) : Prop where
  skip : ∀ s t op, silent op = true → rel s t → rel s (perform t op).1
  step : ∀ s t op, silent op = false → ok t op → rel s t →
    rel (perform s op).1 (perform t op).1
  answer : ∀ s t op, silent op = false → ok t op → rel s t →
    same { before := s, op := op, answer := (perform s op).2 }
      { before := t, op := op, answer := (perform t op).2 }

section Unwinds

variable {silent : Op → Bool} {ok : S → Op → Prop} {rel : S → S → Prop}
  {same : Entry S Op R → Entry S Op R → Prop}

theorem Unwinds.run (h : Unwinds perform silent ok rel same) {s t : S} {ops : List Op}
    (hok : Meets perform ok t ops) (hst : rel s t) :
    rel (run perform s (ops.filter fun op => !silent op)) (run perform t ops) := by
  induction ops generalizing s t with
  | nil => exact hst
  | cons op ops ih =>
    cases hop : silent op with
    | true =>
      rw [List.filter_cons_of_neg (by simp [hop])]
      exact ih hok.2 (h.skip s t op hop hst)
    | false =>
      rw [List.filter_cons_of_pos (by simp [hop])]
      exact ih hok.2 (h.step s t op hop hok.1 hst)

theorem Unwinds.log (h : Unwinds perform silent ok rel same) {s t : S} {ops : List Op}
    (hok : Meets perform ok t ops) (hst : rel s t) :
    List.Forall₂ same (log perform s (ops.filter fun op => !silent op))
      ((log perform t ops).filter fun entry => !silent entry.op) := by
  induction ops generalizing s t with
  | nil => exact .nil
  | cons op ops ih =>
    cases hop : silent op with
    | true =>
      rw [List.filter_cons_of_neg (by simp [hop]), Unwinding.log,
        List.filter_cons_of_neg (by simp [hop])]
      exact ih hok.2 (h.skip s t op hop hst)
    | false =>
      rw [List.filter_cons_of_pos (by simp [hop]), Unwinding.log, Unwinding.log,
        List.filter_cons_of_pos (by simp [hop])]
      exact .cons (h.answer s t op hop hok.1 hst) (ih hok.2 (h.step s t op hop hok.1 hst))

end Unwinds

end Unwinding
end Mowgli
