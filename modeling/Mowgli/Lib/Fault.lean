import Mathlib.Data.List.Basic

/-!
# Fault — programs that return, fail or fault

A program over a state ends with a value, with an error for its caller, or with a fault that
nobody handles: an index out of range, a slice the wrong way round. The state it leaves is there
in each case.

`Safe` is the rule for programs that never fault and keep an invariant however they end.
-/

namespace Mowgli

inductive Outcome (ε α : Type)
  | ok (a : α)
  | error (e : ε)
  | fault

namespace Outcome

variable {ε ε' α β : Type}

def bind (x : Outcome ε α) (f : α → Outcome ε β) : Outcome ε β :=
  match x with
  | ok a => f a
  | error e => error e
  | fault => fault

def map (f : α → β) (x : Outcome ε α) : Outcome ε β := x.bind fun a => ok (f a)

def mapError (f : ε → ε') : Outcome ε α → Outcome ε' α
  | ok a => ok a
  | error e => error (f e)
  | fault => fault

/-- What is returned is as said, and there is no fault. -/
def Holds (Q : α → Prop) : Outcome ε α → Prop
  | ok a => Q a
  | error _ => True
  | fault => False

@[simp] theorem bind_ok (a : α) (f : α → Outcome ε β) : bind (ok a) f = f a := rfl
@[simp] theorem bind_error (e : ε) (f : α → Outcome ε β) : bind (error e) f = error e := rfl
@[simp] theorem bind_fault (f : α → Outcome ε β) : bind fault f = fault := rfl
@[simp] theorem mapError_ok (f : ε → ε') (a : α) : mapError f (ok a) = ok a := rfl
@[simp] theorem mapError_error (f : ε → ε') (e : ε) :
    mapError f (error e : Outcome ε α) = error (f e) := rfl
@[simp] theorem mapError_fault (f : ε → ε') : mapError f (fault : Outcome ε α) = fault := rfl
@[simp] theorem map_ok (f : α → β) (a : α) : map f (ok a : Outcome ε α) = ok (f a) := rfl
@[simp] theorem map_error (f : α → β) (e : ε) : map f (error e) = error e := rfl
@[simp] theorem map_fault (f : α → β) : map f (fault : Outcome ε α) = fault := rfl

variable {x : Outcome ε α}

theorem bind_eq_ok {f : α → Outcome ε β} {b : β} :
    x.bind f = ok b ↔ ∃ a, x = ok a ∧ f a = ok b := by
  cases x with
  | ok a => simp
  | error e => simp
  | fault => simp

theorem map_eq_ok {f : α → β} {b : β} : x.map f = ok b ↔ ∃ a, x = ok a ∧ f a = b := by
  cases x with
  | ok a => simp
  | error e => simp
  | fault => simp

theorem mapError_eq_ok {f : ε → ε'} {a : α} : x.mapError f = ok a ↔ x = ok a := by
  cases x with
  | ok b => simp
  | error e => simp
  | fault => simp

end Outcome

/-- A program over a state: how it ends, and the state it leaves. -/
def Program (ε σ α : Type) : Type := σ → Outcome ε α × σ

namespace Program

variable {ε σ α β : Type}

def bind (m : Program ε σ α) (f : α → Program ε σ β) : Program ε σ β := fun s =>
  match m s with
  | (.ok a, s) => f a s
  | (.error e, s) => (.error e, s)
  | (.fault, s) => (.fault, s)

instance : Monad (Program ε σ) where
  pure a := fun s => (.ok a, s)
  bind := bind

def fail (e : ε) : Program ε σ α := fun s => (.error e, s)

def crash : Program ε σ α := fun s => (.fault, s)

def get : Program ε σ σ := fun s => (.ok s, s)

def modify (f : σ → σ) : Program ε σ Unit := fun s => (.ok (), f s)

/-- Errors change as they leave the program. -/
def wrap (f : ε → ε) (m : Program ε σ α) : Program ε σ α := fun s =>
  ((m s).1.mapError f, (m s).2)

/-- The same program over and over, as a loop with a counter. -/
def times (m : Program ε σ α) : Nat → Program ε σ (List α)
  | 0 => pure []
  | n + 1 => do
    let a ← m
    let rest ← m.times n
    pure (a :: rest)

/-! ## How a program runs -/

@[simp] theorem pure_apply (a : α) (s : σ) : (pure a : Program ε σ α) s = (.ok a, s) := rfl

theorem bind_apply (m : Program ε σ α) (f : α → Program ε σ β) (s : σ) :
    (m >>= f) s = Program.bind m f s := rfl

theorem get_bind (f : σ → Program ε σ α) (s : σ) : (get >>= f) s = f s s := rfl

variable {m : Program ε σ α}

variable {s : σ}

/-- What comes first returned. -/
theorem bind_of_ok {t : σ} {a : α} (h : m s = (.ok a, t)) (f : α → Program ε σ β) :
    (m >>= f) s = f a t := by
  rw [bind_apply]
  unfold Program.bind
  rw [h]

theorem bind_of_fault (h : (m s).1 = .fault) (f : α → Program ε σ β) :
    ((m >>= f) s).1 = .fault := by
  rw [bind_apply]
  unfold Program.bind
  cases hm : m s with
  | mk outcome t =>
    rw [hm] at h
    dsimp only at h
    subst h
    rfl

theorem wrap_of_ok {t : σ} {a : α} (h : m s = (.ok a, t)) (f : ε → ε) :
    m.wrap f s = (.ok a, t) := by
  unfold wrap
  rw [h]
  rfl

theorem wrap_of_fault (h : (m s).1 = .fault) (f : ε → ε) : (m.wrap f s).1 = .fault := by
  unfold wrap
  rw [h]
  rfl

/-! ## Programs that never fault -/

/-- It never faults, keeps what holds of the state however it ends, and what it returns is as
said. -/
def Safe (I : σ → Prop) (m : Program ε σ α) (Q : α → Prop) : Prop :=
  ∀ s, I s → (m s).1.Holds Q ∧ I (m s).2

variable {I : σ → Prop} {Q : α → Prop} {R : β → Prop}

theorem Safe.pure {a : α} (ha : Q a) : Safe I (pure a : Program ε σ α) Q := fun _ hs => ⟨ha, hs⟩

theorem Safe.fail (e : ε) : Safe I (fail e : Program ε σ α) Q := fun _ hs => ⟨trivial, hs⟩

theorem Safe.get : Safe I (get : Program ε σ σ) fun _ => True := fun _ hs => ⟨trivial, hs⟩

theorem Safe.modify {f : σ → σ} (hf : ∀ s, I s → I (f s)) :
    Safe I (modify f : Program ε σ Unit) fun _ => True := fun s hs => ⟨trivial, hf s hs⟩

theorem Safe.bind {f : α → Program ε σ β} (hm : Safe I m Q) (hf : ∀ a, Q a → Safe I (f a) R) :
    Safe I (m >>= f) R := by
  intro s hs
  obtain ⟨hends, hkept⟩ := hm s hs
  rw [bind_apply]
  unfold Program.bind
  cases h : m s with
  | mk outcome t =>
    rw [h] at hends hkept
    cases outcome with
    | ok a => exact hf a hends t hkept
    | error e => exact ⟨trivial, hkept⟩
    | fault => exact hends.elim

theorem Safe.wrap (hm : Safe I m Q) (f : ε → ε) : Safe I (m.wrap f) Q := by
  intro s hs
  obtain ⟨hends, hkept⟩ := hm s hs
  refine ⟨?_, hkept⟩
  unfold Program.wrap
  dsimp only
  cases h : (m s).1 with
  | ok a =>
    rw [h] at hends
    exact hends
  | error e => trivial
  | fault =>
    rw [h] at hends
    exact hends

/-- A loop is safe when its body is. -/
theorem Safe.times (hm : Safe I m fun _ => True) (n : Nat) : Safe I (m.times n) fun _ => True := by
  induction n with
  | zero => exact Safe.pure trivial
  | succ n ih => exact hm.bind fun a _ => ih.bind fun rest _ => Safe.pure trivial

end Program
end Mowgli
