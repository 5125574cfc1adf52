import Mathlib.Data.List.Count
import Mowgli.Lib.Trace

/-!
# Generation — authorization tokens that a log makes stale

A system hands out a token that is good until the next **break**. The token is the number
of the current generation in a type that wraps, and a break starts the next generation.

`Granted p log t` is what holding the token `t` is worth: if `t` is the token of a
generation that has not wrapped, that generation has begun, and as long as it lasts `p`
has happened in it. It is a statement about the log alone, and **no later entry can make
it false**: an entry that is no break leaves what has happened in the generation, and a
break makes the token stale. So a token can be copied anywhere and checked late.
-/

namespace Mowgli
namespace Trace

variable {α T : Type}

/-- The number of breaks in the log. -/
def generation (breaks : α → Bool) (log : List α) : Nat := log.countP breaks

section
variable {breaks : α → Bool} {log later : List α} {a : α} {p q : α → List α → Prop}

@[simp] theorem generation_nil : generation breaks [] = 0 := rfl

theorem generation_cons_of_break (h : breaks a = true) :
    generation breaks (a :: log) = generation breaks log + 1 := by
  simp [generation, h]

theorem generation_cons_of_calm (h : breaks a = false) :
    generation breaks (a :: log) = generation breaks log := by
  simp [generation, h]

theorem generation_append :
    generation breaks (later ++ log) = generation breaks later + generation breaks log := by
  simp [generation, List.countP_append]

theorem generation_le_cons : generation breaks log ≤ generation breaks (a :: log) :=
  (List.sublist_cons_self a log).countP_le

/-- `p` has happened in the current generation. -/
def Lately (breaks : α → Bool) (p : α → List α → Prop) (log : List α) : Prop :=
  Since (fun a => breaks a = false) p log

theorem Lately.cons (h : Lately breaks p log) (ha : breaks a = false) :
    Lately breaks p (a :: log) := .inr ⟨ha, h⟩

/-- The generations a type of tokens tells apart: the first `bound` of them. -/
structure Tokens (T : Type) where
  token : Nat → T
  bound : Nat
  distinct : ∀ {g g'}, g < bound → g' < bound → token g = token g' → g = g'

variable {K : Tokens T} {t : T}

/-- What the token `t` is worth. -/
def Granted (K : Tokens T) (breaks : α → Bool) (p : α → List α → Prop) (log : List α) (t : T) :
    Prop :=
  ∀ g, g < K.bound → t = K.token g →
    g ≤ generation breaks log ∧ (g = generation breaks log → Lately breaks p log)

/-- The current token is worth what has just happened. -/
theorem Granted.current (h : Lately breaks p log) :
    Granted K breaks p log (K.token (generation breaks log)) := by
  intro g hg ht
  rcases Nat.lt_or_ge (generation breaks log) K.bound with hlog | hlog
  · exact ⟨Nat.le_of_eq (K.distinct hg hlog ht.symm), fun _ => h⟩
  · exact ⟨Nat.le_trans (Nat.le_of_lt hg) hlog, fun _ => h⟩

/-- A value that is no token is worth anything. -/
theorem Granted.of_ne (h : ∀ g, g < K.bound → t ≠ K.token g) : Granted K breaks p log t :=
  fun g hg ht => absurd ht (h g hg)

theorem Granted.cons (h : Granted K breaks p log t) : Granted K breaks p (a :: log) t := by
  intro g hg ht
  obtain ⟨hle, hp⟩ := h g hg ht
  cases ha : breaks a with
  | true =>
    rw [generation_cons_of_break ha]
    exact ⟨Nat.le_succ_of_le hle, fun he => absurd hle (by omega)⟩
  | false =>
    rw [generation_cons_of_calm ha]
    exact ⟨hle, fun he => (hp he).cons ha⟩

/-- The token is checked: it is the current one, and has not wrapped. -/
theorem Granted.lately (h : Granted K breaks p log t) (hg : generation breaks log < K.bound)
    (ht : t = K.token (generation breaks log)) : Lately breaks p log :=
  (h _ hg ht).2 rfl

/-- The token is of no generation to come. -/
def Issued (K : Tokens T) (breaks : α → Bool) (log : List α) (t : T) : Prop :=
  ∀ g, g < K.bound → t = K.token g → g ≤ generation breaks log

theorem Granted.issued (h : Granted K breaks p log t) : Issued K breaks log t :=
  fun g hg ht => (h g hg ht).1

theorem Issued.current : Issued K breaks log (K.token (generation breaks log)) := by
  intro g hg ht
  rcases Nat.lt_or_ge (generation breaks log) K.bound with hlog | hlog
  · exact Nat.le_of_eq (K.distinct hg hlog ht.symm)
  · exact Nat.le_trans (Nat.le_of_lt hg) hlog

theorem Issued.of_ne (h : ∀ g, g < K.bound → t ≠ K.token g) : Issued K breaks log t :=
  fun g hg ht => absurd ht (h g hg)

theorem Issued.cons (h : Issued K breaks log t) : Issued K breaks (a :: log) t :=
  fun g hg ht => Nat.le_trans (h g hg ht) generation_le_cons

/-- What is found behind a stretch is older than the log. -/
theorem Issued.of_since {hold : α → Prop} (hs : Since hold p log)
    (hp : ∀ a past, p a past → Issued K breaks (a :: past) t) : Issued K breaks log t := by
  induction log with
  | nil => exact hs.elim
  | cons a past ih =>
    rcases hs with hfound | ⟨_, hs⟩
    · exact hp a past hfound
    · exact (ih hs).cons

/-- **A stretch that goes back to a token that is still current is calm**, and ends in the
    generation it began in. -/
theorem Issued.stretch {hold : α → Prop} (hs : Since hold p log)
    (hp : ∀ a past, p a past → Issued K breaks (a :: past) t)
    (hg : generation breaks log < K.bound) (ht : t = K.token (generation breaks log)) :
    Since (fun a => breaks a = false ∧ hold a)
      (fun a past => p a past ∧ generation breaks (a :: past) = generation breaks log) log := by
  induction log with
  | nil => exact hs
  | cons a past ih =>
    rcases hs with hfound | ⟨hhold, hs⟩
    · exact .inl ⟨hfound, rfl⟩
    · have hle := Issued.of_since hs hp _ hg ht
      have hcalm : breaks a = false := by
        cases ha : breaks a with
        | false => rfl
        | true =>
          rw [generation_cons_of_break ha] at hle
          omega
      have hsame : generation breaks (a :: past) = generation breaks past :=
        generation_cons_of_calm hcalm
      rw [hsame] at hg ht ⊢
      exact .inr ⟨⟨hcalm, hhold⟩, ih hs hg ht⟩

end

end Trace
end Mowgli
