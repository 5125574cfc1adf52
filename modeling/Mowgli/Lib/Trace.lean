import Mathlib.Data.List.Basic

/-!
# Trace — past-time operators over a newest-first log

A system that keeps a log of what it did is described by what its log says, and
the useful sentences are about the past: *this happened after that*, *nothing of
this kind happened since*, *every entry was right when it was written*. The log is
a list with the newest entry first, so **the past of an entry is the tail behind
it**, and each operator is a recursion on that tail.

A condition on an entry takes the entry and its own past, which is how one
sentence is put inside another: `Since hold (fun a past => p a ∧ Once q past)`.

`Always.iff_split` and `Since.iff_split` are the readings without recursion, the
ones a statement meant for a reader is checked against.
-/

namespace Mowgli
namespace Trace

variable {α : Type}

/-- Some entry of the log satisfies `p`, seen with its own past. -/
def Once (p : α → List α → Prop) : List α → Prop
  | [] => False
  | a :: past => p a past ∨ Once p past

/-- Some entry satisfies `p`, and every entry written after it satisfies `hold`. -/
def Since (hold : α → Prop) (p : α → List α → Prop) : List α → Prop
  | [] => False
  | a :: past => p a past ∨ (hold a ∧ Since hold p past)

/-- Every entry satisfies `p`, each seen with its own past. -/
def Always (p : α → List α → Prop) : List α → Prop
  | [] => True
  | a :: past => p a past ∧ Always p past

/-! ## Unfolding -/

variable {p q : α → List α → Prop} {hold hold' : α → Prop} {log : List α}

@[simp] theorem once_nil : Once p [] ↔ False := Iff.rfl

variable {past : List α}

@[simp] theorem once_cons {a : α} : Once p (a :: past) ↔ p a past ∨ Once p past := Iff.rfl

@[simp] theorem since_nil : Since hold p [] ↔ False := Iff.rfl

@[simp] theorem since_cons {a : α} :
    Since hold p (a :: past) ↔ p a past ∨ (hold a ∧ Since hold p past) := Iff.rfl

@[simp] theorem always_nil : Always p [] ↔ True := Iff.rfl

@[simp] theorem always_cons {a : α} : Always p (a :: past) ↔ p a past ∧ Always p past := Iff.rfl

/-! ## A finite log can be checked -/

instance Since.decide {hold : α → Prop} {p : α → List α → Prop} [∀ a, Decidable (hold a)]
    [∀ a past, Decidable (p a past)] : ∀ log, Decidable (Since hold p log)
  | [] => isFalse id
  | _ :: past =>
    have : Decidable (Since hold p past) := Since.decide past
    inferInstanceAs (Decidable (_ ∨ _))

instance Always.decide {p : α → List α → Prop} [∀ a past, Decidable (p a past)] :
    ∀ log, Decidable (Always p log)
  | [] => isTrue trivial
  | _ :: past =>
    have : Decidable (Always p past) := Always.decide past
    inferInstanceAs (Decidable (_ ∧ _))

/-! ## The readings without recursion -/

/-- `Always` is a statement about every way to cut the log at one of its entries. -/
theorem Always.iff_split : Always p log ↔ ∀ later a past, log = later ++ a :: past → p a past := by
  induction log with
  | nil => simp
  | cons b rest ih =>
    rw [always_cons, ih]
    constructor
    · rintro ⟨hb, hrest⟩ later a past hl
      cases later with
      | nil =>
        simp only [List.nil_append, List.cons.injEq] at hl
        obtain ⟨rfl, rfl⟩ := hl
        exact hb
      | cons c later =>
        simp only [List.cons_append, List.cons.injEq] at hl
        exact hrest later a past hl.2
    · intro h
      exact ⟨h [] b rest rfl, fun later a past hl => h (b :: later) a past (by rw [hl]; rfl)⟩

/-- `Since` names the entry, and the stretch of the log written after it. -/
theorem Since.iff_split :
    Since hold p log ↔
      ∃ later a past, log = later ++ a :: past ∧ (∀ e ∈ later, hold e) ∧ p a past := by
  induction log with
  | nil => simp
  | cons b rest ih =>
    rw [since_cons, ih]
    constructor
    · rintro (hb | ⟨hhold, later, a, past, rfl, hlater, hp⟩)
      · exact ⟨[], b, rest, rfl, by simp, hb⟩
      · refine ⟨b :: later, a, past, rfl, ?_, hp⟩
        intro e he
        rcases List.mem_cons.1 he with rfl | he
        · exact hhold
        · exact hlater e he
    · rintro ⟨later, a, past, hl, hlater, hp⟩
      cases later with
      | nil =>
        simp only [List.nil_append, List.cons.injEq] at hl
        obtain ⟨rfl, rfl⟩ := hl
        exact .inl hp
      | cons c later =>
        simp only [List.cons_append, List.cons.injEq] at hl
        obtain ⟨rfl, hl⟩ := hl
        exact .inr ⟨hlater b (by simp),
          later, a, past, hl, fun e he => hlater e (by simp [he]), hp⟩

/-- A relation between an entry and all before it. -/
theorem Always.pairwise {R : α → α → Prop} (h : Always (fun a past => ∀ b ∈ past, R a b) log) :
    log.Pairwise R := by
  induction log with
  | nil => exact .nil
  | cons a past ih => exact .cons h.1 (ih h.2)

/-! ## Weakening -/

theorem Since.mono (hh : ∀ a, hold a → hold' a) (h : ∀ a past, p a past → q a past)
    (hs : Since hold p log) : Since hold' q log := by
  induction log with
  | nil => exact hs
  | cons a past ih =>
    rcases hs with hp | ⟨ha, hs⟩
    · exact .inl (h a past hp)
    · exact .inr ⟨hh a ha, ih hs⟩

theorem Always.mono (h : ∀ a past, p a past → q a past) (ha : Always p log) : Always q log := by
  induction log with
  | nil => trivial
  | cons a past ih => exact ⟨h a past ha.1, ih ha.2⟩

/-- Every entry sees a past of which the same is known. -/
theorem Always.withPast (ha : Always p log) :
    Always (fun a past => p a past ∧ Always p past) log := by
  induction log with
  | nil => trivial
  | cons a past ih => exact ⟨ha, ih ha.2⟩

/-- What is known of every entry is known of the one a `Since` finds. -/
theorem Since.withAlways (hs : Since hold p log) (ha : Always q log) :
    Since hold (fun a past => p a past ∧ q a past ∧ Always q past) log := by
  induction log with
  | nil => exact hs
  | cons a past ih =>
    rcases hs with hp | ⟨hh, hs⟩
    · exact .inl ⟨hp, ha.1, ha.2⟩
    · exact .inr ⟨hh, ih hs ha.2⟩

/-- A stretch that ends where another one begins is one stretch. -/
theorem Since.flatten (hs : Since hold p log) (hh : ∀ a, hold a → hold' a)
    (h : ∀ a past, p a past → hold' a ∧ Since hold' q past) : Since hold' q log := by
  induction log with
  | nil => exact hs
  | cons a past ih =>
    rcases hs with hp | ⟨ha, hs⟩
    · exact .inr (h a past hp)
    · exact .inr ⟨hh a ha, ih hs⟩

/-- Two readings of one stretch: what the second finds is never newer than what the first
    finds, so its condition has held since the first too. -/
theorem Since.since (hs : Since hold p log) (hs' : Since hold' q log)
    (h : ∀ a past, q a past → ¬hold a) : Since (fun a => hold' a ∧ hold a) p log := by
  induction log with
  | nil => exact hs
  | cons a past ih =>
    rcases hs with hp | ⟨ha, hs⟩
    · exact .inl hp
    · rcases hs' with hq | ⟨ha', hs'⟩
      · exact absurd ha (h a past hq)
      · exact .inr ⟨⟨ha', ha⟩, ih hs hs'⟩

/-- The same, where nothing is found twice: what the second finds is behind the first. -/
theorem Since.behind (hs : Since hold p log) (hs' : Since hold' q log)
    (h : ∀ a past, q a past → ¬hold a) (hpq : ∀ a past, p a past → ¬q a past) :
    Since (fun a => hold' a ∧ hold a) (fun a past => p a past ∧ Since hold' q past) log := by
  induction log with
  | nil => exact hs
  | cons a past ih =>
    rcases hs' with hq | ⟨ha', hs'⟩
    · rcases hs with hp | ⟨ha, _⟩
      · exact absurd hq (hpq a past hp)
      · exact absurd ha (h a past hq)
    · rcases hs with hp | ⟨ha, hs⟩
      · exact .inl ⟨hp, hs'⟩
      · exact .inr ⟨⟨ha', ha⟩, ih hs hs'⟩

/-! ## Longer logs -/

/-- Entries that are neither `p` nor a break of `hold` leave a `Since` as it was. -/
theorem Since.append_iff {later : List α} (h : ∀ a ∈ later, hold a ∧ ∀ past, ¬p a past) :
    Since hold p (later ++ log) ↔ Since hold p log := by
  induction later with
  | nil => exact Iff.rfl
  | cons a later ih =>
    obtain ⟨hold', hnot⟩ := h a (by simp)
    rw [List.cons_append, since_cons, ih fun b hb => h b (by simp [hb])]
    constructor
    · rintro (hp | ⟨_, hs⟩)
      · exact absurd hp (hnot _)
      · exact hs
    · exact fun hs => .inr ⟨hold', hs⟩

/-- Entries that do not break `hold` leave a `Since` true. -/
theorem Since.later {later : List α} (hs : Since hold p log) (h : ∀ a ∈ later, hold a) :
    Since hold p (later ++ log) := by
  induction later with
  | nil => exact hs
  | cons a later ih => exact .inr ⟨h a (by simp), ih fun b hb => h b (by simp [hb])⟩

/-- Entries that satisfy `p` whatever of `later` stands behind them extend an `Always`. -/
theorem Always.append {later : List α} (ha : Always p log)
    (h : ∀ a ∈ later, ∀ past, (∀ b ∈ past, b ∈ later) → p a (past ++ log)) :
    Always p (later ++ log) := by
  induction later with
  | nil => exact ha
  | cons a later ih =>
    refine ⟨h a (by simp) later fun b hb => by simp [hb], ih fun b hb past hpast => ?_⟩
    exact h b (by simp [hb]) past fun c hc => by simp [hpast c hc]

end Trace
end Mowgli
