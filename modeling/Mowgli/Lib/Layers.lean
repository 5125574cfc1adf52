import Mathlib.Data.List.Induction
import Mathlib.Tactic.Linarith

/-!
# Layers — cheapest walks through a layered graph, by a table of parents

A walk enters one node per layer, and every step has a price or is not allowed. A table holds,
for each node of each layer, a cost and the node it was entered from. `Table.Fits` is what a
table filled layer by layer satisfies, one step at a time, and it is enough: the walk read
back from the parents has the cost of the table (`Fits.walk`), and no walk to that node is
cheaper (`Fits.le`). Prices may be negative.

`pick` is the loop that keeps the better of two candidates, up to a tolerance.
-/

namespace Mowgli

/-! ## Keeping the better candidate -/

section Pick

variable {α : Type}

/-- One round: the first candidate is kept, and a later one if it is better. -/
def pick (better : α → α → Bool) : Option α → α → Option α
  | none, a => some a
  | some b, a => if better a b then some a else some b

/-- `better` decides by a cost, except that costs within `slack` may go either way. -/
structure Ranks (better : α → α → Bool) (cost : α → ℚ) (slack : ℚ) : Prop where
  nonneg : 0 ≤ slack
  of_better : ∀ a b, better a b = true → cost a ≤ cost b + slack
  of_not_better : ∀ a b, better a b = false → cost b ≤ cost a + slack

variable {better : α → α → Bool} {cost : α → ℚ} {slack : ℚ}

/-- What was kept was a candidate, and each round can have cost one slack. -/
theorem Ranks.picked (h : Ranks better cost slack) (xs : List α) :
    (xs.foldl (pick better) none = none ∧ xs = []) ∨
      ∃ b, xs.foldl (pick better) none = some b ∧ b ∈ xs ∧
        ∀ a ∈ xs, cost b ≤ cost a + slack * xs.length := by
  induction xs using List.reverseRecOn with
  | nil => exact Or.inl ⟨rfl, rfl⟩
  | append_singleton xs a ih =>
    right
    have hlen : ((xs ++ [a]).length : ℚ) = xs.length + 1 := by simp
    have hxs : 0 ≤ slack * xs.length := mul_nonneg h.nonneg (Nat.cast_nonneg _)
    rw [List.foldl_append, hlen]
    rcases ih with ⟨hnone, rfl⟩ | ⟨b, hsome, hmem, hle⟩
    · refine ⟨a, rfl, by simp, ?_⟩
      intro x hx
      have hxa : x = a := by simpa using hx
      have := h.nonneg
      simpa [hxa] using this
    · rw [hsome]
      simp only [List.foldl_cons, List.foldl_nil, pick]
      cases hbetter : better a b with
      | true =>
        have hab := h.of_better a b hbetter
        refine ⟨a, rfl, by simp, ?_⟩
        intro x hx
        rcases List.mem_append.1 hx with hx | hx
        · have := hle x hx
          linarith
        · rw [List.mem_singleton.1 hx]
          have := h.nonneg
          linarith
      | false =>
        have hba := h.of_not_better a b hbetter
        refine ⟨b, rfl, by simp [hmem], ?_⟩
        intro x hx
        rcases List.mem_append.1 hx with hx | hx
        · have := hle x hx
          have := h.nonneg
          linarith
        · rw [List.mem_singleton.1 hx]
          linarith

end Pick

/-! ## Walks and tables -/

/-- A start, and the price of entering a node of the next layer from one of layer `i`. -/
structure Layered (N K : Type) where
  start : N
  enter : ℕ → N → N → Option K

/-- A cost and a parent for each node of each layer. -/
structure Table (N K : Type) where
  cost : ℕ → N → Option K
  parent : ℕ → N → N

variable {N K : Type}

/-- A walk and its price, newest node first. -/
inductive Layered.Walk [Zero K] [Add K] (G : Layered N K) : List N → K → Prop
  | start : G.Walk [G.start] 0
  | step {m n : N} {w : List N} {c d : K} :
      G.Walk (m :: w) c → G.enter w.length m n = some d → G.Walk (n :: m :: w) (c + d)

/-- The walk to a node of layer `i`, read back from the parents. -/
def Table.trace (T : Table N K) : ℕ → N → List N
  | 0, n => [n]
  | i + 1, n => n :: T.trace i (T.parent (i + 1) n)

@[simp] theorem Table.length_trace (T : Table N K) (i : ℕ) (n : N) :
    (T.trace i n).length = i + 1 := by
  induction i generalizing n with
  | zero => rfl
  | succ i ih => simp [trace, ih]

theorem Table.trace_eq_cons (T : Table N K) (i : ℕ) (n : N) :
    ∃ w, T.trace i n = n :: w ∧ w.length = i := by
  cases i with
  | zero => exact ⟨[], rfl, rfl⟩
  | succ i => exact ⟨_, rfl, T.length_trace i _⟩

/-- What each layer of a table has to do with the one before it. -/
structure Table.Fits [Zero K] [Add K] [LE K] (T : Table N K) (G : Layered N K) : Prop where
  start : T.cost 0 G.start = some 0
  only : ∀ n c, T.cost 0 n = some c → n = G.start ∧ c = 0
  attained : ∀ i n c, T.cost (i + 1) n = some c →
    ∃ b d, T.cost i (T.parent (i + 1) n) = some b ∧
      G.enter i (T.parent (i + 1) n) n = some d ∧ c = b + d
  least : ∀ i m n b d, T.cost i m = some b → G.enter i m n = some d →
    ∃ c, T.cost (i + 1) n = some c ∧ c ≤ b + d

/-- The parents lead back along a walk of just the cost in the table. -/
theorem Table.Fits.walk [Zero K] [Add K] [LE K] {T : Table N K} {G : Layered N K}
    (h : T.Fits G) {i : ℕ} {n : N} {c : K} (hc : T.cost i n = some c) :
    G.Walk (T.trace i n) c := by
  induction i generalizing n c with
  | zero =>
    obtain ⟨rfl, rfl⟩ := h.only n c hc
    exact .start
  | succ i ih =>
    obtain ⟨b, d, hb, hd, rfl⟩ := h.attained i n c hc
    obtain ⟨w, htrace, hlen⟩ := T.trace_eq_cons i (T.parent (i + 1) n)
    have hwalk := ih hb
    show G.Walk (n :: T.trace i (T.parent (i + 1) n)) (b + d)
    rw [htrace] at hwalk ⊢
    exact .step hwalk (hlen ▸ hd)

/-- Bellman's principle: no walk to a node is cheaper than the table says. -/
theorem Table.Fits.le [AddCommMonoid K] [PartialOrder K] [IsOrderedAddMonoid K]
    {T : Table N K} {G : Layered N K} (h : T.Fits G) {n : N} {w : List N} {c : K}
    (hwalk : G.Walk (n :: w) c) : ∃ b, T.cost w.length n = some b ∧ b ≤ c := by
  generalize hnw : n :: w = l at hwalk
  induction hwalk generalizing n w with
  | start =>
    injection hnw with hn hw
    rw [hn, hw]
    exact ⟨0, h.start, le_refl 0⟩
  | @step m n' w' c d _ hd ih =>
    injection hnw with hn hw
    rw [hn, hw]
    obtain ⟨b, hb, hbc⟩ := ih rfl
    obtain ⟨c', hc', hle⟩ := h.least w'.length m n' b d hb hd
    exact ⟨c', hc', le_trans hle (add_le_add_left hbc d)⟩

end Mowgli
