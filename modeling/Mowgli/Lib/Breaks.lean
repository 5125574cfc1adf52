import Mathlib.Algebra.Order.Field.Basic
import Mathlib.Data.List.Destutter
import Mathlib.Tactic.Linarith

/-!
# Breaks — the unit interval split at a sorted list of places

Between two neighbours of the list no other place is, so a point is one of the places or inside
one gap. What cannot change inside a gap holds everywhere when it holds at the places and at the
middle of each gap (`forall_unit_iff`).
-/

namespace Mowgli
namespace Breaks

variable {K : Type} [LinearOrder K] {ts : List K}

/-- Neighbours. -/
def gaps (ts : List K) : List (K × K) := ts.zip ts.tail

/-- Inside a gap. -/
def Within (e : K × K) (t : K) : Prop := e.1 < t ∧ t < e.2

variable {e : K × K} {t : K}

omit [LinearOrder K] in
theorem mem_of_gaps (h : e ∈ gaps ts) : e.1 ∈ ts ∧ e.2 ∈ ts := by
  have hzip := List.of_mem_zip (show (e.1, e.2) ∈ ts.zip ts.tail from h)
  exact ⟨hzip.1, List.mem_of_mem_tail hzip.2⟩

/-- Neighbours are in order, and no place is between them. -/
theorem gaps_spec (hsorted : ts.Pairwise (· ≤ ·)) (he : e ∈ gaps ts) :
    e.1 ≤ e.2 ∧ ∀ x ∈ ts, x ≤ e.1 ∨ e.2 ≤ x := by
  induction ts with
  | nil => cases he
  | cons a l ih =>
    cases l with
    | nil => cases he
    | cons b l =>
      obtain ⟨hfirst, hrest⟩ := List.pairwise_cons.1 hsorted
      have hab : a ≤ b := hfirst b List.mem_cons_self
      have hb : ∀ x ∈ b :: l, b ≤ x := by
        intro x hx
        rcases List.mem_cons.1 hx with rfl | hx
        · exact le_refl x
        · exact (List.pairwise_cons.1 hrest).1 x hx
      rcases List.mem_cons.1 (show e ∈ (a, b) :: gaps (b :: l) from he) with rfl | he
      · refine ⟨hab, ?_⟩
        intro x hx
        rcases List.mem_cons.1 hx with rfl | hx
        · exact Or.inl (le_refl x)
        · exact Or.inr (hb x hx)
      · obtain ⟨hle, hfree⟩ := ih hrest he
        refine ⟨hle, ?_⟩
        have hstart : a ≤ e.1 := hfirst _ (mem_of_gaps he).1
        intro x hx
        rcases List.mem_cons.1 hx with rfl | hx
        · exact Or.inl hstart
        · exact hfree x hx

/-- A walk that starts at or before a point and reaches it comes upon it or steps over it. -/
theorem mem_or_gap_cons {a : K} {l : List K} (ha : a ≤ t) (hhigh : ∃ x ∈ a :: l, t ≤ x) :
    t ∈ a :: l ∨ ∃ e ∈ gaps (a :: l), Within e t := by
  induction l generalizing a with
  | nil =>
    obtain ⟨x, hx, hle⟩ := hhigh
    rw [List.mem_singleton.1 hx] at hle
    exact Or.inl (by rw [le_antisymm ha hle]; exact List.mem_cons_self)
  | cons b l ih =>
    rcases eq_or_lt_of_le ha with rfl | hlt
    · exact Or.inl List.mem_cons_self
    · by_cases hb : b ≤ t
      · have hrest : ∃ x ∈ b :: l, t ≤ x := by
          obtain ⟨x, hx, hle⟩ := hhigh
          rcases List.mem_cons.1 hx with rfl | hx
          · exact absurd hle (not_le.2 hlt)
          · exact ⟨x, hx, hle⟩
        rcases ih hb hrest with hmem | ⟨e, he, hin⟩
        · exact Or.inl (List.mem_cons_of_mem a hmem)
        · exact Or.inr ⟨e, List.mem_cons_of_mem (a, b) he, hin⟩
      · exact Or.inr ⟨(a, b), List.mem_cons_self, hlt, not_le.1 hb⟩

omit [LinearOrder K] in
/-- Each gap begins where the one before ends. -/
theorem gaps_chain (ts : List K) : (gaps ts).IsChain fun e e' => e.2 = e'.1 := by
  induction ts with
  | nil => exact List.IsChain.nil
  | cons a l ih =>
    cases l with
    | nil => exact List.IsChain.nil
    | cons b l =>
      show ((a, b) :: gaps (b :: l)).IsChain fun e e' => e.2 = e'.1
      cases l with
      | nil => exact List.IsChain.singleton _
      | cons c l => exact List.IsChain.cons_cons rfl ih

theorem gaps_pairwise (hsorted : ts.Pairwise (· ≤ ·)) :
    (gaps ts).Pairwise fun e e' => e.2 ≤ e'.1 := by
  induction ts with
  | nil => exact List.Pairwise.nil
  | cons a l ih =>
    cases l with
    | nil => exact List.Pairwise.nil
    | cons b l =>
      obtain ⟨-, hrest⟩ := List.pairwise_cons.1 hsorted
      refine List.pairwise_cons.2 ⟨?_, ih hrest⟩
      intro e he
      rcases List.mem_cons.1 (mem_of_gaps he).1 with heq | hmem
      · exact le_of_eq heq.symm
      · exact (List.pairwise_cons.1 hrest).1 _ hmem

/-- A point between two places is a place, or inside a gap. -/
theorem mem_or_gap (hsorted : ts.Pairwise (· ≤ ·)) (hlow : ∃ x ∈ ts, x ≤ t)
    (hhigh : ∃ x ∈ ts, t ≤ x) : t ∈ ts ∨ ∃ e ∈ gaps ts, Within e t := by
  cases ts with
  | nil =>
    obtain ⟨x, hx, -⟩ := hlow
    cases hx
  | cons a l =>
    refine mem_or_gap_cons ?_ hhigh
    obtain ⟨x, hx, hle⟩ := hlow
    rcases List.mem_cons.1 hx with rfl | hx
    · exact hle
    · exact le_trans ((List.pairwise_cons.1 hsorted).1 x hx) hle

/-- A walk that starts at or before a point and goes on to reach it has it in a closed gap. -/
theorem closed_gap_cons {a : K} {l : List K} (ha : a ≤ t) (hhigh : ∃ x ∈ l, t ≤ x) :
    ∃ e ∈ gaps (a :: l), e.1 ≤ t ∧ t ≤ e.2 := by
  induction l generalizing a with
  | nil =>
    obtain ⟨x, hx, -⟩ := hhigh
    cases hx
  | cons b l ih =>
    by_cases hb : t ≤ b
    · exact ⟨(a, b), List.mem_cons_self, ha, hb⟩
    · have hrest : ∃ x ∈ l, t ≤ x := by
        obtain ⟨x, hx, hle⟩ := hhigh
        rcases List.mem_cons.1 hx with rfl | hx
        · exact absurd hle hb
        · exact ⟨x, hx, hle⟩
      obtain ⟨e, he, hin⟩ := ih (le_of_lt (not_le.1 hb)) hrest
      exact ⟨e, List.mem_cons_of_mem (a, b) he, hin⟩

/-! ## Places without repetition -/

/-- What is left when neighbours that are equal are merged. -/
theorem mem_destutter : t ∈ ts.destutter (· ≠ ·) ↔ t ∈ ts := by
  have hcons : ∀ (l : List K) (a : K), t ∈ l.destutter' (· ≠ ·) a ↔ t ∈ a :: l := by
    intro l
    induction l with
    | nil => simp
    | cons b l ih =>
      intro a
      by_cases hab : a = b
      · rw [List.destutter'_cons_neg (R := (· ≠ ·)) l (not_not_intro hab), ih, hab]
        simp
      · rw [List.destutter'_cons_pos (R := (· ≠ ·)) l hab, List.mem_cons, ih]
        simp
  cases ts with
  | nil => rfl
  | cons a l =>
    rw [List.destutter_cons']
    exact hcons l a

/-- Sorted places without neighbours that are equal are strictly in order. -/
theorem strict_of_chain :
    ∀ {l : List K}, l.IsChain (· ≠ ·) → l.Pairwise (· ≤ ·) → l.Pairwise (· < ·)
  | [], _, _ => List.Pairwise.nil
  | [a], _, _ => List.pairwise_singleton _ a
  | a :: b :: l, hne, hle => by
    obtain ⟨hab, hne⟩ := List.isChain_cons_cons.1 hne
    obtain ⟨ha, hle⟩ := List.pairwise_cons.1 hle
    have hrest := strict_of_chain hne hle
    have hlt : a < b := lt_of_le_of_ne (ha b List.mem_cons_self) hab
    refine List.pairwise_cons.2 ⟨?_, hrest⟩
    intro x hx
    rcases List.mem_cons.1 hx with rfl | hx
    · exact hlt
    · exact lt_trans hlt ((List.pairwise_cons.1 hrest).1 x hx)

theorem strict_destutter (hsorted : ts.Pairwise (· ≤ ·)) :
    (ts.destutter (· ≠ ·)).Pairwise (· < ·) :=
  strict_of_chain (ts.isChain_destutter (· ≠ ·))
    (hsorted.sublist (ts.destutter_sublist (· ≠ ·)))

/-! ## The unit interval -/

section Unit

variable [Field K] [IsStrictOrderedRing K]

/-- Places of the unit interval, with both ends. -/
structure Splits (ts : List K) : Prop where
  sorted : ts.Pairwise (· ≤ ·)
  first : 0 ∈ ts
  last : 1 ∈ ts
  unit : ∀ t ∈ ts, 0 ≤ t ∧ t ≤ 1

omit [IsStrictOrderedRing K] in
theorem Splits.mem_or_gap (h : Splits ts) (h0 : 0 ≤ t) (h1 : t ≤ 1) :
    t ∈ ts ∨ ∃ e ∈ gaps ts, Within e t :=
  Breaks.mem_or_gap h.sorted ⟨0, h.first, h0⟩ ⟨1, h.last, h1⟩

theorem Splits.closed_gap (h : Splits ts) (h0 : 0 ≤ t) (h1 : t ≤ 1) :
    ∃ e ∈ gaps ts, e.1 ≤ t ∧ t ≤ e.2 := by
  obtain ⟨hsorted, hfirst, hlast, -⟩ := h
  cases ts with
  | nil => cases hfirst
  | cons a l =>
    have ha : a ≤ 0 := by
      rcases List.mem_cons.1 hfirst with heq | hmem
      · exact le_of_eq heq.symm
      · exact (List.pairwise_cons.1 hsorted).1 0 hmem
    refine closed_gap_cons (le_trans ha h0) ⟨1, ?_, h1⟩
    rcases List.mem_cons.1 hlast with heq | hmem
    · rw [← heq] at ha
      exact absurd ha (not_le.2 zero_lt_one)
    · exact hmem

theorem within_half (h : e.1 < e.2) : Within e ((e.1 + e.2) / 2) :=
  ⟨by linarith, by linarith⟩

/-- The middle of a gap is in the unit interval. -/
theorem Splits.half (h : Splits ts) (he : e ∈ gaps ts) :
    0 ≤ (e.1 + e.2) / 2 ∧ (e.1 + e.2) / 2 ≤ 1 := by
  obtain ⟨h1, h2⟩ := mem_of_gaps he
  obtain ⟨h10, h11⟩ := h.unit _ h1
  obtain ⟨h20, h21⟩ := h.unit _ h2
  constructor
  · linarith
  · linarith

/-- What the middle of a gap decides for the gap, the places and the middles decide for all. -/
theorem forall_unit_iff (h : Splits ts) {P : K → Prop}
    (hsame : ∀ e ∈ gaps ts, ∀ t, Within e t → P ((e.1 + e.2) / 2) → P t) :
    (∀ t, 0 ≤ t → t ≤ 1 → P t) ↔ (∀ t ∈ ts, P t) ∧ ∀ e ∈ gaps ts, P ((e.1 + e.2) / 2) := by
  constructor
  · intro hall
    refine ⟨?_, ?_⟩
    · intro t ht
      exact hall t (h.unit t ht).1 (h.unit t ht).2
    · intro e he
      exact hall _ (h.half he).1 (h.half he).2
  · intro hsome t h0 h1
    rcases h.mem_or_gap h0 h1 with hmem | ⟨e, he, hin⟩
    · exact hsome.1 t hmem
    · exact hsame e he t hin (hsome.2 e he)

/-- Where the first gaps of a list end: before it are those gaps and places, after it the rest. -/
theorem Splits.turn (h : Splits ts) {outs ins : List (K × K)} (hgaps : gaps ts = outs ++ ins)
    (hne : ins ≠ []) :
    ∃ r, (0 ≤ r ∧ r ≤ 1) ∧ (r = 0 ∨ ∃ e ∈ outs, e.2 = r) ∧
      (∀ t, r ≤ t → t ≤ 1 → ∃ e ∈ ins, e.1 ≤ t ∧ t ≤ e.2) ∧
      ∀ t, 0 ≤ t → t < r → t ∈ ts ∨ ∃ e ∈ outs, Within e t := by
  obtain ⟨first, rest, rfl⟩ := List.exists_cons_of_ne_nil hne
  have hfirst : first ∈ gaps ts := by
    rw [hgaps]
    exact List.mem_append_right _ List.mem_cons_self
  have hunit := h.unit _ (mem_of_gaps hfirst).1
  have horder := gaps_pairwise h.sorted
  rw [hgaps, List.pairwise_append] at horder
  obtain ⟨-, hrest, hacross⟩ := horder
  have hle : first.1 ≤ first.2 := (gaps_spec h.sorted hfirst).1
  have hins : ∀ e ∈ first :: rest, first.1 ≤ e.1 := by
    intro e he
    rcases List.mem_cons.1 he with rfl | he
    · exact le_refl _
    · exact le_trans hle ((List.pairwise_cons.1 hrest).1 e he)
  refine ⟨first.1, hunit, ?_, ?_, ?_⟩
  · rcases List.eq_nil_or_concat outs with rfl | ⟨front, last, rfl⟩
    · left
      cases ts with
      | nil => cases hfirst
      | cons a l =>
        cases l with
        | nil => cases hfirst
        | cons b l =>
          have hhead : first = (a, b) := (List.cons.inj hgaps).1.symm
          rw [hhead]
          rcases List.mem_cons.1 h.first with heq | hmem
          · exact heq.symm
          · exact le_antisymm ((List.pairwise_cons.1 h.sorted).1 0 hmem)
              (h.unit a List.mem_cons_self).1
    · right
      have hchain := gaps_chain ts
      rw [hgaps, List.concat_eq_append, List.append_assoc, List.singleton_append] at hchain
      have hpair := (List.isChain_append_cons_cons.1 hchain).2.1
      exact ⟨last, by simp, hpair⟩
  · intro t hlow hhigh
    obtain ⟨e, he, hin⟩ := h.closed_gap (le_trans hunit.1 hlow) hhigh
    rw [hgaps, List.mem_append] at he
    rcases he with he | he
    · have hend : e.2 ≤ first.1 := hacross e he first List.mem_cons_self
      exact ⟨first, List.mem_cons_self, hlow, le_trans (le_trans hin.2 hend) hle⟩
    · exact ⟨e, he, hin⟩
  · intro t h0 hlt
    rcases h.mem_or_gap h0 (le_trans (le_of_lt hlt) hunit.2) with hmem | ⟨e, he, hin⟩
    · exact Or.inl hmem
    · rw [hgaps, List.mem_append] at he
      rcases he with he | he
      · exact Or.inr ⟨e, he, hin⟩
      · exact absurd hin.1 (not_lt.2 (le_trans (le_of_lt hlt) (hins e he)))

end Unit

end Breaks
end Mowgli
