import Mathlib.Data.List.Nodup
import Mathlib.Data.List.Range

/-!
# Worklist — a search that marks a node when it is pushed

The nodes are the numbers below `n`, `near` says which of them a node leads to, and `found` is what
is looked for. A node is marked as it goes on the stack, so **it goes there once**
(`Sound.nodup`); and what is not found when the stack is empty **cannot be reached**: the nodes
that were pushed are closed under `near` (`search_closed`).
-/

namespace Mowgli
namespace Worklist

/-- The marks, the stack with its top first, and every push there was, the last one first. -/
structure Walk where
  visited : ℕ → Bool
  pending : List ℕ
  pushed : List ℕ

def Walk.fresh : Walk := { visited := fun _ => false, pending := [], pushed := [] }

def Walk.push (w : Walk) (i : ℕ) : Walk :=
  { visited := fun k => w.visited k || k == i, pending := i :: w.pending, pushed := i :: w.pushed }

variable (found : ℕ → Bool) (near : ℕ → ℕ → Bool) (n : ℕ)

/-- The loop over the nodes, from the node just popped. -/
def expand (current : ℕ) : List ℕ → Walk → Walk
  | [], w => w
  | i :: rest, w =>
    if !w.visited i && near current i then expand current rest (w.push i)
    else expand current rest w

/-- The nodes a loop pushes. -/
def fresh (current : ℕ) (nodes : List ℕ) (w : Walk) : List ℕ :=
  nodes.filter (fun i => !w.visited i && near current i)

/-- A walk with these nodes pushed in order. -/
def Walk.pushAll (w : Walk) (nodes : List ℕ) : Walk :=
  { visited := fun k => w.visited k || nodes.contains k
    pending := nodes.reverse ++ w.pending
    pushed := nodes.reverse ++ w.pushed }

theorem Walk.pushAll_nil (w : Walk) : w.pushAll [] = w := by
  simp [pushAll]

theorem Walk.pushAll_cons (w : Walk) (i : ℕ) (nodes : List ℕ) :
    w.pushAll (i :: nodes) = (w.push i).pushAll nodes := by
  simp only [pushAll, push, List.contains_cons, Bool.or_assoc, List.reverse_cons,
    List.append_assoc, List.singleton_append]

variable (current : ℕ)

theorem expand_eq {nodes : List ℕ} (h : nodes.Nodup) (w : Walk) :
    expand near current nodes w = w.pushAll (fresh near current nodes w) := by
  induction nodes generalizing w with
  | nil => rw [expand, fresh, List.filter_nil, Walk.pushAll_nil]
  | cons i rest ih =>
    obtain ⟨hi, hrest⟩ := List.nodup_cons.1 h
    rw [expand]
    cases hpush : !w.visited i && near current i with
    | false =>
      rw [if_neg (by simp), ih hrest]
      congr 1
      unfold fresh
      rw [List.filter_cons_of_neg (by simp [hpush])]
    | true =>
      rw [if_pos rfl, ih hrest]
      have hsame : fresh near current rest (w.push i) = fresh near current rest w := by
        unfold fresh
        apply List.filter_congr
        intro k hk
        have hne : (k == i) = false := by
          apply beq_false_of_ne
          intro heq
          exact hi (heq ▸ hk)
        simp only [Walk.push, hne, Bool.or_false]
      rw [hsame]
      unfold fresh
      rw [List.filter_cons_of_pos (p := fun i => !w.visited i && near current i) hpush,
        Walk.pushAll_cons]

/-- What is not marked. -/
def unvisited (w : Walk) : List ℕ := (List.range n).filter (fun i => !w.visited i)

theorem fresh_eq (w : Walk) :
    fresh near current (List.range n) w = (unvisited n w).filter (near current) := by
  unfold fresh unvisited
  rw [List.filter_filter]
  apply List.filter_congr
  intro i _
  rw [Bool.and_comm]

theorem unvisited_expand (w : Walk) :
    unvisited n (expand near current (List.range n) w) =
      (unvisited n w).filter (fun i => !near current i) := by
  rw [expand_eq near current List.nodup_range]
  unfold unvisited
  rw [List.filter_filter]
  apply List.filter_congr
  intro i hi
  have hmem : (fresh near current (List.range n) w).contains i =
      (!w.visited i && near current i) := by
    rw [Bool.eq_iff_iff, List.contains_iff_mem]
    unfold fresh
    rw [List.mem_filter]
    exact and_iff_right hi
  simp only [Walk.pushAll, hmem]
  cases w.visited i <;> cases near current i <;> rfl

/-- Each push takes a node from those not marked. -/
theorem expand_length (w : Walk) :
    (unvisited n (expand near current (List.range n) w)).length +
      (expand near current (List.range n) w).pending.length =
        (unvisited n w).length + w.pending.length := by
  have hsplit := List.length_eq_length_filter_add (l := unvisited n w) (near current)
  rw [unvisited_expand, expand_eq near current List.nodup_range, fresh_eq]
  simp only [Walk.pushAll, List.length_append, List.length_reverse]
  omega

/-- Until something is found, or the stack is empty. -/
def search (w : Walk) : Bool × Walk :=
  match _hpending : w.pending with
  | [] => (false, w)
  | current :: rest =>
    if found current then (true, { w with pending := rest })
    else search (expand near current (List.range n) { w with pending := rest })
termination_by (unvisited n w).length + w.pending.length
decreasing_by
  rw [expand_length, _hpending]
  show (unvisited n w).length + rest.length < _
  simp

variable {w : Walk} {current : ℕ}

theorem search_nil (h : w.pending = []) : search found near n w = (false, w) := by
  rw [search]
  split
  · rfl
  · next heq =>
    rw [h] at heq
    cases heq

variable {rest : List ℕ}

theorem search_cons (h : w.pending = current :: rest) :
    search found near n w =
      if found current then (true, { w with pending := rest })
      else search found near n (expand near current (List.range n) { w with pending := rest }) := by
  rw [search]
  split
  · next heq =>
    rw [h] at heq
    cases heq
  · next heq =>
    rw [h] at heq
    cases heq
    rfl

/-! ## What the marks mean -/

/-- The marked nodes are those that were pushed, each of them once. -/
structure Sound (w : Walk) : Prop where
  nodup : w.pushed.Nodup
  lt : ∀ i ∈ w.pushed, i < n
  visited : ∀ i, w.visited i = true ↔ i ∈ w.pushed
  pending : ∀ i ∈ w.pending, i ∈ w.pushed

theorem Sound.fresh : Sound n Walk.fresh := by
  refine ⟨List.nodup_nil, ?_, ?_, ?_⟩
  · intro i hi
    cases hi
  · intro i
    simp [Walk.fresh]
  · intro i hi
    cases hi

variable {n}

theorem Sound.push (h : Sound n w) {i : ℕ} (hi : i < n) (hnew : w.visited i = false) :
    Sound n (w.push i) := by
  have hout : i ∉ w.pushed := by
    intro hmem
    rw [(h.visited i).2 hmem] at hnew
    cases hnew
  refine ⟨List.nodup_cons.2 ⟨hout, h.nodup⟩, ?_, ?_, ?_⟩
  · intro k hk
    rcases List.mem_cons.1 hk with rfl | hk
    · exact hi
    · exact h.lt k hk
  · intro k
    simp only [Walk.push, Bool.or_eq_true, beq_iff_eq, List.mem_cons, h.visited k]
    exact Or.comm
  · intro k hk
    rcases List.mem_cons.1 hk with rfl | hk
    · exact List.mem_cons_self
    · exact List.mem_cons_of_mem _ (h.pending k hk)

theorem Sound.expand {nodes : List ℕ} (hnodes : ∀ i ∈ nodes, i < n) (h : Sound n w) :
    Sound n (expand near current nodes w) := by
  induction nodes generalizing w with
  | nil => exact h
  | cons i rest ih =>
    have hrest : ∀ k ∈ rest, k < n := fun k hk => hnodes k (List.mem_cons_of_mem _ hk)
    rw [Worklist.expand]
    split
    · next hpush =>
      rw [Bool.and_eq_true, Bool.not_eq_true'] at hpush
      exact ih hrest (h.push (hnodes i List.mem_cons_self) hpush.1)
    · exact ih hrest h

theorem Sound.pop (h : Sound n w) (hpending : w.pending = current :: rest) :
    Sound n { w with pending := rest } := by
  refine ⟨h.nodup, h.lt, h.visited, ?_⟩
  intro i hi
  apply h.pending
  rw [hpending]
  exact List.mem_cons_of_mem _ hi

theorem Sound.range (h : Sound n w) : Sound n (Worklist.expand near current (List.range n) w) :=
  h.expand near (fun _ hi => List.mem_range.1 hi)

theorem Sound.search (h : Sound n w) : Sound n (search found near n w).2 := by
  induction w using search.induct found near n with
  | case1 w hpending =>
    rw [search_nil found near n hpending]
    exact h
  | case2 w current rest hpending hfound =>
    rw [search_cons found near n hpending, if_pos hfound]
    exact h.pop hpending
  | case3 w current rest hpending hfound ih =>
    rw [search_cons found near n hpending, if_neg hfound]
    exact ih ((h.pop hpending).range near)

/-- What was popped has been expanded, and is not what is looked for. -/
def Expanded (n : ℕ) (w : Walk) : Prop :=
  ∀ i ∈ w.pushed, i ∈ w.pending ∨
    (found i = false ∧ ∀ j < n, near i j = true → w.visited j = true)

variable {found near}

theorem Expanded.range (h : Expanded found near n w) (hpending : w.pending = current :: rest)
    (hfound : found current = false) :
    Expanded found near n (expand near current (List.range n) { w with pending := rest }) := by
  rw [expand_eq near current List.nodup_range]
  have hmono : ∀ j, w.visited j = true → ({ w with pending := rest }.pushAll
      (fresh near current (List.range n) { w with pending := rest })).visited j = true := by
    intro j hj
    simp [Walk.pushAll, hj]
  intro i hi
  rcases List.mem_append.1 hi with hi | hi
  · exact Or.inl (List.mem_append_left _ hi)
  · rcases h i hi with hold | ⟨hnot, hall⟩
    · rw [hpending] at hold
      rcases List.mem_cons.1 hold with rfl | hold
      · right
        refine ⟨hfound, ?_⟩
        intro j hj hnear
        cases hv : w.visited j with
        | true => exact hmono j hv
        | false =>
          have hmem : j ∈ fresh near i (List.range n) { w with pending := rest } :=
            List.mem_filter.2 ⟨List.mem_range.2 hj, by simp [hv, hnear]⟩
          simp [Walk.pushAll, hmem]
      · exact Or.inl (List.mem_append_right _ hold)
    · exact Or.inr ⟨hnot, fun j hj hnear => hmono j (hall j hj hnear)⟩

/-- A search that finds nothing has pushed all that can be reached, and none of it is found. -/
theorem search_closed (hs : Sound n w) (h : Expanded found near n w)
    (hfalse : (search found near n w).1 = false) :
    (∀ i ∈ w.pushed, i ∈ (search found near n w).2.pushed) ∧
      ∀ i ∈ (search found near n w).2.pushed, found i = false ∧
        ∀ j < n, near i j = true → j ∈ (search found near n w).2.pushed := by
  induction w using search.induct found near n with
  | case1 w hpending =>
    rw [search_nil found near n hpending]
    refine ⟨fun i hi => hi, ?_⟩
    intro i hi
    rcases h i hi with hmem | ⟨hnot, hall⟩
    · rw [hpending] at hmem
      cases hmem
    · exact ⟨hnot, fun j hj hnear => (hs.visited j).1 (hall j hj hnear)⟩
  | case2 w current rest hpending hfound =>
    rw [search_cons found near n hpending, if_pos hfound] at hfalse
    cases hfalse
  | case3 w current rest hpending hfound ih =>
    rw [search_cons found near n hpending, if_neg hfound] at hfalse ⊢
    have hexpanded := h.range hpending (by simpa using hfound)
    obtain ⟨hsub, hclosed⟩ := ih ((hs.pop hpending).range near) hexpanded hfalse
    refine ⟨?_, hclosed⟩
    intro i hi
    apply hsub
    rw [expand_eq near current List.nodup_range]
    exact List.mem_append_right _ hi

end Worklist
end Mowgli
