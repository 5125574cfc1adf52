import Mathlib.Data.List.Basic

/-!
# Errand — calls that may stay without an answer

A client asks a server that serves what reaches it in the order of arrival. A call may not reach it,
or reach it and stay unanswered: then it waits there, to be served at any later time or lost. While
the client is not calling, the server also hears of other things.

**An answer to one call says that nothing that came before it waits any more.** What the server
keeps under all it hears and all that waits holds until something else is asked (`Still`).
-/

namespace Mowgli
namespace Errand

/-- What happens at the server between two calls. -/
inductive Happening (H : Type) where
  /-- The first request that waits is served. -/
  | served
  | lost (i : Nat)
  | heard (h : H)

inductive Reach where
  | unsent
  | unanswered
  | answered
  deriving DecidableEq

/-- What becomes of one call, under the circumstances `C` the server meets. -/
structure Fate (C H : Type) where
  before : List (Happening H)
  circumstance : C
  reach : Reach

/-- The server, and the way there. -/
structure Link (S R C H : Type) where
  server : S
  waiting : List (R × C)
  /-- What becomes of the next calls; none is sent after the last. -/
  fates : List (Fate C H)
  /-- All that was sent. -/
  sent : List R

variable {S R C H A : Type}

section Calls

variable (serve : S → C → R → S × A) (hear : S → H → S)

def happen (l : Link S R C H) : Happening H → Link S R C H
  | .served =>
    match l.waiting with
    | [] => l
    | (r, c) :: waiting => { l with server := (serve l.server c r).1, waiting := waiting }
  | .lost i => { l with waiting := l.waiting.eraseIdx i }
  | .heard h => { l with server := hear l.server h }

/-- All that waits is served. -/
def drain (σ : S) (waiting : List (R × C)) : S :=
  waiting.foldl (fun σ w => (serve σ w.2 w.1).1) σ

/-- A call, with the answer if there is one. -/
def call (l : Link S R C H) (r : R) : Link S R C H × Option A :=
  match l.fates with
  | [] => (l, none)
  | fate :: fates =>
    let l := { fate.before.foldl (happen serve hear) l with fates := fates }
    match fate.reach with
    | .unsent => (l, none)
    | .unanswered =>
      ({ l with waiting := l.waiting ++ [(r, fate.circumstance)], sent := l.sent ++ [r] }, none)
    | .answered =>
      let done := serve (drain serve l.server l.waiting) fate.circumstance r
      ({ l with server := done.1, waiting := [], sent := l.sent ++ [r] }, some done.2)

/-! ## What holds until something else is asked -/

/-- Kept under all that is heard, and under every request of a kind. -/
structure Stable (P : S → Prop) (kind : R → Prop) : Prop where
  hear : ∀ σ h, P σ → P (hear σ h)
  serve : ∀ σ c r, kind r → P σ → P (serve σ c r).1

/-- It holds at the server, and only requests of a kind wait. -/
structure Still (P : S → Prop) (kind : R → Prop) (l : Link S R C H) : Prop where
  holds : P l.server
  waits : ∀ w ∈ l.waiting, kind w.1

variable {serve hear} {P : S → Prop} {kind : R → Prop} {l : Link S R C H}

theorem Still.happen (hs : Stable serve hear P kind) (h : Still P kind l) (e : Happening H) :
    Still P kind (happen serve hear l e) := by
  cases e with
  | served =>
    unfold Errand.happen
    cases hw : l.waiting with
    | nil => exact h
    | cons w waiting =>
      have hwaits := h.waits
      rw [hw] at hwaits
      exact ⟨hs.serve l.server w.2 w.1 (hwaits w List.mem_cons_self) h.holds,
        fun v hv => hwaits v (List.mem_cons_of_mem w hv)⟩
  | lost i => exact ⟨h.holds, fun w hw => h.waits w (List.mem_of_mem_eraseIdx hw)⟩
  | heard e => exact ⟨hs.hear l.server e h.holds, h.waits⟩

theorem Still.happenings (hs : Stable serve hear P kind) (h : Still P kind l)
    (es : List (Happening H)) : Still P kind (es.foldl (Errand.happen serve hear) l) := by
  induction es generalizing l with
  | nil => exact h
  | cons e es ih => exact ih (h.happen hs e)

theorem drain_keeps (hs : Stable serve hear P kind) {waiting : List (R × C)}
    (hwaits : ∀ w ∈ waiting, kind w.1) {σ : S} (h : P σ) : P (drain serve σ waiting) := by
  induction waiting generalizing σ with
  | nil => exact h
  | cons w waiting ih =>
    exact ih (fun v hv => hwaits v (List.mem_cons_of_mem w hv))
      (hs.serve σ w.2 w.1 (hwaits w List.mem_cons_self) h)

theorem Still.fates (h : Still P kind l) (fates : List (Fate C H)) :
    Still P kind { l with fates := fates } := ⟨h.holds, h.waits⟩

/-- Asking for more of the kind changes nothing. -/
theorem Still.call (hs : Stable serve hear P kind) (h : Still P kind l) {r : R} (hr : kind r) :
    Still P kind (call serve hear l r).1 := by
  unfold Errand.call
  split
  · exact h
  · rename_i fate fates _
    have hbefore := (h.happenings hs fate.before).fates fates
    dsimp only
    split
    · exact hbefore
    · refine ⟨hbefore.holds, ?_⟩
      intro w hw
      rcases List.mem_append.1 hw with hw | hw
      · exact hbefore.waits w hw
      · rw [List.mem_singleton.1 hw]
        exact hr
    · exact ⟨hs.serve _ fate.circumstance r hr (drain_keeps hs hbefore.waits hbefore.holds),
        fun w hw => absurd hw List.not_mem_nil⟩

/-- An answer: the request was served last, and what it was asked of still held. -/
theorem Still.answered (hs : Stable serve hear P kind) (h : Still P kind l) {r : R} {a : A}
    (ha : (Errand.call serve hear l r).2 = some a) :
    (Errand.call serve hear l r).1.waiting = [] ∧
      ∃ σ c, P σ ∧ serve σ c r = ((Errand.call serve hear l r).1.server, a) := by
  unfold Errand.call at ha ⊢
  split at ha
  · cases ha
  · rename_i fate fates _
    have hbefore := (h.happenings hs fate.before).fates fates
    dsimp only at ha ⊢
    split at ha
    · cases ha
    · cases ha
    · cases ha
      exact ⟨rfl, _, fate.circumstance, drain_keeps hs hbefore.waits hbefore.holds, rfl⟩

theorem Stable.of_kind {kind' : R → Prop} (hs : Stable serve hear P kind)
    (hkind : ∀ r, kind' r → kind r) : Stable serve hear P kind' :=
  ⟨hs.hear, fun σ c r hr => hs.serve σ c r (hkind r hr)⟩

theorem anything_stable : Stable serve hear (fun _ => True) (fun _ => True) :=
  ⟨fun _ _ _ => trivial, fun _ _ _ _ _ => trivial⟩

theorem anything_still (l : Link S R C H) : Still (fun _ => True) (fun _ => True) l :=
  ⟨trivial, fun _ _ => trivial⟩

theorem answered {r : R} {a : A} (ha : (call serve hear l r).2 = some a) :
    (call serve hear l r).1.waiting = [] ∧
      ∃ σ c, serve σ c r = ((call serve hear l r).1.server, a) := by
  obtain ⟨hwaiting, σ, c, -, hserve⟩ := (anything_still l).answered anything_stable ha
  exact ⟨hwaiting, σ, c, hserve⟩

theorem Still.of_nothing (hwaiting : l.waiting = []) (h : P l.server) : Still P kind l := by
  refine ⟨h, ?_⟩
  rw [hwaiting]
  exact fun w hw => absurd hw List.not_mem_nil

/-! ## Calls that are all answered -/

/-- The next `n` calls are answered, under circumstances of a kind. -/
structure Willing (ok : C → Prop) (n : Nat) (l : Link S R C H) : Prop where
  many : n ≤ l.fates.length
  all : ∀ fate ∈ l.fates, fate.reach = .answered ∧ ok fate.circumstance

theorem Willing.call {ok : C → Prop} {n : Nat} (hw : Willing ok (n + 1) l)
    (hs : Stable serve hear P kind) (h : Still P kind l) (r : R) :
    ∃ σ c, P σ ∧ ok c ∧ (Errand.call serve hear l r).2 = some (serve σ c r).2 ∧
      (Errand.call serve hear l r).1.server = (serve σ c r).1 ∧
        (Errand.call serve hear l r).1.waiting = [] ∧
          Willing ok n (Errand.call serve hear l r).1 := by
  unfold Errand.call
  split
  · rename_i hnone
    have hmany := hw.many
    rw [hnone] at hmany
    cases hmany
  · rename_i fate fates hfates
    obtain ⟨hmany, hall⟩ := hw
    rw [hfates] at hmany hall
    obtain ⟨hreach, hok⟩ := hall fate List.mem_cons_self
    have hbefore := (h.happenings hs fate.before).fates fates
    dsimp only
    rw [hreach]
    exact ⟨_, fate.circumstance, drain_keeps hs hbefore.waits hbefore.holds, hok, rfl, rfl, rfl,
      Nat.le_of_succ_le_succ hmany, fun f hf => hall f (List.mem_cons_of_mem fate hf)⟩

/-! ## What was sent -/

theorem happen_sent (l : Link S R C H) (e : Happening H) :
    (happen serve hear l e).sent = l.sent := by
  cases e with
  | served =>
    unfold happen
    cases l.waiting with
    | nil => rfl
    | cons w waiting => rfl
  | lost i => rfl
  | heard h => rfl

theorem happenings_sent (es : List (Happening H)) (l : Link S R C H) :
    (es.foldl (happen serve hear) l).sent = l.sent := by
  induction es generalizing l with
  | nil => rfl
  | cons e es ih => exact (ih _).trans (happen_sent l e)

theorem call_sent (l : Link S R C H) (r : R) :
    (call serve hear l r).1.sent = l.sent ∨ (call serve hear l r).1.sent = l.sent ++ [r] := by
  unfold call
  split
  · exact Or.inl rfl
  · rename_i fate fates _
    have hbefore := @happenings_sent _ _ _ _ _ serve hear fate.before l
    dsimp only
    split
    · exact Or.inl hbefore
    · exact Or.inr (congrArg (· ++ [r]) hbefore)
    · exact Or.inr (congrArg (· ++ [r]) hbefore)

end Calls

end Errand
end Mowgli
