import Mathlib.Data.List.Basic

/-!
# Receiver — a machine that takes symbols one at a time, and delivers

What arrives is cut into chunks where the transport likes to cut it, and a receiver must
not see the cuts: `delivered_chunks` says it does not, whatever it is, as long as it takes
**one symbol after the other**.

`Framing` is what a frame format owes a receiver. A frame opens with a symbol that brings
the receiver to rest from any state, so `Framing.delivered` holds from any state as well:
after whatever came before, every frame of a stream is delivered, once and in order.
-/

namespace Mowgli

/-- What one symbol does: the next state, and what is delivered with it. -/
structure Receiver (α σ δ : Type) where
  take : σ → α → σ × List δ

namespace Receiver

variable {α σ δ π : Type} (R : Receiver α σ δ)

/-- The state after a word. -/
def state (s : σ) : List α → σ
  | [] => s
  | a :: w => state (R.take s a).1 w

/-- What a word delivers. -/
def delivered (s : σ) : List α → List δ
  | [] => []
  | a :: w => (R.take s a).2 ++ delivered (R.take s a).1 w

variable (s : σ)

@[simp] theorem state_nil : R.state s [] = s := rfl

@[simp] theorem state_cons (a : α) (w : List α) :
    R.state s (a :: w) = R.state (R.take s a).1 w := rfl

@[simp] theorem delivered_nil : R.delivered s [] = [] := rfl

@[simp] theorem delivered_cons (a : α) (w : List α) :
    R.delivered s (a :: w) = (R.take s a).2 ++ R.delivered (R.take s a).1 w := rfl

@[simp] theorem state_append (v w : List α) : R.state s (v ++ w) = R.state (R.state s v) w := by
  induction v generalizing s with
  | nil => rfl
  | cons a v ih => exact ih (R.take s a).1

@[simp] theorem delivered_append (v w : List α) :
    R.delivered s (v ++ w) = R.delivered s v ++ R.delivered (R.state s v) w := by
  induction v generalizing s with
  | nil => rfl
  | cons a v ih => simp [ih]

/-- A word that arrives in chunks, and what each of them delivers. -/
def deliveredChunks (s : σ) : List (List α) → List δ
  | [] => []
  | c :: cs => R.delivered s c ++ deliveredChunks (R.state s c) cs

/-- The state after the chunks of a word. -/
def stateChunks (s : σ) (cs : List (List α)) : σ := cs.foldl R.state s

/-- **A receiver does not see the cuts.** -/
theorem delivered_chunks (cs : List (List α)) :
    R.deliveredChunks s cs = R.delivered s cs.flatten := by
  induction cs generalizing s with
  | nil => rfl
  | cons c cs ih => simp [deliveredChunks, ih]

theorem state_chunks (cs : List (List α)) : R.stateChunks s cs = R.state s cs.flatten := by
  induction cs generalizing s with
  | nil => rfl
  | cons c cs ih =>
    show R.stateChunks (R.state s c) cs = _
    rw [ih, List.flatten_cons, state_append]

variable {R}

variable {s : σ}

/-- What one symbol keeps, a word keeps. -/
theorem state_keeps {p : σ → Prop} (h : ∀ s a, p s → p (R.take s a).1) (hs : p s) (w : List α) :
    p (R.state s w) := by
  induction w generalizing s with
  | nil => exact hs
  | cons a w ih => exact ih (h s a hs)

/-- What one symbol delivers in a state that keeps `p`, a word delivers. -/
theorem delivered_all {p : σ → Prop} {q : δ → Prop} (h : ∀ s a, p s → p (R.take s a).1)
    (hq : ∀ s a, p s → ∀ d ∈ (R.take s a).2, q d) (hs : p s) (w : List α) :
    ∀ d ∈ R.delivered s w, q d := by
  induction w generalizing s with
  | nil => intro d hd; exact absurd hd (by simp)
  | cons a w ih =>
    intro d hd
    rcases List.mem_append.1 hd with hd | hd
    · exact hq s a hs d hd
    · exact ih (h s a hs) d hd

variable (R)

/-- A frame for each packet of `π`: the symbol `first`, and a body. -/
structure Framing (π : Type) where
  first : α
  body : π → List α
  /-- What the frame of a packet delivers. -/
  item : π → List δ
  /-- The states a frame may find. -/
  open' : σ → Prop
  /-- The states between two frames. -/
  idle : σ → Prop
  idle_open : ∀ s, idle s → open' s
  keeps : ∀ s a, open' s → open' (R.take s a).1
  opens : ∀ s, open' s → idle (R.take s first).1
  quiet : ∀ s, idle s → (R.take s first).2 = []
  closes : ∀ s p, idle s → idle (R.state s (body p))
  delivers : ∀ s p, idle s → R.delivered s (body p) = item p

namespace Framing

variable {R} (F : R.Framing π)

def frame (p : π) : List α := F.first :: F.body p

theorem idle_frame (hs : F.open' s) (p : π) : F.idle (R.state s (F.frame p)) :=
  F.closes _ p (F.opens s hs)

theorem idle_frames (hs : F.idle s) (ps : List π) : F.idle (R.state s (ps.flatMap F.frame)) := by
  induction ps generalizing s with
  | nil => exact hs
  | cons p ps ih =>
    rw [List.flatMap_cons, state_append]
    exact ih (F.idle_frame (F.idle_open s hs) p)

theorem delivered_frame (hs : F.open' s) (p : π) :
    R.delivered s (F.frame p) = (R.take s F.first).2 ++ F.item p := by
  show (R.take s F.first).2 ++ R.delivered (R.take s F.first).1 (F.body p) = _
  rw [F.delivers _ p (F.opens s hs)]

/-- Between frames, a stream of frames delivers its items and nothing else. -/
theorem delivered_frames (hs : F.idle s) (ps : List π) :
    R.delivered s (ps.flatMap F.frame) = ps.flatMap F.item := by
  induction ps generalizing s with
  | nil => rfl
  | cons p ps ih =>
    have hopen := F.idle_open s hs
    rw [List.flatMap_cons, List.flatMap_cons, delivered_append, F.delivered_frame hopen,
      F.quiet s hs, ih (F.idle_frame hopen p), List.nil_append]

/-- **After any garbage** every frame of a stream is delivered, once and in order; before
    them comes what the first symbol makes of the garbage. -/
theorem delivered (hs : F.open' s) (garbage : List α) (p : π) (ps : List π) :
    R.delivered s (garbage ++ (p :: ps).flatMap F.frame) =
      R.delivered s (garbage ++ [F.first]) ++ (p :: ps).flatMap F.item := by
  have hopen : F.open' (R.state s garbage) := state_keeps F.keeps hs garbage
  rw [List.flatMap_cons, List.flatMap_cons, delivered_append, delivered_append,
    F.delivered_frame hopen, F.delivered_frames (F.idle_frame hopen p)]
  simp

/-- The receiver is at rest then. -/
theorem idle_after (hs : F.open' s) (garbage : List α) (p : π) (ps : List π) :
    F.idle (R.state s (garbage ++ (p :: ps).flatMap F.frame)) := by
  have hopen : F.open' (R.state s garbage) := state_keeps F.keeps hs garbage
  rw [List.flatMap_cons, state_append, state_append]
  exact F.idle_frames (F.idle_frame hopen p) ps

end Framing
end Receiver
end Mowgli
