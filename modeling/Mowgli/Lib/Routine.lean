import Mathlib.Logic.Basic

/-!
# Routine — a foreground routine that interrupts may run between its statements

Firmware without an operating system is one foreground routine and a set of
interrupt handlers over one memory. A handler runs to its end once it has started;
the foreground routine can be stopped **between any two of its statements**, and
what a handler did there is seen by the next statement.

`Routine` is the foreground side: a tree of atomic statements. A statement maps the
memory to a new memory and picks what runs next from the memory *it* saw, so a local
variable is a value captured when it was read and later reads may disagree with it.
Each statement is also given an **answer** of type `ω`, chosen by the environment:
whether a peripheral accepted the write, what a damaged word reads as.

`Machine` puts the routine and the handlers together. Its events are the handlers,
one statement of the foreground, the start of a foreground routine when none is
running, and a **cut**, which abandons whatever was running and reboots.

`Guard` and `Triple` are the rules of pre- and postconditions: `inv` is true before
and after every statement, `rely` is what the handlers may do in between, and a
triple's assertions are `Stable` under it. `Machine.Keeps.run` is the theorem the rules
are for: it carries `inv` to every configuration of every run. Where no statement needs to
know what the ones before it found, `Machine.invariant` is the shorter way.
-/

namespace Mowgli

/-- A foreground routine over the memory `σ`, with the answers `ω` of its environment. -/
inductive Routine (ω σ α : Type) : Type
  | ret (a : α)
  | act (f : ω → σ → σ) (k : ω → σ → Routine ω σ α)

namespace Routine

variable {ω σ τ α β : Type}

/-- Run `m`, then the routine its result picks. -/
def bind : Routine ω σ α → (α → Routine ω σ β) → Routine ω σ β
  | ret a, g => g a
  | act f k, g => act f (fun w s => (k w s).bind g)

instance : Monad (Routine ω σ) where
  pure := ret
  bind := bind

variable {g : α → Routine ω σ β} {m : Routine ω σ α}

@[simp] theorem ret_bind {a : α} : (ret a : Routine ω σ α) >>= g = g a :=
  rfl

@[simp] theorem pure_eq {a : α} : (pure a : Routine ω σ α) = ret a := rfl

@[simp] theorem act_bind {f : ω → σ → σ} {k : ω → σ → Routine ω σ α} :
    act f k >>= g = act f (fun w s => k w s >>= g) := rfl

/-- One statement that reads the memory. -/
def get (r : σ → α) : Routine ω σ α :=
  act (fun _ s => s) (fun _ s => ret (r s))

/-- One statement that writes the memory. -/
def modify (f : σ → σ) : Routine ω σ Unit :=
  act (fun _ s => f s) (fun _ _ => ret ())

/-- One statement that reads and writes the memory and hears the environment: a
    masked section, a register access, a transfer. -/
def call (f : ω → σ → α × σ) : Routine ω σ α :=
  act (fun w s => (f w s).2) (fun w s => ret (f w s).1)

/-- `m`, if `c`. -/
def whenever (c : Bool) (m : Routine ω σ Unit) : Routine ω σ Unit :=
  if c then m else ret ()

/-- The routine stopped after the statements that `ws` answers, with nothing running
    in between, and the memory it leaves. -/
def run : List ω → Routine ω σ α → σ → Routine ω σ α × σ
  | [], m, s => (m, s)
  | _ :: _, ret a, s => (ret a, s)
  | w :: ws, act f k, s => run ws (k w s) (f w s)

/-- The whole routine, with nothing running in between and one answer throughout. -/
def eval (w : ω) : Routine ω σ α → σ → α × σ
  | ret a, s => (a, s)
  | act f k, s => (k w s).eval w (f w s)

theorem eval_bind (w : ω) (m : Routine ω σ α) (g : α → Routine ω σ β) (s : σ) :
    (m >>= g).eval w s = (g (m.eval w s).1).eval w (m.eval w s).2 := by
  induction m generalizing s with
  | ret a => rfl
  | act f k ih => exact ih w s (f w s)

theorem eval_get (w : ω) (r : σ → α) (s : σ) : (get r : Routine ω σ α).eval w s = (r s, s) := rfl

theorem eval_whenever (w : ω) (c : Bool) (m : Routine ω σ Unit) (s : σ) :
    ((whenever c m).eval w s).2 = if c then (m.eval w s).2 else s := by
  cases c with
  | true => rfl
  | false => rfl

/-- Every statement of the routine relates the memory before and after it by `p`. -/
def Does (p : σ → σ → Prop) : Routine ω σ α → Prop
  | ret _ => True
  | act f k => ∀ w s, p s (f w s) ∧ Does p (k w s)

variable {p : σ → σ → Prop}

theorem Does.bind (hm : m.Does p) (hg : ∀ a, (g a).Does p) : (m >>= g).Does p := by
  induction m with
  | ret a => exact hg a
  | act f k ih => exact fun w s => ⟨(hm w s).1, ih w s (hm w s).2⟩

theorem Does.mono {q : σ → σ → Prop} (hm : m.Does p) (h : ∀ s s', p s s' → q s s') : m.Does q := by
  induction m with
  | ret a => trivial
  | act f k ih => exact fun w s => ⟨h _ _ (hm w s).1, ih w s (hm w s).2⟩

theorem Does.ret {a : α} : (ret a : Routine ω σ α).Does p := trivial

theorem Does.get {r : σ → α} (h : ∀ s, p s s) : (get r : Routine ω σ α).Does p :=
  fun _ s => ⟨h s, trivial⟩

theorem Does.modify {f : σ → σ} (h : ∀ s, p s (f s)) : (modify f : Routine ω σ Unit).Does p :=
  fun _ s => ⟨h s, trivial⟩

theorem Does.call {f : ω → σ → α × σ} (h : ∀ w s, p s (f w s).2) : (call f).Does p :=
  fun w s => ⟨h w s, trivial⟩

theorem Does.ite {c : Prop} [Decidable c] {n : Routine ω σ α} (hm : m.Does p) (hn : n.Does p) :
    (if c then m else n).Does p := by
  by_cases hc : c
  · rw [if_pos hc]; exact hm
  · rw [if_neg hc]; exact hn

theorem Does.whenever {c : Bool} {m : Routine ω σ Unit} (hm : m.Does p) :
    (whenever c m).Does p := .ite hm .ret

end Routine

/-! ## A part of the memory -/

/-- A part `τ` of the memory `σ`, with the law a write needs. -/
structure Part (σ τ : Type) where
  get : σ → τ
  set : τ → σ → σ
  get_set : ∀ t s, get (set t s) = t

/-- A routine over a part of the memory, run in the whole, with the answers it hears
    taken from the answers of the whole. -/
def Routine.within {ω υ σ τ α : Type} (p : Part σ τ) (answer : ω → υ) :
    Routine υ τ α → Routine ω σ α
  | .ret a => .ret a
  | .act f k => .act (fun w s => p.set (f (answer w) (p.get s)) s)
      (fun w s => (k (answer w) (p.get s)).within p answer)

/-! ## Rules of pre- and postconditions -/

/-- What a proof about a routine fixes once: the invariant every statement keeps, what
    the handlers may do between two statements, and the answers to be expected. -/
structure Guard (ω σ : Type) where
  inv : σ → Prop
  rely : σ → σ → Prop
  answers : ω → Prop
  refl : ∀ s, rely s s
  trans : ∀ {a b c}, rely a b → rely b c → rely a c

namespace Guard

variable {ω υ σ τ α β : Type} (G : Guard ω σ)

/-- An assertion the handlers cannot break. -/
def Stable (P : σ → Prop) : Prop :=
  ∀ s s', P s → G.rely s s' → G.inv s' → P s'

/-- From `s`, whatever the handlers do, every statement of the routine keeps the
    invariant and it ends in `Q`. -/
def Safe (Q : α → σ → Prop) : Routine ω σ α → σ → Prop
  | .ret a, s => Q a s
  | .act f k, s => ∀ s', G.rely s s' → G.inv s' → ∀ w, G.answers w →
      G.inv (f w s') ∧ Safe Q (k w s') (f w s')

/-- `P` before, `Q` after, the invariant in between. -/
def Triple (P : σ → Prop) (m : Routine ω σ α) (Q : α → σ → Prop) : Prop :=
  ∀ s, G.inv s → P s → G.Safe Q m s

variable {G}

variable {m : Routine ω σ α} {Q : α → σ → Prop} {P : σ → Prop}

theorem Safe.mono {Q' : α → σ → Prop} {s : σ} (h : G.Safe Q m s) (hi : G.inv s)
    (hq : ∀ a s, G.inv s → Q a s → Q' a s) : G.Safe Q' m s := by
  induction m generalizing s with
  | ret a => exact hq a s hi h
  | act f k ih =>
    intro s' hr hi' w hw
    obtain ⟨hf, hk⟩ := h s' hr hi' w hw
    exact ⟨hf, ih w s' hk hf⟩

theorem Safe.bind {Q' : β → σ → Prop} {g : α → Routine ω σ β} {s : σ} (h : G.Safe Q m s)
    (hi : G.inv s) (hg : ∀ a s, G.inv s → Q a s → G.Safe Q' (g a) s) : G.Safe Q' (m >>= g) s := by
  induction m generalizing s with
  | ret a => exact hg a s hi h
  | act f k ih =>
    intro s' hr hi' w hw
    obtain ⟨hf, hk⟩ := h s' hr hi' w hw
    exact ⟨hf, ih w s' hk hf⟩

/-- A handler that runs before the next statement changes nothing about safety. -/
theorem Safe.relied {s s' : σ} (h : G.Safe Q m s) (hq : ∀ a, G.Stable (Q a)) (hr : G.rely s s')
    (hi : G.inv s') : G.Safe Q m s' := by
  cases m with
  | ret a => exact hq a s s' h hr hi
  | act f k => exact fun s'' hr' hi' w hw => h s'' (G.trans hr hr') hi' w hw

theorem Triple.ret {a : α} (h : ∀ s, G.inv s → P s → Q a s) : G.Triple P (.ret a) Q :=
  fun s hi hp => h s hi hp

theorem Triple.bind {Q' : β → σ → Prop} {g : α → Routine ω σ β} (hm : G.Triple P m Q)
    (hg : ∀ a, G.Triple (Q a) (g a) Q') : G.Triple P (m >>= g) Q' :=
  fun s hi hp => (hm s hi hp).bind hi (fun a s' hi' hq => hg a s' hi' hq)

theorem Triple.conseq {P' : σ → Prop} {Q' : α → σ → Prop} (h : G.Triple P' m Q')
    (hp : ∀ s, G.inv s → P s → P' s) (hq : ∀ a s, G.inv s → Q' a s → Q a s) : G.Triple P m Q :=
  fun s hi h' => (h s hi (hp s hi h')).mono hi hq

theorem Triple.pre {P' : σ → Prop} (h : G.Triple P' m Q) (hp : ∀ s, G.inv s → P s → P' s) :
    G.Triple P m Q :=
  fun s hi h' => h s hi (hp s hi h')

theorem Triple.call {P : σ → Prop} {Q : α → σ → Prop} {f : ω → σ → α × σ}
    (hp : G.Stable P)
    (h : ∀ w s, G.answers w → G.inv s → P s → G.inv (f w s).2 ∧ Q (f w s).1 (f w s).2) :
    G.Triple P (.call f) Q := by
  intro s _ hs s' hr hi' w hw
  exact h w s' hw hi' (hp s s' hs hr hi')

theorem Triple.modify {Q : Unit → σ → Prop} {f : σ → σ} (hp : G.Stable P)
    (h : ∀ s, G.inv s → P s → G.inv (f s) ∧ Q () (f s)) : G.Triple P (.modify f) Q := by
  intro s _ hs s' hr hi' w _
  exact h s' hi' (hp s s' hs hr hi')

theorem Triple.get {r : σ → α} (hp : G.Stable P) :
    G.Triple P (.get r) (fun a s => P s ∧ r s = a) := by
  intro s _ hs s' hr hi' w _
  exact ⟨hi', hp s s' hs hr hi', rfl⟩

theorem Triple.ite {c : Prop} [Decidable c] {n : Routine ω σ α} (hm : c → G.Triple P m Q)
    (hn : ¬c → G.Triple P n Q) : G.Triple P (if c then m else n) Q := by
  by_cases hc : c
  · rw [if_pos hc]; exact hm hc
  · rw [if_neg hc]; exact hn hc

/-- What every single statement keeps, the whole routine keeps. -/
theorem Triple.does {p : σ → σ → Prop} (hm : m.Does p) (hp : G.Stable P)
    (h : ∀ s s', G.inv s → P s → p s s' → G.inv s' ∧ P s') : G.Triple P m (fun _ => P) := by
  intro s hi hs
  induction m generalizing s with
  | ret a => exact hs
  | act f k ih =>
    intro s' hr hi' w _
    obtain ⟨hf, hk⟩ := h s' (f w s') hi' (hp s s' hs hr hi') (hm w s').1
    exact ⟨hf, ih w s' (hm w s').2 _ hf hk⟩

theorem Stable.and {Q : σ → Prop} (hp : G.Stable P) (hq : G.Stable Q) :
    G.Stable (fun s => P s ∧ Q s) :=
  fun s s' h hr hi => ⟨hp s s' h.1 hr hi, hq s s' h.2 hr hi⟩

/-- The guard of a routine that nothing interrupts. -/
def alone (ω : Type) (inv : σ → Prop) : Guard ω σ where
  inv := inv
  rely := (· = ·)
  answers := fun _ => True
  refl := fun _ => rfl
  trans := Eq.trans

theorem alone_stable {inv : σ → Prop} : (alone ω inv).Stable P :=
  fun _ _ hp hr _ => hr ▸ hp

/-- **A routine cut anywhere** has kept the invariant, and is safe from there on. -/
theorem Safe.run {inv : σ → Prop} {Q : α → σ → Prop} {m : Routine ω σ α} {s : σ} {ws : List ω}
    (h : (alone ω inv).Safe Q m s) (hi : inv s) :
    inv (m.run ws s).2 ∧ (alone ω inv).Safe Q (m.run ws s).1 (m.run ws s).2 := by
  induction ws generalizing m s with
  | nil => exact ⟨hi, h⟩
  | cons w ws ih =>
    cases m with
    | ret a => exact ⟨hi, h⟩
    | act f k =>
      obtain ⟨hf, hk⟩ := h s rfl hi w trivial
      exact ih hk hf

/-- A routine over a part of the memory that the handlers leave alone, run in the whole:
    what it does to the part, and the assertion `K` about the rest. -/
theorem Triple.within {p : Part σ τ} {answer : ω → υ} {J P : τ → Prop} {K : σ → Prop}
    {Q : α → τ → Prop} {m : Routine υ τ α} (h : (alone υ J).Triple P m Q)
    (hpart : ∀ {s s'}, G.rely s s' → p.get s' = p.get s) (hK : G.Stable K)
    (hset : ∀ t s, K s → K (p.set t s))
    (hinv : ∀ t s, G.inv s → K s → J t → G.inv (p.set t s))
    (hJ : ∀ s, G.inv s → K s → P (p.get s) → J (p.get s)) :
    G.Triple (fun s => K s ∧ P (p.get s)) (m.within p answer) (fun a s => K s ∧ Q a (p.get s)) := by
  have key : ∀ (m : Routine υ τ α) (s : σ), (alone υ J).Safe Q m (p.get s) → G.inv s → K s →
      J (p.get s) → G.Safe (fun a s => K s ∧ Q a (p.get s)) (m.within p answer) s := by
    intro m
    induction m with
    | ret a => exact fun s hs _ hk _ => ⟨hk, hs⟩
    | act f k ih =>
      intro s hs _ hk hj s' hr hi' w _
      have hk' := hK s s' hk hr hi'
      have hget := hpart hr
      rw [← hget] at hs hj
      obtain ⟨hf, hsafe⟩ := hs (p.get s') rfl hj (answer w) trivial
      refine ⟨hinv _ _ hi' hk' hf, ih _ _ _ ?_ (hinv _ _ hi' hk' hf) (hset _ _ hk') ?_⟩
      · rw [p.get_set]; exact hsafe
      · rw [p.get_set]; exact hf
  intro s hi hs
  exact key m s (h (p.get s) (hJ s hi hs.1 hs.2) hs.2) hi hs.1 (hJ s hi hs.1 hs.2)

end Guard

/-! ## Machines -/

/-- A foreground and its interrupt handlers over one memory. -/
structure Machine (ι ρ κ ω σ : Type) where
  /-- The handler `i`, run to its end. -/
  irq : ι → σ → σ
  /-- The foreground routine `r`. -/
  body : ρ → Routine ω σ Unit
  /-- What a cut leaves of the memory. -/
  cut : κ → σ → σ
  /-- What runs first after a cut. -/
  boot : κ → Routine ω σ Unit

/-- A memory and what is left of the foreground routine. -/
structure Config (ω σ : Type) where
  st : σ
  fg : Routine ω σ Unit

/-- What can happen to a machine. -/
inductive Event (ι ρ κ ω : Type) : Type
  | irq (i : ι)
  | step (w : ω)
  | start (r : ρ)
  | cut (k : κ)

namespace Machine

variable {ι ρ κ ω σ : Type} (M : Machine ι ρ κ ω σ)

/-- One event. A statement when the foreground has ended and a start when it has not
    are events that cannot happen: they change nothing. -/
def next (c : Config ω σ) : Event ι ρ κ ω → Config ω σ
  | .irq i => { c with st := M.irq i c.st }
  | .step w =>
    match c.fg with
    | .ret _ => c
    | .act f k => { st := f w c.st, fg := k w c.st }
  | .start r =>
    match c.fg with
    | .ret _ => { c with fg := M.body r }
    | .act _ _ => c
  | .cut k => { st := M.cut k c.st, fg := M.boot k }

/-- A run: the events in the order they happen. -/
def run (c : Config ω σ) (es : List (Event ι ρ κ ω)) : Config ω σ :=
  es.foldl M.next c

/-- The configuration a cut of `k` leaves. -/
def booted (k : κ) (s : σ) : Config ω σ :=
  { st := M.cut k s, fg := M.boot k }

@[simp] theorem run_nil (c : Config ω σ) : M.run c [] = c := rfl

@[simp] theorem run_cons (c : Config ω σ) (e : Event ι ρ κ ω) (es : List (Event ι ρ κ ω)) :
    M.run c (e :: es) = M.run (M.next c e) es := rfl

/-- The event gives an answer to be expected. -/
def Answered (G : Guard ω σ) : Event ι ρ κ ω → Prop
  | .step w => G.answers w
  | _ => True

/-- What has to be shown of a machine for a guard's invariant: the handlers stay within
    the rely, and every routine is safe from one resting assertion `rest` back to it. -/
structure Keeps (G : Guard ω σ) (rest : σ → Prop) : Prop where
  stable : G.Stable rest
  irq : ∀ i s, G.inv s → G.inv (M.irq i s) ∧ G.rely s (M.irq i s)
  body : ∀ r, G.Triple rest (M.body r) (fun _ => rest)
  cut : ∀ k s, G.inv s → G.inv (M.cut k s)
  boot : ∀ k s, G.inv s → G.Safe (fun _ => rest) (M.boot k) (M.cut k s)

variable {M}

/-- The configurations a guard holds of: the invariant now, and a foreground that is
    safe from here. -/
def Guarded (G : Guard ω σ) (rest : σ → Prop) (c : Config ω σ) : Prop :=
  G.inv c.st ∧ G.Safe (fun _ => rest) c.fg c.st

theorem Keeps.booted {G : Guard ω σ} {rest : σ → Prop} (hM : M.Keeps G rest) {k : κ} {s : σ}
    (hi : G.inv s) : Guarded G rest (M.booted k s) :=
  ⟨hM.cut k s hi, hM.boot k s hi⟩

variable {c : Config ω σ}

theorem Keeps.next {G : Guard ω σ} {rest : σ → Prop} (hM : M.Keeps G rest) (hc : Guarded G rest c)
    {e : Event ι ρ κ ω} (he : Answered G e) : Guarded G rest (M.next c e) := by
  obtain ⟨hi, hs⟩ := hc
  cases e with
  | irq i =>
    obtain ⟨hi', hr⟩ := hM.irq i c.st hi
    exact ⟨hi', hs.relied (fun _ => hM.stable) hr hi'⟩
  | step w =>
    obtain ⟨s, fg⟩ := c
    cases fg with
    | ret a => exact ⟨hi, hs⟩
    | act f k => exact hs s (G.refl s) hi w he
  | start r =>
    obtain ⟨s, fg⟩ := c
    cases fg with
    | ret a => exact ⟨hi, hM.body r s hi hs⟩
    | act f k => exact ⟨hi, hs⟩
  | cut k => exact hM.booted hi

/-- **Every run keeps the invariant**, at every point an interrupt or a cut can fall on. -/
theorem Keeps.run {G : Guard ω σ} {rest : σ → Prop} (hM : M.Keeps G rest) {c : Config ω σ}
    (hc : Guarded G rest c) {es : List (Event ι ρ κ ω)} (he : ∀ e ∈ es, Answered G e) :
    Guarded G rest (M.run c es) := by
  induction es generalizing c with
  | nil => exact hc
  | cons e es ih =>
    rw [run_cons]
    exact ih (hM.next hc (he e (by simp))) (fun e' h' => he e' (by simp [h']))

/-- Every statement keeps `inv`, whatever it is that runs before it. -/
def Preserves (inv : σ → Prop) (m : Routine ω σ Unit) : Prop :=
  m.Does fun s s' => inv s → inv s'

/-- **What every handler and every statement keeps, every run keeps.** -/
theorem invariant {inv : σ → Prop} (hirq : ∀ i s, inv s → inv (M.irq i s))
    (hbody : ∀ r, Preserves inv (M.body r)) (hcut : ∀ k s, inv s → inv (M.cut k s))
    (hboot : ∀ k, Preserves inv (M.boot k)) (hc : inv c.st) (hfg : Preserves inv c.fg)
    (es : List (Event ι ρ κ ω)) : inv (M.run c es).st := by
  induction es generalizing c with
  | nil => exact hc
  | cons e es ih =>
    rw [run_cons]
    obtain ⟨s, fg⟩ := c
    cases e with
    | irq i => exact ih (hirq i s hc) hfg
    | step w =>
      cases fg with
      | ret a => exact ih hc hfg
      | act f k => exact ih ((hfg w s).1 hc) (hfg w s).2
    | start r =>
      cases fg with
      | ret a => exact ih hc (hbody r)
      | act f k => exact ih hc hfg
    | cut k => exact ih (hcut k s hc) (hboot k)

/-- What is left of the foreground does what every routine does. -/
theorem does_run {p : σ → σ → Prop} (hbody : ∀ r, (M.body r).Does p)
    (hboot : ∀ k, (M.boot k).Does p) (hfg : c.fg.Does p) (es : List (Event ι ρ κ ω)) :
    (M.run c es).fg.Does p := by
  induction es generalizing c with
  | nil => exact hfg
  | cons e es ih =>
    rw [run_cons]
    obtain ⟨s, fg⟩ := c
    cases e with
    | irq i => exact ih hfg
    | step w =>
      cases fg with
      | ret a => exact ih hfg
      | act f k => exact ih (hfg w s).2
    | start r =>
      cases fg with
      | ret a => exact ih (hbody r)
      | act f k => exact ih hfg
    | cut k => exact ih (hboot k)

end Machine
end Mowgli
