import Mowgli.Lib.Trace

/-!
# Ticket — one flag and one buffer for the copies of a thing

A thing is copied, worked on elsewhere, and put back. While it is away a flag is up, and what
is put into the thing is put into a buffer too, to be added before the copy goes back. A break
lowers the flag, and a copy that finds it lowered is thrown away.

**The flag does not say whose copy it stands for.** It stands for the latest one, the copy of
the `holder`; whoever else comes back under a raised flag was broken and does not know it.
The log tells: `Held` is a copy that has not come back, with all that happened since.
-/

namespace Mowgli
namespace Ticket

variable {W S M : Type}

inductive Mark (W S M : Type)
  /-- A copy was taken, and the flag went up. -/
  | taken (w : W) (s : S)
  | put (m : M)
  | broken
  /-- A copy came back under the flag, or was given up, and the flag went down. -/
  | closed (w : W)

/-- Whose copy is the latest one. -/
def holder : List (Mark W S M) → Option W
  | [] => none
  | .taken w _ :: _ => some w
  | _ :: past => holder past

/-- What was put in a stretch of the log, oldest first. -/
def puts : List (Mark W S M) → List M
  | [] => []
  | .put m :: past => puts past ++ [m]
  | _ :: past => puts past

/-- A copy of `w` is away, and `later` is what happened since it was taken. -/
structure Held (w : W) (s : S) (later log : List (Mark W S M)) : Prop where
  since : ∃ past, log = later ++ .taken w s :: past
  away : ∀ e ∈ later, e ≠ .closed w ∧ ∀ s', e ≠ .taken w s'

/-- Nobody lowered the flag for a copy that was not the latest. -/
def Fair (log : List (Mark W S M)) : Prop :=
  Trace.Always (fun e past => ∀ w, e = .closed w → holder past = some w) log

/-! ## One mark more -/

variable {later : List (Mark W S M)}

theorem Held.taken {w v : W} {s s' : S} {log : List (Mark W S M)}
    (h : Held w s later (.taken v s' :: log)) :
    (w = v ∧ s = s' ∧ later = []) ∨ ∃ later', later = .taken v s' :: later' ∧ w ≠ v ∧
      Held w s later' log := by
  obtain ⟨⟨past, hlog⟩, haway⟩ := h
  cases later with
  | nil =>
    cases hlog
    exact .inl ⟨rfl, rfl, rfl⟩
  | cons e later =>
    cases hlog
    refine .inr ⟨later, rfl, ?_, ⟨past, rfl⟩, fun e he => haway e (List.mem_cons_of_mem _ he)⟩
    rintro rfl
    exact (haway _ List.mem_cons_self).2 s' rfl

/-- A mark of any other kind is one of those since. -/
theorem Held.cons {w : W} {s : S} {e : Mark W S M} {later log : List (Mark W S M)}
    (he : ∀ v s', e ≠ .taken v s') (h : Held w s later (e :: log)) :
    ∃ later', later = e :: later' ∧ e ≠ .closed w ∧ Held w s later' log := by
  obtain ⟨⟨past, hlog⟩, haway⟩ := h
  cases later with
  | nil =>
    cases hlog
    exact absurd rfl (he w s)
  | cons e' later =>
    cases hlog
    exact ⟨later, rfl, (haway _ List.mem_cons_self).1, ⟨past, rfl⟩,
      fun e he => haway e (List.mem_cons_of_mem _ he)⟩

/-- A mark that the copy does not end with. -/
theorem Held.push {w : W} {s : S} {e : Mark W S M} {log : List (Mark W S M)}
    (h : Held w s later log) (hclosed : e ≠ .closed w) (htaken : ∀ s', e ≠ .taken w s') :
    Held w s (e :: later) (e :: log) := by
  obtain ⟨⟨past, hlog⟩, haway⟩ := h
  refine ⟨⟨past, by rw [hlog]; rfl⟩, fun e' he' => ?_⟩
  rcases List.mem_cons.1 he' with rfl | he'
  · exact ⟨hclosed, htaken⟩
  · exact haway e' he'

/-! ## The flag and the buffer -/

/-- A lowered flag has no buffer. A raised one stands for the latest copy, since which there was
    nothing but what the buffer holds. -/
structure Follows (flag : Bool) (buffer : List M) (log : List (Mark W S M)) : Prop where
  down : flag = false → buffer = []
  up : flag = true → ∃ w s later past, log = later ++ .taken w s :: past ∧
    (∀ e ∈ later, ∃ m, e = .put m) ∧ buffer = puts later

namespace Follows

variable {flag : Bool} {buffer : List M} {log : List (Mark W S M)}

theorem taken (w : W) (s : S) : Follows true [] (.taken w s :: log) :=
  ⟨nofun, fun _ => ⟨w, s, [], log, rfl, nofun, rfl⟩⟩

theorem lowered : Follows false [] log := ⟨fun _ => rfl, nofun⟩

theorem put (h : Follows flag buffer log) (m : M) :
    Follows flag (if flag then buffer ++ [m] else buffer) (.put m :: log) := by
  cases flag with
  | false => exact ⟨h.down, nofun⟩
  | true =>
    refine ⟨nofun, fun _ => ?_⟩
    obtain ⟨w, s, later, past, hlog, hputs, hbuffer⟩ := h.up rfl
    refine ⟨w, s, .put m :: later, past, by rw [hlog]; rfl, fun e he => ?_, ?_⟩
    · rcases List.mem_cons.1 he with rfl | he
      · exact ⟨m, rfl⟩
      · exact hputs e he
    · rw [if_pos rfl, hbuffer]
      rfl

theorem holder_append {past : List (Mark W S M)} (h : ∀ e ∈ later, ∃ m, e = Mark.put m) :
    holder (later ++ past) = holder past := by
  induction later with
  | nil => rfl
  | cons e later ih =>
    obtain ⟨m, rfl⟩ := h e List.mem_cons_self
    exact ih fun e he => h e (List.mem_cons_of_mem _ he)

/-- The holder of the ticket has missed nothing. -/
theorem held (h : Follows flag buffer log) (hflag : flag = true) {w : W} {s : S}
    (hheld : Held w s later log) (hholder : holder log = some w) :
    .broken ∉ later ∧ buffer = puts later := by
  obtain ⟨v, s', later', past', hlog, hputs, hbuffer⟩ := h.up hflag
  obtain ⟨⟨past, hlog'⟩, haway⟩ := hheld
  have hv : v = w := by
    rw [hlog, holder_append hputs] at hholder
    exact Option.some.inj hholder
  subst hv
  have hsame : later = later' := by
    have heq : later ++ .taken v s :: past = later' ++ .taken v s' :: past' := hlog'.symm.trans hlog
    rcases List.append_eq_append_iff.1 heq with ⟨rest, hrest, htail⟩ | ⟨rest, hrest, htail⟩
    · cases rest with
      | nil => exact (hrest.trans (List.append_nil _)).symm
      | cons e rest =>
        cases htail
        obtain ⟨m, hm⟩ := hputs _ (by rw [hrest]; exact List.mem_append_right _ List.mem_cons_self)
        cases hm
    · cases rest with
      | nil => exact hrest.trans (List.append_nil _)
      | cons e rest =>
        cases htail
        exact absurd rfl ((haway _ (by rw [hrest]
                                       exact List.mem_append_right _ List.mem_cons_self)).2 s')
  subst hsame
  refine ⟨fun hbroken => ?_, hbuffer⟩
  obtain ⟨m, hm⟩ := hputs _ hbroken
  cases hm

end Follows

/-- Every copy that is away was broken, but for the one that a raised flag stands for. -/
def Told (flag : Bool) (log : List (Mark W S M)) : Prop :=
  ∀ w s later, Held w s later log → .broken ∈ later ∨ (flag = true ∧ holder log = some w)

namespace Told

variable {flag : Bool} {log : List (Mark W S M)}

theorem nil : Told flag ([] : List (Mark W S M)) := by
  rintro w s later ⟨⟨past, hlog⟩, -⟩
  cases later <;> cases hlog

theorem taken (h : Told false log) (v : W) (s : S) : Told true (.taken v s :: log) := by
  intro w s' later hheld
  rcases hheld.taken with ⟨rfl, -, -⟩ | ⟨later', rfl, -, hheld⟩
  · exact .inr ⟨rfl, rfl⟩
  · rcases h w s' later' hheld with hbroken | ⟨hflag, -⟩
    · exact .inl (List.mem_cons_of_mem _ hbroken)
    · cases hflag

theorem put (h : Told flag log) (m : M) : Told flag (.put m :: log) := by
  intro w s later hheld
  obtain ⟨later', rfl, -, hheld⟩ := hheld.cons nofun
  exact (h w s later' hheld).imp_left (List.mem_cons_of_mem _)

theorem broken (flag : Bool) : Told flag (.broken :: log) := by
  intro w s later hheld
  obtain ⟨later', rfl, -, -⟩ := hheld.cons nofun
  exact .inl List.mem_cons_self

theorem closed (h : Told flag log) {v : W} (hv : holder log = some v) :
    Told false (.closed v :: log) := by
  intro w s later hheld
  obtain ⟨later', rfl, hne, hheld⟩ := hheld.cons nofun
  rcases h w s later' hheld with hbroken | ⟨-, hholder⟩
  · exact .inl (List.mem_cons_of_mem _ hbroken)
  · rw [hv] at hholder
    cases hholder
    exact absurd rfl hne

end Told

end Ticket
end Mowgli
