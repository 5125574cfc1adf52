import Mowgli.Fleet.Ownership

/-!
# Gone — tuples that can hold and resume nothing any more

A tuple is gone when its epoch was replaced, when `apply` takes no such tuple, or when its
epoch is the one of a moment in which no pause is accepted: **to be accepted again the mower
needs a new status, a cleared interlock or a command, and each of them draws an epoch**.

`Evolves` is what happens to a context whatever happens, and `Applied.ends` is the reading of
the answers: all but two leave the tuple of the request gone.
-/

namespace Mowgli
namespace Fleet

open FleetYieldState

variable {draw : Nat → String}

/-- The epoch was drawn, and another one after it. -/
def Superseded (draw : Nat → String) (epoch : String) (s : FleetYieldState) : Prop :=
  ∃ k, k + 1 < s.drawn ∧ draw k = epoch

def Drawn (draw : Nat → String) (epoch : String) (s : FleetYieldState) : Prop :=
  ∃ k < s.drawn, draw k = epoch

/-- A request to pause would be refused whoever makes it. -/
def Unmet (c : Context) : Prop :=
  c.fleetYield.blocked = true ∨ c.currentCommand ≠ 1 ∨ c.fleetYield.statusEligible = false

inductive Gone (draw : Nat → String) (t : Identity) (c : Context) : Prop
  | superseded : Superseded draw t.epoch c.fleetYield → Gone draw t c
  | malformed : t.Malformed → Gone draw t c
  | unmet : t.epoch = c.fleetYield.epoch → c.fleetYield.owner ≠ some t → Unmet c → Gone draw t c

/-- What holds of the context at any time. -/
structure Sound (draw : Nat → String) (c : Context) : Prop where
  current : c.fleetYield.Current draw
  epoch : ∀ t, c.fleetYield.owner = some t → t.epoch = c.fleetYield.epoch
  formed : ∀ t, c.fleetYield.owner = some t → ¬t.Malformed
  unblocked : c.fleetYield.owner.isSome → c.fleetYield.blocked = false
  stopped : c.fleetYield.owner.isSome → c.currentCommand ≠ 1
  completed : ∀ t, c.fleetYield.completed = some t → Superseded draw t.epoch c.fleetYield

/-! ## Epochs -/

section Epochs

variable {s s' : FleetYieldState} {epoch : String}

theorem Superseded.mono (h : Superseded draw epoch s) (hle : s.drawn ≤ s'.drawn) :
    Superseded draw epoch s' := by
  obtain ⟨k, hk, he⟩ := h
  exact ⟨k, Nat.lt_of_lt_of_le hk hle, he⟩

theorem Drawn.mono (h : Drawn draw epoch s) (hle : s.drawn ≤ s'.drawn) : Drawn draw epoch s' := by
  obtain ⟨k, hk, he⟩ := h
  exact ⟨k, Nat.lt_of_lt_of_le hk hle, he⟩

theorem FleetYieldState.Current.superseded (h : s.Current draw) (hlt : s.drawn < s'.drawn) :
    Superseded draw s.epoch s' := by
  obtain ⟨hpos, hepoch⟩ := h
  exact ⟨s.drawn - 1, by omega, hepoch.symm⟩

theorem FleetYieldState.Current.drawn (h : s.Current draw) : Drawn draw s.epoch s :=
  ⟨s.drawn - 1, Nat.sub_lt h.1 Nat.one_pos, h.2.symm⟩

/-- An epoch that was drawn is the one of the moment, or over. -/
theorem Drawn.superseded (h : Drawn draw epoch s) (hcurrent : s.Current draw)
    (hne : epoch ≠ s.epoch) : Superseded draw epoch s := by
  obtain ⟨k, hk, he⟩ := h
  refine ⟨k, ?_, he⟩
  have hlast : k ≠ s.drawn - 1 := by
    rintro rfl
    exact hne (he.symm.trans hcurrent.2.symm)
  omega

theorem Superseded.ne (distinct : Function.Injective draw) (h : Superseded draw epoch s)
    (hcurrent : s.Current draw) : epoch ≠ s.epoch := by
  obtain ⟨k, hk, rfl⟩ := h
  intro he
  have hlast := distinct (he.trans hcurrent.2)
  omega

end Epochs

/-! ## What happens to a tuple -/

variable {c c' : Context} {t : Identity}

theorem Gone.owner_ne (distinct : Function.Injective draw) (h : Gone draw t c)
    (hs : Sound draw c) : c.fleetYield.owner ≠ some t := by
  intro howner
  cases h with
  | superseded h => exact h.ne distinct hs.current (hs.epoch t howner)
  | malformed h => exact hs.formed t howner h
  | unmet _ hne _ => exact hne howner

theorem Gone.draws (h : Gone draw t c) (hs : Sound draw c)
    (hlt : c.fleetYield.drawn < c'.fleetYield.drawn) : Gone draw t c' := by
  cases h with
  | superseded h => exact .superseded (h.mono (Nat.le_of_lt hlt))
  | malformed h => exact .malformed h
  | unmet hepoch _ _ => exact .superseded (hepoch ▸ hs.current.superseded hlt)

/-- The owner of the stop keeps it, or is gone. -/
def Settled (draw : Nat → String) (t : Identity) (c : Context) : Prop :=
  c.fleetYield.owner = some t ∨ Gone draw t c

theorem Sound.draws (hs : Sound draw c) (ht : c.fleetYield.owner = some t)
    (hlt : c.fleetYield.drawn < c'.fleetYield.drawn) : Gone draw t c' :=
  .superseded ((hs.epoch t ht) ▸ hs.current.superseded hlt)

/-- What happens to the context, whatever happens. -/
structure Evolves (draw : Nat → String) (c c' : Context) : Prop where
  sound : Sound draw c'
  drawn : c.fleetYield.drawn ≤ c'.fleetYield.drawn
  gone : ∀ t, Gone draw t c → Gone draw t c'
  settled : ∀ t, c.fleetYield.owner = some t → Settled draw t c'

theorem Evolves.refl (hs : Sound draw c) : Evolves draw c c where
  sound := hs
  drawn := Nat.le_refl _
  gone _ ht := ht
  settled _ ht := .inl ht

theorem Evolves.trans {c'' : Context} (h : Evolves draw c c') (h' : Evolves draw c' c'') :
    Evolves draw c c'' where
  sound := h'.sound
  drawn := Nat.le_trans h.drawn h'.drawn
  gone t ht := h'.gone t (h.gone t ht)
  settled t ht := by
    rcases h.settled t ht with hkept | hgone
    · exact h'.settled t hkept
    · exact .inr (h'.gone t hgone)

theorem Evolves.keeps (h : Evolves draw c c') (ht : Settled draw t c) : Settled draw t c' := by
  rcases ht with howner | hgone
  · exact h.settled t howner
  · exact .inr (h.gone t hgone)

/-- Nobody owns the stop, and an epoch was drawn. -/
theorem Evolves.drew (hs : Sound draw c) (h : Drew draw c.fleetYield c'.fleetYield) :
    Evolves draw c c' where
  sound := {
    current := h.current
    epoch := fun t ht => by rw [h.nobody] at ht; cases ht
    formed := fun t ht => by rw [h.nobody] at ht; cases ht
    unblocked := fun ho => by rw [h.nobody] at ho; cases ho
    stopped := fun ho => by rw [h.nobody] at ho; cases ho
    completed := fun t ht =>
      (hs.completed t (h.completed t ht)).mono (Nat.le_of_lt h.later) }
  drawn := Nat.le_of_lt h.later
  gone _ ht := ht.draws hs h.later
  settled _ ht := .inr (hs.draws ht h.later)

/-- A write of the command behind a `revoke`. -/
theorem Evolves.commanded (hs : Sound draw c) (command : UInt8) :
    Evolves draw c { currentCommand := command, fleetYield := c.fleetYield.revoke draw } :=
  .drew hs revoke_drew

variable {op : Op}

theorem Op.Leaves.command_ne {before after : UInt8} (h : op.Leaves before after) (hplain : op.Plain)
    (hne : before ≠ 1) : after ≠ 1 := by
  rcases h with hset | ⟨rfl, _⟩ | rfl
  · exact absurd hset (hplain after)
  · decide
  · exact hne

theorem Turn.evolves (h : Turn draw op c c') (hplain : op.Plain) (hs : Sound draw c) :
    Evolves draw c c' := by
  cases h with
  | drew hdrew _ => exact .drew hs hdrew
  | kept hcommand _ =>
    exact {
      sound := { hs with stopped := fun ho => hcommand.command_ne hplain (hs.stopped ho) }
      drawn := Nat.le_refl _
      gone := fun t ht => by
        cases ht with
        | superseded h => exact .superseded h
        | malformed h => exact .malformed h
        | unmet hepoch hne hunmet =>
          refine .unmet hepoch hne ?_
          rcases hunmet with hblocked | hstopped | hineligible
          · exact .inl hblocked
          · exact .inr (.inl (hcommand.command_ne hplain hstopped))
          · exact .inr (.inr hineligible)
      settled := fun t ht => .inl ht }
  | stood _ _ =>
    exact {
      sound := { hs with }
      drawn := Nat.le_refl _
      gone := fun t ht => by
        cases ht with
        | superseded h => exact .superseded h
        | malformed h => exact .malformed h
        | unmet hepoch hne _ => exact .unmet hepoch hne (.inr (.inr rfl))
      settled := fun t ht => .inl ht }
  | @paused t' _ hformed hblocked hepoch hnobody hcommand heligible =>
    exact {
      sound := {
        current := hs.current
        epoch := fun t ht => by cases ht; exact hepoch
        formed := fun t ht => by cases ht; exact hformed
        unblocked := fun _ => hblocked
        stopped := fun _ => (by decide : (8 : UInt8) ≠ 1)
        completed := hs.completed }
      drawn := Nat.le_refl _
      gone := fun t ht => by
        cases ht with
        | superseded h => exact .superseded h
        | malformed h => exact .malformed h
        | unmet _ _ hunmet =>
          rcases hunmet with hb | hc | he
          · rw [hblocked] at hb; cases hb
          · exact absurd hcommand hc
          · rw [heligible] at he; cases he
      settled := fun t ht => by rw [hnobody] at ht; cases ht }
  | resumed _ _ hepoch howner _ _ =>
    have hlt : c.fleetYield.drawn < c.fleetYield.drawn + 1 := Nat.lt_succ_self _
    exact {
      sound := {
        current := freshEpoch_current
        epoch := fun t ht => nomatch ht
        formed := fun t ht => nomatch ht
        unblocked := fun ho => nomatch ho
        stopped := fun ho => nomatch ho
        completed := fun t ht => by
          cases ht
          rw [hepoch]
          exact hs.current.superseded hlt }
      drawn := Nat.le_of_lt hlt
      gone := fun t ht => ht.draws hs hlt
      settled := fun t ht => .inr (hs.draws ht hlt) }

/-- Who owns the stop after an operation owned it before, or it is the one who paused. -/
theorem Turn.owner (h : Turn draw op c c') (ht : c'.fleetYield.owner = some t) :
    c.fleetYield.owner = some t ∨ op = .apply PAUSE t := by
  cases h with
  | drew hdrew _ =>
    rw [hdrew.nobody] at ht
    cases ht
  | kept _ _ => exact .inl ht
  | stood _ _ => exact .inl ht
  | paused hop _ _ _ _ _ _ =>
    cases ht
    exact .inr hop
  | resumed _ _ _ _ _ _ => cases ht

variable {operation : UInt8}

/-- A request for a tuple that is gone leaves the command. -/
theorem Turn.silent (distinct : Function.Injective draw) (h : Turn draw op c c') (hs : Sound draw c)
    (ht : Gone draw t c) (hop : op = .apply operation t) :
    c'.currentCommand = c.currentCommand := by
  cases h with
  | drew _ happly => exact (happly operation t hop).2
  | kept hcommand _ => exact hcommand.apply hop
  | stood _ _ => rfl
  | paused happly hformed hblocked hepoch _ hcommand heligible =>
    cases happly.symm.trans hop
    cases ht with
    | superseded h => exact absurd hepoch (h.ne distinct hs.current)
    | malformed h => exact absurd h hformed
    | unmet _ _ hunmet =>
      rcases hunmet with hb | hc | he
      · rw [hblocked] at hb; cases hb
      · exact absurd hcommand hc
      · rw [heligible] at he; cases he
  | resumed happly _ _ howner _ _ =>
    cases happly.symm.trans hop
    exact absurd howner (ht.owner_ne distinct hs)

/-! ## What the answers say -/

/-- The answers that end a yield: all but HELD to a PAUSE, and NOT_READY to a RESUME. -/
def Ends (operation : UInt8) (result : Result) : Prop :=
  ¬(operation = PAUSE ∧ result = .HELD) ∧ ¬(operation = RESUME ∧ result = .NOT_READY)

/-- An epoch that was drawn, and an owner that is not `t`, in a moment without pauses. -/
theorem Drawn.gone (h : Drawn draw t.epoch c.fleetYield) (hs : Sound draw c)
    (hne : c.fleetYield.owner ≠ some t) (hunmet : Unmet c) : Gone draw t c := by
  by_cases hepoch : t.epoch = c.fleetYield.epoch
  · exact .unmet hepoch hne hunmet
  · exact .superseded (h.superseded hs.current hepoch)

theorem FleetYieldState.Refusal.ends {r : Result}
    (h : Refusal operation t c.currentCommand c.fleetYield r) (hs : Sound draw c)
    (hop : operation = PAUSE ∨ operation = RESUME ∨ operation = CANCEL)
    (hdrawn : Drawn draw t.epoch c.fleetYield) (hsettled : operation = RESUME → Settled draw t c)
    (hends : Ends operation r) : Gone draw t c := by
  cases h with
  | replayed _ hcompleted => exact .superseded (hs.completed t hcompleted)
  | queried hquery =>
    subst hquery
    exact absurd hop (by decide)
  | invalid hinvalid =>
    rcases hinvalid with hlarge | hmalformed
    · rcases hop with rfl | rfl | rfl
      · exact absurd hlarge (by decide)
      · exact absurd hlarge (by decide)
      · exact absurd hlarge (by decide)
    · exact .malformed hmalformed
  | blocked hblocked =>
    refine hdrawn.gone hs (fun howner => ?_) (.inl hblocked)
    have hunblocked := hs.unblocked (Option.isSome_iff_exists.2 ⟨t, howner⟩)
    rw [hblocked] at hunblocked
    cases hunblocked
  | stale hne => exact .superseded (hdrawn.superseded hs.current hne)
  | busy howned hne => exact hdrawn.gone hs hne (.inr (.inl (hs.stopped howned)))
  | heldAlready hpause _ _ => exact absurd ⟨hpause, rfl⟩ hends.1
  | notMowing _ hnobody hunmet =>
    refine hdrawn.gone hs (fun howner => ?_) (.inr hunmet)
    rw [hnobody] at howner
    cases howner
  | notOwned hresume _ hnobody =>
    rcases hsettled hresume with howner | hgone
    · rw [hnobody] at howner
      cases howner
    · exact hgone
  | notReady hresume _ _ => exact absurd ⟨hresume, rfl⟩ hends.2

theorem FleetYieldState.Applied.ends {r : Result × UInt8 × FleetYieldState}
    (h : Applied draw operation t c.currentCommand c.fleetYield r) (hs : Sound draw c)
    (hop : operation = PAUSE ∨ operation = RESUME ∨ operation = CANCEL)
    (hdrawn : Drawn draw t.epoch c.fleetYield) (hsettled : operation = RESUME → Settled draw t c)
    (hends : Ends operation r.1) :
    Gone draw t { currentCommand := r.2.1, fleetYield := r.2.2 } := by
  have hrevoked : t.epoch = c.fleetYield.epoch → Superseded draw t.epoch (c.fleetYield.revoke draw) :=
    fun hepoch => by
      rw [hepoch]
      exact hs.current.superseded revoke_drew.later
  cases h with
  | refused hrefusal => exact hrefusal.ends hs hop hdrawn hsettled hends
  | cancelled _ hepoch => exact .superseded (hrevoked hepoch)
  | lost _ hepoch _ => exact .superseded (hrevoked hepoch)
  | paused hpause _ _ _ _ _ _ => exact absurd ⟨hpause, rfl⟩ hends.1
  | resumed _ _ hepoch _ _ _ => exact .superseded (hepoch ▸ hs.current.superseded (Nat.lt_succ_self _))

/-- HELD is the answer to the owner. -/
theorem FleetYieldState.Applied.held {r : Result × UInt8 × FleetYieldState}
    (h : Applied draw operation t c.currentCommand c.fleetYield r) (hheld : r.1 = .HELD) :
    operation = PAUSE ∧ r.2.2.owner = some t := by
  cases h with
  | refused hrefusal =>
    cases hheld
    cases hrefusal with
    | heldAlready hpause howner _ => exact ⟨hpause, howner⟩
  | paused hpause _ _ _ _ _ _ => exact ⟨hpause, rfl⟩
  | cancelled _ _ => cases hheld
  | lost _ _ _ => cases hheld
  | resumed _ _ _ _ _ _ => cases hheld

/-! ## A request to the tree -/

namespace Tree

variable {m : Tree}

theorem perform_evolves {op : Op} (hplain : op.Plain) (hs : Sound draw m.context) :
    Evolves draw m.context (m.perform draw op).context :=
  (Op.turn op m.context).evolves hplain hs

/-- Whatever is asked, by whom. -/
theorem fleetYield_evolves (operation : UInt8) (t : Identity) (now : Interlocks) (saved : Bool)
    (hs : Sound draw m.context) :
    Evolves draw m.context (m.fleetYield draw operation t now saved).1.context :=
  @fleetYield_keeps draw (fun m' => Evolves draw m.context m'.context) m
    (fun _ _ hplain h => h.trans (perform_evolves hplain h.sound)) (.refl hs) operation t now saved

theorem call_evolves (callback : Callback) (hs : Sound draw m.context) :
    Evolves draw m.context (m.call draw callback).context :=
  @call_keeps draw (fun m' => Evolves draw m.context m'.context) m
    (fun _ _ hplain _ h => h.trans (perform_evolves hplain h.sound))
    (fun command _ h => h.trans (.commanded h.sound command)) (.refl hs) callback

theorem perform_owner (h : (m.perform draw op).context.fleetYield.owner = some t) :
    m.context.fleetYield.owner = some t ∨ op = .apply PAUSE t :=
  (Op.turn op m.context).owner h

theorem perform_owner_of_own {op : Op} (hown : op.Own)
    (h : (m.perform draw op).context.fleetYield.owner = some t) :
    m.context.fleetYield.owner = some t :=
  (perform_owner h).resolve_right (hown PAUSE t)

/-- Nobody comes to own the stop, but who pauses. -/
theorem fleetYield_owner {t t' : Identity} {now : Interlocks} {saved : Bool}
    (h : (m.fleetYield draw operation t now saved).1.context.fleetYield.owner = some t') :
    m.context.fleetYield.owner = some t' ∨ (operation = PAUSE ∧ t = t') := by
  unfold fleetYield at h
  split at h
  · exact .inl h
  have happlied : ((m.perform draw (.refresh now)).perform draw
      (.apply operation t)).context.fleetYield.owner = some t' := by
    dsimp only at h
    split at h
    · exact @perform_owner_of_own draw _ _ .revoke nofun h
    · exact h
  rcases perform_owner happlied with hrefreshed | hpause
  · exact .inl (@perform_owner_of_own draw _ _ (.refresh now) nofun hrefreshed)
  · cases hpause
    exact .inr ⟨rfl, rfl⟩

theorem call_owner {callback : Callback}
    (h : (m.call draw callback).context.fleetYield.owner = some t) :
    m.context.fleetYield.owner = some t := by
  refine @call_keeps draw
    (fun m' => m'.context.fleetYield.owner = some t → m.context.fleetYield.owner = some t) m
    (fun op m' _ hown hm' ho => hm' (perform_owner_of_own hown ho))
    (fun command m' _ ho => ?_) id callback h
  have hrevoked : none = some t := ho
  cases hrevoked

/-- A response names the epoch that it leaves. -/
theorem fleetYield_epoch (operation : UInt8) (t : Identity) (now : Interlocks) (saved : Bool) :
    (m.fleetYield draw operation t now saved).2.epoch =
      (m.fleetYield draw operation t now saved).1.context.fleetYield.epoch := by
  unfold fleetYield
  split
  · rfl
  dsimp only
  split
  · rfl
  · rfl

/-- A request that is answered, read at the tree. -/
theorem fleetYield_ends {t : Identity} {now : Interlocks} {saved : Bool} (hs : Sound draw m.context)
    (hop : operation = PAUSE ∨ operation = RESUME ∨ operation = CANCEL)
    (hdrawn : Drawn draw t.epoch m.context.fleetYield)
    (hsettled : operation = RESUME → Settled draw t m.context) :
    let r := m.fleetYield draw operation t now saved
    (Ends operation r.2.result → Gone draw t r.1.context) ∧
      (operation = PAUSE → r.2.result = .HELD → Settled draw t r.1.context) := by
  unfold fleetYield
  split
  · rename_i hreplay
    exact ⟨fun _ => .superseded (hs.completed t hreplay.2), fun _ h => nomatch h⟩
  dsimp only
  generalize hm : m.perform draw (.refresh now) = m'
  have hrefreshed : Evolves draw m.context m'.context := hm ▸ perform_evolves nofun hs
  have happlied := apply_applied draw operation t m'.context.currentCommand m'.context.fleetYield
  split
  · rename_i hunsaved
    obtain ⟨rfl, howner⟩ := happlied.held hunsaved.1
    have hlater := @perform_evolves draw _ (.apply PAUSE t) nofun hrefreshed.sound
    refine ⟨fun _ => hlater.sound.draws howner revoke_drew.later, fun _ h => nomatch h⟩
  · refine ⟨fun hends => ?_, fun hpause hheld => .inl (happlied.held hheld).2⟩
    exact happlied.ends hrefreshed.sound hop (hdrawn.mono hrefreshed.drawn)
      (fun h => hrefreshed.keeps (hsettled h)) hends

end Tree

end Fleet
end Mowgli
