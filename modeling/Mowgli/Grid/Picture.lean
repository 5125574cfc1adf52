import Mowgli.Grid.Socket

/-!
# Picture — what the browser shows was sent

`Sound` says what every part of the system means in terms of the messages that were sent under
each number of each subscription: the server remembers the last one, a frame on its way leads
to one, the browser holds one. A patch that is applied to a grid of its own subscription leads
to the message it was made from.

A frame carries no trace of its subscription. **A patch that meets a grid of an earlier one
under the number it is based on is applied all the same, and a grid of an earlier one that comes
late is taken for the current one's**; `fits` is that neither happens.
-/

namespace Mowgli
namespace Grid

variable {J : Type}

/-- The same cells, geometry and header. The load time says nothing about the cells. -/
structure Agrees (grid w : OccupancyGrid J) : Prop where
  data : grid.data = w.data
  width : grid.width = w.width
  height : grid.height = w.height
  resolution : grid.resolution = w.resolution
  origin : grid.origin = w.origin
  header : grid.header = w.header

theorem Agrees.refl (w : OccupancyGrid J) : Agrees w w := ⟨rfl, rfl, rfl, rfl, rfl, rfl⟩

abbrev Sent (J : Type) := List (Nat × Nat × OccupancyGrid J)

/-- A patch leads from one message of its subscription to another. -/
structure Leads (sent : Sent J) (sub base seq : Nat) (header : J) (gaps vals : List Int)
    (w₀ w : OccupancyGrid J) : Prop where
  base : (sub, base, w₀) ∈ sent
  result : (sub, seq, w) ∈ sent
  width : w₀.width = w.width
  height : w₀.height = w.height
  resolution : w₀.resolution = w.resolution
  origin : w₀.origin = w.origin
  header : header = w.header
  lengths : gaps.length = vals.length
  cells : Delta.apply w₀.data (gaps.zip vals) = some w.data

def Meant (sent : Sent J) (sub : Nat) : Frame J → Prop
  | .full seq raw => (sub, seq, raw) ∈ sent
  | .patch base seq header gaps vals => ∃ w₀ w, Leads sent sub base seq header gaps vals w₀ w
  | .plain _ => True

/-- What was handed on is what the current subscription sent under its number, and a patch was
applied to what that one sent under its base. -/
def Told (sent : Sent J) : Mark J → Prop
  | .full current seq grid => ∃ w, (current, seq, w) ∈ sent ∧ Agrees grid w
  | .patched current base seq old grid =>
    (∃ w₀, (current, base, w₀) ∈ sent ∧ Agrees old w₀) ∧
      ∃ w, (current, seq, w) ∈ sent ∧ Agrees grid w
  | .rejected _ _ => True
  | .plain _ => True

/-- A patch was rejected, and no grid came in full since. -/
def blank : List (Mark J) → Bool
  | [] => false
  | .full _ _ _ :: _ => false
  | .rejected _ _ :: _ => true
  | .patched _ _ _ _ _ :: past => blank past
  | .plain _ :: past => blank past

variable {base sub : Nat}

theorem exists_full_of_not_blank {mid past : List (Mark J)}
    (h : blank (mid ++ .rejected sub base :: past) = false) :
    ∃ sub seq grid, Mark.full sub seq grid ∈ mid := by
  induction mid with
  | nil => cases h
  | cons mark mid ih =>
    cases mark with
    | full sub seq grid => exact ⟨sub, seq, grid, List.mem_cons_self ..⟩
    | rejected sub base => cases h
    | patched sub base seq old grid =>
      obtain ⟨s, q, g, hmem⟩ := ih h
      exact ⟨s, q, g, List.mem_cons_of_mem _ hmem⟩
    | plain raw =>
      obtain ⟨s, q, g, hmem⟩ := ih h
      exact ⟨s, q, g, List.mem_cons_of_mem _ hmem⟩

structure Remembers (g : GridDelta J) (w : OccupancyGrid J) : Prop where
  cells : g.cells = some w.data
  width : g.width = w.width
  height : g.height = w.height
  res : g.res = w.resolution
  origin : g.origin = some w.origin
  last : g.last = some w

/-- The server of subscription `sub`. -/
structure Serves (sent : Sent J) (sub : Nat) (g : GridDelta J) : Prop where
  counted : ∀ seq w, (sub, seq, w) ∈ sent → seq ≤ g.seq
  holds : g.cells = none ∧ g.last = none ∨ ∃ w, Remembers g w ∧ (sub, g.seq, w) ∈ sent

structure Sound (σ : System J) : Prop where
  unique : ∀ sub seq w w', (sub, seq, w) ∈ σ.sent → (sub, seq, w') ∈ σ.sent → w = w'
  opened : ∀ sub seq w, (sub, seq, w) ∈ σ.sent → sub ≤ σ.current
  server : ∀ sub g, σ.server = some (sub, g) → sub ≤ σ.current ∧ Serves σ.sent sub g
  down : ∀ f ∈ σ.down, Meant σ.sent f.1 f.2
  held : ∀ h, σ.browser.held = some h → ∃ w, (h.sub, h.seq, w) ∈ σ.sent ∧ Agrees h.grid w
  log : ∀ mark ∈ σ.log, Told σ.sent mark
  dark : blank σ.log = true → σ.browser.held = none
  shown : ∀ later sub base seq old grid past,
    σ.log = later ++ .patched sub base seq old grid :: past → blank past = false

/-- A grid that arrives is of the current subscription, and so is a patch that meets a grid under
its base, and that grid. -/
def fits (σ : System J) : Event J → Bool
  | .deliver =>
    match σ.down, σ.browser.held with
    | (sub, .full _ _) :: _, _ => !σ.browser.listening || sub == σ.current
    | (sub, .patch base _ _ _ _) :: _, some h =>
      !σ.browser.listening || h.seq != base || (sub == σ.current && h.sub == σ.current)
    | _, _ => true
  | _ => true

section Sending

variable {sent : Sent J} {entry : Nat × Nat × OccupancyGrid J}

theorem Meant.push {f : Frame J} (h : Meant sent sub f) : Meant (entry :: sent) sub f := by
  cases f with
  | full seq raw => exact List.mem_cons_of_mem _ h
  | patch base seq header gaps vals =>
    obtain ⟨w₀, w, h⟩ := h
    exact ⟨w₀, w, { h with
      base := List.mem_cons_of_mem _ h.base, result := List.mem_cons_of_mem _ h.result }⟩
  | plain raw => trivial

theorem Told.push {mark : Mark J} (h : Told sent mark) : Told (entry :: sent) mark := by
  cases mark with
  | full sub seq grid =>
    obtain ⟨w, hw, h⟩ := h
    exact ⟨w, List.mem_cons_of_mem _ hw, h⟩
  | patched sub base seq old grid =>
    obtain ⟨⟨w₀, hw₀, hold⟩, w, hw, h⟩ := h
    exact ⟨⟨w₀, List.mem_cons_of_mem _ hw₀, hold⟩, w, List.mem_cons_of_mem _ hw, h⟩
  | rejected sub base => trivial
  | plain raw => trivial

variable {σ : System J} {sub : Nat} {g : GridDelta J}

theorem Sound.send (h : Sound σ) (hserver : σ.server = some (sub, g)) {g' : GridDelta J}
    {f : Frame J} {w : OccupancyGrid J} (hseq : g'.seq = g.seq + 1) (hw : Remembers g' w)
    (hf : Meant ((sub, g'.seq, w) :: σ.sent) sub f) : Sound (σ.send sub g' f w) := by
  obtain ⟨hopened, hserves⟩ := h.server sub g hserver
  have hnew {q : Nat} {v : OccupancyGrid J} (hmem : (sub, q, v) ∈ σ.sent) : q ≠ g'.seq := by
    have := hserves.counted q v hmem
    omega
  refine ⟨?_, ?_, ?_, ?_, ?_, ?_, h.dark, h.shown⟩
  · intro k q v v' hv hv'
    rcases List.mem_cons.1 hv with hv | hv <;> rcases List.mem_cons.1 hv' with hv' | hv'
    · cases hv
      cases hv'
      rfl
    · cases hv
      exact absurd rfl (hnew hv')
    · cases hv'
      exact absurd rfl (hnew hv)
    · exact h.unique k q v v' hv hv'
  · intro k q v hv
    rcases List.mem_cons.1 hv with hv | hv
    · cases hv
      exact hopened
    · exact h.opened k q v hv
  · rintro _ _ ⟨⟩
    refine ⟨hopened, ⟨fun q v hv => ?_, .inr ⟨w, hw, List.mem_cons_self ..⟩⟩⟩
    rcases List.mem_cons.1 hv with hv | hv
    · cases hv
      exact le_rfl
    · have := hserves.counted q v hv
      omega
  · intro f' hmem
    rcases List.mem_append.1 hmem with hmem | hmem
    · exact (h.down f' hmem).push
    · rw [List.mem_singleton] at hmem
      subst hmem
      exact hf
  · intro held hheld
    obtain ⟨v, hv, hagrees⟩ := h.held held hheld
    exact ⟨v, List.mem_cons_of_mem _ hv, hagrees⟩
  · exact fun mark hmem => (h.log mark hmem).push

theorem remembers_remember (g : GridDelta J) (w : OccupancyGrid J) :
    Remembers (g.remember w) w := ⟨rfl, rfl, rfl, rfl, rfl, rfl⟩

/-- Of two grids of one shape, the patch leads from the first to the second. -/
theorem Serves.leads [DecidableEq J] (h : Serves σ.sent sub g) {w : OccupancyGrid J} (hshape : g.sameShape w = true) :
    ∃ w₀, Leads ((sub, g.seq + 1, w) :: σ.sent) sub g.seq (g.seq + 1) w.header
      ((Delta.diff (g.cells.getD []) w.data).map Prod.fst)
      ((Delta.diff (g.cells.getD []) w.data).map Prod.snd) w₀ w := by
  rcases h.holds with ⟨hcells, -⟩ | ⟨w₀, hw₀, hsent⟩
  · simp [GridDelta.sameShape, hcells] at hshape
  · simp only [GridDelta.sameShape, hw₀.cells, hw₀.width, hw₀.height, hw₀.res, hw₀.origin,
      Option.any_some, Bool.and_eq_true, beq_iff_eq, Option.some.injEq] at hshape
    obtain ⟨⟨⟨⟨hlen, hwidth⟩, hheight⟩, hres⟩, horigin⟩ := hshape
    refine ⟨w₀, ⟨List.mem_cons_of_mem _ hsent, List.mem_cons_self .., hwidth.symm, hheight.symm,
      hres.symm, horigin.symm, rfl, by simp, ?_⟩⟩
    rw [hw₀.cells, Option.getD_some, ← List.unzip_fst, ← List.unzip_snd, List.zip_unzip]
    exact Delta.apply_diff hlen.symm

theorem Sound.next [DecidableEq J] (h : Sound σ) (hserver : σ.server = some (sub, g)) (w : OccupancyGrid J) :
    Sound (σ.send sub (g.next w).1 (g.next w).2 w) := by
  unfold GridDelta.next
  dsimp only
  split
  · rename_i hc
    simp only [Bool.and_eq_true] at hc
    refine h.send hserver rfl (remembers_remember _ _) ?_
    obtain ⟨w₀, hleads⟩ := (h.server sub g hserver).2.leads hc.1.1
    exact ⟨w₀, w, hleads⟩
  · exact h.send hserver rfl (remembers_remember _ _) (List.mem_cons_self ..)

end Sending

section Steps

variable {σ : System J}

theorem Sound.boot (hidden : Bool) : Sound (System.boot hidden : System J) :=
  ⟨nofun, nofun, nofun, nofun, nofun, nofun, nofun, fun later _ _ _ _ _ _ heq => by
    cases later <;> cases heq⟩

/-- The browser sends ops, and keeps the grid it holds or drops it. -/
theorem Sound.act (h : Sound σ) {r : Browser J × List Op}
    (hheld : r.1.held = σ.browser.held ∨ r.1.held = none) : Sound (σ.act r) := by
  refine ⟨h.unique, h.opened, h.server, h.down, ?_, h.log, fun hdark => ?_, h.shown⟩
  · intro held hr
    rcases hheld with heq | hnone
    · exact h.held held (heq ▸ hr)
    · rw [show (σ.act r).browser.held = none from hnone] at hr
      cases hr
  · rcases hheld with heq | hnone
    · exact heq.trans (h.dark hdark)
    · exact hnone

theorem held_setHidden (paused : Bool) (b : Browser J) (hidden : Bool) :
    (b.setHidden paused hidden).1.held = b.held := by
  unfold Browser.setHidden
  split <;> rfl

theorem held_unsubscribe (paused : Bool) (b : Browser J) :
    (b.unsubscribe paused).1.held = b.held ∨ (b.unsubscribe paused).1.held = none := by
  unfold Browser.unsubscribe
  split
  · exact .inr rfl
  · exact .inl rfl

theorem held_onopen (paused : Bool) (b : Browser J) : (b.onopen paused).1.held = b.held := by
  unfold Browser.onopen
  split <;> rfl

theorem held_requestFullGrid (b : Browser J) : b.requestFullGrid.1.held = none := by
  unfold Browser.requestFullGrid
  split <;> rfl

theorem Sound.publish [DecidableEq J] (h : Sound σ) (m : Message J) : Sound (σ.publish m) := by
  unfold System.publish
  cases hserver : σ.server with
  | none => exact h
  | some s =>
    obtain ⟨sub, g⟩ := s
    dsimp only
    cases m.wire with
    | some w => exact h.next hserver w
    | none =>
      refine ⟨h.unique, h.opened, fun sub' g' hs => ?_, fun f hmem => ?_, h.held, h.log, h.dark,
        h.shown⟩
      · exact h.server sub' g' (hserver ▸ hs)
      · rcases List.mem_append.1 hmem with hmem | hmem
        · exact h.down f hmem
        · rw [List.mem_singleton] at hmem
          subst hmem
          trivial

theorem Sound.serve [DecidableEq J] (h : Sound σ) (fails : Bool) (op : Op) :
    Sound (σ.serve fails op) := by
  cases op with
  | subscribe =>
    unfold System.serve
    cases hserver : σ.server with
    | some s => exact h
    | none =>
      dsimp only
      split
      · exact h
      · -- nothing was sent under the number of a new subscription
        refine ⟨h.unique, fun sub seq w hw => Nat.le_succ_of_le (h.opened sub seq w hw), ?_, h.down,
          h.held, h.log, h.dark, h.shown⟩
        rintro _ _ ⟨⟩
        refine ⟨le_rfl, ⟨fun seq w hw => ?_, .inl ⟨rfl, rfl⟩⟩⟩
        exact absurd (h.opened _ seq w hw) (Nat.not_succ_le_self _)
  | unsubscribe => exact ⟨h.unique, h.opened, nofun, h.down, h.held, h.log, h.dark, h.shown⟩
  | resync =>
    unfold System.serve
    cases hserver : σ.server with
    | none => exact h
    | some s =>
      obtain ⟨sub, g⟩ := s
      dsimp only [GridDelta.resync]
      cases hlast : g.last with
      | none => exact h
      | some last =>
        -- the last message once more, under a new number
        rcases (h.server sub g hserver).2.holds with ⟨-, hnone⟩ | ⟨w, hw, -⟩
        · rw [hnone] at hlast
          cases hlast
        · have heq : w = last := Option.some.inj (hw.last.symm.trans hlast)
          subst heq
          exact h.send hserver rfl ⟨hw.cells, hw.width, hw.height, hw.res, hw.origin, rfl⟩
            (List.mem_cons_self ..)

/-- A patch is applied to the grid that is held under its base. -/
theorem patched_base {b : Browser J} {gaps vals : List Int} {held : Held J} {data : List Int}
    (hp : b.patched base gaps vals = some (held, data)) : held.seq = base := by
  unfold Browser.patched at hp
  split at hp
  · cases hp
  · split at hp
    · cases hp
    · rename_i h hc
      obtain ⟨_, _, heq⟩ := Option.map_eq_some_iff.1 hp
      cases heq
      exact by_contra fun hne => hc (.inl hne)

/-- A patch that meets a grid of its own subscription. -/
theorem Sound.patched (h : Sound σ) {seq : Nat} {header : J} {gaps vals : List Int}
    (hf : Meant σ.sent sub (.patch base seq header gaps vals)) {held : Held J} {data : List Int}
    (hp : σ.browser.patched base gaps vals = some (held, data))
    (hsub : ∀ h, σ.browser.held = some h → h.seq = base → h.sub = sub) :
    σ.browser.held = some held ∧ held.sub = sub ∧
      (∃ w₀, (sub, base, w₀) ∈ σ.sent ∧ Agrees held.grid w₀) ∧
      ∃ w, (sub, seq, w) ∈ σ.sent ∧
        Agrees { held.grid with header := header, data := data } w := by
  have hseq := patched_base hp
  unfold Browser.patched at hp
  cases hheld : σ.browser.held with
  | none =>
    rw [hheld] at hp
    cases hp
  | some b =>
    rw [hheld] at hp
    dsimp only at hp
    split at hp
    · cases hp
    · rename_i hc
      obtain ⟨cells, hcells, heq⟩ := Option.map_eq_some_iff.1 hp
      cases heq
      have hown := hsub held hheld hseq
      obtain ⟨w₀, w, hleads⟩ := hf
      obtain ⟨v, hv, hagrees⟩ := h.held held hheld
      rw [hown, hseq] at hv
      have hsame := h.unique sub base v w₀ hv hleads.base
      subst hsame
      rw [hagrees.data, hleads.cells, Option.some.injEq] at hcells
      subst hcells
      exact ⟨rfl, hown, ⟨v, hv, hagrees⟩, w, hleads.result, ⟨rfl, hagrees.width.trans hleads.width,
        hagrees.height.trans hleads.height, hagrees.resolution.trans hleads.resolution,
        hagrees.origin.trans hleads.origin, hleads.header⟩⟩

/-- A frame arrives, and `mark` is what became of it. -/
theorem Sound.mark (h : Sound σ) {b : Browser J} {ops : List Op} {mark : Mark J}
    {rest : List (Nat × Frame J)} (hrest : ∀ f ∈ rest, f ∈ σ.down)
    (hheld : ∀ held, b.held = some held → ∃ w, (held.sub, held.seq, w) ∈ σ.sent ∧ Agrees held.grid w)
    (htold : Told σ.sent mark) (hdark : blank (mark :: σ.log) = true → b.held = none)
    (hshown : ∀ sub base seq old grid, mark = .patched sub base seq old grid → blank σ.log = false) :
    Sound { σ with browser := b, up := σ.up ++ ops, down := rest, log := mark :: σ.log } := by
  refine ⟨h.unique, h.opened, h.server, fun f hmem => h.down f (hrest f hmem), hheld, ?_, hdark, ?_⟩
  · intro m hmem
    rcases List.mem_cons.1 hmem with hmem | hmem
    · exact hmem ▸ htold
    · exact h.log m hmem
  · intro later sub base seq old grid past heq
    cases later with
    | nil =>
      obtain ⟨hmark, hlog⟩ := List.cons.inj heq
      exact hlog ▸ hshown sub base seq old grid hmark
    | cons m later => exact h.shown later sub base seq old grid past (List.cons.inj heq).2

theorem Sound.deliver (h : Sound σ) (hfits : fits σ .deliver = true) : Sound σ.deliver := by
  unfold System.deliver
  cases hdown : σ.down with
  | nil => exact h
  | cons f rest =>
    obtain ⟨sub, f⟩ := f
    have hrest : ∀ f' ∈ rest, f' ∈ σ.down := fun f' hmem => hdown ▸ List.mem_cons_of_mem _ hmem
    have hmeant : Meant σ.sent sub f := h.down (sub, f) (hdown ▸ List.mem_cons_self ..)
    dsimp only [Browser.onmessage]
    cases hlisten : σ.browser.listening with
    | false =>
      exact ⟨h.unique, h.opened, h.server, fun f' hmem => h.down f' (hrest f' hmem), h.held, h.log,
        h.dark, h.shown⟩
    | true =>
      cases f with
      | plain raw => exact h.mark hrest h.held trivial h.dark nofun
      | full seq raw =>
        have hcurrent : sub = σ.current := by simpa [fits, hdown, hlisten] using hfits
        refine h.mark hrest ?_ ⟨raw, hcurrent ▸ hmeant, .refl raw⟩ nofun nofun
        rintro held ⟨⟩
        exact ⟨raw, hmeant, .refl raw⟩
      | patch base seq header gaps vals =>
        dsimp only [Bool.not_true]
        cases hp : σ.browser.patched base gaps vals with
        | none =>
          refine h.mark hrest ?_ trivial (fun _ => held_requestFullGrid _) nofun
          intro held hheld
          have hnone := (held_requestFullGrid σ.browser).symm.trans hheld
          cases hnone
        | some r =>
          obtain ⟨held, data⟩ := r
          have hfit : ∀ h, σ.browser.held = some h → h.seq = base →
              sub = σ.current ∧ h.sub = σ.current := by
            intro h hheld hseq
            simpa [fits, hdown, hheld, hlisten, hseq] using hfits
          have hsub : ∀ h, σ.browser.held = some h → h.seq = base → h.sub = sub :=
            fun h hheld hseq => (hfit h hheld hseq).2.trans (hfit h hheld hseq).1.symm
          obtain ⟨hheld, hown, hold, w, hw, hagrees⟩ := h.patched hmeant hp hsub
          have hlit : blank σ.log = false := by
            rw [← Bool.not_eq_true]
            intro hdark
            rw [h.dark hdark] at hheld
            cases hheld
          have hcurrent : sub = σ.current := (hfit held hheld (patched_base hp)).1
          refine h.mark hrest ?_ (hcurrent ▸ ⟨hold, w, hw, hagrees⟩) (fun hdark => ?_)
            fun _ _ _ _ _ _ => hlit
          · rintro _ ⟨⟩
            exact ⟨w, hown ▸ hw, hagrees⟩
          · exact absurd (hlit.symm.trans hdark) Bool.false_ne_true

variable [DecidableEq J] (paused : Bool)

theorem Sound.step (h : Sound σ) (e : Event J) (hfits : fits σ e = true) : Sound (σ.step paused e) := by
  cases e with
  | publish m => exact h.publish m
  | serve fails =>
    unfold System.step
    cases hup : σ.up with
    | nil => exact h
    | cons op rest =>
      have hrest : Sound { σ with up := rest } :=
        ⟨h.unique, h.opened, h.server, h.down, h.held, h.log, h.dark, h.shown⟩
      exact hrest.serve fails op
  | deliver => exact h.deliver hfits
  | lose i =>
    exact ⟨h.unique, h.opened, h.server,
      fun f hmem => h.down f ((List.eraseIdx_sublist _ _).subset hmem), h.held, h.log, h.dark, h.shown⟩
  | setHidden hidden => exact h.act (.inl (held_setHidden paused _ hidden))
  | subscribe => exact h.act (.inl rfl)
  | unsubscribe => exact h.act (held_unsubscribe paused _)
  | onopen => exact h.act (.inl (held_onopen paused _))
  | disconnect => exact ⟨h.unique, h.opened, nofun, nofun, nofun, h.log, fun _ => rfl, h.shown⟩

/-- Every step of a run fits. -/
def fitting (σ : System J) : List (Event J) → Bool
  | [] => true
  | e :: es => fits σ e && fitting (σ.step paused e) es

theorem Sound.run (h : Sound σ) (es : List (Event J)) (hfits : fitting paused σ es = true) :
    Sound (σ.run paused es) := by
  induction es generalizing σ with
  | nil => exact h
  | cons e es ih =>
    obtain ⟨hstep, hrest⟩ := Bool.and_eq_true_iff.1 hfits
    exact ih (h.step paused e hstep) hrest

end Steps

/-- What is handed on in full or after a patch is what the current subscription sent under its
number, a patch is applied to what that one sent under its base, and nothing is patched again after a rejection before
a grid comes in full. -/
theorem pictures [DecidableEq J] (paused hidden : Bool) (es : List (Event J))
    (hfits : fitting paused (.boot hidden) es = true) :
    let σ := (System.boot hidden).run paused es
    (∀ sub seq w w', (sub, seq, w) ∈ σ.sent → (sub, seq, w') ∈ σ.sent → w = w') ∧
      (∀ held, σ.browser.held = some held →
        ∃ w, (held.sub, held.seq, w) ∈ σ.sent ∧ Agrees held.grid w) ∧
      (∀ mark ∈ σ.log, Told σ.sent mark) ∧
      ∀ later sub base seq old grid mid sub' base' past,
        σ.log = later ++ .patched sub base seq old grid :: (mid ++ .rejected sub' base' :: past) →
          ∃ sub seq grid, Mark.full sub seq grid ∈ mid := by
  intro σ
  have h := (Sound.boot (J := J) hidden).run paused es hfits
  refine ⟨h.unique, h.held, h.log, ?_⟩
  intro later sub base seq old grid mid sub' base' past hlog
  exact exists_full_of_not_blank (h.shown later sub base seq old grid _ hlog)

/-- Four cells in a row. -/
def row (header : Nat) (data : List Int) : OccupancyGrid Nat :=
  { header := header, resolution := 1, width := 4, height := 1, origin := 0, mapLoadTime := 0
    data := data }

/-- A grid in full, then a patch. -/
theorem pictures_patched :
    let σ := (System.boot false : System Nat).run true
      [.subscribe, .onopen, .serve false, .publish (.grid (row 1 [0, 0, 0, 0])), .deliver,
        .publish (.grid (row 2 [0, 0, 7, 0])), .deliver]
    (∀ sub seq w w', (sub, seq, w) ∈ σ.sent → (sub, seq, w') ∈ σ.sent → w = w') ∧
      (∀ held, σ.browser.held = some held →
        ∃ w, (held.sub, held.seq, w) ∈ σ.sent ∧ Agrees held.grid w) ∧
      (∀ mark ∈ σ.log, Told σ.sent mark) ∧
      ∀ later sub base seq old grid mid sub' base' past,
        σ.log = later ++ .patched sub base seq old grid :: (mid ++ .rejected sub' base' :: past) →
          ∃ sub seq grid, Mark.full sub seq grid ∈ mid :=
  pictures true false _ (by decide +kernel)

/-- The tab is hidden and shown again, and keeps its grid. The first frame of the new
subscription is lost, and the patch behind it is applied to the grid of the old one. Or the grid
of the old one was still on its way. -/
theorem patched_across_subscriptions :
    let σ := (System.boot false : System Nat).run true
      [.subscribe, .onopen, .serve false, .publish (.grid (row 1 [0, 0, 0, 0])), .deliver,
        .setHidden true, .serve false, .setHidden false, .serve false,
        .publish (.grid (row 2 [7, 0, 0, 0])), .lose 0,
        .publish (.grid (row 3 [7, 7, 0, 0])), .deliver]
    .patched 2 1 2 (row 1 [0, 0, 0, 0]) (row 3 [0, 7, 0, 0]) ∈ σ.log ∧
      (∀ w, (2, 1, w) ∈ σ.sent → w = row 2 [7, 0, 0, 0]) ∧
      (∀ w, (2, 2, w) ∈ σ.sent → w = row 3 [7, 7, 0, 0]) ∧
      (¬ ∀ mark ∈ σ.log, Told σ.sent mark) ∧
      let τ := (System.boot false : System Nat).run true
        [.subscribe, .onopen, .serve false, .publish (.grid (row 1 [0, 0, 0, 0])),
          .setHidden true, .serve false, .setHidden false, .serve false,
          .publish (.grid (row 2 [7, 0, 0, 0])), .deliver]
      .full 2 1 (row 1 [0, 0, 0, 0]) ∈ τ.log ∧ (2, 1, row 2 [7, 0, 0, 0]) ∈ τ.sent := by
  intro σ
  have hlog : Mark.patched 2 1 2 (row 1 [0, 0, 0, 0]) (row 3 [0, 7, 0, 0]) ∈ σ.log :=
    List.mem_cons_self ..
  have hsent : σ.sent = [(2, 2, row 3 [7, 7, 0, 0]), (2, 1, row 2 [7, 0, 0, 0]),
      (1, 1, row 1 [0, 0, 0, 0])] := by
    decide +kernel
  have hnow (w : OccupancyGrid Nat) (hw : (2, 2, w) ∈ σ.sent) : w = row 3 [7, 7, 0, 0] := by
    rw [hsent] at hw
    simpa using hw
  refine ⟨hlog, fun w hw => ?_, hnow, fun htold => ?_, List.mem_cons_self .., List.mem_cons_self ..⟩
  · rw [hsent] at hw
    simpa using hw
  · obtain ⟨-, w, hw, hagrees⟩ := htold _ hlog
    rw [hnow w hw] at hagrees
    exact absurd hagrees.data (by decide)

end Grid
end Mowgli
