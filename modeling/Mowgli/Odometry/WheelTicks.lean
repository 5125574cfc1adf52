import Mathlib.Data.Sign.Basic
import Mathlib.Tactic.Ring

/-!
# Wheel ticks — the direction and the distance of one wheel

`resolve_direction` and `DRIVEMOTOR_UpdateWheel` of `drivemotor.c`. The controller reports a
reversal before the wheel has turned around, and restarts its 16-bit counter then; so the
direction waits for evidence, and a counter that went down is a wrap, a restart or a glitch.

The ceiling `drivemotor_max_ticks_per_frame` is a parameter.
-/

namespace Mowgli
namespace Odometry
namespace WheelTicks

/-- `DRIVEMOTOR_dirfilter_t`. -/
structure DirFilter where
  eff : SignType
  resets : UInt8
  sampleTick : UInt32
  haveSampleTick : Bool

/-- `{0}`. -/
def DirFilter.zero : DirFilter :=
  { eff := 0, resets := 0, sampleTick := 0, haveSampleTick := false }

/-- What the controller says of one wheel. -/
structure Frame where
  reported : SignType
  speed : UInt8
  val : UInt16
  sampleTick : UInt32

def resolveDirection (f : DirFilter) (reported : SignType) (speed : UInt8) (reset : Bool) :
    DirFilter :=
  if reported ≠ 0 ∧ (speed ≠ 0 ∨ f.eff = 0) then
    { f with eff := reported, resets := 0 }
  else if reported = -f.eff then
    -- An unconfirmed reversal.
    if reset then
      if 2 ≤ f.resets + 1 then { f with eff := reported, resets := 0 }
      else { f with resets := f.resets + 1 }
    else f
  else { f with resets := 0 }

/-- The filter, the counter's last value and the two totals. -/
structure Wheel where
  filter : DirFilter
  prev : UInt16
  ticks : UInt32
  ticksSigned : Int32

def elapsedMs (f : DirFilter) (sampleTick : UInt32) : UInt32 :=
  if f.haveSampleTick then sampleTick - f.sampleTick else 20

def magnitude (frameLimit : Nat) (reported : SignType) (prev val : UInt16) : Nat :=
  if reported = 0 then 0
  else
    let mag :=
      if prev ≤ val then val.toNat - prev.toNat
      else if (val - prev).toNat ≤ frameLimit then (val - prev).toNat
      else val.toNat
    if frameLimit < mag then 0 else mag

section Fold

variable (maxTicksPerFrame : UInt32 → Nat)

/-- The limit of the frame that comes next. -/
def Wheel.limit (w : Wheel) (f : Frame) : Nat :=
  maxTicksPerFrame (elapsedMs w.filter f.sampleTick)

/-- `DRIVEMOTOR_UpdateWheel`. -/
def Wheel.update (w : Wheel) (f : Frame) : Wheel :=
  let filter := resolveDirection w.filter f.reported f.speed (decide (f.val < w.prev))
  let mag := magnitude (w.limit maxTicksPerFrame f) f.reported w.prev f.val
  { filter := { filter with sampleTick := f.sampleTick, haveSampleTick := true }
    prev := f.val
    ticks := w.ticks + UInt32.ofNat mag
    ticksSigned := w.ticksSigned + Int32.ofInt (mag * filter.eff) }

def Wheel.fold (w : Wheel) : List Frame → Wheel
  | [] => w
  | f :: frames => (w.update maxTicksPerFrame f).fold frames

variable {maxTicksPerFrame}

theorem Wheel.fold_snoc (w : Wheel) (frames : List Frame) (f : Frame) :
    w.fold maxTicksPerFrame (frames ++ [f]) =
      (w.fold maxTicksPerFrame frames).update maxTicksPerFrame f := by
  induction frames generalizing w with
  | nil => rfl
  | cons g frames ih => exact ih _

end Fold

/-! ## What the frames show -/

/-- Each frame, and whether the counter went down at it. -/
def history (prev : UInt16) : List Frame → List (Frame × Bool)
  | [] => []
  | f :: frames => (f, decide (f.val < prev)) :: history f.val frames

/-- The direction is reported without any speed. -/
def Coasts (dir : SignType) (f : Frame) : Prop := f.reported = dir ∧ f.speed = 0

instance (dir : SignType) (f : Frame) : Decidable (Coasts dir f) :=
  inferInstanceAs (Decidable (_ ∧ _))

/-- How often the counter went down since the last frame that did not report the direction
    without any speed. -/
def decreases (dir : SignType) (seen : List (Frame × Bool)) : Nat :=
  (seen.reverse.takeWhile fun p => decide (Coasts dir p.1)).countP (·.2)

theorem decreases_snoc (dir : SignType) (seen : List (Frame × Bool)) (f : Frame) (down : Bool) :
    decreases dir (seen ++ [(f, down)]) =
      if Coasts dir f then decreases dir seen + (if down then 1 else 0) else 0 := by
  unfold decreases
  rw [List.reverse_append, List.reverse_singleton, List.singleton_append, List.takeWhile_cons]
  by_cases hcoasts : Coasts dir f
  · simp only [hcoasts, decide_true, if_true, List.countP_cons]
  · simp only [hcoasts, decide_false, if_false, Bool.false_eq_true, List.countP_nil]

theorem history_snoc (prev : UInt16) (frames : List Frame) (f : Frame) :
    history prev (frames ++ [f]) = history prev frames ++
      [(f, decide (f.val < (frames.getLast?.map Frame.val).getD prev))] := by
  induction frames generalizing prev with
  | nil => rfl
  | cons g frames ih =>
    rw [List.cons_append, history, ih, history, List.cons_append]
    cases frames with
    | nil => rfl
    | cons g' frames => rw [List.getLast?_cons_cons, List.getLast?_cons]; rfl

theorem Wheel.fold_prev {maxTicksPerFrame : UInt32 → Nat} (w : Wheel) (frames : List Frame) :
    (w.fold maxTicksPerFrame frames).prev = (frames.getLast?.map Frame.val).getD w.prev := by
  induction frames using List.reverseRecOn with
  | nil => rfl
  | append_singleton frames f ih =>
    rw [Wheel.fold_snoc, List.getLast?_concat]
    rfl

/-! ## The direction -/

section Direction

variable {f : DirFilter} {reported : SignType} {speed : UInt8} {reset : Bool}

/-- The reported direction is believed at once, or the second time the counter goes down; or it
    is not believed, and what is counted goes up, stays or starts over. -/
theorem resolve_cases (f : DirFilter) (reported : SignType) (speed : UInt8) (reset : Bool) :
    (reported ≠ 0 ∧ (speed ≠ 0 ∨ f.eff = 0) ∧
      resolveDirection f reported speed reset = { f with eff := reported, resets := 0 }) ∨
    (¬(reported ≠ 0 ∧ (speed ≠ 0 ∨ f.eff = 0)) ∧ reported = -f.eff ∧ reset = true ∧
      2 ≤ f.resets + 1 ∧
      resolveDirection f reported speed reset = { f with eff := reported, resets := 0 }) ∨
    (¬(reported ≠ 0 ∧ (speed ≠ 0 ∨ f.eff = 0)) ∧ reported = -f.eff ∧ reset = true ∧
      ¬2 ≤ f.resets + 1 ∧
      resolveDirection f reported speed reset = { f with resets := f.resets + 1 }) ∨
    (¬(reported ≠ 0 ∧ (speed ≠ 0 ∨ f.eff = 0)) ∧ reported = -f.eff ∧ reset = false ∧
      resolveDirection f reported speed reset = f) ∨
    (reported ≠ -f.eff ∧
      resolveDirection f reported speed reset = { f with resets := 0 }) := by
  unfold resolveDirection
  by_cases hbelieved : reported ≠ 0 ∧ (speed ≠ 0 ∨ f.eff = 0)
  · exact .inl ⟨hbelieved.1, hbelieved.2, if_pos hbelieved⟩
  · rw [if_neg hbelieved]
    by_cases hopposite : reported = -f.eff
    · rw [if_pos hopposite]
      cases reset with
      | false => exact .inr (.inr (.inr (.inl ⟨hbelieved, hopposite, rfl, rfl⟩)))
      | true =>
        by_cases htwice : 2 ≤ f.resets + 1
        · exact .inr (.inl ⟨hbelieved, hopposite, rfl, htwice, if_pos htwice⟩)
        · exact .inr (.inr (.inl ⟨hbelieved, hopposite, rfl, htwice, if_neg htwice⟩))
    · exact .inr (.inr (.inr (.inr ⟨hopposite, if_neg hopposite⟩)))

/-- A report against the direction that is not believed at once has no speed. -/
theorem coasts_of_unbelieved (hbelieved : ¬(reported ≠ 0 ∧ (speed ≠ 0 ∨ f.eff = 0)))
    (hopposite : reported = -f.eff) (heff : f.eff ≠ 0) : reported = -f.eff ∧ speed = 0 := by
  refine ⟨hopposite, ?_⟩
  by_contra hspeed
  exact hbelieved ⟨by rw [hopposite]; simpa using heff, .inl hspeed⟩

/-- What the filter counts was seen. -/
structure Counted (f : DirFilter) (seen : List (Frame × Bool)) : Prop where
  few : f.resets.toNat ≤ 1
  seen : f.eff ≠ 0 → f.resets.toNat ≤ decreases (-f.eff) seen

theorem Counted.start (prev : DirFilter) (seen : List (Frame × Bool)) (h : prev.resets = 0) :
    Counted prev seen := by
  constructor
  · rw [h]
    exact Nat.zero_le _
  · intro _
    rw [h]
    exact Nat.zero_le _

variable {seen : List (Frame × Bool)}

theorem resets_succ (h : Counted f seen) : (f.resets + 1).toNat = f.resets.toNat + 1 := by
  have hfew := h.few
  rw [UInt8.toNat_add]
  exact Nat.mod_eq_of_lt (by simp; omega)

theorem Counted.resolve (h : Counted f seen) (g : Frame) (down : Bool) :
    Counted (resolveDirection f g.reported g.speed down) (seen ++ [(g, down)]) := by
  rcases resolve_cases f g.reported g.speed down with
    ⟨-, -, hf⟩ | ⟨-, -, -, -, hf⟩ | ⟨hbelieved, hopposite, rfl, htwice, hf⟩ |
    ⟨hbelieved, hopposite, rfl, hf⟩ | ⟨-, hf⟩
  · exact .start _ _ (by rw [hf])
  · exact .start _ _ (by rw [hf])
  · rw [hf]
    have hsucc := resets_succ h
    have hfirst : f.resets.toNat + 1 < 2 := by
      rw [← hsucc]
      exact Nat.lt_of_not_le fun hle => htwice (UInt8.le_iff_toNat_le.2 hle)
    refine ⟨?_, fun heff => ?_⟩
    · show (f.resets + 1).toNat ≤ 1
      omega
    · show (f.resets + 1).toNat ≤ _
      have hcoasts : Coasts (-f.eff) g := coasts_of_unbelieved hbelieved hopposite heff
      have hseen := h.seen heff
      rw [decreases_snoc, if_pos hcoasts, if_pos rfl, hsucc]
      omega
  · rw [hf]
    refine ⟨h.few, fun heff => ?_⟩
    have hcoasts : Coasts (-f.eff) g := coasts_of_unbelieved hbelieved hopposite heff
    rw [decreases_snoc, if_pos hcoasts]
    exact h.seen heff
  · exact .start _ _ (by rw [hf])

/-- A reversal was reported with speed, or the counter went down for the second time. -/
theorem Counted.reverses (h : Counted f seen) (g : Frame) (down : Bool) {s : SignType} (hs : s ≠ 0)
    (heff : f.eff = s) (hrev : (resolveDirection f g.reported g.speed down).eff = -s) :
    g.reported = -s ∧
      (g.speed ≠ 0 ∨ down = true ∧ 2 ≤ decreases (-s) (seen ++ [(g, down)])) := by
  have hne : f.eff ≠ -s := by
    rw [heff]
    exact fun hself => hs (SignType.self_eq_neg_iff.1 hself)
  rcases resolve_cases f g.reported g.speed down with
    ⟨-, hwhy, hf⟩ | ⟨hbelieved, hopposite, hdown, htwice, hf⟩ | ⟨-, -, -, -, hf⟩ |
    ⟨-, -, -, hf⟩ | ⟨-, hf⟩
  · rw [hf] at hrev
    exact ⟨hrev, .inl (hwhy.resolve_right (by rw [heff]; exact hs))⟩
  · rw [hf] at hrev
    refine ⟨hrev, .inr ⟨hdown, ?_⟩⟩
    have hcoasts : Coasts (-f.eff) g :=
      coasts_of_unbelieved hbelieved hopposite (by rw [heff]; exact hs)
    have hseen := h.seen (by rw [heff]; exact hs)
    have htwice := UInt8.le_iff_toNat_le.1 htwice
    rw [resets_succ h] at htwice
    rw [heff] at hcoasts hseen
    rw [decreases_snoc, if_pos hcoasts, if_pos hdown]
    exact Nat.le_trans htwice (Nat.succ_le_succ hseen)
  · exact absurd (by rw [hf] at hrev; exact hrev) hne
  · exact absurd (by rw [hf] at hrev; exact hrev) hne
  · exact absurd (by rw [hf] at hrev; exact hrev) hne

end Direction

theorem Counted.fold {maxTicksPerFrame : UInt32 → Nat} {w : Wheel} (h : w.filter = .zero)
    (frames : List Frame) :
    Counted (w.fold maxTicksPerFrame frames).filter (history w.prev frames) := by
  induction frames using List.reverseRecOn with
  | nil => exact .start _ _ (by rw [Wheel.fold, h]; rfl)
  | append_singleton frames f ih =>
    rw [Wheel.fold_snoc, history_snoc, ← Wheel.fold_prev]
    obtain ⟨hfew, hseen⟩ := ih.resolve f (decide (f.val < (w.fold maxTicksPerFrame frames).prev))
    exact ⟨hfew, hseen⟩

/-! ## The distance -/

section Distance

variable {limit : Nat} {reported : SignType} {prev val : UInt16}

/-- Neither the way from the last value nor, after the counter went down, the value itself is
    within the limit. -/
def Glitch (limit : Nat) (prev val : UInt16) : Prop :=
  limit < (val - prev).toNat ∧ (val < prev → limit < val.toNat)

theorem discard_le (mag : Nat) : (if limit < mag then 0 else mag) ≤ limit := by
  by_cases h : limit < mag
  · rw [if_pos h]
    exact Nat.zero_le _
  · rw [if_neg h]
    exact Nat.le_of_not_lt h

theorem magnitude_le : magnitude limit reported prev val ≤ limit := by
  unfold magnitude
  by_cases hstop : reported = 0
  · rw [if_pos hstop]
    exact Nat.zero_le _
  · rw [if_neg hstop]
    exact discard_le _

/-- An increase is the way from the last value. -/
theorem toNat_sub_of_le (h : prev ≤ val) : val.toNat - prev.toNat = (val - prev).toNat :=
  (UInt16.toNat_sub_of_le _ _ h).symm

theorem magnitude_glitch (h : Glitch limit prev val) : magnitude limit reported prev val = 0 := by
  unfold magnitude
  by_cases hstop : reported = 0
  · exact if_pos hstop
  · rw [if_neg hstop]
    by_cases hup : prev ≤ val
    · simp only [if_pos hup]
      rw [toNat_sub_of_le hup]
      exact if_pos h.1
    · simp only [if_neg hup, if_neg (Nat.not_le_of_lt h.1)]
      exact if_pos (h.2 (UInt16.not_le.1 hup))

theorem magnitude_of_le (hmoving : reported ≠ 0) (h : (val - prev).toNat ≤ limit) :
    magnitude limit reported prev val = (val - prev).toNat := by
  unfold magnitude
  rw [if_neg hmoving]
  by_cases hup : prev ≤ val
  · simp only [if_pos hup]
    rw [toNat_sub_of_le hup]
    exact if_neg (Nat.not_lt_of_le h)
  · simp only [if_neg hup, if_pos h]
    exact if_neg (Nat.not_lt_of_le h)

end Distance

/-! ## True progress -/

section Progress

variable (maxTicksPerFrame : UInt32 → Nat)

/-- The wheel stands at `position` when the frames begin, turns by the number that comes with
    each frame, within that frame's limit, and the counter shows the low 16 bits. -/
def Progress (dir : SignType) (position : Nat) (f : DirFilter) : List (Frame × Nat) → Prop
  | [] => True
  | (g, turned) :: rest =>
    g.reported = dir ∧ turned ≤ maxTicksPerFrame (elapsedMs f g.sampleTick) ∧
      g.val = UInt16.ofNat (position + turned) ∧
      Progress dir (position + turned)
        { f with sampleTick := g.sampleTick, haveSampleTick := true } rest

def turned : List (Frame × Nat) → Nat
  | [] => 0
  | (_, n) :: rest => n + turned rest

variable {maxTicksPerFrame} {dir : SignType}

/-- Only the clock of the filter matters. -/
theorem Progress.of_clock {f f' : DirFilter} :
    ∀ {frames : List (Frame × Nat)} {position : Nat}, f.sampleTick = f'.sampleTick →
      f.haveSampleTick = f'.haveSampleTick → Progress maxTicksPerFrame dir position f frames →
      Progress maxTicksPerFrame dir position f' frames
  | [], _, _, _, _ => trivial
  | (g, n) :: rest, position, htick, hhave, ⟨hdir, hle, hval, hrest⟩ => by
    refine ⟨hdir, ?_, hval, ?_⟩
    · rw [elapsedMs, ← htick, ← hhave]
      exact hle
    · refine Progress.of_clock ?_ ?_ hrest <;> rfl

theorem ofNat_sub (position turned : Nat) (h : turned < 65536) :
    (UInt16.ofNat (position + turned) - UInt16.ofNat position).toNat = turned := by
  rw [UInt16.ofNat_add, UInt16.add_comm, UInt16.add_sub_cancel]
  exact UInt16.toNat_ofNat_of_lt h

/-- A filter that holds the reported direction, or none, keeps it. -/
theorem resolve_keeps {f : DirFilter} (hdir : dir ≠ 0) (heff : f.eff = 0 ∨ f.eff = dir)
    (speed : UInt8) (reset : Bool) : (resolveDirection f dir speed reset).eff = dir := by
  have hself : ∀ s : SignType, s ≠ 0 → s ≠ -s := fun s hs h =>
    hs (SignType.self_eq_neg_iff.1 h)
  rcases resolve_cases f dir speed reset with
    ⟨-, -, hf⟩ | ⟨-, -, -, -, hf⟩ | ⟨hbelieved, hopposite, -, -, -⟩ |
    ⟨hbelieved, hopposite, -, -⟩ | ⟨hnot, hf⟩
  · rw [hf]
  · rw [hf]
  all_goals
    rcases heff with heff | heff
  · exact absurd ⟨hdir, .inr heff⟩ hbelieved
  · exact absurd (by rw [heff] at hopposite; exact hopposite) (hself dir hdir)
  · exact absurd ⟨hdir, .inr heff⟩ hbelieved
  · exact absurd (by rw [heff] at hopposite; exact hopposite) (hself dir hdir)
  · rw [resolveDirection, if_pos ⟨hdir, .inr heff⟩]
  · rw [hf]
    exact heff

theorem Progress.fold_ticksSigned (hdir : dir ≠ 0) :
    ∀ {frames : List (Frame × Nat)} {w : Wheel} {position : Nat},
      w.filter.eff = 0 ∨ w.filter.eff = dir → w.prev = UInt16.ofNat position →
      (∀ p ∈ frames, p.2 < 65536) → Progress maxTicksPerFrame dir position w.filter frames →
      (w.fold maxTicksPerFrame (frames.map (·.1))).ticksSigned =
        w.ticksSigned + Int32.ofInt (turned frames * dir)
  | [], w, position, _, _, _, _ => by
    show w.ticksSigned = w.ticksSigned + Int32.ofInt ((0 : Nat) * dir)
    simp
  | (g, n) :: rest, w, position, heff, hprev, hsmall, ⟨hg, hle, hval, hrest⟩ => by
    have hn : (g.val - w.prev).toNat = n := by
      rw [hval, hprev]
      exact ofNat_sub position n (hsmall (g, n) List.mem_cons_self)
    have hkeeps := resolve_keeps hdir heff g.speed (decide (g.val < w.prev))
    rw [← hg] at hkeeps
    have hmag : magnitude (w.limit maxTicksPerFrame g) g.reported w.prev g.val = n := by
      rw [magnitude_of_le (by rw [hg]; exact hdir) (by rw [hn]; exact hle), hn]
    have hstep : (w.update maxTicksPerFrame g).ticksSigned =
        w.ticksSigned + Int32.ofInt (n * dir) := by
      show w.ticksSigned + Int32.ofInt (magnitude _ _ _ _ * (resolveDirection _ _ _ _).eff) = _
      rw [hmag, hkeeps, hg]
    have hnext : Progress maxTicksPerFrame dir (position + n)
        (w.update maxTicksPerFrame g).filter rest := by
      refine Progress.of_clock ?_ ?_ hrest <;> rfl
    rw [List.map_cons, Wheel.fold, Progress.fold_ticksSigned hdir (.inr (hkeeps.trans hg)) hval
      (fun p hp => hsmall p (List.mem_cons_of_mem _ hp)) hnext, hstep, Int32.add_assoc,
      ← Int32.ofInt_add]
    congr 2
    show (n : Int) * dir + (turned rest : Int) * dir = ((n + turned rest : Nat) : Int) * dir
    push_cast
    ring

end Progress

/-! ## A run -/

/-- A direction is reversed on evidence, the distance of a frame is bounded, and a wheel that
    only advances is counted exactly. -/
theorem wheel_ticks_confirmed (maxTicksPerFrame : UInt32 → Nat) (w : Wheel)
    (hstart : w.filter = .zero) (frames : List Frame) :
    (∀ before f after, frames = before ++ f :: after →
      let here := w.fold maxTicksPerFrame before
      let next := here.update maxTicksPerFrame f
      let down := decide (f.val < here.prev)
      (∀ s : SignType, s ≠ 0 → here.filter.eff = s → next.filter.eff = -s →
        f.reported = -s ∧
          (f.speed ≠ 0 ∨ down = true ∧ 2 ≤ decreases (-s) (history w.prev (before ++ [f])))) ∧
      (∃ mag, mag ≤ here.limit maxTicksPerFrame f ∧
        next.ticksSigned = here.ticksSigned + Int32.ofInt (mag * next.filter.eff) ∧
        next.ticks = here.ticks + UInt32.ofNat mag ∧
        (Glitch (here.limit maxTicksPerFrame f) here.prev f.val → mag = 0)) ∧
      next.prev = f.val) ∧
    ∀ (dir : SignType) (position : Nat) (turns : List (Frame × Nat)), dir ≠ 0 →
      frames = turns.map (·.1) → w.prev = UInt16.ofNat position →
      (∀ p ∈ turns, p.2 < 65536) → Progress maxTicksPerFrame dir position w.filter turns →
      (w.fold maxTicksPerFrame frames).ticksSigned =
        w.ticksSigned + Int32.ofInt (turned turns * dir) := by
  refine ⟨?_, ?_⟩
  · rintro before f after -
    refine ⟨fun s hs heff hrev => ?_, ?_, rfl⟩
    · have hcounted : Counted (w.fold maxTicksPerFrame before).filter (history w.prev before) :=
        Counted.fold hstart before
      rw [history_snoc, ← Wheel.fold_prev]
      exact hcounted.reverses f _ hs heff hrev
    · exact ⟨_, magnitude_le, rfl, rfl, magnitude_glitch⟩
  · rintro dir position turns hdir rfl hprev hsmall hprogress
    exact hprogress.fold_ticksSigned hdir (.inl (by rw [hstart]; rfl)) hprev hsmall

/-- A whole turn of the counter within one frame is not seen. -/
theorem whole_turn_lost :
    ¬∀ (maxTicksPerFrame : UInt32 → Nat) (w : Wheel) (position : Nat)
      (turns : List (Frame × Nat)), (∀ ms, 1 ≤ maxTicksPerFrame ms) → w.filter = .zero →
      w.prev = UInt16.ofNat position → Progress maxTicksPerFrame 1 position w.filter turns →
      (w.fold maxTicksPerFrame (turns.map (·.1))).ticksSigned =
        w.ticksSigned + Int32.ofInt (turned turns * (1 : SignType)) := by
  intro h
  have hlost := h (fun _ => 65536) ⟨.zero, 0, 0, 0⟩ 0 [(⟨1, 0, 0, 20⟩, 65536)]
    (fun _ => by decide) rfl rfl ⟨rfl, Nat.le_refl _, rfl, trivial⟩
  exact absurd hlost (by decide)

/-- The wheel turns forward past the end of the counter. -/
theorem wheel_ticks_confirmed_wrap :
    ((⟨.zero, 65530, 0, 0⟩ : Wheel).fold (fun _ => 100)
      [⟨1, 9, 65535, 20⟩, ⟨1, 0, 7, 40⟩]).ticksSigned = 13 :=
  (wheel_ticks_confirmed (fun _ => 100) ⟨.zero, 65530, 0, 0⟩ rfl
    [⟨1, 9, 65535, 20⟩, ⟨1, 0, 7, 40⟩]).2 1 65530 [(⟨1, 9, 65535, 20⟩, 5), (⟨1, 0, 7, 40⟩, 8)]
    (by decide) rfl rfl (by simp)
    ⟨rfl, by decide, by decide, rfl, by decide, by decide, trivial⟩

end WheelTicks
end Odometry
end Mowgli
