import Mowgli.Params.StoreService

/-!
# StoreBoot — a boot finds the records, or may erase them

`fw_params_init` decides what becomes of the records in flash. There are two ways to an
erase. With a request pending in the registers the boot erases, and the request is an
accepted one. Without one it erases only what holds no valid record: the append rule
asks the scanner, and **the scanner finds every record that was completed**
(`Recorded.kept`), so nothing committed is lost on that way.

Nothing interrupts a boot, so everything known of the memory stays known (`Down`).
-/

namespace Mowgli
namespace Params

section

open Binary32 (Bits)
open Log (Walk ErasedFrom)
open Reset (Backup)
open Trace

variable {B : Build} {A : Premises} {s : Store} {P P' : Store → Prop}

/-- USB is not up yet, no commit has found anything unchanged, and `P`. -/
def Down (P : Store → Prop) (s : Store) : Prop :=
  (s.usbUp = false ∧ s.shared.lastCommit ≠ .unchanged) ∧ P s

theorem down_stable {inv : Store → Prop} {answers : Answer → Prop} :
    (guard inv answers).Stable (Down P) := by
  intro s s' h hr _
  rw [hr.down h.1.1]
  exact h

theorem down_get {α : Type} {r : Store → α} :
    (recordGuard B A).Triple (Down P) (.get r) (fun a => Down fun s => P s ∧ r s = a) :=
  (Guard.Triple.get down_stable).conseq (fun _ _ h => h) fun _ _ _ h => ⟨h.1.1, h.1.2, h.2⟩

theorem down_modify {f : Store → Store} (hup : ∀ s, (f s).usbUp = s.usbUp)
    (hq : ∀ s, P s → Quiet s (f s)) (h : ∀ s, Recorded B A s → P s → P' (f s)) :
    (recordGuard B A).Triple (Down P) (.modify f) (fun _ => Down P') :=
  .modify down_stable fun s hi hs =>
    ⟨hi.quiet (hq s hs.2), ⟨(hup s).trans hs.1.1, fun hc => hs.1.2 ((hq s hs.2).commit hc)⟩,
      h s hi hs.2⟩

/-! ## What a boot knows -/

/-- The registers are those this boot found. -/
def BootMark (s : Store) : Prop :=
  SinceBoot (fun b => b.obs = .booted ∧ b.rtc = s.rtc) s.log

/-- The mirror holds nothing. -/
def Empty (B : Build) (o : Own) : Prop :=
  ∀ i, i < B.table.count → B.table.isVolatile i = false → o.storedValue i = none

/-- The statics are set up, and no record is loaded. -/
structure Fresh (B : Build) (s : Store) : Prop where
  boot : BootMark s
  unqueued : s.shared.resetRequested = false
  empty : Empty B s.own
  inactive : Inactive s.own

/-- The record the scan has found is loaded, and the append point is the scan's. -/
structure Loaded (B : Build) (sc : Log.Scan) (s : Store) : Prop where
  boot : BootMark s
  unqueued : s.shared.resetRequested = false
  scanned : Log.scan s.flash B.areaWords = sc
  mirror : ∀ i, i < B.table.count → B.table.isVolatile i = false →
    s.own.storedValue i = recorded B s.flash i
  nextFree : s.own.nextFree = sc.nextFree
  inactive : Inactive s.own

/-- The area has been handed to the eraser, with the result `ok`. -/
structure Erased (B : Build) (ok : Bool) (s : Store) : Prop where
  empty : Empty B s.own
  inactive : Inactive s.own
  gone : ¬Kept s.log
  clean : ok = true → s.flash = fun _ => Log.ERASED
  failed : ok = false → EraseFailed s.log

theorem recorded_erased {i : Nat} : recorded B (fun _ => Log.ERASED) i = none := by
  have hscan : (Log.scan (fun _ => Log.ERASED) B.areaWords).lastValid = none := by
    rw [Walk.start.scan_erased fun _ _ _ => rfl]
  unfold recorded Log.newestEntries
  rw [hscan]
  rfl

variable {ok : Bool}

theorem Erased.held (h : Erased B ok s) : Held B A s := by
  refine ⟨fun hk => absurd hk h.gone, fun _ i hi hv => ?_⟩
  cases ok with
  | true =>
    rw [h.clean rfl, recorded_erased]
    exact .inl (h.empty i hi hv)
  | false => exact .inr ⟨h.failed rfl, h.empty i hi hv⟩

variable {sc : Log.Scan}

/-- Without a valid record the loaded mirror is empty. -/
theorem Loaded.fresh (h : Loaded B sc s) (hnone : sc.lastValid = none) : Fresh B s := by
  refine ⟨h.boot, h.unqueued, fun i hi hv => ?_, h.inactive⟩
  rw [h.mirror i hi hv]
  unfold recorded Log.newestEntries
  rw [h.scanned, hnone]
  rfl

theorem Loaded.held (h : Loaded B sc s) (hi : Recorded B A s) : Held B A s := by
  refine ⟨fun hk => ?_, fun _ i hi hv => .inl (h.mirror i hi hv)⟩
  obtain ⟨off, hw, hle, _⟩ := Log.scan_walk s.flash B.areaWords
  have hsome := (hi.kept hk).scan
  obtain ⟨o, ho⟩ := Option.isSome_iff_exists.1 hsome
  refine ⟨off, o, _, ho ▸ hw, ?_⟩
  rw [h.nextFree, ← h.scanned]
  exact hle

/-! ## The erase -/

theorem erased_kept {flash : Flash} {rtc : Backup} {log : List Mark} :
    ¬Kept (⟨flash, rtc, .erase ok⟩ :: log) := by
  intro h
  rcases h with h | ⟨h, _⟩
  · exact absurd h (by simp)
  · exact h ok rfl

/-- **An erase that is justified.** -/
theorem erase_triple
    (hP : ∀ s, P s → Empty B s.own ∧ Inactive s.own)
    (hj : ∀ s ok, Recorded B A s → P s → A.cleared →
      EraseJustified B ⟨s.flash, s.rtc, .erase ok⟩ s.log) :
    (recordGuard B A).Triple (Down P) erase
      (fun ok => Down fun s => Erased B ok s ∧ ∃ s₀, P s₀ ∧ s.rtc = s₀.rtc) := by
  refine .call down_stable fun w s _ hi h => ⟨?_, h.1, ⟨?_, ?_, erased_kept, ?_, ?_⟩, s, h.2, rfl⟩
  · refine ⟨fun ha hp => .inr (hi.marked ha hp), fun hq => .inr (hi.queued hq),
      fun hk => absurd hk erased_kept, fun ha => ⟨hj s _ hi h.2 ha, hi.erases ha⟩,
      fun hs => ⟨⟨?_, ?_, ?_⟩, hi.told hs⟩⟩
    · exact fun _ _ ho => absurd ho (by simp)
    · exact fun _ ho => absurd ho (by simp)
    · exact fun _ _ ho => absurd ho (by simp)
  · exact (hP s h.2).1
  · exact (hP s h.2).2
  · intro hok
    show (if w.eraseOk = true then _ else _) = _
    rw [if_pos hok]
  · intro hfail
    exact .inl (congrArg Obs.erase hfail)

/-! ## With a request pending -/

/-- The boot has found a request pending. -/
def Marked (B : Build) (s : Store) : Prop := Fresh B s ∧ s.rtc.isPending = true

theorem Marked.justified (hi : Recorded B A s) (h : Marked B s) (ha : A.cleared) :
    EraseJustified B ⟨s.flash, s.rtc, .erase ok⟩ s.log := by
  intro _ _ _
  refine ⟨h.1.boot.mono (fun _ h => h) fun b _ hb => ⟨hb.1, ?_, ?_⟩, hi.marked ha h.2⟩
  · rw [hb.2]; exact h.2
  · rw [hb.2]

/-- The request is cleared one register at a time; its id stays what it was. -/
theorem clearRtc_keeps {id : Word} {P : Store → Prop}
    (hP : ∀ rtc s, P s → P { s with rtc := rtc }) :
    (recordGuard B A).Triple (Down fun s => P s ∧
      (A.cleared → AcceptedEver s.rtc.lastRequestId s.log)) (onRtc (Reset.clear id))
      (fun _ => Down P) := by
  intro s₀ hi₀ h₀
  let K : Store → Prop := fun s => P s ∧ (A.cleared → AcceptedEver s₀.rtc.lastRequestId s.log)
  have hpart : ∀ {s s' : Store}, Rely s s' → rtcPart.get s' = rtcPart.get s := fun hr => hr.rtc
  have htriple : (recordGuard B A).Triple (fun s => Down K s ∧ rtcPart.get s = s₀.rtc)
      (onRtc (Reset.clear id)) (fun done s => Down K s ∧
        (done = true → (rtcPart.get s).isPending = false ∧ (rtcPart.get s).lastRequestId = id)) := by
    refine Guard.Triple.within (J := Reset.Clearing s₀.rtc) Reset.clear_triple hpart down_stable
      ?_ ?_ ?_
    · exact fun rtc s h => ⟨h.1, hP rtc s h.2.1, h.2.2⟩
    · intro rtc s hi h hclearing
      refine ⟨fun ha _ => ?_, hi.queued, hi.kept, hi.erases, hi.told⟩
      show AcceptedEver rtc.lastRequestId s.log
      rw [hclearing.1]
      exact h.2.2 ha
    · intro s _ _ h
      rw [h]
      exact ⟨rfl, fun _ => rfl⟩
  exact (htriple s₀ hi₀ ⟨⟨h₀.1, h₀.2⟩, rfl⟩).mono hi₀ fun _ _ _ h => ⟨h.1.1, h.1.2.1⟩

theorem Erased.rtc {rtc : Backup} (h : Erased B ok s) : Erased B ok { s with rtc := rtc } :=
  ⟨h.empty, h.inactive, h.gone, h.clean, h.failed⟩

theorem eraseAndClear_keeps : (recordGuard B A).Triple (Down (Marked B)) (eraseAndClear B)
    (fun done => Down fun s => ∃ ok, Erased B ok s ∧ (done = true → ok = true)) := by
  unfold eraseAndClear
  have hgive : ∀ {ok : Bool} {P : Store → Prop}, (recordGuard B A).Triple
      (Down fun s => Erased B ok s ∧ P s) (.ret false)
      (fun done => Down fun s => ∃ ok, Erased B ok s ∧ (done = true → ok = true)) :=
    .ret fun s _ h => ⟨h.1, _, h.2.1, fun h => absurd h (by simp)⟩
  refine .bind (Q := fun ok => Down fun s => Erased B ok s ∧
    (A.cleared → AcceptedEver s.rtc.lastRequestId s.log)) ?_ fun ok => .ite (fun hok => ?_)
    fun _ => hgive
  · refine (erase_triple (fun _ h => ⟨h.1.empty, h.1.inactive⟩)
      fun _ _ hi h ha => h.justified hi ha).conseq (fun _ _ h => h) fun ok s hi h => ?_
    obtain ⟨hup, herased, s₀, hmarked, hrtc⟩ := h
    refine ⟨hup, herased, fun ha => hi.marked ha ?_⟩
    rw [hrtc]
    exact hmarked.2
  refine .bind down_get fun clean => .ite (fun _ => ?_) fun _ => ?_
  · refine .bind (down_get.conseq (fun _ _ h => h) fun _ _ _ h => h) fun id => ?_
    refine (clearRtc_keeps (P := Erased B ok) fun _ _ h => Erased.rtc h).conseq
      (fun s _ h => ⟨h.1, h.2.1.1.1, h.2.1.1.2⟩) fun done s _ h => ⟨h.1, ok, h.2, fun _ => hok⟩
  · exact hgive.conseq (fun s _ h => ⟨h.1, h.2.1⟩) fun _ _ _ h => h

theorem Erased.appendable {o : Own} (h : s.flash = fun _ => Log.ERASED) (hina : Inactive o)
    (hnext : o.nextFree = 0) : Appendable B s.flash o := by
  unfold Appendable
  rw [show o.pendingActive = false from hina, hnext, h]
  exact ⟨⟨none, 0, .start⟩, fun _ _ _ => rfl⟩

theorem initReset_keeps : (recordGuard B A).Triple (Down (Marked B)) (initReset B)
    (fun _ => Down (Ready B A)) := by
  unfold initReset
  refine .bind (Q := fun _ => Down (Marked B)) ?_ fun _ => ?_
  · refine down_modify (fun _ => rfl) (fun _ h => ?_) fun s _ h =>
      ⟨⟨h.1.boot, h.1.unqueued, h.1.empty, h.1.inactive⟩, h.2⟩
    exact ⟨rfl, rfl, fun hq => absurd hq (by simp [h.1.unqueued]), fun h => h, [], rfl, by simp⟩
  refine .bind eraseAndClear_keeps fun done => .ite (fun hdone => ?_) fun _ => ?_
  · refine down_modify (fun _ => rfl) (fun _ _ => ?_) fun s _ h => ?_
    · exact ⟨rfl, rfl, fun h => ⟨h, rfl⟩, fun h => absurd h (by simp), [], rfl, by simp⟩
    · obtain ⟨ok, herased, hok⟩ := h
      have hheld := herased.held (A := A)
      refine ⟨⟨fun hk => absurd hk herased.gone, hheld.mirror⟩, .inr (.inr ?_)⟩
      exact Erased.appendable (herased.clean (hok hdone)) herased.inactive rfl
  · refine down_modify (fun _ => rfl) (fun _ _ => ?_) fun s _ h => ?_
    · exact ⟨rfl, rfl, fun h => ⟨h, rfl⟩, fun h => absurd h (by simp), [], rfl, by simp⟩
    · obtain ⟨ok, herased, _⟩ := h
      exact ⟨⟨herased.held (A := A).below, herased.held (A := A).mirror⟩, .inl (.inr rfl)⟩

/-! ## Without one -/

theorem initErase_keeps : (recordGuard B A).Triple
    (Down fun s => Fresh B s ∧ (Log.scan s.flash B.areaWords).lastValid = none) (initErase B)
    (fun _ => Down (Ready B A)) := by
  unfold initErase
  refine .bind (erase_triple (fun _ h => ⟨h.1.empty, h.1.inactive⟩) fun s ok hi h _ => ?_)
    fun ok => .ite (fun hok => ?_) fun _ => ?_
  · -- Nothing committed is in the area: the scanner would have found it.
    intro _ _ hcommitted
    rcases hcommitted with hsome | hkept
    · exact absurd h.2 (Option.isSome_iff_ne_none.1 hsome)
    · exact absurd h.2 (Option.isSome_iff_ne_none.1 (hi.kept hkept).scan)
  · refine down_modify (fun _ => rfl) (fun _ _ => ?_) fun s _ h => ?_
    · exact ⟨rfl, rfl, fun h => ⟨h, rfl⟩, fun h => h, [], rfl, by simp⟩
    · obtain ⟨herased, _⟩ := h
      have hclean := herased.clean hok
      refine ⟨⟨fun hk => absurd hk herased.gone, fun _ i _ _ => .inl ?_⟩, .inr (.inr ?_)⟩
      · show none = recorded B s.flash i
        rw [hclean, recorded_erased]
      · exact Erased.appendable hclean herased.inactive rfl
  · refine down_modify (fun _ => rfl) (fun _ _ => ?_) fun s _ h => ?_
    · exact ⟨rfl, rfl, fun h => ⟨h, rfl⟩, fun h => absurd h (by simp), [], rfl, by simp⟩
    · obtain ⟨herased, _⟩ := h
      exact ⟨⟨fun hk => absurd hk herased.gone, herased.held (A := A).mirror⟩,
        .inr (.inl (Nat.le_refl _))⟩

theorem loadScan_quiet : Quiet s (loadScan B sc s) := by
  obtain ⟨v, st, sv, src, h⟩ := loadScan_shape B sc s
  rw [h]
  exact ⟨rfl, rfl, fun h => ⟨h, rfl⟩, fun h => h, [], rfl, by simp⟩

/-- **The boot makes the mirror of the record the scan has found.** -/
theorem Fresh.loaded (h : Fresh B s) (hsc : Log.scan s.flash B.areaWords = sc) :
    Loaded B sc (loadScan B sc s) := by
  obtain ⟨v, st, sv, src, hshape⟩ := loadScan_shape B sc s
  refine ⟨?_, ?_, ?_, fun i hi hv => ?_, rfl, ?_⟩
  · rw [hshape]; exact h.boot
  · rw [hshape]; exact h.unqueued
  · rw [hshape]; exact hsc
  · have hflash : (loadScan B sc s).flash = s.flash := by rw [hshape]
    rw [hflash]
    unfold recorded Log.newestEntries loadScan
    rw [hsc]
    cases hlast : sc.lastValid with
    | none => exact h.empty i hi hv
    | some off => exact mirror_load hi hv (h.empty i hi hv)
  · rw [hshape]; exact h.inactive

theorem initLog_keeps : (recordGuard B A).Triple (Down (Fresh B)) (initLog B)
    (fun _ => Down (Ready B A)) := by
  unfold initLog
  refine .bind down_get fun sc => ?_
  refine .bind (Q := fun _ => Down (Loaded B sc)) ?_ fun _ => ?_
  · refine down_modify (fun s => ?_) (fun _ _ => loadScan_quiet) fun s _ h => h.1.loaded h.2
    obtain ⟨v, st, sv, src, h⟩ := loadScan_shape B sc s
    rw [h]
  cases happ : Log.appendPoint sc B.table.recordWords B.areaWords with
  | ready n =>
    refine .ret fun s hi h => ⟨h.1, h.2.held hi, .inr (.inr ?_)⟩
    obtain ⟨_, hready, _⟩ := Log.appendPoint_ready happ
    obtain ⟨off, hw, _, _, hend⟩ := Log.scan_walk s.flash B.areaWords
    rw [h.2.scanned] at hw hend
    obtain ⟨rfl, herased⟩ := hend hready
    unfold Appendable
    rw [show s.own.pendingActive = false from h.2.inactive, h.2.nextFree]
    exact ⟨⟨_, _, hw⟩, herased⟩
  | retained =>
    dsimp only
    refine down_modify (fun _ => rfl) (fun _ _ => ?_) fun s hi h => ?_
    · exact ⟨rfl, rfl, fun h => ⟨h, rfl⟩, fun h => absurd h (by simp), [], rfl, by simp⟩
    · exact ⟨⟨hi.kept, (h.held hi).mirror⟩, .inr (.inl (Nat.le_refl _))⟩
  | erase =>
    have hnone := Log.appendPoint_erase happ
    refine initErase_keeps.conseq (fun s _ h => ⟨h.1, h.2.fresh hnone, ?_⟩) fun _ _ _ h => h
    rw [h.2.scanned]
    exact hnone

/-! ## Every run -/

theorem boot_rest : (recordGuard B A).Triple (Down BootMark) (boot B)
    (fun _ => Rest B A) := by
  unfold boot
  refine .bind (Q := fun _ => Down (Ready B A)) ?_ fun _ => ?_
  · unfold init
    refine .bind (Q := fun _ => Down (Fresh B)) ?_ fun _ => ?_
    · refine down_modify (fun _ => rfl) (fun _ _ => ?_) fun s _ h => ⟨h, rfl, fun _ _ _ => rfl, rfl⟩
      exact ⟨rfl, rfl, fun h => absurd h (by simp [initTable]),
        fun h => absurd h (by simp [initTable]), [], rfl, by simp⟩
    refine .bind down_get fun pending => .ite (fun hp => ?_) fun _ => ?_
    · exact initReset_keeps.conseq (fun _ _ h => ⟨h.1, h.2.1, h.2.2.trans hp⟩) fun _ _ _ h => h
    · exact initLog_keeps.conseq (fun _ _ h => ⟨h.1, h.2.1⟩) fun _ _ _ h => h
  · refine .modify down_stable fun s hi h => ⟨?_, ?_⟩
    · exact hi.quiet ⟨rfl, rfl, fun h => ⟨h, rfl⟩, fun h => h, [], rfl, by simp⟩
    · exact ⟨⟨⟨h.2.held.below, h.2.held.mirror⟩, h.2.append⟩, .of_ne h.1.2⟩

theorem Recorded.cut (hi : Recorded B A s) : Recorded B A (cut s) := by
  refine ⟨fun ha hp => .inr (hi.marked ha hp), fun hq => absurd hq (by simp [Params.cut, Shared.zero]),
    fun hk => ?_, fun ha => ⟨fun _ ho => absurd ho (by simp), hi.erases ha⟩,
    fun hs => ⟨⟨?_, ?_, ?_⟩, hi.told hs⟩⟩
  · rcases hk with hk | ⟨_, hk⟩
    · exact absurd hk (by simp)
    · exact hi.kept hk
  · exact fun _ _ ho => absurd ho (by simp)
  · exact fun _ ho => absurd ho (by simp)
  · exact fun _ _ ho => absurd ho (by simp)

theorem keepsRecords (B : Build) (A : Premises) : (machine B).Keeps (recordGuard B A) (Rest B A) where
  stable := rest_stable
  irq _ _ hi := ⟨hi.irq, irq_rely⟩
  body
    | .service _ => service_rest
    | .takeDirtyGroups => idle_rest (idle_setShared (fun _ h => ⟨h, rfl⟩) (fun _ h => h) fun _ => rfl)
    | .markAllDirty => idle_rest (idle_setShared (fun _ h => ⟨h, rfl⟩) (fun _ h => h) fun _ => rfl)
  cut _ _ hi := hi.cut
  boot _ s hi := boot_rest (Params.cut s) hi.cut ⟨⟨rfl, by simp [Params.cut, Shared.zero]⟩, .inl ⟨rfl, rfl⟩⟩

/-- Every run from power-up on keeps the records. -/
theorem run_recorded {flash : Flash} {rtc : Backup} {es : List StoreEvent}
    (hrtc : A.cleared → rtc.isPending = false) (he : ∀ e ∈ es, Machine.Answered (recordGuard B A) e) :
    Recorded B A ((machine B).run (start B flash rtc) es).st := by
  have hblank : Recorded B A ⟨flash, rtc, .zero, .zero, false, []⟩ :=
    ⟨fun ha hp => absurd hp (by simp [hrtc ha]), fun hq => absurd hq (by simp [Shared.zero]),
      fun hk => hk.elim, fun _ => trivial, fun _ => trivial⟩
  exact ((keepsRecords B A).run ((keepsRecords B A).booted hblank) he).1

/-- A flash with one record, of `es`. -/
def oneRecord (es : List Log.Entry) : Flash :=
  fun w => ((Log.encode es 64).getD []).getD w Log.ERASED

/-- `n` statements in a row, whose erases succeed if `eraseOk` and change nothing if not. -/
def steps (n : Nat) (flash : Flash) (eraseOk : Bool) : List StoreEvent :=
  List.replicate n (.step ⟨true, 0#32, eraseOk, flash, true⟩)

/-- The defaults as an earlier commit has recorded them. -/
def defaultsRecorded : Flash := oneRecord (Table.yardforce.persisted (bootDefault .yardforce))

/-- **A committed parameter set is never destroyed without an armed reset.** In every run
    from any flash, with requests, program failures, failed erases and cuts anywhere: an
    area that holds a committed record is erased only by a boot that found a request
    pending in the registers, one that `fw_params_request_reset` had accepted. -/
theorem committed_needs_reset (B : Build) (flash : Flash) (rtc : Backup)
    (hrtc : rtc.isPending = false) (es : List StoreEvent) :
    Always (EraseJustified B) ((machine B).run (start B flash rtc) es).st.log := by
  have hi : Recorded B ⟨True, False⟩ ((machine B).run (start B flash rtc) es).st :=
    run_recorded (fun _ => hrtc) fun e _ => by
      cases e with
      | step w => exact fun hs => hs.elim
      | irq i => trivial
      | start r => trivial
      | cut k => trivial
  exact hi.erases trivial

def Obs.erased : Obs → Option Bool
  | .erase ok => some ok
  | _ => none

/-- Request 7 is accepted and armed, and the next boot erases the record. -/
@[irreducible]
def resetEvents : List StoreEvent :=
  let flash : Flash := fun _ => Log.ERASED
  steps 16 flash true ++ [.irq (.requestReset 7#32), .start (.service 5#32)] ++
    steps 30 flash true ++ [.cut ()] ++ steps 30 flash true

theorem committed_needs_reset_seven :
    Always (EraseJustified .yardforce)
        ((machine .yardforce).run (start .yardforce defaultsRecorded .blank) resetEvents).st.log ∧
      ((machine .yardforce).run (start .yardforce defaultsRecorded .blank)
        resetEvents).st.log.filterMap (fun m => m.obs.erased) = [true] :=
  ⟨committed_needs_reset .yardforce defaultsRecorded .blank rfl resetEvents, by decide +kernel⟩

end

/-!
## What PERSISTED and UNCHANGED say

`fw_params_send_value` compares the applied value with the RAM mirror, and the mirror is
the newest record: what `Told` says is true of every report of every run
(`flag_never_lies`).

The flag is not the bare sentence *the newest record contains this value*, and neither is
UNCHANGED the sentence *it contains all of them*. Three runs without a single failed word
show where the source means something else (`flag_not_exact`):

* a volatile parameter is never PERSISTED, even if an older firmware has recorded it;
* a boot whose erase fails has loaded nothing, and claims nothing of what is left;
* UNCHANGED is the outcome of the last commit, and goes on being reported after a set.
-/

open Binary32 (Bits)
open Reset (Backup)
open Trace

variable {B : Build}

/-- In a record without an id twice, `recorded` is the entry with that id. -/
theorem recorded_iff_mem {flash : Flash} {i : Nat} {value : Bits}
    (h : ((Log.newestEntries flash B.areaWords).map Prod.fst).Nodup) :
    recorded B flash i = some value ↔
      ((B.table.spec i).id, value) ∈ Log.newestEntries flash B.areaWords :=
  ⟨Log.recordValue_mem, fun hmem => Log.recordValue_of_mem hmem h⟩

/-- **The PERSISTED flag never lies.** In every run from any flash and any registers, in
    which a word the flash fails to program is not the requested one, every value report,
    every commit that found nothing to write and every status report is true. -/
theorem flag_never_lies (B : Build) (flash : Flash) (rtc : Backup) (es : List StoreEvent)
    (hfail : ∀ w, Event.step w ∈ es → w.programOk = false → w.damage ≠ 0#32) :
    Always (Told B) ((machine B).run (start B flash rtc) es).st.log := by
  have hi : Recorded B ⟨False, True⟩ ((machine B).run (start B flash rtc) es).st :=
    run_recorded (fun h => h.elim) fun e he => by
      cases e with
      | step w => exact fun _ => hfail w he
      | irq i => trivial
      | start r => trivial
      | cut k => trivial
  exact hi.told trivial

def Obs.commitReported : Obs → Option Commit
  | .status packet _ => some packet.lastCommit
  | _ => none

/-- A commit of the recorded defaults, and one after a set, whose first word fails. -/
@[irreducible]
def failingEvents : List StoreEvent :=
  let flash : Flash := fun _ => Log.ERASED
  steps 16 flash true ++ [.irq .requestCommit, .start (.service 5#32)] ++ steps 24 flash true ++
    [.irq (.set TICKS_PER_METER 0x42480000#32), .irq .requestCommit, .start (.service 10#32)] ++
    steps 30 flash true ++ [.start (.service 15#32)] ++ steps 4 flash true ++
    [.step ⟨false, 1#32, true, flash, true⟩] ++ steps 25 flash true ++
    [.start (.service 20#32)] ++ steps 16 flash true

theorem flag_never_lies_failing :
    Always (Told .yardforce)
        ((machine .yardforce).run (start .yardforce defaultsRecorded .blank) failingEvents).st.log ∧
      ((machine .yardforce).run (start .yardforce defaultsRecorded .blank)
        failingEvents).st.log.filterMap (fun m => m.obs.commitReported) = [.error, .unchanged] := by
  refine ⟨flag_never_lies .yardforce defaultsRecorded .blank failingEvents fun w hw hfail => ?_,
    by decide +kernel⟩
  have hone : w.programOk = true ∨ w.damage = 1#32 := by
    simp only [failingEvents, steps, List.mem_append, List.mem_cons, List.mem_replicate,
      Event.step.injEq, reduceCtorEq, List.not_mem_nil] at hw
    aesop
  rw [hone.resolve_left (by simp [hfail])]
  decide

/-! ## Where the exact sentences fail -/

def Obs.report : Obs → Option (Nat × ValuePacket)
  | .value i packet => some (i, packet)
  | _ => none

/-- The exact flag: set if and only if the newest record contains the reported value. -/
def FlagExact (B : Build) (m : Mark) : Prop :=
  ∀ r ∈ m.obs.report, r.2.persisted = true ↔
    ((B.table.spec r.1).id, r.2.value) ∈ Log.newestEntries m.flash B.areaWords

/-- The exact UNCHANGED: when it is reported, the newest record contains every applied
    value that is not volatile. -/
def UnchangedExact (B : Build) (s : Store) : Prop :=
  (s.log.head?.bind fun m => m.obs.commitReported) = some .unchanged →
    ∀ i, i < B.table.count → B.table.isVolatile i = false →
      ((B.table.spec i).id, s.shared.values i) ∈ Log.newestEntries s.flash B.areaWords

instance {m : Mark} : Decidable (FlagExact B m) :=
  inferInstanceAs (Decidable (∀ r ∈ m.obs.report, _))

instance {s : Store} : Decidable (UnchangedExact B s) :=
  inferInstanceAs (Decidable (_ → ∀ i, i < B.table.count → _))

/-- A boot, a request for one report, and the pass of the service routine that sends it. -/
def reportRun (flash : Flash) (rtc : Backup) (id : BitVec 16) : Store :=
  ((machine .yardforce).run (start .yardforce flash rtc)
    (steps 16 flash false ++ [.irq (.requestReport id), .start (.service 5#32)] ++
      steps 16 flash false)).st

/-- Registers with request 7 pending. -/
def pendingSeven : Backup :=
  { marker := Reset.MARKER_MAGIC, complement := Reset.MARKER_COMPLEMENT, idLow := 7#32
    idHigh := 0#32, writes := [] }

/-- The defaults are recorded and a commit finds nothing to write; a set comes in before
    the commit is reported. -/
def unchangedRun : Store :=
  let flash := oneRecord (Table.yardforce.persisted (bootDefault .yardforce))
  ((machine .yardforce).run (start .yardforce flash .blank)
    (steps 16 flash true ++ [.irq .requestCommit, .start (.service 5#32)] ++ steps 10 flash true ++
      [.irq (.set TICKS_PER_METER 0x42480000#32)] ++ steps 16 flash true ++
      [.start (.service 10#32)] ++ steps 16 flash true)).st

/-- **Neither exact sentence is what the source means.** No word fails to program in any
    of these runs. -/
theorem flag_not_exact :
    (¬∀ m ∈ (reportRun (oneRecord [(YAW_GYRO_BIAS_RADPS, 0#32)]) .blank
        YAW_GYRO_BIAS_RADPS).log, FlagExact .yardforce m) ∧
      (¬∀ m ∈ (reportRun (oneRecord [(TICKS_PER_METER, 0x43A98000#32)]) pendingSeven
        TICKS_PER_METER).log, FlagExact .yardforce m) ∧
      ¬UnchangedExact .yardforce unchangedRun :=
  ⟨by decide +kernel, by decide +kernel, by decide +kernel⟩

end Params
end Mowgli
