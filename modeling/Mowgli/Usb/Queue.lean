import Mowgli.Usb.Cdc

/-!
# Queue — what is handed to USB is what was enqueued

The effects of a run are read against a `Ledger`: the bytes accepted and the bytes handed
over since the queue was last thrown away, the range USB is reading, and for how long. `Lawful` is
what the next effect owes to it. **Nothing is handed over out of turn**, no write falls into the
range that is being read, and nothing is thrown away before that range has been busy for half a
second.

`Queued` ties the ledger to the port: what has been accepted is what has completed, and the
window of the ring between the two counters.
-/

namespace Mowgli
namespace Usb

structure Ledger where
  accepted : List Byte
  handed : List Byte
  /-- The first cell and the number of cells that USB is reading. -/
  inFlight : Option (Nat × Nat)
  /-- The milliseconds since bytes were last handed over. -/
  waited : Nat

namespace Ledger

def empty : Ledger := { accepted := [], handed := [], inFlight := none, waited := 0 }

def add (l : Ledger) : Effect → Ledger
  | .accepted bytes => { l with accepted := l.accepted ++ bytes }
  | .handed index bytes =>
    { l with handed := l.handed ++ bytes, inFlight := some (index, bytes.length), waited := 0 }
  | .completed => { l with inFlight := none }
  | .discarded => empty
  | .elapsed milliseconds => { l with waited := l.waited + milliseconds.toNat }
  | .refused _ => l
  | .wrote _ _ => l

def addAll (l : Ledger) (effects : List Effect) : Ledger := effects.foldl add l

@[simp] theorem addAll_nil (l : Ledger) : l.addAll [] = l := rfl

@[simp] theorem addAll_cons (l : Ledger) (e : Effect) (effects : List Effect) :
    l.addAll (e :: effects) = (l.add e).addAll effects := rfl

@[simp] theorem addAll_append (l : Ledger) (e₁ e₂ : List Effect) :
    l.addAll (e₁ ++ e₂) = (l.addAll e₁).addAll e₂ := List.foldl_append

end Ledger

/-- What is handed over continues what was, as a part of what was accepted, and it is no
    empty chunk, none that wraps around and none of whole packets; a write stays within the
    buffer, and clear of the range in flight. Only a board other than variant B throws its queue
    away, and only when a transfer has been in flight for more than 500 ms. -/
def Lawful (variantB : Bool) (l : Ledger) : Effect → Prop
  | .handed index bytes => l.inFlight = none ∧ (l.handed ++ bytes) <+: l.accepted ∧ bytes ≠ [] ∧
      index + bytes.length ≤ APP_TX_DATA_SIZE ∧ bytes.length % CDC_DATA_MAX_PACKET_SIZE ≠ 0
  | .wrote index bytes => index + bytes.length ≤ APP_TX_DATA_SIZE ∧
      ∀ i n, l.inFlight = some (i, n) → index + bytes.length ≤ i ∨ i + n ≤ index
  | .discarded => variantB = false ∧ l.inFlight ≠ none ∧
      CDC_TX_BUSY_TIMEOUT_MS.toNat < l.waited
  | _ => True

/-- Every effect is lawful when it happens. -/
def AllLawful (variantB : Bool) (l : Ledger) : List Effect → Prop
  | [] => True
  | e :: effects => Lawful variantB l e ∧ AllLawful variantB (l.add e) effects

variable {variantB : Bool} {l : Ledger}

theorem AllLawful.append {e₁ e₂ : List Effect} (h₁ : AllLawful variantB l e₁)
    (h₂ : AllLawful variantB (l.addAll e₁) e₂) : AllLawful variantB l (e₁ ++ e₂) := by
  induction e₁ generalizing l with
  | nil => exact h₂
  | cons e e₁ ih => exact ⟨h₁.1, ih h₁.2 h₂⟩

/-! ## The invariant -/

/-- Up to `t` the bytes have completed, from there on they are `queue`. -/
structure QueuedAt (variantB : Bool) (s : Cdc) (l : Ledger) (t : Nat) (done queue : List Byte) : Prop where
  tail : s.txTail = BitVec.ofNat 32 t
  head : s.txHead = BitVec.ofNat 32 (t + queue.length)
  fits : queue.length ≤ APP_TX_DATA_SIZE
  cells : Ring.window APP_TX_DATA_SIZE s.buffer t queue.length = queue
  accepted : l.accepted = done ++ queue
  handed : l.handed = done ++ (if s.txPacketArmed then queue.take s.txLength else [])
  inFlight : l.inFlight = none ∨
    s.txPacketArmed = true ∧ l.inFlight = some (t % APP_TX_DATA_SIZE, s.txLength)
  armed : s.txPacketArmed = true →
    s.txLength ≤ queue.length ∧ t % APP_TX_DATA_SIZE + s.txLength ≤ APP_TX_DATA_SIZE
  busy : s.txPacketArmed = true → s.recoveryState = .running → s.txState = true
  waits : s.txState = true → l.inFlight ≠ none ∧
    s.tick = s.lastTransmitSubmit + BitVec.ofNat 32 l.waited
  held : s.recoveryState ≠ .running → variantB = true ∧ s.txRecoveryHold = true

def Queued (variantB : Bool) (s : Cdc) (l : Ledger) : Prop :=
  ∃ t done queue, QueuedAt variantB s l t done queue

/-- A step that keeps the queue, by lawful effects. -/
def Steps (variantB : Bool) (l : Ledger) (r : Cdc × List Effect) : Prop :=
  Queued variantB r.1 (l.addAll r.2) ∧ AllLawful variantB l r.2

theorem Steps.still {s : Cdc} (h : Queued variantB s l) : Steps variantB l (s, []) := ⟨h, trivial⟩

theorem Steps.then {r r' : Cdc × List Effect} (h : Steps variantB l r)
    (h' : Steps variantB (l.addAll r.2) r') : Steps variantB l (r'.1, r.2 ++ r'.2) :=
  ⟨by simpa using h'.1, h.2.append h'.2⟩

namespace QueuedAt

variable {variantB : Bool} {s s' : Cdc} {l : Ledger} {t : Nat} {done queue : List Byte}

/-! ### The counters -/

theorem size_pos : 0 < APP_TX_DATA_SIZE := by decide

theorem mod_size (n : Nat) :
    (BitVec.ofNat 32 n).toNat % APP_TX_DATA_SIZE = n % APP_TX_DATA_SIZE := by
  rw [BitVec.toNat_ofNat]
  exact Nat.mod_mod_of_dvd n (by decide)

theorem readAvailable (h : QueuedAt variantB s l t done queue) :
    s.readAvailable.toNat = queue.length := by
  have hfits : queue.length ≤ 8192 := h.fits
  unfold Cdc.readAvailable
  rw [h.head, h.tail]
  bv_omega

theorem writeAvailable (h : QueuedAt variantB s l t done queue) :
    s.writeAvailable.toNat = APP_TX_DATA_SIZE - queue.length := by
  have hfits : queue.length ≤ 8192 := h.fits
  have hread := h.readAvailable
  unfold Cdc.writeAvailable
  show (8192#32 - s.readAvailable).toNat = 8192 - queue.length
  bv_omega

/-- Statics that the queue does not look at are set. -/
theorem set (h : QueuedAt variantB s l t done queue) (hbuffer : s'.buffer = s.buffer)
    (hhead : s'.txHead = s.txHead) (htail : s'.txTail = s.txTail)
    (harmed : s'.txPacketArmed = s.txPacketArmed) (hlength : s'.txLength = s.txLength)
    (hstate : s'.txState = s.txState) (htick : s'.tick = s.tick)
    (hsubmit : s'.lastTransmitSubmit = s.lastTransmitSubmit)
    (hhold : s.recoveryState ≠ .running → s'.txRecoveryHold = s.txRecoveryHold)
    (hrecovery : s'.recoveryState = s.recoveryState) : QueuedAt variantB s' l t done queue where
  tail := htail.trans h.tail
  head := hhead.trans h.head
  fits := h.fits
  cells := by rw [hbuffer]; exact h.cells
  accepted := h.accepted
  handed := by rw [harmed, hlength]; exact h.handed
  inFlight := by rw [harmed, hlength]; exact h.inFlight
  armed := by rw [harmed, hlength]; exact h.armed
  busy := by rw [harmed, hrecovery, hstate]; exact h.busy
  waits := by rw [hstate, htick, hsubmit]; exact h.waits
  held := by
    rw [hrecovery]
    exact fun hne => ⟨(h.held hne).1, (hhold hne).trans (h.held hne).2⟩

/-! ### The producers -/

theorem firstPart_append_secondPart (p : Nat) (bytes : List Byte) :
    Ring.firstPart APP_TX_DATA_SIZE p bytes ++ Ring.secondPart APP_TX_DATA_SIZE p bytes = bytes :=
  List.take_append_drop _ _

theorem insert (h : QueuedAt variantB s l t done queue) {bytes : List Byte}
    (hroom : queue.length + bytes.length ≤ APP_TX_DATA_SIZE) : Steps variantB l (s.insert bytes) := by
  have hmod : s.txHead.toNat % APP_TX_DATA_SIZE = (t + queue.length) % APP_TX_DATA_SIZE := by
    rw [h.head, mod_size]
  constructor
  · refine ⟨t, done, queue ++ bytes, ?_⟩
    have hbuffer : Ring.put APP_TX_DATA_SIZE s.buffer s.txHead.toNat bytes =
        Ring.put APP_TX_DATA_SIZE s.buffer (t + queue.length) bytes := Ring.put_congr _ hmod _
    have hlength : (Ring.firstPart APP_TX_DATA_SIZE s.txHead.toNat bytes).length +
        (Ring.secondPart APP_TX_DATA_SIZE s.txHead.toNat bytes).length = bytes.length := by
      rw [← List.length_append, firstPart_append_secondPart]
    have hcounter : ∀ a b : Nat, a + b = bytes.length →
        s.txHead + BitVec.ofNat 32 a + BitVec.ofNat 32 b =
          BitVec.ofNat 32 (t + (queue.length + bytes.length)) := by
      intro a b hab
      rw [h.head, ← hab, BitVec.add_assoc, ← BitVec.ofNat_add, ← BitVec.ofNat_add, Nat.add_assoc]
    exact {
      tail := h.tail
      head := by
        rw [List.length_append]
        exact hcounter _ _ hlength
      fits := by rw [List.length_append]; exact hroom
      cells := by
        show Ring.window _ (Ring.put _ _ _ _) _ _ = _
        rw [hbuffer, List.length_append, Ring.window_put_append size_pos _ hroom, h.cells]
      accepted := by
        show l.accepted ++ bytes = _
        rw [h.accepted, List.append_assoc]
      handed := by
        show l.handed = done ++ if s.txPacketArmed = true then (queue ++ bytes).take s.txLength else []
        rw [h.handed]
        by_cases ha : s.txPacketArmed = true
        · rw [if_pos ha, if_pos ha, List.take_append_of_le_length (h.armed ha).1]
        · rw [if_neg ha, if_neg ha]
      inFlight := h.inFlight
      armed := fun ha => by
        have := h.armed ha
        refine ⟨?_, this.2⟩
        rw [List.length_append]
        exact Nat.le_add_right_of_le this.1
      busy := h.busy
      waits := h.waits
      held := h.held }
  · -- The writes stay behind the queue, and the range in flight is in it.
    have hclear : ∀ i n, l.inFlight = some (i, n) → i = t % APP_TX_DATA_SIZE ∧
        n ≤ queue.length ∧ i + n ≤ APP_TX_DATA_SIZE := by
      intro i n hi
      rcases h.inFlight with hnone | ⟨ha, hsome⟩
      · rw [hnone] at hi
        exact absurd hi (by simp)
      · rw [hsome] at hi
        simp only [Option.some.injEq, Prod.mk.injEq] at hi
        obtain ⟨rfl, rfl⟩ := hi
        exact ⟨rfl, h.armed ha⟩
    have hfirst : Ring.firstPart APP_TX_DATA_SIZE s.txHead.toNat bytes =
        Ring.firstPart APP_TX_DATA_SIZE (t + queue.length) bytes := by
      unfold Ring.firstPart
      rw [hmod]
    have hsecond : Ring.secondPart APP_TX_DATA_SIZE s.txHead.toNat bytes =
        Ring.secondPart APP_TX_DATA_SIZE (t + queue.length) bytes := by
      unfold Ring.secondPart
      rw [hmod]
    have hinside := Ring.copies_inside size_pos (t + queue.length) bytes (by omega)
    refine ⟨⟨?_, fun i n hi => ?_⟩, ⟨?_, fun i n hi => ?_⟩, trivial, trivial⟩
    · rw [hmod, hfirst]
      exact hinside.1
    · obtain ⟨rfl, hn, hrow⟩ := hclear i n hi
      rw [hmod, hfirst]
      exact (Ring.copies_clear size_pos hroom hn hrow).1
    · rw [hsecond, Nat.zero_add]
      exact hinside.2
    · obtain ⟨rfl, hn, hrow⟩ := hclear i n hi
      rw [hsecond, Nat.zero_add]
      exact .inl (Ring.copies_clear size_pos hroom hn hrow).2

theorem enqueue (h : QueuedAt variantB s l t done queue) {bytes : List Byte}
    (hbytes : bytes.length < 2 ^ 32) : Steps variantB l (s.enqueue bytes).2 := by
  unfold Cdc.enqueue
  have hwrite := h.writeAvailable
  by_cases hfull : s.writeAvailable < BitVec.ofNat 32 bytes.length
  · rw [if_pos hfull]
    exact ⟨⟨t, done, queue, h⟩, trivial, trivial⟩
  · rw [if_neg hfull]
    refine h.insert ?_
    have hfits := h.fits
    have hle : (BitVec.ofNat 32 bytes.length).toNat ≤ s.writeAvailable.toNat := by
      have := BitVec.lt_def.not.1 hfull
      omega
    rw [BitVec.toNat_ofNat, Nat.mod_eq_of_lt hbytes, hwrite] at hle
    omega

/-! ### The transfers -/

/-- A transfer is a part of the queue that does not wrap around, and not of whole packets. -/
theorem dequeueLength (h : QueuedAt variantB s l t done queue) (hpos : s.dequeueLength ≠ 0) :
    s.dequeueLength ≤ queue.length ∧
      t % APP_TX_DATA_SIZE + s.dequeueLength ≤ APP_TX_DATA_SIZE ∧ s.dequeueLength ≤ 4096 ∧
      s.dequeueLength % CDC_DATA_MAX_PACKET_SIZE ≠ 0 := by
  have hread := h.readAvailable
  have htail : s.txTail.toNat % APP_TX_DATA_SIZE = t % APP_TX_DATA_SIZE := by
    rw [h.tail, mod_size]
  have hlt : t % APP_TX_DATA_SIZE < APP_TX_DATA_SIZE := Nat.mod_lt _ size_pos
  have hpacket : CDC_DATA_MAX_PACKET_SIZE = 64 := rfl
  unfold Cdc.dequeueLength at hpos ⊢
  dsimp only at hpos ⊢
  rw [hread, htail] at hpos ⊢
  generalize t % APP_TX_DATA_SIZE = cell at *
  generalize APP_TX_DATA_SIZE = size at *
  rw [hpacket] at hpos ⊢
  split at hpos
  · exact absurd rfl hpos
  · rename_i hqueue
    rw [if_neg hqueue] at *
    split
    · omega
    · omega

theorem submit (h : QueuedAt variantB s l t done queue) (hstate : s.txState = false)
    (hhold : s.txRecoveryHold = false) (transmitOk : Bool) : Steps variantB l (s.submit transmitOk) := by
  have hrunning : s.recoveryState = .running := by
    by_contra hne
    rw [(h.held hne).2] at hhold
    cases hhold
  have hidle : s.txPacketArmed = false := by
    cases ha : s.txPacketArmed with
    | false => rfl
    | true => exact absurd (h.busy ha hrunning) (by rw [hstate]; decide)
  have hflight : l.inFlight = none := by
    rcases h.inFlight with hnone | ⟨ha, _⟩
    · exact hnone
    · exact absurd ha (by rw [hidle]; decide)
  have hhanded : l.handed = done := by
    rw [h.handed, hidle]
    simp
  unfold Cdc.submit
  dsimp only
  by_cases hzero : s.dequeueLength = 0
  · rw [if_pos hzero]
    exact .still ⟨t, done, queue, h⟩
  · rw [if_neg hzero]
    obtain ⟨hqueue, hrow, hmax, hpackets⟩ := h.dequeueLength hzero
    have hmod : s.dequeueLength % 2 ^ 16 = s.dequeueLength := Nat.mod_eq_of_lt (by omega)
    cases transmitOk with
    | false =>
      rw [if_neg Bool.false_ne_true]
      refine .still ⟨t, done, queue, ?_⟩
      exact { h with
        handed := by rw [hhanded]; simp
        inFlight := .inl hflight
        armed := fun ha => absurd (show false = true from ha) (by decide)
        busy := fun ha => absurd (show false = true from ha) (by decide)
        waits := fun hs => absurd (hstate.symm.trans hs) (by decide) }
    | true =>
      rw [if_pos rfl]
      have htail : s.txTail.toNat % APP_TX_DATA_SIZE = t % APP_TX_DATA_SIZE := by
        rw [h.tail, mod_size]
      have hbytes : Ring.slice s.buffer (s.txTail.toNat % APP_TX_DATA_SIZE) s.dequeueLength =
          queue.take s.dequeueLength := by
        rw [htail, Ring.slice_eq_window _ hrow, ← Ring.window_take _ _ hqueue, h.cells]
      have hlength : (queue.take s.dequeueLength).length = s.dequeueLength := by
        rw [List.length_take]
        exact Nat.min_eq_left hqueue
      rw [hbytes, hmod]
      constructor
      · refine ⟨t, done, queue, ?_⟩
        exact { h with
          handed := by
            show l.handed ++ queue.take s.dequeueLength = done ++ queue.take s.dequeueLength
            rw [hhanded]
          inFlight := .inr ⟨rfl, by
            show some (s.txTail.toNat % APP_TX_DATA_SIZE, (queue.take s.dequeueLength).length) = _
            rw [hlength, htail]⟩
          armed := fun _ => ⟨hqueue, hrow⟩
          busy := fun _ _ => rfl
          waits := fun _ => ⟨Option.some_ne_none _, (BitVec.add_zero _).symm⟩ }
      · refine ⟨⟨hflight, ?_, ?_, ?_, ?_⟩, trivial⟩
        · rw [hhanded, h.accepted]
          exact (List.prefix_append_right_inj done).2 (List.take_prefix _ _)
        · intro hnil
          rw [hnil] at hlength
          exact hzero hlength.symm
        · rw [hlength, htail]
          exact hrow
        · rw [hlength]
          exact hpackets

/-- What is given up has been in flight for more than 500 ms. -/
theorem overdue (h : QueuedAt variantB s l t done queue) (hstate : s.txState = true)
    (hstuck : s.busyStuck = true) :
    l.inFlight ≠ none ∧ CDC_TX_BUSY_TIMEOUT_MS.toNat < l.waited := by
  obtain ⟨hflight, htick⟩ := h.waits hstate
  refine ⟨hflight, ?_⟩
  have hlate : CDC_TX_BUSY_TIMEOUT_MS < s.tick - s.lastTransmitSubmit := by
    unfold Cdc.busyStuck at hstuck
    rw [Bool.and_eq_true, decide_eq_true_eq] at hstuck
    exact hstuck.2
  have hpassed : s.tick - s.lastTransmitSubmit = BitVec.ofNat 32 l.waited := by
    rw [htick, BitVec.add_comm, BitVec.add_sub_cancel]
  rw [hpassed, BitVec.lt_def, BitVec.toNat_ofNat] at hlate
  exact Nat.lt_of_lt_of_le hlate (Nat.mod_le _ _)

theorem giveUp (h : QueuedAt variantB s l t done queue) (hstate : s.txState = true)
    (hstuck : s.busyStuck = true) : Steps variantB l (s.giveUp variantB) := by
  unfold Cdc.giveUp
  dsimp only
  cases variantB with
  | true =>
    rw [if_pos rfl]
    refine .still ⟨t, done, queue, ?_⟩
    exact { h with
      busy := fun _ _ => hstate
      held := fun _ => ⟨rfl, rfl⟩ }
  | false =>
    rw [if_neg Bool.false_ne_true]
    refine ⟨⟨t + queue.length, [], [], ?_⟩, ⟨rfl, h.overdue hstate hstuck⟩, trivial⟩
    exact {
      tail := h.head
      head := h.head
      fits := Nat.zero_le _
      cells := rfl
      accepted := rfl
      handed := rfl
      inFlight := .inl rfl
      armed := fun ha => absurd (show false = true from ha) (by decide)
      busy := fun ha => absurd (show false = true from ha) (by decide)
      waits := fun hs => absurd (show false = true from hs) (by decide)
      held := fun hr => ⟨(h.held hr).1, rfl⟩ }

theorem resumeTransmit (h : QueuedAt variantB s l t done queue) (transmitOk : Bool) :
    Steps variantB l (s.resumeTransmit variantB transmitOk) := by
  have hstill : Steps variantB l (s, []) := .still ⟨t, done, queue, h⟩
  unfold Cdc.resumeTransmit
  cases hhold : s.txRecoveryHold with
  | true => exact hstill
  | false =>
    rw [if_neg Bool.false_ne_true]
    cases hstate : s.txState with
    | true =>
      rw [if_pos rfl]
      split
      · rename_i hstuck
        exact h.giveUp hstate hstuck
      · exact hstill
    | false =>
      rw [if_neg Bool.false_ne_true]
      split
      · exact hstill
      · exact h.submit hstate hhold transmitOk

/-- The transfer that was armed is taken from the queue. -/
theorem completed (h : QueuedAt variantB s l t done queue) (hbuffer : s'.buffer = s.buffer)
    (hhead : s'.txHead = s.txHead)
    (htail : s'.txTail =
      if s.txPacketArmed then s.txTail + BitVec.ofNat 32 s.txLength else s.txTail)
    (harmed : s'.txPacketArmed = false) (hstate : s'.txState = false)
    (hrecovery : s'.recoveryState = .running) : Queued variantB s' (l.add .completed) := by
  have hnot : s'.txPacketArmed ≠ true := by rw [harmed]; decide
  have hidle : s'.txState ≠ true := by rw [hstate]; decide
  have hrunning : s'.recoveryState ≠ .running → variantB = true ∧ s'.txRecoveryHold = true :=
    fun hne => absurd hrecovery hne
  have hhanded := h.handed
  cases ha : s.txPacketArmed with
  | false =>
    rw [ha, if_neg Bool.false_ne_true] at htail hhanded
    exact ⟨t, done, queue, {
      tail := htail.trans h.tail
      head := hhead.trans h.head
      fits := h.fits
      cells := by rw [hbuffer]; exact h.cells
      accepted := h.accepted
      handed := by rw [harmed]; exact hhanded
      inFlight := .inl rfl
      armed := fun ht => absurd ht hnot
      busy := fun ht => absurd ht hnot
      waits := fun hs => absurd hs hidle
      held := hrunning }⟩
  | true =>
    rw [ha, if_pos rfl] at htail hhanded
    obtain ⟨hqueue, _⟩ := h.armed ha
    have hdrop : (queue.drop s.txLength).length = queue.length - s.txLength := List.length_drop
    exact ⟨t + s.txLength, done ++ queue.take s.txLength, queue.drop s.txLength, {
      tail := by rw [htail, h.tail, ← BitVec.ofNat_add]
      head := by
        rw [hhead, h.head, hdrop]
        congr 1
        omega
      fits := by
        have := h.fits
        omega
      cells := by rw [hbuffer, hdrop, ← Ring.window_drop _ _ hqueue, h.cells]
      accepted := by
        show l.accepted = _
        rw [h.accepted, List.append_assoc, List.take_append_drop]
      handed := by
        show l.handed = _
        rw [hhanded, harmed]
        simp
      inFlight := .inl rfl
      armed := fun ht => absurd ht hnot
      busy := fun ht => absurd ht hnot
      waits := fun hs => absurd hs hidle
      held := hrunning }⟩

theorem transmitCplt (h : QueuedAt variantB s l t done queue) (transmitOk : Bool) :
    Steps variantB (l.add .completed) (Cdc.transmitCplt variantB transmitOk
      { s with txState := false, onWire := false }) := by
  unfold Cdc.transmitCplt Cdc.clearRecoveryHold
  dsimp only
  by_cases hstopped : (variantB && s.recoveryState != .running) = true
  · rw [if_pos hstopped]
    have hne : s.recoveryState ≠ .running := by
      intro hr
      rw [hr] at hstopped
      simp at hstopped
    refine .still ⟨t, done, queue, ?_⟩
    exact { h with
      inFlight := .inl rfl
      busy := fun _ hr => absurd hr hne
      waits := fun hs => absurd (show false = true from hs) (by decide) }
  · have hr : s.recoveryState = .running := by
      by_contra hr
      exact hstopped (by rw [(h.held hr).1]; simpa using hr)
    rw [if_neg hstopped, if_neg hstopped]
    obtain ⟨_, _, _, hq⟩ : Queued variantB { s with
        lastTransmitComplete := s.tick
        txTail := if s.txPacketArmed then s.txTail + BitVec.ofNat 32 s.txLength else s.txTail
        txPacketArmed := false, txPacketFailPendingRecovery := false, lastTransmitSubmit := 0#32
        txRecoveryHold := false, txState := false, onWire := false } (l.add .completed) :=
      h.completed rfl rfl rfl rfl rfl hr
    exact hq.resumeTransmit transmitOk

end QueuedAt

/-! ## Runs -/

namespace Queued

variable {variantB : Bool} {s : Cdc} {l : Ledger}

theorem transmit (h : Queued variantB s l) (transmitOk : Bool) {bytes : List Byte}
    (hbytes : bytes.length < 2 ^ 32) :
    Steps variantB l (Cdc.transmit variantB transmitOk bytes s).2 := by
  obtain ⟨t, done, queue, hq⟩ := h
  have hstart : QueuedAt variantB { s with lastTransmitStart := s.tick } l t done queue :=
    hq.set rfl rfl rfl rfl rfl rfl rfl rfl (fun _ => rfl) rfl
  have henqueue := hstart.enqueue hbytes
  have hcounted : Queued variantB
      (if (Cdc.enqueue bytes { s with lastTransmitStart := s.tick }).1 then
        (Cdc.enqueue bytes { s with lastTransmitStart := s.tick }).2.1
      else { (Cdc.enqueue bytes { s with lastTransmitStart := s.tick }).2.1 with
        txDropCounterHead :=
          (Cdc.enqueue bytes { s with lastTransmitStart := s.tick }).2.1.txDropCounterHead + 1#32
        txQueueFullCount :=
          (Cdc.enqueue bytes { s with lastTransmitStart := s.tick }).2.1.txQueueFullCount + 1#32 })
      (l.addAll (Cdc.enqueue bytes { s with lastTransmitStart := s.tick }).2.2) := by
    split
    · exact henqueue.1
    · obtain ⟨t', done', queue', hq'⟩ := henqueue.1
      exact ⟨t', done', queue', hq'.set rfl rfl rfl rfl rfl rfl rfl rfl (fun _ => rfl) rfl⟩
  obtain ⟨t', done', queue', hq'⟩ := hcounted
  exact ⟨by
    unfold Cdc.transmit
    rw [Ledger.addAll_append]
    exact (hq'.resumeTransmit transmitOk).1, henqueue.2.append (hq'.resumeTransmit transmitOk).2⟩

theorem irq (h : Queued variantB s l) (i : Cdc.Irq) : Steps variantB l (Cdc.irq variantB s i) := by
  obtain ⟨t, done, queue, hq⟩ := h
  cases i with
  | dataIn transmitOk =>
    unfold Cdc.irq
    dsimp only
    split
    · have hcplt := hq.transmitCplt transmitOk
      exact ⟨hcplt.1, trivial, hcplt.2⟩
    · exact .still ⟨t, done, queue, hq⟩
  | received =>
    refine .still ⟨t, done, queue, ?_⟩
    unfold Cdc.receive
    by_cases hstopped : (variantB && s.recoveryState != .running) = true
    · rw [if_pos hstopped]
      exact hq
    · have hrunning : s.recoveryState = .running := by
        by_contra hne
        exact hstopped (by rw [(hq.held hne).1]; simpa using hne)
      have hclear : s.clearRecoveryHold variantB = { s with txRecoveryHold := false } :=
        if_neg hstopped
      rw [if_neg hstopped, hclear]
      exact hq.set rfl rfl rfl rfl rfl rfl rfl rfl (absurd hrunning) rfl
  | devState configured => exact .still ⟨t, done, queue, hq.set rfl rfl rfl rfl rfl rfl rfl rfl (fun _ => rfl) rfl⟩
  | tick milliseconds =>
    refine ⟨⟨t, done, queue, ?_⟩, trivial, trivial⟩
    exact { hq with
      waits := fun hs => ⟨(hq.waits hs).1, by
        show s.tick + milliseconds = s.lastTransmitSubmit + BitVec.ofNat 32 (l.waited + milliseconds.toNat)
        rw [(hq.waits hs).2, BitVec.ofNat_add, BitVec.ofNat_toNat, BitVec.setWidth_eq, BitVec.add_assoc]⟩ }

/-- What one symbol does to the queue, a word does. -/
theorem feed {α : Type} {R : Receiver α Cdc Effect}
    (hR : ∀ s l a, Queued variantB s l → Steps variantB l (R.take s a))
    (h : Queued variantB s l) (w : List α) :
    Steps variantB l (R.state s w, R.delivered s w) := by
  induction w generalizing s l with
  | nil => exact .still h
  | cons a w ih => exact (hR s l a h).then (ih (hR s l a h).1)

theorem interrupts (h : Queued variantB s l) (irqs : List Cdc.Irq) :
    Steps variantB l ((Cdc.interrupts variantB).state s irqs,
      (Cdc.interrupts variantB).delivered s irqs) :=
  h.feed (fun _ _ i hs => hs.irq i) irqs

theorem timedLoop (h : Queued variantB s l) (Buf : Nat → Byte) (start timeoutMs : Tick)
    (turns : List Cdc.Turn) (offset length : Nat) :
    Steps variantB l (Cdc.timedLoop variantB Buf start timeoutMs turns offset length s).2 := by
  induction turns generalizing s l offset length with
  | nil =>
    cases length with
    | zero => exact .still h
    | succ rest => exact .still h
  | cons turn turns ih =>
    cases length with
    | zero => exact .still h
    | succ rest =>
      have hirqs := h.interrupts turn.irqs
      unfold Cdc.timedLoop
      dsimp only
      split
      · exact hirqs
      · have hbytes : (Ring.slice Buf offset (min (rest + 1) APP_TX_DATA_SIZE)).length < 2 ^ 32 := by
          have hsize : APP_TX_DATA_SIZE = 8192 := rfl
          simp [Ring.slice]
          omega
        have htransmit := hirqs.1.transmit turn.transmitOk hbytes
        exact (hirqs.then htransmit).then (ih (hirqs.then htransmit).1 _ _)

theorem next (h : Queued variantB s l) (e : Cdc.Event) :
    Steps variantB l (Cdc.next variantB s e) := by
  have hslice : ∀ (Buf : Nat → Byte) (Len : BitVec 32), (Ring.slice Buf 0 Len.toNat).length < 2 ^ 32 := by
    intro Buf Len
    simp [Ring.slice]
    omega
  cases e with
  | transmit Buf Len transmitOk => exact h.transmit transmitOk (hslice Buf Len)
  | transmitTimed Buf Len timeoutMs turns transmitOk =>
    show Steps variantB l (Cdc.transmitTimed variantB transmitOk Buf Len timeoutMs turns s).2
    unfold Cdc.transmitTimed
    split
    · exact h.transmit transmitOk (hslice Buf Len)
    · exact h.timedLoop Buf s.tick timeoutMs turns 0 Len.toNat
  | irq i => exact h.irq i

theorem start (counter : BitVec 32) (configured : Bool) :
    Queued variantB (Cdc.start counter configured) .empty :=
  ⟨counter.toNat, [], [], {
    tail := by simp [Cdc.start]
    head := by simp [Cdc.start]
    fits := Nat.zero_le _
    cells := rfl
    accepted := rfl
    handed := rfl
    inFlight := .inl rfl
    armed := fun ha => absurd (show false = true from ha) (by decide)
    busy := fun ha => absurd (show false = true from ha) (by decide)
    waits := fun hs => absurd (show false = true from hs) (by decide)
    held := fun hne => absurd rfl hne }⟩

end Queued

/-! ## The results of the calls -/

/-- The bytes that are accepted among the effects. -/
def acceptedBytes (effects : List Effect) : List Byte :=
  effects.flatMap fun
    | .accepted bytes => bytes
    | _ => []

/-- The bytes that are handed over among the effects. -/
def handedBytes (effects : List Effect) : List Byte :=
  effects.flatMap fun
    | .handed _ bytes => bytes
    | _ => []

theorem acceptedBytes_append (e₁ e₂ : List Effect) :
    acceptedBytes (e₁ ++ e₂) = acceptedBytes e₁ ++ acceptedBytes e₂ := List.flatMap_append

namespace Cdc

variable {variantB transmitOk : Bool} {s : Cdc}

theorem acceptedBytes_resumeTransmit :
    acceptedBytes (s.resumeTransmit variantB transmitOk).2 = [] := by
  unfold resumeTransmit giveUp submit
  dsimp only
  split
  · rfl
  · split
    · split
      · split
        · rfl
        · rfl
      · rfl
    · split
      · rfl
      · split
        · rfl
        · split
          · rfl
          · rfl

/-- A buffer is accepted whole, or not at all. -/
theorem acceptedBytes_transmit (bytes : List Byte) :
    acceptedBytes (transmit variantB transmitOk bytes s).2.2 =
      if (transmit variantB transmitOk bytes s).1 then bytes else [] := by
  unfold transmit
  dsimp only
  rw [acceptedBytes_append, acceptedBytes_resumeTransmit, List.append_nil]
  unfold enqueue
  split
  · rfl
  · show [] ++ ([] ++ (bytes ++ [])) = _
    simp

theorem acceptedBytes_irq (i : Irq) : acceptedBytes (irq variantB s i).2 = [] := by
  cases i with
  | dataIn transmitOk =>
    unfold irq transmitCplt
    dsimp only
    split
    · split
      · rfl
      · exact acceptedBytes_resumeTransmit
    · rfl
  | received => rfl
  | devState configured => rfl
  | tick milliseconds => rfl

theorem acceptedBytes_interrupts (irqs : List Irq) :
    acceptedBytes ((interrupts variantB).delivered s irqs) = [] := by
  induction irqs generalizing s with
  | nil => rfl
  | cons i irqs ih =>
    rw [Receiver.delivered_cons, acceptedBytes_append, ih, List.append_nil]
    exact acceptedBytes_irq i

/-- The loop over no more than the ring can hold accepts all of it in one turn. -/
theorem acceptedBytes_timedLoop (Buf : Nat → Byte) (start timeoutMs : Tick) (turns : List Turn)
    {length : Nat} (hl : length ≤ APP_TX_DATA_SIZE)
    (hok : (timedLoop variantB Buf start timeoutMs turns 0 length s).1 = some true) :
    acceptedBytes (timedLoop variantB Buf start timeoutMs turns 0 length s).2.2 =
      Ring.slice Buf 0 length := by
  induction turns generalizing s with
  | nil =>
    cases length with
    | zero => rfl
    | succ rest => exact absurd hok (by simp [timedLoop])
  | cons turn turns ih =>
    cases length with
    | zero => rfl
    | succ rest =>
      unfold timedLoop at hok ⊢
      dsimp only at hok ⊢
      rw [Nat.min_eq_left hl] at hok ⊢
      split at hok
      · exact absurd hok (by simp)
      · rename_i htime
        rw [if_neg htime]
        simp only [acceptedBytes_append, acceptedBytes_interrupts, acceptedBytes_transmit]
        generalize (interrupts variantB).state s turn.irqs = s₁ at hok ⊢
        cases hr : (transmit variantB turn.transmitOk (Ring.slice Buf 0 (rest + 1)) s₁).1 with
        | false =>
          rw [hr] at hok
          simpa using ih hok
        | true =>
          simp [timedLoop, acceptedBytes]

theorem acceptedBytes_transmitTimed (Buf : Nat → Byte) {Len : BitVec 32} (timeoutMs : Tick)
    (turns : List Turn) (hl : Len.toNat ≤ APP_TX_DATA_SIZE)
    (hok : (transmitTimed variantB transmitOk Buf Len timeoutMs turns s).1 = some true) :
    acceptedBytes (transmitTimed variantB transmitOk Buf Len timeoutMs turns s).2.2 =
      Ring.slice Buf 0 Len.toNat := by
  unfold transmitTimed at hok ⊢
  by_cases hzero : timeoutMs = 0#32
  · rw [if_pos hzero] at hok ⊢
    dsimp only at hok ⊢
    rw [acceptedBytes_transmit, Option.some.inj hok, if_pos rfl]
  · rw [if_neg hzero] at hok ⊢
    exact acceptedBytes_timedLoop Buf s.tick timeoutMs turns hl hok

/-- What a run does, on a port whose counters start at any value. -/
def effects (variantB : Bool) (counter : BitVec 32) (configured : Bool) (events : List Event) :
    List Effect := (machine variantB).delivered (start counter configured) events

def after (variantB : Bool) (counter : BitVec 32) (configured : Bool) (events : List Event) :
    Cdc := (machine variantB).state (start counter configured) events

end Cdc

/-- **The queue is first in, first out**, between two times it is thrown away; the buffer never
    overflows, and a call that is `USBD_OK` has enqueued its bytes. -/
theorem transmit_queue_fifo (variantB : Bool) (counter : BitVec 32) (configured : Bool)
    (events : List Cdc.Event) :
    AllLawful variantB .empty (Cdc.effects variantB counter configured events) ∧
      (Cdc.after variantB counter configured events).readAvailable.toNat ≤ APP_TX_DATA_SIZE ∧
      (∀ (Buf : Nat → Byte) (Len : BitVec 32) (transmitOk : Bool),
        let r := Cdc.transmit variantB transmitOk (Ring.slice Buf 0 Len.toNat)
          (Cdc.after variantB counter configured events)
        acceptedBytes r.2.2 = if r.1 then Ring.slice Buf 0 Len.toNat else []) ∧
      (∀ (Buf : Nat → Byte) (Len : BitVec 32) (timeoutMs : Tick) (turns : List Cdc.Turn)
        (transmitOk : Bool),
        let r := Cdc.transmitTimed variantB transmitOk Buf Len timeoutMs turns
          (Cdc.after variantB counter configured events)
        Len.toNat ≤ APP_TX_DATA_SIZE → r.1 = some true →
          acceptedBytes r.2.2 = Ring.slice Buf 0 Len.toNat) := by
  have hrun : Steps variantB .empty ((Cdc.machine variantB).state _ events,
      (Cdc.machine variantB).delivered _ events) :=
    (Queued.start counter configured).feed (fun _ _ e hs => hs.next e) events
  obtain ⟨t, done, queue, hq⟩ := hrun.1
  refine ⟨hrun.2, ?_, ?_, ?_⟩
  · show ((Cdc.machine variantB).state _ events).readAvailable.toNat ≤ _
    rw [hq.readAvailable]
    exact hq.fits
  · intro Buf Len transmitOk
    exact Cdc.acceptedBytes_transmit _
  · intro Buf Len timeoutMs turns transmitOk r hl hok
    exact Cdc.acceptedBytes_transmitTimed Buf timeoutMs turns hl hok

/-- Three bytes are handed over and stay busy for 501 ms; a fourth is enqueued and thrown away;
    the transfer completes after all, and a fifth is handed over. -/
def stalled : List Cdc.Event :=
  [.transmit (fun i => BitVec.ofNat 8 (i + 1)) 3#32 true, .irq (.tick 501#32),
    .transmit (fun _ => 4#8) 1#32 true, .irq (.dataIn true), .transmit (fun _ => 5#8) 1#32 true]

/-- A transfer that is given up takes the queue with it. -/
theorem transmit_queue_discards :
    ¬handedBytes (Cdc.effects false 0#32 true stalled) <+:
      acceptedBytes (Cdc.effects false 0#32 true stalled) := by
  decide +kernel

end Usb
end Mowgli
