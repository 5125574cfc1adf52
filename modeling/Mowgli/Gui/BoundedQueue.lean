import Mowgli.Gui.Diagnostics

/-!
# BoundedQueue — no message of the diagnostics is unaccounted for

The log of a run says which messages were published before `Close`, which of them were dropped,
which a callback returned from, which `Close` threw away. The accepted ones are, in the order in
which they were published, the delivered, the one in the callback, the pending and the cancelled
(`Balanced`).

The wake-up has a gap that the mutex does not cover: a `Publish` that has queued its message and
let go of the mutex has not sent its token yet. Until it does, **a message may be pending while the
worker waits and no token is there** (`unsignalled`); the token is on its way (`Woken`).
-/

namespace Mowgli
namespace Gui
namespace Diagnostics

open Trace History

/-! ## The ledger -/

def pending (q : DiagnosticQueue) : List Msg :=
  Ring.window diagnosticQueueMaxMessages q.messages q.head q.count

def inCallback : Worker → List Msg
  | .calling msg => [msg]
  | _ => []

def size (msgs : List Msg) : Nat := (msgs.map len).sum

/-- Not `nil`, and before `Close`. -/
def publishedBy (m : Mark) : List Msg :=
  match m.event with
  | .publish msg => if msg = none ∨ m.before.diagnostics.closed then [] else [msg]
  | _ => []

def drops (m : Mark) : Prop := m.after.diagnostics.dropped ≠ m.before.diagnostics.dropped

instance (m : Mark) : Decidable (drops m) := inferInstanceAs (Decidable (_ ≠ _))

def droppedBy (m : Mark) : List Msg := if drops m then publishedBy m else []

def acceptedBy (m : Mark) : List Msg := if drops m then [] else publishedBy m

/-- The callback returned. -/
def deliveredBy (m : Mark) : List Msg :=
  match m.event with
  | .worker _ => inCallback m.before.worker
  | _ => []

def cancelledBy (m : Mark) : List Msg :=
  match m.event with
  | .close => if m.before.diagnostics.closed then [] else pending m.before.diagnostics
  | _ => []

def published (log : List Mark) : List Msg := gathered publishedBy log

def dropped (log : List Mark) : List Msg := gathered droppedBy log

def accepted (log : List Mark) : List Msg := gathered acceptedBy log

def delivered (log : List Mark) : List Msg := gathered deliveredBy log

def cancelled (log : List Mark) : List Msg := gathered cancelledBy log

/-- The worker takes a message off the queue. -/
def takes (m : Mark) : Prop :=
  m.before.worker = .checking ∧ ∃ msg, m.after.worker = .calling msg

def closing (m : Mark) (_ : List Mark) : Prop := m.event = .close

/-- Between taking a token and the next check that finds the queue empty. -/
def Worker.awake : Worker → Bool
  | .reporting | .pacing | .sleeping | .checking | .calling _ => true
  | _ => false

/-! ## The statements -/

structure Balanced (r : RosSubscriber) (log : List Mark) : Prop where
  fifo : accepted log =
    delivered log ++ inCallback r.worker ++ pending r.diagnostics ++ cancelled log
  ordered : (accepted log).Sublist (published log)
  counted : (published log).length =
    (delivered log).length + (inCallback r.worker).length + (pending r.diagnostics).length +
      (dropped log).length + (cancelled log).length
  dropped_eq : r.diagnostics.dropped = UInt64.ofNat (dropped log).length
  droppedBytes_eq : r.diagnostics.droppedBytes = UInt64.ofNat (size (dropped log))
  canceled_eq : r.diagnostics.canceled = UInt64.ofNat (cancelled log).length

structure Bounded (q : DiagnosticQueue) : Prop where
  count_eq : q.count = (pending q).length
  bytes_eq : q.bytes = size (pending q)
  count_le : (pending q).length ≤ 128
  bytes_le : size (pending q) ≤ 2097152

structure Lawful (m : Mark) (past : List Mark) : Prop where
  dropped : drops m → ∃ msg, m.event = .publish msg ∧
    (128 < (pending m.before.diagnostics).length + 1 ∨
      2097152 < size (pending m.before.diagnostics) + len msg)
  taken : takes m → ¬Once closing past

/-- The worker finds what is pending without another call of `Publish`. -/
def Woken (r : RosSubscriber) : Prop :=
  pending r.diagnostics ≠ [] → r.diagnostics.closed = false →
    r.wake = true ∨ r.worker.awake = true ∨ 0 < r.signalling

/-! ## One step -/

structure Inv (r : RosSubscriber) (log : List Mark) : Prop where
  head : r.diagnostics.head < 128
  count : r.diagnostics.count ≤ 128
  bytes : r.diagnostics.bytes = size (pending r.diagnostics)
  limit : r.diagnostics.bytes ≤ 2097152
  fifo : accepted log =
    delivered log ++ inCallback r.worker ++ pending r.diagnostics ++ cancelled log
  dropped_eq : r.diagnostics.dropped = UInt64.ofNat (dropped log).length
  droppedBytes_eq : r.diagnostics.droppedBytes = UInt64.ofNat (size (dropped log))
  canceled_eq : r.diagnostics.canceled = UInt64.ofNat (cancelled log).length
  closed_iff : r.diagnostics.closed = true ↔ Once closing log
  close_eq : r.close = r.diagnostics.closed
  emptied : r.diagnostics.closed = true → r.diagnostics.count = 0
  kept : r.diagnostics.closed = false → cancelled log = []
  gone : r.worker = .leaving ∨ r.worker = .finished → r.diagnostics.closed = true
  woken : Woken r

variable {r r' : RosSubscriber} {log : List Mark} {msg : Msg}

@[simp] theorem size_nil : size [] = 0 := rfl

@[simp] theorem size_append (a b : List Msg) : size (a ++ b) = size a + size b := by
  simp [size]

@[simp] theorem size_cons (m : Msg) (a : List Msg) : size (m :: a) = len m + size a := by
  simp [size]

@[simp] theorem length_pending (q : DiagnosticQueue) : (pending q).length = q.count := by
  simp [pending]

variable {q : DiagnosticQueue} {m : Mark}

theorem pending_nil (h : q.count = 0) : pending q = [] :=
  List.eq_nil_of_length_eq_zero (by rw [length_pending, h])

theorem acceptedBy_quiet (h : publishedBy m = []) : acceptedBy m = [] := by
  simp [acceptedBy, h]

theorem accepted_quiet (h : publishedBy m = []) : accepted (m :: log) = accepted log := by
  simp [accepted, acceptedBy_quiet h]

theorem dropped_quiet (h : publishedBy m = []) : dropped (m :: log) = dropped log := by
  simp [dropped, droppedBy, h]

theorem delivered_quiet (h : deliveredBy m = []) : delivered (m :: log) = delivered log := by
  simp [delivered, h]

theorem cancelled_quiet (h : cancelledBy m = []) : cancelled (m :: log) = cancelled log := by
  simp [cancelled, h]

variable {e : Event}

/-- Not `Publish`, not the queue: what else a step may do. -/
theorem Inv.moves (h : Inv r log) (hpub : publishedBy ⟨e, r, r'⟩ = [])
    (hcan : cancelledBy ⟨e, r, r'⟩ = [])
    (hclose : Once closing (⟨e, r, r'⟩ :: log) ↔ Once closing log)
    (hcall : deliveredBy ⟨e, r, r'⟩ ++ inCallback r'.worker = inCallback r.worker)
    (hq : ∃ n d, r'.diagnostics = { r.diagnostics with reported := n, done := d })
    (hcl : r'.close = r.close)
    (hgone : r'.worker = .leaving ∨ r'.worker = .finished → r.diagnostics.closed = true)
    (hwoken : Woken r') : Inv r' (⟨e, r, r'⟩ :: log) := by
  obtain ⟨n, d, hq⟩ := hq
  have hfifo : accepted (⟨e, r, r'⟩ :: log) = delivered (⟨e, r, r'⟩ :: log) ++
      inCallback r'.worker ++ pending r.diagnostics ++ cancelled (⟨e, r, r'⟩ :: log) := by
    rw [accepted_quiet hpub, cancelled_quiet hcan, h.fifo, ← hcall, delivered, delivered,
      gathered_cons]
    simp only [List.append_assoc]
  constructor
  case head => rw [hq]; exact h.head
  case count => rw [hq]; exact h.count
  case bytes => rw [hq]; exact h.bytes
  case limit => rw [hq]; exact h.limit
  case fifo => rw [hq]; exact hfifo
  case dropped_eq => rw [hq, dropped_quiet hpub]; exact h.dropped_eq
  case droppedBytes_eq => rw [hq, dropped_quiet hpub]; exact h.droppedBytes_eq
  case canceled_eq => rw [hq, cancelled_quiet hcan]; exact h.canceled_eq
  case closed_iff => rw [hq, hclose]; exact h.closed_iff
  case close_eq => rw [hq, hcl]; exact h.close_eq
  case emptied => rw [hq]; exact h.emptied
  case kept => rw [hq, cancelled_quiet hcan]; exact h.kept
  case gone => rw [hq]; exact hgone
  case woken => exact hwoken

/-! ### `Publish` -/

theorem atLimit_iff (hb : q.bytes = size (pending q)) (hc : q.count ≤ 128) (msg : Msg) :
    q.atLimit msg ↔ 128 < (pending q).length + 1 ∨ 2097152 < size (pending q) + len msg := by
  rw [length_pending]
  unfold DiagnosticQueue.atLimit
  rw [hb, show diagnosticQueueMaxMessages = 128 from rfl,
    show diagnosticQueueMaxBytes = 2097152 from rfl]
  constructor
  · rintro (h | h)
    · left; omega
    · right; omega
  · rintro (h | h)
    · left; omega
    · right; omega

theorem pending_publish (hc : q.count ≤ 128) (h : ¬q.atLimit msg) :
    pending (q.publish msg) = pending q ++ [msg] := by
  have hroom : q.count ≠ 128 := fun he => h (.inl he)
  rw [DiagnosticQueue.publish, if_neg h]
  exact Ring.window_push q.messages (Nat.lt_of_le_of_ne hc hroom) msg

theorem publishedBy_open (r' : RosSubscriber) (hmsg : msg ≠ none) (hopen : r.diagnostics.closed = false) :
    publishedBy ⟨.publish msg, r, r'⟩ = [msg] := by
  simp [publishedBy, hmsg, hopen]

theorem once_closing_cons (he : e ≠ .close) :
    Once closing (⟨e, r, r'⟩ :: log) ↔ Once closing log := by
  simp [closing, he]

theorem ofNat_succ (n : Nat) : UInt64.ofNat n + 1 = UInt64.ofNat (n + 1) := by
  rw [UInt64.ofNat_add]
  rfl

theorem succ_ne (n : UInt64) : n + 1 ≠ n := by
  intro h
  have := congrArg UInt64.toBitVec h
  simp at this

theorem Inv.dropping (h : Inv r log) (hmsg : msg ≠ none) (hopen : r.diagnostics.closed = false)
    (hfull : r.diagnostics.atLimit msg) :
    Inv (step r (.publish msg)) (⟨.publish msg, r, step r (.publish msg)⟩ :: log) := by
  have hr : step r (.publish msg) =
      { r with
        diagnostics := { r.diagnostics with
          dropped := r.diagnostics.dropped + 1
          droppedBytes := r.diagnostics.droppedBytes + UInt64.ofNat (len msg) }
        signalling := r.signalling + 1 } := by
    simp [step, publishDiagnostic, hmsg, hopen, DiagnosticQueue.publish, hfull]
  have hdrops : drops ⟨.publish msg, r, step r (.publish msg)⟩ := by
    rw [hr]
    exact succ_ne _
  have hpub := publishedBy_open (step r (.publish msg)) hmsg hopen
  have hacc : acceptedBy ⟨.publish msg, r, step r (.publish msg)⟩ = [] := by
    rw [acceptedBy, if_pos hdrops]
  have hdropped : dropped (⟨.publish msg, r, step r (.publish msg)⟩ :: log) = dropped log ++ [msg] := by
    rw [dropped, gathered_cons, droppedBy, if_pos hdrops, hpub]
    rfl
  have hfifo : accepted (⟨.publish msg, r, step r (.publish msg)⟩ :: log) =
      delivered log ++ inCallback r.worker ++ pending r.diagnostics ++ cancelled log := by
    rw [accepted, gathered_cons, hacc, List.append_nil]
    exact h.fifo
  rw [hr] at hdropped hfifo ⊢
  constructor
  case head => exact h.head
  case count => exact h.count
  case bytes => exact h.bytes
  case limit => exact h.limit
  case fifo =>
    rw [delivered_quiet rfl, cancelled_quiet rfl]
    exact hfifo
  case dropped_eq =>
    rw [hdropped, List.length_append, List.length_singleton, ← ofNat_succ, ← h.dropped_eq]
  case droppedBytes_eq =>
    rw [hdropped, size_append, size_cons, size_nil, Nat.add_zero, UInt64.ofNat_add,
      ← h.droppedBytes_eq]
    rfl
  case canceled_eq => rw [cancelled_quiet rfl]; exact h.canceled_eq
  case closed_iff => rw [once_closing_cons (by simp)]; exact h.closed_iff
  case close_eq => exact h.close_eq
  case emptied => exact h.emptied
  case kept => rw [cancelled_quiet rfl]; exact h.kept
  case gone => exact h.gone
  case woken => exact fun _ _ => .inr (.inr (Nat.succ_pos _))

theorem Inv.accepting (h : Inv r log) (hmsg : msg ≠ none) (hopen : r.diagnostics.closed = false)
    (hroom : ¬r.diagnostics.atLimit msg) :
    Inv (step r (.publish msg)) (⟨.publish msg, r, step r (.publish msg)⟩ :: log) := by
  have hr : step r (.publish msg) =
      { r with
        diagnostics := r.diagnostics.publish msg
        signalling := r.signalling + 1 } := by
    simp [step, publishDiagnostic, hmsg, hopen]
  have hq : r.diagnostics.publish msg = { r.diagnostics with
      messages := Function.update r.diagnostics.messages
        ((r.diagnostics.head + r.diagnostics.count) % diagnosticQueueMaxMessages) msg
      count := r.diagnostics.count + 1
      bytes := r.diagnostics.bytes + len msg } := by
    rw [DiagnosticQueue.publish, if_neg hroom]
  have hpending := pending_publish h.count hroom
  have hlimits := mt (atLimit_iff h.bytes h.count msg).2 hroom
  rw [length_pending] at hlimits
  have hdrops : ¬drops ⟨.publish msg, r, step r (.publish msg)⟩ := by
    rw [hr, drops, hq]
    exact fun hne => hne rfl
  have hpub := publishedBy_open (step r (.publish msg)) hmsg hopen
  have hdropped : dropped (⟨.publish msg, r, step r (.publish msg)⟩ :: log) = dropped log := by
    rw [dropped, gathered_cons, droppedBy, if_neg hdrops, List.append_nil]
    rfl
  have hfifo : accepted (⟨.publish msg, r, step r (.publish msg)⟩ :: log) =
      delivered log ++ inCallback r.worker ++ pending (r.diagnostics.publish msg) ++
        cancelled log := by
    rw [accepted, gathered_cons, acceptedBy, if_neg hdrops, hpub, hpending, h.kept hopen]
    have hold := h.fifo
    rw [h.kept hopen, List.append_nil] at hold
    rw [List.append_nil, ← List.append_assoc, ← hold]
    rfl
  rw [hr] at hdropped hfifo ⊢
  constructor
  case head => rw [hq]; exact h.head
  case count =>
    rw [hq]
    show r.diagnostics.count + 1 ≤ 128
    omega
  case bytes =>
    rw [hpending, size_append, size_cons, size_nil, hq]
    have := h.bytes
    show r.diagnostics.bytes + _ = _
    push_cast
    omega
  case limit =>
    rw [hq]
    have := h.bytes
    show r.diagnostics.bytes + (len msg : Int) ≤ 2097152
    omega
  case fifo =>
    rw [delivered_quiet rfl, cancelled_quiet rfl]
    exact hfifo
  case dropped_eq => rw [hdropped, hq]; exact h.dropped_eq
  case droppedBytes_eq => rw [hdropped, hq]; exact h.droppedBytes_eq
  case canceled_eq => rw [cancelled_quiet rfl, hq]; exact h.canceled_eq
  case closed_iff => rw [once_closing_cons (by simp), hq]; exact h.closed_iff
  case close_eq => rw [hq]; exact h.close_eq
  case emptied =>
    rw [hq]
    intro hclosed
    exact absurd hopen (by rw [hclosed]; simp)
  case kept => rw [cancelled_quiet rfl]; exact fun _ => h.kept hopen
  case gone => rw [hq]; exact h.gone
  case woken => exact fun _ _ => .inr (.inr (Nat.succ_pos _))

theorem Inv.publish (h : Inv r log) (msg : Msg) :
    Inv (step r (.publish msg)) (⟨.publish msg, r, step r (.publish msg)⟩ :: log) := by
  by_cases hpass : msg = none ∨ r.diagnostics.closed = true
  · have hr : step r (.publish msg) = r := by
      rcases hpass with hnil | hclosed
      · simp [step, publishDiagnostic, hnil]
      · simp [step, publishDiagnostic, hclosed]
    rw [hr]
    exact h.moves (by simp [publishedBy, hpass]) rfl (once_closing_cons (by simp)) rfl
      ⟨_, _, rfl⟩ rfl h.gone h.woken
  · rw [not_or, Bool.not_eq_true] at hpass
    by_cases hfull : r.diagnostics.atLimit msg
    · exact h.dropping hpass.1 hpass.2 hfull
    · exact h.accepting hpass.1 hpass.2 hfull

theorem Inv.signal (h : Inv r log) :
    Inv (step r .signal) (⟨.signal, r, step r .signal⟩ :: log) := by
  by_cases hnone : r.signalling = 0
  · have hr : step r .signal = r := by simp [step, Diagnostics.signal, hnone]
    rw [hr]
    exact h.moves rfl rfl (once_closing_cons (by simp)) rfl ⟨_, _, rfl⟩ rfl h.gone h.woken
  · have hr : step r .signal = { r with wake := true, signalling := r.signalling - 1 } := by
      simp [step, Diagnostics.signal, hnone]
    rw [hr]
    exact h.moves rfl rfl (once_closing_cons (by simp)) rfl ⟨_, _, rfl⟩ rfl h.gone
      fun _ _ => .inl rfl

/-! ### `Close` -/

theorem Inv.close (h : Inv r log) :
    Inv (step r .close) (⟨.close, r, step r .close⟩ :: log) := by
  by_cases hclosed : r.diagnostics.closed = true
  · have hr : step r .close = r := by simp [step, closeDiagnostics, hclosed]
    rw [hr]
    refine h.moves rfl (by simp [cancelledBy, hclosed]) ?_ rfl ⟨_, _, rfl⟩ rfl h.gone h.woken
    simpa [closing] using h.closed_iff.1 hclosed
  · have hopen : r.diagnostics.closed = false := by simpa using hclosed
    have hr : step r .close =
        { r with diagnostics := r.diagnostics.clear, close := true } := by
      simp [step, closeDiagnostics, hopen]
    have hcan : cancelled (⟨.close, r, step r .close⟩ :: log) = pending r.diagnostics := by
      rw [cancelled, gathered_cons]
      show cancelled log ++ _ = _
      rw [h.kept hopen]
      simp [cancelledBy, hopen]
    have hfifo : accepted (⟨.close, r, step r .close⟩ :: log) =
        delivered log ++ inCallback r.worker ++ pending r.diagnostics := by
      have hold := h.fifo
      rw [h.kept hopen, List.append_nil] at hold
      rw [← hold, accepted, gathered_cons]
      rw [acceptedBy_quiet rfl, List.append_nil]
      rfl
    have hempty : pending r.diagnostics.clear = [] := pending_nil rfl
    rw [hr] at hcan hfifo ⊢
    constructor
    case head => exact Nat.zero_lt_succ _
    case count => exact Nat.zero_le _
    case bytes => rw [hempty]; rfl
    case limit => show (0 : Int) ≤ 2097152; omega
    case fifo =>
      rw [hfifo, hcan, hempty, delivered_quiet rfl, List.append_nil]
    case dropped_eq => rw [dropped_quiet rfl]; exact h.dropped_eq
    case droppedBytes_eq => rw [dropped_quiet rfl]; exact h.droppedBytes_eq
    case canceled_eq =>
      rw [hcan, length_pending]
      show r.diagnostics.canceled + _ = _
      rw [h.canceled_eq, h.kept hopen]
      simp
    case closed_iff => simp [closing, DiagnosticQueue.clear]
    case close_eq => rfl
    case emptied => exact fun _ => rfl
    case kept => exact fun hno => absurd hno (by simp [DiagnosticQueue.clear])
    case gone => exact fun _ => rfl
    case woken => exact fun hne => absurd hempty hne

/-! ### The worker -/

/-- The worker goes on to another place, the queue as it is. -/
theorem Inv.goes (h : Inv r log) (turn : Turn)
    (hcall : inCallback r.worker = [])
    (hcall' : inCallback r'.worker = [])
    (hq : ∃ n d, r'.diagnostics = { r.diagnostics with reported := n, done := d })
    (hcl : r'.close = r.close)
    (hgone : r'.worker = .leaving ∨ r'.worker = .finished → r.diagnostics.closed = true)
    (hwoken : Woken r') : Inv r' (⟨.worker turn, r, r'⟩ :: log) :=
  h.moves rfl rfl (once_closing_cons (by simp)) (by simp [deliveredBy, hcall, hcall']) hq hcl hgone
    hwoken

theorem Woken.awake (h : r.worker.awake = true) : Woken r := fun _ _ => .inr (.inl h)

theorem Woken.closed (h : r.diagnostics.closed = true) : Woken r :=
  fun _ hopen => absurd hopen (by rw [h]; simp)

theorem pending_pop (hne : q.count ≠ 0) (hc : q.count ≤ 128) (hh : q.head < 128) :
    pending q = q.messages q.head :: pending q.pop := by
  obtain ⟨n, hn⟩ := Nat.exists_eq_succ_of_ne_zero hne
  have hhead : q.head % diagnosticQueueMaxMessages = q.head := Nat.mod_eq_of_lt hh
  have hroom : n < diagnosticQueueMaxMessages := by
    show n < 128
    omega
  have hpop := Ring.window_pop q.messages (p := q.head) hroom none
  rw [hhead] at hpop
  show Ring.window _ _ _ q.count = _ :: Ring.window _ _ _ (q.count - 1)
  rw [hn, Ring.window_succ, hhead, Nat.succ_sub_one]
  congr 1
  show _ = Ring.window _ (Function.update q.messages q.head none)
    ((q.head + 1) % diagnosticQueueMaxMessages) n
  rw [Ring.window_mod, hpop]

theorem Inv.taking (h : Inv r log) (turn : Turn) (hw : r.worker = .checking)
    (hopen : r.diagnostics.closed = false) (hne : r.diagnostics.count ≠ 0) :
    Inv (step r (.worker turn)) (⟨.worker turn, r, step r (.worker turn)⟩ :: log) := by
  have hr : step r (.worker turn) =
      { r with
        diagnostics := r.diagnostics.pop
        worker := .calling (r.diagnostics.messages r.diagnostics.head) } := by
    simp [step, runDiagnostics, take, hw, hopen, hne]
  have hpending := pending_pop hne h.count h.head
  rw [hr]
  have hfifo := h.fifo
  have hbytes := h.bytes
  have hlimit := h.limit
  have hcount := h.count
  rw [hpending, size_cons] at hbytes
  constructor
  case head => exact Nat.mod_lt _ (by decide)
  case count =>
    show r.diagnostics.count - 1 ≤ 128
    omega
  case bytes =>
    show r.diagnostics.bytes - _ = _
    rw [hbytes]
    push_cast
    omega
  case limit =>
    show r.diagnostics.bytes - _ ≤ 2097152
    omega
  case fifo =>
    rw [hw, hpending] at hfifo
    have hquiet : ∀ after, deliveredBy ⟨.worker turn, r, after⟩ = [] := by simp [deliveredBy, hw, inCallback]
    rw [delivered_quiet (hquiet _), cancelled_quiet rfl, accepted_quiet rfl, hfifo]
    simp [inCallback]
  case dropped_eq => rw [dropped_quiet rfl]; exact h.dropped_eq
  case droppedBytes_eq => rw [dropped_quiet rfl]; exact h.droppedBytes_eq
  case canceled_eq => rw [cancelled_quiet rfl]; exact h.canceled_eq
  case closed_iff => rw [once_closing_cons (by simp)]; exact h.closed_iff
  case close_eq => exact h.close_eq
  case emptied => exact fun hclosed => absurd hopen (by rw [show r.diagnostics.closed = true from hclosed]; simp)
  case kept => rw [cancelled_quiet rfl]; exact fun _ => h.kept hopen
  case gone => exact fun hno => absurd hno (by simp)
  case woken => exact Woken.awake rfl

theorem Inv.worker (h : Inv r log) (turn : Turn) :
    Inv (step r (.worker turn)) (⟨.worker turn, r, step r (.worker turn)⟩ :: log) := by
  have hclose : r.close = true → r.diagnostics.closed = true := by
    intro hc
    rw [← h.close_eq, hc]
  cases hw : r.worker with
  | waiting =>
    have hidle : inCallback r.worker = [] := by rw [hw]; rfl
    cases hturn : turn.closing with
    | true =>
      by_cases hc : r.close = true
      · have hr : step r (.worker turn) = { r with worker := .leaving } := by
          simp [step, runDiagnostics, hw, hturn, hc]
        rw [hr]
        exact h.goes turn hidle rfl ⟨_, _, rfl⟩ rfl (fun _ => hclose hc) (Woken.closed (hclose hc))
      · have hr : step r (.worker turn) = r := by simp [step, runDiagnostics, hw, hturn, hc]
        rw [hr]
        exact h.goes turn hidle hidle ⟨_, _, rfl⟩ rfl h.gone h.woken
    | false =>
      by_cases hwake : r.wake = true
      · have hr : step r (.worker turn) = { r with wake := false, worker := .reporting } := by
          simp [step, runDiagnostics, hw, hturn, hwake]
        rw [hr]
        exact h.goes turn hidle rfl ⟨_, _, rfl⟩ rfl (by simp) (Woken.awake rfl)
      · have hr : step r (.worker turn) = r := by simp [step, runDiagnostics, hw, hturn, hwake]
        rw [hr]
        exact h.goes turn hidle hidle ⟨_, _, rfl⟩ rfl h.gone h.woken
  | reporting =>
    have hr : step r (.worker turn) = { reportDiagnosticDrops r with worker := .pacing } := by
      simp [step, runDiagnostics, hw]
    rw [hr]
    exact h.goes turn (by rw [hw]; rfl) rfl ⟨_, _, rfl⟩ rfl (by simp) (Woken.awake rfl)
  | pacing =>
    by_cases hwait : 0 < r.interval ∧ 0 < wait r turn.now
    · have hr : step r (.worker turn) = { r with worker := .sleeping } := by
        simp [step, runDiagnostics, hw, hwait]
      rw [hr]
      exact h.goes turn (by rw [hw]; rfl) rfl ⟨_, _, rfl⟩ rfl (by simp) (Woken.awake rfl)
    · have hr : step r (.worker turn) = { r with worker := .checking } := by
        simp [step, runDiagnostics, hw, hwait]
      rw [hr]
      exact h.goes turn (by rw [hw]; rfl) rfl ⟨_, _, rfl⟩ rfl (by simp) (Woken.awake rfl)
  | sleeping =>
    have hidle : inCallback r.worker = [] := by rw [hw]; rfl
    cases hturn : turn.closing with
    | true =>
      by_cases hc : r.close = true
      · have hr : step r (.worker turn) = { r with worker := .leaving } := by
          simp [step, runDiagnostics, hw, hturn, hc]
        rw [hr]
        exact h.goes turn hidle rfl ⟨_, _, rfl⟩ rfl (fun _ => hclose hc) (Woken.closed (hclose hc))
      · have hr : step r (.worker turn) = r := by simp [step, runDiagnostics, hw, hturn, hc]
        rw [hr]
        exact h.goes turn hidle hidle ⟨_, _, rfl⟩ rfl h.gone h.woken
    | false =>
      have hr : step r (.worker turn) = { r with worker := .checking } := by
        simp [step, runDiagnostics, hw, hturn]
      rw [hr]
      exact h.goes turn hidle rfl ⟨_, _, rfl⟩ rfl (by simp) (Woken.awake rfl)
  | checking =>
    have hidle : inCallback r.worker = [] := by rw [hw]; rfl
    cases hc : r.diagnostics.closed with
    | true =>
      have hr : step r (.worker turn) = { r with worker := .leaving } := by
        simp [step, runDiagnostics, take, hw, hc]
      rw [hr]
      exact h.goes turn hidle rfl ⟨_, _, rfl⟩ rfl (fun _ => hc) (Woken.closed hc)
    | false =>
      by_cases hzero : r.diagnostics.count = 0
      · have hr : step r (.worker turn) = { r with worker := .waiting } := by
          simp [step, runDiagnostics, take, hw, hc, hzero]
        rw [hr]
        exact h.goes turn hidle rfl ⟨_, _, rfl⟩ rfl (by simp)
          fun hne => absurd (pending_nil hzero) hne
      · exact h.taking turn hw hc hzero
  | calling msg =>
    have hr : step r (.worker turn) =
        { r with lastDeliver := some turn.now, worker := .reporting } := by
      simp [step, runDiagnostics, hw]
    rw [hr]
    exact h.moves rfl rfl (once_closing_cons (by simp)) (by simp [deliveredBy, inCallback])
      ⟨_, _, rfl⟩ rfl (by simp) (Woken.awake rfl)
  | leaving =>
    have hr : step r (.worker turn) =
        { reportDiagnosticDrops r with
          diagnostics := { (reportDiagnosticDrops r).diagnostics with done := true }
          worker := .finished } := by
      simp [step, runDiagnostics, hw]
    have hclosed := h.gone (.inl hw)
    rw [hr]
    exact h.goes turn (by rw [hw]; rfl) rfl ⟨_, _, rfl⟩ rfl (fun _ => hclosed)
      (Woken.closed hclosed)
  | finished =>
    have hr : step r (.worker turn) = r := by simp [step, runDiagnostics, hw]
    rw [hr]
    exact h.goes turn (by rw [hw]; rfl) (by rw [hw]; rfl) ⟨_, _, rfl⟩ rfl h.gone h.woken

theorem Inv.stepped (h : Inv r log) (e : Event) :
    Inv (step r e) (⟨e, r, step r e⟩ :: log) := by
  cases e with
  | publish msg => exact h.publish msg
  | signal => exact h.signal
  | close => exact h.close
  | worker turn => exact h.worker turn

theorem Inv.start (interval : Int) : Inv { interval := interval } [] where
  head := Nat.zero_lt_succ _
  count := Nat.zero_le _
  bytes := rfl
  limit := (by decide : (0 : Int) ≤ 2097152)
  fifo := rfl
  dropped_eq := rfl
  droppedBytes_eq := rfl
  canceled_eq := rfl
  closed_iff := by simp
  close_eq := rfl
  emptied := fun _ => rfl
  kept := fun _ => rfl
  gone := by simp
  woken := fun hne => absurd (pending_nil rfl) hne

/-! ## What a step may drop and take -/

theorem dropped_of_not_publish (h : ∀ msg, e ≠ .publish msg) :
    (step r e).diagnostics.dropped = r.diagnostics.dropped := by
  cases e with
  | publish msg => exact absurd rfl (h msg)
  | signal =>
    show (signal r).diagnostics.dropped = _
    unfold signal
    split <;> rfl
  | close =>
    show (closeDiagnostics r).diagnostics.dropped = _
    unfold closeDiagnostics
    split <;> rfl
  | worker turn =>
    show (runDiagnostics r turn).diagnostics.dropped = _
    unfold runDiagnostics
    split
    · split <;> split <;> rfl
    · rfl
    · split <;> rfl
    · split
      · split <;> rfl
      · rfl
    · dsimp only [take, DiagnosticQueue.pop]
      split <;> rfl
    · rfl
    · rfl
    · rfl

theorem atLimit_of_drops (h : drops ⟨.publish msg, r, step r (.publish msg)⟩) :
    r.diagnostics.atLimit msg := by
  by_contra hroom
  refine h ?_
  show (publishDiagnostic r msg).diagnostics.dropped = _
  unfold publishDiagnostic DiagnosticQueue.publish
  rw [if_neg hroom]
  split
  · rfl
  · split <;> rfl

theorem open_of_takes (h : takes ⟨e, r, step r e⟩) : r.diagnostics.closed = false := by
  obtain ⟨hw, msg, hcall⟩ := h
  by_contra hc
  have hclosed : r.diagnostics.closed = true := by simpa using hc
  have hw' : r.worker = .checking := hw
  have hsame : (step r e).worker = .checking ∨ (step r e).worker = .leaving := by
    cases e with
    | publish msg => left; simp [step, publishDiagnostic, hclosed, hw']
    | signal =>
      left
      show (signal r).worker = _
      unfold signal
      split <;> exact hw'
    | close => left; simp [step, closeDiagnostics, hclosed, hw']
    | worker turn => right; simp [step, runDiagnostics, take, hclosed, hw']
  rcases hsame with hs | hs
  · exact absurd (hs.symm.trans hcall) (by simp)
  · exact absurd (hs.symm.trans hcall) (by simp)

theorem Inv.lawful (h : Inv r log) (e : Event) : Lawful ⟨e, r, step r e⟩ log where
  dropped := by
    intro hd
    cases e with
    | publish msg => exact ⟨msg, rfl, (atLimit_iff h.bytes h.count msg).1 (atLimit_of_drops hd)⟩
    | signal => exact (hd (dropped_of_not_publish (by simp))).elim
    | close => exact (hd (dropped_of_not_publish (by simp))).elim
    | worker turn => exact (hd (dropped_of_not_publish (by simp))).elim
  taken := by
    intro ht hclosing
    have hopen := open_of_takes ht
    rw [h.closed_iff.2 hclosing] at hopen
    exact absurd hopen (by simp)

/-! ## Every moment -/

theorem acceptedBy_sublist (m : Mark) : (acceptedBy m).Sublist (publishedBy m) := by
  unfold acceptedBy
  split
  · exact List.nil_sublist _
  · exact List.Sublist.refl _

theorem length_published (log : List Mark) :
    (published log).length = (accepted log).length + (dropped log).length := by
  induction log with
  | nil => rfl
  | cons m past ih =>
    have hm : (publishedBy m).length = (acceptedBy m).length + (droppedBy m).length := by
      unfold acceptedBy droppedBy
      split
      · simp
      · simp
    simp only [published, accepted, dropped, gathered_cons, List.length_append] at ih ⊢
    omega

theorem Inv.balanced (h : Inv r log) : Balanced r log where
  fifo := h.fifo
  ordered := gathered_sublist acceptedBy_sublist log
  counted := by
    rw [length_published, h.fifo]
    simp only [List.length_append]
    omega
  dropped_eq := h.dropped_eq
  droppedBytes_eq := h.droppedBytes_eq
  canceled_eq := h.canceled_eq

theorem Inv.bounded (h : Inv r log) : Bounded r.diagnostics where
  count_eq := (length_pending _).symm
  bytes_eq := h.bytes
  count_le := by rw [length_pending]; exact h.count
  bytes_le := by
    have := h.limit
    rw [h.bytes] at this
    exact_mod_cast this

theorem inv_run (interval : Int) (es : List Event) :
    Inv (run interval es).1 (run interval es).2 := by
  have hstep : ∀ r log e, Inv r log → Inv (step r e) (⟨e, r, step r e⟩ :: log) :=
    fun _ _ e h => h.stepped e
  exact run_keeps hstep (Inv.start interval) es

/-- A bounded queue in the order of `Publish`, with an exact account, that never sleeps on a
    message once `Publish` has returned. -/
theorem diagnostics_queue (interval : Int) (es : List Event) :
    Balanced (run interval es).1 (run interval es).2 ∧ Bounded (run interval es).1.diagnostics ∧
      Always Lawful (run interval es).2 ∧ Woken (run interval es).1 := by
  have h := inv_run interval es
  refine ⟨h.balanced, h.bounded, ?_, h.woken⟩
  exact run_always (fun _ _ e h => ⟨h.stepped e, h.lawful e⟩) (Inv.start interval) es

/-- The message is in the ring, the mutex is free, the token is not sent: the worker waits. -/
theorem unsignalled :
    let r := (run 0 [.publish (some [7])]).1
    pending r.diagnostics ≠ [] ∧ r.diagnostics.closed = false ∧
      ¬(r.wake = true ∨ r.worker.awake = true) := by
  decide

end Diagnostics
end Gui
end Mowgli
