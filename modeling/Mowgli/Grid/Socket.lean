import Mathlib.Algebra.Order.Ring.Rat
import Mowgli.Lib.Delta

/-!
# Socket — the occupancy grids of a browser tab

The server's side of a delta topic, `grid_delta.go` and the subscriptions of `MultiplexRoute`,
and the browser's, `multiplexedSocket.ts`. The two are joined by a connection: what the browser
sends arrives in order, what the server sends arrives in order too, **but any frame may be
lost**. A connection that ends takes everything with it.

The subscriptions of the server are numbered here, which neither side knows: both count frames
from 1 in every subscription. The newest one is the current one.
-/

namespace Mowgli
namespace Grid

/-- `nav_msgs/OccupancyGrid`. The header, the origin and the load time are passed through. -/
structure OccupancyGrid (J : Type) where
  header : J
  resolution : ℚ
  width : UInt32
  height : UInt32
  origin : J
  mapLoadTime : J
  data : List Int
deriving DecidableEq

/-- A message of the topic, decodable or not. -/
inductive Message (J : Type)
  | grid (w : OccupancyGrid J)
  | other (raw : J)

/-- The grid of a message, when `gridWire` takes it: cells are `int8`, and there are some. -/
def Message.wire {J : Type} : Message J → Option (OccupancyGrid J)
  | .grid w => if w.data ≠ [] ∧ ∀ v ∈ w.data, -128 ≤ v ∧ v ≤ 127 then some w else none
  | .other _ => none

inductive Frame (J : Type)
  | full (seq : Nat) (raw : OccupancyGrid J)
  | patch (base seq : Nat) (header : J) (gaps vals : List Int)
  /-- A message as it is, without a number. -/
  | plain (raw : Message J)

/-! ## The server -/

def gridDeltaFullEvery : Nat := 30
def gridDeltaMaxFraction : Nat := 4

structure GridDelta (J : Type) where
  seq : Nat
  cells : Option (List Int)
  width : UInt32
  height : UInt32
  res : ℚ
  origin : Option J
  sinceFull : Nat
  last : Option (OccupancyGrid J)

namespace GridDelta

variable {J : Type} [DecidableEq J]

/-- `gridDelta{}`. -/
def zero : GridDelta J :=
  { seq := 0, cells := none, width := 0, height := 0, res := 0, origin := none, sinceFull := 0,
    last := none }

def remember (g : GridDelta J) (w : OccupancyGrid J) : GridDelta J :=
  { g with
    cells := some w.data
    width := w.width
    height := w.height
    res := w.resolution
    origin := some w.origin
    last := some w }

def sameShape (g : GridDelta J) (w : OccupancyGrid J) : Bool :=
  (g.cells.any fun cells => w.data.length == cells.length) && w.width == g.width &&
    w.height == g.height && w.resolution == g.res && some w.origin == g.origin

/-- `next`, of a message that decodes. -/
def next (g : GridDelta J) (w : OccupancyGrid J) : GridDelta J × Frame J :=
  let changes := Delta.diff (g.cells.getD []) w.data
  if g.sameShape w && decide (g.sinceFull < gridDeltaFullEvery) &&
      decide (changes.length * gridDeltaMaxFraction ≤ w.data.length) then
    ({ g with seq := g.seq + 1, sinceFull := g.sinceFull + 1 }.remember w,
      .patch g.seq (g.seq + 1) w.header (changes.map Prod.fst) (changes.map Prod.snd))
  else
    ({ g with seq := g.seq + 1, sinceFull := 0 }.remember w, .full (g.seq + 1) w)

def resync (g : GridDelta J) : Option (GridDelta J × Frame J) :=
  g.last.map fun last => ({ g with seq := g.seq + 1, sinceFull := 0 }, .full (g.seq + 1) last)

end GridDelta

/-! ## The browser -/

inductive Op
  | subscribe
  | unsubscribe
  | resync

/-- The grid the browser holds, and the subscription it is from. -/
structure Held (J : Type) where
  sub : Nat
  seq : Nat
  grid : OccupancyGrid J

/-- One topic of a `MultiplexedSocket`. -/
structure Browser (J : Type) where
  isOpen : Bool
  hidden : Bool
  /-- The topic has listeners. -/
  listening : Bool
  held : Option (Held J)
  resyncing : Bool

/-- What became of a frame that arrived, while `current` was the current subscription. -/
inductive Mark (J : Type)
  /-- Handed to the listeners in full. -/
  | full (current seq : Nat) (grid : OccupancyGrid J)
  /-- A patch was applied to `old`, and the result handed on. -/
  | patched (current base seq : Nat) (old grid : OccupancyGrid J)
  | rejected (current base : Nat)
  | plain (raw : Message J)

namespace Browser

variable {J : Type}

/-- What `send` sends. -/
def sends (b : Browser J) (op : Op) : List Op := if b.isOpen then [op] else []

/-- `isServed`, for a topic that is or is not paused in a hidden tab. -/
def isServed (paused : Bool) (b : Browser J) : Bool := !(b.hidden && paused)

def setHidden (paused : Bool) (b : Browser J) (hidden : Bool) : Browser J × List Op :=
  if hidden == b.hidden then (b, [])
  else
    ({ b with hidden := hidden },
      if b.isOpen && b.listening && paused then [if hidden then .unsubscribe else .subscribe] else [])

/-- The first listener. -/
def subscribe (paused : Bool) (b : Browser J) : Browser J × List Op :=
  ({ b with listening := true },
    if b.isOpen && !b.listening && b.isServed paused then [.subscribe] else [])

def forgetGrid (b : Browser J) : Browser J := { b with held := none, resyncing := false }

/-- The last listener leaves. -/
def unsubscribe (paused : Bool) (b : Browser J) : Browser J × List Op :=
  if b.listening then
    ({ b with listening := false }.forgetGrid,
      if b.isOpen && b.isServed paused then [.unsubscribe] else [])
  else (b, [])

/-- `ws.onopen`. -/
def onopen (paused : Bool) (b : Browser J) : Browser J × List Op :=
  if b.isOpen then (b, [])
  else
    ({ b with isOpen := true }, if b.listening && b.isServed paused then [.subscribe] else [])

def disconnect (b : Browser J) : Browser J := { b with isOpen := false }.forgetGrid

def requestFullGrid (b : Browser J) : Browser J × List Op :=
  if b.resyncing then ({ b with held := none }, [])
  else ({ b with held := none, resyncing := true }, b.sends .resync)

def rememberGrid (b : Browser J) (sub seq : Nat) (grid : OccupancyGrid J) : Browser J :=
  { b with resyncing := false, held := some { sub := sub, seq := seq, grid := grid } }

/-- The cells of the held grid with a patch applied, when it fits. -/
def patched (b : Browser J) (base : Nat) (gaps vals : List Int) : Option (Held J × List Int) :=
  match b.held with
  | none => none
  | some held =>
    if held.seq ≠ base ∨ gaps.length ≠ vals.length then none
    else (Delta.apply held.grid.data (gaps.zip vals)).map fun data => (held, data)

/-- `ws.onmessage`, of a frame of subscription `sub`. -/
def onmessage (b : Browser J) (current sub : Nat) (f : Frame J) :
    Browser J × List Op × List (Mark J) :=
  if !b.listening then (b, [], [])
  else
    match f with
    | .plain raw => (b, [], [.plain raw])
    | .full seq raw => (b.rememberGrid sub seq raw, [], [.full current seq raw])
    | .patch base seq header gaps vals =>
      match b.patched base gaps vals with
      | none => (b.requestFullGrid.1, b.requestFullGrid.2, [.rejected current base])
      | some (held, data) =>
        let grid := { held.grid with header := header, data := data }
        ({ b with held := some { held with seq := seq, grid := grid } }, [],
          [.patched current base seq held.grid grid])

end Browser

/-! ## Both, and the connection between them -/

structure System (J : Type) where
  /-- The subscription, and its number. -/
  server : Option (Nat × GridDelta J)
  /-- The number of the current subscription: how many there were. -/
  current : Nat
  browser : Browser J
  up : List Op
  /-- Frames on their way, each of a subscription. -/
  down : List (Nat × Frame J)
  /-- Which message each subscription sent under each number. -/
  sent : List (Nat × Nat × OccupancyGrid J)
  log : List (Mark J)

inductive Event (J : Type)
  /-- The topic has a new message. -/
  | publish (m : Message J)
  /-- The server takes the browser's next op. A subscription may fail upstream. -/
  | serve (fails : Bool)
  /-- The next frame arrives. -/
  | deliver
  /-- A frame on its way is lost. -/
  | lose (i : Nat)
  | setHidden (hidden : Bool)
  | subscribe
  | unsubscribe
  | onopen
  | disconnect

namespace System

variable {J : Type} [DecidableEq J] (paused : Bool)

def boot (hidden : Bool) : System J :=
  { server := none, current := 0
    browser := { isOpen := false, hidden := hidden, listening := false, held := none,
                 resyncing := false }
    up := [], down := [], sent := [], log := [] }

/-- The browser acts, and sends its ops. -/
def act (σ : System J) (r : Browser J × List Op) : System J :=
  { σ with browser := r.1, up := σ.up ++ r.2 }

/-- The server sends a frame for a message. -/
def send (σ : System J) (sub : Nat) (g : GridDelta J) (f : Frame J) (w : OccupancyGrid J) :
    System J :=
  { σ with server := some (sub, g), down := σ.down ++ [(sub, f)], sent := (sub, g.seq, w) :: σ.sent }

def publish (σ : System J) (m : Message J) : System J :=
  match σ.server with
  | none => σ
  | some (sub, g) =>
    match m.wire with
    | none => { σ with down := σ.down ++ [(sub, .plain m)] }
    | some w => σ.send sub (g.next w).1 (g.next w).2 w

def serve (σ : System J) (fails : Bool) : Op → System J
  | .subscribe =>
    match σ.server with
    | some _ => σ
    | none =>
      if fails then σ
      else { σ with server := some (σ.current + 1, .zero), current := σ.current + 1 }
  | .unsubscribe => { σ with server := none }
  | .resync =>
    match σ.server with
    | none => σ
    | some (sub, g) =>
      match g.resync, g.last with
      | some (g', f), some w => σ.send sub g' f w
      | _, _ => σ

def deliver (σ : System J) : System J :=
  match σ.down with
  | [] => σ
  | (sub, f) :: rest =>
    let r := σ.browser.onmessage σ.current sub f
    { σ with browser := r.1, up := σ.up ++ r.2.1, down := rest, log := r.2.2 ++ σ.log }

def step (σ : System J) : Event J → System J
  | .publish m => σ.publish m
  | .serve fails =>
    match σ.up with
    | [] => σ
    | op :: rest => { σ with up := rest }.serve fails op
  | .deliver => σ.deliver
  | .lose i => { σ with down := σ.down.eraseIdx i }
  | .setHidden hidden => σ.act (σ.browser.setHidden paused hidden)
  | .subscribe => σ.act (σ.browser.subscribe paused)
  | .unsubscribe => σ.act (σ.browser.unsubscribe paused)
  | .onopen => σ.act (σ.browser.onopen paused)
  | .disconnect =>
    { σ with server := none, browser := σ.browser.disconnect, up := [], down := [] }

def run (σ : System J) (es : List (Event J)) : System J := es.foldl (step paused) σ

end System

end Grid
end Mowgli
