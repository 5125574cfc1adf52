import Mowgli.Foxglove.Client
import Mowgli.Lib.History

/-!
# System — the client, its goroutines and the server

The server holds the subscriptions it was sent on the connection, and the channels it has
announced there; **an announcement takes effect where the client handles it**. When it takes a
channel back, it may drop the subscriptions to it or keep them.

Any number of goroutines run operations, and a step is one critical section or one write of one of
them. `subscriptionLocks` is held from the section of `reconcileSubscription` to the end of its
write, so a topic is locked while a message about it is to be written.
-/

namespace Mowgli
namespace Foxglove

open Trace

variable (w : Wire)

/-- What a goroutine does next; `next` are the topics that a `handleAdvertise` has still to go
    through. -/
inductive Job where
  | reconcile (topic : w.Topic) (next : List w.Topic)
  | write (topic : w.Topic) (msg : Message) (next : List w.Topic)
  /-- Read `pendingTopics`. -/
  | snapshot
  | scan (topics : List w.Topic)

structure Server where
  /-- The channel and the schema of a topic. -/
  channels : w.Topic → Option (Nat × w.Schema) := fun _ => none
  /-- The channel of a subscription. -/
  subscriptions : Nat → Option Nat := fun _ => none

namespace Server

variable {w} (σ : Server w)

def advertise (ch : ChannelDef w) : Server w :=
  let schema := (w.parseSchema ch.schema).getD w.emptySchema
  { σ with channels := Function.update σ.channels ch.topic (some (ch.id, schema)) }

def unadvertise (id : Nat) (drops : Bool) : Server w :=
  { channels := fun topic => (σ.channels topic).filter fun ch => ch.1 ≠ id
    subscriptions := fun sub =>
      (σ.subscriptions sub).filter fun channel => !(drops && decide (channel = id)) }

def receive : Message → Server w
  | .subscribe id channelId =>
    { σ with subscriptions := Function.update σ.subscriptions id (some channelId) }
  | .unsubscribe id => { σ with subscriptions := Function.update σ.subscriptions id none }

end Server

/-- Where `reconnectLoop` is. -/
inductive Phase where
  | idle
  | dialed
  | stored
  | cleared
  deriving DecidableEq

structure System where
  client : Client w := {}
  server : Server w := {}
  running : List (Job w) := []
  phase : Phase := .idle
  /-- How many connections there have been. -/
  dials : Nat := 0
  /-- Every write on this connection has succeeded. -/
  clean : Bool := true
  /-- The connection that the channel tables are of. -/
  tableOf : Option Nat := none
  /-- Topics with listeners that lost their channel while nothing was to subscribe them again. -/
  forgotten : List w.Topic := []

inductive Event where
  | subscribe (topic : w.Topic) (id : w.ListenerId) (callback : w.Callback) (intervalMs : Int)
  | unsubscribe (topic : w.Topic) (id : w.ListenerId)
  | advertise (channels : List (ChannelDef w))
  | unadvertise (ids : List (Nat × Bool))
  | messageData (subID : Nat) (payload : w.Payload) (now_ : Int)
  /-- One step of one goroutine; the outcome is that of its write. -/
  | run (goroutine : Nat) (written : Bool)
  /-- `readPump` sees the connection fail. -/
  | lost
  /-- `Connect`. -/
  | connect
  /-- The dial of `reconnectLoop`, and each of its steps. -/
  | dial
  | reconnect

variable {w}

def Job.locks (topic : w.Topic) : Job w → Bool
  | .write t _ _ => t = topic
  | _ => false

/-- A goroutine is about to reconcile a topic. -/
def Job.reconciles (topic : w.Topic) : Job w → Bool
  | .reconcile t _ => t = topic
  | _ => false

namespace System

variable (s : System w)

def start (topic : w.Topic) (r : Client w × Bool) : System w :=
  { s with
    client := r.1
    running := if r.2 then .reconcile topic [] :: s.running else s.running
    forgotten := if r.2 then s.forgotten.filter (· ≠ topic) else s.forgotten }

def advertiseOne (ch : ChannelDef w) : System w :=
  { s with client := s.client.advertise ch, server := s.server.advertise ch }

def unadvertiseOne (id : Nat × Bool) : System w :=
  { s with
    client := s.client.unadvertise id.1
    server := s.server.unadvertise id.1 id.2
    forgotten :=
      match s.client.channelsByID id.1 with
      | none => s.forgotten
      | some topic =>
        if (s.client.listeners topic).isEmpty || decide (topic ∈ s.client.pendingTopics) ||
            s.running.any (Job.reconciles topic) then s.forgotten
        else topic :: s.forgotten }

/-- `writeJSON`. -/
def write (msg : Message) (written : Bool) : System w :=
  match s.client.conn with
  | none => s
  | some _ =>
    if written then { s with server := s.server.receive msg } else { s with clean := false }

/-- The next step of a goroutine that is not among the others any more. -/
def advance (written : Bool) : Job w → System w
  | .reconcile topic next =>
    let r := s.client.reconcileSubscription topic
    { s with
      client := r.1
      running :=
        (match r.2 with
          | none => Job.scan next
          | some msg => Job.write topic msg next) :: s.running }
  | .write _ msg next =>
    let s := s.write msg written
    { s with running := .scan next :: s.running }
  | .snapshot => { s with running := .scan s.client.pendingTopics :: s.running }
  | .scan [] => s
  | .scan (topic :: next) =>
    let job :=
      if (s.client.channels.lookup topic).isSome then Job.reconcile topic next else Job.scan next
    { s with running := job :: s.running }

/-- Another goroutine holds the lock that this job needs. -/
def blocked : Job w → Bool
  | .reconcile topic _ => s.running.any (Job.locks topic)
  | _ => false

/-- `readPump` runs. -/
def pumping : Bool := decide (s.phase = .idle) && s.client.connected

def step : Event w → System w
  | .subscribe topic id callback intervalMs =>
    s.start topic (s.client.subscribe topic id callback intervalMs)
  | .unsubscribe topic id => s.start topic (s.client.unsubscribe topic id)
  | .advertise channels =>
    if s.pumping then
      let s := channels.foldl advertiseOne s
      { s with running := .snapshot :: s.running }
    else s
  | .unadvertise ids => if s.pumping then ids.foldl unadvertiseOne s else s
  | .messageData subID payload now_ =>
    if s.pumping then { s with client := (s.client.handleMessageData subID payload now_).1 } else s
  | .run goroutine written =>
    match s.running[goroutine]? with
    | none => s
    | some job =>
      if s.blocked job then s
      else ({ s with running := s.running.eraseIdx goroutine } : System w).advance written job
  | .lost => if s.pumping then { s with client := s.client.lose } else s
  | .connect =>
    if s.dials = 0 then
      { s with
        client := (s.client.setConn 0).storeConnected
        dials := 1
        tableOf := some 0 }
    else s
  | .dial =>
    if s.phase = .idle ∧ s.client.connected = false then
      { s with
        client := s.client.setConn s.dials
        server := {}
        phase := .dialed
        dials := s.dials + 1
        clean := true }
    else s
  | .reconnect =>
    match s.phase with
    | .idle => s
    | .dialed => { s with client := s.client.storeConnected, phase := .stored }
    | .stored =>
      { s with client := s.client.clearTables, phase := .cleared, tableOf := s.client.conn }
    | .cleared => { s with client := s.client.markPending, phase := .idle, forgotten := [] }

end System

/-! ## What a run is to come to -/

structure Entry (w : Wire) where
  event : Event w
  before : System w
  after : System w

def Entry.mark (e : Event w) (before after : System w) : Entry w := ⟨e, before, after⟩

def history (es : List (Event w)) : List (Entry w) :=
  (History.run System.step Entry.mark ({} : System w) [] es).2

/-- No operation is in progress, the client is connected and every write has succeeded. -/
structure Settled (s : System w) : Prop where
  running : s.running = []
  phase : s.phase = .idle
  connected : s.client.connected = true
  clean : s.clean = true

/-- A frame of a topic that no rate cap drops. -/
def System.passes (s : System w) (topic : w.Topic) (now_ : Int) : Bool :=
  match s.client.decimators.lookup topic with
  | none => true
  | some dec => !decide (0 < dec.intervalNano) || !decide (now_ - dec.lastNano < dec.intervalNano)

/-- The server holds what the listeners want, and its frames reach them. -/
structure Converged (s : System w) : Prop where
  wanted : ∀ topic channel schema, s.server.channels topic = some (channel, schema) →
    s.client.listeners topic ≠ [] →
    ∃ sub, ∀ sub', s.server.subscriptions sub' = some channel ↔ sub' = sub
  unwanted : ∀ sub channel, s.server.subscriptions sub = some channel →
    ∃ topic schema, s.server.channels topic = some (channel, schema) ∧
      s.client.listeners topic ≠ []
  delivered : ∀ sub channel topic schema payload now_ json,
    s.server.subscriptions sub = some channel → s.server.channels topic = some (channel, schema) →
    s.passes topic now_ = true → w.deserialize schema payload = some json →
    (s.client.handleMessageData sub payload now_).2 =
      (s.client.listeners topic).map fun e => (e.callback, json)

/-! ## Where it does -/

/-- A channel that the client can take in: its id is of no other topic, a subscribed topic keeps
    its channel, and a topic with listeners was not forgotten. -/
structure Announceable (s : System w) (ch : ChannelDef w) : Prop where
  sole : ∀ topic state, s.client.channels.lookup topic = some state → state.id = ch.id →
    topic = ch.topic
  kept : ∀ state, s.client.channels.lookup ch.topic = some state → state.subscriptionID ≠ 0 →
    state.id = ch.id
  remembered : ch.topic ∉ s.forgotten

/-- A channel that the client can let go: it is the one the topic has, and the server drops the
    subscription to it. -/
def Removable (s : System w) (id : Nat × Bool) : Prop :=
  ∀ topic, s.client.channelsByID id.1 = some topic →
    ∃ state, s.client.channels.lookup topic = some state ∧ state.id = id.1 ∧
      (state.subscriptionID = 0 ∨ id.2 = true)

/-- Each in the state that those before it leave. -/
def Each {α : Type} (ok : System w → α → Prop) (next : System w → α → System w) :
    System w → List α → Prop
  | _, [] => True
  | s, a :: as => ok s a ∧ Each ok next (next s a) as

/-- A subscription is written on the connection that its channel came from, while the table still
    has both. -/
def Stands (s : System w) (topic : w.Topic) (id channel : Nat) : Prop :=
  s.tableOf = s.client.conn ∧ ∃ state, s.client.channels.lookup topic = some state ∧
    state.subscriptionID = id ∧ state.id = channel

def Prudent (e : Entry w) (_ : List (Entry w)) : Prop :=
  match e.event with
  | .advertise channels => Each Announceable System.advertiseOne e.before channels
  | .unadvertise ids => Each Removable System.unadvertiseOne e.before ids
  | .run goroutine written =>
    match e.before.running[goroutine]? with
    | some (.reconcile _ _) => e.before.client.subIDCounter + 1 < 4294967296
    | some (.write topic (.subscribe id channel) _) =>
      e.before.client.conn ≠ none → written = true → Stands e.before topic id channel
    | _ => True
  | _ => True

end Foxglove
end Mowgli
