import Mowgli.Foxglove.Client
import Mowgli.Lib.History

/-!
# RosProvider — the listeners of the dashboard

`ros.go`: who listens to a logical key, the last message of each, and the one listener of the
bridge that stands for all of a key. Calls run in any number of goroutines, and a step is what one
of them does under `mtx`, or with the client. The read pump takes a frame, copies the listeners of
its topic, and calls them one after the other: **a callback may run after its listener has gone**.
-/

namespace Mowgli
namespace Gui

open Foxglove Trace

/-- Logical keys, ids of listeners, topics and messages. -/
structure Board where
  Key : Type
  Id : Type
  Topic : Type
  Json : Type
  [keyEq : DecidableEq Key]
  [idEq : DecidableEq Id]
  [topicEq : DecidableEq Topic]
  /-- `topicMap`, of the keys that have a message type; the others are virtual. -/
  topicMap : Key → Option Topic
  /-- `foxgloveAdapters`; `none` when the adapter fails. -/
  adapt : Key → Json → Option Json
  upstreamDecimationMs : Key → Int

attribute [instance] Board.keyEq Board.idEq Board.topicEq

/-- The client as the provider uses it: the listener of a key is `"gui-"` and the key, and its
    callback is a closure over the key. -/
abbrev Board.wire (b : Board) : Wire where
  Topic := b.Topic
  ListenerId := b.Key
  Callback := b.Key
  SchemaText := Unit
  Schema := Unit
  Payload := b.Json
  Json := b.Json
  parseSchema := some
  emptySchema := ()
  deserialize := fun _ payload => some payload

variable (b : Board)

/-- A message, and how many frames were received before it. -/
structure Received where
  number : Nat
  json : b.Json

/-- What the goroutine that holds `state.mtx` does next. -/
inductive Phase where
  | check
  | apply (wanted : Bool)
  | note (wanted : Bool)
  deriving DecidableEq

/-- `readPump`: with a frame in hand, or going through a copy of the listeners. -/
inductive Pump where
  | idle
  | frame (topic : b.Topic) (m : Received b)
  | calls (keys : List b.Key) (m : Received b)

structure RosProvider where
  client : Client b.wire := {}
  subscribers : b.Key → List b.Id := fun _ => []
  lastMessage : b.Key → Option (Received b) := fun _ => none
  subscribed : b.Key → Bool := fun _ => false
  /-- The goroutines that wait for `state.mtx`, and the one that holds it. -/
  waiting : b.Key → Nat := fun _ => 0
  holder : b.Key → Option Phase := fun _ => none
  pump : Pump b := .idle
  received : Nat := 0

inductive Event where
  | subscribe (key : b.Key) (id : b.Id)
  | unSubscribe (key : b.Key) (id : b.Id)
  /-- A goroutine takes `state.mtx`, and goes on with it. -/
  | lock (key : b.Key)
  | advance (key : b.Key)
  /-- The pump receives a frame, copies the listeners, and calls the next one. -/
  | receive (topic : b.Topic) (json : b.Json)
  | dispatch
  | call

variable {b}

namespace RosProvider

variable (s : RosProvider b)

/-- The key is not virtual, and its listener is registered with the client. -/
def registered (key : b.Key) : Bool :=
  match b.topicMap key with
  | none => false
  | some topic => (s.client.listeners topic).any fun e => e.id = key

/-- `reconcileFoxgloveSubscription` is called. -/
def reconcile (key : b.Key) : RosProvider b :=
  match b.topicMap key with
  | none => s
  | some _ => { s with waiting := Function.update s.waiting key (s.waiting key + 1) }

/-- What `Subscribe` publishes to the listener at once. -/
def replay (key : b.Key) : Option (Received b) := s.lastMessage key

def subscribe (key : b.Key) (id : b.Id) : RosProvider b :=
  let ids := s.subscribers key
  { s with
    subscribers :=
      Function.update s.subscribers key (if id ∈ ids then ids else ids ++ [id]) }.reconcile key

def unSubscribe (key : b.Key) (id : b.Id) : RosProvider b :=
  if id ∈ s.subscribers key then
    let subs := (s.subscribers key).filter fun i => i ≠ id
    { s with
      subscribers := Function.update s.subscribers key subs
      lastMessage :=
        -- Live telemetry is stale once the last listener leaves.
        if subs.isEmpty && (b.topicMap key).isSome then Function.update s.lastMessage key none
        else s.lastMessage }.reconcile key
  else s

def wanted (key : b.Key) : Bool := !(s.subscribers key).isEmpty

/-- `subscribeFoxglove` or `Unsubscribe`; neither fails. The wire follows the listeners by
    itself. -/
def applyClient (key : b.Key) (wanted : Bool) : Client b.wire :=
  match b.topicMap key with
  | none => s.client
  | some topic =>
    if wanted then (s.client.subscribe topic key key (b.upstreamDecimationMs key)).1
    else (s.client.unsubscribe topic key).1

/-- The loop of `reconcileFoxgloveSubscription`. -/
def advance (key : b.Key) : RosProvider b :=
  match s.holder key with
  | none => s
  | some .check =>
    let next := if s.wanted key = s.subscribed key then none else some (.apply (s.wanted key))
    { s with holder := Function.update s.holder key next }
  | some (.apply wanted) =>
    { s with
      client := s.applyClient key wanted
      holder := Function.update s.holder key (some (.note wanted)) }
  | some (.note wanted) =>
    { s with
      subscribed := Function.update s.subscribed key wanted
      holder := Function.update s.holder key (some .check) }

/-- `fanOut`: the callback of a key, after its adapter. -/
def fanOut (key : b.Key) (m : Received b) : RosProvider b :=
  match b.adapt key m.json with
  | none => s
  | some adapted =>
    { s with lastMessage := Function.update s.lastMessage key (some ⟨m.number, adapted⟩) }

def step : Event b → RosProvider b
  | .subscribe key id => s.subscribe key id
  | .unSubscribe key id => s.unSubscribe key id
  | .lock key =>
    if 0 < s.waiting key ∧ s.holder key = none then
      { s with
        waiting := Function.update s.waiting key (s.waiting key - 1)
        holder := Function.update s.holder key (some .check) }
    else s
  | .advance key => s.advance key
  | .receive topic json =>
    match s.pump with
    | .idle => { s with pump := .frame topic ⟨s.received, json⟩, received := s.received + 1 }
    | _ => s
  | .dispatch =>
    match s.pump with
    | .frame topic m => { s with pump := .calls ((s.client.listeners topic).map (·.callback)) m }
    | _ => s
  | .call =>
    match s.pump with
    | .calls (key :: keys) m => { s.fanOut key m with pump := .calls keys m }
    | .calls [] _ => { s with pump := .idle }
    | _ => s

/-- No call is in progress. -/
def Quiet : Prop := ∀ key, s.waiting key = 0 ∧ s.holder key = none

end RosProvider

structure Entry (b : Board) where
  event : Event b
  before : RosProvider b
  after : RosProvider b

def Entry.mark (e : Event b) (before after : RosProvider b) : Entry b := ⟨e, before, after⟩

def history (es : List (Event b)) : List (Entry b) :=
  (History.run RosProvider.step Entry.mark ({} : RosProvider b) [] es).2

def after (es : List (Event b)) : RosProvider b :=
  (History.run RosProvider.step Entry.mark ({} : RosProvider b) [] es).1

end Gui
end Mowgli
