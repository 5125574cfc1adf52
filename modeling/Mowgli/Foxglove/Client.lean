import Mathlib.Data.List.AList

/-!
# Client — subscriptions on the wire of a foxglove bridge

`client.go`: what listeners want, the channels the server advertised and the subscriptions sent
for them. Every function below is what one goroutine does while it holds the locks, so it is one
step; between two of them any other goroutine may run.

A Go map with a range loop is an `AList`, and what the loop finds does not depend on its order.
-/

namespace Mowgli
namespace Foxglove

/-- Topics, ids of listeners, callbacks, texts of schemas, schemas, payloads and JSON. -/
structure Wire where
  Topic : Type
  ListenerId : Type
  Callback : Type
  SchemaText : Type
  Schema : Type
  Payload : Type
  Json : Type
  [topicEq : DecidableEq Topic]
  [listenerEq : DecidableEq ListenerId]
  /-- `ParseSchema`; an error leaves the empty schema. -/
  parseSchema : SchemaText → Option Schema
  emptySchema : Schema
  /-- `DeserializeCDR` and `json.Marshal`; `none` when either fails. -/
  deserialize : Schema → Payload → Option Json

attribute [instance] Wire.topicEq Wire.listenerEq

variable (w : Wire)

structure SubscriberEntry where
  id : w.ListenerId
  callback : w.Callback

structure TopicDecimator where
  intervalNano : Int
  lastNano : Int

structure ChannelDef where
  id : Nat
  topic : w.Topic
  schema : w.SchemaText

structure ChannelState where
  id : Nat
  schema : w.Schema
  /-- 0 = not subscribed. -/
  subscriptionID : Nat

inductive Message where
  | subscribe (id channelId : Nat)
  | unsubscribe (id : Nat)
  deriving DecidableEq

structure Client where
  /-- The connection that writes go to. -/
  conn : Option Nat := none
  connected : Bool := false
  channels : AList fun _ : w.Topic => ChannelState w := ∅
  /-- Of the state behind a channel id, its topic. -/
  channelsByID : Nat → Option w.Topic := fun _ => none
  subscribers : AList fun _ : w.Topic => List (SubscriberEntry w) := ∅
  pendingTopics : List w.Topic := []
  decimators : AList fun _ : w.Topic => TopicDecimator := ∅
  subIDCounter : Nat := 0

variable {w}

/-- The entry of an id with another callback. -/
def setCallback (id : w.ListenerId) (callback : w.Callback) :
    List (SubscriberEntry w) → List (SubscriberEntry w)
  | [] => []
  | e :: entries =>
    if e.id = id then ⟨id, callback⟩ :: entries else e :: setCallback id callback entries

namespace Client

variable (c : Client w)

def listeners (topic : w.Topic) : List (SubscriberEntry w) := (c.subscribers.lookup topic).getD []

def pend (topic : w.Topic) : Client w := { c with pendingTopics := topic :: c.pendingTopics }

def unpend (topic : w.Topic) : Client w :=
  { c with pendingTopics := c.pendingTopics.filter fun t => t ≠ topic }

def setSubscription (topic : w.Topic) (ch : ChannelState w) (id : Nat) : Client w :=
  { c with channels := c.channels.insert topic { ch with subscriptionID := id } }

/-- `Subscribe`, and whether it goes on to reconcile. -/
def subscribe (topic : w.Topic) (id : w.ListenerId) (callback : w.Callback) (intervalMs : Int) :
    Client w × Bool :=
  let c :=
    if 0 < intervalMs then
      { c with decimators := c.decimators.insert topic ⟨intervalMs * 1000000, 0⟩ }
    else c
  let entries := c.listeners topic
  if entries.any fun e => e.id = id then
    ({ c with subscribers := c.subscribers.insert topic (setCallback id callback entries) }, false)
  else ({ c with subscribers := c.subscribers.insert topic (entries ++ [⟨id, callback⟩]) }, true)

/-- `Unsubscribe`, and whether it goes on to reconcile. -/
def unsubscribe (topic : w.Topic) (id : w.ListenerId) : Client w × Bool :=
  match c.subscribers.lookup topic with
  | none => (c, false)
  | some entries =>
    let filtered := entries.filter fun e => e.id ≠ id
    if filtered.isEmpty then ({ c with subscribers := c.subscribers.erase topic }, true)
    else ({ c with subscribers := c.subscribers.insert topic filtered }, true)

/-- The critical section of `reconcileSubscription`, and the message it leaves to write. -/
def reconcileSubscription (topic : w.Topic) : Client w × Option Message :=
  if (c.listeners topic).isEmpty then
    let c := c.unpend topic
    match c.channels.lookup topic with
    | none => (c, none)
    | some ch =>
      if ch.subscriptionID = 0 then (c, none)
      else
        (c.setSubscription topic ch 0,
          if c.connected then some (.unsubscribe ch.subscriptionID) else none)
  else
    match c.channels.lookup topic with
    | none => (c.pend topic, none)
    | some ch =>
      if c.connected then
        let c := c.unpend topic
        if ch.subscriptionID = 0 then
          -- `atomic.Uint32`
          let subID := (c.subIDCounter + 1) % 4294967296
          ({ c with subIDCounter := subID }.setSubscription topic ch subID,
            some (.subscribe subID ch.id))
        else (c, none)
      else (c.pend topic, none)

/-- One channel of `handleAdvertise`. -/
def advertise (ch : ChannelDef w) : Client w :=
  let state : ChannelState w :=
    { id := ch.id
      schema := (w.parseSchema ch.schema).getD w.emptySchema
      -- An existing subscription is preserved.
      subscriptionID :=
        match c.channels.lookup ch.topic with
        | none => 0
        | some prev => prev.subscriptionID }
  { c with
    channels := c.channels.insert ch.topic state
    channelsByID := Function.update c.channelsByID ch.id (some ch.topic) }

/-- One channel of `handleUnadvertise`. -/
def unadvertise (id : Nat) : Client w :=
  match c.channelsByID id with
  | none => c
  | some topic =>
    { c with
      channels := c.channels.erase topic
      channelsByID := Function.update c.channelsByID id none }

/-- `handleMessageData` and `dispatchToSubscribers`, with nothing in between: the calls of
    callbacks. -/
def handleMessageData (subID : Nat) (payload : w.Payload) (now_ : Int) :
    Client w × List (w.Callback × w.Json) :=
  match c.channels.entries.find? fun e => e.2.subscriptionID = subID with
  | none => (c, [])
  | some ⟨topic, ch⟩ =>
    let dispatch (c : Client w) : Client w × List (w.Callback × w.Json) :=
      match w.deserialize ch.schema payload with
      | none => (c, [])
      | some json => (c, (c.listeners topic).map fun e => (e.callback, json))
    match c.decimators.lookup topic with
    | none => dispatch c
    | some dec =>
      if 0 < dec.intervalNano then
        if now_ - dec.lastNano < dec.intervalNano then (c, [])
        else
          dispatch { c with decimators := c.decimators.insert topic ⟨dec.intervalNano, now_⟩ }
      else dispatch c

/-! ## Connections -/

/-- The end of `readPump`. -/
def lose : Client w := { c with conn := none, connected := false }

/-- `reconnectLoop` after a dial, one critical section after the other. -/
def setConn (number : Nat) : Client w := { c with conn := some number }

def storeConnected : Client w := { c with connected := true }

def clearTables : Client w := { c with channels := ∅, channelsByID := fun _ => none }

def markPending : Client w :=
  { c with pendingTopics :=
      (c.subscribers.keys.filter fun t => !(c.listeners t).isEmpty) ++ c.pendingTopics }

end Client

end Foxglove
end Mowgli
