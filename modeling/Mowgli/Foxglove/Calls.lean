import Mathlib.Data.List.AList
import Mowgli.Lib.Endian
import Mowgli.Lib.History

/-!
# Calls — service calls on the wire of a foxglove bridge

`client.go`: `CallService`, the read pump that routes answers by their call id, the failure of
what is pending when a connection is lost, and the loop that dials again. Calls, pumps and the
loop are goroutines, and a step is what one of them does between two moments at which another
could tell. `Close` is left out: the dashboard never closes its client.

A call is known by its number, which also stands for its response channel.
-/

namespace Mowgli
namespace Foxglove
namespace Calls

open Trace

/-- Arguments, schemas and JSON. -/
structure Api where
  Args : Type
  Schema : Type
  Json : Type
  parseSchema : String → Except String Schema
  /-- `json.Marshal` and `SerializeCDR`; an error names the one that failed. -/
  serialize : Args → Schema → Except String (List UInt8)
  /-- `DeserializeCDR` and `json.Marshal`, in the same way. -/
  deserialize : List UInt8 → Schema → Except String Json
  /-- `json.RawMessage`. -/
  raw : List UInt8 → Json

structure ServiceDef where
  id : UInt32
  name : String
  request : String
  response : String

/-- `serviceCallResult`: a success has data, a failure has a message. -/
inductive Result where
  | success (data : List UInt8)
  | failure (message : String)
  deriving DecidableEq

variable (a : Api)

/-- Where `CallService` stands. -/
inductive Phase where
  | entered
  | ready (svc : ServiceDef) (cdrData : List UInt8)
  | numbered (svc : ServiceDef) (cdrData : List UInt8) (callID : UInt32)
  | registered (svc : ServiceDef) (cdrData : List UInt8) (callID : UInt32)
  | waiting (svc : ServiceDef) (callID : UInt32)
  /-- The deferred `delete` is ahead. -/
  | leaving (callID : UInt32) (outcome : Except String a.Json)
  | returned (callID : Option UInt32) (outcome : Except String a.Json)

structure Call where
  service : String
  args : a.Args
  phase : Phase a
  /-- A channel of one. -/
  respCh : Option Result := none

/-- `readPump`, by the connection it reads from. -/
inductive Pump where
  | starting
  | reading (conn : Nat)
  /-- `callID` and what it was sent, before the lookup. -/
  | routing (conn : Nat) (callID : UInt32) (result : Result)
  | answering (conn : Nat) (call : Nat) (result : Result)
  /-- In `failPendingCalls`, under `connMu` and `svcMu`. -/
  | failing (conn : Nat) (left : List Nat)
  /-- Still under `connMu`. -/
  | closing (conn : Nat)
  deriving DecidableEq

/-- `Connect`, and `reconnectLoop` after it. -/
inductive Loop where
  | connecting
  | waiting
  | dialing
  /-- The connection is set, but not yet `connected`. -/
  | installed (first : Bool)
  | marked (first : Bool)
  | cleared
  deriving DecidableEq

structure ServiceClient where
  conn : Option Nat := none
  connected : Bool := false
  /-- The connections there have been. -/
  dialed : Nat := 0
  services : String → Option ServiceDef := fun _ => none
  servicesByID : UInt32 → Option ServiceDef := fun _ => none
  pendingSvc : AList fun _ : UInt32 => Nat := ∅
  callIDCounter : UInt32 := 0
  calls : List (Call a) := []
  pumps : List Pump := []
  loop : Loop := .connecting

inductive CallEvent where
  | prepare
  | number
  | register
  /-- `writeMessage`, and the error of the socket. -/
  | write (err : Option String)
  | expire (err : String)
  | take
  | leave

/-- A text frame that concerns services. -/
inductive Text where
  | advertiseServices (services : List ServiceDef)
  | unadvertiseServices (ids : List UInt32)
  | serviceCallFailure (callID : UInt32) (message : String)

inductive PumpEvent where
  | start
  | binary (data : List UInt8)
  | text (msg : Text)
  | lookup
  | send
  /-- `ReadMessage` fails, and the pump has its locks. -/
  | lose
  | fail (call : Nat)
  | release
  | close

inductive LoopEvent where
  | dial (ok : Bool)
  | poll
  | proceed

inductive Event where
  | callService (service : String) (args : a.Args)
  | call (n : Nat) (e : CallEvent)
  | pump (i : Nat) (e : PumpEvent)
  | loop (e : LoopEvent)

variable {a}

def Pump.holdsSvcMu : Pump → Bool
  | .failing _ _ => true
  | _ => false

def Pump.holdsConnMu : Pump → Bool
  | .failing _ _ => true
  | .closing _ => true
  | _ => false

def errorText (service what : String) : String :=
  "foxglove: CallService " ++ service ++ ": " ++ what

def lostReason : String := "connection to foxglove_bridge lost before the response arrived"

/-- `handleServiceCallResponse` before its lookup: the call id and the response. -/
def parseResponse (data : List UInt8) : Option (UInt32 × List UInt8) :=
  if data.length < 12 then none
  else
    let callID := UInt32.ofNat (Endian.ofLittle ((data.drop 4).take 4))
    let offset := 12 + Endian.ofLittle ((data.drop 8).take 4)
    if data.length < offset then none else some (callID, data.drop offset)

/-- `dispatchBinary`: what a frame answers, if it is a response. -/
def dispatchBinary : List UInt8 → Option (UInt32 × List UInt8)
  | [] => none
  | opcode :: data => if opcode = 0x03 then parseResponse data else none

namespace ServiceClient

variable (s : ServiceClient a)

def svcMuHeld : Bool := s.pumps.any Pump.holdsSvcMu

def connMuHeld : Bool := s.pumps.any Pump.holdsConnMu

def setCall (n : Nat) (c : Call a) : ServiceClient a := { s with calls := s.calls.set n c }

def setPump (i : Nat) (p : Pump) : ServiceClient a := { s with pumps := s.pumps.set i p }

def endPump (i : Nat) : ServiceClient a := { s with pumps := s.pumps.eraseIdx i }

/-- A send that does not block. -/
def offer (n : Nat) (r : Result) : ServiceClient a :=
  match s.calls[n]? with
  | none => s
  | some c =>
    match c.respCh with
    | none => s.setCall n { c with respCh := some r }
    | some _ => s

/-! ## `CallService` -/

def callService (service : String) (args : a.Args) : ServiceClient a :=
  let phase : Phase a :=
    if s.connected then .entered
    else .returned none (.error (errorText service "not connected"))
  { s with calls := s.calls ++ [{ service := service, args := args, phase := phase }] }

/-- The service, its request schema, and the arguments in it. -/
def prepare (service : String) (args : a.Args) : Phase a :=
  match s.services service with
  | none => .returned none (.error (errorText service "service not advertised"))
  | some svc =>
    match a.parseSchema svc.request with
    | .error err =>
      .returned none (.error (errorText service ("parse request schema: " ++ err)))
    | .ok reqSchema =>
      match a.serialize args reqSchema with
      | .error err => .returned none (.error (errorText service err))
      | .ok cdrData => .ready svc cdrData

/-- What `CallService` makes of its result. -/
def outcome (service : String) (svc : ServiceDef) : Result → Except String a.Json
  | .failure message => .error (errorText service ("service returned failure: " ++ message))
  | .success data =>
    match a.parseSchema svc.response with
    -- the raw data, where the schema cannot be parsed
    | .error _ => .ok (a.raw data)
    | .ok respSchema =>
      match a.deserialize data respSchema with
      | .error err => .error (errorText service err)
      | .ok json => .ok json

/-- `writeMessage`, under `connMu`. -/
def writeMessage (svc : ServiceDef) (callID : UInt32) (err : Option String) : Phase a :=
  match s.conn, err with
  | none, _ =>
    .leaving callID (.error "foxglove: CallService send: foxglove: write: no connection")
  | some _, some err => .leaving callID (.error ("foxglove: CallService send: " ++ err))
  | some _, none => .waiting svc callID

def stepCall (n : Nat) (e : CallEvent) : ServiceClient a :=
  match s.calls[n]? with
  | none => s
  | some c =>
    match c.phase, e with
    | .entered, .prepare => s.setCall n { c with phase := s.prepare c.service c.args }
    | .ready svc cdrData, .number =>
      -- `atomic.Uint32`
      let callID := s.callIDCounter + 1
      { s with callIDCounter := callID }.setCall n
        { c with phase := .numbered svc cdrData callID }
    | .numbered svc cdrData callID, .register =>
      if s.svcMuHeld then s
      else
        { s with pendingSvc := s.pendingSvc.insert callID n }.setCall n
          { c with phase := .registered svc cdrData callID }
    | .registered svc _ callID, .write err =>
      if s.connMuHeld then s else s.setCall n { c with phase := s.writeMessage svc callID err }
    | .waiting _ callID, .expire err =>
      s.setCall n { c with phase := .leaving callID (.error (errorText c.service err)) }
    | .waiting svc callID, .take =>
      match c.respCh with
      | none => s
      | some r =>
        s.setCall n
          { c with phase := .leaving callID (outcome c.service svc r), respCh := none }
    | .leaving callID out, .leave =>
      if s.svcMuHeld then s
      else
        { s with pendingSvc := s.pendingSvc.erase callID }.setCall n
          { c with phase := .returned (some callID) out }
    | _, _ => s

/-! ## `readPump` -/

def handleAdvertiseServices (services : List ServiceDef) : ServiceClient a :=
  services.foldl (fun s svc =>
    { s with
      services := Function.update s.services svc.name (some svc)
      servicesByID := Function.update s.servicesByID svc.id (some svc) }) s

def handleUnadvertiseServices (ids : List UInt32) : ServiceClient a :=
  ids.foldl (fun s id =>
    match s.servicesByID id with
    | none => s
    | some svc =>
      { s with
        services := Function.update s.services svc.name none
        servicesByID := Function.update s.servicesByID id none }) s

def stepPump (i : Nat) (e : PumpEvent) : ServiceClient a :=
  match s.pumps[i]? with
  | none => s
  | some p =>
    match p, e with
    | .starting, .start =>
      if s.connMuHeld then s
      else
        match s.conn with
        | none => s.endPump i
        | some k => s.setPump i (.reading k)
    | .reading k, .binary data =>
      match dispatchBinary data with
      | none => s
      | some response => s.setPump i (.routing k response.1 (.success response.2))
    | .reading _, .text (.advertiseServices services) => s.handleAdvertiseServices services
    | .reading _, .text (.unadvertiseServices ids) => s.handleUnadvertiseServices ids
    | .reading k, .text (.serviceCallFailure callID message) =>
      s.setPump i (.routing k callID (.failure message))
    | .routing k callID r, .lookup =>
      if s.svcMuHeld then s
      else
        match s.pendingSvc.lookup callID with
        | none => s.setPump i (.reading k)
        | some n => s.setPump i (.answering k n r)
    | .answering k n r, .send => (s.offer n r).setPump i (.reading k)
    | .reading k, .lose =>
      if s.connMuHeld || s.svcMuHeld then s
      else if s.conn = some k then
        s.setPump i (.failing k (s.pendingSvc.entries.map Sigma.snd))
      else s.endPump i
    | .failing k left, .fail n =>
      -- a map is ranged over in any order
      if left.contains n then
        (s.offer n (.failure lostReason)).setPump i (.failing k (left.erase n))
      else s
    | .failing k [], .release => s.setPump i (.closing k)
    | .closing _, .close => { s with conn := none, connected := false }.endPump i
    | _, _ => s

/-! ## `Connect` and `reconnectLoop` -/

def install (first : Bool) : ServiceClient a :=
  if s.connMuHeld then s
  else { s with conn := some s.dialed, dialed := s.dialed + 1, loop := .installed first }

/-- `go c.readPump()` -/
def spawn : ServiceClient a := { s with pumps := s.pumps ++ [.starting], loop := .waiting }

def stepLoop (e : LoopEvent) : ServiceClient a :=
  match s.loop, e with
  | .connecting, .dial true => s.install true
  | .connecting, .dial false => { s with loop := .waiting }
  | .waiting, .poll => if s.connected then s else { s with loop := .dialing }
  | .dialing, .dial true => s.install false
  | .dialing, .dial false => { s with loop := .waiting }
  | .installed first, .proceed => { s with connected := true, loop := .marked first }
  | .marked true, .proceed => s.spawn
  | .marked false, .proceed =>
    { s with services := fun _ => none, servicesByID := fun _ => none, loop := .cleared }
  | .cleared, .proceed => s.spawn
  | _, _ => s

def step : Event a → ServiceClient a
  | .callService service args => s.callService service args
  | .call n e => s.stepCall n e
  | .pump i e => s.stepPump i e
  | .loop e => s.stepLoop e

end ServiceClient

structure Entry (a : Api) where
  event : Event a
  before : ServiceClient a
  after : ServiceClient a

def Entry.mark (e : Event a) (before after : ServiceClient a) : Entry a := ⟨e, before, after⟩

def history (es : List (Event a)) : List (Entry a) :=
  (History.run ServiceClient.step Entry.mark ({} : ServiceClient a) [] es).2

def after (es : List (Event a)) : ServiceClient a :=
  (History.run ServiceClient.step Entry.mark ({} : ServiceClient a) [] es).1

end Calls
end Foxglove
end Mowgli
