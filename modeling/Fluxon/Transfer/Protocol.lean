import Fluxon.Foundations.Panic
import Fluxon.OwnerSegment.Types
import Mathlib.Data.Finset.Card
import Mathlib.Logic.Function.Basic

/-!
# Owner transfers

The request path of owner transfers: the caller's acknowledgement stream
(`OwnerTransferPeerTracker`) and the receiver's singleflight tables
(`handle_owner_segment_transfer`). Every item whose terminal the receiver caches carries a sequence
number of the stream; the caller acknowledges a complete prefix of sequences with the watermark of
a later request, and the receiver then forgets the completed flights of that prefix.

The capabilities and plans that an item carries are only compared by the code modelled here; they
are a parameter `P`. The receiver's tables are maps.
-/

namespace Fluxon.Transfer

open OwnerSegment Call

/-! ## Requests -/

/-- `OwnerSegmentTransferItem`. -/
inductive TransferItem (P : Type)
  | invalid
  | getToTarget (op : OwnerTransferOpId) (capabilities : P)
  | putFromSource (op : OwnerTransferOpId) (targetAttempt : ℕ) (plan : P)
  | prepareTarget (op : OwnerTransferOpId) (target : P)
  | commitTarget (op : OwnerTransferOpId) (target : P)
  | abortTarget (op : OwnerTransferOpId) (target : P)
  deriving DecidableEq

namespace TransferItem

variable {P : Type}

def opId : TransferItem P → Option OwnerTransferOpId
  | invalid => none
  | getToTarget op _ | putFromSource op _ _ | prepareTarget op _ | commitTarget op _
  | abortTarget op _ => some op

def cachesReplayTerminal : TransferItem P → Bool
  | getToTarget .. | putFromSource .. => true
  | _ => false

end TransferItem

/-- `OwnerSegmentTransferRequestItem`. -/
structure RequestItem (P : Type) where
  terminalSequence : ℕ
  item : TransferItem P
  deriving DecidableEq

/-- `OwnerSegmentTransferReq`. -/
structure TransferReq (P : Type) where
  callerGeneration : OwnerGeneration
  ackStreamId : ℕ
  terminalAckWatermark : ℕ
  items : List (RequestItem P)
  deriving DecidableEq

/-! ## The caller -/

structure OwnerTransferAckWindow where
  watermark : ℕ := 0
  completedAfterGap : Finset ℕ := ∅

/-- The state of the stream towards one peer. -/
structure OwnerTransferPeerState where
  nextTerminalSequence : ℕ := 0
  ack : OwnerTransferAckWindow := {}

/-- Take the next sequence number. The counter wraps, but the sequence is checked. -/
def nextSequence : Call OwnerTransferPeerState ℕ := do
  let n := (← get).nextTerminalSequence
  modify fun s => { s with nextTerminalSequence := (n + 1) % 2 ^ 64 }
  expect (checkedAdd n 1) "owner transfer terminal sequence overflow"

section Caller

variable {P : Type}

/-- Number the items whose terminal is cached. -/
def assignSequences : List (TransferItem P) → Call OwnerTransferPeerState (List (RequestItem P))
  | [] => return []
  | item :: rest => do
    let terminalSequence ← if item.cachesReplayTerminal then nextSequence else pure 0
    let rest ← assignSequences rest
    return ⟨terminalSequence, item⟩ :: rest

/-- `OwnerTransferPeerTracker::prepare_request`. -/
def prepareRequest (ackStreamId : ℕ) (callerGeneration : OwnerGeneration)
    (items : List (TransferItem P)) : Call OwnerTransferPeerState (TransferReq P) := do
  let terminalAckWatermark := (← get).ack.watermark
  let items ← assignSequences items
  return { callerGeneration, ackStreamId, terminalAckWatermark, items }

end Caller

namespace OwnerTransferAckWindow

/-- The loop of `record_terminal`: take sequences off the gap set while they extend the prefix. One
round for every element of the set is enough. -/
def advance : ℕ → OwnerTransferAckWindow → OwnerTransferAckWindow
  | 0, w => w
  | n + 1, w =>
    match checkedAdd w.watermark 1 with
    | none => w
    | some next =>
      if next ∈ w.completedAfterGap then
        advance n ⟨next, w.completedAfterGap.erase next⟩
      else w

end OwnerTransferAckWindow

/-- `OwnerTransferPeerTracker::record_terminal`, with the watermark it returns. -/
def recordTerminal (terminalSequence : ℕ) (s : OwnerTransferPeerState) :
    ℕ × OwnerTransferPeerState :=
  if terminalSequence = 0 then (s.ack.watermark, s)
  else if terminalSequence ≤ s.ack.watermark then (s.ack.watermark, s)
  else
    let gap := insert terminalSequence s.ack.completedAfterGap
    let ack := OwnerTransferAckWindow.advance gap.card ⟨s.ack.watermark, gap⟩
    (ack.watermark, { s with ack })

/-! ## The receiver -/

/-- `OwnerGetToTargetRequest`, `OwnerPutFromSourceRequest`: what a replay is compared with. The
attempt of a put is part of its key. -/
structure FlightRequest (P : Type) where
  ackStreamId : ℕ
  terminalSequence : ℕ
  payload : P
  deriving DecidableEq

/-- `OwnerGetToTargetSharedOp`, `OwnerPutFromSourceSharedOp`. -/
structure Flight (P : Type) where
  request : FlightRequest P
  completed : Bool
  deriving DecidableEq

/-- The flight belongs to the stream of the caller and its terminal is acknowledged. -/
def Flight.acknowledged {P : Type} (f : Flight P) (op : OwnerTransferOpId)
    (callerGeneration : OwnerGeneration) (ackStreamId applied : ℕ) : Bool :=
  op.coordinator = callerGeneration && f.request.ackStreamId = ackStreamId &&
    f.request.terminalSequence ≤ applied && f.completed

/-- The transfer tables of a receiver. -/
structure Receiver (P : Type) where
  ackWatermarks : OwnerGeneration × ℕ → Option ℕ
  getFlights : OwnerTransferOpId → Option (Flight P)
  putFlights : OwnerTransferOpId × ℕ → Option (Flight P)

/-- What the receiver does with an item: refuse it, start its payload, wait for a flight that was
started before, or run an operation whose terminal is not cached. -/
inductive Start
  | rejected (e : OwnerTransferItemError)
  | led
  | joined
  | handled
  deriving DecidableEq

/-- `{:?}` of an optional start time. -/
def debugStartTime : Option ℤ → String
  | none => "None"
  | some t => s!"Some({t})"

def alreadyAcknowledged (ackStreamId terminalSequence watermark : ℕ) : OwnerTransferItemError :=
  ⟨.conflict, s!"owner transfer terminal was already acknowledged: stream={ackStreamId} sequence={terminalSequence} watermark={watermark}"⟩

/-- The entry of a stream after a watermark was requested: it never goes down. -/
def raiseWatermark (current : Option ℕ) (requestedWatermark : ℕ) : ℕ :=
  match current with
  | some current => if requestedWatermark > current then requestedWatermark else current
  | none => requestedWatermark

namespace Receiver

variable {P : Type} (r : Receiver P)

/-- `apply_owner_transfer_terminal_ack`: the watermark in force for the request. A request without
a watermark is answered with zero. -/
def applyOwnerTransferTerminalAck (callerGeneration : OwnerGeneration)
    (ackStreamId requestedWatermark : ℕ) : ℕ × Receiver P :=
  if ackStreamId = 0 ∨ requestedWatermark = 0 then (0, r)
  else
    let key := (callerGeneration, ackStreamId)
    let applied := raiseWatermark (r.ackWatermarks key) requestedWatermark
    (applied, {
      ackWatermarks := Function.update r.ackWatermarks key (some applied)
      getFlights := fun op => (r.getFlights op).filter fun f =>
        !f.acknowledged op callerGeneration ackStreamId applied
      putFlights := fun k => (r.putFlights k).filter fun f =>
        !f.acknowledged k.1 callerGeneration ackStreamId applied })

variable [DecidableEq P]

/-- The singleflight of `handle_owner_get_to_target`. -/
def handleOwnerGetToTarget (op : OwnerTransferOpId) (request : FlightRequest P) :
    Start × Receiver P :=
  match r.getFlights op with
  | some existing =>
    if existing.request ≠ request then
      (.rejected ⟨.conflict, "GetToTarget replay changed source or destination capability"⟩, r)
    else (.joined, r)
  | none => (.led, { r with getFlights := Function.update r.getFlights op (some ⟨request, false⟩) })

/-- The singleflight of `handle_owner_put_from_source`. -/
def handleOwnerPutFromSource (op : OwnerTransferOpId) (targetAttempt : ℕ)
    (request : FlightRequest P) : Start × Receiver P :=
  match r.putFlights (op, targetAttempt) with
  | some existing =>
    if existing.request ≠ request then
      (.rejected ⟨.conflict, "PutFromSource replay changed source, target plan or attempt"⟩, r)
    else (.joined, r)
  | none => (.led,
    { r with putFlights := Function.update r.putFlights (op, targetAttempt) (some ⟨request, false⟩) })

variable (caller : String) (member : Option ℤ)

/-- `handle_owner_segment_transfer_item`. `member` is the start time of the caller in the cached
cluster membership. -/
def handleOwnerSegmentTransferItem (callerGeneration : OwnerGeneration)
    (ackStreamId acknowledgedWatermark : ℕ) (ri : RequestItem P) : Start × Receiver P :=
  match ri.item.opId with
  | none => (.rejected ⟨.invalidArgument, "owner segment transfer item is invalid"⟩, r)
  | some operation =>
    if operation.coordinator ≠ callerGeneration ∨ operation.coordinator.nodeId ≠ caller then
      (.rejected ⟨.staleGeneration, s!"owner transfer caller does not match coordinator: caller={caller} coordinator={operation.coordinator.nodeId}"⟩, r)
    else if member ≠ some operation.coordinator.nodeStartTime then
      (.rejected ⟨.staleGeneration, s!"owner transfer coordinator generation is stale: caller={caller} requested_start={operation.coordinator.nodeStartTime} current_start={debugStartTime member}"⟩, r)
    else if ackStreamId = 0 ∨ ri.item.cachesReplayTerminal ≠ (ri.terminalSequence ≠ 0 : Bool) ∨
        (ri.terminalSequence ≠ 0 ∧ ri.terminalSequence ≤ acknowledgedWatermark) then
      (.rejected (
        if ri.terminalSequence ≠ 0 ∧ ri.terminalSequence ≤ acknowledgedWatermark then
          alreadyAcknowledged ackStreamId ri.terminalSequence acknowledgedWatermark
        else ⟨.conflict, s!"owner transfer terminal sequence is invalid: stream={ackStreamId} sequence={ri.terminalSequence} caches_terminal={ri.item.cachesReplayTerminal}"⟩), r)
    else match ri.item with
      | .getToTarget op capabilities =>
        r.handleOwnerGetToTarget op ⟨ackStreamId, ri.terminalSequence, capabilities⟩
      | .putFromSource op targetAttempt plan =>
        r.handleOwnerPutFromSource op targetAttempt ⟨ackStreamId, ri.terminalSequence, plan⟩
      | _ => (.handled, r)

/-- The items of a request, one after the other. -/
def handleItems (caller : String) (member : Option ℤ) (callerGeneration : OwnerGeneration)
    (ackStreamId acknowledgedWatermark : ℕ) :
    Receiver P → List (RequestItem P) → List (ℕ × Start) × Receiver P
  | r, [] => ([], r)
  | r, ri :: rest =>
    let one := r.handleOwnerSegmentTransferItem caller member callerGeneration ackStreamId
      acknowledgedWatermark ri
    let more := handleItems caller member callerGeneration ackStreamId acknowledgedWatermark
      one.2 rest
    ((ri.terminalSequence, one.1) :: more.1, more.2)

/-- The caller is the generation that the cached membership knows. -/
def callerIsCurrent (g : OwnerGeneration) : Bool :=
  g.nodeId = caller && member = some g.nodeStartTime

/-- `handle_owner_segment_transfer`: the synchronous part, up to the flights the items wait for. -/
def handleOwnerSegmentTransfer (request : TransferReq P) : List (ℕ × Start) × Receiver P :=
  let (acknowledgedWatermark, r₁) :=
    if callerIsCurrent caller member request.callerGeneration then
      r.applyOwnerTransferTerminalAck request.callerGeneration request.ackStreamId
        request.terminalAckWatermark
    else (0, r)
  handleItems caller member request.callerGeneration request.ackStreamId acknowledgedWatermark r₁
    request.items

end Receiver

/-! ## The two parties and the network -/

/-- A caller with one stream towards a receiver. A request that was sent can be delivered any
number of times, in any order, or never. -/
structure World (P : Type) where
  peer : OwnerTransferPeerState
  /-- The requests that were sent. -/
  sent : List (TransferReq P)
  receiver : Receiver P
  /-- The sequences that the receiver has responded to. -/
  answered : List ℕ
  /-- The sequences whose payload the receiver has started, latest first. -/
  led : List ℕ

/-- Before the first request. -/
def World.initial {P : Type} : World P :=
  ⟨{}, [], ⟨fun _ => none, fun _ => none, fun _ => none⟩, [], []⟩

inductive Event (P : Type)
  | send (items : List (TransferItem P))
  | deliver (request : TransferReq P) (member : Option ℤ)
  | completeGet (op : OwnerTransferOpId)
  | completePut (op : OwnerTransferOpId) (targetAttempt : ℕ)
  | recordTerminal (terminalSequence : ℕ)

/-- The sequences of the items with a given start. -/
def startedWith (p : Start → Bool) (starts : List (ℕ × Start)) : List ℕ :=
  (starts.filter fun x => p x.2).map (·.1)

/-- A response that does not wait for a flight. -/
def Start.immediate : Start → Bool
  | .rejected _ | .handled => true
  | .led | .joined => false

namespace World

variable {P : Type} [DecidableEq P]

/-- A step of the two parties, if it is possible. -/
def step (caller : OwnerGeneration) (ackStreamId : ℕ) (w : World P) : Event P → Option (World P)
  | .send items =>
    match prepareRequest ackStreamId caller items w.peer with
    | .ok request peer => some { w with peer, sent := request :: w.sent }
    | .error _ _ => none
  | .deliver request member =>
    if request ∈ w.sent then
      let (starts, receiver) := w.receiver.handleOwnerSegmentTransfer caller.nodeId member request
      some { w with
        receiver
        answered := startedWith Start.immediate starts ++ w.answered
        led := (startedWith (· = .led) starts).reverse ++ w.led }
    else none
  | .completeGet op =>
    match w.receiver.getFlights op with
    | some ⟨request, false⟩ => some { w with
        receiver := { w.receiver with
          getFlights := Function.update w.receiver.getFlights op (some ⟨request, true⟩) }
        answered := request.terminalSequence :: w.answered }
    | _ => none
  | .completePut op targetAttempt =>
    match w.receiver.putFlights (op, targetAttempt) with
    | some ⟨request, false⟩ => some { w with
        receiver := { w.receiver with
          putFlights := Function.update w.receiver.putFlights (op, targetAttempt)
            (some ⟨request, true⟩) }
        answered := request.terminalSequence :: w.answered }
    | _ => none
  | .recordTerminal terminalSequence =>
    if terminalSequence ∈ w.answered then
      some { w with peer := (Transfer.recordTerminal terminalSequence w.peer).2 }
    else none

/-- The watermark that the receiver has stored for the stream. -/
def stored (caller : OwnerGeneration) (ackStreamId : ℕ) (w : World P) : ℕ :=
  (w.receiver.ackWatermarks (caller, ackStreamId)).getD 0

end World

end Fluxon.Transfer
