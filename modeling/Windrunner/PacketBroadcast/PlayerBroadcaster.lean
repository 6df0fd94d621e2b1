import Windrunner.Lib.SortedMap
import Windrunner.Objects.UpdateData

/-!
# The movement packets of a player

A `PlayerBroadcaster` queues the movement packets of a player and sends them to the players around him,
and to himself where the caller says so, when a worker has its turn. A full queue gives up its last packet
for the next one, if both are of a kind that may be skipped.

* `QueuePacket`, `ProcessQueue` are `queuePacket` and `processQueue`; a listener is a guid, and whether
  his broadcaster has a socket.
* `Run`: what has been queued and sent after some of these calls.
-/

namespace Windrunner

open Lib

abbrev msgMoveSetRunSpeedCheat : UInt16 := 0x0CC
abbrev msgMoveSetTurnRate : UInt16 := 0x0D8
abbrev msgMoveHeartbeat : UInt16 := 0x0EE

structure BroadcastData where
  packet : WorldPacket
  sendToSelf : Bool
  except : Nat
  /-- Which call has queued it. The source does not number its calls. -/
  call : Nat
  deriving DecidableEq, Repr

structure PlayerBroadcaster where
  self : Nat
  /-- `m_socket` is there -/
  socket : Bool
  listeners : SortedMap Nat Bool
  /-- `AddListener` does not add the player himself. -/
  self_out : listeners.find self = none
  maxQueueSize : Nat
  maxQueueSize_pos : 0 < maxQueueSize
  queue : List BroadcastData
  lastUpdatePackets : UInt32
  calls : Nat

namespace PlayerBroadcaster

def canSkipPacket (opcode : UInt16) : Bool :=
  opcode < msgMoveSetRunSpeedCheat || (opcode > msgMoveSetTurnRate && opcode ≠ msgMoveHeartbeat)

variable (b : PlayerBroadcaster)

def addListener (guid : Nat) (socket : Bool) : PlayerBroadcaster :=
  if h : guid = b.self then b
  else { b with
    listeners := b.listeners.insert guid socket
    self_out := by rw [SortedMap.find_insert, if_neg (Ne.symm h), b.self_out] }

def removeListener (guid : Nat) : PlayerBroadcaster :=
  { b with
    listeners := b.listeners.erase guid
    self_out := by rw [SortedMap.find_erase, b.self_out, ite_self] }

def queuePacket (packet : WorldPacket) (self : Bool) (except : Nat) : PlayerBroadcaster :=
  let data : BroadcastData := ⟨packet, self, except, b.calls⟩
  let queue :=
    if b.maxQueueSize ≤ b.queue.length then
      match b.queue.getLast? with
      | some last =>
        if canSkipPacket last.packet.opcode && canSkipPacket data.packet.opcode then
          b.queue.dropLast ++ [data]
        else b.queue ++ [data]
      | none => b.queue ++ [data]
    else b.queue ++ [data]
  { b with queue := queue, calls := b.calls + 1 }

/-- `SendPacket` of the broadcaster of a player -/
def sendPacket (receiver : Nat × Bool) (data : BroadcastData) : List (Nat × BroadcastData) :=
  if receiver.2 then [(receiver.1, data)] else []

/-- The packets that `ProcessQueue` sends for one in the queue -/
def deliver (data : BroadcastData) : List (Nat × BroadcastData) :=
  (if data.sendToSelf ∧ data.except ≠ b.self then sendPacket (b.self, b.socket) data else []) ++
    b.listeners.entries.flatMap fun itr =>
      if itr.1 = data.except then [] else sendPacket itr data

/-- `ProcessQueue`: also what it adds to `num_packets`, and the packets that it sends. -/
def processQueue (num_packets : UInt32) :
    PlayerBroadcaster × UInt32 × List (Nat × BroadcastData) :=
  if b.queue = [] then (b, num_packets, [])
  else
    let lastUpdatePackets := UInt32.ofNat (b.queue.length * b.listeners.entries.length)
    ({ b with queue := [], lastUpdatePackets := lastUpdatePackets },
      num_packets + lastUpdatePackets, b.queue.flatMap b.deliver)

/-! ## Runs -/

inductive Op where
  | queuePacket (packet : WorldPacket) (self : Bool) (except : Nat)
  | processQueue

/-- What has happened: `batches` are what was queued before each `ProcessQueue` and after the one before
it, `batch` what was queued since the last. -/
structure Run where
  broadcaster : PlayerBroadcaster
  batch : List BroadcastData
  batches : List (List BroadcastData)
  sent : List (Nat × BroadcastData)
  numPackets : UInt32

/-- A broadcaster with nothing in its queue -/
def start : Run := ⟨{ b with queue := [], calls := 0 }, [], [], [], 0⟩

def Run.op (r : Run) : Op → Run
  | .queuePacket packet self except =>
    { r with
      broadcaster := r.broadcaster.queuePacket packet self except
      batch := r.batch ++ [⟨packet, self, except, r.broadcaster.calls⟩] }
  | .processQueue =>
    let (broadcaster, numPackets, sent) := r.broadcaster.processQueue r.numPackets
    ⟨broadcaster, [], r.batches ++ [r.batch], r.sent ++ sent, numPackets⟩

def run (ops : List Op) : Run := ops.foldl Run.op b.start

end PlayerBroadcaster

end Windrunner
