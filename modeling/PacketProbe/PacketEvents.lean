import PacketProbe.ByteStrings

/-!
# Packet events and their sequence numbers
-/

namespace PacketProbe

inductive Direction where
  | appToDevice | deviceToApp | rx | tx
  deriving DecidableEq, Repr

inductive EventType where
  | rawBytes | frame | decodedMessage | error | stateChange | statistic | latency
  deriving DecidableEq, Repr

/-- `to_string(Direction)`. -/
def Direction.toText : Direction → ByteString
  | .appToDevice => ascii "app_to_device"
  | .deviceToApp => ascii "device_to_app"
  | .rx => ascii "rx"
  | .tx => ascii "tx"

/-- Sizes are those of payloads in memory. -/
structure PacketEvent where
  sequence : UInt64 := 0
  parentSequence : UInt64 := 0
  parentSequences : List UInt64 := []
  timestampNs : Int64 := 0
  sessionId : ByteString := []
  transport : ByteString := []
  direction : Direction := .appToDevice
  type : EventType := .rawBytes
  sourceEndpoint : ByteString := []
  destinationEndpoint : ByteString := []
  payload : Bytes := []
  summary : ByteString := []
  decodedJson : ByteString := []
  requestSequence : UInt64 := 0
  responseSequence : UInt64 := 0
  latencyNs : Int64 := 0
  requestSize : ℕ := 0
  responseSize : ℕ := 0
  deriving DecidableEq

/-- What tells one stream from another. -/
structure Stream where
  sessionId : ByteString
  transport : ByteString
  direction : Direction
  sourceEndpoint : ByteString
  destinationEndpoint : ByteString
  deriving DecidableEq

def PacketEvent.stream (e : PacketEvent) : Stream :=
  ⟨e.sessionId, e.transport, e.direction, e.sourceEndpoint, e.destinationEndpoint⟩

/-- The shared counter; `fetch_add` wraps around. -/
structure SequenceAllocator where
  counter : UInt64 := 1
  deriving DecidableEq

def SequenceAllocator.next (a : SequenceAllocator) : UInt64 × SequenceAllocator :=
  (a.counter, ⟨a.counter + 1⟩)

namespace SequenceAllocator

variable {a : SequenceAllocator} {n : ℕ}

/-- The counter after `n` calls of `next` by others. -/
def skip (a : SequenceAllocator) (n : ℕ) : SequenceAllocator := ⟨a.counter + UInt64.ofNat n⟩

/-- The counter has been asked for `n` numbers since it was made. -/
def HasTaken (a : SequenceAllocator) (n : ℕ) : Prop := a.counter = UInt64.ofNat (n + 1)

instance (a : SequenceAllocator) (n : ℕ) : Decidable (a.HasTaken n) :=
  inferInstanceAs (Decidable (_ = _))

theorem hasTaken_default : HasTaken {} 0 := rfl

theorem HasTaken.skip (h : a.HasTaken n) (k : ℕ) : (a.skip k).HasTaken (n + k) := by
  have hadd : n + k + 1 = n + 1 + k := by omega
  rw [HasTaken, hadd, UInt64.ofNat_add, ← h]
  rfl

theorem HasTaken.next (h : a.HasTaken n) : a.next.2.HasTaken (n + 1) := h.skip 1

/-- Before the counter wraps around, the numbers are those of counting. -/
theorem HasTaken.toNat_next (h : a.HasTaken n) (hbound : n + 1 < UInt64.size) :
    a.next.1.toNat = n + 1 := by
  change a.counter.toNat = n + 1
  rw [h, UInt64.toNat_ofNat_of_lt' hbound]

end SequenceAllocator

/-- What `make_event` reads from the shared counter and the clock. -/
structure Stamp where
  sequence : UInt64
  timestampNs : Int64
  deriving DecidableEq

/-- `make_event` of the capture sessions. -/
def makeEvent (sessionId transport : ByteString) (stamp : Stamp) (direction : Direction)
    (type : EventType) (payload : Bytes)
    (sourceEndpoint destinationEndpoint summary : ByteString) : PacketEvent :=
  { sequence := stamp.sequence
    timestampNs := stamp.timestampNs
    sessionId
    transport
    direction
    type
    sourceEndpoint
    destinationEndpoint
    payload
    summary }

end PacketProbe
