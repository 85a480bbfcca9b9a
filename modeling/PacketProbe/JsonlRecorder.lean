import PacketProbe.InputParsing
import PacketProbe.PacketEvents

/-!
# The JSONL log

The lines of the log, and the recorder that appends them to a file.
-/

namespace PacketProbe

/-- `to_string(EventType)`. -/
def EventType.toText : EventType → ByteString
  | .rawBytes => ascii "raw_bytes"
  | .frame => ascii "frame"
  | .decodedMessage => ascii "decoded_message"
  | .error => ascii "error"
  | .stateChange => ascii "state_change"
  | .statistic => ascii "statistic"
  | .latency => ascii "latency"

def kPacketProbeLogSchema : ByteString := ascii "packet-probe.log.v1"

def kPacketProbeEventSchema : ByteString := ascii "packet-probe.event.v1"

def packetProbeVersion : ByteString := ascii "0.1.0"

/-! ### Lines -/

/-- One turn of the loop of `escape_json`. -/
def escapeByte (ch : UInt8) : ByteString :=
  if ch = 0x22 then ascii "\\\""
  else if ch = 0x5C then ascii "\\\\"
  else if ch = 0x08 then ascii "\\b"
  else if ch = 0x0C then ascii "\\f"
  else if ch = 0x0A then ascii "\\n"
  else if ch = 0x0D then ascii "\\r"
  else if ch = 0x09 then ascii "\\t"
  else if ch < 0x20 then ascii "\\u00" ++ [hexDigit (ch.toNat / 16), hexDigit (ch.toNat % 16)]
  else [ch]

def escapeJson (value : ByteString) : ByteString := value.flatMap escapeByte

def serializeMetadataJsonl : ByteString :=
  ascii "\x7b\"type\":\"metadata\",\"schema\":\"" ++ kPacketProbeLogSchema ++
    ascii "\",\"event_schema\":\"" ++ kPacketProbeEventSchema ++ ascii "\"," ++
    ascii "\"tool\":\"packet-probe\",\"version\":\"" ++ packetProbeVersion ++ ascii "\"\x7d"

/-- The loop over `parent_sequences`; only its first turn writes no comma. -/
def serializeParents : List UInt64 → ByteString
  | [] => []
  | parent :: parents =>
    decimal parent.toNat ++ parents.flatMap fun parent => ascii "," ++ decimal parent.toNat

/-- The quotation mark that ends a string is written with what stands behind it. -/
def serializeEventJsonl (event : PacketEvent) : ByteString :=
  ascii "\x7b\"seq\":" ++ decimal event.sequence.toNat ++
    ascii ",\"parent_seq\":" ++ decimal event.parentSequence.toNat ++
    ascii ",\"parent_seqs\":[" ++ serializeParents event.parentSequences ++ ascii "]" ++
    ascii ",\"time_ns\":" ++ signedDecimal event.timestampNs.toInt ++
    ascii ",\"session\":\"" ++ escapeJson event.sessionId ++
    ascii "\",\"transport\":\"" ++ escapeJson event.transport ++
    ascii "\",\"direction\":\"" ++ event.direction.toText ++
    (if event.sourceEndpoint = [] then []
      else ascii "\",\"source\":\"" ++ escapeJson event.sourceEndpoint) ++
    (if event.destinationEndpoint = [] then []
      else ascii "\",\"destination\":\"" ++ escapeJson event.destinationEndpoint) ++
    ascii "\",\"type\":\"" ++ event.type.toText ++
    ascii "\",\"size\":" ++ decimal event.payload.length ++
    ascii ",\"payload_hex\":\"" ++ toHex event.payload false ++
    ascii "\",\"summary\":\"" ++ escapeJson event.summary ++ ascii "\"" ++
    (if event.decodedJson = [] then [] else ascii ",\"decoded\":" ++ event.decodedJson) ++
    (if event.type = .latency then
      ascii ",\"request_seq\":" ++ decimal event.requestSequence.toNat ++
        ascii ",\"response_seq\":" ++ decimal event.responseSequence.toNat ++
        ascii ",\"latency_ns\":" ++ signedDecimal event.latencyNs.toInt ++
        ascii ",\"latency_us\":" ++ signedDecimal (event.latencyNs / 1000).toInt ++
        ascii ",\"request_size\":" ++ decimal event.requestSize ++
        ascii ",\"response_size\":" ++ decimal event.responseSize
      else []) ++
    ascii "\x7d"

/-! ### The recorder -/

/-- `output_` of a recorder. -/
structure OutputStream where
  isOpen : Bool := false
  deriving DecidableEq

inductive RecorderCall where
  | open
  | record (event : PacketEvent)
  | close

/-- What a path holds, if there is a file. -/
abbrev LogFile := Option ByteString

/-- Writing to a stream that was opened to append. -/
def append (line : ByteString) (file : LogFile) : LogFile :=
  some (file.getD [] ++ line ++ ascii "\n")

/-- A call of the recorder. A file can be opened and written to at all times; only an open
stream cannot be opened again. -/
def OutputStream.call (path : ByteString) (state : OutputStream × LogFile) :
    RecorderCall → Except StdException (OutputStream × LogFile)
  | .open =>
    if state.1.isOpen then .error (runtimeError (ascii "failed to open JSONL log: " ++ path))
    else .ok (⟨true⟩, append serializeMetadataJsonl state.2)
  | .record event =>
    if state.1.isOpen then .ok (state.1, append (serializeEventJsonl event) state.2) else .ok state
  | .close => .ok (⟨false⟩, state.2)

/-- A recording session. -/
def sessionCalls (events : List PacketEvent) : List RecorderCall :=
  .open :: events.map .record ++ [.close]

/-- Recording sessions, one after the other, on a path where there is no file yet. -/
def recordSessions (path : ByteString) (sessions : List (List PacketEvent)) :
    Except StdException (OutputStream × LogFile) :=
  (sessions.flatMap sessionCalls).foldlM (OutputStream.call path) ({}, none)

/-! ### The file -/

/-- The lines of the sessions. -/
def sessionLines (sessions : List (List PacketEvent)) : List ByteString :=
  sessions.flatMap fun events => serializeMetadataJsonl :: events.map serializeEventJsonl

/-- A file of lines, each with its end. -/
def fileOf (lines : List ByteString) : ByteString := lines.flatMap (· ++ ascii "\n")

theorem fileOf_append (a b : List ByteString) : fileOf (a ++ b) = fileOf a ++ fileOf b :=
  List.flatMap_append

theorem append_fileOf (line : ByteString) (lines : List ByteString) :
    append line (some (fileOf lines)) = some (fileOf (lines ++ [line])) := by
  rw [fileOf_append]
  simp only [append, Option.getD_some, fileOf, List.flatMap_cons, List.flatMap_nil, List.append_nil,
    List.append_assoc]

theorem record_events (path : ByteString) (lines : List ByteString) (events : List PacketEvent) :
    (events.map RecorderCall.record).foldlM (OutputStream.call path) (⟨true⟩, some (fileOf lines)) =
      .ok (⟨true⟩, some (fileOf (lines ++ events.map serializeEventJsonl))) := by
  induction events generalizing lines with
  | nil =>
    rw [List.map_nil, List.map_nil, List.append_nil]
    rfl
  | cons event events ih =>
    rw [List.map_cons, List.foldlM_cons]
    change (events.map RecorderCall.record).foldlM (OutputStream.call path)
      (⟨true⟩, append (serializeEventJsonl event) (some (fileOf lines))) = _
    rw [append_fileOf, ih, List.append_assoc]
    rfl

/-- A session appends its metadata line and a line for each event. -/
theorem record_session (path : ByteString) (file : LogFile) (lines : List ByteString)
    (hfile : file.getD [] = fileOf lines) (events : List PacketEvent) :
    (sessionCalls events).foldlM (OutputStream.call path) ({}, file) =
      .ok ({},
        some (fileOf (lines ++ serializeMetadataJsonl :: events.map serializeEventJsonl))) := by
  have hopen :
      append serializeMetadataJsonl file = some (fileOf (lines ++ [serializeMetadataJsonl])) := by
    rw [← append_fileOf, append, append, hfile, Option.getD_some]
  have hevents := record_events path (lines ++ [serializeMetadataJsonl]) events
  rw [List.append_assoc, List.singleton_append] at hevents
  unfold sessionCalls
  rw [List.cons_append, List.foldlM_cons]
  change ((events.map RecorderCall.record) ++ [RecorderCall.close]).foldlM (OutputStream.call path)
    (⟨true⟩, append serializeMetadataJsonl file) = _
  rw [hopen, List.foldlM_append, hevents]
  rfl

theorem sessionLines_cons (events : List PacketEvent) (sessions : List (List PacketEvent)) :
    sessionLines (events :: sessions) =
      serializeMetadataJsonl :: events.map serializeEventJsonl ++ sessionLines sessions :=
  List.flatMap_cons

theorem record_sessions (path : ByteString) (file : LogFile) (lines : List ByteString)
    (hfile : file.getD [] = fileOf lines) (sessions : List (List PacketEvent))
    (hsessions : sessions ≠ []) :
    (sessions.flatMap sessionCalls).foldlM (OutputStream.call path) ({}, file) =
      .ok ({}, some (fileOf (lines ++ sessionLines sessions))) := by
  induction sessions generalizing file lines with
  | nil => exact absurd rfl hsessions
  | cons events sessions ih =>
    rw [List.flatMap_cons, List.foldlM_append, record_session path file lines hfile events,
      sessionLines_cons]
    by_cases hlast : sessions = []
    · subst hlast
      rw [show sessionLines [] = [] from rfl, List.append_nil]
      rfl
    · have hrest :=
        ih (some (fileOf (lines ++ serializeMetadataJsonl :: events.map serializeEventJsonl)))
        (lines ++ serializeMetadataJsonl :: events.map serializeEventJsonl) rfl hlast
      rw [List.append_assoc] at hrest
      exact hrest

end PacketProbe
