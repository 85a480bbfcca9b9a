import PacketProbe.PacketEvents
import PacketProbe.FrameDecoders
import Mathlib.Logic.Function.Basic

/-!
# The event pipeline

`consume` hands the raw event to the sink, decodes its payload under the mutex, and
hands the derived events to the sink. Both maps of the pipeline are keyed by the
stream's key text; no code iterates over them.
-/

namespace PacketProbe

/-- A call builds a decoder or throws. -/
abbrev DecoderFactory := Unit → Except StdException FrameDecoder

def makeFrameDecoderFactory (config : DecoderConfig) : DecoderFactory :=
  fun _ => createFrameDecoder config

/-- What a sink throws when it is called with an event, if it throws. -/
abbrev EventSink := PacketEvent → Option StdException

/-- The sink that accepts every event. -/
def acceptingSink : EventSink := fun _ => none

structure EventPipeline where
  decoderFactory : Option DecoderFactory
  sink : Option EventSink
  decoders : ByteString → Option FrameDecoder := fun _ => none
  streamRawSequences : ByteString → List UInt64 := fun _ => []

def streamKey (e : PacketEvent) : ByteString :=
  e.sessionId ++ ascii "|" ++ e.transport ++ ascii "|" ++ e.direction.toText ++ ascii "|" ++
    e.sourceEndpoint ++ ascii "|" ++ e.destinationEndpoint

def makeFrameEvent (allocator : SequenceAllocator) (parent : PacketEvent) (payload : Bytes)
    (parentSeqs : List UInt64) : PacketEvent × SequenceAllocator :=
  let (sequence, allocator) := allocator.next
  ({ parent with
      sequence
      parentSequence := parent.sequence
      parentSequences := parentSeqs
      type := .frame
      payload
      summary := ascii "FRAME " ++ decimal payload.length ++ ascii " bytes"
      decodedJson := []
      requestSequence := 0
      responseSequence := 0
      latencyNs := 0
      requestSize := 0
      responseSize := 0 }, allocator)

/-- The loop over the decoded frames. -/
def makeFrameEvents (allocator : SequenceAllocator) (parent : PacketEvent)
    (parentSeqs : List UInt64) :
    List Bytes → List PacketEvent × SequenceAllocator
  | [] => ([], allocator)
  | payload :: payloads =>
    let (frame, allocator) := makeFrameEvent allocator parent payload parentSeqs
    let (frames, allocator) := makeFrameEvents allocator parent parentSeqs payloads
    (frame :: frames, allocator)

/-- The event the handler of a decoder's exception derives. -/
def makeErrorEvent (allocator : SequenceAllocator) (event : PacketEvent) (seqs : List UInt64)
    (ex : StdException) : PacketEvent × SequenceAllocator :=
  let (sequence, allocator) := allocator.next
  ({ event with
      sequence
      parentSequence := event.sequence
      parentSequences := seqs
      type := .error
      payload := []
      summary := ascii "decoder error: " ++ ex.what }, allocator)

namespace EventPipeline

/-- The decoder of a stream, built on its first payload. -/
def decoderFor (p : EventPipeline) (factory : DecoderFactory) (key : ByteString) :
    Except StdException FrameDecoder :=
  match p.decoders key with
  | some decoder => .ok decoder
  | none => factory ()

/-- Write back the stream's decoder and its raw-sequence history. -/
def store (p : EventPipeline) (key : ByteString) (decoder : FrameDecoder) (seqs : List UInt64) :
    EventPipeline :=
  { p with
    decoders := Function.update p.decoders key (some decoder)
    streamRawSequences := Function.update p.streamRawSequences key seqs }

/-- The section of `consume` under the mutex. A decoder's exception becomes an error
event; the exception of a factory escapes before anything is stored. -/
def decodeSection (p : EventPipeline) (factory : DecoderFactory) (allocator : SequenceAllocator)
    (event : PacketEvent) :
    Except StdException (EventPipeline × SequenceAllocator × List PacketEvent) :=
  let key := streamKey event
  match p.decoderFor factory key with
  | .error ex => .error ex
  | .ok decoder =>
    let seqs := p.streamRawSequences key ++ [event.sequence]
    match decoder.consume event.payload with
    | (decoder, .ok result) =>
      let (derived, allocator) := makeFrameEvents allocator event seqs result.frames
      let seqs := if result.remainingBuffer = [] then [] else seqs
      .ok (p.store key decoder seqs, allocator, derived)
    | (decoder, .error ex) =>
      let (error, allocator) := makeErrorEvent allocator event seqs ex
      .ok (p.store key decoder [], allocator, [error])

/-- Call the sink with each event in turn, up to the first exception. -/
def deliver (sink : EventSink) : List PacketEvent → List PacketEvent × Option StdException
  | [] => ([], none)
  | event :: events =>
    match sink event with
    | some ex => ([event], some ex)
    | none => let (delivered, ex) := deliver sink events; (event :: delivered, ex)

/-- The outcome of one call: the new state, the calls to the sink, and the exception
the call let escape. -/
structure Consumed where
  pipeline : EventPipeline
  allocator : SequenceAllocator
  delivered : List PacketEvent
  escaped : Option StdException

def consume (p : EventPipeline) (allocator : SequenceAllocator) (event : PacketEvent) : Consumed :=
  match p.sink with
  | none => ⟨p, allocator, [], none⟩
  | some sink =>
    match sink event with
    | some ex => ⟨p, allocator, [event], some ex⟩
    | none =>
      if event.type ≠ .rawBytes ∨ event.payload = [] then ⟨p, allocator, [event], none⟩
      else
        match p.decoderFactory with
        | none => ⟨p, allocator, [event], none⟩
        | some factory =>
          match p.decodeSection factory allocator event with
          | .error ex => ⟨p, allocator, [event], some ex⟩
          | .ok (p, allocator, derivedEvents) =>
            let (delivered, ex) := deliver sink derivedEvents
            ⟨p, allocator, event :: delivered, ex⟩

/-- Consecutive calls: the state they leave, everything the sink was called with, and
every exception that escaped. -/
structure Run where
  pipeline : EventPipeline
  allocator : SequenceAllocator
  log : List PacketEvent
  escaped : List StdException

def run (p : EventPipeline) (allocator : SequenceAllocator) : List PacketEvent → Run
  | [] => ⟨p, allocator, [], []⟩
  | event :: events =>
    let c := p.consume allocator event
    let r := run c.pipeline c.allocator events
    ⟨r.pipeline, r.allocator, c.delivered ++ r.log, c.escaped.toList ++ r.escaped⟩

/-- The pipeline of a decoder configuration with a sink that never throws. -/
def fresh (config : DecoderConfig) : EventPipeline :=
  { decoderFactory := some (makeFrameDecoderFactory config), sink := some acceptingSink }

end EventPipeline

end PacketProbe
