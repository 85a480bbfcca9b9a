import PacketProbe.EventPipeline
import Mathlib.Data.List.TakeDrop

/-!
# What a call of the pipeline does, and what runs of calls do

For a pipeline whose sink never throws and whose factory succeeds, one lemma says all
that `consume` does to an event that is decoded, and one that it does nothing else to
the others. The history of a run lists each event with the events derived from it.
-/

namespace PacketProbe
open StreamSplitting

/-- The events `consume` decodes. -/
def PacketEvent.Decoded (e : PacketEvent) : Prop := e.type = .rawBytes ∧ e.payload ≠ []

instance (e : PacketEvent) : Decidable e.Decoded := inferInstanceAs (Decidable (_ ∧ _))

namespace EventPipeline

/-- Derived events and allocator after a decoder answered. -/
def derive (allocator : SequenceAllocator) (event : PacketEvent) (seqs : List UInt64) :
    Except StdException FrameDecodeResult → List PacketEvent × SequenceAllocator
  | .ok result => makeFrameEvents allocator event seqs result.frames
  | .error ex =>
    let (error, allocator) := makeErrorEvent allocator event seqs ex
    ([error], allocator)

/-- The history kept after a decoder answered. -/
def keepSeqs (seqs : List UInt64) : Except StdException FrameDecodeResult → List UInt64
  | .ok result => if result.remainingBuffer = [] then [] else seqs
  | .error _ => []

/-- The sink accepts everything and the factory builds `d₀`. -/
structure Ready (p : EventPipeline) (d₀ : FrameDecoder) : Prop where
  sink : p.sink = some acceptingSink
  factory : ∃ f, p.decoderFactory = some f ∧ f () = .ok d₀

theorem ready_fresh {config : DecoderConfig} {d₀ : FrameDecoder}
    (h : createFrameDecoder config = .ok d₀) : (fresh config).Ready d₀ :=
  ⟨rfl, _, rfl, h⟩

/-- The decoder the next payload of the stream meets. -/
def decoderAt (p : EventPipeline) (d₀ : FrameDecoder) (key : ByteString) : FrameDecoder :=
  (p.decoders key).getD d₀

/-- What the decoder of its stream makes of an event. -/
def decoded (p : EventPipeline) (d₀ : FrameDecoder) (e : PacketEvent) :
    FrameDecoder × Except StdException FrameDecodeResult :=
  (p.decoderAt d₀ (streamKey e)).consume e.payload

/-- The raw sequences an event's derived events name as parents. -/
def seqsFor (p : EventPipeline) (e : PacketEvent) : List UInt64 :=
  p.streamRawSequences (streamKey e) ++ [e.sequence]

@[simp] theorem deliver_acceptingSink (events : List PacketEvent) :
    deliver acceptingSink events = (events, none) := by
  induction events with
  | nil => rfl
  | cons e es ih => simp [deliver, acceptingSink, ih]

variable {p q : EventPipeline} {d₀ : FrameDecoder}

theorem Ready.store (h : p.Ready d₀) (key : ByteString) (d : FrameDecoder) (seqs : List UInt64) :
    (p.store key d seqs).Ready d₀ := ⟨h.sink, h.factory⟩

@[simp] theorem decoderAt_store_self (key : ByteString) (d : FrameDecoder) (seqs : List UInt64) :
    (p.store key d seqs).decoderAt d₀ key = d := by
  simp [decoderAt, EventPipeline.store]

@[simp] theorem streamRawSequences_store_self (key : ByteString) (d : FrameDecoder)
    (seqs : List UInt64) : (p.store key d seqs).streamRawSequences key = seqs := by
  simp [EventPipeline.store]

theorem decoders_store_of_ne {key other : ByteString} (h : other ≠ key) (d : FrameDecoder)
    (seqs : List UInt64) : (p.store key d seqs).decoders other = p.decoders other := by
  simp [EventPipeline.store, h]

theorem streamRawSequences_store_of_ne {key other : ByteString} (h : other ≠ key)
    (d : FrameDecoder) (seqs : List UInt64) :
    (p.store key d seqs).streamRawSequences other = p.streamRawSequences other := by
  simp [EventPipeline.store, h]

/-- An event that is not decoded only passes through. -/
theorem consume_of_not_decoded (h : p.Ready d₀) (a : SequenceAllocator) {e : PacketEvent}
    (he : ¬ e.Decoded) : p.consume a e = ⟨p, a, [e], none⟩ := by
  have hcond : e.type ≠ .rawBytes ∨ e.payload = [] := by
    simpa [PacketEvent.Decoded, imp_iff_not_or] using he
  simp only [consume, h.sink, acceptingSink, if_pos hcond]

/-- The section under the mutex stores what the decoder under the key has made of the payload. -/
theorem decodeSection_eq (p : EventPipeline) (factory : DecoderFactory) (a : SequenceAllocator)
    (e : PacketEvent) :
    p.decodeSection factory a e = (p.decoderFor factory (streamKey e)).map fun decoder =>
      let answer := decoder.consume e.payload
      (p.store (streamKey e) answer.1 (keepSeqs (p.seqsFor e) answer.2),
        (derive a e (p.seqsFor e) answer.2).2, (derive a e (p.seqsFor e) answer.2).1) := by
  cases hfor : p.decoderFor factory (streamKey e) with
  | error ex => simp only [decodeSection, hfor, Except.map]
  | ok decoder =>
    simp only [decodeSection, hfor, Except.map, seqsFor]
    rcases decoder.consume e.payload with ⟨next, ex | result⟩ <;> rfl

/-- All that the section under the mutex does. -/
theorem decodeSection_of_ready (h : p.Ready d₀) {f : DecoderFactory}
    (hf : p.decoderFactory = some f) (a : SequenceAllocator) (e : PacketEvent) :
    p.decodeSection f a e = .ok
      (p.store (streamKey e) (p.decoded d₀ e).1 (keepSeqs (p.seqsFor e) (p.decoded d₀ e).2),
        (derive a e (p.seqsFor e) (p.decoded d₀ e).2).2,
        (derive a e (p.seqsFor e) (p.decoded d₀ e).2).1) := by
  obtain ⟨g, hg, hd⟩ := h.factory
  obtain rfl : f = g := Option.some.inj (hf.symm.trans hg)
  have hfor : p.decoderFor f (streamKey e) = .ok (p.decoderAt d₀ (streamKey e)) := by
    unfold decoderFor decoderAt
    cases p.decoders (streamKey e) <;> simp [hd]
  rw [decodeSection_eq, hfor]
  rfl

/-- All that `consume` does to an event it decodes. -/
theorem consume_of_decoded (h : p.Ready d₀) (a : SequenceAllocator) {e : PacketEvent}
    (he : e.Decoded) :
    p.consume a e =
      ⟨p.store (streamKey e) (p.decoded d₀ e).1 (keepSeqs (p.seqsFor e) (p.decoded d₀ e).2),
        (derive a e (p.seqsFor e) (p.decoded d₀ e).2).2,
        e :: (derive a e (p.seqsFor e) (p.decoded d₀ e).2).1, none⟩ := by
  obtain ⟨f, hf, -⟩ := h.factory
  have hcond : ¬ (e.type ≠ .rawBytes ∨ e.payload = []) := by simpa [PacketEvent.Decoded] using he
  simp only [consume, h.sink, hf, if_neg hcond, decodeSection_of_ready h hf, acceptingSink]
  simp only [deliver_acceptingSink]

theorem consume_ready (h : p.Ready d₀) (a : SequenceAllocator) (e : PacketEvent) :
    (p.consume a e).pipeline.Ready d₀ ∧ (p.consume a e).escaped = none ∧
      (p.consume a e).delivered = e :: (p.consume a e).delivered.tail := by
  by_cases he : e.Decoded
  · rw [consume_of_decoded h a he]
    exact ⟨h.store _ _ _, rfl, rfl⟩
  · rw [consume_of_not_decoded h a he]
    exact ⟨h, rfl, rfl⟩

/-- Each event of a run with the events delivered behind it. -/
def history (p : EventPipeline) (a : SequenceAllocator) :
    List PacketEvent → List (PacketEvent × List PacketEvent)
  | [] => []
  | e :: es => (e, (p.consume a e).delivered.tail) ::
      history (p.consume a e).pipeline (p.consume a e).allocator es

/-- The order in which the sink sees an event and what is derived from it. -/
def logOf (entries : List (PacketEvent × List PacketEvent)) : List PacketEvent :=
  entries.flatMap fun entry => entry.1 :: entry.2

@[simp] theorem history_map_fst (p : EventPipeline) (a : SequenceAllocator)
    (events : List PacketEvent) : (p.history a events).map Prod.fst = events := by
  induction events generalizing p a with
  | nil => rfl
  | cons e es ih => simp [history, ih]

theorem run_append (p : EventPipeline) (a : SequenceAllocator) (es fs : List PacketEvent) :
    p.run a (es ++ fs) =
      ⟨((p.run a es).pipeline.run (p.run a es).allocator fs).pipeline,
        ((p.run a es).pipeline.run (p.run a es).allocator fs).allocator,
        (p.run a es).log ++ ((p.run a es).pipeline.run (p.run a es).allocator fs).log,
        (p.run a es).escaped ++ ((p.run a es).pipeline.run (p.run a es).allocator fs).escaped⟩ := by
  induction es generalizing p a with
  | nil => rfl
  | cons e es ih => simp [run, ih]

theorem history_append (p : EventPipeline) (a : SequenceAllocator) (es fs : List PacketEvent) :
    p.history a (es ++ fs) =
      p.history a es ++ (p.run a es).pipeline.history (p.run a es).allocator fs := by
  induction es generalizing p a with
  | nil => rfl
  | cons e es ih => simp [history, run, ih]

theorem run_ready (h : p.Ready d₀) (a : SequenceAllocator) (events : List PacketEvent) :
    (p.run a events).pipeline.Ready d₀ := by
  induction events generalizing p a with
  | nil => exact h
  | cons e es ih => exact ih (consume_ready h a e).1 _

/-- Nothing escapes from a run, and the sink sees every event once, each followed by
what is derived from it. -/
theorem run_log (h : p.Ready d₀) (a : SequenceAllocator) (events : List PacketEvent) :
    (p.run a events).escaped = [] ∧ (p.run a events).log = logOf (p.history a events) := by
  induction events generalizing p a with
  | nil => exact ⟨rfl, rfl⟩
  | cons e es ih =>
    obtain ⟨hnext, hescaped, hdelivered⟩ := consume_ready h a e
    obtain ⟨he, hl⟩ := ih hnext (p.consume a e).allocator
    refine ⟨by simp [run, hescaped, he], ?_⟩
    simp only [run, history, logOf, List.flatMap_cons, hl]
    rw [← hdelivered]

end EventPipeline

end PacketProbe
