import PacketProbe.PipelineRuns

/-!
# What a stream gets out of a run

Along a run over any streams, the decoder of one stream key is fed the payloads of that
key chunk by chunk, and its answers are the events derived for the key.
-/

namespace PacketProbe
open StreamSplitting

/-- The payloads of a stream key that are decoded, in their order. -/
def streamPayloads (key : ByteString) (events : List PacketEvent) : List Bytes :=
  (events.filter fun e => e.Decoded ∧ streamKey e = key).map PacketEvent.payload

def streamBytes (key : ByteString) (events : List PacketEvent) : Bytes :=
  (streamPayloads key events).flatten

/-- All that a history derives from the events of a stream key. -/
def derivedOf (key : ByteString) (entries : List (PacketEvent × List PacketEvent)) :
    List PacketEvent :=
  (entries.filter fun entry => streamKey entry.1 = key).flatMap Prod.snd

/-- What a derived event says about its stream: a frame with its bytes, or an error. -/
def PacketEvent.outcome (e : PacketEvent) : EventType × Bytes := (e.type, e.payload)

def frameOutcome (frame : Bytes) : EventType × Bytes := (.frame, frame)

def errorOutcome : EventType × Bytes := (.error, [])

/-- What the pipeline reports of one turn of a decoder. -/
def outcomes (d : Drained UInt8 Bytes StdException) : List (EventType × Bytes) :=
  match d.error with
  | none => d.items.map frameOutcome
  | some _ => [errorOutcome]

section Lists

variable {key : ByteString} {e : PacketEvent} {es : List PacketEvent}
  {entries : List (PacketEvent × List PacketEvent)}

theorem streamPayloads_append (key : ByteString) (es fs : List PacketEvent) :
    streamPayloads key (es ++ fs) = streamPayloads key es ++ streamPayloads key fs := by
  simp [streamPayloads]

theorem streamBytes_append (key : ByteString) (es fs : List PacketEvent) :
    streamBytes key (es ++ fs) = streamBytes key es ++ streamBytes key fs := by
  simp [streamBytes, streamPayloads_append]

theorem streamPayloads_cons_of_decoded (he : e.Decoded) (hkey : streamKey e = key) :
    streamPayloads key (e :: es) = e.payload :: streamPayloads key es := by
  simp [streamPayloads, he, hkey]

theorem streamPayloads_cons_of_not (h : ¬ (e.Decoded ∧ streamKey e = key)) :
    streamPayloads key (e :: es) = streamPayloads key es := by
  simp only [streamPayloads, List.filter_cons, h, decide_false, Bool.false_eq_true, if_false]

theorem streamBytes_eq_nil_iff : streamBytes key es = [] ↔ streamPayloads key es = [] := by
  constructor
  · intro h
    refine List.eq_nil_iff_forall_not_mem.2 fun payload hmem => ?_
    have hnil := List.flatten_eq_nil_iff.1 h payload hmem
    obtain ⟨e, he, rfl⟩ := List.mem_map.1 hmem
    have hdecoded : e.Decoded := by
      have := (List.mem_filter.1 he).2
      simp only [decide_eq_true_eq] at this
      exact this.1
    exact hdecoded.2 hnil
  · intro h
    simp [streamBytes, h]

theorem derivedOf_cons_of_eq (hkey : streamKey e = key) :
    derivedOf key ((e, es) :: entries) = es ++ derivedOf key entries := by
  simp [derivedOf, hkey]

theorem derivedOf_cons_of_ne (hkey : streamKey e ≠ key) :
    derivedOf key ((e, es) :: entries) = derivedOf key entries := by
  simp [derivedOf, hkey]

end Lists

namespace EventPipeline

/-- A ready pipeline all of whose decoders run the loop `s`. -/
structure Looping (p : EventPipeline) (d₀ : FrameDecoder) (s : Splitter UInt8 Bytes StdException) :
    Prop extends p.Ready d₀ where
  loop : ∀ key, (p.decoderAt d₀ key).loop = some s

/-- The bytes the decoder of a stream key carries. -/
def bufferAt (p : EventPipeline) (d₀ : FrameDecoder) (key : ByteString) : Bytes :=
  (p.decoderAt d₀ key).buffer

variable {p : EventPipeline} {d₀ : FrameDecoder} {s : Splitter UInt8 Bytes StdException}
  {key : ByteString} {e : PacketEvent}

theorem looping_fresh {config : DecoderConfig} (h : createFrameDecoder config = .ok d₀)
    (hs : d₀.loop = some s) : (fresh config).Looping d₀ s :=
  ⟨ready_fresh h, fun _ => hs⟩

theorem decoderAt_store_of_ne {other : ByteString} (h : other ≠ key) (d : FrameDecoder)
    (seqs : List UInt64) : (p.store key d seqs).decoderAt d₀ other = p.decoderAt d₀ other := by
  simp only [decoderAt, decoders_store_of_ne h]

/-- An event that is not decoded, or belongs to another stream, leaves a stream alone. -/
theorem consume_unaffected (h : p.Ready d₀) (a : SequenceAllocator)
    (he : ¬ (e.Decoded ∧ streamKey e = key)) :
    (p.consume a e).pipeline.decoderAt d₀ key = p.decoderAt d₀ key ∧
      (p.consume a e).pipeline.streamRawSequences key = p.streamRawSequences key := by
  by_cases hd : e.Decoded
  · have hkey : key ≠ streamKey e := fun hk => he ⟨hd, hk.symm⟩
    rw [consume_of_decoded h a hd]
    exact ⟨decoderAt_store_of_ne hkey _ _, streamRawSequences_store_of_ne hkey _ _⟩
  · rw [consume_of_not_decoded h a hd]
    exact ⟨rfl, rfl⟩

/-- What the loop makes of an event: the drained buffer and payload. -/
theorem Looping.decoded_eq (h : p.Looping d₀ s) (e : PacketEvent) :
    p.decoded d₀ e =
      ((p.decoderAt d₀ (streamKey e)).setBuffer
          (consumeBuffered s (p.bufferAt d₀ (streamKey e)) e.payload).1,
        (consumeBuffered s (p.bufferAt d₀ (streamKey e)) e.payload).2) :=
  FrameDecoder.consume_of_loop (h.loop _) _

/-- The decoder of the event's stream drains its buffer together with the payload. -/
theorem Looping.bufferAt_consume (h : p.Looping d₀ s) (a : SequenceAllocator) (he : e.Decoded) :
    (p.consume a e).pipeline.bufferAt d₀ (streamKey e) =
      (s.drain (p.bufferAt d₀ (streamKey e) ++ e.payload)).rest := by
  rw [consume_of_decoded h.toReady a he, bufferAt, decoderAt_store_self, h.decoded_eq]
  exact FrameDecoder.buffer_setBuffer (h.loop _) _

/-- The history is dropped on an error and when the buffer runs empty. -/
theorem Looping.seqs_consume (h : p.Looping d₀ s) (a : SequenceAllocator) (he : e.Decoded) :
    (p.consume a e).pipeline.streamRawSequences (streamKey e) = [] ↔
      (s.drain (p.bufferAt d₀ (streamKey e) ++ e.payload)).error ≠ none ∨
        (s.drain (p.bufferAt d₀ (streamKey e) ++ e.payload)).rest = [] := by
  rw [consume_of_decoded h.toReady a he, streamRawSequences_store_self, h.decoded_eq]
  simp only [consumeBuffered]
  cases (s.drain (p.bufferAt d₀ (streamKey e) ++ e.payload)).error with
  | none =>
    simp only [keepSeqs, ne_eq, not_true, false_or]
    split
    · simpa using ‹_›
    · simpa [seqsFor] using ‹_›
  | some ex => simp [keepSeqs]

/-- The derived events report what the loop made of the payload. -/
theorem Looping.outcomes_consume (h : p.Looping d₀ s) (a : SequenceAllocator) (he : e.Decoded) :
    (p.consume a e).delivered.tail.map PacketEvent.outcome =
      outcomes (s.drain (p.bufferAt d₀ (streamKey e) ++ e.payload)) := by
  have hframes : ∀ (a : SequenceAllocator) (seqs : List UInt64) (frames : List Bytes),
      (makeFrameEvents a e seqs frames).1.map PacketEvent.outcome = frames.map frameOutcome := by
    intro a seqs frames
    induction frames generalizing a with
    | nil => rfl
    | cons f fs ih => simp [makeFrameEvents, makeFrameEvent, ih, PacketEvent.outcome, frameOutcome]
  rw [consume_of_decoded h.toReady a he, h.decoded_eq]
  simp only [consumeBuffered, outcomes, List.tail_cons]
  cases (s.drain (p.bufferAt d₀ (streamKey e) ++ e.payload)).error with
  | none => exact hframes _ _ _
  | some ex => rfl

theorem Looping.consume (h : p.Looping d₀ s) (a : SequenceAllocator) (e : PacketEvent) :
    (p.consume a e).pipeline.Looping d₀ s := by
  refine ⟨(consume_ready h.toReady a e).1, fun key => ?_⟩
  by_cases he : e.Decoded ∧ streamKey e = key
  · obtain ⟨hd, rfl⟩ := he
    rw [consume_of_decoded h.toReady a hd, decoderAt_store_self, h.decoded_eq,
      FrameDecoder.loop_setBuffer]
    exact h.loop _
  · rw [(consume_unaffected h.toReady a he).1]
    exact h.loop key

theorem Looping.run (h : p.Looping d₀ s) (a : SequenceAllocator) (events : List PacketEvent) :
    (p.run a events).pipeline.Looping d₀ s := by
  induction events generalizing p a with
  | nil => exact h
  | cons e es ih => exact ih (h.consume a e) _

/-- The events derived for a stream report its payloads, fed chunk by chunk. -/
theorem Looping.outcomes_history (h : p.Looping d₀ s) (a : SequenceAllocator) (key : ByteString)
    (events : List PacketEvent) :
    (derivedOf key (p.history a events)).map PacketEvent.outcome =
      (s.feed (p.bufferAt d₀ key) (streamPayloads key events)).flatMap outcomes := by
  induction events generalizing p a with
  | nil => rfl
  | cons e es ih =>
    have htail := ih (h.consume a e) (p.consume a e).allocator
    by_cases he : e.Decoded ∧ streamKey e = key
    · obtain ⟨hd, rfl⟩ := he
      rw [history, derivedOf_cons_of_eq rfl, streamPayloads_cons_of_decoded hd rfl, List.map_append,
        htail, h.outcomes_consume a hd, h.bufferAt_consume a hd]
      rfl
    · rw [streamPayloads_cons_of_not he, history]
      rw [bufferAt, (consume_unaffected h.toReady a he).1] at htail
      by_cases hkey : streamKey e = key
      · have hd : ¬ e.Decoded := fun hd => he ⟨hd, hkey⟩
        rw [derivedOf_cons_of_eq hkey, List.map_append, htail,
          consume_of_not_decoded h.toReady a hd]
        simp [bufferAt]
      · rw [derivedOf_cons_of_ne hkey, htail, bufferAt]

/-- After a run the decoder of a stream holds what draining all its bytes leaves. -/
theorem Looping.bufferAt_run (h : p.Looping d₀ s) (a : SequenceAllocator) (key : ByteString)
    (events : List PacketEvent) (hb : s.cut (p.bufferAt d₀ key) = .wait) :
    ((p.run a events).pipeline).bufferAt d₀ key =
      (s.drain (p.bufferAt d₀ key ++ streamBytes key events)).rest := by
  induction events using List.reverseRecOn with
  | nil => simp [EventPipeline.run, streamBytes, streamPayloads, Splitter.drain_wait hb]
  | append_singleton es e ih =>
    have hr := h.run a es
    rw [run_append, streamBytes_append]
    change ((p.run a es).pipeline.consume (p.run a es).allocator e).pipeline.bufferAt d₀ key = _
    by_cases he : e.Decoded ∧ streamKey e = key
    · obtain ⟨hd, rfl⟩ := he
      rw [hr.bufferAt_consume _ hd, ih, (Splitter.drain_rest_append _ _).1, streamBytes,
        streamBytes, streamPayloads_cons_of_decoded hd rfl]
      simp [streamPayloads]
    · rw [bufferAt, (consume_unaffected hr.toReady _ he).1, ← bufferAt, ih, streamBytes,
        streamBytes, streamPayloads_cons_of_not he]
      simp [streamPayloads]

/-- After a run the history of a stream is empty if its bytes ran into an error or left
nothing behind. -/
theorem Looping.seqs_run (h : p.Looping d₀ s) (a : SequenceAllocator) (key : ByteString)
    (events : List PacketEvent) (hb : p.bufferAt d₀ key = []) (hwait : s.cut [] = .wait)
    (hseqs : p.streamRawSequences key = []) :
    ((p.run a events).pipeline).streamRawSequences key = [] ↔
      (s.drain (streamBytes key events)).error ≠ none ∨
        (s.drain (streamBytes key events)).rest = [] := by
  induction events using List.reverseRecOn with
  | nil => simp [EventPipeline.run, streamBytes, streamPayloads, Splitter.drain_wait hwait, hseqs]
  | append_singleton es e ih =>
    have hr := h.run a es
    have hbuf := h.bufferAt_run a key es (by rwa [hb])
    rw [hb, List.nil_append] at hbuf
    rw [run_append, streamBytes_append]
    change ((p.run a es).pipeline.consume (p.run a es).allocator e).pipeline.streamRawSequences
      key =
      [] ↔ _
    by_cases he : e.Decoded ∧ streamKey e = key
    · obtain ⟨hd, rfl⟩ := he
      have hsingle : streamBytes (streamKey e) [e] = e.payload := by
        rw [streamBytes, streamPayloads_cons_of_decoded hd rfl]
        simp [streamPayloads]
      obtain ⟨hrest, herror⟩ :=
        Splitter.drain_rest_append (s := s) (streamBytes (streamKey e) es) e.payload
      rw [hr.seqs_consume _ hd, hbuf, hsingle, hrest, herror]
    · have hsingle : streamBytes key [e] = [] := by
        rw [streamBytes, streamPayloads_cons_of_not he]
        rfl
      rw [(consume_unaffected hr.toReady _ he).2, ih, hsingle, List.append_nil]

end EventPipeline

end PacketProbe
