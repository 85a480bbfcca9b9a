import PacketProbe.StreamDecoding
import PacketProbe.StreamIsolation

/-!
# From traffic to frames

A session records its traffic as raw events among others. The pipeline then reports for each
stream what a decoder reports that is fed the traffic of this stream and nothing else.
-/

namespace PacketProbe

/-- What the pipeline reports of a decoder's answer. -/
def answerOutcomes : Except StdException FrameDecodeResult → List (EventType × Bytes)
  | .ok result => result.frames.map frameOutcome
  | .error _ => [errorOutcome]

/-- The reports about a decoder that is fed chunk by chunk. -/
def FrameDecoder.reports : FrameDecoder → List Bytes → List (EventType × Bytes)
  | _, [] => []
  | d, chunk :: chunks => answerOutcomes (d.consume chunk).2 ++ (d.consume chunk).1.reports chunks

namespace EventPipeline

variable {p : EventPipeline} {d₀ : FrameDecoder}

theorem outcomes_makeFrameEvents (a : SequenceAllocator) (e : PacketEvent) (seqs : List UInt64)
    (frames : List Bytes) :
    (makeFrameEvents a e seqs frames).1.map PacketEvent.outcome = frames.map frameOutcome := by
  induction frames generalizing a with
  | nil => rfl
  | cons frame frames ih =>
    simp [makeFrameEvents, makeFrameEvent, ih, PacketEvent.outcome, frameOutcome]

theorem outcomes_derive (a : SequenceAllocator) (e : PacketEvent) (seqs : List UInt64)
    (answer : Except StdException FrameDecodeResult) :
    (derive a e seqs answer).1.map PacketEvent.outcome = answerOutcomes answer := by
  cases answer with
  | ok result => exact outcomes_makeFrameEvents a e seqs result.frames
  | error ex => rfl

/-- What is derived for a stream key reports the payloads under it, as the decoder takes them. -/
theorem reports_history (h : p.Ready d₀) (a : SequenceAllocator) (key : ByteString)
    (events : List PacketEvent) :
    (derivedOf key (p.history a events)).map PacketEvent.outcome =
      (p.decoderAt d₀ key).reports (streamPayloads key events) := by
  induction events generalizing p a with
  | nil => rfl
  | cons e es ih =>
    have htail := ih (consume_ready h a e).1 (p.consume a e).allocator
    by_cases he : e.Decoded ∧ streamKey e = key
    · obtain ⟨hdecoded, rfl⟩ := he
      rw [history, derivedOf_cons_of_eq rfl, streamPayloads_cons_of_decoded hdecoded rfl,
        List.map_append, htail, consume_of_decoded h a hdecoded, List.tail_cons, outcomes_derive,
        decoderAt_store_self]
      rfl
    · rw [(consume_unaffected h a he).1] at htail
      rw [history, streamPayloads_cons_of_not he]
      by_cases hkey : streamKey e = key
      · have hdecoded : ¬ e.Decoded := fun hdecoded => he ⟨hdecoded, hkey⟩
        rw [derivedOf_cons_of_eq hkey, List.map_append, htail, consume_of_not_decoded h a hdecoded]
        rfl
      · rw [derivedOf_cons_of_ne hkey, htail]

end EventPipeline

/-! ### Traffic -/

/-- An event of a stream. -/
def Stream.event (σ : Stream) : PacketEvent where
  sessionId := σ.sessionId
  transport := σ.transport
  direction := σ.direction
  sourceEndpoint := σ.sourceEndpoint
  destinationEndpoint := σ.destinationEndpoint

/-- The key of a stream's events. -/
def Stream.key (σ : Stream) : ByteString := streamKey σ.event

/-- Two streams of one session: where they have one direction, one end is the same. -/
structure Stream.Akin (σ τ : Stream) : Prop where
  sessionId : σ.sessionId = τ.sessionId
  transport : σ.transport = τ.transport
  ends : σ.direction = τ.direction →
    σ.sourceEndpoint = τ.sourceEndpoint ∨ σ.destinationEndpoint = τ.destinationEndpoint

/-- The payloads of the raw events with their streams. -/
def rawTraffic (log : List PacketEvent) : List (Stream × Bytes) :=
  (log.filter fun e => e.type = .rawBytes).map fun e => (e.stream, e.payload)

/-- The chunks of a stream that there is something to decode in. -/
def chunksOf (σ : Stream) (traffic : List (Stream × Bytes)) : List Bytes :=
  (traffic.filter fun item => item.1 = σ ∧ item.2 ≠ []).map Prod.snd

variable {σ : Stream} {log : List PacketEvent} {e : PacketEvent}

@[simp] theorem rawTraffic_append (log events : List PacketEvent) :
    rawTraffic (log ++ events) = rawTraffic log ++ rawTraffic events := by
  simp [rawTraffic]

theorem rawTraffic_raw (h : e.type = .rawBytes) : rawTraffic [e] = [(e.stream, e.payload)] := by
  simp [rawTraffic, h]

theorem rawTraffic_other (h : e.type ≠ .rawBytes) : rawTraffic [e] = [] := by
  simp [rawTraffic, h]

/-- The chunks of a stream, read off the items that the traffic is recorded from. -/
theorem chunksOf_map {α : Type} {record : α → Stream × Bytes} {read : α → Option Bytes}
    (hread : ∀ item, read item = if (record item).1 = σ then some (record item).2 else none)
    (items : List α) :
    chunksOf σ (items.map record) = (items.filterMap read).filter (· ≠ []) := by
  induction items with
  | nil => rfl
  | cons item items ih =>
    unfold chunksOf at ih ⊢
    by_cases hσ : (record item).1 = σ
    · have hsome : read item = some (record item).2 := by rw [hread, if_pos hσ]
      rw [List.map_cons, List.filterMap_cons_some hsome]
      by_cases hnil : (record item).2 = []
      · rw [List.filter_cons_of_neg (by simp [hnil]), List.filter_cons_of_neg (by simp [hnil]), ih]
      · rw [List.filter_cons_of_pos (by simp [hσ, hnil]), List.filter_cons_of_pos (by simp [hnil]),
          List.map_cons, ih]
    · have hnone : read item = none := by rw [hread, if_neg hσ]
      rw [List.map_cons, List.filterMap_cons_none hnone, List.filter_cons_of_neg (by simp [hσ]), ih]

/-- Streams of one session have one key only if they are one stream, whatever their names are. -/
theorem key_eq_iff (hakin : e.stream.Akin σ) : streamKey e = σ.key ↔ e.stream = σ := by
  constructor
  · intro h
    have hsession : e.sessionId = σ.event.sessionId := hakin.sessionId
    have htransport : e.transport = σ.event.transport := hakin.transport
    rw [Stream.key, streamKey_eq, streamKey_eq, hsession, htransport] at h
    have hbehindSession := (List.cons.inj (List.append_cancel_left h)).2
    have hbehindTransport := (List.cons.inj (List.append_cancel_left hbehindSession)).2
    obtain ⟨htext, hendpoints⟩ := SeparatedTexts.append_cons_inj (separator_notMem_direction _)
      (separator_notMem_direction _) hbehindTransport
    have hdirection : e.direction = σ.event.direction := direction_toText_injective htext
    have hboth : e.sourceEndpoint = σ.event.sourceEndpoint ∧
        e.destinationEndpoint = σ.event.destinationEndpoint := by
      rcases hakin.ends hdirection with hsource | hdestination
      · have hsource : e.sourceEndpoint = σ.event.sourceEndpoint := hsource
        rw [hsource] at hendpoints
        exact ⟨hsource, (List.cons.inj (List.append_cancel_left hendpoints)).2⟩
      · have hdestination : e.destinationEndpoint = σ.event.destinationEndpoint := hdestination
        rw [hdestination] at hendpoints
        exact ⟨List.append_cancel_right hendpoints, hdestination⟩
    change e.stream = σ.event.stream
    simp only [PacketEvent.stream, Stream.mk.injEq]
    exact ⟨hsession, htransport, hdirection, hboth⟩
  · rintro rfl
    rfl

theorem streamPayloads_key (hakin : ∀ item ∈ rawTraffic log, item.1.Akin σ) :
    streamPayloads σ.key log = chunksOf σ (rawTraffic log) := by
  induction log with
  | nil => rfl
  | cons e log ih =>
    have hsplit : rawTraffic (e :: log) = rawTraffic [e] ++ rawTraffic log :=
      rawTraffic_append [e] log
    rw [hsplit] at hakin ⊢
    have hrest := ih fun item hitem => hakin item (List.mem_append_right _ hitem)
    by_cases hraw : e.type = .rawBytes
    · have hkey := key_eq_iff (hakin (e.stream, e.payload) (by simp [rawTraffic_raw hraw]))
      rw [rawTraffic_raw hraw, List.singleton_append]
      by_cases he : e.Decoded ∧ streamKey e = σ.key
      · rw [streamPayloads_cons_of_decoded he.1 he.2, hrest]
        simp [chunksOf, hkey.1 he.2, he.1.2]
      · have hother : ¬ (e.stream = σ ∧ e.payload ≠ []) :=
          fun h => he ⟨⟨hraw, h.2⟩, hkey.2 h.1⟩
        rw [streamPayloads_cons_of_not he, hrest, chunksOf, chunksOf,
          List.filter_cons_of_neg (by simpa using hother)]
    · rw [rawTraffic_other hraw, List.nil_append, streamPayloads_cons_of_not fun h => hraw h.1.1,
        hrest]

/-- A fresh pipeline that is handed a session's events reports, for each stream, the session's
traffic on this stream as one decoder takes it. -/
theorem reports_of_traffic {config : DecoderConfig} {d₀ : FrameDecoder}
    (hcreate : createFrameDecoder config = .ok d₀)
    (hakin : ∀ item ∈ rawTraffic log, item.1.Akin σ) (a : SequenceAllocator) :
    (derivedOf σ.key ((EventPipeline.fresh config).history a log)).map PacketEvent.outcome =
      d₀.reports (chunksOf σ (rawTraffic log)) := by
  rw [EventPipeline.reports_history (EventPipeline.ready_fresh hcreate), streamPayloads_key hakin]
  rfl

end PacketProbe
