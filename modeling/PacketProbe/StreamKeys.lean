import PacketProbe.StreamIsolation

/-!
# Streams that share a decoder

`consume` keeps the decoder and the history of a stream under its key text. The text does not say
where its parts end, so two streams can have the same one: a separator inside a part passes for
the one between two parts.
-/

namespace PacketProbe
open SeparatedTexts EventPipeline

/-! ### The entry that a call uses -/

/-- A call of `consume` with the event uses the decoder and the history under this key, and no
others. -/
structure RoutesTo (e : PacketEvent) (key : ByteString) : Prop where
  keeps : ∀ (p : EventPipeline) (a : SequenceAllocator), ∀ other ≠ key,
    AgreeOn other (p.consume a e).pipeline p
  reads : ∀ (p q : EventPipeline) (a : SequenceAllocator), p.sink = q.sink →
    p.decoderFactory = q.decoderFactory → AgreeOn key p q →
    (p.consume a e).delivered = (q.consume a e).delivered ∧
      (p.consume a e).escaped = (q.consume a e).escaped ∧
      (p.consume a e).allocator = (q.consume a e).allocator ∧
      AgreeOn key (p.consume a e).pipeline (q.consume a e).pipeline
  builds : ∀ (p : EventPipeline) (d₀ : FrameDecoder) (a : SequenceAllocator), p.Ready d₀ →
    ((p.consume a e).pipeline.decoders key).isSome = true

/-- Both events go to the same decoder and the same history. -/
def SharesDecoder (e f : PacketEvent) : Prop := ∃ key, RoutesTo e key ∧ RoutesTo f key

variable {e f : PacketEvent} {key key' : ByteString}

/-- There is one entry that a call uses. -/
theorem RoutesTo.unique (h : RoutesTo e key) (h' : RoutesTo e key') : key = key' := by
  by_contra hne
  have hready : (fresh {}).Ready _ := ready_fresh rfl
  have hbuilt := h.builds (fresh {}) _ {} hready
  have hkept := (h'.keeps (fresh {}) {} key hne).1
  rw [hkept] at hbuilt
  cases hbuilt

namespace EventPipeline

variable {p q : EventPipeline}

/-- A call leaves the pipeline as it is, or it stores a decoder and a history under the key. -/
theorem consume_pipeline (p : EventPipeline) (a : SequenceAllocator) (e : PacketEvent) :
    (p.consume a e).pipeline = p ∨
      ∃ decoder seqs, (p.consume a e).pipeline = p.store (streamKey e) decoder seqs := by
  unfold consume
  split
  · exact .inl rfl
  split
  · exact .inl rfl
  split
  · exact .inl rfl
  split
  · exact .inl rfl
  rename_i factory _
  rw [decodeSection_eq]
  cases p.decoderFor factory (streamKey e) with
  | error ex => exact .inl rfl
  | ok decoder => exact .inr ⟨_, _, rfl⟩

/-- Two pipelines that agree on the key of an event treat it alike. -/
theorem AgreeOn.consume_eq (hsink : p.sink = q.sink)
    (hfactory : p.decoderFactory = q.decoderFactory)
    (h : AgreeOn (streamKey e) p q) (a : SequenceAllocator) :
    (p.consume a e).delivered = (q.consume a e).delivered ∧
      (p.consume a e).escaped = (q.consume a e).escaped ∧
      (p.consume a e).allocator = (q.consume a e).allocator ∧
      AgreeOn (streamKey e) (p.consume a e).pipeline (q.consume a e).pipeline := by
  have hfor : ∀ factory, p.decoderFor factory (streamKey e) =
      q.decoderFor factory (streamKey e) := by
    intro factory
    rw [decoderFor, decoderFor, h.1]
  have hseqs : p.seqsFor e = q.seqsFor e := by
    rw [seqsFor, seqsFor, h.2]
  unfold EventPipeline.consume
  rw [hsink, hfactory]
  split
  · exact ⟨rfl, rfl, rfl, h⟩
  split
  · exact ⟨rfl, rfl, rfl, h⟩
  split
  · exact ⟨rfl, rfl, rfl, h⟩
  split
  · exact ⟨rfl, rfl, rfl, h⟩
  rename_i factory _
  rw [decodeSection_eq, decodeSection_eq, hfor, hseqs]
  cases q.decoderFor factory (streamKey e) with
  | error ex => exact ⟨rfl, rfl, rfl, h⟩
  | ok decoder =>
    refine ⟨rfl, rfl, rfl, ?_⟩
    simp [AgreeOn, Except.map, EventPipeline.store]

end EventPipeline

theorem routesTo_streamKey (he : e.Decoded) : RoutesTo e (streamKey e) where
  keeps p a other hne := by
    rcases p.consume_pipeline a e with hsame | ⟨decoder, seqs, hstored⟩
    · rw [hsame]
      exact ⟨rfl, rfl⟩
    · rw [hstored]
      exact ⟨decoders_store_of_ne hne decoder seqs, streamRawSequences_store_of_ne hne decoder seqs⟩
  reads p q a hsink hfactory h := h.consume_eq hsink hfactory a
  builds p d₀ a hready := by
    rw [consume_of_decoded hready a he]
    simp [EventPipeline.store]

theorem sharesDecoder_iff (he : e.Decoded) (hf : f.Decoded) :
    SharesDecoder e f ↔ streamKey e = streamKey f := by
  constructor
  · rintro ⟨key, hekey, hfkey⟩
    exact ((routesTo_streamKey he).unique hekey).trans (hfkey.unique (routesTo_streamKey hf))
  · intro heq
    exact ⟨streamKey e, routesTo_streamKey he, heq ▸ routesTo_streamKey hf⟩

/-! ### Streams with the same key text -/

/-- The part of the key in front of the direction. -/
def PacketEvent.origin (e : PacketEvent) : ByteString := e.sessionId ++ separator :: e.transport

/-- The part of the key behind the direction. -/
def PacketEvent.endpoints (e : PacketEvent) : ByteString :=
  e.sourceEndpoint ++ separator :: e.destinationEndpoint

/-- The separator between session and transport is another one. -/
def OriginShifted (e f : PacketEvent) : Prop :=
  Shifted separator e.sessionId e.transport f.sessionId f.transport

def EndpointsShifted (e f : PacketEvent) : Prop :=
  Shifted separator e.sourceEndpoint e.destinationEndpoint f.sourceEndpoint f.destinationEndpoint

/-- The direction of the one event is inside a part of the other one, and the other way round. -/
def DirectionOvertakes (e f : PacketEvent) : Prop :=
  Overtakes separator e.origin e.direction.toText e.endpoints f.origin f.direction.toText
    f.endpoints

/-- The key texts differ in nothing but which separators stand between the parts. -/
def Confused (e f : PacketEvent) : Prop :=
  (e.direction = f.direction ∧
    ((OriginShifted e f ∧ e.sourceEndpoint = f.sourceEndpoint ∧
      e.destinationEndpoint = f.destinationEndpoint) ∨
      (e.sessionId = f.sessionId ∧ e.transport = f.transport ∧ EndpointsShifted e f) ∨
      (OriginShifted e f ∧ EndpointsShifted e f))) ∨
  DirectionOvertakes e f ∨ DirectionOvertakes f e

theorem streamKey_parts (e : PacketEvent) :
    streamKey e = e.origin ++ separator :: (e.direction.toText ++ separator :: e.endpoints) := by
  rw [streamKey_eq, PacketEvent.origin, PacketEvent.endpoints, List.append_assoc, List.cons_append]

theorem origin_eq_iff : e.origin = f.origin ↔
    (e.sessionId = f.sessionId ∧ e.transport = f.transport) ∨ OriginShifted e f :=
      append_cons_eq_iff

theorem endpoints_eq_iff : e.endpoints = f.endpoints ↔
    (e.sourceEndpoint = f.sourceEndpoint ∧ e.destinationEndpoint = f.destinationEndpoint) ∨
      EndpointsShifted e f := append_cons_eq_iff

theorem streamKey_eq_iff : streamKey e = streamKey f ↔
    (e.origin = f.origin ∧ e.direction = f.direction ∧ e.endpoints = f.endpoints) ∨
      DirectionOvertakes e f ∨ DirectionOvertakes f e := by
  rw [streamKey_parts, streamKey_parts,
    middle_eq_iff (separator_notMem_direction _) (separator_notMem_direction _),
    direction_toText_injective.eq_iff]
  rfl

theorem DirectionOvertakes.stream_ne (h : DirectionOvertakes e f) : e.stream ≠ f.stream := by
  intro hstream
  have horigin : e.origin = f.origin :=
    congrArg (fun s : Stream => s.sessionId ++ separator :: s.transport) hstream
  have hlength := Overtakes.length_lt h
  rw [horigin] at hlength
  exact Nat.lt_irrefl _ hlength

/-- Exactly the confused events have one key text and are of different streams. -/
theorem confused_iff : Confused e f ↔ streamKey e = streamKey f ∧ e.stream ≠ f.stream := by
  rw [streamKey_eq_iff, origin_eq_iff, endpoints_eq_iff]
  have hstream : e.stream = f.stream ↔ e.sessionId = f.sessionId ∧ e.transport = f.transport ∧
      e.direction = f.direction ∧ e.sourceEndpoint = f.sourceEndpoint ∧
      e.destinationEndpoint = f.destinationEndpoint := by
    simp only [PacketEvent.stream, Stream.mk.injEq]
  constructor
  · rintro (⟨hdirection, h⟩ | hafter | hbefore)
    · rcases h with
        ⟨horigin, hendpoints⟩ | ⟨hsession, htransport, hendpoints⟩ | ⟨horigin, hendpoints⟩
      · exact ⟨.inl ⟨.inr horigin, hdirection, .inl hendpoints⟩,
          fun h => horigin.ne (hstream.1 h).1⟩
      · exact ⟨.inl ⟨.inl ⟨hsession, htransport⟩, hdirection, .inr hendpoints⟩,
          fun h => hendpoints.ne (hstream.1 h).2.2.2.1⟩
      · exact ⟨.inl ⟨.inr horigin, hdirection, .inr hendpoints⟩,
          fun h => horigin.ne (hstream.1 h).1⟩
    · exact ⟨.inr (.inl hafter), hafter.stream_ne⟩
    · exact ⟨.inr (.inr hbefore), hbefore.stream_ne.symm⟩
  · rintro ⟨⟨horigin, hdirection, hendpoints⟩ | hovertakes, hne⟩
    · refine .inl ⟨hdirection, ?_⟩
      rcases horigin with ⟨hsession, htransport⟩ | horigin
      · rcases hendpoints with ⟨hsource, hdestination⟩ | hendpoints
        · exact absurd (hstream.2 ⟨hsession, htransport, hdirection, hsource, hdestination⟩) hne
        · exact .inr (.inl ⟨hsession, htransport, hendpoints⟩)
      · rcases hendpoints with hsame | hendpoints
        · exact .inl ⟨horigin, hsame⟩
        · exact .inr (.inr ⟨horigin, hendpoints⟩)
    · exact .inr hovertakes

theorem not_confused_of_separatorFree (he : SeparatorFree e) (hf : SeparatorFree f) :
    ¬ Confused e f := by
  intro h
  obtain ⟨hkey, hne⟩ := confused_iff.1 h
  exact hne (stream_eq_of_streamKey_eq he hf hkey)

/-- Two events have a decoder in common exactly if they are of one stream, unless a separator
inside a part of the one is taken for the end of a part of the other. -/
theorem streams_apart_iff (he : e.Decoded) (hf : f.Decoded) :
    (SharesDecoder e f ↔ e.stream = f.stream) ↔ ¬ Confused e f := by
  rw [sharesDecoder_iff he hf, confused_iff, not_and_not_right]
  exact ⟨Iff.mp, fun h => ⟨h, streamKey_eq_of_stream_eq⟩⟩

/-- A serial device whose path has a separator. -/
def pathWithSeparator : PacketEvent :=
  { sequence := 10, sessionId := ascii "serial-1", transport := ascii "serial",
    direction := .deviceToApp
    sourceEndpoint := ascii "/dev/pts/1|a", destinationEndpoint := ascii "packet-probe"
    payload := [0xAA] }

/-- The separator is in the destination. -/
def destinationWithSeparator : PacketEvent :=
  { pathWithSeparator with
    sequence := 11
    sourceEndpoint := ascii "/dev/pts/1"
    destinationEndpoint := ascii "a|packet-probe"
    payload := [0xBB] }

/-- The two streams share their decoder. -/
theorem streams_share_decoder :
    ¬ (SharesDecoder pathWithSeparator destinationWithSeparator ↔
      pathWithSeparator.stream = destinationWithSeparator.stream) := by
  intro h
  have hshared : SharesDecoder pathWithSeparator destinationWithSeparator :=
    (sharesDecoder_iff (by decide) (by decide)).2 (by decide)
  exact absurd (h.1 hshared) (by decide)

/-- The two directions of a serial link whose path has no separator. -/
def sentToDevice : PacketEvent :=
  { sequence := 10, sessionId := ascii "serial-1", transport := ascii "serial"
    sourceEndpoint := ascii "packet-probe", destinationEndpoint := ascii "/dev/pts/1"
    payload := [0xAA] }

def receivedFromDevice : PacketEvent :=
  { sentToDevice with
    sequence := 11
    direction := .deviceToApp
    sourceEndpoint := ascii "/dev/pts/1"
    destinationEndpoint := ascii "packet-probe" }

theorem streams_apart_both_directions :
    SharesDecoder sentToDevice receivedFromDevice ↔
      sentToDevice.stream = receivedFromDevice.stream :=
  (streams_apart_iff (by decide) (by decide)).2
    (not_confused_of_separatorFree (by decide) (by decide))

end PacketProbe
