import PacketProbe.PipelineRuns
import PacketProbe.SeparatedTexts

/-!
# Streams do not see each other

The key text of a stream determines the stream as long as no part in front of the
last separator contains one. A run over interleaved streams then simulates, for each
stream, the run of a fresh pipeline that is fed this stream alone: the two pipelines
agree on the stream's decoder and history, and other events do not touch these.
-/

namespace PacketProbe
open SeparatedTexts

/-- The byte `|` between the parts of a stream key. -/
def separator : UInt8 := 124

/-- No part of the key in front of the last separator contains one. -/
def SeparatorFree (e : PacketEvent) : Prop :=
  separator ∉ e.sessionId ∧ separator ∉ e.transport ∧ separator ∉ e.sourceEndpoint

instance (e : PacketEvent) : Decidable (SeparatorFree e) :=
  inferInstanceAs (Decidable (_ ∧ _ ∧ _))

theorem separator_notMem_direction (d : Direction) : separator ∉ d.toText := by
  cases d <;> decide

theorem direction_toText_injective : Function.Injective Direction.toText := by
  intro a b h
  cases a <;> cases b <;> first | rfl | exact absurd h (by decide)

theorem streamKey_eq (e : PacketEvent) :
    streamKey e = e.sessionId ++ separator :: (e.transport ++ separator ::
      (e.direction.toText ++ separator ::
        (e.sourceEndpoint ++ separator :: e.destinationEndpoint))) := by
  have hsep : ascii "|" = [separator] := by decide
  simp [streamKey, hsep, List.append_assoc]

theorem stream_eq_of_streamKey_eq {e f : PacketEvent} (he : SeparatorFree e) (hf : SeparatorFree f)
    (h : streamKey e = streamKey f) : e.stream = f.stream := by
  rw [streamKey_eq, streamKey_eq] at h
  obtain ⟨hsession, h⟩ := append_cons_inj he.1 hf.1 h
  obtain ⟨htransport, h⟩ := append_cons_inj he.2.1 hf.2.1 h
  obtain ⟨hdirection, h⟩ :=
    append_cons_inj (separator_notMem_direction _) (separator_notMem_direction _) h
  obtain ⟨hsource, hdestination⟩ := append_cons_inj he.2.2 hf.2.2 h
  have hd := direction_toText_injective hdirection
  simp [PacketEvent.stream, hsession, htransport, hd, hsource, hdestination]

theorem streamKey_eq_of_stream_eq {e f : PacketEvent} (h : e.stream = f.stream) :
    streamKey e = streamKey f := by
  simp only [PacketEvent.stream, Stream.mk.injEq] at h
  obtain ⟨h₁, h₂, h₃, h₄, h₅⟩ := h
  simp [streamKey, h₁, h₂, h₃, h₄, h₅]

/-- An event without the number drawn from the allocator. -/
def PacketEvent.unsequenced (e : PacketEvent) : PacketEvent := { e with sequence := 0 }

/-- An entry of a history, its derived events without their sequence numbers. -/
def unsequencedEntry (entry : PacketEvent × List PacketEvent) : PacketEvent × List PacketEvent :=
  (entry.1, entry.2.map PacketEvent.unsequenced)

/-- What a decoder derives from an event: one frame event for each frame in decoding
order, or one error event. -/
inductive DerivedFrom (decoder : FrameDecoder) (e : PacketEvent) : List PacketEvent → Prop
  | frames (next : FrameDecoder) (result : FrameDecodeResult) (events : List PacketEvent)
      (hdecode : decoder.consume e.payload = (next, .ok result))
      (hpayloads : events.map PacketEvent.payload = result.frames)
      (hevents : ∀ f ∈ events, f.type = .frame ∧ f.stream = e.stream ∧
        f.parentSequence = e.sequence) : DerivedFrom decoder e events
  | error (next : FrameDecoder) (ex : StdException) (event : PacketEvent)
      (hdecode : decoder.consume e.payload = (next, .error ex))
      (hevent : event.type = .error ∧ event.stream = e.stream ∧
        event.parentSequence = e.sequence ∧ event.summary = ascii "decoder error: " ++ ex.what) :
      DerivedFrom decoder e [event]

namespace EventPipeline

theorem makeFrameEvents_payloads (a : SequenceAllocator) (e : PacketEvent) (seqs : List UInt64)
    (frames : List Bytes) :
    (makeFrameEvents a e seqs frames).1.map PacketEvent.payload = frames := by
  induction frames generalizing a with
  | nil => rfl
  | cons f fs ih => simp [makeFrameEvents, makeFrameEvent, ih]

theorem mem_makeFrameEvents {a : SequenceAllocator} {e f : PacketEvent} {seqs : List UInt64}
    {frames : List Bytes} (hf : f ∈ (makeFrameEvents a e seqs frames).1) :
    f.type = .frame ∧ f.stream = e.stream ∧ f.parentSequence = e.sequence ∧
      f.parentSequences = seqs := by
  induction frames generalizing a with
  | nil => simp [makeFrameEvents] at hf
  | cons g gs ih =>
    rcases List.mem_cons.1 hf with rfl | hf
    · exact ⟨rfl, rfl, rfl, rfl⟩
    · exact ih hf

/-- Up to sequence numbers the frame events do not depend on the allocator. -/
theorem makeFrameEvents_unsequenced (a a' : SequenceAllocator) (e : PacketEvent)
    (seqs : List UInt64) (frames : List Bytes) :
    (makeFrameEvents a e seqs frames).1.map PacketEvent.unsequenced =
      (makeFrameEvents a' e seqs frames).1.map PacketEvent.unsequenced := by
  induction frames generalizing a a' with
  | nil => rfl
  | cons f fs ih =>
    simp only [makeFrameEvents, List.map_cons]
    rw [ih]
    rfl

theorem derive_unsequenced (a a' : SequenceAllocator) (e : PacketEvent) (seqs : List UInt64)
    (result : Except StdException FrameDecodeResult) :
    (derive a e seqs result).1.map PacketEvent.unsequenced =
      (derive a' e seqs result).1.map PacketEvent.unsequenced := by
  cases result with
  | error ex => rfl
  | ok result => exact makeFrameEvents_unsequenced a a' e seqs result.frames

variable {p q : EventPipeline} {d₀ : FrameDecoder}

theorem derivedFrom_consume (h : p.Ready d₀) (a : SequenceAllocator) {e : PacketEvent}
    (he : e.Decoded) :
    DerivedFrom (p.decoderAt d₀ (streamKey e)) e (p.consume a e).delivered.tail := by
  rw [consume_of_decoded h a he]
  rcases hd : p.decoded d₀ e with ⟨next, ex | result⟩
  · exact .error next ex _ hd ⟨rfl, rfl, rfl, rfl⟩
  · refine .frames next result _ hd (makeFrameEvents_payloads _ _ _ _) fun f hf => ?_
    obtain ⟨htype, hstream, hparent, -⟩ := mem_makeFrameEvents hf
    exact ⟨htype, hstream, hparent⟩

theorem stream_of_mem_derived (h : p.Ready d₀) (a : SequenceAllocator) (e : PacketEvent)
    {f : PacketEvent} (hf : f ∈ (p.consume a e).delivered.tail) : f.stream = e.stream := by
  by_cases he : e.Decoded
  · have hd := derivedFrom_consume h a he
    generalize (p.consume a e).delivered.tail = derived at hd hf
    cases hd with
    | frames _ _ _ _ _ hevents => exact (hevents f hf).2.1
    | error _ _ event _ hevent =>
      rcases List.mem_singleton.1 hf with rfl
      exact hevent.2.1
  · simp [consume_of_not_decoded h a he] at hf

/-- Two pipelines agree on the decoder and the history of a stream key. -/
def AgreeOn (key : ByteString) (p q : EventPipeline) : Prop :=
  p.decoders key = q.decoders key ∧ p.streamRawSequences key = q.streamRawSequences key

/-- An event of the stream itself is treated alike and keeps the agreement. -/
theorem AgreeOn.consume (hp : p.Ready d₀) (hq : q.Ready d₀) (e : PacketEvent)
    (h : AgreeOn (streamKey e) p q) (a a' : SequenceAllocator) :
    (p.consume a e).delivered.tail.map PacketEvent.unsequenced =
        (q.consume a' e).delivered.tail.map PacketEvent.unsequenced ∧
      AgreeOn (streamKey e) (p.consume a e).pipeline (q.consume a' e).pipeline := by
  by_cases he : e.Decoded
  · have hdecoded : p.decoded d₀ e = q.decoded d₀ e := by simp only [decoded, decoderAt, h.1]
    have hseqs : p.seqsFor e = q.seqsFor e := by simp only [seqsFor, h.2]
    rw [consume_of_decoded hp a he, consume_of_decoded hq a' he, hdecoded, hseqs]
    refine ⟨derive_unsequenced _ _ _ _ _, ?_, ?_⟩
    · simp [EventPipeline.store]
    · simp [EventPipeline.store]
  · rw [consume_of_not_decoded hp a he, consume_of_not_decoded hq a' he]
    exact ⟨rfl, h⟩

/-- An event of another stream keeps the agreement with an idle pipeline. -/
theorem AgreeOn.consume_other (hp : p.Ready d₀) (e : PacketEvent) {key : ByteString}
    (hkey : streamKey e ≠ key) (h : AgreeOn key p q) (a : SequenceAllocator) :
    AgreeOn key (p.consume a e).pipeline q := by
  by_cases he : e.Decoded
  · rw [consume_of_decoded hp a he]
    exact ⟨(decoders_store_of_ne hkey.symm _ _).trans h.1,
      (streamRawSequences_store_of_ne hkey.symm _ _).trans h.2⟩
  · rw [consume_of_not_decoded hp a he]
    exact h

/-- The simulation along a whole run. -/
theorem AgreeOn.history (hp : p.Ready d₀) (hq : q.Ready d₀) (σ : Stream) (key : ByteString)
    (events : List PacketEvent) (hkey : ∀ e ∈ events, e.stream = σ ↔ streamKey e = key)
    (h : AgreeOn key p q) (a a' : SequenceAllocator) :
    ((p.history a events).filter (·.1.stream = σ)).map unsequencedEntry =
      (q.history a' (events.filter (·.stream = σ))).map unsequencedEntry := by
  induction events generalizing p q a a' with
  | nil => rfl
  | cons e es ih =>
    have hes : ∀ f ∈ es, f.stream = σ ↔ streamKey f = key := fun f hf => hkey f (by simp [hf])
    by_cases hσ : e.stream = σ
    · have hk : streamKey e = key := (hkey e (by simp)).1 hσ
      subst hk
      obtain ⟨hderived, hnext⟩ := AgreeOn.consume hp hq e h a a'
      have htail := ih (consume_ready hp a e).1 (consume_ready hq a' e).1 hes hnext
        (p.consume a e).allocator (q.consume a' e).allocator
      simp only [EventPipeline.history, List.filter_cons, hσ, decide_true, if_true, List.map_cons]
      rw [htail, unsequencedEntry, hderived]
      rfl
    · have hk : streamKey e ≠ key := fun hk => hσ ((hkey e (by simp)).2 hk)
      have hnext := AgreeOn.consume_other hp e hk h a
      have htail := ih (consume_ready hp a e).1 hq hes hnext (p.consume a e).allocator a'
      simpa [EventPipeline.history, List.filter_cons, hσ] using htail

/-- The deliveries of a stream are those of its own entries. -/
theorem filter_logOf_history (h : p.Ready d₀) (a : SequenceAllocator) (events : List PacketEvent)
    (σ : Stream) :
    (logOf (p.history a events)).filter (·.stream = σ) =
      logOf ((p.history a events).filter (·.1.stream = σ)) := by
  induction events generalizing p a with
  | nil => rfl
  | cons e es ih =>
    have htail := ih (consume_ready h a e).1 (p.consume a e).allocator
    have hderived := fun f hf => stream_of_mem_derived h a e (f := f) hf
    simp only [logOf, EventPipeline.history, List.flatMap_cons, List.filter_append] at htail ⊢
    rw [htail]
    by_cases hσ : e.stream = σ
    · have hall : (p.consume a e).delivered.tail.filter (·.stream = σ) =
          (p.consume a e).delivered.tail :=
        List.filter_eq_self.2 fun f hf => by simp [hderived f hf, hσ]
      simp [hσ, hall]
    · have hnone : (p.consume a e).delivered.tail.filter (·.stream = σ) = [] :=
        List.filter_eq_nil_iff.2 fun f hf => by simp [hderived f hf, hσ]
      simp [hσ, hnone]

end EventPipeline

open EventPipeline

/-- Stream isolation. From any run of a fresh pipeline no exception escapes; the sink
sees every event once, unchanged, directly followed by the frame events its stream's
decoder makes of it or by one error event; an event that is not decoded derives
nothing and changes nothing; and the deliveries of a stream are, up to the numbers
drawn from the allocator, those of a fresh pipeline fed the stream's events alone. -/
theorem stream_isolation (config : DecoderConfig) (d₀ : FrameDecoder)
    (haccepted : createFrameDecoder config = .ok d₀) (events : List PacketEvent)
    (hfree : ∀ e ∈ events, SeparatorFree e) (a : SequenceAllocator) :
    ((fresh config).run a events).escaped = [] ∧
    ((fresh config).run a events).log = logOf ((fresh config).history a events) ∧
    ((fresh config).history a events).map Prod.fst = events ∧
    (∀ pre e post, events = pre ++ e :: post →
      let r := (fresh config).run a pre
      let c := r.pipeline.consume r.allocator e
      (fresh config).history a events = (fresh config).history a pre ++
        (e, c.delivered.tail) :: c.pipeline.history c.allocator post ∧
      (e.Decoded →
        DerivedFrom (r.pipeline.decoderAt d₀ (streamKey e)) e c.delivered.tail) ∧
      (¬ e.Decoded →
        c.delivered.tail = [] ∧ c.pipeline = r.pipeline ∧ c.allocator = r.allocator)) ∧
    (∀ (σ : Stream) (a' : SequenceAllocator),
      ((fresh config).run a events).log.filter (·.stream = σ) =
          logOf (((fresh config).history a events).filter (·.1.stream = σ)) ∧
      (((fresh config).history a events).filter (·.1.stream = σ)).map unsequencedEntry =
          ((fresh config).history a' (events.filter (·.stream = σ))).map unsequencedEntry) := by
  have hready := ready_fresh haccepted
  obtain ⟨hescaped, hlog⟩ := run_log hready a events
  refine ⟨hescaped, hlog, history_map_fst _ _ _, ?_, ?_⟩
  · rintro pre e post rfl
    have hr := run_ready hready a pre
    refine ⟨by rw [history_append]; rfl, derivedFrom_consume hr _, fun he => ?_⟩
    rw [consume_of_not_decoded hr _ he]
    exact ⟨rfl, rfl, rfl⟩
  · intro σ a'
    refine ⟨by rw [hlog, filter_logOf_history hready], ?_⟩
    by_cases hσ : ∃ e ∈ events, e.stream = σ
    · obtain ⟨e₀, he₀, rfl⟩ := hσ
      refine AgreeOn.history hready hready _ (streamKey e₀) events (fun e he => ?_) ⟨rfl, rfl⟩ a a'
      exact ⟨streamKey_eq_of_stream_eq,
        stream_eq_of_streamKey_eq (hfree e he) (hfree e₀ he₀)⟩
    · -- No event belongs to the stream, so neither side has an entry.
      have hnone : events.filter (·.stream = σ) = [] :=
        List.filter_eq_nil_iff.2 fun e he => by simpa using fun h => hσ ⟨e, he, h⟩
      have hentries : ((fresh config).history a events).filter (·.1.stream = σ) = [] := by
        refine List.filter_eq_nil_iff.2 fun entry hentry => ?_
        have hmem := List.mem_map_of_mem (f := Prod.fst) hentry
        rw [history_map_fst] at hmem
        simpa using fun h => hσ ⟨_, hmem, h⟩
      rw [hnone, hentries]
      rfl

/-- Two streams of one link, interleaved, one of them with a broken header. -/
theorem stream_isolation_both_directions :
    let config : DecoderConfig := { decoder := ascii "length-prefix", lengthIncludesHeader := true }
    let sent : PacketEvent := { sequence := 7, transport := ascii "udp", payload := [0, 1] }
    let received : PacketEvent :=
      { sequence := 8, transport := ascii "udp", direction := .deviceToApp, payload := [0, 2] }
    (((fresh config).history {} [sent, received]).filter (·.1.stream = received.stream)).map
        unsequencedEntry =
      ((fresh config).history {} [received]).map unsequencedEntry := by
  intro config sent received
  exact ((stream_isolation config _ rfl [sent, received] (by decide) {}).2.2.2.2
    received.stream {}).2

end PacketProbe
