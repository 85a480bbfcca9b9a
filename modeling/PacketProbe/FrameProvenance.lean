import PacketProbe.StreamDecoding
import PacketProbe.StreamIsolation
import PacketProbe.TaggedSplitting
import PacketProbe.TransitionRuns
import Mathlib.Data.List.Forall2

/-!
# Which raw events a frame names as its parents

The bytes of a stream are tagged with the sequence of the raw event that brought them.
A run of decode sections, with the counter anywhere in between, then shows for each frame
the stretch of the stream that it was cut from.
-/

namespace PacketProbe
open StreamSplitting LeftmostSearch TransitionRuns

theorem FixedSizeFrameDecoder.tight (d : FixedSizeFrameDecoder) : d.splitter.Tight := by
  intro b out rest h
  obtain ⟨hle, rfl, rfl⟩ := cut_item_iff.1 h
  refine ⟨b.take d.frameSize.toNat, (List.take_append_drop _ _).symm, cut_item_iff.2 ⟨?_, ?_, ?_⟩⟩
  · exact (List.length_take_of_le hle).ge
  · rw [List.take_take, Nat.min_self]
  · rw [List.drop_take, Nat.sub_self, List.take_zero]

theorem DelimiterFrameDecoder.tight (d : DelimiterFrameDecoder) : d.splitter.Tight := by
  intro b out rest h
  obtain ⟨found, hfound, rfl, rfl⟩ := cut_item_iff.1 h
  refine ⟨b.take (found + d.delimiter.length), (List.take_append_drop _ _).symm,
    cut_item_iff.2 ⟨found, search_take hfound, ?_, ?_⟩⟩
  · rw [List.take_take, Nat.min_eq_left]
    split <;> omega
  · rw [List.drop_take, Nat.sub_self, List.take_zero]

theorem LengthPrefixFrameDecoder.tight (d : LengthPrefixFrameDecoder) : d.splitter.Tight := by
  intro b out rest h
  obtain ⟨hheader, hsize, hle, rfl, rfl⟩ := cut_item_iff.1 h
  have hlength : (b.take (d.frameLength b)).length = d.frameLength b := List.length_take_of_le hle
  have hread : ∀ c, d.readLength c = d.readLength b → d.frameLength c = d.frameLength b := by
    intro c hc
    simp only [frameLength, hc]
  have hsame : d.frameLength (b.take (d.frameLength b)) = d.frameLength b := by
    have happ := d.readLength_append (b := b.take (d.frameLength b)) (by rwa [hlength])
      (b.drop (d.frameLength b))
    rw [List.take_append_drop] at happ
    exact hread _ happ.symm
  refine ⟨b.take (d.frameLength b), (List.take_append_drop _ _).symm,
    cut_item_iff.2 ⟨?_, ?_, ?_, ?_, ?_⟩⟩
  · rwa [hlength]
  · rwa [hsame]
  · rw [hsame, hlength]
  · rw [hsame, List.take_take, Nat.min_self]
  · rw [hsame, List.drop_take, Nat.sub_self, List.take_zero]

namespace FrameDecoder

variable {d₀ : FrameDecoder} {s : Splitter UInt8 Bytes StdException}

theorem tight_of_loop (h : d₀.loop = some s) : s.Tight := by
  cases d₀ with
  | raw => cases h
  | fixedSize d => cases h; exact d.tight
  | delimiter d => cases h; exact d.tight
  | lengthPrefix d => cases h; exact d.tight

theorem cut_nil_of_loop (h : d₀.loop = some s) : s.cut [] = .wait := by
  cases d₀ with
  | raw => cases h
  | fixedSize d =>
    cases h
    have := d.frameSize_pos
    simp [FixedSizeFrameDecoder.splitter, FixedSizeFrameDecoder.cut]
    omega
  | delimiter d =>
    cases h
    have := d.delimiter_ne_nil
    simp [DelimiterFrameDecoder.splitter, DelimiterFrameDecoder.cut, search, this]
  | lengthPrefix d =>
    cases h
    have := d.lengthSize_pos
    simp [LengthPrefixFrameDecoder.splitter, LengthPrefixFrameDecoder.cut, this]

/-- A decoder starts with an empty buffer. -/
theorem buffer_of_create {config : DecoderConfig} (h : createFrameDecoder config = .ok d₀) :
    d₀.buffer = [] := by
  unfold createFrameDecoder makeFixedSizeFrameDecoder makeDelimiterFrameDecoder
    makeLengthPrefixFrameDecoder at h
  simp only at h
  split at h
  · cases h
    rfl
  · split at h
    · split at h <;> cases h
      rfl
    · split at h
      · split at h <;> cases h
        rfl
      · split at h
        · split at h
          · split at h <;> cases h
            rfl
          · cases h
        · cases h

end FrameDecoder

/-- The payload of a raw event, each byte with the event's sequence. -/
def taggedPayload (e : PacketEvent) : List (UInt8 × UInt64) :=
  e.payload.map fun byte => (byte, e.sequence)

/-- The frames in the bytes of these events, each with the stretch it is cut from. The raw
decoder makes a frame of each payload. -/
def FrameDecoder.stretches (d₀ : FrameDecoder) (events : List PacketEvent) :
    List (Bytes × List (UInt8 × UInt64)) :=
  match d₀.loop with
  | none => events.map fun e => (e.payload, taggedPayload e)
  | some s => ((s.tagged UInt64).drain (events.flatMap taggedPayload)).items

namespace EventPipeline

/-- A decode section, with the counter at any value. -/
def DecodeStep (d₀ : FrameDecoder) (p : EventPipeline) (entry : PacketEvent × List PacketEvent)
    (q : EventPipeline) : Prop :=
  entry.1.Decoded ∧
    q = p.store (streamKey entry.1) (p.decoded d₀ entry.1).1
      (keepSeqs (p.seqsFor entry.1) (p.decoded d₀ entry.1).2) ∧
    ∃ a, entry.2 = (derive a entry.1 (p.seqsFor entry.1) (p.decoded d₀ entry.1).2).1

/-- The raw events of a stream, in the order in which they were decoded. -/
def rawOf (key : ByteString) (entries : List (PacketEvent × List PacketEvent)) : List PacketEvent :=
  (entries.map Prod.fst).filter fun e => e.Decoded ∧ streamKey e = key

/-- The frames of a stream, in the order in which they were derived. -/
def framesOf (key : ByteString) (entries : List (PacketEvent × List PacketEvent)) :
    List PacketEvent :=
  (derivedOf key entries).filter fun e => e.type = .frame

variable {p q : EventPipeline} {d₀ : FrameDecoder} {s : Splitter UInt8 Bytes StdException}
  {key : ByteString} {e f : PacketEvent} {seqs : List UInt64}
  {entry : PacketEvent × List PacketEvent} {entries : List (PacketEvent × List PacketEvent)}

/-- What every derived event says about its parents. -/
theorem parents_of_mem_derive {a : SequenceAllocator}
    {result : Except StdException FrameDecodeResult} (hf : f ∈ (derive a e seqs result).1) :
    (f.type = .frame ∨ f.type = .error) ∧ f.stream = e.stream ∧ f.parentSequence = e.sequence ∧
      f.parentSequences = seqs := by
  cases result with
  | ok result =>
    obtain ⟨htype, hrest⟩ := mem_makeFrameEvents hf
    exact ⟨.inl htype, hrest⟩
  | error ex =>
    rw [derive, List.mem_singleton] at hf
    subst hf
    exact ⟨.inr rfl, rfl, rfl, rfl⟩

/-- The frames among the derived events. -/
theorem frames_derive (a : SequenceAllocator) (e : PacketEvent) (seqs : List UInt64)
    (result : Except StdException FrameDecodeResult) :
    ((derive a e seqs result).1.filter fun f => f.type = .frame).map PacketEvent.payload =
      match result with | .ok result => result.frames | .error _ => [] := by
  cases result with
  | ok result =>
    have hall : (derive a e seqs (.ok result)).1.filter (fun f => f.type = .frame) =
        (derive a e seqs (.ok result)).1 := by
      refine List.filter_eq_self.2 fun f hf => ?_
      simp [(mem_makeFrameEvents hf).1]
    rw [hall]
    exact makeFrameEvents_payloads a e seqs result.frames
  | error ex => rfl

theorem DecodeStep.ready (h : DecodeStep d₀ p entry q) (hp : p.Ready d₀) : q.Ready d₀ := by
  obtain ⟨-, rfl, -⟩ := h
  exact hp.store _ _ _

theorem DecodeStep.looping (h : DecodeStep d₀ p entry q) (hp : p.Looping d₀ s) :
    q.Looping d₀ s := by
  obtain ⟨-, rfl, -⟩ := h
  refine ⟨hp.toReady.store _ _ _, fun key => ?_⟩
  by_cases hkey : key = streamKey entry.1
  · rw [hkey, decoderAt_store_self, hp.decoded_eq, FrameDecoder.loop_setBuffer]
    exact hp.loop _
  · rw [decoderAt_store_of_ne hkey]
    exact hp.loop key

/-- A decode section of another stream leaves a stream alone. -/
theorem DecodeStep.other (h : DecodeStep d₀ p entry q) (hkey : streamKey entry.1 ≠ key) :
    q.decoderAt d₀ key = p.decoderAt d₀ key ∧
      q.streamRawSequences key = p.streamRawSequences key := by
  obtain ⟨-, rfl, -⟩ := h
  exact ⟨decoderAt_store_of_ne (Ne.symm hkey) _ _,
    streamRawSequences_store_of_ne (Ne.symm hkey) _ _⟩

theorem rawOf_snoc_of_eq (he : entry.1.Decoded) (hkey : streamKey entry.1 = key) :
    rawOf key (entries ++ [entry]) = rawOf key entries ++ [entry.1] := by
  simp [rawOf, he, hkey]

theorem rawOf_snoc_of_ne (hkey : streamKey entry.1 ≠ key) :
    rawOf key (entries ++ [entry]) = rawOf key entries := by
  simp [rawOf, hkey]

theorem framesOf_snoc_of_eq (hkey : streamKey entry.1 = key) :
    framesOf key (entries ++ [entry]) =
      framesOf key entries ++ entry.2.filter fun f => f.type = .frame := by
  simp [framesOf, derivedOf, hkey]

theorem framesOf_snoc_of_ne (hkey : streamKey entry.1 ≠ key) :
    framesOf key (entries ++ [entry]) = framesOf key entries := by
  simp [framesOf, derivedOf, hkey]

/-! ### Frames and their stretches -/

/-- A frame is cut from a stretch, and names every event that brought a byte of it. -/
def CutFrom (f : PacketEvent) (stretch : Bytes × List (UInt8 × UInt64)) : Prop :=
  f.payload = stretch.1 ∧ ∀ byte ∈ stretch.2, byte.2 ∈ f.parentSequences

/-- The loop over the tagged bytes of these raw events. -/
def tracedDrain (s : Splitter UInt8 Bytes StdException) (events : List PacketEvent) :
    Drained (UInt8 × UInt64) (Bytes × List (UInt8 × UInt64)) StdException :=
  (s.tagged UInt64).drain (events.flatMap taggedPayload)

/-- What is known of a stream after its raw events: its buffer, where the bytes of the
buffer come from, and where its frames were cut from. -/
structure Traced (d₀ : FrameDecoder) (s : Splitter UInt8 Bytes StdException) (key : ByteString)
    (entries : List (PacketEvent × List PacketEvent)) (p : EventPipeline) : Prop where
  buffer : p.bufferAt d₀ key = (tracedDrain s (rawOf key entries)).rest.map Prod.fst
  seqs : (tracedDrain s (rawOf key entries)).error = none →
    ∀ byte ∈ (tracedDrain s (rawOf key entries)).rest, byte.2 ∈ p.streamRawSequences key
  frames : List.Forall₂ CutFrom (framesOf key entries)
    ((tracedDrain s (rawOf key entries)).items.take (framesOf key entries).length)
  complete : (tracedDrain s (rawOf key entries)).error = none →
    (framesOf key entries).length = (tracedDrain s (rawOf key entries)).items.length

theorem map_fst_taggedPayload (e : PacketEvent) : (taggedPayload e).map Prod.fst = e.payload := by
  simp [taggedPayload, Function.comp_def]

theorem forall₂_cutFrom {frames : List PacketEvent}
    {stretches : List (Bytes × List (UInt8 × UInt64))}
    (hpayloads : frames.map PacketEvent.payload = stretches.map Prod.fst)
    (hparents : ∀ f ∈ frames, ∀ stretch ∈ stretches, ∀ byte ∈ stretch.2,
      byte.2 ∈ f.parentSequences) :
    List.Forall₂ CutFrom frames stretches := by
  induction frames generalizing stretches with
  | nil =>
    obtain rfl : stretches = [] := by simpa using hpayloads.symm
    exact .nil
  | cons f fs ih =>
    cases stretches with
    | nil => cases hpayloads
    | cons stretch rest =>
      obtain ⟨hhead, htail⟩ := List.cons.inj hpayloads
      refine .cons ⟨hhead, fun byte hbyte => ?_⟩ (ih htail fun f hf stretch hstretch => ?_)
      · exact hparents f List.mem_cons_self stretch List.mem_cons_self byte hbyte
      · exact hparents f (List.mem_cons_of_mem _ hf) stretch (List.mem_cons_of_mem _ hstretch)

/-- What a decode section of the stream's own event does, in terms of the loop. -/
theorem DecodeStep.own (h : DecodeStep d₀ p entry q) (hp : p.Looping d₀ s)
    {d : Drained UInt8 Bytes StdException}
    (hd : s.drain (p.bufferAt d₀ (streamKey entry.1) ++ entry.1.payload) = d) :
    q.bufferAt d₀ (streamKey entry.1) = d.rest ∧
      q.streamRawSequences (streamKey entry.1) =
        (if d.error ≠ none ∨ d.rest = [] then [] else p.seqsFor entry.1) ∧
      (entry.2.filter fun f => f.type = .frame).map PacketEvent.payload =
        (match d.error with | none => d.items | some _ => []) ∧
      ∀ f ∈ entry.2, f.stream = entry.1.stream ∧ f.parentSequence = entry.1.sequence ∧
        f.parentSequences = p.seqsFor entry.1 := by
  obtain ⟨-, rfl, a, hderived⟩ := h
  have hdecoded := hp.decoded_eq entry.1
  simp only [consumeBuffered, hd] at hdecoded
  refine ⟨?_, ?_, ?_, fun f hf => ?_⟩
  · rw [bufferAt, decoderAt_store_self, hdecoded]
    exact FrameDecoder.buffer_setBuffer (hp.loop _) _
  · rw [streamRawSequences_store_self, hdecoded]
    cases d.error with
    | none => simp [keepSeqs]
    | some ex => simp [keepSeqs]
  · rw [hderived, frames_derive, hdecoded]
    cases d.error <;> rfl
  · rw [hderived] at hf
    exact (parents_of_mem_derive hf).2

/-- Draining the carried bytes with a payload ends as draining the whole stream does. -/
theorem Traced.drain_payload (h : Traced d₀ s key entries p) (hs : s.Tight) (e : PacketEvent) :
    (s.drain (p.bufferAt d₀ key ++ e.payload)).rest =
        (tracedDrain s (rawOf key entries ++ [e])).rest.map Prod.fst ∧
      (s.drain (p.bufferAt d₀ key ++ e.payload)).error =
        (tracedDrain s (rawOf key entries ++ [e])).error := by
  obtain ⟨-, hrest, -⟩ := Splitter.drain_tagged hs ((rawOf key entries).flatMap taggedPayload)
  obtain ⟨-, hrest', herror'⟩ :=
    Splitter.drain_tagged hs ((rawOf key entries ++ [e]).flatMap taggedPayload)
  have hbytes : ((rawOf key entries ++ [e]).flatMap taggedPayload).map Prod.fst =
      ((rawOf key entries).flatMap taggedPayload).map Prod.fst ++ e.payload := by
    simp [map_fst_taggedPayload]
  rw [hbytes] at hrest' herror'
  obtain ⟨hagain, heagain⟩ := Splitter.drain_rest_append (s := s)
    (((rawOf key entries).flatMap taggedPayload).map Prod.fst) e.payload
  rw [h.buffer, tracedDrain, hrest, hagain, heagain, tracedDrain, hrest', herror']
  exact ⟨rfl, rfl⟩

/-- As long as nothing failed, a payload adds what the loop makes of the carried bytes. -/
theorem tracedDrain_snoc {events : List PacketEvent} (h : (tracedDrain s events).error = none)
    (e : PacketEvent) :
    let d := (s.tagged UInt64).drain ((tracedDrain s events).rest ++ taggedPayload e)
    tracedDrain s (events ++ [e]) = ⟨(tracedDrain s events).items ++ d.items, d.rest, d.error⟩ := by
  have happ := Splitter.drain_append_of_ok h (taggedPayload e)
  simpa [tracedDrain] using happ

/-- What has been cut off stays cut off. -/
theorem tracedDrain_items_prefix (events : List PacketEvent) (e : PacketEvent) :
    (tracedDrain s events).items <+: (tracedDrain s (events ++ [e])).items := by
  cases h : (tracedDrain s events).error with
  | none =>
    rw [tracedDrain_snoc h]
    exact List.prefix_append _ _
  | some ex =>
    have happ := Splitter.drain_append_of_error h (taggedPayload e)
    have hsame : (tracedDrain s (events ++ [e])).items = (tracedDrain s events).items := by
      simp [tracedDrain, happ]
    rw [hsame]

/-- The frames that come with a payload, if the loop does not fail on it. -/
theorem Traced.frames_snoc (h : Traced d₀ s (streamKey entry.1) entries p) (hs : s.Tight)
    (hp : p.Looping d₀ s) (hstep : DecodeStep d₀ p entry q)
    (hok : (tracedDrain s (rawOf (streamKey entry.1) entries ++ [entry.1])).error = none) :
    let events := rawOf (streamKey entry.1) entries
    let d := (s.tagged UInt64).drain ((tracedDrain s events).rest ++ taggedPayload entry.1)
    tracedDrain s (events ++ [entry.1]) =
        ⟨(tracedDrain s events).items ++ d.items, d.rest, d.error⟩ ∧
      List.Forall₂ CutFrom (framesOf (streamKey entry.1) entries) (tracedDrain s events).items ∧
      List.Forall₂ CutFrom (entry.2.filter fun f => f.type = .frame) d.items ∧
      ∀ byte ∈ d.rest, byte.2 ∈ p.seqsFor entry.1 := by
  intro events d
  have hok₀ : (tracedDrain s events).error = none := by
    rw [tracedDrain, List.flatMap_append] at hok
    exact Splitter.ok_of_append_ok hok
  have hsnoc := tracedDrain_snoc hok₀ entry.1
  -- Every byte in reach comes from the history or from the event itself.
  have hsources : ∀ byte ∈ (tracedDrain s events).rest ++ taggedPayload entry.1,
      byte.2 ∈ p.seqsFor entry.1 := by
    intro byte hbyte
    rcases List.mem_append.1 hbyte with hbyte | hbyte
    · exact List.mem_append_left _ (h.seqs hok₀ byte hbyte)
    · obtain ⟨_, -, rfl⟩ := List.mem_map.1 hbyte
      exact List.mem_append_right _ (List.mem_singleton_self _)
  have hsplit := Splitter.stretches_append_rest hs
    ((tracedDrain s events).rest ++ taggedPayload entry.1)
  have hbytes : ((tracedDrain s events).rest ++ taggedPayload entry.1).map Prod.fst =
      p.bufferAt d₀ (streamKey entry.1) ++ entry.1.payload := by
    rw [List.map_append, map_fst_taggedPayload, h.buffer]
  obtain ⟨hitems, -, herror⟩ := Splitter.drain_tagged hs
    ((tracedDrain s events).rest ++ taggedPayload entry.1)
  rw [hbytes] at hitems herror
  obtain ⟨-, -, hpayloads, hparents⟩ := hstep.own hp rfl
  have hnone : d.error = none := by
    rw [hsnoc] at hok
    exact hok
  rw [← herror, hnone] at hpayloads
  refine ⟨hsnoc, ?_, ?_, fun byte hbyte => ?_⟩
  · have hframes := h.frames
    rwa [h.complete hok₀, List.take_length] at hframes
  · refine forall₂_cutFrom (hpayloads.trans hitems.symm) fun f hf stretch hstretch byte hbyte => ?_
    rw [(hparents f (List.mem_filter.1 hf).1).2.2]
    refine hsources byte ?_
    rw [← hsplit]
    exact List.mem_append_left _ (List.mem_flatMap.2 ⟨stretch, hstretch, hbyte⟩)
  · refine hsources byte ?_
    rw [← hsplit]
    exact List.mem_append_right _ hbyte

theorem Traced.step_own (h : Traced d₀ s (streamKey entry.1) entries p) (hs : s.Tight)
    (hp : p.Looping d₀ s) (hstep : DecodeStep d₀ p entry q) :
    Traced d₀ s (streamKey entry.1) (entries ++ [entry]) q := by
  obtain ⟨hrest, herror⟩ := h.drain_payload hs entry.1
  obtain ⟨hbuffer, hseqs, hpayloads, -⟩ := hstep.own hp rfl
  rw [herror] at hseqs hpayloads
  rw [hrest] at hseqs
  have hraw : rawOf (streamKey entry.1) (entries ++ [entry]) =
      rawOf (streamKey entry.1) entries ++ [entry.1] := rawOf_snoc_of_eq hstep.1 rfl
  have hframes : framesOf (streamKey entry.1) (entries ++ [entry]) =
      framesOf (streamKey entry.1) entries ++ entry.2.filter fun f => f.type = .frame :=
    framesOf_snoc_of_eq rfl
  refine ⟨by rw [hbuffer, hrest, hraw], ?_, ?_, ?_⟩
  · intro hok byte hbyte
    rw [hraw] at hok hbyte
    obtain ⟨hsnoc, -, -, hcarried⟩ := h.frames_snoc hs hp hstep hok
    have hkept : (tracedDrain s (rawOf (streamKey entry.1) entries ++ [entry.1])).rest.map
        Prod.fst ≠ [] := by
      intro hnil
      rw [List.map_eq_nil_iff] at hnil
      rw [hnil] at hbyte
      cases hbyte
    rw [hseqs, if_neg (by simp [hok, hkept])]
    rw [hsnoc] at hbyte
    exact hcarried byte hbyte
  · rw [hraw, hframes]
    cases hok : (tracedDrain s (rawOf (streamKey entry.1) entries ++ [entry.1])).error with
    | none =>
      obtain ⟨hsnoc, hold, hnew, -⟩ := h.frames_snoc hs hp hstep hok
      have hboth := List.rel_append hold hnew
      have hlength := hboth.length_eq
      rw [hsnoc, hlength, List.take_length]
      exact hboth
    | some ex =>
      -- The frames cut off in front of the failure are lost.
      rw [hok] at hpayloads
      obtain ⟨more, hmore⟩ := tracedDrain_items_prefix (s := s)
        (rawOf (streamKey entry.1) entries) entry.1
      have hle : (framesOf (streamKey entry.1) entries).length ≤
          (tracedDrain s (rawOf (streamKey entry.1) entries)).items.length := by
        have hlength := h.frames.length_eq
        rw [List.length_take] at hlength
        omega
      rw [List.map_eq_nil_iff.1 hpayloads, List.append_nil, ← hmore,
        List.take_append_of_le_length hle]
      exact h.frames
  · intro hok
    rw [hraw] at hok
    obtain ⟨hsnoc, hold, hnew, -⟩ := h.frames_snoc hs hp hstep hok
    rw [hraw, hframes, hsnoc, List.length_append, List.length_append, hold.length_eq,
      hnew.length_eq]

theorem Traced.step (h : Traced d₀ s key entries p) (hs : s.Tight) (hp : p.Looping d₀ s)
    (hstep : DecodeStep d₀ p entry q) : Traced d₀ s key (entries ++ [entry]) q := by
  by_cases hkey : streamKey entry.1 = key
  · subst hkey
    exact h.step_own hs hp hstep
  · obtain ⟨hdecoder, hseqs⟩ := hstep.other hkey
    have hraw : rawOf key (entries ++ [entry]) = rawOf key entries := rawOf_snoc_of_ne hkey
    have hframes : framesOf key (entries ++ [entry]) = framesOf key entries :=
      framesOf_snoc_of_ne hkey
    refine ⟨?_, ?_, ?_, ?_⟩
    · rw [bufferAt, hdecoder, hraw]
      exact h.buffer
    · rw [hraw, hseqs]
      exact h.seqs
    · rw [hraw, hframes]
      exact h.frames
    · rw [hraw, hframes]
      exact h.complete

theorem traced_nil (hempty : p.bufferAt d₀ key = []) (hwait : s.cut [] = .wait) :
    Traced d₀ s key [] p := by
  have hdrain : tracedDrain s [] = ⟨[], [], none⟩ :=
    Splitter.drain_wait (Splitter.tagged_cut_wait_iff.2 hwait)
  refine ⟨?_, ?_, ?_, ?_⟩
  · rw [hempty, rawOf, List.map_nil, List.filter_nil, hdrain]
    rfl
  · intro _ byte hbyte
    rw [rawOf, List.map_nil, List.filter_nil, hdrain] at hbyte
    cases hbyte
  · rw [framesOf, derivedOf]
    exact .nil
  · intro _
    rw [rawOf, List.map_nil, List.filter_nil, hdrain]
    rfl

/-! ### The history of a stream -/

/-- Nothing of these events is carried along: the buffer is empty, or the loop has failed. -/
def Settled (s : Splitter UInt8 Bytes StdException) (events : List PacketEvent) : Prop :=
  (tracedDrain s events).error ≠ none ∨ (tracedDrain s events).rest = []

theorem settled_iff {events : List PacketEvent} : Settled s events ↔
    (tracedDrain s events).error ≠ none ∨ (tracedDrain s events).rest.map Prod.fst = [] :=
  or_congr_right List.map_eq_nil_iff.symm

/-- The events since the stream was last settled. -/
structure Transaction (s : Splitter UInt8 Bytes StdException)
    (events before during : List PacketEvent) : Prop where
  events : events = before ++ during
  settled : Settled s before
  unsettled : ∀ ahead, ahead ≠ [] → ahead <+: during → ¬ Settled s (before ++ ahead)

theorem Transaction.snoc {events before during : List PacketEvent}
    (h : Transaction s events before during) (e : PacketEvent)
    (hopen : ¬ Settled s (events ++ [e])) :
    Transaction s (events ++ [e]) before (during ++ [e]) := by
  refine ⟨by rw [h.events, List.append_assoc], h.settled, fun ahead hne hahead => ?_⟩
  rcases List.prefix_concat_iff.1 hahead with rfl | hahead
  · rwa [← List.append_assoc, ← h.events]
  · exact h.unsettled ahead hne hahead

theorem transaction_of_settled {events : List PacketEvent} (h : Settled s events) :
    Transaction s events events [] :=
  ⟨(List.append_nil _).symm, h, fun _ hne hahead => absurd (List.prefix_nil.1 hahead) hne⟩

/-- What a run of decode sections leaves for a stream. -/
structure StreamState (d₀ : FrameDecoder) (s : Splitter UInt8 Bytes StdException) (key : ByteString)
    (entries : List (PacketEvent × List PacketEvent)) (p : EventPipeline) : Prop where
  looping : p.Looping d₀ s
  traced : Traced d₀ s key entries p
  history : ∃ before during, Transaction s (rawOf key entries) before during ∧
    p.streamRawSequences key = during.map PacketEvent.sequence

theorem StreamState.step (h : StreamState d₀ s key entries p) (hs : s.Tight)
    (hstep : DecodeStep d₀ p entry q) : StreamState d₀ s key (entries ++ [entry]) q := by
  refine ⟨hstep.looping h.looping, h.traced.step hs h.looping hstep, ?_⟩
  obtain ⟨before, during, htransaction, hseqs⟩ := h.history
  by_cases hkey : streamKey entry.1 = key
  · subst hkey
    obtain ⟨-, hnext, -, -⟩ := hstep.own h.looping rfl
    obtain ⟨hrest, herror⟩ := h.traced.drain_payload hs entry.1
    rw [hrest, herror] at hnext
    rw [rawOf_snoc_of_eq hstep.1 rfl]
    by_cases hsettled : Settled s (rawOf (streamKey entry.1) entries ++ [entry.1])
    · exact ⟨_, [], transaction_of_settled hsettled, hnext.trans (if_pos (settled_iff.1 hsettled))⟩
    · refine ⟨before, _, htransaction.snoc _ hsettled, hnext.trans ?_⟩
      rw [if_neg (mt settled_iff.2 hsettled), seqsFor, hseqs, List.map_append]
      rfl
  · rw [rawOf_snoc_of_ne hkey, (hstep.other hkey).2]
    exact ⟨before, during, htransaction, hseqs⟩

/-- Every stream of a fresh pipeline, after any run of decode sections. -/
theorem streamState_of_run {config : DecoderConfig} (hcreate : createFrameDecoder config = .ok d₀)
    (hloop : d₀.loop = some s) (hrun : TransitionRuns.Run (DecodeStep d₀) (fresh config) entries p)
    (key : ByteString) : StreamState d₀ s key entries p := by
  have hwait := FrameDecoder.cut_nil_of_loop hloop
  have hdrain : tracedDrain s [] = ⟨[], [], none⟩ :=
    Splitter.drain_wait (Splitter.tagged_cut_wait_iff.2 hwait)
  refine hrun.trace_induction (P := fun entries p => StreamState d₀ s key entries p) ?_ ?_
  · refine ⟨looping_fresh hcreate hloop, traced_nil (FrameDecoder.buffer_of_create hcreate) hwait,
      ?_⟩
    refine ⟨[], [], transaction_of_settled (.inr ?_), rfl⟩
    change (tracedDrain s []).rest = []
    rw [hdrain]
  · intro entries p entry q _ ih hstep
    exact ih.step (FrameDecoder.tight_of_loop hloop) hstep

/-! ### The raw decoder -/

/-- What a run leaves for a stream of the raw decoder: nothing is carried, and each
payload is a frame. -/
structure RawState (key : ByteString) (entries : List (PacketEvent × List PacketEvent))
    (p : EventPipeline) : Prop where
  decoder : p.decoderAt .raw key = .raw
  seqs : p.streamRawSequences key = []
  frames :
    List.Forall₂ CutFrom (framesOf key entries) (FrameDecoder.raw.stretches (rawOf key entries))

theorem RawState.step (h : RawState key entries p) (hstep : DecodeStep .raw p entry q) :
    RawState key (entries ++ [entry]) q := by
  by_cases hkey : streamKey entry.1 = key
  · subst hkey
    obtain ⟨hdecoded, rfl, a, hderived⟩ := hstep
    have hresult : p.decoded .raw entry.1 = (.raw, .ok ⟨[entry.1.payload], []⟩) := by
      rw [decoded, h.decoder]
      rfl
    have hseqs : p.seqsFor entry.1 = [entry.1.sequence] := by
      rw [seqsFor, h.seqs]
      rfl
    rw [hresult, hseqs] at hderived
    refine ⟨by rw [decoderAt_store_self, hresult], ?_, ?_⟩
    · rw [streamRawSequences_store_self, hresult]
      rfl
    · rw [framesOf_snoc_of_eq rfl, rawOf_snoc_of_eq hdecoded rfl, FrameDecoder.stretches,
        FrameDecoder.loop, List.map_append]
      refine List.rel_append h.frames ?_
      rw [hderived]
      refine .cons ⟨rfl, fun byte hbyte => ?_⟩ .nil
      obtain ⟨_, -, rfl⟩ := List.mem_map.1 hbyte
      exact List.mem_singleton_self _
  · obtain ⟨hdecoder, hseqs⟩ := hstep.other hkey
    refine ⟨hdecoder.trans h.decoder, hseqs.trans h.seqs, ?_⟩
    rw [framesOf_snoc_of_ne hkey, rawOf_snoc_of_ne hkey]
    exact h.frames

theorem rawState_of_run {config : DecoderConfig}
    (hrun : TransitionRuns.Run (DecodeStep .raw) (fresh config) entries p) (key : ByteString) :
    RawState key entries p := by
  refine hrun.trace_induction (P := fun entries p => RawState key entries p) ⟨rfl, rfl, .nil⟩ ?_
  intro entries p entry q _ ih hstep
  exact ih.step hstep

/-- The frames of a stream are cut from its first stretches, one after the other. -/
theorem frames_cutFrom_stretches {config : DecoderConfig}
    (hcreate : createFrameDecoder config = .ok d₀)
    (hrun : TransitionRuns.Run (DecodeStep d₀) (fresh config) entries p) (key : ByteString) :
    List.Forall₂ CutFrom (framesOf key entries)
      ((d₀.stretches (rawOf key entries)).take (framesOf key entries).length) := by
  cases hloop : d₀.loop with
  | none =>
    obtain rfl : d₀ = .raw := by cases d₀ <;> first | rfl | cases hloop
    have hframes := (rawState_of_run hrun key).frames
    rwa [hframes.length_eq, List.take_length]
  | some s =>
    have hframes := (streamState_of_run hcreate hloop hrun key).traced.frames
    rw [FrameDecoder.stretches, hloop]
    exact hframes

/-! ### Consecutive calls -/

/-- A run of calls is a run of decode sections. -/
theorem decodings_of_history (h : p.Ready d₀) (a : SequenceAllocator) (events : List PacketEvent) :
    TransitionRuns.Run (DecodeStep d₀) p
      ((p.history a events).filter fun entry => entry.1.Decoded) (p.run a events).pipeline := by
  induction events generalizing p a with
  | nil => exact .nil p
  | cons e es ih =>
    have hnext := ih (consume_ready h a e).1 (p.consume a e).allocator
    by_cases he : e.Decoded
    · rw [history, List.filter_cons_of_pos (by simpa using he)]
      refine .cons ⟨he, ?_, a, ?_⟩ hnext
      · rw [consume_of_decoded h a he]
      · rw [consume_of_decoded h a he]
        rfl
    · rw [history, List.filter_cons_of_neg (by simpa using he)]
      change TransitionRuns.Run _ p _
        ((p.consume a e).pipeline.run (p.consume a e).allocator es).pipeline
      rw [consume_of_not_decoded h a he] at hnext ⊢
      exact hnext

end EventPipeline

end PacketProbe
