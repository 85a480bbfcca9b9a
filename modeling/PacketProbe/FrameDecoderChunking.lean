import PacketProbe.FrameDecoders

/-!
# Decoding does not depend on chunk boundaries

The fixed-size, the delimiter and the length-prefix decoder with a payload length
return the same frames and the same remaining buffer however a stream is cut.
-/

namespace PacketProbe
open StreamSplitting LeftmostSearch

namespace FrameDecoder

/-- Feed chunks to `consume` one by one, up to the first exception. -/
def consumeAll :
    FrameDecoder → List Bytes → Except StdException (FrameDecoder × List FrameDecodeResult)
  | d, [] => .ok (d, [])
  | d, chunk :: chunks =>
    match d.consume chunk with
    | (_, .error ex) => .error ex
    | (d', .ok result) => (consumeAll d' chunks).map fun r => (r.1, result :: r.2)

/-- A clean turn of the loop as the result `consume` returns. -/
def toResult (d : Drained UInt8 Bytes StdException) : FrameDecodeResult := ⟨d.items, d.rest⟩

theorem consume_of_ok {d : FrameDecoder} {s : Splitter UInt8 Bytes StdException}
    (hs : d.loop = some s) {payload : Bytes} (h : (s.drain (d.buffer ++ payload)).error = none) :
    d.consume payload = (d.setBuffer (s.drain (d.buffer ++ payload)).rest,
      .ok (toResult (s.drain (d.buffer ++ payload)))) := by
  simp [consume_of_loop hs, consumeBuffered, h, toResult]

theorem consumeAll_eq_feed {d : FrameDecoder} {s : Splitter UInt8 Bytes StdException}
    (hs : d.loop = some s) (chunks : List Bytes)
    (h : (s.drain (d.buffer ++ chunks.flatten)).error = none) :
    ∃ d', d.consumeAll chunks = .ok (d', (s.feed d.buffer chunks).map toResult) := by
  induction chunks generalizing d with
  | nil => exact ⟨d, rfl⟩
  | cons c cs ih =>
    rw [List.flatten_cons, ← List.append_assoc] at h
    have hc := Splitter.ok_of_append_ok h
    rw [Splitter.drain_append_of_ok hc] at h
    let d₁ := d.setBuffer (s.drain (d.buffer ++ c)).rest
    have hb : d₁.buffer = (s.drain (d.buffer ++ c)).rest := buffer_setBuffer hs _
    obtain ⟨d', hd'⟩ := ih (d := d₁) (by simpa [d₁] using hs) (by rw [hb]; exact h)
    refine ⟨d', ?_⟩
    rw [consumeAll, consume_of_ok hs hc]
    simp only [Splitter.feed_cons, List.map_cons]
    change (d₁.consumeAll cs).map _ = _
    rw [hd', hb]
    rfl

end FrameDecoder

/-- The remaining buffer the last call reported; a fresh decoder holds nothing. -/
def lastRemaining (results : List FrameDecodeResult) : Bytes :=
  (results.getLast?.map FrameDecodeResult.remainingBuffer).getD []

namespace FrameDecoder

/-- The calls on the chunks of a stream that is drained without an error: together they return
what draining the stream gives. -/
theorem consumeAll_of_drain {d : FrameDecoder} {s : Splitter UInt8 Bytes StdException}
    (hs : d.loop = some s) (hbuf : d.buffer = []) (hwait : s.cut [] = .wait) {chunks : List Bytes}
    (h : (s.drain chunks.flatten).error = none) :
    ∃ d' results, d.consumeAll chunks = .ok (d', results) ∧
      results.flatMap FrameDecodeResult.frames = (s.drain chunks.flatten).items ∧
      lastRemaining results = (s.drain chunks.flatten).rest := by
  have herror : (s.drain (d.buffer ++ chunks.flatten)).error = none := by
    rwa [hbuf, List.nil_append]
  obtain ⟨d', hall⟩ := consumeAll_eq_feed hs chunks herror
  obtain ⟨-, hframes, hrest⟩ := Splitter.feed_eq_drain chunks hwait (by rwa [List.nil_append])
  rw [List.nil_append] at hframes hrest
  refine ⟨d', _, hall, ?_, ?_⟩
  · rw [← hframes, List.flatMap_map, hbuf]
    rfl
  · rw [← hrest, lastRemaining, List.getLast?_map, Option.map_map, hbuf]
    rfl

end FrameDecoder

/-- The configurations of the decoders that carry a buffer and never throw. -/
def StatefulConfig (config : DecoderConfig) : Prop :=
  (lowercase config.decoder = ascii "fixed" ∧ 1 ≤ config.frameSize) ∨
  (lowercase config.decoder = ascii "delimiter" ∧ config.delimiter ≠ []) ∨
  (lowercase config.decoder = ascii "length-prefix" ∧ SupportedLengthSize config.lengthSize ∧
    (lowercase config.lengthEndian = ascii "big" ∨ lowercase config.lengthEndian = ascii "little") ∧
    config.lengthIncludesHeader = false)

/-- The configurations whose frames keep every byte of the stream. -/
def KeepsEveryByte (config : DecoderConfig) : Prop :=
  lowercase config.decoder = ascii "fixed" ∨
  (lowercase config.decoder = ascii "delimiter" ∧ config.includeDelimiter = true)

/-- The fresh decoder of a stateful configuration: its loop never fails, waits on an
empty buffer, and loses no byte unless it strips a delimiter or a header. -/
theorem createFrameDecoder_stateful {config : DecoderConfig} (h : StatefulConfig config) :
    ∃ d s, createFrameDecoder config = .ok d ∧ d.loop = some s ∧ d.buffer = [] ∧
      s.cut [] = .wait ∧ (∀ b ex, s.cut b ≠ .fail ex) ∧
      (KeepsEveryByte config → ∀ {b out rest}, s.cut b = .item out rest → b = out ++ rest) := by
  obtain ⟨hd, hn⟩ | ⟨hd, hn⟩ | ⟨hd, hs, he, hi⟩ := h
  · have hz : config.frameSize ≠ 0 := by
      rintro hz
      simp [hz] at hn
    let d : FixedSizeFrameDecoder := { frameSize := config.frameSize, frameSize_ne_zero := hz }
    have hcreate : createFrameDecoder config = .ok (.fixedSize d) := by
      simp only [createFrameDecoder, hd, makeFixedSizeFrameDecoder, dif_neg hz]
      rfl
    refine ⟨_, _, hcreate, rfl, rfl, ?_, d.cut_ne_fail, fun _ _ _ _ hc => ?_⟩
    · have hpos := d.frameSize_pos
      simp only [FixedSizeFrameDecoder.splitter, FixedSizeFrameDecoder.cut, List.length_nil]
      rw [if_neg (by omega)]
    · obtain ⟨-, rfl, rfl⟩ := FixedSizeFrameDecoder.cut_item_iff.1 hc
      exact (List.take_append_drop _ _).symm
  · let d : DelimiterFrameDecoder :=
      { delimiter := config.delimiter, delimiter_ne_nil := hn,
        includeDelimiter := config.includeDelimiter }
    have hcreate : createFrameDecoder config = .ok (.delimiter d) := by
      simp only [createFrameDecoder, hd, makeDelimiterFrameDecoder, dif_neg hn]
      rfl
    refine ⟨_, _, hcreate, rfl, rfl, ?_, d.cut_ne_fail, fun hk _ _ _ hc => ?_⟩
    · have hsearch : search d.delimiter [] = none := by
        rw [search_eq_none_iff]
        simpa using hn
      simp [DelimiterFrameDecoder.splitter, DelimiterFrameDecoder.cut, hsearch]
    · have hi : config.includeDelimiter = true := by
        obtain hf | ⟨-, hi⟩ := hk
        · exact absurd (hd.symm.trans hf) (by decide)
        · exact hi
      obtain ⟨found, -, rfl, rfl⟩ := DelimiterFrameDecoder.cut_item_iff.1 hc
      simp [d, hi]
  · obtain ⟨d, hmake, hsize, hnot⟩ : ∃ d, makeLengthPrefixFrameDecoder config.lengthSize
        (lowercase config.lengthEndian) config.lengthIncludesHeader = .ok d ∧
        d.buffer = [] ∧ d.lengthIncludesHeader = false := by
      simp only [makeLengthPrefixFrameDecoder, dif_pos hs]
      rw [if_neg (by tauto)]
      exact ⟨_, rfl, rfl, hi⟩
    have hcreate : createFrameDecoder config = .ok (.lengthPrefix d) := by
      simp only [createFrameDecoder, hd, hmake]
      rfl
    refine ⟨_, _, hcreate, rfl, hsize, ?_, fun b ex hc => ?_, fun hk => ?_⟩
    · have hpos := d.lengthSize_pos
      simp only [LengthPrefixFrameDecoder.splitter, LengthPrefixFrameDecoder.cut, List.length_nil]
      rw [if_pos hpos]
    · have := (LengthPrefixFrameDecoder.cut_fail_iff.1 hc).1
      simp [hnot] at this
    · obtain hf | ⟨hf, -⟩ := hk
      · exact absurd (hd.symm.trans hf) (by decide)
      · exact absurd (hd.symm.trans hf) (by decide)

/-- Chunking invariance: however a stream is cut, a fresh stateful decoder never
throws and returns the frames and the remaining buffer of a single call. Fixed-size
frames and delimited frames with their delimiter add up to the stream. -/
theorem consumeAll_chunking_invariant (config : DecoderConfig) (hconfig : StatefulConfig config) :
    ∃ d, createFrameDecoder config = .ok d ∧ ∀ chunks : List Bytes,
      ∃ d₁ results d₂ whole,
        d.consumeAll chunks = .ok (d₁, results) ∧
        d.consume chunks.flatten = (d₂, .ok whole) ∧
        results.flatMap FrameDecodeResult.frames = whole.frames ∧
        lastRemaining results = whole.remainingBuffer ∧
        (KeepsEveryByte config →
          (results.flatMap FrameDecodeResult.frames).flatten ++ lastRemaining results
            = chunks.flatten) := by
  obtain ⟨d, s, hcreate, hloop, hbuf, hwait, hfail, hkeep⟩ := createFrameDecoder_stateful hconfig
  refine ⟨d, hcreate, fun chunks => ?_⟩
  have herr : (s.drain chunks.flatten).error = none := Splitter.drain_error_of_never_fails hfail _
  have hwhole : (s.drain (d.buffer ++ chunks.flatten)).error = none := by
    rwa [hbuf, List.nil_append]
  obtain ⟨d₁, results, hall, hitems, hlast⟩ :=
    FrameDecoder.consumeAll_of_drain hloop hbuf hwait herr
  refine ⟨d₁, results, _, _, hall, FrameDecoder.consume_of_ok hloop hwhole, ?_, ?_, fun hk => ?_⟩
  · rw [hitems, hbuf, List.nil_append]
    rfl
  · rw [hlast, hbuf, List.nil_append]
    rfl
  · rw [hitems, hlast, ← List.flatMap_id]
    exact Splitter.flatMap_drain_append_rest id (hkeep hk) _

/-- A delimiter that overlaps itself, cut inside the delimiter. -/
theorem consumeAll_overlapping_delimiter :
    ∃ d, createFrameDecoder { decoder := ascii "Delimiter", delimiter := [10, 10] } = .ok d ∧
      ∃ d₁ results, d.consumeAll [[7, 10], [], [10, 10]] = .ok (d₁, results) ∧
        (results.flatMap FrameDecodeResult.frames).flatten ++ lastRemaining results =
          [7, 10, 10, 10] := by
  obtain ⟨d, hcreate, hall⟩ := consumeAll_chunking_invariant
    { decoder := ascii "Delimiter", delimiter := [10, 10] } (.inr (.inl ⟨by decide, by decide⟩))
  obtain ⟨d₁, results, -, -, hresults, -, -, -, hkeep⟩ := hall [[7, 10], [], [10, 10]]
  exact ⟨d, hcreate, d₁, results, hresults, hkeep (.inr ⟨by decide, rfl⟩)⟩

end PacketProbe
