import PacketProbe.StreamDecoding

/-!
# Decoder errors

With a length that includes its header, a header can announce less than itself. The
decoder then throws, its frames of the same payload are lost, and the bytes that made
it throw stay in its buffer, which nothing ever resets.
-/

namespace PacketProbe
open StreamSplitting

namespace LengthPrefixFrameDecoder

variable {d : LengthPrefixFrameDecoder} {f bad : Bytes}

/-- A frame whose header states the frame's own size. -/
def WellFormedFrame (d : LengthPrefixFrameDecoder) (f : Bytes) : Prop :=
  d.lengthSize.toNat ≤ f.length ∧ d.readLength f = f.length

/-- Bytes that start with a complete header whose value is smaller than the header. -/
def MalformedHeader (d : LengthPrefixFrameDecoder) (bad : Bytes) : Prop :=
  d.lengthSize.toNat ≤ bad.length ∧ d.readLength bad < d.lengthSize.toNat

/-- A stream that runs into a malformed header behind well-formed frames. -/
def MeetsMalformedHeader (d : LengthPrefixFrameDecoder) (bytes : Bytes) : Prop :=
  ∃ (frames : List Bytes) (bad : Bytes), (∀ f ∈ frames, d.WellFormedFrame f) ∧
    d.MalformedHeader bad ∧ bytes = frames.flatten ++ bad

instance : Decidable (d.WellFormedFrame f) := inferInstanceAs (Decidable (_ ∧ _))

instance : Decidable (d.MalformedHeader bad) := inferInstanceAs (Decidable (_ ∧ _))

theorem whole_of_wellFormedFrame (hheader : d.lengthIncludesHeader = true)
    (h : d.WellFormedFrame f) : d.splitter.Whole f := by
  have hlength : d.frameLength f = f.length := by simp [frameLength, hheader, h.2]
  have hskipped : d.skipped = 0 := by simp [skipped, hheader]
  refine cut_item_iff.2 ⟨h.1, ?_, ?_, ?_, ?_⟩
  · rw [hlength]
    exact h.1
  · rw [hlength]
  · simp [hlength, hskipped]
  · simp [hlength]

theorem wellFormedFrame_of_cut (hheader : d.lengthIncludesHeader = true) {b out rest : Bytes}
    (h : d.splitter.cut b = .item out rest) : d.WellFormedFrame out := by
  obtain ⟨-, hs, hl, rfl, rfl⟩ := cut_item_iff.1 h
  have hlength : d.frameLength b = d.readLength b := by simp [frameLength, hheader]
  have hskipped : d.skipped = 0 := by simp [skipped, hheader]
  rw [hlength] at hs hl
  have hsize : (b.take (d.readLength b)).length = d.readLength b := List.length_take_of_le hl
  rw [hlength, hskipped, List.drop_zero]
  refine ⟨by rwa [hsize], ?_⟩
  rw [hsize]
  have happ := d.readLength_append (b := b.take (d.readLength b)) (by rwa [hsize])
    (b.drop (d.readLength b))
  rwa [List.take_append_drop, eq_comm] at happ

theorem failsAfter_of_malformedHeader (hheader : d.lengthIncludesHeader = true)
    (h : d.MalformedHeader bad) : d.splitter.FailsAfter bad d.lengthSize.toNat headerError := by
  refine ⟨h.1, fun p hp hlt => ?_, fun p hp hle => ?_⟩
  · simp [splitter, cut, hlt]
  · obtain ⟨more, rfl⟩ := hp
    have hread := h.2
    rw [d.readLength_append hle] at hread
    exact cut_fail_iff.2 ⟨hheader, hle, hread, rfl⟩

theorem malformedHeader_of_cut {b : Bytes} {ex : StdException}
    (h : d.splitter.cut b = .fail ex) : d.MalformedHeader b := by
  obtain ⟨-, hle, hlt, -⟩ := cut_fail_iff.1 h
  exact ⟨hle, hlt⟩

theorem cut_nil (d : LengthPrefixFrameDecoder) : d.splitter.cut [] = .wait := by
  have hpos := d.lengthSize_pos
  simp [splitter, cut, hpos]

/-- Draining fails exactly on streams that run into a malformed header. -/
theorem meetsMalformedHeader_iff (hheader : d.lengthIncludesHeader = true) (bytes : Bytes) :
    d.MeetsMalformedHeader bytes ↔ (d.splitter.drain bytes).error ≠ none := by
  constructor
  · rintro ⟨frames, bad, hframes, hbad, rfl⟩
    have hlen := hbad.1
    have hwhole := fun f hf => whole_of_wellFormedFrame hheader (hframes f hf)
    obtain ⟨r, hd, -⟩ := (Splitter.drain_prefix (failsAfter_of_malformedHeader hheader hbad)
      hwhole List.prefix_rfl).2 (by rw [List.length_append]; omega)
    simp [hd]
  · intro h
    obtain ⟨ex, hex⟩ := Option.ne_none_iff_exists'.1 h
    have hitems : ∀ f ∈ (d.splitter.drain bytes).items, d.splitter.Whole f :=
      Splitter.mem_drain_items
        (fun hc => whole_of_wellFormedFrame hheader (wellFormedFrame_of_cut hheader hc)) bytes
    refine ⟨(d.splitter.drain bytes).items, (d.splitter.drain bytes).rest, fun f hf => ?_,
      malformedHeader_of_cut (Splitter.cut_rest_of_error hex), ?_⟩
    · exact wellFormedFrame_of_cut hheader (hitems f hf)
    · have hkeep : ∀ {b out rest}, d.splitter.cut b = .item out rest → b = id out ++ rest := by
        intro b out rest hc
        obtain ⟨-, -, -, rfl, rfl⟩ := cut_item_iff.1 hc
        simp [skipped, hheader]
      have hsplit := Splitter.flatMap_drain_append_rest id hkeep bytes
      rw [List.flatMap_id] at hsplit
      exact hsplit.symm

end LengthPrefixFrameDecoder

open EventPipeline LengthPrefixFrameDecoder

def framePayloads (events : List PacketEvent) : List Bytes :=
  (events.filter fun e => e.type = .frame).map PacketEvent.payload

/-- The frame events carry exactly these frames, and an error event follows them. -/
def FramesThenError (events : List PacketEvent) (frames : List Bytes) : Prop :=
  framePayloads events = frames ∧
    ∃ before error after, events = before ++ error :: after ∧ error.type = .error ∧
      framePayloads after = []

/-- Some payload, or the start of the stream, ends behind the last frame and before the
header that follows is complete. -/
def CutBeforeHeader (d : LengthPrefixFrameDecoder) (frames payloads : List Bytes) : Prop :=
  ∃ k, frames.flatten.length ≤ (payloads.take k).flatten.length ∧
    (payloads.take k).flatten.length < frames.flatten.length + d.lengthSize.toNat

theorem framePayloads_eq (events : List PacketEvent) :
    framePayloads events =
      ((events.map PacketEvent.outcome).filter fun o => o.1 = .frame).map Prod.snd := by
  rw [List.filter_map, List.map_map]
  rfl

theorem frames_of_outcomes (ds : List (Drained UInt8 Bytes StdException)) :
    ((ds.flatMap outcomes).filter fun o => o.1 = .frame).map Prod.snd =
      ds.flatMap Splitter.Drained.delivered := by
  induction ds with
  | nil => rfl
  | cons d ds ih =>
    rw [List.flatMap_cons, List.filter_append, List.map_append, ih, List.flatMap_cons]
    congr 1
    cases h : d.error with
    | none =>
      have hall : (d.items.map frameOutcome).filter (fun o => o.1 = .frame) =
          d.items.map frameOutcome := by
        refine List.filter_eq_self.2 fun o ho => ?_
        obtain ⟨f, -, rfl⟩ := List.mem_map.1 ho
        rfl
      simp only [outcomes, Splitter.Drained.delivered, h, hall, List.map_map]
      exact List.map_id _
    | some ex =>
      simp only [outcomes, Splitter.Drained.delivered, h]
      rfl

theorem outcomes_of_failed {ds : List (Drained UInt8 Bytes StdException)}
    (h : ∀ d ∈ ds, d.error ≠ none) :
    ds.flatMap outcomes = List.replicate ds.length errorOutcome := by
  induction ds with
  | nil => rfl
  | cons d ds ih =>
    obtain ⟨ex, hex⟩ := Option.ne_none_iff_exists'.1 (h d (by simp))
    rw [List.flatMap_cons, ih fun d' hd' => h d' (by simp [hd']), List.length_cons,
      List.replicate_succ]
    simp [outcomes, hex]

theorem error_follows {events : List PacketEvent} {os : List (EventType × Bytes)} {n : ℕ}
    (h : events.map PacketEvent.outcome = os ++ List.replicate (n + 1) errorOutcome) :
    ∃ before error after, events = before ++ error :: after ∧ error.type = .error ∧
      framePayloads after = [] := by
  obtain ⟨before, behind, rfl, -, hbehind⟩ := List.map_eq_append_iff.1 h
  rw [List.replicate_succ] at hbehind
  obtain ⟨error, after, rfl, herror, hafter⟩ := List.map_eq_cons_iff.1 hbehind
  refine ⟨before, error, after, rfl, congrArg Prod.fst herror, ?_⟩
  rw [framePayloads_eq, hafter]
  simp [errorOutcome]

/-- The fresh pipeline of a length-prefix configuration loops with this decoder. -/
theorem looping_of_create {config : DecoderConfig} {d : LengthPrefixFrameDecoder}
    (hcreate : createFrameDecoder config = .ok (.lengthPrefix d)) :
    (fresh config).Looping (.lengthPrefix d) d.splitter ∧ d.buffer = [] := by
  refine ⟨looping_fresh hcreate rfl, ?_⟩
  have hmake : ∀ {size endian includes}, makeLengthPrefixFrameDecoder size endian includes = .ok d →
      d.buffer = [] := by
    intro size endian includes h
    simp only [makeLengthPrefixFrameDecoder] at h
    split at h
    · split at h
      · cases h
      · cases h
        rfl
    · cases h
  simp only [createFrameDecoder] at hcreate
  split at hcreate
  · cases hcreate
  · split at hcreate
    · cases hm : makeFixedSizeFrameDecoder config.frameSize <;> rw [hm] at hcreate <;> cases hcreate
    · split at hcreate
      · cases hm : makeDelimiterFrameDecoder config.delimiter config.includeDelimiter <;>
          rw [hm] at hcreate <;> cases hcreate
      · split at hcreate
        · cases hm : makeLengthPrefixFrameDecoder config.lengthSize (lowercase config.lengthEndian)
            config.lengthIncludesHeader with
          | error ex => rw [hm] at hcreate; cases hcreate
          | ok d' => rw [hm] at hcreate; cases hcreate; exact hmake hm
        · cases hcreate

/-- Whether frames in front of a malformed header survive: exactly if the stream is cut
between the last frame and the end of the header. -/
theorem framesThenError_iff (config : DecoderConfig) (d : LengthPrefixFrameDecoder)
    (hcreate : createFrameDecoder config = .ok (.lengthPrefix d))
    (hheader : d.lengthIncludesHeader = true) (frames : List Bytes)
    (hframes : ∀ f ∈ frames, d.WellFormedFrame f) (bad : Bytes) (hbad : d.MalformedHeader bad)
    (key : ByteString) (events : List PacketEvent)
    (hbytes : streamBytes key events = frames.flatten ++ bad) (a : SequenceAllocator) :
    ((fresh config).run a events).log = logOf ((fresh config).history a events) ∧
      (FramesThenError (derivedOf key ((fresh config).history a events)) frames ↔
        CutBeforeHeader d frames (streamPayloads key events)) := by
  obtain ⟨hloop, hempty⟩ := looping_of_create hcreate
  have hbuf : (fresh config).bufferAt (.lengthPrefix d) key = [] := hempty
  have hout := hloop.outcomes_history a key events
  rw [hbuf] at hout
  refine ⟨(run_log hloop.toReady a events).2, ?_⟩
  have hdelivered : framePayloads (derivedOf key ((fresh config).history a events)) = frames ↔
      CutBeforeHeader d frames (streamPayloads key events) := by
    rw [framePayloads_eq, hout, frames_of_outcomes]
    have hiff := Splitter.feed_delivered_iff (failsAfter_of_malformedHeader hheader hbad)
      (fun f hf => whole_of_wellFormedFrame hheader (hframes f hf)) (streamPayloads key events)
      d.cut_nil hbytes
    simp only [List.length_nil, Nat.zero_add] at hiff
    exact hiff
  -- Clean turns come first; from the first failing one on, all derived events are errors.
  obtain ⟨clean, failed, hfeed, hclean, hfailed⟩ :=
    d.splitter.feed_split [] (streamPayloads key events)
  have hmeets : d.MeetsMalformedHeader ([] ++ (streamPayloads key events).flatten) :=
    ⟨frames, bad, hframes, hbad, hbytes⟩
  obtain ⟨d', hd', herror⟩ := Splitter.exists_error_of_drain_error _ d.cut_nil
    ((meetsMalformedHeader_iff hheader _).1 hmeets)
  rw [hfeed] at hd' hout
  rw [List.flatMap_append, outcomes_of_failed hfailed] at hout
  cases failed with
  | nil => exact absurd (hclean d' (by simpa using hd')) herror
  | cons first more =>
    exact ⟨fun h => hdelivered.1 h.1, fun h => ⟨hdelivered.2 h, error_follows hout⟩⟩

/-- The settings of the tests: a header of two bytes, most significant first, counted. -/
def headerConfig : DecoderConfig :=
  { decoder := ascii "length-prefix", lengthIncludesHeader := true }

def headerDecoder : LengthPrefixFrameDecoder :=
  { lengthSize := 2, lengthSize_supported := by decide, littleEndian := false,
    lengthIncludesHeader := true }

def rawEvent (sequence : UInt64) (payload : Bytes) : PacketEvent :=
  { sequence, payload, sessionId := ascii "serial-1", transport := ascii "serial",
    direction := .deviceToApp, sourceEndpoint := ascii "/dev/pts/1" }

/-- A frame and a malformed header in one payload: the frame is lost. -/
theorem frame_lost_with_malformed_header :
    createFrameDecoder headerConfig = .ok (.lengthPrefix headerDecoder) ∧
      headerDecoder.WellFormedFrame [0, 3, 7] ∧ headerDecoder.MalformedHeader [0, 1] ∧
      streamBytes (streamKey (rawEvent 9 [])) [rawEvent 9 [0, 3, 7, 0, 1]] =
        [[0, 3, 7]].flatten ++ [0, 1] ∧
      framePayloads (((fresh headerConfig).run {} [rawEvent 9 [0, 3, 7, 0, 1]]).log) = [] ∧
      ¬ FramesThenError (derivedOf (streamKey (rawEvent 9 []))
        ((fresh headerConfig).history {} [rawEvent 9 [0, 3, 7, 0, 1]])) [[0, 3, 7]] := by
  refine ⟨rfl, by decide, by decide, by decide, by decide +kernel, fun h => ?_⟩
  exact absurd h.1 (by decide +kernel)

theorem framesThenError_iff_of_two_payloads :
    FramesThenError (derivedOf (streamKey (rawEvent 9 []))
      ((fresh headerConfig).history {} [rawEvent 9 [0, 3, 7], rawEvent 10 [0, 1]])) [[0, 3, 7]] :=
  (framesThenError_iff headerConfig headerDecoder rfl rfl [[0, 3, 7]] (by decide) [0, 1] (by decide)
    (streamKey (rawEvent 9 [])) [rawEvent 9 [0, 3, 7], rawEvent 10 [0, 1]] (by decide) {}).2.2
    ⟨1, by decide⟩

/-- The stream's history is empty exactly when its decoder's buffer is, and once an
error was derived for the stream, later well-formed frames come out as if nothing had
happened. -/
structure Recovers (config : DecoderConfig) (d : LengthPrefixFrameDecoder) (key : ByteString)
    (a : SequenceAllocator) (events : List PacketEvent) : Prop where
  history : ∀ pre post, events = pre ++ post →
    (((fresh config).run a pre).pipeline.streamRawSequences key = [] ↔
      ((fresh config).run a pre).pipeline.bufferAt (.lengthPrefix d) key = [])
  frames : ∀ pre post (frames : List Bytes), events = pre ++ post →
    (∃ error ∈ derivedOf key ((fresh config).history a pre), error.type = .error) →
    (∀ f ∈ frames, d.WellFormedFrame f) → streamBytes key post = frames.flatten →
    (derivedOf key (((fresh config).run a pre).pipeline.history
      ((fresh config).run a pre).allocator post)).map PacketEvent.outcome = frames.map frameOutcome

/-- Only a stream that meets a malformed header has an error event. -/
theorem drain_error_of_error_event {p : EventPipeline} {d₀ : FrameDecoder}
    {s : Splitter UInt8 Bytes StdException} (h : p.Looping d₀ s) {key : ByteString}
    (hbuf : p.bufferAt d₀ key = []) (hwait : s.cut [] = .wait) {a : SequenceAllocator}
    {events : List PacketEvent}
    (herror : ∃ error ∈ derivedOf key (p.history a events), error.type = .error) :
    (s.drain (streamBytes key events)).error ≠ none := by
  intro hnone
  obtain ⟨error, hmem, htype⟩ := herror
  obtain ⟨hclean, -, -⟩ := Splitter.feed_eq_drain (streamPayloads key events) hwait
    (by rwa [List.nil_append])
  have hout := List.mem_map_of_mem (f := PacketEvent.outcome) hmem
  rw [h.outcomes_history, hbuf] at hout
  obtain ⟨d, hd, hof⟩ := List.mem_flatMap.1 hout
  rw [outcomes, hclean d hd] at hof
  obtain ⟨frame, -, hframe⟩ := List.mem_map.1 hof
  have hkind := congrArg Prod.fst hframe
  simp [frameOutcome, PacketEvent.outcome, htype] at hkind

/-- Behind an error every payload of the stream derives another error, and nothing else. -/
theorem outcomes_behind_error {p : EventPipeline} {d₀ : FrameDecoder}
    {s : Splitter UInt8 Bytes StdException} (h : p.Looping d₀ s) {key : ByteString} {b : Bytes}
    (hbuf : p.bufferAt d₀ key = (s.drain b).rest) (herror : (s.drain b).error ≠ none)
    (a : SequenceAllocator) (events : List PacketEvent) :
    (derivedOf key (p.history a events)).map PacketEvent.outcome =
      List.replicate (streamPayloads key events).length errorOutcome := by
  obtain ⟨ex, hex⟩ := Option.ne_none_iff_exists'.1 herror
  have hfailed := Splitter.feed_of_fail (Splitter.cut_rest_of_error hex) (streamPayloads key events)
  rw [h.outcomes_history, hbuf, outcomes_of_failed fun d hd => by simp [(hfailed d hd).2],
    Splitter.length_feed]

/-- A stream recovers exactly if it never meets a malformed header: an error empties
the history and not the buffer, and behind it no frame comes out any more. -/
theorem recovers_iff (config : DecoderConfig) (d : LengthPrefixFrameDecoder)
    (hcreate : createFrameDecoder config = .ok (.lengthPrefix d))
    (hheader : d.lengthIncludesHeader = true) (key : ByteString) (a : SequenceAllocator)
    (events : List PacketEvent) :
    (Recovers config d key a events ↔ ¬ d.MeetsMalformedHeader (streamBytes key events)) ∧
    ∀ pre post (frames : List Bytes), events = pre ++ post →
      (∃ error ∈ derivedOf key ((fresh config).history a pre), error.type = .error) →
      (∀ f ∈ frames, d.WellFormedFrame f) → streamBytes key post = frames.flatten →
      ((derivedOf key (((fresh config).run a pre).pipeline.history
        ((fresh config).run a pre).allocator post)).map PacketEvent.outcome =
          frames.map frameOutcome ↔ frames = []) := by
  obtain ⟨hloop, hempty⟩ := looping_of_create hcreate
  have hbuf : (fresh config).bufferAt (.lengthPrefix d) key = [] := hempty
  have hrest : ∀ pre, ((fresh config).run a pre).pipeline.bufferAt (.lengthPrefix d) key =
      (d.splitter.drain (streamBytes key pre)).rest := by
    intro pre
    have h := hloop.bufferAt_run a key pre (by rw [hbuf]; exact d.cut_nil)
    rwa [hbuf, List.nil_append] at h
  have hseqs := fun pre => hloop.seqs_run a key pre hbuf d.cut_nil rfl
  rw [meetsMalformedHeader_iff hheader, not_not]
  refine ⟨⟨fun h => ?_, fun h => ⟨fun pre post heq => ?_, fun pre post frames heq herror => ?_⟩⟩,
    ?_⟩
  · by_contra hne
    obtain ⟨ex, hex⟩ := Option.ne_none_iff_exists'.1 hne
    have hnil := (h.history events [] (by simp)).1 ((hseqs events).2 (.inl hne))
    have hcut := Splitter.cut_rest_of_error hex
    rw [← hrest, hnil, d.cut_nil] at hcut
    cases hcut
  · rw [heq, streamBytes_append] at h
    rw [hseqs, hrest, Splitter.ok_of_append_ok h]
    simp
  · rw [heq, streamBytes_append] at h
    exact absurd (Splitter.ok_of_append_ok h)
      (drain_error_of_error_event hloop hbuf d.cut_nil herror)
  · intro pre post frames heq herror hframes hbytes
    have hne := drain_error_of_error_event hloop hbuf d.cut_nil herror
    rw [outcomes_behind_error (hloop.run a pre) (hrest pre) hne]
    constructor
    · intro hmap
      cases frames with
      | nil => rfl
      | cons f fs =>
        have hmem : frameOutcome f ∈
            List.replicate (streamPayloads key post).length errorOutcome := by
          rw [hmap]
          simp
        have hkind := congrArg Prod.fst (List.eq_of_mem_replicate hmem)
        cases hkind
    · rintro rfl
      rw [streamBytes_eq_nil_iff.1 hbytes]
      rfl

/-- After an error a good frame on the same stream is answered by a second error, and
the history is empty while the buffer is not. -/
theorem no_recovery_after_malformed_header :
    createFrameDecoder headerConfig = .ok (.lengthPrefix headerDecoder) ∧
      headerDecoder.WellFormedFrame [0, 2] ∧
      (let events := [rawEvent 9 [0, 1], rawEvent 10 [0, 2]]
       let r := (fresh headerConfig).run {} events
       (r.log.map PacketEvent.type = [.rawBytes, .error, .rawBytes, .error]) ∧
         r.pipeline.streamRawSequences (streamKey (rawEvent 9 [])) = [] ∧
         r.pipeline.bufferAt (.lengthPrefix headerDecoder) (streamKey (rawEvent 9 [])) =
           [0, 1, 0, 2] ∧
         ¬ Recovers headerConfig headerDecoder (streamKey (rawEvent 9 [])) {} events) := by
  refine ⟨rfl, by decide, by decide +kernel, by decide +kernel, by decide +kernel, fun h => ?_⟩
  have hboth := h.history [rawEvent 9 [0, 1], rawEvent 10 [0, 2]] [] rfl
  exact absurd (hboth.1 (by decide +kernel)) (by decide +kernel)

theorem recovers_iff_of_header_settings :
    Recovers headerConfig headerDecoder (streamKey (rawEvent 9 [])) {}
      [rawEvent 9 [0, 2, 0], rawEvent 10 [3, 7]] :=
  (recovers_iff headerConfig headerDecoder rfl rfl (streamKey (rawEvent 9 [])) {}
    [rawEvent 9 [0, 2, 0], rawEvent 10 [3, 7]]).1.2 fun hmeets =>
      absurd ((LengthPrefixFrameDecoder.meetsMalformedHeader_iff rfl _).1 hmeets)
        (by decide +kernel)

end PacketProbe
