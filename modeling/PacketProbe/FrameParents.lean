import PacketProbe.FrameProvenance

/-!
# The parents of a frame

The history of a stream lives as long as its decoder carries bytes. A frame therefore
names all raw events since the buffer was last empty, also those whose bytes went into
earlier frames only.
-/

namespace PacketProbe
open StreamSplitting

namespace EventPipeline

/-- The bytes a fresh decoder carries after the payloads of these events. -/
def carried (s : Splitter UInt8 Bytes StdException) (events : List PacketEvent) : Bytes :=
  (s.drain (events.flatMap PacketEvent.payload)).rest

variable {p q : EventPipeline} {d₀ : FrameDecoder} {s : Splitter UInt8 Bytes StdException}
  {key : ByteString} {entry : PacketEvent × List PacketEvent}
  {entries : List (PacketEvent × List PacketEvent)} {events before during : List PacketEvent}

theorem map_fst_flatMap_taggedPayload (events : List PacketEvent) :
    (events.flatMap taggedPayload).map Prod.fst = events.flatMap PacketEvent.payload := by
  simp [List.map_flatMap, map_fst_taggedPayload]

theorem carried_eq (hs : s.Tight) (events : List PacketEvent) :
    carried s events = (tracedDrain s events).rest.map Prod.fst := by
  obtain ⟨-, hrest, -⟩ := Splitter.drain_tagged hs (events.flatMap taggedPayload)
  rw [map_fst_flatMap_taggedPayload] at hrest
  exact hrest.symm

theorem error_of_append {more : List PacketEvent}
    (h : (tracedDrain s (events ++ more)).error = none) :
    (tracedDrain s events).error = none := by
  rw [tracedDrain, List.flatMap_append] at h
  exact Splitter.ok_of_append_ok h

/-- Behind events that leave nothing, the loop starts afresh. -/
theorem tracedDrain_append_of_settled (hok : (tracedDrain s before).error = none)
    (hrest : (tracedDrain s before).rest = []) (events : List PacketEvent) :
    (tracedDrain s (before ++ events)).items =
        (tracedDrain s before).items ++ (tracedDrain s events).items ∧
      (tracedDrain s (before ++ events)).error = (tracedDrain s events).error := by
  have happ := Splitter.drain_append_of_ok hok (events.flatMap taggedPayload)
  have hempty : ((s.tagged UInt64).drain (before.flatMap taggedPayload)).rest = [] := hrest
  rw [hempty, List.nil_append] at happ
  rw [tracedDrain, List.flatMap_append, happ]
  exact ⟨rfl, rfl⟩

/-- An event of a transaction whose first frame is cut only later has all its bytes in the
stretch of that frame. -/
theorem exists_byte_of_first {e : PacketEvent} {stretch : Bytes × List (UInt8 × UInt64)}
    (hs : s.Tight) (hok : (tracedDrain s during).error = none)
    (hnone : (tracedDrain s during).items = [])
    (hfirst : (tracedDrain s (during ++ [e])).items.head? = some stretch)
    (hdecoded : ∀ g ∈ during, g.payload ≠ []) :
    ∀ g ∈ during ++ [e], ∃ byte ∈ stretch.2, byte.2 = g.sequence := by
  have hsplit := Splitter.stretches_append_rest hs (during.flatMap taggedPayload)
  change (tracedDrain s during).items.flatMap Prod.snd ++ (tracedDrain s during).rest = _ at hsplit
  rw [hnone, List.flatMap_nil, List.nil_append] at hsplit
  have hwait : (s.tagged UInt64).cut (during.flatMap taggedPayload) = .wait := by
    rw [← hsplit]
    exact Splitter.cut_rest_of_ok hok
  rw [tracedDrain, List.flatMap_append, List.flatMap_singleton] at hfirst
  cases hcut : (s.tagged UInt64).cut (during.flatMap taggedPayload ++ taggedPayload e) with
  | wait =>
    rw [Splitter.drain_wait hcut] at hfirst
    cases hfirst
  | fail ex =>
    rw [Splitter.drain_fail hcut] at hfirst
    cases hfirst
  | item out rest =>
    rw [Splitter.drain_item hcut] at hfirst
    cases hfirst
    obtain ⟨arrived, hne, hstretch, hpayload⟩ := Splitter.stretch_of_wait hs hwait hcut
    intro g hg
    rcases List.mem_append.1 hg with hg | hg
    · -- All that was waiting is part of the stretch.
      obtain ⟨byte, hbyte⟩ := List.exists_mem_of_ne_nil _ (hdecoded g hg)
      refine ⟨(byte, g.sequence), ?_, rfl⟩
      rw [hstretch]
      refine List.mem_append_left _ (List.mem_flatMap.2 ⟨g, hg, ?_⟩)
      exact List.mem_map.2 ⟨byte, hbyte, rfl⟩
    · rw [List.mem_singleton] at hg
      subst hg
      obtain ⟨byte, hbyte⟩ := List.exists_mem_of_ne_nil _ hne
      have hmem : byte ∈ taggedPayload g := hpayload ▸ List.mem_append_left _ hbyte
      obtain ⟨_, -, rfl⟩ := List.mem_map.1 hmem
      exact ⟨_, hstretch ▸ List.mem_append_right _ hbyte, rfl⟩

/-- The raw events a run decodes, each with what is derived from it. -/
def decodings (p : EventPipeline) (a : SequenceAllocator) (events : List PacketEvent) :
    List (PacketEvent × List PacketEvent) :=
  (p.history a events).filter fun entry => entry.1.Decoded

/-- Without a decoder nothing is derived. -/
theorem derived_of_create_error {config : DecoderConfig} {ex : StdException}
    (h : createFrameDecoder config = .error ex) (a : SequenceAllocator) (events : List PacketEvent)
    (hentry : entry ∈ (fresh config).history a events) : entry.2 = [] := by
  have hconsume : ∀ a e, ((fresh config).consume a e).pipeline = fresh config ∧
      ((fresh config).consume a e).delivered = [e] := by
    intro a e
    simp only [EventPipeline.consume, fresh, acceptingSink, makeFrameDecoderFactory, decodeSection,
      decoderFor, h]
    split <;> exact ⟨rfl, rfl⟩
  induction events generalizing a with
  | nil => cases hentry
  | cons e es ih =>
    obtain ⟨hpipeline, hdelivered⟩ := hconsume a e
    rw [history, hpipeline, hdelivered] at hentry
    rcases List.mem_cons.1 hentry with rfl | hentry
    · rfl
    · exact ih _ hentry

theorem loop_of_create {config : DecoderConfig} (hcreate : createFrameDecoder config = .ok d₀)
    (hraw : lowercase config.decoder ≠ ascii "raw") : ∃ s, d₀.loop = some s := by
  cases d₀ with
  | raw =>
    unfold createFrameDecoder makeFixedSizeFrameDecoder makeDelimiterFrameDecoder
      makeLengthPrefixFrameDecoder at hcreate
    simp only [if_neg hraw] at hcreate
    split at hcreate
    · split at hcreate <;> cases hcreate
    · split at hcreate
      · split at hcreate <;> cases hcreate
      · split at hcreate
        · split at hcreate
          · split at hcreate <;> cases hcreate
          · cases hcreate
        · cases hcreate
  | fixedSize d => exact ⟨_, rfl⟩
  | delimiter d => exact ⟨_, rfl⟩
  | lengthPrefix d => exact ⟨_, rfl⟩

theorem exists_stretch {frames : List PacketEvent} {f : PacketEvent} {i : ℕ}
    {stretches : List (Bytes × List (UInt8 × UInt64))} (h : List.Forall₂ CutFrom frames stretches)
    (hf : frames[i]? = some f) : ∃ stretch, stretches[i]? = some (f.payload, stretch) ∧
      ∀ byte ∈ stretch, byte.2 ∈ f.parentSequences := by
  obtain ⟨hi, rfl⟩ := List.getElem?_eq_some_iff.1 hf
  have hi' : i < stretches.length := h.length_eq ▸ hi
  obtain ⟨hpayload, hparents⟩ := h.get hi hi'
  refine ⟨stretches[i].2, ?_, hparents⟩
  rw [List.getElem?_eq_getElem hi', Option.some.injEq]
  exact Prod.ext hpayload.symm rfl

/-- A frame that a decode section derives, with its stretch and its transaction. -/
theorem frame_of_decodeStep {f : PacketEvent} {i : ℕ} (hstep : DecodeStep d₀ p entry q)
    (h : StreamState d₀ s (streamKey entry.1) entries p) (hs : s.Tight) (hloop : d₀.loop = some s)
    (hf : (entry.2.filter fun f => f.type = .frame)[i]? = some f) :
    ∃ before during stretch, rawOf (streamKey entry.1) entries = before ++ during ∧
      f.parentSequences = (during ++ [entry.1]).map PacketEvent.sequence ∧
      (d₀.stretches (rawOf (streamKey entry.1) entries ++ [entry.1]))[
        (framesOf (streamKey entry.1) entries).length + i]? = some (f.payload, stretch) ∧
      carried s before = [] ∧
      (∀ ahead, ahead ≠ [] → ahead <+: during → carried s (before ++ ahead) ≠ []) ∧
      ((d₀.stretches before).length = (framesOf (streamKey entry.1) entries).length + i →
        ∀ g ∈ during ++ [entry.1], ∃ byte ∈ stretch, byte.2 = g.sequence) := by
  have hstretches : ∀ events, d₀.stretches events = (tracedDrain s events).items := by
    intro events
    rw [FrameDecoder.stretches, hloop]
    rfl
  obtain ⟨before, during, htransaction, hseqs⟩ := h.history
  obtain ⟨-, -, hpayloads, hparents⟩ := hstep.own h.looping rfl
  obtain ⟨-, herror⟩ := h.traced.drain_payload hs entry.1
  rw [herror] at hpayloads
  have hok : (tracedDrain s (rawOf (streamKey entry.1) entries ++ [entry.1])).error = none := by
    cases hok : (tracedDrain s (rawOf (streamKey entry.1) entries ++ [entry.1])).error with
    | none => rfl
    | some ex =>
      rw [hok, List.map_eq_nil_iff] at hpayloads
      rw [hpayloads] at hf
      cases hf
  obtain ⟨hsnoc, hold, hnew, -⟩ := h.traced.frames_snoc hs h.looping hstep hok
  obtain ⟨stretch, hstretch, hpayload⟩ := exists_stretch hnew hf
  have hbefore : (tracedDrain s before).error = none := by
    have hall := error_of_append hok
    rw [htransaction.events] at hall
    exact error_of_append hall
  have hrest : (tracedDrain s before).rest = [] := by
    rcases htransaction.settled with hfailed | hrest
    · exact absurd hbefore hfailed
    · exact hrest
  refine ⟨before, during, stretch, htransaction.events, ?_, ?_, ?_, ?_, ?_⟩
  · rw [(hparents f (List.mem_filter.1 (List.mem_of_getElem? hf)).1).2.2, seqsFor, hseqs,
      List.map_append]
    rfl
  · rw [hstretches, hsnoc, hold.length_eq, List.getElem?_append_right (Nat.le_add_right _ _),
      Nat.add_sub_cancel_left]
    exact hstretch
  · rw [carried_eq hs, hrest]
    rfl
  · intro ahead hne hahead hcarried
    rw [carried_eq hs, List.map_eq_nil_iff] at hcarried
    exact htransaction.unsettled ahead hne hahead (.inr hcarried)
  · intro hfirst
    rw [hstretches, hold.length_eq, htransaction.events] at hfirst
    obtain ⟨hitems, herrors⟩ := tracedDrain_append_of_settled hbefore hrest during
    obtain ⟨hall, -⟩ := tracedDrain_append_of_settled hbefore hrest (during ++ [entry.1])
    have hduring : (tracedDrain s during).error = none := by
      rw [← herrors, ← htransaction.events]
      exact error_of_append hok
    -- No frame was cut between the settled events and this one.
    have hlength := congrArg List.length hitems
    rw [List.length_append] at hlength
    have hi : i = 0 := by omega
    have hnone : (tracedDrain s during).items = [] := List.length_eq_zero_iff.1 (by omega)
    have hnow : (tracedDrain s (during ++ [entry.1])).items.head? = some (f.payload, stretch) := by
      have hitemsNow := congrArg Drained.items hsnoc
      rw [htransaction.events, List.append_assoc, hall, hitems, hnone, List.append_nil,
        List.append_cancel_left_eq, ← htransaction.events] at hitemsNow
      rw [hitemsNow, List.head?_eq_getElem?, ← hi]
      exact hstretch
    refine exists_byte_of_first hs hduring hnone hnow fun g hg => ?_
    have hmem : g ∈ rawOf (streamKey entry.1) entries := by
      rw [htransaction.events]
      exact List.mem_append_right _ hg
    simp only [rawOf, List.mem_filter, decide_eq_true_eq] at hmem
    exact hmem.2.1.2

end EventPipeline

open EventPipeline

/-- A frame names all raw events of its stream since the buffer of the decoder was last
empty, up to the one that completed the frame. All of them gave the frame a byte if it is
the first frame since then. -/
theorem frame_parents_of_history (config : DecoderConfig) (a : SequenceAllocator)
    (events : List PacketEvent) {pre post : List (PacketEvent × List PacketEvent)}
    {e f : PacketEvent}
    {derived : List PacketEvent} {i : ℕ} (hraw : lowercase config.decoder ≠ ascii "raw")
    (hentry : (fresh config).decodings a events = pre ++ (e, derived) :: post)
    (hf : (derived.filter fun f => f.type = .frame)[i]? = some f) :
    ∃ d₀ s before during stretch, createFrameDecoder config = .ok d₀ ∧ d₀.loop = some s ∧
      rawOf (streamKey e) pre = before ++ during ∧
      f.parentSequences = (during ++ [e]).map PacketEvent.sequence ∧
      (d₀.stretches (rawOf (streamKey e) pre ++ [e]))[(framesOf (streamKey e) pre).length + i]? =
        some (f.payload, stretch) ∧
      carried s before = [] ∧
      (∀ ahead, ahead ≠ [] → ahead <+: during → carried s (before ++ ahead) ≠ []) ∧
      ((d₀.stretches before).length = (framesOf (streamKey e) pre).length + i →
        ∀ g ∈ during ++ [e], ∃ byte ∈ stretch, byte.2 = g.sequence) := by
  have hmem : (e, derived) ∈ (fresh config).history a events := by
    refine (List.mem_filter.1 (?_ : (e, derived) ∈ (fresh config).decodings a events)).1
    rw [hentry]
    exact List.mem_append_right _ List.mem_cons_self
  cases hcreate : createFrameDecoder config with
  | error ex =>
    obtain rfl : derived = [] := derived_of_create_error hcreate a events hmem
    cases hf
  | ok d₀ =>
    obtain ⟨s, hloop⟩ := loop_of_create hcreate hraw
    have hrun := decodings_of_history (ready_fresh hcreate) a events
    change TransitionRuns.Run _ _ ((fresh config).decodings a events) _ at hrun
    rw [hentry] at hrun
    obtain ⟨p, hpre, hrest⟩ := hrun.append_inv
    cases hrest with
    | cons hstep _ =>
      obtain ⟨before, during, stretch, hparents⟩ := frame_of_decodeStep hstep
        (streamState_of_run hcreate hloop hpre _) (FrameDecoder.tight_of_loop hloop) hloop hf
      exact ⟨d₀, s, before, during, stretch, rfl, hloop, hparents⟩

def threeByteFrames : DecoderConfig := { decoder := ascii "fixed", frameSize := 3 }

def firstHalf : PacketEvent := { sequence := 1, payload := [1, 2] }

/-- The end of one frame and all of the next one. -/
def secondHalf : PacketEvent := { sequence := 2, payload := [3, 4, 5, 6] }

/-- The second frame names the first event, though each of its bytes came with the second. -/
theorem foreign_parent :
    ∃ d₀, createFrameDecoder threeByteFrames = .ok d₀ ∧
      (framesOf (streamKey {}) ((fresh threeByteFrames).history {} [firstHalf, secondHalf]))[1]?.map
        (fun f => (f.payload, f.parentSequences)) = some ([4, 5, 6], [1, 2]) ∧
      (d₀.stretches [firstHalf, secondHalf])[1]? = some ([4, 5, 6], [(4, 2), (5, 2), (6, 2)]) :=
  ⟨.fixedSize ⟨3, by decide, []⟩, rfl, by decide +kernel, by decide +kernel⟩

/-- What is derived from the two payloads. -/
def packedDerived : List PacketEvent :=
  ((fresh threeByteFrames).history {} [firstHalf, secondHalf]).flatMap Prod.snd

theorem frame_parents_of_packed :
    ∃ f ∈ packedDerived, f.payload = [1, 2, 3] ∧ ∃ before during, [firstHalf] = before ++ during ∧
      f.parentSequences = (during ++ [secondHalf]).map PacketEvent.sequence := by
  have hfirst : ((packedDerived.filter fun f => f.type = .frame)[0]?.map
      PacketEvent.payload) = some [1, 2, 3] := by decide +kernel
  obtain ⟨f, hf, hpayload⟩ := Option.map_eq_some_iff.1 hfirst
  have hentry : (fresh threeByteFrames).decodings {} [firstHalf, secondHalf] =
      [(firstHalf, [])] ++ (secondHalf, packedDerived) :: [] := by decide +kernel
  obtain ⟨-, -, before, during, -, -, -, hraw, hparents, -⟩ :=
    frame_parents_of_history threeByteFrames {} [firstHalf, secondHalf] (by decide) hentry hf
  exact ⟨f, (List.mem_filter.1 (List.mem_of_getElem? hf)).1, hpayload, before, during, hraw,
    hparents⟩

end PacketProbe
