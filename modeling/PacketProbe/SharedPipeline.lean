import PacketProbe.FrameParents
import PacketProbe.TicketLedger

/-!
# Threads that share one pipeline

Each thread numbers a raw event and passes it to `consume`: it hands the event to the
sink, decodes it under the mutex, and hands each derived event to the sink. Other threads
take their steps in between.
-/

namespace PacketProbe
open TransitionRuns EventPipeline

/-- Where a thread is with its raw event: numbered, delivered, or decoded with some
derived events left to deliver. -/
inductive SenderPhase where
  | idle
  | made (event : PacketEvent)
  | delivered (event : PacketEvent)
  | emitting (event : PacketEvent) (remaining : List PacketEvent)
  deriving DecidableEq

namespace SenderPhase

/-- The raw event a thread has not finished with. -/
def event : SenderPhase → Option PacketEvent
  | .idle => none
  | .made event | .delivered event | .emitting event _ => some event

/-- The numbered events a thread has not delivered. -/
def undelivered : SenderPhase → List PacketEvent
  | .idle | .delivered _ => []
  | .made event => [event]
  | .emitting _ remaining => remaining

/-- The phase with these derived events left. -/
def emittingOrIdle (event : PacketEvent) : List PacketEvent → SenderPhase
  | [] => .idle
  | remaining => .emitting event remaining

end SenderPhase

/-- The pipeline, the counter and the threads. The log lists the calls to the sink; the
last two fields only record the decode sections in their order and how many numbers the
counter gave out. -/
structure SharedPipeline (ι : Type) where
  pipeline : EventPipeline
  allocator : SequenceAllocator := {}
  phases : ι → SenderPhase := fun _ => .idle
  log : List PacketEvent := []
  decodings : List (PacketEvent × List PacketEvent) := []
  taken : ℕ := 0

/-- The steps of a thread. A session passes the parts of the raw event. -/
inductive SenderAction (ι : Type) where
  | make (thread : ι) (stream : Stream) (timestampNs : Int64) (payload : Bytes)
    (summary : ByteString)
  | deliver (thread : ι)
  | decode (thread : ι)
  | emit (thread : ι)

/-- The thread that takes the step. -/
def SenderAction.thread {ι : Type} : SenderAction ι → ι
  | .make i .. | .deliver i | .decode i | .emit i => i

namespace SharedPipeline

variable {ι : Type} {config : DecoderConfig} {s t : SharedPipeline ι}

/-- A new pipeline, with no thread inside. -/
def start (config : DecoderConfig) : SharedPipeline ι := { pipeline := fresh config }

/-- What the pipeline has become through the decode sections so far. -/
def DecodesTo (config : DecoderConfig) (s : SharedPipeline ι) : Prop :=
  match createFrameDecoder config with
  | .error _ => s.pipeline = fresh config ∧ s.decodings = []
  | .ok d₀ => TransitionRuns.Run (DecodeStep d₀) (fresh config) s.decodings s.pipeline

theorem decodesTo_start (config : DecoderConfig) :
    DecodesTo config (start config : SharedPipeline ι) := by
  unfold DecodesTo
  split
  · exact ⟨rfl, rfl⟩
  · exact .nil _

theorem DecodesTo.run (h : DecodesTo config s) {d₀ : FrameDecoder}
    (hcreate : createFrameDecoder config = .ok d₀) :
    TransitionRuns.Run (DecodeStep d₀) (fresh config) s.decodings s.pipeline := by
  rwa [DecodesTo, hcreate] at h

theorem DecodesTo.failed (h : DecodesTo config s) {ex : StdException}
    (hcreate : createFrameDecoder config = .error ex) :
    s.pipeline = fresh config ∧ s.decodings = [] := by
  rwa [DecodesTo, hcreate] at h

theorem DecodesTo.ready (h : DecodesTo config s) {d₀ : FrameDecoder}
    (hcreate : createFrameDecoder config = .ok d₀) : s.pipeline.Ready d₀ :=
  (h.run hcreate).invariant (I := fun p => p.Ready d₀) (fun _ _ _ hp hstep => hstep.ready hp)
    (ready_fresh hcreate)

theorem DecodesTo.factory (h : DecodesTo config s) : ∃ factory,
    s.pipeline.decoderFactory = some factory ∧
      ∀ ex, createFrameDecoder config = .error ex →
        ∀ e, s.pipeline.decodeSection factory s.allocator e = .error ex := by
  cases hcreate : createFrameDecoder config with
  | error ex =>
    obtain ⟨hpipeline, -⟩ := h.failed hcreate
    refine ⟨makeFrameDecoderFactory config, by rw [hpipeline]; rfl, fun ex' hex e => ?_⟩
    cases hex
    simp [hpipeline, decodeSection, decoderFor, fresh, makeFrameDecoderFactory, hcreate]
  | ok d₀ =>
    obtain ⟨factory, hfactory, -⟩ := (h.ready hcreate).factory
    refine ⟨factory, hfactory, fun _ hex => ?_⟩
    cases hex

variable [DecidableEq ι] {a : SenderAction ι} {i : ι}

def rawEvent (s : SharedPipeline ι) (stream : Stream) (timestampNs : Int64) (payload : Bytes)
    (summary : ByteString) : PacketEvent :=
  makeEvent stream.sessionId stream.transport ⟨s.allocator.next.1, timestampNs⟩ stream.direction
    .rawBytes payload stream.sourceEndpoint stream.destinationEndpoint summary

def setPhase (i : ι) (phase : SenderPhase) (s : SharedPipeline ι) : SharedPipeline ι :=
  { s with phases := Function.update s.phases i phase }

/-- One step of a thread, if it is the thread's next one. A factory that throws lets the
thread's call end. -/
def perform (s : SharedPipeline ι) : SenderAction ι → Option (SharedPipeline ι)
  | .make i stream timestampNs payload summary =>
    if s.phases i = .idle then
      some { s.setPhase i (.made (s.rawEvent stream timestampNs payload summary)) with
        allocator := s.allocator.next.2
        taken := s.taken + 1 }
    else none
  | .deliver i =>
    match s.phases i with
    | .made event =>
      some { s.setPhase i (if event.Decoded ∧ s.pipeline.decoderFactory.isSome = true then
          .delivered event else .idle) with log := s.log ++ [event] }
    | _ => none
  | .decode i =>
    match s.phases i, s.pipeline.decoderFactory with
    | .delivered event, some factory =>
      match s.pipeline.decodeSection factory s.allocator event with
      | .error _ => some (s.setPhase i .idle)
      | .ok (pipeline, allocator, derived) =>
        some { s.setPhase i (.emittingOrIdle event derived) with
          pipeline
          allocator
          decodings := s.decodings ++ [(event, derived)]
          taken := s.taken + derived.length }
    | _, _ => none
  | .emit i =>
    match s.phases i with
    | .emitting event (derived :: remaining) =>
      some { s.setPhase i (.emittingOrIdle event remaining) with log := s.log ++ [derived] }
    | _ => none

def Step (s : SharedPipeline ι) (a : SenderAction ι) (t : SharedPipeline ι) : Prop :=
  s.perform a = some t

/-- All that a step can do. -/
inductive Effect (config : DecoderConfig) (s : SharedPipeline ι) (i : ι) : SharedPipeline ι → Prop
  | make (event : PacketEvent) (hphase : s.phases i = .idle) (htype : event.type = .rawBytes)
      (hnumber : event.sequence = s.allocator.next.1) :
      Effect config s i { s.setPhase i (.made event) with
        allocator := s.allocator.next.2
        taken := s.taken + 1 }
  | deliver (event : PacketEvent) (hphase : s.phases i = .made event) :
      Effect config s i { s.setPhase i (if event.Decoded then .delivered event else .idle) with
        log := s.log ++ [event] }
  | fail (event : PacketEvent) (ex : StdException) (hphase : s.phases i = .delivered event)
      (hcreate : createFrameDecoder config = .error ex) : Effect config s i (s.setPhase i .idle)
  | decode (event : PacketEvent) (d₀ : FrameDecoder) (hphase : s.phases i = .delivered event)
      (hcreate : createFrameDecoder config = .ok d₀) (hready : s.pipeline.Ready d₀) :
      Effect config s i
        { s.setPhase i (.emittingOrIdle event (derive s.allocator event (s.pipeline.seqsFor event)
            (s.pipeline.decoded d₀ event).2).1) with
          pipeline := s.pipeline.store (streamKey event) (s.pipeline.decoded d₀ event).1
            (keepSeqs (s.pipeline.seqsFor event) (s.pipeline.decoded d₀ event).2)
          allocator := (derive s.allocator event (s.pipeline.seqsFor event)
            (s.pipeline.decoded d₀ event).2).2
          decodings := s.decodings ++ [(event, (derive s.allocator event
            (s.pipeline.seqsFor event) (s.pipeline.decoded d₀ event).2).1)]
          taken := s.taken + (derive s.allocator event (s.pipeline.seqsFor event)
            (s.pipeline.decoded d₀ event).2).1.length }
  | emit (event derived : PacketEvent) (remaining : List PacketEvent)
      (hphase : s.phases i = .emitting event (derived :: remaining)) :
      Effect config s i { s.setPhase i (.emittingOrIdle event remaining) with
        log := s.log ++ [derived] }

/-- A step is one of these. -/
theorem effect_of_step (h : DecodesTo config s) (hstep : Step s a t) :
    Effect config s a.thread t := by
  obtain ⟨factory, hfactory, hfails⟩ := h.factory
  unfold Step perform at hstep
  cases a with
  | make i stream timestampNs payload summary =>
    simp only at hstep
    split at hstep
    · rename_i hphase
      cases hstep
      exact .make (s.rawEvent stream timestampNs payload summary) hphase rfl rfl
    · cases hstep
  | deliver i =>
    simp only at hstep
    split at hstep
    · rename_i event hphase
      cases hstep
      have heffect : Effect config s i _ := .deliver event hphase
      simpa [hfactory, SenderAction.thread] using heffect
    · cases hstep
  | decode i =>
    simp only [hfactory] at hstep
    split at hstep
    · rename_i event factory' hphase hsame
      cases hsame
      cases hcreate : createFrameDecoder config with
      | error ex =>
        rw [hfails ex hcreate] at hstep
        cases hstep
        exact .fail event ex hphase hcreate
      | ok d₀ =>
        rw [decodeSection_of_ready (h.ready hcreate) hfactory] at hstep
        cases hstep
        exact .decode event d₀ hphase hcreate (h.ready hcreate)
    · cases hstep
  | emit i =>
    simp only at hstep
    split at hstep
    · rename_i event derived remaining hphase
      cases hstep
      exact .emit event derived remaining hphase
    · cases hstep

/-! ### Numbers -/

def number (e : PacketEvent) : ℕ := e.sequence.toNat

theorem hasTaken_makeFrameEvents {alloc : SequenceAllocator} {n : ℕ} (h : alloc.HasTaken n)
    (e : PacketEvent) (seqs : List UInt64) (frames : List Bytes) :
    (makeFrameEvents alloc e seqs frames).2.HasTaken (n + frames.length) ∧
      (n + frames.length < UInt64.size →
        (makeFrameEvents alloc e seqs frames).1.map number =
          List.range' (n + 1) frames.length) := by
  induction frames generalizing alloc n with
  | nil => exact ⟨h, fun _ => rfl⟩
  | cons frame frames ih =>
    obtain ⟨htaken, hnumbers⟩ := ih h.next
    have hcount : n + (frames.length + 1) = n + 1 + frames.length := by omega
    rw [List.length_cons, hcount]
    refine ⟨htaken, fun hbound => ?_⟩
    rw [List.range'_succ, ← hnumbers hbound]
    exact congrArg (· :: _) (h.toNat_next (by omega))

theorem hasTaken_derive {alloc : SequenceAllocator} {n : ℕ} (h : alloc.HasTaken n) (e : PacketEvent)
    (seqs : List UInt64) (result : Except StdException FrameDecodeResult) :
    (derive alloc e seqs result).2.HasTaken (n + (derive alloc e seqs result).1.length) ∧
      (n + (derive alloc e seqs result).1.length < UInt64.size →
        (derive alloc e seqs result).1.map number =
          List.range' (n + 1) (derive alloc e seqs result).1.length) := by
  cases result with
  | ok result =>
    have hlength : (derive alloc e seqs (.ok result)).1.length = result.frames.length := by
      rw [← makeFrameEvents_payloads alloc e seqs result.frames, List.length_map]
      rfl
    rw [hlength]
    exact hasTaken_makeFrameEvents h e seqs result.frames
  | error ex => exact ⟨h.next, fun hbound => congrArg (fun n => [n]) (h.toNat_next hbound)⟩

/-- The numbers given out so far, and where they are. -/
structure Numbered (s : SharedPipeline ι) : Prop where
  taken : s.allocator.HasTaken s.taken
  tickets :
    TicketLedger.Distinct (s.log.map number) (fun i => (s.phases i).undelivered.map number) s.taken

theorem undelivered_emittingOrIdle (event : PacketEvent) (remaining : List PacketEvent) :
    (SenderPhase.emittingOrIdle event remaining).undelivered = remaining := by
  cases remaining <;> rfl

/-- What the threads hold after one of them has changed its phase. -/
theorem held_setPhase {β : Type} (held : SenderPhase → β) (i : ι) (phase : SenderPhase)
    (s : SharedPipeline ι) : (fun j => held ((s.setPhase i phase).phases j)) =
      Function.update (fun j => held (s.phases j)) i (held phase) :=
  Function.comp_update held s.phases i phase

theorem undelivered_setPhase (i : ι) (phase : SenderPhase) (s : SharedPipeline ι) :
    (fun j => ((s.setPhase i phase).phases j).undelivered.map number) =
      Function.update (fun j => (s.phases j).undelivered.map number) i
        (phase.undelivered.map number) :=
  held_setPhase (fun phase => phase.undelivered.map number) i phase s

theorem taken_le_of_effect (h : Effect config s i t) : s.taken ≤ t.taken := by
  cases h with
  | make => exact Nat.le_succ _
  | deliver => exact le_rfl
  | fail => exact le_rfl
  | decode => exact Nat.le_add_right _ _
  | emit => exact le_rfl

theorem Numbered.step (h : s.Numbered) (heffect : Effect config s i t)
    (hbound : t.taken < UInt64.size) :
    t.Numbered := by
  cases heffect with
  | make event hphase htype hnumber =>
    refine ⟨h.taken.next, ?_⟩
    have hissue := h.tickets.issue i 1
    have hevent : number event = s.taken + 1 := by
      rw [number, hnumber]
      exact h.taken.toNat_next hbound
    have hlist : (SenderPhase.made event).undelivered.map number = List.range' (s.taken + 1) 1 :=
      congrArg (fun n => [n]) hevent
    rw [undelivered_setPhase, hlist]
    exact hissue
  | deliver event hphase =>
    refine ⟨h.taken, ?_⟩
    have hheld : (s.phases i).undelivered.map number = number event :: [] := by
      simp [hphase, SenderPhase.undelivered]
    have hmove := h.tickets.move hheld
    rw [undelivered_setPhase, List.map_append]
    split <;> exact hmove
  | fail event ex hphase hcreate =>
    refine ⟨h.taken, ?_⟩
    rw [undelivered_setPhase]
    exact h.tickets.issue i 0
  | decode event d₀ hphase hcreate hready =>
    obtain ⟨htaken, hnumbers⟩ := hasTaken_derive h.taken event (s.pipeline.seqsFor event)
      (s.pipeline.decoded d₀ event).2
    refine ⟨htaken, ?_⟩
    rw [undelivered_setPhase, undelivered_emittingOrIdle, hnumbers hbound]
    exact h.tickets.issue i _
  | emit event derived remaining hphase =>
    refine ⟨h.taken, ?_⟩
    have hheld : (s.phases i).undelivered.map number = number derived :: remaining.map number := by
      simp [hphase, SenderPhase.undelivered]
    have hmove := h.tickets.move hheld
    rw [undelivered_setPhase, undelivered_emittingOrIdle, List.map_append]
    exact hmove

/-- The event names its parents, all of them raw events of its stream in the log. -/
def ParentsIn (log : List PacketEvent) (e : PacketEvent) : Prop :=
  e.parentSequences.getLast? = some e.parentSequence ∧
    ∀ q ∈ e.parentSequences, ∃ r ∈ log, r.Decoded ∧ streamKey r = streamKey e ∧ r.sequence = q

theorem ParentsIn.mono {log : List PacketEvent} {e : PacketEvent} (h : ParentsIn log e)
    (more : List PacketEvent) : ParentsIn (log ++ more) e := by
  refine ⟨h.1, fun q hq => ?_⟩
  obtain ⟨r, hr, hfacts⟩ := h.2 q hq
  exact ⟨r, List.mem_append_left _ hr, hfacts⟩

/-- An event derived in one of the decode sections. -/
def DerivedIn (s : SharedPipeline ι) (e : PacketEvent) : Prop := ∃ entry ∈ s.decodings, e ∈ entry.2

/-- What a thread holds: a raw event that is delivered before it is decoded, and derived
events whose parents are delivered. -/
structure Holds (s : SharedPipeline ι) (phase : SenderPhase) : Prop where
  raw : ∀ e ∈ phase.event, e.type = .rawBytes
  delivered : ∀ e, phase = .delivered e → e ∈ s.log ∧ e.Decoded
  derived : ∀ e remaining, phase = .emitting e remaining →
    ∀ f ∈ remaining, ParentsIn s.log f ∧ DerivedIn s f

/-- Every parent is delivered before the event that names it. -/
structure Parented (config : DecoderConfig) (s : SharedPipeline ι) : Prop where
  decodes : DecodesTo config s
  history : ∀ key, ∀ q ∈ s.pipeline.streamRawSequences key,
    ∃ r ∈ s.log, r.Decoded ∧ streamKey r = key ∧ r.sequence = q
  holds : ∀ i, s.Holds (s.phases i)
  log : ∀ before e after, s.log = before ++ e :: after →
    e.type = .rawBytes ∨ ParentsIn before e ∧ s.DerivedIn e

/-- Where an event of a log that has grown by one stands. -/
theorem split_of_snoc {log before after : List PacketEvent} {e last : PacketEvent}
    (h : log ++ [last] = before ++ e :: after) :
    (before = log ∧ e = last) ∨ ∃ rest, log = before ++ e :: rest := by
  rcases List.append_eq_append_iff.1 h.symm with ⟨rest, hbefore, hafter⟩ | ⟨rest, hlog, hlast⟩
  · cases rest with
    | nil =>
      rw [List.append_nil] at hbefore
      obtain ⟨rfl, -⟩ := List.cons.inj hafter
      exact .inl ⟨hbefore.symm, rfl⟩
    | cons x rest =>
      obtain ⟨rfl, -⟩ := List.cons.inj hafter
      exact .inr ⟨rest, hbefore⟩
  · cases rest with
    | nil =>
      obtain ⟨rfl, -⟩ := List.cons.inj hlast
      exact .inl ⟨by rw [hlog, List.append_nil], rfl⟩
    | cons x rest =>
      have hlength := congrArg List.length hlast
      simp at hlength

omit [DecidableEq ι] in
theorem Holds.mono {phase : SenderPhase} (h : s.Holds phase) (hlog : s.log <+: t.log)
    (hderived : ∀ e, s.DerivedIn e → t.DerivedIn e) : t.Holds phase := by
  obtain ⟨more, hmore⟩ := hlog
  refine ⟨h.raw, fun e he => ?_, fun e remaining he f hf => ?_⟩
  · obtain ⟨hmem, hdecoded⟩ := h.delivered e he
    exact ⟨hmore ▸ List.mem_append_left _ hmem, hdecoded⟩
  · obtain ⟨hparents, hin⟩ := h.derived e remaining he f hf
    exact ⟨hmore ▸ hparents.mono more, hderived f hin⟩

/-- The threads that did not move still hold what they held. -/
theorem holds_setPhase {phase : SenderPhase} (h : ∀ j, s.Holds (s.phases j))
    (hlog : s.log <+: t.log) (hderived : ∀ e, s.DerivedIn e → t.DerivedIn e)
    (hphases : t.phases = (s.setPhase i phase).phases) (hi : t.Holds phase) (j : ι) :
    t.Holds (t.phases j) := by
  by_cases hj : j = i
  · subst hj
    rw [hphases]
    simpa [setPhase] using hi
  · rw [hphases]
    simpa [setPhase, hj] using (h j).mono hlog hderived

omit [DecidableEq ι] in
theorem holds_idle (s : SharedPipeline ι) : s.Holds .idle :=
  ⟨fun _ he => (nomatch he), fun _ he => (nomatch he), fun _ _ he => (nomatch he)⟩

omit [DecidableEq ι] in
theorem holds_emittingOrIdle {event : PacketEvent} {remaining : List PacketEvent}
    (hevent : event.type = .rawBytes) (h : ∀ f ∈ remaining, ParentsIn s.log f ∧ DerivedIn s f) :
    s.Holds (.emittingOrIdle event remaining) := by
  cases remaining with
  | nil => exact holds_idle s
  | cons f fs =>
    refine ⟨fun e he => ?_, fun _ he => (nomatch he), fun e remaining he => ?_⟩
    · cases he
      exact hevent
    · cases he
      exact h

omit [DecidableEq ι] in
theorem parented_start (config : DecoderConfig) :
    (start config : SharedPipeline ι).Parented config := by
  refine ⟨decodesTo_start config, fun key q hq => (nomatch hq), fun i => holds_idle _, ?_⟩
  intro before e after h
  cases before <;> cases h

theorem mem_of_mem_keepSeqs {q : UInt64} {seqs : List UInt64}
    {result : Except StdException FrameDecodeResult} (h : q ∈ keepSeqs seqs result) : q ∈ seqs := by
  unfold keepSeqs at h
  split at h
  · split at h
    · cases h
    · exact h
  · cases h

omit [DecidableEq ι] in
/-- A log that grows by a raw event, or by one whose parents it holds. -/
theorem Parented.log_snoc (h : s.Parented config) {last : PacketEvent}
    (hlast : last.type = .rawBytes ∨ ParentsIn s.log last ∧ s.DerivedIn last)
    {before after : List PacketEvent} {e : PacketEvent}
    (hsplit : s.log ++ [last] = before ++ e :: after) :
    e.type = .rawBytes ∨ ParentsIn before e ∧ s.DerivedIn e := by
  rcases split_of_snoc hsplit with ⟨rfl, rfl⟩ | ⟨rest, hold⟩
  · exact hlast
  · exact h.log before e rest hold

omit [DecidableEq ι] in
theorem Parented.history_append (h : s.Parented config) (more : List PacketEvent) {key : ByteString}
    {q : UInt64} (hq : q ∈ s.pipeline.streamRawSequences key) :
    ∃ r ∈ s.log ++ more, r.Decoded ∧ streamKey r = key ∧ r.sequence = q := by
  obtain ⟨r, hr, hfacts⟩ := h.history key q hq
  exact ⟨r, List.mem_append_left _ hr, hfacts⟩

omit [DecidableEq ι] in
/-- The events that an event's decode section may name are in the log. -/
theorem Parented.sources (h : s.Parented config) {event : PacketEvent} (hlogged : event ∈ s.log)
    (hdecoded : event.Decoded) {q : UInt64} (hq : q ∈ s.pipeline.seqsFor event) :
    ∃ r ∈ s.log, r.Decoded ∧ streamKey r = streamKey event ∧ r.sequence = q := by
  rcases List.mem_append.1 hq with hq | hq
  · exact h.history _ q hq
  · rw [List.mem_singleton] at hq
    exact ⟨event, hlogged, hdecoded, rfl, hq.symm⟩

theorem Parented.step (h : s.Parented config) (heffect : Effect config s i t) :
    t.Parented config := by
  cases heffect with
  | make event hphase htype hnumber =>
    refine ⟨h.decodes, h.history, holds_setPhase h.holds List.prefix_rfl (fun _ he => he) rfl ?_,
      h.log⟩
    refine ⟨fun e he => ?_, fun _ he => (nomatch he), fun _ _ he => (nomatch he)⟩
    cases he
    exact htype
  | deliver event hphase =>
    have htype : event.type = .rawBytes :=
      (h.holds i).raw event (by simp [hphase, SenderPhase.event])
    refine ⟨h.decodes, fun _ _ => h.history_append _, holds_setPhase h.holds
      (List.prefix_append _ _) (fun _ he => he) rfl ?_, fun _ _ _ => h.log_snoc (.inl htype)⟩
    split
    · refine ⟨fun e he => ?_, fun e he => ?_, fun _ _ he => (nomatch he)⟩
      · cases he
        exact htype
      · cases he
        exact ⟨List.mem_append_right _ (List.mem_singleton_self _), ‹_›⟩
    · exact holds_idle _
  | fail event ex hphase hcreate =>
    exact ⟨h.decodes, h.history, holds_setPhase h.holds List.prefix_rfl (fun _ he => he) rfl
      (holds_idle _), h.log⟩
  | decode event d₀ hphase hcreate hready =>
    obtain ⟨hlogged, hdecoded⟩ := (h.holds i).delivered event hphase
    refine ⟨?_, fun key q hq => ?_, holds_setPhase h.holds List.prefix_rfl ?_ rfl ?_,
      fun before e after hsplit => ?_⟩
    · rw [DecodesTo, hcreate]
      exact (h.decodes.run hcreate).snoc ⟨hdecoded, rfl, _, rfl⟩
    · by_cases hkey : key = streamKey event
      · subst hkey
        rw [streamRawSequences_store_self] at hq
        exact h.sources hlogged hdecoded (mem_of_mem_keepSeqs hq)
      · rw [streamRawSequences_store_of_ne hkey] at hq
        exact h.history key q hq
    · rintro e ⟨entry, hentry, he⟩
      exact ⟨entry, List.mem_append_left _ hentry, he⟩
    · refine holds_emittingOrIdle hdecoded.1 fun f hf => ?_
      obtain ⟨-, hstream, hparent, hparents⟩ := parents_of_mem_derive hf
      refine ⟨⟨?_, fun q hq => ?_⟩, _, List.mem_append_right _ (List.mem_singleton_self _), hf⟩
      · rw [hparents, hparent]
        exact List.getLast?_concat
      · rw [hparents] at hq
        rw [streamKey_eq_of_stream_eq hstream]
        exact h.sources hlogged hdecoded hq
    · obtain hraw | ⟨hparents, entry, hentry, he⟩ := h.log before e after hsplit
      · exact .inl hraw
      · exact .inr ⟨hparents, entry, List.mem_append_left _ hentry, he⟩
  | emit event derived remaining hphase =>
    have hheld := (h.holds i).derived event (derived :: remaining) hphase
    have htype := (h.holds i).raw event (by simp [hphase, SenderPhase.event])
    refine ⟨h.decodes, fun _ _ => h.history_append _, holds_setPhase h.holds
      (List.prefix_append _ _) (fun _ he => he) rfl ?_,
      fun _ _ _ => h.log_snoc (.inr (hheld derived List.mem_cons_self))⟩
    refine holds_emittingOrIdle htype fun f hf => ?_
    obtain ⟨hparents, hin⟩ := hheld f (List.mem_cons_of_mem _ hf)
    exact ⟨hparents.mono _, hin⟩

/-! ### Every interleaving -/

/-- What any run keeps. -/
theorem parented_of_run {acts : List (SenderAction ι)}
    (hrun : TransitionRuns.Run Step (start config) acts s) : s.Parented config := by
  refine hrun.invariant (I := fun s => s.Parented config) ?_ (parented_start config)
  intro s a t h hstep
  exact h.step (effect_of_step h.decodes hstep)

theorem numbered_of_run {acts : List (SenderAction ι)}
    (hrun : TransitionRuns.Run Step (start config) acts s) (hbound : s.taken < UInt64.size) :
    s.Numbered := by
  have hboth := hrun.invariant
    (I := fun s => s.Parented config ∧ (s.taken < UInt64.size → s.Numbered)) ?_ ?_
  · exact hboth.2 hbound
  · rintro s a t ⟨hparented, hnumbered⟩ hstep
    have heffect := effect_of_step hparented.decodes hstep
    refine ⟨hparented.step heffect, fun hbound => ?_⟩
    exact (hnumbered (Nat.lt_of_le_of_lt (taken_le_of_effect heffect) hbound)).step heffect hbound
  · exact ⟨parented_start config, fun _ =>
      ⟨SequenceAllocator.hasTaken_default, TicketLedger.distinct_nil _⟩⟩

/-- A derived event is a frame or an error of its stream. -/
theorem derived_of_decodings {d₀ : FrameDecoder} {p : EventPipeline}
    {entries : List (PacketEvent × List PacketEvent)}
    (hrun : TransitionRuns.Run (DecodeStep d₀) (fresh config) entries p) :
    ∀ entry ∈ entries, ∀ f ∈ entry.2,
      (f.type = .frame ∨ f.type = .error) ∧ f.stream = entry.1.stream := by
  refine hrun.trace_induction (P := fun entries _ => ∀ entry ∈ entries, ∀ f ∈ entry.2,
    (f.type = .frame ∨ f.type = .error) ∧ f.stream = entry.1.stream) (fun _ h => nomatch h) ?_
  rintro entries p last q - ih ⟨-, -, a, hderived⟩ entry hentry f hf
  rcases List.mem_append.1 hentry with hentry | hentry
  · exact ih entry hentry f hf
  · rw [List.mem_singleton] at hentry
    subst hentry
    rw [hderived] at hf
    obtain ⟨htype, hstream, -⟩ := parents_of_mem_derive hf
    exact ⟨htype, hstream⟩

omit [DecidableEq ι] in
/-- A frame is cut from a stretch of its stream whose bytes all come from its parents. -/
theorem Parented.frame_stretch (h : s.Parented config) {e : PacketEvent} (hderived : s.DerivedIn e)
    (htype : e.type = .frame) :
    ∃ (d₀ : FrameDecoder) (n : ℕ) (stretch : List (UInt8 × UInt64)),
      createFrameDecoder config = .ok d₀ ∧
      (framesOf (streamKey e) s.decodings)[n]? = some e ∧
      (d₀.stretches (rawOf (streamKey e) s.decodings))[n]? = some (e.payload, stretch) ∧
      ∀ byte ∈ stretch, byte.2 ∈ e.parentSequences := by
  obtain ⟨entry, hentry, he⟩ := hderived
  cases hcreate : createFrameDecoder config with
  | error ex =>
    rw [(h.decodes.failed hcreate).2] at hentry
    cases hentry
  | ok d₀ =>
    have hrun := h.decodes.run hcreate
    have hkey : streamKey e = streamKey entry.1 :=
      streamKey_eq_of_stream_eq (derived_of_decodings hrun entry hentry e he).2
    have hframe : e ∈ framesOf (streamKey e) s.decodings := by
      refine List.mem_filter.2 ⟨List.mem_flatMap.2 ⟨entry, ?_, he⟩, by simpa using htype⟩
      exact List.mem_filter.2 ⟨hentry, by simpa using hkey.symm⟩
    obtain ⟨n, hn⟩ := List.mem_iff_getElem?.1 hframe
    obtain ⟨stretch, hstretch, hbytes⟩ :=
      exists_stretch (frames_cutFrom_stretches hcreate hrun (streamKey e)) hn
    refine ⟨d₀, n, stretch, rfl, hn, ?_, hbytes⟩
    rw [List.getElem?_take] at hstretch
    split at hstretch
    · exact hstretch
    · cases hstretch

/-- However the threads interleave: the delivered events have distinct numbers, and a
derived event names as parents raw events of its stream that were delivered before it,
among them all that brought a byte of a frame. -/
theorem delivered_events_sound (config : DecoderConfig) {acts : List (SenderAction ι)}
    (hrun : TransitionRuns.Run Step (start config) acts s) (hbound : s.taken < UInt64.size - 1) :
    (s.log.map PacketEvent.sequence).Nodup ∧ (∀ e ∈ s.log, e.sequence ≠ 0) ∧
      ∀ before e after, s.log = before ++ e :: after → e.type = .frame ∨ e.type = .error →
        e.parentSequences.getLast? = some e.parentSequence ∧
        (∀ q ∈ e.parentSequences, ∃ r ∈ before, r.type = .rawBytes ∧ r.payload ≠ [] ∧
          streamKey r = streamKey e ∧ r.sequence = q) ∧
        (e.type = .frame → ∃ (d₀ : FrameDecoder) (n : ℕ) (stretch : List (UInt8 × UInt64)),
          createFrameDecoder config = .ok d₀ ∧
          (framesOf (streamKey e) s.decodings)[n]? = some e ∧
          (d₀.stretches (rawOf (streamKey e) s.decodings))[n]? = some (e.payload, stretch) ∧
          ∀ byte ∈ stretch, byte.2 ∈ e.parentSequences) := by
  have hparented := parented_of_run hrun
  have hnumbered := numbered_of_run hrun (Nat.lt_of_lt_of_le hbound (Nat.sub_le _ _))
  refine ⟨?_, fun e he hzero => ?_, fun before e after hsplit htype => ?_⟩
  · have hnodup := hnumbered.tickets.log_nodup
    have hnumber : s.log.map number = (s.log.map PacketEvent.sequence).map UInt64.toNat := by
      rw [List.map_map]
      rfl
    rw [hnumber] at hnodup
    exact hnodup.of_map _
  · have hpos := (hnumbered.tickets.log_range (number e) (List.mem_map_of_mem he)).1
    rw [number, hzero] at hpos
    exact absurd hpos (by decide)
  · obtain hraw | ⟨⟨hlast, hparents⟩, hderived⟩ := hparented.log before e after hsplit
    · rw [hraw] at htype
      rcases htype with htype | htype <;> cases htype
    · refine ⟨hlast, fun q hq => ?_, hparented.frame_stretch hderived⟩
      obtain ⟨r, hr, hdecoded, hfacts⟩ := hparents q hq
      exact ⟨r, hr, hdecoded.1, hdecoded.2, hfacts⟩

/-- Two threads that send the two payloads on one stream at the same time. -/
def overlappingSends : List (SenderAction Bool) :=
  [.make false firstHalf.stream 0 [1, 2] [], .make true firstHalf.stream 0 [3, 4, 5, 6] [],
    .deliver true, .deliver false, .decode false, .decode true, .emit true, .emit true]

theorem delivered_events_sound_of_overlap :
    ∃ s : SharedPipeline Bool, TransitionRuns.Run Step (start threeByteFrames) overlappingSends s ∧
      s.log.map PacketEvent.sequence = [2, 1, 3, 4] ∧ (s.log.map PacketEvent.sequence).Nodup := by
  obtain ⟨s, hrun, hlog, htaken⟩ := Run.exists_of_foldlM
    (P := fun s : SharedPipeline Bool =>
      s.log.map PacketEvent.sequence = [2, 1, 3, 4] ∧ s.taken < UInt64.size - 1)
    (show ((overlappingSends.foldlM perform (start threeByteFrames)).any _) = true
      by decide +kernel)
  exact ⟨s, hrun, hlog, (delivered_events_sound threeByteFrames hrun htaken).1⟩

end SharedPipeline

end PacketProbe
