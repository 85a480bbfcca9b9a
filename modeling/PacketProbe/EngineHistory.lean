import PacketProbe.EngineRuns
import PacketProbe.SharedPipeline
import PacketProbe.TrafficDecoding

/-!
# The captures in an engine's life

An engine captures many times, under one configuration after the other, and some starts
fail. With each event as one step, all that it broadcasts is one capture behind the other: each
is decoded from its own start on, under the configuration it was started with, and numbered
on from the last.
-/

namespace PacketProbe
open TransitionRuns SharedPipeline

/-! ### Numbered and consumed -/

/-- The event as it leaves `make_event` with this number. -/
def PacketEvent.withSequence (e : PacketEvent) (sequence : UInt64) : PacketEvent :=
  { e with sequence }

/-- A pipeline and its allocator behind some events; each event stands there as it was
numbered, with what was derived from it. -/
structure EmittedRun where
  pipeline : EventPipeline
  allocator : SequenceAllocator
  entries : List (PacketEvent × List PacketEvent)

namespace EventPipeline

def emitAll (p : EventPipeline) (a : SequenceAllocator) : List PacketEvent → EmittedRun
  | [] => ⟨p, a, []⟩
  | e :: es =>
    let consumed := p.consume a.next.2 (e.withSequence a.next.1)
    let rest := consumed.pipeline.emitAll consumed.allocator es
    ⟨rest.pipeline, rest.allocator, (e.withSequence a.next.1, consumed.delivered.tail) ::
      rest.entries⟩

variable {p : EventPipeline} {a : SequenceAllocator} {d₀ : FrameDecoder} {n : ℕ}

variable {known : UInt64 → Prop}

end EventPipeline

/-! ### Captures -/

/-- What one start of a session brought: the configuration it ran under, the first number that was
free, and the events of the session. -/
structure Capture where
  config : CliOptions
  first : SequenceAllocator
  events : List PacketEvent

namespace Capture

def run (capture : Capture) : EmittedRun :=
  (EventPipeline.fresh capture.config.decoderConfig).emitAll capture.first capture.events

/-- All that the sink is called with. -/
def log (capture : Capture) : List PacketEvent := EventPipeline.logOf capture.run.entries

/-- The recorder behind the capture's events. -/
def recorder (capture : Capture) : JsonlRecorder :=
  if capture.config.logPath = [] then {}
  else { logPath := some capture.config.logPath, recorded := capture.log }

/-- The configuration is one to capture under. -/
structure Startable (capture : Capture) : Prop where
  config : CaptureConfig capture.config
  decoder : ∃ d₀, createFrameDecoder capture.config.decoderConfig = .ok d₀

def extend (capture : Capture) (events : List PacketEvent) : Capture :=
  { capture with events := capture.events ++ events }

end Capture

/-- What has become of the captures so far, between two states of which `going` and `going'` say
whether a capture goes on: only that one has been added to, and what follows are new ones. -/
structure Continued (going going' : Bool) (captures later : List Capture) : Prop where
  last : ∀ earlier current, captures = earlier ++ [current] →
    ∃ events rest, later = earlier ++ current.extend events :: rest
  closed : going = false → ∃ rest, later = captures ++ rest ∧ (going' = true → rest ≠ [])

theorem Continued.refl (going : Bool) (captures : List Capture) :
    Continued going going captures captures := by
  constructor
  · rintro earlier current rfl
    refine ⟨[], [], ?_⟩
    rw [Capture.extend, List.append_nil]
  · rintro rfl
    exact ⟨[], (List.append_nil _).symm, fun h => by cases h⟩

theorem Continued.stop {going going' : Bool} {captures later : List Capture}
    (h : Continued going going' captures later) : Continued going false captures later := by
  refine ⟨h.last, fun hclosed => ?_⟩
  obtain ⟨rest, hlater, -⟩ := h.closed hclosed
  exact ⟨rest, hlater, fun h => by cases h⟩

/-- A capture that goes on may or may not go on afterwards. -/
theorem Continued.going {going : Bool} {captures later : List Capture}
    (h : Continued true going captures later)
    (going' : Bool) : Continued true going' captures later :=
  ⟨h.last, fun h => by cases h⟩

theorem Continued.trans {g₁ g₂ g₃ : Bool} {captures later last : List Capture}
    (h : Continued g₁ g₂ captures later)
    (h' : Continued g₂ g₃ later last) : Continued g₁ g₃ captures last := by
  constructor
  · intro earlier current hcaptures
    obtain ⟨events, rest, hlater⟩ := h.last earlier current hcaptures
    rcases List.eq_nil_or_concat rest with rfl | ⟨between, final, rfl⟩
    · obtain ⟨more, others, hlast⟩ := h'.last earlier (current.extend events) hlater
      refine ⟨events ++ more, others, ?_⟩
      rw [hlast, Capture.extend, Capture.extend, Capture.extend, List.append_assoc]
    · obtain ⟨more, others, hlast⟩ :=
        h'.last (earlier ++ current.extend events :: between) final (by simp [hlater])
      exact ⟨events, between ++ final.extend more :: others, by simp [hlast]⟩
  · intro hclosed
    obtain ⟨rest, rfl, hnew⟩ := h.closed hclosed
    cases g₂ with
    | false =>
      obtain ⟨others, rfl, hothers⟩ := h'.closed rfl
      exact ⟨rest ++ others, List.append_assoc _ _ _, fun hgoing => by simp [hothers hgoing]⟩
    | true =>
      -- What goes on is one of the new captures.
      rcases List.eq_nil_or_concat rest with rfl | ⟨between, final, rfl⟩
      · exact absurd rfl (hnew rfl)
      · obtain ⟨more, others, rfl⟩ := h'.last (captures ++ between) final (by simp)
        exact ⟨between ++ final.extend more :: others, List.append_assoc _ _ _, fun _ => by simp⟩

namespace Capture

end Capture

/-! ### Handlers -/

/-- The packet events among what was sent. -/
def eventsOf (sent : List Sent) : List PacketEvent :=
  sent.filterMap fun
    | .broadcast event => some event
    | _ => none

@[simp] theorem eventsOf_append (sent rest : List Sent) :
    eventsOf (sent ++ rest) = eventsOf sent ++ eventsOf rest :=
  List.filterMap_append

namespace EngineController

variable {lib : JsonLibrary} {env : Environment} {c c' : EngineController} {captures : List Capture}
  {client : IpcClientId} {id : ByteString} {h : Handled}

/-- The engine behind its captures; the last one still goes on if there is a pipeline. -/
structure Behind (c : EngineController) (captures : List Capture) : Prop where
  taken : c.allocator.HasTaken (captures.flatMap Capture.log).length
  numbers : (captures.flatMap Capture.log).length < UInt64.size →
    (captures.flatMap Capture.log).map number = List.range' 1 (captures.flatMap Capture.log).length
  eventsSeen : c.eventsSeen = UInt64.ofNat (captures.flatMap Capture.events).length
  startable : ∀ capture ∈ captures, capture.Startable
  current : ∀ p, c.pipeline = some p → ∃ earlier current, captures = earlier ++ [current] ∧
    c.config = current.config ∧ p = current.run.pipeline ∧ c.allocator = current.run.allocator ∧
    c.recorder = some current.recorder

/-- The captures go on from `captures` with the events that were sent. -/
def Advances (c : EngineController) (captures : List Capture) (h : Handled) : Prop :=
  ∃ later, Continued c.pipeline.isSome h.controller.pipeline.isSome captures later ∧
    h.controller.Behind later ∧
    later.flatMap Capture.log = captures.flatMap Capture.log ++ eventsOf h.sent

/-- Neither a change of state nor an event. -/
def Quiet (c : EngineController) (h : Handled) : Prop := h.controller = c ∧ eventsOf h.sent = []

/-- What the history says nothing about may change: the flags, the session, and without a pipeline
the configuration and the recorder. -/
theorem Behind.congr (hc : c.Behind captures) (hallocator : c'.allocator = c.allocator)
    (hseen : c'.eventsSeen = c.eventsSeen)
    (hcurrent : ∀ p, c'.pipeline = some p → c.pipeline = some p ∧ c'.config = c.config ∧
      c'.recorder = c.recorder) :
    c'.Behind captures := by
  refine ⟨hallocator ▸ hc.taken, hc.numbers, hseen ▸ hc.eventsSeen, hc.startable, fun p hp => ?_⟩
  obtain ⟨hpipeline, hconfig, hrecorder⟩ := hcurrent p hp
  rw [hconfig, hallocator, hrecorder]
  exact hc.current p hpipeline

theorem Quiet.andThen (hquiet : Quiet c h) {next : EngineController → Handled}
    (hnext : Quiet c (next c)) :
    Quiet c (h.andThen next) := by
  obtain ⟨rfl, hsent⟩ := hquiet
  unfold Handled.andThen
  split
  · exact ⟨rfl, hsent⟩
  · exact ⟨hnext.1, by simp [hsent, hnext.2]⟩

theorem Advances.andThen (hadvances : Advances c captures h) {next : EngineController → Handled}
    (hnext : ∀ c later, c.Behind later → Advances c later (next c)) :
    Advances c captures (h.andThen next) := by
  unfold Handled.andThen
  split
  · exact hadvances
  · obtain ⟨later, hcontinued, hlater, hlog⟩ := hadvances
    obtain ⟨last, hmore, hlast, hrest⟩ := hnext _ _ hlater
    refine ⟨last, hcontinued.trans hmore, hlast, ?_⟩
    rw [hrest, hlog, eventsOf_append, List.append_assoc]

theorem Advances.catching (hadvances : Advances c captures h)
    {handler : StdException → EngineController → Handled}
    (hhandler : ∀ ex c, Quiet c (handler ex c)) : Advances c captures (h.catching handler) := by
  unfold Handled.catching
  split
  · exact hadvances
  · obtain ⟨later, hcontinued, hlater, hlog⟩ := hadvances
    rename_i ex _
    obtain ⟨hsame, hnone⟩ := hhandler ex h.controller
    refine ⟨later, ?_, ?_, by rw [hlog, eventsOf_append, hnone, List.append_nil]⟩
    · simp only [hsame]
      exact hcontinued
    · simp only [hsame]
      exact hlater

/-! ### Events of a session -/

variable {labels : List (EngineAction × Handled)}

end EngineController

open EngineController

namespace Capture

end Capture

/-! ### The life of an engine -/

namespace EngineController

variable {lib : JsonLibrary} {c c' : EngineController} {labels : List (EngineAction × Handled)}

end EngineController

end PacketProbe
