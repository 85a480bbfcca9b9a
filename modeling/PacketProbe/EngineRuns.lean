import PacketProbe.EngineEffects
import PacketProbe.TransitionRuns

/-!
# Runs of the engine

The invariant that every run of commands, session events and shutdowns keeps: the
session, the pipeline and the recorder exist together, exactly while the engine
captures, and the configuration it holds is one it can start.
-/

namespace PacketProbe
open TransitionRuns

/-- What can happen to the engine between commands. An event is one step, from its number to
its broadcast. -/
inductive EngineAction where
  | command (client : IpcClientId) (line : ByteString) (env : Environment)
  | event (event : PacketEvent)
  | shutdown (env : Environment)

namespace EngineController

def perform (lib : JsonLibrary) (c : EngineController) : EngineAction → Handled
  | .command client line env => handleCommand lib env client line c
  | .event event => onEvent event c
  | .shutdown env => shutdown env c

/-- One step of the engine, labelled with what was done and what came of it. -/
def Step (lib : JsonLibrary) (c : EngineController) (label : EngineAction × Handled)
    (c' : EngineController) : Prop :=
  label.2 = c.perform lib label.1 ∧ c' = label.2.controller

/-- The states an engine can be in between commands. -/
def Reached (lib : JsonLibrary) (c : EngineController) : Prop := Reachable (Step lib) {} c

variable {lib : JsonLibrary} {env : Environment} {c c' : EngineController}
  {client : IpcClientId} {id command : ByteString} {msg : Json} {h : Handled}

theorem wellFormed_initial : ({} : EngineController).WellFormed := by
  have hreport : (engineConfigToJson {}).validText = true :=
    engineConfigToJson_validText.2 (by decide)
  refine ⟨⟨by simp, by simp, by simp, by simp⟩, fun p hp => ?_, hreport⟩
  cases hp

theorem wellFormed_configured {config : Json} {options : CliOptions} (hc : c.WellFormed)
    (hconfig : config.validText = true) (hread : engineConfigFromJson lib config = .ok options)
    (hvalid : validateOptions options = .ok ()) :
    ({ c with config := options, hasConfig := true } : EngineController).WellFormed := by
  refine ⟨⟨hc.capturing, hc.idle, fun _ => rfl, fun _ => ?_⟩, hc.ready,
    engineConfigFromJson_validText hconfig hread⟩
  exact captureConfig_of_validateOptions (ipcPath_of_engineConfigFromJson hread) hvalid

theorem Started.wellFormed {session : CaptureSession} (hstarted : Started c session c')
    (hc : c.WellFormed) (hconfig : c.hasConfig = true) (hcapturing : c'.capturing = true) :
    c'.WellFormed := by
  refine ⟨⟨?_, ?_, ?_, ?_⟩, hstarted.ready, ?_⟩
  · simp [hcapturing, hstarted.session, hstarted.pipeline, hstarted.recorder]
  · simp [hcapturing]
  · intro _
    exact hstarted.hasConfig.trans hconfig
  · rw [hstarted.hasConfig, hstarted.config]
    exact hc.config
  · rw [hstarted.config]
    exact hc.reportable

theorem Stopped.wellFormed (hstopped : Stopped c c') (hc : c.WellFormed) : c'.WellFormed := by
  refine ⟨⟨?_, ?_, ?_, ?_⟩, ?_, ?_⟩
  · simp [hstopped.capturing, hstopped.session]
  · intro _
    exact ⟨hstopped.session, hstopped.pipeline, hstopped.recorder⟩
  · simp [hstopped.capturing]
  · rw [hstopped.hasConfig, hstopped.config]
    exact hc.config
  · simp [PipelineReady, hstopped.pipeline]
  · rw [hstopped.config]
    exact hc.reportable

theorem Replied.wellFormed (hreplied : Replied lib c client id command msg h) (hc : c.WellFormed)
    (hmsg : msg.validText = true) : h.controller.WellFormed := by
  cases hreplied with
  | answered _ _ _ hshape _ _ => exact hshape.wellFormed hc
  | configured config options _ _ hconfig hread hvalid =>
    exact wellFormed_configured hc (validText_of_configOf hmsg hconfig) hread hvalid
  | started _ _ _ _ hconfig _ hstarted hcapturing => exact hstarted.wellFormed hc hconfig hcapturing
  | stopped _ _ _ hstopped => exact hstopped.wellFormed hc

theorem Effect.wellFormed {raised : Option StdException}
    (heffect : Effect lib c client id command msg raised h) (hc : c.WellFormed)
    (hmsg : msg.validText = true) : h.controller.WellFormed := by
  have hescapes : ∀ ex, Escapes c ex h → h.controller.WellFormed := by
    rintro ex ⟨c', events, hshape, rfl⟩
    exact hshape.wellFormed hc
  cases raised with
  | some ex => exact hescapes ex heffect
  | none =>
    rcases heffect with hreplied | ⟨ex, -, hex⟩
    · exact hreplied.wellFormed hc hmsg
    · exact hescapes ex hex

theorem valid_commandId (hmsg : msg.validText = true) : Utf8.Valid (commandId msg) := by
  unfold commandId
  split
  · exact Json.validText_string.1 (Json.validText_of_find hmsg ‹_›)
  · rfl

theorem replyResult_controller (lib : JsonLibrary) (client : IpcClientId) (id : ByteString)
    (ok : Bool) (error : ByteString) (c : EngineController) :
    (replyResult lib client id ok error c).controller = c := by
  unfold replyResult sendToClient
  split <;> rfl

theorem handleCommand_wellFormed (hc : c.WellFormed) (client : IpcClientId) (line : ByteString) :
    (handleCommand lib env client line c).controller.WellFormed := by
  unfold handleCommand
  split
  · exact hc
  · exact hc
  · rename_i msg hparse
    split
    · exact hc
    · rename_i command _
      have hmsg := lib.parse_validText hparse
      have hwell :=
        (dispatch_effect lib env client command hc (valid_commandId hmsg) hmsg).wellFormed
        hc hmsg
      unfold Handled.catching
      split
      · exact hwell
      · rw [replyResult_controller]
        exact hwell

theorem shutdown_wellFormed (hc : c.WellFormed) : (shutdown env c).controller.WellFormed := by
  rcases shutdown_cases env hc with
    ⟨-, heq⟩ | ⟨ex, c', events, hshape, heq⟩ | ⟨c', events, hidle, heq⟩
  · rw [heq]
    exact hc
  · rw [heq]
    exact hshape.wellFormed hc
  · rw [heq]
    exact hidle.wellFormed hc

theorem perform_wellFormed (hc : c.WellFormed) (action : EngineAction) :
    (c.perform lib action).controller.WellFormed := by
  cases action with
  | command client line env => exact handleCommand_wellFormed hc client line
  | event event => exact (onEvent_onlyEvents c event).shape.wellFormed hc
  | shutdown env => exact shutdown_wellFormed hc

theorem Reached.wellFormed (h : Reached lib c) : c.WellFormed := by
  refine h.invariant wellFormed_initial fun c label c' hc hstep => ?_
  obtain ⟨hlabel, rfl⟩ := hstep
  rw [hlabel]
  exact perform_wellFormed hc label.1

theorem reached_initial : Reached lib {} := ⟨[], .nil _⟩

theorem Reached.perform (h : Reached lib c) (action : EngineAction) :
    Reached lib (c.perform lib action).controller := by
  obtain ⟨labels, hrun⟩ := h
  exact ⟨labels ++ [(action, c.perform lib action)], hrun.snoc ⟨rfl, rfl⟩⟩

/-- Where a start can fail in a configuration that selects a session whose argument
checks pass: when the log is opened, at the decoder, or in the transport. -/
theorem startSessionLocked_thrown (hc : c.WellFormed) (hconfig : c.hasConfig = true)
    {ex : StdException} (h : (startSessionLocked env c).thrown = some ex) :
    makeRecorder env c.config = .error ex ∨
      createFrameDecoder c.config.decoderConfig = .error ex ∨ env.sessionStart = some ex := by
  obtain ⟨session, hsession, hcheck⟩ := (hc.config hconfig).checkArguments
  unfold startSessionLocked at h
  cases hrec : makeRecorder env c.config with
  | error ex' =>
    rw [hrec] at h
    exact .inl (by simpa using h)
  | ok recorder =>
    simp only [hrec] at h
    cases hdecoder : createFrameDecoder c.config.decoderConfig with
    | error ex' =>
      rw [hdecoder] at h
      exact .inr (.inl (by simpa using h))
    | ok d₀ =>
      have hready := pipelineReady_fresh hdecoder recorder c
      have hthrown := (onEvents_spec hready env.startEvents).2
      simp only [hdecoder, hsession, startSession, hcheck, Handled.andThen, hthrown] at h
      cases hstart : env.sessionStart with
      | none => simp [hstart] at h
      | some ex' =>
        simp only [hstart] at h
        exact .inr (.inr h)

end EngineController

open EngineController

/-- The representation invariant holds in every reached state, and a start never gets to
the branch for an unknown mode or fails in the session's argument checks. -/
theorem engine_representation (lib : JsonLibrary) (c : EngineController) (h : Reached lib c) :
    c.Representation ∧
      (c.hasConfig = true →
        ∃ session, captureSession c.config = .ok session ∧ session.checkArguments = .ok ()) ∧
      (c.hasConfig = true → ∀ env ex, (startSessionLocked env c).thrown = some ex →
        makeRecorder env c.config = .error ex ∨
          createFrameDecoder c.config.decoderConfig = .error ex ∨ env.sessionStart = some ex) := by
  have hc := h.wellFormed
  refine ⟨hc.toRepresentation, fun hconfig => (hc.config hconfig).checkArguments, ?_⟩
  intro hconfig env ex hthrown
  exact startSessionLocked_thrown hc hconfig hthrown

/-- A `configure` command for a UDP capture. -/
def udpConfigure (port : UInt64) : Json :=
  .object [(ascii "command", .string (ascii "configure")),
    (ascii "config", .object [(ascii "bind_port", .numberUnsigned port),
      (ascii "mode", .string (ascii "udp"))])]

def startCapture : Json := .object [(ascii "command", .string (ascii "start_capture"))]

def configureLine : ByteString :=
  ascii "\x7b\"command\":\"configure\",\"config\":\x7b\"bind_port\":9000,\"mode\":\"udp\"\x7d\x7d"

def startLine : ByteString := ascii "\x7b\"command\":\"start_capture\"\x7d"

/-- The library on these two lines. -/
def captureLibrary : JsonLibrary :=
  .ofTable [(configureLine, .ok (udpConfigure 9000)), (startLine, .ok startCapture)] (by decide)

/-- A capture that starts after a first attempt failed in the transport. -/
def capturingEngine : EngineController :=
  let actions : List EngineAction := [.command 1 configureLine {},
    .command 1 startLine
      { sessionStart := some (runtimeError (ascii "failed to start UDP capture")) },
    .command 1 startLine {}]
  actions.foldl (fun c action => (c.perform captureLibrary action).controller) {}

theorem engine_representation_capturing :
    capturingEngine.capturing = true ∧ capturingEngine.Representation :=
  ⟨by decide +kernel, (engine_representation captureLibrary capturingEngine
    (((reached_initial.perform _).perform _).perform _)).1⟩

end PacketProbe
