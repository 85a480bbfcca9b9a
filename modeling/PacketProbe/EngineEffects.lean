import PacketProbe.EngineController
import PacketProbe.PipelineRuns

/-!
# What a command does to the engine

Each handler either replies, with the change of state its reply announces, or it throws
and leaves everything but counters and contents as it was. One lemma says so for each
handler, and one for the dispatcher.
-/

namespace PacketProbe

namespace EngineController

/-- The representation invariant. -/
structure Representation (c : EngineController) : Prop where
  capturing : c.capturing = true ↔
    c.session.isSome = true ∧ c.pipeline.isSome = true ∧ c.recorder.isSome = true
  idle : c.capturing = false → c.session = none ∧ c.pipeline = none ∧ c.recorder = none
  configured : c.capturing = true → c.hasConfig = true
  config : c.hasConfig = true → CaptureConfig c.config

/-- The pipeline accepts every event, since its decoder could be built. -/
def PipelineReady (c : EngineController) : Prop :=
  ∀ p, c.pipeline = some p → ∃ d₀, p.Ready d₀

/-- What the handlers rely on besides: the pipeline never throws, and the configuration
can be reported. -/
structure WellFormed (c : EngineController) : Prop extends c.Representation where
  ready : c.PipelineReady
  reportable : (engineConfigToJson c.config).validText = true

/-- Two states that differ in counters and contents only. -/
structure SameShape (c c' : EngineController) : Prop where
  capturing : c'.capturing = c.capturing
  hasConfig : c'.hasConfig = c.hasConfig
  config : c'.config = c.config
  session : c'.session = c.session
  pipeline : c'.pipeline.isSome = c.pipeline.isSome
  recorder : c'.recorder.isSome = c.recorder.isSome
  ready : c.PipelineReady → c'.PipelineReady

variable {lib : JsonLibrary} {env : Environment} {c c' c'' : EngineController}
  {client : IpcClientId} {id command : ByteString} {msg : Json}

theorem SameShape.refl (c : EngineController) : SameShape c c :=
  ⟨rfl, rfl, rfl, rfl, rfl, rfl, fun h => h⟩

theorem SameShape.trans (h : SameShape c c') (h' : SameShape c' c'') : SameShape c c'' :=
  ⟨h'.capturing.trans h.capturing, h'.hasConfig.trans h.hasConfig, h'.config.trans h.config,
    h'.session.trans h.session, h'.pipeline.trans h.pipeline, h'.recorder.trans h.recorder,
    fun hready => h'.ready (h.ready hready)⟩

theorem SameShape.wellFormed (h : SameShape c c') (hc : c.WellFormed) : c'.WellFormed := by
  refine ⟨⟨?_, ?_, ?_, ?_⟩, h.ready hc.ready, ?_⟩
  · rw [h.capturing, h.session, h.pipeline, h.recorder]
    exact hc.capturing
  · intro hidle
    obtain ⟨hs, hp, hr⟩ := hc.idle (h.capturing ▸ hidle)
    have hpipeline := h.pipeline
    have hrecorder := h.recorder
    rw [hp] at hpipeline
    rw [hr] at hrecorder
    exact ⟨h.session.trans hs, by simpa using hpipeline, by simpa using hrecorder⟩
  · rw [h.capturing, h.hasConfig]
    exact hc.configured
  · rw [h.hasConfig, h.config]
    exact hc.config
  · rw [h.config]
    exact hc.reportable

/-! ### Events -/

def broadcasts (events : List PacketEvent) : List Sent := events.map .broadcast

/-- An outcome that only counts, records and broadcasts events. -/
structure OnlyEvents (c : EngineController) (h : Handled) : Prop where
  shape : SameShape c h.controller
  sent : ∃ events, h.sent = broadcasts events

theorem onEvent_onlyEvents (c : EngineController) (event : PacketEvent) :
    OnlyEvents c (onEvent event c) := by
  unfold onEvent
  split
  · exact ⟨.refl c, [], rfl⟩
  · rename_i p hp
    refine ⟨⟨rfl, rfl, rfl, rfl, by simp [hp], by simp, fun hready q hq => ?_⟩, _, rfl⟩
    obtain ⟨d₀, hd⟩ := hready p hp
    cases hq
    exact ⟨d₀, (EventPipeline.consume_ready hd _ _).1⟩

theorem onEvent_thrown (hc : c.PipelineReady) (event : PacketEvent) :
    (onEvent event c).thrown = none := by
  unfold onEvent
  split
  · rfl
  · obtain ⟨d₀, hd⟩ := hc _ ‹_›
    exact (EventPipeline.consume_ready hd _ _).2.1

theorem onEvents_spec (hc : c.PipelineReady) (events : List PacketEvent) :
    OnlyEvents c (onEvents events c) ∧ (onEvents events c).thrown = none := by
  induction events generalizing c with
  | nil => exact ⟨⟨.refl c, [], rfl⟩, rfl⟩
  | cons event events ih =>
    have hthrown := onEvent_thrown hc event
    obtain ⟨hshape, sent, hsent⟩ := onEvent_onlyEvents c event
    obtain ⟨⟨hshape', sent', hsent'⟩, hthrown'⟩ := ih (hshape.ready hc)
    simp only [onEvents, Handled.andThen, hthrown]
    exact ⟨⟨hshape.trans hshape', sent ++ sent', by simp [hsent, hsent', broadcasts]⟩, hthrown'⟩

/-! ### Messages -/

/-- A result message with this id and outcome. -/
structure IsResult (id : ByteString) (ok : Bool) (message : Json) : Prop where
  type : message.find (ascii "type") = some (.string (ascii "result"))
  id : message.find (ascii "id") = some (.string id)
  ok : message.find (ascii "ok") = some (.boolean ok)

theorem isResult_cons (id : ByteString) (ok : Bool) (members : List (ByteString × Json)) :
    IsResult id ok (.object ([(ascii "type", .string (ascii "result")), (ascii "id", .string id),
      (ascii "ok", .boolean ok)] ++ members)) :=
  ⟨rfl, rfl, rfl⟩

theorem resultMessage_validText (hid : Utf8.Valid id) {ok : Bool} {error : ByteString} :
    (resultMessage id ok error).validText = true ↔ ok = true ∨ Utf8.Valid error := by
  have hkeys : Utf8.Valid (ascii "type") ∧ Utf8.Valid (ascii "result") ∧ Utf8.Valid (ascii "id") ∧
      Utf8.Valid (ascii "ok") ∧ Utf8.Valid (ascii "error") := by decide
  cases ok with
  | true => simp [resultMessage, Json.validText, Json.validMembers, hkeys, hid]
  | false =>
    by_cases herror : error = []
    · simp [resultMessage, Json.validText, Json.validMembers, herror, hkeys, hid]
    · simp [resultMessage, Json.validText, Json.validMembers, herror, hkeys, hid]

theorem replyResult_eq (hid : Utf8.Valid id) {ok : Bool} {error : ByteString}
    (herror : ok = true ∨ Utf8.Valid error) :
    replyResult lib client id ok error c =
      ⟨c, [.toClient client (resultMessage id ok error)], none⟩ := by
  have hvalid := (resultMessage_validText hid).2 herror
  simp only [replyResult, sendToClient, JsonLibrary.dump, hvalid, if_true]

theorem replyResult_of_invalid (lib : JsonLibrary) (c : EngineController) (client : IpcClientId)
    (hid : Utf8.Valid id) {error : ByteString}
    (herror : ¬ Utf8.Valid error) : ∃ what, Utf8.Valid what ∧
    replyResult lib client id false error c = ⟨c, [], some ⟨.jsonTypeError, what⟩⟩ := by
  have hvalid : (resultMessage id false error).validText = false := by
    rw [Bool.eq_false_iff]
    intro h
    rcases (resultMessage_validText hid).1 h with hok | hok
    · cases hok
    · exact herror hok
  refine ⟨_, lib.dumpFailure_valid (resultMessage id false error), ?_⟩
  simp [replyResult, sendToClient, JsonLibrary.dump, hvalid]

theorem stateMembers_valid (h : (engineConfigToJson c.config).validText = true) :
    Json.validMembers c.stateMembers = true := by
  have hkeys : Utf8.Valid (ascii "engine_state") ∧ Utf8.Valid (ascii "config") ∧
      Utf8.Valid (ascii "counters") ∧ Utf8.Valid (ascii "events_seen") := by decide
  have hstate : Utf8.Valid c.engineState := by
    unfold engineState
    split <;> decide
  cases hc : c.hasConfig <;>
    simp [stateMembers, Json.validMembers, Json.validText, hkeys, hstate, hc, h]

theorem broadcastStatusLocked_eq (h : (engineConfigToJson c.config).validText = true) :
    broadcastStatusLocked lib c = ⟨c, [.broadcastRaw c.statusMessage], none⟩ := by
  have hkeys : Utf8.Valid (ascii "type") ∧ Utf8.Valid (ascii "status") := by decide
  have hmembers := stateMembers_valid h
  have hvalid : c.statusMessage.validText = true := by
    simp [statusMessage, Json.validText, Json.validMembers, hkeys, hmembers]
  simp only [broadcastStatusLocked, JsonLibrary.dump, hvalid, if_true]

/-- The reply to a command that changed the state, and the announcement behind it. -/
def announcement (client : IpcClientId) (id : ByteString) (c : EngineController) : List Sent :=
  [.toClient client (resultMessage id true []), .broadcastRaw c.statusMessage]

theorem announce_eq (hid : Utf8.Valid id) (h : (engineConfigToJson c.config).validText = true) :
    (replyResult lib client id true [] c).andThen (broadcastStatusLocked lib) =
      ⟨c, announcement client id c, none⟩ := by
  rw [replyResult_eq hid (.inl rfl)]
  simp only [Handled.andThen, broadcastStatusLocked_eq h]
  rfl

theorem andThen_announce {h : Handled} (hthrown : h.thrown = none)
    (next : EngineController → EngineController) (hid : Utf8.Valid id)
    (hreport : (engineConfigToJson (next h.controller).config).validText = true) :
    (h.andThen fun c => (replyResult lib client id true [] (next c)).andThen
        (broadcastStatusLocked lib)) =
      ⟨next h.controller, h.sent ++ announcement client id (next h.controller), none⟩ := by
  rw [Handled.andThen, hthrown]
  simp only
  rw [announce_eq hid hreport]

/-! ### What each handler does -/

/-- The commands whose success is announced to all clients. -/
def stateCommands : List ByteString :=
  [ascii "configure", ascii "start_capture", ascii "stop_capture"]

/-- The object a `configure` command carries. -/
def configOf (msg : Json) : Option Json := (msg.find (ascii "config")).filter Json.isObject

/-- The payload a `send` command carries. -/
def payloadOf (msg : Json) : Option Bytes :=
  match msg.find (ascii "payload_hex") with
  | some (.string hex) => (parseHexPayload hex).toOption
  | _ => none

/-- The state a capture starts in: `c` with its session, pipeline and recorder. -/
structure Started (c : EngineController) (session : CaptureSession) (c' : EngineController) :
    Prop where
  hasConfig : c'.hasConfig = c.hasConfig
  config : c'.config = c.config
  session : c'.session = some session
  pipeline : c'.pipeline.isSome = true
  recorder : c'.recorder.isSome = true
  ready : c'.PipelineReady

/-- The state a stopped capture leaves: idle, with the configuration it had. -/
structure Stopped (c c' : EngineController) : Prop where
  capturing : c'.capturing = false
  hasConfig : c'.hasConfig = c.hasConfig
  config : c'.config = c.config
  session : c'.session = none
  pipeline : c'.pipeline = none
  recorder : c'.recorder = none

/-- A handler that replies: it answers and changes nothing, or it changes the state and
announces it. -/
inductive Replied (lib : JsonLibrary) (c : EngineController) (client : IpcClientId)
    (id command : ByteString) (msg : Json) : Handled → Prop
  | answered {c' : EngineController} (events : List PacketEvent) (message : Json) (ok : Bool)
      (hshape : SameShape c c') (hresult : IsResult id ok message)
      (hcommand : ok = true → command ∉ stateCommands) :
      Replied lib c client id command msg ⟨c', broadcasts events ++ [.toClient client message],
        none⟩
  | configured (config : Json) (options : CliOptions) (hcommand : command = ascii "configure")
      (hidle : c.capturing = false) (hconfig : configOf msg = some config)
      (hread : engineConfigFromJson lib config = .ok options)
      (hvalid : validateOptions options = .ok ()) :
      Replied lib c client id command msg
        ⟨{ c with config := options, hasConfig := true },
          announcement client id { c with config := options, hasConfig := true }, none⟩
  | started {c' : EngineController} (events : List PacketEvent) (session : CaptureSession)
      (hcommand : command = ascii "start_capture") (hidle : c.capturing = false)
      (hconfig : c.hasConfig = true) (hsession : captureSession c.config = .ok session)
      (hstarted : Started c session c') (hcapturing : c'.capturing = true) :
      Replied lib c client id command msg ⟨c', broadcasts events ++ announcement client id c', none⟩
  | stopped {c' : EngineController} (events : List PacketEvent)
      (hcommand : command = ascii "stop_capture") (hcapturing : c.capturing = true)
      (hstopped : Stopped c c') :
      Replied lib c client id command msg ⟨c', broadcasts events ++ announcement client id c', none⟩

/-- A handler that throws before it replies, and changes nothing. -/
def Escapes (c : EngineController) (ex : StdException) (h : Handled) : Prop :=
  ∃ c' events, SameShape c c' ∧ h = ⟨c', broadcasts events, some ex⟩

/-- A handler lets the exception escape that was raised in it; if none was, it replies or
lets one of its own escape, whose text is UTF-8. -/
def Effect (lib : JsonLibrary) (c : EngineController) (client : IpcClientId)
    (id command : ByteString) (msg : Json) (raised : Option StdException) (h : Handled) : Prop :=
  match raised with
  | some ex => Escapes c ex h
  | none => Replied lib c client id command msg h ∨ ∃ ex, Utf8.Valid ex.what ∧ Escapes c ex h

/-- An error reply behind some events, whether or not its text can be dumped. -/
theorem effect_replyResult (hid : Utf8.Valid id) (hshape : SameShape c c')
    (events : List PacketEvent) (error : ByteString) :
    Effect lib c client id command msg none
      ⟨(replyResult lib client id false error c').controller,
        broadcasts events ++ (replyResult lib client id false error c').sent,
        (replyResult lib client id false error c').thrown⟩ := by
  by_cases herror : Utf8.Valid error
  · rw [replyResult_eq hid (.inr herror)]
    exact .inl (.answered events _ false hshape (isResult_cons _ _ _) (by simp))
  · obtain ⟨what, hwhat, heq⟩ := replyResult_of_invalid lib c' client hid herror
    rw [heq]
    exact .inr ⟨⟨.jsonTypeError, what⟩, hwhat, c', events, hshape, by simp⟩

theorem effect_refuse (hid : Utf8.Valid id) (error : ByteString) :
    Effect lib c client id command msg none (replyResult lib client id false error c) :=
  effect_replyResult hid (.refl c) [] error

/-- What `configure` may throw: the exceptions of reading and of validating. -/
def raisedByConfigure (lib : JsonLibrary) (c : EngineController) (msg : Json) :
    Option StdException :=
  if c.capturing then none
  else
    match configOf msg with
    | none => none
    | some config =>
      match engineConfigFromJson lib config with
      | .error ex => some ex
      | .ok options =>
        match validateOptions options with
        | .error ex => some ex
        | .ok () => none

theorem validText_of_configOf (hmsg : msg.validText = true) {config : Json}
    (h : configOf msg = some config) : config.validText = true :=
  Json.validText_of_find hmsg (Option.filter_eq_some_iff.1 h).1

theorem handleConfigure_effect (hid : Utf8.Valid id) (hmsg : msg.validText = true) :
    Effect lib c client id (ascii "configure") msg (raisedByConfigure lib c msg)
      (handleConfigure lib client id msg c) := by
  unfold handleConfigure raisedByConfigure
  by_cases hcap : c.capturing = true
  · rw [if_pos hcap, if_pos hcap]
    exact effect_refuse hid _
  · rw [if_neg hcap, if_neg hcap, ← configOf]
    cases hconfig : configOf msg with
    | none => exact effect_refuse hid _
    | some config =>
      simp only
      cases hread : engineConfigFromJson lib config with
      | error ex => exact ⟨c, [], .refl c, rfl⟩
      | ok options =>
        simp only
        cases hvalid : validateOptions options with
        | error ex => exact ⟨c, [], .refl c, rfl⟩
        | ok =>
          have hreport := engineConfigFromJson_validText (validText_of_configOf hmsg hconfig) hread
          simp only
          rw [announce_eq hid hreport]
          exact .inl (.configured config options rfl (by simpa using hcap) hconfig hread hvalid)

/-- The pipeline that a start has just built is ready. -/
theorem pipelineReady_fresh {config : DecoderConfig} {d₀ : FrameDecoder}
    (hdecoder : createFrameDecoder config = .ok d₀)
    (recorder : JsonlRecorder) (c : EngineController) :
    PipelineReady
      { c with recorder := some recorder, pipeline := some (EventPipeline.fresh config) } := by
  intro p hp
  cases hp
  exact ⟨d₀, EventPipeline.ready_fresh hdecoder⟩

theorem startSessionLocked_spec (env : Environment) (hc : c.WellFormed)
    (hidle : c.capturing = false) :
    (∃ events, (startSessionLocked env c).sent = broadcasts events) ∧
      (∀ ex, (startSessionLocked env c).thrown = some ex →
        SameShape c (startSessionLocked env c).controller.resetSession) ∧
      ((startSessionLocked env c).thrown = none →
        ∃ session, captureSession c.config = .ok session ∧
          Started c session (startSessionLocked env c).controller) := by
  obtain ⟨hsession, hpipeline, hrecorder⟩ := hc.idle hidle
  -- Whatever was built before the exception is reset to what an idle engine holds.
  have hreset : ∀ c' : EngineController, c'.capturing = c.capturing → c'.hasConfig = c.hasConfig →
      c'.config = c.config → SameShape c c'.resetSession := by
    intro c' h₁ h₂ h₃
    exact ⟨h₁, h₂, h₃, by simp [resetSession, hsession], by simp [resetSession, hpipeline],
      by simp [resetSession, hrecorder], fun _ => by simp [resetSession, PipelineReady]⟩
  unfold startSessionLocked
  cases hrec : makeRecorder env c.config with
  | error ex => exact ⟨⟨[], rfl⟩, fun _ _ => hreset _ rfl rfl rfl, by simp⟩
  | ok recorder =>
    simp only
    cases hdecoder : createFrameDecoder c.config.decoderConfig with
    | error ex => exact ⟨⟨[], rfl⟩, fun _ _ => hreset _ rfl rfl rfl, by simp⟩
    | ok d₀ =>
      simp only
      cases hs : captureSession c.config with
      | error ex => exact ⟨⟨[], rfl⟩, fun _ _ => hreset _ rfl rfl rfl, by simp⟩
      | ok session =>
        simp only [startSession]
        cases hcheck : session.checkArguments with
        | error ex => exact ⟨⟨[], rfl⟩, fun _ _ => hreset _ rfl rfl rfl, by simp [Handled.andThen]⟩
        | ok =>
          -- The pipeline just built is ready, so that only the transport can throw.
          have hready := pipelineReady_fresh hdecoder recorder c
          obtain ⟨⟨hshape, events, hsent⟩, hthrown⟩ := onEvents_spec hready env.startEvents
          simp only [Handled.andThen, hthrown, List.append_nil]
          cases hstart : env.sessionStart with
          | some ex =>
            exact ⟨⟨events, hsent⟩,
              fun _ _ => hreset _ hshape.capturing hshape.hasConfig hshape.config, by simp⟩
          | none =>
            refine ⟨⟨events, by simp [hsent]⟩, by simp, fun _ => ⟨session, rfl, ?_⟩⟩
            exact ⟨hshape.hasConfig, hshape.config, rfl, hshape.pipeline, hshape.recorder,
              hshape.ready hready⟩

theorem handleStartCapture_effect (hc : c.WellFormed) (hid : Utf8.Valid id) :
    Effect lib c client id (ascii "start_capture") msg none
      (handleStartCapture lib env client id c) := by
  unfold handleStartCapture
  by_cases hcap : c.capturing = true
  · rw [if_pos hcap]
    exact effect_refuse hid _
  · rw [if_neg hcap]
    by_cases hconfig : c.hasConfig = false
    · rw [if_pos hconfig]
      exact effect_refuse hid _
    · rw [if_neg hconfig]
      have hidle : c.capturing = false := by simpa using hcap
      obtain ⟨⟨events, hsent⟩, hfailed, hstarted⟩ := startSessionLocked_spec env hc hidle
      simp only
      cases hthrown : (startSessionLocked env c).thrown with
      | some ex =>
        simp only [hsent]
        exact effect_replyResult hid (hfailed ex hthrown) events ex.what
      | none =>
        obtain ⟨session, hsession, hstart⟩ := hstarted hthrown
        have hreport : (engineConfigToJson (startSessionLocked env c).controller.config).validText
            = true := by
          rw [hstart.config]
          exact hc.reportable
        simp only
        rw [andThen_announce hthrown (fun c => { c with capturing := true }) hid hreport, hsent]
        exact .inl (.started events session rfl hidle (by simpa using hconfig) hsession
          ⟨hstart.hasConfig, hstart.config, hstart.session, hstart.pipeline, hstart.recorder,
            hstart.ready⟩ rfl)

theorem stopCaptureLocked_spec (env : Environment) (hc : c.WellFormed) (hcap : c.capturing = true) :
    (∀ ex, env.sessionStop = some ex → Escapes c ex (stopCaptureLocked env c)) ∧
      (env.sessionStop = none → ∃ c' events, Stopped c c' ∧
        stopCaptureLocked env c = ⟨c', broadcasts events, none⟩) := by
  obtain ⟨session, hsession⟩ := Option.isSome_iff_exists.1 (hc.capturing.1 hcap).1
  obtain ⟨⟨hshape, events, hsent⟩, hthrown⟩ := onEvents_spec hc.ready env.stopEvents
  simp only [stopCaptureLocked, hsession, Handled.andThen, hthrown, hsent, List.append_nil]
  refine ⟨fun ex hstop => ?_, fun hstop => ?_⟩
  · simp only [hstop]
    exact ⟨_, events, hshape, rfl⟩
  · simp only [hstop]
    refine ⟨_, events, ?_, rfl⟩
    exact ⟨rfl, hshape.hasConfig, hshape.config, rfl, rfl, rfl⟩

/-- A shutdown finds no capture, or its session throws, or it stops the capture. -/
theorem shutdown_cases (env : Environment) (hc : c.WellFormed) :
    (c.capturing = false ∧ shutdown env c = ⟨c, [], none⟩) ∨
      (∃ ex, Escapes c ex (shutdown env c)) ∨
      ∃ c' events, Stopped c c' ∧ shutdown env c = ⟨c', broadcasts events, none⟩ := by
  unfold shutdown
  by_cases hcap : c.capturing = true
  · rw [if_pos hcap]
    obtain ⟨hescapes, hstopped⟩ := stopCaptureLocked_spec env hc hcap
    cases hstop : env.sessionStop with
    | some ex => exact .inr (.inl ⟨ex, hescapes ex hstop⟩)
    | none => exact .inr (.inr (hstopped hstop))
  · rw [if_neg hcap]
    exact .inl ⟨Bool.eq_false_iff.2 hcap, rfl⟩

/-- What `stop_capture` may throw: what the session throws when it is stopped. -/
def raisedByStop (env : Environment) (c : EngineController) : Option StdException :=
  if c.capturing then env.sessionStop else none

theorem handleStopCapture_effect (hc : c.WellFormed) (hid : Utf8.Valid id) :
    Effect lib c client id (ascii "stop_capture") msg (raisedByStop env c)
      (handleStopCapture lib env client id c) := by
  unfold handleStopCapture raisedByStop
  by_cases hcap : c.capturing = true
  · have hnot : ¬ c.capturing = false := by simp [hcap]
    rw [if_neg hnot, if_pos hcap]
    obtain ⟨hescapes, hstopped⟩ := stopCaptureLocked_spec env hc hcap
    cases hstop : env.sessionStop with
    | some ex =>
      obtain ⟨c', events, hshape, heq⟩ := hescapes ex hstop
      rw [heq]
      exact ⟨c', events, hshape, rfl⟩
    | none =>
      obtain ⟨c', events, hidle, heq⟩ := hstopped hstop
      have hreport : (engineConfigToJson c'.config).validText = true := by
        rw [hidle.config]
        exact hc.reportable
      rw [heq, andThen_announce rfl (fun c => c) hid hreport]
      exact .inl (.stopped events rfl hcap hidle)
  · have hidle : c.capturing = false := by simpa using hcap
    rw [if_pos hidle, if_neg hcap]
    exact effect_refuse hid _

/-- A report goes out, unless it holds text that cannot be dumped. -/
theorem effect_sendToClient {message : Json} (hresult : IsResult id true message)
    (hcommand : command ∉ stateCommands) :
    Effect lib c client id command msg none (sendToClient lib client message c) := by
  unfold sendToClient JsonLibrary.dump
  by_cases hvalid : message.validText = true
  · rw [if_pos hvalid]
    exact .inl (.answered [] message true (.refl c) hresult fun _ => hcommand)
  · rw [if_neg hvalid]
    exact .inr ⟨⟨.jsonTypeError, lib.dumpFailure message⟩, lib.dumpFailure_valid message, c, [],
      .refl c, rfl⟩

theorem handleGetStatus_effect (hcommand : command ∉ stateCommands) :
    Effect lib c client id command msg none (handleGetStatus lib client id c) :=
  effect_sendToClient (isResult_cons _ _ _) hcommand

/-- What `list_serial_ports` may throw: an exception while a directory is read. -/
def raisedByList (env : Environment) : Option StdException :=
  match listSerialPorts env with
  | .error ex => some ex
  | .ok _ => none

theorem handleListSerialPorts_effect (hcommand : command ∉ stateCommands) :
    Effect lib c client id command msg (raisedByList env)
      (handleListSerialPorts lib env client id c) := by
  unfold handleListSerialPorts raisedByList
  cases listSerialPorts env with
  | error ex => exact ⟨c, [], .refl c, rfl⟩
  | ok ports => exact effect_sendToClient (isResult_cons _ _ _) hcommand

theorem sessionSend_spec (env : Environment) (hc : c.WellFormed) (payload : Bytes) :
    (∀ ex, env.sessionSend payload = .error ex → Escapes c ex (sessionSend env payload c).1) ∧
      (∀ sent, env.sessionSend payload = .ok sent → ∃ c' events, SameShape c c' ∧
        sessionSend env payload c = (⟨c', broadcasts events, none⟩, sent)) := by
  obtain ⟨⟨hshape, events, hsent⟩, hthrown⟩ := onEvents_spec hc.ready (env.sendEvents payload)
  refine ⟨fun ex hsend => ?_, fun sent hsend => ⟨_, events, hshape, ?_⟩⟩
  · simp only [sessionSend, hsend, Handled.andThen, hthrown, hsent, List.append_nil]
    exact ⟨_, events, hshape, rfl⟩
  · simp only [sessionSend, hsend, ← hsent, ← hthrown]

/-- What `send` may throw: what the session throws when it is given the payload. -/
def raisedBySend (env : Environment) (c : EngineController) (msg : Json) : Option StdException :=
  match c.capturing, c.session, payloadOf msg with
  | true, some session, some payload =>
    if session.supportsSend = false then none
    else
      match env.sessionSend payload with
      | .error ex => some ex
      | .ok _ => none
  | _, _, _ => none

theorem handleSend_effect (hc : c.WellFormed) (hid : Utf8.Valid id)
    (hcommand : command ∉ stateCommands) :
    Effect lib c client id command msg (raisedBySend env c msg)
      (handleSend lib env client id msg c) := by
  unfold handleSend raisedBySend
  cases hcap : c.capturing with
  | false => exact effect_refuse hid _
  | true =>
    cases hsession : c.session with
    | none => exact effect_refuse hid _
    | some session =>
      simp only
      by_cases hsupports : session.supportsSend = false
      · rw [if_pos hsupports]
        cases payloadOf msg with
        | none => exact effect_refuse hid _
        | some payload =>
          simp only [hsupports, if_true]
          exact effect_refuse hid _
      · rw [if_neg hsupports]
        unfold payloadOf
        rcases msg.find (ascii "payload_hex") with _ | value
        · exact effect_refuse hid _
        · cases value
          case string hex =>
            simp only
            cases parseHexPayload hex with
            | error ex => exact effect_refuse hid _
            | ok payload =>
              obtain ⟨hescapes, hreturns⟩ := sessionSend_spec env hc payload
              simp only [Except.toOption]
              rw [if_neg hsupports]
              cases hsend : env.sessionSend payload with
              | error ex =>
                obtain ⟨c', events, hshape, heq⟩ := hescapes ex hsend
                simp only [heq, Handled.andThen]
                exact ⟨c', events, hshape, rfl⟩
              | ok sent =>
                obtain ⟨c', events, hshape, heq⟩ := hreturns sent hsend
                simp only [heq, Handled.andThen]
                cases sent with
                | false => exact effect_replyResult hid hshape events _
                | true =>
                  rw [replyResult_eq hid (.inl rfl)]
                  exact .inl (.answered events _ true hshape (isResult_cons _ _ _) fun _ =>
                    hcommand)
          all_goals exact effect_refuse hid _

/-- What the parts a handler calls throw to the dispatcher. -/
def raisedBy (lib : JsonLibrary) (env : Environment) (c : EngineController) (command : ByteString)
    (msg : Json) : Option StdException :=
  if command = ascii "configure" then raisedByConfigure lib c msg
  else if command = ascii "stop_capture" then raisedByStop env c
  else if command = ascii "list_serial_ports" then raisedByList env
  else if command = ascii "send" then raisedBySend env c msg
  else none

theorem dispatch_effect (lib : JsonLibrary) (env : Environment) (client : IpcClientId)
    (command : ByteString) (hc : c.WellFormed) (hid : Utf8.Valid id) (hmsg : msg.validText = true) :
    Effect lib c client id command msg (raisedBy lib env c command msg)
      (dispatch lib env client command id msg c) := by
  unfold dispatch raisedBy
  by_cases hconfigure : command = ascii "configure"
  · rw [if_pos hconfigure, if_pos hconfigure, hconfigure]
    exact handleConfigure_effect hid hmsg
  rw [if_neg hconfigure, if_neg hconfigure]
  by_cases hstart : command = ascii "start_capture"
  · rw [if_pos hstart, hstart]
    exact handleStartCapture_effect hc hid
  rw [if_neg hstart]
  by_cases hstop : command = ascii "stop_capture"
  · rw [if_pos hstop, if_pos hstop, hstop]
    exact handleStopCapture_effect hc hid
  rw [if_neg hstop, if_neg hstop]
  have hcommand : command ∉ stateCommands := by simp [stateCommands, hconfigure, hstart, hstop]
  by_cases hstatus : command = ascii "get_status"
  · rw [if_pos hstatus, hstatus]
    exact handleGetStatus_effect (by decide)
  rw [if_neg hstatus]
  by_cases hlist : command = ascii "list_serial_ports"
  · rw [if_pos hlist, if_pos hlist]
    exact handleListSerialPorts_effect hcommand
  rw [if_neg hlist, if_neg hlist]
  by_cases hsend : command = ascii "send"
  · rw [if_pos hsend, if_pos hsend]
    exact handleSend_effect hc hid hcommand
  · rw [if_neg hsend, if_neg hsend]
    exact effect_refuse hid _

end EngineController

end PacketProbe
