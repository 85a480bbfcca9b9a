import PacketProbe.CommandProtocol

/-!
# Which configuration a start runs

A start builds its session from the engine's configuration, and that is the one of the
last `configure` any client succeeded with. Along a run this configuration is found in
the trace of commands and replies.
-/

namespace PacketProbe
open TransitionRuns EngineController

/-- A result for the client with `ok` true. -/
def isOkFor (client : IpcClientId) : Sent → Bool
  | .toClient receiver message =>
    match message.find (ascii "ok") with
    | some (.boolean ok) => receiver == client && ok
    | _ => false
  | _ => false

/-- Whether the client was sent a result with `ok` true. -/
def answeredOk (client : IpcClientId) (h : Handled) : Bool := h.sent.any (isOkFor client)

/-- The client that configured the engine in a step, and the `config` it sent. -/
def configuredBy (lib : JsonLibrary) (label : EngineAction × Handled) :
    Option (IpcClientId × Json) :=
  match label.1 with
  | .command client line _ =>
    match lib.parse line with
    | .ok msg =>
      if acceptedCommand msg = some (ascii "configure") ∧ answeredOk client label.2 = true then
        (configOf msg).map fun config => (client, config)
      else none
    | .error _ => none
  | _ => none

/-- The last successful `configure` of a run. -/
def lastConfigured (lib : JsonLibrary) (labels : List (EngineAction × Handled)) :
    Option (IpcClientId × Json) :=
  labels.foldl (fun last label => (configuredBy lib label).or last) none

section

variable {lib : JsonLibrary} {env : Environment} {c c' : EngineController}
  {client : IpcClientId} {id command : ByteString} {msg : Json} {h : Handled}

theorem lastConfigured_snoc (labels : List (EngineAction × Handled))
    (label : EngineAction × Handled) :
    lastConfigured lib (labels ++ [label]) =
      (configuredBy lib label).or (lastConfigured lib labels) := by
  simp [lastConfigured]

theorem configuredBy_of_configured {line : ByteString} {config : Json}
    (hparse : lib.parse line = .ok msg) (haccepted : acceptedCommand msg = some (ascii "configure"))
    (hok : answeredOk client h = true) (hconfig : configOf msg = some config) :
    configuredBy lib (.command client line env, h) = some (client, config) := by
  simp [configuredBy, hparse, haccepted, hok, hconfig]

theorem configuredBy_of_no_command {line : ByteString}
    (hnone : ∀ msg, lib.parse line = .ok msg → acceptedCommand msg = none) :
    configuredBy lib (.command client line env, h) = none := by
  cases hparse : lib.parse line with
  | error failure => simp only [configuredBy, hparse]
  | ok msg => simp [configuredBy, hparse, hnone msg hparse]

theorem configuredBy_of_not_configured {line : ByteString} (hparse : lib.parse line = .ok msg)
    (hnot : ¬ (acceptedCommand msg = some (ascii "configure") ∧ answeredOk client h = true)) :
    configuredBy lib (.command client line env, h) = none := by
  simp only [configuredBy, hparse, if_neg hnot]

/-- Steps in which nobody configures the engine keep the last configuration. -/
theorem lastConfigured_of_own {before after : List (EngineAction × Handled)}
    {own : EngineAction × Handled} {configured : IpcClientId × Json}
    (hown : configuredBy lib own = some configured)
    (hafter : ∀ label ∈ after, configuredBy lib label = none) :
    lastConfigured lib (before ++ own :: after) = some configured := by
  induction after using List.reverseRecOn with
  | nil => rw [lastConfigured_snoc, hown, Option.some_or]
  | append_singleton after label ih =>
    rw [← List.cons_append, ← List.append_assoc, lastConfigured_snoc,
      hafter label (by simp), Option.none_or]
    exact ih fun label hlabel => hafter label (by simp [hlabel])

theorem any_isOkFor_broadcasts (events : List PacketEvent) (client : IpcClientId) :
    (broadcasts events).any (isOkFor client) = false := by
  rw [broadcasts, List.any_map]
  exact List.any_eq_false.2 fun _ _ => by simp [isOkFor]

theorem answeredOk_answer {events : List PacketEvent} {message : Json} {ok : Bool}
    (hresult : IsResult id ok message) (ex : Option StdException) :
    answeredOk client ⟨c', broadcasts events ++ [.toClient client message], ex⟩ = ok := by
  simp [answeredOk, any_isOkFor_broadcasts, isOkFor, hresult.ok]

theorem answeredOk_announcement (client : IpcClientId) (id : ByteString) (c' : EngineController)
    (events : List PacketEvent) :
    answeredOk client ⟨c', broadcasts events ++ announcement client id c', none⟩ = true := by
  have hresult : IsResult id true (resultMessage id true []) := isResult_cons _ _ _
  simp [answeredOk, announcement, isOkFor, hresult.ok]

theorem answeredOk_escapes {ex : StdException} (hescapes : Escapes c ex h) :
    answeredOk client h = false := by
  obtain ⟨c', events, -, rfl⟩ := hescapes
  exact any_isOkFor_broadcasts events client

/-- A successful `configure` sets the configuration it carried. -/
theorem config_of_configured (hreplied : Replied lib c client id command msg h)
    (hcommand : command = ascii "configure") (hok : answeredOk client h = true) :
    ∃ config, configOf msg = some config ∧ h.controller.hasConfig = true ∧
      engineConfigFromJson lib config = .ok h.controller.config := by
  cases hreplied with
  | answered events message ok hshape hresult hnot =>
    rw [answeredOk_answer hresult] at hok
    exact absurd (by simp [stateCommands, hcommand]) (hnot hok)
  | configured config options _ _ hconfig hread _ => exact ⟨config, hconfig, rfl, hread⟩
  | started _ _ hstart => exact absurd (hcommand.symm.trans hstart) (by decide)
  | stopped _ hstop => exact absurd (hcommand.symm.trans hstop) (by decide)

/-- Any other command, and a `configure` that fails, keeps the configuration. -/
theorem config_of_not_configured (hreplied : Replied lib c client id command msg h)
    (hnot : ¬ (command = ascii "configure" ∧ answeredOk client h = true)) :
    h.controller.hasConfig = c.hasConfig ∧ h.controller.config = c.config := by
  cases hreplied with
  | answered _ _ _ hshape => exact ⟨hshape.hasConfig, hshape.config⟩
  | configured config options hcommand =>
    have hok := answeredOk_announcement client id { c with config := options, hasConfig := true } []
    exact absurd ⟨hcommand, by simpa [broadcasts] using hok⟩ hnot
  | started _ _ _ _ _ _ hstarted => exact ⟨hstarted.hasConfig, hstarted.config⟩
  | stopped _ _ _ hstopped => exact ⟨hstopped.hasConfig, hstopped.config⟩

theorem config_shutdown (hc : c.WellFormed) :
    (shutdown env c).controller.hasConfig = c.hasConfig ∧
      (shutdown env c).controller.config = c.config := by
  rcases shutdown_cases env hc with
    ⟨-, heq⟩ | ⟨ex, c', events, hshape, heq⟩ | ⟨c', events, hidle, heq⟩
  · rw [heq]
    exact ⟨rfl, rfl⟩
  · rw [heq]
    exact ⟨hshape.hasConfig, hshape.config⟩
  · rw [heq]
    exact ⟨hidle.hasConfig, hidle.config⟩

/-- The engine's configuration is that of the given `configure` command, or it has none. -/
def ConfiguredAs (lib : JsonLibrary) (c : EngineController) :
    Option (IpcClientId × Json) → Prop
  | none => c.hasConfig = false
  | some (_, config) => c.hasConfig = true ∧ engineConfigFromJson lib config = .ok c.config

theorem ConfiguredAs.congr {last : Option (IpcClientId × Json)} (h : ConfiguredAs lib c last)
    (hsame : c'.hasConfig = c.hasConfig ∧ c'.config = c.config) : ConfiguredAs lib c' last := by
  cases last with
  | none => exact hsame.1.trans h
  | some configured => exact ⟨hsame.1.trans h.1, by rw [hsame.2]; exact h.2⟩

theorem configuredAs_handleCommand (hc : c.WellFormed) {last : Option (IpcClientId × Json)}
    (h : ConfiguredAs lib c last) (env : Environment) (client : IpcClientId) (line : ByteString) :
    ConfiguredAs lib (handleCommand lib env client line c).controller
      ((configuredBy lib (.command client line env, handleCommand lib env client line c)).or
        last) := by
  rcases carries_command_or_none lib line with ⟨msg, command, hparse, haccepted⟩ | hnone
  · rcases handleCommand_cases env client hc hparse haccepted with hreplied | ⟨ex, hescapes⟩
    · by_cases hconfigured : command = ascii "configure" ∧
          answeredOk client (handleCommand lib env client line c) = true
      · obtain ⟨config, hconfig, hset, hread⟩ :=
          config_of_configured hreplied hconfigured.1 hconfigured.2
        rw [configuredBy_of_configured hparse (by rw [haccepted, hconfigured.1]) hconfigured.2
          hconfig]
        exact ⟨hset, hread⟩
      · rw [configuredBy_of_not_configured hparse (by simpa [haccepted] using hconfigured)]
        exact h.congr (config_of_not_configured hreplied hconfigured)
    · rw [configuredBy_of_not_configured hparse (by simp [answeredOk_escapes hescapes])]
      obtain ⟨c', events, hshape, heq⟩ := hescapes
      rw [heq]
      exact h.congr ⟨hshape.hasConfig, hshape.config⟩
  · rw [handleCommand_of_no_command env client hnone, configuredBy_of_no_command hnone]
    exact h

/-- One step: whoever configures the engine in it sets the configuration. -/
theorem configuredAs_perform (hc : c.WellFormed) {last : Option (IpcClientId × Json)}
    (h : ConfiguredAs lib c last) (action : EngineAction) :
    ConfiguredAs lib (c.perform lib action).controller
      ((configuredBy lib (action, c.perform lib action)).or last) := by
  cases action with
  | command client line env => exact configuredAs_handleCommand hc h env client line
  | shutdown env => exact h.congr (config_shutdown hc)
  | event event =>
    have hshape := (onEvent_onlyEvents c event).shape
    exact h.congr ⟨hshape.hasConfig, hshape.config⟩

/-- Along a run the engine holds the configuration of the last successful `configure`. -/
theorem configuredAs_run {labels : List (EngineAction × Handled)}
    (hrun : Run (Step lib) {} labels c) :
    ConfiguredAs lib c (lastConfigured lib labels) := by
  have hinitial : ConfiguredAs lib {} (lastConfigured lib []) := rfl
  refine hrun.trace_induction (P := fun labels c => ConfiguredAs lib c (lastConfigured lib labels))
    hinitial fun labels c label c' hprefix ih hstep => ?_
  obtain ⟨hlabel, rfl⟩ := hstep
  have hc : c.WellFormed := Reached.wellFormed ⟨labels, hprefix⟩
  rw [lastConfigured_snoc]
  have hnext := configuredAs_perform hc ih label.1
  rw [← hlabel] at hnext
  exact hnext

end

/-- A start that is answered with success builds its session from the configuration of
the last successful `configure` of any client, so from the client's own if no other
client configured the engine after it. -/
theorem start_runs_last_configured (lib : JsonLibrary) (labels : List (EngineAction × Handled))
    (c : EngineController) (hrun : Run (Step lib) {} labels c) (env : Environment)
    (client : IpcClientId) (line : ByteString) (msg : Json) (hparse : lib.parse line = .ok msg)
    (hcommand : IsCommand msg (ascii "start_capture"))
    (hok : answeredOk client (handleCommand lib env client line c) = true) :
    ∃ configurer config options session, lastConfigured lib labels = some (configurer, config) ∧
      engineConfigFromJson lib config = .ok options ∧ captureSession options = .ok session ∧
      (handleCommand lib env client line c).controller.session = some session ∧
      (handleCommand lib env client line c).controller.config = options ∧
      (∀ before own after ownConfig, labels = before ++ own :: after →
        configuredBy lib own = some (client, ownConfig) →
        (∀ label ∈ after, configuredBy lib label = none) →
        engineConfigFromJson lib ownConfig = .ok options) := by
  have hc : c.WellFormed := Reached.wellFormed ⟨labels, hrun⟩
  have hlast := configuredAs_run hrun
  have haccepted := acceptedCommand_eq_some_iff.2 hcommand
  rcases handleCommand_cases env client hc hparse haccepted with hreplied | ⟨ex, hescapes⟩
  · generalize handleCommand lib env client line c = h at hreplied hok
    cases hreplied with
    | answered events message ok hshape hresult hnot =>
      rw [answeredOk_answer hresult] at hok
      exact absurd (by decide) (hnot hok)
    | configured _ _ hconfigure => exact absurd hconfigure (by decide)
    | stopped _ hstop => exact absurd hstop (by decide)
    | started events session _ _ hconfig hsession hstarted _ =>
      cases hconfigured : lastConfigured lib labels with
      | none =>
        rw [hconfigured] at hlast
        exact absurd (hlast.symm.trans hconfig) (by decide)
      | some configured =>
        obtain ⟨configurer, config⟩ := configured
        rw [hconfigured] at hlast
        refine ⟨configurer, config, c.config, session, rfl, hlast.2, hsession, hstarted.session,
          hstarted.config, ?_⟩
        rintro before own after ownConfig rfl hown hafter
        rw [lastConfigured_of_own hown hafter] at hconfigured
        cases hconfigured
        exact hlast.2
  · rw [answeredOk_escapes hescapes] at hok
    cases hok

def otherConfigureLine : ByteString :=
  ascii "\x7b\"command\":\"configure\",\"config\":\x7b\"bind_port\":9001,\"mode\":\"udp\"\x7d\x7d"

/-- The library on the lines of two clients that configure different ports. -/
def handshakeLibrary : JsonLibrary :=
  .ofTable [(configureLine, .ok (udpConfigure 9000)), (otherConfigureLine, .ok (udpConfigure 9001)),
    (startLine, .ok startCapture)] (by decide)

/-- The engine after the `configure` of client 1 and then that of client 2. -/
def configuredTwice : EngineController :=
  (handleCommand handshakeLibrary {} 2 otherConfigureLine
    (handleCommand handshakeLibrary {} 1 configureLine {}).controller).controller

/-- Between the two steps of client 1's handshake client 2 configures the engine: client
1's start succeeds and captures on client 2's port. -/
theorem start_runs_foreign_configuration :
    answeredOk 1 (handleCommand handshakeLibrary {} 1 configureLine {}) = true ∧
      answeredOk 1 (handleCommand handshakeLibrary {} 1 startLine configuredTwice) = true ∧
      (handleCommand handshakeLibrary {} 1 startLine configuredTwice).controller.session =
        some (.udp { bindPort := 9001 }) ∧
      (((configOf (udpConfigure 9000)).map (engineConfigFromJson handshakeLibrary)).map
        fun read => read.bind captureSession) = some (.ok (.udp { bindPort := 9000 })) := by
  have hrun : answeredOk 1 (handleCommand handshakeLibrary {} 1 configureLine {}) = true ∧
      answeredOk 1 (handleCommand handshakeLibrary {} 1 startLine configuredTwice) = true ∧
      (handleCommand handshakeLibrary {} 1 startLine configuredTwice).controller.session =
        some (.udp { bindPort := 9001 }) := by decide +kernel
  exact ⟨hrun.1, hrun.2.1, hrun.2.2, rfl⟩

theorem start_runs_last_configured_of_two :
    ∃ session, captureSession { mode := ascii "udp", bindPort := 9001 } = .ok session ∧
      (handleCommand handshakeLibrary {} 1 startLine configuredTwice).controller.session =
        some session := by
  let c₁ :=
    (({} : EngineController).perform handshakeLibrary (.command 1 configureLine {})).controller
  have hrun : Run (Step handshakeLibrary) {} [(.command 1 configureLine {},
      ({} : EngineController).perform handshakeLibrary (.command 1 configureLine {})),
      (.command 2 otherConfigureLine {},
        c₁.perform handshakeLibrary (.command 2 otherConfigureLine {}))] configuredTwice :=
    .cons ⟨rfl, rfl⟩ (.cons ⟨rfl, rfl⟩ (.nil _))
  obtain ⟨_, _, options, session, -, -, hsession, hbuilt, hconfig, -⟩ :=
    start_runs_last_configured handshakeLibrary _ configuredTwice hrun {} 1 startLine startCapture
      rfl
      (acceptedCommand_eq_some_iff.1 (by decide)) (by decide +kernel)
  refine ⟨session, ?_, hbuilt⟩
  rw [← hsession, ← hconfig]
  rfl

end PacketProbe
