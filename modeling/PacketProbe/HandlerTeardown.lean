import PacketProbe.CallbackSlots
import PacketProbe.StartHandshake

/-!
# Tearing down a command handler

The IPC thread copies the command handler under `command_handler_mutex` and calls the
copy without it. A handler that refers to a session or to the engine is deregistered
before its owner goes, but a copy made before that is called afterwards, unless the
teardown waits for it.
-/

namespace PacketProbe
open TransitionRuns CallbackSlots
open EngineController hiding Step

/-- A line as the IPC thread delivers it to the send handler, and what the session makes
of the payload. -/
structure SendDelivery where
  line : ByteString
  send : Bytes → Except StdException Bool := fun _ => .ok true

/-- The session of a command-line run, as the payloads its handler passed to `send`.
`IpcHandlerGuard` deregisters the handler and leaves the session as it is. -/
def sessionOwner (lib : JsonLibrary) : Owner (List Bytes) SendDelivery Unit where
  call sent delivery := sent ++ (ipcSendHandler lib delivery.send delivery.line).sent
  close sent _ := some sent

/-- A line as the IPC thread delivers it to the engine, and what happens during its
handling. -/
structure EngineDelivery where
  client : IpcClientId
  line : ByteString
  env : Environment := {}

/-- The engine, whose `shutdown` deregisters the handler unless stopping throws. -/
def engineOwner (lib : JsonLibrary) : Owner EngineController EngineDelivery Environment where
  call c delivery := (handleCommand lib delivery.env delivery.client delivery.line c).controller
  close c env :=
    match (shutdown env c).thrown with
    | none => some (shutdown env c).controller
    | some _ => none

/-- The engine is configured and the line is a `start_capture` command. -/
def StartsCapture (lib : JsonLibrary) (c : EngineController) (delivery : EngineDelivery) : Prop :=
  c.hasConfig = true ∧
    ∃ msg, lib.parse delivery.line = .ok msg ∧ IsCommand msg (ascii "start_capture")

section

variable {lib : JsonLibrary} {env : Environment} {c c' : EngineController}
  {client : IpcClientId} {id command : ByteString} {msg : Json} {h : Handled}

theorem close_eq_some_iff :
    (engineOwner lib).close c env = some c' ↔
      (shutdown env c).thrown = none ∧ (shutdown env c).controller = c' := by
  simp only [engineOwner]
  split <;> simp_all

theorem capturing_shutdown (hc : c.WellFormed) (hthrown : (shutdown env c).thrown = none) :
    (shutdown env c).controller.capturing = false := by
  rcases shutdown_cases env hc with
    ⟨hcap, heq⟩ | ⟨ex, c', events, -, heq⟩ | ⟨c', events, hidle, heq⟩
  · rw [heq]
    exact hcap
  · rw [heq] at hthrown
    cases hthrown
  · rw [heq]
    exact hidle.capturing

theorem idle_of_replied (hreplied : Replied lib c client id command msg h)
    (hidle : c.capturing = false)
    (hstart : command = ascii "start_capture" → c.hasConfig = false) :
    h.controller.capturing = false := by
  cases hreplied with
  | answered _ _ _ hshape => exact hshape.capturing.trans hidle
  | configured _ _ _ _ => exact hidle
  | started _ _ hcommand _ hconfig =>
    exact absurd ((hstart hcommand).symm.trans hconfig) (by decide)
  | stopped _ _ _ hstopped => exact hstopped.capturing

/-- Only a `start_capture` in a configured engine makes an idle engine capture. -/
theorem idle_of_not_startsCapture (hc : c.WellFormed) (hidle : c.capturing = false)
    (delivery : EngineDelivery) (hnot : ¬ StartsCapture lib c delivery) :
    (handleCommand lib delivery.env delivery.client delivery.line c).controller.capturing =
      false := by
  rcases carries_command_or_none lib delivery.line with ⟨msg, command, hparse, haccepted⟩ | hnone
  · rcases handleCommand_cases delivery.env delivery.client hc hparse haccepted with
      hreplied | ⟨ex, c', events, hshape, heq⟩
    · refine idle_of_replied hreplied hidle fun hstart => ?_
      rw [hstart] at haccepted
      rw [← Bool.not_eq_true]
      intro hconfig
      exact hnot ⟨hconfig, msg, hparse, acceptedCommand_eq_some_iff.1 haccepted⟩
    · rw [heq]
      exact hshape.capturing.trans hidle
  · rw [handleCommand_of_no_command delivery.env delivery.client hnone]
    exact hidle

/-- `shutdown` leaves an idle engine, and keeps whether it is configured. -/
theorem engine_seals (lib : JsonLibrary) :
    Seals (engineOwner lib) (StartsCapture lib) WellFormed fun c => c.capturing = false := by
  refine ⟨fun c delivery hc => ?_, fun c env c' hc hclose => ?_, fun c delivery hc hidle hnot => ?_,
    fun c env c' delivery hc hclose hstarts => ?_⟩
  · exact handleCommand_wellFormed hc delivery.client delivery.line
  · obtain ⟨hthrown, rfl⟩ := close_eq_some_iff.1 hclose
    exact ⟨shutdown_wellFormed hc, capturing_shutdown hc hthrown⟩
  · exact idle_of_not_startsCapture hc hidle delivery hnot
  · obtain ⟨-, rfl⟩ := close_eq_some_iff.1 hclose
    exact ⟨(config_shutdown hc).1 ▸ hstarts.1, hstarts.2⟩

theorem handleStartCapture_of_started (lib : JsonLibrary) (env : Environment) (client : IpcClientId)
    (hc : c.WellFormed)
    (hid : Utf8.Valid id) (hidle : c.capturing = false) (hconfig : c.hasConfig = true)
    (hstarted : (startSessionLocked env c).thrown = none) :
    ∃ c' sent, c'.capturing = true ∧ handleStartCapture lib env client id c = ⟨c', sent, none⟩ := by
  obtain ⟨-, -, hspec⟩ := startSessionLocked_spec env hc hidle
  obtain ⟨session, -, hbuilt⟩ := hspec hstarted
  have hreport := hbuilt.config ▸ hc.reportable
  rw [handleStartCapture, if_neg (by simp [hidle]), if_neg (by simp [hconfig])]
  simp only [hstarted]
  rw [andThen_announce hstarted (fun c => { c with capturing := true }) hid hreport]
  exact ⟨_, _, rfl, rfl⟩

/-- A `start_capture` copied before the shutdown and called after it starts a capture,
unless its session fails to start. -/
theorem capturing_of_late_start (hc : c.WellFormed) {delivery : EngineDelivery}
    (hclose : (engineOwner lib).close c env = some c') (hstarts : StartsCapture lib c delivery)
    (hstarted : (startSessionLocked delivery.env c').thrown = none) :
    ((engineOwner lib).call c' delivery).capturing = true := by
  obtain ⟨hconfig, msg, hparse, hcommand⟩ := hstarts
  obtain ⟨hc', hidle⟩ := (engine_seals lib).close c env c' hc hclose
  have hconfig' : c'.hasConfig = true := by
    obtain ⟨-, rfl⟩ := close_eq_some_iff.1 hclose
    exact (config_shutdown hc).1.trans hconfig
  obtain ⟨c'', sent, hcapturing, hhandled⟩ := handleStartCapture_of_started lib delivery.env
    delivery.client hc' (valid_commandId (lib.parse_validText hparse)) hidle hconfig' hstarted
  have hdispatch : dispatch lib delivery.env delivery.client (ascii "start_capture") (commandId msg)
      msg c' = ⟨c'', sent, none⟩ := hhandled
  simp only [engineOwner, handleCommand_of_command hparse (acceptedCommand_eq_some_iff.2 hcommand),
    hdispatch, Handled.catching]
  exact hcapturing

end

/-- If no copy of the handler is outstanding when the session or the engine is destroyed,
it is never called after that. If no copy is outstanding that starts a capture when the
engine is shut down, the engine stays idle from then on. With a copy outstanding the next
step can call what has been destroyed, and the copy of a start captures behind the shutdown. -/
theorem handler_silent_after_teardown (lib : JsonLibrary) :
    (∀ sent actions s,
      Run (Guarded (Step (sessionOwner lib)) WaitsToDestroy) { owner := sent } actions s →
      ∀ a : Action SendDelivery Unit, ¬ CallsDestroyed s a) ∧
    (∀ c actions s, Run (Guarded (Step (engineOwner lib)) WaitsToDestroy) { owner := c } actions s →
      ∀ a : Action EngineDelivery Environment, ¬ CallsDestroyed s a) ∧
    (∀ c actions s, Reached lib c →
      Run (Guarded (Step (engineOwner lib)) (WaitsToEmpty (StartsCapture lib))) { owner := c }
        actions s →
      s.phase ≠ .running → s.owner.capturing = false) ∧
    (∀ s t delivery, Step (sessionOwner lib) s .destroy t → Outstanding s delivery →
      CallsDestroyed t (.invoke : Action SendDelivery Unit) ∧
        ∃ u, Step (sessionOwner lib) t .invoke u) ∧
    (∀ s t delivery, Step (engineOwner lib) s .destroy t → Outstanding s delivery →
      CallsDestroyed t (.invoke : Action EngineDelivery Environment) ∧
        ∃ u, Step (engineOwner lib) t .invoke u) ∧
    ∀ s t env delivery, Reached lib s.owner → Step (engineOwner lib) s (.empty env) t →
      Outstanding s delivery →
      StartsCapture lib s.owner delivery → (startSessionLocked delivery.env t.owner).thrown = none →
      ∃ u, Step (engineOwner lib) t .invoke u ∧ u.owner.capturing = true := by
  refine ⟨fun sent actions s hrun => not_callsDestroyed_of_run hrun,
    fun c actions s hrun => not_callsDestroyed_of_run hrun, fun c actions s hc hrun hphase => ?_,
    fun s t delivery hstep hcopied => (callsDestroyed_of_destroy hstep hcopied).imp_right fun h =>
      ⟨_, h⟩,
    fun s t delivery hstep hcopied => (callsDestroyed_of_destroy hstep hcopied).imp_right fun h =>
      ⟨_, h⟩, ?_⟩
  · exact closed_of_run (engine_seals lib) hc.wellFormed hrun hphase
  · intro s t env delivery hc hstep hcopied hstarts hstarted
    cases hstep with
    | empty how closed halive hclose =>
      exact ⟨_, .call _ delivery hcopied,
        capturing_of_late_start hc.wellFormed hclose hstarts hstarted⟩

def sendLine : ByteString := ascii "\x7b\"command\":\"send\",\"payload_hex\":\"07\"\x7d"

def sendCommand : Json :=
  .object [(ascii "command", .string (ascii "send")), (ascii "payload_hex", .string (ascii "07"))]

/-- The library on a line for each handler. -/
def teardownLibrary : JsonLibrary :=
  .ofTable [(configureLine, .ok (udpConfigure 9000)), (startLine, .ok startCapture),
    (sendLine, .ok sendCommand)] (by decide)

def configuredEngine : EngineController :=
  (({} : EngineController).perform teardownLibrary (.command 1 configureLine {})).controller

/-- The copy made before the deregistration is called after it: the destroyed session is
given a payload, and the engine that was shut down captures. -/
theorem handler_called_after_teardown :
    (∃ s t, Run (Step (sessionOwner teardownLibrary)) { owner := [] }
        [.copy ⟨sendLine, fun _ => .ok true⟩, .empty (), .destroy] s ∧
      CallsDestroyed s (.invoke : Action SendDelivery Unit) ∧
      Step (sessionOwner teardownLibrary) s .invoke t ∧ s.owner = [] ∧ t.owner = [[7]]) ∧
    ∃ s t, Run (Step (engineOwner teardownLibrary)) { owner := configuredEngine }
        [.copy ⟨1, startLine, {}⟩, .empty {}] s ∧
      s.phase = .emptied ∧ s.owner.capturing = false ∧
      Step (engineOwner teardownLibrary) s .invoke t ∧ t.owner.capturing = true := by
  constructor
  · let delivery : SendDelivery := ⟨sendLine, fun _ => .ok true⟩
    have hdestroy : Step (sessionOwner teardownLibrary) ⟨[], false, some (delivery, true), .emptied⟩
        .destroy ⟨[], false, some (delivery, true), .destroyed⟩ := .destroy _ rfl
    obtain ⟨hcalls, hstep⟩ := callsDestroyed_of_destroy hdestroy rfl
    refine ⟨_, _, ?_, hcalls, hstep, rfl, by decide +kernel⟩
    exact .cons (.copy _ delivery rfl) (.cons (.empty _ () [] Phase.noConfusion rfl)
      (.cons hdestroy (.nil _)))
  · let delivery : EngineDelivery := ⟨1, startLine, {}⟩
    refine ⟨⟨configuredEngine, false, some (delivery, true), .emptied⟩, _, ?_, rfl, rfl,
      .call _ delivery rfl, by decide +kernel⟩
    exact .cons (.copy _ delivery rfl)
      (.cons (.empty _ ({} : Environment) configuredEngine Phase.noConfusion rfl) (.nil _))

/-- A teardown that waits for the copy of a `start_capture`, and another start delivered
behind the shutdown. -/
theorem handler_silent_after_waiting :
    ∃ s : Slot EngineController EngineDelivery, s.phase = .destroyed ∧ s.owner.capturing = false ∧
      ¬ CallsDestroyed s (.invoke : Action EngineDelivery Environment) := by
  let delivery : EngineDelivery := ⟨1, startLine, {}⟩
  let started := (engineOwner teardownLibrary).call configuredEngine delivery
  let stopped := (shutdown {} started).controller
  have hsteps :
    ∀ G : Slot EngineController EngineDelivery → Action EngineDelivery Environment → Prop,
      (∀ s a, (∀ message, ¬ Outstanding s message) → G s a) → (∀ s, G s .invoke) →
      Run (Guarded (Step (engineOwner teardownLibrary)) G) { owner := configuredEngine }
        [.copy delivery, .invoke, .empty {}, .copy delivery, .invoke, .destroy]
        ⟨stopped, false, none, .destroyed⟩ := by
    intro G hG hinvoke
    refine .cons ⟨hG _ _ (fun _ h => nomatch h), .copy _ delivery rfl⟩
      (.cons ⟨hinvoke _, .call _ delivery rfl⟩
      (.cons ⟨hG _ _ (fun _ h => nomatch h),
        .empty _ ({} : Environment) stopped Phase.noConfusion ?_⟩
      (.cons ⟨hG _ _ (fun _ h => nomatch h), .copy _ delivery rfl⟩
      (.cons ⟨hinvoke _, .skip _ delivery rfl⟩
      (.cons ⟨hG _ _ (fun _ h => nomatch h), .destroy _ rfl⟩ (.nil _))))))
    exact close_eq_some_iff.2 ⟨rfl, rfl⟩
  obtain ⟨-, hcalls, hidle, -⟩ := handler_silent_after_teardown teardownLibrary
  refine ⟨_, rfl, hidle _ _ _ (reached_initial.perform _) (hsteps _ ?_ ?_) (by decide),
    hcalls _ _ _ (hsteps _ ?_ ?_) .invoke⟩
  · exact fun s a hnone how message _ hmessage => absurd hmessage (hnone message)
  · exact fun s how message h => nomatch h
  · exact fun s a hnone _ => hnone
  · exact fun s h => nomatch h

end PacketProbe
