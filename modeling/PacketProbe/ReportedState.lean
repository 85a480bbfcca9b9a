import PacketProbe.CommandProtocol

/-!
# The state an engine reports

The engine keeps what it does in `capturing_`, and its session keeps a `stopped` flag of
its own, which the callbacks of the transport set at any time. The reports look only at
the first.
-/

namespace PacketProbe
open TransitionRuns EngineController

/-- The engine with the `stopped` flag of its active session. -/
structure MonitoredEngine where
  controller : EngineController := {}
  stopped : Bool := false

/-- A step of the engine, and whether the session it leaves has ended on its own before the
step reports anything, or the end of the active session between two steps. -/
inductive MonitoredAction where
  | engine (action : EngineAction) (ends : Bool)
  | sessionEnd

/-- The action calls `stop` of the active session, which sets the flag first of all. -/
def EngineAction.stopsSession (lib : JsonLibrary) : EngineAction → Bool
  | .command _ line _ =>
    match lib.parse line with
    | .ok msg => decide (acceptedCommand msg = some (ascii "stop_capture"))
    | .error _ => false
  | .event _ => false
  | .shutdown _ => true

/-- One step: what was sent, and the states around it. -/
structure Reported where
  before : MonitoredEngine
  action : MonitoredAction
  sent : List Sent
  after : MonitoredEngine

namespace MonitoredEngine

def perform (lib : JsonLibrary) (s : MonitoredEngine) :
    MonitoredAction → MonitoredEngine × List Sent
  | .engine action ends =>
    let h := s.controller.perform lib action
    let kept := s.controller.session.isSome && (s.stopped || action.stopsSession lib)
    (⟨h.controller, h.controller.session.isSome && (kept || ends)⟩, h.sent)
  | .sessionEnd => (⟨s.controller, true⟩, [])

/-- Only a session that is there can end. -/
def CanEnd (t : MonitoredEngine) : MonitoredAction → Prop
  | .engine _ ends => ends = true → t.controller.session.isSome = true
  | .sessionEnd => t.controller.session.isSome = true

instance (t : MonitoredEngine) (a : MonitoredAction) : Decidable (t.CanEnd a) := by
  cases a <;> unfold CanEnd <;> infer_instance

def Step (lib : JsonLibrary) (s : MonitoredEngine) (r : Reported) (t : MonitoredEngine) : Prop :=
  r.before = s ∧ r.after = t ∧ t = (s.perform lib r.action).1 ∧
    r.sent = (s.perform lib r.action).2 ∧ t.CanEnd r.action

end MonitoredEngine

/-- The engine state a message gives. -/
def reportedState (message : Json) : Option ByteString :=
  match message.find (ascii "engine_state") with
  | some (.string state) => some state
  | _ => none

/-- A status message or a result that gives the engine state as capturing. -/
def ReportsCapturing : Sent → Prop
  | .toClient _ message | .broadcastRaw message => reportedState message = some (ascii "capturing")
  | .broadcast _ => False

instance : DecidablePred ReportsCapturing := fun
  | .toClient _ message => inferInstanceAs (Decidable (reportedState message = _))
  | .broadcastRaw message => inferInstanceAs (Decidable (reportedState message = _))
  | .broadcast _ => inferInstanceAs (Decidable False)

/-- While the step reported the engine as capturing, its session was not stopped. -/
def Reported.Truthful (r : Reported) : Prop :=
  (∃ message ∈ r.sent, ReportsCapturing message) → r.after.stopped = false

instance (r : Reported) : Decidable r.Truthful := inferInstanceAs (Decidable (_ → _))

/-- The engine is not asked for its status when its session has stopped, and no session ends
inside the `start_capture` that starts it. -/
def Reported.InTime (lib : JsonLibrary) (r : Reported) : Prop :=
  match r.action with
  | .engine (.command _ line _) ends => ∀ msg, lib.parse line = .ok msg →
    (acceptedCommand msg = some (ascii "get_status") → r.before.controller.capturing = true →
      r.before.stopped = false ∧ ends = false) ∧
    (acceptedCommand msg = some (ascii "start_capture") → r.before.controller.capturing = false →
      ends = false)
  | _ => True

namespace EngineController

variable {lib : JsonLibrary} {env : Environment} {c : EngineController} {h : Handled}
  {client : IpcClientId} {id command : ByteString} {msg message : Json}

/-! ### What does not report a capture -/

def Silent (h : Handled) : Prop := ∀ message ∈ h.sent, ¬ ReportsCapturing message

theorem silent_of_sent_nil (c : EngineController) (thrown : Option StdException) :
    Silent ⟨c, [], thrown⟩ := fun _ hmem => nomatch hmem

theorem Silent.andThen {next : EngineController → Handled} (h₁ : Silent h)
    (h₂ : h.thrown = none → Silent (next h.controller)) : Silent (h.andThen next) := by
  unfold Handled.andThen
  cases hthrown : h.thrown with
  | some ex => exact h₁
  | none =>
    intro message hmem
    rcases List.mem_append.1 hmem with hmem | hmem
    · exact h₁ message hmem
    · exact h₂ hthrown message hmem

theorem silent_sendToClient
    (hmessage : reportedState message ≠ some (ascii "capturing")) :
    Silent (sendToClient lib client message c) := by
  unfold sendToClient JsonLibrary.dump
  intro sent hmem
  by_cases hvalid : message.validText = true
  · simp only [hvalid, if_true, List.mem_singleton] at hmem
    subst hmem
    exact hmessage
  · simp only [hvalid] at hmem
    cases hmem

theorem silent_replyResult (id : ByteString) (ok : Bool) (error : ByteString) :
    Silent (replyResult lib client id ok error c) := by
  apply silent_sendToClient
  unfold resultMessage
  split <;> exact fun h => (nomatch h)

theorem reportedState_stateMembers (c : EngineController) (head : List (ByteString × Json))
    (hhead : head.lookup (ascii "engine_state") = none) :
    reportedState (.object (head ++ c.stateMembers)) = some c.engineState := by
  rw [reportedState, Json.find, List.lookup_append, hhead]
  rfl

theorem engineState_eq_iff : c.engineState = ascii "capturing" ↔ c.capturing = true := by
  unfold engineState
  cases c.capturing <;> decide

theorem silent_broadcastStatusLocked (hidle : c.capturing = false) :
    Silent (broadcastStatusLocked lib c) := by
  unfold broadcastStatusLocked JsonLibrary.dump
  intro sent hmem
  by_cases hvalid : c.statusMessage.validText = true
  · simp only [hvalid, if_true, List.mem_singleton] at hmem
    subst hmem
    intro hreport
    have hstate :=
      reportedState_stateMembers c [(ascii "type", .string (ascii "status"))] (by decide)
    have hsame := Option.some.inj (hstate.symm.trans hreport)
    rw [engineState_eq_iff, hidle] at hsame
    cases hsame
  · simp only [hvalid] at hmem
    cases hmem

theorem silent_onEvent (event : PacketEvent) (c : EngineController) : Silent (onEvent event c) := by
  intro message hmem
  obtain ⟨sent, hsent⟩ := (onEvent_onlyEvents c event).sent
  rw [hsent] at hmem
  obtain ⟨_, -, rfl⟩ := List.mem_map.1 hmem
  exact fun hreport => hreport

theorem silent_onEvents (events : List PacketEvent) (c : EngineController) :
    Silent (onEvents events c) := by
  induction events generalizing c with
  | nil => exact silent_of_sent_nil c none
  | cons event events ih => exact (silent_onEvent event c).andThen fun _ => ih _

theorem silent_stopCaptureLocked (env : Environment) (c : EngineController) :
    Silent (stopCaptureLocked env c) := by
  unfold stopCaptureLocked
  refine Silent.andThen ?_ fun _ => silent_of_sent_nil _ _
  split
  · exact silent_of_sent_nil _ _
  · exact (silent_onEvents _ _).andThen fun _ => silent_of_sent_nil _ _

theorem silent_shutdown (env : Environment) (c : EngineController) : Silent (shutdown env c) := by
  unfold shutdown
  split
  · exact silent_stopCaptureLocked env c
  · exact silent_of_sent_nil _ _

theorem capturing_stopCaptureLocked (h : (stopCaptureLocked env c).thrown = none) :
    (stopCaptureLocked env c).controller.capturing = false := by
  revert h
  simp only [stopCaptureLocked, Handled.andThen]
  split
  · rename_i ex hex
    intro h
    rw [hex] at h
    cases h
  · exact fun _ => rfl

theorem silent_announce (hidle : c.capturing = false) :
    Silent ((replyResult lib client id true [] c).andThen (broadcastStatusLocked lib)) := by
  refine (silent_replyResult id true []).andThen fun _ => ?_
  rw [replyResult_controller]
  exact silent_broadcastStatusLocked hidle

theorem silent_handleConfigure (msg : Json) (c : EngineController) :
    Silent (handleConfigure lib client id msg c) := by
  unfold handleConfigure
  by_cases hcap : c.capturing = true
  · rw [if_pos hcap]
    exact silent_replyResult _ _ _
  · rw [if_neg hcap]
    split
    · exact silent_replyResult _ _ _
    · split
      · exact silent_of_sent_nil _ _
      · split
        · exact silent_of_sent_nil _ _
        · exact silent_announce (by simpa using hcap)

theorem silent_handleStartCapture (hcap : c.capturing = true) :
    Silent (handleStartCapture lib env client id c) := by
  unfold handleStartCapture
  rw [if_pos hcap]
  exact silent_replyResult _ _ _

theorem silent_handleStopCapture (c : EngineController) :
    Silent (handleStopCapture lib env client id c) := by
  unfold handleStopCapture
  split
  · exact silent_replyResult _ _ _
  · exact (silent_stopCaptureLocked env c).andThen fun hthrown =>
      silent_announce (capturing_stopCaptureLocked hthrown)

theorem silent_handleGetStatus (hidle : c.capturing = false) :
    Silent (handleGetStatus lib client id c) := by
  apply silent_sendToClient
  rw [reportedState_stateMembers c _ rfl]
  intro hstate
  have hsame := Option.some.inj hstate
  rw [engineState_eq_iff, hidle] at hsame
  cases hsame

theorem silent_handleListSerialPorts (c : EngineController) :
    Silent (handleListSerialPorts lib env client id c) := by
  unfold handleListSerialPorts
  split
  · exact silent_of_sent_nil _ _
  · exact silent_sendToClient fun h => (nomatch h)

theorem silent_handleSend (msg : Json) (c : EngineController) :
    Silent (handleSend lib env client id msg c) := by
  have hsend : ∀ payload, Silent (sessionSend env payload c).1 := by
    intro payload
    unfold sessionSend
    split
    · exact (silent_onEvents _ _).andThen fun _ => silent_of_sent_nil _ _
    · exact silent_onEvents _ _
  unfold handleSend
  split
  · split
    · exact silent_replyResult _ _ _
    · split
      · split
        · exact silent_replyResult _ _ _
        · exact (hsend _).andThen fun _ => silent_replyResult _ _ _
      · exact silent_replyResult _ _ _
  · exact silent_replyResult _ _ _

/-- A capture is reported by a `get_status` during one, or by the `start_capture` that
started it. -/
theorem silent_dispatch (hstatus : command = ascii "get_status" → c.capturing = false)
    (hstart : command = ascii "start_capture" → c.capturing = true) :
    Silent (dispatch lib env client command id msg c) := by
  unfold dispatch
  split
  · exact silent_handleConfigure msg c
  · split
    · exact silent_handleStartCapture (hstart ‹_›)
    · split
      · exact silent_handleStopCapture c
      · split
        · exact silent_handleGetStatus (hstatus ‹_›)
        · split
          · exact silent_handleListSerialPorts c
          · split
            · exact silent_handleSend msg c
            · exact silent_replyResult _ _ _

theorem silent_handleCommand (client : IpcClientId) (line : ByteString)
    (hquiet : ∀ msg, lib.parse line = .ok msg →
      (acceptedCommand msg = some (ascii "get_status") → c.capturing = false) ∧
      (acceptedCommand msg = some (ascii "start_capture") → c.capturing = true)) :
    Silent (handleCommand lib env client line c) := by
  unfold handleCommand
  split
  · exact silent_of_sent_nil _ _
  · exact silent_of_sent_nil _ _
  · rename_i msg hparse
    split
    · exact silent_of_sent_nil _ _
    · rename_i command hcommand
      obtain ⟨hstatus, hstart⟩ := hquiet msg hparse
      have hdispatch : Silent (dispatch lib env client command (commandId msg) msg c) :=
        silent_dispatch (fun h => hstatus (hcommand.trans (congrArg some h)))
          fun h => hstart (hcommand.trans (congrArg some h))
      unfold Handled.catching
      split
      · exact hdispatch
      · intro message hmem
        rcases List.mem_append.1 hmem with hmem | hmem
        · exact hdispatch message hmem
        · exact silent_replyResult _ _ _ message hmem

/-! ### What does -/

theorem reports_getStatus (hid : Utf8.Valid id) (hc : c.WellFormed) (hcap : c.capturing = true) :
    ∃ message ∈ (handleGetStatus lib client id c).sent, ReportsCapturing message := by
  have hkeys : Utf8.Valid (ascii "type") ∧ Utf8.Valid (ascii "result") ∧ Utf8.Valid (ascii "id") ∧
      Utf8.Valid (ascii "ok") := by decide
  have hmembers := stateMembers_valid hc.reportable
  let head : List (ByteString × Json) := [(ascii "type", .string (ascii "result")),
    (ascii "id", .string id), (ascii "ok", .boolean true)]
  have hvalid : (Json.object (head ++ c.stateMembers)).validText = true := by
    simp [head, Json.validText, Json.validMembers, hkeys, hid, hmembers]
  have hsent : (handleGetStatus lib client id c).sent =
      [.toClient client (.object (head ++ c.stateMembers))] := by
    rw [handleGetStatus, sendToClient, JsonLibrary.dump, if_pos hvalid]
  rw [hsent]
  refine ⟨_, List.mem_singleton_self _, ?_⟩
  rw [ReportsCapturing, reportedState_stateMembers c head rfl, engineState_eq_iff.2 hcap]

theorem reports_announcement (hcap : c.capturing = true) :
    ∃ message ∈ announcement client id c, ReportsCapturing message := by
  refine ⟨.broadcastRaw c.statusMessage, by simp [announcement], ?_⟩
  have hstate := reportedState_stateMembers c [(ascii "type", .string (ascii "status"))] (by decide)
  rw [engineState_eq_iff.2 hcap] at hstate
  exact hstate

end EngineController

namespace MonitoredEngine

variable {lib : JsonLibrary} {s t : MonitoredEngine} {r : Reported}

theorem Step.wellFormed (hstep : Step lib s r t) (hs : s.controller.WellFormed) :
    t.controller.WellFormed := by
  obtain ⟨-, -, rfl, -⟩ := hstep
  cases r.action with
  | sessionEnd => exact hs
  | engine action ends => exact perform_wellFormed hs action

theorem Step.truthful_of_silent {action : EngineAction} {ends : Bool} (hstep : Step lib s r t)
    (haction : r.action = .engine action ends)
    (hsilent : Silent (s.controller.perform lib action)) :
    r.Truthful := by
  obtain ⟨-, -, -, hsent, -⟩ := hstep
  rintro ⟨message, hmem, hreport⟩
  rw [hsent, haction] at hmem
  exact absurd hreport (hsilent message hmem)

section Commands

variable {env : Environment} {client : IpcClientId} {line : ByteString} {msg : Json} {ends : Bool}

/-- A `get_status` during a capture. -/
theorem truthful_of_getStatus (hs : s.controller.WellFormed) (hstep : Step lib s r t)
    (haction : r.action = .engine (.command client line env) ends)
    (hparse : lib.parse line = .ok msg) (hcommand : acceptedCommand msg = some (ascii "get_status"))
    (hcap : s.controller.capturing = true) :
    r.Truthful ↔ s.stopped = false ∧ ends = false := by
  have hid := valid_commandId (lib.parse_validText hparse)
  obtain ⟨-, hafter, ht, hsent, -⟩ := hstep
  rw [haction] at ht hsent
  have hsession : (handleCommand lib env client line s.controller).controller.session =
      s.controller.session := by
    rcases handleCommand_cases env client hs hparse hcommand with
      hreplied | ⟨ex, c', events, hshape, heq⟩
    · generalize handleCommand lib env client line s.controller = h at hreplied
      cases hreplied with
      | answered _ _ _ hshape _ _ => exact hshape.session
      | configured _ _ hconfigure => exact absurd hconfigure (by decide)
      | started _ _ hstart => exact absurd hstart (by decide)
      | stopped _ hstop => exact absurd hstop (by decide)
    · rw [heq]
      exact hshape.session
  have hreports : ∃ message ∈ r.sent, ReportsCapturing message := by
    obtain ⟨message, hmem, hreport⟩ :
        ∃ message ∈ (handleGetStatus lib client (commandId msg) s.controller).sent,
          ReportsCapturing message := reports_getStatus hid hs hcap
    refine ⟨message, ?_, hreport⟩
    rw [hsent]
    change message ∈ (handleCommand lib env client line s.controller).sent
    rw [handleCommand_of_command hparse hcommand]
    have hdispatch : dispatch lib env client (ascii "get_status") (commandId msg) msg s.controller =
        handleGetStatus lib client (commandId msg) s.controller := rfl
    rw [hdispatch]
    unfold Handled.catching
    split
    · exact hmem
    · exact List.mem_append_left _ hmem
  have hstopped : t.stopped = (s.stopped || ends) := by
    have hsome := (hs.capturing.1 hcap).1
    rw [ht]
    have hstops : EngineAction.stopsSession lib (.command client line env) = false := by
      simp only [EngineAction.stopsSession, hparse, hcommand]
      decide
    simp only [perform, hstops]
    change ((handleCommand lib env client line s.controller).controller.session.isSome && _) = _
    rw [hsession, hsome]
    simp
  constructor
  · intro htruthful
    have hnot := htruthful hreports
    rwa [hafter, hstopped, Bool.or_eq_false_iff] at hnot
  · rintro hboth -
    rwa [hafter, hstopped, Bool.or_eq_false_iff]

/-- A `start_capture` of an idle engine. -/
theorem truthful_of_startCapture (hs : s.controller.WellFormed) (hstep : Step lib s r t)
    (haction : r.action = .engine (.command client line env) ends)
    (hparse : lib.parse line = .ok msg)
    (hcommand : acceptedCommand msg = some (ascii "start_capture"))
    (hidle : s.controller.capturing = false) : r.Truthful ↔ ends = false := by
  have hnone := (hs.idle hidle).1
  obtain ⟨-, hafter, ht, hsent, hend⟩ := hstep
  rw [haction] at ht hsent hend
  have hstopped : t.stopped = (t.controller.session.isSome && ends) := by
    rw [ht]
    simp [perform, hnone]
  constructor
  · intro htruthful
    cases ends with
    | false => rfl
    | true =>
      -- The session is there, so that the command has started and announced it.
      have hsome : t.controller.session.isSome = true := hend rfl
      have hcontroller :
          t.controller = (handleCommand lib env client line s.controller).controller := by
        rw [ht]
        rfl
      have hreports : ∃ message ∈ (handleCommand lib env client line s.controller).sent,
          ReportsCapturing message := by
        rw [hcontroller] at hsome
        rcases handleCommand_cases env client hs hparse hcommand with
          hreplied | ⟨ex, c', events, hshape, heq⟩
        · generalize handleCommand lib env client line s.controller = h at hreplied hsome
          cases hreplied with
          | answered _ _ _ hshape _ _ =>
            rw [hshape.session, hnone] at hsome
            cases hsome
          | configured _ _ hconfigure => exact absurd hconfigure (by decide)
          | started events session _ _ _ _ _ hcapturing =>
            obtain ⟨message, hmem, hreport⟩ := reports_announcement hcapturing
            exact ⟨message, List.mem_append_right _ hmem, hreport⟩
          | stopped _ hstop => exact absurd hstop (by decide)
        · rw [heq, hshape.session, hnone] at hsome
          cases hsome
      have hnot := htruthful (hsent ▸ hreports)
      rw [hafter, hstopped, hsome] at hnot
      cases hnot
  · rintro rfl -
    rw [hafter, hstopped, Bool.and_false]

end Commands

/-- A step that reports a capture reports the truth exactly if it is in time. -/
theorem truthful_iff_inTime (hs : s.controller.WellFormed) (hstep : Step lib s r t) :
    r.Truthful ↔ r.InTime lib := by
  have hbefore := hstep.1
  subst hbefore
  unfold Reported.InTime
  cases haction : r.action with
  | sessionEnd =>
    obtain ⟨-, -, -, hsent, -⟩ := hstep
    rw [haction] at hsent
    refine ⟨fun _ => trivial, fun _ => ?_⟩
    rintro ⟨message, hmem, -⟩
    rw [hsent] at hmem
    cases hmem
  | engine action ends =>
    cases action with
    | event event =>
      exact ⟨fun _ => trivial, fun _ => hstep.truthful_of_silent haction (silent_onEvent _ _)⟩
    | shutdown env =>
      exact ⟨fun _ => trivial, fun _ => hstep.truthful_of_silent haction (silent_shutdown _ _)⟩
    | command client line env =>
      have hquiet : (∀ msg, lib.parse line = .ok msg →
          (acceptedCommand msg = some (ascii "get_status") →
            r.before.controller.capturing = false) ∧
          (acceptedCommand msg = some (ascii "start_capture") →
            r.before.controller.capturing = true)) →
          r.Truthful :=
            fun h => hstep.truthful_of_silent haction (silent_handleCommand client line h)
      simp only
      cases hparse : lib.parse line with
      | error failure =>
        exact ⟨fun _ _ h => (nomatch h), fun _ => hquiet fun msg h => by simp [hparse] at h⟩
      | ok msg =>
        simp only [Except.ok.injEq, forall_eq']
        by_cases hstatus : acceptedCommand msg = some (ascii "get_status") ∧
            r.before.controller.capturing = true
        · obtain ⟨hcommand, hcap⟩ := hstatus
          rw [truthful_of_getStatus hs hstep haction hparse hcommand hcap]
          refine ⟨fun h => ⟨fun _ _ => h, fun hstart => ?_⟩, fun h => h.1 hcommand hcap⟩
          exact absurd (hcommand.symm.trans hstart) (by decide)
        by_cases hstart : acceptedCommand msg = some (ascii "start_capture") ∧
            r.before.controller.capturing = false
        · obtain ⟨hcommand, hidle⟩ := hstart
          rw [truthful_of_startCapture hs hstep haction hparse hcommand hidle]
          refine ⟨fun h => ⟨fun hget => ?_, fun _ _ => h⟩, fun h => h.2 hcommand hidle⟩
          exact absurd (hcommand.symm.trans hget) (by decide)
        refine ⟨fun _ => ⟨fun hcommand hcap => absurd ⟨hcommand, hcap⟩ hstatus,
          fun hcommand hidle => absurd ⟨hcommand, hidle⟩ hstart⟩,
          fun _ => hquiet fun msg' hmsg' => ?_⟩
        obtain rfl : msg = msg' := Except.ok.inj (hparse.symm.trans hmsg')
        constructor
        · intro hcommand
          rw [Bool.eq_false_iff]
          exact fun hcap => hstatus ⟨hcommand, hcap⟩
        · intro hcommand
          by_contra hidle
          exact hstart ⟨hcommand, by simpa using hidle⟩

end MonitoredEngine

open MonitoredEngine

/-- In every run all reports of a capture are true exactly if the engine is never asked for
its status when its session has stopped, and no session ends while it is being started. -/
theorem reports_truthful_iff (lib : JsonLibrary) {reports : List Reported} {s : MonitoredEngine}
    (hrun : Run (MonitoredEngine.Step lib) {} reports s) :
    (∀ r ∈ reports, r.Truthful) ↔ ∀ r ∈ reports, r.InTime lib := by
  have hsteps := hrun.trace_induction
    (P := fun (reports : List Reported) s => s.controller.WellFormed ∧
      ∀ r ∈ reports, (r.Truthful ↔ r.InTime lib)) ⟨wellFormed_initial, fun _ h => (nomatch h)⟩ ?_
  · exact forall₂_congr hsteps.2
  · rintro reports s r t - ⟨hs, hall⟩ hstep
    refine ⟨hstep.wellFormed hs, fun r' hr' => ?_⟩
    rcases List.mem_append.1 hr' with hr' | hr'
    · exact hall r' hr'
    · rw [List.mem_singleton] at hr'
      subst hr'
      exact truthful_iff_inTime hs hstep

def statusLine : ByteString := ascii "\x7b\"command\":\"get_status\"\x7d"

def getStatus : Json := .object [(ascii "command", .string (ascii "get_status"))]

/-- The library on the lines of a short session. -/
def statusLibrary : JsonLibrary :=
  .ofTable [(configureLine, .ok (udpConfigure 9000)), (startLine, .ok startCapture),
    (statusLine, .ok getStatus)] (by decide)

/-- The steps these actions are. -/
def reportsOf (lib : JsonLibrary) : MonitoredEngine → List MonitoredAction → List Reported
  | _, [] => []
  | s, a :: as =>
    ⟨s, a, (s.perform lib a).2, (s.perform lib a).1⟩ :: reportsOf lib (s.perform lib a).1 as

theorem run_reportsOf (lib : JsonLibrary) (s : MonitoredEngine) (actions : List MonitoredAction)
    (hend : ∀ r ∈ reportsOf lib s actions, r.after.CanEnd r.action) :
    ∃ t, Run (MonitoredEngine.Step lib) s (reportsOf lib s actions) t := by
  induction actions generalizing s with
  | nil => exact ⟨s, .nil s⟩
  | cons a as ih =>
    obtain ⟨t, hrun⟩ := ih _ fun r hr => hend r (List.mem_cons_of_mem _ hr)
    exact ⟨t, .cons ⟨rfl, rfl, rfl, rfl, hend _ List.mem_cons_self⟩ hrun⟩

/-- A capture is started, and the engine is asked for its status. -/
def askedInTime : List MonitoredAction :=
  [.engine (.command 1 configureLine {}) false, .engine (.command 1 startLine {}) false,
    .engine (.command 2 statusLine {}) false]

/-- The session ends, and the engine is asked once more. -/
def askedTooLate : List MonitoredAction :=
  askedInTime ++ [.sessionEnd, .engine (.command 2 statusLine {}) false]

theorem stale_capture_reported :
    ∃ s, Run (MonitoredEngine.Step statusLibrary) {} (reportsOf statusLibrary {} askedTooLate) s ∧
      ¬ ∀ r ∈ reportsOf statusLibrary {} askedTooLate, r.Truthful := by
  have hreports : (∀ r ∈ reportsOf statusLibrary {} askedTooLate, r.after.CanEnd r.action) ∧
      ¬ ∀ r ∈ reportsOf statusLibrary {} askedTooLate, r.Truthful := by decide +kernel
  obtain ⟨s, hrun⟩ := run_reportsOf statusLibrary {} askedTooLate hreports.1
  exact ⟨s, hrun, hreports.2⟩

theorem inTime_askedInTime :
    (reportsOf statusLibrary {} askedInTime).length = askedInTime.length ∧
      ∀ r ∈ reportsOf statusLibrary {} askedInTime, r.InTime statusLibrary := by
  have hreports : (∀ r ∈ reportsOf statusLibrary {} askedInTime, r.after.CanEnd r.action) ∧
      ∀ r ∈ reportsOf statusLibrary {} askedInTime, r.Truthful := by decide +kernel
  obtain ⟨s, hrun⟩ := run_reportsOf statusLibrary {} askedInTime hreports.1
  exact ⟨rfl, (reports_truthful_iff statusLibrary hrun).1 hreports.2⟩

end PacketProbe
