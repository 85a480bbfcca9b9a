import PacketProbe.ViewerSystem

/-!
# Viewers agree with the engine at rest

A viewer that has received all that is in flight shows the engine's state, unless its own
start is pending. Every step keeps this, as long as the engine reads no `configure` and
no `start_capture` while it captures: a start that fails for that reason leaves the
viewer with the state from before.
-/

namespace PacketProbe
open TransitionRuns EngineController MainWindow

/-- The `command` a pending command was sent with. -/
def Intent.name : Intent → ByteString
  | .configure => ascii "configure"
  | .startCapture => ascii "start_capture"
  | .stopCapture => ascii "stop_capture"
  | .getStatus => ascii "get_status"
  | .send => ascii "send"
  | .listSerialPorts => ascii "list_serial_ports"

theorem isCommand_commandMessage (command id : ByteString) (config : Option Json) :
    IsCommand (commandMessage command id config) command := by
  cases config with
  | none => exact ⟨rfl, fun text h => (Json.string.inj (Option.some.inj h)).symm, rfl⟩
  | some config => exact ⟨rfl, fun text h => (Json.string.inj (Option.some.inj h)).symm, rfl⟩

theorem commandId_commandMessage (command id : ByteString) (config : Option Json) :
    commandId (commandMessage command id config) = id := by
  cases config <;> rfl

theorem isStart_of_command {msg : Json} {intent : Intent} (hcommand : IsCommand msg intent.name)
    (hstart : IsCommand msg (ascii "configure") ∨ IsCommand msg (ascii "start_capture")) :
    intent.isStart = true := by
  have hname : ∀ command, IsCommand msg command → intent.name = command := fun command h =>
    Json.string.inj (Option.some.inj (hcommand.command.symm.trans h.command))
  have hstart := hstart.imp (hname _) (hname _)
  revert hstart
  cases intent <;> decide

/-! ### What the engine sends -/

/-- The engine's answer to a command of the controls: nothing, a refusal that changes
nothing, or the announcement of the state it is in now. -/
inductive Answer (c : EngineController) (client : IpcClientId) (id : ByteString) : Handled → Prop
  | lost {c' : EngineController} (events : List PacketEvent) (thrown : Option StdException)
      (hsame : c'.capturing = c.capturing) : Answer c client id ⟨c', broadcasts events, thrown⟩
  | refused {c' : EngineController} (events : List PacketEvent) (value : Json)
      (hsame : c'.capturing = c.capturing) (hresult : IsResult id false value) :
      Answer c client id ⟨c', broadcasts events ++ [.toClient client value], none⟩
  | announced {c' : EngineController} (events : List PacketEvent) :
      Answer c client id ⟨c', broadcasts events ++ announcement client id c', none⟩

section

variable {lib : JsonLibrary} {env : Environment} {c : EngineController} {client other : IpcClientId}
  {msg : Json} {intent : Intent} {h : Handled} {id : ByteString}

theorem name_mem_stateCommands (hintent : intent.ofControls = true) :
    intent.name ∈ stateCommands := by
  cases intent with
  | configure => simp [stateCommands, Intent.name]
  | startCapture => simp [stateCommands, Intent.name]
  | stopCapture => simp [stateCommands, Intent.name]
  | getStatus => cases hintent
  | send => cases hintent
  | listSerialPorts => cases hintent

theorem answer_of_command (env : Environment) (client : IpcClientId) {line : ByteString}
    (hc : c.WellFormed) (hparse : lib.parse line = .ok msg) (hcommand : IsCommand msg intent.name)
    (hintent : intent.ofControls = true) :
    Answer c client (commandId msg) (handleCommand lib env client line c) := by
  rcases handleCommand_cases env client hc hparse (acceptedCommand_eq_some_iff.2 hcommand) with
    hreplied | ⟨ex, c', events, hshape, heq⟩
  · generalize handleCommand lib env client line c = h at hreplied
    cases hreplied with
    | answered events value ok hshape hresult hnot =>
      cases ok with
      | false => exact .refused events value hshape.capturing hresult
      | true => exact absurd (name_mem_stateCommands hintent) (hnot rfl)
    | configured => exact .announced []
    | started events => exact .announced events
    | stopped events => exact .announced events
  · rw [heq]
    exact .lost events (some ex) hshape.capturing

theorem filter_broadcasts (client : IpcClientId) (events : List PacketEvent) :
    (broadcasts events).filter (isFor client) = broadcasts events := by
  rw [List.filter_eq_self]
  intro message hmessage
  obtain ⟨event, -, rfl⟩ := List.mem_map.1 hmessage
  rfl

theorem filter_own (client : IpcClientId) (value : Json) :
    [Sent.toClient client value].filter (isFor client) = [.toClient client value] := by
  simp [isFor]

theorem settle_broadcasts (w : MainWindow) (events : List PacketEvent) :
    w.settle (broadcasts events) = w := by
  induction events with
  | nil => rfl
  | cons event events ih => exact ih

theorem Link.receive_append (viewer : IpcClientId) (sent more : List Sent) (l : Link) :
    l.receive viewer (sent ++ more) = (l.receive viewer sent).receive viewer more := by
  simp [Link.receive]

/-! ### What a window makes of it -/

/-- The window shows this state, unless its own start is pending. -/
def Agrees (capturing : Bool) (w : MainWindow) : Prop :=
  w.startingCapture = false → w.engineState = shownState capturing

variable {w : MainWindow} {capturing : Bool} {value : Json}

/-- A status brings every window up to date that is not starting. -/
theorem agrees_status (c : EngineController) (w : MainWindow) :
    Agrees c.capturing (w.onMessage (.broadcastRaw c.statusMessage)).1 := by
  rw [onMessage_status]
  by_cases hstarting : w.startingCapture = true
  · rw [if_pos hstarting]
    exact fun h => absurd (hstarting.symm.trans h) (by decide)
  · rw [if_neg hstarting]
    exact fun _ => rfl

/-- A refusal leaves a window in agreement, if what it refuses is not a start because the
engine captures. -/
theorem agrees_refused (hw : w.Consistent) (hid : w.pendingCommands.lookup id = some intent)
    (hidle : intent.isStart = true → capturing = false) (hagrees : Agrees capturing w)
    (hresult : IsResult id false value) (client : IpcClientId) :
    Agrees capturing (w.onMessage (.toClient client value)).1 := by
  have hstart : intent.isStart = true → w.engineState = shownState capturing := by
    intro hintent
    rw [hidle hintent]
    exact hw.idle (hw.bookkeeping.starting.2 ⟨id, intent, hid, hintent⟩)
  rw [onMessage_result hresult, hid]
  cases intent with
  | configure => exact fun _ => hstart rfl
  | startCapture => exact fun _ => hstart rfl
  | _ => exact hagrees

/-- A start refused while the engine captures leaves the window showing an idle engine. -/
theorem shows_idle_of_refused_start (hw : w.Consistent)
    (hid : w.pendingCommands.lookup id = some intent) (hintent : intent.isStart = true)
    (hresult : IsResult id false value) (client : IpcClientId) :
    (w.onMessage (.toClient client value)).1.startingCapture = false ∧
      (w.onMessage (.toClient client value)).1.engineState = shownState false := by
  have hshown := hw.idle (hw.bookkeeping.starting.2 ⟨id, intent, hid, hintent⟩)
  rw [onMessage_result hresult, hid]
  cases intent with
  | configure => exact ⟨rfl, hshown⟩
  | startCapture => exact ⟨rfl, hshown⟩
  | _ => cases hintent

end

/-! ### The channels -/

/-- What is in flight between a viewer and the engine: commands that are pending and not
answered, each with an id of its own, and messages of the engine. -/
structure Channels (viewer : IpcClientId) (pending : AList fun _ : ByteString => Intent) (next : ℕ)
    (toEngine : List Json) (toViewer : List Sent) : Prop where
  incoming : ∀ message ∈ toViewer, Incoming viewer next message
  outgoing : ∀ msg ∈ toEngine, ∃ k < next, ∃ intent, IsCommand msg intent.name ∧
    commandId msg = commandIdOf k ∧ pending.lookup (commandIdOf k) = some intent ∧
    ∀ message ∈ toViewer, ¬ Answers k message
  distinct : (toEngine.map commandId).Nodup

namespace Channels

variable {viewer : IpcClientId} {pending pending' : AList fun _ : ByteString => Intent} {next : ℕ}
  {toEngine : List Json} {toViewer : List Sent} {msg : Json} {message : Sent}

/-- The viewer sends a command. -/
theorem send (h : Channels viewer pending next toEngine toViewer) (intent : Intent)
    (hsame : ∀ k < next, pending'.lookup (commandIdOf k) = pending.lookup (commandIdOf k))
    (hnew : pending'.lookup (commandIdOf next) = some intent) (hcommand : IsCommand msg intent.name)
    (hid : commandId msg = commandIdOf next) :
    Channels viewer pending' (next + 1) (toEngine ++ [msg]) toViewer := by
  refine ⟨fun m hm => (h.incoming m hm).mono (Nat.le_succ _), fun m hm => ?_, ?_⟩
  · rcases List.mem_append.1 hm with hold | hlast
    · obtain ⟨k, hk, intent', hcommand', hid', hlookup, hnot⟩ := h.outgoing m hold
      exact ⟨k, Nat.lt_succ_of_lt hk, intent', hcommand', hid', (hsame k hk).trans hlookup, hnot⟩
    · rw [List.mem_singleton.1 hlast]
      exact ⟨next, Nat.lt_succ_self _, intent, hcommand, hid, hnew, fun m' hm' =>
        not_answers_of_incoming (h.incoming m' hm')⟩
  · rw [List.map_append, List.nodup_append]
    refine ⟨h.distinct, by simp, ?_⟩
    rintro _ hmem last hlast
    obtain ⟨m, hm, rfl⟩ := List.mem_map.1 hmem
    obtain ⟨k, hk, -, -, hid', -⟩ := h.outgoing m hm
    have heq : last = commandIdOf next := by simpa [hid] using hlast
    rw [hid', heq]
    exact commandIdOf_ne hk

/-- The viewer receives a message. -/
theorem received (h : Channels viewer pending next toEngine (message :: toViewer))
    (hsame : ∀ k < next, ¬ Answers k message →
      pending'.lookup (commandIdOf k) = pending.lookup (commandIdOf k)) :
    Channels viewer pending' next toEngine toViewer := by
  refine ⟨fun m hm => h.incoming m (by simp [hm]), fun m hm => ?_, h.distinct⟩
  obtain ⟨k, hk, intent, hcommand, hid, hlookup, hnot⟩ := h.outgoing m hm
  refine ⟨k, hk, intent, hcommand, hid, ?_, fun m' hm' => hnot m' (by simp [hm'])⟩
  exact (hsame k hk (hnot message (by simp))).trans hlookup

/-- The engine reads a command. -/
theorem read (h : Channels viewer pending next (msg :: toEngine) toViewer) :
    Channels viewer pending next toEngine toViewer :=
  ⟨h.incoming, fun m hm => h.outgoing m (by simp [hm]), (List.nodup_cons.1 h.distinct).2⟩

/-- The engine sends messages that answer no command it has not read. -/
theorem append (h : Channels viewer pending next toEngine toViewer) {messages : List Sent}
    (hmessages : ∀ message ∈ messages, Incoming viewer next message)
    (hnot : ∀ message ∈ messages, ∀ k, Answers k message → commandIdOf k ∉ toEngine.map commandId) :
    Channels viewer pending next toEngine (toViewer ++ messages) := by
  refine ⟨fun m hm => ?_, fun msg hmsg => ?_, h.distinct⟩
  · rcases List.mem_append.1 hm with hold | hnew
    · exact h.incoming m hold
    · exact hmessages m hnew
  · obtain ⟨k, hk, intent, hcommand, hid, hlookup, hold⟩ := h.outgoing msg hmsg
    refine ⟨k, hk, intent, hcommand, hid, hlookup, fun m hm hanswers => ?_⟩
    rcases List.mem_append.1 hm with hm | hm
    · exact hold m hm hanswers
    · exact hnot m hm k hanswers (hid ▸ List.mem_map_of_mem hmsg)

end Channels

/-! ### One viewer -/

/-- A window that keeps its invariant, and agrees with the engine once it has received
what is in flight. -/
structure InSync (viewer : IpcClientId) (capturing : Bool) (l : Link) : Prop where
  window : l.window.Consistent
  channels : Channels viewer l.window.pendingCommands l.window.nextCommandId l.toEngine l.toViewer
  agrees : Agrees capturing (l.window.settle l.toViewer)

namespace InSync

variable {viewer : IpcClientId} {capturing capturing' : Bool} {l : Link} {msg : Json}
  {message : Sent} {rest : List Json} {messages : List Sent}

theorem startCapture (hl : InSync viewer capturing l) (henabled : l.window.startEnabled = true)
    (config : Json) :
    InSync viewer capturing { l with
      window := (l.window.startCapture config).1
      toEngine := l.toEngine ++ [(l.window.startCapture config).2] } := by
  have hwindow := hl.window.startCapture henabled config
  refine ⟨hwindow, ?_, fun hstarting => ?_⟩
  · exact hl.channels.send .configure (fun k hk => AList.lookup_insert_ne (commandIdOf_ne hk))
      (AList.lookup_insert _) (isCommand_commandMessage _ _ _) (commandId_commandMessage _ _ _)
  · -- Nothing in flight answers the command just sent, so the window is still starting.
    have hlookup := settle_lookup (w := (l.window.startCapture config).1) hl.channels.incoming
      (k := l.window.nextCommandId) (Nat.lt_succ_self _)
      fun m hm => not_answers_of_incoming (hl.channels.incoming m hm)
    have hpending := hlookup.trans (AList.lookup_insert _)
    have hsettled := hwindow.settle hl.channels.incoming
    exact absurd (hstarting.symm.trans (hsettled.bookkeeping.starting.2 ⟨_, _, hpending, rfl⟩))
      (by decide)

theorem stopCapture (hl : InSync viewer capturing l) :
    InSync viewer capturing { l with
      window := l.window.stopCapture.1, toEngine := l.toEngine ++ [l.window.stopCapture.2] } := by
  refine ⟨hl.window.stopCapture, ?_, fun hstarting => ?_⟩
  · exact hl.channels.send .stopCapture (fun k hk => AList.lookup_insert_ne (commandIdOf_ne hk))
      (AList.lookup_insert _) (isCommand_commandMessage _ _ _) (commandId_commandMessage _ _ _)
  · have hview := (sameView_stopCapture l.window).settle hl.channels.incoming
    exact hview.shown.trans (hl.agrees (hview.starting.symm.trans hstarting))

theorem deliver (hl : InSync viewer capturing l) (hqueue : l.toViewer = message :: messages) :
    InSync viewer capturing ⟨(l.window.onMessage message).1,
      l.toEngine ++ (l.window.onMessage message).2, messages⟩ := by
  have hchannels := hl.channels
  rw [hqueue] at hchannels
  have hmessage := hchannels.incoming message (by simp)
  have hrest := hchannels.received fun k hk hnot => (onMessage_lookup hmessage hk hnot).1
  refine ⟨hl.window.onMessage hmessage, ?_, ?_⟩
  · rcases onMessage_sends hmessage l.window with ⟨hsent, hnext⟩ | ⟨hsent, hnext, hlookup⟩
    · simpa only [hsent, hnext, List.append_nil] using hrest
    · simp only [hsent, hnext]
      exact hrest.send .startCapture (fun _ _ => rfl) hlookup (isCommand_commandMessage _ _ _)
        (commandId_commandMessage _ _ _)
  · have hagrees := hl.agrees
    rw [hqueue] at hagrees
    exact hagrees

theorem read (hl : InSync viewer capturing l) (hqueue : l.toEngine = msg :: rest) :
    InSync viewer capturing { l with toEngine := rest } :=
  ⟨hl.window, (hqueue ▸ hl.channels).read, hl.agrees⟩

theorem append (hl : InSync viewer capturing l)
    (hmessages : ∀ message ∈ messages, Incoming viewer l.window.nextCommandId message)
    (hnot : ∀ message ∈ messages, ∀ k, Answers k message → commandIdOf k ∉ l.toEngine.map commandId)
    (hagrees : Agrees capturing' ((l.window.settle l.toViewer).settle messages)) :
    InSync viewer capturing' { l with toViewer := l.toViewer ++ messages } := by
  refine ⟨hl.window, hl.channels.append hmessages hnot, ?_⟩
  rw [settle_append]
  exact hagrees

variable {c : EngineController} {client : IpcClientId} {id : ByteString} {h : Handled}

theorem event_of_mem_broadcasts {events : List PacketEvent}
    (hmessage : message ∈ broadcasts events) :
    ∃ event, message = .broadcast event := by
  obtain ⟨event, -, heq⟩ := List.mem_map.1 hmessage
  exact ⟨event, heq.symm⟩

theorem receive_events (hl : InSync viewer capturing l) (events : List PacketEvent) :
    InSync viewer capturing (l.receive viewer (broadcasts events)) := by
  rw [Link.receive, filter_broadcasts]
  refine hl.append (fun m hm => ?_) (fun m hm k hanswers => ?_) ?_
  · obtain ⟨event, rfl⟩ := event_of_mem_broadcasts hm
    exact .event event
  · obtain ⟨event, rfl⟩ := event_of_mem_broadcasts hm
    obtain ⟨receiver, value, heq, -⟩ := hanswers
    cases heq
  · rw [settle_broadcasts]
    exact hl.agrees

theorem receive_status (hl : InSync viewer capturing l) (c : EngineController) :
    InSync viewer c.capturing (l.receive viewer [.broadcastRaw c.statusMessage]) := by
  refine hl.append (fun m hm => ?_) (fun m hm k hanswers => ?_) (agrees_status c _)
  · rw [List.mem_singleton.1 hm]
    exact .status c
  · rw [List.mem_singleton.1 hm] at hanswers
    obtain ⟨receiver, value, heq, -⟩ := hanswers
    cases heq

/-- The viewer's own result, of a command the engine has read. -/
theorem receive_result {value : Json} {ok : Bool} {k : ℕ} (hl : InSync viewer capturing l)
    (hk : k < l.window.nextCommandId) (hread : commandIdOf k ∉ l.toEngine.map commandId)
    (hresult : IsResult (commandIdOf k) ok value)
    (hagrees :
      Agrees capturing' ((l.window.settle l.toViewer).onMessage (.toClient viewer value)).1) :
    InSync viewer capturing' (l.receive viewer [.toClient viewer value]) := by
  rw [Link.receive, filter_own]
  refine hl.append (fun m hm => ?_) (fun m hm k' hanswers => ?_) hagrees
  · rw [List.mem_singleton.1 hm]
    exact .result k hk ok value hresult
  · rw [List.mem_singleton.1 hm] at hanswers
    obtain ⟨receiver, value', heq, hid⟩ := hanswers
    cases heq
    rw [hresult.id] at hid
    rwa [← Json.string.inj (Option.some.inj hid)]

/-- An answer for another viewer: its announcement brings this one up to date. -/
theorem receive_other (hl : InSync viewer c.capturing l) (hne : client ≠ viewer)
    (hanswer : Answer c client id h) :
    InSync viewer h.controller.capturing (l.receive viewer h.sent) := by
  have hskip : ∀ (value : Json) (l : Link), l.receive viewer [.toClient client value] = l := by
    intro value l
    simp [Link.receive, isFor, hne]
  cases hanswer with
  | lost events thrown hsame => exact hsame ▸ hl.receive_events events
  | refused events value hsame hresult =>
    rw [Link.receive_append, hskip]
    exact hsame ▸ hl.receive_events events
  | announced events =>
    rw [Link.receive_append, announcement, ← List.singleton_append, Link.receive_append, hskip]
    exact (hl.receive_events events).receive_status _

/-- The answer for the viewer whose command was read. -/
theorem receive_own {k : ℕ} {intent : Intent} (hl : InSync viewer c.capturing l)
    (hk : k < l.window.nextCommandId) (hread : commandIdOf k ∉ l.toEngine.map commandId)
    (hpending : l.window.pendingCommands.lookup (commandIdOf k) = some intent)
    (hunanswered : ∀ message ∈ l.toViewer, ¬ Answers k message)
    (hidle : intent.isStart = true → c.capturing = false)
    (hanswer : Answer c viewer (commandIdOf k) h) :
    InSync viewer h.controller.capturing (l.receive viewer h.sent) := by
  cases hanswer with
  | lost events thrown hsame => exact hsame ▸ hl.receive_events events
  | refused events value hsame hresult =>
    rw [Link.receive_append]
    have hevents := hl.receive_events events
    have hsettled : (l.receive viewer (broadcasts events)).window.settle
        (l.receive viewer (broadcasts events)).toViewer = l.window.settle l.toViewer := by
      simp only [Link.receive, filter_broadcasts, settle_append, settle_broadcasts]
    refine hevents.receive_result hk hread hresult ?_
    rw [hsettled, hsame]
    exact agrees_refused (hl.window.settle hl.channels.incoming)
      ((settle_lookup hl.channels.incoming hk hunanswered).trans hpending) hidle hl.agrees hresult
        viewer
  | announced events =>
    rw [Link.receive_append, announcement, ← List.singleton_append, Link.receive_append]
    have hevents := hl.receive_events events
    have hresult : IsResult (commandIdOf k) true (resultMessage (commandIdOf k) true []) :=
      isResult_cons _ _ _
    have hincoming : Incoming viewer l.window.nextCommandId
        (.toClient viewer (resultMessage (commandIdOf k) true [])) := .result k hk true _ hresult
    have hwindow := (hevents.window.settle hevents.channels.incoming).onMessage hincoming
    -- Whatever the window shows behind the result, the status that follows corrects it.
    obtain ⟨shown, hshown⟩ := hwindow.known
    exact (hevents.receive_result hk hread hresult fun _ => hshown).receive_status _

end InSync

theorem Attached.inSync {c : EngineController} {l : Link} (h : Attached c l.window)
    (htoEngine : l.toEngine = []) (htoViewer : l.toViewer = []) (viewer : IpcClientId) :
    InSync viewer c.capturing l := by
  have hnone : ∀ id, l.window.pendingCommands.lookup id = none := by
    intro id
    rw [h.pending]
    exact AList.lookup_empty id
  have hshown : l.window.engineState = shownState c.capturing := h.shown
  refine ⟨⟨⟨?_, fun n _ => hnone _, ?_, ?_⟩, ⟨_, hshown⟩, ?_, ?_, ?_, ?_⟩, ?_, ?_⟩
  · simp [hnone]
  · simp [hnone, h.starting]
  · simp [hnone]
  · simp [h.starting]
  · rw [h.start, h.starting, hshown]
    intro henabled
    exact ⟨rfl, congrArg shownState (by simpa using henabled)⟩
  · rw [h.stop, hshown]
    exact fun henabled => congrArg shownState henabled
  · rw [h.stop, hshown]
    exact fun hcapturing => .inl (shownState_inj hcapturing)
  · rw [htoEngine, htoViewer]
    exact ⟨by simp, by simp, by simp⟩
  · rw [htoViewer]
    exact fun _ => hshown

namespace ViewerSystem

variable {lib : JsonLibrary} {connected : Finset IpcClientId} {s t : ViewerSystem}
  {a : ViewerAction}
  {viewer : IpcClientId} {l : Link} {h : Handled}

/-- The invariant of the system. -/
structure Inv (connected : Finset IpcClientId) (s : ViewerSystem) : Prop where
  engine : s.engine.WellFormed
  viewers : ∀ viewer ∈ connected, InSync viewer s.engine.capturing (s.links viewer)

theorem Initial.inv (hs : s.Initial lib connected) : s.Inv connected :=
  ⟨hs.engine.wellFormed, fun viewer hviewer =>
    (hs.attached viewer hviewer).inSync (hs.toEngine viewer hviewer)
      (hs.toViewer viewer hviewer) viewer⟩

theorem Inv.setLink (hs : s.Inv connected) (hl : InSync viewer s.engine.capturing l) :
    (s.setLink viewer l).Inv connected := by
  refine ⟨hs.engine, fun other hother => ?_⟩
  by_cases heq : other = viewer
  · rw [heq]
    simpa only [ViewerSystem.setLink, Function.update_self] using hl
  · simpa only [ViewerSystem.setLink, Function.update_of_ne heq] using hs.viewers other hother

theorem Inv.distribute_events (hs : s.Inv connected) (event : PacketEvent) :
    (s.distribute (onEvent event s.engine)).Inv connected := by
  obtain ⟨hshape, events, hsent⟩ := onEvent_onlyEvents s.engine event
  refine ⟨hshape.wellFormed hs.engine, fun viewer hviewer => ?_⟩
  simp only [ViewerSystem.distribute, hsent, hshape.capturing]
  exact (hs.viewers viewer hviewer).receive_events events

/-- The engine reads the next command of a viewer. -/
theorem Inv.handle (hs : s.Inv connected) (hviewer : viewer ∈ connected) {msg : Json}
    {rest : List Json} (hqueue : (s.links viewer).toEngine = msg :: rest) {line : ByteString}
    (hparse : lib.parse line = .ok msg) (env : Environment)
    (hidle : IsCommand msg (ascii "configure") ∨ IsCommand msg (ascii "start_capture") →
      s.engine.capturing = false) :
    ((s.setLink viewer { s.links viewer with toEngine := rest }).distribute
      (handleCommand lib env viewer line s.engine)).Inv connected := by
  have hl := hs.viewers viewer hviewer
  have hread := hs.setLink (hl.read hqueue)
  have hchannels := hl.channels
  rw [hqueue] at hchannels
  obtain ⟨k, hk, intent, hcommand, hid, hpending, hunanswered⟩ := hchannels.outgoing msg (by simp)
  have hcontrols := hl.window.bookkeeping.ofControls _ _ hpending
  have hanswer := answer_of_command env viewer hs.engine hparse hcommand hcontrols
  have hfresh : commandIdOf k ∉ rest.map commandId := by
    rw [← hid]
    exact (List.nodup_cons.1 hchannels.distinct).1
  have hstart : intent.isStart = true → s.engine.capturing = false := by
    intro hintent
    cases intent with
    | configure => exact hidle (.inl hcommand)
    | startCapture => exact hidle (.inr hcommand)
    | _ => cases hintent
  refine ⟨handleCommand_wellFormed hs.engine viewer line, fun other hother => ?_⟩
  have hother := hread.viewers other hother
  by_cases heq : other = viewer
  · subst heq
    simp only [ViewerSystem.setLink, Function.update_self] at hother
    simp only [ViewerSystem.distribute, ViewerSystem.setLink, Function.update_self]
    exact hother.receive_own hk hfresh hpending hunanswered hstart (hid ▸ hanswer)
  · exact hother.receive_other (Ne.symm heq) hanswer

theorem Inv.step (hs : s.Inv connected) (hidle : StartsWhileIdle lib s a)
    (hstep : s.Step lib connected a t) : t.Inv connected := by
  cases a with
  | pressStart viewer config =>
    simp only [Step, perform, Option.ite_none_right_eq_some] at hstep
    obtain ⟨⟨hviewer, henabled⟩, heq⟩ := hstep
    cases heq
    exact hs.setLink ((hs.viewers viewer hviewer).startCapture henabled config)
  | pressStop viewer =>
    simp only [Step, perform, Option.ite_none_right_eq_some] at hstep
    obtain ⟨⟨hviewer, -⟩, heq⟩ := hstep
    cases heq
    exact hs.setLink (hs.viewers viewer hviewer).stopCapture
  | handle viewer line env =>
    simp only [Step, perform] at hstep
    split at hstep
    · rename_i msg rest parsed hqueue hparse
      simp only [Option.ite_none_right_eq_some] at hstep
      obtain ⟨⟨hviewer, rfl⟩, heq⟩ := hstep
      cases heq
      have hread : parsed ∈ messageRead lib (.handle viewer line env) := by
        simp [messageRead, hparse, Except.toOption]
      exact hs.handle hviewer hqueue hparse env (hidle parsed hread)
    · cases hstep
  | deliver viewer =>
    simp only [Step, perform] at hstep
    split at hstep
    · cases hstep
    · rename_i message rest hqueue
      simp only [Option.ite_none_right_eq_some] at hstep
      obtain ⟨hviewer, heq⟩ := hstep
      cases heq
      exact hs.setLink ((hs.viewers viewer hviewer).deliver hqueue)
  | event event =>
    cases hstep
    exact hs.distribute_events event

theorem inv_run {s₀ : ViewerSystem} {actions : List ViewerAction}
    (hinitial : s₀.Initial lib connected)
    (hrun : Run (Guarded (Step lib connected) (StartsWhileIdle lib)) s₀ actions s) :
    s.Inv connected :=
  hrun.invariant (fun _ _ _ hs hstep => hs.step hstep.1 hstep.2) hinitial.inv

/-- A start read while the engine captures is refused. -/
theorem refused_of_capturing (viewer : IpcClientId) {c : EngineController} {intent : Intent}
    {line : ByteString} {msg : Json}
    (hc : c.WellFormed) (hcapturing : c.capturing = true) (hparse : lib.parse line = .ok msg)
    (hcommand : IsCommand msg intent.name) (hintent : intent.isStart = true) (env : Environment) :
    ∃ c' events value, c'.capturing = true ∧ IsResult (commandId msg) false value ∧
      handleCommand lib env viewer line c =
        ⟨c', broadcasts events ++ [.toClient viewer value], none⟩ := by
  have hnothing : raisedBy lib env c intent.name msg = none := by
    cases intent with
    | configure => simp [raisedBy, raisedByConfigure, Intent.name, hcapturing]
    | startCapture => rfl
    | _ => cases hintent
  have hreplied := (handleCommand_replies env viewer hc hparse
    (acceptedCommand_eq_some_iff.2 hcommand)).1 (by simp [hnothing])
  generalize handleCommand lib env viewer line c = h at hreplied
  cases hreplied with
  | configured _ _ _ hidle => exact absurd (hidle.symm.trans hcapturing) (by decide)
  | started _ _ _ hidle => exact absurd (hidle.symm.trans hcapturing) (by decide)
  | stopped _ hstop =>
    cases intent with
    | configure => exact absurd hstop (by decide)
    | startCapture => exact absurd hstop (by decide)
    | _ => cases hintent
  | answered events value ok hshape hresult hnot =>
    cases ok with
    | false => exact ⟨_, events, value, hshape.capturing.trans hcapturing, hresult, rfl⟩
    | true =>
      cases intent with
      | configure => exact absurd (by decide) (hnot rfl)
      | startCapture => exact absurd (by decide) (hnot rfl)
      | _ => cases hintent

/-- A step without the condition: the engine captures behind it, and there is a viewer
that will show an idle engine when it has received all that is in flight. -/
theorem Inv.disagrees (hs : s.Inv connected) (hbreaks : ¬ StartsWhileIdle lib s a)
    (hstep : s.Step lib connected a t) :
    t.engine.capturing = true ∧ ∃ viewer ∈ connected,
      ((t.links viewer).window.settle (t.links viewer).toViewer).startingCapture = false ∧
      ((t.links viewer).window.settle (t.links viewer).toViewer).engineState =
        shownState false := by
  simp only [StartsWhileIdle, not_forall, Bool.not_eq_false] at hbreaks
  obtain ⟨msg, hread, hstart, hcapturing⟩ := hbreaks
  cases a with
  | pressStart viewer config => cases hread
  | pressStop viewer => cases hread
  | deliver viewer => cases hread
  | event event => cases hread
  | handle viewer line env =>
    simp only [Step, perform] at hstep
    split at hstep
    · rename_i msg' rest parsed hqueue hparse
      simp only [messageRead, hparse, Except.toOption, Option.mem_def, Option.some.injEq] at hread
      subst hread
      simp only [Option.ite_none_right_eq_some] at hstep
      obtain ⟨⟨hviewer, rfl⟩, heq⟩ := hstep
      cases heq
      have hl := hs.viewers viewer hviewer
      have hchannels := hl.channels
      rw [hqueue] at hchannels
      obtain ⟨k, hk, intent, hcommand, hid, hpending, hunanswered⟩ :=
        hchannels.outgoing parsed (by simp)
      have hintent : intent.isStart = true := isStart_of_command hcommand hstart
      obtain ⟨c', events, value, hstill, hresult, hhandled⟩ :=
        refused_of_capturing viewer hs.engine hcapturing hparse hcommand hintent env
      have hsettled := (settle_lookup hl.channels.incoming hk hunanswered).trans hpending
      rw [hid] at hresult
      simp only [EngineController.perform, hhandled, ViewerSystem.distribute, ViewerSystem.setLink]
      refine ⟨hstill, viewer, hviewer, ?_⟩
      simp only [Function.update_self, Link.receive, List.filter_append, filter_broadcasts,
        filter_own, settle_append, settle_broadcasts]
      exact shows_idle_of_refused_start (hl.window.settle hl.channels.incoming) hsettled hintent
        hresult viewer
    · cases hstep

theorem Inv.agrees_at_rest (hs : s.Inv connected) (hrest : s.AtRest connected)
    {viewer : IpcClientId} (hviewer : viewer ∈ connected) :
    (s.links viewer).window.engineState = .string s.engine.engineState ∧
      ((s.links viewer).window.stopEnabled = true ↔ s.engine.capturing = true) := by
  obtain ⟨hwindow, -, hagrees⟩ := hs.viewers viewer hviewer
  have hnone : ∀ id, (s.links viewer).window.pendingCommands.lookup id = none := by
    intro id
    rw [hrest.pending viewer hviewer]
    exact AList.lookup_empty id
  have hstarting : (s.links viewer).window.startingCapture = false := by
    rw [← Bool.not_eq_true]
    intro h
    obtain ⟨id, intent, hpending, -⟩ := hwindow.bookkeeping.starting.1 h
    rw [hnone] at hpending
    cases hpending
  rw [hrest.toViewer viewer hviewer] at hagrees
  have hshown : (s.links viewer).window.engineState = shownState s.engine.capturing :=
    hagrees hstarting
  refine ⟨hshown, fun hstop => shownState_inj (hshown.symm.trans (hwindow.stop hstop)), ?_⟩
  intro hcapturing
  rcases hwindow.stopping (by rw [hshown, hcapturing]) with hstop | ⟨id, hpending⟩
  · exact hstop
  · rw [hnone] at hpending
    cases hpending

end ViewerSystem

open ViewerSystem

/-- If no `configure` and no `start_capture` reaches the engine while it captures, every
viewer at rest shows the engine's state, and its Stop button is enabled exactly while
the engine captures. The first step that breaks the condition leaves a capturing engine and a
viewer that shows an idle one when it has received all that is in flight. -/
theorem viewers_agree_at_rest (lib : JsonLibrary) (connected : Finset IpcClientId)
    (s₀ s : ViewerSystem) (actions : List ViewerAction) (hinitial : s₀.Initial lib connected)
    (hrun : Run (Guarded (ViewerSystem.Step lib connected) (StartsWhileIdle lib)) s₀ actions s) :
    (s.AtRest connected → ∀ viewer ∈ connected,
      (s.links viewer).window.engineState = .string s.engine.engineState ∧
        ((s.links viewer).window.stopEnabled = true ↔ s.engine.capturing = true)) ∧
    ∀ a t, ViewerSystem.Step lib connected s a t → ¬ StartsWhileIdle lib s a →
      t.engine.capturing = true ∧ ∃ viewer ∈ connected,
        ((t.links viewer).window.settle (t.links viewer).toViewer).startingCapture = false ∧
        ((t.links viewer).window.settle (t.links viewer).toViewer).engineState = shownState false :=
  ⟨fun hrest _ hviewer => (inv_run hinitial hrun).agrees_at_rest hrest hviewer,
    fun _ _ hstep hbreaks => (inv_run hinitial hrun).disagrees hbreaks hstep⟩

/-- Two viewers attached to an engine that was never configured. -/
def twoViewers : ViewerSystem := { engine := {}, links := fun _ => { window := {} } }

def udpConfig : Json :=
  .object [(ascii "bind_port", .numberUnsigned 9000), (ascii "mode", .string (ascii "udp"))]

def viewerConfigureLine : ByteString :=
  ascii
    "\x7b\"type\": \"command\", \"command\": \"configure\", \"config\": \x7b\"mode\": \"udp\", \"bind_port\": 9000\x7d, \"id\": \"v1\"\x7d"

def viewerStartLine : ByteString :=
  ascii "\x7b\"type\": \"command\", \"command\": \"start_capture\", \"id\": \"v2\"\x7d"

def viewerStopLine : ByteString :=
  ascii "\x7b\"type\": \"command\", \"command\": \"stop_capture\", \"id\": \"v1\"\x7d"

/-- The library on the lines of a viewer that starts and stops. -/
def viewerLibrary : JsonLibrary :=
  .ofTable [(viewerConfigureLine, .ok (commandMessage (ascii "configure") (ascii "v1") udpConfig)),
    (viewerStartLine, .ok (commandMessage (ascii "start_capture") (ascii "v2") none)),
    (viewerStopLine, .ok (commandMessage (ascii "stop_capture") (ascii "v1") none))] (by decide)

/-- Both users press Start. The start of the first viewer succeeds before the engine
reads the `configure` of the second. -/
def racingStarts : List ViewerAction :=
  [.pressStart 1 udpConfig, .pressStart 2 udpConfig, .handle 1 viewerConfigureLine {}, .deliver 1,
    .handle 1 viewerStartLine {}, .handle 2 viewerConfigureLine {}, .deliver 1, .deliver 1,
    .deliver 1, .deliver 2, .deliver 2, .deliver 2]

theorem initial_twoViewers (lib : JsonLibrary) : twoViewers.Initial lib {1, 2} :=
  ⟨reached_initial, fun _ _ => ⟨rfl, rfl, rfl, rfl, rfl⟩, fun _ _ => rfl, fun _ _ => rfl⟩

/-- Nothing is left to deliver, the engine captures, and the second window shows an idle
engine and offers no Stop. -/
theorem racing_start_shows_idle :
    ∃ s, twoViewers.Initial viewerLibrary {1, 2} ∧
      Run (ViewerSystem.Step viewerLibrary {1, 2}) twoViewers racingStarts s ∧ s.AtRest {1, 2} ∧
      (s.links 2).window.engineState = shownState false ∧
      (s.links 2).window.stopEnabled = false ∧ s.engine.capturing = true := by
  obtain ⟨s, hrun, hfacts⟩ := Run.exists_of_foldlM (P := fun s => s.AtRest {1, 2} ∧
    (s.links 2).window.engineState = shownState false ∧
      (s.links 2).window.stopEnabled = false ∧ s.engine.capturing = true)
    (show (racingStarts.foldlM (perform viewerLibrary {1, 2}) twoViewers).any _ = true
      by decide +kernel)
  exact ⟨s, initial_twoViewers _, hrun, hfacts⟩

/-- The first user starts a capture, and the second one stops it. -/
def startThenStop : List ViewerAction :=
  [.pressStart 1 udpConfig, .handle 1 viewerConfigureLine {}, .deliver 1, .deliver 2,
    .handle 1 viewerStartLine {}, .deliver 1, .deliver 1, .deliver 1, .deliver 2, .pressStop 2,
    .handle 2 viewerStopLine {}, .deliver 2, .deliver 2, .deliver 1]

theorem agree_after_stop :
    ∃ s : ViewerSystem, s.AtRest {1, 2} ∧
      (s.links 1).window.engineState = .string s.engine.engineState ∧
      (s.links 1).window.stopEnabled = false ∧ s.engine.capturing = false ∧
      s.engine.hasConfig = true := by
  obtain ⟨s, hrun, hrest, hidle, hconfig⟩ := Run.exists_of_foldlM
    (P := fun s => s.AtRest {1, 2} ∧ s.engine.capturing = false ∧ s.engine.hasConfig = true)
    (show (startThenStop.foldlM (fun s a =>
      if StartsWhileIdle viewerLibrary s a then s.perform viewerLibrary {1, 2} a else none)
        twoViewers).any _ = true by decide +kernel)
  obtain ⟨hshown, hstop⟩ := (viewers_agree_at_rest viewerLibrary {1, 2} twoViewers s startThenStop
    (initial_twoViewers _) (hrun.mono fun _ _ _ h => Option.ite_none_right_eq_some.1 h)).1 hrest 1
      (by decide)
  exact ⟨s, hrest, hshown, by simpa [hidle] using hstop, hidle, hconfig⟩

end PacketProbe
