import PacketProbe.WorkerSignals

/-!
# The start of a capture that waits for its result

A window that is starting waits for the result of a command of its connection, or has a
configuration queued for the next one. A loss of the connection that forgets the pending
commands forgets the start with them, unless the window stops waiting at the same time.
-/

namespace PacketProbe
open TransitionRuns

namespace ConnectionWindow

variable {s t : ConnectionWindow} {a : WindowAction}

/-- A command of the start was sent over the current connection and waits for its result. -/
def PendingStart (s : ConnectionWindow) : Prop :=
  ∃ id intent, s.window.pendingCommands.lookup id = some intent ∧ intent.isStart = true ∧
    s.worker = some (s.issuer id)

/-- A window that is starting has a start in progress. -/
def StartInProgress (s : ConnectionWindow) : Prop :=
  s.window.startingCapture = true → s.PendingStart ∨ s.pendingConfigToStart ≠ none

/-- The window is starting, and its configuration has been sent. -/
def Waiting (s : ConnectionWindow) : Prop :=
  s.window.startingCapture = true ∧ s.pendingConfigToStart = none

/-- While a start waits for its result its connection is not given up, not replaced, and not
reported as lost by a worker while the process runs; and no worker reports that it is
connected to a window that has a start queued and no worker. -/
def StartKept (s : ConnectionWindow) : WindowAction → Prop
  | .toggleConnection pathGiven =>
    (pathGiven = true ∨ ∃ w ∈ s.worker, (s.threads w).isRunning = true) → ¬ s.Waiting
  | .connectorReady pathGiven => pathGiven = true → ¬ s.Waiting
  | .deliver w =>
    match (s.threads w).signals with
    | .connected :: _ =>
      s.worker = none → s.window.startingCapture = true → s.pendingConfigToStart = none
    | .disconnected :: _ | .finished :: _ => s.processRunning = true → ¬ s.Waiting
    | _ => True
  | _ => True

theorem startInProgress_iff : s.StartInProgress ↔ (s.Waiting → s.PendingStart) := by
  constructor
  · rintro h ⟨hstarting, hconfig⟩
    exact (h hstarting).resolve_right fun hne => hne hconfig
  · intro h hstarting
    by_cases hconfig : s.pendingConfigToStart = none
    · exact .inl (h ⟨hstarting, hconfig⟩)
    · exact .inr hconfig

theorem startInProgress_of_not_starting (h : s.window.startingCapture = false) :
    s.StartInProgress :=
  fun hstarting => absurd (h.symm.trans hstarting) Bool.false_ne_true

/-! ### The pending commands -/

/-- Every pending command was sent by a worker that exists, those of the current one under
the ids it has given away, and a window without a worker has none. -/
structure Ledger (s : ConnectionWindow) : Prop where
  current : ∀ v, s.worker = some v → v < s.created
  issued : ∀ id intent, s.window.pendingCommands.lookup id = some intent → s.issuer id < s.created
  idle : s.worker = none → ∀ id, s.window.pendingCommands.lookup id = none
  numbered : ∀ id intent, s.window.pendingCommands.lookup id = some intent →
    s.worker = some (s.issuer id) → ∃ k < s.window.nextCommandId, id = commandIdOf k

/-- The pending commands, their senders and the worker are as before. -/
structure SameLedger (s t : ConnectionWindow) : Prop where
  pendingCommands : t.window.pendingCommands = s.window.pendingCommands
  nextCommandId : t.window.nextCommandId = s.window.nextCommandId
  worker : t.worker = s.worker
  issuer : t.issuer = s.issuer
  created : t.created = s.created

theorem SameLedger.refl (s : ConnectionWindow) : SameLedger s s := ⟨rfl, rfl, rfl, rfl, rfl⟩

theorem Ledger.of_same (h : s.Ledger) (hsame : SameLedger s t) : t.Ledger := by
  obtain ⟨hpending, hnext, hworker, hissuer, hcreated⟩ := hsame
  constructor
  · rw [hworker, hcreated]
    exact h.current
  · rw [hpending, hissuer, hcreated]
    exact h.issued
  · rw [hworker, hpending]
    exact h.idle
  · rw [hpending, hworker, hissuer, hnext]
    exact h.numbered

theorem SameLedger.pendingStart (hsame : SameLedger s t) (h : s.PendingStart) : t.PendingStart := by
  obtain ⟨id, intent, hid, hstart, hworker⟩ := h
  refine ⟨id, intent, ?_, hstart, ?_⟩
  · rw [hsame.pendingCommands]
    exact hid
  · rw [hsame.worker, hsame.issuer]
    exact hworker

/-- Nothing is pending any more. -/
theorem Ledger.of_cleared (h : s.Ledger) (hpending : t.window.pendingCommands = ∅)
    (hworker : t.worker = s.worker ∨ t.worker = none) (hcreated : t.created = s.created) :
    t.Ledger := by
  have hnone : ∀ id, t.window.pendingCommands.lookup id = none := by
    intro id
    rw [hpending]
    rfl
  constructor
  · intro v hv
    rw [hcreated]
    rcases hworker with hworker | hworker
    · exact h.current v (hworker ▸ hv)
    · rw [hworker] at hv
      cases hv
  · intro id intent hid
    rw [hnone id] at hid
    cases hid
  · exact fun _ => hnone
  · intro id intent hid
    rw [hnone id] at hid
    cases hid

theorem not_pendingStart_of_cleared (hpending : s.window.pendingCommands = ∅) :
    ¬ s.PendingStart := by
  rintro ⟨id, intent, hid, -⟩
  rw [hpending] at hid
  cases hid

/-- A window without pending commands has a start in progress if it waits for none. -/
theorem startInProgress_iff_of_cleared (hpending : t.window.pendingCommands = ∅)
    (hstarting : t.window.startingCapture = s.window.startingCapture)
    (hconfig : t.pendingConfigToStart = s.pendingConfigToStart) :
    t.StartInProgress ↔ ¬ s.Waiting := by
  rw [startInProgress_iff]
  unfold Waiting
  rw [hstarting, hconfig]
  exact ⟨fun h hwaiting => not_pendingStart_of_cleared hpending (h hwaiting),
    fun h hwaiting => absurd hwaiting h⟩

section Send

variable {w : ℕ} {command : ByteString} {config : Option Json} {intent : Intent}

theorem Ledger.sendCommand (h : s.Ledger) (hworker : s.worker = some w) :
    (s.sendCommand w command config intent).Ledger := by
  constructor
  · exact h.current
  · intro id intent' hid
    change Function.update s.issuer _ w id < s.created
    rcases lookup_insert_iff.1 hid with ⟨rfl, -⟩ | ⟨hne, hid⟩
    · rw [Function.update_self]
      exact h.current w hworker
    · rw [Function.update_of_ne hne]
      exact h.issued id intent' hid
  · intro hnone
    rw [show s.worker = none from hnone] at hworker
    cases hworker
  · intro id intent' hid hissuer
    change s.worker = some (Function.update s.issuer _ w id) at hissuer
    rcases lookup_insert_iff.1 hid with ⟨rfl, -⟩ | ⟨hne, hid⟩
    · exact ⟨s.window.nextCommandId, Nat.lt_succ_self _, rfl⟩
    · rw [Function.update_of_ne hne] at hissuer
      obtain ⟨k, hk, rfl⟩ := h.numbered id intent' hid hissuer
      exact ⟨k, Nat.lt_succ_of_lt hk, rfl⟩

/-- A new command has an id of its own. -/
theorem PendingStart.sendCommand (hstart : s.PendingStart) (h : s.Ledger) :
    (s.sendCommand w command config intent).PendingStart := by
  obtain ⟨id, intent', hid, hstart, hissuer⟩ := hstart
  obtain ⟨k, hk, rfl⟩ := h.numbered id intent' hid hissuer
  have hne := commandIdOf_ne hk
  refine ⟨commandIdOf k, intent', lookup_insert_iff.2 (.inr ⟨hne, hid⟩), hstart, ?_⟩
  change s.worker = some (Function.update s.issuer _ w _)
  rw [Function.update_of_ne hne]
  exact hissuer

theorem StartInProgress.sendCommand (hprogress : s.StartInProgress) (h : s.Ledger) :
    (s.sendCommand w command config intent).StartInProgress :=
  fun hstarting => (hprogress hstarting).imp_left fun hstart => hstart.sendCommand h

/-- A command of the start puts the start in progress. -/
theorem startInProgress_sendCommand (hworker : s.worker = some w)
    (hintent : intent.isStart = true) :
    (s.sendCommand w command config intent).StartInProgress := by
  refine fun _ =>
    .inl ⟨commandIdOf s.window.nextCommandId, intent, AList.lookup_insert _, hintent, ?_⟩
  change s.worker = some (Function.update s.issuer _ w _)
  rw [Function.update_self]
  exact hworker

end Send

theorem StartInProgress.of_same (h : s.StartInProgress) (hsame : SameLedger s t)
    (hstarting : t.window.startingCapture = s.window.startingCapture)
    (hconfig : t.pendingConfigToStart = s.pendingConfigToStart) : t.StartInProgress := by
  unfold StartInProgress
  rw [hstarting, hconfig]
  exact fun hstart => (h hstart).imp_left hsame.pendingStart

/-! ### The connection -/

theorem Ledger.connectSocket (h : s.Ledger) (pathGiven : Bool) :
    (s.connectSocket pathGiven).Ledger := by
  cases pathGiven with
  | false => exact h
  | true =>
    constructor
    · rintro v ⟨⟩
      exact Nat.lt_succ_self _
    · exact fun id intent hid => Nat.lt_succ_of_lt (h.issued id intent hid)
    · exact fun hnone => nomatch hnone
    · intro id intent hid hissuer
      have hcreated : s.created = s.issuer id := Option.some.inj hissuer
      have hissued := h.issued id intent hid
      omega

/-- No command was sent over a new connection. -/
theorem connectSocket_iff (h : s.Ledger) (hprogress : s.StartInProgress) (pathGiven : Bool) :
    (s.connectSocket pathGiven).StartInProgress ↔ (pathGiven = true → ¬ s.Waiting) := by
  cases pathGiven with
  | false => exact iff_of_true hprogress fun hfalse => nomatch hfalse
  | true =>
    have hnone : ¬ (s.connectSocket true).PendingStart := by
      rintro ⟨id, intent, hid, -, hissuer⟩
      have hcreated : s.created = s.issuer id := Option.some.inj hissuer
      have hissued := h.issued id intent hid
      omega
    rw [startInProgress_iff]
    exact ⟨fun hstart _ hwaiting => hnone (hstart hwaiting),
      fun hnot hwaiting => absurd hwaiting (hnot rfl)⟩

theorem Ledger.disconnectSocket (h : s.Ledger) : s.disconnectSocket.Ledger :=
  h.of_cleared rfl (.inr rfl) rfl

theorem disconnectSocket_iff : s.disconnectSocket.StartInProgress ↔ ¬ s.Waiting :=
  startInProgress_iff_of_cleared rfl rfl rfl

theorem toggleConnection_iff (h : s.Ledger) (hprogress : s.StartInProgress) (pathGiven : Bool) :
    (s.toggleConnection pathGiven).Ledger ∧
      ((s.toggleConnection pathGiven).StartInProgress ↔
        s.StartKept (.toggleConnection pathGiven)) := by
  by_cases hrunning : ∃ w ∈ s.worker, (s.threads w).isRunning = true
  · rw [toggleConnection_of_running pathGiven hrunning]
    exact ⟨h.disconnectSocket, disconnectSocket_iff.trans
      ⟨fun hnot _ => hnot, fun hkept => hkept (.inr hrunning)⟩⟩
  · rw [toggleConnection_of_not_running pathGiven hrunning]
    refine ⟨h.connectSocket pathGiven, (connectSocket_iff h hprogress pathGiven).trans ?_⟩
    exact ⟨fun hnot hor => hnot (hor.resolve_right hrunning), fun hkept hpath => hkept (.inl hpath)⟩

/-- The loss of the connection. While the process runs the window goes on waiting. -/
theorem onDisconnected_iff (h : s.Ledger) :
    s.onDisconnected.Ledger ∧
      (s.onDisconnected.StartInProgress ↔ (s.processRunning = true → ¬ s.Waiting)) := by
  obtain ⟨-, hworker, hcreated, -, hpending⟩ := onDisconnected_fields s
  refine ⟨h.of_cleared hpending (.inl hworker) hcreated, ?_⟩
  cases hrunning : s.processRunning with
  | true =>
    have hkeeps : s.onDisconnected.window.startingCapture = s.window.startingCapture ∧
        s.onDisconnected.pendingConfigToStart = s.pendingConfigToStart := by
      simp only [onDisconnected, hrunning, if_true]
      exact ⟨rfl, rfl⟩
    rw [startInProgress_iff_of_cleared hpending hkeeps.1 hkeeps.2]
    exact ⟨fun hnot _ => hnot, fun hnot => hnot rfl⟩
  | false =>
    refine iff_of_true (startInProgress_of_not_starting ?_) fun hfalse => nomatch hfalse
    simp only [onDisconnected, hrunning]
    rfl

theorem onWorkerFinished_iff (h : s.Ledger) :
    s.onWorkerFinished.Ledger ∧
      (s.onWorkerFinished.StartInProgress ↔ (s.processRunning = true → ¬ s.Waiting)) := by
  obtain ⟨-, -, hcreated, -, hpending⟩ := onDisconnected_fields s
  refine ⟨h.of_cleared hpending (.inr rfl) hcreated, ?_⟩
  have hfinished : s.onWorkerFinished.StartInProgress ↔ ¬ s.onDisconnected.Waiting :=
    startInProgress_iff_of_cleared hpending rfl rfl
  have hlost : s.onDisconnected.StartInProgress ↔ ¬ s.onDisconnected.Waiting :=
    startInProgress_iff_of_cleared hpending rfl rfl
  rw [hfinished, ← hlost, (onDisconnected_iff h).2]

theorem Ledger.mirrorAttach (h : s.Ledger) : s.mirrorAttach.Ledger :=
  h.of_same ⟨rfl, rfl, rfl, rfl, rfl⟩

theorem StartInProgress.mirrorAttach (h : s.StartInProgress) : s.mirrorAttach.StartInProgress :=
  h.of_same ⟨rfl, rfl, rfl, rfl, rfl⟩ rfl rfl

theorem requestStatusSync_keeps (h : s.Ledger) (hprogress : s.StartInProgress) :
    s.requestStatusSync.Ledger ∧ s.requestStatusSync.StartInProgress := by
  unfold requestStatusSync
  split
  · exact ⟨h, hprogress⟩
  · rename_i w hw
    exact ⟨h.sendCommand hw, hprogress.sendCommand h⟩

/-- A new connection goes on with a queued start, if there is a worker to send it to. -/
theorem onConnected_iff (h : s.Ledger) (hprogress : s.StartInProgress) :
    s.onConnected.Ledger ∧ (s.onConnected.StartInProgress ↔
      (s.worker = none → s.window.startingCapture = true → s.pendingConfigToStart = none)) := by
  have hsame : ∀ pendingConfigToStart : Option Json, SameLedger s { s with
      ipcConnected := true, connectEnabled := true, pendingConfigToStart } :=
    fun _ => ⟨rfl, rfl, rfl, rfl, rfl⟩
  unfold onConnected
  simp only
  split
  · rename_i config hstarting hconfig
    split
    · rename_i hnone
      refine ⟨h.of_same (hsame none), ?_⟩
      rw [startInProgress_iff]
      constructor
      · intro hstart
        obtain ⟨id, intent, hid, -⟩ := hstart ⟨hstarting, rfl⟩
        rw [show s.window.pendingCommands.lookup id = none from h.idle hnone id] at hid
        cases hid
      · intro hqueued
        rw [hqueued hnone hstarting] at hconfig
        cases hconfig
    · rename_i w hw
      refine ⟨?_, iff_of_true ?_ fun hnone => ?_⟩
      · apply Ledger.mirrorAttach
        exact (h.of_same (hsame none)).sendCommand hw
      · apply StartInProgress.mirrorAttach
        exact startInProgress_sendCommand hw rfl
      · exact absurd (hw.symm.trans hnone) (Option.some_ne_none w)
  · rename_i hqueued
    have hkept := requestStatusSync_keeps (h.of_same (hsame s.pendingConfigToStart))
      (hprogress.of_same (hsame s.pendingConfigToStart) rfl rfl)
    refine ⟨hkept.1.mirrorAttach, iff_of_true hkept.2.mirrorAttach fun _ hstarting => ?_⟩
    rw [Option.eq_none_iff_forall_ne_some]
    exact fun config hconfig => hqueued config hstarting hconfig

/-! ### Results -/

theorem Ledger.forget (h : s.Ledger) (id : ByteString) :
    { s with window := s.window.forget id }.Ledger := by
  constructor
  · exact h.current
  · exact fun key intent hkey => h.issued key intent (lookup_erase_iff.1 hkey).2
  · exact fun hnone key => lookup_erase_eq_none (h.idle hnone key)
  · exact fun key intent hkey => h.numbered key intent (lookup_erase_iff.1 hkey).2

theorem Ledger.popPending (h : s.Ledger) (id : Json) :
    { s with window := (s.window.popPending id).2 }.Ledger := by
  cases id with
  | string id => exact h.forget id
  | _ => exact h

/-- The result of a command that is no start leaves the start in progress. -/
theorem StartInProgress.popPending (hprogress : s.StartInProgress) {id : Json}
    (hintent : ∀ intent, (s.window.popPending id).1 = some intent → intent.isStart = false) :
    { s with window := (s.window.popPending id).2 }.StartInProgress := by
  cases id with
  | string id =>
    intro hstarting
    refine (hprogress hstarting).imp_left ?_
    rintro ⟨key, intent, hkey, hstart, hissuer⟩
    refine ⟨key, intent, lookup_erase_iff.2 ⟨?_, hkey⟩, hstart, hissuer⟩
    rintro rfl
    rw [hintent intent hkey] at hstart
    cases hstart
  | _ => exact hprogress

theorem nextCommandId_popPending (w : MainWindow) (id : Json) :
    (w.popPending id).2.nextCommandId = w.nextCommandId := by
  cases id <;> rfl

/-- The result of a `configure` goes on with `start_capture`. Every other result of the
start ends it, and the rest leave it alone. -/
theorem resultFor_cases (intent : Option Intent) (ok : Bool) (value : Json) (w : MainWindow) :
    (intent = some .configure ∧ ∃ message, MainWindow.resultFor intent ok value w =
        ((w.sendCommand (ascii "start_capture") none .startCapture).1, [message])) ∨
      ∃ w', MainWindow.resultFor intent ok value w = (w', []) ∧
        w'.pendingCommands = w.pendingCommands ∧ w'.nextCommandId = w.nextCommandId ∧
        (w'.startingCapture = false ∨ (w'.startingCapture = w.startingCapture ∧
          ∀ intent', intent = some intent' → intent'.isStart = false)) := by
  cases intent with
  | none => exact .inr ⟨w, rfl, rfl, rfl, .inr ⟨rfl, fun _ h => nomatch h⟩⟩
  | some intent =>
    cases intent with
    | configure =>
      cases ok with
      | true => exact .inl ⟨rfl, _, rfl⟩
      | false => exact .inr ⟨_, rfl, rfl, rfl, .inl rfl⟩
    | startCapture => cases ok <;> exact .inr ⟨_, rfl, rfl, rfl, .inl rfl⟩
    | _ =>
      cases ok <;>
      · refine .inr ⟨_, rfl, rfl, rfl, .inr ⟨rfl, ?_⟩⟩
        rintro _ ⟨⟩
        rfl

theorem onResultReceived_keeps (h : s.Ledger) (hprogress : s.StartInProgress) (result : Json) :
    (s.onResultReceived result).Ledger ∧ (s.onResultReceived result).StartInProgress := by
  obtain ⟨id, hid⟩ : ∃ id, id = (result.find (ascii "id")).getD (.string []) := ⟨_, rfl⟩
  have hpopped := h.popPending id
  have hnext := nextCommandId_popPending s.window id
  have hmessages : s.window.onResultReceived result =
      MainWindow.resultFor (s.window.popPending id).1
        (truthy ((result.find (ascii "ok")).getD (.boolean false))) result
        (s.window.popPending id).2 := by
    rw [hid]
    rfl
  rcases resultFor_cases (s.window.popPending id).1
      (truthy ((result.find (ascii "ok")).getD (.boolean false))) result
        (s.window.popPending id).2 with
    ⟨hconfigure, message, hresult⟩ | ⟨window, hresult, hpending, hcommandId, hstarting⟩
  · rw [hresult] at hmessages
    cases hworker : s.worker with
    | none =>
      cases id with
      | string id =>
        rw [show (s.window.popPending (.string id)).1 = s.window.pendingCommands.lookup id from rfl,
          h.idle hworker id] at hconfigure
        cases hconfigure
      | _ => cases hconfigure
    | some w =>
      have hsent : s.onResultReceived result =
          { s with window := (s.window.popPending id).2 }.sendCommand w (ascii "start_capture") none
            .startCapture := by
        unfold onResultReceived sendCommand
        rw [hmessages, hworker]
        simp only [hnext]
      rw [hsent]
      exact ⟨hpopped.sendCommand hworker, startInProgress_sendCommand hworker rfl⟩
  · rw [hresult] at hmessages
    have hkept : s.onResultReceived result = { s with window } := by
      unfold onResultReceived
      rw [hmessages]
    have hsame : SameLedger { s with window := (s.window.popPending id).2 } { s with window } :=
      ⟨hpending, hcommandId, rfl, rfl, rfl⟩
    rw [hkept]
    refine ⟨hpopped.of_same hsame, ?_⟩
    rcases hstarting with hended | ⟨hsameStarting, hintent⟩
    · exact startInProgress_of_not_starting hended
    · exact (hprogress.popPending hintent).of_same hsame hsameStarting rfl

theorem onSignal_iff_startKept (h : s.Ledger) (hprogress : s.StartInProgress) (w : ℕ)
    (signal : WorkerSignal) :
    (s.onSignal w signal).Ledger ∧ ((s.onSignal w signal).StartInProgress ↔
      match signal with
      | .connected =>
        s.worker = none → s.window.startingCapture = true → s.pendingConfigToStart = none
      | .disconnected | .finished => s.processRunning = true → ¬ s.Waiting
      | _ => True) := by
  cases signal with
  | connecting =>
    exact ⟨h.of_same ⟨rfl, rfl, rfl, rfl, rfl⟩,
      iff_of_true (hprogress.of_same ⟨rfl, rfl, rfl, rfl, rfl⟩ rfl rfl) trivial⟩
  | connected =>
    obtain ⟨hledger, hiff⟩ := onConnected_iff h hprogress
    exact ⟨hledger.of_same ⟨rfl, rfl, rfl, rfl, rfl⟩, hiff⟩
  | disconnected => exact onDisconnected_iff h
  | finished => exact onWorkerFinished_iff h
  | result message =>
    obtain ⟨hledger, hkept⟩ := onResultReceived_keeps h hprogress message
    exact ⟨hledger, iff_of_true hkept trivial⟩
  | status message =>
    have hsame : SameLedger s (s.onStatusReceived message) ∧
        (s.onStatusReceived message).window.startingCapture = s.window.startingCapture := by
      unfold onStatusReceived MainWindow.onStatusReceived
      split
      · exact ⟨.refl s, rfl⟩
      · exact ⟨⟨rfl, rfl, rfl, rfl, rfl⟩, rfl⟩
    exact ⟨h.of_same hsame.1, iff_of_true (hprogress.of_same hsame.1 hsame.2 rfl) trivial⟩
  | other => exact ⟨h, iff_of_true hprogress trivial⟩

/-! ### The capture -/

theorem worker_of_connection {w : ℕ} (hw : s.connection = some w) : s.worker = some w := by
  unfold connection at hw
  split at hw
  · exact hw
  · cases hw

theorem startCapture_keeps (h : s.Ledger) (config : Json) (cliFound pathGiven raises : Bool) :
    (s.startCapture config cliFound pathGiven raises).Ledger ∧
      (s.startCapture config cliFound pathGiven raises).StartInProgress := by
  have hsame : SameLedger s { s with window :=
      MainWindow.setCaptureControlsRunning false { s.window with startingCapture := true } } :=
    ⟨rfl, rfl, rfl, rfl, rfl⟩
  unfold startCapture
  simp only
  split
  · rename_i w hw
    have hworker : s.worker = some w := worker_of_connection hw
    exact ⟨(h.of_same hsame).sendCommand hworker, startInProgress_sendCommand hworker rfl⟩
  · split
    · constructor
      · apply Ledger.connectSocket
        exact h.of_same ⟨rfl, rfl, rfl, rfl, rfl⟩
      · refine fun _ => .inr ?_
        cases pathGiven <;> exact Option.some_ne_none config
    · split
      · exact ⟨h.of_same ⟨rfl, rfl, rfl, rfl, rfl⟩, startInProgress_of_not_starting rfl⟩
      · split
        · exact ⟨h.of_cleared rfl (.inr rfl) rfl, startInProgress_of_not_starting rfl⟩
        · exact ⟨h.of_same ⟨rfl, rfl, rfl, rfl, rfl⟩, fun _ => .inr (Option.some_ne_none config)⟩

theorem Ledger.stopCapture (h : s.Ledger) (exits : Bool) : (s.stopCapture exits).Ledger := by
  unfold ConnectionWindow.stopCapture
  split
  · rename_i w hw
    apply Ledger.sendCommand (s := { s with window := { s.window with stopEnabled := false } })
    · exact h.of_same ⟨rfl, rfl, rfl, rfl, rfl⟩
    · exact worker_of_connection hw
  · unfold stopProcess
    split
    · exact h.of_cleared rfl (.inr rfl) rfl
    · exact h.of_same ⟨rfl, rfl, rfl, rfl, rfl⟩

theorem StartInProgress.stopCapture (hprogress : s.StartInProgress) (h : s.Ledger) (exits : Bool) :
    (s.stopCapture exits).StartInProgress := by
  unfold ConnectionWindow.stopCapture
  split
  · apply StartInProgress.sendCommand
    · exact hprogress.of_same ⟨rfl, rfl, rfl, rfl, rfl⟩ rfl rfl
    · exact h.of_same ⟨rfl, rfl, rfl, rfl, rfl⟩
  · exact startInProgress_of_not_starting rfl

theorem request_keeps (h : s.Ledger) (hprogress : s.StartInProgress) (command : ByteString)
    (intent : Intent) :
    (s.request command intent).Ledger ∧ (s.request command intent).StartInProgress := by
  unfold request
  split
  · exact ⟨h, hprogress⟩
  · rename_i w hw
    exact ⟨h.sendCommand (worker_of_connection hw), hprogress.sendCommand h⟩

/-! ### Runs -/

/-- A step keeps the start in progress exactly when it does not break it off. -/
theorem startKept_iff (h : s.Ledger) (hprogress : s.StartInProgress) (hstep : Step s a t) :
    t.Ledger ∧ (t.StartInProgress ↔ s.StartKept a) := by
  have hkept {t : ConnectionWindow} (hledger : t.Ledger ∧ t.StartInProgress) :
      t.Ledger ∧ (t.StartInProgress ↔ True) := ⟨hledger.1, iff_true_intro hledger.2⟩
  unfold Step perform at hstep
  cases a with
  | startCapture config cliFound pathGiven raises =>
    simp only at hstep
    split at hstep
    · cases hstep
      exact hkept (startCapture_keeps h config cliFound pathGiven raises)
    · cases hstep
  | stopCapture exits =>
    simp only at hstep
    split at hstep
    · cases hstep
      exact hkept ⟨h.stopCapture exits, hprogress.stopCapture h exits⟩
    · cases hstep
  | toggleConnection pathGiven =>
    simp only at hstep
    split at hstep
    · cases hstep
      exact toggleConnection_iff h hprogress pathGiven
    · cases hstep
  | sendData =>
    simp only at hstep
    split at hstep
    · cases hstep
      exact hkept (request_keeps h hprogress _ _)
    · cases hstep
  | refreshSerialPorts =>
    cases hstep
    exact hkept (request_keeps h hprogress _ _)
  | worker w event =>
    obtain ⟨thread, -, rfl⟩ := Option.map_eq_some_iff.1 hstep
    exact hkept ⟨h.of_same ⟨rfl, rfl, rfl, rfl, rfl⟩,
      hprogress.of_same ⟨rfl, rfl, rfl, rfl, rfl⟩ rfl rfl⟩
  | deliver w =>
    obtain ⟨signal, signals, hsignals, rfl⟩ := deliver_inv hstep
    have hdelivered := onSignal_iff_startKept
      (s := s.setThread w ⟨(s.threads w).phase, signals⟩) (h.of_same ⟨rfl, rfl, rfl, rfl, rfl⟩)
      (hprogress.of_same ⟨rfl, rfl, rfl, rfl, rfl⟩ rfl rfl) w signal
    simp only [StartKept, hsignals]
    cases signal <;> exact hdelivered
  | processStarted =>
    simp only at hstep
    split at hstep
    · cases hstep
      exact hkept ⟨h.of_same ⟨rfl, rfl, rfl, rfl, rfl⟩,
        hprogress.of_same ⟨rfl, rfl, rfl, rfl, rfl⟩ rfl rfl⟩
    · cases hstep
  | processExited =>
    simp only at hstep
    split at hstep
    · cases hstep
      exact hkept ⟨h.of_cleared rfl (.inr rfl) rfl, startInProgress_of_not_starting rfl⟩
    · cases hstep
  | processError notRunning =>
    cases hstep
    unfold onCaptureError
    split
    · exact hkept ⟨h.of_same ⟨rfl, rfl, rfl, rfl, rfl⟩,
        hprogress.of_same ⟨rfl, rfl, rfl, rfl, rfl⟩ rfl rfl⟩
    · exact hkept ⟨h.of_cleared rfl (.inr rfl) rfl, startInProgress_of_not_starting rfl⟩
  | connectorReady pathGiven =>
    simp only at hstep
    split at hstep
    · cases hstep
      have hledger : { s with ipcConnector := false }.Ledger := h.of_same ⟨rfl, rfl, rfl, rfl, rfl⟩
      exact ⟨hledger.connectSocket pathGiven, connectSocket_iff hledger
        (hprogress.of_same ⟨rfl, rfl, rfl, rfl, rfl⟩ rfl rfl) pathGiven⟩
    · cases hstep
  | connectorFailed exits =>
    simp only at hstep
    split at hstep
    · cases hstep
      refine hkept ⟨?_, startInProgress_of_not_starting rfl⟩
      have hledger : { s with ipcConnector := false, pendingConfigToStart := none }.Ledger :=
        h.of_same ⟨rfl, rfl, rfl, rfl, rfl⟩
      exact (hledger.stopCapture exits).of_same ⟨rfl, rfl, rfl, rfl, rfl⟩
    · cases hstep

/-- In every run that keeps its starts each start of a window is in progress, and exactly
the steps that keep it leave it so. -/
theorem startInProgress_of_startKept {actions : List WindowAction}
    (hrun : Run (Guarded Step StartKept) {} actions s) :
    s.StartInProgress ∧ ∀ a t, Step s a t → (t.StartInProgress ↔ s.StartKept a) := by
  have hkeep : ∀ s a t, s.Ledger ∧ s.StartInProgress → Guarded Step StartKept s a t →
      t.Ledger ∧ t.StartInProgress := by
    rintro s a t ⟨h, hprogress⟩ ⟨hkept, hstep⟩
    obtain ⟨hledger, hiff⟩ := startKept_iff h hprogress hstep
    exact ⟨hledger, hiff.2 hkept⟩
  have hinitial : Ledger {} :=
    { current := fun _ h => nomatch h
      issued := fun _ _ h => nomatch h
      idle := fun _ _ => rfl
      numbered := fun _ _ h => nomatch h }
  obtain ⟨h, hprogress⟩ := hrun.invariant hkeep ⟨hinitial, startInProgress_of_not_starting rfl⟩
  exact ⟨hprogress, fun a t hstep => (startKept_iff h hprogress hstep).2⟩

/-- A window launches the engine process, connects to it, and sends its configuration. -/
def launch : List WindowAction :=
  [.startCapture (.object []) true true false, .processStarted, .connectorReady true,
    .worker 0 .start, .worker 0 .accept, .deliver 0, .deliver 0]

theorem launch_startKept :
    ∃ s, Run (Guarded Step StartKept) {} launch s ∧ s.window.startingCapture = true ∧
      s.pendingConfigToStart = none := by
  refine ⟨_, .cons ⟨trivial, rfl⟩ (.cons ⟨trivial, rfl⟩ (.cons ⟨?_, rfl⟩ (.cons ⟨trivial, rfl⟩
    (.cons ⟨trivial, rfl⟩ (.cons ⟨trivial, rfl⟩ (.cons ⟨?_, rfl⟩ (.nil _))))))), rfl, rfl⟩
  · exact fun _ hwaiting => nomatch hwaiting.2
  · exact fun hnone => nomatch hnone

theorem startInProgress_of_launch :
    ∃ s : ConnectionWindow, s.window.startingCapture = true ∧ s.PendingStart := by
  obtain ⟨s, hrun, hstarting, hconfig⟩ := launch_startKept
  have hprogress := (startInProgress_of_startKept hrun).1 hstarting
  exact ⟨s, hstarting, hprogress.resolve_right fun hne => hne hconfig⟩

/-- The connection is lost before the engine answers, and the process runs on. -/
def loseConnection : List WindowAction := launch ++ [.worker 0 .close, .deliver 0, .deliver 0]

/-- The window goes on waiting, with Start and Stop disabled. -/
theorem lost_connection_wedges_start :
    ∃ s, Run Step {} loseConnection s ∧
      s.processRunning = true ∧ s.window.startEnabled = false ∧ s.window.stopEnabled = false ∧
      ¬ s.StartInProgress := by
  obtain ⟨s, hrun, hprocess, hstart, hstop, hstarting, hpending, hconfig⟩ :=
    Run.exists_of_foldlM (P := fun s : ConnectionWindow =>
      s.processRunning = true ∧ s.window.startEnabled = false ∧ s.window.stopEnabled = false ∧
        s.window.startingCapture = true ∧ s.window.pendingCommands.entries = [] ∧
        s.pendingConfigToStart.isNone = true)
    (show ((loseConnection.foldlM perform {}).any _) = true by decide +kernel)
  refine ⟨s, hrun, hprocess, hstart, hstop, fun hprogress => ?_⟩
  rcases hprogress hstarting with hpendingStart | hqueued
  · exact not_pendingStart_of_cleared (AList.ext hpending) hpendingStart
  · exact hqueued (Option.isNone_iff_eq_none.1 hconfig)

end ConnectionWindow

end PacketProbe
