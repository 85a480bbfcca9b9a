import PacketProbe.ConnectionWindow

/-!
# Signals of a worker that was replaced

The slots take every signal for one of the current worker. What a late signal of a worker
that was replaced does then depends on the signal; a late `connected` is wrong even when
there is no other worker. Nothing is late as long as no worker is created before all signals
of the earlier ones are delivered.
-/

namespace PacketProbe
open TransitionRuns

namespace WorkerThread

variable {t t' : WorkerThread} {event : WorkerEvent} {signal : WorkerSignal}
  {signals : List WorkerSignal}

instance (t : WorkerThread) : Decidable t.Done := inferInstanceAs (Decidable (_ ∧ _))

/-- The worker has yet to report that it is disconnected. -/
def Open (t : WorkerThread) : Prop := t.phase ≠ .returned ∨ .disconnected ∈ t.signals

/-- Behind each `connected` that is not delivered the worker reports the end. -/
def Ordered (t : WorkerThread) : Prop :=
  ∀ before after, t.signals = before ++ .connected :: after → Open ⟨t.phase, after⟩

/-- A worker that returns emits `disconnected`, and `connected` no more. -/
theorem emits_cases {phase phase' : WorkerPhase} (h : emits phase event = some (phase', signals)) :
    phase ≠ .returned ∧
      (phase' ≠ .returned ∨ (.disconnected ∈ signals ∧ .connected ∉ signals)) := by
  cases event with
  | message signal =>
    cases phase <;> simp only [emits, reduceCtorEq] at h
    all_goals
      split at h
      · cases h
        exact ⟨by decide, .inl (by decide)⟩
      · cases h
  | close => cases phase <;> cases h <;> simp
  | _ =>
    cases phase <;> cases h
    simp

theorem happen_cases (h : t.happen event = some t') :
    t.phase ≠ .returned ∧ ∃ signals, t'.signals = t.signals ++ signals ∧
      (t'.phase ≠ .returned ∨ (.disconnected ∈ signals ∧ .connected ∉ signals)) := by
  obtain ⟨⟨phase', signals⟩, hemits, rfl⟩ := Option.map_eq_some_iff.1 h
  obtain ⟨hrunning, hcases⟩ := emits_cases hemits
  exact ⟨hrunning, signals, rfl, hcases⟩

theorem open_of_happen (hevent : t.happen event = some t') : t'.Open := by
  obtain ⟨-, signals, hsignals, hphase | ⟨hmem, -⟩⟩ := happen_cases hevent
  · exact .inl hphase
  · exact .inr (hsignals ▸ List.mem_append_right _ hmem)

theorem ordered_of_happen (hevent : t.happen event = some t') : t'.Ordered := by
  intro before after hsplit
  obtain ⟨-, signals, hsignals, hphase | ⟨hmem, hnot⟩⟩ := happen_cases hevent
  · exact .inl hphase
  · rw [hsignals] at hsplit
    rcases List.append_eq_append_iff.1 hsplit with ⟨rest, -, hlater⟩ | ⟨rest, -, hearlier⟩
    · exact absurd (hlater ▸ List.mem_append_right _ List.mem_cons_self) hnot
    · cases rest with
      | nil =>
        rw [List.nil_append] at hearlier
        exact absurd (hearlier ▸ List.mem_cons_self) hnot
      | cons signal rest =>
        obtain ⟨-, rfl⟩ := List.cons.inj hearlier
        exact .inr (List.mem_append_right _ hmem)

theorem Ordered.tail (h : t.Ordered) (hsignals : t.signals = signal :: signals) :
    Ordered ⟨t.phase, signals⟩ := by
  intro before after hsplit
  change signals = _ at hsplit
  exact h (signal :: before) after (by rw [hsignals, hsplit, List.cons_append])

theorem Ordered.open_tail (h : t.Ordered) (hsignals : t.signals = .connected :: signals) :
    Open ⟨t.phase, signals⟩ :=
  h [] signals hsignals

theorem Open.tail (h : t.Open) (hsignals : t.signals = signal :: signals)
    (hsignal : signal ≠ .disconnected) : Open ⟨t.phase, signals⟩ := by
  rcases h with hphase | hmem
  · exact .inl hphase
  · rw [hsignals] at hmem
    exact .inr ((List.mem_cons.1 hmem).resolve_left (Ne.symm hsignal))

theorem not_open_of_done (h : t.Done) : ¬ t.Open := by
  rintro (hphase | hmem)
  · exact hphase h.1
  · rw [h.2] at hmem
    cases hmem

end WorkerThread

namespace ConnectionWindow

variable {s t : ConnectionWindow} {a : WindowAction}

/-! ### What a step does to the connection -/

/-- What belongs to the connection is as before. -/
structure SameConnection (s t : ConnectionWindow) : Prop where
  ipcConnected : t.ipcConnected = s.ipcConnected
  worker : t.worker = s.worker
  created : t.created = s.created
  threads : t.threads = s.threads
  lastConnected : t.lastConnected = s.lastConnected

/-- The worker was given up. -/
structure Detached (s t : ConnectionWindow) : Prop where
  ipcConnected : t.ipcConnected = false
  worker : t.worker = none
  created : t.created = s.created
  threads : t.threads = s.threads
  lastConnected : t.lastConnected = s.lastConnected

/-- A new worker was created. -/
structure Attached (s t : ConnectionWindow) : Prop where
  ipcConnected : t.ipcConnected = s.ipcConnected
  worker : t.worker = some s.created
  created : t.created = s.created + 1
  threads : t.threads = Function.update s.threads s.created ⟨.created, []⟩
  lastConnected : t.lastConnected = s.lastConnected

/-- The action creates a worker. -/
def Connects (s : ConnectionWindow) : WindowAction → Prop
  | .toggleConnection pathGiven =>
    pathGiven = true ∧ ∀ w ∈ s.worker, (s.threads w).isRunning = false
  | .startCapture _ _ pathGiven _ =>
    pathGiven = true ∧ s.connection = none ∧ s.processRunning = true
  | .connectorReady pathGiven => pathGiven = true
  | _ => False

theorem SameConnection.refl (s : ConnectionWindow) : SameConnection s s := ⟨rfl, rfl, rfl, rfl, rfl⟩

theorem sameConnection_request (command : ByteString) (intent : Intent) (s : ConnectionWindow) :
    SameConnection s (s.request command intent) := by
  unfold request
  split
  · exact .refl s
  · exact ⟨rfl, rfl, rfl, rfl, rfl⟩

theorem stopCapture_cases (exits : Bool) (s : ConnectionWindow) :
    SameConnection s (s.stopCapture exits) ∨ Detached s (s.stopCapture exits) := by
  unfold stopCapture
  split
  · exact .inl ⟨rfl, rfl, rfl, rfl, rfl⟩
  · unfold stopProcess
    split
    · exact .inr ⟨rfl, rfl, rfl, rfl, rfl⟩
    · exact .inl ⟨rfl, rfl, rfl, rfl, rfl⟩

theorem connectSocket_cases (pathGiven : Bool) (s : ConnectionWindow) :
    (pathGiven = true ∧ Attached s (s.connectSocket pathGiven)) ∨
      SameConnection s (s.connectSocket pathGiven) := by
  cases pathGiven with
  | true => exact .inl ⟨rfl, rfl, rfl, rfl, rfl, rfl⟩
  | false => exact .inr ⟨rfl, rfl, rfl, rfl, rfl⟩

theorem toggleConnection_cases (pathGiven : Bool) (s : ConnectionWindow) :
    SameConnection s (s.toggleConnection pathGiven) ∨ Detached s (s.toggleConnection pathGiven) ∨
      (s.Connects (.toggleConnection pathGiven) ∧ Attached s (s.toggleConnection pathGiven)) := by
  by_cases hrunning : ∃ w ∈ s.worker, (s.threads w).isRunning = true
  · rw [toggleConnection_of_running pathGiven hrunning]
    exact .inr (.inl ⟨rfl, rfl, rfl, rfl, rfl⟩)
  · have hreturned : ∀ w ∈ s.worker, (s.threads w).isRunning = false := fun w hw =>
      eq_false_of_ne_true fun h => hrunning ⟨w, hw, h⟩
    rw [toggleConnection_of_not_running pathGiven hrunning]
    rcases connectSocket_cases pathGiven s with ⟨hpath, hattached⟩ | hsame
    · exact .inr (.inr ⟨⟨hpath, hreturned⟩, hattached⟩)
    · exact .inl hsame

theorem startCapture_cases (config : Json) (cliFound pathGiven raises : Bool)
    (s : ConnectionWindow) :
    SameConnection s (s.startCapture config cliFound pathGiven raises) ∨
      Detached s (s.startCapture config cliFound pathGiven raises) ∨
      (s.Connects (.startCapture config cliFound pathGiven raises) ∧
        Attached s (s.startCapture config cliFound pathGiven raises)) := by
  cases hconnection : s.connection with
  | some worker =>
    refine .inl ?_
    have hsame : ∀ window, ({ s with window } : ConnectionWindow).connection = some worker :=
      fun _ => hconnection
    simp only [startCapture, hsame]
    exact ⟨rfl, rfl, rfl, rfl, rfl⟩
  | none =>
    have hsame : ∀ window, ({ s with window } : ConnectionWindow).connection = none :=
      fun _ => hconnection
    simp only [startCapture, hsame]
    cases hrunning : s.processRunning with
    | true =>
      cases pathGiven with
      | true => exact .inr (.inr ⟨⟨rfl, hconnection, hrunning⟩, rfl, rfl, rfl, rfl, rfl⟩)
      | false => exact .inl ⟨rfl, rfl, rfl, rfl, rfl⟩
    | false =>
      cases cliFound with
      | false => exact .inl ⟨rfl, rfl, rfl, rfl, rfl⟩
      | true =>
        cases raises with
        | true => exact .inr (.inl ⟨rfl, rfl, rfl, rfl, rfl⟩)
        | false => exact .inl ⟨rfl, rfl, rfl, rfl, rfl⟩

/-- A step leaves the connection alone, gives its worker up, creates a worker, is one of a
worker, or delivers a signal. -/
theorem step_cases (hstep : Step s a t) :
    SameConnection s t ∨ Detached s t ∨ (s.Connects a ∧ Attached s t) ∨
      (∃ w event thread, a = .worker w event ∧ (s.threads w).happen event = some thread ∧
        t = s.setThread w thread) ∨
      ∃ w signal signals, a = .deliver w ∧ (s.threads w).signals = signal :: signals ∧
        t = (s.setThread w ⟨(s.threads w).phase, signals⟩).onSignal w signal := by
  unfold Step perform at hstep
  cases a with
  | startCapture config cliFound pathGiven raises =>
    simp only at hstep
    split at hstep
    · cases hstep
      rcases startCapture_cases config cliFound pathGiven raises s with h | h | h
      · exact .inl h
      · exact .inr (.inl h)
      · exact .inr (.inr (.inl h))
    · cases hstep
  | stopCapture exits =>
    simp only at hstep
    split at hstep
    · cases hstep
      exact (stopCapture_cases exits s).imp_right .inl
    · cases hstep
  | toggleConnection pathGiven =>
    simp only at hstep
    split at hstep
    · cases hstep
      exact (toggleConnection_cases pathGiven s).imp_right (.imp_right .inl)
    · cases hstep
  | sendData =>
    simp only at hstep
    split at hstep
    · cases hstep
      exact .inl (sameConnection_request _ _ s)
    · cases hstep
  | refreshSerialPorts =>
    cases hstep
    exact .inl (sameConnection_request _ _ s)
  | worker w event =>
    obtain ⟨thread, hthread, rfl⟩ := Option.map_eq_some_iff.1 hstep
    exact .inr (.inr (.inr (.inl ⟨w, event, thread, rfl, hthread, rfl⟩)))
  | deliver w =>
    simp only at hstep
    split at hstep
    · cases hstep
    · rename_i signal signals hsignals
      cases hstep
      exact .inr (.inr (.inr (.inr ⟨w, signal, signals, rfl, hsignals, rfl⟩)))
  | processStarted =>
    simp only at hstep
    split at hstep
    · cases hstep
      exact .inl ⟨rfl, rfl, rfl, rfl, rfl⟩
    · cases hstep
  | processExited =>
    simp only at hstep
    split at hstep
    · cases hstep
      exact .inr (.inl ⟨rfl, rfl, rfl, rfl, rfl⟩)
    · cases hstep
  | processError notRunning =>
    cases hstep
    unfold onCaptureError
    split
    · exact .inl ⟨rfl, rfl, rfl, rfl, rfl⟩
    · exact .inr (.inl ⟨rfl, rfl, rfl, rfl, rfl⟩)
  | connectorReady pathGiven =>
    simp only at hstep
    split at hstep
    · cases hstep
      rcases connectSocket_cases pathGiven { s with ipcConnector := false } with ⟨hpath, h⟩ | h
      · exact .inr (.inr (.inl ⟨hpath, h.1, h.2, h.3, h.4, h.5⟩))
      · exact .inl ⟨h.1, h.2, h.3, h.4, h.5⟩
    · cases hstep
  | connectorFailed exits =>
    simp only at hstep
    split at hstep
    · cases hstep
      rcases stopCapture_cases exits { s with ipcConnector := false, pendingConfigToStart := none }
        with h | h
      · exact .inl ⟨h.1, h.2, h.3, h.4, h.5⟩
      · exact .inr (.inl ⟨h.1, h.2, h.3, h.4, h.5⟩)
    · cases hstep

/-! ### Late signals -/

/-- A connected window shows the connection of its own worker. -/
def ConnectedToWorker (s : ConnectionWindow) : Prop :=
  s.ipcConnected = true → ∃ w, s.worker = some w ∧ s.lastConnected = some w

/-- A signal of another worker leaves the current one and its pending commands. -/
def LateSignalIdle (s : ConnectionWindow) (a : WindowAction) (t : ConnectionWindow) : Prop :=
  ∀ v w, a = .deliver w → s.worker = some v → v ≠ w →
    t.worker = some v ∧ ∀ id intent, s.window.pendingCommands.lookup id = some intent →
      t.window.pendingCommands.lookup id = some intent

/-- The intent of the command that a result answers. -/
def answered (result : Json) (s : ConnectionWindow) : Option Intent :=
  (s.window.popPending ((result.find (ascii "id")).getD (.string []))).1

/-- The signal of a worker does not touch another one. -/
def SignalInTurn (w : ℕ) (s : ConnectionWindow) : WorkerSignal → Prop
  | .connected => s.worker = some w
  | .disconnected => ∀ v ∈ s.worker, v ≠ w → ∀ id, s.window.pendingCommands.lookup id = none
  | .finished => ∀ v ∈ s.worker, v = w
  | .result message => ∀ v ∈ s.worker, v ≠ w → s.answered message = none
  | _ => True

/-- A worker is created only by a window that is not connected, and signals come in turn. -/
def SignalsInTurn (s : ConnectionWindow) (a : WindowAction) : Prop :=
  (s.Connects a → s.ipcConnected = false) ∧
    ∀ w signal signals, a = .deliver w → (s.threads w).signals = signal :: signals →
      s.SignalInTurn w signal

/-! ### Results -/

variable {result : Json} {intent : Intent}

theorem worker_onResultReceived (result : Json) (s : ConnectionWindow) :
    SameConnection s (s.onResultReceived result) := by
  unfold onResultReceived
  split
  · exact ⟨rfl, rfl, rfl, rfl, rfl⟩
  · exact ⟨rfl, rfl, rfl, rfl, rfl⟩
  · exact ⟨rfl, rfl, rfl, rfl, rfl⟩

/-- The result of a pending command takes the command away. -/
theorem lookup_popPending {w : MainWindow} {id : Json} (h : (w.popPending id).1 = some intent) :
    ∃ key, w.pendingCommands.lookup key = some intent ∧
      (w.popPending id).2.pendingCommands.lookup key = none := by
  cases id with
  | string key => exact ⟨key, h, AList.lookup_erase _ _⟩
  | _ => cases h

/-- The result of no pending command leaves them all. -/
theorem lookup_popPending_of_none {w : MainWindow} {id : Json} (h : (w.popPending id).1 = none)
    {key : ByteString} (hkey : w.pendingCommands.lookup key = some intent) :
    (w.popPending id).2.pendingCommands.lookup key = some intent := by
  cases id with
  | string id =>
    refine lookup_erase_iff.2 ⟨?_, hkey⟩
    rintro rfl
    rw [show w.pendingCommands.lookup key = none from h] at hkey
    cases hkey
  | _ => exact hkey

/-- What is sent on a result is pending as a start of the capture. -/
theorem lookup_resultFor_of_some {w : MainWindow} {ok : Bool} {value : Json} {key : ByteString}
    (hpopped : w.pendingCommands.lookup key = none) :
    (MainWindow.resultFor (some intent) ok value w).1.pendingCommands.lookup key ≠ some intent := by
  intro hkey
  cases intent with
  | configure =>
    cases ok with
    | false =>
      change w.pendingCommands.lookup key = _ at hkey
      rw [hpopped] at hkey
      cases hkey
    | true =>
      rcases lookup_insert_iff.1 hkey with ⟨-, hintent⟩ | ⟨-, hkey⟩
      · cases hintent
      · rw [hpopped] at hkey
        cases hkey
  | _ =>
    cases ok <;>
    · change w.pendingCommands.lookup key = _ at hkey
      rw [hpopped] at hkey
      cases hkey

theorem pending_onResultReceived (result : Json) (s : ConnectionWindow) :
    (s.onResultReceived result).window.pendingCommands =
        (s.window.onResultReceived result).1.pendingCommands ∨
      (s.onResultReceived result).window.pendingCommands =
        (s.window.popPending ((result.find (ascii "id")).getD (.string []))).2.pendingCommands := by
  unfold onResultReceived
  split
  · rename_i hresult
    exact .inl (by rw [hresult])
  · rename_i hresult _
    exact .inl (by rw [hresult])
  · exact .inr rfl

theorem lookup_onResultReceived_of_none (h : s.answered result = none) {key : ByteString}
    (hkey : s.window.pendingCommands.lookup key = some intent) :
    (s.onResultReceived result).window.pendingCommands.lookup key = some intent := by
  have hpop := lookup_popPending_of_none h hkey
  rcases pending_onResultReceived result s with hpending | hpending
  · rw [hpending]
    unfold answered at h
    simp only [MainWindow.onResultReceived, h]
    exact hpop
  · rw [hpending]
    exact hpop

theorem lookup_onResultReceived_of_some (h : s.answered result = some intent) :
    ∃ key, s.window.pendingCommands.lookup key = some intent ∧
      (s.onResultReceived result).window.pendingCommands.lookup key ≠ some intent := by
  obtain ⟨key, hkey, hpopped⟩ := lookup_popPending h
  refine ⟨key, hkey, ?_⟩
  rcases pending_onResultReceived result s with hpending | hpending
  · rw [hpending]
    unfold answered at h
    simp only [MainWindow.onResultReceived, h]
    exact lookup_resultFor_of_some hpopped
  · rw [hpending, hpopped]
    exact (Option.some_ne_none intent).symm

/-! ### One step -/

theorem attached_of_connects (hconnects : s.Connects a) (hstep : Step s a t) : Attached s t := by
  unfold Step perform at hstep
  cases a with
  | toggleConnection pathGiven =>
    obtain ⟨rfl, hreturned⟩ := hconnects
    have hnot : ¬ ∃ w ∈ s.worker, (s.threads w).isRunning = true := by
      rintro ⟨w, hw, hrunning⟩
      exact Bool.false_ne_true ((hreturned w hw).symm.trans hrunning)
    simp only at hstep
    split at hstep
    · cases hstep
      rw [toggleConnection_of_not_running true hnot]
      exact ⟨rfl, rfl, rfl, rfl, rfl⟩
    · cases hstep
  | startCapture config cliFound pathGiven raises =>
    obtain ⟨rfl, hconnection, hrunning⟩ := hconnects
    have hsame : ∀ window, ({ s with window } : ConnectionWindow).connection = none :=
      fun _ => hconnection
    simp only at hstep
    split at hstep
    · cases hstep
      simp only [startCapture, hsame]
      rw [if_pos hrunning]
      exact ⟨rfl, rfl, rfl, rfl, rfl⟩
    · cases hstep
  | connectorReady pathGiven =>
    obtain rfl : pathGiven = true := hconnects
    simp only at hstep
    split at hstep
    · cases hstep
      exact ⟨rfl, rfl, rfl, rfl, rfl⟩
    · cases hstep
  | _ => exact hconnects.elim

theorem deliver_inv {w : ℕ} (hstep : Step s (.deliver w) t) :
    ∃ signal signals, (s.threads w).signals = signal :: signals ∧
      t = (s.setThread w ⟨(s.threads w).phase, signals⟩).onSignal w signal := by
  unfold Step perform at hstep
  simp only at hstep
  split at hstep
  · cases hstep
  · rename_i signal signals hsignals
    cases hstep
    exact ⟨signal, signals, hsignals, rfl⟩

theorem onConnected_fields (s : ConnectionWindow) :
    s.onConnected.ipcConnected = true ∧ s.onConnected.worker = s.worker ∧
      s.onConnected.created = s.created ∧ s.onConnected.threads = s.threads := by
  unfold onConnected
  simp only
  split
  · split
    · exact ⟨rfl, rfl, rfl, rfl⟩
    · exact ⟨rfl, rfl, rfl, rfl⟩
  · unfold requestStatusSync
    split
    · exact ⟨rfl, rfl, rfl, rfl⟩
    · exact ⟨rfl, rfl, rfl, rfl⟩

theorem onDisconnected_fields (s : ConnectionWindow) :
    s.onDisconnected.ipcConnected = false ∧ s.onDisconnected.worker = s.worker ∧
      s.onDisconnected.created = s.created ∧ s.onDisconnected.threads = s.threads ∧
      s.onDisconnected.window.pendingCommands = ∅ := by
  unfold onDisconnected
  simp only
  split
  · exact ⟨rfl, rfl, rfl, rfl, rfl⟩
  · exact ⟨rfl, rfl, rfl, rfl, rfl⟩

theorem ConnectedToWorker.of_sameConnection (h : s.ConnectedToWorker) (hsame : SameConnection s t) :
    t.ConnectedToWorker := by
  unfold ConnectedToWorker
  rw [hsame.ipcConnected, hsame.worker, hsame.lastConnected]
  exact h

theorem connectedToWorker_of_not_connected (h : s.ipcConnected = false) : s.ConnectedToWorker :=
  fun hconnected => absurd (h.symm.trans hconnected) Bool.false_ne_true

/-- What a slot does is right exactly when its signal comes in turn. -/
theorem onSignal_iff (h : s.ConnectedToWorker) (w : ℕ) (signal : WorkerSignal) :
    ((s.onSignal w signal).ConnectedToWorker ∧ ∀ v, s.worker = some v → v ≠ w →
      (s.onSignal w signal).worker = some v ∧ ∀ id intent,
        s.window.pendingCommands.lookup id = some intent →
          (s.onSignal w signal).window.pendingCommands.lookup id = some intent) ↔
      s.SignalInTurn w signal := by
  cases signal with
  | connecting =>
    exact iff_of_true
      ⟨connectedToWorker_of_not_connected rfl, fun _ hv _ => ⟨hv, fun _ _ hid => hid⟩⟩ trivial
  | connected =>
    obtain ⟨hconnected, hworker, -, -⟩ := onConnected_fields s
    constructor
    · rintro ⟨hto, -⟩
      obtain ⟨v, hv, hlast⟩ := hto hconnected
      cases hlast
      exact hworker.symm.trans hv
    · intro hcurrent
      refine ⟨fun _ => ⟨w, hworker.trans hcurrent, rfl⟩, fun v hv hne => ?_⟩
      rw [show s.worker = some w from hcurrent] at hv
      exact absurd (Option.some.inj hv).symm hne
  | disconnected =>
    obtain ⟨hconnected, hworker, -, -, hpending⟩ := onDisconnected_fields s
    constructor
    · rintro ⟨-, hlate⟩ v hv hne id
      rw [Option.eq_none_iff_forall_ne_some]
      intro intent hid
      have hkept := (hlate v hv hne).2 id intent hid
      rw [show (s.onSignal w .disconnected).window.pendingCommands = ∅ from hpending] at hkept
      cases hkept
    · intro hnone
      refine ⟨connectedToWorker_of_not_connected hconnected, fun v hv hne => ⟨hworker.trans hv, ?_⟩⟩
      intro id intent hid
      rw [hnone v hv hne id] at hid
      cases hid
  | finished =>
    obtain ⟨hconnected, -⟩ := onDisconnected_fields s
    constructor
    · rintro ⟨-, hlate⟩ v hv
      by_contra hne
      cases (hlate v hv hne).1
    · intro hcurrent
      exact ⟨connectedToWorker_of_not_connected hconnected,
        fun v hv hne => absurd (hcurrent v hv) hne⟩
  | result message =>
    have hsame := worker_onResultReceived message s
    constructor
    · rintro ⟨-, hlate⟩ v hv hne
      rw [Option.eq_none_iff_forall_ne_some]
      intro intent hanswered
      obtain ⟨key, hkey, hlost⟩ := lookup_onResultReceived_of_some hanswered
      exact hlost ((hlate v hv hne).2 key intent hkey)
    · intro hnone
      refine ⟨h.of_sameConnection hsame, fun v hv hne => ⟨hsame.worker.trans hv, ?_⟩⟩
      intro id intent hid
      exact lookup_onResultReceived_of_none (hnone v hv hne) hid
  | status message =>
    have hwindow : (s.window.onStatusReceived message).pendingCommands =
        s.window.pendingCommands := by
      unfold MainWindow.onStatusReceived
      split <;> rfl
    refine iff_of_true ⟨h, fun v hv _ => ⟨hv, fun id intent hid => ?_⟩⟩ trivial
    change (s.window.onStatusReceived message).pendingCommands.lookup id = _
    rw [hwindow]
    exact hid
  | other => exact iff_of_true ⟨h, fun _ hv _ => ⟨hv, fun _ _ hid => hid⟩⟩ trivial

/-- A step is right exactly when it comes in turn. -/
theorem signalsInTurn_iff (h : s.ConnectedToWorker) (hcreated : ∀ w ∈ s.worker, w < s.created)
    (hstep : Step s a t) :
    (t.ConnectedToWorker ∧ LateSignalIdle s a t) ↔ s.SignalsInTurn a := by
  by_cases hdeliver : ∃ w, a = .deliver w
  · obtain ⟨w, rfl⟩ := hdeliver
    obtain ⟨signal, signals, hsignals, rfl⟩ := deliver_inv hstep
    have hiff := onSignal_iff (s := s.setThread w ⟨(s.threads w).phase, signals⟩) h w signal
    constructor
    · rintro ⟨hconnected, hlate⟩
      refine ⟨fun hconnects => hconnects.elim, ?_⟩
      rintro w' signal' signals' hw' hsignals'
      cases hw'
      rw [hsignals] at hsignals'
      cases hsignals'
      exact hiff.1 ⟨hconnected, fun v hv hne => hlate v w rfl hv hne⟩
    · intro hturn
      obtain ⟨hconnected, hlate⟩ := hiff.2 (hturn.2 w signal signals rfl hsignals)
      refine ⟨hconnected, ?_⟩
      rintro v w' hw' hv hne
      cases hw'
      exact hlate v hv hne
  · have hlate : LateSignalIdle s a t := fun _ w hw => absurd ⟨w, hw⟩ hdeliver
    have hturn : s.SignalsInTurn a ↔ (s.Connects a → s.ipcConnected = false) :=
      and_iff_left fun w _ _ hw => absurd ⟨w, hw⟩ hdeliver
    rw [and_iff_left hlate, hturn]
    by_cases hconnects : s.Connects a
    · have hattached := attached_of_connects hconnects hstep
      constructor
      · intro hconnected _
        apply eq_false_of_ne_true
        intro htrue
        obtain ⟨v, hv, hlast⟩ := h htrue
        obtain ⟨v', hv', hlast'⟩ := hconnected (hattached.ipcConnected.trans htrue)
        rw [hattached.worker] at hv'
        rw [hattached.lastConnected, hlast] at hlast'
        cases hv'
        cases hlast'
        exact absurd (hcreated _ hv) (lt_irrefl _)
      · intro hturn
        exact connectedToWorker_of_not_connected (hattached.ipcConnected.trans (hturn hconnects))
    · refine iff_of_true ?_ fun h => absurd h hconnects
      rcases step_cases hstep with
        hsame | hdetached | ⟨h, -⟩ | ⟨w, event, thread, -, -, rfl⟩ | hsignal
      · exact h.of_sameConnection hsame
      · exact connectedToWorker_of_not_connected hdetached.ipcConnected
      · exact absurd h hconnects
      · exact h
      · obtain ⟨w, -, -, rfl, -⟩ := hsignal
        exact absurd ⟨w, rfl⟩ hdeliver

/-- A slot keeps the threads, and drops the worker or keeps it. -/
theorem onSignal_fields (w : ℕ) (signal : WorkerSignal) (s : ConnectionWindow) :
    (s.onSignal w signal).created = s.created ∧ (s.onSignal w signal).threads = s.threads ∧
      ∀ v, (s.onSignal w signal).worker = some v → s.worker = some v := by
  cases signal with
  | connected =>
    obtain ⟨-, hworker, hcreated, hthreads⟩ := onConnected_fields s
    exact ⟨hcreated, hthreads, fun v hv => hworker.symm.trans hv⟩
  | disconnected =>
    obtain ⟨-, hworker, hcreated, hthreads, -⟩ := onDisconnected_fields s
    exact ⟨hcreated, hthreads, fun v hv => hworker.symm.trans hv⟩
  | finished =>
    obtain ⟨-, -, hcreated, hthreads, -⟩ := onDisconnected_fields s
    exact ⟨hcreated, hthreads, fun v hv => nomatch hv⟩
  | result message =>
    have hsame := worker_onResultReceived message s
    exact ⟨hsame.created, hsame.threads, fun v hv => hsame.worker.symm.trans hv⟩
  | _ => exact ⟨rfl, rfl, fun _ hv => hv⟩

theorem worker_lt_created (hcreated : ∀ w ∈ s.worker, w < s.created) (hstep : Step s a t) :
    ∀ w ∈ t.worker, w < t.created := by
  rcases step_cases hstep with
    hsame | hdetached | ⟨-, hattached⟩ | ⟨w, event, thread, -, -, rfl⟩ | hsignal
  · rw [hsame.worker, hsame.created]
    exact hcreated
  · rw [hdetached.worker]
    exact fun _ h => nomatch h
  · rw [hattached.worker, hattached.created]
    rintro w ⟨⟩
    exact Nat.lt_succ_self _
  · exact hcreated
  · obtain ⟨w, signal, signals, -, -, rfl⟩ := hsignal
    obtain ⟨hcreated', -, hworker⟩ :=
      onSignal_fields w signal (s.setThread w ⟨(s.threads w).phase, signals⟩)
    rw [hcreated']
    exact fun v hv => hcreated v (hworker v hv)

theorem signalsInTurn_iff_of_run {actions : List WindowAction}
    (hrun : Run (Guarded Step SignalsInTurn) {} actions s) :
    s.ConnectedToWorker ∧
      ∀ a t, Step s a t → ((t.ConnectedToWorker ∧ LateSignalIdle s a t) ↔ s.SignalsInTurn a) := by
  have hkeep : ∀ s a t, (s.ConnectedToWorker ∧ ∀ w ∈ s.worker, w < s.created) →
      Guarded Step SignalsInTurn s a t → t.ConnectedToWorker ∧ ∀ w ∈ t.worker, w < t.created := by
    rintro s a t ⟨h, hcreated⟩ ⟨hturn, hstep⟩
    exact ⟨((signalsInTurn_iff h hcreated hstep).2 hturn).1, worker_lt_created hcreated hstep⟩
  obtain ⟨h, hcreated⟩ := hrun.invariant hkeep ⟨(nomatch ·), fun _ h => nomatch h⟩
  exact ⟨h, fun a t hstep => signalsInTurn_iff h hcreated hstep⟩

/-! ### One worker after the other -/

/-- A worker is created only when every earlier one is done, and none reports that it is
connected after it was given up. -/
def OneAfterTheOther (s : ConnectionWindow) (a : WindowAction) : Prop :=
  (s.Connects a → ∀ w < s.created, (s.threads w).Done) ∧
    ∀ w signals, a = .deliver w → (s.threads w).signals = .connected :: signals → s.worker = some w

/-- The worker of a window is the only one that is not done, and while the window is
connected it has not reported the end. -/
structure Attended (s : ConnectionWindow) : Prop where
  fresh : ∀ w, s.created ≤ w → s.threads w = {}
  current : ∀ v, s.worker = some v →
    v < s.created ∧ ∀ w, w ≠ v → (s.threads w).Done
  ordered : ∀ w, (s.threads w).Ordered
  connected : s.ipcConnected = true →
    ∃ w, s.worker = some w ∧ s.lastConnected = some w ∧ (s.threads w).Open

theorem attended_initial : Attended {} :=
  { fresh := fun _ _ => rfl
    current := fun _ h => nomatch h
    ordered := fun _ before _ h => by cases before <;> cases h
    connected := fun h => nomatch h }

theorem done_default : WorkerThread.Done {} := ⟨rfl, rfl⟩

theorem Attended.of_sameConnection (h : s.Attended) (hsame : SameConnection s t) : t.Attended where
  fresh w hw := by
    rw [hsame.threads]
    exact h.fresh w (hsame.created ▸ hw)
  current v hv := by
    rw [hsame.created, hsame.threads]
    exact h.current v (hsame.worker ▸ hv)
  ordered w := hsame.threads ▸ h.ordered w
  connected hconnected := by
    rw [hsame.worker, hsame.lastConnected, hsame.threads]
    exact h.connected (hsame.ipcConnected ▸ hconnected)

theorem Attended.of_detached (h : s.Attended) (hdetached : Detached s t) : t.Attended where
  fresh w hw := by
    rw [hdetached.threads]
    exact h.fresh w (hdetached.created ▸ hw)
  current v hv := by
    rw [hdetached.worker] at hv
    cases hv
  ordered w := hdetached.threads ▸ h.ordered w
  connected hconnected := by
    rw [hdetached.ipcConnected] at hconnected
    cases hconnected

/-- When every worker is done the window is not connected. -/
theorem Attended.not_connected (h : s.Attended) (hdone : ∀ w < s.created, (s.threads w).Done) :
    s.ipcConnected = false := by
  apply eq_false_of_ne_true
  intro hconnected
  obtain ⟨w, hworker, -, hopen⟩ := h.connected hconnected
  exact WorkerThread.not_open_of_done (hdone w (h.current w hworker).1) hopen

theorem Attended.of_attached (h : s.Attended) (hdone : ∀ w < s.created, (s.threads w).Done)
    (hattached : Attached s t) : t.Attended where
  fresh w hw := by
    rw [hattached.created] at hw
    rw [hattached.threads, Function.update_of_ne (by omega)]
    exact h.fresh w (by omega)
  current v hv := by
    rw [hattached.worker] at hv
    cases hv
    refine ⟨by rw [hattached.created]; omega, fun w hw => ?_⟩
    rw [hattached.threads, Function.update_of_ne hw]
    rcases lt_or_ge w s.created with hlt | hge
    · exact hdone w hlt
    · rw [h.fresh w hge]
      exact done_default
  ordered w := by
    rw [hattached.threads]
    by_cases hw : w = s.created
    · subst hw
      rw [Function.update_self]
      intro before after hsplit
      exact .inl fun h => nomatch h
    · rw [Function.update_of_ne hw]
      exact h.ordered w
  connected hconnected := by
    rw [hattached.ipcConnected, h.not_connected hdone] at hconnected
    cases hconnected

/-- A worker that exists goes on. -/
theorem Attended.of_worker {w : ℕ} {event : WorkerEvent} {thread : WorkerThread} (h : s.Attended)
    (hthread : (s.threads w).happen event = some thread) : (s.setThread w thread).Attended := by
  have hrunning := (WorkerThread.happen_cases hthread).1
  have hcreated : w < s.created := by
    by_contra hge
    rw [h.fresh w (by omega)] at hrunning
    exact hrunning rfl
  constructor
  · intro w' hw'
    have hne : w' ≠ w := by
      change s.created ≤ w' at hw'
      omega
    change Function.update s.threads w thread w' = _
    rw [Function.update_of_ne hne]
    exact h.fresh w' hw'
  · intro v hv
    obtain ⟨hlt, hothers⟩ := h.current v hv
    have hcurrent : w = v := by
      by_contra hne
      exact hrunning (hothers w hne).1
    refine ⟨hlt, fun w' hw' => ?_⟩
    change (Function.update s.threads w thread w').Done
    rw [Function.update_of_ne (hcurrent ▸ hw')]
    exact hothers w' hw'
  · intro w'
    change (Function.update s.threads w thread w').Ordered
    by_cases hw' : w' = w
    · subst hw'
      rw [Function.update_self]
      exact WorkerThread.ordered_of_happen hthread
    · rw [Function.update_of_ne hw']
      exact h.ordered w'
  · intro hconnected
    obtain ⟨v, hworker, hlast, hopen⟩ := h.connected hconnected
    refine ⟨v, hworker, hlast, ?_⟩
    change (Function.update s.threads w thread v).Open
    by_cases hv : v = w
    · subst hv
      rw [Function.update_self]
      exact WorkerThread.open_of_happen hthread
    · rw [Function.update_of_ne hv]
      exact hopen

/-- A message of a worker leaves it as it was. -/
theorem Attended.open_of_message {w : ℕ} {signal : WorkerSignal} {signals : List WorkerSignal}
    (h : s.Attended) (hsignals : (s.threads w).signals = signal :: signals)
    (hsignal : signal ≠ .disconnected)
    (hsame : SameConnection (s.setThread w ⟨(s.threads w).phase, signals⟩) t)
    (hconnected : t.ipcConnected = true) :
    ∃ v, t.worker = some v ∧ t.lastConnected = some v ∧
      (Function.update s.threads w ⟨(s.threads w).phase, signals⟩ v).Open := by
  obtain ⟨v, hworker, hlast, hopen⟩ := h.connected (hsame.ipcConnected.symm.trans hconnected)
  refine ⟨v, hsame.worker.trans hworker, hsame.lastConnected.trans hlast, ?_⟩
  by_cases hv : v = w
  · subst hv
    rw [Function.update_self]
    exact hopen.tail hsignals hsignal
  · rw [Function.update_of_ne hv]
    exact hopen

/-- Behind the end the window is not connected any more. -/
theorem Attended.connected_of_deliver {w : ℕ} {signal : WorkerSignal} {signals : List WorkerSignal}
    (h : s.Attended) (hsignals : (s.threads w).signals = signal :: signals)
    (hcurrent : signal = .connected → s.worker = some w)
    (hconnected : ((s.setThread w ⟨(s.threads w).phase, signals⟩).onSignal w signal).ipcConnected =
      true) :
    ∃ v, ((s.setThread w ⟨(s.threads w).phase, signals⟩).onSignal w signal).worker = some v ∧
      ((s.setThread w ⟨(s.threads w).phase, signals⟩).onSignal w signal).lastConnected = some v ∧
      (Function.update s.threads w ⟨(s.threads w).phase, signals⟩ v).Open := by
  cases signal with
  | connecting => cases hconnected
  | connected =>
    obtain ⟨-, hworker, -, -⟩ := onConnected_fields (s.setThread w ⟨(s.threads w).phase, signals⟩)
    refine ⟨w, hworker.trans (hcurrent rfl), rfl, ?_⟩
    rw [Function.update_self]
    exact (h.ordered w).open_tail hsignals
  | disconnected =>
    have hlost := (onDisconnected_fields (s.setThread w ⟨(s.threads w).phase, signals⟩)).1
    exact absurd (hlost.symm.trans hconnected) Bool.false_ne_true
  | finished =>
    have hlost := (onDisconnected_fields (s.setThread w ⟨(s.threads w).phase, signals⟩)).1
    exact absurd (hlost.symm.trans hconnected) Bool.false_ne_true
  | result message =>
    exact h.open_of_message hsignals (by simp) (worker_onResultReceived message _) hconnected
  | status message =>
    exact h.open_of_message hsignals (by simp) ⟨rfl, rfl, rfl, rfl, rfl⟩ hconnected
  | other => exact h.open_of_message hsignals (by simp) (.refl _) hconnected

/-- A signal is delivered. -/
theorem Attended.of_deliver {w : ℕ} {signal : WorkerSignal} {signals : List WorkerSignal}
    (h : s.Attended) (hsignals : (s.threads w).signals = signal :: signals)
    (hcurrent : signal = .connected → s.worker = some w) :
    ((s.setThread w ⟨(s.threads w).phase, signals⟩).onSignal w signal).Attended := by
  obtain ⟨hcreated, hthreads, hworker⟩ :=
    onSignal_fields w signal (s.setThread w ⟨(s.threads w).phase, signals⟩)
  have hdone : ∀ w', (s.threads w').Done → w' ≠ w := by
    rintro w' hdone rfl
    rw [hdone.2] at hsignals
    cases hsignals
  have hcreated_w : w < s.created := by
    by_contra hge
    exact hdone w (h.fresh w (by omega) ▸ done_default) rfl
  constructor
  · intro w' hw'
    rw [hcreated] at hw'
    change s.created ≤ w' at hw'
    rw [hthreads]
    refine Eq.trans (Function.update_of_ne ?_ _ _) (h.fresh w' hw')
    omega
  · intro v hv
    obtain ⟨hlt, hothers⟩ := h.current v (hworker v hv)
    rw [hcreated, hthreads]
    refine ⟨hlt, fun w' hw' => ?_⟩
    change (Function.update s.threads w _ w').Done
    rw [Function.update_of_ne (hdone w' (hothers w' hw'))]
    exact hothers w' hw'
  · intro w'
    rw [hthreads]
    change (Function.update s.threads w _ w').Ordered
    by_cases hw' : w' = w
    · subst hw'
      rw [Function.update_self]
      exact (h.ordered w').tail hsignals
    · rw [Function.update_of_ne hw']
      exact h.ordered w'
  · rw [hthreads]
    exact h.connected_of_deliver hsignals hcurrent

theorem Attended.step (h : s.Attended) (hturn : s.OneAfterTheOther a) (hstep : Step s a t) :
    t.Attended := by
  rcases step_cases hstep with
    hsame | hdetached | ⟨hconnects, hattached⟩ | ⟨w, event, thread, -, hthread, rfl⟩ | hsignal
  · exact h.of_sameConnection hsame
  · exact h.of_detached hdetached
  · exact h.of_attached (hturn.1 hconnects) hattached
  · exact h.of_worker hthread
  · obtain ⟨w, signal, signals, ha, hsignals, rfl⟩ := hsignal
    refine h.of_deliver hsignals ?_
    rintro rfl
    exact hturn.2 w signals ha hsignals

/-- When there is one worker after the other no signal is late. -/
theorem Attended.signalsInTurn (h : s.Attended) (hturn : s.OneAfterTheOther a) :
    s.SignalsInTurn a := by
  refine ⟨fun hconnects => h.not_connected (hturn.1 hconnects), ?_⟩
  intro w signal signals ha hsignals
  have hcurrent : ∀ v ∈ s.worker, v = w := by
    intro v hv
    by_contra hne
    have hdone := (h.current v hv).2 w (Ne.symm hne)
    rw [hdone.2] at hsignals
    cases hsignals
  cases signal with
  | connected => exact hturn.2 w signals ha hsignals
  | disconnected => exact fun v hv hne => absurd (hcurrent v hv) hne
  | finished => exact hcurrent
  | result message => exact fun v hv hne => absurd (hcurrent v hv) hne
  | _ => trivial

theorem signalsInTurn_of_oneAfterTheOther {actions : List WindowAction}
    (hrun : Run (Guarded Step OneAfterTheOther) {} actions s) :
    Run (Guarded Step SignalsInTurn) {} actions s := by
  suffices h : Run (Guarded Step SignalsInTurn) {} actions s ∧ s.Attended from h.1
  refine Run.trace_induction (P := fun actions s =>
    Run (Guarded Step SignalsInTurn) {} actions s ∧ s.Attended) ⟨.nil _, attended_initial⟩ ?_ hrun
  rintro actions s a t - ⟨hrun, h⟩ ⟨hturn, hstep⟩
  exact ⟨hrun.snoc ⟨h.signalsInTurn hturn, hstep⟩, h.step hturn hstep⟩

/-! ### Runs -/

/-- In every run whose signals come in turn, a connected window shows the connection of its
own worker, and exactly the steps in turn keep it so and leave the current worker. They come
in turn when there is one worker after the other. -/
theorem connectedToWorker_of_signalsInTurn (actions : List WindowAction) :
    (Run (Guarded Step SignalsInTurn) {} actions s →
      s.ConnectedToWorker ∧
        ∀ a t, Step s a t → ((t.ConnectedToWorker ∧ LateSignalIdle s a t) ↔ s.SignalsInTurn a)) ∧
    (Run (Guarded Step OneAfterTheOther) {} actions s →
      Run (Guarded Step SignalsInTurn) {} actions s) :=
  ⟨signalsInTurn_iff_of_run, signalsInTurn_of_oneAfterTheOther⟩

/-- A window attaches to an engine. -/
def attach (w : ℕ) : List WindowAction :=
  [.toggleConnection true, .worker w .start, .worker w .accept, .deliver w, .deliver w]

theorem signalsInTurn_of_not_deliver (hdeliver : ∀ w, a ≠ .deliver w)
    (hconnected : s.ipcConnected = false) : s.SignalsInTurn a :=
  ⟨fun _ => hconnected, fun w _ _ ha => absurd ha (hdeliver w)⟩

theorem attach_signalsInTurn :
    ∃ s, Run (Guarded Step SignalsInTurn) {} (attach 0) s ∧ s.ipcConnected = true ∧
      s.worker = some 0 := by
  have hclicked : SignalsInTurn {} (.toggleConnection true) :=
    signalsInTurn_of_not_deliver (by simp) rfl
  refine ⟨_, .cons ⟨hclicked, rfl⟩ (.cons ⟨signalsInTurn_of_not_deliver (by simp) rfl, rfl⟩
    (.cons ⟨signalsInTurn_of_not_deliver (by simp) rfl, rfl⟩
    (.cons ⟨⟨False.elim, ?_⟩, rfl⟩ (.cons ⟨⟨False.elim, ?_⟩, rfl⟩ (.nil _))))), rfl, rfl⟩
  · rintro w signal signals ⟨⟩ ⟨⟩
    trivial
  · rintro w signal signals ⟨⟩ ⟨⟩
    rfl

theorem connectedToWorker_of_attach :
    ∃ s : ConnectionWindow, s.worker = some 0 ∧ s.ipcConnected = true ∧ s.ConnectedToWorker := by
  obtain ⟨s, hrun, hconnected, hworker⟩ := attach_signalsInTurn
  exact ⟨s, hworker, hconnected, ((connectedToWorker_of_signalsInTurn _).1 hrun).1⟩

/-- The window detaches and attaches again while its worker shuts down. -/
def attachTwice : List WindowAction :=
  attach 0 ++ [.toggleConnection true, .toggleConnection true, .worker 0 .close, .deliver 0]

/-- The end of the first worker, and the beginning of the second. -/
def connectLate : List WindowAction :=
  [.deliver 0, .worker 1 .start, .worker 1 .accept, .deliver 1, .deliver 1]

/-- The late `disconnected()` of the first worker removes the second, whose `connected` is
then delivered to a window without a worker. -/
theorem late_end_removes_worker :
    ∃ s t, Run Step {} attachTwice s ∧ s.worker = some 1 ∧ Run Step s connectLate t ∧
      t.ipcConnected = true ∧ t.worker = none ∧ ¬ t.ConnectedToWorker := by
  obtain ⟨s, hrun, hworker, hlate⟩ := Run.exists_of_foldlM (P := fun s : ConnectionWindow =>
      s.worker = some 1 ∧ ((connectLate.foldlM perform s).any fun t =>
        decide (t.ipcConnected = true ∧ t.worker = none)) = true)
    (show ((attachTwice.foldlM perform {}).any _) = true by decide +kernel)
  obtain ⟨t, hrest, hconnected, hnone⟩ := Run.exists_of_foldlM hlate
  refine ⟨s, t, hrun, hworker, hrest, hconnected, hnone, fun h => ?_⟩
  obtain ⟨w, hw, -⟩ := h hconnected
  rw [hnone] at hw
  cases hw

end ConnectionWindow

end PacketProbe
