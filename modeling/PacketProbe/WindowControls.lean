import PacketProbe.EngineEffects
import PacketProbe.MainWindow

/-!
# What the capture controls keep

The invariant of a connected window over its own buttons and over the messages of the
engine, and what replaying messages that are still in flight does to the window.
-/

namespace PacketProbe

/-- The engine state as a message names it. -/
def shownState (capturing : Bool) : Json :=
  .string (if capturing then ascii "capturing" else ascii "idle")

@[simp] theorem isCapturing_shownState (capturing : Bool) :
    isCapturing (shownState capturing) = capturing := by
  cases capturing <;> decide

theorem shownState_inj {a b : Bool} (h : shownState a = shownState b) : a = b := by
  rw [← isCapturing_shownState a, ← isCapturing_shownState b, h]

theorem commandIdOf_inj {m n : ℕ} : commandIdOf m = commandIdOf n ↔ m = n :=
  ⟨fun h => decimal_injective (List.append_cancel_left h), fun h => h ▸ rfl⟩

theorem commandIdOf_ne {m n : ℕ} (h : m < n) : commandIdOf m ≠ commandIdOf n :=
  fun heq => h.ne (commandIdOf_inj.1 heq)

/-- The commands the controls send. -/
def Intent.ofControls : Intent → Bool
  | .configure | .startCapture | .stopCapture => true
  | _ => false

/-- What the pending commands are: those of the controls, with ids already given away,
and a start among them exactly while the window is starting. -/
structure Bookkeeping (pending : AList fun _ : ByteString => Intent) (starting : Bool) (next : ℕ) :
    Prop where
  ofControls : ∀ id intent, pending.lookup id = some intent → intent.ofControls = true
  fresh : ∀ n, next ≤ n → pending.lookup (commandIdOf n) = none
  starting : starting = true ↔ ∃ id intent, pending.lookup id = some intent ∧ intent.isStart = true
  unique : ∀ id id' intent intent', pending.lookup id = some intent → intent.isStart = true →
    pending.lookup id' = some intent' → intent'.isStart = true → id = id'

section

variable {pending : AList fun _ : ByteString => Intent} {starting : Bool} {next : ℕ}
  {id key : ByteString} {intent : Intent}

theorem lookup_insert_iff {pending : AList fun _ : ByteString => Intent} {id key : ByteString}
    {intent intent' : Intent} :
    (pending.insert id intent).lookup key = some intent' ↔
      (key = id ∧ intent' = intent) ∨ (key ≠ id ∧ pending.lookup key = some intent') := by
  by_cases h : key = id
  · subst h
    simp [AList.lookup_insert, eq_comm]
  · simp [AList.lookup_insert_ne h, h]

theorem lookup_erase_iff {pending : AList fun _ : ByteString => Intent} {id key : ByteString}
    {intent : Intent} :
    (pending.erase id).lookup key = some intent ↔ key ≠ id ∧ pending.lookup key = some intent := by
  by_cases h : key = id
  · subst h
    simp [AList.lookup_erase]
  · simp [AList.lookup_erase_ne h, h]

theorem lookup_erase_eq_none (h : pending.lookup key = none) :
    (pending.erase id).lookup key = none := by
  rw [Option.eq_none_iff_forall_ne_some]
  intro intent herase
  rw [(lookup_erase_iff.1 herase).2] at h
  cases h

theorem lookup_erase_congr {pending' : AList fun _ : ByteString => Intent}
    (h : pending'.lookup key = pending.lookup key) :
    (pending'.erase id).lookup key = (pending.erase id).lookup key := by
  by_cases heq : key = id
  · rw [heq, AList.lookup_erase, AList.lookup_erase]
  · rw [AList.lookup_erase_ne heq, AList.lookup_erase_ne heq, h]

theorem Bookkeeping.erase_start (h : Bookkeeping pending starting next)
    (hid : pending.lookup id = some intent) (hstart : intent.isStart = true) :
    Bookkeeping (pending.erase id) false next := by
  refine ⟨fun key intent' hkey => h.ofControls key intent' (lookup_erase_iff.1 hkey).2,
    fun n hn => lookup_erase_eq_none (h.fresh n hn), ⟨fun hfalse => absurd hfalse (by decide), ?_⟩,
    ?_⟩
  · rintro ⟨key, intent', hkey, hstart'⟩
    obtain ⟨hne, hkey⟩ := lookup_erase_iff.1 hkey
    exact absurd (h.unique key id intent' intent hkey hstart' hid hstart) hne
  · intro key key' _ _ hkey hs hkey' hs'
    exact h.unique key key' _ _ (lookup_erase_iff.1 hkey).2 hs (lookup_erase_iff.1 hkey').2 hs'

theorem Bookkeeping.erase_other (h : Bookkeeping pending starting next) (id : ByteString)
    (hid : ∀ intent, pending.lookup id = some intent → intent.isStart = false) :
    Bookkeeping (pending.erase id) starting next := by
  refine ⟨fun key intent' hkey => h.ofControls key intent' (lookup_erase_iff.1 hkey).2,
    fun n hn => lookup_erase_eq_none (h.fresh n hn), h.starting.trans ⟨?_, ?_⟩, ?_⟩
  · rintro ⟨key, intent', hkey, hstart⟩
    refine ⟨key, intent', lookup_erase_iff.2 ⟨?_, hkey⟩, hstart⟩
    rintro rfl
    exact absurd hstart (by simp [hid intent' hkey])
  · rintro ⟨key, intent', hkey, hstart⟩
    exact ⟨key, intent', (lookup_erase_iff.1 hkey).2, hstart⟩
  · intro key key' _ _ hkey hs hkey' hs'
    exact h.unique key key' _ _ (lookup_erase_iff.1 hkey).2 hs (lookup_erase_iff.1 hkey').2 hs'

theorem fresh_insert (h : Bookkeeping pending starting next) (n : ℕ) (hn : next + 1 ≤ n) :
    (pending.insert (commandIdOf next) intent).lookup (commandIdOf n) = none := by
  have hne : commandIdOf next ≠ commandIdOf n := commandIdOf_ne hn
  rw [AList.lookup_insert_ne hne.symm]
  exact h.fresh n (by omega)

theorem Bookkeeping.insert_start (h : Bookkeeping pending false next) (intent : Intent)
    (hintent : intent.isStart = true) :
    Bookkeeping (pending.insert (commandIdOf next) intent) true (next + 1) := by
  have hnone : ∀ key intent', pending.lookup key = some intent' → intent'.isStart = true → False :=
    fun key intent' hkey hstart => absurd (h.starting.2 ⟨key, intent', hkey, hstart⟩) (by decide)
  refine ⟨fun key intent' hkey => ?_, fresh_insert h, ⟨fun _ => ?_, fun _ => rfl⟩, ?_⟩
  · rcases lookup_insert_iff.1 hkey with ⟨-, rfl⟩ | ⟨-, hold⟩
    · revert hintent
      cases intent' <;> decide
    · exact h.ofControls key intent' hold
  · exact ⟨_, intent, AList.lookup_insert _, hintent⟩
  · intro key key' _ _ hkey hs hkey' hs'
    rcases lookup_insert_iff.1 hkey with ⟨rfl, -⟩ | ⟨-, hold⟩
    · rcases lookup_insert_iff.1 hkey' with ⟨rfl, -⟩ | ⟨-, hold'⟩
      · rfl
      · exact (hnone _ _ hold' hs').elim
    · exact (hnone _ _ hold hs).elim

theorem Bookkeeping.insert_stop (h : Bookkeeping pending starting next) :
    Bookkeeping (pending.insert (commandIdOf next) .stopCapture) starting (next + 1) := by
  have hstart : ∀ key intent, intent.isStart = true →
      ((pending.insert (commandIdOf next) .stopCapture).lookup key = some intent ↔
        pending.lookup key = some intent) := by
    intro key intent hintent
    rw [lookup_insert_iff]
    constructor
    · rintro (⟨-, rfl⟩ | ⟨-, hold⟩)
      · cases hintent
      · exact hold
    · intro hold
      refine .inr ⟨?_, hold⟩
      rintro rfl
      rw [h.fresh next le_rfl] at hold
      cases hold
  refine ⟨fun key intent hkey => ?_, fresh_insert h, h.starting.trans ⟨?_, ?_⟩, ?_⟩
  · rcases lookup_insert_iff.1 hkey with ⟨-, rfl⟩ | ⟨-, hold⟩
    · rfl
    · exact h.ofControls key intent hold
  · rintro ⟨key, intent, hkey, hintent⟩
    exact ⟨key, intent, (hstart key intent hintent).2 hkey, hintent⟩
  · rintro ⟨key, intent, hkey, hintent⟩
    exact ⟨key, intent, (hstart key intent hintent).1 hkey, hintent⟩
  · intro key key' _ _ hkey hs hkey' hs'
    exact h.unique key key' _ _ ((hstart _ _ hs).1 hkey) hs ((hstart _ _ hs').1 hkey') hs'

end

namespace MainWindow

/-- The invariant of a window: its bookkeeping, and what its buttons say. -/
structure Consistent (w : MainWindow) : Prop where
  bookkeeping : Bookkeeping w.pendingCommands w.startingCapture w.nextCommandId
  known : ∃ capturing, w.engineState = shownState capturing
  idle : w.startingCapture = true → w.engineState = shownState false
  start : w.startEnabled = true → w.startingCapture = false ∧ w.engineState = shownState false
  stop : w.stopEnabled = true → w.engineState = shownState true
  stopping : w.engineState = shownState true →
    w.stopEnabled = true ∨ ∃ id, w.pendingCommands.lookup id = some .stopCapture

variable {w : MainWindow} {id : ByteString} {ok : Bool} {value config : Json} {n : ℕ}

theorem consistent_applyEngineState (capturing : Bool)
    (hbook : Bookkeeping w.pendingCommands w.startingCapture w.nextCommandId)
    (hidle : w.startingCapture = true → capturing = false) :
    (w.applyEngineState (shownState capturing)).Consistent := by
  refine ⟨hbook, ⟨capturing, rfl⟩, fun hstarting => ?_, fun henabled => ?_, fun henabled => ?_,
    fun hshown => .inl ?_⟩
  · exact congrArg shownState (hidle hstarting)
  · simp only [applyEngineState, setCaptureControlsRunning, isCapturing_shownState,
      Bool.and_eq_true, Bool.not_eq_true'] at henabled ⊢
    exact ⟨henabled.2, congrArg shownState henabled.1⟩
  · simp only [applyEngineState, setCaptureControlsRunning, isCapturing_shownState] at henabled ⊢
    rw [henabled]
  · have hcapturing : capturing = true := shownState_inj hshown
    simp [applyEngineState, setCaptureControlsRunning, hcapturing]

theorem consistent_controls_false
    (hbook : Bookkeeping w.pendingCommands w.startingCapture w.nextCommandId)
    (hshown : w.engineState = shownState false) :
    (w.setCaptureControlsRunning false).Consistent := by
  refine ⟨hbook, ⟨false, hshown⟩, fun _ => hshown, fun henabled => ?_, fun henabled => ?_,
    fun hcapturing => ?_⟩
  · simp only [setCaptureControlsRunning, Bool.not_false, Bool.true_and,
      Bool.not_eq_true'] at henabled
    exact ⟨henabled, hshown⟩
  · simp [setCaptureControlsRunning] at henabled
  · exact absurd (shownState_inj (hshown.symm.trans hcapturing)) (by decide)

/-! ### The user's actions -/

theorem Consistent.startCapture (hw : w.Consistent) (henabled : w.startEnabled = true)
    (config : Json) :
    (w.startCapture config).1.Consistent := by
  obtain ⟨hstarting, hshown⟩ := hw.start henabled
  have hbook := (hstarting ▸ hw.bookkeeping).insert_start .configure rfl
  refine ⟨hbook, ⟨false, hshown⟩, fun _ => hshown, fun h => ?_, fun h => ?_, fun hcapturing => ?_⟩
  · simp [MainWindow.startCapture, configureAndStart, sendCommand, setCaptureControlsRunning] at h
  · simp [MainWindow.startCapture, configureAndStart, sendCommand, setCaptureControlsRunning] at h
  · exact absurd (shownState_inj (hshown.symm.trans hcapturing)) (by decide)

theorem Consistent.stopCapture (hw : w.Consistent) : w.stopCapture.1.Consistent := by
  refine ⟨hw.bookkeeping.insert_stop, hw.known, hw.idle, hw.start, fun h => ?_, fun _ => .inr ?_⟩
  · simp [MainWindow.stopCapture, sendCommand] at h
  · exact ⟨_, AList.lookup_insert _⟩

/-! ### The engine's messages -/

/-- A message of the engine for this client: an event, a status, or the result of one of
the first `n` commands. -/
inductive Incoming (client : IpcClientId) (n : ℕ) : Sent → Prop
  | event (event : PacketEvent) : Incoming client n (.broadcast event)
  | status (c : EngineController) : Incoming client n (.broadcastRaw c.statusMessage)
  | result (k : ℕ) (hk : k < n) (ok : Bool) (value : Json)
      (hresult : EngineController.IsResult (commandIdOf k) ok value) :
      Incoming client n (.toClient client value)

theorem Incoming.mono {client : IpcClientId} {message : Sent} (h : Incoming client n message)
    {m : ℕ} (hle : n ≤ m) : Incoming client m message := by
  cases h with
  | event event => exact .event event
  | status c => exact .status c
  | result k hk ok value hresult => exact .result k (lt_of_lt_of_le hk hle) ok value hresult

theorem onMessage_status (c : EngineController) (w : MainWindow) :
    w.onMessage (.broadcastRaw c.statusMessage) =
      (if w.startingCapture then w else w.applyEngineState (shownState c.capturing), []) := rfl

theorem onMessage_result {client : IpcClientId} (hresult : EngineController.IsResult id ok value)
    (w : MainWindow) :
    w.onMessage (.toClient client value) =
      resultFor (w.pendingCommands.lookup id) ok value (w.forget id) := by
  simp [onMessage, hresult.type, onResultReceived, hresult.id, hresult.ok, popPending, truthy]

theorem Consistent.resultFor (hw : w.Consistent) (id : ByteString) (ok : Bool) (value : Json) :
    (resultFor (w.pendingCommands.lookup id) ok value (w.forget id)).1.Consistent := by
  obtain ⟨shown, hknown⟩ := hw.known
  cases hid : w.pendingCommands.lookup id with
  | none =>
    have hbook := hw.bookkeeping.erase_other id (by simp [hid])
    refine ⟨hbook, hw.known, hw.idle, hw.start, hw.stop, fun hcapturing => ?_⟩
    refine (hw.stopping hcapturing).imp_right ?_
    rintro ⟨key, hkey⟩
    refine ⟨key, lookup_erase_iff.2 ⟨?_, hkey⟩⟩
    rintro rfl
    rw [hid] at hkey
    cases hkey
  | some intent =>
    have hcontrols := hw.bookkeeping.ofControls id intent hid
    cases intent with
    | configure =>
      have hstarting := hw.bookkeeping.starting.2 ⟨id, _, hid, rfl⟩
      have hshown := hw.idle hstarting
      have hbook := hw.bookkeeping.erase_start hid rfl
      cases ok with
      | false => exact consistent_controls_false hbook hshown
      | true =>
        have hbook' := hbook.insert_start .startCapture rfl
        refine ⟨?_, ⟨false, hshown⟩, fun _ => hshown, fun h => ?_, hw.stop, fun h => ?_⟩
        · simpa [MainWindow.resultFor, sendCommand, forget, hstarting] using hbook'
        · exact absurd ((hw.start h).1.symm.trans hstarting) (by decide)
        · exact absurd (shownState_inj (hshown.symm.trans h)) (by decide)
    | startCapture =>
      have hstarting := hw.bookkeeping.starting.2 ⟨id, _, hid, rfl⟩
      have hbook := hw.bookkeeping.erase_start hid rfl
      cases ok with
      | false => exact consistent_controls_false hbook (hw.idle hstarting)
      | true => exact consistent_applyEngineState true hbook fun h => nomatch h
    | stopCapture =>
      have hbook := hw.bookkeeping.erase_other id (by simp [hid, Intent.isStart])
      cases ok with
      | true => exact consistent_applyEngineState false hbook fun _ => rfl
      | false =>
        simp only [MainWindow.resultFor, Bool.false_eq_true, if_false, forget, hknown]
        exact consistent_applyEngineState shown hbook fun h =>
          shownState_inj (hknown.symm.trans (hw.idle h))
    | getStatus => cases hcontrols
    | send => cases hcontrols
    | listSerialPorts => cases hcontrols

theorem Consistent.onMessage (hw : w.Consistent) {client : IpcClientId} {message : Sent}
    (hmessage : Incoming client n message) : (w.onMessage message).1.Consistent := by
  cases hmessage with
  | event event => exact hw
  | status c =>
    rw [onMessage_status]
    by_cases hstarting : w.startingCapture = true
    · simpa only [if_pos hstarting] using hw
    · simp only [if_neg hstarting]
      exact consistent_applyEngineState _ hw.bookkeeping fun h => absurd h hstarting
  | result k hk ok value hresult =>
    rw [onMessage_result hresult]
    exact hw.resultFor _ ok value

/-! ### Messages still in flight -/

theorem settle_append (w : MainWindow) (messages more : List Sent) :
    w.settle (messages ++ more) = (w.settle messages).settle more := List.foldl_append

theorem Consistent.settle (hw : w.Consistent) {client : IpcClientId} {messages : List Sent}
    (hmessages : ∀ message ∈ messages, Incoming client n message) :
    (w.settle messages).Consistent := by
  induction messages generalizing w with
  | nil => exact hw
  | cons message messages ih =>
    have hfirst := hw.onMessage (hmessages message (by simp))
    exact ih hfirst fun m hm => hmessages m (by simp [hm])

/-- The result of command `k`. -/
def Answers (k : ℕ) (message : Sent) : Prop :=
  ∃ client value, message = .toClient client value ∧
    value.find (ascii "id") = some (.string (commandIdOf k))

theorem not_answers_of_incoming {client : IpcClientId} {message : Sent}
    (hmessage : Incoming client n message) : ¬ Answers n message := by
  rintro ⟨receiver, value, rfl, hid⟩
  cases hmessage with
  | result k hk ok _ hresult =>
    rw [hresult.id] at hid
    have heq := commandIdOf_inj.1 (Json.string.inj (Option.some.inj hid))
    omega

theorem nextCommandId_le_resultFor (intent : Option Intent) (ok : Bool) (value : Json)
    (w : MainWindow) : w.nextCommandId ≤ (resultFor intent ok value w).1.nextCommandId := by
  cases intent with
  | none => exact le_rfl
  | some intent =>
    cases intent with
    | configure =>
      cases ok with
      | false => exact le_rfl
      | true => exact Nat.le_succ _
    | _ => cases ok <;> exact le_rfl

theorem resultFor_lookup (intent : Option Intent) (ok : Bool) (value : Json) {k : ℕ}
    (hk : k < w.nextCommandId) :
    (resultFor intent ok value w).1.pendingCommands.lookup (commandIdOf k) =
      w.pendingCommands.lookup (commandIdOf k) := by
  cases intent with
  | none => rfl
  | some intent =>
    cases intent with
    | configure =>
      cases ok with
      | false => rfl
      | true => exact AList.lookup_insert_ne (commandIdOf_ne hk)
    | _ => cases ok <;> rfl

/-- Only the result of a `configure` makes a window send a command. -/
theorem resultFor_sends (intent : Option Intent) (ok : Bool) (value : Json) (w : MainWindow) :
    ((resultFor intent ok value w).2 = [] ∧
        (resultFor intent ok value w).1.nextCommandId = w.nextCommandId) ∨
      ((resultFor intent ok value w).2 =
          [commandMessage (ascii "start_capture") (commandIdOf w.nextCommandId) none] ∧
        (resultFor intent ok value w).1.nextCommandId = w.nextCommandId + 1 ∧
        (resultFor intent ok value w).1.pendingCommands.lookup (commandIdOf w.nextCommandId) =
          some .startCapture) := by
  cases intent with
  | none => exact .inl ⟨rfl, rfl⟩
  | some intent =>
    cases intent with
    | configure =>
      cases ok with
      | false => exact .inl ⟨rfl, rfl⟩
      | true => exact .inr ⟨rfl, rfl, AList.lookup_insert _⟩
    | _ => cases ok <;> exact .inl ⟨rfl, rfl⟩

theorem onMessage_sends {client : IpcClientId} {message : Sent}
    (hmessage : Incoming client n message) (w : MainWindow) :
    ((w.onMessage message).2 = [] ∧ (w.onMessage message).1.nextCommandId = w.nextCommandId) ∨
      ((w.onMessage message).2 =
          [commandMessage (ascii "start_capture") (commandIdOf w.nextCommandId) none] ∧
        (w.onMessage message).1.nextCommandId = w.nextCommandId + 1 ∧
        (w.onMessage message).1.pendingCommands.lookup (commandIdOf w.nextCommandId) =
          some .startCapture) := by
  cases hmessage with
  | event event => exact .inl ⟨rfl, rfl⟩
  | status c =>
    rw [onMessage_status]
    split <;> exact .inl ⟨rfl, rfl⟩
  | result k hk ok value hresult =>
    rw [onMessage_result hresult]
    exact resultFor_sends _ ok value (w.forget (commandIdOf k))

/-- A command stays pending until its result comes. -/
theorem onMessage_lookup {client : IpcClientId} {message : Sent}
    (hmessage : Incoming client n message)
    {k : ℕ} (hk : k < w.nextCommandId) (hnot : ¬ Answers k message) :
    (w.onMessage message).1.pendingCommands.lookup (commandIdOf k) =
        w.pendingCommands.lookup (commandIdOf k) ∧
      w.nextCommandId ≤ (w.onMessage message).1.nextCommandId := by
  cases hmessage with
  | event event => exact ⟨rfl, le_rfl⟩
  | status c =>
    rw [onMessage_status]
    split <;> exact ⟨rfl, le_rfl⟩
  | result k' hk' ok value hresult =>
    have hne : commandIdOf k ≠ commandIdOf k' := by
      intro heq
      exact hnot ⟨client, value, rfl, heq ▸ hresult.id⟩
    rw [onMessage_result hresult]
    have hk' : k < (w.forget (commandIdOf k')).nextCommandId := hk
    exact ⟨(resultFor_lookup _ ok value hk').trans (AList.lookup_erase_ne hne),
      nextCommandId_le_resultFor _ ok value (w.forget (commandIdOf k'))⟩

theorem settle_lookup {client : IpcClientId} {messages : List Sent}
    (hmessages : ∀ message ∈ messages, Incoming client n message) {k : ℕ} (hk : k < w.nextCommandId)
    (hnot : ∀ message ∈ messages, ¬ Answers k message) :
    (w.settle messages).pendingCommands.lookup (commandIdOf k) =
      w.pendingCommands.lookup (commandIdOf k) := by
  induction messages generalizing w with
  | nil => rfl
  | cons message messages ih =>
    obtain ⟨hlookup, hnext⟩ :=
      onMessage_lookup (hmessages message (by simp)) hk (hnot message (by simp))
    have hrest := ih (w := (w.onMessage message).1) (fun m hm => hmessages m (by simp [hm]))
      (lt_of_lt_of_le hk hnext) fun m hm => hnot m (by simp [hm])
    exact hrest.trans hlookup

/-- Two windows the results of the first `n` commands mean the same to. -/
structure SameView (n : ℕ) (w w' : MainWindow) : Prop where
  starting : w'.startingCapture = w.startingCapture
  shown : w'.engineState = w.engineState
  lookup :
    ∀ k < n, w'.pendingCommands.lookup (commandIdOf k) = w.pendingCommands.lookup (commandIdOf k)
  next : n ≤ w.nextCommandId
  next' : n ≤ w'.nextCommandId

theorem sameView_stopCapture (w : MainWindow) : SameView w.nextCommandId w w.stopCapture.1 := by
  exact ⟨rfl, rfl, fun k hk => AList.lookup_insert_ne (commandIdOf_ne hk), le_rfl, Nat.le_succ _⟩

variable {w' : MainWindow}

theorem SameView.resultFor (h : SameView n w w') (intent : Option Intent) (ok : Bool)
    (value : Json) :
    SameView n (resultFor intent ok value w).1 (resultFor intent ok value w').1 := by
  have hcontrols : (MainWindow.resultFor intent ok value w').1.startingCapture =
        (MainWindow.resultFor intent ok value w).1.startingCapture ∧
      (MainWindow.resultFor intent ok value w').1.engineState =
        (MainWindow.resultFor intent ok value w).1.engineState := by
    cases intent with
    | none => exact ⟨h.starting, h.shown⟩
    | some intent =>
      cases intent <;> cases ok <;> first
        | exact ⟨h.starting, h.shown⟩
        | exact ⟨rfl, h.shown⟩
        | exact ⟨h.starting, rfl⟩
        | exact ⟨rfl, rfl⟩
  refine ⟨hcontrols.1, hcontrols.2, fun k hk => ?_,
    h.next.trans (nextCommandId_le_resultFor intent ok value w),
    h.next'.trans (nextCommandId_le_resultFor intent ok value w')⟩
  rw [resultFor_lookup intent ok value (lt_of_lt_of_le hk h.next'), h.lookup k hk,
    resultFor_lookup intent ok value (lt_of_lt_of_le hk h.next)]

theorem SameView.onMessage (h : SameView n w w') {client : IpcClientId} {message : Sent}
    (hmessage : Incoming client n message) :
    SameView n (w.onMessage message).1 (w'.onMessage message).1 := by
  cases hmessage with
  | event event => exact h
  | status c =>
    rw [onMessage_status, onMessage_status, h.starting]
    by_cases hstarting : w.startingCapture = true
    · simpa only [if_pos hstarting] using h
    · simp only [if_neg hstarting]
      exact ⟨h.starting, rfl, h.lookup, h.next, h.next'⟩
  | result k hk ok value hresult =>
    rw [onMessage_result hresult, onMessage_result hresult, h.lookup k hk]
    have hpopped : SameView n (w.forget (commandIdOf k)) (w'.forget (commandIdOf k)) := by
      refine ⟨h.starting, h.shown, fun k' hk' => ?_, h.next, h.next'⟩
      exact lookup_erase_congr (h.lookup k' hk')
    exact hpopped.resultFor _ ok value

theorem SameView.settle (h : SameView n w w') {client : IpcClientId} {messages : List Sent}
    (hmessages : ∀ message ∈ messages, Incoming client n message) :
    SameView n (w.settle messages) (w'.settle messages) := by
  induction messages generalizing w w' with
  | nil => exact h
  | cons message messages ih =>
    exact ih (h.onMessage (hmessages message (by simp))) fun m hm => hmessages m (by simp [hm])

end MainWindow

end PacketProbe
