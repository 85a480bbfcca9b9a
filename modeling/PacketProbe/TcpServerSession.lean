import PacketProbe.CaptureSessions
import PacketProbe.PacketEvents

/-!
# The TCP server session

Each callback of the transport takes the state mutex once, so that it is one step. The
slot of the active client and the `stopped_` flag are separate variables: a callback that
frees the slot sets the flag, and only `send` and `stop` read it.
-/

namespace PacketProbe

/-- `wirestead::ClientId`. -/
abbrev ClientId := ℕ

structure TcpServerCaptureSession where
  options : TcpServerCaptureOptions
  activeClient : Option ClientId := none
  clientInfo : ByteString := []
  stopped : Bool := true
  serverSet : Bool := false

/-- The callbacks of the transport, and the calls of the session's owner. -/
inductive ServerAction where
  | connect (client : ClientId) (clientInfo : ByteString) (stamp : Stamp)
  | disconnect (client : ClientId) (stamp : Stamp)
  | data (client : ClientId) (payload : Bytes) (stamp : Stamp)
  | error (client : Option ClientId) (message : ByteString) (stamp : Stamp)
  | send (payload : Bytes) (accepted : Bool) (stamp : Stamp)
  | stop

/-- An emitted event, and the client whose callback or payload it reports. -/
structure Emitted where
  client : ClientId
  event : PacketEvent
  deriving DecidableEq

namespace TcpServerCaptureSession

def localEndpoint (s : TcpServerCaptureSession) : ByteString :=
  s.options.listenHost ++ ascii ":" ++ decimal s.options.listenPort.toNat

def makeEvent (s : TcpServerCaptureSession) (stamp : Stamp) (direction : Direction)
    (type : EventType) (payload : Bytes) (sourceEndpoint destinationEndpoint summary : ByteString) :
    PacketEvent :=
  PacketProbe.makeEvent s.options.sessionId (ascii "tcp") stamp direction type payload
    sourceEndpoint destinationEndpoint summary

/-- `start`, with what `start_sync` answers. The slot of the active client is not touched. -/
def start (startSync : Bool) (s : TcpServerCaptureSession) :
    TcpServerCaptureSession × Option StdException :=
  match (CaptureSession.tcpServer s.options).checkArguments with
  | .error ex => (s, some ex)
  | .ok () =>
    if startSync then ({ s with serverSet := true, stopped := false }, none)
    else ({ s with serverSet := true, stopped := true },
      some (runtimeError (ascii "failed to start TCP server")))

def onConnect (client : ClientId) (clientInfo : ByteString) (stamp : Stamp)
    (s : TcpServerCaptureSession) : TcpServerCaptureSession × List Emitted :=
  match s.activeClient with
  | some _ =>
    (s, [⟨client, s.makeEvent stamp .deviceToApp .stateChange [] clientInfo s.localEndpoint
      (ascii "ignored extra TCP client " ++ clientInfo)⟩])
  | none =>
    ({ s with activeClient := some client, clientInfo },
      [⟨client, s.makeEvent stamp .deviceToApp .stateChange [] clientInfo s.localEndpoint
        (ascii "connected " ++ clientInfo)⟩])

/-- What `on_disconnect` and `on_error` do to the session when the active client is gone. -/
def release (s : TcpServerCaptureSession) : TcpServerCaptureSession :=
  { s with activeClient := none, clientInfo := [], stopped := true }

def onDisconnect (client : ClientId) (stamp : Stamp) (s : TcpServerCaptureSession) :
    TcpServerCaptureSession × List Emitted :=
  if s.activeClient = some client then
    (s.release, [⟨client, s.makeEvent stamp .deviceToApp .stateChange [] s.clientInfo
      s.localEndpoint (ascii "disconnected " ++ s.clientInfo)⟩])
  else (s, [])

def onData (client : ClientId) (payload : Bytes) (stamp : Stamp) (s : TcpServerCaptureSession) :
    TcpServerCaptureSession × List Emitted :=
  if s.activeClient = some client then
    (s, [⟨client, s.makeEvent stamp .deviceToApp .rawBytes payload s.clientInfo s.localEndpoint
      (ascii "DEVICE -> APP " ++ decimal payload.length ++ ascii " bytes")⟩])
  else (s, [])

def onError (client : Option ClientId) (message : ByteString) (stamp : Stamp)
    (s : TcpServerCaptureSession) : TcpServerCaptureSession × List Emitted :=
  match client with
  | none => (s, [])
  | some client =>
    if s.activeClient = some client then
      (s.release, [⟨client, s.makeEvent stamp .deviceToApp .error [] s.clientInfo
        s.localEndpoint message⟩])
    else (s, [])

/-- `send`, with what the transport's `send_to` answers. -/
def send (payload : Bytes) (accepted : Bool) (stamp : Stamp) (s : TcpServerCaptureSession) :
    Bool × List Emitted :=
  match s.activeClient with
  | none => (false, [])
  | some client =>
    if s.stopped = true ∨ s.serverSet = false then (false, [])
    else if accepted then
      (true, [⟨client, s.makeEvent stamp .appToDevice .rawBytes payload s.localEndpoint s.clientInfo
        (ascii "APP -> DEVICE " ++ decimal payload.length ++ ascii " bytes")⟩])
    else (false, [])

/-- A session that is already stopped keeps its server. -/
def stop (s : TcpServerCaptureSession) : TcpServerCaptureSession :=
  if s.stopped then s else { s with stopped := true, serverSet := false }

def perform (s : TcpServerCaptureSession) : ServerAction → TcpServerCaptureSession × List Emitted
  | .connect client clientInfo stamp => s.onConnect client clientInfo stamp
  | .disconnect client stamp => s.onDisconnect client stamp
  | .data client payload stamp => s.onData client payload stamp
  | .error client message stamp => s.onError client message stamp
  | .send payload accepted stamp => (s, (s.send payload accepted stamp).2)
  | .stop => (s.stop, [])

/-- All that a sequence of callbacks and calls emits. -/
def emitted (s : TcpServerCaptureSession) : List ServerAction → List Emitted
  | [] => []
  | action :: actions => (s.perform action).2 ++ emitted (s.perform action).1 actions

end TcpServerCaptureSession

/-! ### One client for each run -/

/-- The clients that connect, in their order. -/
def connecting (actions : List ServerAction) : List ClientId :=
  actions.filterMap fun
    | .connect client _ _ => some client
    | _ => none

/-- The client whose callback an action is. -/
def ServerAction.client : ServerAction → Option ClientId
  | .connect client _ _ | .disconnect client _ | .data client _ _ => some client
  | .error client _ _ => client
  | .send .. | .stop => none

/-- The connected client after an action. -/
def ServerAction.connected (current : Option ClientId) : ServerAction → Option ClientId
  | .connect client _ _ => some client
  | .disconnect client _ | .error (some client) _ _ =>
    if current = some client then none else current
  | _ => current

/-- The order the transport keeps: at most one client is connected at a time, and the
other callbacks of a client come after its connect. -/
def OneAtATime (seen : List ClientId) (current : Option ClientId) : List ServerAction → Prop
  | [] => True
  | action :: actions =>
    (match action with
      | .connect _ _ _ => current = none
      | action => ∀ client ∈ action.client, client ∈ seen) ∧
    OneAtATime (action.client.toList ++ seen) (action.connected current) actions

instance OneAtATime.decidable (seen : List ClientId) (current : Option ClientId) :
    (actions : List ServerAction) → Decidable (OneAtATime seen current actions)
  | [] => .isTrue trivial
  | action :: actions => by
    have := OneAtATime.decidable (action.client.toList ++ seen) (action.connected current) actions
    unfold OneAtATime
    cases action <;> infer_instance

/-- The events that record traffic: that a client connected, and its bytes. -/
def Emitted.RecordsTraffic (e : Emitted) : Prop :=
  e.event.type = .rawBytes ∨
    e.event.type = .stateChange ∧ (ascii "connected ") <+: e.event.summary

instance (e : Emitted) : Decidable e.RecordsTraffic := inferInstanceAs (Decidable (_ ∨ _ ∧ _))

/-- All recorded traffic is that of the first client that connected. -/
def RecordsOneClient (actions : List ServerAction) (log : List Emitted) : Prop :=
  ∀ e ∈ log, e.RecordsTraffic → (connecting actions).head? = some e.client

instance (actions : List ServerAction) (log : List Emitted) :
    Decidable (RecordsOneClient actions log) :=
  inferInstanceAs (Decidable (∀ e ∈ log, _ → _))

namespace TcpServerCaptureSession

variable {s t : TcpServerCaptureSession} {action : ServerAction} {actions : List ServerAction}
  {seen : List ClientId} {current : Option ClientId} {first client : ClientId} {e : Emitted}

/-- Traffic is recorded for the active client, and for one that takes the free slot. -/
theorem client_of_recordsTraffic (he : e ∈ (s.perform action).2) (htraffic : e.RecordsTraffic) :
    s.activeClient = some e.client ∨
      s.activeClient = none ∧ ∃ info stamp, action = .connect e.client info stamp := by
  cases action with
  | connect client info stamp =>
    simp only [perform, onConnect] at he
    cases hactive : s.activeClient with
    | none =>
      simp only [hactive, List.mem_singleton] at he
      exact .inr ⟨rfl, info, stamp, by rw [he]⟩
    | some active =>
      -- The summary of a client that is ignored does not start with "connected ".
      simp only [hactive, List.mem_singleton] at he
      subst he
      obtain htype | ⟨-, rest, hsummary⟩ := htraffic
      · cases htype
      · have hhead : some (99 : UInt8) = some 105 := congrArg List.head? hsummary
        exact absurd hhead (by decide)
  | disconnect client stamp =>
    simp only [perform, onDisconnect] at he
    split at he
    · simp only [List.mem_singleton] at he
      exact .inl (by rwa [he])
    · cases he
  | data client payload stamp =>
    simp only [perform, onData] at he
    split at he
    · simp only [List.mem_singleton] at he
      exact .inl (by rwa [he])
    · cases he
  | error client message stamp =>
    cases client with
    | none => cases he
    | some client =>
      simp only [perform, onError] at he
      split at he
      · simp only [List.mem_singleton] at he
        exact .inl (by rwa [he])
      · cases he
  | send payload accepted stamp =>
    simp only [perform, send] at he
    cases hactive : s.activeClient with
    | none => simp [hactive] at he
    | some active =>
      simp only [hactive] at he
      split at he
      · cases he
      · split at he
        · simp only [List.mem_singleton] at he
          exact .inl (by rw [he])
        · cases he
  | stop => cases he

/-- The slot is taken by a client that connects, and only by it. -/
theorem activeClient_perform (h : (s.perform action).1.activeClient = some client) :
    s.activeClient = some client ∨
      s.activeClient = none ∧ ∃ info stamp, action = .connect client info stamp := by
  cases action with
  | connect new info stamp =>
    simp only [perform, onConnect] at h
    cases hactive : s.activeClient with
    | none =>
      simp only [hactive, Option.some.injEq] at h
      exact .inr ⟨rfl, info, stamp, by rw [h]⟩
    | some active =>
      simp only [hactive] at h
      exact .inl h
  | disconnect old stamp =>
    simp only [perform, onDisconnect] at h
    split at h
    · cases h
    · exact .inl h
  | data _ _ _ =>
    simp only [perform, onData] at h
    split at h <;> exact .inl h
  | error old message stamp =>
    cases old with
    | none => exact .inl h
    | some old =>
      simp only [perform, onError] at h
      split at h
      · cases h
      · exact .inl h
  | send _ _ _ => exact .inl h
  | stop =>
    simp only [perform, stop] at h
    split at h <;> exact .inl h

/-- Whatever frees the transport's connection frees the slot. -/
theorem activeClient_connected (hactive : s.activeClient = none ∨ s.activeClient = current)
    (horder : OneAtATime seen current (action :: actions)) :
    (s.perform action).1.activeClient = none ∨
      (s.perform action).1.activeClient = action.connected current := by
  cases action with
  | connect client info stamp =>
    have hcurrent : current = none := horder.1
    have hnone : s.activeClient = none := by
      rcases hactive with h | h
      · exact h
      · exact h.trans hcurrent
    right
    simp [perform, onConnect, hnone, ServerAction.connected]
  | disconnect client stamp =>
    simp only [perform, onDisconnect, ServerAction.connected]
    split
    · exact .inl rfl
    · rcases hactive with h | h
      · exact .inl h
      · exact .inr (by rw [if_neg (by rwa [← h]), h])
  | data _ _ _ =>
    simp only [perform, onData]
    split <;> exact hactive
  | error client message stamp =>
    cases client with
    | none => exact hactive
    | some client =>
      simp only [perform, onError, ServerAction.connected]
      split
      · exact .inl rfl
      · rcases hactive with h | h
        · exact .inl h
        · exact .inr (by rw [if_neg (by rwa [← h]), h])
  | send _ _ _ => exact hactive
  | stop =>
    simp only [perform, stop]
    split <;> exact hactive

theorem connecting_cons (action : ServerAction) (actions : List ServerAction) :
    connecting (action :: actions) = connecting [action] ++ connecting actions := by
  cases action <;> rfl

/-- If a single client connects, then only its traffic is recorded. -/
theorem client_of_emitted (honly : ∀ client ∈ connecting actions, client = first)
    (hactive : ∀ client, s.activeClient = some client → client = first)
    (he : e ∈ s.emitted actions) (htraffic : e.RecordsTraffic) : e.client = first := by
  induction actions generalizing s with
  | nil => cases he
  | cons action actions ih =>
    rw [connecting_cons] at honly
    have hconnects : ∀ client info stamp, action = .connect client info stamp → client = first := by
      rintro client info stamp rfl
      exact honly client (List.mem_append_left _ (List.mem_singleton_self _))
    rcases List.mem_append.1 he with hnow | hlater
    · obtain h | ⟨-, info, stamp, h⟩ := client_of_recordsTraffic hnow htraffic
      · exact hactive _ h
      · exact hconnects _ _ _ h
    · refine ih (fun client h => honly client (List.mem_append_right _ h)) ?_ hlater
      intro client h
      obtain h | ⟨-, info, stamp, h⟩ := activeClient_perform h
      · exact hactive _ h
      · exact hconnects _ _ _ h

/-- Every client that connects is recorded as connected. -/
theorem exists_emitted_of_connecting (horder : OneAtATime seen current actions)
    (hactive : s.activeClient = none ∨ s.activeClient = current)
    (hclient : client ∈ connecting actions) :
    ∃ e ∈ s.emitted actions, e.RecordsTraffic ∧ e.client = client := by
  induction actions generalizing s seen current with
  | nil => cases hclient
  | cons action actions ih =>
    rw [connecting_cons] at hclient
    rcases List.mem_append.1 hclient with hnow | hlater
    · cases action with
      | connect new info stamp =>
        obtain rfl : client = new := List.mem_singleton.1 hnow
        have hcurrent : current = none := horder.1
        have hnone : s.activeClient = none := by
          rcases hactive with h | h
          · exact h
          · exact h.trans hcurrent
        refine ⟨⟨client, s.makeEvent stamp .deviceToApp .stateChange [] info s.localEndpoint
          (ascii "connected " ++ info)⟩, ?_, .inr ⟨rfl, List.prefix_append _ _⟩, rfl⟩
        refine List.mem_append_left _ ?_
        simp [perform, onConnect, hnone]
      | disconnect _ _ => cases hnow
      | data _ _ _ => cases hnow
      | error _ _ _ => cases hnow
      | send _ _ _ => cases hnow
      | stop => cases hnow
    · obtain ⟨e, he, hrecorded⟩ := ih horder.2 (activeClient_connected hactive horder) hlater
      exact ⟨e, List.mem_append_right _ he, hrecorded⟩

theorem activeClient_start (startSync : Bool) (s : TcpServerCaptureSession) :
    (s.start startSync).1.activeClient = s.activeClient := by
  unfold start
  split
  · rfl
  · split <;> rfl

/-- A run of the server records one client exactly if no second client connects in it:
nothing keeps the next client out when the first one has gone. -/
theorem recordsOneClient_iff {startSync : Bool} (hfree : s.activeClient = none)
    (hstart : s.start startSync = (t, none)) (horder : OneAtATime [] none actions) :
    RecordsOneClient actions (t.emitted actions) ↔
      ∀ client ∈ connecting actions, (connecting actions).head? = some client := by
  have hnone : t.activeClient = none := by
    rw [← hfree, ← activeClient_start startSync s, hstart]
  constructor
  · intro hone client hclient
    obtain ⟨e, he, htraffic, rfl⟩ := exists_emitted_of_connecting horder (.inl hnone) hclient
    exact hone e he htraffic
  · intro honly e he htraffic
    cases hhead : (connecting actions).head? with
    | none =>
      -- Without a client there is no traffic at all.
      rw [List.head?_eq_none_iff] at hhead
      have hevery : ∀ client : ClientId, e.client = client := fun client =>
        client_of_emitted (by simp [hhead]) (by simp [hnone]) he htraffic
      exact absurd (hevery (e.client + 1)) (Nat.ne_of_lt (Nat.lt_succ_self _))
    | some first =>
      refine congrArg some (client_of_emitted (s := t) ?_ ?_ he htraffic).symm
      · intro client hclient
        exact (Option.some.inj (hhead.symm.trans (honly client hclient))).symm
      · simp [hnone]

/-- A listening session that no client has reached yet. -/
def listening : TcpServerCaptureSession :=
  ({ options := { listenPort := 9000 } } : TcpServerCaptureSession).start true |>.1

/-- The first client leaves, and another one connects and sends a byte. -/
def clientAfterClient : List ServerAction :=
  [.connect 1 (ascii "10.0.0.1:4001") ⟨1, 10⟩,
    .data 1 [0x41] ⟨2, 20⟩,
    .disconnect 1 ⟨3, 30⟩,
    .connect 2 (ascii "10.0.0.2:4002") ⟨4, 40⟩,
    .data 2 [0x42] ⟨5, 50⟩]

theorem records_second_client :
    OneAtATime [] none clientAfterClient ∧
      ¬ RecordsOneClient clientAfterClient (listening.emitted clientAfterClient) := by
  decide

theorem recordsOneClient_of_first_client :
    RecordsOneClient (clientAfterClient.take 3) (listening.emitted (clientAfterClient.take 3)) :=
  have hstart : start true { options := { listenPort := 9000 } } = (listening, none) := rfl
  (recordsOneClient_iff rfl hstart (by decide)).2 (by decide)

end TcpServerCaptureSession

end PacketProbe
