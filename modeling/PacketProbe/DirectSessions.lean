import PacketProbe.CaptureSessions
import PacketProbe.FrameParents
import PacketProbe.TrafficDecoding
import PacketProbe.TransitionRuns

/-!
# The sessions with one transport

The TCP client, serial and UDP sessions wrap one object of the transport library each. They
differ in their texts and endpoints, in which callbacks stop the session, and in what `stop`
does to a session that has stopped. The callbacks run on threads of the transport, so that
`stop` and `send` come at any time, also between a callback's event and its store to `stopped_`.
-/

namespace PacketProbe
open TransitionRuns EventPipeline

/-- What the three sessions differ in. -/
structure DirectTraits where
  session : CaptureSession
  /-- The path that `start` looks for. -/
  portPath : Option ByteString := none
  startFailure : ByteString
  sessionId : ByteString
  transport : ByteString
  /-- The endpoint that state changes and errors come from. -/
  noticeSource : ByteString
  dataSource : ByteString → ByteString
  dataDestination : ByteString
  sendSource : ByteString
  sendDestination : ByteString
  receivedLabel : ByteString
  sentLabel : ByteString
  connected : ByteString → ByteString
  disconnected : ByteString → ByteString
  errorStops : Bool
  /-- `stop` leaves a session alone that has stopped. -/
  stopsOnce : Bool
  hasTarget : Bool := true

def packetProbe : ByteString := ascii "packet-probe"

/-- A summary with the client's info behind it, if there is one. -/
def withInfo (text : String) (clientInfo : ByteString) : ByteString :=
  if clientInfo = [] then ascii text else ascii text ++ ascii " " ++ clientInfo

def endpointText (host : ByteString) (port : UInt16) : ByteString :=
  host ++ ascii ":" ++ decimal port.toNat

/-- `TcpDirectCaptureSession`. -/
def tcpDirectTraits (options : TcpDirectCaptureOptions) : DirectTraits where
  session := .tcpClient options
  startFailure := ascii "failed to start TCP client"
  sessionId := options.sessionId
  transport := ascii "tcp"
  noticeSource := endpointText options.host options.port
  dataSource _ := endpointText options.host options.port
  dataDestination := packetProbe
  sendSource := packetProbe
  sendDestination := endpointText options.host options.port
  receivedLabel := ascii "RX "
  sentLabel := ascii "TX "
  connected := withInfo "connected"
  disconnected := withInfo "disconnected"
  errorStops := true
  stopsOnce := true

/-- `SerialDirectCaptureSession`. -/
def serialDirectTraits (options : SerialCaptureOptions) : DirectTraits where
  session := .serial options
  portPath := some options.port
  startFailure := ascii "failed to start serial capture"
  sessionId := options.sessionId
  transport := ascii "serial"
  noticeSource := options.port
  dataSource _ := options.port
  dataDestination := packetProbe
  sendSource := packetProbe
  sendDestination := options.port
  receivedLabel := ascii "DEVICE -> APP "
  sentLabel := ascii "APP -> DEVICE "
  connected _ := ascii "serial connected " ++ options.port
  disconnected _ := ascii "serial disconnected " ++ options.port
  errorStops := true
  stopsOnce := false

/-- `UdpDirectCaptureSession`. -/
def udpDirectTraits (options : UdpDirectCaptureOptions) : DirectTraits where
  session := .udp options
  startFailure := ascii "failed to start UDP capture"
  sessionId := options.sessionId
  transport := ascii "udp"
  noticeSource := endpointText options.bindHost options.bindPort
  dataSource clientInfo := if clientInfo = [] then ascii "udp-peer" else clientInfo
  dataDestination := endpointText options.bindHost options.bindPort
  sendSource := endpointText options.bindHost options.bindPort
  sendDestination := endpointText options.targetHost options.targetPort
  receivedLabel := ascii "DEVICE -> APP "
  sentLabel := ascii "APP -> DEVICE "
  connected _ := ascii "udp listening " ++ endpointText options.bindHost options.bindPort
  disconnected _ := ascii "udp stopped " ++ endpointText options.bindHost options.bindPort
  errorStops := false
  stopsOnce := true
  hasTarget := options.targetHost ≠ [] && options.targetPort ≠ 0

/-- A payload that went through the transport: sent, or received with the client's info. -/
inductive Traffic where
  | sent (payload : Bytes)
  | received (clientInfo : ByteString) (payload : Bytes)
  deriving DecidableEq

namespace Traffic

def payload : Traffic → Bytes
  | sent payload => payload
  | received _ payload => payload

def isSent : Traffic → Bool
  | sent _ => true
  | received _ _ => false

/-- The payload, if it was received from a client that is reported as `source`. -/
def payloadFrom (dataSource : ByteString → ByteString) (source : ByteString) :
    Traffic → Option Bytes
  | sent _ => none
  | received clientInfo payload => if dataSource clientInfo = source then some payload else none

end Traffic

structure DirectCaptureSession where
  traits : DirectTraits
  transportSet : Bool := false
  stopped : Bool := true
  /-- `start` waits for the transport. -/
  starting : Bool := false
  /-- Callbacks between their event and their store to `stopped_`. -/
  storing : ℕ := 0
  log : List PacketEvent := []
  /-- What the transport has taken and given, in its own order. -/
  traffic : List Traffic := []

/-- The callbacks of the transport, the ends of `start` and of a callback, and the calls of the
session's owner, with what the transport answers. -/
inductive DirectAction where
  | started (ok : Bool)
  | connect (clientInfo : ByteString) (stamp : Stamp)
  | data (clientInfo : ByteString) (payload : Bytes) (stamp : Stamp)
  | disconnect (clientInfo : ByteString) (stamp : Stamp)
  | error (message : ByteString) (stamp : Stamp)
  | storeStopped
  | send (payload : Bytes) (connected accepted : Bool) (stamp : Stamp)
  | stop
  deriving DecidableEq

/-- The steps that set `stopped_` besides `stop`. -/
def DirectAction.setsStopped : DirectAction → Bool
  | storeStopped => true
  | started ok => !ok
  | _ => false

/-- The callbacks that store to `stopped_` when they have emitted their event. -/
def DirectAction.endsSession (traits : DirectTraits) : DirectAction → Bool
  | disconnect _ _ => true
  | error _ _ => traits.errorStops
  | _ => false

namespace DirectCaptureSession

def makeEvent (s : DirectCaptureSession) (stamp : Stamp) (direction : Direction) (type : EventType)
    (payload : Bytes) (sourceEndpoint destinationEndpoint summary : ByteString) : PacketEvent :=
  PacketProbe.makeEvent s.traits.sessionId s.traits.transport stamp direction type payload
    sourceEndpoint destinationEndpoint summary

/-- `start` up to the call of the transport. -/
def start (portExists : Bool) (s : DirectCaptureSession) :
    DirectCaptureSession × Option StdException :=
  match s.traits.session.checkArguments with
  | .error ex => (s, some ex)
  | .ok () =>
    match s.traits.portPath with
    | some path =>
      if portExists then ({ s with transportSet := true, stopped := false, starting := true }, none)
      else (s, some (runtimeError (ascii "serial port does not exist: " ++ path)))
    | none => ({ s with transportSet := true, stopped := false, starting := true }, none)

/-- The rest of `start`, with the transport's answer. -/
def started (ok : Bool) (s : DirectCaptureSession) : DirectCaptureSession × Option StdException :=
  if ok then ({ s with starting := false }, none)
  else ({ s with starting := false, stopped := true }, some (runtimeError s.traits.startFailure))

def receivedEvent (s : DirectCaptureSession) (clientInfo : ByteString) (payload : Bytes)
    (stamp : Stamp) :
    PacketEvent :=
  s.makeEvent stamp .deviceToApp .rawBytes payload (s.traits.dataSource clientInfo)
    s.traits.dataDestination
    (s.traits.receivedLabel ++ decimal payload.length ++ ascii " bytes")

def sentEvent (s : DirectCaptureSession) (payload : Bytes) (stamp : Stamp) : PacketEvent :=
  s.makeEvent stamp .appToDevice .rawBytes payload s.traits.sendSource s.traits.sendDestination
    (s.traits.sentLabel ++ decimal payload.length ++ ascii " bytes")

/-- The event of a callback that carries no payload. -/
def notice (s : DirectCaptureSession) (type : EventType) (summary : ByteString) (stamp : Stamp) :
    PacketEvent :=
  s.makeEvent stamp .deviceToApp type [] s.traits.noticeSource packetProbe summary

def emit (e : PacketEvent) (s : DirectCaptureSession) : DirectCaptureSession :=
  { s with log := s.log ++ [e] }

/-- What `send` returns. -/
def sends (s : DirectCaptureSession) (connected accepted : Bool) : Bool :=
  s.transportSet && connected && s.traits.hasTarget && accepted

def stop (s : DirectCaptureSession) : DirectCaptureSession :=
  if s.traits.stopsOnce && s.stopped then s else { s with stopped := true, transportSet := false }

def perform (s : DirectCaptureSession) : DirectAction → Option DirectCaptureSession
  | .started ok => if s.starting then some (s.started ok).1 else none
  | .connect clientInfo stamp =>
    some (s.emit (s.notice .stateChange (s.traits.connected clientInfo) stamp))
  | .data clientInfo payload stamp =>
    some { s.emit (s.receivedEvent clientInfo payload stamp) with
      traffic := s.traffic ++ [.received clientInfo payload] }
  | .disconnect clientInfo stamp =>
    some { s.emit (s.notice .stateChange (s.traits.disconnected clientInfo) stamp) with
      storing := s.storing + 1 }
  | .error message stamp =>
    some { s.emit (s.notice .error message stamp) with
      storing := if s.traits.errorStops then s.storing + 1 else s.storing }
  | .storeStopped =>
    if s.storing = 0 then none else some { s with storing := s.storing - 1, stopped := true }
  | .send payload connected accepted stamp =>
    if s.sends connected accepted then
      some { s.emit (s.sentEvent payload stamp) with traffic := s.traffic ++ [.sent payload] }
    else some s
  | .stop => some s.stop

def Step (s : DirectCaptureSession) (action : DirectAction) (t : DirectCaptureSession) : Prop :=
  s.perform action = some t

variable {s t u v : DirectCaptureSession} {action : DirectAction}
  {actions before after : List DirectAction}

/-! ### What a step does -/

/-- The events of a step. -/
def emitted (s : DirectCaptureSession) : DirectAction → List PacketEvent
  | .connect clientInfo stamp => [s.notice .stateChange (s.traits.connected clientInfo) stamp]
  | .data clientInfo payload stamp => [s.receivedEvent clientInfo payload stamp]
  | .disconnect clientInfo stamp => [s.notice .stateChange (s.traits.disconnected clientInfo) stamp]
  | .error message stamp => [s.notice .error message stamp]
  | .send payload connected accepted stamp =>
    if s.sends connected accepted then [s.sentEvent payload stamp] else []
  | _ => []

/-- What goes through the transport in a step. -/
def carried (s : DirectCaptureSession) : DirectAction → List Traffic
  | .data clientInfo payload _ => [.received clientInfo payload]
  | .send payload connected accepted _ => if s.sends connected accepted then [.sent payload] else []
  | _ => []

structure Effect (s : DirectCaptureSession) (action : DirectAction)
    (t : DirectCaptureSession) : Prop where
  traits : t.traits = s.traits
  log : t.log = s.log ++ s.emitted action
  traffic : t.traffic = s.traffic ++ s.carried action
  transportSet :
    t.transportSet = (s.transportSet && (action != .stop || (s.traits.stopsOnce && s.stopped)))
  stopped : t.stopped = (s.stopped || action.setsStopped || action == .stop)
  /-- Only a callback that ends the session has a store to make. -/
  storing : s.storing = 0 → action.endsSession s.traits = false → t.storing = 0 ∧
    action ≠ .storeStopped

theorem effect_of_step (hstep : Step s action t) : s.Effect action t := by
  have hlog : s.log = s.log ++ [] := (List.append_nil _).symm
  have htraffic : s.traffic = s.traffic ++ [] := (List.append_nil _).symm
  cases action with
  | started ok =>
    obtain ⟨-, h⟩ := Option.ite_none_right_eq_some.1 hstep
    cases h
    cases ok <;>
      exact ⟨rfl, hlog, htraffic, by simp [started], by simp [started, DirectAction.setsStopped],
      fun hidle _ => ⟨hidle, by simp⟩⟩
  | connect clientInfo stamp =>
    cases hstep
    exact ⟨rfl, rfl, htraffic, by simp [emit], by simp [emit, DirectAction.setsStopped],
      fun hidle _ => ⟨hidle, by simp⟩⟩
  | data clientInfo payload stamp =>
    cases hstep
    exact ⟨rfl, rfl, rfl, by simp [emit], by simp [emit, DirectAction.setsStopped],
      fun hidle _ => ⟨hidle, by simp⟩⟩
  | disconnect clientInfo stamp =>
    cases hstep
    exact ⟨rfl, rfl, htraffic, by simp [emit], by simp [emit, DirectAction.setsStopped],
      fun _ hcallback => by cases hcallback⟩
  | error message stamp =>
    cases hstep
    refine ⟨rfl, rfl, htraffic, by simp [emit], by simp [emit, DirectAction.setsStopped],
      fun hidle hcallback => ?_⟩
    have herror : s.traits.errorStops = false := hcallback
    exact ⟨by simpa [herror, emit] using hidle, by simp⟩
  | storeStopped =>
    obtain ⟨hstoring, h⟩ := Option.ite_none_left_eq_some.1 hstep
    cases h
    exact ⟨rfl, hlog, htraffic, by simp, by simp [DirectAction.setsStopped],
      fun hidle _ => absurd hidle hstoring⟩
  | send payload connected accepted stamp =>
    simp only [Step, perform] at hstep
    split at hstep <;> rename_i hsends <;> cases hstep
    · refine ⟨rfl, ?_, ?_, by simp [emit], by simp [emit, DirectAction.setsStopped],
        fun hidle _ => ⟨hidle, by simp⟩⟩
      · rw [emitted, if_pos hsends]
        rfl
      · rw [carried, if_pos hsends]
    · refine ⟨rfl, ?_, ?_, by simp, by simp [DirectAction.setsStopped],
        fun hidle _ => ⟨hidle, by simp⟩⟩
      · rwa [emitted, if_neg hsends]
      · rwa [carried, if_neg hsends]
  | stop =>
    cases hstep
    unfold stop
    split
    · exact ⟨rfl, hlog, htraffic, by simp_all, by simp_all, fun hidle _ => ⟨hidle, by simp⟩⟩
    · exact ⟨rfl, hlog, htraffic, by simp_all, by simp, fun hidle _ => ⟨hidle, by simp⟩⟩

/-! ### The recorded traffic -/

/-- The stream that a payload is recorded on. -/
def streamOf (traits : DirectTraits) : Traffic → Stream
  | .sent _ =>
    ⟨traits.sessionId, traits.transport, .appToDevice, traits.sendSource, traits.sendDestination⟩
  | .received clientInfo _ =>
    ⟨traits.sessionId, traits.transport, .deviceToApp, traits.dataSource clientInfo,
      traits.dataDestination⟩

/-- The traffic as streams with payloads. -/
def trafficOf (s : DirectCaptureSession) : List (Stream × Bytes) :=
  s.traffic.map fun item => (streamOf s.traits item, item.payload)

/-- The raw events are the traffic. -/
def Recorded (s : DirectCaptureSession) : Prop := rawTraffic s.log = s.trafficOf

theorem recorded_of_start {traits : DirectTraits} {portExists : Bool}
    (h : start portExists { traits } = (s, none)) :
    s = { traits, transportSet := true, stopped := false, starting := true } := by
  unfold start at h
  split at h
  · cases h
  · split at h
    · split at h
      · exact (Prod.mk.inj h).1.symm
      · cases h
    · exact (Prod.mk.inj h).1.symm

theorem rawTraffic_emitted (s : DirectCaptureSession) (action : DirectAction) :
    rawTraffic (s.emitted action) = (s.carried action).map fun item =>
      (streamOf s.traits item, item.payload) := by
  have hnotice : ∀ type summary stamp, type ≠ EventType.rawBytes →
      rawTraffic [s.notice type summary stamp] = [] :=
    fun type summary stamp htype => rawTraffic_other htype
  cases action with
  | connect clientInfo stamp => exact hnotice _ _ _ (by decide)
  | data clientInfo payload stamp => exact rawTraffic_raw rfl
  | disconnect clientInfo stamp => exact hnotice _ _ _ (by decide)
  | error message stamp => exact hnotice _ _ _ (by decide)
  | send payload connected accepted stamp =>
    by_cases hsends : s.sends connected accepted = true
    · rw [emitted, if_pos hsends, carried, if_pos hsends]
      exact rawTraffic_raw rfl
    · rw [emitted, if_neg hsends, carried, if_neg hsends]
      rfl
  | _ => rfl

theorem Recorded.step (h : s.Recorded) (hstep : Step s action t) : t.Recorded := by
  have heffect := effect_of_step hstep
  unfold Recorded trafficOf
  rw [heffect.log, heffect.traffic, heffect.traits, rawTraffic_append, List.map_append,
    rawTraffic_emitted]
  exact congrArg (· ++ _) h

theorem recorded_of_run {traits : DirectTraits} {portExists : Bool}
    (hstart : start portExists { traits } = (s, none))
    (hrun : Run Step s actions t) : t.traits = traits ∧ t.Recorded := by
  rw [recorded_of_start hstart] at hrun
  refine hrun.invariant (I := fun t => t.traits = traits ∧ t.Recorded) ?_ ⟨rfl, rfl⟩
  intro s action t hs hstep
  exact ⟨(effect_of_step hstep).traits.trans hs.1, hs.2.step hstep⟩

/-! ### What is decoded -/

/-- The payloads that the transport took, without the empty ones. -/
def sentChunks (traffic : List Traffic) : List Bytes :=
  (traffic.filterMap fun item => if item.isSent then some item.payload else none).filter (· ≠ [])

/-- The payloads that are reported from an endpoint, without the empty ones. -/
def receivedChunks (traits : DirectTraits) (source : ByteString) (traffic : List Traffic) :
    List Bytes :=
  (traffic.filterMap fun item => item.payloadFrom traits.dataSource source).filter (· ≠ [])

def sentStream (traits : DirectTraits) : Stream :=
  ⟨traits.sessionId, traits.transport, .appToDevice, traits.sendSource, traits.sendDestination⟩

def receivedStream (traits : DirectTraits) (source : ByteString) : Stream :=
  ⟨traits.sessionId, traits.transport, .deviceToApp, source, traits.dataDestination⟩

theorem chunksOf_sentStream (traits : DirectTraits) (traffic : List Traffic) :
    chunksOf (sentStream traits) (traffic.map fun item => (streamOf traits item, item.payload)) =
      sentChunks traffic := by
  refine chunksOf_map (fun item => ?_) traffic
  cases item <;> simp [streamOf, sentStream, Traffic.isSent, Traffic.payload]

theorem chunksOf_receivedStream (traits : DirectTraits) (source : ByteString)
    (traffic : List Traffic) :
    chunksOf (receivedStream traits source)
      (traffic.map fun item => (streamOf traits item, item.payload)) =
      receivedChunks traits source traffic := by
  refine chunksOf_map (fun item => ?_) traffic
  cases item <;> simp [streamOf, receivedStream, Traffic.payloadFrom, Traffic.payload]

/-- All that is sent goes to one endpoint, and all that is received comes to one. -/
theorem akin_of_traffic (traits : DirectTraits) (traffic : List Traffic) :
    ∀ entry ∈ traffic.map fun item => (streamOf traits item, item.payload),
      entry.1.Akin (sentStream traits) ∧ ∀ source, entry.1.Akin (receivedStream traits source) := by
  intro entry hentry
  obtain ⟨item, -, rfl⟩ := List.mem_map.1 hentry
  cases item with
  | sent payload =>
    exact ⟨⟨rfl, rfl, fun _ => .inl rfl⟩, fun source => ⟨rfl, rfl, fun h => by cases h⟩⟩
  | received clientInfo payload =>
    exact ⟨⟨rfl, rfl, fun h => by cases h⟩, fun source => ⟨rfl, rfl, fun _ => .inr rfl⟩⟩

/-- Whatever callbacks, sends and stops come in between, the raw events are the payloads that went
through the transport, in its order, and the pipeline decodes what was sent, and what came from
each endpoint, as one decoder each that sees nothing else. -/
theorem direct_session_decoded {traits : DirectTraits} {portExists : Bool} {config : DecoderConfig}
    {d₀ : FrameDecoder}
    (hstart : start portExists { traits } = (s, none)) (hrun : Run Step s actions t)
    (hcreate : createFrameDecoder config = .ok d₀) (a : SequenceAllocator) :
    rawTraffic t.log = t.traffic.map (fun item => (streamOf traits item, item.payload)) ∧
    (derivedOf (sentStream traits).key ((fresh config).history a t.log)).map PacketEvent.outcome =
      d₀.reports (sentChunks t.traffic) ∧
    ∀ source,
      (derivedOf (receivedStream traits source).key ((fresh config).history a t.log)).map
      PacketEvent.outcome =
        d₀.reports (receivedChunks traits source t.traffic) := by
  obtain ⟨htraits, hrecorded⟩ := recorded_of_run hstart hrun
  unfold Recorded trafficOf at hrecorded
  rw [htraits] at hrecorded
  have hakin := akin_of_traffic traits t.traffic
  rw [← hrecorded] at hakin
  refine ⟨hrecorded, ?_, fun source => ?_⟩
  · rw [reports_of_traffic hcreate fun item hitem => (hakin item hitem).1, hrecorded,
      chunksOf_sentStream]
  · rw [reports_of_traffic hcreate fun item hitem => (hakin item hitem).2 source, hrecorded,
      chunksOf_receivedStream]

/-- A sensor that is asked in between two halves of its frame. -/
def askedInBetween : List DirectAction :=
  [.started true, .connect [] ⟨1, 10⟩, .data (ascii "10.0.0.2:9000") [1, 2] ⟨2, 11⟩,
    .data (ascii "10.0.0.3:9000") [7] ⟨3, 12⟩, .send [9, 9] true true ⟨4, 13⟩,
    .send [8] true false ⟨5, 14⟩, .data (ascii "10.0.0.2:9000") [3] ⟨6, 15⟩, .stop]

def sensorTraits : DirectTraits :=
  udpDirectTraits { bindPort := 9001, targetHost := ascii "10.0.0.2", targetPort := 9000 }

def sensing : DirectCaptureSession :=
  { traits := sensorTraits, transportSet := true, stopped := false, starting := true }

theorem direct_session_decoded_asked : ∃ t, Run Step sensing askedInBetween t ∧
    (derivedOf (receivedStream sensorTraits (ascii "10.0.0.2:9000")).key
      ((fresh threeByteFrames).history {} t.log)).map PacketEvent.outcome =
        [(.frame, [1, 2, 3])] := by
  obtain ⟨t, hrun, htraffic⟩ := Run.exists_of_foldlM (f := perform)
    (P := fun t : DirectCaptureSession => t.traffic =
      [.received (ascii "10.0.0.2:9000") [1, 2], .received (ascii "10.0.0.3:9000") [7],
        .sent [9, 9], .received (ascii "10.0.0.2:9000") [3]])
    (show ((askedInBetween.foldlM perform sensing).any _) = true by decide +kernel)
  have hstart : start true { traits := sensorTraits } = (sensing, none) := rfl
  refine ⟨t, hrun, ((direct_session_decoded hstart hrun rfl {}).2.2 _).trans ?_⟩
  rw [htraffic]
  decide +kernel

/-! ### The end of a session -/

/-- Up to the first `stop` the session keeps its transport, and only the stores set the flag. -/
theorem flags_of_run (hrun : Run Step s before t) (hfirst : .stop ∉ before) :
    t.transportSet = s.transportSet ∧
      t.stopped = (s.stopped || before.any DirectAction.setsStopped) := by
  induction hrun with
  | nil => simp
  | cons hstep _ ih =>
    obtain ⟨hne, hrest⟩ := not_or.1 (mt List.mem_cons.2 hfirst)
    have hother : (_ != DirectAction.stop) = true := bne_iff_ne.2 (Ne.symm hne)
    obtain ⟨hset, hflag⟩ := ih hrest
    rw [(effect_of_step hstep).transportSet, hother] at hset
    rw [(effect_of_step hstep).stopped, beq_eq_false_iff_ne.2 (Ne.symm hne)] at hflag
    exact ⟨by simpa using hset, by simpa [Bool.or_assoc] using hflag⟩

theorem notMem_storeStopped_of_run (hrun : Run Step s before t) (hidle : s.storing = 0)
    (hcallbacks : ∀ action ∈ before, action.endsSession s.traits = false) :
    .storeStopped ∉ before := by
  induction hrun with
  | nil => exact List.not_mem_nil
  | cons hstep _ ih =>
    obtain ⟨hidle', hne⟩ := (effect_of_step hstep).storing hidle (hcallbacks _ List.mem_cons_self)
    have hrest := ih hidle' fun action haction => by
      rw [(effect_of_step hstep).traits]
      exact hcallbacks action (List.mem_cons_of_mem _ haction)
    exact List.not_mem_cons_of_ne_of_not_mem hne.symm hrest

/-- A session without its transport sends nothing, whatever the transport would answer. -/
theorem released_of_step (hstep : Step s action t) (hreleased : s.transportSet = false) :
    t.transportSet = false ∧ sentChunks t.traffic = sentChunks s.traffic := by
  have heffect := effect_of_step hstep
  refine ⟨by rw [heffect.transportSet, hreleased, Bool.false_and], ?_⟩
  have hnothing : sentChunks (s.carried action) = [] := by
    cases action with
    | send payload connected accepted stamp =>
      have hrefused : ¬ s.sends connected accepted = true := by simp [sends, hreleased]
      rw [carried, if_neg hrefused]
      rfl
    | _ => rfl
  rw [heffect.traffic, sentChunks, List.filterMap_append, List.filter_append]
  exact (congrArg (_ ++ ·) hnothing).trans (List.append_nil _)

theorem released_of_run (hrun : Run Step s after t) (hreleased : s.transportSet = false) :
    t.transportSet = false ∧ sentChunks t.traffic = sentChunks s.traffic := by
  induction hrun with
  | nil => exact ⟨hreleased, rfl⟩
  | cons hstep _ ih =>
    obtain ⟨hset, hsent⟩ := released_of_step hstep hreleased
    obtain ⟨hset', hsent'⟩ := ih hset
    exact ⟨hset', hsent'.trans hsent⟩

/-- A session that had stopped before its first `stop` keeps its transport through all others. -/
theorem kept_of_run (hrun : Run Step s after t) (honce : s.traits.stopsOnce = true)
    (hstopped : s.stopped = true) (hset : s.transportSet = true) : t.transportSet = true := by
  refine (hrun.invariant (I := fun s => s.traits.stopsOnce = true ∧ s.stopped = true ∧
    s.transportSet = true) ?_
    ⟨honce, hstopped, hset⟩).2.2
  rintro s action t ⟨honce, hstopped, hset⟩ hstep
  refine ⟨by rw [(effect_of_step hstep).traits, honce], by
    rw [(effect_of_step hstep).stopped, hstopped]; simp, ?_⟩
  rw [(effect_of_step hstep).transportSet, honce, hstopped, hset]
  simp

/-- The first `stop` releases the transport for good, and nothing is sent behind it, unless the
session is one that stops once and had its flag set by then; such a session keeps its transport
through every later `stop`. -/
theorem released_by_stop_iff {traits : DirectTraits} {portExists : Bool}
    (hstart : start portExists { traits } = (s, none)) (hbefore : Run Step s before t)
    (hfirst : .stop ∉ before) (hstop : Step t .stop u) (hafter : Run Step u after v) :
    (v.transportSet = false ↔
      traits.stopsOnce = false ∨ ∀ action ∈ before, action.setsStopped = false) ∧
    (v.transportSet = false → sentChunks v.traffic = sentChunks t.traffic) ∧
    (.started false ∉ before → (∀ action ∈ before, action.endsSession traits = false) →
      v.transportSet = false) := by
  obtain ⟨htraits, -⟩ := recorded_of_run hstart hbefore
  have hs := recorded_of_start hstart
  obtain ⟨hset, hflag⟩ := flags_of_run hbefore hfirst
  have hu : u.transportSet = (traits.stopsOnce && before.any DirectAction.setsStopped) := by
    rw [(effect_of_step hstop).transportSet, hset, hflag, htraits, hs]
    simp
  have hv : v.transportSet = u.transportSet := by
    cases hreleased : u.transportSet with
    | false => exact (released_of_run hafter hreleased).1
    | true =>
      rw [hreleased, eq_comm, Bool.and_eq_true] at hu
      have honce : u.traits.stopsOnce = true := by rw [(effect_of_step hstop).traits, htraits, hu.1]
      have hstopped : u.stopped = true := by
        rw [(effect_of_step hstop).stopped]
        simp
      exact kept_of_run hafter honce hstopped hreleased
  have hiff : v.transportSet = false ↔
      traits.stopsOnce = false ∨ ∀ action ∈ before, action.setsStopped = false := by
    rw [hv, hu, Bool.and_eq_false_iff, List.any_eq_false]
    simp
  refine ⟨hiff, fun hreleased => ?_, fun hok hcallbacks => hiff.2 (.inr fun action haction => ?_)⟩
  · have hsent := (released_of_run hafter (hv ▸ hreleased)).2
    cases hstop
    rw [hsent]
    unfold stop
    split <;> rfl
  · have hstore : .storeStopped ∉ before := by
      rw [hs] at hbefore
      exact notMem_storeStopped_of_run hbefore rfl hcallbacks
    cases action with
    | storeStopped => exact absurd haction hstore
    | started ok =>
      cases ok with
      | false => exact absurd haction hok
      | true => rfl
    | _ => rfl

def dialing : DirectCaptureSession where
  traits := tcpDirectTraits { host := ascii "h", port := 7 }
  transportSet := true
  stopped := false
  starting := true

/-- The peer of a TCP client leaves. -/
def peerLeaves : List DirectAction := [.started true, .disconnect [] ⟨1, 10⟩, .storeStopped]

/-- The client stays, and sends what the transport takes. -/
def sentBehindStop : List DirectAction := [.send [1] true true ⟨2, 11⟩, .stop]

theorem released_by_stop_iff_of_departed : ∃ t u v : DirectCaptureSession,
    Run Step dialing peerLeaves t ∧ Step t .stop u ∧ Run Step u sentBehindStop v ∧
      v.transportSet ≠ false := by
  obtain ⟨v, hall, -⟩ := Run.exists_of_foldlM (f := perform) (P := fun _ => True)
    (show ((peerLeaves ++ .stop :: sentBehindStop).foldlM perform dialing).any _ = true
      by decide +kernel)
  have hstart : start true { traits := dialing.traits } = (dialing, none) := rfl
  obtain ⟨t, hbefore, hrest⟩ := Run.append_inv hall
  cases hrest with
  | cons hstop hafter =>
    refine ⟨t, _, v, hbefore, hstop, hafter, fun hreleased => ?_⟩
    have hiff := (released_by_stop_iff hstart hbefore (by decide) hstop hafter).1
    exact absurd (hiff.1 hreleased) (by decide)

end DirectCaptureSession

end PacketProbe
