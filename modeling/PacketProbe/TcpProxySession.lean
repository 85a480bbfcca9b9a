import PacketProbe.LatencyTracking

/-!
# The TCP proxy session

The accept thread sets up one connection and creates the two forwarding threads. A forwarding
thread reads, records, observes and writes until the session is stopped or a call on a socket
fails. One more thread calls `stop`. The steps of the threads are their accesses to what they
share, in any order.
-/

namespace PacketProbe
open TransitionRuns

/-- `format_endpoint`. -/
def formatEndpoint (host : ByteString) (port : UInt16) : ByteString :=
  host ++ ascii ":" ++ decimal port.toNat

/-- What an Error event of the accept thread says. -/
structure ErrorReport where
  source : ByteString := []
  destination : ByteString := []
  summary : ByteString
  deriving DecidableEq

/-- Where the accept thread is: in front of the call that the phase names, or behind a failure. -/
inductive AcceptPhase where
  | accepting | resolving | connecting | publishing | announcing
  | creating (thread : Forwarder)
  | checking (report : ErrorReport)
  | reporting (report : ErrorReport)
  | givingUp | exited | joined
  deriving DecidableEq

/-- The calls that can throw out of the `try` block stand in these phases. -/
def AcceptPhase.canThrow : AcceptPhase → Bool
  | .accepting | .resolving | .connecting | .publishing | .creating _ => true
  | _ => false

/-- Where a forwarding thread is. It is `absent` as long as it is not created, and `joined` when
its `std::thread` is joinable no more. -/
inductive LoopPhase where
  | absent | test | reading
  | recording (chunk : Bytes)
  | observing (event : PacketEvent)
  | writing (payload : Bytes)
  | leaving
  | closing (wasStopped : Bool)
  | announcing (wasStopped : Bool)
  | finished | joined
  deriving DecidableEq

def LoopPhase.joinable : LoopPhase → Bool
  | .absent | .joined => false
  | _ => true

/-- Why a loop ended. -/
inductive EndCause where
  | stopped | endOfFile | readError
  | writeError (unsent : Bytes)
  deriving DecidableEq

/-- One direction: the chunks that its reads will return before the end of the file, and the
bytes that were written to the other side. -/
structure ForwardLoop where
  phase : LoopPhase := .absent
  incoming : List Bytes
  forwarded : Bytes := []
  ended : Option EndCause := none
  deriving DecidableEq

/-- Where the call of `stop` is; it keeps what `stopped_` was before. -/
inductive StopPhase where
  | idle
  | closing (wasStopped : Bool)
  | joining (thread : Forwarder) (wasStopped : Bool)
  | joiningAccept (wasStopped : Bool)
  | announcing (wasStopped : Bool)
  | returned
  deriving DecidableEq

/-- `stop` examines the forwarding threads in this order. -/
def StopPhase.afterJoin (wasStopped : Bool) : Forwarder → StopPhase
  | .appToDevice => .joining .deviceToApp wasStopped
  | .deviceToApp => .joiningAccept wasStopped

structure TcpProxyCaptureSession where
  config : TcpProxyConfig
  stopped : Bool := false
  published : Bool := false
  closed : Bool := false
  appEndpoint : ByteString := []
  deviceEndpoint : ByteString := []
  accept : AcceptPhase := .accepting
  loops : Forwarder → ForwardLoop
  stop : StopPhase := .idle
  tracker : LatencyTracker := {}
  log : List PacketEvent := []

/-- The steps of the accept thread, with what the calls return: an error, the remote endpoints,
or an exception. -/
inductive AcceptAction where
  | accept (error : Option ByteString)
  | resolve (error : Option ByteString) (remote : ByteString)
  | connect (error : Option ByteString) (remote : ByteString)
  | publish (app device : ByteString)
  | announce (stamp : Stamp)
  | create (thread : Forwarder)
  | throws (what : ByteString)
  | check
  | report (stamp : Stamp)
  | giveUp
  deriving DecidableEq

/-- The steps of a forwarding thread. A write that fails has sent some bytes. -/
inductive LoopAction where
  | test
  | read (fails : Bool)
  | record (stamp : Stamp)
  | observe (sequence : UInt64)
  | write (failedAfter : Option ℕ)
  | leave
  | close
  | announce (stamp : Stamp)
  deriving DecidableEq

inductive StopAction where
  | exchange | close | join
  | returns (stamp : Stamp)
  deriving DecidableEq

inductive ProxyAction where
  | accept (action : AcceptAction)
  | forward (thread : Forwarder) (action : LoopAction)
  | stop (action : StopAction)
  deriving DecidableEq

/-! ### One direction -/

namespace ForwardLoop

def setPhase (phase : LoopPhase) (loop : ForwardLoop) : ForwardLoop := { loop with phase }

/-- The `break`s of the loop, and its end at the head. -/
def leave (cause : EndCause) (loop : ForwardLoop) : ForwardLoop :=
  { loop with phase := .leaving, ended := some cause }

/-- The head of the loop. -/
def test (stopped : Bool) (loop : ForwardLoop) : ForwardLoop :=
  if stopped then loop.leave .stopped else loop.setPhase .reading

/-- What `read_some` does. -/
def read (fails : Bool) (loop : ForwardLoop) : ForwardLoop :=
  if fails then loop.leave .readError
  else
    match loop.incoming with
    | [] => loop.leave .endOfFile
    | chunk :: incoming => { loop with phase := .recording chunk, incoming }

/-- What `write` does. -/
def write (payload : Bytes) (loop : ForwardLoop) : Option ℕ → ForwardLoop
  | none => { loop with phase := .test, forwarded := loop.forwarded ++ payload }
  | some sent =>
    { loop with
      phase := .leaving
      forwarded := loop.forwarded ++ payload.take sent
      ended := some (.writeError (payload.drop sent)) }

end ForwardLoop

/-! ### The session -/

namespace TcpProxyCaptureSession

/-- The session when `start` has returned. -/
def started (config : TcpProxyConfig) (stamp : Stamp) (incoming : Forwarder → List Bytes) :
    TcpProxyCaptureSession where
  config
  loops thread := { incoming := incoming thread }
  log := [makeEvent config.sessionId (ascii "tcp") stamp .appToDevice .stateChange []
    (formatEndpoint config.listenHost config.listenPort)
    (formatEndpoint config.targetHost config.targetPort)
    (ascii "listening " ++ formatEndpoint config.listenHost config.listenPort)]

def setLoop (thread : Forwarder) (loop : ForwardLoop) (s : TcpProxyCaptureSession) :
    TcpProxyCaptureSession :=
  { s with loops := Function.update s.loops thread loop }

/-- `emit(make_event(..))` of an event without payload. -/
def emit (stamp : Stamp) (direction : Direction) (type : EventType)
    (sourceEndpoint destinationEndpoint summary : ByteString) (s : TcpProxyCaptureSession) :
    TcpProxyCaptureSession :=
  { s with
    log :=
      s.log ++ [makeEvent s.config.sessionId (ascii "tcp") stamp direction type [] sourceEndpoint
      destinationEndpoint summary] }

/-- Shutting down and closing what is published, under `socket_mutex`. -/
def closeSockets (s : TcpProxyCaptureSession) : TcpProxyCaptureSession :=
  { s with closed := s.closed || s.published }

/-- What the events of the forwarding threads are made from, at the next number. -/
def forwarding (sequence : UInt64) (s : TcpProxyCaptureSession) : TcpProxyForwarding where
  config := s.config
  appEndpoint := s.appEndpoint
  deviceEndpoint := s.deviceEndpoint
  allocator := ⟨sequence⟩
  tracker := s.tracker
  log := s.log

def target (s : TcpProxyCaptureSession) : ByteString :=
  formatEndpoint s.config.targetHost s.config.targetPort

def performAccept (s : TcpProxyCaptureSession) : AcceptAction → Option TcpProxyCaptureSession
  | .accept error =>
    if s.accept = .accepting then
      match error with
      | none => some { s with accept := .resolving }
      | some message =>
        some { s with accept := .checking { summary := ascii "accept failed: " ++ message } }
    else none
  | .resolve error remote =>
    if s.accept = .resolving then
      match error with
      | none => some { s with accept := .connecting }
      | some message =>
        some { s with
          accept := .reporting ⟨remote, s.target, ascii "target resolve failed: " ++ message⟩ }
    else none
  | .connect error remote =>
    if s.accept = .connecting then
      match error with
      | none => some { s with accept := .publishing }
      | some message =>
        some { s with
          accept := .reporting ⟨remote, s.target, ascii "target connect failed: " ++ message⟩ }
    else none
  | .publish app device =>
    if s.accept = .publishing then
      some { s with
        accept := .announcing
        published := true
        appEndpoint := app
        deviceEndpoint := device }
    else none
  | .announce stamp =>
    if s.accept = .announcing then
      some { s.emit stamp .appToDevice .stateChange s.appEndpoint s.deviceEndpoint
        (ascii "proxy connected") with
        accept := .creating .appToDevice }
    else none
  | .create thread =>
    if s.accept = .creating thread then
      some { s.setLoop thread ((s.loops thread).setPhase .test) with
        accept := if thread = .appToDevice then .creating .deviceToApp else .exited }
    else none
  | .throws what =>
    if s.accept.canThrow then some { s with accept := .checking { summary := what } } else none
  | .check =>
    match s.accept with
    | .checking report =>
      some { s with accept := if s.stopped then .givingUp else .reporting report }
    | _ => none
  | .report stamp =>
    match s.accept with
    | .reporting report =>
      some { s.emit stamp .appToDevice .error report.source report.destination report.summary with
        accept := .givingUp }
    | _ => none
  | .giveUp =>
    if s.accept = .givingUp then some { s with accept := .exited, stopped := true } else none

def performLoop (s : TcpProxyCaptureSession) (thread : Forwarder) :
    LoopAction → Option TcpProxyCaptureSession
  | .test =>
    if (s.loops thread).phase = .test then
      some (s.setLoop thread ((s.loops thread).test s.stopped))
    else none
  | .read fails =>
    if (s.loops thread).phase = .reading then
      some (s.setLoop thread ((s.loops thread).read fails))
    else none
  | .record stamp =>
    match (s.loops thread).phase with
    | .recording chunk =>
      let event := (s.forwarding stamp.sequence).rawEvent thread chunk stamp.timestampNs
      some { s.setLoop thread ((s.loops thread).setPhase (.observing event)) with
        log := s.log ++ [event] }
    | _ => none
  | .observe sequence =>
    match (s.loops thread).phase with
    | .observing event =>
      let observed := (s.forwarding sequence).observeLatency event
      some { s.setLoop thread ((s.loops thread).setPhase (.writing event.payload)) with
        tracker := observed.tracker
        log := observed.log }
    | _ => none
  | .write failedAfter =>
    match (s.loops thread).phase with
    | .writing payload => some (s.setLoop thread ((s.loops thread).write payload failedAfter))
    | _ => none
  | .leave =>
    if (s.loops thread).phase = .leaving then
      some { s.setLoop thread ((s.loops thread).setPhase (.closing s.stopped)) with
        stopped := true }
    else none
  | .close =>
    match (s.loops thread).phase with
    | .closing wasStopped =>
      some (s.setLoop thread ((s.loops thread).setPhase (.announcing wasStopped))).closeSockets
    | _ => none
  | .announce stamp =>
    match (s.loops thread).phase with
    | .announcing wasStopped =>
      let t := s.setLoop thread ((s.loops thread).setPhase .finished)
      some (if wasStopped then t
        else t.emit stamp .deviceToApp .stateChange ((s.forwarding 0).sourceEndpoint thread)
          ((s.forwarding 0).destinationEndpoint thread) (ascii "proxy stopped"))
    | _ => none

/-- A call of `stop` on a thread that is none of the session's own. A forwarding thread that is
not joinable is passed over; one that runs is waited for. -/
def performStop (s : TcpProxyCaptureSession) : StopAction → Option TcpProxyCaptureSession
  | .exchange =>
    if s.stop = .idle then some { s with stop := .closing s.stopped, stopped := true } else none
  | .close =>
    match s.stop with
    | .closing wasStopped => some { s.closeSockets with stop := .joining .appToDevice wasStopped }
    | _ => none
  | .join =>
    match s.stop with
    | .joining thread wasStopped =>
      if (s.loops thread).phase.joinable = false then
        some { s with stop := StopPhase.afterJoin wasStopped thread }
      else if (s.loops thread).phase = .finished then
        some { s.setLoop thread ((s.loops thread).setPhase .joined) with
          stop := StopPhase.afterJoin wasStopped thread }
      else none
    | .joiningAccept wasStopped =>
      if s.accept = .exited then
        some { s with accept := .joined, stop := .announcing wasStopped }
      else none
    | _ => none
  | .returns stamp =>
    match s.stop with
    | .announcing wasStopped =>
      some { (if wasStopped then s
        else s.emit stamp .deviceToApp .stateChange [] [] (ascii "proxy stopped")) with
          stop := .returned }
    | _ => none

def perform (s : TcpProxyCaptureSession) : ProxyAction → Option TcpProxyCaptureSession
  | .accept action => s.performAccept action
  | .forward thread action => s.performLoop thread action
  | .stop action => s.performStop action

def Step (s : TcpProxyCaptureSession) (a : ProxyAction) (t : TcpProxyCaptureSession) : Prop :=
  s.perform a = some t

/-! ### What a step is -/

section Steps

variable (s : TcpProxyCaptureSession)

/-- The steps of the accept thread, each from its phase. -/
inductive Accepts : AcceptAction → TcpProxyCaptureSession → Prop
  | accept (hphase : s.accept = .accepting) (error : Option ByteString) :
      Accepts (.accept error) { s with
        accept := error.elim .resolving fun message =>
          .checking { summary := ascii "accept failed: " ++ message } }
  | resolve (hphase : s.accept = .resolving) (error : Option ByteString) (remote : ByteString) :
      Accepts (.resolve error remote) { s with
        accept := error.elim .connecting fun message =>
          .reporting ⟨remote, s.target, ascii "target resolve failed: " ++ message⟩ }
  | connect (hphase : s.accept = .connecting) (error : Option ByteString) (remote : ByteString) :
      Accepts (.connect error remote) { s with
        accept := error.elim .publishing fun message =>
          .reporting ⟨remote, s.target, ascii "target connect failed: " ++ message⟩ }
  | publish (hphase : s.accept = .publishing) (app device : ByteString) :
      Accepts (.publish app device)
        { s with
          accept := .announcing
          published := true
          appEndpoint := app
          deviceEndpoint := device }
  | announce (hphase : s.accept = .announcing) (stamp : Stamp) :
      Accepts (.announce stamp)
        { s.emit stamp .appToDevice .stateChange s.appEndpoint s.deviceEndpoint
          (ascii "proxy connected") with
          accept := .creating .appToDevice }
  | create {thread : Forwarder} (hphase : s.accept = .creating thread) :
      Accepts (.create thread) { s.setLoop thread ((s.loops thread).setPhase .test) with
        accept := if thread = .appToDevice then .creating .deviceToApp else .exited }
  | throws (hphase : s.accept.canThrow = true) (what : ByteString) :
      Accepts (.throws what) { s with accept := .checking { summary := what } }
  | check {report : ErrorReport} (hphase : s.accept = .checking report) :
      Accepts .check { s with accept := if s.stopped then .givingUp else .reporting report }
  | report {report : ErrorReport} (hphase : s.accept = .reporting report) (stamp : Stamp) :
      Accepts (.report stamp)
        { s.emit stamp .appToDevice .error report.source report.destination report.summary with
          accept := .givingUp }
  | giveUp (hphase : s.accept = .givingUp) :
    Accepts .giveUp { s with accept := .exited, stopped := true }

/-- The steps of a forwarding thread. -/
inductive Forwarded (thread : Forwarder) : LoopAction → TcpProxyCaptureSession → Prop
  | test (hphase : (s.loops thread).phase = .test) :
      Forwarded thread .test (s.setLoop thread ((s.loops thread).test s.stopped))
  | read (hphase : (s.loops thread).phase = .reading) (fails : Bool) :
      Forwarded thread (.read fails) (s.setLoop thread ((s.loops thread).read fails))
  | record {chunk : Bytes} (hphase : (s.loops thread).phase = .recording chunk) (stamp : Stamp) :
      Forwarded thread (.record stamp)
        { s.setLoop thread ((s.loops thread).setPhase
            (.observing
              ((s.forwarding stamp.sequence).rawEvent thread chunk stamp.timestampNs))) with
          log := s.log ++ [(s.forwarding stamp.sequence).rawEvent thread chunk stamp.timestampNs] }
  | observe {event : PacketEvent} (hphase : (s.loops thread).phase = .observing event)
    (sequence : UInt64) :
      Forwarded thread (.observe sequence)
        { s.setLoop thread ((s.loops thread).setPhase (.writing event.payload)) with
          tracker := ((s.forwarding sequence).observeLatency event).tracker
          log := ((s.forwarding sequence).observeLatency event).log }
  | write {payload : Bytes} (hphase : (s.loops thread).phase = .writing payload)
    (failedAfter : Option ℕ) :
      Forwarded thread (.write failedAfter)
        (s.setLoop thread ((s.loops thread).write payload failedAfter))
  | leave (hphase : (s.loops thread).phase = .leaving) :
      Forwarded thread .leave
        { s.setLoop thread ((s.loops thread).setPhase (.closing s.stopped)) with stopped := true }
  | close {wasStopped : Bool} (hphase : (s.loops thread).phase = .closing wasStopped) :
      Forwarded thread .close
        (s.setLoop thread ((s.loops thread).setPhase (.announcing wasStopped))).closeSockets
  | finish (hphase : (s.loops thread).phase = .announcing true) (stamp : Stamp) :
      Forwarded thread (.announce stamp) (s.setLoop thread ((s.loops thread).setPhase .finished))
  | announce (hphase : (s.loops thread).phase = .announcing false) (stamp : Stamp) :
      Forwarded thread (.announce stamp)
        ((s.setLoop thread ((s.loops thread).setPhase .finished)).emit stamp .deviceToApp
          .stateChange
          ((s.forwarding 0).sourceEndpoint thread) ((s.forwarding 0).destinationEndpoint thread)
          (ascii "proxy stopped"))

/-- The steps of the call of `stop`. -/
inductive Stops : StopAction → TcpProxyCaptureSession → Prop
  | exchange (hphase : s.stop = .idle) :
    Stops .exchange { s with stop := .closing s.stopped, stopped := true }
  | close {wasStopped : Bool} (hphase : s.stop = .closing wasStopped) :
      Stops .close { s.closeSockets with stop := .joining .appToDevice wasStopped }
  | pass {thread : Forwarder} {wasStopped : Bool} (hphase : s.stop = .joining thread wasStopped)
      (hjoinable : (s.loops thread).phase.joinable = false) :
      Stops .join { s with stop := StopPhase.afterJoin wasStopped thread }
  | join {thread : Forwarder} {wasStopped : Bool} (hphase : s.stop = .joining thread wasStopped)
      (hfinished : (s.loops thread).phase = .finished) :
      Stops .join { s.setLoop thread ((s.loops thread).setPhase .joined) with
        stop := StopPhase.afterJoin wasStopped thread }
  | joinAccept {wasStopped : Bool} (hphase : s.stop = .joiningAccept wasStopped)
    (hexited : s.accept = .exited) :
      Stops .join { s with accept := .joined, stop := .announcing wasStopped }
  | finish (hphase : s.stop = .announcing true) (stamp : Stamp) :
      Stops (.returns stamp) { s with stop := .returned }
  | announce (hphase : s.stop = .announcing false) (stamp : Stamp) :
      Stops (.returns stamp)
        { s.emit stamp .deviceToApp .stateChange [] [] (ascii "proxy stopped") with
          stop := .returned }

end Steps

variable {s t : TcpProxyCaptureSession} {thread : Forwarder} {stamp : Stamp} {loop : ForwardLoop}

theorem accepts_of_performAccept {action : AcceptAction} (h : s.performAccept action = some t) :
    s.Accepts action t := by
  cases action with
  | accept error =>
    obtain ⟨hphase, h⟩ := Option.ite_none_right_eq_some.1 h
    cases error <;> cases h <;> exact .accept hphase _
  | resolve error remote =>
    obtain ⟨hphase, h⟩ := Option.ite_none_right_eq_some.1 h
    cases error <;> cases h <;> exact .resolve hphase _ remote
  | connect error remote =>
    obtain ⟨hphase, h⟩ := Option.ite_none_right_eq_some.1 h
    cases error <;> cases h <;> exact .connect hphase _ remote
  | publish app device =>
    obtain ⟨hphase, h⟩ := Option.ite_none_right_eq_some.1 h
    cases h
    exact .publish hphase app device
  | announce stamp =>
    obtain ⟨hphase, h⟩ := Option.ite_none_right_eq_some.1 h
    cases h
    exact .announce hphase stamp
  | create thread =>
    obtain ⟨hphase, h⟩ := Option.ite_none_right_eq_some.1 h
    cases h
    exact .create hphase
  | throws what =>
    obtain ⟨hphase, h⟩ := Option.ite_none_right_eq_some.1 h
    cases h
    exact .throws hphase what
  | check =>
    simp only [performAccept] at h
    split at h
    · cases h
      exact .check (by assumption)
    · cases h
  | report stamp =>
    simp only [performAccept] at h
    split at h
    · cases h
      exact .report (by assumption) stamp
    · cases h
  | giveUp =>
    obtain ⟨hphase, h⟩ := Option.ite_none_right_eq_some.1 h
    cases h
    exact .giveUp hphase

theorem forwarded_of_performLoop {action : LoopAction} (h : s.performLoop thread action = some t) :
    s.Forwarded thread action t := by
  cases action with
  | test =>
    obtain ⟨hphase, h⟩ := Option.ite_none_right_eq_some.1 h
    cases h
    exact .test hphase
  | read fails =>
    obtain ⟨hphase, h⟩ := Option.ite_none_right_eq_some.1 h
    cases h
    exact .read hphase fails
  | record stamp =>
    simp only [performLoop] at h
    split at h
    · cases h
      exact .record (by assumption) stamp
    · cases h
  | observe sequence =>
    simp only [performLoop] at h
    split at h
    · cases h
      exact .observe (by assumption) sequence
    · cases h
  | write failedAfter =>
    simp only [performLoop] at h
    split at h
    · cases h
      exact .write (by assumption) failedAfter
    · cases h
  | leave =>
    obtain ⟨hphase, h⟩ := Option.ite_none_right_eq_some.1 h
    cases h
    exact .leave hphase
  | close =>
    simp only [performLoop] at h
    split at h
    · cases h
      exact .close (by assumption)
    · cases h
  | announce stamp =>
    simp only [performLoop] at h
    split at h
    · rename_i wasStopped hphase
      cases wasStopped with
      | true =>
        cases h
        exact .finish hphase stamp
      | false =>
        cases h
        exact .announce hphase stamp
    · cases h

theorem stops_of_performStop {action : StopAction} (h : s.performStop action = some t) :
    s.Stops action t := by
  cases action with
  | exchange =>
    obtain ⟨hphase, h⟩ := Option.ite_none_right_eq_some.1 h
    cases h
    exact .exchange hphase
  | close =>
    simp only [performStop] at h
    split at h
    · cases h
      exact .close (by assumption)
    · cases h
  | join =>
    simp only [performStop] at h
    split at h
    · rename_i thread wasStopped hphase
      split at h
      · rename_i hjoinable
        cases h
        exact .pass hphase hjoinable
      · obtain ⟨hfinished, h⟩ := Option.ite_none_right_eq_some.1 h
        cases h
        exact .join hphase hfinished
    · rename_i wasStopped hphase
      obtain ⟨hexited, h⟩ := Option.ite_none_right_eq_some.1 h
      cases h
      exact .joinAccept hphase hexited
    · cases h
  | returns stamp =>
    simp only [performStop] at h
    split at h
    · rename_i wasStopped hphase
      cases wasStopped with
      | true =>
        cases h
        exact .finish hphase stamp
      | false =>
        cases h
        exact .announce hphase stamp
    · cases h

@[simp] theorem loops_setLoop (thread other : Forwarder) (loop : ForwardLoop)
    (s : TcpProxyCaptureSession) :
    (s.setLoop thread loop).loops other = if other = thread then loop else s.loops other :=
  Function.update_apply _ _ _ _

/-- A step of a forwarding thread changes neither the other threads nor the call of `stop`. -/
theorem performLoop_frame {action : LoopAction} (h : s.performLoop thread action = some t) :
    t.accept = s.accept ∧ t.stop = s.stop ∧ (s.stopped = true → t.stopped = true) ∧
      ∀ other, other ≠ thread → t.loops other = s.loops other := by
  have hloop : ∀ (loop : ForwardLoop) (other : Forwarder), other ≠ thread →
      (s.setLoop thread loop).loops other = s.loops other := by
    intro loop other hother
    rw [loops_setLoop, if_neg hother]
  cases forwarded_of_performLoop h with
  | leave hphase => exact ⟨rfl, rfl, fun _ => rfl, hloop _⟩
  | _ => exact ⟨rfl, rfl, id, hloop _⟩

end TcpProxyCaptureSession

end PacketProbe
