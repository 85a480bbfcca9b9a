import PacketProbe.FrameParents
import PacketProbe.TcpServerSession
import PacketProbe.TrafficDecoding

/-!
# What a TCP server decodes

A server serves one client at a time. What the clients send is decoded by the endpoint they
come from; what is sent goes to the first client alone, and ends with it. The transport calls back
one at a time, so that no client takes the slot before the last one's end has set `stopped_`.
-/

namespace PacketProbe
open EventPipeline

/-! ### The clients that are served -/

/-- A chunk that went through the transport, from or to the client at an endpoint. -/
inductive ServedChunk where
  | received (clientInfo : ByteString) (payload : Bytes)
  | sent (clientInfo : ByteString) (payload : Bytes)
  deriving DecidableEq

namespace ServedChunk

def payload : ServedChunk → Bytes
  | received _ payload | sent _ payload => payload

/-- The payload, if it came from this endpoint. -/
def payloadFrom (source : ByteString) : ServedChunk → Option Bytes
  | received clientInfo payload => if clientInfo = source then some payload else none
  | sent _ _ => none

/-- The payload, if it went to this endpoint. -/
def payloadTo (target : ByteString) : ServedChunk → Option Bytes
  | received _ _ => none
  | sent clientInfo payload => if clientInfo = target then some payload else none

end ServedChunk

namespace ServerAction

/-- The served client with its endpoint; who comes while another one is served is not. -/
def serves (served : Option (ClientId × ByteString)) : ServerAction → Option (ClientId × ByteString)
  | .connect client clientInfo _ => served.or (some (client, clientInfo))
  | .disconnect client _ | .error (some client) _ _ =>
    if served.map Prod.fst = some client then none else served
  | _ => served

/-- Nothing is sent any more: the session is stopped, or the served client has gone. -/
def endsSending (served : Option (ClientId × ByteString)) : ServerAction → Bool
  | .stop => true
  | action => served.isSome && (action.serves served).isNone

/-- What goes through the transport. -/
def chunk (served : Option (ClientId × ByteString)) (sending : Bool) :
    ServerAction → Option ServedChunk
  | .data client payload _ =>
    if served.map Prod.fst = some client then served.map fun current =>
      .received current.2 payload else none
  | .send payload accepted _ =>
    if sending && accepted then served.map fun current => .sent current.2 payload else none
  | _ => none

end ServerAction

/-- The chunks of a sequence of callbacks and calls. -/
def servedChunks (served : Option (ClientId × ByteString)) (sending : Bool) :
    List ServerAction → List ServedChunk
  | [] => []
  | action :: actions => (action.chunk served sending).toList ++
      servedChunks (action.serves served) (sending && !action.endsSending served) actions

/-- The endpoints of the clients that connect, in their order. -/
def connectingInfos (actions : List ServerAction) : List ByteString :=
  actions.filterMap fun
    | .connect _ clientInfo _ => some clientInfo
    | _ => none

section Served

variable {served : Option (ClientId × ByteString)} {sending : Bool} {actions : List ServerAction}
  {client : ClientId} {clientInfo : ByteString} {payload : Bytes}

theorem not_sent_of_ended (served : Option (ClientId × ByteString)) (actions : List ServerAction) :
    .sent clientInfo payload ∉ servedChunks served false actions := by
  induction actions generalizing served with
  | nil => exact List.not_mem_nil
  | cons action actions ih =>
    intro hmem
    rcases List.mem_append.1 hmem with hnow | hlater
    · cases action with
      | send payload accepted stamp => cases served <;> simp [ServerAction.chunk] at hnow
      | data client payload stamp => cases served <;> simp [ServerAction.chunk] at hnow
      | _ => simp [ServerAction.chunk] at hnow
    · exact ih _ hlater

theorem serves_some (action : ServerAction) (current : ClientId × ByteString) :
    action.serves (some current) = some current ∨ action.serves (some current) = none := by
  cases action with
  | disconnect client stamp => exact (ite_eq_or_eq _ _ _).symm
  | error client message stamp =>
    cases client with
    | none => exact .inl rfl
    | some client => exact (ite_eq_or_eq _ _ _).symm
  | _ => exact .inl rfl

theorem endsSending_of_gone {action : ServerAction} {current : ClientId × ByteString}
    (h : action.serves (some current) = none) : action.endsSending (some current) = true := by
  cases action with
  | stop => rfl
  | _ => exact congrArg Option.isNone h

theorem endsSending_of_same {action : ServerAction} (hstop : action ≠ .stop)
    (h : action.serves served = served) :
    action.endsSending served = false := by
  have hnever : (served.isSome && (action.serves served).isNone) = false := by
    rw [h]
    cases served <;> rfl
  cases action with
  | stop => exact absurd rfl hstop
  | _ => exact hnever

/-- While a client is served, only to this one. -/
theorem sent_to_served {current : ClientId × ByteString}
    (h : .sent clientInfo payload ∈ servedChunks (some current) sending actions) :
    clientInfo = current.2 := by
  induction actions generalizing sending with
  | nil => cases h
  | cons action actions ih =>
    rcases List.mem_append.1 h with hnow | hlater
    · cases action with
      | send payload accepted stamp =>
        simp only [ServerAction.chunk, Option.mem_toList] at hnow
        split at hnow <;> cases hnow
        rfl
      | data client payload stamp =>
        simp only [ServerAction.chunk, Option.mem_toList] at hnow
        split at hnow <;> cases hnow
      | _ => cases hnow
    · rcases serves_some action current with hsame | hgone
      · rw [hsame] at hlater
        exact ih hlater
      · rw [endsSending_of_gone hgone, Bool.not_true, Bool.and_false] at hlater
        exact absurd hlater (not_sent_of_ended _ _)

theorem sent_to_first (h : .sent clientInfo payload ∈ servedChunks none sending actions) :
    (connectingInfos actions).head? = some clientInfo := by
  induction actions generalizing sending with
  | nil => cases h
  | cons action actions ih =>
    rcases List.mem_append.1 h with hnow | hlater
    · cases action with
      | data client payload stamp => cases hnow
      | send payload accepted stamp =>
        simp only [ServerAction.chunk, Option.map_none, ite_self] at hnow
        cases hnow
      | _ => cases hnow
    · cases action with
      | connect client info stamp => exact congrArg some (sent_to_served hlater).symm
      | error client message stamp => cases client <;> exact ih hlater
      | _ => exact ih hlater

end Served

/-! ### The session -/

namespace TcpServerCaptureSession

variable {s : TcpServerCaptureSession}

def serving (s : TcpServerCaptureSession) : Option (ClientId × ByteString) :=
  s.activeClient.map fun client => (client, s.clientInfo)

def sending (s : TcpServerCaptureSession) : Bool := s.serverSet && !s.stopped

def receivedStream (options : TcpServerCaptureOptions) (clientInfo : ByteString) : Stream :=
  ⟨options.sessionId, ascii "tcp", .deviceToApp, clientInfo, localEndpoint { options }⟩

def sentStream (options : TcpServerCaptureOptions) (clientInfo : ByteString) : Stream :=
  ⟨options.sessionId, ascii "tcp", .appToDevice, localEndpoint { options }, clientInfo⟩

/-- The stream that a chunk is recorded on. -/
def streamOf (options : TcpServerCaptureOptions) : ServedChunk → Stream
  | .received clientInfo _ => receivedStream options clientInfo
  | .sent clientInfo _ => sentStream options clientInfo

theorem fst_serving (s : TcpServerCaptureSession) : s.serving.map Prod.fst = s.activeClient := by
  unfold serving
  cases s.activeClient <;> rfl

theorem serving_of_active {client : ClientId} (h : s.activeClient = some client) :
    s.serving = some (client, s.clientInfo) := by
  rw [serving, h]
  rfl

theorem serving_of_free (h : s.activeClient = none) : s.serving = none := by
  rw [serving, h]
  rfl

/-- A step changes whom the session serves, and whether it sends, by what the action is. -/
theorem serving_perform (s : TcpServerCaptureSession) (action : ServerAction) :
    (s.perform action).1.options = s.options ∧
      (s.perform action).1.serving = action.serves s.serving ∧
      (s.perform action).1.sending = (s.sending && !action.endsSending s.serving) := by
  have hkept : action ≠ .stop → action.serves s.serving = s.serving →
      s.options = s.options ∧ s.serving = action.serves s.serving ∧
        s.sending = (s.sending && !action.endsSending s.serving) := fun hstop hsame =>
    ⟨rfl, hsame.symm, by rw [endsSending_of_same hstop hsame, Bool.not_false, Bool.and_true]⟩
  have hleft : ∀ client, s.activeClient = some client →
      action.serves s.serving = (if s.serving.map Prod.fst = some client then none else s.serving) →
      s.release.options = s.options ∧ s.release.serving = action.serves s.serving ∧
        s.release.sending = (s.sending && !action.endsSending s.serving) := by
    intro client hactive hserves
    rw [fst_serving, if_pos hactive] at hserves
    have hended : action.endsSending s.serving = true := by
      rw [serving_of_active hactive] at hserves ⊢
      exact endsSending_of_gone hserves
    refine ⟨rfl, hserves.symm, ?_⟩
    rw [hended, Bool.not_true, Bool.and_false, sending, release]
    exact Bool.and_false _
  cases action with
  | connect client clientInfo stamp =>
    simp only [perform, onConnect]
    split
    · rename_i active hactive
      exact hkept (by simp) (by rw [serving_of_active hactive]; rfl)
    · rename_i hfree
      rw [serving_of_free hfree]
      exact ⟨rfl, rfl, (Bool.and_true _).symm⟩
  | disconnect client stamp =>
    simp only [perform, onDisconnect]
    split
    · rename_i hactive
      exact hleft client hactive rfl
    · rename_i hother
      exact hkept (by simp) (if_neg (by rwa [fst_serving]))
  | data client payload stamp =>
    simp only [perform, onData]
    split <;> exact hkept (by simp) rfl
  | error client message stamp =>
    cases client with
    | none => exact hkept (by simp) rfl
    | some client =>
      simp only [perform, onError]
      split
      · rename_i hactive
        exact hleft client hactive rfl
      · rename_i hother
        exact hkept (by simp) (if_neg (by rwa [fst_serving]))
  | send payload accepted stamp => exact hkept (by simp) rfl
  | stop =>
    simp only [perform, stop]
    split
    · rename_i hstopped
      refine ⟨rfl, rfl, ?_⟩
      rw [sending, hstopped]
      simp
    · exact ⟨rfl, rfl, (Bool.and_false _).symm⟩

theorem traffic_perform (s : TcpServerCaptureSession) (action : ServerAction) :
    rawTraffic ((s.perform action).2.map Emitted.event) =
      (action.chunk s.serving s.sending).toList.map fun chunk =>
        (streamOf s.options chunk, chunk.payload) := by
  cases action with
  | connect client clientInfo stamp =>
    simp only [perform, onConnect]
    split <;> exact rawTraffic_other fun h => by cases h
  | disconnect client stamp =>
    simp only [perform, onDisconnect]
    split
    · exact rawTraffic_other fun h => by cases h
    · rfl
  | data client payload stamp =>
    simp only [perform, onData, ServerAction.chunk, fst_serving]
    split
    · rename_i hactive
      rw [serving_of_active hactive]
      exact rawTraffic_raw rfl
    · rfl
  | error client message stamp =>
    cases client with
    | none => rfl
    | some client =>
      simp only [perform, onError]
      split
      · exact rawTraffic_other fun h => by cases h
      · rfl
  | send payload accepted stamp =>
    simp only [perform, send, ServerAction.chunk]
    cases hactive : s.activeClient with
    | none =>
      rw [serving_of_free hactive, Option.map_none, ite_self]
      rfl
    | some client =>
      rw [serving_of_active hactive]
      simp only
      have hsending : s.sending = true ↔ ¬ (s.stopped = true ∨ s.serverSet = false) := by
        simp [sending, and_comm]
      by_cases hclosed : s.stopped = true ∨ s.serverSet = false
      · have hended : s.sending = false := Bool.eq_false_iff.2 fun h => hsending.1 h hclosed
        rw [if_pos hclosed, hended, if_neg (by simp)]
        rfl
      · rw [if_neg hclosed, hsending.2 hclosed]
        cases accepted with
        | false => rfl
        | true => exact rawTraffic_raw rfl
  | stop => rfl

theorem traffic_emitted (s : TcpServerCaptureSession) (actions : List ServerAction) :
    rawTraffic ((s.emitted actions).map Emitted.event) =
      (servedChunks s.serving s.sending actions).map fun chunk =>
        (streamOf s.options chunk, chunk.payload) := by
  induction actions generalizing s with
  | nil => rfl
  | cons action actions ih =>
    obtain ⟨hoptions, hserving, hsending⟩ := serving_perform s action
    have hrest := ih (s.perform action).1
    rw [hoptions, hserving, hsending] at hrest
    rw [emitted, List.map_append, rawTraffic_append, traffic_perform, hrest, servedChunks,
      List.map_append]

theorem serving_of_start {options : TcpServerCaptureOptions} {startSync : Bool}
    (h : start startSync { options } = (s, none)) :
    s.options = options ∧ s.serving = none ∧ s.sending = true := by
  unfold start at h
  split at h
  · cases h
  · split at h
    · cases h
      exact ⟨rfl, rfl, rfl⟩
    · cases h

/-- All that is received comes to one endpoint, and all that is sent comes from it. -/
theorem akin_of_served (options : TcpServerCaptureOptions) (chunks : List ServedChunk) :
    ∀ entry ∈ chunks.map fun chunk => (streamOf options chunk, chunk.payload),
      (∀ source, entry.1.Akin (receivedStream options source)) ∧
      ∀ target, entry.1.Akin (sentStream options target) := by
  intro entry hentry
  obtain ⟨chunk, -, rfl⟩ := List.mem_map.1 hentry
  cases chunk with
  | received clientInfo payload =>
    exact ⟨fun source => ⟨rfl, rfl, fun _ => .inr rfl⟩,
      fun target => ⟨rfl, rfl, fun h => by cases h⟩⟩
  | sent clientInfo payload =>
    exact ⟨fun source => ⟨rfl, rfl, fun h => by cases h⟩,
      fun target => ⟨rfl, rfl, fun _ => .inl rfl⟩⟩

/-- Whatever clients come and go and whatever is sent in between, the raw events are the chunks that
went through the transport. What came from one endpoint is decoded by one decoder, also when several
clients come from there one after the other, and so is what was sent to one; all that is ever sent
goes to the first client. -/
theorem server_session_decoded {options : TcpServerCaptureOptions} {startSync : Bool}
    {config : DecoderConfig} {d₀ : FrameDecoder} (hstart : start startSync { options } = (s, none))
    (hcreate : createFrameDecoder config = .ok d₀) (actions : List ServerAction)
    (a : SequenceAllocator) :
    rawTraffic ((s.emitted actions).map Emitted.event) =
      (servedChunks none true actions).map (fun chunk => (streamOf options chunk, chunk.payload)) ∧
    (∀ source, (derivedOf (receivedStream options source).key
      ((fresh config).history a ((s.emitted actions).map Emitted.event))).map PacketEvent.outcome =
        d₀.reports
          (((servedChunks none true actions).filterMap (ServedChunk.payloadFrom source)).filter
            (· ≠ []))) ∧
    (∀ target, (derivedOf (sentStream options target).key
      ((fresh config).history a ((s.emitted actions).map Emitted.event))).map PacketEvent.outcome =
        d₀.reports
          (((servedChunks none true actions).filterMap (ServedChunk.payloadTo target)).filter
            (· ≠ []))) ∧
    ∀ clientInfo payload, .sent clientInfo payload ∈ servedChunks none true actions →
      (connectingInfos actions).head? = some clientInfo := by
  obtain ⟨rfl, hserving, hsending⟩ := serving_of_start hstart
  have htraffic := traffic_emitted s actions
  rw [hserving, hsending] at htraffic
  have hakin := akin_of_served s.options (servedChunks none true actions)
  rw [← htraffic] at hakin
  refine ⟨htraffic, fun source => ?_, fun target => ?_, fun clientInfo payload => sent_to_first⟩
  · rw [reports_of_traffic hcreate fun item hitem => (hakin item hitem).1 source, htraffic]
    refine congrArg d₀.reports (chunksOf_map (fun chunk => ?_) _)
    cases chunk <;>
      simp [streamOf, receivedStream, sentStream, ServedChunk.payloadFrom, ServedChunk.payload]
  · rw [reports_of_traffic hcreate fun item hitem => (hakin item hitem).2 target, htraffic]
    refine congrArg d₀.reports (chunksOf_map (fun chunk => ?_) _)
    cases chunk <;>
      simp [streamOf, receivedStream, sentStream, ServedChunk.payloadTo, ServedChunk.payload]

/-- A client leaves in the middle of a frame, and another one comes from its endpoint; what is sent
to that one is refused. -/
def returningClient : List ServerAction :=
  [.connect 1 (ascii "10.0.0.2:40000") ⟨1, 10⟩, .data 1 [1, 2] ⟨2, 11⟩,
    .send [7, 8, 9] true ⟨3, 12⟩, .connect 2 (ascii "10.0.0.3:40000") ⟨4, 13⟩,
    .data 2 [0, 0, 0] ⟨5, 14⟩, .disconnect 1 ⟨6, 15⟩, .connect 3 (ascii "10.0.0.2:40000") ⟨7, 16⟩,
    .data 3 [3] ⟨8, 17⟩, .send [7, 8, 9] true ⟨9, 18⟩]

theorem server_session_decoded_returning :
    (derivedOf (receivedStream { listenPort := 9000 } (ascii "10.0.0.2:40000")).key
      ((fresh threeByteFrames).history {}
        ((emitted (start true { options := { listenPort := 9000 } }).1
        returningClient).map Emitted.event))).map PacketEvent.outcome = [(.frame, [1, 2, 3])] := by
  have hstart : start true { options := { listenPort := 9000 } } =
      ((start true { options := { listenPort := 9000 } }).1, none) := rfl
  refine ((server_session_decoded hstart rfl returningClient {}).2.1 _).trans ?_
  decide +kernel

end TcpServerCaptureSession

end PacketProbe
