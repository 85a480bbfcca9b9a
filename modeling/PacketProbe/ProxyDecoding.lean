import PacketProbe.ProxyRecording
import PacketProbe.FrameParents
import PacketProbe.TrafficDecoding

/-!
# The frames of proxied traffic

The proxy's log holds the traffic of both directions. The frames derived for a direction are those
of the bytes that this direction has forwarded.
-/

namespace PacketProbe
open TransitionRuns EventPipeline

namespace TcpProxyCaptureSession

variable {s t : TcpProxyCaptureSession} {thread : Forwarder} {acts : List ProxyAction}
  {a : ProxyAction}

/-- The stream of a direction. -/
def forwardStream (s : TcpProxyCaptureSession) (thread : Forwarder) : Stream :=
  ⟨s.config.sessionId, ascii "tcp", thread.direction, (s.forwarding 0).sourceEndpoint thread,
    (s.forwarding 0).destinationEndpoint thread⟩

theorem rawTraffic_emit {type : EventType} (h : type ≠ .rawBytes) (stamp : Stamp)
    (direction : Direction) (source destination summary : ByteString) :
    rawTraffic (s.emit stamp direction type source destination summary).log = rawTraffic s.log := by
  have hquiet : ∀ e : PacketEvent, e.type = type →
      rawTraffic (s.log ++ [e]) = rawTraffic s.log := by
    intro e htype
    rw [rawTraffic_append, rawTraffic_other (htype ▸ h), List.append_nil]
  exact hquiet _ rfl

theorem rawTraffic_observe (sequence : UInt64) (event : PacketEvent) :
    rawTraffic ((s.forwarding sequence).observeLatency event).log = rawTraffic s.log := by
  unfold TcpProxyForwarding.observeLatency
  split
  · rfl
  · split
    · rfl
    · exact (rawTraffic_append _ _).trans (List.append_nil _)

/-- The raw events are on the streams of the two directions, and there is none before the first of
the forwarding threads. -/
structure OnStreams (s : TcpProxyCaptureSession) : Prop where
  setUp : s.SetUp
  streams : ∀ item ∈ rawTraffic s.log, ∃ thread, item.1 = s.forwardStream thread
  early : s.accept.before .appToDevice = true → rawTraffic s.log = []

theorem before_appToDevice {phase : AcceptPhase} (h : phase.before thread = false) :
    phase.before .appToDevice = false := by
  cases thread with
  | appToDevice => exact h
  | deviceToApp => cases phase <;> simp_all [AcceptPhase.before]

theorem OnStreams.of_eq (h : s.OnStreams) (hsetUp : t.SetUp)
    (hraw : rawTraffic t.log = rawTraffic s.log) (hstreams : t.forwardStream = s.forwardStream)
    (hbefore : t.accept.before .appToDevice = true → s.accept.before .appToDevice = true) :
    t.OnStreams where
  setUp := hsetUp
  streams := by
    rw [hraw, hstreams]
    exact h.streams
  early hearly := by rw [hraw, h.early (hbefore hearly)]

theorem OnStreams.accept {action : AcceptAction} (h : s.OnStreams)
    (hstep : s.performAccept action = some t) :
    t.OnStreams := by
  have hsetUp := h.setUp.accept hstep
  cases accepts_of_performAccept hstep with
  | publish hphase app device =>
    -- the endpoints change here, while no thread has recorded anything
    have hnone : rawTraffic s.log = [] := by
      apply h.early
      rw [hphase]
      rfl
    refine ⟨hsetUp, ?_, fun _ => hnone⟩
    change ∀ item ∈ rawTraffic s.log, _
    rw [hnone]
    exact fun _ hmem => absurd hmem List.not_mem_nil
  | announce hphase stamp =>
    refine h.of_eq hsetUp (rawTraffic_emit EventType.noConfusion ..) rfl fun _ => ?_
    rw [hphase]
    rfl
  | report hphase stamp =>
    exact h.of_eq hsetUp (rawTraffic_emit EventType.noConfusion ..) rfl fun hearly =>
      Bool.noConfusion hearly
  | accept hphase | resolve hphase | connect hphase =>
    refine h.of_eq hsetUp rfl rfl fun _ => ?_
    rw [hphase]
    rfl
  | create hphase =>
    refine h.of_eq hsetUp rfl rfl fun hearly => ?_
    simp only at hearly
    split at hearly <;> cases hearly
  | check hphase =>
    refine h.of_eq hsetUp rfl rfl fun hearly => ?_
    simp only at hearly
    split at hearly <;> cases hearly
  | throws | giveUp => exact h.of_eq hsetUp rfl rfl fun hearly => Bool.noConfusion hearly

theorem OnStreams.forward {action : LoopAction} (h : s.OnStreams)
    (hstep : s.performLoop thread action = some t) :
    t.OnStreams := by
  have hsetUp := h.setUp.forward hstep
  cases forwarded_of_performLoop hstep with
  | record hphase stamp =>
    rename_i chunk
    have hearly : s.accept.before .appToDevice = false := by
      refine before_appToDevice (show s.accept.before thread = false from ?_)
      by_contra hbefore
      have habsent := h.setUp thread (by simpa using hbefore)
      rw [hphase] at habsent
      cases habsent
    refine ⟨hsetUp, fun item hitem => ?_,
      fun hbefore => absurd (hearly.symm.trans hbefore) Bool.false_ne_true⟩
    rw [rawTraffic_append, rawTraffic_raw rfl, List.mem_append, List.mem_singleton] at hitem
    rcases hitem with hitem | rfl
    · exact h.streams item hitem
    · exact ⟨thread, rfl⟩
  | observe hphase sequence => exact h.of_eq hsetUp (rawTraffic_observe _ _) rfl id
  | announce hphase stamp => exact h.of_eq hsetUp (rawTraffic_emit EventType.noConfusion ..) rfl id
  | _ => exact h.of_eq hsetUp rfl rfl id

theorem OnStreams.stop {action : StopAction} (h : s.OnStreams)
    (hstep : s.performStop action = some t) :
    t.OnStreams := by
  have hsetUp := h.setUp.stop hstep
  cases stops_of_performStop hstep with
  | announce hphase stamp => exact h.of_eq hsetUp (rawTraffic_emit EventType.noConfusion ..) rfl id
  | joinAccept => exact h.of_eq hsetUp rfl rfl fun hearly => Bool.noConfusion hearly
  | _ => exact h.of_eq hsetUp rfl rfl id

theorem OnStreams.step (h : s.OnStreams) (hstep : Step s a t) : t.OnStreams := by
  cases a with
  | accept action => exact h.accept hstep
  | forward thread action => exact h.forward hstep
  | stop action => exact h.stop hstep

variable {config : TcpProxyConfig} {stamp : Stamp} {incoming : Forwarder → List Bytes}

theorem onStreams_of_run (hrun : Run Step (started config stamp incoming) acts s) : s.OnStreams :=
  hrun.invariant (I := OnStreams) (fun _ _ _ h => h.step)
    ⟨setUp_started config stamp incoming, fun _ hmem => absurd hmem List.not_mem_nil, fun _ => rfl⟩

theorem recorded_cons (e : PacketEvent) (thread : Forwarder) (log : List PacketEvent) :
    recorded thread (e :: log) = recorded thread [e] ++ recorded thread log := by
  unfold recorded
  rw [← List.map_append, ← List.filter_append, List.singleton_append]

/-- The payload of an item, if it belongs to the direction's stream. -/
theorem recorded_eq_filterMap (thread : Forwarder) (log : List PacketEvent)
    (hstreams : ∀ item ∈ rawTraffic log, ∃ other, item.1 = s.forwardStream other) :
    recorded thread log =
      (rawTraffic log).filterMap fun item =>
        if item.1 = s.forwardStream thread then some item.2 else none := by
  induction log with
  | nil => rfl
  | cons e log ih =>
    have hsplit : rawTraffic (e :: log) = rawTraffic [e] ++ rawTraffic log :=
      rawTraffic_append [e] log
    rw [hsplit] at hstreams ⊢
    rw [recorded_cons, List.filterMap_append,
      ih fun item hitem => hstreams item (List.mem_append_right _ hitem)]
    congr 1
    by_cases hraw : e.type = .rawBytes
    · have hmem : (e.stream, e.payload) ∈ rawTraffic [e] ++ rawTraffic log := by
        simp [rawTraffic_raw hraw]
      obtain ⟨other, hother⟩ := hstreams _ hmem
      have hdirection : e.direction = other.direction := congrArg Stream.direction hother
      rw [rawTraffic_raw hraw]
      by_cases hsame : other = thread
      · subst hsame
        have hstream : e.stream = s.forwardStream other := hother
        simp [recorded, hraw, hdirection, hstream]
      · have hne : ¬ e.stream = s.forwardStream thread :=
          fun heq => hsame (direction_inj (congrArg Stream.direction (hother.symm.trans heq)))
        have hdirections : ¬ e.direction = thread.direction :=
          fun heq => hsame (direction_inj (hdirection.symm.trans heq))
        simp [recorded, hdirections, hne]
    · rw [rawTraffic_other hraw]
      exact congrArg (List.map _)
        (List.filter_cons_of_neg fun hpair => hraw (of_decide_eq_true hpair).1)

/-- The chunks of a direction's stream are the recorded payloads, without the empty ones. -/
theorem OnStreams.chunksOf_eq (h : s.OnStreams) (thread : Forwarder) :
    chunksOf (s.forwardStream thread) (rawTraffic s.log) =
      (recorded thread s.log).filter (· ≠ []) := by
  have hread :
    ∀ item : Stream × Bytes, (if item.1 = s.forwardStream thread then some item.2 else none) =
      if (id item).1 = s.forwardStream thread then some (id item).2 else none := fun _ => rfl
  rw [recorded_eq_filterMap thread s.log h.streams, ← chunksOf_map hread, List.map_id]

theorem akin_forwardStream (s : TcpProxyCaptureSession) (other thread : Forwarder) :
    (s.forwardStream other).Akin (s.forwardStream thread) := by
  refine ⟨rfl, rfl, fun h => ?_⟩
  cases other <;> cases thread <;> first | exact .inl rfl | cases h

/-- In every state of the two directions, whatever `stop` and the other direction do, what the
pipeline derives for a direction is what a decoder makes of the chunks this direction has read, and
these chunks are what it has forwarded and the payload in its hands, or the rest that a failed write
left. -/
theorem forwarded_frames {d₀ : FrameDecoder} {decoderConfig : DecoderConfig}
    (hcreate : createFrameDecoder decoderConfig = .ok d₀)
    (hrun : Run Step (started config stamp incoming) acts s)
    (a : SequenceAllocator) (thread : Forwarder) :
    ∃ chunks,
      (derivedOf (s.forwardStream thread).key ((fresh decoderConfig).history a s.log)).map
      PacketEvent.outcome =
        d₀.reports chunks ∧
      chunks.flatten = (s.loops thread).forwarded ++ (s.loops thread).unsent ∧
      chunks ++ ((s.loops thread).unrecorded ++ (s.loops thread).incoming).filter (· ≠ []) =
        (incoming thread).filter (· ≠ []) ∧
      ((s.loops thread).ended = some .endOfFile →
        chunks = (incoming thread).filter (· ≠ []) ∧
          (s.loops thread).forwarded = (incoming thread).flatten) := by
  have honStreams := onStreams_of_run hrun
  have hforwards := (forwards_of_run hrun).2 thread
  have hakin : ∀ item ∈ rawTraffic s.log, item.1.Akin (s.forwardStream thread) := by
    intro item hitem
    obtain ⟨other, hother⟩ := honStreams.streams item hitem
    rw [hother]
    exact s.akin_forwardStream other thread
  refine ⟨(recorded thread s.log).filter (· ≠ []), ?_, ?_, ?_, fun hended => ?_⟩
  · rw [reports_of_traffic hcreate hakin, honStreams.chunksOf_eq thread]
  · rw [List.flatten_filter_ne_nil, hforwards.written]
  · rw [← List.filter_append, ← List.append_assoc, hforwards.read]
  · have hread := hforwards.read
    rw [(hforwards.of_ended hended).1, hforwards.endOfFile hended, List.append_nil,
      List.append_nil] at hread
    exact ⟨by rw [hread], hforwards.of_endOfFile hended⟩

/-- The app's two chunks make one frame, of which the device has got two bytes. -/
theorem forwarded_frames_of_broken_write : ∃ s : TcpProxyCaptureSession,
    Run Step (started TcpProxyForwarding.proxied.config ⟨1, 10⟩ twoChunks) brokenWrite s ∧
    (derivedOf (s.forwardStream .appToDevice).key ((fresh threeByteFrames).history {} s.log)).map
      PacketEvent.outcome =
      [(.frame, [1, 2, 3])] ∧
    (s.loops .appToDevice).forwarded ++ (s.loops .appToDevice).unsent = [1, 2, 3] := by
  obtain ⟨s, hrun, hrest⟩ := Run.exists_of_foldlM
    (P := fun s : TcpProxyCaptureSession =>
      (s.loops .appToDevice).unrecorded ++ (s.loops .appToDevice).incoming = [])
    (show ((brokenWrite.foldlM perform
      (started TcpProxyForwarding.proxied.config ⟨1, 10⟩ twoChunks)).any _) = true by
        decide +kernel)
  have hcreate : createFrameDecoder threeByteFrames = .ok (.fixedSize ⟨3, by decide, []⟩) := rfl
  obtain ⟨chunks, hreports, hforwarded, hchunks, -⟩ :=
    forwarded_frames hcreate hrun {} .appToDevice
  rw [hrest, List.filter_nil, List.append_nil] at hchunks
  rw [hchunks] at hreports hforwarded
  exact ⟨s, hrun, hreports.trans (by decide +kernel), hforwarded.symm⟩

end TcpProxyCaptureSession

end PacketProbe
