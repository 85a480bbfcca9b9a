import PacketProbe.TcpProxySession

/-!
# What the proxy records and what it forwards

In every state, the payloads recorded of a direction are the chunks that were read, and the
bytes written to the other side are a prefix of them.
-/

namespace PacketProbe
open TransitionRuns

/-! ### One direction -/

/-- Behind the loop. -/
def LoopPhase.ending : LoopPhase → Bool
  | .leaving | .closing _ | .announcing _ | .finished | .joined => true
  | _ => false

/-- What a failed write left of its payload. -/
def EndCause.unsent : EndCause → Bytes
  | .writeError rest => rest
  | .stopped | .endOfFile | .readError => []

/-- What a step does to a direction and to the payloads recorded of it. -/
inductive Moves : ForwardLoop × List Bytes → ForwardLoop × List Bytes → Prop
  | keep (loop : ForwardLoop) (recorded : List Bytes) : Moves (loop, recorded) (loop, recorded)
  | create {loop : ForwardLoop} {recorded : List Bytes} (h : loop.phase = .absent) :
      Moves (loop, recorded) (loop.setPhase .test, recorded)
  | test {loop : ForwardLoop} {recorded : List Bytes} (h : loop.phase = .test) (stopped : Bool) :
      Moves (loop, recorded) (loop.test stopped, recorded)
  | read {loop : ForwardLoop} {recorded : List Bytes} (h : loop.phase = .reading) (fails : Bool) :
      Moves (loop, recorded) (loop.read fails, recorded)
  | record {loop : ForwardLoop} {recorded : List Bytes} {event : PacketEvent}
      (h : loop.phase = .recording event.payload) :
      Moves (loop, recorded) (loop.setPhase (.observing event), recorded ++ [event.payload])
  | observe {loop : ForwardLoop} {recorded : List Bytes} {event : PacketEvent}
      (h : loop.phase = .observing event) :
      Moves (loop, recorded) (loop.setPhase (.writing event.payload), recorded)
  | write {loop : ForwardLoop} {recorded : List Bytes} {payload : Bytes}
    (h : loop.phase = .writing payload)
      (failedAfter : Option ℕ) : Moves (loop, recorded) (loop.write payload failedAfter, recorded)
  | wind {loop : ForwardLoop} {recorded : List Bytes} {phase : LoopPhase}
      (h : loop.phase.ending = true) (hphase : phase.ending = true) :
      Moves (loop, recorded) (loop.setPhase phase, recorded)

namespace ForwardLoop

/-- A chunk that is read and not recorded yet. -/
def unrecorded (loop : ForwardLoop) : List Bytes :=
  match loop.phase with
  | .recording chunk => [chunk]
  | _ => []

/-- The bytes that are recorded and not written: a chunk in hand, or what a failed write left. -/
def unsent (loop : ForwardLoop) : Bytes :=
  match loop.phase with
  | .observing event => event.payload
  | .writing payload => payload
  | _ => (loop.ended.map EndCause.unsent).getD []

/-- The direction has forwarded the chunks that were recorded. -/
structure Forwards (sent : List Bytes) (loop : ForwardLoop) (recorded : List Bytes) : Prop where
  read : recorded ++ loop.unrecorded ++ loop.incoming = sent
  written : recorded.flatten = loop.forwarded ++ loop.unsent
  ended : loop.ended.isSome = loop.phase.ending
  unsent : loop.unsent ≠ [] → ∃ last dropped, recorded.getLast? = some last ∧
    loop.unsent = last.drop dropped
  endOfFile : loop.ended = some .endOfFile → loop.incoming = []

variable {loop : ForwardLoop} {sent recorded : List Bytes}

/-- In front of the end of the loop there is no cause of an end. -/
theorem Forwards.ended_eq_none (h : Forwards sent loop recorded)
    (hphase : loop.phase.ending = false) :
    loop.ended = none := by
  have hended := h.ended
  rw [hphase] at hended
  exact Option.isNone_iff_eq_none.1 (Option.isSome_eq_false_iff.1 hended)

theorem Forwards.leave (h : Forwards sent loop recorded)
    (hphase : loop.phase = .test ∨ loop.phase = .reading)
    {cause : EndCause} (hcause : ∀ rest, cause ≠ .writeError rest)
    (heof : cause = .endOfFile → loop.incoming = []) :
    Forwards sent (loop.leave cause) recorded := by
  have hnone : loop.ended = none := by
    apply h.ended_eq_none
    rcases hphase with hphase | hphase <;> rw [hphase] <;> rfl
  have hunsent : (loop.leave cause).unsent = [] := by
    cases cause with
    | writeError rest => exact absurd rfl (hcause rest)
    | _ => rfl
  obtain ⟨phase, incoming, forwarded, ended⟩ := loop
  simp only at hphase hnone heof
  subst hnone
  refine ⟨?_, ?_, rfl, fun hne => absurd hunsent hne, fun hend => heof (Option.some.inj hend)⟩
  · rcases hphase with rfl | rfl <;> exact h.read
  · rw [hunsent]
    rcases hphase with rfl | rfl <;> exact h.written

/-- The chunk that was read is what is recorded next. -/
theorem Forwards.record (h : Forwards sent loop recorded) {event : PacketEvent}
    (hphase : loop.phase = .recording event.payload) :
    Forwards sent (loop.setPhase (.observing event)) (recorded ++ [event.payload]) := by
  have hnone := h.ended_eq_none
  obtain ⟨phase, incoming, forwarded, ended⟩ := loop
  cases hphase
  cases hnone rfl
  have hwritten : recorded.flatten = forwarded ++ [] := h.written
  rw [List.append_nil] at hwritten
  refine ⟨?_, ?_, rfl, fun _ => ⟨event.payload, 0, List.getLast?_concat, rfl⟩,
    fun hend => absurd hend.symm (Option.some_ne_none _)⟩
  · change recorded ++ [event.payload] ++ [] ++ incoming = sent
    rw [List.append_nil]
    exact h.read
  · change (recorded ++ [event.payload]).flatten = forwarded ++ event.payload
    rw [List.flatten_append, hwritten, List.flatten_singleton]

/-- A write that fails leaves the end of its chunk. -/
theorem Forwards.write (h : Forwards sent loop recorded) {payload : Bytes}
    (hphase : loop.phase = .writing payload) (failedAfter : Option ℕ) :
    Forwards sent (loop.write payload failedAfter) recorded := by
  have hnone := h.ended_eq_none
  obtain ⟨phase, incoming, forwarded, ended⟩ := loop
  cases hphase
  cases hnone rfl
  have hwritten : recorded.flatten = forwarded ++ payload := h.written
  cases failedAfter with
  | none =>
    refine ⟨h.read, ?_, rfl, fun hne => absurd rfl hne,
      fun hend => absurd hend.symm (Option.some_ne_none _)⟩
    change recorded.flatten = forwarded ++ payload ++ []
    rw [List.append_nil]
    exact hwritten
  | some sent =>
    refine ⟨h.read, ?_, rfl, fun hne => ?_, fun hend => EndCause.noConfusion (Option.some.inj hend)⟩
    · change recorded.flatten = forwarded ++ payload.take sent ++ payload.drop sent
      rw [List.append_assoc, List.take_append_drop]
      exact hwritten
    · have hpayload : payload ≠ [] := by
        rintro rfl
        exact hne List.drop_nil
      obtain ⟨last, dropped, hlast, hrest⟩ := h.unsent hpayload
      change payload = last.drop dropped at hrest
      refine ⟨last, dropped + sent, hlast, ?_⟩
      change payload.drop sent = last.drop (dropped + sent)
      rw [hrest, List.drop_drop]

/-- At the end of the loop, nothing is in hand but what a failed write left. -/
theorem inHand_of_ending (hending : loop.phase.ending = true) :
    loop.unrecorded = [] ∧ loop.unsent = (loop.ended.map EndCause.unsent).getD [] := by
  obtain ⟨phase, incoming, forwarded, ended⟩ := loop
  cases phase <;> first | exact ⟨rfl, rfl⟩ | cases hending

theorem Forwards.wind (h : Forwards sent loop recorded) {phase : LoopPhase}
    (hphase : loop.phase.ending = true)
    (hnext : phase.ending = true) : Forwards sent (loop.setPhase phase) recorded := by
  obtain ⟨hread, hleft⟩ := inHand_of_ending hphase
  obtain ⟨hread', hleft'⟩ := @inHand_of_ending (loop.setPhase phase) hnext
  have hunrecorded : (loop.setPhase phase).unrecorded = loop.unrecorded := hread'.trans hread.symm
  have hunsent : (loop.setPhase phase).unsent = loop.unsent := hleft'.trans hleft.symm
  refine ⟨?_, ?_, h.ended.trans (hphase.trans hnext.symm), ?_, h.endOfFile⟩
  · rw [hunrecorded]
    exact h.read
  · rw [hunsent]
    exact h.written
  · rw [hunsent]
    exact h.unsent

theorem Forwards.moves (h : Forwards sent loop recorded) {next : ForwardLoop × List Bytes}
    (hmoves : Moves (loop, recorded) next) : Forwards sent next.1 next.2 := by
  have hnone := h.ended_eq_none
  cases hmoves with
  | record hphase => exact h.record hphase
  | write hphase failedAfter => exact h.write hphase failedAfter
  | wind hphase hnext => exact h.wind hphase hnext
  | keep => exact h
  | create hphase =>
    obtain ⟨phase, incoming, forwarded, ended⟩ := loop
    cases hphase
    cases hnone rfl
    exact ⟨h.read, h.written, rfl, h.unsent, h.endOfFile⟩
  | observe hphase =>
    obtain ⟨phase, incoming, forwarded, ended⟩ := loop
    cases hphase
    cases hnone rfl
    exact ⟨h.read, h.written, rfl, h.unsent, h.endOfFile⟩
  | test hphase stopped =>
    obtain ⟨phase, incoming, forwarded, ended⟩ := loop
    cases hphase
    cases hnone rfl
    cases stopped with
    | true => exact h.leave (.inl rfl) (fun _ => EndCause.noConfusion) EndCause.noConfusion
    | false => exact ⟨h.read, h.written, rfl, h.unsent, h.endOfFile⟩
  | read hphase fails =>
    obtain ⟨phase, incoming, forwarded, ended⟩ := loop
    cases hphase
    cases hnone rfl
    cases fails with
    | true => exact h.leave (.inr rfl) (fun _ => EndCause.noConfusion) EndCause.noConfusion
    | false =>
      cases incoming with
      | nil => exact h.leave (.inr rfl) (fun _ => EndCause.noConfusion) fun _ => rfl
      | cons chunk incoming =>
        refine ⟨?_, h.written, rfl, h.unsent, fun hend => absurd hend.symm (Option.some_ne_none _)⟩
        have hread : recorded ++ [] ++ chunk :: incoming = sent := h.read
        rw [List.append_nil] at hread
        change recorded ++ [chunk] ++ incoming = sent
        rw [List.append_assoc]
        exact hread

/-- Behind the loop, nothing is in hand but what a failed write left. -/
theorem Forwards.of_ended (h : Forwards sent loop recorded) {cause : EndCause}
    (hcause : loop.ended = some cause) :
    loop.unrecorded = [] ∧ loop.unsent = cause.unsent := by
  have hending : loop.phase.ending = true := by
    rw [← h.ended, hcause]
    rfl
  have hmissing := inHand_of_ending hending
  rw [hcause] at hmissing
  exact hmissing

/-- What was written is a prefix of what was sent, and at the end of the file all of it. -/
theorem Forwards.isPrefix (h : Forwards sent loop recorded) : loop.forwarded <+: sent.flatten := by
  rw [← h.read, List.flatten_append, List.flatten_append, h.written, List.append_assoc,
    List.append_assoc]
  exact List.prefix_append _ _

theorem Forwards.of_endOfFile (h : Forwards sent loop recorded)
    (heof : loop.ended = some .endOfFile) :
    loop.forwarded = sent.flatten := by
  obtain ⟨hunrecorded, hunsent⟩ := h.of_ended heof
  have hwritten := h.written
  rw [hunsent] at hwritten
  rw [← h.read, hunrecorded, h.endOfFile heof, List.append_nil, List.append_nil, hwritten]
  exact (List.append_nil _).symm

end ForwardLoop

/-! ### The session -/

/-- The payloads of the RawBytes events of a direction. -/
def recorded (thread : Forwarder) (log : List PacketEvent) : List Bytes :=
  (log.filter fun e => e.type = .rawBytes ∧ e.direction = thread.direction).map PacketEvent.payload

/-- The accept thread has not created this thread. -/
def AcceptPhase.before (thread : Forwarder) : AcceptPhase → Bool
  | .accepting | .resolving | .connecting | .publishing | .announcing => true
  | .creating next => next = .appToDevice ∨ next = thread
  | _ => false

theorem recorded_append_other {e : PacketEvent} (h : e.type ≠ .rawBytes) (thread : Forwarder)
    (log : List PacketEvent) : recorded thread (log ++ [e]) = recorded thread log := by
  have hlast : [e].filter (fun e => e.type = .rawBytes ∧ e.direction = thread.direction) = [] :=
    List.filter_cons_of_neg fun heq => h (of_decide_eq_true heq).1
  rw [recorded, List.filter_append, hlast, List.append_nil]
  rfl

theorem direction_inj {thread other : Forwarder} (h : thread.direction = other.direction) :
    thread = other := by
  cases thread <;> cases other <;> first | rfl | cases h

namespace TcpProxyCaptureSession

variable {s t s₀ : TcpProxyCaptureSession} {thread other : Forwarder} {acts : List ProxyAction}
  {a : ProxyAction}

theorem recorded_emit {type : EventType} (h : type ≠ .rawBytes) (thread : Forwarder) (stamp : Stamp)
    (direction : Direction) (source destination summary : ByteString) :
    recorded thread (s.emit stamp direction type source destination summary).log =
      recorded thread s.log :=
  recorded_append_other h thread s.log

theorem recorded_raw (thread other : Forwarder) (stamp : Stamp) (chunk : Bytes) :
    recorded other
      (s.log ++ [(s.forwarding stamp.sequence).rawEvent thread chunk stamp.timestampNs]) =
      if other = thread then recorded other s.log ++ [chunk] else recorded other s.log := by
  unfold recorded
  rw [List.filter_append, List.map_append]
  split
  · rename_i hsame
    subst hsame
    have hlast : ∀ e : PacketEvent, e.type = .rawBytes → e.direction = other.direction →
        [e].filter (fun e => e.type = .rawBytes ∧ e.direction = other.direction) = [e] :=
      fun e htype hdirection => List.filter_cons_of_pos (decide_eq_true ⟨htype, hdirection⟩)
    rw [hlast _ rfl rfl]
    rfl
  · rename_i hother
    have hlast : ∀ e : PacketEvent, e.direction = thread.direction →
        [e].filter (fun e => e.type = .rawBytes ∧ e.direction = other.direction) = [] := by
      intro e hdirection
      apply List.filter_cons_of_neg
      intro heq
      exact hother (direction_inj ((of_decide_eq_true heq).2.symm.trans hdirection))
    rw [hlast _ rfl, List.map_nil, List.append_nil]

/-- Observing adds no RawBytes event. -/
theorem recorded_observe (thread : Forwarder) (sequence : UInt64) (event : PacketEvent) :
    recorded thread ((s.forwarding sequence).observeLatency event).log = recorded thread s.log := by
  unfold TcpProxyForwarding.observeLatency
  split
  · rfl
  · split
    · rfl
    · exact recorded_append_other EventType.noConfusion thread s.log

/-- A thread that the accept thread has not come to is absent. -/
def SetUp (s : TcpProxyCaptureSession) : Prop :=
  ∀ thread, s.accept.before thread = true → (s.loops thread).phase = .absent

/-- What can be seen of a direction. -/
def direction (s : TcpProxyCaptureSession) (thread : Forwarder) : ForwardLoop × List Bytes :=
  (s.loops thread, recorded thread s.log)

theorem moves_of_eq (hloop : t.loops thread = s.loops thread)
    (hlog : recorded thread t.log = recorded thread s.log) :
    Moves (s.direction thread) (t.direction thread) := by
  unfold direction
  rw [hloop, hlog]
  exact .keep _ _

/-- A thread's step moves its own direction and leaves the other alone. -/
theorem moves_setLoop {loop : ForwardLoop} {log : List Bytes}
    (hmoves : Moves (s.direction thread) (loop, log))
    (hloops : t.loops = (s.setLoop thread loop).loops) (hlog : recorded thread t.log = log)
    (hothers : ∀ other, other ≠ thread → recorded other t.log = recorded other s.log)
    (other : Forwarder) :
    Moves (s.direction other) (t.direction other) := by
  by_cases hother : other = thread
  · subst hother
    unfold direction
    rw [hloops, loops_setLoop, if_pos rfl, hlog]
    exact hmoves
  · apply moves_of_eq
    · rw [hloops, loops_setLoop, if_neg hother]
    · exact hothers other hother

theorem moves_accept {action : AcceptAction} (h : s.SetUp) (hstep : s.performAccept action = some t)
    (other : Forwarder) : Moves (s.direction other) (t.direction other) := by
  cases accepts_of_performAccept hstep with
  | create hphase =>
    rename_i thread
    have habsent : (s.loops thread).phase = .absent := by
      apply h
      rw [hphase]
      exact decide_eq_true (.inr rfl)
    exact moves_setLoop (.create habsent) rfl rfl (fun _ _ => rfl) other
  | announce hphase stamp | report hphase stamp =>
    exact moves_of_eq rfl (recorded_emit EventType.noConfusion other stamp _ _ _ _)
  | _ => exact moves_of_eq rfl rfl

theorem moves_forward {action : LoopAction} (hstep : s.performLoop thread action = some t)
    (other : Forwarder) :
    Moves (s.direction other) (t.direction other) := by
  have hfinished : ∀ wasStopped, (s.loops thread).phase = .announcing wasStopped →
      Moves (s.direction thread) ((s.loops thread).setPhase .finished, recorded thread s.log) := by
    intro wasStopped hphase
    apply Moves.wind
    · rw [hphase]
      rfl
    · rfl
  cases forwarded_of_performLoop hstep with
  | test hphase => exact moves_setLoop (.test hphase _) rfl rfl (fun _ _ => rfl) other
  | read hphase fails => exact moves_setLoop (.read hphase _) rfl rfl (fun _ _ => rfl) other
  | record hphase stamp =>
    rename_i chunk
    have hchunk : (s.loops thread).phase =
        .recording
          ((s.forwarding stamp.sequence).rawEvent thread chunk stamp.timestampNs).payload := hphase
    refine moves_setLoop (.record hchunk) ?_ ?_ ?_ other
    · rfl
    · exact (recorded_raw thread thread stamp chunk).trans (if_pos rfl)
    · intro other hother
      exact (recorded_raw thread other stamp chunk).trans (if_neg hother)
  | observe hphase sequence =>
    rename_i event
    refine moves_setLoop (.observe hphase) ?_ ?_ ?_ other
    · rfl
    · exact recorded_observe thread sequence event
    · exact fun other _ => recorded_observe other sequence event
  | write hphase failedAfter =>
    exact moves_setLoop (.write hphase failedAfter) rfl rfl (fun _ _ => rfl) other
  | leave hphase =>
    exact moves_setLoop (.wind (by rw [hphase]; rfl) rfl) rfl rfl (fun _ _ => rfl) other
  | close hphase =>
    exact moves_setLoop (.wind (by rw [hphase]; rfl) rfl) rfl rfl (fun _ _ => rfl) other
  | finish hphase stamp => exact moves_setLoop (hfinished _ hphase) rfl rfl (fun _ _ => rfl) other
  | announce hphase stamp =>
    have hemit : ∀ other source destination,
        recorded other
          ((s.setLoop thread ((s.loops thread).setPhase .finished)).emit stamp .deviceToApp
          .stateChange source destination (ascii "proxy stopped")).log = recorded other s.log :=
      fun other source destination => recorded_emit EventType.noConfusion other stamp _ _ _ _
    refine moves_setLoop (hfinished _ hphase) ?_ ?_ ?_ other
    · rfl
    · exact hemit thread _ _
    · exact fun other _ => hemit other _ _

theorem moves_stop {action : StopAction} (hstep : s.performStop action = some t)
    (other : Forwarder) :
    Moves (s.direction other) (t.direction other) := by
  cases stops_of_performStop hstep with
  | join hphase hfinished =>
    exact moves_setLoop (.wind (by rw [hfinished]; rfl) rfl) rfl rfl (fun _ _ => rfl) other
  | announce hphase stamp =>
    exact moves_of_eq rfl (recorded_emit EventType.noConfusion other stamp _ _ _ _)
  | _ => exact moves_of_eq rfl rfl

/-- What a step does to a direction. -/
theorem moves_of_step (h : s.SetUp) (hstep : Step s a t) (other : Forwarder) :
    Moves (s.direction other) (t.direction other) := by
  cases a with
  | accept action => exact moves_accept h hstep other
  | forward thread action => exact moves_forward hstep other
  | stop action => exact moves_stop hstep other

/-- A thread that does not exist takes no step. -/
theorem performLoop_absent (h : (s.loops thread).phase = .absent) (action : LoopAction) :
    s.performLoop thread action = none := by
  cases action <;> simp only [performLoop, h, reduceCtorEq, if_false]

/-- The accept thread only comes closer to creating a thread. -/
theorem SetUp.accept {action : AcceptAction} (h : s.SetUp)
    (hstep : s.performAccept action = some t) :
    t.SetUp := by
  have hkeep :
    t.loops = s.loops → (∀ thread, t.accept.before thread = true → s.accept.before thread = true) →
      t.SetUp := by
    intro hloops hbefore thread hthread
    rw [hloops]
    exact h thread (hbefore thread hthread)
  cases accepts_of_performAccept hstep with
  | accept hphase | resolve hphase | connect hphase | publish hphase | announce hphase =>
    apply hkeep rfl
    intro thread _
    rw [hphase]
    rfl
  | create hphase =>
    rename_i next
    intro thread hthread
    cases next with
    | deviceToApp => cases hthread
    | appToDevice =>
      cases thread with
      | appToDevice => cases hthread
      | deviceToApp =>
        have habsent : (s.loops .deviceToApp).phase = .absent := by
          apply h
          rw [hphase]
          rfl
        exact habsent
  | throws | report | giveUp =>
    apply hkeep rfl
    intro thread hthread
    cases hthread
  | check =>
    apply hkeep rfl
    intro thread hthread
    simp only at hthread
    split at hthread <;> cases hthread

theorem SetUp.forward {action : LoopAction} (h : s.SetUp)
    (hstep : s.performLoop thread action = some t) :
    t.SetUp := by
  obtain ⟨haccept, -, -, hothers⟩ := performLoop_frame hstep
  intro other hother
  rw [haccept] at hother
  have habsent := h other hother
  by_cases hthread : other = thread
  · subst hthread
    rw [performLoop_absent habsent] at hstep
    cases hstep
  · rw [hothers other hthread]
    exact habsent

theorem SetUp.stop {action : StopAction} (h : s.SetUp) (hstep : s.performStop action = some t) :
    t.SetUp := by
  cases stops_of_performStop hstep with
  | join hphase hfinished =>
    rename_i joined wasStopped
    intro thread hthread
    have habsent := h thread hthread
    have hother : thread ≠ joined := by
      rintro rfl
      rw [hfinished] at habsent
      cases habsent
    change ((s.setLoop joined _).loops thread).phase = .absent
    rw [loops_setLoop, if_neg hother]
    exact habsent
  | joinAccept =>
    intro thread hthread
    cases hthread
  | _ => exact h

theorem SetUp.step (h : s.SetUp) (hstep : Step s a t) : t.SetUp := by
  cases a with
  | accept action => exact h.accept hstep
  | forward thread action => exact h.forward hstep
  | stop action => exact h.stop hstep

variable {config : TcpProxyConfig} {stamp : Stamp} {incoming : Forwarder → List Bytes}

theorem setUp_started (config : TcpProxyConfig) (stamp : Stamp)
    (incoming : Forwarder → List Bytes) :
    (started config stamp incoming).SetUp := fun _ _ => rfl

/-- In every state that is reached, each direction has forwarded what was recorded. -/
theorem forwards_of_run (hrun : Run Step (started config stamp incoming) acts s) :
    s.SetUp ∧ ∀ thread,
      ForwardLoop.Forwards (incoming thread) (s.loops thread) (recorded thread s.log) := by
  refine hrun.invariant (I := fun s => s.SetUp ∧ ∀ thread, ForwardLoop.Forwards (incoming thread)
    (s.loops thread) (recorded thread s.log)) ?_ ⟨setUp_started config stamp incoming, ?_⟩
  · rintro s a t ⟨hsetUp, hforwards⟩ hstep
    exact ⟨hsetUp.step hstep,
      fun thread => (hforwards thread).moves (moves_of_step hsetUp hstep thread)⟩
  · intro thread
    exact ⟨rfl, rfl, rfl, fun hne => absurd rfl hne,
      fun hend => absurd hend.symm (Option.some_ne_none _)⟩

/-- The log of the proxy matches what it forwards, in every state: the payloads recorded are the
chunks that were read, but for one that is about to be recorded, and what was written is all of
them but for the payload in hand. A loop that has ended has written everything, unless it ended
because a write failed, and then the rest of the last payload is missing. -/
theorem recorded_matches_forwarded (hrun : Run Step (started config stamp incoming) acts s)
    (thread : Forwarder) :
    recorded thread s.log ++ (s.loops thread).unrecorded ++ (s.loops thread).incoming =
      incoming thread ∧
    (recorded thread s.log).flatten = (s.loops thread).forwarded ++ (s.loops thread).unsent ∧
    ((s.loops thread).unsent ≠ [] →
      ∃ last sent, (recorded thread s.log).getLast? = some last ∧
        (s.loops thread).unsent = last.drop sent) ∧
    ∀ cause, (s.loops thread).ended = some cause →
      (s.loops thread).unrecorded = [] ∧ (s.loops thread).unsent = cause.unsent := by
  have hforwards := (forwards_of_run hrun).2 thread
  exact ⟨hforwards.read, hforwards.written, hforwards.unsent, fun cause => hforwards.of_ended⟩

/-- A connection over which the app sends two chunks; the device closes while the second one is
written. -/
def brokenWrite : List ProxyAction :=
  [.accept (.accept none), .accept (.resolve none (ascii "127.0.0.1:5000")),
    .accept (.connect none (ascii "127.0.0.1:5000")),
    .accept (.publish (ascii "127.0.0.1:5000") (ascii "127.0.0.1:9002")),
    .accept (.announce ⟨2, 20⟩), .accept (.create .appToDevice), .forward .appToDevice .test,
    .forward .appToDevice (.read false), .forward .appToDevice (.record ⟨3, 30⟩),
    .forward .appToDevice (.observe 4), .forward .appToDevice (.write none),
    .accept (.create .deviceToApp), .forward .appToDevice .test,
    .forward .appToDevice (.read false), .forward .appToDevice (.record ⟨4, 40⟩),
    .forward .appToDevice (.observe 5), .forward .appToDevice (.write (some 1)),
    .forward .appToDevice .leave]

def twoChunks : Forwarder → List Bytes
  | .appToDevice => [[1], [2, 3]]
  | .deviceToApp => []

theorem recorded_matches_forwarded_of_broken_write :
    ∃ s : TcpProxyCaptureSession, (recorded .appToDevice s.log).flatten =
      (s.loops .appToDevice).forwarded ++ [3] ∧
      recorded .appToDevice s.log ++ (s.loops .appToDevice).incoming = [[1], [2, 3]] := by
  obtain ⟨s, hrun, hended⟩ := Run.exists_of_foldlM
    (P := fun s : TcpProxyCaptureSession => (s.loops .appToDevice).ended = some (.writeError [3]))
    (show ((brokenWrite.foldlM perform
      (started TcpProxyForwarding.proxied.config ⟨1, 10⟩ twoChunks)).any _) = true by
        decide +kernel)
  obtain ⟨hread, hwritten, -, hcause⟩ := recorded_matches_forwarded hrun .appToDevice
  obtain ⟨hunrecorded, hunsent⟩ := hcause _ hended
  rw [hunsent] at hwritten
  rw [hunrecorded, List.append_nil] at hread
  exact ⟨s, hwritten, hread⟩

end TcpProxyCaptureSession

end PacketProbe
