import PacketProbe.ProxyRecording

/-!
# Stopping the proxy

`stop` joins the forwarding threads that are joinable when it examines them, and only then the
accept thread, which creates them. A thread that is created in between is left behind; it finds
the flag set and emits nothing.
-/

namespace PacketProbe
open TransitionRuns

/-- `stop` has examined the thread. -/
def StopPhase.passed (thread : Forwarder) : StopPhase → Bool
  | .idle | .closing _ => false
  | .joining next _ => thread = .appToDevice ∧ next = .deviceToApp
  | .joiningAccept _ | .announcing _ | .returned => true

/-- `stop` has joined the accept thread. -/
def StopPhase.acceptJoined : StopPhase → Bool
  | .announcing _ | .returned => true
  | _ => false

/-- A thread that emits nothing once the session is stopped. -/
def LoopPhase.mute : LoopPhase → Bool
  | .absent | .test | .leaving | .closing true | .announcing true | .finished | .joined => true
  | _ => false

theorem LoopPhase.mute_of_joinable {phase : LoopPhase} (h : phase.joinable = false) :
    phase.mute = true := by
  cases phase <;> first | rfl | cases h

theorem StopPhase.passed_afterJoin {thread joined : Forwarder} {wasStopped : Bool}
    (h : (StopPhase.afterJoin wasStopped joined).passed thread = true) :
    thread = joined ∨ (StopPhase.joining joined wasStopped).passed thread = true := by
  cases joined <;> cases thread <;> first | exact .inl rfl | exact .inr rfl | cases h

namespace TcpProxyCaptureSession

/-- A thread is created before `stop` has examined it. -/
def onTime (s : TcpProxyCaptureSession) : ProxyAction → Bool
  | .accept (.create thread) => !s.stop.passed thread
  | _ => true

variable {s t : TcpProxyCaptureSession} {thread other : Forwarder} {acts : List ProxyAction}
  {a : ProxyAction}

/-- A step of the accept thread creates one thread or none. -/
theorem performAccept_frame {action : AcceptAction} (h : s.performAccept action = some t) :
    t.stop = s.stop ∧ (s.stopped = true → t.stopped = true) ∧ s.accept ≠ .joined ∧
      (t.loops = s.loops ∨
        ∃ thread, action = .create thread ∧
          t.loops = (s.setLoop thread ((s.loops thread).setPhase .test)).loops) := by
  have hphase : ∀ phase : AcceptPhase, s.accept = phase → phase ≠ .joined → s.accept ≠ .joined := by
    rintro phase rfl hne
    exact hne
  cases accepts_of_performAccept h with
  | create hphase' => exact ⟨rfl, id, hphase _ hphase' AcceptPhase.noConfusion, .inr ⟨_, rfl, rfl⟩⟩
  | giveUp hphase' => exact ⟨rfl, fun _ => rfl, hphase _ hphase' AcceptPhase.noConfusion, .inl rfl⟩
  | throws hthrow =>
    refine ⟨rfl, id, fun hjoined => ?_, .inl rfl⟩
    rw [hjoined] at hthrow
    cases hthrow
  | accept hphase' | resolve hphase' | connect hphase' | publish hphase' | announce hphase'
  | check hphase' | report hphase' =>
    exact ⟨rfl, id, hphase _ hphase' AcceptPhase.noConfusion, .inl rfl⟩

theorem loops_create (h : s.performAccept (.create thread) = some t) :
    t.loops = (s.setLoop thread ((s.loops thread).setPhase .test)).loops := by
  cases accepts_of_performAccept h
  rfl

/-- A forwarding thread takes steps only while it is joinable, and it stays so. Once the session
is stopped, a thread that is not in the middle of a chunk emits nothing. -/
theorem performLoop_phase {action : LoopAction} (h : s.performLoop thread action = some t) :
    (s.loops thread).phase.joinable = true ∧ (t.loops thread).phase.joinable = true ∧
      (s.stopped = true → (s.loops thread).phase.mute = true →
        (t.loops thread).phase.mute = true ∧ t.log = s.log) := by
  have hself : ∀ loop, (s.setLoop thread loop).loops thread = loop := by
    intro loop
    rw [loops_setLoop, if_pos rfl]
  -- the phases in front of the step and behind it
  have hphases : ∀ {before after : LoopPhase}, (s.loops thread).phase = before →
      (t.loops thread).phase = after → before.joinable = true → after.joinable = true →
      (s.stopped = true → before.mute = true → after.mute = true ∧ t.log = s.log) →
      (s.loops thread).phase.joinable = true ∧ (t.loops thread).phase.joinable = true ∧
        (s.stopped = true → (s.loops thread).phase.mute = true →
          (t.loops thread).phase.mute = true ∧ t.log = s.log) := by
    rintro before after rfl rfl hbefore hafter hmute
    exact ⟨hbefore, hafter, hmute⟩
  cases forwarded_of_performLoop h with
  | test hphase =>
    refine hphases hphase (congrArg ForwardLoop.phase (hself _)) rfl ?_ fun hstopped _ => ⟨?_, rfl⟩
    · cases s.stopped <;> rfl
    · rw [hstopped]
      rfl
  | read hphase fails =>
    refine hphases hphase (congrArg ForwardLoop.phase (hself _)) rfl ?_ fun _ hmute => by
      cases hmute
    unfold ForwardLoop.read
    split
    · rfl
    · split <;> rfl
  | record hphase stamp =>
    exact hphases hphase (congrArg ForwardLoop.phase (hself _)) rfl rfl fun _ hmute => by
      cases hmute
  | observe hphase sequence =>
    exact hphases hphase (congrArg ForwardLoop.phase (hself _)) rfl rfl fun _ hmute => by
      cases hmute
  | write hphase failedAfter =>
    refine hphases hphase (congrArg ForwardLoop.phase (hself _)) rfl ?_ fun _ hmute => by
      cases hmute
    cases failedAfter <;> rfl
  | leave hphase =>
    refine hphases hphase (congrArg ForwardLoop.phase (hself _)) rfl rfl fun hstopped _ => ⟨?_, rfl⟩
    rw [hstopped]
    rfl
  | close hphase =>
    rename_i wasStopped
    refine hphases hphase (congrArg ForwardLoop.phase (hself _)) rfl rfl fun _ hmute => ⟨?_, rfl⟩
    cases wasStopped with
    | true => rfl
    | false => cases hmute
  | finish hphase stamp =>
    exact hphases hphase (congrArg ForwardLoop.phase (hself _)) rfl rfl fun _ _ => ⟨rfl, rfl⟩
  | announce hphase stamp =>
    exact hphases hphase (congrArg ForwardLoop.phase (hself _)) rfl rfl fun _ hmute => by
      cases hmute

/-- `stop` goes past a thread when it is not joinable, or joined by that step. -/
theorem performStop_frame {action : StopAction} (h : s.performStop action = some t) :
    s.stop ≠ .returned ∧
      (s.stop = .idle ∧ t.stopped = true ∨ s.stop ≠ .idle ∧ t.stopped = s.stopped) ∧
      (t.stop.acceptJoined = true → t.accept = .joined ∨ s.stop.acceptJoined = true ∧
        t.accept = s.accept) ∧
      (∀ thread, s.stop.passed thread = true → t.stop.passed thread = true ∧
        t.loops thread = s.loops thread) ∧
      ∀ thread, t.stop.passed thread = true →
        s.stop.passed thread = true ∨ (t.loops thread).phase.joinable = false := by
  have hpassed : ∀ {joined thread : Forwarder} {wasStopped : Bool},
      (StopPhase.joining joined wasStopped).passed thread = true →
        thread ≠ joined ∧ (StopPhase.afterJoin wasStopped joined).passed thread = true := by
    intro joined thread wasStopped hthread
    cases joined <;> cases thread <;> first | exact ⟨Forwarder.noConfusion, rfl⟩ | cases hthread
  have hearly : ∀ {joined : Forwarder} {wasStopped : Bool},
      (StopPhase.afterJoin wasStopped joined).acceptJoined = true → False := by
    intro joined wasStopped hjoined
    cases joined <;> cases hjoined
  cases stops_of_performStop h with
  | exchange hphase =>
    rw [hphase]
    exact ⟨StopPhase.noConfusion, .inl ⟨rfl, rfl⟩, nofun, nofun, nofun⟩
  | close hphase =>
    rw [hphase]
    refine ⟨StopPhase.noConfusion, .inr ⟨StopPhase.noConfusion, rfl⟩, nofun, nofun,
      fun thread hthread => ?_⟩
    cases thread <;> cases hthread
  | pass hphase hjoinable =>
    rw [hphase]
    refine ⟨StopPhase.noConfusion, .inr ⟨StopPhase.noConfusion, rfl⟩,
      fun hjoined => (hearly hjoined).elim, ?_, ?_⟩
    · exact fun thread hthread => ⟨(hpassed hthread).2, rfl⟩
    · intro thread hthread
      rcases StopPhase.passed_afterJoin hthread with rfl | hbefore
      · exact .inr hjoinable
      · exact .inl hbefore
  | join hphase hfinished =>
    rename_i joined wasStopped
    rw [hphase]
    refine ⟨StopPhase.noConfusion, .inr ⟨StopPhase.noConfusion, rfl⟩,
      fun hjoined => (hearly hjoined).elim, ?_, ?_⟩
    · intro thread hthread
      obtain ⟨hother, hafter⟩ := hpassed hthread
      refine ⟨hafter, ?_⟩
      change (s.setLoop joined _).loops thread = s.loops thread
      rw [loops_setLoop, if_neg hother]
    · intro thread hthread
      rcases StopPhase.passed_afterJoin hthread with rfl | hbefore
      · refine .inr ?_
        change ((s.setLoop thread _).loops thread).phase.joinable = false
        rw [loops_setLoop, if_pos rfl]
        rfl
      · exact .inl hbefore
  | joinAccept hphase hexited =>
    rw [hphase]
    exact ⟨StopPhase.noConfusion, .inr ⟨StopPhase.noConfusion, rfl⟩, fun _ => .inl rfl,
      fun _ _ => ⟨rfl, rfl⟩, fun _ _ => .inl rfl⟩
  | finish hphase | announce hphase =>
    rw [hphase]
    exact ⟨StopPhase.noConfusion, .inr ⟨StopPhase.noConfusion, rfl⟩,
      fun _ => .inr ⟨rfl, rfl⟩, fun _ _ => ⟨rfl, rfl⟩, fun _ _ => .inl rfl⟩

/-! ### Runs -/

/-- What holds of a session that is being stopped. -/
structure Stopping (s : TcpProxyCaptureSession) : Prop where
  stopped : s.stop ≠ .idle → s.stopped = true
  mute : ∀ thread, s.stop.passed thread = true → (s.loops thread).phase.mute = true
  accept : s.stop.acceptJoined = true → s.accept = .joined

theorem stopped_of_passed (h : s.Stopping) (hpassed : s.stop.passed thread = true) :
    s.stopped = true := by
  apply h.stopped
  intro hidle
  rw [hidle] at hpassed
  cases hpassed

theorem Stopping.step (h : s.Stopping) (hstep : Step s a t) : t.Stopping := by
  cases a with
  | accept action =>
    obtain ⟨hstop, hstopped, haccept, hloops⟩ := performAccept_frame hstep
    refine ⟨fun hidle => hstopped (h.stopped (hstop ▸ hidle)), fun thread hpassed => ?_,
      fun hjoined => ?_⟩
    · rw [hstop] at hpassed
      rcases hloops with hloops | ⟨created, -, hloops⟩
      · rw [hloops]
        exact h.mute thread hpassed
      · rw [hloops, loops_setLoop]
        split
        · rfl
        · exact h.mute thread hpassed
    · rw [hstop] at hjoined
      exact absurd (h.accept hjoined) haccept
  | forward mover action =>
    obtain ⟨haccept, hstop, hstopped, hothers⟩ := performLoop_frame hstep
    refine ⟨fun hidle => hstopped (h.stopped (hstop ▸ hidle)), fun thread hpassed => ?_,
      fun hjoined => ?_⟩
    · rw [hstop] at hpassed
      by_cases hthread : thread = mover
      · subst hthread
        exact ((performLoop_phase hstep).2.2 (stopped_of_passed h hpassed)
          (h.mute thread hpassed)).1
      · rw [hothers thread hthread]
        exact h.mute thread hpassed
    · rw [haccept]
      exact h.accept (hstop ▸ hjoined)
  | stop action =>
    obtain ⟨-, hflag, haccept, hkeep, hpassed⟩ := performStop_frame hstep
    refine ⟨fun _ => ?_, fun thread hthread => ?_, fun hjoined => ?_⟩
    · rcases hflag with ⟨-, hflag⟩ | ⟨hidle, hflag⟩
      · exact hflag
      · rw [hflag]
        exact h.stopped hidle
    · rcases hpassed thread hthread with hbefore | hjoinable
      · rw [(hkeep thread hbefore).2]
        exact h.mute thread hbefore
      · exact LoopPhase.mute_of_joinable hjoinable
    · rcases haccept hjoined with haccept | ⟨hbefore, haccept⟩
      · exact haccept
      · rw [haccept]
        exact h.accept hbefore

/-- Once `stop` has returned, a step emits nothing. -/
theorem Stopping.silent (h : s.Stopping) (hreturned : s.stop = .returned) (hstep : Step s a t) :
    t.stop = .returned ∧ t.log = s.log := by
  cases a with
  | accept action =>
    have hjoined := h.accept (by rw [hreturned]; rfl)
    exact absurd hjoined (performAccept_frame hstep).2.2.1
  | forward thread action =>
    have hpassed : s.stop.passed thread = true := by
      rw [hreturned]
      rfl
    obtain ⟨-, hstop, -⟩ := performLoop_frame hstep
    exact ⟨hstop.trans hreturned,
      ((performLoop_phase hstep).2.2 (stopped_of_passed h hpassed) (h.mute thread hpassed)).2⟩
  | stop action => exact absurd hreturned (performStop_frame hstep).1

theorem silent_of_run {more : List ProxyAction} (h : s.Stopping) (hreturned : s.stop = .returned)
    (hrun : Run Step s more t) : t.log = s.log := by
  have hall : t.Stopping ∧ t.stop = .returned ∧ t.log = s.log := by
    refine hrun.invariant (I := fun t => t.Stopping ∧ t.stop = .returned ∧ t.log = s.log) ?_
      ⟨h, hreturned, rfl⟩
    rintro u a v ⟨hstopping, hstop, hlog⟩ hstep
    obtain ⟨hstop', hlog'⟩ := hstopping.silent hstop hstep
    exact ⟨hstopping.step hstep, hstop', hlog'.trans hlog⟩
  exact hall.2.2

/-- A thread that is created in time is joined, as long as `stop` has passed it. -/
theorem settled_step (h : ∀ thread, s.stop.passed thread = true →
    (s.loops thread).phase.joinable = false) (hguard : s.onTime a = true) (hstep : Step s a t) :
    ∀ thread, t.stop.passed thread = true → (t.loops thread).phase.joinable = false := by
  intro thread hpassed
  cases a with
  | accept action =>
    obtain ⟨hstop, -, -, hloops⟩ := performAccept_frame hstep
    rw [hstop] at hpassed
    rcases hloops with hloops | ⟨created, rfl, hloops⟩
    · rw [hloops]
      exact h thread hpassed
    · have hother : thread ≠ created := by
        rintro rfl
        rw [onTime, hpassed] at hguard
        cases hguard
      rw [hloops, loops_setLoop, if_neg hother]
      exact h thread hpassed
  | forward mover action =>
    obtain ⟨-, hstop, -, hothers⟩ := performLoop_frame hstep
    rw [hstop] at hpassed
    have hother : thread ≠ mover := by
      rintro rfl
      have hjoinable := (performLoop_phase hstep).1
      rw [h thread hpassed] at hjoinable
      cases hjoinable
    rw [hothers thread hother]
    exact h thread hpassed
  | stop action =>
    obtain ⟨-, -, -, hkeep, hnew⟩ := performStop_frame hstep
    rcases hnew thread hpassed with hbefore | hjoinable
    · rw [(hkeep thread hbefore).2]
      exact h thread hbefore
    · exact hjoinable

/-- A thread that `stop` has passed and that is joinable stays behind. -/
theorem left_step (h : s.stop.passed thread = true ∧ (s.loops thread).phase.joinable = true)
    (hstep : Step s a t) :
    t.stop.passed thread = true ∧ (t.loops thread).phase.joinable = true := by
  obtain ⟨hpassed, hjoinable⟩ := h
  cases a with
  | accept action =>
    obtain ⟨hstop, -, -, hloops⟩ := performAccept_frame hstep
    refine ⟨by rw [hstop]; exact hpassed, ?_⟩
    rcases hloops with hloops | ⟨created, -, hloops⟩
    · rw [hloops]
      exact hjoinable
    · rw [hloops, loops_setLoop]
      split
      · rfl
      · exact hjoinable
  | forward mover action =>
    obtain ⟨-, hstop, -, hothers⟩ := performLoop_frame hstep
    refine ⟨by rw [hstop]; exact hpassed, ?_⟩
    by_cases hthread : thread = mover
    · subst hthread
      exact (performLoop_phase hstep).2.1
    · rw [hothers thread hthread]
      exact hjoinable
  | stop action =>
    obtain ⟨hpassed', hloop⟩ := (performStop_frame hstep).2.2.2.1 thread hpassed
    rw [hloop]
    exact ⟨hpassed', hjoinable⟩

variable {config : TcpProxyConfig} {stamp : Stamp} {incoming : Forwarder → List Bytes}

theorem stopping_started : (started config stamp incoming).Stopping :=
  ⟨fun hidle => absurd rfl hidle, fun _ hpassed => (by cases hpassed),
    fun hjoined => (by cases hjoined)⟩

/-- The run creates every thread in time, or it leaves one behind. -/
theorem onTime_or_left (hrun : Run Step (started config stamp incoming) acts s) :
    Run (Guarded Step fun s a => s.onTime a = true) (started config stamp incoming) acts s ∨
      ∃ thread, s.stop.passed thread = true ∧ (s.loops thread).phase.joinable = true := by
  refine hrun.trace_induction (P := fun acts s =>
    Run (Guarded Step fun s a => s.onTime a = true) (started config stamp incoming) acts s ∨
      ∃ thread, s.stop.passed thread = true ∧ (s.loops thread).phase.joinable = true)
        (.inl (.nil _)) ?_
  intro acts s a t _ ih hstep
  rcases ih with hguarded | ⟨thread, hleft⟩
  · cases hguard : s.onTime a with
    | true => exact .inl (hguarded.snoc ⟨hguard, hstep⟩)
    | false =>
      -- The step creates a thread that `stop` has passed.
      cases a with
      | forward mover action => cases hguard
      | stop action => cases hguard
      | accept action =>
        cases action with
        | create thread =>
          have hpassed : s.stop.passed thread = true := by
            rw [onTime, Bool.not_eq_false'] at hguard
            exact hguard
          have hcreate : s.performAccept (.create thread) = some t := hstep
          refine .inr ⟨thread, by rw [(performAccept_frame hcreate).1]; exact hpassed, ?_⟩
          rw [loops_create hcreate, loops_setLoop, if_pos rfl]
          rfl
        | _ => cases hguard
  · exact .inr ⟨thread, left_step hleft hstep⟩

theorem settled_of_onTime
    (hrun :
      Run (Guarded Step fun s a => s.onTime a = true) (started config stamp incoming) acts s) :
    ∀ thread, s.stop.passed thread = true → (s.loops thread).phase.joinable = false := by
  refine hrun.invariant (I := fun s => ∀ thread, s.stop.passed thread = true →
    (s.loops thread).phase.joinable = false) ?_ (fun _ _ => rfl)
  rintro s a t h ⟨hguard, hstep⟩
  exact settled_step h hguard hstep

/-- When `stop` has returned, no forwarding thread is left and no event follows, exactly if every
forwarding thread was created before `stop` examined it. -/
theorem no_thread_left_iff (hrun : Run Step (started config stamp incoming) acts s)
    (hreturned : s.stop = .returned) :
    ((∀ thread, (s.loops thread).phase.joinable = false) ∧
      ∀ more t, Run Step s more t → t.log = s.log) ↔
    Run (Guarded Step fun s a => s.onTime a = true) (started config stamp incoming) acts s := by
  have hpassed : ∀ thread, s.stop.passed thread = true := by
    intro thread
    rw [hreturned]
    rfl
  have hstopping : s.Stopping := hrun.invariant (fun _ _ _ h hstep => h.step hstep) stopping_started
  constructor
  · rintro ⟨hjoined, -⟩
    rcases onTime_or_left hrun with hguarded | ⟨thread, -, hjoinable⟩
    · exact hguarded
    · rw [hjoined thread] at hjoinable
      cases hjoinable
  · intro hguarded
    exact ⟨fun thread => settled_of_onTime hguarded thread (hpassed thread),
      fun more t => silent_of_run hstopping hreturned⟩

/-- The connection is made when `stop` comes; `stop` passes over the threads that are not created
yet and waits for the accept thread, which creates them. -/
def createdLate : List ProxyAction :=
  [.accept (.accept none), .accept (.resolve none (ascii "127.0.0.1:5000")),
    .accept (.connect none (ascii "127.0.0.1:5000")),
    .accept (.publish (ascii "127.0.0.1:5000") (ascii "127.0.0.1:9002")),
    .accept (.announce ⟨2, 20⟩), .stop .exchange, .stop .close, .stop .join, .stop .join,
    .accept (.create .appToDevice), .accept (.create .deviceToApp), .stop .join,
    .stop (.returns ⟨3, 30⟩)]

theorem thread_left_behind :
    ¬ ∀ (config : TcpProxyConfig) (stamp : Stamp) (incoming : Forwarder → List Bytes)
        (acts : List ProxyAction) (s : TcpProxyCaptureSession),
      Run Step (started config stamp incoming) acts s → s.stop = .returned →
      (∀ thread, (s.loops thread).phase.joinable = false) ∧ ∀ more t, Run Step s more t →
        t.log = s.log := by
  intro hall
  obtain ⟨s, hrun, hreturned, hjoinable⟩ := Run.exists_of_foldlM
    (P := fun s : TcpProxyCaptureSession => s.stop = .returned ∧
      (s.loops .appToDevice).phase.joinable = true)
    (show (createdLate.foldlM perform
      (started TcpProxyForwarding.proxied.config ⟨1, 10⟩ fun _ => [])).any _ =
        true by decide +kernel)
  rw [(hall _ _ _ _ s hrun hreturned).1] at hjoinable
  cases hjoinable

/-- `stop` comes when both threads read. -/
def createdInTime : List ProxyAction :=
  [.accept (.accept none), .accept (.resolve none (ascii "127.0.0.1:5000")),
    .accept (.connect none (ascii "127.0.0.1:5000")),
    .accept (.publish (ascii "127.0.0.1:5000") (ascii "127.0.0.1:9002")),
    .accept (.announce ⟨2, 20⟩), .accept (.create .appToDevice), .accept (.create .deviceToApp),
    .forward .appToDevice .test, .forward .deviceToApp .test, .stop .exchange, .stop .close,
    .forward .appToDevice (.read true), .forward .appToDevice .leave, .forward .appToDevice .close,
    .forward .appToDevice (.announce ⟨3, 30⟩), .stop .join, .forward .deviceToApp (.read true),
    .forward .deviceToApp .leave, .forward .deviceToApp .close,
    .forward .deviceToApp (.announce ⟨3, 30⟩), .stop .join, .stop .join,
    .stop (.returns ⟨3, 30⟩)]

theorem no_thread_left_of_created_in_time :
    ∃ s : TcpProxyCaptureSession, s.stop = .returned ∧
      (∀ thread, (s.loops thread).phase.joinable = false) ∧
      ∀ more t, Run Step s more t → t.log = s.log := by
  obtain ⟨s, hrun, hreturned⟩ := Run.exists_of_foldlM
    (P := fun s : TcpProxyCaptureSession => s.stop = .returned)
    (show (createdInTime.foldlM (fun s a => if s.onTime a = true then s.perform a else none)
      (started TcpProxyForwarding.proxied.config ⟨1, 10⟩ fun _ => [])).any _ =
        true by decide +kernel)
  have hguarded : Run (Guarded Step fun s a => s.onTime a = true) _ createdInTime s :=
    hrun.mono fun _ _ _ h => Option.ite_none_right_eq_some.1 h
  exact ⟨s, hreturned, (no_thread_left_iff (hguarded.mono fun _ _ _ h => h.2) hreturned).2 hguarded⟩

end TcpProxyCaptureSession

end PacketProbe
