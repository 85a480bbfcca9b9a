import PacketProbe.ProxyRecording

/-!
# Half-closed connections through the proxy

The loop that comes first to the end of its input closes both sockets, so that the other
direction is cut off where it stands.
-/

namespace PacketProbe
open TransitionRuns

def Forwarder.other : Forwarder → Forwarder
  | .appToDevice => .deviceToApp
  | .deviceToApp => .appToDevice

/-- The accept thread leaves without a connection. -/
def AcceptPhase.failed : AcceptPhase → Bool
  | .checking _ | .reporting _ | .givingUp => true
  | _ => false

theorem Moves.ended {x y : ForwardLoop × List Bytes} (hmoves : Moves x y) {cause : EndCause}
    (hphase : x.1.phase.ending = true) (hcause : x.1.ended = some cause) :
    y.1.ended = some cause := by
  cases hmoves with
  | keep | wind => exact hcause
  | create h | test h | read h | record h | observe h | write h =>
    rw [h] at hphase
    cases hphase

namespace TcpProxyCaptureSession

/-- No step of `stop`, no exception, and no read or write that fails while the sockets are open. -/
def undisturbed (s : TcpProxyCaptureSession) : ProxyAction → Bool
  | .stop _ | .accept (.throws _) => false
  | .forward _ (.read true) | .forward _ (.write (some _)) => s.closed
  | _ => true

/-- A loop has come to the end of its input. -/
def ReadToEnd (s : TcpProxyCaptureSession) : Prop :=
  ∃ thread, (s.loops thread).ended = some .endOfFile

def Unconnected (s : TcpProxyCaptureSession) : Prop := ∀ thread, (s.loops thread).phase = .absent

/-- Only a loop at the end of its input takes the session down. -/
structure UpToEnd (s : TcpProxyCaptureSession) : Prop where
  failed : s.accept.failed = true → s.Unconnected
  down : s.stopped = true ∨ s.closed = true → s.ReadToEnd ∨ (s.Unconnected ∧ s.accept = .exited)
  ended : ∀ thread cause, (s.loops thread).ended = some cause → s.ReadToEnd

variable {s t : TcpProxyCaptureSession} {thread : Forwarder} {acts : List ProxyAction}
  {a : ProxyAction}

/-- Why a loop ends that was not at its end before, and what takes the session down. -/
theorem forward_ends {action : LoopAction} (hguard : s.undisturbed (.forward thread action) = true)
    (hstep : s.performLoop thread action = some t) :
    ((t.loops thread).ended = (s.loops thread).ended ∨ (t.loops thread).ended = some .endOfFile ∨
      s.stopped = true ∨ s.closed = true) ∧
    (t.stopped = true ∨ t.closed = true →
      s.stopped = true ∨ s.closed = true ∨ (s.loops thread).phase.ending = true) := by
  have hself : ∀ loop, (s.setLoop thread loop).loops thread = loop := by
    intro loop
    rw [loops_setLoop, if_pos rfl]
  have hended : ∀ phase, ((s.setLoop thread ((s.loops thread).setPhase phase)).loops thread).ended =
      (s.loops thread).ended := by
    intro phase
    rw [hself]
    rfl
  have hkeep : s.stopped = true ∨ s.closed = true →
      s.stopped = true ∨ s.closed = true ∨ (s.loops thread).phase.ending = true :=
    fun h => h.imp_right .inl
  have hwinding : ∀ phase : LoopPhase, (s.loops thread).phase = phase → phase.ending = true →
      (s.loops thread).phase.ending = true := by
    rintro phase rfl hending
    exact hending
  cases forwarded_of_performLoop hstep with
  | test =>
    refine ⟨?_, hkeep⟩
    rw [hself, ForwardLoop.test]
    split
    · exact .inr (.inr (.inl (by assumption)))
    · exact .inl rfl
  | read hphase fails =>
    refine ⟨?_, hkeep⟩
    rw [hself, ForwardLoop.read]
    split
    · rename_i hfails
      subst hfails
      exact .inr (.inr (.inr hguard))
    · split
      · exact .inr (.inl rfl)
      · exact .inl rfl
  | write hphase failedAfter =>
    refine ⟨?_, hkeep⟩
    rw [hself]
    cases failedAfter with
    | none => exact .inl rfl
    | some sent => exact .inr (.inr (.inr hguard))
  | leave hphase => exact ⟨.inl (hended _), fun _ => .inr (.inr (hwinding _ hphase rfl))⟩
  | close hphase => exact ⟨.inl (hended _), fun _ => .inr (.inr (hwinding _ hphase rfl))⟩
  | record | observe | finish | announce => exact ⟨.inl (hended _), hkeep⟩

theorem UpToEnd.forward {action : LoopAction} (h : s.UpToEnd)
    (hending : ∀ thread, (s.loops thread).ended.isSome = (s.loops thread).phase.ending)
    (hmoves : ∀ thread, Moves (s.direction thread) (t.direction thread))
    (hguard : s.undisturbed (.forward thread action) = true)
    (hstep : s.performLoop thread action = some t) :
    t.UpToEnd := by
  obtain ⟨haccept, -, -, hothers⟩ := performLoop_frame hstep
  obtain ⟨hends, hdown⟩ := forward_ends hguard hstep
  have hpresent : (s.loops thread).phase ≠ .absent := by
    intro habsent
    rw [performLoop_absent habsent] at hstep
    cases hstep
  have hkept : s.ReadToEnd → t.ReadToEnd := by
    rintro ⟨other, hend⟩
    refine ⟨other, (hmoves other).ended ?_ hend⟩
    change (s.loops other).phase.ending = true
    rw [← hending, hend]
    rfl
  have hold : s.stopped = true ∨ s.closed = true → t.ReadToEnd := by
    intro htaken
    rcases h.down htaken with hread | ⟨hunconnected, -⟩
    · exact hkept hread
    · exact absurd (hunconnected thread) hpresent
  refine ⟨fun hfailed => ?_, fun htaken => .inl ?_, fun other cause hcause => ?_⟩
  · rw [haccept] at hfailed
    exact absurd (h.failed hfailed thread) hpresent
  · rcases hdown htaken with hstopped | hclosed | hphase
    · exact hold (.inl hstopped)
    · exact hold (.inr hclosed)
    · obtain ⟨cause, hcause⟩ := Option.isSome_iff_exists.1 ((hending thread).trans hphase)
      exact hkept (h.ended thread cause hcause)
  · by_cases hother : other = thread
    · subst hother
      rcases hends with hsame | hend | hstopped | hclosed
      · exact hkept (h.ended other cause (hsame ▸ hcause))
      · exact ⟨other, hend⟩
      · exact hold (.inl hstopped)
      · exact hold (.inr hclosed)
    · rw [hothers other hother] at hcause
      exact hkept (h.ended other cause hcause)

/-- A step of the accept thread that leaves the loops, the flag and the sockets alone. -/
theorem UpToEnd.of_accept (h : s.UpToEnd)
    (hloops : ∀ thread, (t.loops thread).ended = (s.loops thread).ended)
    (hstopped : t.stopped = s.stopped) (hclosed : t.closed = s.closed)
    (hexited : s.accept ≠ .exited)
    (hfailed : t.accept.failed = true → t.Unconnected) : t.UpToEnd := by
  have hread : s.ReadToEnd → t.ReadToEnd := by
    rintro ⟨thread, hend⟩
    exact ⟨thread, (hloops thread).trans hend⟩
  refine ⟨hfailed, fun htaken => .inl ?_, fun thread cause hcause => ?_⟩
  · rw [hstopped, hclosed] at htaken
    rcases h.down htaken with hend | ⟨-, hphase⟩
    · exact hread hend
    · exact absurd hphase hexited
  · rw [hloops] at hcause
    exact hread (h.ended thread cause hcause)

theorem UpToEnd.accept {action : AcceptAction} (h : s.UpToEnd) (hsetUp : s.SetUp)
    (hguard : s.undisturbed (.accept action) = true) (hstep : s.performAccept action = some t) :
    t.UpToEnd := by
  have hunconnected : (∀ thread, s.accept.before thread = true) → s.Unconnected :=
    fun hbefore thread => hsetUp thread (hbefore thread)
  have hexited : ∀ phase : AcceptPhase, s.accept = phase → phase ≠ .exited →
      s.accept ≠ .exited := by
    rintro phase rfl hne
    exact hne
  cases accepts_of_performAccept hstep with
  | accept hphase | resolve hphase | connect hphase =>
    refine h.of_accept (fun _ => rfl) rfl rfl (hexited _ hphase AcceptPhase.noConfusion) fun _ => ?_
    apply hunconnected
    intro thread
    rw [hphase]
    rfl
  | publish hphase =>
    exact h.of_accept (fun _ => rfl) rfl rfl (hexited _ hphase AcceptPhase.noConfusion) nofun
  | announce hphase =>
    exact h.of_accept (fun _ => rfl) rfl rfl (hexited _ hphase AcceptPhase.noConfusion) nofun
  | create hphase =>
    rename_i next
    refine h.of_accept (fun thread => ?_) rfl rfl (hexited _ hphase AcceptPhase.noConfusion) ?_
    · change ((s.setLoop next _).loops thread).ended = _
      rw [loops_setLoop]
      split
      · rename_i hthread
        subst hthread
        rfl
      · rfl
    · cases next <;> exact nofun
  | throws => cases hguard
  | check hphase | report hphase =>
    have hnone : s.Unconnected := h.failed (by rw [hphase]; rfl)
    exact h.of_accept (fun _ => rfl) rfl rfl (hexited _ hphase AcceptPhase.noConfusion) fun _ =>
      hnone
  | giveUp hphase =>
    have hnone : s.Unconnected := h.failed (by rw [hphase]; rfl)
    exact ⟨fun _ => hnone, fun _ => .inr ⟨hnone, rfl⟩, h.ended⟩

variable {config : TcpProxyConfig} {stamp : Stamp} {incoming : Forwarder → List Bytes}

theorem upToEnd_of_run
    (hrun :
      Run (Guarded Step fun s a => s.undisturbed a = true) (started config stamp incoming) acts s) :
    s.UpToEnd := by
  refine hrun.trace_induction (P := fun _ s => s.UpToEnd) ?_ ?_
  · refine ⟨fun _ _ => rfl, fun htaken => ?_, fun _ _ hcause => by cases hcause⟩
    rcases htaken with hstopped | hclosed
    · cases hstopped
    · cases hclosed
  · rintro acts s a t hrun ih ⟨hguard, hstep⟩
    obtain ⟨hsetUp, hforwards⟩ := forwards_of_run (hrun.mono fun _ _ _ h => h.2)
    cases a with
    | accept action => exact ih.accept hsetUp hguard hstep
    | forward thread action =>
      exact ih.forward (fun thread => (hforwards thread).ended) (moves_of_step hsetUp hstep) hguard
        hstep
    | stop action => cases hguard

/-- Left alone, a loop ends only at the end of its own input or behind the end of the other one.
A loop that came to the end of its input has forwarded all of it, and the other loop what it had
read; when both have ended, at least one has forwarded everything. -/
theorem cut_off_at_end
    (hrun :
      Run (Guarded Step fun s a => s.undisturbed a = true) (started config stamp incoming) acts s) :
    (∀ thread cause, (s.loops thread).ended = some cause →
      (s.loops thread).ended = some .endOfFile ∨ (s.loops thread.other).ended = some .endOfFile) ∧
    (∀ thread, (s.loops thread).ended = some .endOfFile →
      (s.loops thread).forwarded = (incoming thread).flatten) ∧
    (∀ thread, (s.loops thread).forwarded <+: (incoming thread).flatten) ∧
    ((∀ thread, (s.loops thread).phase = .finished) →
      ∃ thread, (s.loops thread).forwarded = (incoming thread).flatten) := by
  have hend := upToEnd_of_run hrun
  have hforwards := (forwards_of_run (hrun.mono fun _ _ _ h => h.2)).2
  refine ⟨fun thread cause hcause => ?_, fun thread => (hforwards thread).of_endOfFile,
    fun thread => (hforwards thread).isPrefix, fun hfinished => ?_⟩
  · obtain ⟨first, hfirst⟩ := hend.ended thread cause hcause
    cases thread <;> cases first <;> first | exact .inl hfirst | exact .inr hfirst
  · have hended := (hforwards .appToDevice).ended
    rw [hfinished] at hended
    obtain ⟨cause, hcause⟩ := Option.isSome_iff_exists.1 hended
    obtain ⟨first, hfirst⟩ := hend.ended .appToDevice cause hcause
    exact ⟨first, (hforwards first).of_endOfFile hfirst⟩

/-- The app closes its sending direction before the device has answered. -/
def unanswered : Forwarder → List Bytes
  | .appToDevice => [[1]]
  | .deviceToApp => [[2]]

def closesFirst : List ProxyAction :=
  [.accept (.accept none), .accept (.resolve none (ascii "127.0.0.1:5000")),
    .accept (.connect none (ascii "127.0.0.1:5000")),
    .accept (.publish (ascii "127.0.0.1:5000") (ascii "127.0.0.1:9002")),
    .accept (.announce ⟨2, 20⟩), .accept (.create .appToDevice), .accept (.create .deviceToApp),
    .forward .deviceToApp .test, .forward .appToDevice .test, .forward .appToDevice (.read false),
    .forward .appToDevice (.record ⟨3, 30⟩), .forward .appToDevice (.observe 4),
    .forward .appToDevice (.write none), .forward .appToDevice .test,
    .forward .appToDevice (.read false), .forward .appToDevice .leave, .forward .appToDevice .close,
    .forward .deviceToApp (.read true), .forward .deviceToApp .leave, .forward .deviceToApp .close,
    .forward .deviceToApp (.announce ⟨4, 40⟩), .forward .appToDevice (.announce ⟨4, 40⟩)]

theorem runs_closesFirst :
    ∃ s : TcpProxyCaptureSession,
      Run (Guarded Step fun s a => s.undisturbed a = true)
        (started TcpProxyForwarding.proxied.config ⟨1, 10⟩ unanswered) closesFirst s ∧
      ((s.loops .appToDevice).phase = .finished ∧ (s.loops .deviceToApp).phase = .finished) ∧
      (s.loops .deviceToApp).incoming = [[2]] ∧ (s.loops .deviceToApp).forwarded = [] := by
  obtain ⟨s, hrun, hlost⟩ := Run.exists_of_foldlM
    (P := fun s : TcpProxyCaptureSession =>
      ((s.loops .appToDevice).phase = .finished ∧ (s.loops .deviceToApp).phase = .finished) ∧
      (s.loops .deviceToApp).incoming = [[2]] ∧ (s.loops .deviceToApp).forwarded = [])
    (show (closesFirst.foldlM (fun s a => if s.undisturbed a = true then s.perform a else none)
      (started TcpProxyForwarding.proxied.config ⟨1, 10⟩ unanswered)).any _ =
        true by decide +kernel)
  exact ⟨s, hrun.mono fun _ _ _ h => Option.ite_none_right_eq_some.1 h, hlost⟩

/-- The answer of the device is never read, although its loop was not at the end of its input. -/
theorem answer_lost_on_half_close :
    ¬ ∀ (config : TcpProxyConfig) (stamp : Stamp) (incoming : Forwarder → List Bytes)
        (acts : List ProxyAction) (s : TcpProxyCaptureSession),
      Run (Guarded Step fun s a => s.undisturbed a = true) (started config stamp incoming) acts s →
      (∀ thread, (s.loops thread).phase = .finished →
        (s.loops thread).incoming = [] ∧
          (s.loops thread).forwarded = (incoming thread).flatten) := by
  intro htransparent
  obtain ⟨s, hrun, ⟨-, hfinished⟩, hincoming, -⟩ := runs_closesFirst
  have hnone := (htransparent _ _ _ _ s hrun .deviceToApp hfinished).1
  rw [hincoming] at hnone
  cases hnone

theorem cut_off_at_end_of_closes_first :
    ∃ s : TcpProxyCaptureSession, (s.loops .deviceToApp).forwarded = [] ∧
      ∃ thread, (s.loops thread).forwarded = (unanswered thread).flatten := by
  obtain ⟨s, hrun, ⟨happ, hdevice⟩, -, hforwarded⟩ := runs_closesFirst
  have hfinished : ∀ thread, (s.loops thread).phase = .finished := by
    intro thread
    cases thread with
    | appToDevice => exact happ
    | deviceToApp => exact hdevice
  exact ⟨s, hforwarded, (cut_off_at_end hrun).2.2.2 hfinished⟩

end TcpProxyCaptureSession

end PacketProbe
