import PacketProbe.DirectSessions
import PacketProbe.SenderSession

/-!
# The sender loop beside a running session

`run_sender_session` on a TCP client, serial or UDP session reads standard input on the main thread
while the callbacks of the transport and the commands of a viewer reach the session on threads of
their own. The loop taken step by step does what the plain loop does with the answers that the
session gives.
-/

namespace PacketProbe
open TransitionRuns EventPipeline

/-! ### The process -/

/-- Where the main thread is: in front of the condition of the loop, in `getline`, in front of
`session.send`, behind the loop, in front of the last `if`, or at an end. -/
inductive SenderPoint where
  | polling
  | reading
  | sending (line : ByteString) (payload : Bytes)
  | behind
  | finishing
  | ended (ending : SenderEnd)

structure LiveSender where
  session : DirectCaptureSession
  /-- The lines of standard input that have not been read. -/
  input : List ByteString
  point : SenderPoint := .polling
  printed : List ByteString := []
  /-- The turns that are over, with the answers of `session.send`. -/
  turns : List SenderTurn := []

/-- A step of another thread, or the next one of the main thread. -/
inductive InputAction where
  | other (action : DirectAction)
  | poll (stopRequested : Bool)
  | getline
  | send (connected accepted : Bool) (stamp : Stamp)
  | await (stopRequested : Bool)
  | finish

/-- A command of a viewer that is sent while the loop runs. -/
def InputAction.isViewerSend : InputAction → Bool
  | other (.send _ _ _ _) => true
  | _ => false

namespace LiveSender

variable (options : SendInputOptions) (interactive : Bool)

/-- The line is parsed; a line that is no payload ends the run. -/
def parseLine (s : LiveSender) (line : ByteString) : LiveSender :=
  match parseSendLine line options with
  | .error ex => { s with
      point := .ended (.parseThrew ex)
      turns := s.turns ++ [{ line }] }
  | .ok payload => { s with point := .sending line payload }

/-- `session.send`, and the report of a payload that has not been sent. -/
def sendPayload (s : LiveSender) (line : ByteString) (connected accepted : Bool)
    (session : DirectCaptureSession) :
    LiveSender :=
  let sent := s.session.sends connected accepted
  { s with
    session
    point := .polling
    printed := s.printed ++ if sent then [] else [ascii "failed to send payload\n"]
    turns := s.turns ++ [{ line, send := fun _ => .ok sent }] }

def perform (s : LiveSender) : InputAction → Option LiveSender
  | .other action => (s.session.perform action).map fun session => { s with session }
  | .poll stopRequested =>
    match s.point with
    | .polling =>
      some { s with point := if stopRequested || s.session.stopped then .behind else .reading }
    | _ => none
  | .getline =>
    match s.point with
    | .reading =>
      match s.input with
      | [] => some { s with point := .behind }
      | line :: input => some ({ s with input }.parseLine options line)
    | _ => none
  | .send connected accepted stamp =>
    match s.point with
    | .sending line payload =>
      (s.session.perform (.send payload connected accepted stamp)).map
        (s.sendPayload line connected accepted)
    | _ => none
  | .await stopRequested =>
    match s.point with
    | .behind =>
      some { s with
        point := if interactive || stopRequested || s.session.stopped then .finishing else .behind }
    | _ => none
  | .finish =>
    match s.point with
    | .finishing =>
      if s.session.stopped then some { s with point := .ended (.returned false) }
      else some { s with
        session := s.session.stop
        point := .ended (.returned true) }
    | _ => none

def Step (s : LiveSender) (action : InputAction) (t : LiveSender) : Prop :=
  s.perform options interactive action = some t

end LiveSender

/-! ### The plain loop -/

section Loop

variable {options : SendInputOptions} {surroundings : SenderSurroundings} {turns : List SenderTurn}
  {line : ByteString} {payload : Bytes} {ex : StdException}

/-- The turns do not end the loop. -/
def PassesOn (options : SendInputOptions) (turns : List SenderTurn) : Prop :=
  ∀ turn ∈ turns, turn.ends = false ∧
    ∃ payload accepted, parseSendLine turn.line options = .ok payload ∧
    turn.send payload = .ok accepted

theorem sendLines_of_passesOn {turn : SenderTurn} {accepted : Bool} (hends : turn.ends = false)
    (hparse : parseSendLine turn.line options = .ok payload)
    (hsend : turn.send payload = .ok accepted) :
    sendLines options surroundings (turn :: turns) =
      (sendLines options surroundings turns).sending payload
      (if accepted then [] else [ascii "failed to send payload\n"]) := by
  rw [sendLines, if_neg (by rw [hends]; exact Bool.false_ne_true), hparse]
  simp only [hsend]

theorem sendLines_of_malformed {turn : SenderTurn} (hends : turn.ends = false)
    (hparse : parseSendLine turn.line options = .error ex) :
    sendLines options surroundings (turn :: turns) = { ending := .parseThrew ex } := by
  rw [sendLines, if_neg (by rw [hends]; exact Bool.false_ne_true), hparse]

/-- A turn behind turns that pass on is taken behind them. -/
theorem sendLines_append (h : PassesOn options turns) (others : List SenderTurn) :
    (sendLines options surroundings (turns ++ others)).sent =
      (sendLines options surroundings turns).sent ++ (sendLines options surroundings others).sent ∧
    (sendLines options surroundings (turns ++ others)).printed =
      (sendLines options surroundings turns).printed ++
        (sendLines options surroundings others).printed ∧
    (sendLines options surroundings (turns ++ others)).ending =
      (sendLines options surroundings others).ending := by
  induction turns with
  | nil => exact ⟨rfl, rfl, rfl⟩
  | cons turn turns ih =>
    obtain ⟨hends, payload, accepted, hparse, hsend⟩ := h turn List.mem_cons_self
    obtain ⟨hsent, hprinted, hending⟩ := ih fun other hother =>
      h other (List.mem_cons_of_mem _ hother)
    rw [List.cons_append, sendLines_of_passesOn hends hparse hsend,
      sendLines_of_passesOn hends hparse hsend]
    refine ⟨?_, ?_, hending⟩
    · exact (congrArg (payload :: ·) hsent)
    · exact (congrArg (_ ++ ·) hprinted).trans (List.append_assoc _ _ _).symm

/-- The payloads that the session has taken. -/
def acceptedPayloads (options : SendInputOptions) (turns : List SenderTurn) : List Bytes :=
  turns.filterMap fun turn => (parseSendLine turn.line options).toOption.filter fun payload =>
    decide ((turn.send payload).toOption = some true)

theorem acceptedPayloads_append (turns others : List SenderTurn) :
    acceptedPayloads options (turns ++ others) = acceptedPayloads options turns ++
      acceptedPayloads options others :=
  List.filterMap_append

theorem acceptedPayloads_singleton (hparse : parseSendLine line options = .ok payload)
    (sent : Bool) :
    acceptedPayloads options [{ line, send := fun _ => .ok sent }] =
      if sent then [payload] else [] := by
  cases sent <;> simp [acceptedPayloads, hparse, Except.toOption]

end Loop

/-! ### The traffic of a session -/

namespace DirectCaptureSession

variable {s t : DirectCaptureSession} {action : DirectAction}

/-- The payloads that have been sent, by whichever thread. -/
def sentPayloads (s : DirectCaptureSession) : List Bytes :=
  s.traffic.filterMap fun item => if item.isSent then some item.payload else none

/-- What an action sends. -/
def sentBy (s : DirectCaptureSession) : DirectAction → List Bytes
  | .send payload connected accepted _ => if s.sends connected accepted then [payload] else []
  | _ => []

theorem sentPayloads_of_step (hstep : Step s action t) :
    t.sentPayloads = s.sentPayloads ++ s.sentBy action := by
  rw [sentPayloads, (effect_of_step hstep).traffic, List.filterMap_append]
  refine congrArg (_ ++ ·) ?_
  cases action with
  | send payload connected accepted stamp =>
    by_cases hsends : s.sends connected accepted = true
    · rw [carried, if_pos hsends, sentBy, if_pos hsends]
      rfl
    · rw [carried, if_neg hsends, sentBy, if_neg hsends]
      rfl
  | _ => rfl

end DirectCaptureSession

/-! ### Every interleaving -/

namespace SenderPoint

/-- The line that has been read and not been sent yet. -/
def pendingLine : SenderPoint → List ByteString
  | sending line _ => [line]
  | _ => []

/-- The exception that a malformed line has ended the run with. -/
def parseFailure : SenderPoint → Option StdException
  | ended (.parseThrew ex) => some ex
  | _ => none

/-- No line is on its way, and none has ended the run. -/
def Quiet (point : SenderPoint) : Prop := point.pendingLine = [] ∧ point.parseFailure = none

theorem Quiet.not_sending {point : SenderPoint} (h : point.Quiet) (line : ByteString)
    (payload : Bytes) :
    point ≠ sending line payload := by
  rintro rfl
  cases h.1

theorem quiet_ite (c : Bool) {point point' : SenderPoint} (h : point.Quiet) (h' : point'.Quiet) :
    (if c = true then point else point').Quiet := by
  split
  · exact h
  · exact h'

end SenderPoint

namespace LiveSender

variable {options : SendInputOptions} {interactive : Bool} {s t : LiveSender} {action : InputAction}
  {input : List ByteString}

/-- The turns that are over are those of the plain loop on the lines that have been read. -/
structure Follows (options : SendInputOptions) (input : List ByteString)
    (s : LiveSender) : Prop where
  lines : s.turns.map SenderTurn.line ++ s.point.pendingLine ++ s.input = input
  parsed : ∀ line payload, s.point = .sending line payload →
    parseSendLine line options = .ok payload
  passesOn : s.point.parseFailure = none → PassesOn options s.turns
  printed : ∀ surroundings, (sendLines options surroundings s.turns).printed = s.printed
  ending : ∀ surroundings, (sendLines options surroundings s.turns).ending =
    (s.point.parseFailure).elim (behindLines surroundings) .parseThrew

theorem follows_start (session : DirectCaptureSession) :
    Follows options input { session, input } where
  lines := rfl
  parsed _ _ h := nomatch h
  passesOn _ _ h := nomatch h
  printed _ := rfl
  ending _ := rfl

/-- A step that leaves the turns and what the main thread has printed. -/
theorem Follows.keep (h : s.Follows options input) (hturns : t.turns = s.turns)
    (hprinted : t.printed = s.printed)
    (hinput : t.input = s.input) (hpoint : t.point = s.point ∨ s.point.Quiet ∧ t.point.Quiet) :
    t.Follows options input := by
  have hpending : t.point.pendingLine = s.point.pendingLine := by
    rcases hpoint with hsame | ⟨hs, ht⟩
    · rw [hsame]
    · rw [hs.1, ht.1]
  have hfailure : t.point.parseFailure = s.point.parseFailure := by
    rcases hpoint with hsame | ⟨hs, ht⟩
    · rw [hsame]
    · rw [hs.2, ht.2]
  refine ⟨?_, ?_, ?_, ?_, ?_⟩
  · rw [hturns, hpending, hinput, h.lines]
  · rcases hpoint with hsame | ⟨-, ht⟩
    · rw [hsame]
      exact h.parsed
    · exact fun line payload hsending => absurd hsending (ht.not_sending line payload)
  · rw [hturns, hfailure]
    exact h.passesOn
  · rw [hturns, hprinted]
    exact h.printed
  · rw [hturns, hfailure]
    exact h.ending

/-- A turn of the loop that is over. -/
theorem Follows.turn (h : s.Follows options input) (hfailure : s.point.parseFailure = none)
    {turn : SenderTurn} (hturns : t.turns = s.turns ++ [turn])
    (hlines : s.turns.map SenderTurn.line ++ s.point.pendingLine ++ s.input =
      t.turns.map SenderTurn.line ++ t.point.pendingLine ++ t.input)
    (hparsed : ∀ line payload, t.point = .sending line payload →
      parseSendLine line options = .ok payload)
    (hpasses : t.point.parseFailure = none → PassesOn options [turn])
    (hprinted : ∀ surroundings,
      t.printed = s.printed ++ (sendLines options surroundings [turn]).printed)
    (hending : ∀ surroundings, (sendLines options surroundings [turn]).ending =
      (t.point.parseFailure).elim (behindLines surroundings) .parseThrew) :
        t.Follows options input where
  lines := hlines.symm.trans h.lines
  parsed := hparsed
  passesOn hnone := by
    rw [hturns]
    exact List.forall_mem_append.2 ⟨h.passesOn hfailure, hpasses hnone⟩
  printed surroundings := by
    rw [hturns, (sendLines_append (h.passesOn hfailure) _).2.1, h.printed, hprinted surroundings]
  ending surroundings := by
    rw [hturns, (sendLines_append (h.passesOn hfailure) _).2.2, hending]

/-- What a step does: another thread's at the session, one of the main thread between its lines, the
reading of a line that is no payload or of one that is, the sending. -/
theorem step_cases (hstep : Step options interactive s action t) :
    (∃ did session, action = .other did ∧ DirectCaptureSession.Step s.session did session ∧
      t = { s with session }) ∨
    (∃ session point, (session = s.session ∨ session = s.session.stop) ∧ s.point.Quiet ∧
      point.Quiet ∧
      t = { s with session, point }) ∨
    (∃ line rest ex, s.point.Quiet ∧ s.input = line :: rest ∧
      parseSendLine line options = .error ex ∧
      t = { s with
        input := rest
        point := .ended (.parseThrew ex)
        turns := s.turns ++ [{ line }] }) ∨
    (∃ line rest payload, s.point.Quiet ∧ s.input = line :: rest ∧
      parseSendLine line options = .ok payload ∧
      t = { s with
        input := rest
        point := .sending line payload }) ∨
    ∃ line payload connected accepted stamp session, s.point = .sending line payload ∧
      DirectCaptureSession.Step s.session (.send payload connected accepted stamp) session ∧
      t = s.sendPayload line connected accepted session := by
  cases action with
  | other action =>
    obtain ⟨session, hsession, rfl⟩ := Option.map_eq_some_iff.1 hstep
    exact .inl ⟨action, session, rfl, hsession, rfl⟩
  | poll stopRequested =>
    cases hpoint : s.point with
    | polling =>
      simp only [Step, perform, hpoint, Option.some.injEq] at hstep
      have hquiet :
          SenderPoint.Quiet (if stopRequested || s.session.stopped then .behind else .reading) :=
        SenderPoint.quiet_ite _ ⟨rfl, rfl⟩ ⟨rfl, rfl⟩
      exact .inr (.inl ⟨s.session, _, .inl rfl, ⟨rfl, rfl⟩, hquiet, hstep.symm⟩)
    | _ => simp only [Step, perform, hpoint, reduceCtorEq] at hstep
  | getline =>
    cases hpoint : s.point with
    | reading =>
      cases hinput : s.input with
      | nil =>
        simp only [Step, perform, hpoint, hinput, Option.some.injEq] at hstep
        exact .inr
          (.inl ⟨s.session, .behind, .inl rfl, ⟨rfl, rfl⟩, ⟨rfl, rfl⟩, hinput ▸ hstep.symm⟩)
      | cons line rest =>
        simp only [Step, perform, hpoint, hinput, Option.some.injEq, parseLine] at hstep
        split at hstep <;> rename_i hparse
        · exact .inr (.inr (.inl ⟨line, rest, _, ⟨rfl, rfl⟩, rfl, hparse, hstep.symm⟩))
        · exact .inr (.inr (.inr (.inl ⟨line, rest, _, ⟨rfl, rfl⟩, rfl, hparse, hstep.symm⟩)))
    | _ => simp only [Step, perform, hpoint, reduceCtorEq] at hstep
  | send connected accepted stamp =>
    cases hpoint : s.point with
    | sending line payload =>
      simp only [Step, perform, hpoint] at hstep
      obtain ⟨session, hsession, hsent⟩ := Option.map_eq_some_iff.1 hstep
      exact .inr (.inr (.inr (.inr
        ⟨line, payload, connected, accepted, stamp, session, rfl, hsession, hsent.symm⟩)))
    | _ => simp only [Step, perform, hpoint, reduceCtorEq] at hstep
  | await stopRequested =>
    cases hpoint : s.point with
    | behind =>
      simp only [Step, perform, hpoint, Option.some.injEq] at hstep
      have hquiet : SenderPoint.Quiet
          (if interactive || stopRequested || s.session.stopped then .finishing else .behind) :=
        SenderPoint.quiet_ite _ ⟨rfl, rfl⟩ ⟨rfl, rfl⟩
      exact .inr (.inl ⟨s.session, _, .inl rfl, ⟨rfl, rfl⟩, hquiet, hstep.symm⟩)
    | _ => simp only [Step, perform, hpoint, reduceCtorEq] at hstep
  | finish =>
    cases hpoint : s.point with
    | finishing =>
      simp only [Step, perform, hpoint] at hstep
      split at hstep <;> cases hstep
      · exact .inr (.inl ⟨s.session, _, .inl rfl, ⟨rfl, rfl⟩, ⟨rfl, rfl⟩, rfl⟩)
      · exact .inr (.inl ⟨s.session.stop, _, .inr rfl, ⟨rfl, rfl⟩, ⟨rfl, rfl⟩, rfl⟩)
    | _ => simp only [Step, perform, hpoint, reduceCtorEq] at hstep

theorem Follows.step (h : s.Follows options input) (hstep : Step options interactive s action t) :
    t.Follows options input := by
  rcases step_cases hstep with ⟨_, session, -, -, rfl⟩ | ⟨session, point, -, hquiet, hafter, rfl⟩ |
    ⟨line, rest, ex, hquiet, hinput, hparse, rfl⟩ |
    ⟨line, rest, payload, hquiet, hinput, hparse, rfl⟩ |
    ⟨line, payload, connected, accepted, stamp, session, hpoint, -, rfl⟩
  · exact h.keep rfl rfl rfl (.inl rfl)
  · exact h.keep rfl rfl rfl (.inr ⟨hquiet, hafter⟩)
  · have hends : ({ line } : SenderTurn).ends = false := rfl
    have hrun : ∀ surroundings, sendLines options surroundings [{ line }] =
        { ending := .parseThrew ex } :=
      fun surroundings => sendLines_of_malformed hends hparse
    refine h.turn hquiet.2 rfl ?_ (fun _ _ hsending => nomatch hsending)
      (fun hnone => nomatch hnone) ?_ ?_
    · rw [hquiet.1, hinput, List.map_append]
      simp [SenderPoint.pendingLine]
    · exact fun surroundings => by rw [hrun, List.append_nil]
    · exact fun surroundings => by rw [hrun]; rfl
  · refine ⟨?_, ?_, fun _ => h.passesOn hquiet.2, h.printed, ?_⟩
    · rw [← h.lines, hquiet.1, hinput]
      simp [SenderPoint.pendingLine]
    · rintro _ _ ⟨⟩
      exact hparse
    · exact fun surroundings => by rw [h.ending, hquiet.2]; rfl
  · have hparse := h.parsed line payload hpoint
    have hnone : s.point.parseFailure = none := by rw [hpoint]; rfl
    have hrun : ∀ surroundings sent,
      sendLines options surroundings [{ line, send := fun _ => .ok sent }] =
        SenderRun.sending payload (if sent then [] else [ascii "failed to send payload\n"])
          { ending := behindLines surroundings } := fun surroundings sent =>
            sendLines_of_passesOn rfl hparse rfl
    refine h.turn hnone rfl ?_ (fun _ _ hsending => nomatch hsending) (fun _ => ?_) ?_ ?_
    · rw [hpoint]
      simp [sendPayload, SenderPoint.pendingLine]
    · exact List.forall_mem_singleton.2 ⟨rfl, payload, _, hparse, rfl⟩
    · exact fun surroundings => by rw [hrun]; simp [sendPayload, SenderRun.sending]
    · exact fun surroundings => by rw [hrun]; rfl

/-- What a step sends is what the loop sees accepted, or the payload of a viewer's command. -/
theorem sent_of_step (h : s.Follows options input) (hstep : Step options interactive s action t) :
    ∃ payloads sent, acceptedPayloads options t.turns = acceptedPayloads options s.turns ++
      payloads ∧
      t.session.sentPayloads = s.session.sentPayloads ++ sent ∧
      (payloads = sent ∨ payloads = [] ∧ action.isViewerSend = true) := by
  rcases step_cases hstep with
    ⟨did, session, rfl, hdid, rfl⟩ | ⟨session, point, hsession, -, -, rfl⟩ |
    ⟨line, rest, ex, -, -, hparse, rfl⟩ | ⟨line, rest, payload, -, -, -, rfl⟩ |
    ⟨line, payload, connected, accepted, stamp, session, hpoint, hsend, rfl⟩
  · refine ⟨[], _, (List.append_nil _).symm, DirectCaptureSession.sentPayloads_of_step hdid, ?_⟩
    cases did with
    | send payload connected accepted stamp => exact .inr ⟨rfl, rfl⟩
    | _ => exact .inl rfl
  · refine ⟨[], [], (List.append_nil _).symm, ?_, .inl rfl⟩
    rcases hsession with rfl | rfl
    · exact (List.append_nil _).symm
    · have hstop : DirectCaptureSession.Step s.session .stop s.session.stop := rfl
      exact DirectCaptureSession.sentPayloads_of_step hstop
  · have hnone : acceptedPayloads options [{ line }] = [] := by
      simp [acceptedPayloads, hparse, Except.toOption]
    refine ⟨[], [], ?_, (List.append_nil _).symm, .inl rfl⟩
    rw [← hnone]
    exact acceptedPayloads_append s.turns [{ line }]
  · exact ⟨[], [], (List.append_nil _).symm, (List.append_nil _).symm, .inl rfl⟩
  · refine ⟨_, _, ?_, DirectCaptureSession.sentPayloads_of_step hsend, .inl rfl⟩
    have hone :=
      acceptedPayloads_singleton (h.parsed line payload hpoint) (s.session.sends connected accepted)
    exact (acceptedPayloads_append s.turns _).trans (congrArg (_ ++ ·) hone)

/-- What the whole run keeps. -/
theorem follows_of_run {session : DirectCaptureSession} {actions : List InputAction}
    (hnone : session.traffic = [])
    (hrun : Run (Step options interactive) { session, input } actions t) :
    t.Follows options input ∧ (acceptedPayloads options t.turns).Sublist t.session.sentPayloads ∧
      ((∀ action ∈ actions, action.isViewerSend = false) →
        acceptedPayloads options t.turns = t.session.sentPayloads) := by
  have hstart : session.sentPayloads = [] := by rw [DirectCaptureSession.sentPayloads, hnone]; rfl
  refine hrun.trace_induction (P := fun actions t => t.Follows options input ∧
    (acceptedPayloads options t.turns).Sublist t.session.sentPayloads ∧
      ((∀ action ∈ actions, action.isViewerSend = false) →
        acceptedPayloads options t.turns = t.session.sentPayloads)) ?_ ?_
  · exact ⟨follows_start session, List.nil_sublist _, fun _ => hstart.symm⟩
  · rintro actions s action t - ⟨hfollows, hsublist, hequal⟩ hstep
    obtain ⟨payloads, sent, haccepted, hsent, hwhose⟩ := sent_of_step hfollows hstep
    rw [haccepted, hsent]
    refine ⟨hfollows.step hstep, hsublist.append ?_, fun hown => ?_⟩
    · rcases hwhose with rfl | ⟨rfl, -⟩
      · exact List.Sublist.refl _
      · exact List.nil_sublist _
    · rw [List.forall_mem_append, List.forall_mem_singleton] at hown
      rcases hwhose with rfl | ⟨-, hviewer⟩
      · rw [hequal hown.1]
      · rw [hown.2] at hviewer
        cases hviewer

/-- Every step is one of the session, or leaves it alone. -/
theorem session_of_step (hstep : Step options interactive s action t) :
    t.session = s.session ∨ ∃ did, DirectCaptureSession.Step s.session did t.session := by
  rcases step_cases hstep with
    ⟨did, session, -, hdid, rfl⟩ | ⟨session, point, rfl | rfl, -, -, rfl⟩ |
    ⟨line, rest, ex, -, -, -, rfl⟩ | ⟨line, rest, payload, -, -, -, rfl⟩ |
    ⟨line, payload, connected, accepted, stamp, session, -, hsend, rfl⟩
  · exact .inr ⟨did, hdid⟩
  · exact .inl rfl
  · exact .inr ⟨.stop, rfl⟩
  · exact .inl rfl
  · exact .inl rfl
  · exact .inr ⟨_, hsend⟩

theorem recorded_of_run {traits : DirectTraits} {portExists : Bool} {session : DirectCaptureSession}
    {actions : List InputAction}
    (hstart : DirectCaptureSession.start portExists { traits } = (session, none))
    (hrun : Run (Step options interactive) { session, input } actions t) :
    t.session.traits = traits ∧ t.session.Recorded := by
  rw [DirectCaptureSession.recorded_of_start hstart] at hrun
  refine hrun.invariant (I := fun t => t.session.traits = traits ∧ t.session.Recorded) ?_ ⟨rfl, rfl⟩
  intro s action t hs hstep
  rcases session_of_step hstep with hsame | ⟨did, hdid⟩
  · rw [hsame]
    exact hs
  · exact ⟨(DirectCaptureSession.effect_of_step hdid).traits.trans hs.1, hs.2.step hdid⟩

/-- Whatever the transport and the viewers do in between, the loop reads the input from its
beginning, prints what the plain loop prints for the answers it gets and ends at a malformed line
with the same exception; what it has sent went out in the order of the lines, and without commands
of a viewer the frames of the sent stream are those of the accepted lines and nothing else. -/
theorem lines_sent {traits : DirectTraits} {portExists : Bool} {session : DirectCaptureSession}
    {config : DecoderConfig} {d₀ : FrameDecoder} {actions : List InputAction}
    (hstart : DirectCaptureSession.start portExists { traits } = (session, none))
    (hrun : Run (Step options interactive) { session, input } actions t)
    (hcreate : createFrameDecoder config = .ok d₀) (a : SequenceAllocator)
    (surroundings : SenderSurroundings) :
    (t.turns.map SenderTurn.line).IsPrefix input ∧
    t.printed = (sendLines options surroundings t.turns).printed ∧
    (∀ ex, t.point = .ended (.parseThrew ex) →
      (sendLines options surroundings t.turns).ending = .parseThrew ex) ∧
    (acceptedPayloads options t.turns).Sublist t.session.sentPayloads ∧
    ((∀ action ∈ actions, action.isViewerSend = false) →
      t.session.sentPayloads = acceptedPayloads options t.turns ∧
      (derivedOf (DirectCaptureSession.sentStream traits).key
        ((fresh config).history a t.session.log)).map
        PacketEvent.outcome = d₀.reports ((acceptedPayloads options t.turns).filter (· ≠ []))) := by
  have hnone : session.traffic = [] := by rw [DirectCaptureSession.recorded_of_start hstart]
  obtain ⟨hfollows, hsublist, hequal⟩ := follows_of_run hnone hrun
  obtain ⟨htraits, hrecorded⟩ := recorded_of_run hstart hrun
  refine ⟨⟨t.point.pendingLine ++ t.input, ?_⟩, (hfollows.printed surroundings).symm,
    fun ex hended => ?_, hsublist,
    fun hown => ⟨(hequal hown).symm, ?_⟩⟩
  · rw [← List.append_assoc]
    exact hfollows.lines
  · rw [hfollows.ending, hended]
    rfl
  · unfold DirectCaptureSession.Recorded DirectCaptureSession.trafficOf at hrecorded
    rw [htraits] at hrecorded
    have hakin := DirectCaptureSession.akin_of_traffic traits t.session.traffic
    rw [← hrecorded] at hakin
    rw [reports_of_traffic hcreate fun item hitem => (hakin item hitem).1, hrecorded,
      DirectCaptureSession.chunksOf_sentStream, hequal hown]
    rfl

/-- Two lines for a sensor, which answers between them; the second one is refused. -/
def twoLines : List InputAction :=
  [.other (.started true), .poll false, .getline, .send true true ⟨1, 10⟩,
    .other (.data (ascii "10.0.0.2:9000") [7] ⟨2, 11⟩), .poll false, .getline,
    .send true false ⟨3, 12⟩, .poll false, .getline]

def askedSensor : LiveSender where
  session := DirectCaptureSession.sensing
  input := [ascii "abc", ascii "de"]

theorem lines_sent_refused :
    ∃ t : LiveSender, Run (Step { format := .text } false) askedSensor twoLines t ∧
    t.printed = [ascii "failed to send payload\n"] ∧
    (derivedOf (DirectCaptureSession.sentStream DirectCaptureSession.sensorTraits).key
      ((fresh threeByteFrames).history {} t.session.log)).map PacketEvent.outcome =
        [(.frame, ascii "abc")] := by
  obtain ⟨t, hrun, hprinted, haccepted⟩ :=
    Run.exists_of_foldlM (f := perform { format := .text } false)
    (P := fun t : LiveSender => t.printed = [ascii "failed to send payload\n"] ∧
      acceptedPayloads { format := .text } t.turns = [ascii "abc"])
    (show ((twoLines.foldlM (perform { format := .text } false) askedSensor).any _) = true
      by decide +kernel)
  have hstart : DirectCaptureSession.start true { traits := DirectCaptureSession.sensorTraits } =
      (DirectCaptureSession.sensing, none) := rfl
  have hown : ∀ action ∈ twoLines, action.isViewerSend = false := by decide
  refine ⟨t, hrun, hprinted, (((lines_sent hstart hrun rfl {} {}).2.2.2.2 hown).2).trans ?_⟩
  rw [haccepted]
  decide +kernel

end LiveSender

end PacketProbe
