import PacketProbe.EngineController
import PacketProbe.HexPayloads

/-!
# The sender loop of a command-line run

`run_sender_session` reads payloads from standard input and passes them to the session. A send
that fails is reported and the loop goes on; a line that is not a payload ends it.
-/

namespace PacketProbe

/-! ### The loop -/

/-- One evaluation of `stop_requested()` and `session.stopped()`. -/
structure SenderPoll where
  stopRequested : Bool := false
  stopped : Bool := false

def SenderPoll.ends (poll : SenderPoll) : Bool := poll.stopRequested || poll.stopped

/-- A turn of the loop: the line that `getline` reads, and what `session.send` makes of a payload.
-/
structure SenderTurn extends SenderPoll where
  line : ByteString
  send : Bytes → Except StdException Bool := fun _ => .ok true

/-- Where a run ends: it waits, it returns and has stopped the session or not, or an exception
leaves it. -/
inductive SenderEnd where
  | waiting
  | returned (stops : Bool)
  | parseThrew (ex : StdException)
  | sendThrew (ex : StdException)
  | stopThrew (ex : StdException)
  | fileThrew (ex : StdException)
  deriving DecidableEq

/-- What was passed to `session.send` and printed to `std::cerr`, and the end. -/
structure SenderRun where
  sent : List Bytes := []
  printed : List ByteString := []
  ending : SenderEnd
  deriving DecidableEq

/-- What a run finds around it. -/
structure SenderSurroundings where
  readFile : ByteString → Except StdException Bytes := fun _ => .ok []
  interactive : Bool := false
  /-- The polls behind the loop, as far as the run is followed. -/
  polls : List SenderPoll := []
  /-- An exception of `session.stop`. -/
  stop : Option StdException := none

def parseTextPayload (line : ByteString) : Bytes := line

def parseSendLine (line : ByteString) (options : SendInputOptions) : Except StdException Bytes :=
  match options.format with
  | .text => .ok (parseTextPayload line)
  | .hex => parseHexPayload line
  | .file => .error ⟨.logicError, ascii "send-file does not parse stdin lines"⟩

def stopSession (surroundings : SenderSurroundings) : SenderEnd :=
  match surroundings.stop with
  | none => .returned true
  | some ex => .stopThrew ex

/-- The last `if`: the session is stopped unless it has stopped already. -/
def finishSender (surroundings : SenderSurroundings) : List SenderPoll → SenderEnd
  | [] => .waiting
  | poll :: _ => if poll.stopped then .returned false else stopSession surroundings

/-- The loop that waits for a stop. -/
def awaitStop (surroundings : SenderSurroundings) : List SenderPoll → SenderEnd
  | [] => .waiting
  | poll :: polls =>
    if poll.ends then finishSender surroundings polls else awaitStop surroundings polls

def behindLines (surroundings : SenderSurroundings) : SenderEnd :=
  if surroundings.interactive then finishSender surroundings surroundings.polls
  else awaitStop surroundings surroundings.polls

/-- The payload goes out, and the run goes on with the rest. -/
def SenderRun.sending (payload : Bytes) (printed : List ByteString) (rest : SenderRun) :
    SenderRun :=
  { rest with sent := payload :: rest.sent, printed := printed ++ rest.printed }

/-- The loop over the lines; without another turn, `getline` fails. -/
def sendLines (options : SendInputOptions) (surroundings : SenderSurroundings) :
    List SenderTurn → SenderRun
  | [] => { ending := behindLines surroundings }
  | turn :: turns =>
    if turn.ends then { ending := behindLines surroundings }
    else
      match parseSendLine turn.line options with
      | .error ex => { ending := .parseThrew ex }
      | .ok payload =>
        match turn.send payload with
        | .error ex => { sent := [payload], ending := .sendThrew ex }
        | .ok accepted =>
          (sendLines options surroundings turns).sending payload
            (if accepted then [] else [ascii "failed to send payload\n"])

/-- `run_sender_session`; for a file, `send` is the one of the first turn. -/
def runSenderSession (options : SendInputOptions) (surroundings : SenderSurroundings)
    (send : Bytes → Except StdException Bool) (turns : List SenderTurn) : SenderRun :=
  if options.format = .file then
    match surroundings.readFile options.filePath with
    | .error ex => { ending := .fileThrew ex }
    | .ok payload =>
      match send payload with
      | .error ex => { sent := [payload], ending := .sendThrew ex }
      | .ok false =>
        { sent := [payload],
          ending := .fileThrew (runtimeError (ascii "failed to send file payload")) }
      | .ok true => { sent := [payload], ending := stopSession surroundings }
  else sendLines options surroundings turns

/-! ### Isolation of lines -/

def SenderTurn.payload (turn : SenderTurn) : Option Bytes := (parseHexPayload turn.line).toOption

/-- `session.send` throws on the payload of the line. -/
def SenderTurn.SendThrows (turn : SenderTurn) : Prop :=
  ∃ payload ex, turn.payload = some payload ∧ turn.send payload = .error ex

/-- Every payload is passed on, in the order of the lines, and no line ends the run by its text. -/
def IsolatesLines (turns : List SenderTurn) (run : SenderRun) : Prop :=
  run.sent = turns.filterMap SenderTurn.payload ∧ ∀ ex, run.ending ≠ .parseThrew ex

/-- A property of every line and the lines in front of it. -/
def EachBehind (P : List SenderTurn → SenderTurn → Prop) (turns : List SenderTurn) : Prop :=
  ∀ before turn behind, turns = before ++ turn :: behind → P before turn

theorem eachBehind_nil {P : List SenderTurn → SenderTurn → Prop} :
    EachBehind P [] := fun before _ _ h =>
  absurd h.symm (List.append_ne_nil_of_right_ne_nil before (List.cons_ne_nil _ _))

theorem eachBehind_cons {P : List SenderTurn → SenderTurn → Prop} {first : SenderTurn}
    {turns : List SenderTurn} :
    EachBehind P (first :: turns) ↔
      P [] first ∧ EachBehind (fun before => P (first :: before)) turns := by
  constructor
  · intro h
    refine ⟨h [] first turns rfl, fun before turn behind heq => ?_⟩
    exact h (first :: before) turn behind (by rw [heq, List.cons_append])
  · rintro ⟨hfirst, hrest⟩ before turn behind heq
    cases before with
    | nil =>
      cases heq
      exact hfirst
    | cons other before =>
      obtain ⟨rfl, hturns⟩ := List.cons.inj heq
      exact hrest before turn behind hturns

section

variable {options : SendInputOptions} {surroundings : SenderSurroundings} {turn : SenderTurn}
  {turns : List SenderTurn}

theorem behindLines_ne (surroundings : SenderSurroundings) (ex : StdException) :
    behindLines surroundings ≠ .parseThrew ex := by
  have hstop : stopSession surroundings ≠ .parseThrew ex := by
    unfold stopSession
    cases surroundings.stop <;> exact SenderEnd.noConfusion
  have hfinish : ∀ polls, finishSender surroundings polls ≠ .parseThrew ex := by
    intro polls
    cases polls with
    | nil => exact SenderEnd.noConfusion
    | cons poll polls =>
      rw [finishSender]
      split
      · exact SenderEnd.noConfusion
      · exact hstop
  have hawait : ∀ polls, awaitStop surroundings polls ≠ .parseThrew ex := by
    intro polls
    induction polls with
    | nil => exact SenderEnd.noConfusion
    | cons poll polls ih =>
      rw [awaitStop]
      split
      · exact hfinish polls
      · exact ih
  unfold behindLines
  split
  · exact hfinish _
  · exact hawait _

theorem parseSendLine_of_hex (hhex : options.format = .hex) (line : ByteString) :
    parseSendLine line options = parseHexPayload line := by
  rw [parseSendLine, hhex]

/-- A line that is not a payload ends the loop. -/
theorem sendLines_of_unparsed {ex : StdException} (hhex : options.format = .hex)
    (hquiet : turn.ends = false) (hline : parseHexPayload turn.line = .error ex) :
    sendLines options surroundings (turn :: turns) = { ending := .parseThrew ex } := by
  simp only [sendLines, hquiet, parseSendLine_of_hex hhex, hline, Bool.false_eq_true, if_false]

theorem sendLines_of_threw {payload : Bytes} {ex : StdException} (hhex : options.format = .hex)
    (hquiet : turn.ends = false) (hline : parseHexPayload turn.line = .ok payload)
    (hsend : turn.send payload = .error ex) :
    sendLines options surroundings (turn :: turns) =
      { sent := [payload], ending := .sendThrew ex } := by
  simp only [sendLines, hquiet, parseSendLine_of_hex hhex, hline, hsend, Bool.false_eq_true,
    if_false]

/-- After a send that returns, accepted or not, the loop goes on. -/
theorem sendLines_of_returned {payload : Bytes} {accepted : Bool} (hhex : options.format = .hex)
    (hquiet : turn.ends = false) (hline : parseHexPayload turn.line = .ok payload)
    (hsend : turn.send payload = .ok accepted) :
    ∃ printed, sendLines options surroundings (turn :: turns) =
      (sendLines options surroundings turns).sending payload printed := by
  simp only [sendLines, hquiet, parseSendLine_of_hex hhex, hline, hsend, Bool.false_eq_true,
    if_false]
  exact ⟨_, rfl⟩

theorem sendThrows_iff {payload : Bytes} (h : turn.payload = some payload) :
    turn.SendThrows ↔ ∃ ex, turn.send payload = .error ex := by
  unfold SenderTurn.SendThrows
  rw [h]
  constructor
  · rintro ⟨_, ex, heq, hsend⟩
    cases heq
    exact ⟨ex, hsend⟩
  · rintro ⟨ex, hsend⟩
    exact ⟨payload, ex, rfl, hsend⟩

/-- The loop isolates the first line if it is a payload; if its send throws, nothing may be left
to send. -/
theorem isolatesLines_cons (hhex : options.format = .hex) (hquiet : turn.ends = false) :
    IsolatesLines (turn :: turns) (sendLines options surroundings (turn :: turns)) ↔
      turn.payload.isSome = true ∧ (turn.SendThrows → ∀ later ∈ turns, later.payload = none) ∧
        (¬ turn.SendThrows → IsolatesLines turns (sendLines options surroundings turns)) := by
  cases hline : parseHexPayload turn.line with
  | error ex =>
    have hpayload : turn.payload = none := congrArg Except.toOption hline
    rw [sendLines_of_unparsed hhex hquiet hline, hpayload]
    exact iff_of_false (fun h => h.2 ex rfl) fun h => by cases h.1
  | ok payload =>
    have hpayload : turn.payload = some payload := congrArg Except.toOption hline
    have hthrows := sendThrows_iff hpayload
    have hsome : turn.payload.isSome = true := Option.isSome_of_eq_some hpayload
    rw [and_iff_right hsome, IsolatesLines, List.filterMap_cons_some hpayload]
    cases hsend : turn.send payload with
    | error ex =>
      have hthrew : turn.SendThrows := hthrows.2 ⟨ex, hsend⟩
      rw [sendLines_of_threw hhex hquiet hline hsend, and_iff_left (fun h => absurd hthrew h),
        forall_prop_of_true hthrew, ← List.filterMap_eq_nil_iff, List.cons.injEq, and_iff_right rfl,
        eq_comm]
      exact and_iff_left fun ex' => SenderEnd.noConfusion
    | ok accepted =>
      have hreturned : ¬ turn.SendThrows := by
        intro h
        obtain ⟨ex, hex⟩ := hthrows.1 h
        cases hsend.symm.trans hex
      obtain ⟨printed, hrun⟩ :=
        @sendLines_of_returned options surroundings turn turns _ _ hhex hquiet hline hsend
      rw [hrun, and_iff_right (fun h => absurd h hreturned), forall_prop_of_true hreturned,
        IsolatesLines]
      exact and_congr_left fun _ => List.cons_inj_right payload

/-- The loop isolates the lines exactly if each of them is a payload, until a send throws, and none
behind that. -/
theorem isolatesLines_iff (hhex : options.format = .hex)
    (hquiet : ∀ turn ∈ turns, turn.ends = false) (send : Bytes → Except StdException Bool) :
    IsolatesLines turns (runSenderSession options surroundings send turns) ↔
      EachBehind (fun before turn => turn.payload.isSome = true ↔
        ∀ earlier ∈ before, ¬ earlier.SendThrows)
        turns := by
  have hfile : ¬ options.format = .file := by
    rw [hhex]
    decide
  rw [runSenderSession, if_neg hfile]
  induction turns with
  | nil => exact iff_of_true ⟨rfl, behindLines_ne surroundings⟩ eachBehind_nil
  | cons turn turns ih =>
    obtain ⟨hturn, hturns⟩ := List.forall_mem_cons.1 hquiet
    have hrest : IsolatesLines turns (sendLines options surroundings turns) ↔
        EachBehind (fun before turn => turn.payload.isSome = true ↔
          ∀ earlier ∈ before, ¬ earlier.SendThrows)
          turns := ih hturns
    rw [isolatesLines_cons hhex hturn, eachBehind_cons, hrest,
      iff_true_right (List.forall_mem_nil _)]
    apply and_congr_right
    intro _
    by_cases hthrows : turn.SendThrows
    · rw [forall_prop_of_true hthrows, and_iff_left (fun h => absurd hthrows h)]
      constructor
      · intro hnone before later behind heq
        have hlater := hnone later (heq ▸ List.mem_append_right before List.mem_cons_self)
        rw [hlater]
        exact iff_of_false Bool.false_ne_true fun h => h turn List.mem_cons_self hthrows
      · intro h later hmem
        obtain ⟨before, behind, heq⟩ := List.append_of_mem hmem
        have hlater := (h before later behind heq).not.2 fun hall =>
          hall turn List.mem_cons_self hthrows
        rwa [Option.not_isSome_iff_eq_none] at hlater
    · rw [forall_prop_of_true hthrows, and_iff_right (fun h => absurd h hthrows)]
      simp only [List.forall_mem_cons, hthrows, not_false_eq_true, true_and]

end

/-- A line with no payload, and one with the byte 41. -/
def damagedInput : List SenderTurn := [{ line := ascii "z" }, { line := toHex [0x41] false }]

/-- The second line is not sent, as the first one is not a payload. -/
theorem not_isolatesLines_damaged :
    ¬ IsolatesLines damagedInput
      (runSenderSession { format := .hex } {} (fun _ => .ok true) damagedInput) := by
  have hbad : parseHexPayload (ascii "z") = .error (hexError 1 "expected two hex digits") := by
    simp [parseHexPayload, parseHexFrom, ascii, isSeparator, isspace, startsWith0x, hexValue]
  rintro ⟨-, hending⟩
  apply hending (hexError 1 "expected two hex digits")
  simp only [damagedInput, runSenderSession, sendLines, parseSendLine, hbad]
  rfl

def plainInput : List SenderTurn :=
  [{ line := toHex [0x41, 0x42] true }, { line := toHex [0x43] false }]

theorem isolatesLines_plain :
    IsolatesLines plainInput
      (runSenderSession { format := .hex } {} (fun _ => .ok true) plainInput) := by
  have hsome : ∀ payload spaced, ({ line := toHex payload spaced } : SenderTurn).payload.isSome =
      true := by
    intro payload spaced
    rw [SenderTurn.payload, (parseHexPayload_toHex payload spaced).1]
    rfl
  refine (isolatesLines_iff rfl (by decide) _).2
    (eachBehind_cons.2 ⟨?_, eachBehind_cons.2 ⟨?_, eachBehind_nil⟩⟩)
  · exact iff_of_true (hsome _ _) (List.forall_mem_nil _)
  · refine iff_of_true (hsome _ _) (List.forall_mem_singleton.2 ?_)
    rintro ⟨payload, ex, -, hsend⟩
    cases hsend

end PacketProbe
