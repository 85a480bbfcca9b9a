import PacketProbe.EngineRuns

/-!
# The command protocol

A command is answered by exactly one result, a change of state is announced behind it,
and a command that fails changes nothing. No line is answered by an exception, except for
the two kinds the clauses around parser and dispatcher miss.
-/

namespace PacketProbe
open EngineController

/-- A message is a command: an object whose `type` is absent, not a string, or `command`,
and whose `command` is a string. -/
structure IsCommand (msg : Json) (command : ByteString) : Prop where
  object : msg.isObject = true
  type : ∀ text, msg.find (ascii "type") = some (.string text) → text = ascii "command"
  command : msg.find (ascii "command") = some (.string command)

theorem hasForeignType_eq_false_iff {msg : Json} :
    hasForeignType msg = false ↔
      ∀ text, msg.find (ascii "type") = some (.string text) → text = ascii "command" := by
  unfold hasForeignType
  split <;> simp_all

theorem acceptedCommand_eq_some_iff {msg : Json} {command : ByteString} :
    acceptedCommand msg = some command ↔ IsCommand msg command := by
  unfold acceptedCommand
  constructor
  · intro h
    by_cases hcond : msg.isObject = false ∨ hasForeignType msg = true
    · rw [if_pos hcond] at h
      cases h
    · rw [if_neg hcond] at h
      rw [not_or, Bool.not_eq_false, Bool.not_eq_true] at hcond
      split at h
      · cases h
        exact ⟨hcond.1, hasForeignType_eq_false_iff.1 hcond.2, ‹_›⟩
      · cases h
  · rintro ⟨hobject, htype, hcommand⟩
    have hforeign := hasForeignType_eq_false_iff.2 htype
    rw [if_neg (by simp [hobject, hforeign]), hcommand]

instance {msg : Json} {command : ByteString} : Decidable (IsCommand msg command) :=
  decidable_of_iff _ acceptedCommand_eq_some_iff

/-- One reply, to the client that asked; the announcement of a changed state behind it;
and a failure that leaves the state as it was. -/
def OneReply (c : EngineController) (client : IpcClientId) (id command : ByteString) (h : Handled) :
    Prop :=
  ∃ (events : List PacketEvent) (result : Json) (ok : Bool),
    h.sent = broadcasts events ++ .toClient client result ::
      (if ok = true ∧ command ∈ stateCommands then [.broadcastRaw h.controller.statusMessage]
        else []) ∧
    h.thrown = none ∧ IsResult id ok result ∧
    (ok = false → h.controller.capturing = c.capturing ∧ h.controller.hasConfig = c.hasConfig ∧
      h.controller.config = c.config)

section

variable {lib : JsonLibrary} {env : Environment} {c c' : EngineController}
  {client : IpcClientId} {id command : ByteString} {msg : Json} {h : Handled} {ex : StdException}

theorem oneReply_of_announcement (c c' : EngineController) (client : IpcClientId)
    (id : ByteString) (events : List PacketEvent) (hcommand : command ∈ stateCommands) :
    OneReply c client id command ⟨c', broadcasts events ++ announcement client id c', none⟩ := by
  refine ⟨events, resultMessage id true [], true, ?_, rfl, isResult_cons _ _ _, by simp⟩
  rw [if_pos ⟨rfl, hcommand⟩]
  rfl

theorem oneReply_of_answer {events : List PacketEvent} {message : Json} {ok : Bool}
    (hshape : SameShape c c') (hresult : IsResult id ok message)
    (hcommand : ok = true → command ∉ stateCommands) :
    OneReply c client id command ⟨c', broadcasts events ++ [.toClient client message], none⟩ := by
  refine ⟨events, message, ok, ?_, rfl, hresult, fun _ =>
    ⟨hshape.capturing, hshape.hasConfig, hshape.config⟩⟩
  rw [if_neg fun hboth => hcommand hboth.1 hboth.2]

theorem oneReply_of_replied (hreplied : Replied lib c client id command msg h) :
    OneReply c client id command h := by
  cases hreplied with
  | answered events message ok hshape hresult hcommand =>
    exact oneReply_of_answer hshape hresult hcommand
  | configured config options hcommand _ _ _ _ =>
    have hmem : command ∈ stateCommands := by simp [stateCommands, hcommand]
    exact oneReply_of_announcement c { c with config := options, hasConfig := true } client id []
      hmem
  | started events _ hcommand _ _ _ _ _ =>
    exact oneReply_of_announcement _ _ _ _ events (by simp [stateCommands, hcommand])
  | stopped events hcommand _ _ =>
    exact oneReply_of_announcement _ _ _ _ events (by simp [stateCommands, hcommand])

/-- The dispatcher's `catch` turns an exception with UTF-8 text into the reply. -/
theorem catching_of_escapes (hid : Utf8.Valid id) (hescapes : Escapes c ex h)
    (hex : Utf8.Valid ex.what) :
    Replied lib c client id command msg
      (h.catching fun ex => replyResult lib client id false ex.what) := by
  obtain ⟨c', events, hshape, rfl⟩ := hescapes
  simp only [Handled.catching, replyResult_eq hid (Or.inr hex)]
  exact .answered events _ false hshape (isResult_cons _ _ _) (by simp)

/-- An exception whose text is not UTF-8 makes the reply itself throw. -/
theorem catching_of_escapes_invalid (hid : Utf8.Valid id) (hescapes : Escapes c ex h)
    (hex : ¬ Utf8.Valid ex.what) :
    ∃ ex', Escapes c ex' (h.catching fun ex => replyResult lib client id false ex.what) := by
  obtain ⟨c', events, hshape, rfl⟩ := hescapes
  obtain ⟨what, -, heq⟩ := replyResult_of_invalid lib c' client hid hex
  refine ⟨⟨.jsonTypeError, what⟩, c', events, hshape, ?_⟩
  simp only [Handled.catching, heq, List.append_nil]

theorem catching_of_replied (hreplied : Replied lib c client id command msg h)
    (handler : StdException → EngineController → Handled) : h.catching handler = h := by
  cases hreplied <;> rfl

theorem handleCommand_of_command {line : ByteString} (hparse : lib.parse line = .ok msg)
    (hcommand : acceptedCommand msg = some command) :
    handleCommand lib env client line c =
      (dispatch lib env client command (commandId msg) msg c).catching fun ex =>
        replyResult lib client (commandId msg) false ex.what := by
  simp only [handleCommand, hparse, hcommand]

/-- A line that carries no command leaves the engine alone. -/
theorem handleCommand_of_no_command (env : Environment) (client : IpcClientId) {line : ByteString}
    (hnone : ∀ msg, lib.parse line = .ok msg → acceptedCommand msg = none) :
    (handleCommand lib env client line c).controller = c := by
  cases hparse : lib.parse line with
  | error failure => cases failure <;> simp only [handleCommand, hparse]
  | ok msg => simp only [handleCommand, hparse, hnone msg hparse]

theorem carries_command_or_none (lib : JsonLibrary) (line : ByteString) :
    (∃ msg command, lib.parse line = .ok msg ∧ acceptedCommand msg = some command) ∨
      ∀ msg, lib.parse line = .ok msg → acceptedCommand msg = none := by
  cases hparse : lib.parse line with
  | error failure => exact .inr (by simp)
  | ok msg =>
    cases haccepted : acceptedCommand msg with
    | none => exact .inr fun msg' h => by cases h; exact haccepted
    | some command => exact .inl ⟨msg, command, rfl, haccepted⟩

/-- A command gets its reply exactly if whatever was raised in its handler has UTF-8 text;
otherwise the dispatcher throws. -/
theorem handleCommand_replies (env : Environment) (client : IpcClientId) {line : ByteString}
    (hc : c.WellFormed)
    (hparse : lib.parse line = .ok msg) (hcommand : acceptedCommand msg = some command) :
    ((∀ ex, raisedBy lib env c command msg = some ex → Utf8.Valid ex.what) →
      Replied lib c client (commandId msg) command msg (handleCommand lib env client line c)) ∧
    (∀ ex, raisedBy lib env c command msg = some ex → ¬ Utf8.Valid ex.what →
      ∃ ex', Escapes c ex' (handleCommand lib env client line c)) := by
  have hmsg := lib.parse_validText hparse
  have hid := valid_commandId hmsg
  have heffect := dispatch_effect lib env client command hc hid hmsg
  rw [handleCommand_of_command hparse hcommand]
  cases hraised : raisedBy lib env c command msg with
  | some ex =>
    rw [hraised] at heffect
    refine ⟨fun hvalid => catching_of_escapes hid heffect (hvalid ex rfl), ?_⟩
    intro ex' heq hinvalid
    cases heq
    exact catching_of_escapes_invalid hid heffect hinvalid
  | none =>
    rw [hraised] at heffect
    refine ⟨fun _ => ?_, by simp⟩
    rcases heffect with hreplied | ⟨ex, hvalid, hescapes⟩
    · rw [catching_of_replied hreplied]
      exact hreplied
    · exact catching_of_escapes hid hescapes hvalid

theorem handleCommand_cases (env : Environment) (client : IpcClientId) {line : ByteString}
    (hc : c.WellFormed)
    (hparse : lib.parse line = .ok msg) (hcommand : acceptedCommand msg = some command) :
    Replied lib c client (commandId msg) command msg (handleCommand lib env client line c) ∨
      ∃ ex, Escapes c ex (handleCommand lib env client line c) := by
  obtain ⟨hreplies, hescapes⟩ := handleCommand_replies env client hc hparse hcommand
  by_cases htexts : ∀ ex, raisedBy lib env c command msg = some ex → Utf8.Valid ex.what
  · exact .inl (hreplies htexts)
  · simp only [not_forall] at htexts
    obtain ⟨ex, hraised, hinvalid⟩ := htexts
    exact .inr (hescapes ex hraised hinvalid)

end

/-- Every command gets exactly one reply, and every other parsed line gets none. -/
theorem command_protocol (lib : JsonLibrary) (c : EngineController) (hc : Reached lib c)
    (env : Environment) (client : IpcClientId) (line : ByteString) (msg : Json)
    (hparse : lib.parse line = .ok msg) :
    (∀ command, IsCommand msg command →
      (∀ ex, raisedBy lib env c command msg = some ex → Utf8.Valid ex.what) →
      OneReply c client (commandId msg) command (handleCommand lib env client line c)) ∧
    ((∀ command, ¬ IsCommand msg command) →
      handleCommand lib env client line c = ⟨c, [], none⟩) := by
  refine ⟨fun command hcommand hvalid => ?_, fun hnone => ?_⟩
  · have haccepted := acceptedCommand_eq_some_iff.2 hcommand
    exact oneReply_of_replied
      ((handleCommand_replies env client hc.wellFormed hparse haccepted).1 hvalid)
  · cases haccepted : acceptedCommand msg with
    | some command => exact absurd (acceptedCommand_eq_some_iff.1 haccepted) (hnone command)
    | none => simp only [handleCommand, hparse, haccepted]

/-- A start that fails in the transport: one reply, and the engine stays configured. -/
theorem command_protocol_failed_start :
    let env : Environment :=
      { sessionStart := some (runtimeError (ascii "failed to start UDP capture")) }
    let c :=
      (({} : EngineController).perform captureLibrary (.command 1 configureLine {})).controller
    OneReply c 2 [] (ascii "start_capture") (handleCommand captureLibrary env 2 startLine c) := by
  intro env c
  have hcommand : IsCommand startCapture (ascii "start_capture") :=
    acceptedCommand_eq_some_iff.1 (by decide)
  exact (command_protocol captureLibrary c (reached_initial.perform _) env 2 startLine startCapture
    rfl).1 (ascii "start_capture") hcommand (by intro ex h; cases h)

/-- What the clauses around the parser and around the dispatcher cover: no number literal
beyond the range of a double, and no exception whose text is not UTF-8. -/
structure Covered (lib : JsonLibrary) (env : Environment) (c : EngineController)
    (line : ByteString) : Prop where
  number : ∀ what, lib.parse line ≠ .error (.outOfRange what)
  text : ∀ msg command ex, lib.parse line = .ok msg → IsCommand msg command →
    raisedBy lib env c command msg = some ex → Utf8.Valid ex.what

theorem handleCommand_returns_iff (lib : JsonLibrary) (c : EngineController) (hc : Reached lib c)
    (env : Environment) (client : IpcClientId) (line : ByteString) :
    (handleCommand lib env client line c).thrown = none ↔ Covered lib env c line := by
  constructor
  · intro hthrown
    refine ⟨fun what hparse => ?_, fun msg command ex hparse hcommand hraised => ?_⟩
    · simp [handleCommand, hparse] at hthrown
    · by_contra hinvalid
      have haccepted := acceptedCommand_eq_some_iff.2 hcommand
      obtain ⟨ex', c', events, -, heq⟩ :=
        (handleCommand_replies env client hc.wellFormed hparse haccepted).2 ex hraised hinvalid
      rw [heq] at hthrown
      cases hthrown
  · intro hcovered
    cases hparse : lib.parse line with
    | error failure =>
      cases failure with
      | parseError => simp only [handleCommand, hparse]
      | outOfRange what => exact absurd hparse (hcovered.number what)
    | ok msg =>
      cases haccepted : acceptedCommand msg with
      | none => simp only [handleCommand, hparse, haccepted]
      | some command =>
        have hcommand := acceptedCommand_eq_some_iff.1 haccepted
        have hreplied := (handleCommand_replies env client hc.wellFormed hparse haccepted).1
          fun ex hraised => hcovered.text msg command ex hparse hcommand hraised
        obtain ⟨-, -, -, -, hthrown, -, -⟩ := oneReply_of_replied hreplied
        exact hthrown

theorem ipcSendHandler_returns_iff (lib : JsonLibrary) (send : Bytes → Except StdException Bool)
    (line : ByteString) :
    (ipcSendHandler lib send line).thrown = none ↔
      ∀ what, lib.parse line ≠ .error (.outOfRange what) := by
  cases hparse : lib.parse line with
  | error failure => cases failure <;> simp [ipcSendHandler, hparse]
  | ok msg =>
    have hthrown : (ipcSendHandler lib send line).thrown = none := by
      simp only [ipcSendHandler, hparse]
      repeat' split
      all_goals rfl
    simp [hthrown]

/-- `handle_command` returns exactly on the lines that are covered, and so does the send
handler exactly on those without a number out of range; a line that is not JSON they
then ignore. -/
theorem handlers_return_iff (lib : JsonLibrary) (c : EngineController) (hc : Reached lib c)
    (env : Environment) (client : IpcClientId) (line : ByteString)
    (send : Bytes → Except StdException Bool) :
    ((handleCommand lib env client line c).thrown = none ∧
        (∀ failure, lib.parse line = .error failure →
          handleCommand lib env client line c = ⟨c, [], none⟩) ↔ Covered lib env c line) ∧
    ((ipcSendHandler lib send line).thrown = none ∧
        (∀ failure, lib.parse line = .error failure → ipcSendHandler lib send line = {}) ↔
      ∀ what, lib.parse line ≠ .error (.outOfRange what)) := by
  constructor
  · rw [handleCommand_returns_iff lib c hc, and_iff_left_iff_imp]
    rintro hcovered (_ | what) hparse
    · simp only [handleCommand, hparse]
    · exact absurd hparse (hcovered.number what)
  · rw [ipcSendHandler_returns_iff, and_iff_left_iff_imp]
    rintro hnumber (_ | what) hparse
    · simp only [ipcSendHandler, hparse]
    · exact absurd hparse (hnumber what)

def overflowLine : ByteString := ascii "1e400"

/-- A delimiter of which the second pair starts inside a character of two bytes. -/
def splitDelimiter : ByteString := ascii "1" ++ [0xC3, 0xA9] ++ ascii "2"

def splitDelimiterLine : ByteString :=
  ascii "\x7b\"command\":\"configure\",\"config\":\x7b\"decoder\":\x7b\"delimiter_hex\":\"" ++
    splitDelimiter ++ ascii "\"\x7d\x7d\x7d"

def splitDelimiterConfigure : Json :=
  .object [(ascii "command", .string (ascii "configure")),
    (ascii "config", .object [
      (ascii "decoder", .object [(ascii "delimiter_hex", .string splitDelimiter)])])]

/-- The library on the two lines and on a `start_capture` command. -/
def escapingLibrary : JsonLibrary :=
  .ofTable [(overflowLine, .error (.outOfRange
      (ascii "[json.exception.out_of_range.406] number overflow parsing '1e400'"))),
    (splitDelimiterLine, .ok splitDelimiterConfigure), (startLine, .ok startCapture)]
    (by decide)

/-- Both handlers throw on a number literal that is too large for a double, and
`handle_command` also on a delimiter whose error text it cannot send. -/
theorem handlers_throw_on_uncovered_lines :
    (handleCommand escapingLibrary {} 1 overflowLine {}).thrown ≠ none ∧
      (ipcSendHandler escapingLibrary (fun _ => .ok true) overflowLine).thrown ≠ none ∧
      (handleCommand escapingLibrary {} 1 splitDelimiterLine {}).thrown ≠ none := by
  refine ⟨by decide +kernel, by decide +kernel, by decide +kernel⟩

theorem handlers_return_on_start :
    (handleCommand escapingLibrary {} 1 startLine {}).thrown = none := by
  have hcovered : Covered escapingLibrary {} {} startLine := by
    refine ⟨fun what hparse => ?_, fun msg command ex hparse hcommand hraised => ?_⟩
    · cases hparse
    · cases hparse
      have hstart : some (ascii "start_capture") = some command :=
        acceptedCommand_eq_some_iff.2 hcommand
      cases hstart
      cases hraised
  exact ((handlers_return_iff escapingLibrary {} reached_initial {} 1 startLine
    fun _ => .ok true).1.2 hcovered).1

end PacketProbe
