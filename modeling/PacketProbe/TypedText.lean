import Mathlib.Data.List.TakeWhile
import PacketProbe.CommandProtocol
import PacketProbe.HexPayloads
import PacketProbe.SendPanel

/-!
# Typed text on its way to the device

What the viewer types into `payload_hex`, the engine passes to `send` of its session, byte by
byte. Between the Send box and the command, the text loses its leading and trailing whitespace.
-/

namespace PacketProbe
open JsonText EngineController

/-! ### The engine -/

section Engine

variable (lib : JsonLibrary) (env : Environment) (client : IpcClientId) (c : EngineController)

/-- `session_->send(payload)` inside of the dispatcher's `try`, and the reply to it. -/
def sendAndReply (id : ByteString) (payload : Bytes) : Handled :=
  let (sending, sent) := sessionSend env payload c
  (sending.andThen fun c =>
    replyResult lib client id sent (if sent then [] else ascii "send failed") c).catching fun ex =>
      replyResult lib client id false ex.what

/-- Whatever the session does, handling the line comes down to passing it this payload. -/
def PassesToSession (line id : ByteString) (payload : Bytes) : Prop :=
  ∀ env, handleCommand lib env client line c = sendAndReply lib env client c id payload

end Engine

section Engine

variable {lib : JsonLibrary} {client : IpcClientId} {c : EngineController} {line id : ByteString}

theorem handleSend_of_hex {env : Environment} {msg : Json} {session : CaptureSession}
    {hex : ByteString}
    {payload : Bytes} (hcapturing : c.capturing = true) (hsession : c.session = some session)
    (hsend : session.supportsSend = true)
    (hhex : msg.find (ascii "payload_hex") = some (.string hex))
    (hpayload : parseHexPayload hex = .ok payload) :
    handleSend lib env client id msg c =
      (sessionSend env payload c).1.andThen fun c' =>
        replyResult lib client id (sessionSend env payload c).2
          (if (sessionSend env payload c).2 then [] else ascii "send failed") c' := by
  unfold handleSend
  rw [hcapturing, hsession]
  simp only [hsend, Bool.true_eq_false, if_false, hhex, hpayload]

/-- A `send` command with the digits of a payload. -/
theorem passesToSession_of_sendMessage {session : CaptureSession} (payload : Bytes)
    (hcapturing : c.capturing = true) (hsession : c.session = some session)
    (hsend : session.supportsSend = true)
    (hparse : lib.parse line = .ok (sendMessage (lowercase (toHex payload false)) id)) :
    PassesToSession lib client c line id payload := by
  intro env
  have hcommand : acceptedCommand (sendMessage (lowercase (toHex payload false)) id) =
    some (ascii "send") := rfl
  rw [handleCommand_of_command hparse hcommand]
  have hdispatch : dispatch lib env client (ascii "send")
      (commandId (sendMessage (lowercase (toHex payload false)) id))
      (sendMessage (lowercase (toHex payload false)) id) c =
        handleSend lib env client id (sendMessage (lowercase (toHex payload false)) id) c := rfl
  rw [hdispatch,
    handleSend_of_hex hcapturing hsession hsend rfl (parseHexPayload_toHex payload false).2]
  rfl

/-- The payload that is passed to the session is the only one. -/
theorem passesToSession_unique {payload payload' : Bytes} (hid : Utf8.Valid id)
    (h : PassesToSession lib client c line id payload)
    (h' : PassesToSession lib client c line id payload') :
    payload = payload' := by
  -- a session that sends the first payload and no other one
  let env : Environment := { sessionSend := fun sent => .ok (sent == payload) }
  have hreply : ∀ sent, sendAndReply lib env client c id sent =
      ⟨c, [.toClient client (resultMessage id (sent == payload)
        (if (sent == payload) = true then [] else ascii "send failed"))], none⟩ := by
    intro sent
    have herror : (sent == payload) = true ∨
        Utf8.Valid (if (sent == payload) = true then [] else ascii "send failed") := by
      cases sent == payload with
      | true => exact .inl rfl
      | false => exact .inr (by decide)
    have hresult : replyResult lib client id (sent == payload)
        (if (sent == payload) = true then [] else ascii "send failed") c = _ :=
          replyResult_eq hid herror
    change ((Handled.mk c [] none).andThen _).catching _ = _
    unfold Handled.andThen
    dsimp only
    rw [hresult]
    rfl
  have hsame := (h env).symm.trans (h' env)
  rw [hreply, hreply] at hsame
  have hlist := congrArg Handled.sent hsame
  by_contra hne
  have hother : (payload' == payload) = false := beq_eq_false_iff_ne.2 fun heq => hne heq.symm
  rw [beq_self_eq_true, hother] at hlist
  cases hlist

end Engine

/-! ### The viewer -/

theorem mem_dropWhile {α : Type} {p : α → Bool} {a : α} {l : List α} (ha : a ∈ l)
    (hp : p a = false) :
    a ∈ l.dropWhile p := by
  have hsplit : l = l.takeWhile p ++ l.dropWhile p := List.takeWhile_append_dropWhile.symm
  rw [hsplit, List.mem_append] at ha
  refine ha.resolve_left fun htake => ?_
  rw [List.mem_takeWhile_imp htake] at hp
  cases hp

theorem mem_strip {line : Text} {ch : ℕ} (hch : ch ∈ line) (hspace : isSpace ch = false) :
    ch ∈ strip line :=
  List.mem_reverse.2 (mem_dropWhile (List.mem_reverse.2 (mem_dropWhile hch hspace)) hspace)

theorem mem_of_mem_strip {line : Text} {ch : ℕ} (hch : ch ∈ strip line) : ch ∈ line := by
  have hback := (List.dropWhile_sublist isSpace).subset (List.mem_reverse.1 hch)
  exact (List.dropWhile_sublist isSpace).subset (List.mem_reverse.1 hback)

theorem Eol.isValidChar (eol : Eol) : ∀ ch ∈ eol.text, ch.isValidChar := by
  cases eol <;> decide

theorem encodeUtf8_strip {text : Text} (htext : ∀ ch ∈ text, ch.isValidChar) (eol : Eol) :
    encodeUtf8 (strip text ++ eol.text) =
      some ((strip text ++ eol.text).flatMap fun ch => String.utf8EncodeChar (Char.ofNat ch)) := by
  refine if_pos fun ch hch => ?_
  rcases List.mem_append.1 hch with hch | hch
  · exact htext ch (mem_of_mem_strip hch)
  · exact eol.isValidChar ch hch

/-- A surrogate is no whitespace, so it is still there when the text is encoded. -/
theorem encodeUtf8_strip_none {text : Text} (htext : ∃ ch ∈ text, ¬ch.isValidChar) (eol : Eol) :
    encodeUtf8 (strip text ++ eol.text) = none := by
  obtain ⟨ch, hch, hinvalid⟩ := htext
  have hspace : isSpace ch = false := by
    unfold isSpace
    unfold Nat.isValidChar at hinvalid
    simp only [Bool.or_eq_false_iff, Bool.and_eq_false_iff, decide_eq_false_iff_not]
    omega
  exact if_neg fun hall => hinvalid (hall ch (List.mem_append_left _ (mem_strip hch hspace)))

/-- In text mode, with a text that is not all whitespace. -/
theorem MainWindow.sendData_text {w : MainWindow} {panel : SendPanel}
    (hcapturing : isCapturing w.engineState = true)
    (hformat : panel.inHex = false) (htext : ∃ ch ∈ panel.input, isSpace ch = false) :
    (w.sendData true panel).message =
      (encodeUtf8 (strip panel.input ++ panel.eol.text)).map fun raw =>
        sendMessage (lowercase (toHex raw false)) (commandIdOf w.nextCommandId) := by
  obtain ⟨ch, hch, hspace⟩ := htext
  have hne : strip panel.input ≠ [] := List.ne_nil_of_mem (mem_strip hch hspace)
  unfold sendData
  rw [hcapturing, hformat, if_neg Bool.true_eq_false.mp, if_neg Bool.true_eq_false.mp]
  dsimp only
  rw [if_neg hne, if_neg Bool.false_ne_true]
  cases encodeUtf8 (strip panel.input ++ panel.eol.text) <;> rfl

/-! ### The whole way -/

/-- The text without its leading and trailing whitespace, and the chosen line end behind it,
reach the session in UTF-8; a text with a surrogate is not sent. -/
theorem typed_text_reaches_session (w : MainWindow) (panel : SendPanel) (lib : JsonLibrary)
    (client : IpcClientId)
    (c : EngineController) (session : CaptureSession) (hshown : isCapturing w.engineState = true)
    (hformat : panel.inHex = false) (htext : ∃ ch ∈ panel.input, isSpace ch = false)
    (hcapturing : c.capturing = true) (hsession : c.session = some session)
    (hsend : session.supportsSend = true) :
    ((∀ ch ∈ panel.input, ch.isValidChar) → ∃ payload message,
      encodeUtf8 (strip panel.input ++ panel.eol.text) = some payload ∧
      (w.sendData true panel).message = some message ∧
      ∀ line, lib.parse line = .ok message →
        PassesToSession lib client c line (commandIdOf w.nextCommandId) payload ∧
        ∀ payload', PassesToSession lib client c line (commandIdOf w.nextCommandId) payload' →
          payload' = payload) ∧
    ((∃ ch ∈ panel.input, ¬ch.isValidChar) → (w.sendData true panel).message = none) := by
  have hmessage := MainWindow.sendData_text hshown hformat htext
  constructor
  · intro hvalid
    have hpayload := encodeUtf8_strip hvalid panel.eol
    rw [hpayload, Option.map_some] at hmessage
    refine ⟨_, _, hpayload, hmessage, fun line hparse => ?_⟩
    have hpasses : PassesToSession lib client c line _ _ :=
      passesToSession_of_sendMessage _ hcapturing hsession hsend hparse
    have hfind : ∀ hex id, (sendMessage hex id).find (ascii "id") = some (.string id) :=
      fun _ _ => rfl
    have hid : Utf8.Valid (commandIdOf w.nextCommandId) :=
      Json.validText_string.1 (Json.validText_of_find (lib.parse_validText hparse) (hfind _ _))
    exact ⟨hpasses, fun payload' hpasses' => passesToSession_unique hid hpasses' hpasses⟩
  · intro hinvalid
    rw [encodeUtf8_strip_none hinvalid] at hmessage
    exact hmessage

/-- A window that shows the state of a capturing engine. -/
def capturingWindow : MainWindow := { engineState := .string (ascii "capturing") }

/-- An engine that captures from a device that connects to it. -/
def receivingEngine : EngineController :=
  { capturing := true, hasConfig := true, session := some (.tcpServer { listenPort := 9000 }) }

/-- What `json.dumps` writes for the first command of a window. -/
def sentLine (payloadHex : String) : ByteString :=
  ascii "\x7b\"type\": \"command\", \"command\": \"send\", \"payload_hex\": \"" ++
    ascii payloadHex ++ ascii "\", \"id\": \"v1\"\x7d"

/-- The library on this line. -/
def sentLibrary (payloadHex : String)
    (h : (sendMessage (ascii payloadHex) (commandIdOf 1)).validText = true) :
    JsonLibrary :=
  .ofTable [(sentLine payloadHex, .ok (sendMessage (ascii payloadHex) (commandIdOf 1)))]
    (List.all_eq_true.2 fun entry hentry => by
      cases List.mem_singleton.1 hentry
      exact h)

theorem parse_sentLine {payloadHex : String}
    {h : (sendMessage (ascii payloadHex) (commandIdOf 1)).validText = true} :
    (sentLibrary payloadHex h).parse (sentLine payloadHex) =
      .ok (sendMessage (ascii payloadHex) (commandIdOf 1)) := by
  unfold sentLibrary JsonLibrary.ofTable
  dsimp only
  rw [List.lookup_cons_self]
  rfl

theorem typed_text_reaches_session_spaced :
    PassesToSession (sentLibrary "48690d0a" (by decide)) 1 receivingEngine (sentLine "48690d0a")
      (commandIdOf 1)
      [0x48, 0x69, 0x0D, 0x0A] := by
  have hvalid : ∀ ch ∈ codes " Hi ", ch.isValidChar := by decide
  have hencoded : encodeUtf8 (strip (codes " Hi ") ++ Eol.crlf.text) =
    some [0x48, 0x69, 0x0D, 0x0A] := by decide
  have hsent : (capturingWindow.sendData true { eol := .crlf, input := codes " Hi " }).message =
      some (sendMessage (ascii "48690d0a") (commandIdOf 1)) := by decide
  obtain ⟨payload, message, hpayload, hmessage, hpasses⟩ :=
    (typed_text_reaches_session capturingWindow { eol := .crlf, input := codes " Hi " }
      (sentLibrary "48690d0a" (by decide)) 1 receivingEngine _ rfl rfl ⟨0x48, by decide, rfl⟩ rfl
        rfl rfl).1 hvalid
  cases hpayload.symm.trans hencoded
  cases hmessage.symm.trans hsent
  exact (hpasses _ parse_sentLine).1

/-- A blank in front of the text does not reach the session. -/
theorem leading_blank_not_sent :
    encodeUtf8 (codes " A" ++ Eol.none.text) = some [0x20, 0x41] ∧
      (capturingWindow.sendData true { input := codes " A" }).message =
        some (sendMessage (ascii "41") (commandIdOf 1)) ∧
      (sentLibrary "41" (by decide)).parse (sentLine "41") =
        .ok (sendMessage (ascii "41") (commandIdOf 1)) ∧
      PassesToSession (sentLibrary "41" (by decide)) 1 receivingEngine (sentLine "41")
        (commandIdOf 1) [0x41] ∧
      ¬PassesToSession (sentLibrary "41" (by decide)) 1 receivingEngine (sentLine "41")
        (commandIdOf 1)
        [0x20, 0x41] := by
  have hpasses :
    PassesToSession (sentLibrary "41" (by decide)) 1 receivingEngine (sentLine "41") (commandIdOf 1)
      [0x41] := passesToSession_of_sendMessage [0x41] rfl rfl rfl parse_sentLine
  refine ⟨by decide, by decide, parse_sentLine, hpasses, ?_⟩
  intro hblank
  have hid : Utf8.Valid (commandIdOf 1) := by decide
  cases passesToSession_unique hid hpasses hblank

end PacketProbe
