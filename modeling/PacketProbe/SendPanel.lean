import PacketProbe.EventLines
import PacketProbe.JsonDumps
import PacketProbe.JsonlLogLoader
import PacketProbe.MainWindow

/-!
# The send panel of a viewer

`send_data` with `_clean_hex_input`, on the text of the Send box as Python sees it.
-/

namespace PacketProbe
open JsonText

/-! ### Hex input -/

/-- What the regular expression `(0x|0X|[\s:\-])` makes of a text from left to right: its
matches, and the characters between them. -/
inductive HexToken where
  | mark (mark : HexMark)
  | gap (c : ℕ)
  | kept (c : ℕ)

/-- `0x` or `0X`, where it stands. -/
def markOf (c d : ℕ) : Option HexMark :=
  if c = 0x30 ∧ d = 0x78 then some .lower
  else if c = 0x30 ∧ d = 0x58 then some .upper
  else none

/-- `[\s:\-]`. -/
def isGap (c : ℕ) : Bool := isSpace c || c == 0x3A || c == 0x2D

def singleToken (c : ℕ) : HexToken := if isGap c then .gap c else .kept c

def hexTokens : Text → List HexToken
  | [] => []
  | [c] => [singleToken c]
  | c :: d :: text =>
    match markOf c d with
    | some mark => .mark mark :: hexTokens text
    | none => singleToken c :: hexTokens (d :: text)

def HexToken.kept? : HexToken → Option ℕ
  | .kept c => some c
  | _ => none

/-- What is left when the matches are deleted. -/
def keptCodes (tokens : List HexToken) : Text := tokens.filterMap HexToken.kept?

/-- `re.sub` with an empty replacement. -/
def removeMatches (text : Text) : Text := keptCodes (hexTokens text)

/-- `str.lower`, as far as hex digits go: no other character becomes one. -/
def lowerCode (c : ℕ) : ℕ := if 0x41 ≤ c ∧ c ≤ 0x5A then c + 0x20 else c

def hexCharacters : Text := codes "0123456789abcdefABCDEF"

/-- Nothing stands for `None`, behind the warning. -/
def cleanHexInput (text : Text) : Option Text :=
  let cleanHex := (removeMatches text).map lowerCode
  if cleanHex = [] ∨ (cleanHex.all fun c => hexCharacters.contains c) = false ∨
    cleanHex.length % 2 ≠ 0 then none
  else some cleanHex

/-! ### Sending -/

/-- The entries of the box for the line end. -/
inductive Eol where
  | none | lf | cr | crlf

def Eol.text : Eol → Text
  | .none => []
  | .lf => [0x0A]
  | .cr => [0x0D]
  | .crlf => [0x0D, 0x0A]

/-- `encode("utf-8")`: a surrogate has no encoding. -/
def encodeUtf8 (text : Text) : Option Bytes :=
  if ∀ ch ∈ text, ch.isValidChar then some
    (text.flatMap fun ch => String.utf8EncodeChar (Char.ofNat ch)) else none

/-- The text of the `UnicodeEncodeError`, which names the first surrogates that stand together. -/
def encodeFailure (text : Text) : String :=
  let start := (text.takeWhile Nat.isValidChar).length
  let surrogates := (text.drop start).takeWhile fun ch => !Nat.isValidChar ch
  let place := match surrogates with
    | [ch] =>
      " '" ++ String.ofList ((unitEscape ch).map Char.ofNat) ++ "' in position " ++ Nat.repr start
    | _ => "s in position " ++ Nat.repr start ++ "-" ++ Nat.repr (start + surrogates.length - 1)
  "'utf-8' codec can't encode character" ++ place ++ ": surrogates not allowed"

/-- The boxes that `send_data` opens, each with its title and its text. -/
inductive MessageBox where
  | warning (title text : String)
  | critical (title text : String)

structure SendPanel where
  inHex : Bool := false
  eol : Eol := .none
  input : Text := []

/-- What a press of the Send button leaves behind, with the command it sends. -/
structure SendPressed where
  window : MainWindow
  panel : SendPanel
  message : Option Json := none
  box : Option MessageBox := none

def sendMessage (payloadHex id : ByteString) : Json :=
  .object [(ascii "command", .string (ascii "send")), (ascii "id", .string id),
    (ascii "payload_hex", .string payloadHex), (ascii "type", .string (ascii "command"))]

namespace MainWindow

/-- The command is sent and noted as pending, and the input is cleared. -/
def transmit (panel : SendPanel) (payloadHex : ByteString) (w : MainWindow) : SendPressed :=
  let id := commandIdOf w.nextCommandId
  { window := { w with
      nextCommandId := w.nextCommandId + 1
      pendingCommands := w.pendingCommands.insert id .send }
    panel := { panel with input := [] }
    message := some (sendMessage payloadHex id) }

def sendData (connected : Bool) (panel : SendPanel) (w : MainWindow) : SendPressed :=
  if connected = false then
    { window := w, panel,
      box := some (.warning "Warning" "Cannot send data: not connected to the engine.") }
  else if isCapturing w.engineState = false then
    { window := w, panel,
      box := some (.warning "Warning" "Cannot send data: capture is not running.") }
  else
    let text := strip panel.input
    if text = [] then { window := w, panel }
    else if panel.inHex = true then
      match cleanHexInput text with
      | some cleanHex => w.transmit panel (bytesOf cleanHex)
      | none =>
        let hint := "Please enter a valid hex string (e.g. AA BB CC or AABBCC).\n" ++
          "Note: Each byte must have two hex digits."
        { window := w, panel, box := some (.warning "Invalid Hex" hint) }
    else
      let raw := text ++ panel.eol.text
      match encodeUtf8 raw with
      | some payload => w.transmit panel (lowercase (toHex payload false))
      | none =>
        { window := w, panel,
          box := some (.critical "Error" ("Failed to encode text: " ++ encodeFailure raw)) }

end MainWindow

end PacketProbe
