import PacketProbe.ByteStrings

/-!
# Numbers, serial settings and hex input

The parsers of option values, which are shared by the command line and the IPC commands.
-/

namespace PacketProbe

/-! ### Numbers -/

/-- Value of a digit in a base up to 36. -/
def digitValue (base : ℕ) (ch : UInt8) : Option ℕ :=
  let value :=
    if 48 ≤ ch ∧ ch ≤ 57 then some (ch.toNat - 48)
    else if 97 ≤ ch ∧ ch ≤ 122 then some (ch.toNat - 87)
    else if 65 ≤ ch ∧ ch ≤ 90 then some (ch.toNat - 55)
    else none
  value.filter (· < base)

/-- Whether `0x` or `0X` stands at the front. -/
def startsWith0x : ByteString → Bool
  | zero :: x :: _ => zero == 48 && (x == 120 || x == 88)
  | _ => false

/-- `std::stoul`: the number read and how many bytes were read. Blanks and a sign may
stand in front, in base 16 also `0x`; a minus sign negates modulo `2 ^ 64`. -/
def stoul (value : ByteString) (base : ℕ) : Except StdException (UInt64 × ℕ) :=
  let unsignedPart := value.dropWhile isspace
  let negative := unsignedPart.head? = some 45
  let signed := negative ∨ unsignedPart.head? = some 43
  let digitPart := if signed then unsignedPart.tail else unsignedPart
  let hexDigitBehind := ((digitPart.drop 2).head?.bind (digitValue 16)).isSome
  let digitPart :=
    if base = 16 ∧ startsWith0x digitPart ∧ hexDigitBehind then digitPart.drop 2 else digitPart
  let digits := (digitPart.map (digitValue base)).takeWhile Option.isSome
  let number := digits.foldl (fun n digit => n * base + digit.getD 0) 0
  let parsed := value.length - digitPart.length + digits.length
  if digits = [] then .error (invalidArgument (ascii "stoul"))
  else if UInt64.size ≤ number then .error ⟨.outOfRange, ascii "stoul"⟩
  else .ok (if negative then 0 - UInt64.ofNat number else UInt64.ofNat number, parsed)

def invalidValue (name : String) (value : ByteString) : StdException :=
  invalidArgument (ascii "invalid " ++ ascii name ++ ascii " value: " ++ value)

def parseUnsigned (value : ByteString) (name : String) : Except StdException UInt64 := do
  let (number, parsed) ← stoul value 10
  if parsed ≠ value.length then .error (invalidValue name value) else .ok number

/-! ### Serial settings -/

inductive SerialParity where
  | none | odd | even
  deriving DecidableEq, Repr

inductive SerialFlowControl where
  | none | software | hardware
  deriving DecidableEq, Repr

/-- `to_string(SerialParity)`. -/
def SerialParity.toText : SerialParity → ByteString
  | .none => ascii "none"
  | .odd => ascii "odd"
  | .even => ascii "even"

/-- `to_string(SerialFlowControl)`. -/
def SerialFlowControl.toText : SerialFlowControl → ByteString
  | .none => ascii "none"
  | .software => ascii "software"
  | .hardware => ascii "hardware"

def parseSerialParity (value : ByteString) : Except StdException SerialParity :=
  let normalized := lowercase value
  if normalized = ascii "none" then .ok .none
  else if normalized = ascii "odd" then .ok .odd
  else if normalized = ascii "even" then .ok .even
  else .error (invalidValue "--parity" value)

def parseSerialFlowControl (value : ByteString) : Except StdException SerialFlowControl :=
  let normalized := lowercase value
  if normalized = ascii "none" then .ok .none
  else if normalized = ascii "software" then .ok .software
  else if normalized = ascii "hardware" then .ok .hardware
  else .error (invalidValue "--flow-control" value)

def parseSerialDataBits (value : ByteString) : Except StdException UInt8 := do
  let bits ← parseUnsigned value "--data-bits"
  if bits < 5 ∨ bits > 8 then .error (invalidValue "--data-bits" value) else .ok bits.toUInt8

def parseSerialStopBits (value : ByteString) : Except StdException UInt8 := do
  let bits ← parseUnsigned value "--stop-bits"
  if bits ≠ 1 ∧ bits ≠ 2 then .error (invalidValue "--stop-bits" value) else .ok bits.toUInt8

def parseSerialBaudrate (value : ByteString) : Except StdException UInt32 := do
  let baudrate ← parseUnsigned value "--baudrate"
  if baudrate = 0 ∨ baudrate > 4000000 then .error (invalidValue "--baudrate" value)
  else .ok baudrate.toUInt32

/-! ### Delimiters -/

def parseHexByte (byte : ByteString) : Except StdException UInt8 :=
  if byte.length ≠ 2 then
    .error (invalidArgument (ascii "hex bytes must contain exactly two digits"))
  else do
    let (value, parsed) ← stoul byte 16
    if parsed ≠ byte.length ∨ value > 0xFF then
      .error (invalidArgument (ascii "invalid hex byte: " ++ byte))
    else .ok value.toUInt8

/-- The loop over pairs of digits. -/
def parseHexPairs : ByteString → Except StdException Bytes
  | high :: low :: compact => do
    let byte ← parseHexByte [high, low]
    let bytes ← parseHexPairs compact
    .ok (byte :: bytes)
  | _ => .ok []

def parseDelimiterBytes (value : ByteString) : Except StdException Bytes :=
  let named := lowercase value
  if named = ascii "crlf" then .ok [0x0D, 0x0A]
  else if named = ascii "lf" then .ok [0x0A]
  else
    let compact := value.filter fun ch => !isspace ch
    if compact = [] ∨ compact.length % 2 ≠ 0 then
      .error (invalidArgument (ascii "--delimiter requires hex bytes, LF, or CRLF"))
    else parseHexPairs compact

/-! ### Payloads -/

/-- An upper-case hex digit. -/
def hexDigit (n : ℕ) : UInt8 := if n < 10 then UInt8.ofNat (48 + n) else UInt8.ofNat (55 + n)

def toHex (payload : Bytes) (spaced : Bool) : ByteString :=
  let pairs := payload.map fun byte => [hexDigit (byte.toNat / 16), hexDigit (byte.toNat % 16)]
  if spaced then [32].intercalate pairs else pairs.flatten

def isSeparator (ch : UInt8) : Bool := isspace ch || ch == 58 || ch == 45

/-- `hex_value`, with no value for `-1`. -/
def hexValue (ch : UInt8) : Option ℕ :=
  if 48 ≤ ch ∧ ch ≤ 57 then some (ch.toNat - 48)
  else if 97 ≤ ch ∧ ch ≤ 102 then some (10 + ch.toNat - 97)
  else if 65 ≤ ch ∧ ch ≤ 70 then some (10 + ch.toNat - 65)
  else none

def hexError (column : ℕ) (message : String) : StdException :=
  invalidArgument (ascii "invalid hex input at column " ++ decimal column ++ ascii ": " ++
    ascii message)

/-- Behind a byte: the end, a separator, another prefix, or another digit. -/
def continuesHex : ByteString → Bool
  | [] => true
  | ch :: rest => isSeparator ch || startsWith0x (ch :: rest) || (hexValue ch).isSome

/-- The loop of `parse_hex_payload` from an index on. -/
def parseHexFrom (index : ℕ) (line : ByteString) : Except StdException Bytes :=
  match line with
  | [] => .ok []
  | ch :: rest =>
    if isSeparator ch then parseHexFrom (index + 1) rest
    else
      let column := index + 1
      let skipped := if startsWith0x (ch :: rest) then 2 else 0
      match hdigits : (ch :: rest).drop skipped with
      | high :: low :: rest' =>
        match hexValue high, hexValue low with
        | some h, some l =>
          have hshorter : rest'.length < rest.length + 1 := by
            have hlength := congrArg List.length hdigits
            simp only [List.length_drop, List.length_cons] at hlength
            omega
          let index := index + skipped + 2
          if continuesHex rest' then
            (parseHexFrom index rest').map (UInt8.ofNat (h <<< 4 ||| l) :: ·)
          else .error (hexError (index + 1) "expected hex digit or separator")
        | _, _ => .error (hexError column "expected two hex digits")
      | _ => .error (hexError column "expected two hex digits")
termination_by line.length
decreasing_by
  · exact Nat.lt_succ_self rest.length
  · exact hshorter

def parseHexPayload (line : ByteString) : Except StdException Bytes := parseHexFrom 0 line

end PacketProbe
