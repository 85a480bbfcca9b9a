import Mathlib.Data.Int.Notation
import Mathlib.Data.List.Basic

/-!
# JSON text

The values that the grammar of RFC 8259 gives a text of code points, read by a scanner that
goes over the text once. Every scanner returns what it read and the rest of the text.
-/

namespace JsonText

/-- Code points. -/
abbrev Text := List ℕ

/-- The code points of an ASCII literal. -/
def codes (text : String) : Text := text.toList.map Char.toNat

/-- Numbers without fraction and exponent are integers of any size; the others are kept as
they are written. -/
inductive Value where
  | null
  | boolean (value : Bool)
  | integer (value : ℤ)
  | float (numeral : Text)
  | string (text : Text)
  | array (items : List Value)
  | object (members : List (Text × Value))

def isBlank (c : ℕ) : Bool := c = 0x20 || c = 0x09 || c = 0x0A || c = 0x0D

def skipBlanks (text : Text) : Text := text.dropWhile isBlank

/-! ### Strings -/

def hexValue (c : ℕ) : Option ℕ :=
  if 0x30 ≤ c ∧ c ≤ 0x39 then some (c - 0x30)
  else if 0x41 ≤ c ∧ c ≤ 0x46 then some (c - 0x37)
  else if 0x61 ≤ c ∧ c ≤ 0x66 then some (c - 0x57)
  else none

def hexUnit (a b c d : ℕ) : Option ℕ := do
  some ((← hexValue a) * 0x1000 + (← hexValue b) * 0x100 + (← hexValue c) * 0x10 + (← hexValue d))

/-- The code point of a surrogate pair. -/
def joinSurrogates (high low : ℕ) : Option ℕ :=
  if 0xD800 ≤ high ∧ high < 0xDC00 ∧ 0xDC00 ≤ low ∧ low < 0xE000 then
    some (0x10000 + (high - 0xD800) * 0x400 + (low - 0xDC00))
  else none

/-- What stands behind the backslash of an escape of one character. -/
def unescape (c : ℕ) : Option ℕ :=
  if c = 0x22 ∨ c = 0x5C ∨ c = 0x2F then some c
  else if c = 0x62 then some 0x08
  else if c = 0x66 then some 0x0C
  else if c = 0x6E then some 0x0A
  else if c = 0x72 then some 0x0D
  else if c = 0x74 then some 0x09
  else none

def prepend (text : Text) (scanned : Text × Text) : Text × Text := (text ++ scanned.1, scanned.2)

/-- The rest of a string behind its opening quotation mark. A unit that was escaped waits for
a second one that makes up a pair with it; otherwise it stays as it is. -/
def scanString (unit : Option ℕ) : Text → Option (Text × Text)
  | [] => none
  | c :: text =>
    if c = 0x22 then some (unit.toList, text)
    else if c < 0x20 then none
    else if c ≠ 0x5C then (scanString none text).map (prepend (unit.toList ++ [c]))
    else
      match text with
      | 0x75 :: a :: b :: c :: d :: text =>
        match hexUnit a b c d with
        | none => none
        | some next =>
          match unit.bind fun high => joinSurrogates high next with
          | some code => (scanString none text).map (prepend [code])
          | none => (scanString (some next) text).map (prepend unit.toList)
      | c :: text =>
        match unescape c with
        | some code => (scanString none text).map (prepend (unit.toList ++ [code]))
        | none => none
      | [] => none

/-! ### Numbers -/

def isDigit (c : ℕ) : Bool := decide (0x30 ≤ c ∧ c ≤ 0x39)

def digitsValue (digits : Text) : ℕ := digits.foldl (fun n c => 10 * n + (c - 0x30)) 0

/-- No zero in front of other digits. -/
def scanInteger : Text → Option (Text × Text)
  | [] => none
  | c :: text =>
    if c = 0x30 then some ([c], text)
    else if isDigit c then some (c :: text.takeWhile isDigit, text.dropWhile isDigit)
    else none

/-- Digits behind a mark; without digits the mark is not read. -/
def scanMarked (mark : Text) (text rest : Text) : Text × Text :=
  if rest.takeWhile isDigit = [] then ([], text)
  else (mark ++ rest.takeWhile isDigit, rest.dropWhile isDigit)

def scanFraction : Text → Text × Text
  | [] => ([], [])
  | c :: text => if c = 0x2E then scanMarked [c] (c :: text) text else ([], c :: text)

def scanExponent : Text → Text × Text
  | [] => ([], [])
  | c :: text =>
    if c = 0x65 ∨ c = 0x45 then
      match text with
      | [] => ([], [c])
      | sign :: rest =>
        if sign = 0x2B ∨ sign = 0x2D then scanMarked [c, sign] (c :: text) rest
        else scanMarked [c] (c :: text) text
    else ([], c :: text)

def scanUnsigned (minus : Text) (sign : ℤ) (text : Text) : Option (Value × Text) := do
  let (digits, text) ← scanInteger text
  let (fraction, text) := scanFraction text
  let (exponent, text) := scanExponent text
  if fraction = [] ∧ exponent = [] then some (.integer (sign * digitsValue digits), text)
  else some (.float (minus ++ digits ++ fraction ++ exponent), text)

def scanNumber : Text → Option (Value × Text)
  | [] => none
  | c :: text => if c = 0x2D then scanUnsigned [c] (-1) text else scanUnsigned [] 1 (c :: text)

/-! ### Values -/

/-- Of several members of one name the last one stays, in the place of the first. -/
def insertMember (members : List (Text × Value)) (member : Text × Value) : List (Text × Value) :=
  if member.1 ∈ members.map Prod.fst then
    members.map fun old => if old.1 = member.1 then member else old
  else members ++ [member]

def ofMembers (members : List (Text × Value)) : List (Text × Value) := members.foldl insertMember []

/-- `null`, `true` and `false`. -/
def scanLiteral (text : Text) : Option (Value × Text) :=
  if (codes "null").isPrefixOf text then some (.null, text.drop 4)
  else if (codes "true").isPrefixOf text then some (.boolean true, text.drop 4)
  else if (codes "false").isPrefixOf text then some (.boolean false, text.drop 5)
  else none

mutual

/-- The fuel bounds the nesting and the number of the calls; twice the length is enough. -/
def scanValue : ℕ → Text → Option (Value × Text)
  | 0, _ | _, [] => none
  | fuel + 1, c :: text =>
    if c = 0x22 then (scanString none text).map fun (string, text) => (.string string, text)
    else if c = 0x7B then
      if (skipBlanks text).head? = some 0x7D then some (.object [], (skipBlanks text).tail)
      else (scanMembers fuel (skipBlanks text)).map fun (members, text) =>
        (.object (ofMembers members), text)
    else if c = 0x5B then
      if (skipBlanks text).head? = some 0x5D then some (.array [], (skipBlanks text).tail)
      else (scanItems fuel (skipBlanks text)).map fun (items, text) => (.array items, text)
    else (scanLiteral (c :: text)).or (scanNumber (c :: text))

/-- One item and those behind it, up to the end of the array. -/
def scanItems : ℕ → Text → Option (List Value × Text)
  | 0, _ => none
  | fuel + 1, text => do
    let (item, text) ← scanValue fuel text
    match skipBlanks text with
    | [] => none
    | c :: text =>
      if c = 0x5D then some ([item], text)
      else if c = 0x2C then do
        let (items, text) ← scanItems fuel (skipBlanks text)
        some (item :: items, text)
      else none

/-- One member and those behind it, up to the end of the object. -/
def scanMembers : ℕ → Text → Option (List (Text × Value) × Text)
  | 0, _ | _, [] => none
  | fuel + 1, c :: text =>
    if c ≠ 0x22 then none
    else do
      let (name, text) ← scanString none text
      match skipBlanks text with
      | [] => none
      | c :: text =>
        if c ≠ 0x3A then none
        else do
          let (value, text) ← scanValue fuel (skipBlanks text)
          match skipBlanks text with
          | [] => none
          | c :: text =>
            if c = 0x7D then some ([(name, value)], text)
            else if c = 0x2C then do
              let (members, text) ← scanMembers fuel (skipBlanks text)
              some ((name, value) :: members, text)
            else none

end

/-- The value of a text with nothing but blanks around it. -/
def parse (text : Text) : Option Value := do
  let (value, rest) ← scanValue (2 * text.length + 1) (skipBlanks text)
  if skipBlanks rest = [] then some value else none

end JsonText
