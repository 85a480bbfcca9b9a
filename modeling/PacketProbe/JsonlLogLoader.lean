import PacketProbe.JsonText
import PacketProbe.Utf8Decoding

/-!
# The log loader of the viewer

`load_packet_probe_jsonl`, with what it uses of Python: a file opened as UTF-8 text and read
line by line, `str.strip`, and `json.loads` for the texts of RFC 8259.
-/

namespace PacketProbe
open JsonText

/-! ### Text files -/

/-- Every line end is read as `\n`. -/
def universalNewlines : Text → Text
  | [] => []
  | [c] => [if c = 0x0D then 0x0A else c]
  | c :: d :: text =>
    if c = 0x0D then
      if d = 0x0A then 0x0A :: universalNewlines text else 0x0A :: universalNewlines (d :: text)
    else c :: universalNewlines (d :: text)

/-- The lines of a text, each with its end. -/
def splitLines : Text → List Text
  | [] => []
  | c :: text =>
    if c = 0x0A then [c] :: splitLines text
    else
      match splitLines text with
      | [] => [[c]]
      | line :: lines => (c :: line) :: lines

/-- The bytes of each line, with `\n` for its end. -/
def fileLines (file : List UInt8) : List (List UInt8) :=
  (splitLines (universalNewlines (file.map UInt8.toNat))).map (List.map UInt8.ofNat)

/-- The lines in front of the first one that is not UTF-8. -/
def decodedLines : List (List UInt8) → List Text
  | [] => []
  | line :: lines =>
    match Utf8.decode line with
    | none => []
    | some text => text :: decodedLines lines

/-- `str.isspace` of one character. -/
def isSpace (c : ℕ) : Bool :=
  (0x09 ≤ c && c ≤ 0x0D) || (0x1C ≤ c && c ≤ 0x20) || c = 0x85 || c = 0xA0 || c = 0x1680 ||
    (0x2000 ≤ c && c ≤ 0x200A) || c = 0x2028 || c = 0x2029 || c = 0x202F || c = 0x205F || c = 0x3000

def strip (line : Text) : Text := ((line.dropWhile isSpace).reverse.dropWhile isSpace).reverse

/-! ### Objects -/

/-- `json.loads`, with nothing for a `JSONDecodeError`. A byte order mark is not accepted. -/
def jsonLoads (text : Text) : Option Value := if text.head? = some 0xFEFF then none else parse text

/-- `obj.get("type") == "metadata"`. -/
def isMetadata (members : List (Text × Value)) : Bool :=
  match members.lookup (codes "type") with
  | some (.string text) => text == codes "metadata"
  | _ => false

structure JsonlLoadResult where
  metadata : Option Value := none
  events : List Value := []
  malformedLines : List (ℕ × Text) := []

/-- What `json.loads` raises: a `JSONDecodeError` for malformed text, but also a `ValueError` for an
integer of too many digits and a `RecursionError` for too deep nesting. -/
inductive LoadsError where
  | jsonDecode | value | recursion
  deriving DecidableEq

inductive LoadError where
  | fileNotFound | unicodeDecode
  | loads (error : LoadsError)
  deriving DecidableEq

section Loads

variable (loads : Text → Except LoadsError Value)

/-- One turn of the loop over the lines. Only a `JSONDecodeError` is caught. -/
def loadLineWith (result : JsonlLoadResult) (lineNum : ℕ) (line : Text) :
    Except LoadError JsonlLoadResult :=
  let lineStr := strip line
  let malformed := { result with malformedLines := result.malformedLines ++ [(lineNum, lineStr)] }
  if lineStr = [] then .ok result
  else
    match loads lineStr with
    | .ok (.object members) =>
      if isMetadata members then
        match result.metadata with
        | none => .ok { result with metadata := some (.object members) }
        | some _ => .ok result
      else .ok { result with events := result.events ++ [.object members] }
    | .ok _ => .ok malformed
    | .error .jsonDecode => .ok malformed
    | .error error => .error (.loads error)

/-- The loop, from the line of this number on. -/
def loadLinesWith (result : JsonlLoadResult) (lineNum : ℕ) :
    List Text → Except LoadError JsonlLoadResult
  | [] => .ok result
  | line :: lines =>
    match loadLineWith loads result lineNum line with
    | .error error => .error error
    | .ok result => loadLinesWith result (lineNum + 1) lines

/-- `load_packet_probe_jsonl`. Reading on raises a `UnicodeDecodeError`, which nothing catches, at
the first part of the file that is not UTF-8. How many lines the loop has been through by then
depends on the buffer. -/
def loadFileWith (buffered : ℕ) (file : Option (List UInt8)) : Except LoadError JsonlLoadResult :=
  match file with
  | none => .error .fileNotFound
  | some bytes =>
    match Utf8.decode bytes with
    | none =>
      match loadLinesWith loads {} 1 ((decodedLines (fileLines bytes)).take buffered) with
      | .error error => .error error
      | .ok _ => .error .unicodeDecode
    | some text => loadLinesWith loads {} 1 (splitLines (universalNewlines text))

end Loads

/-- The `json.loads` of RFC 8259, for numbers of any length and values of any depth. -/
def rfcLoads (text : Text) : Except LoadsError Value :=
  match jsonLoads text with
  | none => .error .jsonDecode
  | some value => .ok value

/-- The loader with the `json.loads` of RFC 8259. -/
def loadPacketProbeJsonl (file : Option (List UInt8)) : Except LoadError JsonlLoadResult :=
  loadFileWith rfcLoads 0 file

/-! ### Lines that are read back -/

variable {line text : Text} {lines : List Text} {c : ℕ}

/-- A text of lines without other line ends is read line by line. -/
def WithoutEnds (line : Text) : Prop := ∀ c ∈ line, c ≠ 0x0A ∧ c ≠ 0x0D

theorem universalNewlines_of_not_mem (h : ∀ c ∈ text, c ≠ 0x0D) :
    universalNewlines text = text := by
  induction text with
  | nil => rfl
  | cons c text ih =>
    have hc := h c List.mem_cons_self
    have htext := ih fun d hd => h d (List.mem_cons_of_mem _ hd)
    cases text with
    | nil => rw [universalNewlines, if_neg hc]
    | cons d text => rw [universalNewlines, if_neg hc, htext]

theorem splitLines_append (h : WithoutEnds line) (text : Text) :
    splitLines (line ++ 0x0A :: text) = (line ++ [0x0A]) :: splitLines text := by
  induction line with
  | nil => exact if_pos rfl
  | cons c line ih =>
    have hc := (h c List.mem_cons_self).1
    rw [List.cons_append, splitLines, if_neg hc, ih fun d hd => h d (List.mem_cons_of_mem _ hd)]
    rfl

theorem splitLines_lines (h : ∀ line ∈ lines, WithoutEnds line) :
    splitLines (lines.flatMap (· ++ [0x0A])) = lines.map (· ++ [0x0A]) := by
  induction lines with
  | nil => rfl
  | cons line lines ih =>
    rw [List.flatMap_cons, List.append_assoc, List.singleton_append, List.map_cons,
      splitLines_append (h line List.mem_cons_self), ih fun l hl => h l (List.mem_cons_of_mem _ hl)]

/-- A line between characters that are no spaces keeps all its characters. -/
theorem strip_line {first last : ℕ} (hfirst : isSpace first = false) (hlast : isSpace last = false)
    (middle : Text) : strip (first :: middle ++ [last] ++ [0x0A]) = first :: middle ++ [last] := by
  have hfirst' : ¬ isSpace first = true := by rw [hfirst]; exact Bool.false_ne_true
  have hlast' : ¬ isSpace last = true := by rw [hlast]; exact Bool.false_ne_true
  unfold strip
  rw [List.cons_append, List.cons_append, List.dropWhile_cons_of_neg hfirst', ← List.cons_append,
    ← List.cons_append, List.reverse_append, List.reverse_append]
  change ((0x0A :: last :: (first :: middle).reverse).dropWhile isSpace).reverse = _
  rw [List.dropWhile_cons_of_pos rfl, List.dropWhile_cons_of_neg hlast', List.reverse_cons,
    List.reverse_reverse]

end PacketProbe
