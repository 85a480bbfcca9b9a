import PacketProbe.ByteStrings
import PacketProbe.Utf8

/-!
# JSON values and the JSON library

Values are those of `nlohmann::json`, which keeps signed, unsigned and floating-point
numbers apart. The library itself is a parameter: its parser with the two ways it fails,
the text of the exception that `dump` throws on text that is not UTF-8, and the casts
of numbers too large for the integer type asked for.
-/

namespace PacketProbe

/-- Floating-point numbers in a value are finite; an object has each name once. -/
inductive Json where
  | null
  | boolean (value : Bool)
  | numberInteger (value : Int64)
  | numberUnsigned (value : UInt64)
  | numberFloat (value : Rat)
  | string (text : ByteString)
  | array (items : List Json)
  | object (members : List (ByteString × Json))

namespace Json

/-- `find`; on anything but an object it finds nothing. -/
def find (value : Json) (key : ByteString) : Option Json :=
  match value with
  | .object members => members.lookup key
  | _ => none

def isNull : Json → Bool
  | .null => true
  | _ => false

def isObject : Json → Bool
  | .object _ => true
  | _ => false

/-- `type_name`. -/
def typeName : Json → ByteString
  | .null => ascii "null"
  | .boolean _ => ascii "boolean"
  | .numberInteger _ | .numberUnsigned _ | .numberFloat _ => ascii "number"
  | .string _ => ascii "string"
  | .array _ => ascii "array"
  | .object _ => ascii "object"

mutual

/-- Every string and every name in the value is UTF-8, so that `dump` does not throw. -/
def validText : Json → Bool
  | .string text => decide (Utf8.Valid text)
  | .array items => validItems items
  | .object members => validMembers members
  | .null => true
  | .boolean _ => true
  | .numberInteger _ => true
  | .numberUnsigned _ => true
  | .numberFloat _ => true

def validItems : List Json → Bool
  | [] => true
  | item :: items => item.validText && validItems items

def validMembers : List (ByteString × Json) → Bool
  | [] => true
  | (name, value) :: members =>
    decide (Utf8.Valid name) && value.validText && validMembers members

end

@[simp] theorem validText_string {text : ByteString} :
    (Json.string text).validText = true ↔ Utf8.Valid text := by
  simp [validText]

theorem validText_of_mem {members : List (ByteString × Json)} {name : ByteString} {value : Json}
    (h : validMembers members = true) (hmem : (name, value) ∈ members) :
    value.validText = true := by
  induction members with
  | nil => cases hmem
  | cons first rest ih =>
    obtain ⟨key, found⟩ := first
    simp only [validMembers, Bool.and_eq_true] at h
    rcases List.mem_cons.1 hmem with heq | hrest
    · obtain ⟨-, rfl⟩ := Prod.mk.inj heq
      exact h.1.2
    · exact ih h.2 hrest

theorem validText_of_find {value found : Json} {key : ByteString} (h : value.validText = true)
    (hfind : value.find key = some found) : found.validText = true := by
  cases value <;> simp only [find, reduceCtorEq] at hfind
  case object members =>
    obtain ⟨before, after, rfl, -⟩ := List.lookup_eq_some_iff.1 hfind
    have hmem : (key, found) ∈ before ++ (key, found) :: after := by simp
    exact validText_of_mem h hmem

mutual

def same : Json → Json → Bool
  | .null, .null => true
  | .boolean a, .boolean b => a == b
  | .numberInteger a, .numberInteger b => a == b
  | .numberUnsigned a, .numberUnsigned b => a == b
  | .numberFloat a, .numberFloat b => a == b
  | .string a, .string b => a == b
  | .array a, .array b => sameItems a b
  | .object a, .object b => sameMembers a b
  | _, _ => false

def sameItems : List Json → List Json → Bool
  | [], [] => true
  | a :: as, b :: bs => a.same b && sameItems as bs
  | _, _ => false

def sameMembers : List (ByteString × Json) → List (ByteString × Json) → Bool
  | [], [] => true
  | (name, a) :: as, (name', b) :: bs => name == name' && a.same b && sameMembers as bs
  | _, _ => false

end

mutual

theorem same_iff (a b : Json) : a.same b = true ↔ a = b := by
  cases a with
  | array items =>
    cases b with
    | array items' => simpa [same] using sameItems_iff items items'
    | _ => simp [same]
  | object members =>
    cases b with
    | object members' => simpa [same] using sameMembers_iff members members'
    | _ => simp [same]
  | _ => cases b <;> simp [same]

theorem sameItems_iff (as bs : List Json) : sameItems as bs = true ↔ as = bs := by
  cases as with
  | nil => cases bs <;> simp [sameItems]
  | cons a as =>
    cases bs with
    | nil => simp [sameItems]
    | cons b bs => simp [sameItems, same_iff a b, sameItems_iff as bs]

theorem sameMembers_iff (as bs : List (ByteString × Json)) :
    sameMembers as bs = true ↔ as = bs := by
  cases as with
  | nil => cases bs <;> simp [sameMembers]
  | cons a as =>
    obtain ⟨name, a⟩ := a
    cases bs with
    | nil => simp [sameMembers]
    | cons b bs => simp [sameMembers, same_iff a b.2, sameMembers_iff as bs, Prod.ext_iff]

end

instance : DecidableEq Json := fun a b => decidable_of_iff _ (same_iff a b)

/-- The fraction of a number is discarded. -/
def truncate (x : Rat) : ℤ := if 0 ≤ x then x.floor else x.ceil

end Json

/-- How `parse` fails: `parse_error` on malformed text, `out_of_range` with its text on a number
literal too large for a double. -/
inductive ParseFailure where
  | parseError
  | outOfRange (what : ByteString)
  deriving DecidableEq, Repr

/-- What the program relies on in the JSON library. -/
structure JsonLibrary where
  parse : ByteString → Except ParseFailure Json
  /-- Text that is not UTF-8 is malformed. -/
  parse_validText : ∀ {line value}, parse line = .ok value → value.validText = true
  dumpFailure : Json → ByteString
  dumpFailure_valid : ∀ value, Utf8.Valid (dumpFailure value)
  /-- Casts of numbers outside the range of the integer type. -/
  castOutOfUInt64 : Rat → UInt64
  castOutOfInt : Rat → Int32

namespace JsonLibrary

variable (lib : JsonLibrary)

/-- `dump` for sending: the value that goes out, or `type_error` 316. -/
def dump (value : Json) : Except StdException Json :=
  if value.validText then .ok value else .error ⟨.jsonTypeError, lib.dumpFailure value⟩

/-- `type_error` 302. -/
def numberExpected (value : Json) : StdException :=
  ⟨.jsonTypeError,
    ascii "[json.exception.type_error.302] type must be number, but is " ++ value.typeName⟩

/-- `get<std::uint64_t>` and `get<std::size_t>`: any number, cast. -/
def getUInt64 : Json → Except StdException UInt64
  | .numberUnsigned n => .ok n
  | .numberInteger n => .ok n.toUInt64
  | .numberFloat x =>
    let n := Json.truncate x
    .ok (if 0 ≤ n ∧ n.toNat < UInt64.size then UInt64.ofNat n.toNat else lib.castOutOfUInt64 x)
  | value => .error (numberExpected value)

/-- `get<int>`: any number or boolean, cast. -/
def getInt : Json → Except StdException Int32
  | .numberUnsigned n => .ok n.toUInt32.toInt32
  | .numberInteger n => .ok n.toInt32
  | .numberFloat x =>
    let n := Json.truncate x
    .ok (if Int32.minValue.toInt ≤ n ∧
      n ≤ Int32.maxValue.toInt then Int32.ofInt n else lib.castOutOfInt x)
  | .boolean b => .ok (if b then 1 else 0)
  | value => .error (numberExpected value)

/-- The library as far as it is needed on a few lines, each with the outcome of parsing it;
every other line is taken as malformed. -/
def ofTable (table : List (ByteString × Except ParseFailure Json))
    (h : table.all fun entry =>
      match entry.2 with
      | .ok value => value.validText
      | .error _ => true) : JsonLibrary where
  parse line := (table.lookup line).getD (.error .parseError)
  parse_validText := by
    intro line value hparse
    cases hline : table.lookup line with
    | none => simp [hline] at hparse
    | some outcome =>
      obtain ⟨before, after, rfl, -⟩ := List.lookup_eq_some_iff.1 hline
      have houtcome : outcome = .ok value := by simpa [hline] using hparse
      have hmem : (line, outcome) ∈ before ++ (line, outcome) :: after := by simp
      have hvalid := List.all_eq_true.1 h _ hmem
      rw [houtcome] at hvalid
      exact hvalid
  dumpFailure _ := ascii "[json.exception.type_error.316] invalid UTF-8 byte"
  dumpFailure_valid _ := by decide
  castOutOfUInt64 _ := 0
  castOutOfInt _ := 0

end JsonLibrary

end PacketProbe
