import Mathlib.Data.Int.Notation
import Mathlib.Data.Nat.Notation
import Mathlib.Data.List.Basic

/-!
# Byte strings and exceptions

A `std::string` is the list of its bytes, whatever their encoding. Literals of the
source are written with `ascii`. The `<cctype>` functions are those of the default
C locale, the only one the program runs in.
-/

namespace PacketProbe

/-- `std::vector<std::uint8_t>`. -/
abbrev Bytes := List UInt8

/-- `std::string`. -/
abbrev ByteString := List UInt8

/-- The bytes of an ASCII literal. -/
def ascii (text : String) : ByteString := text.toList.map fun ch => ch.toNat.toUInt8

/-- `std::to_string` of an unsigned integer. -/
def decimal (n : ℕ) : ByteString := (Nat.toDigits 10 n).map fun ch => ch.toNat.toUInt8

/-! ### Digits -/

theorem toNat_digit {ch : Char} (h : ch.isDigit = true) : 48 ≤ ch.toNat ∧ ch.toNat ≤ 57 := by
  simp only [Char.isDigit, Bool.and_eq_true, decide_eq_true_eq, UInt32.le_iff_toNat_le] at h
  exact h

theorem toNat_digitByte {ch : Char} (h : ch.isDigit = true) :
    ch.toNat.toUInt8.toNat = ch.toNat := by
  have hrange := toNat_digit h
  simp only [Nat.toUInt8_eq, UInt8.toNat_ofNat']
  omega

theorem isDigit_of_mem_digits {n : ℕ} {ch : Char} (h : ch ∈ Nat.toDigits 10 n) :
    ch.isDigit = true :=
  Nat.isDigit_of_mem_toDigits (by decide) (by decide) h

/-- A digit of a decimal text. -/
theorem decimalDigit {n : ℕ} {ch : UInt8} (h : ch ∈ decimal n) : 48 ≤ ch ∧ ch ≤ 57 := by
  obtain ⟨c, hc, rfl⟩ := List.mem_map.1 h
  have hdigit := isDigit_of_mem_digits hc
  rw [UInt8.le_iff_toNat_le, UInt8.le_iff_toNat_le, toNat_digitByte hdigit]
  exact toNat_digit hdigit

theorem decimal_ne_nil (n : ℕ) : decimal n ≠ [] := by
  unfold decimal
  rw [Ne, List.map_eq_nil_iff]
  exact Nat.toDigits_ne_nil

theorem decimal_injective : Function.Injective decimal := by
  intro m n h
  -- A digit is below 128, so that its byte gives it back.
  have hdigits : ∀ k, (decimal k).map (fun b => Char.ofNat b.toNat) = Nat.toDigits 10 k := by
    intro k
    rw [decimal, List.map_map]
    conv_rhs => rw [← List.map_id (Nat.toDigits 10 k)]
    apply List.map_congr_left
    intro ch hch
    change Char.ofNat ch.toNat.toUInt8.toNat = ch
    rw [toNat_digitByte (isDigit_of_mem_digits hch), Char.ofNat_toNat]
  have hsame : Nat.toDigits 10 m = Nat.toDigits 10 n := by rw [← hdigits, ← hdigits, h]
  have hvalue := congrArg (Nat.ofDigitChars 10 · 0) hsame
  simpa using hvalue

/-- `std::to_string` of a signed integer. -/
def signedDecimal : ℤ → ByteString
  | Int.ofNat n => decimal n
  | Int.negSucc n => ascii "-" ++ decimal (n + 1)

/-- `std::tolower`. -/
def tolower (ch : UInt8) : UInt8 := if 65 ≤ ch ∧ ch ≤ 90 then ch + 32 else ch

/-- `std::isspace`: blank, `\t`, `\n`, `\v`, `\f` and `\r`. -/
def isspace (ch : UInt8) : Bool := ch == 32 || (9 ≤ ch && ch ≤ 13)

def lowercase (value : ByteString) : ByteString := value.map tolower

/-- The exception classes the program distinguishes, all derived from `std::exception`. -/
inductive ExceptionClass where
  | invalidArgument | outOfRange | runtimeError | logicError | jsonTypeError | other
  deriving DecidableEq, Repr

/-- A thrown `std::exception` and its `what()` text. -/
structure StdException where
  kind : ExceptionClass
  what : ByteString
  deriving DecidableEq, Repr

/-- `throw std::invalid_argument(text)`. -/
def invalidArgument (text : ByteString) : StdException := ⟨.invalidArgument, text⟩

/-- `throw std::runtime_error(text)`. -/
def runtimeError (text : ByteString) : StdException := ⟨.runtimeError, text⟩

end PacketProbe
