import Mathlib.Data.List.TakeWhile
import PacketProbe.CommandLine

/-!
# The configuration round trip

The options that the command line or a `configure` command can produce are carried through
JSON without loss. The serial settings are read back by parsers that check them again, so
that what both front ends produce must lie in the ranges of these parsers.
-/

namespace PacketProbe

/-! ### Numbers as text -/

theorem digitValue_of_digit {ch : UInt8} (h : 48 ≤ ch ∧ ch ≤ 57) :
    digitValue 10 ch = some (ch.toNat - 48) := by
  have hlt : ch.toNat - 48 < 10 := by
    have := UInt8.le_iff_toNat_le.1 h.2
    simp only [UInt8.reduceToNat] at this
    omega
  simp [digitValue, h, hlt]

/-- The fold over the digits of a decimal text is that over its characters. -/
theorem foldl_digitValue (digits : List Char) (hdigits : ∀ c ∈ digits, c.isDigit = true)
    (init : ℕ) :
    ((digits.map fun c => c.toNat.toUInt8).map (digitValue 10)).foldl
        (fun n digit => n * 10 + digit.getD 0) init = Nat.ofDigitChars 10 digits init := by
  induction digits generalizing init with
  | nil => rfl
  | cons c digits ih =>
    have hdigit := hdigits c List.mem_cons_self
    have hbyte := toNat_digitByte hdigit
    have hrange : 48 ≤ c.toNat.toUInt8 ∧ c.toNat.toUInt8 ≤ 57 := by
      rw [UInt8.le_iff_toNat_le, UInt8.le_iff_toNat_le, hbyte]
      exact toNat_digit hdigit
    rw [Nat.ofDigitChars_cons, List.map_cons, List.map_cons, List.foldl_cons,
      digitValue_of_digit hrange, hbyte, ih fun c hc => hdigits c (List.mem_cons_of_mem _ hc)]
    simp only [Option.getD_some, Char.reduceToNat]
    rw [Nat.mul_comm]

theorem digit_not_isspace {ch : UInt8} (h : 48 ≤ ch ∧ ch ≤ 57) : isspace ch = false := by
  have hlow := UInt8.le_iff_toNat_le.1 h.1
  simp only [UInt8.reduceToNat] at hlow
  simp only [isspace, Bool.or_eq_false_iff, Bool.and_eq_false_iff, beq_eq_false_iff_ne, ne_eq,
    decide_eq_false_iff_not, ← UInt8.toNat_inj, UInt8.le_iff_toNat_le, UInt8.reduceToNat]
  omega

theorem digit_ne_sign {ch : UInt8} (h : 48 ≤ ch ∧ ch ≤ 57) : ch ≠ 45 ∧ ch ≠ 43 := by
  have hlow := UInt8.le_iff_toNat_le.1 h.1
  simp only [UInt8.reduceToNat] at hlow
  simp only [ne_eq, ← UInt8.toNat_inj, UInt8.reduceToNat]
  omega

theorem takeWhile_digits (n : ℕ) :
    ((decimal n).map (digitValue 10)).takeWhile Option.isSome =
      (decimal n).map (digitValue 10) := by
  apply List.takeWhile_eq_self_iff.2
  intro digit hdigit
  obtain ⟨ch, hch, rfl⟩ := List.mem_map.1 hdigit
  rw [digitValue_of_digit (decimalDigit hch)]
  rfl

/-- A number is read back from its decimal text, to the last character. -/
theorem stoul_decimal {n : ℕ} (h : n < UInt64.size) :
    stoul (decimal n) 10 = .ok (UInt64.ofNat n, (decimal n).length) := by
  obtain ⟨first, rest, hdecimal⟩ := List.exists_cons_of_ne_nil (decimal_ne_nil n)
  have hfirst : 48 ≤ first ∧ first ≤ 57 := decimalDigit (hdecimal ▸ List.mem_cons_self)
  have hspace : (decimal n).dropWhile isspace = decimal n := by
    rw [hdecimal, List.dropWhile_cons_of_neg]
    rw [digit_not_isspace hfirst]
    exact Bool.false_ne_true
  have hminus : ¬ (decimal n).head? = some 45 := by
    rw [hdecimal]
    exact fun heq => (digit_ne_sign hfirst).1 (Option.some.inj heq)
  have hplus : ¬ (decimal n).head? = some 43 := by
    rw [hdecimal]
    exact fun heq => (digit_ne_sign hfirst).2 (Option.some.inj heq)
  have hfold := foldl_digitValue (Nat.toDigits 10 n) (fun _ hc => isDigit_of_mem_digits hc) 0
  rw [Nat.ofDigitChars_toDigits (by decide) (by decide)] at hfold
  change ((decimal n).map (digitValue 10)).foldl _ 0 = n at hfold
  have hbase : ¬ (10 = 16) := by decide
  have hdigits : ¬ (decimal n).map (digitValue 10) = [] := by
    rw [List.map_eq_nil_iff]
    exact decimal_ne_nil n
  have hnumber : ¬ UInt64.size ≤ n := by omega
  unfold stoul
  simp only [hspace, hminus, hplus, or_self, hbase, false_and, if_false, takeWhile_digits, hdigits,
    hfold, hnumber, List.length_map, Nat.sub_self, Nat.zero_add]

/-! ### Serial settings -/

theorem parseUnsigned_decimal {n : ℕ} (h : n < UInt64.size) (name : String) :
    parseUnsigned (decimal n) name = .ok (UInt64.ofNat n) := by
  unfold parseUnsigned
  rw [stoul_decimal h]
  exact if_neg (not_not_intro rfl)

theorem parseSerialBaudrate_decimal {n : ℕ} (hpos : 0 < n) (hle : n ≤ 4000000) :
    parseSerialBaudrate (decimal n) = .ok (UInt32.ofNat n) := by
  have hsize : n < UInt64.size := by
    change n < 2 ^ 64
    omega
  have hvalue : (UInt64.ofNat n).toNat = n := UInt64.toNat_ofNat_of_lt' hsize
  have hrange : ¬ (UInt64.ofNat n = 0 ∨ UInt64.ofNat n > 4000000) := by
    simp only [← UInt64.toNat_inj, gt_iff_lt, UInt64.lt_iff_toNat_lt, hvalue, UInt64.reduceToNat]
    omega
  unfold parseSerialBaudrate
  rw [parseUnsigned_decimal hsize]
  refine (if_neg hrange).trans (congrArg Except.ok ?_)
  rw [← UInt32.toNat_inj, UInt64.toNat_toUInt32, hvalue, UInt32.toNat_ofNat']

theorem parseSerialDataBits_decimal {n : ℕ} (hlow : 5 ≤ n) (hhigh : n ≤ 8) :
    parseSerialDataBits (decimal n) = .ok (UInt8.ofNat n) := by
  have hall : ∀ n < 9, 5 ≤ n → parseSerialDataBits (decimal n) = .ok (UInt8.ofNat n) := by
    decide +kernel
  exact hall n (by omega) hlow

theorem parseSerialStopBits_decimal {n : ℕ} (hlow : 1 ≤ n) (hhigh : n ≤ 2) :
    parseSerialStopBits (decimal n) = .ok (UInt8.ofNat n) := by
  have hall : ∀ n < 3, 1 ≤ n → parseSerialStopBits (decimal n) = .ok (UInt8.ofNat n) := by
    decide +kernel
  exact hall n (by omega) hlow

theorem parseSerialParity_toText (parity : SerialParity) :
    parseSerialParity parity.toText = .ok parity := by
  cases parity <;> decide

theorem parseSerialFlowControl_toText (flowControl : SerialFlowControl) :
    parseSerialFlowControl flowControl.toText = .ok flowControl := by
  cases flowControl <;> decide

/-- Serial settings that the parsers accept. -/
structure SerialAccepted (options : CliOptions) : Prop where
  baudrate : 0 < options.baudrate.toNat ∧ options.baudrate.toNat ≤ 4000000
  dataBits : 5 ≤ options.dataBits.toNat ∧ options.dataBits.toNat ≤ 8
  stopBits : 1 ≤ options.stopBits.toNat ∧ options.stopBits.toNat ≤ 2

theorem serialAccepted_default : SerialAccepted {} where
  baudrate := by decide
  dataBits := by decide
  stopBits := by decide

theorem baudrate_of_parse {value : ByteString} {baudrate : UInt32}
    (h : parseSerialBaudrate value = .ok baudrate) :
    0 < baudrate.toNat ∧ baudrate.toNat ≤ 4000000 := by
  obtain ⟨number, -, hnumber⟩ := bind_eq_ok_iff.1 h
  split at hnumber
  · cases hnumber
  · rename_i hrange
    cases hnumber
    simp only [← UInt64.toNat_inj, gt_iff_lt, UInt64.lt_iff_toNat_lt, UInt64.reduceToNat] at hrange
    rw [UInt64.toNat_toUInt32]
    omega

theorem dataBits_of_parse {value : ByteString} {dataBits : UInt8}
    (h : parseSerialDataBits value = .ok dataBits) : 5 ≤ dataBits.toNat ∧ dataBits.toNat ≤ 8 := by
  obtain ⟨bits, -, hbits⟩ := bind_eq_ok_iff.1 h
  split at hbits
  · cases hbits
  · rename_i hrange
    cases hbits
    simp only [gt_iff_lt, UInt64.lt_iff_toNat_lt, UInt64.reduceToNat] at hrange
    rw [UInt64.toNat_toUInt8]
    omega

theorem stopBits_of_parse {value : ByteString} {stopBits : UInt8}
    (h : parseSerialStopBits value = .ok stopBits) : 1 ≤ stopBits.toNat ∧ stopBits.toNat ≤ 2 := by
  obtain ⟨bits, -, hbits⟩ := bind_eq_ok_iff.1 h
  split at hbits
  · cases hbits
  · rename_i hrange
    cases hbits
    simp only [ne_eq, ← UInt64.toNat_inj, UInt64.reduceToNat] at hrange
    rw [UInt64.toNat_toUInt8]
    omega

/-! ### Delimiters -/

theorem hexDigit_cases {n : ℕ} (h : n < 16) :
    isspace (hexDigit n) = false ∧ tolower (hexDigit n) ≠ 108 := by
  have hall : ∀ n < 16, isspace (hexDigit n) = false ∧ tolower (hexDigit n) ≠ 108 := by decide
  exact hall n h

theorem parseHexByte_hexDigits (byte : UInt8) :
    parseHexByte [hexDigit (byte.toNat / 16), hexDigit (byte.toNat % 16)] = .ok byte := by
  have hall : ∀ n < 256, parseHexByte [hexDigit (n / 16), hexDigit (n % 16)] =
      .ok (UInt8.ofNat n) := by
    decide +kernel
  rw [hall byte.toNat byte.toNat_lt, UInt8.ofNat_toNat]

theorem toHex_cons (byte : UInt8) (payload : Bytes) :
    toHex (byte :: payload) false =
      hexDigit (byte.toNat / 16) :: hexDigit (byte.toNat % 16) :: toHex payload false := rfl

theorem parseHexPairs_toHex (payload : Bytes) :
    parseHexPairs (toHex payload false) = .ok payload := by
  induction payload with
  | nil => rfl
  | cons byte payload ih =>
    rw [toHex_cons, parseHexPairs, parseHexByte_hexDigits, ih]
    rfl

theorem length_toHex (payload : Bytes) : (toHex payload false).length = 2 * payload.length := by
  induction payload with
  | nil => rfl
  | cons byte payload ih =>
    rw [toHex_cons, List.length_cons, List.length_cons, ih, List.length_cons]
    omega

theorem toHex_digits {payload : Bytes} {ch : UInt8} (h : ch ∈ toHex payload false) :
    isspace ch = false ∧ tolower ch ≠ 108 := by
  induction payload with
  | nil => cases h
  | cons byte payload ih =>
    have hbyte := byte.toNat_lt
    rw [toHex_cons, List.mem_cons, List.mem_cons] at h
    rcases h with rfl | rfl | h
    · exact hexDigit_cases (by omega)
    · exact hexDigit_cases (by omega)
    · exact ih h

/-- Hex digits are read as bytes: neither name of a line ending consists of them. -/
theorem delimiterFromHex_toHex (delimiter : Bytes) :
    delimiterFromHex (toHex delimiter false) = .ok delimiter := by
  have hnamed : ∀ text : ByteString, 108 ∈ text → lowercase (toHex delimiter false) ≠ text := by
    rintro text hmem rfl
    obtain ⟨ch, hch, hl⟩ := List.mem_map.1 hmem
    exact (toHex_digits hch).2 hl
  have hcompact : (toHex delimiter false).filter (fun ch => !isspace ch) =
      toHex delimiter false := by
    apply List.filter_eq_self.2
    intro ch hch
    rw [(toHex_digits hch).1]
    rfl
  have hlength := length_toHex delimiter
  unfold delimiterFromHex
  by_cases hempty : toHex delimiter false = []
  · rw [if_neg (not_not_intro hempty)]
    rw [hempty, List.length_nil] at hlength
    rw [List.length_eq_zero_iff.1 (by omega : delimiter.length = 0)]
  · have hpairs : ¬ (toHex delimiter false = [] ∨ (toHex delimiter false).length % 2 ≠ 0) := by
      rintro (h | h)
      · exact hempty h
      · omega
    rw [if_pos hempty]
    unfold parseDelimiterBytes
    simp only [if_neg (hnamed (ascii "crlf") (by decide)), if_neg (hnamed (ascii "lf") (by decide)),
      hcompact, if_neg hpairs]
    exact parseHexPairs_toHex delimiter

/-! ### Reading what was written -/

section Read

variable {lib : JsonLibrary} {config : Json} {key : String}

theorem getString_of_present {fallback text : ByteString}
    (h : present config key = some (.string text)) :
    getString config key fallback = .ok text := by
  unfold getString
  rw [h]

theorem getBool_of_present {fallback value : Bool}
    (h : present config key = some (.boolean value)) :
    getBool config key fallback = .ok value := by
  unfold getBool
  rw [h]

theorem getWith_of_present {α : Type} {fallback : α} {read : Json → Except StdException α}
    {value : Json}
    (h : present config key = some value) : getWith config key fallback read = read value := by
  unfold getWith
  rw [h]

theorem toInt_port (port : UInt16) : port.toUInt64.toInt64.toInt = port.toNat := by
  have hport : port.toUInt64.toBitVec.toNat = port.toNat := UInt16.toNat_toUInt64 port
  have hlt := port.toNat_lt
  change port.toUInt64.toBitVec.toInt = _
  rw [BitVec.toInt_eq_toNat_of_lt (by omega), hport]

theorem getPort_of_present {fallback port : UInt16}
    (h : present config key = some (.numberUnsigned port.toUInt64)) :
    getPort config key fallback = .ok port := by
  have hlt := port.toNat_lt
  have hrange : ¬ (port.toUInt64.toInt64 < 0 ∨ port.toUInt64.toInt64 > 65535) := by
    simp only [gt_iff_lt, Int64.lt_iff_toInt_lt, toInt_port, Int64.reduceToInt]
    omega
  unfold getPort
  rw [h]
  refine (if_neg hrange).trans (congrArg Except.ok ?_)
  rw [toInt_port, Int.toNat_natCast, UInt16.ofNat_toNat]

/-- A small number is read as an `int` and written in decimal. -/
theorem signedDecimal_byte (bits : UInt8) :
    signedDecimal bits.toUInt64.toUInt32.toInt32.toInt = decimal bits.toNat := by
  have hbits : bits.toUInt64.toUInt32.toBitVec.toNat = bits.toNat := by
    change bits.toUInt64.toUInt32.toNat = _
    have hlt := bits.toNat_lt
    rw [UInt64.toNat_toUInt32, UInt8.toNat_toUInt64]
    omega
  have hlt := bits.toNat_lt
  change signedDecimal bits.toUInt64.toUInt32.toBitVec.toInt = _
  rw [BitVec.toInt_eq_toNat_of_lt (by omega), hbits]
  rfl

end Read

theorem decoderConfig_round_trip (lib : JsonLibrary) (config : DecoderConfig) :
    decoderConfigFromJson lib (decoderConfigToJson config) = .ok config := by
  simp only [decoderConfigFromJson, bind_eq_ok_iff]
  exact ⟨_, getString_of_present rfl, _, (getWith_of_present rfl).trans rfl, _,
    getString_of_present rfl, _, delimiterFromHex_toHex config.delimiter, _, getBool_of_present rfl,
    _, (getWith_of_present rfl).trans rfl, _, getString_of_present rfl, _, getBool_of_present rfl,
    rfl⟩

/-- What the JSON carries of the options; the rest is as in new options. -/
def CliOptions.carried (options : CliOptions) : CliOptions :=
  { options with
    ipcPath := []
    sendOptions := {}
    sendOptionCount := 0
    help := false
    version := false }

theorem engineConfig_round_trip (lib : JsonLibrary) {options : CliOptions}
    (h : SerialAccepted options) :
    engineConfigFromJson lib (engineConfigToJson options) = .ok options.carried := by
  have hbaudrate : getWith (engineConfigToJson options) "baudrate" 115200 (fun value => do
      parseSerialBaudrate (decimal (← lib.getUInt64 value).toNat)) = .ok options.baudrate := by
    have hpresent : present (engineConfigToJson options) "baudrate" =
      some (.numberUnsigned options.baudrate.toUInt64) := rfl
    rw [getWith_of_present hpresent]
    change parseSerialBaudrate (decimal options.baudrate.toUInt64.toNat) = _
    rw [UInt32.toNat_toUInt64, parseSerialBaudrate_decimal h.baudrate.1 h.baudrate.2,
      UInt32.ofNat_toNat]
  have hdataBits : getWith (engineConfigToJson options) "data_bits" 8 (fun value => do
      parseSerialDataBits (signedDecimal (← lib.getInt value).toInt)) = .ok options.dataBits := by
    have hpresent : present (engineConfigToJson options) "data_bits" =
      some (.numberUnsigned options.dataBits.toUInt64) := rfl
    rw [getWith_of_present hpresent]
    change parseSerialDataBits (signedDecimal options.dataBits.toUInt64.toUInt32.toInt32.toInt) = _
    rw [signedDecimal_byte, parseSerialDataBits_decimal h.dataBits.1 h.dataBits.2,
      UInt8.ofNat_toNat]
  have hstopBits : getWith (engineConfigToJson options) "stop_bits" 1 (fun value => do
      parseSerialStopBits (signedDecimal (← lib.getInt value).toInt)) = .ok options.stopBits := by
    have hpresent : present (engineConfigToJson options) "stop_bits" =
      some (.numberUnsigned options.stopBits.toUInt64) := rfl
    rw [getWith_of_present hpresent]
    change parseSerialStopBits (signedDecimal options.stopBits.toUInt64.toUInt32.toInt32.toInt) = _
    rw [signedDecimal_byte, parseSerialStopBits_decimal h.stopBits.1 h.stopBits.2,
      UInt8.ofNat_toNat]
  have hdecoder : getWith (engineConfigToJson options) "decoder" {} (fun decoder => do
      throwIf (decoder.isObject = false) "config.decoder must be an object"
      decoderConfigFromJson lib decoder) = .ok options.decoderConfig := by
    have hpresent : present (engineConfigToJson options) "decoder" =
      some (decoderConfigToJson options.decoderConfig) := rfl
    rw [getWith_of_present hpresent]
    exact decoderConfig_round_trip lib options.decoderConfig
  simp only [engineConfigFromJson, bind_eq_ok_iff]
  exact ⟨(), rfl, _, getString_of_present rfl, _, getString_of_present rfl, _,
    getPort_of_present rfl, _, getString_of_present rfl, _, hbaudrate, _, hdataBits, _, hstopBits,
    _, getString_of_present rfl, _, parseSerialParity_toText _, _, getString_of_present rfl, _,
    parseSerialFlowControl_toText _, _, getString_of_present rfl, _, getPort_of_present rfl, _,
    getString_of_present rfl, _, getPort_of_present rfl, _, getString_of_present rfl, _,
    getPort_of_present rfl, _, getString_of_present rfl, _, getBool_of_present rfl, _,
    getBool_of_present rfl, _, getBool_of_present rfl, _, hdecoder, rfl⟩

/-! ### What the front ends produce -/

/-- Options that come out of an argument have the property. -/
def ArgEffect.Keeps (P : CliOptions → Prop) : ArgEffect → Prop
  | .done result => ∀ options, result = .ok options → P options
  | .takesValue read => ∀ value options, read value = .ok options → P options

section Keeps

variable {P : CliOptions → Prop}

theorem keeps_ok {options : CliOptions} (h : P options) :
    (ArgEffect.done (.ok options)).Keeps P := by
  rintro _ ⟨⟩
  exact h

theorem keeps_error (ex : StdException) : (ArgEffect.done (.error ex)).Keeps P :=
  fun _ h => nomatch h

theorem keeps_value {set : ByteString → CliOptions} (h : ∀ value, P (set value)) :
    (ArgEffect.takesValue fun value => .ok (set value)).Keeps P := by
  rintro value _ ⟨⟩
  exact h value

theorem keeps_parsed {α : Type} {parse : ByteString → Except StdException α} {set : α → CliOptions}
    (h : ∀ value a, parse value = .ok a → P (set a)) :
    (ArgEffect.takesValue fun value => do .ok (set (← parse value))).Keeps P := by
  intro value options hread
  obtain ⟨a, hparse, hset⟩ := bind_eq_ok_iff.1 hread
  cases hset
  exact h value a hparse

theorem keeps_ite {c : Prop} [Decidable c] {e e' : ArgEffect} (h : e.Keeps P) (h' : e'.Keeps P) :
    (if c then e else e').Keeps P := by
  split
  · exact h
  · exact h'

theorem keeps_some_ite {c : Prop} [Decidable c] {e : ArgEffect} {rest : Option ArgEffect}
    (h : e.Keeps P) (h' : ∀ e' ∈ rest, e'.Keeps P) :
    ∀ e' ∈ (if c then some e else rest), e'.Keeps P := by
  intro e' he'
  split at he'
  · cases he'
    exact h
  · exact h' e' he'

/-- What every argument keeps, the command line keeps. -/
theorem parseArgsFrom_keeps (hstep : ∀ options arg, P options → (parseArg options arg).Keeps P)
    {options result : CliOptions} {args : List ByteString} (hoptions : P options)
    (h : parseArgsFrom options args = .ok result) : P result := by
  induction options, args using parseArgsFrom.induct with
  | case1 options =>
    cases h
    exact hoptions
  | case2 options arg args next harg ih =>
    rw [parseArgsFrom, harg] at h
    have hkept := hstep options arg hoptions
    rw [harg] at hkept
    exact ih (hkept next rfl) h
  | case3 options arg args ex harg =>
    rw [parseArgsFrom, harg] at h
    cases h
  | case4 options arg read harg =>
    rw [parseArgsFrom, harg] at h
    cases h
  | case5 options arg read harg value args next hread ih =>
    rw [parseArgsFrom, harg] at h
    simp only [hread] at h
    have hkept := hstep options arg hoptions
    rw [harg] at hkept
    exact ih (hkept value next hread) h
  | case6 options arg read harg value args ex hread =>
    rw [parseArgsFrom, harg] at h
    simp only [hread] at h
    cases h

end Keeps

section Serial

variable {options : CliOptions}

theorem SerialAccepted.setSendFormat (h : SerialAccepted options) (format : SendInputFormat)
    (filePath : ByteString) {result : CliOptions}
    (hset : setSendFormat options format filePath = .ok result) : SerialAccepted result := by
  unfold PacketProbe.setSendFormat at hset
  simp only at hset
  split at hset
  · cases hset
  · cases hset
    exact ⟨h.1, h.2, h.3⟩

theorem SerialAccepted.sendOption (h : SerialAccepted options) (arg : ByteString) :
    ∀ e ∈ parseSendOption options arg, e.Keeps SerialAccepted := by
  refine keeps_some_ite (fun _ => h.setSendFormat .text []) (keeps_some_ite
    (fun _ => h.setSendFormat .hex []) (keeps_some_ite
    (fun value _ => h.setSendFormat .file value) ?_))
  intro e he
  cases he

theorem SerialAccepted.decoderOption (h : SerialAccepted options) (arg : ByteString) :
    ∀ e ∈ parseDecoderOption options arg, e.Keeps SerialAccepted := by
  have hset : ∀ decoderConfig : DecoderConfig, SerialAccepted { options with decoderConfig } :=
    fun _ => ⟨h.1, h.2, h.3⟩
  refine keeps_some_ite (keeps_value fun _ => hset _)
    (keeps_some_ite (keeps_parsed fun _ _ _ => hset _)
    (keeps_some_ite (keeps_parsed fun _ _ _ => hset _) (keeps_some_ite (keeps_ok (hset _))
    (keeps_some_ite (keeps_parsed fun _ _ _ => hset _) (keeps_some_ite (keeps_value fun _ => hset _)
    (keeps_some_ite (keeps_ok (hset _)) ?_))))))
  intro e he
  cases he

theorem SerialAccepted.captureOption (h : SerialAccepted options) (arg : ByteString) :
    (parseCaptureOption options arg).Keeps SerialAccepted := by
  have hport : (ArgEffect.takesValue fun value =>
      if options.mode = ascii "serial" then .ok { options with serialPort := value }
      else do .ok { options with port := ← parsePort value }).Keeps SerialAccepted := by
    intro value result hread
    split at hread
    · cases hread
      exact ⟨h.1, h.2, h.3⟩
    · obtain ⟨port, -, hset⟩ := bind_eq_ok_iff.1 hread
      cases hset
      exact ⟨h.1, h.2, h.3⟩
  -- Only these three options set what the parsers check again.
  have hbaudrate : (ArgEffect.takesValue fun value => do
      .ok { options with baudrate := ← parseSerialBaudrate value }).Keeps SerialAccepted :=
    keeps_parsed fun value baudrate hparse => ⟨baudrate_of_parse hparse, h.2, h.3⟩
  have hdataBits : (ArgEffect.takesValue fun value => do
      .ok { options with dataBits := ← parseSerialDataBits value }).Keeps SerialAccepted :=
    keeps_parsed fun value dataBits hparse => ⟨h.1, dataBits_of_parse hparse, h.3⟩
  have hstopBits : (ArgEffect.takesValue fun value => do
      .ok { options with stopBits := ← parseSerialStopBits value }).Keeps SerialAccepted :=
    keeps_parsed fun value stopBits hparse => ⟨h.1, h.2, stopBits_of_parse hparse⟩
  refine keeps_ite (keeps_value fun _ => ⟨h.1, h.2, h.3⟩) (keeps_ite hport (keeps_ite hbaudrate
    (keeps_ite hdataBits (keeps_ite hstopBits ?_))))
  refine keeps_ite (keeps_parsed fun _ _ _ => ⟨h.1, h.2, h.3⟩) (keeps_ite
    (keeps_parsed fun _ _ _ => ⟨h.1, h.2, h.3⟩) ?_)
  refine keeps_ite (keeps_value fun _ => ⟨h.1, h.2, h.3⟩) (keeps_ite
    (keeps_parsed fun _ _ _ => ⟨h.1, h.2, h.3⟩) ?_)
  refine keeps_ite (keeps_value fun _ => ⟨h.1, h.2, h.3⟩) (keeps_ite
    (keeps_parsed fun _ _ _ => ⟨h.1, h.2, h.3⟩) ?_)
  refine keeps_ite (keeps_value fun _ => ⟨h.1, h.2, h.3⟩) (keeps_ite
    (keeps_parsed fun _ _ _ => ⟨h.1, h.2, h.3⟩) ?_)
  refine keeps_ite (keeps_value fun _ => ⟨h.1, h.2, h.3⟩) (keeps_ite
    (keeps_value fun _ => ⟨h.1, h.2, h.3⟩) ?_)
  exact keeps_ite (keeps_error _) (keeps_ite (keeps_ok ⟨h.1, h.2, h.3⟩) (keeps_error _))

theorem SerialAccepted.arg (h : SerialAccepted options) (arg : ByteString) :
    (parseArg options arg).Keeps SerialAccepted := by
  refine keeps_ite (keeps_ok ⟨h.1, h.2, h.3⟩) (keeps_ite (keeps_ok ⟨h.1, h.2, h.3⟩) (keeps_ite
    (keeps_ok ⟨h.1, h.2, h.3⟩) (keeps_ite (keeps_ok ⟨h.1, h.2, h.3⟩) (keeps_ite
    (keeps_ok ⟨h.1, h.2, h.3⟩) ?_))))
  cases hsend : parseSendOption options arg with
  | some e => exact h.sendOption arg e hsend
  | none =>
    cases hdecoder : parseDecoderOption options arg with
    | some e => exact h.decoderOption arg e hdecoder
    | none => exact h.captureOption arg

theorem serialAccepted_of_parseArgs {args : List ByteString} (h : parseArgs args = .ok options) :
    SerialAccepted options :=
  parseArgsFrom_keeps (fun _ arg hoptions => hoptions.arg arg) serialAccepted_default h

theorem getWith_eq_ok {α : Type} {config : Json} {key : String} {fallback a : α}
    {read : Json → Except StdException α} (h : getWith config key fallback read = .ok a) :
    a = fallback ∨ ∃ value, read value = .ok a := by
  unfold getWith at h
  split at h
  · cases h
    exact .inl rfl
  · exact .inr ⟨_, h⟩

theorem serialAccepted_of_json {lib : JsonLibrary} {config : Json}
    (h : engineConfigFromJson lib config = .ok options) : SerialAccepted options := by
  simp only [engineConfigFromJson, bind_eq_ok_iff] at h
  obtain ⟨_, -, _, -, _, -, _, -, _, -, baudrate, hbaudrate, dataBits, hdataBits, stopBits,
    hstopBits, _, -, _, -, _, -, _, -, _, -, _, -, _, -, _, -, _, -, _, -, _, -, _, -, _, -, _, -,
    _, -, h⟩ := h
  cases h
  constructor
  · rcases getWith_eq_ok hbaudrate with rfl | ⟨value, hread⟩
    · exact serialAccepted_default.baudrate
    · obtain ⟨_, -, hparse⟩ := bind_eq_ok_iff.1 hread
      exact baudrate_of_parse hparse
  · rcases getWith_eq_ok hdataBits with rfl | ⟨value, hread⟩
    · exact serialAccepted_default.dataBits
    · obtain ⟨_, -, hparse⟩ := bind_eq_ok_iff.1 hread
      exact dataBits_of_parse hparse
  · rcases getWith_eq_ok hstopBits with rfl | ⟨value, hread⟩
    · exact serialAccepted_default.stopBits
    · obtain ⟨_, -, hparse⟩ := bind_eq_ok_iff.1 hread
      exact stopBits_of_parse hparse

end Serial

/-! ### Validation -/

theorem throwIf_bind_eq_ok_iff {cond : Prop} [Decidable cond] {text : String}
    {x : Except StdException Unit} :
    (throwIf cond text >>= fun _ => x) = .ok () ↔ ¬ cond ∧ x = .ok () := by
  rw [bind_eq_ok_iff]
  constructor
  · rintro ⟨u, hthrow, hx⟩
    exact ⟨throwIf_eq_ok_iff.1 hthrow, hx⟩
  · rintro ⟨hcond, hx⟩
    exact ⟨(), throwIf_eq_ok_iff.2 hcond, hx⟩

/-- Validation asks only for what is carried, and for the socket of an engine. Send input asks
for more, and is not carried. -/
theorem validateOptions_carried {options : CliOptions} (hmode : options.mode ≠ ascii "engine")
    (h : validateOptions options = .ok ()) : validateOptions options.carried = .ok () := by
  have hsame : options.carried.mode = options.mode := rfl
  unfold validateOptions at h ⊢
  rw [hsame, if_neg hmode]
  rw [if_neg hmode] at h
  by_cases hclient : options.mode = ascii "tcp-client"
  · rw [if_pos hclient] at h ⊢
    exact h
  rw [if_neg hclient] at h ⊢
  by_cases hserver : options.mode = ascii "tcp-server"
  · rw [if_pos hserver] at h ⊢
    exact h
  rw [if_neg hserver] at h ⊢
  by_cases hproxy : options.mode = ascii "tcp-proxy"
  · rw [if_pos hproxy] at h ⊢
    exact h
  rw [if_neg hproxy] at h ⊢
  by_cases hserial : options.mode = ascii "serial"
  · rw [if_pos hserial] at h ⊢
    exact h
  rw [if_neg hserial] at h ⊢
  by_cases hudp : options.mode = ascii "udp"
  · rw [if_pos hudp] at h ⊢
    simp only [throwIf_bind_eq_ok_iff, throwIf_eq_ok_iff] at h ⊢
    obtain ⟨hhost, hport, htarget, -⟩ := h
    exact ⟨hhost, hport, htarget, fun hsend => absurd hsend.1 (lt_irrefl 0)⟩
  · rw [if_neg hudp] at h
    cases h

/-- What either front end produces comes back from JSON. -/
theorem configuration_round_trip (lib : JsonLibrary) {options : CliOptions}
    (h : (∃ args, parseArgs args = .ok options) ∨
      ∃ config, config.isObject = true ∧ engineConfigFromJson lib config = .ok options) :
    engineConfigFromJson lib (engineConfigToJson options) = .ok options.carried ∧
      (options.mode ≠ ascii "engine" → validateOptions options = .ok () →
        validateOptions options.carried = .ok ()) := by
  have haccepted : SerialAccepted options := by
    rcases h with ⟨args, hargs⟩ | ⟨config, -, hjson⟩
    · exact serialAccepted_of_parseArgs hargs
    · exact serialAccepted_of_json hjson
  exact ⟨engineConfig_round_trip lib haccepted, validateOptions_carried⟩

/-- A command line with a delimiter and with send input. -/
def udpArguments : List ByteString :=
  [ascii "udp", ascii "--bind-port", ascii "19000", ascii "--decoder", ascii "delimiter",
    ascii "--delimiter", ascii "crlf", ascii "--send-text", ascii "--target-host", ascii "h",
    ascii "--target-port", ascii "1"]

def udpOptions : CliOptions :=
  { mode := ascii "udp"
    bindPort := 19000
    targetHost := ascii "h"
    targetPort := 1
    decoderConfig := { decoder := ascii "delimiter", delimiter := [0x0D, 0x0A] }
    sendOptionCount := 1 }

theorem configuration_round_trip_udp :
    engineConfigFromJson (.ofTable [] rfl) (engineConfigToJson udpOptions) =
        .ok { udpOptions with sendOptionCount := 0 } ∧
      validateOptions { udpOptions with sendOptionCount := 0 } = .ok () := by
  have hargs : parseArgs udpArguments = .ok udpOptions := by decide +kernel
  have hround := configuration_round_trip (.ofTable [] rfl) (.inl ⟨udpArguments, hargs⟩)
  exact ⟨hround.1, hround.2 (by decide) (by decide)⟩

end PacketProbe
