import PacketProbe.NumberTexts

/-!
# The numeric options of the command line

Every numeric option accepts the decimal numbers of its range. All of them also accept what
the library's parser does: blanks and a sign in front, and the two sizes anything behind.
-/

namespace PacketProbe

/-- The text is a numeral of this value in the range, to its last character if `whole`. -/
def ReadsWithin (whole : Bool) (low high : ℕ) (value : ByteString) (x : UInt64) : Prop :=
  ∃ t : NumberText, t.text = value ∧ t.magnitude < UInt64.size ∧ (whole = true → t.rest = []) ∧
    t.value = x ∧ low ≤ x.toNat ∧ x.toNat ≤ high

/-! ### The parsers -/

variable {value : ByteString} {x : UInt64}

/-- Every number is below `2 ^ 64`. -/
theorem toNat_le (x : UInt64) : x.toNat ≤ 18446744073709551615 := Nat.le_of_lt_succ x.toNat_lt

theorem ReadsWithin.narrow {whole : Bool} {low high : ℕ}
    (h : ReadsWithin whole 0 18446744073709551615 value x) (hx : low ≤ x.toNat ∧ x.toNat ≤ high) :
    ReadsWithin whole low high value x := by
  obtain ⟨t, htext, hsize, hrest, hvalue, -⟩ := h
  exact ⟨t, htext, hsize, hrest, hvalue, hx⟩

theorem ReadsWithin.widen {whole : Bool} {low high : ℕ} (h : ReadsWithin whole low high value x) :
    ReadsWithin whole 0 18446744073709551615 value x := by
  obtain ⟨t, htext, hsize, hrest, hvalue, -⟩ := h
  exact ⟨t, htext, hsize, hrest, hvalue, Nat.zero_le _, toNat_le x⟩

theorem ReadsWithin.range {whole : Bool} {low high : ℕ} (h : ReadsWithin whole low high value x) :
    low ≤ x.toNat ∧ x.toNat ≤ high := by
  obtain ⟨t, -, -, -, -, hrange⟩ := h
  exact hrange

theorem stoulPrefix_eq_ok_iff :
    stoulPrefix value = .ok x ↔ ReadsWithin false 0 18446744073709551615 value x := by
  unfold stoulPrefix ReadsWithin
  rw [bind_eq_ok_iff]
  constructor
  · rintro ⟨⟨number, parsed⟩, hstoul, hx⟩
    obtain ⟨t, htext, hsize, hvalue, -⟩ := stoul_eq_ok_iff.1 hstoul
    cases hx
    exact ⟨t, htext, hsize, Bool.noConfusion, hvalue, Nat.zero_le _, toNat_le _⟩
  · rintro ⟨t, htext, hsize, -, hvalue, -, -⟩
    exact ⟨(x, t.parsed), stoul_eq_ok_iff.2 ⟨t, htext, hsize, hvalue, rfl⟩, rfl⟩

theorem stoul_whole_iff :
    stoul value 10 = .ok (x, value.length) ↔ ReadsWithin true 0 18446744073709551615 value x := by
  rw [stoul_eq_ok_iff]
  constructor
  · rintro ⟨t, rfl, hsize, hvalue, hparsed⟩
    exact ⟨t, rfl, hsize, fun _ => NumberText.parsed_eq_length_iff.1 hparsed, hvalue, Nat.zero_le _,
      toNat_le x⟩
  · rintro ⟨t, rfl, hsize, hrest, hvalue, -⟩
    exact ⟨t, rfl, hsize, hvalue, NumberText.parsed_eq_length_iff.2 (hrest rfl)⟩

theorem parsePort_eq_ok_iff {port : UInt16} :
    parsePort value = .ok port ↔ ∃ x, ReadsWithin true 1 65535 value x ∧ x.toUInt16 = port := by
  have hrange : ∀ x : UInt64, ¬ (x = 0 ∨ x > 65535) ↔ 1 ≤ x.toNat ∧ x.toNat ≤ 65535 := by
    intro x
    simp only [← UInt64.toNat_inj, gt_iff_lt, UInt64.lt_iff_toNat_lt, UInt64.reduceToNat]
    omega
  unfold parsePort
  rw [bind_eq_ok_iff]
  constructor
  · rintro ⟨⟨x, parsed⟩, hstoul, hport⟩
    simp only at hport
    split at hport
    · cases hport
    · rename_i hchecks
      obtain ⟨hlength, hin⟩ := not_or.1 hchecks
      cases hport
      rw [not_not] at hlength
      subst hlength
      exact ⟨x, (stoul_whole_iff.1 hstoul).narrow ((hrange x).1 hin), rfl⟩
  · rintro ⟨x, hreads, rfl⟩
    refine ⟨(x, value.length), stoul_whole_iff.2 hreads.widen, ?_⟩
    exact if_neg (not_or.2 ⟨not_not_intro rfl, (hrange x).2 hreads.range⟩)

theorem parseUnsigned_eq_ok_iff {name : String} :
    parseUnsigned value name = .ok x ↔ ReadsWithin true 0 18446744073709551615 value x := by
  rw [← stoul_whole_iff]
  unfold parseUnsigned
  rw [bind_eq_ok_iff]
  constructor
  · rintro ⟨⟨number, parsed⟩, hstoul, hx⟩
    simp only at hx
    split at hx
    · cases hx
    · rename_i hlength
      cases hx
      rwa [not_not.1 hlength] at hstoul
  · intro h
    exact ⟨(x, value.length), h, if_neg (not_not_intro rfl)⟩

/-- The serial settings check the range of what `parse_unsigned` has read. -/
theorem checkedUnsigned_eq_ok_iff {α : Type} {low high : ℕ} (outOfRange : UInt64 → Prop)
    [DecidablePred outOfRange] {convert : UInt64 → α} {name : String} {ex : StdException} {a : α}
    (hrange : ∀ x, ¬ outOfRange x ↔ low ≤ x.toNat ∧ x.toNat ≤ high) :
    (parseUnsigned value name >>= fun x =>
      if outOfRange x then Except.error ex else .ok (convert x)) = .ok a ↔
      ∃ x, ReadsWithin true low high value x ∧ convert x = a := by
  rw [bind_eq_ok_iff]
  constructor
  · rintro ⟨x, hparse, ha⟩
    split at ha
    · cases ha
    · rename_i hin
      cases ha
      exact ⟨x, (parseUnsigned_eq_ok_iff.1 hparse).narrow ((hrange x).1 hin), rfl⟩
  · rintro ⟨x, hreads, rfl⟩
    exact ⟨x, parseUnsigned_eq_ok_iff.2 hreads.widen, if_neg ((hrange x).2 hreads.range)⟩

theorem parseSerialBaudrate_eq_ok_iff {baudrate : UInt32} :
    parseSerialBaudrate value = .ok baudrate ↔
      ∃ x, ReadsWithin true 1 4000000 value x ∧ x.toUInt32 = baudrate := by
  apply checkedUnsigned_eq_ok_iff (fun x => x = 0 ∨ x > 4000000)
  intro x
  simp only [← UInt64.toNat_inj, gt_iff_lt, UInt64.lt_iff_toNat_lt, UInt64.reduceToNat]
  omega

theorem parseSerialDataBits_eq_ok_iff {dataBits : UInt8} :
    parseSerialDataBits value = .ok dataBits ↔ ∃ x, ReadsWithin true 5 8 value x ∧
      x.toUInt8 = dataBits := by
  apply checkedUnsigned_eq_ok_iff (fun x => x < 5 ∨ x > 8)
  intro x
  simp only [gt_iff_lt, UInt64.lt_iff_toNat_lt, UInt64.reduceToNat]
  omega

theorem parseSerialStopBits_eq_ok_iff {stopBits : UInt8} :
    parseSerialStopBits value = .ok stopBits ↔ ∃ x, ReadsWithin true 1 2 value x ∧
      x.toUInt8 = stopBits := by
  apply checkedUnsigned_eq_ok_iff (fun x => x ≠ 1 ∧ x ≠ 2)
  intro x
  simp only [ne_eq, ← UInt64.toNat_inj, UInt64.reduceToNat]
  omega

/-! ### The options -/

inductive NumericOption where
  | port | listenPort | bindPort | targetPort | baudrate | dataBits | stopBits | frameSize
  | lengthSize
  deriving DecidableEq

namespace NumericOption

def name : NumericOption → ByteString
  | port => ascii "--port"
  | listenPort => ascii "--listen-port"
  | bindPort => ascii "--bind-port"
  | targetPort => ascii "--target-port"
  | baudrate => ascii "--baudrate"
  | dataBits => ascii "--data-bits"
  | stopBits => ascii "--stop-bits"
  | frameSize => ascii "--frame-size"
  | lengthSize => ascii "--length-size"

def low : NumericOption → ℕ
  | port | listenPort | bindPort | targetPort => 1
  | baudrate => 1
  | dataBits => 5
  | stopBits => 1
  | frameSize | lengthSize => 0

def high : NumericOption → ℕ
  | port | listenPort | bindPort | targetPort => 65535
  | baudrate => 4000000
  | dataBits => 8
  | stopBits => 2
  | frameSize | lengthSize => 18446744073709551615

/-- The parser of the option looks at the whole text. -/
def whole : NumericOption → Bool
  | frameSize | lengthSize => false
  | _ => true

def store (options : CliOptions) (x : UInt64) : NumericOption → CliOptions
  | port => { options with port := x.toUInt16 }
  | listenPort => { options with listenPort := x.toUInt16 }
  | bindPort => { options with bindPort := x.toUInt16 }
  | targetPort => { options with targetPort := x.toUInt16 }
  | baudrate => { options with baudrate := x.toUInt32 }
  | dataBits => { options with dataBits := x.toUInt8 }
  | stopBits => { options with stopBits := x.toUInt8 }
  | frameSize => { options with decoderConfig := { options.decoderConfig with frameSize := x } }
  | lengthSize => { options with decoderConfig := { options.decoderConfig with lengthSize := x } }

def stored (options : CliOptions) : NumericOption → ℕ
  | port => options.port.toNat
  | listenPort => options.listenPort.toNat
  | bindPort => options.bindPort.toNat
  | targetPort => options.targetPort.toNat
  | baudrate => options.baudrate.toNat
  | dataBits => options.dataBits.toNat
  | stopBits => options.stopBits.toNat
  | frameSize => options.decoderConfig.frameSize.toNat
  | lengthSize => options.decoderConfig.lengthSize.toNat

/-- A value in the range fits where it is stored. -/
theorem stored_store {option : NumericOption} (options : CliOptions) (hx : x.toNat ≤ option.high) :
    option.stored (option.store options x) = x.toNat := by
  cases option with
  | port | listenPort | bindPort | targetPort =>
    change x.toNat ≤ 65535 at hx
    change x.toUInt16.toNat = x.toNat
    rw [UInt64.toNat_toUInt16]
    omega
  | baudrate =>
    change x.toNat ≤ 4000000 at hx
    change x.toUInt32.toNat = x.toNat
    rw [UInt64.toNat_toUInt32]
    omega
  | dataBits =>
    change x.toNat ≤ 8 at hx
    change x.toUInt8.toNat = x.toNat
    rw [UInt64.toNat_toUInt8]
    omega
  | stopBits =>
    change x.toNat ≤ 2 at hx
    change x.toUInt8.toNat = x.toNat
    rw [UInt64.toNat_toUInt8]
    omega
  | frameSize | lengthSize => rfl

end NumericOption

theorem parseArgsFrom_value {options result : CliOptions} {arg : ByteString}
    {read : ByteString → Except StdException CliOptions}
    (h : parseArg options arg = .takesValue read) :
    parseArgsFrom options [arg, value] = .ok result ↔ read value = .ok result := by
  rw [parseArgsFrom, h]
  simp only
  cases read value <;> rfl

/-- An option whose value is parsed and stored. -/
theorem storeParsed_eq_ok_iff {α : Type} {low high : ℕ} {whole : Bool}
    {parsed : Except StdException α}
    {convert : UInt64 → α} {set : α → CliOptions} {result : CliOptions}
    (h : ∀ a, parsed = .ok a ↔ ∃ x, ReadsWithin whole low high value x ∧ convert x = a) :
    (parsed >>= fun a => Except.ok (set a)) = .ok result ↔
      ∃ x, ReadsWithin whole low high value x ∧ set (convert x) = result := by
  rw [bind_eq_ok_iff]
  constructor
  · rintro ⟨a, hparsed, hset⟩
    obtain ⟨x, hreads, rfl⟩ := (h a).1 hparsed
    cases hset
    exact ⟨x, hreads, rfl⟩
  · rintro ⟨x, hreads, rfl⟩
    exact ⟨_, (h _).2 ⟨x, hreads, rfl⟩, rfl⟩

/-- What each option accepts and stores. -/
theorem parseOption_eq_ok_iff {options result : CliOptions} {option : NumericOption}
    (hport : option = .port → options.mode ≠ ascii "serial") :
    parseArgsFrom options [option.name, value] = .ok result ↔
      ∃ x, ReadsWithin option.whole option.low option.high value x ∧
        option.store options x = result := by
  have hsize : ∀ size, stoulPrefix value = .ok size ↔
      ∃ x, ReadsWithin false 0 18446744073709551615 value x ∧ id x = size := by
    intro size
    rw [stoulPrefix_eq_ok_iff]
    exact ⟨fun h => ⟨size, h, rfl⟩, fun ⟨_, h, hx⟩ => hx ▸ h⟩
  cases option with
  | port =>
    rw [parseArgsFrom_value rfl]
    simp only [if_neg (hport rfl)]
    exact storeParsed_eq_ok_iff fun _ => parsePort_eq_ok_iff
  | listenPort | bindPort | targetPort =>
    rw [parseArgsFrom_value rfl]
    exact storeParsed_eq_ok_iff fun _ => parsePort_eq_ok_iff
  | baudrate =>
    rw [parseArgsFrom_value rfl]
    exact storeParsed_eq_ok_iff fun _ => parseSerialBaudrate_eq_ok_iff
  | dataBits =>
    rw [parseArgsFrom_value rfl]
    exact storeParsed_eq_ok_iff fun _ => parseSerialDataBits_eq_ok_iff
  | stopBits =>
    rw [parseArgsFrom_value rfl]
    exact storeParsed_eq_ok_iff fun _ => parseSerialStopBits_eq_ok_iff
  | frameSize | lengthSize =>
    rw [parseArgsFrom_value rfl]
    exact storeParsed_eq_ok_iff hsize

/-! ### Decimal numbers -/

/-- There is one way to read a text. -/
theorem ReadsWithin.eq_value {whole : Bool} {low high : ℕ} {t : NumberText}
    (h : ReadsWithin whole low high t.text x) : t.magnitude < UInt64.size ∧ t.value = x := by
  obtain ⟨t', htext, hsize, -, rfl, -⟩ := h
  have hread := t'.stoul_text
  rw [htext, if_neg (Nat.not_le_of_lt hsize), t.stoul_text] at hread
  split at hread
  · cases hread
  · rename_i hsize'
    exact ⟨Nat.lt_of_not_le hsize', congrArg Prod.fst (Except.ok.inj hread)⟩

/-- A decimal number is read as itself, if it fits 64 bits. -/
theorem ReadsWithin.eq_decimalValue {whole : Bool} {low high n : ℕ}
    (h : ReadsWithin whole low high value x) (hn : decimalValue value = some n) : x.toNat = n := by
  obtain ⟨t, rfl, hplain, rfl⟩ := NumberText.decimalValue_eq_some_iff.1 hn
  obtain ⟨hsize, rfl⟩ := h.eq_value
  rw [NumberText.value_of_plain hplain]
  exact UInt64.toNat_ofNat_of_lt' hsize

theorem readsWithin_of_decimalValue {low high n : ℕ} (whole : Bool)
    (hn : decimalValue value = some n)
    (hlow : low ≤ n) (hhigh : n ≤ high) (hsize : n < UInt64.size) :
    ReadsWithin whole low high value (UInt64.ofNat n) := by
  obtain ⟨t, rfl, hplain, rfl⟩ := NumberText.decimalValue_eq_some_iff.1 hn
  have hvalue : (UInt64.ofNat t.magnitude).toNat = t.magnitude := UInt64.toNat_ofNat_of_lt' hsize
  refine ⟨t, rfl, hsize, fun _ => hplain.2.2, NumberText.value_of_plain hplain, ?_, ?_⟩
  · rwa [hvalue]
  · rwa [hvalue]

/-- The value is accepted exactly if it is a decimal number in the range of the option, and then
the number is stored. -/
def ParsesExactly (options : CliOptions) (option : NumericOption) (value : ByteString) : Prop :=
  ((∃ result, parseArgsFrom options [option.name, value] = .ok result) ↔
    ∃ n, decimalValue value = some n ∧ option.low ≤ n ∧ n ≤ option.high) ∧
  ∀ result n, parseArgsFrom options [option.name, value] = .ok result →
    decimalValue value = some n → option.stored result = n

/-- Blanks or a sign in front of the digits, or for a size anything behind them, and the numeral
has a value in the range nevertheless. -/
def SlipsThrough (option : NumericOption) (value : ByteString) : Prop :=
  decimalValue value = none ∧ ∃ x, ReadsWithin option.whole option.low option.high value x

theorem high_lt_size (option : NumericOption) : option.high < UInt64.size := by
  cases option <;> decide

/-- An option is exact for all values but those that slip through the library's parser. -/
theorem parsesExactly_iff {options : CliOptions} {option : NumericOption} (value : ByteString)
    (hport : option = .port → options.mode ≠ ascii "serial") :
    ParsesExactly options option value ↔ ¬ SlipsThrough option value := by
  unfold ParsesExactly
  simp only [parseOption_eq_ok_iff hport]
  constructor
  · rintro ⟨haccepted, -⟩ ⟨hnone, x, hreads⟩
    obtain ⟨n, hn, -⟩ := haccepted.1 ⟨_, x, hreads, rfl⟩
    rw [hnone] at hn
    cases hn
  · intro hslips
    refine ⟨⟨?_, ?_⟩, ?_⟩
    · rintro ⟨_, x, hreads, -⟩
      cases hvalue : decimalValue value with
      | none => exact absurd ⟨hvalue, x, hreads⟩ hslips
      | some n =>
        have hn := hreads.eq_decimalValue hvalue
        exact ⟨n, rfl, hn ▸ hreads.range.1, hn ▸ hreads.range.2⟩
    · rintro ⟨n, hn, hlow, hhigh⟩
      have hsize := Nat.lt_of_le_of_lt hhigh (high_lt_size option)
      exact ⟨_, _, readsWithin_of_decimalValue option.whole hn hlow hhigh hsize, rfl⟩
    · rintro _ n ⟨x, hreads, rfl⟩ hn
      rw [NumericOption.stored_store options hreads.range.2]
      exact hreads.eq_decimalValue hn

theorem parsesExactly_port : ParsesExactly {} .port (ascii "9000") := by
  refine (parsesExactly_iff (ascii "9000") fun _ => by decide).2 fun hslips => ?_
  have hvalue : decimalValue (ascii "9000") = some 9000 := by decide
  rw [hslips.1] at hvalue
  cases hvalue

/-- A size with a sign is accepted: `-1` is stored as the largest size. -/
theorem not_parsesExactly_frameSize :
    ¬ ∀ (options : CliOptions) (option : NumericOption) (value : ByteString),
      (option = .port → options.mode ≠ ascii "serial") → ParsesExactly options option value := by
  intro hexact
  have hparse : parseArgsFrom {} [ascii "--frame-size", ascii "-1"] =
      .ok { decoderConfig := { frameSize := 18446744073709551615 } } := by decide
  obtain ⟨n, hn, -⟩ := (hexact {} .frameSize (ascii "-1") (by decide)).1.1 ⟨_, hparse⟩
  have hvalue : decimalValue (ascii "-1") = none := by decide
  rw [hvalue] at hn
  cases hn

end PacketProbe
