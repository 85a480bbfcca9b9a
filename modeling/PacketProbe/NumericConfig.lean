import PacketProbe.ConfigMembers
import PacketProbe.NumericOptions

/-!
# The numeric members of a configuration

Ports are checked before they are converted. The other numbers are cast by the JSON library
first, and what a cast makes of a number outside the type, of a fraction or of a boolean can lie
in the range that is checked afterwards.
-/

namespace PacketProbe

/-! ### Numbers as decimal text -/

theorem digitsNumber_decimal (n : ℕ) : digitsNumber (decimal n) = n := by
  have hdigits : ∀ ch ∈ decimal n, IsDecimal ch := fun ch hch => decimalDigit hch
  have hfold := foldl_digitValue (Nat.toDigits 10 n) (fun _ hc => isDigit_of_mem_digits hc) 0
  rw [Nat.ofDigitChars_toDigits (by decide) (by decide)] at hfold
  change ((decimal n).map (digitValue 10)).foldl _ 0 = n at hfold
  rw [foldl_digits hdigits] at hfold
  exact hfold

theorem decimalValue_decimal (n : ℕ) : decimalValue (decimal n) = some n := by
  rw [decimalValue_of_digits (decimal_ne_nil n) fun ch hch => decimalDigit hch,
    digitsNumber_decimal]

/-- The numeral of a negative number. -/
def negativeText (n : ℕ) : NumberText :=
  { NumberText.ofDigits (decimal (n + 1)) (decimal_ne_nil _) (fun _ hch => decimalDigit hch) with
    sign := some .minus }

theorem negativeText_text (n : ℕ) : (negativeText n).text = signedDecimal (Int.negSucc n) := by
  change ascii "-" ++ (decimal (n + 1) ++ []) = ascii "-" ++ decimal (n + 1)
  rw [List.append_nil]

theorem negativeText_magnitude (n : ℕ) : (negativeText n).magnitude = n + 1 :=
  digitsNumber_decimal (n + 1)

theorem readsWithin_decimal_iff {low high n : ℕ} {x : UInt64} (hsize : n < UInt64.size) :
    ReadsWithin true low high (decimal n) x ↔ x.toNat = n ∧ low ≤ n ∧ n ≤ high := by
  have hvalue := decimalValue_decimal n
  constructor
  · intro h
    have hx := h.eq_decimalValue hvalue
    exact ⟨hx, hx ▸ h.range⟩
  · rintro ⟨rfl, hlow, hhigh⟩
    have hreads := readsWithin_of_decimalValue true hvalue hlow hhigh hsize
    rwa [UInt64.ofNat_toNat] at hreads

/-- A settings parser reads the decimal text of an `int` as the number, and a negative one as
a number far out of its range. -/
theorem readsWithin_signedDecimal_iff {low high : ℕ} {i : ℤ} {x : UInt64} (hlow : -4294967296 ≤ i)
    (hhigh : i ≤ 4294967296) (hsmall : high ≤ 4294967296) :
    ReadsWithin true low high (signedDecimal i) x ↔ (x.toNat : ℤ) = i ∧ low ≤ x.toNat ∧
      x.toNat ≤ high := by
  cases i with
  | ofNat n =>
    have hsize : n < UInt64.size := by
      change (n : ℤ) ≤ 4294967296 at hhigh
      change n < 18446744073709551616
      omega
    refine (readsWithin_decimal_iff hsize).trans ?_
    simp only [Int.ofNat_eq_natCast, Int.natCast_inj]
    constructor
    · rintro ⟨rfl, hrange⟩
      exact ⟨rfl, hrange⟩
    · rintro ⟨rfl, hrange⟩
      exact ⟨rfl, hrange⟩
  | negSucc n =>
    apply iff_of_false
    · intro h
      rw [← negativeText_text] at h
      obtain ⟨-, hx⟩ := h.eq_value
      have hrange := h.range.2
      have hvalue : (negativeText n).value = 0 - UInt64.ofNat (n + 1) := by
        rw [NumberText.value, negativeText_magnitude]
        rfl
      rw [← hx, hvalue] at hrange
      simp only [UInt64.toNat_sub, UInt64.toNat_ofNat', UInt64.reduceToNat] at hrange
      omega
    · rintro ⟨hx, -⟩
      exact absurd hx (by omega)

/-! ### Casts -/

/-- The number of a value that is written as an integer. -/
def Json.toInteger : Json → Option ℤ
  | .numberInteger n => some n.toInt
  | .numberUnsigned n => some n.toNat
  | _ => none

namespace JsonLibrary

variable (lib : JsonLibrary)

/-- The cast of a double: its integral part, if that fits the type. -/
def castUInt64 (x : Rat) : UInt64 :=
  let n := Json.truncate x
  if 0 ≤ n ∧ n.toNat < UInt64.size then UInt64.ofNat n.toNat else lib.castOutOfUInt64 x

def castInt (x : Rat) : Int32 :=
  let n := Json.truncate x
  if Int32.minValue.toInt ≤ n ∧ n ≤ Int32.maxValue.toInt then Int32.ofInt n else lib.castOutOfInt x

end JsonLibrary

variable {lib : JsonLibrary} {config : Json} {options result : CliOptions} {v : Json} {n : ℕ}

/-- The bits of a negative number are those of a large one. -/
theorem toInt_eq_bits (i : Int64) :
    i.toInt = if 2 * i.toUInt64.toNat < 18446744073709551616 then (i.toUInt64.toNat : ℤ)
      else (i.toUInt64.toNat : ℤ) - 18446744073709551616 := BitVec.toInt_eq_toNat_cond i.toBitVec

/-- `get<std::uint64_t>` gives integers from 0 on as they are. -/
theorem getUInt64_iff :
    (∃ x, lib.getUInt64 v = .ok x ∧ x.toNat = n) ↔
      v.toInteger = some (n : ℤ) ∨
      (∃ i : Int64, v = .numberInteger i ∧ i.toInt < 0 ∧ i.toUInt64.toNat = n) ∨
      ∃ x, v = .numberFloat x ∧ (lib.castUInt64 x).toNat = n := by
  cases v with
  | numberUnsigned m =>
    simp only [JsonLibrary.getUInt64, Json.toInteger, Except.ok.injEq, exists_eq_left',
      Option.some.injEq, reduceCtorEq, false_and, exists_false, or_false]
    omega
  | numberInteger i =>
    have hbits := toInt_eq_bits i
    have hlt := i.toUInt64.toNat_lt
    simp only [JsonLibrary.getUInt64, Json.toInteger, Except.ok.injEq, exists_eq_left',
      Option.some.injEq, Json.numberInteger.injEq, reduceCtorEq, false_and, exists_false, or_false]
    split at hbits <;> omega
  | numberFloat x => simp [JsonLibrary.getUInt64, Json.toInteger, JsonLibrary.castUInt64]
  | _ => simp [JsonLibrary.getUInt64, Json.toInteger]

/-- `get<int>` gives the low 32 bits of an integer, and numbers for booleans. -/
theorem getInt_iff {k : ℤ} :
    (∃ i, lib.getInt v = .ok i ∧ i.toInt = k) ↔
      (∃ m, v.toInteger = some m ∧ m.bmod 4294967296 = k) ∨
      (∃ x, v = .numberFloat x ∧ (lib.castInt x).toInt = k) ∨
      ∃ b, v = .boolean b ∧ (if b then 1 else 0) = k := by
  cases v with
  | numberUnsigned m =>
    have hcast : m.toUInt32.toInt32.toInt = (m.toNat : ℤ).bmod 4294967296 := by
      change m.toUInt32.toBitVec.toInt = _
      rw [BitVec.toInt_eq_toNat_bmod]
      change ((m.toUInt32.toNat : ℤ)).bmod 4294967296 = _
      have hmod := Int.emod_bmod m.toNat 4294967296
      rw [UInt64.toNat_toUInt32, Int.natCast_emod]
      exact hmod
    simp [JsonLibrary.getInt, Json.toInteger, hcast]
  | numberInteger i =>
    have hcast : i.toInt32.toInt = i.toInt.bmod 4294967296 := Int64.toInt_toInt32 i
    simp [JsonLibrary.getInt, Json.toInteger, hcast]
  | numberFloat x => simp [JsonLibrary.getInt, Json.toInteger, JsonLibrary.castInt]
  | boolean b => cases b <;> simp [JsonLibrary.getInt, Json.toInteger]
  | _ => simp [JsonLibrary.getInt, Json.toInteger]

/-! ### Reading the members -/

theorem getPort_eq_ok_iff {key : String} {fallback port : UInt16}
    (h : present config key = some v) :
    getPort config key fallback = .ok port ↔ v.toInteger = some (port.toNat : ℤ) := by
  have hport := port.toNat_lt
  have hinRange : ∀ value : Int64,
      (if value < 0 ∨ value > 65535 then Except.error (configError key " out of range")
        else .ok (UInt16.ofNat value.toInt.toNat)) = .ok port ↔ value.toInt = port.toNat := by
    intro value
    have hrange : (value < 0 ∨ value > 65535) ↔ (value.toInt < 0 ∨ 65535 < value.toInt) := by
      simp only [gt_iff_lt, Int64.lt_iff_toInt_lt, Int64.reduceToInt]
    split
    · rename_i hout
      rw [hrange] at hout
      exact iff_of_false (fun h => by cases h) (by omega)
    · rename_i hin
      rw [hrange] at hin
      rw [Except.ok.injEq, ← UInt16.toNat_inj, UInt16.toNat_ofNat']
      omega
  unfold getPort
  rw [h]
  cases v with
  | numberInteger value => exact (hinRange value).trans (by simp [Json.toInteger])
  | numberUnsigned value =>
    have hbits := toInt_eq_bits value.toInt64
    change value.toInt64.toInt = if 2 * value.toNat < 18446744073709551616 then (value.toNat : ℤ)
      else (value.toNat : ℤ) - 18446744073709551616 at hbits
    have hlt := value.toNat_lt
    refine (hinRange value.toInt64).trans ?_
    simp only [Json.toInteger, Option.some.injEq]
    split at hbits <;> omega
  | _ => exact iff_of_false (fun h => by cases h) (by simp [Json.toInteger])

theorem getBaudrate_eq_ok_iff {key : String} {fallback baudrate : UInt32}
    (h : present config key = some v) :
    getWith config key fallback (fun value => do
      parseSerialBaudrate (decimal (← lib.getUInt64 value).toNat)) = .ok baudrate ↔
      ∃ x, lib.getUInt64 v = .ok x ∧ 1 ≤ x.toNat ∧ x.toNat ≤ 4000000 ∧ x.toUInt32 = baudrate := by
  rw [getWith_of_present h, bind_eq_ok_iff]
  refine exists_congr fun x => and_congr_right fun _ => ?_
  rw [parseSerialBaudrate_eq_ok_iff]
  simp only [readsWithin_decimal_iff x.toNat_lt, UInt64.toNat_inj, and_assoc, exists_eq_left]

/-- Data bits and stop bits, which are read as an `int` and checked by their parser. -/
theorem getBits_eq_ok_iff {key : String} {fallback bits : UInt8} {low high : ℕ}
    (hsmall : high ≤ 255) {parse : ByteString → Except StdException UInt8}
    (hparse : ∀ {value : ByteString} {bits : UInt8},
      parse value = .ok bits ↔ ∃ x, ReadsWithin true low high value x ∧ x.toUInt8 = bits)
    (h : present config key = some v) :
    getWith config key fallback (fun value => do
      parse (signedDecimal (← lib.getInt value).toInt)) = .ok bits ↔
      ∃ i, lib.getInt v = .ok i ∧ i.toInt = bits.toNat ∧ low ≤ bits.toNat ∧ bits.toNat ≤ high := by
  rw [getWith_of_present h, bind_eq_ok_iff]
  refine exists_congr fun i => and_congr_right fun _ => ?_
  have hlow := i.le_toInt
  have hhigh := i.toInt_lt
  have hreads : ∀ x : UInt64, ReadsWithin true low high (signedDecimal i.toInt) x ↔
      (x.toNat : ℤ) = i.toInt ∧ low ≤ x.toNat ∧ x.toNat ≤ high := fun x =>
    readsWithin_signedDecimal_iff (by omega) (by omega) (by omega)
  simp only [hparse, hreads]
  constructor
  · rintro ⟨x, ⟨hx, hrange⟩, rfl⟩
    have hbits : x.toUInt8.toNat = x.toNat := by
      rw [UInt64.toNat_toUInt8]
      omega
    rw [hbits]
    exact ⟨hx.symm, hrange⟩
  · rintro ⟨hi, hrange⟩
    refine ⟨bits.toUInt64, ⟨?_, ?_⟩, UInt8.toUInt8_toUInt64 bits⟩
    · rw [UInt8.toNat_toUInt64, hi]
    · rwa [UInt8.toNat_toUInt64]

/-! ### Where the numbers are -/

/-- The `decoder` object of a configuration; without one, a new object. -/
def decoderOf (config : Json) : Json :=
  match config.find (ascii "decoder") with
  | some (.object members) => .object members
  | _ => .object []

namespace NumericOption

def member : NumericOption → ConfigKey ⊕ DecoderKey
  | port => .inl .port
  | listenPort => .inl .listenPort
  | bindPort => .inl .bindPort
  | targetPort => .inl .targetPort
  | baudrate => .inl .baudrate
  | dataBits => .inl .dataBits
  | stopBits => .inl .stopBits
  | frameSize => .inr .frameSize
  | lengthSize => .inr .lengthSize

/-- The configuration with this value in the member. -/
def place (option : NumericOption) (config v : Json) : Json :=
  match option.member with
  | .inl key => config.insert (ascii key.name) v
  | .inr key => config.insert (ascii "decoder") ((decoderOf config).insert (ascii key.name) v)

/-- In a configuration, a port can be 0. -/
def configLow : NumericOption → ℕ
  | port | listenPort | bindPort | targetPort => 0
  | option => option.low

/-- The options with the one member as in others. -/
def takeFrom (options result : CliOptions) : NumericOption → CliOptions
  | port => { options with port := result.port }
  | listenPort => { options with listenPort := result.listenPort }
  | bindPort => { options with bindPort := result.bindPort }
  | targetPort => { options with targetPort := result.targetPort }
  | baudrate => { options with baudrate := result.baudrate }
  | dataBits => { options with dataBits := result.dataBits }
  | stopBits => { options with stopBits := result.stopBits }
  | frameSize => { options with decoderConfig.frameSize := result.decoderConfig.frameSize }
  | lengthSize => { options with decoderConfig.lengthSize := result.decoderConfig.lengthSize }

variable {option : NumericOption}

theorem carried_takeFrom (h : options.carried = options) :
    (option.takeFrom options result).carried = option.takeFrom options result := by
  have htake := congrArg (option.takeFrom · result) h
  refine Eq.trans ?_ htake
  cases option <;> rfl

theorem takeFrom_readAs {key : ConfigKey} (hkey : option.member = .inl key) (config : Json) :
    (∀ other ≠ key, other.ReadAs lib config options →
      other.ReadAs lib config (option.takeFrom options result)) ∧
      (key.ReadAs lib config result → key.ReadAs lib config (option.takeFrom options result)) := by
  constructor
  · intro other hne hread
    cases option <;> cases hkey <;> cases other <;> first | exact hread | exact absurd rfl hne
  · intro hread
    cases option <;> cases hkey <;> exact hread

theorem stored_takeFrom :
    option.stored (option.takeFrom options result) = option.stored result := by
  cases option <;> rfl

theorem isObject_of_ok (h : engineConfigFromJson lib (option.place config v) = .ok options) :
    config.isObject = true := by
  have hobject := (engineConfigFromJson_eq_ok_iff.1 h).1
  rw [place] at hobject
  split at hobject <;> rwa [Json.isObject_insert] at hobject

/-- A member of `config` itself is all that decides what is stored for it. -/
theorem exists_stored_iff {key : ConfigKey} (hkey : option.member = .inl key)
    (h : engineConfigFromJson lib (option.place config .null) = .ok options) :
    (∃ result, engineConfigFromJson lib (option.place config v) = .ok result ∧
      option.stored result = n) ↔
      ∃ result, key.ReadAs lib (config.insert (ascii key.name) v) result ∧
        option.stored result = n := by
  have hplace : ∀ w, option.place config w = config.insert (ascii key.name) w := by
    intro w
    rw [place, hkey]
  rw [hplace] at h
  rw [hplace]
  constructor
  · rintro ⟨result, hresult, hstored⟩
    exact ⟨result, (engineConfigFromJson_eq_ok_iff.1 hresult).2.2 key, hstored⟩
  · rintro ⟨result, hread, hstored⟩
    have hcarried := (engineConfigFromJson_eq_ok_iff.1 h).2.1
    refine ⟨option.takeFrom options result, ?_, stored_takeFrom.trans hstored⟩
    exact engineConfig_insert h (carried_takeFrom hcarried)
      (fun other hne config => (takeFrom_readAs hkey config).1 other hne)
        ((takeFrom_readAs hkey _).2 hread)

theorem isObject_decoderOf (config : Json) : (decoderOf config).isObject = true := by
  unfold decoderOf
  split <;> rfl

theorem isNull_of_isObject {value : Json} (h : value.isObject = true) : value.isNull = false := by
  cases value <;> first | rfl | cases h

/-- What is read from the `decoder` object that has been put into a configuration. -/
theorem readAs_decoder_iff {decoder : Json} (hconfig : config.isObject = true)
    (hdecoder : decoder.isObject = true) :
    ConfigKey.decoder.ReadAs lib (config.insert (ascii "decoder") decoder) options ↔
      decoderConfigFromJson lib decoder = .ok options.decoderConfig := by
  have hpresent : present (config.insert (ascii "decoder") decoder) "decoder" = some decoder :=
    present_insert hconfig (isNull_of_isObject hdecoder)
  rw [ConfigKey.ReadAs, getWith_of_present hpresent, bind_eq_ok_iff]
  constructor
  · rintro ⟨_, -, hread⟩
    exact hread
  · intro hread
    exact ⟨(), throwIf_eq_ok_iff.2 (by rw [hdecoder]; decide), hread⟩

/-- The sizes are members of the `decoder` object. -/
theorem exists_stored_size_iff {key : DecoderKey} (hkey : option.member = .inr key)
    (h : engineConfigFromJson lib (option.place config .null) = .ok options) :
    (∃ result, engineConfigFromJson lib (option.place config v) = .ok result ∧
      option.stored result = n) ↔
      ∃ result : DecoderConfig,
        key.ReadAs lib ((decoderOf config).insert (ascii key.name) v) result ∧
        option.stored { decoderConfig := result } = n := by
  have hobject := isObject_of_ok h
  have hdecoder : ∀ w, ((decoderOf config).insert (ascii key.name) w).isObject = true := fun w =>
    Json.isObject_insert.trans (isObject_decoderOf config)
  have hplace : ∀ w, option.place config w =
      config.insert (ascii ConfigKey.decoder.name)
        ((decoderOf config).insert (ascii key.name) w) := by
    intro w
    rw [place, hkey]
    rfl
  rw [hplace] at h
  rw [hplace]
  constructor
  · rintro ⟨result, hresult, hstored⟩
    have hread := (engineConfigFromJson_eq_ok_iff.1 hresult).2.2 .decoder
    rw [ConfigKey.name, readAs_decoder_iff hobject (hdecoder v)] at hread
    refine ⟨result.decoderConfig, decoderConfigFromJson_eq_ok_iff.1 hread key, ?_⟩
    rw [← hstored]
    cases option <;> first | rfl | cases hkey
  · rintro ⟨result, hread, hstored⟩
    obtain ⟨-, hcarried, hreads⟩ := engineConfigFromJson_eq_ok_iff.1 h
    have hold := hreads .decoder
    rw [ConfigKey.name, readAs_decoder_iff hobject (hdecoder .null)] at hold
    let changed := option.takeFrom options { decoderConfig := result }
    have hnew : decoderConfigFromJson lib ((decoderOf config).insert (ascii key.name) v) =
        .ok changed.decoderConfig := by
      apply decoderConfig_insert hold
      · intro other hne config hother
        cases option <;> cases hkey <;> cases other <;> first | exact hother | exact absurd rfl hne
      · cases option <;> cases hkey <;> exact hread
    refine ⟨changed, ?_, stored_takeFrom.trans hstored⟩
    apply engineConfig_insert h (carried_takeFrom hcarried)
    · intro other hne config hother
      cases option <;> cases hkey <;> cases other <;> first | exact hother | exact absurd rfl hne
    · rw [ConfigKey.name, readAs_decoder_iff hobject (hdecoder v)]
      exact hnew

/-! ### What is accepted -/

/-- The value is accepted, and this number is stored for it. -/
def Accepts (lib : JsonLibrary) (option : NumericOption) (v : Json) (n : ℕ) : Prop :=
  match option with
  | port | listenPort | bindPort | targetPort => v.toInteger = some (n : ℤ) ∧ n ≤ 65535
  | baudrate => (∃ x, lib.getUInt64 v = .ok x ∧ x.toNat = n) ∧ 1 ≤ n ∧ n ≤ 4000000
  | dataBits => (∃ i, lib.getInt v = .ok i ∧ i.toInt = n) ∧ 5 ≤ n ∧ n ≤ 8
  | stopBits => (∃ i, lib.getInt v = .ok i ∧ i.toInt = n) ∧ 1 ≤ n ∧ n ≤ 2
  | frameSize | lengthSize => ∃ x, lib.getUInt64 v = .ok x ∧ x.toNat = n

/-- A port is a number of 16 bits. -/
theorem exists_port_iff {port : CliOptions → UInt16} {P : CliOptions → Prop}
    (set : UInt16 → CliOptions) (hset : ∀ p, port (set p) = p)
    (hP : ∀ result, P result ↔ v.toInteger = some ((port result).toNat : ℤ)) :
    (∃ result, P result ∧ (port result).toNat = n) ↔ v.toInteger = some (n : ℤ) ∧ n ≤ 65535 := by
  constructor
  · rintro ⟨result, hread, rfl⟩
    have hlt := (port result).toNat_lt
    exact ⟨(hP _).1 hread, by omega⟩
  · rintro ⟨hn, hle⟩
    have hnat : (UInt16.ofNat n).toNat = n := by
      rw [UInt16.toNat_ofNat']
      omega
    refine ⟨set (UInt16.ofNat n), ?_, by rw [hset, hnat]⟩
    rw [hP, hset, hnat, hn]

/-- Bits are a number of 8 bits. -/
theorem exists_bits_iff {bits : CliOptions → UInt8} {P : CliOptions → Prop} {low high : ℕ}
    (set : UInt8 → CliOptions) (hset : ∀ b, bits (set b) = b) (hsmall : high ≤ 255)
    (hP : ∀ result, P result ↔ ∃ i, lib.getInt v = .ok i ∧ i.toInt = (bits result).toNat ∧
      low ≤ (bits result).toNat ∧ (bits result).toNat ≤ high) :
    (∃ result, P result ∧ (bits result).toNat = n) ↔
      (∃ i, lib.getInt v = .ok i ∧ i.toInt = n) ∧ low ≤ n ∧ n ≤ high := by
  constructor
  · rintro ⟨result, hread, rfl⟩
    obtain ⟨i, hget, hi, hrange⟩ := (hP _).1 hread
    exact ⟨⟨i, hget, hi⟩, hrange⟩
  · rintro ⟨⟨i, hget, hi⟩, hrange⟩
    have hnat : (UInt8.ofNat n).toNat = n := by
      rw [UInt8.toNat_ofNat']
      omega
    refine ⟨set (UInt8.ofNat n), ?_, by rw [hset, hnat]⟩
    rw [hP, hset, hnat]
    exact ⟨i, hget, hi, hrange⟩

/-- The baudrate is a number of 32 bits. -/
theorem exists_baudrate_iff {P : CliOptions → Prop}
    (hP : ∀ result, P result ↔ ∃ x, lib.getUInt64 v = .ok x ∧ 1 ≤ x.toNat ∧ x.toNat ≤ 4000000 ∧
      x.toUInt32 = result.baudrate) :
    (∃ result, P result ∧ result.baudrate.toNat = n) ↔
      (∃ x, lib.getUInt64 v = .ok x ∧ x.toNat = n) ∧ 1 ≤ n ∧ n ≤ 4000000 := by
  have hnat : ∀ x : UInt64, x.toNat ≤ 4000000 → x.toUInt32.toNat = x.toNat := by
    intro x hx
    rw [UInt64.toNat_toUInt32]
    omega
  constructor
  · rintro ⟨result, hread, rfl⟩
    obtain ⟨x, hget, hlow, hhigh, hx⟩ := (hP _).1 hread
    rw [← hx, hnat x hhigh]
    exact ⟨⟨x, hget, rfl⟩, hlow, hhigh⟩
  · rintro ⟨⟨x, hget, rfl⟩, hlow, hhigh⟩
    exact ⟨{ baudrate := x.toUInt32 }, (hP _).2 ⟨x, hget, hlow, hhigh, rfl⟩, hnat x hhigh⟩

theorem exists_size_iff {size : DecoderConfig → UInt64} {P : DecoderConfig → Prop}
    (set : UInt64 → DecoderConfig) (hset : ∀ x, size (set x) = x)
    (hP : ∀ result, P result ↔ lib.getUInt64 v = .ok (size result)) :
    (∃ result, P result ∧ (size result).toNat = n) ↔
      ∃ x, lib.getUInt64 v = .ok x ∧ x.toNat = n := by
  constructor
  · rintro ⟨result, hread, hn⟩
    exact ⟨size result, (hP _).1 hread, hn⟩
  · rintro ⟨x, hget, hn⟩
    refine ⟨set x, ?_, by rw [hset, hn]⟩
    rw [hP, hset, hget]

/-- The number that is stored is the one that the member is read as. -/
theorem stored_iff (hv : v.isNull = false)
    (h : engineConfigFromJson lib (option.place config .null) = .ok options) :
    (∃ result, engineConfigFromJson lib (option.place config v) = .ok result ∧
      option.stored result = n) ↔
      option.Accepts lib v n := by
  have hobject := isObject_of_ok h
  have hpresent :
      ∀ {key : String}, present ((decoderOf config).insert (ascii key) v) key = some v :=
    present_insert (isObject_decoderOf config) hv
  cases option with
  | port =>
    rw [exists_stored_iff rfl h]
    exact exists_port_iff (fun p => { port := p }) (fun _ => rfl) fun _ =>
      getPort_eq_ok_iff (present_insert hobject hv)
  | listenPort =>
    rw [exists_stored_iff rfl h]
    exact exists_port_iff (fun p => { listenPort := p }) (fun _ => rfl) fun _ =>
      getPort_eq_ok_iff (present_insert hobject hv)
  | bindPort =>
    rw [exists_stored_iff rfl h]
    exact exists_port_iff (fun p => { bindPort := p }) (fun _ => rfl) fun _ =>
      getPort_eq_ok_iff (present_insert hobject hv)
  | targetPort =>
    rw [exists_stored_iff rfl h]
    exact exists_port_iff (fun p => { targetPort := p }) (fun _ => rfl) fun _ =>
      getPort_eq_ok_iff (present_insert hobject hv)
  | baudrate =>
    rw [exists_stored_iff rfl h]
    exact exists_baudrate_iff fun _ => getBaudrate_eq_ok_iff (present_insert hobject hv)
  | dataBits =>
    rw [exists_stored_iff rfl h]
    exact exists_bits_iff (fun b => { dataBits := b }) (fun _ => rfl) (by decide) fun _ =>
      getBits_eq_ok_iff (by decide) parseSerialDataBits_eq_ok_iff (present_insert hobject hv)
  | stopBits =>
    rw [exists_stored_iff rfl h]
    exact exists_bits_iff (fun b => { stopBits := b }) (fun _ => rfl) (by decide) fun _ =>
      getBits_eq_ok_iff (by decide) parseSerialStopBits_eq_ok_iff (present_insert hobject hv)
  | frameSize =>
    rw [exists_stored_size_iff rfl h]
    have hread : ∀ result : DecoderConfig, DecoderKey.frameSize.ReadAs lib
        ((decoderOf config).insert (ascii DecoderKey.frameSize.name) v) result ↔
        lib.getUInt64 v = .ok result.frameSize := by
      intro result
      rw [DecoderKey.ReadAs, DecoderKey.name, getWith_of_present hpresent]
    exact exists_size_iff (fun x => { frameSize := x }) (fun _ => rfl) hread
  | lengthSize =>
    rw [exists_stored_size_iff rfl h]
    have hread : ∀ result : DecoderConfig, DecoderKey.lengthSize.ReadAs lib
        ((decoderOf config).insert (ascii DecoderKey.lengthSize.name) v) result ↔
        lib.getUInt64 v = .ok result.lengthSize := by
      intro result
      rw [DecoderKey.ReadAs, DecoderKey.name, getWith_of_present hpresent]
    exact exists_size_iff (fun x => { lengthSize := x }) (fun _ => rfl) hread

/-- For `null` the default is stored. -/
theorem stored_null (h : engineConfigFromJson lib (option.place config .null) = .ok result) :
    option.stored result = option.stored {} := by
  have hobject := isObject_of_ok h
  have hreads := (engineConfigFromJson_eq_ok_iff.1 h).2.2
  obtain ⟨key, hkey⟩ | ⟨key, hkey⟩ : (∃ key, option.member = .inl key) ∨
    ∃ key, option.member = .inr key := by
    cases option.member with
    | inl key => exact .inl ⟨key, rfl⟩
    | inr key => exact .inr ⟨key, rfl⟩
  · have hread := hreads key
    rw [place, hkey] at hread
    have hnone : present (config.insert (ascii key.name) .null) key.name = none :=
      present_insert_null hobject
    cases option <;> cases hkey <;>
      simp only [ConfigKey.name] at hnone <;>
      simp only [ConfigKey.ReadAs, ConfigKey.name, getPort, getWith, hnone,
        Except.ok.injEq] at hread <;>
      rw [stored, ← hread] <;> rfl
  · have hdecoder := hreads .decoder
    rw [place, hkey] at hdecoder
    have hmember : ((decoderOf config).insert (ascii key.name) .null).isObject = true :=
      Json.isObject_insert.trans (isObject_decoderOf config)
    have hread :=
      decoderConfigFromJson_eq_ok_iff.1 ((readAs_decoder_iff hobject hmember).1 hdecoder) key
    have hnone : present ((decoderOf config).insert (ascii key.name) .null) key.name = none :=
      present_insert_null (isObject_decoderOf config)
    cases option <;> cases hkey <;>
      simp only [DecoderKey.name] at hnone <;>
      simp only [DecoderKey.ReadAs, DecoderKey.name, getWith, hnone, Except.ok.injEq] at hread <;>
      rw [stored, ← hread] <;> rfl

/-! ### Exactness -/

/-- The value is this integer of the range. -/
def IsIntegerWithin (option : NumericOption) (v : Json) (n : ℕ) : Prop :=
  v.toInteger = some (n : ℤ) ∧ option.configLow ≤ n ∧ n ≤ option.high

/-- A cast to `int` makes this number of a value that is another one. -/
def MiscastInt (lib : JsonLibrary) (v : Json) (n : ℕ) : Prop :=
  (∃ m, v.toInteger = some m ∧ m ≠ n ∧ m.bmod 4294967296 = n) ∨
  (∃ x, v = .numberFloat x ∧ (lib.castInt x).toInt = n) ∨
  ∃ b, v = .boolean b ∧ (if b then 1 else 0) = (n : ℤ)

/-- A cast makes this number of the range of a value that is another one. -/
def MiscastTo (lib : JsonLibrary) (v : Json) (n : ℕ) : NumericOption → Prop
  | port | listenPort | bindPort | targetPort => False
  | baudrate => (∃ x, v = .numberFloat x ∧ (lib.castUInt64 x).toNat = n) ∧ 1 ≤ n ∧ n ≤ 4000000
  | dataBits => MiscastInt lib v n ∧ 5 ≤ n ∧ n ≤ 8
  | stopBits => MiscastInt lib v n ∧ 1 ≤ n ∧ n ≤ 2
  | frameSize | lengthSize =>
    (∃ i : Int64, v = .numberInteger i ∧ i.toInt < 0 ∧ i.toUInt64.toNat = n) ∨
      ∃ x, v = .numberFloat x ∧ (lib.castUInt64 x).toNat = n

theorem bits_iff {low high : ℕ} (hsmall : high ≤ 255) :
    ((∃ i, lib.getInt v = .ok i ∧ i.toInt = n) ∧ low ≤ n ∧ n ≤ high) ↔
      (v.toInteger = some (n : ℤ) ∧ low ≤ n ∧ n ≤ high) ∨ MiscastInt lib v n ∧ low ≤ n ∧
        n ≤ high := by
  rw [getInt_iff, ← or_and_right]
  apply and_congr_left
  rintro ⟨-, hhigh⟩
  have hbmod : (n : ℤ).bmod 4294967296 = n := Int.bmod_eq_of_le (by omega) (by omega)
  unfold MiscastInt
  constructor
  · rintro (⟨m, hm, hcast⟩ | hother)
    · by_cases hmn : m = n
      · exact .inl (hmn ▸ hm)
      · exact .inr (.inl ⟨m, hm, hmn, hcast⟩)
    · exact .inr (.inr hother)
  · rintro (hn | ⟨m, hm, -, hcast⟩ | hother)
    · exact .inl ⟨n, hn, hbmod⟩
    · exact .inl ⟨m, hm, hcast⟩
    · exact .inr hother

/-- Integers of the range are accepted, and what a cast takes into it. -/
theorem accepts_iff :
    option.Accepts lib v n ↔ option.IsIntegerWithin v n ∨ option.MiscastTo lib v n := by
  cases option with
  | port | listenPort | bindPort | targetPort =>
    simp only [Accepts, IsIntegerWithin, MiscastTo, configLow, high, Nat.zero_le, true_and,
      or_false]
  | baudrate =>
    simp only [Accepts, IsIntegerWithin, MiscastTo, configLow, low, high]
    rw [getUInt64_iff, ← or_and_right]
    apply and_congr_left
    rintro ⟨-, hhigh⟩
    apply or_congr_right
    apply or_iff_right
    rintro ⟨i, -, hneg, hn⟩
    have hbits := toInt_eq_bits i
    split at hbits <;> omega
  | dataBits => exact bits_iff (by decide)
  | stopBits => exact bits_iff (by decide)
  | frameSize | lengthSize =>
    simp only [Accepts, IsIntegerWithin, MiscastTo, configLow, low, high, Nat.zero_le, true_and]
    constructor
    · intro hget
      have hn : n ≤ 18446744073709551615 := by
        obtain ⟨x, -, rfl⟩ := hget
        exact toNat_le x
      exact (getUInt64_iff.1 hget).imp_left fun hinteger => ⟨hinteger, hn⟩
    · intro h
      exact getUInt64_iff.2 (h.imp_left And.left)

/-- What a cast takes into the range is not an integer of the range. -/
theorem MiscastTo.not_isIntegerWithin (h : option.MiscastTo lib v n) (k : ℕ) :
    ¬ option.IsIntegerWithin v k := by
  have hfloat : ∀ x, ¬ (Json.numberFloat x).toInteger = some (k : ℤ) := fun x hx => by cases hx
  have hint : MiscastInt lib v n → v.toInteger = some (k : ℤ) → k ≤ 255 → False := by
    rintro (⟨m, hm, hmn, hcast⟩ | ⟨x, rfl, -⟩ | ⟨b, rfl, -⟩) hk hsmall
    · obtain rfl := Option.some.inj (hm.symm.trans hk)
      have hbmod : (k : ℤ).bmod 4294967296 = k := Int.bmod_eq_of_le (by omega) (by omega)
      exact hmn (hbmod.symm.trans hcast)
    · cases hk
    · cases hk
  rintro ⟨hk, -, hhigh⟩
  cases option with
  | port | listenPort | bindPort | targetPort => exact h
  | baudrate =>
    obtain ⟨⟨x, rfl, -⟩, -⟩ := h
    exact hfloat x hk
  | dataBits => exact hint h.1 hk (hhigh.trans (by decide))
  | stopBits => exact hint h.1 hk (hhigh.trans (by decide))
  | frameSize | lengthSize =>
    obtain ⟨i, rfl, hneg, -⟩ | ⟨x, rfl, -⟩ := h
    · have hi : i.toInt = k := Option.some.inj hk
      omega
    · exact hfloat x hk

/-- The value is accepted exactly if it is `null` or an integer of the range, and then the default
or the integer is stored. -/
def ValidatesExactly (lib : JsonLibrary) (option : NumericOption) (config v : Json) : Prop :=
  ((∃ result, engineConfigFromJson lib (option.place config v) = .ok result) ↔
    v = .null ∨ ∃ n, option.IsIntegerWithin v n) ∧
  ∀ result, engineConfigFromJson lib (option.place config v) = .ok result →
    (v = .null → option.stored result = option.stored {}) ∧
    ∀ n, option.IsIntegerWithin v n → option.stored result = n

/-- A member of a valid configuration is validated exactly for all values but those that a cast
takes into its range. -/
theorem validatesExactly_iff (v : Json)
    (hvalid : ∃ options, engineConfigFromJson lib (option.place config .null) = .ok options) :
    option.ValidatesExactly lib config v ↔ ¬ ∃ n, option.MiscastTo lib v n := by
  obtain ⟨options, hvalid⟩ := hvalid
  cases hv : v.isNull with
  | true =>
    obtain rfl : v = .null := by
      cases v <;> first | rfl | cases hv
    have hnone : ∀ n, ¬ option.IsIntegerWithin .null n := by
      rintro n ⟨hn, -⟩
      cases hn
    refine iff_of_true ⟨iff_of_true ⟨options, hvalid⟩ (.inl rfl), fun result h => ?_⟩ ?_
    · exact ⟨fun _ => stored_null h, fun n hn => absurd hn (hnone n)⟩
    · rintro ⟨n, hn⟩
      cases option <;> simp [MiscastTo, MiscastInt, Json.toInteger] at hn
  | false =>
    have hnull : v ≠ .null := by
      rintro rfl
      cases hv
    have hstored := fun n => stored_iff (n := n) hv hvalid
    have haccepted : (∃ result, engineConfigFromJson lib (option.place config v) = .ok result) ↔
        ∃ n, option.Accepts lib v n := by
      constructor
      · rintro ⟨result, hresult⟩
        exact ⟨_, (hstored _).1 ⟨result, hresult, rfl⟩⟩
      · rintro ⟨n, hn⟩
        obtain ⟨result, hresult, -⟩ := (hstored n).2 hn
        exact ⟨result, hresult⟩
    constructor
    · rintro ⟨hexact, -⟩ ⟨n, hcast⟩
      obtain h | ⟨k, hk⟩ := hexact.1 (haccepted.2 ⟨n, accepts_iff.2 (.inr hcast)⟩)
      · exact hnull h
      · exact hcast.not_isIntegerWithin k hk
    · intro hcast
      have hiff : ∀ n, option.Accepts lib v n ↔ option.IsIntegerWithin v n := fun n =>
        accepts_iff.trans (or_iff_left fun h => hcast ⟨n, h⟩)
      refine ⟨?_, fun result hresult => ⟨fun h => absurd h hnull, fun n hn => ?_⟩⟩
      · rw [haccepted, or_iff_right hnull]
        exact exists_congr hiff
      · have hread := (hiff _).1 ((hstored _).1 ⟨result, hresult, rfl⟩)
        exact Int.natCast_inj.1 (Option.some.inj (hread.1.symm.trans hn.1))

/-- A configuration that leaves its numbers to the defaults. -/
def udpConfig : Json := .object [(ascii "mode", .string (ascii "udp"))]

def plainLibrary : JsonLibrary := .ofTable [] rfl

/-- The frame size -1 is accepted, and stored as the largest size. -/
theorem not_validatesExactly_frameSize :
    ¬ NumericOption.frameSize.ValidatesExactly plainLibrary udpConfig (.numberInteger (-1)) := by
  rintro ⟨hexact, -⟩
  obtain h | ⟨n, hn, -⟩ := hexact.1 ⟨_, rfl⟩
  · cases h
  · have hneg : (-1 : ℤ) = n := Option.some.inj hn
    omega

/-- The baud rate 9600 is accepted, and stored as it is. -/
theorem validatesExactly_baudrate : ∃ result,
    engineConfigFromJson plainLibrary
      (NumericOption.baudrate.place udpConfig (.numberUnsigned 9600)) = .ok result ∧
      NumericOption.baudrate.stored result = 9600 := by
  have huncast : ¬ ∃ n, NumericOption.baudrate.MiscastTo plainLibrary (.numberUnsigned 9600) n := by
    rintro ⟨n, ⟨x, hx, -⟩, -⟩
    cases hx
  have hwithin : NumericOption.baudrate.IsIntegerWithin (.numberUnsigned 9600) 9600 :=
    ⟨rfl, by decide, by decide⟩
  have hvalid :
    ∃ options, engineConfigFromJson plainLibrary (NumericOption.baudrate.place udpConfig .null) =
      .ok options := ⟨_, rfl⟩
  obtain ⟨haccepted, hstored⟩ := (validatesExactly_iff (.numberUnsigned 9600) hvalid).2 huncast
  obtain ⟨result, hresult⟩ := haccepted.2 (.inr ⟨9600, hwithin⟩)
  exact ⟨result, hresult, (hstored result hresult).2 9600 hwithin⟩

end NumericOption

end PacketProbe
