import PacketProbe.InputParsing

/-!
# The grammar of hex payloads

`parse_hex_payload` accepts the sequences of separators and bytes, where a byte is two
adjacent hex digits with or without `0x` in front of them. The parser of the source works
on indices; its scan ends, and it never reads behind the end of the line.
-/

namespace PacketProbe

/-! ### The grammar -/

/-- A hex digit of either case, with its value. -/
structure HexDigit where
  ch : UInt8
  value : ℕ
  value_eq : hexValue ch = some value

/-- `0x` or `0X`. -/
inductive HexMark where
  | lower | upper

def HexMark.text : HexMark → ByteString
  | .lower => ascii "0x"
  | .upper => ascii "0X"

inductive HexItem where
  | separator (ch : UInt8) (h : isSeparator ch = true)
  | byte (mark : Option HexMark) (high low : HexDigit)

namespace HexItem

def text : HexItem → ByteString
  | separator ch _ => [ch]
  | byte mark high low => (mark.map HexMark.text).getD [] ++ [high.ch, low.ch]

/-- The byte an item denotes, if it is not a separator. -/
def denotes : HexItem → Option UInt8
  | separator _ _ => none
  | byte _ high low => some (UInt8.ofNat (16 * high.value + low.value))

end HexItem

/-- The line is a sequence of items that denote these bytes. -/
def IsHexText (line : ByteString) (bytes : Bytes) : Prop :=
  ∃ items : List HexItem, items.flatMap HexItem.text = line ∧
    items.filterMap HexItem.denotes = bytes

/-! ### Digits -/

/-- A hex digit of either case. -/
def IsHexCode (c : ℕ) : Prop :=
  (0x30 ≤ c ∧ c ≤ 0x39) ∨ (0x41 ≤ c ∧ c ≤ 0x46) ∨ (0x61 ≤ c ∧ c ≤ 0x66)

theorem isSome_hexValue_iff {ch : UInt8} : (hexValue ch).isSome = true ↔ IsHexCode ch.toNat := by
  unfold hexValue IsHexCode
  simp only [UInt8.le_iff_toNat_le, UInt8.reduceToNat]
  split
  · apply iff_of_true rfl
    omega
  · split
    · apply iff_of_true rfl
      omega
    · split
      · apply iff_of_true rfl
        omega
      · apply iff_of_false Bool.false_ne_true
        omega

theorem isSeparator_iff {ch : UInt8} :
    isSeparator ch = true ↔ (0x09 ≤ ch.toNat ∧ ch.toNat ≤ 0x0D) ∨ ch.toNat = 0x20 ∨
      ch.toNat = 0x3A ∨
      ch.toNat = 0x2D := by
  simp only [isSeparator, isspace, Bool.or_eq_true, Bool.and_eq_true, beq_iff_eq, decide_eq_true_eq,
    UInt8.le_iff_toNat_le, ← UInt8.toNat_inj, UInt8.reduceToNat]
  omega

theorem hexValue_lt {ch : UInt8} {value : ℕ} (h : hexValue ch = some value) : value < 16 := by
  unfold hexValue at h
  simp only [UInt8.le_iff_toNat_le, UInt8.reduceToNat] at h
  split at h
  · cases h
    omega
  · split at h
    · cases h
      omega
    · split at h
      · cases h
        omega
      · cases h

/-- A hex digit separates nothing, and it is not the letter of a mark. -/
theorem hexDigit_plain {ch : UInt8} (h : (hexValue ch).isSome = true) :
    isSeparator ch = false ∧ ch ≠ 120 ∧ ch ≠ 88 := by
  have hcode := isSome_hexValue_iff.1 h
  unfold IsHexCode at hcode
  refine ⟨?_, ?_, ?_⟩
  · rw [← Bool.not_eq_true, isSeparator_iff]
    omega
  · simp only [Ne, ← UInt8.toNat_inj, UInt8.reduceToNat]
    omega
  · simp only [Ne, ← UInt8.toNat_inj, UInt8.reduceToNat]
    omega

theorem shiftLeft_or_eq (high : ℕ) {low : ℕ} (hlow : low < 16) :
    high <<< 4 ||| low = 16 * high + low := by
  rw [← Nat.shiftLeft_add_eq_or_of_lt hlow, Nat.shiftLeft_eq]
  omega

namespace HexDigit

variable (digit : HexDigit)

theorem isSome : (hexValue digit.ch).isSome = true := by rw [digit.value_eq]; rfl

end HexDigit

/-! ### Accepted lines -/

theorem startsWith0x_of_ne {ch d : UInt8} {rest : ByteString} (hlower : d ≠ 120) (hupper : d ≠ 88) :
    startsWith0x (ch :: d :: rest) = false := by
  simp only [startsWith0x, Bool.and_eq_false_iff, Bool.or_eq_false_iff, beq_eq_false_iff_ne]
  exact .inr ⟨hlower, hupper⟩

theorem parseHexFrom_separator {ch : UInt8} (h : isSeparator ch = true) (index : ℕ)
    (rest : ByteString) :
    parseHexFrom index (ch :: rest) = parseHexFrom (index + 1) rest := by
  rw [parseHexFrom, if_pos h]

/-- The length of the mark at the front. -/
def markLength (line : ByteString) : ℕ := if startsWith0x line then 2 else 0

/-- The byte that the two digits at the front denote. -/
def leadingByte : ByteString → Option UInt8
  | high :: low :: _ =>
    (hexValue high).bind fun h => (hexValue low).map fun l => UInt8.ofNat (16 * h + l)
  | _ => none

theorem leadingByte_eq_some_iff {line : ByteString} {byte : UInt8} :
    leadingByte line = some byte ↔ ∃ (high low : HexDigit) (rest : ByteString),
      line = high.ch :: low.ch :: rest ∧ UInt8.ofNat (16 * high.value + low.value) = byte := by
  constructor
  · intro h
    unfold leadingByte at h
    split at h
    · rename_i high low rest
      obtain ⟨h, hhigh, hbyte⟩ := Option.bind_eq_some_iff.1 h
      obtain ⟨l, hlow, hvalue⟩ := Option.map_eq_some_iff.1 hbyte
      exact ⟨⟨high, h, hhigh⟩, ⟨low, l, hlow⟩, rest, rfl, hvalue⟩
    · cases h
  · rintro ⟨high, low, rest, rfl, rfl⟩
    simp only [leadingByte, high.value_eq, low.value_eq, Option.bind_some, Option.map_some]

/-- One turn of the loop in front of something that is not a separator. -/
theorem parseHexFrom_cons {ch : UInt8} (h : isSeparator ch = false) (index : ℕ)
    (rest : ByteString) :
    parseHexFrom index (ch :: rest) =
      match leadingByte ((ch :: rest).drop (markLength (ch :: rest))) with
      | some byte =>
        if continuesHex (((ch :: rest).drop (markLength (ch :: rest))).drop 2) then
          (parseHexFrom (index + markLength (ch :: rest) + 2)
            (((ch :: rest).drop (markLength (ch :: rest))).drop 2)).map (byte :: ·)
        else
          .error
            (hexError (index + markLength (ch :: rest) + 2 + 1) "expected hex digit or separator")
      | none => .error (hexError (index + 1) "expected two hex digits") := by
  rw [parseHexFrom, h, if_neg Bool.false_ne_true]
  unfold markLength
  dsimp only
  generalize (if startsWith0x (ch :: rest) = true then 2 else 0) = skipped
  split
  · rename_i high low rest' hfound
    rw [hfound]
    cases hhigh : hexValue high with
    | none => simp only [leadingByte, hhigh, Option.bind_none]
    | some h =>
      cases hlow : hexValue low with
      | none => simp only [leadingByte, hhigh, hlow, Option.bind_some, Option.map_none]
      | some l =>
        simp only [leadingByte, hhigh, hlow, shiftLeft_or_eq _ (hexValue_lt hlow),
          Option.bind_some, Option.map_some, List.drop_succ_cons, List.drop_zero]
  · rename_i hnone
    cases hbyte : leadingByte ((ch :: rest).drop skipped) with
    | none => rfl
    | some byte =>
      obtain ⟨high, low, rest', hfound, -⟩ := leadingByte_eq_some_iff.1 hbyte
      exact absurd hfound (hnone _ _ _)

/-- Two digits at the front, behind a mark if there is one. -/
theorem parseHexFrom_digits {ch : UInt8} {line rest : ByteString} (high low : HexDigit) (index : ℕ)
    (hch : isSeparator ch = false)
    (hdigits : (ch :: line).drop (markLength (ch :: line)) = high.ch :: low.ch :: rest)
    (hrest : continuesHex rest = true) :
    parseHexFrom index (ch :: line) = (parseHexFrom (index + markLength (ch :: line) + 2) rest).map
      (UInt8.ofNat (16 * high.value + low.value) :: ·) := by
  have hbyte :
      leadingByte (high.ch :: low.ch :: rest) = some (UInt8.ofNat (16 * high.value + low.value)) :=
    leadingByte_eq_some_iff.2 ⟨high, low, rest, rfl, rfl⟩
  rw [parseHexFrom_cons hch, hdigits, hbyte, List.drop_succ_cons, List.drop_succ_cons,
    List.drop_zero]
  exact if_pos hrest

theorem continuesHex_items (items : List HexItem) :
    continuesHex (items.flatMap HexItem.text) = true := by
  cases items with
  | nil => rfl
  | cons item items =>
    rw [List.flatMap_cons]
    cases item with
    | separator ch h =>
      change (isSeparator ch || _ || _) = true
      rw [h]
      rfl
    | byte mark high low =>
      cases mark with
      | none =>
        change (_ || _ || (hexValue high.ch).isSome) = true
        rw [high.isSome, Bool.or_true]
      | some mark => cases mark <;> rfl

theorem parseHexFrom_items (items : List HexItem) (index : ℕ) :
    parseHexFrom index (items.flatMap HexItem.text) = .ok (items.filterMap HexItem.denotes) := by
  induction items generalizing index with
  | nil => rw [List.flatMap_nil, parseHexFrom]; rfl
  | cons item items ih =>
    have hrest := continuesHex_items items
    rw [List.flatMap_cons, List.filterMap_cons]
    cases item with
    | separator ch h => exact (parseHexFrom_separator h index _).trans (ih _)
    | byte mark high low =>
      have hbyte :
        ∀ result : Except StdException Bytes, result = .ok (items.filterMap HexItem.denotes) →
          result.map (UInt8.ofNat (16 * high.value + low.value) :: ·) =
            .ok (UInt8.ofNat (16 * high.value + low.value) :: items.filterMap HexItem.denotes) := by
        rintro _ rfl
        rfl
      cases mark with
      | none =>
        obtain ⟨hsep, -, -⟩ := hexDigit_plain high.isSome
        obtain ⟨-, hlower, hupper⟩ := hexDigit_plain low.isSome
        have hmark : startsWith0x (high.ch :: low.ch :: items.flatMap HexItem.text) = false :=
          startsWith0x_of_ne hlower hupper
        refine (parseHexFrom_digits high low index hsep ?_ hrest).trans (hbyte _ (ih _))
        unfold markLength
        rw [if_neg (hmark ▸ Bool.false_ne_true)]
        rfl
      | some mark =>
        cases mark with
        | lower => exact (parseHexFrom_digits high low index rfl rfl hrest).trans (hbyte _ (ih _))
        | upper => exact (parseHexFrom_digits high low index rfl rfl hrest).trans (hbyte _ (ih _))

theorem map_eq_ok_iff {ε α β : Type} {f : α → β} {x : Except ε α} {b : β} :
    x.map f = .ok b ↔ ∃ a, x = .ok a ∧ f a = b := by
  cases x with
  | error ex =>
    constructor
    · intro h
      cases h
    · rintro ⟨a, h, -⟩
      cases h
  | ok a =>
    constructor
    · intro h
      exact ⟨a, rfl, Except.ok.inj h⟩
    · rintro ⟨a, h, rfl⟩
      cases h
      rfl

/-- The mark is where it is found. -/
theorem take_markLength (line : ByteString) :
    ∃ mark : Option HexMark, line.take (markLength line) = (mark.map HexMark.text).getD [] := by
  unfold markLength
  split
  · rename_i h
    unfold startsWith0x at h
    split at h
    · rename_i zero x rest
      simp only [Bool.and_eq_true, Bool.or_eq_true, beq_iff_eq] at h
      obtain ⟨rfl, rfl | rfl⟩ := h
      · exact ⟨some .lower, rfl⟩
      · exact ⟨some .upper, rfl⟩
    · cases h
  · exact ⟨none, rfl⟩

/-- Where the parser succeeds, there is an item at the front. -/
theorem exists_item_of_ok {ch : UInt8} {index : ℕ} {rest : ByteString} {bytes : Bytes}
    (h : parseHexFrom index (ch :: rest) = .ok bytes) :
    ∃ (item : HexItem) (rest' : ByteString) (index' : ℕ) (bytes' : Bytes),
      ch :: rest = item.text ++ rest' ∧ rest'.length < (ch :: rest).length ∧
      parseHexFrom index' rest' = .ok bytes' ∧ bytes = item.denotes.toList ++ bytes' := by
  cases hch : isSeparator ch with
  | true =>
    rw [parseHexFrom_separator hch] at h
    exact ⟨.separator ch hch, rest, _, bytes, rfl, Nat.lt_succ_self _, h, rfl⟩
  | false =>
    rw [parseHexFrom_cons hch] at h
    split at h
    · rename_i byte hbyte
      obtain ⟨high, low, rest', hdigits, rfl⟩ := leadingByte_eq_some_iff.1 hbyte
      rw [hdigits, List.drop_succ_cons, List.drop_succ_cons, List.drop_zero] at h
      split at h
      · obtain ⟨mark, hmark⟩ := take_markLength (ch :: rest)
        have hline : ch :: rest = (mark.map HexMark.text).getD [] ++
            (high.ch :: low.ch :: rest') := by
          rw [← hmark, ← hdigits, List.take_append_drop]
        obtain ⟨bytes', hbytes', rfl⟩ := map_eq_ok_iff.1 h
        refine ⟨.byte mark high low, rest', _, bytes', ?_, ?_, hbytes', rfl⟩
        · rw [hline, HexItem.text, List.append_assoc]
          rfl
        · rw [hline, List.length_append, List.length_cons, List.length_cons]
          omega
      · cases h
    · cases h

theorem isHexText_of_ok {index : ℕ} {line : ByteString} {bytes : Bytes}
    (h : parseHexFrom index line = .ok bytes) : IsHexText line bytes := by
  induction hn : line.length using Nat.strongRecOn generalizing index line bytes with
  | _ n ih =>
    cases line with
    | nil =>
      rw [parseHexFrom] at h
      cases h
      exact ⟨[], rfl, rfl⟩
    | cons ch rest =>
      obtain ⟨item, rest', index', bytes', hline, hlength, hrest, rfl⟩ := exists_item_of_ok h
      obtain ⟨items, rfl, rfl⟩ := ih rest'.length (hn ▸ hlength) hrest rfl
      refine ⟨item :: items, ?_, ?_⟩
      · rw [hline, List.flatMap_cons]
      · rw [List.filterMap_cons]
        cases item <;> rfl

/-- The parser accepts the texts of the grammar, with the bytes they denote. -/
theorem parseHexPayload_eq_ok_iff (line : ByteString) (bytes : Bytes) :
    parseHexPayload line = .ok bytes ↔ IsHexText line bytes := by
  constructor
  · exact isHexText_of_ok
  · rintro ⟨items, rfl, rfl⟩
    exact parseHexFrom_items items 0

/-- The other lines are refused with `invalid_argument`. -/
theorem kind_of_error {index : ℕ} {line : ByteString} {ex : StdException}
    (h : parseHexFrom index line = .error ex) : ex.kind = .invalidArgument := by
  induction hn : line.length using Nat.strongRecOn generalizing index line with
  | _ n ih =>
    cases line with
    | nil =>
      rw [parseHexFrom] at h
      cases h
    | cons ch rest =>
      cases hch : isSeparator ch with
      | true =>
        rw [parseHexFrom_separator hch] at h
        exact ih rest.length (hn ▸ Nat.lt_succ_self _) h rfl
      | false =>
        rw [parseHexFrom_cons hch] at h
        split at h
        · split at h
          · cases hrest : parseHexFrom (index + markLength (ch :: rest) + 2)
                (((ch :: rest).drop (markLength (ch :: rest))).drop 2) with
            | ok bytes =>
              rw [hrest] at h
              cases h
            | error ex' =>
              rw [hrest] at h
              cases h
              refine ih _ ?_ hrest rfl
              rw [← hn, List.length_drop, List.length_drop, List.length_cons]
              omega
          · cases h
            rfl
        · cases h
          rfl

/-! ### Written payloads -/

theorem hexDigit_digits (n : Fin 16) : hexValue (hexDigit n) = some n.val ∧
    hexValue (tolower (hexDigit n)) = some n.val := by
  have hall : ∀ n : Fin 16, hexValue (hexDigit n) = some n.val ∧
      hexValue (tolower (hexDigit n)) = some n.val := by decide +kernel
  exact hall n

/-- The digit of either case. -/
def HexDigit.of (lower : Bool) (n : Fin 16) : HexDigit where
  ch := if lower then tolower (hexDigit n) else hexDigit n
  value := n
  value_eq := by
    split
    · exact (hexDigit_digits n).2
    · exact (hexDigit_digits n).1

/-- A byte as two digits. -/
def HexItem.of (lower : Bool) (byte : UInt8) : HexItem :=
  .byte none (.of lower ⟨byte.toNat / 16, by have := byte.toNat_lt; omega⟩)
    (.of lower ⟨byte.toNat % 16, Nat.mod_lt _ (by decide)⟩)

theorem HexItem.denotes_of (lower : Bool) (byte : UInt8) :
    (HexItem.of lower byte).denotes = some byte := by
  have hvalue : 16 * (byte.toNat / 16) + byte.toNat % 16 = byte.toNat := Nat.div_add_mod _ _
  change some (UInt8.ofNat (16 * (byte.toNat / 16) + byte.toNat % 16)) = some byte
  rw [hvalue, UInt8.ofNat_toNat]

/-- The items of a written payload, with a blank between two bytes if it is spaced. -/
def hexItems (lower spaced : Bool) : Bytes → List HexItem
  | [] => []
  | byte :: payload =>
    .of lower byte :: payload.flatMap fun byte =>
      (if spaced then [.separator 32 rfl] else []) ++ [.of lower byte]

theorem filterMap_hexItems (lower spaced : Bool) (payload : Bytes) :
    (hexItems lower spaced payload).filterMap HexItem.denotes = payload := by
  have hbehind : ∀ payload : Bytes, (payload.flatMap fun byte =>
      (if spaced then [HexItem.separator 32 rfl] else []) ++ [HexItem.of lower byte]).filterMap
        HexItem.denotes = payload := by
    intro payload
    induction payload with
    | nil => rfl
    | cons byte payload ih =>
      have hbyte : [HexItem.of lower byte].filterMap HexItem.denotes = [byte] := by
        rw [List.filterMap_cons, HexItem.denotes_of]
        rfl
      rw [List.flatMap_cons, List.filterMap_append, ih, List.filterMap_append, hbyte]
      cases spaced <;> rfl
  cases payload with
  | nil => rfl
  | cons byte payload =>
    rw [hexItems, List.filterMap_cons, HexItem.denotes_of, hbehind]

theorem intercalate_cons_eq {α : Type} (separator first : List α) (others : List (List α)) :
    separator.intercalate (first :: others) = first ++ others.flatMap (separator ++ ·) := by
  induction others generalizing first with
  | nil => rw [List.intercalate_singleton, List.flatMap_nil, List.append_nil]
  | cons second others ih =>
    rw [List.intercalate_cons_cons, ih, List.flatMap_cons, List.append_assoc, List.append_assoc]

/-- A byte as it is written. -/
def hexPair (byte : UInt8) : ByteString := [hexDigit (byte.toNat / 16), hexDigit (byte.toNat % 16)]

theorem toHex_pairs (byte : UInt8) (payload : Bytes) (spaced : Bool) :
    toHex (byte :: payload) spaced =
      hexPair byte ++ payload.flatMap fun byte =>
        (if spaced then [32] else []) ++ hexPair byte := by
  cases spaced with
  | true =>
    change [32].intercalate (hexPair byte :: payload.map hexPair) = _
    rw [intercalate_cons_eq, List.flatMap_map]
    rfl
  | false =>
    change hexPair byte ++ (payload.map hexPair).flatten = _
    rfl

theorem HexItem.text_of (lower : Bool) (byte : UInt8) :
    (HexItem.of lower byte).text = if lower then lowercase (hexPair byte) else hexPair byte := by
  cases lower <;> rfl

theorem text_hexItems (lower spaced : Bool) (payload : Bytes) :
    (hexItems lower spaced payload).flatMap HexItem.text =
      if lower then lowercase (toHex payload spaced) else toHex payload spaced := by
  cases payload with
  | nil => cases lower <;> cases spaced <;> rfl
  | cons byte payload =>
    rw [hexItems, List.flatMap_cons, HexItem.text_of, List.flatMap_assoc, toHex_pairs]
    cases lower with
    | true =>
      simp only [if_true]
      rw [lowercase, lowercase, List.map_append, List.map_flatMap]
      congr 1
      apply List.flatMap_congr
      intro byte _
      cases spaced <;> rfl
    | false =>
      simp only [Bool.false_eq_true, if_false]
      congr 1
      apply List.flatMap_congr
      intro byte _
      cases spaced <;> rfl

/-- What `to_hex` writes is read back, and so is its text in lower case. -/
theorem parseHexPayload_toHex (payload : Bytes) (spaced : Bool) :
    parseHexPayload (toHex payload spaced) = .ok payload ∧
      parseHexPayload (lowercase (toHex payload spaced)) = .ok payload := by
  constructor
  · exact (parseHexPayload_eq_ok_iff _ _).2
      ⟨hexItems false spaced payload, text_hexItems _ _ _, filterMap_hexItems _ _ _⟩
  · exact (parseHexPayload_eq_ok_iff _ _).2
      ⟨hexItems true spaced payload, text_hexItems _ _ _, filterMap_hexItems _ _ _⟩

/-! ### The scan over indices -/

/-- How a scan ends without a payload. -/
inductive ScanFault where
  | outOfTurns
  | pastEnd (index : ℕ)
  | thrown (ex : StdException)

namespace HexScan

variable (line : ByteString)

/-- `line[index]`, which may not be behind the end. -/
def read (index : ℕ) : Except ScanFault UInt8 :=
  match (line)[index]? with
  | some ch => .ok ch
  | none => .error (.pastEnd index)

/-- Whether `0x` or `0X` stands at an index inside of the line. -/
def isMarked (index : ℕ) : Except ScanFault Bool := do
  if (← read line index) ≠ 48 then .ok false
  else if line.length ≤ index + 1 then .ok false
  else
    let x ← read line (index + 1)
    .ok (x == 120 || x == 88)

/-- `index >= line.size() || hex_value(line[index]) < 0`. -/
def lacksDigit (index : ℕ) : Except ScanFault Bool := do
  if line.length ≤ index then .ok true
  else .ok (hexValue (← read line index)).isNone

/-- A digit that has been looked at before. -/
def readDigit (index column : ℕ) : Except ScanFault ℕ := do
  if ← lacksDigit line index then .error (.thrown (hexError column "expected two hex digits"))
  else .ok ((hexValue (← read line index)).getD 0)

/-- `read_hex_byte`, with the index behind the byte. -/
def readHexByte (index column : ℕ) : Except ScanFault (UInt8 × ℕ) := do
  let high ← readDigit line index column
  let low ← readDigit line (index + 1) column
  .ok (UInt8.ofNat (high <<< 4 ||| low), index + 2)

/-- What is looked at behind a byte. -/
def checkBehind (index : ℕ) : Except ScanFault Unit := do
  if line.length ≤ index then .ok ()
  else if isSeparator (← read line index) then .ok ()
  else if ← isMarked line index then .ok ()
  else if (hexValue (← read line index)).isNone then
    .error (.thrown (hexError (index + 1) "expected hex digit or separator"))
  else .ok ()

/-- The loop of `parse_hex_payload`, for a number of turns. -/
def scan : ℕ → ℕ → Bytes → Except ScanFault Bytes
  | 0, _, _ => .error .outOfTurns
  | turns + 1, index, payload => do
    if line.length ≤ index then .ok payload
    else if isSeparator (← read line index) then scan turns (index + 1) payload
    else
      let start := if ← isMarked line index then index + 2 else index
      if ← lacksDigit line start then
        .error (.thrown (hexError (index + 1) "expected two hex digits"))
      else
        let (byte, next) ← readHexByte line start (index + 1)
        checkBehind line next
        scan turns next (payload ++ [byte])

end HexScan

namespace HexScan

variable {line front rest : ByteString} {ch : UInt8}

theorem read_at (hline : line = front ++ ch :: rest) : read line front.length = .ok ch := by
  subst hline
  unfold read
  rw [List.getElem?_append_right (Nat.le_refl _), Nat.sub_self]
  rfl

theorem isMarked_at (hline : line = front ++ ch :: rest) :
    isMarked line front.length = .ok (startsWith0x (ch :: rest)) := by
  unfold isMarked
  rw [read_at hline]
  change (if ch ≠ 48 then Except.ok false else _) = _
  by_cases hch : ch = 48
  · rw [if_neg (not_not_intro hch)]
    cases rest with
    | nil =>
      rw [if_pos (by rw [hline, List.length_append]; exact Nat.le_refl _)]
      rfl
    | cons x rest =>
      have hnext : read line (front.length + 1) = .ok x := by
        have hsplit : line = (front ++ [ch]) ++ x :: rest := by
          rw [hline, List.append_assoc]
          rfl
        have hat := read_at hsplit
        rwa [List.length_append] at hat
      have hshort : ¬ line.length ≤ front.length + 1 := by
        rw [hline, List.length_append, List.length_cons, List.length_cons]
        omega
      rw [if_neg hshort, hnext, hch]
      rfl
  · rw [if_pos hch]
    cases rest with
    | nil => rfl
    | cons x rest =>
      change _ = Except.ok (ch == 48 && _)
      rw [beq_false_of_ne hch]
      rfl

theorem lacksDigit_at (hline : line = front ++ rest) :
    lacksDigit line front.length = .ok ((rest.head?.bind hexValue).isNone) := by
  unfold lacksDigit
  cases rest with
  | nil =>
    rw [if_pos (Nat.le_of_eq (by rw [hline, List.append_nil]))]
    rfl
  | cons ch rest =>
    rw [if_neg (by rw [hline, List.length_append, List.length_cons]; omega), read_at hline]
    rfl

theorem readDigit_at (hline : line = front ++ rest) (column : ℕ) :
    readDigit line front.length column =
      match rest.head?.bind hexValue with
      | some value => .ok value
      | none => .error (.thrown (hexError column "expected two hex digits")) := by
  unfold readDigit
  rw [lacksDigit_at hline]
  cases rest with
  | nil => rfl
  | cons ch rest =>
    rw [read_at hline]
    change (if (hexValue ch).isNone = true then _ else Except.ok ((hexValue ch).getD 0)) = _
    cases hch : hexValue ch with
    | none =>
      rw [List.head?_cons, Option.bind_some, hch]
      rfl
    | some value =>
      rw [List.head?_cons, Option.bind_some, hch]
      rfl

theorem readHexByte_at (hline : line = front ++ rest) (column : ℕ) :
    readHexByte line front.length column =
      match leadingByte rest with
      | some byte => .ok (byte, front.length + 2)
      | none => .error (.thrown (hexError column "expected two hex digits")) := by
  unfold readHexByte
  rw [readDigit_at hline]
  cases rest with
  | nil => rfl
  | cons high rest =>
    have hsplit : line = (front ++ [high]) ++ rest := by
      rw [hline, List.append_assoc]
      rfl
    have hsecond := readDigit_at hsplit column
    rw [List.length_append, List.length_singleton] at hsecond
    rw [hsecond, List.head?_cons, Option.bind_some]
    cases rest with
    | nil => cases hexValue high <;> rfl
    | cons low rest =>
      rw [List.head?_cons, Option.bind_some]
      cases hhigh : hexValue high with
      | none =>
        simp only [leadingByte, hhigh, Option.bind_none]
        rfl
      | some h =>
        cases hlow : hexValue low with
        | none =>
          simp only [leadingByte, hhigh, hlow, Option.bind_some, Option.map_none]
          rfl
        | some l =>
          simp only [leadingByte, hhigh, hlow, Option.bind_some, Option.map_some,
            ← shiftLeft_or_eq _ (hexValue_lt hlow)]
          rfl

theorem checkBehind_at (hline : line = front ++ rest) :
    checkBehind line front.length =
      if continuesHex rest then .ok ()
      else .error (.thrown (hexError (front.length + 1) "expected hex digit or separator")) := by
  unfold checkBehind
  cases rest with
  | nil => rw [if_pos (Nat.le_of_eq (by rw [hline, List.append_nil])), continuesHex, if_pos rfl]
  | cons ch rest =>
    rw [if_neg (by rw [hline, List.length_append, List.length_cons]; omega), read_at hline,
      isMarked_at hline, continuesHex]
    change (if isSeparator ch = true then Except.ok () else
      if startsWith0x (ch :: rest) = true then Except.ok () else
        if (hexValue ch).isNone = true then _ else _) = _
    cases isSeparator ch <;> cases startsWith0x (ch :: rest) <;> cases hexValue ch <;> rfl

/-- The front with the mark behind it. -/
theorem split_mark (hline : line = front ++ rest) :
    line = (front ++ rest.take (markLength rest)) ++ rest.drop (markLength rest) ∧
      (front ++ rest.take (markLength rest)).length = front.length + markLength rest := by
  constructor
  · rw [List.append_assoc, List.take_append_drop, hline]
  · have hlength : markLength rest ≤ rest.length := by
      unfold markLength
      split
      · rename_i hmark
        unfold startsWith0x at hmark
        split at hmark
        · rw [List.length_cons, List.length_cons]
          omega
        · cases hmark
      · exact Nat.zero_le _
    rw [List.length_append, List.length_take_of_le hlength]

/-- The scan takes the turns that the parser takes, and it ends before they run out. -/
theorem scan_eq (hline : line = front ++ rest) {turns : ℕ} (hturns : rest.length < turns)
    (payload : Bytes) :
    scan line turns front.length payload =
      ((parseHexFrom front.length rest).map (payload ++ ·)).mapError .thrown := by
  induction turns generalizing front rest payload with
  | zero => omega
  | succ turns ih =>
    unfold scan
    cases rest with
    | nil =>
      rw [if_pos (Nat.le_of_eq (by rw [hline, List.append_nil])), parseHexFrom]
      change _ = Except.ok (payload ++ [])
      rw [List.append_nil]
    | cons ch rest =>
      rw [List.length_cons] at hturns
      rw [if_neg (by rw [hline, List.length_append, List.length_cons]; omega), read_at hline]
      change (if isSeparator ch = true then _ else _) = _
      cases hch : isSeparator ch with
      | true =>
        have hsplit : line = (front ++ [ch]) ++ rest := by
          rw [hline, List.append_assoc]
          rfl
        have hnext := ih hsplit (by omega) payload
        rw [List.length_append] at hnext
        rw [if_pos rfl, parseHexFrom_separator hch]
        exact hnext
      | false =>
        obtain ⟨hstart, hlength⟩ := split_mark hline
        have hmark : (if startsWith0x (ch :: rest) = true then front.length + 2 else front.length) =
            front.length + markLength (ch :: rest) := by
          unfold markLength
          split <;> rfl
        rw [if_neg Bool.false_ne_true, isMarked_at hline, parseHexFrom_cons hch]
        change (lacksDigit line (if startsWith0x (ch :: rest) = true then _ else _) >>= _) = _
        rw [hmark, ← hlength, lacksDigit_at hstart, readHexByte_at hstart]
        cases hbyte : leadingByte ((ch :: rest).drop (markLength (ch :: rest))) with
        | none =>
          change (if Option.isNone _ = true then _ else Except.error _) = Except.error _
          split <;> rfl
        | some byte =>
          obtain ⟨high, low, rest', hdigits, -⟩ := leadingByte_eq_some_iff.1 hbyte
          have hbehind :
            line = (front ++ (ch :: rest).take (markLength (ch :: rest)) ++ [high.ch, low.ch]) ++
              rest' := by
            rw [List.append_assoc, hstart, hdigits]
            rfl
          have hshorter : rest'.length < turns := by
            have hdrop := congrArg List.length hdigits
            rw [List.length_drop, List.length_cons, List.length_cons, List.length_cons] at hdrop
            omega
          have hcheck := checkBehind_at hbehind
          have hnext := ih hbehind hshorter (payload ++ [byte])
          rw [List.length_append, show [high.ch, low.ch].length = 2 from rfl] at hcheck hnext
          rw [hdigits, List.head?_cons, Option.bind_some, high.value_eq, List.drop_succ_cons,
            List.drop_succ_cons, List.drop_zero]
          change (checkBehind line _ >>= fun _ => scan line turns _ (payload ++ [byte])) = _
          rw [hcheck, hnext]
          split
          · cases parseHexFrom ((front ++ (ch :: rest).take (markLength (ch :: rest))).length + 2)
              rest' with
            | error ex => rfl
            | ok bytes =>
              change Except.ok (payload ++ [byte] ++ bytes) = Except.ok (payload ++ (byte :: bytes))
              rw [List.append_assoc, List.singleton_append]
          · rfl

end HexScan

/-- The parser accepts exactly the texts of its grammar and refuses the others with
`invalid_argument`; its scan ends, inside of the line; and it reads back what `to_hex` writes. -/
theorem parseHexPayload_exact :
    (∀ line : ByteString,
      (∀ bytes, parseHexPayload line = .ok bytes ↔ IsHexText line bytes) ∧
      ((∃ ex, parseHexPayload line = .error ex ∧ ex.kind = .invalidArgument) ↔
        ¬ ∃ bytes, IsHexText line bytes) ∧
      ∀ more, HexScan.scan line (line.length + 1 + more) 0 [] =
        (parseHexPayload line).mapError ScanFault.thrown) ∧
    ∀ (payload : Bytes) (spaced : Bool),
      parseHexPayload (toHex payload spaced) = .ok payload ∧
        parseHexPayload (lowercase (toHex payload spaced)) = .ok payload := by
  refine ⟨fun line => ⟨parseHexPayload_eq_ok_iff line, ?_, fun more => ?_⟩, parseHexPayload_toHex⟩
  · constructor
    · rintro ⟨ex, hex, -⟩ ⟨bytes, hbytes⟩
      rw [(parseHexPayload_eq_ok_iff line bytes).2 hbytes] at hex
      cases hex
    · intro hnone
      cases hparse : parseHexPayload line with
      | ok bytes => exact absurd ⟨bytes, (parseHexPayload_eq_ok_iff line bytes).1 hparse⟩ hnone
      | error ex => exact ⟨ex, rfl, kind_of_error hparse⟩
  · have hturns : line.length < line.length + 1 + more := by omega
    have hscan := HexScan.scan_eq (List.nil_append line).symm hturns []
    refine hscan.trans ?_
    change ((parseHexPayload line).map ([] ++ ·)).mapError ScanFault.thrown = _
    cases parseHexPayload line <;> rfl

/-- A prefix inside of a byte, and a byte cut by a blank. -/
example : parseHexPayload (ascii "0x0x12") = .error (hexError 1 "expected two hex digits") ∧
    parseHexPayload (ascii "000x12-a7") = .ok [0x00, 0x12, 0xA7] ∧
    parseHexPayload (ascii "02 1") = .error (hexError 4 "expected two hex digits") := by
  decide +kernel

end PacketProbe
