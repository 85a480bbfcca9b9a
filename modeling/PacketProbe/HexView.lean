import Mathlib.Algebra.GroupWithZero.Nat
import PacketProbe.HexInputGrammars

/-!
# The hex view and the text view of a payload

`format_hex_dump` and the text shown beside it are made of the same `payload_hex`, each with
its own idea of what may stand between the digits. A dump is read back through its columns.
-/

namespace PacketProbe
open JsonText

/-! ### Rows -/

/-- `[l[i:i + width] for i in range(0, len(l), width)]`. -/
def rows {α : Type} (width : ℕ) (l : List α) : List (List α) :=
  (List.range ((l.length + width - 1) / width)).map fun i => (l.drop (width * i)).take width

theorem flatten_range_rows {α : Type} (width : ℕ) (l : List α) (k : ℕ) :
    ((List.range k).map fun i => (l.drop (width * i)).take width).flatten = l.take (width * k) := by
  induction k with
  | zero => simp
  | succ k ih =>
    rw [List.range_succ, List.map_append, List.flatten_append, ih, Nat.mul_succ, List.take_add];
      simp

theorem flatten_rows {α : Type} {width : ℕ} (h : 0 < width) (l : List α) :
    (rows width l).flatten = l := by
  rw [rows, flatten_range_rows]
  apply List.take_of_length_le
  have hdiv := Nat.div_add_mod (l.length + width - 1) width
  have hmod := Nat.mod_lt (l.length + width - 1) h
  omega

theorem length_of_mem_rows {α : Type} {width : ℕ} {l row : List α} (h : row ∈ rows width l) :
    row.length ≤ width := by
  obtain ⟨i, -, rfl⟩ := List.mem_map.1 h
  exact List.length_take_le _ _

theorem rows_eq_nil_iff {α : Type} {width : ℕ} (h : 0 < width) {l : List α} :
    rows width l = [] ↔ l = [] := by
  constructor
  · intro hrows
    rw [← flatten_rows h l, hrows]
    rfl
  · rintro rfl
    have hnone : (([] : List α).length + width - 1) / width = 0 :=
      Nat.div_eq_of_lt (by rw [List.length_nil]; omega)
    rw [rows, hnone]
    rfl

/-! ### The hex view -/

def isHexChar (c : ℕ) : Bool := hexCharacters.contains c

/-- `allowed_delimiters`. -/
def isDelimiter (c : ℕ) : Bool := (codes " \t\n\r:-").contains c

/-- `text.ljust(width)`. -/
def ljust (width : ℕ) (text : Text) : Text := text ++ List.replicate (width - text.length) 0x20

/-- `f"{offset:04x}"`. -/
def offsetText (offset : ℕ) : Text :=
  let digits := (Nat.toDigits 16 offset).map Char.toNat
  List.replicate (4 - digits.length) 0x30 ++ digits

/-- `int(digits, 16)`. -/
def hexNumber (digits : Text) :
    ℕ := digits.foldl (fun n c => 16 * n + (hexValue (UInt8.ofNat c)).getD 0) 0

/-- The pairs of a row, with the gap behind the eighth one. -/
def hexParts (chunk : List Text) : List Text :=
  chunk.zipIdx.flatMap fun pair =>
    if pair.2 = 7 then [pair.1.map lowerCode, []] else [pair.1.map lowerCode]

def asciiPart (chunk : List Text) : Text :=
  chunk.map fun pair => if 32 ≤ hexNumber pair ∧ hexNumber pair ≤ 126 then hexNumber pair else 0x2E

def dumpLine (offset : ℕ) (chunk : List Text) : Text :=
  offsetText offset ++ codes "  " ++ ljust 48 (List.intercalate [0x20] (hexParts chunk)) ++
    codes "  |" ++ asciiPart chunk ++ codes "|"

def dumpLines (pairs : List Text) : List Text :=
  (rows 16 pairs).zipIdx.map fun chunk => dumpLine (16 * chunk.2) chunk.1

/-- `format_hex_dump`. -/
def formatHexDump (hexStr : Text) : Text :=
  match hexStr.find? fun c => !(isHexChar c || isDelimiter c) with
  | some c => codes "Invalid hex payload: contains invalid character '" ++ [c] ++ codes "'"
  | none =>
    let cleanHex := hexStr.filter isHexChar
    if cleanHex = [] then
      if strip hexStr = [] then [] else codes "Invalid hex payload: no hex characters"
    else if cleanHex.length % 2 ≠ 0 then codes "Invalid hex payload length: " ++
      numeral cleanHex.length
    else List.intercalate [0x0A] (dumpLines (rows 2 cleanHex))

/-! ### Reading a dump -/

/-- The digits in the columns behind the offset. -/
def readLine (line : Text) : Option Text :=
  let offset := line.takeWhile (· ≠ 0x20)
  if offset.all isHexChar then
    some (((line.drop (offset.length + 2)).take 48).filter isHexChar)
  else none

def readDump (text : Text) : Option Bytes :=
  ((text.splitOn 0x0A).mapM readLine).bind fun digits => hexPairs (bytesOf digits.flatten)

theorem isHexChar_lowerCode (c : ℕ) : isHexChar (lowerCode c) = isHexChar c :=
  hexCharacters_lowerCode c

theorem isHexChar_iff {c : ℕ} : isHexChar c = true ↔ IsHexCode c := contains_hexCharacters_iff

/-- A text that is put together from parts has the digits of its parts. -/
theorem filter_intercalate {α : Type} {p : α → Bool} {separator : α} (h : p separator = false)
    (parts : List (List α)) :
    (List.intercalate [separator] parts).filter p = parts.flatten.filter p := by
  induction parts with
  | nil => rfl
  | cons part parts ih =>
    cases parts with
    | nil => simp [List.intercalate]
    | cons next parts =>
      rw [List.intercalate_cons_cons, List.filter_append, List.filter_append, ih,
        List.filter_cons_of_neg (by simp [h]), List.filter_nil, List.append_nil,
        List.flatten_cons (l := part), List.filter_append]

theorem length_intercalate_le {α : Type} (separator : α) (parts : List (List α)) :
    (List.intercalate [separator] parts).length ≤
      (parts.map fun part => part.length + 1).sum - 1 := by
  induction parts with
  | nil => simp
  | cons part parts ih =>
    cases parts with
    | nil => simp [List.intercalate]
    | cons next parts =>
      rw [List.intercalate_cons_cons, List.length_append, List.length_append]
      simp only [List.map_cons, List.sum_cons, List.length_singleton] at ih ⊢
      omega

/-! ### A row -/

variable {chunk : List Text}

theorem flatten_hexParts (chunk : List Text) :
    (hexParts chunk).flatten = chunk.flatten.map lowerCode := by
  have hfrom : ∀ k, ((chunk.zipIdx k).flatMap fun pair =>
      if pair.2 = 7 then [pair.1.map lowerCode, []] else [pair.1.map lowerCode]).flatten =
        chunk.flatten.map lowerCode := by
    induction chunk with
    | nil => exact fun _ => rfl
    | cons pair chunk ih =>
      intro k
      rw [List.zipIdx_cons, List.flatMap_cons, List.flatten_append, ih, List.flatten_cons,
        List.map_append]
      split <;> simp
  exact hfrom 0

/-- A row of pairs takes 48 columns at most. -/
theorem length_hexParts_le (hpairs : ∀ pair ∈ chunk, pair.length ≤ 2) (hrow : chunk.length ≤ 16) :
    (List.intercalate [0x20] (hexParts chunk)).length ≤ 48 := by
  have hfrom : ∀ k : ℕ, (((chunk.zipIdx k).flatMap fun pair =>
      if pair.2 = 7 then [pair.1.map lowerCode, []] else [pair.1.map lowerCode]).map fun part =>
        part.length + 1).sum ≤
        3 * chunk.length + if k ≤ 7 then 1 else 0 := by
    clear hrow
    induction chunk with
    | nil => simp
    | cons pair chunk ih =>
      intro k
      have hpair := hpairs pair List.mem_cons_self
      have hrest := ih (fun pair hmem => hpairs pair (List.mem_cons_of_mem _ hmem)) (k + 1)
      rw [List.zipIdx_cons, List.flatMap_cons, List.map_append, List.sum_append, List.length_cons]
      by_cases hk : k = 7
      · simp only [hk, Nat.reduceAdd, Nat.reduceLeDiff, if_false, if_true, List.map_cons,
          List.map_nil, List.sum_cons, List.sum_nil, List.length_map, List.length_nil,
          le_refl] at hrest ⊢
        omega
      · rw [if_neg hk]
        simp only [List.map_cons, List.map_nil, List.sum_cons, List.sum_nil, List.length_map]
        split at hrest <;> split <;> omega
  have hlength :=
    (length_intercalate_le 0x20 (hexParts chunk)).trans (Nat.sub_le_sub_right (hfrom 0) 1)
  simp only [Nat.zero_le, if_true] at hlength
  omega

theorem length_ljust {width : ℕ} {text : Text} (h : text.length ≤ width) :
    (ljust width text).length = width := by
  simp only [ljust, List.length_append, List.length_replicate]
  omega

theorem mem_toDigitsCore {base fuel n : ℕ} {digits : List Char} {digit : Char} (hbase : 0 < base)
    (h : digit ∈ Nat.toDigitsCore base fuel n digits) :
    digit ∈ digits ∨ ∃ d < base, digit = Nat.digitChar d := by
  induction fuel generalizing n digits with
  | zero => exact .inl h
  | succ fuel ih =>
    have hlast : digit ∈ Nat.digitChar (n % base) :: digits → digit ∈ digits ∨
        ∃ d < base, digit = Nat.digitChar d := by
      intro hmem
      rcases List.mem_cons.1 hmem with hdigit | hmem
      · exact .inr ⟨n % base, Nat.mod_lt n hbase, hdigit⟩
      · exact .inl hmem
    rw [Nat.toDigitsCore] at h
    split at h
    · exact hlast h
    · rcases ih h with hmem | hdigit
      · exact hlast hmem
      · exact .inr hdigit

theorem isHexChar_offsetText {offset c : ℕ} (h : c ∈ offsetText offset) : isHexChar c = true := by
  rcases List.mem_append.1 h with h | h
  · rw [(List.mem_replicate.1 h).2]
    decide
  · obtain ⟨digit, hdigit, rfl⟩ := List.mem_map.1 h
    obtain ⟨d, hd, rfl⟩ := (mem_toDigitsCore (by decide) hdigit).resolve_left List.not_mem_nil
    have hall : ∀ d < 16, isHexChar (Nat.digitChar d).toNat = true := by decide
    exact hall d hd

/-- The columns of a line hold the digits of its row, in lower case. -/
theorem readLine_dumpLine (offset : ℕ) (hpairs : ∀ pair ∈ chunk, pair.length ≤ 2)
    (hrow : chunk.length ≤ 16) (hdigits : ∀ c ∈ chunk.flatten, isHexChar c = true) :
    readLine (dumpLine offset chunk) = some (chunk.flatten.map lowerCode) := by
  have hspace : isHexChar 0x20 = false := by decide
  have hoffset : ∀ c ∈ offsetText offset, decide (c ≠ 0x20) = true := by
    intro c hc
    apply decide_eq_true
    rintro rfl
    exact absurd (isHexChar_offsetText hc) (by decide)
  have hcolumns := length_ljust (length_hexParts_le hpairs hrow)
  have hline : dumpLine offset chunk = offsetText offset ++ (0x20 :: 0x20 ::
      (ljust 48 (List.intercalate [0x20] (hexParts chunk)) ++
        (codes "  |" ++ asciiPart chunk ++ codes "|"))) := by
    have hgap : codes "  " = [0x20, 0x20] := by decide
    simp only [dumpLine, hgap, List.append_assoc, List.cons_append, List.nil_append]
  have htake : (dumpLine offset chunk).takeWhile (· ≠ 0x20) = offsetText offset := by
    rw [hline, List.takeWhile_append_of_pos hoffset, List.takeWhile_cons_of_neg (by decide),
      List.append_nil]
  have hdrop : ((dumpLine offset chunk).drop ((offsetText offset).length + 2)).take 48 =
      ljust 48 (List.intercalate [0x20] (hexParts chunk)) := by
    rw [hline, List.drop_length_add_append, List.drop_succ_cons, List.drop_succ_cons,
      List.drop_zero, List.take_left' hcolumns]
  have hall : (offsetText offset).all isHexChar = true := List.all_eq_true.2 fun c =>
    isHexChar_offsetText
  have hlower : (chunk.flatten.map lowerCode).filter isHexChar = chunk.flatten.map lowerCode := by
    refine List.filter_eq_self.2 fun c hc => ?_
    obtain ⟨digit, hdigit, rfl⟩ := List.mem_map.1 hc
    rw [isHexChar_lowerCode, hdigits digit hdigit]
  have hpadding : ∀ n, (List.replicate n 0x20).filter isHexChar = [] :=
    fun n => List.filter_eq_nil_iff.2 fun c hc => by
      rw [(List.mem_replicate.1 hc).2, hspace]; exact Bool.false_ne_true
  simp only [readLine, htake, hdrop, hall, if_true, Option.some.injEq]
  rw [ljust, List.filter_append, filter_intercalate hspace, flatten_hexParts, hlower, hpadding,
    List.append_nil]

/-- A row stays on its line. -/
theorem newline_notMem_dumpLine (offset : ℕ) (hdigits : ∀ c ∈ chunk.flatten, isHexChar c = true) :
    0x0A ∉ dumpLine offset chunk := by
  have hhex : ∀ {c : ℕ}, isHexChar c = true → c ≠ 0x0A := by
    rintro c hc rfl
    exact absurd hc (by decide)
  intro hmem
  simp only [dumpLine, ljust, List.mem_append] at hmem
  rcases hmem with ((((hmem | hmem) | (hmem | hmem)) | hmem) | hmem) | hmem
  · exact hhex (isHexChar_offsetText hmem) rfl
  · exact absurd hmem (by decide)
  · have hfilter : 0x0A ∈ (List.intercalate [0x20] (hexParts chunk)).filter (· == 0x0A) :=
      List.mem_filter.2 ⟨hmem, by decide⟩
    rw [filter_intercalate (by decide), flatten_hexParts] at hfilter
    obtain ⟨digit, hdigit, hlower⟩ := List.mem_map.1 (List.mem_filter.1 hfilter).1
    exact hhex ((isHexChar_lowerCode digit).trans (hdigits digit hdigit)) hlower
  · exact absurd (List.mem_replicate.1 hmem).2 (by decide)
  · exact absurd hmem (by decide)
  · obtain ⟨pair, -, hpair⟩ := List.mem_map.1 hmem
    split at hpair <;> omega
  · exact absurd hmem (by decide)

/-! ### A dump -/

theorem mapM_eq_some {α β : Type} {f : α → Option β} {g : α → β} {l : List α}
    (h : ∀ a ∈ l, f a = some (g a)) :
    l.mapM f = some (l.map g) := by
  induction l with
  | nil => rfl
  | cons a l ih =>
    rw [List.mapM_cons, h a List.mem_cons_self, ih fun b hb => h b (List.mem_cons_of_mem _ hb)]
    rfl

theorem mapM_readLine {table : List (List Text)}
    (h : ∀ chunk ∈ table.zipIdx, readLine (dumpLine (16 * chunk.2) chunk.1) =
      some (chunk.1.flatten.map lowerCode)) :
    (table.zipIdx.map fun chunk => dumpLine (16 * chunk.2) chunk.1).mapM readLine =
      some (table.map fun chunk => chunk.flatten.map lowerCode) := by
  have hrows : table.zipIdx.map (fun chunk => chunk.1.flatten.map lowerCode) =
      table.map fun chunk => chunk.flatten.map lowerCode := by
    conv_rhs => rw [← List.zipIdx_map_fst 0 table, List.map_map]
    rfl
  rw [List.mapM_map, Function.comp_def, mapM_eq_some h, hrows]

/-- A text of digits is read back from its dump in lower case. -/
theorem readDump_dumpLines {cleanHex : Text} (hne : cleanHex ≠ [])
    (hdigits : ∀ c ∈ cleanHex, isHexChar c = true) :
    readDump (List.intercalate [0x0A] (dumpLines (rows 2 cleanHex))) =
      hexPairs (bytesOf (cleanHex.map lowerCode)) := by
  have hflatten : (rows 16 (rows 2 cleanHex)).flatten.flatten = cleanHex := by
    rw [flatten_rows (by decide), flatten_rows (by decide)]
  have hchunk : ∀ chunk ∈ (rows 16 (rows 2 cleanHex)).zipIdx, (∀ pair ∈ chunk.1, pair.length ≤ 2) ∧
      chunk.1.length ≤ 16 ∧ ∀ c ∈ chunk.1.flatten, isHexChar c = true := by
    intro chunk hmem
    have hrow : chunk.1 ∈ rows 16 (rows 2 cleanHex) := List.fst_mem_of_mem_zipIdx hmem
    refine ⟨fun pair hpair => ?_, length_of_mem_rows hrow, fun c hc => hdigits c ?_⟩
    · apply length_of_mem_rows (l := cleanHex)
      rw [← flatten_rows (show 0 < 16 by decide) (rows 2 cleanHex)]
      exact List.mem_flatten_of_mem hrow hpair
    · obtain ⟨pair, hpair, hmem⟩ := List.mem_flatten.1 hc
      rw [← hflatten]
      exact List.mem_flatten_of_mem (List.mem_flatten_of_mem hrow hpair) hmem
  have hlines : ∀ line ∈ dumpLines (rows 2 cleanHex), 0x0A ∉ line := by
    intro line hline
    obtain ⟨chunk, hmem, rfl⟩ := List.mem_map.1 hline
    exact newline_notMem_dumpLine _ (hchunk chunk hmem).2.2
  have hsome : dumpLines (rows 2 cleanHex) ≠ [] := by
    intro hnil
    have hrows := List.map_eq_nil_iff.1 hnil
    rw [List.zipIdx_eq_nil_iff, rows_eq_nil_iff (by decide), rows_eq_nil_iff (by decide)] at hrows
    exact hne hrows
  have hread := mapM_readLine fun chunk hmem =>
    readLine_dumpLine (16 * chunk.2) (hchunk chunk hmem).1
    (hchunk chunk hmem).2.1 (hchunk chunk hmem).2.2
  have hlower : ((rows 16 (rows 2 cleanHex)).map fun chunk => chunk.flatten.map lowerCode).flatten =
      cleanHex.map lowerCode := by
    conv_rhs => rw [← hflatten, List.flatten_flatten, List.map_flatten, List.map_map]
    rfl
  rw [readDump, List.splitOn_intercalate 0x0A hlines hsome, dumpLines, hread, Option.bind_some,
    hlower]

/-- What begins like an error message is no dump. -/
theorem readDump_of_head {c : ℕ} (hhex : isHexChar c = false) (hspace : c ≠ 0x20)
    (hnewline : c ≠ 0x0A) (text : Text) :
    readDump (c :: text) = none := by
  obtain ⟨line, lines, hsplit⟩ := List.exists_cons_of_ne_nil (List.splitOn_ne_nil 0x0A text)
  have hhead : (c :: text).splitOn 0x0A = (c :: line) :: lines := by
    rw [List.splitOn_cons_eq_if_modifyHead, if_neg (by simpa using hnewline), hsplit]
    rfl
  have hread : readLine (c :: line) = none := by
    have htake : (c :: line).takeWhile (· ≠ 0x20) = c :: line.takeWhile (· ≠ 0x20) :=
      List.takeWhile_cons_of_pos (decide_eq_true hspace)
    simp only [readLine, htake, List.all_cons, hhex, Bool.false_and, Bool.false_eq_true, if_false]
  rw [readDump, hhead, List.mapM_cons, hread]
  rfl

theorem readDump_message {message : Text} (h : message.head? = some 0x49) (text : Text) :
    readDump (message ++ text) = none := by
  cases message with
  | nil => cases h
  | cons c message =>
    cases h
    exact readDump_of_head (by decide) (by decide) (by decide) _

theorem length_of_hexPairs {digits : ByteString} {bytes : Bytes}
    (h : hexPairs digits = some bytes) :
    digits.length = 2 * bytes.length := by
  induction digits using List.twoStepInduction generalizing bytes with
  | nil =>
    cases h
    rfl
  | singleton c => cases h
  | cons_cons high low digits ih _ =>
    obtain ⟨byte, -, hrest⟩ := Option.bind_eq_some_iff.1 h
    obtain ⟨others, hothers, hbytes⟩ := Option.bind_eq_some_iff.1 hrest
    cases hbytes
    rw [List.length_cons, List.length_cons, List.length_cons, ih hothers]
    rfl

theorem hexValue_ofNat_lowerCode {c : ℕ} (h : isHexChar c = true) :
    hexValue (UInt8.ofNat (lowerCode c)) = hexValue (UInt8.ofNat c) := by
  obtain ⟨digit, rfl⟩ := exists_hexDigit h
  rw [hexValue_lowerCode, UInt8.ofNat_toNat, digit.value_eq]

theorem hexPairs_lowerCode {digits : Text} (h : ∀ c ∈ digits, isHexChar c = true) :
    hexPairs (bytesOf (digits.map lowerCode)) = hexPairs (bytesOf digits) := by
  induction digits using List.twoStepInduction with
  | nil => rfl
  | singleton c => rfl
  | cons_cons high low digits ih _ =>
    have hrest := ih fun c hc => h c (List.mem_cons_of_mem _ (List.mem_cons_of_mem _ hc))
    simp only [bytesOf, List.map_cons, hexPairs, leadingByte] at hrest ⊢
    rw [hexValue_ofNat_lowerCode (h high List.mem_cons_self),
      hexValue_ofNat_lowerCode (h low (List.mem_cons_of_mem _ List.mem_cons_self)), hrest]

/-- The hex view shows bytes exactly for pairs of digits with delimiters between the digits. -/
theorem readDump_formatHexDump_iff {hexStr : Text} {bytes : Bytes} (hbytes : bytes ≠ []) :
    readDump (formatHexDump hexStr) = some bytes ↔
      (∀ c ∈ hexStr, isHexChar c = true ∨ isDelimiter c = true) ∧
        hexPairs (bytesOf (hexStr.filter isHexChar)) = some bytes := by
  have hdigits : ∀ c ∈ hexStr.filter isHexChar, isHexChar c = true :=
    fun c hc => (List.mem_filter.1 hc).2
  unfold formatHexDump
  cases hfind : hexStr.find? fun c => !(isHexChar c || isDelimiter c) with
  | some c =>
    have hforeign := List.find?_some hfind
    have hmessage : (codes "Invalid hex payload: contains invalid character '").head? =
      some 0x49 := by decide
    simp only [List.append_assoc]
    rw [readDump_message hmessage]
    refine iff_of_false (Option.some_ne_none bytes).symm fun hall => ?_
    have hallowed := hall.1 c (List.mem_of_find?_eq_some hfind)
    rw [← Bool.or_eq_true] at hallowed
    rw [hallowed] at hforeign
    cases hforeign
  | none =>
    have hallowed : ∀ c ∈ hexStr, isHexChar c = true ∨ isDelimiter c = true := by
      intro c hc
      have hkept := List.find?_eq_none.1 hfind c hc
      rwa [Bool.not_eq_true, Bool.not_eq_false', Bool.or_eq_true] at hkept
    simp only
    rw [and_iff_right hallowed]
    by_cases hclean : hexStr.filter isHexChar = []
    · rw [if_pos hclean, hclean]
      refine iff_of_false ?_ fun hpairs => hbytes (Option.some.inj hpairs).symm
      split
      · exact fun hread => hbytes (Option.some.inj hread).symm
      · rw [← List.append_nil (codes _), readDump_message (by decide)]
        exact (Option.some_ne_none bytes).symm
    · rw [if_neg hclean]
      by_cases heven : (hexStr.filter isHexChar).length % 2 = 0
      · rw [if_neg (not_not.2 heven), readDump_dumpLines hclean hdigits, hexPairs_lowerCode hdigits]
      · rw [if_pos heven, readDump_message (by decide)]
        refine iff_of_false (Option.some_ne_none bytes).symm fun hpairs => heven ?_
        have hlength := length_of_hexPairs hpairs
        rw [bytesOf, List.length_map] at hlength
        omega

example : readDump (codes "0000  41 7c ff                                          |A|.|") =
    some [0x41, 0x7C, 0xFF] ∧
    formatHexDump (codes "41 7c:FF") =
      codes "0000  41 7c ff                                          |A|.|" := by decide +kernel

/-! ### The text view -/

/-- `bytes.fromhex` of a text without whitespace. -/
def fromHex (digits : Text) : Option Bytes :=
  if digits.all isHexChar then hexPairs (bytesOf digits) else none

/-- `re.sub(r'[\s:\-]', '', payload_hex)`. -/
def withoutGaps (payloadHex : Text) : Text := payloadHex.filter fun c => !isGap c

def textChar (b : UInt8) :
    ℕ := if (32 ≤ b ∧ b ≤ 126) ∨ b = 10 ∨ b = 13 ∨ b = 9 then b.toNat else 0x2E

/-- What `on_selection_changed` puts into the text view; `failure` is `str(e)` for digits that are
refused. -/
def textView (failure : Text → Text) (payloadHex : Text) : Text :=
  if payloadHex = [] then []
  else ((fromHex (withoutGaps payloadHex)).map fun bytes => bytes.map textChar).getD
    (codes "Failed to decode text: " ++ failure (withoutGaps payloadHex))

theorem isGap_of_isHexChar {c : ℕ} (h : isHexChar c = true) : isGap c = false := by
  rw [Bool.eq_false_iff, ne_eq, isGap_iff]
  have hhex := isHexChar_iff.1 h
  unfold IsHexCode at hhex
  omega

theorem fromHex_withoutGaps_iff {payloadHex : Text} {bytes : Bytes} :
    fromHex (withoutGaps payloadHex) = some bytes ↔
      (∀ c ∈ payloadHex, isHexChar c = true ∨ isGap c = true) ∧
        hexPairs (bytesOf (payloadHex.filter isHexChar)) = some bytes := by
  have hall : (withoutGaps payloadHex).all isHexChar = true ↔
      ∀ c ∈ payloadHex, isHexChar c = true ∨ isGap c = true := by
    rw [List.all_eq_true]
    constructor
    · intro h c hc
      by_cases hgap : isGap c = true
      · exact .inr hgap
      · exact .inl (h c (List.mem_filter.2 ⟨hc, by simpa using hgap⟩))
    · intro h c hc
      obtain ⟨hmem, hgap⟩ := List.mem_filter.1 hc
      exact (h c hmem).resolve_right (by simpa using hgap)
  rw [← hall, fromHex]
  split
  · rename_i hhex
    have hfilter : withoutGaps payloadHex = payloadHex.filter isHexChar := by
      refine List.filter_congr fun c hc => ?_
      rcases hall.1 hhex c hc with hdigit | hgap
      · rw [hdigit, isGap_of_isHexChar hdigit]
        rfl
      · have hdigit : isHexChar c = false := by
          by_contra hdigit
          rw [isGap_of_isHexChar (by simpa using hdigit)] at hgap
          cases hgap
        rw [hgap, hdigit]
        rfl
    rw [and_iff_right hhex, hfilter]
  · rename_i hforeign
    exact iff_of_false (Option.some_ne_none bytes).symm fun h => hforeign h.1

/-! ### Both views -/

theorem isGap_of_isDelimiter {c : ℕ} (h : isDelimiter c = true) : isGap c = true := by
  have hall : ∀ d ∈ codes " \t\n\r:-", isGap d = true := by decide
  exact hall c (List.contains_iff_mem.1 h)

theorem isDelimiter_or_isSpace_of_isGap {c : ℕ} (h : isGap c = true) :
    isDelimiter c = true ∨ isSpace c = true := by
  unfold isGap at h
  rw [Bool.or_eq_true, Bool.or_eq_true, beq_iff_eq, beq_iff_eq] at h
  rcases h with (hspace | rfl) | rfl
  · exact .inr hspace
  · exact .inl (by decide)
  · exact .inl (by decide)

/-- The hex view shows bytes exactly when the text view decodes the same bytes and every whitespace
character of the text is a space, a tabulator or a line end. -/
theorem views_agree {payloadHex : Text} {bytes : Bytes} (hbytes : bytes ≠ []) :
    readDump (formatHexDump payloadHex) = some bytes ↔
      fromHex (withoutGaps payloadHex) = some bytes ∧
        ∀ c ∈ payloadHex, isSpace c = true → isDelimiter c = true := by
  rw [readDump_formatHexDump_iff hbytes, fromHex_withoutGaps_iff]
  constructor
  · rintro ⟨hdelimited, hpairs⟩
    refine ⟨⟨fun c hc => (hdelimited c hc).imp_right isGap_of_isDelimiter, hpairs⟩,
      fun c hc hspace => ?_⟩
    refine (hdelimited c hc).resolve_left fun hhex => ?_
    have hgap : isGap c = true := by
      unfold isGap
      rw [hspace]
      rfl
    rw [isGap_of_isHexChar hhex] at hgap
    cases hgap
  · rintro ⟨⟨hgaps, hpairs⟩, hspaces⟩
    refine ⟨fun c hc => (hgaps c hc).imp_right fun hgap => ?_, hpairs⟩
    exact (isDelimiter_or_isSpace_of_isGap hgap).elim id (hspaces c hc)

/-- A form feed between the digits is skipped by the text view only. -/
theorem views_agree_formFeed :
    fromHex (withoutGaps [0x34, 0x31, 0x0C, 0x34, 0x32]) = some [0x41, 0x42] ∧
      readDump (formatHexDump [0x34, 0x31, 0x0C, 0x34, 0x32]) ≠ some [0x41, 0x42] := by
  have hiff := @views_agree [0x34, 0x31, 0x0C, 0x34, 0x32] [0x41, 0x42] (by decide)
  refine ⟨by decide, fun hread => ?_⟩
  exact absurd ((hiff.1 hread).2 0x0C (by decide) (by decide)) (by decide)

end PacketProbe
