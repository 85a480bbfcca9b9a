import PacketProbe.SendPanel

/-!
# The two grammars of hex input

The viewer deletes separators and marks wherever they stand and then counts the digits; the
core reads bytes. They accept the same texts as long as nothing is deleted inside a byte and
every mark stands in front of a digit.
-/

namespace PacketProbe
open JsonText

/-! ### Where matches stand -/

/-- The control characters that `\s` takes and `std::isspace` does not. -/
def isInformationSeparator (c : ℕ) : Bool := 0x1C ≤ c && c ≤ 0x1F

/-- Every match stands between two bytes, every mark directly in front of a digit. -/
def InPlace : Bool → List HexToken → Bool
  | _, [] => true
  | inside, .gap c :: tokens => !inside && !isInformationSeparator c && InPlace inside tokens
  | inside, .mark _ :: tokens =>
    match tokens with
    | .kept _ :: _ => !inside && InPlace inside tokens
    | _ => false
  | inside, .kept _ :: tokens => InPlace (!inside) tokens

def digitCount (tokens : List HexToken) : ℕ := tokens.countP fun token => token.kept?.isSome

/-- Some character between the matches is no hex digit, or the digits make up no bytes. -/
def Malformed (tokens : List HexToken) : Prop :=
  (∃ c, .kept c ∈ tokens ∧ hexCharacters.contains c = false) ∨ digitCount tokens = 0 ∨
    digitCount tokens % 2 = 1

def HexToken.text : HexToken → Text
  | .mark m => m.text.map UInt8.toNat
  | .gap c | .kept c => [c]

theorem text_singleToken (c : ℕ) : (singleToken c).text = [c] := by
  unfold singleToken
  split <;> rfl

theorem text_of_markOf {c d : ℕ} {mark : HexMark} (h : markOf c d = some mark) :
    mark.text.map UInt8.toNat = [c, d] := by
  unfold markOf at h
  split at h
  · rename_i hlower
    obtain ⟨rfl, rfl⟩ := hlower
    cases h
    rfl
  · split at h
    · rename_i hupper
      obtain ⟨rfl, rfl⟩ := hupper
      cases h
      rfl
    · cases h

/-- The tokens are made of the text. -/
theorem text_hexTokens (text : Text) : (hexTokens text).flatMap HexToken.text = text := by
  induction text using hexTokens.induct with
  | case1 => rfl
  | case2 c => rw [hexTokens, List.flatMap_singleton, text_singleToken]
  | case3 c d text mark hmark ih =>
    simp only [hexTokens, hmark, List.flatMap_cons, ih, HexToken.text, text_of_markOf hmark,
      List.cons_append, List.nil_append]
  | case4 c d text hmark ih =>
    simp only [hexTokens, hmark, List.flatMap_cons, ih, text_singleToken, List.cons_append,
      List.nil_append]

/-- A character that begins no mark is a token of its own. -/
theorem hexTokens_cons {c : ℕ} {text : Text} (h : ∀ d ∈ text.head?, markOf c d = none) :
    hexTokens (c :: text) = singleToken c :: hexTokens text := by
  cases text with
  | nil => rfl
  | cons d text =>
    have hmark : markOf c d = none := h d rfl
    simp only [hexTokens, hmark]

theorem hexTokens_mark (mark : HexMark) (text : Text) :
    hexTokens (mark.text.map UInt8.toNat ++ text) = .mark mark :: hexTokens text := by
  cases mark <;> rfl

/-! ### Characters by their numbers -/

theorem contains_hexCharacters_iff {c : ℕ} : hexCharacters.contains c = true ↔ IsHexCode c := by
  have hlist : hexCharacters = [0x30, 0x31, 0x32, 0x33, 0x34, 0x35, 0x36, 0x37, 0x38, 0x39,
      0x61, 0x62, 0x63, 0x64, 0x65, 0x66, 0x41, 0x42, 0x43, 0x44, 0x45, 0x46] := by
    simp only [hexCharacters, codes, String.reduceToList, List.map_cons, List.map_nil,
      Char.reduceToNat]
  rw [List.contains_iff_mem, hlist, IsHexCode]
  simp only [List.mem_cons, List.not_mem_nil, or_false]
  omega

theorem isGap_iff {c : ℕ} : isGap c = true ↔ (0x09 ≤ c ∧ c ≤ 0x0D) ∨ (0x1C ≤ c ∧ c ≤ 0x20) ∨
    c = 0x3A ∨ c = 0x2D ∨
    (0x80 ≤ c ∧ isSpace c = true) := by
  simp only [isGap, isSpace, Bool.or_eq_true, Bool.and_eq_true, beq_iff_eq, decide_eq_true_eq]
  omega

theorem isInformationSeparator_iff {c : ℕ} : isInformationSeparator c = true ↔
    0x1C ≤ c ∧ c ≤ 0x1F := by
  simp only [isInformationSeparator, Bool.and_eq_true, decide_eq_true_eq]

/-! ### The tokens of items -/

namespace HexItem

def tokens : HexItem → List HexToken
  | separator ch _ => [.gap ch.toNat]
  | byte mark high low =>
    (mark.map HexToken.mark).toList ++ [.kept high.ch.toNat, .kept low.ch.toNat]

end HexItem

theorem markOf_eq_none {c d : ℕ} (h : c ≠ 0x30 ∨ d ≠ 0x78 ∧ d ≠ 0x58) : markOf c d = none := by
  unfold markOf
  rw [if_neg, if_neg]
  · rintro ⟨hc, hd⟩
    exact h.elim (fun hne => hne hc) fun hne => hne.2 hd
  · rintro ⟨hc, hd⟩
    exact h.elim (fun hne => hne hc) fun hne => hne.1 hd

/-- What a hex digit and a separator are for the viewer. -/
theorem singleToken_digit {ch : UInt8} (h : (hexValue ch).isSome = true) :
    singleToken ch.toNat = .kept ch.toNat ∧ hexCharacters.contains ch.toNat = true ∧
      ch.toNat ≠ 0x78 ∧ ch.toNat ≠ 0x58 := by
  have hcode : IsHexCode ch.toNat := isSome_hexValue_iff.1 h
  refine ⟨?_, contains_hexCharacters_iff.2 hcode, ?_, ?_⟩
  · rw [singleToken, if_neg]
    rw [isGap_iff]
    unfold IsHexCode at hcode
    omega
  · unfold IsHexCode at hcode
    omega
  · unfold IsHexCode at hcode
    omega

theorem singleToken_separator {ch : UInt8} (h : isSeparator ch = true) :
    singleToken ch.toNat = .gap ch.toNat ∧ isInformationSeparator ch.toNat = false ∧
      ch.toNat ≠ 0x30 ∧
      ch.toNat ≠ 0x78 ∧ ch.toNat ≠ 0x58 := by
  rw [isSeparator_iff] at h
  refine ⟨?_, ?_, ?_, ?_, ?_⟩
  · rw [singleToken, if_pos]
    rw [isGap_iff]
    omega
  · rw [← Bool.not_eq_true, isInformationSeparator_iff]
    omega
  · omega
  · omega
  · omega

/-- No item begins with the letter of a mark. -/
theorem head_items (items : List HexItem) :
    ∀ d ∈ ((items.flatMap HexItem.text).map UInt8.toNat).head?, d ≠ 0x78 ∧ d ≠ 0x58 := by
  intro d hd
  cases items with
  | nil => cases hd
  | cons item items =>
    rw [List.flatMap_cons, List.map_append] at hd
    cases item with
    | separator ch h =>
      cases hd
      exact (singleToken_separator h).2.2.2
    | byte mark high low =>
      cases mark with
      | none =>
        cases hd
        exact (singleToken_digit high.isSome).2.2
      | some mark =>
        cases mark <;> cases hd <;> decide

theorem hexTokens_items (items : List HexItem) :
    hexTokens ((items.flatMap HexItem.text).map UInt8.toNat) = items.flatMap HexItem.tokens := by
  induction items with
  | nil => rfl
  | cons item items ih =>
    have hhead := head_items items
    rw [List.flatMap_cons, List.flatMap_cons, List.map_append]
    cases item with
    | separator ch h =>
      obtain ⟨hgap, -, hzero, -⟩ := singleToken_separator h
      change hexTokens (ch.toNat :: (items.flatMap HexItem.text).map UInt8.toNat) = _
      rw [hexTokens_cons fun _ _ => markOf_eq_none (.inl hzero), hgap, ih]
      rfl
    | byte mark high low =>
      obtain ⟨hhigh, -⟩ := singleToken_digit high.isSome
      obtain ⟨hlow, -, hlower, hupper⟩ := singleToken_digit low.isSome
      have hdigits :
        hexTokens (high.ch.toNat :: low.ch.toNat :: (items.flatMap HexItem.text).map UInt8.toNat) =
          .kept high.ch.toNat :: .kept low.ch.toNat :: items.flatMap HexItem.tokens := by
        rw [hexTokens_cons, hexTokens_cons, hhigh, hlow, ih]
        · exact fun d hd => markOf_eq_none (.inr (hhead d hd))
        · rintro d ⟨⟩
          exact markOf_eq_none (.inr ⟨hlower, hupper⟩)
      cases mark with
      | none => exact hdigits
      | some mark =>
        have hmark := hexTokens_mark mark
          (high.ch.toNat :: low.ch.toNat :: (items.flatMap HexItem.text).map UInt8.toNat)
        rw [hdigits] at hmark
        cases mark <;> exact hmark

/-- Different texts have different tokens. -/
theorem hexTokens_eq_items_iff (line : ByteString) (items : List HexItem) :
    hexTokens (line.map UInt8.toNat) = items.flatMap HexItem.tokens ↔
      items.flatMap HexItem.text = line := by
  constructor
  · intro h
    rw [← hexTokens_items] at h
    have htext := congrArg (List.flatMap HexToken.text) h
    rw [text_hexTokens, text_hexTokens] at htext
    exact (List.map_injective_iff.2 (fun _ _ => UInt8.toNat_inj.1) htext).symm
  · rintro rfl
    exact hexTokens_items items

/-! ### Token lists made of items -/

theorem keptCodes_items (item : HexItem) (tokens : List HexToken) :
    keptCodes (item.tokens ++ tokens) = keptCodes item.tokens ++ keptCodes tokens :=
  List.filterMap_append

theorem keptCodes_byte (mark : Option HexMark) (high low : HexDigit) :
    keptCodes (HexItem.byte mark high low).tokens = [high.ch.toNat, low.ch.toNat] := by
  cases mark <;> rfl

theorem inPlace_of_items (items : List HexItem) :
    InPlace false (items.flatMap HexItem.tokens) = true := by
  induction items with
  | nil => rfl
  | cons item items ih =>
    rw [List.flatMap_cons]
    cases item with
    | separator ch h =>
      obtain ⟨-, hcontrol, -⟩ := singleToken_separator h
      change (!false && !isInformationSeparator ch.toNat && InPlace false
        (items.flatMap HexItem.tokens)) = true
      rw [hcontrol, ih]
      rfl
    | byte mark high low =>
      cases mark with
      | none => exact ih
      | some mark => exact ih

/-- A character that is a hex digit for the viewer. -/
theorem exists_hexDigit {c : ℕ} (h : hexCharacters.contains c = true) :
    ∃ digit : HexDigit, digit.ch.toNat = c := by
  have hhex := contains_hexCharacters_iff.1 h
  have hcode : (UInt8.ofNat c).toNat = c := by
    apply UInt8.toNat_ofNat_of_lt'
    unfold IsHexCode at hhex
    change c < 256
    omega
  have hsome : (hexValue (UInt8.ofNat c)).isSome = true := isSome_hexValue_iff.2 (hcode.symm ▸ hhex)
  obtain ⟨value, hvalue⟩ := Option.isSome_iff_exists.1 hsome
  exact ⟨⟨UInt8.ofNat c, value, hvalue⟩, hcode⟩

theorem exists_separator {c : ℕ} (hascii : c < 0x80) (hgap : isGap c = true)
    (hcontrol : isInformationSeparator c = false) :
    ∃ ch : UInt8, isSeparator ch = true ∧ ch.toNat = c := by
  have hcode : (UInt8.ofNat c).toNat = c := by
    apply UInt8.toNat_ofNat_of_lt'
    change c < 256
    omega
  rw [isGap_iff] at hgap
  rw [← Bool.not_eq_true, isInformationSeparator_iff] at hcontrol
  refine ⟨UInt8.ofNat c, isSeparator_iff.2 ?_, hcode⟩
  rw [hcode]
  omega

/-- The tokens of a text in ASCII: what is deleted is whitespace, a colon or a hyphen. -/
def AsciiGaps (tokens : List HexToken) : Prop := ∀ c, .gap c ∈ tokens → isGap c = true ∧ c < 0x80

/-- Everything is in place, and the digits make up bytes. -/
structure WellPlaced (tokens : List HexToken) : Prop where
  gaps : AsciiGaps tokens
  place : InPlace false tokens = true
  hex : ∀ c ∈ keptCodes tokens, hexCharacters.contains c = true
  even : (keptCodes tokens).length % 2 = 0

namespace WellPlaced

variable {tokens : List HexToken} {c : ℕ}

theorem of_gap (h : WellPlaced (.gap c :: tokens)) :
    (∃ ch : UInt8, isSeparator ch = true ∧ ch.toNat = c) ∧ WellPlaced tokens := by
  have hplace : (!false && !isInformationSeparator c && InPlace false tokens) = true := h.place
  rw [Bool.not_false, Bool.true_and, Bool.and_eq_true, Bool.not_eq_true'] at hplace
  obtain ⟨hgap, hascii⟩ := h.gaps c List.mem_cons_self
  exact ⟨exists_separator hascii hgap hplace.1,
    fun d hd => h.gaps d (List.mem_cons_of_mem _ hd), hplace.2, h.hex, h.even⟩

/-- In place, a mark has a digit directly behind it. -/
theorem of_mark {m : HexMark} (h : WellPlaced (.mark m :: tokens)) :
    (∃ d rest, tokens = .kept d :: rest) ∧ WellPlaced tokens := by
  have hplace := h.place
  cases tokens with
  | nil => cases hplace
  | cons second tokens =>
    cases second with
    | mark m => cases hplace
    | gap d => cases hplace
    | kept d =>
      exact ⟨⟨d, tokens, rfl⟩, fun e he => h.gaps e (List.mem_cons_of_mem _ he), hplace, h.hex,
        h.even⟩

/-- In place, the first digit of a byte has the second one directly behind it. -/
theorem of_kept (h : WellPlaced (.kept c :: tokens)) :
    ∃ (high low : HexDigit) (rest : List HexToken),
      HexToken.kept c :: tokens = .kept high.ch.toNat :: .kept low.ch.toNat :: rest ∧
        WellPlaced rest := by
  have hplace : InPlace true tokens = true := h.place
  have heven : ((keptCodes tokens).length + 1) % 2 = 0 := h.even
  obtain ⟨high, rfl⟩ := exists_hexDigit (h.hex c List.mem_cons_self)
  cases tokens with
  | nil => cases heven
  | cons second rest =>
    cases second with
    | mark m =>
      exfalso
      cases rest with
      | nil => cases hplace
      | cons third rest => cases third <;> cases hplace
    | gap d => cases hplace
    | kept d =>
      obtain ⟨low, rfl⟩ := exists_hexDigit (h.hex d (List.mem_cons_of_mem _ List.mem_cons_self))
      change ((keptCodes rest).length + 1 + 1) % 2 = 0 at heven
      refine ⟨high, low, rest, rfl, ?_, hplace, ?_, ?_⟩
      · exact fun e he => h.gaps e (List.mem_cons_of_mem _ (List.mem_cons_of_mem _ he))
      · exact fun e he => h.hex e (List.mem_cons_of_mem _ (List.mem_cons_of_mem _ he))
      · omega

/-- Such tokens are those of items: a separator or a byte is taken from the front. -/
theorem exists_items (h : WellPlaced tokens) :
    ∃ items : List HexItem, items.flatMap HexItem.tokens = tokens := by
  induction hn : tokens.length using Nat.strongRecOn generalizing tokens with
  | _ n ih =>
    cases tokens with
    | nil => exact ⟨[], rfl⟩
    | cons token tokens =>
      rw [List.length_cons] at hn
      cases token with
      | gap c =>
        obtain ⟨⟨ch, hch, rfl⟩, hrest⟩ := h.of_gap
        obtain ⟨items, rfl⟩ := ih _ (by omega) hrest rfl
        exact ⟨.separator ch hch :: items, rfl⟩
      | mark m =>
        obtain ⟨⟨c, digits, rfl⟩, hmarked⟩ := h.of_mark
        obtain ⟨high, low, rest, hdigits, hrest⟩ := hmarked.of_kept
        rw [hdigits, List.length_cons, List.length_cons] at hn
        obtain ⟨items, rfl⟩ := ih rest.length (by omega) hrest rfl
        refine ⟨.byte (some m) high low :: items, ?_⟩
        rw [hdigits]
        rfl
      | kept c =>
        obtain ⟨high, low, rest, hdigits, hrest⟩ := h.of_kept
        have hlength := congrArg List.length hdigits
        rw [List.length_cons, List.length_cons, List.length_cons] at hlength
        obtain ⟨items, rfl⟩ := ih rest.length (by omega) hrest rfl
        refine ⟨.byte none high low :: items, ?_⟩
        rw [hdigits]
        rfl

end WellPlaced

/-! ### What is denoted -/

/-- The bytes of the digits that the viewer sends. -/
def sentBytes (digits : Text) : Option Bytes := hexPairs (bytesOf (digits.map lowerCode))

/-- A digit keeps its value in lower case. -/
theorem hexValue_lowerCode (digit : HexDigit) :
    hexValue (UInt8.ofNat (lowerCode digit.ch.toNat)) = some digit.value := by
  have hdigit : IsHexCode digit.ch.toNat := isSome_hexValue_iff.1 digit.isSome
  have hvalue := digit.value_eq
  unfold lowerCode
  split
  · rename_i hupper
    have hcode : (UInt8.ofNat (digit.ch.toNat + 0x20)).toNat = digit.ch.toNat + 0x20 := by
      apply UInt8.toNat_ofNat_of_lt'
      change _ < 256
      omega
    unfold IsHexCode at hdigit
    simp only [hexValue, UInt8.le_iff_toNat_le, UInt8.reduceToNat] at hvalue ⊢
    rw [if_neg (by omega), if_neg (by omega), if_pos (by omega)] at hvalue
    rw [hcode, if_neg (by omega), if_pos (by omega), ← hvalue]
    exact congrArg some (by omega)
  · rw [UInt8.ofNat_toNat, hvalue]

theorem sentBytes_items (items : List HexItem) :
    sentBytes (keptCodes (items.flatMap HexItem.tokens)) =
      some (items.filterMap HexItem.denotes) := by
  induction items with
  | nil => rfl
  | cons item items ih =>
    rw [List.flatMap_cons, keptCodes_items]
    cases item with
    | separator ch h => exact ih
    | byte mark high low =>
      rw [keptCodes_byte]
      change (leadingByte [UInt8.ofNat (lowerCode high.ch.toNat),
        UInt8.ofNat (lowerCode low.ch.toNat)] >>= fun byte =>
        sentBytes (keptCodes (items.flatMap HexItem.tokens)) >>= fun bytes =>
          some (byte :: bytes)) = _
      rw [ih, leadingByte, hexValue_lowerCode, hexValue_lowerCode]
      rfl

theorem length_keptCodes_items (items : List HexItem) :
    (keptCodes (items.flatMap HexItem.tokens)).length =
      2 * (items.filterMap HexItem.denotes).length := by
  induction items with
  | nil => rfl
  | cons item items ih =>
    rw [List.flatMap_cons, keptCodes_items, List.length_append, ih]
    cases item with
    | separator ch h => exact Nat.zero_add _
    | byte mark high low =>
      rw [keptCodes_byte]
      change 2 + _ = 2 * ((items.filterMap HexItem.denotes).length + 1)
      omega

theorem hexCharacters_items (items : List HexItem) :
    ∀ c ∈ keptCodes (items.flatMap HexItem.tokens), hexCharacters.contains c = true := by
  intro c hc
  induction items with
  | nil => cases hc
  | cons item items ih =>
    rw [List.flatMap_cons, keptCodes_items, List.mem_append] at hc
    rcases hc with hc | hc
    · cases item with
      | separator ch h => cases hc
      | byte mark high low =>
        rw [keptCodes_byte, List.mem_cons, List.mem_singleton] at hc
        rcases hc with rfl | rfl
        · exact (singleToken_digit high.isSome).2.1
        · exact (singleToken_digit low.isSome).2.1
    · exact ih hc

/-! ### The texts that the viewer takes -/

theorem mem_keptCodes {tokens : List HexToken} {c : ℕ} :
    c ∈ keptCodes tokens ↔ .kept c ∈ tokens := by
  rw [keptCodes, List.mem_filterMap]
  constructor
  · rintro ⟨token, htoken, hkept⟩
    cases token with
    | mark m => cases hkept
    | gap d => cases hkept
    | kept d =>
      cases hkept
      exact htoken
  · intro h
    exact ⟨_, h, rfl⟩

theorem length_keptCodes (tokens : List HexToken) : (keptCodes tokens).length = digitCount tokens :=
  List.length_filterMap_eq_countP

theorem not_malformed_iff {tokens : List HexToken} :
    ¬Malformed tokens ↔ (∀ c ∈ keptCodes tokens, hexCharacters.contains c = true) ∧
      (keptCodes tokens).length ≠ 0 ∧ (keptCodes tokens).length % 2 = 0 := by
  rw [length_keptCodes, Malformed, not_or, not_or, Nat.mod_two_not_eq_one]
  refine and_congr_left fun _ => ?_
  constructor
  · intro hnone c hc
    by_contra hforeign
    exact hnone ⟨c, mem_keptCodes.1 hc, Bool.eq_false_iff.2 hforeign⟩
  · rintro hhex ⟨c, hc, hforeign⟩
    rw [hhex c (mem_keptCodes.2 hc)] at hforeign
    cases hforeign

theorem hexCharacters_lowerCode (c : ℕ) :
    hexCharacters.contains (lowerCode c) = hexCharacters.contains c := by
  rw [Bool.eq_iff_iff, contains_hexCharacters_iff, contains_hexCharacters_iff]
  unfold lowerCode IsHexCode
  split
  · omega
  · exact Iff.rfl

theorem cleanHexInput_eq_some_iff {text clean : Text} :
    cleanHexInput text = some clean ↔
      ¬Malformed (hexTokens text) ∧ (keptCodes (hexTokens text)).map lowerCode = clean := by
  have haccepted : ¬((removeMatches text).map lowerCode = [] ∨
      ((removeMatches text).map lowerCode).all (fun c => hexCharacters.contains c) = false ∨
      ((removeMatches text).map lowerCode).length % 2 ≠ 0) ↔ ¬Malformed (hexTokens text) := by
    rw [not_malformed_iff, List.all_map, List.length_map, List.map_eq_nil_iff, not_or, not_or,
      not_not, Bool.not_eq_false, List.all_eq_true, ← List.length_eq_zero_iff]
    simp only [Function.comp_apply, hexCharacters_lowerCode]
    exact and_left_comm
  rw [← haccepted, cleanHexInput]
  split
  · rename_i h
    constructor
    · intro hnone
      cases hnone
    · rintro ⟨hnot, -⟩
      exact absurd h hnot
  · rename_i h
    constructor
    · intro hsome
      exact ⟨h, Option.some.inj hsome⟩
    · rintro ⟨-, rfl⟩
      rfl

example : cleanHexInput (codes "0xAA:bb-0C") = some (codes "aabb0c") := by decide +kernel

/-- What the viewer takes denotes bytes. -/
theorem exists_sentBytes {tokens : List HexToken} (h : ¬Malformed tokens) :
    ∃ bytes, bytes ≠ [] ∧ sentBytes (keptCodes tokens) = some bytes := by
  obtain ⟨hhex, hnonempty, heven⟩ := not_malformed_iff.1 h
  have hplace : ∀ (inside : Bool) (digits : Text), InPlace inside (digits.map .kept) = true := by
    intro inside digits
    induction digits generalizing inside with
    | nil => cases inside <;> rfl
    | cons c digits ih => cases inside <;> exact ih _
  have hkept : keptCodes ((keptCodes tokens).map .kept) = keptCodes tokens := by
    rw [keptCodes, List.filterMap_map]
    exact List.filterMap_some
  have hgaps : AsciiGaps ((keptCodes tokens).map .kept) := by
    intro c hc
    obtain ⟨d, -, hd⟩ := List.mem_map.1 hc
    cases hd
  have hplaced : WellPlaced ((keptCodes tokens).map .kept) :=
    ⟨hgaps, hplace false _, by rwa [hkept], by rwa [hkept]⟩
  obtain ⟨items, hitems⟩ := hplaced.exists_items
  have hsent := sentBytes_items items
  have hlength := length_keptCodes_items items
  rw [hitems, hkept] at hsent hlength
  refine ⟨_, ?_, hsent⟩
  intro hnil
  rw [hnil] at hlength
  exact hnonempty hlength

theorem asciiGaps_hexTokens {text : Text} (hascii : ∀ c ∈ text, c < 0x80) :
    AsciiGaps (hexTokens text) := by
  have hsingle : ∀ c d, HexToken.gap d = singleToken c → isGap d = true ∧ d = c := by
    intro c d h
    unfold singleToken at h
    split at h
    · rename_i hgap
      cases h
      exact ⟨hgap, rfl⟩
    · cases h
  intro e he
  induction text using hexTokens.induct with
  | case1 => cases he
  | case2 c =>
    obtain ⟨hgap, rfl⟩ := hsingle c e (List.mem_singleton.1 he)
    exact ⟨hgap, hascii e List.mem_cons_self⟩
  | case3 c d text m hmark ih =>
    simp only [hexTokens, hmark] at he
    cases he with
    | tail _ he =>
      exact ih (fun c hc => hascii c (List.mem_cons_of_mem _ (List.mem_cons_of_mem _ hc))) he
  | case4 c d text hmark ih =>
    simp only [hexTokens, hmark] at he
    rcases List.mem_cons.1 he with he | he
    · obtain ⟨hgap, rfl⟩ := hsingle c e he
      exact ⟨hgap, hascii e List.mem_cons_self⟩
    · exact ih (fun c hc => hascii c (List.mem_cons_of_mem _ hc)) he

/-! ### Where the grammars meet -/

section Agreement

variable {line : ByteString} {bytes : Bytes}

theorem viewer_takes_iff :
    (∃ clean, cleanHexInput (line.map UInt8.toNat) = some clean ∧
      hexPairs (bytesOf clean) = some bytes) ↔
      ¬Malformed (hexTokens (line.map UInt8.toNat)) ∧
        sentBytes (keptCodes (hexTokens (line.map UInt8.toNat))) = some bytes := by
  constructor
  · rintro ⟨clean, hclean, hbytes⟩
    obtain ⟨hwell, rfl⟩ := cleanHexInput_eq_some_iff.1 hclean
    exact ⟨hwell, hbytes⟩
  · rintro ⟨hwell, hbytes⟩
    exact ⟨_, cleanHexInput_eq_some_iff.2 ⟨hwell, rfl⟩, hbytes⟩

/-- The core takes the texts whose tokens are those of items. -/
theorem core_takes_iff :
    parseHexPayload line = .ok bytes ↔ ∃ items : List HexItem,
      hexTokens (line.map UInt8.toNat) = items.flatMap HexItem.tokens ∧
        items.filterMap HexItem.denotes = bytes := by
  rw [parseHexPayload_eq_ok_iff]
  exact exists_congr fun items => and_congr_left fun _ => (hexTokens_eq_items_iff line items).symm

/-- What the core takes, the viewer takes with the same bytes, and nothing is out of place. -/
theorem viewer_takes_of_core (hbytes : bytes ≠ []) (h : parseHexPayload line = .ok bytes) :
    (¬Malformed (hexTokens (line.map UInt8.toNat)) ∧
        sentBytes (keptCodes (hexTokens (line.map UInt8.toNat))) = some bytes) ∧
      InPlace false (hexTokens (line.map UInt8.toNat)) = true := by
  obtain ⟨items, htokens, rfl⟩ := core_takes_iff.1 h
  have hlength := length_keptCodes_items items
  have hpositive : (items.filterMap HexItem.denotes).length ≠ 0 :=
    fun hzero => hbytes (List.length_eq_zero_iff.1 hzero)
  rw [htokens]
  refine ⟨⟨not_malformed_iff.2 ⟨hexCharacters_items items, ?_, ?_⟩, sentBytes_items items⟩,
    inPlace_of_items items⟩
  · omega
  · omega

theorem core_takes_of_viewer (hascii : ∀ ch ∈ line, ch < 0x80)
    (hwell : ¬Malformed (hexTokens (line.map UInt8.toNat)))
    (hplace : InPlace false (hexTokens (line.map UInt8.toNat)) = true)
    (hbytes : sentBytes (keptCodes (hexTokens (line.map UInt8.toNat))) = some bytes) :
    parseHexPayload line = .ok bytes := by
  obtain ⟨hhex, -, heven⟩ := not_malformed_iff.1 hwell
  have hcodes : ∀ c ∈ line.map UInt8.toNat, c < 0x80 := by
    intro c hc
    obtain ⟨ch, hch, rfl⟩ := List.mem_map.1 hc
    exact UInt8.lt_iff_toNat_lt.1 (hascii ch hch)
  have hplaced : WellPlaced (hexTokens (line.map UInt8.toNat)) :=
    ⟨asciiGaps_hexTokens hcodes, hplace, hhex, heven⟩
  obtain ⟨items, hitems⟩ := hplaced.exists_items
  refine core_takes_iff.2 ⟨items, hitems.symm, ?_⟩
  rw [← hitems, sentBytes_items] at hbytes
  exact Option.some.inj hbytes

end Agreement

/-- The viewer and the core agree on a text in ASCII exactly when it is malformed for both of
them or everything the viewer deletes stands between two bytes. -/
theorem hexInput_agrees_iff (line : ByteString) (hascii : ∀ ch ∈ line, ch < 0x80) :
    (∀ bytes, bytes ≠ [] →
      ((∃ clean, cleanHexInput (line.map UInt8.toNat) = some clean ∧
        hexPairs (bytesOf clean) = some bytes) ↔
        parseHexPayload line = .ok bytes)) ↔
      Malformed (hexTokens (line.map UInt8.toNat)) ∨
        InPlace false (hexTokens (line.map UInt8.toNat)) = true := by
  constructor
  · intro hagree
    by_cases hwell : Malformed (hexTokens (line.map UInt8.toNat))
    · exact .inl hwell
    · obtain ⟨bytes, hbytes, hsent⟩ := exists_sentBytes hwell
      have hcore := (hagree bytes hbytes).1 (viewer_takes_iff.2 ⟨hwell, hsent⟩)
      exact .inr (viewer_takes_of_core hbytes hcore).2
  · intro hcondition bytes hbytes
    rw [viewer_takes_iff]
    constructor
    · rintro ⟨hwell, hsent⟩
      exact core_takes_of_viewer hascii hwell (hcondition.resolve_left hwell) hsent
    · intro hcore
      exact (viewer_takes_of_core hbytes hcore).1

/-- A mark in front of the first byte and a blank in front of the second one. -/
theorem hexInput_agrees_spaced :
    cleanHexInput ((ascii "0x0A 0b").map UInt8.toNat) = some (codes "0a0b") ∧
      parseHexPayload (ascii "0x0A 0b") = .ok [0x0A, 0x0B] := by
  have hviewer : cleanHexInput ((ascii "0x0A 0b").map UInt8.toNat) = some (codes "0a0b") := by
    decide
  have hbytes : hexPairs (bytesOf (codes "0a0b")) = some [0x0A, 0x0B] := by decide
  have hagree := (hexInput_agrees_iff (ascii "0x0A 0b") (by simp [ascii])).2 (.inr (by decide))
  exact ⟨hviewer, (hagree [0x0A, 0x0B] (List.cons_ne_nil _ _)).1 ⟨_, hviewer, hbytes⟩⟩

/-- A blank inside of a byte: the viewer sends `12`, the core refuses the text. -/
theorem hexInput_differs : ¬∀ line : ByteString, (∀ ch ∈ line, ch < 0x80) → ∀ bytes, bytes ≠ [] →
    ((∃ clean, cleanHexInput (line.map UInt8.toNat) = some clean ∧
      hexPairs (bytesOf clean) = some bytes) ↔
      parseHexPayload line = .ok bytes) := by
  intro hagree
  have hviewer : cleanHexInput ((ascii "1 2").map UInt8.toNat) = some (codes "12") := by decide
  have hbytes : hexPairs (bytesOf (codes "12")) = some [0x12] := by decide
  have hplace : InPlace false (hexTokens ((ascii "1 2").map UInt8.toNat)) = false := by decide
  have hcore : parseHexPayload (ascii "1 2") = .ok [0x12] :=
    (hagree (ascii "1 2") (by simp [ascii]) [0x12] (List.cons_ne_nil _ _)).1 ⟨_, hviewer, hbytes⟩
  rw [(viewer_takes_of_core (List.cons_ne_nil _ _) hcore).2] at hplace
  cases hplace

end PacketProbe
