import PacketProbe.ConfigRoundTrip
import PacketProbe.HexPayloads

/-!
# The texts of delimiters

`parse_delimiter_bytes` accepts the two names of line endings and every sequence of hex bytes.
It leaves each slice of two characters to `std::stoul`, which also reads a digit behind a sign.
-/

namespace PacketProbe

/-! ### One slice -/

theorem digitValue_sixteen (ch : UInt8) : digitValue 16 ch = hexValue ch := by
  have hfilter : ∀ n : ℕ, (some n).filter (· < 16) = if n < 16 then some n else none := by
    intro n
    simp only [Option.filter_some, decide_eq_true_eq]
  unfold digitValue hexValue
  simp only [UInt8.le_iff_toNat_le, UInt8.reduceToNat]
  split
  · rw [hfilter, if_pos (by omega)]
  · split
    · rw [hfilter]
      split
      · rw [if_pos (by omega)]
        exact congrArg some (by omega)
      · rw [if_neg (by omega), if_neg (by omega)]
    · have hlower : ¬ (97 ≤ ch.toNat ∧ ch.toNat ≤ 102) := by omega
      rw [if_neg hlower]
      split
      · rw [hfilter]
        split
        · rw [if_pos (by omega)]
          exact congrArg some (by omega)
        · rw [if_neg (by omega)]
      · rw [if_neg (by omega)]
        rfl

/-- The byte of two hex digits. -/
def hexByte (high low : UInt8) : Option UInt8 :=
  match hexValue high, hexValue low with
  | some h, some l => some (UInt8.ofNat (16 * h + l))
  | _, _ => none

/-- A plus sign and a hex digit, or `-0`. -/
def IsSignedSlice (high low : UInt8) : Prop :=
  (high = 43 ∧ (hexValue low).isSome = true) ∨ (high = 45 ∧ low = 48)

variable {high low byte : UInt8} {compact value : ByteString}

theorem lt_size_of_lt {n : ℕ} (h : n < 256) : ¬ UInt64.size ≤ n := by
  change ¬ 18446744073709551616 ≤ n
  omega

/-- What `stoul` makes of two characters: `0x` without a digit behind it is the number 0. -/
theorem stoul_slice (h : isspace high = false) :
    stoul [high, low] 16 =
      if high = 45 ∨ high = 43 then
        match hexValue low with
        | none => .error (invalidArgument (ascii "stoul"))
        | some l => .ok (if high = 45 then 0 - UInt64.ofNat l else UInt64.ofNat l, 2)
      else
        match hexValue high, hexValue low with
        | none, _ => .error (invalidArgument (ascii "stoul"))
        | some h, none => .ok (UInt64.ofNat h, 1)
        | some h, some l => .ok (UInt64.ofNat (h * 16 + l), 2) := by
  have hpart : [high, low].dropWhile isspace = [high, low] := by
    apply List.dropWhile_cons_of_neg
    rw [h]
    decide
  by_cases hsign : high = 45 ∨ high = 43
  · rw [if_pos hsign]
    unfold stoul
    simp only [hpart, List.head?_cons, Option.some.injEq, hsign, if_true, List.tail_cons,
      startsWith0x]
    cases hlow : hexValue low with
    | none => simp [digitValue_sixteen, hlow]
    | some l =>
      have hsize := lt_size_of_lt (show l < 256 by have := hexValue_lt hlow; omega)
      simp [digitValue_sixteen, hlow, hsize]
  · rw [if_neg hsign]
    obtain ⟨hminus, hplus⟩ := not_or.1 hsign
    unfold stoul
    cases hhigh : hexValue high with
    | none => simp [hpart, hminus, hplus, digitValue_sixteen, hhigh]
    | some h =>
      have hh := hexValue_lt hhigh
      cases hlow : hexValue low with
      | none =>
        have hsize := lt_size_of_lt (show h < 256 by omega)
        simp [hpart, hminus, hplus, digitValue_sixteen, hhigh, hlow, hsize]
      | some l =>
        have hl := hexValue_lt hlow
        have hsize := lt_size_of_lt (show h * 16 + l < 256 by omega)
        simp [hpart, hminus, hplus, digitValue_sixteen, hhigh, hlow, hsize]

/-- A sign is not a hex digit. -/
theorem IsSignedSlice.hexByte_eq_none (h : IsSignedSlice high low) : hexByte high low = none := by
  rcases h with ⟨rfl, -⟩ | ⟨rfl, -⟩ <;> rfl

theorem hexValue_eq_zero_iff : hexValue low = some 0 ↔ low = 48 := by
  constructor
  · intro h
    unfold hexValue at h
    simp only [← UInt8.toNat_inj, UInt8.reduceToNat]
    simp only [UInt8.le_iff_toNat_le, UInt8.reduceToNat] at h
    split at h
    · have := Option.some.inj h
      omega
    · split at h
      · have := Option.some.inj h
        omega
      · split at h
        · have := Option.some.inj h
          omega
        · cases h
  · rintro rfl
    rfl

theorem parseHexByte_of_error {ex : StdException} (h : stoul [high, low] 16 = .error ex) :
    parseHexByte [high, low] = .error ex := by
  have hlength : ¬ [high, low].length ≠ 2 := not_not_intro rfl
  unfold parseHexByte
  rw [if_neg hlength, h]
  rfl

theorem parseHexByte_of_ok {x : UInt64} {parsed : ℕ} (h : stoul [high, low] 16 = .ok (x, parsed)) :
    parseHexByte [high, low] =
      if parsed ≠ 2 ∨
        x > 0xFF then .error (invalidArgument (ascii "invalid hex byte: " ++ [high, low]))
      else .ok x.toUInt8 := by
  have hlength : ¬ [high, low].length ≠ 2 := not_not_intro rfl
  unfold parseHexByte
  rw [if_neg hlength, h]
  rfl

theorem not_gt_of_lt {n : ℕ} (h : n < 256) : ¬ (2 ≠ 2 ∨ UInt64.ofNat n > 0xFF) := by
  have hn : (UInt64.ofNat n).toNat = n :=
    UInt64.toNat_ofNat_of_lt' (Nat.lt_of_not_le (lt_size_of_lt h))
  rintro (h | h)
  · exact h rfl
  · rw [gt_iff_lt, UInt64.lt_iff_toNat_lt, hn] at h
    change 255 < n at h
    omega

/-- A negated digit does not fit a byte, unless it is 0. -/
theorem neg_gt_iff {l : ℕ} (h : l < 16) : (2 ≠ 2 ∨ 0 - UInt64.ofNat l > 0xFF) ↔ l ≠ 0 := by
  have hall : ∀ l < 16, (2 ≠ 2 ∨ 0 - UInt64.ofNat l > 0xFF) ↔ l ≠ 0 := by decide
  exact hall l h

/-- A slice with a sign is accepted in one of two ways, or refused. -/
theorem parseHexByte_of_sign (h : isspace high = false) (hsign : high = 45 ∨ high = 43) :
    (IsSignedSlice high low ∧ ∃ byte, parseHexByte [high, low] = .ok byte) ∨
    (¬ IsSignedSlice high low ∧
      ∃ text, parseHexByte [high, low] = .error (invalidArgument text)) := by
  have hstoul := @stoul_slice high low h
  rw [if_pos hsign] at hstoul
  cases hlow : hexValue low with
  | none =>
    rw [hlow] at hstoul
    refine .inr ⟨?_, _, parseHexByte_of_error hstoul⟩
    rintro (⟨-, hdigit⟩ | ⟨-, rfl⟩)
    · rw [hlow] at hdigit
      cases hdigit
    · cases hlow
  | some l =>
    have hl := hexValue_lt hlow
    rw [hlow] at hstoul
    have hparse := parseHexByte_of_ok hstoul
    rcases hsign with rfl | rfl
    · simp only [if_true, neg_gt_iff hl] at hparse
      by_cases hzero : l = 0
      · rw [if_neg (not_not_intro hzero)] at hparse
        rw [hzero, hexValue_eq_zero_iff] at hlow
        exact .inl ⟨.inr ⟨rfl, hlow⟩, _, hparse⟩
      · rw [if_pos hzero] at hparse
        refine .inr ⟨?_, _, hparse⟩
        rintro (⟨hplus, -⟩ | ⟨-, rfl⟩)
        · cases hplus
        · exact hzero (Option.some.inj hlow).symm
    · have hplus : ¬ (43 : UInt8) = 45 := by decide
      have hsmall : l < 256 := by omega
      simp only [if_neg hplus, if_neg (not_gt_of_lt hsmall)] at hparse
      exact .inl ⟨.inl ⟨rfl, by rw [hlow]; rfl⟩, _, hparse⟩

/-- A slice without a sign is two hex digits, or refused. -/
theorem parseHexByte_of_not_sign (h : isspace high = false) (hsign : ¬ (high = 45 ∨ high = 43)) :
    (∃ byte, hexByte high low = some byte ∧ parseHexByte [high, low] = .ok byte) ∨
    (hexByte high low = none ∧
      ∃ text, parseHexByte [high, low] = .error (invalidArgument text)) := by
  have hstoul := @stoul_slice high low h
  rw [if_neg hsign] at hstoul
  unfold hexByte
  cases hhigh : hexValue high with
  | none =>
    rw [hhigh] at hstoul
    exact .inr ⟨rfl, _, parseHexByte_of_error hstoul⟩
  | some h =>
    have hh := hexValue_lt hhigh
    rw [hhigh] at hstoul
    cases hlow : hexValue low with
    | none =>
      rw [hlow] at hstoul
      have hparse := parseHexByte_of_ok hstoul
      rw [if_pos (.inl (by decide))] at hparse
      exact .inr ⟨rfl, _, hparse⟩
    | some l =>
      have hl := hexValue_lt hlow
      rw [hlow] at hstoul
      have hparse := parseHexByte_of_ok hstoul
      rw [if_neg (not_gt_of_lt (by omega))] at hparse
      refine .inl ⟨_, rfl, ?_⟩
      rw [hparse, Except.ok.injEq, ← UInt8.toNat_inj, UInt64.toNat_toUInt8, UInt8.toNat_ofNat',
        UInt64.toNat_ofNat_of_lt' (Nat.lt_of_not_le (lt_size_of_lt (by omega)))]
      omega

/-- A slice is two hex digits, or a signed one, or refused. -/
theorem parseHexByte_cases (h : isspace high = false) :
    (∃ byte, hexByte high low = some byte ∧ parseHexByte [high, low] = .ok byte) ∨
    (IsSignedSlice high low ∧ ∃ byte, parseHexByte [high, low] = .ok byte) ∨
    (hexByte high low = none ∧ ¬ IsSignedSlice high low ∧
      ∃ text, parseHexByte [high, low] = .error (invalidArgument text)) := by
  by_cases hsign : high = 45 ∨ high = 43
  · have hnone : hexByte high low = none := by
      rcases hsign with rfl | rfl <;> rfl
    exact .inr ((parseHexByte_of_sign h hsign).imp_right fun hrefused => ⟨hnone, hrefused⟩)
  · have hunsigned : ¬ IsSignedSlice high low := fun hsigned =>
      hsign (hsigned.symm.imp And.left And.left)
    exact (parseHexByte_of_not_sign h hsign).imp_right fun hrefused =>
      .inr ⟨hrefused.1, hunsigned, hrefused.2⟩

/-! ### All slices -/

/-- The slices of two characters. -/
def slices : ByteString → List (UInt8 × UInt8)
  | high :: low :: compact => (high, low) :: slices compact
  | _ => []

/-- The bytes that hex digits denote, two by two. -/
def denotedBytes : ByteString → Bytes
  | high :: low :: compact => (hexByte high low).getD 0 :: denotedBytes compact
  | _ => []

/-- Without a slice there is at most one character. -/
theorem short_cases (h : ∀ high low rest, compact = high :: low :: rest → False) :
    compact = [] ∨ ∃ ch, compact = [ch] := by
  cases compact with
  | nil => exact .inl rfl
  | cons high rest =>
    cases rest with
    | nil => exact .inr ⟨high, rfl⟩
    | cons low rest => exact absurd rfl (h high low rest)

theorem isSome_hexByte_iff :
    (hexByte high low).isSome = true ↔ (hexValue high).isSome = true ∧
      (hexValue low).isSome = true := by
  unfold hexByte
  cases hexValue high with
  | none => simp
  | some h => cases hexValue low <;> simp

/-- Every character is in a slice. -/
theorem mem_slices {ch : UInt8} (h : compact.length % 2 = 0) (hmem : ch ∈ compact) :
    ∃ slice ∈ slices compact, ch = slice.1 ∨ ch = slice.2 := by
  induction compact using slices.induct with
  | case1 high low compact ih =>
    rw [slices, List.exists_mem_cons_iff]
    rw [List.length_cons, List.length_cons] at h
    rcases List.mem_cons.1 hmem with rfl | hmem
    · exact .inl (.inl rfl)
    · rcases List.mem_cons.1 hmem with rfl | hmem
      · exact .inl (.inr rfl)
      · exact .inr (ih (by omega) hmem)
  | case2 compact hshort =>
    obtain rfl | ⟨_, rfl⟩ := short_cases hshort
    · cases hmem
    · cases h

/-- Digits in pairs are what all digits are. -/
theorem forall_digits_iff (h : compact.length % 2 = 0) :
    (∀ ch ∈ compact, (hexValue ch).isSome = true) ↔
      ∀ slice ∈ slices compact, (hexByte slice.1 slice.2).isSome = true := by
  induction compact using slices.induct with
  | case1 high low compact ih =>
    have hrest : compact.length % 2 = 0 := by
      rw [List.length_cons, List.length_cons] at h
      omega
    rw [slices, List.forall_mem_cons, List.forall_mem_cons, List.forall_mem_cons, ih hrest,
      ← and_assoc, isSome_hexByte_iff]
  | case2 compact hshort =>
    obtain rfl | ⟨_, rfl⟩ := short_cases hshort
    · exact iff_of_true (List.forall_mem_nil _) (List.forall_mem_nil _)
    · cases h

/-- The loop returns if each slice is one of the two kinds, and else it throws. -/
theorem parseHexPairs_cases (hblank : ∀ ch ∈ compact, isspace ch = false) :
    ((∀ slice ∈ slices compact, (hexByte slice.1 slice.2).isSome = true) ∧
      parseHexPairs compact = .ok (denotedBytes compact)) ∨
    ((∀ slice ∈ slices compact, (hexByte slice.1 slice.2).isSome = true ∨
      IsSignedSlice slice.1 slice.2) ∧
      (∃ slice ∈ slices compact, IsSignedSlice slice.1 slice.2) ∧
      ∃ bytes, parseHexPairs compact = .ok bytes) ∨
    ((∃ slice ∈ slices compact,
        ¬ ((hexByte slice.1 slice.2).isSome = true ∨ IsSignedSlice slice.1 slice.2)) ∧
      ∃ text, parseHexPairs compact = .error (invalidArgument text)) := by
  induction compact using slices.induct with
  | case1 high low compact ih =>
    obtain ⟨hhigh, hrest⟩ := List.forall_mem_cons.1 hblank
    have hih := ih (List.forall_mem_cons.1 hrest).2
    simp only [slices, parseHexPairs, denotedBytes, List.forall_mem_cons, List.exists_mem_cons_iff]
    rcases @parseHexByte_cases high low hhigh with
      ⟨byte, hbyte, hfirst⟩ | ⟨hsigned, byte, hfirst⟩ | ⟨hnone, hunsigned, text, hfirst⟩
    · rw [hfirst, hbyte]
      rcases hih with ⟨hdigits, hok⟩ | ⟨hkinds, hsome, bytes, hok⟩ | ⟨hother, text, herror⟩
      · exact .inl ⟨⟨rfl, hdigits⟩, by rw [hok]; rfl⟩
      · exact .inr (.inl ⟨⟨.inl rfl, hkinds⟩, .inr hsome, _, by rw [hok]; rfl⟩)
      · exact .inr (.inr ⟨.inr hother, text, by rw [herror]; rfl⟩)
    · rw [hfirst]
      rcases hih with ⟨hdigits, hok⟩ | ⟨hkinds, hsome, bytes, hok⟩ | ⟨hother, text, herror⟩
      · exact .inr (.inl ⟨⟨.inr hsigned, fun slice hs => .inl (hdigits slice hs)⟩, .inl hsigned, _,
          by rw [hok]; rfl⟩)
      · exact .inr (.inl ⟨⟨.inr hsigned, hkinds⟩, .inl hsigned, _, by rw [hok]; rfl⟩)
      · exact .inr (.inr ⟨.inr hother, text, by rw [herror]; rfl⟩)
    · rw [hfirst]
      refine .inr (.inr ⟨.inl ?_, text, rfl⟩)
      rintro (hdigits | hsigned)
      · rw [hnone] at hdigits
        cases hdigits
      · exact hunsigned hsigned
  | case2 compact hshort =>
    obtain rfl | ⟨_, rfl⟩ := short_cases hshort
    · exact .inl ⟨List.forall_mem_nil _, rfl⟩
    · exact .inl ⟨List.forall_mem_nil _, rfl⟩

/-! ### Delimiters -/

/-- The characters of a text that are not blanks. -/
def unblanked (value : ByteString) : ByteString := value.filter fun ch => !isspace ch

/-- The text names a line ending, or it is a sequence of hex bytes, and denotes these bytes. -/
def IsDelimiterText (value : ByteString) (bytes : Bytes) : Prop :=
  (lowercase value = ascii "lf" ∧ bytes = [0x0A]) ∨
  (lowercase value = ascii "crlf" ∧ bytes = [0x0D, 0x0A]) ∨
  (unblanked value ≠ [] ∧ (unblanked value).length % 2 = 0 ∧
    (∀ ch ∈ unblanked value, (hexValue ch).isSome = true) ∧ bytes = denotedBytes (unblanked value))

/-- The parser succeeds exactly on the texts of delimiters, with their bytes, and otherwise throws
`invalid_argument`. -/
def ParsesDelimiter (value : ByteString) : Prop :=
  (∀ bytes, parseDelimiterBytes value = .ok bytes ↔ IsDelimiterText value bytes) ∧
  ((∀ bytes, ¬ IsDelimiterText value bytes) →
    ∃ text, parseDelimiterBytes value = .error (invalidArgument text))

/-- Every slice is two hex digits or a signed digit, and there are signed ones. -/
def HasSignedSlices (value : ByteString) : Prop :=
  (unblanked value).length % 2 = 0 ∧
  (∀ slice ∈ slices (unblanked value),
    (hexByte slice.1 slice.2).isSome = true ∨ IsSignedSlice slice.1 slice.2) ∧
  ∃ slice ∈ slices (unblanked value), IsSignedSlice slice.1 slice.2

theorem not_isspace_of_mem_unblanked {ch : UInt8} (h : ch ∈ unblanked value) :
    isspace ch = false := by
  have hch := (List.mem_filter.1 h).2
  rwa [Bool.not_eq_true'] at hch

theorem letter_of_tolower {ch : UInt8} (h : tolower ch = 108) : ch = 108 ∨ ch = 76 := by
  unfold tolower at h
  split at h
  · right
    rw [← UInt8.toNat_inj] at h ⊢
    rw [UInt8.toNat_add] at h
    simp only [UInt8.reduceToNat] at h ⊢
    have := ch.toNat_lt
    omega
  · exact .inl h

/-- The names have the letter `l`. -/
theorem exists_letter_of_named (h : lowercase value = ascii "lf" ∨ lowercase value = ascii "crlf") :
    ∃ ch ∈ unblanked value, tolower ch = 108 := by
  have hmem : (108 : UInt8) ∈ lowercase value := by
    rcases h with h | h <;> rw [h] <;> decide
  obtain ⟨ch, hch, hl⟩ := List.mem_map.1 hmem
  refine ⟨ch, List.mem_filter.2 ⟨hch, ?_⟩, hl⟩
  rcases letter_of_tolower hl with rfl | rfl <;> rfl

/-- The letter is neither a digit nor a sign. -/
theorem not_accepted_of_named (h : lowercase value = ascii "lf" ∨ lowercase value = ascii "crlf")
    (heven : (unblanked value).length % 2 = 0) :
    ∃ slice ∈ slices (unblanked value),
      ¬ ((hexByte slice.1 slice.2).isSome = true ∨ IsSignedSlice slice.1 slice.2) := by
  obtain ⟨ch, hch, hl⟩ := exists_letter_of_named h
  obtain ⟨slice, hslice, hin⟩ := mem_slices heven hch
  refine ⟨slice, hslice, ?_⟩
  rw [isSome_hexByte_iff, IsSignedSlice]
  rcases letter_of_tolower hl with rfl | rfl <;> rcases hin with
    hin | hin <;> rw [← hin] <;> simp [hexValue]

theorem isDelimiterText_iff_of_even (heven : (unblanked value).length % 2 = 0) (bytes : Bytes)
    (hplain : ¬ (lowercase value = ascii "lf" ∨ lowercase value = ascii "crlf")) :
    IsDelimiterText value bytes ↔ unblanked value ≠ [] ∧
      (∀ slice ∈ slices (unblanked value), (hexByte slice.1 slice.2).isSome = true) ∧
      bytes = denotedBytes (unblanked value) := by
  obtain ⟨hlf, hcrlf⟩ := not_or.1 hplain
  unfold IsDelimiterText
  rw [forall_digits_iff heven]
  constructor
  · rintro (⟨h, -⟩ | ⟨h, -⟩ | ⟨hne, -, hdigits, hbytes⟩)
    · exact absurd h hlf
    · exact absurd h hcrlf
    · exact ⟨hne, hdigits, hbytes⟩
  · rintro ⟨hne, hdigits, hbytes⟩
    exact .inr (.inr ⟨hne, heven, hdigits, hbytes⟩)

/-- A name is read as what it names. -/
theorem parsesDelimiter_of_named {ending : Bytes}
    (h : lowercase value = ascii "lf" ∨ lowercase value = ascii "crlf")
    (hparse : parseDelimiterBytes value = .ok ending)
    (htext : ∀ bytes, (lowercase value = ascii "lf" ∧ bytes = [0x0A]) ∨
      (lowercase value = ascii "crlf" ∧ bytes = [0x0D, 0x0A]) ↔ bytes = ending) :
    ParsesDelimiter value ∧ ¬ HasSignedSlices value := by
  have hdigits : ∀ bytes, IsDelimiterText value bytes ↔ bytes = ending := by
    intro bytes
    rw [← htext, IsDelimiterText, ← or_assoc]
    apply or_iff_left
    rintro ⟨-, heven, hdigits, -⟩
    obtain ⟨slice, hslice, hother⟩ := not_accepted_of_named h heven
    exact hother (.inl ((forall_digits_iff heven).1 hdigits slice hslice))
  refine ⟨⟨fun bytes => ?_, fun hnone => absurd ((hdigits ending).2 rfl) (hnone ending)⟩, ?_⟩
  · rw [hdigits, hparse, Except.ok.injEq, eq_comm]
  · rintro ⟨heven, hkinds, -⟩
    obtain ⟨slice, hslice, hother⟩ := not_accepted_of_named h heven
    exact hother (hkinds slice hslice)

theorem parseDelimiterBytes_of_plain
    (hplain : ¬ (lowercase value = ascii "lf" ∨ lowercase value = ascii "crlf")) :
    parseDelimiterBytes value =
      if unblanked value = [] ∨ (unblanked value).length % 2 ≠ 0 then
        .error (invalidArgument (ascii "--delimiter requires hex bytes, LF, or CRLF"))
      else parseHexPairs (unblanked value) := by
  obtain ⟨hlf, hcrlf⟩ := not_or.1 hplain
  unfold parseDelimiterBytes
  simp only [if_neg hlf, if_neg hcrlf]
  rfl

theorem parsesDelimiter_iff_of_plain
    (hplain : ¬ (lowercase value = ascii "lf" ∨ lowercase value = ascii "crlf")) :
    ParsesDelimiter value ↔ ¬ HasSignedSlices value := by
  obtain ⟨hlf, hcrlf⟩ := not_or.1 hplain
  have hparse := parseDelimiterBytes_of_plain hplain
  by_cases hshape : unblanked value = [] ∨ (unblanked value).length % 2 ≠ 0
  · rw [if_pos hshape] at hparse
    have hnone : ∀ bytes, ¬ IsDelimiterText value bytes := by
      rintro bytes (⟨h, -⟩ | ⟨h, -⟩ | ⟨hne, heven, -⟩)
      · exact hlf h
      · exact hcrlf h
      · exact hshape.elim hne fun h => h heven
    refine iff_of_true ⟨fun bytes => ?_, fun _ => ⟨_, hparse⟩⟩ ?_
    · exact iff_of_false (fun h => by rw [hparse] at h; cases h) (hnone bytes)
    · rintro ⟨heven, -, slice, hslice, -⟩
      rcases hshape with hempty | hodd
      · rw [hempty] at hslice
        cases hslice
      · exact hodd heven
  · rw [if_neg hshape] at hparse
    obtain ⟨hne, heven⟩ := not_or.1 hshape
    rw [not_not] at heven
    have htext := fun bytes => isDelimiterText_iff_of_even heven bytes hplain
    have hblank : ∀ ch ∈ unblanked value, isspace ch = false :=
      fun ch => not_isspace_of_mem_unblanked
    rcases parseHexPairs_cases hblank with
      ⟨hdigits, hok⟩ | ⟨hkinds, hsigned, bytes, hok⟩ | ⟨hother, text, herror⟩
    · have hdenoted : ∀ bytes, IsDelimiterText value bytes ↔
          bytes = denotedBytes (unblanked value) :=
        fun bytes => (htext bytes).trans ⟨fun h => h.2.2, fun h => ⟨hne, hdigits, h⟩⟩
      refine iff_of_true ⟨fun bytes => ?_, fun hnone => ?_⟩ ?_
      · rw [hdenoted, hparse, hok, Except.ok.injEq, eq_comm]
      · exact absurd ((hdenoted _).2 rfl) (hnone _)
      · rintro ⟨-, -, slice, hslice, hsigned⟩
        have hbyte := hdigits slice hslice
        rw [hsigned.hexByte_eq_none] at hbyte
        cases hbyte
    · refine iff_of_false (fun hexact => ?_) fun h => h ⟨heven, hkinds, hsigned⟩
      obtain ⟨-, hdigits, -⟩ := (htext bytes).1 ((hexact.1 bytes).1 (hparse.trans hok))
      obtain ⟨slice, hslice, hsigned⟩ := hsigned
      have hbyte := hdigits slice hslice
      rw [hsigned.hexByte_eq_none] at hbyte
      cases hbyte
    · obtain ⟨slice, hslice, hother⟩ := hother
      have hnone : ∀ bytes, ¬ IsDelimiterText value bytes := fun bytes h =>
        hother (.inl (((htext bytes).1 h).2.1 slice hslice))
      refine iff_of_true ⟨fun bytes => ?_, fun _ => ⟨text, hparse.trans herror⟩⟩ ?_
      · exact iff_of_false (fun h => by rw [hparse, herror] at h; cases h) (hnone bytes)
      · rintro ⟨-, hkinds, -⟩
        exact hother (hkinds slice hslice)

/-! ### Delimiters that were written -/

theorem unblanked_toHex (delimiter : Bytes) (spaced : Bool) :
    unblanked (toHex delimiter spaced) = toHex delimiter false := by
  have hpair : ∀ byte, unblanked (hexPair byte) = hexPair byte := by
    intro byte
    apply List.filter_eq_self.2
    intro ch hch
    have hin : ch ∈ toHex [byte] false := by rwa [toHex_pairs, List.flatMap_nil, List.append_nil]
    rw [(toHex_digits hin).1]
    rfl
  cases delimiter with
  | nil => cases spaced <;> rfl
  | cons byte delimiter =>
    rw [toHex_pairs, toHex_pairs, unblanked, List.filter_append, List.filter_flatMap]
    congr 1
    · exact hpair byte
    · apply List.flatMap_congr
      intro byte _
      rw [List.filter_append]
      refine (congrArg (_ ++ ·) (hpair byte)).trans ?_
      cases spaced <;> rfl

theorem not_named_toHex (delimiter : Bytes) (spaced : Bool) :
    ¬ (lowercase (toHex delimiter spaced) = ascii "lf" ∨
      lowercase (toHex delimiter spaced) = ascii "crlf") := by
  intro h
  obtain ⟨ch, hch, hl⟩ := exists_letter_of_named h
  rw [unblanked_toHex] at hch
  exact (toHex_digits hch).2 hl

/-- What `to_hex` writes of a delimiter is read back. -/
theorem parseDelimiterBytes_toHex {delimiter : Bytes} (hne : delimiter ≠ []) (spaced : Bool) :
    parseDelimiterBytes (toHex delimiter spaced) = .ok delimiter := by
  have hlength := length_toHex delimiter
  have hpos := List.length_pos_iff.2 hne
  have hshape : ¬ (unblanked (toHex delimiter spaced) = [] ∨
      (unblanked (toHex delimiter spaced)).length % 2 ≠ 0) := by
    rw [unblanked_toHex]
    rintro (hempty | hodd)
    · rw [hempty, List.length_nil] at hlength
      omega
    · omega
  rw [parseDelimiterBytes_of_plain (not_named_toHex delimiter spaced), if_neg hshape,
    unblanked_toHex]
  exact parseHexPairs_toHex delimiter

/-- The parser is exact on all texts but those with signed slices, and it reads what `to_hex`
writes. -/
theorem parsesDelimiter_iff (value : ByteString) :
    (ParsesDelimiter value ↔ ¬ HasSignedSlices value) ∧
      ∀ delimiter ≠ [], ∀ spaced, parseDelimiterBytes (toHex delimiter spaced) = .ok delimiter := by
  refine ⟨?_, fun delimiter hne spaced => parseDelimiterBytes_toHex hne spaced⟩
  have hnames : ascii "lf" ≠ ascii "crlf" := by decide
  by_cases hlf : lowercase value = ascii "lf"
  · have hcrlf : lowercase value ≠ ascii "crlf" := hlf ▸ hnames
    have hparse : parseDelimiterBytes value = .ok [0x0A] := by
      unfold parseDelimiterBytes
      simp only [if_neg hcrlf, if_pos hlf]
    obtain ⟨hexact, hsigned⟩ := parsesDelimiter_of_named (.inl hlf) hparse fun bytes => by
      rw [or_iff_left fun h => hcrlf h.1, and_iff_right hlf]
    exact iff_of_true hexact hsigned
  by_cases hcrlf : lowercase value = ascii "crlf"
  · have hparse : parseDelimiterBytes value = .ok [0x0D, 0x0A] := by
      unfold parseDelimiterBytes
      simp only [if_pos hcrlf]
    obtain ⟨hexact, hsigned⟩ := parsesDelimiter_of_named (.inr hcrlf) hparse fun bytes => by
      rw [or_iff_right fun h => hlf h.1, and_iff_right hcrlf]
    exact iff_of_true hexact hsigned
  exact parsesDelimiter_iff_of_plain (not_or.2 ⟨hlf, hcrlf⟩)

/-- The text `+1` is accepted, and read as the byte 1. -/
theorem not_parsesDelimiter_plus :
    ¬ ParsesDelimiter (ascii "+1") := by
  rintro ⟨hexact, -⟩
  obtain ⟨h, -⟩ | ⟨h, -⟩ | ⟨-, -, hdigits, -⟩ := (hexact [0x01]).1 (by decide)
  · exact absurd h (by decide)
  · exact absurd h (by decide)
  · exact absurd (hdigits 43 (by decide)) (by decide)

end PacketProbe
