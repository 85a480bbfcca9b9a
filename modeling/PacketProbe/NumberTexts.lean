import PacketProbe.ConfigRoundTrip

/-!
# What the number parser accepts

`std::stoul` reads a numeral that stands in a longer text: blanks and a sign in front of the
digits, and anything behind them. The texts it accepts are those that can be taken apart in
this way, and there is one way to take a text apart.
-/

namespace PacketProbe

/-- A decimal digit. -/
def IsDecimal (ch : UInt8) : Prop := 48 ≤ ch ∧ ch ≤ 57

instance (ch : UInt8) : Decidable (IsDecimal ch) := inferInstanceAs (Decidable (_ ∧ _))

/-- The number that digits denote. -/
def digitsNumber (digits : ByteString) : ℕ := digits.foldl (fun n ch => n * 10 + (ch.toNat - 48)) 0

/-- The value of a text of decimal digits and nothing else. -/
def decimalValue (value : ByteString) : Option ℕ :=
  if value ≠ [] ∧ value.all (IsDecimal ·) then some (digitsNumber value) else none

theorem decimalValue_of_digits (hne : value ≠ []) (hdigits : ∀ ch ∈ value, IsDecimal ch) :
    decimalValue value = some (digitsNumber value) := by
  have hall : value.all (IsDecimal ·) := List.all_eq_true.2 fun ch hch =>
    decide_eq_true (hdigits ch hch)
  exact if_pos ⟨hne, hall⟩

inductive NumberSign where
  | plus | minus
  deriving DecidableEq

def NumberSign.text : NumberSign → ByteString
  | .plus => [43]
  | .minus => [45]

/-- A numeral in a text. -/
structure NumberText where
  blanks : ByteString
  sign : Option NumberSign
  digits : ByteString
  rest : ByteString
  isspace_blanks : ∀ ch ∈ blanks, isspace ch = true
  digits_ne_nil : digits ≠ []
  isDecimal_digits : ∀ ch ∈ digits, IsDecimal ch
  rest_stops : ∀ ch ∈ rest.head?, ¬ IsDecimal ch

namespace NumberText

variable (t : NumberText)

def signText : ByteString := (t.sign.map NumberSign.text).getD []

def text : ByteString := t.blanks ++ (t.signText ++ (t.digits ++ t.rest))

def magnitude : ℕ := digitsNumber t.digits

/-- A minus sign negates modulo `2 ^ 64`. -/
def value : UInt64 :=
  if t.sign = some .minus then 0 - UInt64.ofNat t.magnitude else UInt64.ofNat t.magnitude

/-- How far the text is read. -/
def parsed : ℕ := t.blanks.length + (t.signText.length + t.digits.length)

/-- There is nothing but the digits. -/
def Plain : Prop := t.blanks = [] ∧ t.sign = none ∧ t.rest = []

end NumberText

/-! ### Reading the digits -/

variable {digits rest : ByteString}

theorem IsDecimal.isSome {ch : UInt8} (h : IsDecimal ch) : (digitValue 10 ch).isSome = true := by
  rw [digitValue_of_digit h]
  rfl

theorem isDecimal_of_isSome {ch : UInt8} (h : (digitValue 10 ch).isSome = true) : IsDecimal ch := by
  unfold digitValue at h
  unfold IsDecimal
  simp only [UInt8.le_iff_toNat_le, UInt8.reduceToNat] at h ⊢
  split at h
  · assumption
  · split at h
    · simp only [Option.filter_some, Option.isSome_ite, decide_eq_true_eq] at h
      omega
    · split at h
      · simp only [Option.filter_some, Option.isSome_ite, decide_eq_true_eq] at h
        omega
      · cases h

/-- The digits are read up to the first character that is none. -/
theorem takeWhile_number (hdigits : ∀ ch ∈ digits, IsDecimal ch)
    (hrest : ∀ ch ∈ rest.head?, ¬ IsDecimal ch) :
    ((digits ++ rest).map (digitValue 10)).takeWhile Option.isSome =
      digits.map (digitValue 10) := by
  induction digits with
  | nil =>
    cases rest with
    | nil => rfl
    | cons ch rest =>
      apply List.takeWhile_cons_of_neg
      exact fun h => hrest ch rfl (isDecimal_of_isSome h)
  | cons ch digits ih =>
    obtain ⟨hch, hothers⟩ := List.forall_mem_cons.1 hdigits
    rw [List.cons_append, List.map_cons, List.takeWhile_cons_of_pos hch.isSome, ih hothers,
      List.map_cons]

theorem foldl_digits (hdigits : ∀ ch ∈ digits, IsDecimal ch) (n : ℕ) :
    (digits.map (digitValue 10)).foldl (fun n digit => n * 10 + digit.getD 0) n =
      digits.foldl (fun n ch => n * 10 + (ch.toNat - 48)) n := by
  induction digits generalizing n with
  | nil => rfl
  | cons ch digits ih =>
    obtain ⟨hch, hothers⟩ := List.forall_mem_cons.1 hdigits
    rw [List.map_cons, List.foldl_cons, List.foldl_cons, digitValue_of_digit hch, ih hothers]
    rfl

theorem dropWhile_blanks {blanks rest : ByteString} (hblanks : ∀ ch ∈ blanks, isspace ch = true)
    (hrest : ∀ ch ∈ rest.head?, isspace ch = false) :
    (blanks ++ rest).dropWhile isspace = rest := by
  induction blanks with
  | nil =>
    cases rest with
    | nil => rfl
    | cons ch rest =>
      apply List.dropWhile_cons_of_neg
      rw [hrest ch rfl]
      exact Bool.false_ne_true
  | cons ch blanks ih =>
    obtain ⟨hch, hothers⟩ := List.forall_mem_cons.1 hblanks
    rw [List.cons_append, List.dropWhile_cons_of_pos hch, ih hothers]

/-! ### The parser on a numeral -/

/-- What `stoul` makes of the text behind the blanks and the sign. -/
def readDigits (negative : Bool) (skipped : ℕ) (digitPart : ByteString) :
    Except StdException (UInt64 × ℕ) :=
  let digits := (digitPart.map (digitValue 10)).takeWhile Option.isSome
  let number := digits.foldl (fun n digit => n * 10 + digit.getD 0) 0
  if digits = [] then .error (invalidArgument (ascii "stoul"))
  else if UInt64.size ≤ number then .error ⟨.outOfRange, ascii "stoul"⟩
  else .ok (if negative then 0 - UInt64.ofNat number else UInt64.ofNat number,
    skipped + digits.length)

theorem stoul_eq (value : ByteString) :
    stoul value 10 =
      let unsignedPart := value.dropWhile isspace
      let negative := unsignedPart.head? = some 45
      let digitPart := if negative ∨
        unsignedPart.head? = some 43 then unsignedPart.tail else unsignedPart
      readDigits negative (value.length - digitPart.length) digitPart := by
  have hbase : ¬ (10 = 16) := by decide
  simp only [stoul, readDigits, hbase, false_and, if_false, decide_eq_true_eq]

theorem readDigits_digits (negative : Bool) (skipped : ℕ) (hne : digits ≠ [])
    (hdigits : ∀ ch ∈ digits, IsDecimal ch) (hrest : ∀ ch ∈ rest.head?, ¬ IsDecimal ch) :
    readDigits negative skipped (digits ++ rest) =
      if UInt64.size ≤ digitsNumber digits then .error ⟨.outOfRange, ascii "stoul"⟩
      else .ok (if negative then 0 - UInt64.ofNat (digitsNumber digits)
        else UInt64.ofNat (digitsNumber digits), skipped + digits.length) := by
  have hmap : ¬ digits.map (digitValue 10) = [] := by rwa [List.map_eq_nil_iff]
  unfold readDigits
  simp only [takeWhile_number hdigits hrest, foldl_digits hdigits, if_neg hmap, List.length_map]
  rfl

/-- Every text is either a numeral or refused. -/
theorem readDigits_cases (negative : Bool) (skipped : ℕ) (digitPart : ByteString) :
    readDigits negative skipped digitPart = .error (invalidArgument (ascii "stoul")) ∨
      ∃ digits rest, digitPart = digits ++ rest ∧ digits ≠ [] ∧ (∀ ch ∈ digits, IsDecimal ch) ∧
        ∀ ch ∈ rest.head?, ¬ IsDecimal ch := by
  have hsplit : digitPart.takeWhile (fun ch => decide (IsDecimal ch)) ++
      digitPart.dropWhile (fun ch => decide (IsDecimal ch)) = digitPart :=
        List.takeWhile_append_dropWhile
  have hdigits : ∀ ch ∈ digitPart.takeWhile (fun ch => decide (IsDecimal ch)), IsDecimal ch := by
    intro ch hch
    have hpos := List.mem_takeWhile_imp hch
    exact of_decide_eq_true hpos
  have hrest : ∀ ch ∈ (digitPart.dropWhile (fun ch => decide (IsDecimal ch))).head?,
      ¬ IsDecimal ch := by
    intro ch hch
    have hstops := List.head?_dropWhile_not (fun ch => decide (IsDecimal ch)) digitPart
    rw [Option.mem_def.1 hch] at hstops
    simpa using hstops
  by_cases hne : digitPart.takeWhile (fun ch => decide (IsDecimal ch)) = []
  · left
    have hmap := takeWhile_number hdigits hrest
    rw [hsplit, hne, List.map_nil] at hmap
    unfold readDigits
    simp only [hmap, if_true]
  · exact .inr ⟨_, _, hsplit.symm, hne, hdigits, hrest⟩

theorem IsDecimal.plain {ch : UInt8} (h : IsDecimal ch) : isspace ch = false ∧ ch ≠ 45 ∧ ch ≠ 43 :=
  ⟨digit_not_isspace h, digit_ne_sign h⟩

namespace NumberText

variable (t : NumberText)

theorem exists_digits : ∃ first others, t.digits = first :: others ∧ IsDecimal first := by
  obtain ⟨first, others, hdigits⟩ := List.exists_cons_of_ne_nil t.digits_ne_nil
  exact ⟨first, others, hdigits, t.isDecimal_digits first (hdigits ▸ List.mem_cons_self)⟩

/-- The first character behind the blanks is no blank. -/
theorem unsignedPart_eq : t.text.dropWhile isspace = t.signText ++ (t.digits ++ t.rest) := by
  apply dropWhile_blanks t.isspace_blanks
  obtain ⟨first, others, hdigits, hfirst⟩ := t.exists_digits
  unfold signText
  cases t.sign with
  | none =>
    rw [hdigits]
    rintro ch ⟨⟩
    exact hfirst.plain.1
  | some sign =>
    cases sign <;>
    · rintro ch ⟨⟩
      rfl

/-- A numeral is read to its end, unless it is too large. -/
theorem stoul_text :
    stoul t.text 10 =
      if UInt64.size ≤ t.magnitude then .error ⟨.outOfRange, ascii "stoul"⟩
      else .ok (t.value, t.parsed) := by
  obtain ⟨first, others, hdigits, hfirst⟩ := t.exists_digits
  have hread := fun negative skipped => readDigits_digits negative skipped t.digits_ne_nil
    t.isDecimal_digits t.rest_stops
  have hlength : t.text.length - (t.digits ++ t.rest).length + t.digits.length = t.parsed := by
    simp only [text, parsed, List.length_append]
    omega
  rw [stoul_eq, unsignedPart_eq]
  unfold value
  rcases hsign : t.sign with _ | _ | _
  · -- Without a sign the digits come first.
    have hempty : t.signText = [] := by rw [signText, hsign]; rfl
    have hhead : (t.digits ++ t.rest).head? = some first := by rw [hdigits]; rfl
    have hminus : ¬ some first = some (45 : UInt8) := fun h => hfirst.plain.2.1 (Option.some.inj h)
    have hplus : ¬ some first = some (43 : UInt8) := fun h => hfirst.plain.2.2 (Option.some.inj h)
    simp only [hempty, List.nil_append, hhead, hminus, hplus, or_self, if_false, decide_false]
    rw [hread, hlength]
    simp [magnitude]
  · have htext : t.signText = [43] := by rw [signText, hsign]; rfl
    simp only [htext, List.singleton_append, List.head?_cons, List.tail_cons]
    rw [if_pos (.inr trivial), hread, hlength]
    simp [magnitude]
  · have htext : t.signText = [45] := by rw [signText, hsign]; rfl
    simp only [htext, List.singleton_append, List.head?_cons, List.tail_cons]
    rw [if_pos (.inl trivial), hread, hlength]
    simp [magnitude]

end NumberText

/-- What is not refused at once is a numeral. -/
theorem exists_numberText (value : ByteString) :
    stoul value 10 = .error (invalidArgument (ascii "stoul")) ∨
      ∃ t : NumberText, t.text = value := by
  have hsplit : value.takeWhile isspace ++ value.dropWhile isspace = value :=
    List.takeWhile_append_dropWhile
  have hblanks : ∀ ch ∈ value.takeWhile isspace, isspace ch = true := fun ch hch =>
    List.mem_takeWhile_imp hch
  -- The sign, if any, and what stands behind it.
  obtain ⟨sign, digitPart, hsign, heq⟩ : ∃ (sign : Option NumberSign) (digitPart : ByteString),
      value.dropWhile isspace = (sign.map NumberSign.text).getD [] ++ digitPart ∧
        ∃ negative,
          stoul value 10 = readDigits negative (value.length - digitPart.length) digitPart := by
    rw [stoul_eq]
    cases hpart : value.dropWhile isspace with
    | nil => exact ⟨none, [], rfl, false, rfl⟩
    | cons ch rest =>
      by_cases hminus : ch = 45
      · subst hminus
        exact ⟨some .minus, rest, rfl, true, rfl⟩
      · by_cases hplus : ch = 43
        · subst hplus
          exact ⟨some .plus, rest, rfl, false, rfl⟩
        · refine ⟨none, ch :: rest, rfl, false, ?_⟩
          simp only [List.head?_cons, Option.some.injEq, hminus, hplus, or_self, if_false,
            decide_false]
  obtain ⟨negative, hread⟩ := heq
  rw [hread]
  rcases readDigits_cases negative (value.length - digitPart.length) digitPart with herror |
    ⟨digits, rest, hdigitPart, hne, hdigits, hrest⟩
  · exact .inl herror
  · refine .inr ⟨⟨value.takeWhile isspace, sign, digits, rest, hblanks, hne, hdigits, hrest⟩, ?_⟩
    change value.takeWhile isspace ++ ((sign.map NumberSign.text).getD [] ++ (digits ++ rest)) =
      value
    rw [← hdigitPart, ← hsign, hsplit]

/-- The parser accepts the numerals below `2 ^ 64`. -/
theorem stoul_eq_ok_iff {value : ByteString} {number : UInt64} {parsed : ℕ} :
    stoul value 10 = .ok (number, parsed) ↔
      ∃ t : NumberText, t.text = value ∧ t.magnitude < UInt64.size ∧ t.value = number ∧
        t.parsed = parsed := by
  constructor
  · intro h
    rcases exists_numberText value with herror | ⟨t, rfl⟩
    · rw [herror] at h
      cases h
    · rw [t.stoul_text] at h
      split at h
      · cases h
      · rename_i hsize
        cases h
        exact ⟨t, rfl, Nat.lt_of_not_le hsize, rfl, rfl⟩
  · rintro ⟨t, rfl, hsize, rfl, rfl⟩
    rw [t.stoul_text, if_neg (Nat.not_le_of_lt hsize)]

/-! ### Plain numbers -/

namespace NumberText

variable {t : NumberText} {value : ByteString} {n : ℕ}

theorem parsed_eq_length_iff : t.parsed = t.text.length ↔ t.rest = [] := by
  rw [← List.length_eq_zero_iff]
  simp only [parsed, text, List.length_append]
  omega

theorem value_of_plain (h : t.Plain) : t.value = UInt64.ofNat t.magnitude := by
  rw [value, if_neg]
  rw [h.2.1]
  decide

theorem text_of_plain (h : t.Plain) : t.text = t.digits := by
  obtain ⟨hblanks, hsign, hrest⟩ := h
  rw [text, signText, hblanks, hsign, hrest]
  exact List.append_nil _

/-- A plain numeral for digits. -/
def ofDigits (digits : ByteString) (hne : digits ≠ []) (hdigits : ∀ ch ∈ digits, IsDecimal ch) :
    NumberText where
  blanks := []
  sign := none
  digits := digits
  rest := []
  isspace_blanks := List.forall_mem_nil _
  digits_ne_nil := hne
  isDecimal_digits := hdigits
  rest_stops := fun _ h => nomatch h

theorem decimalValue_eq_some_iff :
    decimalValue value = some n ↔ ∃ t : NumberText, t.text = value ∧ t.Plain ∧ t.magnitude = n := by
  constructor
  · intro h
    unfold decimalValue at h
    split at h
    · rename_i hvalue
      cases h
      have hdigits (ch : UInt8) (hch : ch ∈ value) : IsDecimal ch :=
        of_decide_eq_true (List.all_eq_true.1 hvalue.2 ch hch)
      refine ⟨ofDigits value hvalue.1 hdigits, ?_, ⟨rfl, rfl, rfl⟩, rfl⟩
      exact text_of_plain ⟨rfl, rfl, rfl⟩
    · cases h
  · rintro ⟨t, rfl, hplain, rfl⟩
    rw [text_of_plain hplain]
    exact decimalValue_of_digits t.digits_ne_nil t.isDecimal_digits

end NumberText

end PacketProbe
