import PacketProbe.JsonRendering

/-!
# Dumped values

`json.dumps` as Python calls it without options: a blank behind every comma and colon, and
every character outside of printable ASCII as `\u` escapes, two of them for a character
beyond the first plane. The scanner reads back what was dumped.
-/

namespace JsonText

/-! ### Writing -/

def hexChar (d : ℕ) : ℕ := if d < 10 then 0x30 + d else 0x57 + d

/-- `'\\u{0:04x}'.format(n)`. -/
def unitEscape (n : ℕ) : Text :=
  [0x5C, 0x75, hexChar (n / 0x1000 % 16), hexChar (n / 0x100 % 16), hexChar (n / 0x10 % 16),
    hexChar (n % 16)]

/-- The characters with an escape of their own. -/
def shortEscape (c : ℕ) : Option ℕ :=
  if c = 0x22 ∨ c = 0x5C then some c
  else if c = 0x08 then some 0x62
  else if c = 0x0C then some 0x66
  else if c = 0x0A then some 0x6E
  else if c = 0x0D then some 0x72
  else if c = 0x09 then some 0x74
  else none

def asciiEscape (c : ℕ) : Text :=
  match shortEscape c with
  | some letter => [0x5C, letter]
  | none =>
    if 0x20 ≤ c ∧ c ≤ 0x7E then [c]
    else if c < 0x10000 then unitEscape c
    else unitEscape (0xD800 + (c - 0x10000) / 0x400) ++ unitEscape (0xDC00 + (c - 0x10000) % 0x400)

def dumpString (text : Text) : Text := 0x22 :: text.flatMap asciiEscape ++ [0x22]

/-- `", ".join(texts)`. -/
def spaceSeparated : List Text → Text
  | [] => []
  | text :: texts => text ++ texts.flatMap (0x2C :: 0x20 :: ·)

def dumpMember (name rendered : Text) : Text := dumpString name ++ 0x3A :: 0x20 :: rendered

mutual

/-- `json.dumps(value)`. -/
def dumps : Value → Text
  | .null => codes "null"
  | .boolean value => codes (if value then "true" else "false")
  | .integer value => integerText value
  | .float numeral => numeral
  | .string text => dumpString text
  | .array items => 0x5B :: spaceSeparated (dumpsItems items) ++ [0x5D]
  | .object members => 0x7B :: spaceSeparated (dumpsMembers members) ++ [0x7D]

def dumpsItems : List Value → List Text
  | [] => []
  | item :: items => dumps item :: dumpsItems items

def dumpsMembers : List (Text × Value) → List Text
  | [] => []
  | member :: members => dumpMember member.1 (dumps member.2) :: dumpsMembers members

end

mutual

/-- A value without floats, whose names are distinct in each object and whose texts have no
surrogates in them. -/
def Dumpable : Value → Prop
  | .string text => ∀ c ∈ text, c.isValidChar
  | .array items => DumpableItems items
  | .object members => (members.map Prod.fst).Nodup ∧ DumpableMembers members
  | .float _ => False
  | .null | .boolean _ | .integer _ => True

def DumpableItems : List Value → Prop
  | [] => True
  | item :: items => Dumpable item ∧ DumpableItems items

def DumpableMembers : List (Text × Value) → Prop
  | [] => True
  | member :: members =>
    (∀ c ∈ member.1, c.isValidChar) ∧ Dumpable member.2 ∧ DumpableMembers members

end

/-! ### Strings -/

variable {text rest escaped rendered : Text} {value : Value} {c : ℕ}

theorem hexValue_hexChar {d : ℕ} (h : d < 16) : hexValue (hexChar d) = some d := by
  have hall : ∀ d < 16, hexValue (hexChar d) = some d := by decide
  exact hall d h

/-- The four digits of a unit. -/
theorem hexUnit_digits {n : ℕ} (h : n < 0x10000) :
    hexUnit (hexChar (n / 0x1000 % 16)) (hexChar (n / 0x100 % 16)) (hexChar (n / 0x10 % 16))
      (hexChar (n % 16)) = some n := by
  have hdigits : n / 0x1000 % 16 * 0x1000 + n / 0x100 % 16 * 0x100 + n / 0x10 % 16 * 0x10 + n % 16 =
      n := by
    omega
  unfold hexUnit
  simp only [hexValue_hexChar (Nat.mod_lt _ (by decide : 0 < 16)), Option.bind_eq_bind,
    Option.bind_some, hdigits]

theorem Quotes.cons_unit (h : Quotes escaped text) (hc : c < 0x10000)
    (hcode : ∀ next, joinSurrogates c next = none) : Quotes (unitEscape c ++ escaped) (c :: text) :=
  h.cons_unicode (hexUnit_digits hc) hcode

/-- A unit that makes up a pair with the one in front of it. -/
theorem scanString_second {a b d e high low code : ℕ} (hlow : hexUnit a b d e = some low)
    (hcode : joinSurrogates high low = some code) :
    scanString (some high) (0x5C :: 0x75 :: a :: b :: d :: e :: text) =
      (scanString none text).map (prepend [code]) := by
  have hcontrol : ¬ 0x5C < 0x20 := by decide
  rw [scanString.eq_def]
  simp only [Nat.reduceEqDiff, if_false, hcontrol, ne_eq, not_true_eq_false, hlow, Option.bind_some,
    hcode]

/-- The two escapes of a character beyond the first plane. -/
theorem Quotes.cons_pair {high low : ℕ} (h : Quotes escaped text) (hhigh : high < 0x10000)
    (hlow : low < 0x10000) (hcode : joinSurrogates high low = some c) :
    Quotes (unitEscape high ++ (unitEscape low ++ escaped)) (c :: text) := by
  intro rest
  rw [List.append_assoc, List.append_assoc]
  refine (scanString_unicode (hexUnit_digits hhigh)).trans ?_
  refine (scanString_second (hexUnit_digits hlow) hcode).trans ?_
  exact prepend_eq (h rest) [c]

/-- A character comes back from what is written for it. -/
theorem quotes_asciiEscape (hc : c.isValidChar) (h : Quotes escaped text) :
    Quotes (asciiEscape c ++ escaped) (c :: text) := by
  have hshort : ∀ n < 0x80, ∀ letter ∈ shortEscape n, unescape letter = some n := by decide
  have hnone : ∀ n, 0x80 ≤ n → shortEscape n = none := by
    intro n hn
    unfold shortEscape
    simp only [show ¬ (n = 0x22 ∨ n = 0x5C) by omega, show n ≠ 0x08 by omega,
      show n ≠ 0x0C by omega, show n ≠ 0x0A by omega, show n ≠ 0x0D by omega, show n ≠ 0x09 by
        omega, if_false]
  unfold asciiEscape
  split
  · rename_i letter hletter
    have hlow : c < 0x80 := by
      by_contra hge
      rw [hnone c (by omega)] at hletter
      cases hletter
    exact h.cons_escape (hshort c hlow letter hletter)
  · rename_i hletter
    by_cases hplain : 0x20 ≤ c ∧ c ≤ 0x7E
    · rw [if_pos hplain]
      refine h.cons (by omega) ?_ ?_
      · rintro rfl
        cases hletter
      · rintro rfl
        cases hletter
    · rw [if_neg hplain]
      unfold Nat.isValidChar at hc
      by_cases hunit : c < 0x10000
      · rw [if_pos hunit]
        exact h.cons_unit hunit fun next => if_neg (by omega)
      · rw [if_neg hunit]
        rw [List.append_assoc]
        refine h.cons_pair (by omega) (by omega) ((if_pos (by omega)).trans (congrArg some ?_))
        omega

theorem quotes_dumped (h : ∀ c ∈ text, c.isValidChar) : Quotes (text.flatMap asciiEscape) text := by
  induction text with
  | nil => exact quotes_nil
  | cons c text ih =>
    exact quotes_asciiEscape (h c List.mem_cons_self)
      (ih fun d hd => h d (List.mem_cons_of_mem _ hd))

/-! ### Values -/

theorem renders_null : Renders (codes "null") .null := by
  refine ⟨⟨_, _, rfl, rfl, by decide⟩, fun fuel rest hfuel _ => ?_⟩
  obtain ⟨fuel, rfl⟩ := Nat.exists_eq_succ_of_ne_zero (Nat.ne_of_gt (Nat.zero_lt_of_lt hfuel))
  rfl

theorem renders_boolean (b : Bool) :
    Renders (codes (if b then "true" else "false")) (.boolean b) := by
  cases b <;> refine ⟨⟨_, _, rfl, rfl, by decide⟩, fun fuel rest hfuel _ => ?_⟩ <;>
  · obtain ⟨fuel, rfl⟩ := Nat.exists_eq_succ_of_ne_zero (Nat.ne_of_gt (Nat.zero_lt_of_lt hfuel))
    rfl

theorem renders_dumpString (h : ∀ c ∈ text, c.isValidChar) :
    Renders (dumpString text) (.string text) :=
  renders_string (quotes_dumped h)

/-- The blank behind a comma or a colon is skipped. -/
theorem Renders.skipBlanks_space (h : Renders text value) (rest : Text) :
    JsonText.skipBlanks (0x20 :: (text ++ rest)) = text ++ rest :=
  (List.dropWhile_cons_of_pos rfl).trans (h.skipBlanks rest)

theorem scanItems_spaceSeparated {texts : List Text} {values : List Value} (h : Renders text value)
    (hs : List.Forall₂ Renders texts values) (fuel : ℕ) (rest : Text)
    (hfuel : 2 * (text ++ texts.flatMap (0x2C :: 0x20 :: ·)).length + 1 < fuel) :
    scanItems fuel (text ++ (texts.flatMap (0x2C :: 0x20 :: ·) ++ 0x5D :: rest)) =
      some (value :: values, rest) := by
  induction hs generalizing text value fuel with
  | nil =>
    obtain ⟨fuel, rfl⟩ := Nat.exists_eq_succ_of_ne_zero (Nat.ne_of_gt (Nat.zero_lt_of_lt hfuel))
    rw [List.flatMap_nil, List.append_nil] at hfuel
    rw [List.flatMap_nil, List.nil_append, scanItems,
      h.scans fuel _ (by omega) (follows_cons (.inr (.inl rfl)))]
    simp only [Option.bind_eq_bind, Option.bind_some,
      skipBlanks_cons (show isBlank 0x5D = false from rfl), if_true]
  | cons h' hs ih =>
    rename_i text' value' texts values
    obtain ⟨fuel, rfl⟩ := Nat.exists_eq_succ_of_ne_zero (Nat.ne_of_gt (Nat.zero_lt_of_lt hfuel))
    have hlength := h.length_pos
    simp only [List.flatMap_cons, List.length_append, List.length_cons] at hfuel
    have hrest := ih h' fuel (by rw [List.length_append]; omega)
    have hcomma : ¬ 0x2C = 0x5D := by decide
    rw [List.flatMap_cons, List.cons_append, List.cons_append, List.cons_append, List.cons_append,
      List.append_assoc, scanItems,
      h.scans fuel _ (by omega) (follows_cons (.inl rfl))]
    simp only [Option.bind_eq_bind, Option.bind_some,
      skipBlanks_cons (show isBlank 0x2C = false from rfl), if_neg hcomma, if_true,
      h'.skipBlanks_space, hrest]

theorem renders_spacedArray {texts : List Text} {values : List Value}
    (h : List.Forall₂ Renders texts values) :
    Renders (0x5B :: spaceSeparated texts ++ [0x5D]) (.array values) := by
  refine ⟨⟨_, _, rfl, rfl, by decide⟩, fun fuel rest hfuel _ => ?_⟩
  obtain ⟨fuel, rfl⟩ := Nat.exists_eq_succ_of_ne_zero (Nat.ne_of_gt (Nat.zero_lt_of_lt hfuel))
  rw [List.append_assoc, List.singleton_append, List.cons_append, scanValue, if_neg (by decide),
    if_neg (by decide), if_pos rfl]
  cases h with
  | nil => rfl
  | cons h hs =>
    rename_i text value texts values
    simp only [List.length_append, List.length_cons, spaceSeparated] at hfuel
    have hitems := scanItems_spaceSeparated h hs fuel rest (by rw [List.length_append]; omega)
    have hskip : skipBlanks (spaceSeparated (text :: texts) ++ 0x5D :: rest) =
        text ++ (texts.flatMap (0x2C :: 0x20 :: ·) ++ 0x5D :: rest) := by
      rw [spaceSeparated, List.append_assoc]
      exact h.skipBlanks _
    have hopen : ¬ (text ++ (texts.flatMap (0x2C :: 0x20 :: ·) ++ 0x5D :: rest)).head? =
        some 0x5D := by
      obtain ⟨c, text', rfl, -, hc⟩ := h.first
      exact fun heq => hc (Option.some.inj heq)
    rw [hskip, if_neg hopen, hitems]
    rfl

/-! ### Members -/

section Members

variable {member : Text × Value} {fuel : ℕ}

/-- A member with a blank behind its colon. -/
structure RendersSpaced (text : Text) (member : Text × Value) : Prop where
  split : ∃ escaped rendered, text = 0x22 :: escaped ++ 0x22 :: 0x3A :: 0x20 :: rendered ∧
    Quotes escaped member.1 ∧ Renders rendered member.2

theorem RendersSpaced.skipBlanks (h : RendersSpaced text member) (rest : Text) :
    skipBlanks (text ++ rest) = text ++ rest := by
  obtain ⟨escaped, rendered, rfl, -⟩ := h.split
  exact skipBlanks_cons rfl

theorem RendersSpaced.scanMembers_eq (h : RendersSpaced text member)
    (hfuel : 2 * text.length < fuel) (hrest : Follows (c :: rest)) (hc : isBlank c = false) :
    scanMembers (fuel + 1) (text ++ c :: rest) =
      if c = 0x7D then some ([member], rest)
      else if c = 0x2C then do
        let (members, text) ← scanMembers fuel (JsonText.skipBlanks rest)
        some (member :: members, text)
      else none := by
  obtain ⟨escaped, rendered, rfl, hname, hvalue⟩ := h.split
  have hsplit : 0x22 :: escaped ++ 0x22 :: 0x3A :: 0x20 :: rendered ++ c :: rest =
      0x22 :: (escaped ++ 0x22 :: 0x3A :: 0x20 :: (rendered ++ c :: rest)) := by
    simp only [List.append_assoc, List.cons_append]
  simp only [List.length_append, List.length_cons] at hfuel
  have hscan := hvalue.scans fuel (c :: rest) (by omega) hrest
  have hquote : ¬ 0x22 ≠ 0x22 := by decide
  have hcolon : ¬ 0x3A ≠ 0x3A := by decide
  rw [hsplit, scanMembers, if_neg hquote, hname]
  simp only [Option.bind_eq_bind, Option.bind_some,
    skipBlanks_cons (show isBlank 0x3A = false from rfl), if_neg hcolon, hvalue.skipBlanks_space,
    hscan, skipBlanks_cons hc]

theorem scanMembers_spaceSeparated {texts : List Text} {members : List (Text × Value)}
    (h : RendersSpaced text member) (hs : List.Forall₂ RendersSpaced texts members) (fuel : ℕ)
    (rest : Text) (hfuel : 2 * (text ++ texts.flatMap (0x2C :: 0x20 :: ·)).length + 1 < fuel) :
    scanMembers fuel (text ++ (texts.flatMap (0x2C :: 0x20 :: ·) ++ 0x7D :: rest)) =
      some (member :: members, rest) := by
  induction hs generalizing text member fuel with
  | nil =>
    obtain ⟨fuel, rfl⟩ := Nat.exists_eq_succ_of_ne_zero (Nat.ne_of_gt (Nat.zero_lt_of_lt hfuel))
    rw [List.flatMap_nil, List.append_nil] at hfuel
    rw [List.flatMap_nil, List.nil_append,
      h.scanMembers_eq (by omega) (follows_cons (.inr (.inr rfl))) rfl, if_pos rfl]
  | cons h' hs ih =>
    obtain ⟨fuel, rfl⟩ := Nat.exists_eq_succ_of_ne_zero (Nat.ne_of_gt (Nat.zero_lt_of_lt hfuel))
    simp only [List.flatMap_cons, List.length_append, List.length_cons] at hfuel
    have hrest := ih h' fuel (by rw [List.length_append]; omega)
    have hblank : ∀ text, JsonText.skipBlanks (0x20 :: text) = JsonText.skipBlanks text :=
      fun _ => rfl
    rw [List.flatMap_cons, List.cons_append, List.cons_append, List.cons_append, List.cons_append,
      List.append_assoc, h.scanMembers_eq (by omega) (follows_cons (.inl rfl)) rfl,
      if_neg (by decide), if_pos rfl, hblank, h'.skipBlanks, hrest]
    rfl

theorem renders_spacedObject {texts : List Text} {members : List (Text × Value)}
    (h : List.Forall₂ RendersSpaced texts members) (hnodup : (members.map Prod.fst).Nodup) :
    Renders (0x7B :: spaceSeparated texts ++ [0x7D]) (.object members) := by
  refine ⟨⟨_, _, rfl, rfl, by decide⟩, fun fuel rest hfuel _ => ?_⟩
  obtain ⟨fuel, rfl⟩ := Nat.exists_eq_succ_of_ne_zero (Nat.ne_of_gt (Nat.zero_lt_of_lt hfuel))
  rw [List.append_assoc, List.singleton_append, List.cons_append, scanValue, if_neg (by decide),
    if_pos rfl]
  cases h with
  | nil => rfl
  | cons h hs =>
    rename_i text member texts members
    simp only [List.length_append, List.length_cons, spaceSeparated] at hfuel
    have hmembers := scanMembers_spaceSeparated h hs fuel rest (by rw [List.length_append]; omega)
    have hskip : JsonText.skipBlanks (spaceSeparated (text :: texts) ++ 0x7D :: rest) =
        text ++ (texts.flatMap (0x2C :: 0x20 :: ·) ++ 0x7D :: rest) := by
      rw [spaceSeparated, List.append_assoc]
      exact h.skipBlanks _
    have hopen : ¬ (text ++ (texts.flatMap (0x2C :: 0x20 :: ·) ++ 0x7D :: rest)).head? =
        some 0x7D := by
      obtain ⟨escaped, rendered, rfl, -⟩ := h.split
      exact fun heq => absurd (Option.some.inj heq) (by decide)
    rw [hskip, if_neg hopen, hmembers]
    simp only [Option.map_some, ofMembers_of_nodup hnodup]

end Members

/-! ### The round trip -/

mutual

/-- What is dumped renders the value. -/
theorem renders_dumps (value : Value) (h : Dumpable value) : Renders (dumps value) value := by
  cases value with
  | null => exact renders_null
  | boolean b => exact renders_boolean b
  | integer n => exact renders_integer n
  | float numeral => exact h.elim
  | string text => exact renders_dumpString h
  | array items => exact renders_spacedArray (renders_dumpsItems items h)
  | object members => exact renders_spacedObject (renders_dumpsMembers members h.2) h.1

theorem renders_dumpsItems (items : List Value) (h : DumpableItems items) :
    List.Forall₂ Renders (dumpsItems items) items := by
  cases items with
  | nil => exact .nil
  | cons item items => exact .cons (renders_dumps item h.1) (renders_dumpsItems items h.2)

theorem renders_dumpsMembers (members : List (Text × Value)) (h : DumpableMembers members) :
    List.Forall₂ RendersSpaced (dumpsMembers members) members := by
  cases members with
  | nil => exact .nil
  | cons member members =>
    obtain ⟨name, value⟩ := member
    refine .cons ⟨_, _, ?_, quotes_dumped h.1, renders_dumps value h.2.1⟩
      (renders_dumpsMembers members h.2.2)
    exact List.append_assoc _ _ _

end

example : dumps (.object [(codes "k", .string (codes "a\n/")), (codes "n", .integer (-7))]) =
    codes "\x7b\"k\": \"a\\n/\", \"n\": -7\x7d" := by decide +kernel

/-! ### Zeros with a sign -/

/-- Where a scan of a text is. -/
inductive Place where
  | outside | inString | behindBackslash | behindMinus | behindMinusZero
  deriving DecidableEq

namespace Place

/-- Behind a `-0` the scan stays where it is. -/
def next : Place → ℕ → Place
  | behindMinusZero, _ => behindMinusZero
  | behindBackslash, _ => inString
  | inString, c => if c = 0x22 then outside else if c = 0x5C then behindBackslash else inString
  | behindMinus, c => if c = 0x30 then behindMinusZero else if c = 0x22 then inString else outside
  | outside, c => if c = 0x2D then behindMinus else if c = 0x22 then inString else outside

def after (place : Place) (text : Text) : Place := text.foldl next place

end Place

/-- Outside of its strings the text has a `-0`. -/
def HasMinusZero (text : Text) : Prop := Place.outside.after text = .behindMinusZero

namespace Place

theorem after_append (place : Place) (text text' : Text) :
    place.after (text ++ text') = (place.after text).after text' := List.foldl_append

theorem after_cons (place : Place) (c : ℕ) (text : Text) :
    place.after (c :: text) = (place.next c).after text := rfl

theorem after_plain (h : ∀ c ∈ text, c ≠ 0x2D ∧ c ≠ 0x22) : outside.after text = outside := by
  induction text with
  | nil => rfl
  | cons c text ih =>
    obtain ⟨⟨hminus, hquote⟩, hrest⟩ := List.forall_mem_cons.1 h
    rw [after_cons, next, if_neg hminus, if_neg hquote, ih hrest]

theorem inString_after (h : ∀ c ∈ text, c ≠ 0x22 ∧ c ≠ 0x5C) : inString.after text = inString := by
  induction text with
  | nil => rfl
  | cons c text ih =>
    obtain ⟨⟨hquote, hmark⟩, hrest⟩ := List.forall_mem_cons.1 h
    rw [after_cons, next, if_neg hquote, if_neg hmark, ih hrest]

theorem inString_after_unitEscape (n : ℕ) : inString.after (unitEscape n) = inString := by
  have hdigit : ∀ d < 16, hexChar d ≠ 0x22 ∧ hexChar d ≠ 0x5C := by decide
  have hlt : ∀ m, m % 16 < 16 := fun m => Nat.mod_lt m (by decide)
  refine @inString_after [_, _, _, _] ?_
  simp only [List.forall_mem_cons]
  exact ⟨hdigit _ (hlt _), hdigit _ (hlt _), hdigit _ (hlt _), hdigit _ (hlt _),
    fun _ hc => by cases hc⟩

theorem inString_after_asciiEscape (c : ℕ) : inString.after (asciiEscape c) = inString := by
  unfold asciiEscape
  split
  · rfl
  · rename_i hshort
    split
    · refine inString_after (List.forall_mem_singleton.2 ⟨?_, ?_⟩) <;>
      · rintro rfl
        cases hshort
    · split
      · exact inString_after_unitEscape c
      · rw [after_append, inString_after_unitEscape, inString_after_unitEscape]

theorem after_dumpString (text : Text) : outside.after (dumpString text) = outside := by
  have hescaped : ∀ text : Text, inString.after (text.flatMap asciiEscape) = inString := by
    intro text
    induction text with
    | nil => rfl
    | cons c text ih => rw [List.flatMap_cons, after_append, inString_after_asciiEscape, ih]
  rw [dumpString, List.cons_append, after_cons, after_append]
  exact congrArg (after · [0x22]) (hescaped text)

theorem after_numeral (n : ℕ) : outside.after (numeral n) = outside := by
  refine after_plain fun c hc => ?_
  have hdigit : 0x30 ≤ c ∧ c ≤ 0x39 := of_decide_eq_true (isDigit_of_mem hc)
  omega

theorem after_integerText (n : ℤ) : outside.after (integerText n) = outside := by
  cases n with
  | ofNat n => exact after_numeral n
  | negSucc n =>
    -- The digits of a number from 1 on do not begin with a zero.
    have hdigits := after_numeral (n + 1)
    have hfirst : ∃ c digits, numeral (n + 1) = c :: digits ∧ c ≠ 0x30 := by
      refine (numeral_cases (n + 1)).resolve_left fun hzero => ?_
      have hvalue := digitsValue_numeral (n + 1)
      rw [hzero] at hvalue
      exact absurd hvalue (by change 0 ≠ n + 1; omega)
    obtain ⟨c, digits, hnumeral, hc⟩ := hfirst
    have hrange : 0x30 ≤ c ∧ c ≤ 0x39 :=
      of_decide_eq_true (isDigit_of_mem (n := n + 1) (hnumeral ▸ List.mem_cons_self))
    have hnext : behindMinus.next c = outside.next c := by
      simp only [next]
      rw [if_neg hc, if_neg (by omega), if_neg (by omega)]
    rw [integerText, hnumeral, after_cons, after_cons]
    rw [hnumeral, after_cons, ← hnext] at hdigits
    exact hdigits

theorem after_spaceSeparated {texts : List Text}
    (h : ∀ text ∈ texts, outside.after text = outside) :
    outside.after (spaceSeparated texts) = outside := by
  have hothers : ∀ texts : List Text, (∀ text ∈ texts, outside.after text = outside) →
      outside.after (texts.flatMap (0x2C :: 0x20 :: ·)) = outside := by
    intro texts h
    induction texts with
    | nil => rfl
    | cons text texts ih =>
      obtain ⟨htext, hrest⟩ := List.forall_mem_cons.1 h
      rw [List.flatMap_cons, after_append, after_cons, after_cons]
      exact (congrArg (after · _) htext).trans (ih hrest)
  cases texts with
  | nil => rfl
  | cons text texts =>
    obtain ⟨htext, hrest⟩ := List.forall_mem_cons.1 h
    rw [spaceSeparated, after_append, htext, hothers texts hrest]

mutual

/-- Behind a dumped value the scan is outside again. -/
theorem after_dumps (value : Value) (h : Dumpable value) :
    outside.after (dumps value) = outside := by
  cases value with
  | null => rfl
  | boolean b => cases b <;> rfl
  | integer n => exact after_integerText n
  | float numeral => exact h.elim
  | string text => exact after_dumpString text
  | array items =>
    rw [dumps, List.cons_append, after_cons, after_append]
    exact congrArg (after · [0x5D]) (after_spaceSeparated (after_dumpsItems items h))
  | object members =>
    rw [dumps, List.cons_append, after_cons, after_append]
    exact congrArg (after · [0x7D]) (after_spaceSeparated (after_dumpsMembers members h.2))

theorem after_dumpsItems (items : List Value) (h : DumpableItems items) :
    ∀ text ∈ dumpsItems items, outside.after text = outside := by
  cases items with
  | nil => exact fun _ htext => by cases htext
  | cons item items =>
    exact List.forall_mem_cons.2 ⟨after_dumps item h.1, after_dumpsItems items h.2⟩

theorem after_dumpsMembers (members : List (Text × Value)) (h : DumpableMembers members) :
    ∀ text ∈ dumpsMembers members, outside.after text = outside := by
  cases members with
  | nil => exact fun _ htext => by cases htext
  | cons member members =>
    obtain ⟨name, value⟩ := member
    refine List.forall_mem_cons.2 ⟨?_, after_dumpsMembers members h.2.2⟩
    rw [dumpMember, after_append, after_dumpString, after_cons, after_cons]
    exact after_dumps value h.2.1

end

end Place

theorem not_hasMinusZero_dumps {value : Value} (h : Dumpable value) :
    ¬ HasMinusZero (dumps value) := by
  rw [HasMinusZero, Place.after_dumps value h]
  exact fun heq => by cases heq

/-! ### Printable text -/

/-- Printable ASCII: one line, and every character is one byte. -/
def Printable (text : Text) : Prop := ∀ c ∈ text, 0x20 ≤ c ∧ c ≤ 0x7E

theorem printable_nil : Printable [] := fun _ hc => absurd hc List.not_mem_nil

theorem printable_cons : Printable (c :: text) ↔ (0x20 ≤ c ∧ c ≤ 0x7E) ∧ Printable text :=
  List.forall_mem_cons

theorem Printable.append {text' : Text} (h : Printable text) (h' : Printable text') :
    Printable (text ++ text') :=
  List.forall_mem_append.2 ⟨h, h'⟩

theorem printable_hexChar (n : ℕ) : 0x20 ≤ hexChar (n % 16) ∧ hexChar (n % 16) ≤ 0x7E := by
  have hlt : n % 16 < 16 := Nat.mod_lt _ (by decide)
  unfold hexChar
  split <;> omega

theorem printable_unitEscape (n : ℕ) : Printable (unitEscape n) := by
  simp only [unitEscape, printable_cons]
  exact ⟨by decide, by decide, printable_hexChar _, printable_hexChar _, printable_hexChar _,
    printable_hexChar _, printable_nil⟩

theorem printable_asciiEscape (c : ℕ) : Printable (asciiEscape c) := by
  unfold asciiEscape
  split
  · rename_i letter hletter
    refine printable_cons.2 ⟨by decide, printable_cons.2 ⟨?_, printable_nil⟩⟩
    unfold shortEscape at hletter
    split_ifs at hletter <;> cases hletter <;> omega
  · by_cases hplain : 0x20 ≤ c ∧ c ≤ 0x7E
    · rw [if_pos hplain]
      exact printable_cons.2 ⟨hplain, printable_nil⟩
    · rw [if_neg hplain]
      split
      · exact printable_unitEscape _
      · exact (printable_unitEscape _).append (printable_unitEscape _)

theorem printable_dumpString (text : Text) : Printable (dumpString text) := by
  refine Printable.append (printable_cons.2 ⟨by decide, fun c hc => ?_⟩)
    (printable_cons.2 ⟨by decide, printable_nil⟩)
  obtain ⟨d, -, hd⟩ := List.mem_flatMap.1 hc
  exact printable_asciiEscape d c hd

theorem printable_numeral (n : ℕ) : Printable (numeral n) := by
  intro c hc
  have hdigit : 0x30 ≤ c ∧ c ≤ 0x39 := of_decide_eq_true (isDigit_of_mem hc)
  omega

theorem printable_integerText (n : ℤ) : Printable (integerText n) := by
  cases n with
  | ofNat n => exact printable_numeral n
  | negSucc n => exact printable_cons.2 ⟨by decide, printable_numeral (n + 1)⟩

theorem printable_spaceSeparated {texts : List Text} (h : ∀ text ∈ texts, Printable text) :
    Printable (spaceSeparated texts) := by
  cases texts with
  | nil => exact printable_nil
  | cons text texts =>
    refine (h text List.mem_cons_self).append fun c hc => ?_
    obtain ⟨other, hother, hc⟩ := List.mem_flatMap.1 hc
    have hrest := h other (List.mem_cons_of_mem _ hother)
    exact printable_cons.2 ⟨by decide, printable_cons.2 ⟨by decide, hrest⟩⟩ c hc

mutual

theorem printable_dumps (value : Value) (h : Dumpable value) : Printable (dumps value) := by
  have hbracket : ∀ c, 0x20 ≤ c ∧ c ≤ 0x7E → Printable [c] :=
    fun c hc => printable_cons.2 ⟨hc, printable_nil⟩
  cases value with
  | null => exact fun c hc => (by decide : ∀ c ∈ codes "null", 0x20 ≤ c ∧ c ≤ 0x7E) c hc
  | boolean b =>
    cases b
    · exact fun c hc => (by decide : ∀ c ∈ codes "false", 0x20 ≤ c ∧ c ≤ 0x7E) c hc
    · exact fun c hc => (by decide : ∀ c ∈ codes "true", 0x20 ≤ c ∧ c ≤ 0x7E) c hc
  | integer n => exact printable_integerText n
  | float numeral => exact h.elim
  | string text => exact printable_dumpString text
  | array items =>
    have hitems := printable_spaceSeparated (printable_dumpsItems items h)
    exact Printable.append (printable_cons.2 ⟨by decide, hitems⟩) (hbracket _ (by decide))
  | object members =>
    have hmembers := printable_spaceSeparated (printable_dumpsMembers members h.2)
    exact Printable.append (printable_cons.2 ⟨by decide, hmembers⟩) (hbracket _ (by decide))

theorem printable_dumpsItems (items : List Value) (h : DumpableItems items) :
    ∀ text ∈ dumpsItems items, Printable text := by
  cases items with
  | nil => exact fun _ ht => absurd ht List.not_mem_nil
  | cons item items =>
    exact List.forall_mem_cons.2 ⟨printable_dumps item h.1, printable_dumpsItems items h.2⟩

theorem printable_dumpsMembers (members : List (Text × Value)) (h : DumpableMembers members) :
    ∀ text ∈ dumpsMembers members, Printable text := by
  cases members with
  | nil => exact fun _ ht => absurd ht List.not_mem_nil
  | cons member members =>
    refine List.forall_mem_cons.2 ⟨?_, printable_dumpsMembers members h.2.2⟩
    refine (printable_dumpString member.1).append ?_
    exact printable_cons.2 ⟨by decide, printable_cons.2 ⟨by decide, printable_dumps member.2 h.2.1⟩⟩

end

end JsonText
