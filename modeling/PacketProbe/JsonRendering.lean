import Mathlib.Data.List.Forall2
import Mathlib.Data.List.TakeWhile
import Mathlib.Data.List.Nodup
import PacketProbe.JsonText

/-!
# Rendered values

A text renders a value when the scanner reads the value from it, whatever stands behind it
in an array or in an object. Texts that render values are put together to such texts.
-/

namespace JsonText

/-- What stands behind a value: nothing, a comma or a closing bracket. -/
def Follows (rest : Text) : Prop := ∀ c ∈ rest.head?, c = 0x2C ∨ c = 0x5D ∨ c = 0x7D

structure Renders (text : Text) (value : Value) : Prop where
  first : ∃ c text', text = c :: text' ∧ isBlank c = false ∧ c ≠ 0x5D
  scans : ∀ fuel rest, 2 * text.length < fuel → Follows rest →
    scanValue fuel (text ++ rest) = some (value, rest)

/-- What stands between quotation marks renders a text. -/
def Quotes (escaped text : Text) : Prop :=
  ∀ rest, scanString none (escaped ++ 0x22 :: rest) = some (text, rest)

structure RendersMember (text : Text) (member : Text × Value) : Prop where
  split : ∃ escaped rendered, text = 0x22 :: escaped ++ 0x22 :: 0x3A :: rendered ∧
    Quotes escaped member.1 ∧ Renders rendered member.2

def commaSeparated : List Text → Text
  | [] => []
  | text :: texts => text ++ texts.flatMap (0x2C :: ·)

variable {text rest : Text} {value : Value} {c : ℕ}

theorem skipBlanks_cons (h : isBlank c = false) : skipBlanks (c :: text) = c :: text :=
  List.dropWhile_cons_of_neg (by rw [h]; exact Bool.false_ne_true)

theorem Renders.skipBlanks (h : Renders text value) (rest : Text) :
    skipBlanks (text ++ rest) = text ++ rest := by
  obtain ⟨c, text', rfl, hc, -⟩ := h.first
  exact skipBlanks_cons hc

theorem Renders.length_pos (h : Renders text value) : 0 < text.length := by
  obtain ⟨c, text', rfl, -⟩ := h.first
  exact Nat.succ_pos _

/-! ### Strings -/

section Strings

variable {unit : Option ℕ} {escaped : Text} {code : ℕ}

theorem scanString_quote (unit : Option ℕ) (text : Text) :
    scanString unit (0x22 :: text) = some (unit.toList, text) := by
  rw [scanString.eq_def]
  rfl

theorem scanString_plain (hcontrol : ¬ c < 0x20) (hquote : c ≠ 0x22) (hescape : c ≠ 0x5C) :
    scanString unit (c :: text) = (scanString none text).map (prepend (unit.toList ++ [c])) := by
  rw [scanString.eq_def]
  simp only [if_neg hquote, if_neg hcontrol, if_pos hescape]

theorem scanString_escape (h : unescape c = some code) :
    scanString unit (0x5C :: c :: text) =
      (scanString none text).map (prepend (unit.toList ++ [code])) := by
  have hunicode : c ≠ 0x75 := by
    rintro rfl
    cases h
  have hcontrol : ¬ 0x5C < 0x20 := by decide
  rw [scanString.eq_def]
  simp only [Nat.reduceEqDiff, if_false, hcontrol, ne_eq, not_true_eq_false]
  split
  · rename_i heq
    exact absurd (List.cons.inj heq).1 hunicode
  · rename_i heq
    obtain ⟨rfl, rfl⟩ := List.cons.inj heq
    rw [h]
  · rename_i heq
    cases heq

theorem scanString_unicode {a b d e : ℕ} (h : hexUnit a b d e = some code) :
    scanString none (0x5C :: 0x75 :: a :: b :: d :: e :: text) = scanString (some code) text := by
  have hcontrol : ¬ 0x5C < 0x20 := by decide
  have hid : prepend [] = id := by
    funext scanned
    rfl
  rw [scanString.eq_def]
  simp only [Nat.reduceEqDiff, if_false, hcontrol, ne_eq, not_true_eq_false, h, Option.bind_none,
    Option.toList_none, hid, Option.map_id_fun, id]

theorem prepend_prepend (a b : Text) : prepend a ∘ prepend b = prepend (a ++ b) := by
  funext scanned
  simp only [Function.comp_apply, prepend, List.append_assoc]

/-- A unit that makes up no pair stays in front of the rest. -/
theorem scanString_some (hcode : ∀ next, joinSurrogates code next = none) (text : Text) :
    scanString (some code) text = (scanString none text).map (prepend [code]) := by
  cases text with
  | nil => rfl
  | cons c text =>
    rw [scanString.eq_def, scanString.eq_def none]
    simp only [Option.bind_some, hcode, Option.bind_none, Option.toList_some, Option.toList_none]
    by_cases hquote : c = 0x22
    · rw [if_pos hquote, if_pos hquote]
      rfl
    rw [if_neg hquote, if_neg hquote]
    by_cases hcontrol : c < 0x20
    · rw [if_pos hcontrol, if_pos hcontrol]
      rfl
    rw [if_neg hcontrol, if_neg hcontrol]
    by_cases hescape : c ≠ 0x5C
    · rw [if_pos hescape, if_pos hescape, Option.map_map, prepend_prepend]
      rfl
    rw [if_neg hescape, if_neg hescape]
    split
    · split
      · rfl
      · rw [Option.map_map, prepend_prepend]
        rfl
    · split
      · rw [Option.map_map, prepend_prepend]
        rfl
      · rfl
    · rfl

theorem quotes_nil : Quotes [] [] := scanString_quote none

theorem prepend_eq {string : Text} (h : scanString none text = some (string, rest)) (front : Text) :
    (scanString none text).map (prepend front) = some (front ++ string, rest) := by
  rw [h]
  rfl

/-- A character that stands for itself. -/
theorem Quotes.cons (h : Quotes escaped text) (hcontrol : ¬ c < 0x20) (hquote : c ≠ 0x22)
    (hescape : c ≠ 0x5C) : Quotes (c :: escaped) (c :: text) := by
  intro rest
  rw [List.cons_append, scanString_plain hcontrol hquote hescape]
  exact prepend_eq (h rest) [c]

/-- An escape of one character. -/
theorem Quotes.cons_escape (h : Quotes escaped text) (hcode : unescape c = some code) :
    Quotes (0x5C :: c :: escaped) (code :: text) := by
  intro rest
  rw [List.cons_append, List.cons_append, scanString_escape hcode]
  exact prepend_eq (h rest) [code]

/-- An escape of a unit that is no surrogate. -/
theorem Quotes.cons_unicode {a b d e : ℕ} (h : Quotes escaped text)
    (hunit : hexUnit a b d e = some code) (hcode : ∀ next, joinSurrogates code next = none) :
    Quotes (0x5C :: 0x75 :: a :: b :: d :: e :: escaped) (code :: text) := by
  intro rest
  change scanString none (0x5C :: 0x75 :: a :: b :: d :: e :: (escaped ++ 0x22 :: rest)) = _
  rw [scanString_unicode hunit, scanString_some hcode]
  exact prepend_eq (h rest) [code]

end Strings

theorem renders_string {escaped : Text} (h : Quotes escaped text) :
    Renders (0x22 :: escaped ++ [0x22]) (.string text) := by
  refine ⟨⟨_, _, rfl, rfl, by decide⟩, fun fuel rest hfuel _ => ?_⟩
  obtain ⟨fuel, rfl⟩ := Nat.exists_eq_succ_of_ne_zero (Nat.ne_of_gt (Nat.zero_lt_of_lt hfuel))
  rw [List.append_assoc, List.singleton_append, List.cons_append, scanValue, if_pos rfl, h rest]
  rfl

/-! ### Integers -/

/-- The decimal numeral of a natural number. -/
def numeral (n : ℕ) : Text := (Nat.toDigits 10 n).map Char.toNat

def integerText : ℤ → Text
  | Int.ofNat n => numeral n
  | Int.negSucc n => 0x2D :: numeral (n + 1)

theorem isDigit_toNat {ch : Char} (h : ch.isDigit = true) : isDigit ch.toNat = true := by
  simp only [Char.isDigit, Bool.and_eq_true, decide_eq_true_eq, UInt32.le_iff_toNat_le] at h
  exact decide_eq_true h

theorem isDigit_of_mem {n : ℕ} (h : c ∈ numeral n) : isDigit c = true := by
  obtain ⟨ch, hch, rfl⟩ := List.mem_map.1 h
  exact isDigit_toNat (Nat.isDigit_of_mem_toDigits (by decide) (by decide) hch)

theorem digitsValue_numeral (n : ℕ) : digitsValue (numeral n) = n := by
  have hfold := Nat.ofDigitChars_toDigits (b := 10) (n := n) (by decide) (by decide)
  rw [Nat.ofDigitChars_eq_foldl] at hfold
  unfold digitsValue numeral
  rw [List.foldl_map]
  exact hfold

/-- A numeral of several digits does not begin with a zero. -/
theorem toDigits_head (n : ℕ) (hn : n ≠ 0) : (Nat.toDigits 10 n).head? ≠ some '0' := by
  induction n using Nat.strong_induction_on with
  | _ n ih =>
    by_cases hsmall : n < 10
    · have hall : ∀ k < 10, k ≠ 0 → (Nat.toDigits 10 k).head? ≠ some '0' := by decide
      exact hall n hsmall hn
    · obtain ⟨ch, digits, hdigits⟩ :=
        List.exists_cons_of_ne_nil (Nat.toDigits_ne_nil (b := 10) (n := n / 10))
      have hrest := ih (n / 10) (by omega) (by omega)
      rw [Nat.toDigits_of_base_le (by decide) (by omega), hdigits]
      rw [hdigits] at hrest
      exact hrest

theorem numeral_cases (n : ℕ) :
    numeral n = [0x30] ∨ ∃ c digits, numeral n = c :: digits ∧ c ≠ 0x30 := by
  by_cases hn : n = 0
  · subst hn
    exact .inl (by decide)
  · obtain ⟨ch, digits, hdigits⟩ :=
      List.exists_cons_of_ne_nil (Nat.toDigits_ne_nil (b := 10) (n := n))
    have hhead := toDigits_head n hn
    rw [hdigits] at hhead
    refine .inr ⟨ch.toNat, digits.map Char.toNat, by rw [numeral, hdigits, List.map_cons],
      fun hzero => ?_⟩
    exact hhead (congrArg some (Char.toNat_inj.1 hzero))

theorem Follows.head (h : Follows rest) (hc : rest.head? = some c) :
    isDigit c = false ∧ c ≠ 0x2E ∧ c ≠ 0x65 ∧ c ≠ 0x45 := by
  rcases h c hc with rfl | rfl | rfl
  · decide
  · decide
  · decide

theorem Follows.takeWhile (h : Follows rest) :
    rest.takeWhile isDigit = [] ∧ rest.dropWhile isDigit = rest := by
  cases rest with
  | nil => exact ⟨rfl, rfl⟩
  | cons c rest =>
    have hc := (h.head rfl).1
    constructor
    · exact List.takeWhile_cons_of_neg (by rw [hc]; exact Bool.false_ne_true)
    · exact List.dropWhile_cons_of_neg (by rw [hc]; exact Bool.false_ne_true)

theorem Follows.scanFraction (h : Follows rest) : scanFraction rest = ([], rest) := by
  cases rest with
  | nil => rfl
  | cons c rest => exact if_neg (h.head rfl).2.1

theorem Follows.scanExponent (h : Follows rest) : scanExponent rest = ([], rest) := by
  cases rest with
  | nil => rfl
  | cons c rest =>
    have hc := h.head rfl
    exact if_neg fun hmark => hmark.elim hc.2.2.1 hc.2.2.2

theorem scanInteger_numeral (n : ℕ) (h : Follows rest) :
    scanInteger (numeral n ++ rest) = some (numeral n, rest) := by
  have hdigits : ∀ c ∈ numeral n, isDigit c = true := fun c hc => isDigit_of_mem hc
  rcases numeral_cases n with hzero | ⟨c, digits, hnumeral, hc⟩
  · rw [hzero, List.singleton_append, scanInteger]
    exact if_pos rfl
  · rw [hnumeral] at hdigits ⊢
    have hrest : ∀ c ∈ digits, isDigit c = true := fun c hc => hdigits c (List.mem_cons_of_mem _ hc)
    rw [List.cons_append, scanInteger, if_neg hc, if_pos (hdigits c List.mem_cons_self),
      List.takeWhile_append_of_pos hrest, List.dropWhile_append_of_pos hrest, h.takeWhile.1,
      h.takeWhile.2, List.append_nil]

theorem scanUnsigned_numeral (minus : Text) (sign : ℤ) (n : ℕ) (h : Follows rest) :
    scanUnsigned minus sign (numeral n ++ rest) = some (.integer (sign * n), rest) := by
  unfold scanUnsigned
  rw [scanInteger_numeral n h]
  simp only [Option.bind_eq_bind, Option.bind_some, h.scanFraction, h.scanExponent, and_self,
    if_true, digitsValue_numeral]

theorem numeral_head (n : ℕ) : ∃ c digits, numeral n = c :: digits ∧ isDigit c = true := by
  obtain ⟨ch, digits, hdigits⟩ :=
    List.exists_cons_of_ne_nil (Nat.toDigits_ne_nil (b := 10) (n := n))
  have hnumeral : numeral n = ch.toNat :: digits.map Char.toNat := by
    rw [numeral, hdigits, List.map_cons]
  refine ⟨_, _, hnumeral, isDigit_of_mem (n := n) ?_⟩
  rw [hnumeral]
  exact List.mem_cons_self

theorem scanNumber_integerText (n : ℤ) (h : Follows rest) :
    scanNumber (integerText n ++ rest) = some (.integer n, rest) := by
  cases n with
  | ofNat n =>
    obtain ⟨c, digits, hnumeral, hdigit⟩ := numeral_head n
    have hminus : c ≠ 0x2D := by
      rintro rfl
      cases hdigit
    have hscan := scanUnsigned_numeral [] 1 n h
    rw [hnumeral, List.cons_append] at hscan
    rw [integerText, hnumeral, List.cons_append, scanNumber, if_neg hminus, hscan, Int.one_mul]
    rfl
  | negSucc n =>
    rw [integerText, List.cons_append, scanNumber, if_pos rfl, scanUnsigned_numeral _ _ _ h,
      Int.negSucc_eq, Int.neg_mul, Int.one_mul]
    rfl

theorem scanLiteral_of_lt (h : c < 0x60) (text : Text) : scanLiteral (c :: text) = none := by
  have hprefix : ∀ (first : ℕ) (word : Text), 0x60 ≤ first →
      (first :: word).isPrefixOf (c :: text) = false := by
    intro first word hfirst
    rw [List.isPrefixOf_cons_cons, beq_false_of_ne (by omega : first ≠ c), Bool.false_and]
  unfold scanLiteral
  rw [show codes "null" = 0x6E :: codes "ull" from rfl,
    show codes "true" = 0x74 :: codes "rue" from rfl, show codes "false" = 0x66 ::
      codes "alse" from rfl, hprefix _ _ (by decide), hprefix _ _ (by decide),
    hprefix _ _ (by decide)]
  rfl

theorem renders_integer (n : ℤ) : Renders (integerText n) (.integer n) := by
  have hfirst : ∃ c text, integerText n = c :: text ∧ (c = 0x2D ∨ isDigit c = true) := by
    cases n with
    | ofNat n =>
      obtain ⟨c, digits, hnumeral, hdigit⟩ := numeral_head n
      exact ⟨c, digits, hnumeral, .inr hdigit⟩
    | negSucc n => exact ⟨_, _, rfl, .inl rfl⟩
  obtain ⟨c, text, htext, hc⟩ := hfirst
  obtain ⟨hblank, hletter⟩ : isBlank c = false ∧ c < 0x40 ∧ c ≠ 0x22 := by
    rcases hc with rfl | hdigit
    · decide
    · have hrange : 0x30 ≤ c ∧ c ≤ 0x39 := of_decide_eq_true hdigit
      simp only [isBlank, Bool.or_eq_false_iff, decide_eq_false_iff_not]
      omega
  refine ⟨⟨c, text, htext, hblank, by omega⟩, fun fuel rest hfuel hrest => ?_⟩
  obtain ⟨fuel, rfl⟩ := Nat.exists_eq_succ_of_ne_zero (Nat.ne_of_gt (Nat.zero_lt_of_lt hfuel))
  have hscan := scanNumber_integerText n hrest
  rw [htext, List.cons_append] at hscan ⊢
  rw [scanValue, if_neg hletter.2, if_neg (by omega), if_neg (by omega),
    scanLiteral_of_lt (by omega) (text ++ rest), hscan]
  rfl

/-! ### Arrays and objects -/

theorem follows_cons (h : c = 0x2C ∨ c = 0x5D ∨ c = 0x7D) : Follows (c :: text) := by
  rintro _ ⟨⟩
  exact h

theorem scanItems_commaSeparated {texts : List Text} {values : List Value} (h : Renders text value)
    (hs : List.Forall₂ Renders texts values) (fuel : ℕ) (rest : Text)
    (hfuel : 2 * (text ++ texts.flatMap (0x2C :: ·)).length + 1 < fuel) :
    scanItems fuel (text ++ (texts.flatMap (0x2C :: ·) ++ 0x5D :: rest)) =
      some (value :: values, rest) := by
  induction hs generalizing text value fuel with
  | nil =>
    obtain ⟨fuel, rfl⟩ := Nat.exists_eq_succ_of_ne_zero (Nat.ne_of_gt (Nat.zero_lt_of_lt hfuel))
    rw [List.flatMap_nil, List.append_nil] at hfuel
    rw [List.flatMap_nil, List.nil_append, scanItems,
      h.scans fuel _ (by omega) (follows_cons (.inr (.inl rfl)))]
    simp only [Option.bind_eq_bind, Option.bind_some,
      skipBlanks_cons (show isBlank 0x5D = false from rfl), if_true]
  | cons h' hs ih =>
    rename_i text' value' texts values
    obtain ⟨fuel, rfl⟩ := Nat.exists_eq_succ_of_ne_zero (Nat.ne_of_gt (Nat.zero_lt_of_lt hfuel))
    have hlength := h.length_pos
    simp only [List.flatMap_cons, List.length_append, List.length_cons] at hfuel
    have hrest := ih h' fuel (by rw [List.length_append]; omega)
    have hcomma : ¬ 0x2C = 0x5D := by decide
    rw [List.flatMap_cons, List.cons_append, List.cons_append, List.append_assoc, scanItems,
      h.scans fuel _ (by omega) (follows_cons (.inl rfl))]
    simp only [Option.bind_eq_bind, Option.bind_some,
      skipBlanks_cons (show isBlank 0x2C = false from rfl), if_neg hcomma, if_true, h'.skipBlanks,
      hrest]

theorem renders_array {texts : List Text} {values : List Value}
    (h : List.Forall₂ Renders texts values) :
    Renders (0x5B :: commaSeparated texts ++ [0x5D]) (.array values) := by
  refine ⟨⟨_, _, rfl, rfl, by decide⟩, fun fuel rest hfuel _ => ?_⟩
  obtain ⟨fuel, rfl⟩ := Nat.exists_eq_succ_of_ne_zero (Nat.ne_of_gt (Nat.zero_lt_of_lt hfuel))
  rw [List.append_assoc, List.singleton_append, List.cons_append, scanValue, if_neg (by decide),
    if_neg (by decide), if_pos rfl]
  cases h with
  | nil => rfl
  | cons h hs =>
    rename_i text value texts values
    simp only [List.length_append, List.length_cons, commaSeparated] at hfuel
    have hitems := scanItems_commaSeparated h hs fuel rest (by rw [List.length_append]; omega)
    have hskip : skipBlanks (commaSeparated (text :: texts) ++ 0x5D :: rest) =
        text ++ (texts.flatMap (0x2C :: ·) ++ 0x5D :: rest) := by
      rw [commaSeparated, List.append_assoc]
      exact h.skipBlanks _
    have hopen : ¬ (text ++ (texts.flatMap (0x2C :: ·) ++ 0x5D :: rest)).head? = some 0x5D := by
      obtain ⟨c, text', rfl, -, hc⟩ := h.first
      exact fun heq => hc (Option.some.inj heq)
    rw [hskip, if_neg hopen, hitems]
    rfl

section Members

variable {member : Text × Value} {fuel : ℕ}

/-- Behind a member the scanner looks at what follows its value. -/
theorem RendersMember.scanMembers_eq (h : RendersMember text member)
    (hfuel : 2 * text.length < fuel) (hrest : Follows (c :: rest)) (hc : isBlank c = false) :
    scanMembers (fuel + 1) (text ++ c :: rest) =
      if c = 0x7D then some ([member], rest)
      else if c = 0x2C then do
        let (members, text) ← scanMembers fuel (skipBlanks rest)
        some (member :: members, text)
      else none := by
  obtain ⟨escaped, rendered, rfl, hname, hvalue⟩ := h.split
  have hsplit : 0x22 :: escaped ++ 0x22 :: 0x3A :: rendered ++ c :: rest =
      0x22 :: (escaped ++ 0x22 :: 0x3A :: (rendered ++ c :: rest)) := by
    simp only [List.append_assoc, List.cons_append]
  simp only [List.length_append, List.length_cons] at hfuel
  have hscan := hvalue.scans fuel (c :: rest) (by omega) hrest
  have hquote : ¬ 0x22 ≠ 0x22 := by decide
  have hcolon : ¬ 0x3A ≠ 0x3A := by decide
  rw [hsplit, scanMembers, if_neg hquote, hname]
  simp only [Option.bind_eq_bind, Option.bind_some,
    skipBlanks_cons (show isBlank 0x3A = false from rfl), if_neg hcolon, hvalue.skipBlanks, hscan,
    skipBlanks_cons hc]

theorem RendersMember.skipBlanks (h : RendersMember text member) (rest : Text) :
    skipBlanks (text ++ rest) = text ++ rest := by
  obtain ⟨escaped, rendered, rfl, -⟩ := h.split
  exact skipBlanks_cons rfl

theorem scanMembers_commaSeparated {texts : List Text} {members : List (Text × Value)}
    (h : RendersMember text member) (hs : List.Forall₂ RendersMember texts members) (fuel : ℕ)
    (rest : Text) (hfuel : 2 * (text ++ texts.flatMap (0x2C :: ·)).length + 1 < fuel) :
    scanMembers fuel (text ++ (texts.flatMap (0x2C :: ·) ++ 0x7D :: rest)) =
      some (member :: members, rest) := by
  induction hs generalizing text member fuel with
  | nil =>
    obtain ⟨fuel, rfl⟩ := Nat.exists_eq_succ_of_ne_zero (Nat.ne_of_gt (Nat.zero_lt_of_lt hfuel))
    rw [List.flatMap_nil, List.append_nil] at hfuel
    rw [List.flatMap_nil, List.nil_append,
      h.scanMembers_eq (by omega) (follows_cons (.inr (.inr rfl))) rfl, if_pos rfl]
  | cons h' hs ih =>
    obtain ⟨fuel, rfl⟩ := Nat.exists_eq_succ_of_ne_zero (Nat.ne_of_gt (Nat.zero_lt_of_lt hfuel))
    simp only [List.flatMap_cons, List.length_append, List.length_cons] at hfuel
    have hrest := ih h' fuel (by rw [List.length_append]; omega)
    rw [List.flatMap_cons, List.cons_append, List.cons_append, List.append_assoc,
      h.scanMembers_eq (by omega) (follows_cons (.inl rfl)) rfl, if_neg (by decide), if_pos rfl,
      h'.skipBlanks, hrest]
    rfl

theorem insertMember_of_not_mem {members : List (Text × Value)}
    (h : member.1 ∉ members.map Prod.fst) :
    insertMember members member = members ++ [member] :=
  if_neg h

/-- Members of different names all stay. -/
theorem ofMembers_of_nodup {members : List (Text × Value)} (h : (members.map Prod.fst).Nodup) :
    ofMembers members = members := by
  have hfold : ∀ before behind : List (Text × Value), ((before ++ behind).map Prod.fst).Nodup →
      behind.foldl insertMember before = before ++ behind := by
    intro before behind hnodup
    induction behind generalizing before with
    | nil => exact (List.append_nil before).symm
    | cons member behind ih =>
      have hfresh : member.1 ∉ before.map Prod.fst := by
        rw [List.map_append, List.map_cons] at hnodup
        intro hmem
        exact (List.nodup_append.1 hnodup).2.2 _ hmem _ List.mem_cons_self rfl
      have hsplit : before ++ member :: behind = before ++ [member] ++ behind := by
        rw [List.append_assoc, List.singleton_append]
      rw [List.foldl_cons, insertMember_of_not_mem hfresh, hsplit]
      exact ih _ (hsplit ▸ hnodup)
  exact hfold [] members h

theorem renders_object {texts : List Text} {members : List (Text × Value)}
    (h : List.Forall₂ RendersMember texts members) (hnodup : (members.map Prod.fst).Nodup) :
    Renders (0x7B :: commaSeparated texts ++ [0x7D]) (.object members) := by
  refine ⟨⟨_, _, rfl, rfl, by decide⟩, fun fuel rest hfuel _ => ?_⟩
  obtain ⟨fuel, rfl⟩ := Nat.exists_eq_succ_of_ne_zero (Nat.ne_of_gt (Nat.zero_lt_of_lt hfuel))
  rw [List.append_assoc, List.singleton_append, List.cons_append, scanValue, if_neg (by decide),
    if_pos rfl]
  cases h with
  | nil => rfl
  | cons h hs =>
    rename_i text member texts members
    simp only [List.length_append, List.length_cons, commaSeparated] at hfuel
    have hmembers := scanMembers_commaSeparated h hs fuel rest (by rw [List.length_append]; omega)
    have hskip : JsonText.skipBlanks (commaSeparated (text :: texts) ++ 0x7D :: rest) =
        text ++ (texts.flatMap (0x2C :: ·) ++ 0x7D :: rest) := by
      rw [commaSeparated, List.append_assoc]
      exact h.skipBlanks _
    have hopen : ¬ (text ++ (texts.flatMap (0x2C :: ·) ++ 0x7D :: rest)).head? = some 0x7D := by
      obtain ⟨escaped, rendered, rfl, -⟩ := h.split
      exact fun heq => absurd (Option.some.inj heq) (by decide)
    rw [hskip, if_neg hopen, hmembers]
    simp only [Option.map_some, ofMembers_of_nodup hnodup]

end Members

/-- A rendering is a text on its own. -/
theorem Renders.parse (h : Renders text value) : parse text = some value := by
  have hscan := h.scans (2 * text.length + 1) [] (by omega) (fun _ hc => nomatch hc)
  have hskip := h.skipBlanks []
  rw [List.append_nil] at hscan hskip
  unfold JsonText.parse
  rw [hskip, hscan]
  rfl

end JsonText
