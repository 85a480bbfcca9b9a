import PacketProbe.Utf8Decoding

/-!
# Encoding in UTF-8

What is encoded is read back: the bytes that `String.utf8EncodeChar` writes for a character are
decoded to its code point.
-/

namespace Utf8

variable {s next : State} {bits v : ℕ} {b : UInt8} {text : List UInt8}

theorem decodeFrom_more (hstep : step s b = next) (hnext : next ≠ .between) :
    decodeFrom s bits (b :: text) = decodeFrom next (accumulate s bits b) text := by
  rw [decodeFrom, hstep]
  exact if_neg hnext

theorem decodeFrom_last (hstep : step s b = .between) :
    decodeFrom s bits [b] = some [accumulate s bits b] := by
  rw [decodeFrom, hstep]
  rfl

/-! ### Continuation bytes -/

def tailByte (v : ℕ) : UInt8 := UInt8.ofNat (v % 0x40 + 0x80)

theorem toNat_tailByte (v : ℕ) : (tailByte v).toNat = v % 0x40 + 0x80 := by
  rw [tailByte, UInt8.toNat_ofNat']
  omega

theorem within_tailByte {low high : UInt8} (hlow : low.toNat ≤ v % 0x40 + 0x80)
    (hhigh : v % 0x40 + 0x80 ≤ high.toNat) :
    within low high (tailByte v) next = next := by
  refine if_pos ⟨?_, ?_⟩
  · rwa [UInt8.le_iff_toNat_le, toNat_tailByte]
  · rwa [UInt8.le_iff_toNat_le, toNat_tailByte]

theorem within_tail : within 0x80 0xBF (tailByte v) next = next :=
  within_tailByte (by simp only [UInt8.reduceToNat]; omega)
    (by simp only [UInt8.reduceToNat]; omega)

theorem accumulate_tailByte (hs : s ≠ .between) :
    accumulate s bits (tailByte v) = bits * 64 + v % 0x40 := by
  rw [accumulate, if_neg hs, toNat_tailByte, Nat.add_sub_cancel]

/-! ### First bytes -/

/-- The first byte of a character with more of them. -/
theorem accumulate_lead (hb : ¬ b < 0x80) : accumulate .between bits b =
    if b.toNat < 0xE0 then b.toNat - 0xC0 else if b.toNat <
      0xF0 then b.toNat - 0xE0 else b.toNat - 0xF0 := by
  rw [accumulate, if_pos rfl, leadBits, if_neg hb]
  simp only [UInt8.lt_iff_toNat_lt, UInt8.reduceToNat]

theorem decode_two (hlow : 0x80 ≤ v) (hhigh : v < 0x800) :
    decode [UInt8.ofNat (v / 64 % 0x20 + 0xC0), tailByte v] = some [v] := by
  have hbyte : (UInt8.ofNat (v / 64 % 0x20 + 0xC0)).toNat = v / 64 + 0xC0 := by
    rw [UInt8.toNat_ofNat']
    omega
  have hseven : ¬ UInt8.ofNat (v / 64 % 0x20 + 0xC0) < 0x80 := by
    simp only [UInt8.lt_iff_toNat_lt, hbyte, UInt8.reduceToNat]
    omega
  have hlead : step .between (UInt8.ofNat (v / 64 % 0x20 + 0xC0)) = .owes1 := by
    refine (if_neg hseven).trans (if_pos ?_)
    simp only [UInt8.le_iff_toNat_le, hbyte, UInt8.reduceToNat]
    omega
  have hlast : step .owes1 (tailByte v) = .between := within_tail
  rw [decode, decodeFrom_more hlead (by decide), decodeFrom_last hlast,
    accumulate_tailByte (by decide), accumulate_lead hseven, hbyte, if_pos (by omega)]
  exact congrArg (fun n => some [n]) (by omega)

theorem decode_three (hlow : 0x800 ≤ v) (hhigh : v < 0x10000) (hchar : v.isValidChar) :
    decode [UInt8.ofNat (v / 4096 % 0x10 + 0xE0), tailByte (v / 64), tailByte v] = some [v] := by
  have hbyte : (UInt8.ofNat (v / 4096 % 0x10 + 0xE0)).toNat = v / 4096 + 0xE0 := by
    rw [UInt8.toNat_ofNat']
    omega
  have hseven : ¬ UInt8.ofNat (v / 4096 % 0x10 + 0xE0) < 0x80 := by
    simp only [UInt8.lt_iff_toNat_lt, hbyte, UInt8.reduceToNat]
    omega
  -- the second byte is narrowed behind 0xE0, against overlong forms, and behind 0xED, against
  -- surrogates
  have hlead : ∃ next, step .between (UInt8.ofNat (v / 4096 % 0x10 + 0xE0)) = next ∧
    next ≠ .between ∧
      step next (tailByte (v / 64)) = .owes1 := by
    unfold Nat.isValidChar at hchar
    by_cases hfirst : v / 4096 = 0
    · refine ⟨.afterE0, ?_, by decide, within_tailByte (by simp only [UInt8.reduceToNat]; omega)
        (by simp only [UInt8.reduceToNat]; omega)⟩
      simp only [step, lead, UInt8.lt_iff_toNat_lt, UInt8.le_iff_toNat_le, ← UInt8.toNat_inj, hbyte,
        UInt8.reduceToNat]
      rw [if_neg (by omega), if_neg (by omega), if_pos (by omega)]
    by_cases hsurrogates : v / 4096 = 0xD
    · refine ⟨.afterED, ?_, by decide, within_tailByte (by simp only [UInt8.reduceToNat]; omega)
        (by simp only [UInt8.reduceToNat]; omega)⟩
      simp only [step, lead, UInt8.lt_iff_toNat_lt, UInt8.le_iff_toNat_le, ← UInt8.toNat_inj, hbyte,
        UInt8.reduceToNat]
      rw [if_neg (by omega), if_neg (by omega), if_neg (by omega), if_pos (by omega)]
    · refine ⟨.owes2, ?_, by decide, within_tail⟩
      simp only [step, lead, UInt8.lt_iff_toNat_lt, UInt8.le_iff_toNat_le, ← UInt8.toNat_inj, hbyte,
        UInt8.reduceToNat]
      rw [if_neg (by omega), if_neg (by omega), if_neg (by omega), if_neg (by omega),
        if_pos (by omega)]
  obtain ⟨next, hfirst, hnext, hsecond⟩ := hlead
  have hlast : step .owes1 (tailByte v) = .between := within_tail
  rw [decode, decodeFrom_more hfirst hnext, decodeFrom_more hsecond (by decide),
    decodeFrom_last hlast, accumulate_tailByte (by decide), accumulate_tailByte hnext,
    accumulate_lead hseven, hbyte, if_neg (by omega), if_pos (by omega)]
  exact congrArg (fun n => some [n]) (by omega)

theorem decode_four (hlow : 0x10000 ≤ v) (hhigh : v < 0x110000) :
    decode [UInt8.ofNat (v / 262144 % 0x08 + 0xF0), tailByte (v / 4096), tailByte (v / 64),
      tailByte v] =
      some [v] := by
  have hbyte : (UInt8.ofNat (v / 262144 % 0x08 + 0xF0)).toNat = v / 262144 + 0xF0 := by
    rw [UInt8.toNat_ofNat']
    omega
  have hseven : ¬ UInt8.ofNat (v / 262144 % 0x08 + 0xF0) < 0x80 := by
    simp only [UInt8.lt_iff_toNat_lt, hbyte, UInt8.reduceToNat]
    omega
  -- the second byte is narrowed behind 0xF0, against overlong forms, and behind 0xF4, at U+10FFFF
  have hlead : ∃ next, step .between (UInt8.ofNat (v / 262144 % 0x08 + 0xF0)) = next ∧
    next ≠ .between ∧
      step next (tailByte (v / 4096)) = .owes2 := by
    by_cases hfirst : v / 262144 = 0
    · refine ⟨.afterF0, ?_, by decide, within_tailByte (by simp only [UInt8.reduceToNat]; omega)
        (by simp only [UInt8.reduceToNat]; omega)⟩
      simp only [step, lead, UInt8.lt_iff_toNat_lt, UInt8.le_iff_toNat_le, ← UInt8.toNat_inj, hbyte,
        UInt8.reduceToNat]
      rw [if_neg (by omega), if_neg (by omega), if_neg (by omega), if_neg (by omega),
        if_neg (by omega), if_pos (by omega)]
    by_cases hbound : v / 262144 = 4
    · refine ⟨.afterF4, ?_, by decide, within_tailByte (by simp only [UInt8.reduceToNat]; omega)
        (by simp only [UInt8.reduceToNat]; omega)⟩
      simp only [step, lead, UInt8.lt_iff_toNat_lt, UInt8.le_iff_toNat_le, ← UInt8.toNat_inj, hbyte,
        UInt8.reduceToNat]
      rw [if_neg (by omega), if_neg (by omega), if_neg (by omega), if_neg (by omega),
        if_neg (by omega), if_neg (by omega), if_neg (by omega), if_pos (by omega)]
    · refine ⟨.owes3, ?_, by decide, within_tail⟩
      simp only [step, lead, UInt8.lt_iff_toNat_lt, UInt8.le_iff_toNat_le, ← UInt8.toNat_inj, hbyte,
        UInt8.reduceToNat]
      rw [if_neg (by omega), if_neg (by omega), if_neg (by omega), if_neg (by omega),
        if_neg (by omega), if_neg (by omega), if_pos (by omega)]
  obtain ⟨next, hfirst, hnext, hsecond⟩ := hlead
  have hthird : step .owes2 (tailByte (v / 64)) = .owes1 := within_tail
  have hlast : step .owes1 (tailByte v) = .between := within_tail
  rw [decode, decodeFrom_more hfirst hnext, decodeFrom_more hsecond (by decide),
    decodeFrom_more hthird (by decide), decodeFrom_last hlast, accumulate_tailByte (by decide),
    accumulate_tailByte (by decide), accumulate_tailByte hnext, accumulate_lead hseven, hbyte,
    if_neg (by omega), if_neg (by omega)]
  exact congrArg (fun n => some [n]) (by omega)

/-! ### Texts -/

theorem decode_encodeChar (h : v.isValidChar) :
    decode (String.utf8EncodeChar (Char.ofNat v)) = some [v] := by
  have hvalue : (Char.ofNat v).val.toNat = v := by
    rw [Char.ofNat, dif_pos h]
    rfl
  unfold String.utf8EncodeChar
  simp only [hvalue]
  unfold Nat.isValidChar at h
  by_cases hone : v ≤ 0x7F
  · have hseven : UInt8.ofNat v < 0x80 := by
      simp only [UInt8.lt_iff_toNat_lt, UInt8.toNat_ofNat', UInt8.reduceToNat]
      omega
    rw [if_pos hone, decode_sevenBit (List.forall_mem_singleton.2 hseven)]
    exact congrArg (fun n => some [n]) (UInt8.toNat_ofNat_of_lt' (by change v < 2 ^ 8; omega))
  rw [if_neg hone]
  by_cases htwo : v ≤ 0x7FF
  · rw [if_pos htwo]
    exact decode_two (by omega) (by omega)
  rw [if_neg htwo]
  by_cases hthree : v ≤ 0xFFFF
  · rw [if_pos hthree]
    exact decode_three (by omega) (by omega) h
  · rw [if_neg hthree]
    exact decode_four (by omega) (by omega)

/-- The text comes back from its encoding. -/
theorem decode_encode {codes : List ℕ} (h : ∀ c ∈ codes, c.isValidChar) :
    decode (codes.flatMap fun c => String.utf8EncodeChar (Char.ofNat c)) = some codes := by
  induction codes with
  | nil => rfl
  | cons c codes ih =>
    have hrest := ih fun d hd => h d (List.mem_cons_of_mem _ hd)
    exact decode_append (decode_encodeChar (h c List.mem_cons_self)) hrest

end Utf8
