import PacketProbe.Utf8

/-!
# Decoding UTF-8

The code points of a text, collected by the automaton that decides whether it is UTF-8. A
replacement of seven-bit characters, made byte by byte, is the same replacement made code
point by code point.
-/

namespace Utf8

/-- The bits of a code point in its first byte. -/
def leadBits (b : UInt8) : ℕ :=
  if b < 0x80 then b.toNat
  else if b < 0xE0 then b.toNat - 0xC0
  else if b < 0xF0 then b.toNat - 0xE0
  else b.toNat - 0xF0

/-- The bits of a code point up to this byte. -/
def accumulate (s : State) (bits : ℕ) (b : UInt8) : ℕ :=
  if s = .between then leadBits b else bits * 64 + (b.toNat - 0x80)

/-- The code points of the rest of a text, with the bits of the one that has begun. -/
def decodeFrom (s : State) (bits : ℕ) : List UInt8 → Option (List ℕ)
  | [] => if s = .between then some [] else none
  | b :: text =>
    let next := step s b
    if next = .between then (decodeFrom next 0 text).map (accumulate s bits b :: ·)
    else decodeFrom next (accumulate s bits b) text

def decode (text : List UInt8) : Option (List ℕ) := decodeFrom .between 0 text

variable {s : State} {bits : ℕ} {b : UInt8} {text rest : List UInt8} {codes : List ℕ}

theorem decodeFrom_isSome (s : State) (bits : ℕ) (text : List UInt8) :
    (decodeFrom s bits text).isSome = true ↔ text.foldl step s = .between := by
  induction text generalizing s bits with
  | nil =>
    rw [decodeFrom, List.foldl_nil]
    split
    · exact iff_of_true rfl (by assumption)
    · exact iff_of_false Bool.false_ne_true (by assumption)
  | cons b text ih =>
    rw [decodeFrom, List.foldl_cons]
    split
    · rename_i hnext
      rw [Option.isSome_map, ih]
    · exact ih _ _

/-- A text is UTF-8 exactly when it has code points. -/
theorem decode_isSome : (decode text).isSome = true ↔ Valid text := decodeFrom_isSome _ _ _

theorem Valid.exists_codes (h : Valid text) : ∃ codes, decode text = some codes :=
  Option.isSome_iff_exists.1 (decode_isSome.2 h)

/-- Between characters nothing has begun. -/
theorem decodeFrom_between (bits : ℕ) (text : List UInt8) :
    decodeFrom .between bits text = decode text := by
  cases text with
  | nil => rfl
  | cons b text =>
    have hbits : accumulate .between bits b = accumulate .between 0 b :=
      (if_pos rfl).trans (if_pos rfl).symm
    rw [decode, decodeFrom, decodeFrom, hbits]

/-- Behind complete characters, the rest is decoded on its own. -/
theorem decodeFrom_append (h : decodeFrom s bits text = some codes) (rest : List UInt8) :
    decodeFrom s bits (text ++ rest) = (decode rest).map (codes ++ ·) := by
  induction text generalizing s bits codes with
  | nil =>
    rw [decodeFrom] at h
    split at h
    · rename_i hs
      cases h
      subst hs
      have hid : (fun rest : List ℕ => [] ++ rest) = id := by
        funext rest
        rfl
      rw [List.nil_append, decodeFrom_between, hid, Option.map_id_fun, id]
    · cases h
  | cons b text ih =>
    rw [List.cons_append, decodeFrom]
    rw [decodeFrom] at h
    split at h
    · rename_i hnext
      obtain ⟨codes', hcodes, rfl⟩ := Option.map_eq_some_iff.1 h
      rw [if_pos hnext, ih hcodes, Option.map_map]
      rfl
    · rename_i hnext
      rw [if_neg hnext]
      exact ih h

theorem decode_append {a b : List UInt8} {codes codes' : List ℕ} (ha : decode a = some codes)
    (hb : decode b = some codes') : decode (a ++ b) = some (codes ++ codes') := by
  unfold decode
  rw [decodeFrom_append ha, hb]
  rfl

theorem decode_sevenBit (h : ∀ b ∈ text, b < 0x80) : decode text = some (text.map UInt8.toNat) := by
  induction text with
  | nil => rfl
  | cons b text ih =>
    have hb : b < 0x80 := h b List.mem_cons_self
    have hstep : step .between b = .between := if_pos hb
    have hbits : accumulate .between 0 b = b.toNat := (if_pos rfl).trans (if_pos hb)
    have htext : decodeFrom .between 0 text = _ :=
      ih fun b' hb' => h b' (List.mem_cons_of_mem _ hb')
    rw [decode, decodeFrom, hstep, if_pos rfl, htext, hbits]
    rfl

/-! ### Replacing characters -/

/-- The bits that a code point has at least. -/
def Begun : State → ℕ → Prop
  | .between, _ | .afterE0, _ | .afterF0, _ | .invalid, _ => True
  | .owes1, bits => 2 ≤ bits
  | .owes2, bits | .owes3, bits | .afterED, bits | .afterF4, bits => 1 ≤ bits

theorem step_invalid (text : List UInt8) : text.foldl step .invalid ≠ .between := by
  induction text with
  | nil => exact State.noConfusion
  | cons b text ih => exact ih

theorem within_ne_between {low high : UInt8} {next : State} (hnext : next ≠ .between) :
    within low high b next ≠ .between := by
  unfold within
  split
  · exact hnext
  · exact State.noConfusion

theorem begun_within {low high : UInt8} {next : State} (h : low.toNat ≤ b.toNat → Begun next bits) :
    Begun (within low high b next) bits := by
  unfold within
  split
  · rename_i hrange
    exact h (UInt8.le_iff_toNat_le.1 hrange.1)
  · trivial

/-- A lead byte of several leaves bits behind, unless the next byte is narrowed for it. -/
theorem begun_lead (hb : ¬ b < 0x80) : lead b ≠ .between ∧ Begun (lead b) (leadBits b) := by
  simp only [UInt8.lt_iff_toNat_lt, UInt8.reduceToNat] at hb
  have hbits : leadBits b = if b.toNat < 0xE0 then b.toNat - 0xC0
      else if b.toNat < 0xF0 then b.toNat - 0xE0 else b.toNat - 0xF0 := by
    simp only [leadBits, UInt8.lt_iff_toNat_lt, UInt8.reduceToNat, if_neg hb]
  rw [hbits]
  simp only [lead, UInt8.lt_iff_toNat_lt, UInt8.le_iff_toNat_le, ← UInt8.toNat_inj,
    UInt8.reduceToNat]
  split_ifs <;> simp only [Begun, ne_eq, reduceCtorEq, not_false_eq_true, true_and, and_true] <;>
    omega

/-- No overlong form: what several bytes make up is not a seven-bit character. -/
theorem begun_step (h : Begun s bits) (hb : ¬ b < 0x80) :
    (step s b = .between → 0x80 ≤ accumulate s bits b) ∧
      (step s b ≠ .between → Begun (step s b) (accumulate s bits b)) := by
  cases s with
  | between =>
    obtain ⟨hlead, hbegun⟩ := begun_lead hb
    exact ⟨fun hstep => absurd hstep hlead, fun _ => hbegun⟩
  | invalid => exact ⟨State.noConfusion, fun _ => trivial⟩
  | owes1 =>
    refine ⟨fun _ => ?_, fun _ => begun_within fun _ => trivial⟩
    change 0x80 ≤ bits * 64 + (b.toNat - 0x80)
    change 2 ≤ bits at h
    omega
  | owes2 | afterED =>
    refine ⟨fun hstep => absurd hstep (within_ne_between State.noConfusion), fun _ => ?_⟩
    apply begun_within
    intro _
    change 2 ≤ bits * 64 + (b.toNat - 0x80)
    change 1 ≤ bits at h
    omega
  | owes3 | afterF4 =>
    refine ⟨fun hstep => absurd hstep (within_ne_between State.noConfusion), fun _ => ?_⟩
    apply begun_within
    intro _
    change 1 ≤ bits * 64 + (b.toNat - 0x80)
    change 1 ≤ bits at h
    omega
  | afterE0 =>
    refine ⟨fun hstep => absurd hstep (within_ne_between State.noConfusion), fun _ => ?_⟩
    apply begun_within
    intro hlow
    change 2 ≤ bits * 64 + (b.toNat - 0x80)
    simp only [UInt8.reduceToNat] at hlow
    omega
  | afterF0 =>
    refine ⟨fun hstep => absurd hstep (within_ne_between State.noConfusion), fun _ => ?_⟩
    apply begun_within
    intro hlow
    change 1 ≤ bits * 64 + (b.toNat - 0x80)
    simp only [UInt8.reduceToNat] at hlow
    omega

/-- A seven-bit character stands between characters. -/
theorem between_of_sevenBit (hb : b < 0x80) (h : (b :: text).foldl step s = .between) :
    s = .between := by
  rw [List.foldl_cons] at h
  have hlow : ∀ low high next, 0x80 ≤ low.toNat → within low high b next = .invalid := by
    intro low high next hlow
    apply if_neg
    intro hrange
    have hle := UInt8.le_iff_toNat_le.1 hrange.1
    simp only [UInt8.lt_iff_toNat_lt, UInt8.reduceToNat] at hb
    omega
  by_contra hs
  have hinvalid : step s b = .invalid := by
    cases s with
    | between => exact absurd rfl hs
    | invalid => rfl
    | _ => exact hlow _ _ _ (by decide)
  rw [hinvalid] at h
  exact step_invalid text h

section Replace

variable {f : UInt8 → List UInt8} {g : ℕ → List ℕ}

/-- A replacement of seven-bit characters by seven-bit text, byte by byte and code point by
code point. -/
structure Replaces (f : UInt8 → List UInt8) (g : ℕ → List ℕ) : Prop where
  sevenBit : ∀ b < 0x80, (∀ b' ∈ f b, b' < 0x80) ∧ (f b).map UInt8.toNat = g b.toNat
  byte : ∀ b, ¬ b < 0x80 → f b = [b]
  code : ∀ c, 0x80 ≤ c → g c = [c]

theorem Replaces.decodeFrom (h : Replaces f g) (hbegun : Begun s bits)
    (hvalid : text.foldl step s = .between) :
    decodeFrom s bits (text.flatMap f) = (decodeFrom s bits text).map (·.flatMap g) := by
  induction text generalizing s bits with
  | nil =>
    rw [List.flatMap_nil, Utf8.decodeFrom, if_pos (show s = .between from hvalid)]
    rfl
  | cons b text ih =>
    by_cases hb : b < 0x80
    · obtain rfl := between_of_sevenBit hb hvalid
      obtain ⟨hseven, hcodes⟩ := h.sevenBit b hb
      have hstep : step .between b = .between := if_pos hb
      have hbits : accumulate .between bits b = b.toNat := (if_pos rfl).trans (if_pos hb)
      rw [List.foldl_cons, hstep] at hvalid
      have hrest : Utf8.decodeFrom .between 0 (text.flatMap f) =
          (Utf8.decodeFrom .between 0 text).map (·.flatMap g) := ih trivial hvalid
      have hfirst : Utf8.decodeFrom .between bits (f b) = some (g b.toNat) := by
        rw [decodeFrom_between, decode_sevenBit hseven, hcodes]
      rw [List.flatMap_cons, decodeFrom_append hfirst, Utf8.decodeFrom, hstep, if_pos rfl, hbits,
        decode, hrest, Option.map_map, Option.map_map]
      rfl
    · obtain ⟨hcode, hnext⟩ := begun_step hbegun hb
      rw [List.foldl_cons] at hvalid
      rw [List.flatMap_cons, h.byte b hb, List.singleton_append, Utf8.decodeFrom, Utf8.decodeFrom]
      by_cases hstep : step s b = .between
      · rw [hstep] at hvalid
        have hrest : Utf8.decodeFrom .between 0 (text.flatMap f) =
            (Utf8.decodeFrom .between 0 text).map (·.flatMap g) := ih trivial hvalid
        rw [if_pos hstep, if_pos hstep, hstep, hrest, Option.map_map, Option.map_map]
        congr 1
        funext codes
        change _ = g (accumulate s bits b) ++ codes.flatMap g
        rw [h.code _ (hcode hstep)]
        rfl
      · rw [if_neg hstep, if_neg hstep]
        exact ih (hnext hstep) hvalid

theorem Replaces.decode (h : Replaces f g) (htext : Utf8.decode text = some codes) :
    Utf8.decode (text.flatMap f) = some (codes.flatMap g) := by
  have hvalid : Valid text := decode_isSome.1 (Option.isSome_of_mem htext)
  have hreplaced : Utf8.decodeFrom .between 0 (text.flatMap f) =
      (Utf8.decodeFrom .between 0 text).map (·.flatMap g) := h.decodeFrom trivial hvalid
  unfold Utf8.decode at htext ⊢
  rw [hreplaced, htext]
  rfl

end Replace

/-! ### One character after the other -/

/-- The text is a sequence of characters with these code points: a byte below 0x80 is a
character, the others stand together for a code point that is no seven-bit character. -/
inductive Spells : List UInt8 → List ℕ → Prop
  | nil : Spells [] []
  | sevenBit {b : UInt8} {text : List UInt8} {codes : List ℕ} (hb : b < 0x80)
      (hrest : Spells text codes) : Spells (b :: text) (b.toNat :: codes)
  | several {char text : List UInt8} {c : ℕ} {codes : List ℕ} (hbytes : ∀ b ∈ char, ¬ b < 0x80)
      (hne : char ≠ []) (hcode : 0x80 ≤ c) (hchar : decode char = some [c])
      (hrest : Spells text codes) : Spells (char ++ text) (c :: codes)

/-- A character that has begun is completed, and the rest is decoded on its own. -/
theorem exists_character (hs : s ≠ .between) (hbegun : Begun s bits)
    (h : decodeFrom s bits text = some codes) :
    ∃ char rest c codes', text = char ++ rest ∧ codes = c :: codes' ∧ (∀ b ∈ char, ¬ b < 0x80) ∧
      0x80 ≤ c ∧ decodeFrom s bits char = some [c] ∧ decode rest = some codes' := by
  induction text generalizing s bits with
  | nil =>
    rw [decodeFrom, if_neg hs] at h
    cases h
  | cons b text ih =>
    have hb : ¬ b < 0x80 := fun hb =>
      hs (between_of_sevenBit hb ((decodeFrom_isSome s bits _).1 (Option.isSome_of_mem h)))
    obtain ⟨hcode, hnext⟩ := begun_step hbegun hb
    rw [decodeFrom] at h
    by_cases hstep : step s b = .between
    · rw [if_pos hstep, hstep, decodeFrom_between] at h
      obtain ⟨codes', hrest, rfl⟩ := Option.map_eq_some_iff.1 h
      refine ⟨[b], text, _, codes', rfl, rfl, List.forall_mem_singleton.2 hb, hcode hstep, ?_,
        hrest⟩
      rw [decodeFrom, if_pos hstep, hstep]
      rfl
    · rw [if_neg hstep] at h
      obtain ⟨char, rest, c, codes', rfl, rfl, hbytes, hc, hchar, hrest⟩ := ih hstep (hnext hstep) h
      refine ⟨b :: char, rest, c, codes', rfl, rfl, List.forall_mem_cons.2 ⟨hb, hbytes⟩, hc, ?_,
        hrest⟩
      rw [decodeFrom, if_neg hstep, hchar]

theorem spells_of_decode (h : decode text = some codes) : Spells text codes := by
  induction hn : text.length using Nat.strongRecOn generalizing text codes with
  | _ n ih =>
    cases text with
    | nil =>
      cases h
      exact .nil
    | cons b text =>
      rw [List.length_cons] at hn
      rw [decode, decodeFrom] at h
      by_cases hb : b < 0x80
      · have hstep : step .between b = .between := if_pos hb
        rw [hstep, if_pos rfl] at h
        obtain ⟨codes', hrest, rfl⟩ := Option.map_eq_some_iff.1 h
        have hbits : accumulate .between 0 b = b.toNat := (if_pos rfl).trans (if_pos hb)
        rw [hbits]
        exact .sevenBit hb (ih text.length (by omega) hrest rfl)
      · obtain ⟨hstep, hbegun⟩ := begun_lead hb
        have hbits : accumulate .between 0 b = leadBits b := if_pos rfl
        change step .between b ≠ .between at hstep
        rw [if_neg hstep, hbits] at h
        obtain ⟨char, rest, c, codes', rfl, rfl, hbytes, hc, hchar, hrest⟩ :=
          exists_character hstep hbegun h
        rw [List.length_append] at hn
        refine Spells.several (List.forall_mem_cons.2 ⟨hb, hbytes⟩) (List.cons_ne_nil _ _)
          hc ?_ (ih rest.length (by omega) hrest rfl)
        rw [decode, decodeFrom, if_neg hstep, hbits]
        exact hchar

theorem Spells.append {rest : List UInt8} {codes' : List ℕ} (h : Spells text codes)
    (h' : Spells rest codes') : Spells (text ++ rest) (codes ++ codes') := by
  induction h with
  | nil => exact h'
  | sevenBit hb _ ih => exact .sevenBit hb ih
  | several hbytes hne hcode hchar _ ih =>
    rw [List.append_assoc]
    exact .several hbytes hne hcode hchar ih

theorem Spells.decode (h : Spells text codes) : Utf8.decode text = some codes := by
  induction h with
  | nil => rfl
  | sevenBit hb _ ih =>
    exact decode_append (decode_sevenBit (List.forall_mem_singleton.2 hb)) ih
  | several _ _ _ hchar _ ih => exact decode_append hchar ih

example : decode [0x65, 0xC3, 0xA9, 0xE2, 0x82, 0xAC, 0xF0, 0x9F, 0x98, 0x80] =
    some [0x65, 0xE9, 0x20AC, 0x1F600] := by decide +kernel

end Utf8
