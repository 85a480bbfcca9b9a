import Mathlib.Data.List.Basic

/-!
# UTF-8 validity

The automaton that reads a text byte by byte and ends between two characters exactly
on well-formed UTF-8: no overlong form, no surrogate, nothing above U+10FFFF.
-/

namespace Utf8

/-- Where the automaton stands: between characters, owing continuation bytes, behind a
lead byte that narrows the next byte, or in a text that is not UTF-8. -/
inductive State where
  | between | owes1 | owes2 | owes3 | afterE0 | afterED | afterF0 | afterF4 | invalid
  deriving DecidableEq

def lead (b : UInt8) : State :=
  if b < 0x80 then .between
  else if 0xC2 ≤ b ∧ b ≤ 0xDF then .owes1
  else if b = 0xE0 then .afterE0
  else if b = 0xED then .afterED
  else if 0xE1 ≤ b ∧ b ≤ 0xEF then .owes2
  else if b = 0xF0 then .afterF0
  else if 0xF1 ≤ b ∧ b ≤ 0xF3 then .owes3
  else if b = 0xF4 then .afterF4
  else .invalid

def within (low high b : UInt8) (next : State) : State :=
  if low ≤ b ∧ b ≤ high then next else .invalid

def step : State → UInt8 → State
  | .between, b => lead b
  | .owes1, b => within 0x80 0xBF b .between
  | .owes2, b => within 0x80 0xBF b .owes1
  | .owes3, b => within 0x80 0xBF b .owes2
  | .afterE0, b => within 0xA0 0xBF b .owes1
  | .afterED, b => within 0x80 0x9F b .owes1
  | .afterF0, b => within 0x90 0xBF b .owes2
  | .afterF4, b => within 0x80 0x8F b .owes2
  | .invalid, _ => .invalid

/-- The text is a sequence of complete characters. -/
def Valid (text : List UInt8) : Prop := text.foldl step .between = .between

instance (text : List UInt8) : Decidable (Valid text) := inferInstanceAs (Decidable (_ = _))

variable {a b : List UInt8}

@[simp] theorem valid_nil : Valid [] := rfl

/-- Behind complete characters, the rest is read on its own. -/
theorem valid_append_iff (ha : Valid a) : Valid (a ++ b) ↔ Valid b := by
  have hrun : a.foldl step .between = .between := ha
  simp only [Valid, List.foldl_append, hrun]

theorem Valid.append (ha : Valid a) (hb : Valid b) : Valid (a ++ b) :=
  (valid_append_iff ha).2 hb

/-- Seven-bit text is UTF-8. -/
theorem valid_of_sevenBit (h : ∀ ch ∈ a, ch < 0x80) : Valid a := by
  induction a with
  | nil => rfl
  | cons ch text ih =>
    have hch : step .between ch = .between := if_pos (h ch (by simp))
    have htext : Valid text := ih fun c hc => h c (by simp [hc])
    rw [Valid, List.foldl_cons, hch]
    exact htext

end Utf8
