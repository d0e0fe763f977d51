/-!
# Registers

A register is a word of 32 bits. A field is a run of bits of a word, given by the position of its
lowest bit and its width. Main statements: a written field reads back what was written
(`field_setField_same`), and no bit outside the field changes (`getLsbD_setField_outside`).
-/

set_option autoImplicit false

namespace BoardGpio

abbrev Word := BitVec 32

namespace Word

/-- The word whose lowest `width` bits are set. -/
def ones (width : Nat) : Word :=
  BitVec.ofNat 32 (1 <<< width - 1)

def field (w : Word) (shift width : Nat) : Nat :=
  ((w >>> shift) &&& ones width).toNat

/-- The word with another number in a field; bits of the number beyond the field must be zero. -/
def setField (w : Word) (shift width n : Nat) : Word :=
  (w &&& ~~~(ones width <<< shift)) ||| (BitVec.ofNat 32 n <<< shift)

/-- The word with one bit set. -/
def bit (i : Nat) : Word := BitVec.twoPow 32 i

/-- The word with a bit set or cleared. -/
def setBit (w : Word) (i : Nat) (high : Bool) : Word :=
  if high then w ||| bit i else w &&& ~~~bit i

/-- The word with a bit inverted. -/
def flipBit (w : Word) (i : Nat) : Word := w ^^^ bit i

theorem getLsbD_ones (width i : Nat) :
    (ones width).getLsbD i = (decide (i < 32) && decide (i < width)) := by
  rw [ones, Nat.one_shiftLeft, BitVec.getLsbD_ofNat, Nat.testBit_two_pow_sub_one]

theorem getLsbD_bit (i j : Nat) : (bit i).getLsbD j = (decide (j < 32) && decide (i = j)) := by
  simp only [bit, BitVec.getLsbD_twoPow]
  by_cases h : i = j
  · subst h
    simp
  · simp [h]

@[simp] theorem getLsbD_setBit_same (w : Word) (i : Nat) (high : Bool) (h : i < 32) :
    (w.setBit i high).getLsbD i = high := by
  unfold setBit
  cases high <;> simp [getLsbD_bit, h]

@[simp] theorem getLsbD_setBit_ne (w : Word) (i j : Nat) (high : Bool) (h : i ≠ j) :
    (w.setBit i high).getLsbD j = w.getLsbD j := by
  unfold setBit
  cases high
  · simp only [Bool.false_eq_true, ↓reduceIte, BitVec.getLsbD_and, BitVec.getLsbD_not,
      getLsbD_bit, h, decide_false, Bool.and_false, Bool.not_false, Bool.and_true]
    by_cases hj : j < 32
    · simp [hj]
    · simp [hj, BitVec.getLsbD_of_ge w j (Nat.le_of_not_lt hj)]
  · simp [getLsbD_bit, h]

@[simp] theorem getLsbD_flipBit_same (w : Word) (i : Nat) (h : i < 32) :
    (w.flipBit i).getLsbD i = !w.getLsbD i := by
  rw [flipBit, BitVec.getLsbD_xor, getLsbD_bit]
  simp [h]

@[simp] theorem getLsbD_flipBit_ne (w : Word) (i j : Nat) (h : i ≠ j) :
    (w.flipBit i).getLsbD j = w.getLsbD j := by
  rw [flipBit, BitVec.getLsbD_xor, getLsbD_bit]
  simp [h]

/-- Bits outside a field keep their value. -/
theorem getLsbD_setField_outside (w : Word) (shift width n i : Nat) (hn : n < 1 <<< width)
    (hi : i < shift ∨ shift + width ≤ i) :
    (w.setField shift width n).getLsbD i = w.getLsbD i := by
  rw [Nat.one_shiftLeft] at hn
  have hbit : ∀ k, width ≤ k → n.testBit k = false := fun k hk =>
    Nat.testBit_lt_two_pow (Nat.lt_of_lt_of_le hn (Nat.pow_le_pow_right (by omega) hk))
  by_cases h32 : i < 32
  · rw [setField, BitVec.getLsbD_or, BitVec.getLsbD_and, BitVec.getLsbD_not,
      BitVec.getLsbD_shiftLeft, BitVec.getLsbD_shiftLeft, getLsbD_ones, BitVec.getLsbD_ofNat]
    rcases hi with hi | hi
    · simp [h32, hi]
    · simp [h32, hbit (i - shift) (by omega), show ¬ (i - shift < width) by omega]
  · rw [BitVec.getLsbD_of_ge _ _ (Nat.le_of_not_lt h32),
      BitVec.getLsbD_of_ge _ _ (Nat.le_of_not_lt h32)]

/-- A field holds what was written to it. -/
theorem field_setField_same (w : Word) (shift width n : Nat) (hn : n < 1 <<< width)
    (hw : shift + width ≤ 32) : (w.setField shift width n).field shift width = n := by
  rw [Nat.one_shiftLeft] at hn
  have hn32 : n < 2 ^ 32 :=
    Nat.lt_of_lt_of_le hn (Nat.pow_le_pow_right (by omega) (by omega))
  have key : ((w.setField shift width n) >>> shift) &&& ones width = BitVec.ofNat 32 n := by
    apply BitVec.eq_of_getLsbD_eq
    intro i hi
    rw [BitVec.getLsbD_and, BitVec.getLsbD_ushiftRight, setField, BitVec.getLsbD_or,
      BitVec.getLsbD_and, BitVec.getLsbD_not, BitVec.getLsbD_shiftLeft, BitVec.getLsbD_shiftLeft,
      getLsbD_ones, getLsbD_ones, BitVec.getLsbD_ofNat, BitVec.getLsbD_ofNat]
    by_cases hiw : i < width
    · have h1 : shift + i < 32 := by omega
      have h2 : decide (shift + i < shift) = false := decide_eq_false (by omega)
      rw [h2]
      simp [hi, hiw, h1]
    · have hz : n.testBit i = false :=
        Nat.testBit_lt_two_pow (Nat.lt_of_lt_of_le hn (Nat.pow_le_pow_right (by omega) (by omega)))
      simp [hiw, hz]
  rw [field, key, BitVec.toNat_ofNat]
  exact Nat.mod_eq_of_lt hn32

end Word

end BoardGpio
