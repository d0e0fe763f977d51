import BoardGpio.Register.Word

/-!
# Fields that share a register

Pins share registers, so what matters about a change of one field is what the others hold after it.
A field is determined by its bits (`field_congr`); hence writing one field leaves every field alone
that has no bit in common with it (`field_setField_disjoint`), and two such fields can be written in
either order (`setField_comm`). A single bit is a field of width one (`setBit_eq_setField`).
-/

set_option autoImplicit false

namespace BoardGpio.Word

/-- The bits of a field are those of the word from the field's position on. -/
theorem getLsbD_field (w : Word) (shift width i : Nat) :
    ((w >>> shift) &&& ones width).getLsbD i =
      (decide (i < 32) && decide (i < width) && w.getLsbD (shift + i)) := by
  rw [BitVec.getLsbD_and, BitVec.getLsbD_ushiftRight, getLsbD_ones]
  cases w.getLsbD (shift + i) <;> cases decide (i < 32) <;> cases decide (i < width) <;> rfl

/-- Words that agree on the bits of a field hold the same number in it. -/
theorem field_congr {v w : Word} {shift width : Nat}
    (h : ∀ i, shift ≤ i → i < shift + width → v.getLsbD i = w.getLsbD i) :
    v.field shift width = w.field shift width := by
  unfold field
  congr 1
  apply BitVec.eq_of_getLsbD_eq
  intro i _
  rw [getLsbD_field, getLsbD_field]
  by_cases hi : i < width
  · rw [h (shift + i) (by omega) (by omega)]
  · simp [hi]

/-- Writing a field leaves every field alone that lies below or above it. -/
theorem field_setField_disjoint (w : Word) {shift width n shift' width' : Nat}
    (hn : n < 1 <<< width) (h : shift' + width' ≤ shift ∨ shift + width ≤ shift') :
    (w.setField shift width n).field shift' width' = w.field shift' width' := by
  apply field_congr
  intro i hlo hhi
  exact getLsbD_setField_outside w shift width n i hn (by omega)

/-- Clearing a field and then adding a number to it writes the number. -/
theorem setField_zero_or (w : Word) (shift width n : Nat) :
    w.setField shift width 0 ||| (BitVec.ofNat 32 n <<< shift) = w.setField shift width n := by
  simp [setField]

/-- The bits of a word in which a field was written: inside the field those of the number, outside
those of the word. -/
theorem getLsbD_setField (w : Word) {shift width n : Nat} (hn : n < 1 <<< width) (i : Nat) :
    (w.setField shift width n).getLsbD i =
      if shift ≤ i ∧ i < shift + width then decide (i < 32) && n.testBit (i - shift)
      else w.getLsbD i := by
  by_cases hin : shift ≤ i ∧ i < shift + width
  · rw [if_pos hin, setField, BitVec.getLsbD_or, BitVec.getLsbD_and, BitVec.getLsbD_not,
      BitVec.getLsbD_shiftLeft, BitVec.getLsbD_shiftLeft, getLsbD_ones, BitVec.getLsbD_ofNat]
    have hlow : ¬i < shift := by omega
    have hwidth : i - shift < width := by omega
    by_cases h32 : i < 32
    · have hsub : i - shift < 32 := by omega
      simp [h32, hlow, hwidth, hsub]
    · simp [h32]
  · rw [if_neg hin]
    exact getLsbD_setField_outside w shift width n i hn (by omega)

/-- Fields without a common bit can be written in either order. -/
theorem setField_comm (w : Word) {shift width n shift' width' n' : Nat} (hn : n < 1 <<< width)
    (hn' : n' < 1 <<< width') (h : shift' + width' ≤ shift ∨ shift + width ≤ shift') :
    (w.setField shift width n).setField shift' width' n' =
      (w.setField shift' width' n').setField shift width n := by
  apply BitVec.eq_of_getLsbD_eq
  intro i _
  rw [getLsbD_setField _ hn', getLsbD_setField _ hn, getLsbD_setField _ hn,
    getLsbD_setField _ hn']
  by_cases hin : shift ≤ i ∧ i < shift + width
  · have hout : ¬(shift' ≤ i ∧ i < shift' + width') := by omega
    rw [if_neg hout, if_pos hin]
    simp [hin]
  · rw [if_neg hin, if_neg hin]

theorem toNat_lt_two (b : Bool) : b.toNat < 1 <<< 1 := by
  cases b <;> decide

/-- A single bit is a field of width one. -/
theorem setBit_eq_setField (w : Word) (i : Nat) (high : Bool) :
    w.setBit i high = w.setField i 1 high.toNat := by
  apply BitVec.eq_of_getLsbD_eq
  intro j hj
  rw [getLsbD_setField _ (toNat_lt_two high)]
  by_cases hij : i = j
  · subst hij
    rw [getLsbD_setBit_same _ _ _ hj, if_pos (by omega)]
    cases high <;> simp [hj]
  · rw [getLsbD_setBit_ne _ _ _ _ hij, if_neg (by omega)]

theorem flipBit_eq_setBit (w : Word) {i : Nat} (hi : i < 32) :
    w.flipBit i = w.setBit i (!w.getLsbD i) := by
  apply BitVec.eq_of_getLsbD_eq
  intro j hj
  by_cases hij : i = j
  · subst hij
    rw [getLsbD_flipBit_same _ _ hi, getLsbD_setBit_same _ _ _ hi]
  · rw [getLsbD_flipBit_ne _ _ _ hij, getLsbD_setBit_ne _ _ _ _ hij]

theorem field_one (w : Word) (i : Nat) : w.field i 1 = (w.getLsbD i).toNat := by
  have hbits : (w >>> i) &&& ones 1 = BitVec.ofNat 32 (w.getLsbD i).toNat := by
    apply BitVec.eq_of_getLsbD_eq
    intro j hj
    rw [getLsbD_field, BitVec.getLsbD_ofNat]
    by_cases hj0 : j = 0
    · subst hj0
      cases w.getLsbD i <;> simp
    · cases hw : w.getLsbD i
      · simp [hj0]
      · have hone : Nat.testBit 1 j = false := Nat.testBit_lt_two_pow (Nat.one_lt_two_pow hj0)
        simp [hj0, hone]
  rw [field, hbits]
  cases w.getLsbD i <;> rfl

end BoardGpio.Word
