import BoardGpio.Proofs.PinSet
import Mathlib.Algebra.Ring.Nat
import Mathlib.Data.List.Sort

/-!
# Going through a set

The iterator takes the lowest pin off a set by clearing the lowest bit of the word. Main statements:
one step yields the lowest pin and leaves exactly the others (`next?_eq_some`), so `n` steps yield
the first `n` pins of `toList` and leave the rest (`toList_advance`), and the number of bits set is
the number of pins left (`size_eq_length`). The pins of a set make up the same set again
(`ofList?_toList`).
-/

set_option autoImplicit false

namespace BoardGpio.PinSet

/-! ## The lowest bit -/

/-- The bits up to the lowest one bit are this bit alone. -/
theorem mod_two_pow_lowest {n low : Nat} (hlow : n.testBit low = true)
    (hbelow : ∀ i < low, n.testBit i = false) : n % 2 ^ (low + 1) = 2 ^ low := by
  apply Nat.eq_of_testBit_eq
  intro j
  rw [Nat.testBit_mod_two_pow, Nat.testBit_two_pow]
  rcases Nat.lt_trichotomy j low with hj | rfl | hj
  · simp [hbelow j hj]
    omega
  · simp [hlow]
  · have hout : ¬j < low + 1 := by omega
    simp [hout]
    omega

/-- Subtracting one from a number flips its lowest one bit and the zeros below it. -/
theorem testBit_and_pred {n low : Nat} (hlow : n.testBit low = true)
    (hbelow : ∀ i < low, n.testBit i = false) (i : Nat) :
    (n &&& (n - 1)).testBit i = (n.testBit i && decide (i ≠ low)) := by
  have hsplit : n = 2 ^ (low + 1) * (n / 2 ^ (low + 1)) + 2 ^ low := by
    rw [← mod_two_pow_lowest hlow hbelow]
    exact (Nat.div_add_mod n (2 ^ (low + 1))).symm
  have hpow : 2 ^ low < 2 ^ (low + 1) := Nat.pow_lt_pow_right (by decide) (by omega)
  have hpos : 0 < 2 ^ low := Nat.two_pow_pos low
  have hpred : n - 1 = 2 ^ (low + 1) * (n / 2 ^ (low + 1)) + (2 ^ low - 1) := by omega
  have hrest : (n - 1).testBit i =
      if i < low + 1 then decide (i < low) else (n / 2 ^ (low + 1)).testBit (i - (low + 1)) := by
    rw [hpred, Nat.testBit_two_pow_mul_add _ (by omega), Nat.testBit_two_pow_sub_one]
  rw [Nat.testBit_and, hrest]
  rcases Nat.lt_trichotomy i low with hi | rfl | hi
  · simp [hbelow i hi]
  · simp
  · have hbit : n.testBit i = (n / 2 ^ (low + 1)).testBit (i - (low + 1)) := by
      conv_lhs => rw [hsplit]
      rw [Nat.testBit_two_pow_mul_add _ hpow, if_neg (by omega)]
    simp [hbit, show ¬i < low + 1 by omega]
    omega

variable {s rest : PinSet} {pin : Nat}

/-- One step yields the lowest pin of the set and leaves exactly the others. -/
theorem next?_eq_some (h : s.next? = some (pin, rest)) :
    s.contains pin = true ∧ (∀ q < pin, s.contains q = false) ∧
      ∀ q, rest.contains q = (s.contains q && decide (q ≠ pin)) := by
  unfold next? at h
  split at h
  · cases h
  · rename_i hfull
    cases h
    have hbits : s.bits ≠ 0#128 := by
      intro hzero
      exact hfull (by simp [isEmpty, hzero])
    have hlow : s.bits.getLsbD s.bits.ctz.toNat = true :=
      BitVec.getLsbD_true_ctz_of_ne_zero hbits
    have hbelow : ∀ q < s.bits.ctz.toNat, s.bits.getLsbD q = false := fun _ hq =>
      BitVec.getLsbD_false_of_lt_ctz hq
    refine ⟨hlow, hbelow, ?_⟩
    intro q
    -- The word is not zero, so that subtracting one does not wrap.
    have hpred : (s.bits - 1).toNat = s.bits.toNat - 1 := by
      have hpos : 1 ≤ s.bits.toNat := Nat.pos_of_ne_zero fun h => hbits (BitVec.eq_of_toNat_eq h)
      exact BitVec.toNat_sub_of_le (by simpa [BitVec.le_def] using hpos)
    have hcleared := testBit_and_pred (n := s.bits.toNat) hlow hbelow q
    rw [← hpred, ← BitVec.toNat_and] at hcleared
    exact hcleared

theorem next?_eq_none_iff : s.next? = none ↔ s = .empty := by
  rw [← isEmpty_eq_true_iff]
  unfold next?
  split <;> simp_all

/-! ## The pins one after the other -/

@[simp] theorem toList_empty : empty.toList = [] := by
  rw [List.eq_nil_iff_forall_not_mem]
  intro pin
  simp [mem_toList]

theorem toList_of_next? (h : s.next? = some (pin, rest)) : s.toList = pin :: rest.toList := by
  obtain ⟨hpin, hbelow, hrest⟩ := next?_eq_some h
  have hascending : (pin :: rest.toList).Pairwise (· < ·) := by
    refine List.pairwise_cons.mpr ⟨?_, rest.ascending_toList⟩
    intro q hq
    rw [mem_toList, hrest] at hq
    have hne : q ≠ pin := by simpa using (Bool.and_eq_true_iff.mp hq).2
    have hle : ¬q < pin := by
      intro hlt
      rw [hbelow q hlt] at hq
      simp at hq
    omega
  refine s.ascending_toList.eq_of_mem_iff hascending fun q => ?_
  rw [List.mem_cons, mem_toList, mem_toList, hrest]
  by_cases hq : q = pin
  · simp [hq, hpin]
  · simp [hq]

/-- The next pin is the first of the list. -/
theorem map_next? (s : PinSet) : s.next?.map Prod.fst = s.toList.head? := by
  cases h : s.next? with
  | none => simp [next?_eq_none_iff.mp h]
  | some step => simp [toList_of_next? h]

/-- What is left after `n` steps are all pins but the first `n`. -/
theorem toList_advance (s : PinSet) (n : Nat) : (s.advance n).toList = s.toList.drop n := by
  induction n generalizing s with
  | zero => rfl
  | succ n ih =>
    rw [advance]
    cases h : s.next? with
    | none => simp [next?_eq_none_iff.mp h]
    | some step => rw [ih, toList_of_next? h, List.drop_succ_cons]

/-- The step after `n` steps yields the pin in place `n` of the list. -/
theorem map_next?_advance (s : PinSet) (n : Nat) :
    (s.advance n).next?.map Prod.fst = s.toList[n]? := by
  rw [map_next?, toList_advance, List.head?_drop]

/-! ## How many pins there are -/

/-- Counting the ones among the low bits goes through the pins below. -/
theorem cpopNatRec_eq_length (bits : BitVec 128) (n : Nat) :
    bits.cpopNatRec n 0 = ((List.range n).filter bits.getLsbD).length := by
  induction n with
  | zero => simp
  | succ n ih =>
    rw [BitVec.cpopNatRec_succ, BitVec.cpopNatRec_eq, ih, List.range_succ, List.filter_append,
      List.length_append]
    cases h : bits.getLsbD n <;> simp [h]

theorem size_eq_length (s : PinSet) : s.size = s.toList.length := by
  rw [size, BitVec.toNat_cpop, cpopNatRec_eq_length]
  rfl

/-- The pins of a set make up the set. -/
theorem ofList?_toList (s : PinSet) : ofList? s.toList = .ok s := by
  obtain ⟨t, ht⟩ := empty.exists_insertAll? fun p hp => contains_lt (mem_toList.mp hp)
  rw [ofList?, ht, Except.ok.injEq, ext_iff]
  intro q
  rw [Bool.eq_iff_iff, contains_insertAll? ht, mem_toList]
  simp

end BoardGpio.PinSet
