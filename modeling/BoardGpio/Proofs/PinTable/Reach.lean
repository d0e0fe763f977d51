import BoardGpio.Proofs.PinTable.Translation
import Mathlib.Data.List.Perm.Subperm

/-!
# The chip pins that a numbering reaches

The logical numbers and the chip's own reach the same pins. The header reaches some of them
(`Accepted.reaches_logical`). A table is accepted without a look at the pins that the header lacks,
so a change to the numbers of the header can lose pins (`reaches_part`). Main statement: the three
numberings reach the same pins, and every number can be changed for one of any other numbering,
exactly if the header names as many pins as the logical list does (`agreement_of_made`). On the
known boards it does (`BoardRevision.table_agrees`).
-/

set_option autoImplicit false

namespace BoardGpio.PinTable

/-- Some number of a numbering stands for the chip pin. -/
def Reaches (t : PinTable) (n : Numbering) (m : Nat) : Prop := ∃ p, t.toMcu? p n = some m

/-- All numberings reach the same chip pins. -/
def Agrees (t : PinTable) : Prop := ∀ (n n' : Numbering) (m : Nat), t.Reaches n m ↔ t.Reaches n' m

variable {t : PinTable} {m : Nat}

theorem reaches_logical_iff : t.Reaches .logical m ↔ m ∈ used t.logical := exists_entry?_iff

theorem reaches_mcu_iff : t.Reaches .mcu m ↔ m ∈ used t.logical := by
  simp only [Reaches, toMcu?, Option.ite_none_right_eq_some, Option.some.injEq]
  constructor
  · rintro ⟨p, hp, rfl⟩
    exact hp
  · exact fun hm => ⟨m, hm, rfl⟩

theorem reaches_physical_iff : t.Reaches .physical m ↔ m ∈ used t.physical := by
  rw [← exists_entry?_iff]
  constructor
  · rintro ⟨p, hp⟩
    simp only [toMcu?] at hp
    split at hp
    · cases hp
    · exact ⟨p - 1, hp⟩
  · -- the position with index `i` is the one with number `i + 1`
    rintro ⟨i, hi⟩
    exact ⟨i + 1, hi⟩

/-- A chip pin has a number, right or cut off, exactly if the numbering reaches it. -/
theorem isSome_ofMcu?_iff (n : Numbering) : (t.ofMcu? m n).isSome = true ↔ t.Reaches n m := by
  have hfound : ∀ list : List Slot,
      (list.findIdx? (· == some m)).isSome = true ↔ m ∈ used list := by
    intro list
    rw [List.findIdx?_isSome, List.any_beq', List.contains_iff_mem, mem_used]
  cases n with
  | logical => rw [ofMcu?, Option.isSome_map, hfound, reaches_logical_iff]
  | mcu =>
    rw [reaches_mcu_iff, ofMcu?]
    by_cases hm : m ∈ used t.logical <;> simp [hm]
  | physical => rw [ofMcu?, Option.isSome_map, hfound, reaches_physical_iff]

theorem agrees_iff : t.Agrees ↔ ∀ m, m ∈ used t.physical ↔ m ∈ used t.logical := by
  -- only the header can make a difference
  constructor
  · intro h m
    rw [← reaches_physical_iff, ← reaches_logical_iff]
    exact h .physical .logical m
  · intro h n n' m
    have hused : ∀ n, t.Reaches n m ↔ m ∈ used t.logical := by
      intro n
      cases n with
      | logical => exact reaches_logical_iff
      | mcu => exact reaches_mcu_iff
      | physical => exact reaches_physical_iff.trans (h m)
    rw [hused n, hused n']

/-- The numberings agree exactly if the pin behind every number has a number in each of them. -/
theorem agrees_iff_numbered :
    t.Agrees ↔ ∀ (n n' : Numbering) (p m : Nat), t.toMcu? p n = some m →
      (t.ofMcu? m n').isSome = true := by
  constructor
  · intro hagree n n' p m hp
    exact (isSome_ofMcu?_iff n').mpr ((hagree n n' m).mp ⟨p, hp⟩)
  · intro hnumbered n n' m
    constructor
    · rintro ⟨p, hp⟩
      exact (isSome_ofMcu?_iff n').mp (hnumbered n n' p m hp)
    · rintro ⟨p, hp⟩
      exact (isSome_ofMcu?_iff n).mp (hnumbered n' n p m hp)

namespace Accepted

variable (h : t.Accepted)
include h

theorem reaches_logical (n : Numbering) (hm : t.Reaches n m) : t.Reaches .logical m := by
  rw [reaches_logical_iff]
  cases n with
  | logical => exact reaches_logical_iff.mp hm
  | mcu => exact reaches_mcu_iff.mp hm
  | physical => exact h.physical_subset m (reaches_physical_iff.mp hm)

theorem header_subperm : (used t.physical).Subperm (used t.logical) :=
  h.physical_nodup.subperm h.physical_subset

theorem count_physical_le : t.count .physical ≤ t.count .logical := by
  simp only [count, ← length_used]
  exact h.header_subperm.length_le

theorem agrees_iff_count : t.Agrees ↔ t.count .physical = t.count .logical := by
  -- the header names no other pins and none twice, so numbers decide
  rw [agrees_iff]
  constructor
  · intro hsame
    have hperm : (used t.physical).Perm (used t.logical) :=
      (List.perm_ext_iff_of_nodup h.physical_nodup h.logical_nodup).mpr hsame
    simp only [count, ← length_used]
    exact hperm.length_eq
  · intro hcount m
    have hlen : (used t.logical).length ≤ (used t.physical).length := by
      rw [length_used, length_used]
      exact Nat.le_of_eq hcount.symm
    exact (h.header_subperm.perm_of_length_le hlen).mem_iff

end Accepted

/-- Which chip pins the numberings of a table reach. -/
structure Agreement (t : PinTable) : Prop where
  logical_mcu : ∀ m, t.Reaches .logical m ↔ t.Reaches .mcu m
  header : ∀ m, t.Reaches .physical m → t.Reaches .logical m
  /-- The header never names more pins, and if it names as many, the numberings agree. -/
  count_le : t.count .physical ≤ t.count .logical
  agrees : t.Agrees ↔ t.count .physical = t.count .logical
  /-- Then, and only then, every number can be changed for one of any other numbering. -/
  numbered : (∀ (n n' : Numbering) (p m : Nat), t.toMcu? p n = some m →
    (t.ofMcu? m n').isSome = true) ↔ t.count .physical = t.count .logical

/-- Of every table that is made from two lists, the pins that the numberings reach are the same
exactly if the lists name equally many. -/
theorem agreement_of_made {name : String} {logical physical : List Int} {t : PinTable}
    (hmade : make name (slots logical) (slots physical) = .ok t) : t.Agreement := by
  have haccepted := (make_eq_ok_iff.mp hmade).2
  exact {
    logical_mcu := fun m => reaches_logical_iff.trans reaches_mcu_iff.symm
    header := fun m hm => haccepted.reaches_logical .physical hm
    count_le := haccepted.count_physical_le
    agrees := haccepted.agrees_iff_count
    numbered := agrees_iff_numbered.symm.trans haccepted.agrees_iff_count }

def headed : PinTable := ⟨"headed", slots [4, -1, 5, 6], slots [-1, 6, 5, 4]⟩

theorem agreement_of_made_headed :
    make "headed" (slots [4, -1, 5, 6]) (slots [-1, 6, 5, 4]) = .ok headed ∧ headed.Agreement ∧
      headed.Agrees ∧ headed.ofMcu? 6 .physical = some 2 := by
  have hmade : make "headed" (slots [4, -1, 5, 6]) (slots [-1, 6, 5, 4]) = .ok headed := by
    decide +kernel
  have hagreement := agreement_of_made hmade
  exact ⟨hmade, hagreement, hagreement.agrees.mpr rfl, rfl⟩

def part : PinTable := ⟨"part", slots [3, 4], slots [-1, 3]⟩

/-- A header that lacks a pin is accepted, and the pin has no number in its numbering. -/
theorem reaches_part :
    make "part" (slots [3, 4]) (slots [-1, 3]) = .ok part ∧ part.toMcu? 1 .logical = some 4 ∧
      part.ofMcu? 4 .physical = none ∧ ¬part.Agrees := by
  refine ⟨by decide +kernel, rfl, rfl, fun hagree => ?_⟩
  have hheader : 4 ∈ used part.physical := (agrees_iff.mp hagree 4).mpr (by decide)
  exact absurd hheader (by decide)

end BoardGpio.PinTable

namespace BoardGpio.BoardRevision

/-- On the known boards all numberings agree. -/
theorem table_agrees (r : BoardRevision) : r.table.Agrees := by
  refine r.table_accepted.agrees_iff_count.mpr ?_
  cases r <;> decide +kernel

end BoardGpio.BoardRevision
