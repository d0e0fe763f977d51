import BoardGpio.PinSet

/-!
# Sets made of lists

A set lists its pins in ascending order. A list of pins becomes a set if all of them fit; otherwise
the first that does not fit is the one that is reported (`insertAll?_overflow`), and there is no
smaller set in its place.
-/

set_option autoImplicit false

namespace BoardGpio.PinSet

variable {s t : PinSet} {pins : List Nat}

theorem ascending_toList (s : PinSet) : s.toList.Pairwise (· < ·) :=
  List.pairwise_lt_range.filter _

theorem isEmpty_eq_true_iff : s.isEmpty = true ↔ s = .empty := by
  obtain ⟨bits⟩ := s
  simp [isEmpty, empty]

theorem contains_insertAll? (h : s.insertAll? pins = .ok t) (q : Nat) :
    t.contains q = true ↔ s.contains q = true ∨ q ∈ pins := by
  induction pins generalizing s with
  | nil =>
    cases h
    simp
  | cons pin pins ih =>
    rw [insertAll?] at h
    cases hinsert : s.insert? pin with
    | error e =>
      rw [hinsert] at h
      cases h
    | ok u =>
      rw [hinsert] at h
      have hrest : u.insertAll? pins = .ok t := h
      rw [ih hrest, contains_insert? hinsert, List.mem_cons, Bool.or_eq_true, decide_eq_true_eq,
        or_assoc]

theorem exists_insert? (s : PinSet) {pin : Nat} (hpin : pin < capacity) :
    ∃ t, s.insert? pin = .ok t := by
  cases hinsert : s.insert? pin with
  | ok t => exact ⟨t, rfl⟩
  | error e =>
    have hlarge := (insert?_eq_error_iff.mp hinsert).1
    omega

theorem exists_insertAll? (s : PinSet) (hpins : ∀ p ∈ pins, p < capacity) :
    ∃ t, s.insertAll? pins = .ok t := by
  induction pins generalizing s with
  | nil => exact ⟨s, rfl⟩
  | cons pin pins ih =>
    obtain ⟨u, hinsert⟩ := s.exists_insert? (hpins pin List.mem_cons_self)
    rw [insertAll?, hinsert]
    exact ih u fun p hp => hpins p (List.mem_cons_of_mem _ hp)

/-- The first pin that does not fit is reported. -/
theorem insertAll?_overflow (s : PinSet) {before after : List Nat} {pin : Nat}
    (hbefore : ∀ p ∈ before, p < capacity) (hpin : capacity ≤ pin) :
    s.insertAll? (before ++ pin :: after) = .error (.maskOverflow pin capacity) := by
  induction before generalizing s with
  | nil =>
    have hinsert : s.insert? pin = .error (.maskOverflow pin capacity) :=
      insert?_eq_error_iff.mpr ⟨hpin, rfl⟩
    rw [List.nil_append, insertAll?, hinsert]
    rfl
  | cons p before ih =>
    obtain ⟨u, hinsert⟩ := s.exists_insert? (hbefore p List.mem_cons_self)
    rw [List.cons_append, insertAll?, hinsert]
    exact ih u fun q hq => hbefore q (List.mem_cons_of_mem _ hq)

end BoardGpio.PinSet
