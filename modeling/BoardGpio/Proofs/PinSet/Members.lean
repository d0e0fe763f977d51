import BoardGpio.PinSet.Edit
import BoardGpio.Proofs.Act.Invariant
import BoardGpio.Proofs.PinSet.Iteration
import Mathlib.Data.Set.Operations

/-!
# Sets of pins as sets of numbers

A set of pins stands for the set of its members (`members`). Every operation does to the word what
its namesake does to the members, and a pin that does not fit changes nothing
(`run_attempt_perform`); so a run of operations leaves the set that the set expression of the same
shape stands for (`run_edit`). With what iteration yields, this is all there is to know about a set
of pins (`represents`).
-/

set_option autoImplicit false

namespace BoardGpio.PinSet

/-- The pins of a set. -/
def members (s : PinSet) : Set Nat := {pin | s.contains pin = true}

theorem mem_members {s : PinSet} {pin : Nat} : pin ∈ s.members ↔ s.contains pin = true := Iff.rfl

namespace Edit

/-- What an operation is answered with. -/
def answer : Edit → Except Error Unit
  | insert pin => if pin < capacity then .ok () else .error (.maskOverflow pin capacity)
  | insertCopy pin => if pin < capacity then .ok () else .error (.maskOverflow pin capacity)
  | _ => .ok ()

/-- What an operation makes of a set of numbers. -/
def result (pins : Set Nat) : Edit → Set Nat
  | insert pin => if pin < capacity then pins ∪ {pin} else pins
  | insertCopy pin => if pin < capacity then pins ∪ {pin} else pins
  | erase pin => pins \ {pin}
  | union t => pins ∪ t.members
  | inter t => pins ∩ t.members
  | symmDiff t => (pins \ t.members) ∪ (t.members \ pins)

end Edit

/-! ## One operation -/

/-- Putting a pin into the set in place leaves what putting it into a copy gives. -/
theorem run_tryInsert {s t : PinSet} {pin : Nat} (h : s.insert? pin = .ok t) :
    (tryInsert pin).run s = (.ok (), t) := by
  unfold insert? at h
  split at h
  · rename_i hpin
    cases h
    rw [tryInsert, if_pos hpin]
    rfl
  · cases h

/-- A pin that does not fit leaves the set as it is. -/
theorem run_tryInsert_overflow (s : PinSet) {pin : Nat} (h : capacity ≤ pin) :
    (tryInsert pin).run s = (.error (.error (.maskOverflow pin capacity)), s) := by
  rw [tryInsert, if_neg (by omega)]
  rfl

theorem members_insert? {s t : PinSet} {pin : Nat} (h : s.insert? pin = .ok t) :
    t.members = s.members ∪ {pin} := by
  ext q
  simp [mem_members, contains_insert? h, or_comm]

/-- Putting a pin into a copy and taking the copy's place is the same as putting it in place. -/
theorem run_insertCopy (s : PinSet) (pin : Nat) :
    (Edit.insertCopy pin).perform.run s = (tryInsert pin).run s := by
  rw [Edit.perform, Act.run_bind_ok _ (Act.run_gets _ s)]
  by_cases hpin : pin < capacity
  · obtain ⟨t, ht⟩ := s.exists_insert? hpin
    rw [run_tryInsert ht, ht, Act.run_bind_ok _ (Act.run_lift_ok t s), Act.run_modify]
  · have hrefused : s.insert? pin = .error (.maskOverflow pin capacity) :=
      insert?_eq_error_iff.mpr ⟨by omega, rfl⟩
    rw [run_tryInsert_overflow s (by omega), hrefused]
    exact Act.run_bind_error _ (Act.run_lift_error _ s)

theorem run_attempt_tryInsert (s : PinSet) (pin : Nat) :
    ∃ t, (Act.attempt (tryInsert pin)).run s = (.ok (Edit.insert pin).answer, t) ∧
      t.members = (Edit.insert pin).result s.members := by
  rw [Act.run_attempt, Edit.answer, Edit.result]
  by_cases hpin : pin < capacity
  · obtain ⟨t, ht⟩ := s.exists_insert? hpin
    rw [run_tryInsert ht, if_pos hpin, if_pos hpin]
    exact ⟨t, rfl, members_insert? ht⟩
  · rw [run_tryInsert_overflow s (by omega), if_neg hpin, if_neg hpin]
    exact ⟨s, rfl, rfl⟩

/-- One operation is answered as it should be and does to the members what it stands for. -/
theorem run_attempt_perform (s : PinSet) (e : Edit) :
    ∃ t, (Act.attempt e.perform).run s = (.ok e.answer, t) ∧ t.members = e.result s.members := by
  cases e with
  | insert pin => exact run_attempt_tryInsert s pin
  | insertCopy pin =>
    rw [Act.run_attempt, run_insertCopy, ← Act.run_attempt]
    exact run_attempt_tryInsert s pin
  | erase pin =>
    refine ⟨s.erase pin, rfl, ?_⟩
    ext q
    simp [Edit.result, mem_members]
  | union t =>
    refine ⟨s.union t, rfl, ?_⟩
    ext q
    simp [Edit.result, mem_members]
  | inter t =>
    refine ⟨s.inter t, rfl, ?_⟩
    ext q
    simp [Edit.result, mem_members]
  | symmDiff t =>
    refine ⟨s.symmDiff t, rfl, ?_⟩
    ext q
    cases hs : s.contains q <;> cases ht : t.contains q <;>
      simp [Edit.result, mem_members, hs, ht]

/-! ## Runs of operations -/

/-- A run of operations leaves the set that the same run on sets of numbers comes to. -/
theorem run_edit (s : PinSet) (edits : List Edit) :
    ∃ t, (edit edits).run s = (.ok (edits.map Edit.answer), t) ∧
      t.members = edits.foldl Edit.result s.members := by
  induction edits generalizing s with
  | nil => exact ⟨s, rfl, rfl⟩
  | cons e edits ih =>
    obtain ⟨u, hfirst, hu⟩ := run_attempt_perform s e
    obtain ⟨t, hrest, ht⟩ := ih u
    refine ⟨t, ?_, ?_⟩
    · rw [edit, Act.collect, Act.run_bind_ok _ hfirst]
      exact Act.run_bind_ok _ hrest
    · rw [ht, hu, List.foldl_cons]

/-! ## Sets made of lists -/

theorem ofList?_of_fits {pins : List Nat} (hpins : ∀ p ∈ pins, p < capacity) :
    ∃ t, ofList? pins = .ok t ∧ t.members = {p | p ∈ pins} := by
  obtain ⟨t, ht⟩ := empty.exists_insertAll? hpins
  refine ⟨t, ht, ?_⟩
  ext q
  simp [mem_members, contains_insertAll? ht]

/-- A set of pins is a finite set of numbers below the capacity. Runs of operations leave what the
set expression of the same shape stands for, and a pin that does not fit is refused and leaves the
set as it is. A list makes a set exactly if all of its pins fit; otherwise the first that does not
is reported. Iteration yields the members in ascending order, each step the next of them; the number
of bits set after any number of steps is the number of pins still to come; and the pins that are
yielded make up the set again. -/
theorem represents :
    (∀ (s : PinSet) (edits : List Edit), ∃ t,
        (edit edits).run s = (.ok (edits.map Edit.answer), t) ∧
          t.members = edits.foldl Edit.result s.members) ∧
      (∀ (s : PinSet) (pin : Nat), capacity ≤ pin →
        (tryInsert pin).run s = (.error (.error (.maskOverflow pin capacity)), s)) ∧
      (∀ pins : List Nat, (∀ p ∈ pins, p < capacity) →
        ∃ t, ofList? pins = .ok t ∧ t.members = {p | p ∈ pins}) ∧
      (∀ (before after : List Nat) (pin : Nat), (∀ p ∈ before, p < capacity) → capacity ≤ pin →
        ofList? (before ++ pin :: after) = .error (.maskOverflow pin capacity)) ∧
      ∀ s : PinSet,
        s.toList.Pairwise (· < ·) ∧ (∀ pin, pin ∈ s.toList ↔ pin ∈ s.members) ∧
          (∀ pin ∈ s.members, pin < capacity) ∧
          (∀ n, (s.advance n).next?.map Prod.fst = s.toList[n]? ∧
            (s.advance n).toList = s.toList.drop n ∧
            (s.advance n).size = (s.toList.drop n).length) ∧
          s.size = s.toList.length ∧ ofList? s.toList = .ok s := by
  refine ⟨run_edit, fun s pin => run_tryInsert_overflow s, fun pins => ofList?_of_fits, ?_, ?_⟩
  · intro before after pin hbefore hpin
    exact empty.insertAll?_overflow hbefore hpin
  · intro s
    refine ⟨s.ascending_toList, fun pin => mem_toList, fun pin => contains_lt, ?_,
      s.size_eq_length, s.ofList?_toList⟩
    intro n
    refine ⟨s.map_next?_advance n, s.toList_advance n, ?_⟩
    rw [size_eq_length, toList_advance]

/-- The greatest pin that fits stays in a set; the next number is refused wherever it is met. -/
theorem represents_greatest :
    (∃ t, (edit [.insert 127, .insertCopy 0, .insert 128, .erase 0]).run empty =
        (.ok [.ok (), .ok (), .error (.maskOverflow 128 capacity), .ok ()], t) ∧
          t.members = {127}) ∧
      (tryInsert 128).run empty = (.error (.error (.maskOverflow 128 capacity)), empty) ∧
      (∃ t, ofList? [127, 0, 127] = .ok t ∧ t.members = {p | p ∈ [127, 0, 127]}) ∧
      ofList? [3, 128, 500] = .error (.maskOverflow 128 capacity) ∧
      ((advance ⟨BitVec.twoPow 128 127 ||| 1⟩ 1).next?.map Prod.fst = some 127 ∧
        (advance ⟨BitVec.twoPow 128 127 ||| 1⟩ 1).size = 1) := by
  obtain ⟨hedits, hrefused, hfits, hoverflow, hpins⟩ := represents
  have hlist : toList ⟨BitVec.twoPow 128 127 ||| 1⟩ = [0, 127] := by decide +kernel
  refine ⟨?_, hrefused empty 128 (by decide), hfits [127, 0, 127] (by decide),
    hoverflow [3] [500] 128 (by decide) (by decide), ?_⟩
  · obtain ⟨t, hrun, ht⟩ := hedits empty [.insert 127, .insertCopy 0, .insert 128, .erase 0]
    refine ⟨t, hrun, ?_⟩
    rw [ht]
    ext q
    simp [Edit.result, capacity, mem_members]
  · obtain ⟨-, -, -, hsteps, -⟩ := hpins ⟨BitVec.twoPow 128 127 ||| 1⟩
    obtain ⟨hnext, -, hsize⟩ := hsteps 1
    rw [hnext, hsize, hlist]
    exact ⟨rfl, rfl⟩

end BoardGpio.PinSet
