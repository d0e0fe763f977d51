import BoardGpio.Ascending
import BoardGpio.Register.Word

/-!
# Memory

Registers by number, of which only those that were ever written take room. Main statements: a
register reads back what was written to it (`word_setWord_same`), writing leaves every other
register alone (`word_setWord_ne`), and replacing a range of registers changes that range only
(`word_splice`).
-/

set_option autoImplicit false

namespace BoardGpio

/-- Registers by number; those not listed are zero. -/
structure Memory where
  listed : Ascending Nat Word := []

namespace Memory

def zeros : Memory := {}

def word (m : Memory) (i : Nat) : Word := (m.listed.get? i).getD 0

/-- The memory with a register changed. -/
def setWord (m : Memory) (i : Nat) (v : Word) : Memory := ⟨m.listed.put i v⟩

/-- The registers listed from number `start` on, below number `start + count`. -/
def within (m : Memory) (start count : Nat) : Ascending Nat Word :=
  m.listed.filter fun x => decide (start ≤ x.1 ∧ x.1 < start + count)

/-- The memory with `count` registers from number `start` on taken from other memory. -/
def splice (m : Memory) (start count : Nat) (other : Memory) : Memory where
  listed :=
    m.listed.filter (fun x => decide (x.1 < start)) ++
      (other.within start count ++ m.listed.filter (fun x => decide (start + count ≤ x.1)))

/-- The registers that differ from what they were before, ascending. -/
def changesSince (m before : Memory) : List (Nat × Word) :=
  (m.listed.foldl (fun (l : Memory) x => l.setWord x.1 x.2) before).listed.filterMap fun x =>
    if before.word x.1 = m.word x.1 then none else some (x.1, m.word x.1)

@[simp] theorem word_zeros (i : Nat) : zeros.word i = 0 := rfl

@[simp] theorem word_setWord_same (m : Memory) (i : Nat) (v : Word) :
    (m.setWord i v).word i = v := by
  simp [word, setWord]

@[simp] theorem word_setWord_ne (m : Memory) {i j : Nat} (v : Word) (h : i ≠ j) :
    (m.setWord i v).word j = m.word j := by
  simp [word, setWord, h]

@[simp] theorem setWord_setWord (m : Memory) (i : Nat) (v w : Word) :
    (m.setWord i v).setWord i w = m.setWord i w := by
  simp [setWord]

/-- Replacing a range of registers changes that range only. -/
theorem word_splice (m : Memory) (start count : Nat) (other : Memory) (i : Nat) :
    (m.splice start count other).word i =
      if start ≤ i ∧ i < start + count then other.word i else m.word i := by
  simp only [word, splice, within, Ascending.get?_append,
    Ascending.get?_filter i (fun k => decide (k < start)),
    Ascending.get?_filter i (fun k => decide (start ≤ k ∧ k < start + count)),
    Ascending.get?_filter i (fun k => decide (start + count ≤ k)), decide_eq_true_eq]
  by_cases hlow : i < start
  · have hr : ¬(start ≤ i ∧ i < start + count) := by omega
    have hh : ¬start + count ≤ i := by omega
    simp [hlow, hr, hh]
  · by_cases hhigh : start + count ≤ i
    · have hr : ¬(start ≤ i ∧ i < start + count) := by omega
      simp [hlow, hhigh, hr]
    · have hr : start ≤ i ∧ i < start + count := by omega
      simp [hlow, hhigh, hr]

end Memory

end BoardGpio
