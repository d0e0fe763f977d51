import BoardGpio.Act
import BoardGpio.Register.Memory

/-!
# Register windows

A window shows a range of physical addresses as an array of registers. A window of `len` bytes has
`len / 4` registers, and touching any other is a fault. Main statements: a register reads back what
was written to it (`run_read_write_same`), and writing leaves every other register alone
(`word_setWord_ne`).
-/

set_option autoImplicit false

namespace BoardGpio

/-- A range of registers. -/
structure Window where
  /-- Physical address of the first byte. -/
  base : Nat
  /-- Length in bytes. -/
  len : Nat
  /-- The device whose memory is shown; without one the window has memory of its own. -/
  source : Option String
  /-- The memory that is shown. -/
  memory : Memory

namespace Window

def words (w : Window) : Nat := w.len / 4

/-- Number of the first register in the memory that is shown. -/
def start (w : Window) : Nat := w.base / 4

/-- Whether the window has no bytes. -/
def isEmpty (w : Window) : Bool := w.len == 0

def word (w : Window) (i : Nat) : Word := w.memory.word (w.start + i)

/-- The window with a register changed. -/
def setWord (w : Window) (i : Nat) (v : Word) : Window :=
  { w with memory := w.memory.setWord (w.start + i) v }

/-- The registers of the window that were ever written, by their number in the window. -/
def touched (w : Window) : List (Nat × Word) :=
  (w.memory.within w.start w.words).map fun (i, v) => (i - w.start, v)

def zeros (base len : Nat) (source : Option String) : Window := ⟨base, len, source, .zeros⟩

/-- Length of a page of memory. -/
def pageLen : Nat := 4096

/-- Whole pages that cover a length. -/
def pages (len : Nat) : Nat := (len + (pageLen - 1)) / pageLen

/-- Number of pages a program can address. -/
def addressablePages : Nat := 0x7ffffffff

/-- A window with memory of its own, filled with zeros. -/
def anonymous (len : Nat) : Except Error Window :=
  if len = 0 then .error (.map "<anonymous>" 0 .invalidArgument)
  else if addressablePages < pages len then .error (.map "<anonymous>" 0 .outOfMemory)
  else .ok (zeros 0 len none)

def read (i : Nat) : Act Window Word := fun w =>
  if i < w.words then (.ok (w.word i), w)
  else (.error (.fault (.outsideWindow i w.len)), w)

def write (i : Nat) (v : Word) : Act Window Unit := fun w =>
  if i < w.words then (.ok (), w.setWord i v)
  else (.error (.fault (.outsideWindow i w.len)), w)

/-- Replaces a register by a function of its value, and returns the new value. -/
def modify (i : Nat) (f : Word → Word) : Act Window Word := do
  let old ← read i
  write i (f old)
  pure (f old)

@[simp] theorem words_setWord (w : Window) (i : Nat) (v : Word) :
    (w.setWord i v).words = w.words := rfl

@[simp] theorem len_setWord (w : Window) (i : Nat) (v : Word) :
    (w.setWord i v).len = w.len := rfl

@[simp] theorem word_setWord_same (w : Window) (i : Nat) (v : Word) :
    (w.setWord i v).word i = v :=
  w.memory.word_setWord_same (w.start + i) v

@[simp] theorem word_setWord_ne (w : Window) {i j : Nat} (v : Word) (h : i ≠ j) :
    (w.setWord i v).word j = w.word j :=
  w.memory.word_setWord_ne v (by omega : w.start + i ≠ w.start + j)

@[simp] theorem setWord_setWord (w : Window) (i : Nat) (u v : Word) :
    (w.setWord i u).setWord i v = w.setWord i v := by
  simp [setWord, start]

theorem run_read {w : Window} {i : Nat} (h : i < w.words) :
    (read i).run w = (.ok (w.word i), w) := by
  simp [Act.run, read, h]

theorem run_write {w : Window} {i : Nat} (v : Word) (h : i < w.words) :
    (write i v).run w = (.ok (), w.setWord i v) := by
  simp [Act.run, write, h]

theorem run_modify {w : Window} {i : Nat} (f : Word → Word) (h : i < w.words) :
    (modify i f).run w = (.ok (f (w.word i)), w.setWord i (f (w.word i))) := by
  rw [modify, Act.run_bind_ok _ (run_read h), Act.run_bind_ok _ (run_write _ h)]
  rfl

/-- A register reads back what was written to it. -/
theorem run_read_write_same {w : Window} {i : Nat} (v : Word) (h : i < w.words) :
    (read i).run (w.setWord i v) = (.ok v, w.setWord i v) := by
  rw [run_read (by simpa using h), word_setWord_same w i v]

end Window

end BoardGpio
