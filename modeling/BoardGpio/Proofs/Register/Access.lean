import BoardGpio.Register.Window

/-!
# Access to a window, inside and outside

What reading, writing and changing a register do to a window of any length: inside the window they
go well and change at most that register, outside they are a fault and change nothing. What a change
may touch is told bit by bit (`OnlyIn`).
-/

set_option autoImplicit false

namespace BoardGpio.Window

/-- The fault of touching a register outside the window. -/
def outside (w : Window) (i : Nat) : Failure := .fault (.outsideWindow i w.len)

/-- Reading changes nothing, inside the window or outside. -/
theorem run_read_eq (w : Window) (i : Nat) :
    (read i).run w = (if i < w.words then .ok (w.word i) else .error (w.outside i), w) := by
  by_cases h : i < w.words
  · rw [run_read h, if_pos h]
  · simp [Act.run, read, h, outside]

/-- Writing changes the register inside the window and nothing outside. -/
theorem run_write_eq (w : Window) (i : Nat) (v : Word) :
    (write i v).run w =
      if i < w.words then (.ok (), w.setWord i v) else (.error (w.outside i), w) := by
  by_cases h : i < w.words
  · rw [run_write v h, if_pos h]
  · simp [Act.run, write, h, outside]

/-- Changing a register changes it inside the window and nothing outside. -/
theorem run_modify_eq (w : Window) (i : Nat) (f : Word → Word) :
    (modify i f).run w =
      if i < w.words then (.ok (f (w.word i)), w.setWord i (f (w.word i)))
      else (.error (w.outside i), w) := by
  by_cases h : i < w.words
  · rw [run_modify f h, if_pos h]
  · have hr : (read i).run w = (.error (w.outside i), w) := by
      rw [run_read_eq, if_neg h]
    rw [if_neg h, modify, Act.run_bind_error _ hr]

/-- What a window shows in a register after another one was changed, or after the register itself
was. -/
theorem word_setWord (w : Window) (i j : Nat) (v : Word) :
    (w.setWord i v).word j = if i = j then v else w.word j := by
  by_cases h : i = j
  · subst h
    simp
  · simp [h]

/-- The window shows the same registers, of the same memory. -/
structure Same (w w' : Window) : Prop where
  base : w'.base = w.base
  len : w'.len = w.len
  source : w'.source = w.source
  words : ∀ i, w'.word i = w.word i

theorem Same.refl (w : Window) : Same w w := ⟨rfl, rfl, rfl, fun _ => rfl⟩

/-- At most bits `k` of registers `i` with `covers i k` have changed. -/
structure OnlyIn (covers : Nat → Nat → Prop) (w w' : Window) : Prop where
  base : w'.base = w.base
  len : w'.len = w.len
  source : w'.source = w.source
  bits : ∀ i k, ¬covers i k → (w'.word i).getLsbD k = (w.word i).getLsbD k

theorem OnlyIn.refl (covers : Nat → Nat → Prop) (w : Window) : OnlyIn covers w w :=
  ⟨rfl, rfl, rfl, fun _ _ _ => rfl⟩

theorem OnlyIn.trans {covers : Nat → Nat → Prop} {w w' w'' : Window} (h : OnlyIn covers w w')
    (h' : OnlyIn covers w' w'') : OnlyIn covers w w'' :=
  ⟨h'.base.trans h.base, h'.len.trans h.len, h'.source.trans h.source, fun i k hk =>
    (h'.bits i k hk).trans (h.bits i k hk)⟩

/-- Changing a register changes at most the bits in which its new value is another. -/
theorem OnlyIn.setWord {covers : Nat → Nat → Prop} (w : Window) {j : Nat} {v : Word}
    (hv : ∀ k, ¬covers j k → v.getLsbD k = (w.word j).getLsbD k) :
    OnlyIn covers w (w.setWord j v) := by
  refine ⟨rfl, rfl, rfl, fun i k hk => ?_⟩
  rw [word_setWord]
  by_cases hij : j = i
  · subst hij
    rw [if_pos rfl, hv k hk]
  · rw [if_neg hij]

/-- Writing a field changes at most the bits of the field. -/
theorem OnlyIn.setField {covers : Nat → Nat → Prop} (w : Window) {j shift width n : Nat}
    (hn : n < 1 <<< width) (hcovers : ∀ k, shift ≤ k → k < shift + width → covers j k) :
    OnlyIn covers w (w.setWord j ((w.word j).setField shift width n)) := by
  refine OnlyIn.setWord w fun k hk => Word.getLsbD_setField_outside _ _ _ _ _ hn ?_
  have hout : ¬(shift ≤ k ∧ k < shift + width) := fun h => hk (hcovers k h.1 h.2)
  omega

end BoardGpio.Window
