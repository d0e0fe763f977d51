import BoardGpio.Backend.H3
import BoardGpio.Proofs.Backend.Restorable
import BoardGpio.Proofs.Register.Access
import BoardGpio.Proofs.Register.Field

/-!
# What H3 pins show

Pins are numbered through the banks, so a place belongs to one pin (`place_injective`). Within a
window the banks follow one another without overlap, and within a bank the function fields, the data
bits and the pull fields are in different registers. Hence every pin can be brought back to what it
showed (`restorable`). Setting a pull takes two changes of its register; the first cannot go well
and the second fail.
-/

set_option autoImplicit false

namespace BoardGpio.H3

open Backend

/-- The pins before a bank and the place in the bank make up the number of a pin. -/
theorem placeFrom_eq {bank pin : Nat} {sizes : List Nat} {p : Place}
    (h : placeFrom? bank sizes pin = some p) :
    bank ≤ p.bank ∧ p.bank < bank + sizes.length ∧
      pin = (sizes.take (p.bank - bank)).foldr (· + ·) 0 + p.offset ∧
        ∃ size ∈ sizes, p.offset < size := by
  induction sizes generalizing bank pin with
  | nil => simp [placeFrom?] at h
  | cons size sizes ih =>
    unfold placeFrom? at h
    by_cases hpin : pin < size
    · rw [if_pos hpin] at h
      cases h
      refine ⟨Nat.le_refl _, by simp, by simp, size, by simp, hpin⟩
    · rw [if_neg hpin] at h
      obtain ⟨hlo, hhi, hsum, s, hs, hlt⟩ := ih h
      have htake : p.bank - bank = (p.bank - (bank + 1)) + 1 := by omega
      refine ⟨by omega, by rw [List.length_cons]; omega, ?_, s, List.mem_cons_of_mem _ hs, hlt⟩
      rw [htake, List.take_succ_cons, List.foldr_cons]
      omega

/-- There are eight banks, and none has more than 22 pins. -/
theorem place_bounds {pin : Nat} {p : Place} (h : place? pin = some p) :
    p.bank < 8 ∧ p.offset < 22 := by
  obtain ⟨-, hbank, -, size, hsize, hoff⟩ := placeFrom_eq h
  have hmax : ∀ s ∈ bankSizes, s ≤ 22 := by decide
  have hlen : bankSizes.length = 8 := rfl
  have := hmax size hsize
  omega

theorem place_injective {pin q : Nat} {p : Place} (h : place? pin = some p)
    (h' : place? q = some p) : pin = q := by
  rw [(placeFrom_eq h).2.2.1, (placeFrom_eq h').2.2.1]

namespace Place

/-- Whether a place is in the block of banks A to G. -/
def low (p : Place) : Bool := decide (p.bank < bankL)

theorem firstWord_low {p : Place} (h : p.bank < 7) : p.firstWord = 512 + 9 * p.bank := by
  rw [firstWord, if_pos (by exact h)]
  omega

theorem firstWord_high {p : Place} (h : ¬p.bank < 7) : p.firstWord = 768 := by
  rw [firstWord, if_neg (by exact h)]

/-- Different banks of a block are nine registers apart at least. -/
theorem firstWord_apart {p q : Place} (hp : p.bank < 8) (hq : q.bank < 8) (hlow : p.low = q.low) :
    p.bank = q.bank ∧ p.firstWord = q.firstWord ∨
      p.firstWord + 9 ≤ q.firstWord ∨ q.firstWord + 9 ≤ p.firstWord := by
  have hiff : p.bank < 7 ↔ q.bank < 7 := decide_eq_decide.mp hlow
  by_cases h : p.bank < 7
  · have h' : q.bank < 7 := hiff.mp h
    rw [firstWord_low h, firstWord_low h']
    omega
  · have h' : ¬q.bank < 7 := fun hq => h (hiff.mpr hq)
    rw [firstWord_high h, firstWord_high h']
    omega

end Place

def window (h : H3) : Bool → Window
  | true => h.pio
  | false => h.rPio

/-- The backend with a register of one of its windows changed. -/
def put (h : H3) (low : Bool) (i : Nat) (v : Word) : H3 :=
  match low with
  | true => { h with pio := h.pio.setWord i v }
  | false => { h with rPio := h.rPio.setWord i v }

@[simp] theorem words_window_put (h : H3) (low other : Bool) (i : Nat) (v : Word) :
    ((h.put low i v).window other).words = (h.window other).words := by
  cases low <;> cases other <;> rfl

@[simp] theorem outside_window_put (h : H3) (low other : Bool) (i j : Nat) (v : Word) :
    ((h.put low i v).window other).outside j = (h.window other).outside j := by
  cases low <;> cases other <;> rfl

theorem word_window_put (h : H3) (low other : Bool) (i j : Nat) (v : Word) :
    ((h.put low i v).window other).word j =
      if low = other ∧ i = j then v else (h.window other).word j := by
  cases low <;> cases other <;> simp [put, window, Window.word_setWord]

@[simp] theorem word_window_put_same (h : H3) (low : Bool) (i : Nat) (v : Word) :
    ((h.put low i v).window low).word i = v := by
  rw [word_window_put, if_pos ⟨rfl, rfl⟩]

theorem run_readWord (h : H3) (p : Place) (i : Nat) :
    (onWindow p (Window.read i)).run h =
      (if i < (h.window p.low).words then .ok ((h.window p.low).word i)
        else .error ((h.window p.low).outside i), h) := by
  by_cases hb : p.bank < bankL
  · have hlow : p.low = true := decide_eq_true hb
    rw [onWindow, if_pos hb, Act.run_within, Window.run_read_eq, hlow]
    rfl
  · have hhigh : p.low = false := decide_eq_false hb
    rw [onWindow, if_neg hb, Act.run_within, Window.run_read_eq, hhigh]
    rfl

theorem run_modifyWord (h : H3) (p : Place) (i : Nat) (f : Word → Word) :
    (onWindow p (Window.modify i f)).run h =
      if i < (h.window p.low).words then
        (.ok (f ((h.window p.low).word i)), h.put p.low i (f ((h.window p.low).word i)))
      else (.error ((h.window p.low).outside i), h) := by
  by_cases hb : p.bank < bankL
  · have hlow : p.low = true := decide_eq_true hb
    rw [onWindow, if_pos hb, Act.run_within, Window.run_modify_eq, hlow]
    simp only [window, put]
    by_cases hi : i < h.pio.words <;> simp [hi]
  · have hhigh : p.low = false := decide_eq_false hb
    rw [onWindow, if_neg hb, Act.run_within, Window.run_modify_eq, hhigh]
    simp only [window, put]
    by_cases hi : i < h.rPio.words <;> simp [hi]

/-- What is done at the place of a pin is refused for a pin that has none. -/
theorem run_locate {α : Type} (h : H3) (pin : Nat) (f : Place → Act H3 α) :
    (locate pin >>= f).run h = match place? pin with
      | some p => (f p).run h
      | none => (.error (.error (noSuchPin pin)), h) := by
  unfold locate
  cases place? pin <;> rfl

theorem run_mode (h : H3) (pin : Nat) :
    (Backend.mode pin : Act H3 Mode).run h = match place? pin with
      | some p =>
        (if p.functionSlot.1 < (h.window p.low).words then
          .ok (functionMode (((h.window p.low).word p.functionSlot.1).field p.functionSlot.2 4))
        else .error ((h.window p.low).outside p.functionSlot.1), h)
      | none => (.error (.error (noSuchPin pin)), h) := by
  show (mode pin).run h = _
  rw [mode, run_locate]
  cases place? pin with
  | none => rfl
  | some p =>
    simp only
    rw [Act.run_bind, run_readWord]
    by_cases hw : p.functionSlot.1 < (h.window p.low).words <;> simp [hw]

theorem run_pull (h : H3) (pin : Nat) :
    (Backend.pull pin : Act H3 (Option Pull)).run h = match place? pin with
      | some p =>
        (if p.pullSlot.1 < (h.window p.low).words then
          .ok (some (pullOfCode (((h.window p.low).word p.pullSlot.1).field p.pullSlot.2 2)))
        else .error ((h.window p.low).outside p.pullSlot.1), h)
      | none => (.error (.error (noSuchPin pin)), h) := by
  show (pull pin).run h = _
  rw [pull, run_locate]
  cases place? pin with
  | none => rfl
  | some p =>
    simp only
    rw [Act.run_bind, run_readWord]
    by_cases hw : p.pullSlot.1 < (h.window p.low).words <;> simp [hw]

/-- Switching a pin is refused or a fault, or writes the code of the mode into the pin's field. -/
theorem run_setMode (h : H3) (pin : Nat) (m : Mode) :
    (Backend.setMode pin m : Act H3 Unit).run h = match place? pin with
      | some p =>
        match functionCode? pin m with
        | some c =>
          if p.functionSlot.1 < (h.window p.low).words then
            (.ok (), h.put p.low p.functionSlot.1
              (((h.window p.low).word p.functionSlot.1).setField p.functionSlot.2 4 c))
          else (.error ((h.window p.low).outside p.functionSlot.1), h)
        | none => (.error (.error (.unsupportedMode pin m)), h)
      | none => (.error (.error (noSuchPin pin)), h) := by
  show (setMode pin m).run h = _
  rw [setMode, run_locate]
  cases place? pin with
  | none => rfl
  | some p =>
    simp only
    cases functionCode? pin m with
    | none => rfl
    | some c =>
      simp only
      rw [Act.run_bind, run_modifyWord]
      by_cases hw : p.functionSlot.1 < (h.window p.low).words <;> simp [hw]

/-- Setting a pull changes the register twice, or not at all. -/
theorem run_setPull (h : H3) (pin : Nat) (u : Pull) :
    (Backend.setPull pin u : Act H3 Unit).run h = match place? pin with
      | some p =>
        if p.pullSlot.1 < (h.window p.low).words then
          (.ok (), (h.put p.low p.pullSlot.1
              (((h.window p.low).word p.pullSlot.1).setField p.pullSlot.2 2 0)).put
            p.low p.pullSlot.1
              (((h.window p.low).word p.pullSlot.1).setField p.pullSlot.2 2 (pullCode u)))
        else (.error ((h.window p.low).outside p.pullSlot.1), h)
      | none => (.error (.error (noSuchPin pin)), h) := by
  show (setPull pin u).run h = _
  rw [setPull, run_locate]
  cases place? pin with
  | none => rfl
  | some p =>
    simp only
    rw [Act.run_bind, run_modifyWord]
    by_cases hw : p.pullSlot.1 < (h.window p.low).words
    · simp only [hw, if_true]
      rw [Act.run_bind, run_modifyWord]
      simp only [words_window_put, hw, if_true, word_window_put_same, Word.setField_zero_or]
      rfl
    · simp only [hw, if_false]

/-- A pin shows a mode exactly if it has a place whose function field is in its window. -/
theorem modeOf_eq_ok_iff {h : H3} {pin : Nat} {m : Mode} :
    modeOf h pin = .ok m ↔ ∃ p, place? pin = some p ∧
      p.functionSlot.1 < (h.window p.low).words ∧
        functionMode (((h.window p.low).word p.functionSlot.1).field p.functionSlot.2 4) = m := by
  rw [modeOf, run_mode]
  cases place? pin with
  | none => simp
  | some p => by_cases hw : p.functionSlot.1 < (h.window p.low).words <;> simp [hw]

theorem pullOf_eq_ok_iff {h : H3} {pin : Nat} {u : Option Pull} :
    pullOf h pin = .ok u ↔ ∃ p, place? pin = some p ∧ p.pullSlot.1 < (h.window p.low).words ∧
      some (pullOfCode (((h.window p.low).word p.pullSlot.1).field p.pullSlot.2 2)) = u := by
  rw [pullOf, run_pull]
  cases place? pin with
  | none => simp
  | some p => by_cases hw : p.pullSlot.1 < (h.window p.low).words <;> simp [hw]

theorem functionCode_lt {pin : Nat} {m : Mode} {c : Nat} (h : functionCode? pin m = some c) :
    c < 1 <<< 4 := by
  cases m <;> simp [functionCode?, parkedCode] at h
  case pwm => obtain ⟨-, rfl⟩ := h; decide
  all_goals subst h; decide

theorem pullCode_lt (u : Pull) : pullCode u < 1 <<< 2 := by
  cases u <;> decide

/-- The modes that function fields show are those that have a code on every pin. -/
theorem code_of_functionMode (pin n : Nat) :
    ∃ c, functionCode? pin (functionMode n) = some c ∧ functionMode c = functionMode n := by
  unfold functionMode
  split <;> exact ⟨_, rfl, rfl⟩

/-- Changing a register changes the mode of those pins only whose function field it changes. -/
theorem modeOf_put (h : H3) (low : Bool) (i : Nat) (v : Word) (q : Nat)
    (hq : ∀ p, place? q = some p → low = p.low → i = p.functionSlot.1 →
      v.field p.functionSlot.2 4 = ((h.window low).word i).field p.functionSlot.2 4) :
    modeOf (h.put low i v) q = modeOf h q := by
  rw [modeOf, modeOf, run_mode, run_mode]
  cases hp : place? q with
  | none => rfl
  | some p =>
    simp only [words_window_put, outside_window_put, word_window_put]
    by_cases hi : low = p.low ∧ i = p.functionSlot.1
    · rw [if_pos hi, hq p hp hi.1 hi.2, hi.1, hi.2]
    · rw [if_neg hi]

theorem pullOf_put (h : H3) (low : Bool) (i : Nat) (v : Word) (q : Nat)
    (hq : ∀ p, place? q = some p → low = p.low → i = p.pullSlot.1 →
      v.field p.pullSlot.2 2 = ((h.window low).word i).field p.pullSlot.2 2) :
    pullOf (h.put low i v) q = pullOf h q := by
  rw [pullOf, pullOf, run_pull, run_pull]
  cases hp : place? q with
  | none => rfl
  | some p =>
    simp only [words_window_put, outside_window_put, word_window_put]
    by_cases hi : low = p.low ∧ i = p.pullSlot.1
    · rw [if_pos hi, hq p hp hi.1 hi.2, hi.1, hi.2]
    · rw [if_neg hi]

theorem modeOf_put_same {h : H3} {pin c : Nat} {p : Place} (hp : place? pin = some p)
    (hw : p.functionSlot.1 < (h.window p.low).words) (hc : c < 1 <<< 4) :
    modeOf (h.put p.low p.functionSlot.1
      (((h.window p.low).word p.functionSlot.1).setField p.functionSlot.2 4 c)) pin =
      .ok (functionMode c) := by
  have hfit : p.functionSlot.2 + 4 ≤ 32 := by
    show p.offset % 8 * 4 + 4 ≤ 32
    omega
  rw [modeOf, run_mode, hp]
  simp only [words_window_put, if_pos hw, word_window_put_same]
  rw [Word.field_setField_same _ _ _ _ hc hfit]

theorem pullOf_put_same {h : H3} {pin : Nat} {p : Place} (w : Word) (hp : place? pin = some p)
    (hw : p.pullSlot.1 < (h.window p.low).words) (u : Pull) :
    pullOf (h.put p.low p.pullSlot.1 (w.setField p.pullSlot.2 2 (pullCode u))) pin =
      .ok (some u) := by
  have hfit : p.pullSlot.2 + 2 ≤ 32 := by
    show p.offset % 16 * 2 + 2 ≤ 32
    omega
  rw [pullOf, run_pull, hp]
  simp only [words_window_put, if_pos hw, word_window_put_same]
  rw [Word.field_setField_same _ _ _ _ (pullCode_lt u) hfit, pullOfCode_pullCode]

section Slots

variable {pin q : Nat} {p r : Place}

/-- Two pins of one bank have different places in it. -/
theorem offset_ne (hp : place? pin = some p) (hr : place? q = some r) (hne : q ≠ pin)
    (hbank : p.bank = r.bank) : p.offset ≠ r.offset := by
  intro hoff
  apply hne
  have heq : p = r := by
    cases p
    cases r
    rw [Place.mk.injEq]
    exact ⟨hbank, hoff⟩
  exact place_injective hr (heq ▸ hp)

/-- The function fields of two pins have no bit in common. -/
theorem functionSlot_disjoint (hp : place? pin = some p) (hr : place? q = some r) (hne : q ≠ pin)
    (hlow : p.low = r.low) (hword : p.functionSlot.1 = r.functionSlot.1) :
    r.functionSlot.2 + 4 ≤ p.functionSlot.2 ∨ p.functionSlot.2 + 4 ≤ r.functionSlot.2 := by
  have hbp := place_bounds hp
  have hbr := place_bounds hr
  show r.offset % 8 * 4 + 4 ≤ p.offset % 8 * 4 ∨ p.offset % 8 * 4 + 4 ≤ r.offset % 8 * 4
  have hword : p.firstWord + p.offset / 8 = r.firstWord + r.offset / 8 := hword
  rcases Place.firstWord_apart hbp.1 hbr.1 hlow with ⟨hbank, hfirst⟩ | hapart | hapart
  · have hoff := offset_ne hp hr hne hbank
    omega
  · omega
  · omega

theorem pullSlot_disjoint (hp : place? pin = some p) (hr : place? q = some r) (hne : q ≠ pin)
    (hlow : p.low = r.low) (hword : p.pullSlot.1 = r.pullSlot.1) :
    r.pullSlot.2 + 2 ≤ p.pullSlot.2 ∨ p.pullSlot.2 + 2 ≤ r.pullSlot.2 := by
  have hbp := place_bounds hp
  have hbr := place_bounds hr
  show r.offset % 16 * 2 + 2 ≤ p.offset % 16 * 2 ∨ p.offset % 16 * 2 + 2 ≤ r.offset % 16 * 2
  have hword : p.firstWord + 7 + p.offset / 16 = r.firstWord + 7 + r.offset / 16 := hword
  rcases Place.firstWord_apart hbp.1 hbr.1 hlow with ⟨hbank, hfirst⟩ | hapart | hapart
  · have hoff := offset_ne hp hr hne hbank
    omega
  · omega
  · omega

/-- Within a window no register serves two of the three purposes. -/
theorem slots_apart (hp : place? pin = some p) (hr : place? q = some r) (hlow : p.low = r.low) :
    p.functionSlot.1 ≠ r.pullSlot.1 ∧ p.dataSlot ≠ r.functionSlot.1 ∧
      p.dataSlot ≠ r.pullSlot.1 := by
  have hbp := place_bounds hp
  have hbr := place_bounds hr
  show p.firstWord + p.offset / 8 ≠ r.firstWord + 7 + r.offset / 16 ∧
    p.firstWord + 4 ≠ r.firstWord + r.offset / 8 ∧
    p.firstWord + 4 ≠ r.firstWord + 7 + r.offset / 16
  rcases Place.firstWord_apart hbp.1 hbr.1 hlow with ⟨hbank, hfirst⟩ | hapart | hapart <;> omega

end Slots

/-- Driving a pin changes a data register, which holds no field of any pin. -/
theorem data_unchanged (h : H3) (pin : Nat) (f : Place → Word → Word) :
    Unchanged (fun _ => True) h
      ((do
        let p ← locate pin
        let _ ← onWindow p (Window.modify p.dataSlot (f p)) : Act H3 Unit).run h).2 := by
  rw [run_locate]
  cases hp : place? pin with
  | none => exact Unchanged.refl trivial
  | some p =>
    simp only
    rw [Act.run_bind, run_modifyWord]
    by_cases hw : p.dataSlot < (h.window p.low).words
    · simp only [hw, if_true]
      refine ⟨trivial, fun q => modeOf_put h _ _ _ q ?_, fun q => pullOf_put h _ _ _ q ?_⟩
      · intro r hr hlow hi
        exact absurd hi (slots_apart hp hr hlow).2.1
      · intro r hr hlow hi
        exact absurd hi (slots_apart hp hr hlow).2.2
    · simp only [hw, if_false]
      exact Unchanged.refl trivial

theorem read_leaves (pin : Nat) : (read pin).Leaves := by
  intro h
  rw [read, run_locate]
  cases place? pin with
  | none => rfl
  | some p =>
    simp only
    rw [Act.run_bind, run_readWord]
    by_cases hw : p.dataSlot < (h.window p.low).words <;> simp [hw]

theorem setMode_effect (h : H3) (pin : Nat) (m : Mode) :
    AllOrNothing (ModeChanged (fun _ => True) pin h) h ((Backend.setMode pin m).run h) := by
  rw [run_setMode]
  cases hp : place? pin with
  | none => exact .inl ⟨_, rfl⟩
  | some p =>
    cases hc : functionCode? pin m with
    | none => exact .inl ⟨_, rfl⟩
    | some c =>
      by_cases hw : p.functionSlot.1 < (h.window p.low).words
      · have hcode : c < 1 <<< 4 := functionCode_lt hc
        simp only [if_pos hw]
        refine .inr ⟨_, rfl, trivial, ⟨functionMode c, modeOf_put_same hp hw hcode⟩,
          fun q hq => modeOf_put h _ _ _ q ?_, fun q => pullOf_put h _ _ _ q ?_⟩
        · intro r hr hlow hi
          exact Word.field_setField_disjoint _ hcode (functionSlot_disjoint hp hr hq hlow hi)
        · intro r hr hlow hi
          exact absurd hi (slots_apart hp hr hlow).1
      · simp only [if_neg hw]
        exact .inl ⟨_, rfl⟩

theorem setPull_effect (h : H3) (pin : Nat) (u : Pull) :
    AllOrNothing (PullChanged (fun _ => True) pin h) h ((Backend.setPull pin u).run h) := by
  rw [run_setPull]
  cases hp : place? pin with
  | none => exact .inl ⟨_, rfl⟩
  | some p =>
    by_cases hw : p.pullSlot.1 < (h.window p.low).words
    · have hzero : 0 < 1 <<< 2 := by decide
      simp only [if_pos hw]
      refine .inr ⟨_, rfl, trivial, ⟨some u, ?_⟩, fun q => ?_, fun q hq => ?_⟩
      · exact pullOf_put_same _ hp (by rw [words_window_put]; exact hw) u
      · -- neither of the two changes is one of a register that holds function fields
        have hapart : ∀ r, place? q = some r → p.low = r.low →
            p.pullSlot.1 ≠ r.functionSlot.1 := fun r hr hlow hi =>
          (slots_apart hr hp hlow.symm).1 hi.symm
        rw [modeOf_put _ _ _ _ q fun r hr hlow hi => absurd hi (hapart r hr hlow),
          modeOf_put _ _ _ _ q fun r hr hlow hi => absurd hi (hapart r hr hlow)]
      · have hdisjoint := fun (r : Place) hr hlow hi =>
          pullSlot_disjoint (r := r) hp hr hq hlow hi
        rw [pullOf_put _ _ _ _ q fun r hr hlow hi => ?_,
          pullOf_put _ _ _ _ q fun r hr hlow hi => ?_]
        · exact Word.field_setField_disjoint _ hzero (hdisjoint r hr hlow hi)
        · rw [word_window_put_same,
            Word.field_setField_disjoint _ (pullCode_lt u) (hdisjoint r hr hlow hi),
            Word.field_setField_disjoint _ hzero (hdisjoint r hr hlow hi)]
    · simp only [if_neg hw]
      exact .inl ⟨_, rfl⟩

/-- A mode that some pin with this number showed can be set on a pin that shows any. -/
theorem setMode_back {h h₀ : H3} {pin : Nat} {m now : Mode} (h₀m : modeOf h₀ pin = .ok m)
    (hnow : modeOf h pin = .ok now) :
    ∃ h', (Backend.setMode pin m).run h = (.ok (), h') ∧ modeOf h' pin = .ok m := by
  obtain ⟨p₀, hp₀, -, rfl⟩ := modeOf_eq_ok_iff.mp h₀m
  obtain ⟨p, hp, hw, -⟩ := modeOf_eq_ok_iff.mp hnow
  obtain ⟨c, hc, hshow⟩ := code_of_functionMode pin
    (((h₀.window p₀.low).word p₀.functionSlot.1).field p₀.functionSlot.2 4)
  refine ⟨_, ?_, (modeOf_put_same hp hw (functionCode_lt hc)).trans (by rw [hshow])⟩
  rw [run_setMode, hp, hc]
  simp only [if_pos hw]

theorem setPull_back {h : H3} {pin : Nat} {now : Option Pull} (hnow : pullOf h pin = .ok now)
    (u : Pull) :
    ∃ h', (Backend.setPull pin u).run h = (.ok (), h') ∧ pullOf h' pin = .ok (some u) := by
  obtain ⟨p, hp, hw, -⟩ := pullOf_eq_ok_iff.mp hnow
  rw [run_setPull, hp]
  simp only [if_pos hw]
  exact ⟨_, rfl, pullOf_put_same _ hp (by rw [words_window_put]; exact hw) u⟩

/-- Every pin can be put back. -/
theorem restorable (h₀ : H3) : Restorable h₀ fun _ => True where
  start := trivial
  mode_leaves h pin _ := by
    rw [run_mode]
    cases place? pin <;> rfl
  pull_leaves h pin _ := by
    rw [run_pull]
    cases place? pin <;> rfl
  read_leaves h pin _ := read_leaves pin h
  write_unchanged h pin high _ := data_unchanged h pin fun p v => v.setBit p.offset high
  toggle_unchanged h pin _ := data_unchanged h pin fun p v => v.flipBit p.offset
  setMode_effect h pin m _ := setMode_effect h pin m
  setPull_effect h pin u _ := setPull_effect h pin u
  setMode_back h pin m now _ h₀m hnow := setMode_back h₀m hnow
  setPull_back h pin u now _ _ hnow := setPull_back hnow u
  pull_known h pin u _ hu := by
    obtain ⟨p, -, -, rfl⟩ := pullOf_eq_ok_iff.mp hu
    exact Option.some_ne_none _

end BoardGpio.H3
