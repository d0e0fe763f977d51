import BoardGpio.Backend.Bcm
import BoardGpio.Proofs.Backend.Restorable
import BoardGpio.Proofs.Register.Access
import BoardGpio.Proofs.Register.Field

/-!
# What BCM283x pins show

The mode of a pin is its function field, and on the BCM2711 its pull is its pull field. The fields
of different pins have no bit in common, and the registers that set and clear pins hold no field at
all. Hence on the BCM2711 every pin can be brought back to what it showed (`restorable`).
-/

set_option autoImplicit false

namespace BoardGpio.Bcm

open Backend

/-- The backend with a register changed. -/
def put (b : Bcm) (i : Nat) (v : Word) : Bcm := { b with window := b.window.setWord i v }

theorem run_readWord (b : Bcm) (i : Nat) :
    (onWindow (Window.read i)).run b =
      (if i < b.window.words then .ok (b.window.word i) else .error (b.window.outside i), b) := by
  rw [onWindow, Act.run_within, Window.run_read_eq]

theorem run_writeWord (b : Bcm) (i : Nat) (v : Word) :
    (onWindow (Window.write i v)).run b =
      if i < b.window.words then (.ok (), b.put i v) else (.error (b.window.outside i), b) := by
  rw [onWindow, Act.run_within, Window.run_write_eq]
  by_cases h : i < b.window.words <;> simp [h, put]

theorem run_modifyWord (b : Bcm) (i : Nat) (f : Word → Word) :
    (onWindow (Window.modify i f)).run b =
      if i < b.window.words then (.ok (f (b.window.word i)), b.put i (f (b.window.word i)))
      else (.error (b.window.outside i), b) := by
  rw [onWindow, Act.run_within, Window.run_modify_eq]
  by_cases h : i < b.window.words <;> simp [h, put]

theorem run_check (b : Bcm) (pin : Nat) :
    (check pin).run b =
      (if pin < pinCount then .ok () else .error (.error (noSuchPin pin)), b) := by
  unfold check
  split <;> rfl

theorem run_mode (b : Bcm) (pin : Nat) :
    (Backend.mode pin : Act Bcm Mode).run b =
      (if pin < pinCount then
        if pin / 10 < b.window.words then
          .ok (functionMode ((b.window.word (pin / 10)).field (pin % 10 * 3) 3))
        else .error (b.window.outside (pin / 10))
      else .error (.error (noSuchPin pin)), b) := by
  show (mode pin).run b = _
  by_cases hp : pin < pinCount
  · have hc : (check pin).run b = (.ok (), b) := by rw [run_check, if_pos hp]
    rw [mode, Act.run_bind_ok _ hc, if_pos hp]
    simp only [functionSlot, functionWord, Nat.zero_add]
    rw [Act.run_bind, run_readWord]
    by_cases hw : pin / 10 < b.window.words <;> simp [hw]
  · have hc : (check pin).run b = (.error (.error (noSuchPin pin)), b) := by
      rw [run_check, if_neg hp]
    rw [mode, Act.run_bind_error _ hc, if_neg hp]

theorem run_pull {b : Bcm} (hs : b.soc = .bcm2711) (pin : Nat) :
    (Backend.pull pin : Act Bcm (Option Pull)).run b =
      (if pin < pinCount then
        if 57 + pin / 16 < b.window.words then
          .ok (some (pullOfCode ((b.window.word (57 + pin / 16)).field (pin % 16 * 2) 2)))
        else .error (b.window.outside (57 + pin / 16))
      else .error (.error (noSuchPin pin)), b) := by
  show (pull pin).run b = _
  by_cases hp : pin < pinCount
  · have hc : (check pin).run b = (.ok (), b) := by rw [run_check, if_pos hp]
    rw [pull, Act.run_bind_ok _ hc, Act.run_bind_ok _ (Act.run_gets _ b), if_pos hp, if_pos hs]
    simp only [pullSlot, pullFieldWord]
    rw [Act.run_bind, run_readWord]
    by_cases hw : 57 + pin / 16 < b.window.words <;> simp [hw]
  · have hc : (check pin).run b = (.error (.error (noSuchPin pin)), b) := by
      rw [run_check, if_neg hp]
    rw [pull, Act.run_bind_error _ hc, if_neg hp]

/-- Switching a pin is refused or a fault, or writes the code of the mode into the pin's field. -/
theorem run_setMode (b : Bcm) (pin : Nat) (m : Mode) :
    (Backend.setMode pin m : Act Bcm Unit).run b =
      if pin < pinCount then
        match (effectiveMode? b.soc pin m).bind functionCode? with
        | none => (.error (.error (.unsupportedMode pin m)), b)
        | some c =>
          if pin / 10 < b.window.words then
            (.ok (), b.put (pin / 10) ((b.window.word (pin / 10)).setField (pin % 10 * 3) 3 c))
          else (.error (b.window.outside (pin / 10)), b)
      else (.error (.error (noSuchPin pin)), b) := by
  show (setMode pin m).run b = _
  by_cases hp : pin < pinCount
  · have hc : (check pin).run b = (.ok (), b) := by rw [run_check, if_pos hp]
    rw [setMode, Act.run_bind_ok _ hc, Act.run_bind_ok _ (Act.run_gets _ b), if_pos hp]
    cases (effectiveMode? b.soc pin m).bind functionCode? with
    | none => rfl
    | some c =>
      simp only [functionSlot, functionWord, Nat.zero_add]
      rw [Act.run_bind, run_modifyWord]
      by_cases hw : pin / 10 < b.window.words <;> simp [hw]
  · have hc : (check pin).run b = (.error (.error (noSuchPin pin)), b) := by
      rw [run_check, if_neg hp]
    rw [setMode, Act.run_bind_error _ hc, if_neg hp]

theorem run_setPull {b : Bcm} (hs : b.soc = .bcm2711) (pin : Nat) (u : Pull) :
    (Backend.setPull pin u : Act Bcm Unit).run b =
      if pin < pinCount then
        if 57 + pin / 16 < b.window.words then
          (.ok (), b.put (57 + pin / 16)
            ((b.window.word (57 + pin / 16)).setField (pin % 16 * 2) 2 (pullCode u)))
        else (.error (b.window.outside (57 + pin / 16)), b)
      else (.error (.error (noSuchPin pin)), b) := by
  show (setPull pin u).run b = _
  by_cases hp : pin < pinCount
  · have hc : (check pin).run b = (.ok (), b) := by rw [run_check, if_pos hp]
    rw [setPull, Act.run_bind_ok _ hc, Act.run_bind_ok _ (Act.run_gets _ b), if_pos hp, if_pos hs]
    simp only [pullSlot, pullFieldWord]
    rw [Act.run_bind, run_modifyWord]
    by_cases hw : 57 + pin / 16 < b.window.words <;> simp [hw]
  · have hc : (check pin).run b = (.error (.error (noSuchPin pin)), b) := by
      rw [run_check, if_neg hp]
    rw [setPull, Act.run_bind_error _ hc, if_neg hp]

/-- A pin shows a mode exactly if the chip has the pin and the window has its function field. -/
theorem modeOf_eq_ok_iff {b : Bcm} {pin : Nat} {m : Mode} :
    modeOf b pin = .ok m ↔ pin < pinCount ∧ pin / 10 < b.window.words ∧
      functionMode ((b.window.word (pin / 10)).field (pin % 10 * 3) 3) = m := by
  rw [modeOf, run_mode]
  by_cases hp : pin < pinCount <;> by_cases hw : pin / 10 < b.window.words <;> simp [hp, hw]

theorem pullOf_eq_ok_iff {b : Bcm} (hs : b.soc = .bcm2711) {pin : Nat} {u : Option Pull} :
    pullOf b pin = .ok u ↔ pin < pinCount ∧ 57 + pin / 16 < b.window.words ∧
      some (pullOfCode ((b.window.word (57 + pin / 16)).field (pin % 16 * 2) 2)) = u := by
  rw [pullOf, run_pull hs]
  by_cases hp : pin < pinCount <;> by_cases hw : 57 + pin / 16 < b.window.words <;> simp [hp, hw]

theorem functionCode_lt {m : Mode} {c : Nat} (h : functionCode? m = some c) : c < 1 <<< 3 := by
  cases m <;> simp [functionCode?] at h <;> subst h <;> decide

theorem pullCode_lt (u : Pull) : pullCode u < 1 <<< 2 := by
  cases u <;> decide

/-- The modes that function fields show are those that have a code, on every chip. -/
theorem code_of_functionMode (soc : Soc) (pin n : Nat) :
    ∃ c, (effectiveMode? soc pin (functionMode n)).bind functionCode? = some c ∧
      functionMode c = functionMode n := by
  unfold functionMode
  split <;> exact ⟨_, rfl, rfl⟩

/-- Changing a register changes the mode of those pins only whose function field it changes. -/
theorem modeOf_put (b : Bcm) (i : Nat) (v : Word) (q : Nat)
    (h : q < pinCount → i = q / 10 →
      v.field (q % 10 * 3) 3 = (b.window.word i).field (q % 10 * 3) 3) :
    modeOf (b.put i v) q = modeOf b q := by
  rw [modeOf, modeOf, run_mode, run_mode]
  by_cases hq : q < pinCount
  · simp only [hq, if_true, put, Window.words_setWord, Window.word_setWord]
    by_cases hi : i = q / 10
    · simp only [hi, if_true]
      rw [h hq hi, hi]
      rfl
    · simp only [hi, if_false]
      rfl
  · simp [hq]

theorem pullOf_put {b : Bcm} (hs : b.soc = .bcm2711) (i : Nat) (v : Word) (q : Nat)
    (h : i = 57 + q / 16 → v.field (q % 16 * 2) 2 = (b.window.word i).field (q % 16 * 2) 2) :
    pullOf (b.put i v) q = pullOf b q := by
  have hs' : (b.put i v).soc = .bcm2711 := hs
  rw [pullOf, pullOf, run_pull hs, run_pull hs']
  simp only [put, Window.words_setWord, Window.word_setWord]
  by_cases hi : i = 57 + q / 16
  · simp only [hi, if_true]
    rw [h hi, hi]
    rfl
  · simp only [hi, if_false]
    rfl

theorem modeOf_put_same {b : Bcm} {pin c : Nat} (hp : pin < pinCount)
    (hw : pin / 10 < b.window.words) (hc : c < 1 <<< 3) :
    modeOf (b.put (pin / 10) ((b.window.word (pin / 10)).setField (pin % 10 * 3) 3 c)) pin =
      .ok (functionMode c) := by
  rw [modeOf, run_mode, if_pos hp]
  simp only [put, Window.words_setWord, Window.word_setWord_same, if_pos hw]
  rw [Word.field_setField_same _ _ _ _ hc (by omega)]

theorem pullOf_put_same {b : Bcm} (hs : b.soc = .bcm2711) {pin : Nat} (hp : pin < pinCount)
    (hw : 57 + pin / 16 < b.window.words) (u : Pull) :
    pullOf (b.put (57 + pin / 16)
      ((b.window.word (57 + pin / 16)).setField (pin % 16 * 2) 2 (pullCode u))) pin =
      .ok (some u) := by
  have hs' : (b.put (57 + pin / 16)
      ((b.window.word (57 + pin / 16)).setField (pin % 16 * 2) 2 (pullCode u))).soc = .bcm2711 := hs
  rw [pullOf, run_pull hs', if_pos hp]
  simp only [put, Window.words_setWord, Window.word_setWord_same, if_pos hw]
  rw [Word.field_setField_same _ _ _ _ (pullCode_lt u) (by omega), pullOfCode_pullCode]

/-- Registers between the function fields and the pull fields hold no field of any pin. -/
theorem unchanged_put {b : Bcm} (hs : b.soc = .bcm2711) {i : Nat} (v : Word) (hlo : 5 < i)
    (hhi : i < 57) : Unchanged (fun b : Bcm => b.soc = .bcm2711) b (b.put i v) := by
  refine ⟨hs, fun q => modeOf_put b i v q ?_, fun q => pullOf_put hs i v q ?_⟩
  · intro hq hi
    have : q < 54 := hq
    omega
  · intro hi
    omega

/-- Driving a pin writes to the registers that set and clear pins. -/
theorem write_unchanged {b : Bcm} (hs : b.soc = .bcm2711) (pin : Nat) (high : Bool) :
    Unchanged (fun b : Bcm => b.soc = .bcm2711) b ((write pin high).run b).2 := by
  rw [write]
  by_cases hp : pin < pinCount
  · have hc : (check pin).run b = (.ok (), b) := by rw [run_check, if_pos hp]
    have hlt : pin < 54 := hp
    rw [Act.run_bind_ok _ hc, run_writeWord]
    by_cases hw : (if high = true then setWord else clearWord) + pin / 32 < b.window.words
    · rw [if_pos hw]
      have hfirst : (if high = true then setWord else clearWord) = 7 ∨
          (if high = true then setWord else clearWord) = 10 := by
        cases high
        · exact .inr rfl
        · exact .inl rfl
      exact unchanged_put hs _ (by omega) (by omega)
    · rw [if_neg hw]
      exact Unchanged.refl hs
  · have hc : (check pin).run b = (.error (.error (noSuchPin pin)), b) := by
      rw [run_check, if_neg hp]
    rw [Act.run_bind_error _ hc]
    exact Unchanged.refl hs

theorem read_leaves (pin : Nat) : (read pin).Leaves := by
  refine Act.Leaves.bind (fun b => ?_) fun _ => Act.Leaves.bind (fun b => ?_) fun v =>
    Act.Leaves.pure _
  · rw [run_check]
  · rw [run_readWord]

theorem toggle_unchanged {b : Bcm} (hs : b.soc = .bcm2711) (pin : Nat) :
    Unchanged (fun b : Bcm => b.soc = .bcm2711) b ((toggle pin).run b).2 := by
  have hread := read_leaves pin b
  rw [toggle, Act.run_bind]
  rcases hr : (read pin).run b with ⟨e | level, c⟩
  · rw [hr] at hread
    simp only at hread ⊢
    rw [hread]
    exact Unchanged.refl hs
  · rw [hr] at hread
    simp only at hread ⊢
    rw [hread]
    exact write_unchanged hs pin (!level)

theorem setMode_effect {b : Bcm} (hs : b.soc = .bcm2711) (pin : Nat) (m : Mode) :
    AllOrNothing (ModeChanged (fun b : Bcm => b.soc = .bcm2711) pin b) b
      ((Backend.setMode pin m).run b) := by
  rw [run_setMode]
  by_cases hp : pin < pinCount
  · rw [if_pos hp]
    have hlt : pin < 54 := hp
    cases hc : (effectiveMode? b.soc pin m).bind functionCode? with
    | none => exact .inl ⟨_, rfl⟩
    | some c =>
      by_cases hw : pin / 10 < b.window.words
      · have hcode : c < 1 <<< 3 := by
          obtain ⟨m', -, hm'⟩ := Option.bind_eq_some_iff.mp hc
          exact functionCode_lt hm'
        simp only [if_pos hw]
        refine .inr ⟨_, rfl, hs, ⟨functionMode c, ?_⟩, fun q hq => ?_, fun q => ?_⟩
        · exact modeOf_put_same hp hw hcode
        · refine modeOf_put b _ _ q fun _ hi => ?_
          exact Word.field_setField_disjoint _ hcode (by omega)
        · -- the function fields end below the register where the pull fields begin
          exact pullOf_put hs _ _ q fun hi => by omega
      · simp only [if_neg hw]
        exact .inl ⟨_, rfl⟩
  · rw [if_neg hp]
    exact .inl ⟨_, rfl⟩

theorem setPull_effect {b : Bcm} (hs : b.soc = .bcm2711) (pin : Nat) (u : Pull) :
    AllOrNothing (PullChanged (fun b : Bcm => b.soc = .bcm2711) pin b) b
      ((Backend.setPull pin u).run b) := by
  rw [run_setPull hs]
  by_cases hp : pin < pinCount
  · rw [if_pos hp]
    by_cases hw : 57 + pin / 16 < b.window.words
    · rw [if_pos hw]
      refine .inr ⟨_, rfl, hs, ⟨some u, ?_⟩, fun q => ?_, fun q hq => ?_⟩
      · exact pullOf_put_same hs hp hw u
      · refine modeOf_put b _ _ q fun hq hi => ?_
        have hlt : q < 54 := hq
        omega
      · refine pullOf_put hs _ _ q fun hi => ?_
        exact Word.field_setField_disjoint _ (pullCode_lt u) (by omega)
    · rw [if_neg hw]
      exact .inl ⟨_, rfl⟩
  · rw [if_neg hp]
    exact .inl ⟨_, rfl⟩

/-- A mode that some pin with this number showed, on whatever chip, can be set on a pin that shows
any. -/
theorem setMode_back {b b₀ : Bcm} {pin : Nat} {m now : Mode} (h₀ : modeOf b₀ pin = .ok m)
    (hnow : modeOf b pin = .ok now) :
    ∃ b', (Backend.setMode pin m).run b = (.ok (), b') ∧ modeOf b' pin = .ok m := by
  obtain ⟨-, -, rfl⟩ := modeOf_eq_ok_iff.mp h₀
  obtain ⟨hp, hw, -⟩ := modeOf_eq_ok_iff.mp hnow
  obtain ⟨c, hc, hshow⟩ := code_of_functionMode b.soc pin
    ((b₀.window.word (pin / 10)).field (pin % 10 * 3) 3)
  have hcode : c < 1 <<< 3 := by
    obtain ⟨m', -, hm'⟩ := Option.bind_eq_some_iff.mp hc
    exact functionCode_lt hm'
  refine ⟨_, ?_, (modeOf_put_same hp hw hcode).trans (by rw [hshow])⟩
  rw [run_setMode, if_pos hp, hc]
  simp only [if_pos hw]

theorem setPull_back {b : Bcm} (hs : b.soc = .bcm2711) {pin : Nat} {now : Option Pull}
    (hnow : pullOf b pin = .ok now) (u : Pull) :
    ∃ b', (Backend.setPull pin u).run b = (.ok (), b') ∧ pullOf b' pin = .ok (some u) := by
  obtain ⟨hp, hw, -⟩ := (pullOf_eq_ok_iff hs).mp hnow
  refine ⟨_, ?_, pullOf_put_same hs hp hw u⟩
  rw [run_setPull hs, if_pos hp, if_pos hw]

/-- On the BCM2711 every pin can be put back. -/
theorem restorable {b₀ : Bcm} (h₀ : b₀.soc = .bcm2711) :
    Restorable b₀ fun b => b.soc = .bcm2711 where
  start := h₀
  mode_leaves b pin _ := by rw [run_mode]
  pull_leaves b pin hs := by rw [run_pull hs]
  read_leaves b pin _ := read_leaves pin b
  write_unchanged b pin high hs := write_unchanged hs pin high
  toggle_unchanged b pin hs := toggle_unchanged hs pin
  setMode_effect b pin m hs := setMode_effect hs pin m
  setPull_effect b pin u hs := setPull_effect hs pin u
  setMode_back b pin m now _ h₀m hnow := setMode_back h₀m hnow
  setPull_back b pin u now hs _ hnow := setPull_back hs hnow u
  pull_known b pin u hs hu := by
    obtain ⟨-, -, rfl⟩ := (pullOf_eq_ok_iff hs).mp hu
    exact Option.some_ne_none _

end BoardGpio.Bcm
