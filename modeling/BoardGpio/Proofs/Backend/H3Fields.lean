import BoardGpio.Proofs.Backend.H3
import BoardGpio.Proofs.Backend.PinCalls

/-!
# Every H3 pin has fields of its own

Three fields of registers belong to a pin: four bits for its function, two for its pull and one for
its level. A call on a pin fetches one of the three and may store another number in it
(`call_placed`); it touches nothing else. Fields of different pins have no bit in common, nor have
two fields of one pin (`place_apart`). Hence what is done to one pin neither shows on another nor
depends on it (`pins_isolated`).
-/

set_option autoImplicit false

namespace BoardGpio.H3

open Backend Bench

/-- Both windows are as long as a block of registers. -/
structure Full (h : H3) : Prop where
  pio : h.pio.len = blockLen
  rPio : h.rPio.len = blockLen

/-- What the registers hold about a pin. -/
inductive Part where
  | function
  | pull
  | data
  deriving DecidableEq, Repr

/-- A run of bits of a register of one of the windows. -/
structure Field where
  low : Bool
  word : Nat
  shift : Nat
  width : Nat
  deriving DecidableEq, Repr

def Place.field (p : Place) : Part → Field
  | .function => ⟨p.low, p.functionSlot.1, p.functionSlot.2, 4⟩
  | .pull => ⟨p.low, p.pullSlot.1, p.pullSlot.2, 2⟩
  | .data => ⟨p.low, p.dataSlot, p.offset, 1⟩

/-- The field has bit `k` of register `i` of a window. -/
def Field.Covers (f : Field) (low : Bool) (i k : Nat) : Prop :=
  f.low = low ∧ f.word = i ∧ f.shift ≤ k ∧ k < f.shift + f.width

/-- The fields have no bit in common. -/
def Field.Apart (f g : Field) : Prop :=
  f.low = g.low → f.word = g.word → g.shift + g.width ≤ f.shift ∨ f.shift + f.width ≤ g.shift

def fetch (h : H3) (f : Field) : Nat := ((h.window f.low).word f.word).field f.shift f.width

/-- The backend with another number in a field. -/
def store (h : H3) (f : Field) (n : Nat) : H3 :=
  h.put f.low f.word (((h.window f.low).word f.word).setField f.shift f.width n)

/-- The backend with another number in a field, if there is one to be stored. -/
def stored (h : H3) (f : Field) : Option Nat → H3
  | some n => h.store f n
  | none => h

/-- The windows show the same registers of the same memory. -/
def SameRegisters (h h' : H3) : Prop := ∀ low, Window.Same (h.window low) (h'.window low)

/-- No bit outside the field has changed, of either window. -/
def OnlyIn (f : Field) (h h' : H3) : Prop :=
  ∀ low, Window.OnlyIn (f.Covers low) (h.window low) (h'.window low)

theorem window_put (h : H3) (low other : Bool) (i : Nat) (v : Word) :
    (h.put low i v).window other =
      if low = other then (h.window other).setWord i v else h.window other := by
  cases low <;> cases other <;> rfl

theorem onlyIn_store (h : H3) (f : Field) {n : Nat} (hn : n < 1 <<< f.width) :
    OnlyIn f h (h.store f n) := by
  intro low
  rw [store, window_put]
  by_cases hlow : f.low = low
  · subst hlow
    rw [if_pos rfl]
    exact Window.OnlyIn.setField _ hn fun k hlo hhi => ⟨rfl, rfl, hlo, hhi⟩
  · rw [if_neg hlow]
    exact Window.OnlyIn.refl _ _

theorem fetch_store_same (h : H3) {f : Field} {n : Nat} (hn : n < 1 <<< f.width)
    (hfit : f.shift + f.width ≤ 32) : (h.store f n).fetch f = n := by
  unfold fetch store
  rw [word_window_put_same, Word.field_setField_same _ _ _ _ hn hfit]

theorem fetch_store_apart (h : H3) {f g : Field} {n : Nat} (hn : n < 1 <<< f.width)
    (hapart : f.Apart g) : (h.store f n).fetch g = h.fetch g := by
  unfold fetch store
  rw [word_window_put]
  split
  case isTrue hhere =>
    rw [Word.field_setField_disjoint _ hn (hapart hhere.1 hhere.2), hhere.1, hhere.2]
  case isFalse => rfl

/-- Fields without a common bit can be changed in either order. -/
theorem store_comm (h : H3) {f g : Field} {m n : Nat} (hm : m < 1 <<< f.width)
    (hn : n < 1 <<< g.width) (hapart : f.Apart g) :
    SameRegisters ((h.store f m).store g n) ((h.store g n).store f m) := by
  intro low
  have hf := onlyIn_store h f hm low
  have hg := onlyIn_store h g hn low
  have hfg := onlyIn_store (h.store f m) g hn low
  have hgf := onlyIn_store (h.store g n) f hm low
  refine ⟨?_, ?_, ?_, fun i => ?_⟩
  · rw [hfg.base, hf.base, hgf.base, hg.base]
  · rw [hfg.len, hf.len, hgf.len, hg.len]
  · rw [hfg.source, hf.source, hgf.source, hg.source]
  · unfold store
    simp only [word_window_put]
    by_cases hsame : f.low = g.low ∧ f.word = g.word
    · obtain ⟨hlow, hword⟩ := hsame
      have hcomm := Word.setField_comm ((h.window g.low).word g.word) hm hn (hapart hlow hword)
      simp only [hlow, hword, and_self, if_true]
      split
      · exact hcomm.symm
      · rfl
    · have hsame' : ¬(g.low = f.low ∧ g.word = f.word) := fun ⟨hl, hw⟩ => hsame ⟨hl.symm, hw.symm⟩
      simp only [if_neg hsame, if_neg hsame']
      by_cases hf : f.low = low ∧ f.word = i
      · have hg : ¬(g.low = low ∧ g.word = i) := fun ⟨hl, hw⟩ =>
          hsame ⟨hf.1.trans hl.symm, hf.2.trans hw.symm⟩
        rw [if_pos hf, if_neg hg, if_pos hf]
      · rw [if_neg hf, if_neg hf]

/-! ## The fields of pins -/

section Places

variable {pin q : Nat} {p r : Place}

theorem placeFrom?_isSome_iff (bank pin : Nat) (sizes : List Nat) :
    (placeFrom? bank sizes pin).isSome = true ↔ pin < sizes.foldr (· + ·) 0 := by
  induction sizes generalizing bank pin with
  | nil => simp [placeFrom?]
  | cons size sizes ih =>
    unfold placeFrom?
    rw [List.foldr_cons]
    by_cases hpin : pin < size
    · rw [if_pos hpin]
      simp only [Option.isSome_some, true_iff]
      omega
    · rw [if_neg hpin, ih]
      omega

/-- The pins that the chip has are those with a place. -/
theorem exists_place_iff (pin : Nat) : (∃ p, place? pin = some p) ↔ pin < pinCount := by
  have hcount : pinCount = bankSizes.foldr (· + ·) 0 := rfl
  rw [← Option.isSome_iff_exists, place?, placeFrom?_isSome_iff, hcount]

theorem place?_eq_none (h : pinCount ≤ pin) : place? pin = none := by
  cases hp : place? pin with
  | none => rfl
  | some p =>
    have hlt : pin < pinCount := (exists_place_iff pin).mp ⟨p, hp⟩
    omega

/-- The data registers of different pins are different, or the pins have different bits there. -/
theorem dataSlot_disjoint (hp : place? pin = some p) (hr : place? q = some r) (hne : q ≠ pin)
    (hlow : p.low = r.low) (hword : p.dataSlot = r.dataSlot) :
    r.offset + 1 ≤ p.offset ∨ p.offset + 1 ≤ r.offset := by
  have hbp := place_bounds hp
  have hbr := place_bounds hr
  have hword : p.firstWord + 4 = r.firstWord + 4 := hword
  rcases Place.firstWord_apart hbp.1 hbr.1 hlow with ⟨hbank, hfirst⟩ | hapart | hapart
  · have hoff := offset_ne hp hr hne hbank
    omega
  · omega
  · omega

/-- Fields of different pins have no bit in common, nor have two fields of one pin. -/
theorem place_apart (hp : place? pin = some p) (hr : place? q = some r) {a b : Part}
    (hne : pin ≠ q ∨ a ≠ b) : (p.field a).Apart (r.field b) := by
  intro hlow hword
  have hlow : p.low = r.low := by cases a <;> cases b <;> exact hlow
  have hpr := slots_apart hp hr hlow
  have hrp := slots_apart hr hp hlow.symm
  have hpart : a = b := by
    cases a <;> cases b
    case function.function => rfl
    case pull.pull => rfl
    case data.data => rfl
    case function.pull => exact absurd hword hpr.1
    case pull.function => exact absurd hword.symm hrp.1
    case data.function => exact absurd hword hpr.2.1
    case function.data => exact absurd hword.symm hrp.2.1
    case data.pull => exact absurd hword hpr.2.2
    case pull.data => exact absurd hword.symm hrp.2.2
  subst hpart
  have hpin : q ≠ pin := fun h => (hne.resolve_right fun h => h rfl) h.symm
  cases a with
  | function => exact functionSlot_disjoint hp hr hpin hlow hword
  | pull => exact pullSlot_disjoint hp hr hpin hlow hword
  | data => exact dataSlot_disjoint hp hr hpin hlow hword

theorem field_fits (hp : place? pin = some p) (a : Part) :
    (p.field a).shift + (p.field a).width ≤ 32 := by
  have hoffset := (place_bounds hp).2
  cases a
  · show p.offset % 8 * 4 + 4 ≤ 32
    omega
  · show p.offset % 16 * 2 + 2 ≤ 32
    omega
  · show p.offset + 1 ≤ 32
    omega

theorem words_of_full {h : H3} (hfull : h.Full) (low : Bool) : (h.window low).words = 1024 := by
  cases low
  · show h.rPio.len / 4 = 1024
    rw [hfull.rPio]
    rfl
  · show h.pio.len / 4 = 1024
    rw [hfull.pio]
    rfl

/-- All fields are inside the windows. -/
theorem field_inside {h : H3} (hfull : h.Full) (hp : place? pin = some p) (a : Part) :
    (p.field a).word < (h.window p.low).words := by
  rw [words_of_full hfull]
  have hbounds := place_bounds hp
  have hfirst : p.firstWord ≤ 768 := by
    by_cases hlow : p.bank < 7
    · have hword := Place.firstWord_low hlow
      omega
    · have hword := Place.firstWord_high hlow
      omega
  cases a
  · show p.firstWord + p.offset / 8 < 1024
    omega
  · show p.firstWord + 7 + p.offset / 16 < 1024
    omega
  · show p.firstWord + 4 < 1024
    omega

end Places

/-! ## What calls do -/

/-- The part of a pin that a call is about. -/
def partOf : PinCall → Part
  | .setMode _ _ | .mode _ => .function
  | .setPull _ _ | .pull _ => .pull
  | .write _ _ | .read _ | .toggle _ => .data

/-- What a call answers when this number is in its field. -/
def replyTo : PinCall → Nat → Reply
  | .setMode pin m, _ =>
    if (functionCode? pin m).isSome then .ok .done else .error (.error (.unsupportedMode pin m))
  | .mode _, n => .ok (.text (functionMode n).word)
  | .setPull _ _, _ => .ok .done
  | .pull _, n => .ok (.text? (some (pullOfCode n).word))
  | .write _ _, _ => .ok .done
  | .read _, n => .ok (.flag (n == 1))
  | .toggle _, _ => .ok .done

/-- What a call puts into its field when this number is in it, if anything. -/
def putBy : PinCall → Nat → Option Nat
  | .setMode pin m, _ => functionCode? pin m
  | .setPull _ u, _ => some (pullCode u)
  | .write _ high, _ => some high.toNat
  | .toggle _, n => some (1 - n)
  | .mode _, _ | .pull _, _ | .read _, _ => none

theorem run_read (h : H3) (pin : Nat) :
    (Backend.read pin : Act H3 Bool).run h = match place? pin with
      | some p =>
        (if p.dataSlot < (h.window p.low).words then
          .ok (((h.window p.low).word p.dataSlot).getLsbD p.offset)
        else .error ((h.window p.low).outside p.dataSlot), h)
      | none => (.error (.error (noSuchPin pin)), h) := by
  show (read pin).run h = _
  rw [read, run_locate]
  cases place? pin with
  | none => rfl
  | some p =>
    simp only
    rw [Act.run_bind, run_readWord]
    by_cases hw : p.dataSlot < (h.window p.low).words <;> simp [hw]

theorem run_drive (h : H3) (pin : Nat) (f : Place → Word → Word) :
    (do
      let p ← locate pin
      let _ ← onWindow p (Window.modify p.dataSlot (f p)) : Act H3 Unit).run h =
        match place? pin with
        | some p =>
          if p.dataSlot < (h.window p.low).words then
            (.ok (), h.put p.low p.dataSlot (f p ((h.window p.low).word p.dataSlot)))
          else (.error ((h.window p.low).outside p.dataSlot), h)
        | none => (.error (.error (noSuchPin pin)), h) := by
  rw [run_locate]
  cases place? pin with
  | none => rfl
  | some p =>
    simp only
    rw [Act.run_bind, run_modifyWord]
    by_cases hw : p.dataSlot < (h.window p.low).words <;> simp [hw]

theorem run_write (h : H3) (pin : Nat) (high : Bool) :
    (Backend.write pin high : Act H3 Unit).run h = match place? pin with
      | some p =>
        if p.dataSlot < (h.window p.low).words then
          (.ok (), h.put p.low p.dataSlot
            (((h.window p.low).word p.dataSlot).setBit p.offset high))
        else (.error ((h.window p.low).outside p.dataSlot), h)
      | none => (.error (.error (noSuchPin pin)), h) :=
  run_drive h pin fun p v => v.setBit p.offset high

theorem run_toggle (h : H3) (pin : Nat) :
    (Backend.toggle pin : Act H3 Unit).run h = match place? pin with
      | some p =>
        if p.dataSlot < (h.window p.low).words then
          (.ok (), h.put p.low p.dataSlot (((h.window p.low).word p.dataSlot).flipBit p.offset))
        else (.error ((h.window p.low).outside p.dataSlot), h)
      | none => (.error (.error (noSuchPin pin)), h) :=
  run_drive h pin fun p v => v.flipBit p.offset

theorem put_put (h : H3) (low : Bool) (i : Nat) (v w : Word) :
    (h.put low i v).put low i w = h.put low i w := by
  cases low <;> simp [put]

theorem putBy_lt {c : PinCall} {n v : Nat} {p : Place} (h : putBy c n = some v) :
    v < 1 <<< (p.field (partOf c)).width := by
  cases c with
  | setMode pin m => exact functionCode_lt h
  | setPull pin u =>
    cases h
    exact pullCode_lt u
  | write pin high =>
    cases h
    exact Word.toNat_lt_two high
  | toggle pin =>
    cases h
    show 1 - n < 2
    omega
  | mode pin => cases h
  | pull pin => cases h
  | read pin => cases h

theorem fetch_data (h : H3) (p : Place) :
    h.fetch (p.field .data) = (((h.window p.low).word p.dataSlot).getLsbD p.offset).toNat :=
  Word.field_one _ _

/-- A call on a pin of the chip fetches one field of the pin and may store another number there. -/
theorem call_placed {h : H3} (hfull : h.Full) {c : PinCall} {p : Place}
    (hp : place? c.pin = some p) :
    call c h =
      (replyTo c (h.fetch (p.field (partOf c))),
        h.stored (p.field (partOf c)) (putBy c (h.fetch (p.field (partOf c))))) := by
  have hfunction : p.functionSlot.1 < (h.window p.low).words := field_inside hfull hp .function
  have hpull : p.pullSlot.1 < (h.window p.low).words := field_inside hfull hp .pull
  have hdata : p.dataSlot < (h.window p.low).words := field_inside hfull hp .data
  have hfit : p.offset + 1 ≤ 32 := field_fits hp .data
  cases c with
  | setMode pin m =>
    have hp : place? pin = some p := hp
    rw [call, PinCall.onBackend, run_quiet, run_setMode, hp]
    simp only [replyTo, putBy]
    cases functionCode? pin m with
    | none => rfl
    | some code =>
      simp only [if_pos hfunction]
      rfl
  | mode pin =>
    have hp : place? pin = some p := hp
    rw [call, PinCall.onBackend, Act.run_map, run_mode, hp]
    simp only [if_pos hfunction]
    rfl
  | setPull pin u =>
    have hp : place? pin = some p := hp
    rw [call, PinCall.onBackend, run_quiet, run_setPull, hp]
    simp only [if_pos hpull, put_put]
    rfl
  | pull pin =>
    have hp : place? pin = some p := hp
    rw [call, PinCall.onBackend, Act.run_map, run_pull, hp]
    simp only [if_pos hpull]
    rfl
  | write pin high =>
    have hp : place? pin = some p := hp
    rw [call, PinCall.onBackend, run_quiet, run_write, hp]
    simp only [if_pos hdata, Word.setBit_eq_setField]
    rfl
  | read pin =>
    have hp : place? pin = some p := hp
    rw [call, PinCall.onBackend, Act.run_map, run_read, hp]
    simp only [if_pos hdata]
    show _ = (replyTo (.read pin) (h.fetch (p.field .data)), h)
    rw [fetch_data]
    cases ((h.window p.low).word p.dataSlot).getLsbD p.offset <;> rfl
  | toggle pin =>
    have hp : place? pin = some p := hp
    rw [call, PinCall.onBackend, run_quiet, run_toggle, hp]
    simp only [if_pos hdata, Word.flipBit_eq_setBit _ hfit, Word.setBit_eq_setField]
    show _ = (replyTo (.toggle pin) (h.fetch (p.field .data)),
      h.store (p.field .data) (1 - h.fetch (p.field .data)))
    rw [fetch_data]
    cases ((h.window p.low).word p.dataSlot).getLsbD p.offset <;> rfl

/-- A call on a pin that the chip does not have is refused. -/
theorem call_refused (h : H3) {c : PinCall} (hp : place? c.pin = none) :
    call c h = (.error (.error (noSuchPin c.pin)), h) := by
  cases c with
  | setMode pin m =>
    have hp : place? pin = none := hp
    rw [call, PinCall.onBackend, run_quiet, run_setMode, hp]
    rfl
  | mode pin =>
    have hp : place? pin = none := hp
    rw [call, PinCall.onBackend, Act.run_map, run_mode, hp]
    rfl
  | setPull pin u =>
    have hp : place? pin = none := hp
    rw [call, PinCall.onBackend, run_quiet, run_setPull, hp]
    rfl
  | pull pin =>
    have hp : place? pin = none := hp
    rw [call, PinCall.onBackend, Act.run_map, run_pull, hp]
    rfl
  | write pin high =>
    have hp : place? pin = none := hp
    rw [call, PinCall.onBackend, run_quiet, run_write, hp]
    rfl
  | read pin =>
    have hp : place? pin = none := hp
    rw [call, PinCall.onBackend, Act.run_map, run_read, hp]
    rfl
  | toggle pin =>
    have hp : place? pin = none := hp
    rw [call, PinCall.onBackend, run_quiet, run_toggle, hp]
    rfl

/-! ## What pins show -/

section Shows

variable {h h' : H3} {pin : Nat} {p : Place}

theorem modeOf_placed (hfull : h.Full) (hp : place? pin = some p) :
    modeOf h pin = .ok (functionMode (h.fetch (p.field .function))) := by
  have hin : p.functionSlot.1 < (h.window p.low).words := field_inside hfull hp .function
  rw [modeOf, run_mode, hp]
  simp only [if_pos hin]
  rfl

theorem pullOf_placed (hfull : h.Full) (hp : place? pin = some p) :
    pullOf h pin = .ok (some (pullOfCode (h.fetch (p.field .pull)))) := by
  have hin : p.pullSlot.1 < (h.window p.low).words := field_inside hfull hp .pull
  rw [pullOf, run_pull, hp]
  simp only [if_pos hin]
  rfl

theorem levelOf_placed (hfull : h.Full) (hp : place? pin = some p) :
    levelOf h pin = .ok (h.fetch (p.field .data) == 1) := by
  have hin : p.dataSlot < (h.window p.low).words := field_inside hfull hp .data
  rw [levelOf, run_read, hp, fetch_data]
  simp only [if_pos hin]
  cases ((h.window p.low).word p.dataSlot).getLsbD p.offset <;> rfl

/-- What a pin shows is in its fields. -/
theorem shows_congr (hfull : h.Full) (hfull' : h'.Full)
    (hsame : ∀ p, place? pin = some p → ∀ a, h'.fetch (p.field a) = h.fetch (p.field a)) :
    modeOf h' pin = modeOf h pin ∧ pullOf h' pin = pullOf h pin ∧
      levelOf h' pin = levelOf h pin := by
  cases hp : place? pin with
  | none =>
    refine ⟨?_, ?_, ?_⟩
    · rw [modeOf, modeOf, run_mode, run_mode, hp]
    · rw [pullOf, pullOf, run_pull, run_pull, hp]
    · rw [levelOf, levelOf, run_read, run_read, hp]
  | some p =>
    refine ⟨?_, ?_, ?_⟩
    · rw [modeOf_placed hfull' hp, modeOf_placed hfull hp, hsame p hp]
    · rw [pullOf_placed hfull' hp, pullOf_placed hfull hp, hsame p hp]
    · rw [levelOf_placed hfull' hp, levelOf_placed hfull hp, hsame p hp]

end Shows

/-! ## Isolation -/

section Stored

variable {h : H3} {f g : Field} {x y : Option Nat}

theorem onlyIn_stored (hx : ∀ n, x = some n → n < 1 <<< f.width) :
    OnlyIn f h (h.stored f x) := by
  cases x with
  | none => exact fun _ => Window.OnlyIn.refl _ _
  | some n => exact onlyIn_store h f (hx n rfl)

theorem full_store (hfull : h.Full) {n : Nat} (hn : n < 1 <<< f.width) : (h.store f n).Full := by
  have honly := onlyIn_store h f hn
  exact ⟨(honly true).len.trans hfull.pio, (honly false).len.trans hfull.rPio⟩

theorem full_stored (hfull : h.Full) (hx : ∀ n, x = some n → n < 1 <<< f.width) :
    (h.stored f x).Full := by
  cases x with
  | none => exact hfull
  | some n => exact full_store hfull (hx n rfl)

theorem fetch_stored_apart (hx : ∀ n, x = some n → n < 1 <<< f.width) (hapart : f.Apart g) :
    (h.stored f x).fetch g = h.fetch g := by
  cases x with
  | none => rfl
  | some n => exact fetch_store_apart h (hx n rfl) hapart

theorem stored_comm (hx : ∀ n, x = some n → n < 1 <<< f.width)
    (hy : ∀ n, y = some n → n < 1 <<< g.width) (hapart : f.Apart g) :
    SameRegisters ((h.stored f x).stored g y) ((h.stored g y).stored f x) := by
  cases x with
  | none => exact fun _ => Window.Same.refl _
  | some m =>
    cases y with
    | none => exact fun _ => Window.Same.refl _
    | some n => exact store_comm h (hx m rfl) (hy n rfl) hapart

end Stored

theorem full_call {h : H3} (hfull : h.Full) (c : PinCall) : (call c h).2.Full := by
  cases hp : place? c.pin with
  | none =>
    rw [call_refused h hp]
    exact hfull
  | some p =>
    rw [call_placed hfull hp]
    exact full_stored hfull fun n hn => putBy_lt hn

/-- What is in the fields of a pin is changed by calls on this pin alone. -/
theorem fetch_call_other {h : H3} (hfull : h.Full) {c : PinCall} {q : Nat} {r : Place}
    (hr : place? q = some r) (hne : c.pin ≠ q) (b : Part) :
    (call c h).2.fetch (r.field b) = h.fetch (r.field b) := by
  cases hp : place? c.pin with
  | none => rw [call_refused h hp]
  | some p =>
    rw [call_placed hfull hp]
    exact fetch_stored_apart (fun n hn => putBy_lt hn) (place_apart hp hr (.inl hne))

/-- The pin can be switched to the mode. -/
def Supports (pin : Nat) (m : Mode) : Prop := m ≠ .alt5 ∧ (m = .pwm → pin = pwmPin)

theorem supports_iff (pin : Nat) (m : Mode) :
    Supports pin m ↔ (functionCode? pin m).isSome = true := by
  unfold Supports
  cases m <;> simp [functionCode?]

/-- Calls on two pins in either order give the same answers and the same registers. -/
structure Commute (c d : PinCall) (h : H3) : Prop where
  former : (call c (call d h).2).1 = (call c h).1
  latter : (call d (call c h).2).1 = (call d h).1
  registers : SameRegisters (call d (call c h).2).2 (call c (call d h).2).2

/-- After a call on another pin, a call finds its field as it was. -/
theorem call_after_other {h : H3} (hfull : h.Full) {c d : PinCall} {r : Place}
    (hr : place? d.pin = some r) (hne : c.pin ≠ d.pin) :
    call d (call c h).2 = (replyTo d (h.fetch (r.field (partOf d))),
      (call c h).2.stored (r.field (partOf d)) (putBy d (h.fetch (r.field (partOf d))))) := by
  rw [call_placed (full_call hfull c) hr, fetch_call_other hfull hr hne]

theorem call_comm {h : H3} (hfull : h.Full) {c d : PinCall} (hne : c.pin ≠ d.pin) :
    Commute c d h := by
  have hreply : ∀ c d : PinCall, c.pin ≠ d.pin → (call d (call c h).2).1 = (call d h).1 := by
    intro c d hne
    cases hr : place? d.pin with
    | none => rw [call_refused _ hr, call_refused _ hr]
    | some r => rw [call_after_other hfull hr hne, call_placed hfull hr]
  refine ⟨hreply d c hne.symm, hreply c d hne, ?_⟩
  cases hp : place? c.pin with
  | none =>
    rw [call_refused _ hp, call_refused _ hp]
    exact fun _ => Window.Same.refl _
  | some p =>
    cases hr : place? d.pin with
    | none =>
      rw [call_refused _ hr, call_refused _ hr]
      exact fun _ => Window.Same.refl _
    | some r =>
      rw [call_after_other hfull hr hne, call_after_other hfull hp hne.symm,
        call_placed hfull hp, call_placed hfull hr]
      exact stored_comm (fun n hn => putBy_lt hn) (fun n hn => putBy_lt hn)
        (place_apart hp hr (.inl hne))

theorem replyTo_ne_fault (c : PinCall) (n : Nat) (f : Fault) :
    replyTo c n ≠ .error (.fault f) := by
  cases c with
  | setMode pin m =>
    rw [replyTo]
    split <;> simp
  | mode pin => simp [replyTo]
  | setPull pin u => simp [replyTo]
  | pull pin => simp [replyTo]
  | write pin high => simp [replyTo]
  | read pin => simp [replyTo]
  | toggle pin => simp [replyTo]

section Placed

variable {h : H3} (hfull : h.Full) {pin : Nat} {p : Place} (hp : place? pin = some p)
include hfull hp

theorem call_unsupported {m : Mode} (hm : ¬Supports pin m) :
    call (.setMode pin m) h = (.error (.error (.unsupportedMode pin m)), h) := by
  have hnone : functionCode? pin m = none := by
    cases hc : functionCode? pin m with
    | none => rfl
    | some code => exact absurd ((supports_iff pin m).mpr (by rw [hc]; rfl)) hm
  rw [call_placed hfull (c := .setMode pin m) hp]
  simp only [replyTo, putBy, hnone]
  rfl

/-- Each of the changing calls stores a number, and this is what the pin then shows. -/
theorem call_setMode {m : Mode} (hm : Supports pin m) :
    ∃ h', call (.setMode pin m) h = (.ok .done, h') ∧
      modeOf h' pin = .ok (if m = .pwm then .alt1 else m) := by
  obtain ⟨code, hcode⟩ := Option.isSome_iff_exists.mp ((supports_iff pin m).mp hm)
  have hlt : code < 1 <<< 4 := functionCode_lt hcode
  have hrun : call (.setMode pin m) h = (.ok .done, h.store (p.field .function) code) := by
    rw [call_placed hfull (c := .setMode pin m) hp]
    simp only [replyTo, putBy, hcode]
    rfl
  have hfull' : (h.store (p.field .function) code).Full :=
    full_store hfull hlt
  refine ⟨_, hrun, ?_⟩
  rw [modeOf_placed hfull' hp, fetch_store_same h hlt (field_fits hp .function),
    functionMode_of_code hcode]

theorem call_setPull (u : Pull) :
    ∃ h', call (.setPull pin u) h = (.ok .done, h') ∧ pullOf h' pin = .ok (some u) := by
  have hrun : call (.setPull pin u) h = (.ok .done, h.store (p.field .pull) (pullCode u)) :=
    call_placed hfull (c := .setPull pin u) hp
  have hfull' : (h.store (p.field .pull) (pullCode u)).Full :=
    full_store hfull (f := p.field .pull) (pullCode_lt u)
  refine ⟨_, hrun, ?_⟩
  rw [pullOf_placed hfull' hp, fetch_store_same h (pullCode_lt u) (field_fits hp .pull),
    pullOfCode_pullCode]

theorem call_write (high : Bool) :
    ∃ h', call (.write pin high) h = (.ok .done, h') ∧ levelOf h' pin = .ok high := by
  have hrun : call (.write pin high) h = (.ok .done, h.store (p.field .data) high.toNat) :=
    call_placed hfull (c := .write pin high) hp
  have hfull' : (h.store (p.field .data) high.toNat).Full :=
    full_store hfull (f := p.field .data) (Word.toNat_lt_two high)
  refine ⟨_, hrun, ?_⟩
  rw [levelOf_placed hfull' hp,
    fetch_store_same h (Word.toNat_lt_two high) (field_fits hp .data)]
  cases high <;> rfl

theorem call_toggle :
    ∃ level h', levelOf h pin = .ok level ∧ call (.toggle pin) h = (.ok .done, h') ∧
      levelOf h' pin = .ok (!level) := by
  have hlt : 1 - h.fetch (p.field .data) < 1 <<< 1 := putBy_lt (c := .toggle pin) (p := p) rfl
  have hrun : call (.toggle pin) h =
      (.ok .done, h.store (p.field .data) (1 - h.fetch (p.field .data))) :=
    call_placed hfull (c := .toggle pin) hp
  have hfull' : (h.store (p.field .data) (1 - h.fetch (p.field .data))).Full :=
    full_store hfull hlt
  refine ⟨_, _, levelOf_placed hfull hp, hrun, ?_⟩
  rw [levelOf_placed hfull' hp, fetch_store_same h hlt (field_fits hp .data), fetch_data]
  cases ((h.window p.low).word p.dataSlot).getLsbD p.offset <;> rfl

/-- Asking is answered, and changes nothing. -/
theorem asking_answered :
    (∃ m, (Backend.mode pin : Act H3 Mode).run h = (.ok m, h)) ∧
      (∃ u, (Backend.pull pin : Act H3 (Option Pull)).run h = (.ok (some u), h)) ∧
        ∃ level, (Backend.read pin : Act H3 Bool).run h = (.ok level, h) := by
  have hrestorable := restorable h
  refine ⟨⟨_, Prod.ext (modeOf_placed hfull hp) (hrestorable.mode_leaves h pin trivial)⟩,
    ⟨_, Prod.ext (pullOf_placed hfull hp) (hrestorable.pull_leaves h pin trivial)⟩,
    ⟨_, Prod.ext (levelOf_placed hfull hp) (hrestorable.read_leaves h pin trivial)⟩⟩

end Placed

/-- Pins are isolated from one another. -/
structure Isolated (h : H3) : Prop where
  refused : ∀ c : PinCall, pinCount ≤ c.pin →
    call c h = (.error (.error (noSuchPin c.pin)), h)
  unsupported : ∀ pin m, pin < pinCount → ¬Supports pin m →
    call (.setMode pin m) h = (.error (.error (.unsupportedMode pin m)), h)
  placed : ∀ pin, pin < pinCount → ∃ p, place? pin = some p
  /-- A call changes no bit outside the one field it is about. -/
  contained : ∀ (c : PinCall) p, place? c.pin = some p →
    OnlyIn (p.field (partOf c)) h (call c h).2
  setMode : ∀ pin m, pin < pinCount → Supports pin m →
    ∃ h', call (.setMode pin m) h = (.ok .done, h') ∧
      modeOf h' pin = .ok (if m = .pwm then .alt1 else m)
  setPull : ∀ pin u, pin < pinCount →
    ∃ h', call (.setPull pin u) h = (.ok .done, h') ∧ pullOf h' pin = .ok (some u)
  write : ∀ pin high, pin < pinCount →
    ∃ h', call (.write pin high) h = (.ok .done, h') ∧ levelOf h' pin = .ok high
  toggle : ∀ pin, pin < pinCount →
    ∃ level h', levelOf h pin = .ok level ∧ call (.toggle pin) h = (.ok .done, h') ∧
      levelOf h' pin = .ok (!level)
  /-- Asking for what a pin shows changes nothing. -/
  answers : ∀ pin, pin < pinCount →
    (∃ m, (Backend.mode pin : Act H3 Mode).run h = (.ok m, h)) ∧
      (∃ u, (Backend.pull pin : Act H3 (Option Pull)).run h = (.ok (some u), h)) ∧
        ∃ level, (Backend.read pin : Act H3 Bool).run h = (.ok level, h)
  /-- No bit is in two fields. -/
  disjoint : ∀ {pin q p r}, place? pin = some p → place? q = some r →
    ∀ a b, pin ≠ q ∨ a ≠ b →
      ∀ low i k, ¬((p.field a).Covers low i k ∧ (r.field b).Covers low i k)
  others : ∀ (c : PinCall) q, q ≠ c.pin →
    modeOf (call c h).2 q = modeOf h q ∧ pullOf (call c h).2 q = pullOf h q ∧
      levelOf (call c h).2 q = levelOf h q
  commute : ∀ c d : PinCall, c.pin ≠ d.pin → Commute c d h
  /-- No call touches a register outside the windows. -/
  inside : ∀ (c : PinCall) (f : Fault), (call c h).1 ≠ .error (.fault f)

/-- Windows as long as a block of registers keep the pins apart, whatever is in them. -/
theorem pins_isolated {h : H3} (hfull : h.Full) : Isolated h where
  refused c hpin := call_refused h (place?_eq_none hpin)
  unsupported pin m hpin hm := by
    obtain ⟨p, hp⟩ := (exists_place_iff pin).mpr hpin
    exact call_unsupported hfull hp hm
  placed pin hpin := (exists_place_iff pin).mpr hpin
  contained c p hp := by
    rw [call_placed hfull hp]
    exact onlyIn_stored fun n hn => putBy_lt hn
  setMode pin m hpin hm := by
    obtain ⟨p, hp⟩ := (exists_place_iff pin).mpr hpin
    exact call_setMode hfull hp hm
  setPull pin u hpin := by
    obtain ⟨p, hp⟩ := (exists_place_iff pin).mpr hpin
    exact call_setPull hfull hp u
  write pin high hpin := by
    obtain ⟨p, hp⟩ := (exists_place_iff pin).mpr hpin
    exact call_write hfull hp high
  toggle pin hpin := by
    obtain ⟨p, hp⟩ := (exists_place_iff pin).mpr hpin
    exact call_toggle hfull hp
  answers pin hpin := by
    obtain ⟨p, hp⟩ := (exists_place_iff pin).mpr hpin
    exact asking_answered hfull hp
  disjoint hp hr a b hne low i k := by
    rintro ⟨⟨hlow, hword, hlo, hhi⟩, hlow', hword', hlo', hhi'⟩
    have hapart := place_apart hp hr hne (hlow.trans hlow'.symm) (hword.trans hword'.symm)
    omega
  others c q hne := shows_congr hfull (full_call hfull c) fun r hr a =>
    fetch_call_other hfull hr (fun heq => hne heq.symm) a
  commute c d hne := call_comm hfull hne
  inside c f := by
    cases hp : place? c.pin with
    | none =>
      rw [call_refused h hp]
      simp
    | some p =>
      rw [call_placed hfull hp]
      exact replyTo_ne_fault c _ f

/-- Full windows in which some registers of three banks are not zero. -/
def busy : H3 where
  pio := ⟨0, blockLen, none, ⟨[(512, 0x10000071), (516, 0x40), (519, 0x9)]⟩⟩
  rPio := ⟨0, blockLen, none, ⟨[(768, 0x7777)]⟩⟩

theorem pins_isolated_busy : busy.Full ∧ Isolated busy :=
  ⟨⟨rfl, rfl⟩, pins_isolated ⟨rfl, rfl⟩⟩

end BoardGpio.H3
