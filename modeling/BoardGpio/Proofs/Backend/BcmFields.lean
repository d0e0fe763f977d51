import BoardGpio.Proofs.Backend.Bcm
import BoardGpio.Proofs.Backend.PinCalls

/-!
# What calls do to the registers of BCM283x pins

A function field and, on the BCM2711, a pull field are changed in place and belong to one pin. The
other registers are written as a whole: what sets and clears pins is told by single ones, and the
clocked sequence of the older chips leaves its two registers empty. A call does to the registers
what it is for and nothing else (`registers_isolated`).
-/

set_option autoImplicit false

namespace BoardGpio.Bcm

open Backend Bench

/-- The window is as long as a block of registers. -/
def Full (b : Bcm) : Prop := b.window.len = blockLen

/-- At most bits `k` of registers `i` with `covers i k` have changed. -/
structure OnlyIn (covers : Nat → Nat → Prop) (b b' : Bcm) : Prop where
  soc : b'.soc = b.soc
  window : Window.OnlyIn covers b.window b'.window

theorem OnlyIn.put {covers : Nat → Nat → Prop} {b₀ b : Bcm} (h : OnlyIn covers b₀ b) {i : Nat}
    (v : Word) (hcovers : ∀ k, covers i k) : OnlyIn covers b₀ (b.put i v) :=
  ⟨h.soc, h.window.trans (Window.OnlyIn.setWord _ fun k hk => absurd (hcovers k) hk)⟩

theorem OnlyIn.refl (covers : Nat → Nat → Prop) (b : Bcm) : OnlyIn covers b b :=
  ⟨rfl, Window.OnlyIn.refl _ _⟩

theorem word_put (b : Bcm) (i j : Nat) (v : Word) :
    (b.put i v).window.word j = if i = j then v else b.window.word j :=
  Window.word_setWord b.window i j v

@[simp] theorem words_put (b : Bcm) (i : Nat) (v : Word) :
    (b.put i v).window.words = b.window.words := rfl

theorem words_of_full {b : Bcm} (hfull : b.Full) : b.window.words = 1024 := by
  show b.window.len / 4 = 1024
  rw [show b.window.len = blockLen from hfull]
  rfl

/-- What is done to a pin is refused for a pin that the chip does not have. -/
theorem run_checked {α : Type} (b : Bcm) (pin : Nat) (x : Act Bcm α) :
    (check pin >>= fun _ => x).run b =
      if pin < pinCount then x.run b else (.error (.error (noSuchPin pin)), b) := by
  rw [Act.run_bind, run_check]
  by_cases hpin : pin < pinCount <;> simp [hpin]

theorem run_read (b : Bcm) (pin : Nat) :
    (Backend.read pin : Act Bcm Bool).run b =
      if pin < pinCount then
        (if 13 + pin / 32 < b.window.words then
          .ok ((b.window.word (13 + pin / 32)).getLsbD (pin % 32))
        else .error (b.window.outside (13 + pin / 32)), b)
      else (.error (.error (noSuchPin pin)), b) := by
  show (read pin).run b = _
  rw [read, run_checked]
  simp only [levelWord]
  rw [Act.run_bind, run_readWord]
  by_cases hw : 13 + pin / 32 < b.window.words <;> simp [hw]

/-- Without pull fields a pull cannot be read. -/
theorem run_pull_unread {b : Bcm} (hs : b.soc ≠ .bcm2711) (pin : Nat) :
    (Backend.pull pin : Act Bcm (Option Pull)).run b =
      (if pin < pinCount then .ok none else .error (.error (noSuchPin pin)), b) := by
  show (pull pin).run b = _
  rw [pull, run_checked, Act.run_bind_ok _ (Act.run_gets _ b), if_neg hs]
  by_cases hpin : pin < pinCount <;> simp [hpin]

/-- The first of the registers that set pins, or of those that clear them. -/
def driveWord (high : Bool) : Nat := if high then 7 else 10

theorem run_write (b : Bcm) (pin : Nat) (high : Bool) :
    (Backend.write pin high : Act Bcm Unit).run b =
      if pin < pinCount then
        if driveWord high + pin / 32 < b.window.words then
          (.ok (), b.put (driveWord high + pin / 32) (Word.bit (pin % 32)))
        else (.error (b.window.outside (driveWord high + pin / 32)), b)
      else (.error (.error (noSuchPin pin)), b) := by
  show (write pin high).run b = _
  have hfirst : (if high = true then setWord else clearWord) = driveWord high := rfl
  rw [write, run_checked]
  simp only [hfirst, run_writeWord]

theorem run_toggle (b : Bcm) (pin : Nat) :
    (Backend.toggle pin : Act Bcm Unit).run b =
      match (Backend.read pin : Act Bcm Bool).run b with
      | (.ok level, b) => (Backend.write pin (!level) : Act Bcm Unit).run b
      | (.error e, b) => (.error e, b) := by
  show (read pin >>= fun level => write pin (!level)).run b = _
  rw [Act.run_bind, show (Backend.read pin : Act Bcm Bool) = read pin from rfl]
  rcases (read pin).run b with ⟨_ | _, _⟩ <;> rfl

/-- Without pull fields, a pull is written into two registers, which are emptied again. -/
theorem run_setPull_clocked {b : Bcm} (hs : b.soc ≠ .bcm2711) (hfull : b.Full) {pin : Nat}
    (hpin : pin < pinCount) (u : Pull) :
    (Backend.setPull pin u : Act Bcm Unit).run b =
      (.ok (), (((b.put 37 (BitVec.ofNat 32 (pullClockCode u))).put (38 + pin / 32)
        (Word.bit (pin % 32))).put 37 0).put (38 + pin / 32) 0) := by
  have hwords := words_of_full hfull
  have hlt : pin < 54 := hpin
  have hclock : 38 + pin / 32 < 1024 := by omega
  show (setPull pin u).run b = _
  rw [setPull, run_checked, if_pos hpin, Act.run_bind_ok _ (Act.run_gets _ b), if_neg hs]
  simp only [Act.run_bind, run_writeWord, pullWord, pullClockWord, words_put, hwords, hclock,
    if_true, show 37 < 1024 by omega]

theorem call_refused (b : Bcm) {c : PinCall} (hpin : pinCount ≤ c.pin) :
    call c b = (.error (.error (noSuchPin c.pin)), b) := by
  have hno : ¬c.pin < pinCount := Nat.not_lt.mpr hpin
  cases c with
  | setMode pin m =>
    have hno : ¬pin < pinCount := hno
    rw [call, PinCall.onBackend, run_quiet, run_setMode, if_neg hno]
    rfl
  | mode pin =>
    have hno : ¬pin < pinCount := hno
    rw [call, PinCall.onBackend, Act.run_map, run_mode, if_neg hno]
    rfl
  | setPull pin u =>
    have hno : ¬pin < pinCount := hno
    have hrun : (Backend.setPull pin u : Act Bcm Unit).run b =
        (.error (.error (noSuchPin pin)), b) := by
      show (setPull pin u).run b = _
      rw [setPull, run_checked, if_neg hno]
    rw [call, PinCall.onBackend, run_quiet, hrun]
    rfl
  | pull pin =>
    have hno : ¬pin < pinCount := hno
    have hrun : (Backend.pull pin : Act Bcm (Option Pull)).run b =
        (.error (.error (noSuchPin pin)), b) := by
      show (pull pin).run b = _
      rw [pull, run_checked, if_neg hno]
    rw [call, PinCall.onBackend, Act.run_map, hrun]
    rfl
  | write pin high =>
    have hno : ¬pin < pinCount := hno
    rw [call, PinCall.onBackend, run_quiet, run_write, if_neg hno]
    rfl
  | read pin =>
    have hno : ¬pin < pinCount := hno
    rw [call, PinCall.onBackend, Act.run_map, run_read, if_neg hno]
    rfl
  | toggle pin =>
    have hno : ¬pin < pinCount := hno
    rw [call, PinCall.onBackend, run_quiet, run_toggle, run_read, if_neg hno]
    rfl

/-- The pin can be switched to the mode. -/
def Supports (soc : Soc) (pin : Nat) (m : Mode) : Prop :=
  m ≠ .disabled ∧ (m = .pwm → pin = 18 ∨ (pin = 12 ∨ pin = 13) ∧ soc ≠ .bcm2835)

/-- The mode that a pin shows after it was switched to `m`. -/
def shownMode (pin : Nat) (m : Mode) : Mode :=
  if m = .pwm then if pin = 18 then .alt5 else .alt0 else m

theorem exists_code {m : Mode} (hp : m ≠ .pwm) (hd : m ≠ .disabled) :
    ∃ c, functionCode? m = some c := by
  cases m <;> simp [functionCode?] at hp hd ⊢

/-- What a supported mode shows as has a code, which is read back as this mode. -/
theorem code_of_supports {soc : Soc} {pin : Nat} {m : Mode} (h : Supports soc pin m) :
    ∃ c, (effectiveMode? soc pin m).bind functionCode? = some c ∧ c < 1 <<< 3 ∧
      functionMode c = shownMode pin m := by
  obtain ⟨hd, hpwm⟩ := h
  have hshown : effectiveMode? soc pin m = some (shownMode pin m) ∧
      ∃ c, functionCode? (shownMode pin m) = some c := by
    by_cases hp : m = .pwm
    · subst hp
      unfold effectiveMode? shownMode pwmMode?
      by_cases h18 : pin = 18
      · simp [h18, functionCode?]
      · have halt := (hpwm rfl).resolve_left h18
        simp [h18, halt, functionCode?]
    · have hsame : shownMode pin m = m := if_neg hp
      rw [hsame, effectiveMode?, if_neg hp, if_neg hd]
      exact ⟨rfl, exists_code hp hd⟩
  obtain ⟨heff, c, hc⟩ := hshown
  refine ⟨c, ?_, functionCode_lt hc, functionMode_of_code hc⟩
  rw [heff]
  exact hc

theorem no_code_of_not_supports {soc : Soc} {pin : Nat} {m : Mode}
    (h : ¬Supports soc pin m) : (effectiveMode? soc pin m).bind functionCode? = none := by
  by_cases hp : m = .pwm
  · subst hp
    have hno : ¬(pin = 18 ∨ (pin = 12 ∨ pin = 13) ∧ soc ≠ .bcm2835) := fun hyes =>
      h ⟨by decide, fun _ => hyes⟩
    have h18 : pin ≠ 18 := fun h => hno (.inl h)
    have halt : ¬((pin = 12 ∨ pin = 13) ∧ soc ≠ .bcm2835) := fun h => hno (.inr h)
    simp [effectiveMode?, pwmMode?, h18, halt]
  · have hdisabled : m = .disabled := by
      cases hd : decide (m = .disabled) with
      | true => exact of_decide_eq_true hd
      | false => exact absurd ⟨of_decide_eq_false hd, fun h => absurd h hp⟩ h
    simp [effectiveMode?, hdisabled]

section Pins

variable {b : Bcm} (hfull : b.Full) {pin : Nat} (hpin : pin < pinCount)
include hpin

theorem call_unsupported {m : Mode} (hm : ¬Supports b.soc pin m) :
    call (.setMode pin m) b = (.error (.error (.unsupportedMode pin m)), b) := by
  rw [call, PinCall.onBackend, run_quiet, run_setMode, if_pos hpin,
    no_code_of_not_supports hm]
  rfl

include hfull

/-- Switching a pin changes its own function field. -/
theorem call_setMode {m : Mode} (hm : Supports b.soc pin m) :
    ∃ b', call (.setMode pin m) b = (.ok .done, b') ∧
      OnlyIn (fun i k => i = pin / 10 ∧ pin % 10 * 3 ≤ k ∧ k < pin % 10 * 3 + 3) b b' ∧
        modeOf b' pin = .ok (shownMode pin m) ∧ ∀ q, q ≠ pin → modeOf b' q = modeOf b q := by
  obtain ⟨c, hc, hlt, hshown⟩ := code_of_supports hm
  have hp : pin < 54 := hpin
  have hw : pin / 10 < b.window.words := by
    rw [words_of_full hfull]
    omega
  have hrun : call (.setMode pin m) b = (.ok .done,
      b.put (pin / 10) ((b.window.word (pin / 10)).setField (pin % 10 * 3) 3 c)) := by
    rw [call, PinCall.onBackend, run_quiet, run_setMode, if_pos hpin, hc]
    simp only [if_pos hw]
    rfl
  refine ⟨_, hrun, ⟨rfl, Window.OnlyIn.setField _ hlt fun k hlo hhi => ⟨rfl, hlo, hhi⟩⟩,
    (modeOf_put_same hpin hw hlt).trans (by rw [hshown]), fun q hne => ?_⟩
  refine modeOf_put b _ _ q fun _ hi => ?_
  exact Word.field_setField_disjoint _ hlt (by omega)

/-- On the BCM2711, setting a pull changes the pin's own pull field. -/
theorem call_setPull_field (hs : b.soc = .bcm2711) (u : Pull) :
    ∃ b', call (.setPull pin u) b = (.ok .done, b') ∧
      OnlyIn (fun i k => i = 57 + pin / 16 ∧ pin % 16 * 2 ≤ k ∧ k < pin % 16 * 2 + 2) b b' ∧
        pullOf b' pin = .ok (some u) ∧ ∀ q, q ≠ pin → pullOf b' q = pullOf b q := by
  have hp : pin < 54 := hpin
  have hw : 57 + pin / 16 < b.window.words := by
    rw [words_of_full hfull]
    omega
  have hrun : call (.setPull pin u) b = (.ok .done, b.put (57 + pin / 16)
      ((b.window.word (57 + pin / 16)).setField (pin % 16 * 2) 2 (pullCode u))) := by
    rw [call, PinCall.onBackend, run_quiet, run_setPull hs, if_pos hpin, if_pos hw]
    rfl
  refine ⟨_, hrun, ⟨rfl, Window.OnlyIn.setField _ (pullCode_lt u)
    fun k hlo hhi => ⟨rfl, hlo, hhi⟩⟩, pullOf_put_same hs hpin hw u, fun q hne => ?_⟩
  refine pullOf_put hs _ _ q fun hi => ?_
  exact Word.field_setField_disjoint _ (pullCode_lt u) (by omega)

/-- On the other chips, setting a pull leaves its two registers empty. -/
theorem call_setPull_clocked (hs : b.soc ≠ .bcm2711) (u : Pull) :
    ∃ b', call (.setPull pin u) b = (.ok .done, b') ∧
      OnlyIn (fun i _ => i = 37 ∨ i = 38 + pin / 32) b b' ∧
        b'.window.word 37 = 0 ∧ b'.window.word (38 + pin / 32) = 0 := by
  have hrun : call (.setPull pin u) b = (.ok .done,
      (((b.put 37 (BitVec.ofNat 32 (pullClockCode u))).put (38 + pin / 32)
        (Word.bit (pin % 32))).put 37 0).put (38 + pin / 32) 0) := by
    rw [call, PinCall.onBackend, run_quiet, run_setPull_clocked hs hfull hpin]
    rfl
  refine ⟨_, hrun, ?_, ?_, ?_⟩
  · refine OnlyIn.put (OnlyIn.put (OnlyIn.put (OnlyIn.put (OnlyIn.refl _ b) _ ?_) _ ?_) _ ?_) _ ?_
    · exact fun _ => .inl rfl
    · exact fun _ => .inr rfl
    · exact fun _ => .inl rfl
    · exact fun _ => .inr rfl
  · rw [word_put, if_neg (by omega), word_put, if_pos rfl]
  · rw [word_put, if_pos rfl]

/-- Driving a pin writes a single one into one register. -/
theorem call_write (high : Bool) :
    ∃ b', call (.write pin high) b = (.ok .done, b') ∧
      OnlyIn (fun i _ => i = driveWord high + pin / 32) b b' ∧
        ∀ k, (b'.window.word (driveWord high + pin / 32)).getLsbD k = decide (k = pin % 32) := by
  have hp : pin < 54 := hpin
  have hfirst : driveWord high ≤ 10 := by cases high <;> decide
  have hw : driveWord high + pin / 32 < b.window.words := by
    rw [words_of_full hfull]
    omega
  have hrun : call (.write pin high) b =
      (.ok .done, b.put (driveWord high + pin / 32) (Word.bit (pin % 32))) := by
    rw [call, PinCall.onBackend, run_quiet, run_write, if_pos hpin, if_pos hw]
    rfl
  refine ⟨_, hrun, OnlyIn.put (OnlyIn.refl _ b) _ fun _ => rfl, fun k => ?_⟩
  rw [word_put, if_pos rfl, Word.getLsbD_bit, ← Bool.decide_and]
  apply decide_eq_decide.mpr
  constructor
  · exact fun ⟨_, hk⟩ => hk.symm
  · intro hk
    omega

theorem levelOf_placed :
    levelOf b pin = .ok ((b.window.word (13 + pin / 32)).getLsbD (pin % 32)) := by
  have hp : pin < 54 := hpin
  have hw : 13 + pin / 32 < b.window.words := by
    rw [words_of_full hfull]
    omega
  rw [levelOf, run_read, if_pos hpin, if_pos hw]

/-- Inverting a pin drives it to the other level than the one it shows. -/
theorem call_toggle :
    call (.toggle pin) b =
      call (.write pin (!(b.window.word (13 + pin / 32)).getLsbD (pin % 32))) b := by
  have hread : (Backend.read pin : Act Bcm Bool).run b =
      (.ok ((b.window.word (13 + pin / 32)).getLsbD (pin % 32)), b) :=
    Prod.ext (levelOf_placed hfull hpin) (read_leaves pin b)
  rw [call, call, PinCall.onBackend, PinCall.onBackend, run_quiet, run_quiet, run_toggle, hread]

end Pins

/-- Every call does to the registers what it is for and nothing else. -/
structure Isolated (b : Bcm) : Prop where
  refused : ∀ c : PinCall, pinCount ≤ c.pin →
    call c b = (.error (.error (noSuchPin c.pin)), b)
  unsupported : ∀ pin m, pin < pinCount → ¬Supports b.soc pin m →
    call (.setMode pin m) b = (.error (.error (.unsupportedMode pin m)), b)
  setMode : ∀ pin m, pin < pinCount → Supports b.soc pin m →
    ∃ b', call (.setMode pin m) b = (.ok .done, b') ∧
      OnlyIn (fun i k => i = pin / 10 ∧ pin % 10 * 3 ≤ k ∧ k < pin % 10 * 3 + 3) b b' ∧
        modeOf b' pin = .ok (shownMode pin m) ∧ ∀ q, q ≠ pin → modeOf b' q = modeOf b q
  setPull_field : ∀ pin u, pin < pinCount → b.soc = .bcm2711 →
    ∃ b', call (.setPull pin u) b = (.ok .done, b') ∧
      OnlyIn (fun i k => i = 57 + pin / 16 ∧ pin % 16 * 2 ≤ k ∧ k < pin % 16 * 2 + 2) b b' ∧
        pullOf b' pin = .ok (some u) ∧ ∀ q, q ≠ pin → pullOf b' q = pullOf b q
  setPull_clocked : ∀ pin u, pin < pinCount → b.soc ≠ .bcm2711 →
    ∃ b', call (.setPull pin u) b = (.ok .done, b') ∧
      OnlyIn (fun i _ => i = 37 ∨ i = 38 + pin / 32) b b' ∧
        b'.window.word 37 = 0 ∧ b'.window.word (38 + pin / 32) = 0
  write : ∀ pin high, pin < pinCount →
    ∃ b', call (.write pin high) b = (.ok .done, b') ∧
      OnlyIn (fun i _ => i = driveWord high + pin / 32) b b' ∧
        ∀ k, (b'.window.word (driveWord high + pin / 32)).getLsbD k = decide (k = pin % 32)
  /-- Inverting a pin is driving it against its level bit, which is what the pin shows. -/
  toggle : ∀ pin, pin < pinCount →
    levelOf b pin = .ok ((b.window.word (13 + pin / 32)).getLsbD (pin % 32)) ∧
      call (.toggle pin) b =
        call (.write pin (!(b.window.word (13 + pin / 32)).getLsbD (pin % 32))) b
  /-- Asking changes nothing. -/
  asking : ∀ pin, (call (.mode pin) b).2 = b ∧ (call (.pull pin) b).2 = b ∧
    (call (.read pin) b).2 = b
  /-- No call touches a register outside the window. -/
  inside : ∀ (c : PinCall) (f : Fault), (call c b).1 ≠ .error (.fault f)

theorem asking_leaves (b : Bcm) (pin : Nat) :
    (call (.mode pin) b).2 = b ∧ (call (.pull pin) b).2 = b ∧ (call (.read pin) b).2 = b := by
  refine ⟨?_, ?_, ?_⟩
  · rw [call, PinCall.onBackend, Act.run_map, run_mode]
  · rw [call, PinCall.onBackend, Act.run_map]
    by_cases hs : b.soc = .bcm2711
    · rw [run_pull hs]
    · rw [run_pull_unread hs]
  · rw [call, PinCall.onBackend, Act.run_map]
    exact read_leaves pin b

/-- No call touches a register outside a full window. -/
theorem call_ne_fault {b : Bcm} (hfull : b.Full) (c : PinCall) (f : Fault) :
    (call c b).1 ≠ .error (.fault f) := by
  by_cases hpin : c.pin < pinCount
  case neg =>
    rw [call_refused b (Nat.not_lt.mp hpin)]
    simp
  have hwords := words_of_full hfull
  have hwrite : ∀ pin high, pin < pinCount → (call (.write pin high) b).1 ≠ .error (.fault f) := by
    intro pin high hpin
    obtain ⟨b', hrun, -⟩ := call_write hfull hpin high
    rw [hrun]
    simp
  cases c with
  | setMode pin m =>
    have hpin : pin < pinCount := hpin
    by_cases hm : Supports b.soc pin m
    · obtain ⟨b', hrun, -⟩ := call_setMode hfull hpin hm
      rw [hrun]
      simp
    · rw [call_unsupported hpin hm]
      simp
  | mode pin =>
    have hpin : pin < pinCount := hpin
    have hlt : pin < 54 := hpin
    rw [call, PinCall.onBackend, Act.run_map, run_mode, if_pos hpin, if_pos (by omega)]
    simp [Except.map]
  | setPull pin u =>
    have hpin : pin < pinCount := hpin
    by_cases hs : b.soc = .bcm2711
    · obtain ⟨b', hrun, -⟩ := call_setPull_field hfull hpin hs u
      rw [hrun]
      simp
    · obtain ⟨b', hrun, -⟩ := call_setPull_clocked hfull hpin hs u
      rw [hrun]
      simp
  | pull pin =>
    have hpin : pin < pinCount := hpin
    have hlt : pin < 54 := hpin
    rw [call, PinCall.onBackend, Act.run_map]
    by_cases hs : b.soc = .bcm2711
    · rw [run_pull hs, if_pos hpin, if_pos (by omega)]
      simp [Except.map]
    · rw [run_pull_unread hs, if_pos hpin]
      simp [Except.map]
  | write pin high => exact hwrite pin high hpin
  | read pin =>
    have hpin : pin < pinCount := hpin
    have hrun : (call (.read pin) b).1 = (levelOf b pin).map Answer.flag := by
      rw [call, PinCall.onBackend, Act.run_map, levelOf]
    rw [hrun, levelOf_placed hfull hpin]
    simp [Except.map]
  | toggle pin =>
    have hpin : pin < pinCount := hpin
    rw [call_toggle hfull hpin]
    exact hwrite pin _ hpin

/-- A window as long as a block of registers keeps its pins apart, whatever is in it. -/
theorem registers_isolated {b : Bcm} (hfull : b.Full) : Isolated b where
  refused _ hpin := call_refused b hpin
  unsupported _ _ hpin hm := call_unsupported hpin hm
  setMode _ _ hpin hm := call_setMode hfull hpin hm
  setPull_field _ u hpin hs := call_setPull_field hfull hpin hs u
  setPull_clocked _ u hpin hs := call_setPull_clocked hfull hpin hs u
  write _ high hpin := call_write hfull hpin high
  toggle _ hpin := ⟨levelOf_placed hfull hpin, call_toggle hfull hpin⟩
  asking pin := asking_leaves b pin
  inside c f := call_ne_fault hfull c f

/-- A full window of a BCM2711 in which some registers are not zero. -/
def busy : Bcm where
  window := ⟨0, blockLen, none, ⟨[(1, 0x24000249), (7, 0xffff), (13, 0x1000), (58, 0x15)]⟩⟩
  soc := .bcm2711

theorem registers_isolated_busy : busy.Full ∧ Isolated busy :=
  ⟨rfl, registers_isolated rfl⟩

end BoardGpio.Bcm
