import BoardGpio.Proofs.Backend.H3Fields
import BoardGpio.Proofs.Backend.Matching
import BoardGpio.Proofs.Backend.Sim

/-!
# Simulated pins mirror the registers of the H3

As many simulated pins as the H3 has mirror its registers if every pin shows the mode and the pull
of its fields and has its data bit as latch (`Sim.Mirrors`). Untouched pins mirror zeros, and calls
with a mode that every pin has (`Mode.Common`) match (`Sim.matching`). Levels match for outputs
only: any other pin simulates what drives it from outside, where registers without a chip behind
them keep the data bit.
-/

set_option autoImplicit false

namespace BoardGpio

open Backend

/-- Every pin of the H3 and every simulated pin can be switched to the mode. -/
def Mode.Common (m : Mode) : Prop := m ≠ .pwm ∧ m ≠ .alt5

instance (m : Mode) : Decidable m.Common := inferInstanceAs (Decidable (_ ∧ _))

/-- The latch of a simulated pin, or why it has none. -/
def Sim.latchOf (s : Sim) (pin : Nat) : Except Failure Bool :=
  ((Sim.look pin SimPin.latch).run s).1

def H3.zeros : H3 := ⟨.zeros 0 blockLen none, .zeros 0 blockLen none⟩

/-- The simulated pins and the registers show the same. -/
structure Sim.Agrees (s : Sim) (h : H3) : Prop where
  pinCount : Backend.pinCount s = Backend.pinCount h
  modes : ∀ pin, modeOf s pin = modeOf h pin
  pulls : ∀ pin, pullOf s pin = pullOf h pin
  /-- The latch is the data bit. -/
  latches : ∀ pin, s.latchOf pin = levelOf h pin

/-! ## One pin -/

namespace H3

variable {h : H3} {pin : Nat} {p : Place} {x : SimPin}

/-- The fields of a place hold what is simulated. -/
structure Shows (h : H3) (p : Place) (x : SimPin) : Prop where
  mode : functionMode (h.fetch (p.field .function)) = x.mode
  pull : pullOfCode (h.fetch (p.field .pull)) = x.pull
  latch : h.fetch (p.field .data) = x.latch.toNat

theorem common_functionMode (n : Nat) : (functionMode n).Common := by
  unfold functionMode
  split <;> decide

theorem functionCode_common {m : Mode} (hm : m.Common) (pin : Nat) :
    ∃ code, functionCode? pin m = some code ∧ functionMode code = m := by
  obtain ⟨code, hcode⟩ := Option.isSome_iff_exists.mp
    ((supports_iff pin m).mp ⟨hm.2, fun hpwm => absurd hpwm hm.1⟩)
  refine ⟨code, hcode, ?_⟩
  rw [functionMode_of_code hcode, if_neg hm.1]

/-- What is stored in one field of a place leaves its other fields alone. -/
theorem fetch_store_part (hp : place? pin = some p) {a b : Part} (hab : a ≠ b) {n : Nat}
    (hn : n < 1 <<< (p.field a).width) :
    (h.store (p.field a) n).fetch (p.field b) = h.fetch (p.field b) :=
  fetch_store_apart h hn (place_apart hp hp (.inr hab))

theorem Shows.setMode (hs : h.Shows p x) (hp : place? pin = some p) {code : Nat}
    (hcode : code < 1 <<< 4) :
    (h.store (p.field .function) code).Shows p { x with mode := functionMode code } where
  mode := congrArg functionMode (fetch_store_same h hcode (field_fits hp .function))
  pull := by rw [fetch_store_part hp (by decide) hcode, hs.pull]
  latch := by rw [fetch_store_part hp (by decide) hcode, hs.latch]

theorem Shows.setPull (hs : h.Shows p x) (hp : place? pin = some p) (u : Pull) :
    (h.store (p.field .pull) (pullCode u)).Shows p { x with pull := u } where
  mode := by rw [fetch_store_part hp (by decide) (pullCode_lt u), hs.mode]
  pull := by rw [fetch_store_same h (pullCode_lt u) (field_fits hp .pull), pullOfCode_pullCode]
  latch := by rw [fetch_store_part hp (by decide) (pullCode_lt u), hs.latch]

theorem Shows.setLatch (hs : h.Shows p x) (hp : place? pin = some p) (high : Bool) :
    (h.store (p.field .data) high.toNat).Shows p { x with latch := high } where
  mode := by rw [fetch_store_part hp (by decide) (Word.toNat_lt_two high), hs.mode]
  pull := by rw [fetch_store_part hp (by decide) (Word.toNat_lt_two high), hs.pull]
  latch := fetch_store_same h (Word.toNat_lt_two high) (field_fits hp .data)

end H3

/-! ## All pins -/

namespace Sim

open H3 (place? Place Part)

variable {s : Sim} {h : H3} {pin : Nat} {p : Place} {x : SimPin}

/-- Every pin shows what its fields hold. -/
structure Mirrors (s : Sim) (h : H3) : Prop where
  size : s.pins.size = H3.pinCount
  readable : s.pullReadable = true
  full : h.Full
  shows : ∀ pin p x, place? pin = some p → s.pins[pin]? = some x → h.Shows p x

/-- A pin is there on both sides, or on neither. -/
theorem Mirrors.cases (hm : s.Mirrors h) (pin : Nat) :
    (∃ p x, place? pin = some p ∧ s.pins[pin]? = some x ∧ h.Shows p x) ∨
      place? pin = none ∧ s.pins[pin]? = none := by
  by_cases hpin : pin < H3.pinCount
  · obtain ⟨p, hp⟩ := (H3.exists_place_iff pin).mpr hpin
    have hlt : pin < s.pins.size := by rw [hm.size]; exact hpin
    have hx : s.pins[pin]? = some s.pins[pin] := Array.getElem?_eq_getElem hlt
    exact .inl ⟨p, _, hp, hx, hm.shows pin p _ hp hx⟩
  · have hsize : s.pins.size ≤ pin := by
      rw [hm.size]
      omega
    exact .inr ⟨H3.place?_eq_none (by omega), Array.getElem?_eq_none hsize⟩

theorem fresh_mirrors : (fresh H3.pinCount).Mirrors H3.zeros where
  size := Array.size_replicate
  readable := rfl
  full := ⟨rfl, rfl⟩
  shows pin p x hp hx := by
    obtain ⟨hlt, hget⟩ := Array.getElem?_eq_some_iff.mp hx
    have hfresh : x = {} := by
      rw [← hget]
      exact Array.getElem_replicate hlt
    subst hfresh
    have hzero : ∀ a, H3.zeros.fetch (p.field a) = 0 := by
      intro a
      have hword : (H3.zeros.window (p.field a).low).word (p.field a).word = 0 := by
        cases (p.field a).low <;> rfl
      simp [H3.fetch, Word.field, hword]
    refine ⟨?_, ?_, ?_⟩ <;> rw [hzero] <;> rfl

/-- What is stored for a pin shows on this pin alone. -/
theorem Mirrors.store (hm : s.Mirrors h) (hp : place? pin = some p) (hx : s.pins[pin]? = some x)
    {a : Part} {n : Nat} (hn : n < 1 <<< (p.field a).width) {y : SimPin}
    (hy : (h.store (p.field a) n).Shows p y) :
    (s.replaced pin y).Mirrors (h.store (p.field a) n) := by
  refine ⟨?_, hm.readable, H3.full_store hm.full hn, fun q r z hr hz => ?_⟩
  · rw [← hm.size]
    exact Array.size_setIfInBounds
  · by_cases hq : q = pin
    · subst hq
      rw [hp] at hr
      rw [getElem?_replaced_same y hx] at hz
      cases hr
      cases hz
      exact hy
    · -- neither the record of another pin has changed nor a field of it
      rw [getElem?_replaced_ne s y hq] at hz
      have hother : ∀ b, (h.store (p.field a) n).fetch (r.field b) = h.fetch (r.field b) := fun b =>
        H3.fetch_store_apart h hn (H3.place_apart hp hr (.inl fun heq => hq heq.symm))
      have hs := hm.shows q r z hr hz
      refine ⟨?_, ?_, ?_⟩ <;> rw [hother]
      · exact hs.mode
      · exact hs.pull
      · exact hs.latch

/-! ## Calls -/

theorem Mirrors.modeOf (hm : s.Mirrors h) (pin : Nat) :
    Backend.modeOf s pin = Backend.modeOf h pin := by
  rcases hm.cases pin with ⟨p, x, hp, hx, hs⟩ | ⟨hp, hx⟩
  · rw [H3.modeOf_placed hm.full hp, Backend.modeOf, run_mode, hx, hs.mode]
  · rw [Backend.modeOf, Backend.modeOf, run_mode, H3.run_mode, hx, hp]

theorem Mirrors.pullOf (hm : s.Mirrors h) (pin : Nat) :
    Backend.pullOf s pin = Backend.pullOf h pin := by
  rcases hm.cases pin with ⟨p, x, hp, hx, hs⟩ | ⟨hp, hx⟩
  · rw [H3.pullOf_placed hm.full hp, Backend.pullOf, run_pull, hx, hs.pull, hm.readable]
    rfl
  · rw [Backend.pullOf, Backend.pullOf, run_pull, H3.run_pull, hx, hp]

theorem latchOf_eq (s : Sim) (pin : Nat) :
    s.latchOf pin = match s.pins[pin]? with
      | some x => .ok x.latch
      | none => .error (.error (noSuchPin pin)) := by
  simp only [latchOf, Act.run, look]
  cases s.pins[pin]? <;> rfl

theorem Mirrors.latchOf (hm : s.Mirrors h) (pin : Nat) : s.latchOf pin = levelOf h pin := by
  rw [latchOf_eq]
  rcases hm.cases pin with ⟨p, x, hp, hx, hs⟩ | ⟨hp, hx⟩
  · rw [H3.levelOf_placed hm.full hp, hx, hs.latch]
    show Except.ok x.latch = Except.ok (x.latch.toNat == 1)
    cases x.latch <;> rfl
  · rw [levelOf, H3.run_read, hx, hp]

/-- What mirrors the registers shows the same as they. -/
theorem Mirrors.agrees (hm : s.Mirrors h) : s.Agrees h :=
  ⟨hm.size, hm.modeOf, hm.pullOf, hm.latchOf⟩

theorem levelOf_output (hmode : Backend.modeOf s pin = .ok .output) :
    levelOf s pin = s.latchOf pin := by
  obtain ⟨x, hx, hout⟩ := modeOf_eq_ok_iff.mp hmode
  have hread : (Backend.read pin : Act Sim Bool).run s = (.ok x.level, s) := by
    show (look pin SimPin.level).run s = _
    simp only [look, Act.run, hx]
  have hlevel : x.level = x.latch := if_pos hout
  rw [levelOf, hread, latchOf_eq, hx, hlevel]

/-- A call that replaces a simulated pin matches one that stores what mirrors it. -/
theorem matches_mutate {f : SimPin → SimPin} {y : Act H3 Unit}
    (hnone : ∀ h, place? pin = none → y.run h = (.error (.error (noSuchPin pin)), h))
    (hplaced : ∀ h p x, h.Full → place? pin = some p → h.Shows p x → ∃ (a : Part) (n : Nat),
      n < 1 <<< (p.field a).width ∧ y.run h = (.ok (), h.store (p.field a) n) ∧
        (h.store (p.field a) n).Shows p (f x)) :
    Act.Matches Mirrors (mutate pin f) y := by
  intro s h hm
  unfold Act.MatchesAt
  rw [run_mutate]
  rcases hm.cases pin with ⟨p, x, hp, hx, hs⟩ | ⟨hp, hx⟩
  · obtain ⟨a, n, hn, hrun, hy⟩ := hplaced h p x hm.full hp hs
    rw [hx, hrun]
    exact ⟨rfl, hm.store hp hx hn hy⟩
  · rw [hx, hnone h hp]
    exact ⟨rfl, hm⟩

theorem matches_setMode (pin : Nat) {m : Mode} (hm : m.Common) :
    Act.Matches Mirrors (Backend.setMode pin m) (Backend.setMode pin m) := by
  obtain ⟨code, hcode, hback⟩ := H3.functionCode_common hm pin
  have hlt : code < 1 <<< 4 := H3.functionCode_lt hcode
  have heffective : ∀ s : Sim, s.effectiveMode? pin m = some m := fun s => if_neg hm.1
  have hmutate : Act.Matches Mirrors (mutate pin fun x => { x with mode := m })
      (Backend.setMode pin m) := by
    refine matches_mutate (fun h hp => ?_) fun h p x hfull hp hs => ?_
    · rw [H3.run_setMode, hp]
    · have hin : p.functionSlot.1 < (h.window p.low).words := H3.field_inside hfull hp .function
      refine ⟨.function, code, hlt, ?_, ?_⟩
      · rw [H3.run_setMode, hp]
        simp only [hcode, if_pos hin]
        rfl
      · have hy := hs.setMode hp hlt
        rw [hback] at hy
        exact hy
  intro s h hmir
  unfold Act.MatchesAt
  rw [run_setMode, heffective]
  exact hmutate s h hmir

theorem matches_setPull (pin : Nat) (u : Pull) :
    Act.Matches Mirrors (Backend.setPull pin u) (Backend.setPull pin u) := by
  refine matches_mutate (fun h hp => ?_) fun h p x hfull hp hs => ?_
  · rw [H3.run_setPull, hp]
  · have hin : p.pullSlot.1 < (h.window p.low).words := H3.field_inside hfull hp .pull
    refine ⟨.pull, H3.pullCode u, H3.pullCode_lt u, ?_, hs.setPull hp u⟩
    rw [H3.run_setPull, hp]
    simp only [if_pos hin, H3.put_put]
    rfl

theorem matches_write (pin : Nat) (high : Bool) :
    Act.Matches Mirrors (Backend.write pin high) (Backend.write pin high) := by
  refine matches_mutate (fun h hp => ?_) fun h p x hfull hp hs => ?_
  · rw [H3.run_write, hp]
  · have hin : p.dataSlot < (h.window p.low).words := H3.field_inside hfull hp .data
    refine ⟨.data, high.toNat, Word.toNat_lt_two high, ?_, hs.setLatch hp high⟩
    rw [H3.run_write, hp]
    simp only [if_pos hin, Word.setBit_eq_setField]
    rfl

theorem matches_toggle (pin : Nat) :
    Act.Matches Mirrors (Backend.toggle pin) (Backend.toggle pin) := by
  refine matches_mutate (fun h hp => ?_) fun h p x hfull hp hs => ?_
  · rw [H3.run_toggle, hp]
  · have hin : p.dataSlot < (h.window p.low).words := H3.field_inside hfull hp .data
    have hfit : p.offset + 1 ≤ 32 := H3.field_fits hp .data
    have hbit : ((h.window p.low).word p.dataSlot).getLsbD p.offset = x.latch := by
      have hlatch := hs.latch
      rw [H3.fetch_data] at hlatch
      revert hlatch
      cases ((h.window p.low).word p.dataSlot).getLsbD p.offset <;> cases x.latch <;> simp
    refine ⟨.data, (!x.latch).toNat, Word.toNat_lt_two _, ?_, hs.setLatch hp (!x.latch)⟩
    rw [H3.run_toggle, hp]
    simp only [if_pos hin, Word.flipBit_eq_setBit _ hfit, Word.setBit_eq_setField, hbit]
    rfl

/-- The two backends match, but for modes that only one of them has. -/
theorem matching : Matching Mirrors Mode.Common where
  mode pin s h hm := by
    have hread := (H3.restorable h).mode_leaves h pin trivial
    refine ⟨hm.modeOf pin, ?_⟩
    rw [hread, run_mode]
    cases s.pins[pin]? <;> exact hm
  pull pin s h hm := by
    have hread := (H3.restorable h).pull_leaves h pin trivial
    refine ⟨hm.pullOf pin, ?_⟩
    rw [hread, run_pull]
    cases s.pins[pin]? <;> exact hm
  setMode pin m hm := matches_setMode pin hm
  setPull := matches_setPull
  write := matches_write
  toggle := matches_toggle
  read s h pin hm hmode := by
    have hread := (H3.restorable h).read_leaves h pin trivial
    refine ⟨(levelOf_output hmode).trans (hm.latchOf pin), ?_⟩
    have hleft : ((Backend.read pin : Act Sim Bool).run s).2 = s := by
      show ((look pin SimPin.level).run s).2 = s
      simp only [look, Act.run]
      cases s.pins[pin]? <;> rfl
    rw [hread, hleft]
    exact hm
  shown s h pin m hm hmode := by
    rw [hm.modeOf pin] at hmode
    rcases hm.cases pin with ⟨p, x, hp, -, -⟩ | ⟨hp, -⟩
    · rw [H3.modeOf_placed hm.full hp] at hmode
      cases hmode
      exact H3.common_functionMode _
    · rw [Backend.modeOf, H3.run_mode, hp] at hmode
      cases hmode
  read_modes s h pin q _ := by
    show Backend.modeOf ((look pin SimPin.level).run s).2 q = Backend.modeOf s q
    simp only [look, Act.run]
    cases s.pins[pin]? <;> rfl

end Sim

end BoardGpio
