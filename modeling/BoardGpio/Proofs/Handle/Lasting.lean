import BoardGpio.Proofs.Backend.Faulty
import BoardGpio.Proofs.Board.Coherent
import BoardGpio.Proofs.Handle.Uses

/-!
# What lasts through all calls

What is opened for a board has a full block of registers behind every window
(`Device.full_of_select`), and no call on a pin makes a window shorter or longer (`Device.lasting`),
or a chip smaller (`Device.lasting_pinCount`). What lasts through all calls on a backend lasts
through all uses of a handle on it (`Gpio.upheld_of_lasting`). So a handle has a full device behind
it as long as it is used, also where calls fail (`Gpio.IsUse.keeps_full`).
-/

set_option autoImplicit false

namespace BoardGpio

open Backend

/-- Something that is true of a backend is true of it after every call. -/
structure Backend.Lasting {β : Type} [Backend β] (J : β → Prop) : Prop where
  setMode : ∀ pin m, (Backend.setMode pin m : Act β Unit).Keeps J
  mode : ∀ pin, (Backend.mode pin : Act β Mode).Keeps J
  setPull : ∀ pin u, (Backend.setPull pin u : Act β Unit).Keeps J
  pull : ∀ pin, (Backend.pull pin : Act β (Option Pull)).Keeps J
  write : ∀ pin high, (Backend.write pin high : Act β Unit).Keeps J
  read : ∀ pin, (Backend.read pin : Act β Bool).Keeps J
  toggle : ∀ pin, (Backend.toggle pin : Act β Unit).Keeps J

/-- What is no matter of the backend is true after every call. -/
theorem Backend.Lasting.const {β : Type} [Backend β] (p : Prop) : Lasting fun _ : β => p where
  setMode _ _ _ h := h
  mode _ _ h := h
  setPull _ _ _ h := h
  pull _ _ h := h
  write _ _ _ h := h
  read _ _ h := h
  toggle _ _ h := h

namespace Sim

variable {n : Nat}

theorem keeps_mutate (pin : Nat) (f : SimPin → SimPin) :
    (mutate pin f).Keeps fun s => s.pins.size = n := by
  intro s hs
  rw [run_mutate]
  cases s.pins[pin]? with
  | none => exact hs
  | some x => exact Array.size_setIfInBounds.trans hs

/-- There are as many simulated pins after a call as before. -/
theorem lasting_pinCount (n : Nat) : Lasting fun s : Sim => pinCount s = n where
  setMode pin m := by
    refine Act.Keeps.bind (Act.Leaves.gets _).keeps fun mode => ?_
    cases mode with
    | none => exact (Act.Leaves.fail _).keeps
    | some mode => exact keeps_mutate pin _
  mode pin := (leaves_look pin _).keeps
  setPull pin u := keeps_mutate pin _
  pull pin := (leaves_look pin _).keeps.bind fun _ => (Act.Leaves.gets _).keeps.bind fun _ =>
    Act.Keeps.pure _
  write pin high := keeps_mutate pin _
  read pin := (leaves_look pin _).keeps
  toggle pin := keeps_mutate pin _

end Sim

/-! ## Full devices -/

namespace Window

variable {n : Nat}

theorem keeps_len_read (i : Nat) : (read i).Keeps fun w => w.len = n := by
  intro w hw
  simp only [Act.run, read]
  split <;> exact hw

theorem keeps_len_write (i : Nat) (v : Word) : (write i v).Keeps fun w => w.len = n := by
  intro w hw
  simp only [Act.run, write]
  split <;> exact hw

theorem keeps_len_modify (i : Nat) (f : Word → Word) : (modify i f).Keeps fun w => w.len = n :=
  (keeps_len_read i).bind fun _ => (keeps_len_write i _).bind fun _ => Act.Keeps.pure _

end Window

namespace Bcm

theorem keeps_onWindow {α : Type} {x : Act Window α} (hx : x.Keeps fun w => w.len = blockLen) :
    (onWindow x).Keeps Full :=
  Act.Keeps.within hx fun _ _ => rfl

theorem keeps_check (pin : Nat) : (check pin).Keeps Full := by
  unfold check
  split
  · exact Act.Keeps.pure ()
  · exact (Act.Leaves.fail _).keeps

theorem keeps_read (pin : Nat) : (read pin).Keeps Full :=
  (keeps_check pin).bind fun _ => (keeps_onWindow (Window.keeps_len_read _)).bind fun _ =>
    Act.Keeps.pure _

theorem keeps_write (pin : Nat) (high : Bool) : (write pin high).Keeps Full :=
  (keeps_check pin).bind fun _ => keeps_onWindow (Window.keeps_len_write _ _)

/-- No call changes the length of the window. -/
theorem lasting : Lasting Full where
  setMode pin m := by
    refine (keeps_check pin).bind fun _ => (Act.Leaves.gets _).keeps.bind fun soc => ?_
    split
    · exact (Act.Leaves.fail _).keeps
    · exact (keeps_onWindow (Window.keeps_len_modify _ _)).bind fun _ => Act.Keeps.pure _
  mode pin := (keeps_check pin).bind fun _ =>
    (keeps_onWindow (Window.keeps_len_read _)).bind fun _ => Act.Keeps.pure _
  setPull pin u := by
    have hput : ∀ i v, (onWindow (Window.write i v)).Keeps Full := fun i v =>
      keeps_onWindow (Window.keeps_len_write i v)
    refine (keeps_check pin).bind fun _ => (Act.Leaves.gets _).keeps.bind fun soc => ?_
    split
    · exact (keeps_onWindow (Window.keeps_len_modify _ _)).bind fun _ => Act.Keeps.pure _
    · exact (hput _ _).bind fun _ => (hput _ _).bind fun _ => (hput _ _).bind fun _ => hput _ _
  pull pin := by
    refine (keeps_check pin).bind fun _ => (Act.Leaves.gets _).keeps.bind fun soc => ?_
    split
    · exact (keeps_onWindow (Window.keeps_len_read _)).bind fun _ => Act.Keeps.pure _
    · exact Act.Keeps.pure _
  write := keeps_write
  read := keeps_read
  toggle pin := (keeps_read pin).bind fun _ => keeps_write pin _

end Bcm

namespace H3

theorem keeps_onWindow {α : Type} (p : Place) {x : Act Window α}
    (hx : x.Keeps fun w => w.len = blockLen) : (onWindow p x).Keeps Full := by
  intro h hfull
  unfold onWindow
  split
  · exact ⟨hx h.pio hfull.pio, hfull.rPio⟩
  · exact ⟨hfull.pio, hx h.rPio hfull.rPio⟩

theorem keeps_locate (pin : Nat) : (locate pin).Keeps Full := by
  unfold locate
  split
  · exact Act.Keeps.pure _
  · exact (Act.Leaves.fail _).keeps

theorem keeps_modify (p : Place) (i : Nat) (f : Word → Word) :
    (onWindow p (Window.modify i f) >>= fun _ => pure ()).Keeps Full :=
  (keeps_onWindow p (Window.keeps_len_modify i f)).bind fun _ => Act.Keeps.pure ()

theorem keeps_fetch {α : Type} (p : Place) (i : Nat) (f : Word → α) :
    (onWindow p (Window.read i) >>= fun v => pure (f v)).Keeps Full :=
  (keeps_onWindow p (Window.keeps_len_read i)).bind fun v => Act.Keeps.pure (f v)

theorem lasting : Lasting Full where
  setMode pin m := by
    refine (keeps_locate pin).bind fun p => ?_
    split
    · exact (Act.Leaves.fail _).keeps
    · exact keeps_modify p _ _
  mode pin := (keeps_locate pin).bind fun p => keeps_fetch p _ _
  setPull pin u := (keeps_locate pin).bind fun p =>
    (keeps_onWindow p (Window.keeps_len_modify _ _)).bind fun _ => keeps_modify p _ _
  pull pin := (keeps_locate pin).bind fun p => keeps_fetch p _ _
  write pin high := (keeps_locate pin).bind fun p => keeps_modify p _ _
  read pin := (keeps_locate pin).bind fun p => keeps_fetch p _ _
  toggle pin := (keeps_locate pin).bind fun p => keeps_modify p _ _

end H3

namespace Device

variable {I : Device → Prop}

theorem keeps_dispatch {α : Type} {x : Act Sim α} {y : Act Bcm α} {z : Act H3 α}
    (hx : x.Keeps fun s => I (.sim s)) (hy : y.Keeps fun b => I (.bcm b))
    (hz : z.Keeps fun h => I (.h3 h)) : (dispatch x y z).Keeps I := by
  rintro (s | b | h) hI
  · exact hx s hI
  · exact hy b hI
  · exact hz h hI

/-- What lasts on the backend of every kind lasts on a device. -/
theorem lasting_of (hs : Lasting fun s => I (.sim s)) (hb : Lasting fun b => I (.bcm b))
    (hh : Lasting fun h => I (.h3 h)) : Lasting I where
  setMode pin m := keeps_dispatch (hs.setMode pin m) (hb.setMode pin m) (hh.setMode pin m)
  mode pin := keeps_dispatch (hs.mode pin) (hb.mode pin) (hh.mode pin)
  setPull pin u := keeps_dispatch (hs.setPull pin u) (hb.setPull pin u) (hh.setPull pin u)
  pull pin := keeps_dispatch (hs.pull pin) (hb.pull pin) (hh.pull pin)
  write pin high := keeps_dispatch (hs.write pin high) (hb.write pin high) (hh.write pin high)
  read pin := keeps_dispatch (hs.read pin) (hb.read pin) (hh.read pin)
  toggle pin := keeps_dispatch (hs.toggle pin) (hb.toggle pin) (hh.toggle pin)

/-- No call takes registers away. -/
theorem lasting : Lasting Full :=
  lasting_of (.const True) Bcm.lasting H3.lasting

/-- No call takes pins away. -/
theorem lasting_pinCount (n : Nat) : Lasting fun d : Device => pinCount d = n :=
  lasting_of (Sim.lasting_pinCount n) (.const (Bcm.pinCount = n)) (.const (H3.pinCount = n))

/-- What is opened for a board has all its registers. -/
theorem full_of_select {board : BoardInfo} {memDevice : String} {m m' : Machine} {device : Device}
    (h : (select board memDevice).run m = (.ok device, m')) : device.Full := by
  obtain ⟨w, rfl, -, -, hlen⟩ | ⟨pio, rPio, rfl, -, -, hpio, hrPio⟩ := run_select_eq_ok h
  · exact hlen
  · exact ⟨hpio, hrPio⟩

end Device

namespace Faulty

variable {β : Type} {J : β → Prop}

theorem keeps_call {α : Type} (kind : CallKind) (pin : Nat) {x : Act β α} (hx : x.Keeps J) :
    (call kind pin x).Keeps fun f => J f.device := by
  intro f hf
  rw [run_call]
  cases f.fails kind pin with
  | some e => exact hf
  | none => exact hx f.device hf

/-- A call that is chosen to fail changes nothing. -/
theorem lasting [Backend β] (hJ : Lasting J) : Lasting fun f : Faulty β => J f.device where
  setMode pin m := keeps_call _ pin (hJ.setMode pin m)
  mode pin := keeps_call _ pin (hJ.mode pin)
  setPull pin u := keeps_call _ pin (hJ.setPull pin u)
  pull pin := keeps_call _ pin (hJ.pull pin)
  write pin high := keeps_call _ pin (hJ.write pin high)
  read pin := keeps_call _ pin (hJ.read pin)
  toggle pin := keeps_call _ pin (hJ.toggle pin)

end Faulty

namespace Unsteady

variable {β : Type} {J : β → Prop}

theorem keeps_call {α : Type} {x : Act β α} (hx : x.Keeps J) :
    (call x).Keeps fun u => J u.device := by
  intro u hu
  rw [run_call]
  cases u.mishap u.calls with
  | some e => exact hu
  | none => exact hx u.device hu

/-- A call that is chosen to fail changes nothing. -/
theorem lasting [Backend β] (hJ : Lasting J) : Lasting fun u : Unsteady β => J u.device where
  setMode pin m := keeps_call (hJ.setMode pin m)
  mode pin := keeps_call (hJ.mode pin)
  setPull pin u := keeps_call (hJ.setPull pin u)
  pull pin := keeps_call (hJ.pull pin)
  write pin high := keeps_call (hJ.write pin high)
  read pin := keeps_call (hJ.read pin)
  toggle pin := keeps_call (hJ.toggle pin)

end Unsteady

/-! ## Handles -/

namespace Gpio

variable {β : Type} {J : β → Prop}

theorem keeps_lasting {α : Type} {x : Act β α} (hx : x.Keeps J) :
    (hardware x).Keeps fun g => J g.backend :=
  Act.Keeps.within hx fun _ _ => rfl

/-- What lasts on the backend does not depend on the rest of a handle. -/
theorem keeps_beside {f : Gpio β → Gpio β} (hf : ∀ g, (f g).backend = g.backend) :
    (Act.modify f).Keeps fun g => J g.backend :=
  Act.Keeps.modify fun g hg => (hf g).symm ▸ hg

/-- What lasts through the calls on a backend lasts through the calls of a handle on it. -/
theorem upheld_of_lasting [Backend β] (hJ : Lasting J) : Upheld fun g : Gpio β => J g.backend where
  askMode mcu := keeps_lasting (hJ.mode mcu)
  askPull mcu := keeps_lasting (hJ.pull mcu)
  writeMcu mcu high := keeps_lasting (hJ.write mcu high)
  toggleMcu mcu := keeps_lasting (hJ.toggle mcu)
  readMcu mcu := keeps_lasting (hJ.read mcu)
  setMode pin m := by
    have hswitch : ∀ mcu, (switch mcu m : Act (Gpio β) Unit).Keeps fun g => J g.backend :=
      fun mcu => (keeps_lasting (hJ.setMode mcu m)).bind fun _ => keeps_beside fun _ => rfl
    refine (leaves_mcuPin pin).keeps.bind fun mcu => ?_
    refine (keeps_lasting (hJ.mode mcu)).bind fun _ => (hswitch mcu).bind fun _ => ?_
    exact (keeps_beside fun _ => rfl).bind fun _ => keeps_beside fun _ => rfl
  setPull pin u := by
    refine (leaves_mcuPin pin).keeps.bind fun mcu => (keeps_lasting (hJ.pull mcu)).bind fun _ => ?_
    exact (keeps_lasting (hJ.setPull mcu u)).bind fun _ => keeps_beside fun _ => rfl
  update _ _ := keeps_beside fun _ => rfl
  note _ := keeps_beside fun _ => rfl

/-- Whatever a program does with a handle, the device behind it has all its registers. -/
theorem IsUse.keeps_full {α : Type} {x : Act (Gpio (Faulty Device)) α} (hx : IsUse x) :
    x.Keeps fun g => g.backend.device.Full :=
  (upheld_of_lasting (Faulty.lasting Device.lasting)).use hx

end Gpio

end BoardGpio
