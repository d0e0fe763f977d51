import BoardGpio.Backend.Device
import BoardGpio.Proofs.Act.Invariant

/-!
# Where the registers of a board are mapped

The registers of a board are at addresses that follow from its description (`BoardInfo.addresses`).
Opening its backend maps windows at exactly these addresses or tells which of them could not be
mapped (`Device.Opened`), as long as they are 64-bit numbers. An address that is one, but is no place
in a file, is refused before anything is opened. Past that the addition of base and offset breaks off
(`select_exact`), so that such a board is not answered with an error (`select_overflows`).
-/

set_option autoImplicit false

namespace BoardGpio

/-- Physical addresses of the pin registers of a board. -/
def BoardInfo.addresses (b : BoardInfo) : List Nat :=
  match b.family with
  | .bcm283x => [b.ioBase + Bcm.gpioOffset]
  | .allwinnerH3 => [H3.pioBase, H3.rPioBase]

/-- Opening a backend gave windows at these addresses, or the error for one that was not mapped. -/
inductive Device.Opened (path : String) (bases : List Nat) : Except Failure Device → Prop
  | mapped {device : Device} (h : device.windows.map Window.base = bases) : Opened path bases (.ok device)
  | refused {base : Nat} {why : IoError} (h : base ∈ bases) :
    Opened path bases (.error (.error (.map path base why)))

/-! ## Single windows -/

/-- Opening a window on a disk gives the range that was asked for, or an error that names it. -/
theorem Disk.openWindow_cases (d : Disk) (device : String) (base len : Nat) :
    (∃ memory, d.openWindow device base len = .ok ⟨base, len, some device, memory⟩) ∨
      ∃ why, d.openWindow device base len = .error (.map device base why) := by
  unfold openWindow
  split
  · exact .inr ⟨_, rfl⟩
  · cases d.find device with
    | error why => exact .inr ⟨why, rfl⟩
    | ok memory =>
      dsimp only
      repeat' split
      · exact .inr ⟨_, rfl⟩
      · exact .inr ⟨_, rfl⟩
      · exact .inr ⟨_, rfl⟩
      · exact .inl ⟨memory, rfl⟩

/-- An address that is no place in a file is refused whatever is at the path. -/
theorem Disk.openWindow_beyond (d : Disk) (device : String) {base : Nat} (len : Nat)
    (h : offsetBound ≤ base) :
    d.openWindow device base len = .error (.map device base .baseOutOfRange) := by
  rw [openWindow, if_pos h]

namespace Machine

variable {m : Machine} {device : String} {base len : Nat}

theorem run_openWindow_ok {w : Window} (h : m.disk.openWindow device base len = .ok w) :
    (openWindow device base len).run m =
      (.ok w, { m with log := m.log ++ [.mapped len base device] }) := by
  rw [openWindow, Act.run_bind_ok _ (Act.run_gets _ m), h, Act.run_bind_ok _ (Act.run_lift_ok w m)]
  rfl

theorem run_openWindow_error {e : Error} (h : m.disk.openWindow device base len = .error e) :
    (openWindow device base len).run m = (.error (.error e), m) := by
  rw [openWindow, Act.run_bind_ok _ (Act.run_gets _ m), h]
  exact Act.run_bind_error _ (Act.run_lift_error e m)

/-- A window is opened where it was asked for, or the machine stays as it is. -/
theorem openWindow_outcome (m : Machine) (device : String) (base len : Nat) :
    (∃ w m', (openWindow device base len).run m = (.ok w, m') ∧ w.base = base) ∨
      ∃ why, (openWindow device base len).run m = (.error (.error (.map device base why)), m) := by
  rcases m.disk.openWindow_cases device base len with ⟨memory, h⟩ | ⟨why, h⟩
  · exact .inl ⟨_, _, run_openWindow_ok h, rfl⟩
  · exact .inr ⟨why, run_openWindow_error h⟩

end Machine

/-! ## Backends -/

/-- The address is worked out exactly or not at all. -/
theorem Bcm.openDevice_outcome (m : Machine) (device : String) (soc : Soc) (ioBase : Nat) :
    (∃ b m', (openDevice device soc ioBase).run m = (.ok b, m') ∧
        b.window.base = ioBase + gpioOffset ∧ ioBase + gpioOffset < UInt64.size) ∨
      (∃ why, (openDevice device soc ioBase).run m =
        (.error (.error (.map device (ioBase + gpioOffset) why)), m)) ∨
      (openDevice device soc ioBase).run m = (.error (.fault .addressOverflow), m) ∧
        UInt64.size ≤ ioBase + gpioOffset := by
  unfold openDevice
  split
  · rename_i hover
    exact .inr (.inr ⟨rfl, hover⟩)
  · rename_i hfits
    rcases m.openWindow_outcome device (ioBase + gpioOffset) blockLen with
      ⟨w, m', hrun, hbase⟩ | ⟨why, hrun⟩
    · exact .inl ⟨_, m', Act.run_bind_ok _ hrun, hbase, by omega⟩
    · exact .inr (.inl ⟨why, Act.run_bind_error _ hrun⟩)

/-- If the second window cannot be mapped, the first is given up and the error is told. -/
theorem H3.openDevice_outcome (m : Machine) (device : String) :
    (∃ h m', (openDevice device).run m = (.ok h, m') ∧ h.pio.base = pioBase ∧
        h.rPio.base = rPioBase) ∨
      ∃ base why m', base ∈ [pioBase, rPioBase] ∧
        (openDevice device).run m = (.error (.error (.map device base why)), m') := by
  unfold openDevice
  rcases m.openWindow_outcome device pioBase blockLen with ⟨pio, m₁, hpio, hbase⟩ | ⟨why, hpio⟩
  · rw [Act.run_bind_ok _ hpio]
    rcases m₁.openWindow_outcome device rPioBase blockLen with
      ⟨rPio, m₂, hrPio, hrBase⟩ | ⟨why, hrPio⟩
    · have hattempt := Act.run_attempt_eq_ok_iff.mpr hrPio
      exact .inl ⟨⟨pio, rPio⟩, m₂, Act.run_bind_ok _ hattempt, hbase, hrBase⟩
    · have hattempt : (Act.attempt (Machine.openWindow device rPioBase blockLen)).run m₁ =
          (.ok (.error (.map device rPioBase why)), m₁) := by
        rw [Act.run_attempt, hrPio]
      refine .inr ⟨rPioBase, why, { m₁ with log := m₁.log ++ [.unmapped pio.base] }, by simp, ?_⟩
      rw [Act.run_bind_ok _ hattempt]
      rfl
  · exact .inr ⟨pioBase, why, m, by simp, Act.run_bind_error _ hpio⟩

namespace Device

variable {board : BoardInfo} {memDevice : String} {m m' : Machine}

/-- Opens what a board has, without a word about it. -/
def opening (board : BoardInfo) (memDevice : String) : Act Machine Device :=
  match board.family with
  | .bcm283x => Device.bcm <$> Bcm.openDevice memDevice board.soc board.ioBase
  | .allwinnerH3 => Device.h3 <$> H3.openDevice memDevice

theorem select_eq (board : BoardInfo) (memDevice : String) :
    select board memDevice = (do
      let device ← opening board memDevice
      Machine.note (.backendReady (Backend.name device) board.model)
      pure device) := by
  unfold select opening
  cases board.family <;> simp only [← bind_pure_comp, bind_assoc, pure_bind]

theorem run_select_ok {device : Device}
    (h : (opening board memDevice).run m = (.ok device, m')) :
    ((select board memDevice).run m).1 = .ok device := by
  rw [select_eq, Act.run_bind_ok _ h]
  rfl

theorem run_select_error {e : Failure} (h : (opening board memDevice).run m = (.error e, m')) :
    (select board memDevice).run m = (.error e, m') := by
  rw [select_eq, Act.run_bind_error _ h]

theorem opening_bcm (hfamily : board.family = .bcm283x) (memDevice : String) (m : Machine) :
    (opening board memDevice).run m =
      (((Bcm.openDevice memDevice board.soc board.ioBase).run m).1.map Device.bcm,
        ((Bcm.openDevice memDevice board.soc board.ioBase).run m).2) := by
  rw [opening, hfamily]
  exact Act.run_map _ _ m

/-- Addresses that are 64-bit numbers are mapped as they are, or an error names one of them. -/
theorem opened_select (hfits : ∀ base ∈ board.addresses, base < UInt64.size) (memDevice : String)
    (m : Machine) : Opened memDevice board.addresses ((select board memDevice).run m).1 := by
  cases hfamily : board.family with
  | bcm283x =>
    have haddresses : board.addresses = [board.ioBase + Bcm.gpioOffset] := by
      rw [BoardInfo.addresses, hfamily]
    rw [haddresses] at hfits ⊢
    have hsum := hfits _ List.mem_cons_self
    have hopening := opening_bcm hfamily memDevice m
    obtain ⟨b, m', hopen, hbase, -⟩ | ⟨why, hopen⟩ | ⟨-, hover⟩ :=
      Bcm.openDevice_outcome m memDevice board.soc board.ioBase
    · rw [hopen] at hopening
      rw [run_select_ok hopening]
      exact .mapped (congrArg (fun base => [base]) hbase)
    · rw [hopen] at hopening
      rw [run_select_error hopening]
      exact .refused List.mem_cons_self
    · omega
  | allwinnerH3 =>
    have haddresses : board.addresses = [H3.pioBase, H3.rPioBase] := by
      rw [BoardInfo.addresses, hfamily]
    have hopening : (opening board memDevice).run m =
        (((H3.openDevice memDevice).run m).1.map Device.h3, ((H3.openDevice memDevice).run m).2) := by
      rw [opening, hfamily]
      exact Act.run_map _ _ m
    rw [haddresses]
    obtain ⟨h, m', hopen, hpio, hrPio⟩ | ⟨base, why, m', hmem, hopen⟩ :=
      H3.openDevice_outcome m memDevice
    · rw [hopen] at hopening
      rw [run_select_ok hopening]
      refine .mapped ?_
      show [h.pio.base, h.rPio.base] = [H3.pioBase, H3.rPioBase]
      rw [hpio, hrPio]
    · rw [hopen] at hopening
      rw [run_select_error hopening]
      exact .refused hmem

/-- Whatever the description of a board says, its backend is not mapped at a wrong address. Where
the addresses are 64-bit numbers, windows are mapped at exactly these or the error names one of
them; of these, an address that is no place in a file is refused on every path and changes nothing.
Where base and offset are beyond 64 bits, there is no answer: the addition breaks off, and nothing is
changed either. -/
theorem select_exact (board : BoardInfo) (memDevice : String) (m : Machine) :
    ((∀ base ∈ board.addresses, base < UInt64.size) →
        Opened memDevice board.addresses ((select board memDevice).run m).1) ∧
      (board.family = .bcm283x → Disk.offsetBound ≤ board.ioBase + Bcm.gpioOffset →
        board.ioBase + Bcm.gpioOffset < UInt64.size →
        (select board memDevice).run m =
          (.error (.error (.map memDevice (board.ioBase + Bcm.gpioOffset) .baseOutOfRange)), m)) ∧
      (board.family = .bcm283x → UInt64.size ≤ board.ioBase + Bcm.gpioOffset →
        (select board memDevice).run m = (.error (.fault .addressOverflow), m)) := by
  refine ⟨fun hfits => opened_select hfits memDevice m, ?_, ?_⟩
  · intro hfamily hbeyond hfits
    have hwindow := m.disk.openWindow_beyond memDevice Bcm.blockLen hbeyond
    have hopen : (Bcm.openDevice memDevice board.soc board.ioBase).run m =
        (.error (.error (.map memDevice (board.ioBase + Bcm.gpioOffset) .baseOutOfRange)), m) := by
      rw [Bcm.openDevice, if_neg (by omega)]
      exact Act.run_bind_error _ (Machine.run_openWindow_error hwindow)
    have hopening := opening_bcm hfamily memDevice m
    rw [hopen] at hopening
    exact run_select_error hopening
  · intro hfamily hover
    have hopen : (Bcm.openDevice memDevice board.soc board.ioBase).run m =
        (.error (.fault .addressOverflow), m) := by
      rw [Bcm.openDevice, if_pos hover]
      rfl
    have hopening := opening_bcm hfamily memDevice m
    rw [hopen] at hopening
    exact run_select_error hopening

/-- A Raspberry Pi with its peripherals at this address. -/
def boardAt (ioBase : Nat) : BoardInfo where
  model := "Raspberry Pi 3 Model B"
  soc := .bcm2837
  revision := .rpiRev3
  revisionCode := none
  ioBase := ioBase

/-- Below the last place of a file registers are mapped; the first address beyond is refused, and the
first beyond 64 bits breaks off. -/
theorem select_exact_edges :
    (∃ device, ((select (boardAt (Disk.offsetBound - 0x1000000)) "mem").run
          { disk := ⟨some .zeros⟩ }).1 = .ok device ∧
        device.windows.map Window.base = [Disk.offsetBound - 0x1000000 + Bcm.gpioOffset]) ∧
      (select (boardAt (Disk.offsetBound - Bcm.gpioOffset)) "mem").run {} =
        (.error (.error (.map "mem" Disk.offsetBound .baseOutOfRange)), {}) ∧
      (select (boardAt (UInt64.size - Bcm.gpioOffset)) "mem").run {} =
        (.error (.fault .addressOverflow), {}) := by
  refine ⟨?_, ?_, ?_⟩
  · have hopened := (select_exact (boardAt (Disk.offsetBound - 0x1000000)) "mem"
      { disk := ⟨some .zeros⟩ }).1 (by decide)
    have hok : ((select (boardAt (Disk.offsetBound - 0x1000000)) "mem").run
        { disk := ⟨some .zeros⟩ }).1.isOk = true := by decide +kernel
    generalize ((select (boardAt (Disk.offsetBound - 0x1000000)) "mem").run
      { disk := ⟨some .zeros⟩ }).1 = opened at hopened hok ⊢
    cases hopened with
    | mapped hbases => exact ⟨_, rfl, hbases⟩
    | refused => cases hok
  · exact (select_exact (boardAt (Disk.offsetBound - Bcm.gpioOffset)) "mem" {}).2.1 rfl (by decide)
      (by decide)
  · exact (select_exact (boardAt (UInt64.size - Bcm.gpioOffset)) "mem" {}).2.2 rfl (by decide)

/-- The greatest address a description can hold is not refused: opening the backend breaks off. -/
theorem select_overflows :
    (boardAt (UInt64.size - 1)).ioBase < UInt64.size ∧
      (boardAt (UInt64.size - 1)).family = .bcm283x ∧
      Disk.offsetBound ≤ (boardAt (UInt64.size - 1)).ioBase + Bcm.gpioOffset ∧
      ∀ path base why, ((select (boardAt (UInt64.size - 1)) "mem").run {}).1 ≠
        .error (.error (.map path base why)) := by
  refine ⟨by decide, rfl, by decide, ?_⟩
  intro path base why h
  cases h

end Device

end BoardGpio
