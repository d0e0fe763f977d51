import BoardGpio.Board.Identify
import BoardGpio.Proofs.Act.Invariant
import BoardGpio.Proofs.Handle.Registry
import Mathlib.Algebra.Ring.Nat

/-!
# Identified boards

Whatever tells a board, its chip, its layout, its address and its revision code fit together
(`Coherent`). The backend that is opened for it drives the chip's registers where the board says
they are (`run_select_eq_ok`) and has every pin of the layout, so a handle can be built on it
(`identified`). Of a revision code, only the low 24 bits tell the board (`raspberryPi_congr`).
-/

set_option autoImplicit false

namespace BoardGpio

/-! ## Families -/

/-- The chips that a layout is found with. -/
def BoardRevision.family : BoardRevision → SocFamily
  | rpiRev1 => .bcm283x
  | rpiRev2 => .bcm283x
  | rpiRev3 => .bcm283x
  | nanoPiNeo => .allwinnerH3
  | nanoPiM1 => .allwinnerH3
  | nanoPiM1Plus => .allwinnerH3

/-- Number of pins that the chips of a family have. -/
def SocFamily.pinCount : SocFamily → Nat
  | bcm283x => Bcm.pinCount
  | allwinnerH3 => H3.pinCount

/-- Distance of the pin registers from the peripherals of a chip. -/
def SocFamily.pinOffset : SocFamily → Nat
  | bcm283x => Bcm.gpioOffset
  | allwinnerH3 => 0

theorem Soc.family_eq_allwinnerH3_iff {soc : Soc} :
    soc.family = .allwinnerH3 ↔ soc = .allwinnerH3 := by
  cases soc <;> simp [Soc.family]

/-- The chips whose registers a device drives; simulated pins have none. -/
def Device.family? : Device → Option SocFamily
  | .sim _ => none
  | .bcm _ => some .bcm283x
  | .h3 _ => some .allwinnerH3

/-- The chips of a layout's family have every pin of the layout. -/
theorem BoardRevision.maxMcu?_lt (r : BoardRevision) {max : Nat}
    (hmax : r.table.maxMcu? = some max) : max < r.family.pinCount := by
  have hbound : ∀ m ∈ r.table.maxMcu?, m < r.family.pinCount := by
    cases r <;> decide +kernel
  exact hbound max hmax

theorem Device.pinCount_of_family {device : Device} {f : SocFamily} (h : device.family? = some f) :
    Backend.pinCount device = f.pinCount := by
  cases device with
  | sim s => cases h
  | bcm b =>
    cases h
    rfl
  | h3 c =>
    cases h
    rfl

namespace BoardInfo

/-! ## What identifies a board -/

/-- The board was told by a processor description and a model string, or by a revision code. -/
inductive Identified : BoardInfo → Prop
  | sources {cpuinfo : String} {dtModel : Option String} {b : BoardInfo}
      (h : ofSources cpuinfo dtModel = .ok b) : Identified b
  | revision {code : Nat} {dtModel : Option String} {b : BoardInfo}
      (h : raspberryPi code dtModel = .ok b) : Identified b

/-- The parts of a board fit together. -/
structure Coherent (b : BoardInfo) : Prop where
  family : b.revision.family = b.family
  ioBase : b.ioBase = b.soc.peripheralBase
  /-- Raspberry Pi boards, and no others, have a revision code. -/
  revisionCode : b.revisionCode.isSome = true ↔ b.revision.family = .bcm283x

theorem family_of_newStyleSoc? {processor : Nat} {soc : Soc}
    (h : newStyleSoc? processor = some soc) : soc.family = .bcm283x := by
  unfold newStyleSoc? at h
  split at h <;> cases h <;> rfl

theorem family_of_oldStyle? {low : Nat} {model : String} {revision : BoardRevision}
    (h : oldStyle? low = some (model, revision)) : revision.family = .bcm283x := by
  unfold oldStyle? at h
  repeat' split at h
  all_goals cases h
  all_goals rfl

/-- A revision code tells a Raspberry Pi's chip and layout. -/
theorem family_of_ofRevision? {code : Nat} {model : String} {soc : Soc} {revision : BoardRevision}
    (h : ofRevision? code = some (model, soc, revision)) :
    soc.family = .bcm283x ∧ revision.family = .bcm283x := by
  unfold ofRevision? at h
  split at h
  · obtain ⟨soc', hsoc, h⟩ := Option.bind_eq_some_iff.mp h
    obtain ⟨model', -, h⟩ := Option.bind_eq_some_iff.mp h
    cases h
    exact ⟨family_of_newStyleSoc? hsoc, rfl⟩
  · obtain ⟨⟨model', revision'⟩, hold, h⟩ := Option.bind_eq_some_iff.mp h
    cases h
    exact ⟨rfl, family_of_oldStyle? hold⟩

theorem family_of_nanoPi? {model : List Char} {revision : BoardRevision}
    (h : nanoPi? model = some revision) : revision.family = .allwinnerH3 := by
  unfold nanoPi? at h
  dsimp only at h
  repeat' split at h
  all_goals cases h
  all_goals rfl

theorem coherent_raspberryPi {code : Nat} {dtModel : Option String} {b : BoardInfo}
    (h : raspberryPi code dtModel = .ok b) : b.Coherent := by
  unfold raspberryPi at h
  split at h
  · cases h
  · rename_i model soc revision hcode
    obtain ⟨hsoc, hrevision⟩ := family_of_ofRevision? hcode
    cases h
    exact ⟨hrevision.trans hsoc.symm, rfl, by simp [hrevision]⟩

theorem coherent_allwinner {hardware : String} {dtModel : Option String} {b : BoardInfo}
    (h : allwinner hardware dtModel = .ok b) : b.Coherent := by
  unfold allwinner at h
  split at h
  · cases h
  · split at h
    · cases h
    · rename_i revision hrevision
      have hfamily := family_of_nanoPi? hrevision
      cases h
      exact ⟨hfamily, rfl, by simp [hfamily]⟩

/-- Both ways of telling a board end with one of two. -/
theorem ofSources_eq_ok {cpuinfo : String} {dtModel : Option String} {b : BoardInfo}
    (h : ofSources cpuinfo dtModel = .ok b) :
    (∃ code model, raspberryPi code model = .ok b) ∨
      ∃ hardware model, allwinner hardware model = .ok b := by
  unfold ofSources ofLines at h
  dsimp only at h
  split at h
  · exact .inr ⟨_, _, h⟩
  · split at h
    · cases h
    · exact .inl ⟨_, _, h⟩

theorem Identified.coherent {b : BoardInfo} (h : b.Identified) : b.Coherent := by
  cases h with
  | sources h =>
    obtain ⟨code, model, hboard⟩ | ⟨hardware, model, hboard⟩ := ofSources_eq_ok h
    · exact coherent_raspberryPi hboard
    · exact coherent_allwinner hboard
  | revision h => exact coherent_raspberryPi h

/-! ## What a revision code tells -/

theorem ofRevision?_congr {code code' : Nat} (hlow : code % 2 ^ 24 = code' % 2 ^ 24) :
    ofRevision? code = ofRevision? code' := by
  have htest : code.testBit 23 = code'.testBit 23 := by
    have hbit : (code % 2 ^ 24).testBit 23 = (code' % 2 ^ 24).testBit 23 := by rw [hlow]
    rw [Nat.testBit_mod_two_pow, Nat.testBit_mod_two_pow] at hbit
    simpa using hbit
  have hprocessor : (code >>> 12) % 0x10 = (code' >>> 12) % 0x10 := by
    simp only [Nat.shiftRight_eq_div_pow]
    omega
  have htype : (code >>> 4) % 0x100 = (code' >>> 4) % 0x100 := by
    simp only [Nat.shiftRight_eq_div_pow]
    omega
  have hold : code % 0x1000000 = code' % 0x1000000 := hlow
  unfold ofRevision?
  rw [htest, hprocessor, htype, hold]

/-- Codes with the same low 24 bits tell the same board but for the code, or none at all. -/
theorem raspberryPi_congr {code code' : Nat} (hlow : code % 2 ^ 24 = code' % 2 ^ 24)
    (dtModel : Option String) :
    (∀ b, raspberryPi code dtModel = .ok b →
        raspberryPi code' dtModel = .ok { b with revisionCode := some code' }) ∧
      ∀ e, raspberryPi code dtModel = .error e →
        raspberryPi code' dtModel = .error (.unsupportedBoard (.unknownRevision code')) := by
  have hcode := ofRevision?_congr hlow
  unfold raspberryPi
  rw [hcode]
  cases ofRevision? code' with
  | none => simp
  | some told => simp

end BoardInfo

/-! ## The backend of a board -/

namespace Machine

theorem openWindow_range {device : String} {base len : Nat} {m m' : Machine} {w : Window}
    (h : (openWindow device base len).run m = (.ok w, m')) : w.base = base ∧ w.len = len := by
  obtain ⟨disk, m₁, -, h⟩ := Act.run_bind_eq_ok_iff.mp h
  obtain ⟨w', m₂, hopen, h⟩ := Act.run_bind_eq_ok_iff.mp h
  obtain ⟨u, m₃, -, h⟩ := Act.run_bind_eq_ok_iff.mp h
  cases h
  cases hdisk : disk.openWindow device base len with
  | error e =>
    rw [hdisk] at hopen
    cases hopen
  | ok w' =>
    rw [hdisk] at hopen
    cases hopen
    unfold Disk.openWindow at hdisk
    repeat' split at hdisk
    all_goals cases hdisk
    exact ⟨rfl, rfl⟩

end Machine

namespace Device

/-- What is opened for a board are the registers of its chip's family, where the board has them. -/
theorem run_select_eq_ok {board : BoardInfo} {memDevice : String} {m m' : Machine} {device : Device}
    (h : (select board memDevice).run m = (.ok device, m')) :
    (∃ w, device = .bcm ⟨w, board.soc⟩ ∧ board.family = .bcm283x ∧
        w.base = board.ioBase + Bcm.gpioOffset ∧ w.len = Bcm.blockLen) ∨
      ∃ pio rPio, device = .h3 ⟨pio, rPio⟩ ∧ board.family = .allwinnerH3 ∧
        pio.base = H3.pioBase ∧ pio.len = H3.blockLen ∧ rPio.len = H3.blockLen := by
  unfold select at h
  dsimp only at h
  split at h
  · rename_i hfamily
    obtain ⟨b, m₁, hb, h⟩ := Act.run_bind_eq_ok_iff.mp h
    obtain ⟨d, m₂, hd, h⟩ := Act.run_bind_eq_ok_iff.mp h
    obtain ⟨u, m₃, -, h⟩ := Act.run_bind_eq_ok_iff.mp h
    cases hd
    cases h
    unfold Bcm.openDevice at hb
    split at hb
    · cases hb
    · obtain ⟨w, m₄, hw, hb⟩ := Act.run_bind_eq_ok_iff.mp hb
      cases hb
      exact .inl ⟨w, rfl, hfamily, Machine.openWindow_range hw⟩
  · rename_i hfamily
    obtain ⟨c, m₁, hc, h⟩ := Act.run_bind_eq_ok_iff.mp h
    obtain ⟨d, m₂, hd, h⟩ := Act.run_bind_eq_ok_iff.mp h
    obtain ⟨u, m₃, -, h⟩ := Act.run_bind_eq_ok_iff.mp h
    cases hd
    cases h
    obtain ⟨pio, m₄, hpio, hc⟩ := Act.run_bind_eq_ok_iff.mp hc
    obtain ⟨outcome, m₅, hattempt, hc⟩ := Act.run_bind_eq_ok_iff.mp hc
    cases outcome with
    | ok rPio =>
      cases hc
      obtain ⟨hbase, hlen⟩ := Machine.openWindow_range hpio
      have hrPio := Machine.openWindow_range (Act.run_attempt_eq_ok_iff.mp hattempt)
      exact .inr ⟨pio, rPio, rfl, hfamily, hbase, hlen, hrPio.2⟩
    | error e =>
      obtain ⟨u, m₆, -, hc⟩ := Act.run_bind_eq_ok_iff.mp hc
      cases hc

theorem family?_of_select {board : BoardInfo} {memDevice : String} {m m' : Machine}
    {device : Device} (h : (select board memDevice).run m = (.ok device, m')) :
    device.family? = some board.family := by
  obtain ⟨w, rfl, hfamily, -⟩ | ⟨pio, rPio, rfl, hfamily, -⟩ := run_select_eq_ok h
  · rw [hfamily]
    rfl
  · rw [hfamily]
    rfl

end Device

namespace BoardInfo

/-- The first registers opened for a board are as far from its address as its family has them. -/
theorem Coherent.base_of_select {b : BoardInfo} (hb : b.Coherent) {memDevice : String}
    {m m' : Machine} {device : Device}
    (h : (Device.select b memDevice).run m = (.ok device, m')) :
    device.windows.head?.map Window.base = some (b.ioBase + b.family.pinOffset) := by
  obtain ⟨w, rfl, hfamily, hbase, -⟩ | ⟨pio, rPio, rfl, hfamily, hbase, -⟩ :=
    Device.run_select_eq_ok h
  · rw [hfamily]
    simp [Device.windows, SocFamily.pinOffset, hbase]
  · have hsoc : b.soc = .allwinnerH3 := Soc.family_eq_allwinnerH3_iff.mp hfamily
    rw [hfamily, hb.ioBase, hsoc]
    simp [Device.windows, SocFamily.pinOffset, hbase, Soc.peripheralBase, H3.pioBase]

/-- The pins of a board's table are pins of every device of the board's family. -/
theorem Coherent.maxMcu?_lt {b : BoardInfo} (hb : b.Coherent) {device : Device}
    (hdevice : device.family? = some b.family) {max : Nat} (hmax : b.table.maxMcu? = some max) :
    max < Backend.pinCount device := by
  rw [Device.pinCount_of_family hdevice, ← hb.family]
  exact b.revision.maxMcu?_lt hmax

/-- Every identified board fits together. What is opened for it drives its chip where the board has
it and has every pin of its layout, and a handle can be built on that backend, however it was used
since. The board that a revision code tells depends on the low 24 bits of the code only, but for the
code itself. -/
theorem identified :
    (∀ b : BoardInfo, b.Identified →
      b.Coherent ∧
        ∀ (memDevice : String) (m m' : Machine) (device : Device),
          (Device.select b memDevice).run m = (.ok device, m') →
          device.family? = some b.family ∧
            device.windows.head?.map Window.base = some (b.ioBase + b.family.pinOffset) ∧
            (∀ max, b.table.maxMcu? = some max → max < Backend.pinCount device) ∧
            ∀ (s : Hub Device) (plan : HandlePlan) (i : Nat) (rig : Rig Device),
              s.Supplies plan i b.table rig → rig.device.family? = device.family? →
              ∃ s', (Hub.build plan).run s = (.ok s.handles.size, s')) ∧
      ∀ (code code' : Nat), code % 2 ^ 24 = code' % 2 ^ 24 → ∀ dtModel : Option String,
        (∀ b, raspberryPi code dtModel = .ok b →
            raspberryPi code' dtModel = .ok { b with revisionCode := some code' }) ∧
          ∀ e, raspberryPi code dtModel = .error e →
            raspberryPi code' dtModel = .error (.unsupportedBoard (.unknownRevision code')) := by
  constructor
  · intro b hidentified
    have hb := hidentified.coherent
    refine ⟨hb, ?_⟩
    intro memDevice m m' device hselect
    have hdevice := Device.family?_of_select hselect
    refine ⟨hdevice, hb.base_of_select hselect, ?_, ?_⟩
    · intro max hmax
      exact hb.maxMcu?_lt hdevice hmax
    · intro s plan i rig hplan hrig
      have hfit : ∀ max, b.table.maxMcu? = some max → max < Backend.pinCount rig := by
        intro max hmax
        exact hb.maxMcu?_lt (hrig.trans hdevice) hmax
      obtain ⟨log, hbuild⟩ := (Hub.run_build hplan).2 hfit
      exact ⟨_, hbuild⟩
  · intro code code' hlow dtModel
    exact raspberryPi_congr hlow dtModel

/-- A machine whose memory device was just made. -/
def freshMachine : Machine where
  disk := ⟨some .zeros⟩

/-- A NanoPi NEO, whose layout uses the last pin of its chip. -/
def neo : BoardInfo where
  model := "FriendlyElec NanoPi NEO"
  soc := .allwinnerH3
  revision := .nanoPiNeo
  revisionCode := none
  ioBase := 0x01c20000

/-- A handle is built on the backend of a NanoPi NEO, and the overvoltage bit of a Raspberry Pi's
code does not count. -/
theorem identified_neo :
    ofSources "Hardware\t: sun8i\n" (some "FriendlyElec NanoPi NEO\x00") = .ok neo ∧ neo.Coherent ∧
      neo.table.maxMcu? = some 105 ∧
      (∃ device m' s', (Device.select neo "mem").run freshMachine = (.ok device, m') ∧
        105 < Backend.pinCount device ∧
        (Hub.build ⟨some 0, false, some neo.table, {}⟩).run { rigs := #[{ device := device }] } =
          (.ok 0, s')) ∧
      ∀ b, raspberryPi 0x1000002 none = .ok b →
        raspberryPi 0x0000002 none = .ok { b with revisionCode := some 0x0000002 } := by
  have hsources : ofSources "Hardware\t: sun8i\n" (some "FriendlyElec NanoPi NEO\x00") =
      .ok neo := by decide +kernel
  have hmax : neo.table.maxMcu? = some 105 := by decide +kernel
  have hselect : ∃ device m', (Device.select neo "mem").run freshMachine = (.ok device, m') := by
    have hopened : ((Device.select neo "mem").run freshMachine).1.isOk = true := by decide +kernel
    rcases hrun : (Device.select neo "mem").run freshMachine with ⟨e | device, m'⟩
    · rw [hrun] at hopened
      cases hopened
    · exact ⟨device, m', rfl⟩
  obtain ⟨device, m', hselect⟩ := hselect
  obtain ⟨hcoherent, hopened⟩ := identified.1 neo (.sources hsources)
  obtain ⟨-, -, hfit, hbuild⟩ := hopened "mem" freshMachine m' device hselect
  obtain ⟨s', hs'⟩ := hbuild { rigs := #[{ device := device }] }
    ⟨some 0, false, some neo.table, {}⟩ 0 { device := device } ⟨rfl, rfl, rfl⟩ rfl
  refine ⟨hsources, hcoherent, hmax, ⟨device, m', s', hselect, hfit 105 hmax, hs'⟩, ?_⟩
  exact (identified.2 0x1000002 0x0000002 (by decide) none).1

end BoardInfo

end BoardGpio
