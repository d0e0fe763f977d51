import BoardGpio.Backend.Bcm
import BoardGpio.Backend.H3
import BoardGpio.Backend.Sim

/-!
# Devices

One of the three backends, chosen at run time: simulated pins, or the registers of a board's chip.
-/

set_option autoImplicit false

namespace BoardGpio

/-- A backend of some kind. -/
inductive Device where
  | sim (s : Sim)
  | bcm (b : Bcm)
  | h3 (h : H3)

namespace Device

/-- Does what fits the kind of the device. -/
def dispatch {α : Type} (onSim : Act Sim α) (onBcm : Act Bcm α) (onH3 : Act H3 α) :
    Act Device α := fun d =>
  match d with
  | .sim s => let (r, s) := onSim s; (r, .sim s)
  | .bcm b => let (r, b) := onBcm b; (r, .bcm b)
  | .h3 h => let (r, h) := onH3 h; (r, .h3 h)

instance : Backend Device where
  name
    | .sim s => Backend.name s
    | .bcm b => Backend.name b
    | .h3 h => Backend.name h
  pinCount
    | .sim s => Backend.pinCount s
    | .bcm b => Backend.pinCount b
    | .h3 h => Backend.pinCount h
  setMode pin mode :=
    dispatch (Backend.setMode pin mode) (Backend.setMode pin mode) (Backend.setMode pin mode)
  mode pin := dispatch (Backend.mode pin) (Backend.mode pin) (Backend.mode pin)
  setPull pin pull :=
    dispatch (Backend.setPull pin pull) (Backend.setPull pin pull) (Backend.setPull pin pull)
  pull pin := dispatch (Backend.pull pin) (Backend.pull pin) (Backend.pull pin)
  write pin high :=
    dispatch (Backend.write pin high) (Backend.write pin high) (Backend.write pin high)
  read pin := dispatch (Backend.read pin) (Backend.read pin) (Backend.read pin)
  toggle pin := dispatch (Backend.toggle pin) (Backend.toggle pin) (Backend.toggle pin)
  notice?
    | .sim s, pin, mode => Backend.notice? s pin mode
    | .bcm b, pin, mode => Backend.notice? b pin mode
    | .h3 h, pin, mode => Backend.notice? h pin mode

/-- Opens the backend of a board. -/
def select (board : BoardInfo) (memDevice : String) : Act Machine Device := do
  let device ← match board.family with
    | .bcm283x => do
      let b ← Bcm.openDevice memDevice board.soc board.ioBase
      pure (Device.bcm b)
    | .allwinnerH3 => do
      let h ← H3.openDevice memDevice
      pure (Device.h3 h)
  Machine.note (.backendReady (Backend.name device) board.model)
  pure device

/-- BCM283x pins with registers of their own. -/
def anonymousBcm (soc : Soc) (len : Nat) : Except Error Device := do
  let w ← Window.anonymous len
  pure (.bcm ⟨w, soc⟩)

/-- H3 pins with registers of their own. -/
def anonymousH3 (len : Nat) : Except Error Device := do
  let pio ← Window.anonymous len
  let rPio ← Window.anonymous len
  pure (.h3 ⟨pio, rPio⟩)

/-- The windows of a device, in the order they are given up. -/
def windows : Device → List Window
  | .sim _ => []
  | .bcm b => [b.window]
  | .h3 h => [h.pio, h.rPio]

/-- Does something with one of the device's windows. -/
def onWindow {α : Type} (index : Nat) (x : Act Window α) : Act Device α := fun d =>
  match d, index with
  | .bcm b, 0 => let (r, w) := x b.window; (r, .bcm { b with window := w })
  | .h3 h, 0 => let (r, w) := x h.pio; (r, .h3 { h with pio := w })
  | .h3 h, 1 => let (r, w) := x h.rPio; (r, .h3 { h with rPio := w })
  | d, i => (.error (.fault (.outsideWindow i 0)), d)

/-- The device with what its memory holds now. -/
def load (disk : Disk) : Device → Device
  | .sim s => .sim s
  | .bcm b => .bcm { b with window := disk.load b.window }
  | .h3 h => .h3 ⟨disk.load h.pio, disk.load h.rPio⟩

/-- The disk after the device was used. -/
def store (disk : Disk) (d : Device) : Disk :=
  d.windows.foldl Disk.store disk

end Device

end BoardGpio
