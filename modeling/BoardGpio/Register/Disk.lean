import BoardGpio.Log.Notice
import BoardGpio.Register.Window

/-!
# Memory devices

The device that windows are opened on is a file whose bytes are physical memory. All windows on it
show the same bytes: a window is loaded from the device before it is used and stored back
afterwards. Opening checks the address first, then the path, then page alignment and length.
-/

set_option autoImplicit false

namespace BoardGpio

/-- The working directory: nothing but, once it was made, the memory device. -/
structure Disk where
  memory : Option Memory := none

namespace Disk

/-- The name of the memory device. -/
def memoryName : List Char := "mem".toList

/-- Greatest length of a name in a path, in bytes. -/
def nameMax : Nat := 255

/-- Greatest length of a path, in bytes. -/
def pathMax : Nat := 4095

/-- Length of a name in bytes. -/
def byteLength (name : List Char) : Nat := (String.ofList name).utf8ByteSize

/-- Number of places in a file. -/
def offsetBound : Nat := UInt64.size / 2

/-- The memory device at the end of a walk along the names of a path, or why there is none. The walk
is in the working directory, or in a directory above it of which nothing is known. A name may be
empty or a single dot, which both stay in place. -/
def walk (d : Disk) : Bool → List (List Char) → Except IoError Memory
  | _, [] => .error .isADirectory
  | home, name :: rest =>
    if name = [] ∨ name = ['.'] then walk d home rest
    else if name = ['.', '.'] then walk d false rest
    else if nameMax < byteLength name then .error .nameTooLong
    else if home = true ∧ name = memoryName then
      match d.memory with
      | some m => if rest.isEmpty then .ok m else .error .notADirectory
      | none => .error .notFound
    else .error .notFound

/-- The memory device at a path, or why there is none. -/
def find (d : Disk) (path : String) : Except IoError Memory :=
  if path.toList.contains '\x00' then .error .nulInPath
  else if path.isEmpty then .error .notFound
  else if pathMax < path.utf8ByteSize then .error .nameTooLong
  else d.walk (!path.startsWith "/") (path.toList.splitOn '/')

def openWindow (d : Disk) (device : String) (base len : Nat) : Except Error Window :=
  if offsetBound ≤ base then .error (.map device base .baseOutOfRange)
  else
    match d.find device with
    | .error why => .error (.map device base why)
    | .ok m =>
      if base % Window.pageLen ≠ 0 ∨ len = 0 then .error (.map device base .invalidArgument)
      else if Window.addressablePages < Window.pages len then
        .error (.map device base .outOfMemory)
      else if (offsetBound - 1 - Window.pages len * Window.pageLen) / Window.pageLen <
          base / Window.pageLen then
        .error (.map device base .valueTooLarge)
      else .ok ⟨base, len, some device, m⟩

/-- The window with what its device holds now. -/
def load (d : Disk) (w : Window) : Window :=
  match w.source, d.memory with
  | some _, some m => { w with memory := m }
  | _, _ => w

/-- The disk after the window was used. -/
def store (d : Disk) (w : Window) : Disk :=
  match w.source, d.memory with
  | some _, some m => { d with memory := some (m.splice w.start w.words w.memory) }
  | _, _ => d

end Disk

/-- The machine a program runs on: its disk, and the log it writes. -/
structure Machine where
  disk : Disk := {}
  log : List Notice := []

namespace Machine

def note (n : Notice) : Act Machine Unit :=
  Act.modify fun m => { m with log := m.log ++ [n] }

/-- Opens a window on a device. -/
def openWindow (device : String) (base len : Nat) : Act Machine Window := do
  let disk ← Act.gets Machine.disk
  let w ← Act.lift (disk.openWindow device base len)
  note (.mapped len base device)
  pure w

end Machine

end BoardGpio
